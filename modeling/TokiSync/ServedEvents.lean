import TokiSync.DeletionRaces
import TokiSync.DeviceOwners
import TokiSync.IndexOwners
import TokiSync.TenantIsolation

/-!
# The event store of the running server

Whatever connections, web requests and background tasks do, the event store
runs through its own operations, each one asked for by a step of the server. So
every stored event was uploaded on a connection that its user had opened for
its device. While nobody deletes an uploading device or its owner, the operations
respect the owners in the database, and queries on behalf of a user return nothing
but what that user uploaded.
-/

namespace TokiSync.ServedEvents

open Runs MachineWords ByteKeys ByteCodec ServerEvents WireWindows FjallStore SyncBatches
open SyncConnection SyncServer ConnectionAuth DeviceOwners InterleavedSessions
open FjallCoherence FjallQueries FjallRuns TenantIsolation
open DatabaseRepo (deviceOwner)

/-- What a call asks of the event store; an upsert of windows may stop at an
error. -/
def CallStores : Call → TenantOp → Prop
  | .upsertEvents events, op => op=.events (.upsert events)
  | .cleanupOldDedup deviceId cutoffMs, op => op=.events (.cleanup deviceId cutoffMs)
  | .deleteDeviceEvents deviceId, op => op=.events (.delete deviceId)
  | .upsertWindows userId provider items, op =>
    ∃ n, op=.upsertWindows userId provider (items.take n)
  | _, _ => False

/-- What a step asks of the event store. -/
def Stores : ServerLabel → TenantOp → Prop
  | .session _ (.call op _), t => CallStores op t
  | .environment (.deleteDeviceEvents deviceId), t => t=.events (.delete deviceId)
  | .environment (.deleteUserWindows userId), t => t=.deleteUserWindows userId
  | .environment (.cleanupOldWindows cutoffMs), t => t=.cleanupOldWindows cutoffMs
  | _, _ => False

section

variable {F : Formats} {eventCodec : Codec PersistedEvent} {windowCodec : Codec WireWindow}
variable {backend : OidcAccounts.Backend} {dedupRetentionSecs : Int64}
variable {i : ℕ} {s t done : Server}

theorem Writes.events {reply : Except String Unit} (h : Writes s done reply t) :
    t.events=s.events ∨ t.events=done.events := by
  rcases h with ⟨rfl,-⟩ | ⟨rfl,-⟩
  · exact .inr rfl
  · exact .inl rfl

theorem Executes.events {reply : Except String Unit}
    {result : Except DatabaseRepo.Refusal DatabaseRepo.Tables} (h : Executes s result reply t) :
    t.events=s.events := by
  cases result with
  | error e => exact congrArg Server.events h.1
  | ok db =>
    rcases h with ⟨rfl,-⟩ | ⟨rfl,-⟩ <;> rfl

/-- A call leaves the event store alone or does there what it asks for. -/
theorem events_of_call {op : Call} {reply : Answer op}
    (h : Calls F eventCodec windowCodec i op s reply t) :
    t.events=s.events ∨ ∃ asked, CallStores op asked ∧
      TenantStep eventCodec windowCodec s.events asked t.events := by
  cases op with
  | upsertEvents events =>
    obtain ⟨db,hup,h⟩ := h
    rcases Writes.events h with hsame | hdone
    · exact .inl hsame
    · refine .inr ⟨_,rfl,?_⟩
      rw [hdone]
      exact hup
  | cleanupOldDedup deviceId cutoffMs =>
    rcases Writes.events h with hsame | hdone
    · exact .inl hsame
    · exact .inr ⟨_,rfl,hdone⟩
  | deleteDeviceEvents deviceId =>
    rcases Writes.events h with hsame | hdone
    · exact .inl hsame
    · exact .inr ⟨_,rfl,hdone⟩
  | upsertWindows userId provider items =>
    obtain ⟨db,hup,rfl⟩ := h
    right
    cases reply with
    | ok skipped =>
      have hdb : WindowStore.upsertWindows windowCodec s.events userId provider items=
          (db,skipped) := hup
      refine ⟨_,⟨items.length,rfl⟩,?_⟩
      rw [List.take_length]
      exact (congrArg Prod.fst hdb).symm
    | error e =>
      obtain ⟨n,-,hdb⟩ := hup
      exact ⟨_,⟨n,rfl⟩,hdb⟩
  | updateDeviceSeen id name =>
    obtain ⟨now,h⟩ := h
    exact .inl (Executes.events h)
  | createDevice id userId name deviceKey =>
    obtain ⟨now,h⟩ := h
    exact .inl (Executes.events h)
  | resetCursor deviceId provider =>
    obtain ⟨now,h⟩ := h
    exact .inl (Executes.events h)
  | ensureCursor deviceId provider =>
    obtain ⟨now,h⟩ := h
    exact .inl (Executes.events h)
  | advanceCursor deviceId provider ts =>
    obtain ⟨now,h⟩ := h
    exact .inl (Executes.events h)
  | allow userId provider deviceId =>
    rw [h.2]
    exact .inl rfl
  | acquire =>
    rcases h with ⟨permits,-,rfl,-⟩ | ⟨rfl,-⟩ <;> exact .inl rfl
  | release =>
    have ht : t=s.release i := h
    rw [ht]
    exact .inl rfl
  | insertIfCurrent userId active genAtRead =>
    have ht : t={s with cache :=
      ActiveStatusCache.insertIfCurrent s.cache s.now userId active genAtRead} := h
    rw [ht]
    exact .inl rfl
  | nowMs => exact .inl (congrArg Server.events h)
  | write reply => exact .inl (congrArg Server.events h)
  | _ => exact .inl (congrArg Server.events h.1)

/-- A step leaves the event store alone or does there what it asks for. -/
theorem events_of_step {h h' : SyncHost} {label : ServerLabel}
    (taken : ServerStep F eventCodec windowCodec backend dedupRetentionSecs h label h') :
    h'.shared.events=h.shared.events ∨ ∃ asked, Stores label asked ∧
      TenantStep eventCodec windowCodec h.shared.events asked h'.shared.events := by
  cases taken with
  | opened phase effect =>
    obtain ⟨connections,-,rfl⟩ := effect
    exact .inl rfl
  | arrive phase => exact .inl rfl
  | call phase effect => exact events_of_call effect
  | finish phase => exact .inl rfl
  | closed phase effect =>
    cases effect
    exact .inl events_hangUp
  | dropped phase effect =>
    cases effect
    exact .inl events_hangUp
  | @environment e t effect =>
    cases e with
    | deleteDeviceEvents deviceId =>
      cases effect
      exact .inr ⟨_,rfl,rfl⟩
    | deleteUserWindows userId =>
      cases effect
      exact .inr ⟨_,rfl,rfl⟩
    | cleanupOldWindows cutoffMs =>
      cases effect
      exact .inr ⟨_,rfl,rfl⟩
    | _ =>
      cases effect
      exact .inl rfl

/-- The event store of a run of the server runs through operations that the
steps ask for. -/
theorem storeRun {init host : SyncHost} {history : List ServerLabel}
    (run : Run (ServerStep F eventCodec windowCodec backend dedupRetentionSecs) init history host) :
    ∃ ops, Run (TenantStep eventCodec windowCodec) init.shared.events ops host.shared.events ∧
      ∀ op∈ops, ∃ label∈history, Stores label op := by
  induction run with
  | start => exact ⟨[],.start,fun _ h => absurd h List.not_mem_nil⟩
  | next label run taken ih =>
    obtain ⟨ops,hrun,hops⟩ := ih
    have holder : ∀ op∈ops, ∃ other∈label::_, Stores other op := fun op hop =>
      have ⟨other,hmem,hstores⟩ := hops op hop
      ⟨other,List.mem_cons_of_mem _ hmem,hstores⟩
    rcases events_of_step taken with hsame | ⟨asked,hstores,hstep⟩
    · rw [hsame]
      exact ⟨ops,hrun,holder⟩
    · refine ⟨asked::ops,.next asked hrun hstep,fun op hop => ?_⟩
      rcases List.mem_cons.mp hop with rfl | hop
      · exact ⟨label,List.mem_cons_self,hstores⟩
      · exact holder op hop

/-- A row after a run of the event store was there before or holds an event that
was upserted. -/
theorem row_of_run {ops : List TenantOp} {db db' : Db} {k v : Bytes}
    (run : Run (TenantStep eventCodec windowCodec) db ops db') (hv : (db' .events)[k]?=some v) :
    (db .events)[k]?=some v ∨ ∃ events, .events (.upsert events)∈ops ∧
      ∃ e∈events, v=encodeEvent eventCodec e := by
  induction run generalizing v with
  | start => exact .inl hv
  | @next past mid after op run taken ih =>
    have holder : (mid .events)[k]?=some v → (db .events)[k]?=some v ∨
        ∃ events, .events (.upsert events)∈op::past ∧ ∃ e∈events, v=encodeEvent eventCodec e := by
      intro hbefore
      refine (ih hbefore).imp_right fun ⟨events,hop,hrest⟩ => ?_
      exact ⟨events,List.mem_cons_of_mem _ hop,hrest⟩
    cases op with
    | events op =>
      cases op with
      | upsert events =>
        rcases DeletionRaces.row_of_upserted taken hv with hbefore | ⟨e,he,hrow⟩
        · exact holder hbefore
        · exact .inr ⟨events,List.mem_cons_self,e,he,hrow⟩
      | cleanup deviceId cutoffMs =>
        cases taken
        rw [get_cleanupOldDedup_of_ne _ _ _ (by decide)] at hv
        exact holder hv
      | delete deviceId =>
        cases taken
        exact holder (get_deleteDeviceEvents_events.mp hv).1
    | upsertWindows userId provider items =>
      cases taken
      have hother : ¬(KeyspaceName.events=.windows ∧
          delimited (utf8 userId)<+:k) := fun hcell => nomatch hcell.1
      rw [WindowQueries.get_upsertWindows_of_other hother] at hv
      exact holder hv
    | deleteUserWindows userId =>
      cases taken
      exact holder (WindowQueries.get_deleteUserWindows_iff.mp hv).1
    | cleanupOldWindows cutoffMs =>
      cases taken
      exact holder (WindowQueries.get_cleanupOldWindows_iff.mp hv).1

end

/-- An event arrived in a batch on a connection that its user had opened for its
device, and was handed to the event store. -/
def Uploaded (F : Formats) (history : List ServerLabel) (e : ServerEvent) : Prop :=
  ∃ newer older i upload reply,
    history=newer++.session i (.call (.upsertEvents upload.serverEvents) reply)::older ∧
    Accepted F (inner i older) upload ∧ e∈upload.serverEvents

section

variable {F : Formats} {eventCodec : Codec PersistedEvent} {windowCodec : Codec WireWindow}
variable {backend : OidcAccounts.Backend} {dedupRetentionSecs : Int64}
variable {init host : SyncHost} {history : List ServerLabel}

/-- Everything that a step hands to the event store was uploaded. -/
theorem uploaded_of_stores (hunopened : ∀ i, init.phases i=.unopened)
    (run : Run (ServerStep F eventCodec windowCodec backend dedupRetentionSecs) init history host)
    {label : ServerLabel} (hlabel : label∈history) {events : List ServerEvent}
    (hstores : Stores label (.events (.upsert events))) {e : ServerEvent} (he : e∈events) :
    Uploaded F history e := by
  cases label with
  | environment e => cases e <;> cases hstores
  | session i event =>
    cases event with
    | call op reply =>
      cases op with
      | upsertEvents uploaded =>
        cases hstores
        obtain ⟨newer,older,rfl⟩ := List.append_of_mem hlabel
        obtain ⟨upload,haccepted,rfl,-,-⟩ := authorized_of_run hunopened run
        exact ⟨newer,older,i,upload,reply,rfl,haccepted,he⟩
      | upsertWindows userId provider items =>
        obtain ⟨n,hn⟩ := hstores
        cases hn
      | _ => cases hstores
    | _ => cases hstores

/-- Whatever connections, web requests and background tasks do, an event is in
the store because it was there at the start or because it was uploaded. -/
theorem stored_events_uploaded (hunopened : ∀ i, init.phases i=.unopened)
    (run : Run (ServerStep F eventCodec windowCodec backend dedupRetentionSecs) init history host)
    {k v : Bytes} (hv : (host.shared.events .events)[k]?=some v) :
    (init.shared.events .events)[k]?=some v ∨
      ∃ e, Uploaded F history e ∧ v=encodeEvent eventCodec e := by
  obtain ⟨ops,hrun,hops⟩ := storeRun run
  refine (row_of_run hrun hv).imp_right fun ⟨events,hop,e,he,hrow⟩ => ⟨e,?_,hrow⟩
  obtain ⟨label,hlabel,hstores⟩ := hops _ hop
  exact uploaded_of_stores hunopened run hlabel hstores he

/-- The one row of the sample run was uploaded. -/
theorem stored_events_uploaded_sample : ∃ host, SampleRun host ∧
    ∃ v, (host.shared.events .events)[eventKey 7 "d1" "codex" "m1"]?=some v ∧
      ∃ e, Uploaded sampleFormats sampleLabels e ∧ v=encodeEvent eventLayout.codec e := by
  obtain ⟨s,rest,run,-,-,hevents⟩ := sampleRun
  have hrow : ((upsertEvents eventLayout.codec emptyDb
      (SyncCursor.sampleUpload "codex" 7).serverEvents .events)[eventKey 7 "d1" "codex"
        "m1"]?).isSome=true := by
    decide +kernel
  obtain ⟨v,hv⟩ := Option.isSome_iff_exists.mp hrow
  rw [←hevents] at hv
  refine ⟨_,run,v,hv,?_⟩
  rcases stored_events_uploaded (fun _ => rfl) run hv with hnone | huploaded
  · have hempty : (emptyDb .events)[eventKey 7 "d1" "codex" "m1"]?=some v := hnone
    rw [emptyDb,BatchedMaps.get_emptyMaps] at hempty
    cases hempty
  · exact huploaded

/-- The owner of a device in the database at the end. -/
def finalOwner (host : SyncHost) (deviceId : String) : String :=
  (deviceOwner host.shared.db deviceId).getD ""

/-- The ids that a step hands to the event store contain no key delimiter. -/
def Delimits (label : ServerLabel) : Prop :=
  ∀ op, Stores label op → match op with
    | .events op => op.Delimitable
    | .upsertWindows userId _ _ => NulFree (utf8 userId)
    | .deleteUserWindows userId => NulFree (utf8 userId)
    | .cleanupOldWindows _ => True

/-- Nobody deletes a device of an upload or its owner in the meantime. -/
def DevicesKept (history : List ServerLabel) : Prop :=
  ∀ label∈history, ∀ events, Stores label (.events (.upsert events)) →
    ∀ e∈events, Undisturbed history e.deviceId e.userId

/-- While nobody deletes an uploading device or its owner, the operations of the
event store are those of the owners of the devices in the database. -/
theorem storeRun_admitted (hunopened : ∀ i, init.phases i=.unopened)
    (run : Run (ServerStep F eventCodec windowCodec backend dedupRetentionSecs) init history host)
    (hdelimits : ∀ label∈history, Delimits label) (hkept : DevicesKept history) :
    ∃ ops, Run (TenantStep eventCodec windowCodec) init.shared.events ops host.shared.events ∧
      (∀ op∈ops, ∃ label∈history, Stores label op) ∧ ∀ op∈ops, op.Admitted (finalOwner host) := by
  obtain ⟨ops,hrun,hops⟩ := storeRun run
  refine ⟨ops,hrun,hops,fun op hop => ?_⟩
  obtain ⟨label,hlabel,hstores⟩ := hops op hop
  have hdelimitable := hdelimits label hlabel op hstores
  cases op with
  | events op =>
    refine ⟨hdelimitable,?_⟩
    rintro events rfl e he
    have howner : deviceOwner host.shared.db e.deviceId=some e.userId := by
      obtain ⟨newer,older,i,upload,reply,hhistory,-,hmem⟩ :=
        uploaded_of_stores hunopened run hlabel hstores he
      have hcall : .session i (.call (.upsertEvents upload.serverEvents) reply)∈history := by
        rw [hhistory]
        exact List.mem_append_right _ List.mem_cons_self
      exact owner_of_upload hunopened run hcall hmem (hkept label hlabel events hstores e he)
    rw [finalOwner,howner]
    rfl
  | upsertWindows userId provider items => exact hdelimitable
  | deleteUserWindows userId => exact hdelimitable
  | cleanupOldWindows cutoffMs => exact hdelimitable

/-- Every reachable event store keeps its keyspaces in step, with rows of the
owners of their devices. -/
theorem tenanted_of_run (hunopened : ∀ i, init.phases i=.unopened)
    (hempty : init.shared.events=emptyDb)
    (run : Run (ServerStep F eventCodec windowCodec backend dedupRetentionSecs) init history host)
    (hdelimits : ∀ label∈history, Delimits label) (hkept : DevicesKept history) :
    Tenanted eventCodec (finalOwner host) host.shared.events := by
  obtain ⟨ops,hrun,-,hadmitted⟩ := storeRun_admitted hunopened run hdelimits hkept
  rw [hempty] at hrun
  refine Run.invariant_of (A:=fun ops => ∀ op∈ops, TenantOp.Admitted (finalOwner host) op)
    (I:=fun _ db => Tenanted eventCodec (finalOwner host) db) forall_mem_tail tenanted_emptyDb ?_
    hadmitted hrun
  exact fun past db op db' _ hall h hstep => h.step (hall op List.mem_cons_self) hstep

/-- Whatever happens on the server while nobody deletes an uploading device or its
owner, its event store runs through operations that its steps ask for, all of them
by the owners of the devices, and keeps its keyspaces in step. -/
theorem store_serves_owners (hunopened : ∀ i, init.phases i=.unopened)
    (hempty : init.shared.events=emptyDb)
    (run : Run (ServerStep F eventCodec windowCodec backend dedupRetentionSecs) init history host)
    (hdelimits : ∀ label∈history, Delimits label) (hkept : DevicesKept history) :
    (∃ ops, Run (TenantStep eventCodec windowCodec) emptyDb ops host.shared.events ∧
      (∀ op∈ops, ∃ label∈history, Stores label op) ∧ ∀ op∈ops, op.Admitted (finalOwner host)) ∧
    Tenanted eventCodec (finalOwner host) host.shared.events := by
  refine ⟨?_,tenanted_of_run hunopened hempty run hdelimits hkept⟩
  rw [←hempty]
  exact storeRun_admitted hunopened run hdelimits hkept

end

section

variable {bincode : Codec PersistedEvent} {db : Db} {owner : String → String}

/-- An event comes from a row that a filter admits, with a session of its own. -/
def FromRow (bincode : Codec PersistedEvent) (db : Db) (filter : UserFilter) (e : ServerEvent) :
    Prop :=
  ∃ (k v : Bytes) (r : ServerEvent), (db .events)[k]?=some v ∧ decodeEvent bincode v=some r ∧
    filter.admits r.userId=true ∧ e={r with session := e.session}

/-- The full scan returns what is in rows. -/
theorem mem_scanEventsLoop {untilMs : Int64} {filter : UserFilter} {limit : ℕ}
    {rows : List (Bytes×Bytes)} (hrows : ∀ kv∈rows, (db .events)[kv.1]?=some kv.2)
    {results : List ServerEvent} {e : ServerEvent}
    (he : e∈scanEventsLoop bincode db untilMs filter limit rows results) :
    e∈results ∨ FromRow bincode db filter e := by
  induction rows generalizing results with
  | nil => exact .inl he
  | cons kv rows ih =>
    have hlater : ∀ {results}, e∈scanEventsLoop bincode db untilMs filter limit rows results →
        e∈results ∨ FromRow bincode db filter e :=
      ih fun kv hkv => hrows kv (List.mem_cons_of_mem _ hkv)
    rw [scanEventsLoop] at he
    split_ifs at he
    · exact hlater he
    · exact .inl he
    · cases hdecode : decodeEvent bincode kv.2 with
      | none =>
        rw [hdecode] at he
        exact hlater he
      | some r =>
        rw [hdecode] at he
        dsimp only at he
        have hfound : filter.admits r.userId=true →
            e∈results++[{r with session := loadSession db kv.1}] →
            e∈results ∨ FromRow bincode db filter e := by
          intro hadmits he
          refine (List.mem_append.mp he).imp_right fun he => ?_
          rw [List.mem_singleton.mp he]
          exact ⟨kv.1,kv.2,r,hrows kv List.mem_cons_self,hdecode,hadmits,rfl⟩
        split_ifs at he with hadmits hlimit
        · exact hfound hadmits he
        · rcases hlater he with he | hrow
          · exact hfound hadmits he
          · exact .inr hrow
        · exact hlater he

/-- The scan of a user's index returns what is in rows of the user. -/
theorem mem_scanUserEvents (h : Tenanted bincode owner db) {userId : String}
    (hu : NulFree (utf8 userId)) {filter : UserFilter} (hadmits : filter.admits userId=true)
    {sinceMs untilMs : Int64} {limit : ℕ} {e : ServerEvent}
    (he : e∈scanUserEvents bincode db userId sinceMs untilMs limit) :
    FromRow bincode db filter e := by
  rcases IndexOwners.mem_scanUserEventsLoop he with he | ⟨kv,hkv,hrow⟩
  · cases he
  · obtain ⟨r,hdecode,rfl⟩ := Option.map_eq_some_iff.mp hrow
    rw [keyspacePrefix,List.mem_filter,decide_eq_true_eq] at hkv
    have hv := Std.ExtTreeMap.mem_toList_iff_getElem?_eq_some.mp hkv.1
    obtain ⟨k,x,hrow,hx,hkey⟩ := h.mirrored.copy kv.1 kv.2 hv
    rw [hdecode,Option.some.injEq] at hx
    subst hx
    have huser : r.userId=userId := by
      have hprefix := hkv.2
      rw [hkey,userIdxKey,delimited_prefix_iff hu (h.aligned.of_decode hrow hdecode).2.2] at hprefix
      exact (utf8_injective hprefix).symm
    refine ⟨k,kv.2,r,hrow,hdecode,?_,rfl⟩
    rw [huser]
    exact hadmits

theorem mem_queryUsersLoop {sinceMs untilMs : Int64} {limit : ℕ} {uids : List String}
    {out : List ServerEvent} {e : ServerEvent}
    (he : e∈queryUsersLoop bincode db sinceMs untilMs limit uids out) :
    e∈out ∨ ∃ uid∈uids, ∃ headroom, e∈scanUserEvents bincode db uid sinceMs untilMs headroom := by
  induction uids generalizing out with
  | nil => exact .inl he
  | cons uid uids ih =>
    rw [queryUsersLoop] at he
    split_ifs at he
    · exact .inl he
    · rcases ih he with he | ⟨other,hother,headroom,he⟩
      · rcases List.mem_append.mp he with he | he
        · exact .inl he
        · exact .inr ⟨uid,List.mem_cons_self,_,he⟩
      · exact .inr ⟨other,List.mem_cons_of_mem _ hother,headroom,he⟩

/-- A query returns what is in rows of the users of its filter. -/
theorem mem_queryEvents (h : Tenanted bincode owner db) {filter : UserFilter}
    (hfilter : UserFilter.Delimitable filter) {sinceMs untilMs : Int64} {limit : ℕ}
    {e : ServerEvent} (he : e∈queryEvents bincode db sinceMs untilMs filter limit) :
    FromRow bincode db filter e := by
  cases filter with
  | single userId =>
    have hadmits : (UserFilter.single userId).admits userId=true := decide_eq_true rfl
    exact mem_scanUserEvents h hfilter hadmits he
  | multiple uids =>
    rcases mem_queryUsersLoop he with he | ⟨uid,huid,headroom,he⟩
    · cases he
    · have hadmits : (UserFilter.multiple uids).admits uid=true := List.contains_iff_mem.mpr huid
      exact mem_scanUserEvents h (hfilter.1 uid huid) hadmits he
  | all =>
    have hrows : ∀ kv∈keyspaceRange (db .events) (toBeBytes sinceMs),
        (db .events)[kv.1]?=some kv.2 := fun kv hkv =>
      Std.ExtTreeMap.mem_toList_iff_getElem?_eq_some.mp (List.mem_of_mem_filter hkv)
    rcases mem_scanEventsLoop hrows he with he | hrow
    · cases he
    · exact hrow

end

section

variable {F : Formats} {eventCodec : Codec PersistedEvent} {windowCodec : Codec WireWindow}
variable {backend : OidcAccounts.Backend} {dedupRetentionSecs : Int64}
variable {init host : SyncHost} {history : List ServerLabel}

/-- What a query returns was uploaded by users of its filter. -/
theorem uploads_of_query (hunopened : ∀ i, init.phases i=.unopened)
    (hempty : init.shared.events=emptyDb)
    (run : Run (ServerStep F eventCodec windowCodec backend dedupRetentionSecs) init history host)
    (hdelimits : ∀ label∈history, Delimits label) (hkept : DevicesKept history)
    {filter : UserFilter} (hfilter : UserFilter.Delimitable filter) {sinceMs untilMs : Int64}
    {limit : ℕ} {e : ServerEvent}
    (he : e∈queryEvents eventCodec host.shared.events sinceMs untilMs filter limit) :
    ∃ uploaded, Uploaded F history uploaded ∧ filter.admits uploaded.userId=true ∧
      e={uploaded with session := e.session} := by
  have htenanted := tenanted_of_run hunopened hempty run hdelimits hkept
  obtain ⟨k,v,r,hrow,hdecode,hadmits,he⟩ := mem_queryEvents htenanted hfilter he
  obtain ⟨ops,hrun,hops⟩ := storeRun run
  rw [hempty] at hrun
  rcases row_of_run hrun hrow with hnone | ⟨events,hop,uploaded,hmem,rfl⟩
  · rw [emptyDb,BatchedMaps.get_emptyMaps] at hnone
    cases hnone
  · obtain ⟨label,hlabel,hstores⟩ := hops _ hop
    rw [decodeEvent_encodeEvent,Option.some.injEq] at hdecode
    subst hdecode
    exact ⟨uploaded,uploaded_of_stores hunopened run hlabel hstores hmem,hadmits,he⟩

/-- A query returns nothing but what users of its filter uploaded on connections
that they had opened themselves, whatever the other users did meanwhile. -/
theorem queries_return_uploads (hunopened : ∀ i, init.phases i=.unopened)
    (hempty : init.shared.events=emptyDb)
    (run : Run (ServerStep F eventCodec windowCodec backend dedupRetentionSecs) init history host)
    (hdelimits : ∀ label∈history, Delimits label) (hkept : DevicesKept history)
    {filter : UserFilter} (hfilter : UserFilter.Delimitable filter) {sinceMs untilMs : Int64}
    {limit : ℕ} {e : ServerEvent}
    (he : e∈queryEvents eventCodec host.shared.events sinceMs untilMs filter limit) :
    ∃ uploaded, Uploaded F history uploaded ∧ filter.admits uploaded.userId=true ∧
      e={uploaded with session := e.session} :=
  uploads_of_query hunopened hempty run hdelimits hkept hfilter he

/-- The steps of the sample run keep to what is asked of ids and devices. -/
theorem sampleLabels_kept : (∀ label∈sampleLabels, Delimits label) ∧ DevicesKept sampleLabels := by
  constructor
  · have hrest : ∀ label∈sampleLabels.tail, ∀ op, ¬Stores label op := by
      simp [sampleLabels,sampleUploading,sampleHandshake,Stores,CallStores]
    refine List.forall_mem_cons.mpr ⟨fun op hstores => ?_,fun label hlabel op hstores => ?_⟩
    · cases hstores
      have hdelimitable :
          (StoreOp.upsert (SyncCursor.sampleUpload "codex" 7).serverEvents).Delimitable := by
        decide
      exact hdelimitable
    · exact absurd hstores (hrest label hlabel op)
  · intro label hlabel events hstores e he w hw
    obtain ⟨event,-,hevent⟩ := List.mem_map.mp hw
    cases hevent

/-- The sample run serves the owner of its device. -/
theorem store_serves_owners_sample : ∃ host, SampleRun host ∧
    Tenanted eventLayout.codec (finalOwner host) host.shared.events ∧
      finalOwner host "d1"="u1" := by
  obtain ⟨s,rest,run,-,howner,-⟩ := sampleRun
  refine ⟨_,run,
    (store_serves_owners (fun _ => rfl) rfl run sampleLabels_kept.1 sampleLabels_kept.2).2,?_⟩
  rw [finalOwner,howner]
  rfl

/-- A query of the user returns the one event of the first batch, which the user
uploaded. -/
theorem queries_return_uploads_sample : ∃ host, SampleRun host ∧ ∃ e uploaded : ServerEvent,
    e∈queryEvents eventLayout.codec host.shared.events 0 100 (.single "u1") 10 ∧
    Uploaded sampleFormats sampleLabels uploaded ∧ uploaded.userId="u1" ∧
      e={uploaded with session := e.session} := by
  obtain ⟨s,rest,run,-,-,hevents⟩ := sampleRun
  have hlength : (queryEvents eventLayout.codec (upsertEvents eventLayout.codec emptyDb
      (SyncCursor.sampleUpload "codex" 7).serverEvents) 0 100 (.single "u1") 10).length=1 := by
    decide +kernel
  obtain ⟨e,he⟩ := List.exists_mem_of_length_pos (hlength ▸ Nat.one_pos)
  rw [←hevents] at he
  have hfilter : UserFilter.Delimitable (.single "u1") := by
    have hu : NulFree (utf8 "u1") := by decide
    exact hu
  obtain ⟨uploaded,huploaded,hadmits,hsame⟩ := queries_return_uploads (fun _ => rfl) rfl run
    sampleLabels_kept.1 sampleLabels_kept.2 hfilter he
  exact ⟨_,run,e,uploaded,he,huploaded,of_decide_eq_true hadmits,hsame⟩

end

end TokiSync.ServedEvents
