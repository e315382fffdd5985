import TokiSync.DeviceDeletion
import TokiSync.FjallReplays
import TokiSync.WindowQueries

/-!
# Tenant isolation of the embedded store

All tenants share the keyspaces of the store. Every operation is on the
devices or the windows of one user, but for uploads, whose batches may be
mixed, and the sweep of old windows. A user's cells are those of the devices
the user owns and the windows under the user id; no operation on other users
touches them, so the queries of a user see only the operations on that user.
-/

namespace TokiSync.TenantIsolation

open MachineWords ByteKeys ByteCodec BatchedMaps ServerEvents WireWindows FjallStore
open FjallCoherence FjallBatches FjallRuns FjallReplays DeviceDeletion WindowStore WindowQueries
open Runs

/-- Operations of the store. -/
inductive TenantOp where
  /-- A mutation of the event keyspaces. -/
  | events (op : StoreOp)
  /-- Merge windows of a user and provider. -/
  | upsertWindows (userId provider : String) (items : List WireWindow)
  /-- Drop the windows of a user. -/
  | deleteUserWindows (userId : String)
  /-- Drop the windows that ended before the cutoff. -/
  | cleanupOldWindows (cutoffMs : Int64)

/-- One operation of the store. -/
def TenantStep (eventCodec : Codec PersistedEvent) (windowCodec : Codec WireWindow) (db : Db)
    (op : TenantOp) (db' : Db) : Prop :=
  match op with
  | .events op => StoreStep eventCodec db op db'
  | .upsertWindows userId provider items =>
    db'=(upsertWindows windowCodec db userId provider items).1
  | .deleteUserWindows userId => db'=deleteUserWindows db userId
  | .cleanupOldWindows cutoffMs => db'=cleanupOldWindows db cutoffMs

/-- Ids without key delimiters, and events of the user who owns their
device. -/
def TenantOp.Admitted (owner : String → String) : TenantOp → Prop
  | .events op => op.Delimitable ∧ ∀ events, op=.upsert events →
    ∀ e∈events, owner e.deviceId=e.userId
  | .upsertWindows userId _ _ => NulFree (utf8 userId)
  | .deleteUserWindows userId => NulFree (utf8 userId)
  | .cleanupOldWindows _ => True

/-- What stays of an operation on the event keyspaces when those on other
users' devices are erased. -/
def keepEvents (owner : String → String) (userId : String) : StoreOp → Option StoreOp
  | .upsert events => some (.upsert (events.filter fun e => e.userId=userId))
  | .cleanup deviceId cutoffMs =>
    if owner deviceId=userId then some (.cleanup deviceId cutoffMs) else none
  | .delete deviceId => if owner deviceId=userId then some (.delete deviceId) else none

/-- What stays of an operation when those on other users' devices and windows
are erased. -/
def keepUser (owner : String → String) (userId : String) : TenantOp → Option TenantOp
  | .events op => (keepEvents owner userId op).map .events
  | .upsertWindows user provider items =>
    if user=userId then some (.upsertWindows user provider items) else none
  | .deleteUserWindows user => if user=userId then some (.deleteUserWindows user) else none
  | .cleanupOldWindows cutoffMs => some (.cleanupOldWindows cutoffMs)

/-- Event cells of the devices a user owns. -/
def OfUser (owner : String → String) (userId : String) (cell : KeyspaceName×Bytes) : Prop :=
  ∃ deviceId, owner deviceId=userId ∧ NulFree (utf8 deviceId) ∧ OfDevice deviceId cell

/-- Two stores hold the same in the cells of a user. -/
structure SameFor (owner : String → String) (userId : String) (db db' : Db) : Prop where
  /-- The cells of the user's devices agree. -/
  events : ∀ name (k : Bytes), OfUser owner userId (name,k) → (db name)[k]?=(db' name)[k]?
  /-- The windows under the user id agree. -/
  windows : ∀ k : Bytes, delimited (utf8 userId)<+:k → (db .windows)[k]?=(db' .windows)[k]?

/-- The event keyspaces in step, with rows of the owners of their devices. -/
structure Tenanted (bincode : Codec PersistedEvent) (owner : String → String) (db : Db) :
    Prop where
  /-- Rows and pointers agree with their keys. -/
  aligned : Aligned bincode db
  /-- Index copies and sessions agree with the rows. -/
  mirrored : Mirrored bincode db
  /-- Rows belong to the owner of their device. -/
  owned : Owned bincode (fun deviceId => some (owner deviceId)) db

section

variable {eventCodec : Codec PersistedEvent} {windowCodec : Codec WireWindow}
variable {owner : String → String} {userId : String} {db db' : Db}

/-- Stores that differ in windows only have the same event keyspaces in
step. -/
theorem Tenanted.congr (h : Tenanted eventCodec owner db)
    (hsame : ∀ name (k : Bytes), name≠.windows → (db' name)[k]?=(db name)[k]?) :
    Tenanted eventCodec owner db' := by
  have heq : ∀ name, name≠.windows → db' name=db name := fun name hname =>
    Std.ExtTreeMap.ext_getElem? fun k => hsame name k hname
  have hevents := heq .events (by decide)
  have hidxMsg := heq .idxMsg (by decide)
  have hidxUser := heq .idxUser (by decide)
  have hsessions := heq .sessions (by decide)
  refine ⟨⟨?_,?_⟩,⟨?_,?_,?_⟩,?_⟩
  · rw [hevents]
    exact h.aligned.row
  · rw [hevents,hidxMsg]
    exact h.aligned.pointer
  · rw [hevents,hidxUser]
    exact h.mirrored.copied
  · rw [hevents,hidxUser]
    exact h.mirrored.copy
  · rw [hevents,hsessions]
    exact h.mirrored.session
  · unfold Owned
    rw [hevents]
    exact h.owned

/-- Every operation keeps the event keyspaces in step. -/
theorem Tenanted.step (h : Tenanted eventCodec owner db) {op : TenantOp}
    (hop : op.Admitted owner) (hstep : TenantStep eventCodec windowCodec db op db') :
    Tenanted eventCodec owner db' := by
  cases op with
  | events op =>
    obtain ⟨hd,howner⟩ := hop
    cases op with
    | upsert events =>
      have hwin : ∀ e∈winners events, e.Delimitable := fun e he => hd e (mem_of_mem_winners he)
      have huser : ∀ e∈winners events, some (owner e.deviceId)=some e.userId := by
        intro e he
        rw [howner events rfl e (mem_of_mem_winners he)]
      rw [UpsertEvents.eq_upsertAll h.aligned hd hstep]
      obtain ⟨hm,ho⟩ := mirrored_upsertAll h.mirrored h.aligned h.owned hwin huser
      exact ⟨aligned_upsertAll h.aligned hwin,hm,ho⟩
    | cleanup deviceId cutoffMs =>
      cases hstep
      refine ⟨aligned_cleanupOldDedup h.aligned _ _,mirrored_cleanupOldDedup h.mirrored _ _,
        fun k v e hv he => ?_⟩
      rw [get_cleanupOldDedup_of_ne _ _ _ (by decide)] at hv
      exact h.owned k v e hv he
    | delete deviceId =>
      cases hstep
      refine ⟨aligned_deleteDeviceEvents h.aligned hd,
        mirrored_deleteDeviceEvents h.mirrored h.aligned _,fun k v e hv he => ?_⟩
      exact h.owned k v e (get_deleteDeviceEvents_events.mp hv).1 he
  | upsertWindows user provider items =>
    cases hstep
    exact h.congr fun name k hname => get_upsertWindows_of_other fun hcell => hname hcell.1
  | deleteUserWindows user =>
    cases hstep
    refine h.congr fun name k hname => Option.ext fun v => ?_
    rw [get_deleteUserWindows_iff,and_iff_left fun hcell => hname hcell.1]
  | cleanupOldWindows cutoffMs =>
    cases hstep
    refine h.congr fun name k hname => Option.ext fun v => ?_
    rw [get_cleanupOldWindows_iff,and_iff_left fun hcell => hname hcell.1]

/-- An empty store is in step. -/
theorem tenanted_emptyDb : Tenanted eventCodec owner emptyDb := by
  have h : Coherent eventCodec [] emptyDb := coherent_emptyDb
  refine ⟨h.aligned,h.mirrored,fun k v e hv _ => ?_⟩
  rw [emptyDb,get_emptyMaps] at hv
  cases hv

/-- What stays of an admitted operation is admitted. -/
theorem admitted_of_keepUser {op op' : TenantOp} (hop : op.Admitted owner)
    (hkept : keepUser owner userId op=some op') : op'.Admitted owner := by
  cases op with
  | events op =>
    obtain ⟨kept,hevents,rfl⟩ := Option.map_eq_some_iff.mp hkept
    obtain ⟨hd,howner⟩ := hop
    cases op with
    | upsert events =>
      cases hevents
      refine ⟨fun e he => hd e (List.mem_of_mem_filter he),?_⟩
      intro more hmore e he
      cases hmore
      exact howner events rfl e (List.mem_of_mem_filter he)
    | cleanup deviceId cutoffMs =>
      rw [keepEvents,Option.ite_none_right_eq_some] at hevents
      cases hevents.2
      refine ⟨hd,fun events hevents => ?_⟩
      cases hevents
    | delete deviceId =>
      rw [keepEvents,Option.ite_none_right_eq_some] at hevents
      cases hevents.2
      refine ⟨hd,fun events hevents => ?_⟩
      cases hevents
  | upsertWindows user provider items =>
    rw [keepUser,Option.ite_none_right_eq_some] at hkept
    cases hkept.2
    exact hop
  | deleteUserWindows user =>
    rw [keepUser,Option.ite_none_right_eq_some] at hkept
    cases hkept.2
    exact hop
  | cleanupOldWindows cutoffMs =>
    cases hkept
    exact trivial

/-- A user's cell in the lane of an event belongs to the event's device. -/
theorem OfUser.owner_eq {cell : KeyspaceName×Bytes} (h : OfUser owner userId cell)
    {e : ServerEvent} (he : NulFree (utf8 e.deviceId)) (hlane : InLane e.idxKey cell) :
    owner e.deviceId=userId := by
  obtain ⟨deviceId,rfl,hd,hof⟩ := h
  rw [hof.device_eq hd he hlane]

/-- Cells of another user's device belong to no device of the user. -/
theorem OfUser.not_ofDevice {cell : KeyspaceName×Bytes} (h : OfUser owner userId cell)
    {deviceId : String} (hd : NulFree (utf8 deviceId)) (hne : owner deviceId≠userId) :
    ¬OfDevice deviceId cell := by
  intro hof
  obtain ⟨device,rfl,hdevice,hcell⟩ := h
  exact hne (congrArg owner (hof.unique hcell hd hdevice))

/-- The cells of an event that its owner's device uploaded. -/
theorem ofUser_of_inLane {e : ServerEvent} (hd : NulFree (utf8 e.deviceId))
    (howner : owner e.deviceId=userId) {cell : KeyspaceName×Bytes}
    (hlane : InLane e.idxKey cell) : OfUser owner userId cell :=
  ⟨e.deviceId,howner,hd,ofDevice_of_inLane hlane⟩

/-- No window belongs to a device. -/
theorem not_ofDevice_windows (deviceId : String) (k : Bytes) :
    ¬OfDevice deviceId (.windows,k) := by
  rintro ⟨provider,msgId,hlane⟩
  exact hlane

/-- No window is an event cell of a user. -/
theorem OfUser.ne_windows {name : KeyspaceName} {k : Bytes} (h : OfUser owner userId (name,k)) :
    name≠.windows := by
  rintro rfl
  obtain ⟨deviceId,-,-,hof⟩ := h
  exact not_ofDevice_windows deviceId k hof

/-- Uploads keep two stores the same for a user, when the second one lacks
the events of other users. -/
theorem SameFor.upsert (hsame : SameFor owner userId db db') (h : Aligned eventCodec db)
    (h' : Aligned eventCodec db') {events : List ServerEvent}
    (hd : ∀ e∈events, e.Delimitable) (howner : ∀ e∈events, owner e.deviceId=e.userId)
    {t t' : Db} (hup : UpsertEvents eventCodec db events t)
    (hup' : UpsertEvents eventCodec db' (events.filter fun e => e.userId=userId) t') :
    SameFor owner userId t t' := by
  have hd' : ∀ e∈events.filter fun e => e.userId=userId, e.Delimitable :=
    fun e he => hd e (List.mem_of_mem_filter he)
  have hkeys : ∀ a∈events, ∀ b∈events, a.idxKey=b.idxKey →
      decide (a.userId=userId)=decide (b.userId=userId) := by
    intro a ha b hb heq
    rw [←howner a ha,←howner b hb,idxKey_device (hd a ha).1 (hd b hb).1 heq]
  have hwinners : ∀ w, w∈winners (events.filter fun e => e.userId=userId) ↔
      w∈winners events ∧ w.userId=userId := by
    intro w
    rw [←(winners_filter hkeys).mem_iff,List.mem_filter,decide_eq_true_eq]
  constructor
  · intro name k huser
    by_cases hlane : ∃ w∈winners events, InLane w.idxKey (name,k)
    · obtain ⟨w,hw,hlane⟩ := hlane
      have hwd := hd w (mem_of_mem_winners hw)
      have hwuser : owner w.deviceId=userId := huser.owner_eq hwd.1 hlane
      have hw' : w∈winners (events.filter fun e => e.userId=userId) :=
        (hwinners w).mpr ⟨hw,by rw [←howner w (mem_of_mem_winners hw),hwuser]⟩
      -- what the winner reads lies in the cells of the user
      have hread : ∀ name k, InLane w.idxKey (name,k) → (db' name)[k]?=(db name)[k]? :=
        fun name k hlane => (hsame.events name k (ofUser_of_inLane hwd.1 hwuser hlane)).symm
      have hwrites : upsertOne eventCodec db' w=upsertOne eventCodec db w := by
        refine upsertOne_congr (hread _ _ rfl) fun row hrow => ?_
        obtain ⟨v,x,-,-,hxk,hkey,-⟩ := h.predecessor hrow
        refine hread _ _ ⟨x.tsMs,?_⟩
        rw [hkey,←hxk]
        rfl
      rw [get_upserted_of_inLane h hd hup hw hlane,get_upserted_of_inLane h' hd' hup' hw' hlane,
        hwrites]
      exact get_commit_congr _ (hsame.events name k huser)
    · have hlane' : ¬∃ w∈winners (events.filter fun e => e.userId=userId),
          InLane w.idxKey (name,k) := by
        rintro ⟨w,hw,hin⟩
        exact hlane ⟨w,((hwinners w).mp hw).1,hin⟩
      rw [get_upserted_of_other h hd hup hlane,get_upserted_of_other h' hd' hup' hlane',
        hsame.events name k huser]
  · intro k hk
    have hlane : ∀ events : List ServerEvent,
        ¬∃ w∈winners events, InLane w.idxKey (.windows,k) := by
      rintro events ⟨w,-,hin⟩
      exact hin
    rw [get_upserted_of_other h hd hup (hlane _),get_upserted_of_other h' hd' hup' (hlane _),
      hsame.windows k hk]

/-- Pruning keeps two stores the same for a user. -/
theorem SameFor.cleanup (hsame : SameFor owner userId db db') (deviceId : String)
    (cutoffMs : Int64) : SameFor owner userId (cleanupOldDedup db deviceId cutoffMs)
      (cleanupOldDedup db' deviceId cutoffMs) := by
  constructor
  · intro name k huser
    by_cases hname : name=.idxMsg
    · rw [hname] at huser ⊢
      ext row
      rw [get_cleanupOldDedup_idxMsg_iff,get_cleanupOldDedup_idxMsg_iff,hsame.events _ _ huser]
    · rw [get_cleanupOldDedup_of_ne _ _ _ hname,get_cleanupOldDedup_of_ne _ _ _ hname,
        hsame.events _ _ huser]
  · intro k hk
    rw [get_cleanupOldDedup_of_ne _ _ _ (by decide),get_cleanupOldDedup_of_ne _ _ _ (by decide),
      hsame.windows k hk]

/-- Pruning another user's device leaves the cells of the user. -/
theorem get_cleanupOldDedup_of_user {deviceId : String} (h : Aligned eventCodec db)
    (hd : NulFree (utf8 deviceId)) (hne : owner deviceId≠userId) (cutoffMs : Int64)
    {name : KeyspaceName} {k : Bytes} (huser : OfUser owner userId (name,k)) :
    (cleanupOldDedup db deviceId cutoffMs name)[k]?=(db name)[k]? := by
  by_cases hname : name=.idxMsg
  · rw [hname] at huser ⊢
    ext row
    rw [get_cleanupOldDedup_idxMsg_iff,and_iff_left_iff_imp]
    intro hrow hpruned
    obtain ⟨v,e,hv,he,rfl⟩ := h.pointer k row hrow
    have hed := (h.of_decode hv he).2.1
    have hdevice := (delimited_prefix_of_device hd hed).mp hpruned.1
    rw [hdevice] at hne
    exact hne (huser.owner_eq hed rfl)
  · exact get_cleanupOldDedup_of_ne _ _ _ hname k

/-- Deletions of devices keep two stores the same for a user. -/
theorem SameFor.delete (hsame : SameFor owner userId db db') (h : Tenanted eventCodec owner db)
    (h' : Tenanted eventCodec owner db') {deviceId : String} (hd : NulFree (utf8 deviceId)) :
    SameFor owner userId (deleteDeviceEvents eventCodec db deviceId)
      (deleteDeviceEvents eventCodec db' deviceId) := by
  constructor
  · intro name k huser
    by_cases hdevice : OfDevice deviceId (name,k)
    · rw [get_deleteDeviceEvents_of_device h.aligned h.mirrored hd hdevice,
        get_deleteDeviceEvents_of_device h'.aligned h'.mirrored hd hdevice]
    · rw [get_deleteDeviceEvents_of_other h.aligned hd hdevice,
        get_deleteDeviceEvents_of_other h'.aligned hd hdevice,hsame.events _ _ huser]
  · intro k hk
    have hdevice := not_ofDevice_windows deviceId k
    rw [get_deleteDeviceEvents_of_other h.aligned hd hdevice,
      get_deleteDeviceEvents_of_other h'.aligned hd hdevice,hsame.windows k hk]

/-- A step that leaves the cells of the user keeps the likeness. -/
theorem SameFor.of_frame (hsame : SameFor owner userId db db') {t : Db}
    (hevents : ∀ name (k : Bytes), OfUser owner userId (name,k) → (t name)[k]?=(db name)[k]?)
    (hwindows : ∀ k : Bytes, delimited (utf8 userId)<+:k → (t .windows)[k]?=(db .windows)[k]?) :
    SameFor owner userId t db' :=
  ⟨fun name k huser => (hevents name k huser).trans (hsame.events name k huser),
    fun k hk => (hwindows k hk).trans (hsame.windows k hk)⟩

/-- Operations on other users leave the cells of the user. -/
theorem SameFor.erased (hsame : SameFor owner userId db db') (hu : NulFree (utf8 userId))
    (h : Tenanted eventCodec owner db) {op : TenantOp} (hop : op.Admitted owner)
    (hkept : keepUser owner userId op=none) {t : Db}
    (hstep : TenantStep eventCodec windowCodec db op t) : SameFor owner userId t db' := by
  cases op with
  | events op =>
    rw [keepUser,Option.map_eq_none_iff] at hkept
    obtain ⟨hd,-⟩ := hop
    cases op with
    | upsert events => cases hkept
    | cleanup deviceId cutoffMs =>
      rw [keepEvents,ite_eq_right_iff] at hkept
      have hne : owner deviceId≠userId := fun heq => Option.some_ne_none _ (hkept heq)
      cases hstep
      refine hsame.of_frame (fun name k huser => ?_) fun k hk => ?_
      · exact get_cleanupOldDedup_of_user h.aligned hd hne cutoffMs huser
      · exact get_cleanupOldDedup_of_ne _ _ _ (by decide) k
    | delete deviceId =>
      rw [keepEvents,ite_eq_right_iff] at hkept
      have hne : owner deviceId≠userId := fun heq => Option.some_ne_none _ (hkept heq)
      cases hstep
      refine hsame.of_frame (fun name k huser => ?_) fun k hk => ?_
      · exact get_deleteDeviceEvents_of_other h.aligned hd (huser.not_ofDevice hd hne)
      · exact get_deleteDeviceEvents_of_other h.aligned hd (not_ofDevice_windows deviceId k)
  | upsertWindows user provider items =>
    rw [keepUser,ite_eq_right_iff] at hkept
    have hne : user≠userId := fun heq => Option.some_ne_none _ (hkept heq)
    cases hstep
    refine hsame.of_frame (fun name k huser => ?_) fun k hk => ?_
    · exact get_upsertWindows_of_other fun hcell => huser.ne_windows hcell.1
    · exact get_upsertWindows_of_other fun hcell => not_prefix_of_ne hu hop hne hk hcell.2
  | deleteUserWindows user =>
    rw [keepUser,ite_eq_right_iff] at hkept
    have hne : user≠userId := fun heq => Option.some_ne_none _ (hkept heq)
    cases hstep
    refine hsame.of_frame (fun name k huser => Option.ext fun v => ?_)
      fun k hk => Option.ext fun v => ?_
    · rw [get_deleteUserWindows_iff,and_iff_left fun hcell => huser.ne_windows hcell.1]
    · rw [get_deleteUserWindows_iff,
        and_iff_left fun hcell => not_prefix_of_ne hu hop hne hk hcell.2]
  | cleanupOldWindows cutoffMs => cases hkept

/-- Operations that stay, in full or in part, keep two stores the same for the
user. -/
theorem SameFor.kept (hsame : SameFor owner userId db db') (h : Tenanted eventCodec owner db)
    (h' : Tenanted eventCodec owner db') {op op' : TenantOp} (hop : op.Admitted owner)
    (hkept : keepUser owner userId op=some op') {t t' : Db}
    (hstep : TenantStep eventCodec windowCodec db op t)
    (hstep' : TenantStep eventCodec windowCodec db' op' t') : SameFor owner userId t t' := by
  cases op with
  | events op =>
    obtain ⟨kept,hevents,rfl⟩ := Option.map_eq_some_iff.mp hkept
    obtain ⟨hd,howner⟩ := hop
    cases op with
    | upsert events =>
      cases hevents
      exact hsame.upsert h.aligned h'.aligned hd (howner events rfl) hstep hstep'
    | cleanup deviceId cutoffMs =>
      rw [keepEvents,Option.ite_none_right_eq_some] at hevents
      cases hevents.2
      cases hstep
      cases hstep'
      exact hsame.cleanup deviceId cutoffMs
    | delete deviceId =>
      rw [keepEvents,Option.ite_none_right_eq_some] at hevents
      cases hevents.2
      cases hstep
      cases hstep'
      exact hsame.delete h h' hd
  | upsertWindows user provider items =>
    rw [keepUser,Option.ite_none_right_eq_some] at hkept
    obtain ⟨huser,hkept⟩ := hkept
    cases hkept
    cases hstep
    cases hstep'
    rw [huser]
    constructor
    · intro name k hof
      have hother : ¬(name=.windows ∧ delimited (utf8 userId)<+:k) :=
        fun hcell => hof.ne_windows hcell.1
      rw [get_upsertWindows_of_other hother,get_upsertWindows_of_other hother,
        hsame.events name k hof]
    · exact fun k hk => get_upsertWindows_congr hsame.windows hk
  | deleteUserWindows user =>
    rw [keepUser,Option.ite_none_right_eq_some] at hkept
    cases hkept.2
    cases hstep
    cases hstep'
    refine ⟨fun name k hof => Option.ext fun v => ?_,fun k hk => Option.ext fun v => ?_⟩
    · rw [get_deleteUserWindows_iff,get_deleteUserWindows_iff,hsame.events name k hof]
    · rw [get_deleteUserWindows_iff,get_deleteUserWindows_iff,hsame.windows k hk]
  | cleanupOldWindows cutoffMs =>
    cases hkept
    cases hstep
    cases hstep'
    refine ⟨fun name k hof => Option.ext fun v => ?_,fun k hk => Option.ext fun v => ?_⟩
    · rw [get_cleanupOldWindows_iff,get_cleanupOldWindows_iff,hsame.events name k hof]
    · rw [get_cleanupOldWindows_iff,get_cleanupOldWindows_iff,hsame.windows k hk]

/-- Index entries under the user id are those of the user's devices. -/
theorem Tenanted.ofUser_of_entry (h : Tenanted eventCodec owner db) (hu : NulFree (utf8 userId))
    {x v : Bytes} (hx : delimited (utf8 userId)<+:x) (hv : (db .idxUser)[x]?=some v) :
    OfUser owner userId (.idxUser,x) ∧
      OfUser owner userId (.sessions,x.drop (delimited (utf8 userId)).length) := by
  obtain ⟨row,e,hrow,he,rfl⟩ := h.mirrored.copy x v hv
  obtain ⟨hkey,hed⟩ := h.aligned.of_decode hrow he
  have huser : e.userId=userId := by
    rw [userIdxKey,delimited_prefix_iff hu hed.2] at hx
    exact (utf8_injective hx).symm
  have howner : owner e.deviceId=userId := by
    rw [←huser]
    exact Option.some.inj (h.owned row v e hrow he)
  rw [huser,userIdxKey,List.drop_left]
  constructor
  · refine ofUser_of_inLane hed.1 howner ⟨userId,e.tsMs,hu,?_⟩
    rw [hkey,eventKey_eq_rowKey]
    rfl
  · refine ofUser_of_inLane hed.1 howner ⟨e.tsMs,?_⟩
    rw [hkey,eventKey_eq_rowKey]

/-- Stores that hold the same for a user answer the user's queries alike. -/
theorem SameFor.queryEvents (hsame : SameFor owner userId db db')
    (h : Tenanted eventCodec owner db) (h' : Tenanted eventCodec owner db')
    (hu : NulFree (utf8 userId)) (sinceMs untilMs : Int64) (limit : ℕ) :
    queryEvents eventCodec db sinceMs untilMs (.single userId) limit=
      FjallStore.queryEvents eventCodec db' sinceMs untilMs (.single userId) limit := by
  have hentries : ∀ x : Bytes, delimited (utf8 userId)<+:x →
      (db .idxUser)[x]?=(db' .idxUser)[x]? := by
    intro x hx
    cases hv : (db .idxUser)[x]? with
    | some v => rw [←hv,hsame.events _ _ (h.ofUser_of_entry hu hx hv).1]
    | none =>
      cases hv' : (db' .idxUser)[x]? with
      | none => rfl
      | some v => rw [←hv,←hv',hsame.events _ _ (h'.ofUser_of_entry hu hx hv').1]
  rw [FjallStore.queryEvents,FjallStore.queryEvents,scanUserEvents,scanUserEvents,
    ←keyspacePrefix_congr hentries]
  refine scanUserEventsLoop_congr (fun kv hkv _ => ?_) sinceMs limit []
  rw [keyspacePrefix,List.mem_filter,decide_eq_true_eq] at hkv
  have hv := Std.ExtTreeMap.mem_toList_iff_getElem?_eq_some.mp hkv.1
  rw [loadSession,loadSession,hsame.events _ _ (h.ofUser_of_entry hu hkv.2 hv).2]

/-- The store refuses no operation. -/
theorem exists_tenantStep (db : Db) (op : TenantOp) :
    ∃ t, TenantStep eventCodec windowCodec db op t := by
  cases op with
  | events op =>
    cases op with
    | upsert events => exact ⟨_,winners events,.refl _,rfl⟩
    | cleanup deviceId cutoffMs => exact ⟨_,rfl⟩
    | delete deviceId => exact ⟨_,rfl⟩
  | upsertWindows user provider items => exact ⟨_,rfl⟩
  | deleteUserWindows user => exact ⟨_,rfl⟩
  | cleanupOldWindows cutoffMs => exact ⟨_,rfl⟩

/-- Tenant isolation: whatever other tenants do, the queries of a user answer
as in the run in which all of that is erased. No device is used by two users,
and ids contain no key delimiter. -/
theorem tenant_isolation (eventCodec : Codec PersistedEvent) (windowCodec : Codec WireWindow)
    (owner : String → String) {history : List TenantOp} {db : Db}
    (run : Run (TenantStep eventCodec windowCodec) emptyDb history db)
    (hA : ∀ op∈history, op.Admitted owner) {userId : String} (hu : NulFree (utf8 userId)) :
    (∃ db', Run (TenantStep eventCodec windowCodec) emptyDb
      (history.filterMap (keepUser owner userId)) db') ∧
    ∀ db', Run (TenantStep eventCodec windowCodec) emptyDb
      (history.filterMap (keepUser owner userId)) db' →
      (∀ sinceMs untilMs limit, queryEvents eventCodec db sinceMs untilMs (.single userId) limit=
        queryEvents eventCodec db' sinceMs untilMs (.single userId) limit) ∧
      ∀ sinceMs, queryUserWindows windowCodec db userId sinceMs=
        queryUserWindows windowCodec db' userId sinceMs := by
  refine ⟨exists_run exists_tenantStep _,fun db' run' => ?_⟩
  have hinit : SameFor owner userId emptyDb emptyDb := ⟨fun _ _ _ => rfl,fun _ _ => rfl⟩
  have hends : Tenanted eventCodec owner db ∧ Tenanted eventCodec owner db' ∧
      SameFor owner userId db db' := by
    refine erased_alike (fun op op' => admitted_of_keepUser) tenanted_emptyDb ?_ hinit ?_ ?_ hA
      run run'
    · exact fun s op t hop hs hstep => hs.step hop hstep
    · exact fun s s' op t hop hkept hs hsame hstep => hsame.erased hu hs hop hkept hstep
    · exact fun s s' op op' t t' hop hkept hs hs' hsame hstep hstep' =>
        hsame.kept hs hs' hop hkept hstep hstep'
  obtain ⟨h,h',hsame⟩ := hends
  exact ⟨hsame.queryEvents h h' hu,queryUserWindows_congr hsame.windows⟩

end

/-- Owners of two devices; one user id is a prefix of the other. -/
def sampleOwner (deviceId : String) : String := if deviceId="d1" then "u1" else "u10"

/-- A mixed batch, a pruning and a deletion of the other user's device, windows
of both users and a sweep. -/
def sampleTenants : List TenantOp :=
  [.cleanupOldWindows 5,.deleteUserWindows "u10",.events (.delete "d2"),.events (.cleanup "d2" 9),
    .upsertWindows "u10" "codex" [sampleWindow 1000 300 60000],
    .upsertWindows "u1" "codex" [sampleWindow 1000 300 60000],
    .events (.upsert [sampleEvent 5 "s",
      {sampleEvent 5 "t" with deviceId := "d2",userId := "u10"}])]

/-- The sample operations that the first user keeps, and what that user is
answered. -/
theorem tenant_isolation_sample : ∃ db db',
    Run (TenantStep eventLayout.codec windowLayout.codec) emptyDb sampleTenants db ∧
    Run (TenantStep eventLayout.codec windowLayout.codec) emptyDb
      [.cleanupOldWindows 5,.upsertWindows "u1" "codex" [sampleWindow 1000 300 60000],
        .events (.upsert [sampleEvent 5 "s"])] db' ∧
    queryEvents eventLayout.codec db 0 10 (.single "u1") 3=
      queryEvents eventLayout.codec db' 0 10 (.single "u1") 3 ∧
    queryUserWindows windowLayout.codec db "u1" 0=
      queryUserWindows windowLayout.codec db' "u1" 0 := by
  have hstep : ∀ db op, ∃ t, TenantStep eventLayout.codec windowLayout.codec db op t :=
    exists_tenantStep
  have hkept : sampleTenants.filterMap (keepUser sampleOwner "u1")=
      [.cleanupOldWindows 5,.upsertWindows "u1" "codex" [sampleWindow 1000 300 60000],
        .events (.upsert [sampleEvent 5 "s"])] := rfl
  have hA : ∀ op∈sampleTenants, op.Admitted sampleOwner := by
    intro op hop
    simp only [sampleTenants,List.mem_cons,List.not_mem_nil,or_false] at hop
    rcases hop with rfl | rfl | rfl | rfl | rfl | rfl | rfl
    · exact trivial
    · exact (by decide : NulFree (utf8 "u10"))
    · exact ⟨(by decide : NulFree (utf8 "d2")),fun events heq => by cases heq⟩
    · exact ⟨(by decide : NulFree (utf8 "d2")),fun events heq => by cases heq⟩
    · exact (by decide : NulFree (utf8 "u10"))
    · exact (by decide : NulFree (utf8 "u1"))
    · refine ⟨(by decide : ∀ e∈_, ServerEvent.Delimitable e),fun events heq => ?_⟩
      cases heq
      decide
  have hrun : ∃ db, Run (TenantStep eventLayout.codec windowLayout.codec) emptyDb
      sampleTenants db := exists_run hstep sampleTenants
  obtain ⟨db,run⟩ := hrun
  obtain ⟨⟨db',run'⟩,hanswers⟩ := tenant_isolation eventLayout.codec windowLayout.codec sampleOwner
    run hA (by decide : NulFree (utf8 "u1"))
  obtain ⟨hevents,hwindows⟩ := hanswers db' run'
  rw [hkept] at run'
  exact ⟨db,db',run,run',hevents 0 10 3,hwindows 0⟩

end TokiSync.TenantIsolation
