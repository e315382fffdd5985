import TokiSync.SyncServer

/-!
# Permits

A connection takes a write permit, uses the event store and gives the permit
back before it does anything else. So a permit is held just by the connections
in between, never by one that reads or writes a frame or uses the database, and
none gets lost, however requests fail and connections break.
-/

namespace TokiSync.WritePermits

open Runs ByteCodec ServerEvents WireWindows SyncBatches SyncConnection SyncServer
open InterleavedSessions

/-- Whether the last calls of a connection took a permit and then only used the
event store. -/
def critical : List (Event Answer Arrival) → Bool
  | .call .acquire (.ok ())::_ => true
  | .call (.upsertEvents _) _::past => critical past
  | .call (.premergeWindows _) _::past => critical past
  | .call (.upsertWindows _ _ _) _::past => critical past
  | .opened::past => critical past
  | .finish::past => critical past
  | _ => false

/-- Whether a permit is held after a call. -/
def holdsAfter (held : Bool) : (op : Call) → Answer op → Bool
  | .acquire, .ok () => true
  | .upsertEvents _, _ => held
  | .premergeWindows _, _ => held
  | .upsertWindows _ _ _, _ => held
  | _, _ => false

/-- Calls that are made with a permit. -/
def needsPermit : Call → Bool
  | .release => true
  | .upsertEvents _ => true
  | .premergeWindows _ => true
  | .upsertWindows _ _ _ => true
  | _ => false

/-- A connection remembers whether it holds a permit. -/
def permits : Contract Answer Arrival Bool where
  start := false
  arrive _ _ := false
  mayCall held op := held=needsPermit op
  answers _ _ _ := True
  called held op reply := holdsAfter held op reply
  quit _ := false

/-- Between two frames no permit is held. -/
def Released (held : Bool) (_ : Session) : Prop := held=false

/-- What a handler leaves: a session without a permit. -/
def LeavesReleased (held : Bool) (result : Option Session) : Prop :=
  ∀ s, result=some s → Released held s

theorem follow_permits (events : List (Event Answer Arrival)) :
    permits.follow events=critical events := by
  induction events with
  | nil => rfl
  | cons e past ih =>
    rw [Contract.follow,ih]
    cases e with
    | call op reply =>
      cases op with
      | acquire => cases reply <;> rfl
      | _ => rfl
    | _ => rfl

section

theorem meets_send {reply : Reply} {next : Option Session} :
    Meets permits LeavesReleased false (send reply next) := by
  refine .perform rfl fun result _ => ?_
  cases result with
  | error e => exact fun _ h => nomatch h
  | ok u => exact fun _ _ => rfl

/-- The check whether a user is active takes no permit. -/
theorem meets_active (userId : String) :
    Meets permits (fun held _ => held=false) false (isUserActiveCached userId) := by
  refine .perform rfl fun fresh _ => ?_
  cases fresh with
  | some active => exact rfl
  | none =>
    refine .perform rfl fun genAtRead _ => ?_
    refine .perform rfl fun row _ => ?_
    cases row with
    | error e => exact rfl
    | ok row => exact .perform rfl fun _ _ => rfl

theorem meets_device (userId deviceName deviceKey : String) :
    Meets permits (fun held _ => held=false) false
      (findOrCreateDevice userId deviceName deviceKey) := by
  refine .perform rfl fun found _ => ?_
  cases found with
  | error e => exact rfl
  | ok found =>
    cases found with
    | some id =>
      refine .perform rfl fun seen _ => ?_
      cases seen <;> exact rfl
    | none =>
      refine .perform rfl fun created _ => ?_
      cases created <;> exact rfl

/-- The handshake takes no permit. -/
theorem meets_handshake (F : Formats) (arrival : Arrival) :
    Meets permits LeavesReleased false (handshake F arrival) := by
  cases arrival with
  | failed => exact fun _ _ => rfl
  | timeout => exact fun _ _ => rfl
  | frame msgType payload =>
    unfold handshake
    dsimp only
    split
    · exact fun _ _ => rfl
    split
    · exact fun _ _ => rfl
    split
    · exact fun _ _ => rfl
    unfold authenticate
    split
    · exact meets_send
    refine .perform rfl fun verified _ => ?_
    cases verified with
    | error e => exact meets_send
    | ok claims =>
      refine (meets_active claims.sub).bind fun held active hheld => ?_
      subst hheld
      cases active with
      | error e => exact meets_send
      | ok active =>
        cases active with
        | false => exact meets_send
        | true =>
          dsimp only
          unfold openSession
          split
          · exact meets_send
          refine (meets_device _ _ _).bind fun held device hheld => ?_
          subst hheld
          cases device with
          | error e => exact fun _ _ => rfl
          | ok deviceId =>
            dsimp only
            split
            · exact .perform rfl fun _ _ => .perform rfl fun _ _ => meets_send
            refine .perform rfl fun ensured _ => ?_
            cases ensured with
            | error e => exact fun _ _ => rfl
            | ok u => exact meets_send

theorem meets_whenActive {userId : String} {next : Handling}
    (h : Meets permits LeavesReleased false next) :
    Meets permits LeavesReleased false (whenActive userId next) := by
  refine (meets_active userId).bind fun held active hheld => ?_
  subst hheld
  cases active with
  | error e => exact fun _ _ => rfl
  | ok active =>
    cases active with
    | false => exact meets_send
    | true => exact h

/-- A batch is stored with a permit, and everything else is done without. -/
theorem meets_handleSyncBatch (dedupRetentionSecs : Int64) (upload : Upload) :
    Meets permits (fun held _ => held=false) false
      (handleSyncBatch dedupRetentionSecs upload) := by
  unfold handleSyncBatch
  split
  · exact ⟨rfl,fun _ _ => rfl⟩
  split
  · exact rfl
  refine .perform rfl fun permit _ => ?_
  cases permit with
  | error e => exact rfl
  | ok u =>
    refine .perform rfl fun upserted _ => ?_
    refine .perform rfl fun _ _ => ?_
    cases upserted with
    | error e => exact rfl
    | ok v =>
      refine .perform rfl fun advanced _ => ?_
      cases advanced with
      | error e => exact rfl
      | ok w =>
        dsimp only
        split
        · exact .perform rfl fun _ _ => rfl
        · exact rfl

theorem meets_syncBatch (F : Formats) (dedupRetentionSecs : Int64) (userId deviceId : String)
    (msgType : MsgType) (payload : ByteKeys.Bytes) : Meets permits LeavesReleased false
      (syncBatch F dedupRetentionSecs userId deviceId msgType payload) := by
  refine meets_whenActive ?_
  split
  · exact fun _ _ => rfl
  refine .perform rfl fun ensured _ => ?_
  cases ensured with
  | error e => exact fun _ _ => rfl
  | ok u =>
    refine (meets_handleSyncBatch dedupRetentionSecs _).bind fun held result hheld => ?_
    subst hheld
    cases result <;> exact meets_send

/-- Windows are stored with a permit, and everything else is done without. -/
theorem meets_syncWindows (F : Formats) (userId deviceId : String) (payload : ByteKeys.Bytes) :
    Meets permits LeavesReleased false (syncWindows F userId deviceId payload) := by
  refine meets_whenActive ?_
  split
  · exact meets_send
  split
  · exact fun _ _ => rfl
  split
  · exact meets_send
  split
  · exact meets_send
  refine .perform rfl fun allowed _ => ?_
  cases allowed with
  | false => exact meets_send
  | true =>
    refine .perform rfl fun nowMs _ => ?_
    refine .perform rfl fun permit _ => ?_
    cases permit with
    | error e => exact fun _ _ => rfl
    | ok u =>
      refine .perform rfl fun items _ => ?_
      refine .perform rfl fun upserted _ => ?_
      refine .perform rfl fun _ _ => ?_
      split
      · exact meets_send
      · exact fun _ _ => rfl

/-- Connections take and give back their permits as they should. -/
theorem handles_permits (F : Formats) (dedupRetentionSecs : Int64) :
    Handles permits Released (handleConnection F dedupRetentionSecs) := by
  intro held s arrival _
  cases s with
  | handshake => exact meets_handshake F arrival
  | serving userId deviceId =>
    cases arrival with
    | failed => exact fun _ _ => rfl
    | timeout => exact fun _ _ => rfl
    | frame msgType payload =>
      show Meets permits LeavesReleased false
        (serve F dedupRetentionSecs userId deviceId (.frame msgType payload))
      unfold serve
      dsimp only
      split
      · exact fun _ _ => rfl
      cases msgType with
      | getLastTs =>
        dsimp only
        split
        · exact fun _ _ => rfl
        refine .perform rfl fun ts _ => ?_
        cases ts with
        | error e => exact fun _ _ => rfl
        | ok ts => exact meets_send
      | syncBatch => exact meets_syncBatch F dedupRetentionSecs _ _ _ _
      | syncBatchZstd => exact meets_syncBatch F dedupRetentionSecs _ _ _ _
      | syncWindows => exact meets_syncWindows F _ _ _
      | ping => exact meets_send
      | _ => exact fun _ _ => rfl

end

/-- A state with the same permits in the same hands. -/
structure SamePermits (s t : Server) : Prop where
  /-- The free write permits stay. -/
  permits : t.permits=s.permits
  /-- The hands of the others stay. -/
  guards : t.guards=s.guards
  /-- The free permits for connections stay. -/
  connections : t.connections=s.connections

section

variable {F : Formats} {eventCodec : Codec PersistedEvent} {windowCodec : Codec WireWindow}
variable {backend : OidcAccounts.Backend} {dedupRetentionSecs : Int64}
variable {s t done : Server} {i : ℕ}

theorem Writes.samePermits {reply : Except String Unit} (h : Writes s done reply t)
    (hdone : SamePermits s done) : SamePermits s t := by
  rcases h with ⟨rfl,-⟩ | ⟨rfl,-⟩
  · exact hdone
  · exact ⟨rfl,rfl,rfl⟩

theorem Executes.samePermits {reply : Except String Unit}
    {result : Except DatabaseRepo.Refusal DatabaseRepo.Tables}
    (h : Executes s result reply t) : SamePermits s t := by
  cases result with
  | ok db => exact Writes.samePermits h ⟨rfl,rfl,rfl⟩
  | error e =>
    rw [h.1]
    exact ⟨rfl,rfl,rfl⟩

/-- Only taking and giving back a permit move permits. -/
theorem calls_samePermits {op : Call} {reply : Answer op}
    (h : Calls F eventCodec windowCodec i op s reply t) (hacquire : op≠.acquire)
    (hrelease : op≠.release) : SamePermits s t := by
  cases op with
  | acquire => exact absurd rfl hacquire
  | release => exact absurd rfl hrelease
  | verifyAccess token => exact h.1 ▸ ⟨rfl,rfl,rfl⟩
  | getFresh userId => exact h.1 ▸ ⟨rfl,rfl,rfl⟩
  | generation => exact h.1 ▸ ⟨rfl,rfl,rfl⟩
  | getUserById userId => exact h.1 ▸ ⟨rfl,rfl,rfl⟩
  | insertIfCurrent userId active genAtRead =>
    have ht : t={s with cache :=
      ActiveStatusCache.insertIfCurrent s.cache s.now userId active genAtRead} := h
    exact ht ▸ ⟨rfl,rfl,rfl⟩
  | findDeviceByKeyAndUser deviceKey userId => exact h.1 ▸ ⟨rfl,rfl,rfl⟩
  | updateDeviceSeen id name =>
    obtain ⟨now,h⟩ := h
    exact Executes.samePermits h
  | createDevice id userId name deviceKey =>
    obtain ⟨now,h⟩ := h
    exact Executes.samePermits h
  | deleteDeviceEvents deviceId => exact Writes.samePermits h ⟨rfl,rfl,rfl⟩
  | resetCursor deviceId provider =>
    obtain ⟨now,h⟩ := h
    exact Executes.samePermits h
  | ensureCursor deviceId provider =>
    obtain ⟨now,h⟩ := h
    exact Executes.samePermits h
  | getLastTs deviceId provider => exact h.1 ▸ ⟨rfl,rfl,rfl⟩
  | advanceCursor deviceId provider ts =>
    obtain ⟨now,h⟩ := h
    exact Executes.samePermits h
  | upsertEvents events =>
    obtain ⟨db,-,h⟩ := h
    exact Writes.samePermits h ⟨rfl,rfl,rfl⟩
  | cleanupOldDedup deviceId cutoffMs => exact Writes.samePermits h ⟨rfl,rfl,rfl⟩
  | allow userId provider deviceId =>
    rw [h.2]
    exact ⟨rfl,rfl,rfl⟩
  | nowMs =>
    have ht : t=s := h
    exact ht ▸ ⟨rfl,rfl,rfl⟩
  | premergeWindows items => exact h.1 ▸ ⟨rfl,rfl,rfl⟩
  | upsertWindows userId provider items =>
    obtain ⟨db,-,rfl⟩ := h
    exact ⟨rfl,rfl,rfl⟩
  | write reply =>
    have ht : t=s := h
    exact ht ▸ ⟨rfl,rfl,rfl⟩

/-- The permits in use are those of the connections that hold one, each once. -/
structure Accounted (capacity : ℕ) (past : List ServerLabel) (s : Server) : Prop where
  /-- A connection holds at most one permit. -/
  nodup : s.guards.Nodup
  /-- No permit is lost or made up. -/
  total : s.permits+s.guards.length=capacity
  /-- Those in their critical section hold one. -/
  holders : ∀ i, i∈s.guards ↔ permits.follow (own i past)=true

variable {capacity : ℕ} {past : List ServerLabel}

/-- A step that moves no permit keeps the account, when it leaves what the
connection remembers. -/
theorem Accounted.same (h : Accounted capacity past s) (hpermits : t.permits=s.permits)
    (hguards : t.guards=s.guards) {label : ServerLabel}
    (hfollow : ∀ j, permits.follow (own j (label::past))=permits.follow (own j past)) :
    Accounted capacity (label::past) t where
  nodup := hguards ▸ h.nodup
  total := by
    rw [hpermits,hguards]
    exact h.total
  holders j := by
    rw [hguards,hfollow]
    exact h.holders j

/-- What a step of one connection makes it remember. -/
theorem follow_session (i j : ℕ) (e : Event Answer Arrival) :
    permits.follow (own j (.session i e::past))=
      if j=i then permits.observe (permits.follow (own i past)) e
      else permits.follow (own j past) := by
  by_cases hj : j=i
  · subst hj
    rw [if_pos rfl,own_session]
    rfl
  · rw [if_neg hj,own_session_of_ne (Ne.symm hj)]

/-- A connection without a permit takes one. -/
theorem Accounted.acquire (h : Accounted capacity past s)
    (hfree : permits.follow (own i past)=false) {free : ℕ} (hpermits : s.permits=free+1) :
    Accounted capacity (.session i (.call .acquire (.ok ()))::past)
      {s with permits := free,guards := i::s.guards} where
  nodup := by
    refine List.nodup_cons.mpr ⟨fun hi => ?_,h.nodup⟩
    rw [h.holders,hfree] at hi
    cases hi
  total := by
    have htotal := h.total
    show free+(s.guards.length+1)=capacity
    omega
  holders j := by
    rw [follow_session]
    by_cases hj : j=i
    · subst hj
      simp [permits,Contract.observe,holdsAfter]
    · rw [if_neg hj,←h.holders]
      exact List.mem_cons.trans (or_iff_right hj)

/-- A connection that holds a permit gives it back. -/
theorem Accounted.release (h : Accounted capacity past s)
    (hheld : permits.follow (own i past)=true) {e : Event Answer Arrival}
    (he : permits.observe (permits.follow (own i past)) e=false) :
    Accounted capacity (.session i e::past) (s.release i) where
  nodup := h.nodup.erase i
  total := by
    have hi : i∈s.guards := (h.holders i).mpr hheld
    have htotal := h.total
    have hpos := List.length_pos_of_mem hi
    show s.permits+1+(s.guards.erase i).length=capacity
    rw [List.length_erase_of_mem hi]
    omega
  holders j := by
    rw [follow_session]
    show j∈s.guards.erase i ↔ _
    rw [h.nodup.mem_erase_iff]
    by_cases hj : j=i
    · subst hj
      simp [he]
    · rw [if_neg hj,←h.holders]
      exact and_iff_right hj

/-- A connection that ends gives back the permit it holds, if it does. -/
theorem Accounted.hangUp (h : Accounted capacity past s) {e : Event Answer Arrival}
    (he : permits.observe (permits.follow (own i past)) e=false) :
    Accounted capacity (.session i e::past) (s.hangUp i) := by
  have hfields : ∀ {u : Server}, Accounted capacity (.session i e::past) u →
      Accounted capacity (.session i e::past) {u with connections := s.connections+1} :=
    fun hu => ⟨hu.nodup,hu.total,hu.holders⟩
  unfold Server.hangUp
  by_cases hi : i∈s.guards
  · rw [if_pos hi]
    exact hfields (h.release ((h.holders i).mp hi) he)
  · rw [if_neg hi]
    refine hfields (h.same rfl rfl fun j => ?_)
    rw [follow_session]
    by_cases hj : j=i
    · subst hj
      rw [if_pos rfl,he]
      exact (Bool.eq_false_iff.mpr fun hheld => hi ((h.holders j).mpr hheld)).symm
    · rw [if_neg hj]

/-- A step that moves no permit and leaves what its connection remembers. -/
theorem Accounted.still (h : Accounted capacity past s) (hpermits : t.permits=s.permits)
    (hguards : t.guards=s.guards) {e : Event Answer Arrival}
    (he : permits.observe (permits.follow (own i past)) e=permits.follow (own i past)) :
    Accounted capacity (.session i e::past) t := by
  refine h.same hpermits hguards fun j => ?_
  rw [follow_session]
  by_cases hj : j=i
  · rw [if_pos hj,he,hj]
  · rw [if_neg hj]

/-- A call that connections may make keeps the account. -/
theorem Accounted.call (h : Accounted capacity past s) {op : Call} {reply : Answer op}
    (hmay : permits.follow (own i past)=needsPermit op)
    (heffect : Calls F eventCodec windowCodec i op s reply t) :
    Accounted capacity (.session i (.call op reply)::past) t := by
  by_cases hacquire : op=.acquire
  · subst hacquire
    rcases heffect with ⟨free,hfree,rfl,rfl⟩ | ⟨rfl,e,rfl⟩
    · exact h.acquire hmay hfree
    · exact h.still rfl rfl hmay.symm
  by_cases hrelease : op=.release
  · subst hrelease
    have ht : t=s.release i := heffect
    rw [ht]
    exact h.release hmay rfl
  have hsame := calls_samePermits heffect hacquire hrelease
  refine h.still hsame.permits hsame.guards ?_
  show holdsAfter _ op reply=_
  rw [hmay]
  cases op with
  | acquire => exact absurd rfl hacquire
  | release => exact absurd rfl hrelease
  | _ => rfl

/-- What connections and the rest of the server do keeps the account. -/
theorem upholds_permits : Upholds permits Released
    (services F eventCodec windowCodec backend) (Accounted capacity) where
  opened past i s t h heffect := by
    obtain ⟨connections,-,rfl⟩ := heffect
    have hpermits : {s with connections := connections}.permits=s.permits := rfl
    exact h.still hpermits rfl rfl
  arrive past i request s waiting h hready :=
    h.still rfl rfl (Eq.symm hready)
  call past i op s reply t h hmay heffect := ⟨True.intro,h.call hmay heffect⟩
  finish past i s h := h.still rfl rfl rfl
  closed past i s t h heffect := by
    have ht : t=s.hangUp i := heffect
    rw [ht]
    exact h.hangUp rfl
  dropped past i s t h heffect := by
    have ht : t=s.hangUp i := heffect
    rw [ht]
    exact h.hangUp rfl
  environment past e s t h heffect := by
    have hsame : SamePermits s t := by cases e <;> exact heffect ▸ ⟨rfl,rfl,rfl⟩
    exact h.same hsame.permits hsame.guards fun j => rfl

/-- However connections interleave, fail and break: the free permits and those
in hands make up all permits, and the hands are those of the connections in a
critical section, none of which waits for a frame. Every use of the event
store that needs a permit falls into a critical section of its connection, and
every other call outside. -/
theorem permits_kept {events : FjallStore.Db} {db : DatabaseRepo.Tables} {host : SyncHost}
    {history : List ServerLabel}
    (run : Run (ServerStep F eventCodec windowCodec backend dedupRetentionSecs)
      (starting events db capacity) history host) :
    host.shared.permits+host.shared.guards.length=capacity ∧ host.shared.guards.Nodup ∧
    (∀ i, i∈host.shared.guards ↔ critical (own i history)=true) ∧
    (∀ i∈host.shared.guards, ∃ rest, host.phases i=.handling rest) ∧
    ∀ newer i op (reply : Answer op) older,
      history=newer++.session i (.call op reply)::older →
      critical (own i older)=needsPermit op := by
  have hready : Released permits.start .handshake := rfl
  have hinit : Accounted capacity [] (starting events db capacity).shared :=
    ⟨List.nodup_nil,rfl,fun i => ⟨fun h => absurd h List.not_mem_nil,fun h => nomatch h⟩⟩
  obtain ⟨h,hphases⟩ := upheld hready (handles_permits F dedupRetentionSecs) upholds_permits hinit
    (fun _ => rfl) run
  refine ⟨h.total,h.nodup,fun i => ?_,fun i hi => ?_,?_⟩
  · rw [h.holders,follow_permits]
  · have hheld := (h.holders i).mp hi
    have hphase := hphases i
    rw [hheld] at hphase
    cases hcase : host.phases i with
    | unopened =>
      rw [hcase] at hphase
      cases hphase
    | waiting s =>
      rw [hcase] at hphase
      cases hphase
    | handling rest => exact ⟨rest,rfl⟩
    | ended =>
      rw [hcase] at hphase
      obtain ⟨before,hquit⟩ := hphase
      cases hquit
  · rintro newer i op reply older rfl
    rw [←follow_permits]
    exact (call_upheld hready (handles_permits F dedupRetentionSecs) upholds_permits hinit
      (fun _ => rfl) run).1

/-- A connection that stores a batch holds one of four permits. -/
theorem permits_kept_sample : ∃ host, SampleRun host ∧ host.shared.guards=[0] ∧
    host.shared.permits=3 ∧ critical (own 0 sampleLabels)=true := by
  obtain ⟨s,rest,run,hguards,-⟩ := sampleRun
  obtain ⟨htotal,-,hholders,-⟩ := permits_kept run
  refine ⟨_,run,hguards,?_,(hholders 0).mp ?_⟩
  · rw [hguards] at htotal
    exact Nat.succ.inj htotal
  · rw [hguards]
    exact List.mem_singleton_self 0

end

end TokiSync.WritePermits
