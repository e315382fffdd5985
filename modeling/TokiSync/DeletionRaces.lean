import TokiSync.ActiveStatusCache
import TokiSync.DeviceDeletion
import TokiSync.SyncCursor
import TokiSync.WindowAcks
import TokiSync.WindowQueries

/-!
# Deletions against uploads in flight

A deletion purges the event store, drops the relational rows and purges once
more. Requests on open connections go on meanwhile: each asks whether its user
is active, a batch makes sure of its cursor, which fails without the device's
row, and then both kinds wait for a write permit before they reach the event
store. Every step of every party is taken on its own.
-/

namespace TokiSync.DeletionRaces

open MachineWords ByteKeys ByteCodec BatchedMaps ServerEvents WireWindows FjallStore
open SyncBatches SyncCursor WindowAcks WindowStore WindowQueries
open ActiveStatusCache (ActiveCacheInner getFresh insertIfCurrent evict getFresh_eq_some
  insertIfCurrent_entry insertIfCurrent_generation)

/-- A request on an open connection. -/
inductive Request where
  /-- Events of a device. -/
  | batch (upload : Upload)
  /-- Windows of a user; user ids contain no key delimiter. -/
  | windows (userId : String) (clean : NulFree (utf8 userId)) (req : WindowsRequest)

/-- User of the connection. -/
def Request.userId : Request → String
  | .batch upload => upload.userId
  | .windows userId _ _ => userId

/-- How far a request has come. -/
inductive RequestPhase where
  /-- Not received. -/
  | idle
  /-- No fresh entry of the cache says whether the user is active. -/
  | missed (request : Request)
  /-- The generation of the cache is loaded. -/
  | loaded (request : Request) (genAtRead : UInt64)
  /-- The user's row is read. -/
  | read (request : Request) (genAtRead : UInt64) (active : Bool)
  /-- The user is known to be active. -/
  | active (request : Request)
  /-- The cursor of the batch exists. -/
  | cursored (upload : Upload)
  /-- The write permit is held. -/
  | holding (request : Request)
  /-- The events are upserted. -/
  | upserted (upload : Upload)
  /-- The cursor is advanced. -/
  | advanced (upload : Upload)
  /-- Answered, or given up with the connection. -/
  | finished

/-- What the parties share. -/
structure Shared where
  /-- The event store. -/
  store : Db
  /-- Active column of the users' rows. -/
  users : String → Option Bool
  /-- Owner column of the devices' rows. -/
  devices : String → Option String
  /-- The cursor rows. -/
  cursors : Cursors
  /-- The cache of active statuses. -/
  cache : ActiveCacheInner
  /-- Current instant. -/
  now : ℕ
  /-- Free write permits. -/
  permits : ℕ

/-- A batch that is neither answered by the cursor alone nor refused. -/
def Storable (upload : Upload) : Prop :=
  upload.batch.items≠[] ∧ upload.batch.items.length ≤ maxBatchSize

/-- Phase after the answer of the active check. -/
def answered (request : Request) (active : Bool) : RequestPhase :=
  if active then .active request else .finished

section

variable (eventCodec : Codec PersistedEvent) (windowCodec : Codec WireWindow)
variable (windowsSchemaVersion : ℕ) (debug : String → String) (dedupRetentionSecs : Int64)

/-- One step of a request. -/
inductive RequestStep : Shared → RequestPhase → Shared → RequestPhase → Prop where
  /-- A fresh entry of the cache answers. -/
  | hit {s : Shared} {active : Bool} (request : Request)
      (fresh : getFresh s.cache s.now request.userId=some active) :
      RequestStep s .idle s (answered request active)
  /-- There is no fresh entry. -/
  | miss {s : Shared} (request : Request)
      (stale : getFresh s.cache s.now request.userId=none) :
      RequestStep s .idle s (.missed request)
  /-- Load the generation before the database is read. -/
  | loadGeneration {s : Shared} {request : Request} :
      RequestStep s (.missed request) s (.loaded request s.cache.generation)
  /-- Read the row; a deleted user is inactive. -/
  | readUser {s : Shared} {request : Request} {genAtRead : UInt64} :
      RequestStep s (.loaded request genAtRead) s
        (.read request genAtRead ((s.users request.userId).getD false))
  /-- The database read fails and the connection ends. -/
  | readFails {s : Shared} {request : Request} {genAtRead : UInt64} :
      RequestStep s (.loaded request genAtRead) s .finished
  /-- Store the status and go by it. -/
  | store {s : Shared} {request : Request} {genAtRead : UInt64} {active : Bool} :
      RequestStep s (.read request genAtRead active)
        {s with cache := insertIfCurrent s.cache s.now request.userId active genAtRead}
        (answered request active)
  /-- Make sure of the cursor of a device that has its row. -/
  | ensureCursor {s : Shared} {upload : Upload} (row : s.devices upload.deviceId≠none) :
      RequestStep s (.active (.batch upload))
        {s with cursors := ensureCursor s.cursors upload.deviceId upload.batch.provider}
        (.cursored upload)
  /-- Without the device's row the foreign key fails, and the connection ends. -/
  | foreignKey {s : Shared} {upload : Upload} (gone : s.devices upload.deviceId=none) :
      RequestStep s (.active (.batch upload)) s .finished
  /-- Answer an empty batch and refuse one that is too large. -/
  | answerBatch {s : Shared} {upload : Upload} (small : ¬Storable upload) :
      RequestStep s (.cursored upload) s .finished
  /-- A batch gets a write permit. -/
  | acquireBatch {s : Shared} {upload : Upload} {permits : ℕ} (storable : Storable upload)
      (free : s.permits=permits+1) :
      RequestStep s (.cursored upload) {s with permits := permits} (.holding (.batch upload))
  /-- Upsert the events and give the permit back. -/
  | upsertEvents {s : Shared} {upload : Upload} {db : Db}
      (upserted : UpsertEvents eventCodec s.store upload.serverEvents db) :
      RequestStep s (.holding (.batch upload)) {s with store := db,permits := s.permits+1}
        (.upserted upload)
  /-- The store refuses the events. -/
  | upsertFails {s : Shared} {upload : Upload} :
      RequestStep s (.holding (.batch upload)) {s with permits := s.permits+1} .finished
  /-- Advance the cursor, when its row still exists. -/
  | advanceCursor {s : Shared} {upload : Upload} :
      RequestStep s (.upserted upload)
        {s with cursors :=
          advanceCursor s.cursors upload.deviceId upload.batch.provider upload.maxTs}
        (.advanced upload)
  /-- The relational database fails the request. -/
  | advanceFails {s : Shared} {upload : Upload} :
      RequestStep s (.upserted upload) s .finished
  /-- Prune old dedup pointers, then acknowledge. -/
  | prune {s : Shared} {upload : Upload} (old : 0<cutoffMs dedupRetentionSecs upload) :
      RequestStep s (.advanced upload)
        {s with store :=
          cleanupOldDedup s.store upload.deviceId (cutoffMs dedupRetentionSecs upload)} .finished
  /-- Acknowledge when nothing is to be pruned or the pruning fails. -/
  | acknowledge {s : Shared} {upload : Upload} : RequestStep s (.advanced upload) s .finished
  /-- A windows request fails its checks. -/
  | refuseWindows {s : Shared} {userId : String} {clean : NulFree (utf8 userId)}
      {req : WindowsRequest} {reply : WindowsReply}
      (refused : admitWindows windowsSchemaVersion debug {req with active := some true}=
        .error reply) :
      RequestStep s (.active (.windows userId clean req)) s .finished
  /-- A windows request gets a write permit. -/
  | acquireWindows {s : Shared} {userId : String} {clean : NulFree (utf8 userId)}
      {req : WindowsRequest} {win : SyncWindowsPayload} {permits : ℕ}
      (admitted : admitWindows windowsSchemaVersion debug {req with active := some true}=.ok win)
      (free : s.permits=permits+1) :
      RequestStep s (.active (.windows userId clean req)) {s with permits := permits}
        (.holding (.windows userId clean req))
  /-- Premerge and upsert the windows, give the permit back and answer. -/
  | upsertWindows {s : Shared} {userId : String} {clean : NulFree (utf8 userId)}
      {req : WindowsRequest} {upserted : Option (Except String ℕ)} {reply : WindowsReply} {db : Db}
      (answer : SyncWindows windowsSchemaVersion debug windowCodec s.store userId
        {req with active := some true} upserted reply db) :
      RequestStep s (.holding (.windows userId clean req))
        {s with store := db,permits := s.permits+1} .finished

end

/-- Actions of a deletion handler. -/
inductive Action where
  /-- Deactivate the user. -/
  | setUserInactive (userId : String)
  /-- Evict the user's entry from the cache. -/
  | evict (userId : String)
  /-- Purge the events of a device. -/
  | deleteDeviceEvents (deviceId : String)
  /-- Purge the windows of a user. -/
  | deleteUserWindows (userId : String)
  /-- Delete the row of a device of the user, if there is one. -/
  | deleteUserDevice (deviceId userId : String)
  /-- Delete the row of a device. -/
  | deleteDevice (deviceId : String)
  /-- Delete the row of a user, and with it those of the user's devices. -/
  | deleteUser (userId : String)
  deriving DecidableEq

/-- Whether the handler goes on when the action fails. -/
def Action.tolerated : Action → Bool
  | .setUserInactive _ => true
  | .deleteDeviceEvents _ => true
  | .deleteUserWindows _ => true
  | _ => false

/-- A user deletes a device, which was found to be the user's. -/
def meDeleteDevice (deviceId userId : String) : List Action :=
  [.deleteDeviceEvents deviceId,.deleteUserDevice deviceId userId,.deleteDeviceEvents deviceId]

/-- An administrator deletes a device. -/
def adminDeleteDevice (deviceId : String) : List Action :=
  [.deleteDeviceEvents deviceId,.deleteDevice deviceId,.deleteDeviceEvents deviceId]

/-- An administrator deletes a user whose devices have been listed. -/
def adminDeleteUser (userId : String) (deviceIds : List String) : List Action :=
  [.setUserInactive userId,.evict userId]++deviceIds.map .deleteDeviceEvents++
    [.deleteUserWindows userId,.deleteUser userId,.deleteUserWindows userId]++
    deviceIds.map .deleteDeviceEvents

/-- The row of a device is gone, and its cursors with it. -/
def dropDevice (s : Shared) (deviceId : String) : Shared :=
  {s with
    devices := Function.update s.devices deviceId none
    cursors := Function.update s.cursors deviceId fun _ => none}

/-- One action of the handler; none when it returns an error. -/
def perform (eventCodec : Codec PersistedEvent) (s : Shared) : Action → Option Shared
  | .setUserInactive userId =>
    some {s with users := Function.update s.users userId ((s.users userId).map fun _ => false)}
  | .evict userId => some {s with cache := evict s.cache userId}
  | .deleteDeviceEvents deviceId =>
    some {s with store := FjallStore.deleteDeviceEvents eventCodec s.store deviceId}
  | .deleteUserWindows userId =>
    some {s with store := WindowQueries.deleteUserWindows s.store userId}
  | .deleteUserDevice deviceId userId =>
    if s.devices deviceId=some userId then some (dropDevice s deviceId) else some s
  | .deleteDevice deviceId =>
    if s.devices deviceId=none then none else some (dropDevice s deviceId)
  | .deleteUser userId =>
    if s.users userId=none then none
    else some {s with
      users := Function.update s.users userId none
      devices := fun deviceId => if s.devices deviceId=some userId then none else s.devices deviceId
      cursors := fun deviceId =>
        if s.devices deviceId=some userId then fun _ => none else s.cursors deviceId}

/-- The server while a deletion is under way. -/
structure Server where
  /-- What the parties share. -/
  shared : Shared
  /-- Progress of the requests. -/
  requests : ℕ → RequestPhase
  /-- What the handler has left to do; none once it returned an error. -/
  handler : Option (List Action)

/-- A deletion that was just started. -/
def Server.start (shared : Shared) (actions : List Action) : Server :=
  ⟨shared,fun _ => .idle,some actions⟩

/-- Labels of the steps. -/
inductive ServerOp where
  /-- A step of a request. -/
  | request (i : ℕ)
  /-- An action of the handler. -/
  | handler
  /-- An action of the handler that fails. -/
  | handlerFails
  /-- Time passes. -/
  | tick (duration : ℕ)

section

variable (eventCodec : Codec PersistedEvent) (windowCodec : Codec WireWindow)
variable (windowsSchemaVersion : ℕ) (debug : String → String) (dedupRetentionSecs : Int64)

/-- One step of one party. -/
inductive ServerStep : Server → ServerOp → Server → Prop where
  /-- A request takes a step. -/
  | request {s : Server} {shared : Shared} {phase : RequestPhase} (i : ℕ)
      (step : RequestStep eventCodec windowCodec windowsSchemaVersion debug dedupRetentionSecs
        s.shared (s.requests i) shared phase) :
      ServerStep s (.request i)
        {s with shared := shared,requests := Function.update s.requests i phase}
  /-- The handler performs its next action. -/
  | perform {s : Server} {action : Action} {rest : List Action} {shared : Shared}
      (next : s.handler=some (action::rest))
      (done : perform eventCodec s.shared action=some shared) :
      ServerStep s .handler {s with shared := shared,handler := some rest}
  /-- The handler returns an error. -/
  | refuse {s : Server} {action : Action} {rest : List Action}
      (next : s.handler=some (action::rest)) (refused : perform eventCodec s.shared action=none) :
      ServerStep s .handler {s with handler := none}
  /-- A store fails the handler; some failures are only logged. -/
  | fail {s : Server} {action : Action} {rest : List Action}
      (next : s.handler=some (action::rest)) (fallible : ∀ userId, action≠.evict userId) :
      ServerStep s .handlerFails
        {s with handler := if action.tolerated then some rest else none}
  /-- Time passes. -/
  | tick {s : Server} (duration : ℕ) :
      ServerStep s (.tick duration) {s with shared := {s.shared with now := s.shared.now+duration}}

end

/-- The store has no event of the device. -/
def RowFree (eventCodec : Codec PersistedEvent) (deviceId : String) (db : Db) : Prop :=
  ∀ (k v : Bytes) (e : ServerEvent), (db .events)[k]?=some v → decodeEvent eventCodec v=some e →
    e.deviceId≠deviceId

/-- The store has no window of the user. -/
def WindowFree (userId : String) (db : Db) : Prop :=
  ∀ k : Bytes, delimited (utf8 userId)<+:k → (db .windows)[k]?=none

/-- A batch of the device between its last check and its upsert. -/
def Parked (deviceId : String) (phase : RequestPhase) : Prop :=
  ∃ upload, upload.deviceId=deviceId ∧
    ((Storable upload ∧ phase=.cursored upload) ∨ phase=.holding (.batch upload))

/-- A call that has loaded the generation and not stored a status. -/
def CallInFlight (phase : RequestPhase) (genAtRead : UInt64) : Prop :=
  ∃ request, phase=.loaded request genAtRead ∨ ∃ active, phase=.read request genAtRead active

section

variable (windowsSchemaVersion : ℕ) (debug : String → String)

/-- A windows request of the user that has rows to store. -/
def StoresWindows (userId : String) (request : Request) : Prop :=
  ∃ clean req win, request=.windows userId clean req ∧
    admitWindows windowsSchemaVersion debug {req with active := some true}=.ok win ∧
    (sanitizeWindowBatch win.items req.nowMs).items≠[]

/-- Such a request between the read that finds the user active and its
upsert. -/
def WindowsParked (userId : String) (phase : RequestPhase) : Prop :=
  ∃ request, StoresWindows windowsSchemaVersion debug userId request ∧
    (phase=.active request ∨ phase=.holding request ∨ ∃ gen, phase=.read request gen true)

end

section

variable {eventCodec : Codec PersistedEvent} {windowCodec : Codec WireWindow}
variable {windowsSchemaVersion : ℕ} {debug : String → String} {dedupRetentionSecs : Int64}
variable {db db' : Db}

/-- An upsert of one event writes no windows, and no row but its own. -/
theorem upsertOne_writes {event : ServerEvent} {op : Write}
    (h : op∈upsertOne eventCodec db event) : op.cell.1≠.windows ∧
      ∀ k v, op.cell=(.events,k) → op.content=some v → v=encodeEvent eventCodec event := by
  have hinsert : ∀ x∈insertEvent eventCodec event, x.cell.1≠.windows ∧
      ∀ k v, x.cell=(.events,k) → x.content=some v → v=encodeEvent eventCodec event := by
    intro x hx
    unfold insertEvent at hx
    simp only [List.mem_append,List.mem_cons,List.not_mem_nil,or_false] at hx
    rcases hx with ((rfl | rfl) | hx) | rfl
    · exact ⟨fun h => (by cases h),fun k v _ hcontent => (Option.some.inj hcontent).symm⟩
    · exact ⟨fun h => (by cases h),fun k v hcell _ => by cases hcell⟩
    · split_ifs at hx
      · cases hx
      · rw [List.mem_singleton.mp hx]
        exact ⟨fun h => (by cases h),fun k v hcell _ => by cases hcell⟩
    · exact ⟨fun h => (by cases h),fun k v hcell _ => by cases hcell⟩
  rcases FjallCoherence.upsertOne_cases eventCodec db event with ⟨-,-,-,hskip⟩ | ⟨-,hreplace⟩
  · rw [hskip] at h
    cases h
  · rw [hreplace,FjallCoherence.replaceRow] at h
    rcases List.mem_append.mp h with h | h
    · cases hrow : (db .idxMsg)[event.idxKey]? with
      | none =>
        rw [hrow] at h
        cases h
      | some row =>
        simp only [hrow,Option.elim_some,removeRow,List.mem_cons,List.not_mem_nil,or_false] at h
        rcases h with rfl | rfl | rfl
        · exact ⟨fun h => (by cases h),fun k v _ hcontent => by cases hcontent⟩
        · exact ⟨fun h => (by cases h),fun k v _ hcontent => by cases hcontent⟩
        · exact ⟨fun h => (by cases h),fun k v _ hcontent => by cases hcontent⟩
    · exact hinsert op h

/-- Rows after an upsert were there before or hold events of the batch. -/
theorem row_of_upserted {events : List ServerEvent} {k v : Bytes}
    (hup : UpsertEvents eventCodec db events db') (hv : (db' .events)[k]?=some v) :
    (db .events)[k]?=some v ∨ ∃ e∈events, v=encodeEvent eventCodec e := by
  obtain ⟨order,hperm,rfl⟩ := hup
  rcases get_commit_cases hv with hbefore | ⟨op,hop,hcell,hcontent⟩
  · exact .inl hbefore
  · obtain ⟨e,he,hop⟩ := List.mem_flatMap.mp hop
    exact .inr ⟨e,FjallBatches.mem_of_mem_winners (hperm.mem_iff.mp he),
      (upsertOne_writes hop).2 k v hcell hcontent⟩

/-- An upsert of events leaves the windows alone. -/
theorem windows_of_upserted {events : List ServerEvent}
    (hup : UpsertEvents eventCodec db events db') (k : Bytes) :
    (db' .windows)[k]?=(db .windows)[k]? := by
  obtain ⟨order,-,rfl⟩ := hup
  refine get_commit_of_untouched (fun op hop hcell => ?_) db
  obtain ⟨e,-,hop⟩ := List.mem_flatMap.mp hop
  exact (upsertOne_writes hop).1 (congrArg Prod.fst hcell)

/-- Upserting events of other devices stores none of the device. -/
theorem RowFree.upsert {deviceId : String} (h : RowFree eventCodec deviceId db) {upload : Upload}
    (hother : upload.deviceId≠deviceId)
    (hup : UpsertEvents eventCodec db upload.serverEvents db') :
    RowFree eventCodec deviceId db' := by
  intro k v e hv he
  rcases row_of_upserted hup hv with hbefore | ⟨x,hx,rfl⟩
  · exact h k v e hbefore he
  · rw [decodeEvent_encodeEvent,Option.some.injEq] at he
    rw [←he,(Upload.ids_of_mem hx).1]
    exact hother

/-- What a windows request leaves in the store. -/
theorem SyncWindows.store {userId : String} {req : WindowsRequest}
    {upserted : Option (Except String ℕ)} {reply : WindowsReply}
    (h : SyncWindows windowsSchemaVersion debug windowCodec db userId req upserted reply db') :
    db'=db ∨ ∃ win items, admitWindows windowsSchemaVersion debug req=.ok win ∧
      (sanitizeWindowBatch win.items req.nowMs).items≠[] ∧
      db'=(WindowStore.upsertWindows windowCodec db userId win.provider items).1 := by
  unfold SyncWindows at h
  cases hchecks : admitWindows windowsSchemaVersion debug req with
  | error refusal =>
    rw [hchecks] at h
    exact .inl h.2.2
  | ok win =>
    rw [hchecks] at h
    obtain ⟨items,result,⟨sorted,hsorted,hitems⟩,hup,-⟩ := h
    by_cases hempty : (sanitizeWindowBatch win.items req.nowMs).items=[]
    · have hnone : items=[] := by
        rw [hempty] at hsorted
        rw [hitems,List.nil_perm.mp hsorted.1.symm]
        rfl
      rw [hnone] at hup
      cases result with
      | ok skipped => exact .inl (congrArg Prod.fst hup).symm
      | error reason =>
        obtain ⟨n,hn,-⟩ := hup
        cases hn
    · cases result with
      | ok skipped => exact .inr ⟨win,items,rfl,hempty,(congrArg Prod.fst hup).symm⟩
      | error reason =>
        obtain ⟨n,-,hdb⟩ := hup
        exact .inr ⟨win,items.take n,rfl,hempty,hdb⟩

/-- What one step of a request changes. -/
structure RequestEffect (eventCodec : Codec PersistedEvent) (windowsSchemaVersion : ℕ)
    (debug : String → String) (s : Shared) (phase : RequestPhase) (s' : Shared)
    (phase' : RequestPhase) : Prop where
  /-- No user's row. -/
  users : s'.users=s.users
  /-- No device's row. -/
  devices : s'.devices=s.devices
  /-- Not the generation of the cache. -/
  generation : s'.cache.generation=s.cache.generation
  /-- Events are stored by batches that were parked. -/
  rows : ∀ deviceId, ¬Parked deviceId phase → RowFree eventCodec deviceId s.store →
    RowFree eventCodec deviceId s'.store
  /-- Windows are stored by requests that were parked. -/
  windows : ∀ userId, NulFree (utf8 userId) →
    ¬WindowsParked windowsSchemaVersion debug userId phase → WindowFree userId s.store →
    WindowFree userId s'.store
  /-- A batch is parked while the device has its row. -/
  parked : ∀ deviceId, Parked deviceId phase' → Parked deviceId phase ∨ s.devices deviceId≠none
  /-- A windows request is parked when the row or the cache says that the user
  is active. -/
  windowsParked : ∀ userId, WindowsParked windowsSchemaVersion debug userId phase' →
    WindowsParked windowsSchemaVersion debug userId phase ∨ s.users userId=some true ∨
      ∃ at', s.cache.map userId=some (true,at')
  /-- The cache learns that a user is active from a read of its generation. -/
  cached : ∀ userId at', s'.cache.map userId=some (true,at') →
    s.cache.map userId=some (true,at') ∨
      ∃ request, request.userId=userId ∧ phase=.read request s.cache.generation true
  /-- A read finds an active user when the row says so. -/
  reads : ∀ request genAtRead, phase'=.read request genAtRead true →
    s.users request.userId=some true
  /-- Calls load the current generation. -/
  loads : ∀ genAtRead, CallInFlight phase' genAtRead →
    CallInFlight phase genAtRead ∨ genAtRead=s.cache.generation

/-- Phases after the last write of a request. -/
def Silent (phase : RequestPhase) : Prop :=
  phase=.finished ∨ ∃ upload, phase=.upserted upload ∨ phase=.advanced upload

/-- A silent request is not parked and has no call in flight. -/
theorem Silent.quiet {phase : RequestPhase} (h : Silent phase) (windowsSchemaVersion : ℕ)
    (debug : String → String) :
    (∀ deviceId, ¬Parked deviceId phase) ∧
    (∀ userId, ¬WindowsParked windowsSchemaVersion debug userId phase) ∧
    (∀ request genAtRead, phase≠.read request genAtRead true) ∧
    ∀ genAtRead, ¬CallInFlight phase genAtRead := by
  obtain rfl | ⟨upload,rfl | rfl⟩ := h
  · simp [Parked,WindowsParked,CallInFlight]
  · simp [Parked,WindowsParked,CallInFlight]
  · simp [Parked,WindowsParked,CallInFlight]

variable {s s' : Shared} {phase phase' : RequestPhase}

/-- A step that leaves the rows and the cache alone and ends in silence. -/
theorem RequestEffect.of_silent (h : Silent phase') (husers : s'.users=s.users)
    (hdevices : s'.devices=s.devices) (hcache : s'.cache=s.cache)
    (hrows : ∀ deviceId, ¬Parked deviceId phase → RowFree eventCodec deviceId s.store →
      RowFree eventCodec deviceId s'.store)
    (hwindows : ∀ userId, NulFree (utf8 userId) →
      ¬WindowsParked windowsSchemaVersion debug userId phase → WindowFree userId s.store →
      WindowFree userId s'.store) :
    RequestEffect eventCodec windowsSchemaVersion debug s phase s' phase' := by
  obtain ⟨hparked,hwparked,hread,hflight⟩ := h.quiet windowsSchemaVersion debug
  refine ⟨husers,hdevices,by rw [hcache],hrows,hwindows,?_,?_,?_,?_,?_⟩
  · exact fun deviceId hp => absurd hp (hparked deviceId)
  · exact fun userId hp => absurd hp (hwparked userId)
  · intro userId at' hentry
    rw [hcache] at hentry
    exact .inl hentry
  · exact fun request genAtRead heq => absurd heq (hread request genAtRead)
  · exact fun genAtRead hin => absurd hin (hflight genAtRead)

/-- A step that leaves the event store, the rows and the cache alone. -/
theorem RequestEffect.of_idle (husers : s'.users=s.users) (hdevices : s'.devices=s.devices)
    (hcache : s'.cache=s.cache) (hstore : s'.store=s.store)
    (hparked : ∀ deviceId, Parked deviceId phase' →
      Parked deviceId phase ∨ s.devices deviceId≠none)
    (hwparked : ∀ userId, WindowsParked windowsSchemaVersion debug userId phase' →
      WindowsParked windowsSchemaVersion debug userId phase ∨ s.users userId=some true ∨
        ∃ at', s.cache.map userId=some (true,at'))
    (hreads : ∀ request genAtRead, phase'=.read request genAtRead true →
      s.users request.userId=some true)
    (hloads : ∀ genAtRead, CallInFlight phase' genAtRead →
      CallInFlight phase genAtRead ∨ genAtRead=s.cache.generation) :
    RequestEffect eventCodec windowsSchemaVersion debug s phase s' phase' := by
  refine ⟨husers,hdevices,by rw [hcache],?_,?_,hparked,hwparked,?_,hreads,hloads⟩
  · intro deviceId _ hfree
    rw [hstore]
    exact hfree
  · intro userId _ _ hfree
    rw [hstore]
    exact hfree
  · intro userId at' hentry
    rw [hcache] at hentry
    exact .inl hentry

/-- A windows request that stores rows is one of its user. -/
theorem StoresWindows.userId_eq {userId : String} {request : Request}
    (h : StoresWindows windowsSchemaVersion debug userId request) : request.userId=userId := by
  obtain ⟨clean,req,win,rfl,-⟩ := h
  rfl

/-- What is parked in the phase after the answer of the active check. -/
theorem parked_answered (windowsSchemaVersion : ℕ) (debug : String → String) (request : Request)
    (active : Bool) :
    (∀ deviceId, ¬Parked deviceId (answered request active)) ∧
    (∀ genAtRead, ¬CallInFlight (answered request active) genAtRead) ∧
    (∀ request' genAtRead, answered request active≠.read request' genAtRead true) ∧
    ∀ userId, WindowsParked windowsSchemaVersion debug userId (answered request active) →
      active=true ∧ StoresWindows windowsSchemaVersion debug userId request := by
  cases active with
  | true => simp [answered,Parked,CallInFlight,WindowsParked]
  | false => simp [answered,Parked,CallInFlight,WindowsParked]

/-- A windows request stores no row of a device. -/
theorem RowFree.syncWindows {deviceId userId : String} {db db' : Db} {req : WindowsRequest}
    {upserted : Option (Except String ℕ)} {reply : WindowsReply}
    (h : RowFree eventCodec deviceId db)
    (answer : SyncWindows windowsSchemaVersion debug windowCodec db userId req upserted reply db') :
    RowFree eventCodec deviceId db' := by
  intro k v e hv
  rcases SyncWindows.store answer with hsame | ⟨win,items,-,-,hstored⟩
  · rw [hsame] at hv
    exact h k v e hv
  · have hname : ¬((KeyspaceName.events)=.windows ∧ delimited (utf8 userId)<+:k) :=
      fun hcell => absurd hcell.1 (by decide)
    rw [hstored,get_upsertWindows_of_other hname] at hv
    exact h k v e hv

/-- A windows request of a user stores no window of another, and none at all
unless it passes the checks with rows to store. -/
theorem WindowFree.syncWindows {userId user : String} {db db' : Db} {req : WindowsRequest}
    {upserted : Option (Except String ℕ)} {reply : WindowsReply} (h : WindowFree userId db)
    (answer : SyncWindows windowsSchemaVersion debug windowCodec db user req upserted reply db')
    (hu : NulFree (utf8 userId)) (clean : NulFree (utf8 user))
    (hstores : ∀ win, admitWindows windowsSchemaVersion debug req=.ok win →
      (sanitizeWindowBatch win.items req.nowMs).items≠[] → user≠userId) :
    WindowFree userId db' := by
  intro k hk
  rcases SyncWindows.store answer with hsame | ⟨win,items,hchecks,hrows,hstored⟩
  · rw [hsame]
    exact h k hk
  · have hne := hstores win hchecks hrows
    have hname : ¬((KeyspaceName.windows)=.windows ∧ delimited (utf8 user)<+:k) :=
      fun hcell => not_prefix_of_ne hu clean hne hk hcell.2
    rw [hstored,get_upsertWindows_of_other hname]
    exact h k hk

/-- Every step of a request has these effects. -/
theorem RequestStep.effect (h : RequestStep eventCodec windowCodec windowsSchemaVersion debug
    dedupRetentionSecs s phase s' phase') :
    RequestEffect eventCodec windowsSchemaVersion debug s phase s' phase' := by
  have hfinished : Silent .finished := .inl rfl
  cases h with
  | @hit active request fresh =>
    obtain ⟨hparked,hflight,hread,hwparked⟩ :=
      parked_answered windowsSchemaVersion debug request active
    refine .of_idle rfl rfl rfl rfl (fun deviceId hp => absurd hp (hparked deviceId)) ?_
      (fun request' genAtRead heq => absurd heq (hread request' genAtRead))
      fun genAtRead hin => absurd hin (hflight genAtRead)
    intro userId hp
    obtain ⟨rfl,hstores⟩ := hwparked userId hp
    rw [hstores.userId_eq] at fresh
    exact .inr (.inr (getFresh_eq_some (s:=⟨s.users,s.cache,s.now,fun _ => .idle,fun _ => .idle⟩)
      fresh))
  | miss request stale =>
    exact .of_idle rfl rfl rfl rfl (by simp [Parked]) (by simp [WindowsParked]) (by simp)
      (by simp [CallInFlight])
  | loadGeneration =>
    exact .of_idle rfl rfl rfl rfl (by simp [Parked]) (by simp [WindowsParked]) (by simp)
      (by simp [CallInFlight])
  | @readUser request genAtRead =>
    have hactive : ∀ u, (s.users u).getD false=true → s.users u=some true := fun u hu =>
      (Option.getD_eq_iff.mp hu).resolve_right fun hnone => Bool.false_ne_true hnone.2
    refine .of_idle rfl rfl rfl rfl (by simp [Parked]) ?_ ?_ (by simp [CallInFlight])
    · intro userId hp
      obtain ⟨request',hstores,heq | heq | ⟨gen,heq⟩⟩ := hp
      · cases heq
      · cases heq
      · rw [RequestPhase.read.injEq] at heq
        obtain ⟨rfl,-,hread⟩ := heq
        rw [hstores.userId_eq] at hread
        exact .inr (.inl (hactive userId hread))
    · intro request' gen heq
      rw [RequestPhase.read.injEq] at heq
      obtain ⟨rfl,-,hread⟩ := heq
      exact hactive _ hread
  | readFails => exact .of_silent hfinished rfl rfl rfl (fun _ _ hf => hf) fun _ _ _ hf => hf
  | @store request genAtRead active =>
    obtain ⟨hparked,hflight,hread,hwparked⟩ :=
      parked_answered windowsSchemaVersion debug request active
    refine ⟨rfl,rfl,insertIfCurrent_generation _ _ _ _ _,fun _ _ hf => hf,fun _ _ _ hf => hf,
      fun deviceId hp => absurd hp (hparked deviceId),?_,?_,
      fun request' gen heq => absurd heq (hread request' gen),
      fun gen hin => absurd hin (hflight gen)⟩
    · intro userId hp
      obtain ⟨rfl,hstores⟩ := hwparked userId hp
      exact .inl ⟨request,hstores,.inr (.inr ⟨genAtRead,rfl⟩)⟩
    · intro userId at' hentry
      rcases insertIfCurrent_entry hentry with hbefore | ⟨hgen,huser,hactive⟩
      · exact .inl hbefore
      · refine .inr ⟨request,huser,?_⟩
        rw [hgen,←hactive]
  | ensureCursor row =>
    refine .of_idle rfl rfl rfl rfl ?_ (by simp [WindowsParked]) (by simp) (by simp [CallInFlight])
    intro deviceId hp
    obtain ⟨upload,rfl,⟨-,heq⟩ | heq⟩ := hp
    · cases heq
      exact .inr row
    · cases heq
  | foreignKey gone => exact .of_silent hfinished rfl rfl rfl (fun _ _ hf => hf) fun _ _ _ hf => hf
  | answerBatch small =>
    exact .of_silent hfinished rfl rfl rfl (fun _ _ hf => hf) fun _ _ _ hf => hf
  | @acquireBatch upload permits storable free =>
    refine .of_idle rfl rfl rfl rfl ?_ ?_ (by simp) (by simp [CallInFlight])
    · intro deviceId hp
      obtain ⟨upload',rfl,⟨-,heq⟩ | heq⟩ := hp
      · cases heq
      · cases heq
        exact .inl ⟨upload,rfl,.inl ⟨storable,rfl⟩⟩
    · intro userId hp
      obtain ⟨request,⟨clean,req,win,rfl,-⟩,heq | heq | ⟨gen,heq⟩⟩ := hp <;> cases heq
  | @upsertEvents upload db upserted =>
    refine .of_silent (.inr ⟨upload,.inl rfl⟩) rfl rfl rfl ?_ ?_
    · intro deviceId hparked hfree
      exact hfree.upsert (fun hdevice => hparked ⟨upload,hdevice,.inr rfl⟩) upserted
    · intro userId _ _ hfree k hk
      rw [windows_of_upserted upserted,hfree k hk]
  | upsertFails => exact .of_silent hfinished rfl rfl rfl (fun _ _ hf => hf) fun _ _ _ hf => hf
  | @advanceCursor upload =>
    exact .of_silent (.inr ⟨upload,.inr rfl⟩) rfl rfl rfl (fun _ _ hf => hf) fun _ _ _ hf => hf
  | advanceFails => exact .of_silent hfinished rfl rfl rfl (fun _ _ hf => hf) fun _ _ _ hf => hf
  | prune old =>
    refine .of_silent hfinished rfl rfl rfl (fun deviceId _ hfree k v e hv => ?_)
      fun userId _ _ hfree k hk => ?_
    · rw [FjallRuns.get_cleanupOldDedup_of_ne _ _ _ (by decide)] at hv
      exact hfree k v e hv
    · rw [FjallRuns.get_cleanupOldDedup_of_ne _ _ _ (by decide),hfree k hk]
  | acknowledge => exact .of_silent hfinished rfl rfl rfl (fun _ _ hf => hf) fun _ _ _ hf => hf
  | refuseWindows refused =>
    exact .of_silent hfinished rfl rfl rfl (fun _ _ hf => hf) fun _ _ _ hf => hf
  | @acquireWindows user clean req win permits admitted free =>
    refine .of_idle rfl rfl rfl rfl (by simp [Parked]) ?_ (by simp) (by simp [CallInFlight])
    intro userId hp
    obtain ⟨request,hstores,heq | heq | ⟨gen,heq⟩⟩ := hp
    · cases heq
    · cases heq
      exact .inl ⟨_,hstores,.inl rfl⟩
    · cases heq
  | @upsertWindows user clean req upserted reply db answer =>
    refine .of_silent hfinished rfl rfl rfl (fun deviceId _ hfree => hfree.syncWindows answer)
      fun userId hu hparked hfree => ?_
    refine hfree.syncWindows answer hu clean ?_
    rintro win hchecks hrows rfl
    exact hparked ⟨_,⟨clean,req,win,rfl,hchecks,hrows⟩,.inr (.inl rfl)⟩

end

end TokiSync.DeletionRaces
