import TokiSync.DatabaseRuns
import TokiSync.SyncConnection
import TokiSync.WindowQueries

/-!
# The server behind the connections

The connections share the embedded event store, the relational database, the
cache of active statuses, the limiter of windows, the write permits and the
number of connections that may still be opened. A failing statement may have
taken effect before it failed. The handlers of web requests and the background
tasks change the stores meanwhile.
-/

namespace TokiSync.SyncServer

open MachineWords ByteKeys ByteCodec ServerEvents WireWindows SyncBatches SyncConnection
open FjallStore hiding Write
open InterleavedSessions (Services Host Label Event Phase Step opens_next arrive_next call_next
  finish_next)
open ActiveStatusCache (ActiveCacheInner)
open DatabaseRepo (Tables Refusal)
open DatabaseRuns (Write)
open WindowsLimiter (LastAccepted)

/-- Connections that may be open at a time. -/
def maxTcpConnections : ℕ := 500

/-- What the connections share. -/
structure Server where
  /-- The event store. -/
  events : Db
  /-- The relational database. -/
  db : Tables
  /-- The cache of active statuses. -/
  cache : ActiveCacheInner
  /-- The limiter of windows. -/
  windowsRate : LastAccepted
  /-- Current instant. -/
  now : ℕ
  /-- Free write permits. -/
  permits : ℕ
  /-- Connections that hold a write permit; a permit is given back when the
  task of its connection ends. -/
  guards : List ℕ
  /-- Connections that may still be opened. -/
  connections : ℕ

/-- What happens besides the connections. -/
inductive Outside where
  /-- A call of the repository. -/
  | write (w : Write)
  /-- The entry of a user is evicted from the cache. -/
  | evict (userId : String)
  /-- A web request caches the status it read. -/
  | insertIfCurrent (userId : String) (active : Bool) (genAtRead : UInt64)
  /-- The events of a device are purged. -/
  | deleteDeviceEvents (deviceId : String)
  /-- The windows of a user are purged. -/
  | deleteUserWindows (userId : String)
  /-- The windows that ended before a time are swept. -/
  | cleanupOldWindows (cutoffMs : Int64)
  /-- Time passes. -/
  | tick (duration : ℕ)

/-- A read, which may fail. -/
def Reads {β : Type} (value : β) (reply : Except String β) : Prop :=
  reply=.ok value ∨ ∃ e, reply=.error e

/-- A write, which may fail before or after it takes effect. -/
def Writes (s done : Server) (reply : Except String Unit) (t : Server) : Prop :=
  (t=done ∧ Reads () reply) ∨ (t=s ∧ ∃ e, reply=.error e)

/-- A call of the repository, which may be refused. -/
def Executes (s : Server) (result : Except Refusal Tables) (reply : Except String Unit)
    (t : Server) : Prop :=
  match result with
  | .ok db => Writes s {s with db := db} reply t
  | .error _ => t=s ∧ ∃ e, reply=.error e

/-- A write permit is free and goes to a connection. -/
def Acquires (s : Server) (i : ℕ) (reply : Except String Unit) (t : Server) : Prop :=
  (∃ permits, s.permits=permits+1 ∧ t={s with permits := permits,guards := i::s.guards} ∧
    reply=.ok ()) ∨ (t=s ∧ ∃ e, reply=.error e)

/-- A connection gives its write permit back. -/
def Server.release (s : Server) (i : ℕ) : Server :=
  {s with permits := s.permits+1,guards := s.guards.erase i}

/-- A connection is over, and with it the permits it holds. -/
def Server.hangUp (s : Server) (i : ℕ) : Server :=
  let s := if i∈s.guards then s.release i else s
  {s with connections := s.connections+1}

section

variable (F : Formats) (eventCodec : Codec PersistedEvent) (windowCodec : Codec WireWindow)
variable (backend : OidcAccounts.Backend)

/-- How a call of a connection is answered. -/
def Calls (i : ℕ) : (op : Call) → Server → Answer op → Server → Prop
  | .verifyAccess token, s, reply, t => t=s ∧ ∃ now, reply=verifyAccess F now token
  | .getFresh userId, s, reply, t =>
    t=s ∧ reply=ActiveStatusCache.getFresh s.cache s.now userId
  | .generation, s, reply, t => t=s ∧ reply=s.cache.generation
  | .getUserById userId, s, reply, t => t=s ∧ Reads (DatabaseRepo.getUserById s.db userId) reply
  | .insertIfCurrent userId active genAtRead, s, _, t =>
    t={s with cache := ActiveStatusCache.insertIfCurrent s.cache s.now userId active genAtRead}
  | .findDeviceByKeyAndUser deviceKey userId, s, reply, t =>
    t=s ∧ Reads (DatabaseRepo.findDeviceByKeyAndUser s.db deviceKey userId) reply
  | .updateDeviceSeen id name, s, reply, t =>
    ∃ now, Executes s (.ok (DatabaseRepo.updateDeviceSeen s.db id name now)) reply t
  | .createDevice id userId name deviceKey, s, reply, t =>
    ∃ now, Executes s (DatabaseRepo.createDevice s.db id userId name deviceKey now) reply t
  | .deleteDeviceEvents deviceId, s, reply, t =>
    Writes s {s with events := FjallStore.deleteDeviceEvents eventCodec s.events deviceId} reply t
  | .resetCursor deviceId provider, s, reply, t =>
    ∃ now, Executes s (.ok (DatabaseRepo.resetCursor s.db deviceId provider now)) reply t
  | .ensureCursor deviceId provider, s, reply, t =>
    ∃ now, Executes s (DatabaseRepo.ensureCursor s.db deviceId provider now) reply t
  | .getLastTs deviceId provider, s, reply, t =>
    t=s ∧ Reads (DatabaseRepo.getLastTs s.db deviceId provider) reply
  | .advanceCursor deviceId provider ts, s, reply, t =>
    ∃ now, Executes s (.ok (DatabaseRepo.advanceCursor s.db deviceId provider ts now)) reply t
  | .acquire, s, reply, t => Acquires s i reply t
  | .release, s, _, t => t=s.release i
  | .upsertEvents events, s, reply, t =>
    ∃ db, UpsertEvents eventCodec s.events events db ∧ Writes s {s with events := db} reply t
  | .cleanupOldDedup deviceId cutoffMs, s, reply, t =>
    Writes s {s with events := FjallStore.cleanupOldDedup s.events deviceId cutoffMs} reply t
  | .allow userId provider deviceId, s, reply, t =>
    (reply,t.windowsRate)=WindowsLimiter.allow s.windowsRate s.now userId provider deviceId ∧
      t={s with windowsRate := t.windowsRate}
  | .nowMs, s, _, t => t=s
  | .premergeWindows items, s, reply, t => t=s ∧ PremergeWindows items reply
  | .upsertWindows userId provider items, s, reply, t =>
    ∃ db, WindowAcks.UpsertWindows windowCodec s.events userId provider items reply db ∧
      t={s with events := db}
  | .write _, s, _, t => t=s

/-- What happens outside the connections. -/
def HappensOutside : Outside → Server → Server → Prop
  | .write w, s, t => t={s with db := DatabaseRuns.perform backend s.db w}
  | .evict userId, s, t => t={s with cache := ActiveStatusCache.evict s.cache userId}
  | .insertIfCurrent userId active genAtRead, s, t =>
    t={s with cache := ActiveStatusCache.insertIfCurrent s.cache s.now userId active genAtRead}
  | .deleteDeviceEvents deviceId, s, t =>
    t={s with events := FjallStore.deleteDeviceEvents eventCodec s.events deviceId}
  | .deleteUserWindows userId, s, t =>
    t={s with events := WindowQueries.deleteUserWindows s.events userId}
  | .cleanupOldWindows cutoffMs, s, t =>
    t={s with events := WindowQueries.cleanupOldWindows s.events cutoffMs}
  | .tick duration, s, t => t={s with now := s.now+duration}

/-- The services of the server. -/
def services : Services Server ℕ Answer Outside where
  opens _ s t := ∃ connections, s.connections=connections+1 ∧ t={s with connections := connections}
  calls := Calls F eventCodec windowCodec
  closes i s t := t=s.hangUp i
  environment := HappensOutside eventCodec backend

/-- One step of a connection or outside. -/
abbrev ServerStep (dedupRetentionSecs : Int64) :=
  Step (ε:=Outside) (services F eventCodec windowCodec backend) Session.handshake
    (handleConnection F dedupRetentionSecs)

end

/-- Steps of the server. -/
abbrev ServerLabel := Label ℕ Answer Arrival Outside

/-- The server and its connections. -/
abbrev SyncHost := Host Server ℕ Answer Session

/-- What a call asks of the relational database. -/
def asks (now : Int64) : Call → Option Write
  | .updateDeviceSeen id name => some (.updateDeviceSeen id name now)
  | .createDevice id userId name deviceKey => some (.createDevice id userId name deviceKey now)
  | .resetCursor deviceId provider => some (.resetCursor deviceId provider now)
  | .ensureCursor deviceId provider => some (.ensureCursor deviceId provider now)
  | .advanceCursor deviceId provider ts => some (.advanceCursor deviceId provider ts now)
  | _ => none

section

variable {F : Formats} {eventCodec : Codec PersistedEvent} {windowCodec : Codec WireWindow}
variable {i : ℕ} {s t done : Server}

theorem Writes.db {reply : Except String Unit} (h : Writes s done reply t) (hdone : done.db=s.db) :
    t.db=s.db := by
  rcases h with ⟨rfl,-⟩ | ⟨rfl,-⟩
  · exact hdone
  · rfl

/-- A write of the repository does what it does when it is called by itself,
or nothing. -/
theorem Executes.db {reply : Except String Unit} {result : Except Refusal Tables}
    (h : Executes s result reply t) :
    t.db=s.db ∨ t.db=DatabaseRuns.unlessRefused s.db result fun db => db := by
  cases result with
  | error e => exact .inl (congrArg Server.db h.1)
  | ok db =>
    rcases h with ⟨rfl,-⟩ | ⟨rfl,-⟩
    · exact .inr rfl
    · exact .inl rfl

/-- A call changes the relational database by what it asks of the repository
only. -/
theorem db_of_call (backend : OidcAccounts.Backend) {op : Call} {reply : Answer op}
    (h : Calls F eventCodec windowCodec i op s reply t) :
    t.db=s.db ∨ ∃ now w, asks now op=some w ∧ t.db=DatabaseRuns.perform backend s.db w := by
  have hwrite : ∀ {now : Int64} {w : Write} {result : Except Refusal Tables}
      {reply : Except String Unit}, asks now op=some w →
      DatabaseRuns.unlessRefused s.db result (fun db => db)=DatabaseRuns.perform backend s.db w →
      Executes s result reply t →
      t.db=s.db ∨ ∃ now w, asks now op=some w ∧ t.db=DatabaseRuns.perform backend s.db w := by
    intro now w result reply hop hresult hexecutes
    rcases Executes.db hexecutes with hsame | hdone
    · exact .inl hsame
    · exact .inr ⟨now,w,hop,hdone.trans hresult⟩
  cases op with
  | updateDeviceSeen id name =>
    obtain ⟨now,h⟩ := h
    exact hwrite rfl rfl h
  | createDevice id userId name deviceKey =>
    obtain ⟨now,h⟩ := h
    exact hwrite rfl rfl h
  | resetCursor deviceId provider =>
    obtain ⟨now,h⟩ := h
    exact hwrite rfl rfl h
  | ensureCursor deviceId provider =>
    obtain ⟨now,h⟩ := h
    exact hwrite rfl rfl h
  | advanceCursor deviceId provider ts =>
    obtain ⟨now,h⟩ := h
    exact hwrite rfl rfl h
  | deleteDeviceEvents deviceId => exact .inl (Writes.db h rfl)
  | cleanupOldDedup deviceId cutoffMs => exact .inl (Writes.db h rfl)
  | upsertEvents events =>
    obtain ⟨db,-,h⟩ := h
    exact .inl (Writes.db h rfl)
  | upsertWindows userId provider items =>
    obtain ⟨db,-,rfl⟩ := h
    exact .inl rfl
  | allow userId provider deviceId =>
    rw [h.2]
    exact .inl rfl
  | acquire =>
    rcases h with ⟨permits,-,rfl,-⟩ | ⟨rfl,-⟩ <;> exact .inl rfl
  | release =>
    have ht : t=s.release i := h
    rw [ht]
    exact .inl rfl
  | insertIfCurrent userId active genAtRead =>
    have ht : t={s with cache :=
      ActiveStatusCache.insertIfCurrent s.cache s.now userId active genAtRead} := h
    rw [ht]
    exact .inl rfl
  | nowMs => exact .inl (congrArg Server.db h)
  | write reply => exact .inl (congrArg Server.db h)
  | _ => exact .inl (congrArg Server.db h.1)

/-- A connection that ends leaves the stores alone. -/
theorem db_hangUp : (s.hangUp i).db=s.db := by
  unfold Server.hangUp
  split <;> rfl

theorem events_hangUp : (s.hangUp i).events=s.events := by
  unfold Server.hangUp
  split <;> rfl

end

/-- A server that has just been started over its stores. -/
def starting (events : Db) (db : Tables) (maxConcurrentWrites : ℕ) : SyncHost where
  shared := ⟨events,db,.new,∅,0,maxConcurrentWrites,[],maxTcpConnections⟩
  phases _ := .unopened

/-- Formats with one handshake and one batch. -/
def sampleFormats : Formats where
  protocolVersion := 1
  schemaVersion := 1
  windowsSchemaVersion := 1
  maxPayloadSize := 16777216
  authPayload payload := if payload=[1] then some ⟨1,1,"token","codex","laptop","d1"⟩ else none
  getLastTsPayload _ := none
  syncBatchPayload payload :=
    if payload=[2] then some (SyncCursor.sampleUpload "codex" 7).batch else none
  syncWindowsPayload _ := none
  decompress _ _ := none
  isUuid text := text="d1"
  decodeToken _ token :=
    if token="token" then .ok ⟨"u1","j1","access",3600,0,none,none⟩ else .error "InvalidToken"
  debug text := text

/-- A database with one account. -/
def sampleAccounts : Tables :=
  DatabaseRuns.perform .sqlite ReferencedRows.Database.empty
    (.createUser "u1" "ada" "hash" "user" 1)

/-- A handshake that registers a device, newest event first. -/
def sampleHandshake : List (Event Answer Arrival) :=
  [.finish,.call (.write (.authOk "d1")) (.ok ()),.call (.ensureCursor "d1" "codex") (.ok ()),
    .call (.createDevice "d1" "u1" "laptop" "d1") (.ok ()),
    .call (.findDeviceByKeyAndUser "d1" "u1") (.ok none),.call (.insertIfCurrent "u1" true 0) (),
    .call (.getUserById "u1") (.ok (some ⟨"u1","ada","hash","user",1,1,none,none,true⟩)),
    .call .generation 0,.call (.getFresh "u1") none,
    .call (.verifyAccess "token") (.ok ⟨"u1","j1","access",3600,0,none,none⟩),
    .arrive (.frame .auth [1]),.opened]

/-- The device uploads a batch, newest event first. -/
def sampleUploading : List (Event Answer Arrival) :=
  [.call (.upsertEvents (SyncCursor.sampleUpload "codex" 7).serverEvents) (.ok ()),
    .call .acquire (.ok ()),.call (.ensureCursor "d1" "codex") (.ok ()),
    .call (.getFresh "u1") (some true),.arrive (.frame .syncBatch [2])]

/-- Labels of a run with one connection, in the middle of its first batch. -/
def sampleLabels : List ServerLabel := (sampleUploading++sampleHandshake).map (.session 0)

/-- The server after these steps. -/
def sampleServer : Server where
  events := upsertEvents eventLayout.codec emptyDb (SyncCursor.sampleUpload "codex" 7).serverEvents
  db := [.createDevice "d1" "u1" "laptop" "d1" 2,.ensureCursor "d1" "codex" 2,
    .ensureCursor "d1" "codex" 2].foldl (DatabaseRuns.perform .sqlite) sampleAccounts
  cache := ActiveStatusCache.insertIfCurrent .new 0 "u1" true 0
  windowsRate := ∅
  now := 0
  permits := 3
  guards := [0]
  connections := 499

/-- The server takes these steps. -/
theorem sampleServed : ∃ rest, Runs.Run (ServerStep sampleFormats eventLayout.codec
      WindowStore.windowLayout.codec .sqlite 2592000) (starting emptyDb sampleAccounts 4)
      sampleLabels ⟨sampleServer,Function.update (fun _ => .unopened) 0 (.handling rest)⟩ := by
  have hphases : (starting emptyDb sampleAccounts 4).phases=
      Function.update (fun _ => .unopened) 0 .unopened := by
    funext i
    by_cases hi : i=0 <;> simp [starting,hi]
  have run : Runs.Run (ServerStep sampleFormats eventLayout.codec WindowStore.windowLayout.codec
      .sqlite 2592000) (starting emptyDb sampleAccounts 4) []
      ⟨(starting emptyDb sampleAccounts 4).shared,
        Function.update (fun _ => .unopened) 0 .unopened⟩ := by
    rw [←hphases]
    exact .start
  have run := opens_next run ⟨499,rfl,rfl⟩
  have run := arrive_next (.frame .auth [1]) run
  have run := call_next (.ok _) run ⟨rfl,0,rfl⟩
  have run := call_next none run ⟨rfl,rfl⟩
  have run := call_next 0 run ⟨rfl,rfl⟩
  have run := call_next (.ok (some _)) run ⟨rfl,.inl rfl⟩
  have run := call_next () run rfl
  have run := call_next (.ok none) run ⟨rfl,.inl rfl⟩
  have run := call_next (.ok ()) run ⟨2,.inl ⟨rfl,.inl rfl⟩⟩
  have run := call_next (.ok ()) run ⟨2,.inl ⟨rfl,.inl rfl⟩⟩
  have run := call_next (.ok ()) run rfl
  have run := finish_next run
  have run := arrive_next (.frame .syncBatch [2]) run
  have run := call_next (some true) run ⟨rfl,rfl⟩
  have run := call_next (.ok ()) run ⟨2,.inl ⟨rfl,.inl rfl⟩⟩
  have run := call_next (.ok ()) run (.inl ⟨3,rfl,rfl,rfl⟩)
  have run := call_next (.ok ()) run ⟨_,⟨_,.refl _,rfl⟩,.inl ⟨rfl,.inl rfl⟩⟩
  exact ⟨_,run⟩

/-- The sample steps lead to a state of the server. -/
def SampleRun (host : SyncHost) : Prop :=
  Runs.Run (ServerStep sampleFormats eventLayout.codec WindowStore.windowLayout.codec .sqlite
    2592000) (starting emptyDb sampleAccounts 4) sampleLabels host

/-- The connection holds a write permit, and the device and the batch are
stored. -/
theorem sampleRun : ∃ s rest,
    SampleRun ⟨s,Function.update (fun _ => .unopened) 0 (.handling rest)⟩ ∧
    s.guards=[0] ∧ DatabaseRepo.deviceOwner s.db "d1"=some "u1" ∧ s.events=
      upsertEvents eventLayout.codec emptyDb (SyncCursor.sampleUpload "codex" 7).serverEvents := by
  obtain ⟨rest,run⟩ := sampleServed
  exact ⟨_,rest,run,rfl,rfl,rfl⟩

end TokiSync.SyncServer
