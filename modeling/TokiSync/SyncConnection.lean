import TokiSync.ActiveStatusCache
import TokiSync.DatabaseRepo
import TokiSync.FrameCodec
import TokiSync.InterleavedSessions
import TokiSync.SyncCursor
import TokiSync.WindowAcks
import TokiSync.WindowsLimiter

/-!
# Connections of the sync server

A connection starts with a handshake: the client shows an access token and a
device key, and the server finds or creates the device. Afterwards it answers
one frame after another until a read or a write fails, a deadline passes or a
check ends it. All connections share the stores, the cache of active statuses,
the limiter and the write permits, and go on independently of each other. The
formats of the payloads, the compression and the verification of signatures
come from elsewhere.
-/

namespace TokiSync.SyncConnection

open MachineWords ByteKeys ByteCodec ServerEvents WireWindows FjallStore SyncBatches
open InterleavedSessions (Program Services Host Label)
open ActiveStatusCache (ActiveCacheInner)
open DatabaseRepo (Tables Refusal)
open DeviceGrant (Claims)
open OidcAccounts (UserRow)
open SyncCursor (cutoffMs)
open WindowAcks (SyncWindowsPayload maxWindowsPayload answerWindows)
open WindowStore (providerOk)
open WindowsLimiter (LastAccepted)

/-- Types of frames. -/
inductive MsgType where
  | auth | authOk | authErr | getLastTs | lastTs | syncBatch | syncBatchZstd | syncWindows
  | syncAck | syncErr | ping | pong
  /-- A type the server does not handle. -/
  | other (code : UInt32)
  deriving DecidableEq

/-- Payload of the first frame. -/
structure AuthPayload where
  /-- Version of the protocol. -/
  protocolVersion : ℕ
  /-- Version of the client's event schema. -/
  schemaVersion : ℕ
  /-- Access token. -/
  jwt : String
  /-- Provider the client syncs. -/
  provider : String
  /-- Name of the device. -/
  deviceName : String
  /-- Stable key of the device. -/
  deviceKey : String

/-- What a read from the connection gives. -/
inductive Arrival where
  /-- A frame. -/
  | frame (msgType : MsgType) (payload : Bytes)
  /-- The stream ended or broke, or the frame was refused. -/
  | failed
  /-- The deadline passed. -/
  | timeout

/-- A frame for the client. -/
inductive Reply where
  | authErr (reason : String) (resetRequired : Bool)
  | authOk (deviceId : String)
  | lastTs (tsMs : Int64)
  | syncAck (lastTsMs : Int64)
  | syncErr (reason : String)
  | pong
  deriving DecidableEq

/-- What the connection uses of other packages. -/
structure Formats where
  /-- Version of the protocol. -/
  protocolVersion : ℕ
  /-- Version of the event schema. -/
  schemaVersion : ℕ
  /-- Version of the format of windows. -/
  windowsSchemaVersion : ℕ
  /-- Largest payload of a frame. -/
  maxPayloadSize : ℕ
  /-- Deserialize the payload of a handshake. -/
  authPayload : Bytes → Option AuthPayload
  /-- Deserialize a request for a cursor: its provider. -/
  getLastTsPayload : Bytes → Option String
  /-- Deserialize a batch. -/
  syncBatchPayload : Bytes → Option SyncBatchPayload
  /-- Deserialize windows. -/
  syncWindowsPayload : Bytes → Option SyncWindowsPayload
  /-- The decompressed stream, cut off at a length; none when it is broken. -/
  decompress : ℕ → Bytes → Option Bytes
  /-- Whether a text is a UUID. -/
  isUuid : String → Bool
  /-- Signature and expiry of a token at a time: its claims. -/
  decodeToken : Int64 → String → Except String Claims
  /-- A text in quotes, for messages. -/
  debug : String → String

/-- Largest payload before the handshake. -/
def authMaxPayload : ℕ := 64*1024

/-- Largest batch after decompression. -/
def maxDecompressedSize : ℕ := 64*1024*1024

/-- Accept only access tokens. -/
def verifyAccess (F : Formats) (now : Int64) (token : String) : Except String Claims := do
  let claims ← F.decodeToken now token
  if claims.typ≠"access" then .error ("expected access token, got "++claims.typ) else .ok claims

/-- A device name of at most 64 bytes, or its first 64 characters. -/
def truncateDeviceName (name : String) : String :=
  if (utf8 name).length ≤ 64 then name else String.ofList (name.toList.take 64)

/-- Calls of a connection to what all connections share. -/
inductive Call where
  | verifyAccess (token : String)
  | getFresh (userId : String)
  | generation
  | getUserById (userId : String)
  | insertIfCurrent (userId : String) (active : Bool) (genAtRead : UInt64)
  | findDeviceByKeyAndUser (deviceKey userId : String)
  | updateDeviceSeen (id name : String)
  | createDevice (id userId name deviceKey : String)
  | deleteDeviceEvents (deviceId : String)
  | resetCursor (deviceId provider : String)
  | ensureCursor (deviceId provider : String)
  | getLastTs (deviceId provider : String)
  | advanceCursor (deviceId provider : String) (ts : Int64)
  | acquire
  | release
  | upsertEvents (events : List ServerEvent)
  | cleanupOldDedup (deviceId : String) (cutoffMs : Int64)
  | allow (userId provider deviceId : String)
  | nowMs
  | premergeWindows (items : List WireWindow)
  | upsertWindows (userId provider : String) (items : List WireWindow)
  | write (reply : Reply)

/-- Replies of a call. -/
@[reducible] def Answer : Call → Type
  | .verifyAccess _ => Except String Claims
  | .getFresh _ => Option Bool
  | .generation => UInt64
  | .getUserById _ => Except String (Option UserRow)
  | .insertIfCurrent _ _ _ => Unit
  | .findDeviceByKeyAndUser _ _ => Except String (Option String)
  | .getLastTs _ _ => Except String Int64
  | .release => Unit
  | .allow _ _ _ => Bool
  | .nowMs => Int64
  | .premergeWindows _ => List WireWindow
  | .upsertWindows _ _ _ => Except String ℕ
  | _ => Except String Unit

/-- A call whose reply is the result. -/
def call (op : Call) : Program Answer (Answer op) := .perform op

/-- What a connection knows between two frames. -/
inductive Session where
  /-- Nobody has authenticated yet. -/
  | handshake
  /-- The client is a device of a user. -/
  | serving (userId deviceId : String)

/-- The rest of handling a frame; without a session the connection ends. -/
abbrev Handling := Program Answer (Option Session)

/-- Write a frame; a failure ends the connection. -/
def send (reply : Reply) (next : Option Session) : Handling := do
  match ← call (.write reply) with
  | .ok () => pure next
  | .error _ => pure none

/-- Whether a user is active, by a fresh entry of the cache or else by the
database. -/
def isUserActiveCached (userId : String) : Program Answer (Except String Bool) := do
  match ← call (.getFresh userId) with
  | some active => pure (.ok active)
  | none => do
    let genAtRead ← call .generation
    match ← call (.getUserById userId) with
    | .error e => pure (.error e)
    | .ok row => do
      let active := (row.map UserRow.active).getD false
      let _ ← call (.insertIfCurrent userId active genAtRead)
      pure (.ok active)

/-- Find the device of a user by its key, which is the id of a new one. -/
def findOrCreateDevice (userId deviceName deviceKey : String) :
    Program Answer (Except String String) := do
  match ← call (.findDeviceByKeyAndUser deviceKey userId) with
  | .error e => pure (.error e)
  | .ok (some id) => do
    match ← call (.updateDeviceSeen id deviceName) with
    | .error e => pure (.error e)
    | .ok () => pure (.ok id)
  | .ok none => do
    match ← call (.createDevice deviceKey userId deviceName deviceKey) with
    | .error e => pure (.error e)
    | .ok () => pure (.ok deviceKey)

/-- The end of the handshake of a user whose account is active. -/
def openSession (F : Formats) (auth : AuthPayload) (userId : String) : Handling := do
  if F.isUuid auth.deviceKey=false then
    send (.authErr "invalid device_key: expected UUID format" false) none
  else
    match ← findOrCreateDevice userId (truncateDeviceName auth.deviceName) auth.deviceKey with
    | .error _ => pure none
    | .ok deviceId =>
      if auth.schemaVersion≠F.schemaVersion then do
        -- failures of these two are only logged
        let _ ← call (.deleteDeviceEvents deviceId)
        let _ ← call (.resetCursor deviceId auth.provider)
        send (.authErr ("schema version mismatch: client="++toString auth.schemaVersion++
          ", server="++toString F.schemaVersion) true) none
      else do
        match ← call (.ensureCursor deviceId auth.provider) with
        | .error _ => pure none
        | .ok () => send (.authOk deviceId) (some (.serving userId deviceId))

/-- The handshake with a payload that was read. -/
def authenticate (F : Formats) (auth : AuthPayload) : Handling := do
  if auth.protocolVersion≠F.protocolVersion then
    send (.authErr ("unsupported protocol version: client="++toString auth.protocolVersion++
      ", server="++toString F.protocolVersion) false) none
  else
    match ← call (.verifyAccess auth.jwt) with
    | .error e => send (.authErr ("JWT invalid: "++e) false) none
    | .ok claims => do
      match ← isUserActiveCached claims.sub with
      | .ok true => openSession F auth claims.sub
      | .ok false => send (.authErr "account deactivated" false) none
      | .error e => send (.authErr ("active check failed: "++e) false) none

/-- The first frame. -/
def handshake (F : Formats) : Arrival → Handling
  | .frame msgType payload =>
    if min authMaxPayload F.maxPayloadSize<payload.length then pure none
    else if msgType≠.auth then pure none
    else match F.authPayload payload with
      | none => pure none
      | some auth => authenticate F auth
  | _ => pure none

/-- Go on for a user who is still active. -/
def whenActive (userId : String) (next : Handling) : Handling := do
  match ← isUserActiveCached userId with
  | .ok true => next
  | .ok false => send (.syncErr "account deactivated") none
  | .error _ => pure none

/-- Store a batch, advance its cursor and prune the dedup index. -/
def handleSyncBatch (dedupRetentionSecs : Int64) (upload : Upload) :
    Program Answer (Except String Int64) := do
  if upload.batch.items=[] then
    call (.getLastTs upload.deviceId upload.batch.provider)
  else if maxBatchSize<upload.batch.items.length then
    pure (.error ("batch too large: "++toString upload.batch.items.length++" items (max "++
      toString maxBatchSize++")"))
  else do
    match ← call .acquire with
    | .error _ => pure (.error "batch semaphore closed")
    | .ok () => do
      let upserted ← call (.upsertEvents upload.serverEvents)
      -- the permit is dropped before anything else, on an error too
      let _ ← call .release
      match upserted with
      | .error e => pure (.error e)
      | .ok () => do
        match ← call (.advanceCursor upload.deviceId upload.batch.provider upload.maxTs) with
        | .error e => pure (.error e)
        | .ok () =>
          if 0<cutoffMs dedupRetentionSecs upload then do
            let _ ← call (.cleanupOldDedup upload.deviceId (cutoffMs dedupRetentionSecs upload))
            pure (.ok upload.maxTs)
          else pure (.ok upload.maxTs)

/-- Payload of a batch, decompressed if need be. -/
def rawBatch (F : Formats) (msgType : MsgType) (payload : Bytes) : Option Bytes :=
  if msgType=.syncBatchZstd then
    (F.decompress (maxDecompressedSize+1) payload).filter fun raw =>
      raw.length ≤ maxDecompressedSize
  else some payload

/-- A batch from the client. -/
def syncBatch (F : Formats) (dedupRetentionSecs : Int64) (userId deviceId : String)
    (msgType : MsgType) (payload : Bytes) : Handling :=
  whenActive userId do
    match (rawBatch F msgType payload).bind F.syncBatchPayload with
    | none => pure none
    | some batch => do
      match ← call (.ensureCursor deviceId batch.provider) with
      | .error _ => pure none
      | .ok () => do
        match ← handleSyncBatch dedupRetentionSecs ⟨deviceId,userId,batch⟩ with
        | .ok lastTs => send (.syncAck lastTs) (some (.serving userId deviceId))
        | .error reason => send (.syncErr reason) (some (.serving userId deviceId))

/-- The answer to windows as a frame. -/
def windowsReply : WindowAcks.WindowsReply → Option Reply
  | .syncAck lastTsMs => some (.syncAck lastTsMs)
  | .syncErr reason => some (.syncErr reason)
  | .closed => none

/-- Store windows that passed the checks and the limiter. -/
def storeWindows (userId deviceId : String) (win : SyncWindowsPayload) : Handling := do
  let nowMs ← call .nowMs
  let clean := sanitizeWindowBatch win.items nowMs
  match ← call .acquire with
  | .error _ => pure none
  | .ok () => do
    let items ← call (.premergeWindows clean.items)
    let upserted ← call (.upsertWindows userId win.provider items)
    -- the permit must not span the response write
    let _ ← call .release
    match windowsReply (answerWindows clean win.items.length items upserted) with
    | some reply => send reply (some (.serving userId deviceId))
    | none => pure none

/-- Windows from the client. -/
def syncWindows (F : Formats) (userId deviceId : String) (payload : Bytes) : Handling :=
  whenActive userId do
    if maxWindowsPayload<payload.length then
      send (.syncErr ("windows payload too large: "++toString payload.length++" bytes (max "++
        toString maxWindowsPayload++")")) (some (.serving userId deviceId))
    else match F.syncWindowsPayload payload with
      | none => pure none
      | some win =>
        if win.windowsSchema≠F.windowsSchemaVersion then
          send (.syncErr ("unsupported windows_schema "++toString win.windowsSchema++
            " (server supports "++toString F.windowsSchemaVersion++")"))
            (some (.serving userId deviceId))
        else if providerOk win.provider=false then
          send (.syncErr ("invalid provider name: "++F.debug win.provider))
            (some (.serving userId deviceId))
        else do
          if ← call (.allow userId win.provider deviceId) then storeWindows userId deviceId win
          else send (.syncErr "windows sync throttled") (some (.serving userId deviceId))

/-- A frame of the main loop. -/
def serve (F : Formats) (dedupRetentionSecs : Int64) (userId deviceId : String) :
    Arrival → Handling
  | .frame msgType payload =>
    if F.maxPayloadSize<payload.length then pure none
    else match msgType with
      | .getLastTs =>
        match F.getLastTsPayload payload with
        | none => pure none
        | some provider => do
          match ← call (.getLastTs deviceId provider) with
          | .error _ => pure none
          | .ok ts => send (.lastTs ts) (some (.serving userId deviceId))
      | .syncBatch => syncBatch F dedupRetentionSecs userId deviceId .syncBatch payload
      | .syncBatchZstd => syncBatch F dedupRetentionSecs userId deviceId .syncBatchZstd payload
      | .syncWindows => syncWindows F userId deviceId payload
      | .ping => send .pong (some (.serving userId deviceId))
      | _ => pure (some (.serving userId deviceId))
  | _ => pure none

/-- One frame of a connection. -/
def handleConnection (F : Formats) (dedupRetentionSecs : Int64) : Session → Arrival → Handling
  | .handshake, arrival => handshake F arrival
  | .serving userId deviceId, arrival => serve F dedupRetentionSecs userId deviceId arrival

end TokiSync.SyncConnection
