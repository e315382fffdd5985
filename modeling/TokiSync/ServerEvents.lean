import TokiSync.MachineWords
import TokiSync.ByteKeys
import TokiSync.ByteCodec

/-!
# Stored events, their persisted form and their keys

An event keeps its session text beside the persisted record, which carries
every other field. Row keys start with the eight big-endian timestamp bytes,
followed by the dedup key of device, provider and message id; the per-user
index prefixes a row key with the delimited user id.
-/

namespace TokiSync.ServerEvents

open MachineWords ByteKeys ByteCodec

/-- A fully resolved event as the server stores it. -/
structure ServerEvent where
  /-- Device that uploaded the event. -/
  deviceId : String
  /-- Owner of the device at upload time. -/
  userId : String
  /-- Bare message id, the dedup component within device and provider. -/
  msgId : String
  /-- Event time in milliseconds, any 64-bit value a client sends. -/
  tsMs : Int64
  /-- Provider named by the batch. -/
  provider : String
  /-- Resolved model name. -/
  model : String
  /-- Resolved project name, empty when absent. -/
  project : String
  /-- Resolved session identifier, empty when absent. -/
  session : String
  /-- Prompt tokens. -/
  inputTokens : UInt64
  /-- Completion tokens. -/
  outputTokens : UInt64
  /-- Cache writes, or reasoning tokens of the providers that report them. -/
  cacheCreationInputTokens : UInt64
  /-- Cache reads. -/
  cacheReadInputTokens : UInt64
  /-- Usage total precomputed by the client. -/
  usageTotal : UInt64
  deriving DecidableEq

/-- The value layout of the event keyspaces: every field but the session. -/
structure PersistedEvent where
  /-- Device that uploaded the event. -/
  deviceId : String
  /-- Owner of the device at upload time. -/
  userId : String
  /-- Bare message id. -/
  msgId : String
  /-- Event time in milliseconds. -/
  tsMs : Int64
  /-- Provider named by the batch. -/
  provider : String
  /-- Resolved model name. -/
  model : String
  /-- Resolved project name. -/
  project : String
  /-- Prompt tokens. -/
  inputTokens : UInt64
  /-- Completion tokens. -/
  outputTokens : UInt64
  /-- Cache writes. -/
  cacheCreationInputTokens : UInt64
  /-- Cache reads. -/
  cacheReadInputTokens : UInt64
  /-- Usage total precomputed by the client. -/
  usageTotal : UInt64
  deriving DecidableEq

/-- The persisted record of an event drops its session. -/
def persistedEventRef (event : ServerEvent) : PersistedEvent where
  deviceId := event.deviceId
  userId := event.userId
  msgId := event.msgId
  tsMs := event.tsMs
  provider := event.provider
  model := event.model
  project := event.project
  inputTokens := event.inputTokens
  outputTokens := event.outputTokens
  cacheCreationInputTokens := event.cacheCreationInputTokens
  cacheReadInputTokens := event.cacheReadInputTokens
  usageTotal := event.usageTotal

/-- The event of a persisted record, with an empty session. -/
def ofPersisted (event : PersistedEvent) : ServerEvent where
  deviceId := event.deviceId
  userId := event.userId
  msgId := event.msgId
  tsMs := event.tsMs
  provider := event.provider
  model := event.model
  project := event.project
  session := ""
  inputTokens := event.inputTokens
  outputTokens := event.outputTokens
  cacheCreationInputTokens := event.cacheCreationInputTokens
  cacheReadInputTokens := event.cacheReadInputTokens
  usageTotal := event.usageTotal

/-- Serialized value of an event. -/
def encodeEvent (bincode : Codec PersistedEvent) (event : ServerEvent) : Bytes :=
  bincode.serialize (persistedEventRef event)

/-- Event of a stored value; its session is attached by the reader. -/
def decodeEvent (bincode : Codec PersistedEvent) (bytes : Bytes) : Option ServerEvent :=
  (bincode.deserialize bytes).map ofPersisted

/-- Decoding a stored event only forgets its session. -/
@[simp] theorem decodeEvent_encodeEvent (bincode : Codec PersistedEvent) (event : ServerEvent) :
    decodeEvent bincode (encodeEvent bincode event)=some {event with session := ""} := by
  simp only [decodeEvent,encodeEvent,Codec.deserialize_serialize,Option.map_some]
  rfl

/-- Dedup key of a device, provider and message id. -/
def idxKey (deviceId provider msgId : String) : Bytes :=
  delimited (utf8 deviceId)++(delimited (utf8 provider)++utf8 msgId)

/-- Row key: big-endian time, then device, provider and message id. -/
def eventKey (tsMs : Int64) (deviceId provider msgId : String) : Bytes :=
  toBeBytes tsMs++(delimited (utf8 deviceId)++(delimited (utf8 provider)++utf8 msgId))

/-- Key of the per-user index: delimited user id, then a row key. -/
def userIdxKey (userId : String) (eventKey : Bytes) : Bytes :=
  delimited (utf8 userId)++eventKey

/-- Row key of a time and a dedup key. -/
def rowKey (tsMs : Int64) (dedup : Bytes) : Bytes := toBeBytes tsMs++dedup

/-- Dedup key of an event. -/
def ServerEvent.idxKey (event : ServerEvent) : Bytes :=
  ServerEvents.idxKey event.deviceId event.provider event.msgId

/-- Row key of an event. -/
def ServerEvent.eventKey (event : ServerEvent) : Bytes :=
  ServerEvents.eventKey event.tsMs event.deviceId event.provider event.msgId

/-- A row key is a time in front of a dedup key. -/
theorem eventKey_eq_rowKey (event : ServerEvent) :
    event.eventKey=rowKey event.tsMs event.idxKey := rfl

/-- Row keys determine both their time and their dedup key. -/
@[simp] theorem rowKey_inj {t u : Int64} {a b : Bytes} :
    rowKey t a=rowKey u b ↔ t=u ∧ a=b :=
  toBeBytes_append_inj

/-- Every row key carries all eight time bytes. -/
theorem rowKey_length (t : Int64) (a : Bytes) : (rowKey t a).length=8+a.length := by
  rw [rowKey,List.length_append,toBeBytes_length]

/-- The time read back from the head of a row key. -/
@[simp] theorem fromBeBytes_rowKey (t : Int64) (a : Bytes) :
    fromBeBytes ((rowKey t a).take 8)=t := by
  rw [rowKey,take_toBeBytes,fromBeBytes_toBeBytes]

/-- Index keys of delimiter-free users determine user and row. -/
theorem userIdxKey_inj {u v : String} {a b : Bytes} (hu : NulFree (utf8 u))
    (hv : NulFree (utf8 v)) : userIdxKey u a=userIdxKey v b ↔ u=v ∧ a=b := by
  rw [userIdxKey,userIdxKey,delimited_append_inj hu hv,utf8_inj]

/-- Dedup keys of delimiter-free devices determine the device. -/
theorem idxKey_device {a b : ServerEvent} (ha : NulFree (utf8 a.deviceId))
    (hb : NulFree (utf8 b.deviceId)) (h : a.idxKey=b.idxKey) : a.deviceId=b.deviceId :=
  utf8_injective ((delimited_append_inj ha hb).mp h).1

/-- Only the dedup keys of a delimiter-free device start with it. -/
theorem delimited_prefix_of_device {device : String} {event : ServerEvent}
    (hd : NulFree (utf8 device)) (he : NulFree (utf8 event.deviceId)) :
    delimited (utf8 device)<+:event.idxKey ↔ device=event.deviceId := by
  rw [ServerEvent.idxKey,idxKey,delimited_prefix_iff hd he,utf8_inj]

/-- Ids the server hands to the store: neither contains the key delimiter.
Device ids are checked to be UUIDs and user ids are generated as such. -/
def ServerEvent.Delimitable (event : ServerEvent) : Prop :=
  NulFree (utf8 event.deviceId) ∧ NulFree (utf8 event.userId)

instance : DecidablePred ServerEvent.Delimitable := fun event =>
  inferInstanceAs (Decidable (NulFree (utf8 event.deviceId) ∧ NulFree (utf8 event.userId)))

/-- The fixed-width little-endian record layout of persisted events. -/
def eventLayout : Layout PersistedEvent :=
  (textLayout.pair (textLayout.pair (textLayout.pair (i64Layout.pair (textLayout.pair
    (textLayout.pair (textLayout.pair (u64Layout.pair (u64Layout.pair (u64Layout.pair
      (u64Layout.pair u64Layout))))))))))).equiv
    { toFun := fun e => (e.deviceId,e.userId,e.msgId,e.tsMs,e.provider,e.model,e.project,
        e.inputTokens,e.outputTokens,e.cacheCreationInputTokens,e.cacheReadInputTokens,
        e.usageTotal)
      invFun := fun t => ⟨t.1,t.2.1,t.2.2.1,t.2.2.2.1,t.2.2.2.2.1,t.2.2.2.2.2.1,t.2.2.2.2.2.2.1,
        t.2.2.2.2.2.2.2.1,t.2.2.2.2.2.2.2.2.1,t.2.2.2.2.2.2.2.2.2.1,t.2.2.2.2.2.2.2.2.2.2.1,
        t.2.2.2.2.2.2.2.2.2.2.2⟩
      left_inv := fun _ => rfl
      right_inv := fun _ => rfl }

end TokiSync.ServerEvents
