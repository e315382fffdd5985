import TokiSync.ServerEvents

/-!
# Uploaded batches and their events

A batch carries its provider, a dictionary of interned texts, the names of its
token columns and the items. Every item becomes one stored event: dictionary
ids are resolved, the message id loses everything from its first colon on,
and the token values are assigned to the fields their columns name.
-/

namespace TokiSync.SyncBatches

open ServerEvents

/-- Items one batch may carry. -/
def maxBatchSize : ℕ := 50000

/-- The usage record inside an item, with interned names. -/
structure StoredEvent where
  /-- Dictionary id of the model. -/
  modelId : UInt32
  /-- Dictionary id of the session, zero when absent. -/
  sessionId : UInt32
  /-- Dictionary id of the project, zero when absent. -/
  projectNameId : UInt32
  /-- Token values, in the order of the batch's columns. -/
  tokens : List UInt64

/-- One uploaded item. -/
structure SyncItem where
  /-- Event time in milliseconds. -/
  tsMs : Int64
  /-- Message id, possibly followed by a colon and a time. -/
  messageId : String
  /-- The usage record. -/
  event : StoredEvent
  /-- Usage total computed by the client. -/
  usageTotal : UInt64

/-- One uploaded batch. -/
structure SyncBatchPayload where
  /-- Provider of all items. -/
  provider : String
  /-- Names of the token columns. -/
  tokenColumns : List String
  /-- Interned texts by id. -/
  dict : UInt32 → Option String
  /-- The items. -/
  items : List SyncItem

/-- Message id without its suffix: everything before the first colon. -/
def bareMsgId (messageId : String) : String :=
  String.ofList (messageId.toList.takeWhile fun c => c ≠ ':')

/-- Assign one token value to the field its column names; unknown columns are
ignored. -/
def setTokenColumn (event : ServerEvent) (column : String×UInt64) : ServerEvent :=
  if column.1="input" then {event with inputTokens := column.2}
  else if column.1="output" then {event with outputTokens := column.2}
  else if column.1="cache_create" then {event with cacheCreationInputTokens := column.2}
  else if column.1="cache_read" then {event with cacheReadInputTokens := column.2}
  else if column.1="cached_input" then {event with cacheReadInputTokens := column.2}
  else if column.1="reasoning_output" then {event with cacheCreationInputTokens := column.2}
  else event

/-- Event of an item before its token columns are read. Texts missing from the
dictionary are empty. -/
def resolvedEvent (deviceId userId : String) (batch : SyncBatchPayload) (item : SyncItem) :
    ServerEvent where
  deviceId := deviceId
  userId := userId
  msgId := bareMsgId item.messageId
  tsMs := item.tsMs
  provider := batch.provider
  model := (batch.dict item.event.modelId).getD ""
  project := ((batch.dict item.event.projectNameId).filter fun s => s≠"").getD ""
  session := ((batch.dict item.event.sessionId).filter fun s => s≠"").getD ""
  inputTokens := 0
  outputTokens := 0
  cacheCreationInputTokens := 0
  cacheReadInputTokens := 0
  usageTotal := 0

/-- Stored event of an item. Token values without a column, and columns
without a value, are ignored. -/
def serverEvent (deviceId userId : String) (batch : SyncBatchPayload) (item : SyncItem) :
    ServerEvent :=
  {(batch.tokenColumns.zip item.event.tokens).foldl setTokenColumn
      (resolvedEvent deviceId userId batch item) with
    usageTotal := item.usageTotal}

/-- A batch of a device and its user. -/
structure Upload where
  /-- Device of the connection. -/
  deviceId : String
  /-- User of the connection. -/
  userId : String
  /-- The batch. -/
  batch : SyncBatchPayload

/-- Stored events of an upload, in the order of its items. -/
def Upload.serverEvents (upload : Upload) : List ServerEvent :=
  upload.batch.items.map (serverEvent upload.deviceId upload.userId upload.batch)

/-- Greatest time of an upload, zero when it is empty. -/
def Upload.maxTs (upload : Upload) : Int64 :=
  ((upload.batch.items.map SyncItem.tsMs).max?).getD 0

/-- A token column touches only token fields. -/
theorem setTokenColumn_ids (event : ServerEvent) (column : String×UInt64) :
    (setTokenColumn event column).deviceId=event.deviceId ∧
    (setTokenColumn event column).userId=event.userId ∧
    (setTokenColumn event column).msgId=event.msgId ∧
    (setTokenColumn event column).tsMs=event.tsMs ∧
    (setTokenColumn event column).provider=event.provider ∧
    (setTokenColumn event column).session=event.session := by
  unfold setTokenColumn
  split_ifs <;> exact ⟨rfl,rfl,rfl,rfl,rfl,rfl⟩

/-- Token columns touch only token fields. -/
theorem foldl_setTokenColumn_ids (columns : List (String×UInt64)) (event : ServerEvent) :
    (columns.foldl setTokenColumn event).deviceId=event.deviceId ∧
    (columns.foldl setTokenColumn event).userId=event.userId ∧
    (columns.foldl setTokenColumn event).msgId=event.msgId ∧
    (columns.foldl setTokenColumn event).tsMs=event.tsMs ∧
    (columns.foldl setTokenColumn event).provider=event.provider ∧
    (columns.foldl setTokenColumn event).session=event.session := by
  induction columns generalizing event with
  | nil => exact ⟨rfl,rfl,rfl,rfl,rfl,rfl⟩
  | cons column columns ih =>
    obtain ⟨hd,hu,hm,ht,hp,hs⟩ := setTokenColumn_ids event column
    have h := ih (setTokenColumn event column)
    rw [hd,hu,hm,ht,hp,hs] at h
    exact h

/-- The ids, the time and the provider of an item's event. -/
theorem serverEvent_ids (deviceId userId : String) (batch : SyncBatchPayload) (item : SyncItem) :
    (serverEvent deviceId userId batch item).deviceId=deviceId ∧
    (serverEvent deviceId userId batch item).userId=userId ∧
    (serverEvent deviceId userId batch item).tsMs=item.tsMs ∧
    (serverEvent deviceId userId batch item).provider=batch.provider := by
  obtain ⟨hd,hu,-,ht,hp,-⟩ := foldl_setTokenColumn_ids
    (batch.tokenColumns.zip item.event.tokens)
    (resolvedEvent deviceId userId batch item)
  exact ⟨hd,hu,ht,hp⟩

/-- Events of an upload carry the ids and the provider of the upload. -/
theorem Upload.ids_of_mem {upload : Upload} {e : ServerEvent} (h : e∈upload.serverEvents) :
    e.deviceId=upload.deviceId ∧ e.userId=upload.userId ∧ e.provider=upload.batch.provider := by
  obtain ⟨item,-,rfl⟩ := List.mem_map.mp h
  obtain ⟨hd,hu,-,hp⟩ := serverEvent_ids upload.deviceId upload.userId upload.batch item
  exact ⟨hd,hu,hp⟩

end TokiSync.SyncBatches
