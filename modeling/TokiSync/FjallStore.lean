import TokiSync.BatchedMaps
import TokiSync.ServerEvents

/-!
# The embedded event store

Four keyspaces hold the event rows, the dedup pointers, the per-user index
and the session texts; a fifth holds the rate-limit windows. Every mutation
of the event keyspaces reads the committed state, builds one batch and
commits it. Mutations run one at a time under the store's lock, so each is a
function of the committed state. The iteration order of the in-memory winner
map is not specified, and is an argument here.
-/

namespace TokiSync.FjallStore

open MachineWords ByteKeys ByteCodec BatchedMaps ServerEvents

/-- Keyspaces of the store. -/
inductive KeyspaceName where
  /-- Event rows by time and dedup key. -/
  | events
  /-- Dedup key to the key of its current row. -/
  | idxMsg
  /-- Inline copies of the rows by user. -/
  | idxUser
  /-- Session texts by row key. -/
  | sessions
  /-- Rate-limit windows by user, provider and window identity. -/
  | windows
  deriving DecidableEq

/-- One ordered byte map. -/
abbrev Keyspace := Std.ExtTreeMap Bytes Bytes compare

/-- The committed state of the store. -/
abbrev Db := Maps KeyspaceName Bytes Bytes

/-- One write of a batch. -/
abbrev Write := BatchOp KeyspaceName Bytes Bytes

/-- A store that was just created. -/
def emptyDb : Db := emptyMaps

/-- Entries of a keyspace whose key starts with the given bytes, in key order. -/
def keyspacePrefix (keyspace : Keyspace) (start : Bytes) : List (Bytes×Bytes) :=
  keyspace.toList.filter fun kv => decide (start<+:kv.1)

/-- Entries of a keyspace from the given key on, in key order. -/
def keyspaceRange (keyspace : Keyspace) (start : Bytes) : List (Bytes×Bytes) :=
  keyspace.toList.filter fun kv => compare start kv.1≠Ordering.gt

section

variable (bincode : Codec PersistedEvent)

/-- Writes that store an event with its pointer and its index entry. The
session is written only when it is not empty. -/
def insertEvent (event : ServerEvent) : List Write :=
  [.insert .events event.eventKey (encodeEvent bincode event),
    .insert .idxUser (userIdxKey event.userId event.eventKey) (encodeEvent bincode event)]++
  (if event.session="" then [] else [.insert .sessions event.eventKey (utf8 event.session)])++
  [.insert .idxMsg event.idxKey event.eventKey]

/-- Time at the head of a row key; keys too short to carry one sort first. -/
def rowTs (key : Bytes) : Int64 :=
  if key.length≥8 then fromBeBytes (key.take 8) else Int64.minValue

/-- Owner of a committed row; the incoming event's user when it is missing. -/
def rowUser (db : Db) (key : Bytes) (event : ServerEvent) : String :=
  (((db .events)[key]?).bind (decodeEvent bincode)).elim event.userId ServerEvent.userId

/-- Writes that drop a row together with its index entry and its session. -/
def removeRow (user : String) (key : Bytes) : List Write :=
  [.remove .events key,.remove .idxUser (userIdxKey user key),.remove .sessions key]

/-- Upsert of a single event within a batch. An event older than the
committed row of its dedup key is skipped; otherwise that row is removed
under its own user before the new one is stored. -/
def upsertOne (db : Db) (event : ServerEvent) : List Write :=
  match (db .idxMsg)[event.idxKey]? with
  | some prevKey =>
    if event.tsMs<rowTs prevKey then []
    else removeRow (rowUser bincode db prevKey event) prevKey++insertEvent bincode event
  | none => insertEvent bincode event

/-- Offer one event of a batch to the winner map; the first event of greatest
time per dedup key stays. -/
def offerWinner (winner : Std.ExtTreeMap Bytes ServerEvent compare) (event : ServerEvent) :
    Std.ExtTreeMap Bytes ServerEvent compare :=
  match winner[event.idxKey]? with
  | some existing =>
    if existing.tsMs≥event.tsMs then winner else winner.insert event.idxKey event
  | none => winner.insert event.idxKey event

/-- In-memory dedup of one batch. -/
def winnerMap (events : List ServerEvent) : Std.ExtTreeMap Bytes ServerEvent compare :=
  events.foldl offerWinner ∅

/-- Values of the winner map, in the order of their dedup keys. -/
def winners (events : List ServerEvent) : List ServerEvent :=
  (winnerMap events).toList.map Prod.snd

/-- Commit the batch of the winners taken in the given order. -/
def upsertInOrder (db : Db) (order : List ServerEvent) : Db :=
  commit db (order.flatMap (upsertOne bincode db))

/-- One call of the upsert: the winners are visited in some order. -/
def UpsertEvents (db : Db) (events : List ServerEvent) (db' : Db) : Prop :=
  ∃ order, order.Perm (winners events) ∧ db'=upsertInOrder bincode db order

/-- The upsert that visits the winners in key order. -/
def upsertEvents (db : Db) (events : List ServerEvent) : Db :=
  upsertInOrder bincode db (winners events)

/-- Pointers of a device whose row is older than the cutoff. -/
def cleanupBatch (db : Db) (deviceId : String) (cutoffMs : Int64) : List Write :=
  ((keyspacePrefix (db .idxMsg) (delimited (utf8 deviceId))).filter fun kv =>
    kv.2.length≥8 ∧ fromBeBytes (kv.2.take 8)<cutoffMs).map fun kv => .remove .idxMsg kv.1

/-- Drop the dedup pointers of a device's old rows; the rows stay. -/
def cleanupOldDedup (db : Db) (deviceId : String) (cutoffMs : Int64) : Db :=
  commit db (cleanupBatch db deviceId cutoffMs)

/-- Writes that drop one scanned row when it belongs to the device. -/
def deleteRow (deviceId : String) (kv : Bytes×Bytes) : List Write :=
  match decodeEvent bincode kv.2 with
  | some event =>
    if event.deviceId≠deviceId then []
    else [.remove .idxUser (userIdxKey event.userId kv.1),.remove .idxMsg event.idxKey,
      .remove .sessions kv.1,.remove .events kv.1]
  | none => []

/-- Everything stored for a device: its rows found by a full scan, then the
pointers that are left under its prefix. -/
def deleteBatch (db : Db) (deviceId : String) : List Write :=
  (db .events).toList.flatMap (deleteRow bincode deviceId)++
    (keyspacePrefix (db .idxMsg) (delimited (utf8 deviceId))).map fun kv => .remove .idxMsg kv.1

/-- Delete all events of a device. -/
def deleteDeviceEvents (db : Db) (deviceId : String) : Db :=
  commit db (deleteBatch bincode db deviceId)

/-- Scope of a query. -/
inductive UserFilter where
  /-- One user. -/
  | single (userId : String)
  /-- Several users. -/
  | multiple (userIds : List String)
  /-- Every user. -/
  | all

/-- Session text of a row, empty when there is none or it is not UTF-8. -/
def loadSession (db : Db) (key : Bytes) : String :=
  (((db .sessions)[key]?).bind fun bytes => String.fromUTF8? ⟨bytes.toArray⟩).getD ""

/-- Whether a filter of the full scan admits a row's user. -/
def UserFilter.admits : UserFilter → String → Bool
  | .single uid,userId => userId=uid
  | .multiple uids,userId => uids.contains userId
  | .all,_ => true

/-- The loop of the full scan: skip what cannot be read or is not wanted,
stop at the end of the range or once the limit is reached. -/
def scanEventsLoop (db : Db) (untilMs : Int64) (filter : UserFilter) (limit : ℕ) :
    List (Bytes×Bytes) → List ServerEvent → List ServerEvent
  | [],results => results
  | (key,value)::rest,results =>
    if key.length<8 then scanEventsLoop db untilMs filter limit rest results
    else if fromBeBytes (key.take 8)≥untilMs then results
    else match decodeEvent bincode value with
      | none => scanEventsLoop db untilMs filter limit rest results
      | some event =>
        if filter.admits event.userId then
          let results := results++[{event with session := loadSession db key}]
          if results.length≥limit then results
          else scanEventsLoop db untilMs filter limit rest results
        else scanEventsLoop db untilMs filter limit rest results

/-- Events of a half-open time range, from the event rows. -/
def scanEvents (db : Db) (sinceMs untilMs : Int64) (filter : UserFilter) (limit : ℕ) :
    List ServerEvent :=
  scanEventsLoop bincode db untilMs filter limit
    (keyspaceRange (db .events) (toBeBytes sinceMs)) []

/-- The loop of the per-user scan; times stand behind the user prefix. -/
def scanUserEventsLoop (db : Db) (tsOff : ℕ) (sinceMs untilMs : Int64) (limit : ℕ) :
    List (Bytes×Bytes) → List ServerEvent → List ServerEvent
  | [],results => results
  | (key,value)::rest,results =>
    if key.length<tsOff+8 then scanUserEventsLoop db tsOff sinceMs untilMs limit rest results
    else
      let ts := fromBeBytes ((key.drop tsOff).take 8)
      if ts≥untilMs then results
      else if ts<sinceMs then scanUserEventsLoop db tsOff sinceMs untilMs limit rest results
      else match decodeEvent bincode value with
        | some event =>
          let results := results++[{event with session := loadSession db (key.drop tsOff)}]
          if results.length≥limit then results
          else scanUserEventsLoop db tsOff sinceMs untilMs limit rest results
        | none => scanUserEventsLoop db tsOff sinceMs untilMs limit rest results

/-- Events of one user in a half-open time range, from the per-user index. -/
def scanUserEvents (db : Db) (userId : String) (sinceMs untilMs : Int64) (limit : ℕ) :
    List ServerEvent :=
  let start := delimited (utf8 userId)
  scanUserEventsLoop bincode db start.length sinceMs untilMs limit
    (keyspacePrefix (db .idxUser) start) []

/-- The loop over the users of a team scope; each gets the remaining headroom. -/
def queryUsersLoop (db : Db) (sinceMs untilMs : Int64) (limit : ℕ) :
    List String → List ServerEvent → List ServerEvent
  | [],out => out
  | uid::rest,out =>
    if out.length≥limit then out
    else queryUsersLoop db sinceMs untilMs limit rest
      (out++scanUserEvents bincode db uid sinceMs untilMs (limit-out.length))

/-- Events of a half-open time range under a user filter, at most `limit`. -/
def queryEvents (db : Db) (sinceMs untilMs : Int64) (filter : UserFilter) (limit : ℕ) :
    List ServerEvent :=
  match filter with
  | .single uid => scanUserEvents bincode db uid sinceMs untilMs limit
  | .multiple uids => queryUsersLoop bincode db sinceMs untilMs limit uids []
  | .all => scanEvents bincode db sinceMs untilMs .all limit

end

end TokiSync.FjallStore
