import TokiSync.ClickHouseRows
import TokiSync.CrashPrograms
import TokiSync.FjallRuns
import TokiSync.LossyText

/-!
# The backfill of the per-user index

A store made before the per-user index existed is filled in when it is opened.
The event rows are scanned in key order, the index entries are committed in
chunks, and a marker is committed last. Whatever is killed or fails on the way,
every entry written is the one its row should have, so an open may start over,
and the marker is there only when the index is complete.
-/

namespace TokiSync.IndexBackfill

open MachineWords ByteKeys ByteCodec BatchedMaps ServerEvents FjallStore CrashPrograms Runs

/-- Keyspaces that an open reads and writes. -/
inductive Name where
  /-- The schema version and the marker. -/
  | metadata
  /-- A keyspace of the data. -/
  | data (keyspace : KeyspaceName)
  deriving DecidableEq

/-- The committed state. -/
abbrev Store := Maps Name Bytes Bytes

/-- The key of the schema version. -/
def schemaVersionKey : Bytes := utf8 "schema_version"

/-- The key of the marker. -/
def markerKey : Bytes := utf8 "idx_user_backfilled"

/-- The schema version of this program. -/
def eventSchemaVersion : ℕ := 2

/-- Entries of one chunk. -/
def backfillChunk : ℕ := 4096

/-- What an open does with the database, one thing at a time. -/
inductive Statement where
  /-- Open the database and its keyspaces. -/
  | openDb
  /-- Read a key of the metadata. -/
  | getMeta (key : Bytes)
  /-- Remove the directory of the database, and open it anew. -/
  | removeDirAll
  /-- Start a scan of the event rows. -/
  | rangeEvents
  /-- Take the next row of the scan. -/
  | nextRow (key : Bytes)
  /-- Commit a batch. -/
  | commit (batch : List (BatchOp Name Bytes Bytes))

/-- What the database returns. -/
inductive Reply where
  /-- Nothing but success. -/
  | done
  /-- The value under a key, if any. -/
  | value (bytes : Option Bytes)
  /-- Rows in key order. -/
  | rows (kvs : List (Bytes×Bytes))

/-- The state after a statement, and what is returned. -/
def effect : Statement → Store → Store×Reply
  | .openDb, s => (s,.done)
  | .getMeta key, s => (s,.value (s .metadata)[key]?)
  | .removeDirAll, _ => (emptyMaps,.done)
  | .rangeEvents, s => (s,.rows (s (.data .events)).toList)
  | .nextRow _, s => (s,.done)
  | .commit batch, s => (BatchedMaps.commit s batch,.done)

/-- What can come of a statement. -/
inductive Outcome : Store → Statement → Store → Option Reply → Prop where
  /-- The statement takes effect. -/
  | answered {s : Store} {stmt : Statement} :
      Outcome s stmt (effect stmt s).1 (some (effect stmt s).2)
  /-- The statement takes effect and an error is returned. -/
  | lostReply {s : Store} {stmt : Statement} : Outcome s stmt (effect stmt s).1 none
  /-- The statement fails without effect. -/
  | failed {s : Store} {stmt : Statement} : Outcome s stmt s none

/-- Statements still to send. -/
abbrev Opening := Program Statement Reply

/-- The version that is stored, zero when it cannot be read. -/
def storedVersion : Option Reply → ℕ
  | some (.value (some bytes)) =>
    (ClickHouseRows.parseUnsigned UInt32.size (LossyText.fromUtf8Lossy bytes).toList).getD 0
  | _ => 0

/-- Whether a key was found. -/
def isFound : Option Reply → Bool
  | some (.value (some _)) => true
  | _ => false

/-- Commit the marker. -/
def commitMarker : Opening :=
  .require (.commit [.insert .metadata markerKey (utf8 "1")]) fun _ => .done true

section

variable (bincode : Codec PersistedEvent)

/-- The loop over the rows of the scan, with the batch so far. -/
def backfillLoop : List (Bytes×Bytes) → List (BatchOp Name Bytes Bytes) → Opening
  | [],batch =>
    if batch.length>0 then .require (.commit batch) fun _ => commitMarker else commitMarker
  | kv::rows,batch =>
    .require (.nextRow kv.1) fun _ =>
      match decodeEvent bincode kv.2 with
      | none => .done false
      | some event =>
        let batch := batch++[.insert (.data .idxUser) (userIdxKey event.userId kv.1) kv.2]
        if batch.length≥backfillChunk then
          .require (.commit batch) fun _ => backfillLoop rows []
        else backfillLoop rows batch

/-- The backfill, unless the marker is found. -/
def backfill : Opening :=
  .exec (.getMeta markerKey) fun reply =>
    if isFound reply then .done true
    else
      .require .rangeEvents fun reply =>
        match reply with
        | .rows kvs => backfillLoop bincode kvs []
        | _ => .done false

/-- Open a store. A store of another schema version is removed and opened
again, as deep as the stack allows. -/
def openStore : ℕ → Opening
  | 0 => .done false
  | depth+1 =>
    .require .openDb fun _ =>
      .exec (.getMeta schemaVersionKey) fun reply =>
        if storedVersion reply≠0 ∧ storedVersion reply≠eventSchemaVersion then
          .ignore .removeDirAll (openStore depth)
        else
          .require (.commit [.insert .metadata schemaVersionKey (utf8 "2")]) fun _ =>
            backfill bincode

/-- The index should have a value under a key: that of a row, under the user
of its event and its own key. -/
def IsImage (s : Store) (x value : Bytes) : Prop :=
  ∃ key event, (s (.data .events))[key]?=some value ∧ decodeEvent bincode value=some event ∧
    x=userIdxKey event.userId key

/-- The index has what it should have, and nothing else. -/
def Full (s : Store) : Prop :=
  ∀ x value : Bytes, (s (.data .idxUser))[x]?=some value ↔ IsImage bincode s x value

/-- The marker is there. -/
def Marked (s : Store) : Prop := (s .metadata)[markerKey]?≠none

/-- Every row decodes, to an event of a user whose id has no NUL. -/
def Decodes (s : Store) : Prop :=
  ∀ key value : Bytes, (s (.data .events))[key]?=some value →
    ∃ event, decodeEvent bincode value=some event ∧ NulFree (utf8 event.userId)

/-- What holds while a store is opened again and again. -/
structure Backfilling (init s : Store) : Prop where
  /-- Only the index is written. -/
  data : ∀ (name : KeyspaceName) (key : Bytes), name≠.idxUser →
    (s (.data name))[key]?=(init (.data name))[key]?
  /-- The schema version is the current one. -/
  version : storedVersion (some (.value (s .metadata)[schemaVersionKey]?))=eventSchemaVersion
  /-- Every entry of the index belongs there. -/
  entry : ∀ x value : Bytes, (s (.data .idxUser))[x]?=some value → IsImage bincode init x value
  /-- With the marker no entry is missing. -/
  marked : Marked s → ∀ x value : Bytes, IsImage bincode init x value →
    (s (.data .idxUser))[x]?=some value

/-- The batch of a scan: its writes belong into the index, and what is not
there after them comes from the rows that are left. -/
structure Scanning (init s : Store) (rows : List (Bytes×Bytes))
    (batch : List (BatchOp Name Bytes Bytes)) : Prop where
  /-- Every write belongs into the index. -/
  image : ∀ op∈batch, ∃ x value, op=.insert (.data .idxUser) x value ∧
    IsImage bincode init x value
  /-- The rows left are rows of the store. -/
  left : ∀ kv∈rows, (init (.data .events))[kv.1]?=some kv.2
  /-- The other rows have their entries. -/
  covered : ∀ (key value : Bytes) (event : ServerEvent), (init (.data .events))[key]?=some value →
    decodeEvent bincode value=some event → (key,value)∉rows →
      (BatchedMaps.commit s batch (.data .idxUser))[userIdxKey event.userId key]?=some value

/-- What an open leaves when it succeeds. -/
def Completed (init s : Store) : Prop :=
  Marked s ∧ ∀ x value : Bytes, IsImage bincode init x value →
    (s (.data .idxUser))[x]?=some value

/-- From a store, the rest of an open keeps what holds while it is opened, and
completes the index when it succeeds. -/
abbrev Keeps (init : Store) (prog : Opening) (s : Store) : Prop :=
  Safe Outcome (fun _ _ => True) (Backfilling bincode init) (Completed bincode init) prog s

end

section

variable {bincode : Codec PersistedEvent} {init s : Store}
variable {rows : List (Bytes×Bytes)} {batch : List (BatchOp Name Bytes Bytes)}

/-- The value that belongs under a key is determined. -/
theorem IsImage.unique (hdecodes : Decodes bincode init) {x value value' : Bytes}
    (h : IsImage bincode init x value) (h' : IsImage bincode init x value') : value=value' := by
  obtain ⟨key,event,hrow,hevent,hx⟩ := h
  obtain ⟨key',event',hrow',hevent',hx'⟩ := h'
  obtain ⟨event₀,hevent₀,hnul⟩ := hdecodes key value hrow
  obtain ⟨event₀',hevent₀',hnul'⟩ := hdecodes key' value' hrow'
  cases hevent.symm.trans hevent₀
  cases hevent'.symm.trans hevent₀'
  obtain ⟨-,rfl⟩ := (userIdxKey_inj hnul hnul').mp (hx.symm.trans hx')
  exact Option.some.inj (hrow.symm.trans hrow')

/-- A write that belongs into the index keeps an entry that belongs there. -/
theorem keeps_applyOp (hdecodes : Decodes bincode init) {op : BatchOp Name Bytes Bytes}
    (hop : ∃ x value, op=.insert (.data .idxUser) x value ∧ IsImage bincode init x value)
    {x value : Bytes} (himage : IsImage bincode init x value)
    (h : (s (.data .idxUser))[x]?=some value) :
    (applyOp s op (.data .idxUser))[x]?=some value := by
  obtain ⟨x',value',rfl,himage'⟩ := hop
  rw [get_applyOp]
  split_ifs with hcell
  · cases hcell
    exact congrArg some (himage'.unique hdecodes himage)
  · exact h

/-- Writes that belong into the index keep an entry that belongs there. -/
theorem keeps_commit (hdecodes : Decodes bincode init)
    (hbatch : ∀ op∈batch, ∃ x value, op=.insert (.data .idxUser) x value ∧
      IsImage bincode init x value)
    {x value : Bytes} (himage : IsImage bincode init x value)
    (h : (s (.data .idxUser))[x]?=some value) :
    (BatchedMaps.commit s batch (.data .idxUser))[x]?=some value := by
  induction batch generalizing s with
  | nil => exact h
  | cons op batch ih =>
    rw [commit_cons]
    exact ih (fun o ho => hbatch o (List.mem_cons_of_mem _ ho))
      (keeps_applyOp hdecodes (hbatch op List.mem_cons_self) himage h)

/-- Writes that belong into the index leave every other keyspace. -/
theorem get_commit_of_image
    (hbatch : ∀ op∈batch, ∃ x value, op=.insert (.data .idxUser) x value ∧
      IsImage bincode init x value)
    {name : Name} (hname : name≠.data .idxUser) (key : Bytes) :
    (BatchedMaps.commit s batch name)[key]?=(s name)[key]? := by
  refine get_commit_of_untouched (fun op hop hcell => hname ?_) s
  obtain ⟨x,value,rfl,-⟩ := hbatch op hop
  exact (Prod.mk.inj hcell).1.symm

/-- A store without the index and the marker. -/
theorem backfilling_start
    (hversion : storedVersion (some (.value (init .metadata)[schemaVersionKey]?))=
      eventSchemaVersion)
    (hempty : init (.data .idxUser)=∅) (hmarker : ¬Marked init) :
    Backfilling bincode init init where
  data _ _ _ := rfl
  version := hversion
  entry x value hentry := by
    rw [hempty,Std.ExtTreeMap.getElem?_empty] at hentry
    cases hentry
  marked hmarked := absurd hmarked hmarker

/-- A chunk keeps what holds while a store is opened. -/
theorem Backfilling.commit (h : Backfilling bincode init s) (hdecodes : Decodes bincode init)
    (hbatch : ∀ op∈batch, ∃ x value, op=.insert (.data .idxUser) x value ∧
      IsImage bincode init x value) : Backfilling bincode init (BatchedMaps.commit s batch) where
  data name key hname := by
    rw [get_commit_of_image hbatch (fun heq => hname (Name.data.inj heq))]
    exact h.data name key hname
  version := by
    rw [get_commit_of_image hbatch Name.noConfusion]
    exact h.version
  entry x value hentry := by
    obtain hbefore | ⟨op,hop,hcell,hcontent⟩ := get_commit_cases hentry
    · exact h.entry x value hbefore
    · obtain ⟨x',value',rfl,himage⟩ := hbatch op hop
      cases hcell
      cases hcontent
      exact himage
  marked hmarked x value himage := by
    refine keeps_commit hdecodes hbatch himage (h.marked ?_ x value himage)
    rwa [Marked,get_commit_of_image hbatch Name.noConfusion] at hmarked

theorem get_insertMeta (key value : Bytes) (name : Name) (k : Bytes) :
    (BatchedMaps.commit s [.insert .metadata key value] name)[k]?=
      if (name,k)=(.metadata,key) then some value else (s name)[k]? := by
  rw [commit_cons,commit_nil,get_applyOp]
  rfl

/-- A value in the metadata keeps what holds while a store is opened, if it is
a current version or the marker of a complete index. -/
theorem Backfilling.insertMeta (h : Backfilling bincode init s) {key value : Bytes}
    (hversion : key=schemaVersionKey →
      storedVersion (some (.value (some value)))=eventSchemaVersion)
    (hmarker : key=markerKey → ∀ x value, IsImage bincode init x value →
      (s (.data .idxUser))[x]?=some value) :
    Backfilling bincode init (BatchedMaps.commit s [.insert .metadata key value]) where
  data name k hname := by
    rw [get_insertMeta,if_neg (fun hcell => by cases hcell)]
    exact h.data name k hname
  version := by
    rw [get_insertMeta]
    split_ifs with hcell
    · exact hversion (Prod.mk.inj hcell).2.symm
    · exact h.version
  entry x value hentry := by
    rw [get_insertMeta,if_neg (fun hcell => by cases hcell)] at hentry
    exact h.entry x value hentry
  marked hmarked x value himage := by
    rw [get_insertMeta,if_neg (fun hcell => by cases hcell)]
    by_cases hkey : key=markerKey
    · exact hmarker hkey x value himage
    · refine h.marked ?_ x value himage
      rwa [Marked,get_insertMeta,if_neg fun hcell => hkey (Prod.mk.inj hcell).2.symm] at hmarked

/-- The index is complete when the scan has taken every row. -/
theorem Scanning.full (hscan : Scanning bincode init s [] batch)
    {x value : Bytes} (himage : IsImage bincode init x value) :
    (BatchedMaps.commit s batch (.data .idxUser))[x]?=some value := by
  obtain ⟨key,event,hrow,hevent,rfl⟩ := himage
  exact hscan.covered key value event hrow hevent List.not_mem_nil

/-- The rows of the scan are the rows of the store. -/
theorem mem_events_iff (h : Backfilling bincode init s) {key value : Bytes} :
    (key,value)∈(s (.data .events)).toList ↔ (init (.data .events))[key]?=some value := by
  rw [Std.ExtTreeMap.mem_toList_iff_getElem?_eq_some,h.data .events key (by decide)]

/-- A scan starts with an empty batch. -/
theorem scanning_start (h : Backfilling bincode init s) :
    Scanning bincode init s (s (.data .events)).toList [] where
  image op hop := by cases hop
  left kv hkv := (mem_events_iff h).mp hkv
  covered key value event hrow hevent hnot := absurd ((mem_events_iff h).mpr hrow) hnot

/-- The next row enters the batch. -/
theorem Scanning.enter (hdecodes : Decodes bincode init) {kv : Bytes×Bytes} {event : ServerEvent}
    (hscan : Scanning bincode init s (kv::rows) batch)
    (hevent : decodeEvent bincode kv.2=some event) :
    Scanning bincode init s rows
      (batch++[.insert (.data .idxUser) (userIdxKey event.userId kv.1) kv.2]) := by
  have himage : IsImage bincode init (userIdxKey event.userId kv.1) kv.2 :=
    ⟨kv.1,event,hscan.left kv List.mem_cons_self,hevent,rfl⟩
  refine ⟨fun op hop => ?_,fun kv' hkv' => hscan.left kv' (List.mem_cons_of_mem _ hkv'),?_⟩
  · obtain hbatch | hnew := List.mem_append.mp hop
    · exact hscan.image op hbatch
    · rw [List.mem_singleton.mp hnew]
      exact ⟨_,_,rfl,himage⟩
  · intro key value event' hrow hevent' hnot
    rw [commit_append,commit_cons,commit_nil]
    by_cases hkv : (key,value)=kv
    · subst hkv
      cases hevent.symm.trans hevent'
      rw [get_applyOp]
      exact if_pos rfl
    · refine keeps_applyOp hdecodes ⟨_,_,rfl,himage⟩ ⟨key,event',hrow,hevent',rfl⟩ ?_
      exact hscan.covered key value event' hrow hevent'
        fun hmem => (List.mem_cons.mp hmem).elim hkv hnot

/-- After a chunk the scan goes on with an empty batch. -/
theorem Scanning.commit (hscan : Scanning bincode init s rows batch) :
    Scanning bincode init (BatchedMaps.commit s batch) rows [] :=
  ⟨fun _ hop => (List.not_mem_nil hop).elim,hscan.left,hscan.covered⟩

/-- A statement after which an open goes on, and whose effect keeps what holds
while a store is opened. -/
theorem Keeps.statement {stmt : Statement} {next : Reply → Opening}
    (h : Backfilling bincode init s) (heffect : Backfilling bincode init (effect stmt s).1)
    (hnext : Keeps bincode init (next (effect stmt s).2) (effect stmt s).1) :
    Keeps bincode init (.require stmt next) s := by
  refine Safe.require (fun _ => h) (fun t houtcome _ => ?_) fun t reply houtcome _ => ?_
  · cases houtcome with
    | lostReply => exact heffect
    | failed => exact h
  · cases houtcome with
    | answered => exact hnext

/-- The marker is committed once the index is complete. -/
theorem commitMarker_keeps (h : Backfilling bincode init s)
    (hfull : ∀ x value, IsImage bincode init x value → (s (.data .idxUser))[x]?=some value) :
    Keeps bincode init commitMarker s := by
  have hmarked : Backfilling bincode init
      (BatchedMaps.commit s [.insert .metadata markerKey (utf8 "1")]) :=
    h.insertMeta (fun hkey => by cases hkey) fun _ => hfull
  refine Keeps.statement h hmarked (Safe.done_ok hmarked ⟨?_,fun x value himage => ?_⟩)
  · rw [effect,Marked,get_insertMeta,if_pos rfl]
    exact Option.some_ne_none _
  · rw [effect,get_insertMeta,if_neg (fun hcell => by cases hcell)]
    exact hfull x value himage

/-- The loop from any row on. -/
theorem backfillLoop_keeps (hdecodes : Decodes bincode init) (rows : List (Bytes×Bytes))
    (h : Backfilling bincode init s) (hscan : Scanning bincode init s rows batch) :
    Keeps bincode init (backfillLoop bincode rows batch) s := by
  induction rows generalizing s batch with
  | nil =>
    rw [backfillLoop]
    split_ifs with hbatch
    · exact Keeps.statement h (h.commit hdecodes hscan.image)
        (commitMarker_keeps (h.commit hdecodes hscan.image) fun x value => hscan.full)
    · rw [List.eq_nil_of_length_eq_zero (Nat.eq_zero_of_not_pos hbatch)] at hscan
      exact commitMarker_keeps h fun x value => hscan.full
  | cons kv rows ih =>
    rw [backfillLoop]
    obtain ⟨event,hevent,-⟩ := hdecodes kv.1 kv.2 (hscan.left kv List.mem_cons_self)
    refine Keeps.statement h h ?_
    rw [hevent]
    dsimp only
    have hnext := hscan.enter hdecodes hevent
    split_ifs with hchunk
    · exact Keeps.statement h (h.commit hdecodes hnext.image)
        (ih (h.commit hdecodes hnext.image) hnext.commit)
    · exact ih h hnext

/-- The backfill, whatever the read of the marker returns. -/
theorem backfill_keeps (hdecodes : Decodes bincode init) (h : Backfilling bincode init s) :
    Keeps bincode init (backfill bincode) s := by
  refine ⟨fun _ => h,fun t reply houtcome _ => ?_⟩
  have hrun : Keeps bincode init (.require .rangeEvents fun reply =>
      match reply with
      | .rows kvs => backfillLoop bincode kvs []
      | _ => .done false) s :=
    Keeps.statement h h (backfillLoop_keeps hdecodes _ h (scanning_start h))
  cases houtcome with
  | answered =>
    dsimp only [effect]
    cases hmarker : (s .metadata)[markerKey]? with
    | none => exact hrun
    | some value =>
      have hmarked : Marked s := fun hnone => by cases hmarker.symm.trans hnone
      exact Safe.done_ok h ⟨hmarked,h.marked hmarked⟩
  | lostReply => exact hrun
  | failed => exact hrun

/-- An open of a store of the current version. -/
theorem openStore_keeps (hdecodes : Decodes bincode init) (h : Backfilling bincode init s)
    (depth : ℕ) : Keeps bincode init (openStore bincode depth) s := by
  cases depth with
  | zero => exact Safe.done_error h
  | succ depth =>
    refine Keeps.statement h h ⟨fun _ => h,fun t reply houtcome _ => ?_⟩
    have hcurrent : ¬(storedVersion reply≠0 ∧ storedVersion reply≠eventSchemaVersion) ∧ t=s := by
      cases houtcome with
      | answered => exact ⟨fun hother => hother.2 h.version,rfl⟩
      | lostReply => exact ⟨fun hother => hother.1 rfl,rfl⟩
      | failed => exact ⟨fun hother => hother.1 rfl,rfl⟩
    obtain ⟨hversion,rfl⟩ := hcurrent
    dsimp only
    rw [if_neg hversion]
    have hwritten : Backfilling bincode init
        (BatchedMaps.commit t [.insert .metadata schemaVersionKey (utf8 "2")]) :=
      h.insertMeta (fun _ => by decide) fun hkey => by cases hkey
    exact Keeps.statement h hwritten (backfill_keeps hdecodes hwritten)

/-- The loop can finish from any row on. -/
theorem backfillLoop_finishes (rows : List (Bytes×Bytes))
    (hdecodes : ∀ kv∈rows, ∃ event, decodeEvent bincode kv.2=some event) :
    Finishes Outcome (backfillLoop bincode rows batch) s := by
  have hmarker : ∀ s, Finishes Outcome commitMarker s := fun s => ⟨_,_,.answered,rfl⟩
  induction rows generalizing s batch with
  | nil =>
    rw [backfillLoop]
    split_ifs with hbatch
    · exact ⟨_,_,.answered,hmarker _⟩
    · exact hmarker s
  | cons kv rows ih =>
    rw [backfillLoop]
    obtain ⟨event,hevent⟩ := hdecodes kv List.mem_cons_self
    refine ⟨_,_,.answered,?_⟩
    simp only [effect,hevent]
    split_ifs with hchunk
    · exact ⟨_,_,.answered,ih fun kv' hkv' => hdecodes kv' (List.mem_cons_of_mem _ hkv')⟩
    · exact ih fun kv' hkv' => hdecodes kv' (List.mem_cons_of_mem _ hkv')

/-- An open can finish that is not killed and whose statements are answered. -/
theorem openStore_finishes (hdecodes : Decodes bincode init) (h : Backfilling bincode init s)
    (depth : ℕ) : Finishes Outcome (openStore bincode (depth+1)) s := by
  refine ⟨_,_,.answered,_,_,.answered,?_⟩
  dsimp only
  rw [if_neg (fun hother => hother.2 h.version)]
  have hwritten : Backfilling bincode init
      (BatchedMaps.commit s [.insert .metadata schemaVersionKey (utf8 "2")]) :=
    h.insertMeta (fun _ => by decide) fun hkey => by cases hkey
  refine ⟨_,_,.answered,_,_,.answered,?_⟩
  dsimp only
  split_ifs with hfound
  · rfl
  · refine ⟨_,_,.answered,backfillLoop_finishes _ fun kv hkv => ?_⟩
    obtain ⟨event,hevent,-⟩ := hdecodes kv.1 kv.2 ((mem_events_iff hwritten).mp hkv)
    exact ⟨event,hevent⟩

/-- Writes that belong into the index leave the marker. -/
theorem marked_commit_iff (hbatch : ∀ op∈batch, ∃ x value, op=.insert (.data .idxUser) x value ∧
    IsImage bincode init x value) : Marked (BatchedMaps.commit s batch) ↔ Marked s := by
  rw [Marked,get_commit_of_image hbatch Name.noConfusion,Marked]

/-- The loop can come to the marker, with the index complete and without it. -/
theorem backfillLoop_reaches (hdecodes : Decodes bincode init) (rows : List (Bytes×Bytes))
    (h : Backfilling bincode init s) (hscan : Scanning bincode init s rows batch)
    (hmarker : ¬Marked s) :
    ∃ t, Reaches Outcome (backfillLoop bincode rows batch) s commitMarker t ∧
      Backfilling bincode init t ∧ ¬Marked t ∧
      ∀ x value, IsImage bincode init x value → (t (.data .idxUser))[x]?=some value := by
  have hkept : ∀ {s batch}, (∀ op∈batch, ∃ x value, op=.insert (.data .idxUser) x value ∧
      IsImage bincode init x value) → ¬Marked s → ¬Marked (BatchedMaps.commit s batch) :=
    fun hbatch hmarker hmarked => hmarker ((marked_commit_iff hbatch).mp hmarked)
  induction rows generalizing s batch with
  | nil =>
    rw [backfillLoop]
    split_ifs with hbatch
    · exact ⟨_,.exec .answered .refl,h.commit hdecodes hscan.image,
        hkept hscan.image hmarker,fun x value => hscan.full⟩
    · rw [List.eq_nil_of_length_eq_zero (Nat.eq_zero_of_not_pos hbatch)] at hscan
      exact ⟨s,.refl,h,hmarker,fun x value => hscan.full⟩
  | cons kv rows ih =>
    rw [backfillLoop]
    obtain ⟨event,hevent,-⟩ := hdecodes kv.1 kv.2 (hscan.left kv List.mem_cons_self)
    have hrest : ∀ batch : List (BatchOp Name Bytes Bytes), Scanning bincode init s rows batch →
        ∃ t, Reaches Outcome (if batch.length≥backfillChunk then
            .require (.commit batch) fun _ => backfillLoop bincode rows []
          else backfillLoop bincode rows batch) s commitMarker t ∧
        Backfilling bincode init t ∧ ¬Marked t ∧
        ∀ x value, IsImage bincode init x value → (t (.data .idxUser))[x]?=some value := by
      intro batch hnext
      split_ifs with hchunk
      · obtain ⟨t,hreach,ht⟩ := ih (h.commit hdecodes hnext.image) hnext.commit
          (hkept hnext.image hmarker)
        exact ⟨t,.exec .answered hreach,ht⟩
      · exact ih h hnext hmarker
    obtain ⟨t,hreach,ht⟩ := hrest _ (hscan.enter hdecodes hevent)
    refine ⟨t,.exec .answered ?_,ht⟩
    simp only [effect,hevent]
    exact hreach

/-- An open of a store without the marker can come to it the same way. -/
theorem openStore_reaches (hdecodes : Decodes bincode init) (h : Backfilling bincode init s)
    (hmarker : ¬Marked s) (depth : ℕ) :
    ∃ t, Reaches Outcome (openStore bincode (depth+1)) s commitMarker t ∧
      Backfilling bincode init t ∧ ¬Marked t ∧
      ∀ x value, IsImage bincode init x value → (t (.data .idxUser))[x]?=some value := by
  have hwritten : Backfilling bincode init
      (BatchedMaps.commit s [.insert .metadata schemaVersionKey (utf8 "2")]) :=
    h.insertMeta (fun _ => by decide) fun hkey => by cases hkey
  have hunmarked :
      ¬Marked (BatchedMaps.commit s [.insert .metadata schemaVersionKey (utf8 "2")]) := by
    rwa [Marked,get_insertMeta,if_neg (by decide)]
  obtain ⟨t,hreach,ht⟩ := backfillLoop_reaches hdecodes _ hwritten (scanning_start hwritten)
    hunmarked
  have hfound : isFound (some (.value (BatchedMaps.commit s
      [.insert .metadata schemaVersionKey (utf8 "2")] .metadata)[markerKey]?))=false := by
    rw [not_not.mp hunmarked]
    rfl
  refine ⟨t,.exec .answered (.exec .answered ?_),ht⟩
  rw [if_neg (fun hother => hother.2 h.version)]
  refine .exec .answered (.exec .answered ?_)
  simp only [effect,hfound]
  exact .exec .answered hreach

/-- The index of a store that is marked is the image of its own rows. -/
theorem Backfilling.full (h : Backfilling bincode init s)
    (hall : ∀ x value, IsImage bincode init x value → (s (.data .idxUser))[x]?=some value) :
    Full bincode s := by
  intro x value
  have hrows : IsImage bincode s x value ↔ IsImage bincode init x value := by
    simp only [IsImage,h.data .events _ (by decide)]
  rw [hrows]
  exact ⟨h.entry x value,hall x value⟩

/-- Over any opens of a store of the current version whose rows decode, killed
and failing anywhere, the rows stay as they are and the marker is there only
when the index is the image of the rows; and an open that has just succeeded
leaves both. -/
theorem backfill_crash_safe (bincode : Codec PersistedEvent) (depth : ℕ) {init : Store}
    (hversion : storedVersion (some (.value (init .metadata)[schemaVersionKey]?))=
      eventSchemaVersion)
    (hdecodes : Decodes bincode init) (hempty : init (.data .idxUser)=∅) (hmarker : ¬Marked init) :
    (∀ history p, Run (Step (openStore bincode depth) Outcome) ⟨init,none⟩ history p →
      p.store (.data .events)=init (.data .events) ∧ (Marked p.store → Full bincode p.store)) ∧
    (∀ past p, Run (Step (openStore bincode depth) Outcome) ⟨init,none⟩ (.exit true::past) p →
      p.store (.data .events)=init (.data .events) ∧ Marked p.store ∧ Full bincode p.store) := by
  have hinit : Backfilling bincode init init := backfilling_start hversion hempty hmarker
  have hstart : ∀ s, Backfilling bincode init s → Keeps bincode init (openStore bincode depth) s :=
    fun s h => openStore_keeps hdecodes h depth
  have hguard : ∀ {history p}, Run (Step (openStore bincode depth) Outcome) ⟨init,none⟩ history p →
      Run (GuardedStep (openStore bincode depth) Outcome fun _ _ => True) ⟨init,none⟩ history p :=
    fun run => run.mono fun _ _ _ htaken => ⟨htaken,trivial⟩
  have hevents : ∀ {s}, Backfilling bincode init s →
      s (.data .events)=init (.data .events) := fun h =>
    Std.ExtTreeMap.ext_getElem? fun key => h.data .events key (by decide)
  constructor
  · intro history p run
    have h := Sound.always hstart hinit (fun _ => trivial) (hguard run)
    exact ⟨hevents h,fun hmarked => h.full (h.marked hmarked)⟩
  · intro past p run
    obtain ⟨h,hmarked,hall⟩ := Sound.exited hstart hinit (hguard run)
    exact ⟨hevents h,hmarked,h.full hall⟩

end

/-- A store with one row and without the index. -/
def oldStore : Store := BatchedMaps.commit emptyMaps
  [.insert .metadata schemaVersionKey (utf8 "2"),
    .insert (.data .events) (FjallRuns.sampleEvent 5 "").eventKey
      (encodeEvent eventLayout.codec (FjallRuns.sampleEvent 5 ""))]

/-- The row of the sample store decodes. -/
theorem decodes_oldStore : Decodes eventLayout.codec oldStore := by
  intro key value hrow
  obtain hbefore | ⟨op,hop,hcell,hcontent⟩ := get_commit_cases hrow
  · rw [get_emptyMaps] at hbefore
    cases hbefore
  · simp only [List.mem_cons,List.not_mem_nil,or_false] at hop
    rcases hop with rfl | rfl
    · cases hcell
    · cases hcontent
      exact ⟨_,decodeEvent_encodeEvent _ _,by decide⟩

/-- The first open is killed when the index is complete and the marker is not
there yet; the second one starts over and commits both. -/
theorem backfill_crash_safe_oldStore : ∃ before t past p,
    Run (Step (openStore eventLayout.codec 1) Outcome) ⟨oldStore,none⟩ (.kill::before) ⟨t,none⟩ ∧
      ¬Marked t ∧ Full eventLayout.codec t ∧
      Run (Step (openStore eventLayout.codec 1) Outcome) ⟨oldStore,none⟩
        (.exit true::(past++.kill::before)) p ∧
      Marked p.store ∧ Full eventLayout.codec p.store := by
  have hunmarked : ¬Marked oldStore := fun hmarked => hmarked rfl
  have hinit : Backfilling eventLayout.codec oldStore oldStore :=
    backfilling_start (by decide) rfl hunmarked
  obtain ⟨t,hreach,ht,hmarker,hall⟩ := openStore_reaches decodes_oldStore hinit hunmarked 0
  have hlaunch : Run (Step (openStore eventLayout.codec 1) Outcome) ⟨oldStore,none⟩ [.launch]
      ⟨oldStore,some (openStore eventLayout.codec 1)⟩ := .next _ .start .launch
  obtain ⟨before,run⟩ := hreach.run hlaunch
  have hkilled := run.next .kill .kill
  obtain ⟨past,p,hrun⟩ := (openStore_finishes decodes_oldStore ht 0).run
    (hkilled.next .launch .launch)
  have hended := (backfill_crash_safe eventLayout.codec 1 (by decide) decodes_oldStore rfl
    hunmarked).2 _ p hrun
  refine ⟨before++[.launch],t,past++[.launch],p,hkilled,hmarker,ht.full hall,?_,hended.2⟩
  simpa using hrun

end TokiSync.IndexBackfill
