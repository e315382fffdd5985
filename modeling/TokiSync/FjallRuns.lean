import TokiSync.FjallBatches
import TokiSync.Runs

/-!
# Runs of the embedded store

A run applies upserts, prunings of old dedup pointers and deletions of devices
to an empty store. Pruning only drops pointers; a deletion drops exactly the
rows whose value names the device, with their copies, sessions and pointers.
Every state reached keeps the four event keyspaces in step.
-/

namespace TokiSync.FjallRuns

open MachineWords ByteKeys ByteCodec BatchedMaps ServerEvents FjallStore FjallCoherence
open FjallBatches Runs

section

variable {bincode : Codec PersistedEvent}

/-- Pruning removes dedup pointers only. -/
theorem mem_cleanupBatch {db : Db} {deviceId : String} {cutoffMs : Int64} {op : Write}
    (h : op∈cleanupBatch db deviceId cutoffMs) : ∃ k, op=.remove .idxMsg k := by
  obtain ⟨kv,-,rfl⟩ := List.mem_map.mp h
  exact ⟨kv.1,rfl⟩

/-- Pruning leaves the other keyspaces alone. -/
theorem get_cleanupOldDedup_of_ne (db : Db) (deviceId : String) (cutoffMs : Int64)
    {name : KeyspaceName} (hname : name≠.idxMsg) (k : Bytes) :
    (cleanupOldDedup db deviceId cutoffMs name)[k]?=(db name)[k]? := by
  refine get_commit_of_untouched (fun op hop heq => ?_) db
  obtain ⟨x,rfl⟩ := mem_cleanupBatch hop
  exact hname (congrArg Prod.fst heq).symm

/-- A pointer of the device to a row older than the cutoff. -/
def Pruned (deviceId : String) (cutoffMs : Int64) (k row : Bytes) : Prop :=
  delimited (utf8 deviceId)<+:k ∧ row.length≥8 ∧ fromBeBytes (row.take 8)<cutoffMs

/-- Pruning drops exactly the pointers of the device to its old rows. -/
theorem get_cleanupOldDedup_idxMsg_iff {db : Db} {deviceId : String} {cutoffMs : Int64}
    {k row : Bytes} : (cleanupOldDedup db deviceId cutoffMs .idxMsg)[k]?=some row ↔
      (db .idxMsg)[k]?=some row ∧ ¬Pruned deviceId cutoffMs k row := by
  have hnone : ∀ op∈cleanupBatch db deviceId cutoffMs, op.content=none := by
    intro op hop
    obtain ⟨x,rfl⟩ := mem_cleanupBatch hop
    rfl
  have hcell : (KeyspaceName.idxMsg,k)∈(cleanupBatch db deviceId cutoffMs).map BatchOp.cell ↔
      ∃ row, (db .idxMsg)[k]?=some row ∧ Pruned deviceId cutoffMs k row := by
    simp only [cleanupBatch,keyspacePrefix,List.map_map,List.mem_map,List.mem_filter,
      decide_eq_true_eq,Function.comp_apply,BatchOp.cell,Prod.exists,
      Std.ExtTreeMap.mem_toList_iff_getElem?_eq_some,Prod.mk.injEq,true_and,Pruned]
    constructor
    · rintro ⟨x,row,⟨⟨hrow,hpre⟩,hold⟩,rfl⟩
      exact ⟨row,hrow,hpre,hold⟩
    · rintro ⟨row,hrow,hpre,hold⟩
      exact ⟨k,row,⟨⟨hrow,hpre⟩,hold⟩,rfl⟩
  rw [cleanupOldDedup,get_commit_removes hnone]
  split_ifs with h
  · obtain ⟨row',hrow',hpruned⟩ := hcell.mp h
    constructor
    · intro h
      cases h
    · rintro ⟨hrow,hkept⟩
      rw [hrow,Option.some.injEq] at hrow'
      rw [hrow'] at hkept
      exact absurd hpruned hkept
  · constructor
    · exact fun hrow => ⟨hrow,fun hpruned => h (hcell.mpr ⟨row,hrow,hpruned⟩)⟩
    · exact fun hrow => hrow.1

/-- A pointer that survives a pruning was there before. -/
theorem get_cleanupOldDedup_idxMsg {db : Db} {deviceId : String} {cutoffMs : Int64}
    {k row : Bytes} (h : (cleanupOldDedup db deviceId cutoffMs .idxMsg)[k]?=some row) :
    (db .idxMsg)[k]?=some row :=
  (get_cleanupOldDedup_idxMsg_iff.mp h).1

/-- Pruning keeps keys and pointers aligned. -/
theorem aligned_cleanupOldDedup {db : Db} (h : Aligned bincode db) (deviceId : String)
    (cutoffMs : Int64) : Aligned bincode (cleanupOldDedup db deviceId cutoffMs) := by
  constructor
  · intro k v hv
    rw [get_cleanupOldDedup_of_ne _ _ _ (by decide)] at hv
    exact h.row k v hv
  · intro dedup k hk
    obtain ⟨v,e,hv,he⟩ := h.pointer dedup k (get_cleanupOldDedup_idxMsg hk)
    refine ⟨v,e,?_,he⟩
    rw [get_cleanupOldDedup_of_ne _ _ _ (by decide),hv]

/-- Pruning keeps the mirrored index. -/
theorem mirrored_cleanupOldDedup {db : Db} (h : Mirrored bincode db) (deviceId : String)
    (cutoffMs : Int64) : Mirrored bincode (cleanupOldDedup db deviceId cutoffMs) := by
  have hsame : ∀ (name : KeyspaceName) (k : Bytes), name≠.idxMsg →
      (cleanupOldDedup db deviceId cutoffMs name)[k]?=(db name)[k]? :=
    fun name k hname => get_cleanupOldDedup_of_ne db deviceId cutoffMs hname k
  constructor
  · intro k v e hv he
    rw [hsame _ _ (by decide)] at hv ⊢
    exact h.copied k v e hv he
  · intro x v hv
    rw [hsame _ _ (by decide)] at hv
    obtain ⟨k,e,hkv,hrest⟩ := h.copy x v hv
    exact ⟨k,e,by rw [hsame _ _ (by decide),hkv],hrest⟩
  · intro k v hv
    rw [hsame _ _ (by decide)] at hv ⊢
    exact h.session k v hv

/-- Cells that a deletion of the device empties. -/
def Deleted (bincode : Codec PersistedEvent) (db : Db) (deviceId : String)
    (cell : KeyspaceName×Bytes) : Prop :=
  (∃ (k v : Bytes) (e : ServerEvent), (db .events)[k]?=some v ∧ decodeEvent bincode v=some e ∧
    e.deviceId=deviceId ∧ (cell=(.idxUser,userIdxKey e.userId k) ∨ cell=(.idxMsg,e.idxKey) ∨
      cell=(.sessions,k) ∨ cell=(.events,k))) ∨
  (cell.1=.idxMsg ∧ delimited (utf8 deviceId)<+:cell.2 ∧ ∃ row : Bytes,
    (db .idxMsg)[cell.2]?=some row)

/-- The writes of a deletion are removals. -/
theorem mem_deleteBatch_content {db : Db} {deviceId : String} {op : Write}
    (h : op∈deleteBatch bincode db deviceId) : op.content=none := by
  rcases List.mem_append.mp h with h | h
  · obtain ⟨kv,-,hop⟩ := List.mem_flatMap.mp h
    unfold deleteRow at hop
    split at hop
    · split_ifs at hop
      · cases hop
      · simp only [List.mem_cons,List.not_mem_nil,or_false] at hop
        rcases hop with rfl | rfl | rfl | rfl <;> rfl
    · cases hop
  · obtain ⟨kv,-,rfl⟩ := List.mem_map.mp h
    rfl

/-- The cells written for one scanned row. -/
theorem mem_deleteRow_cells {deviceId : String} {kv : Bytes×Bytes} {cell : KeyspaceName×Bytes} :
    cell∈(deleteRow bincode deviceId kv).map BatchOp.cell ↔
      ∃ e, decodeEvent bincode kv.2=some e ∧ e.deviceId=deviceId ∧
        (cell=(.idxUser,userIdxKey e.userId kv.1) ∨ cell=(.idxMsg,e.idxKey) ∨
          cell=(.sessions,kv.1) ∨ cell=(.events,kv.1)) := by
  unfold deleteRow
  cases he : decodeEvent bincode kv.2 with
  | none => simp
  | some e =>
    by_cases hdev : e.deviceId=deviceId
    · simp [hdev,BatchOp.cell]
    · simp [hdev]

/-- A deletion names exactly the cells it empties. -/
theorem mem_deleteBatch_cells {db : Db} {deviceId : String} {cell : KeyspaceName×Bytes} :
    cell∈(deleteBatch bincode db deviceId).map BatchOp.cell ↔ Deleted bincode db deviceId cell := by
  rw [deleteBatch,List.map_append,List.mem_append,List.map_flatMap,List.mem_flatMap]
  refine or_congr ?_ ?_
  · constructor
    · rintro ⟨⟨k,v⟩,hkv,hcell⟩
      rw [Std.ExtTreeMap.mem_toList_iff_getElem?_eq_some] at hkv
      obtain ⟨e,he,hrest⟩ := mem_deleteRow_cells.mp hcell
      exact ⟨k,v,e,hkv,he,hrest⟩
    · rintro ⟨k,v,e,hkv,he,hrest⟩
      refine ⟨(k,v),Std.ExtTreeMap.mem_toList_iff_getElem?_eq_some.mpr hkv,?_⟩
      exact mem_deleteRow_cells.mpr ⟨e,he,hrest⟩
  · obtain ⟨name,x⟩ := cell
    simp only [keyspacePrefix,List.map_map,List.mem_map,List.mem_filter,decide_eq_true_eq,
      Function.comp_apply,BatchOp.cell,Prod.exists,Std.ExtTreeMap.mem_toList_iff_getElem?_eq_some,
      Prod.mk.injEq]
    constructor
    · rintro ⟨k,row,⟨hrow,hpre⟩,rfl,rfl⟩
      exact ⟨rfl,hpre,row,hrow⟩
    · rintro ⟨rfl,hpre,row,hrow⟩
      exact ⟨x,row,⟨hrow,hpre⟩,rfl,rfl⟩

/-- What a deletion leaves in a cell. -/
theorem get_deleteDeviceEvents (db : Db) (deviceId : String) (name : KeyspaceName) (k v : Bytes) :
    (deleteDeviceEvents bincode db deviceId name)[k]?=some v ↔
      (db name)[k]?=some v ∧ ¬Deleted bincode db deviceId (name,k) := by
  rw [deleteDeviceEvents,get_commit_removes fun op => mem_deleteBatch_content,
    ←mem_deleteBatch_cells]
  split_ifs with hcell
  · simp [hcell]
  · simp [hcell]

/-- A deletion drops exactly the rows whose value names the device. -/
theorem get_deleteDeviceEvents_events {db : Db} {deviceId : String} {k v : Bytes} :
    (deleteDeviceEvents bincode db deviceId .events)[k]?=some v ↔
      (db .events)[k]?=some v ∧ ∀ e, decodeEvent bincode v=some e → e.deviceId≠deviceId := by
  rw [get_deleteDeviceEvents]
  refine and_congr_right fun hv => ?_
  constructor
  · exact fun hkeep e he hdev =>
      hkeep (Or.inl ⟨k,v,e,hv,he,hdev,Or.inr (Or.inr (Or.inr rfl))⟩)
  · rintro hkeep (⟨x,w,e,hw,he,hdev,hcell | hcell | hcell | hcell⟩ | ⟨hname,-⟩)
    · cases hcell
    · cases hcell
    · cases hcell
    · cases hcell
      rw [hv,Option.some.injEq] at hw
      rw [←hw] at he
      exact hkeep e he hdev
    · cases hname

/-- A deletion drops exactly the pointers to rows of the device. -/
theorem get_deleteDeviceEvents_idxMsg {db : Db} (h : Aligned bincode db) {deviceId : String}
    (hd : NulFree (utf8 deviceId)) {dedup k v : Bytes} {e : ServerEvent}
    (hv : (db .events)[k]?=some v) (he : decodeEvent bincode v=some e) (hek : e.idxKey=dedup) :
    (deleteDeviceEvents bincode db deviceId .idxMsg)[dedup]?=some k ↔
      (db .idxMsg)[dedup]?=some k ∧ e.deviceId≠deviceId := by
  obtain ⟨-,hed⟩ := h.of_decode hv he
  rw [get_deleteDeviceEvents]
  refine and_congr_right fun hk => ?_
  constructor
  · intro hkeep hdev
    refine hkeep (Or.inr ⟨rfl,?_,k,hk⟩)
    rw [←hek,delimited_prefix_of_device hd hed.1,hdev]
  · rintro hne (⟨x,w,y,hw,hy,hdev,hcell | hcell | hcell | hcell⟩ | ⟨-,hpre,-⟩)
    · cases hcell
    · rw [Prod.mk.injEq] at hcell
      rw [←hek] at hcell
      exact hne ((idxKey_device hed.1 (h.of_decode hw hy).2.1 hcell.2).trans hdev)
    · cases hcell
    · cases hcell
    · rw [←hek,delimited_prefix_of_device hd hed.1] at hpre
      exact hne hpre.symm

/-- A deletion keeps keys and pointers aligned. -/
theorem aligned_deleteDeviceEvents {db : Db} (h : Aligned bincode db) {deviceId : String}
    (hd : NulFree (utf8 deviceId)) :
    Aligned bincode (deleteDeviceEvents bincode db deviceId) := by
  constructor
  · intro k v hv
    exact h.row k v (get_deleteDeviceEvents_events.mp hv).1
  · intro dedup k hk
    obtain ⟨v,e,hv,he,hek⟩ := h.pointer dedup k ((get_deleteDeviceEvents _ _ _ _ _).mp hk).1
    obtain ⟨-,hne⟩ := (get_deleteDeviceEvents_idxMsg h hd hv he hek).mp hk
    refine ⟨v,e,get_deleteDeviceEvents_events.mpr ⟨hv,fun x hx => ?_⟩,he,hek⟩
    rw [he,Option.some.injEq] at hx
    rwa [←hx]

/-- A deletion keeps the index copies of the rows that stay. -/
theorem copied_deleteDeviceEvents {db : Db} (hc : Copied bincode db) (h : Aligned bincode db)
    (deviceId : String) : Copied bincode (deleteDeviceEvents bincode db deviceId) := by
  intro k v e hv he
  obtain ⟨hv,hkeep⟩ := get_deleteDeviceEvents_events.mp hv
  obtain ⟨-,hed⟩ := h.of_decode hv he
  refine (get_deleteDeviceEvents _ _ _ _ _).mpr ⟨hc k v e hv he,?_⟩
  rintro (⟨x,w,y,hw,hy,hdev,hcell | hcell | hcell | hcell⟩ | ⟨hname,-⟩)
  · rw [Prod.mk.injEq,userIdxKey_inj hed.2 (h.of_decode hw hy).2.2] at hcell
    rw [←hcell.2.2,hv,Option.some.injEq] at hw
    rw [←hw] at hy
    exact hkeep y hy hdev
  · cases hcell
  · cases hcell
  · cases hcell
  · cases hname

/-- A deletion keeps the mirrored index. -/
theorem mirrored_deleteDeviceEvents {db : Db} (hm : Mirrored bincode db) (h : Aligned bincode db)
    (deviceId : String) : Mirrored bincode (deleteDeviceEvents bincode db deviceId) := by
  constructor
  · exact copied_deleteDeviceEvents hm.copied h deviceId
  · intro x v hv
    obtain ⟨hv,hkeep⟩ := (get_deleteDeviceEvents _ _ _ _ _).mp hv
    obtain ⟨k,e,hkv,he,hx⟩ := hm.copy x v hv
    refine ⟨k,e,get_deleteDeviceEvents_events.mpr ⟨hkv,fun y hy hdev => ?_⟩,he,hx⟩
    rw [he,Option.some.injEq] at hy
    rw [←hy] at hdev
    exact hkeep (Or.inl ⟨k,v,e,hkv,he,hdev,Or.inl (by rw [hx])⟩)
  · intro k v hv
    obtain ⟨hv,hkeep⟩ := (get_deleteDeviceEvents _ _ _ _ _).mp hv
    obtain ⟨w,hw⟩ := hm.session k v hv
    refine ⟨w,get_deleteDeviceEvents_events.mpr ⟨hw,fun e he hdev => ?_⟩⟩
    exact hkeep (Or.inl ⟨k,w,e,hw,he,hdev,Or.inr (Or.inr (Or.inl rfl))⟩)

/-- Mutations of the event keyspaces. -/
inductive StoreOp where
  /-- Upsert one batch. -/
  | upsert (events : List ServerEvent)
  /-- Prune the dedup pointers of a device. -/
  | cleanup (deviceId : String) (cutoffMs : Int64)
  /-- Delete a device. -/
  | delete (deviceId : String)

/-- One mutation of the store. -/
def StoreStep (bincode : Codec PersistedEvent) (db : Db) (op : StoreOp) (db' : Db) : Prop :=
  match op with
  | .upsert events => UpsertEvents bincode db events db'
  | .cleanup deviceId cutoffMs => db'=cleanupOldDedup db deviceId cutoffMs
  | .delete deviceId => db'=deleteDeviceEvents bincode db deviceId

/-- Ids that contain no key delimiter. -/
def StoreOp.Delimitable : StoreOp → Prop
  | .upsert events => ∀ e∈events, e.Delimitable
  | .cleanup deviceId _ => NulFree (utf8 deviceId)
  | .delete deviceId => NulFree (utf8 deviceId)

instance : DecidablePred StoreOp.Delimitable
  | .upsert events => inferInstanceAs (Decidable (∀ e∈events, e.Delimitable))
  | .cleanup deviceId _ => inferInstanceAs (Decidable (NulFree (utf8 deviceId)))
  | .delete deviceId => inferInstanceAs (Decidable (NulFree (utf8 deviceId)))

/-- Events upserted since the last deletion of their device, after one more
mutation. -/
def liveAfter (op : StoreOp) (events : List ServerEvent) : List ServerEvent :=
  match op with
  | .upsert more => events++more
  | .cleanup _ _ => events
  | .delete deviceId => events.filter fun e => e.deviceId≠deviceId

/-- Events upserted since the last deletion of their device. -/
def live : List StoreOp → List ServerEvent
  | [] => []
  | op::past => liveAfter op (live past)

/-- Between two deletions of a device every upload of it is for one user. -/
def SingleUser (history : List StoreOp) : Prop :=
  ∀ past∈history.tails, ∀ a∈live past, ∀ b∈live past, a.deviceId=b.deviceId → a.userId=b.userId

instance : DecidablePred SingleUser := fun history =>
  inferInstanceAs (Decidable (∀ past∈history.tails, ∀ a∈live past, ∀ b∈live past,
    a.deviceId=b.deviceId → a.userId=b.userId))

/-- A shorter history of single users. -/
theorem SingleUser.tail {op : StoreOp} {past : List StoreOp} (h : SingleUser (op::past)) :
    SingleUser past :=
  fun sub hsub => h sub (List.mem_cons_of_mem _ hsub)

/-- User of the first event of a device. -/
def ownerOf (events : List ServerEvent) (deviceId : String) : Option String :=
  (events.find? fun e => e.deviceId=deviceId).map ServerEvent.userId

/-- With single users the first event of a device speaks for all of them. -/
theorem ownerOf_of_mem {events : List ServerEvent}
    (h : ∀ a∈events, ∀ b∈events, a.deviceId=b.deviceId → a.userId=b.userId) {e : ServerEvent}
    (he : e∈events) : ownerOf events e.deviceId=some e.userId := by
  unfold ownerOf
  cases hf : events.find? fun x => x.deviceId=e.deviceId with
  | none => simpa using List.find?_eq_none.mp hf e he
  | some x =>
    have hx : x.deviceId=e.deviceId := by simpa using List.find?_some hf
    rw [Option.map_some,h x (List.mem_of_find?_eq_some hf) e he hx]

/-- More events do not change the owner of a device that has one. -/
theorem ownerOf_append {events more : List ServerEvent} {deviceId user : String}
    (h : ownerOf events deviceId=some user) : ownerOf (events++more) deviceId=some user := by
  obtain ⟨x,hx,hu⟩ := Option.map_eq_some_iff.mp h
  rw [ownerOf,List.find?_append,hx,Option.some_or,Option.map_some,hu]

/-- Forgetting a device leaves the owners of the others. -/
theorem ownerOf_filter {events : List ServerEvent} {deviceId other : String}
    (h : other≠deviceId) :
    ownerOf (events.filter fun e => e.deviceId≠deviceId) other=ownerOf events other := by
  rw [ownerOf,ownerOf,List.find?_filter]
  congr 2
  funext e
  by_cases he : e.deviceId=other
  · simp [he,h]
  · simp [he]

/-- The four event keyspaces in step, with rows owned by the users of the live
events. -/
structure Coherent (bincode : Codec PersistedEvent) (history : List StoreOp) (db : Db) : Prop where
  /-- Rows and pointers agree with their keys. -/
  aligned : Aligned bincode db
  /-- Index copies and sessions agree with the rows. -/
  mirrored : Mirrored bincode db
  /-- Rows belong to the user of their device. -/
  owned : Owned bincode (ownerOf (live history)) db

/-- An empty store is coherent. -/
theorem coherent_emptyDb : Coherent bincode [] emptyDb := by
  have hnone : ∀ (name : KeyspaceName) (k v : Bytes), (emptyDb name)[k]?≠some v := by
    intro name k v h
    rw [emptyDb,get_emptyMaps] at h
    cases h
  exact ⟨⟨fun k v h => absurd h (hnone _ k v),fun k v h => absurd h (hnone _ k v)⟩,
    ⟨fun k v _ h => absurd h (hnone _ k v),fun k v h => absurd h (hnone _ k v),
      fun k v h => absurd h (hnone _ k v)⟩,fun k v _ h => absurd h (hnone _ k v)⟩

/-- Every mutation keeps the store coherent. -/
theorem Coherent.step {past : List StoreOp} {op : StoreOp} {db db' : Db}
    (h : Coherent bincode past db) (hd : op.Delimitable) (hu : SingleUser (op::past))
    (hstep : StoreStep bincode db op db') : Coherent bincode (op::past) db' := by
  cases op with
  | upsert events =>
    have hwin : ∀ e∈winners events, e.Delimitable := fun e he => hd e (mem_of_mem_winners he)
    have hown : Owned bincode (ownerOf (live (.upsert events::past))) db :=
      fun k v e hv he => ownerOf_append (h.owned k v e hv he)
    have huser : ∀ e∈winners events,
        ownerOf (live (.upsert events::past)) e.deviceId=some e.userId := by
      intro e he
      refine ownerOf_of_mem (hu _ ((List.mem_tails _ _).mpr (List.suffix_refl _))) ?_
      exact List.mem_append_right _ (mem_of_mem_winners he)
    rw [UpsertEvents.eq_upsertAll h.aligned hd hstep]
    obtain ⟨hm,ho⟩ := mirrored_upsertAll h.mirrored h.aligned hown hwin huser
    exact ⟨aligned_upsertAll h.aligned hwin,hm,ho⟩
  | cleanup deviceId cutoffMs =>
    cases hstep
    refine ⟨aligned_cleanupOldDedup h.aligned _ _,mirrored_cleanupOldDedup h.mirrored _ _,fun k v e hv he => ?_⟩
    rw [get_cleanupOldDedup_of_ne _ _ _ (by decide)] at hv
    exact h.owned k v e hv he
  | delete deviceId =>
    cases hstep
    refine ⟨aligned_deleteDeviceEvents h.aligned hd,mirrored_deleteDeviceEvents h.mirrored h.aligned _,
      fun k v e hv he => ?_⟩
    obtain ⟨hv,hkeep⟩ := get_deleteDeviceEvents_events.mp hv
    rw [live,liveAfter,ownerOf_filter (hkeep e he)]
    exact h.owned k v e hv he

/-- Histories with delimiter-free ids and single users. -/
def Admissible (history : List StoreOp) : Prop :=
  (∀ op∈history, op.Delimitable) ∧ SingleUser history

/-- Forgetting the newest mutation keeps a history admissible. -/
theorem admissible_tail (op : StoreOp) (past : List StoreOp) (h : Admissible (op::past)) :
    Admissible past :=
  ⟨forall_mem_tail op past h.1,h.2.tail⟩

/-- Every state a run reaches is coherent. -/
theorem Coherent.of_run {history : List StoreOp} {db : Db}
    (run : Run (StoreStep bincode) emptyDb history db) (hd : ∀ op∈history, op.Delimitable)
    (hu : SingleUser history) : Coherent bincode history db := by
  refine Run.invariant_of admissible_tail (I:=Coherent bincode) coherent_emptyDb ?_ ⟨hd,hu⟩ run
  intro past db op db' _ hA hcoherent hstep
  exact hcoherent.step (hA.1 op List.mem_cons_self) hA.2 hstep

/-- The state after a run does not depend on the order in which the winner
maps were visited. -/
theorem run_deterministic {history : List StoreOp} {db db' : Db}
    (hd : ∀ op∈history, op.Delimitable) (hu : SingleUser history)
    (run : Run (StoreStep bincode) emptyDb history db)
    (run' : Run (StoreStep bincode) emptyDb history db') : db=db' := by
  refine Run.deterministic admissible_tail ?_ ⟨hd,hu⟩ run run'
  intro past s op t t' hrun hA ht ht'
  cases op with
  | upsert events =>
    obtain ⟨hpast,hsingle⟩ := admissible_tail _ past hA
    have hal := (Coherent.of_run hrun hpast hsingle).aligned
    have hev := hA.1 (.upsert events) List.mem_cons_self
    rw [UpsertEvents.eq_upsertAll hal hev ht,UpsertEvents.eq_upsertAll hal hev ht']
  | cleanup deviceId cutoffMs => exact Eq.trans ht (Eq.symm ht')
  | delete deviceId => exact Eq.trans ht (Eq.symm ht')

/-- Index coherence over whole runs: rows under their own keys with exactly
one copy in the index of their user, pointers to rows of their own dedup key,
sessions of rows only, whatever order the winner maps are visited in. -/
theorem store_coherent (bincode : Codec PersistedEvent) {history : List StoreOp} {db : Db}
    (run : Run (StoreStep bincode) emptyDb history db) (hd : ∀ op∈history, op.Delimitable)
    (hu : SingleUser history) :
    (∀ k v : Bytes, (db .events)[k]?=some v → ∃ e, decodeEvent bincode v=some e ∧
      k=eventKey e.tsMs e.deviceId e.provider e.msgId ∧
      (db .idxUser)[userIdxKey e.userId k]?=some v) ∧
    (∀ x v : Bytes, (db .idxUser)[x]?=some v → ∃ (k : Bytes) (e : ServerEvent),
      (db .events)[k]?=some v ∧ decodeEvent bincode v=some e ∧ x=userIdxKey e.userId k) ∧
    (∀ dedup k : Bytes, (db .idxMsg)[dedup]?=some k → ∃ (v : Bytes) (e : ServerEvent),
      (db .events)[k]?=some v ∧ decodeEvent bincode v=some e ∧
      idxKey e.deviceId e.provider e.msgId=dedup) ∧
    (∀ k v : Bytes, (db .sessions)[k]?=some v → ∃ w : Bytes, (db .events)[k]?=some w) ∧
    ∀ db', Run (StoreStep bincode) emptyDb history db' → db'=db := by
  have hc := Coherent.of_run run hd hu
  refine ⟨fun k v hv => ?_,hc.mirrored.copy,hc.aligned.pointer,hc.mirrored.session,fun db' run' => ?_⟩
  · obtain ⟨e,he,hk,-⟩ := hc.aligned.row k v hv
    exact ⟨e,he,hk,hc.mirrored.copied k v e hv he⟩
  · exact run_deterministic hd hu run' run

end

/-- One event of a fixed dedup key. -/
def sampleEvent (tsMs : Int64) (session : String) : ServerEvent where
  deviceId := "d1"
  userId := "u1"
  msgId := "m1"
  tsMs := tsMs
  provider := "codex"
  model := "gpt-5"
  project := ""
  session := session
  inputTokens := 10
  outputTokens := 2
  cacheCreationInputTokens := 0
  cacheReadInputTokens := 0
  usageTotal := 12

/-- An upload of two versions, a pruning and a second upload. -/
def sampleHistory : List StoreOp :=
  [.upsert [sampleEvent 5 ""],.cleanup "d1" 6,.upsert [sampleEvent 4 "",sampleEvent 5 "s"]]

/-- State after the sample run. -/
def sampleDb : Db :=
  upsertEvents eventLayout.codec (cleanupOldDedup (upsertEvents eventLayout.codec emptyDb
    [sampleEvent 4 "",sampleEvent 5 "s"]) "d1" 6) [sampleEvent 5 ""]

/-- Coherence of the sample run: the re-inserted row keeps its session. -/
theorem store_coherent_sample :
    Run (StoreStep eventLayout.codec) emptyDb sampleHistory sampleDb ∧
      ∀ k v : Bytes, (sampleDb .sessions)[k]?=some v → ∃ w : Bytes, (sampleDb .events)[k]?=some w := by
  have run : Run (StoreStep eventLayout.codec) emptyDb sampleHistory sampleDb :=
    .next _ (.next _ (.next _ .start ⟨_,.refl _,rfl⟩) rfl) ⟨_,.refl _,rfl⟩
  exact ⟨run,(store_coherent eventLayout.codec run (by decide) (by decide)).2.2.2.1⟩

end TokiSync.FjallRuns
