import TokiSync.FjallRuns
import TokiSync.RangeScans

/-!
# Rows and index entries in key order

What holds of the event rows and of the per-user index when a device may
upload for several users: rows and index entries sit under the keys of their
events, and the owner's index has a copy of every row. An entry may outlive
its row then. Both keyspaces are read in the byte order of their keys, so
their rows come in the byte order of their times.
-/

namespace TokiSync.FjallIndex

open MachineWords ByteKeys ByteCodec BatchedMaps ServerEvents FjallStore FjallCoherence
open FjallBatches FjallRuns RangeScans Runs

/-- Copies of all rows in the index, and no entries under foreign keys. -/
structure Indexed (bincode : Codec PersistedEvent) (db : Db) : Prop where
  /-- The owner's index holds the value of every row. -/
  copied : Copied bincode db
  /-- An entry sits under the user and the row key of its event. -/
  entry : ∀ x v : Bytes, (db .idxUser)[x]?=some v → ∃ e, decodeEvent bincode v=some e ∧
    x=userIdxKey e.userId e.eventKey ∧ e.Delimitable

section

variable {bincode : Codec PersistedEvent} {db : Db} {event : ServerEvent}

/-- An upsert of one event keeps the index. -/
theorem Indexed.upsertOne (hi : Indexed bincode db) (h : Aligned bincode db)
    (hd : event.Delimitable) :
    Indexed bincode (commit db (FjallStore.upsertOne bincode db event)) := by
  rcases upsertOne_cases bincode db event with ⟨row,-,-,hskip⟩ | ⟨-,hreplace⟩
  · rw [hskip]
    exact hi
  · rw [hreplace]
    refine ⟨hi.copied.replaceRow h hd,fun x v hv => ?_⟩
    rw [get_replaceRow_idxUser] at hv
    split_ifs at hv with hx hold
    · cases hv
      exact ⟨_,decodeEvent_encodeEvent bincode event,hx,hd⟩
    · exact hi.entry x v hv

/-- Upserts one after another keep the index. -/
theorem Indexed.upsertAll (hi : Indexed bincode db) (h : Aligned bincode db)
    {order : List ServerEvent} (hd : ∀ e∈order, e.Delimitable) :
    Indexed bincode (FjallBatches.upsertAll bincode db order) := by
  induction order generalizing db with
  | nil => exact hi
  | cons e order ih =>
    have hde := hd e List.mem_cons_self
    exact ih (hi.upsertOne h hde) (h.upsertOne hde) fun x hx => hd x (List.mem_cons_of_mem _ hx)

/-- Every mutation of the store keeps the index. -/
theorem Indexed.step (hi : Indexed bincode db) (h : Aligned bincode db) {op : StoreOp} {db' : Db}
    (hd : op.Delimitable) (hstep : StoreStep bincode db op db') :
    Aligned bincode db' ∧ Indexed bincode db' := by
  cases op with
  | upsert events =>
    have hwin : ∀ e∈winners events, e.Delimitable := fun e he => hd e (mem_of_mem_winners he)
    rw [UpsertEvents.eq_upsertAll h hd hstep]
    exact ⟨aligned_upsertAll h hwin,hi.upsertAll h hwin⟩
  | cleanup deviceId cutoffMs =>
    cases hstep
    refine ⟨aligned_cleanupOldDedup h _ _,fun k v e hv he => ?_,fun x v hv => ?_⟩
    · rw [get_cleanupOldDedup_of_ne _ _ _ (by decide)] at hv ⊢
      exact hi.copied k v e hv he
    · rw [get_cleanupOldDedup_of_ne _ _ _ (by decide)] at hv
      exact hi.entry x v hv
  | delete deviceId =>
    cases hstep
    exact ⟨aligned_deleteDeviceEvents h hd,copied_deleteDeviceEvents hi.copied h deviceId,
      fun x v hv => hi.entry x v ((get_deleteDeviceEvents _ _ _ _ _).mp hv).1⟩

/-- Every state a run reaches has its rows and entries under their keys. -/
theorem Indexed.of_run {history : List StoreOp} (run : Run (StoreStep bincode) emptyDb history db)
    (hd : ∀ op∈history, op.Delimitable) : Aligned bincode db ∧ Indexed bincode db := by
  refine Run.invariant_of (A:=fun history => ∀ op∈history, op.Delimitable) forall_mem_tail
    (I:=fun _ db => Aligned bincode db ∧ Indexed bincode db) ?_ ?_ hd run
  · have hempty : Coherent bincode [] emptyDb := coherent_emptyDb
    refine ⟨hempty.aligned,hempty.mirrored.copied,fun x v hv => ?_⟩
    rw [emptyDb,get_emptyMaps] at hv
    cases hv
  · rintro past s op t - hd ⟨h,hi⟩ hstep
    exact hi.step h (hd op List.mem_cons_self) hstep

/-- Time at the head of a row key. -/
theorem fromBeBytes_eventKey (event : ServerEvent) :
    fromBeBytes (event.eventKey.take 8)=event.tsMs := by
  rw [eventKey_eq_rowKey,fromBeBytes_rowKey]

/-- Row keys have a time at their head. -/
theorem eventKey_length (event : ServerEvent) : 8≤event.eventKey.length := by
  rw [eventKey_eq_rowKey,rowKey_length]
  omega

/-- Event keys are compared by the bytes of their times first. -/
theorem unsigned_le_of_compare {a b : ServerEvent}
    (h : compare a.eventKey b.eventKey≠Ordering.gt) : unsigned a.tsMs≤unsigned b.tsMs := by
  rw [eventKey_eq_rowKey,eventKey_eq_rowKey,rowKey,rowKey,compare_toBeBytes_append] at h
  by_contra hlt
  rw [Nat.compare_eq_gt.mpr (not_le.mp hlt)] at h
  exact h rfl

/-- A row key lies in the range that starts with a time exactly when its own
time does not come before that in the order of bytes. -/
theorem compare_toBeBytes_eventKey (sinceMs : Int64) (event : ServerEvent) :
    compare (toBeBytes sinceMs) event.eventKey≠Ordering.gt ↔
      unsigned sinceMs≤unsigned event.tsMs := by
  have hcompare := compare_toBeBytes_append sinceMs event.tsMs [] event.idxKey
  rw [List.append_nil] at hcompare
  rw [eventKey_eq_rowKey,rowKey,hcompare]
  rcases lt_trichotomy (unsigned sinceMs) (unsigned event.tsMs) with hlt | heq | hgt
  · have hne : Ordering.lt≠Ordering.gt := by decide
    rw [Nat.compare_eq_lt.mpr hlt]
    exact ⟨fun _ => hlt.le,fun _ => hne⟩
  · have hne : compare [] event.idxKey≠Ordering.gt := by
      cases event.idxKey with
      | nil => decide
      | cons byte bytes =>
        intro h
        cases h
    rw [Nat.compare_eq_eq.mpr heq,Ordering.eq_then]
    exact ⟨fun _ => heq.le,fun _ => hne⟩
  · rw [Nat.compare_eq_gt.mpr hgt]
    exact ⟨fun h => absurd rfl h,fun h => absurd h (not_le.mpr hgt)⟩

/-- Index keys of one user are compared as their row keys. -/
theorem compare_userIdxKey (user : String) (a b : Bytes) :
    compare (userIdxKey user a) (userIdxKey user b)=compare a b := by
  rw [userIdxKey,userIdxKey,compare_append rfl,Std.ReflOrd.compare_self,Ordering.eq_then]

end

end TokiSync.FjallIndex
