import TokiSync.FjallRuns

/-!
# What the rows of the embedded store hold

The store is compared with the events upserted since the last deletion of
their device. Every row is one of these events, and every one of these events
is held: the store has a row of its dedup key that is not older. Both survive
pruning, which forgets pointers but no row.
-/

namespace TokiSync.FjallContents

open MachineWords ByteKeys ByteCodec BatchedMaps ServerEvents FjallStore FjallCoherence
open FjallBatches FjallRuns

/-- The store has a row of the dedup key that is not older than the time. -/
def Held (bincode : Codec PersistedEvent) (db : Db) (dedup : Bytes) (tsMs : Int64) : Prop :=
  ∃ (k v : Bytes) (x : ServerEvent), (db .events)[k]?=some v ∧ decodeEvent bincode v=some x ∧
    x.idxKey=dedup ∧ tsMs≤x.tsMs

/-- Some event of the list has the dedup key and is not older than the time. -/
def Covered (events : List ServerEvent) (dedup : Bytes) (tsMs : Int64) : Prop :=
  ∃ x∈events, x.idxKey=dedup ∧ tsMs≤x.tsMs

instance (events : List ServerEvent) (dedup : Bytes) (tsMs : Int64) :
    Decidable (Covered events dedup tsMs) :=
  inferInstanceAs (Decidable (∃ x∈events, x.idxKey=dedup ∧ tsMs≤x.tsMs))

/-- The rows are events of the list and hold all of them. -/
structure Agrees (bincode : Codec PersistedEvent) (db : Db) (events : List ServerEvent) : Prop where
  /-- Rows and pointers agree with their keys. -/
  aligned : Aligned bincode db
  /-- The events have delimiter-free ids. -/
  delimitable : ∀ e∈events, e.Delimitable
  /-- Every row is an event of the list, up to its session. -/
  row : ∀ (k v : Bytes) (x : ServerEvent), (db .events)[k]?=some v → decodeEvent bincode v=some x →
    ∃ e∈events, x={e with session := ""}
  /-- Every event of the list is held. -/
  held : ∀ e∈events, Held bincode db e.idxKey e.tsMs

section

variable {bincode : Codec PersistedEvent} {db db' : Db} {events : List ServerEvent}

/-- An empty store agrees with no events. -/
theorem agrees_emptyDb : Agrees bincode emptyDb [] := by
  have hempty : Coherent bincode [] emptyDb := coherent_emptyDb
  refine ⟨hempty.aligned,fun e he => absurd he List.not_mem_nil,fun k v x hv _ => ?_,
    fun e he => absurd he List.not_mem_nil⟩
  rw [emptyDb,get_emptyMaps] at hv
  cases hv

/-- What a store holds is what the events cover. -/
theorem Agrees.held_iff (h : Agrees bincode db events) (dedup : Bytes) (tsMs : Int64) :
    Held bincode db dedup tsMs ↔ Covered events dedup tsMs := by
  constructor
  · rintro ⟨k,v,x,hv,hx,hkey,hts⟩
    obtain ⟨e,he,rfl⟩ := h.row k v x hv hx
    exact ⟨e,he,hkey,hts⟩
  · rintro ⟨e,he,hkey,hts⟩
    obtain ⟨k,v,x,hv,hx,hxk,hxt⟩ := h.held e he
    exact ⟨k,v,x,hv,hx,hxk.trans hkey,hts.trans hxt⟩

/-- An upserted event is held: its row is stored unless a newer one is there. -/
theorem held_upsertOne_self (h : Aligned bincode db) (event : ServerEvent) :
    Held bincode (commit db (upsertOne bincode db event)) event.idxKey event.tsMs := by
  rcases upsertOne_cases bincode db event with ⟨row,hrow,hlt,hskip⟩ | ⟨-,hreplace⟩
  · obtain ⟨v,e,hv,he,hek,hkey,-⟩ := h.predecessor hrow
    rw [hskip]
    refine ⟨row,v,e,hv,he,hek,?_⟩
    have hts : rowTs row=e.tsMs := by
      rw [hkey,rowTs,eventKey_eq_rowKey,fromBeBytes_rowKey,rowKey_length,if_pos (by omega)]
    rw [hts] at hlt
    exact hlt.le
  · rw [hreplace]
    refine ⟨event.eventKey,_,_,?_,decodeEvent_encodeEvent bincode event,rfl,le_rfl⟩
    rw [get_replaceRow_events,if_pos rfl]

/-- What is held stays held when an event is upserted. -/
theorem Held.upsertOne {dedup : Bytes} {tsMs : Int64} (hheld : Held bincode db dedup tsMs)
    (h : Aligned bincode db) (event : ServerEvent) :
    Held bincode (commit db (FjallStore.upsertOne bincode db event)) dedup tsMs := by
  obtain ⟨k,v,x,hv,hx,hkey,hts⟩ := hheld
  rcases upsertOne_cases bincode db event with ⟨row,-,-,hskip⟩ | ⟨hle,hreplace⟩
  · rw [hskip]
    exact ⟨k,v,x,hv,hx,hkey,hts⟩
  · by_cases hsame : x.idxKey=event.idxKey ∧ x.tsMs≤event.tsMs
    · obtain ⟨w,y,z,hw,hz,hzk,hzt⟩ := held_upsertOne_self h event
      refine ⟨w,y,z,hw,hz,?_,(hts.trans hsame.2).trans hzt⟩
      rw [hzk,←hsame.1,hkey]
    · rw [hreplace]
      obtain ⟨hk,-⟩ := h.of_decode hv hx
      refine ⟨k,v,x,?_,hx,hkey,hts⟩
      rw [get_replaceRow_events,if_neg,if_neg,hv]
      · intro hold
        obtain ⟨w,y,hw,hy,hyk,hky,-⟩ := h.predecessor hold
        rw [hv,Option.some.injEq] at hw
        rw [←hw,hx,Option.some.injEq] at hy
        rw [←hy] at hyk
        have hrow := hle k hold
        rw [hk,rowTs,eventKey_eq_rowKey,fromBeBytes_rowKey,rowKey_length,
          if_pos (by omega)] at hrow
        exact hsame ⟨hyk,hrow⟩
      · intro hnew
        rw [hk,eventKey_eq_rowKey,eventKey_eq_rowKey,rowKey_inj] at hnew
        exact hsame ⟨hnew.2,hnew.1.le⟩

/-- One upsert adds its event. -/
theorem Agrees.upsertOne (h : Agrees bincode db events) {event : ServerEvent}
    (hd : event.Delimitable) :
    Agrees bincode (commit db (FjallStore.upsertOne bincode db event)) (events++[event]) := by
  refine ⟨h.aligned.upsertOne hd,?_,?_,?_⟩
  · intro e he
    rcases List.mem_append.mp he with he | he
    · exact h.delimitable e he
    · rwa [List.mem_singleton.mp he]
  · intro k v x hv hx
    rcases upsertOne_cases bincode db event with ⟨row,-,-,hskip⟩ | ⟨-,hreplace⟩
    · rw [hskip] at hv
      obtain ⟨e,he,hxe⟩ := h.row k v x hv hx
      exact ⟨e,List.mem_append_left _ he,hxe⟩
    · rw [hreplace,get_replaceRow_events] at hv
      split_ifs at hv with hnew hold
      · cases hv
        rw [decodeEvent_encodeEvent,Option.some.injEq] at hx
        exact ⟨event,List.mem_append_right _ (List.mem_singleton.mpr rfl),hx.symm⟩
      · obtain ⟨e,he,hxe⟩ := h.row k v x hv hx
        exact ⟨e,List.mem_append_left _ he,hxe⟩
  · intro e he
    rcases List.mem_append.mp he with he | he
    · exact (h.held e he).upsertOne h.aligned event
    · rw [List.mem_singleton.mp he]
      exact held_upsertOne_self h.aligned event

/-- Upserts one after another add their events. -/
theorem Agrees.upsertAll (h : Agrees bincode db events) {order : List ServerEvent}
    (hd : ∀ e∈order, e.Delimitable) :
    Agrees bincode (FjallBatches.upsertAll bincode db order) (events++order) := by
  induction order generalizing db events with
  | nil =>
    rw [List.append_nil]
    exact h
  | cons e order ih =>
    have hstep := ih (h.upsertOne (hd e List.mem_cons_self))
      fun x hx => hd x (List.mem_cons_of_mem _ hx)
    rw [List.append_assoc,List.singleton_append] at hstep
    exact hstep

/-- A list may grow by events that it already covers. -/
theorem Agrees.enlarge {more : List ServerEvent} (h : Agrees bincode db events)
    (hsub : ∀ e∈events, e∈more) (hd : ∀ e∈more, e.Delimitable)
    (hcov : ∀ e∈more, Covered events e.idxKey e.tsMs) : Agrees bincode db more := by
  refine ⟨h.aligned,hd,?_,?_⟩
  · intro k v x hv hx
    obtain ⟨e,he,hxe⟩ := h.row k v x hv hx
    exact ⟨e,hsub e he,hxe⟩
  · intro e he
    exact (h.held_iff _ _).mpr (hcov e he)

/-- Every mutation of the store does to the rows what it does to the live
events. -/
theorem Agrees.step (h : Agrees bincode db events) (op : StoreOp) (hd : op.Delimitable)
    (hstep : StoreStep bincode db op db') : Agrees bincode db' (liveAfter op events) := by
  cases op with
  | upsert more =>
    have hwin : ∀ e∈winners more, e.Delimitable := fun e he => hd e (mem_of_mem_winners he)
    rw [UpsertEvents.eq_upsertAll h.aligned hd hstep]
    refine (h.upsertAll hwin).enlarge ?_ ?_ ?_
    · intro e he
      rcases List.mem_append.mp he with he | he
      · exact List.mem_append_left _ he
      · exact List.mem_append_right _ (mem_of_mem_winners he)
    · intro e he
      rcases List.mem_append.mp he with he | he
      · exact h.delimitable e he
      · exact hd e he
    · intro e he
      rcases List.mem_append.mp he with he | he
      · exact ⟨e,List.mem_append_left _ he,rfl,le_rfl⟩
      · obtain ⟨w,hw,hwk,hwt⟩ := exists_winner he
        exact ⟨w,List.mem_append_right _ hw,hwk,hwt⟩
  | cleanup deviceId cutoffMs =>
    cases hstep
    refine ⟨aligned_cleanupOldDedup h.aligned _ _,h.delimitable,?_,?_⟩
    · intro k v x hv hx
      rw [get_cleanupOldDedup_of_ne _ _ _ (by decide)] at hv
      exact h.row k v x hv hx
    · intro e he
      obtain ⟨k,v,x,hv,hrest⟩ := h.held e he
      refine ⟨k,v,x,?_,hrest⟩
      rw [get_cleanupOldDedup_of_ne _ _ _ (by decide),hv]
  | delete deviceId =>
    cases hstep
    have hkept : ∀ {e : ServerEvent}, e∈events.filter (fun e => e.deviceId≠deviceId) →
        e∈events ∧ e.deviceId≠deviceId := by
      intro e he
      obtain ⟨hmem,hne⟩ := List.mem_filter.mp he
      exact ⟨hmem,of_decide_eq_true hne⟩
    refine ⟨aligned_deleteDeviceEvents h.aligned hd,fun e he => h.delimitable e (hkept he).1,?_,?_⟩
    · intro k v x hv hx
      obtain ⟨hv,hkeep⟩ := get_deleteDeviceEvents_events.mp hv
      obtain ⟨e,he,hxe⟩ := h.row k v x hv hx
      have hne := hkeep x hx
      rw [hxe] at hne
      exact ⟨e,List.mem_filter.mpr ⟨he,decide_eq_true hne⟩,hxe⟩
    · intro e he
      obtain ⟨hmem,hne⟩ := hkept he
      obtain ⟨k,v,x,hv,hx,hkey,hts⟩ := h.held e hmem
      obtain ⟨-,hxd⟩ := h.aligned.of_decode hv hx
      have hdev := idxKey_device hxd.1 (h.delimitable e hmem).1 hkey
      refine ⟨k,v,x,get_deleteDeviceEvents_events.mpr ⟨hv,fun y hy => ?_⟩,hx,hkey,hts⟩
      rw [hx,Option.some.injEq] at hy
      rw [←hy,hdev]
      exact hne

end

end TokiSync.FjallContents
