import TokiSync.FjallRuns

/-!
# The embedded store as a replacing table

Without pruning, the pointers, rows, index copies and sessions of a run are
the materializations of one table that keeps, per dedup key, a newest event
uploaded since the last deletion of its device. A batch of upserts absorbs the
winners into the table and a deletion filters it. The table, and with it every
query, is a function of the live events as long as no two different events
share dedup key and time.
-/

namespace TokiSync.FjallReplacing

open MachineWords ByteKeys ByteCodec BatchedMaps ServerEvents FjallStore FjallCoherence
open FjallBatches FjallRuns Runs ReplacingMerge

/-- Kept event per dedup key. -/
abbrev Table := Bytes → Option ServerEvent

/-- The event keyspaces materialize a table. -/
structure Represents (bincode : Codec PersistedEvent) (db : Db) (table : Table) : Prop where
  /-- Events sit under their own dedup keys. -/
  keyed : Keyed ServerEvent.idxKey table
  /-- Kept events have delimiter-free ids. -/
  delimitable : ∀ K e, table K=some e → e.Delimitable
  /-- Every dedup key points at the row of its event. -/
  pointers : Materializes ServerEvent.idxKey ServerEvent.idxKey (fun e => some e.eventKey) table
    fun k : Bytes => (db .idxMsg)[k]?
  /-- Every event has a row. -/
  rows : Materializes ServerEvent.idxKey ServerEvent.eventKey
    (fun e => some (encodeEvent bincode e)) table fun k : Bytes => (db .events)[k]?
  /-- Every row has a copy under its user. -/
  copies : Materializes ServerEvent.idxKey (fun e => userIdxKey e.userId e.eventKey)
    (fun e => some (encodeEvent bincode e)) table fun k : Bytes => (db .idxUser)[k]?
  /-- Every non-empty session is stored under the row key. -/
  sessions : Materializes ServerEvent.idxKey ServerEvent.eventKey
    (fun e => if e.session="" then none else some (utf8 e.session)) table
    fun k : Bytes => (db .sessions)[k]?
  /-- Events never touch the windows. -/
  windows : ∀ k : Bytes, (db .windows)[k]?=none

section

variable {bincode : Codec PersistedEvent} {db : Db} {table : Table}

/-- Equal row keys have equal dedup keys. -/
theorem idxKey_of_eventKey {a b : ServerEvent} (h : a.eventKey=b.eventKey) : a.idxKey=b.idxKey := by
  rw [eventKey_eq_rowKey,eventKey_eq_rowKey,rowKey_inj] at h
  exact h.2

/-- Equal index keys of delimiter-free users have equal dedup keys. -/
theorem idxKey_of_userIdxKey {a b : ServerEvent} (ha : a.Delimitable) (hb : b.Delimitable)
    (h : userIdxKey a.userId a.eventKey=userIdxKey b.userId b.eventKey) : a.idxKey=b.idxKey :=
  idxKey_of_eventKey ((userIdxKey_inj ha.2 hb.2).mp h).2

/-- An empty store represents the empty table. -/
theorem represents_emptyDb : Represents bincode emptyDb fun _ => none := by
  have hnone : ∀ (cell : ServerEvent → Bytes) (value : ServerEvent → Option Bytes)
      (name : KeyspaceName), Materializes ServerEvent.idxKey cell value (fun _ => none)
        fun k : Bytes => (emptyDb name)[k]? := by
    intro cell value name k v
    simp only [emptyDb,get_emptyMaps]
    constructor
    · intro h
      cases h
    · rintro ⟨x,hx,-⟩
      cases hx
  have hkeyed : Keyed ServerEvent.idxKey (fun _ : Bytes => (none : Option ServerEvent)) := by
    intro K e he
    cases he
  have hdel : ∀ (K : Bytes) (e : ServerEvent), (none : Option ServerEvent)=some e →
      e.Delimitable := by
    intro K e he
    cases he
  exact ⟨hkeyed,hdel,hnone _ _ _,hnone _ _ _,hnone _ _ _,hnone _ _ _,
    fun k => get_emptyMaps _ k⟩

/-- The pointer of a dedup key is the row key of its kept event. -/
theorem Represents.get_idxMsg (h : Represents bincode db table) (K : Bytes) :
    (db .idxMsg)[K]?=(table K).map ServerEvent.eventKey := by
  apply Option.ext
  intro row
  have hp := h.pointers K row
  dsimp only at hp
  rw [hp,Option.map_eq_some_iff]
  constructor
  · rintro ⟨x,hx,hK,hrow⟩
    cases hrow
    exact ⟨x,by rw [hK,hx],rfl⟩
  · rintro ⟨x,hx,hrow⟩
    have hK := h.keyed K x hx
    exact ⟨x,by rw [hK,hx],hK.symm,congrArg some hrow⟩

/-- The row of a kept event. -/
theorem Represents.get_row (h : Represents bincode db table) {K : Bytes} {e : ServerEvent}
    (he : table K=some e) : (db .events)[e.eventKey]?=some (encodeEvent bincode e) := by
  have hK := h.keyed K e he
  exact (h.rows _ _).mpr ⟨e,by rw [hK,he],rfl,rfl⟩

/-- A represented store has aligned keys and pointers. -/
theorem Represents.aligned (h : Represents bincode db table) : Aligned bincode db := by
  constructor
  · intro k v hv
    obtain ⟨e,he,hk,hve⟩ := (h.rows k v).mp hv
    cases hve
    have hd : ServerEvent.Delimitable {e with session := ""} := h.delimitable _ e he
    exact ⟨_,decodeEvent_encodeEvent bincode e,hk,hd⟩
  · intro dedup k hk
    obtain ⟨e,he,hd,hke⟩ := (h.pointers dedup k).mp hk
    cases hke
    exact ⟨_,_,h.get_row he,decodeEvent_encodeEvent bincode e,hd.symm⟩

/-- The windows keyspace is outside every lane. -/
theorem get_upsertOne_windows (h : Aligned bincode db) {event : ServerEvent}
    (hd : event.Delimitable) (k : Bytes) :
    (commit db (upsertOne bincode db event) .windows)[k]?=(db .windows)[k]? := by
  refine get_commit_of_untouched (fun op hop heq => ?_) db
  have hlane := upsertOne_inLane h hd op hop
  rw [heq] at hlane
  exact hlane

/-- Replacing the row of an event puts the event into the table. -/
theorem Represents.replaceRow (h : Represents bincode db table) {event : ServerEvent}
    (hd : event.Delimitable)
    (hwindows : ∀ k : Bytes, (commit db (FjallCoherence.replaceRow bincode
      (db .idxMsg)[event.idxKey]? (oldUser bincode db event) event) .windows)[k]?=none) :
    Represents bincode (commit db (FjallCoherence.replaceRow bincode (db .idxMsg)[event.idxKey]?
      (oldUser bincode db event) event)) (Function.update table event.idxKey (some event)) := by
  have hdel : ∀ x, x=event ∨ table x.idxKey=some x → x.Delimitable := by
    rintro x (rfl | hx)
    · exact hd
    · exact h.delimitable _ x hx
  have hold : ∀ k, (db .idxMsg)[event.idxKey]?=some k ↔
      ∃ old, table event.idxKey=some old ∧ k=old.eventKey := by
    intro k
    rw [h.get_idxMsg,Option.map_eq_some_iff]
    simp only [@eq_comm _ k]
  have huser : ∀ old, table event.idxKey=some old → oldUser bincode db event=old.userId := by
    intro old htab
    have hrow : (db .idxMsg)[event.idxKey]?=some old.eventKey := by
      rw [h.get_idxMsg,htab,Option.map_some]
    simp only [oldUser,hrow,Option.elim_some,rowUser,h.get_row htab,Option.bind_some,
      decodeEvent_encodeEvent]
  refine ⟨h.keyed.update event,?_,?_,?_,?_,?_,hwindows⟩
  · intro K e he
    by_cases hK : K=event.idxKey
    · rw [hK,Function.update_self,Option.some.injEq] at he
      rwa [←he]
    · rw [Function.update_of_ne hK] at he
      exact h.delimitable K e he
  · refine h.pointers.replace h.keyed (fun x y _ _ heq => heq) fun k => ?_
    rw [get_replaceRow_idxMsg]
    by_cases hk : k=event.idxKey
    · rw [if_pos hk,if_pos ⟨hk,rfl⟩]
    · rw [if_neg hk,if_neg fun hc => hk hc.1,if_neg]
      rintro ⟨old,htab,hko⟩
      exact hk (hko.trans (h.keyed _ _ htab))
  · refine h.rows.replace h.keyed (fun x y _ _ heq => idxKey_of_eventKey heq) fun k => ?_
    rw [get_replaceRow_events]
    simp only [hold,Option.isSome_some,and_true]
  · refine h.copies.replace h.keyed
      (fun x y hx hy heq => idxKey_of_userIdxKey (hdel x hx) (hdel y hy) heq) fun k => ?_
    rw [get_replaceRow_idxUser]
    have hiff : (∃ row, (db .idxMsg)[event.idxKey]?=some row ∧
        k=userIdxKey (oldUser bincode db event) row) ↔
        ∃ old, table event.idxKey=some old ∧ k=userIdxKey old.userId old.eventKey := by
      constructor
      · rintro ⟨row,hrow,hk⟩
        obtain ⟨old,htab,hro⟩ := (hold row).mp hrow
        exact ⟨old,htab,by rw [hk,huser old htab,hro]⟩
      · rintro ⟨old,htab,hk⟩
        exact ⟨old.eventKey,(hold _).mpr ⟨old,htab,rfl⟩,by rw [hk,huser old htab]⟩
    simp only [hiff,Option.isSome_some,and_true]
  · refine h.sessions.replace h.keyed (fun x y _ _ heq => idxKey_of_eventKey heq) fun k => ?_
    rw [get_replaceRow_sessions]
    by_cases hs : event.session=""
    · simp only [hold,hs,ne_eq,not_true_eq_false,and_false,if_true,if_false,Option.isSome_none,
        Bool.false_eq_true]
    · simp only [hold,hs,ne_eq,not_false_eq_true,and_true,if_false,Option.isSome_some]

/-- An upsert absorbs its event into the table. -/
theorem Represents.upsertOne (h : Represents bincode db table) {event : ServerEvent}
    (hd : event.Delimitable) :
    Represents bincode (commit db (FjallStore.upsertOne bincode db event))
      (absorb ServerEvent.idxKey ServerEvent.tsMs table event) := by
  have hptr := h.get_idxMsg event.idxKey
  have hwindows : ∀ k : Bytes,
      (commit db (FjallStore.upsertOne bincode db event) .windows)[k]?=none := by
    intro k
    rw [get_upsertOne_windows h.aligned hd,h.windows]
  have hts : ∀ old : ServerEvent, rowTs old.eventKey=old.tsMs := by
    intro old
    rw [rowTs,eventKey_eq_rowKey,fromBeBytes_rowKey,if_pos]
    rw [rowKey_length]
    omega
  rcases upsertOne_cases bincode db event with ⟨row,hrow,hlt,hskip⟩ | ⟨hle,hreplace⟩
  · rw [hptr] at hrow
    obtain ⟨old,htab,rfl⟩ := Option.map_eq_some_iff.mp hrow
    rw [hts] at hlt
    have hsame : absorb ServerEvent.idxKey ServerEvent.tsMs table event=table := by
      simp only [absorb,htab,if_pos hlt]
    rw [hskip,hsame]
    exact h
  · have hput : absorb ServerEvent.idxKey ServerEvent.tsMs table event=
        Function.update table event.idxKey (some event) := by
      cases htab : table event.idxKey with
      | none => simp only [absorb,htab]
      | some old =>
        have hto := hle old.eventKey (by rw [hptr,htab,Option.map_some])
        rw [hts] at hto
        simp only [absorb,htab,if_neg (not_lt.mpr hto)]
    rw [hput]
    rw [hreplace] at hwindows ⊢
    exact h.replaceRow hd hwindows

/-- Upserts one after another absorb their events in turn. -/
theorem Represents.upsertAll (h : Represents bincode db table) {order : List ServerEvent}
    (hd : ∀ e∈order, e.Delimitable) :
    Represents bincode (FjallBatches.upsertAll bincode db order)
      (order.foldl (absorb ServerEvent.idxKey ServerEvent.tsMs) table) := by
  induction order generalizing db table with
  | nil => exact h
  | cons e order ih =>
    exact ih (h.upsertOne (hd e List.mem_cons_self)) fun x hx => hd x (List.mem_cons_of_mem _ hx)

/-- The cells a deletion empties, in terms of the kept events. -/
theorem Represents.deleted_iff (h : Represents bincode db table) {deviceId : String}
    (hd : NulFree (utf8 deviceId)) (cell : KeyspaceName×Bytes) :
    Deleted bincode db deviceId cell ↔ ∃ x, table x.idxKey=some x ∧ x.deviceId=deviceId ∧
      (cell=(.idxUser,userIdxKey x.userId x.eventKey) ∨ cell=(.idxMsg,x.idxKey) ∨
        cell=(.sessions,x.eventKey) ∨ cell=(.events,x.eventKey)) := by
  constructor
  · rintro (⟨k,v,e,hv,he,hdev,hcell⟩ | ⟨hname,hpre,row,hrow⟩)
    · obtain ⟨x,hx,hk,hvx⟩ := (h.rows k v).mp hv
      cases hvx
      rw [decodeEvent_encodeEvent,Option.some.injEq] at he
      rw [←he] at hdev hcell
      rw [hk] at hcell
      exact ⟨x,hx,hdev,hcell⟩
    · obtain ⟨name,K⟩ := cell
      obtain ⟨x,hx,hK,-⟩ := (h.pointers K row).mp hrow
      dsimp only at hname hpre hK
      rw [hK,delimited_prefix_of_device hd (h.delimitable _ x hx).1] at hpre
      exact ⟨x,hx,hpre.symm,Or.inr (Or.inl (by rw [hname,hK]))⟩
  · rintro ⟨x,hx,hdev,hcell⟩
    exact Or.inl ⟨x.eventKey,_,_,h.get_row hx,decodeEvent_encodeEvent bincode x,hdev,hcell⟩

/-- A deletion filters the table. -/
theorem Represents.deleteDeviceEvents (h : Represents bincode db table) {deviceId : String}
    (hd : NulFree (utf8 deviceId)) :
    Represents bincode (FjallStore.deleteDeviceEvents bincode db deviceId)
      (fun K => (table K).filter fun e => e.deviceId≠deviceId) := by
  have hkept : ∀ {K : Bytes} {e : ServerEvent},
      ((table K).filter fun e => e.deviceId≠deviceId)=some e → table K=some e :=
    fun he => (Option.filter_eq_some_iff.mp he).1
  have hmap : ∀ (name : KeyspaceName) (cell : ServerEvent → Bytes),
      (∀ k, Deleted bincode db deviceId (name,k) ↔
        ∃ x, table x.idxKey=some x ∧ k=cell x ∧ decide (x.deviceId≠deviceId)=false) →
      ∀ k v : Bytes, (FjallStore.deleteDeviceEvents bincode db deviceId name)[k]?=some v ↔
        (db name)[k]?=some v ∧
          ¬∃ x, table x.idxKey=some x ∧ k=cell x ∧ decide (x.deviceId≠deviceId)=false := by
    intro name cell hcell k v
    rw [get_deleteDeviceEvents,hcell]
  have hpoint : ∀ x : ServerEvent, decide (x.deviceId≠deviceId)=false ↔ x.deviceId=deviceId := by
    intro x
    rw [decide_eq_false_iff_not,not_not]
  refine ⟨fun K e he => h.keyed K e (hkept he),fun K e he => h.delimitable K e (hkept he),
    ?_,?_,?_,?_,?_⟩
  · refine h.pointers.filter (fun x y _ _ heq => heq) (hmap .idxMsg _ fun k => ?_)
    simp only [h.deleted_iff hd,hpoint,Prod.mk.injEq,reduceCtorEq,false_and,true_and,false_or,
      or_false,and_comm]
  · refine h.rows.filter (fun x y _ _ heq => idxKey_of_eventKey heq) (hmap .events _ fun k => ?_)
    simp only [h.deleted_iff hd,hpoint,Prod.mk.injEq,reduceCtorEq,false_and,true_and,false_or,
      and_comm]
  · refine h.copies.filter (fun x y hx hy heq => idxKey_of_userIdxKey (h.delimitable _ x hx)
      (h.delimitable _ y hy) heq) (hmap .idxUser _ fun k => ?_)
    simp only [h.deleted_iff hd,hpoint,Prod.mk.injEq,reduceCtorEq,false_and,true_and,or_false,
      and_comm]
  · refine h.sessions.filter (fun x y _ _ heq => idxKey_of_eventKey heq)
      (hmap .sessions _ fun k => ?_)
    simp only [h.deleted_iff hd,hpoint,Prod.mk.injEq,reduceCtorEq,false_and,true_and,false_or,
      or_false,and_comm]
  · intro k
    cases hk : (FjallStore.deleteDeviceEvents bincode db deviceId .windows)[k]? with
    | none => rfl
    | some v =>
      obtain ⟨hv,-⟩ := (get_deleteDeviceEvents _ _ _ _ _).mp hk
      rw [h.windows] at hv
      cases hv

end

/-- Whether a mutation prunes dedup pointers. -/
def StoreOp.Prunes : StoreOp → Prop
  | .cleanup _ _ => True
  | _ => False

instance : DecidablePred StoreOp.Prunes
  | .upsert _ => isFalse id
  | .cleanup _ _ => isTrue trivial
  | .delete _ => isFalse id

section

variable {bincode : Codec PersistedEvent} {history : List StoreOp} {db : Db}

/-- Live events have delimiter-free ids. -/
theorem delimitable_of_live (hd : ∀ op∈history, op.Delimitable) :
    ∀ e∈live history, e.Delimitable := by
  induction history with
  | nil => exact fun e he => absurd he List.not_mem_nil
  | cons op past ih =>
    have hpast := ih fun x hx => hd x (List.mem_cons_of_mem _ hx)
    intro e he
    cases op with
    | upsert events =>
      rcases List.mem_append.mp he with he | he
      · exact hpast e he
      · exact hd _ List.mem_cons_self e he
    | cleanup deviceId cutoffMs => exact hpast e he
    | delete deviceId => exact hpast e (List.mem_filter.mp he).1

/-- Every run without pruning represents a table that keeps a newest live
event of every dedup key. -/
theorem Represents.of_run (run : Run (StoreStep bincode) emptyDb history db)
    (hd : ∀ op∈history, op.Delimitable) (hp : ∀ op∈history, ¬StoreOp.Prunes op) :
    ∃ table, Represents bincode db table ∧
      Keeps ServerEvent.idxKey ServerEvent.tsMs (live history) table := by
  refine Run.invariant_of (A:=fun history => ∀ op∈history, op.Delimitable ∧ ¬StoreOp.Prunes op)
    forall_mem_tail (I:=fun history db => ∃ table, Represents bincode db table ∧
      Keeps ServerEvent.idxKey ServerEvent.tsMs (live history) table)
    ⟨_,represents_emptyDb,Keeps.nil⟩ ?_ (fun op hop => ⟨hd op hop,hp op hop⟩) run
  intro past db op db' _ hA ih hstep
  obtain ⟨table,hrep,hkeeps⟩ := ih
  have hpast : ∀ x∈past, x.Delimitable := fun x hx => (hA x (List.mem_cons_of_mem _ hx)).1
  obtain ⟨hop,hnop⟩ := hA op List.mem_cons_self
  cases op with
  | upsert events =>
    have hwin : ∀ e∈winners events, e.Delimitable := fun e he => hop e (mem_of_mem_winners he)
    rw [UpsertEvents.eq_upsertAll hrep.aligned hop hstep]
    refine ⟨_,hrep.upsertAll hwin,(hkeeps.absorb_all (winners events)).enlarge ?_ ?_⟩
    · intro x hx
      rcases List.mem_append.mp hx with hx | hx
      · exact List.mem_append_left _ hx
      · exact List.mem_append_right _ (mem_of_mem_winners hx)
    · intro x hx
      rcases List.mem_append.mp hx with hx | hx
      · exact ⟨x,List.mem_append_left _ hx,rfl,le_rfl⟩
      · obtain ⟨w,hw,hwk,hwt⟩ := exists_winner hx
        exact ⟨w,List.mem_append_right _ hw,hwk,hwt⟩
  | cleanup deviceId cutoffMs => exact absurd trivial hnop
  | delete deviceId =>
    cases hstep
    refine ⟨_,hrep.deleteDeviceEvents hop,hkeeps.filter _ ?_⟩
    intro x hx y hy hxy
    have hdev := idxKey_device (delimitable_of_live hpast x hx).1
      (delimitable_of_live hpast y hy).1 hxy
    rw [hdev]

/-- Stores that represent the same table are equal. -/
theorem Represents.unique {table : Table} {db' : Db} (h : Represents bincode db table)
    (h' : Represents bincode db' table) : db=db' := by
  apply maps_ext
  intro name k
  cases name with
  | events => exact congrFun (h.rows.unique h'.rows) k
  | idxMsg => exact congrFun (h.pointers.unique h'.pointers) k
  | idxUser => exact congrFun (h.copies.unique h'.copies) k
  | sessions => exact congrFun (h.sessions.unique h'.sessions) k
  | windows => exact (h.windows k).trans (h'.windows k).symm

/-- The session text read back for a kept event. -/
theorem Represents.loadSession {table : Table} (h : Represents bincode db table) {K : Bytes}
    {e : ServerEvent} (he : table K=some e) : FjallStore.loadSession db e.eventKey=e.session := by
  have hK := h.keyed K e he
  unfold FjallStore.loadSession
  cases hs : (db .sessions)[e.eventKey]? with
  | none =>
    by_cases hempty : e.session=""
    · exact hempty.symm
    · have hsome : (db .sessions)[e.eventKey]?=some (utf8 e.session) :=
        (h.sessions _ _).mpr ⟨e,by rw [hK,he],rfl,if_neg hempty⟩
      rw [hs] at hsome
      cases hsome
  | some bytes =>
    obtain ⟨x,hx,hkx,hv⟩ := (h.sessions _ _).mp hs
    have heq := idxKey_of_eventKey hkx
    rw [←heq,hK,he,Option.some.injEq] at hx
    rw [←hx] at hv
    dsimp only at hv
    split_ifs at hv
    rw [Option.some.injEq] at hv
    rw [Option.bind_some,←hv,fromUTF8_utf8,Option.getD_some]

/-- Replacement by time: every dedup key with a live event has exactly one
row, it is a newest live event of the key, session included, and every query
is a function of the live events unless two of them share key and time. -/
theorem store_replaces (bincode : Codec PersistedEvent) {history : List StoreOp} {db : Db}
    (run : Run (StoreStep bincode) emptyDb history db) (hd : ∀ op∈history, op.Delimitable)
    (hp : ∀ op∈history, ¬StoreOp.Prunes op) :
    (∀ K, (∃ e∈live history, e.idxKey=K) → ∃ e∈live history, e.idxKey=K ∧
      (∀ x∈live history, x.idxKey=K → x.tsMs≤e.tsMs) ∧
      (db .events)[e.eventKey]?=some (encodeEvent bincode e) ∧
      FjallStore.loadSession db e.eventKey=e.session ∧
      ∀ (k v : Bytes) (x : ServerEvent), (db .events)[k]?=some v → decodeEvent bincode v=some x →
        x.idxKey=K → k=e.eventKey) ∧
    ∀ (history' : List StoreOp) (db' : Db), Run (StoreStep bincode) emptyDb history' db' →
      (∀ op∈history', op.Delimitable) → (∀ op∈history', ¬StoreOp.Prunes op) →
      (∀ e, e∈live history ↔ e∈live history') →
      Untied ServerEvent.idxKey ServerEvent.tsMs (live history) →
      ∀ sinceMs untilMs filter limit, queryEvents bincode db sinceMs untilMs filter limit=
        queryEvents bincode db' sinceMs untilMs filter limit := by
  obtain ⟨table,hrep,hkeeps⟩ := Represents.of_run run hd hp
  constructor
  · rintro K ⟨x,hx,hxK⟩
    cases hK : table K with
    | none => exact absurd hxK (hkeeps.absent K hK x hx)
    | some e =>
      obtain ⟨hmem,hkey,hmax⟩ := hkeeps.newest K e hK
      refine ⟨e,hmem,hkey,hmax,hrep.get_row hK,hrep.loadSession hK,?_⟩
      intro k v y hv hy hyK
      obtain ⟨z,hz,hk,hvz⟩ := (hrep.rows k v).mp hv
      cases hvz
      rw [decodeEvent_encodeEvent,Option.some.injEq] at hy
      rw [←hy] at hyK
      have hzK : z.idxKey=K := hyK
      rw [hzK,hK,Option.some.injEq] at hz
      rw [hk,hz]
  · intro history' db' run' hd' hp' hsame huntied sinceMs untilMs filter limit
    obtain ⟨table',hrep',hkeeps'⟩ := Represents.of_run run' hd' hp'
    have htab := hkeeps.unique hkeeps' hsame huntied
    rw [←htab] at hrep'
    rw [hrep.unique hrep']

end

/-- The sample versions uploaded in one batch. -/
def joinedDb : Db :=
  upsertEvents eventLayout.codec emptyDb [sampleEvent 5 "s",sampleEvent 4 ""]

/-- The sample versions uploaded in two batches, the newer one first. -/
def splitDb : Db :=
  upsertEvents eventLayout.codec (upsertEvents eventLayout.codec emptyDb [sampleEvent 5 "s"])
    [sampleEvent 4 ""]

/-- Both ways to upload the sample versions answer alike. -/
theorem store_replaces_sample :
    (∃ e∈live [.upsert [sampleEvent 5 "s",sampleEvent 4 ""]],
      e.idxKey=(sampleEvent 4 "").idxKey ∧
      (joinedDb .events)[e.eventKey]?=some (encodeEvent eventLayout.codec e)) ∧
    queryEvents eventLayout.codec joinedDb 0 100 .all 10=
      queryEvents eventLayout.codec splitDb 0 100 .all 10 := by
  have joined : Run (StoreStep eventLayout.codec) emptyDb
      [.upsert [sampleEvent 5 "s",sampleEvent 4 ""]] joinedDb :=
    .next _ .start ⟨_,.refl _,rfl⟩
  have split : Run (StoreStep eventLayout.codec) emptyDb
      [.upsert [sampleEvent 4 ""],.upsert [sampleEvent 5 "s"]] splitDb :=
    .next _ (.next _ .start ⟨_,.refl _,rfl⟩) ⟨_,.refl _,rfl⟩
  obtain ⟨hrows,hqueries⟩ := store_replaces eventLayout.codec joined (by decide) (by decide)
  have hsame : ∀ e, e∈live [.upsert [sampleEvent 5 "s",sampleEvent 4 ""]] ↔
      e∈live [.upsert [sampleEvent 4 ""],.upsert [sampleEvent 5 "s"]] := by
    intro e
    simp only [live,liveAfter,List.nil_append,List.cons_append,List.mem_cons,List.not_mem_nil,or_false]
  have huntied : Untied ServerEvent.idxKey ServerEvent.tsMs
      (live [.upsert [sampleEvent 5 "s",sampleEvent 4 ""]]) := by
    unfold Untied
    decide
  obtain ⟨e,he,hek,-,hrow,-⟩ := hrows (sampleEvent 4 "").idxKey ⟨sampleEvent 4 "",by decide,rfl⟩
  exact ⟨⟨e,he,hek,hrow⟩,hqueries _ _ split (by decide) (by decide) hsame huntied 0 100 .all 10⟩

end TokiSync.FjallReplacing
