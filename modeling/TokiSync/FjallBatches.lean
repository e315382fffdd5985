import TokiSync.FjallCoherence
import TokiSync.ReplacingMerge

/-!
# Upserts of whole batches

An upsert visits the winners of its batch in the unspecified order of a hash
map and reads only the committed state. The winners have pairwise different
dedup keys, so their writes stay in different lanes: the batch commits the
same state as the upserts of the winners one after another, in any order.
-/

namespace TokiSync.FjallBatches

open MachineWords ByteKeys ByteCodec BatchedMaps ServerEvents FjallStore FjallCoherence
open ReplacingMerge

/-- Offering an event to the winner map is a strict preference. -/
theorem getElem?_offerWinner (winner : Std.ExtTreeMap Bytes ServerEvent compare)
    (event : ServerEvent) : (fun k : Bytes => (offerWinner winner event)[k]?)=
      prefer ServerEvent.idxKey ServerEvent.tsMs (fun k : Bytes => winner[k]?) event := by
  have hinsert : (fun k : Bytes => (winner.insert event.idxKey event)[k]?)=
      Function.update (fun k : Bytes => winner[k]?) event.idxKey (some event) := by
    funext k
    rw [Std.ExtTreeMap.getElem?_insert,Function.update_apply]
    simp only [Std.LawfulEqCmp.compare_eq_iff_eq,@eq_comm _ event.idxKey k]
  cases hw : winner[event.idxKey]? with
  | none => simp only [offerWinner,prefer,hw,hinsert]
  | some existing =>
    by_cases hts : existing.tsMs≥event.tsMs
    · simp only [offerWinner,prefer,hw,if_pos hts]
    · simp only [offerWinner,prefer,hw,if_neg hts,hinsert]

/-- The winner map is the strict preference of the newest event per dedup key. -/
theorem getElem?_winnerMap (events : List ServerEvent) (k : Bytes) :
    (winnerMap events)[k]?=
      events.foldl (prefer ServerEvent.idxKey ServerEvent.tsMs) (fun _ => none) k := by
  have hfold : ∀ (winner : Std.ExtTreeMap Bytes ServerEvent compare),
      (fun k : Bytes => (events.foldl offerWinner winner)[k]?)=
        events.foldl (prefer ServerEvent.idxKey ServerEvent.tsMs) (fun k : Bytes => winner[k]?) := by
    induction events with
    | nil => exact fun _ => rfl
    | cons event events ih =>
      intro winner
      rw [List.foldl_cons,ih,getElem?_offerWinner,List.foldl_cons]
  have hempty : (fun k : Bytes => (∅ : Std.ExtTreeMap Bytes ServerEvent compare)[k]?)=
      fun _ => none := by
    funext k
    exact Std.ExtTreeMap.getElem?_empty
  have hrun := hfold ∅
  rw [hempty] at hrun
  exact congrFun hrun k

/-- The winner map keeps a newest event of every dedup key of the batch. -/
theorem winnerMap_keeps (events : List ServerEvent) :
    Keeps ServerEvent.idxKey ServerEvent.tsMs events (fun k : Bytes => (winnerMap events)[k]?) := by
  have hfun : (fun k : Bytes => (winnerMap events)[k]?)=
      events.foldl (prefer ServerEvent.idxKey ServerEvent.tsMs) (fun _ => none) :=
    funext fun k => getElem?_winnerMap events k
  rw [hfun]
  exact Keeps.nil.prefer_all events

/-- A winner is the value kept for its own dedup key. -/
theorem mem_winners {events : List ServerEvent} {e : ServerEvent} :
    e∈winners events ↔ (winnerMap events)[e.idxKey]?=some e := by
  simp only [winners,List.mem_map,Prod.exists,Std.ExtTreeMap.mem_toList_iff_getElem?_eq_some]
  constructor
  · rintro ⟨k,x,hx,rfl⟩
    rw [(winnerMap_keeps events).key_eq hx]
    exact hx
  · exact fun h => ⟨e.idxKey,e,h,rfl⟩

/-- Winners are events of the batch. -/
theorem mem_of_mem_winners {events : List ServerEvent} {e : ServerEvent} (h : e∈winners events) :
    e∈events :=
  ((winnerMap_keeps events).newest _ _ (mem_winners.mp h)).1

/-- Every event of a batch has a winner of its dedup key that is not older. -/
theorem exists_winner {events : List ServerEvent} {e : ServerEvent} (h : e∈events) :
    ∃ w∈winners events, w.idxKey=e.idxKey ∧ e.tsMs≤w.tsMs := by
  have hk := winnerMap_keeps events
  cases hw : (winnerMap events)[e.idxKey]? with
  | none => exact absurd rfl (hk.absent _ hw e h)
  | some w =>
    obtain ⟨-,hwk,hmax⟩ := hk.newest _ _ hw
    refine ⟨w,mem_winners.mpr ?_,hwk,hmax e h rfl⟩
    rw [hwk,hw]

/-- Two winners have different dedup keys. -/
theorem winners_pairwise (events : List ServerEvent) :
    (winners events).Pairwise (fun a b => a.idxKey≠b.idxKey) := by
  rw [winners,List.pairwise_map]
  refine List.Pairwise.imp_of_mem ?_ (Std.ExtTreeMap.distinct_keys_toList (t:=winnerMap events))
  intro a b ha hb hab heq
  rw [Std.ExtTreeMap.mem_toList_iff_getElem?_eq_some] at ha hb
  have hka := (winnerMap_keeps events).key_eq ha
  have hkb := (winnerMap_keeps events).key_eq hb
  rw [hka,hkb] at heq
  exact hab (Std.LawfulEqCmp.compare_eq_iff_eq.mpr heq)

/-- The winner of a dedup key does not depend on the events of other keys. -/
theorem winnerMap_filter {events : List ServerEvent} {p : ServerEvent → Bool} {k : Bytes}
    (hp : ∀ e∈events, e.idxKey=k → p e=true) :
    (winnerMap (events.filter p))[k]?=(winnerMap events)[k]? := by
  rw [getElem?_winnerMap,getElem?_winnerMap]
  exact foldl_prefer_filter hp rfl

/-- Dropping all events of some dedup keys drops their winners. -/
theorem winners_filter {events : List ServerEvent} {p : ServerEvent → Bool}
    (hp : ∀ a∈events, ∀ b∈events, a.idxKey=b.idxKey → p a=p b) :
    ((winners events).filter p).Perm (winners (events.filter p)) := by
  have hnodup : ∀ events, (winners events).Nodup := fun events =>
    (winners_pairwise events).imp fun hne heq => hne (congrArg ServerEvent.idxKey heq)
  refine (List.perm_ext_iff_of_nodup ((hnodup _).filter _) (hnodup _)).mpr fun e => ?_
  rw [List.mem_filter]
  constructor
  · rintro ⟨hwin,hpe⟩
    have hmem := mem_of_mem_winners hwin
    rw [mem_winners,winnerMap_filter fun x hx hxk => (hp x hx e hmem hxk).trans hpe]
    exact mem_winners.mp hwin
  · intro hwin
    obtain ⟨hmem,hpe⟩ := List.mem_filter.mp (mem_of_mem_winners hwin)
    refine ⟨?_,hpe⟩
    rw [mem_winners,winnerMap_filter fun x hx hxk => (hp x hx e hmem hxk).trans hpe] at hwin
    exact mem_winners.mpr hwin

/-- Any order of the winners has pairwise different dedup keys. -/
theorem order_pairwise {events order : List ServerEvent} (h : order.Perm (winners events)) :
    order.Pairwise (fun a b => a.idxKey≠b.idxKey) :=
  (h.pairwise_iff fun hab => Ne.symm hab).mpr (winners_pairwise events)

section

variable (bincode : Codec PersistedEvent)

/-- Upserts one after another, each reading what the ones before committed. -/
def upsertAll (db : Db) (order : List ServerEvent) : Db :=
  order.foldl (fun acc event => commit acc (upsertOne bincode acc event)) db

variable {bincode}

/-- The writes of an upsert depend on the pointer of its dedup key and on the
row it names. -/
theorem upsertOne_congr {db db' : Db} {event : ServerEvent}
    (hpointer : (db' .idxMsg)[event.idxKey]?=(db .idxMsg)[event.idxKey]?)
    (hrow : ∀ row : Bytes, (db .idxMsg)[event.idxKey]?=some row →
      (db' .events)[row]?=(db .events)[row]?) :
    upsertOne bincode db' event=upsertOne bincode db event := by
  unfold upsertOne
  rw [hpointer]
  cases hp : (db .idxMsg)[event.idxKey]? with
  | none => rfl
  | some row =>
    dsimp only
    rw [rowUser,rowUser,hrow row hp]

/-- An upsert does not change what an upsert of another dedup key writes. -/
theorem upsertOne_commit_other {db : Db} (h : Aligned bincode db) {a b : ServerEvent}
    (ha : a.Delimitable) (hne : a.idxKey≠b.idxKey) :
    upsertOne bincode (commit db (upsertOne bincode db a)) b=upsertOne bincode db b := by
  have hlane : ∀ cell, InLane b.idxKey cell → ∀ op∈upsertOne bincode db a, op.cell≠cell := by
    intro cell hb op hop heq
    have hin := upsertOne_inLane h ha op hop
    rw [heq] at hin
    exact hne (hin.unique hb)
  apply upsertOne_congr
  · exact get_commit_of_untouched (hlane (.idxMsg,b.idxKey) rfl) db
  · intro row hrow
    obtain ⟨v,e,-,-,hek,hrowkey,-⟩ := h.predecessor hrow
    refine get_commit_of_untouched (hlane (.events,row) ⟨e.tsMs,?_⟩) db
    rw [hrowkey,eventKey_eq_rowKey,hek]

/-- Upserts one after another keep keys and pointers aligned. -/
theorem aligned_upsertAll {db : Db} (h : Aligned bincode db) {order : List ServerEvent}
    (hd : ∀ e∈order, e.Delimitable) : Aligned bincode (upsertAll bincode db order) := by
  induction order generalizing db with
  | nil => exact h
  | cons e order ih =>
    exact ih (h.upsertOne (hd e List.mem_cons_self)) fun x hx => hd x (List.mem_cons_of_mem _ hx)

/-- Upserts one after another keep the registered owners and the mirrored
index. -/
theorem mirrored_upsertAll {own : String → Option String} {db : Db} (hm : Mirrored bincode db)
    (h : Aligned bincode db) (ho : Owned bincode own db) {order : List ServerEvent}
    (hd : ∀ e∈order, e.Delimitable) (hu : ∀ e∈order, own e.deviceId=some e.userId) :
    Mirrored bincode (upsertAll bincode db order) ∧
      Owned bincode own (upsertAll bincode db order) := by
  induction order generalizing db with
  | nil => exact ⟨hm,ho⟩
  | cons e order ih =>
    have hde := hd e List.mem_cons_self
    have hue := hu e List.mem_cons_self
    exact ih (hm.upsertOne h ho hde hue) (h.upsertOne hde) (ho.upsertOne hue)
      (fun x hx => hd x (List.mem_cons_of_mem _ hx)) fun x hx => hu x (List.mem_cons_of_mem _ hx)

/-- One batch of upserts of different dedup keys, all read from the same
committed state, commits what the upserts one after another commit. -/
theorem upsertInOrder_eq_upsertAll {db : Db} (h : Aligned bincode db) {order : List ServerEvent}
    (hd : ∀ e∈order, e.Delimitable) (hn : order.Pairwise (fun a b => a.idxKey≠b.idxKey)) :
    upsertInOrder bincode db order=upsertAll bincode db order := by
  have hfold : ∀ (rest : List ServerEvent) (acc : Db), Aligned bincode acc →
      (∀ e∈rest, e.Delimitable) → rest.Pairwise (fun a b => a.idxKey≠b.idxKey) →
      (∀ e∈rest, upsertOne bincode acc e=upsertOne bincode db e) →
      rest.foldl (fun acc e => commit acc (upsertOne bincode db e)) acc=
        upsertAll bincode acc rest := by
    intro rest
    induction rest with
    | nil => exact fun _ _ _ _ _ => rfl
    | cons e rest ih =>
      intro acc hacc hrd hrn hsame
      have hde := hrd e List.mem_cons_self
      have hse := hsame e List.mem_cons_self
      obtain ⟨hne,hrn⟩ := List.pairwise_cons.mp hrn
      rw [List.foldl_cons,upsertAll,List.foldl_cons,hse]
      refine ih _ ?_ (fun x hx => hrd x (List.mem_cons_of_mem _ hx)) hrn fun x hx => ?_
      · rw [←hse]
        exact hacc.upsertOne hde
      · rw [←hse,upsertOne_commit_other hacc hde (hne x hx)]
        exact hsame x (List.mem_cons_of_mem _ hx)
  rw [upsertInOrder,commit_flatMap]
  exact hfold order db h hd hn fun _ _ => rfl

/-- The order in which the winners are visited does not matter. -/
theorem upsertInOrder_order {db : Db} (h : Aligned bincode db) {events order : List ServerEvent}
    (hd : ∀ e∈events, e.Delimitable) (hp : order.Perm (winners events)) :
    upsertInOrder bincode db order=upsertEvents bincode db events := by
  refine commit_flatMap_perm hp _ ?_ db
  refine List.Pairwise.imp_of_mem ?_ (order_pairwise hp)
  intro a b ha hb hne
  exact upsertOne_independent h (hd a (mem_of_mem_winners (hp.mem_iff.mp ha)))
    (hd b (mem_of_mem_winners (hp.mem_iff.mp hb))) hne

/-- Whatever order an upsert takes, it ends in the state of the winners
upserted one after another in key order. -/
theorem UpsertEvents.eq_upsertAll {db db' : Db} (h : Aligned bincode db)
    {events : List ServerEvent} (hd : ∀ e∈events, e.Delimitable)
    (hup : UpsertEvents bincode db events db') : db'=upsertAll bincode db (winners events) := by
  obtain ⟨order,hp,rfl⟩ := hup
  rw [upsertInOrder_order h hd hp]
  exact upsertInOrder_eq_upsertAll h (fun e he => hd e (mem_of_mem_winners he))
    (winners_pairwise events)

/-- Cells outside the lanes of its events survive a batch. -/
theorem get_upsertInOrder_of_other {db : Db} (h : Aligned bincode db) {order : List ServerEvent}
    (hd : ∀ e∈order, e.Delimitable) {name : KeyspaceName} {k : Bytes}
    (hother : ∀ e∈order, ¬InLane e.idxKey (name,k)) :
    (upsertInOrder bincode db order name)[k]?=(db name)[k]? := by
  refine get_commit_of_untouched (fun op hop heq => ?_) db
  obtain ⟨e,he,hop⟩ := List.mem_flatMap.mp hop
  have hlane := upsertOne_inLane h (hd e he) op hop
  rw [heq] at hlane
  exact hother e he hlane

/-- A batch leaves in the lane of one of its events what the upsert of that
event alone leaves there. -/
theorem get_upsertInOrder_of_inLane {db : Db} (h : Aligned bincode db) {order : List ServerEvent}
    (hd : ∀ e∈order, e.Delimitable) (hn : order.Pairwise (fun a b => a.idxKey≠b.idxKey))
    {event : ServerEvent} (hevent : event∈order) {name : KeyspaceName} {k : Bytes}
    (hlane : InLane event.idxKey (name,k)) : (upsertInOrder bincode db order name)[k]?=
      (commit db (upsertOne bincode db event) name)[k]? := by
  obtain ⟨before,after,rfl⟩ := List.append_of_mem hevent
  have huntouched : ∀ events : List ServerEvent, (∀ e∈events, e.Delimitable) →
      (∀ e∈events, e.idxKey≠event.idxKey) → ∀ db',
      (commit db' (events.flatMap (upsertOne bincode db)) name)[k]?=(db' name)[k]? := by
    intro events hed hne db'
    refine get_commit_of_untouched (fun op hop heq => ?_) db'
    obtain ⟨e,he,hop⟩ := List.mem_flatMap.mp hop
    have hin := upsertOne_inLane h (hed e he) op hop
    rw [heq] at hin
    exact hne e he (hin.unique hlane)
  obtain ⟨-,hafter,hbefore⟩ := List.pairwise_append.mp hn
  have hafter := (List.pairwise_cons.mp hafter).1
  rw [upsertInOrder,List.flatMap_append,List.flatMap_cons,commit_append,commit_append,
    huntouched after (fun e he => hd e (List.mem_append_right _ (List.mem_cons_of_mem _ he)))
      (fun e he => Ne.symm (hafter e he))]
  refine get_commit_congr _ ?_
  exact huntouched before (fun e he => hd e (List.mem_append_left _ he))
    (fun e he => hbefore e he event List.mem_cons_self) db

end

end TokiSync.FjallBatches
