import TokiSync.OrderedEntries
import Mathlib.Data.Finset.Card

/-!
# Totals per key with a cap on the number of keys

Items are read in order and added to the total of their key. Once the number
of keys has reached the cap, an item of a new key is turned away and the tally
is marked truncated, while items of known keys still count. Every total is
that of all items of its key, and the mark says exactly whether the items have
more keys than the cap. Nothing here mentions a program.
-/

namespace TokiSync.CappedTallies

open TokiSync.OrderedEntries

variable {ε κ σ : Type} [LinearOrder κ]

/-- The totals so far, and whether an item has been turned away. -/
structure Tally (κ σ : Type) [LinearOrder κ] where
  /-- The total of each key. -/
  slots : OrderedMap κ σ
  /-- An item of a new key came after the cap was reached. -/
  truncated : Bool

section

variable (key : ε → κ) (add : σ → ε → σ) (fresh : σ) (cap : ℕ)

/-- Count one item. -/
def count (t : Tally κ σ) (e : ε) : Tally κ σ :=
  if cap≤t.slots.size ∧ (t.slots.get (key e)).isNone then { t with truncated := true }
  else { t with slots := t.slots.enter (key e) fun v => add (v.getD fresh) e }

/-- Count all items in order. -/
def tally (items : List ε) : Tally κ σ :=
  items.foldl (count key add fresh cap) ⟨OrderedMap.empty,false⟩

/-- Total of all items of one key, in their order. -/
def total (items : List ε) (k : κ) : σ :=
  (items.filter fun e => key e=k).foldl add fresh

/-- What counting some items has done. -/
structure Tallied (items : List ε) (t : Tally κ σ) : Prop where
  /-- What is stored under a key is the total of that key. -/
  totals : ∀ k v, t.slots.get k=some v → v=total key add fresh items k
  /-- Every stored key is the key of an item. -/
  keyed : ∀ k, (t.slots.get k).isSome → ∃ e∈items, key e=k
  /-- Without the mark every item has its key stored. -/
  complete : t.truncated=false → ∀ e∈items, (t.slots.get (key e)).isSome
  /-- The mark is set only at the cap, for an item whose key is not stored. -/
  turned : t.truncated=true → cap≤t.slots.size ∧ ∃ e∈items, t.slots.get (key e)=none
  /-- The cap is respected. -/
  bounded : t.slots.size≤cap

end

variable {key : ε → κ} {add : σ → ε → σ} {fresh : σ} {cap : ℕ} {items : List ε} {t : Tally κ σ}

theorem total_concat (items : List ε) (e : ε) (k : κ) :
    total key add fresh (items++[e]) k=
      if key e=k then add (total key add fresh items k) e else total key add fresh items k := by
  unfold total
  rw [List.filter_append]
  by_cases h : key e=k
  · simp [h]
  · simp [h]

/-- Nothing is stored under a key no item has. -/
theorem Tallied.total_fresh (h : Tallied key add fresh cap items t) (hopen : t.truncated=false)
    {k : κ} (hk : t.slots.get k=none) : total key add fresh items k=fresh := by
  unfold total
  have hnone : (items.filter fun e => key e=k)=[] := by
    rw [List.filter_eq_nil_iff]
    intro e he hkey
    have hsome := h.complete hopen e he
    rw [of_decide_eq_true hkey,hk] at hsome
    cases hsome
  rw [hnone]
  rfl

/-- An item of a new key at the cap is turned away. -/
theorem Tallied.turnAway (h : Tallied key add fresh cap items t) {e : ε} (hcap : cap≤t.slots.size)
    (habsent : t.slots.get (key e)=none) :
    Tallied key add fresh cap (items++[e]) {t with truncated := true} := by
  constructor
  · intro k v hv
    have hne : key e≠k := by
      intro hk
      rw [← hk,habsent] at hv
      cases hv
    rw [total_concat,if_neg hne]
    exact h.totals k v hv
  · intro k hk
    obtain ⟨e',he',hkey⟩ := h.keyed k hk
    exact ⟨e',List.mem_append_left _ he',hkey⟩
  · intro hopen
    cases hopen
  · intro _
    exact ⟨hcap,e,by simp,habsent⟩
  · exact h.bounded

/-- The total that an item is added to. -/
theorem Tallied.getD_eq_total (h : Tallied key add fresh cap items t) {e : ε}
    (hroom : cap≤t.slots.size → (t.slots.get (key e)).isSome) :
    (t.slots.get (key e)).getD fresh=total key add fresh items (key e) := by
  cases hold : t.slots.get (key e) with
  | some w => exact h.totals _ _ hold
  | none =>
    have hopen : t.truncated=false := by
      by_contra hmark
      have hknown := hroom (h.turned (by simpa using hmark)).1
      rw [hold] at hknown
      cases hknown
    exact (h.total_fresh hopen hold).symm

/-- An item of a known key, or below the cap, is added to the total of its key. -/
theorem Tallied.enter (h : Tallied key add fresh cap items t) {e : ε}
    (hroom : cap≤t.slots.size → (t.slots.get (key e)).isSome) :
    Tallied key add fresh cap (items++[e])
      {t with slots := t.slots.enter (key e) fun v => add (v.getD fresh) e} := by
  have hget : ∀ k, ((t.slots.enter (key e) fun v => add (v.getD fresh) e).get k)=
      if k=key e then some (add ((t.slots.get (key e)).getD fresh) e) else t.slots.get k :=
    fun k => t.slots.get_enter (key e) k _
  have hsize := t.slots.size_enter (key e) fun v => add (v.getD fresh) e
  constructor
  · intro k v hv
    rw [hget] at hv
    rw [total_concat]
    by_cases heq : k=key e
    · rw [if_pos heq] at hv
      rw [if_pos heq.symm,← Option.some.inj hv,heq,h.getD_eq_total hroom]
    · rw [if_neg heq] at hv
      rw [if_neg (Ne.symm heq)]
      exact h.totals k v hv
  · intro k hk
    rw [hget] at hk
    by_cases heq : k=key e
    · exact ⟨e,by simp,heq.symm⟩
    · rw [if_neg heq] at hk
      obtain ⟨e',he',hkey⟩ := h.keyed k hk
      exact ⟨e',List.mem_append_left _ he',hkey⟩
  · intro hopen e' he'
    rw [hget]
    by_cases heq : key e'=key e
    · rw [if_pos heq]
      rfl
    · rw [if_neg heq]
      rcases List.mem_append.mp he' with hold | hnew
      · exact h.complete hopen e' hold
      · exact absurd (congrArg key (List.mem_singleton.mp hnew)) heq
  · intro hmark
    obtain ⟨hcap,e',he',habsent⟩ := h.turned hmark
    refine ⟨?_,e',List.mem_append_left _ he',?_⟩
    · show cap≤(t.slots.enter (key e) _).size
      omega
    · show (t.slots.enter (key e) _).get (key e')=none
      have hne : key e'≠key e := by
        intro heq
        have hknown := hroom hcap
        rw [← heq,habsent] at hknown
        cases hknown
      rw [hget,if_neg hne]
      exact habsent
  · have hb := h.bounded
    show (t.slots.enter (key e) _).size≤cap
    rw [hsize]
    by_cases hknown : (t.slots.get (key e)).isSome
    · rw [if_pos hknown]
      exact hb
    · rw [if_neg hknown]
      have hbelow : ¬cap≤t.slots.size := fun hcap => hknown (hroom hcap)
      omega

/-- Counting one more item. -/
theorem Tallied.count (h : Tallied key add fresh cap items t) (e : ε) :
    Tallied key add fresh cap (items++[e]) (count key add fresh cap t e) := by
  unfold CappedTallies.count
  by_cases hfull : cap≤t.slots.size ∧ (t.slots.get (key e)).isNone
  · rw [if_pos hfull]
    exact h.turnAway hfull.1 (Option.isNone_iff_eq_none.mp hfull.2)
  · rw [if_neg hfull]
    refine h.enter fun hcap => ?_
    by_contra hunknown
    exact hfull ⟨hcap,by simpa using hunknown⟩

theorem Tallied.mem_keys (h : Tallied key add fresh cap items t) {k : κ}
    (hk : k∈t.slots.entries.map Prod.fst) : k∈(items.map key).dedup := by
  obtain ⟨e,he,hkey⟩ := h.keyed k (t.slots.isSome_get_iff.mpr hk)
  exact List.mem_dedup.mpr (List.mem_map.mpr ⟨e,he,hkey⟩)

/-- No more keys are stored than the items have. -/
theorem Tallied.size_le (h : Tallied key add fresh cap items t) :
    t.slots.size≤(items.map key).dedup.length := by
  have hsub : (t.slots.entries.map Prod.fst).Subperm (items.map key).dedup :=
    List.subperm_of_subset t.slots.nodup_keys fun k hk => h.mem_keys hk
  have hlength := hsub.length_le
  rwa [List.length_map] at hlength

/-- Without the mark all of them are stored. -/
theorem Tallied.le_size (h : Tallied key add fresh cap items t) (hopen : t.truncated=false) :
    (items.map key).dedup.length≤t.slots.size := by
  have hsub : (items.map key).dedup.Subperm (t.slots.entries.map Prod.fst) := by
    refine List.subperm_of_subset (List.nodup_dedup _) fun k hk => ?_
    obtain ⟨e,he,rfl⟩ := List.mem_map.mp (List.mem_dedup.mp hk)
    exact t.slots.isSome_get_iff.mp (h.complete hopen e he)
  have hlength := hsub.length_le
  rwa [List.length_map] at hlength

variable (key add fresh cap items)

/-- What a whole tally has done. -/
theorem tallied : Tallied key add fresh cap items (tally key add fresh cap items) := by
  have run : ∀ (later earlier : List ε) (t : Tally κ σ), Tallied key add fresh cap earlier t →
      Tallied key add fresh cap (earlier++later) (later.foldl (count key add fresh cap) t) := by
    intro later
    induction later with
    | nil =>
      intro earlier t h
      simpa using h
    | cons e later ih =>
      intro earlier t h
      have hnext := ih (earlier++[e]) _ (h.count e)
      simpa using hnext
  have start : Tallied key add fresh cap [] (⟨OrderedMap.empty,false⟩ : Tally κ σ) := by
    constructor
    · intro k v hv
      cases hv
    · intro k hk
      cases hk
    · intro _ e he
      cases he
    · intro hmark
      cases hmark
    · exact Nat.zero_le _
  have h := run items [] _ start
  rw [List.nil_append] at h
  exact h

omit [LinearOrder κ] in
/-- Items sorted by distinct keys that cover them are the items again. -/
theorem flatMap_filter_perm [DecidableEq κ] {keys : List κ} (hnodup : keys.Nodup)
    (hall : ∀ e∈items, key e∈keys) :
    (keys.flatMap fun k => items.filter fun e => key e=k).Perm items := by
  induction keys generalizing items with
  | nil =>
    have hnil : items=[] := List.eq_nil_iff_forall_not_mem.mpr fun e he => by simpa using hall e he
    rw [hnil]
    exact List.Perm.nil
  | cons k keys ih =>
    have hsplit := List.nodup_cons.mp hnodup
    have hrest : ∀ e∈items.filter fun e => !decide (key e=k), key e∈keys := by
      intro e he
      have hmem := List.mem_filter.mp he
      rcases List.mem_cons.mp (hall e hmem.1) with hk | hk
      · simp [hk] at hmem
      · exact hk
    have hsame : (keys.flatMap fun j => (items.filter fun e => !decide (key e=k)).filter
        fun e => key e=j)=keys.flatMap fun j => items.filter fun e => key e=j := by
      refine List.flatMap_congr fun j hj => ?_
      rw [List.filter_filter]
      refine List.filter_congr fun e _ => ?_
      by_cases he : key e=j
      · have hne : j≠k := fun h => hsplit.1 (h ▸ hj)
        simp [he,hne]
      · simp [he]
    have htail := ih (items.filter fun e => !decide (key e=k)) hsplit.2 hrest
    rw [hsame] at htail
    rw [List.flatMap_cons]
    exact (htail.append_left _).trans (List.filter_append_perm _ _)

/-- A tally is truncated exactly when its items have more keys than the cap. -/
theorem truncated_iff :
    (tally key add fresh cap items).truncated=true ↔ cap<(items.map key).dedup.length := by
  have h := tallied key add fresh cap items
  generalize tally key add fresh cap items=t at h
  constructor
  · intro hmark
    obtain ⟨hcap,e,he,habsent⟩ := h.turned hmark
    have hnew : key e∉t.slots.entries.map Prod.fst := by
      intro hmem
      have hsome := t.slots.isSome_get_iff.mpr hmem
      rw [habsent] at hsome
      cases hsome
    have hsub : (key e::t.slots.entries.map Prod.fst).Subperm (items.map key).dedup := by
      refine List.subperm_of_subset (List.nodup_cons.mpr ⟨hnew,t.slots.nodup_keys⟩) ?_
      intro k hk
      rcases List.mem_cons.mp hk with hk | hk
      · rw [hk,List.mem_dedup]
        exact List.mem_map_of_mem he
      · exact h.mem_keys hk
    have hlength := hsub.length_le
    have hsize : t.slots.size=(t.slots.entries.map Prod.fst).length := (List.length_map _).symm
    rw [List.length_cons] at hlength
    omega
  · intro hmany
    by_contra hopen
    have hall := h.le_size (by simpa using hopen)
    have hbound := h.bounded
    omega

variable {key add fresh cap items}

/-- Without the mark a key finds the total of its items, if it has any. -/
theorem get_tally (hopen : (tally key add fresh cap items).truncated=false) (k : κ) :
    (tally key add fresh cap items).slots.get k=
      if (items.filter fun e => key e=k)=[] then none else some (total key add fresh items k) := by
  have h := tallied key add fresh cap items
  generalize tally key add fresh cap items=t at h hopen
  cases hget : t.slots.get k with
  | none =>
    rw [if_pos]
    refine List.filter_eq_nil_iff.mpr fun e he hkey => ?_
    have hsome := h.complete hopen e he
    rw [of_decide_eq_true hkey,hget] at hsome
    cases hsome
  | some v =>
    rw [if_neg,h.totals k v hget]
    intro hnil
    obtain ⟨e,he,hkey⟩ := h.keyed k (by rw [hget]; rfl)
    exact List.filter_eq_nil_iff.mp hnil e he (decide_eq_true hkey)

/-- A part of the items has no more keys. -/
theorem truncated_of_subset {part : List ε} (hsub : ∀ e∈part, e∈items)
    (hopen : (tally key add fresh cap items).truncated=false) :
    (tally key add fresh cap part).truncated=false := by
  rw [← Bool.not_eq_true,truncated_iff] at hopen ⊢
  have hkeys : (part.map key).dedup.Subperm (items.map key).dedup := by
    refine List.subperm_of_subset (List.nodup_dedup _) fun k hk => ?_
    rw [List.mem_dedup] at hk ⊢
    obtain ⟨e,he,heq⟩ := List.mem_map.mp hk
    exact heq ▸ List.mem_map_of_mem (hsub e he)
  have hlength := hkeys.length_le
  omega

/-- The order of the items does not matter when those of one key may be added
in any order. -/
theorem tally_perm {reordered : List ε} (hperm : items.Perm reordered)
    (hopen : (tally key add fresh cap items).truncated=false)
    (hcomm : ∀ a b, key a=key b → ∀ v, add (add v a) b=add (add v b) a) :
    tally key add fresh cap reordered=tally key add fresh cap items := by
  have hopen' : (tally key add fresh cap reordered).truncated=false :=
    truncated_of_subset (fun e he => hperm.mem_iff.mpr he) hopen
  have hslots : (tally key add fresh cap reordered).slots=(tally key add fresh cap items).slots := by
    refine OrderedMap.ext_get fun k => ?_
    have hgroup := hperm.filter fun e => key e=k
    have htotal : total key add fresh reordered k=total key add fresh items k := by
      refine (hgroup.foldl_eq' (fun a ha b hb v => ?_) fresh).symm
      have hkeys : key a=key b :=
        (of_decide_eq_true (List.mem_filter.mp ha).2).trans
          (of_decide_eq_true (List.mem_filter.mp hb).2).symm
      exact hcomm a b hkeys v
    rw [get_tally hopen',get_tally hopen,htotal]
    by_cases hnil : (items.filter fun e => key e=k)=[]
    · rw [if_pos hnil,if_pos (List.Perm.nil_eq (hnil ▸ hgroup)).symm]
    · rw [if_neg hnil,if_neg]
      intro hnil'
      rw [hnil'] at hgroup
      exact hnil hgroup.eq_nil
  generalize tally key add fresh cap reordered=left at hslots hopen'
  generalize tally key add fresh cap items=right at hslots hopen
  cases left
  cases right
  cases hslots
  cases hopen.trans hopen'.symm
  rfl

/-- Counting only the items of some keys keeps the totals of these keys. -/
theorem tally_filter (p : κ → Bool) (hopen : (tally key add fresh cap items).truncated=false) :
    tally key add fresh cap (items.filter fun e => p (key e))=
      ⟨(tally key add fresh cap items).slots.filterKeys p,false⟩ := by
  have hopen' : (tally key add fresh cap (items.filter fun e => p (key e))).truncated=false :=
    truncated_of_subset (fun e he => (List.mem_filter.mp he).1) hopen
  have hslots : (tally key add fresh cap (items.filter fun e => p (key e))).slots=
      (tally key add fresh cap items).slots.filterKeys p := by
    refine OrderedMap.ext_get fun k => ?_
    rw [get_tally hopen',OrderedMap.get_filterKeys,get_tally hopen,total,total,List.filter_filter]
    cases hp : p k with
    | true =>
      have hgroup : (items.filter fun e => decide (key e=k) && p (key e))=
          items.filter fun e => key e=k := by
        refine List.filter_congr fun e _ => ?_
        by_cases he : key e=k
        · simp [he,hp]
        · simp [he]
      rw [hgroup]
      rfl
    | false =>
      have hgroup : (items.filter fun e => decide (key e=k) && p (key e))=[] := by
        refine List.filter_eq_nil_iff.mpr fun e _ => ?_
        by_cases he : key e=k
        · simp [he,hp]
        · simp [he]
      rw [hgroup]
      rfl
  generalize tally key add fresh cap (items.filter fun e => p (key e))=left at hslots hopen'
  cases left
  cases hslots
  cases hopen'
  rfl

/-- An item with the items in front of it, in a list one longer: it is one of
the list, or the new one. -/
theorem exists_split_concat {P : List ε → ε → Prop} {x : ε} :
    (∃ earlier e later, items++[x]=earlier++e::later ∧ P earlier e) ↔
      (∃ earlier e later, items=earlier++e::later ∧ P earlier e) ∨ P items x := by
  constructor
  · rintro ⟨earlier,e,later,hsplit,hfound⟩
    rcases List.eq_nil_or_concat later with rfl | ⟨later,y,rfl⟩
    · obtain ⟨rfl,hx⟩ := List.append_inj' hsplit rfl
      rw [List.cons.injEq] at hx
      exact .inr (hx.1 ▸ hfound)
    · have hshift : items++[x]=(earlier++e::later)++[y] := by simpa using hsplit
      obtain ⟨hitems,-⟩ := List.append_inj' hshift rfl
      exact .inl ⟨earlier,e,later,hitems,hfound⟩
  · rintro (⟨earlier,e,later,rfl,hfound⟩ | hfound)
    · exact ⟨earlier,e,later++[x],by simp,hfound⟩
    · exact ⟨items,x,[],rfl,hfound⟩

/-- A key is stored exactly when one of its items comes before the items have
as many keys as the cap. -/
theorem isSome_get_tally_iff (k : κ) : ((tally key add fresh cap items).slots.get k).isSome ↔
    ∃ earlier e later, items=earlier++e::later ∧ key e=k ∧ (earlier.map key).dedup.length<cap := by
  induction items using List.reverseRecOn with
  | nil =>
    refine iff_of_false (by intro h; cases h) ?_
    rintro ⟨earlier,e,later,hnil,-⟩
    exact absurd hnil (by simp)
  | append_singleton items x ih =>
    have hrun := tallied key add fresh cap items
    have hnext : tally key add fresh cap (items++[x])=
        count key add fresh cap (tally key add fresh cap items) x := by
      unfold tally
      rw [List.foldl_append]
      rfl
    rw [exists_split_concat,← ih,hnext,count]
    by_cases hfull : cap≤(tally key add fresh cap items).slots.size ∧
        ((tally key add fresh cap items).slots.get (key x)).isNone
    · rw [if_pos hfull]
      refine ⟨Or.inl,fun h => ?_⟩
      rcases h with h | h
      · exact h
      · have hle := hrun.size_le
        omega
    · rw [if_neg hfull,OrderedMap.get_enter]
      by_cases hk : k=key x
      · rw [if_pos hk]
        refine iff_of_true rfl ?_
        by_cases hroom : cap≤(tally key add fresh cap items).slots.size
        · left
          rw [hk]
          by_contra hnone
          exact hfull ⟨hroom,by simpa using hnone⟩
        · right
          refine ⟨hk.symm,?_⟩
          have hopen : (tally key add fresh cap items).truncated=false := by
            by_contra hmark
            exact hroom (hrun.turned (by simpa using hmark)).1
          have hle := hrun.le_size hopen
          omega
      · rw [if_neg hk]
        exact ⟨Or.inl,fun h => h.resolve_right fun h => hk h.1.symm⟩

end TokiSync.CappedTallies
