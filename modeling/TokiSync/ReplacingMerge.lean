import Mathlib

/-!
# Keyed replacement by version

Items carry a key and a version in a linear order. A replacing table keeps,
for every key offered so far, one offered item of greatest version. The state
is a partial map from keys to kept items. Offering items one at a time, or
offering only the newest item of a whole group, keeps the same summary, and
without version ties the summary is a function of the offered set alone. A
map materializes a table when it holds one cell for every kept item.
-/

namespace TokiSync.ReplacingMerge

section

variable {ε κ ι : Type} [DecidableEq κ] [LinearOrder ι] (key : ε → κ) (version : ε → ι)

/-- An offered item of a key whose version no offered item of the key exceeds. -/
def Newest (items : List ε) (k : κ) (e : ε) : Prop :=
  e∈items ∧ key e=k ∧ ∀ x∈items, key x=k → version x≤version e

/-- A table holds a newest item for exactly the offered keys. -/
structure Keeps (items : List ε) (table : κ → Option ε) : Prop where
  /-- A key without a kept item was never offered. -/
  absent : ∀ k, table k=none → ∀ x∈items, key x≠k
  /-- A kept item is a newest one of its key. -/
  newest : ∀ k e, table k=some e → Newest key version items k e

/-- Offer one item; it replaces a kept item that is not strictly newer. -/
def absorb (table : κ → Option ε) (e : ε) : κ → Option ε :=
  match table (key e) with
  | some old => if version e<version old then table else Function.update table (key e) (some e)
  | none => Function.update table (key e) (some e)

/-- Offer one item; it replaces a kept item only when it is strictly newer. -/
def prefer (table : κ → Option ε) (e : ε) : κ → Option ε :=
  match table (key e) with
  | some old => if version old≥version e then table else Function.update table (key e) (some e)
  | none => Function.update table (key e) (some e)

variable {key version}

omit [DecidableEq κ] in
/-- Nothing offered, nothing kept. -/
theorem Keeps.nil : Keeps key version [] (fun _ => none) :=
  ⟨fun _ _ _ hx => absurd hx List.not_mem_nil,fun _ _ h => by cases h⟩

omit [DecidableEq κ] in
/-- The key of a kept item is the key it is kept under. -/
theorem Keeps.key_eq {items : List ε} {table : κ → Option ε} (h : Keeps key version items table)
    {k : κ} {e : ε} (he : table k=some e) : key e=k :=
  (h.newest k e he).2.1

/-- What is kept for a key after an absorbed item of that key. -/
theorem absorb_self (table : κ → Option ε) (e : ε) :
    absorb key version table e (key e)=some e ∨
      ∃ old, table (key e)=some old ∧ version e<version old ∧
        absorb key version table e=table := by
  unfold absorb
  cases hk : table (key e) with
  | none => exact Or.inl (Function.update_self ..)
  | some old =>
    dsimp only
    by_cases hv : version e<version old
    · exact Or.inr ⟨old,rfl,hv,if_pos hv⟩
    · rw [if_neg hv]
      exact Or.inl (Function.update_self ..)

/-- An absorbed item leaves the other keys alone. -/
theorem absorb_of_ne (table : κ → Option ε) {e : ε} {k : κ} (h : k≠key e) :
    absorb key version table e k=table k := by
  cases hk : table (key e) with
  | none => simp only [absorb,hk,Function.update_of_ne h]
  | some old =>
    by_cases hv : version e<version old
    · simp only [absorb,hk,if_pos hv]
    · simp only [absorb,hk,if_neg hv,Function.update_of_ne h]

/-- A strict preference leaves the other keys alone. -/
theorem prefer_of_ne (table : κ → Option ε) {e : ε} {k : κ} (h : k≠key e) :
    prefer key version table e k=table k := by
  cases hk : table (key e) with
  | none => simp only [prefer,hk,Function.update_of_ne h]
  | some old =>
    by_cases hv : version old≥version e
    · simp only [prefer,hk,if_pos hv]
    · simp only [prefer,hk,if_neg hv,Function.update_of_ne h]

/-- What is kept for a key after one more item depends on what was kept for it. -/
theorem prefer_congr {table table' : κ → Option ε} {k : κ} (h : table k=table' k) (e : ε) :
    prefer key version table e k=prefer key version table' e k := by
  by_cases hk : k=key e
  · rw [hk] at h ⊢
    cases hkept : table' (key e) with
    | none => simp only [prefer,h,hkept,Function.update_self]
    | some old =>
      by_cases hv : version old≥version e
      · simp only [prefer,h,hkept,if_pos hv]
      · simp only [prefer,h,hkept,if_neg hv,Function.update_self]
  · rw [prefer_of_ne table hk,prefer_of_ne table' hk,h]

/-- What is kept for a key does not depend on the items of other keys. -/
theorem foldl_prefer_filter {items : List ε} {p : ε → Bool} {k : κ}
    (hp : ∀ x∈items, key x=k → p x=true) {table table' : κ → Option ε} (h : table k=table' k) :
    (items.filter p).foldl (prefer key version) table k=
      items.foldl (prefer key version) table' k := by
  induction items generalizing table table' with
  | nil => exact h
  | cons x items ih =>
    have hrest : ∀ y∈items, key y=k → p y=true := fun y hy => hp y (List.mem_cons_of_mem _ hy)
    by_cases hx : p x=true
    · rw [List.filter_cons_of_pos hx,List.foldl_cons,List.foldl_cons]
      exact ih hrest (prefer_congr h x)
    · rw [List.filter_cons_of_neg hx,List.foldl_cons]
      have hk : k≠key x := fun heq => hx (hp x List.mem_cons_self heq.symm)
      refine ih hrest ?_
      rw [prefer_of_ne table' hk,h]

omit [DecidableEq κ] in
/-- An item that is offered last and is newest for its key stays newest when
more items of other keys have been offered. -/
theorem Newest.append_of_ne {items : List ε} {k : κ} {e x : ε} (h : Newest key version items k e)
    (hx : key x≠k) : Newest key version (items++[x]) k e := by
  refine ⟨List.mem_append_left _ h.1,h.2.1,fun y hy hyk => ?_⟩
  rcases List.mem_append.mp hy with hy | hy
  · exact h.2.2 y hy hyk
  · rw [List.mem_singleton.mp hy] at hyk
    exact absurd hyk hx

/-- A table stays a summary when one more item is offered and the entry of its
key is a newest one. -/
theorem Keeps.offer {items : List ε} {table table' : κ → Option ε} {e : ε}
    (h : Keeps key version items table) (hne : ∀ k, k≠key e → table' k=table k)
    (kept : ε) (hkept : table' (key e)=some kept)
    (hnew : Newest key version (items++[e]) (key e) kept) :
    Keeps key version (items++[e]) table' := by
  constructor
  · intro k hk x hx
    by_cases hke : k=key e
    · rw [hke,hkept] at hk
      cases hk
    · rw [hne k hke] at hk
      rcases List.mem_append.mp hx with hx | hx
      · exact h.absent k hk x hx
      · rw [List.mem_singleton.mp hx]
        exact fun heq => hke heq.symm
  · intro k y hy
    by_cases hke : k=key e
    · subst hke
      rw [hkept] at hy
      cases hy
      exact hnew
    · rw [hne k hke] at hy
      exact (h.newest k y hy).append_of_ne (Ne.symm hke)

omit [DecidableEq κ] in
/-- A kept item survives an older offer of its key. -/
theorem Newest.append_older {items : List ε} {e old : ε}
    (h : Newest key version items (key e) old) (hv : version e≤version old) :
    Newest key version (items++[e]) (key e) old := by
  refine ⟨List.mem_append_left _ h.1,h.2.1,fun y hy hyk => ?_⟩
  rcases List.mem_append.mp hy with hy | hy
  · exact h.2.2 y hy hyk
  · rw [List.mem_singleton.mp hy]
    exact hv

omit [DecidableEq κ] in
/-- An offer that no kept item of its key exceeds is newest. -/
theorem Keeps.newest_last {items : List ε} {table : κ → Option ε} {e : ε}
    (h : Keeps key version items table)
    (hv : ∀ old, table (key e)=some old → version old≤version e) :
    Newest key version (items++[e]) (key e) e := by
  refine ⟨List.mem_append_right _ (List.mem_singleton.mpr rfl),rfl,fun y hy hyk => ?_⟩
  rcases List.mem_append.mp hy with hy | hy
  · cases hk : table (key e) with
    | none => exact absurd hyk (h.absent _ hk y hy)
    | some old => exact ((h.newest _ _ hk).2.2 y hy hyk).trans (hv old hk)
  · rw [List.mem_singleton.mp hy]

/-- Absorbing keeps the summary. -/
theorem Keeps.absorb {items : List ε} {table : κ → Option ε} (h : Keeps key version items table)
    (e : ε) : Keeps key version (items++[e]) (absorb key version table e) := by
  have hne : ∀ k, k≠key e → ReplacingMerge.absorb key version table e k=table k :=
    fun k hk => absorb_of_ne table hk
  have hcases : ReplacingMerge.absorb key version table e (key e)=some e ∨
      ∃ old, table (key e)=some old ∧ version e<version old ∧
        ReplacingMerge.absorb key version table e=table := absorb_self table e
  rcases hcases with hself | ⟨old,hold,hv,hsame⟩
  · by_cases hex : ∃ old, table (key e)=some old ∧ version e<version old
    · obtain ⟨old,hold,hv⟩ := hex
      rw [ReplacingMerge.absorb,hold] at hself
      dsimp only at hself
      rw [if_pos hv,hold,Option.some.injEq] at hself
      rw [hself] at hv
      exact absurd hv (lt_irrefl _)
    · refine h.offer hne e hself (h.newest_last fun old hold => ?_)
      exact not_lt.mp fun hv => hex ⟨old,hold,hv⟩
  · refine h.offer hne old (by rw [hsame,hold]) ?_
    exact (h.newest _ _ hold).append_older hv.le

/-- Strict preference keeps the summary. -/
theorem Keeps.prefer {items : List ε} {table : κ → Option ε} (h : Keeps key version items table)
    (e : ε) : Keeps key version (items++[e]) (prefer key version table e) := by
  have hne : ∀ k, k≠key e → ReplacingMerge.prefer key version table e k=table k :=
    fun k hk => prefer_of_ne table hk
  cases hk : table (key e) with
  | none =>
    refine h.offer hne e ?_ (h.newest_last fun old hold => ?_)
    · simp only [ReplacingMerge.prefer,hk,Function.update_self]
    · rw [hk] at hold
      cases hold
  | some old =>
    by_cases hv : version old≥version e
    · refine h.offer hne old ?_ ((h.newest _ _ hk).append_older hv)
      simp only [ReplacingMerge.prefer,hk,if_pos hv]
    · refine h.offer hne e ?_ (h.newest_last fun old' hold => ?_)
      · simp only [ReplacingMerge.prefer,hk,if_neg hv,Function.update_self]
      · rw [hk,Option.some.injEq] at hold
        rw [←hold]
        exact (not_le.mp hv).le

/-- Offering a whole list by strict preference. -/
theorem Keeps.prefer_all {items : List ε} {table : κ → Option ε}
    (h : Keeps key version items table) (more : List ε) :
    Keeps key version (items++more) (more.foldl (ReplacingMerge.prefer key version) table) := by
  induction more generalizing items table with
  | nil => simpa only [List.append_nil,List.foldl_nil] using h
  | cons e more ih =>
    have hstep := ih (h.prefer e)
    rwa [List.append_assoc,List.singleton_append] at hstep

/-- What strict preference keeps for a key is the first offer of that key
which no other offer of the key exceeds. -/
theorem foldl_prefer_eq_find? (items : List ε) (k : κ) :
    items.foldl (ReplacingMerge.prefer key version) (fun _ => none) k=
      items.find? fun x => key x=k ∧ ∀ y∈items, key y=k → version y≤version x := by
  induction items using List.reverseRecOn with
  | nil => rfl
  | append_singleton items e ih =>
    have hkeeps : Keeps key version items (items.foldl (ReplacingMerge.prefer key version)
        fun _ => none) := Keeps.nil.prefer_all items
    rw [List.foldl_append,List.foldl_cons,List.foldl_nil,List.find?_append]
    by_cases hk : k=key e
    · subst hk
      cases hkept : items.foldl (ReplacingMerge.prefer key version) (fun _ => none) (key e) with
      | none =>
        have habsent := hkeeps.absent _ hkept
        rw [List.find?_eq_none.mpr,Option.none_or,List.find?_singleton,if_pos]
        · simp only [ReplacingMerge.prefer,hkept,Function.update_self]
        · refine decide_eq_true ⟨rfl,fun y hy hyk => ?_⟩
          rcases List.mem_append.mp hy with hy | hy
          · exact absurd hyk (habsent y hy)
          · rw [List.mem_singleton.mp hy]
        · intro x hx hpx
          exact habsent x hx (of_decide_eq_true hpx).1
      | some old =>
        obtain ⟨hmem,hold,hmax⟩ := hkeeps.newest _ _ hkept
        by_cases hv : version old≥version e
        · have hsame : ∀ x∈items, decide (key x=key e ∧ ∀ y∈items++[e], key y=key e →
              version y≤version x)=
              decide (key x=key e ∧ ∀ y∈items, key y=key e → version y≤version x) := by
            intro x hx
            refine decide_eq_decide.mpr (and_congr_right fun hxk => ?_)
            constructor
            · exact fun h y hy => h y (List.mem_append_left _ hy)
            · intro h y hy hyk
              rcases List.mem_append.mp hy with hy | hy
              · exact h y hy hyk
              · rw [List.mem_singleton.mp hy]
                exact hv.trans (h old hmem hold)
          rw [List.find?_congr hsame,←ih,hkept,Option.some_or]
          simp only [ReplacingMerge.prefer,hkept,if_pos hv]
        · rw [List.find?_eq_none.mpr,Option.none_or,List.find?_singleton,if_pos]
          · simp only [ReplacingMerge.prefer,hkept,if_neg hv,Function.update_self]
          · refine decide_eq_true ⟨rfl,fun y hy hyk => ?_⟩
            rcases List.mem_append.mp hy with hy | hy
            · exact (hmax y hy hyk).trans (not_le.mp hv).le
            · rw [List.mem_singleton.mp hy]
          · intro x hx hpx
            obtain ⟨hxk,hxmax⟩ := of_decide_eq_true hpx
            have hle := hxmax e (List.mem_append_right _ (List.mem_singleton.mpr rfl)) rfl
            exact hv (hle.trans (hmax x hx hxk))
    · have hsame : ∀ x∈items, decide (key x=k ∧ ∀ y∈items++[e], key y=k → version y≤version x)=
          decide (key x=k ∧ ∀ y∈items, key y=k → version y≤version x) := by
        intro x hx
        refine decide_eq_decide.mpr (and_congr_right fun hxk => ?_)
        constructor
        · exact fun h y hy => h y (List.mem_append_left _ hy)
        · intro h y hy hyk
          rcases List.mem_append.mp hy with hy | hy
          · exact h y hy hyk
          · rw [List.mem_singleton.mp hy] at hyk
            exact absurd hyk.symm hk
      have hlast : [e].find? (fun x => decide (key x=k ∧ ∀ y∈items++[e], key y=k →
          version y≤version x))=none := by
        refine List.find?_eq_none.mpr fun x hx hpx => ?_
        rw [List.mem_singleton.mp hx] at hpx
        exact hk (of_decide_eq_true hpx).1.symm
      rw [prefer_of_ne _ hk,ih,List.find?_congr hsame,hlast,Option.or_none]

/-- The newer one of two kept items, the first one when neither is newer. -/
def choose (version : ε → ι) : Option ε → Option ε → Option ε
  | some a,some b => if version a≥version b then some a else some b
  | some a,none => some a
  | none,kept => kept

@[simp] theorem choose_none_right (kept : Option ε) : choose version kept none=kept := by
  cases kept <;> rfl

/-- Of three kept items the first of the newest ones is chosen, however they
are grouped. -/
theorem choose_assoc (a b c : Option ε) :
    choose version (choose version a b) c=choose version a (choose version b c) := by
  cases a with
  | none => rfl
  | some a =>
    cases b with
    | none => rfl
    | some b =>
      cases c with
      | none => rw [choose_none_right,choose_none_right]
      | some c =>
        by_cases hab : version a≥version b
        · by_cases hbc : version b≥version c
          · simp only [choose,if_pos hab,if_pos hbc,if_pos (hbc.trans hab)]
          · simp only [choose,if_pos hab,if_neg hbc]
        · by_cases hbc : version b≥version c
          · simp only [choose,if_neg hab,if_pos hbc]
          · have hac : ¬version a≥version c := not_le.mpr ((not_le.mp hab).trans (not_le.mp hbc))
            simp only [choose,if_neg hab,if_neg hbc,if_neg hac]

/-- Strict preference chooses between what was kept and the new item. -/
theorem prefer_eq_choose (table : κ → Option ε) (e : ε) (k : κ) :
    prefer key version table e k=choose version (table k) (if k=key e then some e else none) := by
  by_cases hk : k=key e
  · subst hk
    rw [if_pos rfl]
    cases hkept : table (key e) with
    | none => simp only [ReplacingMerge.prefer,hkept,choose,Function.update_self]
    | some old =>
      by_cases hv : version old≥version e
      · simp only [ReplacingMerge.prefer,hkept,choose,if_pos hv]
      · simp only [ReplacingMerge.prefer,hkept,choose,if_neg hv,Function.update_self]
  · rw [prefer_of_ne table hk,if_neg hk,choose_none_right]

/-- Preference over a list chooses between what was kept before and what is
kept of the list alone. -/
theorem foldl_prefer_eq_choose (items : List ε) (table : κ → Option ε) (k : κ) :
    items.foldl (ReplacingMerge.prefer key version) table k=
      choose version (table k) (items.foldl (ReplacingMerge.prefer key version) (fun _ => none) k) := by
  induction items generalizing table with
  | nil => exact (choose_none_right _).symm
  | cons e items ih =>
    rw [List.foldl_cons,List.foldl_cons,ih,ih (prefer key version (fun _ => none) e),
      prefer_eq_choose,prefer_eq_choose,choose_assoc]
    rfl

/-- Offering a whole list by absorption. -/
theorem Keeps.absorb_all {items : List ε} {table : κ → Option ε}
    (h : Keeps key version items table) (more : List ε) :
    Keeps key version (items++more) (more.foldl (ReplacingMerge.absorb key version) table) := by
  induction more generalizing items table with
  | nil => simpa only [List.append_nil,List.foldl_nil] using h
  | cons e more ih =>
    have hstep := ih (h.absorb e)
    rwa [List.append_assoc,List.singleton_append] at hstep

/-- Absorbing a list leaves the keys that it does not have alone. -/
theorem foldl_absorb_of_notMem {items : List ε} {k : κ} (h : ∀ x∈items, key x≠k)
    (table : κ → Option ε) : items.foldl (ReplacingMerge.absorb key version) table k=table k := by
  induction items generalizing table with
  | nil => rfl
  | cons x items ih =>
    rw [List.foldl_cons,ih fun y hy => h y (List.mem_cons_of_mem x hy),
      absorb_of_ne table (Ne.symm (h x List.mem_cons_self))]

/-- Items of one version leave an item that is strictly newer. -/
theorem foldl_absorb_of_newer {items : List ε} {v : ι} (hv : ∀ x∈items, version x=v)
    {table : κ → Option ε} {k : κ} {old : ε} (hold : table k=some old) (hlt : v<version old) :
    items.foldl (ReplacingMerge.absorb key version) table k=some old := by
  induction items generalizing table with
  | nil => exact hold
  | cons x items ih =>
    refine ih (fun y hy => hv y (List.mem_cons_of_mem x hy)) ?_
    by_cases hk : k=key x
    · subst hk
      rw [←hv x List.mem_cons_self] at hlt
      rw [ReplacingMerge.absorb,hold]
      dsimp only
      rw [if_pos hlt,hold]
    · rw [absorb_of_ne table hk,hold]

/-- Of items of one version the last one of a key is kept, unless an item that
is strictly newer was kept before. -/
theorem foldl_absorb_of_not_newer {items : List ε} {v : ι} (hv : ∀ x∈items, version x=v)
    {table : κ → Option ε} {k : κ} (hle : ∀ old, table k=some old → version old≤v) {last : ε}
    (hlast : (items.filter fun x => key x=k).getLast?=some last) :
    items.foldl (ReplacingMerge.absorb key version) table k=some last := by
  induction items generalizing table with
  | nil => cases hlast
  | cons x items ih =>
    have hvs : ∀ y∈items, version y=v := fun y hy => hv y (List.mem_cons_of_mem x hy)
    by_cases hk : key x=k
    · have hself : ReplacingMerge.absorb key version table x k=some x := by
        subst hk
        unfold ReplacingMerge.absorb
        cases hold : table (key x) with
        | none => exact Function.update_self ..
        | some old =>
          have hnot : ¬version x<version old := by
            rw [hv x List.mem_cons_self]
            exact not_lt.mpr (hle old hold)
          dsimp only
          rw [if_neg hnot,Function.update_self]
      have hfilter : (x::items).filter (fun y => key y=k)=x::items.filter fun y => key y=k :=
        List.filter_cons_of_pos (decide_eq_true hk)
      rw [List.foldl_cons]
      rw [hfilter,List.getLast?_cons] at hlast
      cases hrest : (items.filter fun y => key y=k).getLast? with
      | some y =>
        rw [hrest] at hlast
        cases hlast
        refine ih hvs (fun old hold => ?_) hrest
        rw [hself] at hold
        cases hold
        exact (hv x List.mem_cons_self).le
      | none =>
        rw [hrest] at hlast
        cases hlast
        rw [foldl_absorb_of_notMem,hself]
        · rfl
        · intro y hy hyk
          rw [List.getLast?_eq_none_iff,List.filter_eq_nil_iff] at hrest
          exact hrest y hy (decide_eq_true hyk)
    · have hfilter : (x::items).filter (fun y => key y=k)=items.filter fun y => key y=k :=
        List.filter_cons_of_neg fun h => hk (of_decide_eq_true h)
      rw [hfilter] at hlast
      refine ih hvs (fun old hold => ?_) hlast
      rw [absorb_of_ne table (Ne.symm hk)] at hold
      exact hle old hold

omit [DecidableEq κ] in
/-- A summary of some offers is a summary of every larger list in which each
further item is dominated by a smaller offer of its own key. -/
theorem Keeps.enlarge {items more : List ε} {table : κ → Option ε}
    (h : Keeps key version items table) (hsub : ∀ x∈items, x∈more)
    (hdom : ∀ x∈more, ∃ y∈items, key y=key x ∧ version x≤version y) :
    Keeps key version more table := by
  constructor
  · intro k hk x hx hxk
    obtain ⟨y,hy,hyk,-⟩ := hdom x hx
    exact h.absent k hk y hy (hyk.trans hxk)
  · intro k e he
    obtain ⟨hm,hk,hmax⟩ := h.newest k e he
    refine ⟨hsub e hm,hk,fun x hx hxk => ?_⟩
    obtain ⟨y,hy,hyk,hv⟩ := hdom x hx
    exact hv.trans (hmax y hy (hyk.trans hxk))

omit [DecidableEq κ] in
/-- Items of the kept keys satisfying a property of keys alone. -/
theorem Keeps.filter {items : List ε} {table : κ → Option ε} (h : Keeps key version items table)
    (p : ε → Bool) (hp : ∀ x∈items, ∀ y∈items, key x=key y → p x=p y) :
    Keeps key version (items.filter p) (fun k => (table k).filter p) := by
  constructor
  · intro k hk x hx hxk
    obtain ⟨hxm,hxp⟩ := List.mem_filter.mp hx
    cases ht : table k with
    | none => exact h.absent k ht x hxm hxk
    | some e =>
      obtain ⟨hem,hek,-⟩ := h.newest k e ht
      have hpe : p e=true := (hp e hem x hxm (hek.trans hxk.symm)).trans hxp
      simp only [ht,Option.filter_some,hpe,if_true] at hk
      cases hk
  · intro k e he
    obtain ⟨ht,hpe⟩ := Option.filter_eq_some_iff.mp he
    obtain ⟨hem,hek,hmax⟩ := h.newest k e ht
    exact ⟨List.mem_filter.mpr ⟨hem,hpe⟩,hek,fun x hx => hmax x (List.mem_filter.mp hx).1⟩

/-- No two different offers share both key and version. -/
def Untied (key : ε → κ) (version : ε → ι) (items : List ε) : Prop :=
  ∀ x∈items, ∀ y∈items, key x=key y → version x=version y → x=y

omit [DecidableEq κ] in
/-- Without ties the summary depends only on which items were offered. -/
theorem Keeps.unique {items items' : List ε} {table table' : κ → Option ε}
    (h : Keeps key version items table) (h' : Keeps key version items' table')
    (hsame : ∀ x, x∈items ↔ x∈items') (hu : Untied key version items) : table=table' := by
  funext k
  cases ht : table k with
  | none =>
    cases ht' : table' k with
    | none => rfl
    | some e' =>
      obtain ⟨hm,hk,-⟩ := h'.newest k e' ht'
      exact absurd hk (h.absent k ht e' ((hsame e').mpr hm))
  | some e =>
    obtain ⟨hm,hk,hmax⟩ := h.newest k e ht
    cases ht' : table' k with
    | none => exact absurd hk (h'.absent k ht' e ((hsame e).mp hm))
    | some e' =>
      obtain ⟨hm',hk',hmax'⟩ := h'.newest k e' ht'
      have hle := hmax e' ((hsame e').mpr hm') hk'
      have hge := hmax' e ((hsame e).mp hm) hk
      rw [hu e hm e' ((hsame e').mpr hm') (hk.trans hk'.symm) (le_antisymm hge hle)]

end

section

variable {ε κ β ν : Type} [DecidableEq κ] [DecidableEq β]
variable (key : ε → κ) (cell : ε → β) (value : ε → Option ν)

/-- Every item sits under its own key. -/
def Keyed (table : κ → Option ε) : Prop := ∀ k e, table k=some e → key e=k

/-- A map holds exactly the cells of the kept items that have a value. -/
def Materializes (table : κ → Option ε) (map : β → Option ν) : Prop :=
  ∀ k v, map k=some v ↔ ∃ x, table (key x)=some x ∧ k=cell x ∧ value x=some v

variable {key cell value}

/-- Putting an item under its key keeps every item under its own key. -/
theorem Keyed.update {table : κ → Option ε} (h : Keyed key table) (e : ε) :
    Keyed key (Function.update table (key e) (some e)) := by
  intro k x hx
  by_cases hk : k=key e
  · rw [hk,Function.update_self,Option.some.injEq] at hx
    rw [←hx,hk]
  · rw [Function.update_of_ne hk] at hx
    exact h k x hx

/-- Replacing the item of a key: the old cell is emptied, then the new one is
written when it has a value. -/
theorem Materializes.replace {table : κ → Option ε} {map map' : β → Option ν} {e : ε}
    (h : Materializes key cell value table map) (hkeyed : Keyed key table)
    (hcell : ∀ x y, (x=e ∨ table (key x)=some x) → (y=e ∨ table (key y)=some y) →
      cell x=cell y → key x=key y)
    (hmap : ∀ k, map' k=if k=cell e ∧ (value e).isSome then value e
      else if ∃ old, table (key e)=some old ∧ k=cell old then none else map k) :
    Materializes key cell value (Function.update table (key e) (some e)) map' := by
  intro k v
  rw [hmap k]
  constructor
  · intro hv
    split_ifs at hv with hnew hold
    · exact ⟨e,Function.update_self ..,hnew.1,hv⟩
    · obtain ⟨x,hx,hk,hvx⟩ := (h k v).mp hv
      have hne : key x≠key e := by
        intro heq
        rw [heq] at hx
        exact hold ⟨x,hx,hk⟩
      exact ⟨x,by rw [Function.update_of_ne hne,hx],hk,hvx⟩
  · rintro ⟨x,hx,hk,hvx⟩
    by_cases hkx : key x=key e
    · rw [hkx,Function.update_self,Option.some.injEq] at hx
      subst hx
      have hsome : (value e).isSome := by rw [hvx,Option.isSome_some]
      rw [if_pos ⟨hk,hsome⟩,hvx]
    · rw [Function.update_of_ne hkx] at hx
      have hnew : ¬(k=cell e ∧ (value e).isSome) := by
        rintro ⟨hke,-⟩
        exact hkx (hcell x e (Or.inr hx) (Or.inl rfl) (hk.symm.trans hke))
      have hold : ¬∃ old, table (key e)=some old ∧ k=cell old := by
        rintro ⟨old,htab,hko⟩
        have hok := hkeyed _ _ htab
        have heq := hcell x old (Or.inr hx) (Or.inr (by rw [hok,htab])) (hk.symm.trans hko)
        exact hkx (heq.trans hok)
      rw [if_neg hnew,if_neg hold]
      exact (h k v).mpr ⟨x,hx,hk,hvx⟩

omit [DecidableEq κ] [DecidableEq β] in
/-- Dropping items: the cells of the dropped items are emptied. -/
theorem Materializes.filter {table : κ → Option ε} {map map' : β → Option ν} {p : ε → Bool}
    (h : Materializes key cell value table map)
    (hcell : ∀ x y, table (key x)=some x → table (key y)=some y → cell x=cell y → key x=key y)
    (hmap : ∀ k v, map' k=some v ↔ map k=some v ∧
      ¬∃ x, table (key x)=some x ∧ k=cell x ∧ p x=false) :
    Materializes key cell value (fun k => (table k).filter p) map' := by
  intro k v
  rw [hmap,h k v]
  constructor
  · rintro ⟨⟨x,hx,hk,hv⟩,hkeep⟩
    have hpx : p x=true := by
      by_contra hp
      exact hkeep ⟨x,hx,hk,Bool.eq_false_iff.mpr hp⟩
    exact ⟨x,by simp only [hx,Option.filter_some,hpx,if_true],hk,hv⟩
  · rintro ⟨x,hx,hk,hv⟩
    obtain ⟨hx,hpx⟩ := Option.filter_eq_some_iff.mp hx
    refine ⟨⟨x,hx,hk,hv⟩,?_⟩
    rintro ⟨y,hy,hky,hpy⟩
    have heq := hcell x y hx hy (hk.symm.trans hky)
    rw [heq,hy,Option.some.injEq] at hx
    rw [hx,hpx] at hpy
    cases hpy

omit [DecidableEq κ] [DecidableEq β] in
/-- A table has only one materialization. -/
theorem Materializes.unique {table : κ → Option ε} {map map' : β → Option ν}
    (h : Materializes key cell value table map) (h' : Materializes key cell value table map') :
    map=map' := by
  funext k
  apply Option.ext
  intro v
  rw [h k v,h' k v]

end

end TokiSync.ReplacingMerge
