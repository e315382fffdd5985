import Mathlib

/-!
# Values merged from a collection, field by field

A value is merged from a list of observations when it is the result of merging
them pairwise along some binary tree whose leaves are the list. A field that
pairwise merging combines by maximum holds the greatest observed value
whatever the tree; one combined by minimum over the present values holds the
least of them; fields that travel together with a version are those of one
observation of greatest version. Observations, fields and the merge are
arbitrary.
-/

namespace TokiSync.FieldwiseMerge

section

variable {α β π : Type} [LinearOrder β] {merge : α → α → α}

/-- Results of merging the observations of a list along some tree. -/
inductive MergedFrom (merge : α → α → α) : List α → α → Prop where
  /-- A single observation is itself. -/
  | single (x : α) : MergedFrom merge [x] x
  /-- Two results are merged. -/
  | node {xs ys : List α} {a b : α} (left : MergedFrom merge xs a) (right : MergedFrom merge ys b) :
      MergedFrom merge (xs++ys) (merge a b)

/-- Nothing is merged from nothing. -/
theorem MergedFrom.ne_nil {xs : List α} {r : α} (h : MergedFrom merge xs r) : xs≠[] := by
  induction h with
  | single x => exact List.cons_ne_nil x []
  | node left right ihl ihr =>
    intro hnil
    exact ihl (List.append_eq_nil_iff.mp hnil).1

/-- Merging the observations of a list into a result, one after another. -/
theorem MergedFrom.foldl {xs : List α} {r : α} (h : MergedFrom merge xs r) (ys : List α) :
    MergedFrom merge (xs++ys) (ys.foldl merge r) := by
  induction ys generalizing xs r with
  | nil =>
    rw [List.append_nil]
    exact h
  | cons y ys ih =>
    have hstep := ih (h.node (.single y))
    rw [List.append_assoc,List.singleton_append] at hstep
    exact hstep

/-- A field combined by maximum holds the greatest observed value. -/
theorem MergedFrom.greatest {f : α → β} (hf : ∀ a b, f (merge a b)=max (f a) (f b))
    {xs : List α} {r : α} (h : MergedFrom merge xs r) : IsGreatest (f '' {x | x∈xs}) (f r) := by
  induction h with
  | single x =>
    refine ⟨⟨x,List.mem_singleton.mpr rfl,rfl⟩,?_⟩
    rintro _ ⟨y,hy,rfl⟩
    rw [List.mem_singleton.mp hy]
  | @node xs ys a b left right ihl ihr =>
    rw [hf]
    have hsplit : f '' {x | x∈xs++ys}=f '' {x | x∈xs}∪f '' {x | x∈ys} := by
      rw [←Set.image_union]
      congr 1
      ext x
      exact List.mem_append
    rw [hsplit]
    exact ihl.union ihr

/-- A field combined by minimum over its present values is present exactly
when some observation has it, and then holds the least of them. -/
theorem MergedFrom.least {f : α → Option β}
    (hf : ∀ a b, f (merge a b)=(f a).merge min (f b)) {xs : List α} {r : α}
    (h : MergedFrom merge xs r) :
    (f r=none ↔ ∀ x∈xs, f x=none) ∧ ∀ v, f r=some v → IsLeast {w | ∃ x∈xs, f x=some w} v := by
  induction h with
  | single x =>
    refine ⟨?_,?_⟩
    · simp only [List.mem_singleton,forall_eq]
    · intro v hv
      refine ⟨⟨x,List.mem_singleton.mpr rfl,hv⟩,?_⟩
      rintro w ⟨y,hy,hw⟩
      rw [List.mem_singleton.mp hy,hv,Option.some.injEq] at hw
      exact hw.le
  | @node xs ys a b left right ihl ihr =>
    have hsplit : {w | ∃ x∈xs++ys, f x=some w}=
        {w | ∃ x∈xs, f x=some w}∪{w | ∃ x∈ys, f x=some w} := by
      ext w
      simp only [List.mem_append,Set.mem_ofPred_eq,Set.mem_union]
      constructor
      · rintro ⟨x,hx | hx,hw⟩
        · exact Or.inl ⟨x,hx,hw⟩
        · exact Or.inr ⟨x,hx,hw⟩
      · rintro (⟨x,hx,hw⟩ | ⟨x,hx,hw⟩)
        · exact ⟨x,Or.inl hx,hw⟩
        · exact ⟨x,Or.inr hx,hw⟩
    have hempty : ∀ {zs : List α}, (∀ x∈zs, f x=none) → {w | ∃ x∈zs, f x=some w}=∅ := by
      intro zs hzs
      apply Set.eq_empty_of_forall_notMem
      rintro w ⟨x,hx,hw⟩
      rw [hzs x hx] at hw
      cases hw
    rw [hf,hsplit]
    constructor
    · rw [Option.merge_eq_none_iff,ihl.1,ihr.1]
      simp only [List.mem_append]
      constructor
      · rintro ⟨hl,hr⟩ x (hx | hx)
        · exact hl x hx
        · exact hr x hx
      · exact fun hall => ⟨fun x hx => hall x (Or.inl hx),fun x hx => hall x (Or.inr hx)⟩
    · intro v hv
      cases hfa : f a with
      | none =>
        rw [hfa,Option.merge_none_left] at hv
        rw [hempty (ihl.1.mp hfa),Set.empty_union]
        exact ihr.2 v hv
      | some va =>
        cases hfb : f b with
        | none =>
          rw [hfb,Option.merge_none_right] at hv
          rw [hempty (ihr.1.mp hfb),Set.union_empty]
          exact ihl.2 v hv
        | some vb =>
          rw [hfa,hfb,Option.merge_some_some,Option.some.injEq] at hv
          rw [←hv]
          exact (ihl.2 va hfa).union (ihr.2 vb hfb)

/-- The last one of the observations of greatest version. -/
def LastGreatest (version : α → β) (xs : List α) (x : α) : Prop :=
  ∃ before after, xs=before++x::after ∧ (∀ y∈before, version y≤version x) ∧
    ∀ y∈after, version y<version x

/-- The last observation of greatest version is one of the observations. -/
theorem LastGreatest.mem {version : α → β} {xs : List α} {x : α}
    (h : LastGreatest version xs x) : x∈xs := by
  obtain ⟨before,after,rfl,-,-⟩ := h
  exact List.mem_append_right _ List.mem_cons_self

/-- No observation exceeds the last one of greatest version. -/
theorem LastGreatest.le {version : α → β} {xs : List α} {x : α} (h : LastGreatest version xs x) :
    ∀ y∈xs, version y≤version x := by
  obtain ⟨before,after,rfl,hbefore,hafter⟩ := h
  intro y hy
  rcases List.mem_append.mp hy with hy | hy
  · exact hbefore y hy
  · rcases List.mem_cons.mp hy with rfl | hy
    · exact le_rfl
    · exact (hafter y hy).le

theorem lastGreatest_singleton (version : α → β) (x : α) : LastGreatest version [x] x :=
  ⟨[],[],rfl,fun _ hy => absurd hy List.not_mem_nil,fun _ hy => absurd hy List.not_mem_nil⟩

/-- Observations that are not exceeded by a later one come before it. -/
theorem LastGreatest.append_left {version : α → β} {xs ys : List α} {y : α}
    (h : LastGreatest version ys y) (hle : ∀ x∈xs, version x≤version y) :
    LastGreatest version (xs++ys) y := by
  obtain ⟨before,after,rfl,hbefore,hafter⟩ := h
  refine ⟨xs++before,after,(List.append_assoc ..).symm,fun x hx => ?_,hafter⟩
  rcases List.mem_append.mp hx with hx | hx
  · exact hle x hx
  · exact hbefore x hx

/-- Observations of smaller versions do not change the last greatest one. -/
theorem LastGreatest.append_right {version : α → β} {xs ys : List α} {x : α}
    (h : LastGreatest version xs x) (hlt : ∀ y∈ys, version y<version x) :
    LastGreatest version (xs++ys) x := by
  obtain ⟨before,after,rfl,hbefore,hafter⟩ := h
  refine ⟨before,after++ys,?_,hbefore,fun y hy => ?_⟩
  · rw [List.append_assoc,List.cons_append]
  · rcases List.mem_append.mp hy with hy | hy
    · exact hafter y hy
    · exact hlt y hy

/-- There is one last observation of greatest version. -/
theorem LastGreatest.unique {version : α → β} {xs : List α} {x y : α}
    (hx : LastGreatest version xs x) (hy : LastGreatest version xs y) : x=y := by
  have hversion : version x=version y := le_antisymm (hy.le x hx.mem) (hx.le y hy.mem)
  obtain ⟨before,after,hxs,-,hafter⟩ := hx
  obtain ⟨before',after',hys,-,hafter'⟩ := hy
  rw [hxs] at hys
  rcases List.append_eq_append_iff.mp hys with ⟨mid,-,hmid⟩ | ⟨mid,-,hmid⟩
  · cases mid with
    | nil => exact (List.cons.inj hmid).1
    | cons z mid =>
      have hlate : y∈after := by
        rw [(List.cons.inj hmid).2]
        exact List.mem_append_right _ List.mem_cons_self
      exact absurd hversion.symm (hafter y hlate).ne
  · cases mid with
    | nil => exact (List.cons.inj hmid).1.symm
    | cons z mid =>
      have hlate : x∈after' := by
        rw [(List.cons.inj hmid).2]
        exact List.mem_append_right _ List.mem_cons_self
      exact absurd hversion (hafter' x hlate).ne

/-- Fields that travel with a version, where the later observation wins a tie,
are those of the last observation of greatest version. -/
theorem MergedFrom.lastGreatest {version : α → β} {payload : α → π}
    (hv : ∀ a b, version (merge a b)=if version a≤version b then version b else version a)
    (hp : ∀ a b, payload (merge a b)=if version a≤version b then payload b else payload a)
    {xs : List α} {r : α} (h : MergedFrom merge xs r) :
    ∃ x, LastGreatest version xs x ∧ version r=version x ∧ payload r=payload x := by
  induction h with
  | single x => exact ⟨x,lastGreatest_singleton version x,rfl,rfl⟩
  | @node xs ys a b left right ihl ihr =>
    obtain ⟨x,hx,hvx,hpx⟩ := ihl
    obtain ⟨y,hy,hvy,hpy⟩ := ihr
    rw [hv,hp]
    by_cases hle : version a≤version b
    · rw [if_pos hle,if_pos hle]
      rw [hvx,hvy] at hle
      exact ⟨y,hy.append_left fun z hz => (hx.le z hz).trans hle,hvy,hpy⟩
    · rw [if_neg hle,if_neg hle]
      rw [hvx,hvy] at hle
      exact ⟨x,hx.append_right fun z hz => (hy.le z hz).trans_lt (not_le.mp hle),hvx,hpx⟩

/-- Fields that travel with a version: they are those of one observation whose
version no observation exceeds. -/
theorem MergedFrom.latest {version : α → β} {payload : α → π}
    (hv : ∀ a b, version (merge a b)=if version a≤version b then version b else version a)
    (hp : ∀ a b, payload (merge a b)=if version a≤version b then payload b else payload a)
    {xs : List α} {r : α} (h : MergedFrom merge xs r) :
    ∃ x∈xs, version r=version x ∧ payload r=payload x ∧ ∀ y∈xs, version y≤version x := by
  obtain ⟨x,hx,hversion,hpayload⟩ := h.lastGreatest hv hp
  exact ⟨x,hx.mem,hversion,hpayload,hx.le⟩

/-- A field that merging leaves as it was in the older result is that of the
first observation. -/
theorem MergedFrom.first {f : α → π} (hf : ∀ a b, f (merge a b)=f a) {xs : List α} {r : α}
    (h : MergedFrom merge xs r) : (xs.head?).map f=some (f r) := by
  induction h with
  | single x => rfl
  | @node xs ys a b left right ihl ihr =>
    have hne := left.ne_nil
    rw [hf,List.head?_append_of_ne_nil _ hne]
    exact ihl

end

end TokiSync.FieldwiseMerge
