import Mathlib.Data.Int.ConditionallyCompleteOrder
import Mathlib.Data.Int.LeastGreatest
import Mathlib.Data.Set.Card
import Mathlib.Order.Interval.Finset.Basic
import Mathlib.Data.Int.Interval

/-!
# Counting the values of a function that moves in steps

A function of the integers that moves by at most one from a place to the next
takes every value between two it takes. So the number of its values on an
interval is bounded exactly when their differences are. Nothing here mentions
a program.
-/

namespace TokiSync.SteppedCounts

/-- Functions that tell the same places apart take equally many values. -/
theorem encard_image_congr {ι κ μ : Type} {f : ι → κ} {g : ι → μ} {places : Set ι}
    (h : ∀ a∈places, ∀ b∈places, f a=f b ↔ g a=g b) :
    (f '' places).encard=(g '' places).encard := by
  obtain ⟨chosen,hsub,hbij⟩ := (Set.surjOn_image f places).exists_bijOn_subset
  have hinj : Set.InjOn g chosen := by
    intro a ha b hb hab
    exact hbij.injOn ha hb ((h a (hsub ha) b (hsub hb)).mpr hab)
  have himage : g '' chosen=g '' places := by
    refine (Set.image_mono hsub).antisymm ?_
    rintro _ ⟨a,ha,rfl⟩
    obtain ⟨b,hb,hba⟩ := hbij.surjOn (Set.mem_image_of_mem f ha)
    exact ⟨b,hb,(h b (hsub hb) a ha).mp hba⟩
  rw [← hbij.image_eq,hbij.injOn.encard_image,← himage,hinj.encard_image]

/-- The function moves by at most one inside of an interval. -/
def Steps (f : ℤ → ℤ) (start stop : ℤ) : Prop :=
  ∀ t, start≤t → t+1< stop → f (t+1)≤f t+1 ∧ f t≤f (t+1)+1

variable {f : ℤ → ℤ} {start stop : ℤ}

/-- Every value between two taken ones is taken. -/
theorem Steps.between (h : Steps f start stop) {a b i : ℤ} (ha : start≤a) (hab : a≤b)
    (hb : b< stop) (hi : f a≤ i ∧ i≤f b ∨ f b≤ i ∧ i≤f a) : ∃ t∈Set.Ico start stop, f t=i := by
  induction b, hab using Int.leInduction with
  | base => exact ⟨a,⟨ha,hb⟩,by omega⟩
  | succ b hab ih =>
    have hstep := h b (by omega) hb
    by_cases hold : f a≤ i ∧ i≤f b ∨ f b≤ i ∧ i≤f a
    · exact ih (by omega) hold
    · exact ⟨b+1,⟨by omega,hb⟩,by omega⟩

/-- There are at most so many values exactly when no two of them lie further
apart. -/
theorem Steps.encard_image_le_iff (h : Steps f start stop) (n : ℕ) :
    (f '' Set.Ico start stop).encard≤n ↔
      ∀ a∈Set.Ico start stop, ∀ b∈Set.Ico start stop, f b-f a<n := by
  constructor
  · intro hcard a ha b hb
    by_contra hfar
    have hsub : (↑(Finset.Icc (f a) (f a+n)) : Set ℤ)⊆f '' Set.Ico start stop := by
      intro i hi
      rw [Finset.coe_Icc,Set.mem_Icc] at hi
      rcases le_total a b with hab | hba
      · exact h.between ha.1 hab hb.2 (.inl ⟨by omega,by omega⟩)
      · exact h.between hb.1 hba ha.2 (.inr ⟨by omega,by omega⟩)
    have hmany := (Set.encard_le_encard hsub).trans hcard
    rw [Set.encard_coe_eq_coe_finsetCard,Int.card_Icc,Nat.cast_le] at hmany
    omega
  · intro hnear
    rcases Set.eq_empty_or_nonempty (Set.Ico start stop) with hempty | ⟨place,hplace⟩
    · rw [hempty,Set.image_empty,Set.encard_empty]
      exact bot_le
    · obtain ⟨least,⟨a,ha,rfl⟩,hleast⟩ := Int.exists_least_of_bdd
        (P := fun i => ∃ t∈Set.Ico start stop, f t=i)
        ⟨f place-n,fun i hi => by
          obtain ⟨t,ht,rfl⟩ := hi
          have hlt := hnear t ht place hplace
          omega⟩ ⟨f place,place,hplace,rfl⟩
      have hsub : f '' Set.Ico start stop⊆(↑(Finset.Ico (f a) (f a+n)) : Set ℤ) := by
        rintro _ ⟨t,ht,rfl⟩
        rw [Finset.coe_Ico,Set.mem_Ico]
        have hlow := hleast (f t) ⟨t,ht,rfl⟩
        have hhigh := hnear a ha t ht
        omega
      refine (Set.encard_le_encard hsub).trans ?_
      rw [Set.encard_coe_eq_coe_finsetCard,Int.card_Ico,Nat.cast_le]
      omega

end TokiSync.SteppedCounts
