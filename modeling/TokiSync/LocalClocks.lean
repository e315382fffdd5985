import Mathlib.Data.Int.LeastGreatest
import Mathlib.Order.Bounds.Basic
import Mathlib.Algebra.Order.Group.Abs
import Mathlib.Algebra.Order.Group.Int

/-!
# Clocks that are set forward and back

A clock shows an instant plus an offset. Here the offset changes by less than a
day, at instants at least two days apart. So a later reading is larger from one
day on, a reading is shown at most twice, and every reading is reached first at
one instant; when it is skipped there, what is shown first is a whole number of
minutes behind it. Nothing here mentions a program.
-/

namespace TokiSync.LocalClocks

/-- The offset changes at an instant. -/
def ChangesAt (offset : ℤ → ℤ) (t : ℤ) : Prop := offset (t-1)≠offset t

/-- Offsets in whole minutes, changing at whole minutes, rarely and by less than
a day. -/
structure Steady (offset : ℤ → ℤ) : Prop where
  /-- Offsets are whole minutes. -/
  minutes : ∀ t, 60∣offset t
  /-- Changes are at whole minutes. -/
  on_minute : ∀ t, ChangesAt offset t → 60∣t
  /-- Two changes are two days apart. -/
  apart : ∀ s t, ChangesAt offset s → ChangesAt offset t → s<t → s+172800≤t
  /-- A change is less than a day. -/
  jumps : ∀ t, |offset t-offset (t-1)|<86400

/-- What the clock shows at an instant. -/
def reading (offset : ℤ → ℤ) (t : ℤ) : ℤ := t+offset t

variable {offset : ℤ → ℤ}

/-- Without a change the offset stays. -/
theorem offset_eq_of_quiet {s t : ℤ} (hle : t≤ s) (hquiet : ∀ c, t<c → c≤ s → ¬ChangesAt offset c) :
    offset s=offset t := by
  induction s, hle using Int.leInduction with
  | base => rfl
  | succ s hle ih =>
    have hlast := hquiet (s+1) (by omega) le_rfl
    rw [ChangesAt,not_not,add_sub_cancel_right] at hlast
    rw [← hlast]
    exact ih fun c hlt hle => hquiet c hlt (by omega)

/-- Within two days there is one change at most. -/
theorem Steady.offset_close (h : Steady offset) {s t : ℤ} (hle : t≤ s) (hnear : s≤t+172800) :
    |offset s-offset t|<86400 := by
  by_cases hchange : ∃ c, t<c ∧ c≤ s ∧ ChangesAt offset c
  · obtain ⟨c,hlt,hcs,hc⟩ := hchange
    have hbefore : offset (c-1)=offset t := by
      refine offset_eq_of_quiet (by omega) fun d hd hdc hchanges => ?_
      have hapart := h.apart d c hchanges hc (by omega)
      omega
    have hbehind : offset s=offset c := by
      refine offset_eq_of_quiet hcs fun d hd hds hchanges => ?_
      have hapart := h.apart c d hc hchanges hd
      omega
    rw [← hbefore,hbehind]
    exact h.jumps c
  · have hsame : offset s=offset t :=
      offset_eq_of_quiet hle fun c hlt hcs hc => hchange ⟨c,hlt,hcs,hc⟩
    rw [hsame,sub_self,abs_zero]
    decide

/-- From one day on readings grow. -/
theorem Steady.reading_lt (h : Steady offset) {s t : ℤ} (hle : t+86400≤ s) :
    reading offset t<reading offset s := by
  have step : ∀ s t : ℤ, t+86400≤ s → s≤t+172800 → reading offset t<reading offset s := by
    intro s t hle hnear
    have hclose := abs_lt.mp (h.offset_close (by omega) hnear)
    unfold reading
    omega
  obtain ⟨n,hn⟩ : ∃ n : ℕ, s<t+86400*(n+2) := ⟨((s-t)/86400).toNat,by omega⟩
  induction n generalizing s with
  | zero => exact step s t hle (by omega)
  | succ n ih =>
    by_cases hnear : s≤t+172800
    · exact step s t hle hnear
    · have hback := ih (by omega : t+86400≤ s-86400) (by push_cast at hn; omega)
      exact hback.trans (step s (s-86400) (by omega) (by omega))

/-- Readings grow by at least one in a day, so they are unbounded. -/
theorem Steady.reading_add_days (h : Steady offset) (t : ℤ) (n : ℕ) :
    reading offset t+n≤reading offset (t+86400*n) := by
  induction n with
  | zero => simp
  | succ n ih =>
    have hlt := h.reading_lt (show t+86400*(n : ℤ)+86400≤t+86400*((n+1 : ℕ) : ℤ) by push_cast; omega)
    push_cast at hlt ⊢
    omega

/-- Every reading is reached, first at one instant. -/
theorem Steady.exists_first (h : Steady offset) (naive : ℤ) :
    ∃ first, IsLeast {t | naive≤reading offset t} first := by
  -- far enough in the past everything is smaller, far enough ahead it is larger
  have hpast : ∃ past, reading offset past<naive := by
    refine ⟨0-86400*((reading offset 0-naive).toNat+1),?_⟩
    have hgrow := h.reading_add_days (0-86400*((reading offset 0-naive).toNat+1))
      ((reading offset 0-naive).toNat+1)
    have hzero : 0-86400*(((reading offset 0-naive).toNat : ℤ)+1)+
        86400*(((reading offset 0-naive).toNat+1 : ℕ) : ℤ)=0 := by push_cast; omega
    rw [hzero] at hgrow
    push_cast at hgrow
    omega
  obtain ⟨past,hpast⟩ := hpast
  have hinhabited : ∃ t, naive≤reading offset t := by
    refine ⟨past+86400*(naive-reading offset past).toNat,?_⟩
    have hgrow := h.reading_add_days past (naive-reading offset past).toNat
    omega
  have hbounded : ∃ bound, ∀ t, naive≤reading offset t → bound≤t := by
    refine ⟨past-86400,fun t ht => ?_⟩
    by_contra hlt
    have hgrow := h.reading_lt (show t+86400≤past by omega)
    omega
  obtain ⟨first,hfirst,hleast⟩ := Int.exists_least_of_bdd hbounded hinhabited
  exact ⟨first,hfirst,fun t ht => hleast t ht⟩

/-- Where a reading is reached first, it is shown, or the clock skips it: then
what is shown there is a whole minute less than a day behind it, and no reading
in between is shown at any time. -/
theorem Steady.first_reading (h : Steady offset) {naive first : ℤ}
    (hfirst : IsLeast {t | naive≤reading offset t} first) : reading offset first=naive ∨
      naive<reading offset first ∧ reading offset first<naive+86400 ∧
        60∣reading offset first ∧
        ∀ t, reading offset t<naive ∨ reading offset first≤reading offset t := by
  have hreached : naive≤reading offset first := hfirst.1
  have hbefore : reading offset (first-1)<naive := by
    by_contra hle
    have hless := hfirst.2 (show naive≤reading offset (first-1) by omega)
    omega
  have hjump := abs_lt.mp (h.jumps first)
  by_cases hchange : ChangesAt offset first
  · rcases hreached.eq_or_lt with heq | hlt
    · exact .inl heq.symm
    · refine .inr ⟨hlt,?_,Int.dvd_add (h.on_minute first hchange) (h.minutes first),fun t => ?_⟩
      · unfold reading at hbefore ⊢
        omega
      · by_contra hshown
        rw [not_or,not_lt,not_le] at hshown
        have hle : first≤t := hfirst.2 hshown.1
        rcases hle.eq_or_lt with rfl | hbehind
        · exact lt_irrefl _ hshown.2
        · -- the offset stays for two days, and then a day has passed
          rcases lt_or_ge t (first+86400) with hnear | hfar
          · have hsame : offset t=offset first := by
              refine offset_eq_of_quiet hle fun c hlt hct hc => ?_
              have hapart := h.apart first c hchange hc hlt
              omega
            have hshown := hshown.2
            unfold reading at hshown
            omega
          · exact lt_asymm hshown.2 (h.reading_lt hfar)
  · rw [ChangesAt,not_not] at hchange
    left
    unfold reading at hreached hbefore ⊢
    omega

/-- A reading is shown at most twice. -/
theorem Steady.at_most_two (h : Steady offset) {r s t : ℤ} (hrs : r< s) (hst : s<t)
    (hreading : reading offset r=reading offset s) : reading offset s≠reading offset t := by
  intro hreading'
  have hchange : ∀ {a b : ℤ}, a<b → reading offset a=reading offset b →
      b<a+86400 ∧ ∃ c, a<c ∧ c≤b ∧ ChangesAt offset c := by
    intro a b hab hsame
    refine ⟨?_,?_⟩
    · by_contra hfar
      exact absurd hsame (h.reading_lt (by omega)).ne
    · by_contra hnone
      have hoffset : offset b=offset a :=
        offset_eq_of_quiet hab.le fun c hlt hcb hc => hnone ⟨c,hlt,hcb,hc⟩
      unfold reading at hsame
      omega
  obtain ⟨hnear,c,hrc,hcs,hc⟩ := hchange hrs hreading
  obtain ⟨hnear',d,hsd,hdt,hd⟩ := hchange hst hreading'
  have hapart := h.apart c d hc hd (by omega)
  omega

/-- A reading that is shown once splits the instants into those before it and
those from it on. -/
theorem Steady.lt_iff_of_unique (h : Steady offset) {naive shown : ℤ}
    (hshown : reading offset shown=naive) (hunique : ∀ t, reading offset t=naive → t=shown)
    (t : ℤ) : reading offset t<naive ↔ t< shown := by
  constructor
  · intro hlt
    by_contra hle
    have hnear : t< shown+86400 := by
      by_contra hfar
      have hgrow := h.reading_lt (show shown+86400≤t by omega)
      omega
    -- the clock was set back in between, and shows the reading again
    obtain ⟨c,hafter,hct,hc⟩ : ∃ c, shown<c ∧ c≤t ∧ ChangesAt offset c := by
      by_contra hnone
      have hsame : offset t=offset shown := offset_eq_of_quiet (by omega)
        fun c hlt hct hc => hnone ⟨c,hlt,hct,hc⟩
      unfold reading at hlt hshown
      omega
    have hclose := abs_lt.mp (h.offset_close (show shown≤t by omega) (by omega))
    have hlater : offset (t+(naive-reading offset t))=offset t := by
      refine offset_eq_of_quiet (by omega) fun d hd hdt hdc => ?_
      have hapart := h.apart c d hc hdc (by omega)
      unfold reading at hlt hshown hdt
      omega
    have hagain := hunique (t+(naive-reading offset t)) (by
      rw [reading,hlater]
      unfold reading
      omega)
    omega
  · intro hlt
    by_contra hle
    obtain ⟨first,hfirst⟩ := h.exists_first naive
    have hbefore : first≤t := hfirst.2 (show naive≤reading offset t by omega)
    -- the first instant that reaches the reading shows it
    rcases h.first_reading hfirst with hreading | ⟨hskips,-,-,hgap⟩
    · have hsame := hunique first hreading
      omega
    · rcases hgap shown with hless | hmore
      · omega
      · omega

end TokiSync.LocalClocks
