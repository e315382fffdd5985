import Mathlib.Data.Int.Order.Basic
import Mathlib.Tactic.Ring

/-!
# Arithmetic that stops

Operations on signed 64-bit words stop when a result does not fit or a divisor
is zero. A computation of several of them goes through when each of them does,
and then its value is that of the integers. Nothing here mentions a program.
-/

namespace TokiSync.TrappingWords

/-- Ways an operation stops. -/
inductive Trap where
  /-- A result does not fit its word. -/
  | overflow
  /-- A divisor is zero. -/
  | divideByZero
  /-- A date or a time does not fit the calendar. -/
  | outOfCalendar
  deriving DecidableEq

/-- A computation that may stop. -/
abbrev Trapping := Except Trap

/-- A value inside of a range, or a stop. -/
def within (low high : ℤ) (trap : Trap) (value : ℤ) : Trapping ℤ :=
  if low≤value ∧ value≤high then .ok value else .error trap

/-- A value as a signed 64-bit word. -/
def word : ℤ → Trapping ℤ := within (-2^63) (2^63-1) .overflow

def add (a b : ℤ) : Trapping ℤ := word (a+b)

def sub (a b : ℤ) : Trapping ℤ := word (a-b)

def mul (a b : ℤ) : Trapping ℤ := word (a*b)

/-- Division that rounds towards zero. -/
def div (a b : ℤ) : Trapping ℤ := if b=0 then .error .divideByZero else word (a.tdiv b)

/-- Remainder of that division; it stops where the division does. -/
def rem (a b : ℤ) : Trapping ℤ := do
  let _ ← div a b
  pure (a.tmod b)

/-- Division whose remainder is not negative. -/
def divEuclid (a b : ℤ) : Trapping ℤ := if b=0 then .error .divideByZero else word (a/b)

/-- A computation goes on from the value of its first part. -/
theorem bind_eq_ok {α β : Type} {first : Trapping α} {next : α → Trapping β} {a : α} {b : β}
    (hfirst : first=.ok a) (hnext : next a=.ok b) : first>>=next=.ok b := by
  rw [hfirst]
  exact hnext

/-- Every run of a list goes through when each of its elements does. -/
theorem mapM_eq_ok {α β : Type} {f : α → Trapping β} {g : α → β} {xs : List α}
    (h : ∀ x∈xs, f x=.ok (g x)) : xs.mapM f=.ok (xs.map g) := by
  induction xs with
  | nil => rfl
  | cons x xs ih =>
    rw [List.mapM_cons,List.map_cons]
    refine bind_eq_ok (h x List.mem_cons_self) ?_
    exact bind_eq_ok (ih fun y hy => h y (List.mem_cons_of_mem _ hy)) rfl

theorem within_eq_ok {low high value : ℤ} {trap : Trap} (hlow : low≤value) (hhigh : value≤high) :
    within low high trap value=.ok value := if_pos ⟨hlow,hhigh⟩

section

variable {a b : ℤ}

theorem word_eq_ok (hlow : -2^63≤a) (hhigh : a<2^63) : word a=.ok a :=
  within_eq_ok hlow (Int.le_sub_one_of_lt hhigh)

theorem add_eq_ok (hlow : -2^63≤a+b) (hhigh : a+b<2^63) : add a b=.ok (a+b) :=
  word_eq_ok hlow hhigh

theorem sub_eq_ok (hlow : -2^63≤a-b) (hhigh : a-b<2^63) : sub a b=.ok (a-b) :=
  word_eq_ok hlow hhigh

theorem mul_eq_ok (hlow : -2^63≤a*b) (hhigh : a*b<2^63) : mul a b=.ok (a*b) :=
  word_eq_ok hlow hhigh

/-- Quotients are not larger than what is divided. -/
theorem tdiv_le_abs (a b : ℤ) : |a.tdiv b|≤|a| := by
  rw [Int.abs_eq_natAbs,Int.abs_eq_natAbs,Int.natAbs_tdiv]
  exact_mod_cast Nat.div_le_self _ _

/-- Multiples of the quotient are not larger either. -/
theorem tdiv_mul_le_abs (a b : ℤ) : |a.tdiv b*b|≤|a| := by
  rw [Int.abs_eq_natAbs,Int.abs_eq_natAbs,Int.natAbs_mul,Int.natAbs_tdiv]
  exact_mod_cast Nat.div_mul_le_self _ _

theorem div_eq_ok (hb : 0<b) (hfits : |a|<2^63) : div a b=.ok (a.tdiv b) := by
  have hsmall := abs_lt.mp ((tdiv_le_abs a b).trans_lt hfits)
  unfold div
  rw [if_neg hb.ne',word_eq_ok hsmall.1.le hsmall.2]

theorem rem_eq_ok (hb : 0<b) (hfits : |a|<2^63) : rem a b=.ok (a.tmod b) :=
  bind_eq_ok (div_eq_ok hb hfits) rfl

theorem divEuclid_eq_ok (hb : 0<b) (hfits : |a|<2^63) : divEuclid a b=.ok (a/b) := by
  have hsmall := abs_lt.mp hfits
  have hlow : -2^63≤a/b := Int.le_ediv_of_mul_le hb (by omega)
  have hhigh : a/b<2^63 := Int.ediv_lt_of_lt_mul hb (by omega)
  unfold divEuclid
  rw [if_neg hb.ne',word_eq_ok hlow hhigh]

end

end TokiSync.TrappingWords
