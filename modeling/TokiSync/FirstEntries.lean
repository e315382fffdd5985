import Mathlib.Data.List.Perm.Basic

/-!
# Tables whose first entries stay

Items are met one after the other, and each one that reads as a key and a value
is entered under its key unless the key is taken. The order of the items does
not matter exactly when the items of one key have one value.
-/

namespace TokiSync.FirstEntries

section

variable {α κ ν : Type} [DecidableEq κ]

/-- A table with a value entered under a key that is not taken. -/
def orInsert (table : κ → Option ν) (key : κ) (value : ν) : κ → Option ν := fun k =>
  if k=key then some ((table k).getD value) else table k

/-- A table after one item. -/
def enter (read : α → Option (κ×ν)) (table : κ → Option ν) (item : α) : κ → Option ν :=
  match read item with
  | none => table
  | some (key,value) => orInsert table key value

/-- The table of a list of items. -/
def firstEntries (read : α → Option (κ×ν)) (items : List α) : κ → Option ν :=
  items.foldl (enter read) fun _ => none

/-- The value that an item has for a key. -/
def valueFor (read : α → Option (κ×ν)) (key : κ) (item : α) : Option ν :=
  (read item).bind fun entry => if entry.1=key then some entry.2 else none

/-- Items of one key have one value. -/
def OneValued (read : α → Option (κ×ν)) (items : List α) : Prop :=
  ∀ a∈items, ∀ b∈items, ∀ x∈read a, ∀ y∈read b, x.1=y.1 → x.2=y.2

variable {read : α → Option (κ×ν)} {items : List α} {key : κ} {value : ν}

@[simp] theorem valueFor_eq_some {item : α} :
    valueFor read key item=some value ↔ read item=some (key,value) := by
  rw [valueFor,Option.bind_eq_some_iff]
  constructor
  · rintro ⟨⟨k,v⟩,hread,hvalue⟩
    rw [Option.ite_none_right_eq_some,Option.some.injEq] at hvalue
    rw [hread,←hvalue.1,←hvalue.2]
  · intro hread
    exact ⟨(key,value),hread,if_pos rfl⟩

/-- An entered item gives its value to a key that is not taken. -/
theorem enter_apply (table : κ → Option ν) (item : α) :
    enter read table item key=(table key).or (valueFor read key item) := by
  rw [enter,valueFor]
  cases read item with
  | none => rw [Option.bind_none,Option.or_none]
  | some entry =>
    obtain ⟨k,v⟩ := entry
    simp only [orInsert,Option.bind_some]
    by_cases hkey : key=k
    · rw [if_pos hkey,if_pos hkey.symm]
      cases table key <;> rfl
    · rw [if_neg hkey,if_neg (Ne.symm hkey),Option.or_none]

/-- What is entered under a key is what was there, or else the value of the
first item that has one. -/
theorem foldl_enter (items : List α) (table : κ → Option ν) :
    items.foldl (enter read) table key=(table key).or (items.findSome? (valueFor read key)) := by
  induction items generalizing table with
  | nil => rw [List.foldl_nil,List.findSome?_nil,Option.or_none]
  | cons item items ih =>
    rw [List.foldl_cons,ih,enter_apply,List.findSome?_cons,Option.or_assoc]
    cases valueFor read key item <;> rfl

/-- The first item that has a value for a key gives it. -/
theorem firstEntries_apply (items : List α) :
    firstEntries read items key=items.findSome? (valueFor read key) := by
  rw [firstEntries,foldl_enter,Option.none_or]

/-- An item met first keeps its entry. -/
theorem firstEntries_cons {item : α} (h : read item=some (key,value)) (items : List α) :
    firstEntries read (item::items) key=some value := by
  rw [firstEntries_apply,List.findSome?_cons,valueFor_eq_some.mpr h]

/-- Any item can be met first. -/
theorem exists_first {item : α} (hmem : item∈items) (h : read item=some (key,value)) :
    ∃ order : List α, order.Perm items ∧ firstEntries read order key=some value := by
  obtain ⟨before,after,rfl⟩ := List.append_of_mem hmem
  exact ⟨item::(before++after),List.perm_middle.symm,firstEntries_cons h _⟩

/-- When the items of one key have one value, the table holds them all. -/
theorem firstEntries_eq_some (h : OneValued read items) :
    firstEntries read items key=some value ↔ ∃ item∈items, read item=some (key,value) := by
  rw [firstEntries_apply]
  constructor
  · intro hfound
    obtain ⟨item,hmem,hvalue⟩ := List.exists_of_findSome?_eq_some hfound
    exact ⟨item,hmem,valueFor_eq_some.mp hvalue⟩
  · rintro ⟨item,hmem,hread⟩
    cases hfound : items.findSome? (valueFor read key) with
    | none =>
      have hnone := List.findSome?_eq_none_iff.mp hfound item hmem
      rw [valueFor_eq_some.mpr hread] at hnone
      cases hnone
    | some other =>
      obtain ⟨first,hfirst,hvalue⟩ := List.exists_of_findSome?_eq_some hfound
      exact congrArg some
        (h first hfirst item hmem _ (valueFor_eq_some.mp hvalue) _ hread rfl)

omit [DecidableEq κ] in
/-- Items of one key have one value in any order. -/
theorem OneValued.perm {other : List α} (h : OneValued read items) (hperm : other.Perm items) :
    OneValued read other :=
  fun a ha b hb => h a (hperm.subset ha) b (hperm.subset hb)

/-- When the items of one key have one value, every order makes one table. -/
theorem firstEntries_perm {first second : List α} (h : OneValued read items)
    (hfirst : first.Perm items) (hsecond : second.Perm items) :
    firstEntries read first=firstEntries read second := by
  funext key
  refine Option.ext fun value => ?_
  rw [firstEntries_eq_some (h.perm hfirst),firstEntries_eq_some (h.perm hsecond)]
  simp only [hfirst.mem_iff,hsecond.mem_iff]

end

end TokiSync.FirstEntries
