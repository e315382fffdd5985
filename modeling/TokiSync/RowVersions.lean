import Mathlib.Data.List.Basic
import Mathlib.Tactic.SplitIfs

/-!
# Row versions under row locks

A row has a committed version and possibly one version written by an open
transaction, which thereby holds the lock of the row. Every transaction sees
its own versions and the committed versions of the other rows. Committing
publishes the versions a transaction wrote, rolling back drops them.
-/

namespace TokiSync.RowVersions

/-- Committed rows, and the rows that open transactions have written. -/
structure Versions (κ ρ ι : Type) where
  /-- Committed version of a row. -/
  committed : κ → Option ρ
  /-- Open transaction that wrote a row, with the version it wrote. -/
  pending : κ → Option (ι×ρ)

section

variable {κ ρ ι : Type} [DecidableEq κ] [DecidableEq ι]

/-- A table that no transaction is writing. -/
def Versions.start (table : κ → Option ρ) : Versions κ ρ ι := ⟨table,fun _ => none⟩

/-- Whether no other transaction holds the lock of a row. -/
def Versions.Free (s : Versions κ ρ ι) (i : ι) (k : κ) : Prop :=
  ∀ j v, s.pending k=some (j,v) → j=i

/-- Version of a row that a transaction sees. -/
def Versions.visible (s : Versions κ ρ ι) (i : ι) (k : κ) : Option ρ :=
  match s.pending k with
  | some (j,v) => if j=i then some v else s.committed k
  | none => s.committed k

/-- Write a row in a transaction. -/
def Versions.write (s : Versions κ ρ ι) (i : ι) (k : κ) (v : ρ) : Versions κ ρ ι :=
  {s with pending := Function.update s.pending k (some (i,v))}

/-- Publish the rows that a transaction wrote. -/
def Versions.commit (s : Versions κ ρ ι) (i : ι) : Versions κ ρ ι where
  committed := s.visible i
  pending k := (s.pending k).filter fun w => w.1≠i

/-- Drop the rows that a transaction wrote. -/
def Versions.rollback (s : Versions κ ρ ι) (i : ι) : Versions κ ρ ι :=
  {s with pending := fun k => (s.pending k).filter fun w => w.1≠i}

/-- Write a row in a transaction of its own. -/
def Versions.put (s : Versions κ ρ ι) (k : κ) (v : ρ) : Versions κ ρ ι :=
  {s with committed := Function.update s.committed k (some v)}

variable {s : Versions κ ρ ι} {i j : ι} {k l : κ} {v w : ρ}

omit [DecidableEq κ] in
/-- A transaction sees what it wrote. -/
theorem visible_of_pending (h : s.pending k=some (i,v)) : s.visible i k=some v := by
  rw [Versions.visible,h]
  exact if_pos rfl

omit [DecidableEq κ] in
/-- A transaction sees the committed version of the rows it did not write. -/
theorem visible_of_not_pending (h : ∀ v, s.pending k≠some (i,v)) :
    s.visible i k=s.committed k := by
  unfold Versions.visible
  cases hp : s.pending k with
  | none => rfl
  | some w =>
    have hne : w.1≠i := fun heq => h w.2 (by rw [hp,←heq])
    exact if_neg hne

omit [DecidableEq ι] in
/-- The pending rows after a write. -/
theorem pending_write : (s.write i k v).pending l=
    if l=k then some (i,v) else s.pending l := by
  rw [Versions.write]
  dsimp only
  rw [Function.update_apply]

omit [DecidableEq κ] in
/-- The pending rows after a commit are those of the other transactions. -/
theorem pending_commit : (s.commit i).pending k=some (j,v) ↔ s.pending k=some (j,v) ∧ j≠i := by
  rw [Versions.commit,Option.filter_eq_some_iff,decide_eq_true_eq]

omit [DecidableEq κ] in
/-- The pending rows after a rollback are those of the other transactions. -/
theorem pending_rollback :
    (s.rollback i).pending k=some (j,v) ↔ s.pending k=some (j,v) ∧ j≠i := by
  rw [Versions.rollback,Option.filter_eq_some_iff,decide_eq_true_eq]

omit [DecidableEq ι] in
@[simp] theorem committed_write : (s.write i k v).committed=s.committed := rfl

omit [DecidableEq κ] in
@[simp] theorem committed_rollback : (s.rollback i).committed=s.committed := rfl

omit [DecidableEq ι] in
@[simp] theorem pending_put : (s.put k v).pending=s.pending := rfl

omit [DecidableEq κ] [DecidableEq ι] in
/-- A row that nobody has written is free. -/
theorem free_of_not_pending (h : s.pending k=none) : s.Free i k := by
  intro j v hp
  rw [h] at hp
  cases hp

end

end TokiSync.RowVersions
