import Mathlib.Data.List.Basic
import Mathlib.Tactic.SplitIfs

/-!
# One writer over snapshots

A transaction reads the state that was committed at its first read. It may
write only while no other transaction writes and nothing has been committed
since that read. So what a writer read is what is committed, until it commits
its own state.
-/

namespace TokiSync.SnapshotWrites

/-- Committed state with the snapshots of the open transactions. -/
structure Snapshots (τ ι : Type) where
  /-- Committed state. -/
  committed : τ
  /-- Number of commits so far. -/
  version : ℕ
  /-- Commits before the first read of a transaction, and what it read. -/
  snapshot : ι → Option (ℕ×τ)
  /-- Transaction that writes, with the state it has written. -/
  writer : Option (ι×τ)

section

variable {τ ι : Type} [DecidableEq ι]

/-- A committed state without transactions. -/
def Snapshots.start (t : τ) : Snapshots τ ι := ⟨t,0,fun _ => none,none⟩

/-- Take the snapshot of a transaction. -/
def Snapshots.read (s : Snapshots τ ι) (i : ι) : Snapshots τ ι :=
  {s with snapshot := Function.update s.snapshot i (some (s.version,s.committed))}

/-- Whether a transaction may write, on top of the given state: it writes
already, or nobody does and its snapshot is current. -/
def Snapshots.Writable (s : Snapshots τ ι) (i : ι) (t : τ) : Prop :=
  s.writer=some (i,t) ∨ (s.writer=none ∧ s.snapshot i=some (s.version,t))

/-- Write in a transaction. -/
def Snapshots.write (s : Snapshots τ ι) (i : ι) (t : τ) : Snapshots τ ι :=
  {s with writer := some (i,t)}

/-- End a transaction with the state it has written. -/
def Snapshots.commit (s : Snapshots τ ι) (i : ι) (t : τ) : Snapshots τ ι where
  committed := t
  version := s.version+1
  snapshot := Function.update s.snapshot i none
  writer := none

/-- End a transaction without a trace. -/
def Snapshots.rollback (s : Snapshots τ ι) (i : ι) : Snapshots τ ι :=
  {s with
    snapshot := Function.update s.snapshot i none
    writer := s.writer.filter fun w => w.1≠i}

/-- A write in a transaction of its own. -/
def Snapshots.put (s : Snapshots τ ι) (t : τ) : Snapshots τ ι :=
  {s with committed := t,version := s.version+1}

/-- Snapshots are of the past, current ones are of the committed state, and
the writer has a current one. -/
structure Sound (s : Snapshots τ ι) : Prop where
  /-- No snapshot is newer than the committed state. -/
  past : ∀ i n t, s.snapshot i=some (n,t) → n ≤ s.version
  /-- A current snapshot is the committed state. -/
  current : ∀ i t, s.snapshot i=some (s.version,t) → t=s.committed
  /-- The writer has read the committed state. -/
  writer : ∀ i t, s.writer=some (i,t) → s.snapshot i=some (s.version,s.committed)

omit [DecidableEq ι] in
/-- Nothing has been read at the start. -/
theorem sound_start (t : τ) : Sound (.start t : Snapshots τ ι) := by
  refine ⟨?_,?_,?_⟩
  · intro i n t' h
    cases h
  · intro i t' h
    cases h
  · intro i t' h
    cases h

variable {s : Snapshots τ ι} {i j : ι} {t : τ}

/-- Reading keeps the snapshots sound. -/
theorem Sound.read (h : Sound s) (i : ι) : Sound (s.read i) := by
  refine ⟨?_,?_,?_⟩
  · intro j n t hj
    simp only [Snapshots.read,Function.update_apply] at hj ⊢
    split_ifs at hj
    · cases hj
      exact Nat.le_refl _
    · exact h.past j n t hj
  · intro j t hj
    simp only [Snapshots.read,Function.update_apply] at hj ⊢
    split_ifs at hj
    · cases hj
      rfl
    · exact h.current j t hj
  · intro j t hj
    have hw := h.writer j t hj
    simp only [Snapshots.read,Function.update_apply]
    split_ifs
    · rfl
    · exact hw

omit [DecidableEq ι] in
/-- Writing keeps the snapshots sound. -/
theorem Sound.write (h : Sound s) {base : τ} (hbase : s.Writable i base) (t : τ) :
    Sound (s.write i t) := by
  refine ⟨h.past,h.current,?_⟩
  intro j t' hj
  cases hj
  rcases hbase with hw | ⟨-,hsnap⟩
  · exact h.writer i base hw
  · have hcommitted := h.current i base hsnap
    rw [hcommitted] at hsnap
    exact hsnap

omit [DecidableEq ι] in
/-- A new committed state, with at most the open snapshots of before, is
sound when nobody writes. -/
theorem Sound.advance (h : Sound s) {snapshot : ι → Option (ℕ×τ)}
    (hsub : ∀ j m, snapshot j=some m → s.snapshot j=some m) (t : τ) :
    Sound ⟨t,s.version+1,snapshot,none⟩ := by
  have hpast : ∀ j n t', snapshot j=some (n,t') → n ≤ s.version :=
    fun j n t' hj => h.past j n t' (hsub j _ hj)
  refine ⟨?_,?_,?_⟩
  · intro j n t' hj
    have hn := hpast j n t' hj
    dsimp only
    omega
  · intro j t' hj
    have hn := hpast j _ t' hj
    dsimp only at hn
    omega
  · intro j t' hj
    cases hj

/-- Committing keeps the snapshots sound. -/
theorem Sound.commit (h : Sound s) (i : ι) (t : τ) : Sound (s.commit i t) := by
  refine h.advance (fun j m hj => ?_) t
  rw [Function.update_apply] at hj
  split_ifs at hj
  exact hj

omit [DecidableEq ι] in
/-- A write in a transaction of its own keeps the snapshots sound. -/
theorem Sound.put (h : Sound s) (hw : s.writer=none) (t : τ) : Sound (s.put t) := by
  have hadvance := h.advance (fun j m hj => hj) t
  rw [Snapshots.put,hw]
  exact hadvance

/-- The writer after a rollback, when it is another one. -/
theorem writer_rollback : (s.rollback i).writer=some (j,t) ↔ s.writer=some (j,t) ∧ j≠i := by
  rw [Snapshots.rollback,Option.filter_eq_some_iff,decide_eq_true_eq]

/-- Rolling back keeps the snapshots sound. -/
theorem Sound.rollback (h : Sound s) (i : ι) : Sound (s.rollback i) := by
  have hsub : ∀ j m, (s.rollback i).snapshot j=some m → s.snapshot j=some m := by
    intro j m hj
    rw [Snapshots.rollback] at hj
    dsimp only at hj
    rw [Function.update_apply] at hj
    split_ifs at hj
    exact hj
  refine ⟨?_,?_,?_⟩
  · exact fun j n t hj => h.past j n t (hsub j _ hj)
  · exact fun j t hj => h.current j t (hsub j _ hj)
  · intro j t hj
    obtain ⟨hw,hne⟩ := writer_rollback.mp hj
    rw [Snapshots.rollback]
    dsimp only
    rw [Function.update_of_ne hne]
    exact h.writer j t hw

end

end TokiSync.SnapshotWrites
