import Mathlib.Data.Set.Insert
import Mathlib.Tactic.SplitIfs
import TokiSync.Runs

/-!
# Ledgers of exchangeable tokens and their sweep

Tokens are issued, exchanged for new ones, and swept once: the sweep notes
which tokens are present and makes each of them dead. Some tokens are marked,
and a token exchanged for a marked one is marked. When the sweep has ended, no
marked token is live exactly when no marked token came after its start.
-/

namespace TokiSync.TokenLedger

open Runs

/-- The tokens of a ledger and the progress of its sweep. -/
structure Ledger (κ : Type) where
  /-- Tokens ever issued. -/
  present : Set κ
  /-- Tokens that can still be used. -/
  live : Set κ
  /-- Tokens to be got rid of. -/
  marked : Set κ
  /-- Tokens that were present at the start of the sweep. -/
  seen : Option (Set κ)
  /-- Whether the sweep has ended. -/
  swept : Prop

section

variable {κ : Type}

/-- One step of a ledger. -/
inductive LedgerStep : Ledger κ → Unit → Ledger κ → Prop where
  /-- Issue a token, marked or not. -/
  | issue {l : Ledger κ} (k : κ) (mark : Prop) (fresh : k∉l.present) :
      LedgerStep l () {l with
        present := insert k l.present
        live := insert k l.live
        marked := {x | x∈l.marked ∨ (mark ∧ x=k)}}
  /-- Exchange a token for a new one, which is marked if the old one is. -/
  | exchange {l : Ledger κ} (k new : κ) (mark : Prop) (fresh : new∉l.present)
      (inherit : k∈l.marked → mark) :
      LedgerStep l () {l with
        present := insert new l.present
        live := insert new (l.live \ {k})
        marked := {x | x∈l.marked ∨ (mark ∧ x=new)}}
  /-- Start the sweep. -/
  | start {l : Ledger κ} (once : l.seen=none) : LedgerStep l () {l with seen := some l.present}
  /-- Make some of the tokens dead that the sweep has seen. -/
  | drop {l : Ledger κ} {seen : Set κ} (dead : Set κ) (started : l.seen=some seen)
      (known : dead ⊆ seen) : LedgerStep l () {l with live := l.live \ dead}
  /-- End the sweep when all of them are dead. -/
  | finish {l : Ledger κ} {seen : Set κ} (started : l.seen=some seen)
      (all : ∀ x∈l.live, x∉seen) : LedgerStep l () {l with swept := True}

/-- A ledger before its sweep, with all its tokens marked. -/
def Ledger.start (present live : Set κ) : Ledger κ := ⟨present,live,present,none,False⟩

/-- What holds of a ledger at all times. -/
structure LedgerInv (l : Ledger κ) : Prop where
  /-- Live tokens are present. -/
  live : ∀ x∈l.live, x∈l.present
  /-- Marked tokens are present. -/
  marked : ∀ x∈l.marked, x∈l.present
  /-- The sweep has seen present tokens. -/
  seen : ∀ seen, l.seen=some seen → ∀ x∈seen, x∈l.present
  /-- After the sweep, none of the tokens it has seen is live. -/
  swept : l.swept → ∃ seen, l.seen=some seen ∧ ∀ x∈l.live, x∉seen
  /-- When marked tokens came after the start of the sweep, one of them is
  live. -/
  late : ∀ seen, l.seen=some seen → (∃ x∈l.marked, x∉seen) → ∃ x∈l.marked, x∉seen ∧ x∈l.live

/-- A fresh token is none that the sweep has seen. -/
theorem LedgerInv.unseen {l : Ledger κ} (inv : LedgerInv l) {k : κ} (fresh : k∉l.present)
    {seen : Set κ} (h : l.seen=some seen) : k∉seen :=
  fun hk => fresh (inv.seen seen h k hk)

/-- Every step keeps the ledger in order. -/
theorem LedgerInv.step {l l' : Ledger κ} (inv : LedgerInv l) {u : Unit} (h : LedgerStep l u l') :
    LedgerInv l' := by
  cases h with
  | issue k mark fresh =>
    refine ⟨?_,?_,?_,?_,?_⟩
    · rintro x (rfl | hx)
      · exact Or.inl rfl
      · exact Or.inr (inv.live x hx)
    · rintro x (hx | ⟨-,rfl⟩)
      · exact Or.inr (inv.marked x hx)
      · exact Or.inl rfl
    · exact fun seen hs x hx => Or.inr (inv.seen seen hs x hx)
    · intro hswept
      obtain ⟨seen,hs,hdead⟩ := inv.swept hswept
      refine ⟨seen,hs,?_⟩
      rintro x (rfl | hx)
      · exact inv.unseen fresh hs
      · exact hdead x hx
    · rintro seen hs ⟨x,hx | ⟨hmark,rfl⟩,hnew⟩
      · obtain ⟨y,hy,hunseen,hlive⟩ := inv.late seen hs ⟨x,hx,hnew⟩
        exact ⟨y,Or.inl hy,hunseen,Or.inr hlive⟩
      · exact ⟨x,Or.inr ⟨hmark,rfl⟩,hnew,Or.inl rfl⟩
  | exchange k new mark fresh inherit =>
    refine ⟨?_,?_,?_,?_,?_⟩
    · rintro x (rfl | ⟨hx,-⟩)
      · exact Or.inl rfl
      · exact Or.inr (inv.live x hx)
    · rintro x (hx | ⟨-,rfl⟩)
      · exact Or.inr (inv.marked x hx)
      · exact Or.inl rfl
    · exact fun seen hs x hx => Or.inr (inv.seen seen hs x hx)
    · intro hswept
      obtain ⟨seen,hs,hdead⟩ := inv.swept hswept
      refine ⟨seen,hs,?_⟩
      rintro x (rfl | ⟨hx,-⟩)
      · exact inv.unseen fresh hs
      · exact hdead x hx
    · rintro seen hs ⟨x,hx,hnew⟩
      by_cases hmark : mark
      · exact ⟨new,Or.inr ⟨hmark,rfl⟩,inv.unseen fresh hs,Or.inl rfl⟩
      · -- the exchanged token is not marked, so the live one is another
        have hx' : x∈l.marked := hx.resolve_right fun h => hmark h.1
        obtain ⟨y,hy,hunseen,hlive⟩ := inv.late seen hs ⟨x,hx',hnew⟩
        have hyk : y≠k := by
          rintro rfl
          exact hmark (inherit hy)
        exact ⟨y,Or.inl hy,hunseen,Or.inr ⟨hlive,hyk⟩⟩
  | start once =>
    refine ⟨inv.live,inv.marked,?_,?_,?_⟩
    · rintro seen hs x hx
      cases hs
      exact hx
    · intro hswept
      obtain ⟨seen,hs,-⟩ := inv.swept hswept
      rw [once] at hs
      cases hs
    · rintro seen hs ⟨x,hx,hnew⟩
      cases hs
      exact absurd (inv.marked x hx) hnew
  | drop dead started known =>
    refine ⟨?_,inv.marked,inv.seen,?_,?_⟩
    · rintro x ⟨hx,-⟩
      exact inv.live x hx
    · intro hswept
      obtain ⟨seen,hs,hdead⟩ := inv.swept hswept
      refine ⟨seen,hs,?_⟩
      rintro x ⟨hx,-⟩
      exact hdead x hx
    · intro seen hs hlate
      obtain ⟨y,hy,hunseen,hlive⟩ := inv.late seen hs hlate
      have hseen := Option.some.inj (hs.symm.trans started)
      rw [hseen] at hunseen ⊢
      exact ⟨y,hy,hunseen,hlive,fun hdead => hunseen (known hdead)⟩
  | @finish seen started all =>
    exact ⟨inv.live,inv.marked,inv.seen,fun _ => ⟨seen,started,all⟩,inv.late⟩

/-- A ledger is in order in every state of a run. -/
theorem LedgerInv.of_run {present live : Set κ} (hlive : live ⊆ present) {history : List Unit}
    {l : Ledger κ} (run : Run LedgerStep (.start present live) history l) : LedgerInv l := by
  refine Run.invariant (I:=fun _ l => LedgerInv l) ?_ ?_ run
  · refine ⟨hlive,fun x hx => hx,?_,fun h => absurd h id,?_⟩
    · intro seen hs
      cases hs
    · intro seen hs
      cases hs
  · intro past l u l' _ inv hstep
    exact inv.step hstep

/-- After the sweep no marked token is live exactly when every marked token was
present at its start. -/
theorem LedgerInv.swept_iff {l : Ledger κ} (inv : LedgerInv l) (hswept : l.swept) {seen : Set κ}
    (hs : l.seen=some seen) : (∀ x∈l.marked, x∉l.live) ↔ ∀ x∈l.marked, x∈seen := by
  obtain ⟨seen',hs',hdead⟩ := inv.swept hswept
  have hseen := Option.some.inj (hs'.symm.trans hs)
  rw [hseen] at hdead
  constructor
  · intro hnone x hx
    by_contra hnew
    obtain ⟨y,hy,-,hlive⟩ := inv.late seen hs ⟨x,hx,hnew⟩
    exact hnone y hy hlive
  · exact fun hall x hx hlive => hdead x hlive (hall x hx)

end

end TokiSync.TokenLedger
