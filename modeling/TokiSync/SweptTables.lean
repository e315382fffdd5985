import TokiSync.Runs
import Mathlib.Tactic.SplitIfs

/-!
# Tables whose entries expire

A table keeps one entry per key. Calls at successive instants read and replace
the entry of their key, and now and then a sweep drops entries. An entry is
inert at an instant when all calls from then on treat it like a missing one.
As long as only inert entries are dropped, every call finds what the calls of
its key alone would have left. Tables, entries and calls are arbitrary.
-/

namespace TokiSync.SweptTables

open Runs

/-- An entry of a swept table stands for one that is never swept: they are the
same, or the entry was dropped and the other one is inert. -/
def Agree {ε : Type} (inert : ℕ → ε → Prop) (now : ℕ) (held kept : Option ε) : Prop :=
  held=kept ∨ held=none ∧ ∀ e∈kept, inert now e

/-- State that the calls of a history, newest first, lead to. -/
def replay {σ β : Type} (step : σ → β → σ) (init : σ) : List β → σ
  | [] => init
  | c::past => step (replay step init past) c

/-- A property of all calls of a history is one of every call. -/
theorem always_of_mem {β : Type} {P : β → List β → Prop} :
    ∀ {history : List β}, (∀ c∈history, ∀ past, P c past) → Always P history
  | [],_ => trivial
  | c::past,h => ⟨h c List.mem_cons_self past,
    always_of_mem fun d hd => h d (List.mem_cons_of_mem _ hd)⟩

/-- A weaker property of every call. -/
theorem always_imp {β : Type} {P Q : β → List β → Prop} (h : ∀ c past, P c past → Q c past) :
    ∀ {history : List β}, Always P history → Always Q history
  | [],_ => trivial
  | c::past,hall => ⟨h c past hall.1,always_imp h hall.2⟩

/-- No call of a history, newest first, comes before an older one. -/
def Chronological {β : Type} (time : β → ℕ) (history : List β) : Prop :=
  history.Pairwise fun newer older => time older≤time newer

instance {β : Type} (time : β → ℕ) (history : List β) : Decidable (Chronological time history) :=
  inferInstanceAs (Decidable (history.Pairwise fun newer older => time older≤time newer))

section

variable {ε ρ : Type} {inert : ℕ → ε → Prop} {now next : ℕ} {held kept : Option ε}

/-- Inert entries stay inert. -/
theorem Agree.later (h : Agree inert now held kept)
    (hlasts : ∀ e, inert now e → inert next e) : Agree inert next held kept := by
  rcases h with h | ⟨hnone,hinert⟩
  · exact Or.inl h
  · exact Or.inr ⟨hnone,fun e he => hlasts e (hinert e he)⟩

/-- A sweep that drops inert entries. -/
theorem Agree.filter {live : ε → Bool} (h : Agree inert now held kept)
    (hdrop : ∀ e∈held, live e=false → inert now e) : Agree inert now (held.filter live) kept := by
  rcases h with rfl | ⟨hnone,hinert⟩
  · cases held with
    | none => exact Or.inl rfl
    | some e =>
      rw [Option.filter_some]
      split_ifs with hlive
      · exact Or.inl rfl
      · refine Or.inr ⟨rfl,fun d hd => ?_⟩
        cases hd
        exact hdrop e rfl (Bool.eq_false_iff.mpr hlive)
  · rw [hnone,Option.filter_none]
    exact Or.inr ⟨rfl,hinert⟩

/-- A call that treats inert entries like missing ones finds no difference. -/
theorem Agree.apply_eq (h : Agree inert now held kept) (act : Option ε → ρ)
    (hact : ∀ e, inert now e → act (some e)=act none) : act held=act kept := by
  rcases h with h | ⟨hnone,hinert⟩
  · rw [h]
  · cases kept with
    | none => rw [hnone]
    | some e => rw [hnone,hact e (hinert e rfl)]

end

section

variable {σ β ε : Type} {inert : ℕ → ε → Prop} {step : σ → β → σ} {init : σ}
variable (entry : σ → Option ε) (alone : Option ε → β → Option ε) {time : β → ℕ}

/-- When every call keeps the agreement at its instant, calls at successive
instants keep it. -/
theorem Agree.replay (P : σ → β → Prop)
    (hlasts : ∀ e now next, now≤next → inert now e → inert next e)
    (hstep : ∀ s c kept, P s c → Agree inert (time c) (entry s) kept →
      Agree inert (time c) (entry (step s c)) (alone kept c))
    {history : List β} {last : ℕ}
    (hP : Always (fun c past => P (SweptTables.replay step init past) c) history)
    (hchron : Chronological time history) (hto : ∀ c∈history, time c≤last) :
    Agree inert last (entry (SweptTables.replay step init history))
      (SweptTables.replay alone (entry init) history) := by
  induction history generalizing last with
  | nil => exact Or.inl rfl
  | cons c past ih =>
    rw [Chronological,List.pairwise_cons] at hchron
    have hbefore := ih hP.2 hchron.2 hchron.1
    have hafter := hstep _ c _ hP.1 hbefore
    exact hafter.later fun e => hlasts e _ last (hto c List.mem_cons_self)

variable {alone}

/-- Calls that do not concern an entry can be left out. -/
theorem replay_filter {own : β → Bool} (hother : ∀ kept c, own c=false → alone kept c=kept)
    (kept : Option ε) (history : List β) :
    replay alone kept (history.filter own)=replay alone kept history := by
  induction history with
  | nil => rfl
  | cons c past ih =>
    cases hown : own c with
    | true => rw [List.filter_cons_of_pos hown,replay,replay,ih]
    | false =>
      rw [List.filter_cons_of_neg (Bool.eq_false_iff.mp hown),ih,replay,hother _ c hown]

end

end TokiSync.SweptTables
