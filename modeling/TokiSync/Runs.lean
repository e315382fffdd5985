import Mathlib.Data.List.Basic
import Mathlib.Data.List.Forall2

/-!
# Runs of a step relation with their histories

A run starts from a given state and takes labelled steps. Its history lists
the labels with the newest first, so a property of what has happened so far is
a function defined by recursion on the history.

An observer may keep some labels of a history, perhaps in part, and erase the
others: when an erased step is invisible to it and kept steps from alike states
end in alike states, the whole run and the run of what is kept end alike. A
part of a state may take at most one step of its own with every step of the
whole: then every run of the whole shows a run of the part, whose steps stem in
order from steps of the whole. States, labels and the step relation are
arbitrary.
-/

namespace TokiSync.Runs

section

variable {σ α : Type} {step : σ → α → σ → Prop} {init : σ}

/-- States reached from the initial one, with the labels of the steps taken,
newest first. -/
inductive Run (step : σ → α → σ → Prop) (init : σ) : List α → σ → Prop where
  /-- Nothing has happened yet. -/
  | start : Run step init [] init
  /-- One more step. -/
  | next {past : List α} {s t : σ} (op : α) (run : Run step init past s) (taken : step s op t) :
      Run step init (op::past) t

/-- Every step of a history has a property, in view of the steps before it. -/
def Always (P : α → List α → Prop) : List α → Prop
  | [] => True
  | op::past => P op past ∧ Always P past

/-- A run of a step relation is a run of every larger one. -/
theorem Run.mono {step' : σ → α → σ → Prop} (hmono : ∀ s op t, step s op t → step' s op t)
    {history : List α} {s : σ} (run : Run step init history s) : Run step' init history s := by
  induction run with
  | start => exact .start
  | next op run taken ih => exact .next op ih (hmono _ op _ taken)

/-- A run takes the older part of its history before the newer part. -/
theorem Run.split {newer older : List α} {t : σ} (run : Run step init (newer++older) t) :
    ∃ s, Run step init older s ∧ Run step s newer t := by
  induction newer generalizing t with
  | nil => exact ⟨t,run,.start⟩
  | cons op newer ih =>
    cases run with
    | next _ run taken =>
      obtain ⟨s,holder,hnewer⟩ := ih run
      exact ⟨s,holder,.next op hnewer taken⟩

/-- What holds initially and is kept by every step holds in every state
reached. The property may speak about the history. -/
theorem Run.invariant {I : List α → σ → Prop} (hinit : I [] init)
    (hstep : ∀ past s op t, Run step init past s → I past s → step s op t → I (op::past) t)
    {history : List α} {s : σ} (run : Run step init history s) : I history s := by
  induction run with
  | start => exact hinit
  | next op run taken ih => exact hstep _ _ op _ run ih taken

section

variable {A : List α → Prop} (htail : ∀ op past, A (op::past) → A past)

include htail

/-- The invariant rule for admissible histories. -/
theorem Run.invariant_of {I : List α → σ → Prop} (hinit : I [] init)
    (hstep : ∀ past s op t, Run step init past s → A (op::past) → I past s → step s op t →
      I (op::past) t)
    {history : List α} {s : σ} (hA : A history) (run : Run step init history s) :
    I history s := by
  induction run with
  | start => exact hinit
  | next op run taken ih => exact hstep _ _ op _ run hA (ih (htail op _ hA)) taken

/-- When every state reached has one successor per label, an admissible
history determines the state. -/
theorem Run.deterministic
    (hdet : ∀ past s op t t', Run step init past s → A (op::past) →
      step s op t → step s op t' → t=t')
    {history : List α} {s s' : σ} (hA : A history) (run : Run step init history s)
    (run' : Run step init history s') : s=s' := by
  induction run generalizing s' with
  | start =>
    cases run'
    rfl
  | next op run taken ih =>
    cases run' with
    | next _ run' taken' =>
      cases ih (htail op _ hA) run'
      exact hdet _ _ op _ _ run hA taken taken'

/-- Runs whose steps meet one guard meet another, when the first guard and an
invariant imply the second guard and the invariant after the step. -/
theorem Run.change_guard {P Q : σ → α → σ → Prop} {I : σ → Prop} (hinit : I init)
    (hstep : ∀ past s op t, A (op::past) → I s → step s op t → P s op t → Q s op t ∧ I t)
    {history : List α} {s : σ} (hA : A history)
    (run : Run (fun a op b => step a op b ∧ P a op b) init history s) :
    I s ∧ Run (fun a op b => step a op b ∧ Q a op b) init history s := by
  induction run with
  | start => exact ⟨hinit,.start⟩
  | next op run taken ih =>
    obtain ⟨hI,run'⟩ := ih (htail op _ hA)
    obtain ⟨hQ,hI'⟩ := hstep _ _ op _ hA hI taken.1 taken.2
    exact ⟨hI',.next op run' ⟨taken.1,hQ⟩⟩

end

/-- Histories of admissible labels. -/
theorem forall_mem_tail {p : α → Prop} (op : α) (past : List α) (h : ∀ x∈op::past, p x) :
    ∀ x∈past, p x :=
  fun x hx => h x (List.mem_cons_of_mem _ hx)

end

section

variable {σ α : Type} {step : σ → α → σ → Prop} {init : σ}

/-- When no step is ever refused every history has a run. -/
theorem exists_run (htotal : ∀ s op, ∃ t, step s op t) (history : List α) :
    ∃ s, Run step init history s := by
  induction history with
  | nil => exact ⟨init,.start⟩
  | cons op past ih =>
    obtain ⟨s,run⟩ := ih
    obtain ⟨t,taken⟩ := htotal s op
    exact ⟨t,.next op run taken⟩

section

variable {keep : α → Option α} {P : α → Prop} {I : σ → Prop} {alike : σ → σ → Prop}
variable (hkeep : ∀ op op', P op → keep op=some op' → P op')
variable (hI : I init) (hstep : ∀ s op t, P op → I s → step s op t → I t)
variable (halike : alike init init)
variable (herase : ∀ s s' op t, P op → keep op=none → I s → alike s s' → step s op t → alike t s')
variable (hpair : ∀ s s' op op' t t', P op → keep op=some op' → I s → I s' → alike s s' →
  step s op t → step s' op' t' → alike t t')

include hkeep hI hstep halike herase hpair

/-- The unwinding rule: states stay alike over a step that is erased and over
a step that is kept, so the whole run and the kept one end alike. The labels
are admissible, and an invariant of admissible steps holds on both sides. -/
theorem erased_alike {history : List α} {s s' : σ} (hP : ∀ op∈history, P op)
    (run : Run step init history s) (run' : Run step init (history.filterMap keep) s') :
    I s ∧ I s' ∧ alike s s' := by
  induction run generalizing s' with
  | start =>
    cases run'
    exact ⟨hI,hI,halike⟩
  | next op run taken ih =>
    have hop := hP op List.mem_cons_self
    have hpast := forall_mem_tail op _ hP
    cases hkept : keep op with
    | none =>
      rw [List.filterMap_cons_none hkept] at run'
      obtain ⟨hs,hs',hsame⟩ := ih hpast run'
      exact ⟨hstep _ op _ hop hs taken,hs',herase _ _ op _ hop hkept hs hsame taken⟩
    | some op' =>
      rw [List.filterMap_cons_some hkept] at run'
      cases run' with
      | next _ run' taken' =>
        obtain ⟨hs,hs',hsame⟩ := ih hpast run'
        have hop' := hkeep op op' hop hkept
        exact ⟨hstep _ op _ hop hs taken,hstep _ op' _ hop' hs' taken',
          hpair _ _ op op' _ _ hop hkept hs hs' hsame taken taken'⟩

end

end

section

variable {σ τ α β γ : Type} {step : σ → α → σ → Prop} {partStep : τ → β → τ → Prop}
variable {part : σ → τ} {stem : β → α → Prop} {seen : α → Option γ} {partSeen : β → Option γ}

/-- A step of the whole is no step of the part and not observed, or one step of
the part with the same observation. -/
def Projects (step : σ → α → σ → Prop) (partStep : τ → β → τ → Prop) (part : σ → τ)
    (stem : β → α → Prop) (seen : α → Option γ) (partSeen : β → Option γ) : Prop :=
  ∀ s op t, step s op t → (part t=part s ∧ seen op=none) ∨
    ∃ b, stem b op ∧ partSeen b=seen op ∧ partStep (part s) b (part t)

/-- A run shows a run of the part. -/
theorem Projects.run (h : Projects step partStep part stem seen partSeen) {init s : σ}
    {history : List α} (run : Run step init history s) :
    ∃ labels, Run partStep (part init) labels (part s) ∧
      List.SublistForall₂ stem labels history ∧
      labels.filterMap partSeen=history.filterMap seen := by
  induction run with
  | start => exact ⟨[],.start,.nil,rfl⟩
  | next op run taken ih =>
    obtain ⟨labels,hrun,hstem,hseen⟩ := ih
    rcases h _ op _ taken with ⟨hsame,hnone⟩ | ⟨b,hb,hobserved,htaken⟩
    · refine ⟨labels,?_,.cons_right hstem,?_⟩
      · rw [hsame]
        exact hrun
      · rw [hseen,List.filterMap_cons_none hnone]
    · refine ⟨b::labels,.next b hrun htaken,.cons hb hstem,?_⟩
      rw [List.filterMap_cons,List.filterMap_cons,hobserved,hseen]

/-- Every step of the part stems from a step of the whole. -/
theorem stem_of_mem {labels : List β} {history : List α}
    (h : List.SublistForall₂ stem labels history) {b : β} (hb : b∈labels) :
    ∃ op∈history, stem b op := by
  induction h with
  | nil => cases hb
  | cons hstem _ ih =>
    rcases List.mem_cons.mp hb with rfl | hb
    · exact ⟨_,List.mem_cons_self,hstem⟩
    · obtain ⟨op,hop,hstem⟩ := ih hb
      exact ⟨op,List.mem_cons_of_mem _ hop,hstem⟩
  | cons_right _ ih =>
    obtain ⟨op,hop,hstem⟩ := ih hb
    exact ⟨op,List.mem_cons_of_mem _ hop,hstem⟩

end

end TokiSync.Runs
