import TokiSync.TextEdits

/-!
# One pass over a text with placeholders

A placeholder opens with two symbols and its name goes up to the first closing
symbol. The pass reads every symbol of the text once, from left to right, and
writes values in place of the placeholders; what it writes is never read. A
placeholder that is not closed is written as it was read. Symbols and values
are arbitrary.
-/

namespace TokiSync.Placeholders

open TextEdits

section

variable {α : Type} [DecidableEq α] (opens opens' closes : α) (value : List α → List α)

/-- Fill the placeholders of a text, given the part of a name already read when
the pass is inside of a placeholder. -/
def fill : Option (List α) → List α → List α
  | none,[] => []
  | none,[c] => [c]
  | none,c::d::cs =>
    if c=opens ∧ d=opens' then fill (some []) cs
    else c::fill none (d::cs)
  | some name,[] => opens::opens'::name
  | some name,c::cs =>
    if c=closes then value name++fill none cs
    else fill (some (name++[c])) cs

variable {opens opens' closes value} {text front back name rest : List α}

/-- A text in which no placeholder opens is copied. -/
theorem fill_absent (h : ¬[opens,opens']<:+:text) :
    fill opens opens' closes value none text=text := by
  induction text with
  | nil => rfl
  | cons c cs ih =>
    rw [List.infix_cons_iff,not_or] at h
    cases cs with
    | nil => rfl
    | cons d ds =>
      have hnot : ¬(c=opens ∧ d=opens') := by
        rintro ⟨rfl,rfl⟩
        exact h.1 ⟨ds,rfl⟩
      rw [fill,if_neg hnot,ih h.2]

/-- A text is copied up to the first placeholder. -/
theorem fill_first (h : First [opens,opens'] text front back) :
    fill opens opens' closes value none text=
      front++fill opens opens' closes value (some []) back := by
  rw [h.split]
  have hleast := h.least
  rw [h.split] at hleast
  clear h
  induction front with
  | nil =>
    show fill opens opens' closes value none (opens::opens'::back)=_
    rw [fill,if_pos ⟨rfl,rfl⟩]
    rfl
  | cons c cs ih =>
    have hrest := ih fun n hn => hleast (n+1) (Nat.succ_lt_succ hn)
    have hhere := hleast 0 (Nat.succ_pos _)
    rw [List.drop_zero] at hhere
    cases hcs : cs++[opens,opens']++back with
    | nil =>
      rw [List.append_assoc] at hcs
      cases (List.append_eq_nil_iff.mp hcs).2
    | cons d ds =>
      rw [List.cons_append,List.cons_append,hcs] at hhere ⊢
      rw [hcs] at hrest
      have hnot : ¬(c=opens ∧ d=opens') := by
        rintro ⟨rfl,rfl⟩
        exact hhere ⟨ds,rfl⟩
      rw [fill,if_neg hnot,hrest]
      rfl

/-- A placeholder that is not closed is copied with all that is behind it. -/
theorem fill_unclosed (h : closes∉back) :
    fill opens opens' closes value (some name) back=opens::opens'::(name++back) := by
  induction back generalizing name with
  | nil => rw [fill,List.append_nil]
  | cons c cs ih =>
    rw [List.mem_cons,not_or] at h
    rw [fill,if_neg (Ne.symm h.1),ih h.2,List.append_assoc,List.singleton_append]

/-- A placeholder is replaced by the value of its name, which ends at the first
closing symbol. -/
theorem fill_closed (h : closes∉front) :
    fill opens opens' closes value (some name) (front++closes::rest)=
      value (name++front)++fill opens opens' closes value none rest := by
  induction front generalizing name with
  | nil => rw [List.nil_append,fill,if_pos rfl,List.append_nil]
  | cons c cs ih =>
    rw [List.mem_cons,not_or] at h
    rw [List.cons_append,fill,if_neg (Ne.symm h.1),ih h.2,List.append_assoc,List.singleton_append]

end

end TokiSync.Placeholders
