import TokiSync.Utf8Slices

/-!
# Searching and replacing in text by byte positions

A pattern is searched among the bytes of a text. Where it is found first the
text splits into characters before it, the pattern and characters behind it,
since no byte inside of a character begins another one. A range between two
such places is replaced. Nothing here mentions a program.
-/

namespace TokiSync.TextEdits

open ByteKeys LossyText Utf8Slices

section

variable {α : Type}

/-- The first place of a pattern in a list, by what stands before and behind
it. -/
structure First (pattern text front back : List α) : Prop where
  /-- The pattern is there. -/
  split : text=front++pattern++back
  /-- It is at no place before. -/
  least : ∀ n, n<front.length → ¬pattern<+:text.drop n

/-- A pattern has one first place. -/
theorem First.unique {pattern text front back front' back' : List α}
    (h : First pattern text front back) (h' : First pattern text front' back') :
    front=front' ∧ back=back' := by
  have hat : ∀ {front back : List α}, text=front++pattern++back →
      pattern<+:text.drop front.length := by
    intro front back hsplit
    rw [hsplit,List.append_assoc,List.drop_left]
    exact List.prefix_append pattern back
  have hlength : front.length=front'.length := by
    refine Nat.le_antisymm ?_ ?_
    · exact Nat.le_of_not_lt fun hlt => h.least _ hlt (hat h'.split)
    · exact Nat.le_of_not_lt fun hlt => h'.least _ hlt (hat h.split)
  have hboth := h.split.symm.trans h'.split
  rw [List.append_assoc,List.append_assoc] at hboth
  obtain ⟨hfront,hbehind⟩ := List.append_inj hboth hlength
  exact ⟨hfront,List.append_cancel_left hbehind⟩

/-- A symbol is first behind those that are different. -/
theorem first_singleton {a : α} {front : List α} (h : a∉front) (back : List α) :
    First [a] (front++a::back) front back := by
  refine ⟨(List.append_cons front a back),fun n hn hpre => ?_⟩
  rw [List.drop_append_of_le_length hn.le,List.drop_eq_getElem_cons hn,List.cons_append,
    List.cons_prefix_cons] at hpre
  exact h (hpre.1 ▸ List.getElem_mem hn)

variable [DecidableEq α]

/-- The first position at which a pattern begins. -/
def findPos (pattern : List α) : List α → Option ℕ
  | [] => if pattern=[] then some 0 else none
  | a::as => if pattern<+:a::as then some 0 else (findPos pattern as).map (·+1)

variable {pattern text : List α}

/-- No position is found exactly when the pattern is not there. -/
theorem findPos_eq_none_iff : findPos pattern text=none ↔ ¬pattern<:+:text := by
  induction text with
  | nil =>
    rw [findPos,List.infix_nil]
    by_cases hempty : pattern=[]
    · rw [if_pos hempty]
      exact iff_of_false (Option.some_ne_none 0) (not_not_intro hempty)
    · rw [if_neg hempty]
      exact iff_of_true rfl hempty
  | cons a as ih =>
    rw [findPos,List.infix_cons_iff,not_or]
    by_cases hpre : pattern<+:a::as
    · rw [if_pos hpre]
      exact iff_of_false (Option.some_ne_none 0) fun h => h.1 hpre
    · rw [if_neg hpre,Option.map_eq_none_iff,ih,and_iff_right hpre]

/-- A position that is found splits the list. -/
theorem first_of_findPos {n : ℕ} (h : findPos pattern text=some n) :
    ∃ front back, First pattern text front back ∧ front.length=n := by
  induction text generalizing n with
  | nil =>
    rw [findPos] at h
    split_ifs at h with hempty
    cases h
    cases hempty
    exact ⟨[],[],⟨rfl,fun n hn => absurd hn (Nat.not_lt_zero n)⟩,rfl⟩
  | cons a as ih =>
    rw [findPos] at h
    split_ifs at h with hpre
    · cases h
      obtain ⟨back,hback⟩ := hpre
      exact ⟨[],back,⟨hback.symm,fun n hn => absurd hn (Nat.not_lt_zero n)⟩,rfl⟩
    · obtain ⟨m,hm,rfl⟩ := Option.map_eq_some_iff.mp h
      obtain ⟨front,back,hfirst,rfl⟩ := ih hm
      refine ⟨a::front,back,⟨?_,?_⟩,rfl⟩
      · rw [hfirst.split]
        rfl
      · intro n hn
        cases n with
        | zero => exact hpre
        | succ n => exact hfirst.least n (Nat.succ_lt_succ_iff.mp hn)

/-- A pattern that is there has a first place. -/
theorem exists_first (h : pattern<:+:text) : ∃ front back, First pattern text front back := by
  cases hfind : findPos pattern text with
  | none => exact absurd h (findPos_eq_none_iff.mp hfind)
  | some n =>
    obtain ⟨front,back,hfirst,-⟩ := first_of_findPos hfind
    exact ⟨front,back,hfirst⟩

/-- The first place is found. -/
theorem findPos_of_first {front back : List α} (h : First pattern text front back) :
    findPos pattern text=some front.length := by
  cases hfind : findPos pattern text with
  | none => exact absurd ⟨front,back,h.split.symm⟩ (findPos_eq_none_iff.mp hfind)
  | some n =>
    obtain ⟨front',back',hfirst,rfl⟩ := first_of_findPos hfind
    rw [(h.unique hfirst).1]

/-- A pattern is not found among symbols that are not its first one. -/
theorem findPos_append {a : α} {as skipped : List α} (h : a∉ skipped) (text : List α) :
    findPos (a::as) (skipped++text)=(findPos (a::as) text).map (·+skipped.length) := by
  induction skipped with
  | nil =>
    rw [List.nil_append]
    exact Option.map_id'.symm
  | cons b bs ih =>
    rw [List.mem_cons,not_or] at h
    have hpre : ¬a::as<+:b::(bs++text) := by
      rw [List.cons_prefix_cons]
      exact fun heq => h.1 heq.1
    rw [List.cons_append,findPos,if_neg hpre,ih h.2,Option.map_map]
    rfl

end

/-- Bytes of characters begin with those of others exactly when the characters
do. -/
theorem bytesOf_prefix_iff {ps cs : List Char} : bytesOf ps<+:bytesOf cs ↔ ps<+:cs := by
  constructor
  · intro h
    induction ps generalizing cs with
    | nil => exact List.nil_prefix
    | cons p ps ih =>
      obtain ⟨back,hback⟩ := h
      have hhead : headChar (bytesOf cs)=some p := by
        rw [←hback,bytesOf_cons,List.append_assoc,headChar_append]
      cases cs with
      | nil =>
        -- the bytes of a character are not empty
        obtain ⟨first,rest,hp⟩ := exists_encoded p
        rw [bytesOf_cons,hp.bytes] at hback
        cases hback
      | cons c cs =>
        rw [bytesOf_cons,headChar_append] at hhead
        cases hhead
        rw [bytesOf_cons,bytesOf_cons,List.append_assoc,List.append_cancel_left_eq] at hback
        exact List.cons_prefix_cons.mpr ⟨rfl,ih ⟨back,hback⟩⟩
  · rintro ⟨back,rfl⟩
    exact ⟨bytesOf back,(bytesOf_append ps back).symm⟩

/-- Bytes of characters are found in front of a character. -/
theorem findPos_bytesOf {pattern : List Char} (h : pattern≠[]) (cs : List Char) :
    findPos (bytesOf pattern) (bytesOf cs)=
      (findPos pattern cs).map fun n => (bytesOf (cs.take n)).length := by
  cases pattern with
  | nil => exact absurd rfl h
  | cons p ps =>
    obtain ⟨first,rest,hp⟩ := exists_encoded p
    induction cs with
    | nil =>
      rw [bytesOf_cons,hp.bytes]
      rfl
    | cons c cs ih =>
      obtain ⟨byte,others,hc⟩ := exists_encoded c
      -- the bytes that continue the character are not the first one of the pattern
      have hnot : first∉others := by
        intro hmem
        have hcontinues := hc.continues first hmem
        rw [hp.starts] at hcontinues
        cases hcontinues
      by_cases hpre : p::ps<+:c::cs
      · have hbytes := bytesOf_prefix_iff.mpr hpre
        rw [findPos,if_pos hpre]
        rw [bytesOf_cons c,hc.bytes,List.cons_append] at hbytes ⊢
        rw [findPos,if_pos hbytes]
        rfl
      · have hbytes := mt bytesOf_prefix_iff.mp hpre
        rw [findPos,if_neg hpre]
        rw [bytesOf_cons c,hc.bytes,List.cons_append] at hbytes ⊢
        rw [findPos,if_neg hbytes]
        rw [bytesOf_cons,hp.bytes,List.cons_append] at ih ⊢
        rw [findPos_append hnot,ih,Option.map_map,Option.map_map,Option.map_map]
        congr 1
        funext n
        simp only [Function.comp_apply,List.take_succ_cons,bytesOf_cons,hc.bytes,
          List.length_append,List.length_cons]
        omega

/-- Bytes of a text made of characters. -/
theorem utf8_ofList (cs : List Char) : utf8 (String.ofList cs)=bytesOf cs := by
  rw [utf8_eq_bytesOf,String.toList_ofList]

/-- Byte position of the first place of a pattern in a text. -/
def find (pattern text : String) : Option ℕ := findPos (utf8 pattern) (utf8 text)

section

variable {pattern : String} {p : Char} {ps cs front back : List Char}

/-- Nothing is found exactly when the pattern is not there. -/
theorem find_eq_none_iff (h : pattern.toList=p::ps) :
    find pattern (String.ofList cs)=none ↔ ¬p::ps<:+:cs := by
  rw [find,utf8_ofList,utf8_eq_bytesOf,h,findPos_bytesOf (List.cons_ne_nil p ps),
    Option.map_eq_none_iff,findPos_eq_none_iff]

/-- A pattern is found behind the bytes of what stands before its first
place. -/
theorem find_of_first (h : pattern.toList=p::ps) (hfirst : First (p::ps) cs front back) :
    find pattern (String.ofList cs)=some (bytesOf front).length := by
  rw [find,utf8_ofList,utf8_eq_bytesOf,h,findPos_bytesOf (List.cons_ne_nil p ps),
    findPos_of_first hfirst,Option.map_some,hfirst.split,List.append_assoc,List.take_left]

end

/-- Replace the bytes between two positions of a text; none where the range
does not lie between ordered character boundaries. -/
def replaceRange (text : String) (start stop : ℕ) (value : String) : Option String := do
  let front ← slice text 0 start
  let _ ← slice text start stop
  let back ← slice text stop (utf8 text).length
  pure (front++value++back)

section

variable {text : String} {pos : ℕ} {rest : List Char}

/-- The slice from a position to the end is the characters there. -/
theorem At.slice_end (h : At text pos rest) :
    slice text pos (utf8 text).length=some (String.ofList rest) := by
  have hwhole : At text pos (rest++[]) := by
    rw [List.append_nil]
    exact h
  rw [←h.length_eq]
  exact hwhole.slice

/-- Replacing characters keeps those before and behind them. -/
theorem replaceRange_eq (front mid rest : List Char) (value : String) :
    replaceRange (String.ofList (front++mid++rest)) (bytesOf front).length
      ((bytesOf front).length+(bytesOf mid).length) value=
        some (String.ofList (front++value.toList++rest)) := by
  have hstart : At (String.ofList (front++mid++rest)) 0 (front++(mid++rest)) := by
    have hzero := at_zero (String.ofList (front++mid++rest))
    rw [String.toList_ofList,List.append_assoc] at hzero
    rw [List.append_assoc]
    exact hzero
  have hfront := hstart.slice
  have hmid := hstart.move
  have hrest := hmid.move
  rw [Nat.zero_add] at hfront hmid hrest
  rw [replaceRange,hfront,hmid.slice,At.slice_end hrest]
  simp only [Option.bind_eq_bind,Option.bind_some,Option.pure_def,Option.some.injEq]
  rw [←String.toList_inj]
  simp only [String.toList_append,String.toList_ofList]

end

end TokiSync.TextEdits
