import TokiSync.DurationText

/-!
# The grammar of durations

A duration is a number of seconds, possibly with a plus sign, or a sequence of
numbers with units. The parser tries three readings in turn and checks every
product and sum; together they accept exactly the texts of this grammar whose
exact value is positive and fits a signed 64-bit word.
-/

namespace TokiSync.DurationGrammar

open TokiSync.AdminAccounts (AppError)
open TokiSync.DurationText

/-- Units with their seconds. -/
def units : List (Char×ℕ) :=
  [('w',604800),('d',86400),('h',3600),('m',60),('s',1),('y',31536000)]

/-- Decimal digits of a value. -/
structure Decimal (digits : List Char) (value : ℕ) : Prop where
  /-- There are digits. -/
  ne_nil : digits≠[]
  /-- There is nothing else. -/
  digit : ∀ c∈digits, isAsciiDigit c
  /-- They have the value. -/
  value_eq : digitsValue digits=value

/-- Numbers with units, and the exact sum of their seconds. -/
inductive Items : List Char → ℕ → Prop where
  | nil : Items [] 0
  | cons {digits rest : List Char} {value secs sum : ℕ} (unit : Char)
      (hdigits : Decimal digits value) (hunit : (unit,secs)∈units) (hrest : Items rest sum) :
      Items (digits++unit::rest) (value*secs+sum)

/-- What a text means as a duration. -/
def Means (s : List Char) (n : ℕ) : Prop :=
  (∃ digits, Decimal digits n ∧ (s=digits ∨ s= '+'::digits)) ∨ (s≠[] ∧ Items s n)

/-- The parser's units are those of the grammar. -/
theorem unitSecs_eq_some_iff {c : Char} {n : ℤ} :
    unitSecs c=some n ↔ ∃ secs : ℕ, (c,secs)∈units ∧ (secs : ℤ)=n := by
  unfold unitSecs units
  constructor
  · intro h
    split_ifs at h with hd hh hm hs hw hy
    · exact ⟨86400,by rw [hd]; decide,Option.some.inj h⟩
    · exact ⟨3600,by rw [hh]; decide,Option.some.inj h⟩
    · exact ⟨60,by rw [hm]; decide,Option.some.inj h⟩
    · exact ⟨1,by rw [hs]; decide,Option.some.inj h⟩
    · exact ⟨604800,by rw [hw]; decide,Option.some.inj h⟩
    · exact ⟨31536000,by rw [hy]; decide,Option.some.inj h⟩
  · rintro ⟨secs,hmem,rfl⟩
    simp only [List.mem_cons,List.not_mem_nil,or_false,Prod.mk.injEq] at hmem
    rcases hmem with ⟨rfl,rfl⟩ | ⟨rfl,rfl⟩ | ⟨rfl,rfl⟩ | ⟨rfl,rfl⟩ | ⟨rfl,rfl⟩ | ⟨rfl,rfl⟩ <;> rfl

section

variable {digits rest s : List Char} {value secs sum n : ℕ} {unit : Char}

/-- Units are no digits and count at least a second. -/
theorem unit_facts (h : (unit,secs)∈units) : isAsciiDigit unit=false ∧ 0 < secs := by
  simp only [units,List.mem_cons,List.not_mem_nil,or_false,Prod.mk.injEq] at h
  rcases h with ⟨rfl,rfl⟩ | ⟨rfl,rfl⟩ | ⟨rfl,rfl⟩ | ⟨rfl,rfl⟩ | ⟨rfl,rfl⟩ | ⟨rfl,rfl⟩ <;> decide

/-- The digits in front of a character that is none are determined. -/
theorem digits_unique {digits' rest' : List Char} {c c' : Char} (hdigits : ∀ d∈digits, isAsciiDigit d)
    (hdigits' : ∀ d∈digits', isAsciiDigit d) (hc : isAsciiDigit c=false)
    (hc' : isAsciiDigit c'=false) (h : digits++c::rest=digits'++c'::rest') :
    digits=digits' ∧ c=c' ∧ rest=rest' := by
  induction digits generalizing digits' with
  | nil =>
    cases digits' with
    | nil =>
      obtain ⟨hcc,hrest⟩ := List.cons.inj h
      exact ⟨rfl,hcc,hrest⟩
    | cons d digits' =>
      rw [(List.cons.inj h).1] at hc
      exact absurd (hdigits' d List.mem_cons_self) (by rw [hc]; simp)
  | cons d digits ih =>
    cases digits' with
    | nil =>
      rw [←(List.cons.inj h).1] at hc'
      exact absurd (hdigits d List.mem_cons_self) (by rw [hc']; simp)
    | cons d' digits' =>
      obtain ⟨hd,htail⟩ := List.cons.inj h
      obtain ⟨hdd,hcc,hrest⟩ := ih (fun e he => hdigits e (List.mem_cons_of_mem d he))
        (fun e he => hdigits' e (List.mem_cons_of_mem d' he)) htail
      exact ⟨by rw [hd,hdd],hcc,hrest⟩

/-- A character that is no digit ends the first number and has to be its
unit. -/
theorem items_unit_iff (hdigits : ∀ c∈digits, isAsciiDigit c) (hunit : isAsciiDigit unit=false) :
    Items (digits++unit::rest) n ↔ digits≠[] ∧ ∃ secs sum, (unit,secs)∈units ∧ Items rest sum ∧
      n=digitsValue digits*secs+sum := by
  constructor
  · intro h
    generalize htext : digits++unit::rest=text at h
    cases h with
    | nil => exact absurd htext (List.append_ne_nil_of_right_ne_nil _ (List.cons_ne_nil _ _))
    | @cons digits' rest' value secs sum unit' hdigits' hunit' hrest =>
      obtain ⟨rfl,rfl,rfl⟩ := digits_unique hdigits hdigits'.digit hunit (unit_facts hunit').1 htext
      exact ⟨hdigits'.ne_nil,secs,sum,hunit',hrest,by rw [hdigits'.value_eq]⟩
  · rintro ⟨hne,secs,sum,hmem,hrest,rfl⟩
    exact .cons unit ⟨hne,hdigits,rfl⟩ hmem hrest

/-- No text, no seconds. -/
theorem items_nil (h : Items [] n) : n=0 := by
  generalize htext : ([] : List Char)=text at h
  cases h with
  | nil => rfl
  | cons unit _ _ _ =>
    exact absurd htext.symm (List.append_ne_nil_of_right_ne_nil _ (List.cons_ne_nil _ _))

/-- Digits alone are no numbers with units. -/
theorem not_items_of_digits (hne : digits≠[]) (hdigits : ∀ c∈digits, isAsciiDigit c) :
    ¬Items digits n := by
  intro h
  cases h with
  | nil => exact hne rfl
  | cons unit _ hunit _ =>
    have hdigit := hdigits unit (List.mem_append_right _ List.mem_cons_self)
    rw [(unit_facts hunit).1] at hdigit
    cases hdigit

end

/-- Reading digits succeeds exactly on decimal digits. -/
theorem parseDigits_eq_some_iff {digits : List Char} {value : ℕ} :
    parseDigits digits=some value ↔ Decimal digits value := by
  unfold parseDigits
  constructor
  · intro h
    split_ifs at h with hok
    exact ⟨hok.1,fun c hc => List.all_eq_true.mp hok.2 c hc,Option.some.inj h⟩
  · rintro ⟨hne,hdigits,hvalue⟩
    rw [if_pos ⟨hne,List.all_eq_true.mpr hdigits⟩,hvalue]

theorem toI64_eq_some_iff {value n : ℤ} : toI64 value=some n ↔ value=n ∧ -2^63≤n ∧ n<2^63 := by
  unfold toI64
  constructor
  · intro h
    split_ifs at h with hfits
    have heq := Option.some.inj h
    rw [←heq]
    exact ⟨rfl,hfits⟩
  · rintro ⟨rfl,hlow,hhigh⟩
    rw [if_pos ⟨hlow,hhigh⟩]

/-- A signed number is digits behind an optional sign, of a value that fits. -/
theorem parseI64_eq_some_iff {s : List Char} {n : ℤ} : parseI64 s=some n ↔
    -2^63≤n ∧ n<2^63 ∧ ∃ digits value, Decimal digits value ∧
      (((s=digits ∨ s= '+'::digits) ∧ n=value) ∨ (s= '-'::digits ∧ n= -(value : ℤ))) := by
  have hsign : ∀ {c : Char} {digits : List Char} {value : ℕ}, isAsciiDigit c=false →
      ¬Decimal (c::digits) value := by
    intro c digits value hc h
    have hdigit := h.digit c List.mem_cons_self
    rw [hc] at hdigit
    cases hdigit
  have hminus : isAsciiDigit '-'=false := by decide
  have hplus : isAsciiDigit '+'=false := by decide
  unfold parseI64
  split
  · rename_i digits
    simp only [Option.bind_eq_bind,Option.bind_eq_some_iff,parseDigits_eq_some_iff,
      toI64_eq_some_iff]
    constructor
    · rintro ⟨value,hdigits,rfl,hfits⟩
      exact ⟨hfits.1,hfits.2,digits,value,hdigits,Or.inr ⟨rfl,rfl⟩⟩
    · rintro ⟨hlow,hhigh,digits',value,hdigits,⟨heq | heq,-⟩ | ⟨heq,rfl⟩⟩
      · rw [←heq] at hdigits
        exact absurd hdigits (hsign hminus)
      · cases (List.cons.inj heq).1
      · rw [←(List.cons.inj heq).2] at hdigits
        exact ⟨value,hdigits,rfl,hlow,hhigh⟩
  · rename_i digits
    simp only [Option.bind_eq_bind,Option.bind_eq_some_iff,parseDigits_eq_some_iff,
      toI64_eq_some_iff]
    constructor
    · rintro ⟨value,hdigits,rfl,hfits⟩
      exact ⟨hfits.1,hfits.2,digits,value,hdigits,Or.inl ⟨Or.inr rfl,rfl⟩⟩
    · rintro ⟨hlow,hhigh,digits',value,hdigits,⟨heq | heq,rfl⟩ | ⟨heq,-⟩⟩
      · rw [←heq] at hdigits
        exact absurd hdigits (hsign hplus)
      · rw [←(List.cons.inj heq).2] at hdigits
        exact ⟨value,hdigits,rfl,hlow,hhigh⟩
      · cases (List.cons.inj heq).1
  · rename_i hnotminus hnotplus
    simp only [Option.bind_eq_bind,Option.bind_eq_some_iff,parseDigits_eq_some_iff,
      toI64_eq_some_iff]
    constructor
    · rintro ⟨value,hdigits,rfl,hfits⟩
      exact ⟨hfits.1,hfits.2,s,value,hdigits,Or.inl ⟨Or.inl rfl,rfl⟩⟩
    · rintro ⟨hlow,hhigh,digits',value,hdigits,⟨rfl | heq,rfl⟩ | ⟨heq,-⟩⟩
      · exact ⟨value,hdigits,rfl,hlow,hhigh⟩
      · exact absurd heq (hnotplus digits')
      · exact absurd heq (hnotminus digits')

/-- Digits read as a number are their value, when it fits. -/
theorem parseI64_digits {digits : List Char} (hne : digits≠[]) (hdigits : ∀ c∈digits, isAsciiDigit c)
    {n : ℤ} : parseI64 digits=some n ↔ (digitsValue digits : ℤ)=n ∧ n<2^63 := by
  rw [parseI64_eq_some_iff]
  constructor
  · rintro ⟨-,hhigh,digits',value,hdecimal,⟨rfl | rfl,rfl⟩ | ⟨rfl,-⟩⟩
    · exact ⟨by rw [hdecimal.value_eq],hhigh⟩
    · exact absurd (hdigits '+' List.mem_cons_self) (by decide)
    · exact absurd (hdigits '-' List.mem_cons_self) (by decide)
  · rintro ⟨rfl,hhigh⟩
    exact ⟨by omega,hhigh,digits,_,⟨hne,hdigits,rfl⟩,Or.inl ⟨Or.inl rfl,rfl⟩⟩

/-- What the loop accepts from a state on: numbers with units, the first of
which begins with the waiting digits, whose sum with the one so far is positive
and fits. The induction is on the text that is left. -/
theorem compoundSecs_eq_some_iff {text numBuf : List Char} {total : ℕ} {sawUnit : Bool} {n : ℤ}
    (hdigits : ∀ c∈numBuf, isAsciiDigit c) (htotal : total<2^63) :
    compoundSecs text total numBuf sawUnit=some n ↔
      0<n ∧ n<2^63 ∧ (sawUnit=true ∨ numBuf++text≠[]) ∧
        ∃ sum, Items (numBuf++text) sum ∧ n=(total+sum : ℕ) := by
  induction text generalizing numBuf total sawUnit with
  | nil =>
    rw [compoundSecs,List.append_nil]
    by_cases hbuf : numBuf=[]
    · subst hbuf
      constructor
      · intro h
        split_ifs at h with hbad
        have hsaw : sawUnit=true := by
          by_contra hsaw
          exact hbad (Or.inr (Or.inl (Bool.eq_false_iff.mpr hsaw)))
        have hpos : ¬((total : ℤ)≤0) := fun hle => hbad (Or.inr (Or.inr hle))
        rw [←Option.some.inj h]
        exact ⟨by omega,by omega,Or.inl hsaw,0,.nil,rfl⟩
      · rintro ⟨hpos,-,hsaw | hne,sum,hitems,hn⟩
        · rw [items_nil hitems,Nat.add_zero] at hn
          rw [if_neg,hn]
          rintro (hne | hsaw' | hle)
          · exact hne rfl
          · rw [hsaw] at hsaw'
            cases hsaw'
          · omega
        · exact absurd rfl hne
    · rw [if_pos (Or.inl hbuf)]
      refine iff_of_false (by intro h; cases h) ?_
      rintro ⟨-,-,-,sum,hitems,-⟩
      exact not_items_of_digits hbuf hdigits hitems
  | cons c rest ih =>
    rw [compoundSecs]
    by_cases hc : isAsciiDigit c
    · have hbuf : ∀ d∈numBuf++[c], isAsciiDigit d := by
        intro d hd
        rcases List.mem_append.mp hd with hd | hd
        · exact hdigits d hd
        · rw [List.mem_singleton.mp hd]
          exact hc
      have hne : numBuf++[c]++rest≠[] := by
        rw [List.append_assoc]
        exact List.append_ne_nil_of_right_ne_nil _ (List.cons_ne_nil _ _)
      rw [if_pos hc,ih hbuf htotal,List.append_assoc,List.singleton_append]
    · have hunit : isAsciiDigit c=false := Bool.eq_false_iff.mpr hc
      rw [if_neg hc]
      simp only [items_unit_iff hdigits hunit]
      by_cases hbuf : numBuf=[]
      · rw [if_pos hbuf]
        refine iff_of_false (by intro h; cases h) ?_
        rintro ⟨-,-,-,sum,⟨hne,-⟩,-⟩
        exact hne hbuf
      · rw [if_neg hbuf]
        have hempty : ∀ d∈([] : List Char), isAsciiDigit d := fun d hd => absurd hd List.not_mem_nil
        simp only [Option.bind_eq_bind,Option.bind_eq_some_iff,parseI64_digits hbuf hdigits,
          unitSecs_eq_some_iff,toI64_eq_some_iff]
        constructor
        · rintro ⟨_,⟨rfl,-⟩,_,⟨secs,hmem,rfl⟩,_,⟨rfl,-⟩,_,⟨rfl,-,hfits⟩,hrest⟩
          have hcast : (total : ℤ)+(digitsValue numBuf : ℤ)*secs=
              ((total+digitsValue numBuf*secs : ℕ) : ℤ) := by
            push_cast
            rfl
          rw [hcast] at hfits hrest
          obtain ⟨hpos,hhigh,-,sum,hitems,rfl⟩ := (ih hempty (by exact_mod_cast hfits)).mp hrest
          refine ⟨hpos,hhigh,Or.inr (List.append_ne_nil_of_left_ne_nil hbuf _),
            digitsValue numBuf*secs+sum,⟨hbuf,secs,sum,hmem,hitems,rfl⟩,?_⟩
          rw [Nat.add_assoc]
        · rintro ⟨hpos,hhigh,-,sum',⟨-,secs,sum,hmem,hitems,rfl⟩,rfl⟩
          -- everything that is added up is at most the whole sum
          have hsecs : 0<secs := (unit_facts hmem).2
          have hvalue : digitsValue numBuf≤digitsValue numBuf*secs := Nat.le_mul_of_pos_right _ hsecs
          have hbound : total+(digitsValue numBuf*secs+sum)<2^63 := by exact_mod_cast hhigh
          have hproduct : ((digitsValue numBuf : ℤ)*secs)=((digitsValue numBuf*secs : ℕ) : ℤ) := by
            push_cast
            rfl
          refine ⟨_,⟨rfl,by omega⟩,_,⟨secs,hmem,rfl⟩,_,⟨rfl,by omega,by rw [hproduct]; omega⟩,
            _,⟨rfl,by rw [hproduct]; omega,by rw [hproduct]; omega⟩,?_⟩
          have hcast : (total : ℤ)+(digitsValue numBuf : ℤ)*secs=
              ((total+digitsValue numBuf*secs : ℕ) : ℤ) := by
            push_cast
            rfl
          rw [hcast,ih hempty (by omega)]
          exact ⟨hpos,hhigh,Or.inl rfl,sum,hitems,by rw [Nat.add_assoc]⟩

/-- A text that is digits and one trailing unit of seconds. -/
theorem bareSeconds_eq_some_iff {s num : List Char} :
    bareSeconds s=some num ↔ s=num++['s'] ∧ num≠[] ∧ ∀ c∈num, isAsciiDigit c := by
  unfold bareSeconds
  constructor
  · intro h
    split_ifs at h with hbare
    obtain ⟨hlast,hne,hall⟩ := hbare
    rw [←Option.some.inj h]
    refine ⟨?_,hne,List.all_eq_true.mp hall⟩
    have hs : s≠[] := fun hs => hne (by rw [hs]; rfl)
    rw [List.getLast?_eq_some_getLast hs,Option.some.injEq] at hlast
    have hsplit := List.dropLast_append_getLast hs
    rw [hlast] at hsplit
    exact hsplit.symm
  · rintro ⟨rfl,hne,hdigits⟩
    have hlast : (num++['s']).getLast?=some 's' := List.getLast?_concat
    have hinit : (num++['s']).dropLast=num := List.dropLast_concat
    rw [hlast,hinit,if_pos ⟨rfl,hne,List.all_eq_true.mpr hdigits⟩]

theorem positiveSecs_eq_some_iff {k n : ℤ} : positiveSecs k=some n ↔ k=n ∧ 0<n := by
  unfold positiveSecs
  constructor
  · intro h
    split_ifs at h with hk
    have heq := Option.some.inj h
    exact ⟨heq,by rw [←heq]; exact hk⟩
  · rintro ⟨rfl,hk⟩
    rw [if_pos hk]

/-- Numbers with units begin with a digit. -/
theorem items_head {c : Char} {rest : List Char} {n : ℕ} (h : Items (c::rest) n) :
    isAsciiDigit c=true := by
  generalize htext : c::rest=text at h
  cases h with
  | nil => cases htext
  | @cons digits rest' value secs sum unit hdigits _ _ =>
    obtain ⟨hne,hdigit,-⟩ := hdigits
    cases digits with
    | nil => exact absurd rfl hne
    | cons d digits =>
      rw [(List.cons.inj htext).1]
      exact hdigit d List.mem_cons_self

/-- A text that is a number gives it exactly when it is what the text means: a
number has no units, and one with a minus sign is not positive. -/
theorem positiveSecs_of_number {s : List Char} {m n : ℤ} (hnumber : parseI64 s=some m) :
    positiveSecs m=some n ↔ 1≤n ∧ n<2^63 ∧ ∃ k : ℕ, Means s k ∧ n=k := by
  obtain ⟨hlow,hhigh,digits,value,hdecimal,hform⟩ := parseI64_eq_some_iff.mp hnumber
  rw [positiveSecs_eq_some_iff]
  rcases hform with ⟨hs,rfl⟩ | ⟨hs,rfl⟩
  · have hitems : ∀ k, ¬Items s k := by
      intro k hk
      rcases hs with rfl | rfl
      · exact not_items_of_digits hdecimal.ne_nil hdecimal.digit hk
      · exact absurd (items_head hk) (by decide)
    constructor
    · rintro ⟨rfl,hpos⟩
      exact ⟨hpos,hhigh,value,Or.inl ⟨digits,hdecimal,hs⟩,rfl⟩
    · rintro ⟨hpos,-,k,⟨digits',hdecimal',hs'⟩ | ⟨-,hk⟩,rfl⟩
      · have hsame : digits'=digits := by
          rcases hs with rfl | rfl <;> rcases hs' with hs' | hs'
          · exact hs'.symm
          · rw [hs'] at hdecimal
            exact absurd (hdecimal.digit '+' List.mem_cons_self) (by decide)
          · rw [←hs'] at hdecimal'
            exact absurd (hdecimal'.digit '+' List.mem_cons_self) (by decide)
          · exact (List.cons.inj hs').2.symm
        rw [hsame] at hdecimal'
        rw [←hdecimal.value_eq,hdecimal'.value_eq]
        exact ⟨rfl,hpos⟩
      · exact absurd hk (hitems k)
  · refine iff_of_false (by rintro ⟨rfl,hpos⟩; omega) ?_
    rintro ⟨-,-,k,⟨digits',hdecimal',rfl | rfl⟩ | ⟨-,hk⟩,-⟩
    · exact absurd (hdecimal'.digit '-' (by rw [hs]; exact List.mem_cons_self)) (by decide)
    · cases (List.cons.inj hs).1
    · rw [hs] at hk
      exact absurd (items_head hk) (by decide)

/-- What the loop accepts from its start on. -/
theorem compoundSecs_start {s : List Char} {n : ℤ} :
    compoundSecs s 0 [] false=some n ↔
      0<n ∧ n<2^63 ∧ s≠[] ∧ ∃ sum : ℕ, Items s sum ∧ n=sum := by
  have hempty : ∀ c∈([] : List Char), isAsciiDigit c := fun c hc => absurd hc List.not_mem_nil
  have hloop : compoundSecs s ((0 : ℕ) : ℤ) [] false=some n ↔ _ :=
    compoundSecs_eq_some_iff hempty (by norm_num)
  simp only [List.nil_append,Nat.zero_add,Bool.false_eq_true,false_or] at hloop
  exact hloop

/-- Of a text that is no number the loop reads the meaning; a number whose value
does not fit is no duration either. -/
theorem compoundSecs_of_not_number {s : List Char} {n : ℤ} (hnumber : parseI64 s=none) :
    compoundSecs s 0 [] false=some n ↔ 1≤n ∧ n<2^63 ∧ ∃ k : ℕ, Means s k ∧ n=k := by
  have hplain : ∀ k : ℕ, (k : ℤ)<2^63 → ∀ digits, Decimal digits k →
      ¬(s=digits ∨ s= '+'::digits) := by
    intro k hk digits hdecimal hs
    have hsome := parseI64_eq_some_iff.mpr
      ⟨by omega,hk,digits,k,hdecimal,Or.inl ⟨hs,rfl⟩⟩
    rw [hnumber] at hsome
    cases hsome
  rw [compoundSecs_start]
  constructor
  · rintro ⟨hpos,hhigh,hne,k,hk,rfl⟩
    exact ⟨hpos,hhigh,k,Or.inr ⟨hne,hk⟩,rfl⟩
  · rintro ⟨hpos,hhigh,k,⟨digits,hdecimal,hs⟩ | ⟨hne,hk⟩,rfl⟩
    · exact absurd hs (hplain k hhigh digits hdecimal)
    · exact ⟨hpos,hhigh,hne,k,hk,rfl⟩

/-- Digits and one unit of seconds are read by the loop as well. -/
theorem bareSeconds_eq_compoundSecs {s num : List Char} {n : ℤ} (hbare : bareSeconds s=some num) :
    (do
      let n ← parseI64 num
      positiveSecs n)=some n ↔ compoundSecs s 0 [] false=some n := by
  have hunit : isAsciiDigit 's'=false := by decide
  obtain ⟨rfl,hne,hdigits⟩ := bareSeconds_eq_some_iff.mp hbare
  rw [compoundSecs_start]
  simp only [items_unit_iff hdigits hunit,Option.bind_eq_bind,
    Option.bind_eq_some_iff,parseI64_digits hne hdigits,positiveSecs_eq_some_iff]
  constructor
  · rintro ⟨_,⟨rfl,hhigh⟩,rfl,hpos⟩
    exact ⟨hpos,hhigh,List.append_ne_nil_of_left_ne_nil hne _,_,
      ⟨hne,1,0,by decide,.nil,rfl⟩,by push_cast; ring⟩
  · rintro ⟨hpos,hhigh,-,sum',⟨-,secs,sum,hmem,hrest,rfl⟩,rfl⟩
    have hsecs : secs=1 := by
      simp only [units,List.mem_cons,List.not_mem_nil,or_false,Prod.mk.injEq] at hmem
      rcases hmem with ⟨h,-⟩ | ⟨h,-⟩ | ⟨h,-⟩ | ⟨h,-⟩ | ⟨-,h⟩ | ⟨h,-⟩
      · cases h
      · cases h
      · cases h
      · cases h
      · exact h
      · cases h
    rw [items_nil hrest,hsecs,Nat.mul_one,Nat.add_zero] at hhigh hpos ⊢
    exact ⟨_,⟨rfl,hhigh⟩,rfl,hpos⟩

/-- The three readings of a duration text give its exact meaning. -/
theorem durationSecs_eq_some_iff {s : List Char} {n : ℤ} :
    durationSecs s=some n ↔ 1≤n ∧ n<2^63 ∧ ∃ k : ℕ, Means s k ∧ n=k := by
  unfold durationSecs
  cases hnumber : parseI64 s with
  | some m => exact positiveSecs_of_number hnumber
  | none =>
    dsimp only
    rw [←compoundSecs_of_not_number hnumber]
    cases hbare : bareSeconds s with
    | none => rfl
    | some num => exact bareSeconds_eq_compoundSecs hbare

/-- A duration text is accepted exactly with its meaning, when that is positive
and fits a signed 64-bit word. -/
theorem parseDurationSecs_eq_ok_iff (s : String) (n : ℤ) :
    parseDurationSecs s=.ok n ↔ 1≤n ∧ n≤2^63-1 ∧ ∃ k : ℕ, Means s.toList k ∧ n=k := by
  have hmax : n≤2^63-1 ↔ n<2^63 := by omega
  rw [hmax,←durationSecs_eq_some_iff,parseDurationSecs]
  cases durationSecs s.toList with
  | none => exact iff_of_false (by intro h; cases h) (by intro h; cases h)
  | some k =>
    dsimp only
    rw [Except.ok.injEq,Option.some.injEq]

end TokiSync.DurationGrammar
