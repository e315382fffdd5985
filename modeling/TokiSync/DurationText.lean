import TokiSync.AdminAccounts

/-!
# Duration texts

A step is written as a number of seconds or as a sequence of numbers with
units. Every sum and product is checked against the 64-bit range, and only a
positive duration is accepted. Texts are read as lists of characters.
-/

namespace TokiSync.DurationText

open TokiSync.AdminAccounts (AppError)

/-- A caller's mistake. -/
def badRequest (message : String) : AppError := ⟨400,message⟩

/-- ASCII digit test. -/
def isAsciiDigit (c : Char) : Bool := '0' ≤ c && c ≤ '9'

/-- A value that fits a signed 64-bit word. -/
def toI64 (value : ℤ) : Option ℤ := if -2^63≤value ∧ value<2^63 then some value else none

/-- Value of decimal digits. -/
def digitsValue (digits : List Char) : ℕ :=
  digits.foldl (fun value c => 10*value+(c.toNat-48)) 0

/-- Unsigned part of a number text; there must be digits and nothing else. -/
def parseDigits (digits : List Char) : Option ℕ :=
  if digits≠[] ∧ digits.all isAsciiDigit then some (digitsValue digits) else none

/-- Parse a signed 64-bit integer: an optional sign and digits. -/
def parseI64 : List Char → Option ℤ
  | '-'::digits => do
    let value ← parseDigits digits
    toI64 (-value)
  | '+'::digits => do
    let value ← parseDigits digits
    toI64 value
  | digits => do
    let value ← parseDigits digits
    toI64 value

/-- Seconds of a unit. -/
def unitSecs (c : Char) : Option ℤ :=
  if c = 'd' then some 86400
  else if c = 'h' then some 3600
  else if c = 'm' then some 60
  else if c = 's' then some 1
  else if c = 'w' then some 604800
  else if c = 'y' then some 31536000
  else none

/-- Read numbers with units: the sum so far, the digits waiting for their
unit, and whether a unit has been read. -/
def compoundSecs : List Char → ℤ → List Char → Bool → Option ℤ
  | [],total,numBuf,sawUnit =>
    if numBuf≠[] ∨ sawUnit=false ∨ total≤0 then none else some total
  | c::rest,total,numBuf,sawUnit =>
    if isAsciiDigit c then compoundSecs rest total (numBuf++[c]) sawUnit
    else if numBuf=[] then none
    else do
      let n ← parseI64 numBuf
      let unit ← unitSecs c
      let product ← toI64 (n*unit)
      let sum ← toI64 (total+product)
      compoundSecs rest sum [] true

/-- A positive number of seconds. -/
def positiveSecs (n : ℤ) : Option ℤ := if 0<n then some n else none

/-- The digits of a text that is digits and one trailing unit of seconds. -/
def bareSeconds (s : List Char) : Option (List Char) :=
  if s.getLast?=some 's' ∧ s.dropLast≠[] ∧ s.dropLast.all isAsciiDigit then some s.dropLast
  else none

/-- Seconds of a duration text. -/
def durationSecs (s : List Char) : Option ℤ :=
  match parseI64 s with
  | some n => positiveSecs n
  | none =>
    match bareSeconds s with
    | some num => do
      let n ← parseI64 num
      positiveSecs n
    | none => compoundSecs s 0 [] false

/-- Parse a duration text. -/
def parseDurationSecs (s : String) : Except AppError ℤ :=
  match durationSecs s.toList with
  | some n => .ok n
  | none => .error (badRequest ("invalid duration: '"++s++"'"))

/-- Accepted compound durations are positive. -/
theorem compoundSecs_pos {text : List Char} {total : ℤ} {numBuf : List Char} {sawUnit : Bool}
    {n : ℤ} (h : compoundSecs text total numBuf sawUnit=some n) : 0<n := by
  induction text generalizing total numBuf sawUnit with
  | nil =>
    rw [compoundSecs] at h
    by_cases hbad : numBuf≠[] ∨ sawUnit=false ∨ total≤0
    · rw [if_pos hbad] at h
      cases h
    · rw [if_neg hbad] at h
      have hn := Option.some.inj h
      have htotal : ¬total≤0 := fun hle => hbad (.inr (.inr hle))
      omega
  | cons c rest ih =>
    rw [compoundSecs] at h
    by_cases hdigit : isAsciiDigit c
    · rw [if_pos hdigit] at h
      exact ih h
    · rw [if_neg hdigit] at h
      by_cases hbuf : numBuf=[]
      · rw [if_pos hbuf] at h
        cases h
      · rw [if_neg hbuf] at h
        simp only [Option.bind_eq_bind,Option.bind_eq_some_iff] at h
        obtain ⟨_,_,_,_,_,_,sum,_,hrest⟩ := h
        exact ih hrest

theorem positiveSecs_pos {k n : ℤ} (h : positiveSecs k=some n) : 0<n := by
  unfold positiveSecs at h
  split_ifs at h with hk
  have hn := Option.some.inj h
  omega

/-- Accepted durations are positive. -/
theorem parseDurationSecs_pos {s : String} {n : ℤ} (h : parseDurationSecs s=.ok n) : 0<n := by
  unfold parseDurationSecs at h
  cases hd : durationSecs s.toList with
  | none =>
    rw [hd] at h
    cases h
  | some k =>
    rw [hd] at h
    have hk : k=n := by injection h
    rw [← hk]
    unfold durationSecs at hd
    cases hnumber : parseI64 s.toList with
    | some m =>
      rw [hnumber] at hd
      exact positiveSecs_pos hd
    | none =>
      rw [hnumber] at hd
      cases hbare : bareSeconds s.toList with
      | some num =>
        rw [hbare] at hd
        simp only [Option.bind_eq_bind,Option.bind_eq_some_iff] at hd
        obtain ⟨m,_,hm⟩ := hd
        exact positiveSecs_pos hm
      | none =>
        rw [hbare] at hd
        exact compoundSecs_pos hd

example : durationSecs "1h30m".toList=some 5400 := by decide

end TokiSync.DurationText
