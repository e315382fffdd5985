import TokiSync.Utf8Slices
import TokiSync.OidcAccounts

/-!
# Texts that are cut at fixed byte positions

A device code is cut into two halves after it was upper-cased, a subject
becomes the login name of an account without mail address and name, and a row
of the event store that cannot be parsed is quoted in the error. Each cut looks
at a length in bytes only; it panics when its position lies inside of a
character.
-/

namespace TokiSync.SlicedTexts

open ByteKeys Utf8Slices OidcAccounts

/-- A text without its spaces. -/
def removeSpaces (text : String) : String := String.ofList (text.toList.filter (· ≠ ' '))

/-- A typed device code as it is looked up, given the upper-casing of the
standard library; none where a slice panics. -/
def normalizeUserCode (toUppercase : String → String) (userCode : String) : Option String :=
  let code := removeSpaces (toUppercase userCode)
  if (utf8 code).length=8 ∧ '-'∉code.toList then do
    let front ← slice code 0 4
    let back ← slice code 4 (utf8 code).length
    pure (front++"-"++back)
  else some code

section

variable {Row : Type} (parseRow : String → Option Row)

/-- Read the lines of an answer: the rows, or an error that quotes the first
line that is no row; none where a slice panics. -/
def readRows : List String → List Row → Option (Except String (List Row))
  | [],rows => some (.ok rows)
  | line::lines,rows =>
    if line="" then readRows lines rows
    else
      match parseRow line with
      | some row => readRows lines (rows++[row])
      | none => do
        let excerpt ← slice line 0 (min (utf8 line).length 100)
        pure (.error ("parse ClickHouse row: "++excerpt))

/-- The first line that is no row. -/
def firstBad (lines : List String) : Option String :=
  lines.find? fun line => line≠"" && (parseRow line).isNone

end

/-- The front of a text can be cut off exactly at a boundary. -/
theorem isSome_slice_zero_iff {text : String} {stop : ℕ} :
    (slice text 0 stop).isSome ↔ isCharBoundary text stop=true := by
  rw [isSome_slice_iff]
  exact ⟨fun h => h.2.2,fun h => ⟨Nat.zero_le _,isCharBoundary_zero text,h⟩⟩

/-- A code is normalized exactly when there is nothing to cut or the cut does
not lie inside of a character. -/
theorem isSome_normalizeUserCode_iff (toUppercase : String → String) (userCode : String) :
    (normalizeUserCode toUppercase userCode).isSome ↔
      ((utf8 (removeSpaces (toUppercase userCode))).length=8 →
        '-'∉(removeSpaces (toUppercase userCode)).toList →
          isCharBoundary (removeSpaces (toUppercase userCode)) 4=true) := by
  unfold normalizeUserCode
  generalize removeSpaces (toUppercase userCode)=code
  dsimp only
  split_ifs with hcut
  · have hback : (slice code 4 (utf8 code).length).isSome ↔ isCharBoundary code 4=true := by
      rw [isSome_slice_iff]
      constructor
      · exact fun h => h.2.1
      · exact fun h => ⟨le_length_of_isCharBoundary h,h,isCharBoundary_length code⟩
    have hfront : (slice code 0 4).isSome ↔ isCharBoundary code 4=true := isSome_slice_zero_iff
    constructor
    · intro h _ _
      obtain ⟨joined,hjoined⟩ := Option.isSome_iff_exists.mp h
      simp only [Option.bind_eq_bind,Option.bind_eq_some_iff] at hjoined
      obtain ⟨front,hslice,-⟩ := hjoined
      exact hfront.mp (by rw [hslice]; rfl)
    · intro h
      have hboundary := h hcut.1 hcut.2
      obtain ⟨front,hslice⟩ := Option.isSome_iff_exists.mp (hfront.mpr hboundary)
      obtain ⟨back,hrest⟩ := Option.isSome_iff_exists.mp (hback.mpr hboundary)
      rw [hslice,hrest]
      rfl
  · exact iff_of_true rfl fun hlength hdash => absurd ⟨hlength,hdash⟩ hcut

/-- The front of a subject is the one a split gives. -/
theorem bytePrefix_eq (n : ℕ) (cs : List Char) : bytePrefix n cs=(splitBytes n cs).map Prod.fst := by
  induction cs generalizing n with
  | nil => cases n <;> rfl
  | cons c cs ih =>
    cases n with
    | zero => rfl
    | succ n =>
      rw [bytePrefix,splitBytes]
      split_ifs
      · rw [ih,Option.map_map,Option.map_map]
        rfl
      · rfl

/-- A login name is derived exactly when the provider gives one or the subject
is not cut inside of a character. -/
theorem isSome_deriveUsername_iff (info : OidcUserInfo) : (deriveUsername info).isSome ↔
    (info.email=none → info.name=none →
      isCharBoundary info.sub (min 8 (utf8 info.sub).length)=true) := by
  have hsize : info.sub.utf8ByteSize=(utf8 info.sub).length := rfl
  unfold deriveUsername
  cases hname : info.email.or info.name with
  | some name =>
    refine iff_of_true rfl fun hemail hnone => ?_
    rw [hemail,hnone] at hname
    cases hname
  | none =>
    obtain ⟨hemail,hnone⟩ := Option.or_eq_none_iff.mp hname
    dsimp only
    rw [Option.isSome_map,bytePrefix_eq,Option.isSome_map,isSome_splitBytes_iff,hsize]
    exact ⟨fun h _ _ => h,fun h => h hemail hnone⟩

/-- An answer is read exactly when the first line that is no row, if there is
one, is not cut inside of a character. -/
theorem isSome_readRows_iff {Row : Type} (parseRow : String → Option Row) (lines : List String)
    (rows : List Row) : (readRows parseRow lines rows).isSome ↔
      ∀ line∈firstBad parseRow lines, isCharBoundary line (min (utf8 line).length 100)=true := by
  induction lines generalizing rows with
  | nil => exact iff_of_true rfl fun line hline => by cases hline
  | cons line lines ih =>
    rw [readRows,firstBad,List.find?_cons]
    by_cases hempty : line=""
    · rw [if_pos hempty,ih,hempty]
      rfl
    · rw [if_neg hempty]
      cases hrow : parseRow line with
      | some row =>
        dsimp only
        rw [ih]
        simp [firstBad]
      | none =>
        simp only [Option.bind_eq_bind,Option.pure_def,Option.isNone_none,Bool.and_true,
          decide_true,ne_eq,hempty,not_false_eq_true,Option.mem_def,Option.some.injEq,forall_eq']
        rw [←isSome_slice_zero_iff]
        cases slice line 0 (min (utf8 line).length 100) with
        | none => exact iff_of_false (by intro h; cases h) (by intro h; cases h)
        | some excerpt => exact iff_of_true rfl rfl

/-- The three cuts panic exactly where a character lies across their position. -/
theorem slices_safe_iff {Row : Type} (toUppercase : String → String)
    (parseRow : String → Option Row) (userCode : String) (info : OidcUserInfo)
    (lines : List String) :
    ((normalizeUserCode toUppercase userCode).isSome ↔
      ((utf8 (removeSpaces (toUppercase userCode))).length=8 →
        '-'∉(removeSpaces (toUppercase userCode)).toList →
          isCharBoundary (removeSpaces (toUppercase userCode)) 4=true)) ∧
    ((deriveUsername info).isSome ↔ (info.email=none → info.name=none →
      isCharBoundary info.sub (min 8 (utf8 info.sub).length)=true)) ∧
    ((readRows parseRow lines []).isSome ↔ ∀ line∈firstBad parseRow lines,
      isCharBoundary line (min (utf8 line).length 100)=true) :=
  ⟨isSome_normalizeUserCode_iff toUppercase userCode,isSome_deriveUsername_iff info,
    isSome_readRows_iff parseRow lines []⟩

/-- An answer that is one long line of an error report. -/
def errorLine : String := "Code: 241. DB::Exception: "++String.ofList (List.replicate 73 'x')++"…"

/-- A code with a currency sign, a subject with an umlaut and a report with an
ellipsis are all cut inside of a character. -/
theorem slices_panic : normalizeUserCode String.toUpper "abc€de"=none ∧
    deriveUsername ⟨"musterfü",none,none⟩=none ∧
    readRows (fun _ => (none : Option Unit)) [errorLine] []=none := by
  refine ⟨by decide +kernel,by decide +kernel,by decide +kernel⟩

end TokiSync.SlicedTexts
