import TokiSync.ClickHouseRows

/-!
# Which window rows ClickHouse gives back unchanged

Every layer is inverted by the next one: literals give back the escaped texts
without their NUL characters, numbers give back their values, lines and columns
are split where they were joined. Unescaping undoes the escapes of the reply
except that of a single quote. So a sanitized batch is read back as written
exactly when the texts of its windows have no single quote.
-/

namespace TokiSync.ClickHouseRows

open MachineWords ByteKeys WireWindows WindowStore DurationText

/-- What becomes of a character in a string literal. -/
def escapeChar (c : Char) : List Char :=
  if c = '\\' then ['\\','\\']
  else if c = '\x27' then ['\\','\x27']
  else if c = '\x00' then []
  else if c = '\n' then ['\\','n']
  else if c = '\r' then ['\\','r']
  else if c = '\t' then ['\\','t']
  else [c]

/-- The replacements of `escape` work on every character on its own. -/
theorem escape_eq (s : String) : escape s=s.toList.flatMap escapeChar := by
  simp only [escape,replaceChar,List.flatMap_assoc]
  apply List.flatMap_congr
  intro c _
  unfold escapeChar
  by_cases hbackslash : c = '\\'
  · rw [hbackslash]
    rfl
  by_cases hquote : c = '\x27'
  · rw [hquote]
    rfl
  by_cases hnul : c = '\x00'
  · rw [hnul]
    rfl
  by_cases hnewline : c = '\n'
  · rw [hnewline]
    rfl
  by_cases hreturn : c = '\r'
  · rw [hreturn]
    rfl
  simp only [hbackslash,hquote,hnul,hnewline,hreturn,if_false,List.flatMap_cons,List.flatMap_nil,
    List.append_nil]

section

variable {c value : Char} {rest tail : List Char}

theorem readLiteral_escaped (h : literalEscape c=some value) :
    readLiteral ('\\'::c::rest)=(readLiteral rest).map fun read => (value::read.1,read.2) := by
  rw [readLiteral,h]
  cases readLiteral rest <;> rfl

theorem readLiteral_plain (hbackslash : c≠ '\\') (hquote : c≠ '\x27') :
    readLiteral (c::rest)=(readLiteral rest).map fun read => (c::read.1,read.2) := by
  rw [readLiteral]
  · cases readLiteral rest <;> rfl
  · intro d r h
    exact fun _ => absurd h hbackslash
  · exact fun r h _ => hquote h
  · exact hquote

theorem readLiteral_close (hquote : c≠ '\x27') :
    readLiteral ('\x27'::c::tail)=some ([],c::tail) := by
  rw [readLiteral]
  intro r h
  cases h
  exact hquote rfl

/-- A literal gives back the escaped text without its NUL characters. -/
theorem readLiteral_escape (text : List Char) (hquote : c≠ '\x27') :
    readLiteral (text.flatMap escapeChar++ '\x27'::c::tail)=
      some (text.filter fun x => x≠ '\x00',c::tail) := by
  induction text with
  | nil => exact readLiteral_close hquote
  | cons x text ih =>
    have hfilter : x≠ '\x00' →
        (x::text).filter (fun x => x≠ '\x00')=x::text.filter fun x => x≠ '\x00' :=
      fun hnul => List.filter_cons_of_pos (decide_eq_true hnul)
    have hescaped : ∀ k, literalEscape k=some x → x≠ '\x00' →
        readLiteral (['\\',k]++(text.flatMap escapeChar++ '\x27'::c::tail))=
          some ((x::text).filter fun x => x≠ '\x00',c::tail) := by
      intro k hk hnul
      have hread : readLiteral ('\\'::k::(text.flatMap escapeChar++ '\x27'::c::tail))=_ :=
        readLiteral_escaped hk
      rw [ih] at hread
      rw [hfilter hnul]
      exact hread
    rw [List.flatMap_cons,List.append_assoc,escapeChar]
    split_ifs with hbackslash hx hnul hnewline hreturn htab
    · exact hescaped '\\' (by rw [hbackslash]; rfl) (hbackslash ▸ by decide)
    · exact hescaped '\x27' (by rw [hx]; rfl) (hx ▸ by decide)
    · rw [hnul]
      exact ih
    · exact hescaped 'n' (hnewline ▸ rfl) (hnewline ▸ by decide)
    · exact hescaped 'r' (hreturn ▸ rfl) (hreturn ▸ by decide)
    · exact hescaped 't' (htab ▸ rfl) (htab ▸ by decide)
    · rw [List.singleton_append,readLiteral_plain hbackslash hx,ih,hfilter hnul]
      rfl

end

/-- The digits of a number are digits. -/
theorem all_isAsciiDigit (n : ℕ) : (Nat.toDigits 10 n).all isAsciiDigit=true := by
  rw [List.all_eq_true]
  intro c hc
  have hdigit := Nat.isDigit_of_mem_toDigits (by decide) (by decide) hc
  rw [Char.isDigit] at hdigit
  rw [isAsciiDigit]
  exact hdigit

/-- The digits of a number parse to the number. -/
theorem parseDigits_toDigits (n : ℕ) : parseDigits (Nat.toDigits 10 n)=some n := by
  rw [parseDigits,if_pos ⟨Nat.toDigits_ne_nil,all_isAsciiDigit n⟩]
  congr 1
  exact Nat.ofDigitChars_toDigits (by decide) (by decide)

/-- No digit is a sign. -/
theorem isAsciiDigit_ne {c : Char} (h : isAsciiDigit c=true) : c≠ '-' ∧ c≠ '+' := by
  constructor
  · intro heq
    rw [heq] at h
    cases h
  · intro heq
    rw [heq] at h
    cases h

/-- The digits of a number begin with a digit. -/
theorem toDigits_eq_cons (n : ℕ) :
    ∃ c rest, Nat.toDigits 10 n=c::rest ∧ c≠ '-' ∧ c≠ '+' := by
  cases hdigits : Nat.toDigits 10 n with
  | nil => exact absurd hdigits Nat.toDigits_ne_nil
  | cons c rest =>
    have hall := all_isAsciiDigit n
    rw [hdigits,List.all_cons,Bool.and_eq_true] at hall
    exact ⟨c,rest,rfl,isAsciiDigit_ne hall.1⟩

/-- Characters of a formatted number. -/
theorem isNumberChar_of_mem {n : ℤ} {c : Char} (h : c∈formatNumber n) :
    isNumberChar c=true := by
  have hdigit : c∈Nat.toDigits 10 n.natAbs → isNumberChar c=true := by
    intro hc
    rw [isNumberChar,List.all_eq_true.mp (all_isAsciiDigit _) c hc,Bool.or_true]
  unfold formatNumber at h
  split_ifs at h
  · rcases List.mem_cons.mp h with heq | hc
    · rw [heq]
      rfl
    · exact hdigit hc
  · exact hdigit h

theorem numberValue_format (n : ℤ) : numberValue (formatNumber n)=some n := by
  unfold formatNumber
  split_ifs with hneg
  · rw [numberValue,parseDigits_toDigits,Option.map_some,Int.ofNat_eq_natCast]
    congr 1
    omega
  · obtain ⟨c,rest,hdigits,hsign,-⟩ := toDigits_eq_cons n.natAbs
    have hparse := parseDigits_toDigits n.natAbs
    rw [hdigits] at hparse ⊢
    rw [numberValue,hparse,Option.map_some,Int.ofNat_eq_natCast]
    · congr 1
      omega
    · intro digits h
      cases h
      exact hsign rfl

/-- A number is read up to the next delimiter. -/
theorem readNumber_format (n : ℤ) {c : Char} {tail : List Char} (hc : isNumberChar c=false) :
    readNumber (formatNumber n++c::tail)=some (n,c::tail) := by
  have hall : ∀ x∈formatNumber n, isNumberChar x=true := fun x hx => isNumberChar_of_mem hx
  have hstop : ¬isNumberChar c=true := by
    rw [hc]
    exact Bool.false_ne_true
  rw [readNumber,List.takeWhile_append_of_pos hall,List.dropWhile_append_of_pos hall,
    List.takeWhile_cons_of_neg hstop,List.dropWhile_cons_of_neg hstop,List.append_nil,
    numberValue_format]
  rfl

namespace Argument

/-- Whether the argument is a text. -/
def isText : Argument → Bool
  | .text _ => true
  | .number _ => false

/-- The value stored for an argument. -/
def stored : Argument → Value
  | .text s => .text (s.toList.filter fun c => c≠ '\x00')
  | .number n => .number n

end Argument

theorem readValue_quote (rest : List Char) :
    readValue true ('\x27'::rest)=(readLiteral rest).map fun read => (.text read.1,read.2) := rfl

/-- A formatted argument is read up to the next delimiter. -/
theorem readValue_format (argument : Argument) {c : Char} {tail : List Char}
    (hquote : c≠ '\x27') (hnumber : isNumberChar c=false) :
    readValue argument.isText (formatArgument argument++c::tail)=
      some (argument.stored,c::tail) := by
  cases argument with
  | text s =>
    have hread : readLiteral (s.toList.flatMap escapeChar++ '\x27'::c::tail)=_ :=
      readLiteral_escape s.toList hquote
    rw [← escape_eq] at hread
    have hshape : formatArgument (.text s)++c::tail= '\x27'::(escape s++ '\x27'::c::tail) := by
      simp only [formatArgument,List.append_assoc,List.cons_append,List.nil_append]
    rw [hshape,Argument.isText,readValue_quote,hread]
    rfl
  | number n =>
    simp only [readValue,Argument.isText,Bool.false_eq_true,if_false,formatArgument,
      readNumber_format n hnumber,Option.map_some,Argument.stored]

/-- The arguments of a row are read up to its closing parenthesis. -/
theorem readValues_format (first : Argument) (others : List Argument) (tail : List Char) :
    readValues ((first::others).map Argument.isText)
      ([','].intercalate ((first::others).map formatArgument)++ ')'::tail)=
      some ((first::others).map Argument.stored,tail) := by
  induction others generalizing first with
  | nil =>
    have hvalue : readValue first.isText (formatArgument first++ ')'::tail)=_ :=
      readValue_format first (by decide) (by decide)
    simp only [List.map_cons,List.map_nil,List.intercalate_singleton,readValues]
    rw [hvalue]
    rfl
  | cons second others ih =>
    have hread := ih second
    have hvalue : readValue first.isText (formatArgument first++ ','::
        ([','].intercalate ((second::others).map formatArgument)++ ')'::tail))=_ :=
      readValue_format first (by decide) (by decide)
    have hshape : [','].intercalate ((first::second::others).map formatArgument)++ ')'::tail=
        formatArgument first++ ','::
          ([','].intercalate ((second::others).map formatArgument)++ ')'::tail) := by
      simp only [List.map_cons,List.intercalate_cons_cons,List.append_assoc,List.cons_append,
        List.nil_append]
    rw [List.map_cons (f := Argument.isText)] at hread
    rw [hshape,List.map_cons,List.map_cons,readValues,hvalue]
    · simp only [Option.bind_eq_bind,Option.bind_some]
      rw [hread]
      rfl
    · exact List.cons_ne_nil _ _

/-- Arguments that fit the columns of the table. -/
def FitsColumns (row : List Argument) : Prop := row.map Argument.isText=columnIsText

theorem rowArguments_fits (userId provider : String) (nowMs : UInt64) (w : WireWindow) :
    FitsColumns (rowArguments userId provider nowMs w) := rfl

theorem readRow_format {row : List Argument} (h : FitsColumns row) (tail : List Char) :
    readValues columnIsText ([','].intercalate (row.map formatArgument)++ ')'::tail)=
      some (row.map Argument.stored,tail) := by
  cases row with
  | nil => cases h
  | cons first others =>
    rw [← h]
    exact readValues_format first others tail

/-- Rows with commas between them are all read, given fuel for each. -/
theorem readRows_format (row : List Argument) (others : List (List Argument))
    (hfits : ∀ r∈row::others, FitsColumns r) (fuel : ℕ) (hfuel : others.length<fuel) :
    readRows fuel ([','].intercalate ((row::others).map formatRow))=
      some ((row::others).map fun r => r.map Argument.stored) := by
  induction others generalizing row fuel with
  | nil =>
    obtain ⟨fuel,rfl⟩ := Nat.exists_eq_add_one_of_ne_zero (Nat.ne_of_gt hfuel)
    have hrow := readRow_format (hfits row List.mem_cons_self) []
    have hshape : [','].intercalate ([row].map formatRow)=
        '('::([','].intercalate (row.map formatArgument)++[')']) := by
      simp only [List.map_cons,List.map_nil,List.intercalate_singleton,formatRow,List.cons_append,
        List.nil_append]
    rw [hshape,readRows,hrow]
    rfl
  | cons second others ih =>
    obtain ⟨fuel,rfl⟩ := Nat.exists_eq_add_one_of_ne_zero (Nat.ne_of_gt
      (Nat.lt_of_le_of_lt (Nat.zero_le _) hfuel))
    have hothers := ih second (fun r hr => hfits r (List.mem_cons_of_mem _ hr)) fuel
      (by rw [List.length_cons] at hfuel; omega)
    have hrow := readRow_format (hfits row List.mem_cons_self)
      (','::[','].intercalate ((second::others).map formatRow))
    have hshape : [','].intercalate ((row::second::others).map formatRow)=
        '('::([','].intercalate (row.map formatArgument)++ ')':: ','::
          [','].intercalate ((second::others).map formatRow)) := by
      simp only [List.map_cons,List.intercalate_cons_cons,formatRow,List.append_assoc,
        List.cons_append,List.nil_append]
    rw [hshape,readRows,hrow]
    simp only [Option.bind_eq_bind,Option.bind_some]
    rw [hothers]
    rfl

/-- A formatted row has characters, so the statement is longer than its rows
are many. -/
theorem length_le_intercalate (rows : List (List Argument)) :
    rows.length≤([','].intercalate (rows.map formatRow)).length := by
  induction rows with
  | nil => exact Nat.zero_le _
  | cons row rows ih =>
    cases rows with
    | nil =>
      simp only [List.map_cons,List.map_nil,List.intercalate_singleton,formatRow,
        List.length_append,List.length_cons,List.length_nil]
      omega
    | cons second rows =>
      rw [List.map_cons,List.map_cons,List.intercalate_cons_cons,← List.map_cons]
      simp only [List.length_append,List.length_cons,List.length_nil] at ih ⊢
      omega

/-- An INSERT stores the arguments of its rows. -/
theorem executeInsert_sql (userId provider : String) (nowMs : UInt64) {merged : List WireWindow}
    (hmerged : merged≠[]) : executeInsert (insertSql userId provider nowMs merged)=
      some (merged.map fun w => (rowArguments userId provider nowMs w).map Argument.stored) := by
  have hmap : merged.map (fun w => formatRow (rowArguments userId provider nowMs w))=
      (merged.map (rowArguments userId provider nowMs)).map formatRow := by
    rw [List.map_map]
    rfl
  cases merged with
  | nil => exact absurd rfl hmerged
  | cons w rest =>
    have hlength := length_le_intercalate ((w::rest).map (rowArguments userId provider nowMs))
    have hfits : ∀ r∈(w::rest).map (rowArguments userId provider nowMs), FitsColumns r := by
      intro r hr
      obtain ⟨x,-,rfl⟩ := List.mem_map.mp hr
      exact rowArguments_fits userId provider nowMs x
    have hprefix : insertHead.isPrefixOf (insertHead++[','].intercalate
        (((w::rest).map (rowArguments userId provider nowMs)).map formatRow))=true :=
      List.isPrefixOf_iff_prefix.mpr (List.prefix_append _ _)
    rw [insertSql,hmap,executeInsert,if_pos hprefix,List.drop_left]
    rw [List.map_cons] at hlength hfits ⊢
    rw [readRows_format _ _ hfits]
    · rw [List.map_cons,List.map_map]
      rfl
    · rw [List.length_append]
      simp only [List.length_cons] at hlength ⊢
      omega

/-- The pieces of a text whose lines all end are its lines and an empty one. -/
theorem flatMap_lines (rows : List (List Char)) :
    rows.flatMap (fun row => row++['\n'])=['\n'].intercalate (rows++[[]]) := by
  induction rows with
  | nil => rfl
  | cons row rows ih =>
    cases rows with
    | nil =>
      simp only [List.flatMap_cons,List.flatMap_nil,List.cons_append,List.nil_append,
        List.intercalate_cons_cons,List.intercalate_singleton]
    | cons second rows =>
      rw [List.flatMap_cons,ih]
      simp only [List.cons_append,List.intercalate_cons_cons]

/-- Lines are found where they were ended. -/
theorem lines_flatMap (rows : List (List Char)) (hnewline : ∀ row∈rows, '\n'∉row)
    (hreturn : ∀ row∈rows, '\r'∉row) :
    lines (rows.flatMap fun row => row++['\n'])=rows := by
  have hpieces : (rows.flatMap fun row => row++['\n']).splitOn '\n'=rows++[[]] := by
    rw [flatMap_lines]
    apply List.splitOn_intercalate
    · intro row hrow
      rcases List.mem_append.mp hrow with hrow | hrow
      · exact hnewline row hrow
      · rw [List.mem_singleton.mp hrow]
        exact List.not_mem_nil
    · exact List.append_ne_nil_of_right_ne_nil _ (List.cons_ne_nil _ _)
  have hstrip : ∀ row∈rows, stripReturn row=row := by
    intro row hrow
    have hlast : row.getLast?≠some '\r' :=
      fun h => hreturn row hrow (List.mem_of_getLast? h)
    rw [stripReturn,if_neg hlast]
  rw [lines,hpieces,List.dropLast_concat,List.map_congr_left hstrip]
  simp

/-- Characters that end a column or a line, or stand before the end. -/
def isDelimiter (c : Char) : Bool := c = '\t' || c = '\n' || c = '\r'

/-- No delimiter is left in an escaped text. -/
theorem not_mem_tsvEscape {d : Char} (hd : isDelimiter d=true) (c : Char) : d∉tsvEscape c := by
  have hplain : isDelimiter c=false → d∉[c] := by
    intro hc hmem
    rw [List.mem_singleton.mp hmem,hc] at hd
    cases hd
  have hpair : ∀ k, isDelimiter k=false → d∉['\\',k] := by
    intro k hk hmem
    rcases List.mem_cons.mp hmem with h | hmem
    · rw [h] at hd
      cases hd
    · rw [List.mem_singleton.mp hmem,hk] at hd
      cases hd
  unfold tsvEscape
  split_ifs with hback hfeed hnewline hreturn htab
  · exact hpair 'b' rfl
  · exact hpair 'f' rfl
  · exact hpair 'n' rfl
  · exact hpair 'r' rfl
  · exact hpair 't' rfl
  · exact hpair '0' rfl
  · exact hpair '\x27' rfl
  · exact hpair '\\' rfl
  · apply hplain
    simp only [isDelimiter,htab,hnewline,hreturn,decide_false,Bool.or_false]

theorem not_mem_tsvField {d : Char} (hd : isDelimiter d=true) (value : Value) :
    d∉tsvField value := by
  cases value with
  | text s =>
    intro hmem
    obtain ⟨c,-,hc⟩ := List.mem_flatMap.mp hmem
    exact not_mem_tsvEscape hd c hc
  | number n =>
    intro hmem
    have hnumber := isNumberChar_of_mem hmem
    simp only [isDelimiter,Bool.or_eq_true,decide_eq_true_eq] at hd
    rcases hd with (h | h) | h
    · rw [h] at hnumber
      cases hnumber
    · rw [h] at hnumber
      cases hnumber
    · rw [h] at hnumber
      cases hnumber

/-- A joined list has the characters of its parts and of the separator. -/
theorem not_mem_intercalate {d : Char} {separator : List Char} (hseparator : d∉separator)
    (parts : List (List Char)) (hparts : ∀ part∈parts, d∉part) :
    d∉separator.intercalate parts := by
  induction parts with
  | nil => exact List.not_mem_nil
  | cons part parts ih =>
    have hpart := hparts part List.mem_cons_self
    cases parts with
    | nil =>
      rw [List.intercalate_singleton]
      exact hpart
    | cons second parts =>
      have hrest := ih fun x hx => hparts x (List.mem_cons_of_mem _ hx)
      rw [List.intercalate_cons_cons,List.mem_append,List.mem_append]
      rintro ((h | h) | h)
      · exact hpart h
      · exact hseparator h
      · exact hrest h

/-- The lines of a reply, split into columns, are the fields of its rows. -/
theorem readBody_tsvBody (rows : List (List Value)) (hrows : ∀ row∈rows, row≠[]) :
    readBody (tsvBody rows)=rows.filterMap fun row => windowFromRow (row.map tsvField) := by
  have hfields : ∀ row : List Value, ∀ d, isDelimiter d=true → ∀ part∈row.map tsvField, d∉part := by
    intro row d hd part hpart
    obtain ⟨value,-,rfl⟩ := List.mem_map.mp hpart
    exact not_mem_tsvField hd value
  have hbody : tsvBody rows=
      (rows.map fun row => ['\t'].intercalate (row.map tsvField)).flatMap fun line =>
        line++['\n'] := by
    rw [tsvBody,List.flatMap_map]
  have hlines : lines (tsvBody rows)=
      rows.map fun row => ['\t'].intercalate (row.map tsvField) := by
    rw [hbody]
    apply lines_flatMap
    · intro line hline
      obtain ⟨row,-,rfl⟩ := List.mem_map.mp hline
      exact not_mem_intercalate (by decide) _ (hfields row '\n' rfl)
    · intro line hline
      obtain ⟨row,-,rfl⟩ := List.mem_map.mp hline
      exact not_mem_intercalate (by decide) _ (hfields row '\r' rfl)
  rw [readBody,hlines,List.filterMap_map]
  apply List.filterMap_congr
  intro row hrow
  have hsplit : (['\t'].intercalate (row.map tsvField)).splitOn '\t'=row.map tsvField := by
    apply List.splitOn_intercalate _ (hfields row '\t' rfl)
    intro hnil
    exact hrows row hrow (List.map_eq_nil_iff.mp hnil)
  rw [Function.comp_apply,hsplit]

/-- What unescaping makes of an escaped character: a single quote keeps its
backslash. -/
def keepQuote (c : Char) : List Char := if c = '\x27' then ['\\','\x27'] else [c]

/-- A text as it is read back. -/
def readText (s : String) : String := String.ofList (s.toList.flatMap keepQuote)

/-- Texts without control characters. -/
def ControlFree (s : String) : Prop := ∀ c∈s.toList, isControl c=false

/-- Escaping a character that is no control character. -/
theorem tsvEscape_of_not_control {c : Char} (h : isControl c=false) :
    tsvEscape c=if c = '\x27' then ['\\','\x27'] else if c = '\\' then ['\\','\\'] else [c] := by
  have hne : ∀ d, isControl d=true → c≠d := by
    intro d hd heq
    rw [heq,hd] at h
    cases h
  rw [tsvEscape,if_neg (hne _ rfl),if_neg (hne _ rfl),if_neg (hne _ rfl),if_neg (hne _ rfl),
    if_neg (hne _ rfl),if_neg (hne _ rfl)]

theorem unescapeLoop_plain {c : Char} (rest : List Char) (h : c≠ '\\') :
    unescapeLoop (c::rest)=c::unescapeLoop rest := by
  rw [unescapeLoop]
  · exact fun hc _ => h hc
  · exact fun _ _ hc _ => h hc

/-- A text without backslashes is unescaped to itself. -/
theorem unescapeLoop_of_not_mem {text : List Char} (h : '\\'∉text) : unescapeLoop text=text := by
  induction text with
  | nil => rfl
  | cons c text ih =>
    rw [List.mem_cons,not_or] at h
    rw [unescapeLoop_plain text (Ne.symm h.1),ih h.2]

theorem tsvUnescape_eq (text : List Char) : tsvUnescape text=String.ofList (unescapeLoop text) := by
  rw [tsvUnescape]
  split_ifs with h
  · rfl
  · rw [unescapeLoop_of_not_mem h]

/-- Unescaping an escaped text. -/
theorem unescapeLoop_escape (text : List Char) (h : ∀ c∈text, isControl c=false) :
    unescapeLoop (text.flatMap tsvEscape)=text.flatMap keepQuote := by
  induction text with
  | nil => rfl
  | cons c text ih =>
    have ih := ih fun x hx => h x (List.mem_cons_of_mem _ hx)
    rw [List.flatMap_cons,List.flatMap_cons,tsvEscape_of_not_control (h c List.mem_cons_self),
      keepQuote]
    split_ifs with hquote hbackslash
    · rw [List.cons_append,List.singleton_append,unescapeLoop,ih]
      rfl
    · rw [List.cons_append,List.singleton_append,unescapeLoop,ih,hbackslash]
      rfl
    · rw [List.singleton_append,unescapeLoop_plain _ hbackslash,ih]
      rfl

/-- A stored text without control characters is read back but for its quotes. -/
theorem tsvUnescape_stored {s : String} (h : ControlFree s) :
    tsvUnescape (tsvField (Argument.text s).stored)=readText s := by
  have hnul : s.toList.filter (fun c => c≠ '\x00')=s.toList := by
    apply List.filter_eq_self.mpr
    intro c hc
    apply decide_eq_true
    intro heq
    have hcontrol := h c hc
    rw [heq] at hcontrol
    cases hcontrol
  rw [Argument.stored,hnul,tsvField,tsvUnescape_eq,unescapeLoop_escape _ h,readText]

/-- Only texts without single quotes are read back unchanged. -/
theorem readText_eq_iff (s : String) : readText s=s ↔ '\x27'∉s.toList := by
  have hlength : ∀ text : List Char, (text.flatMap keepQuote).length=
      text.length+text.count '\x27' := by
    intro text
    induction text with
    | nil => rfl
    | cons c text ih =>
      rw [List.flatMap_cons,List.length_append,ih,List.length_cons,List.count_cons,keepQuote]
      by_cases hquote : c = '\x27'
      · simp only [hquote,if_true,List.length_cons,List.length_nil,beq_self_eq_true]
        omega
      · simp only [hquote,if_false,List.length_cons,List.length_nil,beq_iff_eq]
        omega
  constructor
  · intro heq hmem
    have hsame : (readText s).toList.length=s.toList.length := by rw [heq]
    rw [readText,String.toList_ofList,hlength] at hsame
    have hcount := List.count_pos_iff.mpr hmem
    omega
  · intro hfree
    have hsame : s.toList.flatMap keepQuote=s.toList := by
      have hcongr : ∀ c∈s.toList, keepQuote c=[c] := by
        intro c hc
        have hne : c≠ '\x27' := fun heq => hfree (heq ▸ hc)
        rw [keepQuote,if_neg hne]
      rw [List.flatMap_congr hcongr,List.flatMap_singleton']
    rw [readText,hsame,String.ofList_toList]

/-- A formatted unsigned number parses within its bound. -/
theorem parseUnsigned_format {n bound : ℕ} (h : n<bound) :
    parseUnsigned bound (formatNumber n)=some n := by
  have hformat : formatNumber n=Nat.toDigits 10 n := by
    rw [formatNumber,if_neg (Int.not_lt.mpr (Int.natCast_nonneg n)),Int.natAbs_natCast]
  obtain ⟨c,rest,hdigits,-,hplus⟩ := toDigits_eq_cons n
  have hparse := parseDigits_toDigits n
  rw [hdigits] at hparse
  rw [hformat,hdigits,parseUnsigned]
  · simp only [hparse,Option.bind_eq_bind,Option.bind_some,if_pos h]
  · intro digits heq
    cases heq
    exact hplus rfl

theorem parseI64_minus {digits : List Char} {value : ℕ} {n : ℤ}
    (hparse : parseDigits digits=some value) (hfits : toI64 (-(value : ℤ))=some n) :
    parseI64 ('-'::digits)=some n := by
  rw [parseI64,hparse]
  exact hfits

theorem parseI64_digits {c : Char} {digits : List Char} {value : ℕ} {n : ℤ} (hminus : c≠ '-')
    (hplus : c≠ '+') (hparse : parseDigits (c::digits)=some value)
    (hfits : toI64 (value : ℤ)=some n) : parseI64 (c::digits)=some n := by
  rw [parseI64]
  · rw [hparse,Option.bind_eq_bind,Option.bind_some]
    exact hfits
  · intro rest heq
    cases heq
    exact hminus rfl
  · intro rest heq
    cases heq
    exact hplus rfl

/-- A formatted number of 64 bits parses to itself. -/
theorem parseI64_format {n : ℤ} (hfits : toI64 n=some n) :
    parseI64 (formatNumber n)=some n := by
  have hparse := parseDigits_toDigits n.natAbs
  unfold formatNumber
  split_ifs with hneg
  · have habs : -(n.natAbs : ℤ)=n := by omega
    apply parseI64_minus hparse
    rw [habs]
    exact hfits
  · have habs : (n.natAbs : ℤ)=n := by omega
    obtain ⟨c,rest,hdigits,hminus,hplus⟩ := toDigits_eq_cons n.natAbs
    rw [hdigits] at hparse ⊢
    apply parseI64_digits hminus hplus hparse
    rw [habs]
    exact hfits

theorem toI64_toInt (x : Int64) : toI64 x.toInt=some x.toInt := by
  have hlow := x.le_toInt
  have hhigh := x.toInt_lt
  rw [toI64,if_pos]
  omega

theorem parseI64_int64 (x : Int64) : parseI64 (formatNumber x.toInt)=some x.toInt :=
  parseI64_format (toI64_toInt x)

theorem format_bool (b : Bool) : decide (formatNumber b.toNat=['1'])=b := by
  cases b <;> rfl

/-- A window as it is read back. -/
def readForm (w : WireWindow) : WireWindow :=
  {w with limitId := readText w.limitId, account := readText w.account, plan := readText w.plan}

/-- A stored row is read back but for the quotes of its texts. -/
theorem windowFromRow_stored (userId provider : String) (nowMs : UInt64) {w : WireWindow}
    (hprovider : ControlFree provider) (hlimit : ControlFree w.limitId)
    (haccount : ControlFree w.account) (hplan : ControlFree w.plan) :
    windowFromRow ((selectCols ((rowArguments userId provider nowMs w).map
      Argument.stored)).map tsvField)=some (readText provider,readForm w) := by
  have hfields : (selectCols ((rowArguments userId provider nowMs w).map
      Argument.stored)).map tsvField=
      [tsvField (Argument.text userId).stored,tsvField (Argument.text provider).stored,
        tsvField (Argument.text w.limitId).stored,tsvField (Argument.text w.account).stored,
        formatNumber w.windowKind.toNat,formatNumber w.windowEndMs.toInt,
        formatNumber w.rawResetsAtMs.toInt,formatNumber w.windowMinutes.toNat,
        formatNumber w.peakPctX100.toNat,formatNumber w.lastPctX100.toNat,
        formatNumber w.observedTsMs.toInt,formatNumber w.firstSeenMs.toInt,
        formatNumber w.finalized.toNat,formatNumber w.maxedOut.toNat,
        formatNumber w.limitReachedKind.toNat,formatNumber w.timeTo100Ms.toInt,
        formatNumber w.activeMs.toNat,formatNumber w.lastSampleGapMs.toInt,
        formatNumber w.sampledActiveFraction.toNat,formatNumber w.nSamples.toNat,
        tsvField (Argument.text w.plan).stored] := rfl
  rw [hfields]
  simp only [windowFromRow,List.length_cons,List.length_nil,Nat.lt_irrefl,if_false,
    List.getD_cons_succ,List.getD_cons_zero,parseI64_int64,
    parseUnsigned_format w.windowKind.toNat_lt_size,
    parseUnsigned_format w.windowMinutes.toNat_lt_size,
    parseUnsigned_format w.peakPctX100.toNat_lt_size,
    parseUnsigned_format w.lastPctX100.toNat_lt_size,
    parseUnsigned_format w.limitReachedKind.toNat_lt_size,
    parseUnsigned_format w.activeMs.toNat_lt_size,
    parseUnsigned_format w.sampledActiveFraction.toNat_lt_size,
    parseUnsigned_format w.nSamples.toNat_lt_size,Option.bind_eq_bind,Option.bind_some,
    UInt8.ofNat_toNat,UInt16.ofNat_toNat,UInt32.ofNat_toNat,UInt64.ofNat_toNat,
    Int64.ofInt_toInt,format_bool,tsvUnescape_stored hprovider,tsvUnescape_stored hlimit,
    tsvUnescape_stored haccount,tsvUnescape_stored hplan,readForm]

theorem controlFree_of_strOk {s : String} {limit : ℕ} (h : strOk s limit=true) :
    ControlFree s := by
  rw [strOk,Bool.and_eq_true,List.all_eq_true] at h
  intro c hc
  have hcontrol := h.2 c hc
  rw [Bool.not_eq_true'] at hcontrol
  exact hcontrol

/-- Clamping and capping leave the plan alone. -/
theorem plan_clamped (nowMs : Int64) (w : WireWindow) :
    (clampObserved nowMs (capActive w)).plan=w.plan := by
  simp only [clampObserved,capActive,apply_ite WireWindow.plan,ite_self]

/-- The texts of a sanitized row have no control characters. -/
theorem controlFree_of_sanitized {w : WireWindow} (h : Sanitized w) :
    ControlFree w.limitId ∧ ControlFree w.account ∧ ControlFree w.plan := by
  obtain ⟨items,nowMs,hw⟩ := h
  obtain ⟨x,hstable,-,rfl⟩ := mem_sanitizeWindowBatch hw
  have hid : (clampObserved nowMs (capActive x)).id=x.id :=
    (clampObserved_fields nowMs (capActive x)).1.trans (capActive_fields x).1
  simp only [WireWindow.id,WindowId.mk.injEq] at hid
  rw [hid.2.1,hid.2.2.1,plan_clamped]
  simp only [windowItemStableOk,Bool.and_eq_true] at hstable
  obtain ⟨⟨⟨⟨⟨⟨⟨⟨⟨⟨⟨⟨hlimit,haccount⟩,hplan⟩,-⟩,-⟩,-⟩,-⟩,-⟩,-⟩,-⟩,-⟩,-⟩,-⟩ := hstable
  exact ⟨controlFree_of_strOk hlimit,controlFree_of_strOk haccount,controlFree_of_strOk hplan⟩

/-- Admitted provider names are read back unchanged. -/
theorem readText_provider {provider : String} (h : providerOk provider=true) :
    ControlFree provider ∧ readText provider=provider := by
  simp only [providerOk,Bool.and_eq_true,List.all_eq_true] at h
  have hchars : ∀ c∈provider.toList, isControl c=false ∧ c≠ '\x27' := by
    intro c hc
    have hadmitted := h.2 c hc
    simp only [Bool.or_eq_true,Bool.and_eq_true,decide_eq_true_eq] at hadmitted
    constructor
    · rw [isControl,Bool.or_eq_false_iff,Bool.and_eq_false_iff]
      simp only [decide_eq_false_iff_not]
      rcases hadmitted with hletter | hunderscore
      · omega
      · rw [hunderscore]
        decide
    · intro heq
      rw [heq] at hadmitted
      rcases hadmitted with hletter | hunderscore
      · exact absurd hletter (by decide)
      · exact absurd hunderscore (by decide)
  refine ⟨fun c hc => (hchars c hc).1,?_⟩
  rw [readText_eq_iff]
  exact fun hmem => (hchars _ hmem).2 rfl

/-- The texts of a window have no single quote. -/
structure QuoteFree (w : WireWindow) : Prop where
  limitId : '\x27'∉w.limitId.toList
  account : '\x27'∉w.account.toList
  plan : '\x27'∉w.plan.toList

/-- A window is read back unchanged when its texts have no single quote. -/
theorem readForm_eq_iff (w : WireWindow) : readForm w=w ↔ QuoteFree w := by
  constructor
  · intro h
    exact ⟨(readText_eq_iff _).mp (congrArg WireWindow.limitId h),
      (readText_eq_iff _).mp (congrArg WireWindow.account h),
      (readText_eq_iff _).mp (congrArg WireWindow.plan h)⟩
  · intro h
    rw [readForm,(readText_eq_iff _).mpr h.limitId,(readText_eq_iff _).mpr h.account,
      (readText_eq_iff _).mpr h.plan]

/-- What is read back of sanitized windows. -/
theorem readBack_eq (userId : String) {provider : String} (hprovider : providerOk provider=true)
    (nowMs : UInt64) {merged : List WireWindow} (hmerged : merged≠[])
    (hsanitized : ∀ w∈merged, Sanitized w) :
    readBack userId provider nowMs merged=some (merged.map fun w => (provider,readForm w)) := by
  obtain ⟨hfree,hsame⟩ := readText_provider hprovider
  rw [readBack,executeInsert_sql userId provider nowMs hmerged,Option.map_some,List.map_map,
    readBody_tsvBody,List.filterMap_map]
  · congr 1
    have hrow : ∀ w∈merged, windowFromRow ((selectCols ((rowArguments userId provider nowMs w).map
        Argument.stored)).map tsvField)=some (provider,readForm w) := by
      intro w hw
      obtain ⟨hlimit,haccount,hplan⟩ := controlFree_of_sanitized (hsanitized w hw)
      rw [windowFromRow_stored userId provider nowMs hfree hlimit haccount hplan,hsame]
    have hmap := congrFun (List.filterMap_eq_map' (f := fun w => (provider,readForm w))) merged
    exact (List.filterMap_congr hrow).trans hmap
  · intro row hrow
    obtain ⟨w,-,rfl⟩ := List.mem_map.mp hrow
    exact List.cons_ne_nil _ _

/-- Sanitized windows of an admitted provider are read back as they were
written exactly when none of their texts has a single quote. -/
theorem reads_back_iff (userId provider : String) (hprovider : providerOk provider=true)
    (nowMs : UInt64) (merged : List WireWindow) (hmerged : merged≠[])
    (hsanitized : ∀ w∈merged, Sanitized w) :
    readBack userId provider nowMs merged=some (merged.map fun w => (provider,w)) ↔
      ∀ w∈merged, QuoteFree w := by
  rw [readBack_eq userId hprovider nowMs hmerged hsanitized,Option.some.injEq,
    List.map_inj_left]
  constructor
  · intro h w hw
    exact (readForm_eq_iff w).mp (congrArg Prod.snd (h w hw))
  · intro h w hw
    rw [(readForm_eq_iff w).mpr (h w hw)]

/-- A window that the sanitizer leaves as it is, with the given limit. -/
def limitWindow (limitId : String) : WireWindow :=
  {sampleWindow 1759995000000 300 60000 with limitId := limitId}

/-- A backslash survives. -/
theorem reads_back_backslash :
    readBack "u'1" "codex" 1759996000000 [limitWindow "a\\b"]=
      some [("codex",limitWindow "a\\b")] := by
  have hsanitized : Sanitized (limitWindow "a\\b") :=
    ⟨[limitWindow "a\\b"],1759996000000,by decide⟩
  have hall : ∀ w∈[limitWindow "a\\b"], Sanitized w := by
    intro w hw
    rw [List.mem_singleton.mp hw]
    exact hsanitized
  have hfree : ∀ w∈[limitWindow "a\\b"], QuoteFree w := by
    intro w hw
    rw [List.mem_singleton.mp hw]
    exact ⟨by decide,by decide,by decide⟩
  exact (reads_back_iff "u'1" "codex" (by decide) 1759996000000 _ (List.cons_ne_nil _ _) hall).mpr
    hfree

/-- A single quote comes back with a backslash before it. -/
theorem quote_gains_backslash : ∃ w, Sanitized w ∧ providerOk "codex"=true ∧
    readBack "u1" "codex" 1759996000000 [w]≠some [("codex",w)] := by
  have hsanitized : Sanitized (limitWindow "it's") :=
    ⟨[limitWindow "it's"],1759996000000,by decide⟩
  have hall : ∀ w∈[limitWindow "it's"], Sanitized w := by
    intro w hw
    rw [List.mem_singleton.mp hw]
    exact hsanitized
  refine ⟨limitWindow "it's",hsanitized,by decide,?_⟩
  rw [readBack_eq "u1" (by decide) 1759996000000 (List.cons_ne_nil _ _) hall]
  intro h
  have hsame := congrArg Prod.snd (List.head_eq_of_cons_eq (Option.some.inj h))
  have hfree := (readForm_eq_iff (limitWindow "it's")).mp hsame
  exact hfree.limitId (by decide)

end TokiSync.ClickHouseRows
