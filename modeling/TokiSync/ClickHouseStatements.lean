import TokiSync.ClickHouseRoundTrip
import TokiSync.FjallStore

/-!
# Statements sent to ClickHouse

A statement is fixed text with numbers and string literals in it. Read from its
first character on, with the rules of string literals, it falls into the
characters of the fixed text and one literal for each embedded text, whatever
the text is; so no text reaches the statement around it. The rows of an INSERT
are then read from these tokens.
-/

namespace TokiSync.ClickHouseStatements

open MachineWords ByteKeys WireWindows WindowStore DurationText ServerEvents FjallStore
open ClickHouseRows

/-- Arguments of an event, in the order of the columns. -/
def eventArguments (e : ServerEvent) : List Argument :=
  [.text e.deviceId,.text e.userId,.text e.msgId,.number e.tsMs.toInt,.text e.provider,
    .text e.model,.text e.project,.text e.session,.number e.inputTokens.toNat,
    .number e.outputTokens.toNat,.number e.cacheCreationInputTokens.toNat,
    .number e.cacheReadInputTokens.toNat,.number e.usageTotal.toNat]

/-- Columns of an event. -/
def eventCols : String :=
  "device_id, user_id, msg_id, ts_ms, provider, model, project, session, "++
  "input_tokens, output_tokens, cache_creation_input_tokens, cache_read_input_tokens, usage_total"

/-- The statement of `upsert_events` up to its rows. -/
def insertEventsHead : List Char := ("INSERT INTO toki_events ("++eventCols++") VALUES ").toList

/-- The statement of `upsert_events`; nothing is sent for no events. -/
def upsertEventsSql (events : List ServerEvent) : Option (List Char) :=
  if events=[] then none
  else some (insertEventsHead++[','].intercalate (events.map fun e => formatRow (eventArguments e)))

/-- The statement of `upsert_windows`; nothing is sent for no merged rows. -/
def upsertWindowsSql (userId provider : String) (nowMs : UInt64) (merged : List WireWindow) :
    Option (List Char) :=
  if merged=[] then none else some (insertSql userId provider nowMs merged)

/-- The statement of `query_events` up to the start of the range. -/
def selectEvents : List Char :=
  ("SELECT "++eventCols++" FROM toki_events FINAL WHERE ts_ms >= ").toList

/-- Its text before the end of the range. -/
def andBefore : List Char := " AND ts_ms < ".toList

/-- Its text before a user. -/
def andUser : List Char := "AND user_id = ".toList

/-- Its text before several users. -/
def andUserIn : List Char := "AND user_id IN (".toList

/-- Its text before the limit. -/
def orderBy : List Char := " ORDER BY ts_ms LIMIT ".toList

/-- Its text behind the limit. -/
def formatJson : List Char := " FORMAT JSONEachRow".toList

/-- The condition on the user in `query_events`. -/
def userClause : UserFilter → List Char
  | .single uid => andUser++formatArgument (.text uid)
  | .multiple uids =>
    andUserIn++[','].intercalate (uids.map fun uid => formatArgument (.text uid))++[')']
  | .all => []

/-- The statement of `query_events`. -/
def queryEventsSql (sinceMs untilMs : Int64) (filter : UserFilter) (limit : ℕ) : List Char :=
  selectEvents++formatNumber sinceMs.toInt++andBefore++formatNumber untilMs.toInt++[' ']++
    userClause filter++orderBy++formatNumber limit++formatJson

/-- A query for windows up to the user. -/
def selectWindows : List Char :=
  ("SELECT "++windowCols++" FROM toki_windows FINAL WHERE user_id = ").toList

/-- Its text before a provider. -/
def andProvider : List Char := " AND provider = ".toList

/-- Its text before the least end. -/
def andEnd : List Char := " AND window_end_ms >= ".toList

/-- Its text behind the least end. -/
def formatTsv : List Char := " FORMAT TSV".toList

/-- The condition on the provider in a query for windows. -/
def providerClause : Option String → List Char
  | some provider => andProvider++formatArgument (.text provider)
  | none => []

/-- The statement of `query_user_windows_filtered`. -/
def queryWindowsSql (userId : String) (provider : Option String) (sinceMs : Int64) : List Char :=
  selectWindows++formatArgument (.text userId)++providerClause provider++andEnd++
    formatNumber sinceMs.toInt++formatTsv

/-- Characters of a device id that `delete_device_events` accepts. -/
def isDeviceIdChar (c : Char) : Bool := c.isAlphanum || c = '-'

/-- The statement of `delete_device_events` up to the device. -/
def deleteDevice : List Char := "ALTER TABLE toki_events DELETE WHERE device_id = ".toList

/-- The statement of `delete_device_events`, or the reason why there is none. -/
def deleteDeviceEventsSql (deviceId : String) : Except String (List Char) :=
  if deviceId.toList.all isDeviceIdChar then .ok (deleteDevice++formatArgument (.text deviceId))
  else .error ("invalid device_id format: "++deviceId)

/-- The statement of `delete_user_windows` up to the user. -/
def deleteUser : List Char := "ALTER TABLE toki_windows DELETE WHERE user_id = ".toList

/-- The statement of `delete_user_windows`. -/
def deleteUserWindowsSql (userId : String) : List Char :=
  deleteUser++formatArgument (.text userId)

/-- What a statement falls into. -/
inductive Token where
  /-- A character outside of all literals. -/
  | char (c : Char)
  /-- A string literal. -/
  | literal (text : List Char)
  deriving DecidableEq

/-- Where the lexer of a statement stands, with the text of the literal it has
read so far. -/
inductive LexState where
  /-- Outside of all literals. -/
  | outside
  /-- In a literal. -/
  | inside (text : List Char)
  /-- In a literal, behind a backslash. -/
  | escaped (text : List Char)
  /-- Behind a quote that closes a literal unless another one follows. -/
  | closing (text : List Char)

/-- Tokens of a statement; none when a literal is not closed. -/
def lex : LexState → List Char → Option (List Token)
  | .outside,[] => some []
  | .outside,c::rest =>
    if c = '\x27' then lex (.inside []) rest
    else (lex .outside rest).map fun tokens => .char c::tokens
  | .inside _,[] => none
  | .inside text,c::rest =>
    if c = '\\' then lex (.escaped text) rest
    else if c = '\x27' then lex (.closing text) rest
    else lex (.inside (text++[c])) rest
  | .escaped _,[] => none
  | .escaped text,c::rest =>
    match literalEscape c with
    | some value => lex (.inside (text++[value])) rest
    | none => none
  | .closing text,[] => some [.literal text]
  | .closing text,c::rest =>
    if c = '\x27' then lex (.inside (text++[c])) rest
    else (lex .outside rest).map fun tokens => .literal text::.char c::tokens

/-- The longest number at the head of the tokens, and what follows. -/
def takeNumber : List Token → List Char×List Token
  | .char c::rest =>
    if isNumberChar c then (c::(takeNumber rest).1,(takeNumber rest).2) else ([],.char c::rest)
  | tokens => ([],tokens)

/-- Read one value: a literal or a number. -/
def parseValue : List Token → Option (Value×List Token)
  | .literal text::rest => some (.text text,rest)
  | tokens => (numberValue (takeNumber tokens).1).map fun n => (.number n,(takeNumber tokens).2)

/-- Read values with commas between them up to a closing parenthesis; the fuel
bounds their number. -/
def parseTuple : ℕ → List Token → Option (List Value×List Token)
  | 0,_ => none
  | fuel+1,tokens => do
    let (value,left) ← parseValue tokens
    match left with
    | .char c::left =>
      if c = ')' then some ([value],left)
      else if c = ',' then do
        let (values,left) ← parseTuple fuel left
        some (value::values,left)
      else none
    | _ => none

/-- Read tuples with commas between them up to the end; the fuel bounds their
number. -/
def parseTuples : ℕ → List Token → Option (List (List Value))
  | 0,_ => none
  | fuel+1,tokens =>
    match tokens with
    | .char c::tokens =>
      if c = '(' then do
        let (row,left) ← parseTuple tokens.length tokens
        match left with
        | [] => some [row]
        | .char c::left =>
          if c = ',' then do
            let rows ← parseTuples fuel left
            some (row::rows)
          else none
        | _ => none
      else none
    | _ => none

/-- The rows of an INSERT with the given head. -/
def parseInsert (head sql : List Char) : Option (List (List Value)) := do
  let tokens ← lex .outside sql
  if (head.map Token.char).isPrefixOf tokens then
    parseTuples tokens.length (tokens.drop head.length)
  else none

/-- A part of a statement: plain text, or a text in quotes. -/
inductive Fragment where
  /-- Plain text. -/
  | plain (text : List Char)
  /-- A text, escaped in quotes. -/
  | quoted (s : String)

/-- How a part is written. -/
def Fragment.render : Fragment → List Char
  | .plain text => text
  | .quoted s => formatArgument (.text s)

/-- What a part is read as. -/
def Fragment.tokens : Fragment → List Token
  | .plain text => text.map Token.char
  | .quoted s => [.literal (s.toList.filter fun c => c≠ '\x00')]

/-- No plain text has a quote, and none follows a text in quotes directly. -/
def Separated : List Fragment → Prop
  | [] => True
  | .plain text::rest => '\x27'∉text ∧ Separated rest
  | .quoted _::rest => (rest.flatMap Fragment.render).head?≠some '\x27' ∧ Separated rest

/-- The part that an argument is. -/
def Fragment.ofArgument : Argument → Fragment
  | .text s => .quoted s
  | .number n => .plain (formatNumber n)

/-- Arguments with commas between them. -/
def valueFragments (row : List Argument) : List Fragment :=
  [Fragment.plain [',']].intercalate (row.map fun argument => [.ofArgument argument])

/-- A row in parentheses. -/
def rowFragments (row : List Argument) : List Fragment :=
  .plain ['(']::(valueFragments row++[.plain [')']])

/-- Rows with commas between them. -/
def tupleFragments (rows : List (List Argument)) : List Fragment :=
  [Fragment.plain [',']].intercalate (rows.map rowFragments)

/-- The statement of `query_events` before its condition on the user. -/
def queryEventsHead (sinceMs untilMs : Int64) : List Char :=
  selectEvents++formatNumber sinceMs.toInt++andBefore++formatNumber untilMs.toInt++[' ']

/-- The statement of `query_events` behind its condition on the user. -/
def queryEventsTail (limit : ℕ) : List Char := orderBy++formatNumber limit++formatJson

/-- Parts of the statement of `query_events`: the only texts in quotes are the
users. -/
def queryEventsFragments (sinceMs untilMs : Int64) (filter : UserFilter) (limit : ℕ) :
    List Fragment :=
  match filter with
  | .single uid => [.plain (queryEventsHead sinceMs untilMs++andUser),.quoted uid,
      .plain (queryEventsTail limit)]
  | .multiple uids =>
    .plain (queryEventsHead sinceMs untilMs++andUserIn)::
      (valueFragments (uids.map Argument.text)++[.plain (')'::queryEventsTail limit)])
  | .all => [.plain (queryEventsHead sinceMs untilMs++queryEventsTail limit)]

/-- Parts of a query for windows: the only texts in quotes are the user and the
provider. -/
def queryWindowsFragments (userId : String) (provider : Option String) (sinceMs : Int64) :
    List Fragment :=
  let last := Fragment.plain (andEnd++formatNumber sinceMs.toInt++formatTsv)
  match provider with
  | some provider =>
    [.plain selectWindows,.quoted userId,.plain andProvider,.quoted provider,last]
  | none => [.plain selectWindows,.quoted userId,last]

section

variable {tail : List Char}

/-- Plain text is read character by character. -/
theorem lex_plain {text : List Char} (h : '\x27'∉text) :
    lex .outside (text++tail)=
      (lex .outside tail).map fun tokens => text.map Token.char++tokens := by
  induction text with
  | nil => exact Option.map_id_apply.symm
  | cons c text ih =>
    rw [List.mem_cons,not_or] at h
    rw [List.cons_append,lex,if_neg (Ne.symm h.1),ih h.2,Option.map_map]
    rfl

/-- Within a literal an escaped text is read as the text without its NUL
characters. -/
theorem lex_escaped (text seen : List Char) :
    lex (.inside seen) (text.flatMap escapeChar++tail)=
      lex (.inside (seen++text.filter fun c => c≠ '\x00')) tail := by
  induction text generalizing seen with
  | nil => rw [List.flatMap_nil,List.nil_append,List.filter_nil,List.append_nil]
  | cons c text ih =>
    have hkept : c≠ '\x00' → seen++(c::text).filter (fun c => c≠ '\x00')=
        (seen++[c])++text.filter fun c => c≠ '\x00' := by
      intro hnul
      have hfilter : (c::text).filter (fun c => c≠ '\x00')=c::text.filter fun c => c≠ '\x00' :=
        List.filter_cons_of_pos (decide_eq_true hnul)
      rw [hfilter,List.append_assoc,List.singleton_append]
    have hescape : ∀ k, literalEscape k=some c → c≠ '\x00' →
        lex (.inside seen) (['\\',k]++(text.flatMap escapeChar++tail))=
          lex (.inside (seen++(c::text).filter fun c => c≠ '\x00')) tail := by
      intro k hk hnul
      rw [hkept hnul,←ih,List.cons_append,List.singleton_append,lex,if_pos rfl,lex,hk]
    rw [List.flatMap_cons,List.append_assoc,escapeChar]
    split_ifs with hbackslash hquote hnul hnewline hreturn htab
    · exact hescape '\\' (by rw [hbackslash]; rfl) (hbackslash ▸ by decide)
    · exact hescape '\x27' (by rw [hquote]; rfl) (hquote ▸ by decide)
    · rw [List.nil_append,ih,hnul,List.filter_cons_of_neg (by decide)]
    · exact hescape 'n' (hnewline ▸ rfl) (hnewline ▸ by decide)
    · exact hescape 'r' (hreturn ▸ rfl) (hreturn ▸ by decide)
    · exact hescape 't' (htab ▸ rfl) (htab ▸ by decide)
    · rw [List.singleton_append,lex,if_neg hbackslash,if_neg hquote,ih,hkept hnul]

/-- A text in quotes is read as one literal, whatever the text is. -/
theorem lex_quoted (s : String) (h : tail.head?≠some '\x27') :
    lex .outside (formatArgument (.text s)++tail)=(lex .outside tail).map fun tokens =>
      .literal (s.toList.filter fun c => c≠ '\x00')::tokens := by
  have hshape : formatArgument (.text s)++tail= '\x27'::(s.toList.flatMap escapeChar++
      '\x27'::tail) := by
    rw [formatArgument,escape_eq]
    simp only [List.append_assoc,List.cons_append,List.nil_append]
  rw [hshape,lex,if_pos rfl,lex_escaped,List.nil_append,lex,if_neg (by decide),if_pos rfl]
  cases tail with
  | nil => rfl
  | cons c tail =>
    have hc : c≠ '\x27' := fun heq => h (congrArg some heq)
    rw [lex,if_neg hc,lex,if_neg hc,Option.map_map]
    rfl

end

/-- A statement falls into its plain characters and one literal for each
embedded text. -/
theorem lex_fragments {fragments : List Fragment} (h : Separated fragments) :
    lex .outside (fragments.flatMap Fragment.render)=some (fragments.flatMap Fragment.tokens) := by
  induction fragments with
  | nil => rfl
  | cons fragment rest ih =>
    cases fragment with
    | plain text =>
      have hlex : lex .outside (text++rest.flatMap Fragment.render)=_ := lex_plain h.1
      rw [ih h.2] at hlex
      exact hlex
    | quoted s =>
      have hlex := lex_quoted s h.1
      rw [ih h.2] at hlex
      exact hlex

section

variable {row : List Argument} {rows : List (List Argument)} {rest : List Fragment}

/-- A map over what is joined maps the separator and the parts. -/
theorem flatMap_intercalate {α β : Type} (f : α → List β) (separator : List α)
    (parts : List (List α)) : (separator.intercalate parts).flatMap f=
      (separator.flatMap f).intercalate (parts.map fun part => part.flatMap f) := by
  induction parts with
  | nil => rfl
  | cons part parts ih =>
    cases parts with
    | nil => simp only [List.map_cons,List.map_nil,List.intercalate_singleton]
    | cons second parts =>
      rw [List.intercalate_cons_cons,List.flatMap_append,List.flatMap_append,ih]
      simp only [List.map_cons,List.intercalate_cons_cons]

theorem render_ofArgument (argument : Argument) :
    (Fragment.ofArgument argument).render=formatArgument argument := by
  cases argument <;> rfl

theorem render_valueFragments (row : List Argument) :
    (valueFragments row).flatMap Fragment.render=[','].intercalate (row.map formatArgument) := by
  rw [valueFragments,flatMap_intercalate,List.map_map]
  congr 1
  refine List.map_congr_left fun argument _ => ?_
  rw [Function.comp_apply,List.flatMap_singleton,render_ofArgument]

theorem render_rowFragments (row : List Argument) :
    (rowFragments row).flatMap Fragment.render=formatRow row := by
  rw [rowFragments,List.flatMap_cons,List.flatMap_append,render_valueFragments,formatRow]
  rfl

theorem render_tupleFragments (rows : List (List Argument)) :
    (tupleFragments rows).flatMap Fragment.render=[','].intercalate (rows.map formatRow) := by
  rw [tupleFragments,flatMap_intercalate,List.map_map]
  congr 1
  exact List.map_congr_left fun row _ => render_rowFragments row

/-- Numbers have no quotes. -/
theorem quote_notMem_formatNumber (n : ℤ) : '\x27'∉formatNumber n := by
  intro h
  have hnumber := isNumberChar_of_mem h
  exact absurd hnumber (by decide)

/-- An argument before a part that does not begin with a quote. -/
theorem separated_ofArgument (argument : Argument) (hrest : Separated rest)
    (hhead : (rest.flatMap Fragment.render).head?≠some '\x27') :
    Separated (.ofArgument argument::rest) := by
  cases argument with
  | text s => exact ⟨hhead,hrest⟩
  | number n => exact ⟨quote_notMem_formatNumber n,hrest⟩

/-- Values before a part that does not begin with a quote. -/
theorem separated_values (row : List Argument) (hrest : Separated rest)
    (hhead : (rest.flatMap Fragment.render).head?≠some '\x27') :
    Separated (valueFragments row++rest) := by
  unfold valueFragments
  induction row with
  | nil => exact hrest
  | cons argument row ih =>
    cases row with
    | nil => exact separated_ofArgument argument hrest hhead
    | cons second row =>
      have hcomma : (',' : Char)≠ '\x27' := by decide
      refine separated_ofArgument argument ⟨?_,ih⟩ fun h => hcomma (Option.some.inj h)
      rw [List.mem_singleton]
      exact hcomma.symm

/-- A row before anything. -/
theorem separated_row (row : List Argument) (hrest : Separated rest) :
    Separated (rowFragments row++rest) := by
  have hclose : (')' : Char)≠ '\x27' := by decide
  have hshape : rowFragments row++rest=
      .plain ['(']::(valueFragments row++(.plain [')']::rest)) := by
    rw [rowFragments,List.cons_append,List.append_assoc,List.singleton_append]
  rw [hshape]
  refine ⟨by decide,separated_values row ⟨?_,hrest⟩ fun h => hclose (Option.some.inj h)⟩
  rw [List.mem_singleton]
  exact hclose.symm

theorem separated_tuples (rows : List (List Argument)) : Separated (tupleFragments rows) := by
  unfold tupleFragments
  induction rows with
  | nil => trivial
  | cons row rows ih =>
    cases rows with
    | nil =>
      have hrow : Separated (rowFragments row++[]) := separated_row row trivial
      rw [List.append_nil] at hrow
      rw [List.map_cons,List.map_nil,List.intercalate_singleton]
      exact hrow
    | cons second rows =>
      rw [List.map_cons,List.map_cons,List.intercalate_cons_cons,List.append_assoc]
      exact separated_row row ⟨by decide,ih⟩

end

section

variable {c : Char} {tail : List Token}

/-- A number is taken up to the next other character. -/
theorem takeNumber_chars (hc : isNumberChar c=false) (text : List Char)
    (h : ∀ x∈text, isNumberChar x=true) :
    takeNumber (text.map Token.char++.char c::tail)=(text,.char c::tail) := by
  induction text with
  | nil =>
    have hstop : ¬isNumberChar c=true := by
      rw [hc]
      exact Bool.false_ne_true
    rw [List.map_nil,List.nil_append,takeNumber,if_neg hstop]
  | cons x text ih =>
    rw [List.map_cons,List.cons_append,takeNumber,if_pos (h x List.mem_cons_self),
      ih fun y hy => h y (List.mem_cons_of_mem x hy)]

/-- An argument is read up to the next delimiter. -/
theorem parseValue_argument (argument : Argument) (hc : isNumberChar c=false) :
    parseValue ((Fragment.ofArgument argument).tokens++.char c::tail)=
      some (argument.stored,.char c::tail) := by
  cases argument with
  | text s => rfl
  | number n =>
    have hchars : ∀ text : List Char, parseValue (text.map Token.char++.char c::tail)=
        (numberValue (takeNumber (text.map Token.char++.char c::tail)).1).map fun n =>
          (.number n,(takeNumber (text.map Token.char++.char c::tail)).2) := by
      intro text
      cases text <;> rfl
    have hparse := hchars (formatNumber n)
    rw [takeNumber_chars hc _ fun x hx => isNumberChar_of_mem hx,numberValue_format] at hparse
    exact hparse

/-- Joined parts are not shorter than the separators between them. -/
theorem length_le_length_intercalate {α : Type} (separator : α) (parts : List (List α)) :
    parts.length≤([separator].intercalate parts).length+1 := by
  induction parts with
  | nil => exact Nat.zero_le _
  | cons part parts ih =>
    cases parts with
    | nil => exact Nat.le_add_left 1 _
    | cons second parts =>
      rw [List.intercalate_cons_cons,List.length_append,List.length_append,List.length_singleton]
      simp only [List.length_cons] at ih ⊢
      omega

/-- Tokens of values with commas between them. -/
theorem tokens_valueFragments (row : List Argument) :
    (valueFragments row).flatMap Fragment.tokens=
      [Token.char ','].intercalate
        (row.map fun argument => (Fragment.ofArgument argument).tokens) := by
  rw [valueFragments,flatMap_intercalate,List.map_map]
  congr 1
  exact List.map_congr_left fun argument _ => List.flatMap_singleton _ _

/-- The values of a row are read up to its closing parenthesis. -/
theorem parseTuple_values (first : Argument) (others : List Argument) (fuel : ℕ)
    (hfuel : others.length<fuel) :
    parseTuple fuel ((valueFragments (first::others)).flatMap Fragment.tokens++.char ')'::tail)=
      some ((first::others).map Argument.stored,tail) := by
  rw [tokens_valueFragments]
  induction others generalizing first fuel with
  | nil =>
    obtain ⟨fuel,rfl⟩ := Nat.exists_eq_add_one_of_ne_zero (Nat.ne_of_gt hfuel)
    have hvalue : parseValue ((Fragment.ofArgument first).tokens++.char ')'::tail)=_ :=
      parseValue_argument first (by decide)
    rw [List.map_cons,List.map_nil,List.intercalate_singleton,parseTuple,hvalue]
    rfl
  | cons second others ih =>
    obtain ⟨fuel,rfl⟩ := Nat.exists_eq_add_one_of_ne_zero (Nat.ne_of_gt
      (Nat.lt_of_le_of_lt (Nat.zero_le _) hfuel))
    rw [List.length_cons] at hfuel
    have hothers := ih second fuel (by omega)
    have hvalue : parseValue ((Fragment.ofArgument first).tokens++.char ','::
        ([Token.char ','].intercalate ((second::others).map fun argument =>
          (Fragment.ofArgument argument).tokens)++.char ')'::tail))=_ :=
      parseValue_argument first (by decide)
    have hshape : [Token.char ','].intercalate ((first::second::others).map fun argument =>
        (Fragment.ofArgument argument).tokens)++.char ')'::tail=
          (Fragment.ofArgument first).tokens++.char ','::
            ([Token.char ','].intercalate ((second::others).map fun argument =>
              (Fragment.ofArgument argument).tokens)++.char ')'::tail) := by
      simp only [List.map_cons,List.intercalate_cons_cons,List.append_assoc,List.cons_append,
        List.nil_append]
    rw [hshape,parseTuple,hvalue]
    simp only [Option.bind_eq_bind,Option.bind_some]
    rw [if_neg (by decide),if_pos trivial,hothers]
    rfl

/-- Tokens of a row. -/
theorem tokens_rowFragments (row : List Argument) : (rowFragments row).flatMap Fragment.tokens=
    .char '('::((valueFragments row).flatMap Fragment.tokens++[.char ')']) := by
  rw [rowFragments,List.flatMap_cons,List.flatMap_append]
  rfl

/-- Tokens of rows with commas between them. -/
theorem tokens_tupleFragments (rows : List (List Argument)) :
    (tupleFragments rows).flatMap Fragment.tokens=[Token.char ','].intercalate
      (rows.map fun row => (rowFragments row).flatMap Fragment.tokens) := by
  rw [tupleFragments,flatMap_intercalate,List.map_map]
  rfl

/-- A row is read from the tokens of a row and what follows. -/
theorem parseTuple_row {row : List Argument} (hrow : row≠[]) (tail : List Token) :
    parseTuple ((valueFragments row).flatMap Fragment.tokens++.char ')'::tail).length
      ((valueFragments row).flatMap Fragment.tokens++.char ')'::tail)=
        some (row.map Argument.stored,tail) := by
  cases row with
  | nil => exact absurd rfl hrow
  | cons first others =>
    refine parseTuple_values first others _ ?_
    have hlength := length_le_length_intercalate (Token.char ',')
      ((first::others).map fun argument => (Fragment.ofArgument argument).tokens)
    rw [List.length_map,List.length_cons,←tokens_valueFragments] at hlength
    rw [List.length_append,List.length_cons]
    omega

/-- Rows with commas between them are all read. -/
theorem parseTuples_rows (row : List Argument) (others : List (List Argument))
    (hrows : ∀ r∈row::others, r≠[]) (fuel : ℕ) (hfuel : others.length<fuel) :
    parseTuples fuel ((tupleFragments (row::others)).flatMap Fragment.tokens)=
      some ((row::others).map fun r => r.map Argument.stored) := by
  rw [tokens_tupleFragments]
  induction others generalizing row fuel with
  | nil =>
    obtain ⟨fuel,rfl⟩ := Nat.exists_eq_add_one_of_ne_zero (Nat.ne_of_gt hfuel)
    have hrow := parseTuple_row (hrows row List.mem_cons_self) []
    rw [List.map_cons,List.map_nil,List.intercalate_singleton,tokens_rowFragments,parseTuples]
    dsimp only
    rw [if_pos rfl,hrow]
    rfl
  | cons second others ih =>
    obtain ⟨fuel,rfl⟩ := Nat.exists_eq_add_one_of_ne_zero (Nat.ne_of_gt
      (Nat.lt_of_le_of_lt (Nat.zero_le _) hfuel))
    rw [List.length_cons] at hfuel
    have hothers := ih second (fun r hr => hrows r (List.mem_cons_of_mem _ hr)) fuel
      (by omega)
    have hrow := parseTuple_row (hrows row List.mem_cons_self) (.char ','::
      [Token.char ','].intercalate ((second::others).map fun r =>
        (rowFragments r).flatMap Fragment.tokens))
    have hshape : [Token.char ','].intercalate ((row::second::others).map fun r =>
        (rowFragments r).flatMap Fragment.tokens)=
          .char '('::((valueFragments row).flatMap Fragment.tokens++.char ')'::.char ','::
            [Token.char ','].intercalate ((second::others).map fun r =>
              (rowFragments r).flatMap Fragment.tokens)) := by
      simp only [List.map_cons,List.intercalate_cons_cons,tokens_rowFragments,List.append_assoc,
        List.cons_append,List.nil_append]
    rw [hshape,parseTuples]
    dsimp only
    rw [if_pos rfl,hrow]
    simp only [Option.bind_eq_bind,Option.bind_some]
    rw [if_pos trivial,hothers]
    rfl

end

/-- The rows of an INSERT are read back from its text. -/
theorem parseInsert_rows {head : List Char} {c : Char} (hquote : '\x27'∉head)
    (hhead : head.head?=some c) {rows : List (List Argument)} (hrows : ∀ row∈rows, row≠[]) (hne : rows≠[]) :
    parseInsert head (head++[','].intercalate (rows.map formatRow))=
      some (rows.map fun row => row.map Argument.stored) := by
  have hsql : head++[','].intercalate (rows.map formatRow)=
      (Fragment.plain head::tupleFragments rows).flatMap Fragment.render := by
    rw [List.flatMap_cons,render_tupleFragments]
    rfl
  have htokens : (Fragment.plain head::tupleFragments rows).flatMap Fragment.tokens=
      head.map Token.char++(tupleFragments rows).flatMap Fragment.tokens := rfl
  have hprefix : (head.map Token.char).isPrefixOf
      (head.map Token.char++(tupleFragments rows).flatMap Fragment.tokens)=true := by
    rw [List.isPrefixOf_iff_prefix]
    exact List.prefix_append _ _
  have hdrop : (head.map Token.char++(tupleFragments rows).flatMap Fragment.tokens).drop
      head.length=(tupleFragments rows).flatMap Fragment.tokens :=
    List.drop_left' (List.length_map _)
  have hseparated : Separated (.plain head::tupleFragments rows) :=
    ⟨hquote,separated_tuples rows⟩
  rw [parseInsert,hsql,lex_fragments hseparated,htokens]
  simp only [Option.bind_eq_bind,Option.bind_some]
  rw [if_pos hprefix,hdrop]
  cases rows with
  | nil => exact absurd rfl hne
  | cons row others =>
    refine parseTuples_rows row others hrows _ ?_
    have hlength := length_le_length_intercalate (Token.char ',')
      ((row::others).map fun r => (rowFragments r).flatMap Fragment.tokens)
    have hpos := List.length_pos_of_mem (List.mem_of_mem_head? hhead)
    rw [List.length_map,List.length_cons,←tokens_tupleFragments] at hlength
    rw [List.length_append,List.length_map]
    omega

section

variable {text : List Char} {rest : List Fragment}

/-- A text in quotes before a plain text that does not begin with a quote. -/
theorem separated_quoted (s : String) {c : Char} (hhead : text.head?=some c) (hc : c≠ '\x27')
    (hplain : Separated (.plain text::rest)) : Separated (.quoted s::.plain text::rest) := by
  refine ⟨?_,hplain⟩
  rw [List.flatMap_cons,Fragment.render,List.head?_append,hhead,Option.some_or]
  exact fun h => hc (Option.some.inj h)

end

section

variable {c : Char} {text : List Char} {a b : String}

/-- A character that a literal text does not have. -/
theorem notMem_literal (h : c∉text) : c∉(String.ofList text).toList := by
  rw [String.toList_ofList]
  exact h

theorem notMem_joined (ha : c∉a.toList) (hb : c∉b.toList) : c∉(a++b).toList := by
  rw [String.toList_append,List.mem_append,not_or]
  exact ⟨ha,hb⟩

/-- The first character of a literal text. -/
theorem head?_literal : (String.ofList text).toList.head?=text.head? := by
  rw [String.toList_ofList]

theorem head?_joined (ha : a.toList.head?=some c) : (a++b).toList.head?=some c := by
  rw [String.toList_append,List.head?_append,ha,Option.some_or]

end

/-- The columns have no quotes. -/
theorem quote_notMem_cols : '\x27'∉eventCols.toList ∧ '\x27'∉windowCols.toList := by
  constructor
  · exact notMem_joined (notMem_literal (by decide)) (notMem_literal (by decide))
  · exact notMem_joined (notMem_joined (notMem_joined (notMem_literal (by decide))
      (notMem_literal (by decide))) (notMem_literal (by decide))) (notMem_literal (by decide))

/-- The fixed texts with columns have no quotes. -/
theorem quote_notMem_heads : '\x27'∉insertEventsHead ∧ '\x27'∉insertHead ∧
    '\x27'∉selectEvents ∧ '\x27'∉selectWindows := by
  obtain ⟨hevents,hwindows⟩ := quote_notMem_cols
  refine ⟨?_,?_,?_,?_⟩
  · exact notMem_joined (notMem_joined (notMem_literal (by decide)) hevents)
      (notMem_literal (by decide))
  · exact notMem_joined (notMem_joined (notMem_literal (by decide)) hwindows)
      (notMem_literal (by decide))
  · exact notMem_joined (notMem_joined (notMem_literal (by decide)) hevents)
      (notMem_literal (by decide))
  · exact notMem_joined (notMem_joined (notMem_literal (by decide)) hwindows)
      (notMem_literal (by decide))

/-- The other fixed texts have no quotes. -/
theorem quote_notMem_fixed : ∀ text∈[andBefore,andUser,andUserIn,orderBy,formatJson,andProvider,
    andEnd,formatTsv,deleteDevice,deleteUser], '\x27'∉text := by
  intro text htext
  simp only [List.mem_cons,List.not_mem_nil,or_false] at htext
  rcases htext with rfl | rfl | rfl | rfl | rfl | rfl | rfl | rfl | rfl | rfl
  all_goals exact notMem_literal (by decide)

/-- The fixed texts behind a text in quotes begin with a blank. -/
theorem head?_fixed : orderBy.head?=some ' ' ∧ andProvider.head?=some ' ' ∧
    andEnd.head?=some ' ' :=
  ⟨head?_literal,head?_literal,head?_literal⟩

/-- The statement of `query_events` has no quotes but those of its users. -/
theorem quote_notMem_queryEvents (sinceMs untilMs : Int64) (limit : ℕ) :
    '\x27'∉queryEventsHead sinceMs untilMs ∧ '\x27'∉queryEventsTail limit := by
  have hblank : '\x27'∉[' '] := by decide
  have hnumber := quote_notMem_formatNumber
  constructor
  · simp only [queryEventsHead,List.mem_append,not_or]
    exact ⟨⟨⟨⟨quote_notMem_heads.2.2.1,hnumber _⟩,quote_notMem_fixed _ (by simp)⟩,hnumber _⟩,
      hblank⟩
  · simp only [queryEventsTail,List.mem_append,not_or]
    exact ⟨⟨quote_notMem_fixed _ (by simp),hnumber _⟩,quote_notMem_fixed _ (by simp)⟩

/-- The parts of the statement of `query_events` are separated. -/
theorem separated_queryEventsFragments (sinceMs untilMs : Int64) (filter : UserFilter) (limit : ℕ) :
    Separated (queryEventsFragments sinceMs untilMs filter limit) := by
  obtain ⟨hhead,htail⟩ := quote_notMem_queryEvents sinceMs untilMs limit
  have hblank : (queryEventsTail limit).head?=some ' ' := by
    rw [queryEventsTail,List.append_assoc,List.head?_append,head?_fixed.1,Option.some_or]
  have hjoined : ∀ {text : List Char}, '\x27'∉text →
      '\x27'∉queryEventsHead sinceMs untilMs++text := by
    intro text htext
    rw [List.mem_append,not_or]
    exact ⟨hhead,htext⟩
  cases filter with
  | single uid =>
    exact ⟨hjoined (quote_notMem_fixed _ (by simp)),
      separated_quoted uid hblank (by decide) ⟨htail,trivial⟩⟩
  | multiple uids =>
    have hclose : (')' : Char)≠ '\x27' := by decide
    refine ⟨hjoined (quote_notMem_fixed _ (by simp)),separated_values _ ⟨?_,trivial⟩ ?_⟩
    · rw [List.mem_cons,not_or]
      exact ⟨hclose.symm,htail⟩
    · rw [List.flatMap_cons,Fragment.render,List.cons_append,List.head?_cons]
      exact fun h => hclose (Option.some.inj h)
  | all => exact ⟨hjoined htail,trivial⟩

/-- The statement of `query_events` falls into its parts. -/
theorem lex_queryEventsSql (sinceMs untilMs : Int64) (filter : UserFilter) (limit : ℕ) :
    lex .outside (queryEventsSql sinceMs untilMs filter limit)=
      some ((queryEventsFragments sinceMs untilMs filter limit).flatMap Fragment.tokens) := by
  have hsql : queryEventsSql sinceMs untilMs filter limit=
      queryEventsHead sinceMs untilMs++(userClause filter++queryEventsTail limit) := by
    simp only [queryEventsSql,queryEventsHead,queryEventsTail,List.append_assoc]
  have hrender : queryEventsSql sinceMs untilMs filter limit=
      (queryEventsFragments sinceMs untilMs filter limit).flatMap Fragment.render := by
    rw [hsql]
    cases filter with
    | single uid =>
      simp only [userClause,queryEventsFragments,List.flatMap_cons,List.flatMap_nil,
        Fragment.render,List.append_assoc,List.append_nil]
    | multiple uids =>
      have hvalues : uids.map (fun uid => formatArgument (.text uid))=
          (uids.map Argument.text).map formatArgument := by
        rw [List.map_map]
        rfl
      rw [queryEventsFragments,List.flatMap_cons,List.flatMap_append,render_valueFragments,
        userClause,hvalues]
      simp only [Fragment.render,List.flatMap_cons,List.flatMap_nil,List.append_assoc,
        List.append_nil,List.singleton_append]
    | all =>
      simp only [userClause,queryEventsFragments,List.flatMap_cons,List.flatMap_nil,
        Fragment.render,List.append_nil,List.nil_append]
  rw [hrender,lex_fragments (separated_queryEventsFragments sinceMs untilMs filter limit)]

/-- A query for windows falls into its parts. -/
theorem lex_queryWindowsSql (userId : String) (provider : Option String) (sinceMs : Int64) :
    lex .outside (queryWindowsSql userId provider sinceMs)=
      some ((queryWindowsFragments userId provider sinceMs).flatMap Fragment.tokens) := by
  have hlast : '\x27'∉andEnd++formatNumber sinceMs.toInt++formatTsv := by
    simp only [List.mem_append,not_or]
    exact ⟨⟨quote_notMem_fixed _ (by simp),quote_notMem_formatNumber _⟩,
      quote_notMem_fixed _ (by simp)⟩
  have hblank : (andEnd++formatNumber sinceMs.toInt++formatTsv).head?=some ' ' := by
    rw [List.append_assoc,List.head?_append,head?_fixed.2.2,Option.some_or]
  have hselect := quote_notMem_heads.2.2.2
  cases provider with
  | none =>
    have hseparated : Separated (queryWindowsFragments userId none sinceMs) :=
      ⟨hselect,separated_quoted userId hblank (by decide) ⟨hlast,trivial⟩⟩
    rw [←lex_fragments hseparated]
    simp only [queryWindowsSql,providerClause,queryWindowsFragments,List.flatMap_cons,
      List.flatMap_nil,Fragment.render,List.append_assoc,List.append_nil]
  | some provider =>
    have hprovider : '\x27'∉andProvider := quote_notMem_fixed _ (by simp)
    have hseparated : Separated (queryWindowsFragments userId (some provider) sinceMs) := by
      refine ⟨hselect,separated_quoted userId head?_fixed.2.1 (by decide) ⟨hprovider,?_⟩⟩
      exact separated_quoted provider hblank (by decide) ⟨hlast,trivial⟩
    rw [←lex_fragments hseparated]
    simp only [queryWindowsSql,providerClause,queryWindowsFragments,List.flatMap_cons,
      List.flatMap_nil,Fragment.render,List.append_assoc,List.append_nil]

/-- A statement that ends with an id falls into its fixed text and the id. -/
theorem lex_delete {head : List Char} (h : '\x27'∉head) (id : String) :
    lex .outside (head++formatArgument (.text id))=
      some ([Fragment.plain head,.quoted id].flatMap Fragment.tokens) := by
  have hseparated : Separated [.plain head,.quoted id] := by
    refine ⟨h,?_,trivial⟩
    intro hnone
    cases hnone
  rw [←lex_fragments hseparated]
  simp only [List.flatMap_cons,List.flatMap_nil,Fragment.render,List.append_nil]

/-- Whatever texts events, windows, users, providers and ids have: an INSERT is
read as exactly its rows, each with its fields in order and its texts without
their NUL characters; and the statements of queries and deletions are read as
their fixed text with one literal for each embedded text. -/
theorem statements_carry_data :
    (∀ events, (upsertEventsSql events).bind (parseInsert insertEventsHead)=
      if events=[] then none
      else some (events.map fun e => (eventArguments e).map Argument.stored)) ∧
    (∀ userId provider nowMs merged,
      (upsertWindowsSql userId provider nowMs merged).bind (parseInsert insertHead)=
        if merged=[] then none
        else some (merged.map fun w =>
          (rowArguments userId provider nowMs w).map Argument.stored)) ∧
    (∀ sinceMs untilMs filter limit, lex .outside (queryEventsSql sinceMs untilMs filter limit)=
      some ((queryEventsFragments sinceMs untilMs filter limit).flatMap Fragment.tokens)) ∧
    (∀ userId provider sinceMs, lex .outside (queryWindowsSql userId provider sinceMs)=
      some ((queryWindowsFragments userId provider sinceMs).flatMap Fragment.tokens)) ∧
    (∀ deviceId, (deleteDeviceEventsSql deviceId).toOption.bind (lex .outside)=
      if deviceId.toList.all isDeviceIdChar then
        some ([Fragment.plain deleteDevice,.quoted deviceId].flatMap Fragment.tokens)
      else none) ∧
    ∀ userId, lex .outside (deleteUserWindowsSql userId)=
      some ([Fragment.plain deleteUser,.quoted userId].flatMap Fragment.tokens) := by
  have hevents : insertEventsHead.head?=some 'I' := head?_joined (head?_joined head?_literal)
  have hwindows : insertHead.head?=some 'I' := head?_joined (head?_joined head?_literal)
  have hfixed := quote_notMem_fixed
  refine ⟨fun events => ?_,fun userId provider nowMs merged => ?_,lex_queryEventsSql,
    lex_queryWindowsSql,fun deviceId => ?_,fun userId =>
      lex_delete (hfixed _ (by simp)) userId⟩
  · rw [upsertEventsSql]
    split_ifs with hnone
    · rfl
    · have hmap : events.map (fun e => formatRow (eventArguments e))=
          (events.map eventArguments).map formatRow := by
        rw [List.map_map]
        rfl
      rw [Option.bind_some,hmap,parseInsert_rows quote_notMem_heads.1 hevents ?_ ?_,
        List.map_map]
      · rfl
      · intro row hrow
        obtain ⟨e,-,rfl⟩ := List.mem_map.mp hrow
        exact List.cons_ne_nil _ _
      · rw [Ne,List.map_eq_nil_iff]
        exact hnone
  · rw [upsertWindowsSql]
    split_ifs with hnone
    · rfl
    · have hmap : merged.map (fun w => formatRow (rowArguments userId provider nowMs w))=
          (merged.map (rowArguments userId provider nowMs)).map formatRow := by
        rw [List.map_map]
        rfl
      rw [Option.bind_some,insertSql,hmap,parseInsert_rows quote_notMem_heads.2.1 hwindows ?_ ?_,
        List.map_map]
      · rfl
      · intro row hrow
        obtain ⟨w,-,rfl⟩ := List.mem_map.mp hrow
        exact List.cons_ne_nil _ _
      · rw [Ne,List.map_eq_nil_iff]
        exact hnone
  · cases hid : deviceId.toList.all isDeviceIdChar with
    | true =>
      have hsql : (deleteDeviceEventsSql deviceId).toOption=
          some (deleteDevice++formatArgument (.text deviceId)) := by
        simp only [deleteDeviceEventsSql,hid,if_true,Except.toOption]
      rw [hsql,Option.bind_some,lex_delete (hfixed _ (by simp)),if_pos rfl]
    | false =>
      have hsql : (deleteDeviceEventsSql deviceId).toOption=none := by
        simp only [deleteDeviceEventsSql,hid,Bool.false_eq_true,if_false,Except.toOption]
      rw [hsql,if_neg Bool.false_ne_true]
      rfl

end TokiSync.ClickHouseStatements
