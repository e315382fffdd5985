import Mathlib.Data.List.Basic
import TokiSync.DurationText
import TokiSync.WindowStore

/-!
# Window rows on their way through ClickHouse

A batch of windows is written as the VALUES of an INSERT, with every text
escaped for a string literal. It is read back from the lines of a
tab-separated reply, with every text unescaped. What the database does in
between is its documented behaviour: it evaluates the literals, stores the
columns as they are and escapes texts when it writes them. Single quotes are
escaped on the way out and not unescaped, so a batch is read back as it was
written when none of its texts has one.
-/

namespace TokiSync.ClickHouseRows

open MachineWords ByteKeys WireWindows WindowStore DurationText

/-- Replace every occurrence of one character. -/
def replaceChar (c : Char) (other : List Char) (text : List Char) : List Char :=
  text.flatMap fun x => if x = c then other else [x]

/-- Prepare a text for a string literal. -/
def escape (s : String) : List Char :=
  replaceChar '\t' ['\\','t'] <|
    replaceChar '\r' ['\\','r'] <|
      replaceChar '\n' ['\\','n'] <|
        replaceChar '\x00' [] <|
          replaceChar '\x27' ['\\','\x27'] <|
            replaceChar '\\' ['\\','\\'] s.toList

/-- An argument of the formatted VALUES. -/
inductive Argument where
  /-- A text, quoted and escaped. -/
  | text (s : String)
  /-- A number. -/
  | number (n : ℤ)

/-- Decimal digits with a sign where it is needed. -/
def formatNumber (n : ℤ) : List Char :=
  if n<0 then '-'::Nat.toDigits 10 n.natAbs else Nat.toDigits 10 n.natAbs

/-- A formatted argument. -/
def formatArgument : Argument → List Char
  | .text s => ['\x27']++escape s++['\x27']
  | .number n => formatNumber n

/-- Arguments of one row, in the order of the columns, with the write clock. -/
def rowArguments (userId provider : String) (nowMs : UInt64) (w : WireWindow) : List Argument :=
  [.text userId,.text provider,.text w.limitId,.text w.account,.number w.windowKind.toNat,
    .number w.windowEndMs.toInt,.number w.rawResetsAtMs.toInt,.number w.windowMinutes.toNat,
    .number w.peakPctX100.toNat,.number w.lastPctX100.toNat,.number w.observedTsMs.toInt,
    .number w.firstSeenMs.toInt,.number w.finalized.toNat,.number w.maxedOut.toNat,
    .number w.limitReachedKind.toNat,.number w.timeTo100Ms.toInt,.number w.activeMs.toNat,
    .number w.lastSampleGapMs.toInt,.number w.sampledActiveFraction.toNat,
    .number w.nSamples.toNat,.text w.plan,.number nowMs.toNat]

/-- One row of the VALUES. -/
def formatRow (row : List Argument) : List Char :=
  ['(']++[','].intercalate (row.map formatArgument)++[')']

/-- Columns of a window, without the write clock. -/
def windowCols : String :=
  "user_id, provider, limit_id, account, window_kind, window_end_ms, raw_resets_at_ms, "++
  "window_minutes, peak_pct_x100, last_pct_x100, observed_ts_ms, first_seen_ms, finalized, "++
  "maxed_out, limit_reached_kind, time_to_100_ms, active_ms, last_sample_gap_ms, "++
  "sampled_active_fraction, n_samples, plan"

/-- The statement up to its rows. -/
def insertHead : List Char :=
  ("INSERT INTO toki_windows ("++windowCols++", updated_at) VALUES ").toList

/-- The statement of `upsert_windows` for the merged rows. -/
def insertSql (userId provider : String) (nowMs : UInt64) (merged : List WireWindow) : List Char :=
  insertHead++[','].intercalate
    (merged.map fun w => formatRow (rowArguments userId provider nowMs w))

/-- A stored value. -/
inductive Value where
  /-- A string column. -/
  | text (s : List Char)
  /-- An integer column. -/
  | number (n : ℤ)

/-- Character that an escape in a string literal stands for. Bytes written in
hexadecimal are left out. -/
def literalEscape (c : Char) : Option Char :=
  if c = 'b' then some '\x08'
  else if c = 'f' then some '\x0c'
  else if c = 'r' then some '\r'
  else if c = 'n' then some '\n'
  else if c = 't' then some '\t'
  else if c = '0' then some '\x00'
  else if c = 'a' then some '\x07'
  else if c = 'v' then some '\x0b'
  else if c = 'x' then none
  else some c

/-- Evaluate a string literal behind its opening quote: the text and what
follows the closing quote. -/
def readLiteral : List Char → Option (List Char×List Char)
  | [] => none
  | '\\'::c::rest => do
    let value ← literalEscape c
    let (text,left) ← readLiteral rest
    some (value::text,left)
  | '\x27':: '\x27'::rest => do
    let (text,left) ← readLiteral rest
    some ('\x27'::text,left)
  | '\x27'::rest => some ([],rest)
  | c::rest => do
    let (text,left) ← readLiteral rest
    some (c::text,left)

/-- Whether a character can stand in an integer. -/
def isNumberChar (c : Char) : Bool := c = '-' || isAsciiDigit c

/-- Value of an integer literal. -/
def numberValue : List Char → Option ℤ
  | '-'::digits => (parseDigits digits).map fun value => -Int.ofNat value
  | digits => (parseDigits digits).map Int.ofNat

/-- Evaluate an integer: its value and what follows. -/
def readNumber (text : List Char) : Option (ℤ×List Char) :=
  (numberValue (text.takeWhile isNumberChar)).map fun n => (n,text.dropWhile isNumberChar)

/-- Whether a column of the table is a string, in the order of the columns. -/
def columnIsText : List Bool :=
  [true,true,true,true]++List.replicate 16 false++[true,false]

/-- Evaluate one value of a row. -/
def readValue (isText : Bool) (text : List Char) : Option (Value×List Char) :=
  if isText then
    match text with
    | '\x27'::rest => (readLiteral rest).map fun read => (.text read.1,read.2)
    | _ => none
  else
    (readNumber text).map fun read => (.number read.1,read.2)

/-- Evaluate the values of a row, with commas between them, up to the closing
parenthesis. -/
def readValues : List Bool → List Char → Option (List Value×List Char)
  | [], _ => none
  | [isText], text => do
    let (value,left) ← readValue isText text
    match left with
    | ')'::left => some ([value],left)
    | _ => none
  | isText::others, text => do
    let (value,left) ← readValue isText text
    match left with
    | ','::left => do
      let (values,left) ← readValues others left
      some (value::values,left)
    | _ => none

/-- Evaluate rows with commas between them; the fuel bounds their number. -/
def readRows : ℕ → List Char → Option (List (List Value))
  | 0, _ => none
  | fuel+1, text =>
    match text with
    | '('::text => do
      let (row,left) ← readValues columnIsText text
      match left with
      | [] => some [row]
      | ','::left => do
        let rows ← readRows fuel left
        some (row::rows)
      | _ => none
    | _ => none

/-- Rows that an INSERT stores. -/
def executeInsert (sql : List Char) : Option (List (List Value)) :=
  if insertHead.isPrefixOf sql then
    readRows sql.length (sql.drop insertHead.length)
  else
    none

/-- The columns selected, which are all but the write clock. -/
def selectCols (row : List Value) : List Value := row.take 21

/-- A character of a text in a tab-separated reply. -/
def tsvEscape (c : Char) : List Char :=
  if c = '\x08' then ['\\','b']
  else if c = '\x0c' then ['\\','f']
  else if c = '\n' then ['\\','n']
  else if c = '\r' then ['\\','r']
  else if c = '\t' then ['\\','t']
  else if c = '\x00' then ['\\','0']
  else if c = '\x27' then ['\\','\x27']
  else if c = '\\' then ['\\','\\']
  else [c]

/-- A value in a tab-separated reply. -/
def tsvField : Value → List Char
  | .text s => s.flatMap tsvEscape
  | .number n => formatNumber n

/-- A tab-separated reply. -/
def tsvBody (rows : List (List Value)) : List Char :=
  rows.flatMap fun row => ['\t'].intercalate (row.map tsvField)++['\n']

/-- A line without the carriage return before its end. -/
def stripReturn (line : List Char) : List Char :=
  if line.getLast?=some '\r' then line.dropLast else line

/-- Lines of a text. What follows the last line end is a line unless it is
empty. -/
def lines (text : List Char) : List (List Char) :=
  let pieces := text.splitOn '\n'
  let last := pieces.getLastD []
  pieces.dropLast.map stripReturn++(if last=[] then [] else [last])

/-- The loop of `tsv_unescape`. -/
def unescapeLoop : List Char → List Char
  | [] => []
  | ['\\'] => ['\\']
  | '\\'::c::rest =>
    if c = 't' then '\t'::unescapeLoop rest
    else if c = 'n' then '\n'::unescapeLoop rest
    else if c = 'r' then '\r'::unescapeLoop rest
    else if c = '\\' then '\\'::unescapeLoop rest
    else '\\'::c::unescapeLoop rest
  | c::rest => c::unescapeLoop rest

/-- Reverse the escapes of a tab-separated reply. -/
def tsvUnescape (text : List Char) : String :=
  String.ofList (if '\\'∈text then unescapeLoop text else text)

/-- Parse an unsigned integer below a bound: an optional plus and digits. -/
def parseUnsigned (bound : ℕ) (text : List Char) : Option ℕ := do
  let digits := match text with
    | '+'::digits => digits
    | _ => text
  let value ← parseDigits digits
  if value<bound then some value else none

/-- Window and provider of a line's columns. -/
def windowFromRow (cols : List (List Char)) : Option (String×WireWindow) :=
  let col := fun i => cols.getD i []
  if cols.length<21 then none
  else do
    let windowKind ← parseUnsigned UInt8.size (col 4)
    let windowEndMs ← parseI64 (col 5)
    let rawResetsAtMs ← parseI64 (col 6)
    let windowMinutes ← parseUnsigned UInt32.size (col 7)
    let peakPctX100 ← parseUnsigned UInt16.size (col 8)
    let lastPctX100 ← parseUnsigned UInt16.size (col 9)
    let observedTsMs ← parseI64 (col 10)
    let firstSeenMs ← parseI64 (col 11)
    let limitReachedKind ← parseUnsigned UInt8.size (col 14)
    let timeTo100Ms ← parseI64 (col 15)
    let activeMs ← parseUnsigned UInt64.size (col 16)
    let lastSampleGapMs ← parseI64 (col 17)
    let sampledActiveFraction ← parseUnsigned UInt16.size (col 18)
    let nSamples ← parseUnsigned UInt32.size (col 19)
    some (tsvUnescape (col 1),{
      windowKind := UInt8.ofNat windowKind
      limitId := tsvUnescape (col 2)
      account := tsvUnescape (col 3)
      windowEndMs := Int64.ofInt windowEndMs
      rawResetsAtMs := Int64.ofInt rawResetsAtMs
      windowMinutes := UInt32.ofNat windowMinutes
      peakPctX100 := UInt16.ofNat peakPctX100
      lastPctX100 := UInt16.ofNat lastPctX100
      observedTsMs := Int64.ofInt observedTsMs
      firstSeenMs := Int64.ofInt firstSeenMs
      finalized := col 12=['1']
      maxedOut := col 13=['1']
      limitReachedKind := UInt8.ofNat limitReachedKind
      timeTo100Ms := Int64.ofInt timeTo100Ms
      activeMs := UInt64.ofNat activeMs
      lastSampleGapMs := Int64.ofInt lastSampleGapMs
      sampledActiveFraction := UInt16.ofNat sampledActiveFraction
      nSamples := UInt32.ofNat nSamples
      plan := tsvUnescape (col 20) })

/-- Windows of a reply; lines that do not parse are skipped. -/
def readBody (body : List Char) : List (String×WireWindow) :=
  (lines body).filterMap fun line => windowFromRow (line.splitOn '\t')

/-- What is read back after the merged rows are written. -/
def readBack (userId provider : String) (nowMs : UInt64) (merged : List WireWindow) :
    Option (List (String×WireWindow)) :=
  (executeInsert (insertSql userId provider nowMs merged)).map fun rows =>
    readBody (tsvBody (rows.map selectCols))

end TokiSync.ClickHouseRows
