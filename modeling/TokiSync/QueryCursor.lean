import TokiSync.Utf8Slices
import TokiSync.VirtualQueries

/-!
# The cursor of the virtual query parser

The parser reads the bytes of a query. Names, quoted values, ranges and the
excerpts in its messages are slices of the text between byte positions, and
such a slice panics inside of a character. A run here says so, and also when a
position passes the end of the text or a loop does not end.
-/

namespace TokiSync.QueryCursor

open ByteKeys Utf8Slices DurationText
open VirtualQueries (ParsedQuery Wrapper trim metricOf selectLabel)

/-- Why a run gives no query. -/
inductive Stop where
  /-- The query is refused with a reason for the caller. -/
  | refused (reason : String)
  /-- A slice was taken that does not exist. -/
  | panicked
  /-- The position passed the end of the text. -/
  | overran
  /-- A loop was still running when its rounds were over. -/
  | diverged

/-- A refusal by a part of the parser that reads no text. -/
def reasonOf {α : Type} : Except String α → Except Stop α
  | .ok value => .ok value
  | .error reason => .error (.refused reason)

/-- ASCII whitespace among bytes. -/
def isAsciiWhitespace (b : UInt8) : Bool :=
  b = ' '.toUInt8 || b = '\t'.toUInt8 || b = '\n'.toUInt8 || b = '\x0c'.toUInt8 || b = '\r'.toUInt8

/-- Bytes of identifiers. -/
def isIdentByte (b : UInt8) : Bool :=
  ('a'.toUInt8≤b && b ≤ 'z'.toUInt8) || ('A'.toUInt8≤b && b ≤ 'Z'.toUInt8) ||
    ('0'.toUInt8≤b && b ≤ '9'.toUInt8) || b = '_'.toUInt8

/-- Bytes a string literal is made of. -/
def isValueByte (b : UInt8) : Bool := b ≠ '"'.toUInt8 && b ≠ '\\'.toUInt8

/-- Byte position of a character of a text. -/
def charIndex : ℕ → List Char → Option ℕ
  | _,[] => none
  | 0,_::_ => some 0
  | n+1,c::cs => (charIndex n cs).map (c.utf8Size+·)

section

variable (src : String)

/-- The byte at a position. -/
def peek (pos : ℕ) : Option UInt8 := (utf8 src)[pos]?

/-- Set the position. -/
def moveTo (pos : ℕ) : Except Stop ℕ :=
  if pos≤(utf8 src).length then .ok pos else .error .overran

/-- A slice of the text. -/
def cut (start stop : ℕ) : Except Stop String :=
  match slice src start stop with
  | some text => .ok text
  | none => .error .panicked

/-- Move on while the next byte passes a test. -/
def scan (test : UInt8 → Bool) (pos : ℕ) : Except Stop ℕ :=
  moveTo src (advanceWhile (utf8 src) test pos)

/-- Skip ASCII whitespace. -/
def skipWs (pos : ℕ) : Except Stop ℕ := scan src isAsciiWhitespace pos

/-- Consume a byte if it is the next one behind whitespace. -/
def eat (b : UInt8) (pos : ℕ) : Except Stop (Bool×ℕ) := do
  let pos ← skipWs src pos
  if peek src pos=some b then do
    let pos ← moveTo src (pos+1)
    pure (true,pos)
  else pure (false,pos)

/-- Consume an identifier, if one starts here. -/
def ident (pos : ℕ) : Except Stop (Option String×ℕ) := do
  let start ← skipWs src pos
  let pos ← scan src isIdentByte start
  if start<pos then do
    let name ← cut src start pos
    pure (some name,pos)
  else pure (none,pos)

/-- Whether only whitespace is left. -/
def atEnd (pos : ℕ) : Except Stop (Bool×ℕ) := do
  let pos ← skipWs src pos
  pure ((utf8 src).length≤pos,pos)

/-- At most forty characters of a text. -/
def excerpt (rest : String) : Except Stop String :=
  let stop := (charIndex 40 rest.toList).getD (utf8 rest).length
  if stop<(utf8 rest).length then do
    let front ← cut rest 0 stop
    pure (front++"…")
  else pure rest

/-- What is left, for error messages. -/
def tail (pos : ℕ) : Except Stop String := do
  let left ← cut src pos (utf8 src).length
  excerpt (String.ofList (trim left.toList))

/-- Refuse the query and quote what is left. -/
def refuseAt {α : Type} (reason : String) (pos : ℕ) : Except Stop α := do
  let rest ← tail src pos
  .error (.refused (reason++rest++"`"))

/-- The value of a string literal whose opening quote has been consumed. The
loop of the source goes over every byte but a quote and a backslash. -/
def quotedValue (start : ℕ) : Except Stop (String×ℕ) := do
  let pos ← scan src isValueByte start
  match peek src pos with
  | none => .error (.refused "unterminated quoted label value")
  | some b =>
    if b = '"'.toUInt8 then do
      let value ← cut src start pos
      let pos ← moveTo src (pos+1)
      pure (value,pos)
    else .error (.refused "escape sequences in label values are not supported")

/-- A string literal. -/
def quoted (pos : ℕ) : Except Stop (String×ℕ) := do
  let pos ← skipWs src pos
  if peek src pos=some '"'.toUInt8 then do
    let pos ← moveTo src (pos+1)
    quotedValue src pos
  else refuseAt src "expected a quoted label value, found `" pos

/-- Items separated by commas, up to a closing byte; the last may be followed
by a comma. -/
def itemsLoop {σ : Type} (close : UInt8) (item : ℕ → σ → Except Stop (σ×ℕ)) (expected : String) :
    ℕ → ℕ → σ → Except Stop (σ×ℕ)
  | 0,_,_ => .error .diverged
  | rounds+1,pos,read => do
    let (closed,pos) ← eat src close pos
    if closed then pure (read,pos)
    else do
      let (read,pos) ← item pos read
      let (comma,pos) ← eat src ','.toUInt8 pos
      if comma then itemsLoop close item expected rounds pos read
      else do
        let (closed,pos) ← eat src close pos
        if closed then pure (read,pos) else refuseAt src (expected++", found `") pos

/-- One label of a by-clause. -/
def byLabel (pos : ℕ) (labels : List String) : Except Stop (List String×ℕ) := do
  let (label,pos) ← ident src pos
  match label with
  | none => refuseAt src "expected a label name in `by (...)`, found `" pos
  | some label => pure (labels++[label],pos)

/-- The matcher operator that two bytes write. -/
def matcherOf (first second : Option UInt8) : Option String :=
  if first=some '='.toUInt8 ∧ second=some '~'.toUInt8 then some "=~"
  else if first=some '!'.toUInt8 ∧ second=some '~'.toUInt8 then some "!~"
  else if first=some '!'.toUInt8 ∧ second=some '='.toUInt8 then some "!="
  else if first=some '='.toUInt8 then some "="
  else none

/-- The matcher operator behind a label name. -/
def matcherOp (key : String) (pos : ℕ) : Except Stop (String×ℕ) := do
  let pos ← skipWs src pos
  match matcherOf (peek src pos) (utf8 src)[pos+1]? with
  | none => refuseAt src ("expected a label matcher after `"++key++"`, found `") pos
  | some op => do
    let pos ← moveTo src (pos+(utf8 op).length)
    pure (op,pos)

/-- One label matcher, given the provider matched so far. -/
def labelMatcher (pos : ℕ) (provider : Option String) : Except Stop (Option String×ℕ) := do
  let (key,pos) ← ident src pos
  match key with
  | none => refuseAt src "expected a label name in `\x7b...\x7d`, found `" pos
  | some key => do
    let (op,pos) ← matcherOp src key pos
    if op≠"=" then
      .error (.refused
        ("label matcher `"++op++"` is not supported by the sync backend; only `=` is"))
    else do
      let (value,pos) ← quoted src pos
      if key≠"provider" then
        .error (.refused ("filter on `"++key++
          "` is not supported by the sync backend; it can only filter on `provider`"))
      else if value="" then .error (.refused "`provider` filter must not be empty")
      else if provider≠none ∧ provider≠some value then
        .error (.refused "conflicting `provider` filters")
      else pure (some value,pos)

/-- The optional range function. -/
def rangeFunction (mark : ℕ) : Except Stop (Bool×ℕ) := do
  let (id,pos) ← ident src mark
  match id with
  | none => pure (false,pos)
  | some id => do
    let pos ← skipWs src pos
    if peek src pos=some '('.toUInt8 then
      if id≠"increase" then
        .error (.refused ("function `"++id++
          "` is not supported by the sync backend; it only understands `increase`"))
      else do
        let pos ← moveTo src (pos+1)
        pure (true,pos)
    else do
      let pos ← moveTo src mark
      pure (false,pos)

/-- The metric. -/
def metric (pos : ℕ) : Except Stop ((Bool×Bool)×ℕ) := do
  let (name,pos) ← ident src pos
  match name with
  | none => refuseAt src "expected a metric name, found `" pos
  | some name => do
    let kind ← reasonOf (metricOf name)
    pure (kind,pos)

/-- The optional range selector; only its syntax matters. -/
def rangeSelector (pos : ℕ) : Except Stop (Bool×ℕ) := do
  let (opened,start) ← eat src '['.toUInt8 pos
  if opened then do
    let pos ← scan src (fun b => b ≠ ']'.toUInt8) start
    let left ← cut src start pos
    let raw := String.ofList (trim left.toList)
    let (closed,pos) ← eat src ']'.toUInt8 pos
    if closed then
      match parseDurationSecs raw with
      | .error _ => .error (.refused ("invalid range `["++raw++"]`"))
      | .ok _ => pure (true,pos)
    else .error (.refused "unterminated `[` range selector")
  else pure (false,start)

/-- Refuse an offset. -/
def refuseOffset (mark : ℕ) : Except Stop ℕ := do
  let (id,pos) ← ident src mark
  match id with
  | none => pure pos
  | some id =>
    if id="offset" then .error (.refused "`offset` is not supported by the sync backend")
    else moveTo src mark

/-- Close the open parentheses. -/
def closeParens : ℕ → ℕ → Except Stop ℕ
  | 0,pos => pure pos
  | n+1,pos => do
    let (closed,pos) ← eat src ')'.toUInt8 pos
    if closed then closeParens n pos
    else refuseAt src "unbalanced parentheses; expected `)`, found `" pos

variable (rounds : ℕ)

/-- The labels after a by keyword that has already been consumed. -/
def byLabels (pos : ℕ) : Except Stop (List String×ℕ) := do
  let (opened,pos) ← eat src '('.toUInt8 pos
  if opened then do
    let (labels,pos) ←
      itemsLoop src ')'.toUInt8 (byLabel src) "expected `,` or `)` in `by (...)`" rounds pos []
    if labels=[] then .error (.refused "`by ()` needs at least one label")
    else pure (labels,pos)
  else .error (.refused "`by` must be followed by `(...)`")

/-- Whether the identifier read is a call, and the labels of a by-clause
between it and its body with the position of the body. -/
def wrapperBody (id : String) (pos : ℕ) : Except Stop (Option (List String×ℕ)) := do
  let byMark ← skipWs src pos
  if peek src byMark=some '('.toUInt8 ∧ id≠"increase" then pure (some ([],byMark))
  else do
    let (word,pos) ← ident src byMark
    if word=some "by" then do
      let (labels,pos) ← byLabels src rounds pos
      let pos ← skipWs src pos
      if peek src pos=some '('.toUInt8 then pure (some (labels,pos))
      else do
        let _ ← moveTo src byMark
        pure none
    else do
      let _ ← moveTo src byMark
      pure none

/-- The optional aggregation wrapper. -/
def aggregation (mark : ℕ) : Except Stop (Wrapper×ℕ) := do
  let (id,pos) ← ident src mark
  match id with
  | none => pure (⟨false,[]⟩,pos)
  | some id => do
    match ← wrapperBody src rounds id pos with
    | none => do
      let pos ← moveTo src mark
      pure (⟨false,[]⟩,pos)
    | some (labels,pos) =>
      if id≠"sum" then
        .error (.refused ("`"++id++
          "(...)` is not supported by the sync backend; the only aggregation it computes is `sum`"))
      else do
        let (opened,pos) ← eat src '('.toUInt8 pos
        if opened then pure (⟨true,labels⟩,pos)
        else refuseAt src "`sum` must be followed by a parenthesised expression, found `" pos

/-- The optional label matchers. -/
def labelMatchers (pos : ℕ) : Except Stop (Option String×ℕ) := do
  let (opened,pos) ← eat src '{'.toUInt8 pos
  if opened then
    itemsLoop src '}'.toUInt8 (labelMatcher src) "expected `,` or `\x7d` in `\x7b...\x7d`" rounds
      pos none
  else pure (none,pos)

/-- The optional trailing by-clause. -/
def trailingBy (labels : List String) (mark : ℕ) : Except Stop (List String×ℕ) := do
  let (id,pos) ← ident src mark
  match id with
  | none => pure (labels,pos)
  | some id =>
    if id="by" then
      if labels≠[] then .error (.refused "duplicate `by (...)` clause")
      else byLabels src rounds pos
    else do
      let pos ← moveTo src mark
      pure (labels,pos)

/-- Parse a virtual query, or explain why this backend cannot execute it. -/
def parseTokiVirtualQuery : Except Stop ParsedQuery := do
  let (ended,pos) ← atEnd src 0
  if ended then .error (.refused "the query is empty")
  else do
    let (wrapper,pos) ← aggregation src rounds pos
    let (increase,pos) ← rangeFunction src pos
    let ((isCost,isEvents),pos) ← metric src pos
    let (provider,pos) ← labelMatchers src rounds pos
    let (hasBucket,pos) ← rangeSelector src pos
    let pos ← refuseOffset src pos
    let pos ← closeParens src (wrapper.wrapped.toNat+increase.toNat) pos
    let (labels,pos) ← trailingBy src rounds wrapper.labels pos
    let (ended,pos) ← atEnd src pos
    if ended then do
      let selected ← reasonOf (selectLabel labels labels none)
      pure
        { isCost := isCost
          isEvents := isEvents
          rawEvents := isEvents && !wrapper.wrapped && !increase && !hasBucket && labels=[]
          groupBy := selected.getD "model"
          provider := provider }
    else refuseAt src "unexpected trailing input `" pos

end

end TokiSync.QueryCursor
