import TokiSync.DurationText

/-!
# The virtual query parser

A cursor over the query text. Every byte the source looks for is ASCII, and an
ASCII byte of a UTF-8 text is a character of its own, so the cursor here moves
by characters; what is left of the text stands for the position. A refusal
carries the text the caller is shown.
-/

namespace TokiSync.VirtualQueries

open TokiSync.DurationText

/-- A query this backend can execute. -/
structure ParsedQuery where
  /-- The metric is the cost. -/
  isCost : Bool
  /-- The metric is the number of events. -/
  isEvents : Bool
  /-- Only for the raw form: no bucket, group-by, wrapper or range function. -/
  rawEvents : Bool
  /-- Grouping label. -/
  groupBy : String
  /-- Provider matcher. -/
  provider : Option String
  deriving DecidableEq

/-- ASCII whitespace: space, tab, line feed, form feed and carriage return. -/
def isAsciiWhitespace (c : Char) : Bool :=
  c = ' ' || c = '\t' || c = '\n' || c = '\x0c' || c = '\r'

/-- Unicode whitespace. -/
def isWhitespace (c : Char) : Bool :=
  (9≤c.toNat && c.toNat≤13) || c.toNat=32 || c.toNat=0x85 || c.toNat=0xa0 || c.toNat=0x1680 ||
    (0x2000≤c.toNat && c.toNat≤0x200a) || c.toNat=0x2028 || c.toNat=0x2029 ||
    c.toNat=0x202f || c.toNat=0x205f || c.toNat=0x3000

/-- Characters of identifiers. -/
def isIdentChar (c : Char) : Bool :=
  ('a' ≤ c && c ≤ 'z') || ('A' ≤ c && c ≤ 'Z') || isAsciiDigit c || c = '_'

/-- A text without whitespace at its ends. -/
def trim (text : List Char) : List Char :=
  ((text.dropWhile isWhitespace).reverse.dropWhile isWhitespace).reverse

/-- Skip ASCII whitespace. -/
def skipWs (cs : List Char) : List Char := cs.dropWhile isAsciiWhitespace

/-- Consume a character if it is the next one behind whitespace. -/
def eat (b : Char) (cs : List Char) : Bool×List Char :=
  match skipWs cs with
  | c::rest => if c=b then (true,rest) else (false,c::rest)
  | [] => (false,[])

/-- Consume an identifier, if one starts here. -/
def ident (cs : List Char) : Option String×List Char :=
  let name := (skipWs cs).takeWhile isIdentChar
  (if name=[] then none else some (String.ofList name),(skipWs cs).dropWhile isIdentChar)

/-- What is left, for error messages. -/
def tail (cs : List Char) : String :=
  let rest := trim cs
  if 40<rest.length then String.ofList (rest.take 40)++"…" else String.ofList rest

/-- The value of a string literal whose opening quote has been consumed. -/
def quotedValue : List Char → Except String (List Char×List Char)
  | [] => .error "unterminated quoted label value"
  | c::rest =>
    if c = '"' then .ok ([],rest)
    else if c = '\\' then .error "escape sequences in label values are not supported"
    else do
      let (value,left) ← quotedValue rest
      pure (c::value,left)

/-- A string literal. -/
def quoted (cs : List Char) : Except String (String×List Char) :=
  match skipWs cs with
  | '"'::rest => do
    let (value,left) ← quotedValue rest
    pure (String.ofList value,left)
  | rest => .error ("expected a quoted label value, found `"++tail rest++"`")

/-- Items separated by commas, up to a closing character; the last may be
followed by a comma. A round consumes at least one character, so the length of
the text bounds the rounds. -/
def itemsLoop {σ : Type} (close : Char) (item : List Char → σ → Except String (σ×List Char))
    (expected : String) : ℕ → List Char → σ → Except String (σ×List Char)
  | 0,cs,read => .ok (read,cs)
  | rounds+1,cs,read =>
    match eat close cs with
    | (true,rest) => .ok (read,rest)
    | (false,cs) => do
      let (read,left) ← item cs read
      match eat ',' left with
      | (true,rest) => itemsLoop close item expected rounds rest read
      | (false,left) =>
        match eat close left with
        | (true,rest) => .ok (read,rest)
        | (false,left) => .error (expected++", found `"++tail left++"`")

/-- One label of a by-clause. -/
def byLabel (cs : List Char) (labels : List String) : Except String (List String×List Char) :=
  match ident cs with
  | (none,rest) => .error ("expected a label name in `by (...)`, found `"++tail rest++"`")
  | (some label,rest) => pure (labels++[label],rest)

/-- The labels of a by-clause whose opening parenthesis has been consumed. -/
def byLabelsLoop (cs : List Char) : Except String (List String×List Char) :=
  itemsLoop ')' byLabel "expected `,` or `)` in `by (...)`" (cs.length+1) cs []

/-- The labels after a by keyword that has already been consumed. -/
def byLabels (cs : List Char) : Except String (List String×List Char) :=
  match eat '(' cs with
  | (false,_) => .error "`by` must be followed by `(...)`"
  | (true,rest) => do
    let (labels,left) ← byLabelsLoop rest
    if labels=[] then .error "`by ()` needs at least one label" else pure (labels,left)

/-- What the optional aggregation wrapper contributes. -/
structure Wrapper where
  /-- The wrapper is there, with an open parenthesis. -/
  wrapped : Bool
  /-- Labels of its by-clause. -/
  labels : List String

/-- Whether the identifier read is a call, and the labels of a by-clause
between it and its body; the rest of the text starts at the body. -/
def wrapperBody (id : String) (cs : List Char) :
    Except String (Option (List String×List Char)) :=
  let cs := skipWs cs
  if cs.head?=some '(' ∧ id≠"increase" then pure (some ([],cs))
  else
    match ident cs with
    | (some "by",rest) => do
      let (labels,left) ← byLabels rest
      let left := skipWs left
      if left.head?=some '(' then pure (some (labels,left)) else pure none
    | _ => pure none

/-- The optional aggregation wrapper. -/
def aggregation (cs : List Char) : Except String (Wrapper×List Char) :=
  match ident cs with
  | (none,rest) => pure (⟨false,[]⟩,rest)
  | (some id,rest) => do
    match ← wrapperBody id rest with
    | none => pure (⟨false,[]⟩,cs)
    | some (labels,body) =>
      if id≠"sum" then
        .error ("`"++id++
          "(...)` is not supported by the sync backend; the only aggregation it computes is `sum`")
      else
        match eat '(' body with
        | (true,left) => pure (⟨true,labels⟩,left)
        | (false,left) =>
          .error ("`sum` must be followed by a parenthesised expression, found `"++tail left++"`")

/-- The optional range function. -/
def rangeFunction (cs : List Char) : Except String (Bool×List Char) :=
  match ident cs with
  | (none,rest) => pure (false,rest)
  | (some id,rest) =>
    match skipWs rest with
    | '('::left =>
      if id≠"increase" then
        .error ("function `"++id++
          "` is not supported by the sync backend; it only understands `increase`")
      else pure (true,left)
    | _ => pure (false,cs)

/-- What a metric name stands for: the cost, the number of events. -/
def metricOf (metric : String) : Except String (Bool×Bool) :=
  if metric="usage" ∨ metric="toki_tokens_total" then pure (false,false)
  else if metric="cost" then pure (true,false)
  else if metric="events" then pure (false,true)
  else if metric="windows" then
    .error "metric `windows` is only available on the sync backend as the bare query `windows`"
  else if metric="sessions" ∨ metric="projects" then
    .error ("metric `"++metric++
      "` is only available from the local daemon, not the sync backend")
  else
    .error ("unknown metric `"++metric++
      "`; the sync backend understands `usage`, `cost` and `events`")

/-- The metric. -/
def metric (cs : List Char) : Except String ((Bool×Bool)×List Char) :=
  match ident cs with
  | (none,rest) => .error ("expected a metric name, found `"++tail rest++"`")
  | (some name,rest) => do
    let kind ← metricOf name
    pure (kind,rest)

/-- The matcher operator behind a label name. -/
def matcherOp (key : String) (cs : List Char) : Except String (String×List Char) :=
  match skipWs cs with
  | '=' :: '~' :: rest => pure ("=~",rest)
  | '!' :: '~' :: rest => pure ("!~",rest)
  | '!' :: '=' :: rest => pure ("!=",rest)
  | '='::rest => pure ("=",rest)
  | rest => .error ("expected a label matcher after `"++key++"`, found `"++tail rest++"`")

/-- One label matcher, given the provider matched so far. -/
def labelMatcher (cs : List Char) (provider : Option String) :
    Except String (Option String×List Char) :=
  match ident cs with
  | (none,rest) => .error ("expected a label name in `\x7b...\x7d`, found `"++tail rest++"`")
  | (some key,rest) => do
    let (op,rest) ← matcherOp key rest
    if op≠"=" then
      .error ("label matcher `"++op++"` is not supported by the sync backend; only `=` is")
    else do
      let (value,left) ← quoted rest
      if key≠"provider" then
        .error ("filter on `"++key++
          "` is not supported by the sync backend; it can only filter on `provider`")
      else if value="" then .error "`provider` filter must not be empty"
      else if provider≠none ∧ provider≠some value then .error "conflicting `provider` filters"
      else pure (some value,left)

/-- The label matchers behind an opening brace. -/
def labelMatchersLoop (cs : List Char) : Except String (Option String×List Char) :=
  itemsLoop '}' labelMatcher "expected `,` or `\x7d` in `\x7b...\x7d`" (cs.length+1) cs none

/-- The optional label matchers. -/
def labelMatchers (cs : List Char) : Except String (Option String×List Char) :=
  match eat '{' cs with
  | (true,rest) => labelMatchersLoop rest
  | (false,rest) => pure (none,rest)

/-- The optional range selector; only its syntax matters. -/
def rangeSelector (cs : List Char) : Except String (Bool×List Char) :=
  match eat '[' cs with
  | (false,rest) => pure (false,rest)
  | (true,rest) =>
    let raw := String.ofList (trim (rest.takeWhile (· ≠ ']')))
    match eat ']' (rest.dropWhile (· ≠ ']')) with
    | (false,_) => .error "unterminated `[` range selector"
    | (true,left) =>
      match parseDurationSecs raw with
      | .error _ => .error ("invalid range `["++raw++"]`")
      | .ok _ => pure (true,left)

/-- Refuse an offset. -/
def refuseOffset (cs : List Char) : Except String (List Char) :=
  match ident cs with
  | (some "offset",_) => .error "`offset` is not supported by the sync backend"
  | (some _,_) => pure cs
  | (none,rest) => pure rest

/-- Close the open parentheses. -/
def closeParens : ℕ → List Char → Except String (List Char)
  | 0,cs => pure cs
  | n+1,cs =>
    match eat ')' cs with
    | (true,rest) => closeParens n rest
    | (false,rest) => .error ("unbalanced parentheses; expected `)`, found `"++tail rest++"`")

/-- The optional trailing by-clause. -/
def trailingBy (labels : List String) (cs : List Char) : Except String (List String×List Char) :=
  match ident cs with
  | (some "by",rest) =>
    if labels≠[] then .error "duplicate `by (...)` clause" else byLabels rest
  | (some _,_) => pure (labels,cs)
  | (none,rest) => pure (labels,rest)

/-- The single grouping dimension of the labels, given the one selected so far. -/
def selectLabel (all : List String) : List String → Option String → Except String (Option String)
  | [],selected => pure selected
  | label::rest,selected =>
    if label="type" then selectLabel all rest selected
    else if label="model" ∨ label="project" ∨ label="device_id" then
      if selected≠none ∧ selected≠some label then
        .error ("the sync backend can group by only one label, got `"++
          String.intercalate ", " all++"`")
      else selectLabel all rest (some label)
    else
      .error ("group-by label `"++label++
        "` is not supported by the sync backend; use `model`, `project` or `device_id`")

/-- Parse a virtual query, or explain why this backend cannot execute it. -/
def parseTokiVirtualQuery (query : String) : Except String ParsedQuery := do
  let cs := skipWs query.toList
  if cs=[] then .error "the query is empty"
  else do
    let (wrapper,cs) ← aggregation cs
    let (increase,cs) ← rangeFunction cs
    let ((isCost,isEvents),cs) ← metric cs
    let (provider,cs) ← labelMatchers cs
    let (hasBucket,cs) ← rangeSelector cs
    let cs ← refuseOffset cs
    let cs ← closeParens (wrapper.wrapped.toNat+increase.toNat) cs
    let (labels,cs) ← trailingBy wrapper.labels cs
    if skipWs cs≠[] then .error ("unexpected trailing input `"++tail cs++"`")
    else do
      let selected ← selectLabel labels labels none
      pure
        { isCost := isCost
          isEvents := isEvents
          rawEvents := isEvents && !wrapper.wrapped && !increase && !hasBucket && labels=[]
          groupBy := selected.getD "model"
          provider := provider }

example : (parseTokiVirtualQuery "sum by (project) (usage\x7bprovider=\"codex\"\x7d[1d])").toOption=
    some ⟨false,false,false,"project",some "codex"⟩ := by decide +kernel

end TokiSync.VirtualQueries
