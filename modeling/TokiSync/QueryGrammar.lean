import TokiSync.QueryTokens

/-!
# The accepted query language

The grammar of the source as derivation trees with the tokens they derive. A
list in braces or in a by-clause may end with a comma behind its last item. A
tree is admissible when its filters agree, its bucket is a duration, it has at
most one by-clause and groups by at most one label besides the type; its
meaning is what the backend is asked for.
-/

namespace TokiSync.QueryGrammar

open TokiSync.DurationText TokiSync.VirtualQueries TokiSync.QueryTokens

/-- Metrics. -/
inductive Metric where
  | usage | tokiTokensTotal | cost | events
  deriving DecidableEq

/-- Name of a metric. -/
def Metric.name : Metric → String
  | .usage => "usage"
  | .tokiTokensTotal => "toki_tokens_total"
  | .cost => "cost"
  | .events => "events"

/-- Labels of by-clauses. -/
inductive Label where
  | model | project | deviceId | type
  deriving DecidableEq

/-- Name of a label. -/
def Label.name : Label → String
  | .model => "model"
  | .project => "project"
  | .deviceId => "device_id"
  | .type => "type"

/-- Items separated by commas, with one more behind the last when asked for. -/
def separated (trailing : Bool) : List (List Token) → List Token
  | [] => []
  | [item] => item++if trailing then [.punct ','] else []
  | item::second::rest => item++.punct ',' :: separated trailing (second::rest)

/-- A by-clause; it has at least one label. -/
structure ByClause where
  /-- The labels. -/
  labels : List Label
  /-- There is a label. -/
  nonempty : labels≠[]
  /-- A comma stands behind the last label. -/
  trailing : Bool

/-- Tokens behind the keyword of a by-clause with the given label names. -/
def labelTokens (names : List String) (trailing : Bool) : List Token :=
  .punct '(' :: (separated trailing (names.map fun name => [.ident name])++[.punct ')'])

/-- Tokens of a by-clause. -/
def ByClause.tokens (clause : ByClause) : List Token :=
  .ident "by" :: labelTokens (clause.labels.map Label.name) clause.trailing

/-- Tokens of an optional by-clause. -/
def clauseTokens : Option ByClause → List Token
  | some clause => clause.tokens
  | none => []

/-- Provider filters in braces. -/
structure Filters where
  /-- The values. -/
  values : List String
  /-- A comma stands behind the last filter. -/
  trailing : Bool

/-- Tokens of a filter. -/
def filterTokens (value : String) : List Token :=
  [.ident "provider",.punct '=',.quoted value]

/-- Tokens of provider filters. -/
def Filters.tokens (filters : Filters) : List Token :=
  .punct '{' :: (separated filters.trailing (filters.values.map filterTokens)++[.punct '}'])

/-- A selector: a metric with optional filters and an optional bucket. -/
structure Selector where
  /-- The metric. -/
  metric : Metric
  /-- The filters. -/
  filters : Option Filters
  /-- The bucket text. -/
  bucket : Option String

/-- Tokens of optional filters. -/
def filtersTokens : Option Filters → List Token
  | some filters => filters.tokens
  | none => []

/-- Tokens of an optional bucket. -/
def bucketTokens : Option String → List Token
  | some text => [.range text]
  | none => []

/-- Tokens of a selector. -/
def Selector.tokens (selector : Selector) : List Token :=
  .ident selector.metric.name :: (filtersTokens selector.filters++bucketTokens selector.bucket)

/-- A selector, alone or inside the range function. -/
structure Inner where
  /-- The range function is applied. -/
  increase : Bool
  /-- The selector. -/
  selector : Selector

/-- Tokens of an inner expression. -/
def Inner.tokens (inner : Inner) : List Token :=
  if inner.increase then
    .ident "increase" :: .punct '(' :: (inner.selector.tokens++[.punct ')'])
  else inner.selector.tokens

/-- A query: an inner expression, summed or not, with its by-clauses. -/
inductive QueryTree where
  | sum (front : Option ByClause) (inner : Inner) (back : Option ByClause)
  | bare (inner : Inner) (back : Option ByClause)

namespace QueryTree

/-- Tokens of a query. -/
def tokens : QueryTree → List Token
  | .sum front inner back =>
    .ident "sum" :: (clauseTokens front++.punct '(' :: (inner.tokens++.punct ')' ::
      clauseTokens back))
  | .bare inner back => inner.tokens++clauseTokens back

/-- The inner expression. -/
def inner : QueryTree → Inner
  | .sum _ inner _ => inner
  | .bare inner _ => inner

/-- Whether the inner expression is summed. -/
def summed : QueryTree → Bool
  | .sum _ _ _ => true
  | .bare _ _ => false

/-- The by-clause between the aggregation and its body. -/
def front : QueryTree → Option ByClause
  | .sum front _ _ => front
  | .bare _ _ => none

/-- The by-clause at the end. -/
def back : QueryTree → Option ByClause
  | .sum _ _ back => back
  | .bare _ back => back

/-- Labels of an optional by-clause. -/
def clauseLabels : Option ByClause → List Label
  | some clause => clause.labels
  | none => []

/-- The labels of a query. -/
def labels (tree : QueryTree) : List Label := clauseLabels tree.front++clauseLabels tree.back

/-- What a query has to satisfy besides its form. -/
structure Admissible (tree : QueryTree) : Prop where
  /-- Filters name a provider. -/
  named : ∀ filters, tree.inner.selector.filters=some filters → ∀ value∈filters.values, value≠""
  /-- All filters name the same provider. -/
  agree : ∀ filters, tree.inner.selector.filters=some filters →
    ∀ value∈filters.values, ∀ other∈filters.values, value=other
  /-- The bucket is a duration. -/
  duration : ∀ text, tree.inner.selector.bucket=some text →
    ∃ n, parseDurationSecs (String.ofList (trim text.toList))=.ok n
  /-- There is at most one by-clause. -/
  single : tree.front=none ∨ tree.back=none
  /-- At most one label besides the type occurs. -/
  grouped : ∀ label∈tree.labels, ∀ other∈tree.labels, label≠.type → other≠.type → label=other

/-- What the backend is asked for. -/
def meaning (tree : QueryTree) : ParsedQuery where
  isCost := tree.inner.selector.metric=.cost
  isEvents := tree.inner.selector.metric=.events
  rawEvents := tree.inner.selector.metric=.events && !tree.summed && !tree.inner.increase &&
    tree.inner.selector.bucket.isNone && tree.front.isNone && tree.back.isNone
  groupBy := ((tree.labels.find? (·≠.type)).map Label.name).getD "model"
  provider := tree.inner.selector.filters.bind fun filters => filters.values.head?

end QueryTree

end TokiSync.QueryGrammar
