import TokiSync.UsageAggregation
import TokiSync.VirtualQueries

/-!
# The query endpoint

What the endpoint does with parsed bounds, once the bare windows query has
been answered by its own branch: it checks the range, refuses a query it
cannot execute, checks the step, reads at most a ceiling of stored events and
aggregates them. A request without a step takes its range length as the step.
-/

namespace TokiSync.TokiQuery

open TokiSync.AdminAccounts (AppError)
open TokiSync.DurationText TokiSync.VirtualQueries TokiSync.CalendarBuckets
open TokiSync.ServerEvents TokiSync.UsageAggregation

/-- Most buckets of a range query. -/
def maxBuckets : ℤ := 2000

/-- Most events one request may read. -/
def maxQueryEvents : ℕ := 200000

/-- Length of a range in whole seconds, at least one. -/
def rangeSecs (rangeMs : ℤ) : ℤ := max (rangeMs.tdiv 1000) 1

/-- Smallest step a range may be cut by. -/
def minStep (rangeMs : ℤ) : ℤ := (rangeSecs rangeMs+maxBuckets-1).tdiv maxBuckets

/-- Check the step of a range query. -/
def checkStep (rangeMs stepSecs : ℤ) : Except AppError Unit :=
  if stepSecs < minStep rangeMs then
    .error (badRequest ("step "++toString stepSecs++"s too small for range "++
      toString (rangeSecs rangeMs)++"s (would produce "++
      toString ((rangeSecs rangeMs).tdiv stepSecs)++" buckets, max "++toString maxBuckets++
      "). minimum step: "++toString (minStep rangeMs)++"s"))
  else if stepSecs>rangeSecs rangeMs then
    .error (badRequest ("step "++toString stepSecs++"s exceeds range "++
      toString (rangeSecs rangeMs)++"s"))
  else .ok ()

/-- Turn a refusal reason into the answer the caller sees. -/
def unsupportedQueryError (reason : String) : AppError :=
  badRequest ("unsupported query: "++reason)

/-- A request, its bounds parsed. -/
structure TokiQueryParams where
  /-- Query text. -/
  query : String
  /-- First millisecond of the range. -/
  startMs : ℤ
  /-- First millisecond behind the range. -/
  endMs : ℤ
  /-- Bucket width of a range query. -/
  step : Option String
  /-- Time zone. -/
  tz : Option Tz
  /-- Week start. -/
  startOfWeek : Option Weekday
  /-- Costs are left out. -/
  noCost : Bool

variable {F : Type} [Zero F] [Add F] [Mul F] [NatCast F]

/-- Length of the range of a request. -/
def rangeMs (params : TokiQueryParams) : Except AppError ℤ :=
  if params.startMs>params.endMs then
    .error (badRequest "start time must not be after end time")
  else
    match toI64 (params.endMs-params.startMs) with
    | some range => .ok range
    | none => .error (badRequest "query time range is out of range")

/-- Parse the query, or refuse it. -/
def parseQuery (query : String) : Except AppError ParsedQuery :=
  match parseTokiVirtualQuery query with
  | .ok parsed => .ok parsed
  | .error reason => .error (unsupportedQueryError reason)

/-- Step of a request: as given and checked, or the length of its range. -/
def effectiveStep (params : TokiQueryParams) (range : ℤ) : Except AppError ℤ :=
  match params.step with
  | some text => do
    let stepSecs ← parseDurationSecs text
    checkStep range stepSecs
    pure stepSecs
  | none => pure (rangeSecs range)

/-- What the aggregator is asked for. -/
def aggregateQuery (params : TokiQueryParams) (pricing : PricingTable F) (parsed : ParsedQuery)
    (stepSecs : ℤ) : AggregateQuery F where
  stepSecs := stepSecs
  sinceMs := params.startMs
  untilMs := params.endMs
  isEvents := parsed.isEvents
  groupBy := parsed.groupBy
  providerFilter := parsed.provider
  pricing := pricing
  tz := params.tz
  startOfWeek := params.startOfWeek
  includeCost := !params.noCost

/-- The events a request reads: the store is asked for one past the ceiling. -/
def readEvents (stored : List ServerEvent) : List ServerEvent :=
  (stored.take (maxQueryEvents+1)).take maxQueryEvents

/-- Answer a request from the stored events of its range and scope; nothing
when the query is a raw listing, which is rendered without aggregation. -/
def tokiQuery (printLocal : ℤ → String) (pricing : PricingTable F) (params : TokiQueryParams)
    (stored : List ServerEvent) : Except AppError (Option (AggregateResponse F)) := do
  let range ← rangeMs params
  let parsed ← parseQuery params.query
  let stepSecs ← effectiveStep params range
  if parsed.rawEvents && params.step.isNone then pure none
  else
    pure (some ((aggregateQuery params pricing parsed stepSecs).aggregateEvents printLocal
      (readEvents stored)))

/-- A request reads the first events up to the ceiling. -/
theorem readEvents_eq_take (stored : List ServerEvent) :
    readEvents stored=stored.take maxQueryEvents := by
  unfold readEvents
  rw [List.take_take,Nat.min_eq_left (Nat.le_succ _)]

/-- The step of an accepted request is positive. -/
theorem effectiveStep_pos {params : TokiQueryParams} {range stepSecs : ℤ}
    (h : effectiveStep params range=.ok stepSecs) : 0< stepSecs := by
  unfold effectiveStep at h
  cases hstep : params.step with
  | none =>
    rw [hstep] at h
    have heq : rangeSecs range=stepSecs := by injection h
    have hone : 1≤rangeSecs range := le_max_right _ _
    omega
  | some text =>
    rw [hstep] at h
    cases hparse : parseDurationSecs text with
    | error reason =>
      simp only [hparse,bind,Except.bind] at h
      cases h
    | ok n =>
      cases hcheck : checkStep range n with
      | error reason =>
        simp only [hparse,bind,Except.bind,hcheck] at h
        cases h
      | ok _ =>
        simp only [hparse,bind,Except.bind,hcheck] at h
        have heq : n=stepSecs := by injection h
        rw [← heq]
        exact parseDurationSecs_pos hparse

end TokiSync.TokiQuery
