import TokiSync.CappedTallies
import TokiSync.CalendarBuckets
import TokiSync.ServerEvents
import Mathlib.Data.Prod.Lex
import Mathlib.Data.String.Basic

/-!
# Aggregation of stored events into the usage response

Events of a half-open range are counted into slots by bucket start, provider
and group key, at most fifty thousand slots at a time. The slots are then
rendered per provider and period, where the period text joins the bucket's
local time and the group key. Amounts of money are of any type with the
operations the price formula uses.
-/

namespace TokiSync.UsageAggregation

open TokiSync.OrderedEntries TokiSync.CappedTallies TokiSync.CalendarBuckets TokiSync.ServerEvents

/-- Addition that stops at the largest word. -/
def saturatingAdd (a b : UInt64) : UInt64 := UInt64.ofNat (min (a.toNat+b.toNat) (2^64-1))

/-- Subtraction that stops at zero. -/
def saturatingSub (a b : UInt64) : UInt64 := if a≤b then 0 else a-b

theorem saturatingAdd_toNat (a b : UInt64) :
    (saturatingAdd a b).toNat=min (a.toNat+b.toNat) (2^64-1) := by
  unfold saturatingAdd
  rw [UInt64.toNat_ofNat']
  exact Nat.mod_eq_of_lt (by omega)

section Prices

variable {F : Type} [Zero F] [Add F] [Mul F] [NatCast F]

/-- Prices of one model, per token. -/
structure ModelPricing (F : Type) where
  /-- Input rate. -/
  inputCostPerToken : F
  /-- Output rate. -/
  outputCostPerToken : F
  /-- Rate of cache writes, free when unknown. -/
  cacheCreationInputTokenCost : Option F
  /-- Rate of cached input, the input rate when unknown. -/
  cacheReadInputTokenCost : Option F

/-- Rate to charge cached input at. -/
def ModelPricing.cacheReadRate (price : ModelPricing F) : F :=
  price.cacheReadInputTokenCost.getD price.inputCostPerToken

/-- Cost of token counts. -/
def ModelPricing.cost (price : ModelPricing F) (input output cacheCreate cacheRead : UInt64) : F :=
  (input.toNat : F)*price.inputCostPerToken+(output.toNat : F)*price.outputCostPerToken+
    (cacheCreate.toNat : F)*price.cacheCreationInputTokenCost.getD 0+
    (cacheRead.toNat : F)*price.cacheReadRate

/-- Every rate scaled by a factor. -/
def ModelPricing.scaled (price : ModelPricing F) (mul : F) : ModelPricing F :=
  ⟨price.inputCostPerToken*mul,price.outputCostPerToken*mul,
    price.cacheCreationInputTokenCost.map (·*mul),price.cacheReadInputTokenCost.map (·*mul)⟩

/-- Price multipliers of the fast modes. -/
def fastMultiplier (base : String) : Option F :=
  if base="claude-opus-5" ∨ base="claude-opus-4-8" then some ((2 : ℕ) : F) else none

/-- The text before a suffix. -/
def stripSuffix (text suffix : String) : Option String :=
  if suffix.toList.isSuffixOf text.toList then
    some (String.ofList (text.toList.take (text.toList.length-suffix.toList.length)))
  else none

/-- Cached prices by model name. -/
structure PricingTable (F : Type) where
  /-- Prices of the exact names. -/
  prices : String → Option (ModelPricing F)

/-- Price of a model: its own, or that of its base at the fast multiplier. -/
def PricingTable.get (table : PricingTable F) (model : String) : Option (ModelPricing F) :=
  match table.prices model with
  | some price => some price
  | none => do
    let base ← stripSuffix model "-fast"
    let mul ← fastMultiplier base
    let price ← table.prices base
    pure (price.scaled mul)

/-- Cost of an event; codex reports cached input as part of its input. -/
def eventCostForProvider (price : ModelPricing F) (event : ServerEvent) (provider : String) : F :=
  if provider="codex" then
    price.cost (saturatingSub event.inputTokens event.cacheReadInputTokens) event.outputTokens 0
      event.cacheReadInputTokens
  else
    price.cost event.inputTokens event.outputTokens event.cacheCreationInputTokens
      event.cacheReadInputTokens

end Prices

/-- Supported grouping dimensions. -/
inductive GroupBy where
  | model | project | deviceId
  deriving DecidableEq

/-- Dimension of a label, the model for any other text. -/
def GroupBy.ofLabel (label : String) : GroupBy :=
  if label="project" then .project else if label="device_id" then .deviceId else .model

/-- Group key of an event. -/
def GroupBy.key (dim : GroupBy) (event : ServerEvent) : String :=
  match dim with
  | .model => event.model
  | .project => event.project
  | .deviceId => event.deviceId

/-- Provider an event counts for. -/
def providerKey (event : ServerEvent) : String :=
  if event.provider="" then "claude_code" else event.provider

/-- Key of a slot. -/
structure BucketKey where
  /-- Second at which the bucket starts. -/
  start : ℤ
  /-- Provider the events count for. -/
  provider : String
  /-- Group key. -/
  group : String

/-- Slots are ordered by start, provider and group key. -/
def BucketKey.lex (key : BucketKey) : ℤ ×ₗ String ×ₗ String :=
  toLex (key.start,toLex (key.provider,key.group))

theorem BucketKey.lex_injective : Function.Injective BucketKey.lex := by
  intro a b h
  cases a
  cases b
  simp only [BucketKey.lex] at h
  simp_all [Prod.mk.injEq]

instance instLinearOrderBucketKey : LinearOrder BucketKey :=
  LinearOrder.lift' BucketKey.lex BucketKey.lex_injective

/-- Counters of one slot. -/
structure ModelBucket (F : Type) where
  /-- Input tokens. -/
  input : UInt64
  /-- Output tokens. -/
  output : UInt64
  /-- Cache writes. -/
  cacheCreate : UInt64
  /-- Cache reads. -/
  cacheRead : UInt64
  /-- Usage totals of the clients. -/
  usageTotal : UInt64
  /-- Number of events. -/
  events : UInt64
  /-- Cost of the events whose model has a price. -/
  costUsd : Option F
  /-- First provider named by an event. -/
  provider : String

/-- The empty slot. -/
def ModelBucket.default (F : Type) : ModelBucket F := ⟨0,0,0,0,0,0,none,""⟩

/-- What an aggregation is asked for. -/
structure AggregateQuery (F : Type) where
  /-- Width of the buckets in seconds. -/
  stepSecs : ℤ
  /-- First millisecond of the range. -/
  sinceMs : ℤ
  /-- First millisecond behind the range. -/
  untilMs : ℤ
  /-- Events are counted instead of tokens. -/
  isEvents : Bool
  /-- Grouping label. -/
  groupBy : String
  /-- Provider matcher of the query. -/
  providerFilter : Option String
  /-- Prices. -/
  pricing : PricingTable F
  /-- Zone of the calendar buckets and of the period texts. -/
  tz : Option Tz
  /-- Week start, Monday when not given. -/
  startOfWeek : Option Weekday
  /-- Costs are computed. -/
  includeCost : Bool

/-- Most slots one response may hold. -/
def maxBucketEntries : ℕ := 50000

/-- One entry of the response; the last two counters are named by provider. -/
inductive TokenSplit where
  /-- Fields cached_input_tokens and reasoning_output_tokens. -/
  | codex (cachedInput reasoningOutput : UInt64)
  /-- Fields cache_creation_input_tokens and cache_read_input_tokens. -/
  | cached (cacheCreation cacheRead : UInt64)
  deriving DecidableEq

/-- Usage of one group in one period. -/
structure UsageEntry (F : Type) where
  /-- Group key, whatever the grouping dimension. -/
  model : String
  /-- Input tokens. -/
  inputTokens : UInt64
  /-- Output tokens. -/
  outputTokens : UInt64
  /-- Usage totals. -/
  totalTokens : UInt64
  /-- Number of events. -/
  events : UInt64
  /-- Cache counters. -/
  split : TokenSplit
  /-- Cost, when a model had a price. -/
  costUsd : Option F

/-- A period of the response. -/
structure Period (F : Type) where
  /-- Local time of the bucket and group key. -/
  period : String
  /-- The entries. -/
  usagePerModels : List (UsageEntry F)

/-- The response. -/
structure AggregateResponse (F : Type) where
  /-- Periods of each provider. -/
  providers : List (String×List (Period F))
  /-- Entries were dropped. -/
  truncated : Bool

namespace AggregateQuery

variable {F : Type} [Zero F] [Add F] [Mul F] [NatCast F] (query : AggregateQuery F)

/-- Start of the bucket of an event. -/
def bucketSec (event : ServerEvent) : ℤ :=
  bucketStartSec event.tsMs.toInt query.stepSecs query.tz (query.startOfWeek.getD .mon)

/-- Slot of an event. -/
def key (event : ServerEvent) : BucketKey :=
  ⟨query.bucketSec event,providerKey event,(GroupBy.ofLabel query.groupBy).key event⟩

/-- Add an event to a slot. -/
def accumulate (entry : ModelBucket F) (event : ServerEvent) : ModelBucket F :=
  let provider := if entry.provider="" ∧ event.provider≠"" then event.provider else entry.provider
  if query.isEvents then
    { entry with provider := provider, events := saturatingAdd entry.events 1 }
  else
    { input := saturatingAdd entry.input event.inputTokens
      output := saturatingAdd entry.output event.outputTokens
      cacheCreate := saturatingAdd entry.cacheCreate event.cacheCreationInputTokens
      cacheRead := saturatingAdd entry.cacheRead event.cacheReadInputTokens
      usageTotal := saturatingAdd entry.usageTotal event.usageTotal
      events := saturatingAdd entry.events 1
      costUsd :=
        if query.includeCost then
          match query.pricing.get event.model with
          | some price =>
            some (entry.costUsd.getD 0+eventCostForProvider price event (providerKey event))
          | none => entry.costUsd
        else entry.costUsd
      provider := provider }

/-- Whether an event lies in the range. -/
def inRange (event : ServerEvent) : Bool :=
  query.sinceMs≤event.tsMs.toInt && event.tsMs.toInt<query.untilMs

/-- Whether a bucket of nominal width overlaps the range. -/
def overlaps (event : ServerEvent) : Bool :=
  query.sinceMs<query.bucketSec event*1000+query.stepSecs*1000 &&
    query.bucketSec event*1000<query.untilMs

/-- Whether the provider matcher admits an event. -/
def matchesProvider (event : ServerEvent) : Bool :=
  match query.providerFilter with
  | some want => want=providerKey event
  | none => true

/-- Visit one event. -/
def visit (slots : Tally BucketKey (ModelBucket F)) (event : ServerEvent) :
    Tally BucketKey (ModelBucket F) :=
  if ¬query.inRange event then slots
  else if ¬query.overlaps event then slots
  else if ¬query.matchesProvider event then slots
  else count query.key query.accumulate (ModelBucket.default F) maxBucketEntries slots event

/-- The slots after all events. -/
def buckets (events : List ServerEvent) : Tally BucketKey (ModelBucket F) :=
  events.foldl query.visit ⟨OrderedMap.empty,false⟩

variable (printLocal : ℤ → String)

/-- Local time at which a bucket starts, empty outside the calendar. -/
def periodStart (start : ℤ) : String :=
  if minUtc≤ start ∧ start≤ maxUtc then
    match query.tz with
    | some tz => printLocal (tz.reading start)
    | none => printLocal start
  else ""

/-- Provider a slot is rendered under. -/
def outputProvider (bucket : ModelBucket F) : String :=
  if bucket.provider="" then "claude_code" else bucket.provider

/-- Render one slot. -/
def renderEntry (group : String) (bucket : ModelBucket F) : UsageEntry F where
  model := group
  inputTokens := bucket.input
  outputTokens := bucket.output
  totalTokens := bucket.usageTotal
  events := bucket.events
  split :=
    if outputProvider bucket="codex" then .codex bucket.cacheRead bucket.cacheCreate
    else .cached bucket.cacheCreate bucket.cacheRead
  costUsd := bucket.costUsd

/-- Push the entry of a slot under its provider and period. -/
def pushEntry (perProvider : OrderedMap String (OrderedMap String (List (UsageEntry F))))
    (slot : BucketKey×ModelBucket F) : OrderedMap String (OrderedMap String (List (UsageEntry F))) :=
  let periodKey := query.periodStart printLocal slot.1.start++"|"++slot.1.group
  perProvider.enter (outputProvider slot.2) fun periods =>
    (periods.getD OrderedMap.empty).enter periodKey fun entries =>
      entries.getD []++[renderEntry slot.1.group slot.2]

/-- The periods of every provider. -/
def perProvider (slots : OrderedMap BucketKey (ModelBucket F)) :
    OrderedMap String (OrderedMap String (List (UsageEntry F))) :=
  slots.entries.foldl (query.pushEntry printLocal) OrderedMap.empty

/-- Aggregate events into the response. -/
def aggregateEvents (events : List ServerEvent) : AggregateResponse F :=
  let tally := query.buckets events
  let providers := (query.perProvider printLocal tally.slots).entries.map fun (provider,periods) =>
    (provider,periods.entries.map fun (period,entries) => (⟨period,entries⟩ : Period F))
  { providers := if providers.isEmpty then [("claude_code",[])] else providers
    truncated := tally.truncated }

end AggregateQuery

end TokiSync.UsageAggregation
