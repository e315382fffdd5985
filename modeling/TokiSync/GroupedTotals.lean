import TokiSync.AggregateEntries
import Mathlib.Algebra.BigOperators.Group.List.Basic
import Mathlib.Algebra.Order.BigOperators.Group.List
import Mathlib.Algebra.Order.Ring.Rat

/-!
# Grouping and filtering keep the totals

The sums over all entries of a provider are those over its admitted events,
whatever label the entries are grouped by. A provider matcher cuts the other
providers out of the response, and the order of the events does not matter.
Amounts of money may be of any type with a commutative addition.
-/

namespace TokiSync.UsageAggregation

open TokiSync.OrderedEntries TokiSync.CappedTallies TokiSync.CalendarBuckets TokiSync.ServerEvents

variable {F : Type}

/-- The counters of an entry. -/
inductive Counter where
  | input | output | cacheCreate | cacheRead | total | events
  deriving DecidableEq

/-- Counter of a slot. -/
def ModelBucket.counter (bucket : ModelBucket F) : Counter → UInt64
  | .input => bucket.input
  | .output => bucket.output
  | .cacheCreate => bucket.cacheCreate
  | .cacheRead => bucket.cacheRead
  | .total => bucket.usageTotal
  | .events => bucket.events

/-- Cache writes of an entry, or the reasoning tokens shown in their place. -/
def TokenSplit.cacheCreate : TokenSplit → UInt64
  | .codex _ reasoningOutput => reasoningOutput
  | .cached cacheCreation _ => cacheCreation

/-- Cache reads of an entry. -/
def TokenSplit.cacheRead : TokenSplit → UInt64
  | .codex cachedInput _ => cachedInput
  | .cached _ cacheRead => cacheRead

/-- Counter of an entry. -/
def UsageEntry.counter (entry : UsageEntry F) : Counter → UInt64
  | .input => entry.inputTokens
  | .output => entry.outputTokens
  | .cacheCreate => entry.split.cacheCreate
  | .cacheRead => entry.split.cacheRead
  | .total => entry.totalTokens
  | .events => entry.events

/-- What an event adds to a counter. -/
def adds (c : Counter) (event : ServerEvent) : ℕ :=
  match c with
  | .input => event.inputTokens.toNat
  | .output => event.outputTokens.toNat
  | .cacheCreate => event.cacheCreationInputTokens.toNat
  | .cacheRead => event.cacheReadInputTokens.toNat
  | .total => event.usageTotal.toNat
  | .events => 1

/-- Sum of a counter over the entries of a provider. -/
def AggregateResponse.sumOf (response : AggregateResponse F) (provider : String) (c : Counter) : ℕ :=
  ((response.entriesOf provider).map fun entry => (entry.counter c).toNat).sum

/-- Cost of all entries of a provider. -/
def AggregateResponse.costOf [Zero F] [Add F] (response : AggregateResponse F)
    (provider : String) : F :=
  ((response.entriesOf provider).map fun entry => entry.costUsd.getD 0).sum

/-- The part of a response that a provider has; an empty one still carries a
key of the default provider. -/
def AggregateResponse.restrict (response : AggregateResponse F) (provider : String) :
    AggregateResponse F :=
  let kept := response.providers.filter fun named => named.1=provider
  { providers := if kept.isEmpty then [("claude_code",[])] else kept
    truncated := response.truncated }

/-- An entry shows the counters of its slot. -/
theorem renderEntry_counter (group : String) (bucket : ModelBucket F) (c : Counter) :
    (AggregateQuery.renderEntry group bucket).counter c=bucket.counter c := by
  have hsplit : (AggregateQuery.renderEntry group bucket).split.cacheCreate=bucket.cacheCreate ∧
      (AggregateQuery.renderEntry group bucket).split.cacheRead=bucket.cacheRead := by
    unfold AggregateQuery.renderEntry
    by_cases hcodex : AggregateQuery.outputProvider bucket="codex"
    · simp only [if_pos hcodex]
      exact ⟨rfl,rfl⟩
    · simp only [if_neg hcodex]
      exact ⟨rfl,rfl⟩
  cases c with
  | cacheCreate => exact hsplit.1
  | cacheRead => exact hsplit.2
  | input => rfl
  | output => rfl
  | total => rfl
  | events => rfl

/-- Additions that stop at the largest word may be swapped. -/
theorem saturatingAdd_right_comm (a b c : UInt64) :
    saturatingAdd (saturatingAdd a b) c=saturatingAdd (saturatingAdd a c) b := by
  refine UInt64.toNat.inj ?_
  simp only [saturatingAdd_toNat]
  omega

namespace AggregateQuery

/-- The query with another grouping label. -/
def grouped (query : AggregateQuery F) (label : String) : AggregateQuery F :=
  { query with groupBy := label }

/-- The query without a provider matcher. -/
def unfiltered (query : AggregateQuery F) : AggregateQuery F := { query with providerFilter := none }

/-- The query for one provider. -/
def only (query : AggregateQuery F) (provider : String) : AggregateQuery F :=
  { query with providerFilter := some provider }

variable [AddCommMonoid F] [Mul F] [NatCast F] (query : AggregateQuery F) (printLocal : ℤ → String)

/-- Cost of an event, zero when it has no price. -/
def eventCost (event : ServerEvent) : F :=
  if query.includeCost then
    match query.pricing.get event.model with
    | some price => eventCostForProvider price event (providerKey event)
    | none => 0
  else 0

/-- No counter of a slot reaches the largest word. -/
def Unsaturated (events : List ServerEvent) : Prop :=
  ∀ slot c, ((query.ofKey events slot).map (adds c)).sum<2^64

/-- The admitted events of a provider. -/
def countedFor (events : List ServerEvent) (provider : String) : List ServerEvent :=
  (events.filter query.admits).filter fun event => providerKey event=provider

theorem accumulate_counter (husage : query.isEvents=false) (entry : ModelBucket F)
    (event : ServerEvent) (c : Counter) : ((query.accumulate entry event).counter c).toNat=
      min ((entry.counter c).toNat+adds c event) (2^64-1) := by
  unfold accumulate
  rw [husage]
  cases c with
  | input => exact saturatingAdd_toNat _ _
  | output => exact saturatingAdd_toNat _ _
  | cacheCreate => exact saturatingAdd_toNat _ _
  | cacheRead => exact saturatingAdd_toNat _ _
  | total => exact saturatingAdd_toNat _ _
  | events => exact saturatingAdd_toNat _ _

theorem accumulate_cost (husage : query.isEvents=false) (entry : ModelBucket F)
    (event : ServerEvent) :
    (query.accumulate entry event).costUsd.getD 0=entry.costUsd.getD 0+query.eventCost event := by
  unfold accumulate eventCost
  rw [husage]
  cases query.includeCost with
  | false => exact (add_zero _).symm
  | true =>
    cases query.pricing.get event.model with
    | none => simp
    | some price => simp

/-- A slot shows the exact sums of its events. -/
theorem total_counter (husage : query.isEvents=false) {events : List ServerEvent} {c : Counter}
    (hfits : (events.map (adds c)).sum<2^64) :
    ((query.total events).counter c).toNat=(events.map (adds c)).sum := by
  have run : ∀ (events : List ServerEvent) (entry : ModelBucket F),
      ((events.foldl query.accumulate entry).counter c).toNat=
        min ((entry.counter c).toNat+(events.map (adds c)).sum) (2^64-1) := by
    intro events
    induction events with
    | nil =>
      intro entry
      have hlt := (entry.counter c).toNat_lt
      simp only [List.foldl_nil,List.map_nil,List.sum_nil]
      omega
    | cons event events ih =>
      intro entry
      rw [List.foldl_cons,ih,query.accumulate_counter husage,List.map_cons,List.sum_cons]
      omega
  have hzero : ((ModelBucket.default F).counter c).toNat=0 := by cases c <;> rfl
  have h := run events (ModelBucket.default F)
  rw [hzero,Nat.zero_add] at h
  exact h.trans (by omega)

theorem total_cost (husage : query.isEvents=false) (events : List ServerEvent) :
    (query.total events).costUsd.getD 0=(events.map query.eventCost).sum := by
  have run : ∀ (events : List ServerEvent) (entry : ModelBucket F),
      (events.foldl query.accumulate entry).costUsd.getD 0=
        entry.costUsd.getD 0+(events.map query.eventCost).sum := by
    intro events
    induction events with
    | nil =>
      intro entry
      exact (add_zero _).symm
    | cons event events ih =>
      intro entry
      rw [List.foldl_cons,ih,query.accumulate_cost husage,List.map_cons,List.sum_cons,add_assoc]
  have h := run events (ModelBucket.default F)
  have hzero : (ModelBucket.default F).costUsd.getD 0=0 := rfl
  rw [hzero,zero_add] at h
  exact h

/-- The stored slots of a provider. -/
def slotsOf (events : List ServerEvent) (provider : String) : List BucketKey :=
  ((query.buckets events).slots.entries.map Prod.fst).filter fun slot => slot.provider=provider

/-- The entries of a provider: one for each stored slot, made of its events. -/
theorem entriesOf_perm (events : List ServerEvent) (provider : String) :
    ((query.aggregateEvents printLocal events).entriesOf provider).Perm
      ((query.slotsOf events provider).map fun slot =>
        query.entryOf slot.group (query.ofKey events slot)) := by
  refine (query.entriesOf_aggregateEvents printLocal events provider).trans
    (List.Perm.of_eq ?_)
  have hrenders : (query.buckets events).slots.entries.filter (rendersUnder provider)=
      (query.buckets events).slots.entries.filter fun slot => slot.1.provider=provider := by
    refine List.filter_congr fun slot hslot => ?_
    unfold rendersUnder
    rw [query.outputProvider_slot hslot]
  rw [hrenders,slotsOf,List.filter_map,List.map_map]
  refine List.map_congr_left fun slot hslot => ?_
  have hmem := List.mem_filter.mp hslot
  show renderEntry slot.1.group slot.2=query.entryOf slot.1.group (query.ofKey events slot.1)
  rw [(query.slot_eq_total hmem.1).1]
  rfl

/-- A response that is not truncated has every admitted event of a provider in
one of its slots. -/
theorem flatMap_slotsOf {events : List ServerEvent}
    (hopen : (query.aggregateEvents printLocal events).truncated=false) (provider : String) :
    ((query.slotsOf events provider).flatMap (query.ofKey events)).Perm
      (query.countedFor events provider) :=
  query.flatMap_ofKey hopen fun slot => slot.provider=provider

/-- Sums over the entries of a provider are sums over its events. -/
theorem sum_entriesOf {M : Type} [AddCommMonoid M] {events : List ServerEvent}
    (hopen : (query.aggregateEvents printLocal events).truncated=false) (provider : String)
    {measure : UsageEntry F → M} {amount : ServerEvent → M}
    (hentry : ∀ slot, measure (query.entryOf slot.group (query.ofKey events slot))=
      ((query.ofKey events slot).map amount).sum) :
    (((query.aggregateEvents printLocal events).entriesOf provider).map measure).sum=
      ((query.countedFor events provider).map amount).sum := by
  rw [((query.entriesOf_perm printLocal events provider).map measure).sum_eq,
    ← ((query.flatMap_slotsOf printLocal hopen provider).map amount).sum_eq,List.map_map,
    List.map_flatMap,List.flatMap_def,List.sum_flatten,List.map_map]
  congr 1
  exact List.map_congr_left fun slot _ => hentry slot

/-- A counter of a provider counts its events. -/
theorem sumOf_eq (husage : query.isEvents=false) {events : List ServerEvent}
    (hopen : (query.aggregateEvents printLocal events).truncated=false)
    (hfits : query.Unsaturated events) (provider : String) (c : Counter) :
    (query.aggregateEvents printLocal events).sumOf provider c=
      ((query.countedFor events provider).map (adds c)).sum := by
  refine query.sum_entriesOf printLocal hopen provider fun slot => ?_
  rw [entryOf,renderEntry_counter]
  exact query.total_counter husage (hfits slot c)

theorem costOf_eq (husage : query.isEvents=false) {events : List ServerEvent}
    (hopen : (query.aggregateEvents printLocal events).truncated=false) (provider : String) :
    (query.aggregateEvents printLocal events).costOf provider=
      ((query.countedFor events provider).map query.eventCost).sum :=
  query.sum_entriesOf printLocal hopen provider fun _ => query.total_cost husage _

/-- Whichever event of a provider names it first, a slot takes the same name. -/
theorem provider_comm {a b : ServerEvent} (hproviders : providerKey a=providerKey b)
    (entry : ModelBucket F) : (query.accumulate (query.accumulate entry a) b).provider=
      (query.accumulate (query.accumulate entry b) a).provider := by
  rw [query.accumulate_provider,query.accumulate_provider,query.accumulate_provider,
    query.accumulate_provider]
  by_cases hentry : entry.provider=""
  · rw [if_pos hentry,if_pos hentry]
    unfold providerKey at hproviders
    by_cases ha : a.provider=""
    · by_cases hb : b.provider=""
      · rw [if_pos ha,if_pos hb,ha,hb]
      · rw [if_pos ha,if_neg hb]
    · by_cases hb : b.provider=""
      · rw [if_neg ha,if_pos hb]
      · rw [if_neg ha,if_neg hb] at hproviders
        rw [if_neg ha,if_neg hb,hproviders]
  · simp only [if_neg hentry]

/-- Events of one slot may be added in any order. -/
theorem accumulate_comm {a b : ServerEvent} (hkey : query.key a=query.key b)
    (entry : ModelBucket F) : query.accumulate (query.accumulate entry a) b=
      query.accumulate (query.accumulate entry b) a := by
  have hprovider := query.provider_comm (congrArg BucketKey.provider hkey) entry
  unfold accumulate at hprovider ⊢
  cases hevents : query.isEvents with
  | true =>
    simp only [hevents] at hprovider ⊢
    rw [ModelBucket.mk.injEq]
    exact ⟨rfl,rfl,rfl,rfl,rfl,rfl,rfl,hprovider⟩
  | false =>
    simp only [hevents] at hprovider ⊢
    rw [ModelBucket.mk.injEq]
    refine ⟨saturatingAdd_right_comm _ _ _,saturatingAdd_right_comm _ _ _,
      saturatingAdd_right_comm _ _ _,saturatingAdd_right_comm _ _ _,
      saturatingAdd_right_comm _ _ _,rfl,?_,hprovider⟩
    cases query.includeCost with
    | false => rfl
    | true =>
      cases query.pricing.get a.model with
      | none => rfl
      | some first =>
        cases query.pricing.get b.model with
        | none => rfl
        | some second => exact congrArg some (add_right_comm _ _ _)

/-- The order of the events does not matter. -/
theorem aggregateEvents_perm {events reordered : List ServerEvent}
    (hperm : events.Perm reordered)
    (hopen : (query.aggregateEvents printLocal events).truncated=false) :
    query.aggregateEvents printLocal reordered=query.aggregateEvents printLocal events := by
  have hbuckets : query.buckets reordered=query.buckets events := by
    have hstart : (query.buckets events).truncated=false := hopen
    rw [query.buckets_eq_tally] at hstart
    rw [query.buckets_eq_tally,query.buckets_eq_tally]
    exact tally_perm (hperm.filter _) hstart fun a b hkey v => query.accumulate_comm hkey v
  unfold aggregateEvents
  rw [hbuckets]

omit [AddCommMonoid F] [Mul F] [NatCast F] in
/-- Pushing a slot is seen under its own provider only. -/
theorem get_pushEntry (provider : String)
    (perProvider : OrderedMap String (OrderedMap String (List (UsageEntry F))))
    (slot : BucketKey×ModelBucket F) (h : outputProvider slot.2≠provider) :
    (query.pushEntry printLocal perProvider slot).get provider=perProvider.get provider := by
  unfold pushEntry
  rw [OrderedMap.get_enter,if_neg (Ne.symm h)]

omit [AddCommMonoid F] [Mul F] [NatCast F] in
/-- The slots of one provider make the part of the nested maps it has. -/
theorem perProvider_filterKeys {slots : OrderedMap BucketKey (ModelBucket F)}
    (hslots : ∀ slot∈slots.entries, outputProvider slot.2=slot.1.provider) (provider : String) :
    query.perProvider printLocal (slots.filterKeys fun key => key.provider=provider)=
      (query.perProvider printLocal slots).filterKeys fun name => name=provider := by
  have run : ∀ (entries : List (BucketKey×ModelBucket F))
      (part whole : OrderedMap String (OrderedMap String (List (UsageEntry F)))),
      (∀ slot∈entries, outputProvider slot.2=slot.1.provider) →
      (∀ name, part.get name=if name=provider then whole.get name else none) → ∀ name,
      ((entries.filter fun slot => slot.1.provider=provider).foldl (query.pushEntry printLocal)
        part).get name=
        if name=provider then (entries.foldl (query.pushEntry printLocal) whole).get name
        else none := by
    intro entries
    induction entries with
    | nil =>
      intro part whole _ h
      exact h
    | cons slot entries ih =>
      intro part whole hall h
      have hslot := hall slot List.mem_cons_self
      have hrest := fun s hs => hall s (List.mem_cons_of_mem _ hs)
      by_cases hp : slot.1.provider=provider
      · rw [List.filter_cons_of_pos (by simpa using hp),List.foldl_cons,List.foldl_cons]
        refine ih _ _ hrest fun name => ?_
        unfold pushEntry
        rw [OrderedMap.get_enter,OrderedMap.get_enter,hslot,hp,h name,h provider,if_pos rfl]
        by_cases hname : name=provider
        · rw [if_pos hname,if_pos hname,if_pos hname]
        · rw [if_neg hname,if_neg hname,if_neg hname]
      · rw [List.filter_cons_of_neg (by simpa using hp),List.foldl_cons]
        refine ih _ _ hrest fun name => ?_
        rw [h name]
        by_cases hname : name=provider
        · rw [if_pos hname,if_pos hname,hname]
          exact (query.get_pushEntry printLocal provider whole slot (by rw [hslot]; exact hp)).symm
        · rw [if_neg hname,if_neg hname]
  refine OrderedMap.ext_get fun name => ?_
  rw [OrderedMap.get_filterKeys]
  have h := run slots.entries OrderedMap.empty OrderedMap.empty hslots (by simp) name
  simp only [decide_eq_true_eq]
  exact h

/-- A matcher keeps the slots of its provider. -/
theorem buckets_only {events : List ServerEvent}
    (hopen : (query.unfiltered.buckets events).truncated=false) (provider : String) :
    (query.only provider).buckets events=
      ⟨(query.unfiltered.buckets events).slots.filterKeys fun key => key.provider=provider,
        false⟩ := by
  have hadmits : events.filter (query.only provider).admits=
      (events.filter query.unfiltered.admits).filter fun event =>
        (query.unfiltered.key event).provider=provider := by
    rw [List.filter_filter]
    refine List.filter_congr fun event _ => ?_
    change (query.inRange event && query.overlaps event && decide (provider=providerKey event))=
      (decide (providerKey event=provider) &&
        (query.inRange event && query.overlaps event && true))
    rw [Bool.and_true,Bool.and_comm,decide_eq_decide.mpr eq_comm]
  rw [query.unfiltered.buckets_eq_tally] at hopen ⊢
  rw [(query.only provider).buckets_eq_tally,hadmits]
  exact tally_filter (fun key => key.provider=provider) hopen

/-- The response that nested maps are written as. -/
def written (perProvider : OrderedMap String (OrderedMap String (List (UsageEntry F))))
    (truncated : Bool) : AggregateResponse F :=
  let providers := perProvider.entries.map fun (provider,periods) =>
    (provider,periods.entries.map fun (period,entries) => (⟨period,entries⟩ : Period F))
  { providers := if providers.isEmpty then [("claude_code",[])] else providers
    truncated := truncated }

omit [AddCommMonoid F] [Mul F] [NatCast F] in
/-- The maps of one provider are written as the part of the response it has. -/
theorem written_filterKeys
    (perProvider : OrderedMap String (OrderedMap String (List (UsageEntry F)))) (truncated : Bool)
    (provider : String) : written (perProvider.filterKeys fun name => name=provider) truncated=
      (written perProvider truncated).restrict provider := by
  unfold written AggregateResponse.restrict OrderedMap.filterKeys
  dsimp only
  rw [AggregateResponse.mk.injEq]
  refine ⟨?_,rfl⟩
  cases hentries : perProvider.entries with
  | nil =>
    by_cases hp : "claude_code"=provider
    · simp [hp]
    · simp [hp]
  | cons named rest =>
    rw [if_neg (by simp : ¬((named::rest).map _).isEmpty=true),List.filter_map]
    rfl

/-- The response for one provider is the part of the whole one it has. -/
theorem aggregateEvents_only {events : List ServerEvent}
    (hopen : (query.unfiltered.aggregateEvents printLocal events).truncated=false)
    (provider : String) : (query.only provider).aggregateEvents printLocal events=
      (query.unfiltered.aggregateEvents printLocal events).restrict provider := by
  have hslots : ∀ slot∈(query.unfiltered.buckets events).slots.entries,
      outputProvider slot.2=slot.1.provider :=
    fun slot hslot => query.unfiltered.outputProvider_slot hslot
  have hmaps := query.unfiltered.perProvider_filterKeys printLocal hslots provider
  have hmark : (query.unfiltered.buckets events).truncated=false := hopen
  have hwhole : query.unfiltered.aggregateEvents printLocal events=
      written (query.unfiltered.perProvider printLocal (query.unfiltered.buckets events).slots)
        false := by
    rw [← hmark]
    rfl
  rw [hwhole,← written_filterKeys,← hmaps]
  unfold aggregateEvents
  rw [query.buckets_only hopen provider]
  rfl

omit [AddCommMonoid F] [Mul F] [NatCast F] in
/-- Counters that fit over all events fit in every slot. -/
theorem unsaturated_of_sum {events : List ServerEvent}
    (hfits : ∀ c, (events.map (adds c)).sum<2^64) : query.Unsaturated events := by
  intro slot c
  have hpart : (query.ofKey events slot).Sublist events :=
    List.filter_sublist.trans List.filter_sublist
  exact ((hpart.map (adds c)).sum_le_sum fun _ _ => Nat.zero_le _).trans_lt (hfits c)

/-- While nothing is turned away and no counter stops at the largest word, a
usage query shows the same totals of a provider under every grouping label. A
provider matcher gives the part of the response its provider has, with the
default key when there is none, and the order of the events does not matter. -/
theorem conserves_totals (events : List ServerEvent) (husage : query.isEvents=false) :
    (∀ first second : String,
      ((query.grouped first).aggregateEvents printLocal events).truncated=false →
      ((query.grouped second).aggregateEvents printLocal events).truncated=false →
      (query.grouped first).Unsaturated events → (query.grouped second).Unsaturated events →
      ∀ provider, (∀ c,
        ((query.grouped first).aggregateEvents printLocal events).sumOf provider c=
          ((query.grouped second).aggregateEvents printLocal events).sumOf provider c) ∧
        ((query.grouped first).aggregateEvents printLocal events).costOf provider=
          ((query.grouped second).aggregateEvents printLocal events).costOf provider) ∧
    ((query.unfiltered.aggregateEvents printLocal events).truncated=false → ∀ provider,
      (query.only provider).aggregateEvents printLocal events=
        (query.unfiltered.aggregateEvents printLocal events).restrict provider) ∧
    ((query.aggregateEvents printLocal events).truncated=false → ∀ reordered,
      events.Perm reordered → query.aggregateEvents printLocal reordered=
        query.aggregateEvents printLocal events) := by
  refine ⟨fun first second hopen hopen' hfits hfits' provider => ⟨fun c => ?_,?_⟩,
    fun hopen provider => query.aggregateEvents_only printLocal hopen provider,
    fun hopen reordered hperm => query.aggregateEvents_perm printLocal hperm hopen⟩
  · exact ((query.grouped first).sumOf_eq printLocal husage hopen hfits provider c).trans
      ((query.grouped second).sumOf_eq printLocal husage hopen' hfits' provider c).symm
  · exact ((query.grouped first).costOf_eq printLocal husage hopen provider).trans
      ((query.grouped second).costOf_eq printLocal husage hopen' provider).symm

end AggregateQuery

/-- An hourly usage query over the first day, with one known price. -/
def pricedQuery : AggregateQuery ℚ where
  stepSecs := 3600
  sinceMs := 0
  untilMs := 86400000
  isEvents := false
  groupBy := "model"
  providerFilter := none
  pricing := ⟨fun model => if model="gpt" then some ⟨1/4,1,none,none⟩ else none⟩
  tz := none
  startOfWeek := none
  includeCost := true

/-- Two events of different models in one project. -/
def codexEvents : List ServerEvent :=
  [⟨"d","u","1",1000,"codex","gpt","toki","",8,4,0,2,12⟩,
    ⟨"d","u","2",2000,"codex","gpt-mini","toki","",3,1,0,0,4⟩]

/-- By project both events share an entry, whose cost is that of the first. -/
theorem conserves_totals_sample :
    ((pricedQuery.grouped "project").aggregateEvents (fun _ => "") codexEvents).costOf "codex"=
      ((pricedQuery.grouped "model").aggregateEvents (fun _ => "") codexEvents).costOf "codex" := by
  have hfits : ∀ c, (codexEvents.map (adds c)).sum<2^64 := by
    intro c
    cases c <;> decide
  exact ((AggregateQuery.conserves_totals pricedQuery (fun _ => "") codexEvents rfl).1 "project"
    "model" (by decide +kernel) (by decide +kernel)
    ((pricedQuery.grouped "project").unsaturated_of_sum hfits)
    ((pricedQuery.grouped "model").unsaturated_of_sum hfits) "codex").2

/-- A matcher of a provider without events answers with a key the whole
response does not have for it. -/
theorem restricted_has_default :
    (pricedQuery.unfiltered.aggregateEvents (fun _ => "") codexEvents).truncated=false ∧
      ((pricedQuery.only "gemini").aggregateEvents (fun _ => "") codexEvents).providers≠
        (pricedQuery.unfiltered.aggregateEvents (fun _ => "") codexEvents).providers.filter
          fun named => named.1="gemini" := by
  refine ⟨by decide +kernel,fun h => ?_⟩
  have hnames := congrArg (List.map Prod.fst) h
  revert hnames
  decide +kernel

end TokiSync.UsageAggregation
