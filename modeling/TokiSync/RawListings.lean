import TokiSync.OrderedEntries
import TokiSync.StableOrder
import TokiSync.UsageAggregation
import Mathlib.Logic.Function.Basic

/-!
# Raw listings of events

A query for events without steps is answered by the events themselves, listed by
provider and in the order of time. The prices of models that were looked up once
are kept for the rest of the listing. Every event that the filter admits has
exactly one row, under its provider, at the price of its model.
-/

namespace TokiSync.RawListings

open CalendarBuckets OrderedEntries ServerEvents StableOrder UsageAggregation

/-- A row of a listing. -/
structure RawRow (F : Type) where
  /-- Local time of the event. -/
  timestamp : String
  model : String
  session : String
  project : String
  inputTokens : UInt64
  outputTokens : UInt64
  cacheCreationInputTokens : UInt64
  cacheReadInputTokens : UInt64
  /-- Cost of the event, if it is asked for and the model has a price. -/
  costUsd : Option F

/-- A listing by provider. -/
structure RawResponse (F : Type) where
  providers : List (String×List (RawRow F))
  /-- There are more events than one request may read. -/
  truncated : Bool

/-- Prices that were looked up, by model. -/
abbrev PriceCache (F : Type) := String → Option (Option (ModelPricing F))

/-- What a listing is asked for. -/
structure RawQuery (F : Type) where
  /-- Text of a second in the time zone of the request. -/
  printLocal : ℤ → String
  pricing : PricingTable F
  /-- The only provider that is listed. -/
  providerFilter : Option String
  /-- Costs are listed. -/
  includeCost : Bool

namespace RawQuery

section

variable {F : Type} [Zero F] [Add F] [Mul F] [NatCast F] (query : RawQuery F)

/-- Whether the filter admits an event. -/
def admits (event : ServerEvent) : Bool :=
  query.providerFilter.all fun want => want=providerKey event

/-- Append an event to those of its provider. -/
def addEvent (groups : OrderedMap String (List ServerEvent)) (event : ServerEvent) :
    OrderedMap String (List ServerEvent) :=
  if query.admits event then
    groups.enter (providerKey event) fun events => events.getD []++[event]
  else groups

/-- The events of every provider. -/
def byProvider (events : List ServerEvent) : OrderedMap String (List ServerEvent) :=
  events.foldl query.addEvent .empty

/-- The price of a model, looked up once. -/
def price (cache : PriceCache F) (model : String) : Option (ModelPricing F)×PriceCache F :=
  match cache model with
  | some price => (price,cache)
  | none => (query.pricing.get model,Function.update cache model (some (query.pricing.get model)))

/-- The row of an event at some cost. -/
def renderRow (event : ServerEvent) (costUsd : Option F) : RawRow F where
  timestamp := (fromTimestampMillis event.tsMs.toInt).elim "" query.printLocal
  model := event.model
  session := event.session
  project := event.project
  inputTokens := event.inputTokens
  outputTokens := event.outputTokens
  cacheCreationInputTokens := event.cacheCreationInputTokens
  cacheReadInputTokens := event.cacheReadInputTokens
  costUsd := costUsd

/-- Append the row of an event. -/
def pushRow (provider : String) (state : List (RawRow F)×PriceCache F) (event : ServerEvent) :
    List (RawRow F)×PriceCache F :=
  if query.includeCost then
    let found := query.price state.2 event.model
    (state.1++[query.renderRow event (found.1.map fun price =>
      eventCostForProvider price event provider)],found.2)
  else (state.1++[query.renderRow event none],state.2)

/-- The events of a provider in the order of time; events of one instant keep
theirs. -/
def inTime (events : List ServerEvent) : List ServerEvent :=
  sortByKey (fun event => event.tsMs.toInt) events

/-- Append the rows of a provider. -/
def pushProvider (state : List (String×List (RawRow F))×PriceCache F)
    (group : String×List ServerEvent) : List (String×List (RawRow F))×PriceCache F :=
  let rendered := (inTime group.2).foldl (query.pushRow group.1) ([],state.2)
  (state.1++[(group.1,rendered.1)],rendered.2)

/-- List events; one provider is listed even if there are none. -/
def rawEvents (events : List ServerEvent) (truncated : Bool) : RawResponse F :=
  let providers := ((query.byProvider events).entries.foldl query.pushProvider
    ([],fun _ => none)).1
  ⟨if providers.isEmpty then [(query.providerFilter.getD "claude_code",[])] else providers,
    truncated⟩

/-- The row of an event at the price of its model. -/
def rowOf (provider : String) (event : ServerEvent) : RawRow F :=
  query.renderRow event (if query.includeCost then
    (query.pricing.get event.model).map fun price => eventCostForProvider price event provider
    else none)

/-- The rows of a group of events. -/
def listingOf (group : String×List ServerEvent) : String×List (RawRow F) :=
  (group.1,(inTime group.2).map (query.rowOf group.1))

/-- The row of an event under its own provider. -/
def ownRow (event : ServerEvent) : RawRow F := query.rowOf (providerKey event) event

/-- The rows of a group before it is sorted. -/
def groupRows (group : String×List ServerEvent) : List (RawRow F) :=
  group.2.map (query.rowOf group.1)

/-- The events listed under a provider. -/
def eventsOf (provider : String) (events : List ServerEvent) : List ServerEvent :=
  events.filter fun event => query.admits event && providerKey event=provider

/-- Prices that were looked up are those of the table. -/
def Sound (cache : PriceCache F) : Prop :=
  ∀ model price, cache model=some price → price=query.pricing.get model

variable {query}

omit [Zero F] [Add F] in
/-- A price is that of the table, whether it was looked up before or not. -/
theorem price_eq {cache : PriceCache F} (h : query.Sound cache) (model : String) :
    (query.price cache model).1=query.pricing.get model ∧
      query.Sound (query.price cache model).2 := by
  unfold price
  cases hcache : cache model with
  | some price => exact ⟨h model price hcache,h⟩
  | none =>
    refine ⟨rfl,fun other price hprice => ?_⟩
    dsimp only at hprice
    by_cases hother : other=model
    · subst hother
      rw [Function.update_self] at hprice
      exact (Option.some.inj hprice).symm
    · rw [Function.update_of_ne hother] at hprice
      exact h other price hprice

/-- Each event gets its row. -/
theorem pushRow_eq (provider : String) {state : List (RawRow F)×PriceCache F}
    (h : query.Sound state.2) (event : ServerEvent) :
    (query.pushRow provider state event).1=state.1++[query.rowOf provider event] ∧
      query.Sound (query.pushRow provider state event).2 := by
  obtain ⟨hprice,hsound⟩ := price_eq h event.model
  unfold pushRow rowOf
  split
  · dsimp only
    rw [hprice]
    exact ⟨rfl,hsound⟩
  · exact ⟨rfl,h⟩

/-- The rows of a provider are those of its events. -/
theorem foldl_pushRow (provider : String) {state : List (RawRow F)×PriceCache F}
    (h : query.Sound state.2) (events : List ServerEvent) :
    (events.foldl (query.pushRow provider) state).1=
        state.1++events.map (query.rowOf provider) ∧
      query.Sound (events.foldl (query.pushRow provider) state).2 := by
  induction events generalizing state with
  | nil => exact ⟨(List.append_nil _).symm,h⟩
  | cons event events ih =>
    obtain ⟨hrow,hsound⟩ := pushRow_eq provider h event
    obtain ⟨hrows,hend⟩ := ih hsound
    refine ⟨?_,hend⟩
    rw [List.foldl_cons,hrows,hrow,List.append_assoc]
    rfl

/-- The groups of events become groups of rows. -/
theorem foldl_pushProvider {state : List (String×List (RawRow F))×PriceCache F}
    (h : query.Sound state.2) (groups : List (String×List ServerEvent)) :
    (groups.foldl query.pushProvider state).1=state.1++groups.map query.listingOf := by
  induction groups generalizing state with
  | nil => exact (List.append_nil _).symm
  | cons group groups ih =>
    have hempty : query.Sound (([] : List (RawRow F)),state.2).2 := h
    obtain ⟨hrows,hsound⟩ := foldl_pushRow group.1 hempty (inTime group.2)
    have hgroup : (query.pushProvider state group).1=state.1++[query.listingOf group] := by
      show state.1++[(group.1,_)]=_
      rw [hrows]
      rfl
    rw [List.foldl_cons,ih hsound,hgroup,List.append_assoc]
    rfl

omit [Zero F] [Add F] [Mul F] [NatCast F] in
/-- Events are gathered by provider. -/
theorem byProvider_eq (events : List ServerEvent) :
    query.byProvider events=events.foldl (gather query.admits providerKey id) .empty := rfl

omit [Zero F] [Add F] [Mul F] [NatCast F] in
/-- A group holds the events of its provider, and is not empty. -/
theorem mem_byProvider {provider : String} {events group : List ServerEvent} :
    (provider,group)∈(query.byProvider events).entries ↔
      group=query.eventsOf provider events ∧ query.eventsOf provider events≠[] := by
  have hgathered : gathered query.admits providerKey id provider events=
      query.eventsOf provider events := List.map_id _
  rw [byProvider_eq,mem_gather,hgathered]

/-- The providers of a listing. -/
theorem providers_rawEvents (events : List ServerEvent) (truncated : Bool) :
    (query.rawEvents events truncated).providers=
      if (query.byProvider events).entries=[] then [(query.providerFilter.getD "claude_code",[])]
      else (query.byProvider events).entries.map query.listingOf := by
  have hempty : query.Sound (fun _ => none) := fun _ _ h => nomatch h
  have hstart : query.Sound (([] : List (String×List (RawRow F))),fun _ => none).2 := hempty
  unfold rawEvents
  rw [foldl_pushProvider hstart,List.nil_append]
  simp

omit [Zero F] [Add F] [Mul F] [NatCast F] in
/-- Without groups, the filter admits no event. -/
theorem byProvider_eq_nil {events : List ServerEvent} :
    (query.byProvider events).entries=[] ↔ ∀ event∈events, query.admits event=false := by
  rw [List.eq_nil_iff_forall_not_mem]
  constructor
  · intro h event hevent
    by_contra hadmits
    refine h (providerKey event,_) (mem_byProvider.mpr ⟨rfl,?_⟩)
    refine List.ne_nil_of_mem (List.mem_filter.mpr ⟨hevent,?_⟩)
    simpa using hadmits
  · rintro h ⟨provider,group⟩ hgroup
    obtain ⟨event,hevent⟩ := List.exists_mem_of_ne_nil _ (mem_byProvider.mp hgroup).2
    obtain ⟨hmem,hlisted⟩ := List.mem_filter.mp hevent
    rw [h event hmem] at hlisted
    cases hlisted

/-- Grouping the events neither loses nor repeats a row. -/
theorem rows_byProvider (events : List ServerEvent) :
    ((query.byProvider events).entries.flatMap query.groupRows).Perm
      ((events.filter query.admits).map query.ownRow) :=
  flatMap_gather_perm query.rowOf events

/-- Sorting the groups neither loses nor repeats a row. -/
theorem rows_listings (groups : List (String×List ServerEvent)) :
    ((groups.map query.listingOf).flatMap Prod.snd).Perm (groups.flatMap query.groupRows) := by
  induction groups with
  | nil => exact List.Perm.refl _
  | cons group groups ih => exact ((List.mergeSort_perm group.2 _).map _).append ih

/-- The providers that are listed, and their rows. -/
theorem mem_providers {provider : String} {rows : List (RawRow F)} {events : List ServerEvent}
    {truncated : Bool} : (provider,rows)∈(query.rawEvents events truncated).providers ↔
      rows=(inTime (query.eventsOf provider events)).map (query.rowOf provider) ∧
        (query.eventsOf provider events≠[] ∨ (∀ event∈events, query.admits event=false) ∧
          provider=query.providerFilter.getD "claude_code") := by
  rw [providers_rawEvents]
  split
  · rename_i hnil
    have hnone := byProvider_eq_nil.mp hnil
    have heventsOf : query.eventsOf provider events=[] :=
      List.filter_eq_nil_iff.mpr fun event hevent => by simp [hnone event hevent]
    simp only [heventsOf,inTime,sortByKey_nil,List.map_nil,List.mem_singleton,Prod.mk.injEq]
    constructor
    · rintro ⟨rfl,rfl⟩
      exact ⟨rfl,Or.inr ⟨hnone,rfl⟩⟩
    · rintro ⟨rfl,hempty | ⟨-,rfl⟩⟩
      · exact absurd rfl hempty
      · exact ⟨rfl,rfl⟩
  · rename_i hsome
    constructor
    · intro h
      obtain ⟨⟨name,group⟩,hgroup,heq⟩ := List.mem_map.mp h
      obtain ⟨rfl,rfl⟩ := Prod.mk.inj heq
      obtain ⟨rfl,hlisted⟩ := mem_byProvider.mp hgroup
      exact ⟨rfl,Or.inl hlisted⟩
    · rintro ⟨rfl,hlisted | ⟨hnone,-⟩⟩
      · exact List.mem_map.mpr ⟨(provider,query.eventsOf provider events),
          mem_byProvider.mpr ⟨rfl,hlisted⟩,rfl⟩
      · exact absurd (byProvider_eq_nil.mpr hnone) hsome

/-- A row that is listed is that of an event. -/
theorem event_of_row {provider : String} {rows : List (RawRow F)} {events : List ServerEvent}
    {truncated : Bool} (hrows : (provider,rows)∈(query.rawEvents events truncated).providers)
    {row : RawRow F} (hrow : row∈rows) :
    ∃ event∈events, query.admits event=true ∧ providerKey event=provider ∧
      row=query.ownRow event := by
  rw [(mem_providers.mp hrows).1] at hrow
  obtain ⟨event,hevent,rfl⟩ := List.mem_map.mp hrow
  obtain ⟨hmem,hlisted⟩ := List.mem_filter.mp ((List.mergeSort_perm _ _).mem_iff.mp hevent)
  obtain ⟨hadmits,hprovider⟩ := Bool.and_eq_true_iff.mp hlisted
  obtain rfl := of_decide_eq_true hprovider
  exact ⟨event,hmem,hadmits,rfl,rfl⟩

/-- An event that the filter admits is listed. -/
theorem row_of_event {event : ServerEvent} {events : List ServerEvent} {truncated : Bool}
    (hevent : event∈events) (hadmits : query.admits event=true) :
    ∃ rows, (providerKey event,rows)∈(query.rawEvents events truncated).providers ∧
      query.ownRow event∈rows := by
  have hlisted : event∈query.eventsOf (providerKey event) events :=
    List.mem_filter.mpr ⟨hevent,by simpa using hadmits⟩
  refine ⟨_,mem_providers.mpr ⟨rfl,Or.inl (List.ne_nil_of_mem hlisted)⟩,?_⟩
  exact List.mem_map_of_mem ((List.mergeSort_perm _ _).mem_iff.mpr hlisted)

/-- Providers ascend. -/
theorem ascending_providers (events : List ServerEvent) (truncated : Bool) :
    (query.rawEvents events truncated).providers.Pairwise fun a b => a.1<b.1 := by
  rw [providers_rawEvents]
  split
  · exact List.pairwise_singleton _ _
  · exact List.pairwise_map.mpr (query.byProvider events).ascending

/-- A listing neither loses nor repeats a row. -/
theorem rows_rawEvents (events : List ServerEvent) (truncated : Bool) :
    ((query.rawEvents events truncated).providers.flatMap Prod.snd).Perm
      ((events.filter query.admits).map query.ownRow) := by
  rw [providers_rawEvents]
  split
  · rename_i hnil
    have hfilter : events.filter query.admits=[] := List.filter_eq_nil_iff.mpr fun event hevent =>
      by simp [byProvider_eq_nil.mp hnil event hevent]
    rw [hfilter]
    exact List.Perm.refl _
  · exact (rows_listings _).trans (rows_byProvider events)

/-- A listing has the providers of the events that the filter admits in ascending
order, each with the rows of its events, at the prices of the table, as the one
list in which instants ascend and events of an instant keep their order; only if
there are none it has one provider without rows. Every admitted event has exactly
one row. -/
theorem listing_exact (query : RawQuery F) (events : List ServerEvent) (truncated : Bool) :
    (query.rawEvents events truncated).providers.Pairwise (fun a b => a.1<b.1) ∧
      (∀ provider rows, (provider,rows)∈(query.rawEvents events truncated).providers ↔
        (∃ listed, StablyOrdered (fun event => event.tsMs.toInt) (query.eventsOf provider events)
          listed ∧ rows=listed.map (query.rowOf provider)) ∧
        (query.eventsOf provider events≠[] ∨ (∀ event∈events, query.admits event=false) ∧
          provider=query.providerFilter.getD "claude_code")) ∧
      ((query.rawEvents events truncated).providers.flatMap Prod.snd).Perm
        ((events.filter query.admits).map query.ownRow) := by
  refine ⟨ascending_providers events truncated,fun provider rows => ?_,
    rows_rawEvents events truncated⟩
  simp only [stablyOrdered_iff,exists_eq_left]
  exact mem_providers

end

end RawQuery

end TokiSync.RawListings
