import TokiSync.UsageAggregation

/-!
# What the entries of an aggregated response count

The entries a response has for a provider and a group key are the rendered
slots of that provider and key, and a slot is the total of the admitted events
that share its key. The number an entry shows is the number of its events, up
to the largest word.
-/

namespace TokiSync.UsageAggregation

open TokiSync.OrderedEntries TokiSync.CappedTallies TokiSync.CalendarBuckets TokiSync.ServerEvents

variable {F : Type}

/-- The entries of a response for a provider and a group key. -/
def AggregateResponse.entriesFor (response : AggregateResponse F) (provider group : String) :
    List (UsageEntry F) :=
  response.providers.flatMap fun (name,periods) =>
    if name=provider then
      periods.flatMap fun period => period.usagePerModels.filter fun entry => entry.model=group
    else []

/-- The entries of a response for a provider. -/
def AggregateResponse.entriesOf (response : AggregateResponse F) (provider : String) :
    List (UsageEntry F) :=
  response.providers.flatMap fun (name,periods) =>
    if name=provider then periods.flatMap Period.usagePerModels else []

/-- The entries of nested maps for a provider. -/
def providerEntries (provider : String)
    (perProvider : OrderedMap String (OrderedMap String (List (UsageEntry F)))) :
    List (UsageEntry F) :=
  perProvider.entries.flatMap fun (name,periods) =>
    if name=provider then periods.entries.flatMap Prod.snd else []

/-- The entries of nested maps for a provider and a group key. -/
def storedEntries (provider group : String)
    (perProvider : OrderedMap String (OrderedMap String (List (UsageEntry F)))) :
    List (UsageEntry F) :=
  perProvider.entries.flatMap fun (name,periods) =>
    if name=provider then
      periods.entries.flatMap fun (_,entries) => entries.filter fun entry => entry.model=group
    else []

/-- Whether a slot is rendered under a provider. -/
def rendersUnder (provider : String) (slot : BucketKey×ModelBucket F) : Bool :=
  AggregateQuery.outputProvider slot.2=provider

/-- Whether a slot is rendered under a provider and a group key. -/
def rendersFor (provider group : String) (slot : BucketKey×ModelBucket F) : Bool :=
  AggregateQuery.outputProvider slot.2=provider && slot.1.group=group

namespace AggregateQuery

variable (query : AggregateQuery F) (printLocal : ℤ → String)

/-- Pushing a slot adds its entry under its own provider. -/
theorem providerEntries_pushEntry (provider : String)
    (perProvider : OrderedMap String (OrderedMap String (List (UsageEntry F))))
    (slot : BucketKey×ModelBucket F) :
    (providerEntries provider (query.pushEntry printLocal perProvider slot)).Perm
      ((if rendersUnder provider slot then [renderEntry slot.1.group slot.2] else [])++
        providerEntries provider perProvider) := by
  refine flatMap_place_perm _ fun old => ?_
  by_cases hp : outputProvider slot.2=provider
  · have hpush : ∀ entries : Option (List (UsageEntry F)),
        (entries.getD []++[renderEntry slot.1.group slot.2]).Perm
          ([renderEntry slot.1.group slot.2]++(entries.map id).getD []) := by
      intro entries
      rw [Option.map_id]
      exact List.perm_append_comm
    have hperiods :
        ((place (query.periodStart printLocal slot.1.start++"|"++slot.1.group)
          (fun entries => entries.getD []++[renderEntry slot.1.group slot.2])
          (old.getD OrderedMap.empty).entries).flatMap Prod.snd).Perm
        ([renderEntry slot.1.group slot.2]++
          (old.getD OrderedMap.empty).entries.flatMap Prod.snd) :=
      flatMap_place_perm _ hpush
    have hold : (old.map fun periods => if outputProvider slot.2=provider then
        periods.entries.flatMap Prod.snd else []).getD []=
        (old.getD OrderedMap.empty).entries.flatMap Prod.snd := by
      cases old with
      | none => rfl
      | some periods => simp [hp]
    rw [hold]
    simp only [rendersUnder,hp,decide_true]
    exact hperiods
  · simp only [rendersUnder,hp,decide_false]
    cases old with
    | none => exact List.Perm.nil
    | some periods => exact List.Perm.nil

/-- The nested maps hold exactly the rendered slots. -/
theorem providerEntries_perProvider (provider : String)
    (slots : OrderedMap BucketKey (ModelBucket F)) :
    (providerEntries provider (query.perProvider printLocal slots)).Perm
      ((slots.entries.filter (rendersUnder provider)).map
        fun slot => renderEntry slot.1.group slot.2) := by
  have run : ∀ (entries : List (BucketKey×ModelBucket F))
      (perProvider : OrderedMap String (OrderedMap String (List (UsageEntry F)))),
      (providerEntries provider (entries.foldl (query.pushEntry printLocal) perProvider)).Perm
        ((entries.filter (rendersUnder provider)).map
          (fun slot => renderEntry slot.1.group slot.2)++
          providerEntries provider perProvider) := by
    intro entries
    induction entries with
    | nil =>
      intro perProvider
      exact List.Perm.refl _
    | cons slot entries ih =>
      intro perProvider
      have hpush := query.providerEntries_pushEntry printLocal provider perProvider slot
      refine (ih _).trans ((hpush.append_left _).trans ?_)
      by_cases hr : rendersUnder provider slot
      · rw [if_pos hr,List.filter_cons_of_pos hr,List.map_cons]
        exact List.perm_middle
      · rw [if_neg hr,List.filter_cons_of_neg hr]
        exact List.Perm.refl _
  have h := run slots.entries OrderedMap.empty
  have hnil : providerEntries provider
      (OrderedMap.empty : OrderedMap String (OrderedMap String (List (UsageEntry F))))=[] := rfl
  rw [hnil,List.append_nil] at h
  exact h

/-- Those of a group key. -/
theorem storedEntries_perProvider (provider group : String)
    (slots : OrderedMap BucketKey (ModelBucket F)) :
    (storedEntries provider group (query.perProvider printLocal slots)).Perm
      ((slots.entries.filter (rendersFor provider group)).map
        fun slot => renderEntry slot.1.group slot.2) := by
  have hstored : ∀ perProvider : OrderedMap String (OrderedMap String (List (UsageEntry F))),
      storedEntries provider group perProvider=
        (providerEntries provider perProvider).filter fun entry => entry.model=group := by
    intro perProvider
    unfold storedEntries providerEntries
    rw [List.filter_flatMap]
    refine List.flatMap_congr fun named _ => ?_
    by_cases hp : named.1=provider
    · simp only [if_pos hp,List.filter_flatMap]
    · simp only [if_neg hp,List.filter_nil]
  rw [hstored]
  refine ((query.providerEntries_perProvider printLocal provider slots).filter _).trans
    (List.Perm.of_eq ?_)
  rw [List.filter_map,List.filter_filter]
  congr 1
  refine List.filter_congr fun slot _ => ?_
  exact Bool.and_comm _ _

variable [Zero F] [Add F] [Mul F] [NatCast F]

/-- The entries of a response are its rendered slots. -/
theorem entriesFor_aggregateEvents (events : List ServerEvent) (provider group : String) :
    ((query.aggregateEvents printLocal events).entriesFor provider group).Perm
      (((query.buckets events).slots.entries.filter (rendersFor provider group)).map
        fun slot => renderEntry slot.1.group slot.2) := by
  refine List.Perm.trans (List.Perm.of_eq ?_)
    (query.storedEntries_perProvider printLocal provider group (query.buckets events).slots)
  unfold AggregateResponse.entriesFor storedEntries aggregateEvents
  cases h : (query.perProvider printLocal (query.buckets events).slots).entries with
  | nil => simp [h]
  | cons first rest => simp [h,List.flatMap_map]

/-- The entries of a response for a provider are its rendered slots. -/
theorem entriesOf_aggregateEvents (events : List ServerEvent) (provider : String) :
    ((query.aggregateEvents printLocal events).entriesOf provider).Perm
      (((query.buckets events).slots.entries.filter (rendersUnder provider)).map
        fun slot => renderEntry slot.1.group slot.2) := by
  refine List.Perm.trans (List.Perm.of_eq ?_)
    (query.providerEntries_perProvider printLocal provider (query.buckets events).slots)
  unfold AggregateResponse.entriesOf providerEntries aggregateEvents
  cases h : (query.perProvider printLocal (query.buckets events).slots).entries with
  | nil => simp [h]
  | cons first rest => simp [h,List.flatMap_map]

/-- Whether an event counts at all. -/
def admits (event : ServerEvent) : Bool :=
  query.inRange event && query.overlaps event && query.matchesProvider event

/-- The slots are the capped tally of the admitted events. -/
theorem buckets_eq_tally (events : List ServerEvent) :
    query.buckets events=tally query.key query.accumulate (ModelBucket.default F) maxBucketEntries
      (events.filter query.admits) := by
  unfold buckets tally
  rw [List.foldl_filter]
  congr 1
  funext slots event
  unfold visit admits
  cases query.inRange event <;> cases query.overlaps event <;>
    cases query.matchesProvider event <;> rfl

/-- A slot takes the first provider its events name. -/
theorem accumulate_provider (entry : ModelBucket F) (event : ServerEvent) :
    (query.accumulate entry event).provider=
      if entry.provider="" then event.provider else entry.provider := by
  unfold accumulate
  by_cases hp : entry.provider=""
  · by_cases he : event.provider=""
    · cases query.isEvents <;> simp [hp,he]
    · cases query.isEvents <;> simp [hp,he]
  · cases query.isEvents <;> simp [hp]

/-- Every event is counted. -/
theorem accumulate_events (entry : ModelBucket F) (event : ServerEvent) :
    (query.accumulate entry event).events=saturatingAdd entry.events 1 := by
  unfold accumulate
  cases query.isEvents <;> rfl

/-- The slot of some events. -/
def total (events : List ServerEvent) : ModelBucket F :=
  events.foldl query.accumulate (ModelBucket.default F)

/-- A slot shows the number of its events, up to the largest word. -/
theorem total_events (events : List ServerEvent) :
    (query.total events).events.toNat=min events.length (2^64-1) := by
  have run : ∀ (events : List ServerEvent) (entry : ModelBucket F),
      (events.foldl query.accumulate entry).events.toNat=
        min (entry.events.toNat+events.length) (2^64-1) := by
    intro events
    induction events with
    | nil =>
      intro entry
      have hlt := entry.events.toNat_lt
      simp only [List.foldl_nil,List.length_nil]
      omega
    | cons event events ih =>
      intro entry
      have hone : (1 : UInt64).toNat=1 := rfl
      rw [List.foldl_cons,ih,query.accumulate_events,saturatingAdd_toNat,List.length_cons,hone]
      omega
  have h := run events (ModelBucket.default F)
  have hzero : (ModelBucket.default F).events.toNat=0 := rfl
  rw [hzero,Nat.zero_add] at h
  exact h

/-- Events that count for one provider make a slot rendered under it. -/
theorem outputProvider_total {events : List ServerEvent} {provider : String}
    (hne : events≠[]) (hall : ∀ event∈events, providerKey event=provider) :
    outputProvider (query.total events)=provider := by
  have step : ∀ (entry : ModelBucket F) (event : ServerEvent),
      outputProvider (query.accumulate entry event)=
        if entry.provider="" then providerKey event else outputProvider entry := by
    intro entry event
    unfold outputProvider providerKey
    rw [query.accumulate_provider]
    by_cases hp : entry.provider=""
    · simp [hp]
    · simp [hp]
  have run : ∀ (events : List ServerEvent) (entry : ModelBucket F),
      (∀ event∈events, providerKey event=provider) → outputProvider entry=provider →
      outputProvider (events.foldl query.accumulate entry)=provider := by
    intro events
    induction events with
    | nil =>
      intro entry _ h
      exact h
    | cons event events ih =>
      intro entry hall h
      refine ih _ (fun e he => hall e (List.mem_cons_of_mem _ he)) ?_
      rw [step]
      by_cases hp : entry.provider=""
      · rw [if_pos hp]
        exact hall event List.mem_cons_self
      · rw [if_neg hp]
        exact h
  cases events with
  | nil => exact absurd rfl hne
  | cons event events =>
    refine run events _ (fun e he => hall e (List.mem_cons_of_mem _ he)) ?_
    have hfresh : (ModelBucket.default F).provider="" := rfl
    rw [step,if_pos hfresh]
    exact hall event List.mem_cons_self

/-- Events of a slot. -/
def ofKey (events : List ServerEvent) (slot : BucketKey) : List ServerEvent :=
  (events.filter query.admits).filter fun event => query.key event=slot

/-- A stored slot is the total of its events, of which there are some. -/
theorem slot_eq_total {events : List ServerEvent} {slot : BucketKey} {bucket : ModelBucket F}
    (h : (slot,bucket)∈(query.buckets events).slots.entries) :
    bucket=query.total (query.ofKey events slot) ∧ query.ofKey events slot≠[] := by
  have hget := (query.buckets events).slots.get_eq_some_iff.mpr h
  rw [query.buckets_eq_tally] at hget
  have hrun := tallied query.key query.accumulate (ModelBucket.default F) maxBucketEntries
    (events.filter query.admits)
  constructor
  · rw [hrun.totals _ _ hget]
    rfl
  · obtain ⟨event,hmem,hkey⟩ := hrun.keyed slot (by rw [hget]; rfl)
    intro hnil
    have hin : event∈query.ofKey events slot := List.mem_filter.mpr ⟨hmem,by simpa using hkey⟩
    rw [hnil] at hin
    cases hin

/-- A stored slot is rendered under the provider of its key. -/
theorem outputProvider_slot {events : List ServerEvent} {slot : BucketKey}
    {bucket : ModelBucket F} (h : (slot,bucket)∈(query.buckets events).slots.entries) :
    outputProvider bucket=slot.provider := by
  obtain ⟨htotal,hne⟩ := query.slot_eq_total h
  rw [htotal]
  refine query.outputProvider_total hne fun event hmem => ?_
  have hkey : query.key event=slot := by simpa using (List.mem_filter.mp hmem).2
  rw [← hkey]
  rfl

/-- A response that is not truncated has every admitted event in the slot of
its key, so the stored slots that pass a test partition the events whose keys
do. -/
theorem flatMap_ofKey {events : List ServerEvent}
    (hopen : (query.buckets events).truncated=false) (p : BucketKey → Bool) :
    ((((query.buckets events).slots.entries.map Prod.fst).filter p).flatMap
      (query.ofKey events)).Perm
        ((events.filter query.admits).filter fun event => p (query.key event)) := by
  have hrun := tallied query.key query.accumulate (ModelBucket.default F) maxBucketEntries
    (events.filter query.admits)
  rw [← query.buckets_eq_tally] at hrun
  have hstored : ∀ event∈(events.filter query.admits).filter fun event => p (query.key event),
      query.key event∈((query.buckets events).slots.entries.map Prod.fst).filter p := by
    intro event hmem
    have hevent := List.mem_filter.mp hmem
    have hsome := hrun.complete hopen event hevent.1
    exact List.mem_filter.mpr ⟨(query.buckets events).slots.isSome_get_iff.mp hsome,hevent.2⟩
  have hpartition := flatMap_filter_perm query.key
    ((events.filter query.admits).filter fun event => p (query.key event))
    ((query.buckets events).slots.nodup_keys.filter _) hstored
  refine (List.Perm.of_eq ?_).trans hpartition
  refine List.flatMap_congr fun slot hslot => ?_
  have hpasses := (List.mem_filter.mp hslot).2
  unfold ofKey
  generalize events.filter query.admits=admitted
  rw [List.filter_filter]
  refine List.filter_congr fun event _ => ?_
  by_cases hkey : query.key event=slot
  · simp [hkey,hpasses]
  · simp [hkey]

/-- Entry of a group of events. -/
def entryOf (group : String) (events : List ServerEvent) : UsageEntry F :=
  renderEntry group (query.total events)

@[simp] theorem entryOf_events (group : String) (events : List ServerEvent) :
    (query.entryOf group events).events.toNat=min events.length (2^64-1) :=
  query.total_events events

/-- Stored slots of a provider and a group key. -/
def slotsFor (events : List ServerEvent) (provider group : String) : List BucketKey :=
  ((query.buckets events).slots.entries.map Prod.fst).filter fun slot =>
    slot.provider=provider && slot.group=group

/-- The entries for a provider and a group key: one for each stored slot, made
of the events of the slot. -/
theorem entriesFor_perm (events : List ServerEvent) (provider group : String) :
    ((query.aggregateEvents printLocal events).entriesFor provider group).Perm
      ((query.slotsFor events provider group).map fun slot =>
        query.entryOf group (query.ofKey events slot)) := by
  refine (query.entriesFor_aggregateEvents printLocal events provider group).trans
    (List.Perm.of_eq ?_)
  have hrenders : (query.buckets events).slots.entries.filter (rendersFor provider group)=
      (query.buckets events).slots.entries.filter fun slot =>
        slot.1.provider=provider && slot.1.group=group := by
    refine List.filter_congr fun slot hslot => ?_
    unfold rendersFor
    rw [query.outputProvider_slot hslot]
  rw [hrenders,slotsFor,List.filter_map,List.map_map]
  refine List.map_congr_left fun slot hslot => ?_
  have hmem := List.mem_filter.mp hslot
  have hgroup : slot.1.group=group := by
    have h := hmem.2
    simp only [Bool.and_eq_true,decide_eq_true_eq] at h
    exact h.2
  show renderEntry slot.1.group slot.2=query.entryOf group (query.ofKey events slot.1)
  rw [hgroup,(query.slot_eq_total hmem.1).1]
  rfl

/-- The stored slots are distinct. -/
theorem nodup_slotsFor (events : List ServerEvent) (provider group : String) :
    (query.slotsFor events provider group).Nodup :=
  (query.buckets events).slots.nodup_keys.filter _

end AggregateQuery

end TokiSync.UsageAggregation
