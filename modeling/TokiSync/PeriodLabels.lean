import TokiSync.AggregateEntries

/-!
# Period labels

A slot is rendered under a text that joins the local time of its bucket and
its group key. The local time has no bar in it, so the label gives both back;
it does not say which of two instants a repeated local time is, and then two
buckets share one period.
-/

namespace TokiSync.PeriodLabels

open TokiSync.OrderedEntries TokiSync.CappedTallies TokiSync.CalendarBuckets
open TokiSync.ServerEvents TokiSync.UsageAggregation TokiSync.ByteKeys

section

variable {F : Type} (query : AggregateQuery F) (printLocal : ℤ → String)

/-- Period text of a slot. -/
def label (slot : BucketKey) : String := query.periodStart printLocal slot.start++"|"++slot.group

/-- Local time at which a bucket starts. -/
def localStart (start : ℤ) : ℤ :=
  match query.tz with
  | some tz => tz.reading start
  | none => start

theorem periodStart_eq {start : ℤ} (h : minUtc≤ start ∧ start≤ maxUtc) :
    query.periodStart printLocal start=printLocal (localStart query start) := by
  unfold AggregateQuery.periodStart localStart
  rw [if_pos h]
  cases query.tz <;> rfl

/-- Entries under a provider and a period. -/
def periodEntries (perProvider : OrderedMap String (OrderedMap String (List (UsageEntry F))))
    (provider period : String) : List (UsageEntry F) :=
  ((perProvider.get provider).bind fun periods => periods.get period).getD []

/-- Whether a slot is rendered under a provider and a period. -/
def fallsInto (provider period : String) (slot : BucketKey×ModelBucket F) : Bool :=
  AggregateQuery.outputProvider slot.2=provider && label query printLocal slot.1=period

theorem periodEntries_pushEntry
    (perProvider : OrderedMap String (OrderedMap String (List (UsageEntry F))))
    (slot : BucketKey×ModelBucket F) (provider period : String) :
    periodEntries (query.pushEntry printLocal perProvider slot) provider period=
      periodEntries perProvider provider period++
        if fallsInto query printLocal provider period slot then
          [AggregateQuery.renderEntry slot.1.group slot.2] else [] := by
  unfold periodEntries AggregateQuery.pushEntry fallsInto
  rw [OrderedMap.get_enter]
  by_cases hp : provider=AggregateQuery.outputProvider slot.2
  · rw [if_pos hp,Option.bind_some,OrderedMap.get_enter]
    have hold : (perProvider.get (AggregateQuery.outputProvider slot.2)).bind
        (fun periods => periods.get period)=
        ((perProvider.get (AggregateQuery.outputProvider slot.2)).getD OrderedMap.empty).get
          period := by
      cases perProvider.get (AggregateQuery.outputProvider slot.2) with
      | none => rfl
      | some periods => rfl
    by_cases hl : period=label query printLocal slot.1
    · rw [hp,hold,hl,label,if_pos rfl]
      simp
    · rw [if_neg (by rw [← label]; exact hl),hp,hold]
      simp [Ne.symm hl]
  · rw [if_neg hp]
    simp [Ne.symm hp]

/-- The entries of a period are the rendered slots that fall into it. -/
theorem periodEntries_perProvider (slots : OrderedMap BucketKey (ModelBucket F))
    (provider period : String) :
    periodEntries (query.perProvider printLocal slots) provider period=
      (slots.entries.filter (fallsInto query printLocal provider period)).map
        fun slot => AggregateQuery.renderEntry slot.1.group slot.2 := by
  have run : ∀ (entries : List (BucketKey×ModelBucket F))
      (perProvider : OrderedMap String (OrderedMap String (List (UsageEntry F)))),
      periodEntries (entries.foldl (query.pushEntry printLocal) perProvider) provider period=
        periodEntries perProvider provider period++
          (entries.filter (fallsInto query printLocal provider period)).map
            fun slot => AggregateQuery.renderEntry slot.1.group slot.2 := by
    intro entries
    induction entries with
    | nil =>
      intro perProvider
      exact (List.append_nil _).symm
    | cons slot entries ih =>
      intro perProvider
      rw [List.foldl_cons,ih,periodEntries_pushEntry,List.append_assoc]
      by_cases hfalls : fallsInto query printLocal provider period slot
      · rw [if_pos hfalls,List.filter_cons_of_pos hfalls,List.map_cons,List.singleton_append]
      · rw [if_neg hfalls,List.filter_cons_of_neg hfalls,List.nil_append]
  exact run slots.entries OrderedMap.empty

/-- No period of the nested maps is empty. -/
theorem perProvider_ne_nil (slots : OrderedMap BucketKey (ModelBucket F)) {provider : String}
    {periods : OrderedMap String (List (UsageEntry F))} {period : String}
    {entries : List (UsageEntry F)}
    (hprovider : (query.perProvider printLocal slots).get provider=some periods)
    (hperiod : periods.get period=some entries) : entries≠[] := by
  have run : ∀ (stored : List (BucketKey×ModelBucket F))
      (perProvider : OrderedMap String (OrderedMap String (List (UsageEntry F)))),
      (∀ name periods, perProvider.get name=some periods →
        ∀ text entries, periods.get text=some entries → entries≠[]) →
      ∀ name periods, (stored.foldl (query.pushEntry printLocal) perProvider).get name=some periods →
        ∀ text entries, periods.get text=some entries → entries≠[] := by
    intro stored
    induction stored with
    | nil =>
      intro perProvider h
      exact h
    | cons slot stored ih =>
      intro perProvider h
      refine ih _ fun name periods hname text entries htext => ?_
      unfold AggregateQuery.pushEntry at hname
      rw [OrderedMap.get_enter] at hname
      by_cases hp : name=AggregateQuery.outputProvider slot.2
      · rw [if_pos hp] at hname
        rw [← Option.some.inj hname,OrderedMap.get_enter] at htext
        split_ifs at htext with hl
        · rw [← Option.some.inj htext]
          simp
        · cases hold : perProvider.get (AggregateQuery.outputProvider slot.2) with
          | none =>
            rw [hold] at htext
            cases htext
          | some old =>
            rw [hold] at htext
            exact h _ old hold text entries htext
      · rw [if_neg hp] at hname
        exact h name periods hname text entries htext
  exact run slots.entries OrderedMap.empty (by simp) provider periods hprovider period entries
    hperiod

variable [Zero F] [Add F] [Mul F] [NatCast F] (events : List ServerEvent)

/-- A slot of a response: that of a counted event before which the events have
fewer slots than the cap. -/
def Kept (slot : BucketKey) : Prop :=
  ∃ earlier event later, events.filter query.admits=earlier++event::later ∧
    query.key event=slot ∧ (earlier.map query.key).dedup.length< maxBucketEntries

/-- Different slots of a provider have different labels, and every period
holds one entry. -/
structure LabelsDistinct : Prop where
  /-- A label belongs to one slot of a provider. -/
  labels : ∀ a b, Kept query events a → Kept query events b → a.provider=b.provider →
    label query printLocal a=label query printLocal b → a=b
  /-- A period of the response holds one entry. -/
  periods : ∀ named∈(query.aggregateEvents printLocal events).providers, ∀ period∈named.2,
    period.usagePerModels.length=1

/-- Buckets of one provider and group key do not start at one local time. -/
def NoRepeatedStart : Prop :=
  ∀ a b, Kept query events a → Kept query events b → a.provider=b.provider → a.group=b.group →
    localStart query a.start=localStart query b.start → a.start=b.start

/-- What the printer of local times does on the buckets of the events: they lie
in the calendar, different times print differently and without a bar. -/
structure PrintsStarts : Prop where
  /-- The buckets start inside the calendar. -/
  inside : ∀ event∈events, query.admits event →
    minUtc≤query.bucketSec event ∧ query.bucketSec event≤ maxUtc
  /-- A printed time has no bar. -/
  no_bar : ∀ event∈events, query.admits event →
    '|'∉(printLocal (localStart query (query.bucketSec event))).toList
  /-- Different times print differently. -/
  injective : ∀ first∈events, ∀ second∈events, query.admits first → query.admits second →
    printLocal (localStart query (query.bucketSec first))=
      printLocal (localStart query (query.bucketSec second)) →
    localStart query (query.bucketSec first)=localStart query (query.bucketSec second)

variable {query printLocal events}

omit [Zero F] [Add F] [Mul F] [NatCast F] in
theorem Kept.exists_event {slot : BucketKey} (h : Kept query events slot) :
    ∃ event∈events, query.admits event ∧ query.key event=slot := by
  obtain ⟨earlier,event,later,hsplit,hkey,-⟩ := h
  have hmem : event∈events.filter query.admits := by
    rw [hsplit]
    simp
  obtain ⟨hevent,hadmits⟩ := List.mem_filter.mp hmem
  exact ⟨event,hevent,hadmits,hkey⟩

/-- The stored slots are the kept ones. -/
theorem kept_iff {slot : BucketKey} :
    Kept query events slot ↔ ((query.buckets events).slots.get slot).isSome := by
  rw [query.buckets_eq_tally,isSome_get_tally_iff]
  rfl

omit [Zero F] [Add F] [Mul F] [NatCast F] in
/-- A kept slot starts at a printed time. -/
theorem PrintsStarts.label_eq (h : PrintsStarts query printLocal events) {slot : BucketKey}
    (hkept : Kept query events slot) : label query printLocal slot=
      printLocal (localStart query slot.start)++"|"++slot.group := by
  obtain ⟨event,hevent,hadmits,rfl⟩ := hkept.exists_event
  have hinside : minUtc≤(query.key event).start ∧ (query.key event).start≤ maxUtc :=
    h.inside event hevent hadmits
  unfold label
  rw [periodStart_eq query printLocal hinside]

omit [Zero F] [Add F] [Mul F] [NatCast F] in
/-- Kept slots have one label when they start at one local time and have one
group key. -/
theorem PrintsStarts.label_inj (h : PrintsStarts query printLocal events) {a b : BucketKey}
    (ha : Kept query events a) (hb : Kept query events b) :
    label query printLocal a=label query printLocal b ↔
      localStart query a.start=localStart query b.start ∧ a.group=b.group := by
  rw [h.label_eq ha,h.label_eq hb]
  obtain ⟨first,hfirst,hadmits,rfl⟩ := ha.exists_event
  obtain ⟨second,hsecond,hadmits',rfl⟩ := hb.exists_event
  constructor
  · intro heq
    obtain ⟨hprinted,hgroup⟩ := joined_inj rfl (h.no_bar first hfirst hadmits)
      (h.no_bar second hsecond hadmits') heq
    exact ⟨h.injective first hfirst second hsecond hadmits hadmits' hprinted,hgroup⟩
  · rintro ⟨hstart,hgroup⟩
    rw [hstart,hgroup]

/-- Slots of a provider whose labels differ make periods of one entry. -/
theorem length_periodEntries
    (hlabels : ∀ a b, Kept query events a → Kept query events b → a.provider=b.provider →
      label query printLocal a=label query printLocal b → a=b) (provider period : String) :
    (periodEntries (query.perProvider printLocal (query.buckets events).slots) provider
      period).length≤1 := by
  rw [periodEntries_perProvider,List.length_map]
  have hkept : ∀ slot∈(query.buckets events).slots.entries.filter
      (fallsInto query printLocal provider period), Kept query events slot.1 ∧
        slot.1.provider=provider ∧ label query printLocal slot.1=period := by
    intro slot hslot
    obtain ⟨hstored,hfalls⟩ := List.mem_filter.mp hslot
    rw [fallsInto,Bool.and_eq_true,decide_eq_true_eq,decide_eq_true_eq,
      query.outputProvider_slot hstored] at hfalls
    refine ⟨kept_iff.mpr ((query.buckets events).slots.isSome_get_iff.mpr ?_),hfalls⟩
    exact List.mem_map_of_mem hstored
  have hnodup : (((query.buckets events).slots.entries.filter
      (fallsInto query printLocal provider period)).map Prod.fst).Nodup :=
    (query.buckets events).slots.nodup_keys.sublist (List.filter_sublist.map _)
  generalize (query.buckets events).slots.entries.filter
    (fallsInto query printLocal provider period)=falling at hkept hnodup
  match falling with
  | [] => exact Nat.zero_le _
  | [_] => exact le_rfl
  | first::second::rest =>
    obtain ⟨ha,hp,hl⟩ := hkept first (by simp)
    obtain ⟨hb,hp',hl'⟩ := hkept second (by simp)
    have hsame := hlabels first.1 second.1 ha hb (hp.trans hp'.symm) (hl.trans hl'.symm)
    simp [hsame] at hnodup

/-- The periods of a response are those of the nested maps. -/
theorem exists_stored {named : String×List (Period F)} {period : Period F}
    (hnamed : named∈(query.aggregateEvents printLocal events).providers)
    (hperiod : period∈named.2) : ∃ periods entries,
      (query.perProvider printLocal (query.buckets events).slots).get named.1=some periods ∧
        periods.get period.period=some entries ∧ period.usagePerModels=entries := by
  unfold AggregateQuery.aggregateEvents at hnamed
  dsimp only at hnamed
  split_ifs at hnamed with hempty
  · rw [List.mem_singleton] at hnamed
    rw [hnamed] at hperiod
    cases hperiod
  · obtain ⟨stored,hstored,rfl⟩ := List.mem_map.mp hnamed
    obtain ⟨entry,hentry,rfl⟩ := List.mem_map.mp hperiod
    exact ⟨stored.2,entry.2,(OrderedMap.get_eq_some_iff _).mpr hstored,
      (OrderedMap.get_eq_some_iff _).mpr hentry,rfl⟩

/-- The labels tell the slots of every provider apart exactly when no provider
has two buckets of one group key that start at one local time. -/
theorem labelsDistinct_iff (h : PrintsStarts query printLocal events) :
    LabelsDistinct query printLocal events ↔ NoRepeatedStart query events := by
  constructor
  · intro hdistinct a b ha hb hprovider hgroup hstart
    exact congrArg BucketKey.start
      (hdistinct.labels a b ha hb hprovider ((h.label_inj ha hb).mpr ⟨hstart,hgroup⟩))
  · intro hstarts
    have hlabels : ∀ a b, Kept query events a → Kept query events b → a.provider=b.provider →
        label query printLocal a=label query printLocal b → a=b := by
      intro a b ha hb hprovider hlabel
      obtain ⟨hlocal,hgroup⟩ := (h.label_inj ha hb).mp hlabel
      have hstart := hstarts a b ha hb hprovider hgroup hlocal
      cases a
      cases b
      cases hstart
      cases hprovider
      cases hgroup
      rfl
    refine ⟨hlabels,fun named hnamed period hperiod => ?_⟩
    obtain ⟨periods,entries,hget,hget',hentries⟩ := exists_stored hnamed hperiod
    have hshort := length_periodEntries hlabels named.1 period.period
    have hne := perProvider_ne_nil query printLocal _ hget hget'
    unfold periodEntries at hshort
    rw [hget,Option.bind_some,hget',Option.getD_some,← hentries] at hshort
    rw [← hentries] at hne
    have hpos := List.length_pos_of_ne_nil hne
    omega

end

/-- Without a zone no start is repeated. -/
theorem noRepeatedStart_of_utc {F : Type} [Zero F] [Add F] [Mul F] [NatCast F]
    {query : AggregateQuery F} {events : List ServerEvent} (h : query.tz=none) :
    NoRepeatedStart query events := by
  intro a b _ _ _ _ hstart
  unfold localStart at hstart
  rw [h] at hstart
  exact hstart

/-- A zone that is set back by an hour, one day behind the epoch. -/
def autumnBack : Tz := ⟨3600,[(86400,0)],List.pairwise_singleton _ _⟩

/-- An hourly usage query over two days in that zone. -/
def hourlyQuery (tz : Option Tz) : AggregateQuery ℕ where
  stepSecs := 3600
  sinceMs := 0
  untilMs := 172800000
  isEvents := false
  groupBy := "model"
  providerFilter := none
  pricing := ⟨fun _ => none⟩
  tz := tz
  startOfWeek := none
  includeCost := false

/-- Two events an hour apart, around the change. -/
def aroundChange : List ServerEvent :=
  [⟨"d","u","1",82800000,"codex","gpt","toki","",8,4,0,2,12⟩,
    ⟨"d","u","2",86400000,"codex","gpt","toki","",3,1,0,0,4⟩]

/-- Local times of the two buckets. -/
def printSample (reading : ℤ) : String :=
  if reading=82800 then "1970-01-01T23:00:00" else "1970-01-02T00:00:00"

/-- Without a zone the two hours have labels of their own. -/
theorem labelsDistinct_utc : LabelsDistinct (hourlyQuery none) printSample aroundChange := by
  refine (labelsDistinct_iff ⟨?_,?_,?_⟩).mpr (noRepeatedStart_of_utc rfl)
  · decide +kernel
  · decide +kernel
  · decide +kernel

/-- In the zone both hours are midnight, and one period holds two entries. -/
theorem labels_collide : ¬LabelsDistinct (hourlyQuery (some autumnBack)) printSample aroundChange ∧
    ((hourlyQuery (some autumnBack)).aggregateEvents printSample aroundChange).providers.map
      (fun named => named.2.map fun period =>
        (period.period,period.usagePerModels.map fun entry => entry.inputTokens))=
      [[("1970-01-02T00:00:00|gpt",[8,3])]] := by
  refine ⟨fun h => ?_,by decide +kernel⟩
  have hcollide := h.labels ⟨82800,"codex","gpt"⟩ ⟨86400,"codex","gpt"⟩
    ⟨[],_,_,by rfl,by decide +kernel,by decide +kernel⟩
    ⟨[_],_,[],by rfl,by decide +kernel,by decide +kernel⟩ rfl (by decide +kernel)
  cases hcollide

end TokiSync.PeriodLabels
