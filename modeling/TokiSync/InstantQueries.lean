import TokiSync.BucketLosses

/-!
# Instant queries

A request without a step is aggregated with its range length as the step.
Buckets still start at multiples of that step, so the range may be cut in two
and a provider and group key may then have two entries. The response has one
entry for each, summing all events of the range, exactly when all events of a
provider and group key lie in one bucket that overlaps the range, and neither
the ceiling of events nor the cap of entries is reached.
-/

namespace TokiSync.InstantQueries

open TokiSync.OrderedEntries TokiSync.CappedTallies TokiSync.AdminAccounts
open TokiSync.ServerEvents TokiSync.UsageAggregation TokiSync.VirtualQueries
open TokiSync.TokiQuery TokiSync.BucketLosses

variable {F : Type} [Zero F] [Add F] [Mul F] [NatCast F]

/-- Every provider and group key with events in the range has one entry, the
sum of all of them; no other has an entry. -/
def SingleEntries (query : AggregateQuery F) (stored : List ServerEvent)
    (response : AggregateResponse F) : Prop :=
  ∀ provider group, response.entriesFor provider group=
    if stored.filter (wanted query provider group)=[] then []
    else [query.entryOf group (stored.filter (wanted query provider group))]

/-- Whether an event of the range passes the provider matcher. -/
def selected (query : AggregateQuery F) (event : ServerEvent) : Bool :=
  query.inRange event && query.matchesProvider event

/-- Provider and group key of an event. -/
def groupOf (query : AggregateQuery F) (event : ServerEvent) : String×String :=
  (providerKey event,groupKey query event)

/-- The events to count are read, each provider and group key of them lies in
one bucket, the buckets overlap the range, and there is room for all entries. -/
structure OneBucket (query : AggregateQuery F) (stored : List ServerEvent) : Prop where
  /-- No event to count lies behind the ceiling. -/
  read : ∀ event∈stored.drop maxQueryEvents, ¬selected query event
  /-- Every bucket of an event to count overlaps the range. -/
  overlaps : ∀ event∈stored, selected query event → query.overlaps event
  /-- Events to count of one provider and group key share their bucket. -/
  together : ∀ event∈stored, ∀ other∈stored, selected query event → selected query other →
    groupOf query event=groupOf query other → query.bucketSec event=query.bucketSec other
  /-- There are no more groups than entries allowed. -/
  room : ((stored.filter (selected query)).map (groupOf query)).dedup.length≤ maxBucketEntries

variable {query : AggregateQuery F} {stored : List ServerEvent}

omit [Zero F] [Add F] [Mul F] [NatCast F] in
/-- An event is wanted for its own provider and group key. -/
theorem wanted_iff {provider group : String} {event : ServerEvent} :
    wanted query provider group event ↔
      selected query event ∧ groupOf query event=(provider,group) := by
  unfold wanted selected belongs groupOf
  simp [Prod.mk.injEq]

omit [Zero F] [Add F] [Mul F] [NatCast F] in
theorem admits_iff {event : ServerEvent} :
    query.admits event ↔ selected query event ∧ query.overlaps event := by
  unfold AggregateQuery.admits selected
  simp only [Bool.and_eq_true]
  tauto

omit [Zero F] [Add F] [Mul F] [NatCast F] in
/-- The key of an event is its bucket with its provider and group key. -/
theorem key_eq_iff {event other : ServerEvent} :
    query.key event=query.key other ↔
      query.bucketSec event=query.bucketSec other ∧ groupOf query event=groupOf query other := by
  unfold AggregateQuery.key groupOf groupKey
  simp [Prod.mk.injEq]

/-- A slot for a provider and a group key has an event, which is one of those
to count. -/
theorem exists_of_mem_slotsFor {events : List ServerEvent} {provider group : String}
    {slot : BucketKey} (h : slot∈query.slotsFor events provider group) :
    slot.provider=provider ∧ slot.group=group ∧
      ∃ event∈events, query.admits event ∧ query.key event=slot := by
  have hmem := List.mem_filter.mp h
  have hnames := hmem.2
  simp only [Bool.and_eq_true,decide_eq_true_eq] at hnames
  obtain ⟨entry,hentry,hslot⟩ := List.mem_map.mp hmem.1
  have hne : query.ofKey events entry.1≠[] := (query.slot_eq_total hentry).2
  obtain ⟨event,hevent⟩ := List.exists_mem_of_ne_nil _ hne
  have hkey := List.mem_filter.mp hevent
  have hadmitted := List.mem_filter.mp hkey.1
  refine ⟨hnames.1,hnames.2,event,hadmitted.1,hadmitted.2,?_⟩
  rw [← hslot]
  simpa using hkey.2

omit [Zero F] [Add F] [Mul F] [NatCast F] in
/-- The events of a slot are events to count of its provider and group key. -/
theorem ofKey_eq_filter (query : AggregateQuery F) (events : List ServerEvent)
    {provider group : String} {slot : BucketKey}
    (hp : slot.provider=provider) (hg : slot.group=group) :
    query.ofKey events slot=(events.filter (wanted query provider group)).filter
      fun event => query.overlaps event && query.key event=slot := by
  unfold AggregateQuery.ofKey
  rw [List.filter_filter,List.filter_filter]
  refine List.filter_congr fun event _ => ?_
  by_cases hkey : query.key event=slot
  · have hgroup : groupOf query event=(provider,group) := by
      rw [← hp,← hg,← hkey]
      rfl
    have hwanted : wanted query provider group event=selected query event := by
      rw [Bool.eq_iff_iff,wanted_iff]
      simp [hgroup]
    have hadmits : query.admits event=(selected query event && query.overlaps event) := by
      rw [Bool.eq_iff_iff,admits_iff,Bool.and_eq_true]
    rw [hwanted,hadmits]
    simp [hkey,Bool.and_comm]
  · simp [hkey]

variable (printLocal : ℤ → String)

/-- With one entry for a provider and group key, all its events to count are
read, overlap the range and have the same key. -/
theorem SingleEntries.shared_slot
    (h : SingleEntries query stored (query.aggregateEvents printLocal (readEvents stored)))
    {event : ServerEvent} (hmem : event∈stored) (hselected : selected query event) :
    ∃ slot∈query.slotsFor (readEvents stored) (providerKey event) (groupKey query event),
      (∀ other∈stored.drop maxQueryEvents,
        ¬wanted query (providerKey event) (groupKey query event) other) ∧
      ∀ other∈stored, wanted query (providerKey event) (groupKey query event) other →
        query.overlaps other ∧ query.key other=slot := by
  have hentries := h (providerKey event) (groupKey query event)
  have hperm := query.entriesFor_perm printLocal (readEvents stored) (providerKey event)
    (groupKey query event)
  have hwanted : event∈stored.filter (wanted query (providerKey event) (groupKey query event)) :=
    List.mem_filter.mpr ⟨hmem,wanted_iff.mpr ⟨hselected,rfl⟩⟩
  rw [if_neg (List.ne_nil_of_mem hwanted)] at hentries
  rw [hentries] at hperm
  -- there is one slot, and it shows as many events as are to be counted
  obtain ⟨slot,hslots,hentry⟩ := List.map_eq_singleton_iff.mp (List.perm_singleton.mp hperm.symm)
  have hslot : slot∈query.slotsFor (readEvents stored) (providerKey event)
      (groupKey query event) := by
    rw [hslots]
    exact List.mem_singleton_self _
  obtain ⟨hp,hg,_⟩ := exists_of_mem_slotsFor hslot
  have hshown := congrArg (fun entry => entry.events.toNat) hentry
  simp only [query.entryOf_events] at hshown
  have hkeep := ofKey_eq_filter query (readEvents stored) hp hg
  have hle := List.length_filter_le (fun other => query.overlaps other && query.key other=slot)
    ((readEvents stored).filter (wanted query (providerKey event) (groupKey query event)))
  have hread := List.length_filter_le (wanted query (providerKey event) (groupKey query event))
    (readEvents stored)
  have hceiling : (readEvents stored).length≤ maxQueryEvents := by
    rw [readEvents_eq_take]
    exact List.length_take_le _ _
  have hsplit : (stored.filter (wanted query (providerKey event) (groupKey query event))).length=
      ((readEvents stored).filter (wanted query (providerKey event) (groupKey query event))).length+
      ((stored.drop maxQueryEvents).filter
        (wanted query (providerKey event) (groupKey query event))).length := by
    rw [readEvents_eq_take,← List.length_append,← List.filter_append,List.take_append_drop]
  rw [hkeep] at hshown
  have hmax : maxQueryEvents=200000 := rfl
  have hrest : ((stored.drop maxQueryEvents).filter
      (wanted query (providerKey event) (groupKey query event))).length=0 := by omega
  have hall : (((readEvents stored).filter
      (wanted query (providerKey event) (groupKey query event))).filter
      fun other => query.overlaps other && query.key other=slot).length=
      ((readEvents stored).filter
        (wanted query (providerKey event) (groupKey query event))).length := by omega
  have hbehind : ∀ other∈stored.drop maxQueryEvents,
      ¬wanted query (providerKey event) (groupKey query event) other :=
    List.filter_eq_nil_iff.mp (List.length_eq_zero_iff.mp hrest)
  refine ⟨slot,hslot,hbehind,?_⟩
  intro other hother hwants
  have hinside : other∈readEvents stored := by
    rw [← List.take_append_drop maxQueryEvents stored] at hother
    rcases List.mem_append.mp hother with hin | hout
    · rw [readEvents_eq_take]
      exact hin
    · exact absurd hwants (hbehind other hout)
  have hfacts := List.length_filter_eq_length_iff.mp hall other
    (List.mem_filter.mpr ⟨hinside,hwants⟩)
  simpa only [Bool.and_eq_true,decide_eq_true_eq] using hfacts

/-- One entry for every provider and group key means one bucket for each. -/
theorem SingleEntries.oneBucket
    (h : SingleEntries query stored (query.aggregateEvents printLocal (readEvents stored))) :
    OneBucket query stored := by
  constructor
  · intro event hmem hselected
    obtain ⟨_,_,hbehind,_⟩ := h.shared_slot printLocal (List.mem_of_mem_drop hmem) hselected
    exact hbehind event hmem (wanted_iff.mpr ⟨hselected,rfl⟩)
  · intro event hmem hselected
    obtain ⟨_,_,_,hall⟩ := h.shared_slot printLocal hmem hselected
    exact (hall event hmem (wanted_iff.mpr ⟨hselected,rfl⟩)).1
  · intro event hmem other hother hselected hselects hgroup
    obtain ⟨slot,_,_,hall⟩ := h.shared_slot printLocal hmem hselected
    have hevent := (hall event hmem (wanted_iff.mpr ⟨hselected,rfl⟩)).2
    have hsame := (hall other hother (wanted_iff.mpr ⟨hselects,hgroup.symm⟩)).2
    exact (key_eq_iff.mp (hevent.trans hsame.symm)).1
  · -- every group has a slot of its own
    have hrun := tallied query.key query.accumulate (ModelBucket.default F) maxBucketEntries
      ((readEvents stored).filter query.admits)
    rw [← query.buckets_eq_tally] at hrun
    have hsub : ((stored.filter (selected query)).map (groupOf query)).dedup.Subperm
        ((query.buckets (readEvents stored)).slots.entries.map
          fun entry => (entry.1.provider,entry.1.group)) := by
      refine List.subperm_of_subset (List.nodup_dedup _) ?_
      intro pair hpair
      obtain ⟨event,hevent,heq⟩ := List.mem_map.mp (List.mem_dedup.mp hpair)
      have hmem := List.mem_filter.mp hevent
      obtain ⟨slot,hslot,_,_⟩ := h.shared_slot printLocal hmem.1 hmem.2
      have hnames := exists_of_mem_slotsFor hslot
      obtain ⟨entry,hentry,hkey⟩ := List.mem_map.mp (List.mem_filter.mp hslot).1
      refine List.mem_map.mpr ⟨entry,hentry,?_⟩
      rw [hkey,hnames.1,hnames.2.1]
      exact heq
    have hlength := hsub.length_le
    rw [List.length_map] at hlength
    exact hlength.trans hrun.bounded

/-- With one bucket for each group, nothing is turned away. -/
theorem OneBucket.not_truncated (h : OneBucket query stored) :
    (query.buckets (readEvents stored)).truncated=false := by
  rw [query.buckets_eq_tally,← Bool.not_eq_true,truncated_iff]
  have hread : ∀ event∈(readEvents stored).filter query.admits,
      event∈stored ∧ selected query event := by
    intro event hmem
    have hevent := List.mem_filter.mp hmem
    rw [readEvents_eq_take] at hevent
    exact ⟨List.mem_of_mem_take hevent.1,(admits_iff.mp hevent.2).1⟩
  have hinj : ∀ key∈(((readEvents stored).filter query.admits).map query.key).dedup,
      ∀ other∈(((readEvents stored).filter query.admits).map query.key).dedup,
      (key.provider,key.group)=(other.provider,other.group) → key=other := by
    intro key hkey other hother hpair
    obtain ⟨event,hevent,hk⟩ := List.mem_map.mp (List.mem_dedup.mp hkey)
    obtain ⟨event',hevent',hk'⟩ := List.mem_map.mp (List.mem_dedup.mp hother)
    have hmem := hread event hevent
    have hmem' := hread event' hevent'
    rw [← hk,← hk'] at hpair ⊢
    exact key_eq_iff.mpr ⟨h.together event hmem.1 event' hmem'.1 hmem.2 hmem'.2 hpair,hpair⟩
  have hnodup := List.Nodup.map_on hinj (List.nodup_dedup _)
  have hgroups : ∀ pair∈(((readEvents stored).filter query.admits).map query.key).dedup.map
      (fun key => (key.provider,key.group)),
      pair∈((stored.filter (selected query)).map (groupOf query)).dedup := by
    intro pair hpair
    obtain ⟨key,hkey,heq⟩ := List.mem_map.mp hpair
    obtain ⟨event,hevent,hk⟩ := List.mem_map.mp (List.mem_dedup.mp hkey)
    refine List.mem_dedup.mpr (List.mem_map.mpr ⟨event,?_,?_⟩)
    · exact List.mem_filter.mpr (hread event hevent)
    · rw [← heq,← hk]
      rfl
  have hlength := (List.subperm_of_subset hnodup hgroups).length_le
  rw [List.length_map] at hlength
  have hroom := h.room
  omega

/-- With one bucket for each group, every group with events to count has one
entry, the sum of them. -/
theorem OneBucket.singleEntries (h : OneBucket query stored) :
    SingleEntries query stored (query.aggregateEvents printLocal (readEvents stored)) := by
  intro provider group
  have hread : (readEvents stored).filter (wanted query provider group)=
      stored.filter (wanted query provider group) := by
    rw [readEvents_eq_take]
    have hsplit := congrArg (List.filter (wanted query provider group))
      (List.take_append_drop maxQueryEvents stored)
    rw [List.filter_append] at hsplit
    have hnone : (stored.drop maxQueryEvents).filter (wanted query provider group)=[] := by
      refine List.filter_eq_nil_iff.mpr fun event hmem hwants => ?_
      exact h.read event hmem (wanted_iff.mp hwants).1
    rw [hnone,List.append_nil] at hsplit
    exact hsplit
  have hperm := query.entriesFor_perm printLocal (readEvents stored) provider group
  have hwants : ∀ slot∈query.slotsFor (readEvents stored) provider group,
      ∃ event∈stored, selected query event ∧ groupOf query event=(provider,group) ∧
        query.key event=slot := by
    intro slot hslot
    obtain ⟨hp,hg,event,hmem,hadmits,hkey⟩ := exists_of_mem_slotsFor hslot
    rw [readEvents_eq_take] at hmem
    refine ⟨event,List.mem_of_mem_take hmem,(admits_iff.mp hadmits).1,?_,hkey⟩
    rw [← hp,← hg,← hkey]
    rfl
  by_cases hempty : stored.filter (wanted query provider group)=[]
  · rw [if_pos hempty]
    have hnone : query.slotsFor (readEvents stored) provider group=[] := by
      refine List.eq_nil_iff_forall_not_mem.mpr fun slot hslot => ?_
      obtain ⟨event,hmem,hselected,hgroup,_⟩ := hwants slot hslot
      have hin : event∈stored.filter (wanted query provider group) :=
        List.mem_filter.mpr ⟨hmem,wanted_iff.mpr ⟨hselected,hgroup⟩⟩
      rw [hempty] at hin
      cases hin
    rw [hnone] at hperm
    exact List.perm_nil.mp hperm
  · rw [if_neg hempty]
    obtain ⟨event,hin⟩ := List.exists_mem_of_ne_nil _ hempty
    have hinside := hin
    rw [← hread] at hinside
    have hmem := List.mem_filter.mp hin
    have hevent := wanted_iff.mp hmem.2
    have hoverlaps := h.overlaps event hmem.1 hevent.1
    -- the slot of the event is stored, and there is no other
    have hrun := tallied query.key query.accumulate (ModelBucket.default F) maxBucketEntries
      ((readEvents stored).filter query.admits)
    rw [← query.buckets_eq_tally] at hrun
    have hstored := hrun.complete h.not_truncated event (List.mem_filter.mpr
      ⟨(List.mem_filter.mp hinside).1,admits_iff.mpr ⟨hevent.1,hoverlaps⟩⟩)
    have hnames : providerKey event=provider ∧ groupKey query event=group :=
      Prod.mk.inj hevent.2
    have hslot : query.key event∈query.slotsFor (readEvents stored) provider group := by
      refine List.mem_filter.mpr
        ⟨(query.buckets (readEvents stored)).slots.isSome_get_iff.mp hstored,?_⟩
      rw [Bool.and_eq_true,decide_eq_true_eq,decide_eq_true_eq]
      exact hnames
    have hsame : ∀ slot∈query.slotsFor (readEvents stored) provider group,
        slot=query.key event := by
      intro slot hmem'
      obtain ⟨other,hother,hselects,hgroup,hkey⟩ := hwants slot hmem'
      have hpair : groupOf query other=groupOf query event := hgroup.trans hevent.2.symm
      rw [← hkey]
      exact key_eq_iff.mpr
        ⟨h.together other hother event hmem.1 hselects hevent.1 hpair,hpair⟩
    have hslots : query.slotsFor (readEvents stored) provider group=[query.key event] := by
      refine List.perm_singleton.mp ?_
      refine (List.perm_ext_iff_of_nodup (query.nodup_slotsFor _ _ _)
        (List.nodup_singleton _)).mpr fun slot => ?_
      rw [List.mem_singleton]
      constructor
      · exact hsame slot
      · intro heq
        rw [heq]
        exact hslot
    rw [hslots,List.map_singleton] at hperm
    rw [List.perm_singleton.mp hperm]
    -- all events to count are events of that slot
    rw [ofKey_eq_filter query (readEvents stored) hnames.1 hnames.2,hread]
    congr 2
    refine List.filter_eq_self.mpr fun other hother => ?_
    have hmem' := List.mem_filter.mp hother
    have hwanted := wanted_iff.mp hmem'.2
    have hpair : groupOf query other=groupOf query event := hwanted.2.trans hevent.2.symm
    rw [Bool.and_eq_true,decide_eq_true_eq]
    exact ⟨h.overlaps other hmem'.1 hwanted.1,key_eq_iff.mpr
      ⟨h.together other hmem'.1 event hmem.1 hwanted.1 hevent.1 hpair,hpair⟩⟩

/-- The answer to an accepted request without a step that is not a raw listing. -/
theorem tokiQuery_instant {params : TokiQueryParams} {parsed : ParsedQuery} {range : ℤ}
    (pricing : PricingTable F) (stored : List ServerEvent) (hrange : rangeMs params=.ok range)
    (hstep : params.step=none) (hparsed : parseQuery params.query=.ok parsed)
    (hraw : parsed.rawEvents=false) :
    tokiQuery printLocal pricing params stored=
      .ok (some ((aggregateQuery params pricing parsed (rangeSecs range)).aggregateEvents
        printLocal (readEvents stored))) := by
  unfold tokiQuery effectiveStep
  simp only [hrange,hstep,hparsed,hraw,bind,Except.bind,pure,Except.pure,Bool.false_and]
  rfl

/-- What an aggregated answer to a request without a step was computed from. -/
theorem tokiQuery_cases {params : TokiQueryParams} {parsed : ParsedQuery}
    {pricing : PricingTable F} {stored : List ServerEvent} {response : AggregateResponse F}
    (hstep : params.step=none) (hparsed : parseQuery params.query=.ok parsed)
    (h : tokiQuery printLocal pricing params stored=.ok (some response)) :
    ∃ range, rangeMs params=.ok range ∧
      response=(aggregateQuery params pricing parsed (rangeSecs range)).aggregateEvents printLocal
        (readEvents stored) := by
  cases hrange : rangeMs params with
  | error reason =>
    simp only [tokiQuery,hrange,bind,Except.bind] at h
    cases h
  | ok range =>
    cases hraw : parsed.rawEvents with
    | true =>
      simp only [tokiQuery,effectiveStep,hrange,hstep,hparsed,hraw,bind,Except.bind,pure,
        Except.pure,Option.isNone_none,Bool.and_self,if_true] at h
      cases h
    | false =>
      rw [tokiQuery_instant printLocal pricing stored hrange hstep hparsed hraw] at h
      have hresponse := Option.some.inj (Except.ok.inj h)
      exact ⟨range,rfl,hresponse.symm⟩

/-- Length of the range of an accepted request. -/
theorem rangeMs_eq {params : TokiQueryParams} {range : ℤ} (h : rangeMs params=.ok range) :
    range=params.endMs-params.startMs := by
  unfold rangeMs at h
  by_cases horder : params.startMs>params.endMs
  · rw [if_pos horder] at h
    cases h
  · rw [if_neg horder] at h
    unfold DurationText.toI64 at h
    split_ifs at h with hfits
    exact (Except.ok.inj h).symm

/-- An accepted request without a step gets one entry for each provider and
group key, the sum of all its events, exactly when each of them has its events
in one bucket that overlaps the range and no ceiling is reached. -/
theorem single_entries_iff {params : TokiQueryParams} {parsed : ParsedQuery}
    {pricing : PricingTable F} {stored : List ServerEvent} {response : AggregateResponse F}
    (hstep : params.step=none) (hparsed : parseQuery params.query=.ok parsed)
    (h : tokiQuery printLocal pricing params stored=.ok (some response)) :
    SingleEntries
        (aggregateQuery params pricing parsed (rangeSecs (params.endMs-params.startMs)))
        stored response ↔
      OneBucket (aggregateQuery params pricing parsed (rangeSecs (params.endMs-params.startMs)))
        stored := by
  obtain ⟨range,hrange,hresponse⟩ := tokiQuery_cases printLocal hstep hparsed h
  rw [hresponse,← rangeMs_eq hrange]
  constructor
  · intro hsingle
    exact hsingle.oneBucket printLocal
  · intro hbucket
    exact hbucket.singleEntries printLocal

/-- One hour, asked for without a step. -/
def hourQuery (startMs : ℤ) : TokiQueryParams :=
  ⟨"usage",startMs,startMs+3600000,none,none,none,true⟩

/-- An event before one o'clock and two after it. -/
def hourEvents : List ServerEvent :=
  [⟨"laptop","alice","m1",3500000,"codex","gpt-5","","",10,20,0,5,30⟩,
    ⟨"laptop","alice","m2",3700000,"codex","gpt-5","","",1,2,0,0,3⟩,
    ⟨"laptop","alice","m3",3800000,"codex","gpt-5","","",4,2,0,0,6⟩]

theorem parseQuery_usage : parseQuery "usage"=.ok ⟨false,false,false,"model",none⟩ := by
  decide +kernel

/-- The bare usage query is answered. -/
theorem hourQuery_answered (startMs : ℤ) :
    tokiQuery (F := ℕ) (fun _ => "") ⟨fun _ => none⟩ (hourQuery startMs) hourEvents=
      .ok (some ((aggregateQuery (hourQuery startMs) ⟨fun _ => none⟩
        ⟨false,false,false,"model",none⟩ (rangeSecs 3600000)).aggregateEvents (fun _ => "")
        (readEvents hourEvents))) := by
  refine tokiQuery_instant _ _ _ ?_ rfl parseQuery_usage rfl
  have horder : ¬startMs>startMs+3600000 := by omega
  have hlength : startMs+3600000-startMs=3600000 := by omega
  show (if startMs>startMs+3600000 then _ else _)=_
  rw [if_neg horder]
  simp only [hourQuery,hlength]
  rfl

/-- In the hour from one o'clock on there is one entry, of two events. -/
theorem single_entries_sample :
    SingleEntries (F := ℕ) (aggregateQuery (hourQuery 3600000) ⟨fun _ => none⟩
        ⟨false,false,false,"model",none⟩ 3600) hourEvents
      ((aggregateQuery (hourQuery 3600000) ⟨fun _ => none⟩ ⟨false,false,false,"model",none⟩
        (rangeSecs 3600000)).aggregateEvents (fun _ => "") (readEvents hourEvents)) := by
  refine (single_entries_iff (fun _ => "") rfl parseQuery_usage (hourQuery_answered 3600000)).mpr ?_
  constructor
  · decide +kernel
  · decide +kernel
  · decide +kernel
  · decide +kernel

/-- In the hour from half past midnight on there are two. -/
theorem two_entries :
    ¬∀ (params : TokiQueryParams) (parsed : ParsedQuery) (stored : List ServerEvent)
        (response : AggregateResponse ℕ), params.step=none →
      parseQuery params.query=.ok parsed →
      tokiQuery (fun _ => "") ⟨fun _ => none⟩ params stored=.ok (some response) →
      SingleEntries (aggregateQuery params ⟨fun _ => none⟩ parsed
        (rangeSecs (params.endMs-params.startMs))) stored response := by
  intro hall
  have hsingle := hall (hourQuery 1800000) _ hourEvents _ rfl parseQuery_usage
    (hourQuery_answered 1800000)
  have htogether := (hsingle.oneBucket (fun _ => "")).together
  have hsplit := htogether ⟨"laptop","alice","m1",3500000,"codex","gpt-5","","",10,20,0,5,30⟩
    List.mem_cons_self ⟨"laptop","alice","m2",3700000,"codex","gpt-5","","",1,2,0,0,3⟩
    (List.mem_cons_of_mem _ List.mem_cons_self) (by decide +kernel) (by decide +kernel)
    (by decide +kernel)
  exact absurd hsplit (by decide +kernel)

end TokiSync.InstantQueries
