import TokiSync.AggregateEntries
import TokiSync.TokiQuery

/-!
# Which events bucketing loses

An epoch-aligned bucket holds its events within its nominal width, so the
overlap test drops none of them. A local calendar period may be longer than
its nominal width, and its first instant may be resolved to a minute behind
some of its events; such events are dropped although they lie in the range.
When every calendar period involved overlaps the range by its nominal width,
every event is counted once.
-/

namespace TokiSync.BucketLosses

open TokiSync.OrderedEntries TokiSync.CappedTallies TokiSync.CalendarBuckets
open TokiSync.ServerEvents TokiSync.UsageAggregation TokiSync.DurationText
open TokiSync.VirtualQueries TokiSync.TokiQuery

variable {F : Type} [Zero F] [Add F] [Mul F] [NatCast F]

/-- Group key of an event. -/
def groupKey (query : AggregateQuery F) (event : ServerEvent) : String :=
  (GroupBy.ofLabel query.groupBy).key event

/-- Whether an event belongs to a provider and a group key. -/
def belongs (query : AggregateQuery F) (provider group : String) (event : ServerEvent) : Bool :=
  providerKey event=provider && groupKey query event=group

/-- Whether an event has to be counted for a provider and a group key. -/
def wanted (query : AggregateQuery F) (provider group : String) (event : ServerEvent) : Bool :=
  query.inRange event && query.matchesProvider event && belongs query provider group event

/-- The entries of every provider and group key are made of groups of events
that together are the events to count, each of them in one group. -/
def CountsOnce (query : AggregateQuery F) (events : List ServerEvent)
    (response : AggregateResponse F) : Prop :=
  ∀ provider group, ∃ groups : List (List ServerEvent), (∀ members∈groups, members≠[]) ∧
    (response.entriesFor provider group).Perm (groups.map (query.entryOf group)) ∧
    groups.flatten.Perm (events.filter (wanted query provider group))

/-- The local calendar periods of the events to count overlap the range by
their nominal width. -/
def Covered (query : AggregateQuery F) (events : List ServerEvent) : Prop :=
  ∀ event∈events, query.inRange event → query.matchesProvider event →
    ∀ zone start, query.tz=some zone → wholeDays query.stepSecs →
      calendarStart event.tsMs.toInt query.stepSecs zone (query.startOfWeek.getD .mon)=some start →
      query.sinceMs < start*1000+query.stepSecs*1000 ∧ start*1000<query.untilMs

omit [Zero F] [Add F] [Mul F] [NatCast F] in
/-- An event of the range is dropped only for its calendar period. -/
theorem overlaps_iff {query : AggregateQuery F} {event : ServerEvent} (hsince : 0≤query.sinceMs)
    (hstep : 0<query.stepSecs) (hrange : query.inRange event) :
    query.overlaps event ↔
      ∀ zone start, query.tz=some zone → wholeDays query.stepSecs →
        calendarStart event.tsMs.toInt query.stepSecs zone
          (query.startOfWeek.getD .mon)=some start →
        query.sinceMs < start*1000+query.stepSecs*1000 ∧ start*1000<query.untilMs := by
  have hin : query.sinceMs≤event.tsMs.toInt ∧ event.tsMs.toInt<query.untilMs := by
    unfold AggregateQuery.inRange at hrange
    simpa using hrange
  have hepoch := epochStart_bounds (hsince.trans hin.1) hstep
  have hoverlaps : query.overlaps event ↔
      query.sinceMs < query.bucketSec event*1000+query.stepSecs*1000 ∧
        query.bucketSec event*1000<query.untilMs := by
    unfold AggregateQuery.overlaps
    simp
  have hweek : query.stepSecs=604800 → wholeDays query.stepSecs := by
    intro h
    rw [h]
    rfl
  rw [hoverlaps]
  unfold AggregateQuery.bucketSec bucketStartSec
  cases htz : query.tz with
  | none =>
    constructor
    · intro _ zone start hzone
      cases hzone
    · intro _
      dsimp only
      omega
  | some zone =>
    by_cases hdays : wholeDays query.stepSecs
    · have hcond : query.stepSecs=604800 ∨ wholeDays query.stepSecs := .inr hdays
      dsimp only
      rw [if_pos hcond]
      cases hstart : calendarStart event.tsMs.toInt query.stepSecs zone
          (query.startOfWeek.getD .mon) with
      | none =>
        constructor
        · intro _ zone' start hzone _ hcalendar
          rw [← Option.some.inj hzone,hstart] at hcalendar
          cases hcalendar
        · intro _
          dsimp only [Option.getD_none]
          omega
      | some start =>
        constructor
        · intro h zone' start' hzone _ hcalendar
          rw [← Option.some.inj hzone,hstart] at hcalendar
          rw [← Option.some.inj hcalendar]
          exact h
        · intro h
          exact h zone start rfl hdays hstart
    · have hcond : ¬(query.stepSecs=604800 ∨ wholeDays query.stepSecs) := by
        intro h
        rcases h with h | h
        · exact hdays (hweek h)
        · exact hdays h
      dsimp only
      rw [if_neg hcond]
      constructor
      · intro _ zone' start _ hdays'
        exact absurd hdays' hdays
      · intro _
        omega

variable (query : AggregateQuery F) (printLocal : ℤ → String) (events : List ServerEvent)

/-- The admitted events of a provider and a group key. -/
def counted (provider group : String) : List ServerEvent :=
  (events.filter query.admits).filter (belongs query provider group)

omit [Zero F] [Add F] [Mul F] [NatCast F] in
/-- What is counted is what is wanted and overlaps the range. -/
theorem counted_eq_filter (provider group : String) :
    counted query events provider group=
      (events.filter (wanted query provider group)).filter query.overlaps := by
  unfold counted
  rw [List.filter_filter,List.filter_filter]
  refine List.filter_congr fun event _ => ?_
  unfold AggregateQuery.admits wanted
  cases query.inRange event <;> cases query.overlaps event <;>
    cases query.matchesProvider event <;> simp

/-- A response that is not truncated has every admitted event in the slot of
its key, so the slots of a provider and a group key partition its events. -/
theorem flatten_slots
    (hopen : (query.aggregateEvents printLocal events).truncated=false) (provider group : String) :
    ((query.slotsFor events provider group).map (query.ofKey events)).flatten.Perm
      (counted query events provider group) :=
  query.flatMap_ofKey hopen fun slot => slot.provider=provider && slot.group=group

/-- Numbers of events shown by entries made of groups below the largest word. -/
theorem sum_events (group : String) (groups : List (List ServerEvent))
    (hsmall : groups.flatten.length<2^64) :
    ((groups.map (query.entryOf group)).map fun entry => entry.events.toNat).sum=
      groups.flatten.length := by
  rw [List.length_flatten,List.map_map]
  congr 1
  refine List.map_congr_left fun members hmem => ?_
  have hle : members.length≤groups.flatten.length :=
    (List.sublist_flatten_of_mem hmem).length_le
  show (query.entryOf group members).events.toNat=members.length
  rw [query.entryOf_events]
  omega

/-- When nothing was turned away, every event is counted once exactly when
the calendar periods involved overlap the range by their nominal width. -/
theorem countsOnce_iff (hsince : 0≤query.sinceMs) (hstep : 0<query.stepSecs)
    (hlength : events.length<2^64)
    (hopen : (query.aggregateEvents printLocal events).truncated=false) :
    CountsOnce query events (query.aggregateEvents printLocal events) ↔ Covered query events := by
  constructor
  · intro hcounts event hmem hrange hmatches
    obtain ⟨groups,_,hentries,hflatten⟩ := hcounts (providerKey event) (groupKey query event)
    have hwanted : wanted query (providerKey event) (groupKey query event) event=true := by
      simp [wanted,belongs,hrange,hmatches]
    -- both sides show the number of their events
    have hbound := List.length_filter_le (wanted query (providerKey event) (groupKey query event))
      events
    have hslots := flatten_slots query printLocal events hopen (providerKey event)
      (groupKey query event)
    have hcounted : (counted query events (providerKey event) (groupKey query event)).length≤
        (events.filter (wanted query (providerKey event) (groupKey query event))).length := by
      rw [counted_eq_filter]
      exact List.length_filter_le _ _
    have hshown := (hentries.symm.trans (query.entriesFor_perm printLocal events
      (providerKey event) (groupKey query event))).map fun entry => entry.events.toNat
    have hsum := hshown.sum_eq
    rw [sum_events query _ groups (by rw [hflatten.length_eq]; omega)] at hsum
    have hrendered := sum_events query (groupKey query event)
      ((query.slotsFor events (providerKey event) (groupKey query event)).map (query.ofKey events))
      (by rw [hslots.length_eq]; omega)
    rw [List.map_map,List.map_map] at hrendered
    rw [List.map_map] at hsum
    have hequal : (counted query events (providerKey event) (groupKey query event)).length=
        (events.filter (wanted query (providerKey event) (groupKey query event))).length := by
      rw [← hslots.length_eq,← hflatten.length_eq]
      exact hrendered.symm.trans hsum.symm
    rw [counted_eq_filter,List.length_filter_eq_length_iff] at hequal
    exact (overlaps_iff hsince hstep hrange).mp
      (hequal event (List.mem_filter.mpr ⟨hmem,hwanted⟩))
  · intro hcovered provider group
    refine ⟨(query.slotsFor events provider group).map (query.ofKey events),?_,?_,?_⟩
    · intro members hmem
      obtain ⟨slot,hslot,heq⟩ := List.mem_map.mp hmem
      obtain ⟨stored,hstored,hkey⟩ := List.mem_map.mp (List.mem_filter.mp hslot).1
      rw [← heq,← hkey]
      exact (query.slot_eq_total hstored).2
    · rw [List.map_map]
      exact query.entriesFor_perm printLocal events provider group
    · refine (flatten_slots query printLocal events hopen provider group).trans ?_
      rw [counted_eq_filter]
      refine List.Perm.of_eq (List.filter_eq_self.mpr fun event hmem => ?_)
      have hevent := List.mem_filter.mp hmem
      have hwanted := hevent.2
      simp only [wanted,Bool.and_eq_true] at hwanted
      exact (overlaps_iff hsince hstep hwanted.1.1).mpr
        (hcovered event hevent.1 hwanted.1.1 hwanted.1.2)

/-- A step the request validation admits. -/
def Admitted (params : TokiQueryParams) (stepSecs : ℤ) : Prop :=
  ∃ range, rangeMs params=.ok range ∧ effectiveStep params range=.ok stepSecs

variable {params : TokiQueryParams} {parsed : ParsedQuery} {stepSecs : ℤ}
variable (pricing : PricingTable F)

/-- The aggregator answers an accepted request without losing an event exactly
when the calendar periods of the events to count overlap the range by their
nominal width; without a zone and for steps that are not whole days they do. -/
theorem loses_nothing_iff {events : List ServerEvent} (hstart : 0≤params.startMs)
    (hstep : Admitted params stepSecs) (hlength : events.length<2^64)
    (hopen : ((aggregateQuery params pricing parsed stepSecs).aggregateEvents printLocal
      events).truncated=false) :
    CountsOnce (aggregateQuery params pricing parsed stepSecs) events
        ((aggregateQuery params pricing parsed stepSecs).aggregateEvents printLocal events) ↔
      Covered (aggregateQuery params pricing parsed stepSecs) events := by
  obtain ⟨range,_,hstep⟩ := hstep
  exact countsOnce_iff _ printLocal events hstart (effectiveStep_pos hstep) hlength hopen

/-- A zone whose clocks fall back one hour on 1970-01-02. -/
def fallBack : Tz := ⟨0,[(93600,-3600)],List.pairwise_singleton _ _⟩

/-- A query of one daily bucket. -/
def dailyQuery (startMs : ℤ) (tz : Option Tz) : TokiQueryParams :=
  ⟨"usage",startMs,startMs+86400000,some "1d",tz,none,true⟩

/-- A daily query that begins inside the last hour of the long day. -/
def lateQuery (tz : Option Tz) : TokiQueryParams := dailyQuery 174600000 tz

/-- A daily query that begins with the day after it. -/
def nextQuery (tz : Option Tz) : TokiQueryParams := dailyQuery 176400000 tz

/-- An event of that hour. -/
def lateEvent : ServerEvent :=
  ⟨"laptop","alice","m1",175500000,"codex","gpt-5","","",10,20,0,5,30⟩

/-- Two events of the next day. -/
def nextEvents : List ServerEvent :=
  [{lateEvent with tsMs := 180000000},{lateEvent with msgId := "m2",tsMs := 262000000}]

theorem dailyQuery_step (startMs : ℤ) (tz : Option Tz) :
    effectiveStep (dailyQuery startMs tz) 86400000=.ok 86400 := by
  have hparse : parseDurationSecs "1d"=.ok 86400 := by decide +kernel
  have hcheck : checkStep 86400000 86400=.ok () := by decide +kernel
  show (do
    let stepSecs ← parseDurationSecs "1d"
    checkStep 86400000 stepSecs
    pure stepSecs)=Except.ok 86400
  rw [hparse]
  show (do
    checkStep 86400000 86400
    pure 86400)=Except.ok 86400
  rw [hcheck]
  rfl

theorem lateQuery_admitted (tz : Option Tz) : Admitted (lateQuery tz) 86400 :=
  ⟨86400000,rfl,dailyQuery_step _ tz⟩

theorem nextQuery_admitted (tz : Option Tz) : Admitted (nextQuery tz) 86400 :=
  ⟨86400000,rfl,dailyQuery_step _ tz⟩

/-- In the zone, the events of the day after the long one are counted by the query
that begins with it. -/
theorem loses_nothing_sample :
    CountsOnce (aggregateQuery (F := ℕ) (nextQuery (some fallBack)) ⟨fun _ => none⟩
        ⟨false,false,false,"model",none⟩ 86400) nextEvents
      ((aggregateQuery (nextQuery (some fallBack)) ⟨fun _ => none⟩ ⟨false,false,false,"model",none⟩
        86400).aggregateEvents (fun _ => "") nextEvents) := by
  refine (loses_nothing_iff (F := ℕ) (fun _ => "") ⟨fun _ => none⟩ (by decide)
    (nextQuery_admitted _) (by decide) (by decide +kernel)).mpr ?_
  intro event hevent _ _ zone start hzone _ hcalendar
  cases hzone
  have hstart : ∀ event∈nextEvents,
      calendarStart event.tsMs.toInt 86400 fallBack .mon=some 176400 := by decide +kernel
  obtain rfl := Option.some.inj ((hstart event hevent).symm.trans hcalendar)
  exact ⟨by decide +kernel,by decide +kernel⟩

/-- An event of the long day's last hour is not, although the response is not
truncated. -/
theorem late_event_lost :
    ¬∀ (params : TokiQueryParams) (parsed : ParsedQuery) (stepSecs : ℤ)
        (events : List ServerEvent), 0≤params.startMs → params.startMs≤params.endMs →
      Admitted params stepSecs → events.length<2^64 →
      ((aggregateQuery (F := ℕ) params ⟨fun _ => none⟩ parsed stepSecs).aggregateEvents
        (fun _ => "") events).truncated=false →
      CountsOnce (aggregateQuery (F := ℕ) params ⟨fun _ => none⟩ parsed stepSecs) events
        ((aggregateQuery params ⟨fun _ => none⟩ parsed stepSecs).aggregateEvents
          (fun _ => "") events) := by
  intro hall
  have hcounts := hall (lateQuery (some fallBack)) ⟨false,false,false,"model",none⟩ 86400
    [lateEvent] (by decide) (by decide) (lateQuery_admitted _) (by decide) (by decide +kernel)
  have hcovered := (countsOnce_iff _ _ _ (by decide) (by decide) (by decide)
    (by decide +kernel)).mp hcounts
  have hedge := hcovered lateEvent List.mem_cons_self (by decide +kernel) (by decide +kernel)
    fallBack 86400 rfl (by decide +kernel) (by decide +kernel)
  exact absurd hedge.1 (by decide +kernel)

end TokiSync.BucketLosses
