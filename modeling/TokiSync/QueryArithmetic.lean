import TokiSync.TrappingWords
import TokiSync.TokiQuery
import TokiSync.QueryBounds
import TokiSync.DurationGrammar
import TokiSync.Utf8Slices
import TokiSync.WindowSanitizing

/-!
# The arithmetic of a query

Most operations of the query endpoint are not checked: a result that does not
fit stops the request. Here every one of them may stop. None does, since the
spellings of the bounds keep these small: the numbers have at most twelve
digits behind a sign, the dates four-digit years, and the step is at most the
range.
-/

namespace TokiSync.QueryArithmetic

open AdminAccounts (AppError)
open ByteKeys DurationGrammar DurationText LocalClocks MachineWords QueryBounds
open ServerEvents TrappingWords Utf8Slices WireWindows WindowSanitizing ZoneBuckets
open CalendarBuckets (Weekday weekdayFromMonday fromTimestampMillis minUtc maxUtc)
open TokiQuery (maxBuckets)

/-- First and last date of the calendar, as days since 1970-01-01. -/
def minDate : ℤ := -96465292

def maxDate : ℤ := 95026236

/-- Most days of a duration. -/
def maxDays : ℤ := 106751991167

/-- Second at which the year 9999 begins. -/
def year9999 : ℤ := 253370764800

/-- A date inside of the calendar. -/
def calendarDate : ℤ → Trapping ℤ := within minDate maxDate .outOfCalendar

/-- A date-time inside of the calendar. -/
def calendarTime : ℤ → Trapping ℤ := within minUtc maxUtc .outOfCalendar

/-- A number of days as a duration. -/
def durationDays : ℤ → Trapping ℤ := within (-maxDays) maxDays .overflow

/-- First date of the week or of the group of days a date lies in; dates are
numbers of days since the epoch. -/
def startDate (stepSecs : ℤ) (startOfWeek : Weekday) (date : ℤ) : Trapping ℤ :=
  if stepSecs=604800 then do
    let ahead ← sub (weekdayFromMonday date) startOfWeek.numDaysFromMonday
    let shifted ← add ahead 7
    let back ← rem shifted 7
    let days ← durationDays back
    calendarDate (date-days)
  else do
    let stepDays ← div stepSecs 86400
    let number ← divEuclid date stepDays
    let product ← mul number stepDays
    let days ← durationDays product
    calendarDate (0+days)

/-- First of the following whole minutes whose local reading exists. -/
def nextReal (clock : LocalClock) : ℕ → ℤ → Trapping (Option ℤ)
  | 0,_ => .ok none
  | steps+1,candidate => do
    let next ← calendarTime (candidate+60)
    match (clock.fromLocalDatetime next).earliest with
    | some instant => .ok (some instant)
    | none => nextReal clock steps next

/-- Resolve the local midnight of a date. -/
def resolveMidnight (clock : LocalClock) (date : ℤ) : Trapping (Option ℤ) :=
  match clock.fromLocalDatetime (date*86400) with
  | .single instant => .ok (some instant)
  | .ambiguous earlier _ => .ok (some earlier)
  | .none => nextReal clock (24*60) (date*86400)

/-- Start of the local calendar period an instant lies in. -/
def calendarStart (clock : LocalClock) (tsMs stepSecs : ℤ) (startOfWeek : Weekday) :
    Trapping (Option ℤ) :=
  match fromTimestampMillis tsMs with
  | some instant => do
    let localTime ← calendarTime (reading clock.offset instant)
    let date ← startDate stepSecs startOfWeek (localTime/86400)
    resolveMidnight clock date
  | none => .ok none

/-- Whether a step is a whole number of days; a shorter one is not divided. -/
def wholeDays (stepSecs : ℤ) : Trapping Bool :=
  if 86400≤ stepSecs then do
    let rest ← rem stepSecs 86400
    pure (decide (rest=0))
  else pure false

/-- Start of the calendar bucket, when the step and the zone ask for one. -/
def zonedStart (tsMs stepSecs : ℤ) (tz : Option LocalClock) (startOfWeek : Weekday)
    (wholeDay : Bool) : Trapping (Option ℤ) :=
  match tz with
  | some clock =>
    if stepSecs=604800 ∨ wholeDay then calendarStart clock tsMs stepSecs startOfWeek
    else .ok none
  | none => .ok none

/-- Start of the epoch-aligned bucket. -/
def epochStart (tsMs stepMs : ℤ) : Trapping ℤ := do
  let number ← div tsMs stepMs
  let startMs ← mul number stepMs
  div startMs 1000

/-- Second at which the bucket of an event starts. -/
def bucketStartSec (tsMs stepSecs : ℤ) (tz : Option LocalClock) (startOfWeek : Weekday) :
    Trapping ℤ := do
  let stepMs ← mul stepSecs 1000
  let wholeDay ← wholeDays stepSecs
  let zoned ← zonedStart tsMs stepSecs tz startOfWeek wholeDay
  match zoned with
  | some start => pure start
  | none => epochStart tsMs stepMs

/-- What the aggregator buckets events by. -/
structure BucketQuery where
  /-- Width of the buckets in seconds. -/
  stepSecs : ℤ
  /-- First millisecond of the range. -/
  sinceMs : ℤ
  /-- First millisecond behind the range. -/
  untilMs : ℤ
  /-- Zone of the calendar buckets. -/
  tz : Option LocalClock
  /-- Week start, Monday when not given. -/
  startOfWeek : Option Weekday

/-- Bucket of an event, when the event lies in the range and the bucket
overlaps it. -/
def eventBucket (query : BucketQuery) (stepMs : ℤ) (event : ServerEvent) :
    Trapping (Option ℤ) :=
  if event.tsMs.toInt<query.sinceMs ∨ event.tsMs.toInt≥query.untilMs then .ok none
  else do
    let bucketSec ← bucketStartSec event.tsMs.toInt query.stepSecs query.tz
      (query.startOfWeek.getD .mon)
    let bucketMs ← mul bucketSec 1000
    let behind ← add bucketMs stepMs
    if behind≤query.sinceMs ∨ bucketMs≥query.untilMs then pure none else pure (some bucketSec)

/-- Buckets of the events of a request. -/
def aggregateEvents (query : BucketQuery) (events : List ServerEvent) :
    Trapping (List (Option ℤ)) := do
  let stepMs ← mul query.stepSecs 1000
  events.mapM (eventBucket query stepMs)

/-- Check the step of a range query. -/
def checkStep (rangeMs stepSecs : ℤ) : Trapping (Except AppError Unit) := do
  let seconds ← div rangeMs 1000
  let sum ← add (max seconds 1) maxBuckets
  let below ← sub sum 1
  let least ← div below maxBuckets
  if stepSecs< least then do
    let buckets ← div (max seconds 1) stepSecs
    pure (.error (badRequest ("step "++toString stepSecs++"s too small for range "++
      toString (max seconds 1)++"s (would produce "++toString buckets++" buckets, max "++
      toString maxBuckets++"). minimum step: "++toString least++"s")))
  else if stepSecs>max seconds 1 then
    pure (.error (badRequest ("step "++toString stepSecs++"s exceeds range "++
      toString (max seconds 1)++"s")))
  else pure (.ok ())

/-- Step of a request: as given and checked, or the length of its range. -/
def effectiveStep (rangeMs : ℤ) (step : Option String) : Trapping (Except AppError ℤ) :=
  match step with
  | some text =>
    match parseDurationSecs text with
    | .error e => .ok (.error e)
    | .ok stepSecs => do
      let answer ← checkStep rangeMs stepSecs
      pure (answer.map fun _ => stepSecs)
  | none => do
    let seconds ← div rangeMs 1000
    pure (.ok (max seconds 1))

/-- Whether a window is final: it was finalized, or its reset has passed. -/
def isFinal (now : ℤ) (w : WireWindow) : Trapping Bool :=
  if w.finalized then .ok true
  else do
    let passed ← add w.rawResetsAtMs.toInt 180000
    let nowMs ← mul now 1000
    pure (decide (passed<nowMs))

/-- A request as it arrives. -/
structure QueryRequest where
  /-- Query text. -/
  query : String
  /-- Text of the first bound. -/
  start : Option String
  /-- Text of the second bound. -/
  stop : Option String
  /-- Text of the bucket width. -/
  step : Option String
  /-- Time zone. -/
  tz : Option LocalClock
  /-- Week start. -/
  startOfWeek : Option Weekday

/-- Product that stays at the limits of the word. -/
def saturatingMul (a b : ℤ) : ℤ := max (-2^63) (min (2^63-1) (a*b))

/-- The range of a request and its length. -/
structure QueryRange where
  /-- First millisecond. -/
  startMs : ℤ
  /-- First millisecond behind it. -/
  endMs : ℤ
  /-- Length. -/
  rangeMs : ℤ

section

variable (parseDate parseDateTime : String → Option ℤ)

/-- A bound as given, or the one that stands in for it. -/
def boundOr (text : Option String) (isEnd : Bool) (tz : Option LocalClock) (missing : ℤ) :
    Except AppError ℤ :=
  match text with
  | some s => parseTokiBoundMs parseDate parseDateTime s isEnd tz
  | none => .ok missing

/-- The length of a range, whose difference is checked. -/
def rangeBetween (startMs endMs : ℤ) : Except AppError QueryRange :=
  if startMs>endMs then .error (badRequest "start time must not be after end time")
  else
    match toI64 (endMs-startMs) with
    | some rangeMs => .ok ⟨startMs,endMs,rangeMs⟩
    | none => .error (badRequest "query time range is out of range")

/-- The range of a request, from the epoch to the present unless it says
otherwise. -/
def queryRange (now : ℤ) (request : QueryRequest) : Except AppError QueryRange := do
  let startMs ← boundOr parseDate parseDateTime request.start false request.tz 0
  let endMs ← boundOr parseDate parseDateTime request.stop true request.tz (saturatingMul now 1000)
  rangeBetween startMs endMs

end

/-- What the arithmetic of a request comes to. -/
inductive QueryAnswer where
  /-- For each window of the range, whether it is final. -/
  | windows (final : List Bool)
  /-- A listing of events, which are not put into buckets. -/
  | listing
  /-- The buckets of the events. -/
  | buckets (starts : List (Option ℤ))
  deriving DecidableEq

/-- Whether a query is the bare one for windows. -/
def isWindows (query : String) : Bool := VirtualQueries.trim query.toList="windows".toList

/-- Windows that end inside of the range; the store has left out those in
front of it. -/
def windowsInside (range : QueryRange) (rows : List WireWindow) : List WireWindow :=
  rows.filter fun w => w.windowEndMs.toInt<range.endMs

/-- Buckets of the range and step of a request. -/
def bucketQuery (request : QueryRequest) (range : QueryRange) (stepSecs : ℤ) : BucketQuery :=
  ⟨stepSecs,range.startMs,range.endMs,request.tz,request.startOfWeek⟩

/-- Answer a query other than the one for windows. -/
def answerBuckets (request : QueryRequest) (range : QueryRange) (events : List ServerEvent)
    (parsed : VirtualQueries.ParsedQuery) : Trapping (Except AppError QueryAnswer) := do
  let step ← effectiveStep range.rangeMs request.step
  match step with
  | .error e => pure (.error e)
  | .ok stepSecs =>
    if parsed.rawEvents && request.step.isNone then pure (.ok .listing)
    else do
      let starts ← aggregateEvents (bucketQuery request range stepSecs) events
      pure (.ok (.buckets starts))

/-- Answer a request from the events and windows that the store has. -/
def tokiQuery (parseDate parseDateTime : String → Option ℤ) (now : ℤ) (request : QueryRequest)
    (events : List ServerEvent) (rows : List WireWindow) :
    Trapping (Except AppError QueryAnswer) :=
  match queryRange parseDate parseDateTime now request with
  | .error e => .ok (.error e)
  | .ok range =>
    if isWindows request.query then do
      let final ← (windowsInside range rows).mapM (isFinal now)
      pure (.ok (.windows final))
    else
      match TokiQuery.parseQuery request.query with
      | .error e => .ok (.error e)
      | .ok parsed => answerBuckets request range events parsed

/-- Bucket of an event over the integers. -/
def BucketQuery.bucket (query : BucketQuery) (event : ServerEvent) : Option ℤ :=
  let start := ZoneBuckets.bucketStartSec event.tsMs.toInt query.stepSecs query.tz
    (query.startOfWeek.getD .mon)
  if (query.sinceMs≤event.tsMs.toInt ∧ event.tsMs.toInt<query.untilMs) ∧
      query.sinceMs< start*1000+query.stepSecs*1000 ∧ start*1000<query.untilMs then some start
  else none

/-- Step of a request over the integers. -/
def stepOf (rangeMs : ℤ) (step : Option String) : Except AppError ℤ :=
  match step with
  | some text => do
    let stepSecs ← parseDurationSecs text
    TokiQuery.checkStep rangeMs stepSecs
    pure stepSecs
  | none => pure (TokiQuery.rangeSecs rangeMs)

/-- Whether a window is final, over the integers. -/
def finalAt (now : ℤ) (w : WireWindow) : Bool :=
  w.finalized || w.rawResetsAtMs.toInt+180000<now*1000

/-- Answer a request over the integers. -/
def integerQuery (parseDate parseDateTime : String → Option ℤ) (now : ℤ)
    (request : QueryRequest) (events : List ServerEvent) (rows : List WireWindow) :
    Except AppError QueryAnswer := do
  let range ← queryRange parseDate parseDateTime now request
  if isWindows request.query then pure (.windows ((windowsInside range rows).map (finalAt now)))
  else do
    let parsed ← TokiQuery.parseQuery request.query
    let stepSecs ← stepOf range.rangeMs request.step
    if parsed.rawEvents && request.step.isNone then pure .listing
    else pure (.buckets (events.map (bucketQuery request range stepSecs).bucket))

/-- The aggregator puts the events it counts into the same buckets. -/
theorem bucket_aggregateQuery {F : Type} (query : UsageAggregation.AggregateQuery F)
    (event : ServerEvent) :
    BucketQuery.bucket ⟨query.stepSecs,query.sinceMs,query.untilMs,query.tz.map ofTz,
      query.startOfWeek⟩ event=
        if query.inRange event && query.overlaps event then some (query.bucketSec event)
        else none := by
  have hstart : ZoneBuckets.bucketStartSec event.tsMs.toInt query.stepSecs (query.tz.map ofTz)
      (query.startOfWeek.getD .mon)=query.bucketSec event := bucketStartSec_ofTz _ _ _ _
  unfold BucketQuery.bucket UsageAggregation.AggregateQuery.inRange
    UsageAggregation.AggregateQuery.overlaps
  simp only [hstart,Bool.and_eq_true,decide_eq_true_eq]

/-- The step is the one of the query endpoint. -/
theorem effectiveStep_params (params : TokiQuery.TokiQueryParams) (rangeMs : ℤ) :
    TokiQuery.effectiveStep params rangeMs=stepOf rangeMs params.step := rfl

/-- The length of a range is the one of the query endpoint. -/
theorem rangeMs_params (params : TokiQuery.TokiQueryParams) :
    (rangeBetween params.startMs params.endMs).map QueryRange.rangeMs=TokiQuery.rangeMs params := by
  unfold rangeBetween TokiQuery.rangeMs
  split_ifs
  · rfl
  · cases toI64 (params.endMs-params.startMs) <;> rfl

/-- What the zone library promises of a zone. -/
structure Sound (clock : LocalClock) : Prop where
  /-- Offsets are less than a day. -/
  near : ∀ t, -86400<clock.offset t ∧ clock.offset t<86400
  /-- The first instant a local date-time resolves to shows it. -/
  shows : ∀ naive instant, (clock.fromLocalDatetime naive).earliest=some instant →
    reading clock.offset instant=naive

/-- Zones that resolve exactly are sound when their offsets are less than a
day. -/
theorem sound_zone (zone : Zone) (hnear : ∀ t, -86400<zone.offset t ∧ zone.offset t<86400) :
    Sound zone.toLocalClock := by
  refine ⟨hnear,fun naive instant h => ?_⟩
  have hresolves := zone.resolves naive
  cases hresult : zone.fromLocalDatetime naive with
  | none =>
    rw [hresult] at h
    cases h
  | single shown =>
    rw [hresult] at h hresolves
    have heq : shown=instant := by injection h
    exact (hresolves instant).mpr heq.symm
  | ambiguous earliest latest =>
    rw [hresult] at h hresolves
    have heq : earliest=instant := by injection h
    exact (hresolves.2 instant).mpr (.inl heq.symm)

/-- What the calendar library promises of the compact formats: there is room
for years of four digits only, or of three behind a sign. -/
structure FourDigitYears (parseDate parseDateTime : String → Option ℤ) : Prop where
  /-- Dates of eight bytes. -/
  date : ∀ s date, (utf8 s).length=8 → parseDate s=some date → -4371587≤date ∧ date≤2932896
  /-- Date-times of fourteen bytes. -/
  dateTime : ∀ s naive, (utf8 s).length=14 → parseDateTime s=some naive →
    -4371587*86400≤naive ∧ naive<2932897*86400

/-- Decimal digits have a value below the power of ten of their number. -/
theorem digitsValue_lt {digits : List Char} (hdigits : ∀ c∈digits, isAsciiDigit c) :
    digitsValue digits<10^digits.length := by
  induction digits using List.reverseRecOn with
  | nil => decide
  | append_singleton digits c ih =>
    have hlast := hdigits c (List.mem_append_right _ List.mem_cons_self)
    have hfront := ih fun d hd => hdigits d (List.mem_append_left _ hd)
    have hsmall : c.toNat≤57 := by
      unfold isAsciiDigit at hlast
      rw [Bool.and_eq_true,decide_eq_true_eq,decide_eq_true_eq] at hlast
      exact hlast.2
    have hvalue : digitsValue (digits++[c])=10*digitsValue digits+(c.toNat-48) := by
      rw [digitsValue,List.foldl_append]
      rfl
    rw [hvalue,List.length_append,List.length_singleton,Nat.pow_succ]
    omega

/-- A number text of thirteen bytes is digits only, or has one digit less. -/
theorem parseI64_small {s : String} {n : ℤ} (hlength : (utf8 s).length≤13)
    (hparse : parseI64 s.toList=some n) : -10^12<n ∧ n<10^13 ∧
      (n<10^12 ∨ (utf8 s).length=13 ∧ s.toList.all isAsciiDigit) := by
  obtain ⟨-,-,digits,value,hdecimal,hform⟩ := parseI64_eq_some_iff.mp hparse
  have hchars : s.toList.length≤(utf8 s).length := by
    rw [utf8_eq_bytesOf]
    exact length_le_bytesOf s.toList
  have hvalue : value<10^digits.length := by
    rw [← hdecimal.value_eq]
    exact digitsValue_lt hdecimal.digit
  have hlt : ∀ k, digits.length≤k → value<10^k := fun k hk =>
    hvalue.trans_le (Nat.pow_le_pow_right (by decide) hk)
  rcases hform with ⟨hplain | hplus,rfl⟩ | ⟨hminus,rfl⟩
  · rw [hplain] at hchars
    have hthirteen := hlt 13 (by omega)
    by_cases hshort : digits.length≤12
    · have htwelve := hlt 12 hshort
      omega
    · have hall : s.toList.all isAsciiDigit := by
        rw [hplain]
        exact List.all_eq_true.mpr hdecimal.digit
      exact ⟨by omega,by omega,.inr ⟨by omega,hall⟩⟩
  · rw [hplus,List.length_cons] at hchars
    have htwelve := hlt 12 (by omega)
    omega
  · rw [hminus,List.length_cons] at hchars
    have htwelve := hlt 12 (by omega)
    omega

theorem epochSeconds_eq_some {s : String} {seconds : ℤ} (h : epochSeconds s=some seconds) :
    parseI64 s.toList=some seconds ∧ (utf8 s).length≤13 := by
  unfold epochSeconds at h
  cases hparse : parseI64 s.toList with
  | none =>
    rw [hparse] at h
    cases h
  | some n =>
    rw [hparse,Option.bind_eq_bind,Option.bind_some] at h
    split_ifs at h with hlength
    exact ⟨h,hlength.2.2⟩

section

variable {parseDate parseDateTime : String → Option ℤ} {tz : Option LocalClock} {s : String}
variable {isEnd : Bool}

/-- A local date-time resolves to an instant less than a day off. -/
theorem resolveSingle_near (htz : ∀ clock∈tz, Sound clock) {naive instant : ℤ}
    (h : resolveSingle s tz naive=.ok instant) : naive-86400< instant ∧ instant<naive+86400 := by
  unfold resolveSingle at h
  cases tz with
  | none =>
    have heq : naive=instant := by injection h
    omega
  | some clock =>
    dsimp only at h
    cases hresult : clock.fromLocalDatetime naive with
    | none =>
      rw [hresult] at h
      cases h
    | single shown =>
      rw [hresult] at h
      have heq : shown=instant := by injection h
      have hshows := (htz clock rfl).shows naive shown (by rw [hresult]; rfl)
      have hnear := (htz clock rfl).near shown
      unfold reading at hshows
      omega
    | ambiguous earliest latest =>
      rw [hresult] at h
      cases h

/-- Seconds of a bound have at most thirteen digits, and at most twelve when
the text is not one of milliseconds. -/
theorem parseTokiTime_small (hyears : FourDigitYears parseDate parseDateTime)
    (htz : ∀ clock∈tz, Sound clock) {seconds : ℤ}
    (h : parseTokiTime parseDate parseDateTime s isEnd tz=.ok seconds) :
    -10^12< seconds ∧ seconds<10^13 ∧
      (seconds<10^12 ∨ (utf8 s).length=13 ∧ s.toList.all isAsciiDigit) := by
  unfold parseTokiTime at h
  cases hepoch : epochSeconds s with
  | some ts =>
    rw [hepoch] at h
    have heq : ts=seconds := by injection h
    obtain ⟨hparse,hlength⟩ := epochSeconds_eq_some hepoch
    rw [← heq]
    exact parseI64_small hlength hparse
  | none =>
    rw [hepoch] at h
    dsimp only at h
    cases hdate : if (utf8 s).length=8 then parseDate s else none with
    | some date =>
      rw [hdate] at h
      have hnear := resolveSingle_near htz h
      split_ifs at hdate with hlength
      have hyear := hyears.date s date hlength hdate
      split_ifs at hnear <;> omega
    | none =>
      rw [hdate] at h
      dsimp only at h
      cases hdateTime : if (utf8 s).length=14 then parseDateTime s else none with
      | some naive =>
        rw [hdateTime] at h
        have hnear := resolveSingle_near htz h
        split_ifs at hdateTime with hlength
        have hyear := hyears.dateTime s naive hlength hdateTime
        omega
      | none =>
        rw [hdateTime] at h
        cases h

/-- A bound is at most ten to the fifteen milliseconds away from the epoch. -/
theorem parseTokiBoundMs_small (hyears : FourDigitYears parseDate parseDateTime)
    (htz : ∀ clock∈tz, Sound clock) {ms : ℤ}
    (h : parseTokiBoundMs parseDate parseDateTime s isEnd tz=.ok ms) :
    -10^15≤ ms ∧ ms≤10^15 := by
  unfold parseTokiBoundMs at h
  split_ifs at h with hdigits
  · cases hparse : parseI64 s.toList with
    | some n =>
      rw [hparse] at h
      have heq : n=ms := by injection h
      have hsmall := parseI64_small hdigits.1.le hparse
      omega
    | none =>
      rw [hparse] at h
      cases h
  · cases htime : parseTokiTime parseDate parseDateTime s isEnd tz with
    | error e =>
      rw [htime] at h
      cases h
    | ok seconds =>
      rw [htime] at h
      obtain ⟨hlow,-,hhigh | hhigh⟩ := parseTokiTime_small hyears htz htime
      · change toBoundMs s _ seconds=.ok ms at h
        rw [toBoundMs_eq_ok s _ (by omega) (by omega)] at h
        have heq := Except.ok.inj h
        split_ifs at heq <;> omega
      · exact absurd hhigh hdigits

end

section

variable {clock : LocalClock} {startOfWeek : Weekday} {tsMs stepSecs : ℤ}

/-- The minute search stays inside of the calendar. -/
theorem nextReal_eq {steps : ℕ} {candidate : ℤ} (hlow : minUtc≤candidate)
    (hhigh : candidate+60*steps≤ maxUtc) :
    nextReal clock steps candidate=.ok (clock.nextReal steps candidate) := by
  induction steps generalizing candidate with
  | zero => rfl
  | succ steps ih =>
    rw [nextReal,LocalClock.nextReal]
    refine bind_eq_ok (within_eq_ok (by omega) (by omega)) ?_
    cases (clock.fromLocalDatetime (candidate+60)).earliest with
    | some instant => rfl
    | none => exact ih (by omega) (by omega)

/-- What it finds is shown by one of the minutes. -/
theorem nextReal_shown {steps : ℕ} {candidate instant : ℤ}
    (h : clock.nextReal steps candidate=some instant) :
    ∃ naive, candidate<naive ∧ naive≤candidate+60*steps ∧
      (clock.fromLocalDatetime naive).earliest=some instant := by
  induction steps generalizing candidate with
  | zero => cases h
  | succ steps ih =>
    rw [LocalClock.nextReal] at h
    cases hearliest : (clock.fromLocalDatetime (candidate+60)).earliest with
    | some shown =>
      rw [hearliest] at h
      have heq : shown=instant := by injection h
      rw [heq] at hearliest
      exact ⟨candidate+60,by omega,by omega,hearliest⟩
    | none =>
      rw [hearliest] at h
      obtain ⟨naive,hlow,hhigh,hshown⟩ := ih h
      exact ⟨naive,by omega,by omega,hshown⟩

/-- Resolving a midnight stays inside of the calendar. -/
theorem resolveMidnight_eq {date : ℤ} (hlow : minDate≤date) (hhigh : date< maxDate) :
    resolveMidnight clock date=.ok (clock.resolveMidnight date) := by
  unfold resolveMidnight LocalClock.resolveMidnight
  cases clock.fromLocalDatetime (date*86400) with
  | single instant => rfl
  | ambiguous earlier latest => rfl
  | none =>
    unfold minDate maxDate at *
    exact nextReal_eq (by unfold minUtc; omega) (by unfold maxUtc; omega)

/-- What a midnight resolves to is less than a day off its date. -/
theorem resolveMidnight_near (hclock : Sound clock) {date instant : ℤ}
    (h : clock.resolveMidnight date=some instant) :
    date*86400-86400< instant ∧ instant<date*86400+2*86400 := by
  have hnear := hclock.near instant
  have hshown : ∃ naive, date*86400≤naive ∧ naive≤date*86400+86400 ∧
      (clock.fromLocalDatetime naive).earliest=some instant := by
    unfold LocalClock.resolveMidnight at h
    cases hresult : clock.fromLocalDatetime (date*86400) with
    | single shown =>
      rw [hresult] at h
      exact ⟨date*86400,le_rfl,by omega,by rw [hresult]; exact h⟩
    | ambiguous earlier latest =>
      rw [hresult] at h
      exact ⟨date*86400,le_rfl,by omega,by rw [hresult]; exact h⟩
    | none =>
      rw [hresult] at h
      obtain ⟨naive,hlow,hhigh,hearliest⟩ := nextReal_shown h
      exact ⟨naive,by omega,by omega,hearliest⟩
  obtain ⟨naive,hlow,hhigh,hearliest⟩ := hshown
  have hshows := hclock.shows naive instant hearliest
  unfold reading at hshows
  omega

/-- Flooring a date by an accepted step stays inside of the calendar. -/
theorem startDate_eq {date : ℤ} (hstep : 0< stepSecs ∧ stepSecs≤2*10^12)
    (hdays : 86400∣stepSecs) (hdate : -20000000≤date ∧ date≤20000000) :
    startDate stepSecs startOfWeek date=.ok (CalendarBuckets.startDate stepSecs startOfWeek date) ∧
      -50000000<CalendarBuckets.startDate stepSecs startOfWeek date ∧
      CalendarBuckets.startDate stepSecs startOfWeek date≤20000000 := by
  have hfloor := floored_startDate hstep.1 hdays startOfWeek date
  have hle := hfloor.le
  have hlt := hfloor.lt
  refine ⟨?_,by omega,by omega⟩
  generalize hstart : CalendarBuckets.startDate stepSecs startOfWeek date=start at *
  unfold CalendarBuckets.startDate at hstart
  unfold startDate calendarDate durationDays maxDays
  split_ifs at hstart ⊢ with hweek
  · have hsow : 0≤ startOfWeek.numDaysFromMonday ∧ startOfWeek.numDaysFromMonday≤6 := by
      cases startOfWeek <;> decide
    have hday : 0≤weekdayFromMonday date ∧ weekdayFromMonday date≤6 := by
      unfold weekdayFromMonday
      omega
    have hback : (weekdayFromMonday date-startOfWeek.numDaysFromMonday+7).tmod 7=
        (weekdayFromMonday date-startOfWeek.numDaysFromMonday+7)%7 :=
      Int.tmod_eq_emod_of_nonneg (by omega)
    refine bind_eq_ok (sub_eq_ok (by omega) (by omega)) ?_
    refine bind_eq_ok (add_eq_ok (by omega) (by omega)) ?_
    refine bind_eq_ok (rem_eq_ok (by decide) (abs_lt.mpr ⟨by omega,by omega⟩)) ?_
    refine bind_eq_ok (within_eq_ok (by omega) (by omega)) ?_
    rw [hstart]
    exact within_eq_ok (by unfold minDate; omega) (by unfold maxDate; omega)
  · have hdiv : stepSecs.tdiv 86400=stepSecs/86400 := Int.tdiv_eq_ediv_of_nonneg hstep.1.le
    have hproduct : date/stepSecs.tdiv 86400*stepSecs.tdiv 86400=start := hstart
    refine bind_eq_ok (div_eq_ok (by decide) (abs_lt.mpr ⟨by omega,by omega⟩)) ?_
    refine bind_eq_ok (divEuclid_eq_ok (by omega) (abs_lt.mpr ⟨by omega,by omega⟩)) ?_
    refine bind_eq_ok (mul_eq_ok (by omega) (by omega)) ?_
    rw [hproduct]
    refine bind_eq_ok (within_eq_ok (by omega) (by omega)) ?_
    rw [Int.zero_add]
    exact within_eq_ok (by unfold minDate; omega) (by unfold maxDate; omega)

/-- Looking up the calendar period of a timestamp stays inside of the
calendar, and its start is not far from the epoch. -/
theorem calendarStart_eq (hclock : Sound clock) (hts : -10^15≤tsMs ∧ tsMs≤10^15)
    (hstep : 0< stepSecs ∧ stepSecs≤2*10^12) (hdays : 86400∣stepSecs) :
    calendarStart clock tsMs stepSecs startOfWeek=
        .ok (clock.calendarStart tsMs stepSecs startOfWeek) ∧
      ∀ start, clock.calendarStart tsMs stepSecs startOfWeek=some start →
        -5*10^12< start ∧ start<5*10^12 := by
  have hinstant : fromTimestampMillis tsMs=some (tsMs/1000) :=
    if_pos (by unfold minUtc maxUtc; omega)
  have hnear := hclock.near (tsMs/1000)
  have hlocal : -2*10^12<reading clock.offset (tsMs/1000) ∧
      reading clock.offset (tsMs/1000)<2*10^12 := by
    unfold reading
    omega
  have hsmall : -20000000≤reading clock.offset (tsMs/1000)/86400 ∧
      reading clock.offset (tsMs/1000)/86400≤20000000 := by
    unfold reading
    omega
  obtain ⟨hdate,hlow,hhigh⟩ := @startDate_eq startOfWeek stepSecs _ hstep hdays hsmall
  unfold calendarStart LocalClock.calendarStart
  rw [hinstant]
  refine ⟨?_,fun start hstart => ?_⟩
  · refine bind_eq_ok (within_eq_ok (by unfold minUtc; omega) (by unfold maxUtc; omega)) ?_
    refine bind_eq_ok hdate ?_
    exact resolveMidnight_eq (by unfold minDate; omega) (by unfold maxDate; omega)
  · have hmidnight := resolveMidnight_near hclock hstart
    omega

/-- Whether a step is a whole number of days is decided without overflow. -/
theorem wholeDays_eq (hstep : 0< stepSecs ∧ stepSecs≤2*10^12) :
    wholeDays stepSecs=.ok (CalendarBuckets.wholeDays stepSecs) := by
  unfold wholeDays CalendarBuckets.wholeDays
  split_ifs with hday
  · rw [decide_eq_true hday,Bool.true_and]
    exact bind_eq_ok (rem_eq_ok (by decide) (abs_lt.mpr ⟨by omega,by omega⟩)) rfl
  · rw [decide_eq_false hday,Bool.false_and]
    rfl

/-- The start of an epoch-aligned bucket is not further from the epoch. -/
theorem epochStart_eq (hts : -10^15≤tsMs ∧ tsMs≤10^15)
    (hstep : 0< stepSecs ∧ stepSecs≤2*10^12) :
    epochStart tsMs (stepSecs*1000)=.ok (CalendarBuckets.epochStart tsMs stepSecs) ∧
      -5*10^12<CalendarBuckets.epochStart tsMs stepSecs ∧
      CalendarBuckets.epochStart tsMs stepSecs<5*10^12 := by
  have hts' : |tsMs|≤10^15 := abs_le.mpr hts
  have hproduct := abs_le.mp ((tdiv_mul_le_abs tsMs (stepSecs*1000)).trans hts')
  have hdiv := @div_eq_ok tsMs (stepSecs*1000) (by omega) (hts'.trans_lt (by decide))
  have hstart : CalendarBuckets.epochStart tsMs stepSecs=
      (tsMs.tdiv (stepSecs*1000)*(stepSecs*1000)).tdiv 1000 := rfl
  rw [hstart]
  generalize tsMs.tdiv (stepSecs*1000)=number at *
  have hseconds : (number*(stepSecs*1000)).tdiv 1000=number*stepSecs := by
    rw [← Int.mul_assoc,Int.mul_tdiv_cancel _ (by decide)]
  refine ⟨?_,?_⟩
  · unfold epochStart
    refine bind_eq_ok hdiv ?_
    refine bind_eq_ok (mul_eq_ok (by omega) (by omega)) ?_
    exact div_eq_ok (by decide) (abs_lt.mpr ⟨by omega,by omega⟩)
  · rw [hseconds]
    rw [← Int.mul_assoc] at hproduct
    omega

/-- What the zone has to say about a bucket. -/
theorem zonedStart_eq {tz : Option LocalClock} (htz : ∀ clock∈tz, Sound clock)
    (hts : -10^15≤tsMs ∧ tsMs≤10^15) (hstep : 0< stepSecs ∧ stepSecs≤2*10^12) :
    ∃ zoned, zonedStart tsMs stepSecs tz startOfWeek (CalendarBuckets.wholeDays stepSecs)=
        .ok zoned ∧
      ZoneBuckets.bucketStartSec tsMs stepSecs tz startOfWeek=
        zoned.getD (CalendarBuckets.epochStart tsMs stepSecs) ∧
      ∀ start, zoned=some start → -5*10^12< start ∧ start<5*10^12 := by
  unfold zonedStart ZoneBuckets.bucketStartSec
  cases tz with
  | none => exact ⟨none,rfl,rfl,fun _ h => by cases h⟩
  | some clock =>
    dsimp only
    split_ifs with hcalendar
    · have hdays : 86400∣stepSecs := by
        rcases hcalendar with rfl | hwhole
        · decide
        · unfold CalendarBuckets.wholeDays at hwhole
          rw [Bool.and_eq_true,decide_eq_true_eq,decide_eq_true_eq] at hwhole
          exact Int.dvd_of_tmod_eq_zero hwhole.2
      obtain ⟨hstart,hsmall⟩ := calendarStart_eq (htz clock rfl) hts hstep hdays
      exact ⟨_,hstart,rfl,hsmall⟩
    · exact ⟨none,rfl,rfl,fun _ h => by cases h⟩

/-- The bucket of a timestamp near the epoch is computed without a stop, and
starts near the epoch. -/
theorem bucketStartSec_eq {tz : Option LocalClock} (htz : ∀ clock∈tz, Sound clock)
    (hts : -10^15≤tsMs ∧ tsMs≤10^15) (hstep : 0< stepSecs ∧ stepSecs≤2*10^12) :
    bucketStartSec tsMs stepSecs tz startOfWeek=
        .ok (ZoneBuckets.bucketStartSec tsMs stepSecs tz startOfWeek) ∧
      -5*10^12<ZoneBuckets.bucketStartSec tsMs stepSecs tz startOfWeek ∧
      ZoneBuckets.bucketStartSec tsMs stepSecs tz startOfWeek<5*10^12 := by
  obtain ⟨zoned,hzoned,hstart,hsmall⟩ := @zonedStart_eq startOfWeek _ _ _ htz hts hstep
  obtain ⟨hepoch,hnear⟩ := epochStart_eq hts hstep
  rw [hstart]
  unfold bucketStartSec
  refine ⟨?_,?_⟩
  · refine bind_eq_ok (mul_eq_ok (by omega) (by omega)) ?_
    refine bind_eq_ok (wholeDays_eq hstep) ?_
    refine bind_eq_ok hzoned ?_
    cases zoned with
    | some start => rfl
    | none => exact hepoch
  · cases zoned with
    | some start => exact hsmall start rfl
    | none => exact hnear

end

/-- Stored rows: those that sanitizing admits at some time before the year
9999, and what merging makes of them. -/
inductive Stored : WireWindow → Prop where
  /-- An admitted row. -/
  | admitted (items : List WireWindow) (nowMs : Int64) (w : WireWindow)
      (hclock : 0≤nowMs.toInt ∧ nowMs.toInt<year9999*1000)
      (hmem : w∈(sanitizeWindowBatch items nowMs).items) : Stored w
  /-- A merged row. -/
  | merged (prev other : WireWindow) (hprev : Stored prev) (hother : Stored other) :
      Stored (mergeWireWindows prev other)

/-- Reset times of stored rows are before the year 10000. -/
theorem Stored.reset_lt {w : WireWindow} (h : Stored w) :
    w.rawResetsAtMs.toInt<(year9999+366*86400)*1000 := by
  induction h with
  | admitted items nowMs w hclock hmem =>
    unfold year9999 at *
    have hhigh : Int64.maxValue.toInt=9223372036854775807 := rfl
    have hlow : Int64.minValue.toInt= -9223372036854775808 := rfl
    have hexact : Exact nowMs :=
      exact_of_inRange ⟨by rw [hlow,day]; omega,by rw [hhigh,day]; omega⟩
    obtain ⟨chosen,rest,hkept,hperm,-⟩ := sanitized_kept items nowMs
    rw [hkept] at hmem
    obtain ⟨x,hx,rfl⟩ := List.mem_map.mp hmem
    have hpasses := List.mem_filter.mp (hperm.mem_iff.mp (List.mem_append_left rest hx))
    have hreset := ((passes_iff hexact).mp hpasses.2).2.2.2.2.2
    rw [keptRow_eq]
    rw [day] at hreset
    dsimp only
    omega
  | merged prev other _ _ hprev hother =>
    unfold mergeWireWindows takeLatest
    split_ifs
    · exact hother
    · exact hprev

/-- Whether a stored window is final is decided without a stop. -/
theorem isFinal_eq {now : ℤ} (hnow : 0≤now ∧ now<year9999) {w : WireWindow} (hw : Stored w) :
    isFinal now w=.ok (finalAt now w) := by
  have hreset := hw.reset_lt
  have hlow := w.rawResetsAtMs.le_toInt
  unfold year9999 at *
  unfold isFinal finalAt
  cases w.finalized with
  | true => rfl
  | false =>
    rw [if_neg Bool.false_ne_true,Bool.false_or]
    refine bind_eq_ok (add_eq_ok (by omega) (by omega)) ?_
    exact bind_eq_ok (mul_eq_ok (by omega) (by omega)) rfl

/-- Checking a step needs no more than the length of the range. -/
theorem checkStep_eq {rangeMs stepSecs : ℤ} (hrange : 0≤rangeMs ∧ rangeMs≤2*10^15)
    (hstep : 0< stepSecs) :
    checkStep rangeMs stepSecs=.ok (TokiQuery.checkStep rangeMs stepSecs) := by
  have hseconds : rangeMs.tdiv 1000=rangeMs/1000 := Int.tdiv_eq_ediv_of_nonneg hrange.1
  have hsum : ∀ seconds : ℤ, 0≤ seconds → seconds≤2*10^12 →
      |max seconds 1+2000-1|<2^63 ∧ |max seconds 1|<2^63 := by
    intro seconds hlow hhigh
    have hone := le_max_right seconds 1
    have hmax := max_le hhigh (by decide : (1 : ℤ)≤2*10^12)
    exact ⟨abs_lt.mpr ⟨by omega,by omega⟩,abs_lt.mpr ⟨by omega,by omega⟩⟩
  obtain ⟨hrounded,hmax⟩ := hsum (rangeMs.tdiv 1000) (by omega) (by omega)
  have hsmall := abs_lt.mp hrounded
  unfold checkStep TokiQuery.checkStep TokiQuery.minStep TokiQuery.rangeSecs maxBuckets
  refine bind_eq_ok (div_eq_ok (by decide) (abs_lt.mpr ⟨by omega,by omega⟩)) ?_
  refine bind_eq_ok (add_eq_ok (by omega) (by omega)) ?_
  refine bind_eq_ok (sub_eq_ok (by omega) (by omega)) ?_
  refine bind_eq_ok (div_eq_ok (by decide) hrounded) ?_
  split_ifs with hless hmore
  · exact bind_eq_ok (div_eq_ok hstep hmax) rfl
  · rfl
  · rfl

/-- An accepted step is positive and at most the length of the range. -/
theorem stepOf_small {rangeMs stepSecs : ℤ} {step : Option String}
    (hrange : 0≤rangeMs ∧ rangeMs≤2*10^15) (h : stepOf rangeMs step=.ok stepSecs) :
    0< stepSecs ∧ stepSecs≤2*10^12 := by
  have hseconds : rangeMs.tdiv 1000=rangeMs/1000 := Int.tdiv_eq_ediv_of_nonneg hrange.1
  have hsecs : 1≤TokiQuery.rangeSecs rangeMs ∧ TokiQuery.rangeSecs rangeMs≤2*10^12 :=
    ⟨le_max_right _ _,max_le (by omega) (by decide)⟩
  cases step with
  | none =>
    have heq : TokiQuery.rangeSecs rangeMs=stepSecs := by injection h
    omega
  | some text =>
    unfold stepOf at h
    dsimp only at h
    cases hparse : parseDurationSecs text with
    | error e =>
      rw [hparse] at h
      cases h
    | ok n =>
      rw [hparse] at h
      cases hcheck : TokiQuery.checkStep rangeMs n with
      | error e =>
        simp only [bind,Except.bind,hcheck] at h
        cases h
      | ok _ =>
        simp only [bind,Except.bind,hcheck] at h
        have heq : n=stepSecs := by injection h
        have hpos := parseDurationSecs_pos hparse
        unfold TokiQuery.checkStep at hcheck
        split_ifs at hcheck with hless hmore
        omega

/-- The step of a request is computed without a stop. -/
theorem effectiveStep_eq {rangeMs : ℤ} (hrange : 0≤rangeMs ∧ rangeMs≤2*10^15)
    (step : Option String) : effectiveStep rangeMs step=.ok (stepOf rangeMs step) := by
  unfold effectiveStep stepOf
  cases step with
  | none =>
    exact bind_eq_ok (div_eq_ok (by decide) (abs_lt.mpr ⟨by omega,by omega⟩)) rfl
  | some text =>
    dsimp only
    cases hparse : parseDurationSecs text with
    | error e => rfl
    | ok stepSecs =>
      refine bind_eq_ok (checkStep_eq hrange (parseDurationSecs_pos hparse)) ?_
      cases hcheck : TokiQuery.checkStep rangeMs stepSecs <;>
        simp [bind,Except.bind,Except.map,pure,Except.pure,hcheck]

/-- The events of a request are put into buckets without a stop; those outside
of the range are passed over before anything is computed. -/
theorem aggregateEvents_eq {query : BucketQuery} (htz : ∀ clock∈query.tz, Sound clock)
    (hsince : -10^15≤query.sinceMs) (huntil : query.untilMs≤10^15)
    (hstep : 0<query.stepSecs ∧ query.stepSecs≤2*10^12) (events : List ServerEvent) :
    aggregateEvents query events=.ok (events.map query.bucket) := by
  unfold aggregateEvents
  refine bind_eq_ok (mul_eq_ok (by omega) (by omega)) ?_
  refine mapM_eq_ok fun event _ => ?_
  unfold eventBucket BucketQuery.bucket
  by_cases hinside : query.sinceMs≤event.tsMs.toInt ∧ event.tsMs.toInt<query.untilMs
  · obtain ⟨hstart,hlow,hhigh⟩ := @bucketStartSec_eq (query.startOfWeek.getD .mon)
      event.tsMs.toInt query.stepSecs query.tz htz ⟨by omega,by omega⟩ hstep
    rw [if_neg (by omega)]
    refine bind_eq_ok hstart ?_
    generalize ZoneBuckets.bucketStartSec event.tsMs.toInt query.stepSecs query.tz
      (query.startOfWeek.getD .mon)=start at *
    refine bind_eq_ok (mul_eq_ok (by omega) (by omega)) ?_
    refine bind_eq_ok (add_eq_ok (by omega) (by omega)) ?_
    by_cases houtside : start*1000+query.stepSecs*1000≤query.sinceMs ∨ start*1000≥query.untilMs
    · rw [if_pos houtside]
      dsimp only
      rw [if_neg (by omega)]
      rfl
    · rw [if_neg houtside]
      dsimp only
      rw [if_pos (by omega)]
      rfl
  · rw [if_pos (by omega)]
    dsimp only
    rw [if_neg fun h => hinside h.1]

section

variable {parseDate parseDateTime : String → Option ℤ} {now : ℤ} {request : QueryRequest}

/-- The bounds of a request are near the epoch. -/
theorem boundOr_small (hyears : FourDigitYears parseDate parseDateTime) {tz : Option LocalClock}
    (htz : ∀ clock∈tz, Sound clock) {text : Option String} {isEnd : Bool} {missing ms : ℤ}
    (hmissing : -10^15≤ missing ∧ missing≤10^15)
    (h : boundOr parseDate parseDateTime text isEnd tz missing=.ok ms) :
    -10^15≤ ms ∧ ms≤10^15 := by
  cases text with
  | none =>
    have heq : missing=ms := by injection h
    rw [← heq]
    exact hmissing
  | some s => exact parseTokiBoundMs_small hyears htz h

/-- Before the year 9999 the present is near the epoch, too. -/
theorem saturatingMul_now (hnow : 0≤now ∧ now<year9999) :
    saturatingMul now 1000=now*1000 ∧ now*1000≤10^15 := by
  unfold year9999 at hnow
  have hhigh : min (2^63-1) (now*1000)=now*1000 := min_eq_right (by omega)
  refine ⟨?_,by omega⟩
  unfold saturatingMul
  rw [hhigh]
  exact max_eq_right (by omega)

/-- So is the range of a request. -/
theorem queryRange_small (hyears : FourDigitYears parseDate parseDateTime)
    (htz : ∀ clock∈request.tz, Sound clock) (hnow : 0≤now ∧ now<year9999) {range : QueryRange}
    (h : queryRange parseDate parseDateTime now request=.ok range) :
    -10^15≤range.startMs ∧ range.endMs≤10^15 ∧ 0≤range.rangeMs ∧ range.rangeMs≤2*10^15 := by
  obtain ⟨hpresent,hpresent'⟩ := saturatingMul_now hnow
  unfold queryRange at h
  cases hstart : boundOr parseDate parseDateTime request.start false request.tz 0 with
  | error e =>
    rw [hstart] at h
    cases h
  | ok startMs =>
    cases hstop : boundOr parseDate parseDateTime request.stop true request.tz
        (saturatingMul now 1000) with
    | error e =>
      rw [hstart,hstop] at h
      cases h
    | ok endMs =>
      rw [hstart,hstop] at h
      have hfirst := boundOr_small hyears htz ⟨by decide,by decide⟩ hstart
      have hlast := boundOr_small hyears htz ⟨by omega,by omega⟩ hstop
      change rangeBetween startMs endMs=.ok range at h
      have hfits : toI64 (endMs-startMs)=some (endMs-startMs) := if_pos ⟨by omega,by omega⟩
      unfold rangeBetween at h
      rw [hfits] at h
      split_ifs at h with hless
      rw [← Except.ok.inj h]
      dsimp only
      omega

/-- No operation of a request stops, whatever its texts are, and what comes out
is what the integers give. The operations that the code checks do not fail
either: seconds that a bound is read as can be turned into milliseconds, with
one second behind them, and two bounds have a difference. -/
theorem tokiQuery_never_stops (hyears : FourDigitYears parseDate parseDateTime)
    (htz : ∀ clock∈request.tz, Sound clock) (hnow : 0≤now ∧ now<year9999)
    (events : List ServerEvent) {rows : List WireWindow} (hrows : ∀ w∈rows, Stored w) :
    tokiQuery parseDate parseDateTime now request events rows=
        .ok (integerQuery parseDate parseDateTime now request events rows) ∧
      (∀ s isEnd seconds, parseTokiTime parseDate parseDateTime s isEnd request.tz=.ok seconds →
        toI64 (seconds*1000)=some (seconds*1000) ∧
          toI64 (seconds*1000+1000)=some (seconds*1000+1000)) ∧
      ∀ startMs endMs, boundOr parseDate parseDateTime request.start false request.tz 0=
          .ok startMs →
        boundOr parseDate parseDateTime request.stop true request.tz (saturatingMul now 1000)=
          .ok endMs →
        toI64 (endMs-startMs)=some (endMs-startMs) := by
  obtain ⟨hpresent,hpresent'⟩ := saturatingMul_now hnow
  refine ⟨?_,fun s isEnd seconds h => ?_,fun startMs endMs hstart hstop => ?_⟩
  · unfold tokiQuery integerQuery
    cases hrange : queryRange parseDate parseDateTime now request with
    | error e => rfl
    | ok range =>
      obtain ⟨hsince,huntil,hlength⟩ := queryRange_small hyears htz hnow hrange
      dsimp only [bind,Except.bind]
      split_ifs with hwindows
      · have hfinal : (windowsInside range rows).mapM (isFinal now)=
            .ok ((windowsInside range rows).map (finalAt now)) :=
          mapM_eq_ok fun w hw => isFinal_eq hnow (hrows w (List.mem_filter.mp hw).1)
        rw [hfinal]
        rfl
      · cases hparsed : TokiQuery.parseQuery request.query with
        | error e => rfl
        | ok parsed =>
          dsimp only
          unfold answerBuckets
          refine bind_eq_ok (effectiveStep_eq hlength request.step) ?_
          cases hstep : stepOf range.rangeMs request.step with
          | error e => rfl
          | ok stepSecs =>
            dsimp only
            split_ifs with hraw
            · rfl
            · exact bind_eq_ok (@aggregateEvents_eq (bucketQuery request range stepSecs) htz hsince
                huntil (stepOf_small hlength hstep) events) rfl
  · have hsmall := parseTokiTime_small hyears htz h
    exact ⟨if_pos ⟨by omega,by omega⟩,if_pos ⟨by omega,by omega⟩⟩
  · have hfirst := boundOr_small hyears htz ⟨by decide,by decide⟩ hstart
    have hlast := boundOr_small hyears htz ⟨by omega,by omega⟩ hstop
    exact if_pos ⟨by omega,by omega⟩

end

/-- A request for one day in steps of a day. -/
def dayRequest : QueryRequest :=
  ⟨"usage",some "19700220",some "19700220",some "1d",some springZone.toLocalClock,none⟩

/-- An event on that day and one at the end of time. -/
def dayEvents : List ServerEvent :=
  [⟨"laptop","alice","m1",4352400000,"codex","gpt-5","","",4,2,0,0,6⟩,
    ⟨"laptop","alice","m2",9223372036854775807,"codex","gpt-5","","",4,2,0,0,6⟩]

/-- An admitted row. -/
def dayRows : List WireWindow :=
  (sanitizeWindowBatch [sampleWindow 1759995000000 300 6000000] 1759996000000).items

/-- The event on the day is put into the bucket of the day. -/
theorem tokiQuery_never_stops_day : dayRows.length=1 ∧
    tokiQuery sampleDates (fun _ => none) 1760000000 dayRequest dayEvents dayRows=
      .ok (.ok (.buckets [some 4320000,none])) := by
  have hoffset : ∀ t, springZone.offset t=if 8640000≤t then 3600 else 0 := fun _ => rfl
  have htz : ∀ clock∈dayRequest.tz, Sound clock := by
    intro clock hclock
    rw [← Option.some.inj hclock]
    refine sound_zone springZone fun t => ?_
    rw [hoffset]
    split_ifs <;> decide
  have hyears : FourDigitYears sampleDates fun _ => none := by
    refine ⟨fun s date _ h => ?_,fun _ _ _ h => by cases h⟩
    unfold sampleDates at h
    split_ifs at h <;> (cases h; decide)
  have hquery : integerQuery sampleDates (fun _ => none) 1760000000 dayRequest dayEvents dayRows=
      .ok (.buckets [some 4320000,none]) := by decide +kernel
  rw [← hquery]
  exact ⟨by decide +kernel,(tokiQuery_never_stops hyears htz (by decide) dayEvents
    fun w hw => .admitted _ _ w (by decide) hw).1⟩

end TokiSync.QueryArithmetic
