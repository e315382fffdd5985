import TokiSync.CalendarBuckets
import TokiSync.LocalClocks

/-!
# Calendar buckets in any zone

The bucket start asks the zone for two things only: the offset at an instant
and what a local date-time resolves to. Over any zone whose offsets are steady
and whose resolution is exact, the start of a calendar bucket is the first
instant from the local midnight of its date on. The zones given by a list of
changes are one case.
-/

namespace TokiSync.ZoneBuckets

open CalendarBuckets LocalClocks

/-- What the bucket start asks a zone for. -/
structure LocalClock where
  /-- Offset from UTC at an instant, in seconds. -/
  offset : ℤ → ℤ
  /-- Instants that show a local date-time. -/
  fromLocalDatetime : ℤ → LocalResult

/-- A resolution is exactly the instants that show a local date-time. -/
def Resolves (offset : ℤ → ℤ) (naive : ℤ) : LocalResult → Prop
  | .none => ∀ t, reading offset t≠naive
  | .single instant => ∀ t, reading offset t=naive ↔ t=instant
  | .ambiguous earliest latest =>
    earliest<latest ∧ ∀ t, reading offset t=naive ↔ t=earliest ∨ t=latest

/-- A time zone: steady offsets and exact resolution. -/
structure Zone extends LocalClock where
  /-- Its offsets are steady. -/
  steady : Steady offset
  /-- Its resolution is exact. -/
  resolves : ∀ naive, Resolves offset naive (fromLocalDatetime naive)

namespace LocalClock

variable (clock : LocalClock)

/-- First of the following whole minutes whose local reading exists. -/
def nextReal : ℕ → ℤ → Option ℤ
  | 0,_ => none
  | steps+1,candidate =>
    match (clock.fromLocalDatetime (candidate+60)).earliest with
    | some instant => some instant
    | none => nextReal steps (candidate+60)

/-- Resolve the local midnight of a date: its first instant, or, when the
clocks skip it, the first whole minute behind it that they show. -/
def resolveMidnight (date : ℤ) : Option ℤ :=
  match clock.fromLocalDatetime (date*86400) with
  | .single instant => some instant
  | .ambiguous earlier _ => some earlier
  | .none => clock.nextReal (24*60) (date*86400)

/-- Start of the local calendar period an instant lies in. -/
def calendarStart (tsMs stepSecs : ℤ) (startOfWeek : Weekday) : Option ℤ :=
  match fromTimestampMillis tsMs with
  | some instant =>
    clock.resolveMidnight (startDate stepSecs startOfWeek (reading clock.offset instant/86400))
  | none => none

end LocalClock

/-- Second at which the bucket of an event starts. -/
def bucketStartSec (tsMs stepSecs : ℤ) (tz : Option LocalClock) (startOfWeek : Weekday) : ℤ :=
  match tz with
  | some clock =>
    if stepSecs=604800 ∨ wholeDays stepSecs then
      (clock.calendarStart tsMs stepSecs startOfWeek).getD (epochStart tsMs stepSecs)
    else epochStart tsMs stepSecs
  | none => epochStart tsMs stepSecs

/-- A date floored to the step: to the start of its week, or to a multiple of
the days of the step. -/
structure Floored (stepSecs : ℤ) (startOfWeek : Weekday) (date floored : ℤ) : Prop where
  /-- It is not later. -/
  le : floored≤date
  /-- It is less than a step earlier. -/
  lt : date<floored+stepSecs/86400
  /-- It begins a period. -/
  begins : if stepSecs=604800 then weekdayFromMonday floored=startOfWeek.numDaysFromMonday
    else stepSecs/86400∣floored

/-- A date has only one floor. -/
theorem Floored.eq {stepSecs date first second : ℤ} {startOfWeek : Weekday}
    (h : Floored stepSecs startOfWeek date first) (h' : Floored stepSecs startOfWeek date second) :
    first=second := by
  have hle := h.le
  have hlt := h.lt
  have hle' := h'.le
  have hlt' := h'.lt
  have hbegins := h.begins
  have hbegins' := h'.begins
  by_cases hweek : stepSecs=604800
  · subst hweek
    rw [if_pos rfl,weekdayFromMonday] at hbegins hbegins'
    omega
  · rw [if_neg hweek] at hbegins hbegins'
    obtain ⟨a,rfl⟩ := hbegins
    obtain ⟨b,rfl⟩ := hbegins'
    have hpos : 0< stepSecs/86400 := by omega
    have hab : a=b := by
      have hone : stepSecs/86400*a< stepSecs/86400*(b+1) := by
        rw [Int.mul_add]
        omega
      have htwo : stepSecs/86400*b< stepSecs/86400*(a+1) := by
        rw [Int.mul_add]
        omega
      have hone' := Int.lt_of_mul_lt_mul_left hone hpos.le
      have htwo' := Int.lt_of_mul_lt_mul_left htwo hpos.le
      omega
    rw [hab]

/-- The code floors dates so. -/
theorem floored_startDate {stepSecs : ℤ} (hstep : 0< stepSecs) (hdays : 86400∣stepSecs)
    (startOfWeek : Weekday) (date : ℤ) :
    Floored stepSecs startOfWeek date (startDate stepSecs startOfWeek date) := by
  have hpos : 0< stepSecs/86400 := Int.ediv_pos_of_pos_of_dvd hstep (by decide) hdays
  unfold startDate
  by_cases hweek : stepSecs=604800
  · have hsow : 0≤ startOfWeek.numDaysFromMonday ∧ startOfWeek.numDaysFromMonday≤6 := by
      cases startOfWeek <;> decide
    have hback : (weekdayFromMonday date-startOfWeek.numDaysFromMonday+7).tmod 7=
        (weekdayFromMonday date-startOfWeek.numDaysFromMonday+7)%7 := by
      refine Int.tmod_eq_emod_of_nonneg ?_
      unfold weekdayFromMonday
      omega
    rw [if_pos hweek,hback]
    refine ⟨by omega,by omega,?_⟩
    rw [if_pos hweek]
    unfold weekdayFromMonday
    omega
  · have hdiv : stepSecs.tdiv 86400=stepSecs/86400 := Int.tdiv_eq_ediv_of_nonneg hstep.le
    have hmod := Int.mul_ediv_add_emod date (stepSecs/86400)
    have hlow := Int.emod_nonneg date hpos.ne'
    have hhigh := Int.emod_lt_of_pos date hpos
    rw [if_neg hweek,hdiv]
    dsimp only
    rw [Int.mul_comm]
    refine ⟨by omega,by omega,?_⟩
    rw [if_neg hweek]
    exact Int.dvd_mul_right _ _

/-- The minute search ends at the first minute that is shown. -/
theorem nextReal_eq {clock : LocalClock} {candidate instant : ℤ} {steps minutes : ℕ}
    (hfit : minutes< steps)
    (hskipped : ∀ m : ℕ, m< minutes →
      clock.fromLocalDatetime (candidate+60*((m : ℤ)+1))=.none)
    (hshown : (clock.fromLocalDatetime (candidate+60*((minutes : ℤ)+1))).earliest=some instant) :
    clock.nextReal steps candidate=some instant := by
  induction minutes generalizing steps candidate with
  | zero =>
    obtain ⟨steps,rfl⟩ : ∃ n, steps=n+1 := ⟨steps-1,by omega⟩
    have hnext : candidate+60*(((0 : ℕ) : ℤ)+1)=candidate+60 := by omega
    rw [hnext] at hshown
    rw [LocalClock.nextReal,hshown]
  | succ minutes ih =>
    obtain ⟨steps,rfl⟩ : ∃ n, steps=n+1 := ⟨steps-1,by omega⟩
    have hnext : candidate+60*(((0 : ℕ) : ℤ)+1)=candidate+60 := by omega
    have hfirst := hskipped 0 (by omega)
    rw [hnext] at hfirst
    rw [LocalClock.nextReal,hfirst]
    refine ih (by omega) (fun m hm => ?_) ?_
    · have hlater := hskipped (m+1) (by omega)
      have heq : candidate+60*(((m+1 : ℕ) : ℤ)+1)=candidate+60+60*((m : ℤ)+1) := by
        push_cast
        omega
      rwa [heq] at hlater
    · have heq : candidate+60*(((minutes+1 : ℕ) : ℤ)+1)=candidate+60+60*((minutes : ℤ)+1) := by
        push_cast
        omega
      rwa [heq] at hshown

namespace Zone

variable (zone : Zone)

/-- The first of the instants that show a local date-time. -/
theorem earliest_eq {naive first : ℤ} (hshown : reading zone.offset first=naive)
    (hfirst : ∀ t, reading zone.offset t=naive → first≤t) :
    (zone.fromLocalDatetime naive).earliest=some first := by
  have hresolves := zone.resolves naive
  cases hresult : zone.fromLocalDatetime naive with
  | none =>
    rw [hresult] at hresolves
    exact absurd hshown (hresolves first)
  | single instant =>
    rw [hresult] at hresolves
    rw [(hresolves first).mp hshown]
    rfl
  | ambiguous earliest latest =>
    rw [hresult] at hresolves
    obtain ⟨hlt,hinstants⟩ := hresolves
    have hle := hfirst earliest ((hinstants earliest).mpr (.inl rfl))
    rcases (hinstants first).mp hshown with rfl | rfl
    · rfl
    · omega

theorem eq_none {naive : ℤ} (hskipped : ∀ t, reading zone.offset t≠naive) :
    zone.fromLocalDatetime naive=.none := by
  have hresolves := zone.resolves naive
  cases hresult : zone.fromLocalDatetime naive with
  | none => rfl
  | single instant =>
    rw [hresult] at hresolves
    exact absurd ((hresolves instant).mpr rfl) (hskipped instant)
  | ambiguous earliest latest =>
    rw [hresult] at hresolves
    exact absurd ((hresolves.2 earliest).mpr (.inl rfl)) (hskipped earliest)

/-- The local midnight of a date resolves to the first instant from it on. -/
theorem resolveMidnight_eq {date first : ℤ}
    (hfirst : IsLeast {t | date*86400≤reading zone.offset t} first) :
    zone.resolveMidnight date=some first := by
  have hleast : ∀ {naive t}, date*86400≤naive → reading zone.offset t=naive → first≤t := by
    intro naive t hle ht
    exact hfirst.2 (show date*86400≤reading zone.offset t by omega)
  unfold LocalClock.resolveMidnight
  rcases zone.steady.first_reading hfirst with hshown | ⟨hlt,hnear,hwhole,hgap⟩
  · have hearliest := zone.earliest_eq hshown fun t ht => hleast le_rfl ht
    cases hresult : zone.fromLocalDatetime (date*86400) with
    | none => rw [hresult] at hearliest; cases hearliest
    | single instant => rw [hresult] at hearliest; exact hearliest
    | ambiguous earlier latest => rw [hresult] at hearliest; exact hearliest
  · -- the midnight is skipped; the minutes up to the first reading are, too
    have hskipped : ∀ naive, date*86400≤naive → naive<reading zone.offset first →
        zone.fromLocalDatetime naive=.none := by
      intro naive hle hbefore
      refine zone.eq_none fun t ht => ?_
      rcases hgap t with h | h
      · omega
      · omega
    rw [hskipped _ le_rfl hlt]
    obtain ⟨minutes,hminutes⟩ : ∃ minutes : ℕ,
        reading zone.offset first=date*86400+60*((minutes : ℤ)+1) :=
      ⟨((reading zone.offset first-date*86400)/60-1).toNat,by omega⟩
    refine @nextReal_eq zone.toLocalClock _ _ _ minutes (by omega) (fun m hm => ?_) ?_
    · exact hskipped _ (by omega) (by omega)
    · exact zone.earliest_eq hminutes fun t ht => hleast (by omega) ht

end Zone

/-- A calendar bucket starts at the first instant from the local midnight of
its floored date on, which is not later than the event; the zone is asked for
nothing it does not have. -/
theorem bucketStartSec_isLeast (zone : Zone) {tsMs stepSecs instant date : ℤ}
    {startOfWeek : Weekday} (hstep : 0< stepSecs) (hdays : 86400∣stepSecs)
    (hinstant : fromTimestampMillis tsMs=some instant)
    (hdate : Floored stepSecs startOfWeek (reading zone.offset instant/86400) date) :
    zone.calendarStart tsMs stepSecs startOfWeek=
        some (bucketStartSec tsMs stepSecs (some zone.toLocalClock) startOfWeek) ∧
      IsLeast {t | date*86400≤reading zone.offset t}
        (bucketStartSec tsMs stepSecs (some zone.toLocalClock) startOfWeek) ∧
      bucketStartSec tsMs stepSecs (some zone.toLocalClock) startOfWeek*1000≤tsMs := by
  obtain ⟨first,hfirst⟩ := zone.steady.exists_first (date*86400)
  have hfloor : startDate stepSecs startOfWeek (reading zone.offset instant/86400)=date :=
    (floored_startDate hstep hdays startOfWeek _).eq hdate
  have hcalendar : zone.calendarStart tsMs stepSecs startOfWeek=some first := by
    unfold LocalClock.calendarStart
    rw [hinstant]
    dsimp only
    rw [hfloor,zone.resolveMidnight_eq hfirst]
  have hwhole : wholeDays stepSecs=true := by
    unfold wholeDays
    have hmod : stepSecs.tmod 86400=0 := Int.tmod_eq_zero_of_dvd hdays
    obtain ⟨days,rfl⟩ := hdays
    rw [hmod,Bool.and_eq_true,decide_eq_true_eq,decide_eq_true_eq]
    omega
  have hbucket : bucketStartSec tsMs stepSecs (some zone.toLocalClock) startOfWeek=first := by
    unfold bucketStartSec
    dsimp only
    rw [if_pos (Or.inr hwhole),hcalendar]
    rfl
  rw [hbucket]
  refine ⟨hcalendar,hfirst,?_⟩
  have hle := hdate.le
  have hbefore : first≤ instant :=
    hfirst.2 (show date*86400≤reading zone.offset instant by omega)
  have hsecond : instant=tsMs/1000 := by
    unfold fromTimestampMillis at hinstant
    split_ifs at hinstant
    exact (Option.some.inj hinstant).symm
  omega

/-- The clock of a zone given by its changes. -/
def ofTz (tz : Tz) : LocalClock := ⟨tz.offset,tz.fromLocalDatetime⟩

theorem nextReal_ofTz (tz : Tz) (steps : ℕ) (candidate : ℤ) :
    (ofTz tz).nextReal steps candidate=tz.nextReal steps candidate := by
  induction steps generalizing candidate with
  | zero => rfl
  | succ steps ih =>
    rw [LocalClock.nextReal,Tz.nextReal,ih]
    rfl

/-- The buckets of a zone given by its changes are those of its clock. -/
theorem bucketStartSec_ofTz (tsMs stepSecs : ℤ) (tz : Option Tz) (startOfWeek : Weekday) :
    bucketStartSec tsMs stepSecs (tz.map ofTz) startOfWeek=
      CalendarBuckets.bucketStartSec tsMs stepSecs tz startOfWeek := by
  have hmidnight : ∀ (tz : Tz) (date : ℤ),
      (ofTz tz).resolveMidnight date=CalendarBuckets.resolveMidnight tz date := by
    intro tz date
    unfold LocalClock.resolveMidnight CalendarBuckets.resolveMidnight
    rw [nextReal_ofTz]
    rfl
  cases tz with
  | none => rfl
  | some tz =>
    have hcalendar : (ofTz tz).calendarStart tsMs stepSecs startOfWeek=
        CalendarBuckets.calendarStart tsMs stepSecs tz startOfWeek := by
      unfold LocalClock.calendarStart CalendarBuckets.calendarStart
      simp only [hmidnight]
      rfl
    rw [Option.map_some,bucketStartSec,CalendarBuckets.bucketStartSec,hcalendar]

/-- The listed instants are those that show a local date-time. -/
theorem mem_instants {tz : Tz} {naive instant : ℤ} :
    instant∈tz.instants naive ↔ tz.reading instant=naive := by
  have hoffset : ∀ (changes : List (ℤ×ℤ)) (first : ℤ),
      changes.foldl (fun current change => if change.1≤ instant then change.2 else current) first∈
        first::changes.map Prod.snd := by
    intro changes
    induction changes with
    | nil =>
      intro first
      exact List.mem_cons_self
    | cons change changes ih =>
      intro first
      rw [List.foldl_cons]
      have hmem := ih (if change.1≤ instant then change.2 else first)
      split_ifs at hmem ⊢
      · exact List.mem_cons_of_mem _ hmem
      · rcases List.mem_cons.mp hmem with h | h
        · rw [h]
          exact List.mem_cons_self
        · exact List.mem_cons_of_mem _ (List.mem_cons_of_mem _ h)
  rw [Tz.instants,(List.perm_insertionSort _ _).mem_iff,List.mem_dedup,List.mem_filter,
    decide_eq_true_eq]
  constructor
  · exact fun h => h.2
  · intro h
    refine ⟨List.mem_map.mpr ⟨tz.offset instant,hoffset tz.changes tz.first,?_⟩,h⟩
    rw [← h,Tz.reading]
    omega

/-- Steady offsets given by a list of changes resolve exactly. -/
theorem resolves_ofTz {tz : Tz} (h : Steady tz.offset) (naive : ℤ) :
    Resolves tz.offset naive (tz.fromLocalDatetime naive) := by
  have hmem : ∀ t, t∈tz.instants naive ↔ reading tz.offset t=naive := fun _ => mem_instants
  have hsorted : (tz.instants naive).Pairwise (·<·) := by
    have hle : (tz.instants naive).Pairwise (·≤·) := List.pairwise_insertionSort _ _
    have hne : (tz.instants naive).Nodup :=
      (List.perm_insertionSort _ _).nodup_iff.mpr (List.nodup_dedup _)
    exact (hle.and hne).imp fun hab => lt_of_le_of_ne hab.1 hab.2
  unfold Tz.fromLocalDatetime
  generalize tz.instants naive=instants at hmem hsorted
  match instants with
  | [] => exact fun t ht => List.not_mem_nil ((hmem t).mpr ht)
  | [instant] => exact fun t => (hmem t).symm.trans List.mem_singleton
  | [earliest,latest] =>
    refine ⟨List.rel_of_pairwise_cons hsorted List.mem_cons_self,fun t => ?_⟩
    rw [← hmem t,List.mem_cons,List.mem_singleton]
    rfl
  | earliest::later::last::rest =>
    -- no reading is shown three times
    have hlater := (List.pairwise_cons.mp hsorted).2
    have hshown : ∀ t∈earliest::later::last::rest, reading tz.offset t=naive :=
      fun t ht => (hmem t).mp ht
    refine absurd ?_ (h.at_most_two (List.rel_of_pairwise_cons hsorted List.mem_cons_self)
      (List.rel_of_pairwise_cons hlater List.mem_cons_self) ?_)
    · rw [hshown later (by simp),hshown last (by simp)]
    · rw [hshown earliest (by simp),hshown later (by simp)]

/-- The zone given by a list of changes with steady offsets. -/
def Zone.ofTz (tz : Tz) (h : Steady tz.offset) : Zone where
  toLocalClock := ZoneBuckets.ofTz tz
  steady := h
  resolves := resolves_ofTz h

/-- A zone whose clocks are set from midnight to one o'clock, a hundred days
behind the epoch. -/
def springForward : Tz := ⟨0,[(8640000,3600)],List.pairwise_singleton _ _⟩

theorem steady_springForward : Steady springForward.offset := by
  have hoffset : ∀ t, springForward.offset t=if 8640000≤t then 3600 else 0 := fun _ => rfl
  have hchange : ∀ t, ChangesAt springForward.offset t → t=8640000 := by
    intro t h
    rw [ChangesAt,hoffset,hoffset] at h
    split_ifs at h <;> omega
  constructor
  · intro t
    rw [hoffset]
    split_ifs <;> omega
  · intro t h
    rw [hchange t h]
    decide
  · intro s t hs ht hlt
    have hs' := hchange s hs
    have ht' := hchange t ht
    omega
  · intro t
    rw [hoffset,hoffset]
    split_ifs <;> decide

/-- At ten in the morning of that day its bucket starts at one o'clock, the
first instant of the day. -/
theorem bucketStartSec_isLeast_springForward :
    IsLeast {t | 100*86400≤reading springForward.offset t} (bucketStartSec 8672400000 86400
      (some (Zone.ofTz springForward steady_springForward).toLocalClock) .mon) ∧
    bucketStartSec 8672400000 86400
      (some (Zone.ofTz springForward steady_springForward).toLocalClock) .mon=8640000 :=
  ⟨(bucketStartSec_isLeast (Zone.ofTz springForward steady_springForward) (by decide) (by decide)
    (by decide : fromTimestampMillis 8672400000=some 8672400)
    ⟨by decide,by decide,by decide⟩).2.1,by decide +kernel⟩

end TokiSync.ZoneBuckets
