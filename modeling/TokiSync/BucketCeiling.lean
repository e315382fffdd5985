import TokiSync.ZoneBuckets
import TokiSync.SteppedCounts
import TokiSync.TokiQuery

/-!
# The ceiling of time buckets

The step of a range query is checked against the length of the range, but the
buckets are aligned to the epoch or to local days. How many are taken depends
on where the range lies: the numbers of the first and the last of them have to
be less than the ceiling apart.
-/

namespace TokiSync.BucketCeiling

open CalendarBuckets LocalClocks SteppedCounts TokiQuery ZoneBuckets

/-- Bucket starts of the timestamps of a range. -/
def bucketsTaken (startMs endMs stepSecs : ℤ) (tz : Option LocalClock) (startOfWeek : Weekday) :
    Set ℤ :=
  (fun tsMs => bucketStartSec tsMs stepSecs tz startOfWeek) '' Set.Ico startMs endMs

/-- Number of the period a date lies in: of its week, or of its group of days
since the epoch. -/
def dayIndex (stepSecs : ℤ) (startOfWeek : Weekday) (date : ℤ) : ℤ :=
  if stepSecs=604800 then (date+3-startOfWeek.numDaysFromMonday)/7 else date/(stepSecs/86400)

/-- Local date of a timestamp. -/
def localDate (zone : Zone) (tsMs : ℤ) : ℤ := reading zone.offset (tsMs/1000)/86400

/-- The epoch-aligned buckets of the ends of a range are close enough. -/
def EndsClose (startMs endMs stepSecs : ℤ) : Prop :=
  startMs=endMs ∨ (endMs-1).tdiv (stepSecs*1000)-startMs.tdiv (stepSecs*1000)< maxBuckets

/-- The local periods of a range are close enough. -/
def DaysClose (startMs endMs stepSecs : ℤ) (zone : Zone) (startOfWeek : Weekday) : Prop :=
  ∀ first∈Set.Ico startMs endMs, ∀ second∈Set.Ico startMs endMs,
    dayIndex stepSecs startOfWeek (localDate zone second)-
      dayIndex stepSecs startOfWeek (localDate zone first)< maxBuckets

/-- The range is aligned so that its buckets fit under the ceiling. -/
def FitsCeiling (startMs endMs stepSecs : ℤ) (zone : Option Zone) (startOfWeek : Weekday) : Prop :=
  match zone with
  | some zone =>
    if wholeDays stepSecs then DaysClose startMs endMs stepSecs zone startOfWeek
    else EndsClose startMs endMs stepSecs
  | none => EndsClose startMs endMs stepSecs

/-- Quotients move by at most so many with that many divisors. -/
theorem ediv_le_add {k n x y : ℤ} (hk : 0<k) (hxy : x≤y+n*k) : x/k≤y/k+n := by
  have hle : x/k≤(y+n*k)/k := Int.ediv_le_ediv hk hxy
  rwa [Int.add_mul_ediv_right _ _ hk.ne'] at hle

/-- So do quotients that are rounded towards zero. -/
theorem tdiv_le_add {k n x y : ℤ} (hk : 0<k) (hn : 0≤n) (hxy : x≤y+n*k) :
    x.tdiv k≤y.tdiv k+n := by
  have hflip : ∀ z : ℤ, z≤0 → z.tdiv k= -((-z)/k) := by
    intro z hz
    rw [← Int.tdiv_eq_ediv_of_nonneg (by omega : 0≤-z),Int.neg_tdiv,Int.neg_neg]
  rcases le_or_gt 0 x with hx | hx
  · rw [Int.tdiv_eq_ediv_of_nonneg hx]
    rcases le_or_gt 0 y with hy | hy
    · rw [Int.tdiv_eq_ediv_of_nonneg hy]
      exact ediv_le_add hk hxy
    · -- rounding towards zero is rounding up there
      have hup : y/k≤y.tdiv k := by
        rw [Int.tdiv_eq_ediv,Int.sign_eq_one_of_pos hk]
        split_ifs <;> omega
      have hle := ediv_le_add hk hxy
      omega
  · rw [hflip x hx.le]
    rcases le_or_gt 0 y with hy | hy
    · have hpos := Int.ediv_nonneg (by omega : 0≤-x) hk.le
      have hpos' := Int.tdiv_nonneg hy hk.le
      omega
    · rw [hflip y hy.le]
      have hle := ediv_le_add hk (by omega : -y≤-x+n*k)
      omega

/-- An epoch-aligned bucket starts at its number of steps. -/
theorem epochStart_eq (tsMs stepSecs : ℤ) :
    epochStart tsMs stepSecs=tsMs.tdiv (stepSecs*1000)*stepSecs := by
  show (tsMs.tdiv (stepSecs*1000)*(stepSecs*1000)).tdiv 1000=_
  rw [← Int.mul_assoc,Int.mul_tdiv_cancel _ (by decide)]

theorem steps_tdiv {stepSecs : ℤ} (hstep : 0< stepSecs) (startMs endMs : ℤ) :
    Steps (fun tsMs => tsMs.tdiv (stepSecs*1000)) startMs endMs := by
  intro t _ _
  have hms : 0< stepSecs*1000 := by omega
  exact ⟨tdiv_le_add hms (by decide) (by omega),tdiv_le_add hms (by decide) (by omega)⟩

/-- Epoch-aligned buckets are at most so many when those of the two ends are
less than that apart. -/
theorem epoch_encard_le_iff {startMs endMs stepSecs : ℤ} (hle : startMs≤endMs)
    (hstep : 0< stepSecs) (n : ℕ) :
    ((fun tsMs => epochStart tsMs stepSecs) '' Set.Ico startMs endMs).encard≤n ↔
      startMs=endMs ∨ (endMs-1).tdiv (stepSecs*1000)-startMs.tdiv (stepSecs*1000)<n := by
  have hsame := @encard_image_congr ℤ ℤ ℤ (fun tsMs => epochStart tsMs stepSecs)
    (fun tsMs => tsMs.tdiv (stepSecs*1000)) (Set.Ico startMs endMs) fun a _ b _ => by
      rw [epochStart_eq,epochStart_eq]
      exact ⟨fun h => Int.eq_of_mul_eq_mul_right hstep.ne' h,fun h => by rw [h]⟩
  rw [hsame,(steps_tdiv hstep startMs endMs).encard_image_le_iff n]
  have hms : 0≤ stepSecs*1000 := by omega
  constructor
  · intro h
    rcases hle.eq_or_lt with heq | hlt
    · exact .inl heq
    · exact .inr (h startMs ⟨le_rfl,hlt⟩ (endMs-1) ⟨by omega,by omega⟩)
  · rintro (rfl | h) a ha b hb
    · exact absurd ha.2 (not_lt_of_ge ha.1)
    · have hfirst : startMs.tdiv (stepSecs*1000)≤a.tdiv (stepSecs*1000) :=
        Int.tdiv_le_tdiv (by omega) ha.1
      have hlast : b.tdiv (stepSecs*1000)≤(endMs-1).tdiv (stepSecs*1000) :=
        Int.tdiv_le_tdiv (by omega) (by have hlt := hb.2; omega)
      omega

/-- They fit under the ceiling when the ends are close enough. -/
theorem epoch_le_iff {startMs endMs stepSecs : ℤ} (hle : startMs≤endMs) (hstep : 0< stepSecs) :
    ((fun tsMs => epochStart tsMs stepSecs) '' Set.Ico startMs endMs).encard≤2000 ↔
      EndsClose startMs endMs stepSecs := by
  have hcount := epoch_encard_le_iff hle hstep 2000
  rw [Nat.cast_ofNat] at hcount
  exact hcount

/-- A checked step misses the ceiling by two epoch-aligned buckets at most. -/
theorem epoch_le_of_checkStep {startMs endMs stepSecs : ℤ} (hle : startMs≤endMs)
    (hstep : 0< stepSecs) (hcheck : checkStep (endMs-startMs) stepSecs=.ok ()) :
    ((fun tsMs => epochStart tsMs stepSecs) '' Set.Ico startMs endMs).encard≤2002 := by
  have hcount := epoch_encard_le_iff hle hstep 2002
  rw [Nat.cast_ofNat] at hcount
  rw [hcount]
  have hseconds : (endMs-startMs).tdiv 1000=(endMs-startMs)/1000 :=
    Int.tdiv_eq_ediv_of_nonneg (by omega)
  have hrange : (endMs-startMs)/1000≤rangeSecs (endMs-startMs) := by
    unfold rangeSecs
    rw [hseconds]
    exact le_max_left _ _
  have hleast : minStep (endMs-startMs)≤ stepSecs := by
    unfold checkStep at hcheck
    split_ifs at hcheck with hless hmore
    exact not_lt.mp hless
  have hrounded : minStep (endMs-startMs)=(rangeSecs (endMs-startMs)+1999)/2000 := by
    have hone : 1≤rangeSecs (endMs-startMs) := le_max_right _ _
    unfold minStep maxBuckets
    rw [Int.tdiv_eq_ediv_of_nonneg (by omega)]
    omega
  rcases hle.eq_or_lt with heq | hlt
  · exact .inl heq
  · -- the range is shorter than 2001 steps
    have hnear : endMs-1≤ startMs+2001*(stepSecs*1000) := by omega
    have hfar := tdiv_le_add (by omega : 0< stepSecs*1000) (by decide) hnear
    exact .inr (by push_cast; omega)

/-- A date is floored to its number of periods. -/
theorem floored_dayIndex {stepSecs : ℤ} (hstep : 0< stepSecs) (hdays : 86400∣stepSecs)
    (startOfWeek : Weekday) (date : ℤ) :
    Floored stepSecs startOfWeek date (dayIndex stepSecs startOfWeek date*(stepSecs/86400)+
      if stepSecs=604800 then startOfWeek.numDaysFromMonday-3 else 0) := by
  have hpos : 0< stepSecs/86400 := Int.ediv_pos_of_pos_of_dvd hstep (by decide) hdays
  unfold dayIndex
  by_cases hweek : stepSecs=604800
  · subst hweek
    have hsow : 0≤ startOfWeek.numDaysFromMonday ∧ startOfWeek.numDaysFromMonday≤6 := by
      cases startOfWeek <;> decide
    rw [if_pos rfl,if_pos rfl]
    refine ⟨by omega,by omega,?_⟩
    rw [if_pos rfl,weekdayFromMonday]
    omega
  · have hmod := Int.mul_ediv_add_emod date (stepSecs/86400)
    have hlow := Int.emod_nonneg date hpos.ne'
    have hhigh := Int.emod_lt_of_pos date hpos
    rw [if_neg hweek,if_neg hweek,Int.mul_comm]
    refine ⟨by omega,by omega,?_⟩
    rw [if_neg hweek,Int.add_zero]
    exact Int.dvd_mul_right _ _

/-- The number of the period moves by at most one with the date. -/
theorem dayIndex_step {stepSecs first second : ℤ} (hstep : 0< stepSecs) (hdays : 86400∣stepSecs)
    (startOfWeek : Weekday) (hnear : second≤first+1) :
    dayIndex stepSecs startOfWeek second≤dayIndex stepSecs startOfWeek first+1 := by
  unfold dayIndex
  split_ifs with hweek
  · exact ediv_le_add (by decide) (by omega)
  · have hpos : 0< stepSecs/86400 := Int.ediv_pos_of_pos_of_dvd hstep (by decide) hdays
    exact ediv_le_add hpos (by omega)

/-- So does the local date with the timestamp. -/
theorem localDate_step (zone : Zone) (tsMs : ℤ) :
    localDate zone (tsMs+1)≤localDate zone tsMs+1 ∧
      localDate zone tsMs≤localDate zone (tsMs+1)+1 := by
  unfold localDate
  obtain hsame | hnext : (tsMs+1)/1000=tsMs/1000 ∨ (tsMs+1)/1000=tsMs/1000+1 := by omega
  · rw [hsame]
    omega
  · rw [hnext]
    have hjump := abs_lt.mp (zone.steady.jumps (tsMs/1000+1))
    rw [add_sub_cancel_right] at hjump
    unfold reading
    omega

theorem steps_dayIndex (zone : Zone) {stepSecs : ℤ} (hstep : 0< stepSecs) (hdays : 86400∣stepSecs)
    (startOfWeek : Weekday) (startMs endMs : ℤ) :
    Steps (fun tsMs => dayIndex stepSecs startOfWeek (localDate zone tsMs)) startMs endMs := by
  intro t _ _
  obtain ⟨hup,hdown⟩ := localDate_step zone t
  exact ⟨dayIndex_step hstep hdays startOfWeek hup,dayIndex_step hstep hdays startOfWeek hdown⟩

/-- Dates that are reached first at the same instant are the same. -/
theorem date_eq_of_first (zone : Zone) {date date' first : ℤ}
    (hfirst : IsLeast {t | date*86400≤reading zone.offset t} first)
    (hfirst' : IsLeast {t | date'*86400≤reading zone.offset t} first) : date=date' := by
  have hnear : ∀ {d : ℤ}, IsLeast {t | d*86400≤reading zone.offset t} first →
      reading zone.offset first/86400=d := by
    intro d hd
    have hreached : d*86400≤reading zone.offset first := hd.1
    rcases zone.steady.first_reading hd with heq | ⟨_,hlt,_⟩
    · omega
    · omega
  rw [← hnear hfirst,hnear hfirst']

/-- Calendar buckets start together exactly when their periods have one number. -/
theorem calendarBucket_eq_iff (zone : Zone) {stepSecs first second : ℤ} (hstep : 0< stepSecs)
    (hdays : 86400∣stepSecs) (startOfWeek : Weekday)
    (hfirst : fromTimestampMillis first=some (first/1000))
    (hsecond : fromTimestampMillis second=some (second/1000)) :
    bucketStartSec first stepSecs (some zone.toLocalClock) startOfWeek=
        bucketStartSec second stepSecs (some zone.toLocalClock) startOfWeek ↔
      dayIndex stepSecs startOfWeek (localDate zone first)=
        dayIndex stepSecs startOfWeek (localDate zone second) := by
  have hpos : 0< stepSecs/86400 := Int.ediv_pos_of_pos_of_dvd hstep (by decide) hdays
  have hleast := (bucketStartSec_isLeast zone hstep hdays hfirst
    (floored_dayIndex hstep hdays startOfWeek (localDate zone first))).2.1
  have hleast' := (bucketStartSec_isLeast zone hstep hdays hsecond
    (floored_dayIndex hstep hdays startOfWeek (localDate zone second))).2.1
  constructor
  · intro heq
    rw [heq] at hleast
    have hdates := date_eq_of_first zone hleast hleast'
    exact Int.eq_of_mul_eq_mul_right hpos.ne' ((Int.add_left_inj _).mp hdates)
  · intro heq
    rw [heq] at hleast
    exact hleast.unique hleast'

/-- Calendar buckets fit when the numbers of the periods are close enough. -/
theorem calendar_le_iff (zone : Zone) {startMs endMs stepSecs : ℤ} (hstep : 0< stepSecs)
    (hdays : 86400∣stepSecs) (startOfWeek : Weekday) (hlow : minUtc*1000≤ startMs)
    (hhigh : endMs≤(maxUtc+1)*1000) :
    ((fun tsMs => bucketStartSec tsMs stepSecs (some zone.toLocalClock) startOfWeek) ''
      Set.Ico startMs endMs).encard≤2000 ↔ DaysClose startMs endMs stepSecs zone startOfWeek := by
  have hcalendar : ∀ t∈Set.Ico startMs endMs, fromTimestampMillis t=some (t/1000) := by
    intro t ht
    obtain ⟨hfrom,hto⟩ := ht
    unfold fromTimestampMillis
    rw [if_pos]
    unfold minUtc maxUtc at *
    omega
  have hsame := @encard_image_congr ℤ ℤ ℤ
    (fun tsMs => bucketStartSec tsMs stepSecs (some zone.toLocalClock) startOfWeek)
    (fun tsMs => dayIndex stepSecs startOfWeek (localDate zone tsMs)) (Set.Ico startMs endMs)
    fun a ha b hb => calendarBucket_eq_iff zone hstep hdays startOfWeek (hcalendar a ha)
      (hcalendar b hb)
  have hcount := (steps_dayIndex zone hstep hdays startOfWeek startMs endMs).encard_image_le_iff
    2000
  rw [Nat.cast_ofNat] at hcount
  rw [hsame,hcount]
  rfl

/-- Steps of whole days are multiples of a day. -/
theorem dvd_of_wholeDays {stepSecs : ℤ} (h : wholeDays stepSecs) : 86400∣stepSecs := by
  unfold wholeDays at h
  rw [Bool.and_eq_true,decide_eq_true_eq,decide_eq_true_eq] at h
  exact Int.dvd_of_tmod_eq_zero h.2

/-- At most 2000 buckets are taken exactly when the first and the last of them
are less than 2000 apart. Ranges that are cut by days lie inside the calendar,
as all accepted ones do. -/
theorem bucketsTaken_le_iff (zone : Option Zone) {startMs endMs stepSecs : ℤ}
    (hle : startMs≤endMs) (hstep : 0< stepSecs) (startOfWeek : Weekday)
    (hcalendar : zone.isSome → wholeDays stepSecs → minUtc*1000≤ startMs ∧ endMs≤(maxUtc+1)*1000) :
    (bucketsTaken startMs endMs stepSecs (zone.map Zone.toLocalClock) startOfWeek).encard≤2000 ↔
      FitsCeiling startMs endMs stepSecs zone startOfWeek := by
  unfold bucketsTaken FitsCeiling
  cases zone with
  | none => exact epoch_le_iff hle hstep
  | some zone =>
    dsimp only
    split_ifs with hdays
    · obtain ⟨hlow,hhigh⟩ := hcalendar rfl hdays
      exact calendar_le_iff zone hstep (dvd_of_wholeDays hdays) startOfWeek hlow hhigh
    · have hepoch : ∀ tsMs, bucketStartSec tsMs stepSecs ((some zone).map Zone.toLocalClock)
          startOfWeek=epochStart tsMs stepSecs := by
        intro tsMs
        have hweek : stepSecs≠604800 := by
          rintro rfl
          exact hdays (by decide)
        rw [Option.map_some,ZoneBuckets.bucketStartSec]
        rw [if_neg]
        rintro (h | h)
        · exact hweek h
        · exact hdays h
      simp only [hepoch]
      exact epoch_le_iff hle hstep

/-- Two thousand seconds from the epoch on take two thousand buckets of one
second at most, and three days do not take more of one day. -/
theorem bucketsTaken_le_iff_aligned :
    (bucketsTaken 0 2000000 1 ((none : Option Zone).map Zone.toLocalClock) .mon).encard≤2000 ∧
    (bucketsTaken 0 259200000 86400
      ((some (Zone.ofTz springForward steady_springForward)).map Zone.toLocalClock)
      .mon).encard≤2000 := by
  constructor
  · exact (bucketsTaken_le_iff none (by decide) (by decide) .mon (by decide)).mpr
      (.inr (by decide))
  · refine (bucketsTaken_le_iff (some (Zone.ofTz springForward steady_springForward)) (by decide)
      (by decide) .mon fun _ _ => by decide).mpr ?_
    have hoffset : ∀ t, (Zone.ofTz springForward steady_springForward).offset t=
        if 8640000≤t then 3600 else 0 := fun _ => rfl
    unfold FitsCeiling
    dsimp only
    rw [if_pos (by decide)]
    intro first hfirst second hsecond
    obtain ⟨hlow,hhigh⟩ := hfirst
    obtain ⟨hlow',hhigh'⟩ := hsecond
    unfold dayIndex localDate reading maxBuckets
    rw [if_neg (by decide),hoffset,hoffset,if_neg (by omega),if_neg (by omega)]
    omega

/-- Half a second later the same range passes the check and takes one more. -/
theorem checkStep_and_more_buckets : checkStep (2000500-500) 1=.ok () ∧
    ¬(bucketsTaken 500 2000500 1 none .mon).encard≤2000 := by
  refine ⟨rfl,fun h => ?_⟩
  have hclose := (epoch_le_iff (by decide) (by decide)).mp h
  exact absurd hclose (by unfold EndsClose; decide)

end TokiSync.BucketCeiling
