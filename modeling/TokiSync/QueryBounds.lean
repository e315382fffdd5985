import TokiSync.ZoneBuckets
import TokiSync.DurationText
import TokiSync.ByteKeys

/-!
# The bounds of a query

A bound is a number of seconds or milliseconds, a local date, or a local
date-time. The two date formats are read by the calendar library. A local
date-time has to be shown exactly once, also the midnight that a date stands
for, while a day bucket takes the first instant of its day in any case.
-/

namespace TokiSync.QueryBounds

open AdminAccounts (AppError)
open ByteKeys CalendarBuckets DurationText LocalClocks ZoneBuckets

/-- The instant of a local date-time that is shown exactly once. -/
def resolveSingle (s : String) (tz : Option LocalClock) (naive : ℤ) : Except AppError ℤ :=
  match tz with
  | some clock =>
    match clock.fromLocalDatetime naive with
    | .single instant => .ok instant
    | _ => .error (badRequest ("ambiguous or invalid local time: '"++s++"'"))
  | none => .ok naive

/-- Epoch seconds; texts of the length of a date or a date-time are no numbers
here, nor is anything longer than milliseconds. -/
def epochSeconds (s : String) : Option ℤ := do
  let ts ← parseI64 s.toList
  if (utf8 s).length≠8 ∧ (utf8 s).length≠14 ∧ (utf8 s).length≤13 then pure ts else none

/-- Answer to a bound outside of the 64-bit range. -/
def outOfRange (s : String) : AppError := badRequest ("time is out of range: '"++s++"'")

section

variable (parseDate parseDateTime : String → Option ℤ)

/-- Parse epoch seconds, YYYYMMDD or YYYYMMDDhhmmss, the latter two read as
days and as seconds of local time. -/
def parseTokiTime (s : String) (isEnd : Bool) (tz : Option LocalClock) : Except AppError ℤ :=
  match epochSeconds s with
  | some ts => .ok ts
  | none =>
    match if (utf8 s).length=8 then parseDate s else none with
    | some date => resolveSingle s tz (date*86400+if isEnd then 86399 else 0)
    | none =>
      match if (utf8 s).length=14 then parseDateTime s else none with
      | some naive => resolveSingle s tz naive
      | none => .error (badRequest ("invalid time format: '"++s++"'"))

/-- Seconds as milliseconds; the end of a date is one second further. -/
def toBoundMs (s : String) (dateEnd : Bool) (seconds : ℤ) : Except AppError ℤ :=
  match toI64 (seconds*1000) with
  | none => .error (outOfRange s)
  | some millis =>
    if dateEnd then
      match toI64 (millis+1000) with
      | some behind => .ok behind
      | none => .error (outOfRange s)
    else .ok millis

/-- A bound as milliseconds. -/
def parseTokiBoundMs (s : String) (isEnd : Bool) (tz : Option LocalClock) : Except AppError ℤ :=
  if (utf8 s).length=13 ∧ s.toList.all isAsciiDigit then
    match parseI64 s.toList with
    | some ms => .ok ms
    | none => .error (outOfRange s)
  else do
    let seconds ← parseTokiTime parseDate parseDateTime s isEnd tz
    toBoundMs s (isEnd && (utf8 s).length=8) seconds

end

/-- Bounds of the years that four digits write do not leave the 64-bit range. -/
theorem toBoundMs_eq_ok (s : String) (dateEnd : Bool) {seconds : ℤ} (hlow : -10^12≤ seconds)
    (hhigh : seconds≤10^12) :
    toBoundMs s dateEnd seconds=.ok (if dateEnd then seconds*1000+1000 else seconds*1000) := by
  have hmillis : toI64 (seconds*1000)=some (seconds*1000) := if_pos (by omega)
  have hbehind : toI64 (seconds*1000+1000)=some (seconds*1000+1000) := if_pos (by omega)
  unfold toBoundMs
  rw [hmillis]
  dsimp only
  rw [hbehind]
  cases dateEnd <;> rfl

section

variable {parseDate parseDateTime : String → Option ℤ} {s : String}

theorem epochSeconds_of_date (hlength : (utf8 s).length=8) : epochSeconds s=none := by
  unfold epochSeconds
  cases parseI64 s.toList with
  | none => rfl
  | some ts =>
    rw [Option.bind_eq_bind,Option.bind_some,if_neg fun h => h.1 hlength]

/-- A date bound resolves one local date-time. -/
theorem parseTokiBoundMs_date {date : ℤ} (hlength : (utf8 s).length=8)
    (hdate : parseDate s=some date) (isEnd : Bool) (tz : Option LocalClock) :
    parseTokiBoundMs parseDate parseDateTime s isEnd tz=
      resolveSingle s tz (date*86400+if isEnd then 86399 else 0)>>=toBoundMs s isEnd := by
  unfold parseTokiBoundMs parseTokiTime
  rw [if_neg (fun h => by omega),epochSeconds_of_date hlength,if_pos hlength,hdate]
  simp only [hlength,decide_true,Bool.and_true]

/-- A local date-time resolves when the zone shows it once. -/
theorem resolveSingle_eq_ok_iff {zone : Zone} {naive instant : ℤ} :
    resolveSingle s (some zone.toLocalClock) naive=.ok instant ↔
      reading zone.offset instant=naive ∧ ∀ t, reading zone.offset t=naive → t=instant := by
  have hresolves := zone.resolves naive
  unfold resolveSingle
  dsimp only
  cases hresult : zone.fromLocalDatetime naive with
  | none =>
    rw [hresult] at hresolves
    refine iff_of_false (by intro h; cases h) fun h => hresolves instant h.1
  | single shown =>
    rw [hresult] at hresolves
    dsimp only
    rw [Except.ok.injEq]
    constructor
    · rintro rfl
      exact ⟨(hresolves shown).mpr rfl,fun t ht => (hresolves t).mp ht⟩
    · exact fun h => h.2 shown ((hresolves shown).mpr rfl)
  | ambiguous earliest latest =>
    rw [hresult] at hresolves
    obtain ⟨hlt,hinstants⟩ := hresolves
    refine iff_of_false (by intro h; cases h) fun h => ?_
    have hfirst := h.2 earliest ((hinstants earliest).mpr (.inl rfl))
    have hlast := h.2 latest ((hinstants latest).mpr (.inr rfl))
    omega

/-- A date bound is accepted when the local date-time it stands for is shown
once; offsets and dates are those of the calendar library. -/
theorem parseTokiBoundMs_eq_ok_iff {zone : Zone} (hoffset : ∀ t, |zone.offset t|<86400)
    {date : ℤ} (hyear : -719528≤date ∧ date≤2932896) (hlength : (utf8 s).length=8)
    (hdate : parseDate s=some date) (isEnd : Bool) {bound : ℤ} :
    parseTokiBoundMs parseDate parseDateTime s isEnd (some zone.toLocalClock)=.ok bound ↔
      ∃ instant, (reading zone.offset instant=date*86400+if isEnd then 86399 else 0) ∧
        (∀ t, (reading zone.offset t=date*86400+if isEnd then 86399 else 0) → t=instant) ∧
        bound=1000*(instant+if isEnd then 1 else 0) := by
  rw [parseTokiBoundMs_date hlength hdate]
  have hbound : ∀ instant, (reading zone.offset instant=date*86400+if isEnd then 86399 else 0) →
      toBoundMs s isEnd instant=.ok (1000*(instant+if isEnd then 1 else 0)) := by
    intro instant hshown
    have hclose := abs_lt.mp (hoffset instant)
    unfold reading at hshown
    rw [toBoundMs_eq_ok s isEnd (by split_ifs at hshown <;> omega)
      (by split_ifs at hshown <;> omega)]
    cases isEnd with
    | true =>
      rw [if_pos rfl,if_pos rfl]
      congr 1
      omega
    | false =>
      rw [if_neg Bool.false_ne_true,if_neg Bool.false_ne_true]
      congr 1
      omega
  constructor
  · intro h
    cases hresolve : resolveSingle s (some zone.toLocalClock)
        (date*86400+if isEnd then 86399 else 0) with
    | error e =>
      rw [hresolve] at h
      cases h
    | ok instant =>
      obtain ⟨hshown,hunique⟩ := resolveSingle_eq_ok_iff.mp hresolve
      rw [hresolve] at h
      change toBoundMs s isEnd instant=.ok bound at h
      rw [hbound instant hshown] at h
      exact ⟨instant,hshown,hunique,(Except.ok.inj h).symm⟩
  · rintro ⟨instant,hshown,hunique,rfl⟩
    rw [resolveSingle_eq_ok_iff.mpr ⟨hshown,hunique⟩]
    exact hbound instant hshown

/-- What a query for a date has to cover: its start is the start of the day
bucket of every instant with that local date, its end is the start of the next
date, and it covers the instants with that local date. -/
structure CoversDay (parseDate parseDateTime : String → Option ℤ) (zone : Zone)
    (text next : String) (date : ℤ) : Prop where
  /-- The start is that of the day bucket. -/
  starts : ∃ startMs,
    parseTokiBoundMs parseDate parseDateTime text false (some zone.toLocalClock)=.ok startMs ∧
      ∀ tsMs instant startOfWeek, fromTimestampMillis tsMs=some instant →
        reading zone.offset instant/86400=date →
        startMs=1000*bucketStartSec tsMs 86400 (some zone.toLocalClock) startOfWeek
  /-- The end is the start of the next date. -/
  ends : ∃ endMs,
    parseTokiBoundMs parseDate parseDateTime text true (some zone.toLocalClock)=.ok endMs ∧
      parseTokiBoundMs parseDate parseDateTime next false (some zone.toLocalClock)=.ok endMs
  /-- Between them lies the local day. -/
  covers : ∀ startMs endMs,
    parseTokiBoundMs parseDate parseDateTime text false (some zone.toLocalClock)=.ok startMs →
    parseTokiBoundMs parseDate parseDateTime text true (some zone.toLocalClock)=.ok endMs →
    ∀ tsMs instant, fromTimestampMillis tsMs=some instant →
      (startMs≤tsMs ∧ tsMs<endMs ↔ reading zone.offset instant/86400=date)

/-- The second behind the last one of a date is the first of the next when all
three are shown once. -/
theorem behind_last {zone : Zone} {date last midnight : ℤ}
    (hlast : reading zone.offset last=date*86400+86399)
    (honce : ∀ t, reading zone.offset t=date*86400+86399 → t=last)
    (hmidnight : reading zone.offset midnight=(date+1)*86400)
    (honce' : ∀ t, reading zone.offset t=(date+1)*86400 → t=midnight) : last+1=midnight := by
  have hbefore := zone.steady.lt_iff_of_unique hlast honce
  have hbefore' := zone.steady.lt_iff_of_unique hmidnight honce'
  have hlt := (hbefore' last).mp (by omega)
  have hle : ¬last+1 < midnight := by
    intro hless
    have hsmall := (hbefore' (last+1)).mpr hless
    have hlarge := (hbefore (last+1)).not.mpr (by omega)
    have hsame := honce (last+1) (by omega)
    omega
  omega

/-- A query from a date to itself covers the local day, starting and ending
where the day buckets do, exactly when the zone shows the first and the last
second of the date and the first of the next one once each. -/
theorem coversDay_iff {zone : Zone} (hoffset : ∀ t, |zone.offset t|<86400) {date : ℤ}
    (hyear : -719528≤date ∧ date<2932896) {text next : String}
    (htext : (utf8 text).length=8 ∧ parseDate text=some date)
    (hnext : (utf8 next).length=8 ∧ parseDate next=some (date+1)) :
    CoversDay parseDate parseDateTime zone text next date ↔
      (∃! t, reading zone.offset t=date*86400) ∧
        (∃! t, reading zone.offset t=date*86400+86399) ∧
        ∃! t, reading zone.offset t=(date+1)*86400 := by
  have hstart := fun bound => @parseTokiBoundMs_eq_ok_iff parseDate parseDateTime text zone hoffset
    date (by omega) htext.1 htext.2 false bound
  have hend := fun bound => @parseTokiBoundMs_eq_ok_iff parseDate parseDateTime text zone hoffset
    date (by omega) htext.1 htext.2 true bound
  have hfollowing := fun bound => @parseTokiBoundMs_eq_ok_iff parseDate parseDateTime next zone
    hoffset (date+1) (by omega) hnext.1 hnext.2 false bound
  simp only [if_true,if_false,Bool.false_eq_true,add_zero] at hstart hend hfollowing
  constructor
  · intro h
    obtain ⟨startMs,hparse,-⟩ := h.starts
    obtain ⟨endMs,hparse',hparse''⟩ := h.ends
    obtain ⟨first,hfirst,honce,-⟩ := (hstart startMs).mp hparse
    obtain ⟨last,hlast,honce',-⟩ := (hend endMs).mp hparse'
    obtain ⟨midnight,hmidnight,honce'',-⟩ := (hfollowing endMs).mp hparse''
    exact ⟨⟨first,hfirst,honce⟩,⟨last,hlast,honce'⟩,⟨midnight,hmidnight,honce''⟩⟩
  · rintro ⟨⟨first,hfirst,honce⟩,⟨last,hlast,honce'⟩,⟨midnight,hmidnight,honce''⟩⟩
    have hbehind := behind_last hlast honce' hmidnight honce''
    have hbefore := zone.steady.lt_iff_of_unique hfirst honce
    have hbefore' := zone.steady.lt_iff_of_unique hmidnight honce''
    have hstarted := (hstart (1000*first)).mpr ⟨first,hfirst,honce,rfl⟩
    have hended := (hend (1000*(last+1))).mpr ⟨last,hlast,honce',rfl⟩
    refine ⟨⟨_,hstarted,?_⟩,⟨_,hended,?_⟩,?_⟩
    · intro tsMs instant startOfWeek hinstant hdate
      have hfloor : Floored 86400 startOfWeek (reading zone.offset instant/86400) date := by
        rw [hdate]
        refine ⟨le_rfl,by omega,?_⟩
        rw [if_neg (by decide)]
        exact Int.one_dvd date
      have hbucket := (bucketStartSec_isLeast zone (by decide) (by decide) hinstant hfloor).2.1
      have hleast : IsLeast {t | date*86400≤reading zone.offset t} first := by
        refine ⟨hfirst.ge,fun t ht => ?_⟩
        have hreached : date*86400≤reading zone.offset t := ht
        have hnot := (hbefore t).not.mp (by omega)
        omega
      rw [hbucket.unique hleast]
    · rw [hbehind]
      exact (hfollowing _).mpr ⟨midnight,hmidnight,honce'',rfl⟩
    · intro startMs endMs hparse hparse' tsMs instant hinstant
      have hstartMs := Except.ok.inj (hstarted.symm.trans hparse)
      have hendMs := Except.ok.inj (hended.symm.trans hparse')
      have hsecond : instant=tsMs/1000 := by
        unfold fromTimestampMillis at hinstant
        split_ifs at hinstant
        exact (Option.some.inj hinstant).symm
      have hfrom := hbefore instant
      have hto := hbefore' instant
      constructor
      · intro h
        have hge := hfrom.not.mpr (by omega)
        have hlt := hto.mpr (by omega)
        omega
      · intro h
        have hge := hfrom.not.mp (by omega)
        have hlt := hto.mp (by omega)
        omega

end

/-- The calendar library on some dates. -/
def sampleDates (s : String) : Option ℤ :=
  if s="19700220" then some 50
  else if s="19700221" then some 51
  else if s="19700411" then some 100
  else if s="19700412" then some 101
  else none

/-- A zone set to one o'clock at a midnight fifty days later. -/
def springZone : Zone := Zone.ofTz springForward steady_springForward

theorem reading_springZone (t : ℤ) :
    reading springZone.offset t=t+if 8640000≤t then 3600 else 0 := rfl

/-- A winter day is covered. -/
theorem coversDay_winter :
    CoversDay sampleDates (fun _ => none) springZone "19700220" "19700221" 50 := by
  have honce : ∀ naive : ℤ, naive<8640000 → ∃! t, reading springZone.offset t=naive := by
    intro naive hlt
    refine ⟨naive,?_,fun t ht => ?_⟩
    · dsimp only
      rw [reading_springZone,if_neg (by omega),add_zero]
    · dsimp only at ht
      rw [reading_springZone] at ht
      split_ifs at ht <;> omega
  refine (coversDay_iff (fun t => ?_) (by decide) ⟨by decide,rfl⟩ ⟨by decide,rfl⟩).mpr
    ⟨honce _ (by decide),honce _ (by decide),honce _ (by decide)⟩
  have hoffset : springZone.offset t=if 8640000≤t then 3600 else 0 := rfl
  rw [hoffset]
  split_ifs <;> decide

/-- The day whose midnight is skipped is refused, though it has a bucket. -/
theorem skipped_midnight_refused :
    parseTokiBoundMs sampleDates (fun _ => none) "19700411" false (some springZone.toLocalClock)=
        .error ⟨400,"ambiguous or invalid local time: '19700411'"⟩ ∧
      ¬CoversDay sampleDates (fun _ => none) springZone "19700411" "19700412" 100 := by
  have hrefused : parseTokiBoundMs sampleDates (fun _ => none) "19700411" false
      (some springZone.toLocalClock)=
        .error ⟨400,"ambiguous or invalid local time: '19700411'"⟩ := by
    rfl
  refine ⟨hrefused,fun h => ?_⟩
  obtain ⟨startMs,hparse,-⟩ := h.starts
  rw [hrefused] at hparse
  cases hparse

end TokiSync.QueryBounds
