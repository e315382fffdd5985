import Mathlib.Data.List.Sort
import Mathlib.Data.List.Dedup
import Mathlib.Data.Int.Order.Basic
import Mathlib.Tactic.Ring

/-!
# Time zones and the start of the bucket an event falls into

A zone is an offset from UTC that changes at finitely many instants. A local
reading is shown at no instant, at one, or at several; the bucket start asks
for the first. Steps of whole days follow the local calendar of the zone, all
other steps and requests without a zone follow multiples of the step since the
epoch. Instants are integers: the accepted bounds have at most thirteen
characters, so no sum here reaches the limits of a 64-bit word.
-/

namespace TokiSync.CalendarBuckets

/-- A time zone: seconds east of UTC, changing at some instants. -/
structure Tz where
  /-- Offset in force before the first change. -/
  first : ℤ
  /-- Instants of change, each with the offset in force from it on. -/
  changes : List (ℤ×ℤ)
  /-- The changes are in chronological order. -/
  chronological : changes.Pairwise fun a b => a.1<b.1

/-- What a local date-time resolves to. -/
inductive LocalResult where
  /-- No instant shows it. -/
  | none
  /-- One instant shows it. -/
  | single (instant : ℤ)
  /-- Several instants show it; the first and the last of them. -/
  | ambiguous (earliest latest : ℤ)
  deriving DecidableEq

/-- The first instant of a resolution. -/
def LocalResult.earliest : LocalResult → Option ℤ
  | .none => Option.none
  | .single instant => some instant
  | .ambiguous earliest _ => some earliest

namespace Tz

/-- Offset in force at an instant. -/
def offset (tz : Tz) (instant : ℤ) : ℤ :=
  tz.changes.foldl (fun current change => if change.1≤ instant then change.2 else current) tz.first

/-- Local reading of the zone at an instant, in seconds since 1970-01-01 local time. -/
def reading (tz : Tz) (instant : ℤ) : ℤ := instant+tz.offset instant

/-- The instants that show a local reading, in chronological order. -/
def instants (tz : Tz) (naive : ℤ) : List ℤ :=
  (((tz.first::tz.changes.map Prod.snd).map fun off => naive-off).filter fun instant =>
    tz.reading instant=naive).dedup.insertionSort (·≤·)

/-- Resolve a local reading. -/
def fromLocalDatetime (tz : Tz) (naive : ℤ) : LocalResult :=
  match tz.instants naive with
  | [] => .none
  | [instant] => .single instant
  | earliest::later::rest => .ambiguous earliest ((later::rest).getLast (List.cons_ne_nil _ _))

/-- First of the following whole minutes whose local reading exists. -/
def nextReal (tz : Tz) : ℕ → ℤ → Option ℤ
  | 0,_ => none
  | steps+1,candidate =>
    match (tz.fromLocalDatetime (candidate+60)).earliest with
    | some instant => some instant
    | none => nextReal tz steps (candidate+60)

end Tz

/-- Days of the week. -/
inductive Weekday where
  | mon | tue | wed | thu | fri | sat | sun
  deriving DecidableEq

/-- Days since Monday. -/
def Weekday.numDaysFromMonday : Weekday → ℤ
  | .mon => 0
  | .tue => 1
  | .wed => 2
  | .thu => 3
  | .fri => 4
  | .sat => 5
  | .sun => 6

/-- First and last second of the calendar. -/
def minUtc : ℤ := -8334601228800

def maxUtc : ℤ := 8210266876799

/-- The second of a millisecond instant, inside the calendar. -/
def fromTimestampMillis (ms : ℤ) : Option ℤ :=
  if minUtc≤ ms/1000 ∧ ms/1000≤ maxUtc then some (ms/1000) else none

/-- Days from Monday of a date, given as days since 1970-01-01, a Thursday. -/
def weekdayFromMonday (date : ℤ) : ℤ := (date+3)%7

/-- First date of the week or of the group of days a date lies in. -/
def startDate (stepSecs : ℤ) (startOfWeek : Weekday) (date : ℤ) : ℤ :=
  if stepSecs=604800 then
    date-(weekdayFromMonday date-startOfWeek.numDaysFromMonday+7).tmod 7
  else
    let stepDays := stepSecs.tdiv 86400
    date/stepDays*stepDays

/-- Resolve the local midnight of a date: its first instant, or, when the
clocks skip it, the first whole minute behind it that they show. -/
def resolveMidnight (tz : Tz) (date : ℤ) : Option ℤ :=
  match tz.fromLocalDatetime (date*86400) with
  | .single instant => some instant
  | .ambiguous earlier _ => some earlier
  | .none => tz.nextReal (24*60) (date*86400)

/-- Start of the local calendar period an instant lies in. -/
def calendarStart (tsMs stepSecs : ℤ) (tz : Tz) (startOfWeek : Weekday) : Option ℤ :=
  match fromTimestampMillis tsMs with
  | some instant => resolveMidnight tz (startDate stepSecs startOfWeek (tz.reading instant/86400))
  | none => none

/-- Whether a step is a whole number of days. -/
def wholeDays (stepSecs : ℤ) : Bool := 86400≤ stepSecs && stepSecs.tmod 86400=0

/-- Start of the epoch-aligned bucket. -/
def epochStart (tsMs stepSecs : ℤ) : ℤ :=
  let stepMs := stepSecs*1000
  (tsMs.tdiv stepMs*stepMs).tdiv 1000

/-- Second at which the bucket of an event starts. -/
def bucketStartSec (tsMs stepSecs : ℤ) (tz : Option Tz) (startOfWeek : Weekday) : ℤ :=
  match tz with
  | some zone =>
    if stepSecs=604800 ∨ wholeDays stepSecs then
      (calendarStart tsMs stepSecs zone startOfWeek).getD (epochStart tsMs stepSecs)
    else epochStart tsMs stepSecs
  | none => epochStart tsMs stepSecs

/-- An instant from the epoch on lies inside its epoch-aligned bucket. -/
theorem epochStart_bounds {tsMs stepSecs : ℤ} (hts : 0≤tsMs) (hstep : 0< stepSecs) :
    epochStart tsMs stepSecs*1000≤tsMs ∧ tsMs<epochStart tsMs stepSecs*1000+stepSecs*1000 := by
  have hms : 0< stepSecs*1000 := by omega
  have hq : tsMs.tdiv (stepSecs*1000)=tsMs/(stepSecs*1000) := Int.tdiv_eq_ediv_of_nonneg hts
  have hstart : epochStart tsMs stepSecs=tsMs/(stepSecs*1000)*stepSecs := by
    show (tsMs.tdiv (stepSecs*1000)*(stepSecs*1000)).tdiv 1000=_
    rw [hq,← Int.mul_assoc,Int.mul_tdiv_cancel _ (by norm_num)]
  have hexpand : epochStart tsMs stepSecs*1000=stepSecs*1000*(tsMs/(stepSecs*1000)) := by
    rw [hstart]
    ring
  have hdiv := Int.mul_ediv_add_emod tsMs (stepSecs*1000)
  have hlow := Int.emod_nonneg tsMs hms.ne'
  have hhigh := Int.emod_lt_of_pos tsMs hms
  rw [hexpand]
  omega

end TokiSync.CalendarBuckets
