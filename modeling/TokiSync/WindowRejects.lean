import TokiSync.WindowSanitizing

/-!
# What waiting does for a rejected window

A stable reject is meant never to become valid, a transient one to become so
with time. The floor rises with the clock, and with it the observation time of
an old observation: a window that was first seen after its observation passes
once the floor has reached that time. And a window whose anchor and reset time
are too far apart is never between floor and ceiling with both.
-/

namespace TokiSync.WindowRejects

open MachineWords ByteKeys WireWindows WindowSanitizing

/-- The window counts as a stable reject. -/
def StableReject (nowMs : Int64) (w : WireWindow) : Prop :=
  (sanitizeWindowBatch [w] nowMs).stableRejects=1

/-- The window counts as a transient reject. -/
def TransientReject (nowMs : Int64) (w : WireWindow) : Prop :=
  (sanitizeWindowBatch [w] nowMs).transientRejects=1

/-- The window is accepted. -/
def Accepted (nowMs : Int64) (w : WireWindow) : Prop := (sanitizeWindowBatch [w] nowMs).items≠[]

/-- Stable rejects are accepted at no later time, transient ones at some. -/
def RejectedByUse (nowMs : Int64) (w : WireWindow) : Prop :=
  (StableReject nowMs w → ∀ later, nowMs≤ later → ClockInRange later → ¬Accepted later w) ∧
  (TransientReject nowMs w → ∃ later, nowMs< later ∧ ClockInRange later ∧ Accepted later w)

/-- Some clock in range has both ends of the window between floor and
ceiling. -/
structure EndsFit (w : WireWindow) : Prop where
  /-- The anchor is not too far behind the reset time. -/
  anchor : w.windowEndMs.toInt+1<w.rawResetsAtMs.toInt+770*day
  /-- The reset time is not too far behind the anchor. -/
  reset : w.rawResetsAtMs.toInt+1<w.windowEndMs.toInt+771*day
  /-- The anchor is not too close to the end of time. -/
  anchorEnd : w.windowEndMs.toInt+day<Int64.maxValue.toInt
  /-- The reset time is not the end of time. -/
  resetEnd : w.rawResetsAtMs.toInt<Int64.maxValue.toInt

/-- The window fails because it was first seen after its raised observation
time, and nothing else speaks against it once the floor has reached the time
it was first seen. -/
structure SeenTooLate (nowMs : Int64) (w : WireWindow) : Prop where
  /-- No timeless check fails. -/
  timeless : timelessOk w=true
  /-- The window has a first-seen time after its observation and the floor. -/
  seen : w.firstSeenMs≠0 ∧ w.observedTsMs.toInt<w.firstSeenMs.toInt ∧
    nowMs.toInt-730*day<w.firstSeenMs.toInt
  /-- The window was first seen before its anchor and its reset time. -/
  before : w.firstSeenMs.toInt<w.windowEndMs.toInt ∧ w.firstSeenMs.toInt<w.rawResetsAtMs.toInt
  /-- The floor reaches that time while the clock is in range. -/
  reached : w.firstSeenMs.toInt+771*day≤Int64.maxValue.toInt
  /-- Its ends fit together. -/
  ends : EndsFit w

section

variable {nowMs : Int64} {w : WireWindow}

theorem stableReject_iff :
    StableReject nowMs w ↔ windowItemStableOk (raiseObserved nowMs w) nowMs=false := by
  rw [StableReject,(sanitized_rejects [w] nowMs).1,List.countP_singleton]
  cases windowItemStableOk (raiseObserved nowMs w) nowMs <;> decide

theorem transientReject_iff :
    TransientReject nowMs w ↔ windowItemStableOk (raiseObserved nowMs w) nowMs=true ∧
      windowItemTransientOk (raiseObserved nowMs w) nowMs=false := by
  rw [TransientReject,(sanitized_rejects [w] nowMs).2,List.countP_singleton]
  cases windowItemStableOk (raiseObserved nowMs w) nowMs <;>
    cases windowItemTransientOk (raiseObserved nowMs w) nowMs <;> decide

theorem accepted_iff : Accepted nowMs w ↔ passes nowMs w=true := by
  have hshort : [w].length ≤ maxWindowItems := by
    rw [List.length_singleton]
    decide
  rw [Accepted,sanitized_of_short hshort]
  cases hpasses : passes nowMs w with
  | true => simp [hpasses]
  | false => simp [hpasses]

/-- In every batch the rejects that are counted are the rows that count as
such. -/
theorem sanitized_rejects_count (items : List WireWindow) (nowMs : Int64) :
    (sanitizeWindowBatch items nowMs).stableRejects=
      (items.map fun w => (sanitizeWindowBatch [w] nowMs).stableRejects).sum ∧
    (sanitizeWindowBatch items nowMs).transientRejects=
      (items.map fun w => (sanitizeWindowBatch [w] nowMs).transientRejects).sum := by
  have hsum : ∀ p : WireWindow → Bool,
      items.countP p=(items.map fun w => [w].countP p).sum := by
    intro p
    induction items with
    | nil => rfl
    | cons w items ih =>
      rw [List.map_cons,List.sum_cons,←ih,List.countP_cons,List.countP_singleton]
      omega
  simp only [fun w => (sanitized_rejects [w] nowMs).1,fun w => (sanitized_rejects [w] nowMs).2]
  obtain ⟨hstable,htransient⟩ := sanitized_rejects items nowMs
  exact ⟨hstable.trans (hsum _),htransient.trans (hsum _)⟩

/-- The times at which a window is accepted. -/
theorem accepted_iff_of_inRange (h : ClockInRange nowMs) : Accepted nowMs w ↔ timelessOk w=true ∧
    (w.firstSeenMs=0 ∨ w.firstSeenMs.toInt≤ max w.observedTsMs.toInt (nowMs.toInt-730*day)) ∧
    nowMs.toInt-730*day<w.windowEndMs.toInt ∧ nowMs.toInt-730*day<w.rawResetsAtMs.toInt ∧
    w.windowEndMs.toInt<nowMs.toInt+40*day ∧ w.rawResetsAtMs.toInt<nowMs.toInt+41*day :=
  accepted_iff.trans (passes_iff (exact_of_inRange h))

/-- A window that is accepted has ends that fit together. -/
theorem EndsFit.of_accepted (h : ClockInRange nowMs) (haccepted : Accepted nowMs w) :
    EndsFit w := by
  obtain ⟨-,-,hends⟩ := (accepted_iff_of_inRange h).mp haccepted
  have hceiling := h.ceiling
  rw [day] at *
  constructor
  · rw [day]
    omega
  · rw [day]
    omega
  · rw [day]
    omega
  · omega

/-- A clock with a reading in range. -/
theorem exists_clock {t : ℤ} (hmin : Int64.minValue.toInt≤t-730*day)
    (hmax : t+41*day≤Int64.maxValue.toInt) :
    ∃ later : Int64, later.toInt=t ∧ ClockInRange later := by
  have hlow : Int64.minValue.toInt= -9223372036854775808 := rfl
  have hhigh : Int64.maxValue.toInt=9223372036854775807 := rfl
  have hread : (Int64.ofInt t).toInt=t := by
    rw [hlow,day] at hmin
    rw [hhigh,day] at hmax
    exact Int64.toInt_ofInt_of_le (by omega) (by omega)
  refine ⟨Int64.ofInt t,hread,?_,?_⟩
  · rw [hread]
    exact hmin
  · rw [hread]
    exact hmax

/-- A stable reject is accepted later when it was only seen too late. -/
theorem accepted_later_iff_seenTooLate (h : ClockInRange nowMs)
    (hreject : StableReject nowMs w) :
    (∃ later, nowMs≤ later ∧ ClockInRange later ∧ Accepted later w) ↔ SeenTooLate nowMs w := by
  have hfails : ¬(timelessOk w=true ∧
      (w.firstSeenMs=0 ∨ w.firstSeenMs.toInt≤ max w.observedTsMs.toInt (nowMs.toInt-730*day)) ∧
      nowMs.toInt-730*day<w.windowEndMs.toInt ∧ nowMs.toInt-730*day<w.rawResetsAtMs.toInt) := by
    rw [←stableOk_raised_iff (exact_of_inRange h),stableReject_iff.mp hreject]
    exact Bool.false_ne_true
  constructor
  · rintro ⟨later,hlater,hrange,haccepted⟩
    obtain ⟨htimeless,hfirst,hend,hraw,hend',hraw'⟩ := (accepted_iff_of_inRange hrange).mp haccepted
    have hle := Int64.le_iff_toInt_le.mp hlater
    have hceiling := hrange.ceiling
    have hseen : w.firstSeenMs≠0 ∧ ¬w.firstSeenMs.toInt≤
        max w.observedTsMs.toInt (nowMs.toInt-730*day) := by
      rw [←not_or]
      intro hok
      exact hfails ⟨htimeless,hok,by omega,by omega⟩
    have hfirst := hfirst.resolve_left hseen.1
    have hmax := hseen.2
    rw [le_max_iff] at hmax hfirst
    push Not at hmax
    rw [day] at *
    refine ⟨htimeless,⟨hseen.1,hmax.1,?_⟩,⟨by omega,by omega⟩,?_,
      EndsFit.of_accepted hrange haccepted⟩
    · rw [day]
      omega
    · rw [day]
      omega
  · rintro ⟨htimeless,⟨hne,hobserved,hfloor⟩,⟨hend,hraw⟩,hreached,hends⟩
    obtain ⟨hanchor,hreset,hanchorEnd,hresetEnd⟩ := hends
    have hbelow := h.floor
    -- The floor reaches the first-seen time, and both ends come below their ceilings.
    obtain ⟨later,hlater,hrange⟩ := exists_clock
      (t:=max (w.firstSeenMs.toInt+730*day)
        (max (w.windowEndMs.toInt-40*day+1) (w.rawResetsAtMs.toInt-41*day+1)))
      (by rw [day] at *; omega) (by rw [day] at *; omega)
    refine ⟨later,?_,hrange,(accepted_iff_of_inRange hrange).mpr ⟨htimeless,.inr ?_,?_⟩⟩
    · rw [Int64.le_iff_toInt_le,hlater,day] at *
      omega
    · rw [le_max_iff,hlater,day]
      omega
    · rw [hlater]
      rw [day] at *
      omega

/-- A transient reject is accepted later when its ends fit together. -/
theorem accepted_later_iff_endsFit (h : ClockInRange nowMs)
    (hreject : TransientReject nowMs w) :
    (∃ later, nowMs< later ∧ ClockInRange later ∧ Accepted later w) ↔ EndsFit w := by
  obtain ⟨hstable,htransient⟩ := transientReject_iff.mp hreject
  obtain ⟨htimeless,hseen,hend,hraw⟩ := (stableOk_raised_iff (exact_of_inRange h)).mp hstable
  have hlate : ¬(w.windowEndMs.toInt<nowMs.toInt+40*day ∧
      w.rawResetsAtMs.toInt<nowMs.toInt+41*day) := by
    rw [←transientOk_raised_iff (exact_of_inRange h),htransient]
    exact Bool.false_ne_true
  have hbelow := h.floor
  constructor
  · rintro ⟨later,-,hrange,haccepted⟩
    exact EndsFit.of_accepted hrange haccepted
  · rintro ⟨hanchor,hreset,hanchorEnd,hresetEnd⟩
    obtain ⟨later,hlater,hrange⟩ := exists_clock
      (t:=max (w.windowEndMs.toInt-40*day+1) (w.rawResetsAtMs.toInt-41*day+1))
      (by rw [day] at *; omega) (by rw [day] at *; omega)
    have hnext : nowMs.toInt<later.toInt := by
      rw [hlater]
      rw [day] at *
      omega
    refine ⟨later,Int64.lt_iff_toInt_lt.mpr hnext,hrange,
      (accepted_iff_of_inRange hrange).mpr ⟨htimeless,?_,?_⟩⟩
    · refine hseen.imp_right fun hle => hle.trans (max_le_max_left _ ?_)
      omega
    · rw [hlater]
      rw [day] at *
      omega

/-- A window that was seen too late is a stable reject. -/
theorem SeenTooLate.stableReject (h : ClockInRange nowMs) (hlate : SeenTooLate nowMs w) :
    StableReject nowMs w := by
  obtain ⟨hne,hobserved,hfloor⟩ := hlate.seen
  rw [stableReject_iff,←Bool.not_eq_true,stableOk_raised_iff (exact_of_inRange h)]
  rintro ⟨-,hseen,-⟩
  exact absurd (hseen.resolve_left hne) (not_le.mpr (max_lt hobserved hfloor))

/-- Whether waiting helps is told right of exactly the windows that were not
seen too late and whose ends, if they are not too old, fit together. -/
theorem rejectedByUse_iff (h : ClockInRange nowMs) : RejectedByUse nowMs w ↔
    ¬SeenTooLate nowMs w ∧
      (windowItemStableOk (raiseObserved nowMs w) nowMs=true → EndsFit w) := by
  constructor
  · rintro ⟨hstable,htransient⟩
    refine ⟨fun hlate => ?_,fun hok => ?_⟩
    · have hreject := hlate.stableReject h
      obtain ⟨later,hle,hrange,haccepted⟩ := (accepted_later_iff_seenTooLate h hreject).mpr hlate
      exact hstable hreject later hle hrange haccepted
    · cases hcheck : windowItemTransientOk (raiseObserved nowMs w) nowMs with
      | true =>
        refine EndsFit.of_accepted h (accepted_iff.mpr ?_)
        rw [passes,hok,hcheck,Bool.and_true]
      | false =>
        have hreject := transientReject_iff.mpr ⟨hok,hcheck⟩
        exact (accepted_later_iff_endsFit h hreject).mp (htransient hreject)
  · rintro ⟨hseen,hfit⟩
    refine ⟨fun hreject later hle hrange haccepted => ?_,fun hreject => ?_⟩
    · exact hseen ((accepted_later_iff_seenTooLate h hreject).mp ⟨later,hle,hrange,haccepted⟩)
    · exact (accepted_later_iff_endsFit h hreject).mpr (hfit (transientReject_iff.mp hreject).1)

end

/-- A window that ended years before the sample clock. -/
def pastWindow : WireWindow :=
  {sampleWindow 1759999999000 300 0 with
    windowEndMs := 1600000000000,rawResetsAtMs := 1600000000000}

/-- A window that ends weeks beyond the horizon of the sample clock. -/
def earlyWindow : WireWindow :=
  {sampleWindow 1759999999000 300 0 with
    windowEndMs := 1764320000000,rawResetsAtMs := 1764320000000}

/-- The past window is rejected for good and the early one for now. -/
theorem rejectedByUse_sample :
    (StableReject 1760000000000 pastWindow ∧ ∀ later, 1760000000000≤ later → ClockInRange later →
      ¬Accepted later pastWindow) ∧
    TransientReject 1760000000000 earlyWindow ∧
      ∃ later, 1760000000000< later ∧ ClockInRange later ∧ Accepted later earlyWindow := by
  have hrange : ClockInRange 1760000000000 := ⟨by decide,by decide⟩
  have hpast : StableReject 1760000000000 pastWindow := stableReject_iff.mpr (by decide)
  have hearly : TransientReject 1760000000000 earlyWindow := transientReject_iff.mpr (by decide)
  have hunseen : ¬SeenTooLate 1760000000000 pastWindow := fun h => absurd h.seen (by decide)
  have hseen : ¬SeenTooLate 1760000000000 earlyWindow := fun h => absurd h.seen (by decide)
  have hunfit : windowItemStableOk (raiseObserved 1760000000000 pastWindow) 1760000000000=true →
      EndsFit pastWindow := fun h => absurd ((stableReject_iff.mp hpast).symm.trans h) (by decide)
  have hfits : EndsFit earlyWindow := ⟨by decide,by decide,by decide,by decide⟩
  exact ⟨⟨hpast,((rejectedByUse_iff hrange).mpr ⟨hunseen,hunfit⟩).1 hpast⟩,hearly,
    ((rejectedByUse_iff hrange).mpr ⟨hseen,fun _ => hfits⟩).2 hearly⟩

/-- Observed by a clock at its epoch, first seen a millisecond after the floor. -/
def epochWindow : WireWindow :=
  {sampleWindow 0 300 0 with firstSeenMs := 1696928000001}

/-- The window of an epoch clock is a stable reject, and a millisecond later it
is accepted. -/
theorem stableReject_accepted_later : ¬∀ (nowMs : Int64) (w : WireWindow), ClockInRange nowMs →
    RejectedByUse nowMs w := by
  intro hall
  have hrange : ClockInRange 1760000000000 := ⟨by decide,by decide⟩
  have hnext : ClockInRange 1760000000001 := ⟨by decide,by decide⟩
  refine (hall 1760000000000 epochWindow hrange).1 ?_ 1760000000001 (by decide) hnext ?_
  · exact stableReject_iff.mpr (by decide)
  · exact accepted_iff.mpr (by decide)

end TokiSync.WindowRejects
