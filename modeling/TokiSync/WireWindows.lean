import TokiSync.FieldwiseMerge
import TokiSync.MachineWords
import TokiSync.ByteKeys

/-!
# Rate-limit windows: merging, sanitizing and premerging

A window is a device's observation of one account-level rate-limit period.
Observations of the same period are merged field by field. An uploaded batch
is sanitized against the server clock, then sorted by identity with an
unstable sort and merged where neighbours agree.
-/

namespace TokiSync.WireWindows

open MachineWords ByteKeys FieldwiseMerge

/-- One observation of a rate-limit window. -/
@[ext] structure WireWindow where
  /-- Kind of the window. -/
  windowKind : UInt8
  /-- Limit the window belongs to. -/
  limitId : String
  /-- Account the limit belongs to. -/
  account : String
  /-- Anchor of the window in milliseconds. -/
  windowEndMs : Int64
  /-- Reset time as the provider reported it. -/
  rawResetsAtMs : Int64
  /-- Length of the window in minutes. -/
  windowMinutes : UInt32
  /-- Highest usage seen, in hundredths of a percent. -/
  peakPctX100 : UInt16
  /-- Latest usage seen, in hundredths of a percent. -/
  lastPctX100 : UInt16
  /-- Time of the observation. -/
  observedTsMs : Int64
  /-- Time the window was first seen, zero when unknown. -/
  firstSeenMs : Int64
  /-- Whether the window has ended. -/
  finalized : Bool
  /-- Whether the limit was exhausted. -/
  maxedOut : Bool
  /-- How the limit was reached. -/
  limitReachedKind : UInt8
  /-- Time until the limit was exhausted, minus one when unknown. -/
  timeTo100Ms : Int64
  /-- Active time inside the window. -/
  activeMs : UInt64
  /-- Gap before the latest sample. -/
  lastSampleGapMs : Int64
  /-- Share of the window that was sampled, in thousandths. -/
  sampledActiveFraction : UInt16
  /-- Number of samples. -/
  nSamples : UInt32
  /-- Plan of the account. -/
  plan : String
  deriving DecidableEq

/-- Identity of a window within a user and provider. -/
structure WindowId where
  /-- Kind of the window. -/
  windowKind : UInt8
  /-- Limit the window belongs to. -/
  limitId : String
  /-- Account the limit belongs to. -/
  account : String
  /-- Anchor of the window. -/
  windowEndMs : Int64
  deriving DecidableEq

/-- Identity of an observation. -/
def WireWindow.id (w : WireWindow) : WindowId :=
  ⟨w.windowKind,w.limitId,w.account,w.windowEndMs⟩

/-- Longest active time a window of the given minutes can have. -/
def activeCap (windowMinutes : UInt32) : UInt64 :=
  UInt64.ofNat (min (windowMinutes.toNat*60000) (2^64-1))

/-- First-seen time after a merge: the earlier of the positive ones. -/
def mergeFirstSeen (prev other : Int64) : Int64 :=
  if 0 < other then (if 0 < prev then min prev other else other) else prev

/-- Time to exhaustion after a merge: the earlier of the known ones. -/
def mergeTimeTo100 (prev other : Int64) : Int64 :=
  if prev= -1 then other else if other= -1 then prev else min prev other

/-- The latest-observation fields of the other row, when it is not older. -/
def takeLatest (prev other : WireWindow) : WireWindow :=
  if other.observedTsMs≥prev.observedTsMs then
    {prev with
      observedTsMs := other.observedTsMs
      rawResetsAtMs := other.rawResetsAtMs
      lastSampleGapMs := other.lastSampleGapMs
      lastPctX100 := other.lastPctX100
      windowMinutes := other.windowMinutes
      plan := other.plan}
  else prev

/-- Merge another observation of the same window into a row. The active time
is capped by the length that the merged row carries. -/
def mergeWireWindows (prev other : WireWindow) : WireWindow :=
  let latest := takeLatest prev other
  {latest with
    peakPctX100 := max prev.peakPctX100 other.peakPctX100
    firstSeenMs := mergeFirstSeen prev.firstSeenMs other.firstSeenMs
    finalized := prev.finalized || other.finalized
    maxedOut := prev.maxedOut || other.maxedOut
    limitReachedKind := max prev.limitReachedKind other.limitReachedKind
    timeTo100Ms := mergeTimeTo100 prev.timeTo100Ms other.timeTo100Ms
    activeMs := min (max prev.activeMs other.activeMs) (activeCap latest.windowMinutes)
    sampledActiveFraction := max prev.sampledActiveFraction other.sampledActiveFraction
    nSamples := max prev.nSamples other.nSamples}

/-- Rows one upload may keep. -/
def maxWindowItems : ℕ := 2000

/-- One day in milliseconds. -/
def dayMs : Int64 := 86400000

/-- Whether a character is a control character. -/
def isControl (c : Char) : Bool :=
  c.toNat<32 || (127 ≤ c.toNat && c.toNat<160)

/-- Whether a text is short and free of control characters. -/
def strOk (s : String) (limit : ℕ) : Bool :=
  (utf8 s).length ≤ limit && s.toList.all fun c => !isControl c

/-- Checks that no waiting can make pass. -/
def windowItemStableOk (w : WireWindow) (nowMs : Int64) : Bool :=
  strOk w.limitId 64 && strOk w.account 64 && strOk w.plan 64 &&
  w.windowKind≤1 && w.windowMinutes>0 && w.windowMinutes≤60*24*31 &&
  w.firstSeenMs≥0 && w.limitReachedKind≤2 && w.sampledActiveFraction≤1000 &&
  w.lastSampleGapMs≥ -86400000 &&
  (w.firstSeenMs=0 || w.firstSeenMs≤w.observedTsMs) &&
  w.windowEndMs>nowMs-2*365*dayMs && w.rawResetsAtMs>nowMs-2*365*dayMs

/-- Checks that a later clock can make pass. -/
def windowItemTransientOk (w : WireWindow) (nowMs : Int64) : Bool :=
  w.windowEndMs<nowMs+40*dayMs && w.rawResetsAtMs<nowMs+41*dayMs

/-- What sanitizing keeps of a batch and what it drops. -/
structure SanitizedWindows where
  /-- Rows to store. -/
  items : List WireWindow
  /-- Rows that can never become valid. -/
  stableRejects : ℕ
  /-- Rows outside the horizon. -/
  transientRejects : ℕ
  /-- Rows beyond the cap. -/
  overCap : ℕ

/-- Raise observation times below the floor to it. -/
def raiseObserved (nowMs : Int64) (w : WireWindow) : WireWindow :=
  if w.observedTsMs<nowMs-2*365*dayMs then {w with observedTsMs := nowMs-2*365*dayMs} else w

/-- Cap the active time of a row by its length. -/
def capActive (w : WireWindow) : WireWindow :=
  if w.activeMs>activeCap w.windowMinutes then {w with activeMs := activeCap w.windowMinutes} else w

/-- Lower observation times beyond the skew allowance, then first-seen times
beyond the observation. -/
def clampObserved (nowMs : Int64) (w : WireWindow) : WireWindow :=
  let w := if w.observedTsMs>nowMs+60000 then {w with observedTsMs := nowMs+60000} else w
  if w.firstSeenMs>w.observedTsMs then {w with firstSeenMs := w.observedTsMs} else w

/-- Keep at most the newest rows of a batch. -/
def truncateNewest (items : List WireWindow) : List WireWindow :=
  if items.length>maxWindowItems then
    (items.mergeSort fun a b => b.windowEndMs≤a.windowEndMs).take maxWindowItems
  else items

/-- Validate, clamp and cap one uploaded batch. -/
def sanitizeWindowBatch (items : List WireWindow) (nowMs : Int64) : SanitizedWindows :=
  let raised := items.map (raiseObserved nowMs)
  let stable := raised.filter fun w => windowItemStableOk w nowMs
  let valid := stable.filter fun w => windowItemTransientOk w nowMs
  let capped := valid.map capActive
  { items := (truncateNewest capped).map (clampObserved nowMs)
    stableRejects := raised.length-stable.length
    transientRejects := stable.length-valid.length
    overCap := capped.length-maxWindowItems }

/-- Order of the premerge: kind, limit, account, anchor. -/
def WindowId.order (i : WindowId) : UInt8 ×ₗ (Bytes ×ₗ (Bytes ×ₗ Int64)) :=
  toLex (i.windowKind,toLex (utf8 i.limitId,toLex (utf8 i.account,i.windowEndMs)))

/-- A list as an unstable sort by identity may leave it. -/
def SortedFrom (items sorted : List WireWindow) : Prop :=
  sorted.Perm items ∧ sorted.Pairwise fun a b => a.id.order≤b.id.order

/-- The loop of the premerge, with the last merged row at hand. -/
def premergeLoop (prev : WireWindow) : List WireWindow → List WireWindow
  | [] => [prev]
  | w::rest =>
    if prev.id=w.id then premergeLoop (mergeWireWindows prev w) rest
    else prev::premergeLoop w rest

/-- Merge adjacent rows of one identity. -/
def mergeAdjacent : List WireWindow → List WireWindow
  | [] => []
  | w::rest => premergeLoop w rest

/-- Premerge of a batch, for some outcome of the sort. -/
def PremergeWindows (items merged : List WireWindow) : Prop :=
  ∃ sorted, SortedFrom items sorted ∧ merged=mergeAdjacent sorted

/-- A row that some sanitized upload carries. -/
def Sanitized (w : WireWindow) : Prop :=
  ∃ items nowMs, w∈(sanitizeWindowBatch items nowMs).items

/-- A sanitized row passed the checks before its active time was capped and
its times were clamped. -/
theorem mem_sanitizeWindowBatch {items : List WireWindow} {nowMs : Int64} {w : WireWindow}
    (h : w∈(sanitizeWindowBatch items nowMs).items) : ∃ x, windowItemStableOk x nowMs=true ∧
      windowItemTransientOk x nowMs=true ∧ w=clampObserved nowMs (capActive x) := by
  obtain ⟨y,hy,rfl⟩ := List.mem_map.mp h
  have hmem : ∀ {rows : List WireWindow}, y∈truncateNewest rows → y∈rows := by
    intro rows hrows
    unfold truncateNewest at hrows
    split_ifs at hrows
    · exact List.mem_mergeSort.mp (List.mem_of_mem_take hrows)
    · exact hrows
  obtain ⟨x,hx,rfl⟩ := List.mem_map.mp (hmem hy)
  obtain ⟨hx,htransient⟩ := List.mem_filter.mp hx
  exact ⟨x,(List.mem_filter.mp hx).2,htransient,rfl⟩

/-- Clamping the times leaves the other fields alone. -/
theorem clampObserved_fields (nowMs : Int64) (w : WireWindow) :
    (clampObserved nowMs w).id=w.id ∧ (clampObserved nowMs w).activeMs=w.activeMs ∧
      (clampObserved nowMs w).windowMinutes=w.windowMinutes := by
  unfold clampObserved WireWindow.id
  dsimp only
  split_ifs <;> simp only [and_self]

/-- Capping the active time leaves the other fields alone. -/
theorem capActive_fields (w : WireWindow) : (capActive w).id=w.id ∧
    (capActive w).windowMinutes=w.windowMinutes ∧
      (capActive w).activeMs≤activeCap w.windowMinutes := by
  unfold capActive
  split_ifs with hcap
  · -- the rows themselves differ, so compare what the identity is made of
    dsimp only [WireWindow.id]
    exact ⟨rfl,rfl,le_rfl⟩
  · exact ⟨rfl,rfl,not_lt.mp hcap⟩

/-- Sanitized rows respect the length they carry. -/
theorem Sanitized.active_le_cap {w : WireWindow} (h : Sanitized w) :
    w.activeMs≤activeCap w.windowMinutes := by
  obtain ⟨items,nowMs,hw⟩ := h
  obtain ⟨x,-,-,rfl⟩ := mem_sanitizeWindowBatch hw
  obtain ⟨-,hactive,hminutes⟩ := clampObserved_fields nowMs (capActive x)
  obtain ⟨-,hcapMinutes,hcap⟩ := capActive_fields x
  rw [hactive,hminutes,hcapMinutes]
  exact hcap

/-- Checked texts contain no key delimiter. -/
theorem nulFree_of_strOk {s : String} {limit : ℕ} (h : strOk s limit=true) : NulFree (utf8 s) := by
  rw [strOk,Bool.and_eq_true,List.all_eq_true] at h
  refine nulFree_utf8 fun c hc hzero => ?_
  have hcontrol := h.2 c hc
  rw [isControl,hzero] at hcontrol
  cases hcontrol

/-- The texts in the identity of a sanitized row contain no key delimiter. -/
theorem Sanitized.nulFree {w : WireWindow} (h : Sanitized w) :
    NulFree (utf8 w.limitId) ∧ NulFree (utf8 w.account) := by
  obtain ⟨items,nowMs,hw⟩ := h
  obtain ⟨x,hstable,-,rfl⟩ := mem_sanitizeWindowBatch hw
  obtain ⟨hid,-,-⟩ := clampObserved_fields nowMs (capActive x)
  rw [(capActive_fields x).1] at hid
  simp only [WireWindow.id,WindowId.mk.injEq] at hid
  rw [hid.2.1,hid.2.2.1]
  simp only [windowItemStableOk,Bool.and_eq_true] at hstable
  obtain ⟨⟨⟨⟨⟨⟨⟨⟨⟨⟨⟨⟨hlimit,haccount⟩,-⟩,-⟩,-⟩,-⟩,-⟩,-⟩,-⟩,-⟩,-⟩,-⟩,-⟩ := hstable
  exact ⟨nulFree_of_strOk hlimit,nulFree_of_strOk haccount⟩

/-- One observation of a fixed window. -/
def sampleWindow (observedTsMs : Int64) (windowMinutes : UInt32) (activeMs : UInt64) :
    WireWindow where
  windowKind := 0
  limitId := "primary"
  account := "a1"
  windowEndMs := 1760000000000
  rawResetsAtMs := 1760000000000
  windowMinutes := windowMinutes
  peakPctX100 := 500
  lastPctX100 := 400
  observedTsMs := observedTsMs
  firstSeenMs := 1759990000000
  finalized := false
  maxedOut := false
  limitReachedKind := 0
  timeTo100Ms := -1
  activeMs := activeMs
  lastSampleGapMs := 1000
  sampledActiveFraction := 900
  nSamples := 12
  plan := "pro"

/-- A later observation of the sample window, with a higher peak. -/
def laterWindow : WireWindow :=
  {sampleWindow 1759997000000 300 7000000 with peakPctX100 := 700}

end TokiSync.WireWindows
