import TokiSync.WireWindows

/-!
# What sanitizing makes of a batch of windows

As long as the clock stays in range nothing overflows, and every check is one
about integers. A row is kept when it passes the checks after its observation
time was raised to the floor; what is kept has its active time capped and its
times lowered, which keeps what the checks have established.
-/

namespace TokiSync.WindowSanitizing

open MachineWords ByteKeys WireWindows

/-- Milliseconds of a day. -/
def day : ℤ := 86400000

/-- The horizons around the clock fit into 64 bits. -/
structure ClockInRange (nowMs : Int64) : Prop where
  /-- The floor does. -/
  floor : Int64.minValue.toInt≤nowMs.toInt-730*day
  /-- The ceiling does. -/
  ceiling : nowMs.toInt+41*day≤Int64.maxValue.toInt

/-- Checks of a row that no clock is part of. -/
def timelessOk (w : WireWindow) : Bool :=
  strOk w.limitId 64 && strOk w.account 64 && strOk w.plan 64 &&
  w.windowKind≤1 && w.windowMinutes>0 && w.windowMinutes≤60*24*31 &&
  w.firstSeenMs≥0 && w.limitReachedKind≤2 && w.sampledActiveFraction≤1000 &&
  w.lastSampleGapMs≥ -86400000

/-- Whether a row passes the checks after its observation time was raised. -/
def passes (nowMs : Int64) (w : WireWindow) : Bool :=
  windowItemStableOk (raiseObserved nowMs w) nowMs &&
    windowItemTransientOk (raiseObserved nowMs w) nowMs

/-- What becomes of a kept row. -/
def keptRow (nowMs : Int64) (w : WireWindow) : WireWindow :=
  clampObserved nowMs (capActive (raiseObserved nowMs w))

section

variable {nowMs : Int64} {w : WireWindow}

/-- A difference that fits is the difference of the readings. -/
theorem toInt_sub_of_fits {a b : Int64} (hmin : Int64.minValue.toInt≤a.toInt-b.toInt)
    (hmax : a.toInt-b.toInt≤Int64.maxValue.toInt) : (a-b).toInt=a.toInt-b.toInt := by
  have hlow : Int64.minValue.toInt= -9223372036854775808 := rfl
  have hhigh : Int64.maxValue.toInt=9223372036854775807 := rfl
  rw [Int64.toInt_sub,Int.bmod_eq_of_le]
  · rw [hlow] at hmin
    exact hmin
  · rw [hhigh] at hmax
    exact Int.lt_add_one_iff.mpr hmax

/-- A sum that fits is the sum of the readings. -/
theorem toInt_add_of_fits {a b : Int64} (hmin : Int64.minValue.toInt≤a.toInt+b.toInt)
    (hmax : a.toInt+b.toInt≤Int64.maxValue.toInt) : (a+b).toInt=a.toInt+b.toInt := by
  have hlow : Int64.minValue.toInt= -9223372036854775808 := rfl
  have hhigh : Int64.maxValue.toInt=9223372036854775807 := rfl
  rw [Int64.toInt_add,Int.bmod_eq_of_le]
  · rw [hlow] at hmin
    exact hmin
  · rw [hhigh] at hmax
    exact Int.lt_add_one_iff.mpr hmax

/-- The sums and differences that sanitizing forms are exact. -/
structure Exact (nowMs : Int64) : Prop where
  /-- Two years back. -/
  floor : (nowMs-2*365*dayMs).toInt=nowMs.toInt-730*day
  /-- Forty days ahead. -/
  anchor : (nowMs+40*dayMs).toInt=nowMs.toInt+40*day
  /-- Forty-one days ahead. -/
  reset : (nowMs+41*dayMs).toInt=nowMs.toInt+41*day
  /-- The skew allowance. -/
  skew : (nowMs+60000).toInt=nowMs.toInt+60000

/-- While the clock is in range nothing overflows. -/
theorem exact_of_inRange (h : ClockInRange nowMs) : Exact nowMs := by
  obtain ⟨hfloor,hceiling⟩ := h
  have hyears : (2*365*dayMs).toInt=63072000000 := by decide
  have hforty : (40*dayMs).toInt=3456000000 := by decide
  have hfortyone : (41*dayMs).toInt=3542400000 := by decide
  have hminute : (60000 : Int64).toInt=60000 := by decide
  have hlow : Int64.minValue.toInt= -9223372036854775808 := rfl
  have hhigh : Int64.maxValue.toInt=9223372036854775807 := rfl
  have hle := nowMs.le_toInt
  have hlt := nowMs.toInt_lt
  rw [hlow,day] at hfloor
  rw [hhigh,day] at hceiling
  constructor
  · rw [toInt_sub_of_fits,hyears,day]
    · omega
    · rw [hyears,hlow]
      omega
    · rw [hyears,hhigh]
      omega
  · rw [toInt_add_of_fits,hforty,day]
    · omega
    · rw [hforty,hlow]
      omega
    · rw [hforty,hhigh]
      omega
  · rw [toInt_add_of_fits,hfortyone,day]
    · omega
    · rw [hfortyone,hlow]
      omega
    · rw [hfortyone,hhigh]
      omega
  · rw [toInt_add_of_fits,hminute]
    · rw [hminute,hlow]
      omega
    · rw [hminute,hhigh]
      omega

/-- Raising takes the later one of the observation time and the floor. -/
theorem raiseObserved_eq (nowMs : Int64) (w : WireWindow) : raiseObserved nowMs w=
    {w with observedTsMs := max w.observedTsMs (nowMs-2*365*dayMs)} := by
  unfold raiseObserved
  split_ifs with hold
  · rw [max_eq_right hold.le]
  · rw [max_eq_left (not_lt.mp hold)]

/-- Reading a word keeps the order. -/
theorem toInt_min (a b : Int64) : (min a b).toInt=min a.toInt b.toInt := by
  rcases le_total a b with h | h
  · rw [min_eq_left h,min_eq_left (Int64.le_iff_toInt_le.mp h)]
  · rw [min_eq_right h,min_eq_right (Int64.le_iff_toInt_le.mp h)]

theorem toInt_max (a b : Int64) : (max a b).toInt=max a.toInt b.toInt := by
  rcases le_total a b with h | h
  · rw [max_eq_right h,max_eq_right (Int64.le_iff_toInt_le.mp h)]
  · rw [max_eq_left h,max_eq_left (Int64.le_iff_toInt_le.mp h)]

/-- The stable checks after raising, read as integers. -/
theorem stableOk_raised_iff (h : Exact nowMs) :
    windowItemStableOk (raiseObserved nowMs w) nowMs=true ↔ timelessOk w=true ∧
      (w.firstSeenMs=0 ∨ w.firstSeenMs.toInt≤ max w.observedTsMs.toInt (nowMs.toInt-730*day)) ∧
      nowMs.toInt-730*day<w.windowEndMs.toInt ∧ nowMs.toInt-730*day<w.rawResetsAtMs.toInt := by
  have hsplit : windowItemStableOk (raiseObserved nowMs w) nowMs=
      (timelessOk w &&
        (w.firstSeenMs=0 || w.firstSeenMs≤ max w.observedTsMs (nowMs-2*365*dayMs)) &&
        w.windowEndMs>nowMs-2*365*dayMs && w.rawResetsAtMs>nowMs-2*365*dayMs) := by
    rw [raiseObserved_eq]
    rfl
  rw [hsplit]
  simp only [Bool.and_eq_true,Bool.or_eq_true,decide_eq_true_eq,gt_iff_lt,Int64.lt_iff_toInt_lt,
    Int64.le_iff_toInt_le,toInt_max,h.floor,and_assoc]

/-- The transient checks after raising, read as integers. -/
theorem transientOk_raised_iff (h : Exact nowMs) :
    windowItemTransientOk (raiseObserved nowMs w) nowMs=true ↔
      w.windowEndMs.toInt<nowMs.toInt+40*day ∧ w.rawResetsAtMs.toInt<nowMs.toInt+41*day := by
  have hsplit : windowItemTransientOk (raiseObserved nowMs w) nowMs=
      (w.windowEndMs<nowMs+40*dayMs && w.rawResetsAtMs<nowMs+41*dayMs) := by
    rw [raiseObserved_eq]
    rfl
  rw [hsplit]
  simp only [Bool.and_eq_true,decide_eq_true_eq,Int64.lt_iff_toInt_lt,h.anchor,h.reset]

/-- A row passes when no timeless check fails, it was not first seen after its
raised observation, and both of its ends lie between floor and ceiling. -/
theorem passes_iff (h : Exact nowMs) : passes nowMs w=true ↔ timelessOk w=true ∧
    (w.firstSeenMs=0 ∨ w.firstSeenMs.toInt≤ max w.observedTsMs.toInt (nowMs.toInt-730*day)) ∧
    nowMs.toInt-730*day<w.windowEndMs.toInt ∧ nowMs.toInt-730*day<w.rawResetsAtMs.toInt ∧
    w.windowEndMs.toInt<nowMs.toInt+40*day ∧ w.rawResetsAtMs.toInt<nowMs.toInt+41*day := by
  rw [passes,Bool.and_eq_true,stableOk_raised_iff h,transientOk_raised_iff h]
  simp only [and_assoc]

/-- The rows of a batch that pass, and those that fail one check or the
other. -/
theorem sanitized_parts (items : List WireWindow) (nowMs : Int64) :
    (items.map (raiseObserved nowMs)).filter (fun w => windowItemStableOk w nowMs)=
      (items.filter fun w => windowItemStableOk (raiseObserved nowMs w) nowMs).map
        (raiseObserved nowMs) ∧
    ((items.map (raiseObserved nowMs)).filter (fun w => windowItemStableOk w nowMs)).filter
      (fun w => windowItemTransientOk w nowMs)=
        (items.filter (passes nowMs)).map (raiseObserved nowMs) := by
  have hstable : (items.map (raiseObserved nowMs)).filter (fun w => windowItemStableOk w nowMs)=
      (items.filter fun w => windowItemStableOk (raiseObserved nowMs w) nowMs).map
        (raiseObserved nowMs) := List.filter_map
  refine ⟨hstable,?_⟩
  rw [hstable,List.filter_map,List.filter_filter]
  refine congrArg (List.map (raiseObserved nowMs)) (List.filter_congr fun w _ => ?_)
  rw [passes,Bool.and_comm,Function.comp_apply]

/-- Rows that pass the stable checks pass the transient ones or fail them. -/
theorem countP_stable (items : List WireWindow) (nowMs : Int64) :
    items.countP (fun w => windowItemStableOk (raiseObserved nowMs w) nowMs)=
      items.countP (passes nowMs)+items.countP (fun w =>
        windowItemStableOk (raiseObserved nowMs w) nowMs &&
          !windowItemTransientOk (raiseObserved nowMs w) nowMs) := by
  have hparts := List.countP_eq_countP_filter_add items
    (fun w => windowItemStableOk (raiseObserved nowMs w) nowMs)
    (fun w => windowItemTransientOk (raiseObserved nowMs w) nowMs)
  have hpasses : items.countP (passes nowMs)=items.countP (fun w =>
      windowItemStableOk (raiseObserved nowMs w) nowMs &&
        windowItemTransientOk (raiseObserved nowMs w) nowMs) := rfl
  rw [List.countP_filter,List.countP_filter,←hpasses] at hparts
  exact hparts

/-- Rows counted as rejects are the rows that fail the stable checks, and those
that pass them and fail the transient ones. -/
theorem sanitized_rejects (items : List WireWindow) (nowMs : Int64) :
    (sanitizeWindowBatch items nowMs).stableRejects=
      items.countP (fun w => !windowItemStableOk (raiseObserved nowMs w) nowMs) ∧
    (sanitizeWindowBatch items nowMs).transientRejects=
      items.countP (fun w => windowItemStableOk (raiseObserved nowMs w) nowMs &&
        !windowItemTransientOk (raiseObserved nowMs w) nowMs) := by
  obtain ⟨hstable,hvalid⟩ := sanitized_parts items nowMs
  constructor
  · have hall := List.length_eq_countP_add_countP
      (fun w => windowItemStableOk (raiseObserved nowMs w) nowMs) (l:=items)
    simp only [sanitizeWindowBatch,hstable,List.length_map]
    rw [←List.countP_eq_length_filter]
    simp only [Bool.not_eq_true,Bool.decide_eq_false] at hall
    omega
  · have hparts := countP_stable items nowMs
    simp only [sanitizeWindowBatch,hvalid]
    rw [hstable,List.length_map,List.length_map,←List.countP_eq_length_filter,
      ←List.countP_eq_length_filter,hparts,Nat.add_sub_cancel_left]

/-- Truncating looks at the anchors only. -/
theorem truncateNewest_map {f : WireWindow → WireWindow}
    (hf : ∀ w, (f w).windowEndMs=w.windowEndMs) (rows : List WireWindow) :
    truncateNewest (rows.map f)=(truncateNewest rows).map f := by
  unfold truncateNewest
  rw [List.length_map]
  split_ifs
  · rw [List.map_take,←List.map_mergeSort fun a _ b _ => by rw [hf,hf]]
  · rfl

/-- Truncating keeps a selection of greatest anchors. -/
theorem truncateNewest_selects (rows : List WireWindow) :
    ∃ rest : List WireWindow, (truncateNewest rows++rest).Perm rows ∧
      (truncateNewest rows).length ≤ maxWindowItems ∧ rest.length=rows.length-maxWindowItems ∧
      ∀ x∈truncateNewest rows, ∀ y∈rest, y.windowEndMs≤x.windowEndMs := by
  unfold truncateNewest
  by_cases hlong : rows.length>maxWindowItems
  · rw [if_pos hlong]
    have hsorted : (rows.mergeSort fun a b => b.windowEndMs≤a.windowEndMs).Pairwise
        fun a b => decide (b.windowEndMs≤a.windowEndMs)=true := by
      refine List.pairwise_mergeSort ?_ ?_ rows
      · intro a b c hab hbc
        exact decide_eq_true ((of_decide_eq_true hbc).trans (of_decide_eq_true hab))
      · intro a b
        rw [Bool.or_eq_true,decide_eq_true_eq,decide_eq_true_eq]
        exact le_total b.windowEndMs a.windowEndMs
    refine ⟨(rows.mergeSort fun a b => b.windowEndMs≤a.windowEndMs).drop maxWindowItems,?_,?_,?_,?_⟩
    · rw [List.take_append_drop]
      exact List.mergeSort_perm _ _
    · exact List.length_take_le _ _
    · rw [List.length_drop,List.length_mergeSort]
    · intro x hx y hy
      rw [←List.take_append_drop maxWindowItems
        (rows.mergeSort fun a b => b.windowEndMs≤a.windowEndMs)] at hsorted
      exact of_decide_eq_true ((List.pairwise_append.mp hsorted).2.2 x hx y hy)
  · rw [if_neg hlong]
    refine ⟨[],?_,not_lt.mp hlong,?_,fun x _ y hy => absurd hy List.not_mem_nil⟩
    · rw [List.append_nil]
    · rw [List.length_nil,Nat.sub_eq_zero_of_le (not_lt.mp hlong)]

/-- Sanitizing keeps the newest rows that pass. -/
theorem sanitized_eq (items : List WireWindow) (nowMs : Int64) :
    (sanitizeWindowBatch items nowMs).items=
      (truncateNewest (items.filter (passes nowMs))).map (keptRow nowMs) := by
  obtain ⟨-,hvalid⟩ := sanitized_parts items nowMs
  have hend : ∀ w, (capActive (raiseObserved nowMs w)).windowEndMs=w.windowEndMs := by
    intro w
    rw [raiseObserved_eq]
    unfold capActive
    split_ifs
    · rfl
    · rfl
  have hcapped : ((items.filter (passes nowMs)).map (raiseObserved nowMs)).map capActive=
      (items.filter (passes nowMs)).map fun w => capActive (raiseObserved nowMs w) := List.map_map
  simp only [sanitizeWindowBatch]
  rw [hvalid,hcapped,truncateNewest_map hend,List.map_map]
  refine List.map_congr_left fun w _ => ?_
  rw [Function.comp_apply,keptRow]

/-- Which rows a batch keeps, and what becomes of them. -/
theorem sanitized_kept (items : List WireWindow) (nowMs : Int64) :
    ∃ chosen rest : List WireWindow,
      (sanitizeWindowBatch items nowMs).items=chosen.map (keptRow nowMs) ∧
      (chosen++rest).Perm (items.filter (passes nowMs)) ∧ chosen.length ≤ maxWindowItems ∧
      rest.length=(sanitizeWindowBatch items nowMs).overCap ∧
      ∀ x∈chosen, ∀ y∈rest, y.windowEndMs≤x.windowEndMs := by
  obtain ⟨-,hvalid⟩ := sanitized_parts items nowMs
  obtain ⟨rest,hperm,hlength,hrest,hnewest⟩ :=
    truncateNewest_selects (items.filter (passes nowMs))
  refine ⟨_,rest,sanitized_eq items nowMs,hperm,hlength,?_,hnewest⟩
  simp only [sanitizeWindowBatch]
  rw [hvalid,List.length_map,List.length_map,hrest]

/-- A batch that is not too long keeps all rows that pass, in their order. -/
theorem sanitized_of_short {items : List WireWindow} (h : items.length ≤ maxWindowItems)
    (nowMs : Int64) :
    (sanitizeWindowBatch items nowMs).items=(items.filter (passes nowMs)).map (keptRow nowMs) := by
  have hshort := (List.length_filter_le (passes nowMs) items).trans h
  rw [sanitized_eq,truncateNewest,if_neg (not_lt.mpr hshort)]

/-- The cap of the active time never saturates. -/
theorem toNat_activeCap (windowMinutes : UInt32) :
    (activeCap windowMinutes).toNat=windowMinutes.toNat*60000 := by
  have hlt := windowMinutes.toNat_lt
  rw [activeCap,min_eq_left (by omega),UInt64.toNat_ofNat',Nat.mod_eq_of_lt (by omega)]

/-- The observation time that a kept row gets. -/
def keptObserved (nowMs : Int64) (w : WireWindow) : Int64 :=
  min (max w.observedTsMs (nowMs-2*365*dayMs)) (nowMs+60000)

/-- A kept row is the uploaded one in all fields but its times and its active
time. -/
theorem keptRow_eq (nowMs : Int64) (w : WireWindow) : keptRow nowMs w=
    {w with
      observedTsMs := keptObserved nowMs w
      firstSeenMs := min w.firstSeenMs (keptObserved nowMs w)
      activeMs := min w.activeMs (activeCap w.windowMinutes)} := by
  have hcap : ∀ x : WireWindow, capActive x=
      {x with activeMs := min x.activeMs (activeCap x.windowMinutes)} := by
    intro x
    unfold capActive
    split_ifs with hover
    · rw [min_eq_right hover.le]
    · rw [min_eq_left (not_lt.mp hover)]
  have hclamp : ∀ x : WireWindow, clampObserved nowMs x=
      {x with
        observedTsMs := min x.observedTsMs (nowMs+60000)
        firstSeenMs := min x.firstSeenMs (min x.observedTsMs (nowMs+60000))} := by
    intro x
    have hlower : (if x.observedTsMs>nowMs+60000 then {x with observedTsMs := nowMs+60000} else x)=
        {x with observedTsMs := min x.observedTsMs (nowMs+60000)} := by
      split_ifs with hlate
      · rw [min_eq_right hlate.le]
      · rw [min_eq_left (not_lt.mp hlate)]
    unfold clampObserved
    dsimp only
    rw [hlower]
    dsimp only
    split_ifs with hfirst
    · rw [min_eq_right hfirst.le]
    · rw [min_eq_left (not_lt.mp hfirst)]
  rw [keptRow,hclamp,hcap,raiseObserved_eq]
  rfl

/-- The observation time of a kept row, read as an integer. -/
theorem toInt_keptObserved (h : Exact nowMs) (w : WireWindow) : (keptObserved nowMs w).toInt=
    min (max w.observedTsMs.toInt (nowMs.toInt-730*day)) (nowMs.toInt+60000) := by
  rw [keptObserved,toInt_min,toInt_max,h.floor,h.skew]

/-- A text is short and has no control characters. -/
def TextOk (s : String) : Prop :=
  (utf8 s).length ≤ 64 ∧ ∀ c∈s.toList, isControl c=false

/-- What holds of every kept row. -/
structure KeptOk (nowMs : Int64) (w : WireWindow) : Prop where
  /-- The limit is a checked text. -/
  limitId : TextOk w.limitId
  /-- The account is a checked text. -/
  account : TextOk w.account
  /-- The plan is a checked text. -/
  plan : TextOk w.plan
  /-- The kind is a known one. -/
  windowKind : w.windowKind.toNat≤1
  /-- The length is between a minute and a month. -/
  windowMinutes : 0<w.windowMinutes.toNat ∧ w.windowMinutes.toNat≤44640
  /-- The active time fits into the length. -/
  activeMs : w.activeMs.toNat≤w.windowMinutes.toNat*60000
  /-- The way the limit was reached is a known one. -/
  limitReachedKind : w.limitReachedKind.toNat≤2
  /-- The sampled share is at most the whole. -/
  sampledActiveFraction : w.sampledActiveFraction.toNat≤1000
  /-- The window was not first seen after its observation. -/
  firstSeenMs : 0≤w.firstSeenMs.toInt ∧ w.firstSeenMs.toInt≤w.observedTsMs.toInt
  /-- The observation lies between the floor and the skew allowance. -/
  observedTsMs : nowMs.toInt-730*day≤w.observedTsMs.toInt ∧
    w.observedTsMs.toInt≤nowMs.toInt+60000
  /-- The anchor lies between floor and ceiling. -/
  windowEndMs : nowMs.toInt-730*day<w.windowEndMs.toInt ∧
    w.windowEndMs.toInt<nowMs.toInt+40*day
  /-- The reset time lies between floor and ceiling. -/
  rawResetsAtMs : nowMs.toInt-730*day<w.rawResetsAtMs.toInt ∧
    w.rawResetsAtMs.toInt<nowMs.toInt+41*day

/-- A row that passes the checks is kept as one that satisfies all of them. -/
theorem keptOk_of_passes (h : Exact nowMs) (hpast : 730*day≤nowMs.toInt)
    (hpasses : passes nowMs w=true) : KeptOk nowMs (keptRow nowMs w) := by
  obtain ⟨htimeless,hfirst,hendFloor,hrawFloor,hend,hraw⟩ := (passes_iff h).mp hpasses
  simp only [timelessOk,strOk,Bool.and_eq_true,decide_eq_true_eq,List.all_eq_true,
    Bool.not_eq_true'] at htimeless
  obtain ⟨⟨⟨⟨⟨⟨⟨⟨⟨hlimit,haccount⟩,hplan⟩,hkind⟩,hshort⟩,hlong⟩,hseen⟩,hreached⟩,hshare⟩,-⟩ :=
    htimeless
  have hobserved := toInt_keptObserved h w
  have hcap := toNat_activeCap w.windowMinutes
  have hactive : (min w.activeMs (activeCap w.windowMinutes)).toNat≤
      w.windowMinutes.toNat*60000 := by
    rw [←hcap]
    exact UInt64.le_iff_toNat_le.mp (min_le_right _ _)
  have hfloor : nowMs.toInt-730*day≤(keptObserved nowMs w).toInt := by
    rw [hobserved]
    refine le_min (le_max_right _ _) ?_
    rw [day]
    omega
  have hskew : (keptObserved nowMs w).toInt≤nowMs.toInt+60000 := by
    rw [hobserved]
    exact min_le_right _ _
  have hseen := Int64.le_iff_toInt_le.mp hseen
  have hzero : (0 : Int64).toInt=0 := rfl
  rw [hzero] at hseen
  rw [keptRow_eq]
  constructor
  · exact hlimit
  · exact haccount
  · exact hplan
  · exact UInt8.le_iff_toNat_le.mp hkind
  · exact ⟨UInt32.lt_iff_toNat_lt.mp hshort,UInt32.le_iff_toNat_le.mp hlong⟩
  · exact hactive
  · exact UInt8.le_iff_toNat_le.mp hreached
  · exact UInt16.le_iff_toNat_le.mp hshare
  · dsimp only
    rw [toInt_min]
    refine ⟨le_min hseen ?_,min_le_right _ _⟩
    exact (Int.sub_nonneg_of_le hpast).trans hfloor
  · exact ⟨hfloor,hskew⟩
  · exact ⟨hendFloor,hend⟩
  · exact ⟨hrawFloor,hraw⟩

/-- A batch of windows sanitized while the clock is in range: nothing overflows,
every kept row satisfies the checks, all rows are counted, the kept ones are
those of greatest anchors among the rows that pass, and a kept row is the
uploaded one in all fields but its times and its active time. -/
theorem sanitize_establishes (items : List WireWindow) {nowMs : Int64}
    (hpast : 730*day≤nowMs.toInt) (hfuture : nowMs.toInt≤Int64.maxValue.toInt-41*day) :
    Exact nowMs ∧
    (∀ w∈(sanitizeWindowBatch items nowMs).items, KeptOk nowMs w) ∧
    (sanitizeWindowBatch items nowMs).items.length≤2000 ∧
    (sanitizeWindowBatch items nowMs).items.length+(sanitizeWindowBatch items nowMs).stableRejects+
      (sanitizeWindowBatch items nowMs).transientRejects+(sanitizeWindowBatch items nowMs).overCap=
        items.length ∧
    ∃ chosen rest : List WireWindow,
      (sanitizeWindowBatch items nowMs).items=chosen.map (keptRow nowMs) ∧
      (chosen++rest).Perm (items.filter (passes nowMs)) ∧
      rest.length=(sanitizeWindowBatch items nowMs).overCap ∧
      (∀ x∈chosen, ∀ y∈rest, y.windowEndMs≤x.windowEndMs) ∧
      ∀ x∈chosen, keptRow nowMs x=
        {x with
          observedTsMs := (keptRow nowMs x).observedTsMs
          firstSeenMs := (keptRow nowMs x).firstSeenMs
          activeMs := (keptRow nowMs x).activeMs} := by
  have hrange : ClockInRange nowMs := by
    have hlow : Int64.minValue.toInt= -9223372036854775808 := rfl
    refine ⟨?_,by omega⟩
    rw [hlow]
    omega
  have hexact := exact_of_inRange hrange
  obtain ⟨chosen,rest,hkept,hperm,hlength,hrest,hnewest⟩ := sanitized_kept items nowMs
  obtain ⟨hstable,htransient⟩ := sanitized_rejects items nowMs
  refine ⟨hexact,?_,?_,?_,chosen,rest,hkept,hperm,hrest,hnewest,fun x _ => ?_⟩
  · intro w hw
    rw [hkept] at hw
    obtain ⟨x,hx,rfl⟩ := List.mem_map.mp hw
    have hmem := hperm.mem_iff.mp (List.mem_append_left rest hx)
    exact keptOk_of_passes hexact hpast (List.mem_filter.mp hmem).2
  · rw [hkept,List.length_map]
    exact hlength
  · have hpassed := hperm.length_eq
    have hall := List.length_eq_countP_add_countP
      (fun w => windowItemStableOk (raiseObserved nowMs w) nowMs) (l:=items)
    have hparts := countP_stable items nowMs
    rw [List.length_append,←List.countP_eq_length_filter] at hpassed
    simp only [Bool.not_eq_true,Bool.decide_eq_false] at hall
    rw [hkept,List.length_map,hstable,htransient,←hrest]
    omega
  · rw [keptRow_eq]

end

/-- A batch of one window with too much active time. -/
theorem sanitize_establishes_sample :
    KeptOk 1760000000000 (keptRow 1760000000000 (sampleWindow 1759999999000 300 90000000)) := by
  have hpast : 730*day≤(1760000000000 : Int64).toInt := by decide
  have hfuture : (1760000000000 : Int64).toInt≤Int64.maxValue.toInt-41*day := by decide
  have hkept := sanitize_establishes [sampleWindow 1759999999000 300 90000000] hpast hfuture
  exact hkept.2.1 _ (by decide)

end TokiSync.WindowSanitizing
