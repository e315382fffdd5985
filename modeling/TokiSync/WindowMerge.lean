import TokiSync.WireWindows

/-!
# What a merged window row says about its observations

Every field of a row that was merged from a list of observations, along any
tree, is a summary of the list, with two exceptions. The first-seen time is
the least positive one only if there is a positive one. The active time is
capped after every single merge by the window length the intermediate row
carries, so it can depend on the order.
-/

namespace TokiSync.WindowMerge

open MachineWords ByteKeys FieldwiseMerge WireWindows

/-- A row is merged from a list of observations. -/
abbrev Merged (xs : List WireWindow) (r : WireWindow) : Prop := MergedFrom mergeWireWindows xs r

/-- The fields that are replaced together by a later observation. -/
structure LatestFields where
  /-- Reset time as reported. -/
  rawResetsAtMs : Int64
  /-- Gap before the latest sample. -/
  lastSampleGapMs : Int64
  /-- Latest usage. -/
  lastPctX100 : UInt16
  /-- Length of the window. -/
  windowMinutes : UInt32
  /-- Plan of the account. -/
  plan : String

/-- Fields of an observation that travel with its time. -/
def latestFields (w : WireWindow) : LatestFields :=
  ⟨w.rawResetsAtMs,w.lastSampleGapMs,w.lastPctX100,w.windowMinutes,w.plan⟩

/-- First-seen time, when it is known. -/
def knownFirstSeen (w : WireWindow) : Option Int64 :=
  if 0 < w.firstSeenMs then some w.firstSeenMs else none

/-- Time to exhaustion, when it is known. -/
def knownTimeTo100 (w : WireWindow) : Option Int64 :=
  if w.timeTo100Ms= -1 then none else some w.timeTo100Ms

section

variable (a b : WireWindow)

@[simp] theorem id_merge : (mergeWireWindows a b).id=a.id := by
  unfold mergeWireWindows takeLatest
  split <;> rfl

/-- The later observation time wins, the other row's on a tie. -/
theorem observedTsMs_merge : (mergeWireWindows a b).observedTsMs=
    if a.observedTsMs≤b.observedTsMs then b.observedTsMs else a.observedTsMs := by
  unfold mergeWireWindows takeLatest
  dsimp only
  split_ifs <;> rfl

/-- The latest fields are those of the later observation. -/
theorem latestFields_merge : latestFields (mergeWireWindows a b)=
    if a.observedTsMs≤b.observedTsMs then latestFields b else latestFields a := by
  unfold mergeWireWindows takeLatest latestFields
  dsimp only
  split_ifs <;> rfl

/-- The first-seen time of a merge. -/
theorem firstSeenMs_merge :
    (mergeWireWindows a b).firstSeenMs=mergeFirstSeen a.firstSeenMs b.firstSeenMs := by
  unfold mergeWireWindows
  dsimp only

/-- The active time of a merge is capped by the length the merge carries. -/
theorem activeMs_merge : (mergeWireWindows a b).activeMs=
    min (max a.activeMs b.activeMs) (activeCap (mergeWireWindows a b).windowMinutes) := by
  unfold mergeWireWindows
  dsimp only

/-- The known first-seen times combine by minimum. -/
theorem knownFirstSeen_merge : knownFirstSeen (mergeWireWindows a b)=
    (knownFirstSeen a).merge min (knownFirstSeen b) := by
  rw [knownFirstSeen,firstSeenMs_merge,knownFirstSeen,knownFirstSeen,mergeFirstSeen]
  by_cases ha : 0 < a.firstSeenMs
  · by_cases hb : 0 < b.firstSeenMs
    · simp only [ha,hb,if_true,Option.merge_some_some,lt_min_iff,and_self]
    · simp only [ha,hb,if_true,if_false,Option.merge_none_right]
  · by_cases hb : 0 < b.firstSeenMs
    · simp only [ha,hb,if_true,if_false,Option.merge_none_left]
    · simp only [ha,hb,if_false,Option.merge_none_left]

/-- The known times to exhaustion combine by minimum. -/
theorem knownTimeTo100_merge : knownTimeTo100 (mergeWireWindows a b)=
    (knownTimeTo100 a).merge min (knownTimeTo100 b) := by
  have hmerge : (mergeWireWindows a b).timeTo100Ms=mergeTimeTo100 a.timeTo100Ms b.timeTo100Ms := by
    unfold mergeWireWindows
    dsimp only
  rw [knownTimeTo100,hmerge,knownTimeTo100,knownTimeTo100,mergeTimeTo100]
  by_cases ha : a.timeTo100Ms= -1
  · by_cases hb : b.timeTo100Ms= -1
    · simp only [ha,hb,if_true,Option.merge_none_left]
    · simp only [ha,hb,if_true,if_false,Option.merge_none_left]
  · by_cases hb : b.timeTo100Ms= -1
    · simp only [ha,hb,if_true,if_false,Option.merge_none_right]
    · have hmin : min a.timeTo100Ms b.timeTo100Ms≠ -1 := by
        rcases min_choice a.timeTo100Ms b.timeTo100Ms with h | h
        · rwa [h]
        · rwa [h]
      simp only [ha,hb,hmin,if_false,Option.merge_some_some]

end

/-- The fields of a merged row that never depend on the order. -/
structure Summary (xs : List WireWindow) (r : WireWindow) : Prop where
  /-- The peak is the greatest observed one. -/
  peak : IsGreatest (WireWindow.peakPctX100 '' {x | x∈xs}) r.peakPctX100
  /-- The window has ended when some observation says so. -/
  finalized : r.finalized=true ↔ ∃ x∈xs, x.finalized=true
  /-- The limit was exhausted when some observation says so. -/
  maxedOut : r.maxedOut=true ↔ ∃ x∈xs, x.maxedOut=true
  /-- The way the limit was reached is the greatest observed one. -/
  limitReachedKind : IsGreatest (WireWindow.limitReachedKind '' {x | x∈xs}) r.limitReachedKind
  /-- The number of samples is the greatest observed one. -/
  nSamples : IsGreatest (WireWindow.nSamples '' {x | x∈xs}) r.nSamples
  /-- The sampled share is the greatest observed one. -/
  sampledActiveFraction : IsGreatest (WireWindow.sampledActiveFraction '' {x | x∈xs})
    r.sampledActiveFraction
  /-- The known first-seen time is present when some observation has one. -/
  firstSeen : knownFirstSeen r=none ↔ ∀ x∈xs, knownFirstSeen x=none
  /-- The known first-seen time is the least observed one. -/
  firstSeenLeast : ∀ t, knownFirstSeen r=some t → IsLeast {s | ∃ x∈xs, knownFirstSeen x=some s} t
  /-- The known time to exhaustion is present when some observation has one. -/
  timeTo100 : knownTimeTo100 r=none ↔ ∀ x∈xs, knownTimeTo100 x=none
  /-- The known time to exhaustion is the least observed one. -/
  timeTo100Least : ∀ t, knownTimeTo100 r=some t → IsLeast {s | ∃ x∈xs, knownTimeTo100 x=some s} t
  /-- The latest fields are those of one observation of greatest time. -/
  latest : ∃ x∈xs, r.observedTsMs=x.observedTsMs ∧ latestFields r=latestFields x ∧
    ∀ y∈xs, y.observedTsMs≤x.observedTsMs
  /-- The active time is at most some observed one. -/
  active : ∃ x∈xs, r.activeMs≤x.activeMs

/-- A flag combined by disjunction. -/
theorem merged_flag {f : WireWindow → Bool} (hf : ∀ a b, f (mergeWireWindows a b)=(f a || f b))
    {xs : List WireWindow} {r : WireWindow} (h : Merged xs r) :
    f r=true ↔ ∃ x∈xs, f x=true := by
  induction h with
  | single x => simp only [List.mem_singleton,exists_eq_left]
  | node left right ihl ihr =>
    rw [hf,Bool.or_eq_true,ihl,ihr]
    simp only [List.mem_append,or_and_right,exists_or]

/-- A merged row summarizes its observations. -/
theorem Merged.summary {xs : List WireWindow} {r : WireWindow} (h : Merged xs r) :
    Summary xs r where
  peak := h.greatest fun _ _ => rfl
  finalized := merged_flag (fun _ _ => rfl) h
  maxedOut := merged_flag (fun _ _ => rfl) h
  limitReachedKind := h.greatest fun _ _ => rfl
  nSamples := h.greatest fun _ _ => rfl
  sampledActiveFraction := h.greatest fun _ _ => rfl
  firstSeen := (h.least knownFirstSeen_merge).1
  firstSeenLeast := (h.least knownFirstSeen_merge).2
  timeTo100 := (h.least knownTimeTo100_merge).1
  timeTo100Least := (h.least knownTimeTo100_merge).2
  latest := h.latest observedTsMs_merge latestFields_merge
  active := by
    induction h with
    | single x => exact ⟨x,List.mem_singleton.mpr rfl,le_rfl⟩
    | @node xs ys a b left right ihl ihr =>
      obtain ⟨x,hx,hax⟩ := ihl
      obtain ⟨y,hy,hby⟩ := ihr
      have hle : (mergeWireWindows a b).activeMs ≤ max a.activeMs b.activeMs := by
        rw [activeMs_merge]
        exact min_le_left _ _
      rcases le_max_iff.mp hle with ha | hb
      · exact ⟨x,List.mem_append_left _ hx,ha.trans hax⟩
      · exact ⟨y,List.mem_append_right _ hy,hb.trans hby⟩

/-- The identity of a merged row is that of every observation, when they agree. -/
theorem Merged.id_eq {xs : List WireWindow} {r : WireWindow} (h : Merged xs r) {i : WindowId}
    (hid : ∀ x∈xs, x.id=i) : r.id=i := by
  induction h with
  | single x => exact hid x (List.mem_singleton.mpr rfl)
  | node left right ihl ihr =>
    rw [id_merge]
    exact ihl fun x hx => hid x (List.mem_append_left _ hx)

/-- Without a known first-seen time the merged row keeps the first observed
value. -/
theorem Merged.firstSeen_of_unknown {xs : List WireWindow} {r : WireWindow} (h : Merged xs r)
    (hunknown : ∀ x∈xs, ¬0 < x.firstSeenMs) : (xs.head?).map WireWindow.firstSeenMs=
      some r.firstSeenMs := by
  induction h with
  | single x => rfl
  | @node xs ys a b left right ihl ihr =>
    have hl := ihl fun x hx => hunknown x (List.mem_append_left _ hx)
    have hb : ¬0 < b.firstSeenMs := by
      have hnone : knownFirstSeen b=none := by
        refine (Merged.summary right).firstSeen.mpr fun x hx => ?_
        rw [knownFirstSeen,if_neg (hunknown x (List.mem_append_right _ hx))]
      intro hpos
      rw [knownFirstSeen,if_pos hpos] at hnone
      cases hnone
    rw [firstSeenMs_merge,mergeFirstSeen,if_neg hb,List.head?_append_of_ne_nil _ left.ne_nil]
    exact hl

/-- The active time of a row whose observations respect their lengths respects
the length the row carries. -/
theorem Merged.active_le_cap {xs : List WireWindow} {r : WireWindow} (h : Merged xs r)
    (hcap : ∀ x∈xs, x.activeMs≤activeCap x.windowMinutes) :
    r.activeMs≤activeCap r.windowMinutes := by
  cases h with
  | single x => exact hcap r (List.mem_singleton.mpr rfl)
  | node left right =>
    rw [activeMs_merge]
    exact min_le_right _ _

end TokiSync.WindowMerge
