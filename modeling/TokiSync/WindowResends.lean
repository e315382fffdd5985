import TokiSync.WindowAcks
import TokiSync.WindowSanitizing

/-!
# Uploading a set of windows again

Clients send all their recent windows in every cycle. What a second upload of
a set adds to a stored row is decided by three comparisons: of the observation
times, which the clamps may have moved since; of the first-seen times; and of
the active times, which a shorter length may have cut in between.
-/

namespace TokiSync.WindowResends

open MachineWords ByteKeys ByteCodec BatchedMaps FieldwiseMerge WireWindows WindowMerge FjallStore
open WindowStore WindowAcks WindowSanitizing

/-- The last one of the observations of greatest time. -/
abbrev LatestOf (xs : List WireWindow) (x : WireWindow) : Prop :=
  LastGreatest WireWindow.observedTsMs xs x

/-- The length of the latest observation admits an active time. -/
def Admits (a : UInt64) (xs : List WireWindow) : Prop :=
  ∀ x, LatestOf xs x → a≤activeCap x.windowMinutes

/-- Some observation has at least the active time, and the lengths of the latest
observations from it on admit it. -/
def Carries (a : UInt64) (xs : List WireWindow) : Prop :=
  ∃ before w after, xs=before++w::after ∧ a≤w.activeMs ∧
    ∀ more, more<+:after → Admits a (before++w::more)

/-- The counters and flags of a row have nothing to gain from those of another
one. -/
structure Counts (row w : WireWindow) : Prop where
  /-- The peak is at least the other one. -/
  peak : w.peakPctX100≤row.peakPctX100
  /-- The end of the window is known. -/
  finalized : w.finalized=true → row.finalized=true
  /-- The exhaustion is known. -/
  maxedOut : w.maxedOut=true → row.maxedOut=true
  /-- The way the limit was reached is at least the other one. -/
  limitReachedKind : w.limitReachedKind≤row.limitReachedKind
  /-- A known time to exhaustion is known and not later. -/
  timeTo100 : w.timeTo100Ms≠ -1 → row.timeTo100Ms≠ -1 ∧ row.timeTo100Ms≤w.timeTo100Ms
  /-- The sampled share is at least the other one. -/
  sampledActiveFraction : w.sampledActiveFraction≤row.sampledActiveFraction
  /-- The number of samples is at least the other one. -/
  nSamples : w.nSamples≤row.nSamples

/-- Observations of one identity: a stored row and those of three uploads, the
third of which has nothing to add to the others. -/
structure Settled (before first second third : List WireWindow) : Prop where
  /-- The latest observation of the third upload is earlier than the latest one
  before, or agrees with it. -/
  latest : ∀ x z, LatestOf (before++first++second) x → LatestOf third z →
    z.observedTsMs<x.observedTsMs ∨
      (z.observedTsMs=x.observedTsMs ∧ latestFields z=latestFields x)
  /-- No first-seen time of the third upload is earlier than all those before. -/
  firstSeen : ∀ z∈third, 0<z.firstSeenMs →
    ∃ x∈before++first++second, 0<x.firstSeenMs ∧ x.firstSeenMs≤z.firstSeenMs
  /-- An active time of the third upload that the latest length admits was not
  cut before. -/
  active : ∀ a, Carries a third → Admits a (before++first++second) → Carries a second ∨
    (Admits a (before++first) ∧ ((∃ r∈before, a≤r.activeMs) ∨ Carries a first))

/-- A row merged from a stored row and two uploads, in this order. -/
structure TwiceMerged (before first second : List WireWindow) (row : WireWindow) : Prop where
  /-- All observations are merged. -/
  merged : Merged (before++first++second) row
  /-- The active time is cut by the lengths after each upload. -/
  active : ∀ a, a≤row.activeMs ↔ Admits a (before++first++second) ∧ (Carries a second ∨
    (Admits a (before++first) ∧ ((∃ r∈before, a≤r.activeMs) ∨ Carries a first)))

section

variable {a : UInt64} {xs : List WireWindow} {r w x : WireWindow}

/-- A merged row has the time and the fields of the latest observation. -/
theorem latestOf_merged (h : Merged xs r) :
    ∃ x, LatestOf xs x ∧ r.observedTsMs=x.observedTsMs ∧ latestFields r=latestFields x :=
  h.lastGreatest observedTsMs_merge latestFields_merge

/-- The length of a merged row is that of the latest observation. -/
theorem admits_iff (h : Merged xs r) : Admits a xs ↔ a≤activeCap r.windowMinutes := by
  obtain ⟨x,hx,-,hfields⟩ := latestOf_merged h
  have hminutes : r.windowMinutes=x.windowMinutes := congrArg LatestFields.windowMinutes hfields
  rw [hminutes]
  constructor
  · exact fun hadmits => hadmits x hx
  · intro hle y hy
    rw [hy.unique hx]
    exact hle

/-- Nothing is carried without observations. -/
theorem not_carries_nil : ¬Carries a [] := by
  rintro ⟨before,w,after,hnil,-⟩
  cases before <;> cases hnil

/-- One more observation. -/
theorem carries_snoc : Carries a (xs++[w]) ↔ Admits a (xs++[w]) ∧ (a≤w.activeMs ∨ Carries a xs) := by
  constructor
  · rintro ⟨before,y,after,hxs,ha,hadmits⟩
    have hall : Admits a (xs++[w]) := by
      rw [hxs]
      exact hadmits after (List.prefix_refl after)
    refine ⟨hall,?_⟩
    rcases List.eq_nil_or_concat after with rfl | ⟨after,z,rfl⟩
    · obtain ⟨-,hw⟩ := List.append_inj' hxs rfl
      rw [List.singleton_inj.mp hw]
      exact Or.inl ha
    · rw [List.concat_eq_append,←List.cons_append,←List.append_assoc] at hxs
      obtain ⟨hxs,-⟩ := List.append_inj' hxs rfl
      refine Or.inr ⟨before,y,after,hxs,ha,fun more hmore => hadmits more ?_⟩
      rw [List.concat_eq_append]
      exact hmore.trans (List.prefix_append _ _)
  · rintro ⟨hall,ha | ⟨before,y,after,rfl,ha,hadmits⟩⟩
    · refine ⟨xs,w,[],rfl,ha,fun more hmore => ?_⟩
      rw [List.prefix_nil.mp hmore]
      exact hall
    · refine ⟨before,y,after++[w],?_,ha,fun more hmore => ?_⟩
      · rw [List.append_assoc,List.cons_append]
      · rcases List.prefix_concat_iff.mp hmore with rfl | hmore
        · rw [List.append_assoc,List.cons_append] at hall
          exact hall
        · exact hadmits more hmore

/-- What is carried is admitted. -/
theorem Carries.admits (h : Carries a xs) : Admits a xs := by
  obtain ⟨before,w,after,rfl,-,hadmits⟩ := h
  exact hadmits after (List.prefix_refl after)

/-- An active time is at most the one of a merge when the merged row admits it
and one of the two rows has it. -/
theorem le_activeMs_merge_iff (b c : WireWindow) : a≤(mergeWireWindows b c).activeMs ↔
    a≤activeCap (mergeWireWindows b c).windowMinutes ∧ (a≤b.activeMs ∨ a≤c.activeMs) := by
  rw [activeMs_merge,le_min_iff,le_max_iff,and_comm]

/-- The active time of observations that are merged one after the other. -/
theorem le_active_foldl_iff {rest : List WireWindow} (hcap : x.activeMs≤activeCap x.windowMinutes) :
    a≤(rest.foldl mergeWireWindows x).activeMs ↔ Carries a (x::rest) := by
  induction rest using List.reverseRecOn with
  | nil =>
    have hsingle : Carries a [x] ↔ Admits a [x] ∧ (a≤x.activeMs ∨ Carries a []) :=
      @carries_snoc a [] x
    rw [hsingle,admits_iff (.single x),List.foldl_nil]
    constructor
    · exact fun ha => ⟨ha.trans hcap,Or.inl ha⟩
    · rintro ⟨-,ha | hnil⟩
      · exact ha
      · exact absurd hnil not_carries_nil
  | append_singleton rest w ih =>
    have hmerged : Merged (x::(rest++[w])) ((rest++[w]).foldl mergeWireWindows x) :=
      MergedFrom.foldl (.single x) (rest++[w])
    have hsnoc : Carries a (x::(rest++[w])) ↔
        Admits a (x::(rest++[w])) ∧ (a≤w.activeMs ∨ Carries a (x::rest)) :=
      @carries_snoc a (x::rest) w
    rw [hsnoc,admits_iff hmerged,List.foldl_append,List.foldl_cons,List.foldl_nil,
      le_activeMs_merge_iff,ih,or_comm]

/-- When merging a row changes nothing, provided that its counters and flags
add nothing. -/
theorem merge_eq_self_iff (hcounts : Counts r w) :
    mergeWireWindows r w=r ↔
      (w.observedTsMs<r.observedTsMs ∨
        (w.observedTsMs=r.observedTsMs ∧ latestFields w=latestFields r)) ∧
      (0<w.firstSeenMs → 0<r.firstSeenMs ∧ r.firstSeenMs≤w.firstSeenMs) ∧
      min (max r.activeMs w.activeMs) (activeCap r.windowMinutes)=r.activeMs := by
  constructor
  · intro hsame
    refine ⟨?_,?_,?_⟩
    · rcases lt_or_ge w.observedTsMs r.observedTsMs with hlt | hge
      · exact Or.inl hlt
      · have htime := observedTsMs_merge r w
        have hfields := latestFields_merge r w
        rw [hsame,if_pos hge] at htime hfields
        exact Or.inr ⟨htime.symm,hfields.symm⟩
    · intro hpos
      have hfirst := firstSeenMs_merge r w
      rw [hsame,mergeFirstSeen,if_pos hpos] at hfirst
      split_ifs at hfirst with hknown
      · exact ⟨hknown,min_eq_left_iff.mp hfirst.symm⟩
      · rw [hfirst] at hknown
        exact absurd hpos hknown
    · have hactive := activeMs_merge r w
      rw [hsame] at hactive
      exact hactive.symm
  · rintro ⟨hlatest,hfirst,hactive⟩
    have htime : (mergeWireWindows r w).observedTsMs=r.observedTsMs := by
      rw [observedTsMs_merge]
      rcases hlatest with hlt | ⟨heq,-⟩
      · rw [if_neg (not_le.mpr hlt)]
      · rw [heq,if_pos le_rfl]
    have hfields : latestFields (mergeWireWindows r w)=latestFields r := by
      rw [latestFields_merge]
      rcases hlatest with hlt | ⟨heq,hsame⟩
      · rw [if_neg (not_le.mpr hlt)]
      · rw [heq,if_pos le_rfl,hsame]
    have hid := id_merge r w
    simp only [WireWindow.id,WindowId.mk.injEq] at hid
    simp only [latestFields,LatestFields.mk.injEq] at hfields
    obtain ⟨hkind,hlimit,haccount,hend⟩ := hid
    obtain ⟨hraw,hgap,hlast,hminutes,hplan⟩ := hfields
    refine WireWindow.ext hkind hlimit haccount hend hraw hminutes ?_ hlast htime ?_ ?_ ?_ ?_ ?_ ?_
      hgap ?_ ?_ hplan
    · exact max_eq_left hcounts.peak
    · rw [firstSeenMs_merge,mergeFirstSeen]
      split_ifs with hpos hknown
      · exact min_eq_left (hfirst hpos).2
      · exact absurd (hfirst hpos).1 hknown
      · rfl
    · exact Bool.or_eq_left_iff_imp.mpr hcounts.finalized
    · exact Bool.or_eq_left_iff_imp.mpr hcounts.maxedOut
    · exact max_eq_left hcounts.limitReachedKind
    · have htime100 : (mergeWireWindows r w).timeTo100Ms=
          mergeTimeTo100 r.timeTo100Ms w.timeTo100Ms := rfl
      rw [htime100,mergeTimeTo100]
      split_ifs with hr hw
      · by_contra hw
        exact (hcounts.timeTo100 (by rwa [hr] at hw)).1 hr
      · rfl
      · exact min_eq_left (hcounts.timeTo100 hw).2
    · rw [activeMs_merge,hminutes]
      exact hactive
    · exact max_eq_left hcounts.sampledActiveFraction
    · exact max_eq_left hcounts.nSamples

/-- A row merged from observations has nothing to gain from the counters and
flags of rows that only differ from some of them in their times. -/
theorem counts_of_merged {ys : List WireWindow} (hr : Merged xs r) (hw : Merged ys w)
    (hsame : ∀ y∈ys, ∃ x∈xs, y={x with
      observedTsMs := y.observedTsMs
      firstSeenMs := y.firstSeenMs}) : Counts r w := by
  have hle : ∀ {β : Type} [LinearOrder β] (f : WireWindow → β),
      (∀ x (s t : Int64), f {x with observedTsMs := s,firstSeenMs := t}=f x) →
      (∀ b c, f (mergeWireWindows b c)=max (f b) (f c)) → f w≤f r := by
    intro β _ f htimes hmax
    obtain ⟨y,hy,hfy⟩ := (hw.greatest hmax).1
    obtain ⟨x,hx,hyx⟩ := hsame y hy
    rw [←hfy,hyx,htimes]
    exact (hr.greatest hmax).2 ⟨x,hx,rfl⟩
  have hflag : ∀ f : WireWindow → Bool,
      (∀ x (s t : Int64), f {x with observedTsMs := s,firstSeenMs := t}=f x) →
      (∀ b c, f (mergeWireWindows b c)=(f b || f c)) → f w=true → f r=true := by
    intro f htimes hor hfw
    obtain ⟨y,hy,hfy⟩ := (merged_flag hor hw).mp hfw
    obtain ⟨x,hx,hyx⟩ := hsame y hy
    rw [hyx,htimes] at hfy
    exact (merged_flag hor hr).mpr ⟨x,hx,hfy⟩
  refine ⟨?_,?_,?_,?_,fun hknown => ?_,?_,?_⟩
  · exact hle WireWindow.peakPctX100 (fun _ _ _ => rfl) fun _ _ => rfl
  · exact hflag WireWindow.finalized (fun _ _ _ => rfl) fun _ _ => rfl
  · exact hflag WireWindow.maxedOut (fun _ _ _ => rfl) fun _ _ => rfl
  · exact hle WireWindow.limitReachedKind (fun _ _ _ => rfl) fun _ _ => rfl
  · have hw100 : knownTimeTo100 w=some w.timeTo100Ms := if_neg hknown
    obtain ⟨y,hy,hty⟩ := (hw.summary.timeTo100Least _ hw100).1
    obtain ⟨x,hx,hyx⟩ := hsame y hy
    have htx : knownTimeTo100 x=some w.timeTo100Ms := by
      rw [hyx] at hty
      exact hty
    cases hr100 : knownTimeTo100 r with
    | none =>
      rw [hr.summary.timeTo100.mp hr100 x hx] at htx
      cases htx
    | some t =>
      have hleast := (hr.summary.timeTo100Least t hr100).2 ⟨x,hx,htx⟩
      unfold knownTimeTo100 at hr100
      split_ifs at hr100 with hunknown
      rw [Option.some.inj hr100]
      rw [Option.some.inj hr100] at hunknown
      exact ⟨hunknown,hleast⟩
  · exact hle WireWindow.sampledActiveFraction (fun _ _ _ => rfl) fun _ _ => rfl
  · exact hle WireWindow.nSamples (fun _ _ _ => rfl) fun _ _ => rfl

/-- A first-seen time that is known. -/
theorem knownFirstSeen_of_pos (h : 0<x.firstSeenMs) : knownFirstSeen x=some x.firstSeenMs :=
  if_pos h

theorem pos_of_knownFirstSeen {t : Int64} (h : knownFirstSeen x=some t) :
    0<x.firstSeenMs ∧ x.firstSeenMs=t := by
  unfold knownFirstSeen at h
  split_ifs at h with hpos
  exact ⟨hpos,Option.some.inj h⟩

/-- The known first-seen times of merged rows are compared through their
observations. -/
theorem firstSeen_merged_iff {ys : List WireWindow} (hr : Merged xs r) (hw : Merged ys w) :
    (0<w.firstSeenMs → 0<r.firstSeenMs ∧ r.firstSeenMs≤w.firstSeenMs) ↔
      ∀ y∈ys, 0<y.firstSeenMs → ∃ x∈xs, 0<x.firstSeenMs ∧ x.firstSeenMs≤y.firstSeenMs := by
  constructor
  · intro hknown y hy hpos
    have hyk := knownFirstSeen_of_pos hpos
    cases hwk : knownFirstSeen w with
    | none =>
      rw [hw.summary.firstSeen.mp hwk y hy] at hyk
      cases hyk
    | some t =>
      obtain ⟨hwpos,rfl⟩ := pos_of_knownFirstSeen hwk
      have hle := (hw.summary.firstSeenLeast _ hwk).2 ⟨y,hy,hyk⟩
      obtain ⟨hrpos,hrle⟩ := hknown hwpos
      obtain ⟨x,hx,hxk⟩ := (hr.summary.firstSeenLeast _ (knownFirstSeen_of_pos hrpos)).1
      obtain ⟨hxpos,hxr⟩ := pos_of_knownFirstSeen hxk
      exact ⟨x,hx,hxpos,by rw [hxr]; exact hrle.trans hle⟩
  · intro hall hwpos
    obtain ⟨y,hy,hyk⟩ := (hw.summary.firstSeenLeast _ (knownFirstSeen_of_pos hwpos)).1
    obtain ⟨hypos,hyw⟩ := pos_of_knownFirstSeen hyk
    obtain ⟨x,hx,hxpos,hxle⟩ := hall y hy hypos
    have hxk := knownFirstSeen_of_pos hxpos
    cases hrk : knownFirstSeen r with
    | none =>
      rw [hr.summary.firstSeen.mp hrk x hx] at hxk
      cases hxk
    | some t =>
      obtain ⟨hrpos,rfl⟩ := pos_of_knownFirstSeen hrk
      have hle := (hr.summary.firstSeenLeast _ hrk).2 ⟨x,hx,hxk⟩
      rw [hyw] at hxle
      exact ⟨hrpos,hle.trans hxle⟩

/-- The latest fields of merged rows are compared through their latest
observations. -/
theorem latest_merged_iff {ys : List WireWindow} (hr : Merged xs r) (hw : Merged ys w) :
    (w.observedTsMs<r.observedTsMs ∨
        (w.observedTsMs=r.observedTsMs ∧ latestFields w=latestFields r)) ↔
      ∀ x z, LatestOf xs x → LatestOf ys z → z.observedTsMs<x.observedTsMs ∨
        (z.observedTsMs=x.observedTsMs ∧ latestFields z=latestFields x) := by
  obtain ⟨x,hx,htx,hfx⟩ := latestOf_merged hr
  obtain ⟨z,hz,htz,hfz⟩ := latestOf_merged hw
  rw [htx,hfx,htz,hfz]
  constructor
  · intro h x' z' hx' hz'
    rw [hx'.unique hx,hz'.unique hz]
    exact h
  · exact fun h => h x z hx hz

/-- Merging a third upload into the row of a stored row and two uploads changes
nothing when the observations are settled. -/
theorem settled_iff {before first second third : List WireWindow}
    (hrow : TwiceMerged before first second r) (hw : Merged third w)
    (hsame : ∀ z∈third, ∃ x∈first, z={x with
      observedTsMs := z.observedTsMs
      firstSeenMs := z.firstSeenMs})
    (hthird : ∀ a, a≤w.activeMs ↔ Carries a third) :
    mergeWireWindows r w=r ↔ Settled before first second third := by
  obtain ⟨hr,hactive⟩ := hrow
  have hcounts : Counts r w := by
    refine counts_of_merged hr hw fun z hz => ?_
    obtain ⟨x,hx,hzx⟩ := hsame z hz
    exact ⟨x,List.mem_append_left _ (List.mem_append_right _ hx),hzx⟩
  have hcap : r.activeMs≤activeCap r.windowMinutes :=
    (admits_iff hr).mp ((hactive r.activeMs).mp le_rfl).1
  rw [merge_eq_self_iff hcounts,latest_merged_iff hr hw,firstSeen_merged_iff hr hw]
  constructor
  · rintro ⟨hlatest,hfirst,hkept⟩
    refine ⟨hlatest,hfirst,fun a hcarries hadmits => ((hactive a).mp ?_).2⟩
    rw [←hkept]
    exact le_min (((hthird a).mpr hcarries).trans (le_max_right _ _)) ((admits_iff hr).mp hadmits)
  · rintro ⟨hlatest,hfirst,hkept⟩
    refine ⟨hlatest,hfirst,le_antisymm ?_ (le_min (le_max_left _ _) hcap)⟩
    rcases le_total r.activeMs w.activeMs with hle | hle
    · rw [max_eq_right hle]
      have hadmits : Admits (min w.activeMs (activeCap r.windowMinutes)) (before++first++second) :=
        (admits_iff hr).mpr (min_le_right _ _)
      exact (hactive _).mpr ⟨hadmits,hkept _ ((hthird _).mp (min_le_left _ _)) hadmits⟩
    · rw [max_eq_left hle]
      exact min_le_left _ _

/-- Rows are merged one after the other from a list. -/
def Folded (xs : List WireWindow) (r : WireWindow) : Prop :=
  ∃ x rest, xs=x::rest ∧ r=rest.foldl mergeWireWindows x

theorem Folded.merged (h : Folded xs r) : Merged xs r := by
  obtain ⟨x,rest,rfl,rfl⟩ := h
  exact MergedFrom.foldl (.single x) rest

theorem Folded.le_active_iff (h : Folded xs r) (hcap : ∀ x∈xs, x.activeMs≤activeCap x.windowMinutes) :
    a≤r.activeMs ↔ Carries a xs := by
  obtain ⟨x,rest,rfl,rfl⟩ := h
  exact le_active_foldl_iff (hcap x List.mem_cons_self)

/-- What an upsert leaves of a row and an incoming one. -/
def mergeInto (before : Option WireWindow) (w : WireWindow) : WireWindow :=
  before.elim w fun row => mergeWireWindows row w

theorem merged_mergeInto {before : Option WireWindow} (h : Merged xs w) :
    Merged (before.toList++xs) (mergeInto before w) := by
  cases before with
  | none => exact h
  | some row => exact MergedFrom.node (.single row) h

/-- The active time after the first upload. -/
theorem le_active_mergeInto {before : Option WireWindow} (hw : Folded xs w)
    (hcap : ∀ x∈xs, x.activeMs≤activeCap x.windowMinutes) :
    a≤(mergeInto before w).activeMs ↔ Admits a (before.toList++xs) ∧
      ((∃ r∈before.toList, a≤r.activeMs) ∨ Carries a xs) := by
  rw [admits_iff (merged_mergeInto hw.merged),←hw.le_active_iff hcap]
  cases before with
  | none =>
    have hadmits : a≤w.activeMs → a≤activeCap w.windowMinutes := fun ha =>
      (admits_iff hw.merged).mp ((hw.le_active_iff hcap).mp ha).admits
    constructor
    · exact fun ha => ⟨hadmits ha,Or.inr ha⟩
    · rintro ⟨-,⟨row,hrow,-⟩ | ha⟩
      · cases hrow
      · exact ha
  | some row =>
    simp only [Option.toList_some,List.mem_singleton,exists_eq_left]
    exact le_activeMs_merge_iff row w

/-- The active time after one more upload. -/
theorem le_active_merge {ys : List WireWindow} (hr : Merged xs r) (hw : Folded ys w)
    (hcap : ∀ y∈ys, y.activeMs≤activeCap y.windowMinutes) :
    a≤(mergeWireWindows r w).activeMs ↔
      Admits a (xs++ys) ∧ (Carries a ys ∨ a≤r.activeMs) := by
  have hmerged : Merged (xs++ys) (mergeWireWindows r w) := hr.node hw.merged
  rw [le_activeMs_merge_iff,admits_iff hmerged,hw.le_active_iff hcap,or_comm]

end

/-- Rows of one identity. -/
def rowsOf (rows : List WireWindow) (id : WindowId) : List WireWindow :=
  rows.filter fun w => w.id=id

/-- The order of identities separates them. -/
theorem order_injective {i j : WindowId} (h : i.order=j.order) : i=j := by
  obtain ⟨kind,limit,account,anchor⟩ := i
  obtain ⟨kind',limit',account',anchor'⟩ := j
  simp only [WindowId.order,EmbeddingLike.apply_eq_iff_eq,Prod.mk.injEq,utf8_inj] at h
  rw [WindowId.mk.injEq]
  exact h

section

variable {prev w : WireWindow} {rest sorted : List WireWindow}

theorem rowsOf_cons_of_id {id : WindowId} (h : w.id=id) :
    rowsOf (w::rest) id=w::rowsOf rest id :=
  List.filter_cons_of_pos (decide_eq_true h)

theorem rowsOf_cons_of_ne {id : WindowId} (h : w.id≠id) : rowsOf (w::rest) id=rowsOf rest id :=
  List.filter_cons_of_neg fun hid => h (of_decide_eq_true hid)

/-- The premerge of sorted rows has one row for every identity, merged from all
its rows in their order. -/
structure Premerged (rows merged : List WireWindow) : Prop where
  /-- A premerged row is merged from the rows of its identity. -/
  folded : ∀ r∈merged, Folded (rowsOf rows r.id) r
  /-- No identity has two premerged rows. -/
  distinct : merged.Pairwise fun a b => a.id≠b.id
  /-- Every identity has a premerged row. -/
  present : ∀ x∈rows, ∃ r∈merged, r.id=x.id

/-- What the loop of the premerge makes of sorted rows behind the last merged
one. -/
structure LoopMerged (prev : WireWindow) (rest merged : List WireWindow) : Prop where
  /-- A row goes on with the last merged one or is merged from the rows of its
  own, later identity. -/
  folded : ∀ r∈merged, (r.id=prev.id ∧ r=(rowsOf rest prev.id).foldl mergeWireWindows prev) ∨
    (prev.id.order<r.id.order ∧ Folded (rowsOf rest r.id) r)
  /-- No identity has two rows. -/
  distinct : merged.Pairwise fun a b => a.id≠b.id
  /-- Every identity has a row. -/
  present : ∀ x∈prev::rest, ∃ r∈merged, r.id=x.id

/-- The loop of the premerge keeps identities apart. -/
theorem loopMerged (hsorted : (prev::rest).Pairwise fun a b => a.id.order≤b.id.order) :
    LoopMerged prev rest (premergeLoop prev rest) := by
  induction rest generalizing prev with
  | nil =>
    refine ⟨fun r hr => Or.inl ?_,List.pairwise_singleton _ _,fun x hx => ⟨prev,?_,?_⟩⟩
    · rw [List.mem_singleton.mp hr]
      exact ⟨rfl,rfl⟩
    · exact List.mem_cons_self
    · rw [List.mem_singleton.mp hx]
  | cons w rest ih =>
    obtain ⟨hprev,hrest⟩ := List.pairwise_cons.mp hsorted
    rw [premergeLoop]
    by_cases hid : prev.id=w.id
    · have hmid : (mergeWireWindows prev w).id=prev.id := id_merge prev w
      have hsorted' : (mergeWireWindows prev w::rest).Pairwise fun a b =>
          a.id.order≤b.id.order := by
        refine List.pairwise_cons.mpr ⟨fun y hy => ?_,(List.pairwise_cons.mp hrest).2⟩
        rw [hmid]
        exact hprev y (List.mem_cons_of_mem w hy)
      obtain ⟨hfolded,hdistinct,hpresent⟩ := ih hsorted'
      rw [if_pos hid]
      refine ⟨fun r hr => ?_,hdistinct,fun x hx => ?_⟩
      · rcases hfolded r hr with ⟨hrid,hfold⟩ | ⟨hlt,hfold⟩
        · rw [hmid] at hrid hfold
          rw [rowsOf_cons_of_id hid.symm,List.foldl_cons]
          exact Or.inl ⟨hrid,hfold⟩
        · rw [hmid] at hlt
          have hne : w.id≠r.id := by
            rw [←hid]
            exact fun heq => hlt.ne (congrArg WindowId.order heq)
          rw [rowsOf_cons_of_ne hne]
          exact Or.inr ⟨hlt,hfold⟩
      · rcases List.mem_cons.mp hx with rfl | hx
        · obtain ⟨r,hr,hrid⟩ := hpresent _ List.mem_cons_self
          exact ⟨r,hr,hrid.trans hmid⟩
        · rcases List.mem_cons.mp hx with rfl | hx
          · obtain ⟨r,hr,hrid⟩ := hpresent _ List.mem_cons_self
            exact ⟨r,hr,(hrid.trans hmid).trans hid⟩
          · exact hpresent x (List.mem_cons_of_mem _ hx)
    · have hlt : prev.id.order<w.id.order :=
        lt_of_le_of_ne (hprev w List.mem_cons_self) fun heq => hid (order_injective heq)
      have hafter : ∀ y∈w::rest, prev.id.order<y.id.order := by
        intro y hy
        rcases List.mem_cons.mp hy with rfl | hy
        · exact hlt
        · exact hlt.trans_le ((List.pairwise_cons.mp hrest).1 y hy)
      obtain ⟨hfolded,hdistinct,hpresent⟩ := ih hrest
      have hlater : ∀ r∈premergeLoop w rest, prev.id.order<r.id.order := by
        intro r hr
        rcases hfolded r hr with ⟨hrid,-⟩ | ⟨hrlt,-⟩
        · rw [hrid]
          exact hlt
        · exact hlt.trans hrlt
      rw [if_neg hid]
      refine ⟨fun r hr => ?_,List.pairwise_cons.mpr ⟨fun r hr heq => ?_,hdistinct⟩,fun x hx => ?_⟩
      · rcases List.mem_cons.mp hr with rfl | hr
        · have hnone : rowsOf (w::rest) r.id=[] := by
            refine List.filter_eq_nil_iff.mpr fun y hy hyid => ?_
            exact (hafter y hy).ne (congrArg WindowId.order (of_decide_eq_true hyid)).symm
          rw [hnone]
          exact Or.inl ⟨rfl,rfl⟩
        · refine Or.inr ⟨hlater r hr,?_⟩
          rcases hfolded r hr with ⟨hrid,hfold⟩ | ⟨hrlt,hfold⟩
          · rw [hrid,rowsOf_cons_of_id rfl]
            exact ⟨w,_,rfl,hfold⟩
          · have hne : w.id≠r.id := fun heq => hrlt.ne (congrArg WindowId.order heq)
            rw [rowsOf_cons_of_ne hne]
            exact hfold
      · exact (hlater r hr).ne (congrArg WindowId.order heq)
      · rcases List.mem_cons.mp hx with rfl | hx
        · exact ⟨x,List.mem_cons_self,rfl⟩
        · obtain ⟨r,hr,hrid⟩ := hpresent x hx
          exact ⟨r,List.mem_cons_of_mem prev hr,hrid⟩

/-- Sorted rows are premerged identity by identity. -/
theorem premerged_of_sorted (hsorted : sorted.Pairwise fun a b => a.id.order≤b.id.order) :
    Premerged sorted (mergeAdjacent sorted) := by
  cases sorted with
  | nil =>
    exact ⟨fun r hr => absurd hr List.not_mem_nil,List.Pairwise.nil,
      fun x hx => absurd hx List.not_mem_nil⟩
  | cons w rest =>
    obtain ⟨hfolded,hdistinct,hpresent⟩ := loopMerged hsorted
    refine ⟨fun r hr => ?_,hdistinct,hpresent⟩
    rcases hfolded r hr with ⟨hrid,hfold⟩ | ⟨hlt,hfold⟩
    · rw [hrid,rowsOf_cons_of_id rfl]
      exact ⟨w,_,rfl,hfold⟩
    · have hne : w.id≠r.id := fun heq => hlt.ne (congrArg WindowId.order heq)
      rw [rowsOf_cons_of_ne hne]
      exact hfold

end

section

variable (bincode : Codec WireWindow)

/-- What an upsert of a window leaves under its key. -/
def written (old : Option Bytes) (w : WireWindow) : Bytes :=
  match old with
  | some prevBytes =>
    match decodeWindowVersioned bincode prevBytes with
    | .valid prev =>
      if mergeWireWindows prev w=prev then prevBytes
      else encodeWindow bincode (mergeWireWindows prev w)
    | .futureVersion => prevBytes
    | .corrupt => encodeWindow bincode w
  | none => encodeWindow bincode w

/-- The window under a key. -/
def storedWindow (db : Db) (key : Bytes) : Option WireWindow :=
  ((db .windows)[key]?).bind (decodeWindow bincode)

end

/-- A row of a newer program is under the key. -/
def Preserved (db : Db) (key : Bytes) : Prop := ∃ v, (db .windows)[key]?=some v ∧ Future v

section

variable {bincode : Codec WireWindow} {db db' : Db} {userId provider : String}

/-- An upsert of a window writes under its key. -/
theorem get_upsertWindow (acc : Db×ℕ) (w : WireWindow) (k : Bytes) :
    ((upsertWindow bincode userId provider acc w).1 .windows)[k]?=
      if k=windowRowKey userId provider w.id then some (written bincode (acc.1 .windows)[k]? w)
      else (acc.1 .windows)[k]? := by
  by_cases hk : k=windowRowKey userId provider w.id
  · subst hk
    rw [if_pos rfl]
    unfold upsertWindow written
    dsimp only
    cases hold : (acc.1 .windows)[windowRowKey userId provider w.id]? with
    | none => exact (get_written ..).trans (if_pos rfl)
    | some v =>
      dsimp only
      cases hdecode : decodeWindowVersioned bincode v with
      | futureVersion => exact hold
      | corrupt => exact (get_written ..).trans (if_pos rfl)
      | valid prev =>
        dsimp only
        split_ifs
        · exact hold
        · exact (get_written ..).trans (if_pos rfl)
  · have hput : ∀ v : Bytes, (applyOp acc.1 (.insert .windows (windowRowKey userId provider w.id) v)
        .windows)[k]?=(acc.1 .windows)[k]? := by
      intro v
      rw [get_written,if_neg hk]
    rw [if_neg hk]
    unfold upsertWindow
    dsimp only
    split
    · split
      · split_ifs
        · rfl
        · exact hput _
      · rfl
      · exact hput _
    · exact hput _

/-- Upserts of other windows leave a key alone. -/
theorem get_upsertWindows_of_other {rows : List WireWindow} {k : Bytes}
    (h : ∀ r∈rows, k≠windowRowKey userId provider r.id) (acc : Db×ℕ) :
    ((rows.foldl (upsertWindow bincode userId provider) acc).1 .windows)[k]?=
      (acc.1 .windows)[k]? := by
  induction rows generalizing acc with
  | nil => rfl
  | cons r rows ih =>
    rw [List.foldl_cons,ih fun x hx => h x (List.mem_cons_of_mem r hx),get_upsertWindow,
      if_neg (h r List.mem_cons_self)]

/-- Upserts of windows with different keys write each of them once. -/
theorem get_upsertWindows_of_mem {rows : List WireWindow}
    (hkeys : rows.Pairwise fun a b =>
      windowRowKey userId provider a.id≠windowRowKey userId provider b.id)
    {r : WireWindow} (hr : r∈rows) (acc : Db×ℕ) :
    ((rows.foldl (upsertWindow bincode userId provider) acc).1
        .windows)[windowRowKey userId provider r.id]?=
      some (written bincode (acc.1 .windows)[windowRowKey userId provider r.id]? r) := by
  induction rows generalizing acc with
  | nil => cases hr
  | cons x rows ih =>
    obtain ⟨hx,hkeys⟩ := List.pairwise_cons.mp hkeys
    rw [List.foldl_cons]
    rcases List.mem_cons.mp hr with rfl | hr
    · rw [get_upsertWindows_of_other hx,get_upsertWindow,if_pos rfl]
    · rw [ih hkeys hr,get_upsertWindow,if_neg (hx r hr).symm]

/-- What is written over a row of a newer program is that row. -/
theorem written_of_future {v : Bytes} (hf : Future v) (w : WireWindow) :
    written bincode (some v) w=v := by
  have hdecode := (decodeWindowVersioned_eq_futureVersion_iff bincode v).mpr hf
  rw [written,hdecode]

/-- What is written elsewhere decodes to the merged window. -/
theorem decodeWindow_written {old : Option Bytes} (hfree : ∀ v, old=some v → ¬Future v)
    (w : WireWindow) : decodeWindow bincode (written bincode old w)=
      some (mergeInto (old.bind (decodeWindow bincode)) w) := by
  cases old with
  | none => exact decodeWindow_encodeWindow w
  | some v =>
    have hnot := hfree v rfl
    rw [←decodeWindowVersioned_eq_futureVersion_iff bincode] at hnot
    rw [written,Option.bind_some]
    cases hdecode : decodeWindowVersioned bincode v with
    | futureVersion => exact absurd hdecode hnot
    | corrupt =>
      have hnone : decodeWindow bincode v=none := by rw [decodeWindow,hdecode]
      rw [hnone]
      exact decodeWindow_encodeWindow w
    | valid prev =>
      have hprev : decodeWindow bincode v=some prev := by rw [decodeWindow,hdecode]
      rw [hprev]
      dsimp only
      split_ifs with hsame
      · rw [hprev,mergeInto,Option.elim_some,hsame]
      · exact decodeWindow_encodeWindow _

/-- Nothing is written when the merge changes nothing, and only then. -/
theorem written_eq_iff {v : Bytes} {row : WireWindow} (hv : decodeWindow bincode v=some row)
    (w : WireWindow) : written bincode (some v) w=v ↔ mergeWireWindows row w=row := by
  have hdecode : decodeWindowVersioned bincode v=.valid row := by
    rw [decodeWindow] at hv
    cases hcase : decodeWindowVersioned bincode v with
    | valid x =>
      rw [hcase] at hv
      cases hv
      rfl
    | futureVersion =>
      rw [hcase] at hv
      cases hv
    | corrupt =>
      rw [hcase] at hv
      cases hv
  rw [written,hdecode]
  dsimp only
  split_ifs with hsame
  · exact iff_of_true rfl hsame
  · refine iff_of_false (fun heq => hsame ?_) hsame
    have hback := congrArg (decodeWindow bincode) heq
    rw [decodeWindow_encodeWindow,hv,Option.some.injEq] at hback
    exact hback

/-- Texts of an identity that contain no key delimiter. -/
def CleanId (id : WindowId) : Prop := NulFree (utf8 id.limitId) ∧ NulFree (utf8 id.account)

/-- Row keys of one user and provider separate identities. -/
theorem windowRowKey_id_inj {i j : WindowId} (hi : CleanId i) (hj : CleanId j)
    (h : windowRowKey userId provider i=windowRowKey userId provider j) : i=j := by
  rw [windowRowKey,windowRowKey,List.append_cancel_left_eq,List.append_cancel_left_eq] at h
  obtain ⟨hl,h⟩ := (delimited_append_inj hi.1 hj.1).mp h
  obtain ⟨ha,h⟩ := (delimited_append_inj hi.2 hj.2).mp h
  rw [List.cons.injEq] at h
  obtain ⟨kind,limit,account,anchor⟩ := i
  obtain ⟨kind',limit',account',anchor'⟩ := j
  rw [WindowId.mk.injEq]
  exact ⟨h.1,utf8_injective hl,utf8_injective ha,toBeBytes_injective h.2⟩

section

variable {upload : WindowUpload} (hstep : WindowStep bincode db upload db')

include hstep

/-- Sorted rows of an upload are sanitized. -/
theorem sanitized_of_step : ∀ z∈upload.sorted, Sanitized z :=
  fun _ hz => ⟨upload.items,upload.nowMs,hstep.2.1.1.mem_iff.mp hz⟩

/-- Identities of sorted rows are clean. -/
theorem cleanId_of_step : ∀ z∈upload.sorted, CleanId z.id :=
  fun z hz => (sanitized_of_step hstep z hz).nulFree

/-- Premerged rows have the identities of sorted ones. -/
theorem exists_sorted_of_premerged {r : WireWindow} (hr : r∈mergeAdjacent upload.sorted) :
    ∃ z∈upload.sorted, z.id=r.id := by
  obtain ⟨x,rest,hrows,-⟩ := (premerged_of_sorted hstep.2.1.2).folded r hr
  have hx : x∈rowsOf upload.sorted r.id := by
    rw [hrows]
    exact List.mem_cons_self
  obtain ⟨hmem,hid⟩ := List.mem_filter.mp hx
  exact ⟨x,hmem,of_decide_eq_true hid⟩

/-- A step leaves the keys of other identities alone. -/
theorem get_step_of_other {k : Bytes}
    (h : ∀ z∈upload.sorted, k≠windowRowKey upload.userId upload.provider z.id) :
    (db' .windows)[k]?=(db .windows)[k]? := by
  rw [hstep.2.2,upsertWindows]
  refine get_upsertWindows_of_other (fun r hr => ?_) _
  obtain ⟨z,hz,hid⟩ := exists_sorted_of_premerged hstep hr
  rw [←hid]
  exact h z hz

/-- A step writes the rows of an identity, merged in their order, under its
key. -/
theorem get_step_of_mem {z : WireWindow} (hz : z∈upload.sorted) :
    ∃ r, Folded (rowsOf upload.sorted z.id) r ∧
      (db' .windows)[windowRowKey upload.userId upload.provider z.id]?=
        some (written bincode (db .windows)[windowRowKey upload.userId upload.provider z.id]? r) := by
  have hpre := premerged_of_sorted hstep.2.1.2
  obtain ⟨r,hr,hid⟩ := hpre.present z hz
  have hkeys : (mergeAdjacent upload.sorted).Pairwise fun a b =>
      windowRowKey upload.userId upload.provider a.id≠
        windowRowKey upload.userId upload.provider b.id := by
    refine List.Pairwise.imp_of_mem ?_ hpre.distinct
    intro a b ha hb hne heq
    obtain ⟨x,hx,hxa⟩ := exists_sorted_of_premerged hstep ha
    obtain ⟨y,hy,hyb⟩ := exists_sorted_of_premerged hstep hb
    have hca := cleanId_of_step hstep x hx
    have hcb := cleanId_of_step hstep y hy
    rw [hxa] at hca
    rw [hyb] at hcb
    exact hne (windowRowKey_id_inj hca hcb heq)
  have hget : ((upsertWindows bincode db upload.userId upload.provider
      (mergeAdjacent upload.sorted)).1 .windows)[windowRowKey upload.userId upload.provider r.id]?=
        some (written bincode (db .windows)[windowRowKey upload.userId upload.provider r.id]? r) :=
    get_upsertWindows_of_mem hkeys hr (db,0)
  rw [hid] at hget
  have hfolded := hpre.folded r hr
  rw [hid] at hfolded
  refine ⟨r,hfolded,?_⟩
  rw [hstep.2.2]
  exact hget

/-- Active times of sorted rows respect their lengths. -/
theorem active_le_cap_of_step (id : WindowId) :
    ∀ x∈rowsOf upload.sorted id, x.activeMs≤activeCap x.windowMinutes :=
  fun x hx => (sanitized_of_step hstep x (List.mem_filter.mp hx).1).active_le_cap

end

/-- A set of windows that is uploaded, and uploaded again behind another
upload of the same user and provider. All its rows pass the checks both times. -/
structure Resent (first second third : WindowUpload) : Prop where
  /-- The uploads are of one user. -/
  users : second.userId=first.userId ∧ third.userId=first.userId
  /-- The uploads are for one provider. -/
  providers : second.provider=first.provider ∧ third.provider=first.provider
  /-- The first set comes again. -/
  items : third.items=first.items
  /-- All its rows pass the checks. -/
  passes : ∀ w∈first.items, passes first.nowMs w=true ∧ passes third.nowMs w=true

/-- When all rows pass, sanitizing keeps the newest ones. -/
theorem sanitized_of_passing {items : List WireWindow} {nowMs : Int64}
    (h : ∀ w∈items, passes nowMs w=true) :
    (sanitizeWindowBatch items nowMs).items=(truncateNewest items).map (keptRow nowMs) := by
  rw [sanitized_eq,List.filter_eq_self.mpr h]

/-- Kept rows keep their identity. -/
theorem keptRow_id (nowMs : Int64) (w : WireWindow) : (keptRow nowMs w).id=w.id := by
  rw [keptRow_eq,WireWindow.id,WireWindow.id]

/-- The uploaded rows that are kept, in the order of the sort: those that pass
the checks, or the newest of them. -/
def KeptItems (upload : WindowUpload) (items : List WireWindow) : Prop :=
  items.Perm (truncateNewest (upload.items.filter (passes upload.nowMs))) ∧
    upload.sorted=items.map (keptRow upload.nowMs)

/-- Every sort is one of uploaded rows. -/
theorem exists_keptItems {upload : WindowUpload} (hstep : WindowStep bincode db upload db') :
    ∃ items, KeptItems upload items := by
  have hperm := hstep.2.1.1
  rw [sanitized_eq] at hperm
  have hcomp := congrFun₂ (List.eq_map_comp_perm (keptRow upload.nowMs)) upload.sorted
    (truncateNewest (upload.items.filter (passes upload.nowMs)))
  obtain ⟨items,hsorted,hitems⟩ := hcomp.mpr hperm
  exact ⟨items,hitems,hsorted⟩

/-- Uploaded rows of an identity, with their times clamped to the clock and
their active time capped. -/
def clampedRows (nowMs : Int64) (items : List WireWindow) (id : WindowId) : List WireWindow :=
  (rowsOf items id).map (keptRow nowMs)

/-- The sorted rows of an identity are its uploaded ones, clamped. -/
theorem rowsOf_sorted {upload : WindowUpload} {items : List WireWindow}
    (h : KeptItems upload items) (id : WindowId) :
    rowsOf upload.sorted id=clampedRows upload.nowMs items id := by
  rw [h.2,rowsOf,clampedRows,rowsOf,List.filter_map]
  refine congrArg _ (List.filter_congr fun w _ => ?_)
  rw [Function.comp_apply,keptRow_id]

section

variable {db1 db2 db3 : Db} {first second third : WindowUpload}

/-- Rows sorted the second time are rows sorted the first time, up to their
times. -/
theorem Resent.exists_first (h : Resent first second third)
    (hfirst : WindowStep bincode db first db1) (hthird : WindowStep bincode db2 third db3)
    {z : WireWindow} (hz : z∈third.sorted) : ∃ x∈first.sorted, x.id=z.id ∧ z={x with
      observedTsMs := z.observedTsMs
      firstSeenMs := z.firstSeenMs} := by
  have hmem := hthird.2.1.1.mem_iff.mp hz
  rw [h.items,sanitized_of_passing fun w hw => (h.passes w hw).2] at hmem
  obtain ⟨w,hw,rfl⟩ := List.mem_map.mp hmem
  refine ⟨keptRow first.nowMs w,hfirst.2.1.1.mem_iff.mpr ?_,?_,?_⟩
  · rw [sanitized_of_passing fun w hw => (h.passes w hw).1]
    exact List.mem_map_of_mem hw
  · rw [keptRow_id,keptRow_id]
  · rw [keptRow_eq,keptRow_eq]

/-- A row that decodes is not one of a newer program. -/
theorem decoded_row {k v : Bytes} {row : WireWindow} (hv : (db .windows)[k]?=some v)
    (hrow : decodeWindow bincode v=some row) :
    (∀ old, (db .windows)[k]?=some old → ¬Future old) ∧
      ((db .windows)[k]?).bind (decodeWindow bincode)=some row := by
  refine ⟨fun old hold => ?_,?_⟩
  · rw [hv,Option.some.injEq] at hold
    rw [←hold]
    exact not_future_of_decodeWindow hrow
  · rw [hv,Option.bind_some,hrow]

/-- The row of an identity after both uploads. -/
theorem row_after_two (h : Resent first second third) (hfirst : WindowStep bincode db first db1)
    (hsecond : WindowStep bincode db1 second db2) {x : WireWindow} (hx : x∈first.sorted)
    {key : Bytes} (hkey : windowRowKey first.userId first.provider x.id=key)
    (hfree : ¬Preserved db key) : ∃ v row, (db2 .windows)[key]?=some v ∧
      decodeWindow bincode v=some row ∧ TwiceMerged (storedWindow bincode db key).toList
        (rowsOf first.sorted x.id) (rowsOf second.sorted x.id) row := by
  obtain ⟨r,hr,hget⟩ := get_step_of_mem hfirst hx
  rw [hkey] at hget
  have hnot : ∀ old, (db .windows)[key]?=some old → ¬Future old :=
    fun old hold hf => hfree ⟨old,hold,hf⟩
  have hdecode : decodeWindow bincode (written bincode (db .windows)[key]? r)=
      some (mergeInto (storedWindow bincode db key) r) := decodeWindow_written hnot r
  have hcap := active_le_cap_of_step hfirst x.id
  have hmerged : Merged ((storedWindow bincode db key).toList++rowsOf first.sorted x.id)
      (mergeInto (storedWindow bincode db key) r) := merged_mergeInto hr.merged
  by_cases hq : ∃ y∈second.sorted, y.id=x.id
  · obtain ⟨y,hy,hid⟩ := hq
    obtain ⟨q,hfolded,hget2⟩ := get_step_of_mem hsecond hy
    rw [h.users.1,h.providers.1,hid,hkey] at hget2
    rw [hid] at hfolded
    obtain ⟨hnot1,hstored1⟩ := decoded_row hget hdecode
    have hdecode2 : decodeWindow bincode (written bincode (db1 .windows)[key]? q)=
        some (mergeInto (storedWindow bincode db1 key) q) := decodeWindow_written hnot1 q
    rw [storedWindow,hstored1] at hdecode2
    have hcap2 := active_le_cap_of_step hsecond x.id
    refine ⟨_,_,hget2,hdecode2,hmerged.node hfolded.merged,fun a => ?_⟩
    rw [mergeInto,Option.elim_some,le_active_merge hmerged hfolded hcap2,
      le_active_mergeInto hr hcap]
  · have hnone : rowsOf second.sorted x.id=[] :=
      List.filter_eq_nil_iff.mpr fun y hy hid => hq ⟨y,hy,of_decide_eq_true hid⟩
    have hother : (db2 .windows)[key]?=(db1 .windows)[key]? := by
      refine get_step_of_other hsecond fun y hy heq => hq ⟨y,hy,?_⟩
      rw [h.users.1,h.providers.1,←hkey] at heq
      exact (windowRowKey_id_inj (cleanId_of_step hfirst x hx) (cleanId_of_step hsecond y hy)
        heq).symm
    rw [hnone]
    refine ⟨_,_,hother.trans hget,hdecode,?_,fun a => ?_⟩
    · rw [List.append_nil]
      exact hmerged
    · rw [List.append_nil,le_active_mergeInto hr hcap]
      constructor
      · exact fun hactive => ⟨hactive.1,Or.inr hactive⟩
      · rintro ⟨-,hnil | hactive⟩
        · exact absurd hnil not_carries_nil
        · exact hactive

/-- The third upload leaves the row of an identity exactly when its observations
are settled. -/
theorem row_unchanged_iff (h : Resent first second third) (hfirst : WindowStep bincode db first db1)
    (hsecond : WindowStep bincode db1 second db2) (hthird : WindowStep bincode db2 third db3)
    {z : WireWindow} (hz : z∈third.sorted)
    (hfree : ¬Preserved db (windowRowKey first.userId first.provider z.id)) :
    (db3 .windows)[windowRowKey first.userId first.provider z.id]?=
        (db2 .windows)[windowRowKey first.userId first.provider z.id]? ↔
      Settled (storedWindow bincode db (windowRowKey first.userId first.provider z.id)).toList
        (rowsOf first.sorted z.id) (rowsOf second.sorted z.id) (rowsOf third.sorted z.id) := by
  obtain ⟨x,hx,hid,-⟩ := h.exists_first hfirst hthird hz
  rw [←hid] at hfree ⊢
  obtain ⟨v,row,hv,hrow,htwice⟩ := row_after_two h hfirst hsecond hx rfl hfree
  obtain ⟨w,hw,hget⟩ := get_step_of_mem hthird hz
  rw [h.users.2,h.providers.2,←hid,hv] at hget
  rw [←hid] at hw
  have hcap := active_le_cap_of_step hthird x.id
  have hsame : ∀ z∈rowsOf third.sorted x.id, ∃ y∈rowsOf first.sorted x.id, z={y with
      observedTsMs := z.observedTsMs
      firstSeenMs := z.firstSeenMs} := by
    intro z hz
    obtain ⟨hzmem,hzid⟩ := List.mem_filter.mp hz
    obtain ⟨y,hy,hyid,hzy⟩ := h.exists_first hfirst hthird hzmem
    have hyx : y.id=x.id := hyid.trans (of_decide_eq_true hzid)
    exact ⟨y,List.mem_filter.mpr ⟨hy,decide_eq_true hyx⟩,hzy⟩
  rw [hget,hv,Option.some.injEq,written_eq_iff hrow,
    settled_iff htwice hw.merged hsame fun a => hw.le_active_iff hcap]

/-- A row of a newer program stays. -/
theorem preserved_of_step {upload : WindowUpload} (hstep : WindowStep bincode db upload db')
    {k v : Bytes} (hv : (db .windows)[k]?=some v) (hf : Future v) : (db' .windows)[k]?=some v := by
  by_cases hk : ∃ z∈upload.sorted, k=windowRowKey upload.userId upload.provider z.id
  · obtain ⟨z,hz,rfl⟩ := hk
    obtain ⟨r,-,hget⟩ := get_step_of_mem hstep hz
    rw [hget,hv,written_of_future hf]
  · rw [get_step_of_other hstep fun z hz heq => hk ⟨z,hz,heq⟩,hv]

/-- The third upload leaves the store exactly when the sorted rows of each of its
identities are settled. -/
theorem sorted_unchanged_iff (h : Resent first second third)
    (hfirst : WindowStep bincode db first db1) (hsecond : WindowStep bincode db1 second db2)
    (hthird : WindowStep bincode db2 third db3) : db3 .windows=db2 .windows ↔
      ∀ z∈third.sorted, ¬Preserved db (windowRowKey first.userId first.provider z.id) →
        Settled (storedWindow bincode db (windowRowKey first.userId first.provider z.id)).toList
          (rowsOf first.sorted z.id) (rowsOf second.sorted z.id) (rowsOf third.sorted z.id) := by
  constructor
  · intro hsame z hz hfree
    refine (row_unchanged_iff h hfirst hsecond hthird hz hfree).mp ?_
    rw [hsame]
  · intro hsettled
    refine Std.ExtTreeMap.ext_getElem? fun k => ?_
    by_cases hk : ∃ z∈third.sorted, k=windowRowKey first.userId first.provider z.id
    · obtain ⟨z,hz,rfl⟩ := hk
      by_cases hfree : Preserved db (windowRowKey first.userId first.provider z.id)
      · obtain ⟨v,hv,hf⟩ := hfree
        have hv2 := preserved_of_step hsecond (preserved_of_step hfirst hv hf) hf
        rw [preserved_of_step hthird hv2 hf,hv2]
      · exact (row_unchanged_iff h hfirst hsecond hthird hz hfree).mpr (hsettled z hz hfree)
    · refine get_step_of_other hthird fun z hz heq => hk ⟨z,hz,?_⟩
      rw [heq,h.users.2,h.providers.2]

/-- Uploading a set again behind another upload changes nothing exactly when the
clamped rows of each of its identities are settled, those aside whose row a
newer program wrote. -/
theorem resend_unchanged_iff (h : Resent first second third)
    (hfirst : WindowStep bincode db first db1) (hsecond : WindowStep bincode db1 second db2)
    (hthird : WindowStep bincode db2 third db3) {ps qs rs : List WireWindow}
    (hps : KeptItems first ps) (hqs : KeptItems second qs) (hrs : KeptItems third rs) :
    db3 .windows=db2 .windows ↔
      ∀ w∈rs, ¬Preserved db (windowRowKey first.userId first.provider w.id) →
        Settled (storedWindow bincode db (windowRowKey first.userId first.provider w.id)).toList
          (clampedRows first.nowMs ps w.id) (clampedRows second.nowMs qs w.id)
          (clampedRows third.nowMs rs w.id) := by
  rw [sorted_unchanged_iff h hfirst hsecond hthird,hrs.2,List.forall_mem_map]
  simp only [keptRow_id,rowsOf_sorted hps,rowsOf_sorted hqs,←hrs.2,rowsOf_sorted hrs]

end

end

/-- A set that comes again with nothing before and between is settled when the
clamps leave it. -/
theorem settled_self (xs : List WireWindow) : Settled [] xs [] xs where
  latest := by
    intro x z hx hz
    rw [List.append_nil,List.nil_append] at hx
    rw [hz.unique hx]
    exact Or.inr ⟨rfl,rfl⟩
  firstSeen := by
    intro z hz hpos
    rw [List.append_nil,List.nil_append]
    exact ⟨z,hz,hpos,le_rfl⟩
  active := by
    intro a hcarries _
    rw [List.nil_append]
    exact Or.inr ⟨hcarries.admits,Or.inr hcarries⟩

/-- Uploads of the sample user. -/
def sampleUpload (nowMs : Int64) (items sorted : List WireWindow) : WindowUpload where
  userId := "u1"
  provider := "codex"
  items := items
  nowMs := nowMs
  sorted := sorted

/-- What the sample user's uploads make of a store. -/
def afterUpload (db : Db) (sorted : List WireWindow) : Db :=
  (upsertWindows windowLayout.codec db "u1" "codex" (mergeAdjacent sorted)).1

/-- Uploads of at most one row need no sort. -/
theorem step_sampleUpload {nowMs : Int64} {items sorted : List WireWindow}
    (h : (sanitizeWindowBatch items nowMs).items=sorted) (hlength : sorted.length ≤ 1) (db : Db) :
    WindowStep windowLayout.codec db (sampleUpload nowMs items sorted) (afterUpload db sorted) := by
  refine ⟨(by decide : providerOk "codex"=true),⟨?_,?_⟩,rfl⟩
  · rw [sampleUpload,h]
  · match sorted,hlength with
    | [],_ => exact List.Pairwise.nil
    | [w],_ => exact List.pairwise_singleton _ w

/-- Uploads of one row behind which nothing and then the row comes again. -/
theorem resent_sampleUpload {w : WireWindow} {t1 t2 t3 : Int64} {x z : WireWindow}
    (h1 : passes t1 w=true) (h3 : passes t3 w=true) :
    Resent (sampleUpload t1 [w] [x]) (sampleUpload t2 [] []) (sampleUpload t3 [w] [z]) where
  users := ⟨rfl,rfl⟩
  providers := ⟨rfl,rfl⟩
  items := rfl
  passes := fun y hy => by
    rw [List.mem_singleton.mp hy]
    exact ⟨h1,h3⟩

/-- A row observed in the past. -/
def pastRow : WireWindow := sampleWindow 1759995000000 300 6000000

/-- A row observed in the past comes again and changes nothing. -/
theorem resend_unchanged_sample :
    afterUpload (afterUpload (afterUpload emptyDb [pastRow]) []) [pastRow] .windows=
      afterUpload (afterUpload emptyDb [pastRow]) [] .windows := by
  have h1 : passes 1759996000000 pastRow=true := by decide
  have h3 : passes 1759997000000 pastRow=true := by decide
  have hfirst : WindowStep windowLayout.codec emptyDb
      (sampleUpload 1759996000000 [pastRow] [pastRow]) (afterUpload emptyDb [pastRow]) :=
    step_sampleUpload rfl le_rfl _
  have hsecond : WindowStep windowLayout.codec (afterUpload emptyDb [pastRow])
      (sampleUpload 1759996500000 [] []) (afterUpload (afterUpload emptyDb [pastRow]) []) :=
    step_sampleUpload rfl (by decide) _
  have hthird : WindowStep windowLayout.codec (afterUpload (afterUpload emptyDb [pastRow]) [])
      (sampleUpload 1759997000000 [pastRow] [pastRow])
      (afterUpload (afterUpload (afterUpload emptyDb [pastRow]) []) [pastRow]) :=
    step_sampleUpload rfl le_rfl _
  have hkept1 : KeptItems (sampleUpload 1759996000000 [pastRow] [pastRow]) [pastRow] :=
    ⟨.refl _,rfl⟩
  have hkept2 : KeptItems (sampleUpload 1759996500000 [] []) [] := ⟨.refl _,rfl⟩
  have hkept3 : KeptItems (sampleUpload 1759997000000 [pastRow] [pastRow]) [pastRow] :=
    ⟨.refl _,rfl⟩
  refine (resend_unchanged_iff (resent_sampleUpload h1 h3) hfirst hsecond hthird hkept1 hkept2
    hkept3).mpr fun w hw _ => ?_
  rw [List.mem_singleton.mp hw]
  have hnone : storedWindow windowLayout.codec emptyDb (windowRowKey "u1" "codex" pastRow.id)=
      none := by
    rw [storedWindow,emptyDb,get_emptyMaps,Option.bind_none]
  have hrows : clampedRows 1759996000000 [pastRow] pastRow.id=[pastRow] := by decide
  have hagain : clampedRows 1759997000000 [pastRow] pastRow.id=[pastRow] := by decide
  simp only [sampleUpload,hnone,hrows,hagain]
  exact settled_self [pastRow]

/-- Observation times of the uploaded rows of an identity are distinct. -/
def DistinctTimes (items : List WireWindow) : Prop :=
  items.Pairwise fun a b => a.id=b.id → a.observedTsMs≠b.observedTsMs

/-- A row observed an hour ahead of the server clock. -/
def aheadRow : WireWindow := sampleWindow 1759999600000 300 6000000

/-- A row observed ahead of the server clock moves with it: it comes again with
a later time, behind which its stored row is written anew. -/
theorem resend_changes_ahead : ¬∀ (db : Db) (first second third : WindowUpload) (db1 db2 db3 : Db),
    WindowStep windowLayout.codec db first db1 → WindowStep windowLayout.codec db1 second db2 →
    WindowStep windowLayout.codec db2 third db3 → Resent first second third →
    first.nowMs≤ second.nowMs → second.nowMs≤ third.nowMs →
    DistinctTimes (first.items++second.items) → db3 .windows=db2 .windows := by
  intro h
  have h1 : passes 1759996000000 aheadRow=true := by decide
  have h3 : passes 1759997000000 aheadRow=true := by decide
  have hfirst : WindowStep windowLayout.codec emptyDb
      (sampleUpload 1759996000000 [aheadRow] [keptRow 1759996000000 aheadRow])
      (afterUpload emptyDb [keptRow 1759996000000 aheadRow]) := step_sampleUpload rfl le_rfl _
  have hsecond : WindowStep windowLayout.codec
      (afterUpload emptyDb [keptRow 1759996000000 aheadRow]) (sampleUpload 1759996500000 [] [])
      (afterUpload (afterUpload emptyDb [keptRow 1759996000000 aheadRow]) []) :=
    step_sampleUpload rfl (by decide) _
  have hthird : WindowStep windowLayout.codec
      (afterUpload (afterUpload emptyDb [keptRow 1759996000000 aheadRow]) [])
      (sampleUpload 1759997000000 [aheadRow] [keptRow 1759997000000 aheadRow]) _ :=
    step_sampleUpload rfl le_rfl _
  have hresent : Resent (sampleUpload 1759996000000 [aheadRow] [keptRow 1759996000000 aheadRow])
      (sampleUpload 1759996500000 [] [])
      (sampleUpload 1759997000000 [aheadRow] [keptRow 1759997000000 aheadRow]) :=
    resent_sampleUpload h1 h3
  have hsame := h _ _ _ _ _ _ _ hfirst hsecond hthird hresent (by decide) (by decide)
    (List.pairwise_singleton _ _)
  have hnone : ¬Preserved emptyDb (windowRowKey "u1" "codex" aheadRow.id) := by
    rintro ⟨v,hv,-⟩
    rw [emptyDb,get_emptyMaps] at hv
    cases hv
  have hsettled := (sorted_unchanged_iff hresent hfirst hsecond hthird).mp hsame _
    List.mem_cons_self (by rw [keptRow_id]; exact hnone)
  have hstored : storedWindow windowLayout.codec emptyDb
      (windowRowKey "u1" "codex" aheadRow.id)=none := by
    rw [storedWindow,emptyDb,get_emptyMaps,Option.bind_none]
  simp only [keptRow_id,sampleUpload,hstored] at hsettled
  have hlater := hsettled.latest (keptRow 1759996000000 aheadRow) (keptRow 1759997000000 aheadRow)
    (lastGreatest_singleton _ _) (lastGreatest_singleton _ _)
  rcases hlater with hlt | ⟨heq,-⟩
  · exact absurd hlt (by decide)
  · exact absurd heq (by decide)

end TokiSync.WindowResends
