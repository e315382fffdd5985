import TokiSync.WindowMerge

/-!
# When window merging converges

Observations of one window with different times are merged in any order and
in any grouping into premerged uploads. Every field of the final row is
determined by the observations except two. Observations without a positive
first-seen time leave the first one's value. The active time loses what an
intermediate length caps away, unless a later merge brings it back.
-/

namespace TokiSync.WindowConvergence

open MachineWords ByteKeys FieldwiseMerge WireWindows WindowMerge

/-- Store one row: the first one as it is, later ones by merging. -/
def storeRow : Option WireWindow → WireWindow → Option WireWindow
  | none,w => some w
  | some prev,w => some (mergeWireWindows prev w)

/-- Rows that some order and some grouping of the observations into premerged
uploads end in. -/
def FinalRow (obs : List WireWindow) (row : WireWindow) : Prop :=
  ∃ uploads premerged : List (List WireWindow), uploads.flatten.Perm obs ∧
    List.Forall₂ PremergeWindows uploads premerged ∧
    premerged.flatten.foldl storeRow none=some row

/-- Some observation knows when the window was first seen, or all carry the
same value. -/
def FirstSeenAgrees (obs : List WireWindow) : Prop :=
  (∃ x∈obs, 0 < x.firstSeenMs) ∨ ∀ x∈obs, ∀ y∈obs, x.firstSeenMs=y.firstSeenMs

/-- No observation caps away active time for good: one whose length is shorter
than an observed active time that fits the latest length is followed by an
observation with as much active time. -/
def ActiveCapsAgree (obs : List WireWindow) : Prop :=
  ∀ a∈obs, ∀ top∈obs, (∀ x∈obs, x.observedTsMs≤top.observedTsMs) →
    ∀ y∈obs, activeCap y.windowMinutes < min a.activeMs (activeCap top.windowMinutes) →
      ∃ x∈obs, y.observedTsMs<x.observedTsMs ∧
        min a.activeMs (activeCap top.windowMinutes)≤x.activeMs

section

variable {obs : List WireWindow} {i : WindowId}

/-- Premerging rows of one identity merges them all, in the order the sort
left them. -/
theorem premergeLoop_of_id {prev : WireWindow} {rest : List WireWindow}
    (hid : ∀ w∈rest, w.id=prev.id) : premergeLoop prev rest=[rest.foldl mergeWireWindows prev] := by
  induction rest generalizing prev with
  | nil => rfl
  | cons w rest ih =>
    have hw := hid w List.mem_cons_self
    rw [premergeLoop,if_pos hw.symm,List.foldl_cons]
    refine ih fun x hx => ?_
    rw [id_merge]
    exact hid x (List.mem_cons_of_mem _ hx)

/-- A premerged upload of one identity is empty or one row merged from it. -/
theorem PremergeWindows.of_id {items merged : List WireWindow} (h : PremergeWindows items merged)
    (hid : ∀ w∈items, w.id=i) : (items=[] ∧ merged=[]) ∨
      ∃ xs r, xs.Perm items ∧ merged=[r] ∧ Merged xs r := by
  obtain ⟨sorted,⟨hperm,-⟩,rfl⟩ := h
  cases sorted with
  | nil => exact Or.inl ⟨hperm.nil_eq.symm,rfl⟩
  | cons w rest =>
    have hsame : ∀ x∈rest, x.id=w.id := by
      intro x hx
      rw [hid x (hperm.mem_iff.mp (List.mem_cons_of_mem _ hx)),
        hid w (hperm.mem_iff.mp List.mem_cons_self)]
    refine Or.inr ⟨w::rest,_,hperm,premergeLoop_of_id hsame,?_⟩
    exact MergedFrom.foldl (.single w) rest

/-- Storing premerged uploads on top of a merged row merges them too. -/
theorem merged_of_uploads {uploads premerged : List (List WireWindow)}
    (h : List.Forall₂ PremergeWindows uploads premerged)
    (hid : ∀ items∈uploads, ∀ w∈items, w.id=i) {xs : List WireWindow}
    {prev : Option WireWindow}
    (hprev : (xs=[] ∧ prev=none) ∨ ∃ p, prev=some p ∧ Merged xs p) {row : WireWindow}
    (hrow : premerged.flatten.foldl storeRow prev=some row) :
    ∃ ys, ys.Perm (xs++uploads.flatten) ∧ Merged ys row := by
  induction h generalizing xs prev with
  | nil =>
    rcases hprev with ⟨-,hp⟩ | ⟨p,hp,hmerged⟩
    · rw [hp] at hrow
      cases hrow
    · rw [hp] at hrow
      cases hrow
      refine ⟨xs,?_,hmerged⟩
      rw [List.flatten_nil,List.append_nil]
  | @cons items merged uploads premerged hpre _ ih =>
    have hrest : ∀ its∈uploads, ∀ w∈its, w.id=i :=
      fun its hits => hid its (List.mem_cons_of_mem _ hits)
    rw [List.flatten_cons,List.foldl_append] at hrow
    rcases PremergeWindows.of_id hpre (hid items List.mem_cons_self) with
      ⟨hnil,hmnil⟩ | ⟨zs,r,hzs,hone,hmerged⟩
    · rw [hmnil,List.foldl_nil] at hrow
      obtain ⟨ys,hys,hrow'⟩ := ih hrest hprev hrow
      refine ⟨ys,?_,hrow'⟩
      rw [hnil,List.flatten_cons,List.nil_append]
      exact hys
    · rw [hone] at hrow
      have hnext : ∃ p, storeRow prev r=some p ∧ Merged (xs++zs) p := by
        rcases hprev with ⟨hxs,hp⟩ | ⟨p,hp,hxs⟩
        · rw [hxs,hp]
          exact ⟨r,rfl,hmerged⟩
        · rw [hp]
          exact ⟨_,rfl,hxs.node hmerged⟩
      obtain ⟨ys,hys,hrow'⟩ := ih hrest (Or.inr hnext) hrow
      refine ⟨ys,hys.trans ?_,hrow'⟩
      rw [List.flatten_cons,List.append_assoc]
      exact (hzs.append_right uploads.flatten).append_left xs

/-- A final row is merged from the observations along some tree. -/
theorem FinalRow.merged {row : WireWindow} (h : FinalRow obs row) (hid : ∀ w∈obs, w.id=i) :
    ∃ ys, ys.Perm obs ∧ Merged ys row := by
  obtain ⟨uploads,premerged,hperm,hpre,hrow⟩ := h
  have huploads : ∀ items∈uploads, ∀ w∈items, w.id=i := by
    intro items hitems w hw
    exact hid w (hperm.mem_iff.mp (List.mem_flatten.mpr ⟨items,hitems,hw⟩))
  obtain ⟨ys,hys,hmerged⟩ := merged_of_uploads hpre huploads (Or.inl ⟨rfl,rfl⟩) hrow
  exact ⟨ys,hys.trans hperm,hmerged⟩

/-- Uploading the observations one by one in any order ends in their merge. -/
theorem finalRow_of_order (w : WireWindow) (ws : List WireWindow) (hperm : (w::ws).Perm obs) :
    FinalRow obs (ws.foldl mergeWireWindows w) := by
  have hsingle : ∀ rows : List WireWindow, (rows.map fun x => [x]).flatten=rows := by
    intro rows
    induction rows with
    | nil => rfl
    | cons x rows ih => rw [List.map_cons,List.flatten_cons,ih,List.singleton_append]
  have hpre : ∀ rows : List WireWindow, List.Forall₂ PremergeWindows (rows.map fun x => [x])
      (rows.map fun x => [x]) := by
    intro rows
    induction rows with
    | nil => exact .nil
    | cons x rows ih =>
      exact .cons ⟨[x],⟨.refl _,List.pairwise_singleton _ x⟩,rfl⟩ ih
  have hstore : ∀ (rows : List WireWindow) (prev : WireWindow),
      rows.foldl storeRow (some prev)=some (rows.foldl mergeWireWindows prev) := by
    intro rows
    induction rows with
    | nil => exact fun _ => rfl
    | cons x rows ih => exact fun prev => ih (mergeWireWindows prev x)
  refine ⟨(w::ws).map fun x => [x],(w::ws).map fun x => [x],?_,hpre _,?_⟩
  · rw [hsingle]
    exact hperm
  · rw [hsingle,List.foldl_cons]
    exact hstore ws w

/-- Two rows merged from the same observations agree in every field but the
active time and the first-seen time. -/
theorem merged_eq {xs ys : List WireWindow} {r s : WireWindow} (hr : Merged xs r) (hs : Merged ys s)
    (hperm : xs.Perm ys) (hid : ∀ w∈xs, w.id=i)
    (hts : ∀ x∈xs, ∀ y∈xs, x.observedTsMs=y.observedTsMs → x=y)
    (hfirst : r.firstSeenMs=s.firstSeenMs) (hactive : r.activeMs=s.activeMs) : r=s := by
  have hmem : ∀ x, x∈ys ↔ x∈xs := fun x => hperm.mem_iff.symm
  have hset : {x | x∈ys}={x | x∈xs} := Set.ext hmem
  have sr := hr.summary
  have ss := hs.summary
  have hidr := hr.id_eq hid
  have hids := hs.id_eq fun x hx => hid x ((hmem x).mp hx)
  have hideq : r.id=s.id := hidr.trans hids.symm
  have hflag : ∀ {a b : Bool} {p : Prop}, (a=true ↔ p) → (b=true ↔ p) → a=b := by
    intro a b p ha hb
    exact Bool.eq_iff_iff.mpr (ha.trans hb.symm)
  have hknown : knownTimeTo100 r=knownTimeTo100 s := by
    have hs' : {t | ∃ x∈ys, knownTimeTo100 x=some t}={t | ∃ x∈xs, knownTimeTo100 x=some t} := by
      ext t
      simp only [hmem]
    cases hkr : knownTimeTo100 r with
    | none =>
      rw [eq_comm,ss.timeTo100]
      exact fun x hx => sr.timeTo100.mp hkr x ((hmem x).mp hx)
    | some t =>
      cases hks : knownTimeTo100 s with
      | none =>
        have hall := ss.timeTo100.mp hks
        obtain ⟨x,hx,hxt⟩ := (sr.timeTo100Least t hkr).1
        rw [hall x ((hmem x).mpr hx)] at hxt
        cases hxt
      | some u =>
        have hu := ss.timeTo100Least u hks
        rw [hs'] at hu
        rw [(sr.timeTo100Least t hkr).unique hu]
  obtain ⟨x,hx,hrx,hlx,hmx⟩ := sr.latest
  obtain ⟨y,hy,hsy,hly,hmy⟩ := ss.latest
  have hyx : y=x := hts y ((hmem y).mp hy) x hx
    (le_antisymm (hmx y ((hmem y).mp hy)) (hmy x ((hmem x).mpr hx)))
  have hlatest : latestFields r=latestFields s := by rw [hlx,hly,hyx]
  have hobserved : r.observedTsMs=s.observedTsMs := by rw [hrx,hsy,hyx]
  have htime : r.timeTo100Ms=s.timeTo100Ms := by
    unfold knownTimeTo100 at hknown
    split_ifs at hknown with h1 h2 h2
    · rw [h1,h2]
    · exact Option.some.inj hknown
  simp only [WireWindow.id,WindowId.mk.injEq] at hideq
  simp only [latestFields,LatestFields.mk.injEq] at hlatest
  obtain ⟨hkind,hlimit,haccount,hend⟩ := hideq
  obtain ⟨hraw,hgap,hlast,hminutes,hplan⟩ := hlatest
  have hpeak : r.peakPctX100=s.peakPctX100 := sr.peak.unique (hset ▸ ss.peak)
  have hkindr : r.limitReachedKind=s.limitReachedKind :=
    sr.limitReachedKind.unique (hset ▸ ss.limitReachedKind)
  have hsamples : r.nSamples=s.nSamples := sr.nSamples.unique (hset ▸ ss.nSamples)
  have hfraction : r.sampledActiveFraction=s.sampledActiveFraction :=
    sr.sampledActiveFraction.unique (hset ▸ ss.sampledActiveFraction)
  have hexists : ∀ p : WireWindow → Prop, (∃ x∈ys, p x) ↔ ∃ x∈xs, p x := by
    intro p
    simp only [hmem]
  have hfin : r.finalized=s.finalized :=
    hflag sr.finalized (ss.finalized.trans (hexists _))
  have hmax : r.maxedOut=s.maxedOut := hflag sr.maxedOut (ss.maxedOut.trans (hexists _))
  exact WireWindow.ext hkind hlimit haccount hend hraw hminutes hpeak hlast hobserved hfirst hfin
    hmax hkindr htime hactive hgap hfraction hsamples hplan

/-- Among some observations one is the latest. -/
theorem exists_latest {rows : List WireWindow} (hne : rows≠[]) :
    ∃ x∈rows, ∀ y∈rows, y.observedTsMs≤x.observedTsMs := by
  cases rows with
  | nil => exact absurd rfl hne
  | cons w ws =>
    have hmerged : Merged (w::ws) (ws.foldl mergeWireWindows w) := MergedFrom.foldl (.single w) ws
    obtain ⟨x,hx,-,-,hmax⟩ := hmerged.summary.latest
    exact ⟨x,hx,hmax⟩

/-- Active time survives every merge when no observation from its own time on
is too short for it. -/
theorem merged_le_active {xs : List WireWindow} {r : WireWindow} (h : Merged xs r)
    {x : WireWindow} {m : UInt64} (hx : x∈xs) (hm : m≤x.activeMs)
    (hlater : ∀ y∈xs, x.observedTsMs≤y.observedTsMs → m≤activeCap y.windowMinutes) :
    m≤r.activeMs := by
  induction h with
  | single z => rwa [List.mem_singleton.mp hx] at hm
  | @node xs ys a b left right ihl ihr =>
    obtain ⟨z,hz,-,hlatest,hmax⟩ := (Merged.summary (left.node right)).latest
    have hminutes : (mergeWireWindows a b).windowMinutes=z.windowMinutes :=
      congrArg LatestFields.windowMinutes hlatest
    have hcap : m≤activeCap (mergeWireWindows a b).windowMinutes := by
      rw [hminutes]
      exact hlater z hz (hmax x hx)
    have hsub : m≤a.activeMs ∨ m≤b.activeMs := by
      rcases List.mem_append.mp hx with hx | hx
      · exact Or.inl (ihl hx fun y hy => hlater y (List.mem_append_left _ hy))
      · exact Or.inr (ihr hx fun y hy => hlater y (List.mem_append_right _ hy))
    rw [activeMs_merge]
    exact le_min (le_max_iff.mpr hsub) hcap

/-- When no length caps active time away for good, any two merges of the
observations agree in it. -/
theorem active_le_of_capsAgree {xs ys : List WireWindow} {r s : WireWindow} (hr : Merged xs r)
    (hs : Merged ys s) (hxs : xs.Perm obs) (hys : ys.Perm obs)
    (hcap : ∀ w∈obs, w.activeMs≤activeCap w.windowMinutes) (hagree : ActiveCapsAgree obs) :
    r.activeMs ≤ s.activeMs := by
  obtain ⟨a,ha,hra⟩ := hr.summary.active
  obtain ⟨top,htop,-,hlatest,hmax⟩ := hr.summary.latest
  have hminutes : r.windowMinutes=top.windowMinutes := congrArg LatestFields.windowMinutes hlatest
  have hrcap := hr.active_le_cap fun w hw => hcap w (hxs.mem_iff.mp hw)
  rw [hminutes] at hrcap
  have hrm := le_min hra hrcap
  refine hrm.trans ?_
  have hne : (obs.filter fun w => min a.activeMs (activeCap top.windowMinutes)≤w.activeMs)≠[] := by
    apply List.ne_nil_of_mem (a:=a)
    exact List.mem_filter.mpr ⟨hxs.mem_iff.mp ha,decide_eq_true (min_le_left _ _)⟩
  obtain ⟨x,hx,hxmax⟩ := exists_latest hne
  obtain ⟨hxobs,hxm⟩ := List.mem_filter.mp hx
  refine merged_le_active hs (hys.mem_iff.mpr hxobs) (of_decide_eq_true hxm) fun y hy hxy => ?_
  by_contra hshort
  obtain ⟨z,hz,hyz,hzm⟩ := hagree a (hxs.mem_iff.mp ha) top (hxs.mem_iff.mp htop)
    (fun w hw => hmax w (hxs.mem_iff.mpr hw)) y (hys.mem_iff.mp hy) (not_le.mp hshort)
  have hzx := hxmax z (List.mem_filter.mpr ⟨hz,decide_eq_true hzm⟩)
  exact absurd (hxy.trans_lt hyz) (not_lt.mpr hzx)

/-- Some order keeps the active time of an observation as far as the latest
length allows. -/
theorem exists_finalRow_active_ge (hts : ∀ x∈obs, ∀ y∈obs, x.observedTsMs=y.observedTsMs → x=y)
    {a top : WireWindow} (ha : a∈obs) (htop : top∈obs)
    (hmax : ∀ x∈obs, x.observedTsMs≤top.observedTsMs) :
    ∃ row, FinalRow obs row ∧ min a.activeMs (activeCap top.windowMinutes)≤row.activeMs := by
  -- start from one row as late as the latest observation, with the active time in it
  have hfold : ∀ (p : WireWindow) (rest : List WireWindow),
      min a.activeMs (activeCap top.windowMinutes)≤p.activeMs →
      p.observedTsMs=top.observedTsMs → p.windowMinutes=top.windowMinutes →
      (∀ w∈rest, w∈obs) →
      min a.activeMs (activeCap top.windowMinutes)≤(rest.foldl mergeWireWindows p).activeMs := by
    intro p rest hp hpt hpm hrest
    have hmerged : Merged (p::rest) (rest.foldl mergeWireWindows p) :=
      MergedFrom.foldl (.single p) rest
    refine merged_le_active hmerged List.mem_cons_self hp fun y hy hpy => ?_
    rcases List.mem_cons.mp hy with rfl | hy
    · rw [hpm]
      exact min_le_right _ _
    · rw [hpt] at hpy
      have hyt : y=top := hts y (hrest y hy) top htop (le_antisymm (hmax y (hrest y hy)) hpy)
      rw [hyt]
      exact min_le_right _ _
  have hperm : (top::obs.erase top).Perm obs := (List.perm_cons_erase htop).symm
  by_cases hat : a=top
  · refine ⟨_,finalRow_of_order _ _ hperm,hfold top _ ?_ rfl rfl fun w hw => List.mem_of_mem_erase hw⟩
    rw [hat]
    exact min_le_left _ _
  · have ha' : a∈obs.erase top := (List.mem_erase_of_ne hat).mpr ha
    have hperm' : (top::a::(obs.erase top).erase a).Perm obs :=
      ((List.perm_cons_erase ha').symm.cons top).trans hperm
    have hlt : ¬top.observedTsMs≤a.observedTsMs := by
      intro hle
      exact hat (hts a ha top htop (le_antisymm (hmax a ha) hle))
    have hlatest : latestFields (mergeWireWindows top a)=latestFields top := by
      rw [latestFields_merge,if_neg hlt]
    have hminutes : (mergeWireWindows top a).windowMinutes=top.windowMinutes :=
      congrArg LatestFields.windowMinutes hlatest
    refine ⟨_,finalRow_of_order _ _ hperm',hfold (mergeWireWindows top a) _ ?_ ?_ hminutes ?_⟩
    · rw [activeMs_merge,hminutes]
      exact min_le_min_right _ (le_max_right _ _)
    · rw [observedTsMs_merge,if_neg hlt]
    · exact fun w hw => List.mem_of_mem_erase (List.mem_of_mem_erase hw)

/-- Some order caps active time away for good when an observation is too short
for it and no later one brings it back. -/
theorem exists_finalRow_active_lt (hts : ∀ x∈obs, ∀ y∈obs, x.observedTsMs=y.observedTsMs → x=y)
    (hcap : ∀ w∈obs, w.activeMs≤activeCap w.windowMinutes) {y : WireWindow} (hy : y∈obs)
    {m : UInt64} (hshort : activeCap y.windowMinutes< m)
    (hlater : ∀ x∈obs, y.observedTsMs<x.observedTsMs → x.activeMs< m) :
    ∃ row, FinalRow obs row ∧ row.activeMs< m := by
  have hperm : (obs.filter (fun w => w.observedTsMs≤y.observedTsMs)++
      obs.filter (fun w => !decide (w.observedTsMs≤y.observedTsMs))).Perm obs :=
    List.filter_append_perm _ obs
  have hyearly : y∈obs.filter fun w => w.observedTsMs≤y.observedTsMs :=
    List.mem_filter.mpr ⟨hy,decide_eq_true le_rfl⟩
  cases hearly : obs.filter fun w => w.observedTsMs≤y.observedTsMs with
  | nil =>
    rw [hearly] at hyearly
    cases hyearly
  | cons p early =>
    rw [hearly,List.cons_append] at hperm
    rw [hearly] at hyearly
    have hp : Merged (p::early) (early.foldl mergeWireWindows p) := MergedFrom.foldl (.single p) early
    have hsub : ∀ w∈p::early, w∈obs ∧ w.observedTsMs≤y.observedTsMs := by
      intro w hw
      rw [←hearly] at hw
      exact ⟨(List.mem_filter.mp hw).1,of_decide_eq_true (List.mem_filter.mp hw).2⟩
    obtain ⟨z,hz,-,hlatest,hzmax⟩ := hp.summary.latest
    have hzy : z=y := hts z (hsub z hz).1 y hy (le_antisymm (hsub z hz).2 (hzmax y hyearly))
    have hminutes : (early.foldl mergeWireWindows p).windowMinutes=y.windowMinutes := by
      rw [←hzy]
      exact congrArg LatestFields.windowMinutes hlatest
    have hpcap := hp.active_le_cap fun w hw => hcap w (hsub w hw).1
    rw [hminutes] at hpcap
    refine ⟨_,finalRow_of_order _ _ hperm,?_⟩
    rw [List.foldl_append]
    have hrow : Merged ((early.foldl mergeWireWindows p)::
        obs.filter fun w => !decide (w.observedTsMs≤y.observedTsMs)) _ :=
      MergedFrom.foldl (.single (early.foldl mergeWireWindows p)) _
    obtain ⟨x,hx,hle⟩ := hrow.summary.active
    refine hle.trans_lt ?_
    rcases List.mem_cons.mp hx with rfl | hx
    · exact hpcap.trans_lt hshort
    · obtain ⟨hxobs,hxlate⟩ := List.mem_filter.mp hx
      rw [Bool.not_eq_true',decide_eq_false_iff_not] at hxlate
      exact hlater x hxobs (not_le.mp hxlate)

/-- Some order starts with any given observation. -/
theorem exists_finalRow_first {x : WireWindow} (hx : x∈obs)
    (hunknown : ∀ w∈obs, ¬0 < w.firstSeenMs) :
    ∃ row, FinalRow obs row ∧ row.firstSeenMs=x.firstSeenMs := by
  have hperm : (x::obs.erase x).Perm obs := (List.perm_cons_erase hx).symm
  have hmerged : Merged (x::obs.erase x) ((obs.erase x).foldl mergeWireWindows x) :=
    MergedFrom.foldl (.single x) _
  have hfirst := hmerged.firstSeen_of_unknown fun w hw => hunknown w (hperm.mem_iff.mp hw)
  rw [List.head?_cons,Option.map_some,Option.some.injEq] at hfirst
  exact ⟨_,finalRow_of_order _ _ hperm,hfirst.symm⟩

/-- The first-seen times of two merges agree when the observations determine
them. -/
theorem firstSeen_eq_of_agrees {xs ys : List WireWindow} {r s : WireWindow} (hr : Merged xs r)
    (hs : Merged ys s) (hxs : xs.Perm obs) (hys : ys.Perm obs) (hagree : FirstSeenAgrees obs) :
    r.firstSeenMs=s.firstSeenMs := by
  have hpos : ∀ {zs : List WireWindow} {t : WireWindow}, Merged zs t → zs.Perm obs →
      (∃ x∈obs, 0 < x.firstSeenMs) →
      IsLeast {v | ∃ x∈obs, knownFirstSeen x=some v} t.firstSeenMs := by
    rintro zs t ht hzs ⟨x,hx,hxpos⟩
    have hset : {v | ∃ x∈zs, knownFirstSeen x=some v}={v | ∃ x∈obs, knownFirstSeen x=some v} := by
      ext v
      simp only [hzs.mem_iff]
    cases hk : knownFirstSeen t with
    | none =>
      have hnone := ht.summary.firstSeen.mp hk x (hzs.mem_iff.mpr hx)
      rw [knownFirstSeen,if_pos hxpos] at hnone
      cases hnone
    | some v =>
      have hleast := ht.summary.firstSeenLeast v hk
      rw [hset] at hleast
      unfold knownFirstSeen at hk
      split_ifs at hk
      rw [Option.some.inj hk]
      exact hleast
  rcases hagree with hsome | hall
  · exact (hpos hr hxs hsome).unique (hpos hs hys hsome)
  · by_cases hsome : ∃ x∈obs, 0 < x.firstSeenMs
    · exact (hpos hr hxs hsome).unique (hpos hs hys hsome)
    · push Not at hsome
      have hhead : ∀ {zs : List WireWindow} {t : WireWindow}, Merged zs t → zs.Perm obs →
          ∃ x∈obs, x.firstSeenMs=t.firstSeenMs := by
        intro zs t ht hzs
        have hfirst := ht.firstSeen_of_unknown fun w hw =>
          not_lt.mpr (hsome w (hzs.mem_iff.mp hw))
        obtain ⟨x,hx,hxt⟩ := Option.map_eq_some_iff.mp hfirst
        exact ⟨x,hzs.mem_iff.mp (List.mem_of_head? hx),hxt⟩
      obtain ⟨x,hx,hxr⟩ := hhead hr hxs
      obtain ⟨y,hy,hys'⟩ := hhead hs hys
      rw [←hxr,←hys']
      exact hall x hx y hy

/-- Merging sanitized observations of one window with different times ends in
one row, whatever the order and the grouping into uploads, exactly when the
first-seen times agree and no length caps active time away for good. -/
theorem window_merge_converges_iff {obs : List WireWindow} (hs : ∀ w∈obs, Sanitized w)
    (hid : ∀ a∈obs, ∀ b∈obs, a.id=b.id) (hts : (obs.map WireWindow.observedTsMs).Nodup) :
    (∀ r s, FinalRow obs r → FinalRow obs s → r=s) ↔ FirstSeenAgrees obs ∧ ActiveCapsAgree obs := by
  have hinj : ∀ x∈obs, ∀ y∈obs, x.observedTsMs=y.observedTsMs → x=y :=
    fun x hx y hy => List.inj_on_of_nodup_map hts hx hy
  have hcap : ∀ w∈obs, w.activeMs≤activeCap w.windowMinutes := fun w hw => (hs w hw).active_le_cap
  constructor
  · intro hall
    constructor
    · by_contra hnot
      unfold FirstSeenAgrees at hnot
      push Not at hnot
      obtain ⟨hnone,x,hx,y,hy,hne⟩ := hnot
      have hunknown : ∀ w∈obs, ¬0 < w.firstSeenMs := fun w hw => not_lt.mpr (hnone w hw)
      obtain ⟨r,hr,hrx⟩ := exists_finalRow_first hx hunknown
      obtain ⟨s,hs',hsy⟩ := exists_finalRow_first hy hunknown
      apply hne
      rw [←hrx,←hsy,hall r s hr hs']
    · intro a ha top htop hmax y hy hshort
      by_contra hnot
      push Not at hnot
      obtain ⟨r,hr,hrm⟩ := exists_finalRow_active_ge hinj ha htop hmax
      obtain ⟨s,hs',hsm⟩ := exists_finalRow_active_lt hinj hcap hy hshort hnot
      rw [hall r s hr hs'] at hrm
      exact absurd hsm (not_lt.mpr hrm)
  · rintro ⟨hfirst,hcaps⟩ r s hr hs'
    cases hobs : obs with
    | nil =>
      rw [hobs] at hr
      obtain ⟨ys,hys,hmerged⟩ := hr.merged (i:=⟨0,"","",0⟩) fun w hw => absurd hw List.not_mem_nil
      exact absurd hys.eq_nil hmerged.ne_nil
    | cons w ws =>
      have hsame : ∀ x∈obs, x.id=w.id := by
        intro x hx
        exact hid x hx w (by rw [hobs]; exact List.mem_cons_self)
      obtain ⟨xs,hxs,hmr⟩ := hr.merged hsame
      obtain ⟨ys,hys,hms⟩ := hs'.merged hsame
      refine merged_eq hmr hms (hxs.trans hys.symm) (fun x hx => hsame x (hxs.mem_iff.mp hx)) ?_
        (firstSeen_eq_of_agrees hmr hms hxs hys hfirst) (le_antisymm ?_ ?_)
      · intro x hx y hy hxy
        exact hinj x (hxs.mem_iff.mp hx) y (hxs.mem_iff.mp hy) hxy
      · exact active_le_of_capsAgree hmr hms hxs hys hcap hcaps
      · exact active_le_of_capsAgree hms hmr hys hxs hcap hcaps

end

/-- A short length between two long ones. -/
def shortBetween : List WireWindow :=
  [sampleWindow 1759995000000 300 6000000,sampleWindow 1759995000001 60 0,
    sampleWindow 1759995000002 300 0]

/-- A long length after a short one, with the active time in the last row. -/
def longLast : List WireWindow :=
  [sampleWindow 1759995000001 60 0,sampleWindow 1759995000002 300 6000000]

/-- Rows that an upload carries through sanitizing unchanged. -/
theorem sanitized_of_mem {items : List WireWindow} (nowMs : Int64) {w : WireWindow}
    (h : (sanitizeWindowBatch items nowMs).items=items) (hw : w∈items) : Sanitized w :=
  ⟨items,nowMs,by rwa [h]⟩

/-- The sample with its active time last converges. -/
theorem window_merge_converges_sample : ActiveCapsAgree longLast ∧
    ∀ r s, FinalRow longLast r → FinalRow longLast s → r=s := by
  have hs : ∀ w∈longLast, Sanitized w :=
    fun w hw => sanitized_of_mem 1759996000000 (by decide) hw
  have hfirst : FirstSeenAgrees longLast := Or.inl ⟨_,List.mem_cons_self,by decide⟩
  have hcaps : ActiveCapsAgree longLast := by
    unfold ActiveCapsAgree
    decide
  exact ⟨hcaps,(window_merge_converges_iff hs (by decide) (by decide)).mpr ⟨hfirst,hcaps⟩⟩

/-- The order decides: merged by time the short length caps the active time
away, merged after the latest row it does not. -/
theorem shortBetween_diverges : (∀ w∈shortBetween, Sanitized w) ∧
    (∀ a∈shortBetween, ∀ b∈shortBetween, a.id=b.id) ∧
    (shortBetween.map WireWindow.observedTsMs).Nodup ∧
    ∃ r s, FinalRow shortBetween r ∧ FinalRow shortBetween s ∧ r.activeMs=3600000 ∧
      s.activeMs=6000000 := by
  have hs : ∀ w∈shortBetween, Sanitized w :=
    fun w hw => sanitized_of_mem 1759996000000 (by decide) hw
  refine ⟨hs,by decide,by decide,_,_,finalRow_of_order (sampleWindow 1759995000000 300 6000000)
    [sampleWindow 1759995000001 60 0,sampleWindow 1759995000002 300 0] (.refl _),
    finalRow_of_order (sampleWindow 1759995000002 300 0)
    [sampleWindow 1759995000000 300 6000000,sampleWindow 1759995000001 60 0] ?_,
    by decide,by decide⟩
  decide

end TokiSync.WindowConvergence
