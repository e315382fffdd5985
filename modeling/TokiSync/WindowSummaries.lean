import TokiSync.WindowStore

/-!
# Stored windows summarize the accepted observations

Over every run of uploads from any devices at any clocks, the only row of an
identity is under its key and its fields are the maxima, minima, disjunctions
and latest values of the observations accepted for that identity. The one
exception is the first-seen time of observations that never knew it: a clamp
against a negative observation time leaves a negative value instead of zero.
-/

namespace TokiSync.WindowSummaries

open MachineWords ByteKeys ByteCodec BatchedMaps FieldwiseMerge WireWindows WindowMerge WindowStore
open FjallStore Runs

/-- Positive first-seen times of the observations. -/
def knownFirstSeens (obs : List WireWindow) : Set Int64 :=
  {t | 0 < t ∧ ∃ x∈obs, x.firstSeenMs=t}

/-- Known times to exhaustion of the observations. -/
def knownTimesTo100 (obs : List WireWindow) : Set Int64 :=
  {t | t≠ -1 ∧ ∃ x∈obs, x.timeTo100Ms=t}

/-- A row is the field-wise summary of the observations. -/
structure Faithful (obs : List WireWindow) (w : WireWindow) : Prop where
  /-- The peak is the greatest observed one. -/
  peak : IsGreatest (WireWindow.peakPctX100 '' {x | x∈obs}) w.peakPctX100
  /-- The window has ended when some observation says so. -/
  finalized : w.finalized=true ↔ ∃ x∈obs, x.finalized=true
  /-- The limit was exhausted when some observation says so. -/
  maxedOut : w.maxedOut=true ↔ ∃ x∈obs, x.maxedOut=true
  /-- The way the limit was reached is the greatest observed one. -/
  limitReachedKind : IsGreatest (WireWindow.limitReachedKind '' {x | x∈obs}) w.limitReachedKind
  /-- The number of samples is the greatest observed one. -/
  nSamples : IsGreatest (WireWindow.nSamples '' {x | x∈obs}) w.nSamples
  /-- The sampled share is the greatest observed one. -/
  sampledActiveFraction : IsGreatest (WireWindow.sampledActiveFraction '' {x | x∈obs})
    w.sampledActiveFraction
  /-- The first-seen time is the least positive one, zero if there is none. -/
  firstSeen : IsLeast (knownFirstSeens obs) w.firstSeenMs ∨
    (knownFirstSeens obs=∅ ∧ w.firstSeenMs=0)
  /-- The time to exhaustion is the least known one, minus one if there is none. -/
  timeTo100 : IsLeast (knownTimesTo100 obs) w.timeTo100Ms ∨
    (knownTimesTo100 obs=∅ ∧ w.timeTo100Ms= -1)
  /-- The latest fields are those of one observation of greatest time. -/
  latest : ∃ x∈obs, (∀ y∈obs, y.observedTsMs≤x.observedTsMs) ∧
    (w.observedTsMs,w.rawResetsAtMs,w.lastSampleGapMs,w.lastPctX100,w.windowMinutes,w.plan)=
      (x.observedTsMs,x.rawResetsAtMs,x.lastSampleGapMs,x.lastPctX100,x.windowMinutes,x.plan)
  /-- The active time is within the length and at most an observed one. -/
  active : w.activeMs≤activeCap w.windowMinutes ∧ ∃ x∈obs, w.activeMs≤x.activeMs

/-- The first-seen times determine the summary: one is positive, or the first
merged observation carries zero. -/
def FirstSeenSummable (obs : List WireWindow) : Prop :=
  (∃ x∈obs, 0 < x.firstSeenMs) ∨ (obs.head?).map WireWindow.firstSeenMs=some 0

section

variable {obs : List WireWindow} {w : WireWindow}

/-- The known first-seen times as a set. -/
theorem knownFirstSeens_eq : {t | ∃ x∈obs, knownFirstSeen x=some t}=knownFirstSeens obs := by
  ext t
  simp only [knownFirstSeens,knownFirstSeen,Set.mem_ofPred_eq]
  constructor
  · rintro ⟨x,hx,ht⟩
    split_ifs at ht with hpos
    cases ht
    exact ⟨hpos,x,hx,rfl⟩
  · rintro ⟨hpos,x,hx,rfl⟩
    exact ⟨x,hx,if_pos hpos⟩

/-- The known times to exhaustion as a set. -/
theorem knownTimesTo100_eq : {t | ∃ x∈obs, knownTimeTo100 x=some t}=knownTimesTo100 obs := by
  ext t
  simp only [knownTimesTo100,knownTimeTo100,Set.mem_ofPred_eq]
  constructor
  · rintro ⟨x,hx,ht⟩
    split_ifs at ht with hnone
    cases ht
    exact ⟨hnone,x,hx,rfl⟩
  · rintro ⟨hknown,x,hx,rfl⟩
    exact ⟨x,hx,if_neg hknown⟩

/-- The first-seen time of a merged row is the least positive one. -/
theorem firstSeen_of_known (h : Merged obs w) (hknown : ∃ x∈obs, 0 < x.firstSeenMs) :
    IsLeast (knownFirstSeens obs) w.firstSeenMs := by
  obtain ⟨x,hx,hpos⟩ := hknown
  cases hk : knownFirstSeen w with
  | none =>
    have hnone := h.summary.firstSeen.mp hk x hx
    rw [knownFirstSeen,if_pos hpos] at hnone
    cases hnone
  | some t =>
    have hleast := h.summary.firstSeenLeast t hk
    rw [knownFirstSeens_eq] at hleast
    unfold knownFirstSeen at hk
    split_ifs at hk
    rw [Option.some.inj hk]
    exact hleast

/-- The first-seen time of a merged row is a summary exactly when the
observations determine one. -/
theorem firstSeen_iff (h : Merged obs w) : (IsLeast (knownFirstSeens obs) w.firstSeenMs ∨
    (knownFirstSeens obs=∅ ∧ w.firstSeenMs=0)) ↔ FirstSeenSummable obs := by
  by_cases hknown : ∃ x∈obs, 0 < x.firstSeenMs
  · exact iff_of_true (Or.inl (firstSeen_of_known h hknown)) (Or.inl hknown)
  · have hunknown : ∀ x∈obs, ¬0 < x.firstSeenMs := fun x hx hpos => hknown ⟨x,hx,hpos⟩
    have hempty : knownFirstSeens obs=∅ := by
      apply Set.eq_empty_of_forall_notMem
      rintro t ⟨hpos,x,hx,rfl⟩
      exact hunknown x hx hpos
    have hfirst := h.firstSeen_of_unknown hunknown
    rw [hempty,FirstSeenSummable,hfirst,Option.some.injEq]
    constructor
    · rintro (hleast | ⟨-,hzero⟩)
      · exact absurd hleast.1 (Set.notMem_empty _)
      · exact Or.inr hzero
    · rintro (hpos | hzero)
      · exact absurd hpos hknown
      · exact Or.inr ⟨rfl,hzero⟩

/-- The time to exhaustion of a merged row is the least known one. -/
theorem timeTo100_of_merged (h : Merged obs w) : IsLeast (knownTimesTo100 obs) w.timeTo100Ms ∨
    (knownTimesTo100 obs=∅ ∧ w.timeTo100Ms= -1) := by
  cases hk : knownTimeTo100 w with
  | none =>
    have hall := h.summary.timeTo100.mp hk
    refine Or.inr ⟨?_,?_⟩
    · rw [←knownTimesTo100_eq]
      apply Set.eq_empty_of_forall_notMem
      rintro t ⟨x,hx,ht⟩
      rw [hall x hx] at ht
      cases ht
    · unfold knownTimeTo100 at hk
      split_ifs at hk with hminus
      exact hminus
  | some t =>
    have hleast := h.summary.timeTo100Least t hk
    rw [knownTimesTo100_eq] at hleast
    unfold knownTimeTo100 at hk
    split_ifs at hk
    rw [Option.some.inj hk]
    exact Or.inl hleast

/-- A merged row is faithful exactly when the first-seen times determine a
summary. -/
theorem faithful_iff (h : Merged obs w) (hcap : ∀ x∈obs, x.activeMs≤activeCap x.windowMinutes) :
    Faithful obs w ↔ FirstSeenSummable obs := by
  have s := h.summary
  constructor
  · exact fun hf => (firstSeen_iff h).mp hf.firstSeen
  · intro hsum
    obtain ⟨x,hx,htime,hlatest,hmax⟩ := s.latest
    simp only [latestFields,LatestFields.mk.injEq] at hlatest
    obtain ⟨hraw,hgap,hlast,hminutes,hplan⟩ := hlatest
    exact ⟨s.peak,s.finalized,s.maxedOut,s.limitReachedKind,s.nSamples,s.sampledActiveFraction,
      (firstSeen_iff h).mpr hsum,timeTo100_of_merged h,
      ⟨x,hx,hmax,by rw [htime,hraw,hgap,hlast,hminutes,hplan]⟩,h.active_le_cap hcap,s.active⟩

end

section

variable {bincode : Codec WireWindow}

/-- Upserting the premerged rows of one upload. -/
theorem rowsMerged_upsertWindows {u p : String} {groups : List (List WireWindow)}
    {rows : List WireWindow} (hgroups : List.Forall₂
      (fun group r => Merged group r ∧ ∀ x∈group, x.id=r.id) groups rows)
    (hclean : ∀ x∈groups.flatten, Clean u p x.id) {db : Db} {all : List Accepted}
    (h : RowsMerged bincode db all) (skipped : ℕ) :
    RowsMerged bincode (rows.foldl (upsertWindow bincode u p) (db,skipped)).1
      (all++groups.flatten.map fun w => ⟨u,p,w⟩) := by
  induction hgroups generalizing db all skipped with
  | nil =>
    rw [List.flatten_nil,List.map_nil,List.append_nil]
    exact h
  | @cons group r groups rows hgroup _ ih =>
    rw [List.flatten_cons] at hclean ⊢
    have hr : Clean u p r.id := by
      obtain ⟨x,hx⟩ := List.exists_mem_of_ne_nil group hgroup.1.ne_nil
      rw [←hgroup.2 x hx]
      exact hclean x (List.mem_append_left _ hx)
    have hstep := h.upsertWindow hr hgroup.2 hgroup.1 skipped
    rw [List.foldl_cons,List.map_append,←List.append_assoc]
    exact ih (fun x hx => hclean x (List.mem_append_right _ hx)) hstep _

/-- What holds of the windows in every state of a run. -/
theorem rowsMerged_of_run {history : List WindowUpload} {db : Db}
    (run : Run (WindowStep bincode) emptyDb history db)
    (hd : ∀ upload∈history, NulFree (utf8 upload.userId)) :
    RowsMerged bincode db (accepted history) ∧ ∀ a∈accepted history, Sanitized a.window := by
  refine Run.invariant_of (A:=fun h => ∀ upload∈h, NulFree (utf8 upload.userId)) forall_mem_tail
    (I:=fun h db => RowsMerged bincode db (accepted h) ∧ ∀ a∈accepted h, Sanitized a.window)
    ?_ ?_ hd run
  · refine ⟨⟨fun a ha => absurd ha List.not_mem_nil,fun k v hv => ?_,
      fun a ha => absurd ha List.not_mem_nil⟩,fun a ha => absurd ha List.not_mem_nil⟩
    rw [emptyDb,get_emptyMaps] at hv
    cases hv
  · intro past db upload db' _ hA ih hstep
    obtain ⟨hrows,hsanitized⟩ := ih
    obtain ⟨hprovider,⟨hperm,-⟩,rfl⟩ := hstep
    have hsorted : ∀ w∈upload.sorted, Sanitized w :=
      fun w hw => ⟨upload.items,upload.nowMs,hperm.mem_iff.mp hw⟩
    obtain ⟨groups,hflat,hgroups⟩ := mergeAdjacent_groups upload.sorted
    have hclean : ∀ x∈groups.flatten, Clean upload.userId upload.provider x.id := by
      intro x hx
      rw [hflat] at hx
      exact ⟨hA upload List.mem_cons_self,nulFree_of_providerOk hprovider,(hsorted x hx).nulFree⟩
    have hall := rowsMerged_upsertWindows hgroups hclean hrows 0
    rw [hflat] at hall
    refine ⟨hall,fun a ha => ?_⟩
    rcases List.mem_append.mp ha with ha | ha
    · exact hsanitized a ha
    · obtain ⟨w,hw,rfl⟩ := List.mem_map.mp ha
      exact hsorted w hw

/-- The rows of an identity summarize its accepted observations: there is one
when something was accepted, and every window stored under the user and
provider with that identity is under its row key and faithful. -/
def Summarized (bincode : Codec WireWindow) (db : Db) (obs : List WireWindow)
    (userId provider : String) (id : WindowId) : Prop :=
  (obs≠[] → ∃ v, (db .windows)[windowRowKey userId provider id]?=some v) ∧
  ∀ (k v : Bytes) (w : WireWindow), (db .windows)[k]?=some v → decodeWindow bincode v=some w →
    delimited (utf8 userId)++delimited (utf8 provider)<+:k → w.id=id →
      k=windowRowKey userId provider id ∧ obs≠[] ∧ Faithful obs w

/-- Every stored window row is the summary of the observations accepted for
its identity, exactly when nothing was accepted or one of the accepted
first-seen times is positive or the first merged one is zero. -/
theorem windows_summarized_iff (bincode : Codec WireWindow) {history : List WindowUpload} {db : Db}
    (run : Run (WindowStep bincode) emptyDb history db)
    (hd : ∀ upload∈history, NulFree (utf8 upload.userId)) {userId provider : String}
    (hu : NulFree (utf8 userId)) (hp : NulFree (utf8 provider)) (id : WindowId) :
    Summarized bincode db (observations (accepted history) userId provider id) userId provider id ↔
      observations (accepted history) userId provider id=[] ∨
        FirstSeenSummable (observations (accepted history) userId provider id) := by
  obtain ⟨hrows,hsanitized⟩ := rowsMerged_of_run run hd
  have hcap : ∀ x∈observations (accepted history) userId provider id,
      x.activeMs≤activeCap x.windowMinutes := by
    intro x hx
    exact (hsanitized _ (mem_observations.mp hx).1).active_le_cap
  -- the rows attributed to the identity are the row under its key
  have hattr : ∀ (k v : Bytes) (w : WireWindow), (db .windows)[k]?=some v →
      decodeWindow bincode v=some w → delimited (utf8 userId)++delimited (utf8 provider)<+:k →
      w.id=id → k=windowRowKey userId provider id ∧
        Merged (observations (accepted history) userId provider id) w := by
    intro k v w hv hw hpre hid
    obtain ⟨u,p,x,hc,hk,hvx,hmerged⟩ := hrows.row k v hv
    rw [hvx,decodeWindow_encodeWindow,Option.some.injEq] at hw
    rw [hw] at hk hmerged
    obtain ⟨rest,hrest⟩ := hpre
    rw [hk,windowRowKey,List.append_assoc,delimited_append_inj hu hc.1] at hrest
    obtain ⟨huser,hrest⟩ := hrest
    rw [delimited_append_inj hp hc.2.1] at hrest
    rw [hk,hid,←utf8_injective huser,←utf8_injective hrest.1]
    rw [hid,←utf8_injective huser,←utf8_injective hrest.1] at hmerged
    exact ⟨rfl,hmerged⟩
  by_cases hempty : observations (accepted history) userId provider id=[]
  · refine iff_of_true ⟨fun hne => absurd hempty hne,fun k v w hv hw hpre hid => ?_⟩ (Or.inl hempty)
    exact absurd hempty (hattr k v w hv hw hpre hid).2.ne_nil
  · -- something was accepted, so the row is there
    obtain ⟨x,hx⟩ := List.exists_mem_of_ne_nil _ hempty
    obtain ⟨hxmem,hxid⟩ := mem_observations.mp hx
    obtain ⟨v,hv⟩ := hrows.present _ hxmem
    dsimp only at hv
    rw [hxid] at hv
    constructor
    · rintro ⟨-,hall⟩
      obtain ⟨u,p,w,hc,hk,hvw,hmerged⟩ := hrows.row _ v hv
      have hxclean := hrows.clean _ hxmem
      dsimp only at hxclean
      rw [hxid] at hxclean
      obtain ⟨huser,hprovider,hid⟩ := (windowRowKey_inj hxclean hc).mp hk
      have hw : decodeWindow bincode v=some w := by rw [hvw,decodeWindow_encodeWindow]
      have hpre : delimited (utf8 userId)++delimited (utf8 provider)<+:
          windowRowKey userId provider id := by
        rw [windowRowKey,←List.append_assoc]
        exact List.prefix_append _ _
      obtain ⟨-,-,hfaithful⟩ := hall _ v w hv hw hpre hid.symm
      rw [←huser,←hprovider,←hid] at hmerged
      exact Or.inr ((faithful_iff hmerged hcap).mp hfaithful)
    · rintro (hnil | hsum)
      · exact absurd hnil hempty
      · refine ⟨fun _ => ⟨v,hv⟩,fun k v w hv hw hpre hid => ?_⟩
        obtain ⟨hk,hmerged⟩ := hattr k v w hv hw hpre hid
        exact ⟨hk,hempty,(faithful_iff hmerged hcap).mpr hsum⟩

end

/-- An upload of the given rows at the given clock, sorted as it stands. -/
def sampleUpload (nowMs : Int64) (items : List WireWindow) : WindowUpload where
  userId := "u1"
  provider := "codex"
  items := items
  nowMs := nowMs
  sorted := (sanitizeWindowBatch items nowMs).items

/-- An observation just before the epoch that never knew its first-seen time,
for a server whose clock reads zero. -/
def epochWindow : WireWindow :=
  {sampleWindow (-5) 300 0 with windowEndMs := 1000,rawResetsAtMs := 1000,firstSeenMs := 0}

/-- The state after a sample upload to an empty store. -/
def sampleDb (nowMs : Int64) (items : List WireWindow) : Db :=
  (upsertWindows windowLayout.codec emptyDb "u1" "codex"
    (mergeAdjacent (sampleUpload nowMs items).sorted)).1

/-- The run of one sample upload of one row. -/
theorem run_sampleUpload {nowMs : Int64} {w x : WireWindow}
    (hone : (sanitizeWindowBatch [w] nowMs).items=[x]) :
    Run (WindowStep windowLayout.codec) emptyDb [sampleUpload nowMs [w]] (sampleDb nowMs [w]) := by
  have hsorted : SortedFrom (sanitizeWindowBatch [w] nowMs).items (sampleUpload nowMs [w]).sorted := by
    refine ⟨.refl _,?_⟩
    rw [sampleUpload,hone]
    exact List.pairwise_singleton _ _
  have hprovider : providerOk "codex"=true := by decide
  exact .next _ .start ⟨hprovider,hsorted,rfl⟩

/-- Two observations of a window that are uploaded together, and a later one. -/
def sampleUploads : List WindowUpload :=
  [sampleUpload 1759998000000 [laterWindow],
    sampleUpload 1759996000000
      [sampleWindow 1759995000000 300 6000000,sampleWindow 1759994000000 300 5000000]]

/-- Three observations from two uploads are summarized by one row. -/
theorem windows_summarized_sample : ∃ db,
    Run (WindowStep windowLayout.codec) emptyDb sampleUploads db ∧
    Summarized windowLayout.codec db [sampleWindow 1759995000000 300 6000000,
      sampleWindow 1759994000000 300 5000000,laterWindow] "u1" "codex" laterWindow.id := by
  have hprovider : providerOk "codex"=true := by decide
  have run : Run (WindowStep windowLayout.codec) emptyDb [] emptyDb := .start
  have run := run.next (sampleUpload 1759996000000
      [sampleWindow 1759995000000 300 6000000,sampleWindow 1759994000000 300 5000000])
    ⟨hprovider,⟨.refl _,List.pairwise_pair.mpr le_rfl⟩,rfl⟩
  have run := run.next (sampleUpload 1759998000000 [laterWindow])
    ⟨hprovider,⟨.refl _,List.pairwise_singleton _ _⟩,rfl⟩
  have hu : NulFree (utf8 "u1") := by decide
  have hp : NulFree (utf8 "codex") := by decide
  have h := (windows_summarized_iff windowLayout.codec run (by decide) hu hp laterWindow.id).mpr
    (Or.inr (Or.inl ⟨_,List.mem_cons_self,by decide⟩))
  exact ⟨_,run,h⟩

/-- A sample upload of one row to an empty store writes the row. -/
theorem get_sampleDb {nowMs : Int64} {w x : WireWindow}
    (hone : (sanitizeWindowBatch [w] nowMs).items=[x]) :
    (sampleDb nowMs [w] .windows)[windowRowKey "u1" "codex" x.id]?=
      some (encodeWindow windowLayout.codec x) := by
  have hnone : (emptyDb .windows)[windowRowKey "u1" "codex" x.id]?=none := by
    rw [emptyDb,get_emptyMaps]
  have hmerged : mergeAdjacent (sampleUpload nowMs [w]).sorted=[x] := by
    rw [sampleUpload,hone]
    rfl
  rw [sampleDb,hmerged,upsertWindows,List.foldl_cons,List.foldl_nil,upsertWindow]
  dsimp only
  rw [hnone]
  dsimp only
  rw [get_applyOp]
  simp only [BatchOp.cell,BatchOp.content,if_true]

/-- An observation from before the epoch leaves its negative time as the
first-seen time. -/
theorem epochWindow_unsummarized :
    Run (WindowStep windowLayout.codec) emptyDb [sampleUpload 0 [epochWindow]]
      (sampleDb 0 [epochWindow]) ∧
    observations (accepted [sampleUpload 0 [epochWindow]]) "u1" "codex" epochWindow.id=
      [{epochWindow with firstSeenMs := -5}] ∧
    ¬Summarized windowLayout.codec (sampleDb 0 [epochWindow])
      [{epochWindow with firstSeenMs := -5}] "u1" "codex" epochWindow.id := by
  have hone : (sanitizeWindowBatch [epochWindow] 0).items=[{epochWindow with firstSeenMs := -5}] := rfl
  refine ⟨run_sampleUpload hone,rfl,fun h => ?_⟩
  have hprefix : delimited (utf8 "u1")++delimited (utf8 "codex")<+:
      windowRowKey "u1" "codex" epochWindow.id := by
    rw [windowRowKey,←List.append_assoc]
    exact List.prefix_append _ _
  obtain ⟨-,-,hfaithful⟩ := h.2 _ _ _ (get_sampleDb hone) (decodeWindow_encodeWindow _) hprefix rfl
  -- the stored time is neither a positive observed one nor zero
  rcases hfaithful.firstSeen with hleast | ⟨-,hzero⟩
  · have hpos : (0 : Int64) < -5 := hleast.1.1
    exact absurd hpos (by decide)
  · have hminus : (-5 : Int64)=0 := hzero
    exact absurd hminus (by decide)

end TokiSync.WindowSummaries
