import TokiSync.FjallStore
import TokiSync.Runs
import TokiSync.WindowMerge

/-!
# Window rows of the embedded store

A window row sits under the delimited user, provider, limit and account,
followed by kind and anchor; its value is a version byte and the serialized
window. An upload is sanitized, sorted, premerged and upserted row by row,
merging into what is stored. In every state reached from an empty store the
row of an identity is merged from the accepted observations of that identity,
so its fields summarize them.
-/

namespace TokiSync.WindowStore

open MachineWords ByteKeys ByteCodec BatchedMaps FieldwiseMerge WireWindows WindowMerge FjallStore
open Runs

/-- The fixed-width little-endian record layout of windows. -/
def windowLayout : Layout WireWindow :=
  (u8Layout.pair (textLayout.pair (textLayout.pair (i64Layout.pair (i64Layout.pair (u32Layout.pair
    (u16Layout.pair (u16Layout.pair (i64Layout.pair (i64Layout.pair (boolLayout.pair
      (boolLayout.pair (u8Layout.pair (i64Layout.pair (u64Layout.pair (i64Layout.pair
        (u16Layout.pair (u32Layout.pair textLayout)))))))))))))))))).equiv
    { toFun := fun w => (w.windowKind,w.limitId,w.account,w.windowEndMs,w.rawResetsAtMs,
        w.windowMinutes,w.peakPctX100,w.lastPctX100,w.observedTsMs,w.firstSeenMs,w.finalized,
        w.maxedOut,w.limitReachedKind,w.timeTo100Ms,w.activeMs,w.lastSampleGapMs,
        w.sampledActiveFraction,w.nSamples,w.plan)
      invFun := fun (windowKind,limitId,account,windowEndMs,rawResetsAtMs,windowMinutes,peakPctX100,
          lastPctX100,observedTsMs,firstSeenMs,finalized,maxedOut,limitReachedKind,timeTo100Ms,
          activeMs,lastSampleGapMs,sampledActiveFraction,nSamples,plan) =>
        ⟨windowKind,limitId,account,windowEndMs,rawResetsAtMs,windowMinutes,peakPctX100,
          lastPctX100,observedTsMs,firstSeenMs,finalized,maxedOut,limitReachedKind,timeTo100Ms,
          activeMs,lastSampleGapMs,sampledActiveFraction,nSamples,plan⟩
      left_inv := fun _ => rfl
      right_inv := fun _ => rfl }

/-- Version written at the head of a window value. -/
def windowValueVersion : UInt8 := 1

/-- Row key of a window identity of a user and provider. -/
def windowRowKey (userId provider : String) (id : WindowId) : Bytes :=
  delimited (utf8 userId)++(delimited (utf8 provider)++(delimited (utf8 id.limitId)++
    (delimited (utf8 id.account)++(id.windowKind::toBeBytes id.windowEndMs))))

/-- What a stored window value is. -/
inductive WindowDecode where
  /-- A window of a known version. -/
  | valid (w : WireWindow)
  /-- A version written by a newer program. -/
  | futureVersion
  /-- Bytes that are no window. -/
  | corrupt

section

variable (bincode : Codec WireWindow)

/-- Value of a window: the version, then the window. -/
def encodeWindow (w : WireWindow) : Bytes := windowValueVersion::bincode.serialize w

/-- Read a stored window value. -/
def decodeWindowVersioned : Bytes → WindowDecode
  | [] => .corrupt
  | version::body =>
    if version>windowValueVersion then .futureVersion
    else match bincode.deserialize body with
      | some w => .valid w
      | none => .corrupt

/-- Window of a stored value, when it is one. -/
def decodeWindow (bytes : Bytes) : Option WireWindow :=
  match decodeWindowVersioned bincode bytes with
  | .valid w => some w
  | _ => none

/-- Merge one window into its stored row. The count grows when the row must be
preserved because a newer program wrote it. -/
def upsertWindow (userId provider : String) (acc : Db×ℕ) (w : WireWindow) : Db×ℕ :=
  let key := windowRowKey userId provider w.id
  match (acc.1 .windows)[key]? with
  | some prevBytes =>
    match decodeWindowVersioned bincode prevBytes with
    | .valid prev =>
      if mergeWireWindows prev w=prev then acc
      else (applyOp acc.1 (.insert .windows key (encodeWindow bincode (mergeWireWindows prev w))),
        acc.2)
    | .futureVersion => (acc.1,acc.2+1)
    | .corrupt => (applyOp acc.1 (.insert .windows key (encodeWindow bincode w)),acc.2)
  | none => (applyOp acc.1 (.insert .windows key (encodeWindow bincode w)),acc.2)

/-- Merge windows into their stored rows; the count is of rows not stored. -/
def upsertWindows (db : Db) (userId provider : String) (items : List WireWindow) : Db×ℕ :=
  items.foldl (upsertWindow bincode userId provider) (db,0)

end

/-- Provider names the handler admits: short, lowercase letters and
underscores. -/
def providerOk (provider : String) : Bool :=
  provider≠"" && (utf8 provider).length ≤ 32 &&
    provider.toList.all fun c => (97 ≤ c.toNat && c.toNat ≤ 122) || c = '_'

/-- One upload of windows, with the outcome of its sort. -/
structure WindowUpload where
  /-- User of the connection. -/
  userId : String
  /-- Provider named by the payload. -/
  provider : String
  /-- Uploaded rows. -/
  items : List WireWindow
  /-- Server clock. -/
  nowMs : Int64
  /-- Sanitized rows as the sort left them. -/
  sorted : List WireWindow

/-- One accepted upload: sanitize, sort, premerge, upsert. -/
def WindowStep (bincode : Codec WireWindow) (db : Db) (upload : WindowUpload) (db' : Db) : Prop :=
  providerOk upload.provider=true ∧
  SortedFrom (sanitizeWindowBatch upload.items upload.nowMs).items upload.sorted ∧
  db'=(upsertWindows bincode db upload.userId upload.provider (mergeAdjacent upload.sorted)).1

/-- An observation with the user and provider it was accepted for. -/
structure Accepted where
  /-- User of the upload. -/
  userId : String
  /-- Provider of the upload. -/
  provider : String
  /-- The sanitized row. -/
  window : WireWindow

/-- Accepted observations of a history, in the order they were merged. -/
def accepted : List WindowUpload → List Accepted
  | [] => []
  | upload::past =>
    accepted past++upload.sorted.map fun w => ⟨upload.userId,upload.provider,w⟩

/-- Observations of one identity. -/
def observations (all : List Accepted) (userId provider : String) (id : WindowId) :
    List WireWindow :=
  (all.filter fun a => a.userId=userId ∧ a.provider=provider ∧ a.window.id=id).map Accepted.window

/-- Ids and texts that contain no key delimiter. -/
def Clean (userId provider : String) (id : WindowId) : Prop :=
  NulFree (utf8 userId) ∧ NulFree (utf8 provider) ∧ NulFree (utf8 id.limitId) ∧
    NulFree (utf8 id.account)

/-- Row keys separate users, providers and identities. -/
theorem windowRowKey_inj {u v p q : String} {i j : WindowId} (hi : Clean u p i) (hj : Clean v q j) :
    windowRowKey u p i=windowRowKey v q j ↔ u=v ∧ p=q ∧ i=j := by
  constructor
  · intro h
    obtain ⟨hu,h⟩ := (delimited_append_inj hi.1 hj.1).mp h
    obtain ⟨hp,h⟩ := (delimited_append_inj hi.2.1 hj.2.1).mp h
    obtain ⟨hl,h⟩ := (delimited_append_inj hi.2.2.1 hj.2.2.1).mp h
    obtain ⟨ha,h⟩ := (delimited_append_inj hi.2.2.2 hj.2.2.2).mp h
    rw [List.cons.injEq] at h
    refine ⟨utf8_injective hu,utf8_injective hp,?_⟩
    obtain ⟨kind,limit,account,anchor⟩ := i
    obtain ⟨kind',limit',account',anchor'⟩ := j
    rw [WindowId.mk.injEq]
    exact ⟨h.1,utf8_injective hl,utf8_injective ha,toBeBytes_injective h.2⟩
  · rintro ⟨rfl,rfl,rfl⟩
    rfl

/-- Admitted provider names contain no key delimiter. -/
theorem nulFree_of_providerOk {provider : String} (h : providerOk provider=true) :
    NulFree (utf8 provider) := by
  rw [providerOk,Bool.and_eq_true,List.all_eq_true] at h
  refine nulFree_utf8 fun c hc hzero => ?_
  have hlower := h.2 c hc
  rw [hzero,Bool.or_eq_true,decide_eq_true_eq] at hlower
  rcases hlower with hfalse | hunder
  · cases hfalse
  · rw [hunder] at hzero
    cases hzero

/-- Adjacent merging cuts the sorted rows into groups of one identity and
merges each of them. -/
theorem mergeAdjacent_groups (sorted : List WireWindow) :
    ∃ groups : List (List WireWindow), groups.flatten=sorted ∧
      List.Forall₂ (fun group r => Merged group r ∧ ∀ x∈group, x.id=r.id) groups
        (mergeAdjacent sorted) := by
  have hloop : ∀ (rest group : List WireWindow) (prev : WireWindow), Merged group prev →
      (∀ x∈group, x.id=prev.id) → ∃ groups : List (List WireWindow),
        groups.flatten=group++rest ∧
        List.Forall₂ (fun group r => Merged group r ∧ ∀ x∈group, x.id=r.id) groups
          (premergeLoop prev rest) := by
    intro rest
    induction rest with
    | nil =>
      intro group prev hmerged hid
      refine ⟨[group],?_,.cons ⟨hmerged,hid⟩ .nil⟩
      rw [List.flatten_cons,List.flatten_nil]
    | cons w rest ih =>
      intro group prev hmerged hid
      rw [premergeLoop]
      split_ifs with hw
      · have hgroup : ∀ x∈group++[w], x.id=(mergeWireWindows prev w).id := by
          intro x hx
          rw [id_merge]
          rcases List.mem_append.mp hx with hx | hx
          · exact hid x hx
          · rw [List.mem_singleton.mp hx,hw]
        obtain ⟨groups,hflat,hgroups⟩ := ih (group++[w]) _ (hmerged.node (.single w)) hgroup
        refine ⟨groups,?_,hgroups⟩
        rw [hflat,List.append_assoc,List.singleton_append]
      · have hsingle : ∀ x∈[w], x.id=w.id := by
          intro x hx
          rw [List.mem_singleton.mp hx]
        obtain ⟨groups,hflat,hgroups⟩ := ih [w] w (.single w) hsingle
        refine ⟨group::groups,?_,.cons ⟨hmerged,hid⟩ hgroups⟩
        rw [List.flatten_cons,hflat,List.singleton_append]
  cases sorted with
  | nil => exact ⟨[],rfl,.nil⟩
  | cons w rest =>
    refine hloop rest [w] w (.single w) fun x hx => ?_
    rw [List.mem_singleton.mp hx]

/-- The stored rows are merged from the accepted observations, identity by
identity. -/
structure RowsMerged (bincode : Codec WireWindow) (db : Db) (all : List Accepted) : Prop where
  /-- Accepted observations have delimiter-free keys. -/
  clean : ∀ a∈all, Clean a.userId a.provider a.window.id
  /-- A row sits under the key of its identity and is merged from the accepted
  observations of that identity. -/
  row : ∀ k v : Bytes, (db .windows)[k]?=some v → ∃ u p w, Clean u p w.id ∧
    k=windowRowKey u p w.id ∧ v=encodeWindow bincode w ∧ Merged (observations all u p w.id) w
  /-- Every accepted observation has a row. -/
  present : ∀ a∈all, ∃ v, (db .windows)[windowRowKey a.userId a.provider a.window.id]?=some v

section

variable {bincode : Codec WireWindow}

/-- Stored windows are read back. -/
@[simp] theorem decodeWindowVersioned_encodeWindow (w : WireWindow) :
    decodeWindowVersioned bincode (encodeWindow bincode w)=.valid w := by
  rw [encodeWindow,decodeWindowVersioned,if_neg (by decide),bincode.deserialize_serialize]

@[simp] theorem decodeWindow_encodeWindow (w : WireWindow) :
    decodeWindow bincode (encodeWindow bincode w)=some w := by
  rw [decodeWindow,decodeWindowVersioned_encodeWindow]

/-- More observations of one identity. -/
theorem observations_append_self (all : List Accepted) (u p : String) {i : WindowId}
    {group : List WireWindow} (hid : ∀ x∈group, x.id=i) :
    observations (all++group.map fun w => ⟨u,p,w⟩) u p i=observations all u p i++group := by
  have hall : ((group.map fun w => (⟨u,p,w⟩ : Accepted)).filter fun a =>
      a.userId=u ∧ a.provider=p ∧ a.window.id=i)=group.map fun w => ⟨u,p,w⟩ := by
    refine List.filter_eq_self.mpr fun a ha => ?_
    obtain ⟨w,hw,rfl⟩ := List.mem_map.mp ha
    exact decide_eq_true ⟨rfl,rfl,hid w hw⟩
  rw [observations,List.filter_append,hall,List.map_append,List.map_map]
  congr 1
  exact List.map_id group

/-- Observations of one identity are none of another. -/
theorem observations_append_of_ne (all : List Accepted) {u p v q : String} {i j : WindowId}
    {group : List WireWindow} (hid : ∀ x∈group, x.id=i) (hne : ¬(v=u ∧ q=p ∧ j=i)) :
    observations (all++group.map fun w => ⟨u,p,w⟩) v q j=observations all v q j := by
  have hnone : ((group.map fun w => (⟨u,p,w⟩ : Accepted)).filter fun a =>
      a.userId=v ∧ a.provider=q ∧ a.window.id=j)=[] := by
    refine List.filter_eq_nil_iff.mpr fun a ha hmatch => ?_
    obtain ⟨w,hw,rfl⟩ := List.mem_map.mp ha
    obtain ⟨hu,hp,hj⟩ := of_decide_eq_true hmatch
    exact hne ⟨hu.symm,hp.symm,hj.symm.trans (hid w hw)⟩
  rw [observations,List.filter_append,hnone,List.append_nil]
  rfl

/-- Membership among the observations of an identity. -/
theorem mem_observations {all : List Accepted} {u p : String} {i : WindowId} {w : WireWindow} :
    w∈observations all u p i ↔ (⟨u,p,w⟩ : Accepted)∈all ∧ w.id=i := by
  simp only [observations,List.mem_map,List.mem_filter,decide_eq_true_eq]
  constructor
  · rintro ⟨a,⟨ha,rfl,rfl,rfl⟩,rfl⟩
    exact ⟨ha,rfl⟩
  · rintro ⟨ha,hw⟩
    exact ⟨_,⟨ha,rfl,rfl,hw⟩,rfl⟩

/-- Writing the merged row of a group. -/
theorem RowsMerged.put {db : Db} {all : List Accepted} (h : RowsMerged bincode db all)
    {u p : String} {r : WireWindow} {group : List WireWindow} (hclean : Clean u p r.id)
    (hid : ∀ x∈group, x.id=r.id) (hmerged : Merged (observations all u p r.id++group) r) :
    RowsMerged bincode (applyOp db (.insert .windows (windowRowKey u p r.id)
      (encodeWindow bincode r))) (all++group.map fun w => ⟨u,p,w⟩) := by
  have hget : ∀ k : Bytes, (applyOp db (.insert .windows (windowRowKey u p r.id)
      (encodeWindow bincode r)) .windows)[k]?=
        if k=windowRowKey u p r.id then some (encodeWindow bincode r) else (db .windows)[k]? := by
    intro k
    rw [get_applyOp]
    simp only [BatchOp.cell,BatchOp.content,Prod.mk.injEq,true_and]
  refine ⟨?_,?_,?_⟩
  · intro a ha
    rcases List.mem_append.mp ha with ha | ha
    · exact h.clean a ha
    · obtain ⟨w,hw,rfl⟩ := List.mem_map.mp ha
      dsimp only
      rw [hid w hw]
      exact hclean
  · intro k v hv
    rw [hget] at hv
    split_ifs at hv with hk
    · refine ⟨u,p,r,hclean,hk,(Option.some.inj hv).symm,?_⟩
      rw [observations_append_self all u p hid]
      exact hmerged
    · obtain ⟨v',q,w,hc,hkw,hvw,hm⟩ := h.row k v hv
      refine ⟨v',q,w,hc,hkw,hvw,?_⟩
      rw [observations_append_of_ne all hid]
      · exact hm
      · rintro ⟨hu,hp,hi⟩
        exact hk (by rw [hkw,hu,hp,hi])
  · intro a ha
    rw [hget]
    split_ifs with hk
    · exact ⟨_,rfl⟩
    · rcases List.mem_append.mp ha with ha | ha
      · exact h.present a ha
      · obtain ⟨w,hw,rfl⟩ := List.mem_map.mp ha
        dsimp only at hk
        rw [hid w hw] at hk
        exact absurd rfl hk

/-- Upserting the row of a group merges the group into the stored row. -/
theorem RowsMerged.upsertWindow {db : Db} {all : List Accepted} (h : RowsMerged bincode db all)
    {u p : String} {r : WireWindow} {group : List WireWindow} (hclean : Clean u p r.id)
    (hid : ∀ x∈group, x.id=r.id) (hmerged : Merged group r) (skipped : ℕ) :
    RowsMerged bincode (WindowStore.upsertWindow bincode u p (db,skipped) r).1
      (all++group.map fun w => ⟨u,p,w⟩) := by
  unfold WindowStore.upsertWindow
  dsimp only
  cases hrow : (db .windows)[windowRowKey u p r.id]? with
  | none =>
    have hnone : observations all u p r.id=[] := by
      refine List.eq_nil_iff_forall_not_mem.mpr fun w hw => ?_
      obtain ⟨hmem,hwid⟩ := mem_observations.mp hw
      obtain ⟨v,hv⟩ := h.present _ hmem
      dsimp only at hv
      rw [hwid,hrow] at hv
      cases hv
    refine h.put hclean hid ?_
    rw [hnone,List.nil_append]
    exact hmerged
  | some v =>
    obtain ⟨u',p',prev,hc,hk,hv,hprev⟩ := h.row _ _ hrow
    obtain ⟨hu,hp,hi⟩ := (windowRowKey_inj hclean hc).mp hk
    rw [←hu,←hp,←hi] at hprev
    have hnode : Merged (observations all u p r.id++group) (mergeWireWindows prev r) :=
      hprev.node hmerged
    have hmid : (mergeWireWindows prev r).id=r.id := by rw [id_merge,hi]
    have hput : RowsMerged bincode (applyOp db (.insert .windows (windowRowKey u p r.id)
        (encodeWindow bincode (mergeWireWindows prev r)))) (all++group.map fun w => ⟨u,p,w⟩) := by
      rw [←hmid] at hclean hid hnode ⊢
      exact h.put hclean hid hnode
    dsimp only
    rw [hv,decodeWindowVersioned_encodeWindow]
    dsimp only
    split_ifs with hsame
    · -- the merge changed nothing, so writing it back would not either
      have hback : applyOp db (.insert .windows (windowRowKey u p r.id)
          (encodeWindow bincode (mergeWireWindows prev r)))=db := by
        apply maps_ext
        intro name k
        rw [get_applyOp]
        split_ifs with hcell
        · simp only [BatchOp.cell,Prod.mk.injEq] at hcell
          rw [hcell.1,hcell.2,hrow,hsame,hv]
          rfl
        · rfl
      rw [hback] at hput
      exact hput
    · exact hput

end

end TokiSync.WindowStore
