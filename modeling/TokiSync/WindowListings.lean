import TokiSync.WindowAcks
import TokiSync.WindowQueries

/-!
# A windows query is a filter of the stored rows

Uploads write a row only under the key of its identity, and cleaning up only
removes rows, so every row can be told from its key: user, provider, identity
and anchor. A query that reads provider and anchor from the bytes of the key
therefore lists what decoding every row of the user and filtering would list.
-/

namespace TokiSync.WindowListings

open MachineWords ByteKeys ByteCodec BatchedMaps FieldwiseMerge WireWindows WindowMerge FjallStore
open WindowStore WindowQueries WindowAcks Runs

/-- Operations on the windows of an embedded store. -/
inductive WindowsOp where
  /-- A windows request of a user, how the upsert ended and the answer. -/
  | upload (userId : String) (req : WindowsRequest) (upserted : Option (Except String ℕ))
      (reply : WindowsReply)
  /-- The whole sweep of old windows. -/
  | cleanup (cutoffMs : Int64)
  /-- One batch of a sweep, removed some time after it was collected. -/
  | sweep (cutoffMs : Int64) (entries : List (Bytes×Bytes))

section

variable (windowsSchemaVersion : ℕ) (debug : String → String) (bincode : Codec WireWindow)

/-- What an operation does. -/
def WindowsStep (db : Db) (op : WindowsOp) (db' : Db) : Prop :=
  match op with
  | .upload userId req upserted reply =>
    SyncWindows windowsSchemaVersion debug bincode db userId req upserted reply db'
  | .cleanup cutoffMs => db'=cleanupOldWindows db cutoffMs
  | .sweep cutoffMs entries =>
    (∀ kv∈entries, isStale cutoffMs kv.1=true) ∧ db'=removeWindows db entries

/-- A sanitized row of an admitted upload of a user and provider. -/
def UploadedRow (history : List WindowsOp) (userId provider : String) (x : WireWindow) : Prop :=
  ∃ req upserted reply win, WindowsOp.upload userId req upserted reply∈history ∧
    admitWindows windowsSchemaVersion debug req=.ok win ∧ win.provider=provider ∧
    x∈(sanitizeWindowBatch win.items req.nowMs).items

/-- A row merged from rows of its identity that were uploaded for the user and
provider. -/
def FromUploads (history : List WindowsOp) (userId provider : String) (w : WireWindow) : Prop :=
  ∃ xs, Merged xs w ∧ ∀ x∈xs, x.id=w.id ∧
    UploadedRow windowsSchemaVersion debug history userId provider x

end

/-- Uploads come from users whose ids contain no key delimiter. -/
def UserIdsOk (history : List WindowsOp) : Prop :=
  ∀ op∈history, ∀ userId req upserted reply, op=.upload userId req upserted reply →
    NulFree (utf8 userId)

section

variable {windowsSchemaVersion : ℕ} {debug : String → String} {bincode : Codec WireWindow}
variable {history : List WindowsOp} {db db' : Db} {userId provider : String} {w : WireWindow}

/-- A payload that passes its checks names an admitted provider. -/
theorem providerOk_of_checkWindows {req : WindowsRequest} {payload win : SyncWindowsPayload}
    (h : checkWindows windowsSchemaVersion debug req payload=.ok win) :
    providerOk win.provider=true := by
  unfold checkWindows at h
  split_ifs at h with _ hprovider
  cases h
  rw [Bool.not_eq_false] at hprovider
  exact hprovider

/-- Admitted payloads name an admitted provider. -/
theorem providerOk_of_admitWindows {req : WindowsRequest} {win : SyncWindowsPayload}
    (h : admitWindows windowsSchemaVersion debug req=.ok win) : providerOk win.provider=true := by
  unfold admitWindows at h
  split at h
  · cases h
  · cases h
  · split_ifs at h
    split at h
    · cases h
    · exact providerOk_of_checkWindows h

/-- Keys of uploaded rows contain no delimiter in their components. -/
theorem UploadedRow.clean {x : WireWindow} (hids : UserIdsOk history)
    (h : UploadedRow windowsSchemaVersion debug history userId provider x) :
    Clean userId provider x.id := by
  obtain ⟨req,upserted,reply,win,hop,hadmitted,rfl,hx⟩ := h
  have hsanitized : Sanitized x := ⟨_,_,hx⟩
  obtain ⟨hlimit,haccount⟩ := hsanitized.nulFree
  exact ⟨hids _ hop _ _ _ _ rfl,nulFree_of_providerOk (providerOk_of_admitWindows hadmitted),hlimit,
    haccount⟩

theorem FromUploads.clean (hids : UserIdsOk history)
    (h : FromUploads windowsSchemaVersion debug history userId provider w) :
    Clean userId provider w.id := by
  obtain ⟨xs,hmerged,hxs⟩ := h
  obtain ⟨x,hx⟩ := List.exists_mem_of_ne_nil xs hmerged.ne_nil
  obtain ⟨hid,huploaded⟩ := hxs x hx
  rw [←hid]
  exact huploaded.clean hids

/-- Merging rows of one identity. -/
theorem FromUploads.merge {prev : WireWindow}
    (hprev : FromUploads windowsSchemaVersion debug history userId provider prev)
    (hw : FromUploads windowsSchemaVersion debug history userId provider w) (hid : prev.id=w.id) :
    FromUploads windowsSchemaVersion debug history userId provider (mergeWireWindows prev w) := by
  obtain ⟨xs,hxs,hprev⟩ := hprev
  obtain ⟨ys,hys,hw⟩ := hw
  refine ⟨xs++ys,hxs.node hys,fun x hx => ?_⟩
  rw [id_merge]
  rcases List.mem_append.mp hx with hx | hx
  · exact hprev x hx
  · rw [hid]
    exact hw x hx

/-- What was uploaded stays uploaded. -/
theorem FromUploads.cons (op : WindowsOp)
    (h : FromUploads windowsSchemaVersion debug history userId provider w) :
    FromUploads windowsSchemaVersion debug (op::history) userId provider w := by
  obtain ⟨xs,hmerged,hxs⟩ := h
  refine ⟨xs,hmerged,fun x hx => ?_⟩
  obtain ⟨hid,req,upserted,reply,win,hop,hrest⟩ := hxs x hx
  exact ⟨hid,req,upserted,reply,win,List.mem_cons_of_mem _ hop,hrest⟩

/-- Premerged rows are merged from rows of the upload. -/
theorem fromUploads_of_premerged {req : WindowsRequest} {upserted : Option (Except String ℕ)}
    {reply : WindowsReply} {win : SyncWindowsPayload} {items : List WireWindow}
    (hop : WindowsOp.upload userId req upserted reply∈history)
    (hadmitted : admitWindows windowsSchemaVersion debug req=.ok win)
    (h : PremergeWindows (sanitizeWindowBatch win.items req.nowMs).items items) :
    ∀ r∈items, FromUploads windowsSchemaVersion debug history userId win.provider r := by
  obtain ⟨sorted,⟨hperm,-⟩,rfl⟩ := h
  obtain ⟨groups,hflat,hgroups⟩ := mergeAdjacent_groups sorted
  intro r hr
  obtain ⟨hlength,hpairs⟩ := List.forall₂_iff_get.mp hgroups
  obtain ⟨i,hi,rfl⟩ := List.mem_iff_getElem.mp hr
  obtain ⟨hmerged,hid⟩ := hpairs i (hlength.symm ▸ hi) hi
  refine ⟨_,hmerged,fun x hx => ⟨hid x hx,req,upserted,reply,win,hop,hadmitted,rfl,?_⟩⟩
  rw [←hperm.mem_iff,←hflat]
  exact List.mem_flatten_of_mem (List.get_mem _ _) hx

/-- Removing rows leaves every row under its key. -/
theorem RowsKeyed.of_subset {P : String → String → WireWindow → Prop} (h : RowsKeyed bincode P db)
    (hsub : ∀ k v : Bytes, (db' .windows)[k]?=some v → (db .windows)[k]?=some v) :
    RowsKeyed bincode P db' :=
  fun k v hv => h k v (hsub k v hv)

/-- Writing a row under its key. -/
theorem RowsKeyed.put {P : String → String → WireWindow → Prop} (h : RowsKeyed bincode P db)
    (hclean : Clean userId provider w.id) (hw : P userId provider w) :
    RowsKeyed bincode P (applyOp db (.insert .windows (windowRowKey userId provider w.id)
      (encodeWindow bincode w))) := by
  intro k v hv
  rw [get_written] at hv
  split_ifs at hv with hk
  · exact ⟨userId,provider,w,hclean,hw,hk,(Option.some.inj hv).symm⟩
  · exact h k v hv

/-- Upserting a window leaves every row under its key. -/
theorem RowsKeyed.upsertWindow (hids : UserIdsOk history) {skipped : ℕ}
    (h : RowsKeyed bincode (FromUploads windowsSchemaVersion debug history) db)
    (hw : FromUploads windowsSchemaVersion debug history userId provider w) :
    RowsKeyed bincode (FromUploads windowsSchemaVersion debug history)
      (WindowStore.upsertWindow bincode userId provider (db,skipped) w).1 := by
  have hclean := hw.clean hids
  unfold WindowStore.upsertWindow
  dsimp only
  cases hrow : (db .windows)[windowRowKey userId provider w.id]? with
  | none => exact RowsKeyed.put h hclean hw
  | some v =>
    obtain ⟨user,name,prev,hprevClean,hprev,hk,rfl⟩ := h _ _ hrow
    obtain ⟨rfl,rfl,hid⟩ := (windowRowKey_inj hclean hprevClean).mp hk
    have hmerged := hprev.merge hw hid.symm
    have hkept : (mergeWireWindows prev w).id=w.id := by rw [id_merge,hid]
    dsimp only
    rw [decodeWindowVersioned_encodeWindow]
    dsimp only
    split_ifs
    · exact h
    · rw [←hkept] at hclean ⊢
      exact RowsKeyed.put h hclean hmerged

/-- Upserting windows leaves every row under its key. -/
theorem RowsKeyed.upsertWindows (hids : UserIdsOk history) {items : List WireWindow}
    (h : RowsKeyed bincode (FromUploads windowsSchemaVersion debug history) db)
    (hitems : ∀ r∈items, FromUploads windowsSchemaVersion debug history userId provider r) :
    RowsKeyed bincode (FromUploads windowsSchemaVersion debug history)
      (WindowStore.upsertWindows bincode db userId provider items).1 := by
  have hfold : ∀ acc : Db×ℕ,
      RowsKeyed bincode (FromUploads windowsSchemaVersion debug history) acc.1 →
      RowsKeyed bincode (FromUploads windowsSchemaVersion debug history)
        (items.foldl (WindowStore.upsertWindow bincode userId provider) acc).1 := by
    induction items with
    | nil => exact fun _ hacc => hacc
    | cons r items ih =>
      intro acc hacc
      rw [List.foldl_cons]
      refine ih (fun x hx => hitems x (List.mem_cons_of_mem r hx)) _ ?_
      exact RowsKeyed.upsertWindow hids hacc (hitems r List.mem_cons_self)
  exact hfold (db,0) h

/-- Every operation leaves every row under its key. -/
theorem RowsKeyed.step {op : WindowsOp} (hids : UserIdsOk (op::history))
    (h : RowsKeyed bincode (FromUploads windowsSchemaVersion debug history) db)
    (taken : WindowsStep windowsSchemaVersion debug bincode db op db') :
    RowsKeyed bincode (FromUploads windowsSchemaVersion debug (op::history)) db' := by
  have hcons : RowsKeyed bincode (FromUploads windowsSchemaVersion debug (op::history)) db := by
    intro k v hv
    obtain ⟨u,p,x,hclean,hx,hk,hv⟩ := h k v hv
    exact ⟨u,p,x,hclean,hx.cons op,hk,hv⟩
  cases op with
  | upload userId req upserted reply =>
    simp only [WindowsStep,SyncWindows] at taken
    cases hadmitted : admitWindows windowsSchemaVersion debug req with
    | error refusal =>
      rw [hadmitted] at taken
      obtain ⟨-,-,rfl⟩ := taken
      exact hcons
    | ok win =>
      rw [hadmitted] at taken
      obtain ⟨items,result,hpremerged,hup,-,-⟩ := taken
      have hop : WindowsOp.upload userId req upserted reply∈
          .upload userId req upserted reply::history := List.mem_cons_self
      have hitems := fromUploads_of_premerged hop hadmitted hpremerged
      cases result with
      | ok skipped =>
        have hup : WindowStore.upsertWindows bincode db userId win.provider items=(db',skipped) := hup
        have hall := RowsKeyed.upsertWindows hids hcons hitems
        rw [hup] at hall
        exact hall
      | error reason =>
        obtain ⟨n,-,rfl⟩ := hup
        exact RowsKeyed.upsertWindows hids hcons fun r hr => hitems r (List.mem_of_mem_take hr)
  | cleanup cutoffMs =>
    cases taken
    exact RowsKeyed.of_subset hcons fun k v hv => (get_cleanupOldWindows_iff.mp hv).1
  | sweep cutoffMs entries =>
    obtain ⟨-,rfl⟩ := taken
    exact RowsKeyed.of_subset hcons fun k v hv => (get_removeWindows_iff.mp hv).1

/-- In every state reached every row is under its key. -/
theorem RowsKeyed.of_run (hids : UserIdsOk history)
    (run : Run (WindowsStep windowsSchemaVersion debug bincode) emptyDb history db) :
    RowsKeyed bincode (FromUploads windowsSchemaVersion debug history) db := by
  refine Run.invariant_of
    (I:=fun past t => RowsKeyed bincode (FromUploads windowsSchemaVersion debug past) t)
    forall_mem_tail ?_ ?_ hids run
  · intro k v hv
    rw [emptyDb,get_emptyMaps] at hv
    cases hv
  · intro past s op t _ hids h taken
    exact RowsKeyed.step hids h taken

/-- What a query reads from two rows of a user tells them apart. -/
theorem nodup_queryUserWindows {P : String → String → WireWindow → Prop}
    (h : RowsKeyed bincode P db) (hu : NulFree (utf8 userId)) (sinceMs : Int64) :
    (queryUserWindows bincode db userId sinceMs).Nodup := by
  have hread : ∀ kv∈keyspacePrefix (db .windows) (delimited (utf8 userId)), ∀ row,
      queriedWindow bincode (delimited (utf8 userId)) sinceMs kv=some row →
        kv.1=windowRowKey userId row.1 row.2.id := by
    intro kv hkv row hrow
    simp only [keyspacePrefix,List.mem_filter,decide_eq_true_eq] at hkv
    obtain ⟨hmem,hpre⟩ := hkv
    obtain ⟨k,v⟩ := kv
    rw [Std.ExtTreeMap.mem_toList_iff_getElem?_eq_some] at hmem
    obtain ⟨user,name,x,hclean,-,rfl,rfl⟩ := h k v hmem
    rw [windowRowKey,delimited_prefix_iff hu hclean.1] at hpre
    cases utf8_injective hpre
    rw [queriedWindow_windowRowKey hclean.2.1,Option.ite_none_right_eq_some] at hrow
    obtain ⟨-,hrow⟩ := hrow
    cases hrow
    rfl
  have hkeys : (keyspacePrefix (db .windows) (delimited (utf8 userId))).Pairwise
      fun a b => a.1≠b.1 := by
    refine List.Pairwise.filter _ ?_
    refine Std.ExtTreeMap.distinct_keys_toList.imp fun {a b} hne heq => hne ?_
    rw [heq,Std.LawfulEqCmp.compare_eq_iff_eq]
  rw [queryUserWindows,List.Nodup,List.pairwise_filterMap]
  refine hkeys.imp_of_mem fun ha hb hne row hrow row' hrow' heq => hne ?_
  rw [hread _ ha row hrow,hread _ hb row' hrow',heq]

/-- Stored values tell windows apart. -/
theorem encodeWindow_inj {a b : WireWindow} (h : encodeWindow bincode a=encodeWindow bincode b) :
    a=b := by
  have hread := congrArg (decodeWindow bincode) h
  rw [decodeWindow_encodeWindow,decodeWindow_encodeWindow] at hread
  exact Option.some.inj hread

/-- In every state reached by uploads and cleaning up, every row is that of one
user, provider and window, merged from what was uploaded for them; and a query
for a user lists exactly the user's rows that end at the given time or later,
each once, with its provider. -/
theorem queryUserWindows_lists (hids : UserIdsOk history)
    (run : Run (WindowsStep windowsSchemaVersion debug bincode) emptyDb history db)
    (hu : NulFree (utf8 userId)) (sinceMs : Int64) :
    (∀ k v : Bytes, (db .windows)[k]?=some v → ∃! row : String×String×WireWindow,
      FromUploads windowsSchemaVersion debug history row.1 row.2.1 row.2.2 ∧
      k=windowRowKey row.1 row.2.1 row.2.2.id ∧ v=encodeWindow bincode row.2.2) ∧
    (queryUserWindows bincode db userId sinceMs).Nodup ∧
    ∀ provider w, (provider,w)∈queryUserWindows bincode db userId sinceMs ↔
      FromUploads windowsSchemaVersion debug history userId provider w ∧
      (db .windows)[windowRowKey userId provider w.id]?=some (encodeWindow bincode w) ∧
      w.windowEndMs≥sinceMs := by
  have hkeyed := RowsKeyed.of_run hids run
  refine ⟨fun k v hv => ?_,nodup_queryUserWindows hkeyed hu sinceMs,fun provider w => ?_⟩
  · obtain ⟨u,p,x,hclean,hx,hk,hv⟩ := hkeyed k v hv
    refine ⟨(u,p,x),⟨hx,hk,hv⟩,?_⟩
    rintro ⟨u',p',x'⟩ ⟨hx',hk',hv'⟩
    dsimp only at hx' hk' hv'
    obtain ⟨rfl,rfl,-⟩ := (windowRowKey_inj (hx'.clean hids) hclean).mp (hk'.symm.trans hk)
    rw [encodeWindow_inj (hv'.symm.trans hv)]
  · rw [mem_queryUserWindows_of_keyed hkeyed hu]
    constructor
    · rintro ⟨hclean,hend,hv⟩
      obtain ⟨u,p,x,hxclean,hx,hk,hvx⟩ := hkeyed _ _ hv
      obtain ⟨rfl,rfl,-⟩ := (windowRowKey_inj hclean hxclean).mp hk
      rw [encodeWindow_inj hvx]
      rw [encodeWindow_inj hvx] at hv hend
      exact ⟨hx,hv,hend⟩
    · rintro ⟨hw,hv,hend⟩
      exact ⟨hw.clean hids,hend,hv⟩

end

/-- Two uploads of one window, then a sweep of what ended before it. -/
def sampleOps : List WindowsOp :=
  [.cleanup 1759990000000,
    .upload "u1" (sampleRequest 1759998000000 allRows) (some (.ok 0)) (.syncAck 1759997000000),
    .upload "u1" (sampleRequest 1759996000000 earlyRows) (some (.ok 0)) (.syncAck 1759995000000)]

/-- Behind the sample operations a query lists the merged rows that are stored. -/
theorem queryUserWindows_lists_sample : ∃ db : Db,
    Run (WindowsStep 1 id windowLayout.codec) emptyDb sampleOps db ∧
    (queryUserWindows windowLayout.codec db "u1" 0).Nodup ∧
    ∀ provider w, (provider,w)∈queryUserWindows windowLayout.codec db "u1" 0 ↔
      FromUploads 1 id sampleOps "u1" provider w ∧
      (db .windows)[windowRowKey "u1" provider w.id]?=some (encodeWindow windowLayout.codec w) ∧
      w.windowEndMs≥0 := by
  have huser : NulFree (utf8 "u1") := by decide
  have hids : UserIdsOk sampleOps := by
    intro op hop userId req upserted reply heq
    rw [heq] at hop
    simp only [sampleOps,List.mem_cons,List.not_mem_nil,or_false,reduceCtorEq,false_or,
      WindowsOp.upload.injEq] at hop
    rcases hop with hop | hop
    · rw [hop.1]
      exact huser
    · rw [hop.1]
      exact huser
  have run : Run (WindowsStep 1 id windowLayout.codec) emptyDb [] emptyDb := .start
  have run := run.next (WindowsOp.upload "u1" (sampleRequest 1759996000000 earlyRows)
    (some (.ok 0)) (.syncAck 1759995000000)) earlyRows_synced
  have run := run.next (WindowsOp.upload "u1" (sampleRequest 1759998000000 allRows)
    (some (.ok 0)) (.syncAck 1759997000000)) allRows_synced
  have run := run.next (WindowsOp.cleanup 1759990000000) rfl
  exact ⟨_,run,(queryUserWindows_lists hids run huser 0).2⟩

end TokiSync.WindowListings
