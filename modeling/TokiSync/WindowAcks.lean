import TokiSync.WindowStore

/-!
# Acknowledged window uploads

The handler sanitizes and premerges the rows of a request, upserts them and
answers. It acknowledges only when no row was deferred by its times and the
store skipped none. A stored row absorbs an uploaded one when no field of the
upload would still change a maximum, a flag or a known first-seen time of it;
absorbing is kept by every later merge. The windows keyspace may hold any
bytes before the upload, rows of newer programs and corrupt ones included.
-/

namespace TokiSync.WindowAcks

open MachineWords ByteKeys ByteCodec BatchedMaps FieldwiseMerge WireWindows WindowMerge FjallStore
open WindowStore

/-- Bytes a windows payload may have. -/
def maxWindowsPayload : ℕ := 1024*1024

/-- Uploaded windows of a provider. -/
structure SyncWindowsPayload where
  /-- Version of the row format. -/
  windowsSchema : ℕ
  /-- Provider of the rows. -/
  provider : String
  /-- The rows. -/
  items : List WireWindow

/-- One windows request, with what the handler learns on its way to the store. -/
structure WindowsRequest where
  /-- Whether the user is active, none when that could not be read. -/
  active : Option Bool
  /-- Bytes of the payload. -/
  payloadLen : ℕ
  /-- The payload, none when it cannot be deserialized. -/
  payload : Option SyncWindowsPayload
  /-- Whether the rate limiter lets the request pass. -/
  allowed : Bool
  /-- Server clock. -/
  nowMs : Int64
  /-- Whether the write permit is granted. -/
  permitted : Bool

/-- What the client hears. -/
inductive WindowsReply where
  /-- The set is accepted up to a time. -/
  | syncAck (lastTsMs : Int64)
  /-- The set is to be sent again. -/
  | syncErr (reason : String)
  /-- The connection ends without an answer. -/
  | closed
  deriving DecidableEq

section

variable (windowsSchemaVersion : ℕ) (debug : String → String)

/-- The checks of a payload and of the limits it is under. -/
def checkWindows (req : WindowsRequest) (win : SyncWindowsPayload) :
    Except WindowsReply SyncWindowsPayload :=
  if win.windowsSchema≠windowsSchemaVersion then
    .error (.syncErr ("unsupported windows_schema "++toString win.windowsSchema++
      " (server supports "++toString windowsSchemaVersion++")"))
  else if providerOk win.provider=false then
    .error (.syncErr ("invalid provider name: "++debug win.provider))
  else if req.allowed=false then .error (.syncErr "windows sync throttled")
  else if req.permitted=false then .error .closed
  else .ok win

/-- The checks before the store is used: the payload to process, or the answer. -/
def admitWindows (req : WindowsRequest) : Except WindowsReply SyncWindowsPayload :=
  match req.active with
  | none => .error .closed
  | some false => .error (.syncErr "account deactivated")
  | some true =>
    if req.payloadLen>maxWindowsPayload then
      .error (.syncErr ("windows payload too large: "++toString req.payloadLen++" bytes (max "++
        toString maxWindowsPayload++")"))
    else match req.payload with
      | none => .error .closed
      | some win => checkWindows windowsSchemaVersion debug req win

/-- The answer after the upsert. Rows beyond the cap are not counted. -/
def answerWindows (clean : SanitizedWindows) (before : ℕ) (items : List WireWindow)
    (upserted : Except String ℕ) : WindowsReply :=
  match upserted with
  | .ok skipped =>
    let dropped := clean.transientRejects+skipped
    if dropped=0 then .syncAck (((items.map WireWindow.observedTsMs).max?).getD 0)
    else .syncErr (toString dropped++" of "++toString before++" window items rejected")
  | .error reason => .syncErr reason

variable (bincode : Codec WireWindow)

/-- How an upsert of windows ends: with the count of skipped rows, or with an
error of the store on the way, when the rows before are written. -/
def UpsertWindows (db : Db) (userId provider : String) (items : List WireWindow)
    (upserted : Except String ℕ) (db' : Db) : Prop :=
  match upserted with
  | .ok skipped => upsertWindows bincode db userId provider items=(db',skipped)
  | .error _ => ∃ n < items.length, db'=(upsertWindows bincode db userId provider (items.take n)).1

/-- One windows request: how the upsert ended when it came to that, what the
client hears and the state right after. -/
def SyncWindows (db : Db) (userId : String) (req : WindowsRequest)
    (upserted : Option (Except String ℕ)) (reply : WindowsReply) (db' : Db) : Prop :=
  match admitWindows windowsSchemaVersion debug req with
  | .error refusal => upserted=none ∧ reply=refusal ∧ db'=db
  | .ok win =>
    ∃ items result, PremergeWindows (sanitizeWindowBatch win.items req.nowMs).items items ∧
      UpsertWindows bincode db userId win.provider items result db' ∧ upserted=some result ∧
      reply=answerWindows (sanitizeWindowBatch win.items req.nowMs) win.items.length items result

end

/-- A row that no field of the other one would still change. -/
structure Absorbs (row w : WireWindow) : Prop where
  /-- The peak is at least the other one. -/
  peak : w.peakPctX100≤row.peakPctX100
  /-- The observation time is not earlier. -/
  observed : w.observedTsMs≤row.observedTsMs
  /-- The way the limit was reached is at least the other one. -/
  limitReachedKind : w.limitReachedKind≤row.limitReachedKind
  /-- The number of samples is at least the other one. -/
  nSamples : w.nSamples≤row.nSamples
  /-- The sampled share is at least the other one. -/
  sampledActiveFraction : w.sampledActiveFraction≤row.sampledActiveFraction
  /-- The end of the window is known. -/
  finalized : w.finalized=true → row.finalized=true
  /-- The exhaustion is known. -/
  maxedOut : w.maxedOut=true → row.maxedOut=true
  /-- A known first-seen time is known and not later. -/
  firstSeen : 0 < w.firstSeenMs → 0 < row.firstSeenMs ∧ row.firstSeenMs≤w.firstSeenMs

section

variable {a b c : WireWindow}

/-- A row absorbs itself. -/
theorem Absorbs.refl (a : WireWindow) : Absorbs a a :=
  ⟨le_rfl,le_rfl,le_rfl,le_rfl,le_rfl,id,id,fun h => ⟨h,le_rfl⟩⟩

/-- What absorbs an absorbing row absorbs the row it absorbs. -/
theorem Absorbs.trans (hab : Absorbs a b) (hbc : Absorbs b c) : Absorbs a c where
  peak := hbc.peak.trans hab.peak
  observed := hbc.observed.trans hab.observed
  limitReachedKind := hbc.limitReachedKind.trans hab.limitReachedKind
  nSamples := hbc.nSamples.trans hab.nSamples
  sampledActiveFraction := hbc.sampledActiveFraction.trans hab.sampledActiveFraction
  finalized h := hab.finalized (hbc.finalized h)
  maxedOut h := hab.maxedOut (hbc.maxedOut h)
  firstSeen h := by
    obtain ⟨hb,hle⟩ := hbc.firstSeen h
    obtain ⟨ha,hle'⟩ := hab.firstSeen hb
    exact ⟨ha,hle'.trans hle⟩

/-- A merged row absorbs the row it was merged into. -/
theorem absorbs_merge_left (a b : WireWindow) : Absorbs (mergeWireWindows a b) a where
  peak := le_max_left _ _
  observed := by
    rw [observedTsMs_merge]
    split_ifs with h
    · exact h
    · exact le_rfl
  limitReachedKind := le_max_left _ _
  nSamples := le_max_left _ _
  sampledActiveFraction := le_max_left _ _
  finalized h := Bool.or_eq_true_iff.mpr (Or.inl h)
  maxedOut h := Bool.or_eq_true_iff.mpr (Or.inl h)
  firstSeen h := by
    rw [firstSeenMs_merge,mergeFirstSeen,if_pos h]
    split_ifs with hb
    · exact ⟨lt_min h hb,min_le_left _ _⟩
    · exact ⟨h,le_rfl⟩

/-- A merged row absorbs the other row. -/
theorem absorbs_merge_right (a b : WireWindow) : Absorbs (mergeWireWindows a b) b where
  peak := le_max_right _ _
  observed := by
    rw [observedTsMs_merge]
    split_ifs with h
    · exact le_rfl
    · exact (not_le.mp h).le
  limitReachedKind := le_max_right _ _
  nSamples := le_max_right _ _
  sampledActiveFraction := le_max_right _ _
  finalized h := Bool.or_eq_true_iff.mpr (Or.inr h)
  maxedOut h := Bool.or_eq_true_iff.mpr (Or.inr h)
  firstSeen h := by
    rw [firstSeenMs_merge,mergeFirstSeen,if_pos h]
    split_ifs with ha
    · exact ⟨lt_min ha h,min_le_right _ _⟩
    · exact ⟨h,le_rfl⟩

/-- A row merged from observations absorbs every one of them. -/
theorem absorbs_of_merged {xs : List WireWindow} {r : WireWindow} (h : Merged xs r) :
    ∀ x∈xs, Absorbs r x := by
  induction h with
  | single x =>
    intro y hy
    rw [List.mem_singleton.mp hy]
    exact Absorbs.refl x
  | @node xs ys a b left right ihl ihr =>
    intro x hx
    rcases List.mem_append.mp hx with hx | hx
    · exact (absorbs_merge_left a b).trans (ihl x hx)
    · exact (absorbs_merge_right a b).trans (ihr x hx)

/-- Premerging leaves for every row one of its identity that absorbs it. -/
theorem exists_absorbing_premerged {items merged : List WireWindow}
    (h : PremergeWindows items merged) {x : WireWindow} (hx : x∈items) :
    ∃ r∈merged, r.id=x.id ∧ Absorbs r x := by
  obtain ⟨sorted,⟨hperm,-⟩,rfl⟩ := h
  obtain ⟨groups,hflat,hgroups⟩ := mergeAdjacent_groups sorted
  have hmem : x∈groups.flatten := by
    rw [hflat]
    exact hperm.mem_iff.mpr hx
  obtain ⟨group,hgroup,hxg⟩ := List.mem_flatten.mp hmem
  obtain ⟨i,hi,rfl⟩ := List.mem_iff_getElem.mp hgroup
  obtain ⟨hlength,hpairs⟩ := List.forall₂_iff_get.mp hgroups
  obtain ⟨hmerged,hid⟩ := hpairs i hi (hlength ▸ hi)
  exact ⟨_,List.get_mem _ _,(hid x hxg).symm,absorbs_of_merged hmerged x hxg⟩

end

/-- A value written by a newer program. -/
def Future (v : Bytes) : Prop := ∃ version body, v=version::body ∧ version>windowValueVersion

/-- The row under a key absorbs a window. -/
def AbsorbedAt (bincode : Codec WireWindow) (db : Db) (key : Bytes) (w : WireWindow) : Prop :=
  ∃ v row, (db .windows)[key]?=some v ∧ decodeWindow bincode v=some row ∧ Absorbs row w

section

variable {bincode : Codec WireWindow} {db db' : Db} {userId provider : String} {skipped : ℕ}

/-- Values of newer programs are the ones read as such. -/
theorem decodeWindowVersioned_eq_futureVersion_iff (bincode : Codec WireWindow) (v : Bytes) :
    decodeWindowVersioned bincode v=.futureVersion ↔ Future v := by
  cases v with
  | nil =>
    refine iff_of_false (fun h => by cases h) ?_
    rintro ⟨version,body,hv,-⟩
    cases hv
  | cons version body =>
    rw [decodeWindowVersioned]
    by_cases hversion : version>windowValueVersion
    · rw [if_pos hversion]
      exact iff_of_true rfl ⟨version,body,rfl,hversion⟩
    · rw [if_neg hversion]
      refine iff_of_false (fun h => ?_) ?_
      · cases hbody : bincode.deserialize body with
        | none =>
          rw [hbody] at h
          cases h
        | some w =>
          rw [hbody] at h
          cases h
      · rintro ⟨version',body',hv,hgt⟩
        cases hv
        exact hversion hgt

/-- What the upsert of one window does: the row of its key belongs to a newer
program and is counted; or the row stays and absorbs the window already; or it
becomes one that absorbs the window and what the old row absorbed. -/
theorem upsertWindow_cases (bincode : Codec WireWindow) (db : Db) (userId provider : String)
    (skipped : ℕ) (w : WireWindow) :
    (∃ v, (db .windows)[windowRowKey userId provider w.id]?=some v ∧ Future v ∧
      upsertWindow bincode userId provider (db,skipped) w=(db,skipped+1)) ∨
    (AbsorbedAt bincode db (windowRowKey userId provider w.id) w ∧
      upsertWindow bincode userId provider (db,skipped) w=(db,skipped)) ∨
    ∃ row, Absorbs row w ∧
      (∀ v, (db .windows)[windowRowKey userId provider w.id]?=some v → ¬Future v ∧
        ∀ prev, decodeWindow bincode v=some prev → Absorbs row prev) ∧
      upsertWindow bincode userId provider (db,skipped) w=
        (applyOp db (.insert .windows (windowRowKey userId provider w.id)
          (encodeWindow bincode row)),skipped) := by
  unfold upsertWindow
  dsimp only
  cases hrow : (db .windows)[windowRowKey userId provider w.id]? with
  | none =>
    refine Or.inr (Or.inr ⟨w,Absorbs.refl w,fun v hv => ?_,rfl⟩)
    cases hv
  | some prevBytes =>
    dsimp only
    have hfuture := decodeWindowVersioned_eq_futureVersion_iff bincode prevBytes
    cases hdec : decodeWindowVersioned bincode prevBytes with
    | valid prev =>
      have hread : decodeWindow bincode prevBytes=some prev := by rw [decodeWindow,hdec]
      dsimp only
      by_cases hsame : mergeWireWindows prev w=prev
      · rw [if_pos hsame]
        refine Or.inr (Or.inl ⟨⟨prevBytes,prev,hrow,hread,?_⟩,rfl⟩)
        have habsorbs := absorbs_merge_right prev w
        rw [hsame] at habsorbs
        exact habsorbs
      · rw [if_neg hsame]
        refine Or.inr (Or.inr ⟨_,absorbs_merge_right prev w,fun v hv => ?_,rfl⟩)
        cases hv
        refine ⟨fun hf => ?_,fun prev' hprev => ?_⟩
        · rw [←hfuture,hdec] at hf
          cases hf
        · rw [hread,Option.some.injEq] at hprev
          rw [←hprev]
          exact absorbs_merge_left prev w
    | futureVersion => exact Or.inl ⟨prevBytes,rfl,hfuture.mp hdec,rfl⟩
    | corrupt =>
      refine Or.inr (Or.inr ⟨w,Absorbs.refl w,fun v hv => ?_,rfl⟩)
      cases hv
      refine ⟨fun hf => ?_,fun prev' hprev => ?_⟩
      · rw [←hfuture,hdec] at hf
        cases hf
      · rw [decodeWindow,hdec] at hprev
        cases hprev

/-- What a written row leaves under the keys. -/
theorem get_written (db : Db) (key value k : Bytes) :
    (applyOp db (.insert .windows key value) .windows)[k]?=
      if k=key then some value else (db .windows)[k]? := by
  rw [get_applyOp]
  simp only [BatchOp.cell,BatchOp.content,Prod.mk.injEq,true_and]

/-- The upsert of one window keeps the rows of newer programs. -/
theorem future_upsertWindow (w : WireWindow) {k v : Bytes}
    (hv : (db .windows)[k]?=some v) (hf : Future v) :
    ((upsertWindow bincode userId provider (db,skipped) w).1 .windows)[k]?=some v := by
  rcases upsertWindow_cases bincode db userId provider skipped w with
    ⟨-,-,-,heq⟩ | ⟨-,heq⟩ | ⟨row,-,hold,heq⟩
  · rw [heq]
    exact hv
  · rw [heq]
    exact hv
  · have hne : k≠windowRowKey userId provider w.id := by
      intro hk
      rw [hk] at hv
      exact (hold v hv).1 hf
    rw [heq,get_written,if_neg hne]
    exact hv

/-- What a row absorbs it absorbs after the upsert of another window. -/
theorem AbsorbedAt.upsertWindow (w : WireWindow) {k : Bytes} {x : WireWindow}
    (h : AbsorbedAt bincode db k x) :
    AbsorbedAt bincode (WindowStore.upsertWindow bincode userId provider (db,skipped) w).1 k x := by
  rcases upsertWindow_cases bincode db userId provider skipped w with
    ⟨-,-,-,heq⟩ | ⟨-,heq⟩ | ⟨row,-,hold,heq⟩
  · rw [heq]
    exact h
  · rw [heq]
    exact h
  · obtain ⟨v,prev,hv,hprev,habsorbs⟩ := h
    rw [heq]
    by_cases hk : k=windowRowKey userId provider w.id
    · rw [hk] at hv
      have hrow := (hold v hv).2 prev hprev
      refine ⟨_,row,?_,decodeWindow_encodeWindow row,hrow.trans habsorbs⟩
      rw [get_written,if_pos hk]
    · refine ⟨v,prev,?_,hprev,habsorbs⟩
      rw [get_written,if_neg hk]
      exact hv

/-- A row that can be read is not of a newer program. -/
theorem not_future_of_decodeWindow {v : Bytes} {row : WireWindow}
    (h : decodeWindow bincode v=some row) : ¬Future v := by
  rw [←decodeWindowVersioned_eq_futureVersion_iff bincode]
  intro hf
  rw [decodeWindow,hf] at h
  cases h

/-- What the upserts of some windows have done to a store and a count. -/
structure Upserted (bincode : Codec WireWindow) (userId provider : String) (db : Db) (skipped : ℕ)
    (items : List WireWindow) (db' : Db) (skipped' : ℕ) : Prop where
  /-- The count never falls. -/
  count : skipped≤ skipped'
  /-- Rows of newer programs stay. -/
  future : ∀ k v : Bytes, (db .windows)[k]?=some v → Future v → (db' .windows)[k]?=some v
  /-- Absorbed windows stay absorbed. -/
  kept : ∀ k x, AbsorbedAt bincode db k x → AbsorbedAt bincode db' k x
  /-- When nothing was counted every window is absorbed. -/
  absorbed : skipped'=skipped → ∀ w∈items,
    AbsorbedAt bincode db' (windowRowKey userId provider w.id) w
  /-- A window that meets a row of a newer program is counted. -/
  counted : ∀ w∈items, ∀ v, (db .windows)[windowRowKey userId provider w.id]?=some v → Future v →
    skipped < skipped'

/-- Upserting windows one after another. -/
theorem upserted_foldl (items : List WireWindow) (db : Db) (skipped : ℕ) :
    Upserted bincode userId provider db skipped items
      (items.foldl (WindowStore.upsertWindow bincode userId provider) (db,skipped)).1
      (items.foldl (WindowStore.upsertWindow bincode userId provider) (db,skipped)).2 := by
  induction items generalizing db skipped with
  | nil =>
    exact ⟨le_rfl,fun _ _ hv _ => hv,fun _ _ h => h,fun _ _ hw => absurd hw List.not_mem_nil,
      fun _ hw => absurd hw List.not_mem_nil⟩
  | cons w items ih =>
    rw [List.foldl_cons]
    have hfuture : ∀ k v : Bytes, (db .windows)[k]?=some v → Future v →
        ((WindowStore.upsertWindow bincode userId provider (db,skipped) w).1 .windows)[k]?=some v :=
      fun k v hv hf => future_upsertWindow w hv hf
    have hkept : ∀ k x, AbsorbedAt bincode db k x →
        AbsorbedAt bincode (WindowStore.upsertWindow bincode userId provider (db,skipped) w).1 k x :=
      fun k x hx => hx.upsertWindow w
    have hstep : (WindowStore.upsertWindow bincode userId provider (db,skipped) w).2=skipped+1 ∨
        ((WindowStore.upsertWindow bincode userId provider (db,skipped) w).2=skipped ∧
          AbsorbedAt bincode (WindowStore.upsertWindow bincode userId provider (db,skipped) w).1
            (windowRowKey userId provider w.id) w ∧
          ∀ v, (db .windows)[windowRowKey userId provider w.id]?=some v → ¬Future v) := by
      rcases upsertWindow_cases bincode db userId provider skipped w with
        ⟨-,-,-,heq⟩ | ⟨habsorbed,heq⟩ | ⟨row,habsorbs,hold,heq⟩
      · left
        rw [heq]
      · right
        rw [heq]
        refine ⟨rfl,habsorbed,fun v hv => ?_⟩
        obtain ⟨v',row,hv',hrow,-⟩ := habsorbed
        rw [hv,Option.some.injEq] at hv'
        rw [hv']
        exact not_future_of_decodeWindow hrow
      · right
        rw [heq]
        refine ⟨rfl,⟨_,row,?_,decodeWindow_encodeWindow row,habsorbs⟩,fun v hv => (hold v hv).1⟩
        rw [get_written,if_pos rfl]
    generalize WindowStore.upsertWindow bincode userId provider (db,skipped) w=next at *
    obtain ⟨db1,skipped1⟩ := next
    have h := ih db1 skipped1
    dsimp only at hstep hfuture hkept
    constructor
    · have hcount := h.count
      omega
    · exact fun k v hv hf => h.future k v (hfuture k v hv hf) hf
    · exact fun k x hx => h.kept k x (hkept k x hx)
    · intro hnone x hx
      have hcount := h.count
      rcases hstep with hskip | ⟨hsame,habsorbed,-⟩
      · omega
      · rcases List.mem_cons.mp hx with rfl | hx
        · exact h.kept _ _ habsorbed
        · exact h.absorbed (by omega) x hx
    · intro x hx v hv hf
      have hcount := h.count
      rcases hstep with hskip | ⟨hsame,-,hnot⟩
      · omega
      · rcases List.mem_cons.mp hx with rfl | hx
        · exact absurd hf (hnot v hv)
        · have hlt := h.counted x hx v (hfuture _ _ hv hf) hf
          omega

/-- Upserts that end, with or without an error, have upserted some of the
windows one after another. -/
theorem UpsertWindows.upserted {items : List WireWindow} {result : Except String ℕ}
    (h : UpsertWindows bincode db userId provider items result db') :
    ∃ items' skipped', Upserted bincode userId provider db 0 items' db' skipped' ∧
      ∀ skipped, result=.ok skipped → items'=items ∧ skipped'=skipped := by
  cases result with
  | ok skipped =>
    have h : items.foldl (WindowStore.upsertWindow bincode userId provider) (db,0)=(db',skipped) := h
    have hall : Upserted bincode userId provider db 0 items
        (items.foldl (WindowStore.upsertWindow bincode userId provider) (db,0)).1
        (items.foldl (WindowStore.upsertWindow bincode userId provider) (db,0)).2 :=
      upserted_foldl items db 0
    rw [h] at hall
    refine ⟨items,skipped,hall,fun other heq => ?_⟩
    cases heq
    exact ⟨rfl,rfl⟩
  | error reason =>
    obtain ⟨n,-,rfl⟩ := h
    exact ⟨_,_,upserted_foldl (items.take n) db 0,fun other heq => by cases heq⟩

end

section

variable (nowMs : Int64) (x : WireWindow)

/-- What sanitizing makes of a row that it keeps. -/
def sanitizedItem : WireWindow := clampObserved nowMs (capActive (raiseObserved nowMs x))

/-- The row can never become valid. -/
def StableRejected : Prop := windowItemStableOk (raiseObserved nowMs x) nowMs=false

/-- The row is outside the horizon, which a later clock can change. -/
def TransientRejected : Prop :=
  windowItemStableOk (raiseObserved nowMs x) nowMs=true ∧
    windowItemTransientOk (raiseObserved nowMs x) nowMs=false

/-- Valid rows of a batch, before the cap. -/
def validRows (items : List WireWindow) : List WireWindow :=
  (((items.map (raiseObserved nowMs)).filter fun w => windowItemStableOk w nowMs).filter fun w =>
    windowItemTransientOk w nowMs).map capActive

/-- The row is valid and not among the newest rows of a batch that exceeds the
cap. -/
def OverCap (items : List WireWindow) : Prop :=
  maxWindowItems<(validRows nowMs items).length ∧
    capActive (raiseObserved nowMs x)∈validRows nowMs items ∧
    capActive (raiseObserved nowMs x)∉truncateNewest (validRows nowMs items)

/-- Sanitizing keeps the identity. -/
theorem sanitizedItem_id : (sanitizedItem nowMs x).id=x.id := by
  have hraised : (raiseObserved nowMs x).id=x.id := by
    unfold raiseObserved
    split_ifs
    · rfl
    · rfl
  rw [sanitizedItem,(clampObserved_fields nowMs _).1,(capActive_fields _).1,hraised]

variable {nowMs x}

/-- Every row of a batch is rejected, deferred, beyond the cap, or kept in its
sanitized form. -/
theorem sanitized_cases {items : List WireWindow} (hx : x∈items) :
    StableRejected nowMs x ∨ TransientRejected nowMs x ∨ OverCap nowMs x items ∨
      sanitizedItem nowMs x∈(sanitizeWindowBatch items nowMs).items := by
  by_cases hstable : windowItemStableOk (raiseObserved nowMs x) nowMs=true
  · by_cases htransient : windowItemTransientOk (raiseObserved nowMs x) nowMs=true
    · have hvalid : capActive (raiseObserved nowMs x)∈validRows nowMs items := by
        refine List.mem_map_of_mem (List.mem_filter.mpr ⟨List.mem_filter.mpr ⟨?_,hstable⟩,htransient⟩)
        exact List.mem_map_of_mem hx
      by_cases hkept : capActive (raiseObserved nowMs x)∈truncateNewest (validRows nowMs items)
      · exact Or.inr (Or.inr (Or.inr (List.mem_map_of_mem hkept)))
      · refine Or.inr (Or.inr (Or.inl ⟨?_,hvalid,hkept⟩))
        by_contra hfits
        rw [truncateNewest,if_neg hfits] at hkept
        exact hkept hvalid
    · exact Or.inr (Or.inl ⟨hstable,Bool.eq_false_iff.mpr htransient⟩)
  · exact Or.inl (Bool.eq_false_iff.mpr hstable)

/-- A deferred row is counted. -/
theorem transientRejects_pos {items : List WireWindow} (hx : x∈items)
    (h : TransientRejected nowMs x) : 0<(sanitizeWindowBatch items nowMs).transientRejects := by
  have hmem : raiseObserved nowMs x∈(items.map (raiseObserved nowMs)).filter fun w =>
      windowItemStableOk w nowMs := List.mem_filter.mpr ⟨List.mem_map_of_mem hx,h.1⟩
  rw [sanitizeWindowBatch]
  refine Nat.sub_pos_of_lt (lt_of_le_of_ne (List.length_filter_le _ _) fun heq => ?_)
  have hall := List.length_filter_eq_length_iff.mp heq _ hmem
  rw [h.2] at hall
  cases hall

end

/-- An error is no acknowledgement. -/
theorem syncErr_ne_syncAck (reason : String) (lastTsMs : Int64) :
    WindowsReply.syncErr reason≠.syncAck lastTsMs := by
  intro h
  cases h

/-- The end of a connection is no acknowledgement. -/
theorem closed_ne_syncAck (lastTsMs : Int64) : WindowsReply.closed≠.syncAck lastTsMs := by
  intro h
  cases h

/-- The checks of a payload pass it on or refuse it without acknowledging. -/
theorem checkWindows_cases (windowsSchemaVersion : ℕ) (debug : String → String)
    (req : WindowsRequest) (win : SyncWindowsPayload) :
    checkWindows windowsSchemaVersion debug req win=.ok win ∨
      ∃ refusal, checkWindows windowsSchemaVersion debug req win=.error refusal ∧
        ∀ lastTsMs, refusal≠.syncAck lastTsMs := by
  unfold checkWindows
  split_ifs
  · exact Or.inr ⟨_,rfl,syncErr_ne_syncAck _⟩
  · exact Or.inr ⟨_,rfl,syncErr_ne_syncAck _⟩
  · exact Or.inr ⟨_,rfl,syncErr_ne_syncAck _⟩
  · exact Or.inr ⟨_,rfl,closed_ne_syncAck⟩
  · exact Or.inl rfl

/-- The checks of a request pass its payload on or refuse it without
acknowledging. -/
theorem admitWindows_cases (windowsSchemaVersion : ℕ) (debug : String → String)
    (req : WindowsRequest) :
    (∃ win, req.payload=some win ∧ admitWindows windowsSchemaVersion debug req=.ok win) ∨
      ∃ refusal, admitWindows windowsSchemaVersion debug req=.error refusal ∧
        ∀ lastTsMs, refusal≠.syncAck lastTsMs := by
  unfold admitWindows
  cases req.active with
  | none => exact Or.inr ⟨_,rfl,closed_ne_syncAck⟩
  | some active =>
    cases active with
    | false => exact Or.inr ⟨_,rfl,syncErr_ne_syncAck _⟩
    | true =>
      dsimp only
      by_cases hlarge : req.payloadLen>maxWindowsPayload
      · rw [if_pos hlarge]
        exact Or.inr ⟨_,rfl,syncErr_ne_syncAck _⟩
      · rw [if_neg hlarge]
        cases req.payload with
        | none => exact Or.inr ⟨_,rfl,closed_ne_syncAck⟩
        | some win =>
          rcases checkWindows_cases windowsSchemaVersion debug req win with hok | hrefused
          · exact Or.inl ⟨win,rfl,hok⟩
          · exact Or.inr hrefused

/-- A windows request is acknowledged only when every row that was not rejected
for good or beyond the cap is absorbed by the stored row of its identity. A
deferred row, a row of a newer program in the way and a failing store are
answered by an error, and no request changes rows of newer programs. -/
theorem window_acks_honest (windowsSchemaVersion : ℕ) (debug : String → String)
    (bincode : Codec WireWindow) {db db' : Db} {userId : String} {req : WindowsRequest}
    {upserted : Option (Except String ℕ)} {reply : WindowsReply}
    (h : SyncWindows windowsSchemaVersion debug bincode db userId req upserted reply db') :
    (∀ lastTsMs, reply=.syncAck lastTsMs → ∃ win, req.payload=some win ∧ ∀ x∈win.items,
      StableRejected req.nowMs x ∨ OverCap req.nowMs x win.items ∨
        AbsorbedAt bincode db' (windowRowKey userId win.provider x.id)
          (sanitizedItem req.nowMs x)) ∧
    (∀ win, admitWindows windowsSchemaVersion debug req=.ok win →
      (∃ x∈win.items, TransientRejected req.nowMs x) ∨
      (∃ w∈(sanitizeWindowBatch win.items req.nowMs).items, ∃ v,
        (db .windows)[windowRowKey userId win.provider w.id]?=some v ∧ Future v) ∨
      (∃ reason, upserted=some (.error reason)) →
        ∃ reason, reply=.syncErr reason) ∧
    ∀ k v : Bytes, (db .windows)[k]?=some v → Future v → (db' .windows)[k]?=some v := by
  unfold SyncWindows at h
  rcases admitWindows_cases windowsSchemaVersion debug req with
    ⟨win,hpayload,hchecks⟩ | ⟨refusal,hchecks,hnoAck⟩
  · rw [hchecks] at h ⊢
    obtain ⟨items,result,hpremerged,hup,rfl,rfl⟩ := h
    obtain ⟨items',skipped',hupserted,hok⟩ := hup.upserted
    refine ⟨fun lastTsMs hack => ⟨win,hpayload,fun x hx => ?_⟩,
      fun win' hwin' hnot => ?_,hupserted.future⟩
    · cases result with
      | error reason => cases hack
      | ok skipped =>
        obtain ⟨rfl,rfl⟩ := hok skipped rfl
        unfold answerWindows at hack
        dsimp only at hack
        split_ifs at hack with hdropped
        have htransient : (sanitizeWindowBatch win.items req.nowMs).transientRejects=0 := by omega
        have hskipped : skipped'=0 := by omega
        have hcases : StableRejected req.nowMs x ∨ TransientRejected req.nowMs x ∨
            OverCap req.nowMs x win.items ∨
              sanitizedItem req.nowMs x∈(sanitizeWindowBatch win.items req.nowMs).items :=
          sanitized_cases hx
        rcases hcases with hrejected | hdeferred | hcap | hkept
        · exact Or.inl hrejected
        · have hpos := transientRejects_pos hx hdeferred
          omega
        · exact Or.inr (Or.inl hcap)
        · obtain ⟨r,hr,hid,habsorbs⟩ := exists_absorbing_premerged hpremerged hkept
          obtain ⟨v,row,hv,hrow,hall⟩ := hupserted.absorbed hskipped r hr
          rw [hid,sanitizedItem_id] at hv
          exact Or.inr (Or.inr ⟨v,row,hv,hrow,hall.trans habsorbs⟩)
    · cases hwin'
      cases result with
      | error reason => exact ⟨reason,rfl⟩
      | ok skipped =>
        obtain ⟨rfl,rfl⟩ := hok skipped rfl
        have hdropped : (sanitizeWindowBatch win.items req.nowMs).transientRejects+skipped'≠0 := by
          rcases hnot with ⟨x,hx,hdeferred⟩ | ⟨w,hw,v,hv,hf⟩ | ⟨reason,herr⟩
          · have hpos := transientRejects_pos hx hdeferred
            omega
          · obtain ⟨r,hr,hid,-⟩ := exists_absorbing_premerged hpremerged hw
            rw [←hid] at hv
            have hpos := hupserted.counted r hr v hv hf
            omega
          · cases herr
        exact ⟨_,if_neg hdropped⟩
  · rw [hchecks] at h ⊢
    obtain ⟨-,rfl,rfl⟩ := h
    refine ⟨fun lastTsMs hack => absurd hack (hnoAck lastTsMs),fun win hwin => ?_,fun k v hv _ => hv⟩
    cases hwin

section

variable {bincode : Codec WireWindow} {userId provider : String} {db : Db}

/-- No stored row is of a newer program. -/
def NoFuture (db : Db) : Prop := ∀ k v : Bytes, (db .windows)[k]?=some v → ¬Future v

/-- A row that is written is not of a newer program. -/
theorem not_future_encodeWindow (w : WireWindow) : ¬Future (encodeWindow bincode w) :=
  not_future_of_decodeWindow (decodeWindow_encodeWindow w)

/-- The upsert of a window that meets no row of a newer program counts nothing, and
writes no such row. -/
theorem NoFuture.upsertWindow (h : NoFuture db) (skipped : ℕ) (w : WireWindow) :
    (WindowStore.upsertWindow bincode userId provider (db,skipped) w).2=skipped ∧
      NoFuture (WindowStore.upsertWindow bincode userId provider (db,skipped) w).1 := by
  rcases upsertWindow_cases bincode db userId provider skipped w with
    ⟨v,hv,hf,-⟩ | ⟨-,heq⟩ | ⟨row,-,-,heq⟩
  · exact absurd hf (h _ v hv)
  · rw [heq]
    exact ⟨rfl,h⟩
  · rw [heq]
    refine ⟨rfl,fun k v hv => ?_⟩
    rw [get_written] at hv
    split_ifs at hv with hk
    · cases hv
      exact not_future_encodeWindow row
    · exact h k v hv

/-- Nor does the upsert of some windows. -/
theorem NoFuture.upsertWindows (h : NoFuture db) (items : List WireWindow) :
    (WindowStore.upsertWindows bincode db userId provider items).2=0 ∧
      NoFuture (WindowStore.upsertWindows bincode db userId provider items).1 := by
  unfold WindowStore.upsertWindows
  generalize 0=skipped
  induction items generalizing db with
  | nil => exact ⟨rfl,h⟩
  | cons w items ih =>
    obtain ⟨hcount,hnone⟩ := h.upsertWindow skipped w
    have hpair : WindowStore.upsertWindow bincode userId provider (db,skipped) w=
        ((WindowStore.upsertWindow bincode userId provider (db,skipped) w).1,skipped) :=
      Prod.ext rfl hcount
    rw [List.foldl_cons,hpair]
    exact ih hnone

end

/-- A request of some rows. -/
def sampleRequest (nowMs : Int64) (items : List WireWindow) : WindowsRequest where
  active := some true
  payloadLen := 200
  payload := some ⟨1,"codex",items⟩
  allowed := true
  nowMs := nowMs
  permitted := true

/-- Two observations of a window. -/
def earlyRows : List WireWindow :=
  [sampleWindow 1759994000000 300 5000000,sampleWindow 1759995000000 300 6000000]

/-- The two observations and a third one. -/
def allRows : List WireWindow := earlyRows++[laterWindow]

theorem noFuture_emptyDb : NoFuture emptyDb := by
  intro k v hv
  rw [emptyDb,get_emptyMaps] at hv
  cases hv

/-- A sample request none of whose rows is deferred is acknowledged by a store
without rows of newer programs. -/
theorem sampleRequest_synced {db : Db} (h : NoFuture db) {nowMs lastTsMs : Int64}
    {items merged : List WireWindow}
    (hmerged : PremergeWindows (sanitizeWindowBatch items nowMs).items merged)
    (hdeferred : (sanitizeWindowBatch items nowMs).transientRejects=0)
    (hlast : (merged.map WireWindow.observedTsMs).max?=some lastTsMs) :
    SyncWindows 1 id windowLayout.codec db "u1" (sampleRequest nowMs items) (some (.ok 0))
      (.syncAck lastTsMs) (upsertWindows windowLayout.codec db "u1" "codex" merged).1 := by
  have hprovider : providerOk "codex"=true := by decide
  have hgoes : admitWindows 1 id (sampleRequest nowMs items)=.ok ⟨1,"codex",items⟩ := by
    unfold admitWindows checkWindows sampleRequest
    simp [hprovider,maxWindowsPayload]
  unfold SyncWindows
  rw [hgoes]
  refine ⟨merged,.ok 0,hmerged,Prod.ext rfl (h.upsertWindows merged).1,rfl,?_⟩
  have hnow : (sampleRequest nowMs items).nowMs=nowMs := rfl
  simp [answerWindows,hnow,hdeferred,hlast]

/-- The state after the first two observations. -/
def earlyDb : Db :=
  (upsertWindows windowLayout.codec emptyDb "u1" "codex" (mergeAdjacent earlyRows)).1

/-- Two observations are acknowledged. -/
theorem earlyRows_synced : SyncWindows 1 id windowLayout.codec emptyDb "u1"
    (sampleRequest 1759996000000 earlyRows) (some (.ok 0)) (.syncAck 1759995000000) earlyDb := by
  have hmerged : PremergeWindows (sanitizeWindowBatch earlyRows 1759996000000).items
      (mergeAdjacent earlyRows) := ⟨_,⟨.refl _,by decide⟩,rfl⟩
  have hdeferred : (sanitizeWindowBatch earlyRows 1759996000000).transientRejects=0 := by decide
  have hlast : ((mergeAdjacent earlyRows).map WireWindow.observedTsMs).max?=
      some 1759995000000 := by decide
  exact sampleRequest_synced noFuture_emptyDb hmerged hdeferred hlast

/-- All of them with a third one are acknowledged behind the row of the first two. -/
theorem allRows_synced : SyncWindows 1 id windowLayout.codec earlyDb "u1"
    (sampleRequest 1759998000000 allRows) (some (.ok 0)) (.syncAck 1759997000000)
    (upsertWindows windowLayout.codec earlyDb "u1" "codex" (mergeAdjacent allRows)).1 := by
  have hdb : NoFuture earlyDb := (noFuture_emptyDb.upsertWindows (mergeAdjacent earlyRows)).2
  have hmerged : PremergeWindows (sanitizeWindowBatch allRows 1759998000000).items
      (mergeAdjacent allRows) := ⟨_,⟨.refl _,by decide⟩,rfl⟩
  have hdeferred : (sanitizeWindowBatch allRows 1759998000000).transientRejects=0 := by decide
  have hlast : ((mergeAdjacent allRows).map WireWindow.observedTsMs).max?=
      some 1759997000000 := by decide
  exact sampleRequest_synced hdb hmerged hdeferred hlast

/-- A request that sends observations again with a new one is acknowledged, and each
observation is absorbed by the one row they share. -/
theorem window_acks_honest_sample : ∃ db', SyncWindows 1 id windowLayout.codec earlyDb "u1"
      (sampleRequest 1759998000000 allRows) (some (.ok 0)) (.syncAck 1759997000000) db' ∧
    ∀ x∈allRows, AbsorbedAt windowLayout.codec db' (windowRowKey "u1" "codex" laterWindow.id)
      (sanitizedItem 1759998000000 x) := by
  refine ⟨_,allRows_synced,fun x hx => ?_⟩
  obtain ⟨win,hwin,hacked⟩ := (window_acks_honest 1 id windowLayout.codec allRows_synced).1 _ rfl
  cases hwin
  have hsame : ∀ x∈allRows, x.id=laterWindow.id ∧
      windowItemStableOk (raiseObserved 1759998000000 x) 1759998000000=true := by
    refine List.forall_mem_cons.mpr ⟨⟨rfl,by decide⟩,List.forall_mem_cons.mpr ⟨⟨rfl,by decide⟩,?_⟩⟩
    exact List.forall_mem_singleton.mpr ⟨rfl,by decide⟩
  obtain ⟨hid,hstable⟩ := hsame x hx
  rcases hacked x hx with hrejected | hcap | habsorbed
  · exact absurd (hstable.symm.trans hrejected) (by decide)
  · have hlength : ¬maxWindowItems<(validRows 1759998000000 allRows).length := by decide
    exact absurd hcap.1 hlength
  · rw [←hid]
    exact habsorbed

end TokiSync.WindowAcks
