import TokiSync.FjallIndex
import TokiSync.SyncCursor

/-!
# The dedup retention window

Pruning drops the pointers of a device's rows that are older than one
retention period before the newest time of one batch. Rows that lose their
pointer may be stored a second time under another time. The rows of a device
from one retention period before the newest time of all its batches on keep
their pointers, and so no two of them share provider and message id.
-/

namespace TokiSync.DedupRetention

open MachineWords ByteKeys ByteCodec BatchedMaps ServerEvents FjallStore FjallCoherence
open FjallBatches FjallRuns FjallIndex SyncBatches SyncCursor Runs

/-- Product of two words unless it overflows. -/
def checkedMul (a b : Int64) : Option Int64 :=
  if Int64.minValue.toInt≤a.toInt*b.toInt ∧ a.toInt*b.toInt≤Int64.maxValue.toInt then some (a*b)
  else none

/-- Retention period of a configuration that names none: thirty days. -/
def defaultDedupRetentionSecs : Int64 := 30*24*3600

/-- Retention period that a configuration puts in force. -/
def validateDedupRetention (dedupRetentionSecs : Int64) : Int64 :=
  if 0<dedupRetentionSecs ∧ (checkedMul dedupRetentionSecs 1000).isSome then dedupRetentionSecs
  else defaultDedupRetentionSecs

/-- A period in force is positive and fits in milliseconds. -/
theorem validateDedupRetention_bounds (dedupRetentionSecs : Int64) :
    0<(validateDedupRetention dedupRetentionSecs).toInt ∧
      (validateDedupRetention dedupRetentionSecs).toInt*1000≤Int64.maxValue.toInt := by
  unfold validateDedupRetention
  split_ifs with hvalid
  · obtain ⟨hpos,hfits⟩ := hvalid
    have hmax : (1000 : Int64).toInt=1000 := by decide
    rw [checkedMul,hmax] at hfits
    split_ifs at hfits with hrange
    · exact ⟨Int64.lt_iff_toInt_lt.mp hpos,hrange.2⟩
    · cases hfits
  · decide

/-- Times that a step uploads for a device. -/
def uploadedTimes (deviceId : String) : SyncOp → List Int64
  | .upsert _ upload =>
    if upload.deviceId=deviceId then upload.batch.items.map SyncItem.tsMs else []
  | _ => []

/-- The cutoff of an upload of the device does not overflow. -/
def NoOverflow (dedupRetentionSecs : Int64) (deviceId : String) : SyncOp → Prop
  | .upsert _ upload => upload.deviceId=deviceId →
    Int64.minValue.toInt≤upload.maxTs.toInt-dedupRetentionSecs.toInt*1000
  | _ => True

/-- Rows of the device from the bound on are the ones their pointers name. -/
def InWindow (bincode : Codec PersistedEvent) (deviceId : String) (bound : ℤ) (db : Db) : Prop :=
  ∀ (k v : Bytes) (e : ServerEvent), (db .events)[k]?=some v → decodeEvent bincode v=some e →
    e.deviceId=deviceId → bound≤e.tsMs.toInt → (db .idxMsg)[e.idxKey]?=some k

section

variable {bincode : Codec PersistedEvent} {db db' : Db} {deviceId : String} {bound : ℤ}

/-- An empty store has no rows without pointers. -/
theorem inWindow_emptyDb : InWindow bincode deviceId bound emptyDb := by
  intro k v e hv
  rw [emptyDb,get_emptyMaps] at hv
  cases hv

/-- An upsert of one event keeps the rows of the window on their pointers. -/
theorem InWindow.upsertOne (hw : InWindow bincode deviceId bound db) (event : ServerEvent) :
    InWindow bincode deviceId bound (commit db (FjallStore.upsertOne bincode db event)) := by
  rcases upsertOne_cases bincode db event with ⟨-,-,-,hskip⟩ | ⟨-,hreplace⟩
  · rw [hskip]
    exact hw
  · rw [hreplace]
    intro k v e hv he hdev hle
    rw [get_replaceRow_events] at hv
    rw [get_replaceRow_idxMsg]
    split_ifs at hv with hk hold
    · cases hv
      rw [decodeEvent_encodeEvent,Option.some.injEq] at he
      have hkey : e.idxKey=event.idxKey := by rw [←he]; rfl
      rw [if_pos hkey,hk]
    · have hpointer := hw k v e hv he hdev hle
      have hne : e.idxKey≠event.idxKey := by
        intro heq
        rw [heq] at hpointer
        exact hold hpointer
      rw [if_neg hne,hpointer]

/-- Upserts one after another keep the window. -/
theorem InWindow.upsertAll (hw : InWindow bincode deviceId bound db) (order : List ServerEvent) :
    InWindow bincode deviceId bound (FjallBatches.upsertAll bincode db order) := by
  induction order generalizing db with
  | nil => exact hw
  | cons e order ih => exact ih (hw.upsertOne e)

/-- A pruning before the bound, or of another device, keeps the window. -/
theorem InWindow.cleanup (hw : InWindow bincode deviceId bound db) (h : Aligned bincode db)
    {device : String} (hd : NulFree (utf8 device)) {cutoff : Int64}
    (hcutoff : device=deviceId → cutoff.toInt≤bound) :
    InWindow bincode deviceId bound (cleanupOldDedup db device cutoff) := by
  intro k v e hv he hdev hle
  rw [get_cleanupOldDedup_of_ne _ _ _ (by decide)] at hv
  refine get_cleanupOldDedup_idxMsg_iff.mpr ⟨hw k v e hv he hdev hle,?_⟩
  rintro ⟨hpre,-,hold⟩
  obtain ⟨hk,hed⟩ := h.of_decode hv he
  rw [delimited_prefix_of_device hd hed.1] at hpre
  rw [hk,fromBeBytes_eventKey,Int64.lt_iff_toInt_lt] at hold
  have hbound := hcutoff (hpre.trans hdev)
  omega

/-- The deletion of a device keeps the window. -/
theorem InWindow.delete (hw : InWindow bincode deviceId bound db) (h : Aligned bincode db)
    {device : String} (hd : NulFree (utf8 device)) :
    InWindow bincode deviceId bound (deleteDeviceEvents bincode db device) := by
  intro k v e hv he hdev hle
  obtain ⟨hv,hkeep⟩ := get_deleteDeviceEvents_events.mp hv
  exact (get_deleteDeviceEvents_idxMsg h hd hv he rfl).mpr ⟨hw k v e hv he hdev hle,hkeep e he⟩

end

section

variable {bincode : Codec PersistedEvent} {dedupRetentionSecs : Int64} {s s' : SyncState}
variable {op : SyncOp}

/-- Uploads under way were upserted, and the rows of the device from every
bound on that the cutoffs of its uploads respect are on their pointers. -/
structure Retained (bincode : Codec PersistedEvent) (dedupRetentionSecs : Int64)
    (deviceId : String) (history : List SyncOp) (s : SyncState) : Prop where
  /-- Uploads under way were upserted. -/
  upserted : ∀ connection upload phase, s.requests connection=some (upload,phase) →
    .upsert connection upload∈history
  /-- Rows in the window are on their pointers. -/
  inWindow : ∀ bound : ℤ, (∀ t∈history.flatMap (uploadedTimes deviceId),
    t.toInt-dedupRetentionSecs.toInt*1000≤bound) → InWindow bincode deviceId bound s.db

/-- A cutoff that does not overflow is one retention period before the newest
time of the upload. -/
theorem toInt_cutoffMs {upload : Upload} (hpos : 0<dedupRetentionSecs.toInt)
    (hfits : dedupRetentionSecs.toInt*1000≤Int64.maxValue.toInt)
    (hno : Int64.minValue.toInt≤upload.maxTs.toInt-dedupRetentionSecs.toInt*1000) :
    (cutoffMs dedupRetentionSecs upload).toInt=
      upload.maxTs.toInt-dedupRetentionSecs.toInt*1000 := by
  have hthousand : (1000 : Int64).toInt=1000 := by decide
  have hmin : Int64.minValue.toInt= -9223372036854775808 := by decide
  have hmax : Int64.maxValue.toInt=9223372036854775807 := by decide
  have htop := upload.maxTs.toInt_lt
  rw [hmin] at hno
  rw [hmax] at hfits
  have hproduct : (dedupRetentionSecs*1000).toInt=dedupRetentionSecs.toInt*1000 := by
    rw [Int64.toInt_mul,hthousand]
    exact Int.bmod_eq_of_le (by omega) (by omega)
  rw [cutoffMs,Int64.toInt_sub,hproduct]
  exact Int.bmod_eq_of_le (by omega) (by omega)

/-- A cutoff that prunes is one retention period before a time of its upload. -/
theorem exists_time_of_cutoff {upload : Upload} (hpos : 0<dedupRetentionSecs.toInt)
    (hfits : dedupRetentionSecs.toInt*1000≤Int64.maxValue.toInt)
    (hno : Int64.minValue.toInt≤upload.maxTs.toInt-dedupRetentionSecs.toInt*1000)
    (hcutoff : 0<cutoffMs dedupRetentionSecs upload) :
    ∃ t∈upload.batch.items.map SyncItem.tsMs,
      (cutoffMs dedupRetentionSecs upload).toInt=t.toInt-dedupRetentionSecs.toInt*1000 := by
  have heq := toInt_cutoffMs hpos hfits hno
  rw [Int64.lt_iff_toInt_lt] at hcutoff
  have hzero : (0 : Int64).toInt=0 := rfl
  cases hmax : (upload.batch.items.map SyncItem.tsMs).max? with
  | none =>
    have hmaxTs : upload.maxTs=0 := by rw [Upload.maxTs,hmax,Option.getD_none]
    rw [hmaxTs,hzero] at heq
    omega
  | some top =>
    have hmaxTs : upload.maxTs=top := by rw [Upload.maxTs,hmax,Option.getD_some]
    rw [hmaxTs] at heq
    exact ⟨top,(List.max?_eq_some_iff.mp hmax).1,heq⟩

/-- Every step of the server keeps the window of the device. -/
theorem Retained.step {deviceId : String} {past : List SyncOp}
    (h : Retained bincode dedupRetentionSecs deviceId past s) (hc : Consistent bincode s)
    (hd : op.Delimitable) (hpos : 0<dedupRetentionSecs.toInt)
    (hfits : dedupRetentionSecs.toInt*1000≤Int64.maxValue.toInt)
    (hno : ∀ x∈past, NoOverflow dedupRetentionSecs deviceId x)
    (hstep : SyncStep bincode dedupRetentionSecs s op s') :
    Retained bincode dedupRetentionSecs deviceId (op::past) s' := by
  have haligned := hc.agrees.aligned
  obtain ⟨hdb,hrequests⟩ := syncStep_cases hstep
  constructor
  · intro connection upload phase hreq
    rcases hrequests connection upload phase hreq with ⟨phase',hreq'⟩ | hop
    · exact List.mem_cons_of_mem _ (h.upserted connection upload phase' hreq')
    · rw [hop]
      exact List.mem_cons_self
  · intro bound hbound
    have hpast : InWindow bincode deviceId bound s.db := by
      refine h.inWindow bound fun t ht => hbound t ?_
      rw [List.flatMap_cons]
      exact List.mem_append_right _ ht
    rcases hdb with ⟨heq,-⟩ | ⟨connection,upload,rfl,hup,-⟩ |
      ⟨connection,upload,phase,hreq,hcut,heq,-⟩ | ⟨device,provider,rfl,heq,-⟩
    · rw [heq]
      exact hpast
    · rw [UpsertEvents.eq_upsertAll haligned (Upload.delimitable hd) hup]
      exact hpast.upsertAll _
    · rw [heq]
      refine hpast.cleanup haligned (hc.upload _ _ _ hreq).1 fun hdev => ?_
      have hmem := h.upserted _ _ _ hreq
      obtain ⟨t,ht,hcutoff⟩ := exists_time_of_cutoff hpos hfits (hno _ hmem hdev) hcut
      rw [hcutoff]
      refine hbound t ?_
      rw [List.flatMap_cons]
      refine List.mem_append_right _ (List.mem_flatMap.mpr ⟨_,hmem,?_⟩)
      rw [uploadedTimes,if_pos hdev]
      exact ht
    · rw [heq]
      exact hpast.delete haligned hd

/-- In every run no two rows of a device from one retention period before its
newest uploaded time on share provider and message id. -/
theorem no_double_counting (bincode : Codec PersistedEvent) (configured : Int64)
    {history : List SyncOp} {s : SyncState}
    (run : Run (SyncStep bincode (validateDedupRetention configured)) initial history s)
    (hd : ∀ op∈history, op.Delimitable) {deviceId : String}
    (hno : ∀ op∈history, NoOverflow (validateDedupRetention configured) deviceId op)
    {newest : Int64} (hnewest : (history.flatMap (uploadedTimes deviceId)).max?=some newest)
    {k k' v v' : Bytes} {e e' : ServerEvent} (hv : (s.db .events)[k]?=some v)
    (hv' : (s.db .events)[k']?=some v') (he : decodeEvent bincode v=some e)
    (he' : decodeEvent bincode v'=some e') (hdev : e.deviceId=deviceId)
    (hdev' : e'.deviceId=deviceId) (hprovider : e.provider=e'.provider) (hmsg : e.msgId=e'.msgId)
    (hts : newest.toInt-(validateDedupRetention configured).toInt*1000≤e.tsMs.toInt)
    (hts' : newest.toInt-(validateDedupRetention configured).toInt*1000≤e'.tsMs.toInt) : k=k' := by
  obtain ⟨hpos,hfits⟩ := validateDedupRetention_bounds configured
  have hretained : Retained bincode (validateDedupRetention configured) deviceId history s := by
    refine Run.invariant_of (A:=fun history => (∀ op∈history, SyncOp.Delimitable op) ∧
        ∀ op∈history, NoOverflow (validateDedupRetention configured) deviceId op)
      (fun op past hA => ⟨forall_mem_tail op past hA.1,forall_mem_tail op past hA.2⟩)
      (I:=Retained bincode (validateDedupRetention configured) deviceId) ?_ ?_ ⟨hd,hno⟩ run
    · refine ⟨fun connection upload phase hreq => ?_,fun bound _ => inWindow_emptyDb⟩
      cases hreq
    · intro past t op t' hrun hA ht hstep
      have hpast : ∀ x∈past, SyncOp.Delimitable x := forall_mem_tail op past hA.1
      have hc : Consistent bincode t := Consistent.of_run hpast hrun
      exact ht.step hc (hA.1 op List.mem_cons_self) hpos hfits (forall_mem_tail op past hA.2) hstep
  have hwindow := hretained.inWindow (newest.toInt-(validateDedupRetention configured).toInt*1000)
    fun t ht => by
      have hle := Int64.le_iff_toInt_le.mp ((List.max?_eq_some_iff.mp hnewest).2 t ht)
      omega
  have hkey : e.idxKey=e'.idxKey := by
    rw [ServerEvent.idxKey,ServerEvent.idxKey,hdev,hdev',hprovider,hmsg]
  have hpointer := hwindow k v e hv he hdev hts
  have hpointer' := hwindow k' v' e' hv' he' hdev' hts'
  rw [←hkey,hpointer,Option.some.injEq] at hpointer'
  exact hpointer'

end

/-- A pruned upload and a correction of it, newest step first. -/
def correctedSteps : List SyncOp :=
  [.upsert 0 (sampleUpload "codex" 3000000001),.ack 0,.prune 0,.advance 0,
    .upsert 0 (sampleUpload "codex" 3000000000),.ensure "d1" "codex"]

/-- The correction of an upload inside the window is the row of its pointer. -/
theorem no_double_counting_sample : ∃ s,
    Run (SyncStep eventLayout.codec (validateDedupRetention 2592000)) initial correctedSteps s ∧
    ((s.db .idxMsg)[idxKey "d1" "codex" "m1"]?).getD []=
      eventKey 3000000001 "d1" "codex" "m1" := by
  have hup : ∀ db ts, UpsertEvents eventLayout.codec db (sampleUpload "codex" ts).serverEvents
      (upsertEvents eventLayout.codec db (sampleUpload "codex" ts).serverEvents) :=
    fun db ts => ⟨_,.refl _,rfl⟩
  have run : Run (SyncStep eventLayout.codec (validateDedupRetention 2592000)) initial
      [.ensure "d1" "codex"] _ := .next _ .start rfl
  have run := run.next (SyncOp.upsert 0 (sampleUpload "codex" 3000000000))
    ⟨rfl,rfl,by decide,by decide,_,hup _ _,rfl⟩
  have run := run.next (SyncOp.advance 0) ⟨_,rfl,rfl⟩
  have run := run.next (SyncOp.prune 0) ⟨_,rfl,(if_pos (by decide)).symm⟩
  have run := run.next (SyncOp.ack 0) ⟨_,rfl,rfl⟩
  have run := run.next (SyncOp.upsert 0 (sampleUpload "codex" 3000000001))
    ⟨rfl,rfl,by decide,by decide,_,hup _ _,rfl⟩
  let e := serverEvent "d1" "u1" (sampleUpload "codex" 3000000001).batch
    ⟨3000000001,"m1:7",⟨1,0,0,[10,2]⟩,12⟩
  have hdec : decodeEvent eventLayout.codec (encodeEvent eventLayout.codec e)=
      some {e with session := ""} := decodeEvent_encodeEvent eventLayout.codec e
  have hno : ∀ op∈correctedSteps, NoOverflow (validateDedupRetention 2592000) "d1" op := by
    intro op hop
    simp only [correctedSteps,List.mem_cons,List.not_mem_nil,or_false] at hop
    rcases hop with rfl | rfl | rfl | rfl | rfl | rfl
    · exact fun _ => by decide
    · trivial
    · trivial
    · trivial
    · exact fun _ => by decide
    · trivial
  have hnewest : (correctedSteps.flatMap (uploadedTimes "d1")).max?=some 3000000001 := by decide
  refine ⟨_,run,?_⟩
  exact no_double_counting eventLayout.codec 2592000 run (by decide) hno hnewest
    (by decide +kernel) (by decide +kernel) hdec hdec rfl rfl rfl rfl (by decide) (by decide)

end TokiSync.DedupRetention
