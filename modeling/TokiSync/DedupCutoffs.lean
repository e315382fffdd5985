import TokiSync.DedupRetention

/-!
# The cutoff of the dedup cleanup

After a batch the server prunes the device's pointers that are older than one
retention period before the newest time of the batch. The period in force fits
in milliseconds, but the difference is taken in machine words. It is the exact
one, and the pointers inside the period survive, unless the newest time is
less than one period above the least word.
-/

namespace TokiSync.DedupCutoffs

open MachineWords ByteKeys ByteCodec BatchedMaps ServerEvents FjallStore FjallRuns SyncBatches
open SyncCursor DedupRetention

/-- The event store after the cleanup that follows an upload. -/
def cleanupAfter (db : Db) (dedupRetentionSecs : Int64) (upload : Upload) : Db :=
  if 0<cutoffMs dedupRetentionSecs upload then
    cleanupOldDedup db upload.deviceId (cutoffMs dedupRetentionSecs upload)
  else db

/-- Pointers to rows from a time on are kept. -/
def KeepsPointers (bound : ℤ) (db db' : Db) : Prop :=
  ∀ k row : Bytes, (db .idxMsg)[k]?=some row → bound≤(fromBeBytes (row.take 8)).toInt →
    (db' .idxMsg)[k]?=some row

/-- Newest time of an upload less one retention period, as an integer. -/
def exactCutoff (dedupRetentionSecs : Int64) (upload : Upload) : ℤ :=
  upload.maxTs.toInt-dedupRetentionSecs.toInt*1000

section

variable {bincode : Codec PersistedEvent} {dedupRetentionSecs : Int64} {s s' : SyncState}

/-- The pruning step of the server is this cleanup. -/
theorem db_prune {connection : ℕ}
    (hstep : SyncStep bincode dedupRetentionSecs s (.prune connection) s') :
    ∃ upload, s.requests connection=some (upload,.advanced) ∧
      s'.db=cleanupAfter s.db dedupRetentionSecs upload := by
  obtain ⟨upload,hreq,rfl⟩ := hstep
  refine ⟨upload,hreq,?_⟩
  rw [cleanupAfter]
  split_ifs
  · rfl
  · rfl

/-- A cleanup whose cutoff is at most the bound keeps the pointers from the
bound on. -/
theorem keepsPointers_cleanupAfter {upload : Upload} {bound : ℤ}
    (h : (cutoffMs dedupRetentionSecs upload).toInt≤bound) (db : Db) :
    KeepsPointers bound db (cleanupAfter db dedupRetentionSecs upload) := by
  intro k row hrow hbound
  rw [cleanupAfter]
  split_ifs
  · refine get_cleanupOldDedup_idxMsg_iff.mpr ⟨hrow,?_⟩
    rintro ⟨-,-,hold⟩
    rw [Int64.lt_iff_toInt_lt] at hold
    omega
  · exact hrow

end

/-- For every upload and every configured retention, the cutoff is the exact
one and the cleanup keeps every pointer from it on, if and only if the exact
cutoff is a machine word. -/
theorem cutoff_exact_iff (configured : Int64) (upload : Upload) :
    ((cutoffMs (validateDedupRetention configured) upload).toInt=
        exactCutoff (validateDedupRetention configured) upload ∧
      ∀ db : Db, KeepsPointers (exactCutoff (validateDedupRetention configured) upload) db
        (cleanupAfter db (validateDedupRetention configured) upload)) ↔
      Int64.minValue.toInt≤exactCutoff (validateDedupRetention configured) upload := by
  constructor
  · rintro ⟨hexact,-⟩
    rw [←hexact]
    exact Int64.le_iff_toInt_le.mp (Int64.minValue_le _)
  · intro hfits
    obtain ⟨hpos,hmillis⟩ := validateDedupRetention_bounds configured
    have hexact := toInt_cutoffMs hpos hmillis hfits
    exact ⟨hexact,keepsPointers_cleanupAfter hexact.le⟩

/-- An upload whose only time is the least word. -/
def earliestUpload : Upload := sampleUpload "codex" Int64.minValue

/-- The cutoff of the earliest upload wraps around, and the cleanup drops the
pointer that the upload has just written. -/
theorem earliestUpload_pruned :
    (cutoffMs (validateDedupRetention 2592000) earliestUpload).toInt≠
        exactCutoff (validateDedupRetention 2592000) earliestUpload ∧
    ∃ db : Db, ¬KeepsPointers (exactCutoff (validateDedupRetention 2592000) earliestUpload) db
      (cleanupAfter db (validateDedupRetention 2592000) earliestUpload) := by
  refine ⟨by decide,upsertEvents eventLayout.codec emptyDb earliestUpload.serverEvents,?_⟩
  intro hkeeps
  have hkept := hkeeps (idxKey "d1" "codex" "m1") (eventKey Int64.minValue "d1" "codex" "m1")
    (by decide +kernel) (by decide)
  have hlost : ((cleanupAfter (upsertEvents eventLayout.codec emptyDb earliestUpload.serverEvents)
      (validateDedupRetention 2592000) earliestUpload .idxMsg)[idxKey "d1" "codex" "m1"]?).isNone=
        true := by decide +kernel
  rw [hkept] at hlost
  cases hlost

end TokiSync.DedupCutoffs
