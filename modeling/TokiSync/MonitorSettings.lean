import TokiSync.KeyedRows
import TokiSync.ByteKeys
import TokiSync.Runs

/-!
# Monitor settings

A table of opaque values by user and key. A write compares the version it
expects, computes what the user would hold after it and is refused over quota;
otherwise it inserts the entry with version one or replaces it with the next
version. A delete compares the version too. The transactions of one user are
serialized by a lock on the user's row, so each of them is one step.
-/

namespace TokiSync.MonitorSettings

open KeyedRows ByteKeys Runs

/-- One row of the table. -/
structure MonitorRow where
  /-- Owner of the entry. -/
  userId : String
  /-- Key of the entry. -/
  key : String
  /-- Opaque payload. -/
  value : String
  /-- Bytes of the payload. -/
  sizeBytes : ℤ
  /-- Version of the entry. -/
  version : ℤ
  /-- Time of the last write. -/
  updatedAt : ℤ
  deriving DecidableEq

/-- Primary key of a row. -/
def MonitorRow.primaryKey (row : MonitorRow) : String×String := (row.userId,row.key)

/-- The table of settings. -/
abbrev MonitorTable := Table MonitorRow.primaryKey

/-- Limits of one user. -/
structure MonitorQuota where
  /-- Entries a user may have. -/
  maxEntries : ℤ
  /-- Bytes of payload a user may have. -/
  maxTotalBytes : ℤ

/-- The limits every user has. -/
def monitorQuota : MonitorQuota where
  maxEntries := 512
  maxTotalBytes := 8*1024*1024

/-- The limit a write would exceed. -/
inductive QuotaKind where
  /-- The number of entries. -/
  | entries
  /-- The bytes of payload. -/
  | bytes
  deriving DecidableEq

/-- What a write did. -/
inductive MonitorWriteOutcome where
  /-- The entry was written. -/
  | written (version updatedAt : ℤ) (previousVersion : Option ℤ)
  /-- The stored version is not the expected one. -/
  | versionMismatch (currentVersion currentUpdatedAt : Option ℤ)
  /-- The write would exceed the quota. -/
  | quotaExceeded (what : QuotaKind) (used limit : ℤ)
  deriving DecidableEq

/-- What a delete did. -/
inductive MonitorDeleteOutcome where
  /-- The entry was deleted. -/
  | deleted
  /-- There is no entry. -/
  | notFound
  /-- The stored version is not the expected one. -/
  | versionMismatch (currentVersion currentUpdatedAt : ℤ)
  deriving DecidableEq

/-- Bytes of a value. -/
def byteLength (value : String) : ℤ := (utf8 value).length

/-- Entries of a user. -/
def owned (table : MonitorTable) (userId : String) : List MonitorRow :=
  table.rows.filter fun row => row.userId=userId

/-- Number of entries of a user and the sum of their sizes. -/
def usage (table : MonitorTable) (userId : String) : ℤ×ℤ :=
  ((owned table userId).length,((owned table userId).map MonitorRow.sizeBytes).sum)

/-- Version under a key, zero when nothing is stored. -/
def versionOf (table : MonitorTable) (userId key : String) : ℤ :=
  ((table.find (userId,key)).map MonitorRow.version).getD 0

/-- Entries of the user after a write of the key. -/
def newCount (table : MonitorTable) (userId key : String) : ℤ :=
  if (table.find (userId,key)).isSome then (usage table userId).1 else (usage table userId).1+1

/-- Bytes of the user after a write of the key. -/
def newTotal (table : MonitorTable) (userId key : String) (size : ℤ) : ℤ :=
  (usage table userId).2-((table.find (userId,key)).map MonitorRow.sizeBytes).getD 0+size

/-- The row an upsert statement stores: a new one with version one, or the
next version of the stored one. -/
def nextRow (table : MonitorTable) (userId key value : String) (now : ℤ) : MonitorRow where
  userId := userId
  key := key
  value := value
  sizeBytes := byteLength value
  version := match table.find (userId,key) with
    | some row => row.version+1
    | none => 1
  updatedAt := now

/-- Write an entry, in one transaction. -/
def upsertMonitorSetting (table : MonitorTable) (userId key value : String)
    (ifVersion : Option ℤ) (quota : MonitorQuota) (now : ℤ) : MonitorWriteOutcome×MonitorTable :=
  let size := byteLength value
  let current := table.find (userId,key)
  -- an expected version of zero means that nothing is stored
  if ifVersion.any fun expected => versionOf table userId key≠expected then
    (.versionMismatch (current.map MonitorRow.version) (current.map MonitorRow.updatedAt),table)
  else if quota.maxEntries<newCount table userId key then
    (.quotaExceeded .entries (newCount table userId key) quota.maxEntries,table)
  else if quota.maxTotalBytes<newTotal table userId key size then
    (.quotaExceeded .bytes (newTotal table userId key size) quota.maxTotalBytes,table)
  else
    let row := nextRow table userId key value now
    (.written row.version now (current.map MonitorRow.version),table.put row)

/-- The rows a delete statement affects. -/
def affected (userId key : String) (ifVersion : Option ℤ) (row : MonitorRow) : Bool :=
  row.primaryKey=(userId,key) && ifVersion.all fun expected => row.version=expected

/-- Delete an entry, in one transaction. -/
def deleteMonitorSetting (table : MonitorTable) (userId key : String) (ifVersion : Option ℤ) :
    MonitorDeleteOutcome×MonitorTable :=
  if table.rows.any (affected userId key ifVersion) then
    (.deleted,table.keep fun row => !affected userId key ifVersion row)
  else match table.find (userId,key) with
    | some current =>
      if ifVersion.isSome then (.versionMismatch current.version current.updatedAt,table)
      else (.notFound,table)
    | none => (.notFound,table)

/-- A read with its result, or a committed transaction with its outcome. -/
inductive MonitorOp where
  /-- A client reads the version of an entry. -/
  | read (client : ℕ) (userId key : String) (version : ℤ)
  /-- A client writes an entry. -/
  | put (client : ℕ) (userId key value : String) (ifVersion : Option ℤ) (now : ℤ)
    (outcome : MonitorWriteOutcome)
  /-- A client deletes an entry. -/
  | delete (client : ℕ) (userId key : String) (ifVersion : Option ℤ)
    (outcome : MonitorDeleteOutcome)

/-- One step of the table. -/
def MonitorStep (quota : MonitorQuota) (table : MonitorTable) :
    MonitorOp → MonitorTable → Prop
  | .read _ userId key version,table' => version=versionOf table userId key ∧ table'=table
  | .put _ userId key value ifVersion now outcome,table' =>
    upsertMonitorSetting table userId key value ifVersion quota now=(outcome,table')
  | .delete _ userId key ifVersion outcome,table' =>
    deleteMonitorSetting table userId key ifVersion=(outcome,table')

section

variable {table table' : MonitorTable} {userId key value : String} {ifVersion : Option ℤ}
variable {quota : MonitorQuota} {now : ℤ}

/-- The version under a key without entry is zero. -/
theorem versionOf_of_none (h : table.find (userId,key)=none) : versionOf table userId key=0 := by
  rw [versionOf,h]
  rfl

/-- The version under a key with an entry is that of the entry. -/
theorem versionOf_of_some {row : MonitorRow} (h : table.find (userId,key)=some row) :
    versionOf table userId key=row.version := by
  rw [versionOf,h]
  rfl

/-- The row an upsert statement stores has the next version. -/
theorem nextRow_version (table : MonitorTable) (userId key value : String) (now : ℤ) :
    (nextRow table userId key value now).version=versionOf table userId key+1 := by
  cases h : table.find (userId,key) with
  | none => rw [versionOf_of_none h,nextRow,h,zero_add]
  | some row => rw [versionOf_of_some h,nextRow,h]

/-- The expected version is not the stored one. -/
def Mismatch (table : MonitorTable) (userId key : String) (ifVersion : Option ℤ) : Prop :=
  ∃ expected, ifVersion=some expected ∧ versionOf table userId key≠expected

/-- The user stays within the quota after the write. -/
def Fits (quota : MonitorQuota) (table : MonitorTable) (userId key value : String) : Prop :=
  newCount table userId key≤quota.maxEntries ∧
    newTotal table userId key (byteLength value)≤quota.maxTotalBytes

/-- What a write does. -/
theorem upsert_cases (table : MonitorTable) (userId key value : String) (ifVersion : Option ℤ)
    (quota : MonitorQuota) (now : ℤ) :
    (Mismatch table userId key ifVersion ∧
      ∃ v u, upsertMonitorSetting table userId key value ifVersion quota now=
        (.versionMismatch v u,table)) ∨
    (¬Mismatch table userId key ifVersion ∧ ¬Fits quota table userId key value ∧
      ∃ what used limit, upsertMonitorSetting table userId key value ifVersion quota now=
        (.quotaExceeded what used limit,table)) ∨
    (¬Mismatch table userId key ifVersion ∧ Fits quota table userId key value ∧
      upsertMonitorSetting table userId key value ifVersion quota now=
        (.written (versionOf table userId key+1) now
          ((table.find (userId,key)).map MonitorRow.version),
          table.put (nextRow table userId key value now))) := by
  have hmismatch : (ifVersion.any fun expected => versionOf table userId key≠expected)=true ↔
      Mismatch table userId key ifVersion := by
    simp only [Option.any_eq_true,decide_eq_true_eq,Mismatch]
  rw [←hmismatch,Fits,upsertMonitorSetting]
  dsimp only
  split_ifs with hv hc ht
  · exact Or.inl ⟨hv,_,_,rfl⟩
  · exact Or.inr (Or.inl ⟨hv,fun h => not_lt.mpr h.1 hc,_,_,_,rfl⟩)
  · exact Or.inr (Or.inl ⟨hv,fun h => not_lt.mpr h.2 ht,_,_,_,rfl⟩)
  · rw [nextRow_version]
    exact Or.inr (Or.inr ⟨hv,⟨not_lt.mp hc,not_lt.mp ht⟩,rfl⟩)

/-- A delete statement affects the entry under its key or nothing. -/
theorem affected_iff {row : MonitorRow} (hrow : table.find (userId,key)=some row) :
    table.rows.any (affected userId key ifVersion)=true ↔
      ∀ expected, ifVersion=some expected → row.version=expected := by
  have hall : (ifVersion.all fun expected => row.version=expected)=true ↔
      ∀ expected, ifVersion=some expected → row.version=expected := by
    simp only [Option.all_eq_true,decide_eq_true_eq]
  obtain ⟨hmem,hkey⟩ := Table.find_eq_some.mp hrow
  rw [List.any_eq_true,←hall]
  constructor
  · rintro ⟨other,hother,haffected⟩
    rw [affected,Bool.and_eq_true,decide_eq_true_eq] at haffected
    have heq : other=row := table.eq_of_key hother hmem (haffected.1.trans hkey.symm)
    rw [←heq]
    exact haffected.2
  · intro h
    exact ⟨row,hmem,by rw [affected,Bool.and_eq_true,decide_eq_true_eq]; exact ⟨hkey,h⟩⟩

/-- What an effective delete leaves. -/
theorem keep_affected {row : MonitorRow} (hrow : table.find (userId,key)=some row)
    (h : table.rows.any (affected userId key ifVersion)=true) :
    (table.keep fun other => !affected userId key ifVersion other)=
      table.keep fun other => other.primaryKey≠(userId,key) := by
  have hversion := (affected_iff hrow).mp h
  obtain ⟨hmem,hkey⟩ := Table.find_eq_some.mp hrow
  have hrows : table.rows.filter (fun other => !affected userId key ifVersion other)=
      table.rows.filter fun other => other.primaryKey≠(userId,key) := by
    refine List.filter_congr fun other hother => ?_
    by_cases heq : other.primaryKey=(userId,key)
    · have hsame : other=row := table.eq_of_key hother hmem (heq.trans hkey.symm)
      have hall : (ifVersion.all fun expected => row.version=expected)=true := by
        simp only [Option.all_eq_true,decide_eq_true_eq]
        exact hversion
      rw [affected,hsame,hall,hkey]
      simp only [decide_true,Bool.and_self,Bool.not_true,ne_eq,not_true_eq_false,decide_false]
    · rw [affected,decide_eq_false heq]
      simp only [Bool.false_and,Bool.not_false,ne_eq,heq,not_false_eq_true,decide_true]
  exact Table.ext_rows hrows

/-- What a delete does. -/
theorem delete_cases (table : MonitorTable) (userId key : String) (ifVersion : Option ℤ) :
    (table.find (userId,key)=none ∧
      deleteMonitorSetting table userId key ifVersion=(.notFound,table)) ∨
    (∃ row expected, table.find (userId,key)=some row ∧ ifVersion=some expected ∧
      row.version≠expected ∧ deleteMonitorSetting table userId key ifVersion=
        (.versionMismatch row.version row.updatedAt,table)) ∨
    (∃ row, table.find (userId,key)=some row ∧ (∀ expected, ifVersion=some expected →
      row.version=expected) ∧ deleteMonitorSetting table userId key ifVersion=
        (.deleted,table.keep fun other => other.primaryKey≠(userId,key))) := by
  rw [deleteMonitorSetting]
  cases hfind : table.find (userId,key) with
  | none =>
    have hnone : ¬table.rows.any (affected userId key ifVersion)=true := by
      intro h
      obtain ⟨row,hrow,haffected⟩ := List.any_eq_true.mp h
      rw [affected,Bool.and_eq_true,decide_eq_true_eq] at haffected
      exact Table.find_eq_none.mp hfind row hrow haffected.1
    rw [if_neg hnone]
    exact Or.inl ⟨rfl,rfl⟩
  | some row =>
    by_cases haffected : table.rows.any (affected userId key ifVersion)=true
    · rw [if_pos haffected,keep_affected hfind haffected]
      exact Or.inr (Or.inr ⟨row,rfl,(affected_iff hfind).mp haffected,rfl⟩)
    · rw [if_neg haffected]
      rw [affected_iff hfind] at haffected
      push Not at haffected
      obtain ⟨expected,rfl,hne⟩ := haffected
      exact Or.inr (Or.inl ⟨row,expected,rfl,rfl,hne,rfl⟩)

end

end TokiSync.MonitorSettings
