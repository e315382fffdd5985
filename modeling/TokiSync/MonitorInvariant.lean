import TokiSync.MonitorSettings

/-!
# Invariant of the monitor settings

After any transactions every stored size is the length of its value, versions
are positive and no user is over the quota. The usage a write computes by
difference is the usage of the table after it.
-/

namespace TokiSync.MonitorInvariant

open KeyedRows MonitorSettings ByteKeys Runs

/-- Weight of a row in the number of entries of a user. -/
def entryOf (userId : String) (row : MonitorRow) : ℤ := if row.userId=userId then 1 else 0

/-- Weight of a row in the bytes of a user. -/
def bytesOf (userId : String) (row : MonitorRow) : ℤ :=
  if row.userId=userId then row.sizeBytes else 0

section

variable {table table' : MonitorTable} {userId key value : String} {ifVersion : Option ℤ}
variable {quota : MonitorQuota} {now : ℤ} {op : MonitorOp}

/-- The usage of a user is a pair of sums over the table. -/
theorem usage_eq (table : MonitorTable) (userId : String) :
    usage table userId=(table.weigh (entryOf userId),table.weigh (bytesOf userId)) := by
  rw [usage,owned,length_filter,sum_map_filter]
  simp only [decide_eq_true_eq]
  rfl

/-- A row of another user weighs nothing. -/
theorem weightAt_of_ne {weight : MonitorRow → ℤ} {u : String}
    (h : ∀ row : MonitorRow, row.userId≠u → weight row=0) (hne : userId≠u) :
    table.weightAt weight (userId,key)=0 := by
  cases hfind : table.find (userId,key) with
  | none =>
    rw [Table.weightAt,hfind]
    rfl
  | some row =>
    obtain ⟨-,hkey⟩ := Table.find_eq_some.mp hfind
    have huser : row.userId=userId := congrArg Prod.fst hkey
    rw [Table.weightAt,hfind,Option.map_some,Option.getD_some]
    exact h row (by rw [huser]; exact hne)

/-- The usage of the writing user after a write is the one computed before it. -/
theorem usage_put (table : MonitorTable) (userId key value : String) (now : ℤ) :
    usage (table.put (nextRow table userId key value now)) userId=
      (newCount table userId key,newTotal table userId key (byteLength value)) := by
  have hkey : (nextRow table userId key value now).primaryKey=(userId,key) := rfl
  have hentry : entryOf userId (nextRow table userId key value now)=1 := if_pos rfl
  have hbytes : bytesOf userId (nextRow table userId key value now)=byteLength value := if_pos rfl
  rw [usage_eq,Table.weigh_put,Table.weigh_put,hkey,hentry,hbytes,newCount,newTotal,usage_eq]
  cases hfind : table.find (userId,key) with
  | none =>
    have hzero : ∀ weight : MonitorRow → ℤ, table.weightAt weight (userId,key)=0 := by
      intro weight
      rw [Table.weightAt,hfind]
      rfl
    rw [hzero,hzero,sub_zero,sub_zero]
    rw [Option.map_none,Option.getD_none,sub_zero]
    rfl
  | some row =>
    obtain ⟨-,hrow⟩ := Table.find_eq_some.mp hfind
    have huser : row.userId=userId := congrArg Prod.fst hrow
    have hone : table.weightAt (entryOf userId) (userId,key)=1 := by
      rw [Table.weightAt,hfind,Option.map_some,Option.getD_some]
      exact if_pos huser
    have hsize : table.weightAt (bytesOf userId) (userId,key)=row.sizeBytes := by
      rw [Table.weightAt,hfind,Option.map_some,Option.getD_some]
      exact if_pos huser
    rw [hone,hsize,Option.map_some,Option.getD_some,Option.isSome_some,if_pos rfl,sub_add_cancel]

/-- A write leaves the usage of other users. -/
theorem usage_put_of_ne (table : MonitorTable) {row : MonitorRow} {u : String}
    (h : row.userId≠u) : usage (table.put row) u=usage table u := by
  have hentry : entryOf u row=0 := if_neg h
  have hbytes : bytesOf u row=0 := if_neg h
  have hkey : row.primaryKey=(row.userId,row.key) := rfl
  have hentries : table.weightAt (entryOf u) (row.userId,row.key)=0 :=
    weightAt_of_ne (fun r hr => if_neg hr) h
  have htotal : table.weightAt (bytesOf u) (row.userId,row.key)=0 :=
    weightAt_of_ne (fun r hr => if_neg hr) h
  rw [usage_eq,usage_eq,Table.weigh_put,Table.weigh_put,hentry,hbytes,hkey,hentries,htotal,
    sub_zero,sub_zero,add_zero,add_zero]

/-- A delete does not raise the usage of any user. -/
theorem usage_keep_le (hsize : ∀ row∈table.rows, 0≤row.sizeBytes) (p : MonitorRow → Bool)
    (u : String) : (usage (table.keep p) u).1≤(usage table u).1 ∧
      (usage (table.keep p) u).2≤(usage table u).2 := by
  rw [usage_eq,usage_eq]
  constructor
  · refine Table.weigh_keep_le (fun row _ => ?_) p
    rw [entryOf]
    split_ifs <;> omega
  · refine Table.weigh_keep_le (fun row hrow => ?_) p
    have hrow := hsize row hrow
    rw [bytesOf]
    split_ifs <;> omega

/-- What holds of the table after any transactions. -/
structure MonitorInv (quota : MonitorQuota) (table : MonitorTable) : Prop where
  /-- Sizes are lengths. -/
  sizes : ∀ row∈table.rows, row.sizeBytes=byteLength row.value
  /-- Versions are positive. -/
  versions : ∀ row∈table.rows, 1≤row.version
  /-- No user has more entries than allowed. -/
  entries : 0≤quota.maxEntries → ∀ u, (usage table u).1≤quota.maxEntries
  /-- No user has more bytes than allowed. -/
  bytes : 0≤quota.maxTotalBytes → ∀ u, (usage table u).2≤quota.maxTotalBytes

/-- Lengths are not negative. -/
theorem byteLength_nonneg (value : String) : 0≤byteLength value := Int.natCast_nonneg _

/-- Sizes are not negative. -/
theorem MonitorInv.size_nonneg (inv : MonitorInv quota table) :
    ∀ row∈table.rows, 0≤row.sizeBytes := by
  intro row hrow
  rw [inv.sizes row hrow]
  exact byteLength_nonneg row.value

/-- The version under a key is never negative. -/
theorem MonitorInv.versionOf_nonneg (inv : MonitorInv quota table) (userId key : String) :
    0≤versionOf table userId key := by
  cases hfind : table.find (userId,key) with
  | none => rw [versionOf_of_none hfind]
  | some row =>
    have hrow := inv.versions row (Table.find_eq_some.mp hfind).1
    rw [versionOf_of_some hfind]
    omega

/-- The empty table. -/
theorem MonitorInv.empty (quota : MonitorQuota) : MonitorInv quota Table.empty where
  sizes := fun _ h => absurd h List.not_mem_nil
  versions := fun _ h => absurd h List.not_mem_nil
  entries := fun h _ => h
  bytes := fun h _ => h

/-- A write within the quota. -/
theorem MonitorInv.put (inv : MonitorInv quota table) (hfits : Fits quota table userId key value) :
    MonitorInv quota (table.put (nextRow table userId key value now)) where
  sizes := by
    intro row hrow
    rcases Table.mem_put.mp hrow with ⟨hmem,-⟩ | rfl
    · exact inv.sizes row hmem
    · rfl
  versions := by
    intro row hrow
    rcases Table.mem_put.mp hrow with ⟨hmem,-⟩ | rfl
    · exact inv.versions row hmem
    · have hversion := inv.versionOf_nonneg userId key
      rw [nextRow_version]
      omega
  entries := by
    intro h u
    by_cases hu : userId=u
    · rw [←hu,usage_put]
      exact hfits.1
    · rw [usage_put_of_ne table hu]
      exact inv.entries h u
  bytes := by
    intro h u
    by_cases hu : userId=u
    · rw [←hu,usage_put]
      exact hfits.2
    · rw [usage_put_of_ne table hu]
      exact inv.bytes h u

/-- A delete. -/
theorem MonitorInv.keep (inv : MonitorInv quota table) (p : MonitorRow → Bool) :
    MonitorInv quota (table.keep p) where
  sizes := fun row hrow => inv.sizes row (Table.mem_keep.mp hrow).1
  versions := fun row hrow => inv.versions row (Table.mem_keep.mp hrow).1
  entries := fun h u => (usage_keep_le inv.size_nonneg p u).1.trans (inv.entries h u)
  bytes := fun h u => (usage_keep_le inv.size_nonneg p u).2.trans (inv.bytes h u)

/-- Every step keeps the invariant. -/
theorem MonitorInv.step (inv : MonitorInv quota table) (hstep : MonitorStep quota table op table') :
    MonitorInv quota table' := by
  cases op with
  | read client userId key version =>
    rw [hstep.2]
    exact inv
  | put client userId key value ifVersion now outcome =>
    have hput : upsertMonitorSetting table userId key value ifVersion quota now=
      (outcome,table') := hstep
    rcases upsert_cases table userId key value ifVersion quota now with
      ⟨-,v,u,h⟩ | ⟨-,-,what,used,limit,h⟩ | ⟨-,hfits,h⟩
    · rw [←(Prod.mk.inj (h.symm.trans hput)).2]
      exact inv
    · rw [←(Prod.mk.inj (h.symm.trans hput)).2]
      exact inv
    · rw [←(Prod.mk.inj (h.symm.trans hput)).2]
      exact inv.put hfits
  | delete client userId key ifVersion outcome =>
    have hdelete : deleteMonitorSetting table userId key ifVersion=(outcome,table') := hstep
    rcases delete_cases table userId key ifVersion with
      ⟨-,h⟩ | ⟨row,expected,-,-,-,h⟩ | ⟨row,-,-,h⟩
    · rw [←(Prod.mk.inj (h.symm.trans hdelete)).2]
      exact inv
    · rw [←(Prod.mk.inj (h.symm.trans hdelete)).2]
      exact inv
    · rw [←(Prod.mk.inj (h.symm.trans hdelete)).2]
      exact inv.keep _

/-- Every table reached satisfies the invariant. -/
theorem MonitorInv.of_run {history : List MonitorOp}
    (run : Run (MonitorStep quota) Table.empty history table) : MonitorInv quota table :=
  Run.invariant (I:=fun _ table => MonitorInv quota table) (MonitorInv.empty quota)
    (fun _ _ _ _ _ inv hstep => inv.step hstep) run

end

end TokiSync.MonitorInvariant
