import TokiSync.WindowQueries

/-!
# The loop of the window sweep

A round of the sweep scans the whole keyspace of windows and collects the keys
of old rows, but stops as soon as it holds a batch of them. It removes these
one after another and counts them, and the loop ends at the first round that
collects none. The loop is written with a bound on its rounds; one more round
than there are batches is always enough.
-/

namespace TokiSync.WindowSweeps

open MachineWords ByteKeys BatchedMaps FjallStore WindowQueries

/-- Keys of old rows among the rows of a scan, which stops when it holds a
batch of them. -/
def collectStale (cutoffMs : Int64) : List Bytes → List (Bytes×Bytes) → List Bytes
  | stale,[] => stale
  | stale,kv::rows =>
    if isStale cutoffMs kv.1 then
      if (stale++[kv.1]).length≥sweepBatch then stale++[kv.1]
      else collectStale cutoffMs (stale++[kv.1]) rows
    else collectStale cutoffMs stale rows

/-- Remove keys of windows one after another. -/
def removeKeys (db : Db) (keys : List Bytes) : Db :=
  commit db (keys.map fun key => .remove .windows key)

/-- The rounds of the sweep, with the number of rows removed so far. Nothing is
returned when the bound on the rounds is used up. -/
def sweepLoop (cutoffMs : Int64) : ℕ → ℕ → Db → Option (ℕ×Db)
  | 0,_,_ => none
  | rounds+1,removed,db =>
    let stale := collectStale cutoffMs [] (db .windows).toList
    if stale=[] then some (removed,db)
    else sweepLoop cutoffMs rounds (removed+stale.length) (removeKeys db stale)

section

variable {cutoffMs : Int64} {db : Db}

/-- The keys that a scan collects. -/
theorem collectStale_eq (rows : List (Bytes×Bytes)) {stale : List Bytes}
    (h : stale.length< sweepBatch) :
    collectStale cutoffMs stale rows=stale++
      ((rows.filter fun kv => isStale cutoffMs kv.1).take (sweepBatch-stale.length)).map
        Prod.fst := by
  induction rows generalizing stale with
  | nil => simp only [collectStale,List.filter_nil,List.take_nil,List.map_nil,List.append_nil]
  | cons kv rows ih =>
    rw [collectStale]
    by_cases hold : isStale cutoffMs kv.1=true
    · have hlength : (stale++[kv.1]).length=stale.length+1 := by
        rw [List.length_append,List.length_singleton]
      rw [if_pos hold,List.filter_cons_of_pos (by exact hold)]
      split_ifs with hfull
      · have hone : sweepBatch-stale.length=1 := by omega
        rw [hone,List.take_one,List.head?_cons,Option.toList_some,List.map_singleton]
      · have hmore : sweepBatch-stale.length=sweepBatch-(stale.length+1)+1 := by omega
        rw [ih (by omega),hlength,hmore,List.take_succ_cons,List.map_cons,List.append_assoc,
          List.singleton_append]
    · rw [if_neg hold,List.filter_cons_of_neg (by exact hold)]
      exact ih h

/-- A round collects the keys of one batch of old rows. -/
theorem collectStale_scan (db : Db) (cutoffMs : Int64) :
    collectStale cutoffMs [] (db .windows).toList=
      ((staleWindows db cutoffMs).take sweepBatch).map Prod.fst :=
  collectStale_eq _ (by decide)

/-- Removing the collected keys removes the batch. -/
theorem removeKeys_map (entries : List (Bytes×Bytes)) :
    removeKeys db (entries.map Prod.fst)=removeWindows db entries := by
  rw [removeKeys,removeWindows,List.map_map]
  rfl

/-- Keys of old rows are listed once. -/
theorem nodup_staleKeys (db : Db) (cutoffMs : Int64) :
    ((staleWindows db cutoffMs).map Prod.fst).Nodup := by
  refine (nodup_staleWindows db cutoffMs).map_on fun a ha b hb hkey => ?_
  obtain ⟨hga,-⟩ := mem_staleWindows.mp ha
  obtain ⟨hgb,-⟩ := mem_staleWindows.mp hb
  rw [hkey,hgb,Option.some.injEq] at hga
  exact Prod.ext hkey hga.symm

/-- After a round the old rows are those beyond the batch. -/
theorem perm_staleWindows_sweep (db : Db) (cutoffMs : Int64) :
    (staleWindows (removeWindows db ((staleWindows db cutoffMs).take sweepBatch)) cutoffMs).Perm
      ((staleWindows db cutoffMs).drop sweepBatch) := by
  have hkeys := nodup_staleKeys db cutoffMs
  have hsplit := List.take_append_drop sweepBatch (staleWindows db cutoffMs)
  rw [←hsplit,List.map_append,List.nodup_append'] at hkeys
  refine (List.perm_ext_iff_of_nodup (nodup_staleWindows _ _)
    ((List.drop_sublist _ _).nodup (nodup_staleWindows db cutoffMs))).mpr fun kv => ?_
  rw [mem_staleWindows,get_removeWindows_iff]
  constructor
  · rintro ⟨⟨hget,hkept⟩,hold⟩
    have hmem : kv∈staleWindows db cutoffMs := mem_staleWindows.mpr ⟨hget,hold⟩
    rw [←hsplit,List.mem_append] at hmem
    rcases hmem with hmem | hmem
    · exact absurd ⟨rfl,List.mem_map_of_mem hmem⟩ hkept
    · exact hmem
  · intro hmem
    obtain ⟨hget,hold⟩ := mem_staleWindows.mp (List.mem_of_mem_drop hmem)
    refine ⟨⟨hget,fun hremoved => ?_⟩,hold⟩
    exact hkeys.2.2 hremoved.2 (List.mem_map_of_mem hmem)

/-- The old rows that a round leaves. -/
theorem length_staleWindows_round (db : Db) (cutoffMs : Int64) :
    (staleWindows (removeWindows db ((staleWindows db cutoffMs).take sweepBatch)) cutoffMs).length=
      (staleWindows db cutoffMs).length-sweepBatch := by
  rw [(perm_staleWindows_sweep db cutoffMs).length_eq,List.length_drop]

/-- A round that finds no old row ends the loop. -/
theorem sweepLoop_done (rounds removed : ℕ) (h : staleWindows db cutoffMs=[]) :
    sweepLoop cutoffMs (rounds+1) removed db=some (removed,db) := by
  have hnone : collectStale cutoffMs [] (db .windows).toList=[] := by
    rw [collectStale_scan,h,List.take_nil,List.map_nil]
  rw [sweepLoop,hnone,if_pos rfl]

/-- A round that finds old rows removes and counts one batch. -/
theorem sweepLoop_round (rounds removed : ℕ) (h : staleWindows db cutoffMs≠[]) :
    sweepLoop cutoffMs (rounds+1) removed db=
      sweepLoop cutoffMs rounds (removed+min sweepBatch (staleWindows db cutoffMs).length)
        (removeWindows db ((staleWindows db cutoffMs).take sweepBatch)) := by
  have hbatch : ((staleWindows db cutoffMs).take sweepBatch).map Prod.fst≠[] := by
    rw [Ne,List.map_eq_nil_iff,List.take_eq_nil_iff]
    exact not_or.mpr ⟨by decide,h⟩
  rw [sweepLoop,collectStale_scan,if_neg hbatch,removeKeys_map,List.length_map,List.length_take]

/-- With one more round than there are batches, the loop returns the number of
old rows and the swept keyspaces. -/
theorem sweepLoop_eq {rounds : ℕ} (removed : ℕ) (db : Db)
    (h : (staleWindows db cutoffMs).length≤rounds*sweepBatch) :
    sweepLoop cutoffMs (rounds+1) removed db=
      some (removed+(staleWindows db cutoffMs).length,cleanupOldWindows db cutoffMs) := by
  induction rounds generalizing removed db with
  | zero =>
    have hnone : staleWindows db cutoffMs=[] := List.eq_nil_of_length_eq_zero (by omega)
    rw [sweepLoop_done 0 removed hnone,cleanupOldWindows,if_pos hnone,hnone,List.length_nil,
      Nat.add_zero]
  | succ rounds ih =>
    by_cases hnone : staleWindows db cutoffMs=[]
    · rw [sweepLoop_done _ removed hnone,cleanupOldWindows,if_pos hnone,hnone,List.length_nil,
        Nat.add_zero]
    · have hleft := length_staleWindows_round db cutoffMs
      rw [Nat.succ_mul] at h
      have hswept : cleanupOldWindows db cutoffMs=cleanupOldWindows
          (removeWindows db ((staleWindows db cutoffMs).take sweepBatch)) cutoffMs := by
        rw [cleanupOldWindows,if_neg hnone]
      have hcount : removed+min sweepBatch (staleWindows db cutoffMs).length+
          ((staleWindows db cutoffMs).length-sweepBatch)=
            removed+(staleWindows db cutoffMs).length := by omega
      rw [sweepLoop_round _ removed hnone,ih _ _ (by omega),hleft,hswept,hcount]

/-- A key has an anchor before the cutoff. -/
theorem isStale_iff {key : Bytes} : isStale cutoffMs key=true ↔
    8≤key.length ∧ fromBeBytes (key.drop (key.length-8))<cutoffMs := by
  rw [isStale,keyAnchor]
  by_cases hlong : key.length≥8
  · rw [if_pos hlong,Option.any_some,decide_eq_true_iff]
    exact ⟨fun h => ⟨hlong,h⟩,And.right⟩
  · rw [if_neg hlong,Option.any_none]
    exact ⟨fun h => (by cases h),fun h => absurd h.1 hlong⟩

end

/-- The sweep of old windows ends within one round more than it needs batches.
It returns how many rows have an anchor before the cutoff; exactly these are
gone, and every other row of every keyspace is as before. -/
theorem cleanupOldWindows_exact (db : Db) (cutoffMs : Int64) :
    ∃ removed db',
      (∀ rounds, removed≤rounds*sweepBatch →
        sweepLoop cutoffMs (rounds+1) 0 db=some (removed,db')) ∧
      removed=((db .windows).toList.filter fun kv => decide
        (8≤kv.1.length ∧ fromBeBytes (kv.1.drop (kv.1.length-8))<cutoffMs)).length ∧
      ∀ (name : KeyspaceName) (k v : Bytes), (db' name)[k]?=some v ↔ (db name)[k]?=some v ∧
        ¬(name=.windows ∧ 8≤k.length ∧ fromBeBytes (k.drop (k.length-8))<cutoffMs) := by
  refine ⟨(staleWindows db cutoffMs).length,cleanupOldWindows db cutoffMs,?_,?_,?_⟩
  · intro rounds h
    rw [sweepLoop_eq 0 db h,Nat.zero_add]
  · rw [staleWindows]
    congr 1
    refine List.filter_congr fun kv _ => ?_
    rw [Bool.eq_iff_iff,isStale_iff,decide_eq_true_iff]
  · intro name k v
    rw [get_cleanupOldWindows_iff,←isStale_iff]

end TokiSync.WindowSweeps
