import TokiSync.LossyText
import TokiSync.WindowStore

/-!
# Windows under a user id

A user's windows are the entries under the delimited user id. Merging windows
reads and writes such entries only, and a query lists them; it reads the
anchor at the end of each key before it decodes the value. Deleting a user
drops all of them. The sweep of old windows drops the entries of all users
whose anchor lies before the cutoff, in batches of bounded size until none is
left.
-/

namespace TokiSync.WindowQueries

open MachineWords ByteKeys ByteCodec BatchedMaps FieldwiseMerge WireWindows WindowMerge FjallStore
open LossyText WindowStore

/-- Anchor in the trailing eight bytes of a key that has as many. -/
def keyAnchor (key : Bytes) : Option Int64 :=
  if key.length≥8 then some (fromBeBytes (key.drop (key.length-8))) else none

/-- What a query reads from one entry under the prefix. -/
def queriedWindow (bincode : Codec WireWindow) (start : Bytes) (sinceMs : Int64)
    (kv : Bytes×Bytes) : Option (String×WireWindow) :=
  match (kv.1.drop start.length).findIdx? fun b => b=0 with
  | none => none
  | some sep =>
    if (keyAnchor kv.1).any fun a => a<sinceMs then none
    else match decodeWindow bincode kv.2 with
      | none => none
      | some w =>
        if w.windowEndMs≥sinceMs then
          some (fromUtf8Lossy ((kv.1.drop start.length).take sep),w)
        else none

/-- Windows of a user that end at the given time or later, with their
providers. -/
def queryUserWindows (bincode : Codec WireWindow) (db : Db) (userId : String) (sinceMs : Int64) :
    List (String×WireWindow) :=
  let start := delimited (utf8 userId)
  (keyspacePrefix (db .windows) start).filterMap (queriedWindow bincode start sinceMs)

/-- Whether the anchor of a key lies before the cutoff. -/
def isStale (cutoffMs : Int64) (key : Bytes) : Bool := (keyAnchor key).any fun a => a<cutoffMs

/-- Entries of old windows, of all users. -/
def staleWindows (db : Db) (cutoffMs : Int64) : List (Bytes×Bytes) :=
  (db .windows).toList.filter fun kv => isStale cutoffMs kv.1

/-- Every row sits under the key of its identity and is what its user and
provider may have. -/
def RowsKeyed (bincode : Codec WireWindow) (P : String → String → WireWindow → Prop) (db : Db) :
    Prop :=
  ∀ k v : Bytes, (db .windows)[k]?=some v → ∃ u p w, Clean u p w.id ∧ P u p w ∧
    k=windowRowKey u p w.id ∧ v=encodeWindow bincode w

/-- Most entries that one batch of the sweep removes. -/
def sweepBatch : ℕ := 10000

/-- Remove entries of windows one after another. -/
def removeWindows (db : Db) (entries : List (Bytes×Bytes)) : Db :=
  commit db (entries.map fun kv => .remove .windows kv.1)

/-- Drop all windows of a user. -/
def deleteUserWindows (db : Db) (userId : String) : Db :=
  removeWindows db (keyspacePrefix (db .windows) (delimited (utf8 userId)))

section

variable {db : Db} {cutoffMs : Int64}

/-- Entries that are removed are gone and all others stay. -/
theorem get_removeWindows_iff {entries : List (Bytes×Bytes)} {name : KeyspaceName} {k v : Bytes} :
    (removeWindows db entries name)[k]?=some v ↔
      (db name)[k]?=some v ∧ ¬(name=.windows ∧ k∈entries.map Prod.fst) := by
  have hnone : ∀ op∈entries.map fun kv => (BatchOp.remove .windows kv.1 : Write),
      op.content=none := by
    intro op hop
    obtain ⟨kv,-,rfl⟩ := List.mem_map.mp hop
    rfl
  have hcell : (name,k)∈(entries.map fun kv => (BatchOp.remove .windows kv.1 : Write)).map
      BatchOp.cell ↔ name=.windows ∧ k∈entries.map Prod.fst := by
    simp only [List.map_map,List.mem_map,Function.comp_apply,BatchOp.cell,Prod.mk.injEq]
    constructor
    · rintro ⟨kv,hkv,rfl,rfl⟩
      exact ⟨rfl,kv,hkv,rfl⟩
    · rintro ⟨rfl,kv,hkv,rfl⟩
      exact ⟨kv,hkv,rfl,rfl⟩
  rw [removeWindows,get_commit_removes hnone,←hcell]
  split_ifs with h
  · exact ⟨fun hv => (by cases hv),fun hv => absurd h hv.2⟩
  · exact ⟨fun hv => ⟨hv,h⟩,And.left⟩

/-- Entries of old windows are the entries with an anchor before the cutoff. -/
theorem mem_staleWindows {kv : Bytes×Bytes} :
    kv∈staleWindows db cutoffMs ↔ (db .windows)[kv.1]?=some kv.2 ∧ isStale cutoffMs kv.1=true := by
  rw [staleWindows,List.mem_filter,←Std.ExtTreeMap.mem_toList_iff_getElem?_eq_some]

/-- No entry is listed twice. -/
theorem nodup_staleWindows (db : Db) (cutoffMs : Int64) : (staleWindows db cutoffMs).Nodup := by
  refine List.Nodup.filter _ ?_
  refine Std.ExtTreeMap.distinct_keys_toList.imp fun {a b} hne heq => hne ?_
  rw [heq,Std.LawfulEqCmp.compare_eq_iff_eq]

/-- A batch of the sweep leaves fewer old windows. -/
theorem length_staleWindows_sweep (h : staleWindows db cutoffMs≠[]) :
    (staleWindows (removeWindows db ((staleWindows db cutoffMs).take sweepBatch))
      cutoffMs).length<(staleWindows db cutoffMs).length := by
  cases hstale : staleWindows db cutoffMs with
  | nil => exact absurd hstale h
  | cons kv rest =>
    have hsub : staleWindows (removeWindows db ((kv::rest).take sweepBatch)) cutoffMs⊆rest := by
      intro x hx
      obtain ⟨hget,hold⟩ := mem_staleWindows.mp hx
      obtain ⟨hget,hkept⟩ := get_removeWindows_iff.mp hget
      have hmem : x∈kv::rest := by
        rw [←hstale]
        exact mem_staleWindows.mpr ⟨hget,hold⟩
      rcases List.mem_cons.mp hmem with rfl | hmem
      · refine absurd ⟨rfl,?_⟩ hkept
        exact List.mem_map_of_mem (List.mem_cons_self (l:=rest.take (sweepBatch-1)))
      · exact hmem
    have hle := (List.subperm_of_subset (nodup_staleWindows _ _) hsub).length_le
    rw [List.length_cons]
    omega

end

/-- The loop of the sweep: remove a batch of old windows while there are
any. -/
def cleanupOldWindows (db : Db) (cutoffMs : Int64) : Db :=
  if staleWindows db cutoffMs=[] then db
  else cleanupOldWindows (removeWindows db ((staleWindows db cutoffMs).take sweepBatch)) cutoffMs
termination_by (staleWindows db cutoffMs).length
decreasing_by exact length_staleWindows_sweep ‹_›

section

variable {bincode : Codec WireWindow} {db db' : Db}

/-- The sweep drops exactly the old windows. -/
theorem get_cleanupOldWindows_iff {cutoffMs : Int64} {name : KeyspaceName} {k v : Bytes} :
    (cleanupOldWindows db cutoffMs name)[k]?=some v ↔
      (db name)[k]?=some v ∧ ¬(name=.windows ∧ isStale cutoffMs k=true) := by
  fun_induction cleanupOldWindows db cutoffMs with
  | case1 db hnone =>
    refine ⟨fun hv => ⟨hv,?_⟩,And.left⟩
    rintro ⟨rfl,hold⟩
    have hmem : (k,v)∈staleWindows db cutoffMs := mem_staleWindows.mpr ⟨hv,hold⟩
    rw [hnone] at hmem
    cases hmem
  | case2 db hsome ih =>
    rw [ih,get_removeWindows_iff]
    constructor
    · rintro ⟨⟨hv,-⟩,hold⟩
      exact ⟨hv,hold⟩
    · rintro ⟨hv,hold⟩
      refine ⟨⟨hv,?_⟩,hold⟩
      rintro ⟨rfl,hmem⟩
      obtain ⟨kv,hkv,rfl⟩ := List.mem_map.mp hmem
      exact hold ⟨rfl,(mem_staleWindows.mp (List.mem_of_mem_take hkv)).2⟩

/-- Deleting a user's windows drops exactly the entries under the user id. -/
theorem get_deleteUserWindows_iff {userId : String} {name : KeyspaceName} {k v : Bytes} :
    (deleteUserWindows db userId name)[k]?=some v ↔
      (db name)[k]?=some v ∧ ¬(name=.windows ∧ delimited (utf8 userId)<+:k) := by
  rw [deleteUserWindows,get_removeWindows_iff]
  refine and_congr_right fun hv => not_congr (and_congr_right fun hname => ?_)
  rw [hname] at hv
  simp only [keyspacePrefix,List.mem_map,List.mem_filter,decide_eq_true_eq,Prod.exists,
    Std.ExtTreeMap.mem_toList_iff_getElem?_eq_some]
  constructor
  · rintro ⟨x,row,⟨-,hpre⟩,rfl⟩
    exact hpre
  · intro hpre
    exact ⟨k,v,⟨hv,hpre⟩,rfl⟩

/-- Keys under one user id are not under another one. -/
theorem not_prefix_of_ne {userId user : String} (hu : NulFree (utf8 userId))
    (hv : NulFree (utf8 user)) (hne : user≠userId) {k : Bytes} (hk : delimited (utf8 userId)<+:k) :
    ¬delimited (utf8 user)<+:k := by
  obtain ⟨rest,rfl⟩ := hk
  rw [delimited_prefix_iff hv hu]
  exact fun heq => hne (utf8_injective heq)

/-- Merging a window touches the entries under the user id only. -/
theorem get_upsertWindow_of_other {user provider : String} {acc : Db×ℕ} {w : WireWindow}
    {name : KeyspaceName} {k : Bytes} (hother : ¬(name=.windows ∧ delimited (utf8 user)<+:k)) :
    ((upsertWindow bincode user provider acc w).1 name)[k]?=(acc.1 name)[k]? := by
  have hput : ∀ v : Bytes, (applyOp acc.1 (.insert .windows
      (windowRowKey user provider w.id) v) name)[k]?=(acc.1 name)[k]? := by
    intro v
    rw [get_applyOp,if_neg]
    intro hcell
    rw [BatchOp.cell,Prod.mk.injEq] at hcell
    refine hother ⟨hcell.1,?_⟩
    rw [hcell.2,windowRowKey]
    exact List.prefix_append _ _
  unfold upsertWindow
  dsimp only
  split
  · split
    · split_ifs
      · rfl
      · exact hput _
    · rfl
    · exact hput _
  · exact hput _

/-- Merging windows touches the entries under the user id only. -/
theorem get_upsertWindows_of_other {user provider : String} {items : List WireWindow}
    {name : KeyspaceName} {k : Bytes} (hother : ¬(name=.windows ∧ delimited (utf8 user)<+:k)) :
    ((upsertWindows bincode db user provider items).1 name)[k]?=(db name)[k]? := by
  have hfold : ∀ acc : Db×ℕ, ((items.foldl (upsertWindow bincode user provider) acc).1
      name)[k]?=(acc.1 name)[k]? := by
    induction items with
    | nil => exact fun _ => rfl
    | cons w items ih =>
      intro acc
      rw [List.foldl_cons,ih,get_upsertWindow_of_other hother]
  exact hfold (db,0)

/-- Merging a window reads the entries under the user id only. -/
theorem get_upsertWindow_congr {user provider : String} {acc acc' : Db×ℕ} {w : WireWindow}
    (hsame : ∀ k : Bytes, delimited (utf8 user)<+:k →
      (acc.1 .windows)[k]?=(acc'.1 .windows)[k]?) {k : Bytes} (hk : delimited (utf8 user)<+:k) :
    ((upsertWindow bincode user provider acc w).1 .windows)[k]?=
      ((upsertWindow bincode user provider acc' w).1 .windows)[k]? := by
  have hrow : (acc.1 .windows)[windowRowKey user provider w.id]?=
      (acc'.1 .windows)[windowRowKey user provider w.id]? :=
    hsame _ (List.prefix_append _ _)
  have hput : ∀ v : Bytes, (applyOp acc.1 (.insert .windows
      (windowRowKey user provider w.id) v) .windows)[k]?=
        (applyOp acc'.1 (.insert .windows (windowRowKey user provider w.id) v) .windows)[k]? := by
    intro v
    rw [get_applyOp,get_applyOp,hsame k hk]
  unfold upsertWindow
  dsimp only
  rw [hrow]
  split
  · split
    · split_ifs
      · exact hsame k hk
      · exact hput _
    · exact hsame k hk
    · exact hput _
  · exact hput _

/-- Merging windows reads the entries under the user id only. -/
theorem get_upsertWindows_congr {user provider : String} {items : List WireWindow}
    (hsame : ∀ k : Bytes, delimited (utf8 user)<+:k → (db .windows)[k]?=(db' .windows)[k]?)
    {k : Bytes} (hk : delimited (utf8 user)<+:k) :
    ((upsertWindows bincode db user provider items).1 .windows)[k]?=
      ((upsertWindows bincode db' user provider items).1 .windows)[k]? := by
  have hfold : ∀ acc acc' : Db×ℕ, (∀ k : Bytes, delimited (utf8 user)<+:k →
      (acc.1 .windows)[k]?=(acc'.1 .windows)[k]?) →
      ((items.foldl (upsertWindow bincode user provider) acc).1 .windows)[k]?=
        ((items.foldl (upsertWindow bincode user provider) acc').1 .windows)[k]? := by
    induction items with
    | nil => exact fun _ _ hacc => hacc k hk
    | cons w items ih =>
      intro acc acc' hacc
      exact ih _ _ fun k hk => get_upsertWindow_congr hacc hk
  exact hfold (db,0) (db',0) hsame

/-- Keyspaces that agree on the keys with a prefix have the same entries
there. -/
theorem keyspacePrefix_congr {keyspace keyspace' : Keyspace} {start : Bytes}
    (h : ∀ k : Bytes, start<+:k → keyspace[k]?=keyspace'[k]?) :
    keyspacePrefix keyspace start=keyspacePrefix keyspace' start := by
  have hfilter : keyspace.filter (fun k _ => decide (start<+:k))=
      keyspace'.filter (fun k _ => decide (start<+:k)) := by
    refine Std.ExtTreeMap.ext_getElem? fun k => ?_
    rw [Std.ExtTreeMap.getElem?_filter',Std.ExtTreeMap.getElem?_filter']
    by_cases hk : start<+:k
    · rw [h k hk]
    · simp only [hk,decide_false]
      cases keyspace[k]? <;> cases keyspace'[k]? <;> rfl
  have hlist := congrArg Std.ExtTreeMap.toList hfilter
  rwa [Std.ExtTreeMap.toList_filter,Std.ExtTreeMap.toList_filter] at hlist

/-- A query depends on the entries under the user id only. -/
theorem queryUserWindows_congr {userId : String}
    (h : ∀ k : Bytes, delimited (utf8 userId)<+:k → (db .windows)[k]?=(db' .windows)[k]?)
    (sinceMs : Int64) : queryUserWindows bincode db userId sinceMs=
      queryUserWindows bincode db' userId sinceMs := by
  rw [queryUserWindows,queryUserWindows,keyspacePrefix_congr h]

/-- A component is read up to its delimiter. -/
theorem findIdx?_delimited {bytes rest : Bytes} (h : NulFree bytes) :
    (delimited bytes++rest).findIdx? (fun b => b=0)=some bytes.length := by
  have hnone : bytes.findIdx? (fun b => b=0)=none := by
    refine List.findIdx?_eq_none_iff.mpr fun b hb => decide_eq_false fun hzero => h ?_
    rw [←hzero]
    exact hb
  rw [delimited,List.append_assoc,List.findIdx?_append,hnone,Option.none_or,List.singleton_append,
    List.findIdx?_cons,if_pos (decide_eq_true rfl),Option.map_some,Nat.zero_add]

/-- The anchor is read from the end of a key. -/
theorem keyAnchor_append (front : Bytes) (anchor : Int64) :
    keyAnchor (front++toBeBytes anchor)=some anchor := by
  have hlength : (front++toBeBytes anchor).length=front.length+8 := by
    rw [List.length_append,toBeBytes_length]
  rw [keyAnchor,hlength,if_pos (Nat.le_add_left 8 _),Nat.add_sub_cancel,List.drop_left,
    fromBeBytes_toBeBytes]

/-- The anchor of a row key is the end of its window. -/
theorem keyAnchor_windowRowKey (userId provider : String) (id : WindowId) :
    keyAnchor (windowRowKey userId provider id)=some id.windowEndMs := by
  have hkey : windowRowKey userId provider id=
      (delimited (utf8 userId)++(delimited (utf8 provider)++(delimited (utf8 id.limitId)++
        (delimited (utf8 id.account)++[id.windowKind]))))++toBeBytes id.windowEndMs := by
    simp only [windowRowKey,List.append_assoc,List.cons_append,List.nil_append]
  rw [hkey,keyAnchor_append]

/-- What a query reads from the row of a window. -/
theorem queriedWindow_windowRowKey {userId provider : String} {w : WireWindow}
    (h : NulFree (utf8 provider)) (sinceMs : Int64) :
    queriedWindow bincode (delimited (utf8 userId)) sinceMs
      (windowRowKey userId provider w.id,encodeWindow bincode w)=
        if w.windowEndMs≥sinceMs then some (provider,w) else none := by
  rw [queriedWindow]
  dsimp only
  rw [keyAnchor_windowRowKey,decodeWindow_encodeWindow,windowRowKey,List.drop_left,
    findIdx?_delimited h,delimited,List.append_assoc]
  dsimp only
  rw [List.take_left,fromUtf8Lossy_utf8,Option.any_some]
  by_cases hend : w.windowEndMs≥sinceMs
  · rw [if_pos hend,if_neg]
    rw [decide_eq_true_eq]
    exact not_lt.mpr hend
  · rw [if_neg hend,ite_self]

/-- A query lists the user's rows that end at the given time or later. -/
theorem mem_queryUserWindows_of_keyed {P : String → String → WireWindow → Prop}
    (h : RowsKeyed bincode P db) {userId : String} (hu : NulFree (utf8 userId)) {sinceMs : Int64}
    {provider : String} {w : WireWindow} : (provider,w)∈queryUserWindows bincode db userId sinceMs ↔
      Clean userId provider w.id ∧ w.windowEndMs≥sinceMs ∧
        (db .windows)[windowRowKey userId provider w.id]?=some (encodeWindow bincode w) := by
  simp only [queryUserWindows,keyspacePrefix,List.mem_filterMap,List.mem_filter,
    decide_eq_true_eq,Prod.exists,Std.ExtTreeMap.mem_toList_iff_getElem?_eq_some]
  constructor
  · rintro ⟨k,v,⟨hv,hpre⟩,hread⟩
    obtain ⟨user,name,x,hclean,-,rfl,rfl⟩ := h k v hv
    rw [windowRowKey,delimited_prefix_iff hu hclean.1] at hpre
    cases utf8_injective hpre
    rw [queriedWindow_windowRowKey hclean.2.1,Option.ite_none_right_eq_some] at hread
    obtain ⟨hend,hread⟩ := hread
    cases hread
    exact ⟨hclean,hend,hv⟩
  · rintro ⟨hclean,hend,hv⟩
    refine ⟨_,_,⟨hv,List.prefix_append _ _⟩,?_⟩
    rw [queriedWindow_windowRowKey hclean.2.1,if_pos hend]

end

end TokiSync.WindowQueries
