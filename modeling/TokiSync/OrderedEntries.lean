import Mathlib.Order.Lattice
import Mathlib.Data.List.Basic
import Mathlib.Data.List.Perm.Basic

/-!
# Maps as association lists in key order

Iterating over such a map visits its entries in ascending key order, so two
maps with the same content are the same list. The only update is the entry
update: what is stored under one key is replaced by a function of it, and a
missing key is entered at its place. Nothing here mentions a program.
-/

namespace TokiSync.OrderedEntries

variable {κ ν α : Type} [LinearOrder κ]

/-- What is stored under a key; the search ends at the first larger key. -/
def lookup (k : κ) : List (κ×ν) → Option ν
  | [] => none
  | (j,v)::rest => if k<j then none else if k=j then some v else lookup k rest

/-- Replace what is stored under a key, entering a missing key at its place. -/
def place (k : κ) (f : Option ν → ν) : List (κ×ν) → List (κ×ν)
  | [] => [(k,f none)]
  | (j,v)::rest =>
    if k<j then (k,f none)::(j,v)::rest
    else if k=j then (j,f (some v))::rest
    else (j,v)::place k f rest

/-- Keys ascend along the list. -/
def Ascending (entries : List (κ×ν)) : Prop := entries.Pairwise fun a b => a.1<b.1

/-- An update is seen under its own key and nowhere else. -/
theorem lookup_place (k j : κ) (f : Option ν → ν) (entries : List (κ×ν)) :
    lookup j (place k f entries)=if j=k then some (f (lookup k entries)) else lookup j entries := by
  induction entries with
  | nil =>
    by_cases hj : j=k
    · simp [place,lookup,hj]
    · simp [place,lookup,hj]
  | cons head rest ih =>
    obtain ⟨i,v⟩ := head
    rcases lt_trichotomy k i with hk | hk | hk
    · -- entered before the first entry
      rw [place,if_pos hk]
      have hnone : lookup k ((i,v)::rest)=none := by rw [lookup,if_pos hk]
      rw [hnone,lookup]
      rcases lt_trichotomy j k with hj | hj | hj
      · rw [if_pos hj,if_neg hj.ne,lookup,if_pos (hj.trans hk)]
      · rw [if_neg (by rw [hj]; exact lt_irrefl k),if_pos hj]
      · rw [if_neg (not_lt_of_gt hj),if_neg hj.ne']
    · -- the first entry is updated
      subst hk
      rw [place,if_neg (lt_irrefl k),if_pos rfl]
      simp only [lookup,lt_irrefl,if_false,if_true]
      rcases lt_trichotomy j k with hj | hj | hj
      · simp [hj,hj.ne]
      · simp [hj]
      · simp [not_lt_of_gt hj,hj.ne']
    · -- the update happens behind the first entry
      rw [place,if_neg (not_lt_of_gt hk),if_neg hk.ne']
      have hold : lookup k ((i,v)::rest)=lookup k rest := by
        rw [lookup,if_neg (not_lt_of_gt hk),if_neg hk.ne']
      rw [hold,lookup,lookup,ih]
      by_cases hj : j=k
      · simp only [hj,not_lt_of_gt hk,hk.ne',if_false,if_true]
      · simp only [if_neg hj]

/-- Updating a stored key keeps the length, a missing one adds an entry. -/
theorem length_place (k : κ) (f : Option ν → ν) (entries : List (κ×ν)) :
    (place k f entries).length=entries.length+if (lookup k entries).isSome then 0 else 1 := by
  induction entries with
  | nil => simp [place,lookup]
  | cons head rest ih =>
    obtain ⟨i,v⟩ := head
    rcases lt_trichotomy k i with hk | hk | hk
    · simp [place,lookup,hk]
    · simp [place,lookup,hk]
    · simp only [place,lookup,if_neg (not_lt_of_gt hk),if_neg hk.ne',List.length_cons,ih]
      omega

/-- Every key of an updated list is the updated one or an old one. -/
theorem fst_of_mem_place {k : κ} {f : Option ν → ν} {entries : List (κ×ν)} {e : κ×ν}
    (h : e∈place k f entries) : e.1=k ∨ ∃ v, (e.1,v)∈entries := by
  induction entries with
  | nil =>
    simp only [place,List.mem_singleton] at h
    exact .inl (by rw [h])
  | cons head rest ih =>
    obtain ⟨j,v⟩ := head
    rw [place] at h
    split_ifs at h with hlt heq
    · rcases List.mem_cons.mp h with h | h
      · exact .inl (by rw [h])
      · exact .inr ⟨e.2,h⟩
    · rcases List.mem_cons.mp h with h | h
      · exact .inl (by rw [h,heq])
      · exact .inr ⟨e.2,List.mem_cons_of_mem _ h⟩
    · rcases List.mem_cons.mp h with h | h
      · exact .inr ⟨v,by rw [h]; exact List.mem_cons_self⟩
      · rcases ih h with h | ⟨w,h⟩
        · exact .inl h
        · exact .inr ⟨w,List.mem_cons_of_mem _ h⟩

/-- An update keeps the keys ascending. -/
theorem Ascending.place {entries : List (κ×ν)} (h : Ascending entries) (k : κ)
    (f : Option ν → ν) : Ascending (place k f entries) := by
  induction entries with
  | nil => exact List.pairwise_singleton _ _
  | cons head rest ih =>
    obtain ⟨j,v⟩ := head
    have hrest := List.pairwise_cons.mp h
    rcases lt_trichotomy k j with hk | hk | hk
    · rw [OrderedEntries.place,if_pos hk]
      refine List.pairwise_cons.mpr ⟨?_,h⟩
      intro e he
      rcases List.mem_cons.mp he with he | he
      · rw [he]
        exact hk
      · exact lt_trans hk (hrest.1 e he)
    · rw [OrderedEntries.place,if_neg (by rw [hk]; exact lt_irrefl j),if_pos hk]
      exact List.pairwise_cons.mpr hrest
    · rw [OrderedEntries.place,if_neg (not_lt_of_gt hk),if_neg hk.ne']
      refine List.pairwise_cons.mpr ⟨?_,ih hrest.2⟩
      intro e he
      rcases fst_of_mem_place he with he | ⟨w,he⟩
      · rw [he]
        exact hk
      · exact hrest.1 (e.1,w) he

/-- Ascending keys are distinct, so an entry is what its key finds. -/
theorem lookup_eq_some_iff {entries : List (κ×ν)} (h : Ascending entries) {k : κ} {v : ν} :
    lookup k entries=some v ↔ (k,v)∈entries := by
  induction entries with
  | nil => simp [lookup]
  | cons head rest ih =>
    obtain ⟨j,w⟩ := head
    have hrest := List.pairwise_cons.mp h
    have hlater : k≤j → (k,v)∉rest := by
      intro hle hmem
      exact absurd (hrest.1 (k,v) hmem) (not_lt_of_ge hle)
    rcases lt_trichotomy k j with hk | hk | hk
    · simp [lookup,hk,hk.ne,hlater hk.le]
    · subst hk
      simp [lookup,hlater le_rfl,eq_comm]
    · rw [lookup,if_neg (not_lt_of_gt hk),if_neg hk.ne',ih hrest.2]
      simp [hk.ne']

/-- What an update does to a reading of all entries, when the reading of the
updated entry is its old reading with something in front. -/
theorem flatMap_place_perm (read : κ×ν → List α) {k : κ} {f : Option ν → ν} {added : List α}
    {entries : List (κ×ν)}
    (hf : ∀ old, (read (k,f old)).Perm (added++(old.map fun v => read (k,v)).getD [])) :
    ((place k f entries).flatMap read).Perm (added++entries.flatMap read) := by
  induction entries with
  | nil => simpa [place] using hf none
  | cons head rest ih =>
    obtain ⟨j,v⟩ := head
    rw [place]
    split_ifs with hlt heq
    · have hnew : (read (k,f none)).Perm added := by simpa using hf none
      simpa using hnew.append_right _
    · subst heq
      have hold : (read (k,f (some v))).Perm (added++read (k,v)) := hf (some v)
      simpa [List.append_assoc] using hold.append_right (rest.flatMap read)
    · have hswap : (read (j,v)++(added++rest.flatMap read)).Perm
          (added++(read (j,v)++rest.flatMap read)) := by
        rw [← List.append_assoc,← List.append_assoc]
        exact List.perm_append_comm.append_right _
      simpa using (ih.append_left (read (j,v))).trans hswap

/-- A map: its entries in ascending key order. -/
structure OrderedMap (κ ν : Type) [LinearOrder κ] where
  /-- The entries. -/
  entries : List (κ×ν)
  /-- Keys ascend. -/
  ascending : Ascending entries

namespace OrderedMap

/-- The map without entries. -/
def empty : OrderedMap κ ν := ⟨[],List.Pairwise.nil⟩

/-- What is stored under a key. -/
def get (map : OrderedMap κ ν) (k : κ) : Option ν := lookup k map.entries

/-- Number of entries. -/
def size (map : OrderedMap κ ν) : ℕ := map.entries.length

/-- Replace what is stored under a key. -/
def enter (map : OrderedMap κ ν) (k : κ) (f : Option ν → ν) : OrderedMap κ ν :=
  ⟨place k f map.entries,map.ascending.place k f⟩

@[simp] theorem get_empty (k : κ) : (empty : OrderedMap κ ν).get k=none := rfl

@[simp] theorem size_empty : (empty : OrderedMap κ ν).size=0 := rfl

theorem get_enter (map : OrderedMap κ ν) (k j : κ) (f : Option ν → ν) :
    (map.enter k f).get j=if j=k then some (f (map.get k)) else map.get j :=
  lookup_place k j f map.entries

theorem size_enter (map : OrderedMap κ ν) (k : κ) (f : Option ν → ν) :
    (map.enter k f).size=map.size+if (map.get k).isSome then 0 else 1 :=
  length_place k f map.entries

theorem get_eq_some_iff (map : OrderedMap κ ν) {k : κ} {v : ν} :
    map.get k=some v ↔ (k,v)∈map.entries :=
  lookup_eq_some_iff map.ascending

/-- The keys of a map are distinct. -/
theorem nodup_keys (map : OrderedMap κ ν) : (map.entries.map Prod.fst).Nodup :=
  (List.pairwise_map.mpr map.ascending).imp fun h => h.ne

/-- A key is stored when it is one of the keys. -/
theorem isSome_get_iff (map : OrderedMap κ ν) {k : κ} :
    (map.get k).isSome ↔ k∈map.entries.map Prod.fst := by
  rw [Option.isSome_iff_exists]
  simp only [map.get_eq_some_iff,List.mem_map]
  constructor
  · intro h
    obtain ⟨v,hv⟩ := h
    exact ⟨(k,v),hv,rfl⟩
  · intro h
    obtain ⟨e,he,hk⟩ := h
    exact ⟨e.2,by rw [← hk]; exact he⟩

/-- Maps that store the same are the same. -/
theorem ext_get {left right : OrderedMap κ ν} (h : ∀ k, left.get k=right.get k) : left=right := by
  have hmem : ∀ e, e∈left.entries ↔ e∈right.entries := by
    intro e
    rw [← left.get_eq_some_iff,← right.get_eq_some_iff,h]
  have hnodup : ∀ map : OrderedMap κ ν, map.entries.Nodup := by
    intro map
    refine map.ascending.imp ?_
    rintro a _ hlt rfl
    exact lt_irrefl _ hlt
  have hperm : left.entries.Perm right.entries :=
    (List.perm_ext_iff_of_nodup (hnodup left) (hnodup right)).mpr hmem
  have hentries : left.entries=right.entries :=
    hperm.eq_of_pairwise (fun a b _ _ hab hba => absurd hab (lt_asymm hba)) left.ascending
      right.ascending
  cases left
  cases right
  cases hentries
  rfl

/-- The entries whose keys pass a test. -/
def filterKeys (map : OrderedMap κ ν) (p : κ → Bool) : OrderedMap κ ν :=
  ⟨map.entries.filter fun e => p e.1,map.ascending.filter _⟩

theorem get_filterKeys (map : OrderedMap κ ν) (p : κ → Bool) (k : κ) :
    (map.filterKeys p).get k=if p k then map.get k else none := by
  refine Option.ext fun v => ?_
  rw [(map.filterKeys p).get_eq_some_iff,filterKeys,List.mem_filter,← map.get_eq_some_iff]
  cases p k <;> simp

end OrderedMap

section

variable {ε β : Type} (keep : ε → Bool) (key : ε → κ) (item : ε → β)

/-- Append an item to those of its key, if it is kept. -/
def gather (groups : OrderedMap κ (List β)) (e : ε) : OrderedMap κ (List β) :=
  if keep e then groups.enter (key e) fun items => items.getD []++[item e] else groups

/-- The items kept for a key, in their order. -/
def gathered (k : κ) (es : List ε) : List β :=
  (es.filter fun e => keep e && decide (key e=k)).map item

variable {keep key item} {es : List ε} {k : κ}

/-- What is gathered under a key are its items. -/
theorem get_foldl_gather (groups : OrderedMap κ (List β)) :
    (es.foldl (gather keep key item) groups).get k=
      if gathered keep key item k es=[] then groups.get k
      else some ((groups.get k).getD []++gathered keep key item k es) := by
  induction es generalizing groups with
  | nil => simp [gathered]
  | cons e es ih =>
    rw [List.foldl_cons,ih]
    have hcons : gathered keep key item k (e::es)=
        (if keep e && decide (key e=k) then [item e] else [])++gathered keep key item k es := by
      unfold gathered
      rw [List.filter_cons]
      split <;> rfl
    rw [hcons]
    unfold gather
    cases hkeep : keep e with
    | false => simp
    | true =>
      by_cases hkey : key e=k
      · subst hkey
        simp only [if_true,OrderedMap.get_enter]
        split_ifs <;> simp_all
      · simp [OrderedMap.get_enter,hkey,Ne.symm hkey]

/-- A group holds the items of its key, and is not empty. -/
theorem mem_gather {group : List β} :
    (k,group)∈(es.foldl (gather keep key item) .empty).entries ↔
      group=gathered keep key item k es ∧ gathered keep key item k es≠[] := by
  rw [←OrderedMap.get_eq_some_iff,get_foldl_gather,OrderedMap.get_empty]
  by_cases hnone : gathered keep key item k es=[]
  · simp [hnone]
  · rw [if_neg hnone]
    simp [hnone,eq_comm]

/-- Gathering neither loses nor repeats an item. -/
theorem flatMap_gather_perm (row : κ → β → α) (es : List ε) :
    ((es.foldl (gather keep key item) .empty).entries.flatMap fun g => g.2.map (row g.1)).Perm
      ((es.filter keep).map fun e => row (key e) (item e)) := by
  have run : ∀ (es : List ε) (groups : OrderedMap κ (List β)),
      ((es.foldl (gather keep key item) groups).entries.flatMap fun g => g.2.map (row g.1)).Perm
        ((es.filter keep).map (fun e => row (key e) (item e))++
          groups.entries.flatMap fun g => g.2.map (row g.1)) := by
    intro es
    induction es with
    | nil =>
      intro groups
      exact List.Perm.refl _
    | cons e es ih =>
      intro groups
      refine (ih _).trans ?_
      unfold gather
      by_cases hkeep : keep e
      · rw [if_pos hkeep,List.filter_cons_of_pos hkeep]
        have hentered : ((groups.enter (key e) fun items =>
            items.getD []++[item e]).entries.flatMap fun g => g.2.map (row g.1)).Perm
              ([row (key e) (item e)]++groups.entries.flatMap fun g => g.2.map (row g.1)) := by
          refine flatMap_place_perm _ fun old => ?_
          cases old with
          | none => exact List.Perm.refl _
          | some items =>
            show ((items++[item e]).map (row (key e))).Perm _
            rw [List.map_append]
            exact List.perm_append_comm
        exact (hentered.append_left _).trans List.perm_middle
      · rw [if_neg hkeep,List.filter_cons_of_neg hkeep]
  have h := run es .empty
  have hnil : ((OrderedMap.empty : OrderedMap κ (List β)).entries.flatMap
      fun g => g.2.map (row g.1))=[] := rfl
  rwa [hnil,List.append_nil] at h

end

end TokiSync.OrderedEntries
