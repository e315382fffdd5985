import Mathlib

/-!
# Tables of rows with a primary key

A table is a list of rows of which no two have the same key. A row is looked
up by its key, put in place of the row under its key, and removed by a filter.
Sums over the rows follow a put by difference: the row put comes in and the
row it replaces goes out. Rows, keys and the key of a row are arbitrary.
-/

namespace TokiSync.KeyedRows

/-- Rows with pairwise distinct keys. -/
structure Table {ρ κ : Type} (key : ρ → κ) where
  /-- The rows in any order. -/
  rows : List ρ
  /-- The key is unique. -/
  unique : (rows.map key).Nodup

section

variable {ρ κ : Type} {key : ρ → κ}

/-- The table without rows. -/
def Table.empty : Table key := ⟨[],List.nodup_nil⟩

/-- The rows that pass a test. -/
def Table.keep (table : Table key) (p : ρ → Bool) : Table key where
  rows := table.rows.filter p
  unique := table.unique.sublist (List.filter_sublist.map key)

/-- Tables with the same rows are the same. -/
theorem Table.ext_rows {table table' : Table key} (h : table.rows=table'.rows) : table=table' := by
  cases table
  cases table'
  cases h
  rfl

/-- Rows with the same key are the same. -/
theorem Table.eq_of_key {table : Table key} {row row' : ρ} (h : row∈table.rows)
    (h' : row'∈table.rows) (hkey : key row=key row') : row=row' :=
  List.inj_on_of_nodup_map table.unique h h' hkey

theorem Table.mem_keep {table : Table key} {p : ρ → Bool} {row : ρ} :
    row∈(table.keep p).rows ↔ row∈table.rows ∧ p row=true := List.mem_filter

variable [DecidableEq κ]

/-- The row under a key. -/
def Table.find (table : Table key) (k : κ) : Option ρ :=
  table.rows.find? fun row => key row=k

/-- The table with a row in place of the one under its key. -/
def Table.put (table : Table key) (row : ρ) : Table key where
  rows := (table.keep fun other => key other≠key row).rows++[row]
  unique := by
    rw [List.map_append,List.map_singleton,List.nodup_append]
    refine ⟨(table.keep _).unique,List.pairwise_singleton _ _,?_⟩
    intro a ha b hb
    obtain ⟨other,hother,rfl⟩ := List.mem_map.mp ha
    rw [List.mem_singleton.mp hb]
    exact of_decide_eq_true (Table.mem_keep.mp hother).2

/-- A lookup finds the row with the key. -/
theorem Table.find_eq_some {table : Table key} {k : κ} {row : ρ} :
    table.find k=some row ↔ row∈table.rows ∧ key row=k := by
  constructor
  · intro h
    have hkey := List.find?_some (p:=fun row => decide (key row=k)) h
    exact ⟨List.mem_of_find?_eq_some h,of_decide_eq_true hkey⟩
  · rintro ⟨hmem,hkey⟩
    cases hfind : table.find k with
    | none => exact absurd (decide_eq_true hkey) (List.find?_eq_none.mp hfind row hmem)
    | some other =>
      have hother := List.find?_some (p:=fun row => decide (key row=k)) hfind
      rw [table.eq_of_key (List.mem_of_find?_eq_some hfind) hmem
        ((of_decide_eq_true hother).trans hkey.symm)]

/-- A lookup fails when no row has the key. -/
theorem Table.find_eq_none {table : Table key} {k : κ} :
    table.find k=none ↔ ∀ row∈table.rows, key row≠k := by
  rw [Table.find,List.find?_eq_none]
  simp only [decide_eq_true_eq,ne_eq]

@[simp] theorem Table.find_empty (k : κ) : (Table.empty : Table key).find k=none := rfl

theorem Table.mem_put {table : Table key} {row other : ρ} :
    other∈(table.put row).rows ↔ other∈table.rows ∧ key other≠key row ∨ other=row := by
  rw [Table.put,List.mem_append,Table.mem_keep,decide_eq_true_eq,List.mem_singleton]

/-- The row put is found under its key. -/
theorem Table.find_put (table : Table key) (row : ρ) :
    (table.put row).find (key row)=some row :=
  find_eq_some.mpr ⟨mem_put.mpr (Or.inr rfl),rfl⟩

/-- Other keys find what they found before. -/
theorem Table.find_put_of_ne (table : Table key) {row : ρ} {k : κ} (h : key row≠k) :
    (table.put row).find k=table.find k := by
  ext other
  rw [find_eq_some,find_eq_some,mem_put]
  constructor
  · rintro ⟨⟨hmem,-⟩ | rfl,hkey⟩
    · exact ⟨hmem,hkey⟩
    · exact absurd hkey h
  · rintro ⟨hmem,hkey⟩
    exact ⟨Or.inl ⟨hmem,fun heq => h (heq.symm.trans hkey)⟩,hkey⟩

/-- A lookup among the rows that pass a test. -/
theorem Table.find_keep (table : Table key) (p : ρ → Bool) (k : κ) :
    (table.keep p).find k=(table.find k).filter p := by
  ext row
  rw [find_eq_some,mem_keep,Option.filter_eq_some_iff,find_eq_some,and_right_comm]

/-- The table with a row, unless its key is taken. -/
def Table.insertNew (table : Table key) (row : ρ) : Table key :=
  if (table.find (key row)).isSome then table else table.put row

/-- The table with every row of a list whose key is not taken. -/
def Table.insertAllNew (table : Table key) (rows : List ρ) : Table key :=
  rows.foldl Table.insertNew table

theorem Table.insertNew_of_new {table : Table key} {row : ρ} (h : table.find (key row)=none) :
    table.insertNew row=table.put row := by
  rw [Table.insertNew,h]
  rfl

theorem Table.mem_insertNew_of_mem {table : Table key} {row other : ρ} (h : other∈table.rows) :
    other∈(table.insertNew row).rows := by
  cases hfind : table.find (key row) with
  | none =>
    rw [insertNew_of_new hfind,mem_put]
    exact .inl ⟨h,find_eq_none.mp hfind other h⟩
  | some taken =>
    rw [Table.insertNew,hfind]
    exact h

/-- An insertion keeps the rows that are there. -/
theorem Table.mem_insertAllNew_of_mem {table : Table key} {rows : List ρ} {other : ρ}
    (h : other∈table.rows) : other∈(table.insertAllNew rows).rows := by
  induction rows generalizing table with
  | nil => exact h
  | cons row rows ih => exact ih (mem_insertNew_of_mem h)

/-- Rows with distinct keys that are not taken are all inserted. -/
theorem Table.mem_insertAllNew {table : Table key} {rows : List ρ}
    (hdistinct : (rows.map key).Nodup) (hnew : ∀ row∈rows, table.find (key row)=none) {row : ρ}
    (h : row∈rows) : row∈(table.insertAllNew rows).rows := by
  induction rows generalizing table with
  | nil => cases h
  | cons first rows ih =>
    rw [List.map_cons,List.nodup_cons] at hdistinct
    have hput := insertNew_of_new (hnew first List.mem_cons_self)
    rcases List.mem_cons.mp h with heq | hmem
    · have hfirst : first∈(table.insertNew first).rows := by
        rw [hput,mem_put]
        exact .inr rfl
      have hkept : first∈((table.insertNew first).insertAllNew rows).rows :=
        mem_insertAllNew_of_mem hfirst
      rw [heq]
      exact hkept
    · have hnew' : ∀ other∈rows, (table.insertNew first).find (key other)=none := by
        intro other hother
        have hne : key first≠key other :=
          fun heq => hdistinct.1 (heq ▸ List.mem_map_of_mem hother)
        rw [hput,find_put_of_ne table hne]
        exact hnew other (List.mem_cons_of_mem _ hother)
      exact ih hdistinct.2 hnew' hmem

end

section

variable {ρ κ : Type} {key : ρ → κ}

/-- Sum of a weight over the rows. -/
def Table.weigh (table : Table key) (weight : ρ → ℤ) : ℤ := (table.rows.map weight).sum

@[simp] theorem Table.weigh_empty (weight : ρ → ℤ) :
    (Table.empty : Table key).weigh weight=0 := rfl

/-- The sum over a filtered list counts the other rows as zero. -/
theorem sum_map_filter (p : ρ → Bool) (weight : ρ → ℤ) (rows : List ρ) :
    ((rows.filter p).map weight).sum=(rows.map fun row => if p row then weight row else 0).sum := by
  induction rows with
  | nil => rfl
  | cons row rows ih =>
    rw [List.map_cons,List.sum_cons,←ih]
    by_cases hp : p row=true
    · rw [List.filter_cons_of_pos hp,List.map_cons,List.sum_cons,if_pos hp]
    · rw [List.filter_cons_of_neg hp,if_neg hp,zero_add]

/-- The length of a filtered list is a sum as well. -/
theorem length_filter (p : ρ → Bool) (rows : List ρ) :
    ((rows.filter p).length : ℤ)=(rows.map fun row => if p row then 1 else 0).sum := by
  rw [←sum_map_filter p (fun _ => 1),List.map_const',List.sum_replicate,nsmul_eq_mul,mul_one]

theorem Table.weigh_keep (table : Table key) (p : ρ → Bool) (weight : ρ → ℤ) :
    (table.keep p).weigh weight=((table.rows.filter p).map weight).sum := rfl

/-- Dropping rows does not raise the sum of a weight that is never negative. -/
theorem Table.weigh_keep_le {table : Table key} {weight : ρ → ℤ}
    (h : ∀ row∈table.rows, 0≤weight row) (p : ρ → Bool) :
    (table.keep p).weigh weight≤table.weigh weight := by
  rw [Table.weigh_keep,sum_map_filter]
  refine List.sum_le_sum fun row hrow => ?_
  have hnonneg := h row hrow
  split_ifs
  · exact le_refl _
  · exact hnonneg

variable [DecidableEq κ]

/-- What the row under a key weighs, nothing when there is none. -/
def Table.weightAt (table : Table key) (weight : ρ → ℤ) (k : κ) : ℤ :=
  ((table.find k).map weight).getD 0

/-- The rows with other keys weigh what all rows do less the row under the key. -/
theorem Table.weigh_keep_ne (table : Table key) (weight : ρ → ℤ) (k : κ) :
    (table.keep fun row => key row≠k).weigh weight=table.weigh weight-table.weightAt weight k := by
  cases hfind : table.find k with
  | none =>
    have hall : table.rows.filter (fun row => decide (key row≠k))=table.rows :=
      List.filter_eq_self.mpr fun row hrow => decide_eq_true (find_eq_none.mp hfind row hrow)
    rw [Table.weigh_keep,hall,Table.weightAt,hfind,Option.map_none,Option.getD_none,sub_zero]
    rfl
  | some row =>
    obtain ⟨hmem,hkey⟩ := find_eq_some.mp hfind
    have hnodup : table.rows.Nodup := List.Nodup.of_map key table.unique
    have hperm : table.rows.Perm (row::table.rows.filter fun other => decide (key other≠k)) := by
      classical
      have hrest : table.rows.filter (fun other => decide (key other≠k))=table.rows.erase row := by
        rw [hnodup.erase_eq_filter]
        refine List.filter_congr fun other hother => ?_
        by_cases heq : other=row
        · rw [heq,hkey,bne_self_eq_false]
          exact decide_eq_false fun h => h rfl
        · rw [bne_iff_ne.mpr heq]
          exact decide_eq_true fun h => heq (table.eq_of_key hother hmem (h.trans hkey.symm))
      rw [hrest]
      exact List.perm_cons_erase hmem
    have hsum := (hperm.map weight).sum_eq
    rw [List.map_cons,List.sum_cons] at hsum
    rw [Table.weigh_keep,Table.weigh,Table.weightAt,hfind,Option.map_some,Option.getD_some]
    omega

/-- A put takes the replaced row out of the sum and the new one in. -/
theorem Table.weigh_put (table : Table key) (weight : ρ → ℤ) (row : ρ) :
    (table.put row).weigh weight=
      table.weigh weight-table.weightAt weight (key row)+weight row := by
  have hkeep := table.weigh_keep_ne weight (key row)
  rw [Table.weigh] at hkeep
  rw [Table.weigh,Table.put,List.map_append,List.sum_append,hkeep,List.map_singleton,
    List.sum_singleton]

end

end TokiSync.KeyedRows
