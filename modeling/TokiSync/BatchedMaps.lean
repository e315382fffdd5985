import Mathlib

/-!
# Named ordered maps written by atomic batches

A database is a family of ordered maps. A batch is a list of insertions and
removals that one commit applies in order. What a commit does is read cell by
cell, a cell being one key of one map: batches that touch different cells
commute, so the order in which independent batches are joined is immaterial.
The maps, names, keys and values are arbitrary.
-/

namespace TokiSync.BatchedMaps

section

variable {ι κ ν ε : Type} [DecidableEq ι] [DecidableEq κ]
variable [Ord κ] [Std.TransOrd κ] [Std.LawfulEqOrd κ]

/-- A database: one ordered map for every name. -/
abbrev Maps (ι κ ν : Type) [Ord κ] := ι → Std.ExtTreeMap κ ν compare

/-- The database whose maps are all empty. -/
def emptyMaps : Maps ι κ ν := fun _ => ∅

/-- One operation of a write batch. -/
inductive BatchOp (ι κ ν : Type) where
  /-- Store a value under a key of the named map. -/
  | insert (name : ι) (key : κ) (value : ν)
  /-- Drop a key of the named map, present or not. -/
  | remove (name : ι) (key : κ)

/-- The map and key an operation writes. -/
def BatchOp.cell : BatchOp ι κ ν → ι×κ
  | .insert name key _ => (name,key)
  | .remove name key => (name,key)

/-- What an operation leaves in its cell. -/
def BatchOp.content : BatchOp ι κ ν → Option ν
  | .insert _ _ value => some value
  | .remove _ _ => none

/-- Apply one operation to the database. -/
def applyOp (db : Maps ι κ ν) : BatchOp ι κ ν → Maps ι κ ν
  | .insert name key value => Function.update db name ((db name).insert key value)
  | .remove name key => Function.update db name ((db name).erase key)

/-- Commit a batch: all of its operations, in order, at once. -/
def commit (db : Maps ι κ ν) (batch : List (BatchOp ι κ ν)) : Maps ι κ ν :=
  batch.foldl applyOp db

omit [DecidableEq ι] [DecidableEq κ] in
/-- Databases with the same cells are equal. -/
theorem maps_ext {a b : Maps ι κ ν} (h : ∀ name (key : κ), (a name)[key]?=(b name)[key]?) :
    a=b := by
  funext name
  exact Std.ExtTreeMap.ext_getElem? (h name)

omit [DecidableEq ι] [DecidableEq κ] [Std.LawfulEqOrd κ] in
@[simp] theorem get_emptyMaps (name : ι) (key : κ) :
    (emptyMaps name : Std.ExtTreeMap κ ν compare)[key]?=none :=
  Std.ExtTreeMap.getElem?_empty

/-- One operation rewrites its own cell and leaves every other one alone. -/
theorem get_applyOp (db : Maps ι κ ν) (op : BatchOp ι κ ν) (name : ι) (key : κ) :
    (applyOp db op name)[key]?=if (name,key)=op.cell then op.content else (db name)[key]? := by
  cases op with
  | insert target k v =>
    by_cases hn : name=target
    · subst hn
      simp only [applyOp,BatchOp.cell,BatchOp.content,Function.update_self,
        Std.ExtTreeMap.getElem?_insert,Std.LawfulEqCmp.compare_eq_iff_eq,Prod.mk.injEq,true_and]
      exact if_congr eq_comm rfl rfl
    · simp only [applyOp,BatchOp.cell,Function.update_of_ne hn,Prod.mk.injEq,hn,
        false_and,if_false]
  | remove target k =>
    by_cases hn : name=target
    · subst hn
      simp only [applyOp,BatchOp.cell,BatchOp.content,Function.update_self,
        Std.ExtTreeMap.getElem?_erase,Std.LawfulEqCmp.compare_eq_iff_eq,Prod.mk.injEq,true_and]
      exact if_congr eq_comm rfl rfl
    · simp only [applyOp,BatchOp.cell,Function.update_of_ne hn,Prod.mk.injEq,hn,
        false_and,if_false]

omit [DecidableEq κ] [Std.LawfulEqOrd κ] in
@[simp] theorem commit_nil (db : Maps ι κ ν) : commit db []=db := rfl

omit [DecidableEq κ] [Std.LawfulEqOrd κ] in
@[simp] theorem commit_cons (db : Maps ι κ ν) (op : BatchOp ι κ ν) (batch : List (BatchOp ι κ ν)) :
    commit db (op::batch)=commit (applyOp db op) batch := rfl

omit [DecidableEq κ] [Std.LawfulEqOrd κ] in
/-- Committing a joined batch is committing its halves in turn. -/
theorem commit_append (db : Maps ι κ ν) (first second : List (BatchOp ι κ ν)) :
    commit db (first++second)=commit (commit db first) second :=
  List.foldl_append

/-- The content of a cell after a commit depends only on its content before. -/
theorem get_commit_congr {db db' : Maps ι κ ν} {name : ι} {key : κ}
    (batch : List (BatchOp ι κ ν)) (h : (db name)[key]?=(db' name)[key]?) :
    (commit db batch name)[key]?=(commit db' batch name)[key]? := by
  induction batch generalizing db db' with
  | nil => exact h
  | cons op batch ih =>
    rw [commit_cons,commit_cons]
    apply ih
    rw [get_applyOp,get_applyOp,h]

/-- A cell no operation writes keeps its content. -/
theorem get_commit_of_untouched {batch : List (BatchOp ι κ ν)} {name : ι} {key : κ}
    (h : ∀ op∈batch, op.cell≠(name,key)) (db : Maps ι κ ν) :
    (commit db batch name)[key]?=(db name)[key]? := by
  induction batch generalizing db with
  | nil => rfl
  | cons op batch ih =>
    rw [commit_cons,ih (fun o ho => h o (List.mem_cons_of_mem _ ho)),get_applyOp,
      if_neg (Ne.symm (h op List.mem_cons_self))]

/-- What a cell holds after a commit was there before or was stored by one of
the operations. -/
theorem get_commit_cases {batch : List (BatchOp ι κ ν)} {db : Maps ι κ ν} {name : ι} {key : κ}
    {value : ν} (h : (commit db batch name)[key]?=some value) :
    (db name)[key]?=some value ∨ ∃ op∈batch, op.cell=(name,key) ∧ op.content=some value := by
  induction batch generalizing db with
  | nil => exact .inl h
  | cons op batch ih =>
    rcases ih h with hbefore | ⟨x,hx,hstored⟩
    · rw [get_applyOp] at hbefore
      split_ifs at hbefore with hcell
      · exact .inr ⟨op,List.mem_cons_self,hcell.symm,hbefore⟩
      · exact .inl hbefore
    · exact .inr ⟨x,List.mem_cons_of_mem _ hx,hstored⟩

/-- A batch of removals empties exactly the cells it names. -/
theorem get_commit_removes {batch : List (BatchOp ι κ ν)}
    (h : ∀ op∈batch, op.content=none) (db : Maps ι κ ν) (name : ι) (key : κ) :
    (commit db batch name)[key]?=
      if (name,key)∈batch.map BatchOp.cell then none else (db name)[key]? := by
  induction batch generalizing db with
  | nil => simp only [commit_nil,List.map_nil,List.not_mem_nil,if_false]
  | cons op batch ih =>
    rw [commit_cons,ih (fun o ho => h o (List.mem_cons_of_mem _ ho)),get_applyOp,
      h op List.mem_cons_self]
    simp only [List.map_cons,List.mem_cons]
    by_cases ht : (name,key)∈batch.map BatchOp.cell
    · rw [if_pos ht,if_pos (Or.inr ht)]
    · rw [if_neg ht]
      by_cases ho : (name,key)=op.cell
      · rw [if_pos ho,if_pos (Or.inl ho)]
      · rw [if_neg ho,if_neg (by tauto)]

/-- Two batches that write no common cell. -/
def Independent (first second : List (BatchOp ι κ ν)) : Prop :=
  ∀ x∈first, ∀ y∈second, x.cell≠y.cell

omit [DecidableEq ι] [DecidableEq κ] [Ord κ] [Std.TransOrd κ] [Std.LawfulEqOrd κ] in
theorem Independent.symm {first second : List (BatchOp ι κ ν)} (h : Independent first second) :
    Independent second first :=
  fun y hy x hx heq => h x hx y hy heq.symm

/-- Independent batches commute. -/
theorem commit_comm {first second : List (BatchOp ι κ ν)} (h : Independent first second)
    (db : Maps ι κ ν) : commit (commit db first) second=commit (commit db second) first := by
  apply maps_ext
  intro name key
  by_cases hf : ∀ op∈first, op.cell≠(name,key)
  · rw [get_commit_congr second (get_commit_of_untouched hf db),get_commit_of_untouched hf]
  · push Not at hf
    obtain ⟨x,hx,hxc⟩ := hf
    have hs : ∀ op∈second, op.cell≠(name,key) := fun y hy hyc => h x hx y hy (hxc.trans hyc.symm)
    rw [get_commit_of_untouched hs,get_commit_congr first (get_commit_of_untouched hs db)]

omit [DecidableEq κ] [Std.LawfulEqOrd κ] in
/-- Committing the batches of a list joined together is committing them one
after another. -/
theorem commit_flatMap (f : ε → List (BatchOp ι κ ν)) (items : List ε) (db : Maps ι κ ν) :
    commit db (items.flatMap f)=items.foldl (fun acc item => commit acc (f item)) db := by
  induction items generalizing db with
  | nil => rfl
  | cons item items ih => rw [List.flatMap_cons,commit_append,ih,List.foldl_cons]

/-- Joining pairwise independent batches in any order commits the same
database. -/
theorem commit_flatMap_perm {items items' : List ε} (hp : items.Perm items')
    (f : ε → List (BatchOp ι κ ν))
    (hi : items.Pairwise (fun x y => Independent (f x) (f y))) (db : Maps ι κ ν) :
    commit db (items.flatMap f)=commit db (items'.flatMap f) := by
  rw [commit_flatMap,commit_flatMap]
  apply hp.foldl_eq'
  intro x hx y hy acc
  by_cases hxy : x=y
  · rw [hxy]
  · have hsymm : Std.Symm (fun a b => Independent (f a) (f b)) := ⟨fun _ _ h => h.symm⟩
    exact commit_comm (hi.forall hx hy hxy) acc

end

end TokiSync.BatchedMaps
