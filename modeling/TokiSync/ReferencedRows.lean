import TokiSync.Runs
import Mathlib.Data.List.Nodup
import Mathlib.Data.List.Pairwise

/-!
# Rows with unique keys and references to each other

The rows of a database have keys, stand in unique indexes and refer to other
rows by their keys. An insertion is refused when a key or an index entry is
taken, or when a row it refers to is missing. A deletion takes along the rows
that refer to a deleted row, the rows that refer to those, and so on. What
a list of statements can do to a row is read off the rows they select and
insert. Rows, keys and index entries are arbitrary.
-/

namespace TokiSync.ReferencedRows

/-- What the constraints of a database see of a row. -/
structure Schema (ρ κ ι : Type) where
  /-- Primary key of a row. -/
  key : ρ → κ
  /-- Entries of a row in the unique indexes. -/
  entries : ρ → List ι
  /-- Keys of the rows it refers to; it is deleted together with any of them. -/
  refs : ρ → List κ

/-- Why an insertion is refused. -/
inductive Violation where
  /-- A key or an index entry is taken. -/
  | unique
  /-- A row that is referred to does not exist. -/
  | foreignKey
  deriving DecidableEq

section

variable {ρ κ ι : Type} (S : Schema ρ κ ι)

/-- Rows that meet the constraints. -/
structure Schema.Consistent (rows : List ρ) : Prop where
  /-- No two rows have the same key. -/
  keys : (rows.map S.key).Nodup
  /-- No two rows have a common index entry. -/
  entries : rows.Pairwise fun row other => List.Disjoint (S.entries row) (S.entries other)
  /-- Every reference leads to a row. -/
  refs : ∀ row∈rows, ∀ k∈S.refs row, ∃ parent∈rows, S.key parent=k

/-- A database that meets its constraints. -/
structure Database where
  /-- The rows, in the order of their insertion. -/
  rows : List ρ
  /-- They meet the constraints. -/
  consistent : S.Consistent rows

/-- A change of rows that the constraints do not see. -/
structure Schema.Invisible (f : ρ → ρ) : Prop where
  /-- The key stays. -/
  key : ∀ row, S.key (f row)=S.key row
  /-- The index entries stay. -/
  entries : ∀ row, S.entries (f row)=S.entries row
  /-- The references stay. -/
  refs : ∀ row, S.refs (f row)=S.refs row

variable {S}

/-- The database without rows. -/
def Database.empty : Database S :=
  ⟨[],List.nodup_nil,List.Pairwise.nil,fun _ h => absurd h List.not_mem_nil⟩

/-- Databases with the same rows are the same. -/
theorem Database.ext_rows {db db' : Database S} (h : db.rows=db'.rows) : db=db' := by
  cases db
  cases db'
  cases h
  rfl

/-- Rows with the same key are the same. -/
theorem Database.eq_of_key (db : Database S) {row other : ρ} (h : row∈db.rows)
    (hother : other∈db.rows) (hkey : S.key row=S.key other) : row=other :=
  List.inj_on_of_nodup_map db.consistent.keys h hother hkey

/-- Change every row in a way the constraints do not see. -/
def Database.update (db : Database S) (f : ρ → ρ) (hf : S.Invisible f) : Database S where
  rows := db.rows.map f
  consistent :=
    { keys := by
        rw [List.map_map]
        have hkey : S.key∘f=S.key := funext hf.key
        rw [hkey]
        exact db.consistent.keys
      entries := by
        rw [List.pairwise_map]
        simp only [hf.entries]
        exact db.consistent.entries
      refs := by
        intro row hrow k hk
        obtain ⟨old,hold,rfl⟩ := List.mem_map.mp hrow
        rw [hf.refs] at hk
        obtain ⟨parent,hparent,hkey⟩ := db.consistent.refs old hold k hk
        exact ⟨f parent,List.mem_map_of_mem hparent,(hf.key parent).trans hkey⟩ }

/-- Changes of the selected rows only. -/
def editWhere (p : ρ → Bool) (f : ρ → ρ) (row : ρ) : ρ := if p row then f row else row

theorem Schema.Invisible.editWhere {f : ρ → ρ} (hf : S.Invisible f) (p : ρ → Bool) :
    S.Invisible (editWhere p f) where
  key row := by
    unfold ReferencedRows.editWhere
    split
    · exact hf.key row
    · rfl
  entries row := by
    unfold ReferencedRows.editWhere
    split
    · exact hf.entries row
    · rfl
  refs row := by
    unfold ReferencedRows.editWhere
    split
    · exact hf.refs row
    · rfl

theorem Database.mem_update {db : Database S} {f : ρ → ρ} {hf : S.Invisible f} {row : ρ} :
    row∈(db.update f hf).rows ↔ ∃ old∈db.rows, f old=row := List.mem_map

section

variable [DecidableEq κ]

/-- The row under a key. -/
def Database.find (db : Database S) (k : κ) : Option ρ := db.rows.find? fun row => S.key row=k

/-- Whether a key is there. -/
def Database.has (db : Database S) (k : κ) : Bool := db.rows.any fun row => S.key row=k

/-- Whether a row refers to one of the dead keys. -/
def refersTo (S : Schema ρ κ ι) (dead : List κ) (row : ρ) : Bool :=
  (S.refs row).any fun k => dead.contains k

theorem refersTo_iff {dead : List κ} {row : ρ} :
    refersTo S dead row=true ↔ ∃ k∈S.refs row, k∈dead := by
  rw [refersTo,List.any_eq_true]
  simp only [List.contains_iff_mem]

/-- Delete the rows that refer to dead keys, then those that refer to them, as
often as there may be rows. -/
def cascade (S : Schema ρ κ ι) : ℕ → List κ → List ρ → List ρ
  | 0, _, rows => rows
  | fuel+1, dead, rows =>
    if rows.any (refersTo S dead) then
      cascade S fuel ((rows.filter (refersTo S dead)).map S.key)
        (rows.filter fun row => !refersTo S dead row)
    else rows

/-- What is left of the rows after a deletion and its cascade. -/
def survivors (S : Schema ρ κ ι) (rows : List ρ) (p : ρ → Bool) : List ρ :=
  let kept := rows.filter fun row => !p row
  cascade S kept.length ((rows.filter p).map S.key) kept

/-- A row goes with a dead key: through its references or those of others. -/
inductive Reached (S : Schema ρ κ ι) (dead : List κ) (rows : List ρ) : ρ → Prop where
  /-- It refers to a dead key. -/
  | refers {row : ρ} {k : κ} (mem : row∈rows) (ref : k∈S.refs row) (hit : k∈dead) :
      Reached S dead rows row
  /-- It refers to a row that goes. -/
  | follows {row parent : ρ} (mem : row∈rows) (goes : Reached S dead rows parent)
      (ref : S.key parent∈S.refs row) : Reached S dead rows row

/-- A row goes with a deletion. -/
inductive Doomed (S : Schema ρ κ ι) (rows : List ρ) (p : ρ → Bool) : ρ → Prop where
  /-- It is selected. -/
  | selected {row : ρ} (mem : row∈rows) (sel : p row=true) : Doomed S rows p row
  /-- It refers to a row that goes. -/
  | follows {row parent : ρ} (mem : row∈rows) (goes : Doomed S rows p parent)
      (ref : S.key parent∈S.refs row) : Doomed S rows p row

omit [DecidableEq κ] in
theorem Doomed.mem {rows : List ρ} {p : ρ → Bool} {row : ρ} (h : Doomed S rows p row) :
    row∈rows := by
  cases h with
  | selected mem => exact mem
  | follows mem => exact mem

theorem cascade_sublist (fuel : ℕ) (dead : List κ) (rows : List ρ) :
    (cascade S fuel dead rows).Sublist rows := by
  induction fuel generalizing dead rows with
  | zero => exact List.Sublist.refl rows
  | succ fuel ih =>
    rw [cascade]
    split
    · exact (ih _ _).trans List.filter_sublist
    · exact List.Sublist.refl rows

/-- What is neither selected nor goes otherwise. -/
theorem unselected_iff {a goes : Prop} {selected : Bool} :
    (a ∧ (!selected)=true) ∧ ¬goes ↔ a ∧ ¬((a ∧ selected=true) ∨ goes) := by
  cases selected with
  | true =>
    simp only [Bool.not_true,Bool.false_eq_true,and_false,and_true,false_and]
    tauto
  | false => simp only [Bool.not_false,Bool.false_eq_true,and_false,and_true,false_or]

/-- A round of the cascade takes the rows that refer to a dead key; what goes
after it goes with their keys. -/
theorem reached_iff (dead : List κ) (rows : List ρ) (row : ρ) :
    Reached S dead rows row ↔ (row∈rows ∧ refersTo S dead row=true) ∨
      Reached S ((rows.filter (refersTo S dead)).map S.key)
        (rows.filter fun row => !refersTo S dead row) row := by
  constructor
  · intro h
    induction h with
    | refers mem ref hit => exact .inl ⟨mem,refersTo_iff.mpr ⟨_,ref,hit⟩⟩
    | @follows row parent mem goes ref ih =>
      cases hrefers : refersTo S dead row with
      | true => exact .inl ⟨mem,rfl⟩
      | false =>
        have hkept : row∈rows.filter fun row => !refersTo S dead row := by
          rw [List.mem_filter,hrefers]
          exact ⟨mem,rfl⟩
        rcases ih with hparent | hparent
        · exact .inr (.refers hkept ref (List.mem_map_of_mem (List.mem_filter.mpr hparent)))
        · exact .inr (.follows hkept hparent ref)
  · rintro (⟨mem,hrefers⟩ | h)
    · obtain ⟨k,hk,hdead⟩ := refersTo_iff.mp hrefers
      exact .refers mem hk hdead
    · induction h with
      | refers mem ref hit =>
        obtain ⟨parent,hparent,rfl⟩ := List.mem_map.mp hit
        obtain ⟨hmem,hrefers⟩ := List.mem_filter.mp hparent
        obtain ⟨k,hk,hdead⟩ := refersTo_iff.mp hrefers
        exact .follows (List.mem_filter.mp mem).1 (.refers hmem hk hdead) ref
      | follows mem goes ref ih => exact .follows (List.mem_filter.mp mem).1 ih ref

/-- The cascade leaves the rows that do not go with a dead key. The induction
is on the rounds, of which each one takes a row. -/
theorem mem_cascade {fuel : ℕ} {dead : List κ} {rows : List ρ} (hfuel : rows.length≤fuel)
    {row : ρ} : row∈cascade S fuel dead rows ↔ row∈rows ∧ ¬Reached S dead rows row := by
  induction fuel generalizing dead rows with
  | zero =>
    have hrows : rows=[] := List.eq_nil_of_length_eq_zero (Nat.le_zero.mp hfuel)
    subst hrows
    exact ⟨fun h => absurd h List.not_mem_nil,fun h => absurd h.1 List.not_mem_nil⟩
  | succ fuel ih =>
    rw [cascade]
    split
    · rename_i hany
      have hlen : (rows.filter fun row => !refersTo S dead row).length≤fuel := by
        obtain ⟨gone,hgone,hrefers⟩ := List.any_eq_true.mp hany
        have hlt : (rows.filter fun row => !refersTo S dead row).length<rows.length := by
          rw [List.length_filter_lt_length_iff_exists]
          exact ⟨gone,hgone,by rw [hrefers]; simp⟩
        omega
      rw [ih hlen,reached_iff dead rows row,List.mem_filter,unselected_iff]
    · rename_i hany
      refine ⟨fun h => ⟨h,fun hreached => ?_⟩,fun h => h.1⟩
      have hbase : ∀ other, Reached S dead rows other → False := by
        intro other hother
        induction hother with
        | refers mem ref hit =>
          exact hany (List.any_eq_true.mpr ⟨_,mem,refersTo_iff.mpr ⟨_,ref,hit⟩⟩)
        | follows mem goes ref ih => exact ih
      exact hbase row hreached

omit [DecidableEq κ] in
/-- A row goes with a deletion when it is selected, or through references. -/
theorem doomed_iff (rows : List ρ) (p : ρ → Bool) (row : ρ) :
    Doomed S rows p row ↔ (row∈rows ∧ p row=true) ∨
      Reached S ((rows.filter p).map S.key) (rows.filter fun row => !p row) row := by
  constructor
  · intro h
    induction h with
    | selected mem sel => exact .inl ⟨mem,sel⟩
    | @follows row parent mem goes ref ih =>
      cases hp : p row with
      | true => exact .inl ⟨mem,rfl⟩
      | false =>
        have hkept : row∈rows.filter fun row => !p row := by
          rw [List.mem_filter,hp]
          exact ⟨mem,rfl⟩
        rcases ih with hparent | hparent
        · exact .inr (.refers hkept ref (List.mem_map_of_mem (List.mem_filter.mpr hparent)))
        · exact .inr (.follows hkept hparent ref)
  · rintro (⟨mem,sel⟩ | h)
    · exact .selected mem sel
    · induction h with
      | refers mem ref hit =>
        obtain ⟨parent,hparent,rfl⟩ := List.mem_map.mp hit
        obtain ⟨hmem,hsel⟩ := List.mem_filter.mp hparent
        exact .follows (List.mem_filter.mp mem).1 (.selected hmem hsel) ref
      | follows mem goes ref ih => exact .follows (List.mem_filter.mp mem).1 ih ref

theorem survivors_sublist (rows : List ρ) (p : ρ → Bool) :
    (survivors S rows p).Sublist rows :=
  (cascade_sublist _ _ _).trans List.filter_sublist

/-- A deletion leaves the rows that do not go with it. -/
theorem mem_survivors {rows : List ρ} {p : ρ → Bool} {row : ρ} :
    row∈survivors S rows p ↔ row∈rows ∧ ¬Doomed S rows p row := by
  rw [survivors,mem_cascade (Nat.le_refl _),doomed_iff,List.mem_filter,unselected_iff]

/-- Delete the selected rows and all that go with them. -/
def Database.delete (db : Database S) (p : ρ → Bool) : Database S where
  rows := survivors S db.rows p
  consistent :=
    { keys := db.consistent.keys.sublist ((survivors_sublist db.rows p).map S.key)
      entries := db.consistent.entries.sublist (survivors_sublist db.rows p)
      refs := by
        intro row hrow k hk
        obtain ⟨hmem,hstays⟩ := mem_survivors.mp hrow
        obtain ⟨parent,hparent,rfl⟩ := db.consistent.refs row hmem k hk
        exact ⟨parent,mem_survivors.mpr ⟨hparent,fun h => hstays (.follows hmem h hk)⟩,rfl⟩ }

theorem Database.mem_delete {db : Database S} {p : ρ → Bool} {row : ρ} :
    row∈(db.delete p).rows ↔ row∈db.rows ∧ ¬Doomed S db.rows p row := mem_survivors

theorem Database.find_eq_some {db : Database S} {k : κ} {row : ρ} :
    db.find k=some row ↔ row∈db.rows ∧ S.key row=k := by
  constructor
  · intro h
    have hkey := List.find?_some h
    exact ⟨List.mem_of_find?_eq_some h,of_decide_eq_true hkey⟩
  · rintro ⟨hmem,hkey⟩
    cases hfind : db.find k with
    | none => exact absurd (decide_eq_true hkey) (List.find?_eq_none.mp hfind row hmem)
    | some other =>
      have hother := List.find?_some hfind
      rw [db.eq_of_key (List.mem_of_find?_eq_some hfind) hmem
        ((of_decide_eq_true hother).trans hkey.symm)]

theorem Database.find_eq_none {db : Database S} {k : κ} :
    db.find k=none ↔ ∀ row∈db.rows, S.key row≠k := by
  rw [Database.find,List.find?_eq_none]
  simp only [decide_eq_true_eq]

/-- A change of the rows is seen under their keys. -/
theorem Database.find_update {db : Database S} {f : ρ → ρ} {hf : S.Invisible f} {k : κ} :
    (db.update f hf).find k=(db.find k).map f := by
  unfold Database.find Database.update
  rw [List.find?_map]
  simp only [Function.comp_def,hf.key]

/-- Databases with the same rows of a key find the same under it. -/
theorem Database.find_congr {db db' : Database S} {k : κ}
    (h : ∀ row, S.key row=k → (row∈db'.rows ↔ row∈db.rows)) : db'.find k=db.find k := by
  refine Option.ext fun row => ?_
  rw [Database.find_eq_some,Database.find_eq_some]
  exact and_congr_left (h row)

theorem Database.has_iff {db : Database S} {k : κ} :
    db.has k=true ↔ ∃ row∈db.rows, S.key row=k := by
  rw [Database.has,List.any_eq_true]
  simp only [decide_eq_true_eq]

section

variable [DecidableEq ι]

/-- Whether neither the key nor an index entry of a row is taken. -/
def Database.isFree (db : Database S) (row : ρ) : Bool :=
  db.rows.all fun other => S.key other≠S.key row &&
    (S.entries other).all fun entry => !(S.entries row).contains entry

/-- Whether all rows that a row refers to are there. -/
def Database.isLinked (db : Database S) (row : ρ) : Bool := (S.refs row).all db.has

theorem Database.isFree_iff {db : Database S} {row : ρ} : db.isFree row=true ↔
    ∀ other∈db.rows, S.key other≠S.key row ∧ List.Disjoint (S.entries other) (S.entries row) := by
  rw [Database.isFree,List.all_eq_true]
  simp only [ne_eq,decide_not,Bool.and_eq_true,Bool.not_eq_eq_eq_not,Bool.not_true,
    decide_eq_false_iff_not,List.all_eq_true,List.contains_eq_mem]
  rfl

omit [DecidableEq ι] in
theorem Database.isLinked_iff {db : Database S} {row : ρ} : db.isLinked row=true ↔
    ∀ k∈S.refs row, ∃ parent∈db.rows, S.key parent=k := by
  rw [Database.isLinked,List.all_eq_true]
  simp only [Database.has_iff]

/-- A database with a row that violates no constraint. -/
def Database.append (db : Database S) (row : ρ) (hfree : db.isFree row=true)
    (hlinked : db.isLinked row=true) : Database S where
  rows := db.rows++[row]
  consistent :=
    { keys := by
        rw [List.map_append,List.nodup_append]
        refine ⟨db.consistent.keys,by simp,?_⟩
        intro k hk new hnew heq
        obtain ⟨other,hother,rfl⟩ := List.mem_map.mp hk
        have hnew : new=S.key row := by simpa using hnew
        exact (Database.isFree_iff.mp hfree other hother).1 (heq.trans hnew)
      entries := by
        rw [List.pairwise_append]
        refine ⟨db.consistent.entries,List.pairwise_singleton _ _,?_⟩
        intro other hother new hnew
        rw [List.mem_singleton.mp hnew]
        exact (Database.isFree_iff.mp hfree other hother).2
      refs := by
        have hold : ∀ {k : κ}, (∃ parent∈db.rows, S.key parent=k) →
            ∃ parent∈db.rows++[row], S.key parent=k := by
          rintro k ⟨parent,hparent,hkey⟩
          exact ⟨parent,List.mem_append_left _ hparent,hkey⟩
        intro other hother k hk
        rcases List.mem_append.mp hother with hother | hother
        · exact hold (db.consistent.refs other hother k hk)
        · rw [List.mem_singleton.mp hother] at hk
          exact hold (Database.isLinked_iff.mp hlinked k hk) }

/-- Insert a row. -/
def Database.insert (db : Database S) (row : ρ) : Except Violation (Database S) :=
  if hfree : db.isFree row=true then
    if hlinked : db.isLinked row=true then .ok (db.append row hfree hlinked)
    else .error .foreignKey
  else .error .unique

/-- Insert a row unless its key or an index entry is taken. -/
def Database.insertOrIgnore (db : Database S) (row : ρ) : Except Violation (Database S) :=
  if db.isFree row then db.insert row else .ok db

/-- An insertion that succeeds adds its row, which was free and linked. -/
theorem Database.insert_eq_ok {db db' : Database S} {row : ρ} : db.insert row=.ok db' ↔
    db.isFree row=true ∧ db.isLinked row=true ∧ db'.rows=db.rows++[row] := by
  unfold Database.insert
  split
  · rename_i hfree
    split
    · rename_i hlinked
      rw [Except.ok.injEq]
      constructor
      · rintro rfl
        exact ⟨hfree,hlinked,rfl⟩
      · rintro ⟨-,-,hrows⟩
        exact Database.ext_rows hrows.symm
    · rename_i hlinked
      exact ⟨fun h => (nomatch h),fun h => absurd h.2.1 hlinked⟩
  · rename_i hfree
    exact ⟨fun h => (nomatch h),fun h => absurd h.1 hfree⟩

theorem Database.mem_of_insert {db db' : Database S} {row other : ρ} (h : db.insert row=.ok db') :
    other∈db'.rows ↔ other∈db.rows ∨ other=row := by
  obtain ⟨-,-,hrows⟩ := Database.insert_eq_ok.mp h
  rw [hrows,List.mem_append,List.mem_singleton]

/-- An inserted row is found under its key. -/
theorem Database.find_of_insert {db db' : Database S} {row : ρ} {k : κ}
    (h : db.insert row=.ok db') : db'.find k=if k=S.key row then some row else db.find k := by
  split_ifs with hk
  · exact Database.find_eq_some.mpr ⟨(Database.mem_of_insert h).mpr (.inr rfl),hk.symm⟩
  · refine Database.find_congr fun other hother => ?_
    rw [Database.mem_of_insert h]
    refine or_iff_left ?_
    rintro rfl
    exact hk hother.symm

/-- One statement. -/
inductive Statement (S : Schema ρ κ ι) where
  /-- Insert a row. -/
  | insert (row : ρ)
  /-- Change the selected rows in a way the constraints do not see. -/
  | update (p : ρ → Bool) (f : ρ → ρ) (hf : S.Invisible f)
  /-- Delete the selected rows. -/
  | delete (p : ρ → Bool)

/-- A statement succeeds. -/
def Executes (db : Database S) : Statement S → Database S → Prop
  | .insert row, db' => db.insert row=.ok db'
  | .update p f hf, db' => db'=db.update (editWhere p f) (hf.editWhere p)
  | .delete p, db' => db'=db.delete p

/-- A statement inserts only rows with a property. -/
def Statement.Inserts (new : ρ → Prop) : Statement S → Prop
  | .insert row => new row
  | _ => True

/-- A statement selects only rows with a property, for updates and for
deletions. -/
def Statement.Selects (updated deleted : ρ → Prop) : Statement S → Prop
  | .insert _ => True
  | .update p _ _ => ∀ row, p row=true → updated row
  | .delete p => ∀ row, p row=true → deleted row

/-- A class of rows that a deletion of others leaves alone: what a row of it
refers to is in it. -/
def Detached (S : Schema ρ κ ι) (rows : List ρ) (C : ρ → Prop) : Prop :=
  ∀ row∈rows, C row → ∀ parent∈rows, S.key parent∈S.refs row → C parent

omit [DecidableEq κ] [DecidableEq ι] in
/-- A deletion takes no row of a detached class when it selects none. -/
theorem Detached.not_doomed {rows : List ρ} {C : ρ → Prop} (h : Detached S rows C)
    {p : ρ → Bool} (hp : ∀ row∈rows, C row → p row=false) {row : ρ} (hC : C row) :
    ¬Doomed S rows p row := by
  intro hdoomed
  induction hdoomed with
  | selected mem sel =>
    rw [hp _ mem hC] at sel
    cases sel
  | follows mem goes ref ih => exact ih (h _ mem hC _ goes.mem ref)

variable {db db' : Database S} {statements : List (Statement S)} {new updated deleted : ρ → Prop}

/-- A key and references that are there after some statements were there before
or were inserted. -/
theorem traced (run : Runs.Run Executes db statements db')
    (hnew : ∀ s∈statements, s.Inserts new) {row : ρ} (hrow : row∈db'.rows) :
    ∃ old, (old∈db.rows ∨ new old) ∧ S.key old=S.key row ∧ S.refs old=S.refs row := by
  induction run generalizing row with
  | start => exact ⟨row,.inl hrow,rfl,rfl⟩
  | next s run taken ih =>
    have hpast := fun other hother => hnew other (List.mem_cons_of_mem s hother)
    have hs := hnew s List.mem_cons_self
    cases s with
    | insert inserted =>
      rcases (Database.mem_of_insert taken).mp hrow with hrow | rfl
      · exact ih hpast hrow
      · exact ⟨row,.inr hs,rfl,rfl⟩
    | update p f hf =>
      cases taken
      obtain ⟨before,hbefore,rfl⟩ := Database.mem_update.mp hrow
      rw [(hf.editWhere p).key,(hf.editWhere p).refs]
      exact ih hpast hbefore
    | delete p =>
      cases taken
      exact ih hpast (Database.mem_delete.mp hrow).1

/-- A row keeps its key and references through statements that delete nothing
of its class. -/
theorem lasting (run : Runs.Run Executes db statements db') {C : ρ → Prop}
    (hdetached : ∀ rows, Detached S rows C)
    (hseen : ∀ row other, S.key row=S.key other → S.refs row=S.refs other → C row → C other)
    (hdeleted : ∀ s∈statements, s.Selects (fun _ => True) fun row => ¬C row)
    {old : ρ} (hold : old∈db.rows) (hC : C old) :
    ∃ row∈db'.rows, S.key row=S.key old ∧ S.refs row=S.refs old := by
  induction run with
  | start => exact ⟨old,hold,rfl,rfl⟩
  | next s run taken ih =>
    obtain ⟨row,hrow,hkey,hrefs⟩ := ih fun s hs => hdeleted s (List.mem_cons_of_mem _ hs)
    have hs := hdeleted s List.mem_cons_self
    cases s with
    | insert inserted => exact ⟨row,(Database.mem_of_insert taken).mpr (.inl hrow),hkey,hrefs⟩
    | update p f hf =>
      cases taken
      refine ⟨editWhere p f row,Database.mem_update.mpr ⟨row,hrow,rfl⟩,?_,?_⟩
      · rw [(hf.editWhere p).key,hkey]
      · rw [(hf.editWhere p).refs,hrefs]
    | delete p =>
      cases taken
      refine ⟨row,Database.mem_delete.mpr ⟨hrow,?_⟩,hkey,hrefs⟩
      refine (hdetached _).not_doomed (fun other _ hother => ?_)
        (hseen old row hkey.symm hrefs.symm hC)
      exact Bool.eq_false_iff.mpr fun hp => hs other hp hother

end

end

end

end TokiSync.ReferencedRows
