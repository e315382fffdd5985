import Mathlib.Logic.Function.Basic
import TokiSync.CrashPrograms
import TokiSync.WireWindows

/-!
# Migrating the ClickHouse windows table

Every startup recovers an interrupted migration, creates the tables, and
rebuilds a `toki_windows` without the `updated_at` column: a new table is
filled from the old one and takes its place. A startup may be killed between
any two statements, a statement may be refused, an INSERT may copy a part of
the rows, and a statement may take effect although its reply is lost. No row
is ever lost. A startup that succeeds leaves the migrated table, unless the
fallback of the swap ran on tables that were already exchanged.
-/

namespace TokiSync.WindowsMigration

open Runs CrashPrograms WireWindows

/-- The columns of the table before `updated_at`. -/
structure WindowRow where
  /-- Owner of the row. -/
  userId : String
  /-- Provider of the window. -/
  provider : String
  /-- The other columns. -/
  window : WireWindow
  deriving DecidableEq

/-- Tables the migration names. -/
inductive TableName where
  | tokiWindows
  | tokiWindowsV2
  | tokiWindowsOld
  deriving DecidableEq

/-- A table in one of the two schemas. -/
inductive WindowTable where
  /-- Without a write clock. -/
  | oldSchema (rows : List WindowRow)
  /-- With the column `updated_at`. -/
  | newSchema (rows : List (WindowRow×UInt64))
  deriving DecidableEq

namespace WindowTable

/-- Rows of a table, without their write clock. -/
def rows : WindowTable → List WindowRow
  | .oldSchema rows => rows
  | .newSchema rows => rows.map Prod.fst

/-- Whether the table has the column `updated_at`. -/
def hasUpdatedAt : WindowTable → Bool
  | .oldSchema _ => false
  | .newSchema _ => true

end WindowTable

/-- Tables that exist. -/
abbrev Database := TableName → Option WindowTable

/-- Statements of a startup. -/
inductive Statement where
  /-- Number of tables with the name. -/
  | countTables (name : TableName)
  /-- Number of columns of `toki_windows` called `updated_at`. -/
  | countUpdatedAt
  /-- CREATE TABLE IF NOT EXISTS toki_events. -/
  | createEvents
  /-- ALTER TABLE toki_events ADD COLUMN IF NOT EXISTS session. -/
  | addSession
  /-- The DDL of the windows table, under the name. -/
  | createWindows (name : TableName)
  /-- DROP TABLE IF EXISTS. -/
  | dropTable (name : TableName)
  /-- INSERT INTO toki_windows_v2 SELECT from toki_windows. -/
  | copyRows
  /-- EXCHANGE TABLES toki_windows AND toki_windows_v2. -/
  | exchangeTables
  /-- RENAME TABLE. -/
  | renameTable (source target : TableName)
  deriving DecidableEq

/-- A copied row carries its observation time as write clock. -/
def copiedRow (row : WindowRow) : WindowRow×UInt64 := (row,row.window.observedTsMs.toUInt64)

/-- The database after a statement and the count in its reply, zero for a
statement that selects nothing. Nothing is returned where the server rejects
the statement. -/
def effect : Statement → Database → Option (Database×ℕ)
  | .countTables name, db => some (db,if (db name).isSome then 1 else 0)
  | .countUpdatedAt, db =>
    some (db,if (db .tokiWindows).any WindowTable.hasUpdatedAt then 1 else 0)
  | .createEvents, db => some (db,0)
  | .addSession, db => some (db,0)
  | .createWindows name, db =>
    some (if (db name).isSome then db else Function.update db name (some (.newSchema [])),0)
  | .dropTable name, db => some (Function.update db name none,0)
  | .copyRows, db =>
    -- the 22 columns selected fit the new schema only
    match db .tokiWindows, db .tokiWindowsV2 with
    | some (.oldSchema rows), some (.newSchema copied) =>
      some (Function.update db .tokiWindowsV2 (some (.newSchema (copied++rows.map copiedRow))),0)
    | _, _ => none
  | .exchangeTables, db =>
    match db .tokiWindows, db .tokiWindowsV2 with
    | some live, some v2 =>
      some (Function.update (Function.update db .tokiWindows (some v2)) .tokiWindowsV2
        (some live),0)
    | _, _ => none
  | .renameTable source target, db =>
    match db source, db target with
    | some table, none =>
      some (Function.update (Function.update db source none) target (some table),0)
    | _, _ => none

/-- What can come of a statement: the database after it and the reply. -/
inductive Outcome : Database → Statement → Database → Option ℕ → Prop where
  /-- The statement takes effect and is answered. -/
  | answered {db db' : Database} {stmt : Statement} {count : ℕ}
      (heffect : effect stmt db=some (db',count)) : Outcome db stmt db' (some count)
  /-- The statement takes effect and the client sees an error. -/
  | lostReply {db db' : Database} {stmt : Statement} {count : ℕ}
      (heffect : effect stmt db=some (db',count)) : Outcome db stmt db' none
  /-- The statement is refused. -/
  | refused {db : Database} {stmt : Statement} : Outcome db stmt db none
  /-- The copy fails after a part of the rows. -/
  | partialCopy {db : Database} {rows part : List WindowRow} {copied : List (WindowRow×UInt64)}
      (hlive : db .tokiWindows=some (.oldSchema rows))
      (hv2 : db .tokiWindowsV2=some (.newSchema copied)) (hpart : part⊆rows) :
      Outcome db .copyRows
        (Function.update db .tokiWindowsV2 (some (.newSchema (copied++part.map copiedRow)))) none

/-- Statements still to send. -/
abbrev Startup := Program Statement ℕ

/-- The loop over the staging tables. -/
def recoverFrom (next : Startup) : List TableName → Startup
  | [] => next
  | staged::others =>
    .require (.countTables staged) fun present =>
      if present=0 then
        recoverFrom next others
      else
        .require (.renameTable staged .tokiWindows) fun _ => next

/-- Recovery from a crash between the two renames. -/
def recoverInterruptedMigration (next : Startup) : Startup :=
  .require (.countTables .tokiWindows) fun live =>
    if live≠0 then
      next
    else
      recoverFrom next [.tokiWindowsV2,.tokiWindowsOld]

/-- The two-step swap, for a database engine without EXCHANGE. -/
def renameFallback : Startup :=
  .require (.renameTable .tokiWindows .tokiWindowsOld) fun _ =>
    .require (.renameTable .tokiWindowsV2 .tokiWindows) fun _ =>
      .require (.dropTable .tokiWindowsOld) fun _ => .done true

/-- The end of a migration that exchanged the tables. -/
def dropExchanged : Startup :=
  .require (.dropTable .tokiWindowsV2) fun _ => .done true

/-- The swap of the two tables. -/
def swapTables : Startup :=
  .exec .exchangeTables fun reply =>
    if reply.isNone then
      renameFallback
    else
      dropExchanged

/-- The rebuild of a table without `updated_at`. -/
def migrateWindowsTable : Startup :=
  .require .countUpdatedAt fun hasCol =>
    if hasCol≠0 then
      .done true
    else
      .require (.dropTable .tokiWindowsV2) fun _ =>
        .require (.createWindows .tokiWindowsV2) fun _ =>
          .require .copyRows fun _ => swapTables

/-- Table creation, followed by the migration. -/
def createTable : Startup :=
  .require .createEvents fun _ =>
    .require .addSession fun _ =>
      .require (.createWindows .tokiWindows) fun _ => migrateWindowsTable

/-- The statements of `ClickHouseEventStore::new`. -/
def startup : Startup := recoverInterruptedMigration createTable

/-- The database of the first startup: an old table and no staging tables. -/
def beforeMigration (rows : List WindowRow) : Database :=
  Function.update (fun _ => none) .tokiWindows (some (.oldSchema rows))

/-- Steps of a server process over the database. -/
abbrev ServerStep := CrashPrograms.Step startup Outcome

/-- The fallback renames `toki_windows` away only when it lacks `updated_at`. -/
def RenamesOldSchema (db : Database) : Event Statement ℕ → Prop
  | .exec (.renameTable .tokiWindows .tokiWindowsOld) _ =>
    (db .tokiWindows).any WindowTable.hasUpdatedAt=false
  | _ => True

/-- A row is in one of the tables. -/
def InSomeTable (db : Database) (row : WindowRow) : Prop :=
  ∃ name table, db name=some table ∧ row∈table.rows

/-- `toki_windows` has the new schema and the rows. -/
def Migrated (rows : List WindowRow) (db : Database) : Prop :=
  ∃ table, db .tokiWindows=some table ∧ table.hasUpdatedAt=true ∧ rows⊆table.rows

section

variable (rows : List WindowRow)

/-- A table of the given name has the rows. -/
def HasRows (name : TableName) (db : Database) : Prop :=
  ∃ table, db name=some table ∧ rows⊆table.rows

/-- The rows are in `toki_windows`, or in the filled staging table while there
is no `toki_windows`. -/
def Kept (db : Database) : Prop :=
  HasRows rows .tokiWindows db ∨ (db .tokiWindows=none ∧ HasRows rows .tokiWindowsV2 db)

/-- The condition on the steps, when it is asked for. -/
def Admitted (asked : Prop) (db : Database) (e : Event Statement ℕ) : Prop :=
  asked → RenamesOldSchema db e

/-- From the database a program keeps the rows, and leaves them migrated when
it succeeds and the condition on the steps is asked for. -/
abbrev Keeps (asked : Prop) (prog : Startup) (db : Database) : Prop :=
  Safe Outcome (Admitted asked) (Kept rows) (fun db => asked → Migrated rows db) prog db

variable {rows} {asked : Prop} {db db' : Database}

theorem Kept.inSomeTable (h : Kept rows db) {row : WindowRow} (hrow : row∈rows) :
    InSomeTable db row := by
  rcases h with ⟨table,hlive,hsub⟩ | ⟨_,table,hv2,hsub⟩
  · exact ⟨.tokiWindows,table,hlive,hsub hrow⟩
  · exact ⟨.tokiWindowsV2,table,hv2,hsub hrow⟩

/-- A statement other than the copy takes effect as a whole or not at all. -/
theorem Outcome.whole {stmt : Statement} {reply : Option ℕ} (h : Outcome db stmt db' reply)
    (hcopy : stmt≠.copyRows) :
    (db'=db ∧ reply=none) ∨ ∃ count, effect stmt db=some (db',count) ∧
      (reply=none ∨ reply=some count) := by
  cases h with
  | answered heffect => exact .inr ⟨_,heffect,.inr rfl⟩
  | lostReply heffect => exact .inr ⟨_,heffect,.inl rfl⟩
  | refused => exact .inl ⟨rfl,rfl⟩
  | partialCopy _ _ _ => exact absurd rfl hcopy

/-- The rule of a statement with a known effect. -/
theorem Keeps.statement {stmt : Statement} {next : ℕ → Startup} {count : ℕ}
    (hcopy : stmt≠.copyRows) (heffect : effect stmt db=some (db',count)) (hkept : Kept rows db)
    (hkept' : Kept rows db')
    (hnext : Admitted asked db (.exec stmt (some count)) → Keeps rows asked (next count) db') :
    Keeps rows asked (.require stmt next) db := by
  apply Safe.require (fun _ => hkept)
  · intro t houtcome _
    rcases houtcome.whole hcopy with ⟨ht,_⟩ | ⟨n,hn,_⟩
    · exact ht ▸ hkept
    · have heq : some (db',count)=some (t,n) := heffect.symm.trans hn
      cases heq
      exact hkept'
  · intro t r houtcome hadmitted
    rcases houtcome.whole hcopy with ⟨_,hr⟩ | ⟨n,hn,hr⟩
    · cases hr
    · have heq : some (db',count)=some (t,n) := heffect.symm.trans hn
      cases heq
      rcases hr with hr | hr
      · cases hr
      · cases hr
        exact hnext hadmitted

/-- The rule of a statement that changes no table. -/
theorem Keeps.unchanged {stmt : Statement} {next : ℕ → Startup} {count : ℕ}
    (hcopy : stmt≠.copyRows) (heffect : effect stmt db=some (db,count)) (hkept : Kept rows db)
    (hnext : Keeps rows asked (next count) db) : Keeps rows asked (.require stmt next) db :=
  Keeps.statement hcopy heffect hkept hkept fun _ => hnext

/-- The rule of a statement that the server rejects. -/
theorem Keeps.rejected {stmt : Statement} {next : ℕ → Startup} (hcopy : stmt≠.copyRows)
    (heffect : effect stmt db=none) (hkept : Kept rows db) :
    Keeps rows asked (.require stmt next) db := by
  apply Safe.require (fun _ => hkept)
  · intro t houtcome _
    rcases houtcome.whole hcopy with ⟨ht,_⟩ | ⟨n,hn,_⟩
    · exact ht ▸ hkept
    · rw [heffect] at hn
      cases hn
  · intro t r houtcome _
    rcases houtcome.whole hcopy with ⟨_,hr⟩ | ⟨n,hn,_⟩
    · cases hr
    · rw [heffect] at hn
      cases hn

/-- The fallback keeps the rows of two filled tables. The new one takes the
place of the live one when the live one is old. -/
theorem renameFallback_keeps {live v2 : WindowTable} (hlive : db .tokiWindows=some live)
    (hv2 : db .tokiWindowsV2=some v2) (hrows : rows⊆live.rows) (hrows' : rows⊆v2.rows)
    (hnew : live.hasUpdatedAt=false → v2.hasUpdatedAt=true) :
    Keeps rows asked renameFallback db := by
  have hkept : Kept rows db := .inl ⟨live,hlive,hrows⟩
  rw [renameFallback]
  cases hold : db .tokiWindowsOld with
  | some table =>
    -- a leftover `toki_windows_old` stands in the way of the rename
    exact Keeps.rejected (by decide) (by simp only [effect,hlive,hold]) hkept
  | none =>
    have haway : effect (.renameTable .tokiWindows .tokiWindowsOld) db=
        some (Function.update (Function.update db .tokiWindows none) .tokiWindowsOld
          (some live),0) := by
      simp only [effect,hlive,hold]
    have hkept' : Kept rows (Function.update (Function.update db .tokiWindows none)
        .tokiWindowsOld (some live)) := .inr ⟨rfl,v2,hv2,hrows'⟩
    apply Keeps.statement (by decide) haway hkept hkept'
    intro hadmitted
    have hplace : effect (.renameTable .tokiWindowsV2 .tokiWindows)
        (Function.update (Function.update db .tokiWindows none) .tokiWindowsOld (some live))=
        some (Function.update (Function.update (Function.update (Function.update db
          .tokiWindows none) .tokiWindowsOld (some live)) .tokiWindowsV2 none)
          .tokiWindows (some v2),0) := by
      have hv2' : Function.update (Function.update db .tokiWindows none) .tokiWindowsOld (some live)
          .tokiWindowsV2=some v2 := hv2
      simp only [effect,hv2']
      rfl
    apply Keeps.statement (by decide) hplace hkept' (.inl ⟨v2,rfl,hrows'⟩)
    intro _
    apply Keeps.statement (by decide) (rfl : effect (.dropTable .tokiWindowsOld) _=some (_,0))
      (.inl ⟨v2,rfl,hrows'⟩) (.inl ⟨v2,rfl,hrows'⟩)
    intro _
    apply Safe.done_ok (.inl ⟨v2,rfl,hrows'⟩)
    intro hasked
    have hlacks : (db .tokiWindows).any WindowTable.hasUpdatedAt=false := hadmitted hasked
    rw [hlive] at hlacks
    exact ⟨v2,rfl,hnew hlacks,hrows'⟩

/-- The staging table may go once the live table is migrated. -/
theorem dropExchanged_keeps (h : Migrated rows db) : Keeps rows asked dropExchanged db := by
  obtain ⟨live,hlive,hnew,hrows⟩ := h
  apply Keeps.statement (by decide) (rfl : effect (.dropTable .tokiWindowsV2) _=some (_,0))
    (.inl ⟨live,hlive,hrows⟩) (.inl ⟨live,hlive,hrows⟩)
  intro _
  exact Safe.done_ok (.inl ⟨live,hlive,hrows⟩) fun _ => ⟨live,hlive,hnew,hrows⟩

/-- The swap of a table with a filled staging table, by either way. -/
theorem swapTables_keeps {live v2 : WindowTable} (hlive : db .tokiWindows=some live)
    (hv2 : db .tokiWindowsV2=some v2) (hrows : rows⊆live.rows) (hrows' : rows⊆v2.rows)
    (hnew : v2.hasUpdatedAt=true) : Keeps rows asked swapTables db := by
  have hkept : Kept rows db := .inl ⟨live,hlive,hrows⟩
  have hexchange : effect .exchangeTables db=some (Function.update (Function.update db
      .tokiWindows (some v2)) .tokiWindowsV2 (some live),0) := by
    simp only [effect,hlive,hv2]
  refine ⟨fun _ => hkept,?_⟩
  intro t reply houtcome _
  rcases houtcome.whole (by decide) with ⟨ht,hr⟩ | ⟨count,hcount,hr⟩
  · -- refused: the fallback swaps
    rw [ht,hr]
    exact renameFallback_keeps hlive hv2 hrows hrows' fun _ => hnew
  · rw [hexchange] at hcount
    cases hcount
    rcases hr with hr | hr
    · -- exchanged without a reply: the fallback finds the tables swapped
      have hvacuous : v2.hasUpdatedAt=false → live.hasUpdatedAt=true := by
        intro hfalse
        rw [hnew] at hfalse
        cases hfalse
      rw [hr]
      exact renameFallback_keeps rfl rfl hrows' hrows hvacuous
    · rw [hr]
      exact dropExchanged_keeps ⟨v2,rfl,hnew,hrows'⟩

/-- The copy fills an empty staging table, whole or in part. -/
theorem copyRows_keeps {old : List WindowRow} (hlive : db .tokiWindows=some (.oldSchema old))
    (hv2 : db .tokiWindowsV2=some (.newSchema [])) (hrows : rows⊆old) :
    Keeps rows asked (.require .copyRows fun _ => swapTables) db := by
  have hkept : Kept rows db := .inl ⟨_,hlive,hrows⟩
  have hcopy : effect .copyRows db=
      some (Function.update db .tokiWindowsV2 (some (.newSchema (old.map copiedRow))),0) := by
    simp only [effect,hlive,hv2,List.nil_append]
  apply Safe.require (fun _ => hkept)
  · intro t houtcome _
    cases houtcome with
    | lostReply heffect =>
      rw [hcopy] at heffect
      cases heffect
      exact .inl ⟨_,hlive,hrows⟩
    | refused => exact hkept
    | partialCopy _ _ _ => exact .inl ⟨_,hlive,hrows⟩
  · intro t r houtcome _
    cases houtcome with
    | answered heffect =>
      rw [hcopy] at heffect
      cases heffect
      have hcopied : (WindowTable.newSchema (old.map copiedRow)).rows=old := by
        rw [WindowTable.rows,List.map_map]
        exact List.map_id old
      exact swapTables_keeps hlive rfl hrows (hcopied.symm ▸ hrows) rfl

/-- The rebuild keeps the rows of a live table of either schema. -/
theorem migrateWindowsTable_keeps (h : HasRows rows .tokiWindows db) :
    Keeps rows asked migrateWindowsTable db := by
  have hkept : Kept rows db := .inl h
  obtain ⟨live,hlive,hrows⟩ := h
  rw [migrateWindowsTable]
  cases live with
  | newSchema migrated =>
    have hcount : effect .countUpdatedAt db=some (db,1) := by
      rw [effect,hlive]
      rfl
    apply Keeps.unchanged (by decide) hcount hkept
    exact Safe.done_ok hkept fun _ => ⟨_,hlive,rfl,hrows⟩
  | oldSchema old =>
    have hcount : effect .countUpdatedAt db=some (db,0) := by
      rw [effect,hlive]
      rfl
    apply Keeps.unchanged (by decide) hcount hkept
    have hkept' : ∀ table, Kept rows (Function.update db .tokiWindowsV2 table) :=
      fun _ => .inl ⟨_,hlive,hrows⟩
    apply Keeps.statement (by decide) (rfl : effect (.dropTable .tokiWindowsV2) db=some (_,0))
      hkept (hkept' none)
    intro _
    have hcreate : effect (.createWindows .tokiWindowsV2) (Function.update db .tokiWindowsV2 none)=
        some (Function.update db .tokiWindowsV2 (some (.newSchema [])),0) := by
      simp only [effect,Function.update_self,Option.isSome_none,Function.update_idem]
      rfl
    apply Keeps.statement (by decide) hcreate (hkept' none) (hkept' _)
    intro _
    exact copyRows_keeps hlive rfl hrows

/-- Table creation finds the live table and leaves it as it is. -/
theorem createTable_keeps (h : HasRows rows .tokiWindows db) :
    Keeps rows asked createTable db := by
  have hkept : Kept rows db := .inl h
  obtain ⟨live,hlive,hrows⟩ := h
  have hcreate : effect (.createWindows .tokiWindows) db=some (db,0) := by
    simp only [effect,hlive,Option.isSome_some,if_true]
  apply Keeps.unchanged (by decide) (rfl : effect .createEvents db=some (db,0)) hkept
  apply Keeps.unchanged (by decide) (rfl : effect .addSession db=some (db,0)) hkept
  apply Keeps.unchanged (by decide) hcreate hkept
  exact migrateWindowsTable_keeps ⟨live,hlive,hrows⟩

/-- A startup keeps the rows wherever it begins: without a live table it
recovers the staging table first. -/
theorem startup_keeps (h : Kept rows db) : Keeps rows asked startup db := by
  rw [startup,recoverInterruptedMigration]
  rcases h with hlive | ⟨hnone,v2,hv2,hrows⟩
  · obtain ⟨live,hsome,hrows⟩ := hlive
    have hcount : effect (.countTables .tokiWindows) db=some (db,1) := by
      rw [effect,hsome]
      rfl
    apply Keeps.unchanged (by decide) hcount (.inl ⟨live,hsome,hrows⟩)
    exact createTable_keeps ⟨live,hsome,hrows⟩
  · have hkept : Kept rows db := .inr ⟨hnone,v2,hv2,hrows⟩
    have hcount : effect (.countTables .tokiWindows) db=some (db,0) := by
      rw [effect,hnone]
      rfl
    have hstaged : effect (.countTables .tokiWindowsV2) db=some (db,1) := by
      rw [effect,hv2]
      rfl
    have hrename : effect (.renameTable .tokiWindowsV2 .tokiWindows) db=
        some (Function.update (Function.update db .tokiWindowsV2 none) .tokiWindows
          (some v2),0) := by
      simp only [effect,hv2,hnone]
    apply Keeps.unchanged (by decide) hcount hkept
    apply Keeps.unchanged (by decide) hstaged hkept
    apply Keeps.statement (by decide) hrename hkept (.inl ⟨v2,rfl,hrows⟩)
    intro _
    exact createTable_keeps ⟨v2,rfl,hrows⟩

end

/-- Over any startups, killed, refused and answered in any way, every row of
the old table is in some table. When the fallback is entered only with an old
`toki_windows`, a startup that has just succeeded leaves the migrated table. -/
theorem keeps_history (rows : List WindowRow) :
    (∀ history p, Run ServerStep ⟨beforeMigration rows,none⟩ history p →
      ∀ row∈rows, InSomeTable p.store row) ∧
    ∀ past p, Run (GuardedStep startup Outcome RenamesOldSchema) ⟨beforeMigration rows,none⟩
        (.exit true::past) p → Migrated rows p.store := by
  have hinit : Kept rows (beforeMigration rows) := .inl ⟨_,rfl,List.Subset.refl rows⟩
  constructor
  · intro history p run row hrow
    have hguarded : Run (GuardedStep startup Outcome (Admitted False))
        ⟨beforeMigration rows,none⟩ history p :=
      run.mono fun _ _ _ hstep => ⟨hstep,fun h => h.elim⟩
    have hkept : Kept rows p.store :=
      Sound.always (fun db h => startup_keeps h) hinit (fun _ h => h.elim) hguarded
    exact hkept.inSomeTable hrow
  · intro past p run
    have hguarded : Run (GuardedStep startup Outcome (Admitted True))
        ⟨beforeMigration rows,none⟩ (.exit true::past) p :=
      run.mono fun _ _ _ hstep => ⟨hstep.1,fun _ => hstep.2⟩
    exact (Sound.exited (fun db h => startup_keeps h) hinit hguarded).2 trivial

/-- A row for the sample runs. -/
def sampleRow : WindowRow := ⟨"u1","codex",sampleWindow 1000 300 60000⟩

/-- The label of a launch. -/
def launched : Event Statement ℕ := .launch

/-- The label of a statement that is answered. -/
def answered (stmt : Statement) (count : ℕ) : Event Statement ℕ := .exec stmt (some count)

/-- The label of a statement whose reply is an error. -/
def failed (stmt : Statement) : Event Statement ℕ := .exec stmt none

/-- The label of a startup that returns. -/
def returned (ok : Bool) : Event Statement ℕ := .exit ok

/-- A server without EXCHANGE migrates the row by the fallback. -/
theorem keeps_history_fallback : ∃ past p,
    Run (GuardedStep startup Outcome RenamesOldSchema) ⟨beforeMigration [sampleRow],none⟩
      (.exit true::past) p ∧
      (∀ row∈[sampleRow], InSomeTable p.store row) ∧ Migrated [sampleRow] p.store := by
  have h : Run (GuardedStep startup Outcome RenamesOldSchema)
      ⟨beforeMigration [sampleRow],none⟩ [] ⟨beforeMigration [sampleRow],none⟩ := .start
  have h := h.next launched ⟨.launch,trivial⟩
  have h := h.next (answered (.countTables .tokiWindows) 1) ⟨.exec (.answered rfl),trivial⟩
  have h := h.next (answered .createEvents 0) ⟨.exec (.answered rfl),trivial⟩
  have h := h.next (answered .addSession 0) ⟨.exec (.answered rfl),trivial⟩
  have h := h.next (answered (.createWindows .tokiWindows) 0) ⟨.exec (.answered rfl),trivial⟩
  have h := h.next (answered .countUpdatedAt 0) ⟨.exec (.answered rfl),trivial⟩
  have h := h.next (answered (.dropTable .tokiWindowsV2) 0) ⟨.exec (.answered rfl),trivial⟩
  have h := h.next (answered (.createWindows .tokiWindowsV2) 0)
    ⟨.exec (.answered rfl),trivial⟩
  have h := h.next (answered .copyRows 0) ⟨.exec (.answered rfl),trivial⟩
  have h := h.next (failed .exchangeTables) ⟨.exec .refused,trivial⟩
  have h := h.next (answered (.renameTable .tokiWindows .tokiWindowsOld) 0)
    ⟨.exec (.answered rfl),rfl⟩
  have h := h.next (answered (.renameTable .tokiWindowsV2 .tokiWindows) 0)
    ⟨.exec (.answered rfl),trivial⟩
  have h := h.next (answered (.dropTable .tokiWindowsOld) 0) ⟨.exec (.answered rfl),trivial⟩
  have h := h.next (returned true) ⟨.exit,trivial⟩
  have hrun : Run ServerStep ⟨beforeMigration [sampleRow],none⟩ _ _ := h.mono fun _ _ _ h => h.1
  have hkept := (keeps_history [sampleRow]).1 _ _ hrun
  have hmigrated := (keeps_history [sampleRow]).2 _ _ h
  exact ⟨_,_,h,hkept,hmigrated⟩

/-- EXCHANGE takes effect and its reply is lost. The fallback swaps the tables
back, and the startup succeeds with the old schema. -/
theorem lost_exchange_reply : ∃ past p,
    Run ServerStep ⟨beforeMigration [sampleRow],none⟩ (.exit true::past) p ∧
      ¬Migrated [sampleRow] p.store := by
  have h : Run ServerStep ⟨beforeMigration [sampleRow],none⟩ []
      ⟨beforeMigration [sampleRow],none⟩ := .start
  have h := h.next launched .launch
  have h := h.next (answered (.countTables .tokiWindows) 1) (.exec (.answered rfl))
  have h := h.next (answered .createEvents 0) (.exec (.answered rfl))
  have h := h.next (answered .addSession 0) (.exec (.answered rfl))
  have h := h.next (answered (.createWindows .tokiWindows) 0) (.exec (.answered rfl))
  have h := h.next (answered .countUpdatedAt 0) (.exec (.answered rfl))
  have h := h.next (answered (.dropTable .tokiWindowsV2) 0) (.exec (.answered rfl))
  have h := h.next (answered (.createWindows .tokiWindowsV2) 0) (.exec (.answered rfl))
  have h := h.next (answered .copyRows 0) (.exec (.answered rfl))
  have h := h.next (failed .exchangeTables) (.exec (.lostReply rfl))
  have h := h.next (answered (.renameTable .tokiWindows .tokiWindowsOld) 0)
    (.exec (.answered rfl))
  have h := h.next (answered (.renameTable .tokiWindowsV2 .tokiWindows) 0)
    (.exec (.answered rfl))
  have h := h.next (answered (.dropTable .tokiWindowsOld) 0) (.exec (.answered rfl))
  have h := h.next (returned true) .exit
  refine ⟨_,_,h,?_⟩
  intro hmigrated
  obtain ⟨table,hlive,hnew,_⟩ := hmigrated
  cases hlive
  cases hnew

end TokiSync.WindowsMigration
