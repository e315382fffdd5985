import TokiSync.CrashPrograms
import TokiSync.KeyedRows

/-!
# Rebuilding the SQLite cursors table

Every open of the database creates the tables and then rebuilds a `cursors`
table whose primary key lacks the provider: the table is renamed away, a new
one is created, the rows are copied and the old table is dropped. The errors of
most of these statements are ignored. The rows survive the opens in which no
statement fails, and no kill falls, while they are in `cursors_old` only.
-/

namespace TokiSync.CursorRebuild

open Runs CrashPrograms KeyedRows

/-- A row of a table without the provider column. -/
structure DeviceCursor where
  deviceId : String
  lastTs : Int64
  updatedAt : Int64

/-- A row of a table with the provider column. -/
structure CursorRow where
  deviceId : String
  provider : String
  lastTs : Int64
  updatedAt : Int64

/-- The composite primary key. -/
def CursorRow.key (row : CursorRow) : String×String := (row.deviceId,row.provider)

/-- A cursors table in one of its schemas. -/
inductive CursorTable where
  /-- No provider column. -/
  | withoutProvider (rows : Table DeviceCursor.deviceId)
  /-- A provider column outside the primary key. -/
  | withProvider (rows : Table CursorRow.deviceId)
  /-- The provider is part of the primary key. -/
  | composite (rows : Table CursorRow.key)

/-- The row a device without a provider column is copied to. -/
def DeviceCursor.toRow (row : DeviceCursor) : CursorRow :=
  ⟨row.deviceId,"",row.lastTs,row.updatedAt⟩

namespace CursorTable

/-- Whether the table has a column `provider`. -/
def hasProvider : CursorTable → Bool
  | .withoutProvider _ => false
  | .withProvider _ => true
  | .composite _ => true

/-- Whether the column `provider` is in the primary key. -/
def providerInPk : CursorTable → Bool
  | .withoutProvider _ => false
  | .withProvider _ => false
  | .composite _ => true

/-- The rows, with the empty provider where there is no such column. -/
def rows : CursorTable → List CursorRow
  | .withoutProvider table => table.rows.map DeviceCursor.toRow
  | .withProvider table => table.rows
  | .composite table => table.rows

/-- INSERT OR IGNORE of rows with four columns. Nothing is returned where the
columns do not fit. -/
def insertOrIgnore (rows : List CursorRow) : CursorTable → Option CursorTable
  | .withoutProvider _ => none
  | .withProvider table => some (.withProvider (table.insertAllNew rows))
  | .composite table => some (.composite (table.insertAllNew rows))

end CursorTable

/-- The two tables of the rebuild. -/
structure Database where
  cursors : Option CursorTable
  cursorsOld : Option CursorTable

/-- Statements of an open. -/
inductive Statement where
  /-- CREATE TABLE IF NOT EXISTS cursors, with the composite primary key. -/
  | createCursors
  /-- Whether `provider` is in the primary key of `cursors`. -/
  | providerInPk
  /-- Whether `cursors` has the column `provider`. -/
  | hasProvider
  /-- ALTER TABLE cursors RENAME TO cursors_old. -/
  | renameCursors
  /-- INSERT OR IGNORE INTO cursors SELECT from cursors_old, with the provider
  column or with the constant ''. -/
  | copyCursors (provider : Bool)
  /-- DROP TABLE IF EXISTS cursors_old. -/
  | dropCursorsOld
  /-- Whether there are no users. -/
  | noUsers
  /-- A statement about other tables. -/
  | other (context : String)

/-- The rows that a copy selects, if `cursors_old` has the columns. -/
def selectOld (provider : Bool) (old : CursorTable) : Option (List CursorRow) :=
  if provider then
    if old.hasProvider then some old.rows else none
  else
    some (old.rows.map fun row => ⟨row.deviceId,"",row.lastTs,row.updatedAt⟩)

/-- The database after a statement about the two tables and its reply, true
where nothing is asked. Nothing is returned where SQLite reports an error. -/
def effect : Statement → Database → Option (Database×Bool)
  | .createCursors, db =>
    some (if db.cursors.isSome then db else ⟨some (.composite .empty),db.cursorsOld⟩,true)
  | .providerInPk, db => some (db,db.cursors.any CursorTable.providerInPk)
  | .hasProvider, db => some (db,db.cursors.any CursorTable.hasProvider)
  | .renameCursors, db =>
    match db.cursors, db.cursorsOld with
    | some table, none => some (⟨none,some table⟩,true)
    | _, _ => none
  | .copyCursors provider, db =>
    match db.cursors, db.cursorsOld.bind (selectOld provider) with
    | some table, some selected =>
      (table.insertOrIgnore selected).map fun filled => (⟨some filled,db.cursorsOld⟩,true)
    | _, _ => none
  | .dropCursorsOld, db => some (⟨db.cursors,none⟩,true)
  | .noUsers, _ => none
  | .other _, _ => none

/-- What can come of a statement: the database after it and the reply. -/
inductive Outcome : Database → Statement → Database → Option Bool → Prop where
  /-- The statement takes effect. -/
  | answered {db db' : Database} {stmt : Statement} {reply : Bool}
      (heffect : effect stmt db=some (db',reply)) : Outcome db stmt db' (some reply)
  /-- The statement fails without effect. -/
  | failed {db : Database} {stmt : Statement} : Outcome db stmt db none
  /-- Users are counted. -/
  | counted {db : Database} {reply : Bool} : Outcome db .noUsers db (some reply)
  /-- Another table is changed. -/
  | elsewhere {db : Database} {context : String} : Outcome db (.other context) db (some true)

/-- Statements still to send. -/
abbrev Migration := Program Statement Bool

/-- Statements about other tables; a failure of one with a context ends the
migration, that of the others is ignored. -/
def others (next : Migration) : List (Bool×String) → Migration
  | [] => next
  | (required,context)::rest =>
    if required then
      .require (.other context) fun _ => others next rest
    else
      .ignore (.other context) (others next rest)

/-- The default admin of a database without users. -/
def seedAdmin : Migration :=
  .exec .noUsers fun reply =>
    if reply.getD true then
      .require (.other "seed: create default admin") fun _ => .done true
    else
      .done true

/-- The statements behind the rebuild. -/
def laterMigrations : Migration :=
  others seedAdmin [(false,"device_key"),(false,"idx_devices_device_key"),
    (true,"migrate: create teams"),(true,"migrate: create team_members"),
    (false,"idx_team_members_user"),(false,"oidc_sub"),(false,"oidc_issuer"),
    (false,"idx_users_oidc"),(true,"migrate: create device_codes"),
    (true,"migrate: create pending_registrations"),(true,"migrate: create server_settings"),
    (true,"migrate: create monitor_settings"),(false,"active")]

/-- The rebuild, once the schema of the old table is known. -/
def copyAside (hasProvider : Bool) : Migration :=
  .ignore .renameCursors
    (.require .createCursors fun _ =>
      .ignore (.copyCursors hasProvider) (.ignore .dropCursorsOld laterMigrations))

/-- The rebuild of a table whose primary key lacks the provider. -/
def rebuildCursors : Migration :=
  .exec .providerInPk fun providerInPk =>
    if providerInPk.getD false then
      laterMigrations
    else
      .exec .hasProvider fun hasProvider => copyAside (hasProvider.getD false)

/-- The statements of `SqliteRepo::open`. -/
def migrate : Migration :=
  others
    (.require .createCursors fun _ =>
      others rebuildCursors [(true,"migrate: create refresh_tokens"),
        (true,"migrate: idx_refresh_tokens_user")])
    [(true,"failed to open SQLite"),(true,"migrate: create users"),
      (true,"migrate: create devices"),(true,"migrate: idx_devices_user_id")]

/-- What a cursor says: the device, the provider and the time. -/
structure Cursor where
  deviceId : String
  provider : String
  lastTs : Int64
  deriving DecidableEq

/-- What a row says. -/
def CursorRow.cursor (row : CursorRow) : Cursor := ⟨row.deviceId,row.provider,row.lastTs⟩

/-- Cursors of a table. -/
def CursorTable.cursors (table : CursorTable) : List Cursor := table.rows.map CursorRow.cursor

/-- Cursors of a table that may be missing. -/
def cursorsOf (table : Option CursorTable) : List Cursor :=
  table.elim [] CursorTable.cursors

/-- A cursor is in `cursors_old` and not in `cursors`. -/
def Aside (db : Database) (cursor : Cursor) : Prop :=
  cursor∈cursorsOf db.cursorsOld ∧ cursor∉cursorsOf db.cursors

/-- No open is killed, and no creation or copy of the table fails, while a
cursor is in `cursors_old` only; no cursor with a provider is copied with the
constant ''; the old table does not fail to be renamed. -/
def Undisturbed (db : Database) : Event Statement Bool → Prop
  | .kill => ∀ cursor, ¬Aside db cursor
  | .exec .createCursors none => ∀ cursor, ¬Aside db cursor
  | .exec (.copyCursors _) none => ∀ cursor, ¬Aside db cursor
  | .exec (.copyCursors false) (some _) => ∀ cursor, Aside db cursor → cursor.provider=""
  | .exec .renameCursors none => ∀ table, db.cursors=some table → table.providerInPk=true
  | _ => True

/-- The table has the composite primary key and a row for every cursor of the
original one. -/
def Rebuilt (original : CursorTable) (db : Database) : Prop :=
  ∃ table, db.cursors=some table ∧ table.providerInPk=true ∧ original.cursors⊆table.cursors

section

variable (original : CursorTable)

/-- Between opens: the original table is still in place, or it is rebuilt, or
there was nothing in it. -/
def Kept (db : Database) : Prop :=
  (db.cursors=some original ∧ db.cursorsOld=none) ∨ Rebuilt original db ∨
    (db.cursors=none ∧ original.cursors=[])

/-- From the database a program keeps the cursors, and leaves the table
rebuilt when it succeeds. -/
abbrev Keeps (prog : Migration) (db : Database) : Prop :=
  Safe Outcome Undisturbed (Kept original) (Rebuilt original) prog db

/-- The renamed table has every cursor, and the columns of the coming copy. -/
structure Source (provider : Bool) (old : CursorTable) : Prop where
  /-- Nothing was lost so far. -/
  all : original.cursors⊆old.cursors
  /-- The provider is copied from a table that has it. -/
  column : provider=true → old.hasProvider=true

variable {original} {provider : Bool} {old : CursorTable} {db db' : Database}
  {reply : Option Bool}

theorem Rebuilt.kept (h : Rebuilt original db) : Kept original db := .inr (.inl h)

/-- Nothing is aside when nothing is in `cursors_old`. -/
theorem Source.empty_of_no_aside (h : Source original provider old)
    (hcursors : cursorsOf db.cursors=[]) (hold : db.cursorsOld=some old)
    (hnone : ∀ cursor, ¬Aside db cursor) : original.cursors=[] := by
  apply List.eq_nil_iff_forall_not_mem.mpr
  intro cursor hcursor
  have haside : Aside db cursor := by
    rw [Aside,hcursors,hold]
    exact ⟨h.all hcursor,List.not_mem_nil⟩
  exact hnone cursor haside

/-- Statements about other tables keep the cursors. -/
theorem others_keeps {next : Migration} (hkept : Kept original db)
    (hnext : Keeps original next db) (list : List (Bool×String)) :
    Keeps original (others next list) db := by
  induction list with
  | nil => exact hnext
  | cons first rest ih =>
    obtain ⟨required,context⟩ := first
    cases required with
    | true =>
      apply Safe.require (fun _ => hkept)
      · intro t houtcome _
        cases houtcome with
        | failed => exact hkept
      · intro t r houtcome _
        cases houtcome with
        | answered heffect => cases heffect
        | elsewhere => exact ih
    | false =>
      apply Safe.ignore (fun _ => hkept)
      intro t r houtcome _
      cases houtcome with
      | answered heffect => cases heffect
      | failed => exact ih
      | elsewhere => exact ih

theorem seedAdmin_keeps (h : Rebuilt original db) : Keeps original seedAdmin db := by
  refine ⟨fun _ => h.kept,?_⟩
  intro t reply houtcome _
  have ht : t=db := by
    cases houtcome with
    | answered heffect => cases heffect
    | failed => rfl
    | counted => rfl
  rw [ht]
  dsimp only
  split
  · apply Safe.require (fun _ => h.kept)
    · intro u houtcome _
      cases houtcome with
      | failed => exact h.kept
    · intro u r houtcome _
      cases houtcome with
      | answered heffect => cases heffect
      | elsewhere => exact Safe.done_ok h.kept h
  · exact Safe.done_ok h.kept h

theorem laterMigrations_keeps (h : Rebuilt original db) : Keeps original laterMigrations db :=
  others_keeps h.kept (seedAdmin_keeps h) _

/-- Dropping `cursors_old` leaves a rebuilt table alone. -/
theorem Rebuilt.dropCursorsOld (h : Rebuilt original db)
    (houtcome : Outcome db .dropCursorsOld db' reply) : Rebuilt original db' := by
  cases houtcome with
  | answered heffect =>
    cases heffect
    exact h
  | failed => exact h

/-- Creating the table if it is missing leaves a rebuilt table alone. -/
theorem Rebuilt.createCursors (h : Rebuilt original db)
    (houtcome : Outcome db .createCursors db' reply) : Rebuilt original db' := by
  cases houtcome with
  | answered heffect =>
    obtain ⟨table,htable,_⟩ := h
    rw [effect,htable,Option.isSome_some,if_pos rfl] at heffect
    cases heffect
    exact ⟨table,htable,by assumption⟩
  | failed => exact h

/-- Copying into a rebuilt table adds rows at most. -/
theorem Rebuilt.copyCursors (h : Rebuilt original db)
    (houtcome : Outcome db (.copyCursors provider) db' reply) : Rebuilt original db' := by
  cases houtcome with
  | failed => exact h
  | answered heffect =>
    obtain ⟨table,htable,hkey,hall⟩ := h
    cases table with
    | withoutProvider _ => cases hkey
    | withProvider _ => cases hkey
    | composite rows =>
      cases hselected : db.cursorsOld.bind (selectOld provider) with
      | none =>
        simp only [effect,htable,hselected] at heffect
        cases heffect
      | some selected =>
        simp only [effect,htable,hselected,CursorTable.insertOrIgnore,Option.map_some] at heffect
        cases heffect
        refine ⟨_,rfl,rfl,?_⟩
        intro cursor hcursor
        obtain ⟨row,hrow,hcursorOf⟩ := List.mem_map.mp (hall hcursor)
        exact List.mem_map.mpr ⟨row,Table.mem_insertAllNew_of_mem hrow,hcursorOf⟩

/-- Rows of one table have different composite keys. -/
theorem CursorTable.key_nodup (table : CursorTable) : (table.rows.map CursorRow.key).Nodup := by
  cases table with
  | withoutProvider rows =>
    have hnodup : ((rows.rows.map DeviceCursor.deviceId).map fun d => (d,"")).Nodup :=
      rows.unique.map fun a b h => congrArg Prod.fst h
    rw [List.map_map] at hnodup
    rw [CursorTable.rows,List.map_map]
    exact hnodup
  | withProvider rows =>
    have hnodup : ((rows.rows.map CursorRow.key).map Prod.fst).Nodup := by
      rw [List.map_map]
      exact rows.unique
    exact hnodup.of_map
  | composite rows => exact rows.unique

/-- Without providers the copy with the constant '' selects the same rows. -/
theorem selectOld_rows (hcolumn : provider=true → old.hasProvider=true)
    (hempty : provider=false → ∀ cursor∈old.cursors, cursor.provider="") :
    selectOld provider old=some old.rows := by
  cases provider with
  | true =>
    rw [selectOld,if_pos rfl,if_pos (hcolumn rfl)]
  | false =>
    rw [selectOld,if_neg Bool.false_ne_true]
    have hsame : ∀ row∈old.rows, (⟨row.deviceId,"",row.lastTs,row.updatedAt⟩ : CursorRow)=row := by
      intro row hrow
      have hprovider : row.provider="" := hempty rfl _ (List.mem_map_of_mem hrow)
      rw [← hprovider]
    rw [List.map_congr_left hsame,List.map_id']

/-- The copy from the renamed table into the empty new one rebuilds it: it
does not fail while there are rows to copy, and selects every row. -/
theorem Source.copyCursors (h : Source original provider old)
    (houtcome : Outcome ⟨some (.composite .empty),some old⟩ (.copyCursors provider) db' reply)
    (hmay : Undisturbed ⟨some (.composite .empty),some old⟩ (.exec (.copyCursors provider) reply)) :
    Rebuilt original db' := by
  cases houtcome with
  | failed =>
    have hnothing := h.empty_of_no_aside rfl rfl hmay
    refine ⟨_,rfl,rfl,?_⟩
    rw [hnothing]
    exact List.nil_subset _
  | answered heffect =>
    have hempty : provider=false → ∀ cursor∈old.cursors, cursor.provider="" := by
      intro hprovider cursor hcursor
      rw [hprovider] at hmay
      exact hmay cursor ⟨hcursor,List.not_mem_nil⟩
    have hselected : (some old).bind (selectOld provider)=some old.rows :=
      selectOld_rows h.column hempty
    simp only [effect,hselected,CursorTable.insertOrIgnore,Option.map_some] at heffect
    cases heffect
    refine ⟨_,rfl,rfl,?_⟩
    intro cursor hcursor
    obtain ⟨row,hrow,hcursorOf⟩ := List.mem_map.mp (h.all hcursor)
    have hinserted : row∈((Table.empty : Table CursorRow.key).insertAllNew old.rows).rows :=
      Table.mem_insertAllNew old.key_nodup (fun _ _ => rfl) hrow
    exact List.mem_map.mpr ⟨row,hinserted,hcursorOf⟩

/-- The last two statements of the rebuild. -/
theorem finishRebuild_keeps {hasProvider : Bool} (hkill : Undisturbed db .kill → Kept original db)
    (hcopy : ∀ db' reply, Outcome db (.copyCursors hasProvider) db' reply →
      Undisturbed db (.exec (.copyCursors hasProvider) reply) → Rebuilt original db') :
    Keeps original (.ignore (.copyCursors hasProvider) (.ignore .dropCursorsOld laterMigrations))
      db := by
  apply Safe.ignore hkill
  intro t reply houtcome hmay
  have hrebuilt := hcopy t reply houtcome hmay
  apply Safe.ignore (fun _ => hrebuilt.kept)
  intro u reply' houtcome' _
  exact laterMigrations_keeps (hrebuilt.dropCursorsOld houtcome')

/-- The new table, beside the renamed one. -/
theorem Source.copy_keeps (h : Source original provider old) :
    Keeps original (.ignore (.copyCursors provider) (.ignore .dropCursorsOld laterMigrations))
      ⟨some (.composite .empty),some old⟩ := by
  apply finishRebuild_keeps
  · intro hmay
    have hnothing := h.empty_of_no_aside rfl rfl hmay
    refine Rebuilt.kept ⟨_,rfl,rfl,?_⟩
    rw [hnothing]
    exact List.nil_subset _
  · intro t reply houtcome hmay
    exact h.copyCursors houtcome hmay

/-- The rebuild after the table was renamed away. -/
theorem Source.create_keeps (h : Source original provider old) :
    Keeps original (.require .createCursors fun _ =>
      .ignore (.copyCursors provider) (.ignore .dropCursorsOld laterMigrations))
      ⟨none,some old⟩ := by
  have hkept : (∀ cursor, ¬Aside ⟨none,some old⟩ cursor) → Kept original ⟨none,some old⟩ :=
    fun hnone => .inr (.inr ⟨rfl,h.empty_of_no_aside rfl rfl hnone⟩)
  apply Safe.require hkept
  · intro t houtcome hmay
    cases houtcome with
    | failed => exact hkept hmay
  · intro t r houtcome _
    cases houtcome with
    | answered heffect =>
      cases heffect
      exact h.copy_keeps

/-- The rebuild over a table that has the composite key already. -/
theorem Rebuilt.create_keeps (h : Rebuilt original db) :
    Keeps original (.require .createCursors fun _ =>
      .ignore (.copyCursors provider) (.ignore .dropCursorsOld laterMigrations)) db := by
  apply Safe.require (fun _ => h.kept)
  · intro t houtcome _
    exact (h.createCursors houtcome).kept
  · intro t r houtcome _
    have hcreated := h.createCursors houtcome
    exact finishRebuild_keeps (fun _ => hcreated.kept)
      fun _ _ houtcome' _ => hcreated.copyCursors houtcome'

/-- The rebuild of a table that can be renamed. -/
theorem copyAside_keeps {table : CursorTable} (hcursors : db.cursors=some table)
    (hold : db.cursorsOld=none) (hkept : Kept original db)
    (hsource : Source original provider table) : Keeps original (copyAside provider) db := by
  apply Safe.ignore (fun _ => hkept)
  intro t reply houtcome hmay
  cases houtcome with
  | answered heffect =>
    simp only [effect,hcursors,hold] at heffect
    cases heffect
    exact hsource.create_keeps
  | failed =>
    have hrebuilt : Rebuilt original db := ⟨table,hcursors,hmay table hcursors,hsource.all⟩
    exact hrebuilt.create_keeps

/-- The rebuild of a table that stays in place beside an older one. -/
theorem Rebuilt.copyAside_keeps (h : Rebuilt original db) (hold : db.cursorsOld≠none) :
    Keeps original (copyAside provider) db := by
  apply Safe.ignore (fun _ => h.kept)
  intro t reply houtcome _
  have ht : t=db := by
    cases houtcome with
    | answered heffect =>
      obtain ⟨table,htable,_⟩ := h
      cases holdTable : db.cursorsOld with
      | none => exact absurd holdTable hold
      | some oldTable =>
        simp only [effect,htable,holdTable] at heffect
        cases heffect
    | failed => rfl
  rw [ht]
  exact h.create_keeps

/-- A query leaves the database alone and answers what it finds, or fails. -/
theorem Outcome.of_query {stmt : Statement} {found : Bool} (h : Outcome db stmt db' reply)
    (heffect : effect stmt db=some (db,found)) (hstmt : stmt≠.noUsers)
    (hstmt' : ∀ context, stmt≠.other context) : db'=db ∧ (reply=none ∨ reply=some found) := by
  cases h with
  | answered hfound =>
    rw [heffect] at hfound
    cases hfound
    exact ⟨rfl,.inr rfl⟩
  | failed => exact ⟨rfl,.inl rfl⟩
  | counted => exact absurd rfl hstmt
  | elsewhere => exact absurd rfl (hstmt' _)

/-- The rebuild keeps a table of either kind, whatever the two queries answer. -/
theorem rebuildCursors_keeps (horiginal : original.providerInPk=false)
    (h : (db.cursors=some original ∧ db.cursorsOld=none) ∨ Rebuilt original db) :
    Keeps original rebuildCursors db := by
  have hkept : Kept original db := h.imp_right .inl
  refine ⟨fun _ => hkept,?_⟩
  intro t reply houtcome _
  obtain ⟨ht,hreply⟩ := houtcome.of_query rfl (by simp) (by simp)
  rw [ht]
  dsimp only
  split
  case isTrue hfound =>
    -- the key was found to have the provider, so this is not the original table
    rcases h with ⟨hcursors,_⟩ | hrebuilt
    · rcases hreply with hr | hr
      · rw [hr] at hfound
        cases hfound
      · rw [hr,hcursors,Option.getD_some,Option.any_some,horiginal] at hfound
        cases hfound
    · exact laterMigrations_keeps hrebuilt
  case isFalse =>
    refine ⟨fun _ => hkept,?_⟩
    intro u reply' houtcome' _
    obtain ⟨hu,hreply'⟩ := houtcome'.of_query rfl (by simp) (by simp)
    have hcolumn : ∀ table, db.cursors=some table → reply'.getD false=true →
        table.hasProvider=true := by
      intro table hcursors hfound
      rcases hreply' with hr | hr
      · rw [hr] at hfound
        cases hfound
      · rw [hr,hcursors] at hfound
        exact hfound
    rw [hu]
    rcases h with ⟨hcursors,hold⟩ | hrebuilt
    · exact copyAside_keeps hcursors hold hkept
        ⟨List.Subset.refl original.cursors,hcolumn original hcursors⟩
    · cases hold : db.cursorsOld with
      | none =>
        obtain ⟨table,hcursors,_,hall⟩ := hrebuilt
        exact copyAside_keeps hcursors hold hkept ⟨hall,hcolumn table hcursors⟩
      | some oldTable =>
        apply hrebuilt.copyAside_keeps
        rw [hold]
        exact Option.some_ne_none oldTable

/-- An open keeps the cursors wherever it begins. -/
theorem migrate_keeps (horiginal : original.providerInPk=false) (h : Kept original db) :
    Keeps original migrate db := by
  apply others_keeps h
  apply Safe.require (fun _ => h)
  · intro t houtcome _
    cases houtcome with
    | failed => exact h
  · intro t r houtcome _
    have hpresent : (t.cursors=some original ∧ t.cursorsOld=none) ∨ Rebuilt original t := by
      rcases h with ⟨hcursors,hold⟩ | hrebuilt | ⟨hcursors,hnothing⟩
      · cases houtcome with
        | answered heffect =>
          rw [effect,hcursors,Option.isSome_some,if_pos rfl] at heffect
          cases heffect
          exact .inl ⟨hcursors,hold⟩
      · exact .inr (hrebuilt.createCursors houtcome)
      · cases houtcome with
        | answered heffect =>
          rw [effect,hcursors,Option.isSome_none,if_neg Bool.false_ne_true] at heffect
          cases heffect
          refine .inr ⟨_,rfl,rfl,?_⟩
          rw [hnothing]
          exact List.nil_subset _
    have hkept : Kept original t := hpresent.imp_right .inl
    exact others_keeps hkept (rebuildCursors_keeps horiginal hpresent) _

end

/-- Over any opens, killed and failing in any way outside the rows' absence
from `cursors`, an open that has just succeeded leaves every cursor of the
original table in a table with the composite key. -/
theorem rebuilds (original : CursorTable) (horiginal : original.providerInPk=false) :
    ∀ past p, Run (GuardedStep migrate Outcome Undisturbed) ⟨⟨some original,none⟩,none⟩
      (.exit true::past) p → Rebuilt original p.store := by
  intro past p run
  have hinit : Kept original ⟨some original,none⟩ := .inl ⟨rfl,rfl⟩
  exact (Sound.exited (fun db h => migrate_keeps horiginal h) hinit run).2

/-- A table without the provider column and with one row. -/
def sampleTable : CursorTable := .withoutProvider (Table.empty.put ⟨"d1",5,7⟩)

/-- The database of the first open. -/
def sampleStart : Process Database Statement Bool := ⟨⟨some sampleTable,none⟩,none⟩

/-- The label of a launch. -/
def launched : Event Statement Bool := .launch

/-- The label of a kill. -/
def killed : Event Statement Bool := .kill

/-- The label of a statement that is answered. -/
def answered (stmt : Statement) (reply : Bool) : Event Statement Bool := .exec stmt (some reply)

/-- The label of an open that returns. -/
def returned (ok : Bool) : Event Statement Bool := .exit ok

/-- The statements about other tables can all be answered. -/
theorem others_answered {mayTake : Database → Event Statement Bool → Prop} {db : Database}
    (hmay : ∀ context, mayTake db (answered (.other context) true)) {next : Migration}
    {init : Process Database Statement Bool} (list : List (Bool×String)) :
    ∀ history, Run (GuardedStep migrate Outcome mayTake) init history
      ⟨db,some (others next list)⟩ →
      ∃ history', Run (GuardedStep migrate Outcome mayTake) init history' ⟨db,some next⟩ := by
  induction list with
  | nil => exact fun history h => ⟨history,h⟩
  | cons first rest ih =>
    intro history h
    obtain ⟨required,context⟩ := first
    cases required with
    | true =>
      have h := h.next (answered (.other context) true) ⟨.exec .elsewhere,hmay context⟩
      exact ih _ h
    | false =>
      have h := h.next (answered (.other context) true) ⟨.exec .elsewhere,hmay context⟩
      exact ih _ h

/-- The single row of the sample table survives an open. -/
theorem rebuilds_sample : ∃ past p,
    Run (GuardedStep migrate Outcome Undisturbed) sampleStart (.exit true::past) p ∧
      Rebuilt sampleTable p.store := by
  have h : Run (GuardedStep migrate Outcome Undisturbed) sampleStart [] sampleStart := .start
  have h := h.next launched ⟨.launch,trivial⟩
  obtain ⟨_,h⟩ := others_answered (fun _ => trivial) _ _ h
  have h := h.next (answered .createCursors true) ⟨.exec (.answered rfl),trivial⟩
  obtain ⟨_,h⟩ := others_answered (fun _ => trivial) _ _ h
  have h := h.next (answered .providerInPk false) ⟨.exec (.answered rfl),trivial⟩
  have h := h.next (answered .hasProvider false) ⟨.exec (.answered rfl),trivial⟩
  have h := h.next (answered .renameCursors true) ⟨.exec (.answered rfl),trivial⟩
  have h := h.next (answered .createCursors true) ⟨.exec (.answered rfl),trivial⟩
  have hcopied : ∀ cursor, Aside ⟨some (.composite .empty),some sampleTable⟩ cursor →
      cursor.provider="" := by
    intro cursor haside
    rw [List.mem_singleton.mp haside.1]
    rfl
  have h := h.next (answered (.copyCursors false) true) ⟨.exec (.answered rfl),hcopied⟩
  have h := h.next (answered .dropCursorsOld true) ⟨.exec (.answered rfl),trivial⟩
  obtain ⟨_,h⟩ := others_answered (fun _ => trivial) _ _ h
  have h := h.next (answered .noUsers false) ⟨.exec .counted,trivial⟩
  have h := h.next (returned true) ⟨.exit,trivial⟩
  exact ⟨_,_,h,rebuilds sampleTable rfl _ _ h⟩

/-- The first open is killed between the renaming and the copy. The next one
creates an empty table with the composite key, finds nothing to rebuild and
succeeds. -/
theorem killed_after_rename : ∃ past p,
    Run (CrashPrograms.Step migrate Outcome) sampleStart (.exit true::past) p ∧
      ¬Rebuilt sampleTable p.store := by
  have h : Run (GuardedStep migrate Outcome fun _ _ => True) sampleStart [] sampleStart := .start
  have h := h.next launched ⟨.launch,trivial⟩
  obtain ⟨_,h⟩ := others_answered (fun _ => trivial) _ _ h
  have h := h.next (answered .createCursors true) ⟨.exec (.answered rfl),trivial⟩
  obtain ⟨_,h⟩ := others_answered (fun _ => trivial) _ _ h
  have h := h.next (answered .providerInPk false) ⟨.exec (.answered rfl),trivial⟩
  have h := h.next (answered .hasProvider false) ⟨.exec (.answered rfl),trivial⟩
  have h := h.next (answered .renameCursors true) ⟨.exec (.answered rfl),trivial⟩
  have h := h.next killed ⟨.kill,trivial⟩
  have h := h.next launched ⟨.launch,trivial⟩
  obtain ⟨_,h⟩ := others_answered (fun _ => trivial) _ _ h
  have h := h.next (answered .createCursors true) ⟨.exec (.answered rfl),trivial⟩
  obtain ⟨_,h⟩ := others_answered (fun _ => trivial) _ _ h
  have h := h.next (answered .providerInPk true) ⟨.exec (.answered rfl),trivial⟩
  obtain ⟨_,h⟩ := others_answered (fun _ => trivial) _ _ h
  have h := h.next (answered .noUsers false) ⟨.exec .counted,trivial⟩
  have h := h.next (returned true) ⟨.exit,trivial⟩
  refine ⟨_,_,h.mono fun _ _ _ hstep => hstep.1,?_⟩
  intro hrebuilt
  obtain ⟨table,hcursors,_,hall⟩ := hrebuilt
  cases hcursors
  have hcursor : (⟨"d1","",5⟩ : Cursor)∈sampleTable.cursors := List.mem_singleton_self _
  exact List.not_mem_nil (hall hcursor)

end TokiSync.CursorRebuild
