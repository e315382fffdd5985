import TokiSync.MonitorInvariant

/-!
# Histories of the monitor settings

From an empty table, whatever transactions commit, the quota holds and every
outcome tells what happened. A conditional write or delete is safe against the
edits of others as long as the entry is not deleted in between: versions of an
entry only increase, but a new entry starts over at one.
-/

namespace TokiSync.MonitorHistories

open KeyedRows MonitorSettings MonitorInvariant ByteKeys Runs

/-- What the outcome of a write tells. -/
structure WriteLaw (quota : MonitorQuota) (table : MonitorTable) (userId key value : String)
    (ifVersion : Option ℤ) (now : ℤ) (outcome : MonitorWriteOutcome) (table' : MonitorTable) :
    Prop where
  /-- A write reports the version it replaced and stores the next one. -/
  written : ∀ version updatedAt previousVersion,
    outcome=.written version updatedAt previousVersion →
      previousVersion=(table.find (userId,key)).map MonitorRow.version ∧
      version=previousVersion.getD 0+1 ∧
      table'.find (userId,key)=some ⟨userId,key,value,byteLength value,version,updatedAt⟩
  /-- A write is refused exactly when the expected version is not the stored one. -/
  versionMismatch : (∃ currentVersion currentUpdatedAt,
    outcome=.versionMismatch currentVersion currentUpdatedAt) ↔
      ∃ expected, ifVersion=some expected ∧
        expected≠((table.find (userId,key)).map MonitorRow.version).getD 0
  /-- A refused write leaves the table. -/
  unchanged : (∀ version updatedAt previousVersion,
    outcome≠.written version updatedAt previousVersion) → table'=table
  /-- A value that is not longer than the stored one is never over quota. -/
  shrink : ∀ row, table.find (userId,key)=some row → byteLength value≤byteLength row.value →
    ∀ what used limit, outcome≠.quotaExceeded what used limit

/-- What the outcome of a delete tells. -/
structure DeleteLaw (table : MonitorTable) (userId key : String) (ifVersion : Option ℤ)
    (outcome : MonitorDeleteOutcome) (table' : MonitorTable) : Prop where
  /-- A delete is refused exactly when the entry has another version than expected. -/
  versionMismatch : (∃ currentVersion currentUpdatedAt,
    outcome=.versionMismatch currentVersion currentUpdatedAt) ↔
      ∃ row expected, table.find (userId,key)=some row ∧ ifVersion=some expected ∧
        row.version≠expected
  /-- Nothing is found exactly when there is no entry. -/
  notFound : outcome=.notFound ↔ table.find (userId,key)=none
  /-- Only an effective delete changes the table. -/
  unchanged : outcome≠.deleted → table'=table

/-- A change of an entry that committed. -/
def Changes (userId key : String) : MonitorOp → Prop
  | .put _ userId' key' _ _ _ (.written _ _ _) => userId'=userId ∧ key'=key
  | .delete _ userId' key' _ .deleted => userId'=userId ∧ key'=key
  | _ => False

/-- A delete of an entry that committed. -/
def Deletes (userId key : String) : MonitorOp → Prop
  | .delete _ userId' key' _ .deleted => userId'=userId ∧ key'=key
  | _ => False

/-- A change of an entry, by a client, that committed under an expected version. -/
def Accepted (client : ℕ) (userId key : String) (version : ℤ) : MonitorOp → Prop
  | .put client' userId' key' _ ifVersion _ (.written _ _ _) =>
    client'=client ∧ userId'=userId ∧ key'=key ∧ ifVersion=some version
  | .delete client' userId' key' ifVersion .deleted =>
    client'=client ∧ userId'=userId ∧ key'=key ∧ ifVersion=some version
  | _ => False

section

variable {table table' : MonitorTable} {userId key value : String} {ifVersion : Option ℤ}
variable {quota : MonitorQuota} {now : ℤ} {op : MonitorOp} {history : List MonitorOp}

/-- A value that is not longer than the stored one fits. -/
theorem fits_of_shorter (inv : MonitorInv quota table) (hentries : 0≤quota.maxEntries)
    (hbytes : 0≤quota.maxTotalBytes) {row : MonitorRow}
    (hrow : table.find (userId,key)=some row) (hle : byteLength value≤byteLength row.value) :
    Fits quota table userId key value := by
  have hcount := inv.entries hentries userId
  have htotal := inv.bytes hbytes userId
  have hsize := inv.sizes row (Table.find_eq_some.mp hrow).1
  constructor
  · rw [newCount,hrow,Option.isSome_some,if_pos rfl]
    exact hcount
  · rw [newTotal,hrow,Option.map_some,Option.getD_some,hsize]
    omega

/-- The outcome of every write of a reachable table. -/
theorem writeLaw (inv : MonitorInv quota table) (hentries : 0≤quota.maxEntries)
    (hbytes : 0≤quota.maxTotalBytes) (userId key value : String) (ifVersion : Option ℤ) (now : ℤ) :
    WriteLaw quota table userId key value ifVersion now
      (upsertMonitorSetting table userId key value ifVersion quota now).1
      (upsertMonitorSetting table userId key value ifVersion quota now).2 := by
  have hmismatch : Mismatch table userId key ifVersion ↔ ∃ expected, ifVersion=some expected ∧
      expected≠((table.find (userId,key)).map MonitorRow.version).getD 0 := by
    simp only [Mismatch,versionOf,ne_comm]
  rcases upsert_cases table userId key value ifVersion quota now with
    ⟨hm,v,u,h⟩ | ⟨hm,hfits,what,used,limit,h⟩ | ⟨hm,hfits,h⟩
  · have hother : ∀ a b c, MonitorWriteOutcome.versionMismatch v u≠.written a b c := by
      intro a b c heq
      cases heq
    have hquota : ∀ a b c, MonitorWriteOutcome.versionMismatch v u≠.quotaExceeded a b c := by
      intro a b c heq
      cases heq
    rw [h]
    exact {
      written := fun a b c heq => absurd heq (hother a b c)
      versionMismatch := ⟨fun _ => hmismatch.mp hm,fun _ => ⟨v,u,rfl⟩⟩
      unchanged := fun _ => rfl
      shrink := fun _ _ _ => hquota }
  · have hother : ∀ a b c, MonitorWriteOutcome.quotaExceeded what used limit≠.written a b c := by
      intro a b c heq
      cases heq
    have hmatch : ¬∃ a b, MonitorWriteOutcome.quotaExceeded what used limit=
        .versionMismatch a b := by
      rintro ⟨a,b,heq⟩
      cases heq
    rw [h]
    exact {
      written := fun a b c heq => absurd heq (hother a b c)
      versionMismatch := iff_of_false hmatch (fun hex => hm (hmismatch.mpr hex))
      unchanged := fun _ => rfl
      shrink := fun row hrow hle _ _ _ _ =>
        hfits (fits_of_shorter inv hentries hbytes hrow hle) }
  · have hmatch : ¬∃ a b, MonitorWriteOutcome.written (versionOf table userId key+1) now
        ((table.find (userId,key)).map MonitorRow.version)=.versionMismatch a b := by
      rintro ⟨a,b,heq⟩
      cases heq
    have hquota : ∀ a b c, MonitorWriteOutcome.written (versionOf table userId key+1) now
        ((table.find (userId,key)).map MonitorRow.version)≠.quotaExceeded a b c := by
      intro a b c heq
      cases heq
    rw [h]
    refine {
      written := ?_
      versionMismatch := iff_of_false hmatch (fun hex => hm (hmismatch.mpr hex))
      unchanged := fun hne => absurd rfl (hne _ _ _)
      shrink := fun _ _ _ => hquota }
    intro version updatedAt previousVersion heq
    have heq := MonitorWriteOutcome.written.inj heq
    have hput := table.find_put (nextRow table userId key value now)
    refine ⟨heq.2.2.symm,?_,?_⟩
    · rw [←heq.1,←heq.2.2]
      rfl
    · rw [←heq.1,←heq.2.1,←nextRow_version table userId key value now]
      exact hput

/-- The outcome of every delete. -/
theorem deleteLaw (table : MonitorTable) (userId key : String) (ifVersion : Option ℤ) :
    DeleteLaw table userId key ifVersion (deleteMonitorSetting table userId key ifVersion).1
      (deleteMonitorSetting table userId key ifVersion).2 := by
  rcases delete_cases table userId key ifVersion with
    ⟨hnone,h⟩ | ⟨row,expected,hrow,hexpected,hne,h⟩ | ⟨row,hrow,hall,h⟩
  · have hmatch : ¬∃ a b, MonitorDeleteOutcome.notFound=.versionMismatch a b := by
      rintro ⟨a,b,heq⟩
      cases heq
    have hnot : ¬∃ row expected, table.find (userId,key)=some row ∧ ifVersion=some expected ∧
        row.version≠expected := by
      rintro ⟨row,_,hrow,-⟩
      rw [hnone] at hrow
      cases hrow
    rw [h]
    exact {
      versionMismatch := iff_of_false hmatch hnot
      notFound := ⟨fun _ => hnone,fun _ => rfl⟩
      unchanged := fun _ => rfl }
  · have hfound : MonitorDeleteOutcome.versionMismatch row.version row.updatedAt≠.notFound := by
      intro heq
      cases heq
    have hsome : table.find (userId,key)≠none := by
      rw [hrow]
      exact Option.some_ne_none row
    rw [h]
    exact {
      versionMismatch := ⟨fun _ => ⟨row,expected,hrow,hexpected,hne⟩,fun _ => ⟨_,_,rfl⟩⟩
      notFound := iff_of_false hfound hsome
      unchanged := fun _ => rfl }
  · have hmatch : ¬∃ a b, MonitorDeleteOutcome.deleted=.versionMismatch a b := by
      rintro ⟨a,b,heq⟩
      cases heq
    have hfound : MonitorDeleteOutcome.deleted≠.notFound := by
      intro heq
      cases heq
    have hnot : ¬∃ row expected, table.find (userId,key)=some row ∧ ifVersion=some expected ∧
        row.version≠expected := by
      rintro ⟨other,expected,hother,hexpected,hne⟩
      rw [hrow,Option.some.injEq] at hother
      rw [←hother] at hne
      exact hne (hall expected hexpected)
    have hsome : table.find (userId,key)≠none := by
      rw [hrow]
      exact Option.some_ne_none row
    rw [h]
    exact {
      versionMismatch := iff_of_false hmatch hnot
      notFound := iff_of_false hfound hsome
      unchanged := fun hne => absurd rfl hne }

/-- From the empty table every sequence of transactions keeps the quota, the
sizes and the versions, and every outcome is honest. -/
theorem settings_within_quota (hentries : 0≤quota.maxEntries) (hbytes : 0≤quota.maxTotalBytes)
    (run : Run (MonitorStep quota) Table.empty history table) :
    (∀ u, ((owned table u).length : ℤ)≤quota.maxEntries ∧
      ((owned table u).map fun row => byteLength row.value).sum≤quota.maxTotalBytes) ∧
    (∀ row∈table.rows, row.sizeBytes=byteLength row.value ∧ 1≤row.version) ∧
    (∀ userId key value ifVersion now, WriteLaw quota table userId key value ifVersion now
      (upsertMonitorSetting table userId key value ifVersion quota now).1
      (upsertMonitorSetting table userId key value ifVersion quota now).2) ∧
    ∀ userId key ifVersion, DeleteLaw table userId key ifVersion
      (deleteMonitorSetting table userId key ifVersion).1
      (deleteMonitorSetting table userId key ifVersion).2 := by
  have inv := MonitorInv.of_run run
  refine ⟨fun u => ⟨inv.entries hentries u,?_⟩,fun row hrow => ⟨inv.sizes row hrow,
    inv.versions row hrow⟩,writeLaw inv hentries hbytes,deleteLaw table⟩
  have hsum : ((owned table u).map fun row => byteLength row.value)=
      (owned table u).map MonitorRow.sizeBytes :=
    List.map_congr_left fun row hrow => (inv.sizes row (List.mem_filter.mp hrow).1).symm
  rw [hsum]
  exact inv.bytes hbytes u

end

/-- Limits of two entries and four bytes. -/
def smallQuota : MonitorQuota := ⟨2,4⟩

/-- Writes, a replacement, a write over each limit, one that expects another
version, and a delete. -/
def sampleOps : List MonitorOp :=
  [.delete 0 "u" "j" none .deleted,
    .put 1 "u" "k" "d" (some 1) 6 (.versionMismatch (some 2) (some 3)),
    .put 0 "u" "i" "d" none 5 (.quotaExceeded .entries 3 2),
    .put 0 "u" "j" "ccc" none 4 (.quotaExceeded .bytes 5 4),
    .put 0 "u" "k" "bb" (some 1) 3 (.written 2 3 (some 1)),
    .put 0 "u" "j" "a" none 2 (.written 1 2 none),
    .put 0 "u" "k" "a" none 1 (.written 1 1 none)]

/-- The bounds hold behind the sample operations. -/
theorem settings_within_quota_sample : ∃ table,
    Run (MonitorStep smallQuota) Table.empty sampleOps table ∧
    ∀ u, ((owned table u).length : ℤ)≤2 ∧
      ((owned table u).map fun row => byteLength row.value).sum≤4 := by
  have run : Run (MonitorStep smallQuota) Table.empty [] _ := .start
  have run := run.next (MonitorOp.put 0 "u" "k" "a" none 1 (.written 1 1 none)) rfl
  have run := run.next (MonitorOp.put 0 "u" "j" "a" none 2 (.written 1 2 none)) rfl
  have run := run.next (MonitorOp.put 0 "u" "k" "bb" (some 1) 3 (.written 2 3 (some 1))) rfl
  have run := run.next (MonitorOp.put 0 "u" "j" "ccc" none 4 (.quotaExceeded .bytes 5 4)) rfl
  have run := run.next (MonitorOp.put 0 "u" "i" "d" none 5 (.quotaExceeded .entries 3 2)) rfl
  have run := run.next
    (MonitorOp.put 1 "u" "k" "d" (some 1) 6 (.versionMismatch (some 2) (some 3))) rfl
  have run := run.next (MonitorOp.delete 0 "u" "j" none .deleted) rfl
  exact ⟨_,run,(settings_within_quota (by decide) (by decide) run).1⟩

section

variable {table table' : MonitorTable} {userId key value : String} {ifVersion : Option ℤ}
variable {quota : MonitorQuota} {now : ℤ} {op : MonitorOp} {history : List MonitorOp}

/-- What a step does to the version under a key: a change that is not a delete
increments it, anything else but a delete leaves it. -/
theorem versionOf_step (hstep : MonitorStep quota table op table')
    (hkept : ¬Deletes userId key op) :
    (Changes userId key op → versionOf table' userId key=versionOf table userId key+1) ∧
      (¬Changes userId key op → versionOf table' userId key=versionOf table userId key) := by
  cases op with
  | read client u k version =>
    rw [hstep.2]
    exact ⟨fun h => h.elim,fun _ => rfl⟩
  | put client u k value ifVersion now outcome =>
    have hput : upsertMonitorSetting table u k value ifVersion quota now=(outcome,table') := hstep
    rcases upsert_cases table u k value ifVersion quota now with
      ⟨-,_,_,h⟩ | ⟨-,-,_,_,_,h⟩ | ⟨-,-,h⟩
    · obtain ⟨rfl,rfl⟩ := Prod.mk.inj (h.symm.trans hput)
      exact ⟨fun h => h.elim,fun _ => rfl⟩
    · obtain ⟨rfl,rfl⟩ := Prod.mk.inj (h.symm.trans hput)
      exact ⟨fun h => h.elim,fun _ => rfl⟩
    · obtain ⟨rfl,rfl⟩ := Prod.mk.inj (h.symm.trans hput)
      constructor
      · rintro ⟨rfl,rfl⟩
        have hfind := table.find_put (nextRow table u k value now)
        rw [←nextRow_version table u k value now]
        exact versionOf_of_some hfind
      · intro hother
        have hne : (nextRow table u k value now).primaryKey≠(userId,key) := by
          intro heq
          exact hother (Prod.mk.inj heq)
        rw [versionOf,table.find_put_of_ne hne,versionOf]
  | delete client u k ifVersion outcome =>
    have hdelete : deleteMonitorSetting table u k ifVersion=(outcome,table') := hstep
    rcases delete_cases table u k ifVersion with
      ⟨-,h⟩ | ⟨_,_,-,-,-,h⟩ | ⟨_,-,-,h⟩
    · obtain ⟨rfl,rfl⟩ := Prod.mk.inj (h.symm.trans hdelete)
      exact ⟨fun h => h.elim,fun _ => rfl⟩
    · obtain ⟨rfl,rfl⟩ := Prod.mk.inj (h.symm.trans hdelete)
      exact ⟨fun h => h.elim,fun _ => rfl⟩
    · obtain ⟨rfl,rfl⟩ := Prod.mk.inj (h.symm.trans hdelete)
      refine ⟨fun hchange => absurd hchange hkept,fun _ => ?_⟩
      -- the deleted entry is another one
      have hne : (userId,key)≠(u,k) := fun heq => hkept
        ⟨(Prod.mk.inj heq).1.symm,(Prod.mk.inj heq).2.symm⟩
      rw [versionOf,Table.find_keep,versionOf]
      cases hfind : table.find (userId,key) with
      | none => rfl
      | some row =>
        have hkey := (Table.find_eq_some.mp hfind).2
        rw [Option.filter_some,hkey,decide_eq_true hne,if_pos rfl]

/-- Without deletes of a key its version is never lower than before, and higher
once the entry has changed. -/
theorem versionOf_run {start : MonitorTable} (run : Run (MonitorStep quota) start history table)
    (hkept : ∀ x∈history, ¬Deletes userId key x) :
    versionOf start userId key≤versionOf table userId key ∧
      ((∃ x∈history, Changes userId key x) →
        versionOf start userId key<versionOf table userId key) := by
  induction run with
  | start => exact ⟨le_refl _,fun ⟨x,hx,_⟩ => absurd hx List.not_mem_nil⟩
  | @next past s t op run taken ih =>
    have ih := ih fun x hx => hkept x (List.mem_cons_of_mem _ hx)
    have hversion := versionOf_step taken (hkept op List.mem_cons_self)
    by_cases hop : Changes userId key op
    · have hnext := hversion.1 hop
      exact ⟨by omega,fun _ => by omega⟩
    · have hsame := hversion.2 hop
      rw [hsame]
      refine ⟨ih.1,?_⟩
      rintro ⟨x,hx,hchange⟩
      rcases List.mem_cons.mp hx with rfl | hx
      · exact absurd hchange hop
      · exact ih.2 ⟨x,hx,hchange⟩

/-- A delete is a change. -/
theorem Deletes.changes (h : Deletes userId key op) : Changes userId key op := by
  cases op with
  | read client u k version => exact h
  | put client u k value ifVersion now outcome => exact h.elim
  | delete client u k ifVersion outcome => cases outcome <;> exact h

/-- An operation accepted under an expected version found that version. -/
theorem Accepted.versionOf {client : ℕ} {version : ℤ} (haccepted : Accepted client userId key version op)
    (hstep : MonitorStep quota table op table') : versionOf table userId key=version := by
  cases op with
  | read client u k version => exact haccepted.elim
  | put client' u k value ifVersion now outcome =>
    have hput : upsertMonitorSetting table u k value ifVersion quota now=(outcome,table') := hstep
    rcases upsert_cases table u k value ifVersion quota now with
      ⟨-,_,_,h⟩ | ⟨-,-,_,_,_,h⟩ | ⟨hmatch,-,h⟩
    · obtain ⟨rfl,rfl⟩ := Prod.mk.inj (h.symm.trans hput)
      exact haccepted.elim
    · obtain ⟨rfl,rfl⟩ := Prod.mk.inj (h.symm.trans hput)
      exact haccepted.elim
    · obtain ⟨rfl,rfl⟩ := Prod.mk.inj (h.symm.trans hput)
      obtain ⟨-,rfl,rfl,rfl⟩ := haccepted
      by_contra hne
      exact hmatch ⟨version,rfl,hne⟩
  | delete client' u k ifVersion outcome =>
    have hdelete : deleteMonitorSetting table u k ifVersion=(outcome,table') := hstep
    rcases delete_cases table u k ifVersion with
      ⟨-,h⟩ | ⟨_,_,-,-,-,h⟩ | ⟨row,hrow,hall,h⟩
    · obtain ⟨rfl,rfl⟩ := Prod.mk.inj (h.symm.trans hdelete)
      exact haccepted.elim
    · obtain ⟨rfl,rfl⟩ := Prod.mk.inj (h.symm.trans hdelete)
      exact haccepted.elim
    · obtain ⟨rfl,rfl⟩ := Prod.mk.inj (h.symm.trans hdelete)
      obtain ⟨-,rfl,rfl,rfl⟩ := haccepted
      rw [versionOf_of_some hrow]
      exact hall version rfl

/-- An operation accepted under the version its client has read overwrites no
edit of the entry committed since, exactly when the entry was not deleted
since. -/
theorem accepted_sees_edits_iff {client : ℕ} {version : ℤ} {between before : List MonitorOp}
    (run : Run (MonitorStep quota) Table.empty
      (op::between++.read client userId key version::before) table)
    (haccepted : Accepted client userId key version op) :
    (∀ x∈between, ¬Changes userId key x) ↔ ∀ x∈between, ¬Deletes userId key x := by
  constructor
  · exact fun h x hx hdelete => h x hx hdelete.changes
  · intro hkept x hx hchange
    cases run with
    | @next _ s _ _ run taken =>
      obtain ⟨read,hread,hbetween⟩ := run.split
      cases hread with
      | next _ _ hstep =>
        have hversion := haccepted.versionOf taken
        have hlt := (versionOf_run hbetween hkept).2 ⟨x,hx,hchange⟩
        rw [hstep.2,←hstep.1,hversion] at hlt
        exact lt_irrefl _ hlt

end

/-- What another client does between a read and a write: it writes another entry,
and is refused a write of the same one. -/
def sampleBetween : List MonitorOp :=
  [.put 1 "u" "k" "c" (some 7) 3 (.versionMismatch (some 1) (some 1)),
    .put 1 "u" "j" "b" none 2 (.written 1 2 none)]

/-- The write is accepted, and it overwrites no edit. -/
theorem accepted_sees_edits_sample : ∃ table,
    Run (MonitorStep monitorQuota) Table.empty
      (.put 0 "u" "k" "b" (some 1) 4 (.written 2 4 (some 1))::sampleBetween++
        .read 0 "u" "k" 1::[.put 0 "u" "k" "a" none 1 (.written 1 1 none)]) table ∧
    ∀ x∈sampleBetween, ¬Changes "u" "k" x := by
  have run : Run (MonitorStep monitorQuota) Table.empty [] _ := .start
  have run := run.next (MonitorOp.put 0 "u" "k" "a" none 1 (.written 1 1 none)) rfl
  have run := run.next (MonitorOp.read 0 "u" "k" 1) ⟨rfl,rfl⟩
  have run := run.next (MonitorOp.put 1 "u" "j" "b" none 2 (.written 1 2 none)) rfl
  have run := run.next
    (MonitorOp.put 1 "u" "k" "c" (some 7) 3 (.versionMismatch (some 1) (some 1))) rfl
  have run := run.next (MonitorOp.put 0 "u" "k" "b" (some 1) 4 (.written 2 4 (some 1))) rfl
  have haccepted : Accepted 0 "u" "k" 1
      (.put 0 "u" "k" "b" (some 1) 4 (.written 2 4 (some 1))) := ⟨rfl,rfl,rfl,rfl⟩
  have hkept : ∀ x∈sampleBetween, ¬Deletes "u" "k" x := by
    simp [sampleBetween,Deletes]
  exact ⟨_,run,(@accepted_sees_edits_iff _ _ _ _ _ 0 1 sampleBetween _ run haccepted).mpr hkept⟩

/-- A client reads version one; another one deletes the entry and creates it
again, and the first one's conditional write overwrites the new entry. -/
theorem recreated_entry_overwritten : ¬∀ (quota : MonitorQuota) (client : ℕ)
    (userId key : String) (version : ℤ) (op : MonitorOp) (between before : List MonitorOp)
    (table : MonitorTable), Run (MonitorStep quota) Table.empty
      (op::between++.read client userId key version::before) table →
    Accepted client userId key version op → ∀ x∈between, ¬Changes userId key x := by
  intro h
  have written : Run (MonitorStep monitorQuota) Table.empty
      [.put 0 "u" "k" "a" none 1 (.written 1 1 none)] _ := .next _ .start rfl
  have read := Run.next (MonitorOp.read 0 "u" "k" 1) written ⟨rfl,rfl⟩
  have deleted := Run.next (MonitorOp.delete 1 "u" "k" none .deleted) read rfl
  have recreated := Run.next
    (MonitorOp.put 1 "u" "k" "b" none 2 (.written 1 2 none)) deleted rfl
  have overwritten := Run.next
    (MonitorOp.put 0 "u" "k" "c" (some 1) 3 (.written 2 3 (some 1))) recreated rfl
  exact h monitorQuota 0 "u" "k" 1 _
    [.put 1 "u" "k" "b" none 2 (.written 1 2 none),.delete 1 "u" "k" none .deleted]
    _ _ overwritten ⟨rfl,rfl,rfl,rfl⟩ _ List.mem_cons_self ⟨rfl,rfl⟩

end TokiSync.MonitorHistories
