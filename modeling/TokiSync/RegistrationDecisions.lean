import TokiSync.AdminAccounts
import TokiSync.OidcAccounts

/-!
# Decisions on a pending registration

An approval is a transaction that reads the pending row, checks the name,
inserts the user and deletes the row, whose number of affected rows it does not
examine. A rejection is one delete. On SQLite a rejection in between makes the
approval's snapshot stale. On PostgreSQL the approval goes on, deletes nothing
and commits, so both report success.
-/

namespace TokiSync.RegistrationDecisions

open Runs RowVersions SnapshotWrites
open AdminAccounts (PendingRegistration)
open OidcAccounts (UserRow)

/-- The pending row in question, and the users by name. -/
structure Tables where
  /-- The pending row. -/
  pending : Option PendingRegistration
  /-- The users. -/
  users : String → Option UserRow

/-- Statements of a backend, as steps on its state. Transactions are numbered;
a statement that waits or fails takes no step. -/
structure Backend where
  /-- State of the tables and of the open transactions. -/
  State : Type
  /-- State without open transactions. -/
  start : Tables → State
  /-- Committed tables. -/
  tables : State → Tables
  /-- Read the pending row, as the first statement of a transaction. -/
  fetch : ℕ → State → Option PendingRegistration → State → Prop
  /-- Whether a user has the name. -/
  nameExists : ℕ → String → State → Bool → State → Prop
  /-- Insert a user. -/
  insert : ℕ → UserRow → State → State → Prop
  /-- Delete the pending row. -/
  delete : ℕ → State → State → Prop
  /-- Commit a transaction. -/
  commit : ℕ → State → State → Prop
  /-- Roll a transaction back. -/
  rollback : ℕ → State → State → Prop
  /-- Delete the pending row in a transaction of its own, and whether it was there. -/
  reject : State → Bool → State → Prop

/-- State of PostgreSQL; a deleted row has a version without content. -/
structure PostgresState where
  /-- Versions of the pending row. -/
  pending : Versions Unit (Option PendingRegistration) ℕ
  /-- Versions of the users. -/
  users : Versions String UserRow ℕ

/-- READ COMMITTED: a statement sees what is committed when it starts. A delete
waits for the row lock and applies to the committed row; an insert waits for a
pending row of the same name and is refused by a committed one. -/
def postgres : Backend where
  State := PostgresState
  start t := ⟨.start fun _ => some t.pending,.start t.users⟩
  tables s := ⟨(s.pending.committed ()).join,s.users.committed⟩
  fetch i s row s' := row=(s.pending.visible i ()).join ∧ s'=s
  nameExists i name s found s' := found=(s.users.visible i name).isSome ∧ s'=s
  insert i user s s' := s.users.committed user.username=none ∧
    s.users.pending user.username=none ∧
    s'={s with users := s.users.write i user.username user}
  delete i s s' := s.pending.Free i () ∧
    s'=if (s.pending.visible i ()).join=none then s
      else {s with pending := s.pending.write i () none}
  commit i s s' := s'=⟨s.pending.commit i,s.users.commit i⟩
  rollback i s s' := s'=⟨s.pending.rollback i,s.users.rollback i⟩
  reject s affected s' := s.pending.pending ()=none ∧
    affected=(s.pending.committed ()).join.isSome ∧
    s'=if affected then {s with pending := s.pending.put () none} else s

/-- Write-ahead logging with deferred transactions: the first statement takes
a snapshot, a write over a stale snapshot fails, and there is one writer. -/
def sqlite : Backend where
  State := Snapshots Tables ℕ
  start := .start
  tables s := s.committed
  fetch i s row s' := row=s.committed.pending ∧ s'=s.read i
  nameExists i name s found s' :=
    ∃ n t, s.snapshot i=some (n,t) ∧ found=(t.users name).isSome ∧ s'=s
  insert i user s s' := ∃ base, s.Writable i base ∧ base.users user.username=none ∧
    s'=s.write i {base with users := Function.update base.users user.username (some user)}
  delete i s s' := ∃ base, s.Writable i base ∧ s'=s.write i {base with pending := none}
  commit i s s' := ∃ t, s.writer=some (i,t) ∧ s'=s.commit i t
  rollback i s s' := s'=s.rollback i
  reject s affected s' := s.writer=none ∧ affected=s.committed.pending.isSome ∧
    s'=if affected then s.put {s.committed with pending := none} else s

/-- Progress of an approval. -/
inductive ApprovalPhase where
  /-- Not started. -/
  | idle
  /-- The pending row is read. -/
  | fetched (reg : PendingRegistration)
  /-- No user has the name. -/
  | checked (reg : PendingRegistration)
  /-- The user is inserted. -/
  | inserted
  /-- The pending row is deleted. -/
  | deleted
  /-- The call has returned, without a result when it failed. -/
  | returned (result : Option Bool)

/-- Steps of approvals and rejections. -/
inductive DecisionOp where
  /-- An approval reads the pending row. -/
  | fetch (i : ℕ)
  /-- An approval checks the name. -/
  | check (i : ℕ)
  /-- An approval inserts the user. -/
  | insert (i : ℕ)
  /-- An approval deletes the pending row. -/
  | delete (i : ℕ)
  /-- An approval commits. -/
  | commit (i : ℕ)
  /-- An approval fails and rolls back. -/
  | abort (i : ℕ)
  /-- A rejection deletes the pending row. -/
  | reject (j : ℕ)
  /-- A rejection fails. -/
  | rejectFails (j : ℕ)

/-- The database and the progress of all calls. -/
structure Decisions (b : Backend) where
  /-- The database. -/
  db : b.State
  /-- Progress of the approvals. -/
  approvals : ℕ → ApprovalPhase
  /-- Results of the rejections that have returned. -/
  rejections : ℕ → Option (Option Bool)

/-- State before any call has started. -/
def Decisions.start (b : Backend) (t : Tables) : Decisions b :=
  ⟨b.start t,fun _ => .idle,fun _ => none⟩

/-- User that an approval inserts, under a generated id. -/
def newUser (ids : ℕ → String) (i : ℕ) (reg : PendingRegistration) (now : Int64) : UserRow :=
  ⟨ids i,reg.username,reg.passwordHash,"user",now,now,none,none,true⟩

/-- A transaction of an approval is open. -/
def ApprovalPhase.Open : ApprovalPhase → Prop
  | .fetched _ | .checked _ | .inserted | .deleted => True
  | _ => False

/-- Roll back when the call is over. -/
def Backend.endIf (b : Backend) (i : ℕ) : Bool → b.State → b.State → Prop
  | true,db,db' => b.rollback i db db'
  | false,db,db' => db'=db

/-- Phase behind the read of the pending row; without one the call returns false. -/
def afterFetch : Option PendingRegistration → ApprovalPhase
  | some reg => .fetched reg
  | none => .returned (some false)

/-- Phase behind the check of the name; the call fails when a user has it. -/
def afterCheck (reg : PendingRegistration) (found : Bool) : ApprovalPhase :=
  if found then .returned none else .checked reg

/-- One step of one call. -/
inductive DecisionStep (b : Backend) (ids : ℕ → String) :
    Decisions b → DecisionOp → Decisions b → Prop where
  /-- Read the pending row. -/
  | fetch {s : Decisions b} {row : Option PendingRegistration} {db db' : b.State} (i : ℕ)
      (idle : s.approvals i=.idle) (run : b.fetch i s.db row db)
      (outcome : b.endIf i row.isNone db db') :
      DecisionStep b ids s (.fetch i)
        {s with db := db',approvals := Function.update s.approvals i (afterFetch row)}
  /-- Check the name. -/
  | check {s : Decisions b} {reg : PendingRegistration} {found : Bool} {db db' : b.State} (i : ℕ)
      (fetched : s.approvals i=.fetched reg) (run : b.nameExists i reg.username s.db found db)
      (outcome : b.endIf i found db db') :
      DecisionStep b ids s (.check i)
        {s with db := db',approvals := Function.update s.approvals i (afterCheck reg found)}
  /-- Insert the user. -/
  | insert {s : Decisions b} {reg : PendingRegistration} {db : b.State} (i : ℕ) (now : Int64)
      (checked : s.approvals i=.checked reg) (run : b.insert i (newUser ids i reg now) s.db db) :
      DecisionStep b ids s (.insert i)
        {s with db := db,approvals := Function.update s.approvals i .inserted}
  /-- Delete the pending row, whether it is there or not. -/
  | delete {s : Decisions b} {db : b.State} (i : ℕ) (inserted : s.approvals i=.inserted)
      (run : b.delete i s.db db) :
      DecisionStep b ids s (.delete i)
        {s with db := db,approvals := Function.update s.approvals i .deleted}
  /-- Commit and return true. -/
  | commit {s : Decisions b} {db : b.State} (i : ℕ) (deleted : s.approvals i=.deleted)
      (run : b.commit i s.db db) :
      DecisionStep b ids s (.commit i)
        {s with db := db,approvals := Function.update s.approvals i (.returned (some true))}
  /-- Fail in any statement. -/
  | abort {s : Decisions b} {db : b.State} (i : ℕ) (begun : (s.approvals i).Open)
      (run : b.rollback i s.db db) :
      DecisionStep b ids s (.abort i)
        {s with db := db,approvals := Function.update s.approvals i (.returned none)}
  /-- Delete the pending row and return whether it was there. -/
  | reject {s : Decisions b} {affected : Bool} {db : b.State} (j : ℕ)
      (idle : s.rejections j=none) (run : b.reject s.db affected db) :
      DecisionStep b ids s (.reject j)
        {s with db := db,rejections := Function.update s.rejections j (some (some affected))}
  /-- Fail to delete. -/
  | rejectFails {s : Decisions b} (j : ℕ) (idle : s.rejections j=none) :
      DecisionStep b ids s (.rejectFails j)
        {s with rejections := Function.update s.rejections j (some none)}

/-- A call for a decision. -/
inductive Call where
  | approval (i : ℕ)
  | rejection (j : ℕ)

/-- A call has returned true. -/
def Decisions.ReturnedTrue {b : Backend} (s : Decisions b) : Call → Prop
  | .approval i => s.approvals i=.returned (some true)
  | .rejection j => s.rejections j=some (some true)

/-- What a registration should see of its decisions: at most one call returns
true, and after a rejection no user has been created. -/
structure OneDecision {b : Backend} (t : Tables) (s : Decisions b) : Prop where
  /-- At most one call returns true. -/
  unique : ∀ c c', s.ReturnedTrue c → s.ReturnedTrue c' → c=c'
  /-- A rejection leaves the users. -/
  users : ∀ j, s.ReturnedTrue (.rejection j) → (b.tables s.db).users=t.users

/-- While the registration is pending nothing is decided. -/
structure Decided {b : Backend} (t : Tables) (s : Decisions b) : Prop extends OneDecision t s where
  /-- Nothing is decided while the row is there. -/
  undecided : (b.tables s.db).pending≠none →
    (∀ c, ¬s.ReturnedTrue c) ∧ (b.tables s.db).users=t.users

section

variable {b : Backend} {t : Tables} {s s' : Decisions b}

theorem decided_start (h : b.tables (b.start t)=t) : Decided t (.start b t) := by
  have hnone : ∀ c, ¬(Decisions.start b t).ReturnedTrue c := by
    intro c hc
    cases c with
    | approval i => exact ApprovalPhase.noConfusion hc
    | rejection j => cases hc
  refine ⟨⟨fun c c' hc => absurd hc (hnone c),fun j hj => absurd hj (hnone _)⟩,?_⟩
  intro _
  exact ⟨hnone,congrArg Tables.users h⟩

/-- A step that decides nothing and leaves the committed tables. -/
theorem Decided.quiet (h : Decided t s) (htables : b.tables s'.db=b.tables s.db)
    (hreturned : ∀ c, s'.ReturnedTrue c → s.ReturnedTrue c) : Decided t s' := by
  refine ⟨⟨?_,?_⟩,?_⟩
  · intro c c' hc hc'
    exact h.unique c c' (hreturned c hc) (hreturned c' hc')
  · intro j hj
    rw [htables]
    exact h.users j (hreturned _ hj)
  · intro hpending
    rw [htables] at hpending ⊢
    exact ⟨fun c hc => (h.undecided hpending).1 c (hreturned c hc),(h.undecided hpending).2⟩

/-- A step that takes the row away and with it the decision. -/
theorem Decided.decide (h : Decided t s) {call : Call}
    (hpending : (b.tables s.db).pending≠none) (hgone : (b.tables s'.db).pending=none)
    (hreturned : ∀ c, s'.ReturnedTrue c → s.ReturnedTrue c ∨ c=call)
    (husers : ∀ j, call=.rejection j → (b.tables s'.db).users=(b.tables s.db).users) :
    Decided t s' := by
  obtain ⟨hnone,hkept⟩ := h.undecided hpending
  have hcall : ∀ c, s'.ReturnedTrue c → c=call :=
    fun c hc => (hreturned c hc).resolve_left (hnone c)
  refine ⟨⟨?_,?_⟩,?_⟩
  · intro c c' hc hc'
    rw [hcall c hc,hcall c' hc']
  · intro j hj
    rw [husers j (hcall _ hj).symm]
    exact hkept
  · intro hnot
    exact absurd hgone hnot

/-- An approval that moves on without returning true. -/
theorem returnedTrue_approval {i : ℕ} {phase : ApprovalPhase}
    (happrovals : s'.approvals=Function.update s.approvals i phase)
    (hrejections : s'.rejections=s.rejections) (c : Call) (hc : s'.ReturnedTrue c) :
    s.ReturnedTrue c ∨ (phase=.returned (some true) ∧ c=.approval i) := by
  cases c with
  | approval k =>
    unfold Decisions.ReturnedTrue at hc ⊢
    dsimp only at hc ⊢
    rw [happrovals] at hc
    by_cases hk : k=i
    · rw [hk,Function.update_self] at hc
      exact .inr ⟨hc,by rw [hk]⟩
    · rw [Function.update_of_ne hk] at hc
      exact .inl hc
  | rejection j =>
    unfold Decisions.ReturnedTrue at hc ⊢
    dsimp only at hc ⊢
    rw [hrejections] at hc
    exact .inl hc

theorem returnedTrue_of_approval {i : ℕ} {phase : ApprovalPhase}
    (happrovals : s'.approvals=Function.update s.approvals i phase)
    (hrejections : s'.rejections=s.rejections) (hphase : phase≠.returned (some true)) (c : Call)
    (hc : s'.ReturnedTrue c) : s.ReturnedTrue c :=
  (returnedTrue_approval happrovals hrejections c hc).resolve_right fun hr => hphase hr.1

theorem call_of_approval {i : ℕ} {phase : ApprovalPhase}
    (happrovals : s'.approvals=Function.update s.approvals i phase)
    (hrejections : s'.rejections=s.rejections) (c : Call) (hc : s'.ReturnedTrue c) :
    s.ReturnedTrue c ∨ c=.approval i :=
  (returnedTrue_approval happrovals hrejections c hc).imp_right And.right

/-- A rejection that returns. -/
theorem returnedTrue_rejection {j : ℕ} {result : Option Bool}
    (happrovals : s'.approvals=s.approvals)
    (hrejections : s'.rejections=Function.update s.rejections j (some result)) (c : Call)
    (hc : s'.ReturnedTrue c) : s.ReturnedTrue c ∨ (result=some true ∧ c=.rejection j) := by
  cases c with
  | approval i =>
    unfold Decisions.ReturnedTrue at hc ⊢
    dsimp only at hc ⊢
    rw [happrovals] at hc
    exact .inl hc
  | rejection k =>
    unfold Decisions.ReturnedTrue at hc ⊢
    dsimp only at hc ⊢
    rw [hrejections] at hc
    by_cases hk : k=j
    · rw [hk,Function.update_self] at hc
      exact .inr ⟨Option.some.inj hc,by rw [hk]⟩
    · rw [Function.update_of_ne hk] at hc
      exact .inl hc

theorem returnedTrue_of_rejection {j : ℕ} {result : Option Bool}
    (happrovals : s'.approvals=s.approvals)
    (hrejections : s'.rejections=Function.update s.rejections j (some result))
    (hresult : result≠some true) (c : Call) (hc : s'.ReturnedTrue c) : s.ReturnedTrue c :=
  (returnedTrue_rejection happrovals hrejections c hc).resolve_right fun hr => hresult hr.1

theorem call_of_rejection {j : ℕ} {result : Option Bool}
    (happrovals : s'.approvals=s.approvals)
    (hrejections : s'.rejections=Function.update s.rejections j (some result)) (c : Call)
    (hc : s'.ReturnedTrue c) : s.ReturnedTrue c ∨ c=.rejection j :=
  (returnedTrue_rejection happrovals hrejections c hc).imp_right And.right

end

section Postgres

variable {t : Tables} {s s' : Decisions postgres} {ids : ℕ → String} {op : DecisionOp}

/-- The lock of the row is held by the approvals that have deleted it. -/
structure PostgresDecided (t : Tables) (s : Decisions postgres) : Prop extends Decided t s where
  /-- A deleted row is locked, and there for everybody else. -/
  locked : ∀ i, s.approvals i=.deleted →
    s.db.pending.pending ()=some (i,none) ∧ (s.db.pending.committed ()).join≠none
  /-- Who holds the lock has deleted the row. -/
  holder : ∀ i v, s.db.pending.pending ()=some (i,v) → s.approvals i=.deleted

/-- An approval moves without returning true and leaves the committed tables. -/
theorem PostgresDecided.move (h : PostgresDecided t s) {i : ℕ} {phase : ApprovalPhase}
    (happrovals : s'.approvals=Function.update s.approvals i phase)
    (hrejections : s'.rejections=s.rejections) (hphase : phase≠.deleted)
    (hreturned : phase≠.returned (some true))
    (hpending : ∀ k v, s'.db.pending.pending ()=some (k,v) ↔
      s.db.pending.pending ()=some (k,v) ∧ k≠i)
    (hcommitted : s'.db.pending.committed=s.db.pending.committed)
    (husers : s'.db.users.committed=s.db.users.committed) : PostgresDecided t s' := by
  have htables : postgres.tables s'.db=postgres.tables s.db := by
    unfold postgres
    dsimp only
    rw [hcommitted,husers]
  refine ⟨h.toDecided.quiet htables
    (returnedTrue_of_approval happrovals hrejections hreturned),?_,?_⟩
  · intro k hk
    rw [happrovals] at hk
    by_cases hki : k=i
    · rw [hki,Function.update_self] at hk
      exact absurd hk hphase
    · rw [Function.update_of_ne hki] at hk
      obtain ⟨hlock,hthere⟩ := h.locked k hk
      rw [hcommitted]
      exact ⟨(hpending k none).mpr ⟨hlock,hki⟩,hthere⟩
  · intro k v hk
    obtain ⟨hlock,hki⟩ := (hpending k v).mp hk
    rw [happrovals,Function.update_of_ne hki]
    exact h.holder k v hlock

/-- The row is not locked by an approval in another phase. -/
theorem PostgresDecided.unlocked (h : PostgresDecided t s) {i : ℕ} (hi : s.approvals i≠.deleted)
    (k : ℕ) (v : Option PendingRegistration) :
    s.db.pending.pending ()=some (k,v) ↔ s.db.pending.pending ()=some (k,v) ∧ k≠i := by
  constructor
  · intro hlock
    refine ⟨hlock,?_⟩
    intro hki
    have hdeleted := h.holder k v hlock
    rw [hki] at hdeleted
    exact hi hdeleted
  · intro hlock
    exact hlock.1

theorem PostgresDecided.rollback (h : PostgresDecided t s) {i : ℕ} {phase : ApprovalPhase}
    (happrovals : s'.approvals=Function.update s.approvals i phase)
    (hrejections : s'.rejections=s.rejections) (hphase : phase≠.deleted)
    (hreturned : phase≠.returned (some true)) (hdb : postgres.rollback i s.db s'.db) :
    PostgresDecided t s' := by
  have hdb : s'.db=⟨s.db.pending.rollback i,s.db.users.rollback i⟩ := hdb
  refine h.move happrovals hrejections hphase hreturned ?_ (by rw [hdb]; rfl) (by rw [hdb]; rfl)
  intro k v
  rw [hdb]
  exact pending_rollback

/-- An approval deletes the pending row while it is there. -/
theorem PostgresDecided.delete (h : PostgresDecided t s) {db : postgres.State} {i : ℕ}
    (inserted : s.approvals i=.inserted) (hpending : (postgres.tables s.db).pending≠none)
    (run : postgres.delete i s.db db) :
    PostgresDecided t
      {s with db := db,approvals := Function.update s.approvals i .deleted} := by
  obtain ⟨hfree,hdb⟩ := run
  have hthere : (s.db.pending.committed ()).join≠none := hpending
  -- nobody else holds the lock, and this approval has not deleted before
  have hnone : s.db.pending.pending ()=none := by
    cases hlock : s.db.pending.pending () with
    | none => rfl
    | some w =>
      have hdeleted := h.holder w.1 w.2 hlock
      rw [hfree w.1 w.2 hlock,inserted] at hdeleted
      cases hdeleted
  have hvisible : s.db.pending.visible i ()=s.db.pending.committed () := by
    refine visible_of_not_pending ?_
    intro v hv
    rw [hnone] at hv
    cases hv
  have hwrite := hdb.trans (if_neg (by rw [hvisible]; exact hthere))
  rw [hwrite]
  refine ⟨h.toDecided.quiet rfl
    (returnedTrue_of_approval rfl rfl ApprovalPhase.noConfusion),?_,?_⟩
  · intro k hk
    dsimp only at hk ⊢
    by_cases hki : k=i
    · rw [hki,pending_write,if_pos rfl]
      exact ⟨rfl,hthere⟩
    · rw [Function.update_of_ne hki] at hk
      rw [(h.locked k hk).1] at hnone
      cases hnone
  · intro k v hk
    dsimp only at hk ⊢
    rw [pending_write,if_pos rfl] at hk
    cases hk
    exact Function.update_self i _ _

/-- An approval commits and returns true; it holds the lock, so the row was
there. -/
theorem PostgresDecided.commit (h : PostgresDecided t s) {db : postgres.State} {i : ℕ}
    (deleted : s.approvals i=.deleted) (run : postgres.commit i s.db db) :
    PostgresDecided t
      {s with db := db,approvals := Function.update s.approvals i (.returned (some true))} := by
  have hdb : db=⟨s.db.pending.commit i,s.db.users.commit i⟩ := run
  obtain ⟨hlock,hthere⟩ := h.locked i deleted
  have hgone : (postgres.tables db).pending=none := by
    rw [hdb]
    show (s.db.pending.visible i ()).join=none
    rw [visible_of_pending hlock]
    rfl
  refine ⟨h.toDecided.decide hthere hgone (call_of_approval rfl rfl) ?_,?_,?_⟩
  · intro j hj
    cases hj
  · intro k hk
    dsimp only at hk
    by_cases hki : k=i
    · rw [hki,Function.update_self] at hk
      cases hk
    · rw [Function.update_of_ne hki] at hk
      have hlock' := (h.locked k hk).1
      rw [hlock] at hlock'
      exact absurd (Prod.mk.inj (Option.some.inj hlock')).1.symm hki
  · intro k v hk
    rw [hdb] at hk
    obtain ⟨hold,hki⟩ := pending_commit.mp hk
    dsimp only
    rw [Function.update_of_ne hki]
    exact h.holder k v hold

/-- A rejection deletes the row while no approval has it locked. -/
theorem PostgresDecided.reject (h : PostgresDecided t s) {affected : Bool} {db : postgres.State}
    {j : ℕ} (run : postgres.reject s.db affected db) :
    PostgresDecided t
      {s with db := db,rejections := Function.update s.rejections j (some (some affected))} := by
  obtain ⟨hfree,haffected,hdb⟩ := run
  have hunlocked : ∀ k, s.approvals k≠.deleted := by
    intro k hk
    rw [(h.locked k hk).1] at hfree
    cases hfree
  have hholder : ∀ k v, db.pending.pending ()=some (k,v) → s.approvals k=.deleted := by
    intro k v hk
    rw [hdb] at hk
    cases affected with
    | true => exact h.holder k v hk
    | false => exact h.holder k v hk
  refine ⟨?_,fun k hk => absurd hk (hunlocked k),hholder⟩
  cases affected with
  | true =>
    have hdb := hdb.trans (if_pos rfl)
    have hthere : (postgres.tables s.db).pending≠none := by
      intro hnone
      have hnone : (s.db.pending.committed ()).join=none := hnone
      rw [hnone] at haffected
      cases haffected
    have hgone : (postgres.tables db).pending=none := by
      rw [hdb]
      show (Function.update s.db.pending.committed () (some none) ()).join=none
      rw [Function.update_self]
      rfl
    refine h.toDecided.decide hthere hgone (call_of_rejection rfl rfl) ?_
    intro _ _
    rw [hdb]
    rfl
  | false =>
    have hdb := hdb.trans (if_neg Bool.false_ne_true)
    exact h.toDecided.quiet (by rw [hdb]) (returnedTrue_of_rejection rfl rfl (by simp))

/-- On PostgreSQL a step keeps the decision one, as long as no approval deletes
a row that is gone. -/
theorem PostgresDecided.step (h : PostgresDecided t s) (hstep : DecisionStep postgres ids s op s')
    (hmeets : ∀ i, op=.delete i → (postgres.tables s.db).pending≠none) :
    PostgresDecided t s' := by
  cases hstep with
  | @fetch row db db' i idle run outcome =>
    obtain ⟨_,hdb⟩ := run
    cases row with
    | none =>
      have outcome : postgres.rollback i db db' := outcome
      rw [hdb] at outcome
      exact h.rollback rfl rfl ApprovalPhase.noConfusion (by simp [afterFetch]) outcome
    | some reg =>
      have outcome : db'=s.db := outcome.trans hdb
      rw [outcome]
      exact h.move rfl rfl ApprovalPhase.noConfusion ApprovalPhase.noConfusion
        (h.unlocked (by rw [idle]; exact ApprovalPhase.noConfusion)) rfl rfl
  | @check reg found db db' i fetched run outcome =>
    obtain ⟨_,hdb⟩ := run
    cases found with
    | true =>
      have outcome : postgres.rollback i db db' := outcome
      rw [hdb] at outcome
      exact h.rollback rfl rfl ApprovalPhase.noConfusion (by simp [afterCheck]) outcome
    | false =>
      have outcome : db'=s.db := outcome.trans hdb
      rw [outcome]
      exact h.move rfl rfl ApprovalPhase.noConfusion ApprovalPhase.noConfusion
        (h.unlocked (by rw [fetched]; exact ApprovalPhase.noConfusion)) rfl rfl
  | insert i now checked run =>
    obtain ⟨_,_,hdb⟩ := run
    rw [hdb]
    exact h.move rfl rfl ApprovalPhase.noConfusion ApprovalPhase.noConfusion
      (h.unlocked (by rw [checked]; exact ApprovalPhase.noConfusion)) rfl rfl
  | delete i inserted run => exact h.delete inserted (hmeets i rfl) run
  | commit i deleted run => exact h.commit deleted run
  | abort i begun run => exact h.rollback rfl rfl ApprovalPhase.noConfusion (by simp) run
  | reject j idle run => exact h.reject run
  | rejectFails j idle =>
    exact ⟨h.toDecided.quiet rfl (returnedTrue_of_rejection rfl rfl (by simp)),h.locked,h.holder⟩

end Postgres

section Sqlite

variable {t : Tables} {s s' : Decisions sqlite} {ids : ℕ → String} {op : DecisionOp}

/-- An open approval has read the row in its snapshot, and who writes and has
deleted the row has no row. -/
structure SqliteDecided (t : Tables) (s : Decisions sqlite) : Prop extends Decided t s where
  /-- Snapshots are as they should be. -/
  sound : Sound s.db
  /-- The row is in the snapshot. -/
  read : ∀ i, (s.approvals i).Open → ∃ n base, s.db.snapshot i=some (n,base) ∧ base.pending≠none
  /-- The row is not in what was written. -/
  wrote : ∀ i base, s.db.writer=some (i,base) → s.approvals i=.deleted → base.pending=none

/-- An approval moves and leaves the snapshots and writes of the others. -/
theorem SqliteDecided.others (h : SqliteDecided t s) {i : ℕ} {phase : ApprovalPhase}
    (happrovals : s'.approvals=Function.update s.approvals i phase)
    (hdecided : Decided t s') (hsound : Sound s'.db)
    (hread : phase.Open → ∃ n base, s'.db.snapshot i=some (n,base) ∧ base.pending≠none)
    (hwrote : ∀ base, s'.db.writer=some (i,base) → phase=.deleted → base.pending=none)
    (hsnapshot : ∀ k, k≠i → s'.db.snapshot k=s.db.snapshot k)
    (hwriter : ∀ k base, k≠i → s'.db.writer=some (k,base) → s.db.writer=some (k,base)) :
    SqliteDecided t s' := by
  refine ⟨hdecided,hsound,?_,?_⟩
  · intro k hk
    rw [happrovals] at hk
    by_cases hki : k=i
    · rw [hki,Function.update_self] at hk
      rw [hki]
      exact hread hk
    · rw [Function.update_of_ne hki] at hk
      rw [hsnapshot k hki]
      exact h.read k hk
  · intro k base hw hk
    rw [happrovals] at hk
    by_cases hki : k=i
    · rw [hki,Function.update_self] at hk
      rw [hki] at hw
      exact hwrote base hw hk
    · rw [Function.update_of_ne hki] at hk
      exact h.wrote k base (hwriter k base hki hw) hk

/-- An approval ends without returning true and rolls back. -/
theorem SqliteDecided.rollback (h : SqliteDecided t s) {i : ℕ} {result : Option Bool}
    (happrovals : s'.approvals=Function.update s.approvals i (.returned result))
    (hrejections : s'.rejections=s.rejections) (hresult : result≠some true)
    (hdb : s'.db=s.db.rollback i ∨ s'.db=(s.db.read i).rollback i) : SqliteDecided t s' := by
  have htables : sqlite.tables s'.db=sqlite.tables s.db := by
    rcases hdb with hdb | hdb <;> rw [hdb] <;> rfl
  have hsound : Sound s'.db := by
    rcases hdb with hdb | hdb <;> rw [hdb]
    · exact h.sound.rollback i
    · exact (h.sound.read i).rollback i
  refine h.others happrovals (h.toDecided.quiet htables ?_) hsound (fun hopen => hopen.elim)
    (fun _ _ => ApprovalPhase.noConfusion) ?_ ?_
  · refine returnedTrue_of_approval happrovals hrejections ?_
    intro heq
    exact hresult (ApprovalPhase.returned.inj heq)
  · intro k hk
    rcases hdb with hdb | hdb <;> rw [hdb]
    · exact Function.update_of_ne hk _ _
    · exact (Function.update_of_ne hk _ _).trans (Function.update_of_ne hk _ _)
  · intro k base hk hw
    rcases hdb with hdb | hdb <;> rw [hdb] at hw
    · exact (writer_rollback.mp hw).1
    · exact (writer_rollback.mp hw).1

/-- An approval writes. -/
theorem SqliteDecided.write (h : SqliteDecided t s) {i : ℕ} {phase : ApprovalPhase}
    {base new : Tables}
    (happrovals : s'.approvals=Function.update s.approvals i phase)
    (hrejections : s'.rejections=s.rejections) (hopen : (s.approvals i).Open)
    (hphase : phase≠.returned (some true)) (hwritable : s.db.Writable i base)
    (hdb : s'.db=s.db.write i new) (hnew : phase=.deleted → new.pending=none) :
    SqliteDecided t s' := by
  refine h.others happrovals
    (h.toDecided.quiet (by rw [hdb]; rfl) (returnedTrue_of_approval happrovals hrejections hphase))
    (by rw [hdb]; exact h.sound.write hwritable new) ?_ ?_ ?_ ?_
  · intro _
    rw [hdb]
    exact h.read i hopen
  · intro base' hw hdeleted
    rw [hdb] at hw
    cases hw
    exact hnew hdeleted
  · intro k _
    rw [hdb]
    rfl
  · intro k base' hk hw
    rw [hdb] at hw
    cases hw
    exact absurd rfl hk

/-- An approval commits and returns true; it has read the row in its snapshot. -/
theorem SqliteDecided.commit (h : SqliteDecided t s) {db : sqlite.State} {i : ℕ}
    (deleted : s.approvals i=.deleted) (run : sqlite.commit i s.db db) :
    SqliteDecided t
      {s with db := db,approvals := Function.update s.approvals i (.returned (some true))} := by
  obtain ⟨base,hw,hdb⟩ := run
  -- the writer has read what is committed, and its snapshot has the row
  have hthere : s.db.committed.pending≠none := by
    obtain ⟨n,snap,hsnap,hpending⟩ := h.read i (by rw [deleted]; trivial)
    rw [h.sound.writer i base hw] at hsnap
    cases hsnap
    exact hpending
  have hgone : (sqlite.tables db).pending=none := by
    rw [hdb]
    exact h.wrote i base hw deleted
  refine h.others rfl (h.toDecided.decide hthere hgone (call_of_approval rfl rfl) ?_)
    (by rw [hdb]; exact h.sound.commit i base) (fun hopen => hopen.elim)
    (fun _ _ => ApprovalPhase.noConfusion) ?_ ?_
  · intro j hj
    cases hj
  · intro k hk
    rw [hdb]
    exact Function.update_of_ne hk _ _
  · intro k base' _ hw'
    rw [hdb] at hw'
    cases hw'

/-- A rejection deletes the row while nobody writes. -/
theorem SqliteDecided.reject (h : SqliteDecided t s) {affected : Bool} {db : sqlite.State}
    {j : ℕ} (run : sqlite.reject s.db affected db) :
    SqliteDecided t
      {s with db := db,rejections := Function.update s.rejections j (some (some affected))} := by
  obtain ⟨hw,haffected,hdb⟩ := run
  cases affected with
  | true =>
    have hdb := hdb.trans (if_pos rfl)
    have hthere : (sqlite.tables s.db).pending≠none := by
      intro hnone
      have hnone : s.db.committed.pending=none := hnone
      rw [hnone] at haffected
      cases haffected
    refine ⟨h.toDecided.decide hthere (by rw [hdb]; rfl) (call_of_rejection rfl rfl)
      (fun _ _ => by rw [hdb]; rfl),by rw [hdb]; exact h.sound.put hw _,?_,?_⟩
    · intro i hopen
      rw [hdb]
      exact h.read i hopen
    · intro i base hwriter
      rw [hdb] at hwriter
      have hwriter : s.db.writer=some (i,base) := hwriter
      rw [hw] at hwriter
      cases hwriter
  | false =>
    have hdb := hdb.trans (if_neg Bool.false_ne_true)
    rw [hdb]
    exact ⟨h.toDecided.quiet rfl (returnedTrue_of_rejection rfl rfl (by simp)),h.sound,h.read,
      h.wrote⟩

/-- On SQLite every step keeps the decision one. -/
theorem SqliteDecided.step (h : SqliteDecided t s) (hstep : DecisionStep sqlite ids s op s') :
    SqliteDecided t s' := by
  cases hstep with
  | @fetch row db db' i idle run outcome =>
    obtain ⟨hrow,hdb⟩ := run
    cases row with
    | none =>
      have outcome : sqlite.rollback i db db' := outcome
      rw [hdb] at outcome
      exact h.rollback rfl rfl (by simp) (.inr outcome)
    | some reg =>
      have hdb : db'=s.db.read i := outcome.trans hdb
      refine h.others rfl (h.toDecided.quiet (by rw [hdb]; rfl)
        (returnedTrue_of_approval rfl rfl ApprovalPhase.noConfusion))
        (by rw [hdb]; exact h.sound.read i) ?_ (fun _ _ => ApprovalPhase.noConfusion) ?_ ?_
      · intro _
        rw [hdb]
        refine ⟨_,_,Function.update_self i _ _,?_⟩
        rw [← hrow]
        exact Option.some_ne_none reg
      · intro k hk
        rw [hdb]
        exact Function.update_of_ne hk _ _
      · intro k base _ hw
        rw [hdb] at hw
        exact hw
  | @check reg found db db' i fetched run outcome =>
    obtain ⟨_,_,_,_,hdb⟩ := run
    cases found with
    | true =>
      have outcome : sqlite.rollback i db db' := outcome
      rw [hdb] at outcome
      exact h.rollback rfl rfl (by simp) (.inl outcome)
    | false =>
      have hdb : db'=s.db := outcome.trans hdb
      refine h.others rfl (h.toDecided.quiet (by rw [hdb])
        (returnedTrue_of_approval rfl rfl ApprovalPhase.noConfusion))
        (by rw [hdb]; exact h.sound) ?_ (fun _ _ => ApprovalPhase.noConfusion) ?_ ?_
      · intro _
        rw [hdb]
        exact h.read i (by rw [fetched]; trivial)
      · intro k _
        rw [hdb]
      · intro k base _ hw
        rw [hdb] at hw
        exact hw
  | insert i now checked run =>
    obtain ⟨base,hwritable,_,hdb⟩ := run
    exact h.write rfl rfl (by rw [checked]; trivial) ApprovalPhase.noConfusion hwritable hdb
      ApprovalPhase.noConfusion
  | delete i inserted run =>
    obtain ⟨base,hwritable,hdb⟩ := run
    exact h.write rfl rfl (by rw [inserted]; trivial) ApprovalPhase.noConfusion hwritable hdb
      (fun _ => rfl)
  | commit i deleted run => exact h.commit deleted run
  | abort i begun run => exact h.rollback rfl rfl (by simp) (.inl run)
  | reject j idle run => exact h.reject run
  | rejectFails j idle =>
    exact ⟨h.toDecided.quiet rfl (returnedTrue_of_rejection rfl rfl (by simp)),h.sound,h.read,
      h.wrote⟩

end Sqlite

/-- The relational backends. -/
inductive Engine where
  | sqlite | postgres

/-- The statements of a backend. -/
def Engine.backend : Engine → Backend
  | .sqlite => RegistrationDecisions.sqlite
  | .postgres => RegistrationDecisions.postgres

/-- No approval on PostgreSQL deletes a pending row that is gone. -/
def RowThere : (e : Engine) → Decisions e.backend → DecisionOp → Prop
  | .postgres,s,.delete _ => (RegistrationDecisions.postgres.tables s.db).pending≠none
  | _,_,_ => True

/-- A pending registration gets one decision: on SQLite in every run, on
PostgreSQL when no approval deletes a row that is gone. -/
theorem one_decision (e : Engine) {t : Tables} {ids : ℕ → String} {history : List DecisionOp}
    {s : Decisions e.backend}
    (run : Run (fun a op a' => DecisionStep e.backend ids a op a' ∧ RowThere e a op)
      (.start e.backend t) history s) : OneDecision t s := by
  cases e with
  | sqlite =>
    have h : SqliteDecided t s := by
      refine Run.invariant (I:=fun _ => SqliteDecided t) ?_ ?_ run
      · exact ⟨decided_start rfl,sound_start t,fun _ hopen => hopen.elim,fun _ _ hw => by cases hw⟩
      · intro _ _ _ _ _ h hstep
        exact h.step hstep.1
    exact h.toOneDecision
  | postgres =>
    have h : PostgresDecided t s := by
      refine Run.invariant (I:=fun _ => PostgresDecided t) ?_ ?_ run
      · exact ⟨decided_start rfl,fun _ => ApprovalPhase.noConfusion,fun _ _ hp => by cases hp⟩
      · intro _ _ _ _ _ h hstep
        refine h.step hstep.1 ?_
        intro i hop
        have hthere := hstep.2
        rw [hop] at hthere
        exact hthere
    exact h.toOneDecision

/-- One registration, and no users. -/
def waiting : Tables := ⟨some ⟨"p","alice","hash"⟩,fun _ => none⟩

/-- An approval and a late rejection on SQLite. -/
theorem one_decision_approved :
    ∃ s : Decisions Engine.sqlite.backend,
      Run (fun a op a' => DecisionStep Engine.sqlite.backend (fun _ => "u") a op a' ∧
        RowThere .sqlite a op) (.start Engine.sqlite.backend waiting)
        [.reject 0,.commit 0,.delete 0,.insert 0,.check 0,.fetch 0] s ∧
      s.ReturnedTrue (.approval 0) ∧ OneDecision waiting s := by
  have run : Run (fun a op a' => DecisionStep Engine.sqlite.backend (fun _ => "u") a op a' ∧
      RowThere .sqlite a op) (.start Engine.sqlite.backend waiting)
      [.reject 0,.commit 0,.delete 0,.insert 0,.check 0,.fetch 0] _ :=
    .next _ (.next _ (.next _ (.next _ (.next _ (.next _ .start
      ⟨.fetch 0 rfl ⟨rfl,rfl⟩ rfl,trivial⟩)
      ⟨.check 0 rfl ⟨_,_,rfl,rfl,rfl⟩ rfl,trivial⟩)
      ⟨.insert 0 10 rfl ⟨_,.inr ⟨rfl,rfl⟩,rfl,rfl⟩,trivial⟩)
      ⟨.delete 0 rfl ⟨_,.inl rfl,rfl⟩,trivial⟩)
      ⟨.commit 0 rfl ⟨_,rfl,rfl⟩,trivial⟩)
      ⟨.reject 0 rfl ⟨rfl,rfl,rfl⟩,trivial⟩
  exact ⟨_,run,rfl,one_decision .sqlite run⟩

/-- On PostgreSQL a rejection between the read and the delete of an approval
leaves both successful. -/
theorem two_decisions :
    ∃ s : Decisions postgres, Run (DecisionStep postgres fun _ => "u") (.start postgres waiting)
      [.commit 0,.delete 0,.insert 0,.check 0,.reject 0,.fetch 0] s ∧ ¬OneDecision waiting s := by
  have run : Run (DecisionStep postgres fun _ => "u") (.start postgres waiting)
      [.commit 0,.delete 0,.insert 0,.check 0,.reject 0,.fetch 0] _ :=
    .next _ (.next _ (.next _ (.next _ (.next _ (.next _ .start
      (.fetch 0 rfl ⟨rfl,rfl⟩ rfl))
      (.reject 0 rfl ⟨rfl,rfl,rfl⟩))
      (.check 0 rfl ⟨rfl,rfl⟩ rfl))
      (.insert 0 10 rfl ⟨rfl,rfl,rfl⟩))
      (.delete 0 rfl ⟨fun _ _ h => (by cases h),rfl⟩))
      (.commit 0 rfl rfl)
  refine ⟨_,run,?_⟩
  intro h
  have hboth := h.unique (.approval 0) (.rejection 0) rfl rfl
  cases hboth

end TokiSync.RegistrationDecisions
