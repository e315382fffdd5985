import TokiSync.AdminAccounts
import TokiSync.LoginGuard
import TokiSync.OidcAccounts
import TokiSync.VirtualQueries

/-!
# Violations of uniqueness and the conflicts reported

Five requests insert a row under a unique name or key. What the database says
of a violation passes through the repository, which writes some messages anew
and puts a context before the others, and the handler looks for a word in the
outermost text. A new message has the word, a context does not, so a taken name
of a team and a second membership are reported as internal errors, and so is a
taken id of an approved registration.
-/

namespace TokiSync.UniqueConflicts

open AdminAccounts KeyedRows LoginGuard
open OidcAccounts (Backend)

/-- A team. -/
structure Team where
  /-- Id of the team. -/
  id : String
  /-- Name of the team. -/
  name : String
  deriving DecidableEq

/-- A member of a team. -/
structure Membership where
  /-- The team. -/
  teamId : String
  /-- The user. -/
  userId : String
  /-- Role in the team. -/
  role : String
  deriving DecidableEq

/-- The primary key of memberships. -/
def Membership.key (member : Membership) : String×String := (member.teamId,member.userId)

/-- The tables that the requests insert into. -/
structure Tables where
  /-- Accounts and waiting registrations. -/
  accounts : Accounts
  /-- The teams. -/
  teams : Table Team.id
  /-- The memberships. -/
  members : Table Membership.key

section

variable (t : Tables)

/-- Insert a user; ids and names are unique. -/
def insertUser (user : User) : Option Tables :=
  (AdminAccounts.createUser t.accounts user).map fun accounts => {t with accounts := accounts}

/-- Insert a waiting registration; ids and names are unique. -/
def insertPending (registration : PendingRegistration) : Option Tables :=
  (AdminAccounts.createPendingRegistration t.accounts registration).map fun accounts =>
    {t with accounts := accounts}

/-- Insert a team; ids and names are unique. -/
def insertTeam (team : Team) : Option Tables :=
  if t.teams.rows.any fun other => other.id=team.id || other.name=team.name then none
  else some {t with teams := t.teams.put team}

/-- Insert a membership; a user is a member of a team at most once. -/
def insertMember (member : Membership) : Option Tables :=
  if t.members.rows.any fun other => other.key=member.key then none
  else some {t with members := t.members.put member}

end

/-- What a database says when the uniqueness of a table is violated. -/
structure Violations (b : Backend) where
  /-- The message about a table. -/
  text : String → String
  /-- Every message has the words of its database. -/
  marked : ∀ table, b.schema.duplicate.toList<:+:(text table).toList

/-- An error of the repository. -/
inductive AnyhowError where
  /-- A message. -/
  | message (text : String)
  /-- A context before another error. -/
  | context (text : String) (source : AnyhowError)

/-- Text of an error; a context hides its source. -/
def AnyhowError.toString : AnyhowError → String
  | .message text => text
  | .context text _ => text

/-- A text that contains a word. -/
def mentions (text word : String) : Bool := word.toList<:+:text.toList

/-- Words by which a backend's repository knows a violation. -/
def violationWords : Backend → List String
  | .sqlite => ["UNIQUE"]
  | .postgres => ["UNIQUE","duplicate key"]

/-- The message of a failed insert, written anew. -/
def rewrite (b : Backend) (name violated text : String) : AnyhowError :=
  if (violationWords b).any (mentions text) then
    .message ("UNIQUE constraint violation: "++violated)
  else .message (name++": "++text)

/-- The message of a failed insert behind a context. -/
def hide (name text : String) : AnyhowError := .context name (.message text)

section

variable {b : Backend} (v : Violations b) (t : Tables)

/-- Run an insert; a violation leaves the tables, and its message is passed
on. -/
def executeInsert (table : String) (inserted : Option Tables) (wrap : String → AnyhowError) :
    Except AnyhowError Unit×Tables :=
  match inserted with
  | some tables => (.ok (),tables)
  | none => (.error (wrap (v.text table)),t)

/-- Create a user. -/
def createUser (user : User) : Except AnyhowError Unit×Tables :=
  executeInsert v t "users" (insertUser t user) (rewrite b "create_user" "username already exists")

/-- Create a registration that waits for an approval. -/
def createPendingRegistration (registration : PendingRegistration) :
    Except AnyhowError Unit×Tables :=
  executeInsert v t "pending_registrations" (insertPending t registration)
    (rewrite b "create_pending_registration" "username already pending")

/-- Create a team. -/
def createTeam (team : Team) : Except AnyhowError Unit×Tables :=
  executeInsert v t "teams" (insertTeam t team) (hide "create_team")

/-- Add a member to a team. -/
def addTeamMember (member : Membership) : Except AnyhowError Unit×Tables :=
  executeInsert v t "team_members" (insertMember t member) (hide "add_team_member")

/-- Turn a waiting registration into an account, in one transaction that is
rolled back unless every step succeeds. -/
def approveRegistration (id userId : String) : Except AnyhowError Bool×Tables :=
  match t.accounts.pending.find id with
  | none => (.ok false,t)
  | some row =>
    if t.accounts.users.rows.any fun user => user.username=row.username then
      (.error (.message "UNIQUE constraint: username already exists in users"),t)
    else
      match executeInsert v t "users"
        (insertUser t ⟨userId,row.username,row.passwordHash,"user",true⟩)
        (hide "approve_registration: create user") with
      | (.error e,_) => (.error e,t)
      | (.ok (),tx) =>
        (.ok true,{tx with accounts := (rejectRegistration tx.accounts id).getD tx.accounts})

end

/-- What the handlers work on. -/
structure Server where
  /-- The tables. -/
  tables : Tables
  /-- The guard against too many attempts. -/
  guard : BruteForceGuard

/-- The answer to a caller with too many attempts. -/
def lockedOut (retryAfter : ℕ) : AppError :=
  ⟨429,"too many attempts, retry after "++toString retryAfter++"s"⟩

/-- The answer to a failed insert: a conflict when the error has one of the
words, and else an internal error. -/
def conflictOr (words : List String) (message : String) (e : AnyhowError) : AppError :=
  if words.any (mentions e.toString) then .conflict message else .internal

section

variable {b : Backend} (v : Violations b) (isAlphanumeric : Char → Bool) (s : Server)

/-- Register an account, at once or for an approval. Only a conflict counts as
a failed attempt. -/
def register (ip mode username password id hash : String) (checkedAt recordedAt : ℕ) :
    Except AppError ℕ×Server :=
  let subject : Subject := ⟨ip,.register⟩
  let guard := s.guard.after (.check checkedAt subject)
  match s.guard.answer checkedAt subject with
  | .error retryAfter => (.error (lockedOut retryAfter),⟨s.tables,guard⟩)
  | .ok () =>
    if mode≠"open" ∧ mode≠"approval" then
      (.error (.forbidden "registration is disabled"),⟨s.tables,guard⟩)
    else
      match (do validateUsername isAlphanumeric username; validatePassword password) with
      | .error e => (.error e,⟨s.tables,guard⟩)
      | .ok () =>
        if mode="approval" then
          match createPendingRegistration v s.tables ⟨id,username,hash⟩ with
          | (.ok (),tables) => (.ok 202,⟨tables,guard.after (.recordSuccess recordedAt subject)⟩)
          | (.error e,tables) =>
            (.error (conflictOr ["UNIQUE"] "username already exists or pending" e),
              ⟨tables,if mentions e.toString "UNIQUE" then
                guard.after (.recordFailure recordedAt subject) else guard⟩)
        else
          match createUser v s.tables ⟨id,username,hash,"user",true⟩ with
          | (.ok (),tables) => (.ok 201,⟨tables,guard.after (.recordSuccess recordedAt subject)⟩)
          | (.error e,tables) =>
            (.error (conflictOr ["UNIQUE"] "username already exists" e),
              ⟨tables,if mentions e.toString "UNIQUE" then
                guard.after (.recordFailure recordedAt subject) else guard⟩)

variable (caller : String) (cached : Option Bool)

/-- Create an account. -/
def adminCreateUser (username password : String) (role : Option String) (id hash : String) :
    Except AppError ℕ×Server :=
  match (do
    requireAdmin s.tables.accounts cached caller
    validateUsername isAlphanumeric username
    validatePassword password
    validateRole (role.getD "user")) with
  | .error e => (.error e,s)
  | .ok () =>
    match createUser v s.tables ⟨id,username,hash,role.getD "user",true⟩ with
    | (.ok (),tables) => (.ok 201,{s with tables := tables})
    | (.error e,tables) =>
      (.error (conflictOr ["UNIQUE"] "username already exists" e),{s with tables := tables})

/-- Approve a registration. -/
def adminApprovePending (pendingId userId : String) : Except AppError ℕ×Server :=
  match requireAdmin s.tables.accounts cached caller with
  | .error e => (.error e,s)
  | .ok () =>
    match approveRegistration v s.tables pendingId userId with
    | (.ok true,tables) => (.ok 204,{s with tables := tables})
    | (.ok false,tables) =>
      (.error (.notFound "pending registration not found"),{s with tables := tables})
    | (.error e,tables) =>
      (.error (conflictOr ["UNIQUE"] "username already exists" e),{s with tables := tables})

/-- The name of a team without whitespace at its ends. -/
def teamName (name : String) : String := String.ofList (VirtualQueries.trim name.toList)

/-- Create a team. -/
def adminCreateTeam (name id : String) : Except AppError ℕ×Server :=
  match requireAdmin s.tables.accounts cached caller with
  | .error e => (.error e,s)
  | .ok () =>
    if teamName name="" then (.error (.unprocessable "team name must not be empty"),s)
    else
      match createTeam v s.tables ⟨id,teamName name⟩ with
      | (.ok (),tables) => (.ok 201,{s with tables := tables})
      | (.error e,tables) =>
        (.error (conflictOr ["UNIQUE"] "team name already exists" e),{s with tables := tables})

/-- Roles in a team. -/
def teamRoles : List String := ["owner","admin","member"]

/-- Add a member to a team. -/
def adminAddTeamMember (teamId userId : String) (role : Option String) :
    Except AppError ℕ×Server :=
  match requireAdmin s.tables.accounts cached caller with
  | .error e => (.error e,s)
  | .ok () =>
    if s.tables.teams.find teamId=none then (.error (.notFound "team not found"),s)
    else if getUserById s.tables.accounts userId=none then (.error (.notFound "user not found"),s)
    else if role.getD "member"∉teamRoles then
      (.error (.unprocessable "role must be 'owner', 'admin', or 'member'"),s)
    else
      match addTeamMember v s.tables ⟨teamId,userId,role.getD "member"⟩ with
      | (.ok (),tables) => (.ok 201,{s with tables := tables})
      | (.error e,tables) =>
        (.error (conflictOr ["UNIQUE","PRIMARY"] "user is already a team member" e),
          {s with tables := tables})

end

/-- The requests that insert under a unique name or key. -/
inductive Request where
  /-- A registration, with the instants of the guard's check and record. -/
  | register (ip mode username password id hash : String) (checkedAt recordedAt : ℕ)
  /-- An administrator creates an account. -/
  | adminCreateUser (caller : String) (cached : Option Bool) (username password : String)
    (role : Option String) (id hash : String)
  /-- An administrator approves a registration. -/
  | adminApprovePending (caller : String) (cached : Option Bool) (pendingId userId : String)
  /-- An administrator creates a team. -/
  | adminCreateTeam (caller : String) (cached : Option Bool) (name id : String)
  /-- An administrator adds a member to a team. -/
  | adminAddTeamMember (caller : String) (cached : Option Bool) (teamId userId : String)
    (role : Option String)

/-- The answer to a request, and what the server is left with. -/
def handle {b : Backend} (v : Violations b) (isAlphanumeric : Char → Bool) (s : Server) :
    Request → Except AppError ℕ×Server
  | .register ip mode username password id hash checkedAt recordedAt =>
    register v isAlphanumeric s ip mode username password id hash checkedAt recordedAt
  | .adminCreateUser caller cached username password role id hash =>
    adminCreateUser v isAlphanumeric s caller cached username password role id hash
  | .adminApprovePending caller cached pendingId userId =>
    adminApprovePending v s caller cached pendingId userId
  | .adminCreateTeam caller cached name id => adminCreateTeam v s caller cached name id
  | .adminAddTeamMember caller cached teamId userId role =>
    adminAddTeamMember v s caller cached teamId userId role

/-- A request that passes every check before its insert. -/
def Valid (isAlphanumeric : Char → Bool) (s : Server) : Request → Prop
  | .register ip mode username password _ _ checkedAt _ =>
    s.guard.answer checkedAt ⟨ip,.register⟩=.ok () ∧ (mode="open" ∨ mode="approval") ∧
      validateUsername isAlphanumeric username=.ok () ∧ validatePassword password=.ok ()
  | .adminCreateUser caller cached username password role _ _ =>
    requireAdmin s.tables.accounts cached caller=.ok () ∧
      validateUsername isAlphanumeric username=.ok () ∧ validatePassword password=.ok () ∧
      validateRole (role.getD "user")=.ok ()
  | .adminApprovePending caller cached _ _ => requireAdmin s.tables.accounts cached caller=.ok ()
  | .adminCreateTeam caller cached name _ =>
    requireAdmin s.tables.accounts cached caller=.ok () ∧ teamName name≠""
  | .adminAddTeamMember caller cached teamId userId role =>
    requireAdmin s.tables.accounts cached caller=.ok () ∧
      (∃ team, s.tables.teams.find teamId=some team) ∧
      (∃ user, getUserById s.tables.accounts userId=some user) ∧ role.getD "member"∈teamRoles

/-- A user that has an id or a name. -/
def UserTaken (t : Tables) (id username : String) : Prop :=
  ∃ other∈t.accounts.users.rows, other.id=id ∨ other.username=username

/-- A waiting registration that has an id or a name. -/
def PendingTaken (t : Tables) (id username : String) : Prop :=
  ∃ other∈t.accounts.pending.rows, other.id=id ∨ other.username=username

/-- A team that has an id or a name. -/
def TeamTaken (t : Tables) (id name : String) : Prop :=
  ∃ other∈t.teams.rows, other.id=id ∨ other.name=name

/-- A user who is a member of a team. -/
def IsMember (t : Tables) (teamId userId : String) : Prop :=
  ∃ other∈t.members.rows, other.teamId=teamId ∧ other.userId=userId

/-- A request whose insert violates uniqueness, or whose own check for a
duplicate fires. -/
def Conflicting (t : Tables) : Request → Prop
  | .register _ mode username _ id _ _ _ =>
    if mode="approval" then PendingTaken t id username else UserTaken t id username
  | .adminCreateUser _ _ username _ _ id _ => UserTaken t id username
  | .adminApprovePending _ _ pendingId userId =>
    ∃ row, t.accounts.pending.find pendingId=some row ∧ UserTaken t userId row.username
  | .adminCreateTeam _ _ name id => TeamTaken t id (teamName name)
  | .adminAddTeamMember _ _ teamId userId _ => IsMember t teamId userId

/-- An answer that reports a conflict. -/
def IsConflict (answer : Except AppError ℕ) : Prop := ∃ e, answer=.error e ∧ e.status=409

/-- A request is reported as a conflict exactly when it is one, and then the
tables are left. -/
def ReportsConflict {b : Backend} (v : Violations b) (isAlphanumeric : Char → Bool) (s : Server)
    (r : Request) : Prop :=
  (IsConflict (handle v isAlphanumeric s r).1 ↔ Conflicting s.tables r) ∧
    (IsConflict (handle v isAlphanumeric s r).1 →
      (handle v isAlphanumeric s r).2.tables=s.tables)

/-- A request whose violation, if any, is not hidden by a context. -/
def Reported (t : Tables) : Request → Prop
  | .register .. | .adminCreateUser .. => True
  | .adminApprovePending _ _ pendingId userId =>
    ∀ row, t.accounts.pending.find pendingId=some row →
      (∃ other∈t.accounts.users.rows, other.username=row.username) ∨
        ∀ other∈t.accounts.users.rows, other.id≠userId
  | .adminCreateTeam _ _ name id => ¬TeamTaken t id (teamName name)
  | .adminAddTeamMember _ _ teamId userId _ => ¬IsMember t teamId userId

section

variable {b : Backend} {v : Violations b} {isAlphanumeric : Char → Bool} {t : Tables} {s : Server}
variable {r : Request}

/-- A word of a part of a text is a word of the text. -/
theorem mentions_of_part {text part word : String} (hpart : part.toList<:+:text.toList)
    (hword : mentions part word=true) : mentions text word=true :=
  decide_eq_true ((of_decide_eq_true hword).trans hpart)

/-- The repository knows every violation. -/
theorem knows_violation (v : Violations b) (table : String) :
    (violationWords b).any (mentions (v.text table))=true := by
  have hmarked := v.marked table
  rw [List.any_eq_true]
  cases b with
  | sqlite => exact ⟨"UNIQUE",by decide,mentions_of_part hmarked (by decide)⟩
  | postgres => exact ⟨"duplicate key",by decide,mentions_of_part hmarked (by decide)⟩

/-- A violation is written anew. -/
theorem rewrite_violation (v : Violations b) (name violated table : String) :
    rewrite b name violated (v.text table)=.message ("UNIQUE constraint violation: "++violated) :=
  if_pos (knows_violation v table)

/-- A guarded insert is refused when a row passes the guard's test. -/
theorem guarded_eq_none_iff {α β : Type} {rows : List α} {p : α → Bool} {inserted : β} :
    (if rows.any p then none else some inserted)=none ↔ ∃ row∈rows, p row=true := by
  rw [←List.any_eq_true]
  split_ifs with h
  · exact iff_of_true rfl h
  · exact iff_of_false not_false h

theorem insertUser_eq_none_iff {user : User} :
    insertUser t user=none ↔ UserTaken t user.id user.username := by
  rw [insertUser,Option.map_eq_none_iff,AdminAccounts.createUser,guarded_eq_none_iff,UserTaken]
  simp only [Bool.or_eq_true,decide_eq_true_eq]

theorem insertPending_eq_none_iff {registration : PendingRegistration} :
    insertPending t registration=none ↔
      PendingTaken t registration.id registration.username := by
  rw [insertPending,Option.map_eq_none_iff,AdminAccounts.createPendingRegistration,
    guarded_eq_none_iff,PendingTaken]
  simp only [Bool.or_eq_true,decide_eq_true_eq]

theorem insertTeam_eq_none_iff {team : Team} :
    insertTeam t team=none ↔ TeamTaken t team.id team.name := by
  rw [insertTeam,guarded_eq_none_iff,TeamTaken]
  simp only [Bool.or_eq_true,decide_eq_true_eq]

theorem insertMember_eq_none_iff {member : Membership} :
    insertMember t member=none ↔ IsMember t member.teamId member.userId := by
  rw [insertMember,guarded_eq_none_iff,IsMember]
  simp only [decide_eq_true_eq,Membership.key,Prod.mk.injEq]

/-- An insert that violates nothing succeeds, and one that does leaves the
tables and passes the message on. -/
theorem executeInsert_cases {taken : Prop} {inserted : Option Tables} (h : inserted=none ↔ taken)
    (v : Violations b) (t : Tables) (table : String) (wrap : String → AnyhowError) :
    (taken ∧ executeInsert v t table inserted wrap=(.error (wrap (v.text table)),t)) ∨
      (¬taken ∧ ∃ tables, executeInsert v t table inserted wrap=(.ok (),tables)) := by
  cases inserted with
  | none => exact Or.inl ⟨h.mp rfl,rfl⟩
  | some tables => exact Or.inr ⟨fun htaken => Option.some_ne_none _ (h.mpr htaken),tables,rfl⟩

theorem createUser_cases (v : Violations b) (t : Tables) (user : User) :
    (UserTaken t user.id user.username ∧ createUser v t user=
      (.error (.message ("UNIQUE constraint violation: "++"username already exists")),t)) ∨
    (¬UserTaken t user.id user.username ∧ ∃ tables, createUser v t user=(.ok (),tables)) := by
  rw [createUser,←rewrite_violation v "create_user" _ "users"]
  exact executeInsert_cases insertUser_eq_none_iff v t _ _

theorem createPendingRegistration_cases (v : Violations b) (t : Tables)
    (registration : PendingRegistration) :
    (PendingTaken t registration.id registration.username ∧
      createPendingRegistration v t registration=
        (.error (.message ("UNIQUE constraint violation: "++"username already pending")),t)) ∨
    (¬PendingTaken t registration.id registration.username ∧
      ∃ tables, createPendingRegistration v t registration=(.ok (),tables)) := by
  rw [createPendingRegistration,
    ←rewrite_violation v "create_pending_registration" _ "pending_registrations"]
  exact executeInsert_cases insertPending_eq_none_iff v t _ _

/-- An approval of a registration that waits. -/
theorem approveRegistration_cases (v : Violations b) {t : Tables} {id : String}
    {row : PendingRegistration} (hrow : t.accounts.pending.find id=some row) (userId : String) :
    ((∃ other∈t.accounts.users.rows, other.username=row.username) ∧
      approveRegistration v t id userId=
        (.error (.message "UNIQUE constraint: username already exists in users"),t)) ∨
    ((∀ other∈t.accounts.users.rows, other.username≠row.username) ∧
      ((∃ other∈t.accounts.users.rows, other.id=userId) ∧ approveRegistration v t id userId=
        (.error (hide "approve_registration: create user" (v.text "users")),t) ∨
      (∀ other∈t.accounts.users.rows, other.id≠userId) ∧
        ∃ tables, approveRegistration v t id userId=(.ok true,tables))) := by
  rw [approveRegistration,hrow]
  dsimp only
  by_cases hname : ∃ other∈t.accounts.users.rows, other.username=row.username
  · rw [if_pos (List.any_eq_true.mpr (by simpa only [decide_eq_true_eq] using hname))]
    exact Or.inl ⟨hname,rfl⟩
  · rw [if_neg fun hany => hname (by simpa only [decide_eq_true_eq] using List.any_eq_true.mp hany)]
    refine Or.inr ⟨fun other hother htaken => hname ⟨other,hother,htaken⟩,?_⟩
    obtain ⟨htaken,hinsert⟩ | ⟨hfree,tables,hinsert⟩ := executeInsert_cases insertUser_eq_none_iff
      v t "users" (hide "approve_registration: create user")
    · obtain ⟨other,hother,hsame⟩ := htaken
      rw [hinsert]
      exact Or.inl ⟨⟨other,hother,hsame.resolve_right fun h => hname ⟨other,hother,h⟩⟩,rfl⟩
    · rw [hinsert]
      exact Or.inr ⟨fun other hother h => hfree ⟨other,hother,Or.inl h⟩,_,rfl⟩

theorem isConflict_error {e : AppError} : IsConflict (.error e) ↔ e.status=409 := by
  constructor
  · rintro ⟨e',he,hstatus⟩
    cases he
    exact hstatus
  · exact fun hstatus => ⟨e,rfl,hstatus⟩

theorem not_isConflict_ok (status : ℕ) : ¬IsConflict (.ok status) := by
  rintro ⟨e,he,-⟩
  cases he

/-- A message written anew is a conflict. -/
theorem conflictOr_rewritten (message violated : String) :
    conflictOr ["UNIQUE"] message (.message ("UNIQUE constraint violation: "++violated))=
      .conflict message := by
  refine if_pos (List.any_eq_true.mpr ⟨"UNIQUE",List.mem_cons_self,decide_eq_true ?_⟩)
  rw [AnyhowError.toString,String.toList_append]
  exact List.IsInfix.trans (by decide) (List.prefix_append _ _).isInfix

theorem isConflict_rewritten (message violated : String) :
    IsConflict (.error (conflictOr ["UNIQUE"] message
      (.message ("UNIQUE constraint violation: "++violated)))) := by
  rw [conflictOr_rewritten]
  exact isConflict_error.mpr rfl

/-- A violation behind a context without the words is reported as an internal
error. -/
theorem conflictOr_hidden {words : List String} {name : String}
    (h : words.any (mentions name)=false) (message text : String) :
    conflictOr words message (hide name text)=.internal :=
  if_neg (Bool.not_eq_true _ ▸ h)

theorem not_isConflict_hidden {words : List String} {name : String}
    (h : words.any (mentions name)=false) (message text : String) :
    ¬IsConflict (.error (conflictOr words message (hide name text))) := by
  rw [conflictOr_hidden h]
  exact fun hconflict => by cases isConflict_error.mp hconflict

/-- What a request leads to: no conflict and an answer that reports none, a
conflict that is reported, or one that is hidden. -/
inductive Outcome (s : Server) (r : Request) (handled : Except AppError ℕ×Server) : Prop where
  /-- There is no conflict, and none is reported. -/
  | free (hfree : ¬Conflicting s.tables r) (hanswer : ¬IsConflict handled.1)
  /-- There is a conflict, and it is reported. -/
  | reported (hconflict : Conflicting s.tables r) (hreported : Reported s.tables r)
    (hanswer : IsConflict handled.1) (htables : handled.2.tables=s.tables)
  /-- There is a conflict, and the answer does not say so. -/
  | hidden (hconflict : Conflicting s.tables r) (hhidden : ¬Reported s.tables r)
    (hanswer : ¬IsConflict handled.1)

theorem outcome_register {ip mode username password id hash : String} {checkedAt recordedAt : ℕ}
    (hvalid : Valid isAlphanumeric s
      (.register ip mode username password id hash checkedAt recordedAt)) :
    Outcome s (.register ip mode username password id hash checkedAt recordedAt)
      (register v isAlphanumeric s ip mode username password id hash checkedAt recordedAt) := by
  obtain ⟨hanswer,hmode,husername,hpassword⟩ := hvalid
  have hchecks : (do validateUsername isAlphanumeric username; validatePassword password)=
      Except.ok () := by
    rw [husername]
    exact hpassword
  have hallowed : ¬(mode≠"open" ∧ mode≠"approval") := by
    rintro ⟨hopen,happroval⟩
    exact hmode.elim hopen happroval
  rw [register]
  simp only [hanswer,hchecks,if_neg hallowed]
  by_cases happroval : mode="approval"
  · have hconflict : Conflicting s.tables
        (.register ip mode username password id hash checkedAt recordedAt)=
          PendingTaken s.tables id username := if_pos happroval
    rw [if_pos happroval]
    obtain ⟨htaken,hcreate⟩ | ⟨hfree,tables,hcreate⟩ :=
      createPendingRegistration_cases v s.tables ⟨id,username,hash⟩
    · rw [hcreate]
      exact .reported (hconflict.mpr htaken) trivial (isConflict_rewritten _ _) rfl
    · rw [hcreate]
      exact .free (hconflict ▸ hfree) (not_isConflict_ok _)
  · have hconflict : Conflicting s.tables
        (.register ip mode username password id hash checkedAt recordedAt)=
          UserTaken s.tables id username := if_neg happroval
    rw [if_neg happroval]
    obtain ⟨htaken,hcreate⟩ | ⟨hfree,tables,hcreate⟩ :=
      createUser_cases v s.tables ⟨id,username,hash,"user",true⟩
    · rw [hcreate]
      exact .reported (hconflict.mpr htaken) trivial (isConflict_rewritten _ _) rfl
    · rw [hcreate]
      exact .free (hconflict ▸ hfree) (not_isConflict_ok _)

theorem outcome_adminCreateUser {caller username password id hash : String} {cached : Option Bool}
    {role : Option String}
    (hvalid : Valid isAlphanumeric s
      (.adminCreateUser caller cached username password role id hash)) :
    Outcome s (.adminCreateUser caller cached username password role id hash)
      (adminCreateUser v isAlphanumeric s caller cached username password role id hash) := by
  obtain ⟨hadmin,husername,hpassword,hrole⟩ := hvalid
  have hchecks : (do
      requireAdmin s.tables.accounts cached caller
      validateUsername isAlphanumeric username
      validatePassword password
      validateRole (role.getD "user"))=Except.ok () := by
    rw [hadmin,husername,hpassword]
    exact hrole
  rw [adminCreateUser,hchecks]
  dsimp only
  obtain ⟨htaken,hcreate⟩ | ⟨hfree,tables,hcreate⟩ :=
    createUser_cases v s.tables ⟨id,username,hash,role.getD "user",true⟩
  · rw [hcreate]
    exact .reported htaken trivial (isConflict_rewritten _ _) rfl
  · rw [hcreate]
    exact .free hfree (not_isConflict_ok _)

theorem outcome_adminApprovePending {caller pendingId userId : String} {cached : Option Bool}
    (hvalid : Valid isAlphanumeric s (.adminApprovePending caller cached pendingId userId)) :
    Outcome s (.adminApprovePending caller cached pendingId userId)
      (adminApprovePending v s caller cached pendingId userId) := by
  have hadmin : requireAdmin s.tables.accounts cached caller=.ok () := hvalid
  rw [adminApprovePending,hadmin]
  dsimp only
  cases hrow : s.tables.accounts.pending.find pendingId with
  | none =>
    rw [approveRegistration,hrow]
    refine .free ?_ (fun hconflict => by cases isConflict_error.mp hconflict)
    rintro ⟨row,hfound,-⟩
    rw [hrow] at hfound
    cases hfound
  | some row =>
    obtain ⟨⟨other,hother,hname⟩,happrove⟩ | ⟨hnames,⟨⟨other,hother,hid⟩,happrove⟩ |
      ⟨hids,tables,happrove⟩⟩ := approveRegistration_cases v hrow userId
    · rw [happrove]
      refine .reported ⟨row,hrow,other,hother,Or.inr hname⟩ ?_ ⟨_,rfl,rfl⟩ rfl
      intro row' hrow'
      cases hrow.symm.trans hrow'
      exact Or.inl ⟨other,hother,hname⟩
    · rw [happrove]
      refine .hidden ⟨row,hrow,other,hother,Or.inl hid⟩ (fun hreported => ?_)
        (not_isConflict_hidden (by decide) _ _)
      obtain ⟨named,hnamed,hname⟩ | hfree := hreported row hrow
      · exact hnames named hnamed hname
      · exact hfree other hother hid
    · rw [happrove]
      refine .free ?_ (not_isConflict_ok _)
      rintro ⟨row',hrow',other,hother,hsame⟩
      cases hrow.symm.trans hrow'
      exact hsame.elim (hids other hother) (hnames other hother)

theorem outcome_adminCreateTeam {caller name id : String} {cached : Option Bool}
    (hvalid : Valid isAlphanumeric s (.adminCreateTeam caller cached name id)) :
    Outcome s (.adminCreateTeam caller cached name id)
      (adminCreateTeam v s caller cached name id) := by
  obtain ⟨hadmin,hname⟩ := hvalid
  rw [adminCreateTeam,hadmin]
  dsimp only
  rw [if_neg hname,createTeam]
  have htaken : insertTeam s.tables ⟨id,teamName name⟩=none ↔
      TeamTaken s.tables id (teamName name) := insertTeam_eq_none_iff
  obtain ⟨htaken,hinsert⟩ | ⟨hfree,tables,hinsert⟩ :=
    executeInsert_cases htaken v s.tables "teams" (hide "create_team")
  · rw [hinsert]
    exact .hidden htaken (fun hreported => hreported htaken)
      (not_isConflict_hidden (by decide) _ _)
  · rw [hinsert]
    exact .free hfree (not_isConflict_ok _)

theorem outcome_adminAddTeamMember {caller teamId userId : String} {cached : Option Bool}
    {role : Option String}
    (hvalid : Valid isAlphanumeric s (.adminAddTeamMember caller cached teamId userId role)) :
    Outcome s (.adminAddTeamMember caller cached teamId userId role)
      (adminAddTeamMember v s caller cached teamId userId role) := by
  obtain ⟨hadmin,⟨team,hteam⟩,⟨user,huser⟩,hrole⟩ := hvalid
  rw [adminAddTeamMember,hadmin]
  dsimp only
  rw [hteam,huser,if_neg (Option.some_ne_none _),if_neg (Option.some_ne_none _),
    if_neg (not_not_intro hrole),addTeamMember]
  have htaken : insertMember s.tables ⟨teamId,userId,role.getD "member"⟩=none ↔
      IsMember s.tables teamId userId := insertMember_eq_none_iff
  obtain ⟨htaken,hinsert⟩ | ⟨hfree,tables,hinsert⟩ :=
    executeInsert_cases htaken v s.tables "team_members" (hide "add_team_member")
  · rw [hinsert]
    exact .hidden htaken (fun hreported => hreported htaken)
      (not_isConflict_hidden (by decide) _ _)
  · rw [hinsert]
    exact .free hfree (not_isConflict_ok _)

/-- Every request that passes the checks before its insert. -/
theorem outcome_handle (v : Violations b) (hvalid : Valid isAlphanumeric s r) :
    Outcome s r (handle v isAlphanumeric s r) := by
  cases r with
  | register ip mode username password id hash checkedAt recordedAt =>
    exact outcome_register hvalid
  | adminCreateUser caller cached username password role id hash =>
    exact outcome_adminCreateUser hvalid
  | adminApprovePending caller cached pendingId userId => exact outcome_adminApprovePending hvalid
  | adminCreateTeam caller cached name id => exact outcome_adminCreateTeam hvalid
  | adminAddTeamMember caller cached teamId userId role => exact outcome_adminAddTeamMember hvalid

/-- Without a conflict there is nothing to hide. -/
theorem reported_of_free (hfree : ¬Conflicting s.tables r) : Reported s.tables r := by
  cases r with
  | register ip mode username password id hash checkedAt recordedAt => trivial
  | adminCreateUser caller cached username password role id hash => trivial
  | adminApprovePending caller cached pendingId userId =>
    exact fun row hrow => Or.inr fun other hother hid =>
      hfree ⟨row,hrow,other,hother,Or.inl hid⟩
  | adminCreateTeam caller cached name id => exact hfree
  | adminAddTeamMember caller cached teamId userId role => exact hfree

/-- On either backend, whatever the messages of its violations, a request that
passes the checks before its insert is reported as a conflict exactly when it
is one, with the tables left, if and only if its violation is not hidden by a
context. -/
theorem reportsConflict_iff (v : Violations b) (isAlphanumeric : Char → Bool) (s : Server)
    (r : Request) (hvalid : Valid isAlphanumeric s r) :
    ReportsConflict v isAlphanumeric s r ↔ Reported s.tables r := by
  cases outcome_handle v hvalid with
  | free hfree hanswer =>
    exact iff_of_true ⟨iff_of_false hanswer hfree,fun hconflict => absurd hconflict hanswer⟩
      (reported_of_free hfree)
  | reported hconflict hreported hanswer htables =>
    exact iff_of_true ⟨iff_of_true hanswer hconflict,fun _ => htables⟩ hreported
  | hidden hconflict hhidden hanswer =>
    exact iff_of_false (fun hreports => hanswer (hreports.1.mpr hconflict)) hhidden

/-- The call on the accounts that a request makes. -/
def Request.call? : Request → Option Call
  | .register _ mode username password id hash _ _ =>
    some (.register mode username password id hash)
  | .adminCreateUser caller cached username password role id hash =>
    some (.admin caller cached (.createUser username password role id hash))
  | .adminApprovePending caller cached pendingId userId =>
    some (.admin caller cached (.approvePending pendingId userId))
  | .adminCreateTeam .. | .adminAddTeamMember .. => none

/-- A registration that the guard refuses. -/
def LockedOut (s : Server) : Request → Prop
  | .register ip _ _ _ _ _ checkedAt _ => s.guard.answer checkedAt ⟨ip,.register⟩≠.ok ()
  | _ => False

/-- What a handled request tells of the accounts. -/
def handledAccounts : Except AppError ℕ×Server → Except AppError Accounts
  | (.ok _,s) => .ok s.tables.accounts
  | (.error e,_) => .error e

/-- An insert into the accounts whose message is written anew. -/
theorem executeInsert_accounts (v : Violations b) (t : Tables) (inserted : Option Accounts)
    (table name violated : String) :
    executeInsert v t table (inserted.map fun accounts => {t with accounts := accounts})
        (rewrite b name violated)=
      match inserted with
      | some accounts => (.ok (),{t with accounts := accounts})
      | none => (.error (.message ("UNIQUE constraint violation: "++violated)),t) := by
  cases inserted with
  | none => exact Prod.ext (congrArg Except.error (rewrite_violation v name violated table)) rfl
  | some accounts => rfl

theorem adminCreateUser_accounts (v : Violations b)
    {caller username password id hash : String} {cached : Option Bool} {role : Option String} :
    handleCall isAlphanumeric s.tables.accounts
        (.admin caller cached (.createUser username password role id hash))=
      handledAccounts
        (adminCreateUser v isAlphanumeric s caller cached username password role id hash) := by
  rw [handleCall,adminCreateUser]
  cases requireAdmin s.tables.accounts cached caller with
  | error e => rfl
  | ok _ =>
    rw [perform,AdminAccounts.adminCreateUser]
    cases validateUsername isAlphanumeric username with
    | error e => rfl
    | ok _ =>
      cases validatePassword password with
      | error e => rfl
      | ok _ =>
        cases validateRole (role.getD "user") with
        | error e => rfl
        | ok _ =>
          rw [createUser,insertUser,executeInsert_accounts]
          cases AdminAccounts.createUser s.tables.accounts
              ⟨id,username,hash,role.getD "user",true⟩ with
          | none => exact congrArg Except.error (conflictOr_rewritten _ _).symm
          | some accounts => rfl

theorem register_accounts (v : Violations b) {ip mode username password id hash : String}
    {checkedAt recordedAt : ℕ} (hopen : s.guard.answer checkedAt ⟨ip,.register⟩=.ok ()) :
    handleCall isAlphanumeric s.tables.accounts (.register mode username password id hash)=
      handledAccounts
        (register v isAlphanumeric s ip mode username password id hash checkedAt recordedAt) := by
  rw [handleCall,AdminAccounts.register,register]
  simp only [hopen]
  by_cases hmode : mode≠"open" ∧ mode≠"approval"
  · rw [if_pos hmode,if_pos hmode]
    rfl
  · rw [if_neg hmode,if_neg hmode]
    cases validateUsername isAlphanumeric username with
    | error e => rfl
    | ok _ =>
      cases validatePassword password with
      | error e => rfl
      | ok _ =>
        by_cases happroval : mode="approval"
        · simp only [if_pos happroval]
          rw [createPendingRegistration,insertPending,executeInsert_accounts]
          cases AdminAccounts.createPendingRegistration s.tables.accounts ⟨id,username,hash⟩ with
          | none => exact congrArg Except.error (conflictOr_rewritten _ _).symm
          | some accounts => rfl
        · simp only [if_neg happroval]
          rw [createUser,insertUser,executeInsert_accounts]
          cases AdminAccounts.createUser s.tables.accounts ⟨id,username,hash,"user",true⟩ with
          | none => exact congrArg Except.error (conflictOr_rewritten _ _).symm
          | some accounts => rfl

theorem adminApprovePending_accounts (v : Violations b) {caller pendingId userId : String}
    {cached : Option Bool} :
    handleCall isAlphanumeric s.tables.accounts
        (.admin caller cached (.approvePending pendingId userId))=
      handledAccounts (adminApprovePending v s caller cached pendingId userId) := by
  rw [handleCall,adminApprovePending]
  cases requireAdmin s.tables.accounts cached caller with
  | error e => rfl
  | ok _ =>
    rw [perform,AdminAccounts.adminApprovePending,approveRegistration]
    dsimp only
    cases s.tables.accounts.pending.find pendingId with
    | none => rfl
    | some row =>
      simp only [insertUser]
      cases hcreate : AdminAccounts.createUser s.tables.accounts
          ⟨userId,row.username,row.passwordHash,"user",true⟩ with
      | none =>
        by_cases hname : s.tables.accounts.users.rows.any fun user => user.username=row.username
        · simp only [if_pos hname]
          exact congrArg Except.error (by decide)
        · simp only [if_neg hname]
          exact congrArg Except.error (conflictOr_hidden (by decide) _ _).symm
      | some accounts =>
        have hfree : ¬s.tables.accounts.users.rows.any fun user => user.username=row.username := by
          rintro hname
          obtain ⟨other,hother,hsame⟩ := List.any_eq_true.mp hname
          rw [AdminAccounts.createUser,if_pos] at hcreate
          · cases hcreate
          · exact List.any_eq_true.mpr ⟨other,hother,by rw [hsame,Bool.or_true]⟩
        simp only [if_neg hfree]
        rfl

/-- Handlers that are not locked out do to the accounts what the calls on the
accounts do. -/
theorem handleCall_eq (v : Violations b) {call : Call} (hcall : r.call?=some call)
    (hopen : ¬LockedOut s r) :
    handleCall isAlphanumeric s.tables.accounts call=
      handledAccounts (handle v isAlphanumeric s r) := by
  cases r with
  | register ip mode username password id hash checkedAt recordedAt =>
    cases hcall
    exact register_accounts v (not_not.mp hopen)
  | adminCreateUser caller cached username password role id hash =>
    cases hcall
    exact adminCreateUser_accounts v
  | adminApprovePending caller cached pendingId userId =>
    cases hcall
    exact adminApprovePending_accounts v
  | adminCreateTeam caller cached name id => cases hcall
  | adminAddTeamMember caller cached teamId userId role => cases hcall

end

/-- The messages of SQLite. -/
def sqliteViolations : Violations .sqlite where
  text table := "error returned from database: (code: 2067) UNIQUE constraint failed: "++table
  marked table := by
    rw [String.toList_append]
    exact List.IsInfix.trans (by decide) (List.prefix_append _ _).isInfix

/-- The messages of PostgreSQL. -/
def postgresViolations : Violations .postgres where
  text table :=
    "error returned from database: duplicate key value violates unique constraint: "++table
  marked table := by
    rw [String.toList_append]
    exact List.IsInfix.trans (by decide) (List.prefix_append _ _).isInfix

/-- A server with one administrator and one team. -/
def coreServer : Server where
  tables := {
    accounts := ⟨⟨[⟨"u1","admin","hash","admin",true⟩],by decide⟩,.empty⟩
    teams := ⟨[⟨"t1","core"⟩],by decide⟩
    members := .empty }
  guard := .new 5 300 900 0

/-- A registration under a taken name. -/
def takenName : Request := .register "203.0.113.7" "open" "admin" "correct horse" "u2" "hash" 1 2

/-- The registration is reported as a conflict on PostgreSQL. -/
theorem reportsConflict_takenName :
    ReportsConflict postgresViolations Char.isAlphanum coreServer takenName :=
  (reportsConflict_iff postgresViolations Char.isAlphanum coreServer takenName
    ⟨by decide,by decide,by decide,by decide⟩).mpr trivial

/-- A second team of one name. -/
def secondTeam : Request := .adminCreateTeam "u1" none "core" "t2"

/-- A second team of one name is a conflict, and is reported as an internal
error on both backends. -/
theorem secondTeam_hidden : Valid Char.isAlphanum coreServer secondTeam ∧
    Conflicting coreServer.tables secondTeam ∧
    ¬ReportsConflict sqliteViolations Char.isAlphanum coreServer secondTeam ∧
    ¬ReportsConflict postgresViolations Char.isAlphanum coreServer secondTeam := by
  have hconflict : Conflicting coreServer.tables secondTeam :=
    ⟨⟨"t1","core"⟩,by decide,Or.inr (by decide)⟩
  have hinternal : ¬IsConflict (.error AppError.internal) := fun h => by
    cases isConflict_error.mp h
  refine ⟨⟨by decide,by decide⟩,hconflict,fun hreports => ?_,fun hreports => ?_⟩
  · exact hinternal (hreports.1.mpr hconflict)
  · exact hinternal (hreports.1.mpr hconflict)

end TokiSync.UniqueConflicts
