import TokiSync.KeyedRows
import TokiSync.ByteKeys

/-!
# Accounts and administrative calls

Accounts have a role and an active flag. An administrative call is made by a
caller whose token was verified; the caller must be active, as far as a
short-lived cache knows, and have the role of an administrator. Registrations
make accounts of ordinary users, at once or after an approval.
-/

namespace TokiSync.AdminAccounts

open KeyedRows ByteKeys

/-- One account. -/
structure User where
  /-- Id of the account. -/
  id : String
  /-- Login name. -/
  username : String
  /-- Hash of the password. -/
  passwordHash : String
  /-- Role of the account. -/
  role : String
  /-- Whether the account may be used. -/
  active : Bool
  deriving DecidableEq

/-- One registration that waits for an approval. -/
structure PendingRegistration where
  /-- Id of the registration. -/
  id : String
  /-- Login name asked for. -/
  username : String
  /-- Hash of the password. -/
  passwordHash : String
  deriving DecidableEq

/-- The accounts and the waiting registrations. -/
structure Accounts where
  /-- The accounts. -/
  users : Table User.id
  /-- The waiting registrations. -/
  pending : Table PendingRegistration.id

/-- A refused call. -/
structure AppError where
  /-- HTTP status. -/
  status : ℕ
  /-- Text for the caller. -/
  message : String
  deriving DecidableEq

/-- The caller is not known. -/
def AppError.unauthorized (message : String) : AppError := ⟨401,message⟩

/-- The caller may not do this. -/
def AppError.forbidden (message : String) : AppError := ⟨403,message⟩

/-- The object does not exist. -/
def AppError.notFound (message : String) : AppError := ⟨404,message⟩

/-- The object exists already. -/
def AppError.conflict (message : String) : AppError := ⟨409,message⟩

/-- The request is not acceptable. -/
def AppError.unprocessable (message : String) : AppError := ⟨422,message⟩

/-- Something went wrong; the caller is told no more. -/
def AppError.internal : AppError := ⟨500,"internal server error"⟩

/-- A sequence of checks succeeds when every one of them does. -/
theorem bind_eq_ok {ε α β : Type} {x : Except ε α} {f : α → Except ε β} {b : β} :
    (x >>= f)=.ok b ↔ ∃ a, x=.ok a ∧ f a=.ok b := by
  cases x with
  | error e =>
    constructor
    · intro h
      cases h
    · rintro ⟨a,ha,-⟩
      cases ha
  | ok a =>
    constructor
    · exact fun h => ⟨a,rfl,h⟩
    · rintro ⟨a',ha,h⟩
      cases ha
      exact h

section

variable (accounts : Accounts)

/-- The account of an id. -/
def getUserById (id : String) : Option User := accounts.users.find id

/-- Whether the account has the role of an administrator. -/
def userIsAdmin (id : String) : Bool :=
  (getUserById accounts id).any fun user => user.role="admin"

/-- Insert an account; ids and names are unique. -/
def createUser (user : User) : Option Accounts :=
  if accounts.users.rows.any fun other => other.id=user.id || other.username=user.username then none
  else some {accounts with users := accounts.users.put user}

/-- Change the role of an account. -/
def updateUserRole (userId role : String) : Option Accounts :=
  (getUserById accounts userId).map fun user =>
    {accounts with users := accounts.users.put {user with role := role}}

/-- Change the active flag of an account. -/
def setUserActive (userId : String) (active : Bool) : Option Accounts :=
  (getUserById accounts userId).map fun user =>
    {accounts with users := accounts.users.put {user with active := active}}

/-- Remove an account. -/
def deleteUser (userId : String) : Option Accounts :=
  (getUserById accounts userId).map fun _ =>
    {accounts with users := accounts.users.keep fun user => user.id≠userId}

/-- Number of active administrators with another name. -/
def countActiveAdminsExcept (username : String) : ℕ :=
  (accounts.users.rows.filter fun user =>
    user.role="admin" && user.active && user.username≠username).length

/-- Insert a waiting registration; ids and names are unique. -/
def createPendingRegistration (registration : PendingRegistration) : Option Accounts :=
  if accounts.pending.rows.any fun other =>
      other.id=registration.id || other.username=registration.username then none
  else some {accounts with pending := accounts.pending.put registration}

/-- Remove a waiting registration. -/
def rejectRegistration (pendingId : String) : Option Accounts :=
  (accounts.pending.find pendingId).map fun _ =>
    {accounts with pending := accounts.pending.keep fun registration => registration.id≠pendingId}

end

section

variable (isAlphanumeric : Char → Bool)

/-- Check a login name. -/
def validateUsername (username : String) : Except AppError Unit :=
  if (utf8 username).length<3 ∨ (utf8 username).length>32 then
    .error (.unprocessable "username must be 3-32 characters")
  else if username.toList.all fun c => isAlphanumeric c || c = '_' || c = '-' || c = '.' then .ok ()
  else .error (.unprocessable "username may only contain letters, digits, _, -, .")

/-- Check a password. -/
def validatePassword (password : String) : Except AppError Unit :=
  if (utf8 password).length<8 ∨ (utf8 password).length>128 then
    .error (.unprocessable "password must be 8-128 characters")
  else .ok ()

/-- Check that a role is one of the two. -/
def validateRole (role : String) : Except AppError Unit :=
  if role≠"user" ∧ role≠"admin" then .error (.unprocessable "role must be 'user' or 'admin'")
  else .ok ()

variable (accounts : Accounts)

/-- The account is active, as the cache or else the store says. -/
def ensureUserActive (cached : Option Bool) (userId : String) : Except AppError Unit :=
  if cached.getD ((getUserById accounts userId).any User.active) then .ok ()
  else .error (.unauthorized "account deactivated")

/-- The caller is an active administrator. -/
def requireAdmin (cached : Option Bool) (caller : String) : Except AppError Unit := do
  ensureUserActive accounts cached caller
  if userIsAdmin accounts caller then .ok () else .error (.forbidden "admin role required")

/-- Create an account with a new id and the hash of the password. -/
def adminCreateUser (username password : String) (role : Option String) (id hash : String) :
    Except AppError Accounts := do
  validateUsername isAlphanumeric username
  validatePassword password
  validateRole (role.getD "user")
  match createUser accounts ⟨id,username,hash,role.getD "user",true⟩ with
  | some created => .ok created
  | none => .error (.conflict "username already exists")

/-- Delete an account. The name is only checked when it can be read; the
account is deactivated first. -/
def adminDeleteUser (userId : String) (readable : Bool) : Except AppError Accounts :=
  if readable && (getUserById accounts userId).any fun user => user.username="admin" then
    .error (.forbidden "the built-in admin account cannot be deleted, only deactivated")
  else
    match deleteUser ((setUserActive accounts userId false).getD accounts) userId with
    | some deleted => .ok deleted
    | none => .error (.notFound "user not found")

/-- Change the role of an account. -/
def adminChangeUserRole (userId role : String) : Except AppError Accounts := do
  validateRole role
  match updateUserRole accounts userId role with
  | some updated => .ok updated
  | none => .error (.notFound "user not found")

/-- Activate or deactivate an account, not the caller's own and not the last
active administrator under the built-in name. -/
def adminSetUserActive (caller userId : String) (active : Bool) : Except AppError Accounts :=
  if !active && userId=caller then
    .error (.unprocessable "cannot deactivate your own account")
  else match getUserById accounts userId with
    | none => .error (.notFound "user not found")
    | some user =>
      if !active && user.username="admin" && countActiveAdminsExcept accounts "admin"=0 then
        .error (.unprocessable "cannot deactivate admin: no other admin accounts")
      else match setUserActive accounts userId active with
        | some updated => .ok updated
        | none => .error (.notFound "user not found")

/-- Turn a waiting registration into an account with a new id. A taken name is
a conflict; a taken id is not told apart from other failures. -/
def adminApprovePending (pendingId id : String) : Except AppError Accounts :=
  match accounts.pending.find pendingId with
  | none => .error (.notFound "pending registration not found")
  | some registration =>
    match createUser accounts ⟨id,registration.username,registration.passwordHash,"user",true⟩ with
    | none =>
      if accounts.users.rows.any fun user => user.username=registration.username then
        .error (.conflict "username already exists")
      else .error .internal
    | some created => .ok ((rejectRegistration created pendingId).getD created)

/-- Drop a waiting registration. -/
def adminRejectPending (pendingId : String) : Except AppError Accounts :=
  match rejectRegistration accounts pendingId with
  | some rejected => .ok rejected
  | none => .error (.notFound "pending registration not found")

/-- Register an account of an ordinary user, or let it wait for an approval. -/
def register (mode username password id hash : String) : Except AppError Accounts :=
  if mode≠"open" ∧ mode≠"approval" then .error (.forbidden "registration is disabled")
  else do
    validateUsername isAlphanumeric username
    validatePassword password
    if mode="approval" then
      match createPendingRegistration accounts ⟨id,username,hash⟩ with
      | some waiting => .ok waiting
      | none => .error (.conflict "username already exists or pending")
    else
      match createUser accounts ⟨id,username,hash,"user",true⟩ with
      | some created => .ok created
      | none => .error (.conflict "username already exists")

end

/-- Administrative calls. -/
inductive AdminCall where
  /-- Create an account. -/
  | createUser (username password : String) (role : Option String) (id hash : String)
  /-- Delete an account, whose name can be read or not. -/
  | deleteUser (userId : String) (readable : Bool)
  /-- Change the role of an account. -/
  | changeUserRole (userId role : String)
  /-- Activate or deactivate an account. -/
  | setUserActive (userId : String) (active : Bool)
  /-- Approve a registration. -/
  | approvePending (pendingId id : String)
  /-- Reject a registration. -/
  | rejectPending (pendingId : String)

/-- Calls that change accounts. -/
inductive Call where
  /-- An administrative call, with what the cache says about the caller. -/
  | admin (caller : String) (cached : Option Bool) (call : AdminCall)
  /-- A registration. -/
  | register (mode username password id hash : String)

/-- What an administrative call does once the caller is admitted. -/
def perform (isAlphanumeric : Char → Bool) (accounts : Accounts) (caller : String) :
    AdminCall → Except AppError Accounts
  | .createUser username password role id hash =>
    adminCreateUser isAlphanumeric accounts username password role id hash
  | .deleteUser userId readable => adminDeleteUser accounts userId readable
  | .changeUserRole userId role => adminChangeUserRole accounts userId role
  | .setUserActive userId active => adminSetUserActive accounts caller userId active
  | .approvePending pendingId id => adminApprovePending accounts pendingId id
  | .rejectPending pendingId => adminRejectPending accounts pendingId

/-- The accounts after a call, or why it is refused. -/
def handleCall (isAlphanumeric : Char → Bool) (accounts : Accounts) :
    Call → Except AppError Accounts
  | .admin caller cached call => do
    requireAdmin accounts cached caller
    perform isAlphanumeric accounts caller call
  | .register mode username password id hash =>
    register isAlphanumeric accounts mode username password id hash

end TokiSync.AdminAccounts
