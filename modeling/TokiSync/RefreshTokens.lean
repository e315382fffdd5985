import TokiSync.Runs
import TokiSync.ByteKeys
import TokiSync.RowVersions
import TokiSync.SnapshotWrites

/-!
# Refresh tokens on two relational backends

Logins store refresh tokens, rotations exchange them, and a password change
revokes those of its user. Requests run concurrently. A rotation is a
transaction of three statements, the revocation of a user is one statement
over many rows, and the backends differ in what concurrent transactions see:
PostgreSQL locks rows and reads what is committed when a statement starts,
SQLite has one writer and refuses writes over a stale snapshot.
-/

namespace TokiSync.RefreshTokens

open ByteKeys RowVersions SnapshotWrites

/-- One row of the table of refresh tokens. -/
structure TokenRow where
  /-- User the token was issued to. -/
  userId : String
  /-- Device the token was issued for, if any. -/
  deviceId : Option String
  /-- Expiry of the token. -/
  expiresAt : Int64
  /-- Whether the token may no longer be used. -/
  revoked : Bool
  /-- Time the row was written. -/
  createdAt : Int64
  deriving DecidableEq

/-- The table of refresh tokens by token id. -/
abbrev TokenTable := String → Option TokenRow

/-- Whether a looked-up token is unusable; a missing one is. -/
def isRevoked (row : Option TokenRow) : Bool := (row.map TokenRow.revoked).getD true

/-- The row of a token after its revocation. -/
def TokenRow.revoke (row : TokenRow) : TokenRow := {row with revoked := true}

/-- Revoke the token with the given id. -/
def revokeRefreshToken (table : TokenTable) (jti : String) : TokenTable :=
  fun k => if k=jti then (table k).map TokenRow.revoke else table k

/-- Whether the revocation of a user applies to a row. -/
def revocable (userId : String) (row : TokenRow) : Bool := row.userId=userId && !row.revoked

/-- Revoke the unrevoked tokens of a user. -/
def revokeUserRefreshTokens (table : TokenTable) (userId : String) : TokenTable :=
  fun k => (table k).map fun row => if revocable userId row then row.revoke else row

/-- Write the row of a new token. -/
def storeRefreshToken (table : TokenTable) (jti : String) (row : TokenRow) : TokenTable :=
  Function.update table jti (some row)

/-- Row of a newly issued token. -/
def freshRow (userId : String) (deviceId : Option String) (expiresAt now : Int64) : TokenRow :=
  ⟨userId,deviceId,expiresAt,false,now⟩

/-- One exchange of a refresh token for a new one. -/
structure Rotation where
  /-- Token that is presented. -/
  oldJti : String
  /-- Token that is issued. -/
  newJti : String
  /-- User named by the presented token. -/
  userId : String
  /-- Device named by the request. -/
  deviceId : Option String
  /-- Expiry of the new token. -/
  expiresAt : Int64
  /-- Clock at the insertion. -/
  now : Int64

/-- Row that a rotation inserts. -/
def Rotation.row (r : Rotation) : TokenRow := freshRow r.userId r.deviceId r.expiresAt r.now

/-- One login. -/
structure Login where
  /-- Password of the request. -/
  password : String
  /-- Device of the request. -/
  deviceId : Option String
  /-- Token that is issued. -/
  jti : String
  /-- Expiry of the token. -/
  expiresAt : Int64
  /-- Clock at the insertion. -/
  now : Int64

/-- Who changes the password. -/
inductive Changer where
  /-- The user, showing the current password. -/
  | me (currentPassword : String)
  /-- An administrator. -/
  | admin

/-- One password change. -/
structure PasswordChange where
  /-- Who changes the password. -/
  changer : Changer
  /-- New password. -/
  newPassword : String
  /-- Salted hash computed for the new password. -/
  newHash : String

/-- The row of the user, as far as the handlers read it. -/
structure User where
  /-- Id of the user. -/
  id : String
  /-- Hash of the password, empty for accounts of an identity provider. -/
  passwordHash : String
  /-- Whether the account may log in. -/
  active : Bool

/-- The requests that run concurrently, on behalf of one user. -/
structure Requests where
  /-- The user's row at the start. -/
  user : User
  /-- Check of a password against a hash. -/
  verify : String → String → Bool
  /-- Any number of rotations. -/
  rotation : ℕ → Rotation
  /-- Any number of logins. -/
  login : ℕ → Login
  /-- The password change. -/
  change : PasswordChange
  /-- The table of tokens at the start. -/
  tokens : TokenTable

/-- Whether a login passes the checks on the row it has read. -/
def loginPasses (verify : String → String → Bool) (user : User) (password : String) : Bool :=
  user.active && user.passwordHash≠"" && verify password user.passwordHash

/-- Row that a login inserts. -/
def Login.row (l : Login) (userId : String) : TokenRow :=
  freshRow userId l.deviceId l.expiresAt l.now

/-- Whether a password change passes the checks on the row it has read. -/
def changePasses (verify : String → String → Bool) (user : User) (change : PasswordChange) :
    Bool :=
  (match change.changer with
    | .me currentPassword => verify currentPassword user.passwordHash
    | .admin => true) &&
  8 ≤ (utf8 change.newPassword).length && (utf8 change.newPassword).length ≤ 128

/-- Statements of a backend, as steps on its state. Transactions are numbered;
a statement that waits or fails takes no step. -/
structure Backend where
  /-- State of the table and of the open transactions. -/
  State : Type
  /-- State without open transactions. -/
  start : TokenTable → State
  /-- Committed rows. -/
  table : State → TokenTable
  /-- Look up a token, as the first statement of a transaction. -/
  select : ℕ → String → State → Option TokenRow → State → Prop
  /-- Revoke a token in a transaction. -/
  revoke : ℕ → String → State → State → Prop
  /-- Insert a token in a transaction. -/
  insert : ℕ → String → TokenRow → State → State → Prop
  /-- Commit a transaction. -/
  commit : ℕ → State → State → Prop
  /-- Roll a transaction back. -/
  rollback : ℕ → State → State → Prop
  /-- Insert a token in a transaction of its own. -/
  store : String → TokenRow → State → State → Prop
  /-- Start the statement that revokes the tokens of a user. -/
  revokeUserStart : String → State → State → Prop
  /-- Let that statement process one row. -/
  revokeUserRow : String → String → State → State → Prop
  /-- End that statement and commit it. -/
  revokeUserFinish : State → State → Prop
  /-- Fail that statement. -/
  revokeUserAbort : State → State → Prop

/-- State of PostgreSQL: row versions, where the transaction without a number
is the revocation of a user, and the rows which that has yet to process. -/
structure PostgresState where
  /-- Row versions. -/
  rows : Versions String TokenRow (Option ℕ)
  /-- Rows found by the revocation and not processed yet. -/
  todo : String → Bool

/-- READ COMMITTED: a statement sees what is committed when it starts; an
update waits for the row lock, then applies its condition to the committed row
and goes on. -/
def postgres : Backend where
  State := PostgresState
  start table := ⟨.start table,fun _ => false⟩
  table s := s.rows.committed
  select i jti s row s' := row=s.rows.visible (some i) jti ∧ s'=s
  revoke i jti s s' :=
    (s.rows.visible (some i) jti=none ∧ s'=s) ∨
    ∃ row, s.rows.Free (some i) jti ∧ s.rows.visible (some i) jti=some row ∧
      s'={s with rows := s.rows.write (some i) jti row.revoke}
  -- the primary key refuses ids that are committed, and waits for pending ones
  insert i jti row s s' := s.rows.committed jti=none ∧ s.rows.pending jti=none ∧
    s'={s with rows := s.rows.write (some i) jti row}
  commit i s s' := s'={s with rows := s.rows.commit (some i)}
  rollback i s s' := s'={s with rows := s.rows.rollback (some i)}
  store jti row s s' := s.rows.committed jti=none ∧ s.rows.pending jti=none ∧
    s'={s with rows := s.rows.put jti row}
  revokeUserStart userId s s' :=
    s'={s with todo := fun k => (s.rows.committed k).any (revocable userId)}
  revokeUserRow userId k s s' := s.todo k=true ∧ s.rows.Free none k ∧
    s'={ rows := match s.rows.committed k with
          | some row => if revocable userId row then s.rows.write none k row.revoke else s.rows
          | none => s.rows
         todo := Function.update s.todo k false }
  revokeUserFinish s s' := (∀ k, s.todo k=false) ∧ s'={s with rows := s.rows.commit none}
  revokeUserAbort s s' := s'={ rows := s.rows.rollback none,todo := fun _ => false }

/-- Write-ahead logging with deferred transactions: the first statement takes
a snapshot, a write over a stale snapshot fails, and there is one writer. -/
def sqlite : Backend where
  State := Snapshots TokenTable ℕ
  start := .start
  table s := s.committed
  select i jti s row s' := row=s.committed jti ∧ s'=s.read i
  revoke i jti s s' := ∃ base, s.Writable i base ∧ s'=s.write i (revokeRefreshToken base jti)
  insert i jti row s s' := ∃ base, s.Writable i base ∧ base jti=none ∧
    s'=s.write i (storeRefreshToken base jti row)
  commit i s s' := ∃ table, s.writer=some (i,table) ∧ s'=s.commit i table
  rollback i s s' := s'=s.rollback i
  store jti row s s' := s.writer=none ∧ s.committed jti=none ∧
    s'=s.put (storeRefreshToken s.committed jti row)
  -- one statement in a transaction of its own: nothing comes between
  revokeUserStart userId s s' := s.writer=none ∧
    s'=s.put (revokeUserRefreshTokens s.committed userId)
  revokeUserRow _ _ _ _ := False
  revokeUserFinish s s' := s'=s
  revokeUserAbort _ _ := False

/-- Progress of a rotation. -/
inductive RotationPhase where
  /-- Not started. -/
  | idle
  /-- Has looked the token up. -/
  | checked (revoked : Bool)
  /-- Has revoked the old token. -/
  | updated
  /-- Has inserted the new token. -/
  | inserted
  /-- Has committed and returned the new token. -/
  | committed
  /-- Was rolled back. -/
  | failed
  deriving DecidableEq

/-- Whether the transaction of a rotation is open. -/
def RotationPhase.Open : RotationPhase → Prop
  | .checked _ | .updated | .inserted => True
  | _ => False

/-- Progress of a login. -/
inductive LoginPhase where
  /-- Not started. -/
  | idle
  /-- Has read the user and verified the password. -/
  | verified
  /-- Has stored its token. -/
  | stored
  /-- Was refused. -/
  | failed
  deriving DecidableEq

/-- Progress of the password change. -/
inductive ChangePhase where
  /-- Not started. -/
  | idle
  /-- Has read the user and passed the checks. -/
  | authorized
  /-- Has updated the password. -/
  | updated
  /-- Is revoking the tokens. -/
  | revoking
  /-- Has returned success. -/
  | returned
  /-- Has returned an error. -/
  | failed
  deriving DecidableEq

/-- Steps of the requests. -/
inductive SessionOp where
  /-- A rotation looks its token up. -/
  | check (i : ℕ)
  /-- A rotation revokes its old token. -/
  | update (i : ℕ)
  /-- A rotation inserts its new token. -/
  | insert (i : ℕ)
  /-- A rotation commits. -/
  | commit (i : ℕ)
  /-- A rotation rolls back. -/
  | abort (i : ℕ)
  /-- A login reads the user and verifies the password. -/
  | loginRead (l : ℕ)
  /-- A login stores its token. -/
  | loginStore (l : ℕ)
  /-- The change reads the user and runs its checks. -/
  | changeRead
  /-- The change updates the password. -/
  | changeUpdate
  /-- The change starts to revoke the user's tokens. -/
  | revokeUserStart
  /-- The revocation processes a row. -/
  | revokeUserRow (jti : String)
  /-- The revocation ends and the change returns. -/
  | revokeUserFinish
  /-- The revocation fails. -/
  | revokeUserAbort
  /-- The change fails before the revocation. -/
  | changeFail

/-- State of all requests and of the database. -/
structure Sessions (B : Backend) where
  /-- Table of tokens with the open transactions. -/
  db : B.State
  /-- Row of the user. -/
  user : User
  /-- Progress of the rotations. -/
  rotations : ℕ → RotationPhase
  /-- Progress of the logins. -/
  logins : ℕ → LoginPhase
  /-- Progress of the password change. -/
  change : ChangePhase

/-- State before any request has started. -/
def Sessions.start (B : Backend) (req : Requests) : Sessions B where
  db := B.start req.tokens
  user := req.user
  rotations _ := .idle
  logins _ := .idle
  change := .idle

/-- One step of one request. -/
inductive SessionStep (B : Backend) (req : Requests) :
    Sessions B → SessionOp → Sessions B → Prop where
  /-- `SELECT revoked … WHERE jti`. -/
  | check {s : Sessions B} {row : Option TokenRow} {db : B.State} (i : ℕ)
      (idle : s.rotations i=.idle) (run : B.select i (req.rotation i).oldJti s.db row db) :
      SessionStep B req s (.check i)
        {s with db := db,rotations := Function.update s.rotations i (.checked (isRevoked row))}
  /-- `UPDATE … SET revoked WHERE jti`, after the check has passed. -/
  | update {s : Sessions B} {db : B.State} (i : ℕ) (passed : s.rotations i=.checked false)
      (run : B.revoke i (req.rotation i).oldJti s.db db) :
      SessionStep B req s (.update i)
        {s with db := db,rotations := Function.update s.rotations i .updated}
  /-- `INSERT` of the new token. -/
  | insert {s : Sessions B} {db : B.State} (i : ℕ) (updated : s.rotations i=.updated)
      (run : B.insert i (req.rotation i).newJti (req.rotation i).row s.db db) :
      SessionStep B req s (.insert i)
        {s with db := db,rotations := Function.update s.rotations i .inserted}
  /-- `COMMIT`. -/
  | commit {s : Sessions B} {db : B.State} (i : ℕ) (inserted : s.rotations i=.inserted)
      (run : B.commit i s.db db) :
      SessionStep B req s (.commit i)
        {s with db := db,rotations := Function.update s.rotations i .committed}
  /-- `ROLLBACK`, after a failed check or any failed statement. -/
  | abort {s : Sessions B} {db : B.State} (i : ℕ) (begun : (s.rotations i).Open)
      (run : B.rollback i s.db db) :
      SessionStep B req s (.abort i)
        {s with db := db,rotations := Function.update s.rotations i .failed}
  /-- Read the user's row and verify the password against its hash. -/
  | loginRead {s : Sessions B} {phase : LoginPhase} (l : ℕ) (idle : s.logins l=.idle)
      (outcome : phase=
        if loginPasses req.verify s.user (req.login l).password then .verified else .failed) :
      SessionStep B req s (.loginRead l) {s with logins := Function.update s.logins l phase}
  /-- Store the token of a verified login. -/
  | loginStore {s : Sessions B} {db : B.State} (l : ℕ) (verified : s.logins l=.verified)
      (run : B.store (req.login l).jti ((req.login l).row s.user.id) s.db db) :
      SessionStep B req s (.loginStore l)
        {s with db := db,logins := Function.update s.logins l .stored}
  /-- Read the user's row and run the checks of the change. -/
  | changeRead {s : Sessions B} {phase : ChangePhase} (idle : s.change=.idle)
      (outcome : phase=if changePasses req.verify s.user req.change then .authorized else .failed) :
      SessionStep B req s .changeRead {s with change := phase}
  /-- `UPDATE users SET password_hash`. -/
  | changeUpdate {s : Sessions B} (authorized : s.change=.authorized) :
      SessionStep B req s .changeUpdate
        {s with user := {s.user with passwordHash := req.change.newHash},change := .updated}
  /-- Start `UPDATE … SET revoked WHERE user_id AND revoked = 0`. -/
  | revokeUserStart {s : Sessions B} {db : B.State} (updated : s.change=.updated)
      (run : B.revokeUserStart s.user.id s.db db) :
      SessionStep B req s .revokeUserStart {s with db := db,change := .revoking}
  /-- Process one row of that update. -/
  | revokeUserRow {s : Sessions B} {db : B.State} (jti : String) (revoking : s.change=.revoking)
      (run : B.revokeUserRow s.user.id jti s.db db) :
      SessionStep B req s (.revokeUserRow jti) {s with db := db}
  /-- End the update and return success. -/
  | revokeUserFinish {s : Sessions B} {db : B.State} (revoking : s.change=.revoking)
      (run : B.revokeUserFinish s.db db) :
      SessionStep B req s .revokeUserFinish {s with db := db,change := .returned}
  /-- Fail the update. -/
  | revokeUserAbort {s : Sessions B} {db : B.State} (revoking : s.change=.revoking)
      (run : B.revokeUserAbort s.db db) :
      SessionStep B req s .revokeUserAbort {s with db := db,change := .failed}
  /-- Fail before the revocation. -/
  | changeFail {s : Sessions B} (begun : s.change=.authorized ∨ s.change=.updated) :
      SessionStep B req s .changeFail {s with change := .failed}

/-- Requests of one user with one token: rotations that all present it, logins
with the old password and a change by an administrator. -/
def sampleRequests : Requests where
  user := ⟨"u1","h0",true⟩
  verify password hash := password="old" && hash="h0"
  rotation i := ⟨"t0",if i=0 then "t1" else "t2","u1",none,100,10⟩
  login _ := ⟨"old",none,"t3",100,10⟩
  change := ⟨.admin,"new password","h1"⟩
  tokens := fun k => if k="t0" then some (freshRow "u1" none 100 5) else none

end TokiSync.RefreshTokens
