import TokiSync.RefreshTokens
import Mathlib.Data.List.Perm.Basic
import Mathlib.Data.List.Infix
import Mathlib.Data.List.Pairwise

/-!
# Accounts of OIDC logins

A login looks its subject up among the users and creates an account when there
is none. The account is inserted with a conflict clause, and such a clause
needs a unique index that its columns and its predicate match. The unique index
the migrations of both backends build is partial, the clause has no predicate,
so the insert is refused and no first login gets an account.
-/

namespace TokiSync.OidcAccounts

open RefreshTokens (TokenTable storeRefreshToken freshRow)

/-- One row of the table of users. -/
structure UserRow where
  /-- Id of the user. -/
  id : String
  /-- Login name. -/
  username : String
  /-- Hash of the password, empty for OIDC accounts. -/
  passwordHash : String
  /-- Role of the account. -/
  role : String
  /-- Time the row was written first. -/
  createdAt : Int64
  /-- Time the row was written last. -/
  updatedAt : Int64
  /-- Subject at the issuer. -/
  oidcSub : Option String
  /-- The issuer. -/
  oidcIssuer : Option String
  /-- Whether the account may be used. -/
  active : Bool
  deriving DecidableEq

/-- Issuer and subject of a row that has both. -/
def UserRow.subject (row : UserRow) : Option (String×String) :=
  row.oidcIssuer.bind fun issuer => row.oidcSub.map fun sub => (issuer,sub)

/-- The table of users. Ids and names are unique, and so are subjects; a row
without one conflicts with nothing. -/
structure UsersTable where
  /-- The rows. -/
  rows : List UserRow
  /-- `id TEXT PRIMARY KEY`. -/
  ids : (rows.map UserRow.id).Nodup
  /-- `username TEXT NOT NULL UNIQUE`. -/
  usernames : (rows.map UserRow.username).Nodup
  /-- `UNIQUE INDEX … (oidc_issuer, oidc_sub)`. -/
  subjects : (rows.filterMap UserRow.subject).Nodup

/-- The user with an issuer and a subject. -/
def findUserByOidc (users : UsersTable) (issuer sub : String) : Option UserRow :=
  users.rows.find? fun row => row.subject=some (issuer,sub)

/-- Columns that unique indexes are about. -/
inductive UserColumn where
  | id | username | oidcIssuer | oidcSub
  deriving DecidableEq

/-- A unique index; a partial one covers the rows where a column is not null. -/
structure UniqueIndex where
  /-- Indexed columns. -/
  columns : List UserColumn
  /-- Column of the predicate. -/
  predicate : Option UserColumn

/-- Target of a conflict clause. -/
structure ConflictTarget where
  /-- Named columns. -/
  columns : List UserColumn
  /-- Column of the predicate. -/
  predicate : Option UserColumn

/-- Whether a conflict clause can use an index. A partial index needs a target
that repeats its predicate. -/
def UniqueIndex.arbitrates (index : UniqueIndex) (target : ConflictTarget) : Bool :=
  index.columns.isPerm target.columns &&
    (index.predicate=none || index.predicate=target.predicate)

/-- Unique indexes of the users and texts of refused statements. -/
structure Schema where
  /-- Unique indexes. -/
  indexes : List UniqueIndex
  /-- No index matches a conflict target. -/
  unmatched : String
  /-- A row violates a unique index. -/
  duplicate : String

/-- The index the migrations build. -/
def idxUsersOidc : UniqueIndex := ⟨[.oidcIssuer,.oidcSub],some .oidcSub⟩

/-- The relational backends. -/
inductive Backend where
  | sqlite | postgres

/-- Schema after the migrations. -/
def Backend.schema : Backend → Schema
  | .sqlite =>
    ⟨[⟨[.id],none⟩,⟨[.username],none⟩,idxUsersOidc],
      "ON CONFLICT clause does not match any PRIMARY KEY or UNIQUE constraint",
      "UNIQUE constraint failed"⟩
  | .postgres =>
    ⟨[⟨[.id],none⟩,⟨[.username],none⟩,idxUsersOidc],
      "there is no unique or exclusion constraint matching the ON CONFLICT specification",
      "duplicate key value violates unique constraint"⟩

/-- A failed call of the database, with the context added to it. -/
structure DbError where
  /-- What was attempted. -/
  context : String
  /-- Text of the database. -/
  cause : String

/-- Text of a failed call; the context hides the cause. -/
def DbError.text (e : DbError) : String := e.context

/-- Account to be created. -/
structure NewOidcUser where
  /-- Id of the account. -/
  id : String
  /-- Login name. -/
  username : String
  /-- Role of the account. -/
  role : String
  /-- Subject at the issuer. -/
  oidcSub : String
  /-- The issuer. -/
  oidcIssuer : String

/-- Row of a new account. -/
def NewOidcUser.row (user : NewOidcUser) (now : Int64) : UserRow :=
  ⟨user.id,user.username,"",user.role,now,now,some user.oidcSub,some user.oidcIssuer,true⟩

/-- A row violates a unique index. -/
def Taken (users : UsersTable) (row : UserRow) : Prop :=
  ∃ other∈users.rows, other.id=row.id ∨ other.username=row.username ∨
    (row.subject≠none ∧ other.subject=row.subject)

instance (users : UsersTable) (row : UserRow) : Decidable (Taken users row) :=
  inferInstanceAs (Decidable (∃ other∈users.rows, other.id=row.id ∨ other.username=row.username ∨
    (row.subject≠none ∧ other.subject=row.subject)))

/-- The table with a row that violates no unique index. -/
def UsersTable.insert (users : UsersTable) (row : UserRow) (hfree : ¬Taken users row) :
    UsersTable where
  rows := users.rows++[row]
  ids := by
    rw [List.map_append,List.nodup_append]
    refine ⟨users.ids,by simp,?_⟩
    intro id hid new hrow heq
    obtain ⟨other,hother,hid⟩ := List.mem_map.mp hid
    have hrow : new=row.id := by simpa using hrow
    exact hfree ⟨other,hother,.inl (hid.trans (heq.trans hrow))⟩
  usernames := by
    rw [List.map_append,List.nodup_append]
    refine ⟨users.usernames,by simp,?_⟩
    intro name hname new hrow heq
    obtain ⟨other,hother,hname⟩ := List.mem_map.mp hname
    have hrow : new=row.username := by simpa using hrow
    exact hfree ⟨other,hother,.inr (.inl (hname.trans (heq.trans hrow)))⟩
  subjects := by
    rw [List.filterMap_append,List.nodup_append]
    refine ⟨users.subjects,?_,?_⟩
    · cases hsubject : row.subject <;> simp [hsubject]
    · intro subject hmem new hrow heq
      obtain ⟨other,hother,hsubject⟩ := List.mem_filterMap.mp hmem
      have hrow : row.subject=some subject := by
        obtain ⟨found,hfound,hnew⟩ := List.mem_filterMap.mp hrow
        rw [List.mem_singleton.mp hfound] at hnew
        rw [hnew,heq]
      refine hfree ⟨other,hother,.inr (.inr ⟨?_,hsubject.trans hrow.symm⟩)⟩
      rw [hrow]
      exact Option.some_ne_none subject

/-- A row written again. -/
def UserRow.touch (issuer sub : String) (now : Int64) (row : UserRow) : UserRow :=
  if row.subject=some (issuer,sub) then {row with updatedAt := now} else row

theorem touch_id (issuer sub : String) (now : Int64) (row : UserRow) :
    (row.touch issuer sub now).id=row.id := by
  unfold UserRow.touch
  split_ifs <;> rfl

theorem touch_username (issuer sub : String) (now : Int64) (row : UserRow) :
    (row.touch issuer sub now).username=row.username := by
  unfold UserRow.touch
  split_ifs <;> rfl

theorem touch_subject (issuer sub : String) (now : Int64) (row : UserRow) :
    (row.touch issuer sub now).subject=row.subject := by
  unfold UserRow.touch
  split_ifs <;> rfl

/-- `DO UPDATE SET updated_at`, on the row of a subject. -/
def UsersTable.touch (users : UsersTable) (issuer sub : String) (now : Int64) : UsersTable where
  rows := users.rows.map (UserRow.touch issuer sub now)
  ids := by
    rw [List.map_map]
    have hid : UserRow.id∘UserRow.touch issuer sub now=UserRow.id :=
      funext (touch_id issuer sub now)
    rw [hid]
    exact users.ids
  usernames := by
    rw [List.map_map]
    have hname : UserRow.username∘UserRow.touch issuer sub now=UserRow.username :=
      funext (touch_username issuer sub now)
    rw [hname]
    exact users.usernames
  subjects := by
    rw [List.filterMap_map]
    have hsubject : UserRow.subject∘UserRow.touch issuer sub now=UserRow.subject :=
      funext (touch_subject issuer sub now)
    rw [hsubject]
    exact users.subjects

/-- Insert an account, or touch the row of its subject when there is one. -/
def upsertOidcUser (users : UsersTable) (user : NewOidcUser) (now : Int64) : Option UsersTable :=
  match findUserByOidc users user.oidcIssuer user.oidcSub with
  | some _ => some (users.touch user.oidcIssuer user.oidcSub now)
  | none =>
    if hfree : ¬Taken users (user.row now) then some (users.insert (user.row now) hfree) else none

/-- `INSERT … ON CONFLICT (oidc_issuer, oidc_sub) DO UPDATE`. -/
def createOidcUser (schema : Schema) (users : UsersTable) (user : NewOidcUser) (now : Int64) :
    Except DbError UsersTable :=
  if schema.indexes.any (·.arbitrates ⟨[.oidcIssuer,.oidcSub],none⟩) then
    match upsertOidcUser users user now with
    | some users => .ok users
    | none => .error ⟨"create_oidc_user",schema.duplicate⟩
  else .error ⟨"create_oidc_user",schema.unmatched⟩

/-- What the provider tells about a user. -/
structure OidcUserInfo where
  /-- Subject. -/
  sub : String
  /-- Mail address. -/
  email : Option String
  /-- Display name. -/
  name : Option String

/-- Characters that fill a number of bytes exactly. -/
def bytePrefix : ℕ → List Char → Option (List Char)
  | 0,_ => some []
  | _+1,[] => none
  | n+1,c::cs =>
    if c.utf8Size≤n+1 then (bytePrefix (n+1-c.utf8Size) cs).map (c::·) else none

/-- Login name of a new account. Cutting the subject inside of a character
panics. -/
def deriveUsername (info : OidcUserInfo) : Option String :=
  match info.email.or info.name with
  | some name => some name
  | none =>
    (bytePrefix (min 8 info.sub.utf8ByteSize) info.sub.toList).map fun cs =>
      "oidc_"++String.ofList cs

/-- What one callback works with. -/
structure LoginInput where
  /-- The configured issuer. -/
  issuer : String
  /-- What the provider tells. -/
  info : OidcUserInfo
  /-- Id generated for a new account. -/
  id : String
  /-- Id of the refresh token. -/
  jti : String
  /-- Expiry of the refresh token. -/
  expiresAt : Int64
  /-- The current time. -/
  now : Int64

/-- Progress of a callback. -/
inductive LoginPhase where
  /-- Not started. -/
  | idle
  /-- The subject has no account. -/
  | missing
  /-- The insert reported a conflict. -/
  | conflicted
  /-- The user id is settled. -/
  | identified (id : String)
  /-- Tokens are issued. -/
  | issued (id : String)
  /-- The account is deactivated. -/
  | refused
  /-- The callback failed. -/
  | failed
  deriving DecidableEq

/-- An account that was found is used if it is active. -/
def useAccount (row : UserRow) : LoginPhase :=
  if row.active then .identified row.id else .refused

/-- Look the subject up. -/
def findUser (users : UsersTable) (input : LoginInput) : LoginPhase :=
  match findUserByOidc users input.issuer input.info.sub with
  | some row => useAccount row
  | none => .missing

/-- Create an account. -/
def createUser (schema : Schema) (users : UsersTable) (input : LoginInput) :
    LoginPhase×UsersTable :=
  match deriveUsername input.info with
  | none => (.failed,users)
  | some username =>
    match createOidcUser schema users ⟨input.id,username,"user",input.info.sub,input.issuer⟩
      input.now with
    | .ok users => (.identified input.id,users)
    | .error e =>
      if "UNIQUE".toList <:+: e.text.toList then (.conflicted,users) else (.failed,users)

/-- Look the subject up again after a conflict. -/
def retryUser (users : UsersTable) (input : LoginInput) : LoginPhase :=
  match findUserByOidc users input.issuer input.info.sub with
  | some row => useAccount row
  | none => .failed

/-- Store a refresh token; its user has to exist. -/
def issueTokens (users : UsersTable) (tokens : TokenTable) (input : LoginInput) (id : String) :
    LoginPhase×TokenTable :=
  if (∃ row∈users.rows, row.id=id) ∧ tokens input.jti=none then
    (.issued id,storeRefreshToken tokens input.jti (freshRow id none input.expiresAt input.now))
  else (.failed,tokens)

/-- Issue tokens once the user id is settled. -/
def finishLogin (users : UsersTable) (tokens : TokenTable) (input : LoginInput) :
    LoginPhase → LoginPhase×UsersTable×TokenTable
  | .identified id =>
    let (phase,tokens) := issueTokens users tokens input id
    (phase,users,tokens)
  | phase => (phase,users,tokens)

/-- A callback that runs alone. -/
def oidcCallback (schema : Schema) (users : UsersTable) (tokens : TokenTable)
    (input : LoginInput) : LoginPhase×UsersTable×TokenTable :=
  match findUser users input with
  | .missing =>
    match createUser schema users input with
    | (.conflicted,users) => finishLogin users tokens input (retryUser users input)
    | (phase,users) => finishLogin users tokens input phase
  | phase => finishLogin users tokens input phase

section

variable {users : UsersTable} {issuer sub : String} {row : UserRow} {input : LoginInput}
variable {tokens : TokenTable}

/-- Two rows of a table do not have the same subject. -/
theorem subject_inj {other : UserRow} (hrow : row∈users.rows) (hother : other∈users.rows)
    (heq : row.subject=other.subject) (hsome : row.subject≠none) : row=other := by
  have hpair := List.pairwise_filterMap.mp users.subjects
  by_contra hne
  obtain ⟨subject,hsubject⟩ := Option.ne_none_iff_exists'.mp hsome
  have hsymm : Std.Symm fun a a' : UserRow => ∀ b, a.subject=some b →
      ∀ b', a'.subject=some b' → b≠b' :=
    ⟨fun a a' h x hx y hy => (h y hy x hx).symm⟩
  have hapart := hpair.forall hrow hother hne
  exact hapart subject hsubject subject (heq.symm.trans hsubject) rfl

/-- A found row is in the table, with the subject looked for. -/
theorem findUserByOidc_eq_some_iff :
    findUserByOidc users issuer sub=some row ↔ row∈users.rows ∧ row.subject=some (issuer,sub) := by
  unfold findUserByOidc
  constructor
  · intro h
    exact ⟨List.mem_of_find?_eq_some h,by simpa using List.find?_some h⟩
  · intro h
    obtain ⟨hrow,hsubject⟩ := h
    cases hfind : users.rows.find? fun row => row.subject=some (issuer,sub) with
    | none =>
      have hnot := List.find?_eq_none.mp hfind row hrow
      simp [hsubject] at hnot
    | some other =>
      have hother : other.subject=some (issuer,sub) := by simpa using List.find?_some hfind
      have hmem := List.mem_of_find?_eq_some hfind
      rw [subject_inj hrow hmem (hsubject.trans hother.symm) (by rw [hsubject]; simp)]

theorem findUserByOidc_eq_none_iff :
    findUserByOidc users issuer sub=none ↔ ∀ row∈users.rows, row.subject≠some (issuer,sub) := by
  unfold findUserByOidc
  rw [List.find?_eq_none]
  simp

/-- No index arbitrates the conflict clause. -/
theorem createOidcUser_fails (b : Backend) (users : UsersTable) (user : NewOidcUser) (now : Int64) :
    createOidcUser b.schema users user now=.error ⟨"create_oidc_user",b.schema.unmatched⟩ := by
  cases b <;> rfl

/-- No account is ever created. -/
theorem createUser_fails (b : Backend) (users : UsersTable) (input : LoginInput) :
    createUser b.schema users input=(.failed,users) := by
  unfold createUser
  cases deriveUsername input.info with
  | none => rfl
  | some username =>
    dsimp only
    rw [createOidcUser_fails]
    have htext : ¬"UNIQUE".toList <:+: "create_oidc_user".toList := by decide
    exact if_neg htext

/-- Tokens are issued to a user in the table. -/
theorem issueTokens_of_mem (hrow : row∈users.rows) (hjti : tokens input.jti=none) :
    (issueTokens users tokens input row.id).1=.issued row.id := by
  unfold issueTokens
  rw [if_pos ⟨⟨row,hrow,rfl⟩,hjti⟩]

/-- What the users should see of their logins. -/
structure Provisions (schema : Schema) (users : UsersTable) (tokens : TokenTable)
    (input : LoginInput) : Prop where
  /-- A first login adds the account of its subject and gets tokens for it. -/
  created : (∀ row∈users.rows, row.subject≠some (input.issuer,input.info.sub)) →
    (∀ row∈users.rows, deriveUsername input.info≠some row.username) →
    ∃ row, row.subject=some (input.issuer,input.info.sub) ∧
      (oidcCallback schema users tokens input).1=.issued row.id ∧
      (oidcCallback schema users tokens input).2.1.rows=users.rows++[row]
  /-- A login of an active account gets its tokens and leaves the table. -/
  existing : ∀ row∈users.rows, row.subject=some (input.issuer,input.info.sub) → row.active →
    (oidcCallback schema users tokens input).1=.issued row.id ∧
      (oidcCallback schema users tokens input).2.1=users
  /-- A login of a deactivated account gets no tokens. -/
  inactive : ∀ row∈users.rows, row.subject=some (input.issuer,input.info.sub) → ¬row.active →
    ∀ id, (oidcCallback schema users tokens input).1≠.issued id

/-- A login of a known subject uses its row. -/
theorem oidcCallback_of_mem {schema : Schema} (hrow : row∈users.rows)
    (hsubject : row.subject=some (input.issuer,input.info.sub)) :
    oidcCallback schema users tokens input=finishLogin users tokens input (useAccount row) := by
  have hfind : findUser users input=useAccount row := by
    unfold findUser
    rw [findUserByOidc_eq_some_iff.mpr ⟨hrow,hsubject⟩]
  unfold oidcCallback
  rw [hfind]
  unfold useAccount
  split_ifs <;> rfl

/-- A login of an unknown subject fails. -/
theorem oidcCallback_of_not_mem (b : Backend)
    (hnone : ∀ row∈users.rows, row.subject≠some (input.issuer,input.info.sub)) :
    oidcCallback b.schema users tokens input=(.failed,users,tokens) := by
  have hfind : findUser users input=.missing := by
    unfold findUser
    rw [findUserByOidc_eq_none_iff.mpr hnone]
  unfold oidcCallback
  rw [hfind,createUser_fails]
  rfl

/-- On both backends, logins are as they should be exactly when the subject has
an account or its name is taken: a first login never gets an account. -/
theorem provisions_iff (b : Backend) (users : UsersTable) (tokens : TokenTable)
    (input : LoginInput) (hjti : tokens input.jti=none) :
    Provisions b.schema users tokens input ↔
      (∃ row∈users.rows, row.subject=some (input.issuer,input.info.sub)) ∨
      ∃ row∈users.rows, deriveUsername input.info=some row.username := by
  constructor
  · intro h
    by_contra hnot
    rw [not_or] at hnot
    have hsubject : ∀ row∈users.rows, row.subject≠some (input.issuer,input.info.sub) :=
      fun row hrow heq => hnot.1 ⟨row,hrow,heq⟩
    obtain ⟨row,_,hissued,_⟩ := h.created hsubject (fun row hrow heq => hnot.2 ⟨row,hrow,heq⟩)
    rw [oidcCallback_of_not_mem b hsubject] at hissued
    cases hissued
  · intro h
    refine ⟨?_,?_,?_⟩
    · intro hsubject hname
      rcases h with ⟨row,hrow,heq⟩ | ⟨row,hrow,heq⟩
      · exact absurd heq (hsubject row hrow)
      · exact absurd heq (hname row hrow)
    · intro row hrow hsubject hactive
      rw [oidcCallback_of_mem hrow hsubject]
      unfold useAccount
      rw [if_pos hactive]
      exact ⟨issueTokens_of_mem hrow hjti,rfl⟩
    · intro row hrow hsubject hactive id hissued
      rw [oidcCallback_of_mem hrow hsubject] at hissued
      unfold useAccount at hissued
      rw [if_neg hactive] at hissued
      cases hissued

end

/-- An empty table of users. -/
def noUsers : UsersTable := ⟨[],List.nodup_nil,List.nodup_nil,List.nodup_nil⟩

/-- A first login. -/
def firstLogin : LoginInput :=
  ⟨"https://idp",⟨"subject-1",some "a@b.c",none⟩,"id-1","jti-1",100,10⟩

/-- A first login on an empty table fails. -/
theorem first_login_fails :
    ¬Provisions Backend.sqlite.schema noUsers (fun _ => none) firstLogin := by
  intro h
  obtain ⟨row,_,hissued,_⟩ := h.created (fun row hrow => absurd hrow List.not_mem_nil)
    (fun row hrow => absurd hrow List.not_mem_nil)
  rw [oidcCallback_of_not_mem .sqlite (fun row hrow => absurd hrow List.not_mem_nil)] at hissued
  cases hissued

/-- An active account, a deactivated one and one with a password only. -/
def someUsers : UsersTable :=
  ⟨[⟨"id-1","a@b.c","","user",5,5,some "subject-1",some "https://idp",true⟩,
    ⟨"id-2","d@e.f","","user",6,6,some "subject-2",some "https://idp",false⟩,
    ⟨"id-3","ana","hash","admin",4,4,none,none,true⟩],by decide,by decide,by decide⟩

/-- A login of a subject with a mail address. -/
def loginOf (sub email : String) : LoginInput :=
  ⟨"https://idp",⟨sub,some email,none⟩,"id-4","jti-1",100,10⟩

/-- Both known subjects and a new one whose name is taken log in as they should,
with tokens for the active account only; a new subject with a free name does
not. -/
theorem provisions_iff_sample :
    (Provisions Backend.postgres.schema someUsers (fun _ => none)
        (loginOf "subject-1" "new@b.c") ∧
      (oidcCallback Backend.postgres.schema someUsers (fun _ => none)
        (loginOf "subject-1" "new@b.c")).1=.issued "id-1") ∧
    (Provisions Backend.postgres.schema someUsers (fun _ => none) (loginOf "subject-2" "d@e.f") ∧
      (oidcCallback Backend.postgres.schema someUsers (fun _ => none)
        (loginOf "subject-2" "d@e.f")).1=.refused) ∧
    Provisions Backend.sqlite.schema someUsers (fun _ => none) (loginOf "subject-3" "ana") ∧
    ¬Provisions Backend.sqlite.schema someUsers (fun _ => none) (loginOf "subject-3" "g@h.i") := by
  refine ⟨⟨?_,rfl⟩,⟨?_,rfl⟩,?_,?_⟩
  · exact (provisions_iff .postgres someUsers _ (loginOf "subject-1" "new@b.c") rfl).mpr
      (.inl (by decide))
  · exact (provisions_iff .postgres someUsers _ (loginOf "subject-2" "d@e.f") rfl).mpr
      (.inl (by decide))
  · exact (provisions_iff .sqlite someUsers _ (loginOf "subject-3" "ana") rfl).mpr
      (.inr (by decide))
  · intro h
    exact absurd ((provisions_iff .sqlite someUsers _ (loginOf "subject-3" "g@h.i") rfl).mp h)
      (by decide)

end TokiSync.OidcAccounts
