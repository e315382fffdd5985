import TokiSync.DatabaseCalls
import TokiSync.LoginGuard
import TokiSync.OidcNonce
import TokiSync.OidcRedirect
import TokiSync.QueryBounds
import TokiSync.SlicedTexts
import TokiSync.SyncConnection
import TokiSync.TokiQuery
import TokiSync.UniqueConflicts

/-!
# Requests to the web server

Every route of the server is a program of calls: to the repository, to the
event store, to the guard, to the caches and to the libraries for passwords,
tokens and the provider of logins. A program ends with an answer, and it stops
early with an error for the client or because the handler panics.
-/

namespace TokiSync.WebRequests

open ByteKeys ByteCodec DatabaseCalls ServerEvents WireWindows
open AdminAccounts (AppError)
open CalendarBuckets (Tz Weekday)
open DatabaseRuns (Write)
open DeviceGrant (Claims)
open FjallStore (UserFilter)
open InterleavedSessions (Program Fallible ask orStop translate)
open LoginGuard (Subject)
open MonitorSettings (MonitorRow MonitorWriteOutcome MonitorDeleteOutcome QuotaKind monitorQuota)
open OidcAccounts (UserRow OidcUserInfo)
open VirtualQueries (ParsedQuery)
open ZoneBuckets (LocalClock)

/-- Headers and address of a request. -/
structure Peer where
  /-- The `Authorization` header, if it is text. -/
  authorization : Option String
  /-- The `X-Forwarded-For` header, if it is text. -/
  forwardedFor : Option String
  /-- Address of the other end of the connection. -/
  address : String

/-- Parameters of a query. -/
structure QueryParams where
  query : String
  start : Option String
  stop : Option String
  step : Option String
  scope : Option String
  tz : Option String
  startOfWeek : Option String
  noCost : Bool

/-- What is asked for, with the parameters of the path, the query and the body. -/
inductive Route where
  | adminRedirect
  | adminPage
  | loginPage
  | capabilities
  | health
  | authMethod (username : String)
  | authInfo
  | login (username password : String) (deviceId : Option String)
  | register (username password : String)
  | tokenRefresh (refreshToken : String) (deviceId : Option String)
  | deviceCodeRequest
  | deviceTokenPoll (deviceCode : String) (deviceKey deviceName : Option String)
  | deviceApprove (userCode : String)
  | oidcAuthorize (redirectUri : String)
  | oidcCallback (code state : String) (error : Option String)
  | tokiQuery (params : QueryParams)
  | meDevices
  | meRenameDevice (deviceId name : String)
  | meDeleteDevice (deviceId : String)
  | meChangePassword (currentPassword newPassword : String)
  | meTeams
  | meMonitorIndex
  | meMonitorList
  | meMonitorGet (key : String)
  | meMonitorPut (key value : String) (ifVersion : Option ℤ)
  | meMonitorDelete (key : String) (ifVersion : Option ℤ)
  | adminListUsers
  | adminCreateUser (username password : String) (role : Option String)
  | adminDeleteUser (userId : String)
  | adminChangeUserPassword (userId password : String)
  | adminChangeUserRole (userId role : String)
  | adminSetUserActive (userId : String) (active : Bool)
  | adminListDevices
  | adminDeleteDevice (deviceId : String)
  | adminListPending
  | adminApprovePending (id : String)
  | adminRejectPending (id : String)
  | adminServerInfo
  | adminListSettings
  | adminUpdateSetting (key value : String)
  | adminListTeams
  | adminCreateTeam (name : String)
  | adminDeleteTeam (teamId : String)
  | adminListTeamMembers (teamId : String)
  | adminAddTeamMember (teamId userId : String) (role : Option String)
  | adminRemoveTeamMember (teamId userId : String)

/-- A request. -/
structure Request where
  peer : Peer
  route : Route

/-- A document of the provider of logins. -/
structure OidcDiscovery where
  authorizationEndpoint : String
  tokenEndpoint : String
  userinfoEndpoint : String
  issuer : String
  jwksUri : String

/-- Tokens of the provider of logins. -/
structure OidcTokenResponse where
  accessToken : String
  /-- Empty if there is none. -/
  idToken : String

/-- What a query of events is to be rendered from. -/
structure EventsAnswer where
  /-- The query. -/
  parsed : ParsedQuery
  /-- Width of the buckets; none for a raw listing. -/
  stepSecs : Option ℤ
  sinceMs : ℤ
  untilMs : ℤ
  tz : Option Tz
  startOfWeek : Option Weekday
  includeCost : Bool
  events : List ServerEvent
  /-- There are more events than one request may read. -/
  truncated : Bool

/-- A window as it is shown. -/
structure WindowRow where
  window : WireWindow
  /-- It is final, or its reset is past. -/
  finalized : Bool

/-- Body of an answer. -/
inductive Body where
  | empty
  | page (name : String)
  | error (message : String)
  | slowDown (interval : ℕ)
  | status (status : String)
  | message (message : String)
  | capabilities (syncWindowsV1 monitorSettingsV1 : Bool)
  | authMethod (method : String) (authUrl : Option String)
  | authInfo (registrationMode : String) (oidcEnabled : Bool)
  | tokens (accessToken refreshToken : Option Claims) (expiresIn : ℕ)
  | registered (id username : String)
  | deviceCode (deviceCode userCode verificationUrl : String) (expiresIn interval : ℕ)
  | redirect (location : String)
  | windows (schema : ℕ) (windows : List (String×List WindowRow))
  | events (answer : EventsAnswer)
  | devices (devices : List DeviceSummary)
  | teamMemberships (teams : List TeamMembership)
  | monitorIndex (entries : List (String×ℤ×ℤ×ℤ)) (maxEntries maxValueBytes maxTotalBytes : ℤ)
    (used : ℤ×ℤ)
  | monitorList (entries : List (String×String×ℤ×ℤ))
  | monitorEntry (key value : String) (version updatedAt : ℤ)
  | monitorWritten (key : String) (version updatedAt : ℤ) (previousVersion : Option ℤ)
  | monitorConflict (key : String) (currentVersion currentUpdatedAt : Option ℤ)
  | quotaExceeded (what : QuotaKind) (used limit : ℤ)
  | tooManyWrites (retryAfter : ℕ)
  | users (users : List UserSummary)
  | user (id username role : String)
  | allDevices (devices : List DeviceAdminSummary)
  | pending (pending : List PendingRegistration)
  | serverInfo (registrationMode : String) (oidcEnabled : Bool)
    (oidcIssuer oidcClientId oidcRedirectUri : Option String) (storageBackend version : String)
  | settings (registrationMode oidcIssuer oidcClientId oidcClientSecret oidcRedirectUri
    maxQueryScope : String)
  | teams (teams : List TeamWithCount)
  | team (id name : String)
  | members (members : List TeamMemberSummary)
  | member (teamId userId role : String)

/-- An answer. -/
structure Response where
  status : ℕ
  body : Body

/-- The answer of an error. -/
def errorResponse (e : AppError) : Response := ⟨e.status,.error e.message⟩

/-- Calls of the handlers. -/
inductive Call where
  /-- A call that connections make too: what the check of a token and of the
  status of a user needs. -/
  | lookup (op : SyncConnection.Call)
  | read (q : Query)
  | write (w : Write)
  | evict (userId : String)
  | deleteDeviceEvents (deviceId : String)
  | deleteUserWindows (userId : String)
  | queryEvents (sinceMs untilMs : ℤ) (filter : UserFilter) (limit : ℕ)
  | queryUserWindows (userId : String) (sinceMs : ℤ)
  | check (subject : Subject)
  | recordFailure (subject : Subject)
  | recordSuccess (subject : Subject)
  | allowWrite (userId : String)
  | poll (deviceCode : String)
  | forgetPoll (deviceCode : String)
  | hashPassword (password : String)
  | verifyPassword (password hash : String)
  | newUuid
  | uuidBytes
  | timestamp
  | issueAccessToken (userId : String)
  | issueRefreshToken (userId : String) (deviceId : Option String)
  | verifyRefresh (token : String)
  | cachedDiscovery
  | discover (issuer : String)
  | cacheDiscovery (discovery : OidcDiscovery)
  | clearDiscovery
  | insertState (state redirectUri nonce : String)
  | validateState (state : String)
  | exchangeCode (discovery : OidcDiscovery) (clientId clientSecret redirectUri code : String)
  | extractUserInfo (tokens : OidcTokenResponse) (discovery : OidcDiscovery)
    (issuer clientId : String) (nonce : Option String)
  | respond (response : Response)

/-- Replies of a call. -/
@[reducible] def Answer : Call → Type
  | .lookup op => SyncConnection.Answer op
  | .read q => Except String q.Result
  | .write w => Except String (Write.Result w)
  | .evict _ => Unit
  | .queryEvents _ _ _ _ => Except String (List ServerEvent)
  | .queryUserWindows _ _ => Except String (List (String×WireWindow))
  | .check _ => Except ℕ Unit
  | .recordFailure _ => Unit
  | .recordSuccess _ => Unit
  | .allowWrite _ => Except ℕ Unit
  | .poll _ => Bool
  | .forgetPoll _ => Unit
  | .hashPassword _ => Except String String
  | .verifyPassword _ _ => Except String Bool
  | .newUuid => String
  | .uuidBytes => List UInt8
  | .timestamp => Int64
  | .issueAccessToken _ => Except String Claims
  | .issueRefreshToken _ _ => Except String Claims
  | .verifyRefresh _ => Except String Claims
  | .cachedDiscovery => Option OidcDiscovery
  | .discover _ => Except String OidcDiscovery
  | .cacheDiscovery _ => Unit
  | .clearDiscovery => Unit
  | .insertState _ _ _ => Unit
  | .validateState _ => Option (String×String)
  | .exchangeCode _ _ _ _ _ => Except String OidcTokenResponse
  | .extractUserInfo _ _ _ _ _ => Except String OidcUserInfo
  | .respond _ => Unit
  | _ => Except String Unit

/-- Why a handler stops before its end. -/
inductive Halt where
  /-- It answers with an error. -/
  | error (e : AppError)
  /-- It panics. -/
  | panic

/-- A part of a handler. -/
abbrev Handling := Fallible Answer Halt

/-- Server settings with a default in the configuration. -/
inductive Setting where
  | registrationMode | oidcIssuer | oidcClientId | oidcClientSecret | oidcRedirectUri
  | maxQueryScope
  deriving DecidableEq

/-- Key of a setting. -/
def Setting.key : Setting → String
  | .registrationMode => "registration_mode"
  | .oidcIssuer => "oidc_issuer"
  | .oidcClientId => "oidc_client_id"
  | .oidcClientSecret => "oidc_client_secret"
  | .oidcRedirectUri => "oidc_redirect_uri"
  | .maxQueryScope => "max_query_scope"

/-- The configuration, and what the handlers use of other packages. -/
structure Environment where
  /-- The last address of `X-Forwarded-For` is the client. -/
  trustProxy : Bool
  /-- Base of the URLs shown to clients. -/
  externalUrl : String
  /-- Name of the database. -/
  storageBackend : String
  /-- Version of the server. -/
  version : String
  /-- Defaults of the settings. -/
  config : Setting → String
  /-- Header values, percent encoding and lifetime of access tokens. -/
  urls : OidcRedirect.Environment
  /-- Signed text of a token. -/
  tokenText : Claims → String
  /-- `char::is_alphanumeric`. -/
  isAlphanumeric : Char → Bool
  /-- `str::to_uppercase`. -/
  toUppercase : String → String
  /-- `str::to_lowercase`. -/
  toLowercase : String → String
  /-- Whether a text is a UUID. -/
  isUuid : String → Bool
  /-- Time zone of a name, for parsing and for buckets. -/
  parseTz : String → Option (LocalClock×Tz)
  /-- Read a date. -/
  parseDate : String → Option ℤ
  /-- Read a date and a time. -/
  parseDateTime : String → Option ℤ
  /-- The hash that is verified when there is no user. -/
  dummyPasswordHash : String

/-- The error of a database whose constraint is violated. -/
def Violation (e : String) : Prop :=
  UniqueConflicts.mentions e "UNIQUE" ∨ UniqueConflicts.mentions e "PRIMARY"

/-- A call whose reply is the result. -/
def call (op : Call) : Handling (Answer op) := ask op

/-- Stop with an error. -/
def refuse {β : Type} (e : AppError) : Handling β := throw (.error e)

/-- Go on unless a call failed. -/
def orInternal {β : Type} : Except String β → Handling β
  | .ok b => pure b
  | .error _ => refuse .internal

/-- Go on unless there is nothing. -/
def orRefuse {β : Type} (e : AppError) : Option β → Handling β
  | some b => pure b
  | none => refuse e

/-- Go on unless a check fails. -/
def require {β : Type} (checked : Except AppError β) : Handling β := orStop (checked.mapError .error)

/-- A call of the repository that reads. -/
def read (q : Query) : Handling q.Result := do orInternal (← call (.read q))

/-- A call of the repository that writes. -/
def write (w : Write) : Handling (Write.Result w) := do orInternal (← call (.write w))

section

variable (E : Environment)

/-- Value of a setting: as stored, or as configured. -/
def setting (s : Setting) : Handling String := do
  match ← call (.read (.getServerSetting s.key)) with
  | .ok (some value) => pure value
  | _ => pure (E.config s)

/-- Address of the client. -/
def extractClientIp (peer : Peer) : String :=
  if E.trustProxy then
    match peer.forwardedFor with
    | some addresses =>
      String.ofList (VirtualQueries.trim
        (addresses.toList.reverse.takeWhile (· ≠ ',')).reverse)
    | none => peer.address
  else peer.address

end

/-- Go on unless the guard has locked the subject out. -/
def guardCheck (subject : Subject) : Handling Unit := do
  match ← call (.check subject) with
  | .ok () => pure ()
  | .error retryAfter => refuse (UniqueConflicts.lockedOut retryAfter)

/-- The claims of the token of a request. -/
def extractJwt (peer : Peer) : Handling Claims := do
  let auth ← orRefuse (.unauthorized "missing Authorization header") peer.authorization
  if "Bearer ".toList.isPrefixOf auth.toList then
    match ← call (.lookup (.verifyAccess (String.ofList (auth.toList.drop 7)))) with
    | .ok claims => pure claims
    | .error _ => refuse (.unauthorized "invalid or expired token")
  else refuse (.unauthorized "expected Bearer token")

/-- Whether a user is active, as a connection finds out. -/
def isUserActiveCached (userId : String) : Program Answer (Except String Bool) :=
  translate .lookup (fun _ reply => reply) (SyncConnection.isUserActiveCached userId)

/-- Go on if a user is active. -/
def ensureUserActive (userId : String) : Handling Unit := do
  let active ← orInternal (← ExceptT.lift (isUserActiveCached userId))
  if active then pure () else refuse (.unauthorized "account deactivated")

/-- The claims of an active user. -/
def authenticate (peer : Peer) : Handling Claims := do
  let claims ← extractJwt peer
  ensureUserActive claims.sub
  pure claims

/-- The id of an active administrator. -/
def requireAdmin (peer : Peer) : Handling String := do
  let claims ← authenticate peer
  if ← read (.userIsAdmin claims.sub) then pure claims.sub
  else refuse (.forbidden "admin role required")

end TokiSync.WebRequests
