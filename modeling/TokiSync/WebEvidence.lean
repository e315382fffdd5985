import TokiSync.WebRoutes

/-!
# Evidence of web requests

The events of a request up to a call are the evidence for the call. A user is
authenticated by a verified access token and a status that was found active, an
administrator also by the role. Tokens are issued to whoever has proved to be a
user. What is written, read and shown is what the request asked for, for the
user it is authenticated as, within the scope that the server allows; and a
request that is refused has not changed anything, apart from a few that say so
too late.
-/

namespace TokiSync.WebEvidence

open DatabaseCalls InterleavedSessions WebRequests WebHandlers AdminHandlers WebRoutes
open AdminAccounts (AppError validateUsername validatePassword validateRole)
open DatabaseRuns (Write)
open DeviceGrant (Claims)
open FjallStore (UserFilter)
open MonitorSettings (MonitorRow monitorQuota)
open OidcAccounts (UserRow OidcUserInfo)
open SyncConnection (truncateDeviceName)
open UniqueConflicts (mentions teamName teamRoles)

/-- What happens to a request. -/
abbrev Happening := Event Answer Request

/-- An event that leaves the database and the event store alone. -/
def Harmless : Happening → Prop
  | .call (.write w) (.ok r) => Write.Idle w r
  | .call (.write _) (.error e) => Violation e
  | .call (.deleteDeviceEvents _) _ => False
  | .call (.deleteUserWindows _) _ => False
  | _ => True

/-- Nothing has been changed. -/
def Untouched (past : List Happening) : Prop := ∀ e∈past, Harmless e

/-- The request is for a route. -/
def Asked (past : List Happening) (route : Route) : Prop :=
  ∃ peer, .arrive ⟨peer,route⟩∈past

/-- The calls found a user active. -/
def FoundActive (past : List Happening) (userId : String) : Prop :=
  .call (.lookup (.getFresh userId)) (some true)∈past ∨
    ∃ row : UserRow, row.active=true ∧
      .call (.lookup (.getUserById userId)) (.ok (some row))∈past

/-- The status of a user has just been read, and the generation before it. -/
def ReadSince (past : List Happening) (userId : String) (active : Bool) (genAtRead : UInt64) :
    Prop :=
  ∃ (row : Option UserRow) (rest : List Happening),
    past=.call (.lookup (.getUserById userId)) (.ok row)::
      .call (.lookup .generation) genAtRead::rest ∧
    active=(row.map UserRow.active).getD false

/-- The request bears a valid access token of a user who was found active. -/
structure Authenticated (past : List Happening) (userId : String) : Prop where
  /-- The token was verified. -/
  verified : ∃ request token, ∃ claims : Claims, .arrive request∈past ∧
    request.peer.authorization=some ("Bearer "++token) ∧
    .call (.lookup (.verifyAccess token)) (.ok claims)∈past ∧ claims.sub=userId
  /-- The user was found active. -/
  active : FoundActive past userId

/-- The request bears the token of an administrator. -/
def Admin (past : List Happening) (userId : String) : Prop :=
  Authenticated past userId ∧ .call (.read (.userIsAdmin userId)) (.ok true)∈past

/-- The request bears the token of some administrator. -/
def ByAdmin (past : List Happening) : Prop := ∃ adminId, Admin past adminId

/-- A password was hashed. -/
def Hashed (past : List Happening) (password hash : String) : Prop :=
  .call (.hashPassword password) (.ok hash)∈past

/-- A code was found that a user has approved. -/
def ApprovedBy (past : List Happening) (deviceCode userId : String) : Prop :=
  ∃ dc : DeviceGrant.DeviceCode, .call (.read (.getDeviceCode deviceCode)) (.ok (some dc))∈past ∧
    dc.approvedBy=some userId

/-- The provider of logins has told about a subject. -/
def Informed (past : List Happening) (issuer sub : String) : Prop :=
  ∃ tokens discovery clientId nonce, ∃ info : OidcUserInfo,
    .call (.extractUserInfo tokens discovery issuer clientId nonce) (.ok info)∈past ∧ info.sub=sub

/-- Tokens were issued to a user. -/
def Issued (past : List Happening) (userId : String) (deviceId : Option String)
    (access refresh : Claims) : Prop :=
  .call (.issueAccessToken userId) (.ok access)∈past ∧ access.sub=userId ∧
    .call (.issueRefreshToken userId deviceId) (.ok refresh)∈past ∧ refresh.sub=userId ∧
    refresh.did=deviceId

/-- How a request proves that it comes from a user. -/
inductive Proved (past : List Happening) (userId : String) : Prop where
  /-- By the password of the account. -/
  | password (username password : String) (deviceId : Option String) (user : UserRow)
    (asked : Asked past (.login username password deviceId))
    (found : .call (.read (.getUserByUsername username)) (.ok (some user))∈past)
    (verified : .call (.verifyPassword password user.passwordHash) (.ok true)∈past)
    (active : user.active=true) (id : user.id=userId)
  /-- By a refresh token of the user. -/
  | refreshToken (token : String) (claims : Claims) (deviceId : Option String)
    (asked : Asked past (.tokenRefresh token deviceId))
    (verified : .call (.verifyRefresh token) (.ok claims)∈past) (sub : claims.sub=userId)
  /-- By the provider of logins, for an account that was found. -/
  | subject (issuer sub : String) (user : UserRow) (informed : Informed past issuer sub)
    (found : .call (.read (.findUserByOidc issuer sub)) (.ok (some user))∈past)
    (active : user.active=true) (id : user.id=userId)
  /-- By the provider of logins, for an account that was created. -/
  | created (issuer sub username : String) (now : Int64) (done : Bool)
    (informed : Informed past issuer sub)
    (created : .call (.write (.createOidcUser ⟨userId,username,"user",sub,issuer⟩ now))
      (.ok done)∈past)
  /-- By an access token. -/
  | accessToken (authenticated : Authenticated past userId)

section

variable (E : Environment)

/-- Value of a setting that was read. -/
def Configured (past : List Happening) (s : Setting) (value : String) : Prop :=
  ∃ reply, .call (.read (.getServerSetting s.key)) reply∈past ∧
    (reply=.ok (some value) ∨ ((∀ stored, reply≠.ok (some stored)) ∧ value=E.config s))

/-- Writes for which a request has the evidence. -/
def Permitted (past : List Happening) : Write → Prop
  | .createUser _ username hash role _ => ∃ password, Hashed past password hash ∧
      validateUsername E.isAlphanumeric username=.ok () ∧ validatePassword password=.ok () ∧
      ((∃ r : Option String, ByAdmin past ∧ Asked past (.adminCreateUser username password r) ∧
          role=r.getD "user" ∧ validateRole role=.ok ()) ∨
        (Asked past (.register username password) ∧ role="user" ∧
          Configured E past .registrationMode "open"))
  | .createPendingRegistration _ username hash _ => ∃ password, Hashed past password hash ∧
      validateUsername E.isAlphanumeric username=.ok () ∧ validatePassword password=.ok () ∧
      Asked past (.register username password) ∧ Configured E past .registrationMode "approval"
  | .approveRegistration id _ _ => ByAdmin past ∧ Asked past (.adminApprovePending id)
  | .rejectRegistration id => ByAdmin past ∧ Asked past (.adminRejectPending id)
  | .deleteUser userId => ByAdmin past ∧ Asked past (.adminDeleteUser userId)
  | .setUserActive userId active _ => ∃ adminId, Admin past adminId ∧
      ((active=false ∧ Asked past (.adminDeleteUser userId)) ∨
        (Asked past (.adminSetUserActive userId active) ∧ (active=false → userId≠adminId)))
  | .updateUserRole userId role _ => ByAdmin past ∧
      Asked past (.adminChangeUserRole userId role) ∧ validateRole role=.ok ()
  | .updatePassword userId hash _ => ∃ password, Hashed past password hash ∧
      validatePassword password=.ok () ∧
      ((ByAdmin past ∧ Asked past (.adminChangeUserPassword userId password)) ∨
        (Authenticated past userId ∧ ∃ current, ∃ user : UserRow,
          Asked past (.meChangePassword current password) ∧
          .call (.read (.getUserById userId)) (.ok (some user))∈past ∧
          .call (.verifyPassword current user.passwordHash) (.ok true)∈past))
  | .revokeUserRefreshTokens userId =>
      (Authenticated past userId ∨ ByAdmin past) ∧
      ((∃ hash now updated, .call (.write (.updatePassword userId hash now)) (.ok updated)∈past) ∨
        ∃ now, .call (.write (.setUserActive userId false now)) (.ok true)∈past)
  | .createOidcUser user _ => Informed past user.oidcIssuer user.oidcSub ∧ user.role="user"
  | .createDevice id userId name deviceKey _ => id=deviceKey ∧ E.isUuid deviceKey=true ∧
      ∃ deviceCode deviceName, Asked past (.deviceTokenPoll deviceCode (some deviceKey) deviceName) ∧
        ApprovedBy past deviceCode userId ∧ name=truncateDeviceName (deviceName.getD "unknown")
  | .renameDevice id userId name => Authenticated past userId ∧ validateDeviceName name=.ok () ∧
      ∃ typed, Asked past (.meRenameDevice id typed) ∧ name=trimmed typed
  | .deleteUserDevice id userId => Authenticated past userId ∧ Asked past (.meDeleteDevice id) ∧
      .call (.read (.deviceBelongsToUser id userId)) (.ok true)∈past
  | .deleteDevice id => ByAdmin past ∧ Asked past (.adminDeleteDevice id)
  | .createTeam _ name _ => ByAdmin past ∧ name≠"" ∧
      ∃ typed, Asked past (.adminCreateTeam typed) ∧ name=teamName typed
  | .deleteTeam id => ByAdmin past ∧ Asked past (.adminDeleteTeam id)
  | .addTeamMember teamId userId role _ => ByAdmin past ∧ role∈teamRoles ∧
      ∃ r : Option String, Asked past (.adminAddTeamMember teamId userId r) ∧ role=r.getD "member"
  | .removeTeamMember teamId userId => ByAdmin past ∧
      Asked past (.adminRemoveTeamMember teamId userId)
  | .storeRefreshToken jti userId deviceId _ _ => Proved past userId ∧
      ∃ access refresh, Issued past userId deviceId access refresh ∧ jti=refresh.jti
  | .rotateRefreshToken oldJti newJti userId deviceId _ _ => ∃ token, ∃ claims : Claims,
      Asked past (.tokenRefresh token deviceId) ∧
      .call (.verifyRefresh token) (.ok claims)∈past ∧ claims.jti=oldJti ∧ claims.sub=userId ∧
      ∃ access refresh, Issued past userId deviceId access refresh ∧ newJti=refresh.jti
  | .revokeRefreshToken jti => ∃ userId, Authenticated past userId ∧
      ∃ access refresh, Issued past userId none access refresh ∧ jti=refresh.jti
  | .createDeviceCode _ _ _ => Asked past .deviceCodeRequest
  | .approveDeviceCode userCode userId access refresh => Authenticated past userId ∧
      Issued past userId none access refresh ∧ ∃ typed, Asked past (.deviceApprove typed) ∧
        SlicedTexts.normalizeUserCode E.toUppercase typed=some userCode
  | .deleteDeviceCode deviceCode =>
      (∃ deviceKey deviceName, Asked past (.deviceTokenPoll deviceCode deviceKey deviceName)) ∨
        ∃ userId code, ∃ dc : DeviceGrant.DeviceCode, Authenticated past userId ∧
          .call (.read (.getDeviceCodeByUserCode code)) (.ok (some dc))∈past ∧
          dc.deviceCode=deviceCode
  | .setServerSetting key value _ => ByAdmin past ∧ Asked past (.adminUpdateSetting key value) ∧
      validateSetting key value=.ok ()
  | .upsertMonitorSetting userId key value ifVersion quota _ => Authenticated past userId ∧
      Asked past (.meMonitorPut key value ifVersion) ∧ validateKey key=.ok () ∧
      validateValue value=.ok () ∧ .call (.allowWrite userId) (.ok ())∈past ∧ quota=monitorQuota
  | .deleteMonitorSetting userId key ifVersion => Authenticated past userId ∧
      Asked past (.meMonitorDelete key ifVersion) ∧ validateKey key=.ok () ∧
      .call (.allowWrite userId) (.ok ())∈past
  | _ => False

/-- A user may ask for the data of a team. -/
def MayAskTeam (past : List Happening) (userId teamId : String) : Prop :=
  Admin past userId ∨ ((∃ role, .call (.read (.getTeamMemberRole teamId userId))
    (.ok (some role))∈past) ∧ ∃ scope, Configured E past .maxQueryScope scope ∧ scope≠"self")

/-- Reads for which a request has the evidence. -/
def Readable (past : List Happening) : Query → Prop
  | .healthCheck => True
  | .getServerSetting _ => True
  | .getUserByUsername username => ∃ password deviceId, Asked past (.login username password deviceId)
  | .getDeviceCode deviceCode =>
      ∃ deviceKey deviceName, Asked past (.deviceTokenPoll deviceCode deviceKey deviceName)
  | .findUserByOidc issuer sub => Informed past issuer sub
  | .findDeviceByKeyAndUser _ userId => ∃ deviceCode, ApprovedBy past deviceCode userId
  | .getDeviceCodeByUserCode _ => ∃ userId, Authenticated past userId
  | .getUserById id => Authenticated past id ∨ ByAdmin past
  | .userIsAdmin userId => Authenticated past userId
  | .deviceBelongsToUser _ userId => Authenticated past userId
  | .listUserDevices userId => Authenticated past userId
  | .listUserTeams userId => Authenticated past userId
  | .getTeamMemberRole _ userId => Authenticated past userId
  | .getMonitorSetting userId _ => Authenticated past userId
  | .listMonitorSettings userId => Authenticated past userId
  | .monitorSettingsUsage userId => Authenticated past userId
  | .listTeamMembers teamId => ByAdmin past ∨
      ∃ userId, Authenticated past userId ∧ MayAskTeam E past userId teamId
  | _ => ByAdmin past

/-- The users whose data a query of a user may be about. -/
def InScope (past : List Happening) (userId : String) : UserFilter → Prop
  | .single id => id=userId
  | .multiple ids => ∃ teamId, ∃ members : List TeamMemberSummary,
      .call (.read (.listTeamMembers teamId)) (.ok members)∈past ∧
      ids=members.map TeamMemberSummary.userId ∧ MayAskTeam E past userId teamId
  | .all => Admin past userId ∨ Configured E past .maxQueryScope "all"

/-- What an answer may show: what was read for the user of the request, or for
an administrator, and tokens of a user the request has proved to come from or
who has approved the code. -/
def Shows (past : List Happening) : Body → Prop
  | .tokens access refresh _ =>
      (∃ userId deviceId a r, Proved past userId ∧ Issued past userId deviceId a r ∧
        access=some a ∧ refresh=some r) ∨
      ∃ deviceCode deviceKey deviceName, ∃ dc : DeviceGrant.DeviceCode,
        Asked past (.deviceTokenPoll deviceCode deviceKey deviceName) ∧
        .call (.read (.getDeviceCode deviceCode)) (.ok (some dc))∈past ∧
        dc.approvedBy.isSome=true ∧ access=dc.accessToken ∧ refresh=dc.refreshToken
  | .events answer => ∃ userId filter, ∃ events : List ServerEvents.ServerEvent,
      Authenticated past userId ∧ InScope E past userId filter ∧
      .call (.queryEvents answer.sinceMs answer.untilMs filter (TokiQuery.maxQueryEvents+1))
        (.ok events)∈past ∧ answer.events=events.take TokiQuery.maxQueryEvents
  | .windows _ shown => ∃ userId sinceMs endMs now rows, Authenticated past userId ∧
      .call (.queryUserWindows userId sinceMs) (.ok rows)∈past ∧ shown=showWindows now endMs rows
  | .devices devices => ∃ userId, Authenticated past userId ∧
      .call (.read (.listUserDevices userId)) (.ok devices)∈past
  | .teamMemberships teams => ∃ userId, Authenticated past userId ∧
      .call (.read (.listUserTeams userId)) (.ok teams)∈past
  | .monitorIndex entries _ _ _ used => ∃ userId, ∃ rows : List MonitorRow,
      Authenticated past userId ∧ .call (.read (.listMonitorSettings userId)) (.ok rows)∈past ∧
      .call (.read (.monitorSettingsUsage userId)) (.ok used)∈past ∧
      entries=rows.map fun m => (m.key,m.version,m.updatedAt,m.sizeBytes)
  | .monitorList entries => ∃ userId, ∃ rows : List MonitorRow, Authenticated past userId ∧
      .call (.read (.listMonitorSettings userId)) (.ok rows)∈past ∧
      entries=rows.map fun m => (m.key,m.value,m.version,m.updatedAt)
  | .monitorEntry key value version updatedAt => ∃ userId asked, ∃ row : MonitorRow,
      Authenticated past userId ∧ Asked past (.meMonitorGet asked) ∧
      .call (.read (.getMonitorSetting userId asked)) (.ok (some row))∈past ∧
      key=row.key ∧ value=row.value ∧ version=row.version ∧ updatedAt=row.updatedAt
  | .monitorWritten key version updatedAt previous => ∃ userId value ifVersion now,
      Authenticated past userId ∧
      .call (.write (.upsertMonitorSetting userId key value ifVersion monitorQuota now))
        (.ok (.written version updatedAt previous))∈past
  | .monitorConflict key version updatedAt => ∃ userId, Authenticated past userId ∧
      ((∃ value ifVersion now,
          .call (.write (.upsertMonitorSetting userId key value ifVersion monitorQuota now))
            (.ok (.versionMismatch version updatedAt))∈past) ∨
        ∃ ifVersion current changedAt, version=some current ∧ updatedAt=some changedAt ∧
          .call (.write (.deleteMonitorSetting userId key ifVersion))
            (.ok (.versionMismatch current changedAt))∈past)
  | .quotaExceeded what used limit => ∃ userId key value ifVersion now,
      Authenticated past userId ∧
      .call (.write (.upsertMonitorSetting userId key value ifVersion monitorQuota now))
        (.ok (.quotaExceeded what used limit))∈past
  | .users users => ByAdmin past ∧ .call (.read .listUsers) (.ok users)∈past
  | .allDevices devices => ByAdmin past ∧ .call (.read .listAllDevices) (.ok devices)∈past
  | .pending pending => ByAdmin past ∧
      .call (.read .listPendingRegistrations) (.ok pending)∈past
  | .serverInfo _ _ _ _ _ _ _ => ByAdmin past
  | .settings _ _ _ _ _ _ => ByAdmin past
  | .teams teams => ByAdmin past ∧ .call (.read .listTeamsWithMemberCount) (.ok teams)∈past
  | .members members => ByAdmin past ∧ ∃ teamId, Asked past (.adminListTeamMembers teamId) ∧
      .call (.read (.listTeamMembers teamId)) (.ok members)∈past
  | _ => True

/-- Routes that may change something before they refuse: a deletion of what is
not there purges first, an expired code is deleted, a code that is lost to
another approval has already cost a token, a rotation may fail after it took
effect, and a redirect is checked after the login. -/
def TooLate : Route → ℕ → Prop
  | .adminDeleteUser _, status => status=404
  | .adminDeleteDevice _, status => status=404
  | .deviceTokenPoll _ _ _, status => status=410
  | .deviceApprove _, status => status=410 ∨ status=409
  | .tokenRefresh _ _, status => status=401
  | .oidcCallback _ _ _, status => status=400
  | _, _ => False

/-- A status that refuses a request. -/
def Refuses (status : ℕ) : Prop := (400 ≤ status ∧ status<500) ∨ status=507

/-- Answers for which a request has the evidence. -/
def Answerable (past : List Happening) (response : Response) : Prop :=
  Shows E past response.body ∧ (Refuses response.status → Untouched past ∨
    ∃ route, Asked past route ∧ TooLate route response.status)

/-- Calls for which a request has the evidence. -/
def Authorized (past : List Happening) : Call → Prop
  | .lookup (.verifyAccess token) => ∃ request, .arrive request∈past ∧
      request.peer.authorization=some ("Bearer "++token)
  | .lookup (.getFresh userId) => ∃ token, ∃ claims : Claims,
      .call (.lookup (.verifyAccess token)) (.ok claims)∈past ∧ claims.sub=userId
  | .lookup (.getUserById userId) => ∃ token, ∃ claims : Claims,
      .call (.lookup (.verifyAccess token)) (.ok claims)∈past ∧ claims.sub=userId
  | .lookup (.insertIfCurrent userId active genAtRead) => (∃ token, ∃ claims : Claims,
      .call (.lookup (.verifyAccess token)) (.ok claims)∈past ∧ claims.sub=userId) ∧
      ReadSince past userId active genAtRead
  | .lookup .generation => True
  | .lookup _ => False
  | .read q => Readable E past q
  | .write w => Permitted E past w
  | .evict _ => ByAdmin past
  | .deleteDeviceEvents deviceId =>
      (∃ userId, Authenticated past userId ∧
        .call (.read (.deviceBelongsToUser deviceId userId)) (.ok true)∈past) ∨
      (ByAdmin past ∧ (Asked past (.adminDeleteDevice deviceId) ∨
        ∃ userId, ∃ deviceIds : List String, Asked past (.adminDeleteUser userId) ∧
          .call (.read (.getUserDeviceIds userId)) (.ok deviceIds)∈past ∧ deviceId∈deviceIds))
  | .deleteUserWindows userId => ByAdmin past ∧ Asked past (.adminDeleteUser userId)
  | .queryEvents _ _ filter _ => ∃ userId, Authenticated past userId ∧ InScope E past userId filter
  | .queryUserWindows userId _ => Authenticated past userId
  | .issueAccessToken userId => Proved past userId
  | .issueRefreshToken userId _ => Proved past userId
  | .respond response => Answerable E past response
  | _ => True

/-- What a request relies on: new tokens are for the user they were asked for. -/
def Reliable : (op : Call) → Answer op → Prop
  | .issueAccessToken userId, reply => ∀ claims, reply=.ok claims → claims.sub=userId
  | .issueRefreshToken userId deviceId, reply =>
    ∀ claims, reply=.ok claims → claims.sub=userId ∧ claims.did=deviceId
  | _, _ => True

/-- A request remembers what happens to it and makes authorized calls. -/
def evidence : Contract Answer Request (List Happening) where
  start := []
  arrive past request := .arrive request::past
  mayCall past op := Authorized E past op
  answers _ op reply := Reliable op reply
  called past op reply := .call op reply::past
  quit past := past

end

end TokiSync.WebEvidence
