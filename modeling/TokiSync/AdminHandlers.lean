import TokiSync.WebHandlers

/-!
# Handlers for administrators

Every handler first asks for an active administrator. A user is deleted in five
steps: the account is deactivated and dropped from the cache, the events and
windows are purged, the rows are deleted, and the purge is repeated for what
was stored meanwhile.
-/

namespace TokiSync.AdminHandlers

open DatabaseCalls WebRequests WebHandlers
open AdminAccounts (AppError validateUsername validatePassword validateRole)
open UniqueConflicts (teamName teamRoles)

section

variable (E : Environment) (peer : Peer)

/-- `GET /admin/users`. -/
def adminListUsers : Handling Response := do
  let _ ← requireAdmin peer
  let users ← read .listUsers
  pure ⟨200,.users users⟩

/-- `POST /admin/users`. -/
def adminCreateUser (username password : String) (role : Option String) : Handling Response := do
  let _ ← requireAdmin peer
  require (validateUsername E.isAlphanumeric username)
  require (validatePassword password)
  let hash ← orInternal (← call (.hashPassword password))
  let id ← call .newUuid
  require (validateRole (role.getD "user"))
  let now ← call .timestamp
  insertOr (.createUser id username hash (role.getD "user") now) ["UNIQUE"]
    "username already exists" (pure ())
  pure ⟨201,.user id username (role.getD "user")⟩

/-- Purge the events of devices; failures are only logged. -/
def purgeDevices : List String → Handling Unit
  | [] => pure ()
  | deviceId::deviceIds => do
    let _ ← call (.deleteDeviceEvents deviceId)
    purgeDevices deviceIds

/-- Deactivate a user, purge what the user has and delete the user. -/
def purgeUser (userId : String) : Handling Response := do
  let deviceIds ← read (.getUserDeviceIds userId)
  let now ← call .timestamp
  let _ ← call (.write (.setUserActive userId false now))
  call (.evict userId)
  purgeDevices deviceIds
  let _ ← call (.deleteUserWindows userId)
  if ← write (.deleteUser userId) then do
    let _ ← call (.deleteUserWindows userId)
    purgeDevices deviceIds
    pure ⟨204,.empty⟩
  else refuse (.notFound "user not found")

/-- `DELETE /admin/users/{user_id}`. -/
def adminDeleteUser (userId : String) : Handling Response := do
  let _ ← requireAdmin peer
  match ← call (.read (.getUserById userId)) with
  | .ok (some user) =>
    if user.username="admin" then
      refuse (.forbidden "the built-in admin account cannot be deleted, only deactivated")
    else purgeUser userId
  | _ => purgeUser userId

/-- `PATCH /admin/users/{user_id}/password`. -/
def adminChangeUserPassword (userId password : String) : Handling Response := do
  let _ ← requireAdmin peer
  let _ ← orRefuse (.notFound "user not found") (← read (.getUserById userId))
  changePassword userId password

/-- `PATCH /admin/users/{user_id}/role`. -/
def adminChangeUserRole (userId role : String) : Handling Response := do
  let _ ← requireAdmin peer
  require (validateRole role)
  let now ← call .timestamp
  let updated ← write (.updateUserRole userId role now)
  noContentIf updated "user not found"

/-- Activate or deactivate a user who was found. -/
def changeActive (userId : String) (active : Bool) : Handling Response := do
  let now ← call .timestamp
  if ← write (.setUserActive userId active now) then do
    call (.evict userId)
    if active then pure ⟨204,.empty⟩
    else do
      let _ ← write (.revokeUserRefreshTokens userId)
      pure ⟨204,.empty⟩
  else refuse (.notFound "user not found")

/-- `PATCH /admin/users/{user_id}/active`. -/
def adminSetUserActive (userId : String) (active : Bool) : Handling Response := do
  let adminId ← requireAdmin peer
  if active=false ∧ userId=adminId then
    refuse (.unprocessable "cannot deactivate your own account")
  else do
    let user ← orRefuse (.notFound "user not found") (← read (.getUserById userId))
    if active=false ∧ user.username="admin" then do
      let otherAdmins ← read (.countActiveAdminsExcept "admin")
      if otherAdmins=0 then
        refuse (.unprocessable "cannot deactivate admin: no other admin accounts")
      else changeActive userId active
    else changeActive userId active

/-- `GET /admin/devices`. -/
def adminListDevices : Handling Response := do
  let _ ← requireAdmin peer
  let devices ← read .listAllDevices
  pure ⟨200,.allDevices devices⟩

/-- `DELETE /admin/devices/{device_id}`. -/
def adminDeleteDevice (deviceId : String) : Handling Response := do
  let _ ← requireAdmin peer
  -- failures of the purges are only logged
  let _ ← call (.deleteDeviceEvents deviceId)
  if ← write (.deleteDevice deviceId) then do
    let _ ← call (.deleteDeviceEvents deviceId)
    pure ⟨204,.empty⟩
  else refuse (.notFound "device not found")

/-- `GET /admin/pending`. -/
def adminListPending : Handling Response := do
  let _ ← requireAdmin peer
  let pending ← read .listPendingRegistrations
  pure ⟨200,.pending pending⟩

/-- `POST /admin/pending/{id}/approve`. The id of the user is made by the
repository. -/
def adminApprovePending (pendingId : String) : Handling Response := do
  let _ ← requireAdmin peer
  let userId ← call .newUuid
  let now ← call .timestamp
  match ← call (.write (.approveRegistration pendingId userId now)) with
  | .ok approved => noContentIf approved "pending registration not found"
  | .error e =>
    if UniqueConflicts.mentions e "UNIQUE" then refuse (.conflict "username already exists")
    else refuse .internal

/-- `POST /admin/pending/{id}/reject`. -/
def adminRejectPending (pendingId : String) : Handling Response := do
  let _ ← requireAdmin peer
  let rejected ← write (.rejectRegistration pendingId)
  noContentIf rejected "pending registration not found"

/-- A text, unless it is empty. -/
def nonEmpty (text : String) : Option String := if text="" then none else some text

/-- `GET /admin/server-info`. -/
def adminServerInfo : Handling Response := do
  let _ ← requireAdmin peer
  let mode ← setting E .registrationMode
  let issuer ← setting E .oidcIssuer
  let clientId ← setting E .oidcClientId
  let redirectUri ← setting E .oidcRedirectUri
  pure ⟨200,.serverInfo mode (issuer≠"") (nonEmpty issuer) (nonEmpty clientId)
    (nonEmpty redirectUri) E.storageBackend E.version⟩

/-- `GET /admin/settings`. -/
def adminListSettings : Handling Response := do
  let _ ← requireAdmin peer
  let mode ← setting E .registrationMode
  let issuer ← setting E .oidcIssuer
  let clientId ← setting E .oidcClientId
  let clientSecret ← setting E .oidcClientSecret
  let redirectUri ← setting E .oidcRedirectUri
  let scope ← setting E .maxQueryScope
  pure ⟨200,.settings mode issuer clientId clientSecret redirectUri scope⟩

/-- Keys of the settings that can be changed. -/
def allowedSettings : List String :=
  ["registration_mode","oidc_issuer","oidc_client_id","oidc_client_secret","oidc_redirect_uri",
    "max_query_scope"]

/-- Check a setting. -/
def validateSetting (key value : String) : Except AppError Unit :=
  if key∉allowedSettings then .error (.unprocessable ("unknown setting: "++key))
  else if key="registration_mode" ∧ value∉["open","approval","closed"] then
    .error (.unprocessable "registration_mode must be 'open', 'approval', or 'closed'")
  else if key="max_query_scope" ∧ value∉["self","team","all"] then
    .error (.unprocessable "max_query_scope must be 'self', 'team', or 'all'")
  else .ok ()

/-- `PUT /admin/settings/{key}`. -/
def adminUpdateSetting (key value : String) : Handling Response := do
  let _ ← requireAdmin peer
  require (validateSetting key value)
  let now ← call .timestamp
  let _ ← write (.setServerSetting key value now)
  if "oidc_".toList.isPrefixOf key.toList then do
    call .clearDiscovery
    pure ⟨204,.empty⟩
  else pure ⟨204,.empty⟩

/-- `GET /admin/teams`. -/
def adminListTeams : Handling Response := do
  let _ ← requireAdmin peer
  let teams ← read .listTeamsWithMemberCount
  pure ⟨200,.teams teams⟩

/-- `POST /admin/teams`. -/
def adminCreateTeam (name : String) : Handling Response := do
  let _ ← requireAdmin peer
  if teamName name="" then refuse (.unprocessable "team name must not be empty")
  else do
    let id ← call .newUuid
    let now ← call .timestamp
    insertOr (.createTeam id (teamName name) now) ["UNIQUE"] "team name already exists" (pure ())
    pure ⟨201,.team id (teamName name)⟩

/-- `DELETE /admin/teams/{team_id}`. -/
def adminDeleteTeam (teamId : String) : Handling Response := do
  let _ ← requireAdmin peer
  let deleted ← write (.deleteTeam teamId)
  noContentIf deleted "team not found"

/-- `GET /admin/teams/{team_id}/members`. -/
def adminListTeamMembers (teamId : String) : Handling Response := do
  let _ ← requireAdmin peer
  let _ ← orRefuse (.notFound "team not found") (← read (.getTeam teamId))
  let members ← read (.listTeamMembers teamId)
  pure ⟨200,.members members⟩

/-- `POST /admin/teams/{team_id}/members`. -/
def adminAddTeamMember (teamId userId : String) (role : Option String) : Handling Response := do
  let _ ← requireAdmin peer
  let _ ← orRefuse (.notFound "team not found") (← read (.getTeam teamId))
  let _ ← orRefuse (.notFound "user not found") (← read (.getUserById userId))
  if role.getD "member"∉teamRoles then
    refuse (.unprocessable "role must be 'owner', 'admin', or 'member'")
  else do
    let now ← call .timestamp
    insertOr (.addTeamMember teamId userId (role.getD "member") now) ["UNIQUE","PRIMARY"]
      "user is already a team member" (pure ())
    pure ⟨201,.member teamId userId (role.getD "member")⟩

/-- `DELETE /admin/teams/{team_id}/members/{user_id}`. -/
def adminRemoveTeamMember (teamId userId : String) : Handling Response := do
  let _ ← requireAdmin peer
  let removed ← write (.removeTeamMember teamId userId)
  noContentIf removed "team member not found"

end

end TokiSync.AdminHandlers
