import TokiSync.WebRequests

/-!
# Handlers of the web server

The handlers of all routes. Whoever signs in, by a password, at the provider of
logins or by approving the code of a device, gets a new pair of tokens of which
the refresh token is stored. Everything below `/me` is done for the user of the
access token, and everything below `/admin` after the role of an administrator
was found.
-/

namespace TokiSync.WebHandlers

open ByteKeys DatabaseCalls WebRequests WireWindows
open AdminAccounts (AppError validateUsername validatePassword validateRole)
open CalendarBuckets (Weekday)
open DatabaseRuns (Write)
open DeviceGrant (Claims)
open FjallStore (UserFilter)
open InterleavedSessions (Program)
open LoginGuard (Subject)
open MonitorSettings (monitorQuota)
open OidcAccounts (UserRow OidcUserInfo)
open SyncConnection (truncateDeviceName)
open UniqueConflicts (mentions teamName teamRoles)

/-- Insert, with a conflict where the error has one of the words. -/
def insertOr (w : Write) (words : List String) (conflict : String) (onConflict : Handling Unit) :
    Handling Unit := do
  match ← call (.write w) with
  | .ok _ => pure ()
  | .error e =>
    if words.any (mentions e) then do
      onConflict
      refuse (.conflict conflict)
    else refuse .internal

/-- New tokens of a user, the refresh token stored. -/
def issueTokens (userId : String) (deviceId : Option String) : Handling (Claims×Claims) := do
  let access ← orInternal (← call (.issueAccessToken userId))
  let refresh ← orInternal (← call (.issueRefreshToken userId deviceId))
  let now ← call .timestamp
  let _ ← write (.storeRefreshToken refresh.jti refresh.sub refresh.did refresh.exp now)
  pure (access,refresh)

section

variable (E : Environment)

/-- `GET /health`. -/
def health : Handling Response := do
  match ← call (.read .healthCheck) with
  | .ok () => pure ⟨200,.status "ok"⟩
  | .error e => refuse ⟨503,"database unhealthy: "++e⟩

/-- `POST /auth-method`. -/
def authMethod : Handling Response := do
  let issuer ← setting E .oidcIssuer
  if issuer="" then pure ⟨200,.authMethod "password" none⟩
  else do
    let redirectUri ← setting E .oidcRedirectUri
    pure ⟨200,.authMethod "oidc"
      (some ("/auth/oidc/authorize?redirect_uri="++E.urls.encode redirectUri))⟩

/-- `GET /auth/info`. -/
def authInfo : Handling Response := do
  let mode ← setting E .registrationMode
  let issuer ← setting E .oidcIssuer
  pure ⟨200,.authInfo mode (issuer≠"")⟩

/-- `POST /login`. -/
def login (peer : Peer) (username password : String) (deviceId : Option String) :
    Handling Response := do
  let subject : Subject := ⟨extractClientIp E peer,.login username⟩
  guardCheck subject
  match ← read (.getUserByUsername username) with
  | none => do
    -- verified against the hash of nobody, so that it takes as long
    let _ ← call (.verifyPassword password E.dummyPasswordHash)
    call (.recordFailure subject)
    refuse (.unauthorized "invalid credentials")
  | some user =>
    if user.active=false then refuse (.unauthorized "account deactivated")
    else if user.passwordHash="" then refuse (.unauthorized "this account uses OIDC login")
    else do
      let valid ← orInternal (← call (.verifyPassword password user.passwordHash))
      if valid then do
        call (.recordSuccess subject)
        let (access,refresh) ← issueTokens user.id deviceId
        pure ⟨200,.tokens (some access) (some refresh) E.urls.accessTokenTtlSecs⟩
      else do
        call (.recordFailure subject)
        refuse (.unauthorized "invalid credentials")

/-- The rest of a registration that is allowed. -/
def registerIn (mode : String) (subject : Subject) (username password : String) :
    Handling Response := do
  require (validateUsername E.isAlphanumeric username)
  require (validatePassword password)
  let hash ← orInternal (← call (.hashPassword password))
  let id ← call .newUuid
  let now ← call .timestamp
  if mode="approval" then do
    insertOr (.createPendingRegistration id username hash now) ["UNIQUE"]
      "username already exists or pending" (call (.recordFailure subject))
    call (.recordSuccess subject)
    pure ⟨202,.message "registration pending admin approval"⟩
  else do
    insertOr (.createUser id username hash "user" now) ["UNIQUE"] "username already exists"
      (call (.recordFailure subject))
    call (.recordSuccess subject)
    pure ⟨201,.registered id username⟩

/-- `POST /register`. -/
def register (peer : Peer) (username password : String) : Handling Response := do
  let subject : Subject := ⟨extractClientIp E peer,.register⟩
  guardCheck subject
  let mode ← setting E .registrationMode
  if mode="open" ∨ mode="approval" then registerIn E mode subject username password
  else refuse (.forbidden "registration is disabled")

/-- Exchange a refresh token for new tokens; nothing if that fails. -/
def rotate (oldToken : String) (deviceId : Option String) : Handling (Option (Claims×Claims)) := do
  match ← call (.verifyRefresh oldToken) with
  | .error _ => pure none
  | .ok claims => do
    match ← call (.issueAccessToken claims.sub) with
    | .error _ => pure none
    | .ok access => do
      match ← call (.issueRefreshToken claims.sub deviceId) with
      | .error _ => pure none
      | .ok refresh => do
        let now ← call .timestamp
        match ← call (.write (.rotateRefreshToken claims.jti refresh.jti refresh.sub deviceId
          refresh.exp now)) with
        | .error _ => pure none
        | .ok _ => pure (some (access,refresh))

/-- `POST /token/refresh`. -/
def tokenRefresh (peer : Peer) (refreshToken : String) (deviceId : Option String) :
    Handling Response := do
  let subject : Subject := ⟨extractClientIp E peer,.tokenRefresh⟩
  guardCheck subject
  match ← rotate refreshToken deviceId with
  | some (access,refresh) => do
    call (.recordSuccess subject)
    pure ⟨200,.tokens (some access) (some refresh) E.urls.accessTokenTtlSecs⟩
  | none => do
    call (.recordFailure subject)
    refuse (.unauthorized "invalid or expired refresh token")

/-- Addresses of the provider of logins, cached. -/
def getOidcDiscovery : Handling OidcDiscovery := do
  match ← call .cachedDiscovery with
  | some discovery => pure discovery
  | none => do
    let issuer ← setting E .oidcIssuer
    let discovery ← orInternal (← call (.discover issuer))
    call (.cacheDiscovery discovery)
    pure discovery

/-- A redirect as an answer. -/
def redirectResponse : OidcRedirect.Response → Response
  | .redirect location => ⟨307,.redirect location⟩
  | .error e => ⟨e.status,.error e.message⟩

/-- `GET /auth/oidc/authorize`. -/
def oidcAuthorize (redirectUri : String) : Handling Response := do
  let issuer ← setting E .oidcIssuer
  if issuer="" then refuse ⟨404,"OIDC not configured"⟩
  else do
    let discovery ← getOidcDiscovery E
    let csrfState ← call .newUuid
    let nonce ← call .newUuid
    call (.insertState csrfState redirectUri nonce)
    let clientId ← setting E .oidcClientId
    let serverRedirectUri ← setting E .oidcRedirectUri
    let endpoint := discovery.authorizationEndpoint
    -- the time is no part of the URL
    pure (redirectResponse (OidcRedirect.temporary E.urls (OidcRedirect.buildAuthUrl E.urls endpoint
      ⟨0,issuer,.ok endpoint,clientId,serverRedirectUri,redirectUri,csrfState,nonce⟩)))

/-- The id of an account that may be used. -/
def useAccount (user : UserRow) : Handling String :=
  if user.active then pure user.id else refuse (.unauthorized "account deactivated")

/-- The account of a subject of the provider, created if there is none. -/
def findOrCreateOidcUser (issuer : String) (info : OidcUserInfo) : Handling String := do
  match ← read (.findUserByOidc issuer info.sub) with
  | some user => useAccount user
  | none => do
    let id ← call .newUuid
    match OidcAccounts.deriveUsername info with
    | none => throw .panic
    | some username => do
      let now ← call .timestamp
      match ← call (.write (.createOidcUser ⟨id,username,"user",info.sub,issuer⟩ now)) with
      | .ok _ => pure id
      | .error e =>
        if mentions e "UNIQUE" then do
          match ← read (.findUserByOidc issuer info.sub) with
          | some user => useAccount user
          | none => refuse .internal
        else refuse .internal

/-- The rest of the callback for a state that was stored. -/
def finishCallback (issuer code clientRedirect storedNonce : String) : Handling Response := do
  let discovery ← getOidcDiscovery E
  let clientId ← setting E .oidcClientId
  let clientSecret ← setting E .oidcClientSecret
  let redirectUri ← setting E .oidcRedirectUri
  let tokens ← orInternal (← call (.exchangeCode discovery clientId clientSecret redirectUri code))
  let info ← orInternal (← call (.extractUserInfo tokens discovery issuer clientId
    (if storedNonce="" then none else some storedNonce)))
  let userId ← findOrCreateOidcUser issuer info
  let (access,refresh) ← issueTokens userId none
  pure (redirectResponse (OidcRedirect.sendTokens E.urls clientRedirect
    ⟨E.tokenText access,E.tokenText refresh⟩))

/-- `GET /auth/callback`. -/
def oidcCallback (code state : String) (error : Option String) : Handling Response := do
  let issuer ← setting E .oidcIssuer
  if issuer="" then refuse ⟨404,"OIDC not configured"⟩
  else match error with
    | some err => refuse ⟨400,"OIDC error: "++err⟩
    | none => do
      match ← call (.validateState state) with
      | none => refuse ⟨400,"invalid or expired state parameter"⟩
      | some (clientRedirect,storedNonce) =>
        finishCallback E issuer code clientRedirect storedNonce

/-- Characters of a code that a user types. -/
def userCodeChars : List Char := "ABCDEFGHJKMNPQRSTUVWXYZ23456789".toList

/-- The character of a random byte. -/
def userCodeChar (b : UInt8) : Char := userCodeChars.getD (b.toNat%userCodeChars.length) 'A'

/-- A code from random bytes. -/
def generateUserCode (bytes : List UInt8) : String :=
  String.ofList ((bytes.take 4).map userCodeChar++ '-'::((bytes.drop 4).take 4).map userCodeChar)

/-- `POST /device/code`. -/
def deviceCodeRequest (peer : Peer) : Handling Response := do
  let subject : Subject := ⟨extractClientIp E peer,.deviceCode⟩
  guardCheck subject
  call (.recordSuccess subject)
  let deviceCode ← call .newUuid
  let userCode := generateUserCode (← call .uuidBytes)
  let now ← call .timestamp
  let _ ← write (.createDeviceCode deviceCode userCode (now+300))
  let verificationUrl :=
    if E.externalUrl="" then "/login" else E.externalUrl++"/login/device"
  pure ⟨200,.deviceCode deviceCode userCode verificationUrl 300 5⟩

/-- Register the device that was granted tokens, if it has told its key. -/
def registerDevice (userId : String) (deviceKey deviceName : Option String) : Handling Unit := do
  match deviceKey with
  | none => pure ()
  | some key =>
    if key≠"" ∧ userId≠"" ∧ E.isUuid key then do
      match ← call (.read (.findDeviceByKeyAndUser key userId)) with
      | .ok none => do
        let now ← call .timestamp
        -- a failure is only logged
        let _ ← call (.write (.createDevice key userId
          (truncateDeviceName (deviceName.getD "unknown")) key now))
        pure ()
      | _ => pure ()
    else pure ()

/-- `POST /device/token`. -/
def deviceTokenPoll (deviceCode : String) (deviceKey deviceName : Option String) :
    Handling Response := do
  if ← call (.poll deviceCode) then pure ⟨400,.slowDown 10⟩
  else do
    match ← read (.getDeviceCode deviceCode) with
    | none => pure ⟨400,.error "expired_token"⟩
    | some dc => do
      let now ← call .timestamp
      if now>dc.expiresAt then do
        let _ ← call (.write (.deleteDeviceCode deviceCode))
        refuse ⟨410,"expired_token"⟩
      else match dc.approvedBy with
        | none => pure ⟨400,.error "authorization_pending"⟩
        | some userId => do
          let _ ← call (.write (.deleteDeviceCode deviceCode))
          call (.forgetPoll deviceCode)
          registerDevice E userId deviceKey deviceName
          pure ⟨200,.tokens dc.accessToken dc.refreshToken E.urls.accessTokenTtlSecs⟩

/-- The rest of an approval of a code that was found. -/
def approveCode (subject : Subject) (userId code : String) (dc : DeviceGrant.DeviceCode) :
    Handling Response := do
  let now ← call .timestamp
  if now>dc.expiresAt then do
    let _ ← call (.write (.deleteDeviceCode dc.deviceCode))
    refuse ⟨410,"code expired"⟩
  else if dc.approvedBy.isSome then refuse (.conflict "code already approved")
  else do
    let (access,refresh) ← issueTokens userId none
    let approved ← write (.approveDeviceCode code userId access refresh)
    if approved then do
      call (.recordSuccess subject)
      pure ⟨200,.status "approved"⟩
    else do
      let _ ← call (.write (.revokeRefreshToken refresh.jti))
      refuse (.conflict "code already approved or expired")

/-- `POST /device/approve`. -/
def deviceApprove (peer : Peer) (userCode : String) : Handling Response := do
  let claims ← authenticate peer
  let subject : Subject := ⟨claims.sub,.deviceApprove⟩
  guardCheck subject
  match SlicedTexts.normalizeUserCode E.toUppercase userCode with
  | none => throw .panic
  | some code => do
    match ← read (.getDeviceCodeByUserCode code) with
    | none => do
      call (.recordFailure subject)
      refuse (.notFound "invalid or expired code")
    | some dc => approveCode subject claims.sub code dc

end

/-- `GET /me/devices`. -/
def meDevices (peer : Peer) : Handling Response := do
  let claims ← authenticate peer
  let devices ← read (.listUserDevices claims.sub)
  pure ⟨200,.devices devices⟩

/-- `204`, or `404` when nothing was found. -/
def noContentIf (found : Bool) (missing : String) : Handling Response :=
  if found then pure ⟨204,.empty⟩ else refuse (.notFound missing)

/-- Check the new name of a device. -/
def validateDeviceName (name : String) : Except AppError Unit :=
  if name="" ∨ (utf8 name).length>64 then
    .error (.unprocessable "device name must be 1-64 characters")
  else if name.toList.any isControl then
    .error (.unprocessable "device name must not contain control characters")
  else .ok ()

/-- A text without whitespace at its ends. -/
def trimmed (text : String) : String := String.ofList (VirtualQueries.trim text.toList)

/-- `PATCH /me/devices/{device_id}/name`. -/
def meRenameDevice (peer : Peer) (deviceId name : String) : Handling Response := do
  let claims ← authenticate peer
  require (validateDeviceName (trimmed name))
  let renamed ← write (.renameDevice deviceId claims.sub (trimmed name))
  noContentIf renamed "device not found"

/-- `DELETE /me/devices/{device_id}`. -/
def meDeleteDevice (peer : Peer) (deviceId : String) : Handling Response := do
  let claims ← authenticate peer
  if ← read (.deviceBelongsToUser deviceId claims.sub) then do
    -- failures of the purges are only logged
    let _ ← call (.deleteDeviceEvents deviceId)
    let _ ← write (.deleteUserDevice deviceId claims.sub)
    let _ ← call (.deleteDeviceEvents deviceId)
    pure ⟨204,.empty⟩
  else refuse (.notFound "device not found")

/-- Store a new password and revoke the refresh tokens of the user. -/
def changePassword (userId password : String) : Handling Response := do
  require (validatePassword password)
  let hash ← orInternal (← call (.hashPassword password))
  let now ← call .timestamp
  let _ ← write (.updatePassword userId hash now)
  let _ ← write (.revokeUserRefreshTokens userId)
  pure ⟨204,.empty⟩

/-- `PATCH /me/password`. -/
def meChangePassword (peer : Peer) (currentPassword newPassword : String) : Handling Response := do
  let claims ← authenticate peer
  let user ← orRefuse (.notFound "user not found") (← read (.getUserById claims.sub))
  let valid ← orInternal (← call (.verifyPassword currentPassword user.passwordHash))
  if valid then changePassword claims.sub newPassword
  else refuse (.unauthorized "current password incorrect")

/-- `GET /me/teams`. -/
def meTeams (peer : Peer) : Handling Response := do
  let claims ← authenticate peer
  let teams ← read (.listUserTeams claims.sub)
  pure ⟨200,.teamMemberships teams⟩

end TokiSync.WebHandlers
