import TokiSync.AdminHandlers
import TokiSync.OrderedEntries

/-!
# Monitor settings, queries and the router

The settings of the monitor are kept for a user under keys that are checked, a
write is counted by the limiter. A query of windows is about the user alone; a
query of events asks for a scope, which may be limited by the server. The
router runs the handler of a route and sends the answer.
-/

namespace TokiSync.WebRoutes

open ByteKeys DatabaseCalls WebRequests WebHandlers AdminHandlers WireWindows
open AdminAccounts (AppError)
open CalendarBuckets (Tz Weekday)
open FjallStore (UserFilter)
open InterleavedSessions (Program)
open MonitorSettings (MonitorRow monitorQuota)
open OrderedEntries (OrderedMap)
open TokiQuery (TokiQueryParams maxQueryEvents)
open ZoneBuckets (LocalClock)

/-- Largest payload of a setting of the monitor. -/
def maxValueBytes : ℕ := 256*1024

/-- Largest key of a setting of the monitor. -/
def maxKeyLen : ℕ := 128

/-- Whether a character may be in a key. -/
def isKeyChar (c : Char) : Bool :=
  c.isAlphanum || c = '.' || c = '_' || c = '-' || c = ':'

/-- Check a key. -/
def validateKey (key : String) : Except AppError Unit :=
  if key="" ∨ maxKeyLen<(utf8 key).length then
    .error (.unprocessable ("key must be 1-"++toString maxKeyLen++" characters"))
  else if key.toList.all isKeyChar then .ok ()
  else .error (.unprocessable "key may only contain letters, digits, and . _ - :")

/-- Check a payload. -/
def validateValue (value : String) : Except AppError Unit :=
  if maxValueBytes<(utf8 value).length then
    .error ⟨413,"value is "++toString (utf8 value).length++" bytes, limit is "++
      toString maxValueBytes⟩
  else .ok ()

section

variable (peer : Peer)

/-- `GET /me/monitor/index`. -/
def meMonitorIndex : Handling Response := do
  let claims ← authenticate peer
  let rows ← read (.listMonitorSettings claims.sub)
  let used ← read (.monitorSettingsUsage claims.sub)
  pure ⟨200,.monitorIndex (rows.map fun m => (m.key,m.version,m.updatedAt,m.sizeBytes))
    monitorQuota.maxEntries maxValueBytes monitorQuota.maxTotalBytes used⟩

/-- `GET /me/monitor/settings`. -/
def meMonitorList : Handling Response := do
  let claims ← authenticate peer
  let rows ← read (.listMonitorSettings claims.sub)
  pure ⟨200,.monitorList (rows.map fun m => (m.key,m.value,m.version,m.updatedAt))⟩

/-- `GET /me/monitor/settings/{key}`. -/
def meMonitorGet (key : String) : Handling Response := do
  let claims ← authenticate peer
  require (validateKey key)
  let entry ← orRefuse (.notFound "monitor setting not found")
    (← read (.getMonitorSetting claims.sub key))
  pure ⟨200,.monitorEntry entry.key entry.value entry.version entry.updatedAt⟩

/-- `PUT /me/monitor/settings/{key}`. -/
def meMonitorPut (key value : String) (ifVersion : Option ℤ) : Handling Response := do
  let claims ← authenticate peer
  require (validateKey key)
  require (validateValue value)
  match ← call (.allowWrite claims.sub) with
  | .error retryAfter => pure ⟨429,.tooManyWrites retryAfter⟩
  | .ok () => do
    let now ← call .timestamp
    match ← write (.upsertMonitorSetting claims.sub key value ifVersion monitorQuota now.toInt) with
    | .written version updatedAt previous =>
      pure ⟨200,.monitorWritten key version updatedAt previous⟩
    | .versionMismatch version updatedAt => pure ⟨409,.monitorConflict key version updatedAt⟩
    | .quotaExceeded what used limit => pure ⟨507,.quotaExceeded what used limit⟩

/-- `DELETE /me/monitor/settings/{key}`. -/
def meMonitorDelete (key : String) (ifVersion : Option ℤ) : Handling Response := do
  let claims ← authenticate peer
  require (validateKey key)
  match ← call (.allowWrite claims.sub) with
  | .error retryAfter => pure ⟨429,.tooManyWrites retryAfter⟩
  | .ok () => do
    match ← write (.deleteMonitorSetting claims.sub key ifVersion) with
    | .deleted => pure ⟨204,.empty⟩
    | .notFound => refuse (.notFound "monitor setting not found")
    | .versionMismatch version updatedAt =>
      pure ⟨409,.monitorConflict key (some version) (some updatedAt)⟩

end

/-- Whose data a query is about. -/
inductive Scope where
  | self
  | team (teamId : String)
  | all
  | invalid
  deriving DecidableEq

/-- Read a scope. -/
def parseScope (s : String) : Scope :=
  if s="self" then .self
  else if s="all" then .all
  else if "team:".toList.isPrefixOf s.toList then
    if s.toList.drop 5=[] then .invalid else .team (String.ofList (s.toList.drop 5))
  else .invalid

section

variable (E : Environment)

/-- The members of a team, for a query. -/
def teamFilter (teamId : String) : Handling UserFilter := do
  let members ← read (.listTeamMembers teamId)
  pure (.multiple (members.map TeamMemberSummary.userId))

/-- The users whose data a query of a user may be about. -/
def resolveUserFilter (userId requestedScope : String) : Handling UserFilter := do
  let maxScope ← setting E .maxQueryScope
  let isAdmin ← read (.userIsAdmin userId)
  match parseScope requestedScope with
  | .self => pure (.single userId)
  | .team teamId =>
    if isAdmin then teamFilter teamId
    else if maxScope="self" then refuse (.forbidden "team scope not enabled")
    else do
      match ← read (.getTeamMemberRole teamId userId) with
      | none => refuse (.forbidden "not a member of this team")
      | some _ => teamFilter teamId
  | .all =>
    if isAdmin=false ∧ maxScope≠"all" then refuse (.forbidden "global scope not enabled")
    else pure .all
  | .invalid => refuse ⟨400,"invalid scope"⟩

/-- Read the name of a time zone. -/
def parseTimezone : Option String → Except AppError (Option (LocalClock×Tz))
  | none => .ok none
  | some name =>
    match E.parseTz name with
    | some tz => .ok (some tz)
    | none => .error ⟨400,"invalid timezone: '"++name++"'"⟩

/-- Read the name of a weekday. -/
def parseWeekday (s : String) : Option Weekday :=
  let day := E.toLowercase s
  if day="mon" ∨ day="monday" then some .mon
  else if day="tue" ∨ day="tuesday" then some .tue
  else if day="wed" ∨ day="wednesday" then some .wed
  else if day="thu" ∨ day="thursday" then some .thu
  else if day="fri" ∨ day="friday" then some .fri
  else if day="sat" ∨ day="saturday" then some .sat
  else if day="sun" ∨ day="sunday" then some .sun
  else none

/-- A bound of a query, or what stands for a missing one. -/
def parseBound (bound : Option String) (isEnd : Bool) (tz : Option LocalClock) (missing : ℤ) :
    Except AppError ℤ :=
  match bound with
  | none => .ok missing
  | some s => QueryBounds.parseTokiBoundMs E.parseDate E.parseDateTime s isEnd tz

/-- A window as it is shown; a passed reset is final even when its device went
away before. -/
def windowRow (now : Int64) (w : WireWindow) : WindowRow :=
  ⟨w,w.finalized || w.rawResetsAtMs+180000<now*1000⟩

/-- Append a window to those of its provider, unless it ends too late. -/
def addWindow (now : Int64) (endMs : ℤ) (providers : OrderedMap String (List WindowRow))
    (row : String×WireWindow) : OrderedMap String (List WindowRow) :=
  if row.2.windowEndMs.toInt≥endMs then providers
  else providers.enter row.1 fun list => list.getD []++[windowRow now row.2]

/-- The windows that end before a time, by provider and in order. -/
def showWindows (now : Int64) (endMs : ℤ) (rows : List (String×WireWindow)) :
    List (String×List WindowRow) :=
  (rows.foldl (addWindow now endMs) .empty).entries.map fun e =>
    (e.1,e.2.mergeSort fun a b => decide (a.window.windowEndMs≤b.window.windowEndMs))

/-- What a query asks for, its bounds read. -/
def queryParams (params : QueryParams) (startMs endMs : ℤ) (tz : Option Tz) : TokiQueryParams where
  query := params.query
  startMs := startMs
  endMs := endMs
  step := params.step
  tz := tz
  startOfWeek := params.startOfWeek.bind (parseWeekday E)
  noCost := params.noCost

/-- The windows of a user. -/
def queryWindows (userId scope : String) (startMs endMs : ℤ) (now : Int64) : Handling Response := do
  if scope="self" then do
    let rows ← orInternal (← call (.queryUserWindows userId startMs))
    pure ⟨200,.windows 1 (showWindows now endMs rows)⟩
  else refuse (.forbidden "windows supports scope=self only")

/-- The events of a query. -/
def queryEvents (userId scope : String) (params : TokiQueryParams) (range : ℤ) :
    Handling Response := do
  let parsed ← require (TokiQuery.parseQuery params.query)
  let stepSecs ← require (TokiQuery.effectiveStep params range)
  let filter ← resolveUserFilter E userId scope
  -- one more than a request may read shows that there are more
  match ← call (.queryEvents params.startMs params.endMs filter (maxQueryEvents+1)) with
  | .error _ => refuse ⟨502,"metrics backend unavailable"⟩
  | .ok events =>
    let isRaw := parsed.rawEvents && params.step.isNone
    pure ⟨200,.events ⟨parsed,if isRaw then none else some stepSecs,params.startMs,params.endMs,
      params.tz,params.startOfWeek,!params.noCost,events.take maxQueryEvents,
      decide (maxQueryEvents<events.length)⟩⟩

/-- Seconds as milliseconds, not past the range of 64 bits. -/
def saturatingMillis (now : Int64) : ℤ := max (min (now.toInt*1000) (2^63-1)) (-2^63)

/-- `GET /api/v1/toki/query`. -/
def tokiQuery (peer : Peer) (params : QueryParams) : Handling Response := do
  let claims ← authenticate peer
  let scope := params.scope.getD "self"
  let tz ← require (parseTimezone E params.tz)
  let now ← call .timestamp
  let startMs ← require (parseBound E params.start false (tz.map Prod.fst) 0)
  let endMs ← require (parseBound E params.stop true (tz.map Prod.fst) (saturatingMillis now))
  let bounded := queryParams E params startMs endMs (tz.map Prod.snd)
  let range ← require (TokiQuery.rangeMs bounded)
  if trimmed params.query="windows" then queryWindows claims.sub scope startMs endMs now
  else queryEvents E claims.sub scope bounded range

/-- The handler of a route. -/
def handler (peer : Peer) : Route → Handling Response
  | .adminRedirect => pure ⟨308,.redirect "/admin"⟩
  | .adminPage => pure ⟨200,.page "admin.html"⟩
  | .loginPage => pure ⟨200,.page "login.html"⟩
  | .capabilities => pure ⟨200,.capabilities true true⟩
  | .health => health
  | .authMethod _ => authMethod E
  | .authInfo => authInfo E
  | .login username password deviceId => login E peer username password deviceId
  | .register username password => register E peer username password
  | .tokenRefresh refreshToken deviceId => tokenRefresh E peer refreshToken deviceId
  | .deviceCodeRequest => deviceCodeRequest E peer
  | .deviceTokenPoll deviceCode deviceKey deviceName =>
    deviceTokenPoll E deviceCode deviceKey deviceName
  | .deviceApprove userCode => deviceApprove E peer userCode
  | .oidcAuthorize redirectUri => oidcAuthorize E redirectUri
  | .oidcCallback code state error => oidcCallback E code state error
  | .tokiQuery params => tokiQuery E peer params
  | .meDevices => meDevices peer
  | .meRenameDevice deviceId name => meRenameDevice peer deviceId name
  | .meDeleteDevice deviceId => meDeleteDevice peer deviceId
  | .meChangePassword currentPassword newPassword =>
    meChangePassword peer currentPassword newPassword
  | .meTeams => meTeams peer
  | .meMonitorIndex => meMonitorIndex peer
  | .meMonitorList => meMonitorList peer
  | .meMonitorGet key => meMonitorGet peer key
  | .meMonitorPut key value ifVersion => meMonitorPut peer key value ifVersion
  | .meMonitorDelete key ifVersion => meMonitorDelete peer key ifVersion
  | .adminListUsers => adminListUsers peer
  | .adminCreateUser username password role => adminCreateUser E peer username password role
  | .adminDeleteUser userId => adminDeleteUser peer userId
  | .adminChangeUserPassword userId password => adminChangeUserPassword peer userId password
  | .adminChangeUserRole userId role => adminChangeUserRole peer userId role
  | .adminSetUserActive userId active => adminSetUserActive peer userId active
  | .adminListDevices => adminListDevices peer
  | .adminDeleteDevice deviceId => adminDeleteDevice peer deviceId
  | .adminListPending => adminListPending peer
  | .adminApprovePending id => adminApprovePending peer id
  | .adminRejectPending id => adminRejectPending peer id
  | .adminServerInfo => adminServerInfo E peer
  | .adminListSettings => adminListSettings E peer
  | .adminUpdateSetting key value => adminUpdateSetting peer key value
  | .adminListTeams => adminListTeams peer
  | .adminCreateTeam name => adminCreateTeam peer name
  | .adminDeleteTeam teamId => adminDeleteTeam peer teamId
  | .adminListTeamMembers teamId => adminListTeamMembers peer teamId
  | .adminAddTeamMember teamId userId role => adminAddTeamMember peer teamId userId role
  | .adminRemoveTeamMember teamId userId => adminRemoveTeamMember peer teamId userId

/-- Run the handler of a request and send its answer; after a panic there is
none. -/
def serve (_ : Unit) (request : Request) : Program Answer (Option Unit) := do
  match ← (handler E request.peer request.route).run with
  | .ok response => .call (.respond response) fun _ => .done none
  | .error (.error e) => .call (.respond (errorResponse e)) fun _ => .done none
  | .error .panic => pure none

end

end TokiSync.WebRoutes
