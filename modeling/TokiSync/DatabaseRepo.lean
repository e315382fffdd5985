import TokiSync.DeviceGrant
import TokiSync.MonitorSettings
import TokiSync.OidcAccounts
import TokiSync.ReferencedRows

/-!
# The relational database

Users own devices, refresh tokens, memberships and settings of the monitor,
devices have cursors and teams have members; a row is deleted together with the
one it refers to. Codes of the device grant, waiting registrations and server
settings refer to nothing, and the device a refresh token names is no
reference. Each call of the repository is one statement or one transaction.
-/

namespace TokiSync.DatabaseRepo

open ReferencedRows
open DeviceGrant (Claims DeviceCode)
open MonitorSettings (MonitorRow MonitorTable MonitorQuota MonitorWriteOutcome
  MonitorDeleteOutcome nextRow affected)
open OidcAccounts (UserRow NewOidcUser)
open RefreshTokens (TokenRow freshRow revocable)

/-- A row of `devices`. -/
structure DeviceRow where
  /-- Id of the device. -/
  id : String
  /-- Owner of the device. -/
  userId : String
  /-- Name shown to the owner. -/
  name : String
  /-- Key the device presents itself with. -/
  deviceKey : Option String
  /-- Time of the registration. -/
  createdAt : Int64
  /-- Time of the last connection. -/
  lastSeenAt : Int64
  deriving DecidableEq

/-- A row of `cursors`. -/
structure CursorRow where
  /-- The device. -/
  deviceId : String
  /-- Provider of the events. -/
  provider : String
  /-- Time of the last acknowledged event. -/
  lastTs : Int64
  /-- Time of the last write. -/
  updatedAt : Int64
  deriving DecidableEq

/-- A row of `teams`. -/
structure TeamRow where
  /-- Id of the team. -/
  id : String
  /-- Name of the team. -/
  name : String
  /-- Time the row was written first. -/
  createdAt : Int64
  /-- Time the row was written last. -/
  updatedAt : Int64
  deriving DecidableEq

/-- A row of `team_members`. -/
structure MemberRow where
  /-- The team. -/
  teamId : String
  /-- The user. -/
  userId : String
  /-- Role in the team. -/
  role : String
  /-- Time the user joined. -/
  joinedAt : Int64
  deriving DecidableEq

/-- A row of `pending_registrations`. -/
structure PendingRow where
  /-- Id of the registration. -/
  id : String
  /-- Login name asked for. -/
  username : String
  /-- Hash of the password. -/
  passwordHash : String
  /-- Time of the request. -/
  requestedAt : Int64
  deriving DecidableEq

/-- A row of `server_settings`. -/
structure SettingRow where
  /-- Key of the setting. -/
  key : String
  /-- Its value. -/
  value : String
  /-- Time of the last write. -/
  updatedAt : Int64
  deriving DecidableEq

/-- A row of any table. -/
inductive Row where
  | user (row : UserRow)
  | device (row : DeviceRow)
  | cursor (row : CursorRow)
  | refreshToken (jti : String) (row : TokenRow)
  | team (row : TeamRow)
  | teamMember (row : MemberRow)
  | deviceCode (row : DeviceCode)
  | pendingRegistration (row : PendingRow)
  | serverSetting (row : SettingRow)
  | monitorSetting (row : MonitorRow)
  deriving DecidableEq

/-- A primary key with its table. -/
inductive Key where
  | user (id : String)
  | device (id : String)
  | cursor (deviceId provider : String)
  | refreshToken (jti : String)
  | team (id : String)
  | teamMember (teamId userId : String)
  | deviceCode (deviceCode : String)
  | pendingRegistration (id : String)
  | serverSetting (key : String)
  | monitorSetting (userId key : String)
  deriving DecidableEq

/-- An entry of a unique index besides the primary keys. -/
inductive IndexEntry where
  | username (name : String)
  | usersOidc (subject : String×String)
  | devicesDeviceKey (deviceKey : String)
  | teamName (name : String)
  | userCode (userCode : String)
  | pendingUsername (name : String)
  deriving DecidableEq

/-- `PRIMARY KEY`. -/
def Row.key : Row → Key
  | .user row => .user row.id
  | .device row => .device row.id
  | .cursor row => .cursor row.deviceId row.provider
  | .refreshToken jti _ => .refreshToken jti
  | .team row => .team row.id
  | .teamMember row => .teamMember row.teamId row.userId
  | .deviceCode row => .deviceCode row.deviceCode
  | .pendingRegistration row => .pendingRegistration row.id
  | .serverSetting row => .serverSetting row.key
  | .monitorSetting row => .monitorSetting row.userId row.key

/-- `UNIQUE`, and the unique indexes on rows that are not null. -/
def Row.entries : Row → List IndexEntry
  | .user row => .username row.username::row.subject.toList.map .usersOidc
  | .device row => row.deviceKey.toList.map .devicesDeviceKey
  | .team row => [.teamName row.name]
  | .deviceCode row => [.userCode row.userCode]
  | .pendingRegistration row => [.pendingUsername row.username]
  | _ => []

/-- `REFERENCES … ON DELETE CASCADE`. -/
def Row.refs : Row → List Key
  | .device row => [.user row.userId]
  | .cursor row => [.device row.deviceId]
  | .refreshToken _ row => [.user row.userId]
  | .teamMember row => [.team row.teamId,.user row.userId]
  | .monitorSetting row => [.user row.userId]
  | _ => []

/-- The schema the migrations build. -/
def schema : Schema Row Key IndexEntry := ⟨Row.key,Row.entries,Row.refs⟩

/-- The tables of the database. -/
abbrev Tables := Database schema

/-- Why a call fails, the database itself working. -/
inductive Refusal where
  /-- A constraint is violated. -/
  | violation (violation : Violation)
  /-- No index matches a conflict clause. -/
  | unmatched
  /-- The refresh token was used or revoked before. -/
  | tokenUsed
  /-- The name of the registration is taken by now. -/
  | usernameExists
  deriving DecidableEq

/-- `INSERT`. -/
def insert (db : Tables) (row : Row) : Except Refusal Tables :=
  (Database.insert db row).mapError .violation

/-- A change of the columns of a user that no constraint sees. -/
def onUser (f : UserRow → UserRow) : Row → Row
  | .user row => .user {f row with
      id := row.id,username := row.username,oidcSub := row.oidcSub,oidcIssuer := row.oidcIssuer}
  | row => row

/-- A change of the columns of a device that no constraint sees. -/
def onDevice (f : DeviceRow → DeviceRow) : Row → Row
  | .device row => .device {f row with
      id := row.id,userId := row.userId,deviceKey := row.deviceKey}
  | row => row

/-- A change of the time of a cursor. -/
def onCursor (f : Int64 → Int64) (now : Int64) : Row → Row
  | .cursor row => .cursor {row with lastTs := f row.lastTs,updatedAt := now}
  | row => row

/-- `SET revoked = 1`. -/
def revokeToken : Row → Row
  | .refreshToken jti row => .refreshToken jti row.revoke
  | row => row

/-- Write the approval of a code. -/
def bindCode (userId : String) (accessToken refreshToken : Claims) : Row → Row
  | .deviceCode row => .deviceCode {row with
      approvedBy := some userId,accessToken := some accessToken,refreshToken := some refreshToken}
  | row => row

/-- Write a server setting again. -/
def writeSetting (value : String) (now : Int64) : Row → Row
  | .serverSetting row => .serverSetting {row with value := value,updatedAt := now}
  | row => row

/-- Write a setting of the monitor again. -/
def writeMonitor (written : MonitorRow) : Row → Row
  | .monitorSetting row => .monitorSetting {written with userId := row.userId,key := row.key}
  | row => row

/-- The constraints do not see a change that they do not see in any table. -/
theorem invisible_of {f : Row → Row}
    (h : ∀ row, (f row).key=row.key ∧ (f row).entries=row.entries ∧ (f row).refs=row.refs) :
    schema.Invisible f :=
  ⟨fun row => (h row).1,fun row => (h row).2.1,fun row => (h row).2.2⟩

theorem onUser_invisible (f : UserRow → UserRow) : schema.Invisible (onUser f) :=
  invisible_of fun row => by cases row <;> exact ⟨rfl,rfl,rfl⟩

theorem onDevice_invisible (f : DeviceRow → DeviceRow) : schema.Invisible (onDevice f) :=
  invisible_of fun row => by cases row <;> exact ⟨rfl,rfl,rfl⟩

theorem onCursor_invisible (f : Int64 → Int64) (now : Int64) :
    schema.Invisible (onCursor f now) :=
  invisible_of fun row => by cases row <;> exact ⟨rfl,rfl,rfl⟩

theorem revokeToken_invisible : schema.Invisible revokeToken :=
  invisible_of fun row => by cases row <;> exact ⟨rfl,rfl,rfl⟩

theorem bindCode_invisible (userId : String) (accessToken refreshToken : Claims) :
    schema.Invisible (bindCode userId accessToken refreshToken) :=
  invisible_of fun row => by cases row <;> exact ⟨rfl,rfl,rfl⟩

theorem writeSetting_invisible (value : String) (now : Int64) :
    schema.Invisible (writeSetting value now) :=
  invisible_of fun row => by cases row <;> exact ⟨rfl,rfl,rfl⟩

theorem writeMonitor_invisible (written : MonitorRow) :
    schema.Invisible (writeMonitor written) :=
  invisible_of fun row => by cases row <;> exact ⟨rfl,rfl,rfl⟩

/-- `UPDATE … SET … WHERE`, and whether it affects a row. -/
def updateWhere (db : Tables) (p : Row → Bool) (f : Row → Row) (hf : schema.Invisible f) :
    Bool×Tables :=
  (db.rows.any p,db.update (editWhere p f) (hf.editWhere p))

/-- `DELETE … WHERE`, and whether it affects a row. -/
def deleteWhere (db : Tables) (p : Row → Bool) : Bool×Tables := (db.rows.any p,db.delete p)

section

variable (db : Tables)

/-- The user of an id. -/
def getUserById (id : String) : Option UserRow :=
  match db.find (.user id) with
  | some (.user row) => some row
  | _ => none

/-- Whether the user has the role of an administrator. -/
def userIsAdmin (id : String) : Bool := (getUserById db id).any fun row => row.role="admin"

/-- Insert a user. -/
def createUser (id username passwordHash role : String) (now : Int64) : Except Refusal Tables :=
  insert db (.user ⟨id,username,passwordHash,role,now,now,none,none,true⟩)

/-- Delete a user. -/
def deleteUser (id : String) : Bool×Tables := deleteWhere db fun row => row.key=.user id

/-- Change the password of a user. -/
def updatePassword (userId passwordHash : String) (now : Int64) : Tables :=
  (updateWhere db (fun row => row.key=.user userId) _ (onUser_invisible fun row =>
    {row with passwordHash := passwordHash,updatedAt := now})).2

/-- Change the role of a user. -/
def updateUserRole (userId role : String) (now : Int64) : Bool×Tables :=
  updateWhere db (fun row => row.key=.user userId) _ (onUser_invisible fun row =>
    {row with role := role,updatedAt := now})

/-- Activate or deactivate a user. -/
def setUserActive (userId : String) (active : Bool) (now : Int64) : Bool×Tables :=
  updateWhere db (fun row => row.key=.user userId) _ (onUser_invisible fun row =>
    {row with active := active,updatedAt := now})

/-- The user with an issuer and a subject. -/
def findUserByOidc (issuer sub : String) : Option UserRow :=
  db.rows.findSome? fun
    | .user row => if row.subject=some (issuer,sub) then some row else none
    | _ => none

/-- Whether a row is the user with an issuer and a subject. -/
def hasSubject (issuer sub : String) : Row → Bool
  | .user row => row.subject=some (issuer,sub)
  | _ => false

/-- `INSERT … ON CONFLICT (oidc_issuer, oidc_sub) DO UPDATE`. -/
def createOidcUser (backend : OidcAccounts.Backend) (user : NewOidcUser) (now : Int64) :
    Except Refusal Tables :=
  if backend.schema.indexes.any (·.arbitrates ⟨[.oidcIssuer,.oidcSub],none⟩) then
    if db.rows.any (hasSubject user.oidcIssuer user.oidcSub) then
      .ok (updateWhere db (hasSubject user.oidcIssuer user.oidcSub) _
        (onUser_invisible fun row => {row with updatedAt := now})).2
    else insert db (.user (user.row now))
  else .error .unmatched

/-- The device with a key, when it belongs to the user. -/
def findDeviceByKeyAndUser (deviceKey userId : String) : Option String :=
  db.rows.findSome? fun
    | .device row => if row.deviceKey=some deviceKey ∧ row.userId=userId then some row.id else none
    | _ => none

/-- Insert a device. -/
def createDevice (id userId name deviceKey : String) (now : Int64) : Except Refusal Tables :=
  insert db (.device ⟨id,userId,name,some deviceKey,now,now⟩)

/-- Note that a device was seen, under its present name. -/
def updateDeviceSeen (id name : String) (now : Int64) : Tables :=
  (updateWhere db (fun row => row.key=.device id) _ (onDevice_invisible fun row =>
    {row with lastSeenAt := now,name := name})).2

/-- Owner of a device. -/
def deviceOwner (id : String) : Option String :=
  match db.find (.device id) with
  | some (.device row) => some row.userId
  | _ => none

/-- Whether a row is the device of an id and belongs to the user. -/
def isUserDevice (id userId : String) : Row → Bool
  | .device row => row.id=id && row.userId=userId
  | _ => false

/-- Delete a device. -/
def deleteDevice (id : String) : Bool×Tables := deleteWhere db fun row => row.key=.device id

/-- Delete a device of a user. -/
def deleteUserDevice (id userId : String) : Bool×Tables := deleteWhere db (isUserDevice id userId)

/-- Whether a device belongs to a user. -/
def deviceBelongsToUser (id userId : String) : Bool := db.rows.any (isUserDevice id userId)

/-- Rename a device of a user. -/
def renameDevice (id userId name : String) : Bool×Tables :=
  updateWhere db (isUserDevice id userId) _ (onDevice_invisible fun row => {row with name := name})

/-- Ids of the devices of a user. -/
def getUserDeviceIds (userId : String) : List String :=
  db.rows.filterMap fun
    | .device row => if row.userId=userId then some row.id else none
    | _ => none

/-- `INSERT OR IGNORE` of a cursor. -/
def ensureCursor (deviceId provider : String) (now : Int64) : Except Refusal Tables :=
  (db.insertOrIgnore (.cursor ⟨deviceId,provider,0,now⟩)).mapError .violation

/-- Time of a cursor, zero without a row. -/
def getLastTs (deviceId provider : String) : Int64 :=
  match db.find (.cursor deviceId provider) with
  | some (.cursor row) => row.lastTs
  | _ => 0

/-- Raise the time of a cursor. -/
def advanceCursor (deviceId provider : String) (ts now : Int64) : Tables :=
  (updateWhere db (fun row => row.key=.cursor deviceId provider) _
    (onCursor_invisible (fun lastTs => max lastTs ts) now)).2

/-- Set a cursor to zero. -/
def resetCursor (deviceId provider : String) (now : Int64) : Tables :=
  (updateWhere db (fun row => row.key=.cursor deviceId provider) _
    (onCursor_invisible (fun _ => 0) now)).2

/-- Insert a team. -/
def createTeam (id name : String) (now : Int64) : Except Refusal Tables :=
  insert db (.team ⟨id,name,now,now⟩)

/-- Delete a team. -/
def deleteTeam (id : String) : Bool×Tables := deleteWhere db fun row => row.key=.team id

/-- Insert a membership. -/
def addTeamMember (teamId userId role : String) (now : Int64) : Except Refusal Tables :=
  insert db (.teamMember ⟨teamId,userId,role,now⟩)

/-- Delete a membership. -/
def removeTeamMember (teamId userId : String) : Bool×Tables :=
  deleteWhere db fun row => row.key=.teamMember teamId userId

/-- Role of a user in a team. -/
def getTeamMemberRole (teamId userId : String) : Option String :=
  match db.find (.teamMember teamId userId) with
  | some (.teamMember row) => some row.role
  | _ => none

/-- Insert a waiting registration. -/
def createPendingRegistration (id username passwordHash : String) (now : Int64) :
    Except Refusal Tables :=
  insert db (.pendingRegistration ⟨id,username,passwordHash,now⟩)

/-- Whether a row is a user of a name. -/
def hasUsername (username : String) : Row → Bool
  | .user row => row.username=username
  | _ => false

/-- Turn a waiting registration into a user, in one transaction. -/
def approveRegistration (id userId : String) (now : Int64) : Except Refusal (Bool×Tables) :=
  match db.find (.pendingRegistration id) with
  | some (.pendingRegistration row) =>
    if db.rows.any (hasUsername row.username) then .error .usernameExists
    else do
      let db ← createUser db userId row.username row.passwordHash "user" now
      pure (true,(deleteWhere db fun other => other.key=.pendingRegistration row.id).2)
  | _ => .ok (false,db)

/-- Delete a waiting registration. -/
def rejectRegistration (id : String) : Bool×Tables :=
  deleteWhere db fun row => row.key=.pendingRegistration id

/-- Whether a row is a registration of before a time. -/
def isOldPending (cutoff : Int64) : Row → Bool
  | .pendingRegistration row => row.requestedAt< cutoff
  | _ => false

/-- Delete the registrations that wait too long. -/
def cleanupOldPendingRegistrations (maxAgeSecs now : Int64) : Tables :=
  (deleteWhere db (isOldPending (now-maxAgeSecs))).2

/-- Insert a refresh token. -/
def storeRefreshToken (jti userId : String) (deviceId : Option String) (expiresAt now : Int64) :
    Except Refusal Tables :=
  insert db (.refreshToken jti (freshRow userId deviceId expiresAt now))

/-- Whether a refresh token is unusable; a missing one is. -/
def isRefreshTokenRevoked (jti : String) : Bool :=
  match db.find (.refreshToken jti) with
  | some (.refreshToken _ row) => row.revoked
  | _ => true

/-- Revoke a refresh token. -/
def revokeRefreshToken (jti : String) : Tables :=
  (updateWhere db (fun row => row.key=.refreshToken jti) _ revokeToken_invisible).2

/-- Whether a row is an unrevoked refresh token of a user. -/
def isRevocable (userId : String) : Row → Bool
  | .refreshToken _ row => revocable userId row
  | _ => false

/-- Revoke the unrevoked refresh tokens of a user. -/
def revokeUserRefreshTokens (userId : String) : Tables :=
  (updateWhere db (isRevocable userId) _ revokeToken_invisible).2

/-- Revoke a refresh token and insert its successor, in one transaction. -/
def rotateRefreshToken (oldJti newJti userId : String) (deviceId : Option String)
    (expiresAt now : Int64) : Except Refusal Tables :=
  if isRefreshTokenRevoked db oldJti then .error .tokenUsed
  else storeRefreshToken (revokeRefreshToken db oldJti) newJti userId deviceId expiresAt now

/-- Whether a row is a refresh token that is expired or revoked. -/
def isSpentToken (now : Int64) : Row → Bool
  | .refreshToken _ row => row.expiresAt< now || row.revoked
  | _ => false

/-- Delete the refresh tokens that are expired or revoked. -/
def cleanupExpiredTokens (now : Int64) : Tables := (deleteWhere db (isSpentToken now)).2

/-- Insert a code of the device grant. -/
def createDeviceCode (deviceCode userCode : String) (expiresAt : Int64) : Except Refusal Tables :=
  insert db (.deviceCode ⟨deviceCode,userCode,expiresAt,none,none,none⟩)

/-- Whether a row is a code that is not approved yet. -/
def isOpenCode (userCode : String) : Row → Bool
  | .deviceCode row => row.userCode=userCode && row.approvedBy.isNone
  | _ => false

/-- Approve a code that is not approved yet. -/
def approveDeviceCode (userCode userId : String) (accessToken refreshToken : Claims) :
    Bool×Tables :=
  updateWhere db (isOpenCode userCode) _ (bindCode_invisible userId accessToken refreshToken)

/-- Delete a code. -/
def deleteDeviceCode (deviceCode : String) : Tables :=
  (deleteWhere db fun row => row.key=.deviceCode deviceCode).2

/-- Whether a row is an expired code. -/
def isExpiredCode (now : Int64) : Row → Bool
  | .deviceCode row => row.expiresAt< now
  | _ => false

/-- Delete the expired codes. -/
def cleanupExpiredDeviceCodes (now : Int64) : Tables := (deleteWhere db (isExpiredCode now)).2

/-- Value of a server setting. -/
def getServerSetting (key : String) : Option String :=
  match db.find (.serverSetting key) with
  | some (.serverSetting row) => some row.value
  | _ => none

/-- Insert a server setting or write it again. -/
def setServerSetting (key value : String) (now : Int64) : Except Refusal Tables :=
  if db.has (.serverSetting key) then
    .ok (updateWhere db (fun row => row.key=.serverSetting key) _
      (writeSetting_invisible value now)).2
  else insert db (.serverSetting ⟨key,value,now⟩)

/-- The row of a setting of the monitor. -/
def Row.monitor : Row → Option MonitorRow
  | .monitorSetting row => some row
  | _ => none

theorem key_of_monitor {row : Row} {setting : MonitorRow} (h : row.monitor=some setting) :
    row.key=.monitorSetting setting.userId setting.key := by
  cases row with
  | monitorSetting row =>
    cases h
    rfl
  | _ => cases h

/-- The table of the settings of the monitor. -/
def monitorTable : MonitorTable where
  rows := db.rows.filterMap Row.monitor
  unique := by
    refine List.Nodup.map_on ?_ ?_
    · intro a ha b hb hkey
      obtain ⟨row,hrow,ha⟩ := List.mem_filterMap.mp ha
      obtain ⟨other,hother,hb⟩ := List.mem_filterMap.mp hb
      have hsame : row=other := by
        refine db.eq_of_key hrow hother ?_
        have hkeys : a.userId=b.userId ∧ a.key=b.key := by simpa [MonitorRow.primaryKey] using hkey
        show row.key=other.key
        rw [key_of_monitor ha,key_of_monitor hb,hkeys.1,hkeys.2]
      rw [hsame,hb] at ha
      exact (Option.some.inj ha).symm
    · refine (List.Nodup.of_map _ db.consistent.keys).filterMap ?_
      intro row other setting hrow hother
      cases row <;> cases other <;> simp_all [Row.monitor]

/-- Write a setting of the monitor, in one transaction. -/
def upsertMonitorSetting (userId key value : String) (ifVersion : Option ℤ) (quota : MonitorQuota)
    (now : ℤ) : Except Refusal (MonitorWriteOutcome×Tables) :=
  let table := monitorTable db
  match (MonitorSettings.upsertMonitorSetting table userId key value ifVersion quota now).1 with
  | .written version updatedAt previous =>
    let row := nextRow table userId key value now
    if db.has (.monitorSetting userId key) then
      .ok (.written version updatedAt previous,(updateWhere db
        (fun other => other.key=.monitorSetting userId key) _ (writeMonitor_invisible row)).2)
    else (insert db (.monitorSetting row)).map fun db => (.written version updatedAt previous,db)
  | outcome => .ok (outcome,db)

/-- Delete a setting of the monitor, in one transaction. -/
def deleteMonitorSetting (userId key : String) (ifVersion : Option ℤ) :
    MonitorDeleteOutcome×Tables :=
  ((MonitorSettings.deleteMonitorSetting (monitorTable db) userId key ifVersion).1,
    (deleteWhere db fun row => row.monitor.any (affected userId key ifVersion)).2)

/-- Whether a row is a user. -/
def Row.isUser : Row → Bool
  | .user _ => true
  | _ => false

/-- The end of the migrations: an administrator when there is no user. -/
def seed (id passwordHash : String) (now : Int64) : Except Refusal Tables :=
  if db.rows.any Row.isUser then .ok db
  else insert db (.user ⟨id,"admin",passwordHash,"admin",now,now,none,none,true⟩)

end

end TokiSync.DatabaseRepo
