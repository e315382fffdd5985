import TokiSync.DatabaseRuns

/-!
# Calls of the repository and their results

What the handlers of web requests read of the database, row by row or in lists
that are ordered by a time, and what they are told of a write. A write that
says it has found nothing has changed nothing.
-/

namespace TokiSync.DatabaseCalls

open ReferencedRows DatabaseRepo DatabaseRuns
open DeviceGrant (DeviceCode)
open MonitorSettings (MonitorRow MonitorWriteOutcome MonitorDeleteOutcome owned usage)
open OidcAccounts (UserRow)

/-- What a list shows of a user. -/
structure UserSummary where
  id : String
  username : String
  role : String
  createdAt : Int64
  active : Bool

/-- What the owner is shown of a device. -/
structure DeviceSummary where
  id : String
  name : String
  deviceKey : String
  lastSeenAt : Int64

/-- What an administrator is shown of a device. -/
structure DeviceAdminSummary where
  id : String
  name : String
  username : String
  lastSeenAt : Int64

/-- A team and how many members it has. -/
structure TeamWithCount where
  id : String
  name : String
  memberCount : ℕ
  createdAt : Int64

/-- A team of a user. -/
structure TeamMembership where
  teamId : String
  teamName : String
  role : String

/-- A member of a team. -/
structure TeamMemberSummary where
  userId : String
  username : String
  role : String
  joinedAt : Int64

/-- What a list shows of a waiting registration. -/
structure PendingRegistration where
  id : String
  username : String
  requestedAt : Int64

section

variable (db : Tables)

/-- The user of a row. -/
def Row.user? : Row → Option UserRow
  | .user row => some row
  | _ => none

/-- The device of a row. -/
def Row.device? : Row → Option DeviceRow
  | .device row => some row
  | _ => none

/-- The team of a row. -/
def Row.team? : Row → Option TeamRow
  | .team row => some row
  | _ => none

/-- The membership of a row. -/
def Row.member? : Row → Option MemberRow
  | .teamMember row => some row
  | _ => none

/-- The code of a row. -/
def Row.deviceCode? : Row → Option DeviceCode
  | .deviceCode row => some row
  | _ => none

/-- The registration of a row. -/
def Row.pending? : Row → Option PendingRow
  | .pendingRegistration row => some row
  | _ => none

/-- The user of a login name. -/
def getUserByUsername (username : String) : Option UserRow :=
  (db.rows.filterMap Row.user?).find? fun row => row.username=username

/-- The users. -/
def listUsers : List UserSummary :=
  (db.rows.filterMap Row.user?).map fun row =>
    ⟨row.id,row.username,row.role,row.createdAt,row.active⟩

/-- The devices of a user. -/
def listUserDevices (userId : String) : List DeviceSummary :=
  ((db.rows.filterMap Row.device?).filter fun row => row.userId=userId).map fun row =>
    ⟨row.id,row.name,row.deviceKey.getD "",row.lastSeenAt⟩

/-- All devices with the names of their owners. -/
def listAllDevices : List DeviceAdminSummary :=
  (db.rows.filterMap Row.device?).filterMap fun row =>
    (getUserById db row.userId).map fun user => ⟨row.id,row.name,user.username,row.lastSeenAt⟩

/-- The team of an id. -/
def getTeam (id : String) : Option TeamRow := (db.find (.team id)).bind Row.team?

/-- The teams with their numbers of members. -/
def listTeamsWithMemberCount : List TeamWithCount :=
  (db.rows.filterMap Row.team?).map fun row =>
    ⟨row.id,row.name,
      ((db.rows.filterMap Row.member?).filter fun member => member.teamId=row.id).length,
      row.createdAt⟩

/-- The teams of a user. -/
def listUserTeams (userId : String) : List TeamMembership :=
  ((db.rows.filterMap Row.member?).filter fun row => row.userId=userId).filterMap fun row =>
    (getTeam db row.teamId).map fun team => ⟨row.teamId,team.name,row.role⟩

/-- The members of a team. -/
def listTeamMembers (teamId : String) : List TeamMemberSummary :=
  ((db.rows.filterMap Row.member?).filter fun row => row.teamId=teamId).filterMap fun row =>
    (getUserById db row.userId).map fun user => ⟨row.userId,user.username,row.role,row.joinedAt⟩

/-- The waiting registrations. -/
def listPendingRegistrations : List PendingRegistration :=
  (db.rows.filterMap Row.pending?).map fun row => ⟨row.id,row.username,row.requestedAt⟩

/-- The code a device polls with. -/
def getDeviceCode (deviceCode : String) : Option DeviceCode :=
  (db.find (.deviceCode deviceCode)).bind Row.deviceCode?

/-- The code a user types. -/
def getDeviceCodeByUserCode (userCode : String) : Option DeviceCode :=
  (db.rows.filterMap Row.deviceCode?).find? fun row => row.userCode=userCode

/-- Number of active administrators with another name. -/
def countActiveAdminsExcept (username : String) : ℕ :=
  ((db.rows.filterMap Row.user?).filter fun row =>
    row.role="admin" && row.active && row.username≠username).length

end

/-- A read of the repository. -/
inductive Query where
  | healthCheck
  | getUserById (id : String)
  | getUserByUsername (username : String)
  | userIsAdmin (userId : String)
  | countActiveAdminsExcept (username : String)
  | listUsers
  | findUserByOidc (issuer sub : String)
  | findDeviceByKeyAndUser (deviceKey userId : String)
  | deviceBelongsToUser (deviceId userId : String)
  | getUserDeviceIds (userId : String)
  | listUserDevices (userId : String)
  | listAllDevices
  | getTeam (id : String)
  | getTeamMemberRole (teamId userId : String)
  | listTeamsWithMemberCount
  | listUserTeams (userId : String)
  | listTeamMembers (teamId : String)
  | listPendingRegistrations
  | getDeviceCode (deviceCode : String)
  | getDeviceCodeByUserCode (userCode : String)
  | getServerSetting (key : String)
  | getMonitorSetting (userId key : String)
  | listMonitorSettings (userId : String)
  | monitorSettingsUsage (userId : String)

/-- What a read gives. -/
@[reducible] def Query.Result : Query → Type
  | .healthCheck => Unit
  | .getUserById _ => Option UserRow
  | .getUserByUsername _ => Option UserRow
  | .userIsAdmin _ => Bool
  | .countActiveAdminsExcept _ => ℕ
  | .listUsers => List UserSummary
  | .findUserByOidc _ _ => Option UserRow
  | .findDeviceByKeyAndUser _ _ => Option String
  | .deviceBelongsToUser _ _ => Bool
  | .getUserDeviceIds _ => List String
  | .listUserDevices _ => List DeviceSummary
  | .listAllDevices => List DeviceAdminSummary
  | .getTeam _ => Option TeamRow
  | .getTeamMemberRole _ _ => Option String
  | .listTeamsWithMemberCount => List TeamWithCount
  | .listUserTeams _ => List TeamMembership
  | .listTeamMembers _ => List TeamMemberSummary
  | .listPendingRegistrations => List PendingRegistration
  | .getDeviceCode _ => Option DeviceCode
  | .getDeviceCodeByUserCode _ => Option DeviceCode
  | .getServerSetting _ => Option String
  | .getMonitorSetting _ _ => Option MonitorRow
  | .listMonitorSettings _ => List MonitorRow
  | .monitorSettingsUsage _ => ℤ×ℤ

/-- A list in some order. -/
def Lists {β : Type} (rows result : List β) : Prop := result.Perm rows

/-- A list in ascending order. -/
def Ascending {β : Type} (time : β → Int64) (rows result : List β) : Prop :=
  result.Perm rows ∧ result.Pairwise fun a b => time a≤time b

/-- A list in descending order. -/
def Descending {β : Type} (time : β → Int64) (rows result : List β) : Prop :=
  result.Perm rows ∧ result.Pairwise fun a b => time b≤time a

/-- What a read may give. Texts are ordered by the collation of the database,
and what is equal in the order is in any order. -/
def Query.Answers (db : Tables) : (q : Query) → q.Result → Prop
  | .healthCheck, _ => True
  | .getUserById id, r => r=DatabaseRepo.getUserById db id
  | .getUserByUsername username, r => r=DatabaseCalls.getUserByUsername db username
  | .userIsAdmin userId, r => r=DatabaseRepo.userIsAdmin db userId
  | .countActiveAdminsExcept username, r => r=DatabaseCalls.countActiveAdminsExcept db username
  | .listUsers, r => Ascending UserSummary.createdAt (DatabaseCalls.listUsers db) r
  | .findUserByOidc issuer sub, r => r=DatabaseRepo.findUserByOidc db issuer sub
  | .findDeviceByKeyAndUser deviceKey userId, r =>
    r=DatabaseRepo.findDeviceByKeyAndUser db deviceKey userId
  | .deviceBelongsToUser deviceId userId, r => r=DatabaseRepo.deviceBelongsToUser db deviceId userId
  | .getUserDeviceIds userId, r => Lists (DatabaseRepo.getUserDeviceIds db userId) r
  | .listUserDevices userId, r =>
    Descending DeviceSummary.lastSeenAt (DatabaseCalls.listUserDevices db userId) r
  | .listAllDevices, r =>
    Descending DeviceAdminSummary.lastSeenAt (DatabaseCalls.listAllDevices db) r
  | .getTeam id, r => r=DatabaseCalls.getTeam db id
  | .getTeamMemberRole teamId userId, r => r=DatabaseRepo.getTeamMemberRole db teamId userId
  | .listTeamsWithMemberCount, r =>
    Ascending TeamWithCount.createdAt (DatabaseCalls.listTeamsWithMemberCount db) r
  | .listUserTeams userId, r => Lists (DatabaseCalls.listUserTeams db userId) r
  | .listTeamMembers teamId, r =>
    Ascending TeamMemberSummary.joinedAt (DatabaseCalls.listTeamMembers db teamId) r
  | .listPendingRegistrations, r =>
    Ascending PendingRegistration.requestedAt (DatabaseCalls.listPendingRegistrations db) r
  | .getDeviceCode deviceCode, r => r=DatabaseCalls.getDeviceCode db deviceCode
  | .getDeviceCodeByUserCode userCode, r => r=DatabaseCalls.getDeviceCodeByUserCode db userCode
  | .getServerSetting key, r => r=DatabaseRepo.getServerSetting db key
  | .getMonitorSetting userId key, r => r=(monitorTable db).find (userId,key)
  | .listMonitorSettings userId, r => Lists (owned (monitorTable db) userId) r
  | .monitorSettingsUsage userId, r => r=usage (monitorTable db) userId

/-- What a write tells. -/
@[reducible] def Write.Result : Write → Type
  | .upsertMonitorSetting _ _ _ _ _ _ => MonitorWriteOutcome
  | .deleteMonitorSetting _ _ _ => MonitorDeleteOutcome
  | _ => Bool

/-- A write that tells nothing but its success. -/
def done (result : Except Refusal Tables) : Except Refusal (Bool×Tables) :=
  result.map fun db => (true,db)

/-- A write with what it tells; a refused one is rolled back. -/
def attempt (backend : OidcAccounts.Backend) (db : Tables) :
    (w : Write) → Except Refusal (Write.Result w×Tables)
  | .createUser id username passwordHash role now =>
    done (createUser db id username passwordHash role now)
  | .deleteUser id => .ok (deleteUser db id)
  | .updatePassword userId passwordHash now => .ok (true,updatePassword db userId passwordHash now)
  | .updateUserRole userId role now => .ok (updateUserRole db userId role now)
  | .setUserActive userId active now => .ok (setUserActive db userId active now)
  | .createOidcUser user now => done (createOidcUser db backend user now)
  | .createDevice id userId name deviceKey now =>
    done (createDevice db id userId name deviceKey now)
  | .updateDeviceSeen id name now => .ok (true,updateDeviceSeen db id name now)
  | .deleteDevice id => .ok (deleteDevice db id)
  | .deleteUserDevice id userId => .ok (deleteUserDevice db id userId)
  | .renameDevice id userId name => .ok (renameDevice db id userId name)
  | .ensureCursor deviceId provider now => done (ensureCursor db deviceId provider now)
  | .advanceCursor deviceId provider ts now => .ok (true,advanceCursor db deviceId provider ts now)
  | .resetCursor deviceId provider now => .ok (true,resetCursor db deviceId provider now)
  | .createTeam id name now => done (createTeam db id name now)
  | .deleteTeam id => .ok (deleteTeam db id)
  | .addTeamMember teamId userId role now => done (addTeamMember db teamId userId role now)
  | .removeTeamMember teamId userId => .ok (removeTeamMember db teamId userId)
  | .createPendingRegistration id username passwordHash now =>
    done (createPendingRegistration db id username passwordHash now)
  | .approveRegistration id userId now => approveRegistration db id userId now
  | .rejectRegistration id => .ok (rejectRegistration db id)
  | .cleanupOldPendingRegistrations maxAgeSecs now =>
    .ok (true,cleanupOldPendingRegistrations db maxAgeSecs now)
  | .storeRefreshToken jti userId deviceId expiresAt now =>
    done (storeRefreshToken db jti userId deviceId expiresAt now)
  | .revokeRefreshToken jti => .ok (true,revokeRefreshToken db jti)
  | .revokeUserRefreshTokens userId => .ok (true,revokeUserRefreshTokens db userId)
  | .rotateRefreshToken oldJti newJti userId deviceId expiresAt now =>
    done (rotateRefreshToken db oldJti newJti userId deviceId expiresAt now)
  | .cleanupExpiredTokens now => .ok (true,cleanupExpiredTokens db now)
  | .createDeviceCode deviceCode userCode expiresAt =>
    done (createDeviceCode db deviceCode userCode expiresAt)
  | .approveDeviceCode userCode userId accessToken refreshToken =>
    .ok (approveDeviceCode db userCode userId accessToken refreshToken)
  | .deleteDeviceCode deviceCode => .ok (true,deleteDeviceCode db deviceCode)
  | .cleanupExpiredDeviceCodes now => .ok (true,cleanupExpiredDeviceCodes db now)
  | .setServerSetting key value now => done (setServerSetting db key value now)
  | .upsertMonitorSetting userId key value ifVersion quota now =>
    upsertMonitorSetting db userId key value ifVersion quota now
  | .deleteMonitorSetting userId key ifVersion => .ok (deleteMonitorSetting db userId key ifVersion)
  | .seed id passwordHash now => done (seed db id passwordHash now)

/-- What a write tells when it has found nothing to change. -/
def Write.Idle : (w : Write) → Write.Result w → Prop
  | .deleteUser _, r => r=false
  | .updateUserRole _ _ _, r => r=false
  | .setUserActive _ _ _, r => r=false
  | .deleteDevice _, r => r=false
  | .deleteUserDevice _ _, r => r=false
  | .renameDevice _ _ _, r => r=false
  | .deleteTeam _, r => r=false
  | .removeTeamMember _ _, r => r=false
  | .approveRegistration _ _ _, r => r=false
  | .rejectRegistration _, r => r=false
  | .approveDeviceCode _ _ _ _, r => r=false
  | .upsertMonitorSetting _ _ _ _ _ _, r => ∀ version updatedAt previous,
      r≠.written version updatedAt previous
  | .deleteMonitorSetting _ _ _, r => r≠.deleted
  | _, _ => False

section

variable {backend : OidcAccounts.Backend} {db db' : Tables}

theorem cascade_nil (fuel : ℕ) (rows : List Row) : cascade schema fuel [] rows=rows := by
  cases fuel with
  | zero => rfl
  | succ fuel =>
    have hnone : rows.any (refersTo schema [])=false :=
      List.any_eq_false.mpr fun row _ h => by
        obtain ⟨k,-,hk⟩ := refersTo_iff.mp h
        cases hk
    rw [cascade,hnone]
    rfl

/-- Success alone leaves the tables of the write. -/
theorem unlessRefused_done (result : Except Refusal Tables) (f : Tables → Tables) :
    unlessRefused db (done result) (fun r => f r.2)=unlessRefused db result f := by
  cases result <;> rfl

/-- A write with a result leaves what it leaves without. -/
theorem perform_eq_attempt (backend : OidcAccounts.Backend) (db : Tables) (w : Write) :
    perform backend db w=unlessRefused db (attempt backend db w) Prod.snd := by
  cases w with
  | createUser | createOidcUser | createDevice | ensureCursor | createTeam | addTeamMember
  | createPendingRegistration | storeRefreshToken | rotateRefreshToken | createDeviceCode
  | setServerSetting | seed => exact (unlessRefused_done _ _).symm
  | _ => rfl

/-- A deletion that selects nothing leaves the tables. -/
theorem deleteWhere_idle {p : Row → Bool} (h : (deleteWhere db p).1=false) :
    (deleteWhere db p).2=db := by
  have hnone : ∀ row∈db.rows, ¬p row=true := List.any_eq_false.mp h
  refine Database.ext_rows ?_
  have hdead : db.rows.filter p=[] := List.filter_eq_nil_iff.mpr hnone
  have hkept : db.rows.filter (fun row => !p row)=db.rows :=
    List.filter_eq_self.mpr fun row hrow => by simpa using hnone row hrow
  show survivors schema db.rows p=db.rows
  rw [survivors,hdead,hkept]
  exact cascade_nil _ _

/-- An update that selects nothing leaves the tables. -/
theorem updateWhere_idle {p : Row → Bool} {f : Row → Row} {hf : schema.Invisible f}
    (h : (updateWhere db p f hf).1=false) : (updateWhere db p f hf).2=db := by
  have hnone : ∀ row∈db.rows, ¬p row=true := List.any_eq_false.mp h
  refine Database.ext_rows ?_
  show db.rows.map (editWhere p f)=db.rows
  calc db.rows.map (editWhere p f)=db.rows.map id :=
        List.map_congr_left fun row hrow => if_neg (hnone row hrow)
    _=db.rows := List.map_id _

/-- No waiting registration, no change. -/
theorem approveRegistration_idle {id userId : String} {now : Int64}
    (h : approveRegistration db id userId now=.ok (false,db')) : db'=db := by
  unfold approveRegistration at h
  split at h
  · rename_i row hfind
    split at h
    · cases h
    · cases hcreate : createUser db userId row.username row.passwordHash "user" now with
      | error e =>
        rw [hcreate] at h
        cases h
      | ok created =>
        rw [hcreate] at h
        cases h
  · cases h
    rfl

/-- Only a setting that is written changes the tables. -/
theorem upsertMonitorSetting_idle {userId key value : String} {ifVersion : Option ℤ}
    {quota : MonitorSettings.MonitorQuota} {now : ℤ} {r : MonitorWriteOutcome}
    (h : upsertMonitorSetting db userId key value ifVersion quota now=.ok (r,db'))
    (hidle : ∀ version updatedAt previous, r≠.written version updatedAt previous) : db'=db := by
  unfold upsertMonitorSetting at h
  dsimp only at h
  split at h
  · split at h
    · cases h
      exact absurd rfl (hidle _ _ _)
    · cases hinsert : DatabaseRepo.insert db (Row.monitorSetting (MonitorSettings.nextRow
          (monitorTable db) userId key value now)) with
      | error e =>
        rw [hinsert] at h
        cases h
      | ok inserted =>
        rw [hinsert] at h
        cases h
        exact absurd rfl (hidle _ _ _)
  · cases h
    rfl

/-- Only a setting that is deleted changes the tables. -/
theorem deleteMonitorSetting_idle {userId key : String} {ifVersion : Option ℤ}
    (hidle : (deleteMonitorSetting db userId key ifVersion).1≠.deleted) :
    (deleteMonitorSetting db userId key ifVersion).2=db := by
  refine deleteWhere_idle ?_
  cases hany : (deleteWhere db fun row =>
      row.monitor.any (MonitorSettings.affected userId key ifVersion)).1 with
  | false => rfl
  | true =>
    obtain ⟨row,hrow,hselected⟩ := List.any_eq_true.mp hany
    obtain ⟨setting,hsetting,haffected⟩ := (Option.any_eq_true _ _).mp hselected
    have hmem : setting∈(monitorTable db).rows := List.mem_filterMap.mpr ⟨row,hrow,hsetting⟩
    refine absurd ?_ hidle
    unfold deleteMonitorSetting MonitorSettings.deleteMonitorSetting
    rw [if_pos (List.any_eq_true.mpr ⟨setting,hmem,haffected⟩)]

/-- A write that has found nothing leaves the tables. -/
theorem attempt_idle {w : Write} {r : Write.Result w} (h : attempt backend db w=.ok (r,db'))
    (hidle : Write.Idle w r) : db'=db := by
  have hdelete : ∀ {p : Row → Bool} {r : Bool}, Except.ok (ε:=Refusal) (deleteWhere db p)=
      .ok (r,db') → r=false → db'=db := by
    intro p r h hr
    cases h
    exact deleteWhere_idle hr
  have hupdate : ∀ {p : Row → Bool} {f : Row → Row} {hf : schema.Invisible f} {r : Bool},
      Except.ok (ε:=Refusal) (updateWhere db p f hf)=.ok (r,db') → r=false → db'=db := by
    intro p f hf r h hr
    cases h
    exact @updateWhere_idle db p f hf hr
  cases w with
  | deleteUser | deleteDevice | deleteUserDevice | deleteTeam | removeTeamMember
  | rejectRegistration => exact hdelete h hidle
  | updateUserRole | setUserActive | renameDevice | approveDeviceCode => exact hupdate h hidle
  | approveRegistration =>
    have hr : r=false := hidle
    subst hr
    exact approveRegistration_idle h
  | upsertMonitorSetting => exact upsertMonitorSetting_idle h hidle
  | deleteMonitorSetting =>
    cases h
    exact deleteMonitorSetting_idle hidle
  | _ => exact hidle.elim

end

end TokiSync.DatabaseCalls
