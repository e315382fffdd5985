import TokiSync.DatabaseRepo

/-!
# Deletions and runs of the database

The deletion of a user takes the devices of the user, their cursors, and the
tokens, memberships and settings of the user, and nothing else. What has been
deleted cannot be referred to again before it is inserted again, whatever calls
the repository gets in between.
-/

namespace TokiSync.DatabaseRuns

open Runs ReferencedRows DatabaseRepo
open DeviceGrant (Claims DeviceCode)
open MonitorSettings (MonitorRow MonitorQuota)
open OidcAccounts (UserRow NewOidcUser)

/-- A call of the repository that may write. -/
inductive Write where
  | createUser (id username passwordHash role : String) (now : Int64)
  | deleteUser (id : String)
  | updatePassword (userId passwordHash : String) (now : Int64)
  | updateUserRole (userId role : String) (now : Int64)
  | setUserActive (userId : String) (active : Bool) (now : Int64)
  | createOidcUser (user : NewOidcUser) (now : Int64)
  | createDevice (id userId name deviceKey : String) (now : Int64)
  | updateDeviceSeen (id name : String) (now : Int64)
  | deleteDevice (id : String)
  | deleteUserDevice (id userId : String)
  | renameDevice (id userId name : String)
  | ensureCursor (deviceId provider : String) (now : Int64)
  | advanceCursor (deviceId provider : String) (ts now : Int64)
  | resetCursor (deviceId provider : String) (now : Int64)
  | createTeam (id name : String) (now : Int64)
  | deleteTeam (id : String)
  | addTeamMember (teamId userId role : String) (now : Int64)
  | removeTeamMember (teamId userId : String)
  | createPendingRegistration (id username passwordHash : String) (now : Int64)
  | approveRegistration (id userId : String) (now : Int64)
  | rejectRegistration (id : String)
  | cleanupOldPendingRegistrations (maxAgeSecs now : Int64)
  | storeRefreshToken (jti userId : String) (deviceId : Option String) (expiresAt now : Int64)
  | revokeRefreshToken (jti : String)
  | revokeUserRefreshTokens (userId : String)
  | rotateRefreshToken (oldJti newJti userId : String) (deviceId : Option String)
    (expiresAt now : Int64)
  | cleanupExpiredTokens (now : Int64)
  | createDeviceCode (deviceCode userCode : String) (expiresAt : Int64)
  | approveDeviceCode (userCode userId : String) (accessToken refreshToken : Claims)
  | deleteDeviceCode (deviceCode : String)
  | cleanupExpiredDeviceCodes (now : Int64)
  | setServerSetting (key value : String) (now : Int64)
  | upsertMonitorSetting (userId key value : String) (ifVersion : Option ℤ) (quota : MonitorQuota)
    (now : ℤ)
  | deleteMonitorSetting (userId key : String) (ifVersion : Option ℤ)
  | seed (id passwordHash : String) (now : Int64)

/-- The tables after a call that may be refused; a refused one is rolled back. -/
def unlessRefused {α : Type} (db : Tables) (result : Except Refusal α) (tables : α → Tables) :
    Tables :=
  match result with
  | .ok value => tables value
  | .error _ => db

/-- The tables after a call. -/
def perform (backend : OidcAccounts.Backend) (db : Tables) : Write → Tables
  | .createUser id username passwordHash role now =>
    unlessRefused db (createUser db id username passwordHash role now) fun db => db
  | .deleteUser id => (deleteUser db id).2
  | .updatePassword userId passwordHash now => updatePassword db userId passwordHash now
  | .updateUserRole userId role now => (updateUserRole db userId role now).2
  | .setUserActive userId active now => (setUserActive db userId active now).2
  | .createOidcUser user now => unlessRefused db (createOidcUser db backend user now) id
  | .createDevice id userId name deviceKey now =>
    unlessRefused db (createDevice db id userId name deviceKey now) fun db => db
  | .updateDeviceSeen id name now => updateDeviceSeen db id name now
  | .deleteDevice id => (deleteDevice db id).2
  | .deleteUserDevice id userId => (deleteUserDevice db id userId).2
  | .renameDevice id userId name => (renameDevice db id userId name).2
  | .ensureCursor deviceId provider now =>
    unlessRefused db (ensureCursor db deviceId provider now) id
  | .advanceCursor deviceId provider ts now => advanceCursor db deviceId provider ts now
  | .resetCursor deviceId provider now => resetCursor db deviceId provider now
  | .createTeam id name now => unlessRefused db (createTeam db id name now) fun db => db
  | .deleteTeam id => (deleteTeam db id).2
  | .addTeamMember teamId userId role now =>
    unlessRefused db (addTeamMember db teamId userId role now) id
  | .removeTeamMember teamId userId => (removeTeamMember db teamId userId).2
  | .createPendingRegistration id username passwordHash now =>
    unlessRefused db (createPendingRegistration db id username passwordHash now) fun db => db
  | .approveRegistration id userId now =>
    unlessRefused db (approveRegistration db id userId now) Prod.snd
  | .rejectRegistration id => (rejectRegistration db id).2
  | .cleanupOldPendingRegistrations maxAgeSecs now =>
    cleanupOldPendingRegistrations db maxAgeSecs now
  | .storeRefreshToken jti userId deviceId expiresAt now =>
    unlessRefused db (storeRefreshToken db jti userId deviceId expiresAt now) id
  | .revokeRefreshToken jti => revokeRefreshToken db jti
  | .revokeUserRefreshTokens userId => revokeUserRefreshTokens db userId
  | .rotateRefreshToken oldJti newJti userId deviceId expiresAt now =>
    unlessRefused db (rotateRefreshToken db oldJti newJti userId deviceId expiresAt now) id
  | .cleanupExpiredTokens now => cleanupExpiredTokens db now
  | .createDeviceCode deviceCode userCode expiresAt =>
    unlessRefused db (createDeviceCode db deviceCode userCode expiresAt) id
  | .approveDeviceCode userCode userId accessToken refreshToken =>
    (approveDeviceCode db userCode userId accessToken refreshToken).2
  | .deleteDeviceCode deviceCode => deleteDeviceCode db deviceCode
  | .cleanupExpiredDeviceCodes now => cleanupExpiredDeviceCodes db now
  | .setServerSetting key value now => unlessRefused db (setServerSetting db key value now) id
  | .upsertMonitorSetting userId key value ifVersion quota now =>
    unlessRefused db (upsertMonitorSetting db userId key value ifVersion quota now) Prod.snd
  | .deleteMonitorSetting userId key ifVersion => (deleteMonitorSetting db userId key ifVersion).2
  | .seed id passwordHash now => unlessRefused db (seed db id passwordHash now) fun db => db

/-- Keys of the rows a call may insert. -/
def Write.inserts : Write → List Key
  | .createUser id _ _ _ _ => [.user id]
  | .createOidcUser user _ => [.user user.id]
  | .createDevice id _ _ _ _ => [.device id]
  | .ensureCursor deviceId provider _ => [.cursor deviceId provider]
  | .createTeam id _ _ => [.team id]
  | .addTeamMember teamId userId _ _ => [.teamMember teamId userId]
  | .createPendingRegistration id _ _ _ => [.pendingRegistration id]
  | .approveRegistration _ userId _ => [.user userId]
  | .storeRefreshToken jti _ _ _ _ => [.refreshToken jti]
  | .rotateRefreshToken _ newJti _ _ _ _ => [.refreshToken newJti]
  | .createDeviceCode deviceCode _ _ => [.deviceCode deviceCode]
  | .setServerSetting key _ _ => [.serverSetting key]
  | .upsertMonitorSetting userId key _ _ _ _ => [.monitorSetting userId key]
  | .seed id _ _ => [.user id]
  | _ => []

/-- Keys that the rows a call may insert refer to. -/
def Write.refers : Write → List Key
  | .createDevice _ userId _ _ _ => [.user userId]
  | .ensureCursor deviceId _ _ => [.device deviceId]
  | .addTeamMember teamId userId _ _ => [.team teamId,.user userId]
  | .storeRefreshToken _ userId _ _ _ => [.user userId]
  | .rotateRefreshToken _ _ userId _ _ _ => [.user userId]
  | .upsertMonitorSetting userId _ _ _ _ _ => [.user userId]
  | _ => []

/-- Rows a call may insert. -/
def Write.MayInsert (w : Write) (row : Row) : Prop := row.key∈w.inserts ∧ row.refs=w.refers

/-- Rows a call may select for an update. -/
def Write.MayUpdate : Write → Row → Prop
  | .updatePassword userId _ _, row => row.key=.user userId
  | .updateUserRole userId _ _, row => row.key=.user userId
  | .setUserActive userId _ _, row => row.key=.user userId
  | .createOidcUser user _, row => hasSubject user.oidcIssuer user.oidcSub row=true
  | .updateDeviceSeen id _ _, row => row.key=.device id
  | .renameDevice id userId _, row => isUserDevice id userId row=true
  | .advanceCursor deviceId provider _ _, row => row.key=.cursor deviceId provider
  | .resetCursor deviceId provider _, row => row.key=.cursor deviceId provider
  | .revokeRefreshToken jti, row => row.key=.refreshToken jti
  | .revokeUserRefreshTokens userId, row => isRevocable userId row=true
  | .rotateRefreshToken oldJti _ _ _ _ _, row => row.key=.refreshToken oldJti
  | .approveDeviceCode userCode _ _ _, row => isOpenCode userCode row=true
  | .setServerSetting key _ _, row => row.key=.serverSetting key
  | .upsertMonitorSetting userId key _ _ _ _, row => row.key=.monitorSetting userId key
  | _, _ => False

/-- Rows a call may select for a deletion. -/
def Write.MayDelete : Write → Row → Prop
  | .deleteUser id, row => row.key=.user id
  | .deleteDevice id, row => row.key=.device id
  | .deleteUserDevice id userId, row => isUserDevice id userId row=true
  | .deleteTeam id, row => row.key=.team id
  | .removeTeamMember teamId userId, row => row.key=.teamMember teamId userId
  | .approveRegistration id _ _, row => row.key=.pendingRegistration id
  | .rejectRegistration id, row => row.key=.pendingRegistration id
  | .cleanupOldPendingRegistrations maxAgeSecs now, row => isOldPending (now-maxAgeSecs) row=true
  | .cleanupExpiredTokens now, row => isSpentToken now row=true
  | .deleteDeviceCode deviceCode, row => row.key=.deviceCode deviceCode
  | .cleanupExpiredDeviceCodes now, row => isExpiredCode now row=true
  | .deleteMonitorSetting userId key _, row => row.key=.monitorSetting userId key
  | _, _ => False

/-- One call. -/
def WriteStep (backend : OidcAccounts.Backend) (db : Tables) (w : Write) (db' : Tables) : Prop :=
  db'=perform backend db w

/-- What belongs to a user: the account, its devices and their cursors, and its
tokens, memberships and settings. -/
def OfUser (db : Tables) (userId : String) : Row → Prop
  | .user row => row.id=userId
  | .device row => row.userId=userId
  | .cursor row => deviceOwner db row.deviceId=some userId
  | .refreshToken _ row => row.userId=userId
  | .teamMember row => row.userId=userId
  | .monitorSetting row => row.userId=userId
  | _ => False

/-- What belongs to a device: its row and its cursors. -/
def OfDevice (deviceId : String) : Row → Prop
  | .device row => row.id=deviceId
  | .cursor row => row.deviceId=deviceId
  | _ => False

/-- What belongs to a team: its row and its memberships. -/
def OfTeam (teamId : String) : Row → Prop
  | .team row => row.id=teamId
  | .teamMember row => row.teamId=teamId
  | _ => False

section

variable {db db' : Tables} {row parent : Row} {k : Key} {id : String}

theorem key_user (h : row.key=.user id) : ∃ user, row=.user user ∧ user.id=id := by
  cases row with
  | user user => exact ⟨user,rfl,Key.user.inj h⟩
  | _ => cases h

theorem key_device (h : row.key=.device id) : ∃ device, row=.device device ∧ device.id=id := by
  cases row with
  | device device => exact ⟨device,rfl,Key.device.inj h⟩
  | _ => cases h

theorem key_team (h : row.key=.team id) : ∃ team, row=.team team ∧ team.id=id := by
  cases row with
  | team team => exact ⟨team,rfl,Key.team.inj h⟩
  | _ => cases h

/-- The owner of a device is the user its row refers to. -/
theorem deviceOwner_eq_some {userId : String} : deviceOwner db id=some userId ↔
    ∃ device, Row.device device∈db.rows ∧ device.id=id ∧ device.userId=userId := by
  constructor
  · intro h
    unfold deviceOwner at h
    cases hfind : db.find (.device id) with
    | none =>
      rw [hfind] at h
      cases h
    | some row =>
      obtain ⟨hmem,hkey⟩ := Database.find_eq_some.mp hfind
      obtain ⟨device,rfl,hid⟩ := key_device hkey
      rw [hfind] at h
      exact ⟨device,hmem,hid,Option.some.inj h⟩
  · rintro ⟨device,hmem,hid,huser⟩
    have hfind : db.find (.device id)=some (.device device) :=
      Database.find_eq_some.mpr ⟨hmem,congrArg Key.device hid⟩
    rw [deviceOwner,hfind]
    exact congrArg some huser

/-- The row that a row refers to. -/
theorem exists_parent (h : row∈db.rows) (href : k∈row.refs) : ∃ parent∈db.rows, parent.key=k :=
  db.consistent.refs row h k href

/-- The deletion of a user takes what belongs to the user. -/
theorem doomed_user_iff : Doomed schema db.rows (fun row => row.key=.user id) row ↔
    row∈db.rows ∧ OfUser db id row := by
  constructor
  · intro h
    refine ⟨h.mem,?_⟩
    induction h with
    | selected mem sel =>
      obtain ⟨user,rfl,hid⟩ := key_user (of_decide_eq_true sel)
      exact hid
    | @follows row parent mem goes ref ih =>
      change parent.key∈row.refs at ref
      cases row with
      | device device =>
        obtain ⟨user,rfl,hid⟩ := key_user (List.mem_singleton.mp ref)
        exact hid.symm.trans ih
      | cursor cursor =>
        obtain ⟨device,rfl,hid⟩ := key_device (List.mem_singleton.mp ref)
        exact deviceOwner_eq_some.mpr ⟨device,goes.mem,hid,ih⟩
      | refreshToken jti token =>
        obtain ⟨user,rfl,hid⟩ := key_user (List.mem_singleton.mp ref)
        exact hid.symm.trans ih
      | teamMember member =>
        rcases List.mem_cons.mp ref with hteam | ref
        · obtain ⟨team,rfl,-⟩ := key_team hteam
          exact ih.elim
        · obtain ⟨user,rfl,hid⟩ := key_user (List.mem_singleton.mp ref)
          exact hid.symm.trans ih
      | monitorSetting setting =>
        obtain ⟨user,rfl,hid⟩ := key_user (List.mem_singleton.mp ref)
        exact hid.symm.trans ih
      | _ => cases ref
  · rintro ⟨hmem,hof⟩
    -- whatever refers to the user goes with the user's row
    have hdirect : ∀ {row : Row}, row∈db.rows → Key.user id∈row.refs →
        Doomed schema db.rows (fun row => row.key=.user id) row := by
      intro row hrow href
      obtain ⟨user,huser,hkey⟩ := exists_parent hrow href
      refine .follows hrow (.selected huser (decide_eq_true hkey)) ?_
      change user.key∈row.refs
      rw [hkey]
      exact href
    cases row with
    | user user => exact .selected hmem (decide_eq_true (congrArg Key.user hof))
    | device device =>
      exact hdirect hmem (List.mem_singleton.mpr (congrArg Key.user hof).symm)
    | cursor cursor =>
      obtain ⟨device,hdevice,hid,huser⟩ := deviceOwner_eq_some.mp hof
      refine .follows hmem (hdirect hdevice (List.mem_singleton.mpr (congrArg Key.user huser).symm))
        (List.mem_singleton.mpr (congrArg Key.device hid))
    | refreshToken jti token =>
      exact hdirect hmem (List.mem_singleton.mpr (congrArg Key.user hof).symm)
    | teamMember member =>
      exact hdirect hmem (List.mem_cons_of_mem _
        (List.mem_singleton.mpr (congrArg Key.user hof).symm))
    | monitorSetting setting =>
      exact hdirect hmem (List.mem_singleton.mpr (congrArg Key.user hof).symm)
    | _ => exact hof.elim

/-- The deletion of a device takes its cursors. -/
theorem doomed_device_iff : Doomed schema db.rows (fun row => row.key=.device id) row ↔
    row∈db.rows ∧ OfDevice id row := by
  constructor
  · intro h
    refine ⟨h.mem,?_⟩
    induction h with
    | selected mem sel =>
      obtain ⟨device,rfl,hid⟩ := key_device (of_decide_eq_true sel)
      exact hid
    | @follows row parent mem goes ref ih =>
      change parent.key∈row.refs at ref
      cases parent with
      | device device =>
        cases row with
        | cursor cursor => exact (Key.device.inj (List.mem_singleton.mp ref)).symm.trans ih
        | _ => simp [Row.refs,Row.key] at ref
      | cursor cursor => cases row <;> simp [Row.refs,Row.key] at ref
      | _ => exact ih.elim
  · rintro ⟨hmem,hof⟩
    cases row with
    | device device => exact .selected hmem (decide_eq_true (congrArg Key.device hof))
    | cursor cursor =>
      obtain ⟨device,hdevice,hkey⟩ := exists_parent hmem (List.mem_singleton_self _)
      refine .follows hmem (.selected hdevice (decide_eq_true ?_)) (List.mem_singleton.mpr hkey)
      exact hkey.trans (congrArg Key.device hof)
    | _ => exact hof.elim

/-- The deletion of a team takes its memberships. -/
theorem doomed_team_iff : Doomed schema db.rows (fun row => row.key=.team id) row ↔
    row∈db.rows ∧ OfTeam id row := by
  constructor
  · intro h
    refine ⟨h.mem,?_⟩
    induction h with
    | selected mem sel =>
      obtain ⟨team,rfl,hid⟩ := key_team (of_decide_eq_true sel)
      exact hid
    | @follows row parent mem goes ref ih =>
      change parent.key∈row.refs at ref
      cases parent with
      | team team =>
        cases row with
        | teamMember member =>
          rcases List.mem_cons.mp ref with hteam | ref
          · exact (Key.team.inj hteam).symm.trans ih
          · cases List.mem_singleton.mp ref
        | _ => simp [Row.refs,Row.key] at ref
      | teamMember member => cases row <;> simp [Row.refs,Row.key] at ref
      | _ => exact ih.elim
  · rintro ⟨hmem,hof⟩
    cases row with
    | team team => exact .selected hmem (decide_eq_true (congrArg Key.team hof))
    | teamMember member =>
      have href : Key.team member.teamId∈(Row.teamMember member).refs := List.mem_cons_self
      obtain ⟨team,hteam,hkey⟩ := exists_parent hmem href
      refine .follows hmem (.selected hteam (decide_eq_true ?_)) ?_
      · exact hkey.trans (congrArg Key.team hof)
      · change team.key∈(Row.teamMember member).refs
        rw [hkey]
        exact href
    | _ => exact hof.elim

/-- A row is the device of an id and belongs to a user when it is the device
and the user is its owner. -/
theorem isUserDevice_iff {userId : String} (hmem : row∈db.rows) :
    isUserDevice id userId row=true ↔ row.key=.device id ∧ deviceOwner db id=some userId := by
  constructor
  · intro h
    cases row with
    | device device =>
      obtain ⟨hid,huser⟩ : device.id=id ∧ device.userId=userId := by
        simpa [isUserDevice] using h
      exact ⟨congrArg Key.device hid,deviceOwner_eq_some.mpr ⟨device,hmem,hid,huser⟩⟩
    | _ => cases h
  · rintro ⟨hkey,howner⟩
    obtain ⟨device,hdevice,hid,huser⟩ := deviceOwner_eq_some.mp howner
    have hsame : row=.device device :=
      db.eq_of_key hmem hdevice (hkey.trans (congrArg Key.device hid).symm)
    rw [hsame,isUserDevice,hid,huser]
    simp

theorem mem_deleteUser : row∈(deleteUser db id).2.rows ↔ row∈db.rows ∧ ¬OfUser db id row := by
  rw [deleteUser,deleteWhere,Database.mem_delete,doomed_user_iff]
  tauto

theorem mem_deleteDevice :
    row∈(deleteDevice db id).2.rows ↔ row∈db.rows ∧ ¬OfDevice id row := by
  rw [deleteDevice,deleteWhere,Database.mem_delete,doomed_device_iff]
  tauto

theorem mem_deleteTeam : row∈(deleteTeam db id).2.rows ↔ row∈db.rows ∧ ¬OfTeam id row := by
  rw [deleteTeam,deleteWhere,Database.mem_delete,doomed_team_iff]
  tauto

/-- A user deletes a device as an administrator does, when it is the user's. -/
theorem mem_deleteUserDevice {userId : String} : row∈(deleteUserDevice db id userId).2.rows ↔
    row∈db.rows ∧ ¬(deviceOwner db id=some userId ∧ OfDevice id row) := by
  have hdoomed : Doomed schema db.rows (isUserDevice id userId) row ↔
      deviceOwner db id=some userId ∧
        Doomed schema db.rows (fun row => row.key=.device id) row := by
    constructor
    · intro h
      induction h with
      | selected mem sel =>
        obtain ⟨hkey,howner⟩ := (isUserDevice_iff mem).mp sel
        exact ⟨howner,.selected mem (decide_eq_true hkey)⟩
      | follows mem goes ref ih => exact ⟨ih.1,.follows mem ih.2 ref⟩
    · rintro ⟨howner,h⟩
      induction h with
      | selected mem sel =>
        exact .selected mem ((isUserDevice_iff mem).mpr ⟨of_decide_eq_true sel,howner⟩)
      | follows mem goes ref ih => exact .follows mem ih ref
  rw [deleteUserDevice,deleteWhere,Database.mem_delete,hdoomed,doomed_device_iff]
  tauto

/-- Deletions of users, devices and teams take along what belongs to the
deleted object and leave every other row; a user deletes a device only when it
is the user's own. -/
theorem deletions_exact (db : Tables) (id userId : String) (row : Row) :
    (row∈(deleteUser db id).2.rows ↔ row∈db.rows ∧ ¬OfUser db id row) ∧
    (row∈(deleteDevice db id).2.rows ↔ row∈db.rows ∧ ¬OfDevice id row) ∧
    (row∈(deleteUserDevice db id userId).2.rows ↔
      row∈db.rows ∧ ¬(deviceOwner db id=some userId ∧ OfDevice id row)) ∧
    (row∈(deleteTeam db id).2.rows ↔ row∈db.rows ∧ ¬OfTeam id row) :=
  ⟨mem_deleteUser,mem_deleteDevice,mem_deleteUserDevice,mem_deleteTeam⟩

end

/-- No row has a key. -/
def Absent (db : Tables) (k : Key) : Prop := ∀ row∈db.rows, row.key≠k

section

variable {backend : OidcAccounts.Backend} {db db' : Tables} {k : Key}

/-- A call is a list of statements that insert and select nothing but what the
call may. -/
def Does (w : Write) (db db' : Tables) : Prop :=
  ∃ statements, Run Executes db statements db' ∧
    ∀ s∈statements, s.Inserts w.MayInsert ∧ s.Selects w.MayUpdate w.MayDelete

section

variable {w : Write}

theorem Does.refl (w : Write) (db : Tables) : Does w db db :=
  ⟨[],.start,fun _ h => absurd h List.not_mem_nil⟩

/-- A call goes on with one more statement. -/
theorem Does.next {db'' : Tables} (h : Does w db db') {s : Statement schema}
    (hs : s.Inserts w.MayInsert ∧ s.Selects w.MayUpdate w.MayDelete)
    (taken : Executes db' s db'') : Does w db db'' := by
  obtain ⟨statements,run,hall⟩ := h
  refine ⟨s::statements,.next s run taken,fun other hother => ?_⟩
  rcases List.mem_cons.mp hother with rfl | hother
  · exact hs
  · exact hall other hother

theorem Does.insert {db'' : Tables} (h : Does w db db') {row : Row}
    (hinsert : DatabaseRepo.insert db' row=.ok db'') (hrow : w.MayInsert row) : Does w db db'' := by
  have taken : Database.insert db' row=.ok db'' := by
    unfold DatabaseRepo.insert at hinsert
    cases hresult : Database.insert db' row with
    | ok t =>
      rw [hresult] at hinsert
      exact congrArg Except.ok (Except.ok.inj hinsert)
    | error e =>
      rw [hresult] at hinsert
      cases hinsert
  exact h.next (s := .insert row) ⟨hrow,True.intro⟩ taken

theorem Does.update (h : Does w db db') {p : Row → Bool} {f : Row → Row}
    (hf : schema.Invisible f) (hp : ∀ row, p row=true → w.MayUpdate row) :
    Does w db (updateWhere db' p f hf).2 :=
  h.next (s := .update p f hf) ⟨True.intro,hp⟩ rfl

theorem Does.delete (h : Does w db db') {p : Row → Bool}
    (hp : ∀ row, p row=true → w.MayDelete row) : Does w db (deleteWhere db' p).2 :=
  h.next (s := .delete p) ⟨True.intro,hp⟩ rfl

/-- A call that may be refused does nothing then. -/
theorem Does.unlessRefused {α : Type} {result : Except Refusal α} {tables : α → Tables}
    (hok : ∀ value, result=.ok value → Does w db (tables value)) :
    Does w db (unlessRefused db result tables) := by
  cases result with
  | ok value => exact hok value rfl
  | error e => exact .refl w db

end

theorem bind_eq_ok {α β : Type} {x : Except Refusal α} {f : α → Except Refusal β} {b : β} :
    (x >>= f)=.ok b ↔ ∃ a, x=.ok a ∧ f a=.ok b := by
  cases x with
  | error e => exact ⟨fun h => (nomatch h),fun ⟨_,ha,_⟩ => (nomatch ha)⟩
  | ok a => exact ⟨fun h => ⟨a,rfl,h⟩,fun ⟨_,ha,h⟩ => Except.ok.inj ha ▸ h⟩

theorem map_eq_ok {α β : Type} {x : Except Refusal α} {f : α → β} {b : β} :
    x.map f=.ok b ↔ ∃ a, x=.ok a ∧ f a=b := by
  cases x with
  | error e => exact ⟨fun h => (nomatch h),fun ⟨_,ha,_⟩ => (nomatch ha)⟩
  | ok a => exact ⟨fun h => ⟨a,rfl,Except.ok.inj h⟩,
      fun ⟨_,ha,h⟩ => congrArg Except.ok (Except.ok.inj ha ▸ h)⟩

/-- What each call does. -/
theorem perform_does (backend : OidcAccounts.Backend) (db : Tables) (w : Write) :
    Does w db (perform backend db w) := by
  have start : Does w db db := .refl w db
  have hkey : ∀ {k : Key} (row : Row), decide (row.key=k)=true → row.key=k :=
    fun _ => of_decide_eq_true
  cases w with
  | createUser id username passwordHash role now =>
    exact .unlessRefused fun _ hok => start.insert hok ⟨List.mem_singleton_self _,rfl⟩
  | deleteUser id => exact start.delete hkey
  | updatePassword userId passwordHash now => exact start.update _ hkey
  | updateUserRole userId role now => exact start.update _ hkey
  | setUserActive userId active now => exact start.update _ hkey
  | createOidcUser user now =>
    refine .unlessRefused fun db' hok => ?_
    unfold createOidcUser at hok
    split_ifs at hok
    · cases hok
      exact start.update _ fun _ hrow => hrow
    · exact start.insert hok ⟨List.mem_singleton_self _,rfl⟩
  | createDevice id userId name deviceKey now =>
    exact .unlessRefused fun _ hok => start.insert hok ⟨List.mem_singleton_self _,rfl⟩
  | updateDeviceSeen id name now => exact start.update _ hkey
  | deleteDevice id => exact start.delete hkey
  | deleteUserDevice id userId => exact start.delete fun _ hrow => hrow
  | renameDevice id userId name => exact start.update _ fun _ hrow => hrow
  | ensureCursor deviceId provider now =>
    refine .unlessRefused fun db' hok => ?_
    unfold ensureCursor Database.insertOrIgnore at hok
    split_ifs at hok
    · exact start.insert hok ⟨List.mem_singleton_self _,rfl⟩
    · cases hok
      exact start
  | advanceCursor deviceId provider ts now => exact start.update _ hkey
  | resetCursor deviceId provider now => exact start.update _ hkey
  | createTeam id name now =>
    exact .unlessRefused fun _ hok => start.insert hok ⟨List.mem_singleton_self _,rfl⟩
  | deleteTeam id => exact start.delete hkey
  | addTeamMember teamId userId role now =>
    exact .unlessRefused fun _ hok => start.insert hok ⟨List.mem_singleton_self _,rfl⟩
  | removeTeamMember teamId userId => exact start.delete hkey
  | createPendingRegistration id username passwordHash now =>
    exact .unlessRefused fun _ hok => start.insert hok ⟨List.mem_singleton_self _,rfl⟩
  | approveRegistration id userId now =>
    refine .unlessRefused fun result hok => ?_
    unfold approveRegistration at hok
    split at hok
    · rename_i row hfind
      split_ifs at hok
      obtain ⟨db',hinsert,hresult⟩ := bind_eq_ok.mp hok
      cases hresult
      have hid : Row.key (.pendingRegistration row)=.pendingRegistration id :=
        (Database.find_eq_some.mp hfind).2
      refine Does.delete (start.insert hinsert ⟨List.mem_singleton_self _,rfl⟩) fun other hother => ?_
      exact (hkey other hother).trans hid
    · cases hok
      exact start
  | rejectRegistration id => exact start.delete hkey
  | cleanupOldPendingRegistrations maxAgeSecs now => exact start.delete fun _ hrow => hrow
  | storeRefreshToken jti userId deviceId expiresAt now =>
    exact .unlessRefused fun _ hok => start.insert hok ⟨List.mem_singleton_self _,rfl⟩
  | revokeRefreshToken jti => exact start.update _ hkey
  | revokeUserRefreshTokens userId => exact start.update _ fun _ hrow => hrow
  | rotateRefreshToken oldJti newJti userId deviceId expiresAt now =>
    refine .unlessRefused fun db' hok => ?_
    unfold rotateRefreshToken at hok
    split_ifs at hok
    exact Does.insert (start.update _ hkey) hok ⟨List.mem_singleton_self _,rfl⟩
  | cleanupExpiredTokens now => exact start.delete fun _ hrow => hrow
  | createDeviceCode deviceCode userCode expiresAt =>
    exact .unlessRefused fun _ hok => start.insert hok ⟨List.mem_singleton_self _,rfl⟩
  | approveDeviceCode userCode userId accessToken refreshToken =>
    exact start.update _ fun _ hrow => hrow
  | deleteDeviceCode deviceCode => exact start.delete hkey
  | cleanupExpiredDeviceCodes now => exact start.delete fun _ hrow => hrow
  | setServerSetting key value now =>
    refine .unlessRefused fun db' hok => ?_
    unfold setServerSetting at hok
    split_ifs at hok
    · cases hok
      exact start.update _ hkey
    · exact start.insert hok ⟨List.mem_singleton_self _,rfl⟩
  | upsertMonitorSetting userId key value ifVersion quota now =>
    refine .unlessRefused fun result hok => ?_
    unfold upsertMonitorSetting at hok
    dsimp only at hok
    split at hok
    · split_ifs at hok
      · cases hok
        exact start.update (writeMonitor_invisible _) hkey
      · obtain ⟨db',hinsert,rfl⟩ := map_eq_ok.mp hok
        exact start.insert hinsert ⟨List.mem_singleton_self _,rfl⟩
    · cases hok
      exact start
  | deleteMonitorSetting userId key ifVersion =>
    refine start.delete fun row hrow => ?_
    cases row with
    | monitorSetting setting =>
      have hsame : setting.primaryKey=(userId,key) :=
        of_decide_eq_true (Bool.and_eq_true_iff.mp hrow).1
      obtain ⟨huser,hname⟩ := Prod.ext_iff.mp hsame
      exact congrArg₂ Key.monitorSetting huser hname
    | _ => cases hrow
  | seed id passwordHash now =>
    refine .unlessRefused fun db' hok => ?_
    unfold seed at hok
    split_ifs at hok
    · cases hok
      exact start
    · exact start.insert hok ⟨List.mem_singleton_self _,rfl⟩

/-- A call inserts no keys but those it names. -/
theorem Absent.perform (h : Absent db k) {w : Write} (hk : k∉w.inserts) :
    Absent (perform backend db w) k := by
  intro row hrow hkey
  obtain ⟨statements,run,hall⟩ := perform_does backend db w
  obtain ⟨old,hold | hnew,hsame,-⟩ := traced run (fun s hs => (hall s hs).1) hrow
  · exact h old hold (hsame.trans hkey)
  · exact hk ((hsame.trans hkey) ▸ hnew.1)

/-- A key stays absent while no call inserts it. -/
theorem Absent.run {history : List Write} (h : Absent db k)
    (run : Run (WriteStep backend) db history db') (hk : ∀ w∈history, k∉w.inserts) :
    Absent db' k := by
  induction run with
  | start => exact h
  | next w run taken ih =>
    cases taken
    exact (ih fun w hw => hk w (List.mem_cons_of_mem _ hw)).perform (hk w List.mem_cons_self)

end

end TokiSync.DatabaseRuns
