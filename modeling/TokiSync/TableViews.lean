import TokiSync.DatabaseRuns
import TokiSync.SyncCursor

/-!
# Columns of the tables by key

Cursors, tokens, owners of devices and statuses of users are what is found in one
column under a key. The calls of the repository change these columns as the
operations on cursors and on tokens do that are stated for them alone, and
leave the columns of the other tables.
-/

namespace TokiSync.TableViews

open ReferencedRows DatabaseRepo DatabaseRuns
open RefreshTokens (TokenRow TokenTable freshRow)
open SyncCursor (Cursors)

/-- What is found in a column under a key. -/
def column {α : Type} (col : Row → Option α) (db : Tables) (k : Key) : Option α :=
  (db.find k).bind col

/-- Time of a cursor. -/
def lastTsOf : Row → Option Int64
  | .cursor row => some row.lastTs
  | _ => none

/-- Row of a token. -/
def tokenOf : Row → Option TokenRow
  | .refreshToken _ row => some row
  | _ => none

/-- Owner of a device. -/
def ownerOf : Row → Option String
  | .device row => some row.userId
  | _ => none

/-- Status of a user. -/
def activeOf : Row → Option Bool
  | .user row => some row.active
  | _ => none

/-- The cursors. -/
def cursors (db : Tables) : Cursors :=
  fun deviceId provider => column lastTsOf db (.cursor deviceId provider)

/-- The refresh tokens. -/
def tokens (db : Tables) : TokenTable := fun jti => column tokenOf db (.refreshToken jti)

/-- The devices with their owners. -/
def owners (db : Tables) (id : String) : Option String := column ownerOf db (.device id)

/-- The users with their statuses. -/
def statuses (db : Tables) (id : String) : Option Bool := column activeOf db (.user id)

section

variable {α : Type} {col : Row → Option α} {db db' : Tables} {k k₀ : Key} {p : Row → Bool}
variable {f : Row → Row} {hf : schema.Invisible f}

theorem column_eq_some {a : α} :
    column col db k=some a ↔ ∃ row∈db.rows, row.key=k ∧ col row=some a := by
  rw [column,Option.bind_eq_some_iff]
  simp only [Database.find_eq_some,and_assoc]
  rfl

/-- An update changes the rows it selects. -/
theorem column_updateWhere :
    column col (updateWhere db p f hf).2 k=
      (db.find k).bind fun row => col (if p row then f row else row) := by
  rw [updateWhere,column,Database.find_update]
  cases db.find k <;> rfl

/-- An update of the row of a key changes the column there. -/
theorem column_updateWhere_key :
    column col (updateWhere db (fun row => row.key=k₀) f hf).2 k=
      if k=k₀ then (db.find k).bind (col∘f) else column col db k := by
  rw [column_updateWhere,column]
  cases hfind : db.find k with
  | none => split_ifs <;> rfl
  | some row =>
    have hkey : row.key=k := (Database.find_eq_some.mp hfind).2
    simp only [Option.bind_some,hkey,decide_eq_true_eq,Function.comp_apply]
    split_ifs <;> rfl

/-- An update of another column leaves a column. -/
theorem column_updateWhere_other (h : ∀ row, col (f row)=col row) :
    column col (updateWhere db p f hf).2 k=column col db k := by
  rw [column_updateWhere,column]
  refine congrArg _ (funext fun row => ?_)
  split_ifs
  · exact h row
  · rfl

/-- An inserted row has its column. -/
theorem column_insert {row : Row} (h : DatabaseRepo.insert db row=.ok db') :
    column col db' k=if k=row.key then col row else column col db k := by
  have hinsert : Database.insert db row=.ok db' := by
    unfold DatabaseRepo.insert at h
    cases hresult : Database.insert db row with
    | error e =>
      rw [hresult] at h
      cases h
    | ok done =>
      rw [hresult] at h
      exact congrArg _ (Except.ok.inj h)
  unfold column
  rw [Database.find_of_insert hinsert]
  change ((if k=row.key then _ else _ : Option Row).bind col)=_
  split_ifs <;> rfl

/-- Rows that stay keep their column. -/
theorem column_congr (h : ∀ row, row.key=k → (row∈db'.rows ↔ row∈db.rows)) :
    column col db' k=column col db k := by
  unfold column
  rw [Database.find_congr h]

/-- Without rows of a key nothing is found. -/
theorem column_eq_none (h : ∀ row∈db.rows, row.key≠k) : column col db k=none := by
  unfold column
  rw [Database.find_eq_none.mpr h]
  rfl

end

section

variable {db db' : Tables} {deviceId provider jti userId : String} {now : Int64}

theorem getUserById_active (id : String) :
    (getUserById db id).map OidcAccounts.UserRow.active=statuses db id := by
  unfold getUserById statuses column
  cases hfind : db.find (.user id) with
  | none => rfl
  | some row =>
    obtain ⟨user,rfl,-⟩ := key_user (Database.find_eq_some.mp hfind).2
    rfl

theorem deviceOwner_eq (id : String) : deviceOwner db id=owners db id := by
  unfold deviceOwner owners column
  cases hfind : db.find (.device id) with
  | none => rfl
  | some row =>
    obtain ⟨device,rfl,-⟩ := key_device (Database.find_eq_some.mp hfind).2
    rfl

theorem getLastTs_eq :
    DatabaseRepo.getLastTs db deviceId provider=
      SyncCursor.getLastTs (cursors db) deviceId provider := by
  unfold DatabaseRepo.getLastTs SyncCursor.getLastTs cursors column
  cases db.find (.cursor deviceId provider) with
  | none => rfl
  | some row => cases row <;> rfl

/-- A write of one cursor. -/
theorem update_cursor (cursors : Cursors) (value : Option Int64) (d p : String) :
    Function.update cursors deviceId (Function.update (cursors deviceId) provider value) d p=
      if Key.cursor d p=.cursor deviceId provider then value else cursors d p := by
  by_cases hd : d=deviceId
  · subst hd
    rw [Function.update_self]
    by_cases hp : p=provider
    · subst hp
      rw [Function.update_self,if_pos rfl]
    · rw [Function.update_of_ne hp,if_neg fun h => hp (Key.cursor.inj h).2]
  · rw [Function.update_of_ne hd,if_neg fun h => hd (Key.cursor.inj h).1]

/-- A change of the time of a cursor changes the times alone. -/
theorem cursors_onCursor (g : Int64 → Int64) :
    cursors (updateWhere db (fun row => row.key=.cursor deviceId provider) _
        (onCursor_invisible g now)).2=
      Function.update (cursors db) deviceId (Function.update (cursors db deviceId) provider
        ((cursors db deviceId provider).map g)) := by
  funext d p
  rw [update_cursor,cursors,column_updateWhere_key]
  split_ifs with hkey
  · rw [hkey,cursors,column]
    cases db.find (.cursor deviceId provider) with
    | none => rfl
    | some row => cases row <;> rfl
  · rfl

theorem cursors_advanceCursor (ts : Int64) :
    cursors (DatabaseRepo.advanceCursor db deviceId provider ts now)=
      SyncCursor.advanceCursor (cursors db) deviceId provider ts :=
  cursors_onCursor _

theorem cursors_resetCursor :
    cursors (DatabaseRepo.resetCursor db deviceId provider now)=
      SyncCursor.resetCursor (cursors db) deviceId provider :=
  cursors_onCursor _

/-- A cursor is there when its row is. -/
theorem cursors_ne_none_iff : cursors db deviceId provider≠none ↔
    ∃ row∈db.rows, row.key=.cursor deviceId provider := by
  constructor
  · intro h
    obtain ⟨ts,hts⟩ := Option.ne_none_iff_exists'.mp h
    obtain ⟨row,hrow,hkey,-⟩ := column_eq_some.mp hts
    exact ⟨row,hrow,hkey⟩
  · rintro ⟨row,hrow,hkey⟩ hnone
    cases row with
    | cursor row =>
      have hsome : cursors db deviceId provider=some row.lastTs :=
        column_eq_some.mpr ⟨_,hrow,hkey,rfl⟩
      exact nomatch hnone.symm.trans hsome
    | _ => cases hkey

/-- A device with a cursor has its row. -/
theorem owners_ne_none (h : cursors db deviceId provider≠none) : owners db deviceId≠none := by
  obtain ⟨row,hrow,hkey⟩ := cursors_ne_none_iff.mp h
  cases row with
  | cursor row =>
    obtain ⟨parent,hparent,hid⟩ := exists_parent hrow (List.mem_singleton_self _)
    obtain ⟨device,rfl,-⟩ := key_device hid
    have howner : owners db deviceId=some device.userId :=
      column_eq_some.mpr ⟨_,hparent,hid.trans (congrArg Key.device (Key.cursor.inj hkey).1),rfl⟩
    exact fun hnone => nomatch hnone.symm.trans howner
  | _ => cases hkey

/-- A cursor that is made sure of is inserted or was there. -/
theorem ensureCursor_eq_ok (h : DatabaseRepo.ensureCursor db deviceId provider now=.ok db') :
    (cursors db deviceId provider=none ∧
        DatabaseRepo.insert db (.cursor ⟨deviceId,provider,0,now⟩)=.ok db') ∨
      (cursors db deviceId provider≠none ∧ db'=db) := by
  unfold DatabaseRepo.ensureCursor Database.insertOrIgnore at h
  split at h
  · rename_i hfree
    refine .inl ⟨?_,h⟩
    by_contra hsome
    obtain ⟨row,hrow,hkey⟩ := cursors_ne_none_iff.mp hsome
    exact (Database.isFree_iff.mp hfree row hrow).1 hkey
  · rename_i htaken
    refine .inr ⟨fun hnone => htaken (Database.isFree_iff.mpr fun row hrow => ?_),
      (Except.ok.inj h).symm⟩
    have hkey : row.key≠.cursor deviceId provider :=
      fun hkey => cursors_ne_none_iff.mpr ⟨row,hrow,hkey⟩ hnone
    exact ⟨hkey,List.disjoint_nil_right _⟩

theorem cursors_ensureCursor (h : DatabaseRepo.ensureCursor db deviceId provider now=.ok db') :
    cursors db'=SyncCursor.ensureCursor (cursors db) deviceId provider := by
  funext d p
  rw [SyncCursor.ensureCursor,update_cursor]
  obtain ⟨hnone,hinsert⟩ | ⟨hsome,rfl⟩ := ensureCursor_eq_ok h
  · rw [hnone,cursors,column_insert hinsert]
    rfl
  · split_ifs with hkey
    · cases hkey
      obtain ⟨ts,hts⟩ := Option.ne_none_iff_exists'.mp hsome
      rw [hts]
      rfl
    · rfl

/-- No other column is changed. -/
theorem column_ensureCursor {α : Type} {col : Row → Option α} {k : Key}
    (h : DatabaseRepo.ensureCursor db deviceId provider now=.ok db')
    (hk : k≠.cursor deviceId provider) : column col db' k=column col db k := by
  obtain ⟨-,hinsert⟩ | ⟨-,rfl⟩ := ensureCursor_eq_ok h
  · exact (column_insert hinsert).trans (if_neg hk)
  · rfl

/-- A cursor is made sure of when the device has its row. -/
theorem owner_of_ensureCursor (h : DatabaseRepo.ensureCursor db deviceId provider now=.ok db') :
    owners db deviceId≠none := by
  have hcursor : cursors db' deviceId provider≠none := by
    rw [cursors_ensureCursor h,SyncCursor.ensureCursor,update_cursor,if_pos rfl]
    exact Option.some_ne_none _
  have howner := owners_ne_none hcursor
  rwa [owners,column_ensureCursor h Key.noConfusion] at howner

/-- It is refused when the device has none. -/
theorem ensureCursor_refused {e : Refusal}
    (h : DatabaseRepo.ensureCursor db deviceId provider now=.error e) :
    owners db deviceId=none := by
  by_contra howner
  obtain ⟨userId,hid⟩ := Option.ne_none_iff_exists'.mp howner
  obtain ⟨device,hrow,hkey,-⟩ := column_eq_some.mp hid
  have hlinked : db.isLinked (.cursor ⟨deviceId,provider,0,now⟩)=true := by
    refine Database.isLinked_iff.mpr fun k hk => ⟨device,hrow,?_⟩
    rw [List.mem_singleton.mp hk]
    exact hkey
  unfold DatabaseRepo.ensureCursor Database.insertOrIgnore Database.insert at h
  split at h
  · cases h
  · cases h

theorem isRefreshTokenRevoked_eq :
    isRefreshTokenRevoked db jti=RefreshTokens.isRevoked (tokens db jti) := by
  unfold isRefreshTokenRevoked RefreshTokens.isRevoked tokens column
  cases db.find (.refreshToken jti) with
  | none => rfl
  | some row => cases row <;> rfl

theorem tokens_storeRefreshToken {deviceId : Option String} {expiresAt : Int64}
    (h : DatabaseRepo.storeRefreshToken db jti userId deviceId expiresAt now=.ok db') :
    tokens db'=RefreshTokens.storeRefreshToken (tokens db) jti
      (freshRow userId deviceId expiresAt now) := by
  funext k
  rw [RefreshTokens.storeRefreshToken,Function.update_apply]
  refine (column_insert h).trans ?_
  by_cases hk : k=jti
  · rw [if_pos hk]
    exact if_pos (congrArg Key.refreshToken hk)
  · rw [if_neg hk]
    exact if_neg fun hkey => hk (Key.refreshToken.inj hkey)

theorem tokens_revokeRefreshToken :
    tokens (DatabaseRepo.revokeRefreshToken db jti)=
      RefreshTokens.revokeRefreshToken (tokens db) jti := by
  funext k
  rw [tokens,DatabaseRepo.revokeRefreshToken,column_updateWhere_key,
    RefreshTokens.revokeRefreshToken]
  by_cases hk : k=jti
  · rw [if_pos hk,if_pos (congrArg Key.refreshToken hk),tokens,column]
    cases db.find (.refreshToken k) with
    | none => rfl
    | some row => cases row <;> rfl
  · rw [if_neg hk,if_neg fun hkey => hk (Key.refreshToken.inj hkey)]
    rfl

theorem tokens_revokeUserRefreshTokens :
    tokens (DatabaseRepo.revokeUserRefreshTokens db userId)=
      RefreshTokens.revokeUserRefreshTokens (tokens db) userId := by
  funext k
  rw [tokens,DatabaseRepo.revokeUserRefreshTokens,column_updateWhere,
    RefreshTokens.revokeUserRefreshTokens,tokens,column]
  cases db.find (.refreshToken k) with
  | none => rfl
  | some row =>
    cases row with
    | refreshToken jti row =>
      simp only [Option.bind_some,isRevocable]
      split_ifs with hrevocable
      · simp [tokenOf,revokeToken,hrevocable]
      · simp [tokenOf,hrevocable]
    | _ => rfl

/-- A rotation that succeeds uses a token that is not revoked. -/
theorem tokens_rotateRefreshToken {newJti : String} {deviceId : Option String} {expiresAt : Int64}
    (h : DatabaseRepo.rotateRefreshToken db jti newJti userId deviceId expiresAt now=.ok db') :
    RefreshTokens.isRevoked (tokens db jti)=false ∧
      tokens db'=RefreshTokens.storeRefreshToken
        (RefreshTokens.revokeRefreshToken (tokens db) jti) newJti
        (freshRow userId deviceId expiresAt now) := by
  unfold DatabaseRepo.rotateRefreshToken at h
  split at h
  · cases h
  · rename_i husable
    rw [isRefreshTokenRevoked_eq] at husable
    refine ⟨Bool.eq_false_iff.mpr husable,?_⟩
    rw [tokens_storeRefreshToken h,tokens_revokeRefreshToken]

theorem statuses_setUserActive (active : Bool) :
    statuses (setUserActive db userId active now).2=
      Function.update (statuses db) userId ((statuses db userId).map fun _ => active) := by
  funext id
  rw [statuses,setUserActive,column_updateWhere_key,Function.update_apply]
  by_cases hid : id=userId
  · rw [if_pos hid,if_pos (congrArg Key.user hid),hid,statuses,column]
    cases db.find (.user userId) with
    | none => rfl
    | some row => cases row <;> rfl
  · rw [if_neg hid,if_neg fun hkey => hid (Key.user.inj hkey)]
    rfl

/-- What stays is found as before, and what goes is not found any more. -/
theorem column_kept {α : Type} {col : Row → Option α} {k : Key} {gone : Row → Prop}
    (h : ∀ row, row∈db'.rows ↔ row∈db.rows ∧ ¬gone row)
    (hstays : ∀ row∈db.rows, row.key=k → ¬gone row) : column col db' k=column col db k :=
  column_congr fun row hkey =>
    ⟨fun hrow => ((h row).mp hrow).1,fun hrow => (h row).mpr ⟨hrow,hstays row hrow hkey⟩⟩

theorem column_gone {α : Type} {col : Row → Option α} {k : Key} {gone : Row → Prop}
    (h : ∀ row, row∈db'.rows ↔ row∈db.rows ∧ ¬gone row)
    (hgoes : ∀ row∈db.rows, row.key=k → gone row) : column col db' k=none :=
  column_eq_none fun row hrow hkey =>
    ((h row).mp hrow).2 (hgoes row ((h row).mp hrow).1 hkey)

theorem owners_deleteDevice (id : String) :
    owners (deleteDevice db id).2=Function.update (owners db) id none := by
  funext d
  rw [Function.update_apply]
  split_ifs with hd
  · refine column_gone (fun _ => mem_deleteDevice) fun row _ hkey => ?_
    obtain ⟨device,rfl,hid⟩ := key_device hkey
    exact hid.trans hd
  · refine column_kept (fun _ => mem_deleteDevice) fun row _ hkey hgone => ?_
    obtain ⟨device,rfl,hid⟩ := key_device hkey
    exact hd (hid.symm.trans hgone)

theorem cursors_deleteDevice (id : String) :
    cursors (deleteDevice db id).2=Function.update (cursors db) id fun _ => none := by
  funext d p
  rw [Function.update_apply]
  split_ifs with hd
  · refine column_gone (fun _ => mem_deleteDevice) fun row _ hkey => ?_
    cases row with
    | cursor row => exact (Key.cursor.inj hkey).1.trans hd
    | _ => cases hkey
  · refine column_kept (fun _ => mem_deleteDevice) fun row _ hkey hgone => ?_
    cases row with
    | cursor row => exact hd ((Key.cursor.inj hkey).1.symm.trans hgone)
    | _ => cases hkey

theorem statuses_deleteDevice (id : String) : statuses (deleteDevice db id).2=statuses db := by
  funext user
  refine column_kept (fun _ => mem_deleteDevice) fun row _ hkey hgone => ?_
  obtain ⟨row,rfl,-⟩ := key_user hkey
  exact hgone

/-- A user deletes a device when it is the user's. -/
theorem column_deleteUserDevice {α : Type} {col : Row → Option α} {k : Key} (id : String) :
    column col (deleteUserDevice db id userId).2 k=
      if owners db id=some userId then column col (deleteDevice db id).2 k
      else column col db k := by
  split_ifs with howner
  · refine column_congr fun row _ => ?_
    rw [mem_deleteUserDevice,mem_deleteDevice,deviceOwner_eq]
    simp only [howner,true_and]
  · refine column_kept (fun _ => mem_deleteUserDevice) fun row _ _ hgone => howner ?_
    rw [←deviceOwner_eq]
    exact hgone.1

theorem statuses_deleteUser :
    statuses (deleteUser db userId).2=Function.update (statuses db) userId none := by
  funext id
  rw [Function.update_apply]
  split_ifs with hid
  · refine column_gone (fun _ => mem_deleteUser) fun row _ hkey => ?_
    obtain ⟨user,rfl,huser⟩ := key_user hkey
    exact huser.trans hid
  · refine column_kept (fun _ => mem_deleteUser) fun row _ hkey hgone => ?_
    obtain ⟨user,rfl,huser⟩ := key_user hkey
    exact hid (huser.symm.trans hgone)

theorem owners_deleteUser :
    owners (deleteUser db userId).2=
      fun id => if owners db id=some userId then none else owners db id := by
  funext id
  split_ifs with howner
  · refine column_gone (fun _ => mem_deleteUser) fun row hrow hkey => ?_
    obtain ⟨device,rfl,hid⟩ := key_device hkey
    have hown : owners db id=some device.userId := column_eq_some.mpr ⟨_,hrow,hkey,rfl⟩
    exact Option.some.inj (hown.symm.trans howner)
  · refine column_kept (fun _ => mem_deleteUser) fun row hrow hkey hgone => howner ?_
    obtain ⟨device,rfl,-⟩ := key_device hkey
    rw [←show device.userId=userId from hgone]
    exact column_eq_some.mpr ⟨_,hrow,hkey,rfl⟩

theorem cursors_deleteUser :
    cursors (deleteUser db userId).2=
      fun id => if owners db id=some userId then fun _ => none else cursors db id := by
  funext id p
  split_ifs with howner
  · refine column_gone (fun _ => mem_deleteUser) fun row hrow hkey => ?_
    cases row with
    | cursor row =>
      change deviceOwner db row.deviceId=some userId
      rw [deviceOwner_eq,(Key.cursor.inj hkey).1]
      exact howner
    | _ => cases hkey
  · refine column_kept (fun _ => mem_deleteUser) fun row hrow hkey hgone => howner ?_
    cases row with
    | cursor row =>
      rw [←(Key.cursor.inj hkey).1,←deviceOwner_eq]
      exact hgone
    | _ => cases hkey

end

end TokiSync.TableViews
