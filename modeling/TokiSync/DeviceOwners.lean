import TokiSync.ConnectionAuth

/-!
# Owners of devices

A device belongs to the user its row refers to. No call of the repository gives
it to another user, and only its deletion or that of its owner ends the
ownership. A connection uploads for a device that the database found or created
for the connection's user, so all uploads for a device that is not deleted
meanwhile are for its one owner.
-/

namespace TokiSync.DeviceOwners

open Runs ReferencedRows ByteCodec ServerEvents WireWindows SyncBatches
open DatabaseRepo DatabaseRuns SyncConnection SyncServer ConnectionAuth InterleavedSessions
open OidcAccounts (Backend)

/-- Calls that take a device away from its owner. -/
def Disowns (deviceId userId : String) : DatabaseRuns.Write → Prop
  | .deleteUser id => id=userId
  | .deleteDevice id => id=deviceId
  | .deleteUserDevice id owner => id=deviceId ∧ owner=userId
  | _ => False

section

variable {db : Tables} {deviceId userId : String} {backend : Backend}

/-- The rows that keep a device with its owner. -/
def Keeps (deviceId userId : String) (row : Row) : Prop :=
  row.key=.user userId ∨ (row.key=.device deviceId ∧ row.refs=[.user userId])

theorem keeps_detached (rows : List Row) : Detached schema rows (Keeps deviceId userId) := by
  rintro row - (hkey | ⟨-,hrefs⟩) parent - href
  · obtain ⟨user,rfl,-⟩ := key_user hkey
    exact absurd href List.not_mem_nil
  · change parent.key∈row.refs at href
    rw [hrefs] at href
    exact .inl (List.mem_singleton.mp href)

/-- A deletion selects no row that keeps a device with its owner unless it
takes the device away. -/
theorem not_mayDelete {w : DatabaseRuns.Write} (hw : ¬Disowns deviceId userId w) {row : Row}
    (hrow : w.MayDelete row) : ¬Keeps deviceId userId row := by
  have hother : ∀ {k : Key}, row.key=k → k≠.user userId → k≠.device deviceId →
      ¬Keeps deviceId userId row := by
    rintro k rfl huser hdevice (hkey | ⟨hkey,-⟩)
    · exact huser hkey
    · exact hdevice hkey
  cases w with
  | deleteUser id =>
    refine hother hrow (fun h => hw (Key.user.inj h)) (fun h => ?_)
    cases h
  | deleteDevice id =>
    refine hother hrow (fun h => ?_) (fun h => hw (Key.device.inj h))
    cases h
  | deleteUserDevice id owner =>
    cases row with
    | device device =>
      obtain ⟨hid,huser⟩ : device.id=id ∧ device.userId=owner := by
        simpa [DatabaseRuns.Write.MayDelete,isUserDevice] using hrow
      rintro (hkey | ⟨hkey,hrefs⟩)
      · cases hkey
      · have howner : device.userId=userId := Key.user.inj (List.singleton_injective hrefs)
        exact hw ⟨hid.symm.trans (Key.device.inj hkey),huser.symm.trans howner⟩
    | _ => cases hrow
  | deleteTeam id => exact hother hrow Key.noConfusion Key.noConfusion
  | removeTeamMember teamId member => exact hother hrow Key.noConfusion Key.noConfusion
  | approveRegistration id user now => exact hother hrow Key.noConfusion Key.noConfusion
  | rejectRegistration id => exact hother hrow Key.noConfusion Key.noConfusion
  | deleteDeviceCode code => exact hother hrow Key.noConfusion Key.noConfusion
  | deleteMonitorSetting user key ifVersion => exact hother hrow Key.noConfusion Key.noConfusion
  | cleanupOldPendingRegistrations maxAgeSecs now =>
    cases row with
    | pendingRegistration row => exact hother rfl Key.noConfusion Key.noConfusion
    | _ => cases hrow
  | cleanupExpiredTokens now =>
    cases row with
    | refreshToken jti row => exact hother rfl Key.noConfusion Key.noConfusion
    | _ => cases hrow
  | cleanupExpiredDeviceCodes now =>
    cases row with
    | deviceCode row => exact hother rfl Key.noConfusion Key.noConfusion
    | _ => cases hrow
  | _ => exact hrow.elim

/-- A device stays with its owner through every call that does not take it
away. -/
theorem owner_stays {w : DatabaseRuns.Write} (h : deviceOwner db deviceId=some userId)
    (hw : ¬Disowns deviceId userId w) :
    deviceOwner (perform backend db w) deviceId=some userId := by
  obtain ⟨device,hdevice,hid,huser⟩ := deviceOwner_eq_some.mp h
  obtain ⟨statements,run,hall⟩ := perform_does backend db w
  have hkeeps : Keeps deviceId userId (.device device) :=
    .inr ⟨congrArg Key.device hid,congrArg (fun id => [Key.user id]) huser⟩
  have hseen : ∀ row other : Row, row.key=other.key → row.refs=other.refs →
      Keeps deviceId userId row → Keeps deviceId userId other := by
    intro row other hkey hrefs
    unfold Keeps
    rw [hkey,hrefs]
    exact id
  have hdeleted : ∀ s∈statements,
      s.Selects (fun _ => True) fun row => ¬Keeps deviceId userId row := by
    intro s hs
    have hselects := (hall s hs).2
    cases s with
    | insert row => exact True.intro
    | update p f hf => exact fun _ _ => True.intro
    | delete p => exact fun row hp => not_mayDelete hw (hselects row hp)
  obtain ⟨row,hrow,hkey,hrefs⟩ := lasting run keeps_detached hseen hdeleted hdevice hkeeps
  obtain ⟨after,rfl,hafter⟩ := key_device hkey
  have howner : after.userId=device.userId := Key.user.inj (List.singleton_injective hrefs)
  exact deviceOwner_eq_some.mpr ⟨after,hrow,hafter.trans hid,howner.trans huser⟩

/-- A device found by its key belongs to the user it was asked for. -/
theorem owner_of_found {deviceKey : String}
    (h : findDeviceByKeyAndUser db deviceKey userId=some deviceId) :
    deviceOwner db deviceId=some userId := by
  obtain ⟨row,hrow,hfound⟩ := List.exists_of_findSome?_eq_some h
  cases row with
  | device device =>
    dsimp only at hfound
    split_ifs at hfound with hmatch
    exact deviceOwner_eq_some.mpr ⟨device,hrow,Option.some.inj hfound,hmatch.2⟩
  | _ => cases hfound

/-- A device that was created belongs to the user it was created for. -/
theorem owner_of_created {db' : Tables} {name deviceKey : String} {now : Int64}
    (h : createDevice db deviceId userId name deviceKey now=.ok db') :
    deviceOwner db' deviceId=some userId := by
  have hinsert : Database.insert db (.device ⟨deviceId,userId,name,some deviceKey,now,now⟩)=
      .ok db' := by
    unfold createDevice DatabaseRepo.insert at h
    cases hresult : Database.insert db (.device ⟨deviceId,userId,name,some deviceKey,now,now⟩) with
    | ok t =>
      rw [hresult] at h
      exact congrArg Except.ok (Except.ok.inj h)
    | error e =>
      rw [hresult] at h
      cases h
  exact deviceOwner_eq_some.mpr ⟨_,(Database.mem_of_insert hinsert).mpr (.inr rfl),rfl,rfl⟩

end

/-- Nothing outside has taken a device away from a user. -/
def Undisturbed (history : List ServerLabel) (deviceId userId : String) : Prop :=
  ∀ w, .environment (.write w)∈history → ¬Disowns deviceId userId w

/-- What connections have been told about the owners of their devices holds. -/
def OwnersKnown (F : Formats) (past : List ServerLabel) (s : Server) : Prop :=
  ∀ i auth userId deviceId, HasDevice ((evidence F).follow (own i past)) auth userId deviceId →
    Undisturbed past deviceId userId → deviceOwner s.db deviceId=some userId

section

variable {F : Formats} {eventCodec : Codec PersistedEvent} {windowCodec : Codec WireWindow}
variable {backend : Backend} {dedupRetentionSecs : Int64} {past : List ServerLabel} {s t : Server}

theorem Undisturbed.tail {label : ServerLabel} {deviceId userId : String}
    (h : Undisturbed (label::past) deviceId userId) : Undisturbed past deviceId userId :=
  fun w hw => h w (List.mem_cons_of_mem _ hw)

/-- No call of a connection takes a device away. -/
theorem not_disowns_asks {now : Int64} {op : Call} {w : DatabaseRuns.Write}
    (h : asks now op=some w) (deviceId userId : String) : ¬Disowns deviceId userId w := by
  cases op <;> cases h <;> exact not_false

/-- What is known stays true when a step tells nothing new. -/
theorem OwnersKnown.same (h : OwnersKnown F past s) {label : ServerLabel}
    (hfollow : ∀ i auth userId deviceId,
      HasDevice ((evidence F).follow (own i (label::past))) auth userId deviceId →
      HasDevice ((evidence F).follow (own i past)) auth userId deviceId)
    (hdb : t.db=s.db) : OwnersKnown F (label::past) t := by
  intro i auth userId deviceId hdevice hundisturbed
  rw [hdb]
  exact h i auth userId deviceId (hfollow i auth userId deviceId hdevice) hundisturbed.tail

/-- Only calls tell a connection about its device. -/
theorem OwnersKnown.session (h : OwnersKnown F past s) {i : ℕ} {e : Happening}
    (he : isCall e=false) (hdb : t.db=s.db) : OwnersKnown F (.session i e::past) t := by
  refine h.same (fun j auth userId deviceId hdevice => ?_) hdb
  by_cases hj : i=j
  · subst hj
    rw [own_session] at hdevice
    cases e with
    | call op reply => cases he
    | arrive arrival =>
      rcases hdevice with hfound | ⟨hid,name,hcreated⟩
      · rcases List.mem_cons.mp hfound with hnew | hfound
        · cases hnew
        · exact .inl hfound
      · rcases List.mem_cons.mp hcreated with hnew | hcreated
        · cases hnew
        · exact .inr ⟨hid,name,hcreated⟩
    | _ => exact hdevice
  · rw [own_session_of_ne hj] at hdevice
    exact hdevice

/-- A call that tells a connection about its device tells the truth. -/
theorem OwnersKnown.call (h : OwnersKnown F past s) {i : ℕ} {op : Call} {reply : Answer op}
    (heffect : Calls F eventCodec windowCodec i op s reply t) :
    OwnersKnown F (.session i (.call op reply)::past) t := by
  intro j auth userId deviceId hdevice hundisturbed
  have hstays : deviceOwner s.db deviceId=some userId → deviceOwner t.db deviceId=some userId := by
    intro howner
    rcases db_of_call .sqlite heffect with hsame | ⟨now,w,hasks,hdone⟩
    · rw [hsame]
      exact howner
    · rw [hdone]
      exact owner_stays howner (not_disowns_asks hasks deviceId userId)
  have hold : HasDevice ((evidence F).follow (own j past)) auth userId deviceId →
      deviceOwner t.db deviceId=some userId :=
    fun hdevice => hstays (h j auth userId deviceId hdevice hundisturbed.tail)
  by_cases hj : i=j
  · subst hj
    rw [own_session] at hdevice
    rcases hdevice with hfound | ⟨hid,name,hcreated⟩
    · rcases List.mem_cons.mp hfound with hfound | hfound
      · cases hfound
        obtain ⟨-,hreply | ⟨e,hreply⟩⟩ := heffect
        · exact hstays (owner_of_found (Except.ok.inj hreply).symm)
        · cases hreply
      · exact hold (.inl hfound)
    · rcases List.mem_cons.mp hcreated with hcreated | hcreated
      · cases hcreated
        obtain ⟨now,heffect⟩ := heffect
        cases hresult : createDevice s.db deviceId userId name deviceId now with
        | error e =>
          rw [hresult] at heffect
          obtain ⟨-,e,hreply⟩ := heffect
          cases hreply
        | ok db =>
          rw [hresult] at heffect
          rcases heffect with ⟨rfl,-⟩ | ⟨-,e,hreply⟩
          · exact owner_of_created hresult
          · cases hreply
      · exact hold (.inr ⟨hid,name,hcreated⟩)
  · rw [own_session_of_ne hj] at hdevice
    exact hold hdevice

/-- Steps of the server keep what connections know about owners. -/
theorem upholds_owners : Upholds (evidence F) (Shown F) (services F eventCodec windowCodec backend)
    (OwnersKnown F) where
  opened past i s t h heffect := by
    obtain ⟨connections,-,rfl⟩ := heffect
    exact h.session rfl rfl
  arrive past i arrival s waiting h _ := h.session rfl rfl
  call past i op s reply t h hmay heffect :=
    ⟨(upholds_evidence.call past i op s reply t True.intro hmay heffect).1,h.call heffect⟩
  finish past i s h := h.session rfl rfl
  closed past i s t h heffect := by
    cases heffect
    exact h.session rfl db_hangUp
  dropped past i s t h heffect := by
    cases heffect
    exact h.session rfl db_hangUp
  environment past e s t h heffect := by
    have hsame : t.db=s.db → OwnersKnown F (.environment e::past) t :=
      h.same fun _ _ _ _ hdevice => hdevice
    cases e with
    | write w =>
      cases heffect
      intro i auth userId deviceId hdevice hundisturbed
      exact owner_stays (h i auth userId deviceId hdevice hundisturbed.tail)
        (hundisturbed w List.mem_cons_self)
    | _ =>
      cases heffect
      exact hsame rfl

theorem not_hasDevice_nil {auth : AuthPayload} {userId deviceId : String} :
    ¬HasDevice [] auth userId deviceId := by
  rintro (hfound | ⟨-,name,hcreated⟩)
  · exact List.not_mem_nil hfound
  · exact List.not_mem_nil hcreated

variable {init host : SyncHost} {history : List ServerLabel} {i : ℕ}
variable {events : List ServerEvent} {reply : Except String Unit} {e : ServerEvent}

/-- What a connection hands to the event store is of the owner of the device. -/
theorem owner_of_upload (hunopened : ∀ i, init.phases i=.unopened)
    (run : Run (ServerStep F eventCodec windowCodec backend dedupRetentionSecs) init history host)
    (hcall : .session i (.call (.upsertEvents events) reply)∈history) (he : e∈events)
    (hundisturbed : Undisturbed history e.deviceId e.userId) :
    deviceOwner host.shared.db e.deviceId=some e.userId := by
  have hknown : OwnersKnown F history host.shared :=
    (upheld True.intro (handles_evidence F dedupRetentionSecs) upholds_owners
      (fun _ _ _ _ hdevice _ => absurd hdevice not_hasDevice_nil) hunopened run).1
  obtain ⟨newer,older,rfl⟩ := List.append_of_mem hcall
  obtain ⟨upload,haccepted,rfl,-,-⟩ := authorized_of_run hunopened run
  obtain ⟨auth,-,hdevice,-⟩ := haccepted.serving
  obtain ⟨hdeviceId,huserId,-⟩ := Upload.ids_of_mem he
  rw [hdeviceId,huserId] at hundisturbed ⊢
  refine hknown i auth upload.userId upload.deviceId ?_ hundisturbed
  rw [follow_own]
  refine hdevice.later fun event hevent => ?_
  rw [inner_append]
  exact List.mem_append_right _ (inner_subset _ _ _ hevent)

/-- While nobody deletes a device or its owner, everything that was uploaded for
the device, on whatever connections, was uploaded for the user to whom it
belongs in the database. -/
theorem uploads_of_owner (hunopened : ∀ i, init.phases i=.unopened)
    (run : Run (ServerStep F eventCodec windowCodec backend dedupRetentionSecs) init history host)
    (hcall : .session i (.call (.upsertEvents events) reply)∈history) (he : e∈events)
    (hundisturbed : Undisturbed history e.deviceId e.userId) :
    deviceOwner host.shared.db e.deviceId=some e.userId :=
  owner_of_upload hunopened run hcall he hundisturbed

/-- The device of a first batch belongs to the user who uploads it. -/
theorem uploads_of_owner_sample : ∃ host, SampleRun host ∧
    deviceOwner host.shared.db "d1"=some "u1" := by
  obtain ⟨s,rest,run,-⟩ := sampleRun
  have hundisturbed : Undisturbed sampleLabels "d1" "u1" := by
    intro w hw
    obtain ⟨event,-,hevent⟩ := List.mem_map.mp hw
    cases hevent
  exact ⟨_,run,
    uploads_of_owner (fun _ => rfl) run List.mem_cons_self List.mem_cons_self hundisturbed⟩

end

end TokiSync.DeviceOwners
