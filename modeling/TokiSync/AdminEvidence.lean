import TokiSync.UserEvidence

/-!
# Evidence of the requests of administrators

The requests below `/admin`, handler by handler, and from all handlers that the
server makes only authorized calls.
-/

namespace TokiSync.AdminEvidence

open DatabaseCalls InterleavedSessions WebRequests WebHandlers AdminHandlers WebRoutes
open WebEvidence WebAuthority LoginEvidence UserEvidence
open AdminAccounts (AppError validateUsername validatePassword validateRole)
open UniqueConflicts (teamName teamRoles)

section

variable {E : Environment} {past past' : List Happening} {userId : String} {peer : Peer}

/-- What is read for an administrator is shown to the administrator. -/
theorem ensures_adminRead {route : Route} {q : Query} {body : q.Result → Body}
    (hread : ∀ past, ByAdmin past → Readable E past q)
    (hshows : ∀ past r, ByAdmin past → .call (.read q) (.ok r)∈past → Shows E past (body r))
    (harrive : .arrive ⟨peer,route⟩∈past) (hfree : Untouched past) :
    Ensures (evidence E) (Answerable E) (Stops E) past (do
      let _ ← requireAdmin peer
      let r ← read q
      pure ⟨200,body r⟩) := by
  refine (ensures_requireAdmin harrive hfree).bind fun past₁ adminId hadmin => ?_
  refine ensures_read (hread _ ⟨adminId,hadmin.2⟩) fun r => ?_
  exact answered (by omega)
    (hshows _ r (ByAdmin.mono ⟨adminId,hadmin.2⟩ (List.subset_cons_self _ _)) List.mem_cons_self)

theorem ensures_adminListUsers (harrive : .arrive ⟨peer,.adminListUsers⟩∈past)
    (hfree : Untouched past) :
    Ensures (evidence E) (Answerable E) (Stops E) past (adminListUsers peer) :=
  ensures_adminRead (fun _ h => h) (fun _ _ h hread => ⟨h,hread⟩) harrive hfree

theorem ensures_adminListDevices (harrive : .arrive ⟨peer,.adminListDevices⟩∈past)
    (hfree : Untouched past) :
    Ensures (evidence E) (Answerable E) (Stops E) past (adminListDevices peer) :=
  ensures_adminRead (fun _ h => h) (fun _ _ h hread => ⟨h,hread⟩) harrive hfree

theorem ensures_adminListPending (harrive : .arrive ⟨peer,.adminListPending⟩∈past)
    (hfree : Untouched past) :
    Ensures (evidence E) (Answerable E) (Stops E) past (adminListPending peer) :=
  ensures_adminRead (fun _ h => h) (fun _ _ h hread => ⟨h,hread⟩) harrive hfree

theorem ensures_adminListTeams (harrive : .arrive ⟨peer,.adminListTeams⟩∈past)
    (hfree : Untouched past) :
    Ensures (evidence E) (Answerable E) (Stops E) past (adminListTeams peer) :=
  ensures_adminRead (fun _ h => h) (fun _ _ h hread => ⟨h,hread⟩) harrive hfree

theorem ensures_adminCreateUser {username password : String} {role : Option String}
    (harrive : .arrive ⟨peer,.adminCreateUser username password role⟩∈past)
    (hfree : Untouched past) :
    Ensures (evidence E) (Answerable E) (Stops E) past
      (adminCreateUser E peer username password role) := by
  refine (ensures_requireAdmin harrive hfree).bind fun past₁ adminId hadmin => ?_
  refine ensures_require hadmin.1.free fun _ hname => ?_
  refine ensures_require hadmin.1.free fun _ hpassword => ?_
  refine ensures_ask hadmin.1 True.intro (fun _ => True.intro) fun hashed hq => ?_
  refine ensures_orInternal fun hash hhash => ?_
  subst hhash
  refine ensures_ask hq True.intro (fun _ => True.intro) fun id hq => ?_
  refine ensures_require hq.free fun _ hrole => ?_
  refine ensures_ask hq True.intro (fun _ => True.intro) fun now hq => ?_
  have hsub : past₁⊆.call .timestamp now::.call .newUuid id::
      .call (.hashPassword password) (.ok hash)::past₁ :=
    List.subset_cons_of_subset _ (List.subset_cons_of_subset _ (List.subset_cons_self _ _))
  have hmay : Permitted E _ (.createUser id username hash (role.getD "user") now) :=
    ⟨password,by simp [Hashed],hname,hpassword,.inl ⟨role,
      ByAdmin.mono ⟨adminId,hadmin.2⟩ hsub,⟨peer,hq.sub harrive⟩,rfl,hrole⟩⟩
  refine Ensures.bind (ensures_insertOr hq.free hmay (by simp)
    fun past' hfree => ensures_nothing hfree) fun past₂ _ _ => ?_
  exact answered (by omega) True.intro

/-- An administrator deletes a user with devices that were listed. -/
structure Deleting (past : List Happening) (userId : String) (deviceIds : List String) : Prop where
  /-- The request is by an administrator. -/
  admin : ByAdmin past
  /-- It is for the deletion. -/
  asked : Asked past (.adminDeleteUser userId)
  /-- The devices were read. -/
  listed : .call (.read (.getUserDeviceIds userId)) (.ok deviceIds)∈past

theorem Deleting.mono {deviceIds : List String} (h : Deleting past userId deviceIds)
    (hsub : past⊆past') : Deleting past' userId deviceIds :=
  ⟨ByAdmin.mono h.admin hsub,Asked.mono h.asked hsub,hsub h.listed⟩

/-- The events of the devices of a user who is deleted are purged. -/
theorem ensures_purgeDevices {deviceIds purged : List String}
    (h : Deleting past userId deviceIds) (hpurged : purged⊆deviceIds) :
    Ensures (evidence E) (fun past' _ => Deleting past' userId deviceIds) (Stops E) past
      (purgeDevices purged) := by
  induction purged generalizing past with
  | nil => exact h
  | cons deviceId rest ih =>
    refine ensures_call (.inr ⟨h.admin,.inr ⟨userId,deviceIds,h.asked,h.listed,
      hpurged List.mem_cons_self⟩⟩) fun reply _ => ?_
    exact ih (h.mono (List.subset_cons_self _ _)) fun _ hmem => hpurged (List.mem_cons_of_mem _ hmem)

/-- A user who is not found has been purged nevertheless. -/
theorem ensures_purgeUser (hadmin : ByAdmin past) (hasked : Asked past (.adminDeleteUser userId)) :
    Ensures (evidence E) (Answerable E) (Stops E) past (purgeUser userId) := by
  refine ensures_read hadmin fun deviceIds => ?_
  have h : Deleting (.call (.read (.getUserDeviceIds userId)) (.ok deviceIds)::past) userId
      deviceIds :=
    Deleting.mk (ByAdmin.mono hadmin (List.subset_cons_self _ _))
      (Asked.mono hasked (List.subset_cons_self _ _)) List.mem_cons_self
  refine ensures_call True.intro fun now _ => ?_
  have h := h.mono (List.subset_cons_self (.call .timestamp now) _)
  obtain ⟨adminId,hadmin⟩ := h.admin
  have hmay : Permitted E _ (.setUserActive userId false now) :=
    ⟨adminId,hadmin,.inl ⟨rfl,h.asked⟩⟩
  refine ensures_call hmay fun deactivated _ => ?_
  have h := h.mono (List.subset_cons_self (.call (.write (.setUserActive userId false now))
    deactivated) _)
  refine ensures_call h.admin fun evicted _ => ?_
  have h := h.mono (List.subset_cons_self (.call (.evict userId) evicted) _)
  refine Ensures.bind (ensures_purgeDevices h (List.Subset.refl _)) fun past₁ _ h => ?_
  refine ensures_call ⟨h.admin,h.asked⟩ fun purged _ => ?_
  have h := h.mono (List.subset_cons_self (.call (.deleteUserWindows userId) purged) _)
  have hdelete : Permitted E _ (.deleteUser userId) := ⟨h.admin,h.asked⟩
  refine ensures_write hdelete fun deleted => ?_
  have h := h.mono (List.subset_cons_self (.call (.write (.deleteUser userId)) (.ok deleted)) _)
  split
  · refine ensures_call ⟨h.admin,h.asked⟩ fun purged _ => ?_
    have h := h.mono (List.subset_cons_self (.call (.deleteUserWindows userId) purged) _)
    refine Ensures.bind (ensures_purgeDevices h (List.Subset.refl _)) fun past₂ _ _ => ?_
    exact answered (by omega) True.intro
  · exact ensures_refuse ⟨True.intro,fun _ => .inr ⟨_,h.asked,rfl⟩⟩

theorem ensures_adminDeleteUser (harrive : .arrive ⟨peer,.adminDeleteUser userId⟩∈past)
    (hfree : Untouched past) :
    Ensures (evidence E) (Answerable E) (Stops E) past (adminDeleteUser peer userId) := by
  refine (ensures_requireAdmin harrive hfree).bind fun past₁ adminId hadmin => ?_
  refine ensures_ask hadmin.1 (.inr ⟨adminId,hadmin.2⟩) (fun _ => True.intro) fun reply hq => ?_
  have hpurge : Ensures (evidence E) (Answerable E) (Stops E)
      (.call (.read (.getUserById userId)) reply::past₁) (purgeUser userId) :=
    ensures_purgeUser (ByAdmin.mono ⟨adminId,hadmin.2⟩ (List.subset_cons_self _ _))
      ⟨peer,hq.sub harrive⟩
  split
  · split
    · exact ensures_refuse (stops_free hq.free _)
    · exact hpurge
  · exact hpurge

theorem ensures_adminChangeUserPassword {password : String}
    (harrive : .arrive ⟨peer,.adminChangeUserPassword userId password⟩∈past)
    (hfree : Untouched past) :
    Ensures (evidence E) (Answerable E) (Stops E) past
      (adminChangeUserPassword peer userId password) := by
  refine (ensures_requireAdmin harrive hfree).bind fun past₁ adminId hadmin => ?_
  refine ensures_find hadmin.1 (.inr ⟨adminId,hadmin.2⟩) fun found hq => ?_
  refine ensures_orRefuse hq.free fun user _ => ?_
  have hby := ByAdmin.mono ⟨adminId,hadmin.2⟩
    (List.subset_cons_self (.call (.read (.getUserById userId)) (.ok found)) past₁)
  refine ensures_changePassword (.inr hby) ?_ hq.free
  intro past' hash now hsub hhashed hpassword
  exact ⟨password,hhashed,hpassword,.inl ⟨ByAdmin.mono hby hsub,⟨peer,hsub (hq.sub harrive)⟩⟩⟩

theorem ensures_adminChangeUserRole {role : String}
    (harrive : .arrive ⟨peer,.adminChangeUserRole userId role⟩∈past) (hfree : Untouched past) :
    Ensures (evidence E) (Answerable E) (Stops E) past (adminChangeUserRole peer userId role) := by
  refine (ensures_requireAdmin harrive hfree).bind fun past₁ adminId hadmin => ?_
  refine ensures_require hadmin.1.free fun _ hrole => ?_
  refine ensures_ask hadmin.1 True.intro (fun _ => True.intro) fun now hq => ?_
  have hmay : Permitted E _ (.updateUserRole userId role now) :=
    ⟨ByAdmin.mono ⟨adminId,hadmin.2⟩ (List.subset_cons_self (.call .timestamp now) past₁),
      ⟨peer,hq.sub harrive⟩,hrole⟩
  refine ensures_write hmay fun updated => ?_
  exact ensures_noContentIf fun hidle => untouched_cons hidle hq.free

/-- A user who was found is activated or deactivated, but not by himself. -/
theorem ensures_changeActive {active : Bool} {adminId : String} (hadmin : Admin past adminId)
    (hasked : Asked past (.adminSetUserActive userId active))
    (hother : active=false → userId≠adminId) (hfree : Untouched past) :
    Ensures (evidence E) (Answerable E) (Stops E) past (changeActive userId active) := by
  refine ensures_ask (.refl hfree) True.intro (fun _ => True.intro) fun now hq => ?_
  have hmay : Permitted E _ (.setUserActive userId active now) :=
    ⟨adminId,Admin.mono hadmin hq.sub,.inr ⟨Asked.mono hasked hq.sub,hother⟩⟩
  refine ensures_write hmay fun changed => ?_
  have hsub := List.subset_cons_of_subset
    (.call (.write (.setUserActive userId active now)) (.ok changed)) hq.sub
  split
  · rename_i hchanged
    subst hchanged
    refine ensures_call ⟨adminId,Admin.mono hadmin hsub⟩ fun evicted _ => ?_
    have hsub := List.subset_cons_of_subset (.call (.evict userId) evicted) hsub
    split
    · exact answered (by omega) True.intro
    · rename_i hactive
      have hrevoke : Permitted E _ (.revokeUserRefreshTokens userId) :=
        ⟨.inr ⟨adminId,Admin.mono hadmin hsub⟩,.inr ⟨now,by simp [hactive]⟩⟩
      refine ensures_write hrevoke fun _ => ?_
      exact answered (by omega) True.intro
  · rename_i hidle
    have hidle : Harmless (.call (.write (.setUserActive userId active now)) (.ok changed)) := by
      simpa [Harmless,Write.Idle] using hidle
    exact ensures_refuse (stops_free (untouched_cons hidle hq.free) _)

theorem ensures_adminSetUserActive {active : Bool}
    (harrive : .arrive ⟨peer,.adminSetUserActive userId active⟩∈past) (hfree : Untouched past) :
    Ensures (evidence E) (Answerable E) (Stops E) past (adminSetUserActive peer userId active) := by
  refine (ensures_requireAdmin harrive hfree).bind fun past₁ adminId hadmin => ?_
  split
  · exact ensures_refuse (stops_free hadmin.1.free _)
  · rename_i hself
    have hother : active=false → userId≠adminId := fun hactive hsame => hself ⟨hactive,hsame⟩
    refine ensures_find hadmin.1 (.inr ⟨adminId,hadmin.2⟩) fun found hq => ?_
    refine ensures_orRefuse hq.free fun user _ => ?_
    have hadmin := Admin.mono hadmin.2
      (List.subset_cons_self (.call (.read (.getUserById userId)) (.ok found)) past₁)
    split
    · refine ensures_find hq ⟨adminId,hadmin⟩ fun others hq => ?_
      split
      · exact ensures_refuse (stops_free hq.free _)
      · exact ensures_changeActive (Admin.mono hadmin (List.subset_cons_self _ _))
          ⟨peer,hq.sub harrive⟩ hother hq.free
    · exact ensures_changeActive hadmin ⟨peer,hq.sub harrive⟩ hother hq.free

/-- A device that is not found has been purged nevertheless. -/
theorem ensures_adminDeleteDevice {deviceId : String}
    (harrive : .arrive ⟨peer,.adminDeleteDevice deviceId⟩∈past) (hfree : Untouched past) :
    Ensures (evidence E) (Answerable E) (Stops E) past (adminDeleteDevice peer deviceId) := by
  refine (ensures_requireAdmin harrive hfree).bind fun past₁ adminId hadmin => ?_
  have hasked : Asked past₁ (.adminDeleteDevice deviceId) := ⟨peer,hadmin.1.sub harrive⟩
  have hby : ByAdmin past₁ := ⟨adminId,hadmin.2⟩
  refine ensures_call (.inr ⟨hby,.inl hasked⟩) fun purged _ => ?_
  have hsub := List.subset_cons_self (.call (.deleteDeviceEvents deviceId) purged) past₁
  have hmay : Permitted E _ (.deleteDevice deviceId) :=
    ⟨ByAdmin.mono hby hsub,Asked.mono hasked hsub⟩
  refine ensures_write hmay fun deleted => ?_
  have hsub := List.subset_cons_of_subset
    (.call (.write (.deleteDevice deviceId)) (.ok deleted)) hsub
  split
  · refine ensures_call (.inr ⟨ByAdmin.mono hby hsub,.inl (Asked.mono hasked hsub)⟩)
      fun _ _ => ?_
    exact answered (by omega) True.intro
  · exact ensures_refuse ⟨True.intro,fun _ => .inr ⟨_,Asked.mono hasked hsub,rfl⟩⟩

theorem ensures_adminApprovePending {id : String}
    (harrive : .arrive ⟨peer,.adminApprovePending id⟩∈past) (hfree : Untouched past) :
    Ensures (evidence E) (Answerable E) (Stops E) past (adminApprovePending peer id) := by
  refine (ensures_requireAdmin harrive hfree).bind fun past₁ adminId hadmin => ?_
  refine ensures_ask hadmin.1 True.intro (fun _ => True.intro) fun newId hq => ?_
  refine ensures_ask hq True.intro (fun _ => True.intro) fun now hq => ?_
  have hmay : Permitted E _ (.approveRegistration id newId now) :=
    ⟨ByAdmin.mono ⟨adminId,hadmin.2⟩ (List.subset_cons_of_subset _ (List.subset_cons_self _ _)),
      ⟨peer,hq.sub harrive⟩⟩
  refine ensures_call hmay fun reply _ => ?_
  cases reply with
  | ok approved => exact ensures_noContentIf fun hidle => untouched_cons hidle hq.free
  | error e =>
    dsimp only
    split
    · rename_i hmentions
      have hviolation : Harmless (.call (.write (.approveRegistration id newId now)) (.error e)) :=
        Or.inl hmentions
      exact ensures_refuse (stops_free (untouched_cons hviolation hq.free) _)
    · exact ensures_refuse stops_internal

theorem ensures_adminRejectPending {id : String}
    (harrive : .arrive ⟨peer,.adminRejectPending id⟩∈past) (hfree : Untouched past) :
    Ensures (evidence E) (Answerable E) (Stops E) past (adminRejectPending peer id) := by
  refine (ensures_requireAdmin harrive hfree).bind fun past₁ adminId hadmin => ?_
  have hmay : Permitted E _ (.rejectRegistration id) :=
    ⟨⟨adminId,hadmin.2⟩,⟨peer,hadmin.1.sub harrive⟩⟩
  refine ensures_write hmay fun rejected => ?_
  exact ensures_noContentIf fun hidle => untouched_cons hidle hadmin.1.free

theorem ensures_adminServerInfo (harrive : .arrive ⟨peer,.adminServerInfo⟩∈past)
    (hfree : Untouched past) :
    Ensures (evidence E) (Answerable E) (Stops E) past (adminServerInfo E peer) := by
  refine (ensures_requireAdmin harrive hfree).bind fun past₁ adminId hadmin => ?_
  refine (ensures_setting hadmin.1.free _).bind fun past₂ mode hmode => ?_
  refine (ensures_setting hmode.1.free _).bind fun past₃ issuer hissuer => ?_
  refine (ensures_setting hissuer.1.free _).bind fun past₄ clientId hclient => ?_
  refine (ensures_setting hclient.1.free _).bind fun past₅ redirectUri hredirect => ?_
  have hq := ((hmode.1.trans hissuer.1).trans hclient.1).trans hredirect.1
  exact answered (by omega) (ByAdmin.mono ⟨adminId,hadmin.2⟩ hq.sub)

theorem ensures_adminListSettings (harrive : .arrive ⟨peer,.adminListSettings⟩∈past)
    (hfree : Untouched past) :
    Ensures (evidence E) (Answerable E) (Stops E) past (adminListSettings E peer) := by
  refine (ensures_requireAdmin harrive hfree).bind fun past₁ adminId hadmin => ?_
  refine (ensures_setting hadmin.1.free _).bind fun past₂ mode hmode => ?_
  refine (ensures_setting hmode.1.free _).bind fun past₃ issuer hissuer => ?_
  refine (ensures_setting hissuer.1.free _).bind fun past₄ clientId hclient => ?_
  refine (ensures_setting hclient.1.free _).bind fun past₅ clientSecret hsecret => ?_
  refine (ensures_setting hsecret.1.free _).bind fun past₆ redirectUri hredirect => ?_
  refine (ensures_setting hredirect.1.free _).bind fun past₇ scope hscope => ?_
  have hq := ((((hmode.1.trans hissuer.1).trans hclient.1).trans hsecret.1).trans
    hredirect.1).trans hscope.1
  exact answered (by omega) (ByAdmin.mono ⟨adminId,hadmin.2⟩ hq.sub)

theorem ensures_adminUpdateSetting {key value : String}
    (harrive : .arrive ⟨peer,.adminUpdateSetting key value⟩∈past) (hfree : Untouched past) :
    Ensures (evidence E) (Answerable E) (Stops E) past (adminUpdateSetting peer key value) := by
  refine (ensures_requireAdmin harrive hfree).bind fun past₁ adminId hadmin => ?_
  refine ensures_require hadmin.1.free fun _ hsetting => ?_
  refine ensures_ask hadmin.1 True.intro (fun _ => True.intro) fun now hq => ?_
  have hmay : Permitted E _ (.setServerSetting key value now) :=
    ⟨ByAdmin.mono ⟨adminId,hadmin.2⟩ (List.subset_cons_self (.call .timestamp now) past₁),
      ⟨peer,hq.sub harrive⟩,hsetting⟩
  refine ensures_write hmay fun _ => ?_
  split
  · refine ensures_call True.intro fun _ _ => ?_
    exact answered (by omega) True.intro
  · exact answered (by omega) True.intro

theorem ensures_adminCreateTeam {name : String}
    (harrive : .arrive ⟨peer,.adminCreateTeam name⟩∈past) (hfree : Untouched past) :
    Ensures (evidence E) (Answerable E) (Stops E) past (adminCreateTeam peer name) := by
  refine (ensures_requireAdmin harrive hfree).bind fun past₁ adminId hadmin => ?_
  split
  · exact ensures_refuse (stops_free hadmin.1.free _)
  · rename_i hname
    refine ensures_ask hadmin.1 True.intro (fun _ => True.intro) fun id hq => ?_
    refine ensures_ask hq True.intro (fun _ => True.intro) fun now hq => ?_
    have hmay : Permitted E _ (.createTeam id (teamName name) now) :=
      ⟨ByAdmin.mono ⟨adminId,hadmin.2⟩ (List.subset_cons_of_subset _ (List.subset_cons_self _ _)),
        hname,name,⟨peer,hq.sub harrive⟩,rfl⟩
    refine Ensures.bind (ensures_insertOr hq.free hmay (by simp)
      fun past' hfree => ensures_nothing hfree) fun past₂ _ _ => ?_
    exact answered (by omega) True.intro

theorem ensures_adminDeleteTeam {teamId : String}
    (harrive : .arrive ⟨peer,.adminDeleteTeam teamId⟩∈past) (hfree : Untouched past) :
    Ensures (evidence E) (Answerable E) (Stops E) past (adminDeleteTeam peer teamId) := by
  refine (ensures_requireAdmin harrive hfree).bind fun past₁ adminId hadmin => ?_
  have hmay : Permitted E _ (.deleteTeam teamId) :=
    ⟨⟨adminId,hadmin.2⟩,⟨peer,hadmin.1.sub harrive⟩⟩
  refine ensures_write hmay fun deleted => ?_
  exact ensures_noContentIf fun hidle => untouched_cons hidle hadmin.1.free

theorem ensures_adminListTeamMembers {teamId : String}
    (harrive : .arrive ⟨peer,.adminListTeamMembers teamId⟩∈past) (hfree : Untouched past) :
    Ensures (evidence E) (Answerable E) (Stops E) past (adminListTeamMembers peer teamId) := by
  refine (ensures_requireAdmin harrive hfree).bind fun past₁ adminId hadmin => ?_
  refine ensures_find hadmin.1 ⟨adminId,hadmin.2⟩ fun found hq => ?_
  refine ensures_orRefuse hq.free fun team _ => ?_
  have hby := ByAdmin.mono ⟨adminId,hadmin.2⟩
    (List.subset_cons_self (.call (.read (.getTeam teamId)) (.ok found)) past₁)
  refine ensures_read (.inl hby) fun members => ?_
  exact answered (by omega) ⟨ByAdmin.mono hby (List.subset_cons_self _ _),teamId,
    ⟨peer,List.mem_cons_of_mem _ (hq.sub harrive)⟩,List.mem_cons_self⟩

theorem ensures_adminAddTeamMember {teamId : String} {role : Option String}
    (harrive : .arrive ⟨peer,.adminAddTeamMember teamId userId role⟩∈past)
    (hfree : Untouched past) :
    Ensures (evidence E) (Answerable E) (Stops E) past
      (adminAddTeamMember peer teamId userId role) := by
  refine (ensures_requireAdmin harrive hfree).bind fun past₁ adminId hadmin => ?_
  refine ensures_find hadmin.1 ⟨adminId,hadmin.2⟩ fun team hq => ?_
  refine ensures_orRefuse hq.free fun _ _ => ?_
  have hby := ByAdmin.mono ⟨adminId,hadmin.2⟩
    (List.subset_cons_self (.call (.read (.getTeam teamId)) (.ok team)) past₁)
  refine ensures_find hq (.inr hby) fun user hq => ?_
  refine ensures_orRefuse hq.free fun _ _ => ?_
  split
  · exact ensures_refuse (stops_free hq.free _)
  · rename_i hrole
    refine ensures_ask hq True.intro (fun _ => True.intro) fun now hq => ?_
    have hmay : Permitted E _ (.addTeamMember teamId userId (role.getD "member") now) :=
      ⟨ByAdmin.mono hby (List.subset_cons_of_subset _ (List.subset_cons_self _ _)),
        not_not.mp hrole,role,⟨peer,hq.sub harrive⟩,rfl⟩
    refine Ensures.bind (ensures_insertOr hq.free hmay (by simp)
      fun past' hfree => ensures_nothing hfree) fun past₂ _ _ => ?_
    exact answered (by omega) True.intro

theorem ensures_adminRemoveTeamMember {teamId : String}
    (harrive : .arrive ⟨peer,.adminRemoveTeamMember teamId userId⟩∈past)
    (hfree : Untouched past) :
    Ensures (evidence E) (Answerable E) (Stops E) past
      (adminRemoveTeamMember peer teamId userId) := by
  refine (ensures_requireAdmin harrive hfree).bind fun past₁ adminId hadmin => ?_
  have hmay : Permitted E _ (.removeTeamMember teamId userId) :=
    ⟨⟨adminId,hadmin.2⟩,⟨peer,hadmin.1.sub harrive⟩⟩
  refine ensures_write hmay fun removed => ?_
  exact ensures_noContentIf fun hidle => untouched_cons hidle hadmin.1.free

/-- Every handler makes only authorized calls and ends with an answer for which
there is evidence. -/
theorem ensures_handler {route : Route} (harrive : .arrive ⟨peer,route⟩∈past)
    (hfree : Untouched past) :
    Ensures (evidence E) (Answerable E) (Stops E) past (handler E peer route) := by
  have hasked : Asked past route := ⟨peer,harrive⟩
  cases route with
  | adminRedirect => exact answered (by omega) True.intro
  | adminPage => exact answered (by omega) True.intro
  | loginPage => exact answered (by omega) True.intro
  | capabilities => exact answered (by omega) True.intro
  | health => exact ensures_health
  | authMethod => exact ensures_authMethod hfree
  | authInfo => exact ensures_authInfo hfree
  | login => exact ensures_login hasked hfree
  | register => exact ensures_register hasked hfree
  | tokenRefresh => exact ensures_tokenRefresh hasked hfree
  | deviceCodeRequest => exact ensures_deviceCodeRequest hasked hfree
  | deviceTokenPoll => exact ensures_deviceTokenPoll hasked hfree
  | deviceApprove => exact ensures_deviceApprove harrive hfree
  | oidcAuthorize => exact ensures_oidcAuthorize hfree
  | oidcCallback => exact ensures_oidcCallback hasked hfree
  | tokiQuery => exact ensures_tokiQuery harrive hfree
  | meDevices => exact ensures_meDevices harrive hfree
  | meRenameDevice => exact ensures_meRenameDevice harrive hfree
  | meDeleteDevice => exact ensures_meDeleteDevice harrive hfree
  | meChangePassword => exact ensures_meChangePassword harrive hfree
  | meTeams => exact ensures_meTeams harrive hfree
  | meMonitorIndex => exact ensures_meMonitorIndex harrive hfree
  | meMonitorList => exact ensures_meMonitorList harrive hfree
  | meMonitorGet => exact ensures_meMonitorGet harrive hfree
  | meMonitorPut => exact ensures_meMonitorPut harrive hfree
  | meMonitorDelete => exact ensures_meMonitorDelete harrive hfree
  | adminListUsers => exact ensures_adminListUsers harrive hfree
  | adminCreateUser => exact ensures_adminCreateUser harrive hfree
  | adminDeleteUser => exact ensures_adminDeleteUser harrive hfree
  | adminChangeUserPassword => exact ensures_adminChangeUserPassword harrive hfree
  | adminChangeUserRole => exact ensures_adminChangeUserRole harrive hfree
  | adminSetUserActive => exact ensures_adminSetUserActive harrive hfree
  | adminListDevices => exact ensures_adminListDevices harrive hfree
  | adminDeleteDevice => exact ensures_adminDeleteDevice harrive hfree
  | adminListPending => exact ensures_adminListPending harrive hfree
  | adminApprovePending => exact ensures_adminApprovePending harrive hfree
  | adminRejectPending => exact ensures_adminRejectPending harrive hfree
  | adminServerInfo => exact ensures_adminServerInfo harrive hfree
  | adminListSettings => exact ensures_adminListSettings harrive hfree
  | adminUpdateSetting => exact ensures_adminUpdateSetting harrive hfree
  | adminListTeams => exact ensures_adminListTeams harrive hfree
  | adminCreateTeam => exact ensures_adminCreateTeam harrive hfree
  | adminDeleteTeam => exact ensures_adminDeleteTeam harrive hfree
  | adminListTeamMembers => exact ensures_adminListTeamMembers harrive hfree
  | adminAddTeamMember => exact ensures_adminAddTeamMember harrive hfree
  | adminRemoveTeamMember => exact ensures_adminRemoveTeamMember harrive hfree

/-- A request is served with authorized calls only. -/
theorem meets_serve (request : Request) :
    Meets (evidence E) (fun _ result => result=none) [.arrive request] (serve E () request) := by
  have hfree : Untouched [.arrive request] := fun e he => by
    rw [List.mem_singleton.mp he]
    exact True.intro
  refine Meets.bind (ensures_handler List.mem_cons_self hfree) fun past result h => ?_
  cases result with
  | ok response => exact ⟨h,fun _ _ => rfl⟩
  | error reason =>
    cases reason with
    | error e => exact ⟨h,fun _ _ => rfl⟩
    | panic => exact rfl

end

end TokiSync.AdminEvidence
