import TokiSync.LoginEvidence

/-!
# Evidence of the requests of a user

The grant of a device, what a user asks for below `/me` and the queries, handler
by handler.
-/

namespace TokiSync.UserEvidence

open DatabaseCalls InterleavedSessions WebRequests WebHandlers WebRoutes WebEvidence
open WebAuthority LoginEvidence
open AdminAccounts (AppError validatePassword)
open FjallStore (UserFilter)
open LoginGuard (Subject)
open MonitorSettings (monitorQuota)

variable {E : Environment} {past past' : List Happening} {userId : String}

theorem ensures_deviceCodeRequest {peer : Peer} (hasked : Asked past .deviceCodeRequest)
    (hfree : Untouched past) :
    Ensures (evidence E) (Answerable E) (Stops E) past (deviceCodeRequest E peer) := by
  refine (ensures_guardCheck hfree _).bind fun past₁ _ hq => ?_
  refine ensures_ask hq True.intro (fun _ => True.intro) fun _ hq => ?_
  refine ensures_ask hq True.intro (fun _ => True.intro) fun deviceCode hq => ?_
  refine ensures_ask hq True.intro (fun _ => True.intro) fun bytes hq => ?_
  refine ensures_ask hq True.intro (fun _ => True.intro) fun now hq => ?_
  have hmay : Permitted E _ (.createDeviceCode deviceCode (generateUserCode bytes) (now+300)) :=
    Asked.mono hasked hq.sub
  refine ensures_write hmay fun _ => ?_
  exact answered (by omega) True.intro

/-- A device is registered for the user who has approved its code. -/
theorem ensures_registerDevice {deviceCode : String} {deviceKey deviceName : Option String}
    (hasked : Asked past (.deviceTokenPoll deviceCode deviceKey deviceName))
    (happroved : ApprovedBy past deviceCode userId) :
    Ensures (evidence E) (fun past' _ => past⊆past') (Stops E) past
      (registerDevice E userId deviceKey deviceName) := by
  cases deviceKey with
  | none => exact List.Subset.refl _
  | some key =>
    unfold registerDevice
    dsimp only
    split
    · rename_i hkey
      refine ensures_call ⟨deviceCode,happroved⟩ fun reply _ => ?_
      split
      · refine ensures_call True.intro fun now _ => ?_
        have hsub : past⊆.call .timestamp now::
            .call (.read (.findDeviceByKeyAndUser key userId)) (.ok none)::past :=
          List.subset_cons_of_subset _ (List.subset_cons_self _ _)
        have hmay : Permitted E _ (.createDevice key userId
            (SyncConnection.truncateDeviceName (deviceName.getD "unknown")) key now) :=
          ⟨rfl,hkey.2.2,deviceCode,deviceName,Asked.mono hasked hsub,
            ApprovedBy.mono happroved hsub,rfl⟩
        refine ensures_call hmay fun reply _ => ?_
        exact List.subset_cons_of_subset _ hsub
      · exact List.subset_cons_self _ _
    · exact List.Subset.refl _

/-- Tokens are handed out for a code that was approved. -/
theorem ensures_deviceTokenPoll {deviceCode : String} {deviceKey deviceName : Option String}
    (hasked : Asked past (.deviceTokenPoll deviceCode deviceKey deviceName))
    (hfree : Untouched past) :
    Ensures (evidence E) (Answerable E) (Stops E) past
      (deviceTokenPoll E deviceCode deviceKey deviceName) := by
  refine ensures_ask (.refl hfree) True.intro (fun _ => True.intro) fun slow hq => ?_
  split
  · exact answerable_free True.intro hq.free
  · refine ensures_find hq ⟨deviceKey,deviceName,Asked.mono hasked hq.sub⟩ fun found hq => ?_
    cases found with
    | none => exact answerable_free True.intro hq.free
    | some dc =>
      refine ensures_ask hq True.intro (fun _ => True.intro) fun now hq => ?_
      have hasked := Asked.mono hasked hq.sub
      have hmay : Permitted E _ (.deleteDeviceCode deviceCode) :=
        .inl ⟨deviceKey,deviceName,hasked⟩
      split
      · refine ensures_call hmay fun reply _ => ?_
        exact ensures_refuse ⟨True.intro,fun _ => .inr ⟨_,
          Asked.mono hasked (List.subset_cons_self _ _),rfl⟩⟩
      · split
        · exact answerable_free True.intro hq.free
        · rename_i userId happroved
          refine ensures_call hmay fun deleted _ => ?_
          refine ensures_call True.intro fun forgotten _ => ?_
          have hasked := Asked.mono hasked (List.subset_cons_of_subset
            (.call (.forgetPoll deviceCode) forgotten) (List.subset_cons_self
              (.call (.write (.deleteDeviceCode deviceCode)) deleted) _))
          refine Ensures.bind (ensures_registerDevice hasked ⟨dc,by simp,happroved⟩)
            fun past₁ _ hsub => ?_
          exact answered (by omega) (.inr ⟨deviceCode,deviceKey,deviceName,dc,
            Asked.mono hasked hsub,hsub (by simp),by rw [happroved]; rfl,rfl,rfl⟩)

/-- A code that was found is approved for the user of the request. -/
theorem ensures_approveCode {subject : Subject} {typed code : String}
    {dc : DeviceGrant.DeviceCode} (hauth : Authenticated past userId)
    (hasked : Asked past (.deviceApprove typed))
    (hcode : SlicedTexts.normalizeUserCode E.toUppercase typed=some code)
    (hfound : .call (.read (.getDeviceCodeByUserCode code)) (.ok (some dc))∈past)
    (hfree : Untouched past) :
    Ensures (evidence E) (Answerable E) (Stops E) past (approveCode subject userId code dc) := by
  refine ensures_ask (.refl hfree) True.intro (fun _ => True.intro) fun now hq => ?_
  have hasked := Asked.mono hasked hq.sub
  have hauth := Authenticated.mono hauth hq.sub
  split
  · have hmay : Permitted E _ (.deleteDeviceCode dc.deviceCode) :=
      .inr ⟨userId,code,dc,hauth,hq.sub hfound,rfl⟩
    refine ensures_call hmay fun reply _ => ?_
    exact ensures_refuse ⟨True.intro,fun _ => .inr ⟨_,
      Asked.mono hasked (List.subset_cons_self _ _),.inl rfl⟩⟩
  · split
    · exact ensures_refuse (stops_free hq.free _)
    · refine (ensures_issueTokens (.accessToken hauth)).bind fun past₁ pair hpair => ?_
      have hasked := Asked.mono hasked hpair.1
      have hauth := Authenticated.mono hauth hpair.1
      have hmay : Permitted E _ (.approveDeviceCode code userId pair.1 pair.2) :=
        ⟨hauth,hpair.2,typed,hasked,hcode⟩
      refine ensures_write hmay fun approved => ?_
      have hsub := List.subset_cons_self (.call (.write (.approveDeviceCode code userId pair.1
        pair.2)) (.ok approved)) past₁
      split
      · refine ensures_call True.intro fun _ _ => ?_
        exact answered (by omega) True.intro
      · have hmay : Permitted E _ (.revokeRefreshToken pair.2.jti) :=
          ⟨userId,Authenticated.mono hauth hsub,pair.1,pair.2,Issued.mono hpair.2 hsub,rfl⟩
        refine ensures_call hmay fun _ _ => ?_
        exact ensures_refuse ⟨True.intro,fun _ => .inr ⟨_,Asked.mono hasked
          (List.subset_cons_of_subset _ hsub),.inr rfl⟩⟩

theorem ensures_deviceApprove {peer : Peer} {typed : String}
    (harrive : .arrive ⟨peer,.deviceApprove typed⟩∈past) (hfree : Untouched past) :
    Ensures (evidence E) (Answerable E) (Stops E) past (deviceApprove E peer typed) := by
  refine (ensures_authenticate harrive hfree).bind fun past₁ claims hauth => ?_
  refine (ensures_guardCheck hauth.1.free _).bind fun past₂ _ hq => ?_
  have hauth' := Authenticated.mono hauth.2 hq.sub
  have hq := hauth.1.trans hq
  split
  · exact True.intro
  · rename_i code hcode
    refine ensures_find hq ⟨claims.sub,hauth'⟩ fun found hq' => ?_
    cases found with
    | none =>
      refine ensures_ask hq' True.intro (fun _ => True.intro) fun _ hq => ?_
      exact ensures_refuse (stops_free hq.free _)
    | some dc =>
      exact ensures_approveCode (Authenticated.mono hauth' (List.subset_cons_self _ _))
        ⟨peer,hq'.sub harrive⟩ hcode List.mem_cons_self hq'.free

section

variable {peer : Peer}

theorem ensures_meDevices (harrive : .arrive ⟨peer,.meDevices⟩∈past) (hfree : Untouched past) :
    Ensures (evidence E) (Answerable E) (Stops E) past (meDevices peer) := by
  refine (ensures_authenticate harrive hfree).bind fun past₁ claims hauth => ?_
  refine ensures_read hauth.2 fun devices => ?_
  exact answered (by omega) ⟨claims.sub,Authenticated.mono hauth.2 (List.subset_cons_self _ _),
    List.mem_cons_self⟩

theorem ensures_meRenameDevice {deviceId name : String}
    (harrive : .arrive ⟨peer,.meRenameDevice deviceId name⟩∈past) (hfree : Untouched past) :
    Ensures (evidence E) (Answerable E) (Stops E) past (meRenameDevice peer deviceId name) := by
  refine (ensures_authenticate harrive hfree).bind fun past₁ claims hauth => ?_
  refine ensures_require hauth.1.free fun _ hname => ?_
  have hmay : Permitted E _ (.renameDevice deviceId claims.sub (trimmed name)) :=
    ⟨hauth.2,hname,name,⟨peer,hauth.1.sub harrive⟩,rfl⟩
  refine ensures_write hmay fun renamed => ?_
  exact ensures_noContentIf fun hidle => untouched_cons hidle hauth.1.free

/-- The events of a device are purged once it is found to be the user's. -/
theorem ensures_meDeleteDevice {deviceId : String}
    (harrive : .arrive ⟨peer,.meDeleteDevice deviceId⟩∈past) (hfree : Untouched past) :
    Ensures (evidence E) (Answerable E) (Stops E) past (meDeleteDevice peer deviceId) := by
  refine (ensures_authenticate harrive hfree).bind fun past₁ claims hauth => ?_
  refine ensures_find hauth.1 hauth.2 fun owned hq => ?_
  have hauth' := Authenticated.mono hauth.2
    (List.subset_cons_self (.call (.read (.deviceBelongsToUser deviceId claims.sub)) (.ok owned)) _)
  split
  · rename_i howned
    subst howned
    refine ensures_call (.inl ⟨claims.sub,hauth',List.mem_cons_self⟩) fun purged _ => ?_
    have hmay : Permitted E _ (.deleteUserDevice deviceId claims.sub) :=
      ⟨Authenticated.mono hauth' (List.subset_cons_self (.call (.deleteDeviceEvents deviceId)
        purged) _),⟨peer,List.mem_cons_of_mem _ (hq.sub harrive)⟩,by simp⟩
    refine ensures_write hmay fun deleted => ?_
    refine ensures_call (.inl ⟨claims.sub,?_,by simp⟩) fun _ _ => ?_
    · exact Authenticated.mono hauth'
        (List.subset_cons_of_subset _ (List.subset_cons_self _ _))
    · exact answered (by omega) True.intro
  · exact ensures_refuse (stops_free hq.free _)

/-- A new password is stored by whoever may, and the tokens of the user are
revoked. -/
theorem ensures_changePassword {password : String}
    (hwho : Authenticated past userId ∨ ByAdmin past)
    (hmay : ∀ past' hash now, past⊆past' → Hashed past' password hash →
      validatePassword password=.ok () → Permitted E past' (.updatePassword userId hash now))
    (hfree : Untouched past) :
    Ensures (evidence E) (Answerable E) (Stops E) past (changePassword userId password) := by
  refine ensures_require hfree fun _ hpassword => ?_
  refine ensures_ask (.refl hfree) True.intro (fun _ => True.intro) fun hashed hq => ?_
  refine ensures_orInternal fun hash hhash => ?_
  subst hhash
  refine ensures_ask hq True.intro (fun _ => True.intro) fun now hq => ?_
  refine ensures_write (hmay _ hash now hq.sub (by simp [Hashed]) hpassword) fun updated => ?_
  have hsub := List.subset_cons_of_subset
    (.call (.write (.updatePassword userId hash now)) (.ok updated)) hq.sub
  have hrevoke : Permitted E _ (.revokeUserRefreshTokens userId) :=
    ⟨hwho.imp (Authenticated.mono · hsub) (ByAdmin.mono · hsub),
      .inl ⟨hash,now,updated,List.mem_cons_self⟩⟩
  refine ensures_write hrevoke fun _ => ?_
  exact answered (by omega) True.intro

theorem ensures_meChangePassword {currentPassword newPassword : String}
    (harrive : .arrive ⟨peer,.meChangePassword currentPassword newPassword⟩∈past)
    (hfree : Untouched past) :
    Ensures (evidence E) (Answerable E) (Stops E) past
      (meChangePassword peer currentPassword newPassword) := by
  refine (ensures_authenticate harrive hfree).bind fun past₁ claims hauth => ?_
  refine ensures_find hauth.1 (.inl hauth.2) fun found hq => ?_
  refine ensures_orRefuse hq.free fun user huser => ?_
  subst huser
  refine ensures_ask hq True.intro (fun _ => True.intro) fun verified hq => ?_
  refine ensures_orInternal fun valid hvalid => ?_
  subst hvalid
  have hauth := Authenticated.mono hauth.2
    (List.subset_cons_of_subset (.call (.verifyPassword currentPassword user.passwordHash)
      (.ok valid)) (List.subset_cons_self
        (.call (.read (.getUserById claims.sub)) (.ok (some user))) _))
  split
  · rename_i hvalid
    subst hvalid
    refine ensures_changePassword (.inl hauth) ?_ hq.free
    intro past' hash now hsub hhashed hpassword
    exact ⟨newPassword,hhashed,hpassword,.inr ⟨Authenticated.mono hauth hsub,currentPassword,user,
      ⟨peer,hsub (hq.sub harrive)⟩,hsub (by simp),hsub (by simp)⟩⟩
  · exact ensures_refuse (stops_free hq.free _)

theorem ensures_meTeams (harrive : .arrive ⟨peer,.meTeams⟩∈past) (hfree : Untouched past) :
    Ensures (evidence E) (Answerable E) (Stops E) past (meTeams peer) := by
  refine (ensures_authenticate harrive hfree).bind fun past₁ claims hauth => ?_
  refine ensures_read hauth.2 fun teams => ?_
  exact answered (by omega) ⟨claims.sub,Authenticated.mono hauth.2 (List.subset_cons_self _ _),
    List.mem_cons_self⟩

theorem ensures_meMonitorIndex (harrive : .arrive ⟨peer,.meMonitorIndex⟩∈past)
    (hfree : Untouched past) :
    Ensures (evidence E) (Answerable E) (Stops E) past (meMonitorIndex peer) := by
  refine (ensures_authenticate harrive hfree).bind fun past₁ claims hauth => ?_
  refine ensures_read hauth.2 fun rows => ?_
  have hauth := Authenticated.mono hauth.2
    (List.subset_cons_self (.call (.read (.listMonitorSettings claims.sub)) (.ok rows)) _)
  refine ensures_read hauth fun used => ?_
  exact answered (by omega) ⟨claims.sub,rows,Authenticated.mono hauth (List.subset_cons_self _ _),
    List.mem_cons_of_mem _ List.mem_cons_self,List.mem_cons_self,rfl⟩

theorem ensures_meMonitorList (harrive : .arrive ⟨peer,.meMonitorList⟩∈past)
    (hfree : Untouched past) :
    Ensures (evidence E) (Answerable E) (Stops E) past (meMonitorList peer) := by
  refine (ensures_authenticate harrive hfree).bind fun past₁ claims hauth => ?_
  refine ensures_read hauth.2 fun rows => ?_
  exact answered (by omega) ⟨claims.sub,rows,
    Authenticated.mono hauth.2 (List.subset_cons_self _ _),List.mem_cons_self,rfl⟩

theorem ensures_meMonitorGet {key : String} (harrive : .arrive ⟨peer,.meMonitorGet key⟩∈past)
    (hfree : Untouched past) :
    Ensures (evidence E) (Answerable E) (Stops E) past (meMonitorGet peer key) := by
  refine (ensures_authenticate harrive hfree).bind fun past₁ claims hauth => ?_
  refine ensures_require hauth.1.free fun _ _ => ?_
  refine ensures_find hauth.1 hauth.2 fun found hq => ?_
  refine ensures_orRefuse hq.free fun entry hentry => ?_
  subst hentry
  exact answered (by omega) ⟨claims.sub,key,entry,
    Authenticated.mono hauth.2 (List.subset_cons_self _ _),⟨peer,hq.sub harrive⟩,
    List.mem_cons_self,rfl,rfl,rfl,rfl⟩

/-- A write that is refused for its version or for the quota changes nothing. -/
theorem ensures_meMonitorPut {key value : String} {ifVersion : Option ℤ}
    (harrive : .arrive ⟨peer,.meMonitorPut key value ifVersion⟩∈past) (hfree : Untouched past) :
    Ensures (evidence E) (Answerable E) (Stops E) past (meMonitorPut peer key value ifVersion) := by
  refine (ensures_authenticate harrive hfree).bind fun past₁ claims hauth => ?_
  refine ensures_require hauth.1.free fun _ hkey => ?_
  refine ensures_require hauth.1.free fun _ hvalue => ?_
  refine ensures_ask hauth.1 True.intro (fun _ => True.intro) fun allowed hq => ?_
  split
  · exact answerable_free True.intro hq.free
  · refine ensures_ask hq True.intro (fun _ => True.intro) fun now hq => ?_
    have hmay : Permitted E _ (.upsertMonitorSetting claims.sub key value ifVersion monitorQuota
        now.toInt) :=
      ⟨Authenticated.mono hauth.2 (List.subset_cons_of_subset _ (List.subset_cons_self _ _)),
        ⟨peer,hq.sub harrive⟩,hkey,hvalue,by simp,rfl⟩
    refine ensures_write hmay fun outcome => ?_
    have hauth := Authenticated.mono hmay.1 (List.subset_cons_self (.call (.write
      (.upsertMonitorSetting claims.sub key value ifVersion monitorQuota now.toInt))
      (.ok outcome)) _)
    cases outcome with
    | written version updatedAt previous =>
      exact answered (by omega) ⟨claims.sub,value,ifVersion,now.toInt,hauth,List.mem_cons_self⟩
    | versionMismatch version updatedAt =>
      exact answerable_free ⟨claims.sub,hauth,.inl ⟨value,ifVersion,now.toInt,List.mem_cons_self⟩⟩
        (untouched_cons (fun _ _ _ h => nomatch h) hq.free)
    | quotaExceeded what used limit =>
      exact answerable_free ⟨claims.sub,key,value,ifVersion,now.toInt,hauth,List.mem_cons_self⟩
        (untouched_cons (fun _ _ _ h => nomatch h) hq.free)

theorem ensures_meMonitorDelete {key : String} {ifVersion : Option ℤ}
    (harrive : .arrive ⟨peer,.meMonitorDelete key ifVersion⟩∈past) (hfree : Untouched past) :
    Ensures (evidence E) (Answerable E) (Stops E) past (meMonitorDelete peer key ifVersion) := by
  refine (ensures_authenticate harrive hfree).bind fun past₁ claims hauth => ?_
  refine ensures_require hauth.1.free fun _ hkey => ?_
  refine ensures_ask hauth.1 True.intro (fun _ => True.intro) fun allowed hq => ?_
  split
  · exact answerable_free True.intro hq.free
  · have hmay : Permitted E _ (.deleteMonitorSetting claims.sub key ifVersion) :=
      ⟨Authenticated.mono hauth.2 (List.subset_cons_self _ _),⟨peer,hq.sub harrive⟩,hkey,
        List.mem_cons_self⟩
    refine ensures_write hmay fun outcome => ?_
    have hauth := Authenticated.mono hmay.1 (List.subset_cons_self (.call (.write
      (.deleteMonitorSetting claims.sub key ifVersion)) (.ok outcome)) _)
    cases outcome with
    | deleted => exact answered (by omega) True.intro
    | notFound => exact ensures_refuse (stops_free (untouched_cons (nomatch ·) hq.free) _)
    | versionMismatch version updatedAt =>
      exact answerable_free ⟨claims.sub,hauth,.inr ⟨ifVersion,version,updatedAt,rfl,rfl,
        List.mem_cons_self⟩⟩ (untouched_cons (nomatch ·) hq.free)

end

/-- The members of a team that the user may ask for. -/
theorem ensures_teamFilter {teamId : String} (hauth : Authenticated past' userId)
    (hmay : MayAskTeam E past' userId teamId) (hq : Quiet past past') :
    Ensures (evidence E) (fun past' filter => Quiet past past' ∧ InScope E past' userId filter)
      (Stops E) past' (teamFilter teamId) := by
  refine ensures_find hq (.inr ⟨userId,hauth,hmay⟩) fun members hq => ?_
  exact ⟨hq,teamId,members,List.mem_cons_self,rfl,
    MayAskTeam.mono hmay (List.subset_cons_self _ _)⟩

/-- A query is about users the server lets the user ask for. -/
theorem ensures_resolveUserFilter {requested : String} (hauth : Authenticated past userId)
    (hfree : Untouched past) :
    Ensures (evidence E) (fun past' filter => Quiet past past' ∧ InScope E past' userId filter)
      (Stops E) past (resolveUserFilter E userId requested) := by
  refine (ensures_setting hfree _).bind fun past₁ maxScope hscope => ?_
  refine ensures_find hscope.1 (Authenticated.mono hauth hscope.1.sub) fun isAdmin hq => ?_
  have hauth := Authenticated.mono hauth hq.sub
  have hconfigured := Configured.mono hscope.2
    (List.subset_cons_self (.call (.read (.userIsAdmin userId)) (.ok isAdmin)) _)
  split
  · exact ⟨hq,rfl⟩
  · rename_i teamId _
    split
    · rename_i hadmin
      subst hadmin
      exact ensures_teamFilter hauth (.inl ⟨hauth,List.mem_cons_self⟩) hq
    · split
      · exact ensures_refuse (stops_free hq.free _)
      · rename_i hself
        refine ensures_find hq hauth fun role hq => ?_
        cases role with
        | none => exact ensures_refuse (stops_free hq.free _)
        | some role =>
          have hsub := List.subset_cons_self (.call (.read (.getTeamMemberRole teamId userId))
            (.ok (some role))) (.call (.read (.userIsAdmin userId)) (.ok isAdmin)::past₁)
          exact ensures_teamFilter (Authenticated.mono hauth hsub) (.inr ⟨⟨role,List.mem_cons_self⟩,
            maxScope,Configured.mono hconfigured hsub,hself⟩) hq
  · split
    · exact ensures_refuse (stops_free hq.free _)
    · rename_i hrefused
      refine ⟨hq,?_⟩
      cases isAdmin with
      | true => exact .inl ⟨hauth,List.mem_cons_self⟩
      | false =>
        have hall : maxScope="all" := by simpa using hrefused
        exact .inr (hall ▸ hconfigured)
  · exact ensures_refuse (stops_free hq.free _)

theorem ensures_queryWindows {scope : String} {startMs endMs : ℤ} {now : Int64}
    (hauth : Authenticated past userId) (hfree : Untouched past) :
    Ensures (evidence E) (Answerable E) (Stops E) past
      (queryWindows userId scope startMs endMs now) := by
  unfold queryWindows
  split
  · refine ensures_call hauth fun reply _ => ?_
    refine ensures_orInternal fun rows hrows => ?_
    subst hrows
    exact answered (by omega) ⟨userId,startMs,endMs,now,rows,
      Authenticated.mono hauth (List.subset_cons_self _ _),List.mem_cons_self,rfl⟩
  · exact ensures_refuse (stops_free hfree _)

/-- Events are shown of users the server lets the user ask for. -/
theorem ensures_queryEvents {scope : String} {params : TokiQuery.TokiQueryParams} {range : ℤ}
    (hauth : Authenticated past userId) (hfree : Untouched past) :
    Ensures (evidence E) (Answerable E) (Stops E) past
      (queryEvents E userId scope params range) := by
  refine ensures_require hfree fun parsed _ => ?_
  refine ensures_require hfree fun stepSecs _ => ?_
  refine (ensures_resolveUserFilter hauth hfree).bind fun past₁ filter hfilter => ?_
  have hauth := Authenticated.mono hauth hfilter.1.sub
  refine ensures_call ⟨userId,hauth,hfilter.2⟩ fun reply _ => ?_
  cases reply with
  | error e => exact ensures_refuse (answerable_ok (by simp [Refuses,errorResponse]) True.intro)
  | ok events =>
    have hsub := List.subset_cons_self (.call (.queryEvents params.startMs params.endMs filter
      (TokiQuery.maxQueryEvents+1)) (.ok events)) past₁
    exact answered (by omega) ⟨userId,filter,events,Authenticated.mono hauth hsub,
      InScope.mono hfilter.2 hsub,List.mem_cons_self,rfl⟩

theorem ensures_tokiQuery {peer : Peer} {params : QueryParams}
    (harrive : .arrive ⟨peer,.tokiQuery params⟩∈past) (hfree : Untouched past) :
    Ensures (evidence E) (Answerable E) (Stops E) past (tokiQuery E peer params) := by
  refine (ensures_authenticate harrive hfree).bind fun past₁ claims hauth => ?_
  refine ensures_require hauth.1.free fun tz _ => ?_
  refine ensures_ask hauth.1 True.intro (fun _ => True.intro) fun now hq => ?_
  have hauth := Authenticated.mono hauth.2 (List.subset_cons_self (.call .timestamp now) past₁)
  refine ensures_require hq.free fun startMs _ => ?_
  refine ensures_require hq.free fun endMs _ => ?_
  refine ensures_require hq.free fun range _ => ?_
  split
  · exact ensures_queryWindows hauth hq.free
  · exact ensures_queryEvents hauth hq.free

end TokiSync.UserEvidence
