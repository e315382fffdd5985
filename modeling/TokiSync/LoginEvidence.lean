import TokiSync.WebAuthority

/-!
# Evidence of logins and of a user's own requests

Logins, registrations, the grant of a device and everything a user asks for in
person, handler by handler.
-/

namespace TokiSync.LoginEvidence

open DatabaseCalls InterleavedSessions WebRequests WebHandlers WebEvidence WebAuthority
open AdminAccounts (AppError validateUsername validatePassword)
open DeviceGrant (Claims)
open LoginGuard (Subject)
open OidcAccounts (UserRow OidcUserInfo)
open UniqueConflicts (mentions)

variable {E : Environment} {past past' : List Happening} {userId : String}

/-- The status of an answer that is given does not refuse. -/
theorem answered {status : ℕ} {body : Body} (hstatus : status<400) (h : Shows E past body) :
    Answerable E past ⟨status,body⟩ :=
  answerable_ok (by simp only [Refuses]; omega) h

theorem ensures_health : Ensures (evidence E) (Answerable E) (Stops E) past health := by
  refine ensures_call True.intro fun reply _ => ?_
  cases reply with
  | ok _ => exact answered (by omega) True.intro
  | error e => exact ensures_refuse (answerable_ok (by simp [Refuses,errorResponse]) True.intro)

theorem ensures_authMethod (hfree : Untouched past) :
    Ensures (evidence E) (Answerable E) (Stops E) past (authMethod E) := by
  refine (ensures_setting hfree _).bind fun past₁ issuer hissuer => ?_
  split
  · exact answered (by omega) True.intro
  · refine (ensures_setting hissuer.1.free _).bind fun past₂ redirectUri _ => ?_
    exact answered (by omega) True.intro

theorem ensures_authInfo (hfree : Untouched past) :
    Ensures (evidence E) (Answerable E) (Stops E) past (authInfo E) := by
  refine (ensures_setting hfree _).bind fun past₁ mode hmode => ?_
  refine (ensures_setting hmode.1.free _).bind fun past₂ issuer _ => ?_
  exact answered (by omega) True.intro

/-- A login proves its user by the password before tokens are issued. -/
theorem ensures_login {peer : Peer} {username password : String} {deviceId : Option String}
    (hasked : Asked past (.login username password deviceId)) (hfree : Untouched past) :
    Ensures (evidence E) (Answerable E) (Stops E) past
      (login E peer username password deviceId) := by
  refine (ensures_guardCheck hfree _).bind fun past₁ _ hq => ?_
  refine ensures_find hq ⟨password,deviceId,Asked.mono hasked hq.sub⟩ fun found hq => ?_
  cases found with
  | none =>
    refine ensures_ask hq True.intro (fun _ => True.intro) fun _ hq => ?_
    refine ensures_ask hq True.intro (fun _ => True.intro) fun _ hq => ?_
    exact ensures_refuse (stops_free hq.free _)
  | some user =>
    dsimp only
    split
    · exact ensures_refuse (stops_free hq.free _)
    · rename_i hactive
      split
      · exact ensures_refuse (stops_free hq.free _)
      · refine ensures_ask hq True.intro (fun _ => True.intro) fun reply hq => ?_
        refine ensures_orInternal fun valid hvalid => ?_
        subst hvalid
        split
        · rename_i htrue
          subst htrue
          refine ensures_ask hq True.intro (fun _ => True.intro) fun _ hq => ?_
          have hproved : Proved _ user.id := .password username password deviceId user
            (Asked.mono hasked hq.sub) (by simp) (by simp) (by simpa using hactive) rfl
          refine (ensures_issueTokens hproved).bind fun past₂ pair hpair => ?_
          exact answered (by omega) (.inl ⟨user.id,deviceId,pair.1,pair.2,
            Proved.mono hproved hpair.1,hpair.2,rfl,rfl⟩)
        · refine ensures_ask hq True.intro (fun _ => True.intro) fun _ hq => ?_
          exact ensures_refuse (stops_free hq.free _)

/-- The rest of a registration, in a mode that was read. -/
theorem ensures_registerIn {mode : String} {subject : Subject} {username password : String}
    (hasked : Asked past (.register username password)) (hfree : Untouched past)
    (hmode : Configured E past .registrationMode mode) (hallowed : mode="open" ∨ mode="approval") :
    Ensures (evidence E) (Answerable E) (Stops E) past
      (registerIn E mode subject username password) := by
  refine ensures_require hfree fun _ hname => ?_
  refine ensures_require hfree fun _ hpassword => ?_
  refine ensures_ask (.refl hfree) True.intro (fun _ => True.intro) fun reply hq => ?_
  refine ensures_orInternal fun hash hhash => ?_
  subst hhash
  refine ensures_ask hq True.intro (fun _ => True.intro) fun id hq => ?_
  refine ensures_ask hq True.intro (fun _ => True.intro) fun now hq => ?_
  have hasked := Asked.mono hasked hq.sub
  have hmode := Configured.mono hmode hq.sub
  have hwords : ∀ word∈["UNIQUE"], word="UNIQUE" ∨ word="PRIMARY" := by simp
  split
  · rename_i happroval
    rw [happroval] at hmode
    have hmay : Permitted E _ (.createPendingRegistration id username hash now) :=
      ⟨password,by simp [Hashed],hname,hpassword,hasked,hmode⟩
    refine Ensures.bind (ensures_insertOr hq.free hmay hwords
      fun past' hfree => ensures_recordFailure hfree subject) fun past₁ _ _ => ?_
    refine ensures_call True.intro fun _ _ => ?_
    exact answered (by omega) True.intro
  · rename_i happroval
    rw [hallowed.resolve_right happroval] at hmode
    have hmay : Permitted E _ (.createUser id username hash "user" now) :=
      ⟨password,by simp [Hashed],hname,hpassword,.inr ⟨hasked,rfl,hmode⟩⟩
    refine Ensures.bind (ensures_insertOr hq.free hmay hwords
      fun past' hfree => ensures_recordFailure hfree subject) fun past₁ _ _ => ?_
    refine ensures_call True.intro fun _ _ => ?_
    exact answered (by omega) True.intro

theorem ensures_register {peer : Peer} {username password : String}
    (hasked : Asked past (.register username password)) (hfree : Untouched past) :
    Ensures (evidence E) (Answerable E) (Stops E) past (register E peer username password) := by
  refine (ensures_guardCheck hfree _).bind fun past₁ _ hq => ?_
  refine (ensures_setting hq.free _).bind fun past₂ mode hmode => ?_
  have hq := hq.trans hmode.1
  split
  · rename_i hallowed
    exact ensures_registerIn (Asked.mono hasked hq.sub) hq.free hmode.2 hallowed
  · exact ensures_refuse (stops_free hq.free _)

/-- A refresh token proves its user before it is exchanged. -/
theorem ensures_rotate {token : String} {deviceId : Option String}
    (hasked : Asked past (.tokenRefresh token deviceId)) (hfree : Untouched past) :
    Ensures (evidence E) (fun past' result => past⊆past' ∧ ∀ access refresh,
      result=some (access,refresh) → ∃ userId, Proved past' userId ∧
        Issued past' userId deviceId access refresh) (Stops E) past (rotate token deviceId) := by
  refine ensures_ask (.refl hfree) True.intro (fun _ => True.intro) fun reply hq => ?_
  cases reply with
  | error e => exact ⟨hq.sub,fun _ _ h => nomatch h⟩
  | ok claims =>
    have hproved : Proved _ claims.sub :=
      .refreshToken token claims deviceId (Asked.mono hasked hq.sub) List.mem_cons_self rfl
    refine ensures_call hproved fun issued haccess => ?_
    have hq := hq.next (e:=.call (.issueAccessToken claims.sub) issued) True.intro
    cases issued with
    | error e => exact ⟨hq.sub,fun _ _ h => nomatch h⟩
    | ok access =>
      refine ensures_call (Proved.mono hproved (List.subset_cons_self _ _)) fun issued hrefresh => ?_
      have hq := hq.next (e:=.call (.issueRefreshToken claims.sub deviceId) issued) True.intro
      cases issued with
      | error e => exact ⟨hq.sub,fun _ _ h => nomatch h⟩
      | ok refresh =>
        obtain ⟨hsub,hdid⟩ : refresh.sub=claims.sub ∧ refresh.did=deviceId := hrefresh refresh rfl
        refine ensures_ask hq True.intro (fun _ => True.intro) fun now hq => ?_
        have hissued : Issued (.call .timestamp now::.call (.issueRefreshToken claims.sub deviceId)
            (.ok refresh)::.call (.issueAccessToken claims.sub) (.ok access)::
            .call (.verifyRefresh token) (.ok claims)::past) claims.sub deviceId access refresh :=
          ⟨by simp,haccess access rfl,by simp,hsub,hdid⟩
        have hproved := Proved.mono hproved
          (List.subset_cons_of_subset (.call .timestamp now) (List.subset_cons_of_subset
            (.call (.issueRefreshToken claims.sub deviceId) (.ok refresh))
            (List.subset_cons_self (.call (.issueAccessToken claims.sub) (.ok access)) _)))
        refine ensures_call ?_ fun reply _ => ?_
        · exact ⟨token,claims,Asked.mono hasked hq.sub,by simp,rfl,hsub.symm,access,refresh,
            by rw [hsub]; exact hissued,rfl⟩
        have hlast := List.subset_cons_of_subset (.call (.write (.rotateRefreshToken claims.jti
          refresh.jti refresh.sub deviceId refresh.exp now)) reply) hq.sub
        cases reply with
        | error e => exact ⟨hlast,fun _ _ h => nomatch h⟩
        | ok _ =>
          refine ⟨hlast,fun access' refresh' h => ?_⟩
          cases h
          exact ⟨claims.sub,Proved.mono hproved (List.subset_cons_self _ _),
            Issued.mono hissued (List.subset_cons_self _ _)⟩

/-- The answer to a failed exchange may come too late. -/
theorem ensures_tokenRefresh {peer : Peer} {token : String} {deviceId : Option String}
    (hasked : Asked past (.tokenRefresh token deviceId)) (hfree : Untouched past) :
    Ensures (evidence E) (Answerable E) (Stops E) past (tokenRefresh E peer token deviceId) := by
  refine (ensures_guardCheck hfree _).bind fun past₁ _ hq => ?_
  refine (ensures_rotate (Asked.mono hasked hq.sub) hq.free).bind fun past₂ result hresult => ?_
  cases result with
  | some pair =>
    obtain ⟨userId,hproved,hissued⟩ := hresult.2 pair.1 pair.2 rfl
    refine ensures_call True.intro fun _ _ => ?_
    exact answered (by omega) (.inl ⟨userId,deviceId,pair.1,pair.2,
      Proved.mono hproved (List.subset_cons_self _ _),
      Issued.mono hissued (List.subset_cons_self _ _),rfl,rfl⟩)
  | none =>
    refine ensures_call True.intro fun _ _ => ?_
    have hasked := Asked.mono (Asked.mono hasked hq.sub) hresult.1
    exact ensures_refuse ⟨True.intro,fun _ => .inr ⟨_,Asked.mono hasked (List.subset_cons_self _ _),
      rfl⟩⟩

theorem ensures_getOidcDiscovery (hfree : Untouched past) :
    Ensures (evidence E) (fun past' _ => Quiet past past') (Stops E) past (getOidcDiscovery E) := by
  refine ensures_ask (.refl hfree) True.intro (fun _ => True.intro) fun cached hq => ?_
  cases cached with
  | some discovery => exact hq
  | none =>
    refine (ensures_setting hq.free _).bind fun past₁ issuer hissuer => ?_
    refine ensures_ask (hq.trans hissuer.1) True.intro (fun _ => True.intro) fun found hq => ?_
    refine ensures_orInternal fun discovery _ => ?_
    refine ensures_ask hq True.intro (fun _ => True.intro) fun _ hq => ?_
    exact hq

/-- A redirect does not refuse, also when its address is no header. -/
theorem answerable_temporary (location : String) :
    Answerable E past (redirectResponse (OidcRedirect.temporary E.urls location)) := by
  unfold OidcRedirect.temporary
  split
  · exact answered (by omega) True.intro
  · exact answerable_ok (by simp [Refuses,redirectResponse]) True.intro

theorem ensures_oidcAuthorize {redirectUri : String} (hfree : Untouched past) :
    Ensures (evidence E) (Answerable E) (Stops E) past (oidcAuthorize E redirectUri) := by
  refine (ensures_setting hfree _).bind fun past₁ issuer hissuer => ?_
  split
  · exact ensures_refuse (stops_free hissuer.1.free _)
  · refine (ensures_getOidcDiscovery hissuer.1.free).bind fun past₂ discovery hq => ?_
    refine ensures_ask hq True.intro (fun _ => True.intro) fun csrfState hq => ?_
    refine ensures_ask hq True.intro (fun _ => True.intro) fun nonce hq => ?_
    refine ensures_ask hq True.intro (fun _ => True.intro) fun _ hq => ?_
    refine (ensures_setting hq.free _).bind fun past₃ clientId hclient => ?_
    refine (ensures_setting hclient.1.free _).bind fun past₄ serverRedirectUri _ => ?_
    exact answerable_temporary _

/-- An account that was found for a subject proves its user if it is active. -/
theorem ensures_useAccount {issuer sub : String} {user : UserRow} (hq : Quiet past past')
    (hinformed : Informed past issuer sub)
    (hfound : .call (.read (.findUserByOidc issuer sub)) (.ok (some user))∈past') :
    Ensures (evidence E) (fun past' userId => past⊆past' ∧ Proved past' userId) (Stops E) past'
      (useAccount user) := by
  unfold useAccount
  split
  · rename_i hactive
    exact ⟨hq.sub,.subject issuer sub user (Informed.mono hinformed hq.sub) hfound hactive rfl⟩
  · exact ensures_refuse (stops_free hq.free _)

/-- A subject the provider tells about proves the user of its account, which may
just have been created. -/
theorem ensures_findOrCreateOidcUser {issuer : String} {info : OidcUserInfo}
    (hinformed : Informed past issuer info.sub) (hfree : Untouched past) :
    Ensures (evidence E) (fun past' userId => past⊆past' ∧ Proved past' userId) (Stops E) past
      (findOrCreateOidcUser issuer info) := by
  refine ensures_find (.refl hfree) hinformed fun found hq => ?_
  cases found with
  | some user => exact ensures_useAccount hq hinformed List.mem_cons_self
  | none =>
    refine ensures_ask hq True.intro (fun _ => True.intro) fun id hq => ?_
    split
    · exact True.intro
    · rename_i username _
      refine ensures_ask hq True.intro (fun _ => True.intro) fun now hq => ?_
      have hmay : Permitted E _ (.createOidcUser ⟨id,username,"user",info.sub,issuer⟩ now) :=
        ⟨Informed.mono hinformed hq.sub,rfl⟩
      refine ensures_call hmay fun reply _ => ?_
      cases reply with
      | ok done =>
        have hsub := List.subset_cons_of_subset (.call (.write (.createOidcUser
          ⟨id,username,"user",info.sub,issuer⟩ now)) (.ok done)) hq.sub
        exact ⟨hsub,.created issuer info.sub username now done (Informed.mono hinformed hsub)
          List.mem_cons_self⟩
      | error e =>
        dsimp only
        split
        · rename_i hmentions
          have hq := hq.next (e:=.call (.write (.createOidcUser
            ⟨id,username,"user",info.sub,issuer⟩ now)) (.error e)) (.inl hmentions)
          refine ensures_find hq (Informed.mono hinformed hq.sub) fun found hq => ?_
          cases found with
          | some user => exact ensures_useAccount hq hinformed List.mem_cons_self
          | none => exact ensures_refuse stops_internal
        · exact ensures_refuse stops_internal

/-- What the provider has just told about. -/
theorem informed_cons {tokens : OidcTokenResponse} {discovery : OidcDiscovery}
    {issuer clientId : String} {nonce : Option String} {info : OidcUserInfo} :
    Informed (.call (.extractUserInfo tokens discovery issuer clientId nonce) (.ok info)::past)
      issuer info.sub :=
  ⟨tokens,discovery,clientId,nonce,info,List.mem_cons_self,rfl⟩

/-- A redirect that is not allowed is found out after the login. -/
theorem answerable_sendTokens {code state clientRedirect : String} {error : Option String}
    {tokens : OidcRedirect.Tokens} (hasked : Asked past (.oidcCallback code state error)) :
    Answerable E past (redirectResponse
      (OidcRedirect.sendTokens E.urls clientRedirect tokens)) := by
  unfold OidcRedirect.sendTokens
  split
  · split
    · exact answerable_temporary _
    · exact ⟨True.intro,fun _ => .inr ⟨_,hasked,rfl⟩⟩
  · exact answerable_temporary _

theorem ensures_finishCallback {issuer code state clientRedirect storedNonce : String}
    {error : Option String} (hasked : Asked past (.oidcCallback code state error))
    (hfree : Untouched past) :
    Ensures (evidence E) (Answerable E) (Stops E) past
      (finishCallback E issuer code clientRedirect storedNonce) := by
  refine (ensures_getOidcDiscovery hfree).bind fun past₁ discovery hq => ?_
  refine (ensures_setting hq.free _).bind fun past₂ clientId hclient => ?_
  have hq := hq.trans hclient.1
  refine (ensures_setting hq.free _).bind fun past₃ clientSecret hsecret => ?_
  have hq := hq.trans hsecret.1
  refine (ensures_setting hq.free _).bind fun past₄ redirectUri hredirect => ?_
  refine ensures_ask (hq.trans hredirect.1) True.intro (fun _ => True.intro) fun tokens hq => ?_
  refine ensures_orInternal fun tokens _ => ?_
  refine ensures_ask hq True.intro (fun _ => True.intro) fun told hq => ?_
  refine ensures_orInternal fun info hinfo => ?_
  subst hinfo
  refine (ensures_findOrCreateOidcUser informed_cons hq.free).bind fun past₅ userId hproved => ?_
  refine (ensures_issueTokens hproved.2).bind fun past₆ pair hpair => ?_
  exact answerable_sendTokens (Asked.mono hasked (List.Subset.trans hq.sub
    (List.Subset.trans hproved.1 hpair.1)))

theorem ensures_oidcCallback {code state : String} {error : Option String}
    (hasked : Asked past (.oidcCallback code state error)) (hfree : Untouched past) :
    Ensures (evidence E) (Answerable E) (Stops E) past (oidcCallback E code state error) := by
  refine (ensures_setting hfree _).bind fun past₁ issuer hissuer => ?_
  have hq := hissuer.1
  split
  · exact ensures_refuse (stops_free hq.free _)
  · cases error with
    | some err => exact ensures_refuse (stops_free hq.free _)
    | none =>
      refine ensures_ask hq True.intro (fun _ => True.intro) fun found hq => ?_
      cases found with
      | none => exact ensures_refuse (stops_free hq.free _)
      | some entry => exact ensures_finishCallback (Asked.mono hasked hq.sub) hq.free

end TokiSync.LoginEvidence
