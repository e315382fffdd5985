import TokiSync.WebEvidence

/-!
# The handlers have the evidence they need

Each part of a handler is followed once: which calls it makes, what it leaves as
evidence, and that it stops with an answer for which there is evidence. As long
as nothing is changed a request may be refused at any point.
-/

namespace TokiSync.WebAuthority

open DatabaseCalls InterleavedSessions WebRequests WebHandlers AdminHandlers WebRoutes
open WebEvidence
open AdminAccounts (AppError validateUsername validatePassword validateRole)
open DatabaseRuns (Write)
open DeviceGrant (Claims)
open FjallStore (UserFilter)
open LoginGuard (Subject)
open MonitorSettings (monitorQuota)
open OidcAccounts (UserRow OidcUserInfo)
open UniqueConflicts (mentions teamName teamRoles)

/-- Later in the same request, with nothing changed. -/
structure Quiet (past past' : List Happening) : Prop where
  /-- What has happened is remembered. -/
  sub : past⊆past'
  /-- Nothing is changed. -/
  free : Untouched past'

section

variable {E : Environment} {past past' past'' : List Happening} {e : Happening}
variable {userId : String} {route : Route}

theorem untouched_cons (he : Harmless e) (h : Untouched past) : Untouched (e::past) :=
  List.forall_mem_cons.mpr ⟨he,h⟩

theorem Quiet.refl (h : Untouched past) : Quiet past past := ⟨List.Subset.refl past,h⟩

theorem Quiet.next (h : Quiet past past') (he : Harmless e) : Quiet past (e::past') :=
  ⟨List.subset_cons_of_subset e h.sub,untouched_cons he h.free⟩

theorem Quiet.trans (h : Quiet past past') (h' : Quiet past' past'') : Quiet past past'' :=
  ⟨List.Subset.trans h.sub h'.sub,h'.free⟩

theorem Asked.mono (h : Asked past route) (hsub : past⊆past') : Asked past' route := by
  obtain ⟨peer,hmem⟩ := h
  exact ⟨peer,hsub hmem⟩

theorem FoundActive.mono (h : FoundActive past userId) (hsub : past⊆past') :
    FoundActive past' userId := by
  rcases h with h | ⟨row,hactive,h⟩
  · exact .inl (hsub h)
  · exact .inr ⟨row,hactive,hsub h⟩

theorem Authenticated.mono (h : Authenticated past userId) (hsub : past⊆past') :
    Authenticated past' userId where
  verified := by
    obtain ⟨request,token,claims,harrive,hheader,hcall,hclaims⟩ := h.verified
    exact ⟨request,token,claims,hsub harrive,hheader,hsub hcall,hclaims⟩
  active := FoundActive.mono h.active hsub

theorem Admin.mono (h : Admin past userId) (hsub : past⊆past') : Admin past' userId :=
  ⟨Authenticated.mono h.1 hsub,hsub h.2⟩

theorem ByAdmin.mono (h : ByAdmin past) (hsub : past⊆past') : ByAdmin past' := by
  obtain ⟨adminId,h⟩ := h
  exact ⟨adminId,Admin.mono h hsub⟩

theorem Informed.mono {issuer sub : String} (h : Informed past issuer sub) (hsub : past⊆past') :
    Informed past' issuer sub := by
  obtain ⟨tokens,discovery,clientId,nonce,info,hmem,hinfo⟩ := h
  exact ⟨tokens,discovery,clientId,nonce,info,hsub hmem,hinfo⟩

theorem ApprovedBy.mono {deviceCode : String} (h : ApprovedBy past deviceCode userId)
    (hsub : past⊆past') : ApprovedBy past' deviceCode userId := by
  obtain ⟨dc,hmem,hdc⟩ := h
  exact ⟨dc,hsub hmem,hdc⟩

theorem Proved.mono (h : Proved past userId) (hsub : past⊆past') : Proved past' userId := by
  cases h with
  | password username password deviceId user asked found verified active id =>
    exact .password username password deviceId user (Asked.mono asked hsub) (hsub found)
      (hsub verified) active id
  | refreshToken token claims deviceId asked verified sub =>
    exact .refreshToken token claims deviceId (Asked.mono asked hsub) (hsub verified) sub
  | subject issuer sub user informed found active id =>
    exact .subject issuer sub user (Informed.mono informed hsub) (hsub found) active id
  | created issuer sub username now done informed created =>
    exact .created issuer sub username now done (Informed.mono informed hsub) (hsub created)
  | accessToken authenticated => exact .accessToken (Authenticated.mono authenticated hsub)

theorem Configured.mono {s : Setting} {value : String} (h : Configured E past s value)
    (hsub : past⊆past') : Configured E past' s value := by
  obtain ⟨reply,hmem,h⟩ := h
  exact ⟨reply,hsub hmem,h⟩

theorem Issued.mono {deviceId : Option String} {access refresh : Claims}
    (h : Issued past userId deviceId access refresh) (hsub : past⊆past') :
    Issued past' userId deviceId access refresh :=
  ⟨hsub h.1,h.2.1,hsub h.2.2.1,h.2.2.2⟩

theorem MayAskTeam.mono {teamId : String} (h : MayAskTeam E past userId teamId)
    (hsub : past⊆past') : MayAskTeam E past' userId teamId := by
  rcases h with h | ⟨⟨role,hrole⟩,scope,hscope,hne⟩
  · exact .inl (Admin.mono h hsub)
  · exact .inr ⟨⟨role,hsub hrole⟩,scope,Configured.mono hscope hsub,hne⟩

theorem InScope.mono {filter : UserFilter} (h : InScope E past userId filter) (hsub : past⊆past') :
    InScope E past' userId filter := by
  cases filter with
  | single id => exact h
  | multiple ids =>
    obtain ⟨teamId,members,hmem,hids,hmay⟩ := h
    exact ⟨teamId,members,hsub hmem,hids,MayAskTeam.mono hmay hsub⟩
  | all =>
    rcases h with h | h
    · exact .inl (Admin.mono h hsub)
    · exact .inr (Configured.mono h hsub)

/-- A stop with an answer for which there is evidence. -/
def Stops (E : Environment) (past : List Happening) : Halt → Prop
  | .error e => Answerable E past (errorResponse e)
  | .panic => True

/-- An answer that does not refuse. -/
theorem answerable_ok {response : Response} (hstatus : ¬Refuses response.status)
    (h : Shows E past response.body) : Answerable E past response :=
  ⟨h,fun hrefuses => absurd hrefuses hstatus⟩

/-- An answer as long as nothing is changed. -/
theorem answerable_free {response : Response} (h : Shows E past response.body)
    (hfree : Untouched past) : Answerable E past response := ⟨h,fun _ => .inl hfree⟩

/-- A refusal as long as nothing is changed. -/
theorem stops_free (hfree : Untouched past) (e : AppError) : Stops E past (.error e) :=
  answerable_free True.intro hfree

/-- An internal error does not refuse. -/
theorem stops_internal : Stops E past (.error .internal) :=
  answerable_ok (by simp [Refuses,errorResponse,AppError.internal]) True.intro

variable {β γ : Type} {post : List Happening → β → Prop}

/-- The rule of a call. -/
theorem ensures_call {op : Call} {f : Answer op → Handling β} (hmay : Authorized E past op)
    (h : ∀ reply, Reliable op reply →
      Ensures (evidence E) post (Stops E) (.call op reply::past) (f reply)) :
    Ensures (evidence E) post (Stops E) past (call op >>= f) := Ensures.call hmay h

/-- The rule of a refusal. -/
theorem ensures_refuse {e : AppError} (h : Stops E past (.error e)) :
    Ensures (evidence E) post (Stops E) past (refuse e) := Ensures.halt h

/-- The rule of a call that may fail. -/
theorem ensures_orInternal {reply : Except String γ} {f : γ → Handling β}
    (h : ∀ b, reply=.ok b → Ensures (evidence E) post (Stops E) past (f b)) :
    Ensures (evidence E) post (Stops E) past (orInternal reply >>= f) := by
  cases reply with
  | error e => exact stops_internal
  | ok b => exact h b rfl

/-- The rule of something that may be missing. -/
theorem ensures_orRefuse {e : AppError} {found : Option γ} {f : γ → Handling β}
    (hfree : Untouched past)
    (h : ∀ b, found=some b → Ensures (evidence E) post (Stops E) past (f b)) :
    Ensures (evidence E) post (Stops E) past (orRefuse e found >>= f) := by
  cases found with
  | none => exact stops_free hfree e
  | some b => exact h b rfl

/-- The rule of a check. -/
theorem ensures_require {checked : Except AppError γ} {f : γ → Handling β} (hfree : Untouched past)
    (h : ∀ b, checked=.ok b → Ensures (evidence E) post (Stops E) past (f b)) :
    Ensures (evidence E) post (Stops E) past (require checked >>= f) := by
  cases checked with
  | error e => exact stops_free hfree e
  | ok b => exact h b rfl

/-- The rule of a read. -/
theorem ensures_read {q : Query} {f : q.Result → Handling β} (hmay : Readable E past q)
    (h : ∀ r, Ensures (evidence E) post (Stops E) (.call (.read q) (.ok r)::past) (f r)) :
    Ensures (evidence E) post (Stops E) past (read q >>= f) := by
  refine ⟨hmay,fun reply _ => ?_⟩
  cases reply with
  | error e => exact stops_internal
  | ok r => exact h r

/-- The rule of a call that changes nothing. -/
theorem ensures_ask {op : Call} {f : Answer op → Handling β} (hq : Quiet past past')
    (hmay : Authorized E past' op) (hharmless : ∀ reply, Harmless (.call op reply))
    (h : ∀ reply, Quiet past (.call op reply::past') →
      Ensures (evidence E) post (Stops E) (.call op reply::past') (f reply)) :
    Ensures (evidence E) post (Stops E) past' (call op >>= f) :=
  ensures_call hmay fun reply _ => h reply (hq.next (hharmless reply))

/-- The rule of a read that changes nothing. -/
theorem ensures_find {q : Query} {f : q.Result → Handling β} (hq : Quiet past past')
    (hmay : Readable E past' q)
    (h : ∀ r, Quiet past (.call (.read q) (.ok r)::past') →
      Ensures (evidence E) post (Stops E) (.call (.read q) (.ok r)::past') (f r)) :
    Ensures (evidence E) post (Stops E) past' (read q >>= f) :=
  ensures_read hmay fun r => h r (hq.next True.intro)

/-- The rule of a write. -/
theorem ensures_write {w : Write} {f : Write.Result w → Handling β} (hmay : Permitted E past w)
    (h : ∀ r, Ensures (evidence E) post (Stops E) (.call (.write w) (.ok r)::past) (f r)) :
    Ensures (evidence E) post (Stops E) past (write w >>= f) := by
  refine ⟨hmay,fun reply _ => ?_⟩
  cases reply with
  | error e => exact stops_internal
  | ok r => exact h r

/-- The setting leaves evidence of its value. -/
theorem ensures_setting (hfree : Untouched past) (s : Setting) :
    Ensures (evidence E) (fun past' value => Quiet past past' ∧ Configured E past' s value)
      (Stops E) past (setting E s) := by
  have hq : ∀ reply : Except String (Option String),
      Quiet past (.call (.read (.getServerSetting s.key)) reply::past) :=
    fun reply => (Quiet.refl hfree).next True.intro
  refine ensures_call True.intro fun reply _ => ?_
  split
  · rename_i value
    exact ⟨hq _,_,List.mem_cons_self,.inl rfl⟩
  · rename_i hother
    exact ⟨hq _,_,List.mem_cons_self,.inr ⟨fun stored h => hother stored h,rfl⟩⟩

/-- A request goes on when the guard lets it pass. -/
theorem ensures_guardCheck (hfree : Untouched past) (subject : Subject) :
    Ensures (evidence E) (fun past' _ => Quiet past past') (Stops E) past (guardCheck subject) := by
  refine ensures_call True.intro fun reply _ => ?_
  have hq : Quiet past (.call (.check subject) reply::past) := (Quiet.refl hfree).next True.intro
  split
  · exact hq
  · exact ensures_refuse (stops_free hq.free _)

/-- What the token of a request has shown. -/
def Bears (past : List Happening) (userId : String) : Prop :=
  ∃ request token, ∃ claims : Claims, .arrive request∈past ∧
    request.peer.authorization=some ("Bearer "++token) ∧
    .call (.lookup (.verifyAccess token)) (.ok claims)∈past ∧ claims.sub=userId

theorem Bears.mono (h : Bears past userId) (hsub : past⊆past') : Bears past' userId := by
  obtain ⟨request,token,claims,harrive,hheader,hcall,hclaims⟩ := h
  exact ⟨request,token,claims,hsub harrive,hheader,hsub hcall,hclaims⟩

theorem Bears.claims (h : Bears past userId) : ∃ token, ∃ claims : Claims,
    .call (.lookup (.verifyAccess token)) (.ok claims)∈past ∧ claims.sub=userId := by
  obtain ⟨_,token,claims,_,_,hcall,hclaims⟩ := h
  exact ⟨token,claims,hcall,hclaims⟩

/-- A text with a prefix is the prefix and the rest. -/
theorem eq_append_of_isPrefixOf {front text : String}
    (h : front.toList.isPrefixOf text.toList=true) :
    text=front++String.ofList (text.toList.drop front.toList.length) := by
  obtain ⟨rest,hrest⟩ := List.isPrefixOf_iff_prefix.mp h
  apply String.toList_inj.mp
  rw [String.toList_append,String.toList_ofList,←hrest,List.drop_left]

/-- The token of a request is read and verified. -/
theorem ensures_extractJwt {request : Request} (harrive : .arrive request∈past)
    (hfree : Untouched past) :
    Ensures (evidence E) (fun past' claims => Quiet past past' ∧ Bears past' claims.sub) (Stops E)
      past (extractJwt request.peer) := by
  refine ensures_orRefuse hfree fun auth hauth => ?_
  split
  · rename_i hprefix
    have hheader : request.peer.authorization=
        some ("Bearer "++String.ofList (auth.toList.drop 7)) := by
      rw [hauth]
      exact congrArg some (eq_append_of_isPrefixOf hprefix)
    refine ensures_call ⟨request,harrive,hheader⟩ fun reply _ => ?_
    have hq : Quiet past (.call (.lookup (.verifyAccess
        (String.ofList (auth.toList.drop 7)))) reply::past) := (Quiet.refl hfree).next True.intro
    cases reply with
    | error e => exact ensures_refuse (stops_free hq.free _)
    | ok claims => exact ⟨hq,request,_,claims,hq.sub harrive,hheader,List.mem_cons_self,rfl⟩
  · exact ensures_refuse (stops_free hfree _)

/-- The status of the user of a token is found out as a connection does. -/
theorem meets_isUserActiveCached (h : Bears past userId) (hfree : Untouched past) :
    Meets (evidence E) (fun past' result => Quiet past past' ∧
      (result=.ok true → FoundActive past' userId)) past (isUserActiveCached userId) := by
  refine ⟨h.claims,fun fresh _ => ?_⟩
  have hq : Quiet past (.call (.lookup (.getFresh userId)) fresh::past) :=
    (Quiet.refl hfree).next True.intro
  cases fresh with
  | some active =>
    refine ⟨hq,fun hresult => ?_⟩
    cases hresult
    exact .inl List.mem_cons_self
  | none =>
    refine ⟨True.intro,fun genAtRead _ => ?_⟩
    have hq := hq.next (e:=.call (.lookup .generation) genAtRead) True.intro
    refine ⟨(h.mono hq.sub).claims,fun found _ => ?_⟩
    have hq := hq.next (e:=.call (.lookup (.getUserById userId)) found) True.intro
    cases found with
    | error e => exact ⟨hq,fun hresult => nomatch hresult⟩
    | ok row =>
      refine ⟨⟨(h.mono hq.sub).claims,row,_,rfl,rfl⟩,fun stored _ => ?_⟩
      refine ⟨hq.next True.intro,fun hresult => ?_⟩
      cases row with
      | none => cases hresult
      | some row =>
        have hactive : row.active=true := Except.ok.inj hresult
        exact .inr ⟨row,hactive,List.mem_cons_of_mem _ List.mem_cons_self⟩

/-- A request goes on when the user of its token is active. -/
theorem ensures_ensureUserActive (h : Bears past userId) (hfree : Untouched past) :
    Ensures (evidence E) (fun past' _ => Quiet past past' ∧ FoundActive past' userId) (Stops E)
      past (ensureUserActive userId) := by
  have hstatus : Ensures (evidence E) (fun past' result => Quiet past past' ∧
      (result=.ok true → FoundActive past' userId)) (Stops E) past
      (ExceptT.lift (isUserActiveCached userId)) :=
    (meets_isUserActiveCached h hfree).bind fun past' result hresult => hresult
  refine hstatus.bind fun past' result hresult => ?_
  refine ensures_orInternal fun active hactive => ?_
  split
  · rename_i htrue
    refine ⟨hresult.1,hresult.2 ?_⟩
    rw [hactive,htrue]
  · exact ensures_refuse (stops_free hresult.1.free _)

/-- A request goes on for the user it is authenticated as. -/
theorem ensures_authenticate {request : Request} (harrive : .arrive request∈past)
    (hfree : Untouched past) :
    Ensures (evidence E) (fun past' claims => Quiet past past' ∧ Authenticated past' claims.sub)
      (Stops E) past (authenticate request.peer) := by
  refine (ensures_extractJwt harrive hfree).bind fun past₁ claims hjwt => ?_
  refine (ensures_ensureUserActive hjwt.2 hjwt.1.free).bind fun past₂ _ hactive => ?_
  exact ⟨hjwt.1.trans hactive.1,hjwt.2.mono hactive.1.sub,hactive.2⟩

/-- A request goes on for an administrator. -/
theorem ensures_requireAdmin {request : Request} (harrive : .arrive request∈past)
    (hfree : Untouched past) :
    Ensures (evidence E) (fun past' adminId => Quiet past past' ∧ Admin past' adminId) (Stops E)
      past (requireAdmin request.peer) := by
  refine (ensures_authenticate harrive hfree).bind fun past₁ claims hauth => ?_
  refine ensures_read hauth.2 fun isAdmin => ?_
  have hq := hauth.1.next (e:=.call (.read (.userIsAdmin claims.sub)) (.ok isAdmin)) True.intro
  split
  · rename_i htrue
    refine ⟨hq,Authenticated.mono hauth.2 (List.subset_cons_self _ _),?_⟩
    rw [htrue]
    exact List.mem_cons_self
  · exact ensures_refuse (stops_free hq.free _)

/-- Whoever has proved to be a user gets tokens of that user. -/
theorem ensures_issueTokens {deviceId : Option String} (h : Proved past userId) :
    Ensures (evidence E) (fun past' pair => past⊆past' ∧
      Issued past' userId deviceId pair.1 pair.2) (Stops E) past (issueTokens userId deviceId) := by
  refine ensures_call h fun issued haccess => ?_
  refine ensures_orInternal fun access hissued => ?_
  subst hissued
  refine ensures_call (Proved.mono h (List.subset_cons_self _ _)) fun issued hrefresh => ?_
  refine ensures_orInternal fun refresh hissued => ?_
  subst hissued
  obtain ⟨rfl,rfl⟩ : refresh.sub=userId ∧ refresh.did=deviceId := hrefresh refresh rfl
  refine ensures_call True.intro fun now _ => ?_
  have hsub : past⊆.call .timestamp now::.call (.issueRefreshToken refresh.sub refresh.did)
      (.ok refresh)::.call (.issueAccessToken refresh.sub) (.ok access)::past :=
    fun e he => List.mem_cons_of_mem _ (List.mem_cons_of_mem _ (List.mem_cons_of_mem _ he))
  have hpair : Issued (.call .timestamp now::.call (.issueRefreshToken refresh.sub refresh.did)
      (.ok refresh)::.call (.issueAccessToken refresh.sub) (.ok access)::past) refresh.sub
      refresh.did access refresh :=
    ⟨by simp,haccess access rfl,by simp,rfl,rfl⟩
  refine ensures_write ⟨Proved.mono h hsub,access,refresh,hpair,rfl⟩ fun _ => ?_
  exact ⟨List.subset_cons_of_subset _ hsub,Issued.mono hpair (List.subset_cons_self _ _)⟩

/-- An insert that conflicts has changed nothing. -/
theorem ensures_insertOr {w : Write} {words : List String} {conflict : String}
    {onConflict : Handling Unit} (hfree : Untouched past) (hmay : Permitted E past w)
    (hwords : ∀ word∈words, word="UNIQUE" ∨ word="PRIMARY")
    (hconflict : ∀ past', Untouched past' →
      Ensures (evidence E) (fun past'' _ => Untouched past'') (Stops E) past' onConflict) :
    Ensures (evidence E) (fun past' _ => past⊆past') (Stops E) past
      (insertOr w words conflict onConflict) := by
  refine ensures_call hmay fun reply _ => ?_
  cases reply with
  | ok r => exact List.subset_cons_self _ _
  | error e =>
    dsimp only
    split
    · rename_i hany
      obtain ⟨word,hword,hmentions⟩ := List.any_eq_true.mp hany
      have hviolation : Violation e := by
        rcases hwords word hword with rfl | rfl
        · exact .inl hmentions
        · exact .inr hmentions
      refine Ensures.bind (hconflict _ (untouched_cons hviolation hfree)) fun past' _ h => ?_
      exact ensures_refuse (stops_free h _)
    · exact ensures_refuse stops_internal

/-- Nothing is done for a conflict. -/
theorem ensures_nothing (hfree : Untouched past) :
    Ensures (evidence E) (fun past' _ => Untouched past') (Stops E) past
      (pure () : Handling Unit) := hfree

/-- A conflict counts as a failure. -/
theorem ensures_recordFailure (hfree : Untouched past) (subject : Subject) :
    Ensures (evidence E) (fun past' _ => Untouched past') (Stops E) past
      (call (.recordFailure subject)) := by
  refine ⟨True.intro,fun reply _ => ?_⟩
  exact untouched_cons (e:=.call (.recordFailure subject) reply) True.intro hfree

/-- What was not found has not been changed. -/
theorem ensures_noContentIf {found : Bool} {missing : String}
    (hfree : found=false → Untouched past) :
    Ensures (evidence E) (Answerable E) (Stops E) past (noContentIf found missing) := by
  cases found with
  | true => exact answerable_ok (by simp [Refuses]) True.intro
  | false => exact ensures_refuse (stops_free (hfree rfl) _)

end

end TokiSync.WebAuthority
