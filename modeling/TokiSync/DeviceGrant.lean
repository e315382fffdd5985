import TokiSync.RefreshTokens

/-!
# The device authorization grant

A device shows a code to its user and polls for tokens. A signed-in user
approves the code: the handler reads the row, stores a new refresh token and
then binds both tokens to the row if nobody has done so before. Whoever comes
too late revokes the token just stored. Polls read the row and take it away
with the tokens; expiry takes it away as well. All of these run concurrently,
one statement after another.
-/

namespace TokiSync.DeviceGrant

open Runs RefreshTokens

/-- Claims of a token. -/
structure Claims where
  /-- User id. -/
  sub : String
  /-- Id of the token. -/
  jti : String
  /-- Kind of the token. -/
  typ : String
  /-- Expiry in seconds. -/
  exp : Int64
  /-- Time of issue. -/
  iat : Int64
  /-- Issuer, if one is configured. -/
  iss : Option String
  /-- Device of a refresh token. -/
  did : Option String
  deriving DecidableEq

/-- Settings of the token issuer. -/
structure Jwt where
  /-- Lifetime of an access token. -/
  accessTtlSecs : Int64
  /-- Lifetime of a refresh token. -/
  refreshTtlSecs : Int64
  /-- Issuer claim. -/
  iss : Option String

/-- Claims of a new access token. -/
def Jwt.issueAccessToken (jwt : Jwt) (userId jti : String) (now : Int64) : Claims :=
  ⟨userId,jti,"access",now+jwt.accessTtlSecs,now,jwt.iss,none⟩

/-- Claims of a new refresh token. -/
def Jwt.issueRefreshToken (jwt : Jwt) (userId : String) (deviceId : Option String) (jti : String)
    (now : Int64) : Claims :=
  ⟨userId,jti,"refresh",now+jwt.refreshTtlSecs,now,jwt.iss,deviceId⟩

/-- Row stored for a refresh token. -/
def Claims.row (claims : Claims) (now : Int64) : TokenRow :=
  freshRow claims.sub claims.did claims.exp now

/-- A row of `device_codes`. A token stands for its claims. -/
structure DeviceCode where
  /-- Code the device polls with. -/
  deviceCode : String
  /-- Code the user types. -/
  userCode : String
  /-- Expiry in seconds. -/
  expiresAt : Int64
  /-- User who approved the code. -/
  approvedBy : Option String
  /-- Access token for the device. -/
  accessToken : Option Claims
  /-- Refresh token for the device. -/
  refreshToken : Option Claims
  deriving DecidableEq

/-- Tokens issued together. -/
structure TokenPair where
  access : Claims
  refresh : Claims
  deriving DecidableEq

/-- Progress of a request. -/
inductive Request where
  /-- Not received yet. -/
  | waiting
  /-- An authenticated approval, with the code normalized. -/
  | approving (userId userCode : String)
  /-- The approval has read the row. -/
  | found (userId userCode : String) (row : DeviceCode)
  /-- The row passed the checks of the approval. -/
  | issuing (userId userCode : String)
  /-- The refresh token is stored. -/
  | stored (userId userCode : String) (pair : TokenPair)
  /-- The row was bound by somebody else, or is gone. -/
  | lost (userId : String) (pair : TokenPair)
  /-- Approved; the tokens are bound to the row. -/
  | bound (userId : String) (pair : TokenPair)
  /-- Refused after the stored token was revoked. -/
  | revoked (userId : String) (pair : TokenPair)
  /-- A poll that passed the rate limit. -/
  | polling (deviceCode : String)
  /-- The poll has read the row. -/
  | fetched (row : DeviceCode)
  /-- The poll found the row approved, by its clock. -/
  | redeeming (row : DeviceCode) (now : Int64)
  /-- The poll has deleted the row. -/
  | consumed (row : DeviceCode) (now : Int64)
  /-- Tokens are returned. -/
  | granted (userId : Option String) (accessToken refreshToken : Option Claims) (now : Int64)
  /-- The row was found expired and is to be deleted. -/
  | discarding (deviceCode : String)
  /-- Answered without tokens. -/
  | answered
  deriving DecidableEq

/-- Whether a request has been answered, or was never received. -/
def Request.finished : Request → Bool
  | .waiting | .bound _ _ | .revoked _ _ | .granted _ _ _ _ | .answered => true
  | _ => false

/-- Tables, poll tracker and progress of the requests. -/
structure Server where
  /-- Row of the code in `device_codes`. -/
  row : Option DeviceCode
  /-- Table of refresh tokens. -/
  tokens : TokenTable
  /-- Time of the last poll with a code, in milliseconds. -/
  tracker : String → Option ℕ
  /-- Progress of the requests. -/
  requests : ℕ → Request

/-- The code, as it was generated, and what the server has besides. -/
structure Grant where
  /-- Code the device polls with. -/
  deviceCode : String
  /-- Code the user types. -/
  userCode : String
  /-- Expiry in seconds. -/
  expiresAt : Int64
  /-- Token issuer. -/
  jwt : Jwt
  /-- Refresh tokens from before. -/
  tokens : TokenTable

/-- The row of a new code. -/
def Grant.row (grant : Grant) : DeviceCode :=
  ⟨grant.deviceCode,grant.userCode,grant.expiresAt,none,none,none⟩

/-- A code has been generated and nobody has used it. -/
def Server.start (grant : Grant) : Server :=
  ⟨some grant.row,grant.tokens,fun _ => none,fun _ => .waiting⟩

/-- The server with one request moved on. -/
def Server.move (s : Server) (i : ℕ) (request : Request) : Server :=
  {s with requests := Function.update s.requests i request}

/-- The row with the device code. -/
def getDeviceCode (row : Option DeviceCode) (deviceCode : String) : Option DeviceCode :=
  row.filter fun dc => dc.deviceCode=deviceCode

/-- The row with the user code. -/
def getDeviceCodeByUserCode (row : Option DeviceCode) (userCode : String) : Option DeviceCode :=
  row.filter fun dc => dc.userCode=userCode

/-- Whether the update of an approval finds the row. -/
def approvable (row : Option DeviceCode) (userCode : String) : Bool :=
  row.any fun dc => dc.userCode=userCode && dc.approvedBy.isNone

/-- The row bound to a user and tokens. -/
def DeviceCode.bind (dc : DeviceCode) (userId : String) (pair : TokenPair) : DeviceCode :=
  {dc with
    approvedBy := some userId
    accessToken := some pair.access
    refreshToken := some pair.refresh}

/-- Delete the row with the device code. -/
def deleteDeviceCode (row : Option DeviceCode) (deviceCode : String) : Option DeviceCode :=
  row.filter fun dc => dc.deviceCode≠deviceCode

/-- Delete the row if it has expired. -/
def cleanupExpiredDeviceCodes (row : Option DeviceCode) (now : Int64) : Option DeviceCode :=
  row.filter fun dc => !dc.expiresAt<now

/-- What the lookup of an approval finds. -/
def afterLookup (userId userCode : String) : Option DeviceCode → Request
  | none => .answered
  | some dc => .found userId userCode dc

/-- Checks of an approval on the row it has read. -/
def checkApproval (userId userCode : String) (dc : DeviceCode) (now : Int64) : Request :=
  if now>dc.expiresAt then .discarding dc.deviceCode
  else if dc.approvedBy.isSome then .answered
  else .issuing userId userCode

/-- Entries of the tracker that are younger than 15 minutes. -/
def sweepTracker (tracker : String → Option ℕ) (instant : ℕ) : String → Option ℕ :=
  fun code => (tracker code).filter fun last => instant-last<900000

/-- Whether a code was polled within the last five seconds. -/
def polledLately (tracker : String → Option ℕ) (deviceCode : String) (instant : ℕ) : Bool :=
  (tracker deviceCode).any fun last => instant-last<5000

/-- The rate limit of polls. -/
def pollTracker (tracker : String → Option ℕ) (deviceCode : String) (instant : ℕ) :
    (String → Option ℕ)×Request :=
  let swept := sweepTracker tracker instant
  if polledLately swept deviceCode instant then (swept,.answered)
  else (Function.update swept deviceCode (some instant),.polling deviceCode)

/-- What the lookup of a poll finds. -/
def afterFetch : Option DeviceCode → Request
  | none => .answered
  | some dc => .fetched dc

/-- Checks of a poll on the row it has read. -/
def checkPoll (dc : DeviceCode) (now : Int64) : Request :=
  if now>dc.expiresAt then .discarding dc.deviceCode
  else if dc.approvedBy.isNone then .answered
  else .redeeming dc now

/-- Labels of the steps. -/
inductive Action where
  /-- A request moves on. -/
  | request (i : ℕ)
  /-- Expired codes are deleted. -/
  | cleanup

/-- One step of the server. Clocks and instants are whatever they are read as. -/
inductive GrantStep (jwt : Jwt) : Server → Action → Server → Prop where
  /-- An approval is refused before it looks the code up. -/
  | refuse {s : Server} {i : ℕ} (waiting : s.requests i=.waiting) :
      GrantStep jwt s (.request i) (s.move i .answered)
  /-- An approval is authenticated. -/
  | authenticate {s : Server} {i : ℕ} {userId userCode : String}
      (waiting : s.requests i=.waiting) :
      GrantStep jwt s (.request i) (s.move i (.approving userId userCode))
  /-- The approval reads the row. -/
  | lookup {s : Server} {i : ℕ} {userId userCode : String}
      (approving : s.requests i=.approving userId userCode) :
      GrantStep jwt s (.request i)
        (s.move i (afterLookup userId userCode (getDeviceCodeByUserCode s.row userCode)))
  /-- The approval checks the row it has read. -/
  | check {s : Server} {i : ℕ} {userId userCode : String} {dc : DeviceCode} {now : Int64}
      (found : s.requests i=.found userId userCode dc) :
      GrantStep jwt s (.request i) (s.move i (checkApproval userId userCode dc now))
  /-- The approval issues tokens and stores the refresh token under a new id. -/
  | store {s : Server} {i : ℕ} {userId userCode jti jti' : String} {now now' now'' : Int64}
      (issuing : s.requests i=.issuing userId userCode) (fresh : s.tokens jti'=none) :
      GrantStep jwt s (.request i)
        {s.move i (.stored userId userCode ⟨jwt.issueAccessToken userId jti now,
          jwt.issueRefreshToken userId none jti' now'⟩) with
          tokens := storeRefreshToken s.tokens jti'
            ((jwt.issueRefreshToken userId none jti' now').row now'')}
  /-- The update binds the tokens to the row. -/
  | bind {s : Server} {i : ℕ} {userId userCode : String} {pair : TokenPair}
      (stored : s.requests i=.stored userId userCode pair)
      (free : approvable s.row userCode=true) :
      GrantStep jwt s (.request i)
        {s.move i (.bound userId pair) with row := s.row.map fun dc => dc.bind userId pair}
  /-- The update finds no row to bind. -/
  | lose {s : Server} {i : ℕ} {userId userCode : String} {pair : TokenPair}
      (stored : s.requests i=.stored userId userCode pair)
      (taken : approvable s.row userCode=false) :
      GrantStep jwt s (.request i) (s.move i (.lost userId pair))
  /-- The token stored in vain is revoked. -/
  | revoke {s : Server} {i : ℕ} {userId : String} {pair : TokenPair}
      (lost : s.requests i=.lost userId pair) :
      GrantStep jwt s (.request i)
        {s.move i (.revoked userId pair) with
          tokens := revokeRefreshToken s.tokens pair.refresh.jti}
  /-- A poll passes the rate limit or is told to slow down. -/
  | poll {s : Server} {i : ℕ} {deviceCode : String} {instant : ℕ}
      (waiting : s.requests i=.waiting) :
      GrantStep jwt s (.request i)
        {s.move i (pollTracker s.tracker deviceCode instant).2 with
          tracker := (pollTracker s.tracker deviceCode instant).1}
  /-- The poll reads the row. -/
  | fetch {s : Server} {i : ℕ} {deviceCode : String}
      (polling : s.requests i=.polling deviceCode) :
      GrantStep jwt s (.request i) (s.move i (afterFetch (getDeviceCode s.row deviceCode)))
  /-- The poll checks the row it has read. -/
  | inspect {s : Server} {i : ℕ} {dc : DeviceCode} {now : Int64}
      (fetched : s.requests i=.fetched dc) :
      GrantStep jwt s (.request i) (s.move i (checkPoll dc now))
  /-- The poll deletes the row. -/
  | redeem {s : Server} {i : ℕ} {dc : DeviceCode} {now : Int64}
      (redeeming : s.requests i=.redeeming dc now) :
      GrantStep jwt s (.request i)
        {s.move i (.consumed dc now) with row := deleteDeviceCode s.row dc.deviceCode}
  /-- The poll forgets the tracker entry and returns the tokens. -/
  | answer {s : Server} {i : ℕ} {dc : DeviceCode} {now : Int64}
      (consumed : s.requests i=.consumed dc now) :
      GrantStep jwt s (.request i)
        {s.move i (.granted dc.approvedBy dc.accessToken dc.refreshToken now) with
          tracker := Function.update s.tracker dc.deviceCode none}
  /-- An expired row is deleted. -/
  | discard {s : Server} {i : ℕ} {deviceCode : String}
      (discarding : s.requests i=.discarding deviceCode) :
      GrantStep jwt s (.request i)
        {s.move i .answered with row := deleteDeviceCode s.row deviceCode}
  /-- The background task deletes expired rows. -/
  | cleanup {s : Server} {now : Int64} :
      GrantStep jwt s .cleanup {s with row := cleanupExpiredDeviceCodes s.row now}

/-- Whether the tokens of a request are bound to the row. -/
def Request.isBound : Request → Bool
  | .bound _ _ => true
  | _ => false

/-- Tokens a request has issued. -/
def Request.pair : Request → Option TokenPair
  | .stored _ _ pair | .lost _ pair | .bound _ pair | .revoked _ pair => some pair
  | _ => none

section

variable (grant : Grant) (s : Server)

/-- A request is bound to the code with these tokens. -/
def BoundTo (userId : String) (pair : TokenPair) : Prop :=
  ∃ i, s.requests i=.bound userId pair

/-- The row is bound to a user and tokens of a bound request. -/
def BoundRow (dc : DeviceCode) : Prop :=
  ∃ userId pair, BoundTo s userId pair ∧ dc=grant.row.bind userId pair

/-- The tokens are of the user, and the refresh token is in the table. -/
def PairOf (userId : String) (pair : TokenPair) : Prop :=
  pair.access.sub=userId ∧ pair.refresh.sub=userId ∧ (s.tokens pair.refresh.jti).isSome=true

/-- Whether a refresh token is in the table and revoked. -/
def RevokedToken (jti : String) : Prop :=
  (s.tokens jti).any TokenRow.revoked=true

/-- What is known of a request in its phase. -/
def PhaseOk : Request → Prop
  | .found _ _ dc => dc=grant.row ∨ BoundRow grant s dc
  | .stored userId _ pair => PairOf s userId pair
  | .lost userId pair => PairOf s userId pair
  | .bound userId pair => PairOf s userId pair
  | .revoked userId pair => PairOf s userId pair ∧ RevokedToken s pair.refresh.jti
  | .fetched dc => dc=grant.row ∨ BoundRow grant s dc
  | .redeeming dc now => BoundRow grant s dc ∧ now≤grant.expiresAt
  | .consumed dc now => BoundRow grant s dc ∧ now≤grant.expiresAt
  | .granted userId accessToken refreshToken now =>
    (∃ u pair, BoundTo s u pair ∧ userId=some u ∧ accessToken=some pair.access ∧
      refreshToken=some pair.refresh) ∧ now≤grant.expiresAt
  | _ => True

/-- What is known of every state reached. -/
structure GrantInv : Prop where
  /-- Every request is sound. -/
  phases : ∀ i, PhaseOk grant s (s.requests i)
  /-- The row is as generated, or bound to a bound request. -/
  row : ∀ dc, s.row=some dc → dc=grant.row ∨ BoundRow grant s dc
  /-- While the row is as generated, no request is bound. -/
  free : s.row=some grant.row → ∀ i userId pair, s.requests i≠.bound userId pair
  /-- At most one request is bound. -/
  unique : ∀ i j userId userId' pair pair', s.requests i=.bound userId pair →
    s.requests j=.bound userId' pair' → i=j
  /-- A refresh token was there from before, or a request issued it. -/
  known : ∀ jti, (s.tokens jti).isSome=true → (grant.tokens jti).isSome=true ∨
    ∃ i pair, (s.requests i).pair=some pair ∧ pair.refresh.jti=jti

end

section

variable {grant : Grant} {s t : Server}

/-- What a step leaves: bound requests, and tokens with their revocation. -/
structure Later (s t : Server) : Prop where
  bound : ∀ i userId pair, s.requests i=.bound userId pair → t.requests i=.bound userId pair
  tokens : ∀ jti, (s.tokens jti).isSome=true → (t.tokens jti).isSome=true
  revoked : ∀ jti, RevokedToken s jti → RevokedToken t jti

theorem Later.boundRow (h : Later s t) {dc : DeviceCode} (hbound : BoundRow grant s dc) :
    BoundRow grant t dc := by
  obtain ⟨userId,pair,⟨i,hi⟩,hdc⟩ := hbound
  exact ⟨userId,pair,⟨i,h.bound i userId pair hi⟩,hdc⟩

theorem Later.pairOf (h : Later s t) {userId : String} {pair : TokenPair}
    (hpair : PairOf s userId pair) : PairOf t userId pair :=
  ⟨hpair.1,hpair.2.1,h.tokens _ hpair.2.2⟩

/-- What is known of a request stays true. -/
theorem Later.phaseOk (h : Later s t) {request : Request} (hok : PhaseOk grant s request) :
    PhaseOk grant t request := by
  cases request with
  | found userId userCode dc => exact hok.imp_right h.boundRow
  | stored userId userCode pair => exact h.pairOf hok
  | lost userId pair => exact h.pairOf hok
  | bound userId pair => exact h.pairOf hok
  | revoked userId pair => exact ⟨h.pairOf hok.1,h.revoked _ hok.2⟩
  | fetched dc => exact hok.imp_right h.boundRow
  | redeeming dc now => exact ⟨h.boundRow hok.1,hok.2⟩
  | consumed dc now => exact ⟨h.boundRow hok.1,hok.2⟩
  | granted userId accessToken refreshToken now =>
    obtain ⟨⟨u,pair,⟨i,hi⟩,heq⟩,hnow⟩ := hok
    exact ⟨⟨u,pair,⟨i,h.bound i u pair hi⟩,heq⟩,hnow⟩
  | _ => trivial

/-- Tables of tokens that only gain tokens and revocations. -/
def TokensGrow (before after : TokenTable) : Prop :=
  ∀ jti row, before jti=some row → ∃ row', after jti=some row' ∧
    (row.revoked=true → row'.revoked=true)

theorem TokensGrow.refl (tokens : TokenTable) : TokensGrow tokens tokens :=
  fun _ row h => ⟨row,h,fun hrevoked => hrevoked⟩

theorem TokensGrow.store {tokens : TokenTable} {jti : String} (hfresh : tokens jti=none)
    (row : TokenRow) : TokensGrow tokens (storeRefreshToken tokens jti row) := by
  intro k old hk
  have hne : k≠jti := by
    intro heq
    rw [heq,hfresh] at hk
    cases hk
  refine ⟨old,?_,fun hrevoked => hrevoked⟩
  rw [storeRefreshToken,Function.update_of_ne hne]
  exact hk

theorem TokensGrow.revoke (tokens : TokenTable) (jti : String) :
    TokensGrow tokens (revokeRefreshToken tokens jti) := by
  intro k row hk
  by_cases heq : k=jti
  · refine ⟨row.revoke,?_,fun _ => rfl⟩
    rw [revokeRefreshToken,if_pos heq,hk]
    rfl
  · refine ⟨row,?_,fun hrevoked => hrevoked⟩
    rw [revokeRefreshToken,if_neg heq]
    exact hk

/-- Moving an unbound request on keeps what is bound and stored. -/
theorem Later.of_move {i : ℕ} {request : Request}
    (hrequests : t.requests=Function.update s.requests i request)
    (hunbound : (s.requests i).isBound=false) (htokens : TokensGrow s.tokens t.tokens) :
    Later s t where
  bound j userId pair hj := by
    have hne : j≠i := by
      intro heq
      rw [← heq,hj] at hunbound
      cases hunbound
    rw [hrequests,Function.update_of_ne hne]
    exact hj
  tokens jti h := by
    obtain ⟨row,hrow⟩ := Option.isSome_iff_exists.mp h
    obtain ⟨row',hrow',-⟩ := htokens jti row hrow
    rw [hrow',Option.isSome_some]
  revoked jti h := by
    rw [RevokedToken,Option.any_eq_true] at h
    obtain ⟨row,hrow,hrevoked⟩ := h
    obtain ⟨row',hrow',hgrow⟩ := htokens jti row hrow
    rw [RevokedToken,hrow',Option.any_some]
    exact hgrow hrevoked

/-- A step that moves one unbound request to an unbound phase, and at most
takes the row away. -/
theorem GrantInv.moved (h : GrantInv grant s) {i : ℕ} {request : Request}
    (hrequests : t.requests=Function.update s.requests i request)
    (hunbound : (s.requests i).isBound=false) (hnew : request.isBound=false)
    (hrow : ∀ dc, t.row=some dc → s.row=some dc) (htokens : TokensGrow s.tokens t.tokens)
    (hphase : PhaseOk grant t request)
    (hpair : ∀ pair, (s.requests i).pair=some pair → request.pair=some pair)
    (hknown : ∀ jti, (t.tokens jti).isSome=true → (s.tokens jti).isSome=true ∨
      ∃ pair, request.pair=some pair ∧ pair.refresh.jti=jti) : GrantInv grant t := by
  have hlater : Later s t := Later.of_move hrequests hunbound htokens
  have hself : t.requests i=request := by
    rw [hrequests,Function.update_self]
  have hother : ∀ j, j≠i → t.requests j=s.requests j := by
    intro j hne
    rw [hrequests,Function.update_of_ne hne]
  have hbound : ∀ j userId pair, t.requests j=.bound userId pair →
      s.requests j=.bound userId pair := by
    intro j userId pair hj
    by_cases heq : j=i
    · rw [heq,hself] at hj
      rw [hj] at hnew
      cases hnew
    · rw [hother j heq] at hj
      exact hj
  constructor
  · intro j
    by_cases heq : j=i
    · rw [heq,hself]
      exact hphase
    · rw [hother j heq]
      exact hlater.phaseOk (h.phases j)
  · intro dc hdc
    exact (h.row dc (hrow dc hdc)).imp_right hlater.boundRow
  · intro hfree j userId pair hj
    exact h.free (hrow _ hfree) j userId pair (hbound j userId pair hj)
  · intro j k userId userId' pair pair' hj hk
    exact h.unique j k userId userId' pair pair' (hbound _ _ _ hj) (hbound _ _ _ hk)
  · intro jti hjti
    rcases hknown jti hjti with hbefore | ⟨pair,hissued,heq⟩
    · rcases h.known jti hbefore with hgrant | ⟨j,pair,hj,heq⟩
      · exact .inl hgrant
      · by_cases hji : j=i
        · rw [hji] at hj
          exact .inr ⟨i,pair,by rw [hself]; exact hpair pair hj,heq⟩
        · exact .inr ⟨j,pair,by rw [hother j hji]; exact hj,heq⟩
    · exact .inr ⟨i,pair,by rw [hself]; exact hissued,heq⟩

/-- A step that moves one unbound request, and leaves the tables alone. -/
theorem GrantInv.quiet (h : GrantInv grant s) {i : ℕ} {before request : Request}
    (hbefore : s.requests i=before) (hunbound : before.isBound=false)
    (hnew : request.isBound=false) (hpair : ∀ pair, before.pair=some pair → request.pair=some pair)
    (hphase : PhaseOk grant s request) : GrantInv grant (s.move i request) := by
  have hgrow : TokensGrow s.tokens (s.move i request).tokens := TokensGrow.refl s.tokens
  have hunbound' : (s.requests i).isBound=false := by
    rw [hbefore]
    exact hunbound
  have hlater : Later s (s.move i request) := Later.of_move rfl hunbound' hgrow
  refine h.moved rfl hunbound' hnew ?_ hgrow (hlater.phaseOk hphase) ?_ ?_
  · exact fun dc hdc => hdc
  · rw [hbefore]
    exact hpair
  · exact fun jti hjti => .inl hjti

/-- A quiet step of a request that has issued nothing. -/
theorem GrantInv.pass (h : GrantInv grant s) {i : ℕ} {before request : Request}
    (hbefore : s.requests i=before) (hunbound : before.isBound=false) (hissued : before.pair=none)
    (hnew : request.isBound=false) (hphase : PhaseOk grant s request) :
    GrantInv grant (s.move i request) := by
  apply h.quiet hbefore hunbound hnew _ hphase
  intro pair hpair
  rw [hissued] at hpair
  cases hpair

/-- Taking the row away, or not, keeps the rest. -/
theorem GrantInv.shrink (h : GrantInv grant s) (hrequests : t.requests=s.requests)
    (htokens : t.tokens=s.tokens) (hrow : ∀ dc, t.row=some dc → s.row=some dc) :
    GrantInv grant t := by
  have hlater : Later s t := by
    constructor
    · intro i userId pair hi
      rw [hrequests]
      exact hi
    · intro jti hjti
      rw [htokens]
      exact hjti
    · intro jti hjti
      rw [RevokedToken,htokens]
      exact hjti
  constructor
  · intro i
    rw [hrequests]
    exact hlater.phaseOk (h.phases i)
  · intro dc hdc
    exact (h.row dc (hrow dc hdc)).imp_right hlater.boundRow
  · intro hfree
    rw [hrequests]
    exact h.free (hrow _ hfree)
  · rw [hrequests]
    exact h.unique
  · rw [htokens,hrequests]
    exact h.known

/-- The row that an approval can bind is as it was generated. -/
theorem GrantInv.row_of_approvable (h : GrantInv grant s) {userCode : String}
    (hfree : approvable s.row userCode=true) : s.row=some grant.row := by
  rw [approvable,Option.any_eq_true] at hfree
  obtain ⟨dc,hdc,hmatch⟩ := hfree
  rw [Bool.and_eq_true] at hmatch
  rcases h.row dc hdc with heq | ⟨userId,pair,-,heq⟩
  · rw [hdc,heq]
  · rw [heq] at hmatch
    cases hmatch.2

/-- Binding the row. -/
theorem GrantInv.bound (h : GrantInv grant s) {i : ℕ} {userId userCode : String}
    {pair : TokenPair} (hstored : s.requests i=.stored userId userCode pair)
    (hfree : approvable s.row userCode=true) :
    GrantInv grant {s.move i (.bound userId pair) with
      row := s.row.map fun dc => dc.bind userId pair} := by
  have hrow := h.row_of_approvable hfree
  have hnone := h.free hrow
  have hunbound : (s.requests i).isBound=false := by
    rw [hstored]
    rfl
  have hlater : Later s {s.move i (.bound userId pair) with
      row := s.row.map fun dc => dc.bind userId pair} :=
    Later.of_move rfl hunbound (TokensGrow.refl s.tokens)
  have hself : (s.move i (.bound userId pair)).requests i=.bound userId pair :=
    Function.update_self i _ _
  have hother : ∀ j, j≠i → (s.move i (.bound userId pair)).requests j=s.requests j :=
    fun j hne => Function.update_of_ne hne _ _
  have honly : ∀ j u p, (s.move i (.bound userId pair)).requests j=.bound u p → j=i := by
    intro j u p hj
    by_contra hne
    rw [hother j hne] at hj
    exact hnone j u p hj
  constructor
  · intro j
    by_cases heq : j=i
    · have hpair : PairOf s userId pair := by
        have hok := h.phases i
        rw [hstored] at hok
        exact hok
      dsimp only
      rw [heq,hself]
      exact hlater.pairOf hpair
    · dsimp only
      rw [hother j heq]
      exact hlater.phaseOk (h.phases j)
  · intro dc hdc
    dsimp only at hdc
    rw [hrow] at hdc
    cases hdc
    exact .inr ⟨userId,pair,⟨i,hself⟩,rfl⟩
  · intro hfree'
    dsimp only at hfree'
    rw [hrow] at hfree'
    cases hfree'
  · intro j k u u' p p' hj hk
    exact (honly j u p hj).trans (honly k u' p' hk).symm
  · intro jti hjti
    rcases h.known jti hjti with hgrant | ⟨j,p,hj,heq⟩
    · exact .inl hgrant
    · refine .inr ⟨j,p,?_,heq⟩
      by_cases hji : j=i
      · rw [hji,hstored] at hj
        dsimp only
        rw [hji,hself]
        exact hj
      · dsimp only
        rw [hother j hji]
        exact hj

theorem GrantInv.found_row (h : GrantInv grant s) {p : DeviceCode → Bool} {dc : DeviceCode}
    (hdc : s.row.filter p=some dc) : dc=grant.row ∨ BoundRow grant s dc :=
  h.row dc (Option.filter_eq_some_iff.mp hdc).1

/-- The lookup of an approval. -/
theorem GrantInv.lookup (h : GrantInv grant s) {i : ℕ} {userId userCode : String}
    (happroving : s.requests i=.approving userId userCode) :
    GrantInv grant
      (s.move i (afterLookup userId userCode (getDeviceCodeByUserCode s.row userCode))) := by
  cases hrow : getDeviceCodeByUserCode s.row userCode with
  | none => exact h.pass happroving rfl rfl rfl trivial
  | some dc =>
    exact h.pass happroving rfl rfl rfl (h.found_row hrow)

/-- The checks of an approval. -/
theorem GrantInv.check (h : GrantInv grant s) {i : ℕ} {userId userCode : String}
    {dc : DeviceCode} (hfound : s.requests i=.found userId userCode dc) (now : Int64) :
    GrantInv grant (s.move i (checkApproval userId userCode dc now)) := by
  unfold checkApproval
  split_ifs
  · exact h.pass hfound rfl rfl rfl trivial
  · exact h.pass hfound rfl rfl rfl trivial
  · exact h.pass hfound rfl rfl rfl trivial

/-- A new refresh token is stored. -/
theorem GrantInv.store (h : GrantInv grant s) {i : ℕ} {userId userCode : String}
    {pair : TokenPair} (hissuing : s.requests i=.issuing userId userCode)
    (haccess : pair.access.sub=userId) (hrefresh : pair.refresh.sub=userId)
    (hfresh : s.tokens pair.refresh.jti=none) (row : TokenRow) :
    GrantInv grant {s.move i (.stored userId userCode pair) with
      tokens := storeRefreshToken s.tokens pair.refresh.jti row} := by
  have hunbound : (s.requests i).isBound=false := by
    rw [hissuing]
    rfl
  refine h.moved rfl hunbound rfl ?_ (TokensGrow.store hfresh row) ?_ ?_ ?_
  · exact fun dc hdc => hdc
  · refine ⟨haccess,hrefresh,?_⟩
    dsimp only
    rw [storeRefreshToken,Function.update_self,Option.isSome_some]
  · intro p hp
    rw [hissuing] at hp
    cases hp
  · intro jti hjti
    by_cases heq : jti=pair.refresh.jti
    · exact .inr ⟨pair,rfl,heq.symm⟩
    · dsimp only at hjti
      rw [storeRefreshToken,Function.update_of_ne heq] at hjti
      exact .inl hjti

/-- The loser's token is revoked. -/
theorem GrantInv.revoke (h : GrantInv grant s) {i : ℕ} {userId : String} {pair : TokenPair}
    (hlost : s.requests i=.lost userId pair) :
    GrantInv grant {s.move i (.revoked userId pair) with
      tokens := revokeRefreshToken s.tokens pair.refresh.jti} := by
  have hunbound : (s.requests i).isBound=false := by
    rw [hlost]
    rfl
  have hpair : PairOf s userId pair := by
    have hok := h.phases i
    rw [hlost] at hok
    exact hok
  obtain ⟨haccess,hrefresh,hsome⟩ := hpair
  obtain ⟨row,hrow⟩ := Option.isSome_iff_exists.mp hsome
  have hafter : revokeRefreshToken s.tokens pair.refresh.jti pair.refresh.jti=some row.revoke := by
    rw [revokeRefreshToken,if_pos rfl,hrow]
    rfl
  refine h.moved rfl hunbound rfl ?_ (TokensGrow.revoke s.tokens pair.refresh.jti) ?_ ?_ ?_
  · exact fun dc hdc => hdc
  · refine ⟨⟨haccess,hrefresh,?_⟩,?_⟩
    · dsimp only
      rw [hafter,Option.isSome_some]
    · rw [RevokedToken]
      dsimp only
      rw [hafter]
      rfl
  · intro p hp
    rw [hlost] at hp
    exact hp
  · intro jti hjti
    dsimp only at hjti
    unfold revokeRefreshToken at hjti
    split_ifs at hjti
    · rw [Option.isSome_map] at hjti
      exact .inl hjti
    · exact .inl hjti

/-- The rate limit of a poll. -/
theorem GrantInv.poll (h : GrantInv grant s) {i : ℕ} (hwaiting : s.requests i=.waiting)
    (deviceCode : String) (instant : ℕ) :
    GrantInv grant {s.move i (pollTracker s.tracker deviceCode instant).2 with
      tracker := (pollTracker s.tracker deviceCode instant).1} := by
  unfold pollTracker
  dsimp only
  split_ifs
  · have hmoved : GrantInv grant (s.move i .answered) := h.pass hwaiting rfl rfl rfl trivial
    exact hmoved.shrink rfl rfl fun dc hdc => hdc
  · have hmoved : GrantInv grant (s.move i (.polling deviceCode)) :=
      h.pass hwaiting rfl rfl rfl trivial
    exact hmoved.shrink rfl rfl fun dc hdc => hdc

/-- The lookup of a poll. -/
theorem GrantInv.fetch (h : GrantInv grant s) {i : ℕ} {deviceCode : String}
    (hpolling : s.requests i=.polling deviceCode) :
    GrantInv grant (s.move i (afterFetch (getDeviceCode s.row deviceCode))) := by
  cases hrow : getDeviceCode s.row deviceCode with
  | none => exact h.pass hpolling rfl rfl rfl trivial
  | some dc =>
    exact h.pass hpolling rfl rfl rfl (h.found_row hrow)

theorem expiresAt_eq {dc : DeviceCode} (h : dc=grant.row ∨ BoundRow grant s dc) :
    dc.expiresAt=grant.expiresAt := by
  rcases h with heq | ⟨userId,pair,-,heq⟩
  · rw [heq]
    rfl
  · rw [heq]
    rfl

/-- The checks of a poll: it goes on with a bound row that has not expired. -/
theorem GrantInv.inspect (h : GrantInv grant s) {i : ℕ} {dc : DeviceCode}
    (hfetched : s.requests i=.fetched dc) (now : Int64) :
    GrantInv grant (s.move i (checkPoll dc now)) := by
  have hdc : dc=grant.row ∨ BoundRow grant s dc := by
    have hok := h.phases i
    rw [hfetched] at hok
    exact hok
  unfold checkPoll
  split_ifs with hexpired hpending
  · exact h.pass hfetched rfl rfl rfl trivial
  · exact h.pass hfetched rfl rfl rfl trivial
  · have hnow : now≤grant.expiresAt := by
      rw [← expiresAt_eq hdc]
      exact Int64.not_lt.mp hexpired
    have hbound : BoundRow grant s dc := by
      rcases hdc with heq | hbound
      · rw [heq] at hpending
        exact absurd rfl hpending
      · exact hbound
    exact h.pass hfetched rfl rfl rfl ⟨hbound,hnow⟩

/-- The tokens of a bound row are returned. -/
theorem GrantInv.answer (h : GrantInv grant s) {i : ℕ} {dc : DeviceCode} {now : Int64}
    (hconsumed : s.requests i=.consumed dc now) (tracker : String → Option ℕ) :
    GrantInv grant
      {s.move i (.granted dc.approvedBy dc.accessToken dc.refreshToken now) with
        tracker := tracker} := by
  have hok := h.phases i
  rw [hconsumed] at hok
  obtain ⟨⟨userId,pair,hbound,hdc⟩,hnow⟩ := hok
  have hphase : PhaseOk grant s (.granted dc.approvedBy dc.accessToken dc.refreshToken now) := by
    rw [hdc]
    exact ⟨⟨userId,pair,hbound,rfl,rfl,rfl⟩,hnow⟩
  have hmoved := h.pass hconsumed rfl rfl rfl hphase
  exact hmoved.shrink rfl rfl fun dc hdc => hdc

/-- A request deletes the row and moves on without tokens of its own. -/
theorem GrantInv.delete (h : GrantInv grant s) {i : ℕ} {before request : Request}
    (hbefore : s.requests i=before) (hunbound : before.isBound=false) (hissued : before.pair=none)
    (hnew : request.isBound=false) (hphase : PhaseOk grant s request) (deviceCode : String) :
    GrantInv grant {s.move i request with row := deleteDeviceCode s.row deviceCode} := by
  have hmoved := h.pass hbefore hunbound hissued hnew hphase
  exact hmoved.shrink rfl rfl fun dc hdc => (Option.filter_eq_some_iff.mp hdc).1

/-- Every step keeps what is known. -/
theorem GrantInv.step {action : Action} (h : GrantInv grant s)
    (hstep : GrantStep grant.jwt s action t) : GrantInv grant t := by
  cases hstep with
  | refuse waiting => exact h.pass waiting rfl rfl rfl trivial
  | authenticate waiting =>
    exact h.pass waiting rfl rfl rfl trivial
  | lookup approving => exact h.lookup approving
  | check found => exact h.check found _
  | store issuing fresh => exact h.store issuing rfl rfl fresh _
  | bind stored free => exact h.bound stored free
  | @lose i userId userCode pair stored taken =>
    have hok := h.phases i
    rw [stored] at hok
    exact h.quiet stored rfl rfl (fun _ hp => hp) hok
  | revoke lost => exact h.revoke lost
  | poll waiting => exact h.poll waiting _ _
  | fetch polling => exact h.fetch polling
  | inspect fetched => exact h.inspect fetched _
  | @redeem i dc now redeeming =>
    have hok := h.phases i
    rw [redeeming] at hok
    have hphase : PhaseOk grant s (.consumed dc now) := hok
    exact h.delete redeeming rfl rfl rfl hphase dc.deviceCode
  | answer consumed => exact h.answer consumed _
  | @discard i deviceCode discarding =>
    have hphase : PhaseOk grant s .answered := trivial
    exact h.delete discarding rfl rfl rfl hphase deviceCode
  | cleanup => exact h.shrink rfl rfl fun dc hdc => (Option.filter_eq_some_iff.mp hdc).1

theorem grantInv_start (grant : Grant) : GrantInv grant (Server.start grant) where
  phases _ := trivial
  row dc hdc := .inl (Option.some.inj hdc).symm
  free _ _ _ _ h := by cases h
  unique i _ _ _ _ _ h := by cases h
  known _ h := .inl h

theorem grantInv_of_run {history : List Action}
    (run : Run (GrantStep grant.jwt) (Server.start grant) history s) : GrantInv grant s :=
  run.invariant (I:=fun _ s => GrantInv grant s) (grantInv_start grant)
    fun _ _ _ _ _ h hstep => h.step hstep

end

/-- In every state of every run at most one approval is bound to the code.
Whoever polls and gets tokens gets the pair of that approval, which is issued
to its user, and gets it before the expiry. When all requests are answered,
every refresh token they stored is revoked but that of the bound approval. -/
theorem grant_agreement (grant : Grant) (history : List Action) (s : Server)
    (run : Run (GrantStep grant.jwt) (Server.start grant) history s) :
    (∀ i j userId userId' pair pair', s.requests i=.bound userId pair →
      s.requests j=.bound userId' pair' → i=j) ∧
    (∀ i user access refresh now, s.requests i=.granted user access refresh now →
      now≤grant.expiresAt ∧ ∃ j userId pair, s.requests j=.bound userId pair ∧
        user=some userId ∧ access=some pair.access ∧ refresh=some pair.refresh ∧
        pair.access.sub=userId ∧ pair.refresh.sub=userId) ∧
    ((∀ i, (s.requests i).finished=true) → ∀ jti, (s.tokens jti).isSome=true →
      grant.tokens jti=none → RevokedToken s jti ∨
        ∃ i userId pair, s.requests i=.bound userId pair ∧ pair.refresh.jti=jti) := by
  have h := grantInv_of_run run
  refine ⟨h.unique,?_,?_⟩
  · intro i user access refresh now hi
    have hok := h.phases i
    rw [hi] at hok
    obtain ⟨⟨userId,pair,⟨j,hj⟩,huser,haccess,hrefresh⟩,hnow⟩ := hok
    have hpair := h.phases j
    rw [hj] at hpair
    exact ⟨hnow,j,userId,pair,hj,huser,haccess,hrefresh,hpair.1,hpair.2.1⟩
  · intro hfinished jti hjti hnew
    rcases h.known jti hjti with hgrant | ⟨i,pair,hi,heq⟩
    · rw [hnew] at hgrant
      cases hgrant
    · have hdone := hfinished i
      have hok := h.phases i
      cases hphase : s.requests i with
      | bound userId pair' =>
        rw [hphase] at hi
        cases hi
        exact .inr ⟨i,userId,pair,hphase,heq⟩
      | revoked userId pair' =>
        rw [hphase] at hi hok
        cases hi
        rw [← heq]
        exact .inl hok.2
      | stored userId userCode pair' =>
        rw [hphase] at hdone
        cases hdone
      | lost userId pair' =>
        rw [hphase] at hdone
        cases hdone
      | _ =>
        rw [hphase] at hi
        cases hi

/-- A code for the sample run. -/
def sampleGrant : Grant := ⟨"d1","AB-CD",1000,⟨3600,86400,none⟩,fun _ => none⟩

/-- Tokens that the first user of the sample run is issued. -/
def samplePair : TokenPair :=
  ⟨sampleGrant.jwt.issueAccessToken "u1" "a1" 900,
    sampleGrant.jwt.issueRefreshToken "u1" none "r1" 900⟩

/-- Two users approve the code. Both store a token before either binds one, the
first binds its pair, and a poll returns it. -/
theorem grant_agreement_race : ∃ history s,
    Run (GrantStep sampleGrant.jwt) (Server.start sampleGrant) history s ∧
      s.requests 2=.granted (some "u1") (some samplePair.access) (some samplePair.refresh) 950 ∧
      ∃ j pair, s.requests j=.bound "u1" pair ∧ samplePair.access=pair.access ∧
        samplePair.refresh=pair.refresh := by
  have h : Run (GrantStep sampleGrant.jwt) (Server.start sampleGrant) []
      (Server.start sampleGrant) := .start
  have h := h.next (.request 0) (@GrantStep.authenticate _ _ 0 "u1" "AB-CD" rfl)
  have h := h.next (.request 1) (@GrantStep.authenticate _ _ 1 "u2" "AB-CD" rfl)
  have h := h.next (.request 0) (.lookup rfl)
  have h := h.next (.request 1) (.lookup rfl)
  have h := h.next (.request 0) (@GrantStep.check _ _ 0 "u1" "AB-CD" sampleGrant.row 900 rfl)
  have h := h.next (.request 1) (@GrantStep.check _ _ 1 "u2" "AB-CD" sampleGrant.row 900 rfl)
  have h := h.next (.request 0)
    (@GrantStep.store _ _ 0 "u1" "AB-CD" "a1" "r1" 900 900 900 rfl rfl)
  have h := h.next (.request 1)
    (@GrantStep.store _ _ 1 "u2" "AB-CD" "a2" "r2" 900 900 900 rfl rfl)
  have h := h.next (.request 0) (.bind rfl rfl)
  have h := h.next (.request 2) (@GrantStep.poll _ _ 2 "d1" 0 rfl)
  have h := h.next (.request 1) (.lose rfl rfl)
  have h := h.next (.request 2) (.fetch rfl)
  have h := h.next (.request 2)
    (@GrantStep.inspect _ _ 2 (sampleGrant.row.bind "u1" samplePair) 950 rfl)
  have h := h.next (.request 1) (.revoke rfl)
  have h := h.next (.request 2) (.redeem rfl)
  have h := h.next (.request 2) (.answer rfl)
  obtain ⟨-,j,userId,pair,hj,huser,haccess,hrefresh,-⟩ :=
    (grant_agreement sampleGrant _ _ h).2.1 2 _ _ _ _ rfl
  cases huser
  exact ⟨_,_,h,rfl,j,pair,hj,Option.some.inj haccess,Option.some.inj hrefresh⟩

end TokiSync.DeviceGrant
