import TokiSync.AdminAccounts

/-!
# The nonce of an OIDC login

A login gets its identity from an id token verified with the provider's keys,
from an id token decoded without keys when the provider publishes none, or from
the userinfo endpoint. The nonce is compared on the first way; on the second it
is compared if the token has one; on the third it is not looked at, and the
third way is also taken when the comparison on the first has failed.
-/

namespace TokiSync.OidcNonce

open AdminAccounts (bind_eq_ok)

/-- JSON values; an object keeps its fields as they are written. -/
inductive Json where
  | null
  | bool (b : Bool)
  | int (n : ℤ)
  | float (literal : String)
  | str (text : String)
  | arr (items : List Json)
  | obj (fields : List (String×Json))

/-- A field of an object; the last one written counts. -/
def Json.get (key : String) : Json → Option Json
  | .obj fields => (fields.reverse.find? (·.1=key)).map Prod.snd
  | _ => none

/-- What a reader of some fields sees of a value. -/
def Json.only (names : List String) : Json → Json
  | .obj fields => .obj (fields.filter fun field => field.1∈names)
  | value => value

/-- The text of a string. -/
def Json.asStr : Json → Option String
  | .str text => some text
  | _ => none

/-- The value of a number that is a 64-bit integer. -/
def Json.asI64 : Json → Option ℤ
  | .int n => if -2^63 ≤ n ∧ n<2^63 then some n else none
  | _ => none

/-- A required string. -/
def requiredString : List Json → Except String String
  | [.str text] => .ok text
  | [] => .error "missing field"
  | [_] => .error "invalid type"
  | _ => .error "duplicate field"

/-- An optional string. -/
def optionalString : List Json → Except String (Option String)
  | [] => .ok none
  | [.null] => .ok none
  | [.str text] => .ok (some text)
  | [_] => .error "invalid type"
  | _ => .error "duplicate field"

/-- Fields of an object with a name. -/
def fieldsNamed (key : String) (fields : List (String×Json)) : List Json :=
  (fields.filter (·.1=key)).map Prod.snd

/-- What is known of a user. -/
structure OidcUserInfo where
  /-- Subject. -/
  sub : String
  /-- Mail address. -/
  email : Option String
  /-- Display name. -/
  name : Option String

/-- Deserialize the claims of an id token, from an object or in order from an array. -/
def idTokenClaims : Json → Except String OidcUserInfo
  | .obj fields => do
    let sub ← requiredString (fieldsNamed "sub" fields)
    let email ← optionalString (fieldsNamed "email" fields)
    let name ← optionalString (fieldsNamed "name" fields)
    pure ⟨sub,email,name⟩
  | .arr items => do
    let sub ← requiredString (items.take 1)
    let email ← optionalString ((items.drop 1).take 1)
    let name ← optionalString ((items.drop 2).take 1)
    if items.length≤3 then pure ⟨sub,email,name⟩ else .error "trailing characters"
  | _ => .error "invalid type"

/-- Claims of an id token with its nonce. -/
structure IdTokenClaimsWithNonce where
  /-- Subject. -/
  sub : String
  /-- Mail address. -/
  email : Option String
  /-- Display name. -/
  name : Option String
  /-- Nonce. -/
  nonce : Option String

/-- Deserialize the claims of an id token with its nonce. -/
def idTokenClaimsWithNonce (fields : List (String×Json)) :
    Except String IdTokenClaimsWithNonce := do
  let sub ← requiredString (fieldsNamed "sub" fields)
  let email ← optionalString (fieldsNamed "email" fields)
  let name ← optionalString (fieldsNamed "name" fields)
  let nonce ← optionalString (fieldsNamed "nonce" fields)
  pure ⟨sub,email,name,nonce⟩

/-- Signature algorithms. -/
inductive Algorithm where
  | rs256 | rs384 | rs512 | other (name : String)
  deriving DecidableEq

/-- Header of a token. -/
structure JwtHeader where
  /-- Id of the key. -/
  kid : Option String
  /-- The algorithm. -/
  alg : Algorithm

/-- A published key. -/
structure JwkKey where
  /-- Kind of the key. -/
  kty : String
  /-- Id of the key. -/
  kid : Option String
  /-- RSA modulus. -/
  n : Option String
  /-- RSA exponent. -/
  e : Option String

/-- What a verified token has to satisfy besides its signature. -/
structure Validation where
  /-- The algorithm. -/
  algorithm : Algorithm
  /-- Expected issuer. -/
  issuer : String
  /-- Expected audience. -/
  audience : String

/-- Functions of the crates the login rests on. -/
structure Crates where
  /-- Base64, URL-safe, without padding. -/
  base64Decode : String → Option (List UInt8)
  /-- Read a JSON text as a struct: fields of these names are parsed, whatever
  stands in another field is skipped. -/
  readFields : List String → List UInt8 → Option Json
  /-- Read a JSON text as a value: everything in it is parsed, and a number out of
  range or too deep a nesting is refused wherever it stands. -/
  readValue : List UInt8 → Option Json
  /-- Decode the header of a token. -/
  decodeHeader : String → Option JwtHeader
  /-- Whether RSA components make a key. -/
  rsaComponents : String → String → Bool
  /-- Verify a token with RSA components; its claims are read as a struct. -/
  verify : String → String → String → Validation → ℤ → Option (List (String×Json))

/-- What one callback knows: its configuration and the provider's answers. -/
structure CallbackInput where
  /-- The configured issuer. -/
  issuerUrl : String
  /-- The configured client. -/
  clientId : String
  /-- The id token, empty if there is none. -/
  idToken : String
  /-- Address of the keys, empty if there is none. -/
  jwksUri : String
  /-- Address of the userinfo endpoint, empty if there is none. -/
  userinfoEndpoint : String
  /-- Fetched keys. -/
  jwks : Except String (List JwkKey)
  /-- Fetched userinfo. -/
  userinfo : Except String OidcUserInfo
  /-- The current time. -/
  now : ℤ

/-- Require a value. -/
def orFail {α : Type} (reason : String) : Option α → Except String α
  | some a => .ok a
  | none => .error reason

section

variable (crates : Crates) (input : CallbackInput)

/-- Decode base64, with padding added when it does not work without. -/
def decodeUrlSafe (text : String) : Except String (List UInt8) :=
  let padded := text++String.ofList (List.replicate ((4-text.utf8ByteSize%4)%4) '=')
  orFail "base64 URL-safe decode failed"
    ((crates.base64Decode text).or (crates.base64Decode padded))

/-- Parts of a token. -/
def tokenParts (idToken : String) : List String :=
  (idToken.toList.splitOn '.').map String.ofList

/-- A token has three parts. -/
def hasThreeParts (idToken : String) : Bool := (tokenParts idToken).length=3

/-- The payload of a token; a token without three parts has none. -/
def payloadBytes (idToken : String) : Except String (List UInt8) :=
  match tokenParts idToken with
  | [_,payload,_] => decodeUrlSafe crates payload
  | _ => .error "invalid id_token format"

/-- Claims of a token that is not verified. -/
def parseIdTokenClaims (idToken : String) : Except String OidcUserInfo := do
  let bytes ← payloadBytes crates idToken
  let claims ← orFail "failed to parse id_token claims"
    (crates.readFields ["sub","email","name"] bytes)
  idTokenClaims claims

/-- The payload of a token as a value. -/
def payloadValue (purpose idToken : String) : Except String Json := do
  let bytes ← payloadBytes crates idToken
  orFail ("failed to parse id_token claims for "++purpose) (crates.readValue bytes)

/-- An issuer in the claims that is not the configured one. -/
def wrongIssuer (claims : Json) : Option String :=
  ((claims.get "iss").bind Json.asStr).filter (·≠input.issuerUrl)

/-- The client is in the audience, if the claims have one. -/
def audienceOk (claims : Json) : Bool :=
  match claims.get "aud" with
  | some (.str aud) => aud=input.clientId
  | some (.arr items) => items.any fun item => item.asStr=some input.clientId
  | some _ => false
  | none => true

/-- The claims have expired. -/
def expired (claims : Json) : Bool :=
  match (claims.get "exp").bind Json.asI64 with
  | some exp => exp < input.now
  | none => false

/-- Check issuer, audience and expiry, each if the token has it. -/
def validateIdTokenClaims : Except String Unit :=
  if hasThreeParts input.idToken then do
    let claims ← payloadValue crates "validation" input.idToken
    match wrongIssuer input claims with
    | some iss =>
      .error ("id_token issuer mismatch: expected "++input.issuerUrl++", got "++iss)
    | none =>
      if !audienceOk input claims then
        .error ("id_token audience does not contain client_id "++input.clientId)
      else if expired input claims then .error "id_token expired"
      else pure ()
  else pure ()

/-- Check the nonce, if the token has one. -/
def validateIdTokenNonce (idToken expectedNonce : String) : Except String Unit :=
  if hasThreeParts idToken then do
    let claims ← payloadValue crates "nonce validation" idToken
    match (claims.get "nonce").bind Json.asStr with
    | some nonce => if nonce≠expectedNonce then .error "nonce mismatch" else pure ()
    | none => pure ()
  else pure ()

/-- Verify the token with the published keys. -/
def verifyIdTokenWithJwks (expectedNonce : Option String) : Except String OidcUserInfo := do
  let header ← orFail "failed to decode id_token JWT header" (crates.decodeHeader input.idToken)
  let kid ← orFail "id_token JWT header missing kid" header.kid
  let keys ← input.jwks
  let jwk ← orFail ("no matching key found in JWKS for kid="++kid)
    (keys.find? fun k => k.kid=some kid)
  if jwk.kty≠"RSA" then .error ("unsupported key type: "++jwk.kty++" (only RSA supported)")
  else do
    let n ← orFail "JWKS key missing 'n' component" jwk.n
    let e ← orFail "JWKS key missing 'e' component" jwk.e
    if !crates.rsaComponents n e then
      .error "failed to build RSA decoding key from JWKS components"
    else
      match header.alg with
      | .other name => .error ("unsupported JWT algorithm: "++name)
      | alg => do
        let fields ← orFail "id_token signature or claim validation failed"
          (crates.verify input.idToken n e ⟨alg,input.issuerUrl,input.clientId⟩ input.now)
        let claims ← idTokenClaimsWithNonce fields
        match expectedNonce,claims.nonce with
        | some expected,some nonce =>
          if nonce=expected then pure ⟨claims.sub,claims.email,claims.name⟩
          else .error ("nonce mismatch: expected "++expected++", got "++nonce)
        | some _,none => .error "id_token missing nonce claim"
        | none,_ => pure ⟨claims.sub,claims.email,claims.name⟩

/-- Fall back to the userinfo endpoint. -/
def fallBack : Except String OidcUserInfo :=
  if input.userinfoEndpoint≠"" then input.userinfo
  else .error "no id_token and no userinfo endpoint available"

/-- The identity of a login. -/
def extractUserInfo (expectedNonce : Option String) : Except String OidcUserInfo :=
  if input.idToken≠"" then
    if input.jwksUri≠"" then
      match verifyIdTokenWithJwks crates input expectedNonce with
      | .ok info => pure info
      | .error _ => fallBack input
    else
      match parseIdTokenClaims crates input.idToken with
      | .ok info => do
        validateIdTokenClaims crates input
        match expectedNonce with
        | some expected => validateIdTokenNonce crates input.idToken expected
        | none => pure ()
        pure info
      | .error _ => fallBack input
  else fallBack input

end

/-- The payload of a token claims a text. -/
def Claims (crates : Crates) (idToken key text : String) : Prop :=
  ∃ bytes claims, payloadBytes crates idToken=.ok bytes ∧
    crates.readFields ["sub","nonce"] bytes=some claims ∧ claims.get key=some (.str text)

/-- A token whose payload claims a nonce and a subject. -/
def BindsNonce (crates : Crates) (idToken nonce sub : String) : Prop :=
  Claims crates idToken "nonce" nonce ∧ Claims crates idToken "sub" sub

/-- A text that can be read as a value reads the same as a struct. -/
def Crates.ReadsAlike (crates : Crates) : Prop :=
  ∀ names bytes value, crates.readValue bytes=some value →
    crates.readFields names bytes=some (value.only names)

/-- The claims of a verified token are those in its payload. -/
def Crates.VerifiesPayload (crates : Crates) : Prop :=
  ∀ token n e validation now fields, crates.verify token n e validation now=some fields →
    ∃ bytes, payloadBytes crates token=.ok bytes ∧ ∀ names⊆["sub","email","name","nonce"],
      crates.readFields names bytes=some ((Json.obj fields).only names)

/-- The token of a login is signed with a published key and valid, whatever its
nonce. -/
def Signed (crates : Crates) (input : CallbackInput) (claims : IdTokenClaimsWithNonce) : Prop :=
  ∃ header kid keys jwk n e fields, crates.decodeHeader input.idToken=some header ∧
    header.kid=some kid ∧ input.jwks=.ok keys ∧ keys.find? (fun k => k.kid=some kid)=some jwk ∧
    jwk.kty="RSA" ∧ jwk.n=some n ∧ jwk.e=some e ∧ crates.rsaComponents n e=true ∧
    (∀ name, header.alg≠.other name) ∧
    crates.verify input.idToken n e ⟨header.alg,input.issuerUrl,input.clientId⟩ input.now=
      some fields ∧
    idTokenClaimsWithNonce fields=.ok claims

/-- The claims of a token can be decoded. -/
def Decodes (crates : Crates) (idToken : String) (info : OidcUserInfo) : Prop :=
  ∃ bytes claims, payloadBytes crates idToken=.ok bytes ∧
    crates.readFields ["sub","email","name"] bytes=some claims ∧ idTokenClaims claims=.ok info

/-- The userinfo endpoint answers. -/
def Answers (input : CallbackInput) (info : OidcUserInfo) : Prop :=
  input.userinfoEndpoint≠"" ∧ input.userinfo=.ok info

/-- What a login without a nonce rests on is missing: no token is decoded that has
none, and the userinfo endpoint answers at most for the subject of a token that
has the nonce. -/
structure NonceKept (crates : Crates) (input : CallbackInput) (nonce : String) : Prop where
  /-- Without keys, a token that passes its checks has a nonce. -/
  decoded : input.idToken≠"" → input.jwksUri="" → ∀ info, Decodes crates input.idToken info →
    ∀ value, payloadValue crates "validation" input.idToken=.ok value →
      wrongIssuer input value=none → audienceOk input value=true → expired input value=false →
        ∃ text, value.get "nonce"=some (.str text)
  /-- With keys, the endpoint answers only beside a token with the nonce, and for its
  subject if the token is not signed. -/
  published : input.idToken≠"" → input.jwksUri≠"" → ∀ info, Answers input info →
    Claims crates input.idToken "nonce" nonce ∧
      (Claims crates input.idToken "sub" info.sub ∨ ∃ claims, Signed crates input claims)
  /-- Without keys, it answers beside a token that cannot be decoded only if this has
  the nonce and the subject all the same. -/
  undecoded : input.idToken≠"" → input.jwksUri="" →
    (∀ info, ¬Decodes crates input.idToken info) → ∀ info, Answers input info →
      Claims crates input.idToken "nonce" nonce ∧ Claims crates input.idToken "sub" info.sub
  /-- Without a token, it does not answer. -/
  missing : input.idToken="" → ∀ info, ¬Answers input info

section

variable {crates : Crates} {input : CallbackInput} {fields : List (String×Json)}
variable {key nonce text : String} {info : OidcUserInfo}

theorem orFail_eq_ok_iff {α : Type} {reason : String} {o : Option α} {a : α} :
    orFail reason o=.ok a ↔ o=some a := by
  cases o with
  | none => simp [orFail]
  | some b => simp [orFail]

/-- The last field of a name counts. -/
theorem get_obj : (Json.obj fields).get key=(fieldsNamed key fields).getLast? := by
  unfold Json.get fieldsNamed
  dsimp only
  rw [← List.head?_filter,List.filter_reverse,List.head?_reverse,List.getLast?_map]

theorem get_of_required (h : requiredString (fieldsNamed key fields)=.ok text) :
    (Json.obj fields).get key=some (.str text) := by
  rw [get_obj]
  unfold requiredString at h
  split at h
  · rename_i found hfields
    cases h
    rw [hfields]
    rfl
  all_goals cases h

/-- An optional string is found as it counts. -/
theorem get_iff_of_optional {found : Option String}
    (h : optionalString (fieldsNamed key fields)=.ok found) :
    (Json.obj fields).get key=some (.str text) ↔ found=some text := by
  rw [get_obj]
  unfold optionalString at h
  split at h
  · rename_i hfields
    cases h
    simp [hfields]
  · rename_i hfields
    cases h
    simp [hfields]
  · rename_i hfields
    cases h
    simp [hfields]
  all_goals cases h

/-- A reader of some fields sees all that is written in them. -/
theorem fieldsNamed_only {names : List String} (hkey : key∈names) :
    fieldsNamed key (fields.filter fun field => field.1∈names)=fieldsNamed key fields := by
  unfold fieldsNamed
  rw [List.filter_filter]
  congr 2
  funext field
  by_cases hfield : field.1=key
  · simp [hfield,hkey]
  · simp [hfield]

theorem get_only {names : List String} (hkey : key∈names) (value : Json) :
    (value.only names).get key=value.get key := by
  cases value with
  | obj fields =>
    unfold Json.only
    dsimp only
    rw [get_obj,get_obj,fieldsNamed_only hkey]
  | _ => rfl

/-- The one way through the verification. -/
theorem verifyIdTokenWithJwks_eq_ok_iff :
    verifyIdTokenWithJwks crates input (some nonce)=.ok info ↔
      ∃ claims, Signed crates input claims ∧ claims.nonce=some nonce ∧
        info=⟨claims.sub,claims.email,claims.name⟩ := by
  unfold verifyIdTokenWithJwks
  constructor
  · intro h
    obtain ⟨header,hheader,h⟩ := bind_eq_ok.mp h
    obtain ⟨kid,hkid,h⟩ := bind_eq_ok.mp h
    obtain ⟨keys,hkeys,h⟩ := bind_eq_ok.mp h
    obtain ⟨jwk,hjwk,h⟩ := bind_eq_ok.mp h
    split_ifs at h with hkty
    obtain ⟨n,hn,h⟩ := bind_eq_ok.mp h
    obtain ⟨e,he,h⟩ := bind_eq_ok.mp h
    split_ifs at h with hcomponents
    split at h
    · cases h
    · rename_i hother
      obtain ⟨fields,hfields,h⟩ := bind_eq_ok.mp h
      obtain ⟨claims,hclaims,h⟩ := bind_eq_ok.mp h
      refine ⟨claims,⟨header,kid,keys,jwk,n,e,fields,orFail_eq_ok_iff.mp hheader,
        orFail_eq_ok_iff.mp hkid,hkeys,orFail_eq_ok_iff.mp hjwk,not_not.mp hkty,
        orFail_eq_ok_iff.mp hn,orFail_eq_ok_iff.mp he,by simpa using hcomponents,hother,
        orFail_eq_ok_iff.mp hfields,hclaims⟩,?_⟩
      cases hnonce : claims.nonce with
      | none =>
        rw [hnonce] at h
        cases h
      | some found =>
        rw [hnonce] at h
        dsimp only at h
        split_ifs at h with heq
        exact ⟨congrArg some heq,(Except.ok.inj h).symm⟩
  · rintro ⟨claims,⟨header,kid,keys,jwk,n,e,fields,hheader,hkid,hkeys,hjwk,hkty,hn,he,hcomponents,
      hother,hfields,hclaims⟩,hnonce,rfl⟩
    refine bind_eq_ok.mpr ⟨header,orFail_eq_ok_iff.mpr hheader,?_⟩
    refine bind_eq_ok.mpr ⟨kid,orFail_eq_ok_iff.mpr hkid,?_⟩
    refine bind_eq_ok.mpr ⟨keys,hkeys,bind_eq_ok.mpr ⟨jwk,orFail_eq_ok_iff.mpr hjwk,?_⟩⟩
    rw [if_neg (not_not.mpr hkty)]
    refine bind_eq_ok.mpr ⟨n,orFail_eq_ok_iff.mpr hn,?_⟩
    refine bind_eq_ok.mpr ⟨e,orFail_eq_ok_iff.mpr he,?_⟩
    rw [if_neg (by simp [hcomponents])]
    split
    · rename_i name halg
      exact absurd halg (hother name)
    · refine bind_eq_ok.mpr ⟨fields,orFail_eq_ok_iff.mpr hfields,bind_eq_ok.mpr ⟨claims,hclaims,?_⟩⟩
      rw [hnonce]
      dsimp only
      rw [if_pos rfl]
      rfl

/-- The payload of a signed token claims its subject, and its nonce if it has one. -/
theorem claims_of_signed (hverify : crates.VerifiesPayload) {claims : IdTokenClaimsWithNonce}
    (h : Signed crates input claims) :
    Claims crates input.idToken "sub" claims.sub ∧
      (Claims crates input.idToken "nonce" nonce ↔ claims.nonce=some nonce) := by
  obtain ⟨_,_,_,_,_,_,fields,_,_,_,_,_,_,_,_,_,hfields,hclaims⟩ := h
  obtain ⟨bytes,hbytes,hread⟩ := hverify _ _ _ _ _ _ hfields
  have hseen := hread ["sub","nonce"] (by simp)
  unfold idTokenClaimsWithNonce at hclaims
  obtain ⟨sub,hsub,hclaims⟩ := bind_eq_ok.mp hclaims
  obtain ⟨email,_,hclaims⟩ := bind_eq_ok.mp hclaims
  obtain ⟨name,_,hclaims⟩ := bind_eq_ok.mp hclaims
  obtain ⟨found,hnonce,hclaims⟩ := bind_eq_ok.mp hclaims
  cases hclaims
  refine ⟨⟨bytes,_,hbytes,hseen,?_⟩,?_⟩
  · rw [get_only (by simp)]
    exact get_of_required hsub
  · constructor
    · rintro ⟨bytes',claims,hbytes',hseen',hget⟩
      rw [hbytes] at hbytes'
      cases hbytes'
      rw [hseen] at hseen'
      cases hseen'
      rw [get_only (by simp)] at hget
      exact (get_iff_of_optional hnonce).mp hget
    · rintro rfl
      refine ⟨bytes,_,hbytes,hseen,?_⟩
      rw [get_only (by simp)]
      exact (get_iff_of_optional hnonce).mpr rfl

/-- A text claimed by a payload that is read as a value stands in the value. -/
theorem claims_iff_of_value (hread : crates.ReadsAlike) {bytes : List UInt8} {value : Json}
    (hbytes : payloadBytes crates input.idToken=.ok bytes)
    (hvalue : crates.readValue bytes=some value) (hkey : key∈["sub","nonce"]) :
    Claims crates input.idToken key text ↔ value.get key=some (.str text) := by
  have hseen := hread ["sub","nonce"] bytes value hvalue
  constructor
  · rintro ⟨bytes',claims,hbytes',hseen',hget⟩
    rw [hbytes] at hbytes'
    cases hbytes'
    rw [hseen] at hseen'
    cases hseen'
    rwa [get_only hkey] at hget
  · intro hget
    exact ⟨bytes,_,hbytes,hseen,by rwa [get_only hkey]⟩

/-- A payload that can be decoded and claims a nonce claims the decoded subject. -/
theorem sub_of_decodes (hread : crates.ReadsAlike) {bytes : List UInt8} {value : Json}
    (hbytes : payloadBytes crates input.idToken=.ok bytes)
    (hvalue : crates.readValue bytes=some value)
    (hdecodes : Decodes crates input.idToken info) {nonce : Json}
    (hnonce : value.get "nonce"=some nonce) : value.get "sub"=some (.str info.sub) := by
  obtain ⟨bytes',claims,hbytes',hseen,hclaims⟩ := hdecodes
  rw [hbytes] at hbytes'
  cases hbytes'
  rw [hread _ _ _ hvalue] at hseen
  cases hseen
  cases value with
  | obj fields =>
    unfold Json.only idTokenClaims at hclaims
    obtain ⟨sub,hsub,hclaims⟩ := bind_eq_ok.mp hclaims
    obtain ⟨email,_,hclaims⟩ := bind_eq_ok.mp hclaims
    obtain ⟨name,_,hclaims⟩ := bind_eq_ok.mp hclaims
    cases hclaims
    rw [fieldsNamed_only (by simp)] at hsub
    exact get_of_required hsub
  | _ => cases hnonce

theorem fallBack_eq_ok_iff : fallBack input=.ok info ↔ Answers input info := by
  unfold fallBack Answers
  by_cases hendpoint : input.userinfoEndpoint=""
  · simp [hendpoint]
  · simp [hendpoint]

theorem parseIdTokenClaims_eq_ok_iff :
    parseIdTokenClaims crates input.idToken=.ok info ↔ Decodes crates input.idToken info := by
  unfold parseIdTokenClaims
  constructor
  · intro h
    obtain ⟨bytes,hbytes,h⟩ := bind_eq_ok.mp h
    obtain ⟨claims,hclaims,h⟩ := bind_eq_ok.mp h
    exact ⟨bytes,claims,hbytes,orFail_eq_ok_iff.mp hclaims,h⟩
  · rintro ⟨bytes,claims,hbytes,hclaims,h⟩
    exact bind_eq_ok.mpr ⟨bytes,hbytes,bind_eq_ok.mpr ⟨claims,orFail_eq_ok_iff.mpr hclaims,h⟩⟩

/-- A payload is that of a token with three parts. -/
theorem hasThreeParts_of_payload {idToken : String} {bytes : List UInt8}
    (h : payloadBytes crates idToken=.ok bytes) : hasThreeParts idToken=true := by
  unfold payloadBytes at h
  split at h
  · rename_i hparts
    unfold hasThreeParts
    rw [hparts]
    rfl
  · cases h

theorem payloadValue_eq_ok_iff {purpose idToken : String} {value : Json} :
    payloadValue crates purpose idToken=.ok value ↔
      ∃ bytes, payloadBytes crates idToken=.ok bytes ∧ crates.readValue bytes=some value := by
  unfold payloadValue
  constructor
  · intro h
    obtain ⟨bytes,hbytes,h⟩ := bind_eq_ok.mp h
    exact ⟨bytes,hbytes,orFail_eq_ok_iff.mp h⟩
  · rintro ⟨bytes,hbytes,h⟩
    exact bind_eq_ok.mpr ⟨bytes,hbytes,orFail_eq_ok_iff.mpr h⟩

/-- The checks that a payload passes. -/
theorem validateIdTokenClaims_eq_ok_iff {bytes : List UInt8}
    (hbytes : payloadBytes crates input.idToken=.ok bytes) :
    validateIdTokenClaims crates input=.ok () ↔
      ∃ value, payloadValue crates "validation" input.idToken=.ok value ∧
        wrongIssuer input value=none ∧ audienceOk input value=true ∧ expired input value=false := by
  unfold validateIdTokenClaims
  rw [if_pos (hasThreeParts_of_payload hbytes),bind_eq_ok]
  refine exists_congr fun value => and_congr_right fun _ => ?_
  cases hissuer : wrongIssuer input value with
  | some iss => simp
  | none =>
    cases haudience : audienceOk input value with
    | false => simp
    | true => cases expired input value <;> simp [pure,Except.pure]

/-- The check of the nonce refuses another one, and nothing else. -/
theorem validateIdTokenNonce_eq_ok_iff {bytes : List UInt8} {value : Json}
    (hbytes : payloadBytes crates input.idToken=.ok bytes)
    (hvalue : crates.readValue bytes=some value) :
    validateIdTokenNonce crates input.idToken nonce=.ok () ↔
      ∀ text, value.get "nonce"=some (.str text) → text=nonce := by
  unfold validateIdTokenNonce
  rw [if_pos (hasThreeParts_of_payload hbytes),payloadValue_eq_ok_iff.mpr ⟨bytes,hbytes,hvalue⟩]
  simp only [bind,Except.bind,pure,Except.pure]
  cases value.get "nonce" with
  | none => simp
  | some found =>
    cases found with
    | str text => by_cases htext : text=nonce <;> simp [Json.asStr,htext]
    | _ => simp [Json.asStr]

/-- A login with published keys gets the identity of the token it verifies, or the
answer of the endpoint. -/
theorem extractUserInfo_of_published (htoken : input.idToken≠"") (hjwks : input.jwksUri≠"") :
    extractUserInfo crates input (some nonce)=.ok info ↔
      verifyIdTokenWithJwks crates input (some nonce)=.ok info ∨
      (∀ other, verifyIdTokenWithJwks crates input (some nonce)≠.ok other) ∧
        Answers input info := by
  unfold extractUserInfo
  rw [if_pos htoken,if_pos hjwks]
  cases hverify : verifyIdTokenWithJwks crates input (some nonce) with
  | ok found => simp [pure,Except.pure]
  | error reason => simp [fallBack_eq_ok_iff]

/-- A token decoded without keys is accepted when its checks pass. -/
theorem extractUserInfo_of_decodes (htoken : input.idToken≠"") (hjwks : input.jwksUri="")
    (hdecodes : Decodes crates input.idToken info) {result : OidcUserInfo} :
    extractUserInfo crates input (some nonce)=.ok result ↔
      validateIdTokenClaims crates input=.ok () ∧
      validateIdTokenNonce crates input.idToken nonce=.ok () ∧ result=info := by
  unfold extractUserInfo
  rw [if_pos htoken,if_neg (not_not.mpr hjwks),parseIdTokenClaims_eq_ok_iff.mpr hdecodes]
  constructor
  · intro h
    obtain ⟨_,hclaims,h⟩ := bind_eq_ok.mp h
    obtain ⟨_,hnonce,h⟩ := bind_eq_ok.mp h
    exact ⟨hclaims,hnonce,(Except.ok.inj h).symm⟩
  · rintro ⟨hclaims,hnonce,hresult⟩
    rw [hresult]
    exact bind_eq_ok.mpr ⟨(),hclaims,bind_eq_ok.mpr ⟨(),hnonce,rfl⟩⟩

/-- A token that is neither verified nor decoded leaves the endpoint. -/
theorem extractUserInfo_of_undecoded (hjwks : input.jwksUri="")
    (hdecodes : ∀ found, ¬Decodes crates input.idToken found) :
    extractUserInfo crates input (some nonce)=.ok info ↔ Answers input info := by
  rw [← fallBack_eq_ok_iff]
  unfold extractUserInfo
  split_ifs with htoken
  · exact absurd hjwks (by assumption)
  · cases hparse : parseIdTokenClaims crates input.idToken with
    | ok found => exact absurd (parseIdTokenClaims_eq_ok_iff.mp hparse) (hdecodes found)
    | error reason => rfl
  · rfl

/-- So does a missing token. -/
theorem extractUserInfo_of_missing (htoken : input.idToken="") :
    extractUserInfo crates input (some nonce)=.ok info ↔ Answers input info := by
  unfold extractUserInfo
  rw [if_neg (not_not.mpr htoken),fallBack_eq_ok_iff]

/-- With published keys, the nonce binds a login exactly when the endpoint answers
at most beside a token that has it. -/
theorem binds_published_iff (hverify : crates.VerifiesPayload) (htoken : input.idToken≠"")
    (hjwks : input.jwksUri≠"") :
    (∀ info, extractUserInfo crates input (some nonce)=.ok info →
      BindsNonce crates input.idToken nonce info.sub) ↔
      ∀ info, Answers input info → Claims crates input.idToken "nonce" nonce ∧
        (Claims crates input.idToken "sub" info.sub ∨ ∃ claims, Signed crates input claims) := by
  constructor
  · intro h info hanswers
    by_cases hverified : ∃ found, verifyIdTokenWithJwks crates input (some nonce)=.ok found
    · obtain ⟨found,hfound⟩ := hverified
      obtain ⟨claims,hsigned,hnonce,-⟩ := verifyIdTokenWithJwks_eq_ok_iff.mp hfound
      exact ⟨(claims_of_signed hverify hsigned).2.mpr hnonce,Or.inr ⟨claims,hsigned⟩⟩
    · have hbinds := h info ((extractUserInfo_of_published htoken hjwks).mpr
        (Or.inr ⟨not_exists.mp hverified,hanswers⟩))
      exact ⟨hbinds.1,Or.inl hbinds.2⟩
  · intro h info hinfo
    rcases (extractUserInfo_of_published htoken hjwks).mp hinfo with hfound | ⟨hfails,hanswers⟩
    · obtain ⟨claims,hsigned,hnonce,rfl⟩ := verifyIdTokenWithJwks_eq_ok_iff.mp hfound
      obtain ⟨hsub,hclaimed⟩ := claims_of_signed hverify hsigned
      exact ⟨hclaimed.mpr hnonce,hsub⟩
    · obtain ⟨hnonce,hsub | ⟨claims,hsigned⟩⟩ := h info hanswers
      · exact ⟨hnonce,hsub⟩
      · have hclaimed := (claims_of_signed hverify hsigned).2.mp hnonce
        exact absurd (verifyIdTokenWithJwks_eq_ok_iff.mpr ⟨claims,hsigned,hclaimed,rfl⟩) (hfails _)

/-- A token that is decoded without keys binds the nonce exactly when it has one,
should it pass its checks. -/
theorem binds_decoded_iff (hread : crates.ReadsAlike) (htoken : input.idToken≠"")
    (hjwks : input.jwksUri="") (hdecodes : Decodes crates input.idToken info) :
    (∀ result, extractUserInfo crates input (some nonce)=.ok result →
      BindsNonce crates input.idToken nonce result.sub) ↔
      ∀ value, payloadValue crates "validation" input.idToken=.ok value →
        wrongIssuer input value=none → audienceOk input value=true → expired input value=false →
          ∃ text, value.get "nonce"=some (.str text) := by
  obtain ⟨bytes,-,hbytes,-⟩ := id hdecodes
  constructor
  · intro h value hpayload hissuer haudience hexpired
    by_contra hnone
    obtain ⟨bytes,hbytes,hvalue⟩ := payloadValue_eq_ok_iff.mp hpayload
    have hvalid : validateIdTokenClaims crates input=.ok () :=
      (validateIdTokenClaims_eq_ok_iff hbytes).mpr ⟨value,hpayload,hissuer,haudience,hexpired⟩
    have hnonce : validateIdTokenNonce crates input.idToken nonce=.ok () :=
      (validateIdTokenNonce_eq_ok_iff hbytes hvalue).mpr fun text htext =>
        absurd ⟨text,htext⟩ hnone
    have hbinds := h info
      ((extractUserInfo_of_decodes htoken hjwks hdecodes).mpr ⟨hvalid,hnonce,rfl⟩)
    exact hnone ⟨nonce,(claims_iff_of_value hread hbytes hvalue (by simp)).mp hbinds.1⟩
  · intro h result hresult
    obtain ⟨hvalid,hnonce,rfl⟩ := (extractUserInfo_of_decodes htoken hjwks hdecodes).mp hresult
    obtain ⟨value,hpayload,hissuer,haudience,hexpired⟩ :=
      (validateIdTokenClaims_eq_ok_iff hbytes).mp hvalid
    obtain ⟨text,htext⟩ := h value hpayload hissuer haudience hexpired
    obtain ⟨bytes,hbytes,hvalue⟩ := payloadValue_eq_ok_iff.mp hpayload
    obtain rfl := (validateIdTokenNonce_eq_ok_iff hbytes hvalue).mp hnonce text htext
    exact ⟨(claims_iff_of_value hread hbytes hvalue (by simp)).mpr htext,
      (claims_iff_of_value hread hbytes hvalue (by simp)).mpr
        (sub_of_decodes hread hbytes hvalue hdecodes htext)⟩

/-- A missing token claims nothing. -/
theorem not_claims_of_missing (htoken : input.idToken="") :
    ¬Claims crates input.idToken key text := by
  rintro ⟨bytes,claims,hbytes,-⟩
  rw [htoken] at hbytes
  cases hbytes

/-- The nonce binds a login exactly when the identity does not come from the
userinfo endpoint for another subject or token, nor from a token without nonce. -/
theorem extract_binds_iff (hread : crates.ReadsAlike) (hverify : crates.VerifiesPayload)
    (nonce : String) : (∀ info, extractUserInfo crates input (some nonce)=.ok info →
      BindsNonce crates input.idToken nonce info.sub) ↔ NonceKept crates input nonce := by
  by_cases htoken : input.idToken=""
  · have hends : (∀ info, extractUserInfo crates input (some nonce)=.ok info →
        BindsNonce crates input.idToken nonce info.sub) ↔ ∀ info, ¬Answers input info := by
      refine forall_congr' fun info => ?_
      rw [extractUserInfo_of_missing htoken]
      exact imp_congr_right fun _ => iff_false_intro fun h => not_claims_of_missing htoken h.1
    rw [hends]
    exact ⟨fun h => ⟨fun h' => absurd htoken h',fun h' => absurd htoken h',
      fun h' => absurd htoken h',fun _ => h⟩,fun h => h.missing htoken⟩
  by_cases hjwks : input.jwksUri=""
  · by_cases hdecodes : ∃ info, Decodes crates input.idToken info
    · obtain ⟨info,hdecodes⟩ := hdecodes
      rw [binds_decoded_iff hread htoken hjwks hdecodes]
      exact ⟨fun h => ⟨fun _ _ _ _ => h,fun _ h' => absurd hjwks h',
        fun _ _ h' => absurd hdecodes (h' info),fun h' => absurd h' htoken⟩,
        fun h => h.decoded htoken hjwks info hdecodes⟩
    · have hnone := not_exists.mp hdecodes
      have hends : (∀ info, extractUserInfo crates input (some nonce)=.ok info →
          BindsNonce crates input.idToken nonce info.sub) ↔ ∀ info, Answers input info →
            BindsNonce crates input.idToken nonce info.sub :=
        forall_congr' fun info => by rw [extractUserInfo_of_undecoded hjwks hnone]
      rw [hends]
      exact ⟨fun h => ⟨fun _ _ info h' => absurd h' (hnone info),fun _ h' => absurd hjwks h',
        fun _ _ _ => h,fun h' => absurd h' htoken⟩,fun h => h.undecoded htoken hjwks hnone⟩
  · rw [binds_published_iff hverify htoken hjwks]
    exact ⟨fun h => ⟨fun _ h' => absurd h' hjwks,fun _ _ => h,fun _ h' => absurd h' hjwks,
      fun h' => absurd h' htoken⟩,fun h => h.published htoken hjwks⟩

end

/-- Claims of a token. -/
def sampleClaims : List (String×Json) :=
  [("sub",.str "s"),("nonce",.str "n"),("iss",.str "i"),("aud",.str "c"),("exp",.int 2000000000)]

/-- The claims as a JSON text. -/
def sampleText : List UInt8 :=
  [123,34,115,117,98,34,58,34,115,34,44,34,110,111,110,99,101,34,58,34,110,34,44,34,105,115
   ,115,34,58,34,105,34,44,34,97,117,100,34,58,34,99,34,44,34,101,120,112,34,58,50,48,48,48
   ,48,48,48,48,48,48,125]

/-- The JSON text in base64. -/
def samplePayload : String :=
  "eyJzdWIiOiJzIiwibm9uY2UiOiJuIiwiaXNzIjoiaSIsImF1ZCI6ImMiLCJl"++
    "eHAiOjIwMDAwMDAwMDB9"

/-- A signed token with that payload. -/
def sampleToken : String := "eyJhbGciOiJSUzI1NiIsImtpZCI6ImsifQ."++samplePayload++".c2ln"

/-- The crates as far as the token is concerned. -/
def sampleCrates : Crates where
  base64Decode text := if text=samplePayload then some sampleText else none
  readFields names bytes :=
    if bytes=sampleText then some ((Json.obj sampleClaims).only names) else none
  readValue bytes := if bytes=sampleText then some (.obj sampleClaims) else none
  decodeHeader token := if token=sampleToken then some ⟨some "k",.rs256⟩ else none
  rsaComponents n e := n="0vx7" && e="AQAB"
  verify token n e validation now :=
    if token=sampleToken ∧ n="0vx7" ∧ e="AQAB" ∧ validation.algorithm=.rs256 ∧
      validation.issuer="i" ∧ validation.audience="c" ∧ now ≤ 2000000000 then some sampleClaims
    else none

/-- A provider with keys and a userinfo endpoint that answers for somebody else. -/
def sampleInput : CallbackInput where
  issuerUrl := "i"
  clientId := "c"
  idToken := sampleToken
  jwksUri := "https://i/keys"
  userinfoEndpoint := "https://i/userinfo"
  jwks := .ok [⟨"RSA",some "k",some "0vx7",some "AQAB"⟩]
  userinfo := .ok ⟨"other",none,none⟩
  now := 1000000000

theorem sampleToken_payload : payloadBytes sampleCrates sampleToken=.ok sampleText := by
  have hparts : tokenParts sampleToken=
      ["eyJhbGciOiJSUzI1NiIsImtpZCI6ImsifQ",samplePayload,"c2ln"] := by
    decide +kernel
  unfold payloadBytes
  rw [hparts]
  unfold decodeUrlSafe sampleCrates
  dsimp only
  rw [if_pos rfl]
  rfl

theorem sampleCrates_reads : sampleCrates.ReadsAlike := by
  intro names bytes value h
  unfold sampleCrates at h ⊢
  dsimp only at h ⊢
  split_ifs at h with hbytes
  cases h
  rw [if_pos hbytes]

theorem sampleCrates_verifies : sampleCrates.VerifiesPayload := by
  intro token n e validation now fields h
  unfold sampleCrates at h
  dsimp only at h
  split_ifs at h with hall
  cases h
  rw [hall.1]
  refine ⟨sampleText,sampleToken_payload,fun names _ => ?_⟩
  unfold sampleCrates
  dsimp only
  rw [if_pos rfl]

/-- A login with the nonce of its token keeps it, whoever the endpoint answers for. -/
theorem extract_binds_iff_sample : NonceKept sampleCrates sampleInput "n" := by
  refine (extract_binds_iff sampleCrates_reads sampleCrates_verifies "n").mp fun info hinfo => ?_
  have hextract : extractUserInfo sampleCrates sampleInput (some "n")=.ok ⟨"s",none,none⟩ := by
    unfold extractUserInfo
    rw [if_pos (by decide),if_pos (by decide)]
    rfl
  rw [hextract] at hinfo
  cases hinfo
  exact ⟨⟨sampleText,_,sampleToken_payload,rfl,rfl⟩,⟨sampleText,_,sampleToken_payload,rfl,rfl⟩⟩

/-- A login with another nonce gets the identity of the userinfo endpoint. -/
theorem unbound_nonce :
    ¬∀ info, extractUserInfo sampleCrates sampleInput (some "m")=.ok info →
      BindsNonce sampleCrates sampleToken "m" info.sub := by
  intro h
  have hverify : verifyIdTokenWithJwks sampleCrates sampleInput (some "m")=
      .error "nonce mismatch: expected m, got n" := by
    rfl
  have hextract : extractUserInfo sampleCrates sampleInput (some "m")=.ok ⟨"other",none,none⟩ := by
    unfold extractUserInfo
    rw [if_pos (by decide),if_pos (by decide),hverify]
    rfl
  obtain ⟨⟨bytes,claims,hpayload,hread,hnonce⟩,-⟩ := h _ hextract
  rw [sampleToken_payload] at hpayload
  cases hpayload
  cases hread
  have hclaimed : ((Json.obj sampleClaims).only ["sub","nonce"]).get "nonce"=some (.str "n") := by
    rfl
  rw [hclaimed] at hnonce
  exact absurd (Json.str.inj (Option.some.inj hnonce)) (by decide)

end TokiSync.OidcNonce
