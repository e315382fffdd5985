import TokiSync.Runs
import TokiSync.ByteKeys
import TokiSync.UrlHosts

/-!
# Redirects of the OIDC callback

Authorization stores the redirect URI of the client under a state token. The
callback consumes the state, signs the user in and redirects to the stored URI
with the tokens in its query, when the URI starts with one of two local
prefixes. The prefix is not all of the host: what follows it decides.
-/

namespace TokiSync.OidcRedirect

open Runs ByteKeys UrlHosts

/-- An error response. -/
structure AppError where
  /-- HTTP status. -/
  status : ℕ
  /-- Message of the body. -/
  message : String
  deriving DecidableEq

/-- An answer of an endpoint. -/
inductive Response where
  /-- A temporary redirect. -/
  | redirect (location : String)
  /-- An error. -/
  | error (e : AppError)
  deriving DecidableEq

/-- What is stored under a state token. -/
structure StateEntry where
  /-- Redirect URI of the client, empty for a browser. -/
  redirectUri : String
  /-- Nonce of the authorization. -/
  nonce : String
  /-- Time of the authorization. -/
  created : ℕ

/-- Pending authorizations by state token. -/
structure OidcStateStore where
  /-- Entries by state token. -/
  states : String → Option StateEntry
  /-- Life time of an entry. -/
  ttl : ℕ

/-- Store a state token, dropping the expired entries. -/
def OidcStateStore.insert (store : OidcStateStore) (now : ℕ) (state redirectUri nonce : String) :
    OidcStateStore :=
  {store with
    states := Function.update (fun k => (store.states k).filter fun e => now-e.created<store.ttl)
      state (some ⟨redirectUri,nonce,now⟩)}

/-- Consume a state token: its redirect URI and nonce when it has not
expired. -/
def OidcStateStore.validate (store : OidcStateStore) (now : ℕ) (state : String) :
    Option (String×String)×OidcStateStore :=
  match store.states state with
  | some e =>
    (if now-e.created<store.ttl then some (e.redirectUri,e.nonce) else none,
      {store with states := Function.update store.states state none})
  | none => (none,store)

/-- Signed tokens of a user. -/
structure Tokens where
  /-- Access token. -/
  access : String
  /-- Refresh token. -/
  refresh : String

/-- What the endpoints use of the libraries and of the configuration. -/
structure Environment where
  /-- Whether a text can be the value of a header. -/
  validHeader : String → Bool
  /-- Percent encoding. -/
  encode : String → String
  /-- Life time of access tokens in seconds. -/
  accessTokenTtlSecs : ℕ

/-- A request to the authorization endpoint. -/
structure AuthorizeCall where
  /-- Time of the request. -/
  now : ℕ
  /-- Configured issuer, empty when OIDC is off. -/
  issuer : String
  /-- Authorization endpoint, as discovered. -/
  discovery : Except AppError String
  /-- Configured client id. -/
  clientId : String
  /-- Configured redirect URI of the server. -/
  serverRedirectUri : String
  /-- Redirect URI in the query. -/
  redirectUri : String
  /-- Fresh state token. -/
  csrfState : String
  /-- Fresh nonce. -/
  nonce : String

/-- A request to the callback endpoint. -/
structure CallbackCall where
  /-- Time of the request. -/
  now : ℕ
  /-- Configured issuer, empty when OIDC is off. -/
  issuer : String
  /-- Authorization code in the query. -/
  code : String
  /-- State token in the query. -/
  state : String
  /-- Error reported by the provider. -/
  error : Option String
  /-- Outcome of exchanging the code, finding or creating the user and issuing
  tokens, for the code and the nonce to check. -/
  signIn : String → Option String → Except AppError Tokens

section

variable (env : Environment)

/-- Answer with a redirect, when the location can be a header. -/
def temporary (location : String) : Response :=
  if env.validHeader location then .redirect location
  else .error ⟨500,"failed to parse header value"⟩

/-- URL of the provider that the user authorizes at. -/
def buildAuthUrl (endpoint : String) (call : AuthorizeCall) : String :=
  endpoint++"?response_type=code&client_id="++env.encode call.clientId++"&redirect_uri="++
    env.encode call.serverRedirectUri++"&scope="++env.encode "openid email profile"++"&state="++
    env.encode call.csrfState++"&nonce="++env.encode call.nonce

/-- The authorization endpoint. -/
def oidcAuthorize (store : OidcStateStore) (call : AuthorizeCall) : Response×OidcStateStore :=
  if call.issuer="" then (.error ⟨404,"OIDC not configured"⟩,store)
  else match call.discovery with
    | .error e => (.error e,store)
    | .ok endpoint =>
      (temporary env (buildAuthUrl env endpoint call),
        store.insert call.now call.csrfState call.redirectUri call.nonce)

/-- Whether a redirect URI of a client may carry tokens. -/
def redirectAllowed (clientRedirect : String) : Bool :=
  "http://127.0.0.1".toList.isPrefixOf clientRedirect.toList ||
    "http://localhost".toList.isPrefixOf clientRedirect.toList

/-- The redirect URI of the client with the tokens in its query. -/
def redirectUrl (clientRedirect : String) (tokens : Tokens) : String :=
  clientRedirect++"?access_token="++env.encode tokens.access++"&refresh_token="++
    env.encode tokens.refresh++"&token_type=Bearer&expires_in="++
    toString env.accessTokenTtlSecs

/-- The admin panel with the tokens in its fragment. -/
def adminUrl (tokens : Tokens) : String :=
  "/admin#access_token="++(env.encode tokens.access++"&refresh_token="++
    env.encode tokens.refresh++"&expires_in="++toString env.accessTokenTtlSecs)

/-- The last part of the callback: where to send the tokens. -/
def sendTokens (clientRedirect : String) (tokens : Tokens) : Response :=
  if clientRedirect≠"" then
    if redirectAllowed clientRedirect then temporary env (redirectUrl env clientRedirect tokens)
    else .error
      ⟨400,"OIDC CLI redirect must be localhost (http://127.0.0.1 or http://localhost)"⟩
  else temporary env (adminUrl env tokens)

/-- The callback endpoint. -/
def oidcCallback (store : OidcStateStore) (call : CallbackCall) : Response×OidcStateStore :=
  if call.issuer="" then (.error ⟨404,"OIDC not configured"⟩,store)
  else match call.error with
    | some err => (.error ⟨400,"OIDC error: "++err⟩,store)
    | none =>
      match store.validate call.now call.state with
      | (none,store) => (.error ⟨400,"invalid or expired state parameter"⟩,store)
      | (some (clientRedirect,storedNonce),store) =>
        match call.signIn call.code (if storedNonce="" then none else some storedNonce) with
        | .error e => (.error e,store)
        | .ok tokens => (sendTokens env clientRedirect tokens,store)

/-- Requests to the two endpoints. -/
inductive OidcOp where
  /-- A request to the authorization endpoint. -/
  | authorize (call : AuthorizeCall)
  /-- A request to the callback endpoint. -/
  | callback (call : CallbackCall)

/-- The store after a request. -/
def OidcStep (store : OidcStateStore) (op : OidcOp) (store' : OidcStateStore) : Prop :=
  match op with
  | .authorize call => store'=(oidcAuthorize env store call).2
  | .callback call => store'=(oidcCallback env store call).2

end

/-- The store before any request. -/
def OidcStateStore.new (ttl : ℕ) : OidcStateStore := ⟨fun _ => none,ttl⟩

/-- Hosts of the local machine. -/
def localHosts : List (List Char) := ["127.0.0.1".toList,"localhost".toList]

/-- Whether the host of a URL is the local machine. -/
def LocalHost (url : String) : Prop :=
  ∃ a, authority url.toList=some a ∧ host a∈localHosts

/-- What follows the prefix in the authority of a redirect URI; both prefixes
have sixteen characters. -/
def authorityTail (clientRedirect : String) : List Char :=
  (clientRedirect.toList.drop 16).takeWhile inAuthority

/-- Whether what follows the prefix leaves the host local: nothing or a port,
or userinfo in front of a local host. -/
def LocalTail (clientRedirect : String) : Prop :=
  if '@'∈authorityTail clientRedirect then host (authorityTail clientRedirect)∈localHosts
  else authorityTail clientRedirect=[] ∨ (authorityTail clientRedirect).head?=some ':'

instance instDecidableLocalTail (clientRedirect : String) : Decidable (LocalTail clientRedirect) :=
  inferInstanceAs (Decidable (ite _ _ _))

/-- An admitted redirect URI is one of two local URLs with something behind. -/
theorem exists_name_of_allowed {r : String} (h : redirectAllowed r=true) : ∃ name∈localHosts,
    r.toList = 'h' :: 't' :: 't' :: 'p' :: ':' :: '/' :: '/' :: (name++r.toList.drop 16) := by
  rw [redirectAllowed,Bool.or_eq_true,List.isPrefixOf_iff_prefix,List.isPrefixOf_iff_prefix] at h
  rcases h with ⟨rest,hrest⟩ | ⟨rest,hrest⟩
  · refine ⟨_,List.mem_cons_self,?_⟩
    rw [←hrest]
    rfl
  · refine ⟨_,List.mem_cons_of_mem _ List.mem_cons_self,?_⟩
    rw [←hrest]
    rfl

/-- The names of local hosts have no characters with a meaning in URLs. -/
theorem plain_of_localHost {name : List Char} (h : name∈localHosts) :
    (∀ c∈name, (c ≠ '@' ∧ c ≠ ':') ∧ inAuthority c=true) ∧ ∃ c cs, name=c::cs ∧ c ≠ '[' := by
  have hall : localHosts.all (fun x => x.all fun c =>
      c ≠ '@' && c ≠ ':' && inAuthority c)=true := by
    rfl
  have hplain := List.all_eq_true.mp (List.all_eq_true.mp hall name h)
  refine ⟨fun c hc => ?_,?_⟩
  · have hc := hplain c hc
    rw [Bool.and_eq_true,Bool.and_eq_true,decide_eq_true_eq,decide_eq_true_eq] at hc
    exact hc
  · rcases List.mem_pair.mp h with rfl | rfl
    · exact ⟨_,_,rfl,by decide⟩
    · exact ⟨_,_,rfl,by decide⟩

/-- A local name with something behind is a local host only when there is
nothing behind. -/
theorem append_mem_localHosts {name t : List Char} (h : name∈localHosts) :
    name++t∈localHosts ↔ t=[] := by
  have hlength : ∀ x∈localHosts, x.length=9 := by decide
  constructor
  · intro hmem
    have hsum := hlength _ hmem
    rw [List.length_append,hlength name h] at hsum
    exact List.eq_nil_of_length_eq_zero (by omega)
  · rintro rfl
    rw [List.append_nil]
    exact h

section

variable {env : Environment}

/-- The tokens follow the redirect URI after a question mark. -/
theorem toList_redirectUrl (env : Environment) (r : String) (tokens : Tokens) :
    ∃ query, (redirectUrl env r tokens).toList=r.toList++ '?' :: query := by
  simp only [redirectUrl,String.append_assoc,String.toList_append]
  exact ⟨_,rfl⟩

/-- The admin panel is no admitted redirect URI. -/
theorem redirectUrl_ne_adminUrl {r : String} (h : redirectAllowed r=true) (tokens : Tokens)
    (tokens' : Tokens) : redirectUrl env r tokens≠adminUrl env tokens' := by
  intro heq
  obtain ⟨name,-,hr⟩ := exists_name_of_allowed h
  obtain ⟨query,hquery⟩ := toList_redirectUrl env r tokens
  have hslash : "/admin#access_token=".toList = '/' :: "admin#access_token=".toList := by decide
  obtain ⟨rest,hrest⟩ : ∃ rest, adminUrl env tokens'="/admin#access_token="++rest := ⟨_,rfl⟩
  rw [heq,hrest,String.toList_append,hslash,hr] at hquery
  have hfirst : '/' = 'h' := (List.cons.inj hquery).1
  exact absurd hfirst (by decide)

/-- The host of an admitted redirect URI with tokens is decided by what follows
the prefix. -/
theorem localHost_redirectUrl {r : String} (h : redirectAllowed r=true) (tokens : Tokens) :
    LocalHost (redirectUrl env r tokens) ↔ LocalTail r := by
  obtain ⟨name,hname,hr⟩ := exists_name_of_allowed h
  obtain ⟨query,hquery⟩ := toList_redirectUrl env r tokens
  obtain ⟨hplain,hhead⟩ := plain_of_localHost hname
  have hchars : ∀ c∈name, c ≠ '@' ∧ c ≠ ':' := fun c hc => (hplain c hc).1
  have hin : ∀ c∈name, inAuthority c=true := fun c hc => (hplain c hc).2
  have hauthority : authority (redirectUrl env r tokens).toList=
      some (name++authorityTail r) := by
    rw [hquery,hr]
    have := authority_http_query (name++r.toList.drop 16) query
    rw [List.takeWhile_append_of_pos hin] at this
    exact this
  have hhost : LocalHost (redirectUrl env r tokens) ↔ host (name++authorityTail r)∈localHosts := by
    rw [LocalHost,hauthority]
    simp only [Option.some.injEq,exists_eq_left']
  rw [hhost,LocalTail]
  split_ifs with hat
  · rw [host_append_of_userinfo hat]
  · rw [host_append_of_name hchars hhead hat,append_mem_localHosts hname,takeWhile_port_eq_nil]

/-- Consuming a state token leaves the other entries. -/
theorem states_validate {store : OidcStateStore} {now : ℕ} {state k : String} {e : StateEntry}
    (h : (store.validate now state).2.states k=some e) : store.states k=some e := by
  unfold OidcStateStore.validate at h
  split at h
  · simp only [Function.update_apply] at h
    split_ifs at h
    exact h
  · exact h

/-- A valid state token has an entry with its redirect URI. -/
theorem entry_of_validate {store : OidcStateStore} {now : ℕ} {state redirectUri nonce : String}
    (h : (store.validate now state).1=some (redirectUri,nonce)) :
    ∃ e, store.states state=some e ∧ e.redirectUri=redirectUri ∧ e.nonce=nonce := by
  unfold OidcStateStore.validate at h
  split at h
  · next e he =>
    split_ifs at h
    rw [Option.some.injEq,Prod.mk.injEq] at h
    exact ⟨e,he,h⟩
  · cases h

/-- The callback at most consumes its state token. -/
theorem states_oidcCallback {store : OidcStateStore} {call : CallbackCall} {k : String}
    {e : StateEntry} (h : (oidcCallback env store call).2.states k=some e) :
    store.states k=some e := by
  unfold oidcCallback at h
  split_ifs at h
  · exact h
  · split at h
    · exact h
    · have hconsumed : (store.validate call.now call.state).2.states k=some e := by
        split at h
        · next hvalid =>
          rw [hvalid]
          exact h
        · next hvalid =>
          rw [hvalid]
          split at h
          · exact h
          · exact h
      exact states_validate hconsumed

/-- A redirect of the callback sends tokens to the redirect URI stored under
its state token. -/
theorem sendTokens_of_redirect {store : OidcStateStore} {call : CallbackCall} {location : String}
    (h : (oidcCallback env store call).1=.redirect location) : ∃ e tokens,
      store.states call.state=some e ∧ sendTokens env e.redirectUri tokens=.redirect location := by
  unfold oidcCallback at h
  split_ifs at h
  split at h
  · cases h
  · split at h
    · cases h
    · next hvalid =>
      obtain ⟨e,he,rfl,-⟩ := entry_of_validate (congrArg Prod.fst hvalid)
      split at h
      · cases h
      · next tokens htokens => exact ⟨e,tokens,he,h⟩

/-- Tokens are sent to the admin panel, or to an admitted redirect URI with the
tokens in its query. -/
theorem location_of_sendTokens {r : String} {tokens : Tokens} {location : String}
    (h : sendTokens env r tokens=.redirect location) :
    r="" ∧ location=adminUrl env tokens ∨
      r≠"" ∧ redirectAllowed r=true ∧ location=redirectUrl env r tokens := by
  unfold sendTokens temporary at h
  split_ifs at h with hclient hallowed hvalid hvalid
  · cases h
    exact Or.inr ⟨hclient,hallowed,rfl⟩
  · cases h
    exact Or.inl ⟨not_not.mp hclient,rfl⟩

/-- The entries of the store come from authorizations. -/
theorem authorized_of_run {ttl : ℕ} {history : List OidcOp} {store : OidcStateStore}
    (run : Run (OidcStep env) (.new ttl) history store) :
    ∀ state e, store.states state=some e → ∃ call, .authorize call∈history ∧
      call.csrfState=state ∧ call.redirectUri=e.redirectUri ∧ call.nonce=e.nonce := by
  refine Run.invariant (I:=fun h store => ∀ state e, store.states state=some e → ∃ call,
    .authorize call∈h ∧ call.csrfState=state ∧ call.redirectUri=e.redirectUri ∧
      call.nonce=e.nonce) ?_ ?_ run
  · intro state e h
    cases h
  · intro past store op store' _ ih hstep state e he
    have hold : store.states state=some e → ∃ call, .authorize call∈op::past ∧
        call.csrfState=state ∧ call.redirectUri=e.redirectUri ∧ call.nonce=e.nonce := by
      intro h
      obtain ⟨call,hmem,hcall⟩ := ih state e h
      exact ⟨call,List.mem_cons_of_mem _ hmem,hcall⟩
    cases op with
    | authorize call =>
      rw [hstep,oidcAuthorize] at he
      split_ifs at he with hissuer
      · exact hold he
      · split at he
        · exact hold he
        · simp only [OidcStateStore.insert,Function.update_apply] at he
          split_ifs at he with hstate
          · rw [Option.some.injEq] at he
            rw [←he,hstate]
            exact ⟨call,List.mem_cons_self,rfl,rfl,rfl⟩
          · exact hold (Option.filter_eq_some_iff.mp he).1
    | callback call =>
      rw [hstep] at he
      exact hold (states_oidcCallback he)

/-- The callback sends tokens only to the admin panel or to a redirect URI that
a client has handed in with the state token, with the tokens in its query. In
the second case the host is the local machine exactly when nothing but a port
follows the local prefix, or userinfo in front of a local host. -/
theorem callback_redirect_local_iff {ttl : ℕ} {history : List OidcOp} {store : OidcStateStore}
    (run : Run (OidcStep env) (.new ttl) history store) {call : CallbackCall} {location : String}
    (answer : (oidcCallback env store call).1=.redirect location) :
    (∃ tokens, location=adminUrl env tokens) ∨
    ∃ authorization tokens, .authorize authorization∈history ∧
      authorization.csrfState=call.state ∧
      location=redirectUrl env authorization.redirectUri tokens ∧
      (LocalHost location ↔ LocalTail authorization.redirectUri) := by
  obtain ⟨e,tokens,he,hsend⟩ := sendTokens_of_redirect answer
  obtain ⟨authorization,hmem,hstate,huri,-⟩ := authorized_of_run run call.state e he
  rcases location_of_sendTokens hsend with ⟨-,hadmin⟩ | ⟨-,hallowed,hlocation⟩
  · exact Or.inl ⟨tokens,hadmin⟩
  · rw [←huri] at hallowed hlocation
    refine Or.inr ⟨authorization,tokens,hmem,hstate,hlocation,?_⟩
    rw [hlocation]
    exact localHost_redirectUrl hallowed tokens

end

/-- Bytes that percent encoding keeps. -/
def unreserved (b : UInt8) : Bool :=
  (48≤b && b≤57) || (65≤b && b≤90) || (97≤b && b≤122) || b=45 || b=46 || b=95 || b=126

/-- Upper-case hexadecimal digit. -/
def hexDigit (n : ℕ) : Char := Char.ofNat (if n<10 then 48+n else 55+n)

/-- Headers of visible characters, percent encoding of the other bytes, and
fifteen minutes. -/
def sampleEnv : Environment where
  validHeader s := s.toList.all fun c => 32≤c.toNat && c.toNat≠127
  encode s := String.ofList ((utf8 s).flatMap fun b =>
    if unreserved b then [Char.ofNat b.toNat]
    else ['%',hexDigit (b.toNat/16),hexDigit (b.toNat%16)])
  accessTokenTtlSecs := 900

/-- An authorization with the given redirect URI. -/
def sampleAuthorize (redirectUri : String) : AuthorizeCall where
  now := 100
  issuer := "https://id.example"
  discovery := .ok "https://id.example/auth"
  clientId := "toki"
  serverRedirectUri := "https://sync.example/auth/callback"
  redirectUri := redirectUri
  csrfState := "s1"
  nonce := "n1"

/-- A callback for that authorization. -/
def sampleCallback : CallbackCall where
  now := 110
  issuer := "https://id.example"
  code := "c1"
  state := "s1"
  error := none
  signIn _ _ := .ok ⟨"a.b.c","d.e.f"⟩

/-- The store after that authorization. -/
def sampleStore (redirectUri : String) : OidcStateStore :=
  (oidcAuthorize sampleEnv (.new 600) (sampleAuthorize redirectUri)).2

/-- A redirect URI with a port and a path stays local. -/
theorem callback_redirect_local_sample : ∃ location,
    (oidcCallback sampleEnv (sampleStore "http://127.0.0.1:8080/cb") sampleCallback).1=
      .redirect location ∧ LocalHost location := by
  have run : Run (OidcStep sampleEnv) (.new 600)
      [.authorize (sampleAuthorize "http://127.0.0.1:8080/cb")]
      (sampleStore "http://127.0.0.1:8080/cb") := .next _ .start rfl
  have answer : (oidcCallback sampleEnv (sampleStore "http://127.0.0.1:8080/cb")
      sampleCallback).1=.redirect (redirectUrl sampleEnv "http://127.0.0.1:8080/cb"
        ⟨"a.b.c","d.e.f"⟩) := by
    rfl
  refine ⟨_,answer,?_⟩
  rcases callback_redirect_local_iff run answer with ⟨tokens,hadmin⟩ | ⟨a,tokens,hmem,-,-,hlocal⟩
  · exact absurd hadmin (redirectUrl_ne_adminUrl (by decide) _ _)
  · rw [List.mem_singleton,OidcOp.authorize.injEq] at hmem
    rw [hmem] at hlocal
    exact hlocal.mpr (by decide)

/-- A redirect URI whose host only starts with a local name gets the tokens. -/
theorem callback_redirects_elsewhere :
    Run (OidcStep sampleEnv) (.new 600) [.authorize (sampleAuthorize "http://localhost.evil.com")]
      (sampleStore "http://localhost.evil.com") ∧
    (oidcCallback sampleEnv (sampleStore "http://localhost.evil.com") sampleCallback).1=
      .redirect (redirectUrl sampleEnv "http://localhost.evil.com" ⟨"a.b.c","d.e.f"⟩) ∧
    ¬LocalHost (redirectUrl sampleEnv "http://localhost.evil.com" ⟨"a.b.c","d.e.f"⟩) := by
  have hallowed : redirectAllowed "http://localhost.evil.com"=true := by decide
  have htail : ¬LocalTail "http://localhost.evil.com" := by decide
  have hanswer : (oidcCallback sampleEnv (sampleStore "http://localhost.evil.com")
      sampleCallback).1=.redirect (redirectUrl sampleEnv "http://localhost.evil.com"
        ⟨"a.b.c","d.e.f"⟩) := by
    rfl
  refine ⟨.next _ .start rfl,hanswer,?_⟩
  rw [localHost_redirectUrl hallowed]
  exact htail

end TokiSync.OidcRedirect
