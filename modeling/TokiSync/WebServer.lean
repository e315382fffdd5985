import TokiSync.RetryHints
import TokiSync.SyncServer
import TokiSync.WebRoutes

/-!
# The server behind the web requests

The requests share with the connections the stores, the cache of active
statuses and the clock. The guard, the limiter of settings, the instants of the
polls, the pending logins and the cached addresses of the provider are theirs
alone. Connections and background tasks go on while requests are handled, and a
request ends wherever its client goes away.
-/

namespace TokiSync.WebServer

open ByteCodec DatabaseCalls InterleavedSessions ServerEvents SyncServer WebRequests WebRoutes
open WireWindows
open DatabaseRepo (Tables Refusal)
open DatabaseRuns (Write)
open DeviceGrant (Claims Jwt)
open LoginGuard (BruteForceGuard fromSecs)
open OidcAccounts (OidcUserInfo)
open OidcRedirect (OidcStateStore)
open RetryHints (Hits)
open SyncConnection (Arrival Formats Session)

/-- What the requests share. -/
structure App where
  /-- The connections and what they share. -/
  sync : SyncHost
  /-- The guard against guessed passwords. -/
  guard : BruteForceGuard
  /-- The limiter of settings of the monitor. -/
  hits : Hits
  /-- Instants of the last polls, in milliseconds. -/
  polls : String → Option ℕ
  /-- The pending logins. -/
  states : OidcStateStore
  /-- Addresses of the provider of logins, and when they were fetched. -/
  discovery : Option (OidcDiscovery×ℕ)

/-- What the connections share. -/
def App.server (app : App) : Server := app.sync.shared

/-- The current instant. -/
def App.now (app : App) : ℕ := app.server.now

/-- A change of what the connections share. -/
def App.withServer (app : App) (server : Server) : App :=
  {app with sync := {app.sync with shared := server}}

/-- What is used of other packages. -/
structure Libraries where
  /-- How tokens are issued. -/
  jwt : Jwt
  /-- Whether a password has a hash. -/
  verifyPassword : String → String → Except String Bool
  /-- What the check of a login at the provider rests on. -/
  crates : OidcNonce.Crates

/-- Tasks in the background. -/
inductive Task where
  | cleanupOldWindows (cutoffMs : Int64)
  | cleanupExpiredTokens (now : Int64)
  | cleanupExpiredDeviceCodes (now : Int64)
  | cleanupOldPendingRegistrations (now : Int64)
  | tick (duration : ℕ)

/-- What a task does outside the connections. -/
def Task.outside : Task → Outside
  | .cleanupOldWindows cutoffMs => .cleanupOldWindows cutoffMs
  | .cleanupExpiredTokens now => .write (.cleanupExpiredTokens now)
  | .cleanupExpiredDeviceCodes now => .write (.cleanupExpiredDeviceCodes now)
  | .cleanupOldPendingRegistrations now => .write (.cleanupOldPendingRegistrations (7*86400) now)
  | .tick duration => .tick duration

/-- What happens besides the requests. -/
inductive Beside where
  /-- A step of a connection. -/
  | connection (i : ℕ) (e : Event SyncConnection.Answer Arrival)
  /-- A task in the background. -/
  | task (task : Task)

/-- The step of the server behind the connections. -/
def Beside.label : Beside → ServerLabel
  | .connection i e => .session i e
  | .task t => .environment t.outside

/-- Calls of a connection that requests make too. -/
def IsLookup : SyncConnection.Call → Prop
  | .verifyAccess _ => True
  | .getFresh _ => True
  | .generation => True
  | .getUserById _ => True
  | .insertIfCurrent _ _ _ => True
  | _ => False

/-- A read of the repository, which may fail. -/
def Finds {q : Query} (db : Tables) (reply : Except String q.Result) : Prop :=
  (∃ r, Query.Answers db q r ∧ reply=.ok r) ∨ ∃ e, reply=.error e

/-- A write of the repository. It may be refused, and it may fail before or after
it takes effect, but a violated constraint is a refusal. -/
def Attempts {β : Type} (s : Server) (result : Except Refusal (β×Tables))
    (reply : Except String β) (t : Server) : Prop :=
  match result with
  | .ok (r,db) => (t={s with db := db} ∧ reply=.ok r) ∨
      ((t={s with db := db} ∨ t=s) ∧ ∃ e, ¬Violation e ∧ reply=.error e)
  | .error _ => t=s ∧ ∃ e, reply=.error e

section

variable (E : Environment) (F : Formats) (eventCodec : Codec PersistedEvent)
variable (windowCodec : Codec WireWindow) (backend : OidcAccounts.Backend) (L : Libraries)

/-- Accept only refresh tokens. -/
def verifyRefresh (now : Int64) (token : String) : Except String Claims := do
  let claims ← F.decodeToken now token
  if claims.typ≠"refresh" then .error ("expected refresh token, got "++claims.typ) else .ok claims

/-- What is known at the callback of a login. -/
def callbackInput (tokens : OidcTokenResponse) (discovery : OidcDiscovery)
    (issuer clientId : String) (jwks : Except String (List OidcNonce.JwkKey))
    (userinfo : Except String OidcNonce.OidcUserInfo) (now : ℤ) : OidcNonce.CallbackInput :=
  ⟨issuer,clientId,tokens.idToken,discovery.jwksUri,discovery.userinfoEndpoint,jwks,userinfo,now⟩

/-- How a call of a request is answered. -/
def Replies : (op : Call) → App → Answer op → App → Prop
  | .lookup op, s, reply, t => IsLookup op ∧ ∃ server,
    Calls F eventCodec windowCodec 0 op s.server reply server ∧ t=s.withServer server
  | .read _, s, reply, t => t=s ∧ Finds s.server.db reply
  | .write w, s, reply, t => ∃ server,
    Attempts s.server (attempt backend s.server.db w) reply server ∧ t=s.withServer server
  | .evict userId, s, _, t =>
    t=s.withServer {s.server with cache := ActiveStatusCache.evict s.server.cache userId}
  | .deleteDeviceEvents deviceId, s, reply, t => ∃ server,
    Writes s.server {s.server with
      events := FjallStore.deleteDeviceEvents eventCodec s.server.events deviceId} reply server ∧
    t=s.withServer server
  | .deleteUserWindows userId, s, reply, t => ∃ server,
    Writes s.server {s.server with
      events := WindowQueries.deleteUserWindows s.server.events userId} reply server ∧
    t=s.withServer server
  | .queryEvents sinceMs untilMs filter limit, s, reply, t => t=s ∧
    Reads (FjallStore.queryEvents eventCodec s.server.events (Int64.ofInt sinceMs)
      (Int64.ofInt untilMs) filter limit) reply
  | .queryUserWindows userId sinceMs, s, reply, t => t=s ∧
    Reads (WindowQueries.queryUserWindows windowCodec s.server.events userId
      (Int64.ofInt sinceMs)) reply
  | .check subject, s, reply, t =>
    reply=(s.guard.check s.now subject.ip subject.endpoint.username).2 ∧
      t={s with guard := (s.guard.check s.now subject.ip subject.endpoint.username).1}
  | .recordFailure subject, s, _, t =>
    t={s with guard := (s.guard.recordFailure s.now subject.ip subject.endpoint.username).1}
  | .recordSuccess subject, s, _, t =>
    t={s with guard := s.guard.recordSuccess subject.ip subject.endpoint.username}
  | .allowWrite userId, s, reply, t => reply=(RetryHints.allow s.hits s.now userId).1 ∧
    t={s with hits := (RetryHints.allow s.hits s.now userId).2}
  | .poll deviceCode, s, reply, t =>
    reply=DeviceGrant.polledLately (DeviceGrant.sweepTracker s.polls (s.now/1000000)) deviceCode
      (s.now/1000000) ∧
    t={s with polls := (DeviceGrant.pollTracker s.polls deviceCode (s.now/1000000)).1}
  | .forgetPoll deviceCode, s, _, t => t={s with polls := Function.update s.polls deviceCode none}
  | .hashPassword password, s, reply, t => t=s ∧
    ∀ hash, reply=.ok hash → L.verifyPassword password hash=.ok true
  | .verifyPassword password hash, s, reply, t => t=s ∧
    (reply=L.verifyPassword password hash ∨ ∃ e, reply=.error e)
  | .newUuid, s, reply, t => t=s ∧ E.isUuid reply=true
  | .uuidBytes, s, reply, t => t=s ∧ reply.length=16
  | .timestamp, s, _, t => t=s
  | .issueAccessToken userId, s, reply, t => t=s ∧
    ((∃ jti now, reply=.ok (L.jwt.issueAccessToken userId jti now)) ∨ ∃ e, reply=.error e)
  | .issueRefreshToken userId deviceId, s, reply, t => t=s ∧
    ((∃ jti now, reply=.ok (L.jwt.issueRefreshToken userId deviceId jti now)) ∨
      ∃ e, reply=.error e)
  | .verifyRefresh token, s, reply, t => t=s ∧ ∃ now, reply=verifyRefresh F now token
  | .cachedDiscovery, s, reply, t => t=s ∧
    reply=(s.discovery.filter fun cached => s.now-cached.2<fromSecs 3600).map Prod.fst
  | .discover _, s, _, t => t=s
  | .cacheDiscovery discovery, s, _, t => t={s with discovery := some (discovery,s.now)}
  | .clearDiscovery, s, _, t => t={s with discovery := none}
  | .insertState state redirectUri nonce, s, _, t =>
    t={s with states := s.states.insert s.now state redirectUri nonce}
  | .validateState state, s, reply, t => reply=(s.states.validate s.now state).1 ∧
    t={s with states := (s.states.validate s.now state).2}
  | .exchangeCode _ _ _ _ _, s, _, t => t=s
  | .extractUserInfo tokens discovery issuer clientId nonce, s, reply, t => t=s ∧
    ∃ jwks userinfo now, reply=(OidcNonce.extractUserInfo L.crates
      (callbackInput tokens discovery issuer clientId jwks userinfo now) nonce).map
        fun info => ⟨info.sub,info.email,info.name⟩
  | .respond _, s, _, t => t=s

/-- The services of the requests. -/
def services (dedupRetentionSecs : Int64) : Services App ℕ Answer Beside where
  opens _ s t := t=s
  calls _ := Replies E F eventCodec windowCodec backend L
  closes _ s t := t=s
  environment e s t := ∃ sync,
    ServerStep F eventCodec windowCodec backend dedupRetentionSecs s.sync e.label sync ∧
    t={s with sync := sync}

/-- One step of a request, of a connection or of a task. -/
abbrev WebStep (dedupRetentionSecs : Int64) :=
  Step (ε:=Beside) (services E F eventCodec windowCodec backend L dedupRetentionSecs) ()
    (serve E)

end

/-- Steps of the web server. -/
abbrev WebLabel := Label ℕ Answer Request Beside

/-- The web server and its requests. -/
abbrev WebHost := Host App ℕ Answer Unit

/-- What an answered call does outside the connections. -/
def outside : (op : Call) → Answer op → Option Outside
  | .lookup (.insertIfCurrent userId active genAtRead), _ =>
    some (.insertIfCurrent userId active genAtRead)
  | .write w, _ => some (.write w)
  | .evict userId, _ => some (.evict userId)
  | .deleteDeviceEvents deviceId, _ => some (.deleteDeviceEvents deviceId)
  | .deleteUserWindows userId, _ => some (.deleteUserWindows userId)
  | _, _ => none

/-- A step behind the connections stems from a step of the whole. -/
inductive Stems : ServerLabel → WebLabel → Prop where
  | beside (e : Beside) : Stems e.label (.environment e)
  | call {i : ℕ} {op : Call} {reply : Answer op} {o : Outside} (h : outside op reply=some o) :
    Stems (.environment o) (.session i (.call op reply))

/-- The step of a connection in a step of the whole. -/
def connectionLabel : WebLabel → Option ServerLabel
  | .environment (.connection i e) => some (.session i e)
  | _ => none

/-- The step of a connection in a step behind the connections. -/
def sessionLabel : ServerLabel → Option ServerLabel
  | .session i e => some (.session i e)
  | .environment _ => none

/-- The steps of the connections. -/
def connections (history : List WebLabel) : List ServerLabel := history.filterMap connectionLabel

section

variable {E : Environment} {F : Formats} {eventCodec : Codec PersistedEvent}
variable {windowCodec : Codec WireWindow} {backend : OidcAccounts.Backend} {L : Libraries}
variable {dedupRetentionSecs : Int64} {s t : App} {op : Call} {reply : Answer op}

/-- A write that is tried does nothing, or what it does by itself. -/
theorem db_of_attempts {w : Write} {server server' : Server} {reply : Except String (Write.Result w)}
    (h : Attempts server (attempt backend server.db w) reply server') :
    server'=server ∨ server'={server with db := DatabaseRuns.perform backend server.db w} := by
  unfold Attempts at h
  split at h
  · rename_i r db hattempt
    have hdb : DatabaseRuns.perform backend server.db w=db := by
      rw [perform_eq_attempt,hattempt]
      rfl
    rw [hdb]
    rcases h with ⟨rfl,-⟩ | ⟨rfl | rfl,-⟩
    · exact .inr rfl
    · exact .inr rfl
    · exact .inl rfl
  · exact .inl h.1

/-- A write that may fail has been done or not. -/
theorem eq_of_writes {server done server' : Server} {reply : Except String Unit}
    (h : Writes server done reply server') : server'=done ∨ server'=server :=
  h.imp And.left And.left

/-- A call does nothing behind the connections, or what it asks for. -/
theorem sync_of_replies (h : Replies E F eventCodec windowCodec backend L op s reply t) :
    t.sync=s.sync ∨ ∃ o, outside op reply=some o ∧
      ServerStep F eventCodec windowCodec backend dedupRetentionSecs s.sync (.environment o)
        t.sync := by
  cases op with
  | lookup op =>
    obtain ⟨hlookup,server,hcalls,rfl⟩ := h
    cases op with
    | insertIfCurrent userId active genAtRead => exact .inr ⟨_,rfl,.environment hcalls⟩
    | generation | verifyAccess | getFresh | getUserById =>
      obtain ⟨rfl,-⟩ := hcalls
      exact .inl rfl
    | _ => exact hlookup.elim
  | write w =>
    obtain ⟨server,hattempts,rfl⟩ := h
    rcases db_of_attempts hattempts with rfl | rfl
    · exact .inl rfl
    · exact .inr ⟨_,rfl,.environment rfl⟩
  | deleteDeviceEvents deviceId =>
    obtain ⟨server,hwrites,rfl⟩ := h
    rcases eq_of_writes hwrites with rfl | rfl
    · exact .inr ⟨_,rfl,.environment rfl⟩
    · exact .inl rfl
  | deleteUserWindows userId =>
    obtain ⟨server,hwrites,rfl⟩ := h
    rcases eq_of_writes hwrites with rfl | rfl
    · exact .inr ⟨_,rfl,.environment rfl⟩
    · exact .inl rfl
  | evict userId =>
    cases h
    exact .inr ⟨_,rfl,.environment rfl⟩
  | timestamp | discover | exchangeCode | respond => exact .inl (congrArg App.sync h)
  | recordFailure | recordSuccess | forgetPoll | cacheDiscovery | clearDiscovery | insertState =>
    cases h
    exact .inl rfl
  | check | allowWrite | poll | validateState =>
    obtain ⟨-,rfl⟩ := h
    exact .inl rfl
  | _ => exact .inl (congrArg App.sync h.1)

/-- A step of the whole is at most one step behind the connections, and the
same one of a connection. -/
theorem projects : Runs.Projects
    (WebStep E F eventCodec windowCodec backend L dedupRetentionSecs)
    (ServerStep F eventCodec windowCodec backend dedupRetentionSecs)
    (fun host => host.shared.sync) Stems connectionLabel sessionLabel := by
  intro s label t taken
  cases taken with
  | opened _ effect | closed _ effect | dropped _ effect =>
    exact .inl ⟨congrArg App.sync effect,rfl⟩
  | arrive | finish => exact .inl ⟨rfl,rfl⟩
  | call _ effect =>
    rcases sync_of_replies effect with hsame | ⟨o,hoperation,htaken⟩
    · exact .inl ⟨hsame,rfl⟩
    · exact .inr ⟨_,.call hoperation,rfl,htaken⟩
  | @environment e _ effect =>
    obtain ⟨sync,htaken,rfl⟩ := effect
    refine .inr ⟨e.label,.beside e,?_,htaken⟩
    cases e <;> rfl

variable {init host : WebHost} {history : List WebLabel}

/-- Behind every run of the whole server is a run of the connections with the
same events of connections, and every other step of it is one that a request or
a task asked for. -/
theorem web_runs_refine (run : Runs.Run
      (WebStep E F eventCodec windowCodec backend L dedupRetentionSecs) init history host) :
    ∃ labels, Runs.Run (ServerStep F eventCodec windowCodec backend dedupRetentionSecs)
        init.shared.sync labels host.shared.sync ∧
      List.SublistForall₂ Stems labels history ∧
      labels.filterMap sessionLabel=connections history :=
  projects.run run

/-- Connections and tasks go on while no request does. -/
theorem beside_run {app : App} {phases : ℕ → Phase Answer Unit} {sync : SyncHost}
    {steps : List Beside} (run : Runs.Run
      (ServerStep F eventCodec windowCodec backend dedupRetentionSecs) app.sync
      (steps.map Beside.label) sync) :
    Runs.Run (WebStep E F eventCodec windowCodec backend L dedupRetentionSecs) ⟨app,phases⟩
      (steps.map .environment) ⟨{app with sync := sync},phases⟩ := by
  induction steps generalizing sync with
  | nil =>
    cases run
    exact .start
  | cons e steps ih =>
    cases run with
    | next _ run taken => exact .next _ (ih run) (.environment ⟨sync,taken,rfl⟩)

end

/-- An environment that knows no time zones and no dates. -/
def sampleEnvironment : Environment where
  trustProxy := false
  externalUrl := ""
  storageBackend := "sqlite"
  version := "1.0.0"
  config s := if s=.maxQueryScope then "self" else ""
  urls := OidcRedirect.sampleEnv
  tokenText claims := claims.jti
  isAlphanumeric := Char.isAlphanum
  toUppercase := id
  toLowercase := id
  isUuid text := text="d1"
  parseTz _ := none
  parseDate _ := none
  parseDateTime _ := none
  dummyPasswordHash := ""

/-- Libraries where a password is its own hash. -/
def sampleLibraries : Libraries where
  jwt := ⟨3600,86400,none⟩
  verifyPassword password hash := .ok (password=hash)
  crates := OidcNonce.sampleCrates

/-- A server that has just been started, without requests. -/
def sampleHost : WebHost where
  shared := ⟨starting FjallStore.emptyDb sampleAccounts 4,.new 5 300 900 0,∅,fun _ => none,
    .new 600,none⟩
  phases _ := .unopened

/-- The steps of one connection in the middle of its first batch. -/
def sampleBeside : List Beside := (sampleUploading++sampleHandshake).map (.connection 0)

/-- A request for the usage of the user. -/
def sampleRequest : Request :=
  ⟨⟨some "Bearer token",none,"127.0.0.1"⟩,
    .tokiQuery ⟨"usage",none,none,none,none,none,none,false⟩⟩

/-- The events of the user. -/
def sampleEvents : List ServerEvent :=
  FjallStore.queryEvents eventLayout.codec sampleServer.events (Int64.ofInt 0) (Int64.ofInt 1000)
    (.single "u1") (TokiQuery.maxQueryEvents+1)

/-- The answer to the request. -/
def sampleAnswer : EventsAnswer where
  parsed := ⟨false,false,false,"model",none⟩
  stepSecs := some (TokiQuery.rangeSecs 1000)
  sinceMs := 0
  untilMs := 1000
  tz := none
  startOfWeek := none
  includeCost := true
  events := sampleEvents.take TokiQuery.maxQueryEvents
  truncated := decide (TokiQuery.maxQueryEvents<sampleEvents.length)

/-- The calls of the request before its answer, newest event first. -/
def sampleAsking : List (Event Answer Request) :=
  [.call (.queryEvents 0 1000 (.single "u1") (TokiQuery.maxQueryEvents+1)) (.ok sampleEvents),
    .call (.read (.userIsAdmin "u1")) (.ok false),
    .call (.read (.getServerSetting "max_query_scope")) (.ok none),.call .timestamp 1,
    .call (.lookup (.getFresh "u1")) (some true),
    .call (.lookup (.verifyAccess "token")) (.ok ⟨"u1","j1","access",3600,0,none,none⟩),
    .arrive sampleRequest,.opened]

/-- Labels of a run in which a device uploads and its user asks for the usage. -/
def sampleHistory : List WebLabel :=
  .session 0 (.call (.respond ⟨200,.events sampleAnswer⟩) ())::
    (sampleAsking.map (.session 0)++sampleBeside.map .environment)

/-- The server takes these steps. -/
theorem sampleAnswered : ∃ host, Runs.Run (WebStep sampleEnvironment sampleFormats
      eventLayout.codec WindowStore.windowLayout.codec .sqlite sampleLibraries 2592000) sampleHost
      sampleHistory host := by
  obtain ⟨rest,served⟩ := sampleServed
  have hphases : sampleHost.phases=Function.update (fun _ => .unopened) 0 .unopened := by
    funext i
    by_cases hi : i=0 <;> simp [sampleHost,hi]
  have run := @beside_run sampleEnvironment _ _ _ _ sampleLibraries _ sampleHost.shared
    sampleHost.phases _ sampleBeside served
  rw [hphases] at run
  have run := opens_next run rfl
  have run := arrive_next sampleRequest run
  have run := call_next (.ok _) run ⟨True.intro,_,⟨rfl,0,rfl⟩,rfl⟩
  have run := call_next (some true) run ⟨True.intro,_,⟨rfl,rfl⟩,rfl⟩
  have run := call_next (1 : Int64) run rfl
  have run := call_next (.ok none) run ⟨rfl,.inl ⟨none,rfl,rfl⟩⟩
  have run := call_next (.ok false) run ⟨rfl,.inl ⟨false,rfl,rfl⟩⟩
  have run := call_next (.ok sampleEvents) run ⟨rfl,.inl rfl⟩
  have run := call_next () run rfl
  rw [←hphases] at run
  exact ⟨_,run⟩

/-- Behind the sample run its connection goes through its steps. -/
theorem web_runs_refine_sample : ∃ labels, ∃ host : SyncHost,
    Runs.Run (ServerStep sampleFormats eventLayout.codec WindowStore.windowLayout.codec .sqlite
      2592000) sampleHost.shared.sync labels host ∧ labels.filterMap sessionLabel=sampleLabels := by
  obtain ⟨host,run⟩ := sampleAnswered
  obtain ⟨labels,hrun,-,hseen⟩ := web_runs_refine run
  exact ⟨labels,_,hrun,hseen⟩

end TokiSync.WebServer
