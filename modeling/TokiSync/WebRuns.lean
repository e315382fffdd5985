import TokiSync.AdminEvidence
import TokiSync.WebServer

/-!
# Runs of the web server

In every run of the whole server, with its connections and tasks, each call of a
request is one that the events of the request before it authorize. A request
that is refused has left the database and the event store alone, unless the
refusal is one of those that come too late.
-/

namespace TokiSync.WebRuns

open ByteCodec DatabaseCalls InterleavedSessions Runs ServerEvents SyncServer WebEvidence
open WebRequests WebRoutes WebServer WireWindows
open SyncConnection (Formats)

/-- Nothing has happened to a request before it arrives. -/
def Fresh (past : List Happening) (_ : Unit) : Prop := past=[]

section

variable {E : Environment}

/-- What a request remembers are its arrival and its calls. -/
theorem follow_evidence (events : List Happening) :
    (evidence E).follow events=events.filter Event.isInner := by
  induction events with
  | nil => rfl
  | cons e past ih =>
    rw [Contract.follow,ih]
    cases e <;> rfl

theorem follow_own (i : ℕ) (history : List WebLabel) :
    (evidence E).follow (own i history)=inner i history := follow_evidence _

/-- A request is handled as its evidence allows, and it is the only one. -/
theorem handles_evidence : Handles (evidence E) Fresh (serve E) := by
  intro past first request hpast
  subst hpast
  refine Meets.mono (AdminEvidence.meets_serve request) fun past result hnone s hs => ?_
  rw [hnone] at hs
  cases hs

variable {F : Formats} {eventCodec : Codec PersistedEvent} {windowCodec : Codec WireWindow}
variable {backend : OidcAccounts.Backend} {L : Libraries} {dedupRetentionSecs : Int64}

/-- New tokens are for the user they are asked for. -/
theorem reliable_of_replies {s t : App} {op : Call} {reply : Answer op}
    (h : Replies E F eventCodec windowCodec backend L op s reply t) : Reliable op reply := by
  cases op with
  | issueAccessToken userId =>
    intro claims hclaims
    obtain ⟨-,⟨jti,now,hreply⟩ | ⟨e,hreply⟩⟩ := h
    · cases hclaims.symm.trans hreply
      rfl
    · cases hclaims.symm.trans hreply
  | issueRefreshToken userId deviceId =>
    intro claims hclaims
    obtain ⟨-,⟨jti,now,hreply⟩ | ⟨e,hreply⟩⟩ := h
    · cases hclaims.symm.trans hreply
      exact ⟨rfl,rfl⟩
    · cases hclaims.symm.trans hreply
  | _ => exact True.intro

theorem upholds_evidence : Upholds (evidence E) Fresh
    (services E F eventCodec windowCodec backend L dedupRetentionSecs)
    fun (_ : List WebLabel) _ => True where
  opened _ _ _ _ _ _ := True.intro
  arrive _ _ _ _ _ _ _ := True.intro
  call _ _ _ _ _ _ _ _ heffect := ⟨reliable_of_replies heffect,True.intro⟩
  finish _ _ _ _ := True.intro
  closed _ _ _ _ _ _ := True.intro
  dropped _ _ _ _ _ _ := True.intro
  environment _ _ _ _ _ _ := True.intro

variable {init host : WebHost} {newer older history : List WebLabel} {i : ℕ} {op : Call}
variable {reply : Answer op}

/-- In every run the calls are authorized by the events before them. -/
theorem authorized_of_run (hunopened : ∀ i, init.phases i=.unopened)
    (run : Run (WebStep E F eventCodec windowCodec backend L dedupRetentionSecs) init
      (newer++.session i (.call op reply)::older) host) : Authorized E (inner i older) op := by
  have hready : Fresh (evidence E).start () := rfl
  have h := (call_upheld hready handles_evidence upholds_evidence True.intro hunopened run).1
  rw [follow_own] at h
  exact h

/-- Whatever requests arrive and however their steps and those of the rest of the
server interleave, a request makes every call, and gives its answer, only after
what that needs has happened to it. -/
theorem requests_authorized (hunopened : ∀ i, init.phases i=.unopened)
    (run : Run (WebStep E F eventCodec windowCodec backend L dedupRetentionSecs) init
      (newer++.session i (.call op reply)::older) host) : Authorized E (inner i older) op :=
  authorized_of_run hunopened run

/-- The answer of the sample run is authorized. -/
theorem requests_authorized_sample : Authorized sampleEnvironment (inner 0 sampleHistory.tail)
    (.respond ⟨200,.events sampleAnswer⟩) := by
  obtain ⟨host,run⟩ := sampleAnswered
  exact @requests_authorized _ _ _ _ _ _ _ _ _ [] _ 0 _ _ (fun _ => rfl) run

/-- A write that is idle or violates a constraint leaves the stores. -/
theorem server_of_attempts {w : DatabaseRuns.Write} {server server' : Server}
    {reply : Except String (Write.Result w)}
    (h : Attempts server (attempt backend server.db w) reply server')
    (hharmless : Harmless (.call (.write w) reply)) : server'=server := by
  unfold Attempts at h
  split at h
  · rename_i r db hattempt
    rcases h with ⟨rfl,rfl⟩ | ⟨-,e,hviolation,rfl⟩
    · rw [attempt_idle hattempt hharmless]
    · exact absurd hharmless hviolation
  · exact h.1

/-- A harmless call leaves the stores alone. -/
theorem stores_of_replies {s t : App}
    (h : Replies E F eventCodec windowCodec backend L op s reply t)
    (hharmless : Harmless (.call op reply)) :
    t.server.db=s.server.db ∧ t.server.events=s.server.events := by
  cases op with
  | lookup op =>
    obtain ⟨hlookup,server,hcalls,rfl⟩ := h
    cases op with
    | insertIfCurrent userId active genAtRead =>
      cases hcalls
      exact ⟨rfl,rfl⟩
    | generation | verifyAccess | getFresh | getUserById =>
      obtain ⟨rfl,-⟩ := hcalls
      exact ⟨rfl,rfl⟩
    | _ => exact hlookup.elim
  | write w =>
    obtain ⟨server,hattempts,rfl⟩ := h
    rw [server_of_attempts hattempts hharmless]
    exact ⟨rfl,rfl⟩
  | deleteDeviceEvents | deleteUserWindows => exact hharmless.elim
  | evict | timestamp | discover | exchangeCode | respond =>
    cases h
    exact ⟨rfl,rfl⟩
  | recordFailure | recordSuccess | forgetPoll | cacheDiscovery | clearDiscovery | insertState =>
    cases h
    exact ⟨rfl,rfl⟩
  | check | allowWrite | poll | validateState =>
    obtain ⟨-,rfl⟩ := h
    exact ⟨rfl,rfl⟩
  | _ =>
    obtain ⟨rfl,-⟩ := h
    exact ⟨rfl,rfl⟩

/-- A request that is refused in time has changed nothing in the stores with any
of its steps, from whatever state they were taken. -/
theorem refused_requests_change_nothing (hunopened : ∀ i, init.phases i=.unopened)
    {response : Response} {sent : Unit}
    (run : Run (WebStep E F eventCodec windowCodec backend L dedupRetentionSecs) init
      (newer++.session i (.call (.respond response) sent)::older) host)
    (hrefuses : Refuses response.status)
    (hintime : ∀ route, Asked (inner i older) route → ¬TooLate route response.status)
    {e : Happening} (he : e∈own i older) {s t : WebHost}
    (taken : WebStep E F eventCodec windowCodec backend L dedupRetentionSecs s (.session i e) t) :
    t.shared.server.db=s.shared.server.db ∧ t.shared.server.events=s.shared.server.events := by
  have hanswerable : Answerable E (inner i older) response := authorized_of_run hunopened run
  have hfree : Untouched (inner i older) := by
    rcases hanswerable.2 hrefuses with hfree | ⟨route,hasked,hlate⟩
    · exact hfree
    · exact absurd hlate (hintime route hasked)
  cases taken with
  | call phase effect =>
    exact stores_of_replies effect (hfree _ (List.mem_filter.mpr ⟨he,rfl⟩))
  | opened _ effect | closed _ effect | dropped _ effect =>
    cases effect
    exact ⟨rfl,rfl⟩
  | arrive | finish => exact ⟨rfl,rfl⟩

end

/-- A request to rename a device that the user does not have. -/
def sampleRename : Request :=
  ⟨⟨some "Bearer token",none,"127.0.0.1"⟩,.meRenameDevice "d9" "x"⟩

/-- What happens to the request before its answer, newest event first. -/
def sampleRenaming : List Happening :=
  [.call (.write (.renameDevice "d9" "u1" "x")) (.ok false),
    .call (.lookup (.insertIfCurrent "u1" true 0)) (),
    .call (.lookup (.getUserById "u1")) (.ok (some ⟨"u1","ada","hash","user",1,1,none,none,true⟩)),
    .call (.lookup .generation) 0,.call (.lookup (.getFresh "u1")) none,
    .call (.lookup (.verifyAccess "token")) (.ok ⟨"u1","j1","access",3600,0,none,none⟩),
    .arrive sampleRename,.opened]

/-- The request is refused. -/
theorem sampleRefused : ∃ host, Run (WebStep sampleEnvironment SyncServer.sampleFormats
      eventLayout.codec WindowStore.windowLayout.codec .sqlite sampleLibraries 2592000) sampleHost
      (.session 0 (.call (.respond ⟨404,.error "device not found"⟩) ())::
        sampleRenaming.map (.session 0)) host := by
  have hphases : sampleHost.phases=Function.update (fun _ => .unopened) 0 .unopened := by
    funext i
    by_cases hi : i=0 <;> simp [sampleHost,hi]
  have run : Run (WebStep sampleEnvironment SyncServer.sampleFormats eventLayout.codec
      WindowStore.windowLayout.codec .sqlite sampleLibraries 2592000) sampleHost []
      ⟨sampleHost.shared,Function.update (fun _ => .unopened) 0 .unopened⟩ := by
    rw [←hphases]
    exact .start
  have run := opens_next run rfl
  have run := arrive_next sampleRename run
  have run := call_next (.ok _) run ⟨True.intro,_,⟨rfl,0,rfl⟩,rfl⟩
  have run := call_next none run ⟨True.intro,_,⟨rfl,rfl⟩,rfl⟩
  have run := call_next 0 run ⟨True.intro,_,⟨rfl,rfl⟩,rfl⟩
  have run := call_next (.ok (some _)) run ⟨True.intro,_,⟨rfl,.inl rfl⟩,rfl⟩
  have run := call_next () run ⟨True.intro,_,rfl,rfl⟩
  have run := call_next (.ok false) run ⟨_,.inl ⟨rfl,rfl⟩,rfl⟩
  have run := call_next () run rfl
  exact ⟨_,run⟩

/-- The write of the refused request has changed nothing. -/
theorem refused_requests_change_nothing_sample : ∃ s t : WebHost, ∃ reply : Except String Bool,
    WebStep sampleEnvironment SyncServer.sampleFormats eventLayout.codec
      WindowStore.windowLayout.codec .sqlite sampleLibraries 2592000 s
      (.session 0 (.call (.write (.renameDevice "d9" "u1" "x")) reply)) t ∧
    t.shared.server.db=s.shared.server.db ∧ t.shared.server.events=s.shared.server.events := by
  obtain ⟨host,run⟩ := sampleRefused
  obtain ⟨mid,hrun,-⟩ := @Run.split _ _ _ _ [_] _ _ run
  cases hrun with
  | next _ hrun taken =>
    refine ⟨_,_,_,taken,@refused_requests_change_nothing _ _ _ _ _ _ _ _ _ [] _ 0 (fun _ => rfl) _ _
      run (by simp [Refuses]) ?_ _ List.mem_cons_self _ _ taken⟩
    intro route hasked
    obtain ⟨peer,hmem⟩ := hasked
    have hrequest : peer=sampleRename.peer ∧ route=.meRenameDevice "d9" "x" := by
      simpa [InterleavedSessions.inner,own,sampleRenaming,sampleRename,Event.isInner] using hmem
    rw [hrequest.2]
    exact id

end TokiSync.WebRuns
