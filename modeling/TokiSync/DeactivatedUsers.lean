import TokiSync.AnsweredQueries
import TokiSync.InactiveUsers

/-!
# Deactivated users stay out

An administrator deactivates or deletes a user in the database and then evicts
the user from the cache of active statuses. Requests and connections that have
read the old status meanwhile still hold it. They have loaded the generation of
the cache before, so what they read does not enter the cache any more, and no
check after the eviction finds the user active, until the user is activated
again.
-/

namespace TokiSync.DeactivatedUsers

open ActiveStatusCache (ActiveCacheInner getFresh insertIfCurrent)
open AnsweredQueries ByteCodec DatabaseCalls InactiveUsers InterleavedSessions Runs ServerEvents
open SyncServer WebRequests WebServer WireWindows
open DatabaseRuns (Write)
open OidcAccounts (UserRow)
open SyncConnection (Formats)

/-- A step asks the cache or looks a user up, for a request or a connection. -/
inductive Looks : WebLabel → (op : SyncConnection.Call) → SyncConnection.Answer op → Prop where
  | request (i : ℕ) (op : SyncConnection.Call) (reply : SyncConnection.Answer op) :
    Looks (.session i (.call (.lookup op) reply)) op reply
  | connection (i : ℕ) (op : SyncConnection.Call) (reply : SyncConnection.Answer op) :
    Looks (.environment (.connection i (.call op reply))) op reply

/-- A step finds a user active. -/
def FindsActive (userId : String) (label : WebLabel) : Prop :=
  Looks label (.getFresh userId) (some true) ∨
    ∃ row : UserRow, row.active=true ∧ Looks label (.getUserById userId) (.ok (some row))

/-- Whether a step evicts a user from the cache. -/
def isEviction : WebLabel → Bool
  | .session _ (.call (.evict _) _) => true
  | _ => false

/-- Number of evictions in a history. -/
def evictions (history : List WebLabel) : ℕ := history.countP isEviction

/-- A step asks the database for a write. -/
def Asks (label : WebLabel) (w : Write) : Prop :=
  ∃ l, Stems l label ∧ (l=.environment (.write w) ∨ ∃ i op reply now,
    l=.session i (.call op reply) ∧ asks now op=some w)

/-- The generation and the status were read in this order before. -/
def ReadBefore (history : List WebLabel) (userId : String) (active : Bool) (genAtRead : UInt64) :
    Prop :=
  ∃ newer read later load older, ∃ row : Option UserRow,
    history=newer++read::(later++load::older) ∧
    Looks read (.getUserById userId) (.ok row) ∧ Looks load .generation genAtRead ∧
    active=(row.map UserRow.active).getD false

/-- What a step does to the cache. -/
inductive CacheEffect (label : WebLabel) (s t : Server) : Prop where
  /-- Nothing. -/
  | idle (silent : isEviction label=false) (cache : t.cache=s.cache)
  /-- A status that was read is stored. -/
  | store (userId : String) (active : Bool) (genAtRead : UInt64)
    (looks : Looks label (.insertIfCurrent userId active genAtRead) ())
    (cache : t.cache=insertIfCurrent s.cache s.now userId active genAtRead)
  /-- A user is evicted. -/
  | evict (i : ℕ) (userId : String) (label : label=.session i (.call (.evict userId) ()))
    (cache : t.cache=ActiveStatusCache.evict s.cache userId)

section

variable {E : Environment} {F : Formats} {eventCodec : Codec PersistedEvent}
variable {windowCodec : Codec WireWindow} {backend : OidcAccounts.Backend} {L : Libraries}
variable {dedupRetentionSecs : Int64} {label : WebLabel} {userId : String}

theorem Writes.cache {s t done : Server} {reply : Except String Unit}
    (h : Writes s done reply t) (hdone : done.cache=s.cache) : t.cache=s.cache := by
  rcases h with ⟨rfl,-⟩ | ⟨rfl,-⟩
  · exact hdone
  · rfl

theorem Executes.cache {s t : Server} {reply : Except String Unit}
    {result : Except DatabaseRepo.Refusal DatabaseRepo.Tables} (h : Executes s result reply t) :
    t.cache=s.cache := by
  cases result with
  | error e => exact congrArg Server.cache h.1
  | ok db => exact Writes.cache h rfl

/-- A call of a connection changes the cache only by storing a status. -/
theorem cache_of_call {i : ℕ} {op : SyncConnection.Call} {reply : SyncConnection.Answer op}
    {s t : Server} (h : Calls F eventCodec windowCodec i op s reply t)
    (hop : ∀ userId active genAtRead, op≠.insertIfCurrent userId active genAtRead) :
    t.cache=s.cache := by
  cases op with
  | insertIfCurrent userId active genAtRead => exact absurd rfl (hop userId active genAtRead)
  | updateDeviceSeen | createDevice | resetCursor | ensureCursor | advanceCursor =>
    obtain ⟨now,h⟩ := h
    exact Executes.cache h
  | deleteDeviceEvents | cleanupOldDedup => exact Writes.cache h rfl
  | upsertEvents events =>
    obtain ⟨db,-,h⟩ := h
    exact Writes.cache h rfl
  | upsertWindows userId provider items =>
    obtain ⟨db,-,rfl⟩ := h
    rfl
  | allow userId provider deviceId =>
    rw [h.2]
  | acquire =>
    rcases h with ⟨permits,-,rfl,-⟩ | ⟨rfl,-⟩ <;> rfl
  | release =>
    have ht : t=s.release i := h
    rw [ht]
    rfl
  | nowMs => exact congrArg Server.cache h
  | write reply => exact congrArg Server.cache h
  | _ => exact congrArg Server.cache h.1

theorem cache_hangUp {s : Server} (i : ℕ) : (s.hangUp i).cache=s.cache := by
  unfold Server.hangUp
  split <;> rfl

section

variable {s t : WebHost} {op : SyncConnection.Call} {reply : SyncConnection.Answer op}

/-- What a request or a connection sees of the cache and of a user is what is
there. -/
theorem calls_of_looks (taken : WebStep E F eventCodec windowCodec backend L dedupRetentionSecs s
    label t) (h : Looks label op reply) :
    ∃ i, Calls F eventCodec windowCodec i op s.shared.server reply t.shared.server := by
  cases h with
  | request i =>
    cases taken with
    | call phase effect =>
      obtain ⟨-,server,hcalls,rfl⟩ := effect
      exact ⟨0,hcalls⟩
  | connection i =>
    cases taken with
    | environment effect =>
      obtain ⟨sync,hstep,rfl⟩ := effect
      cases hstep with
      | call phase effect => exact ⟨i,effect⟩

/-- What the steps do to the cache. -/
theorem cache_of_step (taken : WebStep E F eventCodec windowCodec backend L dedupRetentionSecs s
    label t) : CacheEffect label s.shared.server t.shared.server := by
  cases taken with
  | opened _ effect | closed _ effect | dropped _ effect =>
    cases effect
    exact .idle rfl rfl
  | arrive | finish => exact .idle rfl rfl
  | @call i op next reply t phase effect =>
    cases op with
    | lookup op =>
      obtain ⟨hlookup,server,hcalls,rfl⟩ := effect
      cases op with
      | insertIfCurrent userId active genAtRead =>
        exact .store userId active genAtRead (.request i _ _) (congrArg Server.cache hcalls)
      | _ =>
        refine .idle rfl (cache_of_call hcalls fun _ _ _ h => ?_)
        cases h
    | write w =>
      obtain ⟨server,hattempts,rfl⟩ := effect
      rcases db_of_attempts hattempts with rfl | rfl <;> exact .idle rfl rfl
    | evict userId =>
      cases effect
      exact .evict i userId rfl rfl
    | deleteDeviceEvents | deleteUserWindows =>
      obtain ⟨server,hwrites,rfl⟩ := effect
      rcases eq_of_writes hwrites with rfl | rfl <;> exact .idle rfl rfl
    | timestamp | discover | exchangeCode | respond | recordFailure | recordSuccess | forgetPoll
    | cacheDiscovery | clearDiscovery | insertState =>
      cases effect
      exact .idle rfl rfl
    | check | allowWrite | poll | validateState =>
      obtain ⟨-,rfl⟩ := effect
      exact .idle rfl rfl
    | _ =>
      obtain ⟨rfl,-⟩ := effect
      exact .idle rfl rfl
  | @environment e t effect =>
    obtain ⟨sync,hstep,rfl⟩ := effect
    cases e with
    | connection i e =>
      cases hstep with
      | opened phase effect =>
        obtain ⟨connections,-,rfl⟩ := effect
        exact .idle rfl rfl
      | arrive | finish => exact .idle rfl rfl
      | @call _ op next reply t phase effect =>
        have hcalls : Calls F eventCodec windowCodec i op s.shared.server reply t := effect
        cases op with
        | insertIfCurrent userId active genAtRead =>
          exact .store userId active genAtRead (.connection i _ _) (congrArg Server.cache hcalls)
        | _ =>
          refine .idle rfl (cache_of_call hcalls fun _ _ _ h => ?_)
          cases h
      | closed phase effect | dropped phase effect =>
        cases effect
        exact .idle rfl (cache_hangUp i)
    | task task =>
      cases hstep with
      | environment effect =>
        cases task <;> cases effect <;> exact .idle rfl rfl

/-- What the steps do to the database. -/
theorem db_of_step (taken : WebStep E F eventCodec windowCodec backend L dedupRetentionSecs s
    label t) : t.shared.server.db=s.shared.server.db ∨
      ∃ w, Asks label w ∧ t.shared.server.db=DatabaseRuns.perform backend s.shared.server.db w := by
  rcases projects s label t taken with ⟨hsame,-⟩ | ⟨l,hstem,-,hstep⟩
  · exact .inl (congrArg (fun sync : SyncHost => sync.shared.db) hsame)
  · have hwhole : ∀ {sync sync' : SyncHost},
        ServerStep F eventCodec windowCodec backend dedupRetentionSecs sync l sync' →
        sync'.shared.db=sync.shared.db ∨ ∃ w, Asks label w ∧
          sync'.shared.db=DatabaseRuns.perform backend sync.shared.db w := by
      intro sync sync' hstep
      cases hstep with
      | opened phase effect =>
        obtain ⟨connections,-,rfl⟩ := effect
        exact .inl rfl
      | arrive | finish => exact .inl rfl
      | @call i op next reply t phase effect =>
        rcases db_of_call backend effect with hsame | ⟨now,w,hasks,hdone⟩
        · exact .inl hsame
        · exact .inr ⟨w,⟨_,hstem,.inr ⟨i,op,reply,now,rfl,hasks⟩⟩,hdone⟩
      | closed phase effect | dropped phase effect =>
        cases effect
        exact .inl db_hangUp
      | @environment o t effect =>
        cases o with
        | write w =>
          cases effect
          exact .inr ⟨w,⟨_,hstem,.inl rfl⟩,rfl⟩
        | _ =>
          cases effect
          exact .inl rfl
    exact hwhole hstep

/-- Evictions are counted by the generation. -/
theorem generation_of_step (taken : WebStep E F eventCodec windowCodec backend L
    dedupRetentionSecs s label t) : t.shared.server.cache.generation=
      s.shared.server.cache.generation+UInt64.ofNat (if isEviction label then 1 else 0) := by
  rcases cache_of_step taken with ⟨hsilent,hcache⟩ | ⟨u,active,genAtRead,hlooks,hcache⟩ |
    ⟨i,u,rfl,hcache⟩
  · rw [hcache,hsilent]
    simp
  · have hsilent : isEviction label=false := by cases hlooks <;> rfl
    rw [hcache,hsilent,ActiveStatusCache.insertIfCurrent_generation]
    simp
  · rw [hcache]
    rfl

end

variable {init mid host : WebHost} {history before after : List WebLabel}

/-- The generation is the number of evictions. -/
theorem generation_of_run (run : Run
      (WebStep E F eventCodec windowCodec backend L dedupRetentionSecs) init history host) :
    host.shared.server.cache.generation=
      init.shared.server.cache.generation+UInt64.ofNat (evictions history) := by
  induction run with
  | start => simp [evictions]
  | next label run taken ih =>
    rw [generation_of_step taken,ih,evictions,evictions,List.countP_cons,UInt64.add_assoc,
      ←UInt64.ofNat_add]

/-- A request is remembered by its session. -/
theorem inner_arrive {ι κ A ε : Type} {ρ : κ → Type} [DecidableEq ι] (i : ι) (request : A)
    (past : List (Label ι ρ A ε)) :
    InterleavedSessions.inner i (.session i (.arrive request)::past)=
      .arrive request::InterleavedSessions.inner i past := by
  rw [InterleavedSessions.inner,own_session]
  rfl

/-- The last event of a session is a step in the history. -/
theorem split_of_inner {ι κ A ε : Type} {ρ : κ → Type} [DecidableEq ι] {i : ι} {e : Event ρ A}
    {rest : List (Event ρ A)} {history : List (Label ι ρ A ε)}
    (h : InterleavedSessions.inner i history=e::rest) :
    ∃ newer older, history=newer++.session i e::older ∧
      InterleavedSessions.inner i older=rest := by
  induction history with
  | nil => cases h
  | cons label past ih =>
    have hlater : InterleavedSessions.inner i past=e::rest → ∃ newer older,
        label::past=newer++.session i e::older ∧ InterleavedSessions.inner i older=rest := by
      intro h
      obtain ⟨newer,older,rfl,hrest⟩ := ih h
      exact ⟨label::newer,older,rfl,hrest⟩
    cases label with
    | environment x => exact hlater h
    | session j x =>
      rw [InterleavedSessions.inner,own] at h
      split at h
      · rename_i hj
        subst hj
        rw [List.filter_cons] at h
        split at h
        · obtain ⟨rfl,hrest⟩ := List.cons.inj h
          exact ⟨[],past,rfl,hrest⟩
        · exact hlater h
      · exact hlater h

/-- A step of a connection behind the requests is a step in the history. -/
theorem split_of_connections {i : ℕ} {e : ConnectionAuth.Happening} {newer older : List ServerLabel}
    (h : connections history=newer++.session i e::older) :
    ∃ later earlier, history=later++.environment (.connection i e)::earlier ∧
      connections earlier=older := by
  obtain ⟨later,rest,rfl,-,hrest⟩ := List.filterMap_eq_append_iff.mp h
  obtain ⟨between,label,earlier,rfl,-,hlabel,hearlier⟩ := List.filterMap_eq_cons_iff.mp hrest
  have hsame : label=.environment (.connection i e) := by
    cases label with
    | session j x => cases hlabel
    | environment x =>
      cases x with
      | connection j x =>
        cases hlabel
        rfl
      | task task => cases hlabel
  exact ⟨later++between,earlier,by rw [hsame,List.append_assoc],hearlier⟩

/-- What is stored in the cache was read before, and the generation before it. -/
theorem readBefore_of_run (hunopened : ∀ i, init.phases i=.unopened)
    (hconnections : ∀ i, init.shared.sync.phases i=.unopened) {active : Bool} {genAtRead : UInt64}
    (run : Run (WebStep E F eventCodec windowCodec backend L dedupRetentionSecs) init
      (label::history) host) (h : Looks label (.insertIfCurrent userId active genAtRead) ()) :
    ReadBefore history userId active genAtRead := by
  cases h with
  | request i =>
    have hauthorized : WebEvidence.Authorized E (InterleavedSessions.inner i history)
        (.lookup (.insertIfCurrent userId active genAtRead)) :=
      @WebRuns.authorized_of_run _ _ _ _ _ _ _ _ _ [] _ _ _ _ hunopened run
    obtain ⟨row,rest,hevents,hactive⟩ := hauthorized.2
    obtain ⟨newer,older,rfl,hrest⟩ := split_of_inner hevents
    obtain ⟨later,older,rfl,-⟩ := split_of_inner hrest
    exact ⟨newer,_,later,_,older,row,rfl,.request i _ _,.request i _ _,hactive⟩
  | connection i =>
    obtain ⟨labels,hrun,-,hseen⟩ := projects.run run
    have hcons : labels.filterMap sessionLabel=
        .session i (.call (.insertIfCurrent userId active genAtRead) ())::connections history :=
      hseen
    obtain ⟨newer,l,older,rfl,-,hl,holder⟩ := List.filterMap_eq_cons_iff.mp hcons
    have hsame : l=.session i (.call (.insertIfCurrent userId active genAtRead) ()) := by
      cases l with
      | session j x => exact Option.some.inj hl
      | environment x => cases hl
    subst hsame
    obtain ⟨row,rest,hevents,hactive⟩ := ConnectionAuth.authorized_of_run hconnections hrun
    have hown : InterleavedSessions.inner i (connections history)=
        InterleavedSessions.inner i older := by
      rw [InterleavedSessions.inner,InterleavedSessions.inner,←holder,own_sessions]
    obtain ⟨_,_,hnewer,hrest⟩ := split_of_inner (hown.trans hevents)
    obtain ⟨newer,earlier,rfl,hearlier⟩ := split_of_connections hnewer
    rw [←hearlier] at hrest
    obtain ⟨_,_,hlater,-⟩ := split_of_inner hrest
    obtain ⟨later,older,rfl,-⟩ := split_of_connections hlater
    exact ⟨newer,_,later,_,older,row,rfl,.connection i _ _,.connection i _ _,hactive⟩

/-- A run goes on with another one. -/
theorem run_append (run : Run (WebStep E F eventCodec windowCodec backend L dedupRetentionSecs)
    init before mid)
    (later : Run (WebStep E F eventCodec windowCodec backend L dedupRetentionSecs) mid after host) :
    Run (WebStep E F eventCodec windowCodec backend L dedupRetentionSecs) init (after++before)
      host := by
  induction later with
  | start => exact run
  | next label _ taken ih => exact .next label ih taken

/-- A user is neither active in the database nor in the cache. -/
structure Shut (userId : String) (s : Server) : Prop where
  /-- The user is not active in the database. -/
  inactive : Inactive s.db userId
  /-- The cache does not say that the user is active. -/
  entry : ∀ entry, s.cache.map userId=some entry → entry.1=false

/-- No check finds a user active who is shut out. -/
theorem Shut.not_findsActive {s t : WebHost} (h : Shut userId s.shared.server)
    (taken : WebStep E F eventCodec windowCodec backend L dedupRetentionSecs s label t) :
    ¬FindsActive userId label := by
  rintro (hlooks | ⟨row,hactive,hlooks⟩)
  · obtain ⟨i,-,hfresh⟩ := calls_of_looks taken hlooks
    obtain ⟨at',hentry⟩ := ActiveStatusCache.getFresh_eq_some
      (s := ⟨fun _ => none,s.shared.server.cache,s.shared.server.now,fun _ => .idle,fun _ => .idle⟩)
      hfresh.symm
    cases h.entry _ hentry
  · obtain ⟨i,-,hfound⟩ := calls_of_looks taken hlooks
    rcases hfound with hfound | ⟨e,hfound⟩
    · have hrow := h.inactive.of_found (Except.ok.inj hfound).symm
      rw [hactive] at hrow
      cases hrow
    · cases hfound

/-- A label that looks something up evicts nobody. -/
theorem Looks.ne_evict {op : SyncConnection.Call} {reply : SyncConnection.Answer op} {i : ℕ}
    {user : String} (h : Looks label op reply) : label≠.session i (.call (.evict user) ()) := by
  cases h <;> rintro ⟨⟩

/-- What is left in the cache after an eviction. -/
theorem entry_of_evict {cache : ActiveCacheInner} {user : String} {entry : Bool×ℕ}
    (h : (ActiveStatusCache.evict cache user).map userId=some entry) :
    user≠userId ∧ cache.map userId=some entry := by
  unfold ActiveStatusCache.evict at h
  dsimp only at h
  by_cases hu : userId=user
  · rw [hu,Function.update_self] at h
    cases h
  · rw [Function.update_of_ne hu] at h
    exact ⟨Ne.symm hu,h⟩

/-- A generation that was loaded before an eviction is not the current one. -/
theorem generation_moved {load : WebLabel} {newer older : List WebLabel} {genAtRead : UInt64}
    (run : Run (WebStep E F eventCodec windowCodec backend L dedupRetentionSecs) init
      (newer++load::older) host) (hloads : Looks load .generation genAtRead)
    (hevicted : 0<evictions newer) (hcount : evictions (newer++load::older)<UInt64.size) :
    host.shared.server.cache.generation≠genAtRead := by
  obtain ⟨s,hload,-⟩ := run.split
  cases hload with
  | next _ hpast taken =>
    obtain ⟨i,-,hgen⟩ := calls_of_looks taken hloads
    have hsilent : isEviction load=false := by cases hloads <;> rfl
    have htotal : evictions (newer++load::older)=evictions older+evictions newer := by
      rw [evictions,List.countP_append,List.countP_cons,hsilent]
      exact Nat.add_comm _ _
    rw [generation_of_run hpast] at hgen
    rw [generation_of_run run,htotal,hgen,UInt64.ofNat_add,←UInt64.add_assoc]
    intro hsame
    have hnone := ActiveStatusCache.eq_zero_of_generation hsame.symm
      (Nat.lt_of_le_of_lt (htotal ▸ Nat.le_add_left _ _) hcount)
    exact Nat.ne_of_gt hevicted hnone

/-- A status that was read before an eviction does not enter the cache after it;
one that was read since is that of the database. -/
theorem stored_inactive {j : ℕ}
    (run : Run (WebStep E F eventCodec windowCodec backend L dedupRetentionSecs) init
      (after++.session j (.call (.evict userId) ())::before) host)
    (hfinds : ∀ label∈after, ¬FindsActive userId label)
    (hcount : evictions (after++.session j (.call (.evict userId) ())::before)<UInt64.size)
    {active : Bool} {genAtRead : UInt64}
    (hread : ReadBefore (after++.session j (.call (.evict userId) ())::before) userId active
      genAtRead)
    (hcurrent : host.shared.server.cache.generation=genAtRead) : active=false := by
  obtain ⟨newer,read,later,load,older,row,hhistory,hlooks,hloads,rfl⟩ := hread
  rcases List.append_eq_append_iff.mp hhistory with ⟨rest,hnewer,hbefore⟩ | ⟨rest,hafter,hbefore⟩
  · cases rest with
    | nil => exact absurd (List.cons.inj hbefore).1.symm hlooks.ne_evict
    | cons label rest =>
      have hrest : before=rest++read::(later++load::older) := (List.cons.inj hbefore).2
      have hsplit : after++.session j (.call (.evict userId) ())::before=
          (after++.session j (.call (.evict userId) ())::(rest++read::later))++load::older := by
        simp [hrest]
      have hevicted : 0<evictions
          (after++.session j (.call (.evict userId) ())::(rest++read::later)) :=
        List.countP_pos_iff.mpr ⟨_,List.mem_append_right _ List.mem_cons_self,rfl⟩
      rw [hsplit] at run hcount
      exact absurd hcurrent (generation_moved run hloads hevicted hcount)
  · cases rest with
    | nil => exact absurd (List.cons.inj hbefore).1 hlooks.ne_evict
    | cons label rest =>
      obtain ⟨rfl,-⟩ := List.cons.inj hbefore
      cases row with
      | none => rfl
      | some row =>
        have hmem : read∈after := by
          rw [hafter]
          exact List.mem_append_right _ List.mem_cons_self
        exact Bool.eq_false_iff.mpr fun hactive => hfinds read hmem (.inr ⟨row,hactive,hlooks⟩)

/-- A user who is not active at an eviction is shut out from then on, until the
user is activated again. -/
theorem shut_of_run {j : ℕ} (hunopened : ∀ i, init.phases i=.unopened)
    (hconnections : ∀ i, init.shared.sync.phases i=.unopened)
    (run : Run (WebStep E F eventCodec windowCodec backend L dedupRetentionSecs) init
      (.session j (.call (.evict userId) ())::before) mid)
    (hinactive : Inactive mid.shared.server.db userId)
    (later : Run (WebStep E F eventCodec windowCodec backend L dedupRetentionSecs) mid after host)
    (hrevives : ∀ label∈after, ∀ w, Asks label w → ¬Revives userId w)
    (hcount : evictions (after++.session j (.call (.evict userId) ())::before)<UInt64.size) :
    Shut userId host.shared.server ∧ ∀ label∈after, ¬FindsActive userId label := by
  induction later with
  | start =>
    refine ⟨⟨hinactive,?_⟩,fun _ h => absurd h List.not_mem_nil⟩
    cases run with
    | next _ run taken =>
      rcases cache_of_step taken with ⟨hsilent,-⟩ | ⟨_,_,_,hlooks,-⟩ | ⟨_,_,hlabel,hcache⟩
      · cases hsilent
      · exact absurd rfl hlooks.ne_evict
      · cases hlabel
        intro entry hentry
        rw [hcache] at hentry
        exact absurd rfl (entry_of_evict hentry).1
  | @next past s t label later taken ih =>
    have hfewer : evictions (past++.session j (.call (.evict userId) ())::before)<UInt64.size := by
      refine Nat.lt_of_le_of_lt ?_ hcount
      exact (List.sublist_cons_self label _).countP_le
    obtain ⟨hshut,hfinds⟩ := ih (fun l hl => hrevives l (List.mem_cons_of_mem _ hl)) hfewer
    have hwhole := run_append run later
    refine ⟨⟨?_,?_⟩,List.forall_mem_cons.mpr ⟨hshut.not_findsActive taken,hfinds⟩⟩
    · rcases db_of_step taken with hsame | ⟨w,hasks,hdone⟩
      · rw [hsame]
        exact hshut.inactive
      · rw [hdone]
        exact hshut.inactive.perform (hrevives label List.mem_cons_self w hasks)
    · intro entry hentry
      rcases cache_of_step taken with ⟨-,hcache⟩ | ⟨u,active,genAtRead,hlooks,hcache⟩ |
        ⟨i,u,-,hcache⟩
      · rw [hcache] at hentry
        exact hshut.entry entry hentry
      · rw [hcache] at hentry
        rcases ActiveStatusCache.insertIfCurrent_entry hentry with hold | ⟨hgen,rfl,hvalue⟩
        · exact hshut.entry entry hold
        · have hread := readBefore_of_run hunopened hconnections (.next label hwhole taken) hlooks
          rw [hvalue]
          exact stored_inactive hwhole hfinds hfewer hread hgen
      · rw [hcache] at hentry
        exact hshut.entry entry (entry_of_evict hentry).2

/-- A user who is not active stays so while nobody activates the user. -/
theorem inactive_of_run
    (run : Run (WebStep E F eventCodec windowCodec backend L dedupRetentionSecs) mid after host)
    (hinactive : Inactive mid.shared.server.db userId)
    (hrevives : ∀ label∈after, ∀ w, Asks label w → ¬Revives userId w) :
    Inactive host.shared.server.db userId := by
  induction run with
  | start => exact hinactive
  | next label run taken ih =>
    have hpast := ih fun l hl => hrevives l (List.mem_cons_of_mem _ hl)
    rcases db_of_step taken with hsame | ⟨w,hasks,hdone⟩
    · rw [hsame]
      exact hpast
    · rw [hdone]
      exact hpast.perform (hrevives label List.mem_cons_self w hasks)

/-- A write that succeeded has been done. -/
theorem db_of_success {s t : Server} {w : Write} {r : Write.Result w}
    (h : Attempts s (attempt backend s.db w) (.ok r) t) :
    t.db=DatabaseRuns.perform backend s.db w := by
  unfold Attempts at h
  rw [perform_eq_attempt]
  split at h
  · rename_i value db hattempt
    rw [hattempt]
    rcases h with ⟨rfl,-⟩ | ⟨-,e,-,he⟩
    · rfl
    · cases he
  · obtain ⟨-,e,he⟩ := h
    cases he

/-- Nothing has happened in a session before its request arrives. -/
theorem inner_before_arrival {i : ℕ} {request : Request} {newer older : List WebLabel}
    (hunopened : ∀ i, init.phases i=.unopened)
    (run : Run (WebStep E F eventCodec windowCodec backend L dedupRetentionSecs) init
      (newer++.session i (.arrive request)::older) host) :
    InterleavedSessions.inner i older=[] := by
  obtain ⟨s,harrive,-⟩ := run.split
  cases harrive with
  | next _ hpast taken =>
    have hready : WebRuns.Fresh (WebEvidence.evidence E).start () := rfl
    have hphases := (upheld hready WebRuns.handles_evidence WebRuns.upholds_evidence True.intro
      hunopened hpast).2 i
    cases taken with
    | arrive phase =>
      rw [phase,WebRuns.follow_own] at hphases
      exact hphases

/-- The events that are looked back at end where one does not count. -/
theorem mem_of_takeWhile {α : Type} {p : α → Bool} {newer older : List α} {stop e : α}
    (hstop : p stop=false) (h : e∈(newer++stop::older).takeWhile p) : e∈newer := by
  induction newer with
  | nil =>
    rw [List.nil_append,List.takeWhile_cons_of_neg (by simp [hstop])] at h
    cases h
  | cons x newer ih =>
    rw [List.cons_append,List.takeWhile_cons] at h
    split at h
    · rcases List.mem_cons.mp h with rfl | h
      · exact List.mem_cons_self
      · exact List.mem_cons_of_mem _ (ih h)
    · cases h

/-- A request that arrives after a user is shut out is not from that user. -/
theorem not_authenticated {i : ℕ} {request : Request} {newer older : List WebLabel}
    (hunopened : ∀ i, init.phases i=.unopened)
    (run : Run (WebStep E F eventCodec windowCodec backend L dedupRetentionSecs) init
      (newer++.session i (.arrive request)::older) host)
    (hfinds : ∀ label∈newer, ¬FindsActive userId label) :
    ¬WebEvidence.Authenticated
      (InterleavedSessions.inner i (newer++.session i (.arrive request)::older)) userId := by
  intro hauthenticated
  have hevents : InterleavedSessions.inner i (newer++.session i (.arrive request)::older)=
      InterleavedSessions.inner i newer++[.arrive request] := by
    rw [inner_append,inner_arrive,inner_before_arrival hunopened run]
  have hlabel : ∀ {e : WebEvidence.Happening}, e≠.arrive request →
      e∈InterleavedSessions.inner i (newer++.session i (.arrive request)::older) →
      .session i e∈newer := by
    intro e hne he
    rw [hevents] at he
    rcases List.mem_append.mp he with he | he
    · obtain ⟨later,earlier,rfl⟩ := split_of_mem_own (List.mem_filter.mp he).1
      exact List.mem_append_right _ List.mem_cons_self
    · exact absurd (List.mem_singleton.mp he) hne
  rcases hauthenticated.active with hfresh | ⟨row,hactive,hrow⟩
  · exact hfinds _ (hlabel (by rintro ⟨⟩) hfresh) (.inl (.request i _ _))
  · exact hfinds _ (hlabel (by rintro ⟨⟩) hrow) (.inr ⟨row,hactive,.request i _ _⟩)

/-- A connection does not find a user active who is shut out since its last
frame arrived. -/
theorem not_foundActive {i : ℕ} {arrival : SyncConnection.Arrival} {newer older : List WebLabel}
    (hfinds : ∀ label∈newer, ¬FindsActive userId label) :
    ¬ConnectionAuth.FoundActive (ConnectionAuth.recent (InterleavedSessions.inner i
      (connections (newer++.environment (.connection i (.arrive arrival))::older)))) userId := by
  have hevents : InterleavedSessions.inner i
      (connections (newer++.environment (.connection i (.arrive arrival))::older))=
      InterleavedSessions.inner i (connections newer)++
        .arrive arrival::InterleavedSessions.inner i (connections older) := by
    rw [connections_append,inner_append]
    exact congrArg _ (inner_arrive i arrival (connections older))
  have hlabel : ∀ {e : ConnectionAuth.Happening}, e∈ConnectionAuth.recent
      (InterleavedSessions.inner i
        (connections (newer++.environment (.connection i (.arrive arrival))::older))) →
      .environment (.connection i e)∈newer := by
    intro e he
    rw [hevents] at he
    obtain ⟨_,_,hsplit⟩ := split_of_mem_own (List.mem_filter.mp (mem_of_takeWhile rfl he)).1
    obtain ⟨later,earlier,rfl,-⟩ := split_of_connections hsplit
    exact List.mem_append_right _ List.mem_cons_self
  rintro (hfresh | ⟨row,hactive,hrow⟩)
  · exact hfinds _ (hlabel hfresh) (.inl (.connection i _ _))
  · exact hfinds _ (hlabel hrow) (.inr ⟨row,hactive,.connection i _ _⟩)

/-- After an administrator has deactivated or deleted a user and evicted the
user from the cache, no check of any request or connection finds the user active
until somebody activates the user again: no request that arrives since then is
authenticated as the user, and no connection may upload for the user with a
frame that arrives since then, whatever was read before. -/
theorem deactivated_users_stay_out {j k : ℕ} {w : Write} {reply : Write.Result w}
    {between : List WebLabel} (hunopened : ∀ i, init.phases i=.unopened)
    (hconnections : ∀ i, init.shared.sync.phases i=.unopened)
    (run : Run (WebStep E F eventCodec windowCodec backend L dedupRetentionSecs) init
      (after++.session j (.call (.evict userId) ())::
        (between++.session k (.call (.write w) (.ok reply))::before)) host)
    (hw : Deactivates userId w)
    (hrevives : ∀ label∈after++between, ∀ w, Asks label w → ¬Revives userId w)
    (hcount : evictions (after++.session j (.call (.evict userId) ())::
      (between++.session k (.call (.write w) (.ok reply))::before))<UInt64.size) :
    (∀ label∈after, ¬FindsActive userId label) ∧
    (∀ newer older i request, after=newer++.session i (.arrive request)::older →
      ¬WebEvidence.Authenticated (InterleavedSessions.inner i
        (after++.session j (.call (.evict userId) ())::
          (between++.session k (.call (.write w) (.ok reply))::before))) userId) ∧
    ∀ newer older i arrival,
      after=newer++.environment (.connection i (.arrive arrival))::older →
      ¬ConnectionAuth.FoundActive (ConnectionAuth.recent (InterleavedSessions.inner i (connections
        (after++.session j (.call (.evict userId) ())::
          (between++.session k (.call (.write w) (.ok reply))::before))))) userId := by
  obtain ⟨evicted,hevict,hafter⟩ := run.split
  have hinactive : Inactive evicted.shared.server.db userId := by
    cases hevict with
    | next _ hpast taken =>
      obtain ⟨written,hwrite,hbetween⟩ := hpast.split
      have hstart : Inactive written.shared.server.db userId := by
        cases hwrite with
        | next _ hpast taken =>
          cases taken with
          | call phase effect =>
            obtain ⟨server,hattempts,rfl⟩ := effect
            show Inactive server.db userId
            rw [db_of_success hattempts]
            exact inactive_of_deactivates hw
      have hend := inactive_of_run hbetween hstart fun label hlabel =>
        hrevives label (List.mem_append_right _ hlabel)
      cases taken with
      | call phase effect =>
        cases effect
        exact hend
  have hfinds := (shut_of_run hunopened hconnections hevict hinactive hafter (fun label hlabel =>
    hrevives label (List.mem_append_left _ hlabel)) hcount).2
  refine ⟨hfinds,?_,?_⟩
  · rintro newer older i request rfl
    rw [List.append_assoc] at run ⊢
    exact not_authenticated hunopened run fun label hlabel =>
      hfinds label (List.mem_append_left _ hlabel)
  · rintro newer older i arrival rfl
    rw [List.append_assoc]
    exact not_foundActive fun label hlabel => hfinds label (List.mem_append_left _ hlabel)

end

/-- What a step of a request asks for is the write it makes. -/
theorem write_of_asks {i : ℕ} {e : WebEvidence.Happening} {w : Write} (h : Asks (.session i e) w) :
    ∃ reply, e=.call (.write w) reply := by
  obtain ⟨l,hstem,hl⟩ := h
  cases hstem with
  | @call i op reply o houtside =>
    rcases hl with hl | ⟨j,_,_,_,hl,-⟩
    · cases hl
      cases op with
      | write w' =>
        cases houtside
        exact ⟨reply,rfl⟩
      | lookup op => cases op <;> cases houtside
      | _ => cases houtside
    · cases hl

/-- Formats with the tokens of a user and of an administrator. -/
def sampleTokens : Formats :=
  {sampleFormats with decodeToken := fun now token =>
    if token="admin" then .ok ⟨"u2","j2","access",3600,0,none,none⟩
    else sampleFormats.decodeToken now token}

/-- A server with a user and an administrator. -/
def sampleStart : WebHost where
  shared := sampleHost.shared.withServer {sampleHost.shared.server with
    db := DatabaseRuns.perform .sqlite sampleAccounts (.createUser "u2" "root" "hash" "admin" 1)}
  phases _ := .unopened

/-- A request of the user. -/
def sampleTeams : Request := ⟨⟨some "Bearer token",none,"127.0.0.1"⟩,.meTeams⟩

/-- A request of the administrator to deactivate the user. -/
def sampleDeactivation : Request :=
  ⟨⟨some "Bearer admin",none,"127.0.0.1"⟩,.adminSetUserActive "u1" false⟩

/-- A request of the user that has read the status of the user, newest event
first. -/
def sampleReading : List WebEvidence.Happening :=
  [.call (.lookup (.getUserById "u1")) (.ok (some ⟨"u1","ada","hash","user",1,1,none,none,true⟩)),
    .call (.lookup .generation) 0,.call (.lookup (.getFresh "u1")) none,
    .call (.lookup (.verifyAccess "token")) (.ok ⟨"u1","j1","access",3600,0,none,none⟩),
    .arrive sampleTeams,.opened]

/-- The request of the administrator before the write, newest event first. -/
def sampleAsking : List WebEvidence.Happening :=
  [.call .timestamp 1,
    .call (.read (.getUserById "u1")) (.ok (some ⟨"u1","ada","hash","user",1,1,none,none,true⟩)),
    .call (.read (.userIsAdmin "u2")) (.ok true),
    .call (.lookup (.insertIfCurrent "u2" true 0)) (),
    .call (.lookup (.getUserById "u2"))
      (.ok (some ⟨"u2","root","hash","admin",1,1,none,none,true⟩)),
    .call (.lookup .generation) 0,.call (.lookup (.getFresh "u2")) none,
    .call (.lookup (.verifyAccess "admin")) (.ok ⟨"u2","j2","access",3600,0,none,none⟩),
    .arrive sampleDeactivation,.opened]

/-- What the user's requests do after the eviction: the first one stores the
status it has read, and another one arrives. -/
def sampleLater : List WebLabel :=
  [.session 2 (.call (.lookup (.getFresh "u1")) none),
    .session 2 (.call (.lookup (.verifyAccess "token"))
      (.ok ⟨"u1","j1","access",3600,0,none,none⟩)),
    .session 2 (.arrive sampleTeams),.session 2 .opened,
    .session 0 (.call (.lookup (.insertIfCurrent "u1" true 0)) ())]

/-- A session whose phase is known. -/
theorem run_at {init : WebHost} {history : List WebLabel} {s : App} {phases : ℕ → Phase Answer Unit}
    {phase : Phase Answer Unit} (i : ℕ) (hphase : phases i=phase)
    (run : Run (WebStep sampleEnvironment sampleTokens eventLayout.codec
      WindowStore.windowLayout.codec .sqlite sampleLibraries 2592000) init history ⟨s,phases⟩) :
    Run (WebStep sampleEnvironment sampleTokens eventLayout.codec WindowStore.windowLayout.codec
      .sqlite sampleLibraries 2592000) init history ⟨s,Function.update phases i phase⟩ := by
  rw [←hphase,Function.update_eq_self]
  exact run

/-- The server takes these steps. -/
theorem sampleDeactivated : ∃ host, Run (WebStep sampleEnvironment sampleTokens eventLayout.codec
    WindowStore.windowLayout.codec .sqlite sampleLibraries 2592000) sampleStart
    (sampleLater++.session 1 (.call (.evict "u1") ())::
      ([]++.session 1 (.call (.write (.setUserActive "u1" false 1)) (.ok true))::
        (sampleAsking.map (.session 1)++sampleReading.map (.session 0)))) host := by
  have run : Run (WebStep sampleEnvironment sampleTokens eventLayout.codec
      WindowStore.windowLayout.codec .sqlite sampleLibraries 2592000) sampleStart [] sampleStart :=
    .start
  have run := run_at 0 rfl run
  have run := opens_next run rfl
  have run := arrive_next sampleTeams run
  have run := call_next (.ok _) run ⟨True.intro,_,⟨rfl,0,rfl⟩,rfl⟩
  have run := call_next none run ⟨True.intro,_,⟨rfl,rfl⟩,rfl⟩
  have run := call_next 0 run ⟨True.intro,_,⟨rfl,rfl⟩,rfl⟩
  have run := call_next (.ok (some _)) run ⟨True.intro,_,⟨rfl,.inl rfl⟩,rfl⟩
  have run := run_at 1 rfl run
  have run := opens_next run rfl
  have run := arrive_next sampleDeactivation run
  have run := call_next (.ok _) run ⟨True.intro,_,⟨rfl,0,rfl⟩,rfl⟩
  have run := call_next none run ⟨True.intro,_,⟨rfl,rfl⟩,rfl⟩
  have run := call_next 0 run ⟨True.intro,_,⟨rfl,rfl⟩,rfl⟩
  have run := call_next (.ok (some _)) run ⟨True.intro,_,⟨rfl,.inl rfl⟩,rfl⟩
  have run := call_next () run ⟨True.intro,_,rfl,rfl⟩
  have run := call_next (.ok true) run ⟨rfl,.inl ⟨true,rfl,rfl⟩⟩
  have run := call_next (.ok (some _)) run ⟨rfl,.inl ⟨_,rfl,rfl⟩⟩
  have run := call_next (1 : Int64) run rfl
  have run := call_next (.ok true) run ⟨_,.inl ⟨rfl,rfl⟩,rfl⟩
  have run := call_next () run rfl
  have run := run_at 0 rfl run
  have run := call_next () run ⟨True.intro,_,rfl,rfl⟩
  have run := run_at 2 rfl run
  have run := opens_next run rfl
  have run := arrive_next sampleTeams run
  have run := call_next (.ok _) run ⟨True.intro,_,⟨rfl,0,rfl⟩,rfl⟩
  have run := call_next none run ⟨True.intro,_,⟨rfl,rfl⟩,rfl⟩
  exact ⟨_,run⟩

/-- Nobody is activated again in the sample run. -/
theorem sampleLater_writes : ∀ label∈sampleLater++[], ∀ w, Asks label w → ¬Revives "u1" w := by
  intro label hlabel w hasks
  obtain ⟨i,e,rfl,he⟩ : ∃ i e, label=.session i e ∧ ∀ reply, e≠.call (.write w) reply := by
    simp only [sampleLater,List.append_nil,List.mem_cons,List.not_mem_nil,or_false] at hlabel
    rcases hlabel with rfl | rfl | rfl | rfl | rfl <;>
      exact ⟨_,_,rfl,by rintro reply ⟨⟩⟩
  obtain ⟨reply,hreply⟩ := write_of_asks hasks
  exact absurd hreply (he reply)

/-- The request that read the old status does not bring it back, and the one that
arrives later is not from the user. -/
theorem deactivated_users_stay_out_sample : (∀ label∈sampleLater, ¬FindsActive "u1" label) ∧
    ¬WebEvidence.Authenticated (InterleavedSessions.inner 2
      (sampleLater++.session 1 (.call (.evict "u1") ())::
        ([]++.session 1 (.call (.write (.setUserActive "u1" false 1)) (.ok true))::
          (sampleAsking.map (.session 1)++sampleReading.map (.session 0))))) "u1" := by
  obtain ⟨host,run⟩ := sampleDeactivated
  have h := deactivated_users_stay_out (fun _ => rfl) (fun _ => rfl) run ⟨rfl,rfl⟩
    sampleLater_writes (by decide)
  exact ⟨h.1,h.2.1 [_,_] [_,_] 2 sampleTeams rfl⟩

end TokiSync.DeactivatedUsers
