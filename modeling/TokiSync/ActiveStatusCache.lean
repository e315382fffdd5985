import TokiSync.Runs
import Mathlib.Logic.Function.Basic
import Mathlib.Tactic.SplitIfs

/-!
# The cache of active statuses

A call answers from a fresh cache entry. Otherwise it loads the generation,
reads the user's row and stores what it read, if the generation is still the
same. An administrator writes the row and then evicts the entry, which starts
a new generation. The generation is a 64-bit counter that wraps around, so a
call has to see fewer evictions than the counter has values.
-/

namespace TokiSync.ActiveStatusCache

open Runs

/-- Nanoseconds for which an entry is trusted. -/
def activeCacheTtl : ℕ := 60000000000

/-- Entries with the instant they were stored at, and the generation. -/
structure ActiveCacheInner where
  /-- Entries by user. -/
  map : String → Option (Bool×ℕ)
  /-- Number of evictions, wrapping around. -/
  generation : UInt64

/-- The empty cache. -/
def ActiveCacheInner.new : ActiveCacheInner := ⟨fun _ => none,0⟩

/-- Whether an entry is trusted. -/
def isFresh (now : ℕ) (entry : Bool×ℕ) : Bool := now-entry.2<activeCacheTtl

/-- Fresh entry of a user. -/
def getFresh (cache : ActiveCacheInner) (now : ℕ) (userId : String) : Option Bool :=
  (cache.map userId).bind fun entry => if isFresh now entry then some entry.1 else none

/-- Drop the expired entries, and store a status unless there was an eviction
since it was read. -/
def insertIfCurrent (cache : ActiveCacheInner) (now : ℕ) (userId : String) (active : Bool)
    (genAtRead : UInt64) : ActiveCacheInner :=
  let map := fun u => (cache.map u).filter (isFresh now)
  if cache.generation=genAtRead then
    {cache with map := Function.update map userId (some (active,now))}
  else {cache with map := map}

/-- Drop the entry of a user and start a new generation. -/
def evict (cache : ActiveCacheInner) (userId : String) : ActiveCacheInner where
  map := Function.update cache.map userId none
  generation := cache.generation+1

/-- Progress of a call that asks for the status of a user. -/
inductive CallPhase where
  /-- Not started. -/
  | idle
  /-- No fresh entry was found. -/
  | missed (userId : String)
  /-- The generation is loaded. -/
  | loaded (userId : String) (genAtRead : UInt64)
  /-- The row is read. -/
  | read (userId : String) (genAtRead : UInt64) (active : Bool)
  /-- The call has returned, without a status when the database failed. -/
  | returned (userId : String) (result : Option Bool)

/-- Progress of a change by an administrator. -/
inductive ChangePhase where
  /-- Not started. -/
  | idle
  /-- The row is written. -/
  | written (userId : String)
  /-- The entry is evicted. -/
  | evicted

/-- Steps of calls and changes. -/
inductive CacheOp where
  /-- A call looks for a fresh entry. -/
  | lookup (i : ℕ) (userId : String)
  /-- A call loads the generation. -/
  | loadGeneration (i : ℕ)
  /-- A call reads the row. -/
  | readUser (i : ℕ)
  /-- The database fails a call. -/
  | readFails (i : ℕ)
  /-- A call sweeps the cache and stores its status. -/
  | store (i : ℕ)
  /-- A change writes the row. -/
  | setUserActive (j : ℕ) (userId : String) (active : Bool)
  /-- A change evicts the entry. -/
  | evict (j : ℕ)
  /-- Time passes. -/
  | tick (duration : ℕ)
  deriving DecidableEq

/-- State of the server. -/
structure Server where
  /-- Active column of the users' rows. -/
  users : String → Option Bool
  /-- The cache. -/
  cache : ActiveCacheInner
  /-- Current instant. -/
  now : ℕ
  /-- Progress of the calls. -/
  calls : ℕ → CallPhase
  /-- Progress of the changes. -/
  changes : ℕ → ChangePhase

/-- State before any call or change. -/
def Server.start (users : String → Option Bool) : Server :=
  ⟨users,.new,0,fun _ => .idle,fun _ => .idle⟩

/-- One step of one call or change. -/
inductive CacheStep : Server → CacheOp → Server → Prop where
  /-- A fresh entry is the answer. -/
  | hit {s : Server} {active : Bool} (i : ℕ) (userId : String) (idle : s.calls i=.idle)
      (fresh : getFresh s.cache s.now userId=some active) :
      CacheStep s (.lookup i userId)
        {s with calls := Function.update s.calls i (.returned userId (some active))}
  /-- There is no fresh entry. -/
  | miss {s : Server} (i : ℕ) (userId : String) (idle : s.calls i=.idle)
      (stale : getFresh s.cache s.now userId=none) :
      CacheStep s (.lookup i userId)
        {s with calls := Function.update s.calls i (.missed userId)}
  /-- Load the generation before the database is read. -/
  | loadGeneration {s : Server} {userId : String} (i : ℕ) (missed : s.calls i=.missed userId) :
      CacheStep s (.loadGeneration i)
        {s with calls := Function.update s.calls i (.loaded userId s.cache.generation)}
  /-- Read the row; a deleted user is inactive. -/
  | readUser {s : Server} {userId : String} {genAtRead : UInt64} (i : ℕ)
      (loaded : s.calls i=.loaded userId genAtRead) :
      CacheStep s (.readUser i)
        {s with calls :=
          Function.update s.calls i (.read userId genAtRead ((s.users userId).getD false))}
  /-- The database read fails and the call with it. -/
  | readFails {s : Server} {userId : String} {genAtRead : UInt64} (i : ℕ)
      (loaded : s.calls i=.loaded userId genAtRead) :
      CacheStep s (.readFails i)
        {s with calls := Function.update s.calls i (.returned userId none)}
  /-- Sweep, store and return. -/
  | store {s : Server} {userId : String} {genAtRead : UInt64} {active : Bool} (i : ℕ)
      (read : s.calls i=.read userId genAtRead active) :
      CacheStep s (.store i)
        {s with cache := insertIfCurrent s.cache s.now userId active genAtRead,
                calls := Function.update s.calls i (.returned userId (some active))}
  /-- Write the row of an existing user. -/
  | setUserActive {s : Server} (j : ℕ) (userId : String) (active : Bool)
      (idle : s.changes j=.idle) (present : s.users userId≠none) :
      CacheStep s (.setUserActive j userId active)
        {s with users := Function.update s.users userId (some active),
                changes := Function.update s.changes j (.written userId)}
  /-- Evict the entry of the user whose row was written. -/
  | evict {s : Server} {userId : String} (j : ℕ) (written : s.changes j=.written userId) :
      CacheStep s (.evict j)
        {s with cache := evict s.cache userId,changes := Function.update s.changes j .evicted}
  /-- Time passes. -/
  | tick {s : Server} (duration : ℕ) :
      CacheStep s (.tick duration) {s with now := s.now+duration}

/-- A write of the row of a user. -/
def WritesTo (userId : String) : CacheOp → Prop
  | .setUserActive _ userId' _ => userId'=userId
  | _ => False

/-- Number of evictions since a call loaded the generation. -/
def evictionsSince (i : ℕ) : List CacheOp → ℕ
  | [] => 0
  | .evict _::past => evictionsSince i past+1
  | .loadGeneration i'::past => if i'=i then 0 else evictionsSince i past
  | _::past => evictionsSince i past

/-- Between its load of the generation and its store, a call sees fewer
evictions than the counter has values. -/
def Prompt (op : CacheOp) (past : List CacheOp) : Prop :=
  ∀ i, op=.store i → evictionsSince i past<UInt64.size

section

variable {s t : Server} {history : List CacheOp} {users : String → Option Bool}
variable {userId : String} {active : Bool}

/-- Entries of the map. -/
theorem getFresh_eq_some (h : getFresh s.cache s.now userId=some active) :
    ∃ at', s.cache.map userId=some (active,at') := by
  unfold getFresh at h
  cases hentry : s.cache.map userId with
  | none =>
    rw [hentry] at h
    cases h
  | some entry =>
    rw [hentry,Option.bind_some] at h
    split_ifs at h
    cases h
    exact ⟨entry.2,rfl⟩

/-- A sweep invents no entry, and a store only its own. -/
theorem insertIfCurrent_entry {cache : ActiveCacheInner} {now : ℕ} {stored : String}
    {value : Bool} {genAtRead : UInt64} {entry : Bool×ℕ}
    (h : (insertIfCurrent cache now stored value genAtRead).map userId=some entry) :
    cache.map userId=some entry ∨
      (cache.generation=genAtRead ∧ stored=userId ∧ entry.1=value) := by
  have hswept : (cache.map userId).filter (isFresh now)=some entry →
      cache.map userId=some entry := by
    intro hfilter
    exact (Option.filter_eq_some_iff.mp hfilter).1
  unfold insertIfCurrent at h
  split_ifs at h with hgen
  · by_cases hu : userId=stored
    · rw [hu] at h
      dsimp only at h
      rw [Function.update_self] at h
      refine .inr ⟨hgen,hu.symm,?_⟩
      rw [← Option.some.inj h]
    · dsimp only at h
      rw [Function.update_of_ne hu] at h
      exact .inl (hswept h)
  · exact .inl (hswept h)

@[simp] theorem insertIfCurrent_generation (cache : ActiveCacheInner) (now : ℕ) (stored : String)
    (value : Bool) (genAtRead : UInt64) :
    (insertIfCurrent cache now stored value genAtRead).generation=cache.generation := by
  unfold insertIfCurrent
  split_ifs <;> rfl

/-- A call that has loaded the generation and not returned. -/
def InFlight (phase : CallPhase) (genAtRead : UInt64) : Prop :=
  ∃ userId, phase=.loaded userId genAtRead ∨ ∃ active, phase=.read userId genAtRead active

/-- The generation a call has loaded lies behind by the evictions since. -/
def Counted (history : List CacheOp) (s : Server) : Prop :=
  ∀ i genAtRead, InFlight (s.calls i) genAtRead →
    s.cache.generation=genAtRead+UInt64.ofNat (evictionsSince i history)

theorem not_inFlight_of {phase : CallPhase} {genAtRead : UInt64}
    (hloaded : ∀ userId, phase≠.loaded userId genAtRead)
    (hread : ∀ userId active, phase≠.read userId genAtRead active) :
    ¬InFlight phase genAtRead := by
  intro h
  obtain ⟨userId,h | ⟨active,h⟩⟩ := h
  · exact hloaded userId h
  · exact hread userId active h

/-- A call that moves without loading a generation is in flight only if it was. -/
theorem inFlight_update {calls : ℕ → CallPhase} {i : ℕ} {phase : CallPhase}
    (hnew : ∀ genAtRead, InFlight phase genAtRead → InFlight (calls i) genAtRead) (k : ℕ)
    (genAtRead : UInt64) (h : InFlight (Function.update calls i phase k) genAtRead) :
    InFlight (calls k) genAtRead := by
  by_cases hk : k=i
  · rw [hk,Function.update_self] at h
    rw [hk]
    exact hnew genAtRead h
  · rw [Function.update_of_ne hk] at h
    exact h

theorem Counted.keep {past : List CacheOp} {op : CacheOp} (h : Counted past s)
    (hop : ∀ i, evictionsSince i (op::past)=evictionsSince i past)
    (hgen : t.cache.generation=s.cache.generation)
    (hcalls : ∀ i genAtRead, InFlight (t.calls i) genAtRead → InFlight (s.calls i) genAtRead) :
    Counted (op::past) t := by
  intro i genAtRead hflight
  rw [hgen,hop]
  exact h i genAtRead (hcalls i genAtRead hflight)

/-- Loaded generations are counted in every run. -/
theorem counted_of_run (run : Run CacheStep (.start users) history s) : Counted history s := by
  refine Run.invariant (I:=Counted) ?_ ?_ run
  · intro i genAtRead h
    exact absurd h (not_inFlight_of (fun _ => CallPhase.noConfusion)
      (fun _ _ => CallPhase.noConfusion))
  · intro past s op t _ h hstep
    have hreturned : ∀ {userId : String} {result : Option Bool} {phase : CallPhase} (g : UInt64),
        InFlight (.returned userId result) g → InFlight phase g := by
      intro userId result phase g hflight
      exact absurd hflight (not_inFlight_of (fun _ => CallPhase.noConfusion)
        (fun _ _ => CallPhase.noConfusion))
    cases hstep with
    | hit i userId idle fresh => exact h.keep (fun _ => rfl) rfl (inFlight_update hreturned)
    | miss i userId idle stale =>
      refine h.keep (fun _ => rfl) rfl (inFlight_update ?_)
      intro g hflight
      exact absurd hflight (not_inFlight_of (fun _ => CallPhase.noConfusion)
        (fun _ _ => CallPhase.noConfusion))
    | @loadGeneration userId i missed =>
      intro k g hflight
      by_cases hk : k=i
      · dsimp only at hflight
        rw [hk,Function.update_self] at hflight
        obtain ⟨_,hloaded | ⟨_,hread⟩⟩ := hflight
        · cases hloaded
          rw [hk,evictionsSince,if_pos rfl]
          exact (UInt64.add_zero _).symm
        · cases hread
      · dsimp only at hflight
        rw [Function.update_of_ne hk] at hflight
        rw [evictionsSince,if_neg (Ne.symm hk)]
        exact h k g hflight
    | @readUser userId genAtRead i loaded =>
      refine h.keep (fun _ => rfl) rfl (inFlight_update ?_)
      intro g hflight
      obtain ⟨_,hloaded | ⟨_,hread⟩⟩ := hflight
      · cases hloaded
      · cases hread
        exact ⟨userId,.inl loaded⟩
    | readFails i loaded => exact h.keep (fun _ => rfl) rfl (inFlight_update hreturned)
    | store i read =>
      exact h.keep (fun _ => rfl) (insertIfCurrent_generation _ _ _ _ _)
        (inFlight_update hreturned)
    | setUserActive j userId active idle present =>
      exact h.keep (fun _ => rfl) rfl (fun _ _ => id)
    | evict j written =>
      intro i g hflight
      rw [evictionsSince,UInt64.ofNat_add,← UInt64.add_assoc,← h i g hflight]
      rfl
    | tick duration => exact h.keep (fun _ => rfl) rfl (fun _ _ => id)

/-- Only a write of a row changes it. -/
theorem users_step {op : CacheOp} (h : CacheStep s op t) (hop : ¬WritesTo userId op) :
    t.users userId=s.users userId := by
  cases h with
  | setUserActive j written value idle present =>
    have hne : userId≠written := fun heq => hop heq.symm
    exact Function.update_of_ne hne _ _
  | _ => rfl

/-- A change that has written stays there until it evicts. -/
theorem change_step {op : CacheOp} {j : ℕ} (h : CacheStep s op t)
    (hwritten : s.changes j=.written userId ∨ s.changes j=.evicted) :
    t.changes j=.written userId ∨ t.changes j=.evicted := by
  cases h with
  | setUserActive k written value idle present =>
    have hne : j≠k := by
      intro heq
      rw [heq,idle] at hwritten
      simp only [reduceCtorEq,or_self] at hwritten
    dsimp only
    rw [Function.update_of_ne hne]
    exact hwritten
  | evict k written =>
    by_cases hk : j=k
    · rw [hk]
      exact .inr (Function.update_self k _ _)
    · dsimp only
      rw [Function.update_of_ne hk]
      exact hwritten
  | _ => exact hwritten

/-- After a write, until the next one, the row is as written. -/
theorem written_of_run {init : Server} {j : ℕ} {newer older : List CacheOp}
    (run : Run CacheStep init (newer++.setUserActive j userId active::older) s)
    (hlast : ∀ op∈newer, ¬WritesTo userId op) :
    s.users userId=some active ∧ (s.changes j=.written userId ∨ s.changes j=.evicted) := by
  induction newer generalizing s with
  | nil =>
    cases run with
    | next _ run taken =>
      cases taken with
      | setUserActive _ _ _ idle present =>
        exact ⟨Function.update_self userId _ _,.inl (Function.update_self j _ _)⟩
  | cons op newer ih =>
    cases run with
    | next _ run taken =>
      obtain ⟨husers,hchange⟩ := ih run (fun op hop => hlast op (List.mem_cons_of_mem _ hop))
      refine ⟨?_,change_step taken hchange⟩
      rw [users_step taken (hlast op List.mem_cons_self)]
      exact husers

/-- A call that loaded the generation before an eviction counts it. -/
theorem evictionsSince_pos {i j : ℕ} {after older : List CacheOp}
    (h : .loadGeneration i∉after) : 0<evictionsSince i (after++.evict j::older) := by
  induction after with
  | nil => exact Nat.succ_pos _
  | cons op after ih =>
    rw [List.mem_cons,not_or] at h
    have ih := ih h.2
    cases op with
    | loadGeneration k =>
      have hk : k≠i := fun heq => h.1 (by rw [heq])
      rw [List.cons_append,evictionsSince,if_neg hk]
      exact ih
    | evict k => exact Nat.succ_pos _
    | _ => exact ih

/-- What holds of a user's status from a complete change to the next write. -/
structure Settled (userId : String) (active : Bool) (after : List CacheOp) (s : Server) :
    Prop where
  /-- The row is as written. -/
  users : s.users userId=some active
  /-- So is an entry. -/
  entry : ∀ entry, s.cache.map userId=some entry → entry.1=active
  /-- So is what calls of the current generation have read. -/
  read : ∀ i genAtRead value, s.calls i=.read userId genAtRead value →
    .loadGeneration i∈after → value=active
  /-- So is the answer of calls that started since. -/
  call : ∀ i, .lookup i userId∈after → s.calls i=.missed userId ∨
    (∃ genAtRead, s.calls i=.loaded userId genAtRead) ∨
    (∃ genAtRead, s.calls i=.read userId genAtRead active) ∨
    ∃ result, s.calls i=.returned userId result ∧ (result=none ∨ result=some active)

/-- The eviction of a change settles the status. -/
theorem settled_evict {j : ℕ} (h : CacheStep s (.evict j) t) (husers : s.users userId=some active)
    (hchange : s.changes j=.written userId ∨ s.changes j=.evicted) :
    Settled userId active [] t := by
  cases h with
  | evict _ written =>
    rw [written] at hchange
    rcases hchange with hchange | hchange
    · cases hchange
      refine ⟨husers,?_,fun _ _ _ _ h => absurd h List.not_mem_nil,
        fun _ h => absurd h List.not_mem_nil⟩
      intro entry hentry
      unfold evict at hentry
      dsimp only at hentry
      rw [Function.update_self] at hentry
      cases hentry
    · cases hchange

/-- A call that has moved from one phase to another. -/
theorem Settled.move {after : List CacheOp} (h : Settled userId active after s) {op : CacheOp}
    {i : ℕ} {phase : CallPhase} (hcalls : t.calls=Function.update s.calls i phase)
    (husers : t.users userId=some active)
    (hentry : ∀ entry, t.cache.map userId=some entry → entry.1=active)
    (hload : ∀ k, k≠i → op≠.loadGeneration k) (hlookup : ∀ k u, k≠i → op≠.lookup k u)
    (hread : ∀ genAtRead value, phase=.read userId genAtRead value →
      .loadGeneration i∈op::after → value=active)
    (hcall : .lookup i userId∈op::after → phase=.missed userId ∨
      (∃ genAtRead, phase=.loaded userId genAtRead) ∨
      (∃ genAtRead, phase=.read userId genAtRead active) ∨
      ∃ result, phase=.returned userId result ∧ (result=none ∨ result=some active)) :
    Settled userId active (op::after) t := by
  refine ⟨husers,hentry,?_,?_⟩
  · intro k genAtRead value hphase hmem
    rw [hcalls] at hphase
    by_cases hk : k=i
    · rw [hk,Function.update_self] at hphase
      rw [hk] at hmem
      exact hread genAtRead value hphase hmem
    · rw [Function.update_of_ne hk] at hphase
      exact h.read k genAtRead value hphase
        ((List.mem_cons.mp hmem).resolve_left (fun heq => hload k hk heq.symm))
  · intro k hmem
    rw [hcalls]
    by_cases hk : k=i
    · rw [hk,Function.update_self]
      rw [hk] at hmem
      exact hcall hmem
    · rw [Function.update_of_ne hk]
      exact h.call k
        ((List.mem_cons.mp hmem).resolve_left (fun heq => hlookup k userId hk heq.symm))

/-- A step of no call. -/
theorem Settled.stay {after : List CacheOp} (h : Settled userId active after s) {op : CacheOp}
    (hcalls : t.calls=s.calls) (husers : t.users userId=some active)
    (hentry : ∀ entry, t.cache.map userId=some entry → entry.1=active)
    (hload : ∀ k, op≠.loadGeneration k) (hlookup : ∀ k u, op≠.lookup k u) :
    Settled userId active (op::after) t := by
  refine ⟨husers,hentry,?_,?_⟩
  · intro k genAtRead value hphase hmem
    rw [hcalls] at hphase
    exact h.read k genAtRead value hphase
      ((List.mem_cons.mp hmem).resolve_left (fun heq => hload k heq.symm))
  · intro k hmem
    rw [hcalls]
    exact h.call k ((List.mem_cons.mp hmem).resolve_left (fun heq => hlookup k userId heq.symm))

/-- A call starts; it misses, or returns the status. -/
theorem Settled.lookup {after : List CacheOp} (h : Settled userId active after s) {i : ℕ}
    {u : String} {phase : CallPhase} (idle : s.calls i=.idle)
    (hphase : ∀ genAtRead value, phase≠.read userId genAtRead value)
    (hanswer : u=userId → phase=.missed userId ∨ phase=.returned userId (some active)) :
    Settled userId active (.lookup i u::after)
      {s with calls := Function.update s.calls i phase} := by
  refine h.move rfl h.users h.entry (fun _ _ => CacheOp.noConfusion) ?_ ?_ ?_
  · intro k u' hk heq
    exact hk (CacheOp.lookup.inj heq).1.symm
  · intro genAtRead value hread
    exact absurd hread (hphase genAtRead value)
  · intro hmem
    rcases List.mem_cons.mp hmem with heq | hmem
    · rcases hanswer (CacheOp.lookup.inj heq).2.symm with hmissed | hreturned
      · exact .inl hmissed
      · exact .inr (.inr (.inr ⟨_,hreturned,.inr rfl⟩))
    · have hcall := h.call i hmem
      rw [idle] at hcall
      simp at hcall

/-- A generation that is still the one loaded saw no eviction. -/
theorem eq_zero_of_generation {generation : UInt64} {n : ℕ}
    (h : generation=generation+UInt64.ofNat n) (hn : n<UInt64.size) : n=0 := by
  have hzero : UInt64.ofNat n=0 := UInt64.left_eq_add.mp h
  have hmod : n%UInt64.size=0 := by
    have htoNat := congrArg UInt64.toNat hzero
    rw [UInt64.toNat_ofNat'] at htoNat
    exact htoNat
  rw [Nat.mod_eq_of_lt hn] at hmod
  exact hmod

/-- An entry stored by a call is as written: its generation is the one loaded,
so there was no eviction since, and the row was read after the change. -/
theorem Settled.store_entry {after older : List CacheOp} {i j : ℕ} {u : String}
    {genAtRead : UInt64} {value : Bool} (h : Settled userId active after s)
    (read : s.calls i=.read u genAtRead value) (hcounted : Counted (after++.evict j::older) s)
    (hprompt : Prompt (.store i) (after++.evict j::older)) {entry : Bool×ℕ}
    (hentry : (insertIfCurrent s.cache s.now u value genAtRead).map userId=some entry) :
    entry.1=active := by
  rcases insertIfCurrent_entry hentry with hold | ⟨hgen,hu,hvalue⟩
  · exact h.entry entry hold
  · have hcount := hcounted i genAtRead ⟨u,.inr ⟨value,read⟩⟩
    rw [hgen] at hcount
    have hnone := eq_zero_of_generation hcount (hprompt i rfl)
    have hmem : .loadGeneration i∈after := by
      by_contra hnot
      have hpos : 0<evictionsSince i (after++.evict j::older) := evictionsSince_pos hnot
      omega
    rw [hvalue]
    rw [hu] at read
    exact h.read i genAtRead value read hmem

/-- Until the next write every step keeps the status settled. -/
theorem Settled.step {after older : List CacheOp} {j : ℕ} {op : CacheOp}
    (h : Settled userId active after s) (hstep : CacheStep s op t) (hop : ¬WritesTo userId op)
    (hcounted : Counted (after++.evict j::older) s) (hprompt : Prompt op (after++.evict j::older)) :
    Settled userId active (op::after) t := by
  have husers : t.users userId=some active := by
    rw [users_step hstep hop]
    exact h.users
  cases hstep with
  | hit i u idle fresh =>
    refine h.lookup idle (fun _ _ => CallPhase.noConfusion) ?_
    rintro rfl
    obtain ⟨at',hentry⟩ := getFresh_eq_some fresh
    exact .inr (congrArg (CallPhase.returned u) (congrArg some (h.entry _ hentry)))
  | miss i u idle stale =>
    refine h.lookup idle (fun _ _ => CallPhase.noConfusion) ?_
    rintro rfl
    exact .inl rfl
  | @loadGeneration u i missed =>
    refine h.move rfl husers h.entry ?_ (fun _ _ _ => CacheOp.noConfusion) ?_ ?_
    · intro k hk heq
      exact hk (CacheOp.loadGeneration.inj heq).symm
    · intro _ _ hphase
      cases hphase
    · intro hmem
      have hcall := h.call i ((List.mem_cons.mp hmem).resolve_left CacheOp.noConfusion)
      rw [missed] at hcall
      have hu : u=userId := by simpa using hcall
      exact .inr (.inl ⟨_,by rw [hu]⟩)
  | @readUser u genAtRead i loaded =>
    refine h.move rfl husers h.entry (fun _ _ => CacheOp.noConfusion)
      (fun _ _ _ => CacheOp.noConfusion) ?_ ?_
    · intro _ _ hphase _
      cases hphase
      rw [h.users]
      rfl
    · intro hmem
      have hcall := h.call i ((List.mem_cons.mp hmem).resolve_left CacheOp.noConfusion)
      rw [loaded] at hcall
      have hu : u=userId := by simpa using hcall
      refine .inr (.inr (.inl ⟨genAtRead,?_⟩))
      rw [hu,h.users]
      rfl
  | @readFails u genAtRead i loaded =>
    refine h.move rfl husers h.entry (fun _ _ => CacheOp.noConfusion)
      (fun _ _ _ => CacheOp.noConfusion) ?_ ?_
    · intro _ _ hphase
      cases hphase
    · intro hmem
      have hcall := h.call i ((List.mem_cons.mp hmem).resolve_left CacheOp.noConfusion)
      rw [loaded] at hcall
      have hu : u=userId := by simpa using hcall
      exact .inr (.inr (.inr ⟨none,by rw [hu],.inl rfl⟩))
  | @store u genAtRead value i read =>
    refine h.move rfl husers (fun entry => h.store_entry read hcounted hprompt)
      (fun _ _ => CacheOp.noConfusion) (fun _ _ _ => CacheOp.noConfusion) ?_ ?_
    · intro _ _ hphase
      cases hphase
    · intro hmem
      have hcall := h.call i ((List.mem_cons.mp hmem).resolve_left CacheOp.noConfusion)
      rw [read] at hcall
      have hu : u=userId ∧ value=active := by simpa using hcall
      exact .inr (.inr (.inr ⟨_,by rw [hu.1],.inr (by rw [hu.2])⟩))
  | setUserActive k u value idle present =>
    exact h.stay rfl husers h.entry (fun _ => CacheOp.noConfusion)
      (fun _ _ => CacheOp.noConfusion)
  | @evict u k written =>
    refine h.stay rfl husers ?_ (fun _ => CacheOp.noConfusion) (fun _ _ => CacheOp.noConfusion)
    intro entry hentry
    unfold ActiveStatusCache.evict at hentry
    dsimp only at hentry
    by_cases hu : userId=u
    · rw [hu,Function.update_self] at hentry
      cases hentry
    · rw [Function.update_of_ne hu] at hentry
      exact h.entry entry hentry
  | tick duration =>
    exact h.stay rfl husers h.entry (fun _ => CacheOp.noConfusion)
      (fun _ _ => CacheOp.noConfusion)

/-- After a complete change, until the next write, the status is settled. -/
theorem settled_of_run {j : ℕ} {after mid before : List CacheOp}
    (run : Run CacheStep (.start users)
      (after++.evict j::(mid++.setUserActive j userId active::before)) s)
    (hprompt : Always Prompt (after++.evict j::(mid++.setUserActive j userId active::before)))
    (hlast : ∀ op∈after++mid, ¬WritesTo userId op) : Settled userId active after s := by
  induction after generalizing s with
  | nil =>
    cases run with
    | next _ run taken =>
      obtain ⟨husers,hchange⟩ := written_of_run run hlast
      exact settled_evict taken husers hchange
  | cons op after ih =>
    cases run with
    | next _ run taken =>
      have hsettled := ih run hprompt.2 (fun op hop => hlast op (List.mem_cons_of_mem _ hop))
      exact hsettled.step taken (hlast op List.mem_cons_self) (counted_of_run run) hprompt.1

/-- Once a change of a user's status is complete, calls that start before the
next one return the new status. -/
theorem serves_current_status {i j : ℕ} {after mid before : List CacheOp} {value : Bool}
    (run : Run CacheStep (.start users)
      (after++.evict j::(mid++.setUserActive j userId active::before)) s)
    (hprompt : Always Prompt (after++.evict j::(mid++.setUserActive j userId active::before)))
    (hlast : ∀ op∈after++mid, ¬WritesTo userId op) (hstarted : .lookup i userId∈after)
    (hreturned : s.calls i=.returned userId (some value)) : value=active := by
  have hcall := (settled_of_run run hprompt hlast).call i hstarted
  rw [hreturned] at hcall
  simpa using hcall

/-- A user is deactivated, and a call answers. -/
theorem serves_current_status_deactivated :
    ∃ s value, Run CacheStep (.start fun _ => some true)
      ([.store 0,.readUser 0,.loadGeneration 0,.lookup 0 "u"]++
        .evict 0::([]++.setUserActive 0 "u" false::[])) s ∧
      s.calls 0=.returned "u" (some value) ∧ value=false := by
  have run : Run CacheStep (.start fun _ => some true)
      ([.store 0,.readUser 0,.loadGeneration 0,.lookup 0 "u"]++
        .evict 0::([]++.setUserActive 0 "u" false::[])) _ :=
    .next _ (.next _ (.next _ (.next _ (.next _ (.next _ .start
      (.setUserActive 0 "u" false rfl (by decide))) (.evict 0 rfl)) (.miss 0 "u" rfl rfl))
      (.loadGeneration 0 rfl)) (.readUser 0 rfl)) (.store 0 rfl)
  refine ⟨_,_,run,rfl,?_⟩
  refine serves_current_status (i := 0) run ?_ ?_ (by decide) rfl
  · refine ⟨?_,?_,?_,?_,?_,?_,trivial⟩
    · intro i hi
      cases hi
      decide
    all_goals exact fun _ => CacheOp.noConfusion
  · intro op hop
    simp only [List.append_nil,List.mem_cons,List.not_mem_nil,or_false] at hop
    rcases hop with rfl | rfl | rfl | rfl
    all_goals exact id

/-- Changes of one user, one after the other. -/
def churn : ℕ → List CacheOp
  | 0 => []
  | n+1 => .evict (n+1)::.setUserActive (n+1) "v" true::churn n

/-- Changes of a user advance the generation and touch nothing of another. -/
theorem churn_run {init base : Server} {history : List CacheOp}
    (run : Run CacheStep init history base) (hidle : ∀ k, 0<k → base.changes k=.idle)
    (hpresent : base.users "v"≠none) (n : ℕ) :
    ∃ s, Run CacheStep init (churn n++history) s ∧ s.calls=base.calls ∧ s.now=base.now ∧
      s.cache.map "u"=base.cache.map "u" ∧
      s.cache.generation=base.cache.generation+UInt64.ofNat n ∧ s.users "v"≠none ∧
      ∀ k, n<k → s.changes k=.idle := by
  induction n with
  | zero => exact ⟨base,run,rfl,rfl,rfl,(UInt64.add_zero _).symm,hpresent,hidle⟩
  | succ n ih =>
    obtain ⟨s,hrun,hcalls,hnow,hmap,hgen,husers,hchanges⟩ := ih
    have hwrite := CacheStep.setUserActive (n+1) "v" true (hchanges (n+1) (Nat.lt_succ_self n))
      husers
    refine ⟨_,.next _ (.next _ hrun hwrite) (.evict (n+1) (Function.update_self (n+1) _ _)),
      hcalls,hnow,?_,?_,?_,?_⟩
    · have hne : "u"≠"v" := by decide
      rw [← hmap]
      exact Function.update_of_ne hne none s.cache.map
    · rw [UInt64.ofNat_add,← UInt64.add_assoc,← hgen]
      rfl
    · dsimp only
      rw [Function.update_self]
      exact Option.some_ne_none true
    · intro k hk
      dsimp only
      rw [Function.update_of_ne (by omega),Function.update_of_ne (by omega)]
      exact hchanges k (by omega)

/-- A call that waits until the counter has wrapped around revives the status
from before a change. -/
theorem wrapped_generation :
    ¬∀ (users : String → Option Bool) (s : Server) (userId : String) (active value : Bool)
      (i j : ℕ) (after mid before : List CacheOp),
      Run CacheStep (.start users) (after++.evict j::(mid++.setUserActive j userId active::before))
        s → (∀ op∈after++mid, ¬WritesTo userId op) → .lookup i userId∈after →
      s.calls i=.returned userId (some value) → value=active := by
  intro h
  have base : Run CacheStep (.start fun _ => some true)
      (.evict 0::([]++.setUserActive 0 "u" false::
        [.readUser 0,.loadGeneration 0,.lookup 0 "u"])) _ :=
    .next _ (.next _ (.next _ (.next _ (.next _ .start (.miss 0 "u" rfl rfl))
      (.loadGeneration 0 rfl)) (.readUser 0 rfl)) (.setUserActive 0 "u" false rfl (by decide)))
      (.evict 0 rfl)
  obtain ⟨s,run,hcalls,hnow,_,hgen,_⟩ := churn_run base
    (fun k hk => (Function.update_of_ne (Nat.ne_of_gt hk) _ _).trans
      (Function.update_of_ne (Nat.ne_of_gt hk) _ _)) (by decide) (UInt64.size-1)
  have hread : s.calls 0=.read "u" 0 true := by
    rw [hcalls]
    rfl
  have hwrapped : s.cache.generation=0 := by
    rw [hgen]
    decide +kernel
  have hfresh : ∀ now, getFresh (insertIfCurrent s.cache now "u" true 0) now "u"=some true := by
    intro now
    unfold insertIfCurrent getFresh
    rw [if_pos hwrapped]
    dsimp only
    rw [Function.update_self,Option.bind_some]
    have hnow : isFresh now (true,now)=true := by
      unfold isFresh
      simp [activeCacheTtl]
    rw [if_pos hnow]
  have hidle : (Function.update s.calls 0 (.returned "u" (some true))) 1=.idle := by
    rw [Function.update_of_ne (by decide),hcalls]
    rfl
  have hrun := Run.next _ (Run.next _ run (.store 0 hread)) (.hit 1 "u" hidle (hfresh s.now))
  have hchurn : ∀ n, ∀ op∈churn n, ¬WritesTo "u" op := by
    intro n
    induction n with
    | zero => exact fun op hop => absurd hop List.not_mem_nil
    | succ n ih =>
      intro op hop
      rcases List.mem_cons.mp hop with heq | hop
      · rw [heq]
        exact id
      · rcases List.mem_cons.mp hop with heq | hop
        · have hne : ¬"v"="u" := by decide
          rw [heq]
          exact hne
        · exact ih op hop
  have hlast : ∀ op∈(.lookup 1 "u"::.store 0::churn (UInt64.size-1))++[], ¬WritesTo "u" op := by
    intro op hop
    rw [List.append_nil] at hop
    rcases List.mem_cons.mp hop with heq | hop
    · rw [heq]
      exact id
    · rcases List.mem_cons.mp hop with heq | hop
      · rw [heq]
        exact id
      · exact hchurn _ op hop
  have hreturned : Function.update (Function.update s.calls 0 (.returned "u" (some true))) 1
      (.returned "u" (some true)) 1=.returned "u" (some true) := Function.update_self 1 _ _
  have hvalue := h (fun _ => some true) _ "u" false true 1 0
    (.lookup 1 "u"::.store 0::churn (UInt64.size-1)) [] _ hrun hlast List.mem_cons_self hreturned
  cases hvalue

end

end TokiSync.ActiveStatusCache
