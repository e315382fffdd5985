import TokiSync.SweptTables
import Std.Data.ExtTreeMap

/-!
# The guard against guessing

The guard counts failures per client address and user name. A failure counts
in the window that the first one opened; when there are as many as attempts
are allowed, the pair is locked for the lockout period. A check refuses a
locked pair. The map is swept when a check finds the last sweep a minute ago
and when a failure finds the map large. Instants and durations are in
nanoseconds.
-/

namespace TokiSync.LoginGuard

/-- Duration of a number of seconds. -/
def fromSecs (secs : ℕ) : ℕ := secs*1000000000

/-- Whole seconds of a duration. -/
def asSecs (duration : ℕ) : ℕ := duration/1000000000

/-- Failures of one pair. -/
structure Entry where
  /-- Failures in the window. -/
  count : UInt32
  /-- Instant that opened the window. -/
  firstAttempt : ℕ
  /-- Instant at which a lock ends. -/
  lockedUntil : Option ℕ

/-- The guard. -/
structure BruteForceGuard where
  /-- Entries by key. -/
  inner : Std.ExtTreeMap String Entry compare
  /-- Failures that lock a pair. -/
  maxAttempts : UInt32
  /-- Duration of a window. -/
  window : ℕ
  /-- Duration of a lock. -/
  lockout : ℕ
  /-- Instant of the last periodic sweep. -/
  lastSweep : ℕ

/-- Seconds between periodic sweeps. -/
def sweepSecs : ℕ := 60

/-- Number of entries above which a failure sweeps. -/
def largeMap : ℕ := 10000

/-- A guard without entries. -/
def BruteForceGuard.new (maxAttempts : UInt32) (windowSecs lockoutSecs now : ℕ) :
    BruteForceGuard where
  inner := ∅
  maxAttempts := maxAttempts
  window := fromSecs windowSecs
  lockout := fromSecs lockoutSecs
  lastSweep := now

/-- Key of an address and a user name. -/
def guardKey (ip username : String) : String := ip++":"++username

/-- Whether a sweep keeps an entry: its lock has not ended or, without a lock,
its window is not over. -/
def Entry.isLive (window now : ℕ) (entry : Entry) : Bool :=
  match entry.lockedUntil with
  | some lockEnd => now<lockEnd
  | none => now-entry.firstAttempt≤window

/-- Drop the entries that are over. -/
def BruteForceGuard.sweep (g : BruteForceGuard) (now : ℕ) : BruteForceGuard :=
  {g with inner := g.inner.filter fun _ entry => entry.isLive g.window now}

/-- Whether a check sweeps first. -/
def BruteForceGuard.sweepDue (g : BruteForceGuard) (now : ℕ) : Bool :=
  now-g.lastSweep>fromSecs sweepSecs

/-- The answer to a pair with the given end of a lock. -/
def lockAnswer (now : ℕ) : Option ℕ → Except ℕ Unit
  | some lockEnd => if now<lockEnd then .error (asSecs (lockEnd-now)+1) else .ok ()
  | none => .ok ()

/-- Whether a pair may try, else for how many seconds it is locked. -/
def BruteForceGuard.check (g : BruteForceGuard) (now : ℕ) (ip username : String) :
    BruteForceGuard×Except ℕ Unit :=
  let swept := if g.sweepDue now then {g.sweep now with lastSweep := now} else g
  (swept,lockAnswer now (swept.inner[guardKey ip username]?.bind Entry.lockedUntil))

/-- Entry of a pair after one more failure. -/
def BruteForceGuard.failedEntry (g : BruteForceGuard) (now : ℕ) (held : Option Entry) : Entry :=
  let entry := held.getD ⟨0,now,none⟩
  let current := if now-entry.firstAttempt>g.window then ⟨0,now,none⟩ else entry
  let counted := {current with count := current.count+1}
  if counted.count≥g.maxAttempts then {counted with lockedUntil := some (now+g.lockout)}
  else counted

/-- The guard with one more failure of a pair, before any sweep. -/
def BruteForceGuard.countFailure (g : BruteForceGuard) (now : ℕ) (ip username : String) :
    BruteForceGuard :=
  {g with
    inner := g.inner.insert (guardKey ip username)
      (g.failedEntry now g.inner[guardKey ip username]?)}

/-- Count a failure; the answer says for how long it locked the pair. -/
def BruteForceGuard.recordFailure (g : BruteForceGuard) (now : ℕ) (ip username : String) :
    BruteForceGuard×Except ℕ Unit :=
  let counted := g.countFailure now ip username
  (if counted.inner.size>largeMap then counted.sweep now else counted,
    if (g.failedEntry now g.inner[guardKey ip username]?).count≥g.maxAttempts then
      .error (asSecs g.lockout)
    else .ok ())

/-- Forget the failures of a pair. -/
def BruteForceGuard.recordSuccess (g : BruteForceGuard) (ip username : String) :
    BruteForceGuard :=
  {g with inner := g.inner.erase (guardKey ip username)}

/-- Endpoints that ask the guard. -/
inductive Endpoint where
  /-- A login with a user name. -/
  | login (username : String)
  /-- A registration. -/
  | register
  /-- A refresh of a token. -/
  | tokenRefresh
  /-- A request for a device code. -/
  | deviceCode
  /-- The approval of a device code. -/
  | deviceApprove
  deriving DecidableEq

/-- The user name that an endpoint passes to the guard. -/
def Endpoint.username : Endpoint → String
  | .login username => username
  | .register => "__register__"
  | .tokenRefresh => "__refresh__"
  | .deviceCode => "__device_code__"
  | .deviceApprove => "__device_approve__"

/-- Who asks the guard. -/
structure Subject where
  /-- Client address, or the user's id for an approval. -/
  ip : String
  /-- Endpoint that asks. -/
  endpoint : Endpoint
  deriving DecidableEq

/-- Key of a subject. -/
def Subject.key (subject : Subject) : String := guardKey subject.ip subject.endpoint.username

/-- Calls of the guard by the handlers. -/
inductive GuardCall where
  /-- Whether the subject may try. -/
  | check (now : ℕ) (subject : Subject)
  /-- The subject has failed. -/
  | recordFailure (now : ℕ) (subject : Subject)
  /-- The subject has succeeded. -/
  | recordSuccess (now : ℕ) (subject : Subject)
  /-- A sweep. -/
  | sweep (now : ℕ)
  deriving DecidableEq

/-- Instant of a call. -/
def GuardCall.now : GuardCall → ℕ
  | .check now _ => now
  | .recordFailure now _ => now
  | .recordSuccess now _ => now
  | .sweep now => now

/-- Subject of a call. -/
def GuardCall.subject? : GuardCall → Option Subject
  | .check _ subject => some subject
  | .recordFailure _ subject => some subject
  | .recordSuccess _ subject => some subject
  | .sweep _ => none

/-- The guard after a call. -/
def BruteForceGuard.after (g : BruteForceGuard) : GuardCall → BruteForceGuard
  | .check now subject => (g.check now subject.ip subject.endpoint.username).1
  | .recordFailure now subject => (g.recordFailure now subject.ip subject.endpoint.username).1
  | .recordSuccess _ subject => g.recordSuccess subject.ip subject.endpoint.username
  | .sweep now => g.sweep now

/-- The answer to a check. -/
def BruteForceGuard.answer (g : BruteForceGuard) (now : ℕ) (subject : Subject) : Except ℕ Unit :=
  (g.check now subject.ip subject.endpoint.username).2

/-- The guard that a call sweeps, if it sweeps. -/
def BruteForceGuard.swept? (g : BruteForceGuard) : GuardCall → Option BruteForceGuard
  | .check now _ => if g.sweepDue now then some g else none
  | .recordFailure now subject =>
    let counted := g.countFailure now subject.ip subject.endpoint.username
    if counted.inner.size>largeMap then some counted else none
  | .recordSuccess _ _ => none
  | .sweep _ => some g

/-- What a call makes of the entry of a key, apart from a sweep. -/
def BruteForceGuard.entryAfter (g : BruteForceGuard) (key : String) (held : Option Entry) :
    GuardCall → Option Entry
  | .recordFailure now subject => if subject.key=key then some (g.failedEntry now held) else held
  | .recordSuccess _ subject => if subject.key=key then none else held
  | _ => held

section

variable {g : BruteForceGuard} {key : String} {now : ℕ}

/-- A sweep keeps the live entry of a key. -/
theorem getElem?_sweep : (g.sweep now).inner[key]?=
    g.inner[key]?.filter fun entry => entry.isLive g.window now := by
  rw [BruteForceGuard.sweep,Std.ExtTreeMap.getElem?_filter']

/-- A failure writes the entry of its key. -/
theorem getElem?_countFailure (ip username : String) :
    (g.countFailure now ip username).inner[key]?=
      if guardKey ip username=key then some (g.failedEntry now g.inner[key]?)
      else g.inner[key]? := by
  rw [BruteForceGuard.countFailure,Std.ExtTreeMap.getElem?_insert]
  simp only [Std.LawfulEqCmp.compare_eq_iff_eq]
  split_ifs with h
  · rw [h]
  · rfl

/-- A call with another key makes no difference to the entry. -/
theorem entryAfter_of_ne {held : Option Entry} {c : GuardCall}
    (hother : ∀ caller∈c.subject?, caller.key≠key) : g.entryAfter key held c=held := by
  cases c with
  | check now caller => rfl
  | recordFailure now caller => exact if_neg (hother caller rfl)
  | recordSuccess now caller => exact if_neg (hother caller rfl)
  | sweep now => rfl

/-- The guard that a call sweeps holds the entry that the call makes. -/
theorem getElem?_swept {c : GuardCall} {swept : BruteForceGuard} (h : g.swept? c=some swept)
    (key : String) : swept.inner[key]?=g.entryAfter key g.inner[key]? c := by
  cases c with
  | check now caller =>
    rw [BruteForceGuard.swept?] at h
    split_ifs at h
    cases h
    rfl
  | recordFailure now caller =>
    simp only [BruteForceGuard.swept?] at h
    split_ifs at h
    cases h
    exact getElem?_countFailure _ _
  | recordSuccess now caller => cases h
  | sweep now =>
    cases h
    rfl

/-- What a call leaves under a key: the entry it makes, unless it sweeps and
the entry is over. -/
theorem getElem?_after (g : BruteForceGuard) (c : GuardCall) (key : String) :
    (g.after c).inner[key]?=if (g.swept? c).isSome then
        (g.entryAfter key g.inner[key]? c).filter fun entry => entry.isLive g.window c.now
      else g.entryAfter key g.inner[key]? c := by
  cases c with
  | check now subject =>
    simp only [BruteForceGuard.after,BruteForceGuard.check,BruteForceGuard.swept?,
      BruteForceGuard.entryAfter,GuardCall.now]
    split_ifs with hdue hsome hsome
    · exact getElem?_sweep
    · exact absurd rfl hsome
    · cases hsome
    · rfl
  | recordFailure now subject =>
    have hcounted : (g.countFailure now subject.ip subject.endpoint.username).inner[key]?=
        g.entryAfter key g.inner[key]? (.recordFailure now subject) := getElem?_countFailure _ _
    rw [←hcounted]
    simp only [BruteForceGuard.after,BruteForceGuard.recordFailure,BruteForceGuard.swept?]
    split_ifs with hlarge hsome hsome
    · exact getElem?_sweep
    · exact absurd rfl hsome
    · cases hsome
    · rfl
  | recordSuccess now subject =>
    simp only [BruteForceGuard.after,BruteForceGuard.recordSuccess,BruteForceGuard.swept?,
      BruteForceGuard.entryAfter,Subject.key,Std.ExtTreeMap.getElem?_erase,
      Std.LawfulEqCmp.compare_eq_iff_eq]
    rfl
  | sweep now => exact getElem?_sweep

/-- The settings of the guard do not change. -/
theorem settings_after (c : GuardCall) : (g.after c).maxAttempts=g.maxAttempts ∧
    (g.after c).window=g.window ∧ (g.after c).lockout=g.lockout := by
  cases c with
  | check now subject =>
    simp only [BruteForceGuard.after,BruteForceGuard.check]
    split_ifs
    · exact ⟨rfl,rfl,rfl⟩
    · exact ⟨rfl,rfl,rfl⟩
  | recordFailure now subject =>
    simp only [BruteForceGuard.after,BruteForceGuard.recordFailure]
    split_ifs
    · exact ⟨rfl,rfl,rfl⟩
    · exact ⟨rfl,rfl,rfl⟩
  | recordSuccess now subject => exact ⟨rfl,rfl,rfl⟩
  | sweep now => exact ⟨rfl,rfl,rfl⟩

/-- A failure in the window of its entry. -/
theorem failedEntry_of_open {held : Option Entry}
    (hopen : now-(held.getD ⟨0,now,none⟩).firstAttempt≤g.window) :
    g.failedEntry now held=
      if (held.getD ⟨0,now,none⟩).count+1≥g.maxAttempts then
        {held.getD ⟨0,now,none⟩ with
          count := (held.getD ⟨0,now,none⟩).count+1
          lockedUntil := some (now+g.lockout)}
      else {held.getD ⟨0,now,none⟩ with count := (held.getD ⟨0,now,none⟩).count+1} := by
  rw [BruteForceGuard.failedEntry]
  dsimp only
  rw [if_neg (Nat.not_lt.mpr hopen)]

/-- A failure after the window of its entry counts like a first one. -/
theorem failedEntry_of_over {entry : Entry} (hover : g.window<now-entry.firstAttempt) :
    g.failedEntry now (some entry)=g.failedEntry now none := by
  rw [BruteForceGuard.failedEntry,BruteForceGuard.failedEntry]
  dsimp only
  rw [Option.getD_some,Option.getD_none,if_pos hover,Nat.sub_self,if_neg (Nat.not_lt_zero _)]

/-- A lock that has not ended is seen through a sweep. -/
theorem lockAnswer_filter (window : ℕ) (held : Option Entry) :
    lockAnswer now ((held.filter fun entry => entry.isLive window now).bind Entry.lockedUntil)=
      lockAnswer now (held.bind Entry.lockedUntil) := by
  cases held with
  | none => rfl
  | some entry =>
    rw [Option.filter_some]
    split_ifs with hlive
    · rfl
    · rw [Entry.isLive] at hlive
      cases hlock : entry.lockedUntil with
      | none => rw [Option.bind_none,Option.bind_some,hlock]
      | some lockEnd =>
        rw [hlock] at hlive
        simp only [decide_eq_true_eq] at hlive
        rw [Option.bind_none,Option.bind_some,hlock,lockAnswer,lockAnswer,if_neg hlive]

/-- The answer to a check follows from the entry, swept or not. -/
theorem answer_eq (subject : Subject) : g.answer now subject=
    lockAnswer now (g.inner[subject.key]?.bind Entry.lockedUntil) := by
  rw [BruteForceGuard.answer,BruteForceGuard.check,←Subject.key]
  dsimp only
  split_ifs
  · exact (congrArg (fun held => lockAnswer now (held.bind Entry.lockedUntil))
      getElem?_sweep).trans (lockAnswer_filter g.window _)
  · rfl

end

end TokiSync.LoginGuard
