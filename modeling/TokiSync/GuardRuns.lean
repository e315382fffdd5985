import TokiSync.LoginGuard
import TokiSync.Runs

/-!
# Concurrent logins with wrong passwords

A login checks the guard, verifies the password and then records the failure,
in three steps between which other requests take theirs. Within one window and
one lockout period the guard refuses a pair from the failure on that fills its
attempts, and no sweep forgets it. The number of passwords that are verified
is then bounded by the attempts when no check passes while the failures and
the requests in flight already fill them.
-/

namespace TokiSync.GuardRuns

open Runs LoginGuard

/-- The guard, the logins of one pair and the observer's record. -/
structure LoginState where
  /-- The guard. -/
  guard : BruteForceGuard
  /-- Instant of the last call. -/
  now : ℕ
  /-- Requests whose check has passed. -/
  checked : List ℕ
  /-- Requests whose password was found wrong. -/
  awaiting : List ℕ
  /-- Passwords verified so far. -/
  verified : ℕ
  /-- Failures recorded so far. -/
  recorded : ℕ

/-- Before the first request. -/
def LoginState.start (guard : BruteForceGuard) (now : ℕ) : LoginState := ⟨guard,now,[],[],0,0⟩

/-- Steps of the logins and of the other users of the guard. -/
inductive LoginOp where
  /-- A request checks the guard. -/
  | check (request now : ℕ)
  /-- The password of a request is verified and wrong. -/
  | verify (request : ℕ)
  /-- A request records its failure. -/
  | recordFailure (request now : ℕ)
  /-- A call of the guard with another key. -/
  | other (call : GuardCall)

/-- Instant of a step that reads the clock. -/
def LoginOp.now? : LoginOp → Option ℕ
  | .check _ now => some now
  | .verify _ => none
  | .recordFailure _ now => some now
  | .other call => some call.now

/-- One step of one request. -/
def LoginStep (subject : Subject) (s : LoginState) (op : LoginOp) (s' : LoginState) : Prop :=
  match op with
  | .check request now =>
    s.now≤now ∧ request∉ s.checked ∧ request∉ s.awaiting ∧
    s'={s with
      guard := s.guard.after (.check now subject)
      now := now
      checked := if (s.guard.answer now subject).isOk then request::s.checked else s.checked}
  | .verify request =>
    request∈s.checked ∧
    s'={s with
      checked := s.checked.erase request
      awaiting := request::s.awaiting
      verified := s.verified+1}
  | .recordFailure request now =>
    s.now≤now ∧ request∈s.awaiting ∧
    s'={s with
      guard := s.guard.after (.recordFailure now subject)
      now := now
      awaiting := s.awaiting.erase request
      recorded := s.recorded+1}
  | .other call =>
    s.now≤call.now ∧ (∀ caller∈call.subject?, caller.key≠subject.key) ∧
    s'={s with guard := s.guard.after call, now := call.now}

/-- A step in one window and one lockout period from an instant on. -/
def LoginOp.Within (g : BruteForceGuard) (start : ℕ) (op : LoginOp) : Prop :=
  ∀ now∈op.now?, now-start≤g.window ∧ now< start+g.lockout

/-- Requests that passed the check, finished or not. -/
def LoginState.passed (s : LoginState) : ℕ := s.recorded+s.checked.length+s.awaiting.length

/-- A check that comes while attempts are left. -/
def Admitted (maxAttempts : ℕ) (s : LoginState) : LoginOp → Prop
  | .check _ _ => s.recorded< maxAttempts
  | _ => False

/-- A check that comes while attempts are left finds fewer failures and
requests in flight than attempts. -/
def Spaced (maxAttempts : ℕ) (s : LoginState) (op : LoginOp) : Prop :=
  Admitted maxAttempts s op → s.passed< maxAttempts

/-- What the guard holds for a pair with a number of failures: nothing before
the first, their number while attempts are left, and a lock from then on. -/
def Counts (g : BruteForceGuard) (start recorded : ℕ) (held : Option Entry) : Prop :=
  (recorded=0 ∧ held=none) ∨ ∃ entry, held=some entry ∧ start≤entry.firstAttempt ∧
    ((recorded<g.maxAttempts.toNat ∧ entry.count.toNat=recorded ∧ entry.lockedUntil=none) ∨
      (g.maxAttempts.toNat≤recorded ∧ ∃ lockEnd, entry.lockedUntil=some lockEnd ∧
        start+g.lockout≤lockEnd))

section

variable {g : BruteForceGuard} {start recorded now : ℕ} {held : Option Entry}

/-- No sweep of the period drops the entry. -/
theorem Counts.filter (h : Counts g start recorded held) (hwindow : now-start≤g.window)
    (hlockout : now< start+g.lockout) :
    (held.filter fun entry => entry.isLive g.window now)=held := by
  rcases h with ⟨-,hnone⟩ | ⟨entry,hheld,hfirst,hlock⟩
  · rw [hnone,Option.filter_none]
  · rw [hheld,Option.filter_some,if_pos]
    rw [Entry.isLive]
    rcases hlock with ⟨-,-,hopen⟩ | ⟨-,lockEnd,hlocked,hend⟩
    · rw [hopen]
      simp only [decide_eq_true_eq]
      omega
    · rw [hlocked]
      simp only [decide_eq_true_eq]
      omega

/-- The guard lets a check of the period pass while attempts are left. -/
theorem Counts.isOk_iff (h : Counts g start recorded held) (hmax : 0<g.maxAttempts.toNat)
    (hlockout : now< start+g.lockout) :
    (lockAnswer now (held.bind Entry.lockedUntil)).isOk=true ↔ recorded<g.maxAttempts.toNat := by
  rcases h with ⟨hzero,hnone⟩ | ⟨entry,hheld,-,⟨hleft,-,hopen⟩ | ⟨hfull,lockEnd,hlocked,hend⟩⟩
  · rw [hnone,hzero]
    exact ⟨fun _ => hmax,fun _ => rfl⟩
  · rw [hheld,Option.bind_some,hopen]
    exact ⟨fun _ => hleft,fun _ => rfl⟩
  · rw [hheld,Option.bind_some,hlocked,lockAnswer,if_pos (by omega)]
    exact ⟨fun hok => (by cases hok),fun hleft => by omega⟩

/-- One more failure. -/
theorem Counts.failed (h : Counts g start recorded held) (hfrom : start≤now)
    (hwindow : now-start≤g.window) :
    Counts g start (recorded+1) (some (g.failedEntry now held)) := by
  have hmax := g.maxAttempts.toNat_lt
  have hone : (1 : UInt32).toNat=1 := rfl
  have hentry : ∃ entry : Entry, held.getD ⟨0,now,none⟩=entry ∧ start≤entry.firstAttempt ∧
      ((recorded≤g.maxAttempts.toNat-1 ∧ entry.count.toNat=recorded ∧ entry.lockedUntil=none) ∨
        (g.maxAttempts.toNat≤recorded ∧ ∃ lockEnd, entry.lockedUntil=some lockEnd ∧
          start+g.lockout≤lockEnd)) := by
    rcases h with ⟨hzero,hnone⟩ | ⟨entry,hheld,hfirst,hlock⟩
    · rw [hnone,hzero]
      exact ⟨_,rfl,hfrom,Or.inl ⟨Nat.zero_le _,rfl,rfl⟩⟩
    · rw [hheld]
      refine ⟨entry,rfl,hfirst,hlock.imp_left fun hleft => ⟨by omega,hleft.2⟩⟩
  obtain ⟨entry,hheld,hfirst,hlock⟩ := hentry
  have hopen : now-entry.firstAttempt≤g.window := by omega
  rw [failedEntry_of_open (by rw [hheld]; exact hopen),hheld]
  refine Or.inr ⟨_,rfl,?_⟩
  by_cases hfull : entry.count+1≥g.maxAttempts
  · rw [if_pos hfull]
    refine ⟨hfirst,Or.inr ⟨?_,now+g.lockout,rfl,by omega⟩⟩
    rcases hlock with ⟨hleft,hcount,-⟩ | ⟨hleft,-⟩
    · have hle := UInt32.le_iff_toNat_le.mp hfull
      rw [UInt32.toNat_add,hcount,hone] at hle
      have hmod := Nat.mod_le (recorded+1) (2^32)
      omega
    · omega
  · rw [if_neg hfull]
    refine ⟨hfirst,?_⟩
    rcases hlock with ⟨hleft,hcount,hnolock⟩ | ⟨hleft,hlocked⟩
    · have hlt := UInt32.lt_iff_toNat_lt.mp (UInt32.not_le.mp hfull)
      rw [UInt32.toNat_add,hcount,hone,Nat.mod_eq_of_lt (by omega)] at hlt
      refine Or.inl ⟨hlt,?_,hnolock⟩
      change (entry.count+1).toNat=recorded+1
      rw [UInt32.toNat_add,hcount,hone,Nat.mod_eq_of_lt (by omega)]
    · exact Or.inr ⟨by omega,hlocked⟩

end

/-- What holds in every state of a run within the period. -/
structure Tracked (g : BruteForceGuard) (start : ℕ) (subject : Subject) (s : LoginState) :
    Prop where
  /-- The settings are those of the first guard. -/
  settings : s.guard.maxAttempts=g.maxAttempts ∧ s.guard.window=g.window ∧
    s.guard.lockout=g.lockout
  /-- The clock has not gone back. -/
  started : start≤ s.now
  /-- Verified passwords are recorded or about to be. -/
  verified : s.verified=s.recorded+s.awaiting.length
  /-- The guard counts the recorded failures. -/
  counts : Counts g start s.recorded s.guard.inner[subject.key]?

section

variable {g : BruteForceGuard} {start : ℕ} {subject : Subject} {s s' : LoginState} {op : LoginOp}
variable {history : List LoginOp}

/-- Guards with the same settings count alike. -/
theorem Counts.settings {g' : BruteForceGuard} {recorded : ℕ} {held : Option Entry}
    (hsame : g'.maxAttempts=g.maxAttempts ∧ g'.window=g.window ∧ g'.lockout=g.lockout) :
    Counts g' start recorded held ↔ Counts g start recorded held := by
  rw [Counts,Counts,hsame.1,hsame.2.2]

/-- A call of the period leaves the entry that it makes. -/
theorem getElem?_after_of_counts {recorded : ℕ} {c : GuardCall}
    (hwindow : c.now-start≤g.window) (hlockout : c.now< start+g.lockout)
    (h : Counts g start recorded (g.entryAfter subject.key g.inner[subject.key]? c)) :
    (g.after c).inner[subject.key]?=g.entryAfter subject.key g.inner[subject.key]? c := by
  rw [getElem?_after]
  split_ifs
  · exact h.filter hwindow hlockout
  · rfl

/-- A call that finds the period open and makes an entry with so many
failures. -/
theorem Tracked.counts_after (h : Tracked g start subject s) {c : GuardCall} {recorded : ℕ}
    (hwithin : c.now-start≤g.window ∧ c.now< start+g.lockout)
    (hentry : Counts s.guard start recorded
      (s.guard.entryAfter subject.key s.guard.inner[subject.key]? c)) :
    Counts g start recorded (s.guard.after c).inner[subject.key]? := by
  obtain ⟨hwindow,hlockout⟩ := hwithin
  rw [←h.settings.2.1] at hwindow
  rw [←h.settings.2.2] at hlockout
  rw [getElem?_after_of_counts hwindow hlockout hentry]
  exact (Counts.settings h.settings).mp hentry

/-- Settings after a call are those of the first guard. -/
theorem Tracked.settings_after (h : Tracked g start subject s) (c : GuardCall) :
    (s.guard.after c).maxAttempts=g.maxAttempts ∧ (s.guard.after c).window=g.window ∧
      (s.guard.after c).lockout=g.lockout := by
  obtain ⟨hmax,hwindow,hlockout⟩ := LoginGuard.settings_after (g:=s.guard) c
  exact ⟨hmax.trans h.settings.1,hwindow.trans h.settings.2.1,hlockout.trans h.settings.2.2⟩

/-- Every step of the period keeps track. -/
theorem Tracked.step (h : Tracked g start subject s) (hwithin : op.Within g start)
    (hstep : LoginStep subject s op s') : Tracked g start subject s' := by
  have hcounts := (Counts.settings h.settings).mpr h.counts
  cases op with
  | check request now =>
    obtain ⟨hnow,-,-,rfl⟩ := hstep
    exact ⟨h.settings_after _,Nat.le_trans h.started hnow,h.verified,
      h.counts_after (hwithin now rfl) hcounts⟩
  | verify request =>
    obtain ⟨-,rfl⟩ := hstep
    refine ⟨h.settings,h.started,?_,h.counts⟩
    rw [List.length_cons,h.verified]
    rfl
  | recordFailure request now =>
    obtain ⟨hnow,hmem,rfl⟩ := hstep
    refine ⟨h.settings_after _,Nat.le_trans h.started hnow,?_,?_⟩
    · have hpos := List.length_pos_of_mem hmem
      have herase := List.length_erase_of_mem hmem
      have hverified := h.verified
      dsimp only
      omega
    · refine h.counts_after (hwithin now rfl) ?_
      rw [BruteForceGuard.entryAfter,if_pos rfl]
      refine hcounts.failed (Nat.le_trans h.started hnow) ?_
      rw [h.settings.2.1]
      exact (hwithin now rfl).1
  | other call =>
    obtain ⟨hnow,hother,rfl⟩ := hstep
    refine ⟨h.settings_after _,Nat.le_trans h.started hnow,h.verified,
      h.counts_after (hwithin call.now rfl) ?_⟩
    rw [entryAfter_of_ne hother]
    exact hcounts

/-- Before the first request. -/
theorem tracked_start (hfresh : g.inner[subject.key]?=none) :
    Tracked g start subject (.start g start) :=
  ⟨⟨rfl,rfl,rfl⟩,Nat.le_refl _,rfl,Or.inl ⟨rfl,hfresh⟩⟩

/-- A check that comes while attempts are left adds a request, and no other
step does. -/
theorem Tracked.passed_step (h : Tracked g start subject s) (hmax : 0<g.maxAttempts.toNat)
    (hwithin : op.Within g start) (hstep : LoginStep subject s op s') :
    (Admitted g.maxAttempts.toNat s op → s'.passed=s.passed+1) ∧
      (¬Admitted g.maxAttempts.toNat s op → s'.passed=s.passed) := by
  cases op with
  | check request now =>
    obtain ⟨-,-,-,rfl⟩ := hstep
    have hok := h.counts.isOk_iff hmax (hwithin now rfl).2
    rw [←answer_eq] at hok
    simp only [Admitted,LoginState.passed]
    constructor
    · intro hleft
      rw [if_pos (hok.mpr hleft),List.length_cons]
      omega
    · intro hfull
      rw [if_neg (mt hok.mp hfull)]
  | verify request =>
    obtain ⟨hmem,rfl⟩ := hstep
    refine ⟨fun hadmitted => hadmitted.elim,fun _ => ?_⟩
    have hpos := List.length_pos_of_mem hmem
    simp only [LoginState.passed,List.length_erase_of_mem hmem,List.length_cons]
    omega
  | recordFailure request now =>
    obtain ⟨-,hmem,rfl⟩ := hstep
    refine ⟨fun hadmitted => hadmitted.elim,fun _ => ?_⟩
    have hpos := List.length_pos_of_mem hmem
    simp only [LoginState.passed,List.length_erase_of_mem hmem]
    omega
  | other call =>
    obtain ⟨-,-,rfl⟩ := hstep
    exact ⟨fun hadmitted => hadmitted.elim,fun _ => rfl⟩

/-- Every run of the period keeps track. -/
theorem Tracked.of_run (hfresh : g.inner[subject.key]?=none)
    (hwithin : ∀ op∈history, op.Within g start)
    (run : Run (LoginStep subject) (.start g start) history s) : Tracked g start subject s := by
  refine Run.invariant_of (A:=fun history => ∀ op∈history, LoginOp.Within g start op)
    forall_mem_tail (I:=fun _ => Tracked g start subject) (tracked_start hfresh) ?_ hwithin run
  intro past t op t' _ hA ht hstep
  exact ht.step (hA op List.mem_cons_self) hstep

/-- Spaced checks let at most as many requests pass as there are attempts. -/
theorem passed_le (hmax : 0<g.maxAttempts.toNat) (hfresh : g.inner[subject.key]?=none)
    (hwithin : ∀ op∈history, op.Within g start)
    (run : Run (fun a op b => LoginStep subject a op b ∧ Spaced g.maxAttempts.toNat a op)
      (.start g start) history s) : s.passed≤g.maxAttempts.toNat := by
  refine Run.invariant_of (A:=fun history => ∀ op∈history, LoginOp.Within g start op)
    forall_mem_tail (I:=fun _ t => t.passed≤g.maxAttempts.toNat) (Nat.zero_le _) ?_ hwithin run
  intro past t op t' hrun hA ht hstep
  have htracked := Tracked.of_run hfresh (forall_mem_tail op past hA)
    (hrun.mono fun _ _ _ hstep => hstep.1)
  obtain ⟨hadmitted,hother⟩ := htracked.passed_step hmax (hA op List.mem_cons_self) hstep.1
  by_cases h : Admitted g.maxAttempts.toNat t op
  · have hspaced := hstep.2 h
    have hone := hadmitted h
    omega
  · rw [hother h]
    exact ht

/-- A run in which no more requests pass than there are attempts has spaced
checks. -/
theorem spaced_of_passed_le (hmax : 0<g.maxAttempts.toNat) (hfresh : g.inner[subject.key]?=none)
    (hwithin : ∀ op∈history, op.Within g start)
    (run : Run (LoginStep subject) (.start g start) history s)
    (hpassed : s.passed≤g.maxAttempts.toNat) :
    Run (fun a op b => LoginStep subject a op b ∧ Spaced g.maxAttempts.toNat a op)
      (.start g start) history s := by
  induction run with
  | start => exact .start
  | @next past t t' op run taken ih =>
    have hpast := forall_mem_tail op past hwithin
    have htracked := Tracked.of_run hfresh hpast run
    obtain ⟨hadmitted,hother⟩ := htracked.passed_step hmax (hwithin op List.mem_cons_self) taken
    by_cases h : Admitted g.maxAttempts.toNat t op
    · have hone := hadmitted h
      exact .next op (ih hpast (by omega)) ⟨taken,fun _ => by omega⟩
    · rw [hother h] at hpassed
      exact .next op (ih hpast hpassed) ⟨taken,fun hadm => absurd hadm h⟩

/-- In every run of the period whose checks are spaced, at most as many
passwords are verified as attempts are allowed; and a run that leaves no
request in flight verifies no more only if its checks are spaced. -/
theorem verified_le_iff_spaced (g : BruteForceGuard) (subject : Subject) {start : ℕ}
    {history : List LoginOp} {s : LoginState} (hmax : 1≤g.maxAttempts.toNat)
    (hfresh : g.inner[subject.key]?=none) (hwithin : ∀ op∈history, op.Within g start)
    (run : Run (LoginStep subject) (.start g start) history s) :
    (Run (fun a op b => LoginStep subject a op b ∧ Spaced g.maxAttempts.toNat a op)
        (.start g start) history s → s.verified≤g.maxAttempts.toNat) ∧
      (s.checked=[] → s.awaiting=[] → (s.verified≤g.maxAttempts.toNat ↔
        Run (fun a op b => LoginStep subject a op b ∧ Spaced g.maxAttempts.toNat a op)
          (.start g start) history s)) := by
  have htracked := Tracked.of_run hfresh hwithin run
  have hbound : Run (fun a op b => LoginStep subject a op b ∧ Spaced g.maxAttempts.toNat a op)
      (.start g start) history s → s.verified≤g.maxAttempts.toNat := by
    intro hspaced
    have hpassed := passed_le hmax hfresh hwithin hspaced
    rw [LoginState.passed] at hpassed
    rw [htracked.verified]
    omega
  refine ⟨hbound,fun hchecked hawaiting => ⟨fun hverified => ?_,hbound⟩⟩
  refine spaced_of_passed_le hmax hfresh hwithin run ?_
  rw [htracked.verified] at hverified
  rw [LoginState.passed,hchecked]
  exact hverified

end

/-- The guard with one attempt, a window of five minutes and a lockout of
fifteen. -/
def oneAttempt : BruteForceGuard := .new 1 300 900 0

/-- The login of one pair. -/
def sampleSubject : Subject := ⟨"203.0.113.7",.login "bob"⟩

/-- A request that ends before the next one is refused, newest step first. -/
def oneByOne : List LoginOp := [.check 1 2,.recordFailure 0 1,.verify 0,.check 0 0]

/-- Every step of the sample is within the period. -/
theorem within_oneByOne : ∀ op∈oneByOne, op.Within oneAttempt 0 := by
  intro op hop
  simp only [oneByOne,List.mem_cons,List.not_mem_nil,or_false] at hop
  rcases hop with rfl | rfl | rfl | rfl
  · exact fun now hnow => by cases hnow; decide
  · exact fun now hnow => by cases hnow; decide
  · exact fun now hnow => by cases hnow
  · exact fun now hnow => by cases hnow; decide

/-- One attempt at a time. -/
theorem verified_le_iff_spaced_sample : ∃ s,
    Run (LoginStep sampleSubject) (.start oneAttempt 0) oneByOne s ∧ s.verified≤1 := by
  have run : Run (fun a op b => LoginStep sampleSubject a op b ∧ Spaced 1 a op)
      (.start oneAttempt 0) [.check 0 0] _ :=
    .next _ .start ⟨⟨Nat.le_refl _,by decide,by decide,rfl⟩,fun _ => by decide⟩
  have run := run.next (LoginOp.verify 0) ⟨⟨by decide,rfl⟩,fun hadmitted => hadmitted.elim⟩
  have run := run.next (LoginOp.recordFailure 0 1)
    ⟨⟨by decide,by decide,rfl⟩,fun hadmitted => hadmitted.elim⟩
  have run := run.next (LoginOp.check 1 2)
    ⟨⟨by decide,by decide,by decide,rfl⟩,fun hadmitted => absurd hadmitted (Nat.lt_irrefl 1)⟩
  refine ⟨_,run.mono fun _ _ _ hstep => hstep.1,?_⟩
  exact (verified_le_iff_spaced oneAttempt sampleSubject (by decide) (by decide) within_oneByOne
    (run.mono fun _ _ _ hstep => hstep.1)).1 run

/-- Two requests that verify their passwords before either failure is
recorded, newest step first. -/
def overlapping : List LoginOp := [.verify 1,.verify 0,.check 1 0,.check 0 0]

/-- One attempt, two verified passwords. -/
theorem overlapping_verifies_two : ∃ s,
    Run (LoginStep sampleSubject) (.start oneAttempt 0) overlapping s ∧
    (∀ op∈overlapping, op.Within oneAttempt 0) ∧ oneAttempt.maxAttempts.toNat< s.verified := by
  have run : Run (LoginStep sampleSubject) (.start oneAttempt 0) [.check 0 0] _ :=
    .next _ .start ⟨Nat.le_refl _,by decide,by decide,rfl⟩
  have run := run.next (LoginOp.check 1 0) ⟨Nat.le_refl _,by decide,by decide,rfl⟩
  have run := run.next (LoginOp.verify 0) ⟨by decide,rfl⟩
  have run := run.next (LoginOp.verify 1) ⟨by decide,rfl⟩
  refine ⟨_,run,?_,by decide⟩
  intro op hop
  simp only [overlapping,List.mem_cons,List.not_mem_nil,or_false] at hop
  rcases hop with rfl | rfl | rfl | rfl
  · exact fun now hnow => by cases hnow
  · exact fun now hnow => by cases hnow
  · exact fun now hnow => by cases hnow; decide
  · exact fun now hnow => by cases hnow; decide

end TokiSync.GuardRuns
