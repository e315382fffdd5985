import TokiSync.LoginGuard

/-!
# The waiting time that a refusal announces

The limiter of monitor writes counts the writes of a user in a window and
announces the whole seconds that are left of the window, rounded down but at
least one. The login guard announces the whole seconds that are left of a lock
and one more. Waiting for the announced time is always enough for the guard;
for the limiter it is enough when the time left has no fraction of a second or
is at most a second.
-/

namespace TokiSync.RetryHints

open Runs SweptTables LoginGuard

/-- Duration of a window. -/
def window : ℕ := 60000000000

/-- Writes that a window admits. -/
def maxWrites : ℕ := 60

/-- Number of entries from which the map is swept. -/
def sweepAt : ℕ := 4096

/-- Start of the window and writes in it, by user. -/
abbrev Hits := Std.ExtTreeMap String (ℕ×ℕ) compare

/-- Whether the window of an entry is running. -/
def isRunning (now : ℕ) (hit : ℕ×ℕ) : Bool := now-hit.1<window

/-- Window and writes that a call finds, a new window when there is none or
the last one is over. -/
def currentHit (now : ℕ) (held : Option (ℕ×ℕ)) : ℕ×ℕ :=
  let hit := held.getD (now,0)
  if now-hit.1≥window then (now,0) else hit

/-- The map without the windows that are over, when it is large. -/
def sweptHits (hits : Hits) (now : ℕ) : Hits :=
  if hits.size≥sweepAt then hits.filter fun _ hit => isRunning now hit else hits

/-- Whether a write may proceed, else after how many seconds to retry. -/
def hitAnswer (now : ℕ) (hit : ℕ×ℕ) : Except ℕ Unit :=
  if hit.2≥maxWrites then .error (max (asSecs (window-(now-hit.1))) 1) else .ok ()

/-- The answer to a write, and the map afterwards. -/
def allow (hits : Hits) (now : ℕ) (userId : String) : Except ℕ Unit×Hits :=
  let swept := sweptHits hits now
  let hit := currentHit now swept[userId]?
  (hitAnswer now hit,
    swept.insert userId (if hit.2≥maxWrites then hit else (hit.1,hit.2+1)))

/-- A write that arrives. -/
structure Write where
  /-- Instant of the write. -/
  now : ℕ
  /-- User who writes. -/
  userId : String

/-- The map after one more write. -/
def afterWrite (hits : Hits) (w : Write) : Hits := (allow hits w.now w.userId).2

/-- From a number of seconds after an instant on, the user's next write is
accepted, whatever other users write meanwhile. -/
def WriteSucceedsAfter (hits : Hits) (now : ℕ) (userId : String) (secs : ℕ) : Prop :=
  ∀ (between : List Write) (later : ℕ), Chronological Write.now between →
    (∀ w∈between, now≤w.now ∧ w.now≤later ∧ w.userId≠userId) → now+fromSecs secs≤later →
      (allow (replay afterWrite (afterWrite hits ⟨now,userId⟩) between) later userId).1=.ok ()

/-- From a number of seconds after an instant on, a check of the subject
passes, whatever is called meanwhile except failures with its key. -/
def CheckSucceedsAfter (g : BruteForceGuard) (now : ℕ) (subject : Subject) (secs : ℕ) : Prop :=
  ∀ (between : List GuardCall) (later : ℕ),
    (∀ c∈between, ∀ instant caller, c=.recordFailure instant caller → caller.key≠subject.key) →
      now+fromSecs secs≤later →
        (replay BruteForceGuard.after (g.after (.check now subject)) between).answer later subject=
          .ok ()

section

variable {hits : Hits} {now : ℕ} {userId : String}

/-- A sweep makes no difference to the window that a call finds. -/
theorem currentHit_filter (held : Option (ℕ×ℕ)) :
    currentHit now (held.filter (isRunning now))=currentHit now held := by
  cases held with
  | none => rfl
  | some hit =>
    rw [Option.filter_some]
    split_ifs with hrunning
    · rfl
    · simp only [isRunning,decide_eq_true_eq,Nat.not_lt] at hrunning
      rw [currentHit,currentHit]
      dsimp only [Option.getD_none,Option.getD_some]
      rw [if_pos hrunning,ite_self]

/-- The windows that a call finds, swept or not. -/
theorem currentHit_swept (hits : Hits) (now : ℕ) (userId : String) :
    currentHit now (sweptHits hits now)[userId]?=currentHit now hits[userId]? := by
  rw [sweptHits]
  split_ifs
  · rw [Std.ExtTreeMap.getElem?_filter',currentHit_filter]
  · rfl

/-- The answer to a write follows from the entry of the user. -/
theorem allow_fst : (allow hits now userId).1=hitAnswer now (currentHit now hits[userId]?) := by
  rw [allow]
  dsimp only
  rw [currentHit_swept]

/-- Writes of other users keep the entry in agreement with itself. -/
theorem agree_afterWrite {w : Write} {kept : Option (ℕ×ℕ)} (hother : w.userId≠userId)
    (h : Agree (fun now hit => isRunning now hit=false) w.now hits[userId]? kept) :
    Agree (fun now hit => isRunning now hit=false) w.now (afterWrite hits w)[userId]? kept := by
  have hkey : (afterWrite hits w)[userId]?=(sweptHits hits w.now)[userId]? := by
    rw [afterWrite,allow]
    dsimp only
    rw [Std.ExtTreeMap.getElem?_insert,if_neg]
    rwa [Std.LawfulEqCmp.compare_eq_iff_eq]
  rw [hkey,sweptHits]
  split_ifs
  · rw [Std.ExtTreeMap.getElem?_filter']
    exact h.filter fun hit _ hover => hover
  · exact h

/-- What a refused write finds and leaves. -/
theorem exists_of_refused {secs : ℕ} (h : (allow hits now userId).1=.error secs) :
    ∃ hit, hits[userId]?=some hit ∧ now-hit.1<window ∧ maxWrites≤hit.2 ∧
      secs=max (asSecs (window-(now-hit.1))) 1 ∧
      (afterWrite hits ⟨now,userId⟩)[userId]?=some hit := by
  have hleft : (afterWrite hits ⟨now,userId⟩)[userId]?=
      some (if (currentHit now hits[userId]?).2≥maxWrites then currentHit now hits[userId]?
        else ((currentHit now hits[userId]?).1,(currentHit now hits[userId]?).2+1)) := by
    rw [afterWrite,allow]
    dsimp only
    rw [currentHit_swept,Std.ExtTreeMap.getElem?_insert_self]
  rw [allow_fst,hitAnswer] at h
  have hfull : (currentHit now hits[userId]?).2≥maxWrites := by
    by_contra hopen
    rw [if_neg hopen] at h
    cases h
  rw [if_pos hfull] at h hleft
  have hnew : ¬0≥maxWrites := by decide
  cases hheld : hits[userId]? with
  | none =>
    rw [hheld,currentHit,Option.getD_none] at hfull
    dsimp only at hfull
    rw [ite_self] at hfull
    exact absurd hfull hnew
  | some hit =>
    have hrunning : ¬now-hit.1≥window := by
      intro hover
      rw [hheld,currentHit,Option.getD_some,if_pos hover] at hfull
      exact hnew hfull
    have hcurrent : currentHit now (some hit)=hit := by
      rw [currentHit,Option.getD_some,if_neg hrunning]
    rw [hheld,hcurrent] at hfull h hleft
    cases h
    exact ⟨hit,rfl,Nat.lt_of_not_le hrunning,hfull,rfl,hleft⟩

/-- After other users' writes, a user with a full window is accepted when the
window is over. -/
theorem allow_eq_ok_iff {hit : ℕ×ℕ} (hheld : hits[userId]?=some hit) (hfull : maxWrites≤hit.2)
    {between : List Write} {later : ℕ} (hchron : Chronological Write.now between)
    (hothers : ∀ w∈between, w.now≤later ∧ w.userId≠userId) :
    (allow (replay afterWrite hits between) later userId).1=.ok () ↔ window≤later-hit.1 := by
  have hlasts : ∀ (hit : ℕ×ℕ) (now next : ℕ), now≤next → isRunning now hit=false →
      isRunning next hit=false := by
    intro hit now next hle hover
    rw [isRunning,decide_eq_false_iff_not] at hover ⊢
    omega
  have hagree : Agree (fun now hit => isRunning now hit=false) later
      (replay afterWrite hits between)[userId]?
      (replay (fun kept _ => kept) hits[userId]? between) :=
    Agree.replay (fun t => t[userId]?) (fun kept _ => kept) (fun _ w => w.userId≠userId) hlasts
      (fun t w kept hw ht => agree_afterWrite hw ht) (always_of_mem fun w hw _ => (hothers w hw).2)
      hchron fun w hw => (hothers w hw).1
  have hkept : replay (fun kept _ => kept) hits[userId]? between=some hit := by
    rw [←hheld]
    clear hagree hchron hothers
    induction between with
    | nil => rfl
    | cons w past ih => exact ih
  rw [hkept] at hagree
  have hover : ∀ hit : ℕ×ℕ, isRunning later hit=false →
      hitAnswer later (currentHit later (some hit))=hitAnswer later (currentHit later none) := by
    intro hit hover
    rw [←currentHit_filter (some hit),Option.filter_some,if_neg (Bool.eq_false_iff.mp hover)]
  rw [allow_fst,hagree.apply_eq (fun held => hitAnswer later (currentHit later held)) hover,
    currentHit,Option.getD_some]
  by_cases hend : later-hit.1≥window
  · rw [if_pos hend,hitAnswer,if_neg (by decide : ¬0≥maxWrites)]
    exact ⟨fun _ => hend,fun _ => rfl⟩
  · rw [if_neg hend,hitAnswer,if_pos hfull]
    exact ⟨fun hok => (by cases hok),fun hover => absurd hover hend⟩

/-- A sweep adds no entry. -/
theorem getElem?_of_swept {key : String} {hit : ℕ×ℕ}
    (h : (sweptHits hits now)[key]?=some hit) : hits[key]?=some hit := by
  rw [sweptHits] at h
  split_ifs at h
  · rw [Std.ExtTreeMap.getElem?_filter'] at h
    exact (Option.filter_eq_some_iff.mp h).1
  · exact h

/-- The window that a call finds has started. -/
theorem currentHit_start_le {held : Option (ℕ×ℕ)} (h : ∀ hit∈held, hit.1≤now) :
    (currentHit now held).1≤now := by
  rw [currentHit]
  split_ifs
  · exact Nat.le_refl now
  · cases held with
    | none => exact Nat.le_refl now
    | some hit => exact h hit rfl

/-- Windows of the past start in the past. -/
theorem start_le_of_replay {history : List Write} (hchron : Chronological Write.now history)
    (hto : ∀ w∈history, w.now≤now) {key : String} {hit : ℕ×ℕ}
    (hheld : (replay afterWrite ∅ history)[key]?=some hit) : hit.1≤now := by
  induction history generalizing now key hit with
  | nil =>
    rw [replay,Std.ExtTreeMap.getElem?_empty] at hheld
    cases hheld
  | cons w past ih =>
    have hpast := List.pairwise_cons.mp hchron
    have hold : ∀ {user : String}, ∀ hit∈(replay afterWrite ∅ past)[user]?, hit.1≤w.now :=
      fun hit hmem => ih hpast.2 hpast.1 hmem
    refine Nat.le_trans ?_ (hto w List.mem_cons_self)
    rw [replay,afterWrite,allow] at hheld
    dsimp only at hheld
    rw [currentHit_swept,Std.ExtTreeMap.getElem?_insert] at hheld
    split_ifs at hheld with hkey hfull
    · cases hheld
      exact currentHit_start_le hold
    · cases hheld
      exact currentHit_start_le hold
    · exact hold hit (getElem?_of_swept hheld)

/-- A check that is refused finds a lock, and announces the whole seconds that
are left of it and one more. -/
theorem exists_of_locked {g : BruteForceGuard} {subject : Subject} {secs : ℕ}
    (h : g.answer now subject=.error secs) :
    ∃ lockEnd, g.inner[subject.key]?.bind Entry.lockedUntil=some lockEnd ∧
      secs=asSecs (lockEnd-now)+1 := by
  rw [answer_eq] at h
  cases hlock : g.inner[subject.key]?.bind Entry.lockedUntil with
  | none =>
    rw [hlock] at h
    cases h
  | some lockEnd =>
    rw [hlock,lockAnswer] at h
    split_ifs at h
    cases h
    exact ⟨lockEnd,rfl,rfl⟩

/-- A call that records no failure of a key sets no lock there. -/
theorem lock_of_after {g : BruteForceGuard} {key : String} {c : GuardCall} {lockEnd : ℕ}
    (hother : ∀ instant caller, c=.recordFailure instant caller → caller.key≠key)
    (h : (g.after c).inner[key]?.bind Entry.lockedUntil=some lockEnd) :
    g.inner[key]?.bind Entry.lockedUntil=some lockEnd := by
  obtain ⟨entry,hentry,hlock⟩ := Option.bind_eq_some_iff.mp h
  have hmade : g.entryAfter key g.inner[key]? c=some entry := by
    rw [getElem?_after] at hentry
    split_ifs at hentry
    · exact (Option.filter_eq_some_iff.mp hentry).1
    · exact hentry
  have hheld : g.inner[key]?=some entry := by
    cases c with
    | check instant caller => exact hmade
    | recordFailure instant caller =>
      rwa [BruteForceGuard.entryAfter,if_neg (hother instant caller rfl)] at hmade
    | recordSuccess instant caller =>
      rw [BruteForceGuard.entryAfter] at hmade
      split_ifs at hmade
      exact hmade
    | sweep instant => exact hmade
  rw [hheld]
  exact hlock

/-- Waiting for the announced seconds is enough for the guard. -/
theorem checkSucceedsAfter {g : BruteForceGuard} {subject : Subject} {secs : ℕ}
    (h : g.answer now subject=.error secs) : CheckSucceedsAfter g now subject secs := by
  intro between later hothers hlater
  obtain ⟨lockEnd,hlock,rfl⟩ := exists_of_locked h
  rw [answer_eq]
  cases hend : (replay BruteForceGuard.after (g.after (.check now subject))
      between).inner[subject.key]?.bind Entry.lockedUntil with
  | none => rfl
  | some lockEnd' =>
    have hsame : g.inner[subject.key]?.bind Entry.lockedUntil=some lockEnd' := by
      clear hlater
      induction between with
      | nil => exact lock_of_after (fun _ _ hc => by cases hc) hend
      | cons c past ih =>
        refine ih (fun d hd => hothers d (List.mem_cons_of_mem _ hd)) ?_
        exact lock_of_after (fun instant caller => hothers c List.mem_cons_self instant caller) hend
    rw [hlock,Option.some.injEq] at hsame
    rw [lockAnswer,if_neg]
    rw [fromSecs,asSecs] at hlater
    omega

/-- The announced seconds of the limiter cover what is left of the window. -/
theorem le_fromSecs_iff {left : ℕ} (hpos : 0<left) :
    left≤fromSecs (max (asSecs left) 1) ↔ left%1000000000=0 ∨ left≤1000000000 := by
  rw [fromSecs,asSecs]
  rcases Nat.lt_or_ge left 1000000000 with hless | hmore
  · rw [Nat.div_eq_of_lt hless]
    omega
  · rw [Nat.max_eq_left (by omega)]
    omega

/-- In every history of writes, waiting for the announced seconds is enough for
a refused write if and only if what is left of its window has no fraction of a
second or is at most a second; for a check of the login guard it always is. -/
theorem waiting_suffices_iff (history : List Write) (now : ℕ) (userId : String)
    (hchron : Chronological Write.now history) (hto : ∀ w∈history, w.now≤now)
    (g : BruteForceGuard) (subject : Subject) :
    (∀ secs, (allow (replay afterWrite ∅ history) now userId).1=.error secs →
      (WriteSucceedsAfter (replay afterWrite ∅ history) now userId secs ↔
        ∀ hit∈(replay afterWrite ∅ history)[userId]?,
          (window-(now-hit.1))%1000000000=0 ∨ window-(now-hit.1)≤1000000000)) ∧
    ∀ secs, g.answer now subject=.error secs → CheckSucceedsAfter g now subject secs := by
  refine ⟨fun secs hrefused => ?_,fun secs => checkSucceedsAfter⟩
  obtain ⟨hit,hheld,hrunning,hfull,hsecs,hleft⟩ := exists_of_refused hrefused
  have hstart := start_le_of_replay hchron hto hheld
  have hremaining : 0<window-(now-hit.1) := by omega
  have hcovers := le_fromSecs_iff hremaining
  rw [←hsecs] at hcovers
  rw [hheld]
  constructor
  · intro hsucceeds hit' hmem
    cases hmem
    have hok := (allow_eq_ok_iff hleft hfull List.Pairwise.nil fun w hw => by cases hw).mp
      (hsucceeds [] (now+fromSecs secs) List.Pairwise.nil (fun w hw => by cases hw)
        (Nat.le_refl _))
    exact hcovers.mp (by omega)
  · intro hexact between later hbetween hothers hlater
    have hlong := hcovers.mpr (hexact hit rfl)
    refine (allow_eq_ok_iff hleft hfull hbetween fun w hw => (hothers w hw).2).mpr ?_
    omega

end

/-- Writes of one user at the first instant. -/
def burst (n : ℕ) : List Write := List.replicate n ⟨0,"u1"⟩

/-- A burst counts its writes. -/
theorem getElem?_burst {n : ℕ} (h : n< maxWrites) :
    (replay afterWrite ∅ (burst (n+1)))["u1"]?=some (0,n+1) := by
  have hcurrent : currentHit 0 (replay afterWrite ∅ (burst n))["u1"]?=(0,n) := by
    cases n with
    | zero => rw [burst,List.replicate_zero,replay,Std.ExtTreeMap.getElem?_empty]; rfl
    | succ n => rw [getElem?_burst (Nat.lt_of_succ_lt h)]; rfl
  rw [burst,List.replicate_succ,replay,afterWrite,allow]
  dsimp only
  rw [currentHit_swept,←burst,hcurrent,if_neg (Nat.not_le.mpr h),
    Std.ExtTreeMap.getElem?_insert_self]

/-- Half a minute after a full burst half a minute is announced, and is
enough. -/
theorem waiting_suffices_iff_sample :
    WriteSucceedsAfter (replay afterWrite ∅ (burst 60)) 30000000000 "u1" 30 := by
  have hfull := getElem?_burst (n:=59) (by decide)
  have hchron : Chronological Write.now (burst 60) :=
    List.pairwise_replicate.mpr (Or.inr (Nat.le_refl _))
  have hto : ∀ w∈burst 60, w.now≤30000000000 := by
    intro w hw
    rw [List.eq_of_mem_replicate hw]
    exact Nat.zero_le _
  refine ((waiting_suffices_iff (burst 60) 30000000000 "u1" hchron hto (.new 5 300 900 0)
    ⟨"203.0.113.7",.register⟩).1 30 ?_).mpr ?_
  · rw [allow_fst,hfull]
    rfl
  · rw [hfull]
    intro hit hmem
    cases hmem
    exact Or.inl rfl

/-- Half a second after a full burst fifty-nine seconds are announced, and the
write that waits for them is refused. -/
theorem announced_too_short :
    (allow (replay afterWrite ∅ (burst 60)) 500000000 "u1").1=.error 59 ∧
    ¬WriteSucceedsAfter (replay afterWrite ∅ (burst 60)) 500000000 "u1" 59 := by
  have hfull := getElem?_burst (n:=59) (by decide)
  have hrefused : (allow (replay afterWrite ∅ (burst 60)) 500000000 "u1").1=.error 59 := by
    rw [allow_fst,hfull]
    rfl
  obtain ⟨hit,hheld,-,hcount,-,hleft⟩ := exists_of_refused hrefused
  rw [hfull] at hheld
  cases hheld
  refine ⟨hrefused,fun hsucceeds => ?_⟩
  have hok := hsucceeds [] 59500000000 List.Pairwise.nil (fun w hw => by cases hw) (by decide)
  rw [replay,allow_fst,hleft] at hok
  exact absurd hok (by decide)

end TokiSync.RetryHints
