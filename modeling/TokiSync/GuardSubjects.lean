import TokiSync.ByteKeys
import TokiSync.LoginGuard

/-!
# Whose calls decide a check

The answer to a check follows from the entry under the subject's key. Calls of
other subjects change that entry only when they have the same key, and the
sweeps they cause only when the entry is dropped while its window still runs.
Without these, the answer is a function of the subject's own calls.
-/

namespace TokiSync.GuardSubjects

open Runs SweptTables ByteKeys LoginGuard

/-- An entry whose window is over and whose lock, if any, has ended. -/
def Over (window now : ℕ) (entry : Entry) : Prop :=
  window<now-entry.firstAttempt ∧ ∀ lockEnd∈entry.lockedUntil, lockEnd≤now

/-- A call leaves a subject alone: it has another key or is the subject's own,
and if it sweeps, it finds no entry of the subject whose lock has ended while
its window still runs. -/
def Undisturbed (subject : Subject) (g : BruteForceGuard) (c : GuardCall) : Prop :=
  (∀ caller∈c.subject?, caller.key=subject.key → caller=subject) ∧
  ∀ swept∈g.swept? c, ∀ entry∈swept.inner[subject.key]?,
    (∃ lockEnd∈entry.lockedUntil, lockEnd≤c.now) → g.window<c.now-entry.firstAttempt

/-- Whether a call is the subject's own. -/
def isOwn (subject : Subject) (c : GuardCall) : Bool := c.subject?=some subject

/-- Entry that the subject's own calls leave. -/
def ownEntry (g : BruteForceGuard) (subject : Subject) (held : Option Entry) (c : GuardCall) :
    Option Entry :=
  if isOwn subject c then g.entryAfter subject.key held c else held

section

variable {g g' : BruteForceGuard} {subject : Subject} {c : GuardCall} {held kept : Option Entry}

/-- Entries that are over stay over. -/
theorem Over.later {window now next : ℕ} {entry : Entry} (h : Over window now entry)
    (hle : now≤next) : Over window next entry :=
  ⟨by have hover := h.1; omega,fun lockEnd hlock => Nat.le_trans (h.2 lockEnd hlock) hle⟩

/-- Calls make the same of entries that agree. -/
theorem agree_entryAfter (key : String) (h : Agree (Over g.window) c.now held kept) :
    Agree (Over g.window) c.now (g.entryAfter key held c) (g.entryAfter key kept c) := by
  cases c with
  | check now caller => exact h
  | recordFailure now caller =>
    rw [BruteForceGuard.entryAfter,BruteForceGuard.entryAfter]
    split_ifs
    · have hsame : g.failedEntry now held=g.failedEntry now kept :=
        h.apply_eq _ fun entry hover => failedEntry_of_over hover.1
      rw [hsame]
      exact Or.inl rfl
    · exact h
  | recordSuccess now caller =>
    rw [BruteForceGuard.entryAfter,BruteForceGuard.entryAfter]
    split_ifs
    · exact Or.inl rfl
    · exact h
  | sweep now => exact h

/-- An undisturbed call keeps the entry in agreement with the one that the
subject's own calls leave. -/
theorem Undisturbed.agree (h : Undisturbed subject g c)
    (hagree : Agree (Over g.window) c.now g.inner[subject.key]? kept) :
    Agree (Over g.window) c.now (g.after c).inner[subject.key]? (ownEntry g subject kept c) := by
  have hmade : Agree (Over g.window) c.now (g.entryAfter subject.key g.inner[subject.key]? c)
      (ownEntry g subject kept c) := by
    rw [ownEntry]
    split_ifs with hown
    · exact agree_entryAfter subject.key hagree
    · rw [entryAfter_of_ne]
      · exact hagree
      · intro caller hcaller hkey
        rw [h.1 caller hcaller hkey] at hcaller
        exact hown (decide_eq_true hcaller)
  rw [getElem?_after]
  cases hswept : g.swept? c with
  | none => exact hmade
  | some swept =>
    rw [Option.isSome_some,if_pos rfl]
    refine hmade.filter fun entry hentry hdead => ?_
    rw [←getElem?_swept hswept] at hentry
    have hdrop := h.2 swept hswept entry hentry
    rw [Entry.isLive] at hdead
    cases hlock : entry.lockedUntil with
    | none =>
      rw [hlock] at hdead
      simp only [decide_eq_false_iff_not] at hdead
      refine ⟨Nat.lt_of_not_le hdead,fun lockEnd hend => ?_⟩
      rw [hlock] at hend
      cases hend
    | some lockEnd =>
      rw [hlock] at hdead
      simp only [decide_eq_false_iff_not] at hdead
      have hended := Nat.le_of_not_lt hdead
      refine ⟨hdrop ⟨lockEnd,hlock,hended⟩,fun lockEnd' hend => ?_⟩
      rw [hlock] at hend
      cases hend
      exact hended

/-- Settings after any calls are those before. -/
theorem settings_replay (history : List GuardCall) :
    (replay BruteForceGuard.after g history).maxAttempts=g.maxAttempts ∧
      (replay BruteForceGuard.after g history).window=g.window ∧
      (replay BruteForceGuard.after g history).lockout=g.lockout := by
  induction history with
  | nil => exact ⟨rfl,rfl,rfl⟩
  | cons c past ih =>
    obtain ⟨hmax,hwindow,hlockout⟩ := settings_after (g:=replay BruteForceGuard.after g past) c
    exact ⟨hmax.trans ih.1,hwindow.trans ih.2.1,hlockout.trans ih.2.2⟩

/-- Guards with the same settings make the same entries. -/
theorem ownEntry_congr (hsame : g.maxAttempts=g'.maxAttempts ∧ g.window=g'.window ∧
    g.lockout=g'.lockout) : ownEntry g subject=ownEntry g' subject := by
  have hfailed : ∀ now held, g.failedEntry now held=g'.failedEntry now held := by
    intro now held
    rw [BruteForceGuard.failedEntry,BruteForceGuard.failedEntry,hsame.1,hsame.2.1,hsame.2.2]
  funext held c
  rw [ownEntry,ownEntry]
  cases c <;> simp only [BruteForceGuard.entryAfter,hfailed]

/-- After undisturbed calls, a subject finds what its own calls leave. -/
theorem answer_replay {history : List GuardCall} {now : ℕ}
    (hchron : Chronological GuardCall.now history) (hto : ∀ c∈history, c.now≤now)
    (h : Always (fun c past => Undisturbed subject (replay BruteForceGuard.after g past) c)
      history) :
    (replay BruteForceGuard.after g history).answer now subject=
      lockAnswer now ((replay (ownEntry g subject) g.inner[subject.key]?
        (history.filter (isOwn subject))).bind Entry.lockedUntil) := by
  have hagree : Agree (Over g.window) now
      (replay BruteForceGuard.after g history).inner[subject.key]?
      (replay (ownEntry g subject) g.inner[subject.key]? history) := by
    have hlasts : ∀ entry now next, now≤next → Over g.window now entry →
        Over g.window next entry := fun _ _ _ hle hover => hover.later hle
    refine Agree.replay (fun t => t.inner[subject.key]?) (ownEntry g subject)
      (fun t c => (t.maxAttempts=g.maxAttempts ∧ t.window=g.window ∧ t.lockout=g.lockout) ∧
        Undisturbed subject t c) hlasts ?_ ?_ hchron hto
    · rintro t c kept ⟨hsettings,hc⟩ ht
      rw [←ownEntry_congr hsettings]
      rw [←hsettings.2.1] at ht ⊢
      exact hc.agree ht
    · exact always_imp (fun c past hc => ⟨settings_replay past,hc⟩) h
  have hother : ∀ kept c, isOwn subject c=false → ownEntry g subject kept c=kept := by
    intro kept c hown
    rw [ownEntry,hown]
    rfl
  have hover : ∀ entry, Over g.window now entry →
      lockAnswer now ((some entry).bind Entry.lockedUntil)=
        lockAnswer now ((none : Option Entry).bind Entry.lockedUntil) := by
    intro entry hover
    rw [Option.bind_some,Option.bind_none]
    cases hlock : entry.lockedUntil with
    | none => rfl
    | some lockEnd => rw [lockAnswer,if_neg (Nat.not_lt.mpr (hover.2 lockEnd hlock)),lockAnswer]
  rw [answer_eq,replay_filter hother]
  exact hagree.apply_eq (fun held => lockAnswer now (held.bind Entry.lockedUntil)) hover

/-- Subjects with the same key whose addresses have no colon have the same
address and pass the same user name. -/
theorem key_eq_iff {a b : Subject} (ha : ':'∉a.ip.toList) (hb : ':'∉b.ip.toList) :
    a.key=b.key ↔ a.ip=b.ip ∧ a.endpoint.username=b.endpoint.username := by
  constructor
  · intro h
    exact joined_inj (by decide) ha hb h
  · rintro ⟨hip,hname⟩
    rw [Subject.key,Subject.key,hip,hname]

/-- Every lock ends at least one lockout period after its window opened, and no
window opened after an instant. -/
def LocksLast (g : BruteForceGuard) (now : ℕ) : Prop :=
  ∀ (key : String) (entry : Entry), g.inner[key]?=some entry → entry.firstAttempt≤now ∧
    ∀ lockEnd∈entry.lockedUntil, entry.firstAttempt+g.lockout≤lockEnd

/-- A failure makes an entry whose lock lasts. -/
theorem LocksLast.failedEntry {now : ℕ} (h : LocksLast g now) (key : String) :
    (g.failedEntry now g.inner[key]?).firstAttempt≤now ∧
      ∀ lockEnd∈(g.failedEntry now g.inner[key]?).lockedUntil,
        (g.failedEntry now g.inner[key]?).firstAttempt+g.lockout≤lockEnd := by
  have hcurrent : ∀ current : Entry, current.firstAttempt≤now →
      (∀ lockEnd∈current.lockedUntil, current.firstAttempt+g.lockout≤lockEnd) →
      ∀ entry : Entry, entry=(if current.count+1≥g.maxAttempts then
        {current with count := current.count+1, lockedUntil := some (now+g.lockout)}
        else {current with count := current.count+1}) → entry.firstAttempt≤now ∧
          ∀ lockEnd∈entry.lockedUntil, entry.firstAttempt+g.lockout≤lockEnd := by
    rintro current hfirst hlock entry rfl
    split_ifs
    · refine ⟨hfirst,fun lockEnd hend => ?_⟩
      cases hend
      exact Nat.add_le_add_right hfirst _
    · exact ⟨hfirst,hlock⟩
  have hnew : ∀ lockEnd∈(none : Option ℕ), now+g.lockout≤lockEnd := fun _ hend => by cases hend
  refine hcurrent (if now-(g.inner[key]?.getD ⟨0,now,none⟩).firstAttempt>g.window then ⟨0,now,none⟩
    else g.inner[key]?.getD ⟨0,now,none⟩) ?_ ?_ _ rfl
  · split_ifs
    · exact Nat.le_refl _
    · cases hheld : g.inner[key]? with
      | none => exact Nat.le_refl _
      | some entry => exact (h key entry hheld).1
  · split_ifs
    · exact hnew
    · cases hheld : g.inner[key]? with
      | none => exact hnew
      | some entry => exact (h key entry hheld).2

/-- The entry that a call makes has a lock that lasts. -/
theorem LocksLast.entryAfter (h : LocksLast g c.now) {key : String} {entry : Entry}
    (hmade : g.entryAfter key g.inner[key]? c=some entry) : entry.firstAttempt≤c.now ∧
      ∀ lockEnd∈entry.lockedUntil, entry.firstAttempt+g.lockout≤lockEnd := by
  cases c with
  | check now caller => exact h key entry hmade
  | recordFailure now caller =>
    rw [BruteForceGuard.entryAfter] at hmade
    split_ifs at hmade
    · cases hmade
      exact h.failedEntry key
    · exact h key entry hmade
  | recordSuccess now caller =>
    rw [BruteForceGuard.entryAfter] at hmade
    split_ifs at hmade
    exact h key entry hmade
  | sweep now => exact h key entry hmade

/-- A call keeps what is known about locks. -/
theorem LocksLast.after (h : LocksLast g c.now) : LocksLast (g.after c) c.now := by
  intro key entry hentry
  rw [(settings_after c).2.2]
  rw [getElem?_after] at hentry
  split_ifs at hentry
  · exact h.entryAfter (Option.filter_eq_some_iff.mp hentry).1
  · exact h.entryAfter hentry

/-- Locks last in every state reached. -/
theorem LocksLast.replay {history : List GuardCall} {now : ℕ} (h : ∀ now, LocksLast g now)
    (hchron : Chronological GuardCall.now history) (hto : ∀ c∈history, c.now≤now) :
    LocksLast (SweptTables.replay BruteForceGuard.after g history) now := by
  induction history generalizing now with
  | nil => exact h now
  | cons c past ih =>
    have hpast := List.pairwise_cons.mp hchron
    intro key entry hentry
    obtain ⟨hfirst,hlock⟩ := (ih hpast.2 hpast.1).after key entry hentry
    exact ⟨Nat.le_trans hfirst (hto c List.mem_cons_self),hlock⟩

/-- When a lockout lasts longer than a window, every call leaves a subject
alone that does not share its key. -/
theorem always_undisturbed {maxAttempts : UInt32} {windowSecs lockoutSecs start : ℕ}
    (hlonger : windowSecs<lockoutSecs) {history : List GuardCall}
    (hchron : Chronological GuardCall.now history)
    (hkey : ∀ c∈history, ∀ caller∈c.subject?, caller.key=subject.key → caller=subject) :
    Always (fun c past => Undisturbed subject (SweptTables.replay BruteForceGuard.after
      (.new maxAttempts windowSecs lockoutSecs start) past) c) history := by
  induction history with
  | nil => trivial
  | cons c past ih =>
    have hpast := List.pairwise_cons.mp hchron
    refine ⟨⟨hkey c List.mem_cons_self,?_⟩,ih hpast.2 fun d hd => hkey d
      (List.mem_cons_of_mem _ hd)⟩
    rintro swept hswept entry hentry ⟨lockEnd,hlock,hended⟩
    have hlocks : LocksLast (SweptTables.replay BruteForceGuard.after
        (.new maxAttempts windowSecs lockoutSecs start) past) c.now := by
      refine LocksLast.replay (fun now key entry hnone => ?_) hpast.2 hpast.1
      rw [BruteForceGuard.new,Std.ExtTreeMap.getElem?_empty] at hnone
      cases hnone
    rw [getElem?_swept hswept] at hentry
    have hlast := (hlocks.entryAfter hentry).2 lockEnd hlock
    obtain ⟨-,hwindow,hlockout⟩ := settings_replay (g:=BruteForceGuard.new maxAttempts windowSecs
      lockoutSecs start) past
    rw [hlockout] at hlast
    rw [hwindow]
    simp only [BruteForceGuard.new,fromSecs] at hlast ⊢
    omega

/-- Whatever others call, the answer to a check of a subject follows from the
subject's own calls, as long as every call leaves the subject alone. -/
theorem answer_eq_of_own (maxAttempts : UInt32) (windowSecs lockoutSecs : ℕ) (subject : Subject)
    {start start' now : ℕ} {history history' : List GuardCall}
    (hchron : Chronological GuardCall.now history)
    (hchron' : Chronological GuardCall.now history')
    (hto : ∀ c∈history, c.now≤now) (hto' : ∀ c∈history', c.now≤now)
    (h : Always (fun c past => Undisturbed subject (replay BruteForceGuard.after
      (.new maxAttempts windowSecs lockoutSecs start) past) c) history)
    (h' : Always (fun c past => Undisturbed subject (replay BruteForceGuard.after
      (.new maxAttempts windowSecs lockoutSecs start') past) c) history')
    (hsame : history.filter (isOwn subject)=history'.filter (isOwn subject)) :
    (replay BruteForceGuard.after (.new maxAttempts windowSecs lockoutSecs start) history).answer
        now subject=
      (replay BruteForceGuard.after (.new maxAttempts windowSecs lockoutSecs start')
        history').answer now subject := by
  have hentry : ownEntry (.new maxAttempts windowSecs lockoutSecs start) subject=
      ownEntry (.new maxAttempts windowSecs lockoutSecs start') subject :=
    ownEntry_congr ⟨rfl,rfl,rfl⟩
  rw [answer_replay hchron hto h,answer_replay hchron' hto' h',hsame,hentry]
  rfl

end

/-- A user at an address. -/
def victim : Subject := ⟨"2001:db8::5:6",.login "bob"⟩

/-- A user at another address. -/
def neighbour : Subject := ⟨"2001:db8::5:7",.login "bob"⟩

/-- Another user at another address, with the key of the first one. -/
def impostor : Subject := ⟨"2001:db8::5",.login "6:bob"⟩

/-- Failures of a neighbour make no difference. -/
theorem answer_eq_of_own_sample :
    (replay BruteForceGuard.after (.new 5 300 900 0)
      [.recordFailure 2 neighbour,.recordFailure 1 victim,.check 0 victim]).answer 3 victim=
    (replay BruteForceGuard.after (.new 5 300 900 0)
      [.recordFailure 1 victim,.check 0 victim]).answer 3 victim := by
  refine answer_eq_of_own 5 300 900 victim (by decide) (by decide) (by decide) (by decide)
    (always_undisturbed (by decide) (by decide) ?_)
    (always_undisturbed (by decide) (by decide) ?_) (by decide)
  · intro c hc caller hcaller hkey
    simp only [List.mem_cons,List.not_mem_nil,or_false] at hc
    rcases hc with rfl | rfl | rfl
    · cases hcaller
      exact absurd hkey (by decide)
    · cases hcaller
      rfl
    · cases hcaller
      rfl
  · intro c hc caller hcaller hkey
    simp only [List.mem_cons,List.not_mem_nil,or_false] at hc
    rcases hc with rfl | rfl
    · cases hcaller
      rfl
    · cases hcaller
      rfl

/-- Failed logins of one subject in a row, newest call first. -/
def failedLogins (subject : Subject) : ℕ → List GuardCall
  | 0 => []
  | n+1 => .recordFailure n subject::.check n subject::failedLogins subject n

/-- Five failures of another subject lock a user out who has not called. -/
theorem impostor_locks_victim :
    (failedLogins impostor 5).filter (isOwn victim)=[].filter (isOwn victim) ∧
    (replay BruteForceGuard.after (.new 5 300 900 0) (failedLogins impostor 5)).answer 5 victim≠
      (replay BruteForceGuard.after (.new 5 300 900 0) []).answer 5 victim := by
  refine ⟨by decide,?_⟩
  have hlocked : ((replay BruteForceGuard.after (.new 5 300 900 0)
      (failedLogins impostor 5)).answer 5 victim).isOk=false := by decide
  have hopen : ((replay BruteForceGuard.after (.new 5 300 900 0) []).answer 5 victim).isOk=true :=
    by decide
  intro hsame
  rw [hsame,hopen] at hlocked
  cases hlocked

end TokiSync.GuardSubjects
