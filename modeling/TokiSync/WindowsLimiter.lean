import TokiSync.ByteKeys
import TokiSync.SweptTables
import Std.Data.ExtTreeMap

/-!
# The limiter of window batches

A batch of windows is accepted unless one of the same user, provider and
device was accepted less than a minute before. The limiter keeps the instant
of the last accepted batch under a key that joins the three. When the map is
large, an accepted batch first drops the instants that are a minute old.
-/

namespace TokiSync.WindowsLimiter

open Runs SweptTables ByteKeys

/-- Nanoseconds between accepted batches. -/
def minInterval : ℕ := 60000000000

/-- Number of entries from which the map is swept. -/
def sweepAt : ℕ := 4096

/-- Instants of the last accepted batches. -/
abbrev LastAccepted := Std.ExtTreeMap String ℕ compare

/-- Key of a user, provider and device. -/
def limiterKey (userId provider deviceId : String) : String :=
  userId++"\u0001"++provider++"\u0001"++deviceId

/-- Whether an instant is less than the interval ago. -/
def isRecent (now prev : ℕ) : Bool := now-prev< minInterval

/-- Whether a batch is accepted, and the map afterwards. -/
def allow (last : LastAccepted) (now : ℕ) (userId provider deviceId : String) :
    Bool×LastAccepted :=
  let key := limiterKey userId provider deviceId
  if (last[key]?).any (isRecent now) then (false,last)
  else
    let kept := if last.size≥sweepAt then last.filter fun _ prev => isRecent now prev else last
    (true,kept.insert key now)

/-- A batch that arrives. -/
structure Call where
  /-- Instant of the call. -/
  now : ℕ
  /-- User who sends the batch. -/
  userId : String
  /-- Provider of the batch. -/
  provider : String
  /-- Device that sends the batch. -/
  deviceId : String

/-- Key of a call. -/
def Call.key (c : Call) : String := limiterKey c.userId c.provider c.deviceId

/-- Calls for the same user, provider and device. -/
def Call.SameTriple (c d : Call) : Prop :=
  c.userId=d.userId ∧ c.provider=d.provider ∧ c.deviceId=d.deviceId

/-- Ids without the character that joins them. -/
def Call.Separable (c : Call) : Prop :=
  '\u0001'∉c.userId.toList ∧ '\u0001'∉c.provider.toList ∧ '\u0001'∉c.deviceId.toList

/-- The map after one more call. -/
def afterCall (last : LastAccepted) (c : Call) : LastAccepted :=
  (allow last c.now c.userId c.provider c.deviceId).2

/-- Whether a call is accepted after the earlier ones. -/
def accepted (earlier : List Call) (c : Call) : Bool :=
  (allow (replay afterCall ∅ earlier) c.now c.userId c.provider c.deviceId).1

/-- An instant that is a minute old. -/
def Inert (now prev : ℕ) : Prop := isRecent now prev=false

/-- Last accepted instant of a key when its entry is never dropped. -/
def acceptAlone (key : String) (kept : Option ℕ) (c : Call) : Option ℕ :=
  if c.key=key then (if kept.any (isRecent c.now) then kept else some c.now) else kept

section

variable {last : LastAccepted} {c d : Call} {earlier : List Call} {key : String}

/-- Separable calls share a key when they share user, provider and device. -/
theorem key_eq_iff (hc : c.Separable) (hd : d.Separable) : c.key=d.key ↔ c.SameTriple d := by
  constructor
  · intro h
    rw [Call.key,Call.key,limiterKey,limiterKey] at h
    have hmark : "\u0001".toList=['\u0001'] := by decide
    have hassoc : ∀ user provider rest : String, user++"\u0001"++provider++"\u0001"++rest=
        user++"\u0001"++(provider++"\u0001"++rest) := by
      intro user provider rest
      simp only [String.append_assoc]
    rw [hassoc,hassoc] at h
    obtain ⟨huser,hrest⟩ := joined_inj hmark hc.1 hd.1 h
    exact ⟨huser,joined_inj hmark hc.2.1 hd.2.1 hrest⟩
  · rintro ⟨huser,hprovider,hdevice⟩
    rw [Call.key,Call.key,huser,hprovider,hdevice]

/-- A call is accepted when the entry of its key is not recent. -/
theorem accepted_eq : accepted earlier c=
    !((replay afterCall ∅ earlier)[c.key]?).any (isRecent c.now) := by
  rw [accepted,allow,←Call.key]
  by_cases h : ((replay afterCall ∅ earlier)[c.key]?).any (isRecent c.now)=true
  · rw [if_pos h,h]
    rfl
  · rw [if_neg h,Bool.eq_false_iff.mpr h]
    rfl

/-- Old instants do not become recent. -/
theorem Inert.later {now next prev : ℕ} (h : Inert now prev) (hle : now≤next) :
    Inert next prev := by
  unfold Inert isRecent at h ⊢
  rw [decide_eq_false_iff_not] at h ⊢
  omega

/-- A call keeps the entry of every key in agreement with the one of the key
alone. -/
theorem Agree.afterCall {kept : Option ℕ} (h : Agree Inert c.now last[key]? kept) :
    Agree Inert c.now (afterCall last c)[key]? (acceptAlone key kept c) := by
  rw [WindowsLimiter.afterCall,allow,acceptAlone,←Call.key]
  dsimp only
  by_cases hkey : c.key=key
  · have hsame : (last[key]?).any (isRecent c.now)=kept.any (isRecent c.now) :=
      h.apply_eq _ fun prev hold => by rw [Option.any_some,hold,Option.any_none]
    rw [if_pos hkey,hkey,hsame]
    split_ifs with hrecent
    · exact h
    · rw [Std.ExtTreeMap.getElem?_insert_self]
      exact Or.inl rfl
    · rw [Std.ExtTreeMap.getElem?_insert_self]
      exact Or.inl rfl
  · rw [if_neg hkey]
    have hother : ∀ m : LastAccepted, (m.insert c.key c.now)[key]?=m[key]? := by
      intro m
      rw [Std.ExtTreeMap.getElem?_insert,if_neg]
      rwa [Std.LawfulEqCmp.compare_eq_iff_eq]
    split_ifs with hrecent hlarge
    · exact h
    · rw [hother,Std.ExtTreeMap.getElem?_filter']
      exact h.filter fun prev _ hold => hold
    · rw [hother]
      exact h

/-- What a call finds is what the calls of its key alone would have left. -/
theorem accepted_alone (hchron : Chronological Call.now (c::earlier)) :
    accepted earlier c=!(replay (acceptAlone c.key) none earlier).any (isRecent c.now) := by
  rw [Chronological,List.pairwise_cons] at hchron
  have hagree : Agree Inert c.now (replay afterCall ∅ earlier)[c.key]?
      (replay (acceptAlone c.key) none earlier) :=
    Agree.replay (fun m => m[c.key]?) (acceptAlone c.key) (fun _ _ => True)
      (fun prev now next hle h => h.later hle)
      (fun m d kept _ h => Agree.afterCall h) (always_of_mem fun _ _ _ => trivial)
      hchron.2 hchron.1
  have hsame : ((replay afterCall ∅ earlier)[c.key]?).any (isRecent c.now)=
      (replay (acceptAlone c.key) none earlier).any (isRecent c.now) :=
    hagree.apply_eq _ fun prev hold => by rw [Option.any_some,hold,Option.any_none]
  rw [accepted_eq,hsame]

/-- The last accepted instant of a key is recent when a recent call of the key
was accepted. -/
theorem any_alone_iff (hchron : Chronological Call.now earlier) {now : ℕ}
    (hto : ∀ d∈earlier, d.now≤now) :
    (replay (acceptAlone key) none earlier).any (isRecent now)=true ↔
      ∃ d older, d::older<:+earlier ∧ d.key=key ∧ accepted older d=true ∧
        isRecent now d.now=true := by
  induction earlier generalizing now with
  | nil =>
    refine ⟨fun h => (by cases h),?_⟩
    rintro ⟨d,older,hsuffix,-⟩
    cases List.suffix_nil.mp hsuffix
  | cons c past ih =>
    have hpast := List.pairwise_cons.mp hchron
    have hih := ih hpast.2 fun d hd => hto d (List.mem_cons_of_mem _ hd)
    have hsplit : (∃ d older, d::older<:+c::past ∧ d.key=key ∧ accepted older d=true ∧
        isRecent now d.now=true) ↔
        (c.key=key ∧ accepted past c=true ∧ isRecent now c.now=true) ∨
          (replay (acceptAlone key) none past).any (isRecent now)=true := by
      rw [hih]
      simp only [List.suffix_cons_iff,List.cons.injEq]
      constructor
      · rintro ⟨d,older,⟨rfl,rfl⟩ | hsuffix,h⟩
        · exact Or.inl h
        · exact Or.inr ⟨d,older,hsuffix,h⟩
      · rintro (h | ⟨d,older,hsuffix,h⟩)
        · exact ⟨c,past,Or.inl ⟨rfl,rfl⟩,h⟩
        · exact ⟨d,older,Or.inr hsuffix,h⟩
    rw [hsplit,replay,acceptAlone]
    by_cases hkey : c.key=key
    · have hdecide := accepted_alone hchron
      rw [hkey] at hdecide
      rw [if_pos hkey,hdecide]
      split_ifs with hrecent
      · rw [hrecent]
        simp
      · rw [Option.any_some,Bool.eq_false_iff.mpr hrecent]
        simp only [hkey,Bool.not_false,true_and]
        refine ⟨Or.inl,?_⟩
        rintro (h | h)
        · exact h
        · obtain ⟨d,older,hsuffix,-,-,hd⟩ := hih.mp h
          have hle := hpast.1 d (hsuffix.subset List.mem_cons_self)
          unfold isRecent at hd ⊢
          rw [decide_eq_true_iff] at hd ⊢
          omega
    · rw [if_neg hkey]
      simp only [hkey,false_and,false_or]

/-- In every sequence of calls at non-decreasing instants, a call is accepted
if and only if every earlier accepted call of the same user, provider and
device came at least the interval before it. -/
theorem accepted_iff_spaced {earlier : List Call} {c : Call}
    (hchron : Chronological Call.now (c::earlier)) (hids : ∀ d∈c::earlier, d.Separable) :
    accepted earlier c=true ↔ ∀ d older, d::older<:+earlier → d.SameTriple c →
      accepted older d=true → minInterval≤c.now-d.now := by
  have hpast := List.pairwise_cons.mp hchron
  rw [accepted_alone hchron,Bool.not_eq_true',Bool.eq_false_iff,Ne,
    any_alone_iff hpast.2 hpast.1]
  have hsame : ∀ {d : Call} {older : List Call}, d::older<:+earlier →
      (d.key=c.key ↔ d.SameTriple c) := fun {d older} hsuffix =>
    key_eq_iff (hids d (List.mem_cons_of_mem _ (hsuffix.subset List.mem_cons_self)))
      (hids c List.mem_cons_self)
  constructor
  · intro hnone d older hsuffix htriple hacc
    by_contra hrecent
    exact hnone ⟨d,older,hsuffix,(hsame hsuffix).mpr htriple,hacc,
      decide_eq_true (Nat.lt_of_not_le hrecent)⟩
  · rintro hall ⟨d,older,hsuffix,hkey,hacc,hrecent⟩
    exact absurd (hall d older hsuffix ((hsame hsuffix).mp hkey) hacc)
      (Nat.not_le_of_lt (of_decide_eq_true hrecent))

end

/-- A batch that comes one interval after the last one is accepted. -/
theorem accepted_iff_spaced_sample : accepted [⟨0,"u1","codex","d1"⟩] ⟨60000000000,"u1","codex","d1"⟩=
    true := by
  refine (accepted_iff_spaced (by decide) ?_).mpr ?_
  · intro d hd
    simp only [List.mem_cons,List.not_mem_nil,or_false] at hd
    rcases hd with rfl | rfl
    · exact ⟨by decide,by decide,by decide⟩
    · exact ⟨by decide,by decide,by decide⟩
  · intro d older hsuffix _ _
    have hmem := hsuffix.subset List.mem_cons_self
    rw [List.mem_singleton.mp hmem]
    decide

end TokiSync.WindowsLimiter
