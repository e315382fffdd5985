import TokiSync.VirtualQueries

/-!
# The tokens of a query text

A text is spelled as tokens: maximal identifiers, punctuation, quoted strings
and range selectors, with ASCII whitespace between them. The cursor operations
of the parser read the next token or nothing, so what they do is stated
through one function that returns it. Positions that differ by whitespace only
count as the same.
-/

namespace TokiSync.QueryTokens

open TokiSync.DurationText TokiSync.VirtualQueries

/-- Tokens of a query. -/
inductive Token where
  /-- An identifier. -/
  | ident (name : String)
  /-- A punctuation character. -/
  | punct (c : Char)
  /-- A string literal, without its quotes. -/
  | quoted (value : String)
  /-- A range selector, without its brackets. -/
  | range (text : String)
  deriving DecidableEq

/-- Punctuation of the grammar. -/
def isPunct (c : Char) : Bool :=
  c = '(' || c = ')' || c = '{' || c = '}' || c = ',' || c = '='

/-- Whitespace allowed between tokens. -/
def Spaces (text : List Char) : Prop := ∀ c∈text, isAsciiWhitespace c

/-- How a token is written in front of a text. -/
inductive Writes : Token → List Char → List Char → Prop where
  /-- An identifier is maximal. -/
  | ident (name : String) (rest : List Char) (hne : name≠"")
      (hchars : ∀ c∈name.toList, isIdentChar c)
      (hmaximal : ∀ c, rest.head?=some c → isIdentChar c=false) :
      Writes (.ident name) (name.toList++rest) rest
  | punct (c : Char) (rest : List Char) (hpunct : isPunct c) : Writes (.punct c) (c::rest) rest
  /-- A string literal has neither quotes nor backslashes inside. -/
  | quoted (value : String) (rest : List Char) (hquote : '"'∉value.toList)
      (hescape : '\\'∉value.toList) :
      Writes (.quoted value) ('"'::(value.toList++ '"'::rest)) rest
  | range (text : String) (rest : List Char) (hclose : ']'∉text.toList) :
      Writes (.range text) ('['::(text.toList++ ']'::rest)) rest

/-- How a list of tokens is spelled. -/
inductive Spelled : List Token → List Char → Prop where
  | done (spaces : List Char) (h : Spaces spaces) : Spelled [] spaces
  | next (spaces text rest : List Char) (token : Token) (tokens : List Token) (h : Spaces spaces)
      (hwrites : Writes token text rest) (hrest : Spelled tokens rest) :
      Spelled (token::tokens) (spaces++text)

/-- The token a text begins with and the text behind it. -/
def tokenAt : List Char → Option (Token×List Char)
  | [] => none
  | c::rest =>
    if isIdentChar c then
      some (.ident (String.ofList ((c::rest).takeWhile isIdentChar)),
        (c::rest).dropWhile isIdentChar)
    else if c = '"' then
      match quotedValue rest with
      | .ok (value,left) => some (.quoted (String.ofList value),left)
      | .error _ => none
    else if c = '[' then
      match rest.dropWhile (· ≠ ']') with
      | [] => none
      | _::left => some (.range (String.ofList (rest.takeWhile (· ≠ ']'))),left)
    else if isPunct c then some (.punct c,rest)
    else none

/-- The next token and the text behind it. -/
def next (cs : List Char) : Option (Token×List Char) := tokenAt (skipWs cs)

/-- Skipping whitespace twice is skipping it once. -/
@[simp] theorem skipWs_skipWs (cs : List Char) : skipWs (skipWs cs)=skipWs cs := by
  unfold skipWs
  induction cs with
  | nil => rfl
  | cons c cs ih =>
    by_cases hc : isAsciiWhitespace c
    · simpa [hc] using ih
    · simp [hc]

theorem skipWs_of_spaces {spaces : List Char} (h : Spaces spaces) (cs : List Char) :
    skipWs (spaces++cs)=skipWs cs := by
  unfold skipWs
  induction spaces with
  | nil => rfl
  | cons c spaces ih =>
    have hc : isAsciiWhitespace c := h c List.mem_cons_self
    rw [List.cons_append,List.dropWhile_cons_of_pos hc]
    exact ih fun d hd => h d (List.mem_cons_of_mem _ hd)

theorem skipWs_of_head {c : Char} (h : isAsciiWhitespace c=false) (cs : List Char) :
    skipWs (c::cs)=c::cs := by
  unfold skipWs
  rw [List.dropWhile_cons_of_neg (by rw [h]; simp)]

/-- A text is whitespace in front of what is left after skipping it. -/
theorem exists_spaces (cs : List Char) : ∃ spaces, Spaces spaces ∧ cs=spaces++skipWs cs := by
  refine ⟨cs.takeWhile isAsciiWhitespace,?_,(List.takeWhile_append_dropWhile).symm⟩
  intro c hc
  exact List.mem_takeWhile_imp hc

theorem skipWs_eq_nil_iff {cs : List Char} : skipWs cs=[] ↔ Spaces cs := by
  unfold skipWs Spaces
  exact List.dropWhile_eq_nil_iff

theorem next_skipWs (cs : List Char) : next (skipWs cs)=next cs := by
  unfold next
  rw [skipWs_skipWs]

theorem next_congr {cs cs' : List Char} (h : skipWs cs=skipWs cs') : next cs=next cs' := by
  rw [← next_skipWs cs,h,next_skipWs]

/-- A literal ends at the first quote and has no backslash before it. -/
theorem quotedValue_eq_ok_iff {cs value left : List Char} :
    quotedValue cs=.ok (value,left) ↔ cs=value++ '"'::left ∧ '"'∉value ∧ '\\'∉value := by
  induction cs generalizing value with
  | nil =>
    constructor
    · intro h
      cases h
    · intro h
      simp at h
  | cons c cs ih =>
    rw [quotedValue]
    by_cases hquote : c = '"'
    · rw [if_pos hquote]
      constructor
      · intro h
        cases h
        simp [hquote]
      · intro h
        cases value with
        | nil => simp_all
        | cons d value =>
          have hd := (List.cons.inj h.1).1
          simp [← hd,hquote] at h
    · rw [if_neg hquote]
      by_cases hescape : c = '\\'
      · rw [if_pos hescape]
        constructor
        · intro h
          cases h
        · intro h
          cases value with
          | nil => exact absurd (List.cons.inj h.1).1 hquote
          | cons d value =>
            have hd := (List.cons.inj h.1).1
            simp [← hd,hescape] at h
      · rw [if_neg hescape]
        constructor
        · intro h
          cases hrest : quotedValue cs with
          | error reason =>
            simp only [hrest,bind,Except.bind] at h
            cases h
          | ok found =>
            simp only [hrest,bind,Except.bind,pure,Except.pure] at h
            cases h
            have hfacts := ih.mp hrest
            simp [← hfacts.1,hfacts.2.1,hfacts.2.2,Ne.symm hquote,Ne.symm hescape]
        · intro h
          cases value with
          | nil => exact absurd (List.cons.inj h.1).1 hquote
          | cons d value =>
            have hd := List.cons.inj h.1
            have hfound : quotedValue cs=.ok (value,left) := by
              refine ih.mpr ⟨hd.2,?_,?_⟩
              · exact fun hmem => h.2.1 (List.mem_cons_of_mem _ hmem)
              · exact fun hmem => h.2.2 (List.mem_cons_of_mem _ hmem)
            rw [hfound,← hd.1]
            rfl

/-- No character starts two kinds of tokens, and none is whitespace. -/
theorem head_of_writes {token : Token} {text rest : List Char} (h : Writes token text rest) :
    ∃ c cs, text=c::cs ∧ isAsciiWhitespace c=false := by
  have hident : ∀ c, isIdentChar c → isAsciiWhitespace c=false := by
    intro c hc
    rw [← Bool.not_eq_true]
    intro hspace
    simp only [isAsciiWhitespace,Bool.or_eq_true,decide_eq_true_eq] at hspace
    rcases hspace with (((h | h) | h) | h) | h <;> rw [h] at hc <;> exact absurd hc (by decide)
  have hpunct : ∀ c, isPunct c → isAsciiWhitespace c=false := by
    intro c hc
    simp only [isPunct,Bool.or_eq_true,decide_eq_true_eq] at hc
    rcases hc with ((((h | h) | h) | h) | h) | h <;> rw [h] <;> decide
  cases h with
  | ident name rest hne hchars hmaximal =>
    cases hname : name.toList with
    | nil => exact absurd (String.toList_eq_nil_iff.mp hname) hne
    | cons c cs =>
      have hc : isIdentChar c := hchars c (by rw [hname]; exact List.mem_cons_self)
      exact ⟨c,cs++rest,rfl,hident c hc⟩
  | punct c rest hc => exact ⟨c,rest,rfl,hpunct c hc⟩
  | quoted value rest _ _ => exact ⟨'"',_,rfl,by decide⟩
  | range text rest _ => exact ⟨'[',_,rfl,by decide⟩

/-- A run of characters up to one outside the class. -/
theorem run_append {p : Char → Bool} {run rest : List Char} (hrun : ∀ c∈run, p c)
    (hstop : ∀ c, rest.head?=some c → p c=false) :
    (run++rest).takeWhile p=run ∧ (run++rest).dropWhile p=rest := by
  rw [List.takeWhile_append_of_pos hrun,List.dropWhile_append_of_pos hrun]
  cases rest with
  | nil => simp
  | cons c rest =>
    have hc : p c=false := hstop c rfl
    simp [hc]

/-- A text begins with a token exactly when the token is written there. -/
theorem tokenAt_eq_some_iff {token : Token} {text rest : List Char} :
    tokenAt text=some (token,rest) ↔ Writes token text rest := by
  constructor
  · intro h
    cases text with
    | nil => cases h
    | cons c cs =>
      rw [tokenAt] at h
      by_cases hident : isIdentChar c
      · rw [if_pos hident] at h
        cases h
        have hsplit : c::cs=(String.ofList ((c::cs).takeWhile isIdentChar)).toList++
            (c::cs).dropWhile isIdentChar := by
          rw [String.toList_ofList]
          exact List.takeWhile_append_dropWhile.symm
        have hwrites := Writes.ident (String.ofList ((c::cs).takeWhile isIdentChar))
          ((c::cs).dropWhile isIdentChar) (by simp [hident]) (by
            rw [String.toList_ofList]
            exact fun d hd => List.mem_takeWhile_imp hd) (by
            intro d hd
            have hhead := List.head?_dropWhile_not isIdentChar (c::cs)
            rw [hd] at hhead
            exact hhead)
        rw [← hsplit] at hwrites
        exact hwrites
      · rw [if_neg hident] at h
        by_cases hquote : c = '"'
        · rw [if_pos hquote] at h
          cases hvalue : quotedValue cs with
          | error reason =>
            rw [hvalue] at h
            cases h
          | ok found =>
            rw [hvalue] at h
            cases h
            have hfacts := quotedValue_eq_ok_iff.mp hvalue
            have hwrites := Writes.quoted (String.ofList found.1) found.2
              (by rw [String.toList_ofList]; exact hfacts.2.1)
              (by rw [String.toList_ofList]; exact hfacts.2.2)
            rw [String.toList_ofList,← hfacts.1] at hwrites
            rw [hquote]
            exact hwrites
        · rw [if_neg hquote] at h
          by_cases hrange : c = '['
          · rw [if_pos hrange] at h
            cases hclose : cs.dropWhile (· ≠ ']') with
            | nil =>
              rw [hclose] at h
              cases h
            | cons d left =>
              rw [hclose] at h
              cases h
              have hd : d = ']' := by
                have hhead := List.head?_dropWhile_not (fun x => decide (x ≠ ']')) cs
                rw [hclose] at hhead
                simpa using hhead
              have hwrites := Writes.range (String.ofList (cs.takeWhile (· ≠ ']'))) rest (by
                rw [String.toList_ofList]
                intro hmem
                simpa using List.mem_takeWhile_imp hmem)
              have hsplit : cs.takeWhile (· ≠ ']')++ ']'::rest=cs := by
                rw [← hd,← hclose,hd]
                exact List.takeWhile_append_dropWhile
              rw [String.toList_ofList,hsplit] at hwrites
              rw [hrange]
              exact hwrites
          · rw [if_neg hrange] at h
            by_cases hpunct : isPunct c
            · rw [if_pos hpunct] at h
              cases h
              exact Writes.punct c _ hpunct
            · rw [if_neg hpunct] at h
              cases h
  · intro h
    cases h with
    | ident name rest hne hchars hmaximal =>
      have hrun := run_append hchars hmaximal
      cases hname : name.toList with
      | nil => exact absurd (String.toList_eq_nil_iff.mp hname) hne
      | cons c cs =>
        have hc : isIdentChar c := hchars c (by rw [hname]; exact List.mem_cons_self)
        rw [List.cons_append,tokenAt,if_pos hc,← List.cons_append,← hname,hrun.1,hrun.2,
          String.ofList_toList]
    | punct c rest hc =>
      have hother : isIdentChar c=false ∧ c ≠ '"' ∧ c ≠ '[' := by
        simp only [isPunct,Bool.or_eq_true,decide_eq_true_eq] at hc
        rcases hc with ((((h | h) | h) | h) | h) | h <;> rw [h] <;> decide
      rw [tokenAt,hother.1]
      simp [hother.2.1,hother.2.2,hc]
    | quoted value rest hquote hescape =>
      have hvalue : quotedValue (value.toList++ '"'::rest)=.ok (value.toList,rest) :=
        quotedValue_eq_ok_iff.mpr ⟨rfl,hquote,hescape⟩
      rw [tokenAt,if_neg (by decide),if_pos rfl,hvalue]
      simp
    | range text rest hclose =>
      have hinside : ∀ c∈text.toList, decide (c ≠ ']')=true := by
        intro c hc
        have hne : c ≠ ']' := fun h => hclose (h ▸ hc)
        simpa using hne
      have hstop : ∀ c, (']'::rest).head?=some c → decide (c ≠ ']')=false := by
        intro c hc
        simp only [List.head?_cons,Option.some.injEq] at hc
        simp [← hc]
      have hrun := run_append hinside hstop
      rw [tokenAt,if_neg (by decide),if_neg (by decide),if_pos rfl,hrun.1,hrun.2]
      simp

/-- The next token is written behind whitespace. -/
theorem next_eq_some_iff {token : Token} {cs rest : List Char} :
    next cs=some (token,rest) ↔
      ∃ spaces text, Spaces spaces ∧ Writes token text rest ∧ cs=spaces++text := by
  unfold next
  constructor
  · intro h
    obtain ⟨spaces,hspaces,hcs⟩ := exists_spaces cs
    exact ⟨spaces,skipWs cs,hspaces,tokenAt_eq_some_iff.mp h,hcs⟩
  · intro h
    obtain ⟨spaces,text,hspaces,hwrites,hcs⟩ := h
    obtain ⟨c,tail,htext,hhead⟩ := head_of_writes hwrites
    have hskip : skipWs cs=text := by
      rw [hcs,skipWs_of_spaces hspaces,htext,skipWs_of_head hhead]
    rw [hskip]
    exact tokenAt_eq_some_iff.mpr hwrites

/-- Reading tokens leads from one text to another, up to whitespace. -/
def Scan : List Token → List Char → List Char → Prop
  | [],cs,rest => skipWs cs=skipWs rest
  | token::tokens,cs,rest => ∃ mid, next cs=some (token,mid) ∧ Scan tokens mid rest

/-- A text is spelled as tokens when reading them leads to its end. -/
theorem spelled_iff_scan {tokens : List Token} {cs : List Char} :
    Spelled tokens cs ↔ Scan tokens cs [] := by
  constructor
  · intro h
    induction h with
    | done spaces h =>
      have hskip := skipWs_eq_nil_iff.mpr h
      rw [Scan,hskip]
      rfl
    | next spaces text rest token tokens h hwrites _ ih =>
      exact ⟨rest,next_eq_some_iff.mpr ⟨spaces,text,h,hwrites,rfl⟩,ih⟩
  · intro h
    induction tokens generalizing cs with
    | nil => exact Spelled.done cs (skipWs_eq_nil_iff.mp h)
    | cons token tokens ih =>
      obtain ⟨mid,hnext,hrest⟩ := h
      obtain ⟨spaces,text,hspaces,hwrites,hcs⟩ := next_eq_some_iff.mp hnext
      rw [hcs]
      exact Spelled.next spaces text mid token tokens hspaces hwrites (ih hrest)

theorem Scan.congr {tokens : List Token} {cs cs' rest rest' : List Char}
    (h : Scan tokens cs rest) (hcs : skipWs cs=skipWs cs') (hrest : skipWs rest=skipWs rest') :
    Scan tokens cs' rest' := by
  induction tokens generalizing cs cs' with
  | nil => exact hcs.symm.trans (h.trans hrest)
  | cons token tokens ih =>
    obtain ⟨mid,hnext,htail⟩ := h
    exact ⟨mid,by rw [← next_congr hcs]; exact hnext,ih htail rfl⟩

theorem scan_append {first second : List Token} {cs rest : List Char} :
    Scan (first++second) cs rest ↔ ∃ mid, Scan first cs mid ∧ Scan second mid rest := by
  induction first generalizing cs with
  | nil =>
    constructor
    · intro h
      exact ⟨cs,rfl,h⟩
    · intro h
      obtain ⟨mid,hmid,hrest⟩ := h
      exact hrest.congr hmid.symm rfl
  | cons token first ih =>
    constructor
    · intro h
      obtain ⟨mid,hnext,htail⟩ := h
      obtain ⟨mid',hfirst,hsecond⟩ := ih.mp htail
      exact ⟨mid',⟨mid,hnext,hfirst⟩,hsecond⟩
    · intro h
      obtain ⟨mid',hfirst,hsecond⟩ := h
      obtain ⟨mid,hnext,htail⟩ := hfirst
      exact ⟨mid,hnext,ih.mpr ⟨mid',htail,hsecond⟩⟩

/-- An identifier is consumed when it is the next token. -/
theorem ident_eq (cs : List Char) :
    ident cs=match next cs with
      | some (.ident name,rest) => (some name,rest)
      | _ => (none,skipWs cs) := by
  unfold ident next
  cases hcs : skipWs cs with
  | nil => rfl
  | cons c rest =>
    by_cases hc : isIdentChar c
    · simp [tokenAt,hc]
    · have htake : (c::rest).takeWhile isIdentChar=[] := by simp [hc]
      have hdrop : (c::rest).dropWhile isIdentChar=c::rest := by simp [hc]
      have hnot : ∀ name left, tokenAt (c::rest)≠some (.ident name,left) := by
        intro name left h
        obtain ⟨hne,hchars,htext⟩ : name≠"" ∧ (∀ c∈name.toList, isIdentChar c) ∧
            name.toList++left=c::rest := by
          generalize c::rest=text at h
          cases tokenAt_eq_some_iff.mp h with
          | ident _ _ hne hchars _ => exact ⟨hne,hchars,rfl⟩
        cases hname : name.toList with
        | nil => exact hne (String.toList_eq_nil_iff.mp hname)
        | cons d ds =>
          rw [hname] at htext
          have hd : d=c := (List.cons.inj htext).1
          have hident := hchars d (by rw [hname]; exact List.mem_cons_self)
          rw [hd] at hident
          exact hc hident
      rw [htake,hdrop]
      dsimp only
      rw [if_pos rfl]
      split
      · rename_i name left htoken
        exact absurd htoken (hnot name left)
      · rfl

/-- A character is consumed when it is the next one behind whitespace. -/
theorem eat_of_skipWs {b : Char} {cs rest : List Char} (h : skipWs cs=b::rest) :
    eat b cs=(true,rest) := by
  unfold eat
  rw [h]
  exact if_pos rfl

theorem eat_of_head_ne {b : Char} {cs : List Char} (h : (skipWs cs).head?≠some b) :
    eat b cs=(false,skipWs cs) := by
  unfold eat
  cases hcs : skipWs cs with
  | nil => rfl
  | cons c rest =>
    rw [hcs] at h
    exact if_neg fun hc => h (congrArg some hc)

/-- A punctuation character is consumed when it is the next token. -/
theorem eat_eq {b : Char} (hb : isPunct b) (cs : List Char) :
    eat b cs=match next cs with
      | some (.punct c,rest) => if c=b then (true,rest) else (false,skipWs cs)
      | _ => (false,skipWs cs) := by
  unfold eat next
  cases hcs : skipWs cs with
  | nil => rfl
  | cons c rest =>
    by_cases hc : c=b
    · have htoken : tokenAt (c::rest)=some (.punct c,rest) :=
        tokenAt_eq_some_iff.mpr (Writes.punct c rest (by rw [hc]; exact hb))
      rw [htoken]
    · have hpunct : ∀ d left, tokenAt (c::rest)=some (.punct d,left) → d=c := by
        intro d left h
        generalize htext : c::rest=text at h
        cases tokenAt_eq_some_iff.mp h with
        | punct _ _ _ => exact (List.cons.inj htext).1.symm
      simp only [hc,if_false]
      split
      · rename_i d left htoken
        rw [hpunct d left htoken,if_neg hc]
      · rfl

/-- A string literal is consumed when it is the next token. -/
theorem quoted_eq_ok_iff {cs rest : List Char} {value : String} :
    quoted cs=.ok (value,rest) ↔ next cs=some (.quoted value,rest) := by
  unfold quoted next
  cases hcs : skipWs cs with
  | nil => simp [tokenAt]
  | cons c tail =>
    by_cases hc : c = '"'
    · rw [hc,tokenAt,if_neg (by decide),if_pos rfl]
      cases hvalue : quotedValue tail with
      | error reason => simp [hvalue,bind,Except.bind]
      | ok found => simp [hvalue,bind,Except.bind,pure,Except.pure]
    · constructor
      · intro h
        split at h
        · rename_i hquote
          exact absurd (List.cons.inj hquote).1 hc
        · cases h
      · intro h
        rw [tokenAt,if_neg hc] at h
        split_ifs at h
        · cases h
        · cases hclose : tail.dropWhile (· ≠ ']') with
          | nil =>
            rw [hclose] at h
            cases h
          | cons d left =>
            rw [hclose] at h
            cases h
        · cases h

end TokiSync.QueryTokens
