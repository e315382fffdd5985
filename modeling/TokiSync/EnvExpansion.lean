import TokiSync.Placeholders

/-!
# Environment variables in the configuration

The text of the configuration file is expanded before it is parsed. The loop
replaces one `${NAME}` after another inside of the string that it scans, and
goes on behind the value that it has written. Positions are byte positions, and
a slice at one inside of a character would panic. The loop is written with a
bound on its turns; more of them than the text has bytes are always enough,
however long the values are.
-/

namespace TokiSync.EnvExpansion

open ByteKeys Utf8Slices TextEdits Placeholders

/-- Why a variable has no value. -/
inductive VarError where
  | notPresent
  | notUnicode (raw : Bytes)

/-- Outcome of the expansion. -/
inductive Outcome where
  | returned (text : String)
  /-- A slice was taken that does not exist. -/
  | panicked
  /-- The loop was still running when its turns were over. -/
  | diverged
  deriving DecidableEq

/-- What a turn of the loop leads to. -/
inductive Turn where
  /-- The loop ends with the string as it is. -/
  | ends (result : String)
  /-- The search goes on from a position of the string. -/
  | goesOn (result : String) (searchFrom : ℕ)

section

variable (environ : Bytes → Option Bytes)

/-- Read a variable of the environment. -/
def var (name : String) : Except VarError String :=
  match environ (utf8 name) with
  | none => .error .notPresent
  | some raw =>
    match String.fromUTF8? ⟨raw.toArray⟩ with
    | some value => .ok value
    | none => .error (.notUnicode raw)

/-- The value of a variable, or the empty string. -/
def valueOf (name : String) : String :=
  match var environ name with
  | .ok value => value
  | .error _ => ""

/-- One turn of the loop; none where a slice panics. -/
def turn (result : String) (searchFrom : ℕ) : Option Turn := do
  let behind ← slice result searchFrom (utf8 result).length
  match find "$\x7b" behind with
  | none => pure (.ends result)
  | some rel =>
    let start := searchFrom+rel
    let opened ← slice result start (utf8 result).length
    match find "\x7d" opened with
    | none => pure (.ends result)
    | some i =>
      let stop := start+i
      let varName ← slice result (start+2) stop
      let value := valueOf environ varName
      let result ← replaceRange result start (stop+1) value
      pure (.goesOn result (start+(utf8 value).length))

/-- Turns of the loop, at most as many as given. -/
def expandLoop : ℕ → String → ℕ → Outcome
  | 0,_,_ => .diverged
  | turns+1,result,searchFrom =>
    match turn environ result searchFrom with
    | none => .panicked
    | some (.ends result) => .returned result
    | some (.goesOn result searchFrom) => expandLoop turns result searchFrom

/-- Expand the variables of a text. -/
def expandEnv (s : String) (turns : ℕ) : Outcome := expandLoop environ turns s 0

/-- Values of names as characters. -/
def valueChars (name : List Char) : List Char := (valueOf environ (String.ofList name)).toList

/-- What the expansion should be: one pass over the characters of the text. -/
def onePass (s : String) : String :=
  String.ofList (fill '$' '{' '}' (valueChars environ) none s.toList)

end

section

variable {environ : Bytes → Option Bytes} {done cs front back name rest : List Char}

/-- A position behind characters already written stands in front of the rest. -/
theorem at_done (done cs : List Char) :
    At (String.ofList (done++cs)) (bytesOf done).length cs :=
  ⟨done,String.toList_ofList,rfl⟩

/-- Where no placeholder opens the loop ends. -/
theorem turn_absent (h : ¬['$','{']<:+:cs) :
    turn environ (String.ofList (done++cs)) (bytesOf done).length=
      some (.ends (String.ofList (done++cs))) := by
  have hfind : find "$\x7b" (String.ofList cs)=none := (find_eq_none_iff rfl).mpr h
  rw [turn,At.slice_end (at_done done cs)]
  simp only [Option.bind_eq_bind,Option.bind_some,hfind,Option.pure_def]

/-- The first placeholder of the rest is found. -/
theorem find_opening (h : First ['$','{'] cs front back) :
    find "$\x7b" (String.ofList cs)=some (bytesOf front).length :=
  find_of_first rfl h

/-- There the string goes on with the placeholder. -/
theorem at_opening (done : List Char) (h : First ['$','{'] cs front back) :
    At (String.ofList (done++cs)) ((bytesOf done).length+(bytesOf front).length)
      (['$','{']++back) := by
  have hat := at_done done cs
  rw [h.split,List.append_assoc] at hat ⊢
  exact hat.move

/-- Its closing brace is searched from there on. -/
theorem find_closing (hname : '}'∉name) (rest : List Char) :
    find "\x7d" (String.ofList (['$','{']++(name++ '}' :: rest)))=
      some (2+(bytesOf name).length) := by
  have hopened : '}'∉['$','{']++name := by simpa using hname
  have hfirst := first_singleton hopened rest
  rw [List.append_assoc] at hfirst
  rw [find_of_first rfl hfirst,bytesOf_append,List.length_append]
  rfl

/-- Where a placeholder opens that is not closed the loop ends. -/
theorem turn_unclosed (h : First ['$','{'] cs front back) (hback : '}'∉back) :
    turn environ (String.ofList (done++cs)) (bytesOf done).length=
      some (.ends (String.ofList (done++cs))) := by
  have hclosing : find "\x7d" (String.ofList (['$','{']++back))=none := by
    refine (find_eq_none_iff rfl).mpr ?_
    intro hinfix
    have hmem : '}'∈['$','{']++back := hinfix.subset List.mem_cons_self
    simp [hback] at hmem
  rw [turn,At.slice_end (at_done done cs)]
  simp only [Option.bind_eq_bind,Option.bind_some,find_opening h,At.slice_end (at_opening done h),
    hclosing,Option.pure_def]

/-- A placeholder that is closed is replaced, and the search goes on behind the
value. -/
theorem turn_closed (h : First ['$','{'] cs front (name++ '}' :: rest)) (hname : '}'∉name) :
    turn environ (String.ofList (done++cs)) (bytesOf done).length=
      some (.goesOn (String.ofList (done++front++valueChars environ name++rest))
        (bytesOf (done++front++valueChars environ name)).length) := by
  have hat := at_opening done h
  have hvar := hat.move.slice
  have hmid : (bytesOf (['$','{']++name++['}'])).length=2+(bytesOf name).length+1 := by
    rw [bytesOf_append,bytesOf_append,List.length_append,List.length_append]
    rfl
  have hwhole : done++cs=done++front++(['$','{']++name++['}'])++rest := by
    rw [h.split]
    simp only [List.append_assoc,List.cons_append,List.nil_append]
  have hreplace := replaceRange_eq (done++front) (['$','{']++name++['}']) rest
    (valueOf environ (String.ofList name))
  have htwo : (bytesOf ['$','{']).length=2 := rfl
  rw [htwo,Nat.add_assoc _ 2] at hvar
  rw [←hwhole,hmid,bytesOf_append,List.length_append,←Nat.add_assoc _ (2+_) 1] at hreplace
  rw [turn,At.slice_end (at_done done cs)]
  simp only [Option.bind_eq_bind,Option.bind_some,find_opening h,At.slice_end hat,
    find_closing hname,hvar,hreplace]
  rw [bytesOf_append,bytesOf_append,List.length_append,List.length_append,utf8_eq_bytesOf]
  rfl

/-- From any position the loop writes the pass over the rest of the string
behind what it has written. Every turn that goes on takes characters away from
that rest, whatever the value adds to the string. -/
theorem expandLoop_eq (environ : Bytes → Option Bytes) (done cs : List Char) {turns : ℕ}
    (h : cs.length< turns) :
    expandLoop environ turns (String.ofList (done++cs)) (bytesOf done).length=
      .returned (String.ofList (done++fill '$' '{' '}' (valueChars environ) none cs)) := by
  induction turns generalizing done cs with
  | zero => exact absurd h (Nat.not_lt_zero _)
  | succ turns ih =>
    by_cases hopens : ['$','{']<:+:cs
    · obtain ⟨front,back,hfirst⟩ := exists_first hopens
      rw [fill_first hfirst]
      by_cases hcloses : '}'∈back
      · obtain ⟨name,rest,rfl,hname⟩ := List.eq_append_cons_of_mem hcloses
        have hrest : rest.length< turns := by
          have hlength := congrArg List.length hfirst.split
          simp only [List.length_append,List.length_cons,List.length_nil] at hlength
          omega
        rw [expandLoop,turn_closed hfirst hname,fill_closed hname]
        dsimp only
        rw [ih (done++front++valueChars environ name) rest hrest,List.nil_append]
        simp only [List.append_assoc]
      · rw [expandLoop,turn_unclosed hfirst hcloses,fill_unclosed hcloses,hfirst.split]
        simp only [List.append_assoc,List.nil_append,List.cons_append]
    · rw [expandLoop,turn_absent hopens,fill_absent hopens]

/-- The expansion ends after at most one turn more than the text has bytes,
takes every slice at character boundaries and returns the text of one pass, for
every environment. -/
theorem expandEnv_eq_onePass (environ : Bytes → Option Bytes) (s : String) {turns : ℕ}
    (h : (utf8 s).length< turns) : expandEnv environ s turns=.returned (onePass environ s) := by
  have hlength : s.toList.length≤(utf8 s).length := by
    rw [utf8_eq_bytesOf]
    exact length_le_bytesOf s.toList
  have hloop := expandLoop_eq environ [] s.toList (hlength.trans_lt h)
  rw [List.nil_append,String.ofList_toList] at hloop
  exact hloop

/-- A value that opens a placeholder and closes it is not expanded again, and
neither is an opening without a closing brace. -/
theorem expandEnv_eq_onePass_nested :
    expandEnv (fun name => if name=utf8 "A" then some (utf8 "$\x7bA\x7d") else none)
      "x$\x7bA\x7d\x7d$\x7bB\x7d é$\x7bA" 20=.returned "x$\x7bA\x7d\x7d é$\x7bA" := by
  rw [expandEnv_eq_onePass _ _ (by decide +kernel)]
  decide +kernel

end

end TokiSync.EnvExpansion
