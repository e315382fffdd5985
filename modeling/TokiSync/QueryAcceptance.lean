import TokiSync.QueryLists

/-!
# The parser accepts exactly its language

The parser tries the aggregation wrapper, the range function and the trailing
by-clause at saved positions. Each part is characterised by the tokens in front
of it; put together, a query is accepted with a meaning exactly when its text
is spelled as the tokens of an admissible tree with that meaning.
-/

namespace TokiSync.QueryAcceptance

open TokiSync.DurationText TokiSync.VirtualQueries TokiSync.QueryTokens TokiSync.QueryGrammar
open TokiSync.QueryLists
open TokiSync.AdminAccounts (bind_eq_ok)

/-- A parenthesis opens here. -/
def Opens (cs : List Char) : Prop := ∃ mid, next cs=some (.punct '(',mid)

theorem head_skipWs_iff {cs : List Char} : (skipWs cs).head?=some '(' ↔ Opens cs := by
  unfold Opens
  constructor
  · intro h
    cases hcs : skipWs cs with
    | nil =>
      rw [hcs] at h
      cases h
    | cons c rest =>
      rw [hcs] at h
      have hc : c = '(' := Option.some.inj h
      exact ⟨rest,next_punct_iff.mpr ⟨by decide,by rw [hcs,hc]⟩⟩
  · intro h
    obtain ⟨mid,hmid⟩ := h
    rw [(next_punct_iff.mp hmid).2]
    rfl

/-- An identifier is next. -/
def Named (cs : List Char) : Prop := ∃ name rest, next cs=some (.ident name,rest)

section Wrapper

variable {id : String} {cs rest body : List Char} {labels : List String}

/-- The body of a wrapper follows at once or behind a by-clause. -/
theorem wrapperBody_some_iff :
    wrapperBody id cs=.ok (some (labels,body)) ↔
      (Opens cs ∧ id≠"increase" ∧ labels=[] ∧ body=skipWs cs) ∨
      ∃ behind left, next cs=some (.ident "by",behind) ∧ byLabels behind=.ok (labels,left) ∧
        Opens left ∧ body=skipWs left := by
  unfold wrapperBody
  by_cases hopen : Opens cs ∧ id≠"increase"
  · have hcond : (skipWs cs).head?=some '(' ∧ id≠"increase" :=
      ⟨head_skipWs_iff.mpr hopen.1,hopen.2⟩
    simp only [if_pos hcond]
    constructor
    · intro h
      cases h
      exact .inl ⟨hopen.1,hopen.2,rfl,rfl⟩
    · intro h
      rcases h with ⟨_,_,hlabels,hbody⟩ | ⟨behind,_,hby,_⟩
      · rw [hlabels,hbody]
        rfl
      · obtain ⟨mid,hmid⟩ := hopen.1
        rw [hby] at hmid
        cases hmid
  · have hcond : ¬((skipWs cs).head?=some '(' ∧ id≠"increase") :=
      fun h => hopen ⟨head_skipWs_iff.mp h.1,h.2⟩
    simp only [if_neg hcond]
    by_cases hby : ∃ behind, next cs=some (.ident "by",behind)
    · obtain ⟨behind,hby⟩ := hby
      simp only [ident_of_next ((next_skipWs cs).trans hby)]
      constructor
      · intro h
        obtain ⟨⟨found,left⟩,hfound,h⟩ := bind_eq_ok.mp h
        by_cases hbody : Opens left
        · simp only [if_pos (head_skipWs_iff.mpr hbody)] at h
          cases h
          exact .inr ⟨behind,left,hby,hfound,hbody,rfl⟩
        · simp only [if_neg (fun h => hbody (head_skipWs_iff.mp h))] at h
          cases h
      · intro h
        rcases h with ⟨hopens,hid,_⟩ | ⟨behind',left,hby',hfound,hbody,heq⟩
        · exact absurd ⟨hopens,hid⟩ hopen
        · rw [hby] at hby'
          cases hby'
          refine bind_eq_ok.mpr ⟨(labels,left),hfound,?_⟩
          simp only [if_pos (head_skipWs_iff.mpr hbody),heq]
          rfl
    · constructor
      · intro h
        split at h
        · rename_i left hident
          have hnext := ident_eq_some_iff.mp hident
          rw [next_skipWs] at hnext
          exact absurd ⟨left,hnext⟩ hby
        · cases h
      · intro h
        rcases h with ⟨hopens,hid,_⟩ | ⟨behind,_,hby',_⟩
        · exact absurd ⟨hopens,hid⟩ hopen
        · exact absurd ⟨behind,hby'⟩ hby

/-- No body follows. -/
theorem wrapperBody_none_iff :
    wrapperBody id cs=.ok none ↔ ¬(Opens cs ∧ id≠"increase") ∧
      ∀ behind, next cs=some (.ident "by",behind) →
        ∃ labels left, byLabels behind=.ok (labels,left) ∧ ¬Opens left := by
  unfold wrapperBody
  by_cases hopen : Opens cs ∧ id≠"increase"
  · have hcond : (skipWs cs).head?=some '(' ∧ id≠"increase" :=
      ⟨head_skipWs_iff.mpr hopen.1,hopen.2⟩
    simp only [if_pos hcond]
    constructor
    · intro h
      cases h
    · intro h
      exact absurd hopen h.1
  · have hcond : ¬((skipWs cs).head?=some '(' ∧ id≠"increase") :=
      fun h => hopen ⟨head_skipWs_iff.mp h.1,h.2⟩
    simp only [if_neg hcond]
    by_cases hby : ∃ behind, next cs=some (.ident "by",behind)
    · obtain ⟨behind,hby⟩ := hby
      simp only [ident_of_next ((next_skipWs cs).trans hby)]
      constructor
      · intro h
        obtain ⟨⟨found,left⟩,hfound,h⟩ := bind_eq_ok.mp h
        refine ⟨hopen,?_⟩
        intro behind' hby'
        rw [hby] at hby'
        cases hby'
        refine ⟨found,left,hfound,?_⟩
        intro hbody
        simp only [if_pos (head_skipWs_iff.mpr hbody)] at h
        cases h
      · intro h
        obtain ⟨labels,left,hfound,hbody⟩ := h.2 behind hby
        refine bind_eq_ok.mpr ⟨(labels,left),hfound,?_⟩
        simp only [if_neg (fun h => hbody (head_skipWs_iff.mp h))]
        rfl
    · constructor
      · intro _
        exact ⟨hopen,fun behind h => absurd ⟨behind,h⟩ hby⟩
      · intro _
        split
        · rename_i left hident
          have hnext := ident_eq_some_iff.mp hident
          rw [next_skipWs] at hnext
          exact absurd ⟨left,hnext⟩ hby
        · rfl

/-- The wrapper is read as far as its opening parenthesis. -/
theorem aggregation_wrapped_iff :
    aggregation cs=.ok (⟨true,labels⟩,rest) ↔
      ∃ mid body, next cs=some (.ident "sum",mid) ∧ wrapperBody "sum" mid=.ok (some (labels,body)) ∧
        next body=some (.punct '(',rest) := by
  unfold aggregation
  constructor
  · intro h
    cases hident : ident cs with
    | mk found mid =>
      cases found with
      | none =>
        rw [hident] at h
        cases h
      | some id =>
        rw [hident] at h
        obtain ⟨found,hfound,h⟩ := bind_eq_ok.mp h
        cases found with
        | none => cases h
        | some found =>
          by_cases hid : id="sum"
          · simp only [hid,ne_eq,not_true_eq_false,if_false] at h
            cases heat : eat '(' found.2 with
            | mk eaten left =>
              rw [heat] at h
              cases eaten with
              | false => cases h
              | true =>
                cases h
                rw [hid] at hident hfound
                by_cases hopens : Opens found.2
                · obtain ⟨behind,hbehind⟩ := hopens
                  rw [eat_of_next (by decide) hbehind] at heat
                  cases heat
                  exact ⟨mid,found.2,ident_eq_some_iff.mp hident,hfound,hbehind⟩
                · rw [eat_of_not (by decide) hopens] at heat
                  cases heat
          · simp only [ne_eq,hid,not_false_eq_true,if_true] at h
            cases h
  · intro h
    obtain ⟨mid,body,hsum,hbody,hopen⟩ := h
    rw [ident_of_next hsum]
    refine bind_eq_ok.mpr ⟨some (labels,body),hbody,?_⟩
    simp only [ne_eq,not_true_eq_false,if_false]
    rw [eat_of_next (by decide) hopen]
    rfl

/-- Without a wrapper nothing is consumed. -/
theorem aggregation_bare_iff :
    aggregation cs=.ok (⟨false,labels⟩,rest) ↔ labels=[] ∧
      ((¬Named cs ∧ rest=skipWs cs) ∨
        ∃ id mid, next cs=some (.ident id,mid) ∧ wrapperBody id mid=.ok none ∧ rest=cs) := by
  unfold aggregation
  by_cases hnamed : Named cs
  · obtain ⟨id,mid,hid⟩ := hnamed
    rw [ident_of_next hid]
    constructor
    · intro h
      obtain ⟨found,hfound,h⟩ := bind_eq_ok.mp h
      cases found with
      | none =>
        cases h
        exact ⟨rfl,.inr ⟨id,mid,hid,hfound,rfl⟩⟩
      | some found =>
        obtain ⟨labels',body⟩ := found
        dsimp only at h
        split_ifs at h
        cases heat : eat '(' body with
        | mk eaten left =>
          rw [heat] at h
          cases eaten <;> cases h
    · intro h
      obtain ⟨hlabels,⟨hnot,_⟩ | ⟨id',mid',hid',hbody,hrest⟩⟩ := h
      · exact absurd ⟨id,mid,hid⟩ hnot
      · rw [hid] at hid'
        cases hid'
        rw [hlabels,hrest]
        exact bind_eq_ok.mpr ⟨none,hbody,rfl⟩
  · rw [ident_of_not hnamed]
    constructor
    · intro h
      cases h
      exact ⟨rfl,.inl ⟨hnamed,rfl⟩⟩
    · intro h
      obtain ⟨hlabels,⟨_,hrest⟩ | ⟨id,mid,hid,_⟩⟩ := h
      · rw [hlabels,hrest]
        rfl
      · exact absurd ⟨id,mid,hid⟩ hnamed

end Wrapper

section Parts

variable {cs rest : List Char}

theorem rangeFunction_true_iff :
    rangeFunction cs=.ok (true,rest) ↔
      ∃ mid, next cs=some (.ident "increase",mid) ∧ next mid=some (.punct '(',rest) := by
  unfold rangeFunction
  constructor
  · intro h
    cases hident : ident cs with
    | mk found mid =>
      cases found with
      | none =>
        rw [hident] at h
        cases h
      | some id =>
        rw [hident] at h
        dsimp only at h
        split at h
        · rename_i left hskip
          by_cases hid : id="increase"
          · simp only [hid,ne_eq,not_true_eq_false,if_false] at h
            cases h
            rw [hid] at hident
            exact ⟨mid,ident_eq_some_iff.mp hident,next_punct_iff.mpr ⟨by decide,hskip⟩⟩
          · simp only [ne_eq,hid,not_false_eq_true,if_true] at h
            cases h
        · cases h
  · intro h
    obtain ⟨mid,hincrease,hopen⟩ := h
    rw [ident_of_next hincrease]
    dsimp only
    rw [(next_punct_iff.mp hopen).2]
    rfl

theorem rangeFunction_false_iff :
    rangeFunction cs=.ok (false,rest) ↔
      (¬Named cs ∧ rest=skipWs cs) ∨
      ∃ id mid, next cs=some (.ident id,mid) ∧ ¬Opens mid ∧ rest=cs := by
  unfold rangeFunction
  by_cases hnamed : Named cs
  · obtain ⟨id,mid,hid⟩ := hnamed
    rw [ident_of_next hid]
    dsimp only
    constructor
    · intro h
      split at h
      · split_ifs at h
        cases h
      · rename_i hnot
        cases h
        refine .inr ⟨id,mid,hid,?_,rfl⟩
        intro hopens
        obtain ⟨left,hleft⟩ := hopens
        exact hnot left (next_punct_iff.mp hleft).2
    · intro h
      rcases h with ⟨hnot,_⟩ | ⟨id',mid',hid',hclosed,hrest⟩
      · exact absurd ⟨id,mid,hid⟩ hnot
      · rw [hid] at hid'
        cases hid'
        rw [hrest]
        split
        · rename_i left hskip
          exact absurd ⟨left,next_punct_iff.mpr ⟨by decide,hskip⟩⟩ hclosed
        · rfl
  · rw [ident_of_not hnamed]
    constructor
    · intro h
      cases h
      exact .inl ⟨hnamed,rfl⟩
    · intro h
      rcases h with ⟨_,hrest⟩ | ⟨id,mid,hid,_⟩
      · rw [hrest]
        rfl
      · exact absurd ⟨id,mid,hid⟩ hnamed

/-- The names of the grammar are the metrics the parser knows. -/
theorem metricOf_eq_ok_iff {name : String} {kind : Bool×Bool} :
    metricOf name=.ok kind ↔
      ∃ m : Metric, name=m.name ∧ kind=(decide (m=.cost),decide (m=.events)) := by
  unfold metricOf
  constructor
  · intro h
    split_ifs at h with h1 h2 h3 h4 h5
    · cases h
      rcases h1 with h1 | h1
      · exact ⟨.usage,h1,rfl⟩
      · exact ⟨.tokiTokensTotal,h1,rfl⟩
    · cases h
      exact ⟨.cost,h2,rfl⟩
    · cases h
      exact ⟨.events,h3,rfl⟩
  · intro h
    obtain ⟨m,hname,hkind⟩ := h
    rw [hname,hkind]
    cases m <;> rfl

theorem metric_eq_ok_iff {kind : Bool×Bool} :
    metric cs=.ok (kind,rest) ↔
      ∃ m : Metric, next cs=some (.ident m.name,rest) ∧
        kind=(decide (m=.cost),decide (m=.events)) := by
  unfold metric
  by_cases hnamed : Named cs
  · obtain ⟨name,mid,hname⟩ := hnamed
    rw [ident_of_next hname]
    constructor
    · intro h
      obtain ⟨found,hfound,h⟩ := bind_eq_ok.mp h
      cases h
      obtain ⟨m,hm,hkind⟩ := metricOf_eq_ok_iff.mp hfound
      rw [hm] at hname
      exact ⟨m,hname,hkind⟩
    · intro h
      obtain ⟨m,hm,hkind⟩ := h
      rw [hname] at hm
      cases hm
      exact bind_eq_ok.mpr ⟨kind,metricOf_eq_ok_iff.mpr ⟨m,rfl,hkind⟩,rfl⟩
  · rw [ident_of_not hnamed]
    constructor
    · intro h
      cases h
    · intro h
      obtain ⟨m,hm,_⟩ := h
      exact absurd ⟨m.name,rest,hm⟩ hnamed

/-- A range selector token is the text between brackets. -/
theorem next_range_iff {text : String} :
    next cs=some (.range text,rest) ↔
      ']'∉text.toList ∧ skipWs cs= '[' :: (text.toList++ ']' ::rest) := by
  unfold next
  rw [tokenAt_eq_some_iff]
  generalize skipWs cs=found
  constructor
  · intro h
    cases h with
    | range _ _ hclose => exact ⟨hclose,rfl⟩
  · intro h
    rw [h.2]
    exact Writes.range text rest h.1

/-- A text without a closing bracket, or cut at its first one. -/
theorem split_close (tail : List Char) :
    (∃ text left, ']'∉text ∧ tail=text++ ']' ::left) ∨ ']'∉tail := by
  induction tail with
  | nil => exact .inr (by simp)
  | cons c tail ih =>
    by_cases hc : c = ']'
    · exact .inl ⟨[],tail,by simp,by rw [hc]; rfl⟩
    · rcases ih with ⟨text,left,hnot,htail⟩ | hnot
      · refine .inl ⟨c::text,left,?_,by rw [htail]; rfl⟩
        rw [List.mem_cons,not_or]
        exact ⟨Ne.symm hc,hnot⟩
      · refine .inr ?_
        rw [List.mem_cons,not_or]
        exact ⟨Ne.symm hc,hnot⟩

/-- The optional range selector. -/
theorem rangeSelector_yields {bucket : Bool} :
    Yields (rangeSelector cs) bucket rest ↔
      (bucket=false ∧ (skipWs cs).head?≠some '[' ∧ skipWs cs=skipWs rest) ∨
      (bucket=true ∧ ∃ text : String, (∃ n, parseDurationSecs (String.ofList (trim text.toList))=
        .ok n) ∧ Scan [.range text] cs rest) := by
  by_cases hopen : (skipWs cs).head?=some '['
  · obtain ⟨tail,hcs⟩ : ∃ tail, skipWs cs= '[' ::tail := by
      cases hcs : skipWs cs with
      | nil =>
        rw [hcs] at hopen
        cases hopen
      | cons c tail =>
        rw [hcs] at hopen
        have hc : c = '[' := Option.some.inj hopen
        exact ⟨tail,by rw [hc]⟩
    unfold rangeSelector
    rw [eat_of_skipWs hcs]
    dsimp only
    rcases split_close tail with ⟨text,left,hnot,htail⟩ | hnot
    · have hinside : ∀ c∈text, decide (c ≠ ']')=true := by
        intro c hc
        have hne : c ≠ ']' := fun h => hnot (h ▸ hc)
        simpa using hne
      have hstop : ∀ c, (']' ::left).head?=some c → decide (c ≠ ']')=false := by
        intro c hc
        have heq : ']' = c := Option.some.inj hc
        simp [← heq]
      have hrun := run_append hinside hstop
      have hclose : eat ']' (']' ::left)=(true,left) :=
        eat_of_skipWs (skipWs_of_head (by decide) left)
      rw [htail,hrun.1,hrun.2,hclose]
      dsimp only
      have htoken : next cs=some (.range (String.ofList text),left) :=
        next_range_iff.mpr ⟨by rw [String.toList_ofList]; exact hnot,
          by rw [hcs,htail,String.toList_ofList]⟩
      cases hparse : parseDurationSecs (String.ofList (trim text)) with
      | error reason =>
        constructor
        · intro h
          exact absurd h not_yields_error
        · intro h
          rcases h with ⟨_,hnot',_⟩ | ⟨_,found,⟨n,hn⟩,mid,hmid,_⟩
          · exact absurd hopen hnot'
          · rw [htoken] at hmid
            cases hmid
            rw [String.toList_ofList,hparse] at hn
            cases hn
      | ok n =>
        constructor
        · intro h
          have hok := yields_ok_iff.mp h
          refine .inr ⟨hok.1.symm,String.ofList text,⟨n,?_⟩,left,htoken,hok.2⟩
          rw [String.toList_ofList,hparse]
        · intro h
          rcases h with ⟨_,hnot',_⟩ | ⟨hbucket,_,_,mid,hmid,hrest⟩
          · exact absurd hopen hnot'
          · rw [htoken] at hmid
            cases hmid
            exact yields_ok_iff.mpr ⟨hbucket.symm,hrest⟩
    · have hnone : tail.dropWhile (· ≠ ']')=[] := by
        rw [List.dropWhile_eq_nil_iff]
        intro c hc
        have hne : c ≠ ']' := fun h => hnot (h ▸ hc)
        simpa using hne
      rw [hnone]
      constructor
      · intro h
        exact absurd h not_yields_error
      · intro h
        rcases h with ⟨_,hnot',_⟩ | ⟨_,found,_,mid,hmid,_⟩
        · exact absurd hopen hnot'
        · have hsplit := (next_range_iff.mp hmid).2
          rw [hcs] at hsplit
          have htail := (List.cons.inj hsplit).2
          exact absurd (by rw [htail]; simp) hnot
  · unfold rangeSelector
    rw [eat_of_head_ne hopen]
    constructor
    · intro h
      have hok := yields_ok_iff.mp h
      exact .inl ⟨hok.1.symm,hopen,by rw [← hok.2,skipWs_skipWs]⟩
    · intro h
      rcases h with ⟨hbucket,_,hrest⟩ | ⟨_,text,_,mid,hmid,_⟩
      · exact yields_ok_iff.mpr ⟨hbucket.symm,by rw [skipWs_skipWs,hrest]⟩
      · have hsplit := (next_range_iff.mp hmid).2
        exact absurd (by rw [hsplit]; rfl) hopen

/-- Everything but an offset is left alone. -/
theorem refuseOffset_eq_ok_iff :
    refuseOffset cs=.ok rest ↔
      (¬Named cs ∧ rest=skipWs cs) ∨
      ∃ name mid, next cs=some (.ident name,mid) ∧ name≠"offset" ∧ rest=cs := by
  unfold refuseOffset
  by_cases hnamed : Named cs
  · obtain ⟨name,mid,hname⟩ := hnamed
    rw [ident_of_next hname]
    constructor
    · intro h
      split at h
      · cases h
      · rename_i found behind hnot heq
        cases heq
        cases h
        exact .inr ⟨name,mid,hname,hnot,rfl⟩
      · rename_i heq
        cases heq
    · intro h
      rcases h with ⟨hnot,_⟩ | ⟨name',mid',hname',hne,hrest⟩
      · exact absurd ⟨name,mid,hname⟩ hnot
      · rw [hname] at hname'
        cases hname'
        rw [hrest]
        split
        · rename_i heq
          cases heq
          exact absurd rfl hne
        · rfl
        · rename_i heq
          cases heq
  · rw [ident_of_not hnamed]
    constructor
    · intro h
      cases h
      exact .inl ⟨hnamed,rfl⟩
    · intro h
      rcases h with ⟨_,hrest⟩ | ⟨name,mid,hname,_⟩
      · rw [hrest]
        rfl
      · exact absurd ⟨name,mid,hname⟩ hnamed

/-- Every open parenthesis is closed. -/
theorem closeParens_iff {n : ℕ} :
    (∃ left, closeParens n cs=.ok left ∧ skipWs left=skipWs rest) ↔
      Scan (List.replicate n (.punct ')')) cs rest := by
  induction n generalizing cs with
  | zero =>
    constructor
    · intro h
      obtain ⟨left,hok,hrest⟩ := h
      cases hok
      exact hrest
    · intro h
      exact ⟨cs,rfl,h⟩
  | succ n ih =>
    rw [closeParens,List.replicate_succ]
    by_cases hclose : ∃ mid, next cs=some (.punct ')',mid)
    · obtain ⟨mid,hmid⟩ := hclose
      rw [eat_of_next (by decide) hmid]
      constructor
      · intro h
        exact ⟨mid,hmid,ih.mp h⟩
      · intro h
        obtain ⟨mid',hmid',hrest⟩ := h
        rw [hmid] at hmid'
        cases hmid'
        exact ih.mpr hrest
    · rw [eat_of_not (by decide) hclose]
      constructor
      · intro h
        obtain ⟨left,hok,_⟩ := h
        cases hok
      · intro h
        obtain ⟨mid,hmid,_⟩ := h
        exact absurd ⟨mid,hmid⟩ hclose

/-- A trailing by-clause is refused when labels were given before. -/
theorem trailingBy_of_by {labels : List String} (h : next cs=some (.ident "by",rest)) :
    trailingBy labels cs=
      if labels≠[] then .error "duplicate `by (...)` clause" else byLabels rest := by
  unfold trailingBy
  simp only [ident_of_next h]

/-- Without a trailing by-clause the labels stay. -/
theorem trailingBy_of_not {labels : List String}
    (h : ¬∃ behind, next cs=some (.ident "by",behind)) :
    ∃ left, trailingBy labels cs=.ok (labels,left) ∧ skipWs left=skipWs cs := by
  unfold trailingBy
  split
  · rename_i behind heq
    exact absurd ⟨behind,ident_eq_some_iff.mp heq⟩ h
  · exact ⟨cs,rfl,rfl⟩
  · rename_i left heq
    refine ⟨left,rfl,?_⟩
    rw [ident_eq] at heq
    split at heq
    · cases heq
    · cases heq
      exact skipWs_skipWs cs

end Parts

section Selection

/-- What known labels select, given the label selected before: the one that
occurs besides the type. -/
structure Selects (labels : List Label) (before result : Option String) : Prop where
  /-- A label agrees with the one selected before. -/
  agrees : ∀ label∈labels, label≠.type → before=none ∨ before=some label.name
  /-- At most one label occurs besides the type. -/
  single : ∀ label∈labels, ∀ other∈labels, label≠.type → other≠.type → label=other
  /-- It is the result, or else what was selected before is. -/
  result_eq : result=((labels.find? (·≠.type)).map Label.name).or before

theorem name_injective {label other : Label} (h : label.name=other.name) : label=other := by
  revert h
  cases label <;> cases other <;> decide

variable {label : Label} {labels : List Label} {before result : Option String}

/-- The type selects nothing. -/
theorem selects_type : Selects (.type::labels) before result ↔ Selects labels before result := by
  have hresult : (((.type::labels : List Label).find? (·≠.type)).map Label.name).or before=
      ((labels.find? (·≠.type)).map Label.name).or before := by simp
  constructor
  · intro h
    refine ⟨?_,?_,h.result_eq.trans hresult⟩
    · exact fun l hl hne => h.agrees l (List.mem_cons_of_mem _ hl) hne
    · exact fun l hl o ho => h.single l (List.mem_cons_of_mem _ hl) o (List.mem_cons_of_mem _ ho)
  · intro h
    have hmem : ∀ l∈(.type::labels : List Label), l≠.type → l∈labels :=
      fun l hl hne => (List.mem_cons.mp hl).resolve_left hne
    refine ⟨?_,?_,h.result_eq.trans hresult.symm⟩
    · exact fun l hl hne => h.agrees l (hmem l hl hne) hne
    · exact fun l hl o ho hne hne' => h.single l (hmem l hl hne) o (hmem o ho hne') hne hne'

/-- Another label goes on as the one selected before. -/
theorem selects_cons (hne : label≠.type) : Selects (label::labels) before result ↔
    (before=none ∨ before=some label.name) ∧ Selects labels (some label.name) result := by
  have hfirst : ((((label::labels).find? (·≠.type)).map Label.name).or before)=
      some label.name := by
    rw [List.find?_cons_of_pos (by simpa using hne)]
    rfl
  -- a label found behind it is the same one
  have hfound : (∀ other∈labels, other≠.type → other=label) →
      ((labels.find? (·≠.type)).map Label.name).or (some label.name)=some label.name := by
    intro hall
    cases hfind : labels.find? (·≠.type) with
    | none => rfl
    | some other =>
      have hother : other≠.type := by simpa using List.find?_some hfind
      rw [hall other (List.mem_of_find?_eq_some hfind) hother]
      rfl
  constructor
  · intro h
    have hall : ∀ other∈labels, other≠.type → other=label := fun other hmem hother =>
      h.single other (List.mem_cons_of_mem _ hmem) label List.mem_cons_self hother hne
    refine ⟨h.agrees label List.mem_cons_self hne,?_,?_,?_⟩
    · exact fun other hmem hother => .inr (by rw [hall other hmem hother])
    · intro first hmem second hmem' hother hother'
      rw [hall first hmem hother,hall second hmem' hother']
    · rw [h.result_eq,hfirst,hfound hall]
  · intro h
    obtain ⟨hbefore,hrest⟩ := h
    have hall : ∀ other∈label::labels, other≠.type → other=label := by
      intro other hmem hother
      rcases List.mem_cons.mp hmem with hmem | hmem
      · exact hmem
      · rcases hrest.agrees other hmem hother with h | h
        · cases h
        · exact (name_injective (Option.some.inj h)).symm
    refine ⟨?_,?_,?_⟩
    · intro other hmem hother
      rw [hall other hmem hother]
      exact hbefore
    · intro first hmem second hmem' hother hother'
      rw [hall first hmem hother,hall second hmem' hother']
    · rw [hrest.result_eq,hfirst,hfound fun other hmem => hall other (List.mem_cons_of_mem _ hmem)]

/-- Labels are selected when they are known and at most one besides the type
occurs, agreeing with the one selected before. -/
theorem selectLabel_eq_ok_iff {all names : List String} : selectLabel all names before=.ok result ↔
    ∃ labels : List Label, names=labels.map Label.name ∧ Selects labels before result := by
  induction names generalizing before with
  | nil =>
    constructor
    · intro h
      cases h
      exact ⟨[],rfl,by simp,by simp,by simp⟩
    · intro h
      obtain ⟨labels,hnames,hselects⟩ := h
      have hresult := hselects.result_eq
      rw [List.map_eq_nil_iff.mp hnames.symm] at hresult
      rw [hresult]
      rfl
  | cons name names ih =>
    have hcons : (∃ labels : List Label, name::names=labels.map Label.name ∧
        Selects labels before result) ↔ ∃ label : Label, name=label.name ∧
          ∃ labels : List Label, names=labels.map Label.name ∧
            Selects (label::labels) before result := by
      constructor
      · intro h
        obtain ⟨labels,hnames,hselects⟩ := h
        cases labels with
        | nil => cases hnames
        | cons label labels =>
          obtain ⟨hname,hrest⟩ := List.cons.inj hnames
          exact ⟨label,hname,labels,hrest,hselects⟩
      · intro h
        obtain ⟨label,hname,labels,hrest,hselects⟩ := h
        exact ⟨label::labels,by rw [hname,hrest]; rfl,hselects⟩
    rw [selectLabel,hcons]
    by_cases hlabel : ∃ label : Label, name=label.name
    · obtain ⟨label,rfl⟩ := hlabel
      have honly : (∃ other : Label, label.name=other.name ∧ ∃ labels : List Label,
          names=labels.map Label.name ∧ Selects (other::labels) before result) ↔
            ∃ labels : List Label, names=labels.map Label.name ∧
              Selects (label::labels) before result := by
        constructor
        · intro h
          obtain ⟨other,hname,hrest⟩ := h
          rwa [name_injective hname]
        · exact fun h => ⟨label,rfl,h⟩
      rw [honly]
      by_cases htype : label=.type
      · rw [htype,if_pos (by decide),ih]
        simp only [selects_type]
      · have hname : label.name≠"type" ∧
            (label.name="model" ∨ label.name="project" ∨ label.name="device_id") := by
          revert htype
          cases label <;> decide
        rw [if_neg hname.1,if_pos hname.2]
        simp only [selects_cons htype]
        by_cases hconflict : before≠none ∧ before≠some label.name
        · rw [if_pos hconflict]
          refine iff_of_false (fun h => by cases h) fun h => ?_
          obtain ⟨labels,-,hbefore,-⟩ := h
          exact hbefore.elim hconflict.1 hconflict.2
        · have hbefore : before=none ∨ before=some label.name := by
            by_contra hnot
            exact hconflict (not_or.mp hnot)
          rw [if_neg hconflict,ih]
          simp only [hbefore,true_and]
    · have hunknown : name≠"type" ∧ ¬(name="model" ∨ name="project" ∨ name="device_id") := by
        refine ⟨fun h => hlabel ⟨.type,h⟩,fun h => ?_⟩
        rcases h with h | h | h
        · exact hlabel ⟨.model,h⟩
        · exact hlabel ⟨.project,h⟩
        · exact hlabel ⟨.deviceId,h⟩
      rw [if_neg hunknown.1,if_neg hunknown.2]
      refine iff_of_false (fun h => by cases h) fun h => ?_
      obtain ⟨label,hname,-⟩ := h
      exact hlabel ⟨label,hname⟩

end Selection

section Trees

variable {cs rest : List Char}

/-- What may stand behind a selector: nothing, a closing parenthesis or the
keyword of a by-clause. -/
def Follows (cs : List Char) : Prop :=
  skipWs cs=[] ∨ (∃ behind, next cs=some (.punct ')',behind)) ∨
    ∃ behind, next cs=some (.ident "by",behind)

theorem next_of_end (h : skipWs cs=[]) : next cs=none := by
  unfold next
  rw [h]
  rfl

theorem Follows.not_punct (h : Follows cs) {c : Char} (hc : c ≠ ')') :
    ¬∃ mid, next cs=some (.punct c,mid) := by
  intro hpunct
  obtain ⟨mid,hmid⟩ := hpunct
  rcases h with hend | ⟨behind,hclose⟩ | ⟨behind,hby⟩
  · rw [next_of_end hend] at hmid
    cases hmid
  · rw [hclose] at hmid
    cases hmid
    exact hc rfl
  · rw [hby] at hmid
    cases hmid

/-- An opening bracket can only begin a range selector. -/
theorem not_bracket {token : Token} {behind : List Char} (h : next cs=some (token,behind))
    (hrange : ∀ text, token≠.range text) : (skipWs cs).head?≠some '[' := by
  intro hhead
  unfold next at h
  cases hcs : skipWs cs with
  | nil =>
    rw [hcs] at hhead
    cases hhead
  | cons c tail =>
    rw [hcs] at hhead h
    have hc : c = '[' := Option.some.inj hhead
    rw [hc,tokenAt,if_neg (by decide),if_neg (by decide),if_pos rfl] at h
    cases hclose : tail.dropWhile (· ≠ ']') with
    | nil =>
      rw [hclose] at h
      cases h
    | cons d left =>
      rw [hclose] at h
      cases h
      exact hrange _ rfl

theorem Follows.not_bracket (h : Follows cs) : (skipWs cs).head?≠some '[' := by
  rcases h with hend | ⟨behind,hclose⟩ | ⟨behind,hby⟩
  · rw [hend]
    decide
  · exact QueryAcceptance.not_bracket hclose (fun text => by simp)
  · exact QueryAcceptance.not_bracket hby (fun text => by simp)

theorem Follows.refuseOffset (h : Follows cs) :
    ∃ left, refuseOffset cs=.ok left ∧ skipWs left=skipWs cs := by
  by_cases hnamed : Named cs
  · obtain ⟨name,mid,hname⟩ := hnamed
    have hby : name="by" := by
      rcases h with hend | ⟨behind,hclose⟩ | ⟨behind,hby⟩
      · rw [next_of_end hend] at hname
        cases hname
      · rw [hclose] at hname
        cases hname
      · rw [hby] at hname
        cases hname
        rfl
    exact ⟨cs,refuseOffset_eq_ok_iff.mpr (.inr ⟨name,mid,hname,by rw [hby]; decide,rfl⟩),rfl⟩
  · exact ⟨skipWs cs,refuseOffset_eq_ok_iff.mpr (.inl ⟨hnamed,rfl⟩),skipWs_skipWs cs⟩

/-- The conditions on a selector. -/
structure SelectorOk (selector : Selector) : Prop where
  /-- Filters name a provider. -/
  named : ∀ filters, selector.filters=some filters → ∀ value∈filters.values, value≠""
  /-- All filters name the same provider. -/
  agree : ∀ filters, selector.filters=some filters →
    ∀ value∈filters.values, ∀ other∈filters.values, value=other
  /-- The bucket is a duration. -/
  duration : ∀ text, selector.bucket=some text →
    ∃ n, parseDurationSecs (String.ofList (trim text.toList))=.ok n

/-- Provider a selector names. -/
def Selector.provider (selector : Selector) : Option String :=
  selector.filters.bind fun filters => filters.values.head?

/-- The metric, the matchers and the range selector read a selector. -/
theorem selector_sound {kind : Bool×Bool} {provider : Option String} {bucket : Bool}
    {c3 c4 : List Char} (hmetric : metric cs=.ok (kind,c3))
    (hmatchers : labelMatchers c3=.ok (provider,c4))
    (hrange : rangeSelector c4=.ok (bucket,rest)) :
    ∃ selector : Selector, SelectorOk selector ∧ Scan selector.tokens cs rest ∧
      kind=(decide (selector.metric=.cost),decide (selector.metric=.events)) ∧
      provider=Selector.provider selector ∧ bucket=selector.bucket.isSome := by
  obtain ⟨m,hname,hkind⟩ := metric_eq_ok_iff.mp hmetric
  obtain ⟨filters,hfilters,hnamed,hagree,hprovider⟩ : ∃ filters : Option Filters,
      Scan (filtersTokens filters) c3 c4 ∧
      (∀ found, filters=some found → ∀ value∈found.values, value≠"") ∧
      (∀ found, filters=some found → ∀ value∈found.values, ∀ other∈found.values, value=other) ∧
      provider=filters.bind fun filters => filters.values.head? := by
    rcases labelMatchers_yields.mp ⟨c4,hmatchers,rfl⟩ with
      ⟨_,hnone,hskip⟩ | ⟨filters,hscan,hne,hequal,hresult⟩
    · exact ⟨none,hskip,by simp,by simp,hnone⟩
    · refine ⟨some filters,hscan,?_,?_,hresult⟩
      · intro found hfound
        rw [← Option.some.inj hfound]
        exact hne
      · intro found hfound
        rw [← Option.some.inj hfound]
        exact hequal
  obtain ⟨text,htext,hduration,hbucket⟩ : ∃ text : Option String,
      Scan (bucketTokens text) c4 rest ∧
      (∀ found, text=some found →
        ∃ n, parseDurationSecs (String.ofList (trim found.toList))=.ok n) ∧
      bucket=text.isSome := by
    rcases rangeSelector_yields.mp ⟨rest,hrange,rfl⟩ with
      ⟨hbucket,_,hskip⟩ | ⟨hbucket,text,hduration,hscan⟩
    · exact ⟨none,hskip,by simp,hbucket⟩
    · refine ⟨some text,hscan,?_,hbucket⟩
      intro found hfound
      rw [← Option.some.inj hfound]
      exact hduration
  exact ⟨⟨m,filters,text⟩,⟨hnamed,hagree,hduration⟩,
    ⟨c3,hname,scan_append.mpr ⟨c4,hfilters,htext⟩⟩,hkind,hprovider,hbucket⟩

/-- A selector is read when something follows that ends it. -/
theorem selector_complete {selector : Selector} (hok : SelectorOk selector)
    (h : Scan selector.tokens cs rest) (hfollows : Follows rest) :
    ∃ c3 c4 c5, next cs=some (.ident selector.metric.name,c3) ∧ ¬Opens c3 ∧
      metric cs=.ok ((decide (selector.metric=.cost),decide (selector.metric=.events)),c3) ∧
      labelMatchers c3=.ok (Selector.provider selector,c4) ∧
      rangeSelector c4=.ok (selector.bucket.isSome,c5) ∧ skipWs c5=skipWs rest := by
  obtain ⟨c3,hname,htail⟩ := h
  obtain ⟨c4,hfilters,hbucket⟩ := scan_append.mp htail
  -- what stands behind the filters is a range selector or the end
  have hbehind : (∃ text, selector.bucket=some text ∧ Scan [.range text] c4 rest) ∨
      (selector.bucket=none ∧ skipWs c4=skipWs rest) := by
    cases hb : selector.bucket with
    | none =>
      rw [hb] at hbucket
      exact .inr ⟨rfl,hbucket⟩
    | some text =>
      rw [hb] at hbucket
      exact .inl ⟨text,rfl,hbucket⟩
  have hnotpunct : ∀ c, c ≠ ')' → ¬∃ mid, next c4=some (.punct c,mid) := by
    intro c hc hpunct
    rcases hbehind with ⟨text,_,mid,hmid,_⟩ | ⟨_,hskip⟩
    · obtain ⟨mid',hmid'⟩ := hpunct
      rw [hmid] at hmid'
      cases hmid'
    · obtain ⟨mid,hmid⟩ := hpunct
      rw [next_congr hskip] at hmid
      exact hfollows.not_punct hc ⟨mid,hmid⟩
  have hmatchers : Yields (labelMatchers c3) (Selector.provider selector) c4 := by
    refine labelMatchers_yields.mpr ?_
    cases hf : selector.filters with
    | none =>
      rw [hf] at hfilters
      refine .inl ⟨?_,?_,hfilters⟩
      · intro hbrace
        obtain ⟨mid,hmid⟩ := hbrace
        rw [next_congr hfilters] at hmid
        exact hnotpunct '{' (by decide) ⟨mid,hmid⟩
      · unfold Selector.provider
        rw [hf]
        rfl
    | some filters =>
      rw [hf] at hfilters
      refine .inr ⟨filters,hfilters,hok.named filters hf,hok.agree filters hf,?_⟩
      unfold Selector.provider
      rw [hf]
      rfl
  obtain ⟨c4',hmatchers,hskip⟩ := hmatchers
  have hrange : Yields (rangeSelector c4') selector.bucket.isSome rest := by
    refine rangeSelector_yields.mpr ?_
    rcases hbehind with ⟨text,hb,hscan⟩ | ⟨hb,hend⟩
    · rw [hb]
      exact .inr ⟨rfl,text,hok.duration text hb,hscan.congr hskip.symm rfl⟩
    · rw [hb,hskip,hend]
      exact .inl ⟨rfl,hfollows.not_bracket,rfl⟩
  obtain ⟨c5,hrange,hrest⟩ := hrange
  refine ⟨c3,c4',c5,hname,?_,metric_eq_ok_iff.mpr ⟨_,hname,rfl⟩,hmatchers,hrange,hrest⟩
  intro hopens
  obtain ⟨mid,hmid⟩ := hopens
  cases hf : selector.filters with
  | none =>
    rw [hf] at hfilters
    rw [next_congr hfilters] at hmid
    exact hnotpunct '(' (by decide) ⟨mid,hmid⟩
  | some filters =>
    rw [hf] at hfilters
    obtain ⟨mid',hmid',_⟩ := hfilters
    rw [hmid'] at hmid
    cases hmid

/-- The range function and the selector read an inner expression, once its
parenthesis is closed. -/
theorem inner_sound {increase : Bool} {kind : Bool×Bool} {provider : Option String} {bucket : Bool}
    {c2 c3 c4 c5 : List Char} (hincrease : rangeFunction cs=.ok (increase,c2))
    (hmetric : metric c2=.ok (kind,c3)) (hmatchers : labelMatchers c3=.ok (provider,c4))
    (hrange : rangeSelector c4=.ok (bucket,c5))
    (hclose : Scan (List.replicate increase.toNat (.punct ')')) c5 rest) :
    ∃ inner : Inner, inner.increase=increase ∧ SelectorOk inner.selector ∧
      Scan inner.tokens cs rest ∧
      kind=(decide (inner.selector.metric=.cost),decide (inner.selector.metric=.events)) ∧
      provider=Selector.provider inner.selector ∧ bucket=inner.selector.bucket.isSome := by
  obtain ⟨selector,hok,hscan,hkind,hprovider,hbucket⟩ :=
    selector_sound hmetric hmatchers hrange
  refine ⟨⟨increase,selector⟩,rfl,hok,?_,hkind,hprovider,hbucket⟩
  cases increase with
  | true =>
    obtain ⟨mid,hname,hopen⟩ := rangeFunction_true_iff.mp hincrease
    exact ⟨mid,hname,c2,hopen,scan_append.mpr ⟨c5,hscan,hclose⟩⟩
  | false =>
    have hskip : skipWs cs=skipWs c2 := by
      rcases rangeFunction_false_iff.mp hincrease with ⟨_,hrest⟩ | ⟨_,_,_,_,hrest⟩
      · rw [hrest,skipWs_skipWs]
      · rw [hrest]
    exact hscan.congr hskip.symm hclose

/-- An inner expression is read, and its parenthesis closed, when something
follows that ends it. -/
theorem inner_complete {inner : Inner} (hok : SelectorOk inner.selector)
    (h : Scan inner.tokens cs rest) (hfollows : Follows rest) :
    ∃ c2 c3 c4 c5, rangeFunction cs=.ok (inner.increase,c2) ∧
      metric c2=.ok ((decide (inner.selector.metric=.cost),
        decide (inner.selector.metric=.events)),c3) ∧
      labelMatchers c3=.ok (Selector.provider inner.selector,c4) ∧
      rangeSelector c4=.ok (inner.selector.bucket.isSome,c5) ∧ Follows c5 ∧
      Scan (List.replicate inner.increase.toNat (.punct ')')) c5 rest := by
  unfold Inner.tokens at h
  cases hinc : inner.increase with
  | true =>
    rw [hinc] at h
    obtain ⟨mid,hname,c2,hopen,htail⟩ := h
    obtain ⟨left,hselector,hclose⟩ := scan_append.mp htail
    have hends : Follows left := by
      obtain ⟨behind,hparen,_⟩ := hclose
      exact .inr (.inl ⟨behind,hparen⟩)
    obtain ⟨c3,c4,c5,_,_,hmetric,hmatchers,hrange,hskip⟩ := selector_complete hok hselector hends
    have hclose' := hclose.congr hskip.symm rfl
    refine ⟨c2,c3,c4,c5,rangeFunction_true_iff.mpr ⟨mid,hname,hopen⟩,hmetric,hmatchers,hrange,
      ?_,hclose'⟩
    obtain ⟨behind,hparen,_⟩ := hclose'
    exact .inr (.inl ⟨behind,hparen⟩)
  | false =>
    rw [hinc] at h
    obtain ⟨c3,c4,c5,hname,hclosed,hmetric,hmatchers,hrange,hskip⟩ :=
      selector_complete hok h hfollows
    refine ⟨cs,c3,c4,c5,rangeFunction_false_iff.mpr (.inr ⟨_,c3,hname,hclosed,rfl⟩),hmetric,
      hmatchers,hrange,?_,hskip⟩
    unfold Follows
    rw [next_congr hskip,hskip]
    exact hfollows

/-- An inner expression does not look like an aggregation. -/
theorem inner_not_wrapped {inner : Inner} {clause : Option ByClause}
    (hok : SelectorOk inner.selector) (h : Scan inner.tokens cs rest)
    (hclause : Scan (clauseTokens clause) rest []) :
    aggregation cs=.ok (⟨false,[]⟩,cs) := by
  refine aggregation_bare_iff.mpr ⟨rfl,.inr ?_⟩
  unfold Inner.tokens at h
  cases hinc : inner.increase with
  | true =>
    rw [hinc] at h
    obtain ⟨mid,hname,c2,hopen,_⟩ := h
    refine ⟨"increase",mid,hname,wrapperBody_none_iff.mpr ⟨fun h => h.2 rfl,?_⟩,rfl⟩
    intro behind hby
    rw [hopen] at hby
    cases hby
  | false =>
    rw [hinc] at h
    have hfollows : Follows rest := by
      cases clause with
      | none => exact .inl hclause
      | some clause =>
        obtain ⟨behind,hby,_⟩ := hclause
        exact .inr (.inr ⟨behind,hby⟩)
    obtain ⟨c3,_,_,hname,hclosed,_⟩ := selector_complete hok h hfollows
    refine ⟨_,c3,hname,wrapperBody_none_iff.mpr ⟨fun h => hclosed h.1,?_⟩,rfl⟩
    intro behind hby
    -- the keyword right behind the metric belongs to the trailing clause
    obtain ⟨c3',hname',htail⟩ := h
    rw [hname] at hname'
    cases hname'
    obtain ⟨c4,hfilters,hbucket⟩ := scan_append.mp htail
    cases hf : inner.selector.filters with
    | some filters =>
      rw [hf] at hfilters
      obtain ⟨mid,hmid,_⟩ := hfilters
      rw [hby] at hmid
      cases hmid
    | none =>
      rw [hf] at hfilters
      have hby4 := hby
      rw [next_congr hfilters] at hby4
      cases hb : inner.selector.bucket with
      | some text =>
        rw [hb] at hbucket
        obtain ⟨mid,hmid,_⟩ := hbucket
        rw [hby4] at hmid
        cases hmid
      | none =>
        rw [hb] at hbucket
        rw [next_congr hbucket] at hby4
        cases clause with
        | none =>
          rw [next_of_end hclause] at hby4
          cases hby4
        | some clause =>
          obtain ⟨behind',hby',hlabels⟩ := hclause
          rw [hby4] at hby'
          cases hby'
          have hne : clause.labels.map Label.name≠[] := by
            rw [ne_eq,List.map_eq_nil_iff]
            exact clause.nonempty
          obtain ⟨left,hread,hend⟩ := byLabels_yields.mpr ⟨hne,clause.trailing,hlabels⟩
          refine ⟨_,left,hread,?_⟩
          intro hopens
          obtain ⟨mid,hmid⟩ := hopens
          rw [next_of_end (hend.trans rfl)] at hmid
          cases hmid

end Trees

end TokiSync.QueryAcceptance
