import TokiSync.QueryAcceptance

/-!
# The language of the virtual query parser

By-clauses stand in front of the body of an aggregation or at the end. With
them the parts of the parser are put together: what it accepts is exactly the
text of an admissible tree, and what it returns is the meaning of that tree.
-/

namespace TokiSync.QueryLanguage

open TokiSync.DurationText TokiSync.VirtualQueries TokiSync.QueryTokens TokiSync.QueryGrammar
open TokiSync.QueryGrammar.QueryTree
open TokiSync.QueryLists TokiSync.QueryAcceptance
open TokiSync.AdminAccounts (bind_eq_ok)

section Clauses

variable {cs rest : List Char}

/-- An optional by-clause with the given label names; no names, no clause. -/
def Clause (names : List String) (cs rest : List Char) : Prop :=
  (names=[] ∧ skipWs cs=skipWs rest) ∨
    (names≠[] ∧ ∃ trailing, Scan (.ident "by" :: labelTokens names trailing) cs rest)

/-- A clause with known labels is one of the grammar. -/
theorem clause_iff {labels : List Label} :
    Clause (labels.map Label.name) cs rest ↔
      ∃ clause, clauseLabels clause=labels ∧ Scan (clauseTokens clause) cs rest := by
  constructor
  · intro h
    rcases h with ⟨hnames,hskip⟩ | ⟨hnames,trailing,hscan⟩
    · exact ⟨none,(List.map_eq_nil_iff.mp hnames).symm,hskip⟩
    · have hne : labels≠[] := fun hnil => hnames (by rw [hnil]; rfl)
      exact ⟨some ⟨labels,hne,trailing⟩,rfl,hscan⟩
  · intro h
    obtain ⟨clause,hlabels,hscan⟩ := h
    rw [← hlabels]
    cases clause with
    | none => exact .inl ⟨rfl,hscan⟩
    | some clause =>
      refine .inr ⟨?_,clause.trailing,hscan⟩
      rw [ne_eq,List.map_eq_nil_iff]
      exact clause.nonempty

/-- A clause without labels is no clause. -/
theorem clauseLabels_eq_nil_iff {clause : Option ByClause} :
    clauseLabels clause=[] ↔ clause=none := by
  cases clause with
  | none => simp [clauseLabels]
  | some clause =>
    constructor
    · intro h
      exact absurd h clause.nonempty
    · intro h
      cases h

theorem Clause.of_by {names : List String} {behind : List Char}
    (hby : next cs=some (.ident "by",behind)) (h : Clause names cs rest)
    (hrest : ¬∃ behind, next rest=some (.ident "by",behind)) :
    names≠[] ∧ ∃ trailing, Scan (labelTokens names trailing) behind rest := by
  rcases h with ⟨_,hskip⟩ | ⟨hne,trailing,mid,hmid,hscan⟩
  · rw [next_congr hskip] at hby
    exact absurd ⟨behind,hby⟩ hrest
  · rw [hby] at hmid
    cases hmid
    exact ⟨hne,trailing,hscan⟩

/-- The body of an aggregation stands behind an optional clause. -/
theorem wrapperBody_sum_iff {labels : List String} :
    (∃ body, wrapperBody "sum" cs=.ok (some (labels,body)) ∧ next body=some (.punct '(',rest)) ↔
      ∃ body, Clause labels cs body ∧ next body=some (.punct '(',rest) := by
  constructor
  · intro h
    obtain ⟨body,hbody,hopen⟩ := h
    rcases wrapperBody_some_iff.mp hbody with ⟨_,_,hlabels,heq⟩ | ⟨behind,left,hby,hread,_,heq⟩
    · refine ⟨body,.inl ⟨hlabels,?_⟩,hopen⟩
      rw [heq,skipWs_skipWs]
    · obtain ⟨hne,trailing,hscan⟩ := byLabels_yields.mp ⟨left,hread,rfl⟩
      refine ⟨left,.inr ⟨hne,trailing,behind,hby,hscan⟩,?_⟩
      rw [heq,next_skipWs] at hopen
      exact hopen
  · intro h
    obtain ⟨body,hclause,hopen⟩ := h
    rcases hclause with ⟨hlabels,hskip⟩ | ⟨hne,trailing,behind,hby,hscan⟩
    · have hnext : next cs=some (.punct '(',rest) := by
        rw [next_congr hskip]
        exact hopen
      refine ⟨skipWs cs,wrapperBody_some_iff.mpr (.inl ⟨⟨rest,hnext⟩,by decide,hlabels,rfl⟩),?_⟩
      rw [next_skipWs]
      exact hnext
    · obtain ⟨left,hread,hskip⟩ := byLabels_yields.mpr ⟨hne,trailing,hscan⟩
      have hnext : next left=some (.punct '(',rest) := by
        rw [next_congr hskip]
        exact hopen
      refine ⟨skipWs left,wrapperBody_some_iff.mpr
        (.inr ⟨behind,left,hby,hread,⟨rest,hnext⟩,rfl⟩),?_⟩
      rw [next_skipWs]
      exact hnext

/-- At the end an optional clause stands, unless there was one before. -/
theorem trailingBy_ends_iff {labels found : List String} :
    (∃ left, trailingBy labels cs=.ok (found,left) ∧ skipWs left=[]) ↔
      ∃ back, Clause back cs [] ∧ (labels=[] ∨ back=[]) ∧ found=labels++back := by
  have hnil : ¬∃ behind, next []=some (.ident "by",behind) := by
    intro h
    obtain ⟨behind,hbehind⟩ := h
    cases hbehind
  by_cases hby : ∃ behind, next cs=some (.ident "by",behind)
  · obtain ⟨behind,hbehind⟩ := hby
    rw [trailingBy_of_by hbehind]
    constructor
    · intro h
      obtain ⟨left,hread,hend⟩ := h
      split_ifs at hread with hlabels
      have hlabels : labels=[] := by simpa using hlabels
      have hyields : Yields (byLabels behind) found [] := ⟨left,hread,hend⟩
      obtain ⟨hne,trailing,hscan⟩ := byLabels_yields.mp hyields
      exact ⟨found,.inr ⟨hne,trailing,behind,hbehind,hscan⟩,.inl hlabels,by rw [hlabels]; rfl⟩
    · intro h
      obtain ⟨back,hback,hone,hfound⟩ := h
      obtain ⟨hne,trailing,hscan⟩ := hback.of_by hbehind hnil
      have hlabels : labels=[] := hone.resolve_right hne
      rw [hlabels,List.nil_append] at hfound
      rw [hlabels,hfound]
      exact byLabels_yields.mpr ⟨hne,trailing,hscan⟩
  · have hstay : ∃ left, trailingBy labels cs=.ok (labels,left) ∧ skipWs left=skipWs cs :=
      trailingBy_of_not hby
    obtain ⟨left,hread,hskip⟩ := hstay
    rw [hread]
    constructor
    · intro h
      obtain ⟨left',hok,hend⟩ := h
      cases hok
      exact ⟨[],.inl ⟨rfl,hskip.symm.trans hend⟩,.inr rfl,(List.append_nil labels).symm⟩
    · intro h
      obtain ⟨back,hback,_,hfound⟩ := h
      rcases hback with ⟨hback,hend⟩ | ⟨_,_,behind,hbehind,_⟩
      · refine ⟨left,?_,hskip.trans hend⟩
        rw [hfound,hback,List.append_nil]
      · exact absurd ⟨behind,hbehind⟩ hby

end Clauses

section Body

variable {wrapped : Bool} {names : List String} {cs : List Char} {parsed : ParsedQuery}

/-- What is read behind the optional aggregation. -/
def Remainder (wrapped : Bool) (names : List String) (cs : List Char) (parsed : ParsedQuery) :
    Prop :=
  ∃ increase c2 isCost isEvents c3 provider c4 hasBucket c5 c6 c7 labels c8 selected,
    rangeFunction cs=.ok (increase,c2) ∧ metric c2=.ok ((isCost,isEvents),c3) ∧
    labelMatchers c3=.ok (provider,c4) ∧ rangeSelector c4=.ok (hasBucket,c5) ∧
    refuseOffset c5=.ok c6 ∧ closeParens (wrapped.toNat+increase.toNat) c6=.ok c7 ∧
    trailingBy names c7=.ok (labels,c8) ∧ skipWs c8=[] ∧
    selectLabel labels labels none=.ok selected ∧
    parsed=⟨isCost,isEvents,isEvents && !wrapped && !increase && !hasBucket && labels=[],
      selected.getD "model",provider⟩

/-- Parsing is reading the optional aggregation and the remainder. -/
theorem parse_eq_ok_iff {q : String} :
    parseTokiVirtualQuery q=.ok parsed ↔ skipWs q.toList≠[] ∧
      ∃ wrapper c1, aggregation (skipWs q.toList)=.ok (wrapper,c1) ∧
        Remainder wrapper.wrapped wrapper.labels c1 parsed := by
  unfold parseTokiVirtualQuery Remainder
  by_cases hempty : skipWs q.toList=[]
  · simp only [hempty,if_true]
    constructor
    · intro h
      cases h
    · intro h
      exact absurd rfl h.1
  · simp only [hempty,if_false,ne_eq,not_false_eq_true,true_and]
    constructor
    · intro h
      obtain ⟨⟨wrapper,c1⟩,haggregation,h⟩ := bind_eq_ok.mp h
      obtain ⟨⟨increase,c2⟩,hincrease,h⟩ := bind_eq_ok.mp h
      obtain ⟨⟨⟨isCost,isEvents⟩,c3⟩,hmetric,h⟩ := bind_eq_ok.mp h
      obtain ⟨⟨provider,c4⟩,hmatchers,h⟩ := bind_eq_ok.mp h
      obtain ⟨⟨hasBucket,c5⟩,hrange,h⟩ := bind_eq_ok.mp h
      obtain ⟨c6,hoffset,h⟩ := bind_eq_ok.mp h
      obtain ⟨c7,hclose,h⟩ := bind_eq_ok.mp h
      obtain ⟨⟨labels,c8⟩,htrailing,h⟩ := bind_eq_ok.mp h
      by_cases hend : skipWs c8=[]
      · simp only [hend,not_true_eq_false,if_false] at h
        obtain ⟨selected,hselected,h⟩ := bind_eq_ok.mp h
        cases h
        exact ⟨wrapper,c1,haggregation,increase,c2,isCost,isEvents,c3,provider,c4,hasBucket,c5,
          c6,c7,labels,c8,selected,hincrease,hmetric,hmatchers,hrange,hoffset,hclose,htrailing,
          hend,hselected,rfl⟩
      · simp only [hend,not_false_eq_true,if_true] at h
        cases h
    · intro h
      obtain ⟨wrapper,c1,haggregation,increase,c2,isCost,isEvents,c3,provider,c4,hasBucket,c5,
        c6,c7,labels,c8,selected,hincrease,hmetric,hmatchers,hrange,hoffset,hclose,htrailing,
        hend,hselected,hparsed⟩ := h
      refine bind_eq_ok.mpr ⟨(wrapper,c1),haggregation,?_⟩
      refine bind_eq_ok.mpr ⟨(increase,c2),hincrease,?_⟩
      refine bind_eq_ok.mpr ⟨((isCost,isEvents),c3),hmetric,?_⟩
      refine bind_eq_ok.mpr ⟨(provider,c4),hmatchers,?_⟩
      refine bind_eq_ok.mpr ⟨(hasBucket,c5),hrange,?_⟩
      refine bind_eq_ok.mpr ⟨c6,hoffset,?_⟩
      refine bind_eq_ok.mpr ⟨c7,hclose,?_⟩
      refine bind_eq_ok.mpr ⟨(labels,c8),htrailing,?_⟩
      simp only [hend,not_true_eq_false,if_false]
      refine bind_eq_ok.mpr ⟨selected,hselected,?_⟩
      rw [hparsed]
      rfl

/-- What is returned for an inner expression, summed or not, and its labels. -/
def answer (wrapped : Bool) (inner : Inner) (labels : List Label) : ParsedQuery where
  isCost := inner.selector.metric=.cost
  isEvents := inner.selector.metric=.events
  rawEvents := inner.selector.metric=.events && !wrapped && !inner.increase &&
    inner.selector.bucket.isNone && labels=[]
  groupBy := ((labels.find? (·≠.type)).map Label.name).getD "model"
  provider := Selector.provider inner.selector

/-- The remainder is an inner expression, closed when it is summed, with an
optional clause behind it. -/
theorem remainder_sound (h : Remainder wrapped names cs parsed) :
    ∃ (inner : Inner) (back : List String) (rest : List Char), SelectorOk inner.selector ∧
      Scan (inner.tokens++List.replicate wrapped.toNat (.punct ')')) cs rest ∧
      Clause back rest [] ∧ (names=[] ∨ back=[]) ∧
      ∃ labels : List Label, names++back=labels.map Label.name ∧
        (∀ label∈labels, ∀ other∈labels, label≠.type → other≠.type → label=other) ∧
        parsed=answer wrapped inner labels := by
  obtain ⟨increase,c2,isCost,isEvents,c3,provider,c4,hasBucket,c5,c6,c7,labels,c8,selected,
    hincrease,hmetric,hmatchers,hrange,hoffset,hclose,htrailing,hend,hselected,hparsed⟩ := h
  have hoffset : skipWs c6=skipWs c5 := by
    rcases refuseOffset_eq_ok_iff.mp hoffset with ⟨_,heq⟩ | ⟨_,_,_,_,heq⟩
    · rw [heq,skipWs_skipWs]
    · rw [heq]
  -- the parenthesis of the range function is closed before that of the sum
  have hclosed := (closeParens_iff.mp ⟨c7,hclose,rfl⟩).congr hoffset rfl
  rw [Nat.add_comm,List.replicate_add] at hclosed
  obtain ⟨mid,hinside,houtside⟩ := scan_append.mp hclosed
  obtain ⟨inner,hinc,hok,hscan,hkind,hprovider,hbucket⟩ :=
    inner_sound hincrease hmetric hmatchers hrange hinside
  obtain ⟨back,hback,hone,hlabels⟩ := trailingBy_ends_iff.mp ⟨c8,htrailing,hend⟩
  obtain ⟨known,hknown,_,hsame,hresult⟩ := selectLabel_eq_ok_iff.mp hselected
  refine ⟨inner,back,c7,hok,scan_append.mpr ⟨mid,hscan,houtside⟩,hback,hone,known,?_,hsame,?_⟩
  · rw [← hlabels,hknown]
  · obtain ⟨hcost,hevents⟩ := Prod.mk.inj hkind
    have hnil : (decide (labels=[]))=decide (known=[]) := by
      rw [hknown]
      simp
    have hnone : (!hasBucket)=inner.selector.bucket.isNone := by
      rw [hbucket]
      cases inner.selector.bucket <;> rfl
    rw [hparsed,hcost,hevents,hprovider,hresult,Option.or_none,hnil,hnone,← hinc]
    rfl

/-- The parser reads what the grammar puts behind the optional aggregation. -/
theorem remainder_complete {inner : Inner} {back : List String} {rest : List Char}
    {labels : List Label} (hok : SelectorOk inner.selector)
    (hscan : Scan (inner.tokens++List.replicate wrapped.toNat (.punct ')')) cs rest)
    (hback : Clause back rest []) (hone : names=[] ∨ back=[])
    (hlabels : names++back=labels.map Label.name)
    (hsame : ∀ label∈labels, ∀ other∈labels, label≠.type → other≠.type → label=other) :
    Remainder wrapped names cs (answer wrapped inner labels) := by
  obtain ⟨mid,hinner,houtside⟩ := scan_append.mp hscan
  have hfollows : Follows mid := by
    cases wrapped with
    | true =>
      obtain ⟨behind,hclose,_⟩ := houtside
      exact .inr (.inl ⟨behind,hclose⟩)
    | false =>
      have hskip : skipWs mid=skipWs rest := houtside
      rcases hback with ⟨_,hend⟩ | ⟨_,_,behind,hby,_⟩
      · exact .inl (hskip.trans hend)
      · rw [← next_congr hskip] at hby
        exact .inr (.inr ⟨behind,hby⟩)
  obtain ⟨c2,c3,c4,c5,hincrease,hmetric,hmatchers,hrange,hends,hinside⟩ :=
    inner_complete hok hinner hfollows
  obtain ⟨c6,hoffset,hskip⟩ := hends.refuseOffset
  have hclosed :
      Scan (List.replicate (wrapped.toNat+inner.increase.toNat) (.punct ')')) c6 rest := by
    rw [Nat.add_comm,List.replicate_add]
    exact (scan_append.mpr ⟨mid,hinside,houtside⟩).congr hskip.symm rfl
  obtain ⟨c7,hclose,hrest⟩ := closeParens_iff.mpr hclosed
  have hback' : Clause back c7 [] := by
    rcases hback with ⟨hnil,hend⟩ | ⟨hne,trailing,hby⟩
    · exact .inl ⟨hnil,hrest.trans hend⟩
    · exact .inr ⟨hne,trailing,hby.congr hrest.symm rfl⟩
  obtain ⟨c8,htrailing,hend⟩ := trailingBy_ends_iff.mpr ⟨back,hback',hone,rfl⟩
  have hselected : selectLabel (names++back) (names++back) none=
      .ok (((labels.find? (·≠.type)).map Label.name).or none) :=
    selectLabel_eq_ok_iff.mpr ⟨labels,hlabels,fun _ _ _ => .inl rfl,hsame,rfl⟩
  refine ⟨inner.increase,c2,_,_,c3,_,c4,_,c5,c6,c7,names++back,c8,_,hincrease,hmetric,hmatchers,
    hrange,hoffset,hclose,htrailing,hend,hselected,?_⟩
  have hnil : (decide (names++back=[]))=decide (labels=[]) := by
    rw [hlabels]
    simp
  have hnone : (!inner.selector.bucket.isSome)=inner.selector.bucket.isNone := by
    cases inner.selector.bucket <;> rfl
  rw [hnil,hnone,Option.or_none]
  rfl

end Body

section Language

variable {tree : QueryTree}

/-- Admissibility is that of the selector, the clauses and the labels. -/
theorem admissible_iff :
    tree.Admissible ↔ SelectorOk tree.inner.selector ∧ (tree.front=none ∨ tree.back=none) ∧
      ∀ label∈tree.labels, ∀ other∈tree.labels, label≠.type → other≠.type → label=other := by
  constructor
  · intro h
    exact ⟨⟨h.named,h.agree,h.duration⟩,h.single,h.grouped⟩
  · intro h
    obtain ⟨hok,hsingle,hgrouped⟩ := h
    exact ⟨hok.named,hok.agree,hok.duration,hsingle,hgrouped⟩

/-- No labels are left when there is no clause. -/
theorem labels_eq_nil_iff :
    (decide (tree.labels=[]))=(tree.front.isNone && tree.back.isNone) := by
  unfold QueryTree.labels
  have hfront := @clauseLabels_eq_nil_iff tree.front
  have hback := @clauseLabels_eq_nil_iff tree.back
  rw [Bool.eq_iff_iff]
  simp [hfront,hback]

/-- The meaning of a tree is what is returned for its parts. -/
theorem meaning_eq_answer : tree.meaning=answer tree.summed tree.inner tree.labels := by
  have hnil := @labels_eq_nil_iff tree
  unfold QueryTree.meaning answer
  rw [hnil]
  simp [Selector.provider,Bool.and_assoc]

/-- Accepted texts are those of admissible trees. -/
theorem parse_sound {q : String} {parsed : ParsedQuery}
    (h : parseTokiVirtualQuery q=.ok parsed) :
    ∃ tree : QueryTree, tree.Admissible ∧ Scan tree.tokens q.toList [] ∧ parsed=tree.meaning := by
  obtain ⟨_,⟨wrapped,names⟩,c1,haggregation,hrest⟩ := parse_eq_ok_iff.mp h
  have hrest : Remainder wrapped names c1 parsed := hrest
  obtain ⟨inner,back,rest,hok,hscan,hback,hone,labels,hlabels,hsame,hparsed⟩ :=
    remainder_sound hrest
  obtain ⟨first,second,hsplit,hnames,hbacks⟩ := List.map_eq_append_iff.mp hlabels.symm
  rw [← hbacks] at hback
  obtain ⟨backClause,hbackLabels,hbackScan⟩ := clause_iff.mp hback
  cases wrapped with
  | true =>
    obtain ⟨mid,body,hsum,hbody,hopen⟩ := aggregation_wrapped_iff.mp haggregation
    rw [next_skipWs] at hsum
    obtain ⟨body',hclause,hopen'⟩ := wrapperBody_sum_iff.mp ⟨body,hbody,hopen⟩
    rw [← hnames] at hclause
    obtain ⟨frontClause,hfrontLabels,hfrontScan⟩ := clause_iff.mp hclause
    let tree : QueryTree := .sum frontClause inner backClause
    have hall : tree.labels=labels := by
      rw [hsplit,← hfrontLabels,← hbackLabels]
      rfl
    have hsingle : tree.front=none ∨ tree.back=none := by
      rcases hone with hnil | hnil
      · rw [hnil,List.map_eq_nil_iff] at hnames
        exact .inl (clauseLabels_eq_nil_iff.mp (hfrontLabels.trans hnames))
      · rw [hnil,List.map_eq_nil_iff] at hbacks
        exact .inr (clauseLabels_eq_nil_iff.mp (hbackLabels.trans hbacks))
    refine ⟨tree,admissible_iff.mpr ⟨hok,hsingle,by rw [hall]; exact hsame⟩,?_,?_⟩
    · obtain ⟨left,hinner,behind,hclose,hskip⟩ := scan_append.mp hscan
      refine ⟨mid,hsum,scan_append.mpr ⟨body',hfrontScan,c1,hopen',scan_append.mpr ⟨left,hinner,
        behind,hclose,?_⟩⟩⟩
      exact hbackScan.congr hskip.symm rfl
    · rw [hparsed,meaning_eq_answer,hall]
      rfl
  | false =>
    obtain ⟨hnil,hbare⟩ := aggregation_bare_iff.mp haggregation
    have hskip : skipWs q.toList=skipWs c1 := by
      rcases hbare with ⟨_,heq⟩ | ⟨_,_,_,_,heq⟩
      · rw [heq,skipWs_skipWs,skipWs_skipWs]
      · rw [heq,skipWs_skipWs]
    rw [hnil,List.map_eq_nil_iff] at hnames
    rw [hnames,List.nil_append] at hsplit
    let tree : QueryTree := .bare inner backClause
    have hall : tree.labels=labels := by
      rw [hsplit,← hbackLabels]
      rfl
    refine ⟨tree,admissible_iff.mpr ⟨hok,.inl rfl,by rw [hall]; exact hsame⟩,?_,?_⟩
    · obtain ⟨left,hinner,hend⟩ := scan_append.mp hscan
      refine scan_append.mpr ⟨left,hinner.congr hskip.symm rfl,?_⟩
      exact hbackScan.congr (Eq.symm hend) rfl
    · rw [hparsed,meaning_eq_answer,hall]
      rfl

/-- Texts of admissible trees are accepted with their meaning. -/
theorem parse_complete {q : String} (h : tree.Admissible) (hscan : Scan tree.tokens q.toList []) :
    parseTokiVirtualQuery q=.ok tree.meaning := by
  obtain ⟨hok,hsingle,hgrouped⟩ := admissible_iff.mp h
  have hnonempty : ∀ {token behind}, next q.toList=some (token,behind) → skipWs q.toList≠[] := by
    intro token behind hnext hnil
    rw [next_of_end hnil] at hnext
    cases hnext
  rw [meaning_eq_answer]
  cases tree with
  | sum front inner back =>
    obtain ⟨mid,hsum,hscan⟩ := hscan
    obtain ⟨body,hfront,c1,hopen,hscan⟩ := scan_append.mp hscan
    obtain ⟨left,hinner,rest,hclose,hback⟩ := scan_append.mp hscan
    have hfront : Clause ((clauseLabels front).map Label.name) mid body :=
      clause_iff.mpr ⟨front,rfl,hfront⟩
    have hback : Clause ((clauseLabels back).map Label.name) rest [] :=
      clause_iff.mpr ⟨back,rfl,hback⟩
    obtain ⟨body',hbody,hopen'⟩ := wrapperBody_sum_iff.mpr ⟨body,hfront,hopen⟩
    have haggregation : aggregation (skipWs q.toList)=
        .ok (⟨true,(clauseLabels front).map Label.name⟩,c1) := by
      refine aggregation_wrapped_iff.mpr ⟨mid,body',?_,hbody,hopen'⟩
      rw [next_skipWs]
      exact hsum
    have hinside : Scan (inner.tokens++List.replicate true.toNat (.punct ')')) c1 rest :=
      scan_append.mpr ⟨left,hinner,rest,hclose,rfl⟩
    have hone : (clauseLabels front).map Label.name=[] ∨ (clauseLabels back).map Label.name=[] := by
      rw [List.map_eq_nil_iff,List.map_eq_nil_iff]
      exact hsingle.imp clauseLabels_eq_nil_iff.mpr clauseLabels_eq_nil_iff.mpr
    exact parse_eq_ok_iff.mpr ⟨hnonempty hsum,_,c1,haggregation,
      remainder_complete hok hinside hback hone (List.map_append).symm hgrouped⟩
  | bare inner back =>
    obtain ⟨rest,hinner,hback⟩ := scan_append.mp hscan
    obtain ⟨name,behind,hname⟩ : ∃ name behind, next q.toList=some (.ident name,behind) := by
      unfold Inner.tokens at hinner
      split at hinner
      · obtain ⟨behind,hname,_⟩ := hinner
        exact ⟨_,behind,hname⟩
      · obtain ⟨behind,hname,_⟩ := hinner
        exact ⟨_,behind,hname⟩
    have hinner := hinner.congr (skipWs_skipWs q.toList).symm rfl
    have haggregation := inner_not_wrapped hok hinner hback
    have hback : Clause ((clauseLabels back).map Label.name) rest [] :=
      clause_iff.mpr ⟨back,rfl,hback⟩
    have hinside : Scan (inner.tokens++List.replicate false.toNat (.punct ')'))
        (skipWs q.toList) rest := by
      rw [Bool.toNat_false,List.replicate_zero,List.append_nil]
      exact hinner
    exact parse_eq_ok_iff.mpr ⟨hnonempty hname,_,_,haggregation,
      remainder_complete hok hinside hback (.inl rfl) rfl hgrouped⟩

/-- The parser accepts exactly the texts of admissible trees, with the meaning
of the tree. -/
theorem accepts_iff (q : String) (parsed : ParsedQuery) :
    parseTokiVirtualQuery q=.ok parsed ↔
      ∃ tree : QueryTree, tree.Admissible ∧ Spelled tree.tokens q.toList ∧ parsed=tree.meaning := by
  constructor
  · intro h
    obtain ⟨tree,hadmissible,hscan,hparsed⟩ := parse_sound h
    exact ⟨tree,hadmissible,spelled_iff_scan.mpr hscan,hparsed⟩
  · intro h
    obtain ⟨tree,hadmissible,hspelled,hparsed⟩ := h
    rw [hparsed]
    exact parse_complete hadmissible (spelled_iff_scan.mp hspelled)

end Language

end TokiSync.QueryLanguage
