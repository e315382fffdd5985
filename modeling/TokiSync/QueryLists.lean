import TokiSync.QueryGrammar

/-!
# What the lists of the parser read

Labels in parentheses and matchers in braces are read by one loop. A parsing
step succeeds with a value exactly when the text continues with tokens that
stand for the value. Positions count up to whitespace, which every step skips.
-/

namespace TokiSync.QueryLists

open TokiSync.DurationText TokiSync.VirtualQueries TokiSync.QueryTokens TokiSync.QueryGrammar
open TokiSync.AdminAccounts (bind_eq_ok)

/-- A parsing step succeeds with a value, leaving a text up to whitespace. -/
def Yields {α : Type} (result : Except String (α×List Char)) (value : α) (rest : List Char) :
    Prop :=
  ∃ left, result=.ok (value,left) ∧ skipWs left=skipWs rest

theorem yields_ok_iff {α : Type} {value found : α} {left rest : List Char} :
    Yields (.ok (found,left)) value rest ↔ found=value ∧ skipWs left=skipWs rest := by
  unfold Yields
  constructor
  · intro h
    obtain ⟨left',heq,hrest⟩ := h
    cases heq
    exact ⟨rfl,hrest⟩
  · intro h
    exact ⟨left,by rw [h.1],h.2⟩

theorem not_yields_error {α : Type} {reason : String} {value : α} {rest : List Char} :
    ¬Yields (.error reason) value rest := by
  intro h
  obtain ⟨left,heq,_⟩ := h
  cases heq

section Lists

/-- A list of items up to its closing character. -/
def ListScan (close : Char) (items : List (List Token)) (cs rest : List Char) : Prop :=
  ∃ trailing, Scan (separated trailing items++[.punct close]) cs rest

theorem listScan_nil {close : Char} {cs rest : List Char} :
    ListScan close [] cs rest ↔ ∃ mid, next cs=some (.punct close,mid) ∧ skipWs mid=skipWs rest := by
  constructor
  · intro h
    obtain ⟨_,h⟩ := h
    exact h
  · intro h
    exact ⟨false,h⟩

/-- Behind an item the list ends or goes on behind a comma. -/
theorem listScan_cons {close : Char} {item : List Token} {items : List (List Token)}
    {cs rest : List Char} :
    ListScan close (item::items) cs rest ↔ ∃ mid, Scan item cs mid ∧
      ((items=[] ∧ ListScan close [] mid rest) ∨
        ∃ left, next mid=some (.punct ',',left) ∧ ListScan close items left rest) := by
  constructor
  · intro h
    obtain ⟨trailing,h⟩ := h
    cases items with
    | nil =>
      rw [separated,List.append_assoc] at h
      obtain ⟨mid,hitem,htail⟩ := scan_append.mp h
      refine ⟨mid,hitem,?_⟩
      cases trailing with
      | false => exact .inl ⟨rfl,false,htail⟩
      | true =>
        obtain ⟨left,hcomma,hclose⟩ := htail
        exact .inr ⟨left,hcomma,false,hclose⟩
    | cons second items =>
      rw [separated,List.append_assoc] at h
      obtain ⟨mid,hitem,left,hcomma,htail⟩ := scan_append.mp h
      exact ⟨mid,hitem,.inr ⟨left,hcomma,trailing,htail⟩⟩
  · intro h
    obtain ⟨mid,hitem,htail⟩ := h
    rcases htail with ⟨hnil,_,hclose⟩ | ⟨left,hcomma,trailing,hrest⟩
    · rw [hnil]
      refine ⟨false,?_⟩
      rw [separated,List.append_assoc]
      exact scan_append.mpr ⟨mid,hitem,hclose⟩
    · cases items with
      | nil =>
        refine ⟨true,?_⟩
        rw [separated,List.append_assoc]
        exact scan_append.mpr ⟨mid,hitem,left,hcomma,hrest⟩
      | cons second items =>
        refine ⟨trailing,?_⟩
        rw [separated,List.append_assoc]
        exact scan_append.mpr ⟨mid,hitem,left,hcomma,hrest⟩

/-- Reading a token makes the text shorter. -/
theorem length_of_next {token : Token} {cs rest : List Char} (h : next cs=some (token,rest)) :
    rest.length<cs.length := by
  obtain ⟨spaces,text,_,hwrites,hcs⟩ := next_eq_some_iff.mp h
  have hshorter : rest.length<text.length := by
    cases hwrites with
    | ident name rest hne _ _ =>
      have hpos : 0<name.toList.length := by
        rw [List.length_pos_iff]
        exact fun hnil => hne (String.toList_eq_nil_iff.mp hnil)
      rw [List.length_append]
      omega
    | punct c rest _ => simp
    | quoted value rest _ _ =>
      simp only [List.length_cons,List.length_append]
      omega
    | range text rest _ =>
      simp only [List.length_cons,List.length_append]
      omega
  rw [hcs,List.length_append]
  omega

end Lists

section Cursor

variable {b : Char} {cs rest : List Char} {name : String}

theorem eat_of_next (hb : isPunct b) (h : next cs=some (.punct b,rest)) : eat b cs=(true,rest) := by
  rw [eat_eq hb,h]
  simp

theorem eat_of_not (hb : isPunct b) (h : ¬∃ rest, next cs=some (.punct b,rest)) :
    eat b cs=(false,skipWs cs) := by
  rw [eat_eq hb]
  split
  · rename_i c rest hnext
    by_cases hc : c=b
    · rw [hc] at hnext
      exact absurd ⟨rest,hnext⟩ h
    · rw [if_neg hc]
  · rfl

theorem ident_of_next (h : next cs=some (.ident name,rest)) : ident cs=(some name,rest) := by
  rw [ident_eq,h]

theorem ident_of_not (h : ¬∃ name rest, next cs=some (.ident name,rest)) :
    ident cs=(none,skipWs cs) := by
  rw [ident_eq]
  split
  · rename_i name rest hnext
    exact absurd ⟨name,rest,hnext⟩ h
  · rfl

end Cursor

section Items

variable {σ ν : Type} {close : Char} {item : List Char → σ → Except String (σ×List Char)}
variable {expected : String} {tokens : ν → List Token} {step : σ → ν → Option σ}

/-- How an item reader relates to the tokens of its values. -/
structure ReadsItems (close : Char) (item : List Char → σ → Except String (σ×List Char))
    (tokens : ν → List Token) (step : σ → ν → Option σ) (reads : ν → List Char → List Char → Prop) :
    Prop where
  /-- The closing character is punctuation. -/
  punct : isPunct close
  /-- The closing character is not the separator. -/
  comma : close ≠ ','
  /-- A value is read from its tokens. -/
  scan : ∀ v cs rest, Scan (tokens v) cs rest ↔ ∃ mid, reads v cs mid ∧ skipWs mid=skipWs rest
  /-- Reading makes the text shorter. -/
  shorter : ∀ v cs rest, reads v cs rest → rest.length<cs.length
  /-- A value does not begin with the closing character. -/
  opens : ∀ v cs rest, reads v cs rest → ¬∃ mid, next cs=some (.punct close,mid)
  /-- Whitespace in front does not matter. -/
  skip : ∀ v cs rest, reads v (skipWs cs) rest ↔ reads v cs rest
  /-- The reader succeeds exactly on a value that can be added to those read. -/
  item : ∀ cs read read' rest, item cs read=.ok (read',rest) ↔
    ∃ v, reads v cs rest ∧ step read v=some read'

variable {reads : ν → List Char → List Char → Prop}

/-- A list is closed at once or begins with an item. -/
theorem ReadsItems.listScan (h : ReadsItems close item tokens step reads) {values : List ν}
    {cs rest : List Char} :
    ListScan close (values.map tokens) cs rest ↔
      (values=[] ∧ ListScan close [] cs rest) ∨
      ∃ v values' mid, values=v::values' ∧ reads v cs mid ∧
        ((values'=[] ∧ ListScan close [] mid rest) ∨
          ∃ left, next mid=some (.punct ',',left) ∧
            ListScan close (values'.map tokens) left rest) := by
  cases values with
  | nil => simp
  | cons v values =>
    have hitems : values.map tokens=[] ↔ values=[] := List.map_eq_nil_iff
    constructor
    · intro hlist
      obtain ⟨mid,hscan,htail⟩ := listScan_cons.mp hlist
      obtain ⟨mid',hreads,hmid⟩ := (h.scan v cs mid).mp hscan
      refine .inr ⟨v,values,mid',rfl,hreads,?_⟩
      rcases htail with ⟨hnil,trailing,hclose⟩ | ⟨left,hcomma,hrest⟩
      · exact .inl ⟨hitems.mp hnil,trailing,hclose.congr hmid.symm rfl⟩
      · exact .inr ⟨left,by rw [next_congr hmid]; exact hcomma,hrest⟩
    · intro hlist
      rcases hlist with ⟨hnil,_⟩ | ⟨v',values',mid,hcons,hreads,htail⟩
      · cases hnil
      · obtain ⟨hv,hvalues⟩ := List.cons.inj hcons
        rw [← hv] at hreads
        rw [← hvalues] at htail
        refine listScan_cons.mpr ⟨mid,(h.scan v cs mid).mpr ⟨mid,hreads,rfl⟩,?_⟩
        rcases htail with ⟨hnil,hclose⟩ | hrest
        · exact .inl ⟨hitems.mpr hnil,hclose⟩
        · exact .inr hrest

/-- Behind an item the loop goes on at a comma or ends at the closing character. -/
theorem ReadsItems.tail (h : ReadsItems close item tokens step reads) {rounds : ℕ}
    {mid rest : List Char} {read result : σ} :
    Yields (match eat ',' mid with
      | (true,rest) => itemsLoop close item expected rounds rest read
      | (false,left) =>
        match eat close left with
        | (true,rest) => .ok (read,rest)
        | (false,left) => .error (expected++", found `"++VirtualQueries.tail left++"`"))
      result rest ↔
    (read=result ∧ ListScan close [] mid rest) ∨
    ∃ left, next mid=some (.punct ',',left) ∧
      Yields (itemsLoop close item expected rounds left read) result rest := by
  by_cases hcomma : ∃ left, next mid=some (.punct ',',left)
  · obtain ⟨left,hleft⟩ := hcomma
    simp only [eat_of_next (by decide : isPunct ',') hleft]
    constructor
    · intro hyields
      exact .inr ⟨left,hleft,hyields⟩
    · intro hcases
      rcases hcases with ⟨_,hend⟩ | ⟨left',hleft',hyields⟩
      · obtain ⟨left',hleft',_⟩ := listScan_nil.mp hend
        rw [hleft] at hleft'
        cases hleft'
        exact absurd rfl h.comma
      · rw [hleft] at hleft'
        cases hleft'
        exact hyields
  · simp only [eat_of_not (by decide : isPunct ',') hcomma]
    have hlast : ¬∃ left, next mid=some (.punct ',',left) ∧
        Yields (itemsLoop close item expected rounds left read) result rest := by
      intro hcases
      obtain ⟨left,hleft,_⟩ := hcases
      exact hcomma ⟨left,hleft⟩
    rw [or_iff_left hlast]
    by_cases hend : ∃ left, next mid=some (.punct close,left)
    · obtain ⟨left,hleft⟩ := hend
      simp only [eat_of_next h.punct ((next_skipWs mid).trans hleft)]
      rw [yields_ok_iff,listScan_nil]
      constructor
      · intro hok
        exact ⟨hok.1,left,hleft,hok.2⟩
      · intro hok
        obtain ⟨hread,left',hleft',hrest⟩ := hok
        rw [hleft] at hleft'
        cases hleft'
        exact ⟨hread,hrest⟩
    · simp only [eat_of_not h.punct (by rw [next_skipWs]; exact hend)]
      constructor
      · intro hyields
        exact absurd hyields not_yields_error
      · intro hok
        obtain ⟨left,hleft,_⟩ := listScan_nil.mp hok.2
        exact absurd ⟨left,hleft⟩ hend

/-- The loop reads a list to its closing character, adding its values to those
already read. -/
theorem ReadsItems.loop (h : ReadsItems close item tokens step reads) {rounds : ℕ}
    {cs rest : List Char} {read result : σ} (hrounds : cs.length<rounds) :
    Yields (itemsLoop close item expected rounds cs read) result rest ↔
      ∃ values : List ν, values.foldlM step read=some result ∧
        ListScan close (values.map tokens) cs rest := by
  induction rounds generalizing cs read with
  | zero => omega
  | succ rounds ih =>
    rw [itemsLoop]
    by_cases hclose : ∃ mid, next cs=some (.punct close,mid)
    · -- the list ends here
      obtain ⟨mid,hmid⟩ := hclose
      rw [eat_of_next h.punct hmid,yields_ok_iff]
      constructor
      · intro hok
        exact ⟨[],by rw [List.foldlM_nil,hok.1]; rfl,listScan_nil.mpr ⟨mid,hmid,hok.2⟩⟩
      · intro hlist
        obtain ⟨values,hfold,hlist⟩ := hlist
        rcases h.listScan.mp hlist with ⟨hnil,hend⟩ | ⟨v,_,mid',_,hreads,_⟩
        · obtain ⟨left,hleft,hrest⟩ := listScan_nil.mp hend
          rw [hmid] at hleft
          cases hleft
          rw [hnil] at hfold
          exact ⟨Option.some.inj hfold,hrest⟩
        · exact absurd ⟨mid,hmid⟩ (h.opens v cs mid' hreads)
    · rw [eat_of_not h.punct hclose]
      have hopen : ¬ListScan close [] cs rest := by
        intro hend
        obtain ⟨left,hleft,_⟩ := listScan_nil.mp hend
        exact hclose ⟨left,hleft⟩
      constructor
      · intro hyields
        obtain ⟨left,hok,hrest⟩ := hyields
        obtain ⟨⟨read',mid⟩,hitem,hok⟩ := bind_eq_ok.mp hok
        obtain ⟨v,hreads,hstep⟩ := (h.item _ _ _ _).mp hitem
        have hreads := (h.skip v cs mid).mp hreads
        have hshorter := h.shorter v cs mid hreads
        rcases h.tail.mp ⟨left,hok,hrest⟩ with ⟨hread,hend⟩ | ⟨left',hcomma,hyields⟩
        · refine ⟨[v],?_,h.listScan.mpr (.inr ⟨v,[],mid,rfl,hreads,.inl ⟨rfl,hend⟩⟩)⟩
          rw [List.foldlM_cons,hstep,← hread]
          rfl
        · have hnext := length_of_next hcomma
          obtain ⟨values,hfold,hlist⟩ := (ih (by omega)).mp hyields
          refine ⟨v::values,?_,
            h.listScan.mpr (.inr ⟨v,values,mid,rfl,hreads,.inr ⟨left',hcomma,hlist⟩⟩)⟩
          rw [List.foldlM_cons,hstep]
          exact hfold
      · intro hlist
        obtain ⟨values,hfold,hlist⟩ := hlist
        rcases h.listScan.mp hlist with ⟨_,hend⟩ | ⟨v,values',mid,hcons,hreads,htail⟩
        · exact absurd hend hopen
        · have hshorter := h.shorter v cs mid hreads
          rw [hcons,List.foldlM_cons] at hfold
          obtain ⟨read',hstep,hfold⟩ := Option.bind_eq_some_iff.mp hfold
          have hitem := (h.item (skipWs cs) read read' mid).mpr
            ⟨v,(h.skip v cs mid).mpr hreads,hstep⟩
          have htails : Yields (match eat ',' mid with
              | (true,rest) => itemsLoop close item expected rounds rest read'
              | (false,left) =>
                match eat close left with
                | (true,rest) => .ok (read',rest)
                | (false,left) =>
                  .error (expected++", found `"++VirtualQueries.tail left++"`")) result rest := by
            refine h.tail.mpr ?_
            rcases htail with ⟨hnil,hend⟩ | ⟨left,hcomma,hlist⟩
            · rw [hnil] at hfold
              exact .inl ⟨Option.some.inj hfold,hend⟩
            · have hnext := length_of_next hcomma
              exact .inr ⟨left,hcomma,(ih (by omega)).mpr ⟨values',hfold,hlist⟩⟩
          obtain ⟨left,hok,hrest⟩ := htails
          exact ⟨left,bind_eq_ok.mpr ⟨(read',mid),hitem,hok⟩,hrest⟩

end Items

section Labels

theorem ident_eq_some_iff {cs rest : List Char} {name : String} :
    ident cs=(some name,rest) ↔ next cs=some (.ident name,rest) := by
  constructor
  · intro h
    by_cases hnext : ∃ name rest, next cs=some (.ident name,rest)
    · obtain ⟨name',rest',hnext⟩ := hnext
      rw [ident_of_next hnext] at h
      cases h
      exact hnext
    · rw [ident_of_not hnext] at h
      cases h
  · exact ident_of_next

/-- The labels of a by-clause are identifiers. -/
theorem readsItems_byLabel :
    ReadsItems ')' byLabel (fun name => [.ident name]) (fun read name => some (read++[name]))
      fun name cs rest => next cs=some (.ident name,rest) where
  punct := by decide
  comma := by decide
  scan _ _ _ := Iff.rfl
  shorter _ _ _ := length_of_next
  opens := by
    intro name cs rest hname hclose
    obtain ⟨mid,hmid⟩ := hclose
    rw [hname] at hmid
    cases hmid
  skip := by
    intro name cs rest
    rw [next_skipWs]
  item := by
    intro cs read read' rest
    unfold byLabel
    constructor
    · intro h
      cases hident : ident cs with
      | mk found left =>
        cases found with
        | none =>
          rw [hident] at h
          cases h
        | some name =>
          rw [hident] at h
          cases h
          exact ⟨name,ident_eq_some_iff.mp hident,rfl⟩
    · intro h
      obtain ⟨name,hname,hread⟩ := h
      rw [ident_of_next hname,← Option.some.inj hread]
      rfl

/-- Adding labels one by one. -/
theorem foldlM_labels (names read : List String) :
    names.foldlM (fun read name => some (read++[name])) read=some (read++names) := by
  induction names generalizing read with
  | nil => simp
  | cons name names ih =>
    rw [List.foldlM_cons]
    show names.foldlM _ (read++[name])=_
    rw [ih,List.append_assoc]
    rfl

/-- What stands behind the keyword of a by-clause. -/
theorem byLabels_yields {cs rest : List Char} {labels : List String} :
    Yields (byLabels cs) labels rest ↔
      labels≠[] ∧ ∃ trailing, Scan (labelTokens labels trailing) cs rest := by
  have hscan : (∃ trailing, Scan (labelTokens labels trailing) cs rest) ↔
      ∃ mid, next cs=some (.punct '(',mid) ∧
        ListScan ')' (labels.map fun name => [.ident name]) mid rest := by
    constructor
    · intro h
      obtain ⟨trailing,mid,hopen,hlist⟩ := h
      exact ⟨mid,hopen,trailing,hlist⟩
    · intro h
      obtain ⟨mid,hopen,trailing,hlist⟩ := h
      exact ⟨trailing,mid,hopen,hlist⟩
  rw [hscan]
  unfold byLabels
  by_cases hopen : ∃ mid, next cs=some (.punct '(',mid)
  · obtain ⟨mid,hmid⟩ := hopen
    rw [eat_of_next (by decide) hmid]
    have hloop : ∀ labels, Yields (byLabelsLoop mid) labels rest ↔
        ListScan ')' (labels.map fun name => [.ident name]) mid rest := by
      intro labels
      unfold byLabelsLoop
      rw [readsItems_byLabel.loop (Nat.lt_succ_self _)]
      simp only [foldlM_labels,List.nil_append,Option.some.injEq]
      constructor
      · intro h
        obtain ⟨names,hnames,hlist⟩ := h
        rw [← hnames]
        exact hlist
      · intro h
        exact ⟨labels,rfl,h⟩
    constructor
    · intro h
      obtain ⟨left,hok,hrest⟩ := h
      obtain ⟨⟨found,left'⟩,hfound,hok⟩ := bind_eq_ok.mp hok
      by_cases hnil : found=[]
      · simp only [hnil,if_true] at hok
        cases hok
      · simp only [hnil,if_false] at hok
        cases hok
        exact ⟨hnil,mid,hmid,(hloop _).mp ⟨left,hfound,hrest⟩⟩
    · intro h
      obtain ⟨hne,mid',hmid',hlist⟩ := h
      rw [hmid] at hmid'
      cases hmid'
      obtain ⟨left,hfound,hrest⟩ := (hloop labels).mpr hlist
      refine ⟨left,bind_eq_ok.mpr ⟨(labels,left),hfound,?_⟩,hrest⟩
      simp only [hne,if_false]
      rfl
  · rw [eat_of_not (by decide) hopen]
    constructor
    · intro h
      exact absurd h not_yields_error
    · intro h
      obtain ⟨_,mid,hmid,_⟩ := h
      exact absurd ⟨mid,hmid⟩ hopen

end Labels

/-- A punctuation token is its character. -/
theorem next_punct_iff {cs rest : List Char} {c : Char} :
    next cs=some (.punct c,rest) ↔ isPunct c ∧ skipWs cs=c::rest := by
  unfold next
  rw [tokenAt_eq_some_iff]
  generalize skipWs cs=text
  constructor
  · intro h
    cases h with
    | punct _ _ hpunct => exact ⟨hpunct,rfl⟩
  · intro h
    rw [h.2]
    exact Writes.punct c rest h.1

section Filters

/-- Reading a filter. -/
def ReadsFilter (value : String) (cs rest : List Char) : Prop :=
  ∃ behind left, next cs=some (.ident "provider",behind) ∧ next behind=some (.punct '=',left) ∧
    next left=some (.quoted value,rest)

/-- Adding a filter to the provider matched so far. -/
def stepFilter (provider : Option String) (value : String) : Option (Option String) :=
  if value="" ∨ (provider≠none ∧ provider≠some value) then none else some (some value)

/-- The operator is a single equals sign in front of anything but a tilde. -/
theorem matcherOp_eq_iff {key : String} {cs rest : List Char} :
    matcherOp key cs=.ok ("=",rest) ↔ skipWs cs= '=' ::rest ∧ rest.head?≠some '~' := by
  unfold matcherOp
  split
  · rename_i tail heq
    constructor
    · intro h
      simp [pure,Except.pure] at h
    · intro h
      rw [heq] at h
      have htail := (List.cons.inj h.1).2
      rw [← htail] at h
      exact absurd rfl h.2
  · rename_i tail heq
    constructor
    · intro h
      simp [pure,Except.pure] at h
    · intro h
      rw [heq] at h
      exact absurd (List.cons.inj h.1).1 (by decide)
  · rename_i tail heq
    constructor
    · intro h
      simp [pure,Except.pure] at h
    · intro h
      rw [heq] at h
      exact absurd (List.cons.inj h.1).1 (by decide)
  · rename_i tail hnot heq
    constructor
    · intro h
      cases h
      refine ⟨heq,?_⟩
      intro htilde
      cases hrest : rest with
      | nil =>
        rw [hrest] at htilde
        cases htilde
      | cons c more =>
        rw [hrest] at htilde
        have hc : c = '~' := Option.some.inj htilde
        exact hnot more (by rw [hrest,hc])
    · intro h
      rw [heq] at h
      have htail := (List.cons.inj h.1).2
      rw [htail]
      rfl
  · rename_i tail hnot1 hnot2 hnot3 hnot4
    constructor
    · intro h
      cases h
    · intro h
      exact absurd h.1 (hnot4 rest)

/-- Behind a quoted value there is no tilde in front of the quote. -/
theorem head_of_quoted {cs rest : List Char} {value : String}
    (h : next cs=some (.quoted value,rest)) : cs.head?≠some '~' := by
  intro htilde
  cases cs with
  | nil => cases htilde
  | cons c cs =>
    have hc : c = '~' := Option.some.inj htilde
    rw [hc] at h
    have hnone : next ('~'::cs)=none := by
      unfold next
      rw [skipWs_of_head (by decide)]
      rfl
    rw [hnone] at h
    cases h

/-- A label matcher is a provider filter that agrees with those before it. -/
theorem labelMatcher_eq_ok_iff {cs rest : List Char} {provider found : Option String} :
    labelMatcher cs provider=.ok (found,rest) ↔
      ∃ value, ReadsFilter value cs rest ∧ stepFilter provider value=some found := by
  unfold labelMatcher
  constructor
  · intro h
    cases hident : ident cs with
    | mk key behind =>
      cases key with
      | none =>
        rw [hident] at h
        cases h
      | some key =>
        rw [hident] at h
        obtain ⟨⟨op,left⟩,hop,h⟩ := bind_eq_ok.mp h
        by_cases heq : op="="
        · rw [heq] at hop
          simp only [heq,ne_eq,not_true_eq_false,if_false] at h
          obtain ⟨⟨value,after⟩,hquoted,h⟩ := bind_eq_ok.mp h
          by_cases hkey : key="provider"
          · simp only [hkey,not_true_eq_false,if_false] at h
            by_cases hempty : value=""
            · simp only [hempty,if_true] at h
              cases h
            · simp only [hempty,if_false] at h
              by_cases hconflict : provider≠none ∧ provider≠some value
              · rw [if_pos hconflict] at h
                cases h
              · rw [if_neg hconflict] at h
                cases h
                have hequals := matcherOp_eq_iff.mp hop
                rw [hkey] at hident
                refine ⟨value,⟨behind,left,ident_eq_some_iff.mp hident,
                  next_punct_iff.mpr ⟨by decide,hequals.1⟩,quoted_eq_ok_iff.mp hquoted⟩,?_⟩
                unfold stepFilter
                rw [if_neg]
                intro hbad
                rcases hbad with hbad | hbad
                · exact hempty hbad
                · exact hconflict hbad
          · simp only [hkey,not_false_eq_true,if_true] at h
            cases h
        · simp only [ne_eq,heq,not_false_eq_true,if_true] at h
          cases h
  · intro h
    obtain ⟨value,⟨behind,left,hkey,hequals,hquoted⟩,hstep⟩ := h
    rw [ident_of_next hkey]
    have hop : matcherOp "provider" behind=.ok ("=",left) :=
      matcherOp_eq_iff.mpr ⟨(next_punct_iff.mp hequals).2,head_of_quoted hquoted⟩
    unfold stepFilter at hstep
    split_ifs at hstep with hbad
    cases hstep
    have hempty : value≠"" := fun h => hbad (.inl h)
    have hagree : ¬(provider≠none ∧ provider≠some value) := fun h => hbad (.inr h)
    refine bind_eq_ok.mpr ⟨("=",left),hop,?_⟩
    simp only [ne_eq,not_true_eq_false,if_false]
    refine bind_eq_ok.mpr ⟨(value,rest),quoted_eq_ok_iff.mpr hquoted,?_⟩
    simp only [if_false,hempty]
    rw [if_neg hagree]
    rfl

/-- The matchers in braces are provider filters. -/
theorem readsItems_labelMatcher :
    ReadsItems '}' labelMatcher filterTokens stepFilter ReadsFilter where
  punct := by decide
  comma := by decide
  scan := by
    intro value cs rest
    constructor
    · intro h
      obtain ⟨behind,hkey,left,hequals,mid,hquoted,hmid⟩ := h
      exact ⟨mid,⟨behind,left,hkey,hequals,hquoted⟩,hmid⟩
    · intro h
      obtain ⟨mid,⟨behind,left,hkey,hequals,hquoted⟩,hmid⟩ := h
      exact ⟨behind,hkey,left,hequals,mid,hquoted,hmid⟩
  shorter := by
    intro value cs rest h
    obtain ⟨behind,left,hkey,hequals,hquoted⟩ := h
    have h1 := length_of_next hkey
    have h2 := length_of_next hequals
    have h3 := length_of_next hquoted
    omega
  opens := by
    intro value cs rest h hclose
    obtain ⟨behind,left,hkey,_,_⟩ := h
    obtain ⟨mid,hmid⟩ := hclose
    rw [hkey] at hmid
    cases hmid
  skip := by
    intro value cs rest
    unfold ReadsFilter
    rw [next_skipWs]
  item _ _ _ _ := labelMatcher_eq_ok_iff

/-- Filters in a row agree on one provider. -/
theorem foldlM_filters {values : List String} {provider result : Option String} :
    values.foldlM stepFilter provider=some result ↔
      (∀ value∈values, value≠"") ∧ (∀ value∈values, provider=none ∨ provider=some value) ∧
      (∀ value∈values, ∀ other∈values, value=other) ∧ result=values.head?.or provider := by
  induction values generalizing provider with
  | nil =>
    simp only [List.foldlM_nil]
    constructor
    · intro h
      cases h
      simp
    · intro h
      rw [h.2.2.2]
      rfl
  | cons value values ih =>
    rw [List.foldlM_cons]
    constructor
    · intro h
      obtain ⟨next,hstep,hrest⟩ := Option.bind_eq_some_iff.mp h
      unfold stepFilter at hstep
      split_ifs at hstep with hbad
      cases hstep
      obtain ⟨hne,hsame,_,hresult⟩ := ih.mp hrest
      have hequal : ∀ other∈values, other=value := by
        intro other hmem
        rcases hsame other hmem with h | h
        · cases h
        · exact (Option.some.inj h).symm
      have hvalue : value≠"" := fun h => hbad (.inl h)
      have hagree : provider=none ∨ provider=some value := by
        by_contra hnot
        rw [not_or] at hnot
        exact hbad (.inr hnot)
      have hall : ∀ other∈value::values, other=value := by
        intro other hmem
        rcases List.mem_cons.mp hmem with hmem | hmem
        · exact hmem
        · exact hequal other hmem
      refine ⟨?_,?_,?_,?_⟩
      · intro other hmem
        rw [hall other hmem]
        exact hvalue
      · intro other hmem
        rw [hall other hmem]
        exact hagree
      · intro first hfirst second hsecond
        rw [hall first hfirst,hall second hsecond]
      · rw [hresult]
        cases values with
        | nil => simp
        | cons other rest => simp [hequal other List.mem_cons_self]
    · intro h
      obtain ⟨hne,hsame,hequal,hresult⟩ := h
      have hvalue := hne value List.mem_cons_self
      have hagree := hsame value List.mem_cons_self
      have hstep : stepFilter provider value=some (some value) := by
        unfold stepFilter
        rw [if_neg]
        intro hbad
        rcases hbad with hbad | hbad
        · exact hvalue hbad
        · rcases hagree with h | h
          · exact hbad.1 h
          · exact hbad.2 h
      refine Option.bind_eq_some_iff.mpr ⟨some value,hstep,ih.mpr ⟨?_,?_,?_,?_⟩⟩
      · exact fun other hmem => hne other (List.mem_cons_of_mem _ hmem)
      · intro other hmem
        rw [hequal value List.mem_cons_self other (List.mem_cons_of_mem _ hmem)]
        exact .inr rfl
      · intro first hfirst second hsecond
        exact hequal first (List.mem_cons_of_mem _ hfirst) second (List.mem_cons_of_mem _ hsecond)
      · rw [hresult]
        cases values with
        | nil => simp
        | cons other rest =>
          simp [hequal other (List.mem_cons_of_mem _ List.mem_cons_self) value
            List.mem_cons_self]

/-- The optional matchers: none when no brace follows, else provider filters
in braces that agree. -/
theorem labelMatchers_yields {cs rest : List Char} {provider : Option String} :
    Yields (labelMatchers cs) provider rest ↔
      ((¬∃ mid, next cs=some (.punct '{',mid)) ∧ provider=none ∧ skipWs cs=skipWs rest) ∨
      ∃ filters : Filters, Scan filters.tokens cs rest ∧ (∀ value∈filters.values, value≠"") ∧
        (∀ value∈filters.values, ∀ other∈filters.values, value=other) ∧
        provider=filters.values.head? := by
  unfold labelMatchers
  by_cases hopen : ∃ mid, next cs=some (.punct '{',mid)
  · obtain ⟨mid,hmid⟩ := hopen
    rw [eat_of_next (by decide) hmid]
    unfold labelMatchersLoop
    rw [readsItems_labelMatcher.loop (Nat.lt_succ_self _)]
    constructor
    · intro h
      obtain ⟨values,hfold,trailing,hlist⟩ := h
      obtain ⟨hne,_,hequal,hresult⟩ := foldlM_filters.mp hfold
      refine .inr ⟨⟨values,trailing⟩,⟨mid,hmid,hlist⟩,hne,hequal,?_⟩
      rw [hresult,Option.or_none]
    · intro h
      rcases h with ⟨hnot,_⟩ | ⟨filters,⟨mid',hmid',hlist⟩,hne,hequal,hresult⟩
      · exact absurd ⟨mid,hmid⟩ hnot
      · rw [hmid] at hmid'
        cases hmid'
        refine ⟨filters.values,foldlM_filters.mpr ⟨hne,?_,hequal,?_⟩,filters.trailing,hlist⟩
        · exact fun _ _ => .inl rfl
        · rw [hresult,Option.or_none]
  · rw [eat_of_not (by decide) hopen]
    constructor
    · intro h
      have hok := yields_ok_iff.mp h
      exact .inl ⟨hopen,hok.1.symm,by rw [← hok.2,skipWs_skipWs]⟩
    · intro h
      rcases h with ⟨_,hnone,hrest⟩ | ⟨filters,⟨mid,hmid,_⟩,_⟩
      · exact yields_ok_iff.mpr ⟨hnone.symm,by rw [skipWs_skipWs,hrest]⟩
      · exact absurd ⟨mid,hmid⟩ hopen

end Filters

end TokiSync.QueryLists
