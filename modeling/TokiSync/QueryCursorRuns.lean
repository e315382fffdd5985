import TokiSync.QueryCursor

/-!
# The cursor stays between characters

A run over the bytes of a query agrees with the parser over its characters: a
position always stands in front of the characters that are left there. So no
slice panics, no position passes the end, and a loop that takes a comma in
every round ends.
-/

namespace TokiSync.QueryCursor

open ByteKeys Utf8Slices DurationText
open VirtualQueries (ParsedQuery Wrapper)

/-- A run over bytes and one over characters both give related values, or the
same refusal. -/
inductive Agrees {α β : Type} (R : α → β → Prop) : Except Stop α → Except String β → Prop where
  /-- Both give a value. -/
  | ok {a : α} {b : β} (h : R a b) : Agrees R (.ok a) (.ok b)
  /-- Both refuse. -/
  | refused (reason : String) : Agrees R (.error (.refused reason)) (.error reason)

/-- Agreeing runs continue in agreement. -/
theorem Agrees.bind {α β α' β' : Type} {R : α → β → Prop} {S : α' → β' → Prop}
    {run : Except Stop α} {result : Except String β} {f : α → Except Stop α'}
    {g : β → Except String β'} (h : Agrees R run result)
    (hnext : ∀ a b, R a b → Agrees S (f a) (g b)) : Agrees S (run>>=f) (result>>=g) := by
  cases h with
  | ok hvalue => exact hnext _ _ hvalue
  | refused reason => exact .refused reason

/-- A pure step over characters. -/
theorem Agrees.step {α β α' β' : Type} {R : α → β → Prop} {S : α' → β' → Prop}
    {run : Except Stop α} {found : β} {f : α → Except Stop α'} {result : Except String β'}
    (h : Agrees R run (.ok found)) (hnext : ∀ a, R a found → Agrees S (f a) result) :
    Agrees S (run>>=f) result := by
  cases h with
  | ok hvalue => exact hnext _ hvalue

theorem Agrees.eq {α : Type} {run : Except Stop α} {result : Except String α}
    (h : Agrees Eq run result) : run=reasonOf result := by
  cases h with
  | ok hvalue => rw [hvalue]; rfl
  | refused reason => rfl

theorem Agrees.reasonOf {α : Type} (result : Except String α) :
    Agrees Eq (reasonOf result) result := by
  cases result with
  | ok value => exact .ok rfl
  | error reason => exact .refused reason

/-- A test of bytes and one of characters that agree on ASCII and give one
answer everywhere else. -/
theorem covers_of {test : UInt8 → Bool} {member : Char → Bool} (outside : Bool)
    (hbytes : ∀ n<256, test (UInt8.ofNat n)=if n<128 then member (Char.ofNat n) else outside)
    (hchars : ∀ c : Char, 128≤c.toNat → member c=outside) : Covers test member := by
  have htest : ∀ b : UInt8, test b=if b.toNat<128 then member (Char.ofNat b.toNat) else outside := by
    intro b
    rw [←hbytes b.toNat b.toNat_lt,UInt8.ofNat_toNat]
  have hfirst : ∀ {c : Char} {first : UInt8} {rest : Bytes}, Encoded c first rest →
      test first=member c := by
    intro c first rest hc
    rw [htest]
    rcases Nat.lt_or_ge c.toNat 128 with hlt | hge
    · rw [(hc.ascii hlt).2,if_pos hlt,Char.ofNat_toNat]
    · have hother := hc.other hge
      rw [if_neg (by omega),hchars c hge]
  refine ⟨?_,?_⟩
  · intro c hmember b hb
    obtain ⟨first,rest,hc⟩ := exists_encoded c
    rw [hc.bytes] at hb
    rcases List.mem_cons.mp hb with rfl | hrest
    · rw [hfirst hc,hmember]
    · -- only a character outside of ASCII has more bytes, all of them high
      have hge : 128≤c.toNat := by
        by_contra hlt
        rw [(hc.ascii (by omega)).1] at hrest
        cases hrest
      have hcont := hc.continues b hrest
      rw [LossyText.isContinuation,Bool.and_eq_true,decide_eq_true_eq,UInt8.le_iff_toNat_le] at hcont
      have hlow : (0x80 : UInt8).toNat=128 := rfl
      rw [htest,if_neg (by omega),←hchars c hge,hmember]
  · intro c hmember b rest hbytes
    obtain ⟨first,rest',hc⟩ := exists_encoded c
    rw [hc.bytes] at hbytes
    rw [←(List.cons.inj hbytes).1,hfirst hc,hmember]

theorem covers_whitespace : Covers isAsciiWhitespace VirtualQueries.isAsciiWhitespace := by
  refine covers_of false (by decide +kernel) fun c hc => ?_
  by_contra hspace
  rw [Bool.not_eq_false] at hspace
  simp only [VirtualQueries.isAsciiWhitespace,Bool.or_eq_true,decide_eq_true_eq] at hspace
  rcases hspace with (((rfl | rfl) | rfl) | rfl) | rfl
  all_goals exact absurd hc (by decide)

theorem covers_ident : Covers isIdentByte VirtualQueries.isIdentChar := by
  refine covers_of false (by decide +kernel) fun c hc => ?_
  have hval : c.val.toNat=c.toNat := rfl
  have hz : 'z'.val.toNat=122 := rfl
  have hZ : 'Z'.val.toNat=90 := rfl
  have h9 : '9'.val.toNat=57 := rfl
  by_contra hident
  rw [Bool.not_eq_false] at hident
  simp only [VirtualQueries.isIdentChar,isAsciiDigit,Bool.or_eq_true,Bool.and_eq_true,
    decide_eq_true_eq,Char.le_def,UInt32.le_iff_toNat_le] at hident
  rcases hident with ((h | h) | h) | rfl
  · omega
  · omega
  · omega
  · exact absurd hc (by decide)

/-- Characters a string literal is made of. -/
def isValueChar (c : Char) : Bool := c ≠ '"' && c ≠ '\\'

theorem covers_value : Covers isValueByte isValueChar := by
  refine covers_of true (by decide +kernel) fun c hc => ?_
  rw [isValueChar,Bool.and_eq_true,decide_eq_true_eq,decide_eq_true_eq]
  constructor
  · rintro rfl
    exact absurd hc (by decide)
  · rintro rfl
    exact absurd hc (by decide)

theorem covers_range : Covers (fun b => b ≠ ']'.toUInt8) (fun c => c ≠ ']') := by
  refine covers_of true (by decide +kernel) fun c hc => ?_
  rw [decide_eq_true_eq]
  rintro rfl
  exact absurd hc (by decide)

theorem encode_ascii {c : Char} (hc : c.toNat<128) : String.utf8EncodeChar c=[c.toUInt8] := by
  obtain ⟨first,rest,hencoded⟩ := exists_encoded c
  obtain ⟨rfl,hfirst⟩ := hencoded.ascii hc
  have hbyte : c.toUInt8.toNat=c.toNat%256 := rfl
  rw [hencoded.bytes,List.cons.injEq]
  refine ⟨UInt8.toNat.inj ?_,rfl⟩
  omega

/-- A position stands in front of characters that are no more than a limit. -/
structure Near (src : String) (limit pos : ℕ) (cs : List Char) : Prop where
  /-- The characters are those behind the position. -/
  at_pos : At src pos cs
  /-- There are not too many. -/
  le : cs.length≤limit

/-- A value read up to a position and the one read up to the characters left. -/
def Stands {α : Type} (src : String) (limit : ℕ) (found : α×ℕ) (expected : α×List Char) : Prop :=
  found.1=expected.1 ∧ Near src limit found.2 expected.2

section

variable {src : String} {limit pos : ℕ} {cs : List Char}

theorem near_zero (src : String) : Near src src.toList.length 0 src.toList :=
  ⟨at_zero src,le_rfl⟩

theorem Near.mono {least : ℕ} (h : Near src least pos cs) (hle : least≤limit) :
    Near src limit pos cs := ⟨h.at_pos,h.le.trans hle⟩

/-- Behind the next characters fewer are left. -/
theorem Near.move {mid rest : List Char} (h : Near src limit pos (mid++rest)) :
    Near src limit (pos+(bytesOf mid).length) rest := by
  refine ⟨h.at_pos.move,?_⟩
  have hle := h.le
  rw [List.length_append] at hle
  omega

/-- The position behind one ASCII character. -/
theorem Near.next {c : Char} {rest : List Char} (h : Near src limit pos (c::rest))
    (hc : c.toNat<128) : Near src limit (pos+1) rest := by
  have hmove : Near src limit (pos+(bytesOf [c]).length) rest := Near.move h
  rwa [bytesOf_cons,encode_ascii hc] at hmove

/-- The next byte is an ASCII one exactly when the next character is. -/
theorem Near.peek_iff (h : Near src limit pos cs) {c : Char} (hc : c.toNat<128) :
    peek src pos=some c.toUInt8 ↔ cs.head?=some c := by
  have hget := h.at_pos.getElem? 0
  rw [Nat.add_zero] at hget
  rw [peek,hget]
  cases cs with
  | nil => exact iff_of_false (by intro h; cases h) (by intro h; cases h)
  | cons d rest =>
    obtain ⟨first,others,hd⟩ := exists_encoded d
    rw [bytesOf_cons,hd.bytes,List.cons_append,List.getElem?_cons_zero,List.head?_cons,
      Option.some.injEq,Option.some.injEq]
    have hbyte : c.toUInt8.toNat=c.toNat%256 := rfl
    constructor
    · rintro rfl
      rcases Nat.lt_or_ge d.toNat 128 with hlt | hge
      · have hfirst := (hd.ascii hlt).2
        exact Char.toNat_inj.mp (by omega)
      · have hother := hd.other hge
        omega
    · rintro rfl
      exact UInt8.toNat.inj (by rw [(hd.ascii hc).2]; omega)

theorem Near.of_peek (h : Near src limit pos cs) {c : Char} (hc : c.toNat<128)
    (hpeek : peek src pos=some c.toUInt8) : ∃ rest, cs=c::rest :=
  List.head?_eq_some_iff.mp ((h.peek_iff hc).mp hpeek)

theorem Near.exists_peek {c : Char} {rest : List Char} (h : Near src limit pos (c::rest)) :
    ∃ b, peek src pos=some b := by
  have hget := h.at_pos.getElem? 0
  obtain ⟨first,others,hc⟩ := exists_encoded c
  rw [Nat.add_zero,bytesOf_cons,hc.bytes] at hget
  exact ⟨first,hget⟩

theorem Near.moveTo_eq (h : Near src limit pos cs) : moveTo src pos=.ok pos :=
  if_pos h.at_pos.le_length

/-- A scan ends in front of the first character that is no member. -/
theorem Near.scan_eq {test : UInt8 → Bool} {member : Char → Bool} (h : Near src limit pos cs)
    (hcovers : Covers test member) :
    scan src test pos=.ok (pos+(bytesOf (cs.takeWhile member)).length) ∧
      Near src limit (pos+(bytesOf (cs.takeWhile member)).length) (cs.dropWhile member) := by
  obtain ⟨hadvance,-⟩ := h.at_pos.advanceWhile hcovers
  have hnear : Near src limit (pos+(bytesOf (cs.takeWhile member)).length)
      (cs.dropWhile member) := by
    refine Near.move ?_
    rwa [List.takeWhile_append_dropWhile]
  refine ⟨?_,hnear⟩
  rw [scan,hadvance]
  exact hnear.moveTo_eq

/-- What a scan went over is cut out. -/
theorem Near.cut_scanned (h : Near src limit pos cs) (member : Char → Bool) :
    cut src pos (pos+(bytesOf (cs.takeWhile member)).length)=
      .ok (String.ofList (cs.takeWhile member)) := by
  have hslice : slice src pos (pos+(bytesOf (cs.takeWhile member)).length)=
      some (String.ofList (cs.takeWhile member)) := by
    have hat : At src pos (cs.takeWhile member++cs.dropWhile member) := by
      rw [List.takeWhile_append_dropWhile]
      exact h.at_pos
    exact hat.slice
  rw [cut,hslice]

section

variable {α β : Type} {R : α → β → Prop} {f : ℕ → Except Stop α} {result : Except String β}

theorem Agrees.skip (h : Near src limit pos cs)
    (hnext : ∀ stop, Near src limit stop (VirtualQueries.skipWs cs) → Agrees R (f stop) result) :
    Agrees R (skipWs src pos>>=f) result := by
  obtain ⟨hscan,hnear⟩ := h.scan_eq covers_whitespace
  rw [skipWs,hscan]
  exact hnext _ hnear

theorem Agrees.move (h : Near src limit pos cs) (hnext : Agrees R (f pos) result) :
    Agrees R (moveTo src pos>>=f) result := by
  rw [h.moveTo_eq]
  exact hnext

end

/-- The number of characters in front of a byte position. -/
theorem charIndex_eq (n : ℕ) (cs : List Char) :
    charIndex n cs=if n<cs.length then some (bytesOf (cs.take n)).length else none := by
  induction cs generalizing n with
  | nil => cases n <;> rfl
  | cons c cs ih =>
    cases n with
    | zero => rfl
    | succ n =>
      rw [charIndex,ih,List.length_cons,List.take_succ_cons,bytesOf_cons,List.length_append,
        length_encode]
      by_cases hn : n<cs.length
      · rw [if_pos hn,if_pos (by omega)]
        rfl
      · rw [if_neg hn,if_neg (by omega)]
        rfl

theorem length_pos_of_ne_nil {cs : List Char} (h : cs≠[]) : 0<(bytesOf cs).length := by
  cases cs with
  | nil => exact absurd rfl h
  | cons c cs =>
    rw [bytesOf_cons,List.length_append,length_encode]
    have hpos := c.utf8Size_pos
    omega

/-- Cutting off forty characters. -/
theorem excerpt_eq (rest : List Char) : excerpt (String.ofList rest)=
    .ok (if 40<rest.length then String.ofList (rest.take 40)++"…" else String.ofList rest) := by
  rw [excerpt,String.toList_ofList,charIndex_eq,utf8_eq_bytesOf,String.toList_ofList]
  by_cases hlong : 40<rest.length
  · have hsplit := List.take_append_drop 40 rest
    have hslice : slice (String.ofList rest) 0 (0+(bytesOf (rest.take 40)).length)=
        some (String.ofList (rest.take 40)) := by
      have hat : At (String.ofList rest) 0 (rest.take 40++rest.drop 40) := by
        rw [hsplit]
        exact ⟨[],String.toList_ofList,rfl⟩
      exact hat.slice
    have hback : rest.drop 40≠[] := by
      rw [Ne,List.drop_eq_nil_iff]
      omega
    have hpos := length_pos_of_ne_nil hback
    have hlength := congrArg List.length (bytesOf_append (rest.take 40) (rest.drop 40))
    rw [hsplit,List.length_append] at hlength
    rw [Nat.zero_add] at hslice
    rw [if_pos hlong,if_pos hlong,Option.getD_some,if_pos (by omega),cut,hslice]
    rfl
  · rw [if_neg hlong,if_neg hlong,Option.getD_none,if_neg (lt_irrefl _)]
    rfl

/-- The excerpt of a message is that of the characters left. -/
theorem Near.tail_eq (h : Near src limit pos cs) : tail src pos=.ok (VirtualQueries.tail cs) := by
  have hcut : cut src pos (utf8 src).length=.ok (String.ofList cs) := by
    have hslice : slice src pos (pos+(bytesOf cs).length)=some (String.ofList cs) := by
      have hat : At src pos (cs++[]) := by
        rw [List.append_nil]
        exact h.at_pos
      exact hat.slice
    rw [h.at_pos.length_eq] at hslice
    rw [cut,hslice]
  rw [tail,hcut]
  dsimp only [bind,Except.bind]
  rw [String.toList_ofList,excerpt_eq]
  rfl

theorem Agrees.refuseAt {α β : Type} {R : α → β → Prop} (h : Near src limit pos cs)
    (reason : String) : Agrees R (refuseAt src reason pos)
      (.error (reason++VirtualQueries.tail cs++"`")) := by
  rw [QueryCursor.refuseAt,h.tail_eq]
  exact .refused _

/-- Consuming a character. -/
theorem agrees_eat (h : Near src limit pos cs) {c : Char} (hc : c.toNat<128) :
    Agrees (Stands src limit) (eat src c.toUInt8 pos) (.ok (VirtualQueries.eat c cs)) := by
  rw [eat]
  refine .skip h fun stop hstop => ?_
  rw [VirtualQueries.eat]
  by_cases hpeek : peek src stop=some c.toUInt8
  · have hhead := (hstop.peek_iff hc).mp hpeek
    rw [if_pos hpeek]
    cases hcs : VirtualQueries.skipWs cs with
    | nil => rw [hcs] at hhead; cases hhead
    | cons d rest =>
      rw [hcs] at hhead hstop
      cases hhead
      have hbehind := hstop.next hc
      refine .move hbehind ?_
      dsimp only
      rw [if_pos rfl]
      exact .ok ⟨rfl,hbehind⟩
  · have hhead := fun hhead => hpeek ((hstop.peek_iff hc).mpr hhead)
    rw [if_neg hpeek]
    cases hcs : VirtualQueries.skipWs cs with
    | nil =>
      rw [hcs] at hstop
      exact .ok ⟨rfl,hstop⟩
    | cons d rest =>
      rw [hcs] at hhead hstop
      have hne : d≠c := by
        rintro rfl
        exact hhead rfl
      dsimp only
      rw [if_neg hne]
      exact .ok ⟨rfl,hstop⟩

/-- A consumed character is gone. -/
theorem length_of_eat {c : Char} {rest : List Char} (h : VirtualQueries.eat c cs=(true,rest)) :
    rest.length<cs.length := by
  have hdrop : (VirtualQueries.skipWs cs).length≤cs.length :=
    (List.dropWhile_sublist _).length_le
  rw [VirtualQueries.eat] at h
  cases hcs : VirtualQueries.skipWs cs with
  | nil => rw [hcs] at h; cases h
  | cons d left =>
    rw [hcs] at h hdrop
    dsimp only at h
    split_ifs at h with hd
    · obtain ⟨-,rfl⟩ := Prod.mk.inj h
      exact hdrop
    · cases h

/-- Reading an identifier. -/
theorem agrees_ident (h : Near src limit pos cs) :
    Agrees (Stands src limit) (ident src pos) (.ok (VirtualQueries.ident cs)) := by
  rw [ident]
  refine .skip h fun start hstart => ?_
  obtain ⟨hscan,hnear⟩ := hstart.scan_eq covers_ident
  have hcut := hstart.cut_scanned VirtualQueries.isIdentChar
  rw [hscan]
  change Agrees (Stands src limit) (if _ then _ else _) _
  rw [VirtualQueries.ident]
  by_cases hname : (VirtualQueries.skipWs cs).takeWhile VirtualQueries.isIdentChar=[]
  · rw [if_neg (by rw [hname]; exact lt_irrefl _)]
    exact .ok ⟨(if_pos hname).symm,hnear⟩
  · have hpos := length_pos_of_ne_nil hname
    rw [if_pos (by omega),hcut]
    exact .ok ⟨(if_neg hname).symm,hnear⟩

section

variable {α β : Type} {R : α → β → Prop} {result : Except String β}

theorem Agrees.eat {f : Bool×ℕ → Except Stop α} {c : Char} (h : Near src limit pos cs)
    (hc : c.toNat<128) (hnext : ∀ hit stop left, VirtualQueries.eat c cs=(hit,left) →
      Near src limit stop left → Agrees R (f (hit,stop)) result) :
    Agrees R (eat src c.toUInt8 pos>>=f) result := by
  refine .step (agrees_eat h hc) ?_
  rintro ⟨hit,stop⟩ ⟨rfl,hnear⟩
  exact hnext _ stop _ rfl hnear

theorem Agrees.ident {f : Option String×ℕ → Except Stop α} (h : Near src limit pos cs)
    (hnext : ∀ name stop left, VirtualQueries.ident cs=(name,left) →
      Near src limit stop left → Agrees R (f (name,stop)) result) :
    Agrees R (ident src pos>>=f) result := by
  refine .step (agrees_ident h) ?_
  rintro ⟨name,stop⟩ ⟨rfl,hnear⟩
  exact hnext _ stop _ rfl hnear

end

/-- A literal ends at the first quote; a backslash in front of it is refused. -/
theorem quotedValue_eq (cs : List Char) : VirtualQueries.quotedValue cs=
    match cs.dropWhile isValueChar with
    | [] => .error "unterminated quoted label value"
    | c::rest =>
      if c = '"' then .ok (cs.takeWhile isValueChar,rest)
      else .error "escape sequences in label values are not supported" := by
  induction cs with
  | nil => rfl
  | cons c cs ih =>
    rw [VirtualQueries.quotedValue]
    by_cases hquote : c = '"'
    · have hmember : ¬isValueChar c=true := by simp [isValueChar,hquote]
      rw [if_pos hquote,List.dropWhile_cons_of_neg hmember,List.takeWhile_cons_of_neg hmember]
      exact (if_pos hquote).symm
    · by_cases hescape : c = '\\'
      · have hmember : ¬isValueChar c=true := by simp [isValueChar,hescape]
        rw [if_neg hquote,if_pos hescape,List.dropWhile_cons_of_neg hmember]
        exact (if_neg hquote).symm
      · have hmember : isValueChar c=true := by simp [isValueChar,hquote,hescape]
        rw [if_neg hquote,if_neg hescape,List.dropWhile_cons_of_pos hmember,
          List.takeWhile_cons_of_pos hmember,ih]
        cases cs.dropWhile isValueChar with
        | nil => rfl
        | cons d rest =>
          dsimp only
          by_cases hd : d = '"'
          · rw [if_pos hd,if_pos hd]
            rfl
          · rw [if_neg hd,if_neg hd]
            rfl

/-- Reading a literal behind its opening quote. -/
theorem agrees_quotedValue (h : Near src limit pos cs) :
    Agrees (Stands src limit) (quotedValue src pos) (do
      let (value,left) ← VirtualQueries.quotedValue cs
      pure (String.ofList value,left)) := by
  obtain ⟨hscan,hnear⟩ := h.scan_eq covers_value
  have hcut := h.cut_scanned isValueChar
  have hpeek := hnear.peek_iff (by decide : '"'.toNat<128)
  rw [quotedValue,hscan,quotedValue_eq]
  dsimp only [bind,Except.bind]
  cases hrest : cs.dropWhile isValueChar with
  | nil =>
    have hnone : peek src (pos+(bytesOf (cs.takeWhile isValueChar)).length)=none := by
      have hget := hnear.at_pos.getElem? 0
      rw [hrest] at hget
      exact hget
    rw [hnone]
    exact .refused _
  | cons c rest =>
    rw [hrest] at hnear hpeek
    by_cases hc : c = '"'
    · subst hc
      rw [hpeek.mpr rfl,hcut]
      have hbehind := hnear.next (by decide)
      exact .move hbehind (.ok ⟨rfl,hbehind⟩)
    · have hne : peek src (pos+(bytesOf (cs.takeWhile isValueChar)).length)≠some '"'.toUInt8 := by
        intro h
        exact hc (Option.some.inj (hpeek.mp h))
      obtain ⟨b,hb⟩ := hnear.exists_peek
      rw [hb] at hne ⊢
      dsimp only
      rw [if_neg (fun h => hne (congrArg some h)),if_neg hc]
      exact .refused _

theorem agrees_quoted (h : Near src limit pos cs) :
    Agrees (Stands src limit) (quoted src pos) (VirtualQueries.quoted cs) := by
  rw [quoted]
  refine .skip h fun stop hstop => ?_
  rw [VirtualQueries.quoted]
  by_cases hpeek : peek src stop=some '"'.toUInt8
  · obtain ⟨rest,hrest⟩ := hstop.of_peek (by decide) hpeek
    rw [if_pos hpeek,hrest]
    rw [hrest] at hstop
    have hbehind := hstop.next (by decide)
    exact .move hbehind (agrees_quotedValue hbehind)
  · rw [if_neg hpeek]
    split
    · rename_i rest hrest
      exact absurd ((hstop.peek_iff (by decide)).mpr (by rw [hrest]; rfl)) hpeek
    · exact .refuseAt hstop _

/-- Rounds that consume a comma each run out of characters first. -/
theorem agrees_itemsLoop {σ : Type} {close : Char} (hclose : close.toNat<128)
    {item : ℕ → σ → Except Stop (σ×ℕ)} {expectedItem : List Char → σ → Except String (σ×List Char)}
    (hitem : ∀ limit pos cs read, Near src limit pos cs →
      Agrees (Stands src limit) (item pos read) (expectedItem cs read)) (expected : String)
    {rounds bound : ℕ} (h : Near src limit pos cs) (hrounds : cs.length<rounds)
    (hbound : cs.length<bound) (read : σ) : Agrees (Stands src limit)
      (itemsLoop src close.toUInt8 item expected rounds pos read)
      (VirtualQueries.itemsLoop close expectedItem expected bound cs read) := by
  induction rounds generalizing bound pos cs read with
  | zero => omega
  | succ rounds ih =>
    obtain ⟨bound,rfl⟩ : ∃ n, bound=n+1 := ⟨bound-1,by omega⟩
    rw [itemsLoop,VirtualQueries.itemsLoop]
    have hhere : Near src cs.length pos cs := ⟨h.at_pos,le_rfl⟩
    refine .eat hhere hclose fun closed stop left heat hnear => ?_
    rw [heat]
    cases closed with
    | true => exact .ok ⟨rfl,hnear.mono h.le⟩
    | false =>
      refine .bind (hitem cs.length stop left read hnear) ?_
      rintro ⟨read,stop⟩ ⟨read',left⟩ ⟨hsame,hitem⟩
      obtain rfl : read=read' := hsame
      refine .eat hitem (by decide) fun comma stop rest heat hnear => ?_
      dsimp only
      rw [heat]
      cases comma with
      | true =>
        have hshorter := length_of_eat heat
        have hle := hitem.le
        exact ih (hnear.mono h.le) (by omega) (by omega) read
      | false =>
        refine .eat hnear hclose fun closed stop left heat hnear => ?_
        dsimp only
        rw [heat]
        cases closed with
        | true => exact .ok ⟨rfl,hnear.mono h.le⟩
        | false => exact .refuseAt hnear _

/-- One label of a by-clause. -/
theorem agrees_byLabel (h : Near src limit pos cs) (labels : List String) :
    Agrees (Stands src limit) (byLabel src pos labels) (VirtualQueries.byLabel cs labels) := by
  rw [byLabel]
  refine .ident h fun label stop left hident hnear => ?_
  rw [VirtualQueries.byLabel,hident]
  cases label with
  | none => exact .refuseAt hnear _
  | some label => exact .ok ⟨rfl,hnear⟩

/-- Moving over an operator of two characters, or of one. -/
theorem agrees_operator {op : String} {n : ℕ} (hop : (utf8 op).length=n)
    (h : Near src limit (pos+n) cs) : Agrees (Stands src limit) (do
      let stop ← moveTo src (pos+(utf8 op).length)
      pure (op,stop)) (.ok (op,cs)) := by
  rw [hop]
  exact .move h (.ok ⟨rfl,h⟩)

/-- The two bytes behind a label name write the operator of the characters
there. -/
theorem agrees_matcherOp (h : Near src limit pos cs) (key : String) :
    Agrees (Stands src limit) (matcherOp src key pos) (VirtualQueries.matcherOp key cs) := by
  rw [matcherOp]
  refine .skip h fun stop hstop => ?_
  have hbyte : (utf8 src)[stop+1]?=peek src (stop+1) := rfl
  rw [hbyte]
  have hequals := hstop.peek_iff (by decide : '='.toNat<128)
  have hbang := hstop.peek_iff (by decide : '!'.toNat<128)
  fun_cases VirtualQueries.matcherOp key cs with
  | case1 rest hrest =>
    rw [hrest] at hstop hequals
    have hsecond := hstop.next (by decide)
    have htilde := hsecond.peek_iff (by decide : '~'.toNat<128)
    rw [matcherOf,if_pos ⟨hequals.mpr rfl,htilde.mpr rfl⟩]
    exact agrees_operator rfl (hsecond.next (by decide))
  | case2 rest hrest =>
    rw [hrest] at hstop hequals hbang
    have hsecond := hstop.next (by decide)
    have htilde := hsecond.peek_iff (by decide : '~'.toNat<128)
    have hfirst : peek src stop≠some '='.toUInt8 := by simp [hequals]
    rw [matcherOf,if_neg fun h => hfirst h.1,if_pos ⟨hbang.mpr rfl,htilde.mpr rfl⟩]
    exact agrees_operator rfl (hsecond.next (by decide))
  | case3 rest hrest =>
    rw [hrest] at hstop hequals hbang
    have hsecond := hstop.next (by decide)
    have htilde := hsecond.peek_iff (by decide : '~'.toNat<128)
    have hequals' := hsecond.peek_iff (by decide : '='.toNat<128)
    have hfirst : peek src stop≠some '='.toUInt8 := by simp [hequals]
    have hnext : peek src (stop+1)≠some '~'.toUInt8 := by simp [htilde]
    rw [matcherOf,if_neg fun h => hfirst h.1,if_neg fun h => hnext h.2,
      if_pos ⟨hbang.mpr rfl,hequals'.mpr rfl⟩]
    exact agrees_operator rfl (hsecond.next (by decide))
  | case4 rest hnot hrest =>
    rw [hrest] at hstop hequals hbang
    have hsecond := hstop.next (by decide)
    have hfirst : peek src stop≠some '!'.toUInt8 := by simp [hbang]
    have hnext : peek src (stop+1)≠some '~'.toUInt8 := by
      intro h
      obtain ⟨left,hleft⟩ := hsecond.of_peek (by decide) h
      exact hnot left hleft
    rw [matcherOf,if_neg fun h => hnext h.2,if_neg fun h => hfirst h.1,
      if_neg fun h => hfirst h.1,if_pos (hequals.mpr rfl)]
    exact agrees_operator rfl hsecond
  | case5 h1 h2 h3 h4 =>
    have hfirst : peek src stop≠some '='.toUInt8 := by
      intro h
      obtain ⟨left,hleft⟩ := hstop.of_peek (by decide) h
      exact h4 left hleft
    have hnext : peek src stop=some '!'.toUInt8 →
        peek src (stop+1)≠some '~'.toUInt8 ∧ peek src (stop+1)≠some '='.toUInt8 := by
      intro h
      obtain ⟨left,hleft⟩ := hstop.of_peek (by decide) h
      rw [hleft] at hstop
      have hsecond := hstop.next (by decide)
      constructor
      · intro htilde
        obtain ⟨rest,rfl⟩ := hsecond.of_peek (by decide) htilde
        exact h2 rest hleft
      · intro hequals'
        obtain ⟨rest,rfl⟩ := hsecond.of_peek (by decide) hequals'
        exact h3 rest hleft
    rw [matcherOf,if_neg fun h => hfirst h.1,if_neg fun h => (hnext h.1).1 h.2,
      if_neg fun h => (hnext h.1).2 h.2,if_neg hfirst]
    exact .refuseAt hstop _

theorem agrees_labelMatcher (h : Near src limit pos cs) (provider : Option String) :
    Agrees (Stands src limit) (labelMatcher src pos provider)
      (VirtualQueries.labelMatcher cs provider) := by
  rw [labelMatcher]
  refine .ident h fun key stop left hident hnear => ?_
  rw [VirtualQueries.labelMatcher,hident]
  cases key with
  | none => exact .refuseAt hnear _
  | some key =>
    refine .bind (agrees_matcherOp hnear key) ?_
    rintro ⟨op,stop⟩ ⟨op',left⟩ ⟨hsame,hnear⟩
    obtain rfl : op=op' := hsame
    dsimp only
    by_cases hop : op="="
    · rw [if_neg (not_not_intro hop),if_neg (not_not_intro hop)]
      refine .bind (agrees_quoted hnear) ?_
      rintro ⟨value,stop⟩ ⟨value',left⟩ ⟨hsame,hnear⟩
      obtain rfl : value=value' := hsame
      dsimp only
      split_ifs
      · exact .refused _
      · exact .refused _
      · exact .refused _
      · exact .ok ⟨rfl,hnear⟩
    · rw [if_pos hop,if_pos hop]
      exact .refused _

theorem agrees_rangeFunction (h : Near src limit pos cs) : Agrees (Stands src limit)
    (rangeFunction src pos) (VirtualQueries.rangeFunction cs) := by
  rw [rangeFunction]
  refine .ident h fun id stop left hident hnear => ?_
  rw [VirtualQueries.rangeFunction,hident]
  cases id with
  | none => exact .ok ⟨rfl,hnear⟩
  | some id =>
    dsimp only
    refine .skip hnear fun stop hstop => ?_
    by_cases hpeek : peek src stop=some '('.toUInt8
    · obtain ⟨rest,hrest⟩ := hstop.of_peek (by decide) hpeek
      rw [hrest] at hstop
      have hbehind := hstop.next (by decide)
      rw [if_pos hpeek,hrest]
      split_ifs
      · exact .refused _
      · exact .move hbehind (.ok ⟨rfl,hbehind⟩)
    · rw [if_neg hpeek]
      split
      · rename_i rest hrest
        exact absurd ((hstop.peek_iff (by decide)).mpr (by rw [hrest]; rfl)) hpeek
      · exact .move h (.ok ⟨rfl,h⟩)

theorem agrees_metric (h : Near src limit pos cs) :
    Agrees (Stands src limit) (metric src pos) (VirtualQueries.metric cs) := by
  rw [metric]
  refine .ident h fun name stop left hident hnear => ?_
  rw [VirtualQueries.metric,hident]
  cases name with
  | none => exact .refuseAt hnear _
  | some name =>
    refine .bind (.reasonOf _) ?_
    rintro kind _ rfl
    exact .ok ⟨rfl,hnear⟩

theorem agrees_rangeSelector (h : Near src limit pos cs) : Agrees (Stands src limit)
    (rangeSelector src pos) (VirtualQueries.rangeSelector cs) := by
  rw [rangeSelector]
  refine .eat h (by decide) fun opened start inner heat hstart => ?_
  rw [VirtualQueries.rangeSelector,heat]
  cases opened with
  | false => exact .ok ⟨rfl,hstart⟩
  | true =>
    obtain ⟨hscan,hnear⟩ := hstart.scan_eq covers_range
    have hcut := hstart.cut_scanned (fun c => c ≠ ']')
    dsimp only
    rw [if_pos rfl,hscan]
    dsimp only [bind,Except.bind]
    rw [hcut]
    dsimp only
    rw [String.toList_ofList]
    refine .eat hnear (by decide) fun closed stop left heat hnear => ?_
    rw [heat]
    cases closed with
    | false => exact .refused _
    | true =>
      dsimp only
      rw [if_pos rfl]
      generalize parseDurationSecs
        (String.ofList (VirtualQueries.trim (inner.takeWhile fun c => c ≠ ']')))=duration
      cases duration with
      | error e => exact .refused _
      | ok secs => exact .ok ⟨rfl,hnear⟩

theorem agrees_refuseOffset (h : Near src limit pos cs) : Agrees (Near src limit)
    (refuseOffset src pos) (VirtualQueries.refuseOffset cs) := by
  rw [refuseOffset]
  refine .ident h fun id stop left hident hnear => ?_
  rw [VirtualQueries.refuseOffset,hident]
  cases id with
  | none => exact .ok hnear
  | some id =>
    dsimp only
    split_ifs with hoffset
    · subst hoffset
      exact .refused _
    · rw [h.moveTo_eq]
      split
      · rename_i heq
        cases heq
        exact absurd rfl hoffset
      · exact .ok h
      · rename_i heq
        cases heq

theorem agrees_closeParens (h : Near src limit pos cs) (n : ℕ) : Agrees (Near src limit)
    (closeParens src n pos) (VirtualQueries.closeParens n cs) := by
  induction n generalizing pos cs with
  | zero => exact .ok h
  | succ n ih =>
    rw [closeParens]
    refine .eat h (by decide) fun closed stop left heat hnear => ?_
    rw [VirtualQueries.closeParens,heat]
    cases closed with
    | false => exact .refuseAt hnear _
    | true => exact ih hnear

variable {rounds : ℕ}

theorem agrees_byLabels (h : Near src limit pos cs) (hrounds : cs.length<rounds) :
    Agrees (Stands src limit) (byLabels src rounds pos) (VirtualQueries.byLabels cs) := by
  rw [byLabels]
  refine .eat h (by decide) fun opened stop left heat hnear => ?_
  rw [VirtualQueries.byLabels,heat]
  cases opened with
  | false => exact .refused _
  | true =>
    have hshorter := length_of_eat heat
    refine .bind (agrees_itemsLoop (by decide) (fun _ _ _ read h => agrees_byLabel h read) _ hnear
      (by omega) (Nat.lt_succ_self _) []) ?_
    rintro ⟨labels,stop⟩ ⟨labels',left⟩ ⟨hsame,hnear⟩
    obtain rfl : labels=labels' := hsame
    dsimp only
    split_ifs
    · exact .refused _
    · exact .ok ⟨rfl,hnear⟩

/-- A body found behind an identifier starts where the characters say. -/
theorem agrees_wrapperBody (h : Near src limit pos cs) (hrounds : limit<rounds)
    (id : String) : Agrees (Option.Rel (Stands src limit)) (wrapperBody src rounds id pos)
      (VirtualQueries.wrapperBody id cs) := by
  rw [wrapperBody]
  refine .skip h fun mark hmark => ?_
  rw [VirtualQueries.wrapperBody]
  have hopens := hmark.peek_iff (by decide : '('.toNat<128)
  dsimp only
  by_cases hcall : peek src mark=some '('.toUInt8 ∧ id≠"increase"
  · rw [if_pos hcall,if_pos ⟨hopens.mp hcall.1,hcall.2⟩]
    exact .ok (.some ⟨rfl,hmark⟩)
  · rw [if_neg hcall,if_neg fun h => hcall ⟨hopens.mpr h.1,h.2⟩]
    refine .ident hmark fun word stop left hident hnear => ?_
    rw [hident]
    by_cases hby : word=some "by"
    · subst hby
      have hle := hnear.le
      dsimp only
      rw [if_pos rfl]
      refine .bind (agrees_byLabels hnear (by omega)) ?_
      rintro ⟨labels,stop⟩ ⟨labels',left⟩ ⟨hsame,hnear⟩
      obtain rfl : labels=labels' := hsame
      refine .skip hnear fun stop hstop => ?_
      have hopens := hstop.peek_iff (by decide : '('.toNat<128)
      dsimp only
      by_cases hbody : peek src stop=some '('.toUInt8
      · rw [if_pos hbody,if_pos (hopens.mp hbody)]
        exact .ok (.some ⟨rfl,hstop⟩)
      · rw [if_neg hbody,if_neg fun h => hbody (hopens.mpr h)]
        exact .move hmark (.ok .none)
    · dsimp only
      rw [if_neg hby]
      split
      · rename_i heq
        cases heq
        exact absurd rfl hby
      · exact .move hmark (.ok .none)

theorem agrees_aggregation (h : Near src limit pos cs) (hrounds : limit<rounds) :
    Agrees (Stands src limit) (aggregation src rounds pos) (VirtualQueries.aggregation cs) := by
  rw [aggregation]
  refine .ident h fun id stop left hident hnear => ?_
  rw [VirtualQueries.aggregation,hident]
  cases id with
  | none => exact .ok ⟨rfl,hnear⟩
  | some id =>
    refine .bind (agrees_wrapperBody hnear hrounds id) ?_
    rintro body body' hbody
    cases hbody with
    | none => exact .move h (.ok ⟨rfl,h⟩)
    | some hbody =>
      rename_i found expected
      obtain ⟨labels,stop⟩ := found
      obtain ⟨labels',left⟩ := expected
      obtain ⟨hsame,hnear⟩ := hbody
      obtain rfl : labels=labels' := hsame
      dsimp only
      by_cases hsum : id="sum"
      · rw [if_neg (not_not_intro hsum),if_neg (not_not_intro hsum)]
        refine .eat hnear (by decide) fun opened stop left heat hnear => ?_
        rw [heat]
        cases opened with
        | false => exact .refuseAt hnear _
        | true => exact .ok ⟨rfl,hnear⟩
      · rw [if_pos hsum,if_pos hsum]
        exact .refused _

theorem agrees_labelMatchers (h : Near src limit pos cs) (hrounds : cs.length<rounds) :
    Agrees (Stands src limit) (labelMatchers src rounds pos)
      (VirtualQueries.labelMatchers cs) := by
  rw [labelMatchers]
  refine .eat h (by decide) fun opened stop left heat hnear => ?_
  rw [VirtualQueries.labelMatchers,heat]
  cases opened with
  | false => exact .ok ⟨rfl,hnear⟩
  | true =>
    have hshorter := length_of_eat heat
    exact agrees_itemsLoop (by decide) (fun _ _ _ read h => agrees_labelMatcher h read) _ hnear
      (by omega) (Nat.lt_succ_self _) none

theorem agrees_trailingBy (h : Near src limit pos cs) (hrounds : limit<rounds)
    (labels : List String) : Agrees (Stands src limit) (trailingBy src rounds labels pos)
      (VirtualQueries.trailingBy labels cs) := by
  rw [trailingBy]
  refine .ident h fun id stop left hident hnear => ?_
  rw [VirtualQueries.trailingBy,hident]
  cases id with
  | none => exact .ok ⟨rfl,hnear⟩
  | some id =>
    dsimp only
    by_cases hby : id="by"
    · subst hby
      have hle := hnear.le
      rw [if_pos rfl]
      split_ifs
      · exact .refused _
      · exact agrees_byLabels hnear (by omega)
    · rw [if_neg hby]
      split
      · rename_i heq
        cases heq
        exact absurd rfl hby
      · exact .move h (.ok ⟨rfl,h⟩)
      · rename_i heq
        cases heq

/-- Nothing is left exactly at the end of the text. -/
theorem Near.ended_iff (h : Near src limit pos cs) : (utf8 src).length≤pos ↔ cs=[] := by
  have hlength := h.at_pos.length_eq
  constructor
  · intro hle
    by_contra hne
    have hpos := length_pos_of_ne_nil hne
    omega
  · rintro rfl
    change pos+0=_ at hlength
    omega

theorem Agrees.atEnd {α β : Type} {R : α → β → Prop} {f : Bool×ℕ → Except Stop α}
    {result : Except String β} (h : Near src limit pos cs)
    (hnext : ∀ stop, Near src limit stop (VirtualQueries.skipWs cs) →
      Agrees R (f (decide (VirtualQueries.skipWs cs=[]),stop)) result) :
    Agrees R (atEnd src pos>>=f) result := by
  rw [QueryCursor.atEnd,bind_assoc]
  refine .skip h fun stop hstop => ?_
  rw [pure_bind,decide_eq_decide.mpr hstop.ended_iff]
  exact hnext stop hstop

end

/-- ASCII whitespace is whitespace. -/
theorem tail_skipWs (cs : List Char) :
    VirtualQueries.tail (VirtualQueries.skipWs cs)=VirtualQueries.tail cs := by
  have htrim : (VirtualQueries.skipWs cs).dropWhile VirtualQueries.isWhitespace=
      cs.dropWhile VirtualQueries.isWhitespace := by
    induction cs with
    | nil => rfl
    | cons c cs ih =>
      cases hc : VirtualQueries.isAsciiWhitespace c with
      | false =>
        rw [VirtualQueries.skipWs,List.dropWhile_cons_of_neg (by rw [hc]; exact Bool.false_ne_true)]
      | true =>
        have hspace : VirtualQueries.isWhitespace c=true := by
          simp only [VirtualQueries.isAsciiWhitespace,Bool.or_eq_true,decide_eq_true_eq] at hc
          rcases hc with (((rfl | rfl) | rfl) | rfl) | rfl
          all_goals decide
        rw [VirtualQueries.skipWs,List.dropWhile_cons_of_pos hc,
          List.dropWhile_cons_of_pos hspace]
        exact ih
  rw [VirtualQueries.tail,VirtualQueries.tail,VirtualQueries.trim,VirtualQueries.trim,htrim]

/-- A run over the bytes of a query gives what the parser over its characters
gives, however many rounds its loops may take beyond the length. -/
theorem parse_agrees (src : String) {rounds : ℕ} (hrounds : src.toList.length<rounds) :
    Agrees Eq (parseTokiVirtualQuery src rounds) (VirtualQueries.parseTokiVirtualQuery src) := by
  rw [parseTokiVirtualQuery,VirtualQueries.parseTokiVirtualQuery]
  refine .atEnd (near_zero src) fun stop hstart => ?_
  dsimp only
  by_cases hempty : VirtualQueries.skipWs src.toList=[]
  · rw [if_pos (decide_eq_true hempty),if_pos hempty]
    exact .refused _
  rw [if_neg (by rw [decide_eq_true_eq]; exact hempty),if_neg hempty]
  refine .bind (agrees_aggregation hstart hrounds) ?_
  rintro ⟨wrapper,stop⟩ ⟨_,left⟩ ⟨rfl,hnear⟩
  refine .bind (agrees_rangeFunction hnear) ?_
  rintro ⟨increase,stop⟩ ⟨_,left⟩ ⟨rfl,hnear⟩
  refine .bind (agrees_metric hnear) ?_
  rintro ⟨⟨isCost,isEvents⟩,stop⟩ ⟨_,left⟩ ⟨rfl,hnear⟩
  refine .bind (agrees_labelMatchers hnear (hnear.le.trans_lt hrounds)) ?_
  rintro ⟨provider,stop⟩ ⟨_,left⟩ ⟨rfl,hnear⟩
  refine .bind (agrees_rangeSelector hnear) ?_
  rintro ⟨hasBucket,stop⟩ ⟨_,left⟩ ⟨rfl,hnear⟩
  refine .bind (agrees_refuseOffset hnear) fun stop left hnear => ?_
  refine .bind (agrees_closeParens hnear _) fun stop left hnear => ?_
  refine .bind (agrees_trailingBy hnear hrounds _) ?_
  rintro ⟨labels,stop⟩ ⟨_,left⟩ ⟨rfl,hnear⟩
  refine .atEnd hnear fun stop hend => ?_
  dsimp only
  by_cases hleft : VirtualQueries.skipWs left=[]
  · rw [if_pos (decide_eq_true hleft),if_neg (not_not_intro hleft)]
    refine .bind (.reasonOf _) ?_
    rintro selected _ rfl
    exact .ok rfl
  · rw [if_neg (by rw [decide_eq_true_eq]; exact hleft),if_pos hleft]
    rw [←tail_skipWs]
    exact .refuseAt hend _

/-- The parser takes every slice between ordered character boundaries of the
text, never moves beyond its end and leaves every loop: its outcome is a query
or a reason, that of the parser over characters. -/
theorem parse_safe (query : String) (rounds : ℕ) (hrounds : (utf8 query).length<rounds) :
    parseTokiVirtualQuery query rounds≠.error .panicked ∧
      parseTokiVirtualQuery query rounds≠.error .overran ∧
      parseTokiVirtualQuery query rounds≠.error .diverged ∧
      parseTokiVirtualQuery query rounds=
        reasonOf (VirtualQueries.parseTokiVirtualQuery query) := by
  have hlength : query.toList.length≤(utf8 query).length := by
    rw [utf8_eq_bytesOf]
    exact length_le_bytesOf query.toList
  have hparse := (parse_agrees query (hlength.trans_lt hrounds)).eq
  rw [hparse]
  cases VirtualQueries.parseTokiVirtualQuery query with
  | ok parsed => exact ⟨by rintro ⟨⟩,by rintro ⟨⟩,by rintro ⟨⟩,rfl⟩
  | error reason => exact ⟨by rintro ⟨⟩,by rintro ⟨⟩,by rintro ⟨⟩,rfl⟩

/-- Junk of more than one byte a character behind a metric is quoted. -/
theorem parse_safe_junk :
    parseTokiVirtualQuery "usage é" 9=.error (.refused "unexpected trailing input `é`") := by
  rw [(parse_safe "usage é" 9 (by decide +kernel)).2.2.2]
  rfl

end TokiSync.QueryCursor
