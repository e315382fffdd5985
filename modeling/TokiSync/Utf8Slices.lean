import TokiSync.LossyText

/-!
# Slices of UTF-8 text by byte positions

A slice is taken between two byte positions; it exists only when both are
character boundaries, which the byte behind a position tells. A position of a
text that stands in front of known characters moves over them byte by byte
until a byte is found that no character has inside. Nothing here mentions a
program.
-/

namespace TokiSync.Utf8Slices

open ByteKeys LossyText

/-- UTF-8 bytes of characters. -/
def bytesOf (cs : List Char) : Bytes := cs.flatMap String.utf8EncodeChar

theorem utf8_eq_bytesOf (text : String) : utf8 text=bytesOf text.toList := utf8_eq_flatMap text

@[simp] theorem bytesOf_nil : bytesOf []=[] := rfl

theorem bytesOf_cons (c : Char) (cs : List Char) :
    bytesOf (c::cs)=String.utf8EncodeChar c++bytesOf cs := List.flatMap_cons

theorem bytesOf_append (cs ds : List Char) : bytesOf (cs++ds)=bytesOf cs++bytesOf ds :=
  List.flatMap_append

/-- Bytes of a character: the first one tells its kind, the others continue
it. -/
structure Encoded (c : Char) (first : UInt8) (rest : Bytes) : Prop where
  /-- The bytes of the character. -/
  bytes : String.utf8EncodeChar c=first::rest
  /-- The first byte continues nothing. -/
  starts : isContinuation first=false
  /-- The others do. -/
  continues : ∀ b∈rest, isContinuation b=true
  /-- An ASCII character is its byte. -/
  ascii : c.toNat<128 → rest=[] ∧ first.toNat=c.toNat
  /-- Any other character has no ASCII byte. -/
  other : 128≤c.toNat → 192≤first.toNat

theorem exists_encoded (c : Char) : ∃ first rest, Encoded c first rest := by
  have hval : c.val.toNat=c.toNat := rfl
  have hcont : ∀ {n : ℕ}, isContinuation (UInt8.ofNat (n%64+128))=true := by
    intro n
    simp only [isContinuation,Bool.and_eq_true,decide_eq_true_eq,UInt8.le_iff_toNat_le,
      UInt8.toNat_ofNat']
    have hlow : (0x80 : UInt8).toNat=128 := rfl
    have hhigh : (0xBF : UInt8).toNat=191 := rfl
    omega
  have hfirst : ∀ {n : ℕ}, (n<128 ∨ 192≤n) → n<256 → isContinuation (UInt8.ofNat n)=false := by
    intro n hn hlt
    rw [isContinuation,Bool.and_eq_false_iff,decide_eq_false_iff_not,decide_eq_false_iff_not,
      UInt8.le_iff_toNat_le,UInt8.le_iff_toNat_le,UInt8.toNat_ofNat',Nat.mod_eq_of_lt hlt]
    have hlow : (0x80 : UInt8).toNat=128 := rfl
    have hhigh : (0xBF : UInt8).toNat=191 := rfl
    omega
  have hmax : c.toNat<1114112 := by
    have hvalid := c.valid
    have hlt : c.val.toNat<0x110000 := by
      rcases hvalid with h | ⟨-,h⟩
      · exact h.trans (by decide)
      · exact h
    exact hlt
  by_cases h1 : c.toNat≤0x7f
  · refine ⟨UInt8.ofNat c.toNat,[],?_,hfirst (by omega) (by omega),?_,?_,?_⟩
    · unfold String.utf8EncodeChar
      dsimp only
      rw [hval,if_pos h1]
    · exact fun b hb => absurd hb List.not_mem_nil
    · exact fun _ => ⟨rfl,by rw [UInt8.toNat_ofNat']; omega⟩
    · intro h
      omega
  · by_cases h2 : c.toNat≤0x7ff
    · refine ⟨UInt8.ofNat (c.toNat/64%32+192),[UInt8.ofNat (c.toNat%64+128)],?_,
        hfirst (by omega) (by omega),?_,?_,?_⟩
      · unfold String.utf8EncodeChar
        dsimp only
        rw [hval,if_neg h1,if_pos h2]
      · intro b hb
        rw [List.mem_singleton.mp hb]
        exact hcont
      · intro h
        omega
      · intro _
        rw [UInt8.toNat_ofNat']
        omega
    · by_cases h3 : c.toNat≤0xffff
      · refine ⟨UInt8.ofNat (c.toNat/4096%16+224),
          [UInt8.ofNat (c.toNat/64%64+128),UInt8.ofNat (c.toNat%64+128)],?_,hfirst (by omega) (by omega),?_,?_,?_⟩
        · unfold String.utf8EncodeChar
          dsimp only
          rw [hval,if_neg h1,if_neg h2,if_pos h3]
        · intro b hb
          simp only [List.mem_cons,List.not_mem_nil,or_false] at hb
          rcases hb with rfl | rfl
          · exact hcont
          · exact hcont
        · intro h
          omega
        · intro _
          rw [UInt8.toNat_ofNat']
          omega
      · refine ⟨UInt8.ofNat (c.toNat/262144%8+240),[UInt8.ofNat (c.toNat/4096%64+128),
          UInt8.ofNat (c.toNat/64%64+128),UInt8.ofNat (c.toNat%64+128)],?_,hfirst (by omega) (by omega),?_,?_,?_⟩
        · unfold String.utf8EncodeChar
          dsimp only
          rw [hval,if_neg h1,if_neg h2,if_neg h3]
        · intro b hb
          simp only [List.mem_cons,List.not_mem_nil,or_false] at hb
          rcases hb with rfl | rfl | rfl
          · exact hcont
          · exact hcont
          · exact hcont
        · intro h
          omega
        · intro _
          rw [UInt8.toNat_ofNat']
          omega

theorem length_encode (c : Char) : (String.utf8EncodeChar c).length=c.utf8Size :=
  String.length_utf8EncodeChar c

/-- Every character takes a byte. -/
theorem length_le_bytesOf (cs : List Char) : cs.length≤(bytesOf cs).length := by
  induction cs with
  | nil => exact le_rfl
  | cons c cs ih =>
    have hpos := c.utf8Size_pos
    rw [bytesOf_cons,List.length_append,length_encode,List.length_cons]
    omega

/-- Whether a byte position of a text does not lie inside of a character. -/
def isCharBoundary (text : String) (i : ℕ) : Bool :=
  i=0 || match (utf8 text)[i]? with
    | some b => !isContinuation b
    | none => i=(utf8 text).length

/-- The characters in front of a byte position and those behind it; none when
the position is beyond the end or inside of a character. -/
def splitBytes : ℕ → List Char → Option (List Char×List Char)
  | 0,cs => some ([],cs)
  | _+1,[] => none
  | n+1,c::cs =>
    if c.utf8Size≤n+1 then
      (splitBytes (n+1-c.utf8Size) cs).map fun parts => (c::parts.1,parts.2)
    else none

/-- The text between two byte positions; none where slicing panics. -/
def slice (text : String) (start stop : ℕ) : Option String :=
  if start≤ stop then do
    let (_,rest) ← splitBytes start text.toList
    let (mid,_) ← splitBytes (stop-start) rest
    pure (String.ofList mid)
  else none

/-- Characters are split in front of a position exactly when they fill it. -/
theorem splitBytes_eq_some_iff {n : ℕ} {cs front back : List Char} :
    splitBytes n cs=some (front,back) ↔ cs=front++back ∧ (bytesOf front).length=n := by
  induction cs generalizing n front with
  | nil =>
    cases n with
    | zero =>
      rw [splitBytes,Option.some.injEq,Prod.mk.injEq]
      constructor
      · rintro ⟨rfl,rfl⟩
        exact ⟨rfl,rfl⟩
      · rintro ⟨hnil,-⟩
        obtain ⟨rfl,rfl⟩ := List.append_eq_nil_iff.mp hnil.symm
        exact ⟨rfl,rfl⟩
    | succ n =>
      refine iff_of_false (by intro h; cases h) ?_
      rintro ⟨hnil,hlength⟩
      obtain ⟨rfl,-⟩ := List.append_eq_nil_iff.mp hnil.symm
      cases hlength
  | cons c cs ih =>
    have hpos := c.utf8Size_pos
    cases n with
    | zero =>
      rw [splitBytes,Option.some.injEq,Prod.mk.injEq]
      constructor
      · rintro ⟨rfl,rfl⟩
        exact ⟨rfl,rfl⟩
      · rintro ⟨happend,hlength⟩
        cases front with
        | nil => exact ⟨rfl,happend⟩
        | cons d front =>
          rw [bytesOf_cons,List.length_append,length_encode] at hlength
          have hd := d.utf8Size_pos
          omega
    | succ n =>
      rw [splitBytes]
      constructor
      · intro h
        split_ifs at h with hsize
        obtain ⟨⟨front',back'⟩,hrest,heq⟩ := Option.map_eq_some_iff.mp h
        cases heq
        obtain ⟨rfl,hlength⟩ := ih.mp hrest
        refine ⟨rfl,?_⟩
        rw [bytesOf_cons,List.length_append,length_encode,hlength]
        omega
      · rintro ⟨happend,hlength⟩
        cases front with
        | nil => cases hlength
        | cons d front =>
          obtain ⟨rfl,rfl⟩ := List.cons.inj happend
          rw [bytesOf_cons,List.length_append,length_encode] at hlength
          rw [if_pos (by omega),ih.mpr ⟨rfl,(by omega : (bytesOf front).length=n+1-c.utf8Size)⟩]
          rfl

/-- A position splits a text exactly when it is a character boundary. -/
theorem isSome_splitBytes_iff (text : String) (i : ℕ) :
    (splitBytes i text.toList).isSome ↔ isCharBoundary text i=true := by
  rw [isCharBoundary,utf8_eq_bytesOf]
  generalize text.toList=cs
  induction cs generalizing i with
  | nil =>
    cases i with
    | zero => exact iff_of_true rfl rfl
    | succ i => exact iff_of_false (by intro h; cases h) (by intro h; cases h)
  | cons c cs ih =>
    cases i with
    | zero => exact iff_of_true rfl rfl
    | succ i =>
      obtain ⟨first,rest,hc⟩ := exists_encoded c
      have hsize : c.utf8Size=rest.length+1 := by
        rw [←length_encode,hc.bytes,List.length_cons]
      rw [splitBytes,bytesOf_cons,hc.bytes,List.cons_append,List.getElem?_cons_succ,hsize]
      split_ifs with hfits
      · have hle : rest.length ≤ i := by omega
        have hsub : i+1-(rest.length+1)=i-rest.length := by omega
        rw [Option.isSome_map,hsub,ih,List.getElem?_append_right hle,List.length_cons,
          List.length_append]
        cases hcs : bytesOf cs with
        | nil =>
          rw [List.getElem?_nil]
          simp only [Bool.or_eq_true,decide_eq_true_eq,List.length_nil,or_self,false_or]
          omega
        | cons b bs =>
          cases hi : i-rest.length with
          | zero =>
            -- the next character begins here
            have hb : isContinuation b=false := by
              cases cs with
              | nil => cases hcs
              | cons d ds =>
                obtain ⟨first',rest',hd⟩ := exists_encoded d
                rw [bytesOf_cons,hd.bytes,List.cons_append] at hcs
                rw [←(List.cons.inj hcs).1]
                exact hd.starts
            simp [hb]
          | succ k =>
            rw [List.getElem?_cons_succ]
            cases bs[k]? with
            | none =>
              simp only [Bool.or_eq_true,decide_eq_true_eq,List.length_cons,Nat.succ_ne_zero,
                false_or]
              omega
            | some b' => simp
      · -- the byte at the position continues the character
        have hlt : i<rest.length := by omega
        rw [List.getElem?_append_left hlt,List.getElem?_eq_getElem hlt]
        have hcont := hc.continues _ (List.getElem_mem hlt)
        simp [hcont]

/-- Both ends of a text are boundaries. -/
theorem isCharBoundary_zero (text : String) : isCharBoundary text 0=true := rfl

theorem isCharBoundary_length (text : String) : isCharBoundary text (utf8 text).length=true := by
  rw [isCharBoundary,List.getElem?_eq_none le_rfl]
  simp

/-- A boundary is not beyond the end. -/
theorem le_length_of_isCharBoundary {text : String} {i : ℕ} (h : isCharBoundary text i=true) :
    i≤(utf8 text).length := by
  obtain ⟨⟨front,back⟩,hsplit⟩ := Option.isSome_iff_exists.mp ((isSome_splitBytes_iff text i).mpr h)
  obtain ⟨happend,hlength⟩ := splitBytes_eq_some_iff.mp hsplit
  rw [utf8_eq_bytesOf,happend,bytesOf_append,List.length_append]
  omega

/-- A slice is the characters between the two positions. -/
theorem slice_eq_some_iff {text mid : String} {start stop : ℕ} :
    slice text start stop=some mid ↔ ∃ front back, text.toList=front++mid.toList++back ∧
      (bytesOf front).length=start ∧ start+(bytesOf mid.toList).length=stop := by
  unfold slice
  constructor
  · intro h
    split_ifs at h with hle
    simp only [Option.bind_eq_bind,Option.bind_eq_some_iff] at h
    obtain ⟨⟨front,rest⟩,hfront,⟨inner,back⟩,hmid,hpure⟩ := h
    cases hpure
    obtain ⟨happend,hlength⟩ := splitBytes_eq_some_iff.mp hfront
    dsimp only at hmid
    obtain ⟨rfl,hinner⟩ := splitBytes_eq_some_iff.mp hmid
    refine ⟨front,back,?_,hlength,?_⟩
    · rw [String.toList_ofList,happend,List.append_assoc]
    · rw [String.toList_ofList,hinner]
      omega
  · rintro ⟨front,back,happend,rfl,rfl⟩
    rw [List.append_assoc] at happend
    have hmid : splitBytes ((bytesOf front).length+(bytesOf mid.toList).length-
        (bytesOf front).length) (mid.toList++back)=some (mid.toList,back) :=
      splitBytes_eq_some_iff.mpr ⟨rfl,by omega⟩
    rw [if_pos (Nat.le_add_right _ _),splitBytes_eq_some_iff.mpr ⟨happend,rfl⟩]
    simp only [Option.bind_eq_bind,Option.bind_some,hmid,Option.pure_def,String.ofList_toList]

/-- A slice exists exactly between ordered character boundaries. -/
theorem isSome_slice_iff {text : String} {start stop : ℕ} : (slice text start stop).isSome ↔
    start≤ stop ∧ isCharBoundary text start=true ∧ isCharBoundary text stop=true := by
  rw [←isSome_splitBytes_iff,←isSome_splitBytes_iff]
  constructor
  · intro h
    obtain ⟨mid,hmid⟩ := Option.isSome_iff_exists.mp h
    obtain ⟨front,back,happend,hstart,hstop⟩ := slice_eq_some_iff.mp hmid
    refine ⟨by omega,?_,?_⟩
    · rw [splitBytes_eq_some_iff.mpr ⟨happend.trans (List.append_assoc _ _ _),hstart⟩]
      rfl
    · have hboth : (bytesOf (front++mid.toList)).length=stop := by
        rw [bytesOf_append,List.length_append]
        omega
      rw [splitBytes_eq_some_iff.mpr ⟨happend,hboth⟩]
      rfl
  · rintro ⟨hle,hstart,hstop⟩
    obtain ⟨⟨front,rest⟩,hfront⟩ := Option.isSome_iff_exists.mp hstart
    obtain ⟨⟨both,back⟩,hboth⟩ := Option.isSome_iff_exists.mp hstop
    obtain ⟨happend,hlength⟩ := splitBytes_eq_some_iff.mp hfront
    obtain ⟨happend',hlength'⟩ := splitBytes_eq_some_iff.mp hboth
    -- the longer front extends the shorter one
    have hprefix : ∃ mid, both=front++mid := by
      rcases List.append_eq_append_iff.mp (happend.symm.trans happend') with ⟨mid,h,-⟩ | ⟨mid,h,-⟩
      · exact ⟨mid,h⟩
      · refine ⟨[],?_⟩
        have hmid : mid=[] := by
          cases mid with
          | nil => rfl
          | cons c mid =>
            have hpos := c.utf8Size_pos
            rw [h,bytesOf_append,List.length_append,bytesOf_cons,List.length_append,
              length_encode] at hlength
            omega
        rw [h,hmid,List.append_nil,List.append_nil]
    obtain ⟨mid,rfl⟩ := hprefix
    rw [bytesOf_append,List.length_append] at hlength'
    have hslice : slice text start stop=some (String.ofList mid) :=
      slice_eq_some_iff.mpr ⟨front,back,by rw [String.toList_ofList,happend'],hlength,by
        rw [String.toList_ofList]; omega⟩
    rw [hslice]
    rfl

/-- A byte position of a text stands in front of characters. -/
def At (text : String) (pos : ℕ) (cs : List Char) : Prop :=
  ∃ front, text.toList=front++cs ∧ (bytesOf front).length=pos

/-- Move over the bytes that pass a test. -/
def advanceWhile (bytes : Bytes) (test : UInt8 → Bool) (pos : ℕ) : ℕ :=
  match h : bytes[pos]? with
  | some b => if test b then advanceWhile bytes test (pos+1) else pos
  | none => pos
termination_by bytes.length-pos
decreasing_by
  have hlt := (List.getElem?_eq_some_iff.mp h).1
  omega

/-- A test of bytes that passes those of some characters and fails on the first
byte of the others. -/
structure Covers (test : UInt8 → Bool) (member : Char → Bool) : Prop where
  /-- It goes over members. -/
  goes : ∀ c, member c=true → ∀ b∈String.utf8EncodeChar c, test b=true
  /-- It stops at others. -/
  stops : ∀ c, member c=false → ∀ b rest, String.utf8EncodeChar c=b::rest → test b=false

section

variable {text : String} {pos : ℕ} {cs mid rest : List Char}

theorem at_zero (text : String) : At text 0 text.toList := ⟨[],rfl,rfl⟩

/-- The bytes from a position on are those of the characters there. -/
theorem At.drop_eq (h : At text pos cs) : (utf8 text).drop pos=bytesOf cs := by
  obtain ⟨front,happend,rfl⟩ := h
  rw [utf8_eq_bytesOf,happend,bytesOf_append,List.drop_left]

theorem At.length_eq (h : At text pos cs) : pos+(bytesOf cs).length=(utf8 text).length := by
  obtain ⟨front,happend,rfl⟩ := h
  rw [utf8_eq_bytesOf,happend,bytesOf_append,List.length_append]

theorem At.le_length (h : At text pos cs) : pos≤(utf8 text).length := by
  have hlength := h.length_eq
  omega

/-- The byte some steps behind a position. -/
theorem At.getElem? (h : At text pos cs) (i : ℕ) : (utf8 text)[pos+i]?=(bytesOf cs)[i]? := by
  rw [←h.drop_eq,List.getElem?_drop]

/-- Behind characters a position stands in front of the next ones. -/
theorem At.move (h : At text pos (mid++rest)) : At text (pos+(bytesOf mid).length) rest := by
  obtain ⟨front,happend,rfl⟩ := h
  refine ⟨front++mid,?_,?_⟩
  · rw [happend,List.append_assoc]
  · rw [bytesOf_append,List.length_append]

/-- The slice over characters is these characters. -/
theorem At.slice (h : At text pos (mid++rest)) :
    Utf8Slices.slice text pos (pos+(bytesOf mid).length)=some (String.ofList mid) := by
  obtain ⟨front,happend,rfl⟩ := h
  refine slice_eq_some_iff.mpr ⟨front,rest,?_,rfl,?_⟩
  · rw [String.toList_ofList,happend,List.append_assoc]
  · rw [String.toList_ofList]

/-- A loop over bytes moves over all of those that pass at once. -/
theorem advanceWhile_eq (bytes : Bytes) (test : UInt8 → Bool) (pos : ℕ) :
    advanceWhile bytes test pos=pos+((bytes.drop pos).takeWhile test).length := by
  rw [advanceWhile]
  split
  · rename_i b hb
    obtain ⟨hlt,hget⟩ := List.getElem?_eq_some_iff.mp hb
    rw [List.drop_eq_getElem_cons hlt,hget]
    split_ifs with htest
    · rw [advanceWhile_eq bytes test (pos+1),List.takeWhile_cons_of_pos htest,List.length_cons]
      omega
    · rw [List.takeWhile_cons_of_neg htest]
      rfl
  · rename_i hnone
    rw [List.drop_eq_nil_of_le (List.getElem?_eq_none_iff.mp hnone)]
    rfl
termination_by bytes.length-pos

/-- Bytes that pass the test are those of the members in front. -/
theorem Covers.takeWhile_bytesOf {test : UInt8 → Bool} {member : Char → Bool}
    (h : Covers test member) (cs : List Char) :
    (bytesOf cs).takeWhile test=bytesOf (cs.takeWhile member) := by
  induction cs with
  | nil => rfl
  | cons c cs ih =>
    rw [bytesOf_cons]
    cases hc : member c with
    | true =>
      rw [List.takeWhile_append_of_pos (h.goes c hc),List.takeWhile_cons_of_pos hc,bytesOf_cons,ih]
    | false =>
      obtain ⟨first,rest,hencoded⟩ := exists_encoded c
      have hfirst := h.stops c hc first rest hencoded.bytes
      rw [hencoded.bytes,List.cons_append,List.takeWhile_cons_of_neg (by rw [hfirst]; simp),
        List.takeWhile_cons_of_neg (by rw [hc]; simp)]
      rfl

/-- Such a loop ends in front of the first character that is no member. -/
theorem At.advanceWhile {test : UInt8 → Bool} {member : Char → Bool} (h : At text pos cs)
    (hcovers : Covers test member) :
    Utf8Slices.advanceWhile (utf8 text) test pos=pos+(bytesOf (cs.takeWhile member)).length ∧
      At text (Utf8Slices.advanceWhile (utf8 text) test pos) (cs.dropWhile member) := by
  have hadvance : Utf8Slices.advanceWhile (utf8 text) test pos=
      pos+(bytesOf (cs.takeWhile member)).length := by
    rw [advanceWhile_eq,h.drop_eq,hcovers.takeWhile_bytesOf]
  refine ⟨hadvance,?_⟩
  rw [hadvance]
  refine At.move ?_
  rw [List.takeWhile_append_dropWhile]
  exact h

end

end TokiSync.Utf8Slices
