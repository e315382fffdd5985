import TokiSync.MachineWords
import TokiSync.ByteKeys

/-!
# Value codecs and self-delimiting byte layouts

A codec turns values into bytes and back. A layout additionally knows where
its value ends, so layouts compose field by field into the layout of a
record. The primitive layouts are little-endian words and length-prefixed
UTF-8 text.
-/

namespace TokiSync.ByteCodec

open MachineWords ByteKeys

/-- A serializer with a parser that recovers every serialized value. -/
structure Codec (α : Type) where
  /-- Bytes of a value. -/
  serialize : α → Bytes
  /-- Value of a byte string, absent when the bytes are not one. -/
  deserialize : Bytes → Option α
  /-- Serialized values are recovered. -/
  deserialize_serialize : ∀ a, deserialize (serialize a)=some a

attribute [simp] Codec.deserialize_serialize

/-- Serialization determines the value. -/
@[simp] theorem Codec.serialize_inj {α : Type} (codec : Codec α) {a b : α} :
    codec.serialize a=codec.serialize b ↔ a=b := by
  constructor
  · intro h
    have hd := congrArg codec.deserialize h
    simpa only [codec.deserialize_serialize,Option.some.injEq] using hd
  · rintro rfl
    rfl

/-- A serializer whose parser also returns the bytes after the value. -/
structure Layout (α : Type) where
  /-- Bytes of a value. -/
  write : α → Bytes
  /-- Leading value of a byte string and the bytes behind it. -/
  read : Bytes → Option (α×Bytes)
  /-- A written value is read back, whatever follows it. -/
  read_write : ∀ a rest, read (write a++rest)=some (a,rest)

/-- A layout reads a whole value; bytes behind it are ignored. -/
def Layout.codec {α : Type} (layout : Layout α) : Codec α where
  serialize := layout.write
  deserialize bytes := (layout.read bytes).map Prod.fst
  deserialize_serialize a := by
    have h := layout.read_write a []
    rw [List.append_nil] at h
    rw [h]
    rfl

/-- Two values in sequence. -/
def Layout.pair {α β : Type} (first : Layout α) (second : Layout β) : Layout (α×β) where
  write value := first.write value.1++second.write value.2
  read bytes := do
    let (a,rest) ← first.read bytes
    let (b,rest) ← second.read rest
    return ((a,b),rest)
  read_write value rest := by
    simp only [List.append_assoc,first.read_write,Option.bind_eq_bind,Option.bind_some,
      second.read_write]
    rfl

/-- The same bytes read as another type that carries the same data. -/
def Layout.equiv {α β : Type} (layout : Layout α) (e : β ≃ α) : Layout β where
  write value := layout.write (e value)
  read bytes := (layout.read bytes).map fun out => (e.symm out.1,out.2)
  read_write value rest := by
    rw [layout.read_write]
    simp only [Option.map_some,Equiv.symm_apply_apply]

/-- A natural number in a fixed number of little-endian bytes, when it fits. -/
def wordBytes (width n : ℕ) : Bytes := (digits width n).reverse

/-- A fixed-width little-endian number and the bytes behind it. -/
def readWord (width : ℕ) (bytes : Bytes) : Option (ℕ×Bytes) :=
  if bytes.length<width then none
  else some (readDigits (bytes.take width).reverse,bytes.drop width)

/-- Numbers below the width's bound are read back. -/
theorem readWord_wordBytes {width n : ℕ} (h : n<256^width) (rest : Bytes) :
    readWord width (wordBytes width n++rest)=some (n,rest) := by
  have hl : (wordBytes width n).length=width := by
    simp only [wordBytes,List.length_reverse,digits_length]
  have hnot : ¬(wordBytes width n++rest).length<width := by
    rw [List.length_append,hl]
    omega
  rw [readWord,if_neg hnot,List.take_left' hl,List.drop_left' hl,wordBytes,List.reverse_reverse,
    readDigits_digits,Nat.mod_eq_of_lt h]

@[simp] theorem wordBytes_length (width n : ℕ) : (wordBytes width n).length=width := by
  rw [wordBytes,List.length_reverse,digits_length]

/-- Little-endian bytes are those of their value. -/
theorem wordBytes_readDigits {width : ℕ} {bytes : Bytes} (h : bytes.length=width) :
    wordBytes width (readDigits bytes.reverse)=bytes := by
  have hdigits := digits_readDigits bytes.reverse
  rw [List.length_reverse,h] at hdigits
  rw [wordBytes,hdigits,List.reverse_reverse]

/-- Unsigned 64-bit word, little-endian. -/
def u64Layout : Layout UInt64 where
  write word := wordBytes 8 word.toNat
  read bytes := (readWord 8 bytes).map fun out => (UInt64.ofNat out.1,out.2)
  read_write word rest := by
    rw [readWord_wordBytes word.toNat_lt]
    simp only [Option.map_some,UInt64.ofNat_toNat]

/-- Unsigned 32-bit word, little-endian. -/
def u32Layout : Layout UInt32 where
  write word := wordBytes 4 word.toNat
  read bytes := (readWord 4 bytes).map fun out => (UInt32.ofNat out.1,out.2)
  read_write word rest := by
    rw [readWord_wordBytes word.toNat_lt]
    simp only [Option.map_some,UInt32.ofNat_toNat]

/-- Unsigned 16-bit word, little-endian. -/
def u16Layout : Layout UInt16 where
  write word := wordBytes 2 word.toNat
  read bytes := (readWord 2 bytes).map fun out => (UInt16.ofNat out.1,out.2)
  read_write word rest := by
    rw [readWord_wordBytes word.toNat_lt]
    simp only [Option.map_some,UInt16.ofNat_toNat]

/-- One byte. -/
def u8Layout : Layout UInt8 where
  write byte := [byte]
  read
    | [] => none
    | byte::rest => some (byte,rest)
  read_write _ _ := rfl

/-- A flag as one byte, zero or one. -/
def boolLayout : Layout Bool where
  write flag := [if flag then 1 else 0]
  read
    | [] => none
    | byte::rest => if byte=0 then some (false,rest) else if byte=1 then some (true,rest) else none
  read_write flag rest := by
    cases flag with
    | false => rfl
    | true => rfl

/-- Signed 64-bit word, little-endian two's complement. -/
def i64Layout : Layout Int64 :=
  u64Layout.equiv ⟨Int64.toUInt64,UInt64.toInt64,fun _ => rfl,fun _ => rfl⟩

/-- A length: one 64-bit word when it fits below the all-ones word, which
instead announces a unary length. -/
def lengthLayout : Layout ℕ where
  write n := if n<2^64-1 then wordBytes 8 n
    else wordBytes 8 (2^64-1)++List.replicate n 1++[0]
  read bytes := do
    let (n,rest) ← readWord 8 bytes
    if n<2^64-1 then return (n,rest)
    return ((rest.takeWhile (·=1)).length,(rest.dropWhile (·=1)).drop 1)
  read_write n rest := by
    by_cases h : n<2^64-1
    · rw [if_pos h,readWord_wordBytes (by omega)]
      simp only [Option.bind_eq_bind,Option.bind_some,if_pos h]
      rfl
    · have hone : ∀ m, (List.replicate m 1++0::rest : Bytes).takeWhile (·=1)=List.replicate m 1 ∧
          (List.replicate m 1++0::rest : Bytes).dropWhile (·=1)=0::rest := by
        intro m
        induction m with
        | zero => exact ⟨rfl,rfl⟩
        | succ m ih => simpa only [List.replicate_succ,List.cons_append,decide_true,
            List.takeWhile_cons_of_pos,List.cons.injEq,true_and,List.dropWhile_cons_of_pos] using ih
      rw [if_neg h,List.append_assoc,List.append_assoc,readWord_wordBytes (by omega)]
      simp only [Option.bind_eq_bind,Option.bind_some,lt_self_iff_false,if_false,
        List.singleton_append,(hone n).1,(hone n).2,List.length_replicate,List.drop_succ_cons,
        List.drop_zero]
      rfl

/-- Text as its byte length followed by its UTF-8 bytes. -/
def textLayout : Layout String where
  write text := lengthLayout.write (utf8 text).length++utf8 text
  read bytes := do
    let (n,rest) ← lengthLayout.read bytes
    let text ← String.fromUTF8? ⟨(rest.take n).toArray⟩
    return (text,rest.drop n)
  read_write text rest := by
    rw [List.append_assoc,lengthLayout.read_write]
    simp only [Option.bind_eq_bind,Option.bind_some,List.take_left',List.drop_left',
      fromUTF8_utf8]
    rfl

end TokiSync.ByteCodec
