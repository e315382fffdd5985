import Mathlib.Order.Defs.LinearOrder
import Mathlib.Data.List.Induction
import Mathlib.Order.Lattice
import Mathlib.Tactic.Ring

/-!
# Fixed-width machine words as linear orders and big-endian byte strings

Signed and unsigned words are compared through their integer readings, so
the order lemmas of the library apply to them. Big-endian encodings have a
fixed width and lose nothing below it. Nothing here mentions a program.
-/

namespace TokiSync.MachineWords

/-- A word type whose comparisons are those of an injective integer reading
is linearly ordered, keeping the comparison functions it already has. -/
abbrev orderOfReading {α : Type} [Ord α] [LE α] [LT α] [Max α] [Min α]
    [DecidableLE α] [DecidableLT α] [DecidableEq α] (value : α → ℤ)
    (hinj : ∀ a b, value a=value b → a=b)
    (hle : ∀ a b : α, a≤b ↔ value a≤value b) (hlt : ∀ a b : α, a<b ↔ value a<value b)
    (hmax : ∀ a b : α, max a b=if a≤b then b else a)
    (hmin : ∀ a b : α, min a b=if a≤b then a else b)
    (hcompare : ∀ a b : α, compare a b=compareOfLessAndEq a b) : LinearOrder α where
  le_refl a := (hle a a).mpr le_rfl
  le_trans a b c hab hbc := (hle a c).mpr (((hle a b).mp hab).trans ((hle b c).mp hbc))
  lt_iff_le_not_ge a b := by
    rw [hlt,hle,hle]
    omega
  le_antisymm a b hab hba := hinj a b (le_antisymm ((hle a b).mp hab) ((hle b a).mp hba))
  le_total a b := by
    rw [hle,hle]
    exact le_total _ _
  toDecidableLE := inferInstance
  toDecidableLT := inferInstance
  toDecidableEq := inferInstance
  max_def := hmax
  min_def := hmin
  toOrd := inferInstance
  compare_eq_compareOfLessAndEq := hcompare

instance instLinearOrderInt64 : LinearOrder Int64 :=
  orderOfReading Int64.toInt (fun _ _ => Int64.toInt_inj.mp)
    (fun _ _ => Int64.le_iff_toInt_le) (fun _ _ => Int64.lt_iff_toInt_lt)
    (fun _ _ => rfl) (fun _ _ => rfl) (fun _ _ => rfl)

instance instLinearOrderUInt8 : LinearOrder UInt8 :=
  orderOfReading (fun w => (w.toNat : ℤ)) (fun _ _ h => UInt8.toNat_inj.mp (by exact_mod_cast h))
    (fun _ _ => by rw [UInt8.le_iff_toNat_le]; omega)
    (fun _ _ => by rw [UInt8.lt_iff_toNat_lt]; omega) (fun _ _ => rfl) (fun _ _ => rfl) (fun _ _ => rfl)

instance instLinearOrderUInt16 : LinearOrder UInt16 :=
  orderOfReading (fun w => (w.toNat : ℤ)) (fun _ _ h => UInt16.toNat_inj.mp (by exact_mod_cast h))
    (fun _ _ => by rw [UInt16.le_iff_toNat_le]; omega)
    (fun _ _ => by rw [UInt16.lt_iff_toNat_lt]; omega) (fun _ _ => rfl) (fun _ _ => rfl) (fun _ _ => rfl)

instance instLinearOrderUInt32 : LinearOrder UInt32 :=
  orderOfReading (fun w => (w.toNat : ℤ)) (fun _ _ h => UInt32.toNat_inj.mp (by exact_mod_cast h))
    (fun _ _ => by rw [UInt32.le_iff_toNat_le]; omega)
    (fun _ _ => by rw [UInt32.lt_iff_toNat_lt]; omega) (fun _ _ => rfl) (fun _ _ => rfl) (fun _ _ => rfl)

instance instLinearOrderUInt64 : LinearOrder UInt64 :=
  orderOfReading (fun w => (w.toNat : ℤ)) (fun _ _ h => UInt64.toNat_inj.mp (by exact_mod_cast h))
    (fun _ _ => by rw [UInt64.le_iff_toNat_le]; omega)
    (fun _ _ => by rw [UInt64.lt_iff_toNat_lt]; omega) (fun _ _ => rfl) (fun _ _ => rfl) (fun _ _ => rfl)

/-- Base-256 digits of a natural number, most significant first, in exactly
the given number of bytes; higher digits are dropped. -/
def digits : ℕ → ℕ → List UInt8
  | 0,_ => []
  | width+1,n => digits width (n/256)++[UInt8.ofNat n]

/-- Natural value of a big-endian byte string. -/
def readDigits (bytes : List UInt8) : ℕ := bytes.foldl (fun acc byte => 256*acc+byte.toNat) 0

/-- Every encoding has exactly the requested width. -/
@[simp] theorem digits_length (width n : ℕ) : (digits width n).length=width := by
  induction width generalizing n with
  | zero => rfl
  | succ width ih => simp only [digits,List.length_append,ih,List.length_singleton]

/-- Appending one byte shifts the value by one base-256 digit. -/
theorem readDigits_concat (bytes : List UInt8) (byte : UInt8) :
    readDigits (bytes++[byte])=256*readDigits bytes+byte.toNat := by
  simp only [readDigits,List.foldl_append,List.foldl_cons,List.foldl_nil]

/-- Decoding an encoding returns the number modulo its width. -/
theorem readDigits_digits (width n : ℕ) : readDigits (digits width n)=n%256^width := by
  induction width generalizing n with
  | zero => simp only [digits,readDigits,List.foldl_nil,pow_zero,Nat.mod_one]
  | succ width ih =>
    have hbyte : (UInt8.ofNat n).toNat=n%256 := UInt8.toNat_ofNat'
    have hsplit : n%256^(width+1)=n%256+256*(n/256%256^width) := by
      rw [pow_succ,Nat.mul_comm (256^width) 256,Nat.mod_mul]
    rw [digits,readDigits_concat,ih,hbyte,hsplit]
    omega

/-- A byte string is the encoding of its value in its own width. -/
theorem digits_readDigits (bytes : List UInt8) : digits bytes.length (readDigits bytes)=bytes := by
  induction bytes using List.reverseRecOn with
  | nil => rfl
  | append_singleton bytes byte ih =>
    have hbyte := byte.toNat_lt
    have hquot : (256*readDigits bytes+byte.toNat)/256=readDigits bytes := by omega
    have hlast : UInt8.ofNat (256*readDigits bytes+byte.toNat)=byte := by
      refine UInt8.toNat_inj.mp ?_
      rw [UInt8.toNat_ofNat']
      omega
    rw [List.length_append,List.length_singleton,digits,readDigits_concat,hquot,ih,hlast]

/-- A byte string has a value below the bound of its width. -/
theorem readDigits_lt (bytes : List UInt8) : readDigits bytes<256^bytes.length := by
  induction bytes using List.reverseRecOn with
  | nil => exact Nat.one_pos
  | append_singleton bytes byte ih =>
    have hbyte := byte.toNat_lt
    rw [List.length_append,List.length_singleton,readDigits_concat,Nat.pow_succ]
    omega

/-- Big-endian bytes of a signed 64-bit word, two's complement. -/
def toBeBytes (word : Int64) : List UInt8 := digits 8 word.toBitVec.toNat

/-- Signed 64-bit word read from big-endian bytes. -/
def fromBeBytes (bytes : List UInt8) : Int64 := Int64.ofBitVec (BitVec.ofNat 64 (readDigits bytes))

@[simp] theorem toBeBytes_length (word : Int64) : (toBeBytes word).length=8 :=
  digits_length 8 _

/-- The eight bytes determine the word. -/
@[simp] theorem fromBeBytes_toBeBytes (word : Int64) : fromBeBytes (toBeBytes word)=word := by
  have hw : word.toBitVec.toNat<256^8 := word.toBitVec.isLt
  rw [fromBeBytes,toBeBytes,readDigits_digits,Nat.mod_eq_of_lt hw,BitVec.ofNat_toNat]
  simp only [BitVec.setWidth_eq,Int64.ofBitVec_toBitVec]

/-- Distinct words have distinct bytes. -/
theorem toBeBytes_injective {a b : Int64} (h : toBeBytes a=toBeBytes b) : a=b := by
  rw [←fromBeBytes_toBeBytes a,h,fromBeBytes_toBeBytes]

/-- Two strings that start with encoded words are equal only when both the
words and the remainders are. -/
theorem toBeBytes_append_inj {a b : Int64} {xs ys : List UInt8} :
    toBeBytes a++xs=toBeBytes b++ys ↔ a=b ∧ xs=ys := by
  constructor
  · intro h
    obtain ⟨hw,hr⟩ := List.append_inj h (by simp only [toBeBytes_length])
    exact ⟨toBeBytes_injective hw,hr⟩
  · rintro ⟨rfl,rfl⟩
    rfl

/-- The head of an encoded string is its word. -/
@[simp] theorem take_toBeBytes (word : Int64) (rest : List UInt8) :
    (toBeBytes word++rest).take 8=toBeBytes word :=
  List.take_left' (toBeBytes_length word)

/-- The tail of an encoded string is its remainder. -/
@[simp] theorem drop_toBeBytes (word : Int64) (rest : List UInt8) :
    (toBeBytes word++rest).drop 8=rest :=
  List.drop_left' (toBeBytes_length word)

end TokiSync.MachineWords
