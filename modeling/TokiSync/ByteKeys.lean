import Mathlib.Data.List.Basic
import Mathlib.Data.List.TakeWhile
import Mathlib.Tactic.SplitIfs

/-!
# Keys joined from components

Components are joined into a key by a mark. A component that does not contain
the mark can be read back from the front of the key, so such keys are equal
only when their components are. Keys of an ordered byte map have a zero byte
for the mark, and text enters them as its UTF-8 bytes, which determine it; keys
of a map by texts have one character.
-/

namespace TokiSync.ByteKeys

section

variable {α : Type} [DecidableEq α] {mark : α} {a b xs ys : List α}

/-- What stands before the first mark is read back. -/
theorem takeWhile_before (h : mark∉a) (rest : List α) :
    (a++mark::rest).takeWhile (· ≠ mark)=a := by
  rw [List.takeWhile_append_of_pos]
  · rw [List.takeWhile_cons_of_neg (by simp),List.append_nil]
  · intro x hx
    rw [decide_eq_true_eq]
    rintro rfl
    exact h hx

/-- Keys whose first components do not have the mark split uniquely. -/
theorem marked_inj (ha : mark∉a) (hb : mark∉b) : a++mark::xs=b++mark::ys ↔ a=b ∧ xs=ys := by
  constructor
  · intro h
    have hfronts : a=b := by
      rw [← takeWhile_before ha xs,h,takeWhile_before hb]
    rw [hfronts,List.append_cancel_left_eq,List.cons.injEq] at h
    exact ⟨hfronts,h.2⟩
  · rintro ⟨rfl,rfl⟩
    rfl

end

/-- Texts joined by a mark that the first ones do not have split again. -/
theorem joined_inj {mark : String} {c : Char} (hmark : mark.toList=[c]) {a b xs ys : String}
    (ha : c∉a.toList) (hb : c∉b.toList) (h : a++mark++xs=b++mark++ys) : a=b ∧ xs=ys := by
  have hlists := congrArg String.toList h
  simp only [String.toList_append,hmark,List.append_assoc,List.singleton_append] at hlists
  obtain ⟨hfronts,hrests⟩ := (marked_inj ha hb).mp hlists
  exact ⟨String.toList_inj.mp hfronts,String.toList_inj.mp hrests⟩

/-- Raw key and value bytes. -/
abbrev Bytes := List UInt8

/-- UTF-8 bytes of a text. -/
def utf8 (text : String) : Bytes := text.toByteArray.data.toList

/-- Texts with the same bytes are equal. -/
theorem utf8_injective {a b : String} (h : utf8 a=utf8 b) : a=b := by
  apply String.toByteArray_inj.mp
  apply ByteArray.ext
  exact Array.toList_inj.mp h

@[simp] theorem utf8_inj {a b : String} : utf8 a=utf8 b ↔ a=b :=
  ⟨utf8_injective,fun h => by rw [h]⟩

/-- A text is read back from its bytes. -/
theorem fromUTF8_utf8 (text : String) : String.fromUTF8? ⟨(utf8 text).toArray⟩=some text := by
  have hbytes : (⟨(utf8 text).toArray⟩ : ByteArray)=text.toByteArray := rfl
  rw [hbytes,String.fromUTF8?,dif_pos text.isValidUTF8]
  rfl

/-- The bytes of a text are those of its characters. -/
theorem utf8_eq_flatMap (text : String) : utf8 text=text.toList.flatMap String.utf8EncodeChar := by
  have h : text.toByteArray=text.toList.utf8Encode := String.utf8Encode_toList.symm
  rw [utf8,h,List.utf8Encode]
  simp

/-- Only the NUL character has a zero byte. -/
theorem zero_notMem_utf8EncodeChar {c : Char} (h : c.toNat≠0) : 0∉String.utf8EncodeChar c := by
  intro hmem
  have hnat : ∃ b∈String.utf8EncodeChar c, b.toNat=0 := ⟨0,hmem,rfl⟩
  obtain ⟨b,hb,hzero⟩ := hnat
  have hpos : c.val.toNat≠0 := h
  unfold String.utf8EncodeChar at hb
  dsimp only at hb
  split_ifs at hb <;> simp only [List.mem_cons,List.not_mem_nil,or_false] at hb <;>
    rcases hb with rfl | rfl | rfl | rfl <;> rw [UInt8.toNat_ofNat'] at hzero <;> omega

/-- Bytes that contain no delimiter. -/
def NulFree (bytes : Bytes) : Prop := 0∉bytes

instance (bytes : Bytes) : Decidable (NulFree bytes) :=
  inferInstanceAs (Decidable (¬0∈bytes))

/-- Texts without NUL characters have delimiter-free bytes. -/
theorem nulFree_utf8 {text : String} (h : ∀ c∈text.toList, c.toNat≠0) : NulFree (utf8 text) := by
  intro hmem
  rw [utf8_eq_flatMap] at hmem
  obtain ⟨c,hc,hzero⟩ := List.mem_flatMap.mp hmem
  exact zero_notMem_utf8EncodeChar (h c hc) hzero

/-- A delimited component, the delimiter included. -/
def delimited (bytes : Bytes) : Bytes := bytes++[0]

/-- Delimited keys with delimiter-free first components split uniquely. -/
theorem delimited_append_inj {a b xs ys : Bytes} (ha : NulFree a) (hb : NulFree b) :
    delimited a++xs=delimited b++ys ↔ a=b ∧ xs=ys := by
  simp only [delimited,List.append_assoc,List.singleton_append]
  exact marked_inj ha hb

/-- A delimited component is a prefix of another key exactly when it is that
key's own first component. -/
theorem delimited_prefix_iff {a b ys : Bytes} (ha : NulFree a) (hb : NulFree b) :
    delimited a<+:delimited b++ys ↔ a=b := by
  constructor
  · rintro ⟨rest,h⟩
    exact ((delimited_append_inj ha hb).mp h).1
  · rintro rfl
    exact List.prefix_append _ _

end TokiSync.ByteKeys
