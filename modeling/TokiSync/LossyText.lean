import TokiSync.ByteKeys

/-!
# Lossy reading of UTF-8

Text is read from bytes one character after another. Bytes no character
starts with become replacement characters, one for each longest run that a
character could have begun with. The bytes of a text are read back unchanged.
-/

namespace TokiSync.LossyText

open ByteKeys

/-- Bytes that continue a character. -/
def isContinuation (byte : UInt8) : Bool := 0x80≤byte && byte≤0xBF

/-- Second bytes of the characters of three and of four bytes. -/
def secondOk (first second : UInt8) : Bool :=
  if first=0xE0 then 0xA0≤ second && second≤0xBF
  else if first=0xED then 0x80≤ second && second≤0x9F
  else if first=0xF0 then 0x90≤ second && second≤0xBF
  else if first=0xF4 then 0x80≤ second && second≤0x8F
  else 0xE1≤first && first≤0xF3 && isContinuation second

/-- Length of the longest beginning of a character at the head of bytes that
start no character. -/
def invalidLength : Bytes → ℕ
  | first::second::third::_ =>
    if secondOk first second then if 0xF0≤first && isContinuation third then 3 else 2 else 1
  | [first,second] => if secondOk first second then 2 else 1
  | _ => 1

/-- Character at the head of the bytes, when there is one. -/
def headChar (bytes : Bytes) : Option Char := bytes.toByteArray.utf8DecodeChar? 0

/-- Characters read from bytes of at most the given length. -/
def lossyChars : ℕ → Bytes → List Char
  | 0,_ => []
  | _+1,[] => []
  | fuel+1,byte::rest =>
    match headChar (byte::rest) with
    | some c => c::lossyChars fuel ((byte::rest).drop c.utf8Size)
    | none =>
      Char.ofNat 0xFFFD::lossyChars fuel ((byte::rest).drop (invalidLength (byte::rest)))

/-- Text read from bytes. -/
def fromUtf8Lossy (bytes : Bytes) : String := String.ofList (lossyChars bytes.length bytes)

/-- The first character of a text is read first. -/
theorem headChar_append (c : Char) (rest : Bytes) :
    headChar (String.utf8EncodeChar c++rest)=some c := by
  rw [headChar,List.toByteArray_append,ByteArray.utf8DecodeChar?_utf8EncodeChar_append]

/-- Characters are read from their bytes. -/
theorem lossyChars_flatMap {fuel : ℕ} {chars : List Char}
    (h : (chars.flatMap String.utf8EncodeChar).length≤fuel) :
    lossyChars fuel (chars.flatMap String.utf8EncodeChar)=chars := by
  induction chars generalizing fuel with
  | nil =>
    cases fuel with
    | zero => rfl
    | succ fuel => rfl
  | cons c chars ih =>
    have hsize : (String.utf8EncodeChar c).length=c.utf8Size := String.length_utf8EncodeChar c
    have hpos : 0<c.utf8Size := c.utf8Size_pos
    have hhead := headChar_append c (chars.flatMap String.utf8EncodeChar)
    have hdrop : (String.utf8EncodeChar c++chars.flatMap String.utf8EncodeChar).drop c.utf8Size=
        chars.flatMap String.utf8EncodeChar := by
      rw [←hsize,List.drop_left]
    rw [List.flatMap_cons,List.length_append,hsize] at h
    rw [List.flatMap_cons]
    cases fuel with
    | zero => omega
    | succ fuel =>
      cases hbytes : String.utf8EncodeChar c++chars.flatMap String.utf8EncodeChar with
      | nil =>
        have hlength := congrArg List.length hbytes
        rw [List.length_append,hsize,List.length_nil] at hlength
        omega
      | cons byte rest =>
        rw [hbytes] at hhead hdrop
        rw [lossyChars,hhead]
        dsimp only
        rw [hdrop,ih (by omega)]

/-- A text is read from its bytes. -/
@[simp] theorem fromUtf8Lossy_utf8 (text : String) : fromUtf8Lossy (utf8 text)=text := by
  rw [fromUtf8Lossy,utf8_eq_flatMap,lossyChars_flatMap le_rfl,String.ofList_toList]

example : fromUtf8Lossy [0x61,0xE2,0x82,0x62,0xED,0xA0]=
    String.ofList ['a',Char.ofNat 0xFFFD,'b',Char.ofNat 0xFFFD,Char.ofNat 0xFFFD] := by
  decide +kernel

end TokiSync.LossyText
