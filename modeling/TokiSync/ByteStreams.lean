import TokiSync.ByteCodec

/-!
# Byte streams that arrive in chunks

A stream is the list of chunks that are still to come; the end of the list is
the end of the stream. A reader that has to fill a buffer takes chunks, or the
front of one, until the buffer is full. What it gets depends on the contents of
the stream only, and filling one buffer is filling its two parts. Nothing here
mentions a program.
-/

namespace TokiSync.ByteStreams

open MachineWords ByteKeys ByteCodec

/-- Bytes that arrive at once; none would be the end of the stream. -/
structure Chunk where
  /-- The bytes. -/
  bytes : Bytes
  /-- There are some. -/
  nonempty : bytes≠[]

/-- The bytes of a stream. -/
def contents (stream : List Chunk) : Bytes := stream.flatMap Chunk.bytes

/-- Fill a buffer of some bytes; nothing when the stream ends early. -/
def readExact : ℕ → List Chunk → Option (Bytes×List Chunk)
  | 0,stream => some ([],stream)
  | _+1,[] => none
  | n+1,chunk::stream =>
    if h : n+1<chunk.bytes.length then
      some (chunk.bytes.take (n+1),
        ⟨chunk.bytes.drop (n+1),fun hnil => h.not_ge (List.drop_eq_nil_iff.mp hnil)⟩::stream)
    else do
      let (got,left) ← readExact (n+1-chunk.bytes.length) stream
      pure (chunk.bytes++got,left)

variable {n : ℕ} {stream left : List Chunk} {got : Bytes}

theorem contents_cons (chunk : Chunk) (stream : List Chunk) :
    contents (chunk::stream)=chunk.bytes++contents stream := List.flatMap_cons

@[simp] theorem readExact_zero (stream : List Chunk) : readExact 0 stream=some ([],stream) := by
  cases stream <;> rw [readExact]

/-- A filled buffer has its size, and its bytes are the next ones of the
stream. -/
theorem readExact_eq_some (h : readExact n stream=some (got,left)) :
    got.length=n ∧ contents stream=got++contents left := by
  induction stream generalizing n got with
  | nil =>
    cases n with
    | zero =>
      rw [readExact_zero] at h
      cases h
      exact ⟨rfl,rfl⟩
    | succ n => cases h
  | cons chunk stream ih =>
    cases n with
    | zero =>
      rw [readExact_zero] at h
      cases h
      exact ⟨rfl,rfl⟩
    | succ n =>
      rw [readExact] at h
      split_ifs at h with hshort
      · cases h
        refine ⟨List.length_take_of_le hshort.le,?_⟩
        rw [contents_cons,contents_cons,←List.append_assoc,List.take_append_drop]
      · simp only [Option.bind_eq_bind,Option.bind_eq_some_iff] at h
        obtain ⟨⟨rest,left'⟩,hrest,hpure⟩ := h
        cases hpure
        obtain ⟨hlength,hcontents⟩ := ih hrest
        refine ⟨?_,?_⟩
        · rw [List.length_append,hlength]
          omega
        · rw [contents_cons,hcontents,List.append_assoc]

/-- A buffer cannot be filled exactly when the stream is too short. -/
theorem readExact_eq_none_iff : readExact n stream=none ↔ (contents stream).length<n := by
  induction stream generalizing n with
  | nil =>
    have hnil : (contents []).length=0 := rfl
    rw [hnil]
    cases n with
    | zero => exact iff_of_false (by rw [readExact_zero]; intro h; cases h) (Nat.lt_irrefl 0)
    | succ n => exact iff_of_true rfl (Nat.succ_pos n)
  | cons chunk stream ih =>
    rw [contents_cons,List.length_append]
    cases n with
    | zero => exact iff_of_false (by rw [readExact_zero]; intro h; cases h) (Nat.not_lt_zero _)
    | succ n =>
      rw [readExact]
      split_ifs with hshort
      · exact iff_of_false (by intro h; cases h) (by omega)
      · simp only [Option.bind_eq_bind,Option.bind_eq_none_iff]
        have hrest : (∀ a, readExact (n+1-chunk.bytes.length) stream=some a →
            (pure (chunk.bytes++a.1,a.2) : Option (Bytes×List Chunk))=none) ↔
              readExact (n+1-chunk.bytes.length) stream=none := by
          cases readExact (n+1-chunk.bytes.length) stream with
          | none => exact iff_of_true (fun a ha => by cases ha) rfl
          | some a => exact iff_of_false (fun h => by cases h a rfl) (by intro h; cases h)
        rw [hrest,ih]
        omega

/-- Filling a buffer is filling its front and then its back. -/
theorem readExact_add (m n : ℕ) (stream : List Chunk) : readExact (m+n) stream=
    (readExact m stream).bind fun front =>
      (readExact n front.2).map fun back => (front.1++back.1,back.2) := by
  induction stream generalizing m with
  | nil =>
    cases m with
    | zero => simp
    | succ m =>
      rw [Nat.add_right_comm]
      rfl
  | cons chunk stream ih =>
    cases m with
    | zero => simp
    | succ m =>
      rw [Nat.add_right_comm,readExact,readExact]
      by_cases hfront : m+1<chunk.bytes.length
      · rw [dif_pos hfront,Option.bind_some]
        cases n with
        | zero => simp [hfront]
        | succ n =>
          rw [readExact]
          simp only [List.length_drop]
          by_cases hboth : m+(n+1)+1<chunk.bytes.length
          · rw [dif_pos hboth,dif_pos (by omega),Option.map_some]
            simp only [List.drop_drop,Option.some.injEq,Prod.mk.injEq,List.cons.injEq,
              Chunk.mk.injEq,and_true]
            have hsum : m+(n+1)+1=m+1+(n+1) := by omega
            rw [hsum,List.take_add]
            exact ⟨rfl,rfl⟩
          · rw [dif_neg hboth,dif_neg (by omega)]
            have hsame : n+1-(chunk.bytes.length-(m+1))=m+(n+1)+1-chunk.bytes.length := by omega
            rw [hsame]
            cases readExact (m+(n+1)+1-chunk.bytes.length) stream with
            | none => rfl
            | some back =>
              simp only [Option.bind_eq_bind,Option.bind_some,Option.pure_def,Option.map_some,
                ←List.append_assoc,List.take_append_drop]
      · have hsum : m+n+1-chunk.bytes.length=m+1-chunk.bytes.length+n := by omega
        rw [dif_neg hfront,dif_neg (by omega),hsum,ih]
        cases readExact (m+1-chunk.bytes.length) stream with
        | none => rfl
        | some front =>
          simp only [Option.bind_eq_bind,Option.bind_some,Option.pure_def]
          cases readExact n front.2 with
          | none => rfl
          | some back =>
            simp only [Option.map_some,Option.bind_some,List.append_assoc]

end TokiSync.ByteStreams
