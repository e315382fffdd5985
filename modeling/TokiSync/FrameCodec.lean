import TokiSync.ByteStreams

/-!
# Frames on a connection

A frame is a message type and a payload length, both little-endian words, and
the payload. The reader fills its payload buffer in steps of at most 64 KiB and
refuses lengths above its limit before it reads on. The message types and the
largest payload come from the shared protocol.
-/

namespace TokiSync.FrameCodec

open MachineWords ByteKeys ByteCodec ByteStreams

/-- Kinds of errors. -/
inductive ErrorKind where
  | invalidInput | invalidData | unexpectedEof
  deriving DecidableEq

/-- An error of reading or writing. -/
structure IoError where
  /-- Its kind. -/
  kind : ErrorKind
  /-- Its text. -/
  message : String
  deriving DecidableEq

/-- The stream ends before a buffer is full. -/
def earlyEof : IoError := ⟨.unexpectedEof,"early eof"⟩

/-- Little-endian bytes of a word. -/
def toLeBytes (word : UInt32) : Bytes := u32Layout.write word

/-- The word of four little-endian bytes. -/
def fromLeBytes (bytes : Bytes) : UInt32 := UInt32.ofNat (readDigits bytes.reverse)

/-- Most bytes the reader asks for at once. -/
def chunkSize : ℕ := 64*1024

/-- Read the rest of a payload behind the part that is there. -/
def readPayload (remaining : ℕ) (payload : Bytes) (stream : List Chunk) :
    Except IoError (Bytes×List Chunk) :=
  if remaining=0 then .ok (payload,stream)
  else
    let take := min remaining chunkSize
    let start := payload.length
    let resized := payload++List.replicate take 0
    match readExact (resized.length-start) stream with
    | none => .error earlyEof
    | some (got,left) => readPayload (remaining-take) (resized.take start++got) left
termination_by remaining
decreasing_by
  rename_i hpos
  have hchunk : 0 < min remaining chunkSize := lt_min (Nat.pos_of_ne_zero hpos) (by decide)
  omega

section

variable {MsgType : Type} (toU32 : MsgType → UInt32) (fromU32 : UInt32 → Option MsgType)
variable (maxPayloadSize : UInt32)

/-- The bytes of a frame. -/
def writeFrame (msgType : MsgType) (payload : Bytes) : Except IoError Bytes :=
  if payload.length>maxPayloadSize.toNat then
    .error ⟨.invalidInput,"payload too large: "++toString payload.length++" bytes (max "++
      toString maxPayloadSize++")"⟩
  else .ok (toLeBytes (toU32 msgType)++toLeBytes (UInt32.ofNat payload.length)++payload)

/-- Read a frame with a payload up to a limit. -/
def readFrameInner (maxPayload : UInt32) (stream : List Chunk) :
    Except IoError ((MsgType×Bytes)×List Chunk) :=
  match readExact 8 stream with
  | none => .error earlyEof
  | some (header,stream) =>
    let typeU32 := fromLeBytes (header.take 4)
    let len := fromLeBytes (header.drop 4)
    match fromU32 typeU32 with
    | none => .error ⟨.invalidData,"unknown msg_type: "++toString typeU32⟩
    | some msgType =>
      if len>maxPayload then
        .error ⟨.invalidData,"payload too large: "++toString len++" bytes (max "++
          toString maxPayload++")"⟩
      else do
        let (payload,left) ← readPayload len.toNat [] stream
        pure ((msgType,payload),left)

/-- Read a frame with a payload up to a limit of the caller. -/
def readFrameLimited (maxPayload : UInt32) (stream : List Chunk) :
    Except IoError ((MsgType×Bytes)×List Chunk) :=
  readFrameInner fromU32 (min maxPayload maxPayloadSize) stream

/-- Read a frame. -/
def readFrame (stream : List Chunk) : Except IoError ((MsgType×Bytes)×List Chunk) :=
  readFrameInner fromU32 maxPayloadSize stream

/-- Frames are read one after the other. -/
inductive Reads : List Chunk → List (MsgType×Bytes) → List Chunk → Prop where
  | done (stream : List Chunk) : Reads stream [] stream
  | next {stream mid left : List Chunk} {frame : MsgType×Bytes} {frames : List (MsgType×Bytes)}
      (hread : readFrame fromU32 maxPayloadSize stream=.ok (frame,mid))
      (hrest : Reads mid frames left) : Reads stream (frame::frames) left

end

@[simp] theorem toLeBytes_length (word : UInt32) : (toLeBytes word).length=4 :=
  wordBytes_length 4 word.toNat

/-- A word is read back from its bytes. -/
@[simp] theorem fromLeBytes_toLeBytes (word : UInt32) : fromLeBytes (toLeBytes word)=word := by
  have hfits : word.toNat<256^4 := word.toNat_lt
  have hbytes : toLeBytes word=wordBytes 4 word.toNat := rfl
  rw [fromLeBytes,hbytes,wordBytes,List.reverse_reverse,readDigits_digits,Nat.mod_eq_of_lt hfits,
    UInt32.ofNat_toNat]

/-- Four bytes are those of their word. -/
theorem toLeBytes_fromLeBytes {bytes : Bytes} (h : bytes.length=4) :
    toLeBytes (fromLeBytes bytes)=bytes := by
  have hlt := readDigits_lt bytes.reverse
  rw [List.length_reverse,h] at hlt
  have hword : (UInt32.ofNat (readDigits bytes.reverse)).toNat=readDigits bytes.reverse := by
    rw [UInt32.toNat_ofNat']
    exact Nat.mod_eq_of_lt hlt
  have hbytes : ∀ word, toLeBytes word=wordBytes 4 word.toNat := fun _ => rfl
  rw [hbytes,fromLeBytes,hword,wordBytes_readDigits h]

/-- Reading a payload in steps is filling one buffer. The induction is on what
remains. -/
theorem readPayload_eq (remaining : ℕ) (payload : Bytes) (stream : List Chunk) :
    readPayload remaining payload stream=
      (readExact remaining stream).elim (.error earlyEof) fun got =>
        .ok (payload++got.1,got.2) := by
  induction remaining using Nat.strong_induction_on generalizing payload stream with
  | h remaining ih =>
    rw [readPayload]
    split_ifs with hzero
    · rw [hzero,readExact_zero,Option.elim_some,List.append_nil]
    · have hchunk : 0 < min remaining chunkSize := lt_min (Nat.pos_of_ne_zero hzero) (by decide)
      have hsize : (payload++List.replicate (min remaining chunkSize) (0 : UInt8)).length-
          payload.length=min remaining chunkSize := by
        rw [List.length_append,List.length_replicate,Nat.add_sub_cancel_left]
      have hsplit := readExact_add (min remaining chunkSize)
        (remaining-min remaining chunkSize) stream
      rw [Nat.add_sub_cancel' (min_le_left _ _)] at hsplit
      dsimp only
      rw [hsize,hsplit]
      cases readExact (min remaining chunkSize) stream with
      | none => rfl
      | some front =>
        dsimp only [Option.bind_some]
        rw [ih _ (by omega),List.take_left' rfl]
        cases readExact (remaining-min remaining chunkSize) front.2 with
        | none => rfl
        | some back =>
          dsimp only [Option.map_some,Option.elim_some]
          rw [List.append_assoc]

section

variable {MsgType : Type} {toU32 : MsgType → UInt32} {fromU32 : UInt32 → Option MsgType}
variable {maxPayloadSize : UInt32} {msgType : MsgType} {payload out : Bytes}
variable {stream left : List Chunk}

/-- What is written is a header and the payload. -/
theorem writeFrame_eq_ok_iff : writeFrame toU32 maxPayloadSize msgType payload=.ok out ↔
    payload.length≤ maxPayloadSize.toNat ∧
      out=toLeBytes (toU32 msgType)++toLeBytes (UInt32.ofNat payload.length)++payload := by
  unfold writeFrame
  constructor
  · intro h
    split_ifs at h with hlarge
    injection h with hout
    exact ⟨not_lt.mp hlarge,hout.symm⟩
  · rintro ⟨hfits,rfl⟩
    rw [if_neg (not_lt.mpr hfits)]

/-- Header and payload of a stream, when they are all there. -/
structure Framed (stream : List Chunk) (typeU32 len : UInt32) (payload : Bytes)
    (left : List Chunk) : Prop where
  /-- The payload has the declared length. -/
  length : payload.length=len.toNat
  /-- The stream begins with the frame. -/
  bytes : contents stream=toLeBytes typeU32++toLeBytes len++payload++contents left

/-- What reading a frame succeeds with. -/
theorem framed_of_read {maxPayload : UInt32}
    (h : readFrameInner fromU32 maxPayload stream=.ok ((msgType,payload),left)) :
    ∃ typeU32 len, fromU32 typeU32=some msgType ∧ len ≤ maxPayload ∧
      Framed stream typeU32 len payload left := by
  unfold readFrameInner at h
  cases hheader : readExact 8 stream with
  | none =>
    rw [hheader] at h
    cases h
  | some read =>
    obtain ⟨header,rest⟩ := read
    obtain ⟨hlength,hcontents⟩ := readExact_eq_some hheader
    rw [hheader] at h
    dsimp only at h
    cases htype : fromU32 (fromLeBytes (header.take 4)) with
    | none =>
      rw [htype] at h
      cases h
    | some found =>
      rw [htype] at h
      dsimp only at h
      split_ifs at h with hlarge
      rw [readPayload_eq] at h
      cases hpayload : readExact (fromLeBytes (header.drop 4)).toNat rest with
      | none =>
        rw [hpayload] at h
        cases h
      | some got =>
        obtain ⟨body,after⟩ := got
        obtain ⟨hbody,hrest⟩ := readExact_eq_some hpayload
        rw [hpayload] at h
        cases h
        refine ⟨_,_,htype,not_lt.mp hlarge,hbody,?_⟩
        rw [toLeBytes_fromLeBytes (by rw [List.length_take,hlength]; rfl),
          toLeBytes_fromLeBytes (by rw [List.length_drop,hlength]),List.take_append_drop,
          List.nil_append,hcontents,hrest,List.append_assoc]

/-- A stream that begins with a header has it read first. -/
theorem readFrameInner_of_header {maxPayload typeU32 len : UInt32} {rest : Bytes}
    (h : contents stream=toLeBytes typeU32++toLeBytes len++rest) :
    ∃ after, contents after=rest ∧ readFrameInner fromU32 maxPayload stream=
      match fromU32 typeU32 with
      | none => .error ⟨.invalidData,"unknown msg_type: "++toString typeU32⟩
      | some msgType =>
        if len>maxPayload then
          .error ⟨.invalidData,"payload too large: "++toString len++" bytes (max "++
            toString maxPayload++")"⟩
        else
          (readExact len.toNat after).elim (.error earlyEof) fun got =>
            .ok ((msgType,got.1),got.2) := by
  cases hheader : readExact 8 stream with
  | none =>
    have hshort := readExact_eq_none_iff.mp hheader
    rw [h,List.length_append,List.length_append,toLeBytes_length,toLeBytes_length] at hshort
    omega
  | some read =>
    obtain ⟨header,after⟩ := read
    obtain ⟨hlength,hcontents⟩ := readExact_eq_some hheader
    rw [h] at hcontents
    obtain ⟨hhead,hafter⟩ := List.append_inj hcontents (by
      rw [List.length_append,toLeBytes_length,toLeBytes_length,hlength])
    refine ⟨after,hafter.symm,?_⟩
    rw [readFrameInner,hheader]
    dsimp only
    rw [←hhead,List.take_left' (toLeBytes_length _),List.drop_left' (toLeBytes_length _),
      fromLeBytes_toLeBytes,fromLeBytes_toLeBytes,readPayload_eq]
    cases fromU32 typeU32 with
    | none => rfl
    | some found =>
      dsimp only
      split_ifs
      · rfl
      · cases readExact len.toNat after with
        | none => rfl
        | some got => rfl

/-- A written frame at the front of a stream is read. -/
theorem readFrame_of_written (hinverse : ∀ x m, fromU32 x=some m ↔ toU32 m=x)
    (hwritten : writeFrame toU32 maxPayloadSize msgType payload=.ok out) {rest : Bytes}
    (h : contents stream=out++rest) :
    ∃ after, contents after=rest ∧
      readFrame fromU32 maxPayloadSize stream=.ok ((msgType,payload),after) := by
  obtain ⟨hfits,rfl⟩ := writeFrame_eq_ok_iff.mp hwritten
  have hmax := maxPayloadSize.toNat_lt
  have hlen : (UInt32.ofNat payload.length).toNat=payload.length := by
    rw [UInt32.toNat_ofNat']
    exact Nat.mod_eq_of_lt (by omega)
  rw [List.append_assoc] at h
  obtain ⟨mid,hmid,hread⟩ :=
    @readFrameInner_of_header MsgType fromU32 stream maxPayloadSize _ _ _ h
  have hnot : ¬UInt32.ofNat payload.length>maxPayloadSize := by
    rw [gt_iff_lt,UInt32.lt_iff_toNat_lt,hlen]
    omega
  rw [(hinverse _ _).mpr rfl] at hread
  dsimp only at hread
  rw [if_neg hnot,hlen] at hread
  cases hpayload : readExact payload.length mid with
  | none =>
    have hshort := readExact_eq_none_iff.mp hpayload
    rw [hmid,List.length_append] at hshort
    omega
  | some got =>
    obtain ⟨body,after⟩ := got
    obtain ⟨hbody,hcontents⟩ := readExact_eq_some hpayload
    rw [hmid] at hcontents
    obtain ⟨hsame,hafter⟩ := List.append_inj hcontents hbody.symm
    rw [hpayload,Option.elim_some,←hsame] at hread
    exact ⟨after,hafter.symm,hread⟩

/-- The frames that were written are read, whatever the chunks. The induction is
on the frames. -/
theorem reads_of_written (hinverse : ∀ x m, fromU32 x=some m ↔ toU32 m=x)
    {frames : List (MsgType×Bytes)} {outs : List Bytes}
    (hwritten : List.Forall₂ (fun frame out =>
      writeFrame toU32 maxPayloadSize frame.1 frame.2=.ok out) frames outs)
    (h : contents stream=outs.flatten) : ∃ left, contents left=[] ∧
      Reads fromU32 maxPayloadSize stream frames left := by
  induction hwritten generalizing stream with
  | nil => exact ⟨stream,h,.done stream⟩
  | cons hfirst _ ih =>
    rw [List.flatten_cons] at h
    obtain ⟨mid,hmid,hread⟩ := readFrame_of_written hinverse hfirst h
    obtain ⟨left,hleft,hreads⟩ := ih hmid
    exact ⟨left,hleft,.next hread hreads⟩

/-- A stream that ends inside a header or a payload gives no frame. -/
theorem readFrameInner_of_short {maxPayload : UInt32}
    (h : (contents stream).length<8 ∨ ∃ typeU32 len rest,
      contents stream=toLeBytes typeU32++toLeBytes len++rest ∧ rest.length<len.toNat) :
    ∃ reason, readFrameInner fromU32 maxPayload stream=.error reason := by
  rcases h with hshort | ⟨typeU32,len,rest,hcontents,hshort⟩
  · rw [readFrameInner,readExact_eq_none_iff.mpr hshort]
    exact ⟨_,rfl⟩
  · obtain ⟨after,hafter,hread⟩ :=
      @readFrameInner_of_header MsgType fromU32 stream maxPayload _ _ _ hcontents
    have hnone : readExact len.toNat after=none := by
      rw [readExact_eq_none_iff,hafter]
      exact hshort
    rw [hread,hnone]
    cases fromU32 typeU32 with
    | none => exact ⟨_,rfl⟩
    | some found =>
      dsimp only
      split_ifs
      · exact ⟨_,rfl⟩
      · exact ⟨_,rfl⟩

end

/-- Written frames are read back as they were, up to the end of the stream and
whatever the chunks; what is read was written, within both limits; longer
declared lengths are invalid, and a stream that ends early gives no frame. -/
theorem frames_roundtrip {MsgType : Type} (toU32 : MsgType → UInt32)
    (fromU32 : UInt32 → Option MsgType) (maxPayloadSize : UInt32)
    (hinverse : ∀ x m, fromU32 x=some m ↔ toU32 m=x) :
    (∀ frames : List (MsgType×Bytes), (∀ frame∈frames, frame.2.length≤ maxPayloadSize.toNat) →
      ∃ outs, List.Forall₂ (fun frame out =>
          writeFrame toU32 maxPayloadSize frame.1 frame.2=.ok out) frames outs ∧
        ∀ stream, contents stream=outs.flatten →
          ∃ left, Reads fromU32 maxPayloadSize stream frames left ∧
            readFrame fromU32 maxPayloadSize left=.error earlyEof) ∧
    (∀ maxPayload stream msgType payload left,
      readFrameLimited fromU32 maxPayloadSize maxPayload stream=.ok ((msgType,payload),left) →
        ∃ out, writeFrame toU32 maxPayloadSize msgType payload=.ok out ∧
          contents stream=out++contents left ∧
          payload.length≤ min maxPayload.toNat maxPayloadSize.toNat) ∧
    (∀ maxPayload stream typeU32 len rest,
      contents stream=toLeBytes typeU32++toLeBytes len++rest → min maxPayload maxPayloadSize<len →
        ∃ message, readFrameLimited fromU32 maxPayloadSize maxPayload stream=
          .error ⟨.invalidData,message⟩) ∧
    (∀ maxPayload stream, ((contents stream).length<8 ∨ ∃ typeU32 len rest,
        contents stream=toLeBytes typeU32++toLeBytes len++rest ∧ rest.length<len.toNat) →
      ∃ reason, readFrameLimited fromU32 maxPayloadSize maxPayload stream=.error reason) := by
  refine ⟨?_,?_,?_,?_⟩
  · intro frames hfits
    have houts : ∃ outs, List.Forall₂ (fun frame out =>
        writeFrame toU32 maxPayloadSize frame.1 frame.2=.ok out) frames outs := by
      induction frames with
      | nil => exact ⟨[],.nil⟩
      | cons frame frames ih =>
        obtain ⟨outs,hwritten⟩ := ih fun f hf => hfits f (List.mem_cons_of_mem frame hf)
        exact ⟨_::outs,.cons (writeFrame_eq_ok_iff.mpr ⟨hfits frame List.mem_cons_self,rfl⟩)
          hwritten⟩
    obtain ⟨outs,hwritten⟩ := houts
    refine ⟨outs,hwritten,fun stream hcontents => ?_⟩
    obtain ⟨left,hleft,hreads⟩ := reads_of_written hinverse hwritten hcontents
    refine ⟨left,hreads,?_⟩
    have hnone : readExact 8 left=none := by
      rw [readExact_eq_none_iff,hleft]
      exact Nat.succ_pos 7
    rw [readFrame,readFrameInner,hnone]
  · intro maxPayload stream msgType payload left hread
    obtain ⟨typeU32,len,htype,hlen,hframed⟩ := framed_of_read hread
    have hcap : len.toNat≤ min maxPayload.toNat maxPayloadSize.toNat := by
      have hboth := le_min_iff.mp hlen
      exact le_min (UInt32.le_iff_toNat_le.mp hboth.1) (UInt32.le_iff_toNat_le.mp hboth.2)
    rw [←hframed.length] at hcap
    have hword : UInt32.ofNat payload.length=len := by
      rw [hframed.length,UInt32.ofNat_toNat]
    refine ⟨_,writeFrame_eq_ok_iff.mpr ⟨hcap.trans (min_le_right _ _),rfl⟩,?_,hcap⟩
    rw [hframed.bytes,(hinverse _ _).mp htype,hword]
  · intro maxPayload stream typeU32 len rest hcontents hlarge
    obtain ⟨after,-,hread⟩ := @readFrameInner_of_header MsgType fromU32 stream
      (min maxPayload maxPayloadSize) _ _ _ hcontents
    rw [readFrameLimited,hread]
    cases fromU32 typeU32 with
    | none => exact ⟨_,rfl⟩
    | some found =>
      dsimp only
      rw [if_pos hlarge]
      exact ⟨_,rfl⟩
  · intro maxPayload stream hshort
    exact readFrameInner_of_short hshort

/-- Keepalive messages. -/
inductive KeepAlive where
  | ping | pong
  deriving DecidableEq

/-- Numbers of the keepalive messages. -/
def KeepAlive.toU32 : KeepAlive → UInt32
  | .ping => 1
  | .pong => 2

/-- The keepalive message of a number. -/
def KeepAlive.fromU32 (x : UInt32) : Option KeepAlive :=
  if x=1 then some .ping else if x=2 then some .pong else none

theorem KeepAlive.inverse (x : UInt32) (m : KeepAlive) :
    KeepAlive.fromU32 x=some m ↔ m.toU32=x := by
  unfold KeepAlive.fromU32
  constructor
  · intro h
    split_ifs at h with hping hpong
    · rw [←Option.some.inj h,hping]
      rfl
    · rw [←Option.some.inj h,hpong]
      rfl
  · rintro rfl
    cases m <;> rfl

/-- A greeting and an empty answer are read back. -/
theorem frames_roundtrip_keepAlive : ∃ outs, List.Forall₂ (fun frame out =>
      writeFrame KeepAlive.toU32 16777216 frame.1 frame.2=.ok out)
        [(.ping,utf8 "hello world"),(.pong,[])] outs ∧
    ∀ stream, contents stream=outs.flatten →
      ∃ left, Reads KeepAlive.fromU32 16777216 stream
          [(.ping,utf8 "hello world"),(.pong,[])] left ∧
        readFrame KeepAlive.fromU32 16777216 left=.error earlyEof :=
  (frames_roundtrip KeepAlive.toU32 KeepAlive.fromU32 16777216 KeepAlive.inverse).1
    [(.ping,utf8 "hello world"),(.pong,[])] (by decide)

end TokiSync.FrameCodec
