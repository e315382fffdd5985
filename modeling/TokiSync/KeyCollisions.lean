import TokiSync.SyncBatches

/-!
# Keys of uploaded events

The dedup key of an event joins device, provider and message id with NUL
characters. Device ids are UUIDs and contain none. Provider and message id are
taken from the batch as they come, so a NUL character in one of them can stand
where the delimiter stands in another key.
-/

namespace TokiSync.KeyCollisions

open MachineWords ByteKeys ServerEvents SyncBatches

/-- Provider and message id as one text. -/
def joined (provider msgId : String) : List Char := provider.toList++ '\x00'::msgId.toList

/-- The second provider goes on behind a NUL character with what the first
message id starts with in front of a NUL character and the second one. -/
def Overlaps (provider msgId provider' msgId' : String) : Prop :=
  ∃ middle, provider'.toList=provider.toList++ '\x00'::middle ∧
    msgId.toList=middle++ '\x00'::msgId'.toList

/-- The provider and the message id of two events are cut differently out of
one text. -/
def CutTwice (a b : ServerEvent) : Prop :=
  Overlaps a.provider a.msgId b.provider b.msgId ∨ Overlaps b.provider b.msgId a.provider a.msgId

/-- The keys of two events are equal only if what they are made of is. -/
def KeysSeparate (a b : ServerEvent) : Prop :=
  (a.idxKey=b.idxKey → a.deviceId=b.deviceId ∧ a.provider=b.provider ∧ a.msgId=b.msgId) ∧
  (a.eventKey=b.eventKey →
    a.deviceId=b.deviceId ∧ a.provider=b.provider ∧ a.msgId=b.msgId ∧ a.tsMs=b.tsMs)

/-- The bytes behind the device are those of the joined text. -/
theorem utf8_joined (provider msgId : String) :
    delimited (utf8 provider)++utf8 msgId=utf8 (String.ofList (joined provider msgId)) := by
  have hnul : String.utf8EncodeChar '\x00'=[0] := by decide
  rw [utf8_eq_flatMap,utf8_eq_flatMap,utf8_eq_flatMap,String.toList_ofList,joined,delimited,
    List.flatMap_append,List.flatMap_cons,hnul,List.append_assoc]

/-- Dedup keys are equal when the devices and the joined texts are. -/
theorem idxKey_eq_iff {a b : ServerEvent} (ha : NulFree (utf8 a.deviceId))
    (hb : NulFree (utf8 b.deviceId)) : a.idxKey=b.idxKey ↔
      a.deviceId=b.deviceId ∧ joined a.provider a.msgId=joined b.provider b.msgId := by
  rw [ServerEvent.idxKey,ServerEvent.idxKey,idxKey,idxKey,delimited_append_inj ha hb,utf8_inj,
    utf8_joined,utf8_joined,utf8_inj,String.ofList_inj]

/-- Two cuts of one text at a NUL character are the same cut, or one is
further back than the other. -/
theorem joined_eq_iff {p m q n : String} : joined p m=joined q n ↔
    (p=q ∧ m=n) ∨ Overlaps p m q n ∨ Overlaps q n p m := by
  constructor
  · intro h
    rcases List.append_eq_append_iff.mp h with ⟨tail,hq,hm⟩ | ⟨tail,hp,hn⟩
    · cases tail with
      | nil =>
        rw [List.append_nil] at hq
        rw [List.nil_append,List.cons.injEq] at hm
        exact Or.inl ⟨String.toList_inj.mp hq.symm,String.toList_inj.mp hm.2⟩
      | cons c middle =>
        rw [List.cons_append,List.cons.injEq] at hm
        rw [←hm.1] at hq
        exact Or.inr (Or.inl ⟨middle,hq,hm.2⟩)
    · cases tail with
      | nil =>
        rw [List.append_nil] at hp
        rw [List.nil_append,List.cons.injEq] at hn
        exact Or.inl ⟨String.toList_inj.mp hp,String.toList_inj.mp hn.2.symm⟩
      | cons c middle =>
        rw [List.cons_append,List.cons.injEq] at hn
        rw [←hn.1] at hp
        exact Or.inr (Or.inr ⟨middle,hp,hn.2⟩)
  · rintro (⟨rfl,rfl⟩ | ⟨middle,hq,hm⟩ | ⟨middle,hp,hn⟩)
    · rfl
    · rw [joined,joined,hq,hm,List.append_assoc,List.cons_append]
    · rw [joined,joined,hp,hn,List.append_assoc,List.cons_append]

/-- A provider that goes on behind another one is a different one. -/
theorem Overlaps.ne {p m q n : String} (h : Overlaps p m q n) : p≠q := by
  rintro rfl
  obtain ⟨middle,hq,-⟩ := h
  have hlength := congrArg List.length hq
  rw [List.length_append,List.length_cons] at hlength
  omega

/-- The keys of two events separate them when no text is cut twice. -/
theorem keysSeparate_iff {a b : ServerEvent} (ha : NulFree (utf8 a.deviceId))
    (hb : NulFree (utf8 b.deviceId)) :
    KeysSeparate a b ↔ ¬(a.deviceId=b.deviceId ∧ CutTwice a b) := by
  constructor
  · rintro ⟨hidx,-⟩ ⟨hdevice,hcut⟩
    have hjoined : joined a.provider a.msgId=joined b.provider b.msgId :=
      joined_eq_iff.mpr (Or.inr hcut)
    have hsame := hidx ((idxKey_eq_iff ha hb).mpr ⟨hdevice,hjoined⟩)
    rcases hcut with h | h
    · exact h.ne hsame.2.1
    · exact h.ne hsame.2.1.symm
  · intro hcut
    have hidx : a.idxKey=b.idxKey →
        a.deviceId=b.deviceId ∧ a.provider=b.provider ∧ a.msgId=b.msgId := by
      intro h
      obtain ⟨hdevice,hjoined⟩ := (idxKey_eq_iff ha hb).mp h
      rcases joined_eq_iff.mp hjoined with hsame | htwice
      · exact ⟨hdevice,hsame⟩
      · exact absurd ⟨hdevice,htwice⟩ hcut
    refine ⟨hidx,fun h => ?_⟩
    rw [eventKey_eq_rowKey,eventKey_eq_rowKey,rowKey_inj] at h
    obtain ⟨hdevice,hprovider,hmsg⟩ := hidx h.2
    exact ⟨hdevice,hprovider,hmsg,h.1⟩

/-- The message id of an item's event is cut at its first colon. -/
theorem serverEvent_msgId (deviceId userId : String) (batch : SyncBatchPayload) (item : SyncItem) :
    (serverEvent deviceId userId batch item).msgId=bareMsgId item.messageId :=
  (foldl_setTokenColumn_ids (batch.tokenColumns.zip item.event.tokens)
    (resolvedEvent deviceId userId batch item)).2.2.1

/-- Keys separate the events of two uploaded items unless the items come from
one device and their providers and bare message ids are one text cut twice. -/
theorem uploaded_keys_separate_iff {a b : Upload} {i j : SyncItem}
    (ha : NulFree (utf8 a.deviceId)) (hb : NulFree (utf8 b.deviceId)) :
    KeysSeparate (serverEvent a.deviceId a.userId a.batch i)
        (serverEvent b.deviceId b.userId b.batch j) ↔
      ¬(a.deviceId=b.deviceId ∧
        (Overlaps a.batch.provider (bareMsgId i.messageId) b.batch.provider
            (bareMsgId j.messageId) ∨
          Overlaps b.batch.provider (bareMsgId j.messageId) a.batch.provider
            (bareMsgId i.messageId))) := by
  obtain ⟨hda,-,-,hpa⟩ := serverEvent_ids a.deviceId a.userId a.batch i
  obtain ⟨hdb,-,-,hpb⟩ := serverEvent_ids b.deviceId b.userId b.batch j
  rw [keysSeparate_iff (by rwa [hda]) (by rwa [hdb]),CutTwice,hda,hdb,hpa,hpb,serverEvent_msgId,
    serverEvent_msgId]

/-- An upload of one item. -/
def uploadOf (provider messageId : String) : Upload where
  deviceId := "d1"
  userId := "u1"
  batch :=
    { provider := provider
      tokenColumns := []
      dict := fun _ => none
      items := [⟨5,messageId,⟨0,0,0,[]⟩,1⟩] }

/-- Two providers share a dedup key. -/
theorem providers_collide : ¬∀ a b : Upload, NulFree (utf8 a.deviceId) → NulFree (utf8 b.deviceId) →
    a.batch.items.length ≤ maxBatchSize → b.batch.items.length ≤ maxBatchSize →
    ∀ x∈a.serverEvents, ∀ y∈b.serverEvents, KeysSeparate x y := by
  intro h
  have hkeys := (h (uploadOf "codex" "m\x00n") (uploadOf "codex\x00m" "n") (by decide) (by decide)
    (by decide) (by decide) _ List.mem_cons_self _ List.mem_cons_self).1 (by decide +kernel)
  exact absurd hkeys.2.1 (by decide)

/-- Two messages of one provider are separate. -/
theorem uploaded_keys_separate_sample :
    KeysSeparate (serverEvent "d1" "u1" (uploadOf "codex" "m").batch ⟨5,"m",⟨0,0,0,[]⟩,1⟩)
      (serverEvent "d1" "u1" (uploadOf "codex" "n").batch ⟨5,"n",⟨0,0,0,[]⟩,1⟩) := by
  refine (uploaded_keys_separate_iff (a:=uploadOf "codex" "m") (b:=uploadOf "codex" "n")
    (by decide) (by decide)).mpr ?_
  rintro ⟨-,h | h⟩
  · exact h.ne rfl
  · exact h.ne rfl

end TokiSync.KeyCollisions
