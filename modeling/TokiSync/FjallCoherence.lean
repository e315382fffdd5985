import TokiSync.FjallStore

/-!
# Coherence of the event keyspaces

An upsert of one event either skips it or replaces the committed row of its
dedup key. The cells a replacement writes belong to the lane of that dedup
key: its pointer, its row keys of any time, and their copies and sessions.
Replacing a row keeps rows under their own keys, pointers on rows of their own
dedup key, and the per-user copies and sessions in step with the rows.
-/

namespace TokiSync.FjallCoherence

open MachineWords ByteKeys ByteCodec BatchedMaps ServerEvents FjallStore

section

variable {bincode : Codec PersistedEvent}

/-- Storing an event writes its row. -/
theorem get_insertEvent_events (db : Db) (event : ServerEvent) (k : Bytes) :
    (commit db (insertEvent bincode event) .events)[k]?=
      if k=event.eventKey then some (encodeEvent bincode event) else (db .events)[k]? := by
  unfold insertEvent
  split <;> simp [get_applyOp,BatchOp.cell,BatchOp.content]

/-- Storing an event writes its inline copy under its user. -/
theorem get_insertEvent_idxUser (db : Db) (event : ServerEvent) (k : Bytes) :
    (commit db (insertEvent bincode event) .idxUser)[k]?=
      if k=userIdxKey event.userId event.eventKey then some (encodeEvent bincode event)
      else (db .idxUser)[k]? := by
  unfold insertEvent
  split <;> simp [get_applyOp,BatchOp.cell,BatchOp.content]

/-- Storing an event writes its session when there is one; an older session
text of the same row stays otherwise. -/
theorem get_insertEvent_sessions (db : Db) (event : ServerEvent) (k : Bytes) :
    (commit db (insertEvent bincode event) .sessions)[k]?=
      if k=event.eventKey ∧ event.session≠"" then some (utf8 event.session)
      else (db .sessions)[k]? := by
  unfold insertEvent
  split <;> rename_i hs <;>
    simp [get_applyOp,BatchOp.cell,BatchOp.content,hs]

/-- Storing an event points its dedup key at its row. -/
theorem get_insertEvent_idxMsg (db : Db) (event : ServerEvent) (k : Bytes) :
    (commit db (insertEvent bincode event) .idxMsg)[k]?=
      if k=event.idxKey then some event.eventKey else (db .idxMsg)[k]? := by
  unfold insertEvent
  split <;> simp [get_applyOp,BatchOp.cell,BatchOp.content]

/-- Removing a row empties it, its inline copy and its session, and nothing
else. -/
theorem get_removeRow (db : Db) (user : String) (row : Bytes) (name : KeyspaceName) (k : Bytes) :
    (commit db (removeRow user row) name)[k]?=
      if (name=.events ∧ k=row) ∨ (name=.idxUser ∧ k=userIdxKey user row) ∨
        (name=.sessions ∧ k=row) then none else (db name)[k]? := by
  have hnone : ∀ op∈removeRow user row, op.content=none := by
    intro op hop
    simp only [removeRow,List.mem_cons,List.not_mem_nil,or_false] at hop
    rcases hop with rfl | rfl | rfl <;> rfl
  rw [get_commit_removes hnone]
  simp only [removeRow,List.map_cons,List.map_nil,BatchOp.cell,List.mem_cons,List.not_mem_nil,
    or_false,Prod.mk.injEq]

/-- Store an event in the place of its committed row, if there is one. -/
def replaceRow (bincode : Codec PersistedEvent) (old : Option Bytes) (user : String)
    (event : ServerEvent) : List Write :=
  old.elim [] (removeRow user)++insertEvent bincode event

/-- Owner under which the committed row of an event's dedup key is removed. -/
def oldUser (bincode : Codec PersistedEvent) (db : Db) (event : ServerEvent) : String :=
  ((db .idxMsg)[event.idxKey]?).elim "" fun row => rowUser bincode db row event

/-- An upsert either skips an event older than its committed row or replaces
that row. -/
theorem upsertOne_cases (bincode : Codec PersistedEvent) (db : Db) (event : ServerEvent) :
    (∃ row, (db .idxMsg)[event.idxKey]?=some row ∧ event.tsMs<rowTs row ∧
        upsertOne bincode db event=[]) ∨
      ((∀ row, (db .idxMsg)[event.idxKey]?=some row → rowTs row≤event.tsMs) ∧
        upsertOne bincode db event=
          replaceRow bincode (db .idxMsg)[event.idxKey]? (oldUser bincode db event) event) := by
  unfold upsertOne oldUser
  cases hp : (db .idxMsg)[event.idxKey]? with
  | none =>
    refine Or.inr ⟨fun row hrow => ?_,rfl⟩
    cases hrow
  | some row =>
    by_cases ht : event.tsMs<rowTs row
    · exact Or.inl ⟨row,rfl,ht,if_pos ht⟩
    · refine Or.inr ⟨fun row' hrow => ?_,if_neg ht⟩
      cases hrow
      exact not_lt.mp ht

section

variable (db : Db) (old : Option Bytes) (user : String) (event : ServerEvent)

theorem get_replaceRow_events (k : Bytes) :
    (commit db (replaceRow bincode old user event) .events)[k]?=
      if k=event.eventKey then some (encodeEvent bincode event)
      else if old=some k then none else (db .events)[k]? := by
  rw [replaceRow,commit_append,get_insertEvent_events]
  cases old with
  | none => simp
  | some row => simp [get_removeRow,@eq_comm _ row k]

theorem get_replaceRow_idxUser (k : Bytes) :
    (commit db (replaceRow bincode old user event) .idxUser)[k]?=
      if k=userIdxKey event.userId event.eventKey then some (encodeEvent bincode event)
      else if ∃ row, old=some row ∧ k=userIdxKey user row then none else (db .idxUser)[k]? := by
  rw [replaceRow,commit_append,get_insertEvent_idxUser]
  cases old <;> simp [get_removeRow]

theorem get_replaceRow_sessions (k : Bytes) :
    (commit db (replaceRow bincode old user event) .sessions)[k]?=
      if k=event.eventKey ∧ event.session≠"" then some (utf8 event.session)
      else if old=some k then none else (db .sessions)[k]? := by
  rw [replaceRow,commit_append,get_insertEvent_sessions]
  cases old with
  | none => simp
  | some row => simp [get_removeRow,@eq_comm _ row k]

theorem get_replaceRow_idxMsg (k : Bytes) :
    (commit db (replaceRow bincode old user event) .idxMsg)[k]?=
      if k=event.idxKey then some event.eventKey else (db .idxMsg)[k]? := by
  rw [replaceRow,commit_append,get_insertEvent_idxMsg]
  cases old <;> simp [get_removeRow]

end

/-- Rows sit under their own keys with delimiter-free ids, and every pointer
names a row of its own dedup key. -/
structure Aligned (bincode : Codec PersistedEvent) (db : Db) : Prop where
  /-- A row decodes to an event with delimiter-free ids and sits under its key. -/
  row : ∀ k v : Bytes, (db .events)[k]?=some v →
    ∃ e, decodeEvent bincode v=some e ∧ k=e.eventKey ∧ e.Delimitable
  /-- A pointer names a row of its own dedup key. -/
  pointer : ∀ dedup k : Bytes, (db .idxMsg)[dedup]?=some k →
    ∃ v e, (db .events)[k]?=some v ∧ decodeEvent bincode v=some e ∧ e.idxKey=dedup

/-- The per-user index holds exactly the copies of the rows, and sessions
belong to rows. -/
structure Mirrored (bincode : Codec PersistedEvent) (db : Db) : Prop where
  /-- The owner's index holds the value of every row. -/
  copied : ∀ (k v : Bytes) (e : ServerEvent), (db .events)[k]?=some v →
    decodeEvent bincode v=some e → (db .idxUser)[userIdxKey e.userId k]?=some v
  /-- Every index entry is the copy of a row. -/
  copy : ∀ x v : Bytes, (db .idxUser)[x]?=some v → ∃ (k : Bytes) (e : ServerEvent),
    (db .events)[k]?=some v ∧ decodeEvent bincode v=some e ∧ x=userIdxKey e.userId k
  /-- Every session belongs to a row. -/
  session : ∀ k v : Bytes, (db .sessions)[k]?=some v → ∃ w, (db .events)[k]?=some w

/-- Stored rows belong to the registered owner of their device. -/
def Owned (bincode : Codec PersistedEvent) (own : String → Option String) (db : Db) : Prop :=
  ∀ (k v : Bytes) (e : ServerEvent), (db .events)[k]?=some v → decodeEvent bincode v=some e →
    own e.deviceId=some e.userId

section

variable {own : String → Option String} {db : Db} {event : ServerEvent}

/-- The decoded event of a row is the one whose key the row has. -/
theorem Aligned.of_decode (h : Aligned bincode db) {k v : Bytes} {e : ServerEvent}
    (hv : (db .events)[k]?=some v) (he : decodeEvent bincode v=some e) :
    k=e.eventKey ∧ e.Delimitable := by
  obtain ⟨e',he',hk,hd⟩ := h.row k v hv
  rw [he] at he'
  cases he'
  exact ⟨hk,hd⟩

/-- What the committed row of an event's dedup key is. -/
theorem Aligned.predecessor (h : Aligned bincode db) {row : Bytes}
    (hrow : (db .idxMsg)[event.idxKey]?=some row) :
    ∃ v e, (db .events)[row]?=some v ∧ decodeEvent bincode v=some e ∧ e.idxKey=event.idxKey ∧
      row=e.eventKey ∧ e.Delimitable ∧ oldUser bincode db event=e.userId := by
  obtain ⟨v,e,hv,he,hk⟩ := h.pointer _ _ hrow
  obtain ⟨hrow',hd⟩ := h.of_decode hv he
  refine ⟨v,e,hv,he,hk,hrow',hd,?_⟩
  simp only [oldUser,hrow,Option.elim_some,rowUser,hv,Option.bind_some,he]

/-- A row that is not of an event's dedup key survives the replacement of the
event's row. -/
theorem Aligned.get_other_row (h : Aligned bincode db) {k v : Bytes} {e : ServerEvent}
    (hv : (db .events)[k]?=some v) (he : decodeEvent bincode v=some e)
    (hne : e.idxKey≠event.idxKey) (user : String) :
    (commit db (replaceRow bincode (db .idxMsg)[event.idxKey]? user event) .events)[k]?=some v := by
  obtain ⟨hk,-⟩ := h.of_decode hv he
  rw [get_replaceRow_events,if_neg,if_neg,hv]
  · intro hold
    obtain ⟨w,x,hw,hx,hxk,-⟩ := h.predecessor hold
    rw [hv,Option.some.injEq] at hw
    rw [←hw,he,Option.some.injEq] at hx
    rw [hx] at hne
    exact hne hxk
  · intro hkn
    rw [hk,eventKey_eq_rowKey,eventKey_eq_rowKey,rowKey_inj] at hkn
    exact hne hkn.2

/-- Replacing a row keeps keys and pointers aligned. -/
theorem Aligned.replaceRow (h : Aligned bincode db) (hd : event.Delimitable) (user : String) :
    Aligned bincode (commit db (replaceRow bincode (db .idxMsg)[event.idxKey]? user event)) := by
  have hdec : decodeEvent bincode (encodeEvent bincode event)=some {event with session := ""} :=
    decodeEvent_encodeEvent bincode event
  constructor
  · intro k v hv
    rw [get_replaceRow_events] at hv
    split_ifs at hv with hk hold
    · cases hv
      exact ⟨_,hdec,hk,hd⟩
    · exact h.row k v hv
  · intro dedup k hk
    rw [get_replaceRow_idxMsg] at hk
    split_ifs at hk with hdk
    · cases hk
      refine ⟨_,_,?_,hdec,hdk.symm⟩
      rw [get_replaceRow_events,if_pos rfl]
    · obtain ⟨v,e,hv,he,hek⟩ := h.pointer dedup k hk
      refine ⟨v,e,h.get_other_row hv he ?_ user,he,hek⟩
      exact fun heq => hdk (hek.symm.trans heq)

/-- An event replaces rows of its own dedup key only under the same user. -/
theorem Owned.user_eq (ho : Owned bincode own db) (h : Aligned bincode db)
    (hd : event.Delimitable) (hu : own event.deviceId=some event.userId) {k v : Bytes}
    {e : ServerEvent} (hv : (db .events)[k]?=some v) (he : decodeEvent bincode v=some e)
    (hk : e.idxKey=event.idxKey) : e.userId=event.userId := by
  have heo := ho k v e hv he
  rw [idxKey_device (h.of_decode hv he).2.1 hd.1 hk,hu,Option.some.injEq] at heo
  exact heo.symm

/-- Replacing a row keeps the registered owners. -/
theorem Owned.replaceRow (ho : Owned bincode own db) (hu : own event.deviceId=some event.userId)
    (old : Option Bytes) (user : String) :
    Owned bincode own (commit db (replaceRow bincode old user event)) := by
  intro k v e hv he
  rw [get_replaceRow_events] at hv
  split_ifs at hv with hk hold
  · cases hv
    rw [decodeEvent_encodeEvent] at he
    cases he
    exact hu
  · exact ho k v e hv he

/-- The owner's index holds the value of every row. -/
def Copied (bincode : Codec PersistedEvent) (db : Db) : Prop :=
  ∀ (k v : Bytes) (e : ServerEvent), (db .events)[k]?=some v → decodeEvent bincode v=some e →
    (db .idxUser)[userIdxKey e.userId k]?=some v

/-- Replacing a row keeps the index copies of all rows, whoever owns them. -/
theorem Copied.replaceRow (hc : Copied bincode db) (h : Aligned bincode db)
    (hd : event.Delimitable) :
    Copied bincode (commit db (replaceRow bincode (db .idxMsg)[event.idxKey]?
      (oldUser bincode db event) event)) := by
  intro k v e hv he
  rw [get_replaceRow_events] at hv
  split_ifs at hv with hk hold
  · cases hv
    rw [decodeEvent_encodeEvent] at he
    cases he
    rw [get_replaceRow_idxUser,if_pos (by rw [hk])]
  · obtain ⟨-,hed⟩ := h.of_decode hv he
    rw [get_replaceRow_idxUser,if_neg,if_neg,hc k v e hv he]
    · rintro ⟨row,hrow,heq⟩
      obtain ⟨w,x,-,-,-,-,hxd,hxu⟩ := h.predecessor hrow
      rw [hxu,userIdxKey_inj hed.2 hxd.2] at heq
      rw [heq.2] at hold
      exact hold hrow
    · rw [userIdxKey_inj hed.2 hd.2]
      exact fun heq => hk heq.2

/-- Replacing a row keeps the index copies and the sessions in step. -/
theorem Mirrored.replaceRow (hm : Mirrored bincode db) (h : Aligned bincode db)
    (ho : Owned bincode own db) (hd : event.Delimitable)
    (hu : own event.deviceId=some event.userId) :
    Mirrored bincode (commit db (replaceRow bincode (db .idxMsg)[event.idxKey]?
      (oldUser bincode db event) event)) := by
  have hdec : decodeEvent bincode (encodeEvent bincode event)=some {event with session := ""} :=
    decodeEvent_encodeEvent bincode event
  have hcopied : Copied bincode db := hm.copied
  constructor
  · exact hcopied.replaceRow h hd
  · intro x v hv
    rw [get_replaceRow_idxUser] at hv
    split_ifs at hv with hx hold
    · cases hv
      refine ⟨event.eventKey,_,?_,hdec,hx⟩
      rw [get_replaceRow_events,if_pos rfl]
    · obtain ⟨k,e,hkv,he,hxk⟩ := hm.copy x v hv
      obtain ⟨hek,-⟩ := h.of_decode hkv he
      refine ⟨k,e,?_,he,hxk⟩
      rw [get_replaceRow_events,if_neg,if_neg,hkv]
      · intro hrow
        obtain ⟨w,y,hw,hy,-,-,-,hyu⟩ := h.predecessor hrow
        rw [hkv,Option.some.injEq] at hw
        rw [←hw,he,Option.some.injEq] at hy
        exact hold ⟨k,hrow,by rw [hyu,hxk,hy]⟩
      · intro hkn
        rw [hkn,eventKey_eq_rowKey,eventKey_eq_rowKey,rowKey_inj] at hek
        rw [hxk,ho.user_eq h hd hu hkv he hek.2.symm,hkn] at hx
        exact hx rfl
  · intro k v hv
    rw [get_replaceRow_sessions] at hv
    rw [get_replaceRow_events]
    split_ifs at hv with hk hold
    · exact ⟨_,if_pos hk.1⟩
    · obtain ⟨w,hw⟩ := hm.session k v hv
      by_cases hkn : k=event.eventKey
      · exact ⟨_,if_pos hkn⟩
      · exact ⟨w,by rw [if_neg hkn,if_neg hold,hw]⟩

/-- An upsert keeps keys and pointers aligned. -/
theorem Aligned.upsertOne (h : Aligned bincode db) (hd : event.Delimitable) :
    Aligned bincode (commit db (FjallStore.upsertOne bincode db event)) := by
  rcases upsertOne_cases bincode db event with ⟨row,-,-,hskip⟩ | ⟨-,hreplace⟩
  · rw [hskip]
    exact h
  · rw [hreplace]
    exact h.replaceRow hd _

/-- An upsert keeps the registered owners. -/
theorem Owned.upsertOne (ho : Owned bincode own db) (hu : own event.deviceId=some event.userId) :
    Owned bincode own (commit db (FjallStore.upsertOne bincode db event)) := by
  rcases upsertOne_cases bincode db event with ⟨row,-,-,hskip⟩ | ⟨-,hreplace⟩
  · rw [hskip]
    exact ho
  · rw [hreplace]
    exact ho.replaceRow hu _ _

/-- An upsert keeps the index copies and the sessions in step. -/
theorem Mirrored.upsertOne (hm : Mirrored bincode db) (h : Aligned bincode db)
    (ho : Owned bincode own db) (hd : event.Delimitable)
    (hu : own event.deviceId=some event.userId) :
    Mirrored bincode (commit db (FjallStore.upsertOne bincode db event)) := by
  rcases upsertOne_cases bincode db event with ⟨row,-,-,hskip⟩ | ⟨-,hreplace⟩
  · rw [hskip]
    exact hm
  · rw [hreplace]
    exact hm.replaceRow h ho hd hu

end

/-- Cells that only events of one dedup key write. -/
def InLane (dedup : Bytes) : KeyspaceName×Bytes → Prop
  | (.idxMsg,k) => k=dedup
  | (.events,k) => ∃ t, k=rowKey t dedup
  | (.sessions,k) => ∃ t, k=rowKey t dedup
  | (.idxUser,k) => ∃ user t, NulFree (utf8 user) ∧ k=userIdxKey user (rowKey t dedup)
  | (.windows,_) => False

/-- The lanes of different dedup keys are disjoint. -/
theorem InLane.unique {a b : Bytes} {cell : KeyspaceName×Bytes} (ha : InLane a cell)
    (hb : InLane b cell) : a=b := by
  obtain ⟨name,k⟩ := cell
  cases name with
  | events =>
    obtain ⟨t,rfl⟩ := ha
    obtain ⟨u,hu⟩ := hb
    exact (rowKey_inj.mp hu).2
  | idxMsg => exact Eq.trans (Eq.symm ha) hb
  | idxUser =>
    obtain ⟨user,t,hn,rfl⟩ := ha
    obtain ⟨user',u,hn',hu⟩ := hb
    exact (rowKey_inj.mp ((userIdxKey_inj hn hn').mp hu).2).2
  | sessions =>
    obtain ⟨t,rfl⟩ := ha
    obtain ⟨u,hu⟩ := hb
    exact (rowKey_inj.mp hu).2
  | windows => exact absurd ha id

/-- Every write of an upsert stays in the lane of its event. -/
theorem upsertOne_inLane {db : Db} (h : Aligned bincode db) {event : ServerEvent}
    (hd : event.Delimitable) : ∀ op∈upsertOne bincode db event, InLane event.idxKey op.cell := by
  have hinsert : ∀ op∈insertEvent bincode event, InLane event.idxKey op.cell := by
    intro op hop
    unfold insertEvent at hop
    simp only [List.mem_append,List.mem_cons,List.not_mem_nil,or_false] at hop
    rcases hop with ((rfl | rfl) | hop) | rfl
    · exact ⟨event.tsMs,rfl⟩
    · exact ⟨event.userId,event.tsMs,hd.2,rfl⟩
    · split_ifs at hop with hs
      · cases hop
      · rw [List.mem_singleton.mp hop]
        exact ⟨event.tsMs,rfl⟩
    · exact rfl
  intro op hop
  rcases upsertOne_cases bincode db event with ⟨row,-,-,hskip⟩ | ⟨-,hreplace⟩
  · rw [hskip] at hop
    cases hop
  · rw [hreplace,replaceRow] at hop
    rcases List.mem_append.mp hop with hop | hop
    · cases hrow : (db .idxMsg)[event.idxKey]? with
      | none =>
        rw [hrow] at hop
        cases hop
      | some row =>
        obtain ⟨v,e,-,-,hk,hek,hed,hu⟩ := h.predecessor hrow
        rw [eventKey_eq_rowKey,hk] at hek
        simp only [hrow,Option.elim_some,removeRow,List.mem_cons,List.not_mem_nil,or_false] at hop
        rcases hop with rfl | rfl | rfl
        · exact ⟨_,hek⟩
        · exact ⟨e.userId,e.tsMs,hed.2,by rw [hu,hek]⟩
        · exact ⟨_,hek⟩
    · exact hinsert op hop

/-- Upserts of different dedup keys write different cells. -/
theorem upsertOne_independent {db : Db} (h : Aligned bincode db) {a b : ServerEvent}
    (ha : a.Delimitable) (hb : b.Delimitable) (hne : a.idxKey≠b.idxKey) :
    Independent (upsertOne bincode db a) (upsertOne bincode db b) := by
  intro x hx y hy heq
  have hlane := upsertOne_inLane h ha x hx
  rw [heq] at hlane
  exact hne (hlane.unique (upsertOne_inLane h hb y hy))

end

end TokiSync.FjallCoherence
