import TokiSync.FjallQueries

/-!
# Replayed uploads

A batch leaves every winner either behind a newer row or in a row of its own,
with its copy and its pointer. The session is the exception: an event without
one does not clear the text that an earlier row has left under the same key
when the pointer to that row is gone. Uploading the batch again does.
-/

namespace TokiSync.FjallReplays

open MachineWords ByteKeys ByteCodec BatchedMaps ServerEvents FjallStore FjallCoherence
open FjallBatches FjallRuns FjallIndex FjallQueries RangeScans ReplacingMerge Runs

/-- An upsert of the event stores it, not behind a newer row. -/
def Lands (db : Db) (event : ServerEvent) : Prop :=
  ∀ row, (db .idxMsg)[event.idxKey]?=some row → rowTs row≤event.tsMs

/-- The event is the first one of its dedup key in the batch that no other one
of the key exceeds in time. -/
def Leads (batch : List ServerEvent) (event : ServerEvent) : Prop :=
  (batch.find? fun x => x.idxKey=event.idxKey ∧
    ∀ y∈batch, y.idxKey=event.idxKey → y.tsMs≤x.tsMs)=some event

/-- An upsert of the event, which has no session, keeps the session of an
earlier row under the same key that its pointer does not name. -/
def Retains (db : Db) (event : ServerEvent) : Prop :=
  Lands db event ∧ event.session="" ∧ (db .idxMsg)[event.idxKey]?≠some event.eventKey ∧
    loadSession db event.eventKey≠""

/-- Stored event that the pointer of a dedup key names, with its session. -/
def Pointed (bincode : Codec PersistedEvent) (db : Db) (dedup : Bytes) (stored : ServerEvent) :
    Prop :=
  ∃ (k v : Bytes) (e : ServerEvent), (db .idxMsg)[dedup]?=some k ∧ (db .events)[k]?=some v ∧
    decodeEvent bincode v=some e ∧ stored={e with session := loadSession db k}

/-- For every dedup key of the batch the pointer names an event of the batch
with the greatest time, or an event with a greater time. -/
def StoredWhole (bincode : Codec PersistedEvent) (db : Db) (batch : List ServerEvent) : Prop :=
  ∀ x∈batch, ∃ stored, Pointed bincode db x.idxKey stored ∧
    ((stored∈batch ∧ stored.idxKey=x.idxKey ∧
      ∀ y∈batch, y.idxKey=x.idxKey → y.tsMs≤ stored.tsMs) ∨
    ∀ y∈batch, y.idxKey=x.idxKey → y.tsMs< stored.tsMs)

/-- Two stores that every query reads alike: sessions may differ where the
time is the last one, which no range includes. -/
structure ReadAlike (db db' : Db) : Prop where
  /-- The rows are the same. -/
  events : db .events=db' .events
  /-- The index is the same. -/
  idxUser : db .idxUser=db' .idxUser
  /-- Sessions of readable rows are the same. -/
  session : ∀ k : Bytes, fromBeBytes (k.take 8)≠Int64.maxValue → loadSession db k=loadSession db' k

section

variable {bincode : Codec PersistedEvent} {db db' : Db}

/-- No range includes the last time. -/
theorem ne_maxValue_of_lt {a b : Int64} (h : a<b) : a≠Int64.maxValue := by
  have hle : b≤Int64.maxValue := Int64.le_maxValue b
  exact ne_of_lt (h.trans_le hle)

/-- The full scan reads both stores alike. -/
theorem ReadAlike.scanEventsLoop (h : ReadAlike db db') (untilMs : Int64) (filter : UserFilter)
    (limit : ℕ) (rows : List (Bytes×Bytes)) (results : List ServerEvent) :
    scanEventsLoop bincode db untilMs filter limit rows results=
      FjallStore.scanEventsLoop bincode db' untilMs filter limit rows results := by
  induction rows generalizing results with
  | nil => rfl
  | cons kv rows ih =>
    rw [FjallStore.scanEventsLoop,FjallStore.scanEventsLoop]
    by_cases hshort : kv.1.length<8
    · rw [if_pos hshort,if_pos hshort,ih]
    · rw [if_neg hshort,if_neg hshort]
      by_cases hend : fromBeBytes (kv.1.take 8)≥untilMs
      · rw [if_pos hend,if_pos hend]
      · have hsession := h.session kv.1 (ne_maxValue_of_lt (not_le.mp hend))
        rw [if_neg hend,if_neg hend]
        cases decodeEvent bincode kv.2 with
        | none => exact ih results
        | some e =>
          dsimp only
          rw [hsession]
          split_ifs
          · rfl
          · exact ih _
          · exact ih _

/-- The scan of a user's index reads the sessions of the rows it lists before
the end of the range. -/
theorem scanUserEventsLoop_congr {tsOff : ℕ} {untilMs : Int64} {rows : List (Bytes×Bytes)}
    (hsession : ∀ kv∈rows, fromBeBytes ((kv.1.drop tsOff).take 8)<untilMs →
      loadSession db (kv.1.drop tsOff)=loadSession db' (kv.1.drop tsOff))
    (sinceMs : Int64) (limit : ℕ) (results : List ServerEvent) :
    scanUserEventsLoop bincode db tsOff sinceMs untilMs limit rows results=
      scanUserEventsLoop bincode db' tsOff sinceMs untilMs limit rows results := by
  induction rows generalizing results with
  | nil => rfl
  | cons kv rows ih =>
    have ih := ih fun x hx => hsession x (List.mem_cons_of_mem _ hx)
    rw [FjallStore.scanUserEventsLoop,FjallStore.scanUserEventsLoop]
    dsimp only
    by_cases hshort : kv.1.length<tsOff+8
    · rw [if_pos hshort,if_pos hshort,ih]
    · rw [if_neg hshort,if_neg hshort]
      by_cases hend : fromBeBytes ((kv.1.drop tsOff).take 8)≥untilMs
      · rw [if_pos hend,if_pos hend]
      · have hsession := hsession kv List.mem_cons_self (not_le.mp hend)
        rw [if_neg hend,if_neg hend]
        cases decodeEvent bincode kv.2 with
        | none =>
          split_ifs
          · exact ih results
          · exact ih results
        | some e =>
          dsimp only
          rw [hsession]
          split_ifs
          · exact ih results
          · rfl
          · exact ih _

/-- The scan of a user's index reads both stores alike. -/
theorem ReadAlike.scanUserEventsLoop (h : ReadAlike db db') (tsOff : ℕ) (sinceMs untilMs : Int64)
    (limit : ℕ) (rows : List (Bytes×Bytes)) (results : List ServerEvent) :
    scanUserEventsLoop bincode db tsOff sinceMs untilMs limit rows results=
      FjallStore.scanUserEventsLoop bincode db' tsOff sinceMs untilMs limit rows results :=
  scanUserEventsLoop_congr (fun kv _ hlt => h.session (kv.1.drop tsOff) (ne_maxValue_of_lt hlt))
    sinceMs limit results

/-- Stores that are read alike answer every query alike. -/
theorem ReadAlike.queryEvents (h : ReadAlike db db') (sinceMs untilMs : Int64)
    (filter : UserFilter) (limit : ℕ) : queryEvents bincode db sinceMs untilMs filter limit=
      FjallStore.queryEvents bincode db' sinceMs untilMs filter limit := by
  have huser : ∀ uid limit, scanUserEvents bincode db uid sinceMs untilMs limit=
      scanUserEvents bincode db' uid sinceMs untilMs limit := by
    intro uid limit
    rw [scanUserEvents,scanUserEvents,h.idxUser,h.scanUserEventsLoop]
  have hteam : ∀ uids out, queryUsersLoop bincode db sinceMs untilMs limit uids out=
      queryUsersLoop bincode db' sinceMs untilMs limit uids out := by
    intro uids
    induction uids with
    | nil => exact fun _ => rfl
    | cons uid uids ih =>
      intro out
      rw [queryUsersLoop,queryUsersLoop,huser,ih]
  cases filter with
  | single uid => exact huser uid limit
  | multiple uids => exact hteam uids []
  | all =>
    rw [FjallStore.queryEvents,FjallStore.queryEvents,scanEvents,scanEvents,h.events,
      h.scanEventsLoop]

/-- The winners of a batch are its leading events. -/
theorem mem_winners_iff_leads {batch : List ServerEvent} {event : ServerEvent} :
    event∈winners batch ↔ Leads batch event := by
  rw [mem_winners,getElem?_winnerMap,foldl_prefer_eq_find?]
  rfl

/-- No event of the batch exceeds a winner of its dedup key in time. -/
theorem winner_newest {batch : List ServerEvent} {w : ServerEvent} (hw : w∈winners batch) :
    w∈batch ∧ ∀ y∈batch, y.idxKey=w.idxKey → y.tsMs≤w.tsMs := by
  obtain ⟨hmem,-,hmax⟩ := (winnerMap_keeps batch).newest _ _ (mem_winners.mp hw)
  exact ⟨hmem,hmax⟩

section

variable {batch : List ServerEvent}

/-- What an upsert leaves in the lane of a winner. -/
theorem get_upserted_of_inLane (h : Aligned bincode db) (hd : ∀ e∈batch, e.Delimitable)
    (hup : UpsertEvents bincode db batch db') {w : ServerEvent} (hw : w∈winners batch)
    {name : KeyspaceName} {k : Bytes} (hlane : InLane w.idxKey (name,k)) :
    (db' name)[k]?=(commit db (upsertOne bincode db w) name)[k]? := by
  obtain ⟨order,hp,rfl⟩ := hup
  have hod : ∀ e∈order, e.Delimitable := fun e he => hd e (mem_of_mem_winners (hp.mem_iff.mp he))
  exact get_upsertInOrder_of_inLane h hod (order_pairwise hp) (hp.mem_iff.mpr hw) hlane

/-- An upsert leaves the cells outside the lanes of the winners. -/
theorem get_upserted_of_other (h : Aligned bincode db) (hd : ∀ e∈batch, e.Delimitable)
    (hup : UpsertEvents bincode db batch db') {name : KeyspaceName} {k : Bytes}
    (hother : ¬∃ w∈winners batch, InLane w.idxKey (name,k)) : (db' name)[k]?=(db name)[k]? := by
  obtain ⟨order,hp,rfl⟩ := hup
  have hod : ∀ e∈order, e.Delimitable := fun e he => hd e (mem_of_mem_winners (hp.mem_iff.mp he))
  exact get_upsertInOrder_of_other h hod fun e he hlane => hother ⟨e,hp.mem_iff.mp he,hlane⟩

/-- An event behind a newer row writes nothing. -/
theorem upsertOne_of_not_lands {event : ServerEvent} (h : ¬Lands db event) :
    upsertOne bincode db event=[] := by
  rcases upsertOne_cases bincode db event with ⟨-,-,-,hskip⟩ | ⟨hlands,-⟩
  · exact hskip
  · exact absurd hlands h

/-- An event that lands replaces the row of its pointer. -/
theorem upsertOne_of_lands {event : ServerEvent} (h : Lands db event) :
    upsertOne bincode db event=
      replaceRow bincode (db .idxMsg)[event.idxKey]? (oldUser bincode db event) event := by
  rcases upsertOne_cases bincode db event with ⟨row,hrow,hlt,-⟩ | ⟨-,hreplace⟩
  · exact absurd hlt (not_lt.mpr (h row hrow))
  · exact hreplace

/-- The row key of an event is in the lane of its dedup key. -/
theorem eventKey_inLane (event : ServerEvent) {name : KeyspaceName}
    (hname : name=.events ∨ name=.sessions) : InLane event.idxKey (name,event.eventKey) := by
  rcases hname with rfl | rfl
  · exact ⟨event.tsMs,eventKey_eq_rowKey event⟩
  · exact ⟨event.tsMs,eventKey_eq_rowKey event⟩

/-- Row of an event that lands, with its pointer and its session. -/
structure Landed (bincode : Codec PersistedEvent) (db db' : Db) (event : ServerEvent) : Prop where
  /-- The pointer names the row. -/
  pointer : (db' .idxMsg)[event.idxKey]?=some event.eventKey
  /-- The row holds the event. -/
  row : (db' .events)[event.eventKey]?=some (encodeEvent bincode event)
  /-- The session is the event's; without one an earlier text stays unless the
  pointer named this row. -/
  session : (db' .sessions)[event.eventKey]?=
    if event.session≠"" then some (utf8 event.session)
    else if (db .idxMsg)[event.idxKey]?=some event.eventKey then none
    else (db .sessions)[event.eventKey]?

/-- An upsert stores the winners that land. -/
theorem landed_of_lands (h : Aligned bincode db) (hd : ∀ e∈batch, e.Delimitable)
    (hup : UpsertEvents bincode db batch db') {w : ServerEvent} (hw : w∈winners batch)
    (hlands : Lands db w) : Landed bincode db db' w := by
  have hcell : ∀ {name : KeyspaceName} {k : Bytes}, InLane w.idxKey (name,k) →
      (db' name)[k]?=(commit db (replaceRow bincode (db .idxMsg)[w.idxKey]?
        (oldUser bincode db w) w) name)[k]? := by
    intro name k hlane
    rw [get_upserted_of_inLane h hd hup hw hlane,upsertOne_of_lands hlands]
  constructor
  · have hlane : InLane w.idxKey (.idxMsg,w.idxKey) := rfl
    rw [hcell hlane,get_replaceRow_idxMsg,if_pos rfl]
  · rw [hcell (eventKey_inLane w (Or.inl rfl)),get_replaceRow_events,if_pos rfl]
  · rw [hcell (eventKey_inLane w (Or.inr rfl)),get_replaceRow_sessions]
    simp only [true_and]

/-- Session that an event that landed is read with. -/
theorem Landed.loadSession {w : ServerEvent} (h : Landed bincode db db' w) :
    loadSession db' w.eventKey=if w.session≠"" then w.session
      else if (db .idxMsg)[w.idxKey]?=some w.eventKey then "" else loadSession db w.eventKey := by
  rw [FjallStore.loadSession,h.session]
  split_ifs with hsession hpointer
  · rw [Option.bind_some,fromUTF8_utf8,Option.getD_some]
  · rfl
  · rfl

/-- An event that landed lands again, on its own row. -/
theorem Landed.lands {w : ServerEvent} (h : Landed bincode db db' w) : Lands db' w := by
  intro row hrow
  rw [h.pointer,Option.some.injEq] at hrow
  rw [←hrow,rowTs,if_pos (eventKey_length w),fromBeBytes_eventKey]

/-- Uploading a batch again changes no row and no index entry, and of the
sessions only those that it clears. -/
theorem replayed (h : Aligned bincode db) (hd : ∀ e∈batch, e.Delimitable) {db1 db2 : Db}
    (hup : UpsertEvents bincode db batch db1) (hup2 : UpsertEvents bincode db1 batch db2)
    (name : KeyspaceName) (k : Bytes) : (db2 name)[k]?=(db1 name)[k]? ∨
      ∃ w∈winners batch, Lands db w ∧ w.session="" ∧ name=.sessions ∧ k=w.eventKey ∧
        (db2 name)[k]?=none := by
  have h1 : Aligned bincode db1 := by
    rw [UpsertEvents.eq_upsertAll h hd hup]
    exact aligned_upsertAll h fun e he => hd e (mem_of_mem_winners he)
  by_cases hlane : ∃ w∈winners batch, InLane w.idxKey (name,k)
  · obtain ⟨w,hw,hlane⟩ := hlane
    rw [get_upserted_of_inLane h1 hd hup2 hw hlane]
    by_cases hlands : Lands db w
    · have hlanded := landed_of_lands h hd hup hw hlands
      have huser : oldUser bincode db1 w=w.userId := by
        rw [oldUser,hlanded.pointer,Option.elim_some,rowUser,hlanded.row,Option.bind_some,
          decodeEvent_encodeEvent,Option.elim_some]
      have hcopy : (db1 .idxUser)[userIdxKey w.userId w.eventKey]?=
          some (encodeEvent bincode w) := by
        have hlane : InLane w.idxKey (.idxUser,userIdxKey w.userId w.eventKey) :=
          ⟨w.userId,w.tsMs,(hd w (mem_of_mem_winners hw)).2,by rw [eventKey_eq_rowKey]⟩
        rw [get_upserted_of_inLane h hd hup hw hlane,upsertOne_of_lands hlands,
          get_replaceRow_idxUser,if_pos rfl]
      rw [upsertOne_of_lands hlanded.lands,hlanded.pointer,huser]
      cases name with
      | events =>
        left
        rw [get_replaceRow_events]
        split_ifs with hk hold
        · rw [hk,hlanded.row]
        · rw [Option.some.injEq] at hold
          exact absurd hold.symm hk
        · rfl
      | idxMsg =>
        left
        rw [get_replaceRow_idxMsg]
        split_ifs with hk
        · rw [hk,hlanded.pointer]
        · rfl
      | idxUser =>
        left
        rw [get_replaceRow_idxUser]
        split_ifs with hk hold
        · rw [hk,hcopy]
        · obtain ⟨row,hrow,hkr⟩ := hold
          rw [Option.some.injEq] at hrow
          rw [←hrow] at hkr
          exact absurd hkr hk
        · rfl
      | sessions =>
        rw [get_replaceRow_sessions]
        by_cases hk : k=w.eventKey
        · by_cases hsession : w.session=""
          · right
            refine ⟨w,hw,hlands,hsession,rfl,hk,?_⟩
            rw [if_neg fun hs => hs.2 hsession,if_pos (by rw [hk])]
          · left
            rw [if_pos ⟨hk,hsession⟩,hk,hlanded.session,if_pos hsession]
        · left
          rw [if_neg fun hs => hk hs.1,if_neg]
          intro hold
          rw [Option.some.injEq] at hold
          exact hk hold.symm
      | windows => exact absurd hlane id
    · left
      have hpointer : (db1 .idxMsg)[w.idxKey]?=(db .idxMsg)[w.idxKey]? := by
        have hlane : InLane w.idxKey (.idxMsg,w.idxKey) := rfl
        rw [get_upserted_of_inLane h hd hup hw hlane,upsertOne_of_not_lands hlands,commit_nil]
      have hskips : ¬Lands db1 w := by
        intro hlands1
        refine hlands fun row hrow => hlands1 row ?_
        rw [hpointer,hrow]
      rw [upsertOne_of_not_lands hskips,commit_nil]
  · left
    exact get_upserted_of_other h1 hd hup2 hlane

/-- Without a session to clear, uploading again changes nothing that a query
reads. -/
theorem readAlike_replayed (h : Aligned bincode db) (hd : ∀ e∈batch, e.Delimitable)
    {db1 db2 : Db} (hup : UpsertEvents bincode db batch db1)
    (hup2 : UpsertEvents bincode db1 batch db2)
    (hclear : ∀ w∈winners batch, Retains db w → w.tsMs=Int64.maxValue) : ReadAlike db2 db1 := by
  constructor
  · refine Std.ExtTreeMap.ext_getElem? fun k => ?_
    rcases replayed h hd hup hup2 .events k with heq | ⟨w,-,-,-,hname,-⟩
    · exact heq
    · cases hname
  · refine Std.ExtTreeMap.ext_getElem? fun k => ?_
    rcases replayed h hd hup hup2 .idxUser k with heq | ⟨w,-,-,-,hname,-⟩
    · exact heq
    · cases hname
  · intro k hk
    rcases replayed h hd hup hup2 .sessions k with heq | ⟨w,hw,hlands,hs,-,hkw,hnone⟩
    · rw [loadSession,loadSession,heq]
    · have hgone : loadSession db2 k="" := by
        rw [loadSession,hnone]
        rfl
      have hread := (landed_of_lands h hd hup hw hlands).loadSession
      rw [hgone,hkw,hread,if_neg fun hne => hne hs]
      split_ifs with hpointer
      · rfl
      · by_contra hkept
        refine hk ?_
        rw [hkw,fromBeBytes_eventKey]
        exact hclear w hw ⟨hlands,hs,hpointer,Ne.symm hkept⟩

/-- A winner behind a newer row leaves the pointer on that row. -/
theorem pointed_of_not_lands (h : Aligned bincode db) (hd : ∀ e∈batch, e.Delimitable)
    (hup : UpsertEvents bincode db batch db') {w : ServerEvent} (hw : w∈winners batch)
    (hlands : ¬Lands db w) : ∃ stored, Pointed bincode db' w.idxKey stored ∧ w.tsMs< stored.tsMs := by
  have hcell : ∀ {name : KeyspaceName} {k : Bytes}, InLane w.idxKey (name,k) →
      (db' name)[k]?=(db name)[k]? := by
    intro name k hlane
    rw [get_upserted_of_inLane h hd hup hw hlane,upsertOne_of_not_lands hlands,commit_nil]
  unfold Lands at hlands
  push Not at hlands
  obtain ⟨row,hrow,hlt⟩ := hlands
  obtain ⟨v,e,hv,he,hek,hre,-⟩ := h.predecessor hrow
  have hts : rowTs row=e.tsMs := by
    rw [hre,rowTs,if_pos (eventKey_length e),fromBeBytes_eventKey]
  have hlane : InLane w.idxKey (.idxMsg,w.idxKey) := rfl
  have hlane' : InLane w.idxKey (.events,row) := by
    rw [hre,←hek]
    exact eventKey_inLane e (Or.inl rfl)
  refine ⟨{e with session := FjallStore.loadSession db' row},
    ⟨row,v,e,(hcell hlane).trans hrow,(hcell hlane').trans hv,he,rfl⟩,?_⟩
  rw [hts] at hlt
  exact hlt

/-- A winner that lands is what its pointer names. -/
theorem Landed.pointed_iff {w stored : ServerEvent} (h : Landed bincode db db' w) :
    Pointed bincode db' w.idxKey stored ↔
      stored={w with session := FjallStore.loadSession db' w.eventKey} := by
  constructor
  · rintro ⟨k,v,e,hk,hv,he,rfl⟩
    rw [h.pointer,Option.some.injEq] at hk
    rw [←hk,h.row,Option.some.injEq] at hv
    rw [←hv,decodeEvent_encodeEvent,Option.some.injEq] at he
    rw [←he,←hk]
  · rintro rfl
    exact ⟨_,_,_,h.pointer,h.row,decodeEvent_encodeEvent bincode w,rfl⟩

/-- A batch whose winners clear no session that is not their own is stored
whole. -/
theorem storedWhole_upserted (h : Aligned bincode db) (hd : ∀ e∈batch, e.Delimitable)
    (hup : UpsertEvents bincode db batch db')
    (hkept : ∀ w∈winners batch, Retains db w →
      {w with session := FjallStore.loadSession db w.eventKey}∈batch) :
    StoredWhole bincode db' batch := by
  intro x hx
  obtain ⟨w,hw,hwx,-⟩ := exists_winner hx
  obtain ⟨hmem,hmax⟩ := winner_newest hw
  rw [←hwx]
  by_cases hlands : Lands db w
  · have hlanded := landed_of_lands h hd hup hw hlands
    refine ⟨_,hlanded.pointed_iff.mpr rfl,Or.inl ⟨?_,rfl,hmax⟩⟩
    have hread := hlanded.loadSession
    by_cases hs : w.session=""
    · rw [if_neg fun hne => hne hs] at hread
      by_cases hclean : (db .idxMsg)[w.idxKey]?=some w.eventKey ∨
          FjallStore.loadSession db w.eventKey=""
      · have hempty : FjallStore.loadSession db' w.eventKey=w.session := by
          rw [hread,hs]
          rcases hclean with hpointer | hnone
          · rw [if_pos hpointer]
          · rw [hnone,ite_self]
        rw [hempty]
        exact hmem
      · push Not at hclean
        rw [if_neg hclean.1] at hread
        rw [hread]
        exact hkept w hw ⟨hlands,hs,hclean.1,hclean.2⟩
    · rw [if_pos hs] at hread
      rw [hread]
      exact hmem
  · obtain ⟨stored,hpointed,hlt⟩ := pointed_of_not_lands h hd hup hw hlands
    exact ⟨stored,hpointed,Or.inr fun y hy hyw => (hmax y hy hyw).trans_lt hlt⟩

end

end

/-- Uploading the batch twice answers every query as uploading it once, and
the batch is stored whole. -/
def ReplaysWhole (bincode : Codec PersistedEvent) (db : Db) (batch : List ServerEvent) : Prop :=
  ∀ db1, UpsertEvents bincode db batch db1 →
    (∀ db2, UpsertEvents bincode db1 batch db2 →
      ∀ (sinceMs untilMs : Int64) (filter : UserFilter) (limit : ℕ),
        queryEvents bincode db2 sinceMs untilMs filter limit=
          queryEvents bincode db1 sinceMs untilMs filter limit) ∧
    StoredWhole bincode db1 batch

/-- A stored event has the session of its row. -/
theorem session_of_mem_storedEvents {bincode : Codec PersistedEvent} {db : Db}
    (h : Aligned bincode db) {e : ServerEvent} (he : e∈storedEvents bincode db) :
    e.session=loadSession db e.eventKey := by
  obtain ⟨kv,hkv,he⟩ := List.mem_filterMap.mp he
  obtain ⟨x,hx,hk⟩ := storedRow_eq h hkv
  rw [he,Option.some.injEq] at hx
  rw [storedRow,Option.map_eq_some_iff] at he
  obtain ⟨y,-,hy⟩ := he
  rw [hx,←hk,←hx,←hy]

/-- Stores that answer every query alike find the same events of every range
when there is no limit. -/
theorem fullQuery_eq_of_queries {bincode : Codec PersistedEvent} {db db' : Db}
    (h : Aligned bincode db) (hi : Indexed bincode db) (h' : Aligned bincode db')
    (hi' : Indexed bincode db')
    (hsame : ∀ (sinceMs untilMs : Int64) (filter : UserFilter) (limit : ℕ),
      queryEvents bincode db sinceMs untilMs filter limit=
        queryEvents bincode db' sinceMs untilMs filter limit) {sinceMs untilMs : Int64}
    {filter : UserFilter} (hf : UserFilter.Delimitable filter) :
    fullQuery bincode db sinceMs untilMs filter=fullQuery bincode db' sinceMs untilMs filter := by
  let limit := (fullQuery bincode db sinceMs untilMs filter).length+
    (fullQuery bincode db' sinceMs untilMs filter).length+1
  have hlimit : 0<limit := Nat.succ_pos _
  have hsame := hsame sinceMs untilMs filter limit
  rw [queryEvents_eq h hi _ _ hf hlimit,queryEvents_eq h' hi' _ _ hf hlimit,
    List.take_of_length_le (by omega),List.take_of_length_le (by omega)] at hsame
  exact hsame

/-- A stored event is found in the range from its own time to the last one. -/
theorem mem_allScan_of_stored {bincode : Codec PersistedEvent} {db : Db} (h : Aligned bincode db)
    {e : ServerEvent} (he : e∈storedEvents bincode db) (hts : e.tsMs≠Int64.maxValue) :
    e∈allScan bincode db e.tsMs Int64.maxValue := by
  refine (mem_allScan h _ _).mpr
    ⟨he,le_rfl,lt_of_le_of_ne (Int64.le_maxValue _) hts,fun hneg x _ hle hpos => ?_⟩
  rcases unsigned_le_iff.mp hle with ⟨hsign,-⟩ | ⟨hsign,-⟩
  · exact absurd hsign (not_le.mpr hneg)
  · exact absurd (hsign.mpr hpos) (not_le.mpr hneg)

/-- Replaying a batch is harmless and stores it whole precisely when no leading
event of it keeps a foreign session, unless its time is beyond every range and
the batch itself has the event with that session. -/
theorem replaysWhole_iff (bincode : Codec PersistedEvent) {history : List StoreOp} {db : Db}
    (run : Run (StoreStep bincode) emptyDb history db) (hops : ∀ op∈history, op.Delimitable)
    {batch : List ServerEvent} (hd : ∀ e∈batch, e.Delimitable) :
    ReplaysWhole bincode db batch ↔
      ∀ event, Leads batch event → Retains db event → event.tsMs=Int64.maxValue ∧
        {event with session := loadSession db event.eventKey}∈batch := by
  obtain ⟨h,hi⟩ := Indexed.of_run run hops
  simp only [←mem_winners_iff_leads]
  constructor
  · intro hwhole w hw hretains
    have hup : UpsertEvents bincode db batch (upsertEvents bincode db batch) := ⟨_,.refl _,rfl⟩
    generalize upsertEvents bincode db batch=db1 at hup
    have hup2 : UpsertEvents bincode db1 batch (upsertEvents bincode db1 batch) := ⟨_,.refl _,rfl⟩
    generalize upsertEvents bincode db1 batch=db2 at hup2
    obtain ⟨hquery,hstored⟩ := hwhole db1 hup
    obtain ⟨hlands,hs,hpointer,hsession⟩ := hretains
    obtain ⟨hmem,-⟩ := winner_newest hw
    have hlanded := landed_of_lands h hd hup hw hlands
    have hread := hlanded.loadSession
    rw [if_neg fun hne => hne hs,if_neg hpointer] at hread
    constructor
    · by_contra hts
      -- The first upload shows the old session in the range of the event's own time.
      have hrun1 : Run (StoreStep bincode) emptyDb (.upsert batch::history) db1 := .next _ run hup
      have hrun2 : Run (StoreStep bincode) emptyDb (.upsert batch::.upsert batch::history) db2 :=
        .next _ hrun1 hup2
      have hops1 : ∀ op∈.upsert batch::history, op.Delimitable := List.forall_mem_cons.mpr ⟨hd,hops⟩
      obtain ⟨h1,hi1⟩ := Indexed.of_run hrun1 hops1
      obtain ⟨h2,hi2⟩ := Indexed.of_run hrun2 (List.forall_mem_cons.mpr ⟨hd,hops1⟩)
      have hrow : {w with session := loadSession db w.eventKey}∈storedEvents bincode db1 := by
        refine List.mem_filterMap.mpr ⟨(w.eventKey,encodeEvent bincode w),
          Std.ExtTreeMap.mem_toList_iff_getElem?_eq_some.mpr hlanded.row,?_⟩
        rw [storedRow,decodeEvent_encodeEvent,Option.map_some,hread]
      have hfound := mem_allScan_of_stored h1 hrow hts
      -- The second upload has cleared it.
      have hall : UserFilter.Delimitable .all := trivial
      have hscan : allScan bincode db2 w.tsMs Int64.maxValue=
          allScan bincode db1 w.tsMs Int64.maxValue :=
        fullQuery_eq_of_queries h2 hi2 h1 hi1 (hquery db2 hup2) hall
      rw [←hscan] at hfound
      have hsaved := session_of_mem_storedEvents h2 ((mem_allScan h2 _ _).mp hfound).1
      have hcleared := (landed_of_lands h1 hd hup2 hw hlanded.lands).loadSession
      rw [if_neg fun hne => hne hs,if_pos hlanded.pointer] at hcleared
      exact hsession (hsaved.trans hcleared)
    · obtain ⟨stored,hpointed,hor⟩ := hstored w hmem
      have heq := hlanded.pointed_iff.mp hpointed
      rw [hread] at heq
      rcases hor with ⟨hin,-⟩ | hgt
      · rw [←heq]
        exact hin
      · have hgt := hgt w hmem rfl
        rw [heq] at hgt
        exact absurd hgt (lt_irrefl _)
  · intro hcond db1 hup
    refine ⟨fun db2 hup2 sinceMs untilMs filter limit => ?_,?_⟩
    · have halike := readAlike_replayed h hd hup hup2 fun w hw hr => (hcond w hw hr).1
      exact halike.queryEvents sinceMs untilMs filter limit
    · exact storedWhole_upserted h hd hup fun w hw hr => (hcond w hw hr).2

/-- A stored event with a session, whose pointer was pruned. -/
def prunedDb : Db :=
  cleanupOldDedup (upsertEvents eventLayout.codec emptyDb [sampleEvent 5 "s"]) "d1" 6

/-- The event without its session is read with the old one after the first
upload and without it after the second. -/
theorem replay_clears_session : ¬∀ (history : List StoreOp) (db : Db),
    Run (StoreStep eventLayout.codec) emptyDb history db → (∀ op∈history, op.Delimitable) →
    ∀ batch : List ServerEvent, (∀ e∈batch, e.Delimitable) →
      ReplaysWhole eventLayout.codec db batch := by
  intro h
  have run : Run (StoreStep eventLayout.codec) emptyDb
      [.cleanup "d1" 6,.upsert [sampleEvent 5 "s"]] prunedDb :=
    .next _ (.next _ .start ⟨_,.refl _,rfl⟩) rfl
  obtain ⟨hquery,-⟩ := h _ _ run (by decide) [sampleEvent 5 ""] (by decide) _ ⟨_,.refl _,rfl⟩
  have hsame := congrArg (List.map ServerEvent.session)
    (hquery _ ⟨_,.refl _,rfl⟩ 0 100 .all 1)
  have hdiffer : (queryEvents eventLayout.codec (upsertEvents eventLayout.codec
        (upsertEvents eventLayout.codec prunedDb [sampleEvent 5 ""]) [sampleEvent 5 ""])
        0 100 .all 1).map ServerEvent.session≠
      (queryEvents eventLayout.codec (upsertEvents eventLayout.codec prunedDb [sampleEvent 5 ""])
        0 100 .all 1).map ServerEvent.session := by
    decide +kernel
  exact hdiffer hsame

/-- A newer event with a session is stored whole in the sample store. -/
theorem replaysWhole_sample : ReplaysWhole eventLayout.codec sampleDb [sampleEvent 6 "t"] := by
  have run : Run (StoreStep eventLayout.codec) emptyDb sampleHistory sampleDb :=
    .next _ (.next _ (.next _ .start ⟨_,.refl _,rfl⟩) rfl) ⟨_,.refl _,rfl⟩
  refine (replaysWhole_iff eventLayout.codec run (by decide) (by decide)).mpr fun event hleads hr => ?_
  have hmem := List.mem_of_find?_eq_some hleads
  rw [List.mem_singleton] at hmem
  rw [hmem] at hr
  exact absurd hr.2.1 (by decide)

end TokiSync.FjallReplays
