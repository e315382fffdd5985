import TokiSync.FjallReplays

/-!
# Entries of former owners

A device may change its user between two uploads. An upsert removes the index
entry of the row its pointer names, under the owner of that row. When the
pointer was pruned and the event comes again with its old time, its row is
overwritten in place and the entry of the former owner stays. Nothing else
leaves an entry whose row is gone or belongs to another user.
-/

namespace TokiSync.IndexOwners

open MachineWords ByteKeys ByteCodec ServerEvents FjallStore FjallCoherence
open FjallBatches FjallRuns FjallIndex FjallQueries FjallReplays Runs

/-- Every entry of the per-user index belongs to the user of the current row
with the same event key. -/
def EntriesOwned (bincode : Codec PersistedEvent) (db : Db) : Prop :=
  ∀ x v : Bytes, (db .idxUser)[x]?=some v → ∃ (k w : Bytes) (e : ServerEvent),
    (db .events)[k]?=some w ∧ decodeEvent bincode w=some e ∧ x=userIdxKey e.userId k

/-- What users are served belongs to them. -/
structure NoPhantoms (bincode : Codec PersistedEvent) (db : Db) : Prop where
  /-- Entries belong to the owners of the rows. -/
  entries : EntriesOwned bincode db
  /-- An event that a user is served has a row, and the row is the user's. -/
  served : ∀ (uid : String) (sinceMs untilMs : Int64) (limit : ℕ), NulFree (utf8 uid) →
    ∀ e∈queryEvents bincode db sinceMs untilMs (.single uid) limit, ∃ (w : Bytes) (r : ServerEvent),
      (db .events)[e.eventKey]?=some w ∧ decodeEvent bincode w=some r ∧ r.userId=uid
  /-- No event is served to two users. -/
  oneUser : ∀ (uid uid' : String) (sinceMs untilMs sinceMs' untilMs' : Int64) (limit limit' : ℕ),
    NulFree (utf8 uid) → NulFree (utf8 uid') →
    ∀ e∈queryEvents bincode db sinceMs untilMs (.single uid) limit,
      ∀ e'∈queryEvents bincode db sinceMs' untilMs' (.single uid') limit',
        e.eventKey=e'.eventKey → uid=uid'

/-- Rows and entries sit under their keys, and the entries belong to the owners
of the rows. -/
structure OwnedIndex (bincode : Codec PersistedEvent) (db : Db) : Prop where
  /-- Rows and pointers are under their keys. -/
  aligned : Aligned bincode db
  /-- Rows are copied, and entries are under their keys. -/
  indexed : Indexed bincode db
  /-- Entries belong to the owners of the rows. -/
  entries : EntriesOwned bincode db

/-- An upsert of the event overwrites a row of another user that its pointer
does not name. -/
def Strands (bincode : Codec PersistedEvent) (db : Db) (event : ServerEvent) : Prop :=
  Lands db event ∧ (db .idxMsg)[event.idxKey]?≠some event.eventKey ∧
    ∃ (w : Bytes) (e : ServerEvent), (db .events)[event.eventKey]?=some w ∧
      decodeEvent bincode w=some e ∧ e.userId≠event.userId

/-- No leading event of an upserted batch overwrites a row of another user that
its pointer does not name. -/
def OwnersKept (bincode : Codec PersistedEvent) (db : Db) : StoreOp → Prop
  | .upsert events => ∀ event, Leads events event → ¬Strands bincode db event
  | .cleanup _ _ => True
  | .delete _ => True

section

variable {bincode : Codec PersistedEvent} {db db' : Db} {batch : List ServerEvent}

/-- A row and its index entry are in the same lane. -/
theorem inLane_entry_iff {dedup k : Bytes} {user : String} (hu : NulFree (utf8 user)) :
    InLane dedup (.idxUser,userIdxKey user k) ↔ InLane dedup (.events,k) := by
  constructor
  · rintro ⟨user',t,hu',hkey⟩
    exact ⟨t,((userIdxKey_inj hu hu').mp hkey).2⟩
  · rintro ⟨t,rfl⟩
    exact ⟨user,t,hu,rfl⟩

/-- An upsert keeps the entries with the owners of the rows when it strands
none. -/
theorem EntriesOwned.upserted (ho : EntriesOwned bincode db) (h : Aligned bincode db)
    (hd : ∀ e∈batch, e.Delimitable) (hup : UpsertEvents bincode db batch db')
    (hkept : ∀ w∈winners batch, ¬Strands bincode db w) : EntriesOwned bincode db' := by
  intro x v hv
  by_cases hlane : ∃ w∈winners batch, InLane w.idxKey (.idxUser,x)
  · obtain ⟨w,hw,hlane⟩ := hlane
    rw [get_upserted_of_inLane h hd hup hw hlane] at hv
    by_cases hlands : Lands db w
    · have hlanded := landed_of_lands h hd hup hw hlands
      rw [upsertOne_of_lands hlands,get_replaceRow_idxUser] at hv
      split_ifs at hv with hx hold
      · exact ⟨w.eventKey,_,_,hlanded.row,decodeEvent_encodeEvent bincode w,hx⟩
      · obtain ⟨k,r,e,hr,he,rfl⟩ := ho x v hv
        obtain ⟨-,hed⟩ := h.of_decode hr he
        have hpointer : (db .idxMsg)[w.idxKey]?≠some k := by
          intro hrow
          obtain ⟨r',e',hr',he',-,-,-,hold'⟩ := h.predecessor hrow
          rw [hr,Option.some.injEq] at hr'
          rw [←hr',he,Option.some.injEq] at he'
          exact hold ⟨k,hrow,by rw [hold',he']⟩
        have hother : k≠w.eventKey := by
          rintro rfl
          exact hkept w hw ⟨hlands,hpointer,r,e,hr,he,fun hu => hx (by rw [hu])⟩
        refine ⟨k,r,e,?_,he,rfl⟩
        rw [get_upserted_of_inLane h hd hup hw ((inLane_entry_iff hed.2).mp hlane),
          upsertOne_of_lands hlands,get_replaceRow_events,if_neg hother,if_neg hpointer,hr]
    · rw [upsertOne_of_not_lands hlands] at hv
      obtain ⟨k,r,e,hr,he,rfl⟩ := ho x v hv
      obtain ⟨-,hed⟩ := h.of_decode hr he
      refine ⟨k,r,e,?_,he,rfl⟩
      rw [get_upserted_of_inLane h hd hup hw ((inLane_entry_iff hed.2).mp hlane),
        upsertOne_of_not_lands hlands]
      exact hr
  · rw [get_upserted_of_other h hd hup hlane] at hv
    obtain ⟨k,r,e,hr,he,rfl⟩ := ho x v hv
    obtain ⟨-,hed⟩ := h.of_decode hr he
    refine ⟨k,r,e,?_,he,rfl⟩
    rw [get_upserted_of_other h hd hup,hr]
    rintro ⟨w,hw,hrow⟩
    exact hlane ⟨w,hw,(inLane_entry_iff hed.2).mpr hrow⟩

/-- An upsert that strands an entry leaves it without its row. -/
theorem EntriesOwned.not_strands (ho : EntriesOwned bincode db') (h : Aligned bincode db)
    (h' : Aligned bincode db') (hc : Copied bincode db) (hd : ∀ e∈batch, e.Delimitable)
    (hup : UpsertEvents bincode db batch db') {w : ServerEvent} (hw : w∈winners batch) :
    ¬Strands bincode db w := by
  rintro ⟨hlands,hpointer,r,e,hr,he,huser⟩
  have hlanded := landed_of_lands h hd hup hw hlands
  have hwd := hd w (mem_of_mem_winners hw)
  obtain ⟨-,hed⟩ := h.of_decode hr he
  have hlane : InLane w.idxKey (.idxUser,userIdxKey e.userId w.eventKey) :=
    (inLane_entry_iff hed.2).mpr (eventKey_inLane w (Or.inl rfl))
  have hstays : (db' .idxUser)[userIdxKey e.userId w.eventKey]?=some r := by
    rw [get_upserted_of_inLane h hd hup hw hlane,upsertOne_of_lands hlands,
      get_replaceRow_idxUser,if_neg,if_neg,hc _ _ _ hr he]
    · rintro ⟨row,hrow,hkey⟩
      obtain ⟨-,e',-,-,-,-,hed',hold⟩ := h.predecessor hrow
      rw [hold,userIdxKey_inj hed.2 hed'.2] at hkey
      rw [hkey.2] at hpointer
      exact hpointer hrow
    · rw [userIdxKey_inj hed.2 hwd.2]
      exact fun hkey => huser hkey.1
  obtain ⟨k,r',e',hr',he',hkey⟩ := ho _ _ hstays
  obtain ⟨-,hed'⟩ := h'.of_decode hr' he'
  obtain ⟨hsame,rfl⟩ := (userIdxKey_inj hed.2 hed'.2).mp hkey
  rw [hlanded.row,Option.some.injEq] at hr'
  rw [←hr',decodeEvent_encodeEvent,Option.some.injEq] at he'
  rw [←he'] at hsame
  exact huser hsame

/-- A mutation keeps the entries with the owners of the rows exactly when it
strands none. -/
theorem entriesOwned_step_iff (ho : EntriesOwned bincode db) (h : Aligned bincode db)
    (hi : Indexed bincode db) {op : StoreOp} (hd : op.Delimitable)
    (hstep : StoreStep bincode db op db') :
    EntriesOwned bincode db' ↔ OwnersKept bincode db op := by
  cases op with
  | upsert events =>
    obtain ⟨h',-⟩ := hi.step h hd hstep
    constructor
    · intro ho' event hleads
      exact ho'.not_strands h h' hi.copied hd hstep (mem_winners_iff_leads.mpr hleads)
    · intro hkept
      exact ho.upserted h hd hstep fun w hw => hkept w (mem_winners_iff_leads.mp hw)
  | cleanup deviceId cutoffMs =>
    cases hstep
    refine iff_of_true (fun x v hv => ?_) trivial
    rw [get_cleanupOldDedup_of_ne _ _ _ (by decide)] at hv
    obtain ⟨k,w,e,hw,he,hx⟩ := ho x v hv
    exact ⟨k,w,e,by rwa [get_cleanupOldDedup_of_ne _ _ _ (by decide)],he,hx⟩
  | delete deviceId =>
    cases hstep
    refine iff_of_true (fun x v hv => ?_) trivial
    obtain ⟨hv,hkeep⟩ := (get_deleteDeviceEvents _ _ _ _ _).mp hv
    obtain ⟨k,w,e,hw,he,hx⟩ := ho x v hv
    refine ⟨k,w,e,get_deleteDeviceEvents_events.mpr ⟨hw,fun y hy hdev => ?_⟩,he,hx⟩
    rw [he,Option.some.injEq] at hy
    rw [←hy] at hdev
    exact hkeep (Or.inl ⟨k,w,e,hw,he,hdev,Or.inl (by rw [hx])⟩)

/-- What the scan of a user's index returns comes from its entries. -/
theorem mem_scanUserEventsLoop {userId : String} {sinceMs untilMs : Int64} {limit : ℕ}
    {rows : List (Bytes×Bytes)} {results : List ServerEvent} {e : ServerEvent}
    (he : e∈scanUserEventsLoop bincode db (delimited (utf8 userId)).length sinceMs untilMs limit
      rows results) : e∈results ∨ ∃ kv∈rows, indexedRow bincode db userId kv=some e := by
  induction rows generalizing results with
  | nil => exact Or.inl he
  | cons kv rows ih =>
    have hlater : ∀ results', e∈scanUserEventsLoop bincode db (delimited (utf8 userId)).length
        sinceMs untilMs limit rows results' → e∈results' ∨ ∃ x∈kv::rows,
          indexedRow bincode db userId x=some e := by
      intro results' he
      rcases ih he with hin | ⟨x,hx,hrow⟩
      · exact Or.inl hin
      · exact Or.inr ⟨x,List.mem_cons_of_mem _ hx,hrow⟩
    rw [scanUserEventsLoop] at he
    dsimp only at he
    split_ifs at he with hshort hend hsince
    · exact hlater _ he
    · exact Or.inl he
    · exact hlater _ he
    · cases hdec : decodeEvent bincode kv.2 with
      | none =>
        rw [hdec] at he
        exact hlater _ he
      | some y =>
        rw [hdec] at he
        dsimp only at he
        have hfound : ∀ found, indexedRow bincode db userId kv=some found → e∈results++[found] →
            e∈results ∨ ∃ x∈kv::rows, indexedRow bincode db userId x=some e := by
          intro found hrow he
          refine (List.mem_append.mp he).imp_right fun he => ⟨kv,List.mem_cons_self,?_⟩
          rw [List.mem_singleton.mp he,hrow]
        have hrow := congrArg (Option.map fun e : ServerEvent => {e with
          session := loadSession db (kv.1.drop (delimited (utf8 userId)).length)}) hdec
        split_ifs at he
        · exact hfound _ hrow he
        · rcases hlater _ he with hin | hlater
          · exact hfound _ hrow hin
          · exact Or.inr hlater

/-- With entries at the owners of the rows every user is served events of the
own rows. -/
theorem EntriesOwned.served (ho : EntriesOwned bincode db) (h : Aligned bincode db)
    (hi : Indexed bincode db) {uid : String} {sinceMs untilMs : Int64} {limit : ℕ}
    (hu : NulFree (utf8 uid)) {e : ServerEvent}
    (he : e∈queryEvents bincode db sinceMs untilMs (.single uid) limit) :
    ∃ (w : Bytes) (r : ServerEvent), (db .events)[e.eventKey]?=some w ∧
      decodeEvent bincode w=some r ∧ r.userId=uid := by
  rcases mem_scanUserEventsLoop he with hnone | ⟨kv,hkv,hrow⟩
  · cases hnone
  · obtain ⟨y,hy,hkey,-⟩ := indexedRow_eq hi hu hkv
    rw [hy,Option.some.injEq] at hrow
    subst hrow
    have hv := Std.ExtTreeMap.mem_toList_iff_getElem?_eq_some.mp (List.mem_of_mem_filter hkv)
    obtain ⟨k,w,r,hw,hr,hxr⟩ := ho kv.1 kv.2 hv
    obtain ⟨-,hrd⟩ := h.of_decode hw hr
    rw [hkey] at hxr
    obtain ⟨huser,rfl⟩ := (userIdxKey_inj hu hrd.2).mp hxr
    exact ⟨w,r,hw,hr,huser.symm⟩

/-- With entries at the owners of the rows there are no phantoms. -/
theorem EntriesOwned.noPhantoms (ho : EntriesOwned bincode db) (h : Aligned bincode db)
    (hi : Indexed bincode db) : NoPhantoms bincode db where
  entries := ho
  served _ _ _ _ hu _ he := ho.served h hi hu he
  oneUser uid uid' _ _ _ _ _ _ hu hu' e he e' he' hkey := by
    obtain ⟨w,r,hw,hr,huser⟩ := ho.served h hi hu he
    obtain ⟨w',r',hw',hr',huser'⟩ := ho.served h hi hu' he'
    rw [hkey,hw',Option.some.injEq] at hw
    rw [←hw,hr',Option.some.injEq] at hr
    rw [←huser,←huser',hr]

/-- The index of an empty store is owned. -/
theorem ownedIndex_emptyDb : OwnedIndex bincode emptyDb := by
  obtain ⟨h,hi⟩ : Aligned bincode emptyDb ∧ Indexed bincode emptyDb :=
    Indexed.of_run .start fun op hop => absurd hop List.not_mem_nil
  refine ⟨h,hi,fun x v hv => ?_⟩
  rw [emptyDb,BatchedMaps.get_emptyMaps] at hv
  cases hv

/-- Delimiter-free ids in all mutations. -/
abbrev Delimited (history : List StoreOp) : Prop := ∀ op∈history, op.Delimitable

/-- The runs without phantoms in any state are those in which no mutation
strands an entry. -/
theorem noPhantoms_run {history : List StoreOp} (hd : Delimited history) :
    Run (fun s op t => StoreStep bincode s op t ∧ NoPhantoms bincode t) emptyDb history db ↔
      Run (fun s op t => StoreStep bincode s op t ∧ OwnersKept bincode s op) emptyDb history
        db := by
  constructor
  · intro run
    refine (Run.change_guard (A:=Delimited) (I:=OwnedIndex bincode) forall_mem_tail
      ownedIndex_emptyDb ?_ hd run).2
    intro past s op t hd hs hstep hgood
    have hop := hd op List.mem_cons_self
    obtain ⟨h,hi⟩ := hs.indexed.step hs.aligned hop hstep
    have hiff := entriesOwned_step_iff hs.entries hs.aligned hs.indexed hop hstep
    exact ⟨hiff.mp hgood.entries,h,hi,hgood.entries⟩
  · intro run
    refine (Run.change_guard (A:=Delimited) (I:=OwnedIndex bincode) forall_mem_tail
      ownedIndex_emptyDb ?_ hd run).2
    intro past s op t hd hs hstep hkept
    have hop := hd op List.mem_cons_self
    obtain ⟨h,hi⟩ := hs.indexed.step hs.aligned hop hstep
    have ho := (entriesOwned_step_iff hs.entries hs.aligned hs.indexed hop hstep).mpr hkept
    exact ⟨ho.noPhantoms h hi,h,hi,ho⟩

end

/-- The runs of the sample history. -/
theorem noPhantoms_run_sample :
    Run (fun s op t => StoreStep eventLayout.codec s op t ∧ NoPhantoms eventLayout.codec t) emptyDb
        sampleHistory sampleDb ↔
      Run (fun s op t => StoreStep eventLayout.codec s op t ∧ OwnersKept eventLayout.codec s op)
        emptyDb sampleHistory sampleDb :=
  noPhantoms_run (by decide)

/-- The sample event after its device was given to another user. -/
def reassignedEvent : ServerEvent := {sampleEvent 5 "" with userId := "u2"}

/-- An upload, a pruning, and an upload of the same event for another user. -/
def reassignedHistory : List StoreOp :=
  [.upsert [reassignedEvent],.cleanup "d1" 6,.upsert [sampleEvent 5 ""]]

/-- State after the uploads for two users. -/
def reassignedDb : Db :=
  upsertEvents eventLayout.codec (cleanupOldDedup (upsertEvents eventLayout.codec emptyDb
    [sampleEvent 5 ""]) "d1" 6) [reassignedEvent]

/-- The former owner is still served the event. -/
theorem reassigned_phantom : ¬∀ (history : List StoreOp) (db : Db),
    Run (StoreStep eventLayout.codec) emptyDb history db → (∀ op∈history, op.Delimitable) →
      NoPhantoms eventLayout.codec db := by
  intro hall
  have run : Run (StoreStep eventLayout.codec) emptyDb reassignedHistory reassignedDb :=
    .next _ (.next _ (.next _ .start ⟨_,.refl _,rfl⟩) rfl) ⟨_,.refl _,rfl⟩
  have hgood := hall _ _ run (by decide)
  have hformer : (queryEvents eventLayout.codec reassignedDb 0 100 (.single "u1") 1).map
      ServerEvent.eventKey=[reassignedEvent.eventKey] := by decide +kernel
  have howner : (queryEvents eventLayout.codec reassignedDb 0 100 (.single "u2") 1).map
      ServerEvent.eventKey=[reassignedEvent.eventKey] := by decide +kernel
  obtain ⟨e,he,hkey⟩ := List.mem_map.mp (hformer ▸ List.mem_singleton_self _)
  obtain ⟨e',he',hkey'⟩ := List.mem_map.mp (howner ▸ List.mem_singleton_self _)
  have hsame := hgood.oneUser "u1" "u2" 0 100 0 100 1 1 (by decide) (by decide) e he e' he'
    (hkey.trans hkey'.symm)
  exact absurd hsame (by decide)

end TokiSync.IndexOwners
