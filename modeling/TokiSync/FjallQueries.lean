import TokiSync.FjallIndex

/-!
# Range queries of the embedded store

The scans seek and stop by the big-endian bytes of a signed time, which sort
negative times after the others. A query under no limit is exact precisely
when this order does not separate the requested range from where the scan
starts and stops, and when no entry of the per-user index in the range has
lost its row.
-/

namespace TokiSync.FjallQueries

open MachineWords ByteKeys ByteCodec BatchedMaps ServerEvents FjallStore FjallCoherence
open FjallBatches FjallRuns FjallIndex RangeScans Runs

section

variable (bincode : Codec PersistedEvent) (db : Db)

/-- Event of a row, with its session. -/
def storedRow (kv : Bytes×Bytes) : Option ServerEvent :=
  (decodeEvent bincode kv.2).map fun e => {e with session := loadSession db kv.1}

/-- The stored events. -/
def storedEvents : List ServerEvent := (db .events).toList.filterMap (storedRow bincode db)

/-- The stored events in the half-open range that the filter selects. -/
def selectedEvents (sinceMs untilMs : Int64) (filter : UserFilter) : List ServerEvent :=
  (storedEvents bincode db).filter fun e =>
    sinceMs≤e.tsMs ∧ e.tsMs<untilMs ∧ filter.admits e.userId=true

/-- Event of an index entry of a user, with its session. -/
def indexedRow (userId : String) (kv : Bytes×Bytes) : Option ServerEvent :=
  (decodeEvent bincode kv.2).map fun e =>
    {e with session := loadSession db (kv.1.drop (delimited (utf8 userId)).length)}

/-- The events of a user's index. -/
def indexedEvents (userId : String) : List ServerEvent :=
  (keyspacePrefix (db .idxUser) (delimited (utf8 userId))).filterMap (indexedRow bincode db userId)

/-- Some entry of the user's index ends a scan before the negative times. -/
def EndsEarly (userId : String) (untilMs : Int64) : Prop :=
  ∃ x∈indexedEvents bincode db userId, 0≤x.tsMs ∧ untilMs≤x.tsMs

/-- The order of bytes does no harm to a scan of all events: from a start that
is not negative, an event past the start and the end stops it before the
negative times, or these are not before the end; from a negative start, no
other time is before the end. -/
def ScanInOrder (sinceMs untilMs : Int64) : Prop :=
  (0≤ sinceMs → (∃ x∈storedEvents bincode db, sinceMs≤x.tsMs ∧ untilMs≤x.tsMs) ∨
    ∀ e∈storedEvents bincode db, e.tsMs<0 → untilMs≤e.tsMs) ∧
  (sinceMs<0 → ∀ e∈storedEvents bincode db, 0≤e.tsMs → untilMs≤e.tsMs)

/-- The order of bytes does no harm to the scan of a user's index, and entries
in the range that have lost their rows are not reached. -/
def UserInOrder (sinceMs untilMs : Int64) (userId : String) : Prop :=
  (∀ e∈storedEvents bincode db, e.userId=userId → sinceMs≤e.tsMs → e.tsMs<untilMs →
    e.tsMs<0 → ¬EndsEarly bincode db userId untilMs) ∧
  ∀ e∈indexedEvents bincode db userId, e∉storedEvents bincode db → sinceMs≤e.tsMs →
    e.tsMs<untilMs → e.tsMs<0 ∧ EndsEarly bincode db userId untilMs

/-- The condition under which a query is exact. -/
def InOrder (sinceMs untilMs : Int64) : UserFilter → Prop
  | .single uid => UserInOrder bincode db sinceMs untilMs uid
  | .multiple uids => ∀ uid∈uids, UserInOrder bincode db sinceMs untilMs uid
  | .all => ScanInOrder bincode db sinceMs untilMs

/-- What the scan of all events finds under no limit. -/
def allScan (sinceMs untilMs : Int64) : List ServerEvent :=
  scanned (fun kv => decide (fromBeBytes (kv.1.take 8)≥untilMs)) (storedRow bincode db)
    (keyspaceRange (db .events) (toBeBytes sinceMs))

/-- What the scan of a user's index finds under no limit. -/
def userScan (sinceMs untilMs : Int64) (userId : String) : List ServerEvent :=
  (scanned (fun kv => decide
      (fromBeBytes ((kv.1.drop (delimited (utf8 userId)).length).take 8)≥untilMs))
    (indexedRow bincode db userId)
    (keyspacePrefix (db .idxUser) (delimited (utf8 userId)))).filter fun e => sinceMs≤e.tsMs

end

/-- Ids of a filter without the key delimiter, no user twice. -/
def UserFilter.Delimitable : UserFilter → Prop
  | .single uid => NulFree (utf8 uid)
  | .multiple uids => (∀ uid∈uids, NulFree (utf8 uid)) ∧ uids.Nodup
  | .all => True

section

variable {bincode : Codec PersistedEvent} {db : Db}

/-- A row of the store holds the event it is keyed by. -/
theorem storedRow_eq (h : Aligned bincode db) {kv : Bytes×Bytes} (hkv : kv∈(db .events).toList) :
    ∃ e, storedRow bincode db kv=some e ∧ kv.1=e.eventKey := by
  obtain ⟨k,v⟩ := kv
  obtain ⟨e,he,hk,-⟩ := h.row k v (Std.ExtTreeMap.mem_toList_iff_getElem?_eq_some.mp hkv)
  exact ⟨{e with session := loadSession db k},by rw [storedRow,he]; rfl,hk⟩

/-- An entry of a user's index holds the event it is keyed by. -/
theorem indexedRow_eq (hi : Indexed bincode db) {userId : String} (hu : NulFree (utf8 userId))
    {kv : Bytes×Bytes} (hkv : kv∈keyspacePrefix (db .idxUser) (delimited (utf8 userId))) :
    ∃ e, indexedRow bincode db userId kv=some e ∧ kv.1=userIdxKey userId e.eventKey ∧
      e.userId=userId := by
  obtain ⟨x,v⟩ := kv
  obtain ⟨hmem,hpre⟩ := List.mem_filter.mp hkv
  obtain ⟨e,he,hx,hd⟩ := hi.entry x v (Std.ExtTreeMap.mem_toList_iff_getElem?_eq_some.mp hmem)
  have hpre := of_decide_eq_true hpre
  have huser : userId=e.userId := by
    rw [hx,userIdxKey,delimited_prefix_iff hu hd.2,utf8_inj] at hpre
    exact hpre
  refine ⟨{e with session := loadSession db (x.drop (delimited (utf8 userId)).length)},
    by rw [indexedRow,he]; rfl,?_,huser.symm⟩
  rw [hx,huser]
  rfl

/-- The row key behind the user of an index key. -/
theorem drop_userIdxKey (userId : String) (k : Bytes) :
    (userIdxKey userId k).drop (delimited (utf8 userId)).length=k :=
  List.drop_left' rfl

/-- Rows come in the byte order of their times. -/
theorem wrapped_events (h : Aligned bincode db) (start : Bytes) :
    Wrapped (fun kv : Bytes×Bytes => fromBeBytes (kv.1.take 8))
      (keyspaceRange (db .events) start) := by
  have hsorted := Std.ExtTreeMap.ordered_keys_toList (t:=db .events)
  refine List.Pairwise.imp_of_mem ?_ (hsorted.filter _)
  intro a b ha hb hlt
  obtain ⟨x,-,hx⟩ := storedRow_eq h (List.mem_of_mem_filter ha)
  obtain ⟨y,-,hy⟩ := storedRow_eq h (List.mem_of_mem_filter hb)
  dsimp only
  rw [hx,hy] at hlt ⊢
  rw [fromBeBytes_eventKey,fromBeBytes_eventKey]
  refine unsigned_le_of_compare ?_
  rw [hlt]
  exact fun h => (nomatch h)

/-- Index entries of a user come in the byte order of their times. -/
theorem wrapped_index (hi : Indexed bincode db) {userId : String} (hu : NulFree (utf8 userId)) :
    Wrapped (fun kv : Bytes×Bytes =>
        fromBeBytes ((kv.1.drop (delimited (utf8 userId)).length).take 8))
      (keyspacePrefix (db .idxUser) (delimited (utf8 userId))) := by
  have hsorted := Std.ExtTreeMap.ordered_keys_toList (t:=db .idxUser)
  refine List.Pairwise.imp_of_mem ?_ (hsorted.filter _)
  intro a b ha hb hlt
  obtain ⟨x,-,hx,-⟩ := indexedRow_eq hi hu ha
  obtain ⟨y,-,hy,-⟩ := indexedRow_eq hi hu hb
  dsimp only
  rw [hx,hy,compare_userIdxKey] at hlt
  rw [hx,hy,drop_userIdxKey,drop_userIdxKey,fromBeBytes_eventKey,fromBeBytes_eventKey]
  refine unsigned_le_of_compare ?_
  rw [hlt]
  exact fun h => (nomatch h)

/-- Different rows hold different events. -/
theorem nodup_storedEvents (h : Aligned bincode db) : (storedEvents bincode db).Nodup := by
  have hsorted := Std.ExtTreeMap.ordered_keys_toList (t:=db .events)
  refine List.pairwise_filterMap.mpr (List.Pairwise.imp_of_mem ?_ hsorted)
  intro a b ha hb hlt e he e' he' heq
  obtain ⟨x,hx,hxk⟩ := storedRow_eq h ha
  obtain ⟨y,hy,hyk⟩ := storedRow_eq h hb
  rw [hx,Option.some.injEq] at he
  rw [hy,Option.some.injEq] at he'
  rw [hxk,hyk,he,he',heq,Std.ReflOrd.compare_self] at hlt
  cases hlt

/-- Different index entries of a user hold different events. -/
theorem nodup_indexedEvents (hi : Indexed bincode db) {userId : String}
    (hu : NulFree (utf8 userId)) : (indexedEvents bincode db userId).Nodup := by
  have hsorted := Std.ExtTreeMap.ordered_keys_toList (t:=db .idxUser)
  refine List.pairwise_filterMap.mpr (List.Pairwise.imp_of_mem ?_ (hsorted.filter _))
  intro a b ha hb hlt e he e' he' heq
  obtain ⟨x,hx,hxk,-⟩ := indexedRow_eq hi hu ha
  obtain ⟨y,hy,hyk,-⟩ := indexedRow_eq hi hu hb
  rw [hx,Option.some.injEq] at he
  rw [hy,Option.some.injEq] at he'
  rw [hxk,hyk,he,he',heq,Std.ReflOrd.compare_self] at hlt
  cases hlt

/-- A filtered full scan is a scan of the rows from the start key on. -/
theorem scanEvents_filter_eq (h : Aligned bincode db) (sinceMs untilMs : Int64)
    (filter : UserFilter) {limit : ℕ} (hlimit : 0<limit) :
    scanEvents bincode db sinceMs untilMs filter limit=
      ((allScan bincode db sinceMs untilMs).filter fun e => filter.admits e.userId).take limit := by
  have hloop : ∀ (rows : List (Bytes×Bytes)) (results : List ServerEvent),
      (∀ kv∈rows, kv∈(db .events).toList) →
      scanEventsLoop bincode db untilMs filter limit rows results=
        scanLoop (fun kv => decide (fromBeBytes (kv.1.take 8)≥untilMs))
          (fun kv => (storedRow bincode db kv).filter fun e => filter.admits e.userId)
          limit rows results := by
    intro rows
    induction rows with
    | nil => exact fun _ _ => rfl
    | cons kv rows ih =>
      intro results hrows
      have ih := fun results => ih results fun x hx => hrows x (List.mem_cons_of_mem _ hx)
      obtain ⟨e,he,hk⟩ := storedRow_eq h (hrows kv List.mem_cons_self)
      have hlong : ¬kv.1.length<8 := by
        rw [hk,not_lt]
        exact eventKey_length e
      rw [scanEventsLoop,scanLoop,if_neg hlong,he,Option.filter_some]
      rw [storedRow,Option.map_eq_some_iff] at he
      obtain ⟨x,hx,rfl⟩ := he
      rw [hx]
      by_cases hend : fromBeBytes (kv.1.take 8)≥untilMs
      · rw [if_pos hend,if_pos (decide_eq_true hend)]
      · rw [if_neg hend,if_neg (by rw [decide_eq_true_eq]; exact hend)]
        dsimp only
        by_cases hadmits : filter.admits x.userId=true
        · rw [if_pos hadmits,if_pos hadmits,ih]
        · rw [if_neg hadmits,if_neg hadmits,ih]
  rw [scanEvents,hloop (keyspaceRange (db .events) (toBeBytes sinceMs)) [] fun kv hkv =>
    List.mem_of_mem_filter hkv,scanLoop_eq _ _ hlimit,List.nil_append,scanned_filter]
  rfl

/-- The full scan is a scan of the rows from the start key on. -/
theorem scanEvents_eq (h : Aligned bincode db) (sinceMs untilMs : Int64) {limit : ℕ}
    (hlimit : 0<limit) : scanEvents bincode db sinceMs untilMs .all limit=
      (allScan bincode db sinceMs untilMs).take limit := by
  have hadmits : (allScan bincode db sinceMs untilMs).filter
      (fun e => UserFilter.all.admits e.userId)=allScan bincode db sinceMs untilMs :=
    List.filter_eq_self.mpr fun _ _ => rfl
  rw [scanEvents_filter_eq h sinceMs untilMs .all hlimit,hadmits]

/-- The scan of a user's index is a scan of the entries under the user. -/
theorem scanUserEvents_eq (hi : Indexed bincode db) {userId : String} (hu : NulFree (utf8 userId))
    (sinceMs untilMs : Int64) {limit : ℕ} (hlimit : 0<limit) :
    scanUserEvents bincode db userId sinceMs untilMs limit=
      (userScan bincode db sinceMs untilMs userId).take limit := by
  have hloop : ∀ (rows : List (Bytes×Bytes)) (results : List ServerEvent),
      (∀ kv∈rows, kv∈keyspacePrefix (db .idxUser) (delimited (utf8 userId))) →
      scanUserEventsLoop bincode db (delimited (utf8 userId)).length sinceMs untilMs limit rows
        results=
        scanLoop (fun kv => decide
          (fromBeBytes ((kv.1.drop (delimited (utf8 userId)).length).take 8)≥untilMs))
          (fun kv => (indexedRow bincode db userId kv).filter fun e => sinceMs≤e.tsMs)
          limit rows results := by
    intro rows
    induction rows with
    | nil => exact fun _ _ => rfl
    | cons kv rows ih =>
      intro results hrows
      have ih := fun results => ih results fun x hx => hrows x (List.mem_cons_of_mem _ hx)
      obtain ⟨e,he,hk,-⟩ := indexedRow_eq hi hu (hrows kv List.mem_cons_self)
      have hlong : ¬kv.1.length<(delimited (utf8 userId)).length+8 := by
        have hlength := eventKey_length e
        rw [hk,userIdxKey,List.length_append]
        omega
      have htime : fromBeBytes ((kv.1.drop (delimited (utf8 userId)).length).take 8)=e.tsMs := by
        rw [hk,drop_userIdxKey,fromBeBytes_eventKey]
      rw [scanUserEventsLoop,scanLoop,if_neg hlong,he,Option.filter_some]
      rw [indexedRow,Option.map_eq_some_iff] at he
      obtain ⟨x,hx,hxe⟩ := he
      rw [hx]
      dsimp only
      rw [htime]
      by_cases hend : e.tsMs≥untilMs
      · rw [if_pos hend,if_pos (decide_eq_true hend)]
      · have hgo : ¬decide (e.tsMs≥untilMs)=true := by
          rw [decide_eq_true_eq]
          exact hend
        rw [if_neg hend,if_neg hgo]
        by_cases hbefore : e.tsMs<sinceMs
        · have hskip : ¬decide (sinceMs≤e.tsMs)=true := by
            rw [decide_eq_true_eq]
            exact not_le.mpr hbefore
          rw [if_pos hbefore,if_neg hskip,ih]
        · rw [if_neg hbefore,if_pos (decide_eq_true (not_lt.mp hbefore)),hxe,ih]
  rw [scanUserEvents,hloop _ _ fun kv hkv => hkv,scanLoop_eq _ _ hlimit,List.nil_append,scanned_filter]
  rfl

/-- Keeping the first items before or after joining more is the same. -/
theorem take_take_append {α : Type} (limit : ℕ) (xs ys : List α) :
    (xs.take limit++ys).take limit=(xs++ys).take limit := by
  rcases Nat.lt_or_ge xs.length limit with h | h
  · rw [List.take_of_length_le h.le]
  · have hlength : (xs.take limit).length=limit := by
      rw [List.length_take]
      omega
    rw [List.take_append_of_le_length hlength.ge,List.take_append_of_le_length h,List.take_take,
      Nat.min_self]

/-- A team query joins the scans of its users. -/
theorem queryUsersLoop_eq (hi : Indexed bincode db) (sinceMs untilMs : Int64) {limit : ℕ}
    {uids : List String} (hu : ∀ uid∈uids, NulFree (utf8 uid)) {out : List ServerEvent}
    (hout : out.length≤limit) :
    queryUsersLoop bincode db sinceMs untilMs limit uids out=
      (out++uids.flatMap (userScan bincode db sinceMs untilMs)).take limit := by
  induction uids generalizing out with
  | nil => rw [queryUsersLoop,List.flatMap_nil,List.append_nil,List.take_of_length_le hout]
  | cons uid uids ih =>
    rw [queryUsersLoop]
    by_cases hfull : out.length≥limit
    · have hlength : out.length=limit := le_antisymm hout hfull
      rw [if_pos hfull,List.take_append_of_le_length hfull,←hlength,List.take_length]
    · have hroom : 0<limit-out.length := by omega
      have hjoin : out++(userScan bincode db sinceMs untilMs uid).take (limit-out.length)=
          (out++userScan bincode db sinceMs untilMs uid).take limit := by
        rw [List.take_append,List.take_of_length_le hout]
      rw [if_neg hfull,scanUserEvents_eq hi (hu uid List.mem_cons_self) sinceMs untilMs hroom,hjoin,
        ih (fun x hx => hu x (List.mem_cons_of_mem _ hx)) (List.length_take_le _ _),
        take_take_append,List.flatMap_cons,List.append_assoc]

/-- What a query finds under no limit. -/
def fullQuery (bincode : Codec PersistedEvent) (db : Db) (sinceMs untilMs : Int64) :
    UserFilter → List ServerEvent
  | .single uid => userScan bincode db sinceMs untilMs uid
  | .multiple uids => uids.flatMap (userScan bincode db sinceMs untilMs)
  | .all => allScan bincode db sinceMs untilMs

/-- A query returns the first of the events it finds. -/
theorem queryEvents_eq (h : Aligned bincode db) (hi : Indexed bincode db) (sinceMs untilMs : Int64)
    {filter : UserFilter} (hf : UserFilter.Delimitable filter) {limit : ℕ} (hlimit : 0<limit) :
    queryEvents bincode db sinceMs untilMs filter limit=
      (fullQuery bincode db sinceMs untilMs filter).take limit := by
  cases filter with
  | single uid => exact scanUserEvents_eq hi hf sinceMs untilMs hlimit
  | multiple uids =>
    exact queryUsersLoop_eq hi sinceMs untilMs hf.1 (Nat.zero_le _)
  | all => exact scanEvents_eq h sinceMs untilMs hlimit

/-- Which events the full scan finds. -/
theorem mem_allScan (h : Aligned bincode db) (sinceMs untilMs : Int64) {e : ServerEvent} :
    e∈allScan bincode db sinceMs untilMs ↔ e∈storedEvents bincode db ∧
      unsigned sinceMs≤unsigned e.tsMs ∧ e.tsMs<untilMs ∧
      (e.tsMs<0 → ∀ x∈storedEvents bincode db, unsigned sinceMs≤unsigned x.tsMs → 0≤x.tsMs →
        x.tsMs<untilMs) := by
  have hrange : ∀ x, x∈(keyspaceRange (db .events) (toBeBytes sinceMs)).filterMap
      (storedRow bincode db) ↔
        x∈storedEvents bincode db ∧ unsigned sinceMs≤unsigned x.tsMs := by
    intro x
    simp only [keyspaceRange,storedEvents,List.mem_filterMap,List.mem_filter,decide_eq_true_eq]
    have hstart : ∀ kv∈(db .events).toList, storedRow bincode db kv=some x →
        (compare (toBeBytes sinceMs) kv.1≠Ordering.gt ↔ unsigned sinceMs≤unsigned x.tsMs) := by
      intro kv hkv hx
      obtain ⟨y,hy,hk⟩ := storedRow_eq h hkv
      rw [hx,Option.some.injEq] at hy
      rw [hk,←hy]
      exact compare_toBeBytes_eventKey sinceMs x
    constructor
    · rintro ⟨kv,⟨hkv,hle⟩,hx⟩
      exact ⟨⟨kv,hkv,hx⟩,(hstart kv hkv hx).mp hle⟩
    · rintro ⟨⟨kv,hkv,hx⟩,hle⟩
      exact ⟨kv,⟨hkv,(hstart kv hkv hx).mpr hle⟩,hx⟩
  have htimes : ∀ kv∈keyspaceRange (db .events) (toBeBytes sinceMs), ∃ x,
      storedRow bincode db kv=some x ∧ x.tsMs=fromBeBytes (kv.1.take 8) := by
    intro kv hkv
    obtain ⟨x,hx,hk⟩ := storedRow_eq h (List.mem_of_mem_filter hkv)
    exact ⟨x,hx,by rw [hk,fromBeBytes_eventKey]⟩
  have hstop : ∀ kv∈keyspaceRange (db .events) (toBeBytes sinceMs),
      (fun kv : Bytes×Bytes => decide (fromBeBytes (kv.1.take 8)≥untilMs)) kv=true ↔
        untilMs≤fromBeBytes (kv.1.take 8) := fun kv _ => decide_eq_true_iff
  have hscan := mem_scanned (wrapped_events h (toBeBytes sinceMs)) hstop htimes (b:=e)
  simp only [hrange] at hscan
  rw [allScan,hscan]
  constructor
  · rintro ⟨⟨hmem,hle⟩,hlt,hneg⟩
    exact ⟨hmem,hle,hlt,fun hsign x hx hxle => hneg hsign x ⟨hx,hxle⟩⟩
  · rintro ⟨hmem,hle,hlt,hneg⟩
    exact ⟨⟨hmem,hle⟩,hlt,fun hsign x hx => hneg hsign x hx.1 hx.2⟩

/-- Which events the scan of a user's index finds. -/
theorem mem_userScan (hi : Indexed bincode db) (sinceMs untilMs : Int64) {userId : String}
    (hu : NulFree (utf8 userId)) {e : ServerEvent} :
    e∈userScan bincode db sinceMs untilMs userId ↔ e∈indexedEvents bincode db userId ∧
      sinceMs≤e.tsMs ∧ e.tsMs<untilMs ∧ (e.tsMs<0 → ¬EndsEarly bincode db userId untilMs) := by
  have htimes : ∀ kv∈keyspacePrefix (db .idxUser) (delimited (utf8 userId)), ∃ x,
      indexedRow bincode db userId kv=some x ∧
        x.tsMs=fromBeBytes ((kv.1.drop (delimited (utf8 userId)).length).take 8) := by
    intro kv hkv
    obtain ⟨x,hx,hk,-⟩ := indexedRow_eq hi hu hkv
    exact ⟨x,hx,by rw [hk,drop_userIdxKey,fromBeBytes_eventKey]⟩
  have hstop : ∀ kv∈keyspacePrefix (db .idxUser) (delimited (utf8 userId)),
      (fun kv : Bytes×Bytes => decide
        (fromBeBytes ((kv.1.drop (delimited (utf8 userId)).length).take 8)≥untilMs)) kv=true ↔
        untilMs≤fromBeBytes ((kv.1.drop (delimited (utf8 userId)).length).take 8) :=
    fun kv _ => decide_eq_true_iff
  have hscan := mem_scanned (wrapped_index hi hu) hstop htimes (b:=e)
  rw [userScan,List.mem_filter,decide_eq_true_eq,hscan]
  have hearly : (∀ x∈indexedEvents bincode db userId, 0≤x.tsMs → x.tsMs<untilMs) ↔
      ¬EndsEarly bincode db userId untilMs := by
    simp only [EndsEarly,not_exists,not_and,not_le]
  rw [←hearly]
  constructor
  · rintro ⟨⟨hmem,hlt,hneg⟩,hle⟩
    exact ⟨hmem,hle,hlt,hneg⟩
  · rintro ⟨hmem,hle,hlt,hneg⟩
    exact ⟨⟨hmem,hlt,hneg⟩,hle⟩

/-- Which events a filter selects. -/
theorem mem_selectedEvents (sinceMs untilMs : Int64) (filter : UserFilter) {e : ServerEvent} :
    e∈selectedEvents bincode db sinceMs untilMs filter ↔ e∈storedEvents bincode db ∧
      sinceMs≤e.tsMs ∧ e.tsMs<untilMs ∧ filter.admits e.userId=true := by
  rw [selectedEvents,List.mem_filter,decide_eq_true_eq]

/-- Entries of a user's index are events of the user. -/
theorem userId_of_mem_indexedEvents (hi : Indexed bincode db) {userId : String}
    (hu : NulFree (utf8 userId)) {e : ServerEvent} (he : e∈indexedEvents bincode db userId) :
    e.userId=userId := by
  obtain ⟨kv,hkv,hx⟩ := List.mem_filterMap.mp he
  obtain ⟨x,hx',-,huser⟩ := indexedRow_eq hi hu hkv
  rw [hx',Option.some.injEq] at hx
  rw [←hx,huser]

/-- The index of a user has the stored events of the user. -/
theorem mem_indexedEvents_of_stored (hi : Indexed bincode db) {e : ServerEvent}
    (he : e∈storedEvents bincode db) : e∈indexedEvents bincode db e.userId := by
  obtain ⟨⟨k,v⟩,hkv,hx⟩ := List.mem_filterMap.mp he
  obtain ⟨x,hx',hxe⟩ := Option.map_eq_some_iff.mp hx
  have hv := Std.ExtTreeMap.mem_toList_iff_getElem?_eq_some.mp hkv
  have hcopy := hi.copied k v x hv hx'
  have huser : x.userId=e.userId := by rw [←hxe]
  rw [huser] at hcopy
  refine List.mem_filterMap.mpr ⟨(userIdxKey e.userId k,v),List.mem_filter.mpr
    ⟨Std.ExtTreeMap.mem_toList_iff_getElem?_eq_some.mpr hcopy,decide_eq_true
      (List.prefix_append _ _)⟩,?_⟩
  rw [indexedRow,drop_userIdxKey]
  exact hx

/-- The scan of all events is exact when the order of bytes does no harm. -/
theorem mem_allScan_iff (h : Aligned bincode db) (sinceMs untilMs : Int64) :
    (∀ e, e∈allScan bincode db sinceMs untilMs ↔
      e∈selectedEvents bincode db sinceMs untilMs .all) ↔
        ScanInOrder bincode db sinceMs untilMs := by
  have hadmits : ∀ user, UserFilter.all.admits user=true := fun _ => rfl
  simp only [mem_allScan h,mem_selectedEvents,hadmits,and_true,unsigned_le_iff]
  constructor
  · intro hexact
    constructor
    · intro hsince
      by_contra hnot
      push Not at hnot
      obtain ⟨hlate,e,he,hneg,hlt⟩ := hnot
      have hscanned := (hexact e).mp ⟨he,Or.inl ⟨hsince,hneg⟩,hlt,fun _ x hx hle hpos => ?_⟩
      · exact absurd hneg (not_lt.mpr (hsince.trans hscanned.2.1))
      · rcases hle with ⟨-,hxneg⟩ | ⟨-,hle⟩
        · exact absurd hxneg (not_lt.mpr hpos)
        · exact hlate x hx hle
    · intro hsince e he hpos
      by_contra hlt
      have hscanned := (hexact e).mpr ⟨he,(hsince.trans_le hpos).le,not_le.mp hlt⟩
      rcases hscanned.2.1 with ⟨hnonneg,-⟩ | ⟨hsign,-⟩
      · exact absurd hsince (not_lt.mpr hnonneg)
      · exact absurd hsince (not_lt.mpr (hsign.mpr hpos))
  · rintro ⟨hpos,hneg⟩ e
    by_cases hsince : 0≤ sinceMs
    · constructor
      · rintro ⟨he,hle,hlt,hbefore⟩
        rcases hle with ⟨-,hsign⟩ | ⟨-,hle⟩
        · rcases hpos hsince with ⟨x,hx,hxsince,hxuntil⟩ | hlate
          · have hxpos := hsince.trans hxsince
            have hxlt := hbefore hsign x hx (Or.inr ⟨iff_of_true hsince hxpos,hxsince⟩) hxpos
            exact absurd hxlt (not_lt.mpr hxuntil)
          · exact absurd hlt (not_lt.mpr (hlate e he hsign))
        · exact ⟨he,hle,hlt⟩
      · rintro ⟨he,hle,hlt⟩
        have hepos := hsince.trans hle
        exact ⟨he,Or.inr ⟨iff_of_true hsince hepos,hle⟩,hlt,
          fun hsign => absurd hepos (not_le.mpr hsign)⟩
    · have hsince' := not_le.mp hsince
      constructor
      · rintro ⟨he,hle,hlt,-⟩
        rcases hle with ⟨hnonneg,-⟩ | ⟨-,hle⟩
        · exact absurd hnonneg hsince
        · exact ⟨he,hle,hlt⟩
      · rintro ⟨he,hle,hlt⟩
        have hesign : ¬0≤e.tsMs := fun hepos => absurd hlt (not_lt.mpr (hneg hsince' e he hepos))
        refine ⟨he,Or.inr ⟨iff_of_false hsince hesign,hle⟩,hlt,fun _ x _ hxle hxpos => ?_⟩
        rcases hxle with ⟨hnonneg,-⟩ | ⟨hsign,-⟩
        · exact absurd hnonneg hsince
        · exact absurd (hsign.mpr hxpos) hsince

/-- The scan of a user's index is exact when the order of bytes does no harm
and no entry without a row is reached. -/
theorem mem_userScan_iff (hi : Indexed bincode db) (sinceMs untilMs : Int64) {userId : String}
    (hu : NulFree (utf8 userId)) :
    (∀ e, e∈userScan bincode db sinceMs untilMs userId ↔
      e∈selectedEvents bincode db sinceMs untilMs (.single userId)) ↔
        UserInOrder bincode db sinceMs untilMs userId := by
  have hadmits : ∀ user, (UserFilter.single userId).admits user=true ↔ user=userId :=
    fun _ => decide_eq_true_iff
  simp only [mem_userScan hi sinceMs untilMs hu,mem_selectedEvents,hadmits]
  constructor
  · intro hexact
    constructor
    · intro e he huser hle hlt hneg
      exact ((hexact e).mpr ⟨he,hle,hlt,huser⟩).2.2.2 hneg
    · intro e he hstale hle hlt
      by_contra hnot
      refine hstale ((hexact e).mp ⟨he,hle,hlt,fun hneg hearly => ?_⟩).1
      exact hnot ⟨hneg,hearly⟩
  · rintro ⟨hrows,hstale⟩ e
    constructor
    · rintro ⟨he,hle,hlt,hneg⟩
      refine ⟨?_,hle,hlt,userId_of_mem_indexedEvents hi hu he⟩
      by_contra hnot
      obtain ⟨hsign,hearly⟩ := hstale e he hnot hle hlt
      exact hneg hsign hearly
    · rintro ⟨he,hle,hlt,huser⟩
      have hmem := mem_indexedEvents_of_stored hi he
      rw [huser] at hmem
      exact ⟨hmem,hle,hlt,hrows e he huser hle hlt⟩

/-- What a query finds under no limit is different events. -/
theorem nodup_fullQuery (h : Aligned bincode db) (hi : Indexed bincode db)
    (sinceMs untilMs : Int64) {filter : UserFilter} (hf : UserFilter.Delimitable filter) :
    (fullQuery bincode db sinceMs untilMs filter).Nodup := by
  have huser : ∀ {uid : String}, NulFree (utf8 uid) →
      (userScan bincode db sinceMs untilMs uid).Nodup :=
    fun hu => (nodup_scanned (nodup_indexedEvents hi hu) _).filter _
  cases filter with
  | single uid => exact huser hf
  | multiple uids =>
    refine List.nodup_flatMap.mpr ⟨fun uid huid => huser (hf.1 uid huid),?_⟩
    refine List.Pairwise.imp_of_mem ?_ hf.2
    intro a b ha hb hne e hea heb
    have hea := ((mem_userScan hi sinceMs untilMs (hf.1 a ha)).mp hea).1
    have heb := ((mem_userScan hi sinceMs untilMs (hf.1 b hb)).mp heb).1
    have hua := userId_of_mem_indexedEvents hi (hf.1 a ha) hea
    have hub := userId_of_mem_indexedEvents hi (hf.1 b hb) heb
    exact hne (hua.symm.trans hub)
  | all =>
    have hrange : ((keyspaceRange (db .events) (toBeBytes sinceMs)).filterMap
        (storedRow bincode db)).Nodup :=
      (nodup_storedEvents h).sublist (List.filter_sublist.filterMap _)
    exact nodup_scanned hrange _

/-- A query is exact when the order of bytes does no harm. -/
theorem mem_fullQuery_iff (h : Aligned bincode db) (hi : Indexed bincode db)
    (sinceMs untilMs : Int64) {filter : UserFilter} (hf : UserFilter.Delimitable filter) :
    (∀ e, e∈fullQuery bincode db sinceMs untilMs filter ↔
      e∈selectedEvents bincode db sinceMs untilMs filter) ↔
        InOrder bincode db sinceMs untilMs filter := by
  cases filter with
  | single uid => exact mem_userScan_iff hi sinceMs untilMs hf
  | multiple uids =>
    have hsingle : ∀ uid, ∀ e, e∈selectedEvents bincode db sinceMs untilMs (.single uid) ↔
        e∈storedEvents bincode db ∧ sinceMs≤e.tsMs ∧ e.tsMs<untilMs ∧ e.userId=uid := by
      intro uid e
      rw [mem_selectedEvents]
      exact and_congr_right fun _ => and_congr_right fun _ => and_congr_right fun _ =>
        decide_eq_true_iff
    have hteam : ∀ e, e∈selectedEvents bincode db sinceMs untilMs (.multiple uids) ↔
        e∈storedEvents bincode db ∧ sinceMs≤e.tsMs ∧ e.tsMs<untilMs ∧ e.userId∈uids := by
      intro e
      rw [mem_selectedEvents]
      exact and_congr_right fun _ => and_congr_right fun _ => and_congr_right fun _ =>
        List.contains_iff_mem
    have hown : ∀ uid∈uids, ∀ e∈userScan bincode db sinceMs untilMs uid, e.userId=uid := by
      intro uid huid e he
      exact userId_of_mem_indexedEvents hi (hf.1 uid huid)
        ((mem_userScan hi sinceMs untilMs (hf.1 uid huid)).mp he).1
    have hjoined : ∀ e, e∈fullQuery bincode db sinceMs untilMs (.multiple uids) ↔
        ∃ uid∈uids, e∈userScan bincode db sinceMs untilMs uid := fun e => List.mem_flatMap
    have heach : InOrder bincode db sinceMs untilMs (.multiple uids) ↔ ∀ uid∈uids, ∀ e,
        e∈userScan bincode db sinceMs untilMs uid ↔
          e∈selectedEvents bincode db sinceMs untilMs (.single uid) :=
      forall₂_congr fun uid huid => (mem_userScan_iff hi sinceMs untilMs (hf.1 uid huid)).symm
    rw [heach]
    constructor
    · intro hexact uid huid e
      rw [hsingle]
      constructor
      · intro he
        obtain ⟨hmem,hle,hlt,-⟩ := (hteam e).mp ((hexact e).mp ((hjoined e).mpr ⟨uid,huid,he⟩))
        exact ⟨hmem,hle,hlt,hown uid huid e he⟩
      · rintro ⟨hmem,hle,hlt,huser⟩
        have hteam := (hteam e).mpr ⟨hmem,hle,hlt,by rw [huser]; exact huid⟩
        obtain ⟨other,hother,he⟩ := (hjoined e).mp ((hexact e).mpr hteam)
        rw [←huser,hown other hother e he]
        exact he
    · intro hexact e
      rw [hjoined,hteam]
      constructor
      · rintro ⟨uid,huid,he⟩
        obtain ⟨hmem,hle,hlt,huser⟩ := (hsingle uid e).mp ((hexact uid huid e).mp he)
        exact ⟨hmem,hle,hlt,by rw [huser]; exact huid⟩
      · rintro ⟨hmem,hle,hlt,huser⟩
        exact ⟨e.userId,huser,(hexact _ huser e).mpr ((hsingle _ e).mpr ⟨hmem,hle,hlt,rfl⟩)⟩
  | all => exact mem_allScan_iff h sinceMs untilMs

/-- A query that is not cut off returns exactly the selected events, each once,
precisely when the order of bytes does no harm. -/
theorem queryEvents_exact_iff {history : List StoreOp}
    (run : Run (StoreStep bincode) emptyDb history db) (hd : ∀ op∈history, op.Delimitable)
    (sinceMs untilMs : Int64) {filter : UserFilter} (hf : UserFilter.Delimitable filter)
    {limit : ℕ} (hlimit : (selectedEvents bincode db sinceMs untilMs filter).length<limit) :
    (queryEvents bincode db sinceMs untilMs filter limit).Perm
      (selectedEvents bincode db sinceMs untilMs filter) ↔
        InOrder bincode db sinceMs untilMs filter := by
  obtain ⟨h,hi⟩ := Indexed.of_run run hd
  have hnodup : (selectedEvents bincode db sinceMs untilMs filter).Nodup :=
    (nodup_storedEvents h).filter _
  rw [queryEvents_eq h hi sinceMs untilMs hf (by omega),take_perm_iff hlimit,
    List.perm_ext_iff_of_nodup (nodup_fullQuery h hi sinceMs untilMs hf) hnodup]
  exact mem_fullQuery_iff h hi sinceMs untilMs hf

/-- In a store whose devices upload for one user each no index entry loses its
row. -/
theorem stored_of_mirrored (hm : Mirrored bincode db) (h : Aligned bincode db)
    (hi : Indexed bincode db) {userId : String} (hu : NulFree (utf8 userId)) {e : ServerEvent}
    (he : e∈indexedEvents bincode db userId) : e∈storedEvents bincode db := by
  obtain ⟨⟨x,v⟩,hkv,he⟩ := List.mem_filterMap.mp he
  obtain ⟨y,-,hx,-⟩ := indexedRow_eq hi hu hkv
  have hv := Std.ExtTreeMap.mem_toList_iff_getElem?_eq_some.mp (List.mem_of_mem_filter hkv)
  obtain ⟨k,z,hk,hz,hxk⟩ := hm.copy x v hv
  obtain ⟨-,hzd⟩ := h.of_decode hk hz
  dsimp only at hx
  rw [hx,userIdxKey_inj hu hzd.2] at hxk
  refine List.mem_filterMap.mpr ⟨(k,v),Std.ExtTreeMap.mem_toList_iff_getElem?_eq_some.mpr hk,?_⟩
  rw [indexedRow,hx,drop_userIdxKey,hxk.2] at he
  exact he

/-- Without negative times queries from a start that is not negative are exact
as long as every device uploads for one user between its deletions. -/
theorem inOrder_of_nonneg {history : List StoreOp}
    (run : Run (StoreStep bincode) emptyDb history db) (hA : Admissible history)
    (hpos : ∀ e∈storedEvents bincode db, 0≤e.tsMs) {sinceMs untilMs : Int64}
    (hsince : 0≤ sinceMs) {filter : UserFilter} (hf : UserFilter.Delimitable filter) :
    InOrder bincode db sinceMs untilMs filter := by
  have hc := Coherent.of_run run hA.1 hA.2
  obtain ⟨h,hi⟩ := Indexed.of_run run hA.1
  have huser : ∀ {uid : String}, NulFree (utf8 uid) →
      UserInOrder bincode db sinceMs untilMs uid := fun hu =>
    ⟨fun e he _ _ _ hneg => absurd (hpos e he) (not_le.mpr hneg),
      fun e he hstale => absurd (stored_of_mirrored hc.mirrored h hi hu he) hstale⟩
  cases filter with
  | single uid => exact huser hf
  | multiple uids => exact fun uid huid => huser (hf.1 uid huid)
  | all =>
    exact ⟨fun _ => Or.inr fun e he hneg => absurd (hpos e he) (not_le.mpr hneg),
      fun hneg => absurd hsince (not_le.mpr hneg)⟩

end

/-- A store with one event before 1970. -/
def negativeDb : Db := upsertEvents eventLayout.codec emptyDb [sampleEvent (-5) ""]

/-- The event before 1970 is returned for a range that starts at 1970. -/
theorem negative_time_selected : ¬∀ (history : List StoreOp) (db : Db),
    Run (StoreStep eventLayout.codec) emptyDb history db →
    ∀ (sinceMs untilMs : Int64) (filter : UserFilter) (limit : ℕ),
      (selectedEvents eventLayout.codec db sinceMs untilMs filter).length<limit →
      (queryEvents eventLayout.codec db sinceMs untilMs filter limit).Perm
        (selectedEvents eventLayout.codec db sinceMs untilMs filter) := by
  intro h
  have run : Run (StoreStep eventLayout.codec) emptyDb [.upsert [sampleEvent (-5) ""]] negativeDb :=
    .next _ .start ⟨_,.refl _,rfl⟩
  have hselected : (selectedEvents eventLayout.codec negativeDb 0 10 .all).length=0 := by
    decide +kernel
  have hfound : (queryEvents eventLayout.codec negativeDb 0 10 .all 1).length=1 := by
    decide +kernel
  have hlength := (h _ _ run 0 10 .all 1 (by rw [hselected]; exact Nat.one_pos)).length_eq
  rw [hselected,hfound] at hlength
  cases hlength

/-- The sample store answers a range exactly. -/
theorem queryEvents_exact_sample :
    (queryEvents eventLayout.codec sampleDb 0 100 .all 10).Perm
      (selectedEvents eventLayout.codec sampleDb 0 100 .all) ↔
        InOrder eventLayout.codec sampleDb 0 100 .all := by
  have run : Run (StoreStep eventLayout.codec) emptyDb sampleHistory sampleDb :=
    .next _ (.next _ (.next _ .start ⟨_,.refl _,rfl⟩) rfl) ⟨_,.refl _,rfl⟩
  have hf : UserFilter.Delimitable .all := trivial
  exact queryEvents_exact_iff run (by decide) 0 100 hf (by decide +kernel)

end TokiSync.FjallQueries
