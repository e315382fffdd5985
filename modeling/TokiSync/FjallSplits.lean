import TokiSync.FjallReplays

/-!
# Uploads in one batch and in two

A batch keeps the first of the newest events of a dedup key; of two batches the
second one overwrites a row of the same time, and an older row of the first one
is removed together with whatever lay under its key. An upload may therefore be
split wherever no time comes twice with different contents and no older event
falls on a row that its pointer no longer names.
-/

namespace TokiSync.FjallSplits

open MachineWords ByteKeys ByteCodec BatchedMaps ServerEvents FjallStore FjallCoherence
open FjallBatches FjallRuns FjallIndex FjallQueries FjallReplays ReplacingMerge Runs

/-- One batch and its two halves answer every query alike. -/
def SplitsAlike (bincode : Codec PersistedEvent) (db : Db) (xs ys : List ServerEvent) : Prop :=
  ∀ whole first second, UpsertEvents bincode db (xs++ys) whole →
    UpsertEvents bincode db xs first → UpsertEvents bincode first ys second →
    ∀ (sinceMs untilMs : Int64) (filter : UserFilter) (limit : ℕ),
      queryEvents bincode whole sinceMs untilMs filter limit=
        queryEvents bincode second sinceMs untilMs filter limit

/-- Session that the event is read with once it is stored. -/
def sessionAfter (db : Db) (event : ServerEvent) : String :=
  if event.session≠"" then event.session
  else if (db .idxMsg)[event.idxKey]?=some event.eventKey then ""
  else loadSession db event.eventKey

/-- There is a row under the event's key that its pointer does not name. -/
def LeavesRow (db : Db) (event : ServerEvent) : Prop :=
  (db .idxMsg)[event.idxKey]?≠some event.eventKey ∧ ∃ v, (db .events)[event.eventKey]?=some v

/-- There is an entry under the event's user and key that does not belong to
the row its pointer names. -/
def LeavesEntry (bincode : Codec PersistedEvent) (db : Db) (event : ServerEvent) : Prop :=
  ¬((db .idxMsg)[event.idxKey]?=some event.eventKey ∧
      rowUser bincode db event.eventKey event=event.userId) ∧
    ∃ v, (db .idxUser)[userIdxKey event.userId event.eventKey]?=some v

/-- The first event is stored and comes before or with the second one, of the
same dedup key, without a difference to storing the second one or the first one
alone. -/
def PairSafe (bincode : Codec PersistedEvent) (db : Db) (a b : ServerEvent) : Prop :=
  (a.tsMs=b.tsMs → {a with session := ""}={b with session := ""} ∧
    (a.tsMs≠Int64.maxValue → sessionAfter db a=b.session)) ∧
  (a.tsMs<b.tsMs → ¬LeavesRow db a ∧ ¬LeavesEntry bincode db a)

/-- The leading events of the halves that share a dedup key are safe. -/
def SplitSafe (bincode : Codec PersistedEvent) (db : Db) (xs ys : List ServerEvent) : Prop :=
  ∀ a b, Leads xs a → Leads ys b → a.idxKey=b.idxKey → Lands db a → PairSafe bincode db a b

/-- Every range can be extended to include the events of the index and of the
batch. -/
def Readable (bincode : Codec PersistedEvent) (db : Db) (batch : List ServerEvent) : Prop :=
  (∀ (x v : Bytes) (e : ServerEvent), (db .idxUser)[x]?=some v → decodeEvent bincode v=some e →
    e.tsMs≠Int64.maxValue) ∧ ∀ e∈batch, e.tsMs≠Int64.maxValue

/-- Every session belongs to a row. -/
def SessionsRowed (db : Db) : Prop :=
  ∀ k v : Bytes, (db .sessions)[k]?=some v → ∃ w, (db .events)[k]?=some w

section

variable {xs ys : List ServerEvent} {a b w : ServerEvent}

/-- The winner of a joined batch is the newer one of the winners of its parts. -/
theorem winnerMap_append (xs ys : List ServerEvent) (k : Bytes) : (winnerMap (xs++ys))[k]?=
    choose ServerEvent.tsMs (winnerMap xs)[k]? (winnerMap ys)[k]? := by
  rw [getElem?_winnerMap,List.foldl_append,foldl_prefer_eq_choose,←getElem?_winnerMap,
    ←getElem?_winnerMap]

/-- The first part wins when its winner is not older. -/
theorem winner_of_first (ha : a∈winners xs)
    (hle : ∀ b∈winners ys, b.idxKey=a.idxKey → b.tsMs≤a.tsMs) : a∈winners (xs++ys) := by
  rw [mem_winners] at ha ⊢
  rw [winnerMap_append,ha]
  cases hb : (winnerMap ys)[a.idxKey]? with
  | none => rfl
  | some b =>
    have hkey := (winnerMap_keeps ys).key_eq hb
    have hwin : b∈winners ys := by rwa [mem_winners,hkey]
    exact if_pos (hle b hwin hkey)

/-- The second part wins when every winner of the first part is older. -/
theorem winner_of_second (hb : b∈winners ys)
    (hlt : ∀ a∈winners xs, a.idxKey=b.idxKey → a.tsMs<b.tsMs) : b∈winners (xs++ys) := by
  rw [mem_winners] at hb ⊢
  rw [winnerMap_append,hb]
  cases ha : (winnerMap xs)[b.idxKey]? with
  | none => rfl
  | some a =>
    have hkey := (winnerMap_keeps xs).key_eq ha
    have hwin : a∈winners xs := by rwa [mem_winners,hkey]
    exact if_neg (not_le.mpr (hlt a hwin hkey))

/-- Two winners of one dedup key are one. -/
theorem winner_unique (ha : a∈winners xs) (hb : b∈winners xs) (hkey : a.idxKey=b.idxKey) :
    a=b := by
  rw [mem_winners] at ha hb
  rw [hkey,hb] at ha
  exact (Option.some.inj ha).symm

/-- A dedup key of a joined batch has a winner in one of the parts. -/
theorem exists_winner_of_part (hw : w∈winners (xs++ys)) :
    (∃ a∈winners xs, a.idxKey=w.idxKey) ∨ ∃ b∈winners ys, b.idxKey=w.idxKey := by
  rcases List.mem_append.mp (mem_of_mem_winners hw) with hin | hin
  · obtain ⟨a,ha,hkey,-⟩ := exists_winner hin
    exact Or.inl ⟨a,ha,hkey⟩
  · obtain ⟨b,hb,hkey,-⟩ := exists_winner hin
    exact Or.inr ⟨b,hb,hkey⟩

end

section

variable {bincode : Codec PersistedEvent} {db whole first second : Db} {xs ys : List ServerEvent}

/-- A batch and its halves, uploaded to one store. -/
structure Split (bincode : Codec PersistedEvent) (db whole first second : Db)
    (xs ys : List ServerEvent) : Prop where
  /-- Pointers and rows of the store are under their keys. -/
  aligned : Aligned bincode db
  /-- Ids of the events contain no delimiter. -/
  delimitable : ∀ e∈xs++ys, e.Delimitable
  /-- The whole batch. -/
  joined : UpsertEvents bincode db (xs++ys) whole
  /-- The first half. -/
  earlier : UpsertEvents bincode db xs first
  /-- The second half. -/
  later : UpsertEvents bincode first ys second

namespace Split

variable (s : Split bincode db whole first second xs ys)

include s

theorem delimitable_first : ∀ e∈xs, e.Delimitable :=
  fun e he => s.delimitable e (List.mem_append_left _ he)

theorem delimitable_second : ∀ e∈ys, e.Delimitable :=
  fun e he => s.delimitable e (List.mem_append_right _ he)

/-- The first half keeps pointers and rows under their keys. -/
theorem aligned_first : Aligned bincode first := by
  rw [UpsertEvents.eq_upsertAll s.aligned s.delimitable_first s.earlier]
  exact aligned_upsertAll s.aligned fun e he => s.delimitable_first e (mem_of_mem_winners he)

section

variable {a b w : ServerEvent} {name : KeyspaceName} {k : Bytes}

theorem get_whole (hw : w∈winners (xs++ys)) (hlane : InLane w.idxKey (name,k)) :
    (whole name)[k]?=(commit db (upsertOne bincode db w) name)[k]? :=
  get_upserted_of_inLane s.aligned s.delimitable s.joined hw hlane

theorem get_first (ha : a∈winners xs) (hlane : InLane a.idxKey (name,k)) :
    (first name)[k]?=(commit db (upsertOne bincode db a) name)[k]? :=
  get_upserted_of_inLane s.aligned s.delimitable_first s.earlier ha hlane

theorem get_second (hb : b∈winners ys) (hlane : InLane b.idxKey (name,k)) :
    (second name)[k]?=(commit first (upsertOne bincode first b) name)[k]? :=
  get_upserted_of_inLane s.aligned_first s.delimitable_second s.later hb hlane

/-- Where the first half writes nothing, the second half does what it would
have done to the store. -/
theorem get_second_of_untouched (hb : b∈winners ys) (hlane : InLane b.idxKey (name,k))
    (hsame : ∀ (name : KeyspaceName) (k : Bytes), InLane b.idxKey (name,k) →
      (first name)[k]?=(db name)[k]?) :
    (second name)[k]?=(commit db (upsertOne bincode db b) name)[k]? := by
  have hops : upsertOne bincode first b=upsertOne bincode db b := by
    refine upsertOne_congr (hsame .idxMsg b.idxKey rfl) fun row hrow => ?_
    obtain ⟨-,e,-,-,hkey,hre,-⟩ := s.aligned.predecessor hrow
    rw [hre]
    refine hsame .events e.eventKey ?_
    rw [←hkey]
    exact eventKey_inLane e (Or.inl rfl)
  rw [s.get_second hb hlane,hops]
  exact get_commit_congr _ (hsame name k hlane)

/-- Cells agree unless the first half stores an event of their dedup key and
the second half has one that is not older. -/
theorem get_eq_or (name : KeyspaceName) (k : Bytes) : (whole name)[k]?=(second name)[k]? ∨
    ∃ a∈winners xs, ∃ b∈winners ys, a.idxKey=b.idxKey ∧ InLane a.idxKey (name,k) ∧ Lands db a ∧
      a.tsMs≤b.tsMs := by
  by_cases hb : ∃ b∈winners ys, InLane b.idxKey (name,k)
  · obtain ⟨b,hb,hlaneB⟩ := hb
    by_cases ha : ∃ a∈winners xs, InLane a.idxKey (name,k)
    · obtain ⟨a,ha,hlaneA⟩ := ha
      have hkey : a.idxKey=b.idxKey := hlaneA.unique hlaneB
      by_cases hlands : Lands db a
      · by_cases hle : a.tsMs≤b.tsMs
        · exact Or.inr ⟨a,ha,b,hb,hkey,hlaneA,hlands,hle⟩
        · -- The second half does not store an older event.
          left
          have hlanded := landed_of_lands s.aligned s.delimitable_first s.earlier ha hlands
          have hbehind : ¬Lands first b := by
            intro hlands'
            have hrow := hlands' a.eventKey (by rw [←hkey]; exact hlanded.pointer)
            rw [rowTs,if_pos (eventKey_length a),fromBeBytes_eventKey] at hrow
            exact hle hrow
          have hwhole : a∈winners (xs++ys) := by
            refine winner_of_first ha fun b' hb' hkey' => ?_
            rw [winner_unique hb' hb (hkey'.trans hkey)]
            exact (not_le.mp hle).le
          rw [s.get_second hb hlaneB,upsertOne_of_not_lands hbehind,commit_nil,
            s.get_first ha hlaneA,s.get_whole hwhole hlaneA]
      · -- The first half writes nothing for this dedup key.
        left
        have hsame : ∀ (name : KeyspaceName) (k : Bytes), InLane b.idxKey (name,k) →
            (first name)[k]?=(db name)[k]? := by
          intro name k hlane
          rw [←hkey] at hlane
          rw [s.get_first ha hlane,upsertOne_of_not_lands hlands,commit_nil]
        rw [s.get_second_of_untouched hb hlaneB hsame]
        by_cases hle : b.tsMs≤a.tsMs
        · have hbehind : ¬Lands db b := by
            intro hlands'
            refine hlands fun row hrow => ?_
            rw [hkey] at hrow
            exact (hlands' row hrow).trans hle
          have hwhole : a∈winners (xs++ys) := by
            refine winner_of_first ha fun b' hb' hkey' => ?_
            rw [winner_unique hb' hb (hkey'.trans hkey)]
            exact hle
          rw [s.get_whole hwhole hlaneA,upsertOne_of_not_lands hlands,
            upsertOne_of_not_lands hbehind]
        · have hwhole : b∈winners (xs++ys) := by
            refine winner_of_second hb fun a' ha' hkey' => ?_
            rw [winner_unique ha' ha (hkey'.trans hkey.symm)]
            exact not_le.mp hle
          rw [s.get_whole hwhole hlaneB]
    · left
      have hsame : ∀ (name : KeyspaceName) (k : Bytes), InLane b.idxKey (name,k) →
          (first name)[k]?=(db name)[k]? := by
        intro name' k' hlane
        refine get_upserted_of_other s.aligned s.delimitable_first s.earlier ?_
        rintro ⟨a,ha',hlane'⟩
        refine ha ⟨a,ha',?_⟩
        rw [hlane'.unique hlane]
        exact hlaneB
      have hwhole : b∈winners (xs++ys) := by
        refine winner_of_second hb fun a ha' hkey => absurd ⟨a,ha',?_⟩ ha
        rw [hkey]
        exact hlaneB
      rw [s.get_second_of_untouched hb hlaneB hsame,s.get_whole hwhole hlaneB]
  · left
    rw [get_upserted_of_other s.aligned_first s.delimitable_second s.later hb]
    by_cases ha : ∃ a∈winners xs, InLane a.idxKey (name,k)
    · obtain ⟨a,ha,hlane⟩ := ha
      have hwhole : a∈winners (xs++ys) := by
        refine winner_of_first ha fun b hb' hkey => absurd ⟨b,hb',?_⟩ hb
        rw [hkey]
        exact hlane
      rw [s.get_first ha hlane,s.get_whole hwhole hlane]
    · rw [get_upserted_of_other s.aligned s.delimitable_first s.earlier ha,
        get_upserted_of_other s.aligned s.delimitable s.joined]
      rintro ⟨w,hw,hlane⟩
      rcases exists_winner_of_part hw with ⟨a,ha',hkey⟩ | ⟨b,hb',hkey⟩
      · exact ha ⟨a,ha',by rw [hkey]; exact hlane⟩
      · exact hb ⟨b,hb',by rw [hkey]; exact hlane⟩

end

end Split

/-- Events that differ in their sessions only have one serialization. -/
theorem encodeEvent_eq {a b : ServerEvent}
    (h : {a with session := ""}={b with session := ""}) :
    encodeEvent bincode a=encodeEvent bincode b := by
  have hencoded := congrArg (encodeEvent bincode) h
  exact hencoded

/-- The first half stores an event, and the second half has one of its dedup key
that is not older. -/
structure Replaced (db : Db) (xs ys : List ServerEvent) (a b : ServerEvent) : Prop where
  /-- The event of the first half. -/
  earlier : a∈winners xs
  /-- The event of the second half. -/
  later : b∈winners ys
  /-- They share their dedup key. -/
  key : a.idxKey=b.idxKey
  /-- The event of the first half is stored. -/
  lands : Lands db a
  /-- The event of the second half is not older. -/
  le : a.tsMs≤b.tsMs

/-- Events of different times have different row keys. -/
theorem eventKey_ne {a b : ServerEvent} (hlt : a.tsMs<b.tsMs) : a.eventKey≠b.eventKey := by
  rw [eventKey_eq_rowKey,eventKey_eq_rowKey]
  intro heq
  exact hlt.ne (rowKey_inj.mp heq).1

namespace Replaced

variable {a b : ServerEvent} (r : Replaced db xs ys a b)
variable (s : Split bincode db whole first second xs ys)

include r

/-- Events of one time have one row key. -/
theorem eventKey_eq (htie : a.tsMs=b.tsMs) : a.eventKey=b.eventKey := by
  rw [eventKey_eq_rowKey,eventKey_eq_rowKey,htie,r.key]

include s

/-- The first half stores the event. -/
theorem landed : Landed bincode db first a :=
  landed_of_lands s.aligned s.delimitable_first s.earlier r.earlier r.lands

/-- The second half finds the event of the first one under its pointer. -/
theorem pointer_first : (first .idxMsg)[b.idxKey]?=some a.eventKey := by
  rw [←r.key]
  exact (r.landed s).pointer

theorem lands_first : Lands first b := by
  intro row hrow
  rw [r.pointer_first s,Option.some.injEq] at hrow
  rw [←hrow,rowTs,if_pos (eventKey_length a),fromBeBytes_eventKey]
  exact r.le

/-- The second half replaces the row of the first one. -/
theorem get_second {name : KeyspaceName} {k : Bytes} (hlane : InLane a.idxKey (name,k)) :
    (second name)[k]?=
      (commit first (replaceRow bincode (some a.eventKey) a.userId b) name)[k]? := by
  have huser : oldUser bincode first b=a.userId := by
    rw [oldUser,r.pointer_first s,Option.elim_some,rowUser,(r.landed s).row,Option.bind_some,
      decodeEvent_encodeEvent,Option.elim_some]
  rw [r.key] at hlane
  rw [s.get_second r.later hlane,upsertOne_of_lands (r.lands_first s),r.pointer_first s,huser]

/-- The row of the first half replaces what the store had. -/
theorem get_first {name : KeyspaceName} {k : Bytes} (hlane : InLane a.idxKey (name,k)) :
    (first name)[k]?=(commit db (replaceRow bincode (db .idxMsg)[a.idxKey]?
      (oldUser bincode db a) a) name)[k]? := by
  rw [s.get_first r.earlier hlane,upsertOne_of_lands r.lands]

/-- Of two events of one time the whole batch stores the first one. -/
theorem get_whole_of_tie (htie : a.tsMs=b.tsMs) {name : KeyspaceName} {k : Bytes}
    (hlane : InLane a.idxKey (name,k)) : (whole name)[k]?=(first name)[k]? := by
  have hwin : a∈winners (xs++ys) := by
    refine winner_of_first r.earlier fun b' hb' hkey => ?_
    rw [winner_unique hb' r.later (hkey.trans r.key)]
    exact htie.ge
  rw [s.get_whole hwin hlane,s.get_first r.earlier hlane]

/-- Of two events of different times the whole batch stores the second one. -/
theorem get_whole_of_lt (hlt : a.tsMs<b.tsMs) {name : KeyspaceName} {k : Bytes}
    (hlane : InLane a.idxKey (name,k)) : (whole name)[k]?=
      (commit db (replaceRow bincode (db .idxMsg)[a.idxKey]?
        (oldUser bincode db a) b) name)[k]? := by
  have hwin : b∈winners (xs++ys) := by
    refine winner_of_second r.later fun a' ha' hkey => ?_
    rw [winner_unique ha' r.earlier (hkey.trans r.key.symm)]
    exact hlt
  have hlands : Lands db b := by
    intro row hrow
    rw [←r.key] at hrow
    exact (r.lands row hrow).trans hlt.le
  have huser : (db .idxMsg)[a.idxKey]?.elim [] (removeRow (oldUser bincode db b))=
      (db .idxMsg)[a.idxKey]?.elim [] (removeRow (oldUser bincode db a)) := by
    cases hrow : (db .idxMsg)[a.idxKey]? with
    | none => rfl
    | some row =>
      obtain ⟨v,e,hv,he,-,-,-,hold⟩ := s.aligned.predecessor hrow
      rw [r.key] at hrow
      obtain ⟨v',e',hv',he',-,-,-,hold'⟩ := s.aligned.predecessor hrow
      rw [hv,Option.some.injEq] at hv'
      rw [←hv',he,Option.some.injEq] at he'
      rw [hold,hold',he']
  have hlaneB := hlane
  rw [r.key] at hlaneB
  rw [s.get_whole hwin hlaneB,upsertOne_of_lands hlands,replaceRow,replaceRow,←r.key,huser]

/-- Session of the event of the first half, as the whole batch leaves it. -/
theorem sessionAfter_first : loadSession first a.eventKey=sessionAfter db a :=
  (r.landed s).loadSession

/-- Session of the event of the second half, over one of the same time. -/
theorem session_second (htie : a.tsMs=b.tsMs) : loadSession second b.eventKey=b.session := by
  have hlanded := landed_of_lands s.aligned_first s.delimitable_second s.later r.later
    (r.lands_first s)
  rw [hlanded.loadSession,r.pointer_first s,r.eventKey_eq htie,if_pos rfl]
  split_ifs with hsession
  · rfl
  · exact (not_not.mp hsession).symm

/-- A safe pair leaves the same rows. -/
theorem events_eq (hsafe : PairSafe bincode db a b) {k : Bytes}
    (hlane : InLane a.idxKey (.events,k)) : (whole .events)[k]?=(second .events)[k]? := by
  rw [r.get_second s hlane,get_replaceRow_events]
  rcases r.le.eq_or_lt with htie | hlt
  · rw [r.get_whole_of_tie s htie hlane,←r.eventKey_eq htie]
    split_ifs with hk hold
    · rw [hk,(r.landed s).row,encodeEvent_eq (hsafe.1 htie).1]
    · rw [Option.some.injEq] at hold
      exact absurd hold.symm hk
    · rfl
  · rw [r.get_whole_of_lt s hlt hlane,get_replaceRow_events,r.get_first s hlane,
      get_replaceRow_events]
    by_cases hb : k=b.eventKey
    · rw [if_pos hb,if_pos hb]
    · rw [if_neg hb,if_neg hb]
      by_cases ha : k=a.eventKey
      · rw [if_pos (congrArg some ha.symm),ha]
        split_ifs with hpointer
        · rfl
        · have hleaves := (hsafe.2 hlt).1
          by_contra hrow
          exact hleaves ⟨hpointer,Option.ne_none_iff_exists'.mp hrow⟩
      · rw [if_neg fun hold => ha (Option.some.inj hold).symm,if_neg ha]

/-- A safe pair leaves the same index entries. -/
theorem idxUser_eq (hsafe : PairSafe bincode db a b) {x : Bytes}
    (hlane : InLane a.idxKey (.idxUser,x)) : (whole .idxUser)[x]?=(second .idxUser)[x]? := by
  have hold : (∃ row, some a.eventKey=some row ∧ x=userIdxKey a.userId row) ↔
      x=userIdxKey a.userId a.eventKey := by
    simp only [Option.some.injEq,exists_eq_left']
  rw [r.get_second s hlane,get_replaceRow_idxUser,if_congr hold rfl rfl]
  rcases r.le.eq_or_lt with htie | hlt
  · have hsame := (hsafe.1 htie).1
    have huser := congrArg ServerEvent.userId hsame
    dsimp only at huser
    rw [r.get_whole_of_tie s htie hlane,←r.eventKey_eq htie,←huser]
    by_cases hx : x=userIdxKey a.userId a.eventKey
    · rw [if_pos hx,r.get_first s hlane,get_replaceRow_idxUser,if_pos hx,encodeEvent_eq hsame]
    · rw [if_neg hx,if_neg hx]
  · rw [r.get_whole_of_lt s hlt hlane,get_replaceRow_idxUser,r.get_first s hlane,
      get_replaceRow_idxUser]
    by_cases hb : x=userIdxKey b.userId b.eventKey
    · rw [if_pos hb,if_pos hb]
    · rw [if_neg hb,if_neg hb]
      by_cases ha : x=userIdxKey a.userId a.eventKey
      · rw [if_pos ha,ha]
        split_ifs with hpointer
        · rfl
        · have hleaves := (hsafe.2 hlt).2
          by_contra hentry
          refine hleaves ⟨?_,Option.ne_none_iff_exists'.mp hentry⟩
          rintro ⟨hrow,huser⟩
          refine hpointer ⟨a.eventKey,hrow,?_⟩
          rw [oldUser,hrow,Option.elim_some,huser]
      · rw [if_neg ha,if_neg ha]

/-- A safe pair leaves the same sessions to read. -/
theorem session_eq (hsafe : PairSafe bincode db a b) (hrowed : SessionsRowed db) {k : Bytes}
    (hlane : InLane a.idxKey (.sessions,k)) (hk : fromBeBytes (k.take 8)≠Int64.maxValue) :
    loadSession whole k=loadSession second k := by
  rcases r.le.eq_or_lt with htie | hlt
  · by_cases hb : k=b.eventKey
    · rw [hb,fromBeBytes_eventKey,←htie] at hk
      rw [hb,r.session_second s htie,←(hsafe.1 htie).2 hk,←r.sessionAfter_first s,
        ←r.eventKey_eq htie,loadSession,loadSession,
        r.get_whole_of_tie s htie (eventKey_inLane a (Or.inr rfl))]
    · rw [loadSession,loadSession,r.get_whole_of_tie s htie hlane,r.get_second s hlane,
        get_replaceRow_sessions,if_neg fun h => hb h.1,if_neg]
      rw [r.eventKey_eq htie,Option.some.injEq]
      exact fun h => hb h.symm
  · rw [loadSession,loadSession,r.get_whole_of_lt s hlt hlane,r.get_second s hlane,
      get_replaceRow_sessions,get_replaceRow_sessions,r.get_first s hlane,get_replaceRow_sessions]
    by_cases hb : k=b.eventKey ∧ b.session≠""
    · rw [if_pos hb,if_pos hb]
    · rw [if_neg hb,if_neg hb]
      by_cases ha : k=a.eventKey
      · rw [if_pos (congrArg some ha.symm),ha]
        split_ifs with hpointer
        · rfl
        · have hnone : (db .sessions)[a.eventKey]?=none := by
            by_contra hsession
            obtain ⟨v,hv⟩ := Option.ne_none_iff_exists'.mp hsession
            exact (hsafe.2 hlt).1 ⟨hpointer,hrowed _ _ hv⟩
          rw [hnone]
      · have hrow : ¬some a.eventKey=some k := fun h => ha (Option.some.inj h).symm
        have hsession : ¬(k=a.eventKey ∧ a.session≠"") := fun h => ha h.1
        rw [if_neg hrow,if_neg hsession]

end Replaced

/-- With safe pairs the whole batch and its halves are read alike. -/
theorem Split.readAlike (s : Split bincode db whole first second xs ys) (hrowed : SessionsRowed db)
    (hsafe : ∀ a∈winners xs, ∀ b∈winners ys, a.idxKey=b.idxKey → Lands db a →
      PairSafe bincode db a b) : ReadAlike whole second := by
  constructor
  · refine Std.ExtTreeMap.ext_getElem? fun k => ?_
    rcases s.get_eq_or .events k with heq | ⟨a,ha,b,hb,hkey,hlane,hlands,hle⟩
    · exact heq
    · have r : Replaced db xs ys a b := ⟨ha,hb,hkey,hlands,hle⟩
      exact r.events_eq s (hsafe a ha b hb hkey hlands) hlane
  · refine Std.ExtTreeMap.ext_getElem? fun k => ?_
    rcases s.get_eq_or .idxUser k with heq | ⟨a,ha,b,hb,hkey,hlane,hlands,hle⟩
    · exact heq
    · have r : Replaced db xs ys a b := ⟨ha,hb,hkey,hlands,hle⟩
      exact r.idxUser_eq s (hsafe a ha b hb hkey hlands) hlane
  · intro k hk
    rcases s.get_eq_or .sessions k with heq | ⟨a,ha,b,hb,hkey,hlane,hlands,hle⟩
    · rw [loadSession,loadSession,heq]
    · have r : Replaced db xs ys a b := ⟨ha,hb,hkey,hlands,hle⟩
      exact r.session_eq s (hsafe a ha b hb hkey hlands) hrowed hlane hk

/-- A mutation keeps every session with a row. -/
theorem SessionsRowed.step (hrowed : SessionsRowed db) (h : Aligned bincode db) {op : StoreOp}
    {db' : Db} (hd : op.Delimitable) (hstep : StoreStep bincode db op db') : SessionsRowed db' := by
  intro k v hv
  cases op with
  | upsert events =>
    by_cases hlane : ∃ w∈winners events, InLane w.idxKey (.sessions,k)
    · obtain ⟨w,hw,hlane⟩ := hlane
      have hlane' : InLane w.idxKey (.events,k) := hlane
      rw [get_upserted_of_inLane h hd hstep hw hlane] at hv
      rw [get_upserted_of_inLane h hd hstep hw hlane']
      by_cases hlands : Lands db w
      · rw [upsertOne_of_lands hlands,get_replaceRow_sessions] at hv
        rw [upsertOne_of_lands hlands,get_replaceRow_events]
        by_cases hk : k=w.eventKey
        · exact ⟨_,if_pos hk⟩
        · have hsession : ¬(k=w.eventKey ∧ w.session≠"") := fun hs => hk hs.1
          rw [if_neg hsession] at hv
          split_ifs at hv with hold
          obtain ⟨row,hrow⟩ := hrowed k v hv
          exact ⟨row,by rw [if_neg hk,if_neg hold,hrow]⟩
      · rw [upsertOne_of_not_lands hlands] at hv ⊢
        exact hrowed k v hv
    · have hlane' : ¬∃ w∈winners events, InLane w.idxKey (.events,k) := hlane
      rw [get_upserted_of_other h hd hstep hlane] at hv
      rw [get_upserted_of_other h hd hstep hlane']
      exact hrowed k v hv
  | cleanup deviceId cutoffMs =>
    cases hstep
    rw [get_cleanupOldDedup_of_ne _ _ _ (by decide)] at hv ⊢
    exact hrowed k v hv
  | delete deviceId =>
    cases hstep
    obtain ⟨hv,hkeep⟩ := (get_deleteDeviceEvents _ _ _ _ _).mp hv
    obtain ⟨row,hrow⟩ := hrowed k v hv
    refine ⟨row,get_deleteDeviceEvents_events.mpr ⟨hrow,fun e he hdev => ?_⟩⟩
    exact hkeep (Or.inl ⟨k,row,e,hrow,he,hdev,Or.inr (Or.inr (Or.inl rfl))⟩)

/-- Every session of a state that a run reaches belongs to a row. -/
theorem SessionsRowed.of_run {history : List StoreOp}
    (run : Run (StoreStep bincode) emptyDb history db) (hd : ∀ op∈history, op.Delimitable) :
    SessionsRowed db := by
  refine (Run.invariant_of (A:=fun history => ∀ op∈history, op.Delimitable) forall_mem_tail
    (I:=fun _ db => Aligned bincode db ∧ SessionsRowed db) ?_ ?_ hd run).2
  · have hempty : Coherent bincode [] emptyDb := coherent_emptyDb
    exact ⟨hempty.aligned,hempty.mirrored.session⟩
  · rintro past s op t hrun hd ⟨h,hrowed⟩ hstep
    have hop := hd op List.mem_cons_self
    have hi := (Indexed.of_run hrun (forall_mem_tail op past hd)).2
    exact ⟨(hi.step h hop hstep).1,hrowed.step h hop hstep⟩

/-- What is stored under a key. -/
theorem mem_storedEvents_iff (h : Aligned bincode db) {e : ServerEvent} :
    e∈storedEvents bincode db ↔ ∃ (v : Bytes) (x : ServerEvent),
      (db .events)[e.eventKey]?=some v ∧ decodeEvent bincode v=some x ∧
        e={x with session := loadSession db e.eventKey} := by
  constructor
  · intro he
    obtain ⟨⟨k,v⟩,hkv,hrow⟩ := List.mem_filterMap.mp he
    have hv := Std.ExtTreeMap.mem_toList_iff_getElem?_eq_some.mp hkv
    obtain ⟨x,hx,rfl⟩ := Option.map_eq_some_iff.mp hrow
    obtain ⟨hk,-⟩ := h.of_decode hv hx
    have hkey : k=ServerEvent.eventKey {x with session := loadSession db k} := hk
    exact ⟨v,x,by rw [←hkey]; exact hv,hx,by rw [←hkey]⟩
  · rintro ⟨v,x,hv,hx,he⟩
    refine List.mem_filterMap.mpr
      ⟨(e.eventKey,v),Std.ExtTreeMap.mem_toList_iff_getElem?_eq_some.mpr hv,?_⟩
    rw [storedRow,hx,Option.map_some]
    exact congrArg some he.symm

/-- An entry under a user and a row key is listed for the user. -/
theorem exists_indexed_of_entry (hi : Indexed bincode db) {uid : String} (hu : NulFree (utf8 uid))
    {k v : Bytes} (hv : (db .idxUser)[userIdxKey uid k]?=some v) :
    ∃ e∈indexedEvents bincode db uid, e.eventKey=k := by
  have hmem : (userIdxKey uid k,v)∈keyspacePrefix (db .idxUser) (delimited (utf8 uid)) :=
    List.mem_filter.mpr ⟨Std.ExtTreeMap.mem_toList_iff_getElem?_eq_some.mpr hv,
      decide_eq_true (List.prefix_append _ _)⟩
  obtain ⟨e,hrow,hkey,-⟩ := indexedRow_eq hi hu hmem
  exact ⟨e,List.mem_filterMap.mpr ⟨_,hmem,hrow⟩,((userIdxKey_inj hu hu).mp hkey).2.symm⟩

/-- What is listed for a user has its entry. -/
theorem entry_of_mem_indexedEvents (hi : Indexed bincode db) {uid : String}
    (hu : NulFree (utf8 uid)) {e : ServerEvent} (he : e∈indexedEvents bincode db uid) :
    ∃ v x, (db .idxUser)[userIdxKey uid e.eventKey]?=some v ∧ decodeEvent bincode v=some x ∧
      x.tsMs=e.tsMs := by
  obtain ⟨kv,hkv,hrow⟩ := List.mem_filterMap.mp he
  obtain ⟨e',hrow',hkey,-⟩ := indexedRow_eq hi hu hkv
  rw [hrow',Option.some.injEq] at hrow
  subst hrow
  have hv := Std.ExtTreeMap.mem_toList_iff_getElem?_eq_some.mp (List.mem_of_mem_filter hkv)
  obtain ⟨x,hx,hxe⟩ := Option.map_eq_some_iff.mp hrow'
  refine ⟨kv.2,x,by rw [←hkey]; exact hv,hx,?_⟩
  rw [←hxe]

/-- An entry after an upsert was there before or is that of a winner. -/
theorem entry_of_upserted {batch : List ServerEvent} {db' : Db} (h : Aligned bincode db)
    (hd : ∀ e∈batch, e.Delimitable) (hup : UpsertEvents bincode db batch db') {x v : Bytes}
    (hv : (db' .idxUser)[x]?=some v) :
    (db .idxUser)[x]?=some v ∨ ∃ w∈winners batch, v=encodeEvent bincode w := by
  by_cases hlane : ∃ w∈winners batch, InLane w.idxKey (.idxUser,x)
  · obtain ⟨w,hw,hlane⟩ := hlane
    rw [get_upserted_of_inLane h hd hup hw hlane] at hv
    by_cases hlands : Lands db w
    · rw [upsertOne_of_lands hlands,get_replaceRow_idxUser] at hv
      split_ifs at hv with hx hold
      · exact Or.inr ⟨w,hw,(Option.some.inj hv).symm⟩
      · exact Or.inl hv
    · rw [upsertOne_of_not_lands hlands] at hv
      exact Or.inl hv
  · rw [get_upserted_of_other h hd hup hlane] at hv
    exact Or.inl hv

/-- Times stay readable. -/
theorem Readable.indexed {batch : List ServerEvent} {db' : Db}
    (hreadable : Readable bincode db batch) (h : Aligned bincode db)
    (hd : ∀ e∈batch, e.Delimitable) (hup : UpsertEvents bincode db batch db')
    (hi : Indexed bincode db') {uid : String} (hu : NulFree (utf8 uid)) :
    ∀ e∈indexedEvents bincode db' uid, e.tsMs≠Int64.maxValue := by
  intro e he
  obtain ⟨v,x,hv,hx,hts⟩ := entry_of_mem_indexedEvents hi hu he
  rw [←hts]
  rcases entry_of_upserted h hd hup hv with hold | ⟨w,hw,rfl⟩
  · exact hreadable.1 _ v x hold hx
  · rw [decodeEvent_encodeEvent,Option.some.injEq] at hx
    rw [←hx]
    exact hreadable.2 w (mem_of_mem_winners hw)

section

variable {a b : ServerEvent} (r : Replaced db xs ys a b)
variable (s : Split bincode db whole first second xs ys)

include r s

/-- Of two events of one time the whole batch shows the first one. -/
theorem Replaced.stored_whole (htie : a.tsMs=b.tsMs) (h : Aligned bincode whole) :
    {a with session := sessionAfter db a}∈storedEvents bincode whole := by
  have hlane : InLane a.idxKey (.events,a.eventKey) := eventKey_inLane a (Or.inl rfl)
  have hlane' : InLane a.idxKey (.sessions,a.eventKey) := eventKey_inLane a (Or.inr rfl)
  have hsession : loadSession whole a.eventKey=sessionAfter db a := by
    rw [←r.sessionAfter_first s,loadSession,loadSession,r.get_whole_of_tie s htie hlane']
  refine (mem_storedEvents_iff h).mpr ⟨encodeEvent bincode a,{a with session := ""},?_,
    decodeEvent_encodeEvent bincode a,?_⟩
  · have hrow := r.get_whole_of_tie s htie hlane
    rw [(r.landed s).row] at hrow
    exact hrow
  · have hkey : ServerEvent.eventKey {a with session := sessionAfter db a}=a.eventKey := rfl
    rw [hkey,hsession]

/-- Of two events of one time the halves show the second one. -/
theorem Replaced.stored_second (h : Aligned bincode second) (htie : a.tsMs=b.tsMs)
    {e : ServerEvent} (he : e∈storedEvents bincode second) (hkey : e.eventKey=a.eventKey) :
    e=b := by
  obtain ⟨v,x,hv,hx,hex⟩ := (mem_storedEvents_iff h).mp he
  rw [hkey,r.get_second s (eventKey_inLane a (Or.inl rfl)),get_replaceRow_events,
    if_pos (r.eventKey_eq htie),Option.some.injEq] at hv
  rw [←hv,decodeEvent_encodeEvent,Option.some.injEq] at hx
  rw [hkey,r.eventKey_eq htie,r.session_second s htie,←hx] at hex
  exact hex

/-- A row that lies under the key of an older event survives the whole batch
and not its halves. -/
theorem Replaced.row_whole (hlt : a.tsMs<b.tsMs) (hleaves : LeavesRow db a) :
    (∃ v, (whole .events)[a.eventKey]?=some v) ∧ (second .events)[a.eventKey]?=none := by
  have hlane : InLane a.idxKey (.events,a.eventKey) := eventKey_inLane a (Or.inl rfl)
  obtain ⟨hpointer,v,hv⟩ := hleaves
  have hne := eventKey_ne hlt
  refine ⟨⟨v,?_⟩,?_⟩
  · rw [r.get_whole_of_lt s hlt hlane,get_replaceRow_events,if_neg hne,if_neg hpointer,hv]
  · rw [r.get_second s hlane,get_replaceRow_events,if_neg hne,if_pos rfl]

/-- An entry under the user and key of an older event survives the whole batch
and not its halves. -/
theorem Replaced.entry_whole (hlt : a.tsMs<b.tsMs) (hleaves : LeavesEntry bincode db a) :
    (∃ v, (whole .idxUser)[userIdxKey a.userId a.eventKey]?=some v) ∧
      (second .idxUser)[userIdxKey a.userId a.eventKey]?=none := by
  have ha := s.delimitable_first a (mem_of_mem_winners r.earlier)
  have hb := s.delimitable_second b (mem_of_mem_winners r.later)
  have hlane : InLane a.idxKey (.idxUser,userIdxKey a.userId a.eventKey) :=
    ⟨a.userId,a.tsMs,ha.2,by rw [eventKey_eq_rowKey]⟩
  obtain ⟨hown,v,hv⟩ := hleaves
  have hne : userIdxKey a.userId a.eventKey≠userIdxKey b.userId b.eventKey := by
    rw [Ne,userIdxKey_inj ha.2 hb.2]
    exact fun heq => eventKey_ne hlt heq.2
  refine ⟨⟨v,?_⟩,?_⟩
  · rw [r.get_whole_of_lt s hlt hlane,get_replaceRow_idxUser,if_neg hne,if_neg,hv]
    rintro ⟨row,hrow,hkey⟩
    obtain ⟨-,e,-,-,-,-,hed,hold⟩ := s.aligned.predecessor hrow
    have huser : oldUser bincode db a=rowUser bincode db row a := by
      rw [oldUser,hrow,Option.elim_some]
    rw [hold,userIdxKey_inj ha.2 hed.2] at hkey
    rw [←hkey.2] at hrow huser
    exact hown ⟨hrow,by rw [←huser,hold,hkey.1]⟩
  · rw [r.get_second s hlane,get_replaceRow_idxUser,if_neg hne,if_pos ⟨a.eventKey,rfl,rfl⟩]

/-- Where the whole batch and its halves answer alike, pairs are safe. -/
theorem Replaced.safe (hreadable : Readable bincode db (xs++ys))
    (hw : Aligned bincode whole) (hiw : Indexed bincode whole) (hs : Aligned bincode second)
    (his : Indexed bincode second)
    (hsame : ∀ (sinceMs untilMs : Int64) (filter : UserFilter) (limit : ℕ),
      queryEvents bincode whole sinceMs untilMs filter limit=
        queryEvents bincode second sinceMs untilMs filter limit) : PairSafe bincode db a b := by
  have ha := mem_of_mem_winners r.earlier
  have hts : a.tsMs≠Int64.maxValue := hreadable.2 a (List.mem_append_left _ ha)
  have hall : UserFilter.Delimitable .all := trivial
  have hscan : ∀ {e : ServerEvent}, e∈storedEvents bincode whole → e.tsMs≠Int64.maxValue →
      e∈storedEvents bincode second := by
    intro e he hne
    have hfound := mem_allScan_of_stored hw he hne
    have heq : allScan bincode whole e.tsMs Int64.maxValue=
        allScan bincode second e.tsMs Int64.maxValue :=
      fullQuery_eq_of_queries hw hiw hs his hsame hall
    rw [heq] at hfound
    exact ((mem_allScan hs _ _).mp hfound).1
  refine ⟨fun htie => ?_,fun hlt => ⟨fun hleaves => ?_,fun hleaves => ?_⟩⟩
  · have hstored := hscan (r.stored_whole s htie hw) hts
    have heq := r.stored_second s hs htie hstored rfl
    have hsession := congrArg ServerEvent.session heq
    refine ⟨?_,fun _ => hsession⟩
    rw [←heq]
  · obtain ⟨⟨v,hv⟩,hnone⟩ := r.row_whole s hlt hleaves
    obtain ⟨e,he,hkey,-⟩ := hw.row _ _ hv
    have hets : e.tsMs=a.tsMs := by
      rw [←fromBeBytes_eventKey e,←hkey,fromBeBytes_eventKey]
    have hrow : {e with session := loadSession whole a.eventKey}∈storedEvents bincode whole := by
      refine (mem_storedEvents_iff hw).mpr ⟨v,e,?_,he,?_⟩
      · have hekey : ServerEvent.eventKey {e with session := loadSession whole a.eventKey}=
            a.eventKey := hkey.symm
        rw [hekey,hv]
      · have hekey : ServerEvent.eventKey {e with session := loadSession whole a.eventKey}=
            a.eventKey := hkey.symm
        rw [hekey]
    obtain ⟨v',-,hv',-⟩ := (mem_storedEvents_iff hs).mp (hscan hrow (hets.trans_ne hts))
    have hekey : ServerEvent.eventKey {e with session := loadSession whole a.eventKey}=
        a.eventKey := hkey.symm
    rw [hekey,hnone] at hv'
    cases hv'
  · obtain ⟨⟨v,hv⟩,hnone⟩ := r.entry_whole s hlt hleaves
    have hu := (s.delimitable_first a ha).2
    obtain ⟨e,he,hkey⟩ := exists_indexed_of_entry hiw hu hv
    have hets : e.tsMs=a.tsMs := by
      rw [←fromBeBytes_eventKey e,hkey,fromBeBytes_eventKey]
    have hfound : e∈userScan bincode whole e.tsMs Int64.maxValue a.userId := by
      refine (mem_userScan hiw _ _ hu).mpr ⟨he,le_rfl,?_,fun _ => ?_⟩
      · exact lt_of_le_of_ne (Int64.le_maxValue _) (hets.trans_ne hts)
      · rintro ⟨x,hx,-,hend⟩
        exact hreadable.indexed s.aligned s.delimitable s.joined hiw hu x hx
          (le_antisymm (Int64.le_maxValue _) hend)
    have hf : UserFilter.Delimitable (.single a.userId) := hu
    have heq : userScan bincode whole e.tsMs Int64.maxValue a.userId=
        userScan bincode second e.tsMs Int64.maxValue a.userId :=
      fullQuery_eq_of_queries hw hiw hs his hsame hf
    rw [heq] at hfound
    obtain ⟨v',-,hv',-⟩ := entry_of_mem_indexedEvents his hu ((mem_userScan his _ _ hu).mp hfound).1
    rw [hkey,hnone] at hv'
    cases hv'

end

end

/-- Splitting a batch does not matter when its pairs are safe, and only then,
unless times are the last one, which no range includes. -/
theorem splits_iff_safe (bincode : Codec PersistedEvent) {history : List StoreOp} {db : Db}
    (run : Run (StoreStep bincode) emptyDb history db) (hops : ∀ op∈history, op.Delimitable)
    {xs ys : List ServerEvent} (hd : ∀ e∈xs++ys, e.Delimitable) :
    (SplitSafe bincode db xs ys → SplitsAlike bincode db xs ys) ∧
      (Readable bincode db (xs++ys) → SplitsAlike bincode db xs ys →
        SplitSafe bincode db xs ys) := by
  obtain ⟨h,-⟩ := Indexed.of_run run hops
  have hrowed := SessionsRowed.of_run run hops
  have hxs : ∀ e∈xs, e.Delimitable := fun e he => hd e (List.mem_append_left _ he)
  have hys : ∀ e∈ys, e.Delimitable := fun e he => hd e (List.mem_append_right _ he)
  constructor
  · intro hsafe whole first second hjoined hearlier hlater
    have s : Split bincode db whole first second xs ys := ⟨h,hd,hjoined,hearlier,hlater⟩
    have halike := s.readAlike hrowed fun a ha b hb hkey hlands =>
      hsafe a b (mem_winners_iff_leads.mp ha) (mem_winners_iff_leads.mp hb) hkey hlands
    exact halike.queryEvents
  · intro hreadable halike a b ha hb hkey hlands
    have hjoined : UpsertEvents bincode db (xs++ys) (upsertEvents bincode db (xs++ys)) :=
      ⟨_,.refl _,rfl⟩
    generalize upsertEvents bincode db (xs++ys)=whole at hjoined
    have hearlier : UpsertEvents bincode db xs (upsertEvents bincode db xs) := ⟨_,.refl _,rfl⟩
    generalize upsertEvents bincode db xs=first at hearlier
    have hlater : UpsertEvents bincode first ys (upsertEvents bincode first ys) := ⟨_,.refl _,rfl⟩
    generalize upsertEvents bincode first ys=second at hlater
    have s : Split bincode db whole first second xs ys := ⟨h,hd,hjoined,hearlier,hlater⟩
    rcases le_or_gt a.tsMs b.tsMs with hle | hgt
    · have r : Replaced db xs ys a b :=
        ⟨mem_winners_iff_leads.mpr ha,mem_winners_iff_leads.mpr hb,hkey,hlands,hle⟩
      have hrunW : Run (StoreStep bincode) emptyDb (.upsert (xs++ys)::history) whole :=
        .next _ run hjoined
      have hrunF : Run (StoreStep bincode) emptyDb (.upsert xs::history) first :=
        .next _ run hearlier
      have hrunS : Run (StoreStep bincode) emptyDb (.upsert ys::.upsert xs::history) second :=
        .next _ hrunF hlater
      obtain ⟨hw,hiw⟩ := Indexed.of_run hrunW (List.forall_mem_cons.mpr ⟨hd,hops⟩)
      obtain ⟨hs,his⟩ := Indexed.of_run hrunS
        (List.forall_mem_cons.mpr ⟨hys,List.forall_mem_cons.mpr ⟨hxs,hops⟩⟩)
      exact r.safe s hreadable hw hiw hs his (halike whole first second hjoined hearlier hlater)
    · exact ⟨fun htie => absurd htie hgt.ne',fun hlt => absurd hlt (not_lt.mpr hgt.le)⟩

/-- A newer event splits off an upload to the sample store. -/
theorem splits_sample :
    SplitsAlike eventLayout.codec sampleDb [sampleEvent 6 "t"] [sampleEvent 7 ""] := by
  have run : Run (StoreStep eventLayout.codec) emptyDb sampleHistory sampleDb :=
    .next _ (.next _ (.next _ .start ⟨_,.refl _,rfl⟩) rfl) ⟨_,.refl _,rfl⟩
  refine (splits_iff_safe eventLayout.codec run (by decide) (by decide)).1 fun a b ha hb _ _ => ?_
  have hrow : (sampleDb .events)[(sampleEvent 6 "t").eventKey]?=none := by decide +kernel
  have hentry : (sampleDb .idxUser)[userIdxKey "u1" (sampleEvent 6 "t").eventKey]?=none := by
    decide +kernel
  rw [List.mem_singleton.mp (List.mem_of_find?_eq_some ha),
    List.mem_singleton.mp (List.mem_of_find?_eq_some hb)]
  refine ⟨fun htie => absurd htie (by decide),fun _ => ⟨?_,?_⟩⟩
  · rintro ⟨-,v,hv⟩
    rw [hrow] at hv
    cases hv
  · rintro ⟨-,v,hv⟩
    have hnone := hentry.symm.trans hv
    cases hnone

/-- The sample event with other tokens. -/
def recountedEvent : ServerEvent := {sampleEvent 5 "" with outputTokens := 3}

/-- Of two events of one time one batch keeps the first and two batches keep
the second. -/
theorem split_changes_tie : ¬∀ (history : List StoreOp) (db : Db),
    Run (StoreStep eventLayout.codec) emptyDb history db → (∀ op∈history, op.Delimitable) →
    ∀ xs ys : List ServerEvent, (∀ e∈xs++ys, e.Delimitable) →
      SplitsAlike eventLayout.codec db xs ys := by
  intro hall
  have hsame := hall [] emptyDb .start (by decide) [sampleEvent 5 ""] [recountedEvent] (by decide)
    _ _ _ ⟨_,.refl _,rfl⟩ ⟨_,.refl _,rfl⟩ ⟨_,.refl _,rfl⟩ 0 100 .all 1
  have hdiffer : (queryEvents eventLayout.codec (upsertEvents eventLayout.codec emptyDb
        ([sampleEvent 5 ""]++[recountedEvent])) 0 100 .all 1).map ServerEvent.outputTokens≠
      (queryEvents eventLayout.codec (upsertEvents eventLayout.codec (upsertEvents eventLayout.codec
        emptyDb [sampleEvent 5 ""]) [recountedEvent]) 0 100 .all 1).map
          ServerEvent.outputTokens := by
    decide +kernel
  exact hdiffer (congrArg (List.map ServerEvent.outputTokens) hsame)

end TokiSync.FjallSplits
