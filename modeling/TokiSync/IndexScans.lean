import TokiSync.FjallContents
import TokiSync.FjallQueries

/-!
# The per-user index agrees with the full scan

When every device uploads for one user between its deletions and no time is
negative, the entries of a user's index are the rows of the user in the order
of the rows, so the scan of the index is the full scan restricted to the user.
A query for several users joins these scans, and a limit cuts what is joined.
-/

namespace TokiSync.IndexScans

open MachineWords ByteKeys ByteCodec BatchedMaps ServerEvents FjallStore FjallCoherence
open FjallBatches FjallRuns FjallContents FjallIndex FjallQueries RangeScans Runs

/-- No upsert of a history has negative times. -/
def TimesOk (history : List StoreOp) : Prop :=
  ∀ op∈history, ∀ events, op=.upsert events → ∀ e∈events, 0≤e.tsMs

section

variable (bincode : Codec PersistedEvent) (db : Db)

/-- What a filter selects, as far as it is asked user by user, in the order of
the users. -/
def listedEvents (sinceMs untilMs : Int64) : UserFilter → List ServerEvent
  | .single uid => selectedEvents bincode db sinceMs untilMs (.single uid)
  | .multiple uids => uids.flatMap fun uid => selectedEvents bincode db sinceMs untilMs (.single uid)
  | .all => selectedEvents bincode db sinceMs untilMs .all

end

section

variable {bincode : Codec PersistedEvent} {db : Db} {history : List StoreOp}

/-- Live events were uploaded. -/
theorem nonneg_of_mem_live (htimes : TimesOk history) : ∀ e∈live history, 0≤e.tsMs := by
  induction history with
  | nil => exact fun e he => absurd he List.not_mem_nil
  | cons op past ih =>
    have ih := ih fun x hx => htimes x (List.mem_cons_of_mem op hx)
    intro e he
    cases op with
    | upsert events =>
      rcases List.mem_append.mp he with he | he
      · exact ih e he
      · exact htimes _ List.mem_cons_self events rfl e he
    | cleanup deviceId cutoffMs => exact ih e he
    | delete deviceId => exact ih e (List.mem_of_mem_filter he)

/-- Every state a run reaches agrees with its live events. -/
theorem agrees_of_run (run : Run (StoreStep bincode) emptyDb history db)
    (hd : ∀ op∈history, op.Delimitable) : Agrees bincode db (live history) := by
  refine Run.invariant_of (A:=fun ops => ∀ op∈ops, op.Delimitable) forall_mem_tail
    (I:=fun past s => Agrees bincode s (live past)) agrees_emptyDb ?_ hd run
  intro past s op t _ hA hagrees hstep
  exact hagrees.step op (hA op List.mem_cons_self) hstep

/-- Stored events have no negative times when none was uploaded. -/
theorem nonneg_of_stored (run : Run (StoreStep bincode) emptyDb history db)
    (hd : ∀ op∈history, op.Delimitable) (htimes : TimesOk history) :
    ∀ e∈storedEvents bincode db, 0≤e.tsMs := by
  intro e he
  obtain ⟨⟨k,v⟩,hkv,hrow⟩ := List.mem_filterMap.mp he
  obtain ⟨x,hx,rfl⟩ := Option.map_eq_some_iff.mp hrow
  have hv := Std.ExtTreeMap.mem_toList_iff_getElem?_eq_some.mp hkv
  obtain ⟨y,hy,rfl⟩ := (agrees_of_run run hd).row k v x hv hx
  exact nonneg_of_mem_live htimes y hy

/-- Stored events come in the order of their row keys. -/
theorem keyOrdered_storedEvents (h : Aligned bincode db) :
    KeyOrdered ServerEvent.eventKey (storedEvents bincode db) := by
  have hsorted := Std.ExtTreeMap.ordered_keys_toList (t:=db .events)
  refine List.pairwise_filterMap.mpr (List.Pairwise.imp_of_mem ?_ hsorted)
  intro a b ha hb hlt e he e' he'
  obtain ⟨x,hx,hxk⟩ := storedRow_eq h ha
  obtain ⟨y,hy,hyk⟩ := storedRow_eq h hb
  rw [hx,Option.some.injEq] at he
  rw [hy,Option.some.injEq] at he'
  rw [←he,←he',←hxk,←hyk]
  exact hlt

/-- Events of a user's index come in the order of their row keys. -/
theorem keyOrdered_indexedEvents (hi : Indexed bincode db) {userId : String}
    (hu : NulFree (utf8 userId)) :
    KeyOrdered ServerEvent.eventKey (indexedEvents bincode db userId) := by
  have hsorted := Std.ExtTreeMap.ordered_keys_toList (t:=db .idxUser)
  refine List.pairwise_filterMap.mpr (List.Pairwise.imp_of_mem ?_ (hsorted.filter _))
  intro a b ha hb hlt e he e' he'
  obtain ⟨x,hx,hxk,-⟩ := indexedRow_eq hi hu ha
  obtain ⟨y,hy,hyk,-⟩ := indexedRow_eq hi hu hb
  rw [hx,Option.some.injEq] at he
  rw [hy,Option.some.injEq] at he'
  rw [hxk,hyk,compare_userIdxKey] at hlt
  rw [←he,←he']
  exact hlt

/-- The full scan finds the rows of the range in their order. -/
theorem allScan_eq (h : Aligned bincode db) {sinceMs untilMs : Int64}
    (horder : ScanInOrder bincode db sinceMs untilMs) :
    allScan bincode db sinceMs untilMs=selectedEvents bincode db sinceMs untilMs .all := by
  have hstored := keyOrdered_storedEvents h
  refine KeyOrdered.eq_of_mem_iff ?_ (hstored.filter _)
    ((mem_allScan_iff h sinceMs untilMs).mpr horder)
  have hsub : (allScan bincode db sinceMs untilMs).Sublist (storedEvents bincode db) :=
    ((List.takeWhile_sublist _).trans List.filter_sublist).filterMap _
  exact hstored.sublist hsub

/-- The scan of a user's index finds the user's rows of the range in their
order. -/
theorem userScan_eq (h : Aligned bincode db) (hi : Indexed bincode db) {sinceMs untilMs : Int64}
    {userId : String} (hu : NulFree (utf8 userId))
    (horder : UserInOrder bincode db sinceMs untilMs userId) :
    userScan bincode db sinceMs untilMs userId=
      selectedEvents bincode db sinceMs untilMs (.single userId) := by
  refine KeyOrdered.eq_of_mem_iff ?_ ((keyOrdered_storedEvents h).filter _)
    ((mem_userScan_iff hi sinceMs untilMs hu).mpr horder)
  have hsub : (userScan bincode db sinceMs untilMs userId).Sublist
      (indexedEvents bincode db userId) :=
    List.filter_sublist.trans ((List.takeWhile_sublist _).filterMap _)
  exact (keyOrdered_indexedEvents hi hu).sublist hsub

/-- The full scan restricted to a user is cut from the user's rows. -/
theorem scanEvents_single_eq (h : Aligned bincode db) {sinceMs untilMs : Int64}
    (horder : ScanInOrder bincode db sinceMs untilMs) (userId : String) {limit : ℕ}
    (hlimit : 0<limit) : scanEvents bincode db sinceMs untilMs (.single userId) limit=
      (selectedEvents bincode db sinceMs untilMs (.single userId)).take limit := by
  rw [scanEvents_filter_eq h sinceMs untilMs _ hlimit,allScan_eq h horder,selectedEvents,
    selectedEvents,List.filter_filter]
  refine congrArg (List.take limit) (List.filter_congr fun e _ => ?_)
  rw [Bool.eq_iff_iff,Bool.and_eq_true,decide_eq_true_eq,decide_eq_true_eq]
  constructor
  · rintro ⟨hadmits,hle,hlt,-⟩
    exact ⟨hle,hlt,hadmits⟩
  · rintro ⟨hle,hlt,hadmits⟩
    exact ⟨hadmits,hle,hlt,rfl⟩

/-- What is cut shows with one more row. -/
theorem lt_length_take_succ_iff {α : Type} (rows : List α) (limit : ℕ) :
    limit<(rows.take (limit+1)).length ↔ rows.take limit≠rows := by
  rw [List.length_take,Ne,List.take_eq_self_iff]
  omega

/-- In a store whose devices upload for one user each between their deletions,
without negative times: a query for a user returns the first of the user's rows
of the range, in the order of the rows, as the full scan restricted to the user
does; a query for several users returns the first of these joined in the order
of the users; a query for all returns the first rows of the range. No more than
the limit is returned, and a limit of one more tells whether something was cut
off. -/
theorem queryEvents_agrees (run : Run (StoreStep bincode) emptyDb history db)
    (hA : Admissible history) (htimes : TimesOk history) {sinceMs untilMs : Int64}
    (hsince : 0≤ sinceMs) {limit : ℕ} (hlimit : 1≤limit) :
    (∀ uid, NulFree (utf8 uid) →
      queryEvents bincode db sinceMs untilMs (.single uid) limit=
        (selectedEvents bincode db sinceMs untilMs (.single uid)).take limit ∧
      queryEvents bincode db sinceMs untilMs (.single uid) limit=
        scanEvents bincode db sinceMs untilMs (.single uid) limit) ∧
    (∀ uids : List String, (∀ uid∈uids, NulFree (utf8 uid)) → uids.Nodup →
      queryEvents bincode db sinceMs untilMs (.multiple uids) limit=
        (uids.flatMap fun uid =>
          queryEvents bincode db sinceMs untilMs (.single uid) limit).take limit) ∧
    queryEvents bincode db sinceMs untilMs .all limit=
      (selectedEvents bincode db sinceMs untilMs .all).take limit ∧
    ∀ filter, UserFilter.Delimitable filter →
      (queryEvents bincode db sinceMs untilMs filter limit).length≤limit ∧
      (limit<(queryEvents bincode db sinceMs untilMs filter (limit+1)).length ↔
        queryEvents bincode db sinceMs untilMs filter limit≠
          listedEvents bincode db sinceMs untilMs filter) := by
  obtain ⟨h,hi⟩ := Indexed.of_run run hA.1
  have hpos := nonneg_of_stored run hA.1 htimes
  have horder : ∀ filter, UserFilter.Delimitable filter →
      InOrder bincode db sinceMs untilMs filter :=
    fun _ hf => inOrder_of_nonneg run hA hpos hsince hf
  have hall : ScanInOrder bincode db sinceMs untilMs := horder .all trivial
  have huser : ∀ {uid : String}, NulFree (utf8 uid) → userScan bincode db sinceMs untilMs uid=
      selectedEvents bincode db sinceMs untilMs (.single uid) :=
    fun {uid} hu => userScan_eq h hi hu (horder (.single uid) hu)
  have hlisted : ∀ filter, UserFilter.Delimitable filter →
      fullQuery bincode db sinceMs untilMs filter=listedEvents bincode db sinceMs untilMs filter := by
    intro filter hf
    cases filter with
    | single uid => exact huser hf
    | multiple uids => exact List.flatMap_congr fun uid huid => huser (hf.1 uid huid)
    | all => exact allScan_eq h hall
  have hquery : ∀ filter, UserFilter.Delimitable filter → ∀ {n : ℕ}, 0<n →
      queryEvents bincode db sinceMs untilMs filter n=
        (listedEvents bincode db sinceMs untilMs filter).take n := by
    intro filter hf n hn
    rw [queryEvents_eq h hi sinceMs untilMs hf hn,hlisted filter hf]
  refine ⟨fun uid hu => ?_,fun uids hu hnodup => ?_,hquery .all trivial hlimit,
    fun filter hf => ⟨?_,?_⟩⟩
  · have hsingle := hquery (.single uid) hu hlimit
    exact ⟨hsingle,hsingle.trans (scanEvents_single_eq h hall uid hlimit).symm⟩
  · have hjoined : (uids.flatMap fun uid =>
        queryEvents bincode db sinceMs untilMs (.single uid) limit)=uids.flatMap fun uid =>
          (selectedEvents bincode db sinceMs untilMs (.single uid)).take limit :=
      List.flatMap_congr fun uid huid => hquery (.single uid) (hu uid huid) hlimit
    rw [hquery (.multiple uids) ⟨hu,hnodup⟩ hlimit,hjoined,
      take_flatMap_take _ limit uids le_rfl]
    rfl
  · rw [hquery filter hf hlimit]
    exact List.length_take_le _ _
  · rw [hquery filter hf hlimit,hquery filter hf (Nat.succ_pos limit)]
    exact lt_length_take_succ_iff _ limit

end

/-- The sample store under a limit of one. -/
theorem queryEvents_agrees_sample :
    (queryEvents eventLayout.codec sampleDb 0 100 .all 1).length≤1 := by
  have run : Run (StoreStep eventLayout.codec) emptyDb sampleHistory sampleDb :=
    .next _ (.next _ (.next _ .start ⟨_,.refl _,rfl⟩) rfl) ⟨_,.refl _,rfl⟩
  have htimes : TimesOk sampleHistory := by
    intro op hop events heq
    subst heq
    simp only [sampleHistory,List.mem_cons,List.not_mem_nil,or_false,reduceCtorEq,false_or,
      StoreOp.upsert.injEq] at hop
    rcases hop with rfl | rfl
    · decide
    · decide
  have hA : Admissible sampleHistory := ⟨by decide,by decide⟩
  exact ((queryEvents_agrees run hA htimes (by decide) le_rfl).2.2.2 .all trivial).1

end TokiSync.IndexScans
