import TokiSync.ReplacingMerge
import TokiSync.Runs
import TokiSync.WindowMerge

/-!
# Which version of a window wins in ClickHouse

The windows table keeps every inserted row; with FINAL a query sees for each
key the row of the greatest write time, of equal ones the last inserted. An
upsert reads the rows of its anchors, merges its items into them and inserts
what has changed with the time of the wall clock. A merged row wins exactly
when the clock has not gone back behind the row it was merged from.
-/

namespace TokiSync.WindowVersions

open MachineWords WireWindows WindowMerge ReplacingMerge Runs

/-- A row of one user in the windows table. -/
structure VersionedWindow where
  /-- Provider of the window. -/
  provider : String
  /-- The window. -/
  window : WireWindow
  /-- Clock of the write. -/
  updatedAt : UInt64
  deriving DecidableEq

/-- What the table is ordered by. -/
def rowKey (row : VersionedWindow) : String×WindowId := (row.provider,row.window.id)

/-- Rows of one user in the order in which they were inserted. -/
abbrev WindowsTable := List VersionedWindow

/-- The row that FINAL returns for a key. -/
def finalTable (table : WindowsTable) : String×WindowId → Option VersionedWindow :=
  table.foldl (absorb rowKey VersionedWindow.updatedAt) fun _ => none

/-- All rows that FINAL returns. -/
def finalRows (table : WindowsTable) : List VersionedWindow :=
  (table.map rowKey).dedup.filterMap (finalTable table)

/-- Rows of a provider that end at the given time or later. -/
def queryWindowsFiltered (table : WindowsTable) (provider : String) (sinceMs : Int64) :
    List VersionedWindow :=
  (finalRows table).filter fun row => row.provider=provider ∧ row.window.windowEndMs≥sinceMs

/-- The row found for an identity; a later one takes the place of an earlier
one. -/
def byKey (existing : List VersionedWindow) (provider : String) (id : WindowId) :
    Option WireWindow :=
  ((existing.filter fun row => row.provider=provider).reverse.find? fun row =>
    row.window.id=id).map VersionedWindow.window

/-- One call of `upsert_windows` and whether it succeeds. -/
structure WindowsCall where
  /-- Provider of the items. -/
  provider : String
  /-- Items to merge. -/
  items : List WireWindow
  /-- What the system clock returns. -/
  clockMs : UInt64
  /-- Whether the call returns without an error. -/
  succeeded : Bool

/-- Least end of the items. -/
def since (items : List WireWindow) : Int64 := ((items.map WireWindow.windowEndMs).min?).getD 0

/-- What is inserted for one item: nothing when the merge changes nothing. -/
def mergeItem (prev : Option WireWindow) (w : WireWindow) : Option WireWindow :=
  match prev with
  | some prev => if mergeWireWindows prev w=prev then none else some (mergeWireWindows prev w)
  | none => some w

/-- The merged rows of a call. -/
def mergedItems (table : WindowsTable) (call : WindowsCall) : List WireWindow :=
  let existing := queryWindowsFiltered table call.provider (since call.items)
  call.items.filterMap fun w => mergeItem (byKey existing call.provider w.id) w

/-- The rows that a call inserts. -/
def insertedRows (table : WindowsTable) (call : WindowsCall) : WindowsTable :=
  (mergedItems table call).map fun w => ⟨call.provider,w,call.clockMs⟩

/-- One call: all rows are inserted, or it fails when none or some are. -/
def UpsertStep (table : WindowsTable) (call : WindowsCall) (table' : WindowsTable) : Prop :=
  if call.succeeded then table'=table++insertedRows table call
  else ∃ n, table'=table++(insertedRows table call).take n

/-- The window that FINAL returns for an identity. -/
def finalWindow (table : WindowsTable) (provider : String) (id : WindowId) : Option WireWindow :=
  (finalTable table (provider,id)).map VersionedWindow.window

/-- The row that a call has merged for an identity, the last one when there are
several. -/
def mergedRow (table : WindowsTable) (call : WindowsCall) (id : WindowId) : Option WireWindow :=
  ((mergedItems table call).filter fun w => w.id=id).getLast?

/-- When a call succeeds, FINAL returns for every identity of its items the row
the call merged, or the previous one when the merge changed nothing. -/
def MergedRowsWin (table : WindowsTable) (call : WindowsCall) (table' : WindowsTable) : Prop :=
  call.succeeded=true → ∀ w∈call.items,
    finalWindow table' call.provider w.id=
      (mergedRow table call w.id).or (finalWindow table call.provider w.id)

/-- The clock of a call that succeeds is not behind the rows that it changes. -/
def ClockNotBehind (table : WindowsTable) (call : WindowsCall) : Prop :=
  call.succeeded=true → ∀ w∈call.items, ∀ row, finalTable table (call.provider,w.id)=some row →
    mergeWireWindows row.window w≠row.window → row.updatedAt≤call.clockMs

section

variable {table table' : WindowsTable} {call : WindowsCall}

/-- FINAL returns rows under their keys. -/
theorem rowKey_of_final {k : String×WindowId} {row : VersionedWindow}
    (h : finalTable table k=some row) : rowKey row=k := by
  have hkeeps : Keeps rowKey VersionedWindow.updatedAt table (finalTable table) :=
    Keeps.nil.absorb_all table
  exact hkeeps.key_eq h

/-- FINAL returns the row of every key that the table has. -/
theorem mem_finalRows {row : VersionedWindow} :
    row∈finalRows table ↔ finalTable table (rowKey row)=some row := by
  have hkeeps : Keeps rowKey VersionedWindow.updatedAt table (finalTable table) :=
    Keeps.nil.absorb_all table
  rw [finalRows,List.mem_filterMap]
  constructor
  · rintro ⟨k,-,hk⟩
    rw [rowKey_of_final hk]
    exact hk
  · intro h
    refine ⟨rowKey row,?_,h⟩
    rw [List.mem_dedup]
    exact List.mem_map_of_mem (hkeeps.newest _ _ h).1

/-- The row found for an identity of the items is the one that FINAL returns. -/
theorem byKey_eq {provider : String} {sinceMs : Int64} {id : WindowId}
    (hend : sinceMs≤ id.windowEndMs) :
    byKey (queryWindowsFiltered table provider sinceMs) provider id=
      finalWindow table provider id := by
  have hfound : ∀ row∈((queryWindowsFiltered table provider sinceMs).filter fun row =>
      row.provider=provider).reverse, row.window.id=id →
        finalTable table (provider,id)=some row := by
    intro row hrow hid
    simp only [List.mem_reverse,List.mem_filter,queryWindowsFiltered,decide_eq_true_eq] at hrow
    have hkey : rowKey row=(provider,id) := Prod.ext hrow.2 hid
    rw [←hkey]
    exact mem_finalRows.mp hrow.1.1
  unfold byKey finalWindow
  refine congrArg (Option.map VersionedWindow.window) ?_
  cases hfind : List.find? (fun row => decide (row.window.id=id)) ((queryWindowsFiltered table
      provider sinceMs).filter fun row => row.provider=provider).reverse with
  | some row =>
    have hid : row.window.id=id := by simpa only [decide_eq_true_eq] using List.find?_some hfind
    exact (hfound row (List.mem_of_find?_eq_some hfind) hid).symm
  | none =>
    cases hrow : finalTable table (provider,id) with
    | none => rfl
    | some row =>
      have hkey := rowKey_of_final hrow
      have hprovider : row.provider=provider := congrArg Prod.fst hkey
      have hid : row.window.id=id := congrArg Prod.snd hkey
      have hmem : row∈((queryWindowsFiltered table provider sinceMs).filter fun row =>
          row.provider=provider).reverse := by
        simp only [List.mem_reverse,List.mem_filter,queryWindowsFiltered,decide_eq_true_eq]
        refine ⟨⟨mem_finalRows.mpr (by rw [hkey]; exact hrow),hprovider,?_⟩,hprovider⟩
        have hrowEnd : row.window.windowEndMs=id.windowEndMs := congrArg WindowId.windowEndMs hid
        rw [hrowEnd]
        exact hend
      exact absurd (decide_eq_true hid) (List.find?_eq_none.mp hfind row hmem)

/-- No item ends before the least end. -/
theorem since_le {items : List WireWindow} {w : WireWindow} (hw : w∈items) :
    since items≤w.windowEndMs := by
  have hmem : w.windowEndMs∈items.map WireWindow.windowEndMs := List.mem_map_of_mem hw
  cases hmin : (items.map WireWindow.windowEndMs).min? with
  | none =>
    rw [List.min?_eq_none_iff] at hmin
    rw [hmin] at hmem
    cases hmem
  | some least =>
    rw [since,hmin]
    exact (List.min?_eq_some_iff.mp hmin).2 _ hmem

/-- A merge keeps the identity of the item. -/
theorem id_of_mergeItem {provider : String} {w m : WireWindow}
    (h : mergeItem (finalWindow table provider w.id) w=some m) : m.id=w.id := by
  cases hprev : finalWindow table provider w.id with
  | none =>
    rw [hprev] at h
    cases h
    rfl
  | some prev =>
    obtain ⟨row,hrow,rfl⟩ := Option.map_eq_some_iff.mp hprev
    rw [hprev,mergeItem] at h
    split_ifs at h
    cases h
    rw [id_merge]
    exact congrArg Prod.snd (rowKey_of_final hrow)

/-- A call merges every item into the row that FINAL returns for it. -/
theorem mergedItems_eq : mergedItems table call=
    call.items.filterMap fun w => mergeItem (finalWindow table call.provider w.id) w := by
  refine List.filterMap_congr fun w hw => ?_
  have hend : since call.items≤ w.id.windowEndMs := since_le hw
  rw [byKey_eq hend]

/-- The merged rows of an identity. -/
theorem mem_mergedItems {m : WireWindow} : m∈mergedItems table call ↔
    ∃ w∈call.items, m.id=w.id ∧ mergeItem (finalWindow table call.provider w.id) w=some m := by
  rw [mergedItems_eq,List.mem_filterMap]
  constructor
  · rintro ⟨w,hw,hm⟩
    exact ⟨w,hw,id_of_mergeItem hm,hm⟩
  · rintro ⟨w,hw,-,hm⟩
    exact ⟨w,hw,hm⟩

/-- The inserted rows of an identity carry its merged rows. -/
theorem insertedRows_of_id (id : WindowId) :
    (insertedRows table call).filter (fun row => rowKey row=(call.provider,id))=
      ((mergedItems table call).filter fun w => w.id=id).map fun w =>
        ⟨call.provider,w,call.clockMs⟩ := by
  rw [insertedRows,List.filter_map]
  refine congrArg _ (List.filter_congr fun w _ => ?_)
  exact decide_eq_decide.mpr (Prod.mk.injEq .. ▸ and_iff_right rfl)

/-- The last inserted row of an identity is the merged one. -/
theorem getLast?_insertedRows (table : WindowsTable) (call : WindowsCall) (id : WindowId) :
    ((insertedRows table call).filter fun row => rowKey row=(call.provider,id)).getLast?=
      (mergedRow table call id).map fun w => ⟨call.provider,w,call.clockMs⟩ := by
  rw [insertedRows_of_id,List.getLast?_map]
  rfl

/-- The rows of a call carry its clock. -/
theorem updatedAt_of_inserted : ∀ row∈insertedRows table call, row.updatedAt=call.clockMs := by
  intro row hrow
  obtain ⟨w,-,rfl⟩ := List.mem_map.mp hrow
  rfl

/-- A call that succeeds inserts all its rows. -/
theorem upsertStep_of_succeeded (table : WindowsTable) (call : WindowsCall)
    (succeeded : call.succeeded=true) : UpsertStep table call (table++insertedRows table call) := by
  rw [UpsertStep,if_pos succeeded]

/-- More rows are absorbed one after the other. -/
theorem finalTable_append (more : WindowsTable) : finalTable (table++more)=
    more.foldl (absorb rowKey VersionedWindow.updatedAt) (finalTable table) :=
  List.foldl_append

/-- Without a merged row an identity keeps its row. -/
theorem finalWindow_of_unmerged {id : WindowId} (h : mergedRow table call id=none) :
    finalWindow (table++insertedRows table call) call.provider id=
      finalWindow table call.provider id := by
  have hnone : ∀ row∈insertedRows table call, rowKey row≠(call.provider,id) := by
    intro row hrow hkey
    have hlast := getLast?_insertedRows table call id
    rw [h,Option.map_none,List.getLast?_eq_none_iff,List.filter_eq_nil_iff] at hlast
    exact hlast row hrow (decide_eq_true hkey)
  rw [finalWindow,finalTable_append,foldl_absorb_of_notMem hnone]
  rfl

/-- A merged row takes the place of a row that is not newer. -/
theorem finalWindow_of_merged {id : WindowId} {m : WireWindow} (h : mergedRow table call id=some m)
    (hle : ∀ row, finalTable table (call.provider,id)=some row → row.updatedAt≤call.clockMs) :
    finalWindow (table++insertedRows table call) call.provider id=some m := by
  have hlast := getLast?_insertedRows table call id
  rw [h,Option.map_some] at hlast
  rw [finalWindow,finalTable_append,foldl_absorb_of_not_newer updatedAt_of_inserted hle hlast]
  rfl

/-- A row that is newer than the clock stays. -/
theorem finalWindow_of_behind {id : WindowId} {row : VersionedWindow}
    (hrow : finalTable table (call.provider,id)=some row) (hlt : call.clockMs<row.updatedAt) :
    finalWindow (table++insertedRows table call) call.provider id=some row.window := by
  rw [finalWindow,finalTable_append,foldl_absorb_of_newer updatedAt_of_inserted hrow hlt]
  rfl

/-- The row merged for an identity that has a row is a change of that row. -/
theorem mergedRow_changes {id : WindowId} {m : WireWindow} {row : VersionedWindow}
    (h : mergedRow table call id=some m) (hrow : finalTable table (call.provider,id)=some row) :
    ∃ w∈call.items, w.id=id ∧ m=mergeWireWindows row.window w ∧
      mergeWireWindows row.window w≠row.window := by
  have hmem := List.mem_filter.mp (List.mem_of_getLast? h)
  obtain ⟨w,hw,hid,hmerge⟩ := mem_mergedItems.mp hmem.1
  have hm : m.id=id := of_decide_eq_true hmem.2
  have hprev : finalWindow table call.provider w.id=some row.window := by
    rw [←hid,hm,finalWindow,hrow]
    rfl
  rw [hprev,mergeItem] at hmerge
  split_ifs at hmerge with hsame
  cases hmerge
  exact ⟨w,hw,hid.symm.trans hm,rfl,hsame⟩

/-- An item that changes the row of its identity is merged. -/
theorem exists_mergedRow {w : WireWindow} {row : VersionedWindow} (hw : w∈call.items)
    (hrow : finalTable table (call.provider,w.id)=some row)
    (hchanges : mergeWireWindows row.window w≠row.window) :
    ∃ m, mergedRow table call w.id=some m := by
  have hid : row.window.id=w.id := congrArg Prod.snd (rowKey_of_final hrow)
  have hmem : mergeWireWindows row.window w∈mergedItems table call := by
    refine mem_mergedItems.mpr ⟨w,hw,(id_merge _ _).trans hid,?_⟩
    rw [finalWindow,hrow,Option.map_some,mergeItem,if_neg hchanges]
  have hfilter : mergeWireWindows row.window w∈(mergedItems table call).filter fun x => x.id=w.id :=
    List.mem_filter.mpr ⟨hmem,decide_eq_true ((id_merge _ _).trans hid)⟩
  exact ⟨_,List.getLast?_eq_getLast_of_ne_nil (List.ne_nil_of_mem hfilter)⟩

/-- After a call its merged rows win exactly when its clock was not behind the
rows that they change. -/
theorem mergedRowsWin_iff (taken : UpsertStep table call table') :
    MergedRowsWin table call table' ↔ ClockNotBehind table call := by
  unfold UpsertStep at taken
  constructor
  · intro hwins succeeded w hw row hrow hchanges
    rw [if_pos succeeded] at taken
    subst taken
    by_contra hbehind
    obtain ⟨m,hm⟩ := exists_mergedRow hw hrow hchanges
    have hwin := hwins succeeded w hw
    rw [finalWindow_of_behind hrow (not_le.mp hbehind),hm,Option.some_or] at hwin
    obtain ⟨w',-,-,hmerged,hdiffers⟩ := mergedRow_changes hm hrow
    apply hdiffers
    rw [←hmerged]
    exact (Option.some.inj hwin).symm
  · intro hclock succeeded w hw
    rw [if_pos succeeded] at taken
    subst taken
    cases hm : mergedRow table call w.id with
    | none => exact finalWindow_of_unmerged hm
    | some m =>
      refine finalWindow_of_merged hm fun row hrow => ?_
      obtain ⟨w',hw',hid,-,hchanges⟩ := mergedRow_changes hm hrow
      exact hclock succeeded w' hw' row (by rw [hid]; exact hrow) hchanges

/-- The rows that a step adds carry its clock. -/
theorem updatedAt_of_step (taken : UpsertStep table call table') {row : VersionedWindow}
    (hrow : row∈table') : row∈table ∨ row.updatedAt=call.clockMs := by
  unfold UpsertStep at taken
  split_ifs at taken with succeeded
  · subst taken
    exact (List.mem_append.mp hrow).imp_right (updatedAt_of_inserted row)
  · obtain ⟨n,rfl⟩ := taken
    exact (List.mem_append.mp hrow).imp_right fun h =>
      updatedAt_of_inserted row (List.mem_of_mem_take h)

end

section

variable {initial table : WindowsTable} {history : List WindowsCall}

/-- In a run from an empty table no row carries another time than that of a
call. -/
theorem exists_call_of_row (run : Run UpsertStep [] history table) :
    ∀ row∈table, ∃ call∈history, row.updatedAt=call.clockMs := by
  refine run.invariant (I := fun past s => ∀ row∈s, ∃ call∈past, row.updatedAt=call.clockMs)
    (fun row hrow => absurd hrow List.not_mem_nil) ?_
  intro past s call t _ ih taken row hrow
  rcases updatedAt_of_step taken hrow with hold | hnew
  · obtain ⟨earlier,hmem,hclock⟩ := ih row hold
    exact ⟨earlier,List.mem_cons_of_mem call hmem,hclock⟩
  · exact ⟨call,List.mem_cons_self,hnew⟩

/-- A clock that never goes back is never behind. -/
theorem run_of_monotone (run : Run UpsertStep [] history table)
    (hmonotone : Always (fun call past => ∀ earlier∈past, earlier.clockMs≤call.clockMs) history) :
    Run (fun s call t => UpsertStep s call t ∧ ClockNotBehind s call) [] history table := by
  induction run with
  | start => exact .start
  | @next past s t call run taken ih =>
    refine .next call (ih hmonotone.2) ⟨taken,fun _ w _ row hrow _ => ?_⟩
    have hmem : row∈s := by
      have hkeeps : Keeps rowKey VersionedWindow.updatedAt s (finalTable s) :=
        Keeps.nil.absorb_all s
      exact (hkeeps.newest _ _ hrow).1
    obtain ⟨earlier,hearlier,hclock⟩ := exists_call_of_row run row hmem
    rw [hclock]
    exact hmonotone.1 earlier hearlier

/-- The runs in which the merged rows win after every call are those in which
the clock of no call is behind the rows that it changes. -/
theorem mergedRowsWin_run :
    Run (fun s call t => UpsertStep s call t ∧ MergedRowsWin s call t) initial history table ↔
      Run (fun s call t => UpsertStep s call t ∧ ClockNotBehind s call) initial history table :=
  ⟨fun run => run.mono fun _ _ _ h => ⟨h.1,(mergedRowsWin_iff h.1).mp h.2⟩,
    fun run => run.mono fun _ _ _ h => ⟨h.1,(mergedRowsWin_iff h.1).mpr h.2⟩⟩

end

section

/-- A window of the sample clock with the given peak. -/
def windowOfPeak (peak : UInt16) : WireWindow :=
  {sampleWindow 1759999990000 300 0 with peakPctX100 := peak}

/-- A call for one observation. -/
def callAt (clockMs : UInt64) (peak : UInt16) : WindowsCall :=
  ⟨"claude_code",[windowOfPeak peak],clockMs,true⟩

/-- When the clock goes back, a greater peak is lost. -/
theorem mergedRow_loses_behind : ∃ table table', Run UpsertStep [] [callAt 10 100] table ∧
    UpsertStep table (callAt 5 200) table' ∧ (callAt 5 200).succeeded=true ∧
    mergedRow table (callAt 5 200) (windowOfPeak 200).id=some (windowOfPeak 200) ∧
    finalWindow table' "claude_code" (windowOfPeak 200).id=some (windowOfPeak 100) ∧
    ¬MergedRowsWin table (callAt 5 200) table' := by
  have hfirst : insertedRows [] (callAt 10 100)=[⟨"claude_code",windowOfPeak 100,10⟩] := by decide
  have run : Run UpsertStep [] [callAt 10 100] [⟨"claude_code",windowOfPeak 100,10⟩] := by
    have taken := upsertStep_of_succeeded [] (callAt 10 100) rfl
    rw [hfirst] at taken
    exact Run.start.next (callAt 10 100) taken
  have hlater : insertedRows [⟨"claude_code",windowOfPeak 100,10⟩] (callAt 5 200)=
    [⟨"claude_code",windowOfPeak 200,5⟩] := by decide
  have hstays : finalWindow [⟨"claude_code",windowOfPeak 100,10⟩,⟨"claude_code",windowOfPeak 200,5⟩]
    "claude_code" (windowOfPeak 200).id=some (windowOfPeak 100) := by decide
  have hmerged : mergedRow [⟨"claude_code",windowOfPeak 100,10⟩] (callAt 5 200)
    (windowOfPeak 200).id=some (windowOfPeak 200) := by decide
  refine ⟨_,_,run,?_,rfl,hmerged,hstays,fun hwins => ?_⟩
  · have taken := upsertStep_of_succeeded [⟨"claude_code",windowOfPeak 100,10⟩] (callAt 5 200) rfl
    rw [hlater] at taken
    exact taken
  · have hwin := hwins rfl (windowOfPeak 200) List.mem_cons_self
    rw [hmerged,Option.some_or] at hwin
    exact absurd (hstays.symm.trans hwin) (by decide)

end

end TokiSync.WindowVersions
