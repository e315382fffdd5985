import TokiSync.StableOrder
import TokiSync.WebRoutes

/-!
# Windows as they are shown

A windows query is answered with the windows that end before a time, by provider
and in the order in which they end. Every such window is shown exactly once.
-/

namespace TokiSync.ShownWindows

open OrderedEntries StableOrder WebRequests WebRoutes WireWindows

/-- Whether a window is shown. -/
def endsBefore (endMs : ℤ) (row : String×WireWindow) : Bool :=
  decide (row.2.windowEndMs.toInt<endMs)

/-- The windows of a provider that are shown. -/
def windowsOf (endMs : ℤ) (rows : List (String×WireWindow)) (provider : String) :
    List WireWindow :=
  ((rows.filter (endsBefore endMs)).filter fun row => row.1=provider).map Prod.snd

/-- The rows of a provider in the order in which they end. -/
def inOrder (group : String×List WindowRow) : String×List WindowRow :=
  (group.1,sortByKey (fun r => r.window.windowEndMs.toInt) group.2)

/-- The rows are gathered by provider. -/
theorem showWindows_eq (now : Int64) (endMs : ℤ) (rows : List (String×WireWindow)) :
    showWindows now endMs rows=
      (rows.foldl (gather (endsBefore endMs) Prod.fst fun row => windowRow now row.2)
        .empty).entries.map inOrder := by
  have hadd : addWindow now endMs=
      gather (endsBefore endMs) Prod.fst fun row => windowRow now row.2 := by
    funext providers row
    unfold addWindow gather endsBefore
    by_cases hlate : row.2.windowEndMs.toInt≥endMs
    · rw [if_pos hlate,if_neg (by simpa using hlate)]
    · rw [if_neg hlate,if_pos (by simpa using hlate)]
  unfold showWindows inOrder sortByKey
  rw [hadd]
  simp only [Int64.le_iff_toInt_le]

/-- What is gathered for a provider are its windows as they are shown. -/
theorem gathered_eq (now : Int64) (endMs : ℤ) (rows : List (String×WireWindow))
    (provider : String) :
    gathered (endsBefore endMs) Prod.fst (fun row => windowRow now row.2) provider rows=
      (windowsOf endMs rows provider).map (windowRow now) := by
  unfold gathered windowsOf
  rw [List.filter_filter,List.map_map]
  simp only [Bool.and_comm]
  rfl

/-- Rows are in order when their windows are. -/
theorem sortByKey_windowRow (now : Int64) (windows : List WireWindow) :
    sortByKey (fun r => r.window.windowEndMs.toInt) (windows.map (windowRow now))=
      (sortByKey (fun w => w.windowEndMs.toInt) windows).map (windowRow now) := by
  unfold sortByKey
  rw [List.map_mergeSort]
  intro a _ b _
  rfl

/-- The windows of a provider are shown when there are some. -/
theorem mem_showWindows {now : Int64} {endMs : ℤ} {rows : List (String×WireWindow)}
    {provider : String} {shown : List WindowRow} :
    (provider,shown)∈showWindows now endMs rows ↔ windowsOf endMs rows provider≠[] ∧
      shown=(sortByKey (fun w => w.windowEndMs.toInt) (windowsOf endMs rows provider)).map
        (windowRow now) := by
  rw [showWindows_eq,List.mem_map]
  constructor
  · rintro ⟨⟨name,group⟩,hgroup,heq⟩
    obtain rfl : name=provider := congrArg Prod.fst heq
    obtain ⟨rfl,hne⟩ := mem_gather.mp hgroup
    rw [gathered_eq] at hne heq
    rw [←sortByKey_windowRow]
    exact ⟨fun hnil => hne (by rw [hnil]; rfl),(congrArg Prod.snd heq).symm⟩
  · rintro ⟨hne,rfl⟩
    refine ⟨(provider,(windowsOf endMs rows provider).map (windowRow now)),?_,?_⟩
    · rw [mem_gather,gathered_eq]
      exact ⟨rfl,fun hnil => hne (List.map_eq_nil_iff.mp hnil)⟩
    · rw [inOrder,sortByKey_windowRow]

/-- The providers ascend. -/
theorem ascending_showWindows (now : Int64) (endMs : ℤ) (rows : List (String×WireWindow)) :
    (showWindows now endMs rows).Pairwise fun a b => a.1<b.1 := by
  rw [showWindows_eq]
  exact List.pairwise_map.mpr (OrderedMap.ascending _)

/-- No window is lost or shown twice. -/
theorem rows_showWindows (now : Int64) (endMs : ℤ) (rows : List (String×WireWindow)) :
    ((showWindows now endMs rows).flatMap Prod.snd).Perm
      ((rows.filter (endsBefore endMs)).map fun row => windowRow now row.2) := by
  have hsorted : ∀ groups : List (String×List WindowRow),
      ((groups.map inOrder).flatMap Prod.snd).Perm (groups.flatMap fun g => g.2.map id) := by
    intro groups
    induction groups with
    | nil => exact List.Perm.refl _
    | cons group groups ih =>
      rw [List.map_cons,List.flatMap_cons,List.flatMap_cons,List.map_id]
      exact (List.mergeSort_perm group.2 _).append ih
  rw [showWindows_eq]
  exact (hsorted _).trans (flatMap_gather_perm (fun _ => id) rows)

/-- An answer to a windows query has the providers of the windows that end before
the time asked for in ascending order, each with all of these windows as the one
list in which they end one after the other and windows that end together keep
their order. Every such window is shown exactly once. -/
theorem shown_windows_exact (now : Int64) (endMs : ℤ) (rows : List (String×WireWindow)) :
    (showWindows now endMs rows).Pairwise (fun a b => a.1<b.1) ∧
      (∀ provider shown, (provider,shown)∈showWindows now endMs rows ↔
        windowsOf endMs rows provider≠[] ∧ ∃ listed,
          StablyOrdered (fun w => w.windowEndMs.toInt) (windowsOf endMs rows provider) listed ∧
            shown=listed.map (windowRow now)) ∧
      ((showWindows now endMs rows).flatMap Prod.snd).Perm
        ((rows.filter (endsBefore endMs)).map fun row => windowRow now row.2) := by
  refine ⟨ascending_showWindows now endMs rows,fun provider shown => ?_,
    rows_showWindows now endMs rows⟩
  simp only [stablyOrdered_iff,exists_eq_left]
  exact mem_showWindows

end TokiSync.ShownWindows
