import Mathlib.Order.Lattice
import Mathlib.Data.List.Basic
import Mathlib.Data.List.Perm.Basic

/-!
# Sorting by a key

A list is sorted by a key stably when the keys ascend and items with the same key
keep their order. There is one such list, and merge sort returns it.
-/

namespace TokiSync.StableOrder

variable {α κ : Type} [LinearOrder κ] {key : α → κ} {items left right listed : List α}

/-- The items with some key. -/
def withKey (key : α → κ) (k : κ) (items : List α) : List α := items.filter fun a => key a=k

/-- A list of items in which keys ascend and items of a key keep their order. -/
structure StablyOrdered (key : α → κ) (items listed : List α) : Prop where
  /-- Keys ascend. -/
  ascending : listed.Pairwise fun a b => key a≤key b
  /-- No item is lost, and those of a key keep their order. -/
  kept : ∀ k, withKey key k listed=withKey key k items

/-- Sort by a key. -/
def sortByKey (key : α → κ) (items : List α) : List α :=
  items.mergeSort fun a b => decide (key a≤key b)

@[simp] theorem sortByKey_nil : sortByKey key ([] : List α)=[] := List.mergeSort_nil

theorem withKey_cons_self (a : α) (items : List α) :
    withKey key (key a) (a::items)=a::withKey key (key a) items :=
  List.filter_cons_of_pos (decide_eq_true rfl)

/-- The first key is the least. -/
theorem head_le {a : α} (h : (a::items).Pairwise fun a b => key a≤key b) {k : κ}
    (hk : withKey key k (a::items)≠[]) : key a≤k := by
  obtain ⟨b,hb⟩ := List.exists_mem_of_ne_nil _ hk
  obtain ⟨hmem,hkey⟩ := List.mem_filter.mp hb
  rw [←of_decide_eq_true hkey]
  rcases List.mem_cons.mp hmem with rfl | hmem
  · exact le_rfl
  · exact List.rel_of_pairwise_cons h hmem

/-- Ascending lists are equal when they agree on every key. -/
theorem eq_of_withKey (hleft : left.Pairwise fun a b => key a≤key b)
    (hright : right.Pairwise fun a b => key a≤key b)
    (h : ∀ k, withKey key k left=withKey key k right) : left=right := by
  induction left generalizing right with
  | nil =>
    cases right with
    | nil => rfl
    | cons b right =>
      have hb := h (key b)
      rw [withKey_cons_self] at hb
      cases hb
  | cons a left ih =>
    cases right with
    | nil =>
      have ha := h (key a)
      rw [withKey_cons_self] at ha
      cases ha
    | cons b right =>
      -- Each head has the least key, so the heads are the first items of one key.
      have hkey : key a=key b := by
        refine le_antisymm (head_le hleft ?_) (head_le hright ?_)
        · rw [h,withKey_cons_self]
          exact List.cons_ne_nil _ _
        · rw [←h,withKey_cons_self]
          exact List.cons_ne_nil _ _
      have hhead := h (key a)
      rw [withKey_cons_self,hkey,withKey_cons_self] at hhead
      obtain rfl := (List.cons.inj hhead).1
      refine congrArg (a::·) (ih hleft.tail hright.tail fun k => ?_)
      have hrest := h k
      unfold withKey at hrest ⊢
      rw [List.filter_cons,List.filter_cons] at hrest
      split at hrest
      · exact (List.cons.inj hrest).2
      · exact hrest

/-- Merge sort is stable. -/
theorem stablyOrdered_sortByKey (key : α → κ) (items : List α) :
    StablyOrdered key items (sortByKey key items) := by
  have htrans : ∀ a b c : α, decide (key a≤key b)=true → decide (key b≤key c)=true →
      decide (key a≤key c)=true := by
    intro a b c hab hbc
    exact decide_eq_true ((of_decide_eq_true hab).trans (of_decide_eq_true hbc))
  have htotal : ∀ a b : α, (decide (key a≤key b) || decide (key b≤key a))=true := by
    intro a b
    simpa using le_total (key a) (key b)
  refine ⟨(List.pairwise_mergeSort htrans htotal items).imp of_decide_eq_true,fun k => ?_⟩
  have hequal : (withKey key k items).Pairwise fun a b => decide (key a≤key b)=true := by
    refine List.pairwise_of_forall_mem_list fun a ha b hb => decide_eq_true ?_
    rw [of_decide_eq_true (List.mem_filter.mp ha).2,of_decide_eq_true (List.mem_filter.mp hb).2]
  have hsub : (withKey key k items).Sublist (sortByKey key items) :=
    List.sublist_mergeSort htrans htotal hequal List.filter_sublist
  have hkept : (withKey key k items).Sublist (withKey key k (sortByKey key items)) := by
    have h := hsub.filter fun a => key a=k
    simp only [withKey,List.filter_filter,Bool.and_self] at h
    exact h
  exact (hkept.eq_of_length ((List.mergeSort_perm items _).filter _).length_eq.symm).symm

/-- The one list that is sorted stably. -/
theorem stablyOrdered_iff : StablyOrdered key items listed ↔ listed=sortByKey key items := by
  have hsorted := stablyOrdered_sortByKey key items
  constructor
  · intro h
    have hsame : ∀ k, withKey key k listed=withKey key k (sortByKey key items) :=
      fun k => (h.kept k).trans (hsorted.kept k).symm
    exact eq_of_withKey h.ascending hsorted.ascending hsame
  · rintro rfl
    exact hsorted

end TokiSync.StableOrder
