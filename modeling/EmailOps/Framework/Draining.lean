import Mathlib.Data.List.Perm.Subperm
import Mathlib.Data.List.Nodup
import Mathlib.Data.List.Dedup

/-!
# Draining a collection page by page

A collection that can only be listed a page at a time is drained by taking a page, removing
what is on it, and asking again. A page is some of the items, as many as the page holds or as
there are left; which of them, and in which order, is for the other side to say.

* `Pager` is a way of choosing pages, and `Pager.front` the one that takes the first items.
* `length_left` counts one round, in which any part of the page may be removed.
* `drain` is a number of rounds in which all of the page is removed, and `length_drain` counts
  what they leave.
-/

namespace Framework
namespace Draining

variable {α : Type*} [DecidableEq α]

/-- A choice of a page of at most `size` items. -/
structure Pager (α : Type*) (size : ℕ) where
  pick : List α → List α
  subperm : ∀ items, (pick items).Subperm items
  length_pick : ∀ items, (pick items).length = min size items.length

/-- The page of the first items. -/
def Pager.front (α : Type*) (size : ℕ) : Pager α size where
  pick := List.take size
  subperm items := (List.take_sublist size items).subperm
  length_pick _ := List.length_take

/-- What is left when those items of a page are removed that `removes` says. -/
def left (page : List α) (removes : α → Bool) (items : List α) : List α :=
  items.filter fun x => !(decide (x ∈ page) && removes x)

theorem left_sublist (page : List α) (removes : α → Bool) (items : List α) :
    (left page removes items).Sublist items :=
  List.filter_sublist

omit [DecidableEq α] in
/-- A page lists no item twice. -/
theorem nodup_page {page items : List α} (hnodup : items.Nodup) (hpage : page.Subperm items) :
    page.Nodup := by
  obtain ⟨sub, hperm, hsub⟩ := hpage
  exact hperm.nodup_iff.mp (hnodup.sublist hsub)

/-- **One round.** What is removed from the page is what the collection has lost. -/
theorem length_left {page items : List α} (hnodup : items.Nodup) (hpage : page.Subperm items)
    (removes : α → Bool) :
    (page.filter removes).length + (left page removes items).length = items.length := by
  -- the removed part of the page, in the order of the collection
  have hperm : (items.filter fun x => decide (x ∈ page) && removes x).Perm
      (page.filter removes) := by
    refine (List.perm_ext_iff_of_nodup (hnodup.filter _)
      ((nodup_page hnodup hpage).filter _)).mpr fun x => ?_
    simp only [List.mem_filter, Bool.and_eq_true, decide_eq_true_eq]
    exact ⟨fun h => h.2, fun h => ⟨hpage.subset h.1, h⟩⟩
  rw [← hperm.length_eq, left]
  exact (List.length_eq_length_filter_add _).symm

/-- A number of rounds in which the whole page is removed. -/
def drain (pick : List α → List α) : ℕ → List α → List α
  | 0, items => items
  | n + 1, items => drain pick n (left (pick items) (fun _ => true) items)

theorem drain_sublist (pick : List α → List α) (n : ℕ) (items : List α) :
    (drain pick n items).Sublist items := by
  induction n generalizing items with
  | zero => exact List.Sublist.refl items
  | succ n ih => exact (ih _).trans (left_sublist _ _ _)

variable {size : ℕ} (pager : Pager α size)

/-- **What a number of rounds leave.** -/
theorem length_drain (n : ℕ) {items : List α} (hnodup : items.Nodup) :
    (drain pager.pick n items).length = items.length - n * size := by
  induction n generalizing items with
  | zero => simp [drain]
  | succ n ih =>
    have hround := length_left hnodup (pager.subperm items) fun _ => true
    rw [List.filter_eq_self.mpr fun _ _ => rfl, pager.length_pick] at hround
    rw [drain, ih (hnodup.sublist (left_sublist _ _ _)), Nat.succ_mul]
    omega

end Draining
end Framework
