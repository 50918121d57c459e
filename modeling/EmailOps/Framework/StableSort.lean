import Mathlib.Data.List.Sort

/-!
# Sorting by a key that several entries share

`List.insertionSort` is stable, as the sort of many languages is: entries of one key stay in
the order they had. So the result of a sort is known from the entries of each key.

* `filter_insertionSort`: the entries of a key are the same before and after.
* `insertionSort_eq_iff`: a list is sorted to a given ordered one if and only if the two have
  the same entries of each key, in the same order.
-/

namespace Framework
namespace StableSort

variable {α Key : Type*} [LinearOrder Key] {key : α → Key} {l l' : List α}

/-- The entries of a key after one more is inserted: it comes before those it finds. -/
theorem filter_orderedInsert (a : α) (k : Key) :
    (l.orderedInsert (fun x y => key x ≤ key y) a).filter (key · = k) =
      (a :: l).filter (key · = k) := by
  induction l with
  | nil => rfl
  | cons b l ih =>
    rw [List.orderedInsert_cons]
    split
    · rfl
    · next hlt =>
      have hne : key a = k → key b ≠ k := fun ha hb => hlt (ha.trans hb.symm).le
      rw [List.filter_cons, ih]
      by_cases ha : key a = k
      · simp [ha, hne ha]
      · simp [List.filter_cons, ha]

/-- **The sort is stable.** -/
theorem filter_insertionSort (l : List α) (k : Key) :
    (l.insertionSort fun x y => key x ≤ key y).filter (key · = k) = l.filter (key · = k) := by
  induction l with
  | nil => rfl
  | cons a l ih => rw [List.insertionSort_cons, filter_orderedInsert, List.filter_cons, ih,
      List.filter_cons]

/-- Two ordered lists with the same entries of each key are the same. -/
theorem eq_of_filter_eq (hl : l.Pairwise fun x y => key x ≤ key y)
    (hl' : l'.Pairwise fun x y => key x ≤ key y)
    (h : ∀ k, l.filter (key · = k) = l'.filter (key · = k)) : l = l' := by
  have hmem : ∀ a, a ∈ l ↔ a ∈ l' := by
    intro a
    have hiff := congrArg (a ∈ ·) (h (key a))
    simpa using hiff
  induction l generalizing l' with
  | nil =>
    cases l' with
    | nil => rfl
    | cons b l' => exact absurd ((hmem b).mpr List.mem_cons_self) List.not_mem_nil
  | cons a l ih =>
    cases l' with
    | nil => exact absurd ((hmem a).mp List.mem_cons_self) List.not_mem_nil
    | cons b l' =>
      obtain ⟨ha, hrest⟩ := List.pairwise_cons.mp hl
      obtain ⟨hb, hrest'⟩ := List.pairwise_cons.mp hl'
      -- Both heads have the least key.
      have hab : key a ≤ key b := by
        rcases List.mem_cons.mp ((hmem b).mpr List.mem_cons_self) with rfl | hmem
        · exact le_rfl
        · exact ha b hmem
      have hba : key b ≤ key a := by
        rcases List.mem_cons.mp ((hmem a).mp List.mem_cons_self) with rfl | hmem
        · exact le_rfl
        · exact hb a hmem
      have hkey : key b = key a := le_antisymm hba hab
      have hheads := h (key a)
      simp only [List.filter_cons, hkey, decide_true, if_true, List.cons.injEq] at hheads
      obtain ⟨rfl, -⟩ := hheads
      have htails : ∀ k, l.filter (key · = k) = l'.filter (key · = k) := by
        intro k
        have hk := h k
        rw [List.filter_cons, List.filter_cons] at hk
        split at hk
        · exact (List.cons.inj hk).2
        · exact hk
      refine congrArg _ (ih hrest hrest' htails fun c => ?_)
      have hiff := congrArg (c ∈ ·) (htails (key c))
      simpa using hiff

/-- **What a list is sorted to.** -/
theorem insertionSort_eq_iff (hl' : l'.Pairwise fun x y => key x ≤ key y) :
    (l.insertionSort fun x y => key x ≤ key y) = l' ↔
      ∀ k, l.filter (key · = k) = l'.filter (key · = k) := by
  constructor
  · rintro rfl k
    rw [filter_insertionSort]
  · intro h
    have hsorted := List.pairwise_insertionSort (fun x y => key x ≤ key y) l
    exact eq_of_filter_eq hsorted hl' fun k => (filter_insertionSort l k).trans (h k)

end StableSort
end Framework
