import Mathlib.Order.Lattice

/-!
# High-water marks

A register that only climbs holds the largest of the value it started at and the
marks it was shown. `HighWater.top` is that value for a list of marks in the order
of arrival; the order does not matter, and neither does repeating a mark
(`HighWater.top_append_of_le`).
-/

namespace Framework
namespace HighWater

variable {α : Type*} [LinearOrder α]

/-- The largest of `base` and the marks. -/
def top (base : α) (marks : List α) : α :=
  marks.foldl max base

@[simp] theorem top_nil (base : α) : top base [] = base := rfl

@[simp] theorem top_append_singleton (base : α) (marks : List α) (x : α) :
    top base (marks ++ [x]) = max (top base marks) x :=
  List.foldl_append

theorem base_le_top (base : α) (marks : List α) : base ≤ top base marks := by
  induction marks generalizing base with
  | nil => exact le_refl base
  | cons x marks ih => exact (le_max_left base x).trans (ih (max base x))

/-- Every mark is at most the top. -/
theorem le_top {base x : α} {marks : List α} (h : x ∈ marks) : x ≤ top base marks := by
  induction marks generalizing base with
  | nil => cases h
  | cons y marks ih =>
    rcases List.mem_cons.mp h with rfl | h
    · exact (le_max_right base x).trans (base_le_top _ marks)
    · exact ih h

/-- A base that no mark is above is the largest. -/
theorem top_of_forall_le {base : α} {marks : List α} (h : ∀ x ∈ marks, x ≤ base) :
    top base marks = base := by
  induction marks with
  | nil => rfl
  | cons x marks ih =>
    have hx : max base x = base := max_eq_left (h x List.mem_cons_self)
    change top (max base x) marks = base
    rw [hx]
    exact ih fun y hy => h y (List.mem_cons_of_mem x hy)

/-- A mark that is not above the top changes nothing. -/
theorem top_append_of_le {base x : α} {marks : List α} (h : x ≤ top base marks) :
    top base (marks ++ [x]) = top base marks := by
  rw [top_append_singleton, max_eq_left h]

/-- A mark that is not below the top is the new top. -/
theorem top_append_of_ge {base x : α} {marks : List α} (h : top base marks ≤ x) :
    top base (marks ++ [x]) = x := by
  rw [top_append_singleton, max_eq_right h]

end HighWater
end Framework
