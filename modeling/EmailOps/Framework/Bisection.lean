import Mathlib.Data.Nat.Notation
import Mathlib.Order.Basic

/-!
# Bisection

The first index at which a property holds that stays true once it is. `bisect p lo hi` halves
the range `lo..hi` until one index is left; it never asks at `hi`.

* `bisect_le` and `le_bisect`: the index is in the range.
* `eq_bisect`: it is the index before which the property fails and at which it holds, or else the
  end of the range.
* `bisect_anti`: where more holds, it is found sooner.
-/

namespace Framework

def bisect (p : ℕ → Bool) (lo hi : ℕ) : ℕ :=
  if lo < hi then
    let mid := (lo + hi) / 2
    if p mid then bisect p lo mid else bisect p (mid + 1) hi
  else lo
termination_by hi - lo

variable {p q : ℕ → Bool} {lo hi : ℕ}

theorem le_bisect (p : ℕ → Bool) (lo hi : ℕ) : lo ≤ bisect p lo hi := by
  fun_induction bisect p lo hi with
  | case1 lo hi hlt mid hp ih => exact ih
  | case2 lo hi hlt mid hp ih => omega
  | case3 lo hi hlt => exact Nat.le_refl lo

theorem bisect_le (p : ℕ → Bool) (h : lo ≤ hi) : bisect p lo hi ≤ hi := by
  fun_induction bisect p lo hi with
  | case1 lo hi hlt mid hp ih =>
    have hle := ih (by omega)
    omega
  | case2 lo hi hlt mid hp ih => exact ih (by omega)
  | case3 lo hi hlt => exact h

/-- **The index that is found** is the one before which the property fails, and at which it holds
unless it is the last. -/
theorem eq_bisect (hmono : ∀ i j, i ≤ j → j < hi → p i = true → p j = true) {i : ℕ} (hlo : lo ≤ i)
    (hhi : i ≤ hi) (hbefore : ∀ j, lo ≤ j → j < i → p j = false) (hat : i < hi → p i = true) :
    bisect p lo hi = i := by
  fun_induction bisect p lo hi with
  | case1 lo hi hlt mid hp ih =>
    have hmid : i ≤ mid := by
      by_contra hgt
      have hno := hbefore mid (by omega) (by omega)
      rw [hp] at hno
      cases hno
    exact ih (fun j k hjk hk => hmono j k hjk (by omega)) hlo hmid hbefore fun hlt' =>
      hat (by omega)
  | case2 lo hi hlt mid hp ih =>
    have hmid : mid < i := by
      by_contra hle
      exact hp (hmono i mid (by omega) (by omega) (hat (by omega)))
    exact ih hmono (by omega) hhi (fun j hj hji => hbefore j (by omega) hji) hat
  | case3 lo hi hlt => omega

/-- At the index that is found the property holds, unless it is the last. -/
theorem bisect_eq_or (p : ℕ → Bool) (h : lo ≤ hi) :
    bisect p lo hi = hi ∨ p (bisect p lo hi) = true := by
  fun_induction bisect p lo hi with
  | case1 lo hi hlt mid hp ih =>
    rcases ih (by omega) with hend | hat
    · rw [hend]
      exact .inr hp
    · exact .inr hat
  | case2 lo hi hlt mid hp ih => exact ih (by omega)
  | case3 lo hi hlt => exact .inl (by omega)

/-- No index at which the property holds comes before it. -/
theorem bisect_le_of (hmono : ∀ i j, i ≤ j → j < hi → p i = true → p j = true) {i : ℕ} (hlo : lo ≤ i)
    (hat : p i = true) : bisect p lo hi ≤ i := by
  fun_induction bisect p lo hi with
  | case1 lo hi hlt mid hp ih => exact ih (fun j k hjk hk => hmono j k hjk (by omega)) hlo
  | case2 lo hi hlt mid hp ih =>
    refine ih hmono ?_
    by_contra hle
    exact hp (hmono i mid (by omega) (by omega) hat)
  | case3 lo hi hlt => exact hlo

/-- Where more holds, the index is not later. -/
theorem bisect_anti (hpq : ∀ i, q i = true → p i = true)
    (hmono : ∀ i j, i ≤ j → j < hi → p i = true → p j = true) (h : lo ≤ hi) :
    bisect p lo hi ≤ bisect q lo hi := by
  rcases bisect_eq_or q h with hend | hat
  · rw [hend]
    exact bisect_le p h
  · exact bisect_le_of hmono (le_bisect q lo hi) (hpq _ hat)

end Framework
