import Mathlib.Data.List.Forall2

/-!
# Rewriting some of a list

A program rewrites some of the items of a list, each with the same function `f`, leaves the
others, and may come back for more of them. When `f` is idempotent, the lists it goes
through are ordered: `Rewritten f xs ys` says that `ys` is `xs` with some of its items
rewritten.

* `Rewritten.refl`, `Rewritten.trans` and `Rewritten.antisymm` make it a partial order, so
  that a list which is the same in the end has never changed on the way.
* `Rewritten.map` is one round of rewriting, `Rewritten.map_eq_self_iff` says when it changes
  nothing.
-/

namespace Framework

variable {α : Type*} {f : α → α} {xs ys zs : List α}

/-- The second list is the first with some of its items rewritten. -/
def Rewritten (f : α → α) (xs ys : List α) : Prop :=
  List.Forall₂ (fun x y => y = x ∨ y = f x) xs ys

namespace Rewritten

theorem refl (f : α → α) (xs : List α) : Rewritten f xs xs :=
  List.forall₂_same.mpr fun _ _ => .inl rfl

/-- One round rewrites the items a guard selects. -/
theorem map (f : α → α) (xs : List α) (p : α → Prop) [DecidablePred p] :
    Rewritten f xs (xs.map fun x => if p x then f x else x) := by
  refine List.forall₂_map_right_iff.mpr (List.forall₂_same.mpr fun x _ => ?_)
  by_cases hp : p x
  · exact .inr (if_pos hp)
  · exact .inl (if_neg hp)

/-- Rounds add up, since an item that is rewritten again stays as it is. -/
theorem trans (hf : ∀ x, f (f x) = f x) (h : Rewritten f xs ys) (h' : Rewritten f ys zs) :
    Rewritten f xs zs := by
  induction h generalizing zs with
  | nil => exact h'
  | @cons x y xs ys hxy _ ih =>
    obtain ⟨z, zs', hyz, htail, rfl⟩ := List.forall₂_cons_left_iff.mp h'
    refine .cons ?_ (ih htail)
    rcases hxy with rfl | rfl
    · exact hyz
    · rcases hyz with rfl | rfl
      · exact .inr rfl
      · exact .inr (hf x)

/-- **No way back**: an item that is rewritten does not return to what it was. -/
theorem antisymm (hf : ∀ x, f (f x) = f x) (h : Rewritten f xs ys) (h' : Rewritten f ys xs) :
    xs = ys := by
  induction h with
  | nil => rfl
  | @cons x y xs ys hxy _ ih =>
    obtain ⟨hyx, htail⟩ := List.forall₂_cons.mp h'
    rw [ih htail]
    rcases hxy with rfl | rfl
    · rfl
    · -- Both ways the first item is a result of `f`.
      have hx : x = f x := by
        rcases hyx with hx | hx
        · exact hx
        · rw [hf] at hx
          exact hx
      rw [← hx]

/-- A round changes nothing exactly when `f` fixes every item it selects. -/
theorem map_eq_self_iff {p : α → Prop} [DecidablePred p] :
    (xs.map fun x => if p x then f x else x) = xs ↔ ∀ x ∈ xs, p x → f x = x := by
  conv_lhs => rhs; rw [← List.map_id xs]
  rw [List.map_inj_left]
  refine forall_congr' fun x => forall_congr' fun _ => ?_
  by_cases hp : p x <;> simp [hp]

end Rewritten

end Framework
