import Mathlib.Algebra.BigOperators.Group.List.Basic
import Mathlib.Algebra.Order.BigOperators.Group.List
import Mathlib.Algebra.Order.Group.Nat
import Mathlib.Algebra.Ring.Nat
import Mathlib.Data.List.Flatten

/-!
# Pages of a list

`page L k l` is the page of `L` entries that begins at the offset `k * L`. The pages of one
list, one after the other, are the list (`flatMap_page`).

Where several lists are merged page by page, the `k`-th pages of all of them are put in order
and cut at `L` entries. `sum_min_loaded_lt` says that this loses entries as soon as the first
pages hold more than `L` of them together, and `of_loaded_le` when they do not.
-/

namespace Framework
namespace Paging

variable {α β : Type*} (L : ℕ)

/-- The page of a list at an offset of `k` pages. -/
def page (k : ℕ) (l : List α) : List α :=
  (l.drop (k * L)).take L

/-- The entries on the `k`-th pages of some lists. -/
def loaded (k : ℕ) (lists : List (List α)) : ℕ :=
  (lists.map fun l => (page L k l).length).sum

variable {L}

/-! ### One list -/

theorem mem_of_mem_page {k : ℕ} {l : List α} {a : α} (h : a ∈ page L k l) : a ∈ l :=
  List.mem_of_mem_drop (List.mem_of_mem_take h)

theorem length_page_le (k : ℕ) (l : List α) : (page L k l).length ≤ L :=
  List.length_take_le _ _

theorem page_zero_of_length_le {l : List α} (h : l.length ≤ L) : page L 0 l = l := by
  unfold page
  rw [Nat.zero_mul, List.drop_zero, List.take_of_length_le h]

theorem page_succ_of_length_le {l : List α} (h : l.length ≤ L) (k : ℕ) :
    page L (k + 1) l = [] := by
  unfold page
  rw [List.drop_eq_nil_of_le, List.take_nil]
  calc l.length ≤ L := h
    _ ≤ (k + 1) * L := Nat.le_mul_of_pos_left L (Nat.succ_pos k)

/-- **The pages of a list are the list.** -/
theorem flatMap_page (l : List α) (n : ℕ) :
    (List.range n).flatMap (fun k => page L k l) = l.take (n * L) := by
  induction n with
  | zero => simp
  | succ n ih =>
    rw [List.range_succ, List.flatMap_append, ih, Nat.succ_mul, List.take_add]
    simp [page]

theorem flatMap_page_of_length_le (hL : 0 < L) {l : List α} {n : ℕ} (h : l.length ≤ n) :
    (List.range n).flatMap (fun k => page L k l) = l := by
  rw [flatMap_page, List.take_of_length_le]
  exact h.trans (Nat.le_mul_of_pos_right n hL)

/-- An earlier page of a sorted list comes before a later one. -/
theorem rel_of_mem_page {R : α → α → Prop} {l : List α} (hl : l.Pairwise R) {j k : ℕ} (h : j < k)
    {a b : α} (ha : a ∈ page L j l) (hb : b ∈ page L k l) : R a b := by
  rw [← List.take_append_drop ((j + 1) * L) l] at hl
  refine (List.pairwise_append.mp hl).2.2 a ?_ b ?_
  · rw [Nat.succ_mul, List.take_add]
    exact List.mem_append_right _ ha
  · have hle : (j + 1) * L ≤ k * L := Nat.mul_le_mul_right L h
    have hdrop := List.mem_of_mem_take hb
    rw [← Nat.add_sub_cancel' hle, ← List.drop_drop] at hdrop
    exact List.mem_of_mem_drop hdrop

/-! ### Many lists -/

/-- The pages hold no more entries than the lists. -/
theorem sum_loaded_le (lists : List (List α)) (n : ℕ) :
    ((List.range n).map fun k => loaded L k lists).sum ≤ (lists.map List.length).sum := by
  induction lists with
  | nil => simp [loaded]
  | cons l lists ih =>
    have hsplit : ((List.range n).map fun k => loaded L k (l :: lists)).sum =
        ((List.range n).map fun k => (page L k l).length).sum +
          ((List.range n).map fun k => loaded L k lists).sum := by
      simp only [loaded, List.map_cons, List.sum_cons]
      exact List.sum_map_add
    have hfirst : ((List.range n).map fun k => (page L k l).length).sum ≤ l.length := by
      have hlength := congrArg List.length (flatMap_page (L := L) l n)
      rw [List.length_flatMap] at hlength
      rw [hlength]
      exact List.length_take_le' _ _
    rw [hsplit, List.map_cons, List.sum_cons]
    exact Nat.add_le_add hfirst ih

/-- **A merge page by page loses entries** when the first pages hold more than one page. -/
theorem sum_min_loaded_lt {lists : List (List α)} (h : L < loaded L 0 lists) (n : ℕ) :
    ((List.range n).map fun k => min L (loaded L k lists)).sum < (lists.map List.length).sum := by
  cases n with
  | zero =>
    have hone := sum_loaded_le (L := L) lists 1
    simp only [List.range_one, List.range_zero, List.map_cons, List.map_nil, List.sum_cons,
      List.sum_nil] at hone ⊢
    omega
  | succ n =>
    calc ((List.range (n + 1)).map fun k => min L (loaded L k lists)).sum
        = min L (loaded L 0 lists) +
            ((List.range n).map fun k => min L (loaded L (k + 1) lists)).sum := by
          rw [List.range_succ_eq_map, List.map_cons, List.sum_cons, List.map_map]
          rfl
      _ ≤ L + ((List.range n).map fun k => loaded L (k + 1) lists).sum :=
          Nat.add_le_add (min_le_left _ _)
            (List.sum_le_sum fun k _ => min_le_right _ _)
      _ < loaded L 0 lists + ((List.range n).map fun k => loaded L (k + 1) lists).sum :=
          Nat.add_lt_add_right h _
      _ = ((List.range (n + 1)).map fun k => loaded L k lists).sum := by
          rw [List.range_succ_eq_map, List.map_cons, List.sum_cons, List.map_map]
          rfl
      _ ≤ (lists.map List.length).sum := sum_loaded_le lists (n + 1)

/-- **What fits on one page**: when the first pages hold no more than one page, the lists fit
on it, or all but one are empty. -/
theorem of_loaded_le (hL : 0 < L) {lists : List (List α)} (h : loaded L 0 lists ≤ L) :
    (lists.map List.length).sum ≤ L ∨ (lists.filter fun l => !l.isEmpty).length ≤ 1 := by
  by_cases hall : ∀ l ∈ lists, l.length ≤ L
  · -- All the pages are the lists.
    refine .inl (le_of_eq_of_le ?_ h)
    unfold loaded
    congr 1
    exact List.map_congr_left fun l hl => by rw [page_zero_of_length_le (hall l hl)]
  · -- One of them fills the page, and there is no room for another.
    refine .inr ?_
    simp only [not_forall] at hall
    obtain ⟨l, hl, hlong⟩ := hall
    obtain ⟨front, back, rfl⟩ := List.append_of_mem hl
    have hfull : (page L 0 l).length = L := by
      unfold page
      rw [Nat.zero_mul, List.drop_zero, List.length_take]
      omega
    simp only [loaded, List.map_append, List.map_cons, List.sum_append, List.sum_cons] at h
    rw [hfull] at h
    have hempty : ∀ rest : List (List α), (rest.map fun l => (page L 0 l).length).sum = 0 →
        rest.filter (fun l => !l.isEmpty) = [] := by
      intro rest hzero
      refine List.filter_eq_nil_iff.mpr fun l hl => ?_
      have hlength := List.sum_eq_zero_iff.mp hzero _ (List.mem_map_of_mem hl)
      unfold page at hlength
      rw [Nat.zero_mul, List.drop_zero, List.length_take] at hlength
      have hnil : l.length = 0 := by omega
      simp [List.length_eq_zero_iff.mp hnil]
    rw [List.filter_append, List.filter_cons, hempty front (by omega), hempty back (by omega)]
    split <;> simp

/-- Lists all but one of which are empty are as good as one. -/
theorem exists_flatMap_eq {lists : List (List α)}
    (h : (lists.filter fun l => !l.isEmpty).length ≤ 1) :
    ∃ l : List α, (l = [] ∨ l ∈ lists) ∧
      ∀ f : List α → List β, f [] = [] → lists.flatMap f = f l := by
  induction lists with
  | nil => exact ⟨[], .inl rfl, fun f hf => by rw [hf]; rfl⟩
  | cons l lists ih =>
    cases l with
    | nil =>
      obtain ⟨l, hl, hflat⟩ := ih h
      refine ⟨l, hl.imp_right (List.mem_cons_of_mem _), fun f hf => ?_⟩
      rw [List.flatMap_cons, hf, List.nil_append, hflat f hf]
    | cons a l =>
      -- The others are empty.
      refine ⟨a :: l, .inr List.mem_cons_self, fun f hf => ?_⟩
      have hrest : ∀ l' ∈ lists, l' = [] := by
        have hnil : lists.filter (fun l => !l.isEmpty) = [] := by
          rw [List.filter_cons_of_pos rfl, List.length_cons] at h
          exact List.length_eq_zero_iff.mp (by omega)
        intro l' hl'
        simpa using List.filter_eq_nil_iff.mp hnil l' hl'
      rw [List.flatMap_cons, List.flatMap_eq_nil_iff.mpr, List.append_nil]
      intro l' hl'
      rw [hrest l' hl', hf]

end Paging
end Framework
