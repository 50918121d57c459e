import Mathlib.Algebra.Order.Group.Int
import Mathlib.Data.List.Flatten
import Mathlib.Data.List.Pairwise
import Mathlib.Order.Interval.Set.Defs

/-!
# Runs of indices

A set of indices as the list of its runs, each from a first index to a last, in order and apart.
An interval that is pushed after the others is merged with the last run where it adjoins it.

* `IndexRuns.Apart` says that the runs are in order, with an index between any two that is in
  none.
* `IndexRuns.mem_push` and `IndexRuns.apart_push`: pushing an interval adds its indices.
* `IndexRuns.indices` are the indices of the runs, each once and in order.
* `IndexRuns.mem_gaps_iff`: the gaps between the runs are the places where indices are left out.
-/

namespace Framework
namespace IndexRuns

/-- The indices from `a` to `b`. -/
def interval (a b : ℤ) : List ℤ :=
  (List.range (b + 1 - a).toNat).map fun (k : ℕ) => a + (k : ℤ)

/-- Add an interval after the runs, or to the last one where it adjoins it. -/
def push : List (ℤ × ℤ) → ℤ → ℤ → List (ℤ × ℤ)
  | [], a, b => [(a, b)]
  | [(c, d)], a, b => if a ≤ d + 1 then [(c, max d b)] else [(c, d), (a, b)]
  | r :: r' :: runs, a, b => r :: push (r' :: runs) a b

/-- The indices of the runs. -/
def indices (runs : List (ℤ × ℤ)) : List ℤ :=
  runs.flatMap fun r => interval r.1 r.2

/-- Each run is one, and they are in order and apart. -/
structure Apart (runs : List (ℤ × ℤ)) : Prop where
  le : ∀ r ∈ runs, r.1 ≤ r.2
  apart : runs.Pairwise fun r r' => r.2 + 1 < r'.1

/-- Where one run ends and the next begins. -/
def gaps : List (ℤ × ℤ) → List (ℤ × ℤ)
  | [] => []
  | [_] => []
  | r :: r' :: runs => (r.2, r'.1) :: gaps (r' :: runs)

variable {runs : List (ℤ × ℤ)} {a b i : ℤ}

/-! ### Intervals -/

theorem mem_interval : i ∈ interval a b ↔ a ≤ i ∧ i ≤ b := by
  rw [interval, List.mem_map]
  constructor
  · rintro ⟨k, hk, rfl⟩
    rw [List.mem_range] at hk
    omega
  · rintro ⟨ha, hb⟩
    exact ⟨(i - a).toNat, List.mem_range.mpr (by omega), by omega⟩

theorem interval_of_lt (h : b < a) : interval a b = [] := by
  rw [interval, Int.toNat_of_nonpos (by omega), List.range_zero, List.map_nil]

theorem interval_succ (h : a ≤ b) : interval a b = interval a (b - 1) ++ [b] := by
  have hlength : (b + 1 - a).toNat = (b - 1 + 1 - a).toNat + 1 := by omega
  rw [interval, interval, hlength, List.range_succ, List.map_append, List.map_singleton]
  congr 2
  omega

theorem pairwise_interval (a b : ℤ) : (interval a b).Pairwise (· < ·) := by
  rw [interval, List.pairwise_map]
  exact List.pairwise_lt_range.imp fun h => by omega

theorem mem_indices : i ∈ indices runs ↔ ∃ r ∈ runs, r.1 ≤ i ∧ i ≤ r.2 := by
  simp only [indices, List.mem_flatMap, mem_interval]

/-- The indices of runs that are apart are in order, each once. -/
theorem Apart.pairwise_indices (h : Apart runs) : (indices runs).Pairwise (· < ·) := by
  rw [indices, List.pairwise_flatMap]
  refine ⟨fun r _ => pairwise_interval r.1 r.2, h.apart.imp fun hlt i hi j hj => ?_⟩
  have hi := mem_interval.mp hi
  have hj := mem_interval.mp hj
  omega

theorem Apart.of_cons {r : ℤ × ℤ} (h : Apart (r :: runs)) : Apart runs :=
  ⟨fun r' hr' => h.le r' (List.mem_cons_of_mem r hr'), (List.pairwise_cons.mp h.apart).2⟩

theorem Apart.lt_of_mem {r : ℤ × ℤ} (h : Apart (r :: runs)) (hi : i ∈ indices runs) :
    r.2 + 1 < i := by
  obtain ⟨r', hr', hlo, -⟩ := mem_indices.mp hi
  have hlt := (List.pairwise_cons.mp h.apart).1 r' hr'
  omega

/-! ### Pushing -/

/-- A run begins where one did before, or where the interval does. -/
theorem fst_of_mem_push {r : ℤ × ℤ} (h : r ∈ push runs a b) :
    r.1 = a ∨ ∃ r' ∈ runs, r.1 = r'.1 := by
  induction runs with
  | nil => exact .inl (by rw [List.mem_singleton.mp h])
  | cons r₀ runs ih =>
    match runs with
    | [] =>
      obtain ⟨c, d⟩ := r₀
      rw [push] at h
      split at h
      · exact .inr ⟨(c, d), List.mem_cons_self, by rw [List.mem_singleton.mp h]⟩
      · rcases List.mem_cons.mp h with heq | h
        · exact .inr ⟨(c, d), List.mem_cons_self, by rw [heq]⟩
        · exact .inl (by rw [List.mem_singleton.mp h])
    | r' :: runs =>
      rcases List.mem_cons.mp h with heq | h
      · exact .inr ⟨r₀, List.mem_cons_self, by rw [heq]⟩
      · exact (ih h).imp_right fun ⟨r', hr', heq⟩ => ⟨r', List.mem_cons_of_mem r₀ hr', heq⟩

/-- **Pushing an interval** that does not begin before the last run adds its indices. -/
theorem mem_push (hlast : ∀ r ∈ runs, r.1 ≤ a) :
    i ∈ indices (push runs a b) ↔ i ∈ indices runs ∨ a ≤ i ∧ i ≤ b := by
  induction runs with
  | nil => simp [push, mem_indices]
  | cons r runs ih =>
    match runs with
    | [] =>
      have hca := hlast r List.mem_cons_self
      obtain ⟨c, d⟩ := r
      simp only [push, mem_indices]
      split
      · simp only [List.mem_singleton, exists_eq_left]
        dsimp only at hca
        omega
      · simp
    | r' :: runs =>
      have hrest := ih fun r'' hr'' => hlast r'' (List.mem_cons_of_mem r hr'')
      have hsplit : ∀ rs, i ∈ indices (r :: rs) ↔ i ∈ interval r.1 r.2 ∨ i ∈ indices rs :=
        fun rs => List.mem_append
      rw [push, hsplit, hsplit, hrest, or_assoc]

/-- **And they stay apart.** -/
theorem apart_push (h : Apart runs) (hlast : ∀ r ∈ runs, r.1 ≤ a) (hab : a ≤ b) :
    Apart (push runs a b) := by
  induction runs with
  | nil => exact ⟨by simpa [push] using hab, by simp [push]⟩
  | cons r runs ih =>
    match runs with
    | [] =>
      have hca := hlast r List.mem_cons_self
      have hcd := h.le r List.mem_cons_self
      obtain ⟨c, d⟩ := r
      dsimp only at hca hcd
      rw [push]
      split
      · exact ⟨by simp; omega, by simp⟩
      · exact ⟨by simp; omega, by simp; omega⟩
    | r' :: runs =>
      have hlast' : ∀ r'' ∈ r' :: runs, r''.1 ≤ a :=
        fun r'' hr'' => hlast r'' (List.mem_cons_of_mem r hr'')
      have hrest := ih h.of_cons hlast'
      rw [push]
      refine ⟨List.forall_mem_cons.mpr ⟨h.le r List.mem_cons_self, hrest.le⟩,
        List.pairwise_cons.mpr ⟨fun r'' hr'' => ?_, hrest.apart⟩⟩
      have hgap := (List.pairwise_cons.mp h.apart).1
      rcases fst_of_mem_push hr'' with heq | ⟨r₀, hr₀, heq⟩
      · have hbefore := hlast' r' List.mem_cons_self
        have hnext := hgap r' List.mem_cons_self
        omega
      · rw [heq]
        exact hgap r₀ hr₀

/-- Push single indices that are in order. -/
theorem foldl_push {l : List ℤ} (h : Apart runs) (hl : l.Pairwise (· ≤ ·))
    (hlast : ∀ r ∈ runs, ∀ i ∈ l, r.1 ≤ i) :
    Apart (l.foldl (fun rs i => push rs i i) runs) ∧
      ∀ i, i ∈ indices (l.foldl (fun rs i => push rs i i) runs) ↔ i ∈ indices runs ∨ i ∈ l := by
  induction l generalizing runs with
  | nil => simpa using h
  | cons x l ih =>
    obtain ⟨hx, hl⟩ := List.pairwise_cons.mp hl
    have hbefore : ∀ r ∈ runs, r.1 ≤ x := fun r hr => hlast r hr x List.mem_cons_self
    have happart := apart_push h hbefore le_rfl
    have hlater : ∀ r ∈ push runs x x, ∀ i ∈ l, r.1 ≤ i := by
      intro r hr i hi
      rcases fst_of_mem_push hr with heq | ⟨r', hr', heq⟩
      · rw [heq]
        exact hx i hi
      · rw [heq]
        exact hlast r' hr' i (List.mem_cons_of_mem x hi)
    obtain ⟨hfold, hmem⟩ := ih happart hl hlater
    refine ⟨hfold, fun i => ?_⟩
    rw [List.foldl_cons, hmem, mem_push hbefore, List.mem_cons, or_assoc]
    have hsame : x ≤ i ∧ i ≤ x ↔ i = x := by omega
    rw [hsame]

/-! ### Gaps -/

/-- **Between two runs** are the indices between two that are in, one after the other, and not
adjoining. -/
theorem mem_gaps_iff (h : Apart runs) {p q : ℤ} :
    (p, q) ∈ gaps runs ↔ p ∈ indices runs ∧ q ∈ indices runs ∧ p + 1 < q ∧
      ∀ j, p < j → j < q → j ∉ indices runs := by
  induction runs with
  | nil => simp [gaps, indices]
  | cons r runs ih =>
    match runs with
    | [] =>
      refine iff_of_false (by simp [gaps]) ?_
      rintro ⟨hp, hq, hlt, hno⟩
      simp only [mem_indices, List.mem_singleton, exists_eq_left] at hp hq hno
      exact hno (p + 1) (by omega) hlt (by omega)
    | r' :: runs =>
      have hrest := ih h.of_cons
      have hsplit : ∀ i, i ∈ indices (r :: r' :: runs) ↔
          r.1 ≤ i ∧ i ≤ r.2 ∨ i ∈ indices (r' :: runs) := by
        intro i
        rw [← mem_interval]
        exact List.mem_append
      have hr := h.le r List.mem_cons_self
      have hr' := h.le r' (List.mem_cons_of_mem r List.mem_cons_self)
      have hgap := (List.pairwise_cons.mp h.apart).1 r' List.mem_cons_self
      have hfirst : r'.1 ∈ indices (r' :: runs) :=
        mem_indices.mpr ⟨r', List.mem_cons_self, le_rfl, hr'⟩
      have hleast : ∀ i ∈ indices (r' :: runs), r'.1 ≤ i := by
        intro i hi
        obtain ⟨r'', hr'', hle, -⟩ := mem_indices.mp hi
        rcases List.mem_cons.mp hr'' with rfl | hmem
        · exact hle
        · have hlt := (List.pairwise_cons.mp h.of_cons.apart).1 r'' hmem
          omega
      rw [gaps, List.mem_cons, hrest]
      constructor
      · rintro (heq | ⟨hp, hq, hlt, hno⟩)
        · obtain ⟨rfl, rfl⟩ := Prod.mk.inj heq
          refine ⟨(hsplit _).mpr (.inl ⟨hr, le_rfl⟩), (hsplit _).mpr (.inr hfirst), hgap, ?_⟩
          intro j hj hj' hmem
          rcases (hsplit j).mp hmem with hin | hin
          · omega
          · have hle := hleast j hin
            omega
        · refine ⟨(hsplit p).mpr (.inr hp), (hsplit q).mpr (.inr hq), hlt, ?_⟩
          intro j hj hj' hmem
          rcases (hsplit j).mp hmem with hin | hin
          · have hle := hleast p hp
            omega
          · exact hno j hj hj' hin
      · rintro ⟨hp, hq, hlt, hno⟩
        rcases (hsplit p).mp hp with hpr | hpr
        · -- The first run goes on to its end, and what comes after it begins with the next.
          have hend : p = r.2 := by
            by_contra hne
            rcases (hsplit q).mp hq with hqr | hqr
            · exact hno (p + 1) (by omega) hlt ((hsplit _).mpr (.inl (by omega)))
            · have hle := hleast q hqr
              exact hno (p + 1) (by omega) (by omega) ((hsplit _).mpr (.inl (by omega)))
          have hstart : q = r'.1 := by
            rcases (hsplit q).mp hq with hqr | hqr
            · omega
            · have hle := hleast q hqr
              by_contra hne
              exact hno r'.1 (by omega) (by omega) ((hsplit _).mpr (.inr hfirst))
          exact .inl (by rw [hend, hstart])
        · have hle := hleast p hpr
          refine .inr ⟨hpr, ?_, hlt, fun j hj hj' hmem => hno j hj hj' ((hsplit j).mpr (.inr hmem))⟩
          rcases (hsplit q).mp hq with hqr | hqr
          · omega
          · exact hqr

end IndexRuns
end Framework
