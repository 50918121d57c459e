import Mathlib.Data.List.Nodup
import Mathlib.Data.List.Pairwise
import EmailOps.Framework.StableSort

/-!
# The first entries of two rankings

A list is ranked by a relation when each entry stands before the ones it is ahead of. The
rank of an entry is how many are ahead of it, and its place in a ranked list.

* `rank_getElem` is that place.
* `take_eq_take_iff`: two rankings of the same entries begin alike if and only if the entries
  of the first ranks in one are ahead of the same entries in the other.
* `Ahead` is how a stable sort ranks a list: by a key, and entries of one key by where they
  stood before. `pairwise_ahead_insertionSort` says so.
-/

namespace Framework
namespace Ranking

open scoped List

variable {α : Type*} {r r' : α → α → Prop} [DecidableRel r] [DecidableRel r'] {s s' : List α}

/-- How many of the entries are ahead of one. -/
def rank (r : α → α → Prop) [DecidableRel r] (l : List α) (a : α) : ℕ :=
  l.countP (r · a)

theorem rank_perm {l l' : List α} (h : l.Perm l') (a : α) : rank r l a = rank r l' a :=
  h.countP_eq _

/-- **The rank of an entry is its place.** -/
theorem rank_getElem (hasymm : ∀ a b, r a b → ¬ r b a) (hs : s.Pairwise r) {i : ℕ}
    (hi : i < s.length) : rank r s s[i] = i := by
  induction s generalizing i with
  | nil => exact absurd hi (Nat.not_lt_zero i)
  | cons a s ih =>
    obtain ⟨ha, hs⟩ := List.pairwise_cons.mp hs
    unfold rank
    cases i with
    | zero =>
      refine List.countP_eq_zero.mpr fun b hb => ?_
      rw [decide_eq_true_eq]
      rcases List.mem_cons.mp hb with rfl | hb
      · exact fun h => hasymm b b h h
      · exact hasymm a b (ha b hb)
    | succ i =>
      have hi' : i < s.length := Nat.lt_of_succ_lt_succ hi
      have hahead : r a s[i] := ha _ (List.getElem_mem hi')
      rw [List.getElem_cons_succ, List.countP_cons_of_pos (by simpa using hahead)]
      exact congrArg (· + 1) (ih hs hi')

theorem rank_of_getElem? (hasymm : ∀ a b, r a b → ¬ r b a) (hs : s.Pairwise r) {i : ℕ} {a : α}
    (h : s[i]? = some a) : rank r s a = i := by
  obtain ⟨hi, rfl⟩ := List.getElem?_eq_some_iff.mp h
  exact rank_getElem hasymm hs hi

/-- One entry is ahead of another when its rank is less. -/
theorem ahead_iff_rank_lt (hasymm : ∀ a b, r a b → ¬ r b a) (hs : s.Pairwise r) {a b : α}
    (ha : a ∈ s) (hb : b ∈ s) : r a b ↔ rank r s a < rank r s b := by
  obtain ⟨i, hi, rfl⟩ := List.mem_iff_getElem.mp ha
  obtain ⟨j, hj, rfl⟩ := List.mem_iff_getElem.mp hb
  rw [rank_getElem hasymm hs, rank_getElem hasymm hs]
  have hpair := List.pairwise_iff_getElem.mp hs
  constructor
  · intro h
    rcases lt_trichotomy i j with hlt | rfl | hgt
    · exact hlt
    · exact absurd h (hasymm _ _ h)
    · exact absurd h (hasymm _ _ (hpair j i hj hi hgt))
  · exact hpair i j hi hj

omit [DecidableRel r] in
/-- Of two entries of a ranking one is ahead. -/
theorem ahead_or_ahead (hs : s.Pairwise r) {a b : α} (ha : a ∈ s) (hb : b ∈ s) (hne : a ≠ b) :
    r a b ∨ r b a := by
  have hsymm : Std.Symm fun a b => r a b ∨ r b a := ⟨fun _ _ h => h.symm⟩
  have hpair : s.Pairwise fun a b => r a b ∨ r b a := hs.imp fun h => .inl h
  exact hpair.forall ha hb hne

/-- An entry that has the same ones ahead of it has the same rank. -/
theorem rank_eq_rank (hasymm : ∀ a b, r a b → ¬ r b a) (hasymm' : ∀ a b, r' a b → ¬ r' b a)
    (hs : s.Pairwise r) (hs' : s'.Pairwise r') (hperm : s.Perm s') {a : α} (ha : a ∈ s)
    (h : ∀ b ∈ s, r a b ↔ r' a b) : rank r' s' a = rank r s a := by
  rw [← rank_perm hperm]
  refine List.countP_congr fun b hb => ?_
  rw [decide_eq_true_eq, decide_eq_true_eq]
  by_cases hab : a = b
  · subst hab
    exact iff_of_false (fun h => hasymm' a a h h) fun h => hasymm a a h h
  · constructor
    · intro hba
      refine (ahead_or_ahead hs ha hb hab).resolve_left fun hab' => ?_
      exact hasymm' b a hba ((h b hb).mp hab')
    · intro hba
      refine (ahead_or_ahead hs' (hperm.mem_iff.mp ha) (hperm.mem_iff.mp hb) hab).resolve_left ?_
      exact fun hab' => hasymm b a hba ((h b hb).mpr hab')

/-- **Two rankings of the same entries begin alike** if and only if the entries of the first
ranks in one are ahead of the same entries in the other. -/
theorem take_eq_take_iff (hasymm : ∀ a b, r a b → ¬ r b a) (hasymm' : ∀ a b, r' a b → ¬ r' b a)
    (hs : s.Pairwise r) (hs' : s'.Pairwise r') (hperm : s.Perm s') (k : ℕ) :
    s.take k = s'.take k ↔ ∀ a ∈ s, rank r s a < k → ∀ b ∈ s, r a b ↔ r' a b := by
  have hlen := hperm.length_eq
  constructor
  · intro heq
    -- an entry of the first ranks has its place in both
    have hplace : ∀ i < k, s'[i]? = s[i]? := by
      intro i hik
      have hget := congrArg (·[i]?) heq
      simpa [List.getElem?_take, hik] using hget.symm
    have hrank : ∀ a ∈ s, rank r s a < k → rank r' s' a = rank r s a := by
      intro a ha hlt
      obtain ⟨i, hi, rfl⟩ := List.mem_iff_getElem.mp ha
      rw [rank_getElem hasymm hs] at hlt ⊢
      exact rank_of_getElem? hasymm' hs' ((hplace i hlt).trans (List.getElem?_eq_getElem hi))
    have hrank' : ∀ a ∈ s, rank r' s' a < k → rank r s a = rank r' s' a := by
      intro a ha hlt
      obtain ⟨i, hi, rfl⟩ := List.mem_iff_getElem.mp (hperm.mem_iff.mp ha)
      rw [rank_getElem hasymm' hs'] at hlt ⊢
      exact rank_of_getElem? hasymm hs ((hplace i hlt).symm.trans (List.getElem?_eq_getElem hi))
    intro a ha hlt b hb
    rw [ahead_iff_rank_lt hasymm hs ha hb,
      ahead_iff_rank_lt hasymm' hs' (hperm.mem_iff.mp ha) (hperm.mem_iff.mp hb), hrank a ha hlt]
    by_cases hlt' : rank r s b < k
    · rw [hrank b hb hlt']
    · -- behind the first ranks in one, behind them in the other
      have hge : ¬ rank r' s' b < k := fun h => hlt' (hrank' b hb h ▸ h)
      omega
  · intro h
    refine List.ext_getElem (by rw [List.length_take, List.length_take, hlen]) fun i hi hi' => ?_
    rw [List.length_take] at hi hi'
    rw [List.getElem_take, List.getElem_take]
    have hmem : s[i] ∈ s := List.getElem_mem _
    have hrank : rank r s s[i] = i := rank_getElem hasymm hs _
    have hrank' := rank_eq_rank hasymm hasymm' hs hs' hperm hmem (h _ hmem (by omega))
    obtain ⟨j, hj, hget⟩ := List.mem_iff_getElem.mp (hperm.mem_iff.mp hmem)
    rw [← hget, rank_getElem hasymm' hs', hget, hrank] at hrank'
    subst hrank'
    exact hget.symm

/-! ### Stable sorts -/

section Stable

variable {Key : Type*} [LinearOrder Key] {key : α → Key} {l : List α}

/-- The order of a stable sort: an entry is ahead of those of a greater key, and of those of
its own key that stood behind it. -/
def Ahead (key : α → Key) (l : List α) (a b : α) : Prop :=
  key a < key b ∨ key a = key b ∧ [a, b] <+ l

instance [DecidableEq α] (key : α → Key) (l : List α) : DecidableRel (Ahead key l) :=
  fun a b => inferInstanceAs (Decidable (key a < key b ∨ key a = key b ∧ [a, b] <+ l))

/-- Of two different entries only one stands behind the other. -/
theorem not_sublist_swap (hl : l.Nodup) {a b : α} (h : [a, b] <+ l) : ¬ [b, a] <+ l := by
  induction l with
  | nil => exact absurd (List.eq_nil_of_sublist_nil h) (List.cons_ne_nil _ _)
  | cons c l ih =>
    obtain ⟨hc, hl⟩ := List.nodup_cons.mp hl
    intro h'
    rcases List.sublist_cons_iff.mp h with hab | ⟨r, hr, hbl⟩ <;>
      rcases List.sublist_cons_iff.mp h' with hba | ⟨r', hr', -⟩
    · exact ih hl hab hba
    · obtain ⟨rfl, -⟩ := List.cons.inj hr'
      exact hc (hab.subset (List.mem_cons_of_mem a List.mem_cons_self))
    · obtain ⟨rfl, -⟩ := List.cons.inj hr
      exact hc (hba.subset (List.mem_cons_of_mem b List.mem_cons_self))
    · obtain ⟨rfl, rfl⟩ := List.cons.inj hr
      obtain ⟨rfl, -⟩ := List.cons.inj hr'
      exact hc (hbl.subset List.mem_cons_self)

theorem ahead_asymm (hl : l.Nodup) (a b : α) (h : Ahead key l a b) : ¬ Ahead key l b a := by
  rintro (h' | ⟨heq', h'⟩)
  · rcases h with h | ⟨heq, -⟩
    · exact lt_asymm h h'
    · exact absurd heq h'.ne'
  · rcases h with h | ⟨-, h⟩
    · exact absurd heq' h.ne'
    · exact not_sublist_swap hl h h'

/-- **A stable sort ranks by `Ahead`.** -/
theorem pairwise_ahead_insertionSort (l : List α) :
    (l.insertionSort fun a b => key a ≤ key b).Pairwise (Ahead key l) := by
  refine List.pairwise_iff_forall_sublist.mpr fun {a b} hab => ?_
  have hle : key a ≤ key b :=
    List.pairwise_iff_forall_sublist.mp
      (List.pairwise_insertionSort (fun a b => key a ≤ key b) l) hab
  rcases lt_or_eq_of_le hle with hlt | heq
  · exact .inl hlt
  · -- entries of one key are as they were
    refine .inr ⟨heq, ?_⟩
    have hfilter := hab.filter fun c => decide (key c = key b)
    rw [StableSort.filter_insertionSort] at hfilter
    simp only [List.filter_cons, heq, decide_true, if_true, List.filter_nil] at hfilter
    exact hfilter.trans (List.filter_sublist)

end Stable

end Ranking
end Framework
