import Mathlib.Data.List.Dedup
import Mathlib.Data.List.DropRight

/-!
# The most recent of what was seen

A bounded memory of keys keeps the keys in the order in which they were last seen, and forgets the
oldest when there are too many.

* `remember` is the step, on a set that is kept in the order of insertion.
* `recent` is what is remembered of a history: its last keys, each where it was last seen.
  `foldl_remember` says that this is what the steps come to.
* `mem_recent`: a key is remembered exactly if fewer than `cap` others were seen after it, and
  `Forgotten` says that it is not.
-/

namespace Framework
namespace Recency

variable {α : Type*} [DecidableEq α]

/-- A key is seen: it becomes the newest, and the oldest keys are forgotten. -/
def remember (cap : ℕ) (seen : List α) (x : α) : List α :=
  let seen := seen.erase x ++ [x]
  seen.drop (seen.length - cap)

/-- What is remembered of a history. -/
def recent (cap : ℕ) (history : List α) : List α :=
  history.dedup.rtake cap

/-! ### What was seen last -/

theorem dedup_snoc (l : List α) (x : α) : (l ++ [x]).dedup = l.dedup.erase x ++ [x] := by
  induction l with
  | nil => rfl
  | cons y l ih =>
    rw [List.cons_append]
    by_cases hy : y ∈ l
    · rw [List.dedup_cons_of_mem (List.mem_append_left _ hy), List.dedup_cons_of_mem hy, ih]
    · by_cases hyx : y = x
      · subst hyx
        rw [List.dedup_cons_of_mem (List.mem_append_right _ (List.mem_singleton_self _)), ih,
          List.dedup_cons_of_notMem hy, List.erase_cons_head,
          List.erase_of_not_mem (mt List.mem_dedup.mp hy)]
      · have hnew : y ∉ l ++ [x] := by
          rw [List.mem_append, List.mem_singleton]
          exact not_or.mpr ⟨hy, hyx⟩
        rw [List.dedup_cons_of_notMem hnew, ih, List.dedup_cons_of_notMem hy,
          List.erase_cons_tail (by simpa using hyx), List.cons_append]

/-- What comes first in a history does not change the order of the rest. -/
theorem dedup_suffix (l₁ l₂ : List α) : l₂.dedup <:+ (l₁ ++ l₂).dedup := by
  induction l₁ with
  | nil => exact List.suffix_refl _
  | cons y l₁ ih =>
    rw [List.cons_append, List.dedup_cons]
    split
    · exact ih
    · exact ih.trans (List.suffix_cons _ _)

omit [DecidableEq α] in
/-- The end of a list is that of its end. -/
theorem rtake_append {k : ℕ} {l₁ l₂ : List α} (h : k ≤ l₂.length) :
    (l₁ ++ l₂).rtake k = l₂.rtake k := by
  rw [List.rtake, List.rtake, List.length_append, List.drop_append,
    List.drop_eq_nil_of_le (by omega), List.nil_append]
  congr 1
  omega

/-! ### Remembering -/

/-- **One more key is one step.** -/
theorem recent_snoc (cap : ℕ) (history : List α) (x : α) :
    recent cap (history ++ [x]) = remember cap (recent cap history) x := by
  rw [recent, dedup_snoc]
  change (history.dedup.erase x ++ [x]).rtake cap = ((recent cap history).erase x ++ [x]).rtake cap
  cases cap with
  | zero => rw [List.rtake_zero, List.rtake_zero]
  | succ k =>
    rw [List.rtake_concat_succ, List.rtake_concat_succ]
    refine congrArg (· ++ [x]) ?_
    have hnodup := List.nodup_dedup history
    rw [recent]
    generalize history.dedup = d at hnodup
    rcases Nat.le_total d.length (k + 1) with hfew | hmany
    · -- Nothing has been forgotten.
      have hall : d.rtake (k + 1) = d := by
        rw [List.rtake, Nat.sub_eq_zero_of_le hfew, List.drop_zero]
      rw [hall]
    · have hsplit : d = d.take (d.length - (k + 1)) ++ d.rtake (k + 1) :=
        (List.take_append_drop _ _).symm
      have hlength : (d.rtake (k + 1)).length = k + 1 := by
        rw [List.rtake, List.length_drop]
        omega
      generalize d.take (d.length - (k + 1)) = old at hsplit
      generalize d.rtake (k + 1) = new at hsplit hlength
      subst hsplit
      by_cases hx : x ∈ old
      · have hnew : x ∉ new := fun hmem => List.disjoint_of_nodup_append hnodup hx hmem
        rw [List.erase_append_left _ hx, List.erase_of_not_mem hnew, rtake_append (by omega)]
      · have herase : k ≤ (new.erase x).length := by
          rw [List.length_erase]
          split <;> omega
        rw [List.erase_append_right _ hx, rtake_append herase]

/-- **What the steps come to.** -/
theorem foldl_remember (cap : ℕ) (history keys : List α) :
    keys.foldl (remember cap) (recent cap history) = recent cap (history ++ keys) := by
  induction keys using List.reverseRecOn with
  | nil => rw [List.append_nil, List.foldl_nil]
  | append_singleton keys x ih =>
    rw [List.foldl_append, ih, List.foldl_cons, List.foldl_nil, ← recent_snoc, List.append_assoc]

/-- A key that was last seen at a given place. -/
theorem mem_recent_split {cap : ℕ} {before since : List α} {x : α} (hx : x ∉ since) :
    x ∈ recent cap (before ++ x :: since) ↔ since.dedup.length < cap := by
  obtain ⟨old, hold⟩ := dedup_suffix before (x :: since)
  have hnodup := List.nodup_dedup (before ++ x :: since)
  rw [recent, ← hold, List.dedup_cons_of_notMem hx]
  rw [← hold, List.dedup_cons_of_notMem hx] at hnodup
  have hnew : x ∉ since.dedup := mt List.mem_dedup.mp hx
  rcases Nat.lt_or_ge since.dedup.length cap with hfew | hmany
  · refine iff_of_true ?_ hfew
    rw [List.rtake, List.drop_append_of_le_length (by simp; omega)]
    exact List.mem_append_right _ List.mem_cons_self
  · refine iff_of_false (fun hmem => hnew ?_) (Nat.not_lt.mpr hmany)
    rw [rtake_append (by simp; omega), ← List.singleton_append, rtake_append hmany] at hmem
    exact List.mem_of_mem_drop hmem

/-- **A key is remembered exactly if fewer than `cap` others were seen after it.** -/
theorem mem_recent {cap : ℕ} {history : List α} {x : α} : x ∈ recent cap history ↔
    ∃ before since, history = before ++ x :: since ∧ x ∉ since ∧ since.dedup.length < cap := by
  constructor
  · intro hmem
    have hx : x ∈ history := List.mem_dedup.mp (List.mem_of_mem_drop hmem)
    -- The history is split where the key was last seen.
    obtain ⟨late, early, hsplit, hlate⟩ := List.eq_append_cons_of_mem (List.mem_reverse.mpr hx)
    have hhistory : history = early.reverse ++ x :: late.reverse := by
      rw [← history.reverse_reverse, hsplit, List.reverse_append, List.reverse_cons,
        List.append_assoc, List.singleton_append]
    have hsince : x ∉ late.reverse := mt List.mem_reverse.mp hlate
    exact ⟨_, _, hhistory, hsince, (mem_recent_split hsince).mp (hhistory ▸ hmem)⟩
  · rintro ⟨before, since, rfl, hx, hfew⟩
    exact (mem_recent_split hx).mpr hfew

/-- A key is forgotten, if it ever was seen: too many others were seen since. -/
def Forgotten (cap : ℕ) (history : List α) (x : α) : Prop :=
  ∀ before since, history = before ++ x :: since → x ∉ since → cap ≤ since.dedup.length

theorem forgotten_iff {cap : ℕ} {history : List α} {x : α} :
    Forgotten cap history x ↔ x ∉ recent cap history := by
  rw [mem_recent]
  constructor
  · rintro h ⟨before, since, hhistory, hx, hfew⟩
    exact absurd (h before since hhistory hx) (Nat.not_le.mpr hfew)
  · intro h before since hhistory hx
    exact Nat.le_of_not_lt fun hfew => h ⟨before, since, hhistory, hx, hfew⟩

instance (cap : ℕ) (history : List α) (x : α) : Decidable (Forgotten cap history x) :=
  decidable_of_iff _ forgotten_iff.symm

end Recency
end Framework
