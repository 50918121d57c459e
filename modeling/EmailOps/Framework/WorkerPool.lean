import Mathlib.Algebra.BigOperators.Group.Finset.Piecewise
import Mathlib.Algebra.Order.BigOperators.Group.Finset
import Mathlib.Algebra.Order.Group.Nat
import Mathlib.Data.Fintype.Card
import Mathlib.Data.List.Nodup
import EmailOps.Framework.System

/-!
# Workers at a shared counter

So many workers share a counter of jobs. A worker takes the next number and counts on; when
it is the number of a job, the worker calls for it and waits, and when the call has ended it
files the outcome under the number and comes back for another. A worker that finds no job
left returns. The calls end in any order, with any outcomes.

* `WorkerPool.system` is the machine, over any type of outcomes.
* `WorkerPool.Inv` is its invariant: every number below the counter is that of one call, which
  a worker waits for or whose outcome is filed.
* `inFlight_le`: no more calls are under way than there are workers.
* `filed_of_returned`: when all workers have returned, every job was called for once, and its
  outcome is filed.
* `enabled_of_not_returned` and `length_exec_le`: until then there is a next step, and not more
  than a certain number of them.
-/

namespace Framework
namespace WorkerPool

variable {W Outcome : Type*}

/-- What a worker is at. -/
inductive Phase
  /-- About to take the next number. -/
  | ready
  /-- Waiting for a call. -/
  | busy (job : ℕ)
  | returned
  deriving DecidableEq

structure State (W Outcome : Type*) where
  cursor : ℕ
  phase : W → Phase
  /-- The outcomes filed under the numbers of their jobs. -/
  results : ℕ → Option Outcome
  /-- The calls so far. -/
  calls : List ℕ
  /-- The calls that have ended, with their outcomes. -/
  settled : List (ℕ × Outcome)

inductive Label (W Outcome : Type*)
  /-- A worker takes the next number. -/
  | next (w : W)
  /-- The call a worker waits for ends. -/
  | settle (w : W) (r : Outcome)

def initial (W Outcome : Type*) : State W Outcome where
  cursor := 0
  phase _ := .ready
  results _ := none
  calls := []
  settled := []

variable [DecidableEq W]

/-- One step, with `n` jobs. -/
def step (n : ℕ) (s : State W Outcome) : Label W Outcome → Option (State W Outcome)
  | .next w =>
    match s.phase w with
    | .ready =>
      if n ≤ s.cursor then
        some { s with cursor := s.cursor + 1, phase := Function.update s.phase w .returned }
      else
        some { s with
          cursor := s.cursor + 1
          phase := Function.update s.phase w (.busy s.cursor)
          calls := s.calls ++ [s.cursor] }
    | _ => none
  | .settle w r =>
    match s.phase w with
    | .busy i =>
      some { s with
        phase := Function.update s.phase w .ready
        results := Function.update s.results i (some r)
        settled := s.settled ++ [(i, r)] }
    | _ => none

def system (W Outcome : Type*) [DecidableEq W] (n : ℕ) :
    System (State W Outcome) (Label W Outcome) where
  init s := s = initial W Outcome
  step := step n

/-- Every worker has returned. -/
def Returned (s : State W Outcome) : Prop :=
  ∀ w, s.phase w = .returned

/-- The calls that have not ended. -/
def inFlight (s : State W Outcome) : List ℕ :=
  s.calls.filter fun i => i ∉ s.settled.map Prod.fst

variable {n : ℕ} {s s' : State W Outcome}

/-- **What a step does.** -/
theorem step_cases {l : Label W Outcome} (h : step n s l = some s') :
    (∃ w, l = .next w ∧ s.phase w = .ready ∧ n ≤ s.cursor ∧
      s' = { s with cursor := s.cursor + 1, phase := Function.update s.phase w .returned }) ∨
    (∃ w, l = .next w ∧ s.phase w = .ready ∧ s.cursor < n ∧
      s' = { s with
        cursor := s.cursor + 1
        phase := Function.update s.phase w (.busy s.cursor)
        calls := s.calls ++ [s.cursor] }) ∨
    (∃ w r i, l = .settle w r ∧ s.phase w = .busy i ∧
      s' = { s with
        phase := Function.update s.phase w .ready
        results := Function.update s.results i (some r)
        settled := s.settled ++ [(i, r)] }) := by
  cases l with
  | next w =>
    cases hw : s.phase w with
    | ready =>
      simp only [step, hw] at h
      split at h
      · next hn => exact .inl ⟨w, rfl, hw, hn, (Option.some.inj h).symm⟩
      · next hn => exact .inr (.inl ⟨w, rfl, hw, not_le.mp hn, (Option.some.inj h).symm⟩)
    | busy i => simp [step, hw] at h
    | returned => simp [step, hw] at h
  | settle w r =>
    cases hw : s.phase w with
    | ready => simp [step, hw] at h
    | busy i =>
      simp only [step, hw] at h
      exact .inr (.inr ⟨w, r, i, rfl, hw, (Option.some.inj h).symm⟩)
    | returned => simp [step, hw] at h

/-! ### The invariant -/

/-- Every number below the counter is that of one call, which one worker waits for, or whose
outcome is filed. -/
structure Inv (n : ℕ) (s : State W Outcome) : Prop where
  calls : s.calls = List.range (min s.cursor n)
  busy : ∀ w i, s.phase w = .busy i → i < min s.cursor n ∧ s.results i = none
  one : ∀ w w' i, s.phase w = .busy i → s.phase w' = .busy i → w = w'
  held : ∀ i < min s.cursor n, (∃ w, s.phase w = .busy i) ∨ s.results i ≠ none
  filed : ∀ i r, s.results i = some r ↔ (i, r) ∈ s.settled
  nodup : (s.settled.map Prod.fst).Nodup
  called : ∀ i, min s.cursor n ≤ i → s.results i = none
  returned : ∀ w, s.phase w = .returned → n ≤ s.cursor

omit [DecidableEq W] in
theorem inv_initial : Inv n (initial W Outcome) where
  calls := by simp [initial]
  busy _ _ h := by cases h
  one _ _ _ h := by cases h
  held _ h := by simp [initial] at h
  filed _ _ := by simp [initial]
  nodup := List.nodup_nil
  called _ _ := rfl
  returned _ h := by cases h

/-- A worker finds no job left. -/
theorem Inv.return (h : Inv n s) {w : W} (hw : s.phase w = .ready) (hn : n ≤ s.cursor) :
    Inv n { s with cursor := s.cursor + 1, phase := Function.update s.phase w .returned } := by
  have hmin : min (s.cursor + 1) n = min s.cursor n := by omega
  have hbusy : ∀ w' i, Function.update s.phase w .returned w' = .busy i → s.phase w' = .busy i := by
    intro w' i h'
    rcases update_eq_cases h' with ⟨-, h'⟩ | ⟨-, h'⟩
    · cases h'
    · exact h'
  exact
    { calls := by rw [hmin]; exact h.calls
      busy := fun w' i h' => hmin.symm ▸ h.busy w' i (hbusy w' i h')
      one := fun w₁ w₂ i h₁ h₂ => h.one w₁ w₂ i (hbusy w₁ i h₁) (hbusy w₂ i h₂)
      held := fun i hi => by
        rw [hmin] at hi
        refine (h.held i hi).imp_left fun ⟨w', h'⟩ => ⟨w', ?_⟩
        have hne : w' ≠ w := fun heq => by
          rw [heq, hw] at h'
          cases h'
        exact (Function.update_of_ne hne _ _).trans h'
      filed := h.filed
      nodup := h.nodup
      called := fun i hi => h.called i (hmin ▸ hi)
      returned := fun _ _ => Nat.le_succ_of_le hn }

/-- A worker calls for the next job. -/
theorem Inv.call (h : Inv n s) {w : W} (hw : s.phase w = .ready) (hn : s.cursor < n) :
    Inv n { s with
      cursor := s.cursor + 1
      phase := Function.update s.phase w (.busy s.cursor)
      calls := s.calls ++ [s.cursor] } := by
  have hmin : min s.cursor n = s.cursor := min_eq_left hn.le
  have hmin' : min (s.cursor + 1) n = s.cursor + 1 := min_eq_left hn
  -- no worker waits for the new number yet
  have hfresh : ∀ w', s.phase w' ≠ .busy s.cursor := fun w' h' => by
    have := (h.busy w' _ h').1
    omega
  exact
    { calls := by rw [hmin', List.range_succ, h.calls, hmin]
      busy := fun w' i h' => by
        change i < min (s.cursor + 1) n ∧ s.results i = none
        rcases update_eq_cases h' with ⟨-, h'⟩ | ⟨-, h'⟩
        · cases h'
          exact ⟨by omega, h.called _ hmin.le⟩
        · obtain ⟨hi, hnone⟩ := h.busy w' i h'
          exact ⟨by omega, hnone⟩
      one := fun w₁ w₂ i h₁ h₂ => by
        rcases update_eq_cases h₁ with ⟨heq₁, hi₁⟩ | ⟨-, hw₁⟩ <;>
          rcases update_eq_cases h₂ with ⟨heq₂, hi₂⟩ | ⟨-, hw₂⟩
        · rw [heq₁, heq₂]
        · exact absurd (hw₂.trans hi₁.symm) (hfresh w₂)
        · exact absurd (hw₁.trans hi₂.symm) (hfresh w₁)
        · exact h.one w₁ w₂ i hw₁ hw₂
      held := fun i hi => by
        change i < min (s.cursor + 1) n at hi
        rcases Nat.lt_or_ge i s.cursor with hlt | hge
        · refine (h.held i (by omega)).imp_left fun ⟨w', h'⟩ => ⟨w', ?_⟩
          have hne : w' ≠ w := fun heq => by
            rw [heq, hw] at h'
            cases h'
          exact (Function.update_of_ne hne _ _).trans h'
        · obtain rfl : i = s.cursor := by omega
          exact .inl ⟨w, Function.update_self _ _ _⟩
      filed := h.filed
      nodup := h.nodup
      called := fun i hi => by
        change min (s.cursor + 1) n ≤ i at hi
        exact h.called i (by omega)
      returned := fun w' h' => by
        rcases update_eq_cases h' with ⟨-, h'⟩ | ⟨-, h'⟩
        · cases h'
        · exact absurd (h.returned w' h') (not_le.mpr hn) }

/-- A call ends. -/
theorem Inv.settle (h : Inv n s) {w : W} {i : ℕ} (hw : s.phase w = .busy i) (r : Outcome) :
    Inv n { s with
      phase := Function.update s.phase w .ready
      results := Function.update s.results i (some r)
      settled := s.settled ++ [(i, r)] } := by
  obtain ⟨hlt, hnone⟩ := h.busy w i hw
  have hnot : i ∉ s.settled.map Prod.fst := fun hmem => by
    obtain ⟨⟨j, r'⟩, hsettled, rfl⟩ := List.mem_map.mp hmem
    exact absurd ((h.filed j r').mpr hsettled) (by simp [hnone])
  have hother : ∀ w' j, Function.update s.phase w .ready w' = .busy j →
      s.phase w' = .busy j ∧ j ≠ i := by
    intro w' j h'
    rcases update_eq_cases h' with ⟨-, h'⟩ | ⟨hne, h'⟩
    · cases h'
    · exact ⟨h', fun heq => hne (h.one w' w i (heq ▸ h') hw)⟩
  exact
    { calls := h.calls
      busy := fun w' j h' => by
        obtain ⟨h', hne⟩ := hother w' j h'
        obtain ⟨hj, hempty⟩ := h.busy w' j h'
        exact ⟨hj, (Function.update_of_ne hne _ _).trans hempty⟩
      one := fun w₁ w₂ j h₁ h₂ => h.one w₁ w₂ j (hother w₁ j h₁).1 (hother w₂ j h₂).1
      held := fun j hj => by
        change _ ∨ Function.update s.results i (some r) j ≠ none
        by_cases hji : j = i
        · refine .inr ?_
          rw [hji, Function.update_self]
          exact Option.some_ne_none r
        · rw [Function.update_of_ne hji]
          refine (h.held j hj).imp_left fun ⟨w', h'⟩ => ⟨w', ?_⟩
          have hne : w' ≠ w := fun heq => by
            rw [heq, hw] at h'
            cases h'
            exact hji rfl
          exact (Function.update_of_ne hne _ _).trans h'
      filed := fun j r' => by
        change Function.update s.results i (some r) j = some r' ↔ (j, r') ∈ s.settled ++ [(i, r)]
        rw [List.mem_append, List.mem_singleton, Prod.mk.injEq]
        by_cases hji : j = i
        · subst hji
          rw [Function.update_self, Option.some.injEq, eq_comm]
          refine ⟨fun heq => .inr ⟨rfl, heq⟩, fun hmem => ?_⟩
          rcases hmem with hmem | hmem
          · exact absurd (List.mem_map_of_mem hmem) hnot
          · exact hmem.2
        · rw [Function.update_of_ne hji, h.filed]
          simp [hji]
      nodup := by
        rw [List.map_append, List.nodup_append]
        refine ⟨h.nodup, List.nodup_singleton i, fun j hj k hk => ?_⟩
        rw [List.mem_singleton.mp hk]
        rintro rfl
        exact hnot hj
      called := fun j hj => by
        change min s.cursor n ≤ j at hj
        change Function.update s.results i (some r) j = none
        rw [Function.update_of_ne (by omega)]
        exact h.called j hj
      returned := fun w' h' => by
        rcases update_eq_cases h' with ⟨-, h'⟩ | ⟨-, h'⟩
        · cases h'
        · exact h.returned w' h' }

theorem Inv.step (h : Inv n s) {l : Label W Outcome} (hs : step n s l = some s') : Inv n s' := by
  obtain ⟨w, rfl, hw, hn, rfl⟩ | ⟨w, rfl, hw, hn, rfl⟩ | ⟨w, r, i, rfl, hw, rfl⟩ := step_cases hs
  · exact h.return hw hn
  · exact h.call hw hn
  · exact h.settle hw r

theorem inv_of_reachable (h : (system W Outcome n).Reachable s) : Inv n s :=
  System.Reachable.invariant (fun _ h0 => h0 ▸ inv_initial) (fun _ _ _ _ hi hs => hi.step hs) h

/-! ### What holds of every run -/

omit [DecidableEq W] in
theorem mem_inFlight_iff (h : Inv n s) {i : ℕ} :
    i ∈ inFlight s ↔ ∃ w, s.phase w = .busy i := by
  have hsettled : i ∈ s.settled.map Prod.fst ↔ s.results i ≠ none := by
    rw [Option.ne_none_iff_exists']
    simp only [h.filed, List.mem_map, Prod.exists, exists_and_right, exists_eq_right]
  unfold inFlight
  rw [List.mem_filter, decide_eq_true_eq, hsettled, not_not, h.calls, List.mem_range]
  constructor
  · rintro ⟨hi, hnone⟩
    exact (h.held i hi).resolve_right fun hne => hne hnone
  · rintro ⟨w, hw⟩
    exact h.busy w i hw

omit [DecidableEq W] in
/-- **No more calls are under way than there are workers.** -/
theorem inFlight_le [Fintype W] (h : Inv n s) : (inFlight s).length ≤ Fintype.card W := by
  have hnodup : (inFlight s).Nodup := by
    refine List.Nodup.filter _ ?_
    rw [h.calls]
    exact List.nodup_range
  have hsub : (inFlight s).toFinset.image Phase.busy ⊆ Finset.univ.image s.phase := by
    intro p hp
    obtain ⟨i, hi, rfl⟩ := Finset.mem_image.mp hp
    obtain ⟨w, hw⟩ := (mem_inFlight_iff h).mp (List.mem_toFinset.mp hi)
    exact Finset.mem_image.mpr ⟨w, Finset.mem_univ w, hw⟩
  calc (inFlight s).length = (inFlight s).toFinset.card := (List.toFinset_card_of_nodup hnodup).symm
    _ = ((inFlight s).toFinset.image Phase.busy).card :=
      (Finset.card_image_of_injective _ fun i j hij => by cases hij; rfl).symm
    _ ≤ (Finset.univ.image s.phase).card := Finset.card_le_card hsub
    _ ≤ Fintype.card W := Finset.card_image_le

omit [DecidableEq W] in
/-- **When all workers have returned**, every job was called for once, and its outcome is
filed. -/
theorem filed_of_returned [Nonempty W] (h : Inv n s) (hs : Returned s) :
    s.calls = List.range n ∧ ∀ i < n, ∃ r, s.results i = some r := by
  have hn : n ≤ s.cursor := h.returned (Classical.arbitrary W) (hs _)
  have hmin : min s.cursor n = n := min_eq_right hn
  refine ⟨by rw [h.calls, hmin], fun i hi => ?_⟩
  rcases h.held i (by omega) with ⟨w, hw⟩ | hfiled
  · rw [hs w] at hw
    cases hw
  · exact Option.ne_none_iff_exists'.mp hfiled

/-- **Until then there is a next step**, whatever a call may end with. -/
theorem enabled_of_not_returned (n : ℕ) (hs : ¬ Returned s) :
    ∃ w, (step n s (.next w)).isSome ∨ ∀ r : Outcome, (step n s (.settle w r)).isSome := by
  obtain ⟨w, hw⟩ := not_forall.mp hs
  refine ⟨w, ?_⟩
  cases hphase : s.phase w with
  | ready =>
    left
    simp only [step, hphase]
    split <;> rfl
  | busy i =>
    right
    intro r
    simp [step, hphase]
  | returned => exact absurd hphase hw

/-- The steps a worker has before it at the most, besides those for new jobs. -/
def Phase.weight : Phase → ℕ
  | .ready => 1
  | .busy _ => 2
  | .returned => 0

/-- The steps that are left at the most. -/
def remaining [Fintype W] (n : ℕ) (s : State W Outcome) : ℕ :=
  2 * (n - s.cursor) + ∑ w, (s.phase w).weight

theorem sum_weight_update [Fintype W] (phase : W → Phase) (w : W) (p : Phase) :
    ∑ w', (Function.update phase w p w').weight + (phase w).weight =
      ∑ w', (phase w').weight + p.weight := by
  have hcomp : (fun w' => (Function.update phase w p w').weight) =
      Function.update (fun w' => (phase w').weight) w p.weight :=
    Function.comp_update Phase.weight phase w p
  rw [hcomp, Finset.sum_update_of_mem (Finset.mem_univ w)]
  have hsplit := Finset.add_sum_erase Finset.univ (fun w' => (phase w').weight) (Finset.mem_univ w)
  rw [← Finset.erase_eq]
  omega

/-- Every step uses one up. -/
theorem remaining_step [Fintype W] {l : Label W Outcome} (hs : step n s l = some s') :
    remaining n s' < remaining n s := by
  unfold remaining
  obtain ⟨w, rfl, hw, hn, rfl⟩ | ⟨w, rfl, hw, hn, rfl⟩ | ⟨w, r, i, rfl, hw, rfl⟩ := step_cases hs
  · have hsum := sum_weight_update s.phase w .returned
    rw [hw, Phase.weight, Phase.weight] at hsum
    dsimp only
    omega
  · have hsum := sum_weight_update s.phase w (.busy s.cursor)
    rw [hw, Phase.weight, Phase.weight] at hsum
    dsimp only
    omega
  · have hsum := sum_weight_update s.phase w .ready
    rw [hw, Phase.weight, Phase.weight] at hsum
    dsimp only
    omega

/-- **Not more than a certain number of steps.** -/
theorem length_exec_le [Fintype W] {ls : List (Label W Outcome)}
    (h : (system W Outcome n).exec s ls = some s') :
    ls.length + remaining n s' ≤ remaining n s := by
  induction ls generalizing s with
  | nil =>
    obtain rfl := Option.some.inj h
    simp
  | cons l ls ih =>
    obtain ⟨s₁, hs₁, hrest⟩ := System.exec_cons_eq_some.mp h
    have hlt := remaining_step hs₁
    have hle := ih hrest
    rw [List.length_cons]
    omega

end WorkerPool
end Framework
