import Mathlib.Data.List.Basic

/-!
# Two runs of one list of operations

A machine takes an operation to its next state and an output, so that a list of
operations yields a list of outputs from any state. A claim about *two* runs compares what
an observer sees of the outputs of one list of operations from two states.

* `outputs` is the run, and `Along` says that a condition holds at each of its steps.
* `outputs_invariant` is the rule for one run.
* `view_eq_iff` is the rule for two runs, by unwinding. A relation of the two states is
  kept by a step that meets the condition, and the observer sees no difference; at a step
  that does not meet it, the observer does. Then the two runs look the same to the observer
  if and only if the condition holds along one of them.

The relation may speak of the operations still to come, as a claim about fresh names must.
-/

namespace Framework
namespace TwoRuns

variable {State Op Out View : Type*} (step : State → Op → State × Out)

/-- The outputs of a list of operations. -/
def outputs : State → List Op → List Out
  | _, [] => []
  | s, op :: ops => (step s op).2 :: outputs (step s op).1 ops

/-- The condition holds at each step of the run. -/
def Along (C : State → Op → Prop) : State → List Op → Prop
  | _, [] => True
  | s, op :: ops => C s op ∧ Along C (step s op).1 ops

instance Along.decidable {C : State → Op → Prop} [h : ∀ s op, Decidable (C s op)] :
    ∀ s ops, Decidable (Along step C s ops)
  | _, [] => isTrue trivial
  | s, op :: ops => @instDecidableAnd _ _ _ (Along.decidable (step s op).1 ops)

variable {step}

/-- **The rule for one run.** What each step from a state of the invariant outputs, the
whole run outputs. -/
theorem outputs_invariant {I : State → Prop} {P : Out → Prop}
    (hstep : ∀ s op, I s → I (step s op).1 ∧ P (step s op).2) {s : State} (h : I s)
    {ops : List Op} : ∀ out ∈ outputs step s ops, P out := by
  induction ops generalizing s with
  | nil => exact fun _ hout => absurd hout List.not_mem_nil
  | cons op ops ih =>
    obtain ⟨hnext, hout⟩ := hstep s op h
    intro out hmem
    rcases List.mem_cons.mp hmem with rfl | hmem
    · exact hout
    · exact ih hnext out hmem

/-- **The rule for two runs.** They look the same if and only if the condition holds at
each step of the second. -/
theorem view_eq_iff {view : Out → View} {C : State → Op → Prop}
    {R : List Op → State → State → Prop}
    (hsame : ∀ {op ops s t}, R (op :: ops) s t → C t op →
      R ops (step s op).1 (step t op).1 ∧ view (step s op).2 = view (step t op).2)
    (hdiffers : ∀ {op ops s t}, R (op :: ops) s t → ¬C t op →
      view (step s op).2 ≠ view (step t op).2)
    {ops : List Op} {s t : State} (h : R ops s t) :
    (outputs step s ops).map view = (outputs step t ops).map view ↔ Along step C t ops := by
  induction ops generalizing s t with
  | nil => exact iff_of_true rfl trivial
  | cons op ops ih =>
    simp only [outputs, Along, List.map_cons, List.cons.injEq]
    by_cases hC : C t op
    · -- The step is unseen, and the rest of the runs starts from related states.
      obtain ⟨hnext, hview⟩ := hsame h hC
      have hrest := ih hnext
      simp only [hview, hC, true_and, hrest]
    · -- The observer tells the runs apart at this step.
      have hview := hdiffers h hC
      simp only [hview, hC, false_and]

end TwoRuns
end Framework
