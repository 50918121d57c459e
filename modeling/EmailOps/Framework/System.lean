import Mathlib.Logic.Function.Basic

/-!
# Transition systems with an executable step

A program that talks to a database and to remote services is a transition
system: its states are what is stored and what every running call has in hand,
and its labels are the atomic steps, so that a run is one interleaving. The step
is a partial *function* of state and label, so a run is determined by its list
of labels and can be computed.

* `System.ReachableUnder` collects the states of the runs whose steps all meet a
  condition on the state before the step; `System.Reachable` is the case of no
  condition. `System.ReachableUnder.invariant` is the induction rule for both.
* `System.exec` runs a list of labels; `System.execUnder` also checks the
  condition, and stops where it fails. `System.execUnder_reachable` places the
  result of a run among the reachable states, `System.exec_invariant` is the rule for what every
  step keeps, `System.exec_trace` that for a run and its labels, `System.exec_iff_execUnder` is the rule
  for a condition without which a run does not end well, and `System.always_iff_along`
  that for one without which it is not always well.
* `Simulation` is a map of states under which every step of one system is a
  step of another or a stutter; `Simulation.reachable` carries reachability
  along it, so that invariants of the abstract system transfer.
-/

namespace Framework

/-- A labelled transition system with a partial step function. `step s l` is
`none` when the step `l` is not enabled in `s`. -/
structure System (State Label : Type*) where
  /-- The states a run may start in. -/
  init : State → Prop
  /-- One atomic step. -/
  step : State → Label → Option State

namespace System

variable {State Label : Type*}

/-- The states reached by runs each of whose steps `l`, taken in state `s`,
meets the condition `C s l`. -/
inductive ReachableUnder (S : System State Label) (C : State → Label → Prop) : State → Prop
  /-- A run of no steps. -/
  | init {s : State} : S.init s → ReachableUnder S C s
  /-- A run extended by one step that meets the condition. -/
  | step {s s' : State} {l : Label} :
      ReachableUnder S C s → C s l → S.step s l = some s' → ReachableUnder S C s'

/-- The states reached by any run. -/
def Reachable (S : System State Label) : State → Prop :=
  S.ReachableUnder fun _ _ => True

/-- Run a list of labels, checking the condition at each step: `none` when some
step is not enabled or does not meet it. -/
def execUnder (S : System State Label) (C : State → Label → Prop)
    [∀ s l, Decidable (C s l)] : State → List Label → Option State
  | s, [] => some s
  | s, l :: ls =>
    if C s l then
      match S.step s l with
      | some s' => S.execUnder C s' ls
      | none => none
    else none

/-- Run a list of labels: `none` when some step is not enabled. -/
def exec (S : System State Label) : State → List Label → Option State :=
  S.execUnder fun _ _ => True

variable {S : System State Label} {C D : State → Label → Prop}

/-- **Invariant rule.** What holds initially and is kept by every admitted step
from a reachable state holds of every reachable state. -/
theorem ReachableUnder.invariant {P : State → Prop} (hinit : ∀ s, S.init s → P s)
    (hstep : ∀ s l s', S.ReachableUnder C s → P s → C s l → S.step s l = some s' → P s')
    {s : State} (h : S.ReachableUnder C s) : P s := by
  induction h with
  | init h0 => exact hinit _ h0
  | step hr hc hs ih => exact hstep _ _ _ hr ih hc hs

/-- A weaker condition admits more runs. -/
theorem ReachableUnder.mono (hCD : ∀ s l, C s l → D s l) {s : State}
    (h : S.ReachableUnder C s) : S.ReachableUnder D s :=
  h.invariant (fun _ h0 => .init h0)
    (fun s l _ _ ih hc hs => .step ih (hCD s l hc) hs)

/-- One more step, whose result is computed. -/
theorem ReachableUnder.next {s : State} (h : S.ReachableUnder C s) (l : Label) (hc : C s l)
    (hs : (S.step s l).isSome = true) : S.ReachableUnder C ((S.step s l).get hs) :=
  .step h hc (Option.some_get hs).symm

/-- A run that meets a condition is a run. -/
theorem ReachableUnder.reachable {s : State} (h : S.ReachableUnder C s) : S.Reachable s :=
  h.mono fun _ _ _ => trivial

theorem Reachable.init {s : State} (h : S.init s) : S.Reachable s :=
  ReachableUnder.init h

theorem Reachable.step {s s' : State} {l : Label} (h : S.Reachable s)
    (hs : S.step s l = some s') : S.Reachable s' :=
  ReachableUnder.step h trivial hs

/-- The invariant rule for unconditioned runs. -/
theorem Reachable.invariant {P : State → Prop} (hinit : ∀ s, S.init s → P s)
    (hstep : ∀ s l s', S.Reachable s → P s → S.step s l = some s' → P s')
    {s : State} (h : S.Reachable s) : P s :=
  ReachableUnder.invariant hinit (fun s l s' hr hp _ hs => hstep s l s' hr hp hs) h

/-- Running a label and then the others. -/
theorem exec_cons {s s' : State} {l : Label} {ls : List Label} (h : S.step s l = some s') :
    S.exec s (l :: ls) = S.exec s' ls := by
  unfold exec
  rw [execUnder, if_pos trivial, h]

/-- A run is its first step and the rest of it. -/
theorem exec_cons_eq_some {s s' : State} {l : Label} {ls : List Label} :
    S.exec s (l :: ls) = some s' ↔ ∃ s₁, S.step s l = some s₁ ∧ S.exec s₁ ls = some s' := by
  cases h : S.step s l with
  | none => simp [exec, execUnder, h]
  | some s₁ => simp [exec_cons h]

/-- **Run rule.** What every step keeps, a run keeps. -/
theorem exec_invariant {P : State → Prop}
    (hstep : ∀ s l s', P s → S.step s l = some s' → P s') {s s' : State} {ls : List Label}
    (hs : P s) (h : S.exec s ls = some s') : P s' := by
  induction ls generalizing s with
  | nil =>
    obtain rfl := Option.some.inj h
    exact hs
  | cons l ls ih =>
    obtain ⟨s₁, hs₁, hrest⟩ := exec_cons_eq_some.mp h
    exact ih (hstep s l s₁ hs hs₁) hrest

/-- **Trace rule.** What holds at first, of no labels, and is carried on by every step, holds of a
run and its labels. -/
theorem exec_trace {P : List Label → State → Prop} {s s' : State} {ls : List Label}
    (hinit : P [] s)
    (hstep : ∀ ls l s s', P ls s → S.step s l = some s' → P (ls ++ [l]) s')
    (h : S.exec s ls = some s') : P ls s' := by
  have hrest : ∀ ls done s, P done s → S.exec s ls = some s' → P (done ++ ls) s' := by
    intro ls
    induction ls with
    | nil =>
      intro done s hs h
      obtain rfl := Option.some.inj h
      rwa [List.append_nil]
    | cons l ls ih =>
      intro done s hs h
      obtain ⟨s₁, hs₁, h⟩ := exec_cons_eq_some.mp h
      rw [List.append_cons]
      exact ih _ s₁ (hstep done l s s₁ hs hs₁) h
  exact hrest ls [] s hinit h

/-- Executing a list of labels stays within the reachable states. -/
theorem execUnder_reachable [∀ s l, Decidable (C s l)] {s s' : State} {ls : List Label}
    (hs : S.ReachableUnder C s) (h : S.execUnder C s ls = some s') :
    S.ReachableUnder C s' := by
  induction ls generalizing s with
  | nil =>
    simp only [execUnder, Option.some.injEq] at h
    exact h ▸ hs
  | cons l ls ih =>
    unfold execUnder at h
    split at h
    · rename_i hc
      split at h
      · rename_i s₁ hs₁
        exact ih (.step hs hc hs₁) h
      · cases h
    · cases h

/-- A run from an initial state ends in a reachable state. -/
theorem exec_reachable {s s' : State} {ls : List Label} (hs : S.init s)
    (h : S.exec s ls = some s') : S.Reachable s' :=
  execUnder_reachable (Reachable.init hs) h

/-- Labels that meet the condition in any state can be executed without checking it. -/
theorem ReachableUnder.exec {s s' : State} {ls : List Label} (hs : S.ReachableUnder C s)
    (hC : ∀ l ∈ ls, ∀ s, C s l) (h : S.exec s ls = some s') : S.ReachableUnder C s' := by
  induction ls generalizing s with
  | nil =>
    obtain rfl := Option.some.inj h
    exact hs
  | cons l ls ih =>
    unfold System.exec execUnder at h
    rw [if_pos trivial] at h
    split at h
    · next s₁ hs₁ =>
      refine ih (.step hs (hC l List.mem_cons_self s) hs₁) ?_ h
      exact fun l' hl' => hC l' (List.mem_cons_of_mem l hl')
    · cases h

/-- **The rule for a condition that is exact.** A step from a state of the invariant that
meets the condition keeps the invariant, and one that does not ends in a state that no step
mends. Then a run ends well if and only if each of its steps meets the condition. -/
theorem exec_iff_execUnder [∀ s l, Decidable (C s l)] {P : State → Prop} (Inv Bad : State → Prop)
    (hkeeps : ∀ s l s', Inv s → C s l → S.step s l = some s' → Inv s')
    (hbreaks : ∀ s l s', Inv s → ¬C s l → S.step s l = some s' → Bad s')
    (hstays : ∀ s l s', Bad s → S.step s l = some s' → Bad s')
    (hgood : ∀ s, Inv s → P s) (hbad : ∀ s, Bad s → ¬P s) {s s' : State} {ls : List Label}
    (h : Inv s) (hrun : S.exec s ls = some s') : P s' ↔ S.execUnder C s ls = some s' := by
  have hlost : ∀ ls s, Bad s → S.exec s ls = some s' → Bad s' := by
    intro ls
    induction ls with
    | nil =>
      intro s hs hrun
      obtain rfl := Option.some.inj hrun
      exact hs
    | cons l ls ih =>
      intro s hs hrun
      obtain ⟨s₁, hs₁, hrest⟩ := exec_cons_eq_some.mp hrun
      exact ih s₁ (hstays s l s₁ hs hs₁) hrest
  induction ls generalizing s with
  | nil =>
    obtain rfl := Option.some.inj hrun
    exact iff_of_true (hgood s h) rfl
  | cons l ls ih =>
    obtain ⟨s₁, hs₁, hrest⟩ := exec_cons_eq_some.mp hrun
    by_cases hc : C s l
    · rw [execUnder, if_pos hc, hs₁]
      exact ih (hkeeps s l s₁ h hc hs₁) hrest
    · -- The run is lost with this step.
      rw [execUnder, if_neg hc]
      have hend := hlost ls s₁ (hbreaks s l s₁ h hc hs₁) hrest
      exact iff_of_false (hbad s' hend) nofun

/-- The predicate holds in each state along a run. -/
def Always (S : System State Label) (P : State → Prop) : State → List Label → Prop
  | s, [] => P s
  | s, l :: ls => P s ∧ ∀ s', S.step s l = some s' → S.Always P s' ls

/-- Each step along a run meets the condition. -/
def Along (S : System State Label) (C : State → Label → Prop) : State → List Label → Prop
  | _, [] => True
  | s, l :: ls => C s l ∧ ∀ s', S.step s l = some s' → S.Along C s' ls

/-- A condition that can be checked is checked along a run. -/
theorem along_iff_execUnder [∀ s l, Decidable (C s l)] {s s' : State} {ls : List Label}
    (hrun : S.exec s ls = some s') : S.Along C s ls ↔ S.execUnder C s ls = some s' := by
  induction ls generalizing s with
  | nil => exact iff_of_true trivial hrun
  | cons l ls ih =>
    obtain ⟨s₁, hs₁, hrest⟩ := exec_cons_eq_some.mp hrun
    rw [Along, execUnder]
    by_cases hc : C s l
    · rw [if_pos hc, hs₁]
      simp only [hc, true_and, Option.some.injEq, forall_eq']
      exact ih hrest
    · rw [if_neg hc]
      exact iff_of_false (fun h => hc h.1) nofun

/-- **The rule for a condition that is exact at each step.** A step from a good state that
meets the condition ends in a good one, and one that does not ends in a bad one. Then the
states of a run are all good if and only if its steps all meet the condition. -/
theorem always_iff_along {P : State → Prop} (Inv : State → Prop) (hgood : ∀ s, Inv s → P s)
    (hkeeps : ∀ s l s', Inv s → C s l → S.step s l = some s' → Inv s')
    (hbreaks : ∀ s l s', Inv s → ¬C s l → S.step s l = some s' → ¬P s') {s s' : State}
    {ls : List Label} (h : Inv s) (hrun : S.exec s ls = some s') :
    S.Always P s ls ↔ S.Along C s ls := by
  induction ls generalizing s with
  | nil => exact iff_of_true (hgood s h) trivial
  | cons l ls ih =>
    obtain ⟨s₁, hs₁, hrest⟩ := exec_cons_eq_some.mp hrun
    rw [Always, Along]
    simp only [hs₁, Option.some.injEq, forall_eq', hgood s h, true_and]
    by_cases hc : C s l
    · simp only [hc, true_and]
      exact ih (hkeeps s l s₁ h hc hs₁) hrest
    · have hbad := hbreaks s l s₁ h hc hs₁
      refine iff_of_false (fun hall => hbad ?_) fun halong => hc halong.1
      cases ls with
      | nil => exact hall
      | cons l' ls => exact hall.1

end System

/-! ### One party of many

Where a state has one component for each party, a step of one party replaces its component.
The rules below say of a component of the state after what one of the state before is
known to say. -/

section Party

variable {ι α : Type*} [DecidableEq ι] {f : ι → α} {i j : ι} {a b : α}

/-- What a component of the state after says, the new one does, or another party's that stays. -/
theorem update_cases (p : α → Prop) (h : p (Function.update f i a j)) :
    j = i ∧ p a ∨ j ≠ i ∧ p (f j) := by
  by_cases hj : j = i
  · subst hj
    rw [Function.update_self] at h
    exact .inl ⟨rfl, h⟩
  · rw [Function.update_of_ne hj] at h
    exact .inr ⟨hj, h⟩

/-- A component of the state after is the new one, or another party's that stays. -/
theorem update_eq_cases (h : Function.update f i a j = b) : j = i ∧ a = b ∨ j ≠ i ∧ f j = b :=
  update_cases (· = b) h

/-- What every component says, and the new one, every component of the state after says. -/
theorem forall_update {p : α → Prop} (ha : p a) (h : ∀ j, p (f j)) (j : ι) :
    p (Function.update f i a j) :=
  (Function.forall_update_iff f fun _ => p).mpr ⟨ha, fun k _ => h k⟩ j

end Party

variable {State Label State' Label' : Type*}

/-- A functional simulation of `S` by `T`: initial states map to initial states,
and every step from a reachable state maps to one step of `T` or to none. -/
structure Simulation (S : System State Label) (T : System State' Label') where
  /-- What `T` sees of a state of `S`. -/
  map : State → State'
  init : ∀ s, S.init s → T.init (map s)
  step : ∀ s l s', S.Reachable s → S.step s l = some s' →
    map s' = map s ∨ ∃ k, T.step (map s) k = some (map s')

/-- Reachability is carried along a simulation. -/
theorem Simulation.reachable {S : System State Label} {T : System State' Label'}
    (sim : Simulation S T) {s : State} (h : S.Reachable s) : T.Reachable (sim.map s) := by
  refine System.Reachable.invariant (P := fun s => T.Reachable (sim.map s)) ?_ ?_ h
  · exact fun s h0 => System.Reachable.init (sim.init s h0)
  · intro s l s' hr ih hs
    rcases sim.step s l s' hr hs with heq | ⟨k, hk⟩
    · rw [heq]
      exact ih
    · exact ih.step hk

end Framework
