import Mathlib.Data.Nat.Notation
import Mathlib.Logic.Function.Basic
import EmailOps.Framework.System

/-!
# Tasks that are claimed before they are done

The abstract machine behind a queue of tasks that several workers decide on. A task is posted
open. A worker claims it, acts on it, and marks it done or failed; or it is refused. Claim and
refusal ask in one step that the task is open, and a worker may leave at any time.

* `Claims.system` is the machine, over any type of tasks and of workers.
* `Claims.Inv` is the invariant, and `Claims.inv_of_reachable` the result: no task is acted on
  twice, one that is refused is not acted on, and whoever marks a task has claimed it.
-/

namespace Framework
namespace Claims

variable {Task Worker : Type*}

inductive Status where
  | pending | claimed | refused | done | failed
  deriving DecidableEq, Repr

/-- What the machine remembers. -/
structure State (Task Worker : Type*) where
  status : Task → Option Status
  /-- The task that a worker has claimed, and whether it has acted on it. -/
  holder : Worker → Option (Task × Bool)
  /-- How often a task was acted on. -/
  acted : Task → ℕ

inductive Label (Task Worker : Type*) where
  | post (t : Task)
  | claim (w : Worker) (t : Task)
  | refuse (t : Task)
  | act (w : Worker)
  /-- A worker marks its task. -/
  | finish (w : Worker) (ok : Bool)
  | leave (w : Worker)

variable [DecidableEq Task] [DecidableEq Worker]

/-- One step. -/
def step (s : State Task Worker) : Label Task Worker → Option (State Task Worker)
  | .post t =>
    if s.status t = none then
      some { s with status := Function.update s.status t (some .pending) }
    else none
  | .claim w t =>
    if s.status t = some .pending then
      some { s with
        status := Function.update s.status t (some .claimed)
        holder := Function.update s.holder w (some (t, false)) }
    else none
  | .refuse t =>
    if s.status t = some .pending then
      some { s with status := Function.update s.status t (some .refused) }
    else none
  | .act w =>
    match s.holder w with
    | some (t, false) =>
      some { s with
        holder := Function.update s.holder w (some (t, true))
        acted := Function.update s.acted t (s.acted t + 1) }
    | _ => none
  | .finish w ok =>
    match s.holder w with
    | some (t, _) =>
      some { s with
        status := Function.update s.status t (some (if ok then .done else .failed))
        holder := Function.update s.holder w none }
    | none => none
  | .leave w => some { s with holder := Function.update s.holder w none }

/-- The machine. Initially there is no task. -/
def system : System (State Task Worker) (Label Task Worker) where
  init s := (∀ t, s.status t = none) ∧ (∀ w, s.holder w = none) ∧ ∀ t, s.acted t = 0
  step := step

/-- **The invariant.** A held task is claimed and has one holder, who has not acted on it
unless it says so; a task that nobody has claimed was not acted on. -/
structure Inv (s : State Task Worker) : Prop where
  held : ∀ {w t b}, s.holder w = some (t, b) → s.status t = some .claimed
  holder_unique : ∀ {v w t b b'}, s.holder v = some (t, b) → s.holder w = some (t, b') → v = w
  fresh : ∀ {w t}, s.holder w = some (t, false) → s.acted t = 0
  unclaimed : ∀ {t}, s.status t = none ∨ s.status t = some .pending ∨ s.status t = some .refused →
    s.acted t = 0
  acted_le_one : ∀ t, s.acted t ≤ 1

variable {s s' : State Task Worker} {l : Label Task Worker} {t : Task} {w : Worker}

theorem Inv.initial (h : system.init s) : Inv s where
  held hw := by rw [h.2.1] at hw; cases hw
  holder_unique hv := by rw [h.2.1] at hv; cases hv
  fresh hw := by rw [h.2.1] at hw; cases hw
  unclaimed _ := h.2.2 _
  acted_le_one t := by
    rw [h.2.2]
    exact Nat.zero_le 1

omit [DecidableEq Task] [DecidableEq Worker] in
/-- Nobody holds a task that is not claimed. -/
theorem Inv.holder_ne (h : Inv s) {v : Worker} {b : Bool} (ht : s.status t ≠ some .claimed) :
    s.holder v ≠ some (t, b) :=
  fun hv => ht (h.held hv)

omit [DecidableEq Worker] in
/-- A task that nobody holds is given a status, by which it was acted on only if it was. -/
theorem Inv.setStatus (h : Inv s) {st : Status} (ht : ∀ v b, s.holder v ≠ some (t, b))
    (hst : st = .pending ∨ st = .refused → s.acted t = 0) :
    Inv { s with status := Function.update s.status t (some st) } where
  held {v u b} hv := by
    have hne : u ≠ t := fun heq => ht v b (heq ▸ hv)
    change Function.update s.status t (some st) u = some .claimed
    rw [Function.update_of_ne hne]
    exact h.held hv
  holder_unique := h.holder_unique
  fresh := h.fresh
  unclaimed {u} hu := by
    by_cases hut : u = t
    · subst hut
      simp only [Function.update_self, reduceCtorEq, Option.some.injEq, false_or] at hu
      exact hst hu
    · simp only [Function.update_of_ne hut] at hu
      exact h.unclaimed hu
  acted_le_one := h.acted_le_one

omit [DecidableEq Task] in
/-- What a worker holds that has left was held before. -/
theorem holder_of_leave {v : Worker} {o : Task × Bool}
    (hv : Function.update s.holder w none v = some o) : v ≠ w ∧ s.holder v = some o := by
  by_cases hvw : v = w
  · subst hvw
    simp at hv
  · rw [Function.update_of_ne hvw] at hv
    exact ⟨hvw, hv⟩

omit [DecidableEq Task] in
theorem Inv.leave (h : Inv s) : Inv { s with holder := Function.update s.holder w none } where
  held hv := h.held (holder_of_leave hv).2
  holder_unique hv hu := h.holder_unique (holder_of_leave hv).2 (holder_of_leave hu).2
  fresh hv := h.fresh (holder_of_leave hv).2
  unclaimed := h.unclaimed
  acted_le_one := h.acted_le_one

omit [DecidableEq Task] in
/-- After a worker takes a task that no other holds, what is held is that, or was held before. -/
theorem holder_of_take {b : Bool} (hnot : ∀ {v b'}, v ≠ w → s.holder v ≠ some (t, b')) {v : Worker}
    {u : Task} {b' : Bool} (hv : Function.update s.holder w (some (t, b)) v = some (u, b')) :
    (v = w ∧ u = t ∧ b' = b) ∨ (v ≠ w ∧ u ≠ t ∧ s.holder v = some (u, b')) := by
  by_cases hvw : v = w
  · subst hvw
    simp only [Function.update_self, Option.some.injEq, Prod.mk.injEq] at hv
    exact .inl ⟨rfl, hv.1.symm, hv.2.symm⟩
  · rw [Function.update_of_ne hvw] at hv
    exact .inr ⟨hvw, fun heq => hnot hvw (heq ▸ hv), hv⟩

omit [DecidableEq Task] [DecidableEq Worker] in
theorem Inv.unique_of_take (h : Inv s) {b : Bool} {holder : Worker → Option (Task × Bool)}
    (hold : ∀ {v u b'}, holder v = some (u, b') →
      (v = w ∧ u = t ∧ b' = b) ∨ (v ≠ w ∧ u ≠ t ∧ s.holder v = some (u, b')))
    {v v' : Worker} {u : Task} {b₁ b₂ : Bool} (hv : holder v = some (u, b₁))
    (hv' : holder v' = some (u, b₂)) : v = v' := by
  rcases hold hv with ⟨rfl, rfl, -⟩ | ⟨-, hne, hv⟩
  · rcases hold hv' with ⟨rfl, -, -⟩ | ⟨-, hne, -⟩
    · rfl
    · exact absurd rfl hne
  · rcases hold hv' with ⟨-, rfl, -⟩ | ⟨-, -, hv'⟩
    · exact absurd rfl hne
    · exact h.holder_unique hv hv'

/-- A worker that marks its task leaves it. -/
theorem Inv.finish (h : Inv s) {b : Bool} {st : Status} (hw : s.holder w = some (t, b))
    (hst : st = .done ∨ st = .failed) :
    Inv { s with
      status := Function.update s.status t (some st)
      holder := Function.update s.holder w none } := by
  refine h.leave.setStatus ?_ ?_
  · intro v b' hv
    obtain ⟨hne, hv⟩ := holder_of_leave hv
    exact hne (h.holder_unique hv hw)
  · rintro (rfl | rfl) <;> simp at hst

theorem Inv.claim (h : Inv s) (ht : s.status t = some .pending) :
    Inv { s with
      status := Function.update s.status t (some .claimed)
      holder := Function.update s.holder w (some (t, false)) } := by
  have hnot : ∀ {v b}, s.holder v ≠ some (t, b) := h.holder_ne (by simp [ht])
  have hold : ∀ {v u b}, Function.update s.holder w (some (t, false)) v = some (u, b) →
      (v = w ∧ u = t ∧ b = false) ∨ (v ≠ w ∧ u ≠ t ∧ s.holder v = some (u, b)) :=
    holder_of_take fun _ => hnot
  constructor
  · intro v u b hv
    rcases hold hv with ⟨-, rfl, -⟩ | ⟨-, hne, hv⟩
    · simp
    · simp only [Function.update_of_ne hne]
      exact h.held hv
  · exact fun hv hv' => h.unique_of_take hold hv hv'
  · intro v u hv
    rcases hold hv with ⟨-, rfl, -⟩ | ⟨-, -, hv⟩
    · exact h.unclaimed (.inr (.inl ht))
    · exact h.fresh hv
  · intro u hu
    by_cases hut : u = t
    · subst hut
      simp at hu
    · simp only [Function.update_of_ne hut] at hu
      exact h.unclaimed hu
  · exact h.acted_le_one

theorem Inv.act (h : Inv s) (hw : s.holder w = some (t, false)) :
    Inv { s with
      holder := Function.update s.holder w (some (t, true))
      acted := Function.update s.acted t (s.acted t + 1) } := by
  have hold : ∀ {v u b}, Function.update s.holder w (some (t, true)) v = some (u, b) →
      (v = w ∧ u = t ∧ b = true) ∨ (v ≠ w ∧ u ≠ t ∧ s.holder v = some (u, b)) :=
    holder_of_take fun hne hv => hne (h.holder_unique hv hw)
  constructor
  · intro v u b hv
    rcases hold hv with ⟨-, rfl, -⟩ | ⟨-, -, hv⟩
    · exact h.held hw
    · exact h.held hv
  · exact fun hv hv' => h.unique_of_take hold hv hv'
  · intro v u hv
    rcases hold hv with ⟨-, -, hb⟩ | ⟨-, hne, hv⟩
    · cases hb
    · simp only [Function.update_of_ne hne]
      exact h.fresh hv
  · intro u hu
    -- The task that is acted on is claimed.
    have hne : u ≠ t := by
      rintro rfl
      simp [h.held hw] at hu
    simp only [Function.update_of_ne hne]
    exact h.unclaimed hu
  · intro u
    by_cases hut : u = t
    · subst hut
      simp [h.fresh hw]
    · simp only [Function.update_of_ne hut]
      exact h.acted_le_one u

/-- Every step keeps the invariant. -/
theorem Inv.step (h : Inv s) (hs : system.step s l = some s') : Inv s' := by
  change Claims.step s l = some s' at hs
  cases l with
  | post t =>
    simp only [Claims.step] at hs
    split at hs
    · next ht =>
      cases hs
      refine h.setStatus (fun _ _ => h.holder_ne (by simp [ht])) fun _ => h.unclaimed (.inl ht)
    · cases hs
  | claim w t =>
    simp only [Claims.step] at hs
    split at hs
    · next ht =>
      cases hs
      exact h.claim ht
    · cases hs
  | refuse t =>
    simp only [Claims.step] at hs
    split at hs
    · next ht =>
      cases hs
      refine h.setStatus (fun _ _ => h.holder_ne (by simp [ht])) fun _ => ?_
      exact h.unclaimed (.inr (.inl ht))
    · cases hs
  | act w =>
    simp only [Claims.step] at hs
    split at hs
    · next t hw =>
      cases hs
      exact h.act hw
    · cases hs
  | finish w ok =>
    simp only [Claims.step] at hs
    split at hs
    · next t b hw =>
      cases hs
      exact h.finish hw (by cases ok <;> simp)
    · cases hs
  | leave w =>
    cases hs
    exact h.leave

/-- The invariant holds in every reachable state. -/
theorem inv_of_reachable (h : system.Reachable s) : Inv s :=
  h.invariant (fun _ => Inv.initial) fun _ _ _ _ hi hs => hi.step hs

end Claims
end Framework
