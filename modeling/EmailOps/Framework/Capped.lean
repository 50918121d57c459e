import Mathlib.Data.List.Nodup
import Mathlib.Data.Nat.Notation
import EmailOps.Framework.System

/-!
# Keeping a cap over a rolling window

The abstract machine behind a cap of the kind "at most `cap` actions on a key in any
`window`". A worker reserves its action before the time it takes, and the action is
recorded, with its time, when it is done; a worker may also give its reservation up.

A reservation is granted when the recent records of the key *and the reservations out on
it* are fewer than the cap. A program that counts the records alone is no instance: two
workers that count before either has recorded may both go ahead.

* `Capped.system` is the machine, over any type of keys and of workers.
* `Capped.Inv` is its invariant; `Capped.recent_le` is the result: in no state has a key
  more than `cap` recent records.
-/

namespace Framework
namespace Capped

variable {Key Worker : Type*}

/-- What the machine remembers. -/
structure State (Key Worker : Type*) where
  now : ℕ
  /-- The actions so far: the key and the time of each. -/
  records : List (Key × ℕ)
  /-- The reservations that are out. -/
  reserved : List (Worker × Key)

/-- The steps of the machine. -/
inductive Label (Key Worker : Type*) where
  | tick (passed : ℕ)
  /-- A worker reserves an action on a key. -/
  | reserve (w : Worker) (k : Key)
  /-- The action of a worker is done. -/
  | record (w : Worker) (k : Key)
  /-- A worker gives its reservation up. -/
  | release (w : Worker)

variable [DecidableEq Key] [DecidableEq Worker]

/-- The records of a key within the window. -/
def recent (window : ℕ) (s : State Key Worker) (k : Key) : ℕ :=
  s.records.countP fun r => r.1 = k && s.now < r.2 + window

/-- The reservations out on a key. -/
def out (s : State Key Worker) (k : Key) : ℕ :=
  s.reserved.countP fun r => r.2 = k

/-- The reservations without those of a worker. -/
def without (reserved : List (Worker × Key)) (w : Worker) : List (Worker × Key) :=
  reserved.filter fun r => r.1 ≠ w

/-- One step. -/
def step (cap window : ℕ) (s : State Key Worker) : Label Key Worker → Option (State Key Worker)
  | .tick passed => some { s with now := s.now + passed }
  | .reserve w k =>
    if recent window s k + out s k < cap then some { s with reserved := s.reserved ++ [(w, k)] }
    else none
  | .record w k =>
    if (w, k) ∈ s.reserved then
      some { s with
        records := s.records ++ [(k, s.now)]
        reserved := without s.reserved w }
    else none
  | .release w => some { s with reserved := without s.reserved w }

/-- The machine. Initially nothing was done, and nothing is reserved. -/
def system (cap window : ℕ) : System (State Key Worker) (Label Key Worker) where
  init s := s.records = [] ∧ s.reserved = []
  step := step cap window

variable {cap window : ℕ} {s s' : State Key Worker}

/-- **The invariant.** What was done lately and what is reserved stay within the cap
together. -/
def Inv (cap window : ℕ) (s : State Key Worker) : Prop :=
  ∀ k, recent window s k + out s k ≤ cap

omit [DecidableEq Worker] in
theorem Inv.initial (h : s.records = [] ∧ s.reserved = []) : Inv cap window s := by
  intro k
  unfold recent out
  rw [h.1, h.2]
  exact Nat.zero_le cap

omit [DecidableEq Worker] in
/-- Records only leave the window as time goes by. -/
theorem recent_tick_le (s : State Key Worker) (passed : ℕ) (k : Key) :
    recent window { s with now := s.now + passed } k ≤ recent window s k := by
  refine List.countP_mono_left fun r _ hr => ?_
  simp only [Bool.and_eq_true, decide_eq_true_eq] at hr ⊢
  exact ⟨hr.1, by omega⟩

/-- Giving reservations up leaves fewer out. -/
theorem out_without_le (s : State Key Worker) (w : Worker) (k : Key) :
    out { s with reserved := without s.reserved w } k ≤ out s k :=
  List.filter_sublist.countP_le

/-- A worker that gives up a reservation on a key leaves one less out, at least. -/
theorem out_without_lt (s : State Key Worker) {w : Worker} {k : Key} (h : (w, k) ∈ s.reserved) :
    out { s with reserved := without s.reserved w } k < out s k := by
  unfold out without
  rw [List.countP_filter]
  obtain ⟨before, after, hsplit⟩ := List.append_of_mem h
  rw [hsplit, List.countP_append, List.countP_append, List.countP_cons, List.countP_cons]
  -- The reservation itself counts for the key, and is one of the worker's.
  have hbefore := List.countP_mono_left (l := before) (p := fun r => decide (r.2 = k) && decide (r.1 ≠ w))
    (q := fun r => decide (r.2 = k)) fun r _ hr => (Bool.and_eq_true_iff.mp hr).1
  have hafter := List.countP_mono_left (l := after) (p := fun r => decide (r.2 = k) && decide (r.1 ≠ w))
    (q := fun r => decide (r.2 = k)) fun r _ hr => (Bool.and_eq_true_iff.mp hr).1
  simp only [ne_eq, not_true_eq_false, decide_false, Bool.and_false, Bool.false_eq_true, if_false,
    decide_true, if_true]
  simp only [ne_eq] at hbefore hafter
  omega

/-- **Every step keeps it.** -/
theorem Inv.step {l : Label Key Worker} (h : Inv cap window s)
    (hs : (system cap window).step s l = some s') : Inv cap window s' := by
  change Capped.step cap window s l = some s' at hs
  intro k
  cases l with
  | tick passed =>
    obtain rfl := Option.some.inj hs
    have hold := h k
    have hfewer : recent window { s with now := s.now + passed } k ≤ recent window s k :=
      recent_tick_le s passed k
    change recent window { s with now := s.now + passed } k + out s k ≤ cap
    omega
  | reserve w k' =>
    simp only [Capped.step] at hs
    split at hs
    · next hroom =>
      obtain rfl := Option.some.inj hs
      change recent window s k + (s.reserved ++ [(w, k')]).countP (fun r => r.2 = k) ≤ cap
      rw [List.countP_append, List.countP_singleton]
      change recent window s k + (out s k + _) ≤ cap
      by_cases hk : k' = k
      · -- There was room for one more.
        subst hk
        simp only [decide_true, if_true]
        omega
      · have hold := h k
        simp only [hk, decide_false, Bool.false_eq_true, if_false]
        omega
    · cases hs
  | record w k' =>
    simp only [Capped.step] at hs
    split at hs
    · next hreserved =>
      obtain rfl := Option.some.inj hs
      have hold := h k
      change (s.records ++ [(k', s.now)]).countP (fun r => r.1 = k && s.now < r.2 + window) +
        out { s with reserved := without s.reserved w } k ≤ cap
      rw [List.countP_append, List.countP_singleton]
      change recent window s k + _ + _ ≤ cap
      by_cases hk : k' = k
      · -- The reservation becomes the record.
        subst hk
        have hless := out_without_lt s hreserved
        split
        · omega
        · omega
      · have hfewer := out_without_le s w k
        simp only [hk, decide_false, Bool.false_and, Bool.false_eq_true, if_false]
        omega
    · cases hs
  | release w =>
    obtain rfl := Option.some.inj hs
    have hold := h k
    have hfewer := out_without_le s w k
    change recent window s k + out { s with reserved := without s.reserved w } k ≤ cap
    omega

theorem inv_of_reachable (h : (system cap window).Reachable s) : Inv cap window s :=
  h.invariant (P := Inv cap window) (fun _ h0 => Inv.initial h0) fun _ _ _ _ hinv hs => hinv.step hs

/-- **The cap is kept.** In no run has a key more than `cap` records within the window. -/
theorem recent_le (h : (system cap window).Reachable s) (k : Key) : recent window s k ≤ cap :=
  Nat.le_trans (Nat.le_add_right _ _) (inv_of_reachable h k)

end Capped
end Framework
