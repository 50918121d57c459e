import Mathlib.Data.Nat.Notation
import EmailOps.Framework.System

/-!
# Spending a key at most once

The abstract machine behind an idempotency key. Callers compete for keys; a key
is taken at most once, by a caller who then holds the right to spend it or by
someone who never spends it. A holder spends its key and loses the right, or
loses the right without spending (it fails, or it crashes).

* `Once.system` is the machine, over any type of keys and of callers.
* `Once.Inv` is its invariant; `Once.spent_le_one` is the result: in no run is a
  key spent twice.
-/

namespace Framework
namespace Once

variable {Key Caller : Type*}

/-- What the machine remembers. -/
structure State (Key Caller : Type*) where
  /-- The keys that can no longer be taken. -/
  taken : Key → Bool
  /-- The key each caller has the right to spend. -/
  holder : Caller → Option Key
  /-- How often each key has been spent. -/
  spent : Key → ℕ

/-- The steps of the machine. -/
inductive Label (Key Caller : Type*) where
  /-- A caller takes a free key and holds it. -/
  | take (c : Caller) (k : Key)
  /-- A free key is taken and nobody holds it. -/
  | mark (k : Key)
  /-- A caller spends the key it holds. -/
  | spend (c : Caller)
  /-- A caller gives up what it holds. -/
  | release (c : Caller)

variable [DecidableEq Key] [DecidableEq Caller]

/-- One step. -/
def step (s : State Key Caller) : Label Key Caller → Option (State Key Caller)
  | .take c k =>
    if s.taken k = false then
      some { s with taken := Function.update s.taken k true,
                    holder := Function.update s.holder c (some k) }
    else none
  | .mark k =>
    if s.taken k = false then some { s with taken := Function.update s.taken k true } else none
  | .spend c =>
    match s.holder c with
    | some k =>
      some { s with holder := Function.update s.holder c none,
                    spent := Function.update s.spent k (s.spent k + 1) }
    | none => none
  | .release c => some { s with holder := Function.update s.holder c none }

/-- The machine. Initially any keys may be taken, and nobody holds one. -/
def system : System (State Key Caller) (Label Key Caller) where
  init s := (∀ c, s.holder c = none) ∧ ∀ k, s.spent k = 0
  step := step

theorem step_take {s : State Key Caller} {c : Caller} {k : Key} (h : s.taken k = false) :
    system.step s (.take c k) =
      some { s with taken := Function.update s.taken k true,
                    holder := Function.update s.holder c (some k) } :=
  if_pos h

theorem step_mark {s : State Key Caller} {k : Key} (h : s.taken k = false) :
    system.step s (.mark k) =
      some { s with taken := Function.update s.taken k true } :=
  if_pos h

theorem step_spend {s : State Key Caller} {c : Caller} {k : Key} (h : s.holder c = some k) :
    system.step s (.spend c) =
      some { s with holder := Function.update s.holder c none,
                    spent := Function.update s.spent k (s.spent k + 1) } := by
  change Once.step s (.spend c) = _
  simp only [step, h]

theorem step_release (s : State Key Caller) (c : Caller) :
    system.step s (.release c) = some { s with holder := Function.update s.holder c none } :=
  rfl

/-- **The invariant.** A held key is taken and unspent and has one holder; a
spent key is taken and was spent once. -/
structure Inv (s : State Key Caller) : Prop where
  /-- A held key is taken. -/
  taken_of_held : ∀ {c k}, s.holder c = some k → s.taken k = true
  /-- A held key is not yet spent. -/
  unspent_of_held : ∀ {c k}, s.holder c = some k → s.spent k = 0
  /-- A key has one holder. -/
  holder_unique : ∀ {c d k}, s.holder c = some k → s.holder d = some k → c = d
  /-- A spent key is taken. -/
  taken_of_spent : ∀ {k}, 0 < s.spent k → s.taken k = true
  /-- A key is spent at most once. -/
  spent_le : ∀ k, s.spent k ≤ 1

theorem Inv.initial {s : State Key Caller} (h : system.init s) : Inv s where
  taken_of_held hc := by rw [h.1] at hc; cases hc
  unspent_of_held hc := by rw [h.1] at hc; cases hc
  holder_unique hc := by rw [h.1] at hc; cases hc
  taken_of_spent hk := by rw [h.2] at hk; cases hk
  spent_le k := by rw [h.2]; exact Nat.zero_le 1

omit [DecidableEq Key] in
/-- Giving up a key keeps the invariant. -/
private theorem Inv.release {s : State Key Caller} (h : Inv s) (c : Caller) :
    Inv { s with holder := Function.update s.holder c none } := by
  have hold : ∀ {d k}, Function.update s.holder c none d = some k → s.holder d = some k := by
    intro d k hd
    by_cases hdc : d = c
    · subst hdc
      simp at hd
    · rwa [Function.update_of_ne hdc] at hd
  exact
    { taken_of_held := fun hd => h.taken_of_held (hold hd)
      unspent_of_held := fun hd => h.unspent_of_held (hold hd)
      holder_unique := fun hd he => h.holder_unique (hold hd) (hold he)
      taken_of_spent := h.taken_of_spent
      spent_le := h.spent_le }

omit [DecidableEq Caller] in
/-- Taking a key out of the free ones keeps the invariant. -/
private theorem Inv.mark {s : State Key Caller} (h : Inv s) (k : Key) :
    Inv { s with taken := Function.update s.taken k true } := by
  have mono : ∀ {j}, s.taken j = true → Function.update s.taken k true j = true := by
    intro j hj
    by_cases hjk : j = k
    · subst hjk
      simp
    · rwa [Function.update_of_ne hjk]
  exact
    { taken_of_held := fun hd => mono (h.taken_of_held hd)
      unspent_of_held := h.unspent_of_held
      holder_unique := h.holder_unique
      taken_of_spent := fun hj => mono (h.taken_of_spent hj)
      spent_le := h.spent_le }

/-- Handing a free key to a caller keeps the invariant. -/
private theorem Inv.take {s : State Key Caller} (h : Inv s) {c : Caller} {k : Key}
    (hfree : s.taken k = false) :
    Inv { s with taken := Function.update s.taken k true,
                 holder := Function.update s.holder c (some k) } := by
  have hm := h.mark k
  -- Nobody can hold a free key, so the new holder is its only one.
  have hnone : ∀ d, s.holder d ≠ some k := by
    intro d hd
    rw [h.taken_of_held hd] at hfree
    cases hfree
  have hspent : s.spent k = 0 := by
    rcases Nat.eq_zero_or_pos (s.spent k) with h0 | hpos
    · exact h0
    · rw [h.taken_of_spent hpos] at hfree
      cases hfree
  have hold : ∀ {d j}, Function.update s.holder c (some k) d = some j →
      (d = c ∧ j = k) ∨ (d ≠ c ∧ j ≠ k ∧ s.holder d = some j) := by
    intro d j hd
    by_cases hdc : d = c
    · subst hdc
      simp only [Function.update_self, Option.some.injEq] at hd
      exact .inl ⟨rfl, hd.symm⟩
    · rw [Function.update_of_ne hdc] at hd
      exact .inr ⟨hdc, fun hjk => hnone d (hjk ▸ hd), hd⟩
  refine
    { taken_of_held := fun {d j} hd => ?_
      unspent_of_held := fun {d j} hd => ?_
      holder_unique := fun {d e j} hd he => ?_
      taken_of_spent := hm.taken_of_spent
      spent_le := h.spent_le }
  · rcases hold hd with ⟨-, rfl⟩ | ⟨-, -, hd'⟩
    · simp
    · exact hm.taken_of_held hd'
  · rcases hold hd with ⟨-, rfl⟩ | ⟨-, -, hd'⟩
    · exact hspent
    · exact h.unspent_of_held hd'
  · rcases hold hd with ⟨rfl, rfl⟩ | ⟨-, hj, hd'⟩
    · rcases hold he with ⟨rfl, -⟩ | ⟨-, hj, -⟩
      · rfl
      · exact absurd rfl hj
    · rcases hold he with ⟨-, hj'⟩ | ⟨-, -, he'⟩
      · exact absurd hj' hj
      · exact h.holder_unique hd' he'

/-- Spending a held key keeps the invariant. -/
private theorem Inv.spend {s : State Key Caller} (h : Inv s) {c : Caller} {k : Key}
    (hheld : s.holder c = some k) :
    Inv { s with holder := Function.update s.holder c none,
                 spent := Function.update s.spent k (s.spent k + 1) } := by
  have hr := h.release c
  have hk0 := h.unspent_of_held hheld
  refine
    { taken_of_held := hr.taken_of_held
      unspent_of_held := fun {d j} hd => ?_
      holder_unique := hr.holder_unique
      taken_of_spent := fun {j} hj => ?_
      spent_le := fun j => ?_ }
  · by_cases hjk : j = k
    · -- A second holder of `k` would have been `c` itself.
      subst hjk
      by_cases hdc : d = c
      · subst hdc
        simp at hd
      · change Function.update s.holder c none d = some j at hd
        rw [Function.update_of_ne hdc] at hd
        exact absurd (h.holder_unique hd hheld) hdc
    · change Function.update s.spent k (s.spent k + 1) j = 0
      rw [Function.update_of_ne hjk]
      exact hr.unspent_of_held hd
  · by_cases hjk : j = k
    · subst hjk
      exact h.taken_of_held hheld
    · change 0 < Function.update s.spent k (s.spent k + 1) j at hj
      rw [Function.update_of_ne hjk] at hj
      exact h.taken_of_spent hj
  · change Function.update s.spent k (s.spent k + 1) j ≤ 1
    by_cases hjk : j = k
    · subst hjk
      simp [hk0]
    · rw [Function.update_of_ne hjk]
      exact h.spent_le j

/-- Every step keeps the invariant. -/
theorem Inv.step {s s' : State Key Caller} {l : Label Key Caller} (h : Inv s)
    (hs : system.step s l = some s') : Inv s' := by
  change Once.step s l = some s' at hs
  cases l with
  | take c k =>
    simp only [Once.step] at hs
    split at hs
    · rename_i hfree
      cases hs
      exact h.take hfree
    · cases hs
  | mark k =>
    simp only [Once.step] at hs
    split at hs
    · cases hs
      exact h.mark k
    · cases hs
  | spend c =>
    simp only [Once.step] at hs
    split at hs
    · rename_i k hheld
      cases hs
      exact h.spend hheld
    · cases hs
  | release c =>
    cases hs
    exact h.release c

/-- The invariant holds in every reachable state. -/
theorem inv_of_reachable {s : State Key Caller} (h : system.Reachable s) : Inv s :=
  h.invariant (P := Inv) (fun _ h0 => Inv.initial h0) (fun _ _ _ _ hi hs => hi.step hs)

/-- **At most once.** In every run, every key is spent at most once. -/
theorem spent_le_one {s : State Key Caller} (h : system.Reachable s) (k : Key) :
    s.spent k ≤ 1 :=
  (inv_of_reachable h).spent_le k

end Once
end Framework
