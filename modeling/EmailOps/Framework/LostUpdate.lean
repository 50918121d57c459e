import Mathlib.Logic.Function.Basic

/-!
# Reading a whole value and writing a part of it

A writer reads a value, sets one part of it in memory and writes the whole value back. What
was written to another part in between is gone.

* `Parts` is a value with parts under keys.
* `Parts.Kept` says that each part is what was last written to it, or what it was at first.
* `Parts.kept_set_iff`: a write-back keeps this if and only if the value that was read agrees
  with the one that is there on every other part.
-/

namespace Framework

variable {Value Key Part : Type*}

/-- Values with parts that are read and set one by one. -/
structure Parts (Value Key Part : Type*) where
  get : Value → Key → Option Part
  set : Value → Key → Part → Value
  get_set : ∀ v key p, get (set v key p) key = some p
  get_set_of_ne : ∀ v p {key key'}, key' ≠ key → get (set v key p) key' = get v key'

namespace Parts

/-- Each part is what was last written to it, and one that was not written is as it was. -/
def Kept (P : Parts Value Key Part) (original : Value) (written : Key → Option Part)
    (v : Value) : Prop :=
  ∀ key, P.get v key = (written key).or (P.get original key)

variable {P : Parts Value Key Part} {original current read : Value}
  {written : Key → Option Part}

/-- Nothing is written yet. -/
theorem kept_refl (P : Parts Value Key Part) (original : Value) :
    P.Kept original (fun _ => none) original :=
  fun _ => rfl

/-- **A write-back**: nothing is lost if and only if nothing that was written since the read
is to another part. -/
theorem kept_set_iff [DecidableEq Key] (h : P.Kept original written current) (key : Key)
    (p : Part) :
    P.Kept original (Function.update written key (some p)) (P.set read key p) ↔
      ∀ key', key' ≠ key → P.get read key' = P.get current key' := by
  constructor
  · intro hkept key' hne
    have hpart := hkept key'
    rw [P.get_set_of_ne read p hne, Function.update_of_ne hne] at hpart
    exact hpart.trans (h key').symm
  · intro hfresh key'
    by_cases hkey : key' = key
    · subst hkey
      rw [P.get_set, Function.update_self, Option.some_or]
    · rw [P.get_set_of_ne read p hkey, Function.update_of_ne hkey, hfresh key' hkey]
      exact h key'

end Parts

end Framework
