import Mathlib.Logic.Function.Basic

/-!
# Replacing an immutable object

Where the objects of a store cannot be changed in place, one of them is replaced by asking
the server, in one request, to create its successor and to destroy it. The server decides on
the two parts separately, and its answer may be lost after it has acted. The client then
names the successor when it has read of one, and goes on naming the old object otherwise.

* `Outcome` is what became of such a request, and `Outcome.apply` the store after it.
* `survives_iff` says when the old object or the new one is left.
* `report_iff` says when the client names an object that exists. It is the stronger of the
  two: `survives_of_report`.
-/

namespace Framework
namespace Replacement

variable {Id Obj : Type*} [DecidableEq Id]

/-- What became of a request to create an object and to destroy another. -/
structure Outcome (Id : Type*) where
  /-- The id under which the new object was created, if it was. -/
  created : Option Id
  destroyed : Bool
  /-- The answer has reached the client. -/
  answered : Bool

/-- Nothing has happened, and nothing is known. -/
def Outcome.nothing : Outcome Id := ⟨none, false, false⟩

/-- The store after a request that only creates `new`. -/
def Outcome.create (o : Outcome Id) (store : Id → Option Obj) (new : Obj) : Id → Option Obj :=
  match o.created with
  | some id => Function.update store id (some new)
  | none => store

/-- The store after a request to replace the object at `old` by `new`. -/
def Outcome.apply (o : Outcome Id) (store : Id → Option Obj) (old : Id) (new : Obj) :
    Id → Option Obj :=
  o.create (if o.destroyed then Function.update store old none else store) new

/-- The object the client names afterwards. -/
def Outcome.report (o : Outcome Id) (old : Id) : Id :=
  if o.answered then o.created.getD old else old

/-- A new object is given an id that no object has, and that the old one did not have
either. -/
def Outcome.Fresh (o : Outcome Id) (store : Id → Option Obj) (old : Id) : Prop :=
  ∀ id, o.created = some id → store id = none ∧ id ≠ old

omit [DecidableEq Id] in
theorem Outcome.fresh_nothing {store : Id → Option Obj} {old : Id} :
    (Outcome.nothing : Outcome Id).Fresh store old := by
  intro id h
  exact absurd h (by simp [Outcome.nothing])

variable {o : Outcome Id} {store : Id → Option Obj} {old : Id} {new : Obj}

@[simp] theorem apply_nothing : (Outcome.nothing : Outcome Id).apply store old new = store :=
  rfl

/-- The new object is where it was created. -/
theorem create_created {id : Id} (h : o.created = some id) : o.create store new id = some new := by
  simp [Outcome.create, h]

theorem apply_created {id : Id} (h : o.created = some id) :
    o.apply store old new id = some new :=
  create_created h

/-- Creating leaves everything else. -/
theorem create_of_ne {id : Id} (h : o.created ≠ some id) : o.create store new id = store id := by
  unfold Outcome.create
  cases hcreated : o.created with
  | none => rfl
  | some id' => exact Function.update_of_ne (fun h' => h (by rw [hcreated, h'])) _ _

/-- The old object stays unless it is destroyed. -/
theorem apply_old (h : o.Fresh store old) :
    o.apply store old new old = if o.destroyed then none else store old := by
  -- the new object is not put in the place of the old one
  have hne : o.created ≠ some old := fun h' => (h old h').2 rfl
  rw [Outcome.apply, create_of_ne hne]
  cases o.destroyed <;> simp

/-- **The frame.** Every other object is as it was. -/
theorem apply_of_ne {id : Id} (hold : id ≠ old) (hcreated : o.created ≠ some id) :
    o.apply store old new id = store id := by
  rw [Outcome.apply, create_of_ne hcreated]
  cases o.destroyed <;> simp [hold]

/-- The old object is left as it was, or the new one is there. -/
def Survives (store after : Id → Option Obj) (old : Id) (new : Obj) : Prop :=
  (store old ≠ none ∧ after old = store old) ∨ ∃ id, store id = none ∧ after id = some new

/-- **When one of the two survives**: the new object was created, or there was an old one
and it was not destroyed. -/
theorem survives_iff (h : o.Fresh store old) :
    Survives store (o.apply store old new) old new ↔
      o.created ≠ none ∨ (store old ≠ none ∧ o.destroyed = false) := by
  constructor
  · rintro (⟨hstore, hafter⟩ | ⟨id, hnone, hsome⟩)
    · refine .inr ⟨hstore, ?_⟩
      rw [apply_old h] at hafter
      cases hd : o.destroyed with
      | false => rfl
      | true => exact absurd (by simpa [hd] using hafter.symm) hstore
    · -- an object where there was none is the new one
      refine .inl fun hcreated => ?_
      by_cases hid : id = old
      · subst hid
        rw [apply_old h, hnone] at hsome
        cases o.destroyed <;> exact absurd hsome (by simp)
      · rw [apply_of_ne hid (by simp [hcreated]), hnone] at hsome
        exact absurd hsome (by simp)
  · rintro (hcreated | ⟨hstore, hd⟩)
    · obtain ⟨id, hid⟩ := Option.ne_none_iff_exists'.mp hcreated
      exact .inr ⟨id, (h id hid).1, apply_created hid⟩
    · exact .inl ⟨hstore, by simp [apply_old h, hd]⟩

/-- **When the client names an object that exists**: it has read of the new one, or there
was an old one and it was not destroyed. -/
theorem report_iff (h : o.Fresh store old) :
    o.apply store old new (o.report old) ≠ none ↔
      (o.answered = true ∧ o.created ≠ none) ∨ (store old ≠ none ∧ o.destroyed = false) := by
  -- what is known of the old object when that is the one named
  have hold : o.apply store old new old ≠ none ↔ store old ≠ none ∧ o.destroyed = false := by
    rw [apply_old h]
    cases o.destroyed <;> simp
  cases ha : o.answered with
  | false => simpa [Outcome.report, ha] using hold
  | true =>
    cases hcreated : o.created with
    | none => simpa [Outcome.report, ha, hcreated] using hold
    | some id => simp [Outcome.report, ha, hcreated, apply_created hcreated]

/-- Where the client names an object that exists, one of the two has survived. -/
theorem survives_of_report (h : o.Fresh store old)
    (hreport : o.apply store old new (o.report old) ≠ none) :
    Survives store (o.apply store old new) old new := by
  apply (survives_iff h).mpr
  obtain ⟨-, hcreated⟩ | hold := (report_iff h).mp hreport
  · exact .inl hcreated
  · exact .inr hold

end Replacement
end Framework
