import Mathlib.Data.List.Basic
import Mathlib.Logic.Function.Basic

/-!
# Rows under read committed

A table whose rows are written by open transactions. A transaction that writes a row holds it
until it ends: there is one pending version of a row at most. A statement sees what is committed
when it runs, and what its own transaction has written. A commit publishes the pending versions
of its transaction, and a rollback drops them.

* `ReadCommitted` is such a table, with the ids that were ever in it.
* `visible` and `matching` are what a statement reads, `Free` says that it need not wait for a
  row, `put` writes a version, where none is a deletion.
* `committed_commit_cases` and `pending_commit_iff` say what is there after a commit.
-/

namespace Framework

/-- The rows under their ids, committed and pending. A row that is gone, or whose id was never
used, is none. -/
structure ReadCommitted (Tx Id Row : Type*) where
  /-- The ids that were ever used. -/
  ids : List Id
  committed : Id → Option Row
  pending : Id → Option (Tx × Option Row)
  known : ∀ id, id ∉ ids → committed id = none ∧ pending id = none

namespace ReadCommitted

variable {Tx Id Row : Type*}

def empty (Tx Id Row : Type*) : ReadCommitted Tx Id Row where
  ids := []
  committed _ := none
  pending _ := none
  known _ _ := ⟨rfl, rfl⟩

/-- Write a version of a row, or delete it. -/
def put [DecidableEq Id] (s : ReadCommitted Tx Id Row) (t : Tx) (id : Id) (v : Option Row) :
    ReadCommitted Tx Id Row where
  ids := s.ids.insert id
  committed := s.committed
  pending := Function.update s.pending id (some (t, v))
  known id' h := by
    obtain ⟨hne, hids⟩ := not_or.mp (mt List.mem_insert_iff.mpr h)
    rw [Function.update_of_ne hne]
    exact s.known id' hids

section Statements

variable [DecidableEq Tx]

/-- The row that a statement of the transaction sees. -/
def visible (s : ReadCommitted Tx Id Row) (t : Tx) (id : Id) : Option Row :=
  match s.pending id with
  | some (t', v) => if t' = t then v else s.committed id
  | none => s.committed id

/-- No other transaction holds the row. -/
def Free (s : ReadCommitted Tx Id Row) (t : Tx) (id : Id) : Prop :=
  ∀ p ∈ s.pending id, p.1 = t

instance (s : ReadCommitted Tx Id Row) (t : Tx) (id : Id) : Decidable (s.Free t id) :=
  inferInstanceAs (Decidable (∀ p ∈ s.pending id, p.1 = t))

/-- The ids of the rows that a statement finds. -/
def matching (s : ReadCommitted Tx Id Row) (t : Tx) (p : Id → Row → Bool) : List Id :=
  s.ids.filter fun id => (s.visible t id).any (p id)

/-- The pending versions of the other transactions. -/
def others (s : ReadCommitted Tx Id Row) (t : Tx) (id : Id) : Option (Tx × Option Row) :=
  (s.pending id).filter fun p => p.1 ≠ t

def commit (s : ReadCommitted Tx Id Row) (t : Tx) : ReadCommitted Tx Id Row where
  ids := s.ids
  committed := s.visible t
  pending := s.others t
  known id h := by
    obtain ⟨hcommitted, hpending⟩ := s.known id h
    simp [visible, others, hcommitted, hpending]

def rollback (s : ReadCommitted Tx Id Row) (t : Tx) : ReadCommitted Tx Id Row where
  ids := s.ids
  committed := s.committed
  pending := s.others t
  known id h := by
    obtain ⟨hcommitted, hpending⟩ := s.known id h
    exact ⟨hcommitted, by simp [others, hpending]⟩

end Statements

variable {s : ReadCommitted Tx Id Row} {t t' : Tx} {id id' : Id} {v w : Option Row} {r : Row}

/-! ### What a statement sees -/

/-- The ids of what is committed are known. -/
theorem mem_ids_of_committed (h : s.committed id = some r) : id ∈ s.ids := by
  by_contra hid
  rw [(s.known id hid).1] at h
  cases h

/-- So are those of what is pending. -/
theorem mem_ids_of_pending {p : Tx × Option Row} (h : s.pending id = some p) : id ∈ s.ids := by
  by_contra hid
  rw [(s.known id hid).2] at h
  cases h

/-- Who writes a free row is its holder. -/
theorem Free.eq_of_pending (h : s.Free t id) (hpending : s.pending id = some (t', v)) : t' = t :=
  h _ hpending

section Reading

variable [DecidableEq Tx]

/-- A transaction sees what it has written. -/
theorem visible_of_pending (h : s.pending id = some (t, v)) : s.visible t id = v := by
  simp [visible, h]

/-- Of the rows that it has not written, it sees what is committed. -/
theorem visible_of_not_pending (h : ∀ v, s.pending id ≠ some (t, v)) :
    s.visible t id = s.committed id := by
  unfold visible
  split
  · next t' v hpending =>
    refine if_neg fun ht => h v ?_
    rw [hpending, ht]
  · rfl

/-- A row that is seen was written by the transaction, or is committed. -/
theorem visible_cases (h : s.visible t id = v) :
    s.pending id = some (t, v) ∨
      (∀ w, s.pending id ≠ some (t, w)) ∧ s.committed id = v := by
  by_cases hown : ∃ w, s.pending id = some (t, w)
  · obtain ⟨w, hw⟩ := hown
    obtain rfl := (visible_of_pending hw).symm.trans h
    exact .inl hw
  · have hnone := not_exists.mp hown
    exact .inr ⟨hnone, (visible_of_not_pending hnone).symm.trans h⟩

theorem mem_ids_of_visible (h : s.visible t id = some r) : id ∈ s.ids := by
  by_contra hid
  obtain ⟨hcommitted, hpending⟩ := s.known id hid
  rw [visible, hpending, hcommitted] at h
  cases h

theorem mem_matching {p : Id → Row → Bool} :
    id ∈ s.matching t p ↔ ∃ r, s.visible t id = some r ∧ p id r = true := by
  rw [matching, List.mem_filter, Option.any_eq_true]
  exact ⟨And.right, fun ⟨r, hr, hp⟩ => ⟨mem_ids_of_visible hr, r, hr, hp⟩⟩

end Reading

/-! ### Writing -/

section Writing

variable [DecidableEq Id]

@[simp] theorem committed_put : (s.put t id v).committed = s.committed :=
  rfl

/-- What is pending after a write is the new version, or was pending. -/
theorem pending_put_iff {p : Tx × Option Row} :
    (s.put t id v).pending id' = some p ↔
      id' = id ∧ p = (t, v) ∨ id' ≠ id ∧ s.pending id' = some p := by
  by_cases hid : id' = id
  · subst hid
    simp [put, eq_comm]
  · simp [put, hid]

theorem pending_put_self : (s.put t id v).pending id = some (t, v) :=
  pending_put_iff.mpr (.inl ⟨rfl, rfl⟩)

theorem mem_ids_put (h : id' ∈ s.ids) : id' ∈ (s.put t id v).ids :=
  List.mem_insert_of_mem h

theorem mem_ids_put_self : id ∈ (s.put t id v).ids :=
  List.mem_insert_self

end Writing

/-! ### Ending -/

section Ending

variable [DecidableEq Tx]

/-- **After a commit** a row is what its transaction wrote, or what it was. -/
theorem committed_commit_cases (h : (s.commit t).committed id = v) :
    s.pending id = some (t, v) ∨
      (∀ w, s.pending id ≠ some (t, w)) ∧ s.committed id = v :=
  visible_cases h

/-- What another transaction holds stays as it was committed. -/
theorem committed_commit_of_pending (h : s.pending id = some (t', v)) (hne : t' ≠ t) :
    (s.commit t).committed id = s.committed id :=
  visible_of_not_pending fun _ hw => hne (Prod.mk.inj (Option.some.inj (h.symm.trans hw))).1

/-- What is pending once a transaction has ended is what others hold. -/
theorem others_iff : s.others t id = some (t', v) ↔ t' ≠ t ∧ s.pending id = some (t', v) := by
  rw [others, Option.filter_eq_some_iff, decide_eq_true_eq]
  exact and_comm

theorem pending_commit_iff :
    (s.commit t).pending id = some (t', v) ↔ t' ≠ t ∧ s.pending id = some (t', v) :=
  others_iff

theorem pending_rollback_iff :
    (s.rollback t).pending id = some (t', v) ↔ t' ≠ t ∧ s.pending id = some (t', v) :=
  others_iff

@[simp] theorem committed_rollback : (s.rollback t).committed = s.committed :=
  rfl

end Ending

end ReadCommitted

end Framework
