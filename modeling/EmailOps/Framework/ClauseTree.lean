import Mathlib.Data.List.Basic

/-!
# Trees of guarded clauses

A filter is a tree: a leaf is a condition on the things it filters, and a group has a clause
all of whose children must hold, a clause one of whose children must hold, or both. A clause
that is there and has no child does not hold, so that an empty filter lets nothing through.
What could not be read does not hold either: a child that is `malformed`, and a group with a
clause that is broken.

* `eval` is the meaning of a tree, for a valuation `v` of its leaves. It is monotone in the
  valuation (`eval_mono`).
* `prune` leaves out what could not be read: the broken clauses of a group and the malformed
  children of its clauses. Out of a clause that asks for one child this changes nothing, out
  of a clause that asks for all of them it takes a condition away, so that a tree may hold
  when it is pruned that did not before (`eval_prune_of_eval`).
* `loosened` says, of a tree and its parts as they stand, that leaving something out is what
  makes it hold, and `eval_prune_eq_iff` that pruning is right where that is not so.
-/

namespace Framework

/-- A tree of clauses over leaves of type `α`. A group is `broken` when a clause of it that is
there could not be read. -/
inductive ClauseTree (α : Type*) where
  | leaf (a : α)
  | malformed
  | group (broken : Bool) (all any : Option (List (ClauseTree α)))

namespace ClauseTree

variable {α : Type*}

/-- **Induction on trees**, where a property of a group may be shown from that of every child
of its clauses. -/
@[elab_as_elim]
theorem children_induction {P : ClauseTree α → Prop} (leaf : ∀ a, P (.leaf a))
    (malformed : P .malformed)
    (group : ∀ broken all any, (∀ ts ∈ all, ∀ t ∈ ts, P t) → (∀ ts ∈ any, ∀ t ∈ ts, P t) →
      P (.group broken all any)) (t : ClauseTree α) : P t := by
  refine ClauseTree.rec (motive_1 := P) (motive_2 := fun clause => ∀ ts ∈ clause, ∀ t ∈ ts, P t)
    (motive_3 := fun ts => ∀ t ∈ ts, P t) leaf malformed group nofun ?_ nofun ?_ t
  · rintro ts hts _ ⟨rfl⟩
    exact hts
  · intro t ts ht hts t' ht'
    rcases List.mem_cons.mp ht' with rfl | ht'
    · exact ht
    · exact hts t' ht'

def isMalformed : ClauseTree α → Bool
  | malformed => true
  | _ => false

/-! ### Meaning -/

section Eval

variable (v : α → Bool)

mutual

/-- Does a tree hold? A group needs a clause, and each clause that is there, in one piece. -/
def eval : ClauseTree α → Bool
  | leaf a => v a
  | malformed => false
  | group broken all any =>
    !broken && ((all.isSome || any.isSome) && (evalAll all && evalAny any))

def evalAll : Option (List (ClauseTree α)) → Bool
  | none => true
  | some ts => !ts.isEmpty && evalEvery ts

def evalAny : Option (List (ClauseTree α)) → Bool
  | none => true
  | some ts => !ts.isEmpty && evalSome ts

def evalEvery : List (ClauseTree α) → Bool
  | [] => true
  | t :: ts => eval t && evalEvery ts

def evalSome : List (ClauseTree α) → Bool
  | [] => false
  | t :: ts => eval t || evalSome ts

end

end Eval

variable {v w : α → Bool}

theorem evalEvery_eq_all (ts : List (ClauseTree α)) : evalEvery v ts = ts.all (eval v) := by
  induction ts with
  | nil => rfl
  | cons t ts ih => rw [evalEvery, List.all_cons, ih]

theorem evalSome_eq_any (ts : List (ClauseTree α)) : evalSome v ts = ts.any (eval v) := by
  induction ts with
  | nil => rfl
  | cons t ts ih => rw [evalSome, List.any_cons, ih]

/-- The clause of which all children must hold. -/
theorem evalAll_iff {clause : Option (List (ClauseTree α))} :
    evalAll v clause = true ↔ ∀ ts ∈ clause, ts ≠ [] ∧ ∀ t ∈ ts, eval v t = true := by
  cases clause with
  | none => exact iff_of_true rfl nofun
  | some ts =>
    rw [evalAll, evalEvery_eq_all, Bool.and_eq_true, List.all_eq_true]
    simp

/-- The clause of which one child must hold; that one is a child, so it is not empty. -/
theorem evalAny_iff {clause : Option (List (ClauseTree α))} :
    evalAny v clause = true ↔ ∀ ts ∈ clause, ∃ t ∈ ts, eval v t = true := by
  cases clause with
  | none => exact iff_of_true rfl nofun
  | some ts =>
    rw [evalAny, evalSome_eq_any, Bool.and_eq_true, List.any_eq_true]
    constructor
    · rintro ⟨-, hsome⟩ _ ⟨rfl⟩
      exact hsome
    · intro h
      obtain ⟨t, ht, heval⟩ := h ts rfl
      exact ⟨by simp [List.ne_nil_of_mem ht], t, ht, heval⟩

mutual

/-- The leaves of a tree, from left to right. -/
def leaves : ClauseTree α → List α
  | leaf a => [a]
  | malformed => []
  | group _ all any => clauseLeaves all ++ clauseLeaves any

def clauseLeaves : Option (List (ClauseTree α)) → List α
  | none => []
  | some ts => childLeaves ts

def childLeaves : List (ClauseTree α) → List α
  | [] => []
  | t :: ts => leaves t ++ childLeaves ts

end

theorem childLeaves_eq_flatMap (ts : List (ClauseTree α)) : childLeaves ts = ts.flatMap leaves := by
  induction ts with
  | nil => rfl
  | cons t ts ih => rw [childLeaves, List.flatMap_cons, ih]

theorem mem_clauseLeaves {clause : Option (List (ClauseTree α))} {a : α} :
    a ∈ clauseLeaves clause ↔ ∃ ts ∈ clause, ∃ t ∈ ts, a ∈ t.leaves := by
  cases clause with
  | none => exact iff_of_false nofun nofun
  | some ts => simp [clauseLeaves, childLeaves_eq_flatMap]

/-- **What holds under a valuation holds under one that makes more leaves hold.** -/
theorem eval_mono (t : ClauseTree α) (hle : ∀ a ∈ t.leaves, v a = true → w a = true)
    (h : eval v t = true) : eval w t = true := by
  induction t using children_induction with
  | leaf a => exact hle a List.mem_cons_self h
  | malformed => exact h
  | group broken all any ihall ihany =>
    simp only [eval, Bool.and_eq_true, evalAll_iff, evalAny_iff] at h ⊢
    obtain ⟨hwhole, hthere, hall, hany⟩ := h
    refine ⟨hwhole, hthere, fun ts hts => ⟨(hall ts hts).1, fun t ht => ?_⟩, fun ts hts => ?_⟩
    · refine ihall ts hts t ht (fun a ha => hle a ?_) ((hall ts hts).2 t ht)
      exact List.mem_append_left _ (mem_clauseLeaves.mpr ⟨ts, hts, t, ht, ha⟩)
    · obtain ⟨t, ht, heval⟩ := hany ts hts
      refine ⟨t, ht, ihany ts hts t ht (fun a ha => hle a ?_) heval⟩
      exact List.mem_append_right _ (mem_clauseLeaves.mpr ⟨ts, hts, t, ht, ha⟩)

/-- A part that is required: a child of a clause all of whose children must hold, or what such
a child requires. -/
inductive Required : ClauseTree α → ClauseTree α → Prop
  | child {broken : Bool} {any : Option (List (ClauseTree α))} {ts : List (ClauseTree α)}
      {t : ClauseTree α} (h : t ∈ ts) : Required t (group broken (some ts) any)
  | trans {r t u : ClauseTree α} (hr : Required r t) (ht : Required t u) : Required r u

/-- Where a tree holds, all that it requires does. -/
theorem eval_of_required {r t : ClauseTree α} (hr : Required r t) (h : eval v t = true) :
    eval v r = true := by
  induction hr with
  | child ht =>
    rw [eval, Bool.and_eq_true, Bool.and_eq_true, Bool.and_eq_true, evalAll_iff] at h
    exact (h.2.2.1 _ rfl).2 _ ht
  | trans _ _ ihr iht => exact ihr (iht h)

/-! ### Leaving out what could not be read -/

mutual

/-- A tree without its broken clauses and their malformed children. -/
def prune : ClauseTree α → ClauseTree α
  | leaf a => leaf a
  | malformed => malformed
  | group _ all any => group false (pruneClause all) (pruneClause any)

def pruneClause : Option (List (ClauseTree α)) → Option (List (ClauseTree α))
  | none => none
  | some ts => some (pruneChildren ts)

def pruneChildren : List (ClauseTree α) → List (ClauseTree α)
  | [] => []
  | t :: ts => if t.isMalformed then pruneChildren ts else prune t :: pruneChildren ts

end

@[simp] theorem isMalformed_prune (t : ClauseTree α) : t.prune.isMalformed = t.isMalformed := by
  cases t with
  | leaf a => rfl
  | malformed => rfl
  | group broken all any => rfl

theorem pruneClause_eq_map (clause : Option (List (ClauseTree α))) :
    pruneClause clause = clause.map pruneChildren := by
  cases clause with
  | none => rfl
  | some ts => rfl

theorem mem_pruneChildren {ts : List (ClauseTree α)} {t' : ClauseTree α} :
    t' ∈ pruneChildren ts ↔ ∃ t ∈ ts, t.isMalformed = false ∧ t.prune = t' := by
  induction ts with
  | nil => simp [pruneChildren]
  | cons t ts ih =>
    rw [pruneChildren]
    split
    · next hbad => simp [ih, hbad]
    · next hgood =>
      rw [List.mem_cons, ih, List.exists_mem_cons_iff, eq_comm (a := t')]
      simp [Bool.eq_false_iff.mpr hgood]

/-- Nothing is left to leave out. -/
theorem prune_prune (t : ClauseTree α) : t.prune.prune = t.prune := by
  -- The children of a clause that is pruned are pruned, and none of them is malformed.
  have hchildren : ∀ ts : List (ClauseTree α), (∀ t ∈ ts, t.prune.prune = t.prune) →
      pruneChildren (pruneChildren ts) = pruneChildren ts := by
    intro ts h
    induction ts with
    | nil => rfl
    | cons t ts ih =>
      have hrest := ih fun t' ht' => h t' (List.mem_cons_of_mem t ht')
      by_cases hbad : t.isMalformed = true
      · rw [pruneChildren, if_pos hbad, hrest]
      · have hprune : t.prune.isMalformed ≠ true := by rwa [isMalformed_prune]
        rw [pruneChildren, if_neg hbad, pruneChildren, if_neg hprune, hrest,
          h t List.mem_cons_self]
  induction t using children_induction with
  | leaf a => rfl
  | malformed => rfl
  | group broken all any ihall ihany =>
    have hclause : ∀ clause : Option (List (ClauseTree α)),
        (∀ ts ∈ clause, ∀ t ∈ ts, t.prune.prune = t.prune) →
          pruneClause (pruneClause clause) = pruneClause clause := by
      intro clause h
      cases clause with
      | none => rfl
      | some ts => exact congrArg some (hchildren ts (h ts rfl))
    rw [prune, prune, hclause all ihall, hclause any ihany]

theorem evalAll_pruneClause {clause : Option (List (ClauseTree α))} :
    evalAll v (pruneClause clause) = true ↔ ∀ ts ∈ clause, pruneChildren ts ≠ [] ∧
      ∀ t ∈ ts, t.isMalformed = false → eval v t.prune = true := by
  cases clause with
  | none => exact iff_of_true rfl nofun
  | some ts =>
    have hevery : (∀ t ∈ pruneChildren ts, eval v t = true) ↔
        ∀ t ∈ ts, t.isMalformed = false → eval v t.prune = true := by
      constructor
      · exact fun h t ht hgood => h _ (mem_pruneChildren.mpr ⟨t, ht, hgood, rfl⟩)
      · intro h t' ht'
        obtain ⟨t, ht, hgood, rfl⟩ := mem_pruneChildren.mp ht'
        exact h t ht hgood
    simp only [pruneClause, evalAll_iff, Option.mem_some_iff, forall_eq', hevery]

theorem evalAny_pruneClause {clause : Option (List (ClauseTree α))} :
    evalAny v (pruneClause clause) = true ↔
      ∀ ts ∈ clause, ∃ t ∈ ts, t.isMalformed = false ∧ eval v t.prune = true := by
  cases clause with
  | none => exact iff_of_true rfl nofun
  | some ts => simp [pruneClause, evalAny_iff, mem_pruneChildren, and_assoc]

/-- When a group holds that is pruned. -/
theorem eval_prune_group {broken : Bool} {all any : Option (List (ClauseTree α))} :
    eval v (prune (group broken all any)) = true ↔ (all.isSome = true ∨ any.isSome = true) ∧
      (∀ ts ∈ all, pruneChildren ts ≠ [] ∧
        ∀ t ∈ ts, t.isMalformed = false → eval v t.prune = true) ∧
      ∀ ts ∈ any, ∃ t ∈ ts, t.isMalformed = false ∧ eval v t.prune = true := by
  rw [prune, eval, Bool.not_false, Bool.true_and, Bool.and_eq_true, Bool.and_eq_true,
    Bool.or_eq_true, evalAll_pruneClause,
    evalAny_pruneClause, pruneClause_eq_map, pruneClause_eq_map, Option.isSome_map,
    Option.isSome_map]

/-- What holds is not malformed. -/
theorem isMalformed_of_eval {t : ClauseTree α} (h : eval v t = true) : t.isMalformed = false := by
  cases t with
  | leaf a => rfl
  | malformed => exact h.symm
  | group broken all any => rfl

/-- **Pruning widens**: what holds as it stands holds when it is pruned. -/
theorem eval_prune_of_eval {t : ClauseTree α} (h : eval v t = true) : eval v t.prune = true := by
  induction t using children_induction with
  | leaf a => exact h
  | malformed => exact h
  | group broken all any ihall ihany =>
    simp only [eval, Bool.and_eq_true, Bool.or_eq_true, evalAll_iff, evalAny_iff] at h
    obtain ⟨-, hthere, hall, hany⟩ := h
    refine eval_prune_group.mpr ⟨hthere, fun ts hts => ⟨?_, fun t ht _ => ?_⟩, fun ts hts => ?_⟩
    · -- The clause has a child, which holds, and so it is kept.
      obtain ⟨hne, hevery⟩ := hall ts hts
      obtain ⟨t, ht⟩ := List.exists_mem_of_ne_nil ts hne
      exact List.ne_nil_of_mem (mem_pruneChildren.mpr
        ⟨t, ht, isMalformed_of_eval (hevery t ht), rfl⟩)
    · exact ihall ts hts t ht ((hall ts hts).2 t ht)
    · obtain ⟨t, ht, heval⟩ := hany ts hts
      exact ⟨t, ht, isMalformed_of_eval heval, ihany ts hts t ht heval⟩

/-! ### Where pruning is right -/

section Loosened

variable (v)

mutual

/-- Does a tree that does not hold as it stands hold without what could not be read? Then
each of its clauses has a child that could be read and such children hold, loosened or not.
And something was left out that made a difference: a broken clause, a child of a clause that
asks for all of them, or in a clause that asks for one there is no child that holds as it
stands. -/
def loosened : ClauseTree α → Bool
  | leaf _ => false
  | malformed => false
  | group broken all any =>
    ((all.isSome || any.isSome) && (restHoldsAll all && restHoldsAny any)) &&
      (broken || (losesAll all || losesAny any))

def restHoldsAll : Option (List (ClauseTree α)) → Bool
  | none => true
  | some ts => (ts.any fun t => !t.isMalformed) && restHoldsEvery ts

def restHoldsAny : Option (List (ClauseTree α)) → Bool
  | none => true
  | some ts => restHoldsSome ts

def restHoldsEvery : List (ClauseTree α) → Bool
  | [] => true
  | t :: ts => (t.isMalformed || (eval v t || loosened t)) && restHoldsEvery ts

def restHoldsSome : List (ClauseTree α) → Bool
  | [] => false
  | t :: ts => (eval v t || loosened t) || restHoldsSome ts

def losesAll : Option (List (ClauseTree α)) → Bool
  | none => false
  | some ts => losesSome ts

def losesAny : Option (List (ClauseTree α)) → Bool
  | none => false
  | some ts => !evalSome v ts

def losesSome : List (ClauseTree α) → Bool
  | [] => false
  | t :: ts => (t.isMalformed || loosened t) || losesSome ts

end

end Loosened

theorem restHoldsAll_iff {clause : Option (List (ClauseTree α))} :
    restHoldsAll v clause = true ↔ ∀ ts ∈ clause, (∃ t ∈ ts, t.isMalformed = false) ∧
      ∀ t ∈ ts, t.isMalformed = false → eval v t = true ∨ loosened v t = true := by
  have hevery : ∀ ts : List (ClauseTree α), restHoldsEvery v ts = true ↔
      ∀ t ∈ ts, t.isMalformed = false → eval v t = true ∨ loosened v t = true := by
    intro ts
    induction ts with
    | nil => simp [restHoldsEvery]
    | cons t ts ih =>
      rw [restHoldsEvery, Bool.and_eq_true, ih, List.forall_mem_cons]
      cases t.isMalformed <;> simp
  cases clause with
  | none => exact iff_of_true rfl nofun
  | some ts => simp [restHoldsAll, hevery]

theorem restHoldsAny_iff {clause : Option (List (ClauseTree α))} :
    restHoldsAny v clause = true ↔
      ∀ ts ∈ clause, ∃ t ∈ ts, eval v t = true ∨ loosened v t = true := by
  have hsome : ∀ ts : List (ClauseTree α), restHoldsSome v ts = true ↔
      ∃ t ∈ ts, eval v t = true ∨ loosened v t = true := by
    intro ts
    induction ts with
    | nil => simp [restHoldsSome]
    | cons t ts ih => simp [restHoldsSome, ih]
  cases clause with
  | none => exact iff_of_true rfl nofun
  | some ts => simp [restHoldsAny, hsome]

theorem losesAll_iff {clause : Option (List (ClauseTree α))} :
    losesAll v clause = true ↔
      ∃ ts ∈ clause, ∃ t ∈ ts, t.isMalformed = true ∨ loosened v t = true := by
  have hsome : ∀ ts : List (ClauseTree α), losesSome v ts = true ↔
      ∃ t ∈ ts, t.isMalformed = true ∨ loosened v t = true := by
    intro ts
    induction ts with
    | nil => simp [losesSome]
    | cons t ts ih => simp [losesSome, ih]
  cases clause with
  | none => exact iff_of_false nofun nofun
  | some ts => simp [losesAll, hsome]

theorem losesAny_iff {clause : Option (List (ClauseTree α))} :
    losesAny v clause = true ↔ ∃ ts ∈ clause, ∀ t ∈ ts, eval v t = false := by
  cases clause with
  | none => exact iff_of_false nofun nofun
  | some ts => simp [losesAny, evalSome_eq_any]

/-- What holds when it is pruned is not malformed. -/
theorem isMalformed_of_eval_prune {t : ClauseTree α} (h : eval v t.prune = true) :
    t.isMalformed = false :=
  (isMalformed_prune _).symm.trans (isMalformed_of_eval h)

/-- A tree that holds or is loosened is one that holds when it is pruned. -/
theorem holds_or_loosened_iff {t : ClauseTree α}
    (ih : loosened v t = true ↔ eval v t.prune = true ∧ eval v t = false) :
    eval v t = true ∨ loosened v t = true ↔ eval v t.prune = true := by
  rw [ih]
  constructor
  · rintro (h | ⟨h, -⟩)
    · exact eval_prune_of_eval h
    · exact h
  · intro h
    cases heval : eval v t with
    | true => exact .inl rfl
    | false => exact .inr ⟨h, rfl⟩

theorem restHoldsAll_eq {clause : Option (List (ClauseTree α))}
    (ih : ∀ ts ∈ clause, ∀ t ∈ ts,
      (loosened v t = true ↔ eval v t.prune = true ∧ eval v t = false)) :
    restHoldsAll v clause = evalAll v (pruneClause clause) := by
  rw [Bool.eq_iff_iff, restHoldsAll_iff, evalAll_pruneClause]
  refine forall₂_congr fun ts hts => and_congr ?_ ?_
  · constructor
    · rintro ⟨t, ht, hgood⟩
      exact List.ne_nil_of_mem (mem_pruneChildren.mpr ⟨t, ht, hgood, rfl⟩)
    · intro hne
      obtain ⟨_, hmem⟩ := List.exists_mem_of_ne_nil _ hne
      obtain ⟨t, ht, hgood, -⟩ := mem_pruneChildren.mp hmem
      exact ⟨t, ht, hgood⟩
  · exact forall₂_congr fun t ht => imp_congr_right fun _ => holds_or_loosened_iff (ih ts hts t ht)

theorem restHoldsAny_eq {clause : Option (List (ClauseTree α))}
    (ih : ∀ ts ∈ clause, ∀ t ∈ ts,
      (loosened v t = true ↔ eval v t.prune = true ∧ eval v t = false)) :
    restHoldsAny v clause = evalAny v (pruneClause clause) := by
  rw [Bool.eq_iff_iff, restHoldsAny_iff, evalAny_pruneClause]
  refine forall₂_congr fun ts hts => exists_congr fun t => and_congr_right fun ht => ?_
  rw [holds_or_loosened_iff (ih ts hts t ht)]
  exact ⟨fun h => ⟨isMalformed_of_eval_prune h, h⟩, And.right⟩

/-- **A tree is loosened when it holds pruned and not as it stands.** -/
theorem loosened_iff {t : ClauseTree α} :
    loosened v t = true ↔ eval v t.prune = true ∧ eval v t = false := by
  induction t using children_induction with
  | leaf a =>
    refine iff_of_false nofun ?_
    rintro ⟨hpruned, hnot⟩
    cases hpruned.symm.trans hnot
  | malformed => exact iff_of_false nofun nofun
  | group broken all any ihall ihany =>
    have hpruned : eval v (prune (group broken all any)) =
        ((all.isSome || any.isSome) && (restHoldsAll v all && restHoldsAny v any)) := by
      rw [prune, eval, pruneClause_eq_map, pruneClause_eq_map, Option.isSome_map,
        Option.isSome_map, ← pruneClause_eq_map, ← pruneClause_eq_map, restHoldsAll_eq ihall,
        restHoldsAny_eq ihany]
      rfl
    rw [loosened, Bool.and_eq_true, ← hpruned]
    refine and_congr_right fun hholds => ?_
    obtain ⟨hthere, hevery, hsome⟩ := eval_prune_group.mp hholds
    rw [Bool.or_eq_true, Bool.or_eq_true, losesAll_iff, losesAny_iff, ← Bool.not_eq_true (eval v _),
      eval, Bool.and_eq_true, Bool.and_eq_true, Bool.and_eq_true, Bool.or_eq_true, evalAll_iff,
      evalAny_iff]
    constructor
    · -- Whatever was left out, the group does not hold with it.
      rintro (hbroken | ⟨ts, hts, t, ht, hlost⟩ | ⟨ts, hts, hnone⟩) ⟨hwhole, -, hheld, hone⟩
      · rw [hbroken] at hwhole
        cases hwhole
      · have heval := (hheld ts hts).2 t ht
        rcases hlost with hbad | hloose
        · cases hbad.symm.trans (isMalformed_of_eval heval)
        · cases heval.symm.trans ((ihall ts hts t ht).mp hloose).2
      · obtain ⟨t, ht, heval⟩ := hone ts hts
        cases heval.symm.trans (hnone t ht)
    · -- And if nothing was, it holds.
      intro hnot
      by_contra hkept
      push Not at hkept
      obtain ⟨hwhole, hlost, hone⟩ := hkept
      refine hnot ⟨by simpa using hwhole, hthere, fun ts hts => ⟨?_, fun t ht => ?_⟩,
        fun ts hts => ?_⟩
      · -- A clause that keeps a child has one.
        rintro rfl
        exact (hevery [] hts).1 rfl
      · obtain ⟨hgood, hloose⟩ := hlost ts hts t ht
        have hheld := (hevery ts hts).2 t ht (Bool.eq_false_iff.mpr hgood)
        exact ((holds_or_loosened_iff (ihall ts hts t ht)).mpr hheld).resolve_right hloose
      · obtain ⟨t, ht, heval⟩ := hone ts hts
        exact ⟨t, ht, by simpa using heval⟩

/-- **Pruning is right exactly where it does not loosen.** -/
theorem eval_prune_eq_iff (t : ClauseTree α) :
    eval v t.prune = eval v t ↔ loosened v t = false := by
  rw [← Bool.not_eq_true (loosened v t), loosened_iff]
  constructor
  · rintro heq ⟨hpruned, hnot⟩
    cases (heq ▸ hpruned).symm.trans hnot
  · intro hnot
    cases heval : eval v t with
    | true => exact eval_prune_of_eval heval
    | false =>
      rw [Bool.eq_false_iff]
      exact fun hpruned => hnot ⟨hpruned, heval⟩

end ClauseTree
end Framework
