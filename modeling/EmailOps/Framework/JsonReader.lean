import Mathlib.Algebra.BigOperators.Group.List.Basic
import Mathlib.Algebra.GroupWithZero.Nat
import Mathlib.Data.List.Chain
import Mathlib.Order.Defs.Unbundled
import EmailOps.Framework.JsonTokens
import EmailOps.Framework.Utf16

/-!
# Reading JSON

A machine reads the tokens of a JSON text. It holds what has been opened and not closed in frames,
and builds values as the frames are closed.

* `Reader` says what values are made of. Fields are put into an object by `insert`, which may
  refuse, so that one reader lets the last field of a name win, and another wants no name twice.
* `step` reads a token, `run` the tokens of a text.
* `run_value_cases`: what is read is a string, a word, or what is between two brackets that match.
  `opens_lt_closes`: a proper end of it closes more than it opens.
* `Weight.run`: a weight of texts is carried over to what is read.
-/

namespace Framework
namespace JsonText

open Text

variable {V : Type*}

/-! ### The machine -/

/-- How values are made. -/
structure Reader (V : Type*) where
  word : Text → Option V
  /-- The text that is written in a literal. -/
  literal : Text → Option Text
  str : Text → V
  arr : List V → V
  obj : List (Text × V) → V
  insert : List (Text × V) → Text → V → Option (List (Text × V))

/-- What is open around a value: an array with its items so far, or an object with its fields so
far and the name of the value. -/
inductive Frame (V : Type*) where
  | arr (items : List V)
  | obj (fields : List (Text × V)) (name : Text)

/-- What was read last, and what is open around it. -/
inductive State (V : Type*) where
  | value (st : List (Frame V))
  | arrStart (st : List (Frame V))
  | arrNext (items : List V) (st : List (Frame V))
  | objStart (st : List (Frame V))
  | objName (fields : List (Text × V)) (st : List (Frame V))
  | objColon (fields : List (Text × V)) (name : Text) (st : List (Frame V))
  | objNext (fields : List (Text × V)) (st : List (Frame V))
  | done (v : V)

namespace Reader

variable (R : Reader V)

/-- A value is complete. -/
def complete (v : V) : List (Frame V) → Option (State V)
  | [] => some (.done v)
  | .arr items :: st => some (.arrNext (items ++ [v]) st)
  | .obj fields name :: st => (R.insert fields name v).map (.objNext · st)

/-- A value begins. -/
def start (st : List (Frame V)) : Token → Option (State V)
  | .opening .array => some (.arrStart st)
  | .opening .object => some (.objStart st)
  | .str raw => (R.literal raw).bind fun x => R.complete (R.str x) st
  | .word t => (R.word t).bind fun v => R.complete v st
  | _ => none

/-- The name of a field comes. -/
def name (fields : List (Text × V)) (st : List (Frame V)) : Token → Option (State V)
  | .str raw => (R.literal raw).map (.objColon fields · st)
  | _ => none

def step : State V → Token → Option (State V)
  | .value st, tok => R.start st tok
  | .arrStart st, .closing .array => R.complete (R.arr []) st
  | .arrStart st, tok => R.start (.arr [] :: st) tok
  | .arrNext items st, .comma => some (.value (.arr items :: st))
  | .arrNext items st, .closing .array => R.complete (R.arr items) st
  | .arrNext _ _, _ => none
  | .objStart st, .closing .object => R.complete (R.obj []) st
  | .objStart st, tok => R.name [] st tok
  | .objName fields st, tok => R.name fields st tok
  | .objColon fields name st, .colon => some (.value (.obj fields name :: st))
  | .objColon _ _ _, _ => none
  | .objNext fields st, .comma => some (.objName fields st)
  | .objNext fields st, .closing .object => R.complete (R.obj fields) st
  | .objNext _ _, _ => none
  | .done _, _ => none

def run : State V → List Token → Option V
  | .done v, [] => some v
  | _, [] => none
  | s, tok :: ts => (R.step s tok).bind (run · ts)

/-- What is read of a text. -/
def read (t : Text) : Option V :=
  (tokens t).bind (R.run (.value []))

variable {R}

/-- The steps of the machine, one by one. -/
inductive Step (R : Reader V) : State V → Token → State V → Prop where
  | value {st tok s'} : R.start st tok = some s' → Step R (.value st) tok s'
  | item {st tok s'} : R.start (.arr [] :: st) tok = some s' → Step R (.arrStart st) tok s'
  | firstName {st tok s'} : R.name [] st tok = some s' → Step R (.objStart st) tok s'
  | name {fields st tok s'} : R.name fields st tok = some s' → Step R (.objName fields st) tok s'
  | emptyArr {st s'} :
      R.complete (R.arr []) st = some s' → Step R (.arrStart st) (.closing .array) s'
  | arr {items st s'} :
      R.complete (R.arr items) st = some s' → Step R (.arrNext items st) (.closing .array) s'
  | emptyObj {st s'} :
      R.complete (R.obj []) st = some s' → Step R (.objStart st) (.closing .object) s'
  | obj {fields st s'} :
      R.complete (R.obj fields) st = some s' → Step R (.objNext fields st) (.closing .object) s'
  | commaArr {items st} : Step R (.arrNext items st) .comma (.value (.arr items :: st))
  | commaObj {fields st} : Step R (.objNext fields st) .comma (.objName fields st)
  | colon {fields name st} :
      Step R (.objColon fields name st) .colon (.value (.obj fields name :: st))

theorem step_cases {s s' : State V} {tok : Token} (h : R.step s tok = some s') :
    Step R s tok s' := by
  unfold step at h
  split at h
  · exact .value h
  · exact .emptyArr h
  · exact .item h
  · obtain rfl := Option.some.inj h
    exact .commaArr
  · exact .arr h
  · cases h
  · exact .emptyObj h
  · exact .firstName h
  · exact .name h
  · obtain rfl := Option.some.inj h
    exact .colon
  · cases h
  · obtain rfl := Option.some.inj h
    exact .commaObj
  · exact .obj h
  · cases h
  · cases h

theorem run_cons (s : State V) (tok : Token) (ts : List Token) :
    R.run s (tok :: ts) = (R.step s tok).bind (R.run · ts) := by
  cases s <;> rfl

theorem exists_of_run_cons {s : State V} {tok : Token} {ts : List Token} {v : V}
    (h : R.run s (tok :: ts) = some v) :
    ∃ s', R.step s tok = some s' ∧ R.run s' ts = some v := by
  rwa [run_cons, Option.bind_eq_some_iff] at h

theorem eq_done_of_run_nil {s : State V} {v : V} (h : R.run s [] = some v) : s = .done v := by
  cases s with
  | done w => rw [Option.some.inj h]
  | _ => cases h

/-- Nothing is read after a value. -/
theorem run_done {v w : V} {ts : List Token} (h : R.run (.done v) ts = some w) :
    ts = [] ∧ w = v := by
  cases ts with
  | nil => exact ⟨rfl, (Option.some.inj h).symm⟩
  | cons tok ts => cases h

/-- What is read is read to its end. -/
theorem eq_nil_of_run_append {s : State V} {ts us : List Token} {v w : V}
    (h : R.run s ts = some v) (happend : R.run s (ts ++ us) = some w) : us = [] := by
  induction ts generalizing s with
  | nil =>
    rw [eq_done_of_run_nil h] at happend
    exact (run_done happend).1
  | cons tok ts ih =>
    obtain ⟨s', hs', hrun⟩ := exists_of_run_cons h
    rw [List.cons_append, run_cons, hs', Option.bind_some] at happend
    exact ih hrun happend

end Reader

/-! ### What is open -/

def Frame.kind : Frame V → Kind
  | .arr _ => .array
  | .obj _ _ => .object

/-- What is open, from the inside. -/
def State.path : State V → List Kind
  | .value st => st.map Frame.kind
  | .arrStart st | .arrNext _ st => .array :: st.map Frame.kind
  | .objStart st | .objName _ st | .objColon _ _ st | .objNext _ st =>
    .object :: st.map Frame.kind
  | .done _ => []

/-- What a token opens or closes. -/
def Token.Moves : Token → List Kind → List Kind → Prop
  | .opening k, p, q => q = k :: p
  | .closing k, p, q => p = k :: q
  | _, p, q => q = p

/-- A value is one of the kind. -/
def Reader.Is (R : Reader V) : Kind → V → Prop
  | .array, v => ∃ items, v = R.arr items
  | .object, v => ∃ fields, v = R.obj fields

namespace Reader

variable {R : Reader V}

theorem path_of_complete {v : V} {st : List (Frame V)} {s : State V}
    (h : R.complete v st = some s) :
    s.path = st.map Frame.kind ∧ (s.path = [] → s = .done v) := by
  cases st with
  | nil =>
    obtain rfl := Option.some.inj h
    exact ⟨rfl, fun _ => rfl⟩
  | cons frame st =>
    cases frame with
    | arr items =>
      obtain rfl := Option.some.inj h
      exact ⟨rfl, fun hnil => by cases hnil⟩
    | obj fields name =>
      obtain ⟨fields', -, rfl⟩ := Option.map_eq_some_iff.mp h
      exact ⟨rfl, fun hnil => by cases hnil⟩

theorem moves_of_start {st : List (Frame V)} {tok : Token} {s : State V}
    (h : R.start st tok = some s) :
    tok.Moves (st.map Frame.kind) s.path ∧ (s.path = [] → ∃ v, s = .done v) := by
  cases tok with
  | opening k =>
    cases k <;> obtain rfl := Option.some.inj h <;> exact ⟨rfl, fun hnil => by cases hnil⟩
  | str raw =>
    obtain ⟨x, -, hx⟩ := Option.bind_eq_some_iff.mp h
    exact ⟨(path_of_complete hx).1, fun hnil => ⟨_, (path_of_complete hx).2 hnil⟩⟩
  | word t =>
    obtain ⟨v, -, hv⟩ := Option.bind_eq_some_iff.mp h
    exact ⟨(path_of_complete hv).1, fun hnil => ⟨_, (path_of_complete hv).2 hnil⟩⟩
  | _ => cases h

theorem exists_of_name {fields : List (Text × V)} {st : List (Frame V)} {tok : Token} {s : State V}
    (h : R.name fields st tok = some s) :
    ∃ raw x, tok = .str raw ∧ R.literal raw = some x ∧ s = .objColon fields x st := by
  cases tok with
  | str raw =>
    obtain ⟨x, hx, rfl⟩ := Option.map_eq_some_iff.mp h
    exact ⟨raw, x, rfl, hx, rfl⟩
  | _ => cases h

/-- **A token opens or closes what it says**, and when nothing is open any more, that is all. -/
theorem moves_of_step {s s' : State V} {tok : Token} (h : R.step s tok = some s') :
    tok.Moves s.path s'.path ∧ (s'.path = [] → ∃ v, s' = .done v) := by
  cases step_cases h with
  | value h | item h => exact moves_of_start h
  | firstName h | name h =>
    obtain ⟨raw, x, rfl, -, rfl⟩ := exists_of_name h
    exact ⟨rfl, fun hnil => by cases hnil⟩
  | emptyArr h | arr h | emptyObj h | obj h =>
    refine ⟨?_, fun hnil => ⟨_, (path_of_complete h).2 hnil⟩⟩
    rw [(path_of_complete h).1]
    rfl
  | commaArr | commaObj | colon => exact ⟨rfl, fun hnil => by cases hnil⟩

/-! ### Opening and closing -/

def opens (ts : List Token) : ℕ :=
  (ts.map Token.opens).sum

def closes (ts : List Token) : ℕ :=
  (ts.map Token.closes).sum

theorem length_of_moves {tok : Token} {p q : List Kind} (h : tok.Moves p q) :
    p.length + tok.opens = q.length + tok.closes := by
  cases tok <;> obtain rfl := h <;> simp [Token.opens, Token.closes]

/-- What is open is closed in the end. -/
theorem opens_add_length {s : State V} {ts : List Token} {v : V} (h : R.run s ts = some v) :
    opens ts + s.path.length = closes ts := by
  induction ts generalizing s with
  | nil =>
    rw [eq_done_of_run_nil h]
    rfl
  | cons tok ts ih =>
    obtain ⟨s', hs', hrun⟩ := exists_of_run_cons h
    have hlength := length_of_moves (moves_of_step hs').1
    have hrest := ih hrun
    simp only [opens, closes, List.map_cons, List.sum_cons] at hrest ⊢
    omega

/-- **A proper end closes more than it opens.** -/
theorem opens_lt_closes {s : State V} {ts us : List Token} {v : V} (h : R.run s (ts ++ us) = some v)
    (hts : ts ≠ []) (hus : us ≠ []) : opens us < closes us := by
  induction ts generalizing s with
  | nil => exact absurd rfl hts
  | cons tok ts ih =>
    obtain ⟨s', hs', hrun⟩ := exists_of_run_cons h
    cases ts with
    | cons tok' ts => exact ih hrun (List.cons_ne_nil _ _)
    | nil =>
      change R.run s' us = some v at hrun
      have hopen : s'.path ≠ [] := by
        intro hnil
        obtain ⟨w, rfl⟩ := (moves_of_step hs').2 hnil
        exact hus (run_done hrun).1
      have hsum := opens_add_length hrun
      have hpos := List.length_pos_iff.mpr hopen
      omega

/-! ### What is read -/

/-- The last bracket that closes says what is read. -/
theorem is_of_done {s : State V} {k : Kind} {v : V} (h : R.step s (.closing k) = some (.done v)) :
    R.Is k v := by
  have hdone : ∀ {w : V} {st : List (Frame V)}, R.complete w st = some (.done v) → w = v := by
    intro w st hw
    have heq := (path_of_complete hw).2 rfl
    cases heq
    rfl
  cases step_cases h with
  | value h => cases h
  | item h => cases h
  | firstName h => cases h
  | name h => cases h
  | emptyArr h => exact ⟨_, (hdone h).symm⟩
  | arr h => exact ⟨_, (hdone h).symm⟩
  | emptyObj h => exact ⟨_, (hdone h).symm⟩
  | obj h => exact ⟨_, (hdone h).symm⟩

/-- What is open outermost is what is read, and its bracket comes last. -/
theorem is_of_run {s : State V} {ts : List Token} {v : V} {p : List Kind} {k : Kind}
    (h : R.run s ts = some v) (hpath : s.path = p ++ [k]) :
    R.Is k v ∧ ∃ ts', ts = ts' ++ [.closing k] := by
  induction ts generalizing s p with
  | nil =>
    rw [eq_done_of_run_nil h] at hpath
    cases p <;> cases hpath
  | cons tok ts ih =>
    obtain ⟨s', hs', hrun⟩ := exists_of_run_cons h
    obtain ⟨hmoves, hdone⟩ := moves_of_step hs'
    rw [hpath] at hmoves
    have hlater : ∀ p', s'.path = p' ++ [k] →
        R.Is k v ∧ ∃ ts', tok :: ts = ts' ++ [.closing k] := by
      intro p' hp'
      obtain ⟨his, ts', rfl⟩ := ih hrun hp'
      exact ⟨his, tok :: ts', rfl⟩
    cases tok with
    | opening k' => exact hlater (k' :: p) hmoves
    | closing k' =>
      cases p with
      | nil =>
        obtain ⟨rfl, hnil⟩ := List.cons.inj hmoves
        obtain ⟨w, rfl⟩ := hdone hnil.symm
        obtain ⟨rfl, rfl⟩ := run_done hrun
        exact ⟨is_of_done hs', [], rfl⟩
      | cons k'' p => exact hlater p (List.cons.inj hmoves).2.symm
    | _ => exact hlater p hmoves

/-- **What is read**: something between brackets, a string or a word. -/
theorem run_value_cases {ts : List Token} {v : V} (h : R.run (.value []) ts = some v) :
    (∃ k ts', ts = .opening k :: (ts' ++ [.closing k]) ∧ R.Is k v) ∨
      (∃ raw x, ts = [.str raw] ∧ R.literal raw = some x ∧ v = R.str x) ∨
      ∃ t, ts = [.word t] ∧ R.word t = some v := by
  cases ts with
  | nil => cases h
  | cons tok ts =>
    obtain ⟨s', hs', hrun⟩ := exists_of_run_cons h
    change R.start [] tok = some s' at hs'
    cases tok with
    | opening k =>
      have hpath : s'.path = [] ++ [k] := (moves_of_start hs').1
      obtain ⟨his, ts', rfl⟩ := is_of_run hrun hpath
      exact .inl ⟨k, ts', rfl, his⟩
    | str raw =>
      obtain ⟨x, hx, hs'⟩ := Option.bind_eq_some_iff.mp hs'
      obtain rfl := Option.some.inj hs'
      obtain ⟨rfl, rfl⟩ := run_done hrun
      exact .inr (.inl ⟨raw, x, rfl, hx, rfl⟩)
    | word t =>
      obtain ⟨w, hw, hs'⟩ := Option.bind_eq_some_iff.mp hs'
      obtain rfl := Option.some.inj hs'
      obtain ⟨rfl, rfl⟩ := run_done hrun
      exact .inr (.inr ⟨t, rfl, hw⟩)
    | _ => cases hs'

/-- No bracket closes after a comma. -/
theorem isChain_of_run {s : State V} {ts : List Token} {v : V} (h : R.run s ts = some v) :
    ts.IsChain fun tok tok' => tok = .comma → ∀ k, tok' ≠ .closing k := by
  induction ts generalizing s with
  | nil => exact List.isChain_nil
  | cons tok ts ih =>
    obtain ⟨s', hs', hrun⟩ := exists_of_run_cons h
    cases ts with
    | nil => exact List.isChain_singleton _
    | cons tok' ts =>
      refine List.isChain_cons_cons.mpr ⟨?_, ih hrun⟩
      rintro rfl k rfl
      obtain ⟨s'', hs'', -⟩ := exists_of_run_cons hrun
      cases step_cases hs' with
      | value h => cases h
      | item h => cases h
      | firstName h => cases h
      | name h => cases h
      | commaArr => cases hs''
      | commaObj => cases hs''

/-- The literals of what is read can be read. -/
theorem exists_literal_of_run {s : State V} {ts : List Token} {v : V} (h : R.run s ts = some v)
    {raw : Text} (hraw : Token.str raw ∈ ts) : ∃ x, R.literal raw = some x := by
  induction ts generalizing s with
  | nil => exact absurd hraw List.not_mem_nil
  | cons tok ts ih =>
    obtain ⟨s', hs', hrun⟩ := exists_of_run_cons h
    cases List.mem_cons.mp hraw with
    | inr hlater => exact ih hrun hlater
    | inl heq =>
      subst heq
      cases step_cases hs' with
      | value h | item h =>
        obtain ⟨x, hx, -⟩ := Option.bind_eq_some_iff.mp h
        exact ⟨x, hx⟩
      | firstName h | name h =>
        obtain ⟨x, hx, -⟩ := Option.map_eq_some_iff.mp h
        exact ⟨x, hx⟩

/-! ### Readers that differ in objects -/

/-- A reader with another way to put fields into an object. -/
abbrev withInsert (R : Reader V)
    (insert : List (Text × V) → Text → V → Option (List (Text × V))) : Reader V :=
  { R with insert := insert }

variable {insert : List (Text × V) → Text → V → Option (List (Text × V))}

section Mono

variable (hinsert : ∀ fields name v fields', R.insert fields name v = some fields' →
  insert fields name v = some fields')

include hinsert

theorem complete_mono {v : V} {st : List (Frame V)} {s : State V}
    (h : R.complete v st = some s) : (R.withInsert insert).complete v st = some s := by
  cases st with
  | nil => exact h
  | cons frame st =>
    cases frame with
    | arr items => exact h
    | obj fields name =>
      obtain ⟨fields', hfields', rfl⟩ := Option.map_eq_some_iff.mp h
      exact Option.map_eq_some_iff.mpr ⟨fields', hinsert _ _ _ _ hfields', rfl⟩

theorem start_mono {st : List (Frame V)} {tok : Token} {s : State V}
    (h : R.start st tok = some s) : (R.withInsert insert).start st tok = some s := by
  cases tok with
  | opening k => cases k <;> exact h
  | str raw =>
    obtain ⟨x, hx, hs⟩ := Option.bind_eq_some_iff.mp h
    exact Option.bind_eq_some_iff.mpr ⟨x, hx, complete_mono hinsert hs⟩
  | word t =>
    obtain ⟨v, hv, hs⟩ := Option.bind_eq_some_iff.mp h
    exact Option.bind_eq_some_iff.mpr ⟨v, hv, complete_mono hinsert hs⟩
  | _ => cases h

theorem step_mono {s s' : State V} {tok : Token} (h : R.step s tok = some s') :
    (R.withInsert insert).step s tok = some s' := by
  cases step_cases h with
  | value h => exact start_mono hinsert h
  | item h =>
    have hstart := start_mono hinsert h
    cases tok with
    | closing k => cases h
    | _ => exact hstart
  | firstName h | name h =>
    obtain ⟨raw, x, rfl, hx, rfl⟩ := exists_of_name h
    exact Option.map_eq_some_iff.mpr ⟨x, hx, rfl⟩
  | emptyArr h | arr h | emptyObj h | obj h => exact complete_mono hinsert h
  | commaArr | commaObj | colon => rfl

/-- A reader that refuses more reads the same. -/
theorem run_mono {s : State V} {ts : List Token} {v : V} (h : R.run s ts = some v) :
    (R.withInsert insert).run s ts = some v := by
  induction ts generalizing s with
  | nil =>
    rw [eq_done_of_run_nil h]
    rfl
  | cons tok ts ih =>
    obtain ⟨s', hs', hrun⟩ := exists_of_run_cons h
    rw [run_cons, step_mono hinsert hs', Option.bind_some]
    exact ih hrun

end Mono

end Reader

/-! ### Weights -/

/-- A weight of texts, and of the values that have them. -/
structure Weight (R : Reader V) where
  text : Text → ℕ
  of : V → ℕ
  of_str : ∀ x, of (R.str x) = text x
  of_word : ∀ t v, R.word t = some v → of v = 0
  of_arr : ∀ items, of (R.arr items) = (items.map of).sum
  of_obj : ∀ fields, of (R.obj fields) = (fields.map fun f => text f.1 + of f.2).sum

namespace Weight

variable {R : Reader V} (W : Weight R)

def items (items : List V) : ℕ :=
  (items.map W.of).sum

def fields (fields : List (Text × V)) : ℕ :=
  (fields.map fun f => W.text f.1 + W.of f.2).sum

def frame : Frame V → ℕ
  | .arr items => W.items items
  | .obj fields name => W.fields fields + W.text name

def stack (st : List (Frame V)) : ℕ :=
  (st.map W.frame).sum

def state : State V → ℕ
  | .value st | .arrStart st | .objStart st => W.stack st
  | .arrNext items st => W.items items + W.stack st
  | .objName fields st | .objNext fields st => W.fields fields + W.stack st
  | .objColon fields name st => W.fields fields + W.text name + W.stack st
  | .done v => W.of v

/-- The weight of what is written in a literal. -/
def token : Token → ℕ
  | .str raw => ((R.literal raw).map W.text).getD 0
  | _ => 0

def tokens (ts : List Token) : ℕ :=
  (ts.map W.token).sum

/-- What fields weigh that are put into an object. -/
def Inserts (rel : ℕ → ℕ → Prop) : Prop :=
  ∀ fields name v fields', R.insert fields name v = some fields' →
    rel (W.fields fields') (W.fields fields + W.text name + W.of v)

theorem token_str {raw x : Text} (h : R.literal raw = some x) :
    W.token (.str raw) = W.text x := by
  simp only [token, h, Option.map_some, Option.getD_some]

section

variable {W} {rel : ℕ → ℕ → Prop} [IsPreorder ℕ rel]
  (hadd : ∀ a b c, rel a b → rel (a + c) (b + c)) (hinserts : W.Inserts rel)

include hadd hinserts

theorem complete {v : V} {st : List (Frame V)} {s : State V} (h : R.complete v st = some s) :
    rel (W.state s) (W.of v + W.stack st) := by
  cases st with
  | nil =>
    obtain rfl := Option.some.inj h
    exact refl _
  | cons frame st =>
    cases frame with
    | arr items =>
      obtain rfl := Option.some.inj h
      have heq : W.state (.arrNext (items ++ [v]) st) = W.of v + W.stack (.arr items :: st) := by
        simp only [state, stack, Weight.items, Weight.frame, List.map_append, List.sum_append,
          List.map_cons, List.map_nil, List.sum_cons, List.sum_nil]
        omega
      rw [heq]
      exact refl _
    | obj fields name =>
      obtain ⟨fields', hfields', rfl⟩ := Option.map_eq_some_iff.mp h
      have hrel := hadd _ _ (W.stack st) (hinserts _ _ _ _ hfields')
      have heq : W.of v + W.stack (.obj fields name :: st) =
          W.fields fields + W.text name + W.of v + W.stack st := by
        simp only [stack, Weight.frame, List.map_cons, List.sum_cons]
        omega
      rw [heq]
      exact hrel

theorem start {st : List (Frame V)} {tok : Token} {s : State V} (h : R.start st tok = some s) :
    rel (W.state s) (W.stack st + W.token tok) := by
  cases tok with
  | opening k => cases k <;> obtain rfl := Option.some.inj h <;> exact refl _
  | str raw =>
    obtain ⟨x, hx, hs⟩ := Option.bind_eq_some_iff.mp h
    rw [W.token_str hx, ← W.of_str, Nat.add_comm]
    exact complete hadd hinserts hs
  | word t =>
    obtain ⟨v, hv, hs⟩ := Option.bind_eq_some_iff.mp h
    have hrel := complete hadd hinserts hs
    rwa [W.of_word t v hv, Nat.zero_add] at hrel
  | _ => cases h

theorem step {s s' : State V} {tok : Token} (h : R.step s tok = some s') :
    rel (W.state s') (W.state s + W.token tok) := by
  have hsame : ∀ {a b : ℕ}, a = b → rel a b := fun heq => heq ▸ refl _
  cases Reader.step_cases h with
  | value h => exact start hadd hinserts h
  | item h =>
    have hrel := start hadd hinserts h
    have hempty : ∀ st, W.stack (.arr [] :: st) = W.stack st := fun st => Nat.zero_add _
    rwa [hempty] at hrel
  | firstName h =>
    obtain ⟨raw, x, rfl, hx, rfl⟩ := Reader.exists_of_name h
    refine hsame ?_
    simp only [state, W.token_str hx, Weight.fields, List.map_nil, List.sum_nil]
    omega
  | name h =>
    obtain ⟨raw, x, rfl, hx, rfl⟩ := Reader.exists_of_name h
    refine hsame ?_
    simp only [state, W.token_str hx]
    omega
  | emptyArr h | arr h =>
    have hrel := complete hadd hinserts h
    rw [W.of_arr] at hrel
    first
      | exact hrel
      | rwa [List.map_nil, List.sum_nil, Nat.zero_add] at hrel
  | emptyObj h | obj h =>
    have hrel := complete hadd hinserts h
    rw [W.of_obj] at hrel
    first
      | exact hrel
      | rwa [List.map_nil, List.sum_nil, Nat.zero_add] at hrel
  | commaArr =>
    refine hsame ?_
    simp only [state, stack, Weight.frame, token, List.map_cons, List.sum_cons, Nat.add_zero]
  | commaObj => exact hsame rfl
  | colon =>
    refine hsame ?_
    simp only [state, stack, Weight.frame, token, List.map_cons, List.sum_cons, Nat.add_zero]

/-- **What is read weighs what is written.** -/
theorem run {s : State V} {ts : List Token} {v : V} (h : R.run s ts = some v) :
    rel (W.of v) (W.state s + W.tokens ts) := by
  induction ts generalizing s with
  | nil =>
    rw [Reader.eq_done_of_run_nil h]
    exact refl _
  | cons tok ts ih =>
    obtain ⟨s', hs', hrun⟩ := Reader.exists_of_run_cons h
    have hstep := hadd _ _ (W.tokens ts) (step hadd hinserts hs')
    rw [tokens, List.map_cons, List.sum_cons, ← Nat.add_assoc]
    exact IsTrans.trans _ _ _ (ih hrun) hstep

end

end Weight
end JsonText
end Framework
