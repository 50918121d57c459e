import Mathlib.Algebra.Order.Floor.Ring
import Mathlib.Data.Rat.Floor
import EmailOps.Framework.WorkerPool

/-!
# Mapping items with bounded concurrency

The endpoints that read every mailbox of a workspace map over the mailboxes with so many
requests under way at most. Some workers share a cursor of the items; a worker awaits the
callback for its item and files the result, or the reason of a rejection, in the slot of the
item.

* `cap` is how many workers there are, for any number that is asked for.
* `mapWithConcurrency` is the fan-out, as workers at a shared counter. A callback may end at
  any time, in any order, and with any outcome.
* `fanned_of_exec`: what holds in every state of every run.
-/

namespace EmailOps
namespace Common

open Framework Framework.WorkerPool

/-- A number as a caller may give it. -/
inductive JsNumber
  | nan
  | negInf
  | posInf
  | finite (q : ℚ)

/-- `Math.trunc` of a finite number. -/
def trunc (q : ℚ) : ℤ :=
  if 0 ≤ q then ⌊q⌋ else ⌈q⌉

/-- `Math.max(1, Math.min(Math.trunc(limit) || 1, n))` -/
def cap (limit : JsNumber) (n : ℕ) : ℕ :=
  match limit with
  | .nan => max 1 (min 1 n)
  | .negInf => 1
  | .posInf => max 1 n
  | .finite q =>
    let whole := if trunc q = 0 then 1 else trunc q
    (max 1 (min whole n)).toNat

/-- The workers that are started: none where there is no item. -/
def workers (limit : JsNumber) (n : ℕ) : ℕ :=
  if n = 0 then 0 else cap limit n

/-- A slot of the results. -/
inductive Settled (R E : Type*)
  | fulfilled (value : R)
  | rejected (reason : E)
  deriving DecidableEq

variable {T R E : Type*}

/-- The state of a call of `mapWithConcurrency`. -/
abbrev Fan (R E : Type*) (items : List T) (limit : JsNumber) :=
  WorkerPool.State (Fin (workers limit items.length)) (Settled R E)

/-- `mapWithConcurrency`: each worker goes on until it finds no item left. What a callback
throws is caught where it is awaited, so that no worker fails. -/
def mapWithConcurrency (R E : Type*) (items : List T) (limit : JsNumber) :
    System (Fan R E items limit)
      (WorkerPool.Label (Fin (workers limit items.length)) (Settled R E)) :=
  WorkerPool.system _ _ items.length

/-- The arguments the callback was called with: an item and its index. -/
def passed {items : List T} {limit : JsNumber} (s : Fan R E items limit) : List (T × ℕ) :=
  s.calls.filterMap fun i => items[i]?.map (·, i)

/-! ### The cap -/

theorem one_le_cap (limit : JsNumber) (n : ℕ) : 1 ≤ cap limit n := by
  unfold cap
  split <;> simp only [le_max_left, le_refl]
  omega

/-- The cap is within a limit that is at least one. -/
theorem cap_le {k : ℕ} (hk : 1 ≤ k) {q : ℚ} (hq : q ≤ k) (n : ℕ) : cap (.finite q) n ≤ k := by
  have htrunc : trunc q ≤ k := by
    unfold trunc
    split
    · exact Int.floor_le_iff.mpr (by push_cast; linarith)
    · exact Int.ceil_le.mpr (by exact_mod_cast hq)
  unfold cap
  dsimp only
  split <;> omega

theorem workers_le_cap (limit : JsNumber) (n : ℕ) : workers limit n ≤ cap limit n := by
  unfold workers
  split
  · exact Nat.zero_le _
  · exact le_rfl

/-! ### Every run -/

/-- What is expected of a call at any time. -/
structure Fanned (items : List T) (limit : JsNumber) (s : Fan R E items limit) : Prop where
  /-- The items are passed on once each, with their own indices. -/
  passed : passed s <+: items.zipIdx
  /-- A callback ends once. -/
  once : (s.settled.map Prod.fst).Nodup
  /-- A slot has the outcome of the callback for its own item. -/
  own : ∀ i r, s.results i = some r ↔ (i, r) ∈ s.settled
  capped : (inFlight s).length ≤ cap limit items.length
  withinLimit : ∀ (k : ℕ) (q : ℚ), 1 ≤ k → limit = .finite q → q ≤ k → (inFlight s).length ≤ k
  /-- Once the workers have returned, every item was passed on, and every slot is filled. -/
  complete : Returned s → Common.passed s = items.zipIdx ∧
    ∀ i < items.length, ∃ r, s.results i = some r
  /-- Until then a worker goes on, or waits for a callback that may end as it likes. -/
  goesOn : ¬ Returned s → ∃ w, ((mapWithConcurrency R E items limit).step s (.next w)).isSome ∨
    ∀ r, ((mapWithConcurrency R E items limit).step s (.settle w r)).isSome

theorem filterMap_range (items : List T) {m : ℕ} (h : m ≤ items.length) :
    (List.range m).filterMap (fun i => items[i]?.map (·, i)) = items.zipIdx.take m := by
  induction m with
  | zero => simp
  | succ m ih =>
    rw [List.range_succ, List.filterMap_append, ih (Nat.le_of_succ_le h), List.take_add_one,
      List.getElem?_zipIdx, Nat.zero_add]
    congr 1

variable {items : List T} {limit : JsNumber} {s : Fan R E items limit}

theorem passed_of_calls {m : ℕ} (h : s.calls = List.range m) (hm : m ≤ items.length) :
    passed s = items.zipIdx.take m := by
  rw [passed, h, filterMap_range items hm]

theorem fanned_of_inv (h : Inv items.length s) : Fanned items limit s := by
  have hpassed := passed_of_calls h.calls (min_le_right _ _)
  have hinFlight : (inFlight s).length ≤ cap limit items.length := by
    refine (inFlight_le h).trans ?_
    rw [Fintype.card_fin]
    exact workers_le_cap limit items.length
  exact
    { passed := hpassed ▸ List.take_prefix _ _
      once := h.nodup
      own := h.filed
      capped := hinFlight
      withinLimit := fun k q hk hlimit hq => by
        subst hlimit
        exact hinFlight.trans (cap_le hk hq _)
      complete := fun hreturned => by
        rcases Nat.eq_zero_or_pos items.length with hzero | hpos
        · refine ⟨?_, fun i hi => absurd hi (by omega)⟩
          rw [hpassed, List.take_of_length_le]
          rw [List.length_zipIdx]
          omega
        · have hworkers : 0 < workers limit items.length := by
            rw [workers, if_neg hpos.ne']
            exact one_le_cap limit items.length
          have : Nonempty (Fin (workers limit items.length)) := ⟨⟨0, hworkers⟩⟩
          obtain ⟨hcalls, hfiled⟩ := filed_of_returned h hreturned
          refine ⟨?_, hfiled⟩
          rw [passed_of_calls hcalls le_rfl]
          exact List.take_of_length_le (by simp)
      goesOn := enabled_of_not_returned items.length }

/-- **The fan-out**, for every list of items, every limit, and every order in which the
callbacks end, and with whatever outcomes: the call is as expected at any time, and it takes
two steps an item and one a worker at the most. -/
theorem fanned_of_exec
    {ls : List (WorkerPool.Label (Fin (workers limit items.length)) (Settled R E))}
    (h : (mapWithConcurrency R E items limit).exec (WorkerPool.initial _ _) ls = some s) :
    Fanned items limit s ∧ ls.length ≤ 2 * items.length + cap limit items.length := by
  refine ⟨fanned_of_inv (inv_of_reachable (System.exec_reachable rfl h)), ?_⟩
  have hle := length_exec_le h
  have hstart : remaining items.length
      (WorkerPool.initial (Fin (workers limit items.length)) (Settled R E)) =
      2 * items.length + workers limit items.length := by
    simp [remaining, WorkerPool.initial, Phase.weight]
  have hworkers := workers_le_cap limit items.length
  omega

/-- One of the two workers of three items. -/
def workerOf (w : Fin 2) : Fin (workers (.finite 2) ['a', 'b', 'c'].length) :=
  ⟨w, lt_of_lt_of_le w.isLt (by decide +kernel)⟩

/-- The callback for the second item is rejected first, the third item ends before the
first. -/
def threeItems : List (WorkerPool.Label (Fin (workers (.finite 2) ['a', 'b', 'c'].length))
    (Settled ℕ String)) :=
  [.next (workerOf 0), .next (workerOf 1), .settle (workerOf 1) (.rejected "boom"),
    .next (workerOf 1), .settle (workerOf 1) (.fulfilled 7), .settle (workerOf 0) (.fulfilled 5),
    .next (workerOf 0), .next (workerOf 1)]

theorem fanned_threeItems :
    ∃ s : Fan ℕ String ['a', 'b', 'c'] (.finite 2), Fanned ['a', 'b', 'c'] (.finite 2) s ∧
      (List.range 3).map s.results =
        [some (.fulfilled 5), some (.rejected "boom"), some (.fulfilled 7)] := by
  have hrun : ((mapWithConcurrency ℕ String ['a', 'b', 'c'] (.finite 2)).exec
      (WorkerPool.initial _ _) threeItems).isSome = true := by decide +kernel
  exact ⟨_, (fanned_of_exec (Option.some_get hrun).symm).1, by decide +kernel +revert⟩

end Common
end EmailOps
