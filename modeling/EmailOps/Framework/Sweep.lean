import Mathlib.Data.List.Sort

/-!
# Sweeps of a queue in bounded pages

A worker sweeps a queue, a page of `L` rows at a time. A row that is stuck stays where it
is; a row that the worker is done with leaves, or comes back behind all the others and is
stuck from then on. The stuck rows at the front take room on every page.

* `pass L stuck q` is the queue after one sweep, and `covered L stuck q k` the number of
  rows that `k` sweeps have got to: each sweep gets as much farther as its page is not
  taken by stuck rows it has got to before.
* `Swept.eq_pass` says that `k` sweeps are one pass of that length, and `drained_iff` when
  they have left nothing but stuck rows.

A queue is a sorted selection of the rows of a table. `filter_insertionSort` and
`insertionSort_split` say what selecting fewer rows does to it, and what rows do that go to
the end.
-/

namespace Framework
namespace Sweep

variable {Row : Type*} (L : ℕ) (stuck : Row → Bool)

/-- The queue after a sweep: of the page the stuck rows are left. -/
def pass (q : List Row) : List Row :=
  (q.take L).filter stuck ++ q.drop L

/-- The number of rows got to in `k` sweeps. -/
def covered (q : List Row) : ℕ → ℕ
  | 0 => 0
  | k + 1 => covered q k + (L - (q.take (covered q k)).countP stuck)

/-- `⌈n / L⌉`: the sweeps that `n` rows take when none of them is stuck. -/
def needed (n : ℕ) : ℕ :=
  (n + L - 1) / L

/-- The queue after `k` sweeps. Rows may come back at the end, where they are stuck. -/
inductive Swept (q : List Row) : ℕ → List Row → Prop
  | start : Swept q 0 q
  | next {k : ℕ} {q' back : List Row} (h : Swept q k q') (hback : ∀ row ∈ back, stuck row = true) :
      Swept q (k + 1) (pass L stuck q' ++ back)

variable {L stuck}

theorem needed_pos {n : ℕ} (hL : 0 < L) (hn : 0 < n) : 0 < needed L n :=
  Nat.div_pos (by omega) hL

/-- A queue of stuck rows stays as it is. -/
theorem pass_of_stuck {q : List Row} (h : ∀ row ∈ q, stuck row = true) : pass L stuck q = q := by
  unfold pass
  rw [List.filter_eq_self.mpr fun row hrow => h row (List.mem_of_mem_take hrow),
    List.take_append_drop]

/-- A page that goes on past the first part of a queue. -/
theorem pass_append (q q' : List Row) :
    pass L stuck (q ++ q') = pass L stuck q ++ pass (L - q.length) stuck q' := by
  unfold pass
  rw [List.take_append, List.drop_append, List.filter_append]
  rcases Nat.le_total L q.length with hle | hle
  · -- The page ends in the first part.
    have hzero : L - q.length = 0 := Nat.sub_eq_zero_of_le hle
    simp [hzero, List.append_assoc]
  · -- The page takes the first part whole.
    have hdrop : q.drop L = [] := List.drop_eq_nil_of_le hle
    simp [hdrop, List.append_assoc]

variable (L stuck) in
/-- **A pass, by key**: the rows that are worked off the page of a longer queue are gone. -/
theorem filter_worked {Key : Type*} [DecidableEq Key] {key : Row → Key} {q later : List Row}
    (hkeys : ((q ++ later).map key).Nodup) :
    q.filter (fun row =>
        !((((q ++ later).take L).filter fun row => !stuck row).map key).contains (key row)) =
      pass L stuck q := by
  have hinj : ∀ {a b}, a ∈ q ++ later → b ∈ q ++ later → key a = key b → a = b :=
    fun ha hb => List.inj_on_of_nodup_map hkeys ha hb
  have hpage : ∀ row ∈ (q ++ later).take L, row ∈ q ++ later := fun row => List.mem_of_mem_take
  unfold pass
  conv_lhs => rw [← List.take_append_drop L q, List.filter_append]
  congr 1
  · -- A row of the page is worked off unless it is stuck.
    refine List.filter_congr fun row hrow => ?_
    rw [List.take_append_drop]
    have hrow' : row ∈ (q ++ later).take L := by
      rw [List.take_append]
      exact List.mem_append_left _ hrow
    have hiff : key row ∈ (((q ++ later).take L).filter fun row => !stuck row).map key ↔
        stuck row = false := by
      constructor
      · intro hmem
        obtain ⟨other, hother, hkey⟩ := List.mem_map.mp hmem
        obtain ⟨hother, hstuck⟩ := List.mem_filter.mp hother
        obtain rfl := hinj (hpage other hother) (hpage row hrow') hkey
        simpa using hstuck
      · exact fun hstuck => List.mem_map_of_mem (List.mem_filter.mpr ⟨hrow', by simp [hstuck]⟩)
    cases hs : stuck row <;> simp [hiff, hs]
  · -- A row after the page is not.
    refine List.filter_eq_self.mpr fun row hrow => ?_
    rw [List.take_append_drop]
    have hrow' : row ∈ (q ++ later).drop L := by
      rw [List.drop_append]
      exact List.mem_append_left _ hrow
    have hsplit : ((q ++ later).take L ++ (q ++ later).drop L).Nodup := by
      rw [List.take_append_drop]
      exact hkeys.of_map key
    simp only [Bool.not_eq_true', List.contains_eq_mem, decide_eq_false_iff_not]
    intro hmem
    obtain ⟨other, hother, hkey⟩ := List.mem_map.mp hmem
    have hother := (List.mem_filter.mp hother).1
    obtain rfl := hinj (hpage other hother) (List.mem_of_mem_drop hrow') hkey
    exact (List.disjoint_of_nodup_append hsplit) hother hrow'

/-- **A pass after a pass** goes as much farther as its page is free. -/
theorem pass_pass (q : List Row) (c : ℕ) :
    pass L stuck (pass c stuck q) = pass (c + (L - (q.take c).countP stuck)) stuck q := by
  have hfirst : ∀ row ∈ (q.take c).filter stuck, stuck row = true :=
    fun row hrow => (List.mem_filter.mp hrow).2
  calc pass L stuck (pass c stuck q)
      = pass L stuck ((q.take c).filter stuck) ++
          pass (L - ((q.take c).filter stuck).length) stuck (q.drop c) := pass_append _ _
    _ = (q.take c).filter stuck ++
          pass (L - (q.take c).countP stuck) stuck (q.drop c) := by
        rw [pass_of_stuck hfirst, List.countP_eq_length_filter]
    _ = pass (c + (L - (q.take c).countP stuck)) stuck q := by
        unfold pass
        rw [List.take_add, List.filter_append, List.append_assoc, List.drop_drop]

/-- **Many sweeps are one pass**, but for the rows that have come back. -/
theorem Swept.eq_pass {q q' : List Row} {k : ℕ} (h : Swept L stuck q k q') :
    ∃ back, (∀ row ∈ back, stuck row = true) ∧ q' = pass (covered L stuck q k) stuck q ++ back := by
  induction h with
  | start => exact ⟨[], by simp, by simp [covered, pass]⟩
  | @next k q' back _ hback ih =>
    obtain ⟨earlier, hearlier, rfl⟩ := ih
    refine ⟨earlier ++ back, ?_, ?_⟩
    · intro row hrow
      rcases List.mem_append.mp hrow with hrow | hrow
      · exact hearlier row hrow
      · exact hback row hrow
    · rw [pass_append, pass_of_stuck hearlier, pass_pass, List.append_assoc]
      rfl

/-- **When nothing but stuck rows is left**: when the rows not got to are stuck. -/
theorem drained_iff {q q' : List Row} {k : ℕ} (h : Swept L stuck q k q') :
    (∀ row ∈ q', stuck row = true) ↔
      ∀ row ∈ q.drop (covered L stuck q k), stuck row = true := by
  obtain ⟨back, hback, rfl⟩ := h.eq_pass
  unfold pass
  constructor
  · exact fun hall row hrow =>
      hall row (List.mem_append_left _ (List.mem_append_right _ hrow))
  · intro hrest row hrow
    rcases List.mem_append.mp hrow with hrow | hrow
    · rcases List.mem_append.mp hrow with hrow | hrow
      · exact (List.mem_filter.mp hrow).2
      · exact hrest row hrow
    · exact hback row hrow

/-- **Starvation**: behind a page of stuck rows nothing is got to, however many sweeps there
are. -/
theorem starved {q : List Row} (hfront : ∀ row ∈ q.take L, stuck row = true) {row : Row}
    (hrow : row ∈ q.drop L) (hfree : stuck row = false) (k : ℕ) :
    ¬∀ row ∈ q.drop (covered L stuck q k), stuck row = true := by
  have hlength : L ≤ q.length := by
    have hpos := List.length_pos_of_mem hrow
    rw [List.length_drop] at hpos
    omega
  have hcovered : covered L stuck q k ≤ L := by
    induction k with
    | zero => exact Nat.zero_le L
    | succ k ih =>
      -- The page is taken by the rows that were got to.
      have hstuck : (q.take (covered L stuck q k)).countP stuck = covered L stuck q k := by
        rw [List.countP_eq_length.mpr, List.length_take]
        · omega
        · exact fun row hrow => hfront row (List.take_subset_take_left q ih hrow)
      simp only [covered, hstuck]
      omega
  intro hall
  have hmem : row ∈ q.drop (covered L stuck q k) := by
    rw [← Nat.add_sub_cancel' hcovered, ← List.drop_drop] at hrow
    exact List.mem_of_mem_drop hrow
  rw [hall row hmem] at hfree
  cases hfree

/-! ### Queues as sorted selections -/

instance total_key (key : Row → ℕ) : Std.Total fun a b : Row => key a ≤ key b :=
  ⟨fun a b => Nat.le_total (key a) (key b)⟩

instance trans_key (key : Row → ℕ) : IsTrans Row fun a b => key a ≤ key b :=
  ⟨fun _ _ _ => Nat.le_trans⟩

section Sorted

variable {r : Row → Row → Prop} [DecidableRel r] {p : Row → Bool} {a : Row} {q : List Row}

/-- A row before all others is inserted at the front. -/
theorem orderedInsert_of_forall (h : ∀ b ∈ q, r a b) : q.orderedInsert r a = a :: q := by
  cases q with
  | nil => rfl
  | cons b q => exact List.orderedInsert_cons_of_le r q (h b List.mem_cons_self)

/-- Inserting a row that is selected. -/
theorem filter_orderedInsert_of_pos (htrans : ∀ {a b c}, r a b → r b c → r a c)
    (hq : q.Pairwise r) (ha : p a = true) :
    (q.orderedInsert r a).filter p = (q.filter p).orderedInsert r a := by
  induction q with
  | nil => simp [ha]
  | cons b q ih =>
    obtain ⟨hb, hq⟩ := List.pairwise_cons.mp hq
    by_cases hab : r a b
    · -- The row comes first in both.
      have hall : ∀ c ∈ (b :: q).filter p, r a c := by
        intro c hc
        rcases List.mem_cons.mp (List.mem_filter.mp hc).1 with rfl | hc
        · exact hab
        · exact htrans hab (hb c hc)
      rw [List.orderedInsert_cons_of_le r q hab, List.filter_cons_of_pos ha,
        orderedInsert_of_forall hall]
    · rw [List.orderedInsert_of_not_le r q hab]
      by_cases hpb : p b = true
      · rw [List.filter_cons_of_pos hpb, List.filter_cons_of_pos hpb,
          List.orderedInsert_of_not_le r _ hab, ih hq]
      · rw [List.filter_cons_of_neg hpb, List.filter_cons_of_neg hpb, ih hq]

/-- Inserting a row that is not selected. -/
theorem filter_orderedInsert_of_neg (ha : p a = false) :
    (q.orderedInsert r a).filter p = q.filter p := by
  have hneg : ¬p a = true := by simp [ha]
  induction q with
  | nil => simp [ha]
  | cons b q ih =>
    by_cases hab : r a b
    · rw [List.orderedInsert_cons_of_le r q hab, List.filter_cons_of_neg hneg]
    · rw [List.orderedInsert_of_not_le r q hab, List.filter_cons, List.filter_cons, ih]

variable [Std.Total r] [IsTrans Row r]

/-- **Selecting after sorting is sorting what is selected.** -/
theorem filter_insertionSort (q : List Row) :
    (q.insertionSort r).filter p = (q.filter p).insertionSort r := by
  induction q with
  | nil => rfl
  | cons a q ih =>
    have hsorted : (q.insertionSort r).Pairwise r := List.pairwise_insertionSort r q
    rw [List.insertionSort_cons]
    cases ha : p a with
    | false => rw [filter_orderedInsert_of_neg ha, ih, List.filter_cons_of_neg (by simp [ha])]
    | true =>
      rw [filter_orderedInsert_of_pos (fun h h' => IsTrans.trans _ _ _ h h') hsorted ha, ih,
        List.filter_cons_of_pos ha, List.insertionSort_cons]

omit [DecidableRel r] [Std.Total r] [IsTrans Row r] in
/-- A sorted queue in which no selected row may come after one that is not. -/
theorem filter_append_of_pairwise (hq : q.Pairwise r)
    (hsep : ∀ a ∈ q, ∀ b ∈ q, p a = true → p b = false → ¬r b a) :
    q = q.filter p ++ q.filter fun row => !p row := by
  induction q with
  | nil => rfl
  | cons b q ih =>
    obtain ⟨hb, hq⟩ := List.pairwise_cons.mp hq
    have hrest := ih hq fun a ha c hc =>
      hsep a (List.mem_cons_of_mem _ ha) c (List.mem_cons_of_mem _ hc)
    cases hpb : p b with
    | true =>
      rw [List.filter_cons_of_pos hpb, List.filter_cons_of_neg (by simp [hpb]), List.cons_append,
        ← hrest]
    | false =>
      -- After a row that is not selected none is.
      have hnone : (b :: q).filter p = [] := by
        refine List.filter_eq_nil_iff.mpr fun a ha hpa => ?_
        rcases List.mem_cons.mp ha with rfl | ha
        · rw [hpb] at hpa
          cases hpa
        · exact hsep a (List.mem_cons_of_mem _ ha) b List.mem_cons_self hpa hpb (hb a ha)
      rw [hnone, List.nil_append, List.filter_eq_self.mpr]
      intro a ha
      have hpa : p a = false := by
        by_contra hpos
        exact List.filter_eq_nil_iff.mp hnone a ha (by simpa using hpos)
      simp [hpa]

/-- **A queue in two parts**, when no row of the second may come before one of the first. -/
theorem insertionSort_split (hsep : ∀ a ∈ q, ∀ b ∈ q, p a = true → p b = false → ¬r b a) :
    q.insertionSort r =
      (q.filter p).insertionSort r ++ (q.filter fun row => !p row).insertionSort r := by
  rw [← filter_insertionSort, ← filter_insertionSort]
  refine filter_append_of_pairwise (List.pairwise_insertionSort r q) fun a ha b hb => ?_
  exact hsep a ((List.mem_insertionSort r).mp ha) b ((List.mem_insertionSort r).mp hb)

/-- A selection of more rows, all of them later, begins with the smaller one. -/
theorem insertionSort_extend {p' : Row → Bool} (hsub : ∀ a ∈ q, p a = true → p' a = true)
    (hsep : ∀ a ∈ q, ∀ b ∈ q, p a = true → p' b = true → p b = false → ¬r b a) :
    ∃ later, (q.filter p').insertionSort r = (q.filter p).insertionSort r ++ later := by
  have hearlier : (q.filter p').filter p = q.filter p := by
    rw [List.filter_filter]
    refine List.filter_congr fun a ha => ?_
    cases hpa : p a with
    | true => simp [hsub a ha hpa]
    | false => rfl
  have hsplit := insertionSort_split (r := r) (p := p) (q := q.filter p') fun a ha b hb hpa hpb =>
    hsep a (List.mem_filter.mp ha).1 b (List.mem_filter.mp hb).1 hpa (List.mem_filter.mp hb).2 hpb
  rw [hearlier] at hsplit
  exact ⟨_, hsplit⟩

/-- **Rows that are written go to the end** of a queue in the order of the times at which its
rows were written. -/
theorem insertionSort_map_written (written : Row → ℕ) {seen : List Row} {now : ℕ}
    {worked : Row → Bool} {f : Row → Row} (hearlier : ∀ a ∈ seen, written a < now)
    (hdone : ∀ a ∈ seen, worked a = true → written (f a) = now)
    (hkept : ∀ a ∈ seen, worked a = false → f a = a) :
    (seen.map f).insertionSort (fun a b => written a ≤ written b) =
      (seen.insertionSort fun a b => written a ≤ written b).filter (fun a => !worked a) ++
        ((seen.filter worked).map f).insertionSort fun a b => written a ≤ written b := by
  have hearly : ∀ a ∈ seen, decide (written (f a) < now) = !worked a := by
    intro a ha
    cases hworked : worked a with
    | true => simp [hdone a ha hworked]
    | false =>
      rw [hkept a ha hworked]
      simpa using hearlier a ha
  have hfirst : (seen.map f).filter (fun a => decide (written a < now)) =
      seen.filter fun a => !worked a := by
    have hcomp : seen.filter ((fun a => decide (written a < now)) ∘ f) =
        seen.filter fun a => !worked a := List.filter_congr hearly
    rw [List.filter_map, hcomp]
    conv_rhs => rw [← List.map_id (seen.filter _)]
    refine List.map_congr_left fun a ha => ?_
    obtain ⟨ha, hworked⟩ := List.mem_filter.mp ha
    exact hkept a ha (by simpa using hworked)
  have hrest : (seen.map f).filter (fun a => !decide (written a < now)) =
      (seen.filter worked).map f := by
    rw [List.filter_map]
    congr 1
    refine List.filter_congr fun a ha => ?_
    simp only [Function.comp_apply, hearly a ha, Bool.not_not]
  rw [insertionSort_split (p := fun a => decide (written a < now)), hfirst, hrest,
    filter_insertionSort]
  intro a _ b _ ha hb hle
  simp only [decide_eq_true_eq, decide_eq_false_iff_not] at ha hb
  exact hb (lt_of_le_of_lt hle ha)

end Sorted

end Sweep
end Framework
