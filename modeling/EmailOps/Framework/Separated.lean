import Mathlib.Algebra.BigOperators.Group.List.Basic
import Mathlib.Algebra.Ring.Nat
import Mathlib.Tactic.Cases
import EmailOps.Framework.Text

/-!
# Separated lists with quoting

A header field holds a list of values in one text, separated by a character that
may also stand inside a value when it is quoted there. A `Scanner` is the automaton
that tells the two apart: a separator counts in the scanner's start state only.

* `pieces` splits a text at the separators that count, and `elements` are the pieces
  that are not blank, trimmed.
* `elements_join_iff`: values joined by the separator are split back into their own
  elements exactly when each value but the last is `Closed`, that is, leaves the
  scanner where it started.
* `map_trim_eq_iff`: values that are passed on one by one are their own elements
  exactly when each of them is a single element.
* `plain` is a separator that no quoting hides. Any texts may be joined by it.
-/

namespace Framework

open Text

/-- An automaton that follows the quoting of a text. -/
structure Scanner (σ : Type*) where
  sep : Char
  start : σ
  next : σ → Char → σ
  sep_visible : isWhite sep = false
  next_sep : next start sep = start
  next_white : ∀ c, isWhite c = true → next start c = start

namespace Scanner

variable {σ : Type*} [DecidableEq σ] (M : Scanner σ)

/-! ### Pieces -/

/-- The state after a text. -/
def final (s : σ) (t : Text) : σ :=
  t.foldl M.next s

/-- Put a character in front of the first piece. -/
def consHead (c : Char) : List Text → List Text
  | [] => [[c]]
  | p :: ps => (c :: p) :: ps

/-- Split a text at the separators that count. -/
def pieces : σ → Text → List Text
  | _, [] => [[]]
  | s, c :: t =>
    if s = M.start ∧ c = M.sep then [] :: pieces M.start t
    else consHead c (pieces (M.next s c) t)

/-- Continue the last piece of one list with the first of another. -/
def glue : List Text → List Text → List Text
  | [], qs => qs
  | [p], [] => [p]
  | [p], q :: qs => (p ++ q) :: qs
  | p :: p' :: ps, qs => p :: glue (p' :: ps) qs

@[simp] theorem pieces_nil (s : σ) : M.pieces s [] = [[]] := rfl

theorem pieces_sep (t : Text) : M.pieces M.start (M.sep :: t) = [] :: M.pieces M.start t :=
  if_pos ⟨rfl, rfl⟩

theorem pieces_cons {s : σ} {c : Char} (h : ¬(s = M.start ∧ c = M.sep)) (t : Text) :
    M.pieces s (c :: t) = consHead c (M.pieces (M.next s c) t) :=
  if_neg h

theorem pieces_ne_nil (s : σ) (t : Text) : M.pieces s t ≠ [] := by
  cases t with
  | nil => exact List.cons_ne_nil _ _
  | cons c t =>
    by_cases h : s = M.start ∧ c = M.sep
    · rw [h.1, h.2, pieces_sep]
      exact List.cons_ne_nil _ _
    · rw [M.pieces_cons h]
      cases M.pieces (M.next s c) t <;> exact List.cons_ne_nil _ _

theorem glue_cons {p : Text} {ps qs : List Text} (h : ps ≠ []) :
    glue (p :: ps) qs = p :: glue ps qs := by
  cases ps with
  | nil => exact absurd rfl h
  | cons p' ps => rfl

theorem glue_nil_singleton {qs : List Text} (h : qs ≠ []) : glue [[]] qs = qs := by
  cases qs with
  | nil => exact absurd rfl h
  | cons q qs => rfl

theorem glue_append_singleton (ps : List Text) (p q : Text) (qs : List Text) :
    glue (ps ++ [p]) (q :: qs) = ps ++ (p ++ q) :: qs := by
  induction ps with
  | nil => rfl
  | cons p' ps ih => rw [List.cons_append, glue_cons (by simp), ih, List.cons_append]

theorem consHead_glue (c : Char) {ps : List Text} (qs : List Text) (h : ps ≠ []) :
    consHead c (glue ps qs) = glue (consHead c ps) qs := by
  match ps, qs with
  | [p], [] => rfl
  | [p], q :: qs => rfl
  | p :: p' :: ps, qs => rfl

/-- **Splitting a concatenation.** The second text is split from the state the first
one ends in, and continues its last piece. -/
theorem pieces_append (s : σ) (t u : Text) :
    M.pieces s (t ++ u) = glue (M.pieces s t) (M.pieces (M.final s t) u) := by
  induction t generalizing s with
  | nil =>
    show M.pieces s u = glue [[]] (M.pieces s u)
    rw [glue_nil_singleton (M.pieces_ne_nil s u)]
  | cons c t ih =>
    rw [List.cons_append]
    by_cases h : s = M.start ∧ c = M.sep
    · obtain ⟨rfl, rfl⟩ := h
      have hfinal : M.final M.start (M.sep :: t) = M.final M.start t := by
        show M.final (M.next M.start M.sep) t = _
        rw [M.next_sep]
      rw [pieces_sep, pieces_sep, glue_cons (M.pieces_ne_nil _ _), ih, hfinal]
    · rw [M.pieces_cons h, M.pieces_cons h, ih, consHead_glue c _ (M.pieces_ne_nil _ _)]
      rfl

/-- The pieces hold every separator but those that were split at. -/
theorem count_pieces (s : σ) (t : Text) :
    ((M.pieces s t).map (List.count M.sep)).sum + (M.pieces s t).length =
      t.count M.sep + 1 := by
  induction t generalizing s with
  | nil => rfl
  | cons c t ih =>
    by_cases h : s = M.start ∧ c = M.sep
    · obtain ⟨rfl, rfl⟩ := h
      have hrest := ih M.start
      rw [pieces_sep, List.map_cons, List.sum_cons, List.length_cons, List.count_nil,
        List.count_cons_self]
      omega
    · have hrest := ih (M.next s c)
      rw [M.pieces_cons h]
      cases hp : M.pieces (M.next s c) t with
      | nil => exact absurd hp (M.pieces_ne_nil _ _)
      | cons p ps =>
        rw [hp, List.map_cons, List.sum_cons, List.length_cons] at hrest
        rw [consHead, List.map_cons, List.sum_cons, List.length_cons, List.count_cons,
          List.count_cons]
        omega

/-! ### Elements -/

/-- The elements of a text: its pieces, trimmed, without the blank ones. -/
def elements (t : Text) : List Text :=
  ((M.pieces M.start t).map trim).filter (· ≠ [])

/-- A text is closed when it leaves the scanner where it started. -/
def Closed (t : Text) : Prop :=
  M.final M.start t = M.start

instance (t : Text) : Decidable (M.Closed t) :=
  inferInstanceAs (Decidable (_ = _))

@[simp] theorem elements_nil : M.elements [] = [] := rfl

theorem ne_nil_of_mem_elements {t e : Text} (h : e ∈ M.elements t) : e ≠ [] := by
  have hne := (List.mem_filter.mp h).2
  simpa using hne

/-- Trimming loses no separator, so the elements hold those of the pieces. -/
theorem count_elements (t : Text) :
    ((M.elements t).map (List.count M.sep)).sum =
      ((M.pieces M.start t).map (List.count M.sep)).sum := by
  unfold elements
  induction M.pieces M.start t with
  | nil => rfl
  | cons p ps ih =>
    have hcount := count_trim M.sep_visible p
    rw [List.map_cons, List.map_cons, List.sum_cons]
    by_cases hp : trim p = []
    · rw [List.filter_cons_of_neg (by simpa using hp), ih, ← hcount, hp, List.count_nil, zero_add]
    · rw [List.filter_cons_of_pos (by simpa using hp), List.map_cons, List.sum_cons, ih, hcount]

/-! ### Values joined by the separator -/

/-- The text between two joined values. -/
def glueText : Text := [M.sep, ' ']

private theorem map_trim_consHead_white {c : Char} (hc : isWhite c = true) {ps : List Text}
    (h : ps ≠ []) : (consHead c ps).map trim = ps.map trim := by
  cases ps with
  | nil => exact absurd rfl h
  | cons p ps => rw [consHead, List.map_cons, List.map_cons, trim_cons_of_white hc]

/-- After a closed value the separator counts. -/
theorem elements_append_of_closed {t : Text} (h : M.Closed t) (u : Text) :
    M.elements (t ++ M.glueText ++ u) = M.elements t ++ M.elements u := by
  have hspace : isWhite ' ' = true := by decide
  have hne : ¬(M.start = M.start ∧ ' ' = M.sep) := by
    rintro ⟨-, hsep⟩
    have hvisible := M.sep_visible
    rw [← hsep] at hvisible
    cases hvisible
  have hpieces : M.pieces M.start (t ++ M.glueText ++ u) =
      M.pieces M.start t ++ consHead ' ' (M.pieces M.start u) := by
    obtain ⟨ps, p, hps⟩ := List.eq_nil_or_concat (M.pieces M.start t) |>.resolve_left
      (M.pieces_ne_nil M.start t)
    rw [List.append_assoc, pieces_append, h]
    show glue _ (M.pieces M.start (M.sep :: ' ' :: u)) = _
    rw [pieces_sep, M.pieces_cons hne, M.next_white ' ' hspace, hps, List.concat_eq_append,
      glue_append_singleton, List.append_nil, List.append_assoc, List.singleton_append]
  unfold elements
  rw [hpieces, List.map_append, List.filter_append,
    map_trim_consHead_white hspace (M.pieces_ne_nil _ _)]

/-- A text that is not closed ends in a piece that is not blank: something opened the
quotes, and no separator has counted since. -/
private theorem pieces_of_not_closed {s : σ} {t : Text} (h : M.final s t ≠ M.start) :
    ∃ ps p, M.pieces s t = ps ++ [p] ∧ ((ps = [] ∧ s ≠ M.start) ∨ p.isBlank = false) := by
  induction t generalizing s with
  | nil => exact ⟨[], [], rfl, .inl ⟨rfl, h⟩⟩
  | cons c t ih =>
    by_cases hsep : s = M.start ∧ c = M.sep
    · obtain ⟨rfl, rfl⟩ := hsep
      have hrest : M.final M.start t ≠ M.start := by
        have hnext : M.final (M.next M.start M.sep) t ≠ M.start := h
        rwa [M.next_sep] at hnext
      obtain ⟨ps, p, hpieces, ⟨-, hstart⟩ | hblank⟩ := ih hrest
      · exact absurd rfl hstart
      · exact ⟨[] :: ps, p, by rw [pieces_sep, hpieces, List.cons_append], .inr hblank⟩
    · obtain ⟨ps, p, hpieces, hcases⟩ := ih (s := M.next s c) h
      rw [M.pieces_cons hsep, hpieces]
      match ps, hcases with
      | [], .inl ⟨_, hnext⟩ =>
        refine ⟨[], c :: p, rfl, ?_⟩
        by_cases hs : s = M.start
        · -- Only a visible character opens a quote.
          refine .inr ?_
          have hvisible : isWhite c = false := by
            by_contra hwhite
            rw [Bool.not_eq_false] at hwhite
            rw [hs, M.next_white c hwhite] at hnext
            exact hnext rfl
          show (isWhite c && p.all isWhite) = false
          rw [hvisible, Bool.false_and]
        · exact .inl ⟨rfl, hs⟩
      | [], .inr hblank =>
        refine ⟨[], c :: p, rfl, .inr ?_⟩
        show (isWhite c && p.all isWhite) = false
        rw [show p.all isWhite = false from hblank, Bool.and_false]
      | q :: ps, .inr hblank => exact ⟨(c :: q) :: ps, p, rfl, .inr hblank⟩

/-- A value that is not closed swallows the separator after it. -/
theorem elements_append_ne_of_not_closed {t : Text} (h : ¬M.Closed t) (u : Text)
    (es : List Text) : M.elements (t ++ M.glueText ++ u) ≠ M.elements t ++ es := by
  obtain ⟨ps, p, hpieces, ⟨-, hstart⟩ | hblank⟩ := M.pieces_of_not_closed h
  · exact absurd rfl hstart
  · have hne : ¬(M.final M.start t = M.start ∧ M.sep = M.sep) := fun hclosed => h hclosed.1
    obtain ⟨q, qs, hq⟩ : ∃ q qs, M.pieces (M.final M.start t) (M.sep :: ' ' :: u) =
        (M.sep :: q) :: qs := by
      rw [M.pieces_cons hne]
      cases hrest : M.pieces (M.next (M.final M.start t) M.sep) (' ' :: u) with
      | nil => exact absurd hrest (M.pieces_ne_nil _ _)
      | cons q qs => exact ⟨q, qs, rfl⟩
    have hjoined : M.pieces M.start (t ++ M.glueText ++ u) = ps ++ (p ++ M.sep :: q) :: qs := by
      rw [List.append_assoc, pieces_append, hpieces]
      show glue _ (M.pieces _ (M.sep :: ' ' :: u)) = _
      rw [hq, glue_append_singleton]
    have hp : trim p ≠ [] := by
      intro hnil
      rw [(trim_eq_nil_iff p).mp hnil] at hblank
      cases hblank
    have hlong : (trim (p ++ M.sep :: q)).count M.sep = (trim p).count M.sep + 1 + q.count M.sep := by
      rw [count_trim M.sep_visible, count_trim M.sep_visible, List.count_append,
        List.count_cons_self]
      omega
    have hlong_ne : trim (p ++ M.sep :: q) ≠ [] := by
      intro hnil
      rw [hnil, List.count_nil] at hlong
      omega
    intro heq
    unfold elements at heq
    rw [hjoined, hpieces, List.map_append, List.map_append, List.filter_append,
      List.filter_append, List.append_assoc, List.append_cancel_left_eq, List.map_cons,
      List.map_singleton, List.filter_cons_of_pos (by simpa using hlong_ne),
      List.filter_cons_of_pos (by simpa using hp), List.cons_append] at heq
    -- The longer element holds a separator more.
    have hhead := congrArg (List.count M.sep) (List.cons.inj heq).1
    omega

/-- **Joining values.** The elements of joined values are those of the values exactly
when every value but the last is closed. -/
theorem elements_join_iff (ts : List Text) :
    M.elements (join M.glueText ts) = ts.flatMap M.elements ↔ ∀ t ∈ ts.dropLast, M.Closed t := by
  induction ts with
  | nil => simp
  | cons t ts ih =>
    cases ts with
    | nil => simp
    | cons u ts =>
      rw [join_cons_cons, List.flatMap_cons, List.dropLast_cons_cons, List.forall_mem_cons, ← ih]
      by_cases h : M.Closed t
      · rw [M.elements_append_of_closed h, List.append_cancel_left_eq]
        exact ⟨fun heq => ⟨h, heq⟩, fun heq => heq.2⟩
      · exact ⟨fun heq => absurd heq (M.elements_append_ne_of_not_closed h _ _),
          fun heq => absurd heq.1 h⟩

/-! ### Values passed on one by one -/

/-- A text that is not split is its only piece. -/
theorem eq_of_pieces_eq_singleton {s : σ} {t p : Text} (h : M.pieces s t = [p]) : p = t := by
  induction t generalizing s p with
  | nil => exact (List.singleton_inj.mp h).symm
  | cons c t ih =>
    by_cases hsep : s = M.start ∧ c = M.sep
    · rw [hsep.1, hsep.2, pieces_sep] at h
      exact absurd (List.cons.inj h).2 (M.pieces_ne_nil _ _)
    · rw [M.pieces_cons hsep] at h
      match hrest : M.pieces (M.next s c) t with
      | [] => exact absurd hrest (M.pieces_ne_nil _ _)
      | [q] =>
        rw [hrest] at h
        rw [← List.singleton_inj.mp h, ih hrest]
      | q :: q' :: qs =>
        rw [hrest] at h
        cases h

/-- A text without a separator that counts is a single element, unless it is blank. -/
theorem elements_eq_singleton {t : Text} (h : (M.pieces M.start t).length = 1)
    (hne : trim t ≠ []) : M.elements t = [trim t] := by
  have hwhole : M.pieces M.start t = [t] := by
    obtain ⟨p, hp⟩ := List.length_eq_one_iff.mp h
    rw [hp, M.eq_of_pieces_eq_singleton hp]
  unfold elements
  rw [hwhole, List.map_singleton, List.filter_cons_of_pos (by simpa using hne), List.filter_nil]

/-- The values and their elements hold the same separators, but for those that count. -/
private theorem count_map_trim (ts : List Text) :
    ((ts.map trim).map (List.count M.sep)).sum + ts.length =
      ((ts.flatMap M.elements).map (List.count M.sep)).sum +
        (ts.map fun t => (M.pieces M.start t).length).sum := by
  induction ts with
  | nil => rfl
  | cons t ts ih =>
    have hpieces := M.count_pieces M.start t
    have helements := M.count_elements t
    have htrim := count_trim M.sep_visible t
    simp only [List.map_cons, List.sum_cons, List.length_cons, List.flatMap_cons, List.map_append,
      List.sum_append]
    omega

/-- Counts that are positive and make up the length are one each. -/
private theorem all_one_of_sum_eq_length {α : Type*} {f : α → ℕ} {xs : List α}
    (hpos : ∀ x ∈ xs, 0 < f x) (hsum : (xs.map f).sum = xs.length) : ∀ x ∈ xs, f x = 1 := by
  induction xs with
  | nil => exact fun x hx => absurd hx List.not_mem_nil
  | cons x xs ih =>
    rw [List.map_cons, List.sum_cons, List.length_cons] at hsum
    have hle : xs.length ≤ (xs.map f).sum := by
      rw [← List.length_map f]
      refine List.length_le_sum_of_one_le _ (fun n hn => ?_)
      obtain ⟨y, hy, rfl⟩ := List.mem_map.mp hn
      exact hpos y (List.mem_cons_of_mem _ hy)
    have hx := hpos x List.mem_cons_self
    have hrest := ih (fun y hy => hpos y (List.mem_cons_of_mem _ hy)) (by omega)
    intro y hy
    rcases List.mem_cons.mp hy with rfl | hy
    · omega
    · exact hrest y hy

/-- **Values passed on as they are.** They are their own elements exactly when each is a
single element. -/
theorem map_trim_eq_iff (ts : List Text) :
    ts.map trim = ts.flatMap M.elements ↔ ∀ t ∈ ts, M.elements t = [trim t] := by
  constructor
  · intro heq
    have hsum : (ts.map fun t => (M.pieces M.start t).length).sum = ts.length := by
      have hcount := M.count_map_trim ts
      rw [heq] at hcount
      omega
    have hone := all_one_of_sum_eq_length
      (fun t _ => List.length_pos_iff.mpr (M.pieces_ne_nil M.start t)) hsum
    intro t ht
    refine M.elements_eq_singleton (hone t ht) ?_
    -- A blank value would be no element.
    have hmem : trim t ∈ ts.flatMap M.elements := heq ▸ List.mem_map_of_mem ht
    obtain ⟨u, -, hu⟩ := List.mem_flatMap.mp hmem
    exact M.ne_nil_of_mem_elements hu
  · intro h
    induction ts with
    | nil => rfl
    | cons t ts ih =>
      rw [List.map_cons, List.flatMap_cons, h t List.mem_cons_self,
        ih fun u hu => h u (List.mem_cons_of_mem _ hu), List.singleton_append]

/-! ### Without quoting -/

section Plain

variable {sep : Char} (hsep : isWhite sep = false)

/-- A separator that counts wherever it stands. -/
def plain : Scanner Unit where
  sep := sep
  start := ()
  next _ _ := ()
  sep_visible := hsep
  next_sep := rfl
  next_white _ _ := rfl

theorem pieces_plain (t : Text) : (plain hsep).pieces () t = t.splitOn sep := by
  induction t with
  | nil => rfl
  | cons c t ih =>
    rw [List.splitOn_cons_eq_if_modifyHead]
    by_cases hc : c = sep
    · subst hc
      rw [if_pos (beq_self_eq_true c), ← ih]
      exact (plain hsep).pieces_sep t
    · rw [if_neg (by simpa using hc), ← ih, (plain hsep).pieces_cons fun heq => hc heq.2]
      obtain ⟨p, ps, hp⟩ :=
        List.exists_cons_of_ne_nil ((plain hsep).pieces_ne_nil () t)
      change consHead c ((plain hsep).pieces () t) = _
      rw [hp]
      rfl

theorem elements_plain (t : Text) :
    (plain hsep).elements t = ((t.splitOn sep).map trim).filter (· ≠ []) := by
  rw [← pieces_plain hsep]
  rfl

/-- Any texts may be joined. -/
theorem elements_join_plain (ts : List Text) :
    (plain hsep).elements (join [sep, ' '] ts) = ts.flatMap (plain hsep).elements :=
  ((plain hsep).elements_join_iff ts).mpr fun _ _ => rfl

/-- An element is its own element. -/
theorem elements_of_mem_plain {t e : Text} (h : e ∈ (plain hsep).elements t) :
    (plain hsep).elements e = [e] := by
  have hne := (plain hsep).ne_nil_of_mem_elements h
  rw [elements_plain] at h
  obtain ⟨p, hp, rfl⟩ := List.mem_map.mp (List.mem_filter.mp h).1
  have hnot : sep ∉ trim p := fun hmem => notMem_of_mem_splitOn hp (mem_of_mem_trim hmem)
  have hone : ((plain hsep).pieces () (trim p)).length = 1 := by
    rw [pieces_plain, List.splitOn_eq_singleton hnot]
    rfl
  rw [(plain hsep).elements_eq_singleton hone (by rwa [trim_trim]), trim_trim]

/-- The elements joined are split again. -/
theorem elements_join_elements_plain (t : Text) :
    (plain hsep).elements (join [sep, ' '] ((plain hsep).elements t)) =
      (plain hsep).elements t := by
  rw [elements_join_plain]
  refine (List.flatMap_congr fun e he => elements_of_mem_plain hsep he).trans ?_
  exact List.flatMap_singleton' _

/-- A visible character other than the separator stands in an element. -/
theorem exists_mem_elements_plain {c : Char} (hc : isWhite c = false) (hne : c ≠ sep)
    {t : Text} (h : c ∈ t) : ∃ e ∈ (plain hsep).elements t, c ∈ e := by
  obtain ⟨p, hp, hin⟩ := exists_mem_splitOn hne h
  have hmem : c ∈ trim p := by
    rw [← List.count_pos_iff, count_trim hc]
    exact List.count_pos_iff.mpr hin
  refine ⟨trim p, ?_, hmem⟩
  rw [elements_plain]
  exact List.mem_filter.mpr
    ⟨List.mem_map_of_mem hp, by simpa using List.ne_nil_of_mem hmem⟩

end Plain

end Scanner
end Framework
