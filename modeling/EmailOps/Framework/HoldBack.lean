import Mathlib.Data.List.Infix
import Mathlib.Data.Nat.Notation

/-!
# A marker in a text that comes in pieces

A reader passes a text on as it comes, up to a marker, and keeps what comes after it. A piece may
end within the marker, so the reader holds back what might be the beginning of one: as many
characters as the marker has, less one.

* `find` is the place of the first occurrence of a marker. `Parts` says what a first occurrence
  is; `parts_of_find` and `find_of_parts` say that it is the one found.
* `not_infix_append`: a text that was searched need not be searched again, apart from what is
  held back.
* `feed` is the reader, `Reads` its invariant and `reads_feed` the step. `reads_feedAll`:
  however a text is cut, the reader has passed on what is before the first marker.
-/

namespace Framework
namespace HoldBack

variable {α : Type*} [DecidableEq α]

/-! ### The first occurrence -/

/-- Where a marker first occurs. -/
def find (marker : List α) : List α → Option ℕ
  | [] => none
  | c :: text =>
    if marker.isPrefixOf (c :: text) then some 0 else (find marker text).map (· + 1)

/-- The first occurrence of a marker, and what is before and after it. No occurrence is complete
before its last character. -/
structure Parts (marker before after text : List α) : Prop where
  text : text = before ++ marker ++ after
  first : ¬ marker <:+: before ++ marker.dropLast

section Find

variable {marker before after text : List α}

omit [DecidableEq α] in
/-- A text does not occur in a shorter one. -/
theorem not_infix_dropLast (hne : marker ≠ []) : ¬ marker <:+: marker.dropLast := by
  intro h
  have hle := h.length_le
  have hpos := List.length_pos_iff.mpr hne
  rw [List.length_dropLast] at hle
  omega

omit [DecidableEq α] in
/-- The text goes on at least to where the marker is complete but for its last character. -/
theorem Parts.prefix_dropLast (h : Parts marker before after text) :
    before ++ marker.dropLast <+: text := by
  rw [h.text, List.append_assoc]
  exact (List.prefix_append_right_inj before).mpr
    ((List.dropLast_prefix marker).trans (List.prefix_append marker after))

/-- What is found is the first occurrence. -/
theorem parts_of_find (hne : marker ≠ []) {i : ℕ} (h : find marker text = some i) :
    i ≤ text.length ∧ Parts marker (text.take i) (text.drop (i + marker.length)) text := by
  induction text generalizing i with
  | nil => cases h
  | cons c text ih =>
    rw [find] at h
    split at h
    · next hpre =>
      obtain rfl := Option.some.inj h
      obtain ⟨after, hafter⟩ := List.isPrefixOf_iff_prefix.mp hpre
      refine ⟨Nat.zero_le _, ?_, ?_⟩
      · rw [List.take_zero, List.nil_append, Nat.zero_add, ← hafter, List.drop_left]
      · rw [List.take_zero, List.nil_append]
        exact not_infix_dropLast hne
    · next hpre =>
      obtain ⟨j, hj, rfl⟩ := Option.map_eq_some_iff.mp h
      obtain ⟨hle, hparts⟩ := ih hj
      refine ⟨Nat.succ_le_succ hle, ?_, ?_⟩
      · show c :: text = c :: text.take j ++ marker ++ (c :: text).drop (j + 1 + marker.length)
        rw [Nat.add_right_comm, List.drop_succ_cons, List.cons_append, List.cons_append,
          ← hparts.text]
      · show ¬ marker <:+: c :: (text.take j ++ marker.dropLast)
        rw [List.infix_cons_iff, not_or]
        refine ⟨fun hoccurs => hpre (List.isPrefixOf_iff_prefix.mpr (hoccurs.trans ?_)),
          hparts.first⟩
        -- what the occurrence would be complete in is the beginning of the text
        exact (List.prefix_cons_inj c).mpr hparts.prefix_dropLast

/-- The first occurrence is found. -/
theorem find_of_parts (hne : marker ≠ []) (h : Parts marker before after text) :
    find marker text = some before.length := by
  obtain ⟨rfl, hfirst⟩ := h
  induction before with
  | nil =>
    obtain ⟨c, rest, rfl⟩ := List.exists_cons_of_ne_nil hne
    have hpre : (c :: rest).isPrefixOf (c :: (rest ++ after)) = true :=
      List.isPrefixOf_iff_prefix.mpr (List.prefix_append (c :: rest) after)
    show find (c :: rest) (c :: (rest ++ after)) = some 0
    rw [find, if_pos hpre]
  | cons c before ih =>
    have hshorter : ¬ marker <:+: before ++ marker.dropLast := fun h =>
      hfirst (h.trans (List.suffix_cons c _).isInfix)
    have hnot : ¬ marker.isPrefixOf (c :: (before ++ marker ++ after)) = true := by
      intro hpre
      refine hfirst (List.IsPrefix.isInfix ?_)
      -- the occurrence would be complete before the marker is
      refine List.prefix_of_prefix_length_le (List.isPrefixOf_iff_prefix.mp hpre) ?_ ?_
      · have hparts : Parts marker before after (before ++ marker ++ after) := ⟨rfl, hshorter⟩
        exact (List.prefix_cons_inj c).mpr hparts.prefix_dropLast
      · simp only [List.cons_append, List.length_cons, List.length_append, List.length_dropLast]
        omega
    show find marker (c :: (before ++ marker ++ after)) = some (before.length + 1)
    rw [find, if_neg hnot, ih hshorter]
    rfl

theorem find_eq_none_iff (hne : marker ≠ []) : find marker text = none ↔ ¬ marker <:+: text := by
  constructor
  · intro h
    induction text with
    | nil => simpa using hne
    | cons c text ih =>
      rw [find] at h
      split at h
      · cases h
      · next hpre =>
        rw [List.infix_cons_iff, not_or]
        exact ⟨fun hoccurs => hpre (List.isPrefixOf_iff_prefix.mpr hoccurs),
          ih (Option.map_eq_none_iff.mp h)⟩
  · intro h
    by_contra hfound
    obtain ⟨i, hi⟩ := Option.ne_none_iff_exists'.mp hfound
    have htext := (parts_of_find hne hi).2.text
    refine h ?_
    rw [htext]
    exact List.infix_append _ _ _

end Find

/-- What is before the first marker: the whole text, if there is none. -/
def before (marker text : List α) : List α :=
  match find marker text with
  | some i => text.take i
  | none => text

/-- What is after the first marker, if there is one. -/
def after? (marker text : List α) : Option (List α) :=
  (find marker text).map fun i => text.drop (i + marker.length)

section Parts

variable {marker pre post text : List α}

theorem before_of_parts (hne : marker ≠ []) (h : Parts marker pre post text) :
    before marker text = pre ∧ after? marker text = some post := by
  have hfind := find_of_parts hne h
  unfold before after?
  rw [hfind, Option.map_some, h.text]
  constructor
  · show (pre ++ marker ++ post).take pre.length = pre
    rw [List.append_assoc, List.take_left]
  · rw [← List.length_append, List.drop_left]

theorem before_of_not_infix (hne : marker ≠ []) (h : ¬ marker <:+: text) :
    before marker text = text ∧ after? marker text = none := by
  have hfind := (find_eq_none_iff hne).mpr h
  unfold before after?
  rw [hfind]
  exact ⟨rfl, rfl⟩

end Parts

/-! ### What was searched already -/

omit [DecidableEq α] in
/-- **A text that was searched need not be searched again**, apart from its last characters, as
many as the marker has less one. -/
theorem not_infix_append {marker passed held more : List α}
    (hlength : marker.length ≤ held.length + 1) (hold : ¬ marker <:+: passed ++ held)
    (hnew : ¬ marker <:+: held ++ more) : ¬ marker <:+: passed ++ (held ++ more) := by
  induction passed with
  | nil => exact hnew
  | cons c passed ih =>
    rw [List.cons_append, List.infix_cons_iff, not_or] at hold ⊢
    refine ⟨fun hoccurs => hold.1 ?_, ih hold.2⟩
    -- an occurrence at the front is complete within what was searched
    refine List.prefix_of_prefix_length_le hoccurs ?_ ?_
    · refine (List.prefix_cons_inj c).mpr ?_
      rw [← List.append_assoc]
      exact List.prefix_append _ _
    · simp only [List.length_cons, List.length_append]
      omega

/-! ### The reader -/

/-- A reader: what it holds back, and what has come after the marker, once that has come. -/
structure Reader (α : Type*) where
  held : List α
  after : Option (List α)

/-- A reader that has read nothing. -/
def Reader.fresh : Reader α := ⟨[], none⟩

/-- Read a piece. The second part of the answer is passed on. -/
def feed (marker : List α) (r : Reader α) (piece : List α) : Reader α × List α :=
  match r.after with
  | some after => (⟨[], some (after ++ piece)⟩, [])
  | none =>
    -- The marker may lie across what is held back and the piece.
    let text := r.held ++ piece
    match find marker text with
    | some i => (⟨[], some (text.drop (i + marker.length))⟩, text.take i)
    | none =>
      -- No marker that has begun is longer than what is held back.
      let n := text.length - (marker.length - 1)
      (⟨text.drop n, none⟩, text.take n)

/-- Read the pieces of a text. -/
def feedAll (marker : List α) : Reader α → List (List α) → Reader α × List α
  | r, [] => (r, [])
  | r, piece :: pieces =>
    let now := feed marker r piece
    let later := feedAll marker now.1 pieces
    (later.1, now.2 ++ later.2)

/-- **The invariant.** Before the marker has come, all has been passed on but for what is held
back, which is enough to recognise it. -/
def Reads (marker passed text : List α) (r : Reader α) : Prop :=
  match r.after with
  | some after => Parts marker passed after text
  | none =>
    text = passed ++ r.held ∧ ¬ marker <:+: text ∧
      (passed = [] ∨ marker.length ≤ r.held.length + 1)

section Reader

variable {marker passed text : List α} {r : Reader α}

omit [DecidableEq α] in
theorem reads_fresh (hne : marker ≠ []) : Reads marker [] [] (Reader.fresh (α := α)) :=
  ⟨rfl, by simpa using hne, .inl rfl⟩

/-- The marker is found in what is held back, as it would be in the whole text. -/
theorem parts_of_held {held piece : List α} {i : ℕ} (hne : marker ≠ [])
    (hsearched : ¬ marker <:+: passed ++ held)
    (hheld : passed = [] ∨ marker.length ≤ held.length + 1)
    (h : find marker (held ++ piece) = some i) :
    Parts marker (passed ++ (held ++ piece).take i) ((held ++ piece).drop (i + marker.length))
      (passed ++ (held ++ piece)) := by
  obtain ⟨-, hparts⟩ := parts_of_find hne h
  have hfirst := hparts.first
  refine ⟨?_, ?_⟩
  · conv_lhs => rw [hparts.text]
    simp only [List.append_assoc]
  · obtain rfl | hlength := hheld
    · exact hfirst
    · rw [List.append_assoc]
      -- the marker less one character ends within what was searched, or after it
      obtain hshort | hlong :=
        List.prefix_or_prefix_of_prefix hparts.prefix_dropLast (List.prefix_append held piece)
      · intro hoccurs
        exact hsearched (hoccurs.trans ((List.prefix_append_right_inj passed).mpr hshort).isInfix)
      · obtain ⟨more, hmore⟩ := hlong
        rw [← hmore] at hfirst ⊢
        exact not_infix_append hlength hsearched hfirst

/-- **Step.** Reading a piece keeps the invariant. -/
theorem reads_feed (hne : marker ≠ []) (h : Reads marker passed text r) (piece : List α) :
    Reads marker (passed ++ (feed marker r piece).2) (text ++ piece) (feed marker r piece).1 := by
  obtain ⟨held, after⟩ := r
  cases after with
  | some after =>
    obtain ⟨htext, hfirst⟩ := h
    refine ⟨?_, ?_⟩
    · rw [htext]
      simp [feed]
    · simpa [feed] using hfirst
  | none =>
    obtain ⟨rfl, hsearched, hheld⟩ := h
    rw [List.append_assoc]
    cases hfind : find marker (held ++ piece) with
    | some i =>
      have hfeed : feed marker ⟨held, none⟩ piece =
          (⟨[], some ((held ++ piece).drop (i + marker.length))⟩, (held ++ piece).take i) := by
        simp only [feed, hfind]
      rw [hfeed]
      exact parts_of_held hne hsearched hheld hfind
    | none =>
      let n := (held ++ piece).length - (marker.length - 1)
      have hfeed : feed marker ⟨held, none⟩ piece =
          (⟨(held ++ piece).drop n, none⟩, (held ++ piece).take n) := by
        simp only [feed, hfind, n]
      rw [hfeed]
      refine ⟨?_, ?_, ?_⟩
      · show passed ++ (held ++ piece) = passed ++ (held ++ piece).take n ++ (held ++ piece).drop n
        rw [List.append_assoc, List.take_append_drop]
      · -- the marker is not in the new text, so neither in the whole one
        have hnew := (find_eq_none_iff hne).mp hfind
        obtain rfl | hlength := hheld
        · exact hnew
        · exact not_infix_append hlength hsearched hnew
      · show passed ++ (held ++ piece).take n = [] ∨
          marker.length ≤ ((held ++ piece).drop n).length + 1
        by_cases hshort : (held ++ piece).length ≤ marker.length - 1
        · -- nothing is passed on yet
          have hn : n = 0 := Nat.sub_eq_zero_of_le hshort
          rw [hn, List.take_zero, List.append_nil, List.drop_zero]
          obtain hpassed | hlength := hheld
          · exact .inl hpassed
          · right
            have hheld : marker.length ≤ held.length + 1 := hlength
            rw [List.length_append]
            omega
        · -- what is kept has just the length that is needed
          right
          rw [List.length_drop]
          omega

/-- **Run.** Reading the pieces of a text keeps the invariant. -/
theorem reads_feedAll (hne : marker ≠ []) (h : Reads marker passed text r)
    (pieces : List (List α)) :
    Reads marker (passed ++ (feedAll marker r pieces).2) (text ++ pieces.flatten)
      (feedAll marker r pieces).1 := by
  induction pieces generalizing passed text r with
  | nil => simpa [feedAll] using h
  | cons piece pieces ih =>
    have hlater := ih (reads_feed hne h piece)
    rw [List.flatten_cons, ← List.append_assoc]
    show Reads marker (passed ++ ((feed marker r piece).2 ++ _)) _ _
    rw [← List.append_assoc]
    exact hlater

/-- **However a text is cut**, the reader has passed on and holds what is before the first
marker, and keeps what is after it. -/
theorem feedAll_fresh (hne : marker ≠ []) (pieces : List (List α)) :
    let read := feedAll marker Reader.fresh pieces
    (read.1.after = none → read.2 ++ read.1.held = before marker pieces.flatten) ∧
      (read.1.after.isSome → read.2 = before marker pieces.flatten) ∧
      read.1.after = after? marker pieces.flatten := by
  intro read
  have hreads : Reads marker read.2 pieces.flatten read.1 :=
    reads_feedAll hne (reads_fresh hne) pieces
  unfold Reads at hreads
  cases hafter : read.1.after with
  | some after =>
    rw [hafter] at hreads
    obtain ⟨hbefore, hrest⟩ := before_of_parts hne hreads
    exact ⟨fun h => (by cases h), fun _ => hbefore.symm, hrest.symm⟩
  | none =>
    rw [hafter] at hreads
    obtain ⟨htext, hnone, -⟩ := hreads
    obtain ⟨hbefore, hrest⟩ := before_of_not_infix hne hnone
    exact ⟨fun _ => (hbefore.trans htext).symm, fun h => (by cases h), hrest.symm⟩

end Reader

end HoldBack
end Framework
