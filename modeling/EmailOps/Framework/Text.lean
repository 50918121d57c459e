import Mathlib.Data.List.DropRight
import Mathlib.Data.Nat.Notation

/-!
# Text as lists of characters

A text is a list of characters, so that parsers and their proofs can recurse on
it. White space is the ECMAScript set, shared by `String.prototype.trim` and the
regular-expression class `\s`.

* `trim` removes white space at both ends. `trim_eq_nil_iff` says when nothing is
  left, and `count_trim` that other characters are all kept.
* `append_cons_inj_of_count` and `append_cons_inj_of_notMem` take a text apart at a separator.
* `CaseMapping` is a lower-case mapping: Unicode's is one, and `asciiCase`, which
  agrees with it on ASCII text, is the one concrete texts are computed with.
-/

namespace Framework

/-- A text, as its list of characters. -/
abbrev Text := List Char

instance : LawfulBEq Text := inferInstance

instance : LawfulBEq (List Text) := inferInstance

namespace Text

/-- The white space and line terminators of ECMAScript. -/
def isWhite (c : Char) : Bool :=
  (9 ≤ c.toNat && c.toNat ≤ 13) || c.toNat = 0x20 || c.toNat = 0xa0 || c.toNat = 0x1680 ||
    (0x2000 ≤ c.toNat && c.toNat ≤ 0x200a) || c.toNat = 0x2028 || c.toNat = 0x2029 ||
    c.toNat = 0x202f || c.toNat = 0x205f || c.toNat = 0x3000 || c.toNat = 0xfeff

/-- Remove white space at both ends. -/
def trim (t : Text) : Text :=
  (t.dropWhile isWhite).rdropWhile isWhite

/-- A text is blank when it is white space throughout. -/
def isBlank (t : Text) : Bool :=
  t.all isWhite

@[simp] theorem trim_nil : trim [] = [] := rfl

/-- Nothing is left of a text exactly when it is blank. -/
theorem trim_eq_nil_iff (t : Text) : trim t = [] ↔ t.isBlank = true := by
  unfold trim isBlank
  rw [List.rdropWhile_eq_nil_iff, List.all_eq_true]
  constructor
  · intro h x hx
    have hd : t.dropWhile isWhite = [] := by
      -- The first character that survives `dropWhile` is not white space.
      cases hcs : t.dropWhile isWhite with
      | nil => rfl
      | cons c cs =>
        have hc := List.head_dropWhile_not isWhite (l := t) (by simp [hcs])
        simp only [hcs, List.head_cons] at hc
        have := h c (by simp [hcs])
        rw [hc] at this
        cases this
    exact List.dropWhile_eq_nil_iff.mp hd x hx
  · intro h x hx
    exact h x ((List.dropWhile_sublist isWhite).subset hx)

/-- Trimming drops white space only: every other character occurs as often as
before. -/
theorem count_trim {c : Char} (hc : isWhite c = false) (t : Text) :
    (trim t).count c = t.count c := by
  have hdrop : ∀ s : Text, (s.dropWhile isWhite).count c = s.count c := by
    intro s
    induction s with
    | nil => rfl
    | cons d s ih =>
      by_cases hd : isWhite d = true
      · have hne : d ≠ c := by
          rintro rfl
          rw [hc] at hd
          cases hd
        rw [List.dropWhile_cons_of_pos hd, ih, List.count_cons_of_ne hne]
      · rw [List.dropWhile_cons_of_neg hd]
  unfold trim List.rdropWhile
  rw [List.count_reverse, hdrop, List.count_reverse, hdrop]

/-- What is left was there. -/
theorem mem_of_mem_trim {c : Char} {t : Text} (h : c ∈ trim t) : c ∈ t :=
  (List.dropWhile_sublist isWhite).subset ((List.rdropWhile_prefix isWhite _).subset h)

/-- White space in front is dropped. -/
theorem trim_cons_of_white {c : Char} (hc : isWhite c = true) (t : Text) :
    trim (c :: t) = trim t := by
  unfold trim
  rw [List.dropWhile_cons_of_pos hc]

/-- What is left does not begin with white space. -/
theorem isWhite_head_trim {c : Char} {s t : Text} (h : trim t = c :: s) :
    isWhite c = false := by
  have hpre : (trim t) <+: t.dropWhile isWhite := List.rdropWhile_prefix isWhite _
  rw [h] at hpre
  obtain ⟨r, hr⟩ := hpre
  have hhead := List.head_dropWhile_not isWhite (l := t) (by simp [← hr])
  simpa [← hr] using hhead

/-- A text is what is left of it between two blank texts. -/
theorem exists_eq_append_trim (t : Text) :
    ∃ pre post, t = pre ++ trim t ++ post ∧ isBlank post = true := by
  refine ⟨t.takeWhile isWhite, (t.dropWhile isWhite).rtakeWhile isWhite, ?_, ?_⟩
  · have hright : trim t ++ (t.dropWhile isWhite).rtakeWhile isWhite = t.dropWhile isWhite :=
      List.rdropWhile_append_rtakeWhile
    rw [List.append_assoc, hright, List.takeWhile_append_dropWhile]
  · exact List.all_eq_true.mpr fun c hc => List.mem_rtakeWhile_imp hc

/-- White space at the end does not change what is left. -/
theorem trim_append_blank (t : Text) {post : Text} (hpost : isBlank post = true) :
    trim (t ++ post) = trim t := by
  induction post using List.reverseRecOn with
  | nil => rw [List.append_nil]
  | append_singleton post c ih =>
    have hc : isWhite c = true := List.all_eq_true.mp hpost c (by simp)
    have hrest : isBlank post = true :=
      List.all_eq_true.mpr fun d hd => List.all_eq_true.mp hpost d (by simp [hd])
    rw [← ih hrest, ← List.append_assoc]
    unfold trim
    rw [List.dropWhile_append]
    split
    · next hnil =>
      rw [List.dropWhile_cons_of_pos hc, List.isEmpty_iff.mp hnil]
      rfl
    · rw [List.rdropWhile_concat_pos _ _ _ hc]

/-- A text without white space is left as it is. -/
theorem trim_of_visible {t : Text} (h : ∀ c ∈ t, isWhite c = false) : trim t = t := by
  have hdrop : t.dropWhile isWhite = t := by
    cases t with
    | nil => rfl
    | cons c s => rw [List.dropWhile_cons_of_neg (by simp [h c List.mem_cons_self])]
  unfold trim
  rw [hdrop]
  refine List.rdropWhile_eq_self_iff.mpr fun hne hlast => ?_
  rw [h _ (List.getLast_mem hne)] at hlast
  cases hlast

/-- Trimming twice is trimming once. -/
theorem trim_trim (t : Text) : trim (trim t) = trim t := by
  have hdrop : (trim t).dropWhile isWhite = trim t := by
    cases h : trim t with
    | nil => rfl
    | cons c s => rw [List.dropWhile_cons_of_neg (by simp [isWhite_head_trim h])]
  calc trim (trim t) = (trim t).rdropWhile isWhite := by
        rw [show trim (trim t) = ((trim t).dropWhile isWhite).rdropWhile isWhite from rfl, hdrop]
    _ = trim t := List.rdropWhile_idempotent isWhite _

/-- The pieces of a list of texts joined by a separator. -/
def join (sep : Text) : List Text → Text
  | [] => []
  | [t] => t
  | t :: u :: ts => t ++ sep ++ join sep (u :: ts)

@[simp] theorem join_nil (sep : Text) : join sep [] = [] := rfl

@[simp] theorem join_singleton (sep t : Text) : join sep [t] = t := rfl

theorem join_cons_cons (sep t u : Text) (ts : List Text) :
    join sep (t :: u :: ts) = t ++ sep ++ join sep (u :: ts) := rfl

/-- **A separator splits two texts alike**, when as many of them come after it. -/
theorem append_cons_inj_of_count {c : Char} {a b x y : Text} (hcount : x.count c = y.count c)
    (h : a ++ c :: x = b ++ c :: y) : a = b ∧ x = y := by
  -- What one text has more than the other before its separator is empty.
  have hsame : ∀ {a b x y more : Text}, x.count c = y.count c → b = a ++ more →
      c :: x = more ++ c :: y → a = b ∧ x = y := by
    intro a b x y more hcount hb hmore
    cases more with
    | nil => exact ⟨by simpa using hb.symm, (List.cons.inj hmore).2⟩
    | cons d more =>
      have htail : x = more ++ c :: y := (List.cons.inj hmore).2
      have hcounts := congrArg (List.count c) htail
      rw [List.count_append, List.count_cons_self] at hcounts
      omega
  rcases List.append_eq_append_iff.mp h with ⟨more, hb, hmore⟩ | ⟨more, ha, hmore⟩
  · exact hsame hcount hb hmore
  · obtain ⟨hab, hxy⟩ := hsame hcount.symm ha hmore
    exact ⟨hab.symm, hxy.symm⟩

/-- The first separator splits two texts alike. -/
theorem append_cons_inj_of_notMem {c : Char} {a b x y : Text} (ha : c ∉ a) (hb : c ∉ b)
    (h : a ++ c :: x = b ++ c :: y) : a = b ∧ x = y := by
  have hcount : a.reverse.count c = b.reverse.count c := by
    rw [List.count_reverse, List.count_reverse, List.count_eq_zero.mpr ha,
      List.count_eq_zero.mpr hb]
  have hreverse := congrArg List.reverse h
  simp only [List.reverse_append, List.reverse_cons, List.append_assoc, List.singleton_append]
    at hreverse
  obtain ⟨hx, ha⟩ := append_cons_inj_of_count hcount hreverse
  exact ⟨List.reverse_injective ha, List.reverse_injective hx⟩

/-! ### Few characters -/

/-- What is checked of each item of a list. -/
theorem forall_mem_of_all {α : Type*} {p : α → Prop} [DecidablePred p] {xs : List α}
    (h : (xs.all fun x => decide (p x)) = true) : ∀ x ∈ xs, p x :=
  fun x hx => of_decide_eq_true (List.all_eq_true.mp h x hx)

/-- What is checked of each two items of two lists. -/
theorem forall_mem₂_of_all {α : Type*} {p : α → α → Prop} [∀ x y, Decidable (p x y)]
    {xs ys : List α} (h : (xs.all fun x => ys.all fun y => decide (p x y)) = true) :
    ∀ x ∈ xs, ∀ y ∈ ys, p x y :=
  fun x hx => forall_mem_of_all (List.all_eq_true.mp h x hx)

/-! ### Pieces of a text -/

/-- A character other than the separator is in one of the pieces. -/
theorem exists_mem_splitOn {c sep : Char} (hne : c ≠ sep) :
    ∀ {t : Text}, c ∈ t → ∃ piece ∈ t.splitOn sep, c ∈ piece := by
  intro t
  induction t with
  | nil => exact fun hmem => absurd hmem List.not_mem_nil
  | cons b t ih =>
    intro hmem
    rw [List.splitOn_cons_eq_if_modifyHead]
    obtain ⟨head, rest, hsplit⟩ := List.exists_cons_of_ne_nil (List.splitOn_ne_nil sep t)
    rw [hsplit] at ih ⊢
    split
    · next hsep =>
      -- A separator is no character of a piece, so the character is in the rest.
      obtain rfl := beq_iff_eq.mp hsep
      obtain ⟨piece, hpiece, hin⟩ := ih ((List.mem_cons.mp hmem).resolve_left hne)
      exact ⟨piece, List.mem_cons_of_mem _ hpiece, hin⟩
    · -- The first character joins the first piece.
      rw [List.modifyHead_cons]
      cases List.mem_cons.mp hmem with
      | inl heq => exact ⟨b :: head, List.mem_cons_self, by rw [heq]; exact List.mem_cons_self⟩
      | inr hmem =>
        obtain ⟨piece, hpiece, hin⟩ := ih hmem
        cases List.mem_cons.mp hpiece with
        | inl heq => exact ⟨b :: head, List.mem_cons_self, List.mem_cons_of_mem _ (heq ▸ hin)⟩
        | inr hrest => exact ⟨piece, List.mem_cons_of_mem _ hrest, hin⟩

/-- The pieces have no separator. -/
theorem notMem_of_mem_splitOn {sep : Char} {t piece : Text} (h : piece ∈ t.splitOn sep) :
    sep ∉ piece := by
  induction t generalizing piece with
  | nil =>
    rw [List.splitOn_nil, List.mem_singleton] at h
    rw [h]
    exact List.not_mem_nil
  | cons b t ih =>
    rw [List.splitOn_cons_eq_if_modifyHead] at h
    obtain ⟨head, rest, hsplit⟩ := List.exists_cons_of_ne_nil (List.splitOn_ne_nil sep t)
    rw [hsplit] at ih h
    split at h
    · cases List.mem_cons.mp h with
      | inl heq => rw [heq]; exact List.not_mem_nil
      | inr hmem => exact ih hmem
    · next hb =>
      rw [List.modifyHead_cons] at h
      cases List.mem_cons.mp h with
      | inl heq =>
        rw [heq, List.mem_cons, not_or]
        exact ⟨fun heq => hb (by simp [heq]), ih List.mem_cons_self⟩
      | inr hmem => exact ih (List.mem_cons_of_mem _ hmem)

end Text

/-- A lower-case mapping on texts. The laws are those that hold of Unicode's:
it maps only the empty text to the empty text, and it maps ASCII letter by
letter. -/
class CaseMapping where
  /-- The text in lower case. -/
  toLowerCase : Text → Text
  toLowerCase_eq_nil : ∀ t, toLowerCase t = [] ↔ t = []
  toLowerCase_ascii : ∀ t : Text, (∀ c ∈ t, c.toNat < 128) → toLowerCase t = t.map Char.toLower

export CaseMapping (toLowerCase toLowerCase_eq_nil toLowerCase_ascii)

/-- The mapping that lowers ASCII letters and keeps everything else. -/
instance asciiCase : CaseMapping where
  toLowerCase t := t.map Char.toLower
  toLowerCase_eq_nil _ := List.map_eq_nil_iff
  toLowerCase_ascii _ _ := rfl

@[simp] theorem toLowerCase_nil [CaseMapping] : toLowerCase [] = [] :=
  (toLowerCase_eq_nil []).mpr rfl

end Framework
