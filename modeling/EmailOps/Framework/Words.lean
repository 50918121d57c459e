import Mathlib.Data.List.DropRight
import Mathlib.Data.List.Infix

/-!
# Words between separators

* `words` are the words of a text, and `strip` removes the separators around it.
* `words_append_word` and `words_append_gap` say how the words of a text are made up, and
  `words_strip` that those of a stripped text are the same.
* `mem_words`: a word is not empty, has no separator, and stands in the text.
-/

namespace Framework
namespace Words

variable {α : Type*} (sep : α → Bool)

/-- Does a text begin with a word? -/
def begins (text : List α) : Bool :=
  text.head?.any (!sep ·)

/-- The words of a text. -/
def words : List α → List (List α)
  | [] => []
  | c :: rest =>
    if sep c then words rest
    else if begins sep rest then (words rest).modifyHead (c :: ·)
    else [c] :: words rest

/-- A text without the separators around it. -/
def strip (text : List α) : List α :=
  (text.dropWhile sep).rdropWhile sep

variable {sep}

@[simp] theorem words_nil : words sep [] = [] := rfl

theorem words_cons_of_sep {c : α} (hc : sep c = true) (rest : List α) :
    words sep (c :: rest) = words sep rest := by
  rw [words, if_pos hc]

theorem words_cons_of_not_sep {c : α} (hc : sep c = false) (rest : List α) :
    words sep (c :: rest) =
      if begins sep rest then (words sep rest).modifyHead (c :: ·) else [c] :: words sep rest := by
  rw [words, if_neg (by rw [hc]; exact Bool.false_ne_true)]

/-- A word in front of a text is a word of its own, or the start of the first one. -/
theorem words_append_word {word : List α} (hne : word ≠ []) (hword : ∀ c ∈ word, sep c = false)
    (rest : List α) :
    words sep (word ++ rest) =
      if begins sep rest then (words sep rest).modifyHead (word ++ ·)
      else word :: words sep rest := by
  induction word with
  | nil => exact absurd rfl hne
  | cons c word ih =>
    obtain ⟨hc, htail⟩ := List.forall_mem_cons.mp hword
    rw [List.cons_append, words_cons_of_not_sep hc]
    cases word with
    | nil => rfl
    | cons d word =>
      have hbegins : begins sep (d :: word ++ rest) = true := by
        change (!sep d) = true
        rw [htail d List.mem_cons_self]
        rfl
      rw [if_pos hbegins, ih (List.cons_ne_nil d word) htail]
      split
      · rw [List.modifyHead_modifyHead]
        rfl
      · rfl

theorem words_gap_append {gap : List α} (hgap : ∀ c ∈ gap, sep c = true) (text : List α) :
    words sep (gap ++ text) = words sep text := by
  induction gap with
  | nil => rfl
  | cons c gap ih =>
    obtain ⟨hc, htail⟩ := List.forall_mem_cons.mp hgap
    rw [List.cons_append, words_cons_of_sep hc, ih htail]

theorem words_append_gap {gap : List α} (hgap : ∀ c ∈ gap, sep c = true) (text : List α) :
    words sep (text ++ gap) = words sep text := by
  induction text with
  | nil =>
    have hall := words_gap_append hgap []
    rwa [List.append_nil] at hall
  | cons c text ih =>
    have hbegins : begins sep (text ++ gap) = begins sep text := by
      cases text with
      | nil =>
        cases gap with
        | nil => rfl
        | cons d gap =>
          change (!sep d) = false
          rw [hgap d List.mem_cons_self]
          rfl
      | cons d text => rfl
    rw [List.cons_append, words, words, hbegins, ih]

variable (sep) in
/-- Around a stripped text there are separators only. -/
theorem exists_eq_append_strip (text : List α) :
    ∃ pre post, (∀ c ∈ pre, sep c = true) ∧ (∀ c ∈ post, sep c = true) ∧
      text = pre ++ strip sep text ++ post := by
  refine ⟨text.takeWhile sep, (text.dropWhile sep).rtakeWhile sep,
    fun c hc => List.mem_takeWhile_imp hc, fun c hc => List.mem_rtakeWhile_imp hc, ?_⟩
  rw [List.append_assoc, strip, List.rdropWhile_append_rtakeWhile, List.takeWhile_append_dropWhile]

theorem words_strip (text : List α) : words sep (strip sep text) = words sep text := by
  obtain ⟨pre, post, hpre, hpost, htext⟩ := exists_eq_append_strip sep text
  calc words sep (strip sep text) = words sep (pre ++ strip sep text) :=
        (words_gap_append hpre _).symm
    _ = words sep (pre ++ strip sep text ++ post) := (words_append_gap hpost _).symm
    _ = words sep text := by rw [← htext]

/-- The first word of a text that begins with one starts the text. -/
theorem words_of_begins {text : List α} (h : begins sep text = true) :
    ∃ word rest, words sep text = word :: rest ∧ word <+: text := by
  induction text with
  | nil => cases h
  | cons c text ih =>
    have hc : sep c = false := by
      change (!sep c) = true at h
      rwa [Bool.not_eq_true'] at h
    rw [words_cons_of_not_sep hc]
    by_cases hbegins : begins sep text = true
    · obtain ⟨word, rest, hwords, hprefix⟩ := ih hbegins
      rw [if_pos hbegins, hwords]
      exact ⟨c :: word, rest, rfl, List.cons_prefix_cons.mpr ⟨rfl, hprefix⟩⟩
    · rw [if_neg hbegins]
      exact ⟨[c], words sep text, rfl, List.cons_prefix_cons.mpr ⟨rfl, List.nil_prefix⟩⟩

/-- A word is not empty, has no separator, and stands in the text. -/
theorem mem_words {word text : List α} (h : word ∈ words sep text) :
    word ≠ [] ∧ (∀ c ∈ word, sep c = false) ∧ word <:+: text := by
  induction text generalizing word with
  | nil => cases h
  | cons c text ih =>
    have hlater : ∀ {word}, word ∈ words sep text →
        word ≠ [] ∧ (∀ c ∈ word, sep c = false) ∧ word <:+: c :: text := fun hword =>
      ⟨(ih hword).1, (ih hword).2.1, List.infix_cons (ih hword).2.2⟩
    cases hc : sep c with
    | true =>
      rw [words_cons_of_sep hc] at h
      exact hlater h
    | false =>
      rw [words_cons_of_not_sep hc] at h
      split at h
      · rename_i hbegins
        obtain ⟨first, rest, hwords, hprefix⟩ := words_of_begins hbegins
        rw [hwords, List.modifyHead_cons] at h
        rcases List.mem_cons.mp h with rfl | hrest
        · refine ⟨List.cons_ne_nil c first, List.forall_mem_cons.mpr ⟨hc, ?_⟩,
            (List.cons_prefix_cons.mpr ⟨rfl, hprefix⟩).isInfix⟩
          exact (ih (hwords ▸ List.mem_cons_self)).2.1
        · exact hlater (hwords ▸ List.mem_cons_of_mem first hrest)
      · rcases List.mem_cons.mp h with rfl | hrest
        · refine ⟨List.cons_ne_nil c [], ?_, List.prefix_append [c] text |>.isInfix⟩
          exact List.forall_mem_singleton.mpr hc
        · exact hlater hrest

end Words
end Framework
