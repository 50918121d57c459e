import Mathlib.Data.List.Basic

/-!
# Words with quotes

A text is taken apart at its separators, but for those inside quotes: a quote opens a span that
runs to the next one, or to the end of the text when there is none.

* `words` are the words of a text, read in one pass.
* `Renders`: a text is its words, in order, with separators between any two of them and around
  them. `renders_words` says so of the words that are read.
* `flatten_words`: put together, they are the text without the separators outside quotes.
-/

namespace Framework
namespace QuotedWords

variable {α : Type*} [DecidableEq α] (sep : α → Bool) (quote : α)

/-- The rest of a pass: between words, or within one that was begun, inside quotes or not. -/
def wordsFrom : Option (List α × Bool) → List α → List (List α)
  | none, [] => []
  | some (word, _), [] => [word]
  | none, c :: rest =>
    if sep c then wordsFrom none rest else wordsFrom (some ([c], c = quote)) rest
  | some (word, true), c :: rest => wordsFrom (some (word ++ [c], c ≠ quote)) rest
  | some (word, false), c :: rest =>
    if sep c then word :: wordsFrom none rest
    else wordsFrom (some (word ++ [c], c = quote)) rest

/-- The words of a text. -/
def words (text : List α) : List (List α) :=
  wordsFrom sep quote none text

/-- The text without the separators that are outside quotes. -/
def bare : Bool → List α → List α
  | _, [] => []
  | true, c :: rest => c :: bare (c ≠ quote) rest
  | false, c :: rest => if sep c then bare false rest else c :: bare (c = quote) rest

/-- Is the end of a text inside quotes, when its start is or is not? -/
def quoted : Bool → List α → Bool
  | inside, [] => inside
  | true, c :: rest => quoted (c ≠ quote) rest
  | false, c :: rest => if sep c then quoted false rest else quoted (c = quote) rest

/-- A word has no separator outside its quotes. -/
def IsWord (word : List α) : Prop :=
  word ≠ [] ∧ bare sep quote false word = word

/-- What may follow a word: nothing, or a separator when its quotes are closed. -/
def Ends (word rest : List α) : Prop :=
  rest ≠ [] → quoted sep quote false word = false ∧ ∃ c ∈ rest.head?, sep c = true

/-- A text that is words and the separators between them. -/
inductive Renders : List (List α) → List α → Prop
  | nil {gap : List α} (hgap : ∀ c ∈ gap, sep c = true) : Renders [] gap
  | cons {gap word rest : List α} {ws : List (List α)} (hgap : ∀ c ∈ gap, sep c = true)
      (hword : IsWord sep quote word) (hends : Ends sep quote word rest) (hrest : Renders ws rest) :
      Renders (word :: ws) (gap ++ word ++ rest)

variable {sep quote}

theorem Renders.cons_sep {ws : List (List α)} {text : List α} {c : α} (hc : sep c = true)
    (h : Renders sep quote ws text) : Renders sep quote ws (c :: text) := by
  cases h with
  | nil hgap => exact .nil (List.forall_mem_cons.mpr ⟨hc, hgap⟩)
  | @cons gap word rest ws hgap hword hends hrest =>
    have hgap' : ∀ x ∈ c :: gap, sep x = true := List.forall_mem_cons.mpr ⟨hc, hgap⟩
    exact .cons hgap' hword hends hrest

/-- **The words that are read render the text.** A word that was begun has a part of it in the
text, at the front. -/
theorem renders_wordsFrom (text : List α) : Renders sep quote (wordsFrom sep quote none text) text ∧
    ∀ word inside, ∃ more rest ws,
      wordsFrom sep quote (some (word, inside)) text = (word ++ more) :: ws ∧
      text = more ++ rest ∧ bare sep quote inside more = more ∧
      (rest ≠ [] → quoted sep quote inside more = false ∧ ∃ c ∈ rest.head?, sep c = true) ∧
        Renders sep quote ws rest := by
  induction text with
  | nil =>
    refine ⟨.nil nofun, fun word inside => ⟨[], [], [], ?_, rfl, ?_, nofun, .nil nofun⟩⟩
    · rw [wordsFrom, List.append_nil]
    · rw [bare]
  | cons c text ih =>
    obtain ⟨hbetween, hwithin⟩ := ih
    -- A character more of a word that was begun.
    have hmore : ∀ word inside inside', (∀ more, bare sep quote inside (c :: more) =
          c :: bare sep quote inside' more) →
        (∀ more, quoted sep quote inside (c :: more) = quoted sep quote inside' more) →
        ∃ more rest ws,
          wordsFrom sep quote (some (word ++ [c], inside')) text = (word ++ more) :: ws ∧
          c :: text = more ++ rest ∧ bare sep quote inside more = more ∧
          (rest ≠ [] → quoted sep quote inside more = false ∧ ∃ c ∈ rest.head?, sep c = true) ∧
            Renders sep quote ws rest := by
      intro word inside inside' hbare hquoted
      obtain ⟨more, rest, ws, hws, htext, hkept, hends, hrest⟩ := hwithin (word ++ [c]) inside'
      refine ⟨c :: more, rest, ws, ?_, ?_, ?_, ?_, hrest⟩
      · rw [hws, List.append_assoc, List.singleton_append]
      · rw [htext, List.cons_append]
      · rw [hbare, hkept]
      · rw [hquoted]
        exact hends
    constructor
    · rw [wordsFrom]
      by_cases hc : sep c = true
      · rw [if_pos hc]
        exact hbetween.cons_sep hc
      · rw [if_neg hc]
        obtain ⟨more, rest, ws, hws, htext, hkept, hends, hrest⟩ := hmore [] false (c = quote)
          (fun more => by rw [bare, if_neg hc]) (fun more => by rw [quoted, if_neg hc])
        rw [List.nil_append] at hws
        have hne : more ≠ [] := by
          rintro rfl
          obtain ⟨more', rest', ws', hws', -⟩ := hwithin [c] (c = quote)
          rw [hws'] at hws
          cases hws
        rw [hws, htext]
        have hgap : ∀ x ∈ ([] : List α), sep x = true := nofun
        exact .cons hgap ⟨hne, hkept⟩ hends hrest
    · intro word inside
      cases inside with
      | true => exact hmore word true _ (fun more => by rw [bare]) fun more => by rw [quoted]
      | false =>
        rw [wordsFrom]
        by_cases hc : sep c = true
        · rw [if_pos hc]
          refine ⟨[], c :: text, _, ?_, rfl, ?_, fun _ => ⟨?_, c, rfl, hc⟩, hbetween.cons_sep hc⟩
          · rw [List.append_nil]
          · rw [bare]
          · rw [quoted]
        · rw [if_neg hc]
          exact hmore word false _ (fun more => by rw [bare, if_neg hc]) fun more => by
            rw [quoted, if_neg hc]

theorem renders_words (text : List α) : Renders sep quote (words sep quote text) text :=
  (renders_wordsFrom text).1

theorem bare_append (inside : Bool) (s t : List α) : bare sep quote inside (s ++ t) =
    bare sep quote inside s ++ bare sep quote (quoted sep quote inside s) t := by
  induction s generalizing inside with
  | nil => cases inside <;> rw [quoted, bare] <;> rfl
  | cons c s ih =>
    cases inside with
    | true => rw [List.cons_append, bare, bare, quoted, ih, List.cons_append]
    | false =>
      rw [List.cons_append, bare, bare, quoted]
      split
      · exact ih false
      · rw [ih, List.cons_append]

theorem bare_gap {gap : List α} (h : ∀ c ∈ gap, sep c = true) (t : List α) :
    bare sep quote false (gap ++ t) = bare sep quote false t := by
  induction gap with
  | nil => rfl
  | cons c gap ih =>
    obtain ⟨hc, hgap⟩ := List.forall_mem_cons.mp h
    rw [List.cons_append, bare, if_pos hc, ih hgap]

/-- Rendered words, put together, are the text without the separators outside quotes. -/
theorem Renders.flatten_eq {ws : List (List α)} {text : List α} (h : Renders sep quote ws text) :
    ws.flatten = bare sep quote false text := by
  induction h with
  | @nil gap hgap =>
    have heq : bare sep quote false (gap ++ []) = bare sep quote false [] := bare_gap hgap []
    rw [List.append_nil] at heq
    rw [heq, bare]
    rfl
  | @cons gap word rest ws hgap hword hends hrest ih =>
    rw [List.append_assoc, bare_gap hgap, bare_append, hword.2, List.flatten_cons, ih]
    -- After the word the quotes are closed, or nothing follows.
    by_cases hnil : rest = []
    · rw [hnil, bare, bare]
    · rw [(hends hnil).1]

/-- **Nothing is lost**: the words put together are the text without the separators outside
quotes. -/
theorem flatten_words (text : List α) :
    (words sep quote text).flatten = bare sep quote false text :=
  (renders_words text).flatten_eq

end QuotedWords
end Framework
