import Mathlib.Data.List.Basic
import Mathlib.Data.List.Infix
import EmailOps.Framework.Text

/-!
# Replacing the matches of a pattern

A text is searched from the left for the matches of a pattern. Each match is replaced, and
the search goes on behind it, so that what a replacement puts in is not searched again.

* `replaceAll` replaces the matches, `splitAt` gives the pieces between them.
  `matchInduction` is the induction along the search.
* `Free` says that a text has no match. Such a text is left as it is, and where a match
  loses items of a kind, only such a text is: `countP_replaceAll_eq_iff`.
  `replaceEach` goes through several patterns.
* `literal` is the pattern of one word in either case of its letters. `free_literal_iff`
  says in which texts it does not occur.
-/

namespace Framework
namespace Replacing

open Text

variable {α : Type*}

/-- How many items of a text after the first belong to a match that begins with it. -/
abbrev Pattern (α : Type*) := List α → Option ℕ

/-- Search a text after so many items of it, which belong to the last match. -/
def replaceFrom (m : Pattern α) (new : List α) : ℕ → List α → List α
  | _, [] => []
  | k + 1, _ :: t => replaceFrom m new k t
  | 0, c :: t =>
    match m (c :: t) with
    | some k => new ++ replaceFrom m new k t
    | none => c :: replaceFrom m new 0 t

/-- Replace every match. -/
def replaceAll (m : Pattern α) (new t : List α) : List α :=
  replaceFrom m new 0 t

/-- The pieces of a text after so many items of it. -/
def piecesFrom (m : Pattern α) : ℕ → List α → List (List α)
  | _, [] => [[]]
  | k + 1, _ :: t => piecesFrom m k t
  | 0, c :: t =>
    match m (c :: t) with
    | some k => [] :: piecesFrom m k t
    | none => (piecesFrom m 0 t).modifyHead (c :: ·)

/-- The pieces of a text between the matches. -/
def splitAt (m : Pattern α) (t : List α) : List (List α) :=
  piecesFrom m 0 t

/-- A text has no match. -/
def Free (m : Pattern α) (t : List α) : Prop :=
  ∀ c u, c :: u <:+ t → m (c :: u) = none

variable {m : Pattern α} {new : List α}

@[simp] theorem replaceAll_nil : replaceAll m new [] = [] := rfl

theorem replaceFrom_eq (k : ℕ) (t : List α) :
    replaceFrom m new k t = replaceAll m new (t.drop k) := by
  induction t generalizing k with
  | nil => rw [List.drop_nil]; cases k <;> rfl
  | cons c t ih =>
    cases k with
    | zero => rfl
    | succ k => exact ih k

theorem replaceAll_of_match {c : α} {t : List α} {k : ℕ} (h : m (c :: t) = some k) :
    replaceAll m new (c :: t) = new ++ replaceAll m new (t.drop k) := by
  rw [← replaceFrom_eq]
  change (match m (c :: t) with | some k => _ | none => _) = _
  rw [h]

theorem replaceAll_of_none {c : α} {t : List α} (h : m (c :: t) = none) :
    replaceAll m new (c :: t) = c :: replaceAll m new t := by
  change (match m (c :: t) with | some k => _ | none => _) = _
  rw [h]
  rfl

/-- **Along the search**: a match is passed as a whole, any other item alone. -/
theorem matchInduction (m : Pattern α) {P : List α → Prop} (nil : P [])
    (hit : ∀ c t k, m (c :: t) = some k → P (t.drop k) → P (c :: t))
    (miss : ∀ c t, m (c :: t) = none → P t → P (c :: t)) (t : List α) : P t := by
  induction h : t.length using Nat.strong_induction_on generalizing t with
  | _ n ih =>
    cases t with
    | nil => exact nil
    | cons c t =>
      rw [List.length_cons] at h
      cases hm : m (c :: t) with
      | none => exact miss c t hm (ih t.length (by omega) t rfl)
      | some k =>
        refine hit c t k hm (ih _ ?_ _ rfl)
        rw [List.length_drop]
        omega

theorem splitAt_ne_nil (t : List α) : splitAt m t ≠ [] := by
  have h : ∀ k, piecesFrom m k t ≠ [] := by
    induction t with
    | nil => exact fun k => List.cons_ne_nil _ _
    | cons c t ih =>
      intro k
      cases k with
      | succ k => exact ih k
      | zero =>
        rw [piecesFrom]
        split
        · exact List.cons_ne_nil _ _
        · exact fun hnil => ih 0 (List.modifyHead_eq_nil_iff.mp hnil)
  exact h 0

/-! ### Texts without a match -/

theorem free_nil : Free m [] := by
  intro c u hu
  exact absurd (List.suffix_nil.mp hu) (List.cons_ne_nil c u)

theorem free_cons_iff {c : α} {t : List α} : Free m (c :: t) ↔ m (c :: t) = none ∧ Free m t := by
  constructor
  · exact fun h => ⟨h c t List.suffix_rfl, fun d u hu => h d u (hu.trans (List.suffix_cons c t))⟩
  · rintro ⟨hhead, htail⟩ d u hu
    rcases List.suffix_cons_iff.mp hu with hu | hu
    · rw [hu]
      exact hhead
    · exact htail d u hu

/-- Nothing is replaced where nothing matches. -/
theorem replaceAll_of_free {t : List α} (h : Free m t) : replaceAll m new t = t := by
  induction t with
  | nil => rfl
  | cons c t ih =>
    obtain ⟨hhead, htail⟩ := free_cons_iff.mp h
    rw [replaceAll_of_none hhead, ih htail]

/-- The items of a kind stay when every match has as many of them as its replacement. -/
theorem filter_replaceAll {p : α → Bool}
    (h : ∀ c t k, m (c :: t) = some k → ((c :: t).take (k + 1)).filter p = new.filter p)
    (t : List α) : (replaceAll m new t).filter p = t.filter p := by
  induction t using matchInduction m with
  | nil => rfl
  | hit c t k hm ih =>
    rw [replaceAll_of_match hm, List.filter_append, ih, ← h c t k hm, ← List.filter_append]
    exact congrArg _ (List.take_append_drop (k + 1) (c :: t))
  | miss c t hm ih =>
    rw [replaceAll_of_none hm, List.filter_cons, List.filter_cons, ih]

section Loss

variable {p : α → Bool}
  (hloss : ∀ c t k, m (c :: t) = some k → new.countP p < ((c :: t).take (k + 1)).countP p)

include hloss

theorem countP_replaceAll_lt {c : α} {t : List α} {k : ℕ} (hm : m (c :: t) = some k)
    (hrest : (replaceAll m new (t.drop k)).countP p ≤ (t.drop k).countP p) :
    (replaceAll m new (c :: t)).countP p < (c :: t).countP p := by
  have hsplit : (c :: t).countP p = ((c :: t).take (k + 1)).countP p + (t.drop k).countP p := by
    rw [← List.countP_append]
    exact congrArg _ (List.take_append_drop (k + 1) (c :: t)).symm
  have := hloss c t k hm
  rw [replaceAll_of_match hm, List.countP_append]
  omega

/-- A replacement that loses items of a kind adds none elsewhere. -/
theorem countP_replaceAll_le (t : List α) : (replaceAll m new t).countP p ≤ t.countP p := by
  induction t using matchInduction m with
  | nil => exact le_rfl
  | hit c t k hm ih => exact (countP_replaceAll_lt hloss hm ih).le
  | miss c t hm ih =>
    rw [replaceAll_of_none hm, List.countP_cons, List.countP_cons]
    omega

/-- **Where a match loses items, as many are left only of a text without a match.** -/
theorem countP_replaceAll_eq_iff (t : List α) :
    (replaceAll m new t).countP p = t.countP p ↔ Free m t := by
  refine ⟨fun h => ?_, fun h => by rw [replaceAll_of_free h]⟩
  induction t using matchInduction m with
  | nil => exact free_nil
  | hit c t k hm _ =>
    have hlt := countP_replaceAll_lt hloss hm (countP_replaceAll_le hloss _)
    omega
  | miss c t hm ih =>
    rw [replaceAll_of_none hm, List.countP_cons, List.countP_cons] at h
    exact free_cons_iff.mpr ⟨hm, ih (by omega)⟩

end Loss

/-! ### One pattern after the other -/

/-- Replace the matches of each pattern in turn. -/
def replaceEach (steps : List (Pattern α × List α)) (t : List α) : List α :=
  steps.foldl (fun t step => replaceAll step.1 step.2 t) t

theorem replaceEach_of_free {steps : List (Pattern α × List α)} {t : List α}
    (h : ∀ step ∈ steps, Free step.1 t) : replaceEach steps t = t := by
  induction steps with
  | nil => rfl
  | cons step steps ih =>
    obtain ⟨hstep, hrest⟩ := List.forall_mem_cons.mp h
    change replaceEach steps (replaceAll step.1 step.2 t) = t
    rw [replaceAll_of_free hstep, ih hrest]

/-- **Where every match loses items, as many are left only of a text that none of the patterns
matches.** -/
theorem countP_replaceEach {p : α → Bool} {steps : List (Pattern α × List α)}
    (hloss : ∀ step ∈ steps, ∀ c t k, step.1 (c :: t) = some k →
      step.2.countP p < ((c :: t).take (k + 1)).countP p) (t : List α) :
    (replaceEach steps t).countP p ≤ t.countP p ∧
      ((replaceEach steps t).countP p = t.countP p → ∀ step ∈ steps, Free step.1 t) := by
  induction steps generalizing t with
  | nil => exact ⟨le_rfl, fun _ _ h => absurd h List.not_mem_nil⟩
  | cons step steps ih =>
    obtain ⟨hstep, hrest⟩ := List.forall_mem_cons.mp hloss
    change (replaceEach steps (replaceAll step.1 step.2 t)).countP p ≤ _ ∧
      ((replaceEach steps (replaceAll step.1 step.2 t)).countP p = _ → _)
    obtain ⟨hle, hfree⟩ := ih hrest (replaceAll step.1 step.2 t)
    have hle' := countP_replaceAll_le hstep t
    refine ⟨hle.trans hle', fun heq => ?_⟩
    have hfirst : Free step.1 t := (countP_replaceAll_eq_iff hstep t).mp (by omega)
    rw [replaceAll_of_free hfirst] at hfree heq
    exact List.forall_mem_cons.mpr ⟨hfirst, hfree heq⟩

/-! ### One word -/

/-- No letter becomes one of the characters before the capitals. -/
theorem toLower_eq_iff {d : Char} (hd : d.toNat < 65) (c : Char) : c.toLower = d ↔ c = d := by
  unfold Char.toLower
  split
  · next h =>
    have hge : 65 ≤ c.toNat := by simpa [UInt32.le_iff_toNat_le] using h.1
    have hle : c.toNat ≤ 90 := by simpa [UInt32.le_iff_toNat_le] using h.2
    refine iff_of_false (fun heq => ?_) fun heq => ?_
    · have hval : (c.val + 32).toNat = c.toNat + 32 := by
        rw [UInt32.toNat_add]
        change (c.toNat + 32) % 2 ^ 32 = _
        omega
      have hnat : (c.val + 32).toNat = d.toNat := congrArg Char.toNat heq
      omega
    · rw [heq] at hge
      omega
  · rfl

/-- A word, in either case of its letters; `word` is in lower case. -/
def literal (word : Text) : Pattern Char := fun t =>
  if word <+: t.map Char.toLower then some (word.length - 1) else none

theorem literal_eq_none_iff {word t : Text} :
    literal word t = none ↔ ¬ word <+: t.map Char.toLower := by
  unfold literal
  split <;> simp_all

/-- A match of a word is the word. -/
theorem take_of_literal {word t : Text} (hne : word ≠ []) {k : ℕ} (h : literal word t = some k) :
    (t.take (k + 1)).map Char.toLower = word := by
  unfold literal at h
  split at h
  · next hpre =>
    have hlen : word.length - 1 + 1 = word.length :=
      Nat.sub_add_cancel (List.length_pos_iff.mpr hne)
    rw [← Option.some.inj h, hlen, List.map_take]
    exact (List.prefix_iff_eq_take.mp hpre).symm
  · cases h

/-- A word does not occur in a text. -/
theorem free_literal_iff {word : Text} (hne : word ≠ []) (t : Text) :
    Free (literal word) t ↔ ¬ word <:+: t.map Char.toLower := by
  induction t with
  | nil => exact iff_of_true free_nil fun h => hne (List.infix_nil.mp h)
  | cons c t ih =>
    rw [free_cons_iff, ih, literal_eq_none_iff, List.map_cons, List.infix_cons_iff, not_or]

/-! ### Coded texts

Each character of a text is written as itself, or as a name that begins with a mark. -/

section Code

variable {mark : Char} {name new : Text} {code : Char → Text}
  (hmark : ∀ c : Char, c.toLower = mark ↔ c = mark)

include hmark

theorem literal_eq_none_of_ne {c : Char} (hc : c ≠ mark) (t : Text) :
    literal (mark :: name) (c :: t) = none := by
  rw [literal_eq_none_iff, List.map_cons, List.cons_prefix_cons]
  exact fun h => hc ((hmark c).mp h.1.symm)

theorem literal_mark (t : Text) : literal (mark :: name) (mark :: t) =
    if name <+: t.map Char.toLower then some name.length else none := by
  unfold literal
  rw [List.map_cons, (hmark mark).mpr rfl]
  simp [List.cons_prefix_cons]

/-- Nothing is replaced before the next mark. -/
theorem replaceAll_append_of_notMem {s : Text} (hs : mark ∉ s) (t : Text) :
    replaceAll (literal (mark :: name)) new (s ++ t) =
      s ++ replaceAll (literal (mark :: name)) new t := by
  induction s with
  | nil => rfl
  | cons c s ih =>
    have hc : c ≠ mark := fun h => hs (h ▸ List.mem_cons_self)
    rw [List.cons_append, replaceAll_of_none (literal_eq_none_of_ne hmark hc _),
      ih fun h => hs (List.mem_cons_of_mem c h), List.cons_append]

variable (hname : name.map Char.toLower = name)

include hname

/-- The name is replaced as a whole, and any other name is kept. -/
theorem replaceAll_marked {n : Text} (hn : mark ∉ n)
    (hother : n = name ∨ ∀ rest : Text, ¬ name <+: (n ++ rest).map Char.toLower) (t : Text) :
    replaceAll (literal (mark :: name)) new (mark :: n ++ t) =
      (if n = name then new else mark :: n) ++ replaceAll (literal (mark :: name)) new t := by
  rw [List.cons_append]
  by_cases h : n = name
  · have hmatch : literal (mark :: name) (mark :: (name ++ t)) = some name.length := by
      rw [literal_mark hmark, if_pos]
      rw [List.map_append, hname]
      exact List.prefix_append _ _
    rw [if_pos h, h, replaceAll_of_match hmatch, List.drop_left]
  · have hnone : literal (mark :: name) (mark :: (n ++ t)) = none := by
      rw [literal_mark hmark, if_neg ((hother.resolve_left h) t)]
    rw [if_neg h, replaceAll_of_none hnone, replaceAll_append_of_notMem hmark hn, List.cons_append]

/-- **Decoding where every mark is coded**: only the codes of the name are replaced. -/
theorem replaceAll_flatMap_of_marked
    (hcode : ∀ c, c ≠ mark ∧ code c = [c] ∨ ∃ n, code c = mark :: n ∧ mark ∉ n ∧
      (n = name ∨ ∀ rest : Text, ¬ name <+: (n ++ rest).map Char.toLower)) (t : Text) :
    replaceAll (literal (mark :: name)) new (t.flatMap code) =
      t.flatMap fun c => if code c = mark :: name then new else code c := by
  induction t with
  | nil => rfl
  | cons c t ih =>
    rw [List.flatMap_cons, List.flatMap_cons, ← ih]
    rcases hcode c with ⟨hc, hplain⟩ | ⟨n, hn, hmem, hother⟩
    · have hne : [c] ≠ mark :: name := fun h => hc (List.cons.inj h).1
      rw [hplain, if_neg hne, replaceAll_append_of_notMem hmark (by simpa using hc.symm)]
    · rw [hn, replaceAll_marked hmark hname hmem hother]
      simp [List.cons.injEq]

end Code

/-! ### Decoding one name -/

section Decode

variable {mark : Char} {name : Text} {code : Char → Text}
  (hplain : ∀ c : Char, c.toLower ∈ name → code c = [c])

include hplain

/-- A name of characters that are written as themselves stands at the beginning of a text
exactly if it does at the beginning of its code. -/
theorem prefix_flatMap_iff (hcode : ∀ c, code c = [c] ∨ ∃ n, code c = mark :: n)
    (hmark : mark.toLower = mark) (hmem : mark ∉ name) (t : Text) :
    name <+: (t.flatMap code).map Char.toLower ↔ name <+: t.map Char.toLower := by
  induction name generalizing t with
  | nil => simp
  | cons a name ih =>
    cases t with
    | nil => simp
    | cons c t =>
      rw [List.flatMap_cons, List.map_append]
      rcases hcode c with hc | ⟨n, hc⟩
      · rw [hc, List.map_cons, List.map_cons, List.map_nil, List.cons_append, List.nil_append,
          List.cons_prefix_cons, List.cons_prefix_cons,
          ih (fun d hd => hplain d (List.mem_cons_of_mem a hd))
            (fun h => hmem (List.mem_cons_of_mem a h))]
      · -- a coded character begins no name, in its code as in itself
        have ha : a ≠ mark := fun h => hmem (h ▸ List.mem_cons_self)
        rw [hc, List.map_cons, List.map_cons, List.cons_append, List.cons_prefix_cons,
          List.cons_prefix_cons, hmark]
        refine iff_of_false (fun h => ha h.1) fun h => ?_
        have hself := hplain c (by rw [← h.1]; exact List.mem_cons_self)
        rw [hc] at hself
        obtain ⟨rfl, -⟩ := List.cons.inj hself
        exact ha (h.1.trans hmark)

theorem drop_flatMap {t : Text} (h : name <+: t.map Char.toLower) :
    (t.flatMap code).drop name.length = (t.drop name.length).flatMap code := by
  induction name generalizing t with
  | nil => rfl
  | cons a name ih =>
    cases t with
    | nil => rfl
    | cons c t =>
      rw [List.map_cons, List.cons_prefix_cons] at h
      rw [List.flatMap_cons, hplain c (by rw [← h.1]; exact List.mem_cons_self)]
      exact ih (fun d hd => hplain d (List.mem_cons_of_mem a hd)) h.2

/-- **Decoding where marks stand for themselves.** The code of `c₀` is decoded, and besides
whatever reads like it in the text itself. -/
theorem replaceAll_flatMap {c₀ : Char} (hmark : ∀ c : Char, c.toLower = mark ↔ c = mark)
    (hname : name.map Char.toLower = name) (hmem : mark ∉ name) (hself : code mark = [mark])
    (hc₀ : c₀ ≠ mark)
    (hcode : ∀ c, code c = [c] ∨ ∃ n, code c = mark :: n ∧ mark ∉ n ∧
      (n = name ∨ ∀ rest : Text, ¬ name <+: (n ++ rest).map Char.toLower))
    (hdecode : ∀ c, code c = mark :: name ↔ c = c₀) (t : Text) :
    replaceAll (literal (mark :: name)) [c₀] (t.flatMap code) =
      (replaceAll (literal (mark :: name)) [c₀] t).flatMap
        fun c => if c = c₀ then [c] else code c := by
  have hcode' : ∀ c, code c = [c] ∨ ∃ n, code c = mark :: n := fun c =>
    (hcode c).imp_right fun ⟨n, hn, _⟩ => ⟨n, hn⟩
  induction t using matchInduction (literal (mark :: name)) with
  | nil => rfl
  | hit c t k hm ih =>
    have hc : c = mark := by
      by_contra hne
      rw [literal_eq_none_of_ne hmark hne] at hm
      cases hm
    subst hc
    rw [literal_mark hmark] at hm
    split at hm
    · next hpre =>
      cases hm
      have hmatch : literal (c :: name) (c :: t.flatMap code) = some name.length := by
        rw [literal_mark hmark, if_pos]
        exact (prefix_flatMap_iff hplain hcode' ((hmark c).mpr rfl) hmem t).mpr hpre
      have hmatch' : literal (c :: name) (c :: t) = some name.length := by
        rw [literal_mark hmark, if_pos hpre]
      rw [List.flatMap_cons, hself, List.singleton_append, replaceAll_of_match hmatch,
        replaceAll_of_match hmatch', drop_flatMap hplain hpre, ih]
      simp
    · cases hm
  | miss c t hm ih =>
    rw [replaceAll_of_none hm, List.flatMap_cons, List.flatMap_cons, ← ih]
    by_cases hc : c = mark
    · subst hc
      rw [literal_mark hmark] at hm
      have hpre : ¬ name <+: t.map Char.toLower := fun h => by
        rw [if_pos h] at hm
        cases hm
      have hnone : literal (c :: name) (c :: t.flatMap code) = none := by
        rw [literal_mark hmark, if_neg]
        exact fun h => hpre ((prefix_flatMap_iff hplain hcode' ((hmark c).mpr rfl) hmem t).mp h)
      rw [hself, if_neg (Ne.symm hc₀), List.singleton_append, replaceAll_of_none hnone,
        List.singleton_append]
    · rcases hcode c with hcc | ⟨n, hn, hnmem, hother⟩
      · have hne : c ≠ c₀ := fun h => by
          rw [(hdecode c).mpr h] at hcc
          exact hc (List.cons.inj hcc).1.symm
        rw [hcc, if_neg hne, replaceAll_append_of_notMem hmark (by simpa using Ne.symm hc)]
      · have hiff : n = name ↔ c = c₀ := by
          rw [← hdecode c, hn]
          simp
        rw [hn, replaceAll_marked hmark hname hnmem hother]
        by_cases h : c = c₀
        · rw [if_pos h, if_pos (hiff.mpr h), h]
        · rw [if_neg h, if_neg fun h' => h (hiff.mp h')]

end Decode

end Replacing
end Framework
