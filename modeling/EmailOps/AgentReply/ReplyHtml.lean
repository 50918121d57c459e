import Mathlib.Tactic.FinCases
import EmailOps.Framework.Replacing

/-!
# The HTML of a reply

What a model answers is escaped and put into paragraphs, and a message that has only an HTML
part is read as the text of it. Both are chains of global replacements.

* `escapeHtml` and `paragraphsToHtml` write the HTML of a text, `stripHtml` reads a text off
  some HTML.
* `opens_paragraphsToHtml`: the paragraphs of a text have no tags but `ownTags`.
* `stripHtml_escapeHtml` is what is read of an escaped text. The entities it has of itself
  are decoded as well, except for `&amp;`, since that is decoded before the others.
* `readsBack_iff` says which texts come back.
-/

namespace EmailOps
namespace AgentReply

open Framework Framework.Text Framework.Replacing

/-! ### Patterns -/

/-- `/<style[\s\S]*?<\/style>/gi`, for the element `style`. -/
def element (opening closing : Text) : Pattern Char := fun t =>
  if opening <+: t.map Char.toLower then
    ((t.drop opening.length).tails.findIdx? fun u =>
      decide (closing <+: u.map Char.toLower)).map
        (opening.length + · + (closing.length - 1))
  else none

/-- `/<[^>]+>/g` -/
def tag : Pattern Char
  | '<' :: t =>
    let inner := t.takeWhile (· ≠ '>')
    if inner = [] ∨ inner = t then none else some (inner.length + 1)
  | _ => none

/-- `/\s+/g` -/
def spaces : Pattern Char
  | c :: t => if isWhite c then some (t.takeWhile isWhite).length else none
  | [] => none

/-- `/\n{2,}/` -/
def blankLines : Pattern Char
  | '\n' :: '\n' :: t => some ((t.takeWhile (· = '\n')).length + 1)
  | _ => none

/-! ### Writing and reading -/

/-- `escapeHtml` -/
def escapeHtml (s : Text) : Text :=
  let s := replaceAll (literal "&".toList) "&amp;".toList s
  let s := replaceAll (literal "<".toList) "&lt;".toList s
  let s := replaceAll (literal ">".toList) "&gt;".toList s
  let s := replaceAll (literal "\"".toList) "&quot;".toList s
  replaceAll (literal "'".toList) "&#39;".toList s

/-- A text as one paragraph. -/
def paragraph (p : Text) : Text :=
  "<p>".toList ++ replaceAll (literal "\n".toList) "<br>".toList (escapeHtml p) ++ "</p>".toList

/-- `paragraphsToHtml`: escaped, double-newline paragraphs, single-newline breaks. -/
def paragraphsToHtml (text : Text) : Text :=
  ((((splitAt blankLines text).map trim).filter (· ≠ [])).map paragraph).flatten

/-- White space is collapsed. -/
def collapse (t : Text) : Text :=
  trim (replaceAll spaces " ".toList t)

/-- `stripHtml`: drop style/script, strip tags, unescape, collapse. -/
def stripHtml (html : Text) : Text :=
  let t := replaceAll (element "<style".toList "</style>".toList) " ".toList html
  let t := replaceAll (element "<script".toList "</script>".toList) " ".toList t
  let t := replaceAll tag " ".toList t
  let t := replaceAll (literal "&nbsp;".toList) " ".toList t
  let t := replaceAll (literal "&amp;".toList) "&".toList t
  let t := replaceAll (literal "&lt;".toList) "<".toList t
  let t := replaceAll (literal "&gt;".toList) ">".toList t
  let t := replaceAll (literal "&quot;".toList) "\"".toList t
  let t := replaceAll (literal "&#39;".toList) "'".toList t
  collapse t

/-! ### Escaped texts -/

/-- A character with a meaning in HTML is written as an entity. -/
def escapeChar (c : Char) : Text :=
  if c = '&' then "&amp;".toList
  else if c = '<' then "&lt;".toList
  else if c = '>' then "&gt;".toList
  else if c = '"' then "&quot;".toList
  else if c = '\'' then "&#39;".toList
  else [c]

/-- The characters whose entities are decoded after `&amp;`. -/
def marks : List Char :=
  ['<', '>', '"', '\'']

theorem toLower_amp (c : Char) : c.toLower = '&' ↔ c = '&' :=
  toLower_eq_iff (by decide) c

/-- One character is replaced wherever it stands. -/
theorem replaceAll_char {d : Char} (hd : d.toNat < 65) (new t : Text) :
    replaceAll (literal [d]) new t = t.flatMap fun c => if c = d then new else [c] := by
  have h : replaceAll (literal [d]) new (t.flatMap fun c => [c]) =
      t.flatMap fun c => if [c] = [d] then new else [c] := by
    refine replaceAll_flatMap_of_marked (toLower_eq_iff hd) rfl (fun c => ?_) t
    by_cases hc : c = d
    · exact .inr ⟨[], by rw [hc], List.not_mem_nil, .inl rfl⟩
    · exact .inl ⟨hc, rfl⟩
  simpa using h

theorem escapeHtml_eq (s : Text) : escapeHtml s = s.flatMap escapeChar := by
  have hamp : "&".toList = ['&'] := rfl
  have hlt : "<".toList = ['<'] := rfl
  have hgt : ">".toList = ['>'] := rfl
  have hquot : "\"".toList = ['"'] := rfl
  have hapos : "'".toList = ['\''] := rfl
  unfold escapeHtml
  simp only [hamp, hlt, hgt, hquot, hapos]
  rw [replaceAll_char (by decide), replaceAll_char (by decide), replaceAll_char (by decide),
    replaceAll_char (by decide), replaceAll_char (by decide), List.flatMap_assoc,
    List.flatMap_assoc, List.flatMap_assoc, List.flatMap_assoc]
  refine List.flatMap_congr fun c _ => ?_
  unfold escapeChar
  split_ifs with h₁ h₂ h₃ h₄ h₅ <;> simp_all

theorem lt_notMem_escapeHtml (s : Text) : '<' ∉ escapeHtml s := by
  rw [escapeHtml_eq, List.mem_flatMap]
  rintro ⟨c, -, hc⟩
  unfold escapeChar at hc
  split_ifs at hc with h₁ h₂ h₃ h₄ h₅
  case neg => exact h₂ (List.mem_singleton.mp hc).symm
  all_goals exact absurd hc (by decide)

/-! ### Tags -/

/-- The tags of a paragraph. -/
def ownTags : List Text :=
  ["<p>".toList, "</p>".toList, "<br>".toList]

/-- Every `<` of some HTML opens one of these tags. -/
def Opens (tags : List Text) (html : Text) : Prop :=
  ∀ u, '<' :: u <:+ html → ∃ t ∈ tags, t <+: '<' :: u

theorem Opens.append {tags : List Text} {s t : Text} (hs : Opens tags s) (ht : Opens tags t) :
    Opens tags (s ++ t) := by
  rintro u ⟨pre, hu⟩
  rcases List.append_eq_append_iff.mp hu with ⟨more, hmore, htail⟩ | ⟨more, hmore, htail⟩
  · cases more with
    | nil => exact ht u ⟨[], htail⟩
    | cons d more =>
      obtain ⟨rfl, hrest⟩ := List.cons.inj htail
      obtain ⟨w, hw, hpre⟩ := hs more ⟨pre, hmore.symm⟩
      refine ⟨w, hw, hpre.trans ?_⟩
      rw [hrest]
      exact List.prefix_append ('<' :: more) t
  · exact ht u ⟨more, htail.symm⟩

theorem opens_of_notMem (tags : List Text) {s : Text} (h : '<' ∉ s) : Opens tags s :=
  fun _ hu => absurd (hu.subset List.mem_cons_self) h

theorem opens_tag {tags : List Text} {inner : Text} (h : '<' ∉ inner)
    (hmem : '<' :: inner ∈ tags) : Opens tags ('<' :: inner) := by
  intro u hu
  rcases List.suffix_cons_iff.mp hu with heq | hu
  · exact ⟨_, hmem, by rw [heq]⟩
  · exact absurd (hu.subset List.mem_cons_self) h

theorem Opens.flatMap {tags : List Text} {f : Char → Text} {s : Text}
    (h : ∀ c ∈ s, Opens tags (f c)) : Opens tags (s.flatMap f) := by
  induction s with
  | nil => exact opens_of_notMem tags List.not_mem_nil
  | cons c s ih =>
    exact (h c List.mem_cons_self).append (ih fun d hd => h d (List.mem_cons_of_mem c hd))

theorem opens_paragraph (p : Text) : Opens ownTags (paragraph p) := by
  have hnl : "\n".toList = ['\n'] := rfl
  unfold paragraph
  refine ((opens_tag (by decide) (by decide)).append ?_).append (opens_tag (by decide) (by decide))
  rw [hnl, replaceAll_char (by decide)]
  refine Opens.flatMap fun c hc => ?_
  split
  · exact opens_tag (by decide) (by decide)
  · refine opens_of_notMem _ ?_
    have hne : c ≠ '<' := fun h => lt_notMem_escapeHtml p (h ▸ hc)
    simpa using hne.symm

/-- **The paragraphs of a text have no tags but their own**, whatever is in the text. -/
theorem opens_paragraphsToHtml (text : Text) : Opens ownTags (paragraphsToHtml text) := by
  unfold paragraphsToHtml
  generalize ((splitAt blankLines text).map trim).filter (· ≠ []) = paragraphs
  induction paragraphs with
  | nil => exact opens_of_notMem _ List.not_mem_nil
  | cons p ps ih => exact (opens_paragraph p).append ih

/-! ### Reading an escaped text -/

/-- The characters of `left` are written as entities, and all others as themselves. -/
def escapeSome (left : List Char) (c : Char) : Text :=
  if c ∈ left then escapeChar c else [c]

/-- The name of the entity of a character. -/
def entityName (c : Char) : Text :=
  (escapeChar c).tail

theorem escapeChar_mark {c : Char} (hc : c ∈ '&' :: marks) : escapeChar c = '&' :: entityName c ∧
    '&' ∉ entityName c ∧ (entityName c).map Char.toLower = entityName c := by
  fin_cases hc <;> decide

theorem escapeChar_of_notMem {c : Char} (hc : c ∉ '&' :: marks) : escapeChar c = [c] := by
  simp only [marks, List.mem_cons, not_or] at hc
  simp [escapeChar, hc]

/-- The names of the entities differ in their first letters. -/
theorem entityName_ne {c d : Char} (hc : c ∈ marks) (hd : d ∈ marks) :
    c = d ∨ ∀ rest : Text, ¬ entityName d <+: (entityName c ++ rest).map Char.toLower := by
  by_cases hne : c = d
  · exact .inl hne
  · refine .inr fun rest hpre => ?_
    fin_cases hc <;> fin_cases hd <;>
      first
      | exact absurd rfl hne
      | exact absurd (List.cons_prefix_cons.mp hpre).1 (by decide)

theorem entityName_ne_nil : ∀ c ∈ marks, entityName c ≠ [] :=
  forall_mem_of_all (by decide)

theorem entityName_inj : ∀ c ∈ marks, ∀ d ∈ marks, entityName c = entityName d → c = d :=
  forall_mem₂_of_all (by decide)

theorem toLower_notMem_entityName : ∀ c ∈ marks, ∀ d ∈ marks, c.toLower ∉ entityName d :=
  forall_mem₂_of_all (by decide)

/-- The entity of one more character is decoded, and what reads like it in the text. -/
theorem decode_mark (c₀ : Char) (left : List Char) (hc₀ : c₀ ∉ left)
    (hleft : ∀ c ∈ c₀ :: left, c ∈ marks) (t : Text) :
    replaceAll (literal (escapeChar c₀)) [c₀] (t.flatMap (escapeSome (c₀ :: left))) =
      (replaceAll (literal (escapeChar c₀)) [c₀] t).flatMap (escapeSome left) := by
  have hmem : c₀ ∈ marks := hleft c₀ List.mem_cons_self
  obtain ⟨heq, hnot, hlower⟩ := escapeChar_mark (List.mem_cons_of_mem _ hmem)
  have hamp : '&' ∉ c₀ :: left := fun h => absurd (hleft '&' h) (by decide)
  have hcode : ∀ c, c ∉ c₀ :: left → escapeSome (c₀ :: left) c = [c] := fun c hc => if_neg hc
  have hcode' : ∀ c ∈ c₀ :: left, escapeSome (c₀ :: left) c = '&' :: entityName c := fun c hc => by
    rw [escapeSome, if_pos hc, (escapeChar_mark (List.mem_cons_of_mem _ (hleft c hc))).1]
  have hstep : ∀ c, (if c = c₀ then [c] else escapeSome (c₀ :: left) c) = escapeSome left c := by
    intro c
    by_cases h : c = c₀
    · rw [if_pos h, escapeSome, if_neg (h ▸ hc₀)]
    · rw [if_neg h]
      simp [escapeSome, h]
  rw [heq, ← funext hstep]
  refine replaceAll_flatMap (fun c hc => hcode c fun h => ?_) toLower_amp hlower hnot
    (hcode '&' hamp) (fun h => absurd (h ▸ hmem) (by decide)) (fun c => ?_) (fun c => ?_) t
  · exact toLower_notMem_entityName c (hleft c h) c₀ hmem hc
  · by_cases h : c ∈ c₀ :: left
    · have hc := hleft c h
      refine .inr ⟨_, hcode' c h, (escapeChar_mark (List.mem_cons_of_mem _ hc)).2.1, ?_⟩
      exact (entityName_ne hc hmem).imp_left fun h => by rw [h]
    · exact .inl (hcode c h)
  · constructor
    · intro h
      by_cases hc : c ∈ c₀ :: left
      · rw [hcode' c hc, List.cons.injEq] at h
        exact entityName_inj c (hleft c hc) c₀ hmem h.2
      · rw [hcode c hc, List.cons.injEq] at h
        exact absurd h.2.symm (entityName_ne_nil c₀ hmem)
    · rintro rfl
      exact hcode' c List.mem_cons_self

/-- The entities of the marks are decoded. -/
def decodeMarks (t : Text) : Text :=
  let t := replaceAll (literal "&lt;".toList) "<".toList t
  let t := replaceAll (literal "&gt;".toList) ">".toList t
  let t := replaceAll (literal "&quot;".toList) "\"".toList t
  replaceAll (literal "&#39;".toList) "'".toList t

theorem replaceAll_escapeHtml {m : Pattern Char} (hm : ∀ c t, c ≠ '<' → m (c :: t) = none)
    (new s : Text) : replaceAll m new (escapeHtml s) = escapeHtml s := by
  refine replaceAll_of_free fun c u hu => hm c u ?_
  rintro rfl
  exact lt_notMem_escapeHtml s (hu.subset List.mem_cons_self)

theorem element_eq_none {opening closing : Text} {c : Char} (hc : c ≠ '<') (t : Text) :
    element ('<' :: opening) closing (c :: t) = none := by
  unfold element
  rw [if_neg]
  rw [List.map_cons, List.cons_prefix_cons]
  exact fun h => hc ((toLower_eq_iff (by decide) c).mp h.1.symm)

theorem tag_eq_none {c : Char} (hc : c ≠ '<') (t : Text) : tag (c :: t) = none := by
  unfold tag
  split
  · next h => exact absurd (List.cons.inj h).1 hc
  · rfl

/-- In an escaped text every `&` begins an entity. -/
theorem replaceAll_entity {name : Text} (hname : name.map Char.toLower = name)
    (hother : ∀ c ∈ '&' :: marks, entityName c = name ∨
      ∀ rest : Text, ¬ name <+: (entityName c ++ rest).map Char.toLower) (new s : Text) :
    replaceAll (literal ('&' :: name)) new (escapeHtml s) =
      s.flatMap fun c => if escapeChar c = '&' :: name then new else escapeChar c := by
  rw [escapeHtml_eq]
  refine replaceAll_flatMap_of_marked toLower_amp hname (fun c => ?_) s
  by_cases hc : c ∈ '&' :: marks
  · obtain ⟨heq, hnot, -⟩ := escapeChar_mark hc
    exact .inr ⟨_, heq, hnot, hother c hc⟩
  · exact .inl ⟨fun h => hc (h ▸ List.mem_cons_self), escapeChar_of_notMem hc⟩

theorem replaceAll_nbsp (s : Text) :
    replaceAll (literal "&nbsp;".toList) " ".toList (escapeHtml s) = escapeHtml s := by
  have hname : "&nbsp;".toList = '&' :: "nbsp;".toList := rfl
  rw [hname, replaceAll_entity (by decide), escapeHtml_eq]
  · refine List.flatMap_congr fun c _ => if_neg fun h => ?_
    by_cases hc : c ∈ '&' :: marks
    · fin_cases hc <;> exact absurd h (by decide)
    · rw [escapeChar_of_notMem hc] at h
      exact absurd (congrArg List.length h) (by simp)
  · intro c hc
    refine .inr fun rest hpre => ?_
    fin_cases hc <;> exact absurd (List.cons_prefix_cons.mp hpre).1 (by decide)

theorem replaceAll_amp (s : Text) :
    replaceAll (literal "&amp;".toList) "&".toList (escapeHtml s) =
      s.flatMap (escapeSome marks) := by
  have hname : "&amp;".toList = '&' :: "amp;".toList := rfl
  rw [hname, replaceAll_entity (by decide)]
  · refine List.flatMap_congr fun c _ => ?_
    by_cases hc : c ∈ '&' :: marks
    · fin_cases hc <;> decide
    · have hmarks : c ∉ marks := fun h => hc (List.mem_cons_of_mem _ h)
      rw [escapeSome, if_neg hmarks, escapeChar_of_notMem hc, if_neg]
      exact fun h => absurd (congrArg List.length h) (by simp)
  · intro c hc
    by_cases h : c = '&'
    · exact .inl (by rw [h]; decide)
    · refine .inr fun rest hpre => ?_
      fin_cases hc <;>
        first
        | exact absurd rfl h
        | exact absurd (List.cons_prefix_cons.mp hpre).1 (by decide)

/-- **What is read of an escaped text**: the text, with the entities in it decoded that are
decoded after `&amp;`. -/
theorem stripHtml_escapeHtml (t : Text) : stripHtml (escapeHtml t) = collapse (decodeMarks t) := by
  have hstyle : replaceAll (element "<style".toList "</style>".toList) " ".toList (escapeHtml t) =
      escapeHtml t := replaceAll_escapeHtml (fun c t hc => element_eq_none hc t) _ t
  have hscript : replaceAll (element "<script".toList "</script>".toList) " ".toList
      (escapeHtml t) = escapeHtml t := replaceAll_escapeHtml (fun c t hc => element_eq_none hc t) _ t
  have htag : replaceAll tag " ".toList (escapeHtml t) = escapeHtml t :=
    replaceAll_escapeHtml (fun c t hc => tag_eq_none hc t) _ t
  have hlt (s : Text) : replaceAll (literal "&lt;".toList) "<".toList (s.flatMap (escapeSome marks)) =
      (replaceAll (literal "&lt;".toList) "<".toList s).flatMap (escapeSome ['>', '"', '\'']) :=
    decode_mark '<' ['>', '"', '\''] (by decide) (forall_mem_of_all (by decide)) s
  have hgt (s : Text) : replaceAll (literal "&gt;".toList) ">".toList
      (s.flatMap (escapeSome ['>', '"', '\''])) =
      (replaceAll (literal "&gt;".toList) ">".toList s).flatMap (escapeSome ['"', '\'']) :=
    decode_mark '>' ['"', '\''] (by decide) (forall_mem_of_all (by decide)) s
  have hquot (s : Text) : replaceAll (literal "&quot;".toList) "\"".toList
      (s.flatMap (escapeSome ['"', '\''])) =
      (replaceAll (literal "&quot;".toList) "\"".toList s).flatMap (escapeSome ['\'']) :=
    decode_mark '"' ['\''] (by decide) (forall_mem_of_all (by decide)) s
  have hapos (s : Text) : replaceAll (literal "&#39;".toList) "'".toList
      (s.flatMap (escapeSome ['\''])) =
      (replaceAll (literal "&#39;".toList) "'".toList s).flatMap (escapeSome []) :=
    decode_mark '\'' [] (by decide) (forall_mem_of_all (by decide)) s
  have hnil (s : Text) : s.flatMap (escapeSome []) = s := List.flatMap_singleton' s
  unfold stripHtml decodeMarks
  simp only [hstyle, hscript, htag, replaceAll_nbsp, replaceAll_amp, hlt, hgt, hquot, hapos, hnil]

/-! ### Which texts come back -/

/-- The entities that are decoded after `&amp;`. -/
def lateEntities : List Text :=
  ["&lt;".toList, "&gt;".toList, "&quot;".toList, "&#39;".toList]

/-- Collapsing keeps every character that is not white space. -/
theorem count_collapse {c : Char} (hc : isWhite c = false) (t : Text) :
    (collapse t).count c = t.count c := by
  have hspaces : ∀ d s k, spaces (d :: s) = some k →
      ((d :: s).take (k + 1)).filter (· == c) = " ".toList.filter (· == c) := by
    intro d s k hk
    have hnone : ∀ x : Char, isWhite x = true → ¬ (x == c) = true := fun x hx h => by
      rw [beq_iff_eq.mp h, hc] at hx
      cases hx
    change (if isWhite d then some (s.takeWhile isWhite).length else none) = some k at hk
    split at hk
    · next hd =>
      rw [← Option.some.inj hk, List.filter_eq_nil_iff.mpr, List.filter_eq_nil_iff.mpr]
      · exact fun x hx => hnone x (by rw [List.mem_singleton.mp hx]; decide)
      · intro x hx
        rw [List.take_succ_cons, ← List.prefix_iff_eq_take.mp (List.takeWhile_prefix _)] at hx
        rcases List.mem_cons.mp hx with rfl | hx
        · exact hnone x hd
        · exact hnone x (List.mem_takeWhile_imp hx)
    · cases hk
  unfold collapse
  rw [count_trim hc, List.count_eq_length_filter, List.count_eq_length_filter,
    filter_replaceAll hspaces]

/-- The entity of a mark has one semicolon, and the mark is none. -/
theorem count_literal_escapeChar {d : Char} (hd : d ∈ marks) (c : Char) (t : Text) (k : ℕ)
    (h : literal (escapeChar d) (c :: t) = some k) :
    [d].countP (· == ';') < ((c :: t).take (k + 1)).countP (· == ';') := by
  have hne : escapeChar d ≠ [] := by fin_cases hd <;> decide
  have hcount : ∀ s : Text, (s.map Char.toLower).count ';' = s.count ';' := by
    intro s
    simp only [List.count, List.countP_map]
    refine List.countP_congr fun x _ => ?_
    simp [toLower_eq_iff (show ';'.toNat < 65 by decide) x]
  have htake := hcount ((c :: t).take (k + 1))
  rw [take_of_literal hne h] at htake
  change _ < ((c :: t).take (k + 1)).count ';'
  rw [← htake]
  fin_cases hd <;> decide

theorem stripHtml_escapeHtml_iff (t : Text) :
    stripHtml (escapeHtml t) = collapse t ↔ ∀ e ∈ lateEntities, ¬ e <:+: t.map Char.toLower := by
  have hdecode : decodeMarks t =
      replaceEach (marks.map fun d => (literal (escapeChar d), [d])) t := rfl
  have hfree : (∀ e ∈ lateEntities, ¬ e <:+: t.map Char.toLower) ↔
      ∀ step ∈ marks.map fun d => (literal (escapeChar d), [d]), Free step.1 t := by
    have hmap : lateEntities = marks.map escapeChar := by decide
    rw [hmap, List.forall_mem_map, List.forall_mem_map]
    refine forall₂_congr fun d hd => (free_literal_iff ?_ t).symm
    fin_cases hd <;> decide
  rw [stripHtml_escapeHtml, hfree, hdecode]
  constructor
  · intro h
    have hcount := congrArg (List.count ';') h
    rw [count_collapse (by decide), count_collapse (by decide)] at hcount
    refine (countP_replaceEach (fun step hstep => ?_) t).2 hcount
    obtain ⟨d, hd, rfl⟩ := List.mem_map.mp hstep
    exact count_literal_escapeChar hd
  · intro h
    rw [replaceEach_of_free h]

/-- What is expected of a text: its paragraphs have no tags but their own, and it is read
again as it was written, up to its white space. -/
def ReadsBack (t : Text) : Prop :=
  Opens ownTags (paragraphsToHtml t) ∧ stripHtml (escapeHtml t) = collapse t

/-- **Which texts come back**: those without an entity that is decoded after `&amp;`, in
either case of its letters. -/
theorem readsBack_iff (t : Text) : ReadsBack t ↔
    ∀ e ∈ lateEntities, ¬ e <:+: t.map Char.toLower :=
  ⟨fun h => (stripHtml_escapeHtml_iff t).mp h.2,
    fun h => ⟨opens_paragraphsToHtml t, (stripHtml_escapeHtml_iff t).mpr h⟩⟩

/-- A text that speaks of an entity is read as the character. -/
theorem not_readsBack_lt : ¬ ReadsBack "write &lt; for it".toList := by
  have hread : stripHtml (escapeHtml "write &lt; for it".toList) = "write < for it".toList := by
    decide +kernel
  intro h
  exact absurd (hread.symm.trans h.2) (by decide +kernel)

end AgentReply
end EmailOps
