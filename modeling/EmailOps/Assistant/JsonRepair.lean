import Mathlib.Algebra.Order.BigOperators.Group.List
import Mathlib.Algebra.Order.Group.Nat
import EmailOps.Assistant.ChatStream
import EmailOps.Framework.JsonLiterals
import EmailOps.Framework.JsonReader

/-!
# The repair of JSON

The assistant drops the commas before a closing bracket from a text, before it reads the text as
JSON. It does not look at quotes.

* `loads` is `json.loads`, and `Serialises` says what text is a serialisation of a value.
* `TrailingComma` is the pattern that is repaired, and `dropTrailingCommas_eq_self_iff` says that
  the repair changes nothing else.
* `tokens_dropTrailingCommas`: of a serialisation, only literals are repaired.
* `literals_kept`: where the repaired text is read as the same value, no literal was changed. A
  comma that is dropped from a literal is missing in a string of the value.
-/

namespace EmailOps
namespace JsonResponse

open Framework Framework.Text Framework.JsonText Assistant
open Cleanup (isSpace)
open Framework.Words (strip)

/-! ### `json.loads` -/

/-- Constants and numbers. -/
def constant (t : Text) : Option Json :=
  if t = "null".toList then some .null
  else if t = "true".toList then some (.bool true)
  else if t = "false".toList then some (.bool false)
  else if t = "NaN".toList || t = "Infinity".toList || t = "-Infinity".toList || isNumber t then
    some (.num t)
  else none

/-- `fields[name] = v`: a name keeps its place. -/
def setField : List (Text × Json) → Text → Json → List (Text × Json)
  | [], name, v => [(name, v)]
  | f :: fields, name, v =>
    if f.1 = name then (f.1, v) :: fields else f :: setField fields name v

/-- `JSONDecoder` -/
def decoder : Reader Json where
  word := constant
  literal := unescape
  str := .str
  arr := .arr
  obj := .obj
  insert fields name v := some (setField fields name v)

/-- `json.loads`; it is none when that raises. -/
def loads (t : Text) : Option Json :=
  decoder.read t

/-- The reader that wants each name of an object once. -/
def strict : Reader Json :=
  decoder.withInsert fun fields name v =>
    if name ∈ fields.map Prod.fst then none else some (setField fields name v)

/-- A text is a serialisation of an array or an object. -/
def Serialises (s : Text) (v : Json) : Prop :=
  strict.read s = some v ∧ ∃ k, decoder.Is k v

/-! ### Commas -/

mutual

/-- The commas in the strings of a value. -/
def commas : Json → ℕ
  | .str s => s.count ','
  | .arr items => itemCommas items
  | .obj fields => fieldCommas fields
  | _ => 0

def itemCommas : List Json → ℕ
  | [] => 0
  | v :: items => commas v + itemCommas items

def fieldCommas : List (Text × Json) → ℕ
  | [] => 0
  | (name, v) :: fields => name.count ',' + commas v + fieldCommas fields

end

theorem itemCommas_eq (items : List Json) : itemCommas items = (items.map commas).sum := by
  induction items with
  | nil => rfl
  | cons v items ih => rw [itemCommas, ih, List.map_cons, List.sum_cons]

theorem fieldCommas_eq (fields : List (Text × Json)) :
    fieldCommas fields = (fields.map fun f => f.1.count ',' + commas f.2).sum := by
  induction fields with
  | nil => rfl
  | cons f fields ih => rw [fieldCommas, ih, List.map_cons, List.sum_cons]

theorem commas_of_constant {t : Text} {v : Json} (h : constant t = some v) : commas v = 0 := by
  unfold constant at h
  split_ifs at h <;> obtain rfl := Option.some.inj h <;> rfl

/-- Commas as a weight, however fields are put into objects. -/
def commaWeight (insert : List (Text × Json) → Text → Json → Option (List (Text × Json))) :
    Weight (decoder.withInsert insert) where
  text := List.count ','
  of := commas
  of_str _ := rfl
  of_word _ _ h := commas_of_constant h
  of_arr := itemCommas_eq
  of_obj := fieldCommas_eq

theorem fieldCommas_setField_le (fields : List (Text × Json)) (name : Text) (v : Json) :
    fieldCommas (setField fields name v) ≤ fieldCommas fields + name.count ',' + commas v := by
  induction fields with
  | nil => simp [setField, fieldCommas]
  | cons f fields ih =>
    rw [setField]
    split_ifs
    · simp only [fieldCommas]
      omega
    · simp only [fieldCommas]
      omega

theorem fieldCommas_setField {fields : List (Text × Json)} {name : Text}
    (h : name ∉ fields.map Prod.fst) (v : Json) :
    fieldCommas (setField fields name v) = fieldCommas fields + name.count ',' + commas v := by
  induction fields with
  | nil => simp [setField, fieldCommas]
  | cons f fields ih =>
    rw [List.map_cons, List.mem_cons, not_or] at h
    rw [setField, if_neg (Ne.symm h.1)]
    simp only [fieldCommas, ih h.2]
    omega

/-- A serialisation is read by `json.loads`. -/
theorem run_of_strict {ts : List Token} {v : Json} (h : strict.run (.value []) ts = some v) :
    decoder.run (.value []) ts = some v := by
  have hinsert : ∀ fields name v fields', strict.insert fields name v = some fields' →
      decoder.insert fields name v = some fields' := by
    intro fields name v fields' hfields'
    change (if name ∈ fields.map Prod.fst then none else some (setField fields name v)) = _
      at hfields'
    split_ifs at hfields'
    exact hfields'
  exact Reader.run_mono hinsert h

/-- The commas in the literals of some tokens. -/
def literalCommas (ts : List Token) : ℕ :=
  (commaWeight decoder.insert).tokens ts

/-- What `json.loads` reads has no more commas than what is written. -/
theorem commas_le {ts : List Token} {v : Json} (h : decoder.run (.value []) ts = some v) :
    commas v ≤ literalCommas ts := by
  have hadd : ∀ a b c : ℕ, a ≤ b → a + c ≤ b + c := fun a b c hab => Nat.add_le_add_right hab c
  have hinserts : (commaWeight decoder.insert).Inserts (· ≤ ·) := by
    intro fields name v fields' hfields'
    obtain rfl := Option.some.inj hfields'
    have hle := fieldCommas_setField_le fields name v
    rw [fieldCommas_eq, fieldCommas_eq] at hle
    exact hle
  have hrun : commas v ≤ 0 + literalCommas ts := Weight.run hadd hinserts h
  rwa [Nat.zero_add] at hrun

/-- A serialisation has all the commas that are written. -/
theorem commas_eq {ts : List Token} {v : Json} (h : strict.run (.value []) ts = some v) :
    commas v = literalCommas ts := by
  have hadd : ∀ a b c : ℕ, a = b → a + c = b + c := fun a b c hab => congrArg (· + c) hab
  have hinserts : (commaWeight strict.insert).Inserts (· = ·) := by
    intro fields name v fields' hfields'
    change (if name ∈ fields.map Prod.fst then none else some (setField fields name v)) = _
      at hfields'
    split_ifs at hfields' with hname
    obtain rfl := Option.some.inj hfields'
    have heq := fieldCommas_setField hname v
    rw [fieldCommas_eq, fieldCommas_eq] at heq
    exact heq
  have hrun : commas v = 0 + literalCommas ts := Weight.run hadd hinserts h
  rwa [Nat.zero_add] at hrun

/-! ### The repair -/

/-- A closing bracket comes next. -/
def closesNext (t : Text) : Bool :=
  (t.dropWhile isSpace).head?.any fun d => d = ']' || d = '\x7d'

theorem dropTrailingCommas_cons (c : Char) (t : Text) :
    dropTrailingCommas (c :: t) =
      if c = ',' && closesNext t then dropTrailingCommas t else c :: dropTrailingCommas t := rfl

theorem dropTrailingCommas_of_ne {c : Char} (hc : c ≠ ',') (t : Text) :
    dropTrailingCommas (c :: t) = c :: dropTrailingCommas t := by
  rw [dropTrailingCommas_cons, if_neg]
  simp [hc]

theorem dropTrailingCommas_sublist (t : Text) : (dropTrailingCommas t).Sublist t := by
  induction t with
  | nil => exact List.Sublist.refl []
  | cons c t ih =>
    rw [dropTrailingCommas_cons]
    split_ifs
    · exact ih.cons c
    · exact ih.cons_cons c

theorem dropTrailingCommas_eq_self {t : Text} (h : ',' ∉ t) : dropTrailingCommas t = t := by
  induction t with
  | nil => rfl
  | cons c t ih =>
    rw [List.mem_cons, not_or] at h
    rw [dropTrailingCommas_of_ne (Ne.symm h.1), ih h.2]

/-- The end of a text is repaired alone. -/
theorem exists_dropTrailingCommas_append (c : Char) (hc : c ≠ ',') (t u : Text) :
    ∃ z, dropTrailingCommas (c :: t ++ u) = c :: z ++ dropTrailingCommas u := by
  have hany : ∃ z, dropTrailingCommas (t ++ u) = z ++ dropTrailingCommas u := by
    induction t with
    | nil => exact ⟨[], rfl⟩
    | cons d t ih =>
      obtain ⟨z, hz⟩ := ih
      rw [List.cons_append, dropTrailingCommas_cons, hz]
      split_ifs
      · exact ⟨z, rfl⟩
      · exact ⟨d :: z, rfl⟩
  obtain ⟨z, hz⟩ := hany
  exact ⟨z, by rw [List.cons_append, dropTrailingCommas_of_ne hc, hz, List.cons_append]⟩

/-- A comma stands before a closing bracket, but for white space. -/
def TrailingComma (t : Text) : Prop :=
  ∃ u w d x, t = u ++ ',' :: (w ++ d :: x) ∧ w.all isSpace = true ∧ (d = ']' ∨ d = '\x7d')

theorem closesNext_iff (t : Text) :
    closesNext t = true ↔
      ∃ w d x, t = w ++ d :: x ∧ w.all isSpace = true ∧ (d = ']' ∨ d = '\x7d') := by
  constructor
  · intro h
    unfold closesNext at h
    cases hdrop : t.dropWhile isSpace with
    | nil =>
      rw [hdrop] at h
      cases h
    | cons d x =>
      rw [hdrop] at h
      refine ⟨t.takeWhile isSpace, d, x, ?_, ?_, by simpa using h⟩
      · rw [← hdrop, List.takeWhile_append_dropWhile]
      · exact List.all_eq_true.mpr fun c hc => List.mem_takeWhile_imp hc
  · rintro ⟨w, d, x, rfl, hw, hd⟩
    have hspace : isSpace d = false := by rcases hd with rfl | rfl <;> decide
    unfold closesNext
    rw [List.dropWhile_append_of_pos (List.all_eq_true.mp hw), List.dropWhile_cons_of_neg (by simp [hspace])]
    simpa using hd

theorem trailingComma_cons_iff (c : Char) (t : Text) :
    TrailingComma (c :: t) ↔ (c = ',' ∧ closesNext t = true) ∨ TrailingComma t := by
  rw [closesNext_iff]
  constructor
  · rintro ⟨u, w, d, x, heq, hw, hd⟩
    cases u with
    | nil =>
      obtain ⟨rfl, rfl⟩ := List.cons.inj heq
      exact .inl ⟨rfl, w, d, x, rfl, hw, hd⟩
    | cons b u =>
      obtain ⟨rfl, rfl⟩ := List.cons.inj heq
      exact .inr ⟨u, w, d, x, rfl, hw, hd⟩
  · rintro (⟨rfl, w, d, x, rfl, hw, hd⟩ | ⟨u, w, d, x, rfl, hw, hd⟩)
    · exact ⟨[], w, d, x, rfl, hw, hd⟩
    · exact ⟨c :: u, w, d, x, rfl, hw, hd⟩

/-- **The repair changes nothing** if and only if there is nothing to repair. -/
theorem dropTrailingCommas_eq_self_iff (t : Text) :
    dropTrailingCommas t = t ↔ ¬TrailingComma t := by
  induction t with
  | nil =>
    refine ⟨fun _ => ?_, fun _ => rfl⟩
    rintro ⟨u, w, d, x, heq, -⟩
    cases u <;> cases heq
  | cons c t ih =>
    rw [trailingComma_cons_iff, not_or, ← ih, dropTrailingCommas_cons]
    split_ifs with h
    · -- A text does not get longer.
      rw [Bool.and_eq_true, decide_eq_true_eq] at h
      refine ⟨fun heq => ?_, fun hnot => absurd h hnot.1⟩
      have hlength := (dropTrailingCommas_sublist t).length_le
      rw [heq, List.length_cons] at hlength
      omega
    · rw [Bool.and_eq_true, decide_eq_true_eq] at h
      rw [List.cons.injEq, and_iff_right rfl, and_iff_right h]

/-! ### Escapes -/

/-- A comma of a literal is a comma of its text. -/
theorem units_dropTrailingCommas {e : Escape} {t : Text} {us : List ℕ} (h : units e t = some us) :
    ∃ us', units e (dropTrailingCommas t) = some us' ∧
      us'.count 44 + t.length = us.count 44 + (dropTrailingCommas t).length := by
  induction t generalizing e us with
  | nil => exact ⟨us, h, rfl⟩
  | cons c t ih =>
    rw [dropTrailingCommas_cons, List.length_cons]
    split_ifs with hdrop
    · rw [Bool.and_eq_true, decide_eq_true_eq] at hdrop
      obtain rfl := hdrop.1
      cases e with
      | plain =>
        obtain ⟨us₁, hus₁, rfl⟩ := Option.map_eq_some_iff.mp h
        obtain ⟨us', hus', hcount⟩ := ih hus₁
        have hcomma : (codeUnits ',' ++ us₁).count 44 = us₁.count 44 + 1 := by
          have hone : codeUnits ',' = [44] := rfl
          rw [hone, List.singleton_append, List.count_cons_self]
        exact ⟨us', hus', by omega⟩
      | slash => cases h
      | hex more u => cases h
    · rw [List.length_cons]
      cases e with
      | plain =>
        rw [units] at h ⊢
        split_ifs at h ⊢ with hslash
        · obtain ⟨us', hus', hcount⟩ := ih h
          exact ⟨us', hus', by omega⟩
        · obtain ⟨us₁, hus₁, rfl⟩ := Option.map_eq_some_iff.mp h
          obtain ⟨us', hus', hcount⟩ := ih hus₁
          refine ⟨codeUnits c ++ us', by rw [hus', Option.map_some], ?_⟩
          rw [List.count_append, List.count_append]
          omega
      | slash =>
        rw [units] at h ⊢
        split_ifs at h ⊢ with hu
        · obtain ⟨us', hus', hcount⟩ := ih h
          exact ⟨us', hus', by omega⟩
        · obtain ⟨u, hescaped, h⟩ := Option.bind_eq_some_iff.mp h
          obtain ⟨us₁, hus₁, rfl⟩ := Option.map_eq_some_iff.mp h
          obtain ⟨us', hus', hcount⟩ := ih hus₁
          refine ⟨u :: us', by rw [hescaped, Option.bind_some, hus', Option.map_some], ?_⟩
          rw [List.count_cons, List.count_cons]
          omega
      | hex more u =>
        rw [units] at h ⊢
        obtain ⟨d, hd, h⟩ := Option.bind_eq_some_iff.mp h
        rw [hd, Option.bind_some]
        cases more with
        | zero =>
          obtain ⟨us₁, hus₁, rfl⟩ := Option.map_eq_some_iff.mp h
          obtain ⟨us', hus', hcount⟩ := ih hus₁
          refine ⟨(16 * u + d) :: us', by simp only [hus', Option.map_some], ?_⟩
          rw [List.count_cons, List.count_cons]
          omega
        | succ more =>
          obtain ⟨us', hus', hcount⟩ := ih h
          exact ⟨us', hus', by omega⟩

/-! ### The tokens of a repaired text -/

/-- The repair of a token. -/
def repaired : Token → Token
  | .str raw => .str (dropTrailingCommas raw)
  | tok => tok

/-- No bracket closes after a comma. -/
abbrev Closed (ts : List Token) : Prop :=
  ts.IsChain fun tok tok' => tok = .comma → ∀ k, tok' ≠ .closing k

theorem toNat_of_isAlphanum {c : Char} (h : c.isAlphanum = true) :
    c.toNat < 128 ∧ 48 ≤ c.toNat := by
  obtain halpha | hdigit := (Bool.or_eq_true _ _).mp h
  · obtain hupper | hlower := (Bool.or_eq_true _ _).mp halpha
    · have hrange : 65 ≤ c.toNat ∧ c.toNat ≤ 90 := of_decide_eq_true hupper
      omega
    · obtain ⟨hle, hge⟩ := (Bool.and_eq_true _ _).mp hlower
      have hrange : 97 ≤ c.toNat ∧ c.toNat ≤ 122 :=
        ⟨of_decide_eq_true hle, of_decide_eq_true hge⟩
      omega
  · have hrange := Char.isDigit_iff_toNat.mp hdigit
    have hzero : '0'.toNat = 48 := rfl
    have hnine : '9'.toNat = 57 := rfl
    omega

/-- White space is no token. -/
theorem next_of_isSpace (c : Char) (hc : isSpace c = true) (hgap : isGap c = false) :
    next .out c = none := by
  have hword : isWordChar c = false := by
    by_contra hnot
    rw [Bool.not_eq_false] at hnot
    simp only [isWordChar, Bool.or_eq_true, decide_eq_true_eq] at hnot
    have hrange : ((c.toNat < 128 ∧ 48 ≤ c.toNat ∨ c = '+') ∨ c = '-') ∨ c = '.' :=
      hnot.imp_left (Or.imp_left (Or.imp_left toNat_of_isAlphanum))
    simp only [isSpace, Bool.or_eq_true, Bool.and_eq_true, decide_eq_true_eq] at hc
    rcases hrange with ((hrange | rfl) | rfl) | rfl
    · omega
    · exact absurd hc (by decide)
    · exact absurd hc (by decide)
    · exact absurd hc (by decide)
  have hquote : c ≠ '"' := by
    rintro rfl
    exact absurd hc (by decide)
  have hpunctuation : punctuation c = none := by
    unfold punctuation
    split_ifs with h₁ h₂ h₃ h₄ h₅ h₆
    case neg => rfl
    all_goals
      subst_vars
      exact absurd hc (by decide)
  simp only [next, hword, hgap, hpunctuation, Bool.false_eq_true, if_false, if_neg hquote,
    Option.isSome_none]

/-- In a literal, what is next is in the literal. -/
theorem closesNext_of_lex_str {t : Text} {r : Text × List Token} (h : lex .str t = some r) :
    closesNext t = closesNext r.1 := by
  induction t generalizing r with
  | nil => cases h
  | cons c t ih =>
    obtain ⟨m', r', hnext, hr', rfl⟩ := exists_of_lex_cons h
    by_cases hquote : c = '"'
    · rw [hquote]
      rfl
    · have hput : put .str c r' = (c :: r'.1, r'.2) := if_neg hquote
      rw [hput]
      cases hspace : isSpace c with
      | true =>
        -- White space is passed over in both.
        have hstr : m' = .str := by
          have hback : c ≠ '\\' := by
            rintro rfl
            exact absurd hspace (by decide)
          simp only [next, if_neg hquote, if_neg hback] at hnext
          split_ifs at hnext
          exact (Option.some.inj hnext).symm
        rw [hstr] at hr'
        have hrest := ih hr'
        unfold closesNext at hrest ⊢
        rwa [List.dropWhile_cons_of_pos hspace, List.dropWhile_cons_of_pos hspace]
      | false =>
        unfold closesNext
        rw [List.dropWhile_cons_of_neg (by simp [hspace]),
          List.dropWhile_cons_of_neg (by simp [hspace])]
        rfl

/-- Outside of literals, it is the next token. -/
theorem exists_closing_of_closesNext {t : Text} {r : Text × List Token} (h : lex .out t = some r)
    (hnext : closesNext t = true) : ∃ k ts, r.2 = .closing k :: ts := by
  have hdrop := lex_dropWhile next_of_isSpace h
  unfold closesNext at hnext
  cases hrest : t.dropWhile isSpace with
  | nil =>
    rw [hrest] at hnext
    cases hnext
  | cons d u =>
    rw [hrest] at hnext hdrop
    obtain ⟨m', r', -, -, rfl⟩ := exists_of_lex_cons hdrop
    have hd : ∃ k, d = closeChar k := by
      simp only [List.head?_cons, Option.any_some, Bool.or_eq_true, decide_eq_true_eq] at hnext
      rcases hnext with rfl | rfl
      · exact ⟨.array, rfl⟩
      · exact ⟨.object, rfl⟩
    obtain ⟨k, rfl⟩ := hd
    exact ⟨k, r'.2, by rw [put_closeChar (.inl rfl)]⟩

/-- A word has no comma. -/
theorem comma_notMem_word {t : Text} {r : Text × List Token} (h : lex .word t = some r) :
    ',' ∉ r.1 := by
  induction t generalizing r with
  | nil =>
    rw [(outer_of_lex_nil h).2]
    exact List.not_mem_nil
  | cons c t ih =>
    obtain ⟨m', r', hnext, hr', rfl⟩ := exists_of_lex_cons h
    cases hword : isWordChar c with
    | true =>
      simp only [next, hword, if_true] at hnext
      obtain rfl := Option.some.inj hnext
      simp only [put, hword, if_true, List.mem_cons, not_or]
      refine ⟨?_, ih hr'⟩
      rintro rfl
      exact absurd hword (by decide)
    | false =>
      rw [lex_word_eq_out hword] at h
      rw [fst_of_lex_out h]
      exact List.not_mem_nil

theorem repaired_punctuation (c : Char) :
    (punctuation c).toList.map repaired = (punctuation c).toList := by
  unfold punctuation
  split_ifs <;> rfl

/-- The repair of a text whose first character is kept. -/
theorem put_repaired {m m' : Mode} {c : Char} {t : Text} {r : Text × List Token}
    (hnext : next m c = some m') (hr : lex m' t = some r)
    (hkeep : ¬(c = ',' ∧ closesNext t = true)) :
    put m c (dropTrailingCommas r.1, r.2.map repaired) =
      (dropTrailingCommas (put m c r).1, (put m c r).2.map repaired) := by
  have hword : ∀ {c}, isWordChar c = true → c ≠ ',' := by
    rintro c hc rfl
    exact absurd hc (by decide)
  cases m with
  | str =>
    simp only [put]
    split_ifs with hquote
    · rfl
    · have hcons : dropTrailingCommas (c :: r.1) = c :: dropTrailingCommas r.1 := by
        rw [dropTrailingCommas_cons, if_neg]
        rw [Bool.and_eq_true, decide_eq_true_eq]
        rintro ⟨rfl, hcloses⟩
        obtain rfl : Mode.str = m' := Option.some.inj hnext
        exact hkeep ⟨rfl, closesNext_of_lex_str hr ▸ hcloses⟩
      rw [hcons]
  | esc =>
    have hcomma : c ≠ ',' := by
      rintro rfl
      cases hnext
    simp only [put, dropTrailingCommas_of_ne hcomma]
  | out =>
    simp only [put]
    split_ifs with h₁ h₂ h₃
    · simp only [next, h₁, if_true] at hnext
      obtain rfl := Option.some.inj hnext
      rw [dropTrailingCommas_eq_self (comma_notMem_word hr)]
      rfl
    · rfl
    · rfl
    · rw [List.map_append, repaired_punctuation]
      rfl
  | word =>
    simp only [put]
    split_ifs with h₁ h₂ h₃
    · rw [dropTrailingCommas_of_ne (hword h₁)]
    · rfl
    · rfl
    · rw [List.map_append, repaired_punctuation]
      rfl

/-- **The repair and the tokens**: it goes on within literals only. -/
theorem lex_dropTrailingCommas {m : Mode} {t : Text} {r : Text × List Token}
    (h : lex m t = some r) (hr : Closed r.2) :
    lex m (dropTrailingCommas t) = some (dropTrailingCommas r.1, r.2.map repaired) := by
  induction t generalizing m r with
  | nil =>
    obtain rfl := (outer_of_lex_nil h).2
    exact h
  | cons c t ih =>
    obtain ⟨m', r', hnext, hr', rfl⟩ := exists_of_lex_cons h
    have hclosed : Closed r'.2 := by
      rcases snd_put m c r' with heq | ⟨tok, heq, -⟩
      · rwa [heq] at hr
      · rw [heq] at hr
        exact hr.tail
    have hrest := ih hr' hclosed
    rw [dropTrailingCommas_cons]
    split_ifs with hdrop
    · rw [Bool.and_eq_true, decide_eq_true_eq] at hdrop
      obtain ⟨rfl, hcloses⟩ := hdrop
      have houter : m.Outer → lex m (dropTrailingCommas t) =
          some (dropTrailingCommas (put m ',' r').1, (put m ',' r').2.map repaired) := by
        intro hm
        have hput : put m ',' r' = ([], .comma :: r'.2) := by
          rcases hm with rfl | rfl <;> rfl
        have hout : next m ',' = some .out := by
          rcases hm with rfl | rfl <;> rfl
        obtain rfl : Mode.out = m' := Option.some.inj (hout.symm.trans hnext)
        obtain ⟨k, ts, hts⟩ := exists_closing_of_closesNext hr' hcloses
        rw [hput, hts] at hr
        exact absurd rfl ((List.isChain_cons_cons.mp hr).1 rfl k)
      cases m with
      | out => exact houter (.inl rfl)
      | word => exact houter (.inr rfl)
      | esc => cases hnext
      | str =>
        obtain rfl : Mode.str = m' := Option.some.inj hnext
        have hput : put .str ',' r' = (',' :: r'.1, r'.2) := rfl
        rw [hput, dropTrailingCommas_cons, ← closesNext_of_lex_str hr', if_pos (by simp [hcloses])]
        exact hrest
    · rw [Bool.and_eq_true, decide_eq_true_eq] at hdrop
      rw [lex_cons, hnext, Option.bind_some, hrest, Option.map_some, put_repaired hnext hr' hdrop]

theorem tokens_dropTrailingCommas {t : Text} {ts : List Token} (h : tokens t = some ts)
    (hts : Closed ts) : tokens (dropTrailingCommas t) = some (ts.map repaired) := by
  obtain ⟨r, hr, rfl⟩ := Option.map_eq_some_iff.mp h
  rw [tokens, lex_dropTrailingCommas hr hts, Option.map_some]

/-! ### What the repair changes -/

/-- A literal that is repaired has fewer commas. -/
theorem literalCommas_repaired {raw x : Text} (h : unescape raw = some x) :
    (commaWeight decoder.insert).token (repaired (.str raw)) + raw.length =
      (commaWeight decoder.insert).token (.str raw) + (dropTrailingCommas raw).length := by
  obtain ⟨us, hus, rfl⟩ := Option.map_eq_some_iff.mp h
  obtain ⟨us', hus', hcount⟩ := units_dropTrailingCommas hus
  have h' : unescape (dropTrailingCommas raw) = some (ofUtf16 us') := by
    rw [unescape, hus', Option.map_some]
  have hcommas : ∀ us, (ofUtf16 us).count ',' = us.count 44 :=
    count_ofUtf16 (by decide) (by decide)
  rw [repaired, Weight.token_str _ (show decoder.literal _ = _ from h),
    Weight.token_str _ (show decoder.literal _ = _ from h')]
  show (ofUtf16 us').count ',' + _ = (ofUtf16 us).count ',' + _
  rw [hcommas, hcommas]
  exact hcount

private theorem eq_of_sum_le {α : Type*} {f g : α → ℕ} {xs : List α}
    (hle : ∀ x ∈ xs, g x ≤ f x) (hsum : (xs.map f).sum ≤ (xs.map g).sum) : ∀ x ∈ xs, g x = f x := by
  induction xs with
  | nil => exact fun x hx => absurd hx List.not_mem_nil
  | cons x xs ih =>
    rw [List.map_cons, List.sum_cons, List.map_cons, List.sum_cons] at hsum
    rw [List.forall_mem_cons] at hle ⊢
    have hrest : (xs.map g).sum ≤ (xs.map f).sum := List.sum_le_sum hle.2
    exact ⟨by omega, ih hle.2 (by omega)⟩

/-- **Where the repaired text is read as the value, no literal was changed.** -/
theorem literals_kept {ts : List Token} {v : Json} (h : strict.run (.value []) ts = some v)
    (hrepaired : decoder.run (.value []) (ts.map repaired) = some v) {raw : Text}
    (hraw : Token.str raw ∈ ts) : dropTrailingCommas raw = raw := by
  have hsum : literalCommas ts ≤ literalCommas (ts.map repaired) := by
    rw [← commas_eq h]
    exact commas_le hrepaired
  have hliteral : ∀ raw, Token.str raw ∈ ts → ∃ x, unescape raw = some x :=
    fun raw hmem => Reader.exists_literal_of_run h hmem
  have hle : ∀ tok ∈ ts, (commaWeight decoder.insert).token (repaired tok) ≤
      (commaWeight decoder.insert).token tok := by
    intro tok htok
    cases tok with
    | str raw =>
      obtain ⟨x, hx⟩ := hliteral raw htok
      have hcount := literalCommas_repaired hx
      have hlength := (dropTrailingCommas_sublist raw).length_le
      omega
    | _ => exact le_rfl
  obtain ⟨x, hx⟩ := hliteral raw hraw
  have hcount := literalCommas_repaired hx
  have hsame := eq_of_sum_le hle (by simpa [literalCommas, Weight.tokens, Function.comp_def] using hsum)
    _ hraw
  exact (dropTrailingCommas_sublist raw).eq_of_length (by omega)

end JsonResponse
end EmailOps
