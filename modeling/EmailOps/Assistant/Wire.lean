import EmailOps.Assistant.JsonRepair
import EmailOps.Framework.JsonWriter

/-!
# JSON between the services

The engine writes JSON with `json.dumps`, the backend and the browser write it with
`JSON.stringify`. They differ in the white space after a comma and a colon.

* `write` writes a value, with some white space there.
* `Proper` values are those JSON has a text for: their numbers are numbers, and no object has a
  name twice.
* `read_write`: what is written is read as the value, by `json.loads` and by `JSON.parse`.
* `notMem_write`: what is written is on one line.
-/

namespace EmailOps
namespace Wire

open Framework Framework.Text Framework.JsonText
open JsonResponse (decoder constant setField)

/-! ### Writing -/

mutual

/-- The text of a value, with white space after commas and colons. -/
def write (gap : Text) : Json → Text
  | .null => "null".toList
  | .bool true => "true".toList
  | .bool false => "false".toList
  | .num t => t
  | .str s => quote s
  | .arr [] => ['[', ']']
  | .arr (v :: items) => '[' :: (write gap v ++ writeItems gap items)
  | .obj [] => ['\x7b', '\x7d']
  | .obj ((name, v) :: fields) =>
    '\x7b' :: (quote name ++ ':' :: (gap ++ (write gap v ++ writeFields gap fields)))

/-- The other items of an array. -/
def writeItems (gap : Text) : List Json → Text
  | [] => [']']
  | v :: items => ',' :: (gap ++ (write gap v ++ writeItems gap items))

/-- The other fields of an object. -/
def writeFields (gap : Text) : List (Text × Json) → Text
  | [] => ['\x7d']
  | (name, v) :: fields =>
    ',' :: (gap ++ (quote name ++ ':' :: (gap ++ (write gap v ++ writeFields gap fields))))

end

/-- `json.dumps(value, ensure_ascii=False)` -/
def dumps (v : Json) : Text :=
  write [' '] v

/-- `JSON.stringify(value)` -/
def stringify (v : Json) : Text :=
  write [] v

/-! ### Reading -/

/-- `JSON.parse` knows no `NaN` and no `Infinity`. -/
def constantJs (t : Text) : Option Json :=
  if t = "null".toList then some .null
  else if t = "true".toList then some (.bool true)
  else if t = "false".toList then some (.bool false)
  else if isNumber t then some (.num t)
  else none

/-- `JSON.parse` -/
def parser : Reader Json :=
  { decoder with word := constantJs }

/-- What is in a text; it is none when that throws. -/
def parse (t : Text) : Option Json :=
  parser.read t

/-- A reader of JSON. -/
structure Standard (R : Reader Json) : Prop where
  word_null : R.word "null".toList = some .null
  word_bool : ∀ b, R.word (write [] (.bool b)) = some (.bool b)
  word_num : ∀ t, isNumber t = true → R.word t = some (.num t)
  literal : ∀ raw, R.literal raw = unescape raw
  str : ∀ x, R.str x = .str x
  arr : ∀ items, R.arr items = .arr items
  obj : ∀ fields, R.obj fields = .obj fields
  insert : ∀ fields name v, name ∉ fields.map Prod.fst →
    R.insert fields name v = some (fields ++ [(name, v)])

mutual

/-- A value that JSON has a text for. -/
def Proper : Json → Prop
  | .num t => isNumber t = true
  | .arr items => ProperItems items
  | .obj fields => (fields.map Prod.fst).Nodup ∧ ProperFields fields
  | _ => True

def ProperItems : List Json → Prop
  | [] => True
  | v :: items => Proper v ∧ ProperItems items

def ProperFields : List (Text × Json) → Prop
  | [] => True
  | (_, v) :: fields => Proper v ∧ ProperFields fields

end

/-! ### Numbers -/

theorem isWordChar_of_isDigit {c : Char} (h : c.isDigit = true) : isWordChar c = true := by
  have halnum : c.isAlphanum = true := (Bool.or_eq_true _ _).mpr (.inr h)
  rw [isWordChar, halnum, Bool.true_or, Bool.true_or, Bool.true_or]

theorem isWordChar_of_isExponent {t : Text} (h : isExponent t = true) :
    ∀ c ∈ t, isWordChar c = true := by
  cases t with
  | nil => exact fun c hc => absurd hc List.not_mem_nil
  | cons e t =>
    simp only [isExponent, Bool.and_eq_true, Bool.or_eq_true, decide_eq_true_eq] at h
    obtain ⟨⟨he, -⟩, hdigits⟩ := h
    have hmark : isWordChar e = true := by
      rcases he with rfl | rfl <;> decide
    intro c hc
    obtain rfl | hc := List.mem_cons.mp hc
    · exact hmark
    · split_ifs at hdigits with hsign
      · -- a sign, and digits
        cases t with
        | nil => exact absurd hc List.not_mem_nil
        | cons s t =>
          obtain rfl | hc := List.mem_cons.mp hc
          · simp only [List.head?_cons, Option.some.injEq] at hsign
            rcases hsign with rfl | rfl <;> decide
          · exact isWordChar_of_isDigit (List.all_eq_true.mp hdigits c hc)
      · exact isWordChar_of_isDigit (List.all_eq_true.mp hdigits c hc)

theorem isWordChar_of_digits {t : Text}
    (h : ∀ c ∈ t.dropWhile Char.isDigit, isWordChar c = true) : ∀ c ∈ t, isWordChar c = true := by
  intro c hc
  rw [← List.takeWhile_append_dropWhile (p := Char.isDigit) (l := t), List.mem_append] at hc
  obtain hc | hc := hc
  · exact isWordChar_of_isDigit (List.mem_takeWhile_imp hc)
  · exact h c hc

theorem isWordChar_of_isFraction {t : Text} (h : isFraction t = true) :
    ∀ c ∈ t, isWordChar c = true := by
  unfold isFraction at h
  split at h
  · next t =>
    have hexponent := isWordChar_of_isExponent (Bool.and_eq_true_iff.mp h).2
    intro c hc
    obtain rfl | hc := List.mem_cons.mp hc
    · decide
    · exact isWordChar_of_digits hexponent c hc
  · exact isWordChar_of_isExponent h

/-- A number is a word. -/
theorem isWordChar_of_isNumber {t : Text} (h : isNumber t = true) :
    t ≠ [] ∧ ∀ c ∈ t, isWordChar c = true := by
  unfold isNumber at h
  simp only [Bool.and_eq_true, decide_eq_true_eq] at h
  obtain ⟨⟨hinteger, -⟩, hfraction⟩ := h
  have hdigits := isWordChar_of_digits (isWordChar_of_isFraction hfraction)
  split_ifs at hinteger hdigits with hsign
  · cases t with
    | nil => cases hsign
    | cons s t =>
      obtain rfl := Option.some.inj hsign
      refine ⟨List.cons_ne_nil _ _, fun c hc => ?_⟩
      obtain rfl | hc := List.mem_cons.mp hc
      · decide
      · exact hdigits c hc
  · refine ⟨?_, hdigits⟩
    rintro rfl
    exact hinteger rfl

/-! ### The round trip -/

/-- A text is read as a value: it is tokens that are. -/
def ReadsText (R : Reader Json) (t : Text) (v : Json) : Prop :=
  ∃ ts m, Lexes .out t ts m ∧ m.Outer ∧ R.Reads ts v

theorem readsText_word {R : Reader Json} {t : Text} {v : Json} (hne : t ≠ [])
    (hword : t.all isWordChar = true) (h : R.word t = some v) : ReadsText R t v :=
  ⟨_, _, lexes_word hne (List.all_eq_true.mp hword), .inr rfl, Reader.reads_word h⟩

theorem parts_writeItems (gap : Text) (items : List Json) : Parts (writeItems gap items) := by
  cases items with
  | nil => exact ⟨_, _, rfl, by decide⟩
  | cons v items => exact ⟨_, _, rfl, by decide⟩

theorem parts_writeFields (gap : Text) (fields : List (Text × Json)) :
    Parts (writeFields gap fields) := by
  cases fields with
  | nil => exact ⟨_, _, rfl, by decide⟩
  | cons f fields => exact ⟨_, _, rfl, by decide⟩

section RoundTrip

variable {R : Reader Json} (hR : Standard R) {gap : Text} (hgap : ∀ c ∈ gap, isGap c = true)

include hR hgap

mutual

/-- What is written is read. -/
theorem readsText_write : ∀ v, Proper v → ReadsText R (write gap v) v
  | .null, _ => readsText_word (t := "null".toList) (by decide) rfl hR.word_null
  | .bool true, _ => readsText_word (t := "true".toList) (by decide) rfl (hR.word_bool true)
  | .bool false, _ => readsText_word (t := "false".toList) (by decide) rfl (hR.word_bool false)
  | .num t, h => by
    obtain ⟨hne, hword⟩ := isWordChar_of_isNumber h
    exact readsText_word hne (List.all_eq_true.mpr hword) (hR.word_num t h)
  | .str s, _ => by
    refine ⟨_, _, lexes_quote s, .inl rfl, ?_⟩
    rw [← hR.str]
    exact Reader.reads_str (by rw [hR.literal, unescape_escape])
  | .arr [], _ => by
    refine ⟨_, _, (lexes_opening .array).append (lexes_closing .array), .inl rfl, ?_⟩
    intro st us
    rw [← hR.arr]
    rfl
  | .arr (v :: items), h => by
    obtain ⟨ts, m, hlex, hm, hread⟩ := readsText_write v h.1
    obtain ⟨ts', hlex', hread'⟩ := readsText_writeItems items h.2
    have hall := (lexes_opening .array).append
      (hlex.append_parts hm hlex' (parts_writeItems gap items))
    refine ⟨_, .out, hall, .inl rfl, fun st us => ?_⟩
    calc
      R.run (.value st) (.opening .array :: (ts ++ ts') ++ us)
        = R.run (.arrStart st) (ts ++ (ts' ++ us)) := by
          rw [List.cons_append, List.append_assoc, Reader.run_cons]
          rfl
      _ = R.run (.arrNext [v] st) (ts' ++ us) := hread.run_arrStart st _
      _ = (R.complete (.arr (v :: items)) st).bind (R.run · us) := hread' [v] st us
  | .obj [], _ => by
    refine ⟨_, _, (lexes_opening .object).append (lexes_closing .object), .inl rfl, ?_⟩
    intro st us
    rw [← hR.obj]
    rfl
  | .obj ((name, v) :: fields), h => by
    obtain ⟨ts, m, hlex, hm, hread⟩ := readsText_write v h.2.1
    obtain ⟨ts', hlex', hread'⟩ := readsText_writeFields fields h.2.2
    have hfield := (lexes_quote name).append (lexes_colon.append ((lexes_gaps hgap).append
      (hlex.append_parts hm hlex' (parts_writeFields gap fields))))
    refine ⟨_, .out, (lexes_opening .object).append hfield, .inl rfl, fun st us => ?_⟩
    calc
      R.run (.value st) (.opening .object ::
          (.str (name.flatMap escape) :: .colon :: (ts ++ ts')) ++ us)
        = R.run (.objName [] st)
            (.str (name.flatMap escape) :: .colon :: (ts ++ (ts' ++ us))) := by
          rw [← Reader.run_objStart, ← List.append_assoc, List.cons_append, Reader.run_cons]
          rfl
      _ = R.run (.objNext [(name, v)] st) (ts' ++ us) := by
          rw [hread.run_field (by rw [hR.literal, unescape_escape]),
            hR.insert [] name v List.not_mem_nil]
          rfl
      _ = (R.complete (.obj ((name, v) :: fields)) st).bind (R.run · us) :=
          hread' [(name, v)] st us h.1

theorem readsText_writeItems : ∀ items, ProperItems items →
    ∃ ts, Lexes .out (writeItems gap items) ts .out ∧
      ∀ done st us, R.run (.arrNext done st) (ts ++ us) =
        (R.complete (.arr (done ++ items)) st).bind (R.run · us)
  | [], _ => by
    refine ⟨_, lexes_closing .array, fun done st us => ?_⟩
    rw [List.append_nil, ← hR.arr]
    rfl
  | v :: items, h => by
    obtain ⟨ts, m, hlex, hm, hread⟩ := readsText_write v h.1
    obtain ⟨ts', hlex', hread'⟩ := readsText_writeItems items h.2
    have hall := lexes_comma.append ((lexes_gaps hgap).append
      (hlex.append_parts hm hlex' (parts_writeItems gap items)))
    refine ⟨_, hall, fun done st us => ?_⟩
    calc
      R.run (.arrNext done st) (.comma :: (ts ++ ts') ++ us)
        = R.run (.arrNext done st) (.comma :: (ts ++ (ts' ++ us))) := by
          rw [List.cons_append, List.append_assoc]
      _ = R.run (.arrNext (done ++ [v]) st) (ts' ++ us) := hread.run_arrNext done st _
      _ = (R.complete (.arr (done ++ v :: items)) st).bind (R.run · us) := by
          rw [hread', List.append_assoc]
          rfl

theorem readsText_writeFields : ∀ fields, ProperFields fields →
    ∃ ts, Lexes .out (writeFields gap fields) ts .out ∧
      ∀ done st us, (done.map Prod.fst ++ fields.map Prod.fst).Nodup →
        R.run (.objNext done st) (ts ++ us) =
          (R.complete (.obj (done ++ fields)) st).bind (R.run · us)
  | [], _ => by
    refine ⟨_, lexes_closing .object, fun done st us _ => ?_⟩
    rw [List.append_nil, ← hR.obj]
    rfl
  | (name, v) :: fields, h => by
    obtain ⟨ts, m, hlex, hm, hread⟩ := readsText_write v h.1
    obtain ⟨ts', hlex', hread'⟩ := readsText_writeFields fields h.2
    have hall := lexes_comma.append ((lexes_gaps hgap).append ((lexes_quote name).append
      (lexes_colon.append ((lexes_gaps hgap).append
        (hlex.append_parts hm hlex' (parts_writeFields gap fields))))))
    refine ⟨_, hall, fun done st us hnodup => ?_⟩
    have hnew : name ∉ done.map Prod.fst := fun hmem =>
      (List.nodup_append.mp hnodup).2.2 name hmem name List.mem_cons_self rfl
    calc
      R.run (.objNext done st)
          (.comma :: (.str (name.flatMap escape) :: .colon :: (ts ++ ts')) ++ us)
        = R.run (.objName done st)
            (.str (name.flatMap escape) :: .colon :: (ts ++ (ts' ++ us))) := by
          rw [← Reader.run_objNext, ← List.append_assoc]
          rfl
      _ = R.run (.objNext (done ++ [(name, v)]) st) (ts' ++ us) := by
          rw [hread.run_field (by rw [hR.literal, unescape_escape]), hR.insert done name v hnew]
          rfl
      _ = (R.complete (.obj (done ++ (name, v) :: fields)) st).bind (R.run · us) := by
          rw [hread' _ st us (by simpa using hnodup), List.append_assoc]
          rfl

end

/-- **What is written is read as the value.** -/
theorem read_write {v : Json} (hv : Proper v) : R.read (write gap v) = some v := by
  obtain ⟨ts, m, hlex, -, hread⟩ := readsText_write hR hgap v hv
  rw [Reader.read, hlex.tokens_eq, Option.bind_some, hread.run_eq]

end RoundTrip

/-! ### The two readers -/

theorem setField_of_notMem {fields : List (Text × Json)} {name : Text} (v : Json)
    (h : name ∉ fields.map Prod.fst) : setField fields name v = fields ++ [(name, v)] := by
  induction fields with
  | nil => rfl
  | cons f fields ih =>
    rw [List.map_cons, List.mem_cons, not_or] at h
    rw [setField, if_neg (Ne.symm h.1), ih h.2, List.cons_append]

theorem ne_of_isNumber {t u : Text} (ht : isNumber t = true) (hu : isNumber u = false) : t ≠ u := by
  rintro rfl
  rw [ht] at hu
  cases hu

theorem standard_decoder : Standard decoder where
  word_null := rfl
  word_bool b := by cases b <;> rfl
  word_num t h := by
    change constant t = _
    rw [constant, if_neg (ne_of_isNumber h rfl), if_neg (ne_of_isNumber h rfl),
      if_neg (ne_of_isNumber h rfl), h, Bool.or_true, if_pos rfl]
  literal _ := rfl
  str _ := rfl
  arr _ := rfl
  obj _ := rfl
  insert fields name v h := congrArg some (setField_of_notMem v h)

theorem standard_parse : Standard parser where
  word_null := rfl
  word_bool b := by cases b <;> rfl
  word_num t h := by
    change constantJs t = _
    rw [constantJs, if_neg (ne_of_isNumber h rfl), if_neg (ne_of_isNumber h rfl),
      if_neg (ne_of_isNumber h rfl), h, if_pos rfl]
  literal _ := rfl
  str _ := rfl
  arr _ := rfl
  obj _ := rfl
  insert fields name v h := congrArg some (setField_of_notMem v h)

theorem parse_dumps {v : Json} (hv : Proper v) : parse (dumps v) = some v :=
  read_write standard_parse (forall_mem_of_all rfl) hv

theorem parse_stringify {v : Json} (hv : Proper v) : parse (stringify v) = some v :=
  read_write standard_parse (fun _ hc => absurd hc List.not_mem_nil) hv

/-! ### One line -/

section OneLine

variable {gap : Text} (hgap : '\n' ∉ gap)

include hgap

mutual

/-- **What is written is on one line.** -/
theorem notMem_write : ∀ v, Proper v → '\n' ∉ write gap v
  | .null, _ | .bool true, _ | .bool false, _ | .arr [], _ | .obj [], _ => by
    rw [write]
    decide
  | .num t, h => fun hmem => absurd ((isWordChar_of_isNumber h).2 _ hmem) (by decide)
  | .str s, _ => notMem_quote (by decide) s
  | .arr (v :: items), h => by
    simp only [write, List.mem_cons, List.mem_append, not_or]
    exact ⟨by decide, notMem_write v h.1, notMem_writeItems items h.2⟩
  | .obj ((name, v) :: fields), h => by
    simp only [write, List.mem_cons, List.mem_append, not_or]
    exact ⟨by decide, notMem_quote (by decide) name, by decide, hgap, notMem_write v h.2.1,
      notMem_writeFields fields h.2.2⟩

theorem notMem_writeItems : ∀ items, ProperItems items → '\n' ∉ writeItems gap items
  | [], _ => by
    rw [writeItems]
    decide
  | v :: items, h => by
    simp only [writeItems, List.mem_cons, List.mem_append, not_or]
    exact ⟨by decide, hgap, notMem_write v h.1, notMem_writeItems items h.2⟩

theorem notMem_writeFields : ∀ fields, ProperFields fields → '\n' ∉ writeFields gap fields
  | [], _ => by
    rw [writeFields]
    decide
  | (name, v) :: fields, h => by
    simp only [writeFields, List.mem_cons, List.mem_append, not_or]
    exact ⟨by decide, hgap, notMem_quote (by decide) name, by decide, hgap, notMem_write v h.1,
      notMem_writeFields fields h.2⟩

end

end OneLine

end Wire
end EmailOps
