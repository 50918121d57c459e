import Mathlib.Tactic.IntervalCases
import EmailOps.Framework.JsonLiterals
import EmailOps.Framework.JsonReader

/-!
# Writing JSON

* `quote` writes a string literal. `unescape_escape`: it is read as the text it was written for,
  and `lexes_quote`: it is one token.
* `Lexes` says what tokens a text is, between two places of the automaton. Texts are put together
  by `Lexes.append`, and after a word by `Lexes.append_parts`.
* `Reads` says that tokens are read as a value, whatever is open around them and comes after them.
  `reads_word` and `reads_str` are the values of one token; `Reads.run_arrStart`,
  `Reads.run_arrNext` and `Reads.run_field` put values into what is open.
-/

namespace Framework
namespace JsonText

open Text

/-! ### Literals -/

/-- A hexadecimal digit, in lower case. -/
def hexChar (n : ℕ) : Char :=
  if n < 10 then Char.ofNat (48 + n) else Char.ofNat (87 + n)

/-- What stands for a character in a literal. -/
def escape (c : Char) : Text :=
  if c = '"' then ['\\', '"']
  else if c = '\\' then ['\\', '\\']
  else if c.toNat = 8 then ['\\', 'b']
  else if c.toNat = 9 then ['\\', 't']
  else if c.toNat = 10 then ['\\', 'n']
  else if c.toNat = 12 then ['\\', 'f']
  else if c.toNat = 13 then ['\\', 'r']
  else if c.toNat < 0x20 then
    ['\\', 'u', '0', '0', hexChar (c.toNat / 16), hexChar (c.toNat % 16)]
  else [c]

/-- A string literal. -/
def quote (t : Text) : Text :=
  '"' :: (t.flatMap escape ++ ['"'])

theorem toNat_hexChar {n : ℕ} (h : n < 16) : 0x20 ≤ (hexChar n).toNat := by
  interval_cases n <;> decide

/-- What stands for a character is no control character. -/
theorem toNat_of_mem_escape {c d : Char} (h : d ∈ escape c) : 0x20 ≤ d.toNat := by
  have hpair : ∀ {e : Char}, 0x20 ≤ e.toNat → d ∈ ['\\', e] → 0x20 ≤ d.toNat := by
    intro e he hd
    rcases List.mem_pair.mp hd with rfl | rfl
    · decide
    · exact he
  unfold escape at h
  split_ifs at h with hquote hslash h8 h9 h10 h12 h13 hcontrol
  · exact hpair (by decide) h
  · exact hpair (by decide) h
  · exact hpair (by decide) h
  · exact hpair (by decide) h
  · exact hpair (by decide) h
  · exact hpair (by decide) h
  · exact hpair (by decide) h
  · simp only [List.mem_cons, List.not_mem_nil, or_false] at h
    rcases h with rfl | rfl | rfl | rfl | rfl | rfl
    · decide
    · decide
    · decide
    · decide
    · exact toNat_hexChar (by omega)
    · exact toNat_hexChar (by omega)
  · obtain rfl := List.mem_singleton.mp h
    omega

/-- A literal has no control characters. -/
theorem notMem_quote {d : Char} (hd : d.toNat < 0x20) (t : Text) : d ∉ quote t := by
  have hne : d ≠ '"' := by
    rintro rfl
    exact absurd hd (by decide)
  intro hmem
  obtain heq | hmem := List.mem_cons.mp hmem
  · exact hne heq
  obtain hmem | hmem := List.mem_append.mp hmem
  · obtain ⟨c, -, hc⟩ := List.mem_flatMap.mp hmem
    exact absurd (toNat_of_mem_escape hc) (by omega)
  · exact hne (List.mem_singleton.mp hmem)

theorem hexDigit_hexChar {n : ℕ} (h : n < 16) : hexDigit (hexChar n) = some n := by
  interval_cases n <;> rfl

/-- The code units of a character are read as the character. -/
theorem ofUtf16_codeUnits (c : Char) (us : List ℕ) :
    ofUtf16 (codeUnits c ++ us) = c :: ofUtf16 us := by
  have hvalid : c.toNat < 0xd800 ∨ 0xdfff < c.toNat ∧ c.toNat < 0x110000 := c.valid
  unfold codeUnits
  split_ifs with hbmp
  · -- one code unit, which is no surrogate
    have hhigh : isHigh c.toNat = false := by
      simp only [isHigh, Bool.and_eq_false_imp, decide_eq_true_eq, decide_eq_false_iff_not]
      omega
    have hlow : isLow c.toNat = false := by
      simp only [isLow, Bool.and_eq_false_imp, decide_eq_true_eq, decide_eq_false_iff_not]
      omega
    have hsingle : single c.toNat = c := by
      rw [single, hhigh, hlow, Bool.or_self, if_neg Bool.false_ne_true, Char.ofNat_toNat]
    cases us with
    | nil =>
      change [single c.toNat] = [c]
      rw [hsingle]
    | cons u us =>
      change (if isHigh c.toNat && isLow u then pair c.toNat u :: ofUtf16 us
        else single c.toNat :: ofUtf16 (u :: us)) = _
      rw [hhigh, Bool.false_and, if_neg Bool.false_ne_true, hsingle]
  · have hhigh : isHigh (0xd800 + (c.toNat - 0x10000) / 0x400) = true := by
      simp only [isHigh, Bool.and_eq_true, decide_eq_true_eq]
      omega
    have hlow : isLow (0xdc00 + (c.toNat - 0x10000) % 0x400) = true := by
      simp only [isLow, Bool.and_eq_true, decide_eq_true_eq]
      omega
    have hpair : pair (0xd800 + (c.toNat - 0x10000) / 0x400)
        (0xdc00 + (c.toNat - 0x10000) % 0x400) = c := by
      have hpoint : 0x10000 + (0xd800 + (c.toNat - 0x10000) / 0x400 - 0xd800) * 0x400 +
          (0xdc00 + (c.toNat - 0x10000) % 0x400 - 0xdc00) = c.toNat := by omega
      rw [pair, hpoint, Char.ofNat_toNat]
    rw [List.cons_append, List.cons_append, List.nil_append, ofUtf16, hhigh, hlow,
      Bool.and_self, if_pos rfl, hpair]

theorem ofUtf16_utf16 (t : Text) : ofUtf16 (utf16 t) = t := by
  induction t with
  | nil => rfl
  | cons c t ih =>
    have hsplit : utf16 (c :: t) = codeUnits c ++ utf16 t := List.flatMap_cons
    rw [hsplit, ofUtf16_codeUnits, ih]

/-- What stands for a character is read as its code units. -/
theorem units_escape (c : Char) (t : Text) :
    units .plain (escape c ++ t) = (units .plain t).map (codeUnits c ++ ·) := by
  have hascii : ∀ n, c.toNat = n → n < 0x80 → codeUnits c = [n] := by
    intro n hn hlt
    rw [codeUnits, if_pos (by omega), hn]
  unfold escape
  split_ifs with hquote hslash h8 h9 h10 h12 h13 hcontrol
  · rw [hascii 34 (by rw [hquote]; rfl) (by omega)]
    rfl
  · rw [hascii 92 (by rw [hslash]; rfl) (by omega)]
    rfl
  · rw [hascii 8 h8 (by omega)]
    rfl
  · rw [hascii 9 h9 (by omega)]
    rfl
  · rw [hascii 10 h10 (by omega)]
    rfl
  · rw [hascii 12 h12 (by omega)]
    rfl
  · rw [hascii 13 h13 (by omega)]
    rfl
  · -- two of the four digits are zero
    change (hexDigit (hexChar (c.toNat / 16))).bind (fun d =>
      units (.hex 0 (16 * (16 * (16 * 0 + 0) + 0) + d)) (hexChar (c.toNat % 16) :: t)) = _
    rw [hexDigit_hexChar (by omega), Option.bind_some]
    change (hexDigit (hexChar (c.toNat % 16))).bind (fun d =>
      (units .plain t).map ((16 * (16 * (16 * (16 * 0 + 0) + 0) + c.toNat / 16) + d) :: ·)) = _
    rw [hexDigit_hexChar (by omega), Option.bind_some]
    have hunit : 16 * (16 * (16 * (16 * 0 + 0) + 0) + c.toNat / 16) + c.toNat % 16 = c.toNat := by
      omega
    rw [hunit, hascii c.toNat rfl (by omega)]
    rfl
  · change (if c = '\\' then units .slash t else (units .plain t).map (codeUnits c ++ ·)) = _
    rw [if_neg hslash]

/-- **A literal is read as the text it was written for.** -/
theorem unescape_escape (t : Text) : unescape (t.flatMap escape) = some t := by
  have hunits : units .plain (t.flatMap escape) = some (utf16 t) := by
    induction t with
    | nil => rfl
    | cons c t ih =>
      rw [List.flatMap_cons, units_escape, ih]
      rfl
  rw [unescape, hunits, Option.map_some, ofUtf16_utf16]

/-! ### Tokens of texts that are put together -/

/-- A text is these tokens, from one place of the automaton to another. -/
structure Lexes (m : Mode) (t : Text) (ts : List Token) (m' : Mode) : Prop where
  lexed : lex m t = some ([], ts)
  ends : scan m t = some m'

theorem Lexes.append {m m' m'' : Mode} {t u : Text} {ts us : List Token}
    (ht : Lexes m t ts m') (hu : Lexes m' u us m'') : Lexes m (t ++ u) (ts ++ us) m'' := by
  refine ⟨lex_append ht.lexed ht.ends hu.lexed rfl, ?_⟩
  rw [scan_append, ht.ends, Option.bind_some, hu.ends]

/-- A text that does not continue a word. -/
def Parts (t : Text) : Prop :=
  ∃ c u, t = c :: u ∧ isWordChar c = false

/-- After a word comes what does not continue it. -/
theorem Lexes.append_parts {m m' m'' : Mode} {t u : Text} {ts us : List Token}
    (ht : Lexes m t ts m') (houter : m'.Outer) (hu : Lexes .out u us m'') (hparts : Parts u) :
    Lexes m (t ++ u) (ts ++ us) m'' := by
  obtain ⟨c, u, rfl, hc⟩ := hparts
  refine ht.append ⟨?_, ?_⟩
  · rw [lex_of_outer houter hc, hu.lexed]
  · rcases houter with rfl | rfl <;> exact hu.ends

theorem Lexes.tokens_eq {t : Text} {ts : List Token} {m : Mode} (h : Lexes .out t ts m) :
    tokens t = some ts := by
  rw [tokens, h.lexed, Option.map_some]

/-- A character that is a token. -/
theorem lexes_punctuation {c : Char} {tok : Token} (h : punctuation c = some tok)
    (hword : isWordChar c = false) (hgap : isGap c = false) (hquote : c ≠ '"') :
    Lexes .out [c] [tok] .out := by
  have hnext : next .out c = some .out := by
    rw [next, if_neg (by rw [hword]; exact Bool.false_ne_true),
      if_neg (by rw [hgap]; exact Bool.false_ne_true), if_neg hquote, h]
    · rfl
    all_goals
      intros
      contradiction
  have hput : put .out c ([], []) = ([], [tok]) := by
    rw [put, if_neg (by rw [hword]; exact Bool.false_ne_true),
      if_neg (by rw [hgap]; exact Bool.false_ne_true), if_neg hquote, h]
    rfl
  constructor
  · rw [lex_cons, hnext, Option.bind_some, lex, Option.map_some, hput]
  · rw [scan, hnext]
    rfl

theorem lexes_opening (k : Kind) : Lexes .out [openChar k] [.opening k] .out := by
  cases k <;> exact lexes_punctuation rfl (by decide) (by decide) (by decide)

theorem lexes_closing (k : Kind) : Lexes .out [closeChar k] [.closing k] .out := by
  cases k <;> exact lexes_punctuation rfl (by decide) (by decide) (by decide)

theorem lexes_comma : Lexes .out [','] [.comma] .out :=
  lexes_punctuation rfl (by decide) (by decide) (by decide)

theorem lexes_colon : Lexes .out [':'] [.colon] .out :=
  lexes_punctuation rfl (by decide) (by decide) (by decide)

/-- White space between tokens is none. -/
theorem lexes_gaps {w : Text} (hw : ∀ c ∈ w, isGap c = true) : Lexes .out w [] .out := by
  induction w with
  | nil => exact ⟨rfl, rfl⟩
  | cons c w ih =>
    have hc := hw c List.mem_cons_self
    have hrest := ih fun d hd => hw d (List.mem_cons_of_mem c hd)
    refine ⟨?_, ?_⟩
    · rw [lex_gap hc, hrest.lexed]
    · rw [scan, next_out_gap hc, Option.bind_some, hrest.ends]

/-- A text within a literal, after which the literal goes on. -/
structure Inner (t : Text) : Prop where
  lexed : ∀ {u : Text} {r : Text × List Token}, lex .str u = some r →
    lex .str (t ++ u) = some (t ++ r.1, r.2)
  passed : ∀ u : Text, scan .str (t ++ u) = scan .str u

theorem Inner.append {t u : Text} (ht : Inner t) (hu : Inner u) : Inner (t ++ u) where
  lexed h := by rw [List.append_assoc, ht.lexed (hu.lexed h), List.append_assoc]
  passed v := by rw [List.append_assoc, ht.passed, hu.passed]

theorem inner_char {c : Char} (hquote : c ≠ '"') (hslash : c ≠ '\\') (hcontrol : ¬c.toNat < 0x20) :
    Inner [c] := by
  have hnext : next .str c = some .str := by
    rw [next, if_neg hquote, if_neg hcontrol, if_neg hslash]
  constructor
  · intro u r h
    change lex .str (c :: u) = some (c :: r.1, r.2)
    rw [lex_cons, hnext, Option.bind_some, h, Option.map_some, put, if_neg hquote]
  · intro u
    change scan .str (c :: u) = scan .str u
    rw [scan, hnext, Option.bind_some]

theorem inner_escape {c : Char} (h : isEscape c = true) : Inner ['\\', c] := by
  have hnext : next .esc c = some .str := by rw [next, if_pos h]
  constructor
  · intro u r hu
    change lex .str ('\\' :: c :: u) = some ('\\' :: c :: r.1, r.2)
    have hslash : next .str '\\' = some .esc := rfl
    rw [lex_cons, hslash, Option.bind_some, lex_cons, hnext, Option.bind_some, hu]
    rfl
  · intro u
    change scan .str ('\\' :: c :: u) = scan .str u
    have hslash : next .str '\\' = some .esc := rfl
    rw [scan, hslash, Option.bind_some, scan, hnext, Option.bind_some]

theorem inner_hexChar {n : ℕ} (h : n < 16) : Inner [hexChar n] := by
  refine inner_char ?_ ?_ ?_ <;> interval_cases n <;> decide

/-- What stands for a character does not end the literal. -/
theorem inner_of_escape (c : Char) : Inner (escape c) := by
  unfold escape
  split_ifs with hquote hslash h8 h9 h10 h12 h13 hcontrol
  · exact inner_escape rfl
  · exact inner_escape rfl
  · exact inner_escape rfl
  · exact inner_escape rfl
  · exact inner_escape rfl
  · exact inner_escape rfl
  · exact inner_escape rfl
  · have hzero : Inner ['0'] := inner_char (by decide) (by decide) (by decide)
    have hhigh : Inner [hexChar (c.toNat / 16)] := inner_hexChar (by omega)
    have hlow : Inner [hexChar (c.toNat % 16)] := inner_hexChar (by omega)
    exact (inner_escape (c := 'u') rfl).append
      (hzero.append (hzero.append (hhigh.append hlow)))
  · exact inner_char hquote hslash hcontrol

theorem inner_flatMap_escape (t : Text) : Inner (t.flatMap escape) := by
  induction t with
  | nil => exact ⟨fun h => h, fun _ => rfl⟩
  | cons c t ih =>
    rw [List.flatMap_cons]
    exact (inner_of_escape c).append ih

/-- **A literal is one token.** -/
theorem lexes_quote (t : Text) : Lexes .out (quote t) [.str (t.flatMap escape)] .out := by
  have hnext : next .out '"' = some .str := rfl
  have hclose : lex .str ['"'] = some ([], []) := rfl
  constructor
  · rw [quote, lex_cons, hnext, Option.bind_some, (inner_flatMap_escape t).lexed hclose,
      List.append_nil]
    rfl
  · rw [quote, scan, hnext, Option.bind_some, (inner_flatMap_escape t).passed]
    rfl

/-- A word is one token. -/
theorem lexes_word {t : Text} (hne : t ≠ []) (h : ∀ c ∈ t, isWordChar c = true) :
    Lexes .out t [.word t] .word := by
  obtain ⟨c, t, rfl⟩ := List.exists_cons_of_ne_nil hne
  have hrest : ∀ u : Text, (∀ d ∈ u, isWordChar d = true) →
      lex .word u = some (u, []) ∧ scan .word u = some .word := by
    intro u
    induction u with
    | nil => exact fun _ => ⟨rfl, rfl⟩
    | cons d u ih =>
      intro hu
      obtain ⟨hlex, hscan⟩ := ih fun e he => hu e (List.mem_cons_of_mem d he)
      have hnext : next .word d = some .word := if_pos (hu d List.mem_cons_self)
      constructor
      · rw [lex_cons, hnext, Option.bind_some, hlex, Option.map_some, put,
          if_pos (hu d List.mem_cons_self)]
      · rw [scan, hnext, Option.bind_some, hscan]
  obtain ⟨hlex, hscan⟩ := hrest t fun d hd => h d (List.mem_cons_of_mem c hd)
  have hnext : next .out c = some .word := if_pos (h c List.mem_cons_self)
  constructor
  · rw [lex_cons, hnext, Option.bind_some, hlex, Option.map_some, put,
      if_pos (h c List.mem_cons_self)]
  · rw [scan, hnext, Option.bind_some, hscan]

/-! ### Values -/

namespace Reader

variable {V : Type*} {R : Reader V}

/-- Tokens are read as a value, whatever is open around them and comes after them. -/
def Reads (R : Reader V) (ts : List Token) (v : V) : Prop :=
  ∀ st us, R.run (.value st) (ts ++ us) = (R.complete v st).bind (R.run · us)

theorem reads_word {t : Text} {v : V} (h : R.word t = some v) : R.Reads [.word t] v := by
  intro st us
  change R.run (.value st) (.word t :: us) = _
  rw [run_cons, step, start, h, Option.bind_some]

theorem reads_str {raw x : Text} (h : R.literal raw = some x) : R.Reads [.str raw] (R.str x) := by
  intro st us
  change R.run (.value st) (.str raw :: us) = _
  rw [run_cons, step, start, h, Option.bind_some]

/-- What is read on its own. -/
theorem Reads.run_eq {ts : List Token} {v : V} (h : R.Reads ts v) : R.run (.value []) ts = some v := by
  have hrun := h [] []
  rwa [List.append_nil] at hrun

/-- A value does not begin with what closes an array. -/
theorem Reads.ne_closing {ts : List Token} {v : V} (h : R.Reads ts v) :
    ∃ tok ts', ts = tok :: ts' ∧ tok ≠ .closing .array := by
  cases ts with
  | nil => cases h.run_eq
  | cons tok ts =>
    refine ⟨tok, ts, rfl, ?_⟩
    rintro rfl
    cases h.run_eq

/-- The first item of an array. -/
theorem Reads.run_arrStart {ts : List Token} {v : V} (h : R.Reads ts v) (st : List (Frame V))
    (us : List Token) : R.run (.arrStart st) (ts ++ us) = R.run (.arrNext [v] st) us := by
  obtain ⟨tok, ts', rfl, hne⟩ := h.ne_closing
  have hstep : R.step (.arrStart st) tok = R.step (.value (.arr [] :: st)) tok := by
    cases tok with
    | closing k =>
      cases k with
      | array => exact absurd rfl hne
      | object => rfl
    | _ => rfl
  have hvalue := h (.arr [] :: st) us
  rw [List.cons_append, run_cons] at hvalue ⊢
  rw [hstep, hvalue]
  rfl

/-- The next item of an array. -/
theorem Reads.run_arrNext {ts : List Token} {v : V} (h : R.Reads ts v) (items : List V)
    (st : List (Frame V)) (us : List Token) :
    R.run (.arrNext items st) (.comma :: (ts ++ us)) = R.run (.arrNext (items ++ [v]) st) us := by
  rw [run_cons, step, Option.bind_some, h]
  rfl

/-- The value of a field. -/
theorem Reads.run_field {ts : List Token} {v : V} (h : R.Reads ts v) {raw x : Text}
    (hname : R.literal raw = some x) (fields : List (Text × V)) (st : List (Frame V))
    (us : List Token) :
    R.run (.objName fields st) (.str raw :: .colon :: (ts ++ us)) =
      (R.insert fields x v).bind fun fields' => R.run (.objNext fields' st) us := by
  rw [run_cons, step, name, hname, Option.map_some, Option.bind_some, run_cons, step,
    Option.bind_some, h, complete]
  cases R.insert fields x v <;> rfl

/-- The first field of an object. -/
theorem run_objStart (raw : Text) (st : List (Frame V)) (us : List Token) :
    R.run (.objStart st) (.str raw :: us) = R.run (.objName [] st) (.str raw :: us) := by
  rw [run_cons, run_cons]
  rfl

/-- The next field of an object. -/
theorem run_objNext (fields : List (Text × V)) (st : List (Frame V)) (us : List Token) :
    R.run (.objNext fields st) (.comma :: us) = R.run (.objName fields st) us := by
  rw [run_cons]
  rfl

end Reader

end JsonText
end Framework
