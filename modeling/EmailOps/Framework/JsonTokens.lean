import EmailOps.Framework.Text

/-!
# The tokens of a JSON text

A JSON text is white space, punctuation, string literals and plain words: numbers and the names of
constants. An automaton goes through it once and cuts it into tokens. A string literal is kept as
it is written, between its quotes.

* `next` is the automaton, `lex` gives what is left of the token that a text begins within, and
  the tokens after it. `tokens` are those of a whole text.
* `lex_append` cuts at a place where the automaton has been, and `exists_of_lex_append` says that
  it has been at every place.
* `not_both`: no text can be read both as the inside of a literal and as what is outside of one,
  since the quotes in it change places.
-/

namespace Framework
namespace JsonText

open Text

/-! ### Tokens -/

inductive Kind where
  | array | object
  deriving DecidableEq

inductive Token where
  | opening (k : Kind)
  | closing (k : Kind)
  | comma | colon
  /-- A string literal, as it is written between its quotes. -/
  | str (raw : Text)
  | word (t : Text)
  deriving DecidableEq

def openChar : Kind → Char
  | .array => '['
  | .object => '\x7b'

def closeChar : Kind → Char
  | .array => ']'
  | .object => '\x7d'

/-- White space between tokens. -/
def isGap (c : Char) : Bool :=
  c = ' ' || c = '\t' || c = '\n' || c = '\r'

/-- A character of a number or of the name of a constant. -/
def isWordChar (c : Char) : Bool :=
  c.isAlphanum || c = '+' || c = '-' || c = '.'

def punctuation (c : Char) : Option Token :=
  if c = '[' then some (.opening .array)
  else if c = ']' then some (.closing .array)
  else if c = '\x7b' then some (.opening .object)
  else if c = '\x7d' then some (.closing .object)
  else if c = ',' then some .comma
  else if c = ':' then some .colon
  else none

/-- What may stand after a backslash. -/
def isEscape (c : Char) : Bool :=
  c ∈ ['"', '\\', '/', 'b', 'f', 'n', 'r', 't', 'u']

def isBracket (c : Char) : Bool :=
  c = '[' || c = ']' || c = '\x7b' || c = '\x7d'

/-! ### The automaton -/

/-- Where a place in a text is: between tokens, after a character of a word, in a literal, or
after a backslash there. -/
inductive Mode where
  | out | word | str | esc
  deriving DecidableEq

def next : Mode → Char → Option Mode
  | .str, c =>
    if c = '"' then some .out
    else if c.toNat < 0x20 then none
    else if c = '\\' then some .esc
    else some .str
  | .esc, c => if isEscape c then some .str else none
  | _, c =>
    if isWordChar c then some .word
    else if isGap c then some .out
    else if c = '"' then some .str
    else if (punctuation c).isSome then some .out
    else none

/-- Where a text ends. -/
def scan : Mode → Text → Option Mode
  | m, [] => some m
  | m, c :: t => (next m c).bind (scan · t)

/-- Put a character in front of what is left of a token, and the tokens after it. -/
def put (m : Mode) (c : Char) (r : Text × List Token) : Text × List Token :=
  match m with
  | .str => if c = '"' then ([], r.2) else (c :: r.1, r.2)
  | .esc => (c :: r.1, r.2)
  | .out =>
    if isWordChar c then ([], .word (c :: r.1) :: r.2)
    else if isGap c then ([], r.2)
    else if c = '"' then ([], .str r.1 :: r.2)
    else ([], (punctuation c).toList ++ r.2)
  | .word =>
    if isWordChar c then (c :: r.1, r.2)
    else if isGap c then ([], r.2)
    else if c = '"' then ([], .str r.1 :: r.2)
    else ([], (punctuation c).toList ++ r.2)

/-- What is left of the token that the text begins within, and the tokens after it. -/
def lex : Mode → Text → Option (Text × List Token)
  | .out, [] | .word, [] => some ([], [])
  | .str, [] | .esc, [] => none
  | m, c :: t => (next m c).bind fun m' => (lex m' t).map (put m c)

/-- The tokens of a text. -/
def tokens (t : Text) : Option (List Token) :=
  (lex .out t).map Prod.snd

/-- A place outside of literals. -/
def Mode.Outer (m : Mode) : Prop :=
  m = .out ∨ m = .word

theorem lex_cons (m : Mode) (c : Char) (t : Text) :
    lex m (c :: t) = (next m c).bind fun m' => (lex m' t).map (put m c) := by
  cases m <;> rfl

theorem exists_of_lex_cons {m : Mode} {c : Char} {t : Text} {r : Text × List Token}
    (h : lex m (c :: t) = some r) :
    ∃ m' r', next m c = some m' ∧ lex m' t = some r' ∧ r = put m c r' := by
  rw [lex_cons, Option.bind_eq_some_iff] at h
  obtain ⟨m', hm', hr⟩ := h
  obtain ⟨r', hr', heq⟩ := Option.map_eq_some_iff.mp hr
  exact ⟨m', r', hm', hr', heq.symm⟩

theorem outer_of_lex_nil {m : Mode} {r : Text × List Token} (h : lex m [] = some r) :
    m.Outer ∧ r = ([], []) := by
  cases m with
  | out => exact ⟨.inl rfl, (Option.some.inj h).symm⟩
  | word => exact ⟨.inr rfl, (Option.some.inj h).symm⟩
  | str => cases h
  | esc => cases h

/-- Between tokens nothing is left of one. -/
theorem fst_put_out (c : Char) (r : Text × List Token) : (put .out c r).1 = [] := by
  simp only [put]
  split_ifs <;> rfl

theorem fst_of_lex_out {t : Text} {r : Text × List Token} (h : lex .out t = some r) : r.1 = [] := by
  cases t with
  | nil => rw [(outer_of_lex_nil h).2]
  | cons c t =>
    obtain ⟨m', r', -, -, rfl⟩ := exists_of_lex_cons h
    exact fst_put_out c r'

/-- A word ends where another character comes. -/
theorem lex_word_eq_out {c : Char} (hc : isWordChar c = false) (t : Text) :
    lex .word (c :: t) = lex .out (c :: t) := by
  have hnext : next .word c = next .out c := rfl
  have hput : put .word c = put .out c := by
    funext r
    simp only [put, hc, Bool.false_eq_true, if_false]
  rw [lex_cons, lex_cons, hnext, hput]

theorem lex_of_outer {m : Mode} (hm : m.Outer) {c : Char} (hc : isWordChar c = false) (t : Text) :
    lex m (c :: t) = lex .out (c :: t) := by
  rcases hm with rfl | rfl
  · rfl
  · exact lex_word_eq_out hc t

/-! ### Cutting a text -/

/-- What comes after is not looked at. -/
theorem put_append (m : Mode) (c : Char) (r : Text × List Token) (us : List Token) :
    put m c (r.1, r.2 ++ us) = ((put m c r).1, (put m c r).2 ++ us) := by
  cases m <;> simp only [put] <;> split_ifs <;> simp

/-- **A text in two parts.** -/
theorem lex_append {m m' : Mode} {t u : Text} {r q : Text × List Token} (ht : lex m t = some r)
    (hscan : scan m t = some m') (hu : lex m' u = some q) (hq : q.1 = []) :
    lex m (t ++ u) = some (r.1, r.2 ++ q.2) := by
  induction t generalizing m r with
  | nil =>
    obtain rfl := Option.some.inj hscan
    rw [(outer_of_lex_nil ht).2, List.nil_append, hu, List.nil_append, ← hq]
  | cons c t ih =>
    obtain ⟨m₁, r₁, hnext, hr₁, rfl⟩ := exists_of_lex_cons ht
    rw [scan, hnext, Option.bind_some] at hscan
    rw [List.cons_append, lex_cons, hnext, Option.bind_some, ih hr₁ hscan, Option.map_some,
      put_append]

/-- Both parts of a text are read. -/
theorem exists_of_lex_append {m : Mode} {t u : Text} {r : Text × List Token}
    (h : lex m (t ++ u) = some r) :
    ∃ m' q, scan m t = some m' ∧ lex m' u = some q := by
  induction t generalizing m r with
  | nil => exact ⟨m, r, rfl, h⟩
  | cons c t ih =>
    obtain ⟨m₁, r₁, hnext, hr₁, -⟩ := exists_of_lex_cons h
    obtain ⟨m', q, hscan, hq⟩ := ih hr₁
    exact ⟨m', q, by rw [scan, hnext, Option.bind_some, hscan], hq⟩

theorem scan_append (m : Mode) (t u : Text) : scan m (t ++ u) = (scan m t).bind (scan · u) := by
  induction t generalizing m with
  | nil => rfl
  | cons c t ih =>
    rw [List.cons_append, scan, scan, Option.bind_assoc]
    exact congrArg _ (funext ih)

theorem exists_lex_of_scan {m m' : Mode} {t : Text} (h : scan m t = some m') (hm' : m'.Outer) :
    ∃ r, lex m t = some r := by
  induction t generalizing m with
  | nil =>
    obtain rfl := Option.some.inj h
    rcases hm' with rfl | rfl <;> exact ⟨_, rfl⟩
  | cons c t ih =>
    rw [scan, Option.bind_eq_some_iff] at h
    obtain ⟨m₁, hnext, hscan⟩ := h
    obtain ⟨r, hr⟩ := ih hscan
    exact ⟨put m c r, by rw [lex_cons, hnext, Option.bind_some, hr, Option.map_some]⟩

/-- The tokens of a text that is cut outside of literals. -/
theorem tokens_append {t u : Text} {ts : List Token} (h : tokens (t ++ u) = some ts)
    (hscan : scan .out t = some .out) :
    ∃ ts₁ ts₂, tokens t = some ts₁ ∧ tokens u = some ts₂ ∧ ts = ts₁ ++ ts₂ := by
  obtain ⟨r, hr, rfl⟩ := Option.map_eq_some_iff.mp h
  obtain ⟨m', q, hscan', hq⟩ := exists_of_lex_append hr
  obtain rfl := Option.some.inj (hscan.symm.trans hscan')
  obtain ⟨p, hp⟩ := exists_lex_of_scan hscan (.inl rfl)
  have hall := lex_append hp hscan hq (fst_of_lex_out hq)
  refine ⟨p.2, q.2, by rw [tokens, hp, Option.map_some], by rw [tokens, hq, Option.map_some], ?_⟩
  rw [hr] at hall
  exact congrArg Prod.snd (Option.some.inj hall)

/-- **The quotes change places.** What is read as the inside of a literal is not read from
outside of one. -/
theorem not_both {m : Mode} (hm : m.Outer) {t : Text} {r : Text × List Token}
    (h : lex .str t = some r) : lex m t = none := by
  induction t generalizing m r with
  | nil => cases h
  | cons c t ih =>
    obtain ⟨m₁, r₁, hnext, hr₁, -⟩ := exists_of_lex_cons h
    rw [lex_cons]
    by_cases hquote : c = '"'
    · -- The literal ends here, or begins.
      subst hquote
      obtain rfl : Mode.out = m₁ := Option.some.inj hnext
      have hstr : next m '"' = some .str := by rcases hm with rfl | rfl <;> rfl
      rw [hstr, Option.bind_some, Option.map_eq_none_iff]
      cases hboth : lex .str t with
      | none => rfl
      | some r₂ =>
        rw [ih (.inl rfl) hboth] at hr₁
        cases hr₁
    · simp only [next, if_neg hquote] at hnext
      split_ifs at hnext with hcontrol hback
      · -- There is no backslash outside of a literal.
        have hnone : next m c = none := by
          rw [hback]
          rcases hm with rfl | rfl <;> rfl
        rw [hnone, Option.bind_none]
      · obtain rfl := Option.some.inj hnext
        cases hm₂ : next m c with
        | none => rfl
        | some m₂ =>
          have houter : m₂.Outer := by
            rcases hm with rfl | rfl
            all_goals
              simp only [next, if_neg hquote] at hm₂
              split_ifs at hm₂
              · exact .inr (Option.some.inj hm₂).symm
              · exact .inl (Option.some.inj hm₂).symm
              · exact .inl (Option.some.inj hm₂).symm
          rw [Option.bind_some, ih houter hr₁, Option.map_none]

/-! ### White space -/

theorem next_out_gap {c : Char} (hc : isGap c = true) : next .out c = some .out := by
  simp only [isGap, Bool.or_eq_true, decide_eq_true_eq] at hc
  rcases hc with ((rfl | rfl) | rfl) | rfl <;> rfl

theorem lex_gap {c : Char} (hc : isGap c = true) (t : Text) : lex .out (c :: t) = lex .out t := by
  rw [lex_cons, next_out_gap hc, Option.bind_some]
  cases hr : lex .out t with
  | none => rfl
  | some r =>
    have hword : isWordChar c = false := by
      simp only [isGap, Bool.or_eq_true, decide_eq_true_eq] at hc
      rcases hc with ((rfl | rfl) | rfl) | rfl <;> decide
    have hfst := fst_of_lex_out hr
    simp only [Option.map_some, put, hword, hc, Bool.false_eq_true, if_false, if_true, ← hfst]

/-- White space in front of a token is passed over, whatever counts as such. -/
theorem lex_dropWhile {p : Char → Bool} (hp : ∀ c, p c = true → isGap c = false → next .out c = none)
    {t : Text} {r : Text × List Token} (h : lex .out t = some r) :
    lex .out (t.dropWhile p) = some r := by
  induction t with
  | nil => exact h
  | cons c t ih =>
    by_cases hc : p c = true
    · rw [List.dropWhile_cons_of_pos hc]
      cases hgap : isGap c with
      | true => exact ih (lex_gap hgap t ▸ h)
      | false =>
        rw [lex_cons, hp c hc hgap] at h
        cases h
    · rwa [List.dropWhile_cons_of_neg hc]

theorem tokens_gaps_append {w : Text} (hw : w.all isGap = true) (t : Text) :
    tokens (w ++ t) = tokens t := by
  induction w with
  | nil => rfl
  | cons c w ih =>
    rw [List.all_cons, Bool.and_eq_true] at hw
    rw [List.cons_append, tokens, lex_gap hw.1]
    exact ih hw.2

theorem tokens_of_gaps {w : Text} (hw : w.all isGap = true) : tokens w = some [] := by
  have happend := tokens_gaps_append hw []
  rwa [List.append_nil] at happend

/-! ### Brackets -/

def Token.opens : Token → ℕ
  | .opening _ => 1
  | _ => 0

def Token.closes : Token → ℕ
  | .closing _ => 1
  | _ => 0

/-- A text without brackets. -/
def Bare (t : Text) : Prop :=
  ∀ c ∈ t, isBracket c = false

theorem isWordChar_of_isBracket {c : Char} (hc : isBracket c = true) : isWordChar c = false := by
  simp only [isBracket, Bool.or_eq_true, decide_eq_true_eq] at hc
  rcases hc with ((rfl | rfl) | rfl) | rfl <;> decide

/-- What a bracket is read as. -/
theorem next_bracket {m : Mode} (hm : m.Outer) {c : Char} (hc : isBracket c = true) :
    next m c = some .out := by
  simp only [isBracket, Bool.or_eq_true, decide_eq_true_eq] at hc
  rcases hm with rfl | rfl <;> rcases hc with ((rfl | rfl) | rfl) | rfl <;> rfl

theorem isBracket_openChar (k : Kind) : isBracket (openChar k) = true := by
  cases k <;> rfl

theorem isBracket_closeChar (k : Kind) : isBracket (closeChar k) = true := by
  cases k <;> rfl

theorem put_openChar {m : Mode} (hm : m.Outer) (k : Kind) (r : Text × List Token) :
    put m (openChar k) r = ([], .opening k :: r.2) := by
  rcases hm with rfl | rfl <;> cases k <;> rfl

theorem put_closeChar {m : Mode} (hm : m.Outer) (k : Kind) (r : Text × List Token) :
    put m (closeChar k) r = ([], .closing k :: r.2) := by
  rcases hm with rfl | rfl <;> cases k <;> rfl

theorem punctuation_eq_opening {c : Char} {k : Kind} (h : punctuation c = some (.opening k)) :
    c = openChar k := by
  unfold punctuation at h
  split_ifs at h with h₁ h₂ h₃ h₄ h₅ h₆ <;> cases h
  · exact h₁
  · exact h₃

theorem punctuation_eq_closing {c : Char} {k : Kind} (h : punctuation c = some (.closing k)) :
    c = closeChar k := by
  unfold punctuation at h
  split_ifs at h with h₁ h₂ h₃ h₄ h₅ h₆ <;> cases h
  · exact h₂
  · exact h₄

/-- **What a character adds**: nothing, or one token in front. -/
theorem snd_put (m : Mode) (c : Char) (r : Text × List Token) :
    (put m c r).2 = r.2 ∨
      ∃ tok, (put m c r).2 = tok :: r.2 ∧ m.Outer ∧
        (punctuation c = some tok ∨ (∃ t, tok = .word t) ∨ ∃ raw, tok = .str raw) := by
  have hpunctuation : (punctuation c).toList ++ r.2 = r.2 ∨
      ∃ tok, (punctuation c).toList ++ r.2 = tok :: r.2 ∧ punctuation c = some tok := by
    cases hc : punctuation c with
    | none => exact .inl rfl
    | some tok => exact .inr ⟨tok, rfl, rfl⟩
  cases m with
  | str =>
    simp only [put]
    split_ifs <;> exact .inl rfl
  | esc => exact .inl rfl
  | out =>
    simp only [put]
    split_ifs with hword hgap hquote
    · exact .inr ⟨_, rfl, .inl rfl, .inr (.inl ⟨_, rfl⟩)⟩
    · exact .inl rfl
    · exact .inr ⟨_, rfl, .inl rfl, .inr (.inr ⟨_, rfl⟩)⟩
    · exact hpunctuation.imp_right fun ⟨tok, heq, htok⟩ => ⟨tok, heq, .inl rfl, .inl htok⟩
  | word =>
    simp only [put]
    split_ifs with hword hgap hquote
    · exact .inl rfl
    · exact .inl rfl
    · exact .inr ⟨_, rfl, .inr rfl, .inr (.inr ⟨_, rfl⟩)⟩
    · exact hpunctuation.imp_right fun ⟨tok, heq, htok⟩ => ⟨tok, heq, .inr rfl, .inl htok⟩

/-- A character that is not white space begins a token. -/
theorem exists_head_token {c : Char} {t : Text} {ts : List Token}
    (h : tokens (c :: t) = some ts) (hgap : isGap c = false) :
    ∃ tok ts', ts = tok :: ts' ∧
      (punctuation c = some tok ∨ (∃ t, tok = .word t) ∨ ∃ raw, tok = .str raw) := by
  obtain ⟨r, hr, rfl⟩ := Option.map_eq_some_iff.mp h
  obtain ⟨m', r', hnext, -, rfl⟩ := exists_of_lex_cons hr
  simp only [put, hgap, Bool.false_eq_true, if_false]
  simp only [next, hgap, Bool.false_eq_true, if_false] at hnext
  split_ifs with hword hquote
  · exact ⟨_, _, rfl, .inr (.inl ⟨_, rfl⟩)⟩
  · exact ⟨_, _, rfl, .inr (.inr ⟨_, rfl⟩)⟩
  · rw [if_neg hword, if_neg hquote] at hnext
    split_ifs at hnext with hsome
    obtain ⟨tok, htok⟩ := Option.isSome_iff_exists.mp hsome
    exact ⟨tok, r'.2, by rw [htok, Option.toList_some, List.singleton_append], .inl htok⟩

/-- A text without tokens is white space. -/
theorem all_gap_of_tokens {t : Text} (h : tokens t = some []) : t.all isGap = true := by
  induction t with
  | nil => rfl
  | cons c t ih =>
    cases hgap : isGap c with
    | true =>
      rw [tokens, lex_gap hgap] at h
      rw [List.all_cons, hgap, Bool.true_and]
      exact ih h
    | false =>
      obtain ⟨tok, ts', hnil, -⟩ := exists_head_token h hgap
      cases hnil

/-- A text without brackets has no bracket tokens. -/
theorem ne_bracket_of_bare {m : Mode} {t : Text} {r : Text × List Token} (h : lex m t = some r)
    (ht : Bare t) : ∀ tok ∈ r.2, ∀ k, tok ≠ .opening k ∧ tok ≠ .closing k := by
  induction t generalizing m r with
  | nil =>
    rw [(outer_of_lex_nil h).2]
    exact fun tok htok => absurd htok List.not_mem_nil
  | cons c t ih =>
    obtain ⟨m', r', -, hr', rfl⟩ := exists_of_lex_cons h
    have hrest := ih hr' fun d hd => ht d (List.mem_cons_of_mem c hd)
    rcases snd_put m c r' with heq | ⟨tok, heq, -, htok⟩
    · rwa [heq]
    · rw [heq]
      refine List.forall_mem_cons.mpr ⟨fun k => ⟨?_, ?_⟩, hrest⟩
      · rintro rfl
        rcases htok with hc | ⟨_, hne⟩ | ⟨_, hne⟩
        · have hbare := ht c List.mem_cons_self
          rw [punctuation_eq_opening hc, isBracket_openChar] at hbare
          cases hbare
        · cases hne
        · cases hne
      · rintro rfl
        rcases htok with hc | ⟨_, hne⟩ | ⟨_, hne⟩
        · have hbare := ht c List.mem_cons_self
          rw [punctuation_eq_closing hc, isBracket_closeChar] at hbare
          cases hbare
        · cases hne
        · cases hne

/-- A bracket is of a token of its own, unless it is in a literal. -/
theorem exists_of_bracket_mem {m : Mode} (hm : m.Outer) {t : Text} {r : Text × List Token}
    (h : lex m t = some r) {c : Char} (hc : isBracket c = true) (hmem : c ∈ t) :
    ∃ tok ∈ r.2, ∀ word, tok ≠ .word word := by
  induction t generalizing m r with
  | nil => exact absurd hmem List.not_mem_nil
  | cons d t ih =>
    obtain ⟨m', r', hnext, hr', rfl⟩ := exists_of_lex_cons h
    by_cases hquote : d = '"'
    · subst hquote
      refine ⟨.str r'.1, ?_, fun word hne => by cases hne⟩
      rcases hm with rfl | rfl <;> exact List.mem_cons_self
    · cases List.mem_cons.mp hmem with
      | inl heq =>
        subst heq
        have hsome : ∃ tok, punctuation c = some tok ∧ ∀ word, tok ≠ .word word := by
          simp only [isBracket, Bool.or_eq_true, decide_eq_true_eq] at hc
          rcases hc with ((rfl | rfl) | rfl) | rfl <;> exact ⟨_, rfl, fun word hne => by cases hne⟩
        obtain ⟨tok, htok, hne⟩ := hsome
        refine ⟨tok, ?_, hne⟩
        have hword := isWordChar_of_isBracket hc
        have hgap : isGap c = false := by
          simp only [isBracket, Bool.or_eq_true, decide_eq_true_eq] at hc
          rcases hc with ((rfl | rfl) | rfl) | rfl <;> decide
        rcases hm with rfl | rfl <;> simp [put, hword, hgap, hquote, htok]
      | inr hrest =>
        have houter : m'.Outer := by
          rcases hm with rfl | rfl
          all_goals
            simp only [next, if_neg hquote] at hnext
            split_ifs at hnext
            · exact .inr (Option.some.inj hnext).symm
            · exact .inl (Option.some.inj hnext).symm
            · exact .inl (Option.some.inj hnext).symm
        obtain ⟨tok, htok, hne⟩ := ih houter hr' hrest
        refine ⟨tok, ?_, hne⟩
        rcases snd_put m d r' with heq | ⟨tok', heq, -⟩
        · rwa [heq]
        · rw [heq]
          exact List.mem_cons_of_mem _ htok

/-! ### The first and the last token -/

/-- Before an opening bracket that is the first token there is only white space. -/
theorem exists_of_opening {t : Text} {k : Kind} {ts : List Token}
    (h : tokens t = some (.opening k :: ts)) :
    ∃ w u, t = w ++ openChar k :: u ∧ w.all isGap = true := by
  induction t with
  | nil => cases h
  | cons c t ih =>
    cases hgap : isGap c with
    | true =>
      have hrest : tokens t = some (.opening k :: ts) := by
        rwa [tokens, lex_gap hgap] at h
      obtain ⟨w, u, rfl, hw⟩ := ih hrest
      exact ⟨c :: w, u, rfl, by rw [List.all_cons, hgap, hw, Bool.and_self]⟩
    | false =>
      obtain ⟨tok, ts', hts, htok⟩ := exists_head_token h hgap
      obtain rfl := (List.cons.inj hts).1
      have hbracket : punctuation c = some (.opening k) := by
        rcases htok with hc | ⟨_, hne⟩ | ⟨_, hne⟩
        · exact hc
        · cases hne
        · cases hne
      rw [punctuation_eq_opening hbracket]
      exact ⟨[], t, rfl, rfl⟩

/-- After a closing bracket that is the last token there is only white space. -/
theorem exists_of_closing {m : Mode} {t : Text} {k : Kind} {r : Text × List Token}
    {ts : List Token} (h : lex m t = some r) (hr : r.2 = ts ++ [.closing k]) :
    ∃ u w m', t = u ++ closeChar k :: w ∧ w.all isGap = true ∧ scan m u = some m' ∧ m'.Outer := by
  induction t generalizing m r ts with
  | nil =>
    rw [(outer_of_lex_nil h).2] at hr
    exact absurd hr.symm (by simp)
  | cons c t ih =>
    obtain ⟨m', r', hnext, hr', rfl⟩ := exists_of_lex_cons h
    -- The bracket may be further on.
    have hlater : ∀ ts', r'.2 = ts' ++ [.closing k] →
        ∃ u w m'', c :: t = u ++ closeChar k :: w ∧ w.all isGap = true ∧
          scan m u = some m'' ∧ m''.Outer := by
      intro ts' hts'
      obtain ⟨u, w, m'', rfl, hw, hscan, houter⟩ := ih hr' hts'
      exact ⟨c :: u, w, m'', rfl, hw, by rw [scan, hnext, Option.bind_some, hscan], houter⟩
    rcases snd_put m c r' with heq | ⟨tok, heq, hm, htok⟩
    · exact hlater ts (heq ▸ hr)
    · rw [heq] at hr
      cases ts with
      | cons tok' ts' => exact hlater ts' (List.cons.inj hr).2
      | nil =>
        obtain ⟨rfl, hnil⟩ := List.cons.inj hr
        rcases htok with hc | ⟨_, hne⟩ | ⟨_, hne⟩
        · have hbracket := isBracket_closeChar k
          obtain rfl := punctuation_eq_closing hc
          rw [next_bracket hm hbracket] at hnext
          obtain rfl := Option.some.inj hnext
          refine ⟨[], t, m, rfl, all_gap_of_tokens ?_, rfl, hm⟩
          rw [tokens, hr', Option.map_some, hnil]
        · cases hne
        · cases hne

end JsonText
end Framework
