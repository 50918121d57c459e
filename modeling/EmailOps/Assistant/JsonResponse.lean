import EmailOps.Assistant.JsonRepair

/-!
# Extracting JSON from an answer

The model answers with JSON, in a code fence or with prose around it. `parseJsonResponse` takes
a leading fence off and reads what is left; where that fails, it repairs and reads what is between
the outermost brackets.

* `Core` is a serialisation without the white space around it, `Around` a text that has it
  between texts without brackets.
* `Extractable` says when the value is extracted: the line of a leading fence ends before the
  value begins, what is left of the answer is no JSON string, and where there is prose in it, no
  literal has a comma before a bracket.
* `extracts_iff`: the value is extracted if and only if the answer is extractable.
-/

namespace EmailOps
namespace JsonResponse

open Framework Framework.Text Framework.JsonText Assistant
open Cleanup (isSpace)
open Framework.Words (strip)

/-! ### The serialisation -/

/-- A serialisation from its first to its last bracket, and its tokens. -/
structure Core (k : Kind) (core : Text) (ts : List Token) : Prop where
  shape : ∃ mid, core = openChar k :: (mid ++ [closeChar k])
  tokens : tokens core = some ts
  scan : scan .out core = some .out
  brackets : ∃ ts', ts = .opening k :: (ts' ++ [.closing k])

theorem isSpace_of_isGap {c : Char} (h : isGap c = true) : isSpace c = true := by
  simp only [isGap, Bool.or_eq_true, decide_eq_true_eq] at h
  rcases h with ((rfl | rfl) | rfl) | rfl <;> decide

theorem isSpace_openChar (k : Kind) : isSpace (openChar k) = false := by
  cases k <;> decide

theorem isSpace_closeChar (k : Kind) : isSpace (closeChar k) = false := by
  cases k <;> decide

theorem bare_of_gaps {w : Text} (hw : w.all isGap = true) : Bare w := by
  intro c hc
  have hgap := List.all_eq_true.mp hw c hc
  simp only [isGap, Bool.or_eq_true, decide_eq_true_eq] at hgap
  rcases hgap with ((rfl | rfl) | rfl) | rfl <;> decide

theorem bare_append {t u : Text} (ht : Bare t) (hu : Bare u) : Bare (t ++ u) := by
  intro c hc
  rcases List.mem_append.mp hc with hc | hc
  · exact ht c hc
  · exact hu c hc

theorem bare_of_subset {t u : Text} (hu : Bare u) (h : t ⊆ u) : Bare t :=
  fun c hc => hu c (h hc)

theorem not_is_str (k : Kind) (x : Text) : ¬decoder.Is k (.str x) := by
  cases k <;> rintro ⟨_, heq⟩ <;> cases heq

theorem not_is_of_constant {t : Text} {v : Json} (h : constant t = some v) (k : Kind) :
    ¬decoder.Is k v := by
  unfold constant at h
  split_ifs at h <;> obtain rfl := Option.some.inj h <;> cases k <;> rintro ⟨_, heq⟩ <;> cases heq

/-- **A serialisation** is its core, but for white space. -/
theorem exists_core {s : Text} {v : Json} (h : Serialises s v) :
    ∃ k core ts w w', Core k core ts ∧ s = w ++ core ++ w' ∧ w.all isGap = true ∧
      w'.all isGap = true ∧ tokens s = some ts ∧ strict.run (.value []) ts = some v ∧
      decoder.Is k v := by
  obtain ⟨hread, k', hk'⟩ := h
  obtain ⟨ts, hs, hrun⟩ := Option.bind_eq_some_iff.mp hread
  have hts := hs
  obtain ⟨k, ts', rfl, hk⟩ : ∃ k ts', ts = .opening k :: (ts' ++ [.closing k]) ∧ decoder.Is k v := by
    rcases Reader.run_value_cases hrun with ⟨k, ts', hts', hk⟩ | ⟨raw, x, -, -, rfl⟩ | ⟨t, -, ht⟩
    · exact ⟨k, ts', hts', hk⟩
    · exact absurd hk' (not_is_str k' x)
    · exact absurd hk' (not_is_of_constant ht k')
  obtain ⟨w, u, rfl, hw⟩ := exists_of_opening hts
  rw [tokens_gaps_append hw] at hts
  obtain ⟨r, hr, hrts⟩ := Option.map_eq_some_iff.mp hts
  have hlast : r.2 = (.opening k :: ts') ++ [.closing k] := hrts
  obtain ⟨a, w', m, ha, hw', hscan, hm⟩ := exists_of_closing hr hlast
  obtain ⟨mid, rfl⟩ : ∃ mid, a = openChar k :: mid := by
    cases a with
    | nil =>
      have hhead := (List.cons.inj ha).1
      cases k <;> exact absurd hhead (by decide)
    | cons c mid => exact ⟨mid, by rw [(List.cons.inj ha).1]⟩
  have hsplit : openChar k :: u = (openChar k :: (mid ++ [closeChar k])) ++ w' := by
    rw [ha]
    simp
  have hcore : scan .out (openChar k :: (mid ++ [closeChar k])) = some .out := by
    rw [← List.cons_append, scan_append, hscan, Option.bind_some, scan,
      next_bracket hm (isBracket_closeChar k)]
    rfl
  rw [hsplit] at hts
  obtain ⟨ts₁, ts₂, hts₁, hts₂, heq⟩ := tokens_append hts hcore
  rw [tokens_of_gaps hw'] at hts₂
  obtain rfl := Option.some.inj hts₂
  rw [List.append_nil] at heq
  rw [← heq] at hts₁
  exact ⟨k, _, _, w, w', ⟨⟨mid, rfl⟩, hts₁, hcore, ts', rfl⟩,
    by rw [hsplit, List.append_assoc], hw, hw', hs, hrun, hk⟩

/-! ### What is read -/

/-- What is read when the fence is off. -/
def extract (text : Text) : Option Json :=
  match loads text with
  | some data => some data
  | none => (bracketed text).bind fun candidate => loads (dropTrailingCommas candidate)

theorem parseJsonResponse_eq (response : Text) :
    parseJsonResponse loads response = extract (stripFence (strip isSpace response)) := rfl

/-! ### Texts around it -/

/-- A text has the serialisation between texts without brackets. -/
def Around (core text : Text) : Prop :=
  ∃ p q, text = p ++ core ++ q ∧ Bare p ∧ Bare q

/-- What is behind a leading fence. -/
def afterFence (text : Text) : Text :=
  if '\n' ∈ text then (text.dropWhile (· ≠ '\n')).drop 1 else text.drop 3

/-- What is before a closing fence. -/
def beforeFence (inner : Text) : Text :=
  if "```".toList.isSuffixOf (inner.rdropWhile isSpace) then
    (inner.rdropWhile isSpace).take ((inner.rdropWhile isSpace).length - 3)
  else inner

theorem stripFence_eq (text : Text) :
    stripFence text =
      if "```".toList.isPrefixOf text then strip isSpace (beforeFence (afterFence text))
      else text := rfl

section Core

variable {k : Kind} {core : Text} {ts : List Token} (hcore : Core k core ts)

include hcore

/-! ### White space -/

theorem dropWhile_around (p q : Text) :
    (p ++ core ++ q).dropWhile isSpace = p.dropWhile isSpace ++ core ++ q := by
  induction p with
  | nil =>
    obtain ⟨mid, rfl⟩ := hcore.shape
    exact List.dropWhile_cons_of_neg (by simp [isSpace_openChar])
  | cons c p ih =>
    rw [List.cons_append, List.cons_append]
    cases hc : isSpace c with
    | true => rw [List.dropWhile_cons_of_pos hc, List.dropWhile_cons_of_pos hc, ih]
    | false =>
      rw [List.dropWhile_cons_of_neg (by simp [hc]), List.dropWhile_cons_of_neg (by simp [hc])]
      rfl

omit hcore in
/-- White space at the end is behind the last bracket. -/
theorem rdropWhile_close (k : Kind) (t q : Text) :
    (t ++ closeChar k :: q).rdropWhile isSpace = t ++ closeChar k :: q.rdropWhile isSpace := by
  induction q using List.reverseRecOn with
  | nil => exact List.rdropWhile_concat_neg _ _ _ (by simp [isSpace_closeChar])
  | append_singleton q c ih =>
    rw [← List.cons_append, ← List.append_assoc]
    cases hc : isSpace c with
    | true => rw [List.rdropWhile_concat_pos _ _ _ hc, List.rdropWhile_concat_pos _ _ _ hc, ih]
    | false =>
      rw [List.rdropWhile_concat_neg _ _ _ (by simp [hc]),
        List.rdropWhile_concat_neg _ _ _ (by simp [hc]), List.append_assoc, List.cons_append]

theorem rdropWhile_around (p q : Text) :
    (p ++ core ++ q).rdropWhile isSpace = p ++ core ++ q.rdropWhile isSpace := by
  obtain ⟨mid, rfl⟩ := hcore.shape
  have hclose := rdropWhile_close k (p ++ openChar k :: mid) q
  simpa using hclose

theorem strip_around (p q : Text) :
    strip isSpace (p ++ core ++ q) = p.dropWhile isSpace ++ core ++ q.rdropWhile isSpace := by
  unfold strip
  rw [dropWhile_around hcore, rdropWhile_around hcore]

theorem strip_strip (p q : Text) :
    strip isSpace (strip isSpace (p ++ core ++ q)) = strip isSpace (p ++ core ++ q) := by
  rw [strip_around hcore, strip_around hcore, List.dropWhile_idempotent, List.rdropWhile_idempotent]

omit hcore in
theorem bare_dropWhile {p : Text} (hp : Bare p) : Bare (p.dropWhile isSpace) :=
  bare_of_subset hp (List.dropWhile_sublist _).subset

omit hcore in
theorem bare_rdropWhile {q : Text} (hq : Bare q) : Bare (q.rdropWhile isSpace) :=
  bare_of_subset hq (List.rdropWhile_prefix _ _).subset

theorem Around.strip {text : Text} (h : Around core text) :
    Around core (strip isSpace text) := by
  obtain ⟨p, q, rfl, hp, hq⟩ := h
  exact ⟨_, _, strip_around hcore p q, bare_dropWhile hp, bare_rdropWhile hq⟩

/-! ### The fence -/

/-- What a text begins with comes before the serialisation. -/
theorem prefix_of_prefix_around {f p q : Text} (hf : Bare f) (h : f <+: p ++ core ++ q) :
    f <+: p := by
  obtain ⟨mid, rfl⟩ := hcore.shape
  have hopen : p ++ [openChar k] <+: p ++ openChar k :: (mid ++ [closeChar k]) ++ q :=
    ⟨mid ++ [closeChar k] ++ q, by simp⟩
  have hnot : openChar k ∉ f := fun hmem => by
    have hbare := hf _ hmem
    rw [isBracket_openChar] at hbare
    cases hbare
  rcases List.prefix_or_prefix_of_prefix h hopen with hpre | hpre
  · rcases List.prefix_concat_iff.mp hpre with rfl | hpre
    · exact absurd (by simp) hnot
    · exact hpre
  · exact absurd (hpre.subset (by simp)) hnot

omit hcore in
/-- What a text ends with comes after the last bracket. -/
theorem suffix_of_suffix_close {f t q : Text} (hf : Bare f) (h : f <:+ t ++ closeChar k :: q) :
    f <:+ q := by
  have hclose : closeChar k :: q <:+ t ++ closeChar k :: q := List.suffix_append t _
  have hnot : closeChar k ∉ f := fun hmem => by
    have hbare := hf _ hmem
    rw [isBracket_closeChar] at hbare
    cases hbare
  rcases List.suffix_or_suffix_of_suffix h hclose with hsuf | hsuf
  · rcases List.suffix_cons_iff.mp hsuf with rfl | hsuf
    · exact absurd List.mem_cons_self hnot
    · exact hsuf
  · exact absurd (hsuf.subset List.mem_cons_self) hnot

omit hcore in
/-- The first line of a text is dropped with its end. -/
theorem drop_line {p : Text} (hp : '\n' ∈ p) (t : Text) :
    ∃ a p', p = a ++ '\n' :: p' ∧ ((p ++ t).dropWhile (· ≠ '\n')).drop 1 = p' ++ t := by
  induction p with
  | nil => exact absurd hp List.not_mem_nil
  | cons c p ih =>
    by_cases hc : c = '\n'
    · refine ⟨[], p, by rw [hc, List.nil_append], ?_⟩
      rw [List.cons_append, List.dropWhile_cons_of_neg (by simp [hc])]
      rfl
    · obtain ⟨a, p', rfl, heq⟩ := ih ((List.mem_cons.mp hp).resolve_left (Ne.symm hc))
      refine ⟨c :: a, p', rfl, ?_⟩
      rw [List.cons_append, List.dropWhile_cons_of_pos (by simp [hc]), heq]

omit hcore in
/-- The closing fence is behind the last bracket. -/
theorem beforeFence_close (k : Kind) (t : Text) {q : Text} (hq : Bare q) :
    ∃ q', beforeFence (t ++ closeChar k :: q) = t ++ closeChar k :: q' ∧ Bare q' := by
  unfold beforeFence
  split_ifs with hsuf
  · rw [rdropWhile_close, List.isSuffixOf_iff_suffix] at hsuf
    obtain ⟨q', hq'⟩ := suffix_of_suffix_close (forall_mem_of_all (by decide)) hsuf
    have hlength : (t ++ closeChar k :: (q' ++ "```".toList)).length - 3 =
        (t ++ closeChar k :: q').length := by
      simp only [List.length_append, List.length_cons]
      rfl
    refine ⟨q', ?_, bare_of_subset (bare_rdropWhile hq) ?_⟩
    · rw [rdropWhile_close, ← hq', hlength, ← List.cons_append, ← List.append_assoc, List.take_left]
    · rw [← hq']
      exact List.subset_append_left _ _
  · exact ⟨q, rfl, hq⟩

theorem around_beforeFence {inner : Text} (h : Around core inner) :
    Around core (beforeFence inner) := by
  obtain ⟨p, q, rfl, hp, hq⟩ := h
  obtain ⟨mid, rfl⟩ := hcore.shape
  obtain ⟨q', heq, hq'⟩ := beforeFence_close k (p ++ openChar k :: mid) hq
  refine ⟨p, q', ?_, hp, hq'⟩
  simpa using heq

/-- The leading fence is dropped. -/
theorem around_afterFence {p q : Text} (hp : Bare p) (hq : Bare q)
    (hpre : "```".toList <+: p ++ core ++ q) (hline : '\n' ∈ p ++ core ++ q → '\n' ∈ p) :
    Around core (afterFence (p ++ core ++ q)) := by
  unfold afterFence
  split_ifs with hnewline
  · obtain ⟨a, p', rfl, heq⟩ := drop_line (hline hnewline) (core ++ q)
    refine ⟨p', q, ?_, bare_of_subset hp (by simp), hq⟩
    rw [List.append_assoc, heq, List.append_assoc]
  · have hle : 3 ≤ p.length :=
      (prefix_of_prefix_around hcore (forall_mem_of_all (by decide)) hpre).length_le
    refine ⟨p.drop 3, q, ?_, bare_of_subset hp (List.drop_subset 3 p), hq⟩
    rw [List.append_assoc, List.drop_append_of_le_length hle, List.append_assoc]

/-- Before the first opening bracket. -/
def beforeBracket (t : Text) : Text :=
  t.takeWhile fun c => c ≠ '[' && c ≠ '\x7b'

theorem beforeBracket_around {p : Text} (hp : Bare p) (q : Text) :
    beforeBracket (p ++ core ++ q) = p := by
  obtain ⟨mid, rfl⟩ := hcore.shape
  have hkeep : ∀ c ∈ p, (c ≠ '[' && c ≠ '\x7b') = true := by
    intro c hc
    have hbare := hp c hc
    simp only [isBracket, Bool.or_eq_false_iff, decide_eq_false_iff_not] at hbare
    simp [hbare.1.1.1, hbare.1.2]
  unfold beforeBracket
  rw [List.append_assoc, List.takeWhile_append_of_pos hkeep, List.cons_append,
    List.takeWhile_cons_of_neg (by cases k <;> decide), List.append_nil]

/-- **Taking the fence off** leaves the serialisation, unless it begins on the fence's line. -/
theorem stripFence_around {p q : Text} (hp : Bare p) (hq : Bare q)
    (hfence : "```".toList <+: p ++ core ++ q → '\n' ∈ p ++ core ++ q → '\n' ∈ p)
    (htight : strip isSpace (p ++ core ++ q) = p ++ core ++ q) :
    Around core (stripFence (p ++ core ++ q)) ∧
      strip isSpace (stripFence (p ++ core ++ q)) = stripFence (p ++ core ++ q) := by
  rw [stripFence_eq]
  split_ifs with hpre
  · rw [List.isPrefixOf_iff_prefix] at hpre
    have hbody :=
      around_beforeFence hcore (around_afterFence hcore hp hq hpre (hfence hpre))
    refine ⟨Around.strip hcore hbody, ?_⟩
    obtain ⟨p', q', heq, -, -⟩ := hbody
    rw [heq, strip_strip hcore]
  · exact ⟨⟨p, q, rfl, hp, hq⟩, htight⟩

/-! ### The outermost brackets -/

omit hcore in
theorem upToLast_append {d : Char} {q : Text} (hq : d ∉ q) (t : Text) :
    upToLast d (t ++ d :: q) = some (t ++ [d]) := by
  have hdrop : (t ++ d :: q).rdropWhile (· ≠ d) = t ++ [d] := by
    induction q using List.reverseRecOn with
    | nil => exact List.rdropWhile_concat_neg _ _ _ (by simp)
    | append_singleton q c ih =>
      rw [List.mem_append, not_or, List.mem_singleton] at hq
      rw [← List.cons_append, ← List.append_assoc,
        List.rdropWhile_concat_pos _ _ _ (by simpa using Ne.symm hq.2)]
      exact ih hq.1
  unfold upToLast
  rw [if_pos (by simp), hdrop]

omit hcore in
theorem bracketed_bare_append {p : Text} (hp : Bare p) (t : Text) :
    bracketed (p ++ t) = bracketed t := by
  induction p with
  | nil => rfl
  | cons c p ih =>
    have hbare := hp c List.mem_cons_self
    simp only [isBracket, Bool.or_eq_false_iff, decide_eq_false_iff_not] at hbare
    rw [List.cons_append, bracketed]
    simp only [if_neg hbare.1.1.1, if_neg hbare.1.2]
    exact ih fun d hd => hp d (List.mem_cons_of_mem c hd)

omit hcore in
theorem bracketed_openChar (k : Kind) {q : Text} (hq : Bare q) (t : Text) :
    bracketed (openChar k :: (t ++ closeChar k :: q)) =
      some (openChar k :: (t ++ [closeChar k])) := by
  have hnot : closeChar k ∉ q := fun hmem => by
    have hbare := hq _ hmem
    rw [isBracket_closeChar] at hbare
    cases hbare
  have hbody := upToLast_append hnot t
  cases k with
  | array =>
    change upToLast ']' (t ++ ']' :: q) = _ at hbody
    change bracketed ('[' :: (t ++ ']' :: q)) = _
    rw [bracketed]
    simp only [if_true, hbody]
    rfl
  | object =>
    change upToLast '\x7d' (t ++ '\x7d' :: q) = _ at hbody
    change bracketed ('\x7b' :: (t ++ '\x7d' :: q)) = _
    have hne : ¬('\x7b' : Char) = '[' := by decide
    rw [bracketed]
    simp only [if_neg hne, if_true, hbody]
    rfl

/-- **The outermost brackets** are those of the serialisation. -/
theorem bracketed_around {p q : Text} (hp : Bare p) (hq : Bare q) :
    bracketed (p ++ core ++ q) = some core := by
  obtain ⟨mid, rfl⟩ := hcore.shape
  rw [List.append_assoc, bracketed_bare_append hp, List.cons_append, List.append_assoc,
    List.singleton_append]
  exact bracketed_openChar k hq mid

/-! ### Reading with prose -/

/-- **With prose around it** a text is not read, unless it is a JSON string. -/
theorem loads_around {v w : Json} (hrun : decoder.run (.value []) ts = some v) {p q : Text}
    (hp : Bare p) (htight : strip isSpace (p ++ core ++ q) = p ++ core ++ q)
    (hne : p ++ core ++ q ≠ core) (hw : loads (p ++ core ++ q) = some w) : ∃ x, w = .str x := by
  obtain ⟨us, hus, hrun'⟩ := Option.bind_eq_some_iff.mp hw
  obtain ⟨hp', hq'⟩ : p.dropWhile isSpace = p ∧ q.rdropWhile isSpace = q := by
    have hp' := List.dropWhile_sublist isSpace (l := p)
    have hq' := (List.rdropWhile_prefix isSpace q).sublist
    have hlength := congrArg List.length htight
    rw [strip_around hcore] at hlength
    simp only [List.length_append] at hlength
    have hple := hp'.length_le
    have hqle := hq'.length_le
    exact ⟨hp'.eq_of_length (by omega), hq'.eq_of_length (by omega)⟩
  cases p with
  | nil =>
    -- Only white space may come after the value.
    exfalso
    obtain ⟨ts', us', hts', hus', rfl⟩ := tokens_append hus hcore.scan
    rw [List.nil_append, hcore.tokens] at hts'
    obtain rfl := Option.some.inj hts'
    obtain rfl := Reader.eq_nil_of_run_append hrun hrun'
    have hgaps := all_gap_of_tokens hus'
    have hnil : q.rdropWhile isSpace = [] :=
      List.rdropWhile_eq_nil_iff.mpr fun c hc =>
        isSpace_of_isGap (List.all_eq_true.mp hgaps c hc)
    rw [hq'] at hnil
    exact hne (by rw [hnil, List.nil_append, List.append_nil])
  | cons c p =>
    have hspace : isSpace c = false := by
      by_contra hnot
      rw [Bool.not_eq_false] at hnot
      rw [List.dropWhile_cons_of_pos hnot] at hp'
      have hlength := (List.dropWhile_sublist isSpace (l := p)).length_le
      rw [hp', List.length_cons] at hlength
      omega
    have hgap : isGap c = false := by
      by_contra hnot
      rw [Bool.not_eq_false] at hnot
      rw [isSpace_of_isGap hnot] at hspace
      cases hspace
    obtain ⟨tok, us', rfl, htok⟩ := exists_head_token hus hgap
    rcases Reader.run_value_cases hrun' with ⟨k', ts', hts', -⟩ | ⟨raw, x, -, -, rfl⟩ | ⟨t, ht, -⟩
    · exfalso
      obtain rfl := (List.cons.inj hts').1
      rcases htok with hc | ⟨_, hcontra⟩ | ⟨_, hcontra⟩
      · have hbare := hp c List.mem_cons_self
        rw [punctuation_eq_opening hc, isBracket_openChar] at hbare
        cases hbare
      · cases hcontra
      · cases hcontra
    · exact ⟨x, rfl⟩
    · -- The brackets are no part of a word.
      exfalso
      obtain ⟨r, hr, hrts⟩ := Option.map_eq_some_iff.mp hus
      obtain ⟨mid, rfl⟩ := hcore.shape
      obtain ⟨tok', htok', hword⟩ :=
        exists_of_bracket_mem (.inl rfl) hr (isBracket_openChar k) (by simp)
      rw [hrts, ht, List.mem_singleton] at htok'
      exact hword t htok'

/-- **A text around the serialisation** is read as its value if and only if it is no JSON string,
and has no prose or no literal to be repaired. -/
theorem extract_around_iff {v : Json} (hrun : strict.run (.value []) ts = some v)
    (hv : decoder.Is k v) {text : Text} (haround : Around core text)
    (htight : strip isSpace text = text) :
    extract text = some v ↔
      (∀ x, loads text ≠ some (.str x)) ∧
        (text = core ∨ ∀ raw, Token.str raw ∈ ts → ¬TrailingComma raw) := by
  obtain ⟨p, q, rfl, hp, hq⟩ := haround
  have hdecoder := run_of_strict hrun
  have hcandidate : loads (dropTrailingCommas core) =
      decoder.run (.value []) (ts.map repaired) := by
    rw [loads, Reader.read,
      tokens_dropTrailingCommas hcore.tokens (Reader.isChain_of_run hrun), Option.bind_some]
  have hnot : ∀ x, v ≠ .str x := by
    rintro x rfl
    exact not_is_str k x hv
  by_cases heq : p ++ core ++ q = core
  · -- There is nothing but the serialisation.
    have hloads : loads core = some v := by
      rw [loads, Reader.read, hcore.tokens, Option.bind_some, hdecoder]
    have hextract : extract core = some v := by rw [extract, hloads]
    rw [heq, hextract, hloads]
    refine iff_of_true rfl ⟨fun x hx => hnot x (Option.some.inj hx), .inl rfl⟩
  · rw [or_iff_right heq]
    cases hloads : loads (p ++ core ++ q) with
    | some w =>
      obtain ⟨x, rfl⟩ := loads_around hcore hdecoder hp htight heq hloads
      have hextract : extract (p ++ core ++ q) = some (.str x) := by rw [extract, hloads]
      rw [hextract]
      exact iff_of_false (fun hx => hnot x (Option.some.inj hx).symm) fun hboth => hboth.1 x rfl
    | none =>
      have hextract : extract (p ++ core ++ q) = decoder.run (.value []) (ts.map repaired) := by
        rw [extract, hloads, bracketed_around hcore hp hq]
        exact hcandidate
      rw [hextract]
      constructor
      · intro hrepaired
        refine ⟨fun x hx => (Option.some_ne_none _ hx.symm).elim, fun raw hraw => ?_⟩
        exact (dropTrailingCommas_eq_self_iff raw).mp (literals_kept hrun hrepaired hraw)
      · rintro ⟨-, hliterals⟩
        have hsame : ts.map repaired = ts := by
          refine (List.map_congr_left fun tok htok => ?_).trans (List.map_id ts)
          cases tok with
          | str raw =>
            rw [repaired, (dropTrailingCommas_eq_self_iff raw).mpr (hliterals raw htok)]
            rfl
          | _ => rfl
        rw [hsame, hdecoder]

/-! ### A fence whose line goes into the serialisation -/

omit hcore in
theorem scan_close {m : Mode} {t : Text} {r : Text × List Token}
    (h : lex m (t ++ [closeChar k]) = some r) : scan m (t ++ [closeChar k]) = some .out := by
  obtain ⟨m', q, hscan, hq⟩ := exists_of_lex_append h
  have hm' : m'.Outer := by
    cases m' with
    | out => exact .inl rfl
    | word => exact .inr rfl
    | str => cases k <;> cases hq
    | esc => cases k <;> cases hq
  rw [scan_append, hscan, Option.bind_some, scan, next_bracket hm' (isBracket_closeChar k)]
  rfl

omit hcore in
/-- What closes more than it opens is not read, nor with a text without brackets after it. -/
theorem loads_eq_none {y q : Text} {us : List Token} (hy : tokens y = some us)
    (hscan : scan .out y = some .out) (hlt : Reader.opens us < Reader.closes us) (hq : Bare q) :
    loads (y ++ q) = none := by
  rw [Option.eq_none_iff_forall_ne_some]
  intro w hw
  obtain ⟨ts', hts', hrun⟩ := Option.bind_eq_some_iff.mp hw
  obtain ⟨us', vs, hus', hvs, rfl⟩ := tokens_append hts' hscan
  obtain rfl := Option.some.inj (hy.symm.trans hus')
  have hbalanced := Reader.opens_add_length hrun
  obtain ⟨r, hr, rfl⟩ := Option.map_eq_some_iff.mp hvs
  have hbare := ne_bracket_of_bare hr hq
  have hopens : Reader.opens r.2 = 0 := by
    refine List.sum_eq_zero fun n hn => ?_
    obtain ⟨tok, htok, rfl⟩ := List.mem_map.mp hn
    cases tok with
    | opening k => exact absurd rfl (hbare _ htok k).1
    | _ => rfl
  have hcloses : Reader.closes r.2 = 0 := by
    refine List.sum_eq_zero fun n hn => ?_
    obtain ⟨tok, htok, rfl⟩ := List.mem_map.mp hn
    cases tok with
    | closing k => exact absurd rfl (hbare _ htok k).2
    | _ => rfl
  simp only [Reader.opens, Reader.closes, List.map_append, List.sum_append] at hbalanced hopens hcloses hlt
  have hpath : (State.value [] : State Json).path.length = 0 := rfl
  omega

omit hcore in
theorem opens_repaired (ts : List Token) :
    Reader.opens (ts.map repaired) = Reader.opens ts := by
  unfold Reader.opens
  rw [List.map_map]
  exact congrArg List.sum (List.map_congr_left fun tok _ => by cases tok <;> rfl)

omit hcore in
theorem closes_repaired (ts : List Token) :
    Reader.closes (ts.map repaired) = Reader.closes ts := by
  unfold Reader.closes
  rw [List.map_map]
  exact congrArg List.sum (List.map_congr_left fun tok _ => by cases tok <;> rfl)

omit hcore in
/-- The outermost brackets are those of a part of the text. -/
theorem exists_of_bracketed {t cand : Text} (h : bracketed t = some cand) :
    ∃ k pre rest body, t = pre ++ openChar k :: rest ∧ upToLast (closeChar k) rest = some body ∧
      cand = openChar k :: body := by
  induction t with
  | nil => cases h
  | cons c t ih =>
    rw [bracketed] at h
    split at h
    · next body hbody =>
      obtain rfl := Option.some.inj h
      split_ifs at hbody with harr hobj
      · exact ⟨.array, [], t, body, by rw [harr]; rfl, hbody, by rw [harr]; rfl⟩
      · exact ⟨.object, [], t, body, by rw [hobj]; rfl, hbody, by rw [hobj]; rfl⟩
    · obtain ⟨k, pre, rest, body, rfl, hbody, rfl⟩ := ih h
      exact ⟨k, c :: pre, rest, body, rfl, hbody, rfl⟩

/-- **An end of the serialisation** that begins with a bracket is not read after the repair. -/
theorem loads_suffix_eq_none (hrun : ∃ v, strict.run (.value []) ts = some v) {a cand u : Text}
    {k' : Kind} (hsplit : core = openChar k :: a ++ cand) (hcand : cand = openChar k' :: u) :
    loads (dropTrailingCommas cand) = none := by
  obtain ⟨v, hrun⟩ := hrun
  rw [Option.eq_none_iff_forall_ne_some]
  intro w hw
  obtain ⟨us, hus, hrun'⟩ := Option.bind_eq_some_iff.mp hw
  have hopen : openChar k ≠ ',' := by cases k <;> decide
  obtain ⟨z, hz⟩ := exists_dropTrailingCommas_append (openChar k) hopen a cand
  have hrepaired := tokens_dropTrailingCommas hcore.tokens (Reader.isChain_of_run hrun)
  rw [hsplit, hz] at hrepaired
  obtain ⟨r, hr, hrts⟩ := Option.map_eq_some_iff.mp hrepaired
  obtain ⟨m', q, hscan, hq⟩ := exists_of_lex_append hr
  obtain ⟨q', hq', rfl⟩ := Option.map_eq_some_iff.mp hus
  have hcons : dropTrailingCommas cand = openChar k' :: dropTrailingCommas u := by
    rw [hcand]
    exact dropTrailingCommas_of_ne (by cases k' <;> decide) u
  have hm' : m'.Outer := by
    cases m' with
    | out => exact .inl rfl
    | word => exact .inr rfl
    | str =>
      -- The quotes would have changed places.
      rw [not_both (.inl rfl) hq] at hq'
      cases hq'
    | esc =>
      rw [hcons] at hq
      cases k' <;> cases hq
  have hqq' : q = q' := by
    rw [hcons, lex_of_outer hm' (isWordChar_of_isBracket (isBracket_openChar k')), ← hcons, hq'] at hq
    exact (Option.some.inj hq).symm
  subst hqq'
  obtain ⟨r₀, hr₀⟩ := exists_lex_of_scan hscan hm'
  have hall := lex_append hr₀ hscan hq (fst_of_lex_out hq')
  rw [hr] at hall
  have htokens : ts.map repaired = r₀.2 ++ q.2 := by
    rw [← hrts, Option.some.inj hall]
  -- Brackets are not repaired, so the tokens close more than they open.
  obtain ⟨ts₁, ts₂, rfl, hts₁, hts₂⟩ := List.map_eq_append_iff.mp htokens
  have hne₁ : ts₁ ≠ [] := by
    rintro rfl
    obtain ⟨m₁, r₁, -, -, rfl⟩ := exists_of_lex_cons hr₀
    rw [put_openChar (.inl rfl)] at hts₁
    cases hts₁
  have hne₂ : ts₂ ≠ [] := by
    rintro rfl
    rw [hcons] at hq'
    obtain ⟨m₁, r₁, -, -, rfl⟩ := exists_of_lex_cons hq'
    rw [put_openChar (.inl rfl)] at hts₂
    cases hts₂
  have hlt := Reader.opens_lt_closes hrun hne₁ hne₂
  have hbalanced := Reader.opens_add_length hrun'
  rw [← hts₂, opens_repaired, closes_repaired] at hbalanced
  have hpath : (State.value [] : State Json).path.length = 0 := rfl
  omega

omit hcore in
/-- White space in front is before the last bracket. -/
theorem exists_dropWhile_close (k : Kind) (x : Text) :
    ∃ w y, x = w ++ y ∧
      ∀ q, (x ++ closeChar k :: q).dropWhile isSpace = y ++ closeChar k :: q := by
  induction x with
  | nil =>
    exact ⟨[], [], rfl, fun q => List.dropWhile_cons_of_neg (by simp [isSpace_closeChar])⟩
  | cons c x ih =>
    cases hc : isSpace c with
    | true =>
      obtain ⟨w, y, rfl, hy⟩ := ih
      refine ⟨c :: w, y, rfl, fun q => ?_⟩
      rw [List.cons_append, List.dropWhile_cons_of_pos hc, hy]
    | false =>
      exact ⟨[], c :: x, rfl, fun q => List.dropWhile_cons_of_neg (by simp [hc])⟩

/-- **A line of the serialisation** ends between tokens. -/
theorem exists_of_line {a x : Text} (hsplit : core = a ++ '\n' :: x) :
    ∃ a' x' ts₁ ts₂, a = openChar k :: a' ∧ x = x' ++ [closeChar k] ∧ ts = ts₁ ++ ts₂ ∧
      ts₁ ≠ [] ∧ ts₂ ≠ [] ∧ tokens x = some ts₂ := by
  obtain ⟨mid, hmid⟩ := hcore.shape
  obtain ⟨a', rfl⟩ : ∃ a', a = openChar k :: a' := by
    cases a with
    | nil =>
      have hhead := (List.cons.inj (hsplit.symm.trans hmid)).1
      cases k <;> exact absurd hhead (by decide)
    | cons c a' => exact ⟨a', by rw [(List.cons.inj (hsplit.symm.trans hmid)).1]⟩
  have htail : a' ++ '\n' :: x = mid ++ [closeChar k] :=
    (List.cons.inj (hsplit.symm.trans hmid)).2
  obtain ⟨x', rfl⟩ : ∃ x', x = x' ++ [closeChar k] := by
    rcases List.eq_nil_or_concat x with rfl | ⟨x', d, rfl⟩
    · have hlast := List.append_inj_right' htail rfl
      cases k <;> exact absurd hlast (by decide)
    · refine ⟨x', ?_⟩
      rw [List.concat_eq_append, ← List.cons_append, ← List.append_assoc] at htail
      rw [List.concat_eq_append, List.append_inj_right' htail rfl]
  have hscan : scan .out (openChar k :: a' ++ ['\n']) = some .out := by
    obtain ⟨r, hr, -⟩ := Option.map_eq_some_iff.mp hcore.tokens
    rw [hsplit] at hr
    obtain ⟨m', q, hscan, hq⟩ := exists_of_lex_append hr
    have hm' : next m' '\n' = some .out := by
      cases m' with
      | out => rfl
      | word => rfl
      | str => cases hq
      | esc => cases hq
    rw [scan_append, hscan, Option.bind_some, scan, hm']
    rfl
  have hcut : core = (openChar k :: a' ++ ['\n']) ++ (x' ++ [closeChar k]) := by
    rw [hsplit]
    simp
  have htokens := hcore.tokens
  rw [hcut] at htokens
  obtain ⟨ts₁, ts₂, hts₁, hts₂, heq⟩ := tokens_append htokens hscan
  refine ⟨a', x', ts₁, ts₂, rfl, rfl, heq, ?_, ?_, hts₂⟩
  · rintro rfl
    have hgap := List.all_eq_true.mp (all_gap_of_tokens hts₁) (openChar k) (by simp)
    cases k <;> exact absurd hgap (by decide)
  · rintro rfl
    have hgap := List.all_eq_true.mp (all_gap_of_tokens hts₂) (closeChar k) (by simp)
    cases k <;> exact absurd hgap (by decide)

omit hcore in
/-- The first bracket says what is read. -/
theorem kind_of_loads {k' : Kind} {t : Text} {v : Json} (h : loads (openChar k' :: t) = some v)
    (hv : decoder.Is k v) : k' = k := by
  obtain ⟨us, hus, hrun⟩ := Option.bind_eq_some_iff.mp h
  obtain ⟨r, hr, hrus⟩ := Option.map_eq_some_iff.mp hus
  obtain ⟨m', r', -, -, rfl⟩ := exists_of_lex_cons hr
  rw [put_openChar (.inl rfl)] at hrus
  rcases Reader.run_value_cases hrun with ⟨k'', us', rfl, hv''⟩ | ⟨raw, x, rfl, -, -⟩ | ⟨w, rfl, -⟩
  · have hkind : k'' = k := by
      cases k <;> cases k''
      · rfl
      · obtain ⟨items, rfl⟩ := hv
        obtain ⟨fields, hcontra⟩ := hv''
        cases hcontra
      · obtain ⟨fields, rfl⟩ := hv
        obtain ⟨items, hcontra⟩ := hv''
        cases hcontra
      · rfl
    rw [← hkind]
    exact Token.opening.inj (List.cons.inj hrus).1
  · cases hrus
  · cases hrus

omit hcore in
/-- Where an opening bracket is, when only other text comes after the last closing one. -/
theorem exists_of_openChar {pre rest y q : Text} (hq : Bare q)
    (h : y ++ closeChar k :: q = pre ++ openChar k :: rest) :
    ∃ u, y = pre ++ openChar k :: u ∧ rest = u ++ closeChar k :: q := by
  have hne : openChar k ≠ closeChar k := by cases k <;> decide
  rcases List.append_eq_append_iff.mp h with ⟨e, rfl, he⟩ | ⟨e, rfl, he⟩
  · cases e with
    | nil => exact absurd (List.cons.inj he).1.symm hne
    | cons c e =>
      have hmem : openChar k ∈ q := by
        rw [(List.cons.inj he).2]
        simp
      have hbare := hq _ hmem
      rw [isBracket_openChar] at hbare
      cases hbare
  · cases e with
    | nil => exact absurd (List.cons.inj he).1 hne
    | cons c e =>
      obtain ⟨rfl, rfl⟩ := List.cons.inj he
      exact ⟨e, rfl, rfl⟩

/-- **Behind a line of the serialisation** the value is not found. -/
theorem extract_line_ne {v : Json} (hrun : strict.run (.value []) ts = some v)
    (hv : decoder.Is k v) {a x q : Text} (hsplit : core = a ++ '\n' :: x) (hq : Bare q) :
    extract (strip isSpace (beforeFence (x ++ q))) ≠ some v := by
  obtain ⟨a, x, ts₁, ts₂, rfl, rfl, heq, hne₁, hne₂, hts₂⟩ := exists_of_line hcore hsplit
  obtain ⟨q', hfence, hq'⟩ := beforeFence_close k x hq
  obtain ⟨w, y, rfl, hy⟩ := exists_dropWhile_close k x
  have htext : strip isSpace (beforeFence (w ++ y ++ [closeChar k] ++ q)) =
      (y ++ [closeChar k]) ++ q'.rdropWhile isSpace := by
    rw [List.append_assoc (w ++ y), List.singleton_append, hfence, strip, hy, rdropWhile_close,
      List.append_assoc, List.singleton_append]
  have hbare : Bare (q'.rdropWhile isSpace) := bare_rdropWhile hq'
  have htokens : tokens (y ++ [closeChar k]) = some ts₂ := by
    obtain ⟨r, hr, rfl⟩ := Option.map_eq_some_iff.mp hts₂
    have hdrop := lex_dropWhile next_of_isSpace hr
    rw [hy] at hdrop
    rw [tokens, hdrop, Option.map_some]
  have hscan : scan .out (y ++ [closeChar k]) = some .out := by
    obtain ⟨r, hr, -⟩ := Option.map_eq_some_iff.mp htokens
    exact scan_close hr
  have hlt : Reader.opens ts₂ < Reader.closes ts₂ :=
    Reader.opens_lt_closes (heq ▸ hrun) hne₁ hne₂
  rw [htext, extract, loads_eq_none htokens hscan hlt hbare]
  intro hextract
  obtain ⟨cand, hcand, hloads⟩ := Option.bind_eq_some_iff.mp hextract
  obtain ⟨k', pre, rest, body, hpre, hbody, rfl⟩ := exists_of_bracketed hcand
  rw [dropTrailingCommas_of_ne (by cases k' <;> decide)] at hloads
  obtain rfl := kind_of_loads hloads hv
  rw [List.append_assoc, List.singleton_append] at hpre
  obtain ⟨u, rfl, rfl⟩ := exists_of_openChar hbare hpre
  have hnot : closeChar k' ∉ q'.rdropWhile isSpace := fun hmem => by
    have hcontra := hbare _ hmem
    rw [isBracket_closeChar] at hcontra
    cases hcontra
  obtain rfl := Option.some.inj ((upToLast_append hnot u).symm.trans hbody)
  -- What is found is an end of the serialisation.
  have hsuffix : core = openChar k' :: (a ++ '\n' :: (w ++ pre)) ++ openChar k' :: (u ++ [closeChar k']) := by
    rw [hsplit]
    simp
  have hnone := loads_suffix_eq_none hcore ⟨v, hrun⟩ hsuffix rfl
  rw [dropTrailingCommas_of_ne (by cases k' <;> decide), hloads] at hnone
  cases hnone

omit hcore in
/-- Nor is it found where there are no brackets. -/
theorem extract_bare_ne {v : Json} (hv : decoder.Is k v) {t : Text} (ht : Bare t) :
    extract t ≠ some v := by
  have hloads : ∀ w, loads t = some w → ¬decoder.Is k w := by
    intro w hw
    obtain ⟨us, hus, hrun⟩ := Option.bind_eq_some_iff.mp hw
    rcases Reader.run_value_cases hrun with ⟨k', us', rfl, -⟩ | ⟨raw, x, -, -, rfl⟩ | ⟨word, -, hword⟩
    · obtain ⟨r, hr, hrus⟩ := Option.map_eq_some_iff.mp hus
      have hbare := ne_bracket_of_bare hr ht
      rw [hrus] at hbare
      exact absurd rfl (hbare _ List.mem_cons_self k').1
    · exact not_is_str k x
    · exact not_is_of_constant hword k
  have hbracketed : bracketed t = none := by
    have happend := bracketed_bare_append ht []
    rwa [List.append_nil] at happend
  intro hextract
  rw [extract, hbracketed] at hextract
  cases hl : loads t with
  | some w =>
    rw [hl] at hextract
    obtain rfl := Option.some.inj hextract
    exact hloads w hl hv
  | none =>
    rw [hl] at hextract
    cases hextract

omit hcore in
theorem bare_beforeFence {t : Text} (ht : Bare t) : Bare (beforeFence t) := by
  unfold beforeFence
  split_ifs
  · exact bare_of_subset (bare_rdropWhile ht) (List.take_subset _ _)
  · exact ht

omit hcore in
theorem exists_of_append_eq {c : Char} {a b x y : Text} (ha : c ∉ a)
    (h : a ++ b = x ++ c :: y) : ∃ e, b = e ++ c :: y := by
  rcases List.append_eq_append_iff.mp h with ⟨e, -, he⟩ | ⟨e, rfl, he⟩
  · exact ⟨e, he⟩
  · cases e with
    | nil => exact ⟨[], he.symm⟩
    | cons d e =>
      obtain ⟨rfl, -⟩ := List.cons.inj he
      exact absurd (by simp) ha

/-- **Where the fence's line goes on into the serialisation**, the value is not found. -/
theorem extract_fence_ne {v : Json} (hrun : strict.run (.value []) ts = some v)
    (hv : decoder.Is k v) {p q : Text} (hq : Bare q) (hp : '\n' ∉ p)
    (hline : '\n' ∈ p ++ core ++ q) :
    extract (strip isSpace (beforeFence (afterFence (p ++ core ++ q)))) ≠ some v := by
  rw [afterFence, if_pos hline]
  by_cases hmem : '\n' ∈ core
  · obtain ⟨a, x, ha, heq⟩ := drop_line (List.mem_append_right p hmem) q
    obtain ⟨a', hsplit⟩ := exists_of_append_eq hp ha
    rw [heq]
    exact extract_line_ne hcore hrun hv hsplit hq
  · obtain ⟨a, x, ha, heq⟩ := drop_line hline []
    have hnot : '\n' ∉ p ++ core := fun h => (List.mem_append.mp h).elim hp hmem
    obtain ⟨a', rfl⟩ := exists_of_append_eq hnot ha
    rw [List.append_nil, List.append_nil] at heq
    rw [heq]
    have hx : Bare x := bare_of_subset hq (by simp)
    exact extract_bare_ne hv (bare_rdropWhile (bare_dropWhile (bare_beforeFence hx)))

end Core

/-! ### The law -/

/-- A value is extracted from an answer. -/
structure Extractable (response s : Text) : Prop where
  /-- The line of a leading fence ends before the value. -/
  fence : "```".toList <+: strip isSpace response → '\n' ∈ strip isSpace response →
    '\n' ∈ beforeBracket (strip isSpace response)
  /-- Without the fence the answer is no JSON string. -/
  unquoted : ∀ x, loads (stripFence (strip isSpace response)) ≠ some (.str x)
  /-- There is no prose, or no literal has a comma before a bracket. -/
  literals : stripFence (strip isSpace response) = strip isSpace s ∨
    ∀ ts raw, tokens s = some ts → Token.str raw ∈ ts → ¬TrailingComma raw

/-- **Extracting JSON.** The value is extracted from an answer if and only if the answer is
extractable. -/
theorem extracts_iff {pre s post : Text} {v : Json} (hpre : Bare pre) (hpost : Bare post)
    (hs : Serialises s v) :
    parseJsonResponse loads (pre ++ s ++ post) = loads s ↔ Extractable (pre ++ s ++ post) s := by
  obtain ⟨k, core, ts, w, w', hcore, rfl, hw, hw', htokens, hrun, hv⟩ := exists_core hs
  have hloads : loads (w ++ core ++ w') = some v := by
    rw [loads, Reader.read, htokens, Option.bind_some, run_of_strict hrun]
  have hstrip : strip isSpace (w ++ core ++ w') = core := by
    have hleft : w.dropWhile isSpace = [] := List.dropWhile_eq_nil_iff.mpr fun c hc =>
      isSpace_of_isGap (List.all_eq_true.mp hw c hc)
    have hright : w'.rdropWhile isSpace = [] := List.rdropWhile_eq_nil_iff.mpr fun c hc =>
      isSpace_of_isGap (List.all_eq_true.mp hw' c hc)
    rw [strip_around hcore, hleft, hright, List.nil_append, List.append_nil]
  -- What is around the serialisation, and what is left of it.
  have hanswer : pre ++ (w ++ core ++ w') ++ post = (pre ++ w) ++ core ++ (w' ++ post) := by simp
  obtain ⟨p, q, hp, hq, hresponse⟩ : ∃ p q, Bare p ∧ Bare q ∧
      strip isSpace (pre ++ (w ++ core ++ w') ++ post) = p ++ core ++ q := by
    rw [hanswer, strip_around hcore]
    exact ⟨_, _, bare_dropWhile (bare_append hpre (bare_of_gaps hw)),
      bare_rdropWhile (bare_append (bare_of_gaps hw') hpost), rfl⟩
  have htight : strip isSpace (p ++ core ++ q) = p ++ core ++ q := by
    rw [← hresponse, hanswer, strip_strip hcore]
  rw [parseJsonResponse_eq, hloads, hresponse]
  by_cases hfence : "```".toList <+: p ++ core ++ q → '\n' ∈ p ++ core ++ q → '\n' ∈ p
  · obtain ⟨haround, htight'⟩ := stripFence_around hcore hp hq hfence htight
    rw [extract_around_iff hcore hrun hv haround htight']
    constructor
    · rintro ⟨hunquoted, hliterals⟩
      refine ⟨?_, ?_, ?_⟩
      · rwa [hresponse, beforeBracket_around hcore hp]
      · rwa [hresponse]
      · rw [hresponse, hstrip]
        refine hliterals.imp_right fun hliterals us raw hus hraw => ?_
        obtain rfl := Option.some.inj (htokens.symm.trans hus)
        exact hliterals raw hraw
    · rintro ⟨-, hunquoted, hliterals⟩
      rw [hresponse] at hunquoted hliterals
      rw [hstrip] at hliterals
      exact ⟨hunquoted, hliterals.imp_right fun hliterals raw => hliterals ts raw htokens⟩
  · simp only [Classical.not_imp] at hfence
    obtain ⟨hlead, hline, hnot⟩ := hfence
    have hstripped : stripFence (p ++ core ++ q) =
        strip isSpace (beforeFence (afterFence (p ++ core ++ q))) := by
      rw [stripFence_eq, if_pos (List.isPrefixOf_iff_prefix.mpr hlead)]
    rw [hstripped]
    refine iff_of_false (extract_fence_ne hcore hrun hv hq hnot hline) fun hextractable => ?_
    have hfence := hextractable.fence
    rw [hresponse, beforeBracket_around hcore hp] at hfence
    exact hnot (hfence hlead hline)

/-! ### Two answers -/

/-- An object, as it is written. -/
def ids : Text := "\x7b\"ids\": [1, 2]\x7d".toList

theorem serialises_ids :
    Serialises ids (.obj [("ids".toList, .arr [.num ['1'], .num ['2']])]) :=
  ⟨rfl, .object, _, rfl⟩

/-- It is extracted from prose. -/
theorem extracts_ids :
    parseJsonResponse loads ("Sure: ".toList ++ ids ++ " (two)".toList) = loads ids := by
  refine (extracts_iff (forall_mem_of_all (by decide)) (forall_mem_of_all (by decide)) serialises_ids).mpr ?_
  refine ⟨fun hlead => absurd hlead (by decide), fun x hx => ?_, .inr ?_⟩
  · have hnone : loads (stripFence (strip isSpace ("Sure: ".toList ++ ids ++ " (two)".toList))) =
        none := rfl
    rw [hnone] at hx
    cases hx
  · intro ts raw hts hraw
    have htokens : tokens ids = some [.opening .object, .str "ids".toList, .colon,
      .opening .array, .word ['1'], .comma, .word ['2'], .closing .array, .closing .object] := rfl
    obtain rfl := Option.some.inj (htokens.symm.trans hts)
    obtain rfl : raw = "ids".toList := by simpa using hraw
    rw [← dropTrailingCommas_eq_self_iff]
    decide

/-- A list of one string, as it is written. -/
def quoted : Text := "[\"a,]\"]".toList

/-- **A string loses a comma** where there is prose around the list that it is in. -/
theorem not_extracts_literal :
    ¬∀ (pre s post : Text) (v : Json), Bare pre → Bare post → Serialises s v →
      parseJsonResponse loads (pre ++ s ++ post) = loads s := by
  intro h
  have hserialises : Serialises quoted (.arr [.str "a,]".toList]) := ⟨rfl, .array, _, rfl⟩
  have hextracts := h "Here: ".toList quoted [] _ (forall_mem_of_all (by decide)) (forall_mem_of_all (by decide))
    hserialises
  have hlost : parseJsonResponse loads ("Here: ".toList ++ quoted ++ []) =
      some (.arr [.str "a]".toList]) := rfl
  have hloads : loads quoted = some (.arr [.str "a,]".toList]) := rfl
  rw [hlost, hloads, Option.some.injEq, Json.arr.injEq, List.cons.injEq, Json.str.injEq] at hextracts
  exact absurd hextracts.1 (by decide)

end JsonResponse
end EmailOps
