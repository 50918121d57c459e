import Mathlib.Data.List.Infix
import Mathlib.Data.List.Perm.Subperm
import EmailOps.MailRules.Grammar

/-!
# Rules that match every message

A condition with an empty value holds of whatever it is asked about, and the validation of a
rule lets it pass. So there are rules that match every message, and these are found out by two
valuations of the conditions: one that makes those hold which hold of every message whose
sender has no domain, and one for those whose sender has one.

* `eval_every_iff`: a tree holds for every message exactly when it holds under both. Two
  messages refute all that does not: their texts are made of one character that no condition
  of the tree asks for, of which an accepted rule leaves some.
* `compileMatch_catchAll_iff` says it of the rules that are accepted, and of their conditions.
-/

namespace EmailOps
namespace MailRules

open Framework Framework.Text Json

/-- A lower-case mapping that maps the parts of an address one by one: `@` has no case, and no
letter is mapped in another way for standing next to one. Unicode's mapping is such. -/
class AddressCase extends CaseMapping where
  toLowerCase_at : ∀ s t : Text, toLowerCase (s ++ '@' :: t) = toLowerCase s ++ '@' :: toLowerCase t

export AddressCase (toLowerCase_at)

/-- The mapping of the examples is. -/
@[reducible] def asciiAddressCase : AddressCase where
  toCaseMapping := asciiCase
  toLowerCase_at _ _ := List.map_append

/-! ### The comparisons -/

theorem includes_iff {t s : Text} : Inbound.includes t s = true ↔ s <:+: t := by
  unfold Inbound.includes
  rw [List.any_eq_true, List.infix_iff_prefix_suffix]
  refine exists_congr fun suffix => ?_
  rw [List.mem_tails, List.isPrefixOf_iff_prefix, and_comm]

theorem infix_of_holds {op : MatchOp} {actual expected : Text}
    (h : op.holds actual expected = true) : expected <:+: actual := by
  cases op with
  | equals => exact (of_decide_eq_true h) ▸ List.infix_rfl
  | contains => exact includes_iff.mp h
  | startsWith => exact (List.isPrefixOf_iff_prefix.mp h).isInfix
  | endsWith => exact (List.isSuffixOf_iff_suffix.mp h).isInfix

theorem holds_nil {op : MatchOp} (hop : op ≠ .equals) (actual : Text) : op.holds actual [] = true := by
  cases op with
  | equals => exact absurd rfl hop
  | contains => exact includes_iff.mpr List.nil_infix
  | startsWith => exact List.isPrefixOf_iff_prefix.mpr List.nil_prefix
  | endsWith => exact List.isSuffixOf_iff_suffix.mpr List.nil_suffix

theorem holds_nil_nil (op : MatchOp) : op.holds [] [] = true := by
  cases op <;> rfl

/-! ### The two valuations -/

section Valuations

variable [AddressCase]

omit [AddressCase] in
/-- The conditions that hold of every message whose sender has no domain. -/
def holdsWithoutDomain (condition : Condition) : Bool :=
  condition.value = [] &&
    match condition.field with
    | .sender | .subject => condition.op ≠ .equals
    | .recipient => false
    | .fromDomain => true

/-- The conditions that hold of every message whose sender has a domain. -/
def holdsWithDomain (condition : Condition) : Bool :=
  (condition.value = [] && (condition.op ≠ .equals && condition.field ≠ .recipient)) ||
    (condition.field = .sender && (condition.op = .contains && toLowerCase condition.value = ['@']))

theorem matchesCondition_of_empty {msg : InboundMessage} {condition : Condition}
    (hvalue : condition.value = []) (hop : condition.op ≠ .equals)
    (hfield : condition.field ≠ .recipient) : matchesCondition msg condition = true := by
  unfold matchesCondition
  rw [hvalue, toLowerCase_nil]
  cases hf : condition.field with
  | recipient => exact absurd hf hfield
  | _ => simp [readField, holds_nil hop]

theorem matchesCondition_of_withoutDomain {msg : InboundMessage} {condition : Condition}
    (hdomain : extractDomain msg.fromAddress = [])
    (h : holdsWithoutDomain condition = true) : matchesCondition msg condition = true := by
  obtain ⟨hvalue, hfield⟩ := Bool.and_eq_true_iff.mp h
  replace hvalue := of_decide_eq_true hvalue
  cases hf : condition.field with
  | recipient =>
    rw [hf] at hfield
    cases hfield
  | fromDomain =>
    unfold matchesCondition
    rw [hf, readField, hdomain, hvalue]
    simp [holds_nil_nil]
  | _ =>
    rw [hf] at hfield
    exact matchesCondition_of_empty hvalue (of_decide_eq_true hfield) (by simp [hf])

theorem matchesCondition_of_withDomain {msg : InboundMessage} {condition : Condition}
    (hdomain : extractDomain msg.fromAddress ≠ [])
    (h : holdsWithDomain condition = true) : matchesCondition msg condition = true := by
  unfold holdsWithDomain at h
  simp only [Bool.or_eq_true, Bool.and_eq_true, decide_eq_true_eq] at h
  rcases h with ⟨hvalue, hop, hfield⟩ | ⟨hfield, hop, hvalue⟩
  · exact matchesCondition_of_empty hvalue hop hfield
  · -- An address with a domain has the sign before it.
    have hsign : '@' ∈ msg.fromAddress := by
      by_contra hnone
      exact hdomain (by simp [extractDomain, Inbound.extractDomain, afterLastAt, hnone])
    obtain ⟨s, t, hst⟩ := List.append_of_mem hsign
    have hinfix : ['@'] <:+: toLowerCase msg.fromAddress := by
      rw [hst, toLowerCase_at]
      exact ⟨toLowerCase s, toLowerCase t, by simp⟩
    unfold matchesCondition
    rw [hfield, hop, hvalue]
    simpa [readField, Inbound.MatchOp.holds] using includes_iff.mpr hinfix

/-! ### Messages that no condition asks for -/

omit [AddressCase] in
/-- Printable characters that are in lower case, but for the sign. -/
def freshChars : List Char :=
  (List.range' 33 31 ++ List.range' 91 36).map Char.ofNat

omit [AddressCase] in
theorem freshChars_spec : ∀ c ∈ freshChars, c.toNat < 128 ∧ c ≠ '@' ∧ c.toLower = c := by
  have hall : (freshChars.all fun c => c.toNat < 128 && (c ≠ '@' && c.toLower = c)) = true := by
    decide
  intro c hc
  simpa using List.all_eq_true.mp hall c hc

/-- The first character a condition asks for, but for the sign. -/
def askedFor (condition : Condition) : Option Char :=
  (toLowerCase condition.value).find? (· ≠ '@')

/-- **Some character is not asked for**: each condition asks for one at most. -/
theorem exists_not_asked {conditions : List Condition}
    (hsize : conditions.length < freshChars.length) :
    ∃ c ∈ freshChars, ∀ condition ∈ conditions, askedFor condition ≠ some c := by
  by_contra hall
  push Not at hall
  have hsub : freshChars.map some ⊆ conditions.map askedFor := by
    intro _ hmem
    obtain ⟨c, hc, rfl⟩ := List.mem_map.mp hmem
    obtain ⟨condition, hcondition, hasked⟩ := hall c hc
    exact List.mem_map.mpr ⟨condition, hcondition, hasked⟩
  have hnodup : (freshChars.map some).Nodup := by
    decide
  have hle := (List.subperm_of_subset hnodup hsub).length_le
  rw [List.length_map, List.length_map] at hle
  omega

/-- A message without recipients, of one character. -/
def strayMessage (sender : Text) (c : Char) : InboundMessage where
  fromAddress := sender
  toAddress := []
  toAddresses := some []
  subject := [c]

variable {condition : Condition} {c : Char}

theorem toLowerCase_fresh (hc : c ∈ freshChars) {t : Text} (ht : ∀ x ∈ t, x = c ∨ x = '@') :
    toLowerCase t = t := by
  obtain ⟨hascii, -, hlower⟩ := freshChars_spec c hc
  rw [toLowerCase_ascii t]
  · have hself : t.map Char.toLower = t.map id := by
      refine List.map_congr_left fun x hx => ?_
      rcases ht x hx with rfl | rfl
      · exact hlower
      · rfl
    rw [hself, List.map_id]
  · intro x hx
    rcases ht x hx with rfl | rfl
    · exact hascii
    · decide

/-- A value that does not ask for the character has none but the sign in common with a text of
the two. -/
theorem eq_at_of_not_asked (hasked : askedFor condition ≠ some c) {t : Text}
    (ht : ∀ x ∈ t, x = c ∨ x = '@') (h : toLowerCase condition.value <:+: t) :
    ∀ x ∈ toLowerCase condition.value, x = '@' := by
  intro x hx
  by_contra hne
  cases hfind : askedFor condition with
  | none => exact hne (by simpa using List.find?_eq_none.mp hfind x hx)
  | some y =>
    have hy : y ≠ '@' := by simpa using List.find?_some hfind
    have hmem : y ∈ t := h.subset (List.mem_of_find?_eq_some hfind)
    exact hasked (hfind.trans (congrArg some ((ht y hmem).resolve_right hy)))

theorem value_eq_nil (hc : c ∈ freshChars) (hasked : askedFor condition ≠ some c)
    (h : toLowerCase condition.value <:+: [c]) : condition.value = [] := by
  have hat := eq_at_of_not_asked hasked (fun x hx => .inl (List.mem_singleton.mp hx)) h
  rw [← toLowerCase_eq_nil, List.eq_nil_iff_forall_not_mem]
  intro x hx
  have hx' := List.mem_singleton.mp (h.subset hx)
  exact (freshChars_spec c hc).2.1 (hx'.symm.trans (hat x hx))

theorem of_holds_singleton (hc : c ∈ freshChars) (hasked : askedFor condition ≠ some c)
    (h : condition.op.holds (toLowerCase [c]) (toLowerCase condition.value) = true) :
    condition.value = [] ∧ condition.op ≠ .equals := by
  rw [toLowerCase_fresh hc fun x hx => .inl (List.mem_singleton.mp hx)] at h
  have hvalue := value_eq_nil hc hasked (infix_of_holds h)
  refine ⟨hvalue, fun hop => ?_⟩
  rw [hop, hvalue, toLowerCase_nil] at h
  cases h

/-- What holds of the address of the one character: the value is empty, or it is the sign, which
the address has in its middle. -/
theorem of_holds_address (hc : c ∈ freshChars) (hasked : askedFor condition ≠ some c)
    (h : condition.op.holds (toLowerCase [c, '@', c]) (toLowerCase condition.value) = true) :
    condition.value = [] ∧ condition.op ≠ .equals ∨
      toLowerCase condition.value = ['@'] ∧ condition.op = .contains := by
  have hchars : ∀ x ∈ [c, '@', c], x = c ∨ x = '@' := by
    intro x hx
    simpa [or_comm, or_assoc] using hx
  have hat := (freshChars_spec c hc).2.1
  rw [toLowerCase_fresh hc hchars] at h
  have hinfix := infix_of_holds h
  have hsigns := eq_at_of_not_asked hasked hchars hinfix
  -- The sign stands once in the address.
  have hlength : (toLowerCase condition.value).length ≤ 1 := by
    calc (toLowerCase condition.value).length
        = (toLowerCase condition.value).count '@' :=
          (List.count_eq_length.mpr fun x hx => (hsigns x hx).symm).symm
      _ ≤ [c, '@', c].count '@' := hinfix.sublist.count_le '@'
      _ = 1 := by simp [hat]
  cases hvalue : toLowerCase condition.value with
  | nil =>
    refine .inl ⟨(toLowerCase_eq_nil _).mp hvalue, fun hop => ?_⟩
    rw [hop, hvalue] at h
    cases h
  | cons x rest =>
    rw [hvalue] at hlength hsigns h
    obtain rfl : rest = [] := List.length_eq_zero_iff.mp (by simpa using hlength)
    obtain rfl : x = '@' := hsigns x List.mem_cons_self
    refine .inr ⟨rfl, ?_⟩
    -- The address neither is the sign, nor begins or ends with it.
    cases hop : condition.op with
    | contains => rfl
    | equals =>
      rw [hop] at h
      simp [Inbound.MatchOp.holds] at h
    | startsWith =>
      rw [hop] at h
      simp [Inbound.MatchOp.holds, hat.symm] at h
    | endsWith =>
      rw [hop] at h
      obtain ⟨before, hbefore⟩ := List.isSuffixOf_iff_suffix.mp h
      have hlast := congrArg List.getLast? hbefore
      simp [hat.symm] at hlast

/-- What holds of a message whose sender has no domain. -/
theorem withoutDomain_of_match (hc : c ∈ freshChars) (hasked : askedFor condition ≠ some c)
    (h : matchesCondition (strayMessage [c] c) condition = true) :
    holdsWithoutDomain condition = true := by
  have hat := (freshChars_spec c hc).2.1
  have hdomain : extractDomain [c] = [] := by
    simp [extractDomain, Inbound.extractDomain, afterLastAt, hat.symm]
  unfold holdsWithoutDomain
  unfold matchesCondition at h
  cases hf : condition.field with
  | recipient =>
    rw [hf] at h
    cases h
  | fromDomain =>
    rw [hf] at h
    have hholds : condition.op.holds (toLowerCase (extractDomain [c])) (toLowerCase condition.value) =
        true := by
      simpa [readField, strayMessage] using h
    rw [hdomain, toLowerCase_nil] at hholds
    have hvalue := (toLowerCase_eq_nil _).mp (List.infix_nil.mp (infix_of_holds hholds))
    simp [hvalue]
  | _ =>
    rw [hf] at h
    have hholds : condition.op.holds (toLowerCase [c]) (toLowerCase condition.value) = true := by
      simpa [readField, strayMessage] using h
    obtain ⟨hvalue, hop⟩ := of_holds_singleton hc hasked hholds
    simp [hvalue, hop]

/-- What holds of a message whose sender has a domain. -/
theorem withDomain_of_match (hc : c ∈ freshChars) (hasked : askedFor condition ≠ some c)
    (h : matchesCondition (strayMessage [c, '@', c] c) condition = true) :
    holdsWithDomain condition = true := by
  have hat := (freshChars_spec c hc).2.1
  have hdomain : extractDomain [c, '@', c] = [c] := by
    simp [extractDomain, Inbound.extractDomain, afterLastAt, List.rtakeWhile, hat]
  unfold holdsWithDomain
  unfold matchesCondition at h
  cases hf : condition.field with
  | recipient =>
    rw [hf] at h
    cases h
  | fromDomain =>
    rw [hf] at h
    have hholds : condition.op.holds (toLowerCase (extractDomain [c, '@', c]))
        (toLowerCase condition.value) = true := by
      simpa [readField, strayMessage] using h
    rw [hdomain] at hholds
    obtain ⟨hvalue, hop⟩ := of_holds_singleton hc hasked hholds
    simp [hvalue, hop]
  | subject =>
    rw [hf] at h
    have hholds : condition.op.holds (toLowerCase [c]) (toLowerCase condition.value) = true := by
      simpa [readField, strayMessage] using h
    obtain ⟨hvalue, hop⟩ := of_holds_singleton hc hasked hholds
    simp [hvalue, hop]
  | sender =>
    rw [hf] at h
    have hholds : condition.op.holds (toLowerCase [c, '@', c]) (toLowerCase condition.value) =
        true := by
      simpa [readField, strayMessage] using h
    rcases of_holds_address hc hasked hholds with ⟨hvalue, hop⟩ | ⟨hvalue, hop⟩
    · simp [hvalue, hop]
    · simp [hvalue, hop]

/-! ### Trees and rules that match everything -/

/-- **A tree holds for every message exactly when it holds under both valuations.** -/
theorem eval_every_iff {t : ClauseTree Condition} (hsize : t.leaves.length < freshChars.length) :
    (∀ msg, t.eval (matchesCondition msg) = true) ↔
      t.eval holdsWithoutDomain = true ∧ t.eval holdsWithDomain = true := by
  constructor
  · intro hevery
    obtain ⟨c, hc, hasked⟩ := exists_not_asked hsize
    constructor
    · exact ClauseTree.eval_mono t
        (fun condition hmem => withoutDomain_of_match hc (hasked condition hmem)) (hevery _)
    · exact ClauseTree.eval_mono t
        (fun condition hmem => withDomain_of_match hc (hasked condition hmem)) (hevery _)
  · rintro ⟨hwithout, hwith⟩ msg
    by_cases hdomain : extractDomain msg.fromAddress = []
    · exact ClauseTree.eval_mono t
        (fun condition _ => matchesCondition_of_withoutDomain hdomain) hwithout
    · exact ClauseTree.eval_mono t
        (fun condition _ => matchesCondition_of_withDomain hdomain) hwith

omit [AddressCase] in
theorem leaves_nodeTree {raw : Json} {items : List Json} (h : soleClause raw = some items) :
    (nodeTree raw).leaves = (items.map childTree).flatMap ClauseTree.leaves := by
  cases raw with
  | obj fields =>
    rw [soleClause] at h
    rw [nodeTree_obj]
    split at h
    · next items' hall hany =>
      obtain rfl := Option.some.inj h
      rw [hall, hany]
      exact (List.append_nil _).trans (ClauseTree.childLeaves_eq_flatMap _)
    · next items' hall hany =>
      obtain rfl := Option.some.inj h
      rw [hall, hany]
      exact (List.nil_append _).trans (ClauseTree.childLeaves_eq_flatMap _)
    · cases h
  | _ => cases h

omit [AddressCase] in
theorem leaves_childTree {c : Json} (h : isCondition c = true) : (childTree c).leaves.length = 1 := by
  obtain ⟨condition, hcondition⟩ := Option.isSome_iff_exists.mp h
  rw [childTree, hcondition]
  rfl

omit [AddressCase] in
/-- A group has at most ten conditions. -/
theorem length_leaves_group {raw : Json} (h : groupInGrammar raw = true) :
    (nodeTree raw).leaves.length ≤ maxMatchConditionsPerGroup := by
  obtain ⟨items, hsole, -, hlength, hconditions⟩ := groupInGrammar_iff.mp h
  rw [leaves_nodeTree hsole]
  have heq : ((items.map childTree).flatMap ClauseTree.leaves).length = items.length := by
    clear hsole hlength
    induction items with
    | nil => rfl
    | cons item items ih =>
      rw [List.map_cons, List.flatMap_cons, List.length_append,
        leaves_childTree (hconditions item List.mem_cons_self),
        ih fun i hi => hconditions i (List.mem_cons_of_mem item hi), List.length_cons, Nat.add_comm]
  omega

omit [AddressCase] in
/-- **A match tree of the grammar has fewer conditions than there are characters to try.** -/
theorem length_leaves {raw : Json} (h : inGrammar raw = true) :
    (nodeTree raw).leaves.length < freshChars.length := by
  obtain ⟨items, hsole, -, hitems, hconditions, hgroups⟩ := inGrammar_iff.mp h
  rw [leaves_nodeTree hsole]
  have hle : ((items.map childTree).flatMap ClauseTree.leaves).length ≤ items.countP isCondition +
      maxMatchConditionsPerGroup * items.countP fun item => !isCondition item := by
    clear hsole hconditions hgroups
    induction items with
    | nil => exact Nat.zero_le _
    | cons item items ih =>
      have hrest := ih fun i hi => hitems i (List.mem_cons_of_mem item hi)
      rw [List.map_cons, List.flatMap_cons, List.length_append, List.countP_cons, List.countP_cons]
      cases hcondition : isCondition item with
      | true =>
        have hone := leaves_childTree hcondition
        simp only [Bool.not_true, if_true, Bool.false_eq_true, if_false, Nat.add_zero]
        omega
      | false =>
        have hgroup := (hitems item List.mem_cons_self).resolve_left (by simp [hcondition])
        have hchild : childTree item = nodeTree item := by
          rw [childTree, Option.not_isSome_iff_eq_none.mp (Bool.eq_false_iff.mp hcondition)]
        have hten := length_leaves_group hgroup
        rw [← hchild] at hten
        simp only [Bool.not_false, if_true, Bool.false_eq_true, if_false]
        rw [Nat.mul_add]
        omega
  have hsize : freshChars.length = 67 := by
    decide
  unfold maxMatchConditionsPerGroup maxMatchGroups at *
  omega

/-- **Which accepted rules match every message**: those whose tree holds under both valuations.
A condition alone is satisfied by every message when its value is empty, unless it compares
the whole text or reads the recipients. -/
theorem compileMatch_catchAll_iff {raw : Json} {node : MatchNode} (h : compileMatch raw = .ok node) :
    ((∃ msg, matchesNode msg node.toJson = false) ↔
        ¬ ((nodeTree node.toJson).eval holdsWithoutDomain = true ∧
          (nodeTree node.toJson).eval holdsWithDomain = true)) ∧
      ∀ condition ∈ (nodeTree node.toJson).leaves,
        (∃ msg, matchesCondition msg condition = false) ↔
          ¬ (condition.value = [] ∧ condition.op ≠ .equals ∧ condition.field ≠ .recipient) := by
  obtain ⟨rfl, hgrammar⟩ := compileMatch_eq_ok.mp h
  have hnot : ∀ p : InboundMessage → Bool, (∃ msg, p msg = false) ↔ ¬ ∀ msg, p msg = true := by
    intro p
    push Not
    exact exists_congr fun msg => (Bool.not_eq_true _).symm ▸ Iff.rfl
  constructor
  · -- What is stored was pruned when it was parsed.
    have htree : ∀ msg, matchesNode msg (parseMatch raw).toJson =
        (nodeTree (parseMatch raw).toJson).eval (matchesCondition msg) := by
      intro msg
      cases hparse : parseMatchNode raw with
      | none =>
        rw [parseMatch, hparse] at hgrammar
        cases hgrammar
      | some node =>
        rw [matchesNode_eq_eval, parseMatch, hparse, Option.getD_some, nodeTree_toJson hparse,
          ClauseTree.prune_prune]
    rw [hnot, ← eval_every_iff (length_leaves hgrammar)]
    exact not_congr (forall_congr' fun msg => by rw [htree msg])
  · intro condition _
    have hsize : (ClauseTree.leaf condition).leaves.length < freshChars.length :=
      show 1 < freshChars.length by decide
    rw [hnot, not_congr]
    refine (eval_every_iff hsize).trans ?_
    change holdsWithoutDomain condition = true ∧ holdsWithDomain condition = true ↔ _
    unfold holdsWithoutDomain holdsWithDomain
    cases condition.field <;> by_cases hvalue : condition.value = [] <;> simp [hvalue]

end Valuations

/-! ### An empty value -/

/-- A rule for the subjects that contain the empty text. -/
def emptyValueRule : Json :=
  .obj [("all".toList, .arr [
    .obj [("field".toList, .str "subject".toList), ("op".toList, .str "contains".toList),
      ("value".toList, .str [])]])]

/-- It is accepted, and it matches every message. -/
theorem compileMatch_emptyValueRule :
    ¬ ∀ raw node, compileMatch raw = .ok node → ∃ msg, matchesNode msg node.toJson = false := by
  intro h
  obtain ⟨msg, hmsg⟩ := h emptyValueRule _ (compileMatch_eq_ok.mpr ⟨rfl, by decide⟩)
  have hmatch : matchesNode msg (parseMatch emptyValueRule).toJson = true := by
    have hcondition : matchesCondition msg ⟨.subject, .contains, []⟩ = true :=
      @matchesCondition_of_empty asciiAddressCase _ _ rfl nofun nofun
    rw [matchesNode_eq_eval]
    change ClauseTree.eval (matchesCondition msg)
      (.group false (some [.leaf ⟨.subject, .contains, []⟩]) none) = true
    simp [ClauseTree.eval, ClauseTree.evalAll, ClauseTree.evalAny, ClauseTree.evalEvery, hcondition]
  cases hmatch.symm.trans hmsg

/-- A rule for the messages to bob does not match them all. -/
theorem compileMatch_catchAll_bob :
    ∃ msg, matchesNode msg (parseMatch (.obj [("any".toList, .arr [
      .obj [("field".toList, .str "to".toList), ("op".toList, .str "equals".toList),
        ("value".toList, .str "bob@acme.com".toList)]])])).toJson = false := by
  let _ := asciiAddressCase
  refine (compileMatch_catchAll_iff (compileMatch_eq_ok.mpr ⟨rfl, ?_⟩)).1.mpr ?_
  · decide
  · decide

end MailRules
end EmailOps
