import EmailOps.MailRules.Engine

/-!
# What a stored rule matches

The documented semantics is that of the tree of a value: a node or a condition that is empty
or malformed matches nothing. The engine leaves such children out before it evaluates, and it
is the pruned tree that it evaluates.

* `parseMatch_preserves`: a stored rule may be parsed before it is evaluated, once or twice.
* `matchesNode_documented_iff`: the engine agrees with the documentation where the tree is not
  loosened, that is, where it is not the lack of a malformed part that makes the rule match.
-/

namespace EmailOps
namespace MailRules

open Framework Framework.Text Json

section

variable [CaseMapping] (msg : InboundMessage)

/-! ### Parsing before matching -/

theorem matchesNode_of_none {raw : Json} (h : parseMatchNode raw = none) :
    matchesNode msg raw = false := by
  rw [matchesNode_eq_eval, (prunes raw).1 h]
  rfl

omit [CaseMapping] in
theorem parseMatchNode_empty : parseMatchNode (MatchNode.toJson {}) = none := by
  change parseMatchNode (.obj []) = none
  rw [parseMatchNode_obj]
  rfl

/-- Matching what was parsed is matching the value itself. -/
theorem matchesNode_parseMatch (raw : Json) :
    matchesNode msg (parseMatch raw).toJson = matchesNode msg raw := by
  unfold parseMatch
  cases hparse : parseMatchNode raw with
  | none => rw [Option.getD_none, matchesNode_of_none msg hparse,
      matchesNode_of_none msg parseMatchNode_empty]
  | some node =>
    rw [Option.getD_some, matchesNode_eq_eval, matchesNode_eq_eval, nodeTree_toJson hparse,
      ClauseTree.prune_prune]

omit [CaseMapping] in
theorem parseMatch_parseMatch (raw : Json) :
    parseMatch (parseMatch raw).toJson = parseMatch raw := by
  unfold parseMatch
  cases hparse : parseMatchNode raw with
  | none => rw [Option.getD_none, parseMatchNode_empty, Option.getD_none]
  | some node => rw [Option.getD_some, parseMatchNode_toJson hparse, Option.getD_some]

/-- A clause of which no child is left matches nothing. -/
theorem matchesNode_of_empty_clause {raw : Json}
    (h : (parseMatch raw).all = some [] ∨ (parseMatch raw).any = some []) :
    matchesNode msg raw = false := by
  rw [Bool.eq_false_iff, Ne, matchesNode_eq_true]
  rintro ⟨node, hparse, hall, hany⟩
  unfold parseMatch at h
  rw [hparse, Option.getD_some] at h
  rcases h with hempty | hempty
  · exact (hall [] hempty).1 rfl
  · obtain ⟨child, hchild, -⟩ := hany [] hempty
    cases hchild

/-- **Parsing preserves what a rule means**: a value matches what it matches parsed, parsing
twice is parsing once, and a node matches nothing when one of its clauses is left without a
child. -/
theorem parseMatch_preserves (raw : Json) :
    matchesNode msg (parseMatch raw).toJson = matchesNode msg raw ∧
      parseMatch (parseMatch raw).toJson = parseMatch raw ∧
        ((parseMatch raw).all = some [] ∨ (parseMatch raw).any = some [] →
          matchesNode msg raw = false) :=
  ⟨matchesNode_parseMatch msg raw, parseMatch_parseMatch raw, matchesNode_of_empty_clause msg⟩

/-! ### What the documentation says -/

/-- The documented semantics: what is empty or malformed matches nothing, where it stands. -/
def documentedMatch (raw : Json) : Bool :=
  (nodeTree raw).eval (matchesCondition msg)

/-- **The engine agrees with the documentation exactly where the tree is not loosened.** Then a
rule does not match a message that something it requires does not. -/
theorem matchesNode_documented_iff (raw : Json) :
    (matchesNode msg raw = documentedMatch msg raw ∧
      ∀ r, ClauseTree.Required r (nodeTree raw) → matchesNode msg raw = true →
        r.eval (matchesCondition msg) = true) ↔
      (nodeTree raw).loosened (matchesCondition msg) = false := by
  rw [← ClauseTree.eval_prune_eq_iff, ← matchesNode_eq_eval]
  constructor
  · exact And.left
  · intro hagree
    refine ⟨hagree, fun r hr hmatch => ClauseTree.eval_of_required hr ?_⟩
    rw [← hagree, hmatch]

end

/-! ### A child that is left out of a clause -/

/-- A rule that requires a group that matches nothing. -/
def sunkRule : Json :=
  .obj [("all".toList, .arr [
    .obj [("field".toList, .str "from".toList), ("op".toList, .str "contains".toList),
      ("value".toList, .str "alice".toList)],
    .obj []])]

def fromAlice : InboundMessage where
  fromAddress := "alice@acme.com".toList
  toAddress := []
  toAddresses := some []
  subject := "invoice".toList

/-- It matches all the same. -/
theorem matchesNode_sunkRule :
    ¬ ∀ msg raw, matchesNode msg raw = documentedMatch msg raw ∧
      ∀ r, ClauseTree.Required r (nodeTree raw) → matchesNode msg raw = true →
        r.eval (matchesCondition msg) = true := by
  intro h
  have hagree := (h fromAlice sunkRule).1
  rw [matchesNode_eq_eval] at hagree
  revert hagree
  decide

end MailRules
end EmailOps
