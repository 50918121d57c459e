import EmailOps.MailRules.Apply
import EmailOps.MailRules.Guard

/-!
# The rules of the watcher

The watcher's model takes the rules with their match trees parsed, and plans what is applied to
a message. The match tree of a row is the pruned tree of its value, and what is planned for it
is what `applyInbound` applies.

* `holds_watchNode`: the watcher's trees hold when the pruned trees do.
* `planRules_watchRow`: the watcher plans the calls for the actions that are evaluated, and the
  counters of the rules that fire and have an action.
-/

namespace EmailOps
namespace MailRules

open Framework Framework.Text Json

mutual

/-- A tree as a match tree of the watcher. -/
def watchNode : ClauseTree Condition → Inbound.MatchNode
  | .leaf condition => .condition condition.field condition.op condition.value
  | .malformed => .group none none
  | .group _ all any => .group (watchClause all) (watchClause any)

def watchClause : Option (List (ClauseTree Condition)) → Option (List Inbound.MatchNode)
  | none => none
  | some children => some (watchChildren children)

def watchChildren : List (ClauseTree Condition) → List Inbound.MatchNode
  | [] => []
  | child :: children => watchNode child :: watchChildren children

end

/-- The message as the watcher hands it over. -/
def InboundRuleMessage.ref (msg : InboundRuleMessage) (receivedAt : Text) (agentAutoreply : Bool) :
    Inbound.InboundMessageRef where
  threadId := msg.threadId
  fromAddress := msg.fromAddress
  toAddresses := msg.toAddresses.getD []
  subject := msg.subject
  receivedAt := receivedAt
  agentAutoreply := agentAutoreply

def watchRow (row : MailRuleRow) : Inbound.MailRuleRow where
  id := row.id
  workspaceId := row.workspaceId
  mailboxId := row.mailboxId
  enabled := row.enabled
  priority := row.priority
  match? := watchNode (nodeTree row.match?).prune
  actions := parseActions row.actions

section Watcher

variable [CaseMapping] {msg : InboundRuleMessage} {receivedAt : Text} {agentAutoreply : Bool}

theorem matchesCondition_ref (condition : Condition) :
    Inbound.matchesCondition condition.field condition.op condition.value
        (msg.ref receivedAt agentAutoreply) = matchesCondition msg.toInbound condition := by
  have hread : Inbound.readField condition.field (msg.ref receivedAt agentAutoreply) =
      readField condition.field msg.toInbound := by
    cases condition.field with
    | recipient =>
      dsimp only [Inbound.readField, readField, InboundRuleMessage.ref,
        InboundRuleMessage.toInbound, Option.getD_some]
      cases (msg.toAddresses.getD []).filter (· ≠ []) with
      | nil => rfl
      | cons _ _ => rfl
    | _ => rfl
  unfold Inbound.matchesCondition matchesCondition
  rw [hread]

theorem holdsEvery_watchChildren (ref : Inbound.InboundMessageRef) (ts : List (ClauseTree Condition)) :
    Inbound.holdsEvery ref (watchChildren ts) = ts.all fun t => (watchNode t).holds ref := by
  induction ts with
  | nil => rfl
  | cons t ts ih => rw [watchChildren, Inbound.holdsEvery, List.all_cons, ih]

theorem holdsSome_watchChildren (ref : Inbound.InboundMessageRef) (ts : List (ClauseTree Condition)) :
    Inbound.holdsSome ref (watchChildren ts) = ts.any fun t => (watchNode t).holds ref := by
  induction ts with
  | nil => rfl
  | cons t ts ih => rw [watchChildren, Inbound.holdsSome, List.any_cons, ih]

/-- **The watcher's tree holds when the pruned tree does.** -/
theorem holds_watchNode (t : ClauseTree Condition) :
    (watchNode t.prune).holds (msg.ref receivedAt agentAutoreply) =
      t.prune.eval (matchesCondition msg.toInbound) := by
  induction t using ClauseTree.children_induction with
  | leaf condition => exact matchesCondition_ref condition
  | malformed => rfl
  | group broken all any ihall ihany =>
    have hchildren : ∀ ts : List (ClauseTree Condition),
        (∀ t ∈ ts, (watchNode t.prune).holds (msg.ref receivedAt agentAutoreply) =
          t.prune.eval (matchesCondition msg.toInbound)) →
        ∀ t' ∈ ClauseTree.pruneChildren ts, (watchNode t').holds (msg.ref receivedAt agentAutoreply) =
          t'.eval (matchesCondition msg.toInbound) := by
      intro ts h t' ht'
      obtain ⟨t, ht, -, rfl⟩ := ClauseTree.mem_pruneChildren.mp ht'
      exact h t ht
    have hevery : ∀ ts ∈ all, Inbound.holdsEvery (msg.ref receivedAt agentAutoreply)
        (watchChildren (ClauseTree.pruneChildren ts)) =
          ClauseTree.evalEvery (matchesCondition msg.toInbound) (ClauseTree.pruneChildren ts) := by
      intro ts hts
      rw [holdsEvery_watchChildren, ClauseTree.evalEvery_eq_all]
      rw [Bool.eq_iff_iff, List.all_eq_true, List.all_eq_true]
      exact forall₂_congr fun t' ht' => by rw [hchildren ts (ihall ts hts) t' ht']
    have hsome : ∀ ts ∈ any, Inbound.holdsSome (msg.ref receivedAt agentAutoreply)
        (watchChildren (ClauseTree.pruneChildren ts)) =
          ClauseTree.evalSome (matchesCondition msg.toInbound) (ClauseTree.pruneChildren ts) := by
      intro ts hts
      rw [holdsSome_watchChildren, ClauseTree.evalSome_eq_any]
      rw [Bool.eq_iff_iff, List.any_eq_true, List.any_eq_true]
      exact exists_congr fun t' => and_congr_right fun ht' => by
        rw [hchildren ts (ihany ts hts) t' ht']
    have hempty : ∀ ts : List (ClauseTree Condition), (watchChildren ts).isEmpty = ts.isEmpty := by
      intro ts
      cases ts with
      | nil => rfl
      | cons t ts => rfl
    -- The four cases are those of `holds`.
    cases all with
    | none =>
      cases any with
      | none => rfl
      | some anys =>
        simp only [ClauseTree.prune, ClauseTree.pruneClause, watchNode, watchClause,
          Inbound.MatchNode.holds, ClauseTree.eval, ClauseTree.evalAll, ClauseTree.evalAny, hempty,
          hsome anys rfl, Option.isSome, Bool.not_false, Bool.true_and, Bool.or_true]
    | some alls =>
      cases any with
      | none =>
        simp only [ClauseTree.prune, ClauseTree.pruneClause, watchNode, watchClause,
          Inbound.MatchNode.holds, ClauseTree.eval, ClauseTree.evalAll, ClauseTree.evalAny, hempty,
          hevery alls rfl, Option.isSome, Bool.not_false, Bool.true_and, Bool.or_false, Bool.and_true]
      | some anys =>
        simp only [ClauseTree.prune, ClauseTree.pruneClause, watchNode, watchClause,
          Inbound.MatchNode.holds, ClauseTree.eval, ClauseTree.evalAll, ClauseTree.evalAny, hempty,
          hevery alls rfl, hsome anys rfl, Option.isSome, Bool.not_false, Bool.true_and, Bool.or_true]

theorem holds_watchRow (row : MailRuleRow) (receivedAt : Text) (agentAutoreply : Bool) :
    (watchRow row).match?.holds (msg.ref receivedAt agentAutoreply) =
      matchesNode msg.toInbound (compile row).match? := by
  change (watchNode (nodeTree row.match?).prune).holds _ =
    matchesNode msg.toInbound (parseMatch row.match?).toJson
  rw [holds_watchNode, matchesNode_parseMatch, matchesNode_eq_eval]

omit [CaseMapping] in
theorem actions_compile (row : MailRuleRow) :
    parseActions (compile row).actions = parseActions row.actions :=
  parseActions_actionJson _

theorem evaluateInOrder_watchRow (rows : List MailRuleRow) :
    Inbound.evaluateInOrder (msg.ref receivedAt agentAutoreply) (rows.map watchRow) =
      evaluateInOrder msg.toInbound (rows.map compile) := by
  induction rows with
  | nil => rfl
  | cons row rows ih =>
    rw [List.map_cons, List.map_cons, Inbound.evaluateInOrder, evaluateInOrder, ih, holds_watchRow,
      actions_compile]
    change (if !row.enabled || _ then _ else _) = if !row.enabled then _ else _
    cases row.enabled with
    | false => rfl
    | true =>
      cases matchesNode msg.toInbound (compile row).match? with
      | false => rfl
      | true => rfl

theorem matchedIds_watchRow (rows : List MailRuleRow) :
    Inbound.matchedIds (msg.ref receivedAt agentAutoreply) (rows.map watchRow) =
      matchedIds msg.toInbound (rows.map compile) := by
  induction rows with
  | nil => rfl
  | cons row rows ih =>
    have halone : Inbound.evaluateRules [watchRow row] (msg.ref receivedAt agentAutoreply) =
        evaluateRules [compile row] msg.toInbound := evaluateInOrder_watchRow [row]
    rw [List.map_cons, List.map_cons, Inbound.matchedIds, matchedIds, ih, halone]
    rfl

/-- **The watcher plans what is applied.** -/
theorem planRules_watchRow (workspaceId mailboxId : String) (rows : List MailRuleRow) :
    Inbound.planRules workspaceId mailboxId (rows.map watchRow)
        (msg.ref receivedAt agentAutoreply) =
      let rules := ownRules workspaceId mailboxId rows
      let counted := contributing msg.toInbound rules
      if counted = [] then none
      else some ⟨(evaluateRules rules msg.toInbound).filterMap (·.call?), counted.map (·.id)⟩ := by
  -- Both sort the usable rows, whichever way these are read.
  let usable := rows.filter fun row => row.enabled && own workspaceId mailboxId row
  let sorted := usable.insertionSort fun a b => a.priority ≤ b.priority
  have hwatch : Inbound.byPriority (usable.map watchRow) = sorted.map watchRow :=
    (List.map_insertionSort _ _ watchRow usable fun _ _ _ _ => Iff.rfl).symm
  have hcompile : byPriority (usable.map compile) = sorted.map compile :=
    (List.map_insertionSort _ _ compile usable fun _ _ _ _ => Iff.rfl).symm
  have hagain : Inbound.byPriority (sorted.map watchRow) = sorted.map watchRow := by
    rw [← hwatch]
    exact (List.pairwise_insertionSort _ _).insertionSort_eq
  have husable : (rows.map watchRow).filter (fun r =>
      r.enabled && r.workspaceId = workspaceId && r.mailboxId = mailboxId) = usable.map watchRow := by
    rw [List.filter_map]
    refine congrArg (List.map watchRow) (List.filter_congr fun row _ => ?_)
    exact Bool.and_assoc _ _ _
  have hfiring := firing_enabled msg.toInbound (ownRules workspaceId mailboxId rows)
  rw [← compile_usable, hcompile] at hfiring
  have hactions : Inbound.evaluateRules (sorted.map watchRow) (msg.ref receivedAt agentAutoreply) =
      evaluateRules (ownRules workspaceId mailboxId rows) msg.toInbound := by
    rw [Inbound.evaluateRules, hagain, evaluateInOrder_watchRow, evaluateInOrder_eq, hfiring,
      evaluateRules_eq]
  have hids : Inbound.matchedIds (msg.ref receivedAt agentAutoreply) (sorted.map watchRow) =
      (contributing msg.toInbound (ownRules workspaceId mailboxId rows)).map (·.id) := by
    rw [matchedIds_watchRow, matchedIds_eq, hfiring]
    rfl
  unfold Inbound.planRules
  dsimp only
  rw [husable, hwatch, hids, hactions]
  cases contributing msg.toInbound (ownRules workspaceId mailboxId rows) with
  | nil => rfl
  | cons rule counted => simp

end Watcher

end MailRules
end EmailOps
