import Mathlib.Data.List.Sort
import EmailOps.Email.Autonomy

/-!
# Mail rules

The rules of a mailbox, as `evaluateRules` and `applyInbound` read them: a match tree over the
sender, the recipients and the subject of a message, and the actions of the rules that match.

* `MatchNode.holds` evaluates a match tree. An empty clause matches nothing.
* `evaluateRules` concatenates the actions of the matching rules in order of priority, up to
  the first rule that stops.
* `planRules` is what `applyInbound` is about to do to a message: the calls of the mail engine,
  and the rules whose hit counters it bumps.
-/

namespace EmailOps
namespace Inbound

open Framework Framework.Text

variable [CaseMapping]

/-! ### Messages and rules -/

/-- What the watcher knows of a message that arrived. -/
structure InboundMessageRef where
  threadId : String
  fromAddress : Option Text
  toAddresses : List Text
  subject : Option Text
  receivedAt : Text
  agentAutoreply : Bool
  deriving DecidableEq

inductive MatchField where
  | sender | recipient | subject | fromDomain
  deriving DecidableEq

inductive MatchOp where
  | equals | contains | startsWith | endsWith
  deriving DecidableEq

/-- A match tree: a condition, or a group with an `all` clause, an `any` clause, or both. -/
inductive MatchNode where
  | condition (field : MatchField) (op : MatchOp) (value : Text)
  | group (all any : Option (List MatchNode))

inductive RuleActionType where
  | moveToFolder | label | archive | trash | markRead | stop
  deriving DecidableEq

structure RuleAction where
  type : RuleActionType
  value : Option Text := none
  deriving DecidableEq

/-- The columns of a rule that are read. -/
structure MailRuleRow where
  id : String
  workspaceId : String
  mailboxId : String
  enabled : Bool
  priority : ℤ
  match? : MatchNode
  actions : List RuleAction

/-! ### Matching -/

/-- The part of an address after its last `@`. -/
def extractDomain (address : Text) : Text :=
  (afterLastAt address).getD []

omit [CaseMapping] in
/-- The values of a field: every recipient is one. -/
def readField (field : MatchField) (msg : InboundMessageRef) : List Text :=
  match field with
  | .sender => [msg.fromAddress.getD []]
  | .recipient => msg.toAddresses.filter (· ≠ [])
  | .subject => [msg.subject.getD []]
  | .fromDomain => [extractDomain (msg.fromAddress.getD [])]

omit [CaseMapping] in
/-- `String.prototype.includes`. -/
def includes (t s : Text) : Bool :=
  t.tails.any fun suffix => s.isPrefixOf suffix

omit [CaseMapping] in
def MatchOp.holds (op : MatchOp) (actual expected : Text) : Bool :=
  match op with
  | .equals => actual = expected
  | .contains => includes actual expected
  | .startsWith => expected.isPrefixOf actual
  | .endsWith => expected.isSuffixOf actual

/-- A condition holds when some value of its field satisfies it, in lower case. -/
def matchesCondition (field : MatchField) (op : MatchOp) (value : Text) (msg : InboundMessageRef) :
    Bool :=
  (readField field msg).any fun actual => op.holds (toLowerCase actual) (toLowerCase value)

mutual

/-- Does a match tree match? Every clause that is there must hold, and an empty one does not. -/
def MatchNode.holds (msg : InboundMessageRef) : MatchNode → Bool
  | .condition field op value => matchesCondition field op value msg
  | .group none none => false
  | .group (some all) none => !all.isEmpty && holdsEvery msg all
  | .group none (some any) => !any.isEmpty && holdsSome msg any
  | .group (some all) (some any) =>
    (!all.isEmpty && holdsEvery msg all) && (!any.isEmpty && holdsSome msg any)

def holdsEvery (msg : InboundMessageRef) : List MatchNode → Bool
  | [] => true
  | child :: children => child.holds msg && holdsEvery msg children

def holdsSome (msg : InboundMessageRef) : List MatchNode → Bool
  | [] => false
  | child :: children => child.holds msg || holdsSome msg children

end

/-! ### Evaluating -/

omit [CaseMapping] in
/-- Do the actions end the evaluation? -/
def stops (actions : List RuleAction) : Bool :=
  actions.any fun a => a.type = .stop

/-- The loop of `evaluateRules`. -/
def evaluateInOrder (msg : InboundMessageRef) : List MailRuleRow → List RuleAction
  | [] => []
  | rule :: rules =>
    if !rule.enabled || !rule.match?.holds msg then evaluateInOrder msg rules
    else if stops rule.actions then rule.actions
    else rule.actions ++ evaluateInOrder msg rules

omit [CaseMapping] in
/-- The rules by priority; those of equal priority stay in their order. -/
def byPriority (rules : List MailRuleRow) : List MailRuleRow :=
  rules.insertionSort fun a b => a.priority ≤ b.priority

/-- The actions of the rules for a message. -/
def evaluateRules (rules : List MailRuleRow) (msg : InboundMessageRef) : List RuleAction :=
  evaluateInOrder msg (byPriority rules)

/-- The rules that fired, found by evaluating them one by one. -/
def matchedIds (msg : InboundMessageRef) : List MailRuleRow → List String
  | [] => []
  | rule :: rules =>
    match evaluateRules [rule] msg with
    | [] => matchedIds msg rules
    | actions => if stops actions then [rule.id] else rule.id :: matchedIds msg rules

/-! ### Applying -/

/-- A call of the mail engine about a thread. -/
inductive EngineCall where
  | moveThreadToMailbox (folderId : Text)
  | archiveThread
  | trashThread
  | setThreadRead
  deriving DecidableEq

omit [CaseMapping] in
/-- The engine call of an action: none for `LABEL`, `STOP` and a move without a folder. -/
def RuleAction.call? (action : RuleAction) : Option EngineCall :=
  match action.type with
  | .moveToFolder =>
    match trim (action.value.getD []) with
    | [] => none
    | folderId => some (.moveThreadToMailbox folderId)
  | .archive => some .archiveThread
  | .trash => some .trashThread
  | .markRead => some .setThreadRead
  | .label | .stop => none

/-- What `applyInbound` does to a message: the engine calls, in order, and then the hit
counters of the rules that fired. -/
structure RulePlan where
  calls : List EngineCall
  matchedIds : List String
  deriving DecidableEq

/-- The decisions of `applyInbound`: nothing when no rule of the mailbox fires. -/
def planRules (workspaceId mailboxId : String) (rules : List MailRuleRow)
    (msg : InboundMessageRef) : Option RulePlan :=
  let usable := rules.filter fun r =>
    r.enabled && r.workspaceId = workspaceId && r.mailboxId = mailboxId
  let sorted := byPriority usable
  match matchedIds msg sorted with
  | [] => none
  | ids => some ⟨(evaluateRules sorted msg).filterMap RuleAction.call?, ids⟩

/-! ### Actions and counters agree -/

end Inbound
end EmailOps
