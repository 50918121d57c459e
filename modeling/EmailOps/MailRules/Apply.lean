import Mathlib.Data.Prod.Lex
import EmailOps.Framework.StableSort
import EmailOps.MailRules.Engine

/-!
# Applying the rules

`evaluateRules` gives the actions of the rules for a message, and `applyInbound` performs them
and bumps the hit counters of the rules that had any. The two walk the rules on their own:
`applyInbound` finds the rules whose counters it bumps by evaluating them one by one.

* `firing` are the rules that fire: the enabled ones that match, by priority, through the first
  that stops. `evaluateRules_eq` and `matchedIds_eq` say what both walks are in terms of it.
* `performActions_eq`: the engine is called for every action it can do, in order.
* `applyInbound_performs` puts these together.
-/

namespace EmailOps
namespace MailRules

open Framework Framework.Text Json

export Inbound (RuleAction RuleActionType EngineCall stops)

/-! ### Actions -/

/-- `ACTION_TYPES`. -/
def actionTypes : List (Text × RuleActionType) :=
  [("MOVE_TO_FOLDER".toList, .moveToFolder), ("LABEL".toList, .label), ("ARCHIVE".toList, .archive),
    ("TRASH".toList, .trash), ("MARK_READ".toList, .markRead), ("STOP".toList, .stop)]

def parseAction : Json → Option RuleAction
  | .obj fields =>
    match oneOf actionTypes (Json.get fields "type".toList) with
    | some type =>
      some ⟨type, match Json.get fields "value".toList with
        | some (.str value) => some value
        | _ => none⟩
    | none => none
  | _ => none

/-- The items that are no action are left out. -/
def parseActions : Json → List RuleAction
  | .arr items => items.filterMap parseAction
  | _ => []

/-- The name of a type. -/
def typeName : RuleActionType → Text
  | .moveToFolder => "MOVE_TO_FOLDER".toList
  | .label => "LABEL".toList
  | .archive => "ARCHIVE".toList
  | .trash => "TRASH".toList
  | .markRead => "MARK_READ".toList
  | .stop => "STOP".toList

/-- An action as the object that it is. -/
def actionJson (action : RuleAction) : Json :=
  .obj (("type".toList, .str (typeName action.type)) ::
    (action.value.map fun value => ("value".toList, Json.str value)).toList)

theorem parseAction_actionJson (action : RuleAction) :
    parseAction (actionJson action) = some action := by
  obtain ⟨type, value⟩ := action
  cases value with
  | none => cases type <;> rfl
  | some value => cases type <;> rfl

theorem parseActions_actionJson (actions : List RuleAction) :
    parseActions (.arr (actions.map actionJson)) = actions := by
  rw [parseActions, List.filterMap_map]
  exact (List.filterMap_congr fun a _ => parseAction_actionJson a).trans List.filterMap_some

/-! ### Evaluation -/

/-- A rule as the engine takes it. -/
structure CompiledRule where
  id : String
  enabled : Bool
  priority : ℤ
  match? : Json
  actions : Json

/-- The rules by priority; those of equal priority stay in their order. -/
def byPriority (rules : List CompiledRule) : List CompiledRule :=
  rules.insertionSort fun a b => a.priority ≤ b.priority

section Evaluation

variable [CaseMapping]

/-- The loop of `evaluateRules`. -/
def evaluateInOrder (msg : InboundMessage) : List CompiledRule → List RuleAction
  | [] => []
  | rule :: rules =>
    if !rule.enabled then evaluateInOrder msg rules
    else if !matchesNode msg rule.match? then evaluateInOrder msg rules
    else
      let ruleActions := parseActions rule.actions
      if stops ruleActions then ruleActions else ruleActions ++ evaluateInOrder msg rules

def evaluateRules (rules : List CompiledRule) (msg : InboundMessage) : List RuleAction :=
  evaluateInOrder msg (byPriority rules)

/-- The replay of `applyInbound`: the rules that fired, each evaluated on its own. -/
def matchedIds (msg : InboundMessage) : List CompiledRule → List String
  | [] => []
  | rule :: rules =>
    match evaluateRules [rule] msg with
    | [] => matchedIds msg rules
    | ruleActions =>
      if stops ruleActions then [rule.id] else rule.id :: matchedIds msg rules

/-! ### The rules that fire -/

/-- Is a rule enabled, and does it match? -/
def fires (msg : InboundMessage) (rule : CompiledRule) : Bool :=
  rule.enabled && matchesNode msg rule.match?

omit [CaseMapping] in
/-- The rules through the first that stops. -/
def throughStop : List CompiledRule → List CompiledRule
  | [] => []
  | rule :: rules => rule :: if stops (parseActions rule.actions) then [] else throughStop rules

/-- The rules that fire for a message. -/
def firing (msg : InboundMessage) (rules : List CompiledRule) : List CompiledRule :=
  throughStop ((byPriority rules).filter (fires msg))

/-- The rules that fire and have an action. -/
def contributing (msg : InboundMessage) (rules : List CompiledRule) : List CompiledRule :=
  (firing msg rules).filter fun rule => parseActions rule.actions ≠ []

variable {msg : InboundMessage} {rules : List CompiledRule}

theorem evaluateInOrder_eq : evaluateInOrder msg rules =
    (throughStop (rules.filter (fires msg))).flatMap fun rule => parseActions rule.actions := by
  induction rules with
  | nil => rfl
  | cons rule rules ih =>
    rw [evaluateInOrder, List.filter_cons, fires]
    cases rule.enabled with
    | false => exact ih
    | true =>
      cases matchesNode msg rule.match? with
      | false => exact ih
      | true =>
        change (if stops (parseActions rule.actions) then _ else _) = _
        rw [Bool.true_and, if_pos rfl, throughStop, List.flatMap_cons]
        split
        · rw [List.flatMap_nil, List.append_nil]
        · rw [ih]

/-- **The actions are those of the rules that fire.** -/
theorem evaluateRules_eq : evaluateRules rules msg =
    (firing msg rules).flatMap fun rule => parseActions rule.actions :=
  evaluateInOrder_eq

theorem evaluateRules_singleton (rule : CompiledRule) :
    evaluateRules [rule] msg = if fires msg rule then parseActions rule.actions else [] := by
  rw [evaluateRules_eq, firing, byPriority, List.insertionSort_cons, List.insertionSort_nil,
    List.orderedInsert_nil, List.filter_cons, List.filter_nil]
  split
  · rw [throughStop, throughStop, ite_self, List.flatMap_cons, List.flatMap_nil, List.append_nil]
  · rfl

/-- **The rules that are counted are those that fire and have an action.** -/
theorem matchedIds_eq : matchedIds msg rules =
    ((throughStop (rules.filter (fires msg))).filter fun rule =>
      parseActions rule.actions ≠ []).map (·.id) := by
  induction rules with
  | nil => rfl
  | cons rule rules ih =>
    rw [matchedIds, evaluateRules_singleton, List.filter_cons]
    by_cases hfires : fires msg rule = true
    · rw [if_pos hfires, if_pos hfires, throughStop, List.filter_cons]
      cases hactions : parseActions rule.actions with
      | nil =>
        -- A rule without an action neither stops nor counts.
        simpa [stops] using ih
      | cons action actions =>
        rw [if_pos (by simp)]
        change (if stops (action :: actions) then _ else _) = _
        split
        · rfl
        · rw [ih, List.map_cons]
    · rw [if_neg hfires, if_neg hfires]
      exact ih

/-! ### Sorting and leaving rules out -/

omit [CaseMapping] in
theorem byPriority_pairwise (rules : List CompiledRule) :
    (byPriority rules).Pairwise fun a b => a.priority ≤ b.priority :=
  List.pairwise_insertionSort _ rules

omit [CaseMapping] in
theorem byPriority_byPriority (rules : List CompiledRule) :
    byPriority (byPriority rules) = byPriority rules :=
  (byPriority_pairwise rules).insertionSort_eq

omit [CaseMapping] in
/-- Rules may be left out before they are sorted. -/
theorem filter_byPriority (p : CompiledRule → Bool) (rules : List CompiledRule) :
    (byPriority rules).filter p = byPriority (rules.filter p) := by
  refine ((StableSort.insertionSort_eq_iff ((byPriority_pairwise rules).filter p)).mpr ?_).symm
  intro k
  calc ((rules.filter p).filter (·.priority = k))
      = (rules.filter (·.priority = k)).filter p := List.filter_comm _ _ _
    _ = ((byPriority rules).filter (·.priority = k)).filter p := by
        rw [byPriority, StableSort.filter_insertionSort]
    _ = ((byPriority rules).filter p).filter (·.priority = k) := List.filter_comm _ _ _

theorem firing_enabled (msg : InboundMessage) (rules : List CompiledRule) :
    throughStop ((byPriority (rules.filter (·.enabled))).filter (fires msg)) = firing msg rules := by
  unfold firing
  rw [filter_byPriority, filter_byPriority, List.filter_filter]
  congr 3
  funext rule
  unfold fires
  cases rule.enabled <;> simp

end Evaluation

/-! ### Applying -/

/-- The columns of a rule that are read and written here. -/
structure MailRuleRow where
  id : String
  workspaceId : String
  mailboxId : String
  enabled : Bool
  priority : ℤ
  createdAt : ℕ
  match? : Json
  actions : Json
  hitCount : ℕ
  lastHitAt : Option ℕ

/-- What the watcher hands over about a message. -/
structure InboundRuleMessage where
  threadId : String
  fromAddress : Option Text
  toAddresses : Option (List Text)
  subject : Option Text

structure ApplyInboundSummary where
  matched : ℕ
  applied : ℕ
  deriving DecidableEq

/-- What the engine answers to a call: it may decline, and it may throw. -/
inductive EngineAnswer where
  | done | declined | failed
  deriving DecidableEq

/-- The mail engine, with a state of its own. A call is about a thread of a mailbox. -/
structure StalwartPort (σ : Type*) where
  call : σ → Text → String → EngineCall → EngineAnswer × σ

/-- The database at the time: the table of rules, and whether it fails. -/
structure RuleStore where
  table : List MailRuleRow
  readFails : Bool
  writeFails : Bool
  now : ℕ

section Applying

variable {σ : Type*} (port : StalwartPort σ) (mailboxEmail : Text) (threadId : String)

/-- What the loop over the actions leaves. -/
structure Performed (σ : Type*) where
  performed : List RuleAction
  applied : ℕ
  engine : σ

/-- The loop over the actions. An action that `executeAction` has no call for is skipped, and
a failure does not end the loop. -/
def performActions : List RuleAction → σ → Performed σ
  | [], s => ⟨[], 0, s⟩
  | action :: actions, s =>
    if action.type = .stop then performActions actions s
    else
      match action.call? with
      | none => performActions actions s
      | some call =>
        let (answer, s') := port.call s mailboxEmail threadId call
        let rest := performActions actions s'
        ⟨action :: rest.performed, if answer = .done then rest.applied + 1 else rest.applied,
          rest.engine⟩

/-- Has an action an effect at the engine? -/
def executable (action : RuleAction) : Bool :=
  action.call?.isSome

/-- **The engine is called for every action that it can do, in order.** -/
theorem performActions_eq (actions : List RuleAction) (s : σ) :
    (performActions port mailboxEmail threadId actions s).performed = actions.filter executable ∧
      (performActions port mailboxEmail threadId actions s).engine =
        (actions.filterMap (·.call?)).foldl
          (fun s call => (port.call s mailboxEmail threadId call).2) s := by
  induction actions generalizing s with
  | nil => exact ⟨rfl, rfl⟩
  | cons action actions ih =>
    rw [performActions, List.filter_cons, List.filterMap_cons]
    by_cases hstop : action.type = .stop
    · have hcall : action.call? = none := by
        rw [Inbound.RuleAction.call?, hstop]
      rw [if_pos hstop, executable, hcall]
      exact ih s
    · rw [if_neg hstop, executable]
      cases action.call? with
      | none => exact ih s
      | some call =>
        obtain ⟨hperformed, hengine⟩ := ih (port.call s mailboxEmail threadId call).2
        exact ⟨congrArg (action :: ·) hperformed, hengine⟩

end Applying

def compile (row : MailRuleRow) : CompiledRule where
  id := row.id
  enabled := row.enabled
  priority := row.priority
  match? := (parseMatch row.match?).toJson
  actions := .arr ((parseActions row.actions).map actionJson)

/-- The message as the rules see it: the mailbox's own address does not stand in for the
header. -/
def InboundRuleMessage.toInbound (msg : InboundRuleMessage) : InboundMessage where
  fromAddress := msg.fromAddress.getD []
  toAddress := []
  toAddresses := some (msg.toAddresses.getD [])
  subject := msg.subject.getD []

section Store

variable (workspaceId mailboxId : String)

/-- Is a row one of the mailbox? -/
def own (row : MailRuleRow) : Bool :=
  row.workspaceId = workspaceId && row.mailboxId = mailboxId

/-- The load of the rules when none were handed over. -/
def loadRules (store : RuleStore) : Option (List MailRuleRow) :=
  if store.readFails then none
  else
    some ((store.table.filter fun row => own workspaceId mailboxId row && row.enabled).insertionSort
      fun a b => toLex (a.priority, a.createdAt) ≤ toLex (b.priority, b.createdAt))

def rowsFor (store : RuleStore) (preloadedRules : Option (List MailRuleRow)) :
    Option (List MailRuleRow) :=
  match preloadedRules with
  | some rows => some rows
  | none => loadRules workspaceId mailboxId store

/-- The write of the hit counters: those of the rules of the mailbox among the ids. -/
def bumpHits (ids : List String) (store : RuleStore) : List MailRuleRow :=
  if store.writeFails then store.table
  else
    store.table.map fun row =>
      if row.id ∈ ids && own workspaceId mailboxId row then
        { row with hitCount := row.hitCount + 1, lastHitAt := some store.now }
      else row

/-- What `applyInbound` leaves: its answer, the actions it called the engine for, the engine
and the table. -/
structure RuleRun (σ : Type*) where
  summary : ApplyInboundSummary
  performed : List RuleAction
  engine : σ
  table : List MailRuleRow

def applyInbound [CaseMapping] {σ : Type*} (port : StalwartPort σ) (mailboxEmail : Text)
    (msg : InboundRuleMessage) (preloadedRules : Option (List MailRuleRow)) (store : RuleStore)
    (s : σ) : RuleRun σ :=
  let none : RuleRun σ := ⟨⟨0, 0⟩, [], s, store.table⟩
  match rowsFor workspaceId mailboxId store preloadedRules with
  | .none => none
  | some rows =>
    let usable := rows.filter fun row => row.enabled && own workspaceId mailboxId row
    if usable.isEmpty then none
    else
      let sorted := byPriority (usable.map compile)
      let actions := evaluateRules sorted msg.toInbound
      match matchedIds msg.toInbound sorted with
      | [] => none
      | ids =>
        let done := performActions port mailboxEmail msg.threadId actions s
        ⟨⟨ids.length, done.applied⟩, done.performed, done.engine,
          bumpHits workspaceId mailboxId ids store⟩

/-! ### What is applied -/

/-- The rules of the mailbox among the rows. -/
def ownRules (rows : List MailRuleRow) : List CompiledRule :=
  (rows.filter (own workspaceId mailboxId)).map compile

theorem bumpHits_nil (store : RuleStore) : bumpHits workspaceId mailboxId [] store = store.table := by
  unfold bumpHits
  split
  · rfl
  · simp

theorem compile_usable (rows : List MailRuleRow) :
    (rows.filter fun row => row.enabled && own workspaceId mailboxId row).map compile =
      (ownRules workspaceId mailboxId rows).filter (·.enabled) := by
  rw [ownRules, List.filter_map, List.filter_filter]
  rfl

section Runs

variable [CaseMapping] {σ : Type*} (port : StalwartPort σ) (mailboxEmail : Text)
  (msg : InboundRuleMessage) (preloadedRules : Option (List MailRuleRow)) (store : RuleStore) (s : σ)
  {rows : List MailRuleRow}

/-- `applyInbound`, in terms of the rules that fire. -/
theorem applyInbound_eq (hrows : rowsFor workspaceId mailboxId store preloadedRules = some rows) :
    applyInbound workspaceId mailboxId port mailboxEmail msg preloadedRules store s =
      let rules := ownRules workspaceId mailboxId rows
      let done := performActions port mailboxEmail msg.threadId (evaluateRules rules msg.toInbound) s
      let counted := contributing msg.toInbound rules
      if counted = [] then ⟨⟨0, 0⟩, [], s, store.table⟩
      else
        ⟨⟨counted.length, done.applied⟩, done.performed, done.engine,
          bumpHits workspaceId mailboxId (counted.map (·.id)) store⟩ := by
  unfold applyInbound
  rw [hrows]
  simp only [List.isEmpty_iff, compile_usable]
  -- Both walks go through the rules that fire.
  have hfiring := firing_enabled msg.toInbound (ownRules workspaceId mailboxId rows)
  have hactions : evaluateRules (byPriority ((ownRules workspaceId mailboxId rows).filter (·.enabled)))
      msg.toInbound = evaluateRules (ownRules workspaceId mailboxId rows) msg.toInbound := by
    rw [evaluateRules_eq, evaluateRules_eq, firing, byPriority_byPriority, hfiring]
  have hids : matchedIds msg.toInbound
      (byPriority ((ownRules workspaceId mailboxId rows).filter (·.enabled))) =
        (contributing msg.toInbound (ownRules workspaceId mailboxId rows)).map (·.id) := by
    rw [matchedIds_eq, hfiring]
    rfl
  rw [hactions, hids]
  by_cases hempty : (rows.filter fun row => row.enabled && own workspaceId mailboxId row) = []
  · -- Without a usable rule none fires.
    have hnone : contributing msg.toInbound (ownRules workspaceId mailboxId rows) = [] := by
      rw [contributing, ← hfiring, ← compile_usable, hempty]
      rfl
    rw [if_pos hempty, if_pos hnone]
  · rw [if_neg hempty]
    cases contributing msg.toInbound (ownRules workspaceId mailboxId rows) with
    | nil => rfl
    | cons rule counted => simp

theorem evaluateRules_eq_nil {rules : List CompiledRule} {inbound : InboundMessage}
    (h : contributing inbound rules = []) : evaluateRules rules inbound = [] := by
  rw [evaluateRules_eq]
  refine List.flatMap_eq_nil_iff.mpr fun rule hrule => ?_
  have hnot := List.filter_eq_nil_iff.mp h rule hrule
  simpa using hnot

theorem performed_eq (hrows : rowsFor workspaceId mailboxId store preloadedRules = some rows) :
    (applyInbound workspaceId mailboxId port mailboxEmail msg preloadedRules store s).performed =
      (evaluateRules (ownRules workspaceId mailboxId rows) msg.toInbound).filter executable := by
  rw [applyInbound_eq workspaceId mailboxId port mailboxEmail msg preloadedRules store s hrows]
  dsimp only
  split
  · next hempty => rw [evaluateRules_eq_nil hempty, List.filter_nil]
  · exact (performActions_eq port mailboxEmail msg.threadId _ s).1

/-- The state that the calls leave the engine in. -/
theorem engine_eq (hrows : rowsFor workspaceId mailboxId store preloadedRules = some rows) :
    (applyInbound workspaceId mailboxId port mailboxEmail msg preloadedRules store s).engine =
      ((evaluateRules (ownRules workspaceId mailboxId rows) msg.toInbound).filterMap (·.call?)).foldl
        (fun s call => (port.call s mailboxEmail msg.threadId call).2) s := by
  rw [applyInbound_eq workspaceId mailboxId port mailboxEmail msg preloadedRules store s hrows]
  dsimp only
  split
  · next hempty => rw [evaluateRules_eq_nil hempty, List.filterMap_nil, List.foldl_nil]
  · exact (performActions_eq port mailboxEmail msg.threadId _ s).2

/-- **What is applied is what is evaluated**: of the actions of the rules that fire, those that
the engine can do, in order, and the counters of the rules that fire and have an action. -/
theorem applyInbound_performs
    (hrows : rowsFor workspaceId mailboxId store preloadedRules = some rows) :
    let run := applyInbound workspaceId mailboxId port mailboxEmail msg preloadedRules store s
    let rules := ownRules workspaceId mailboxId rows
    let actions := evaluateRules rules msg.toInbound
    run.performed = actions.filter executable ∧
      run.engine = (actions.filterMap (·.call?)).foldl
        (fun s call => (port.call s mailboxEmail msg.threadId call).2) s ∧
      actions = (firing msg.toInbound rules).flatMap (fun rule => parseActions rule.actions) ∧
      run.table = bumpHits workspaceId mailboxId
        ((contributing msg.toInbound rules).map (·.id)) store := by
  refine ⟨performed_eq workspaceId mailboxId port mailboxEmail msg preloadedRules store s hrows,
    engine_eq workspaceId mailboxId port mailboxEmail msg preloadedRules store s hrows,
    evaluateRules_eq, ?_⟩
  rw [applyInbound_eq workspaceId mailboxId port mailboxEmail msg preloadedRules store s hrows]
  dsimp only
  split
  · next hempty => rw [hempty, List.map_nil, bumpHits_nil]
  · rfl

end Runs

end Store

/-! ### A rule that stops first -/

/-- A rule whose first action stops and whose second the engine cannot do. -/
def stoppingRow : MailRuleRow where
  id := "r"
  workspaceId := "w"
  mailboxId := "m"
  enabled := true
  priority := 10
  createdAt := 0
  match? := .obj [("all".toList, .arr [
    .obj [("field".toList, .str "from".toList), ("op".toList, .str "contains".toList),
      ("value".toList, .str "alice".toList)]])]
  actions := .arr ([⟨.stop, none⟩, ⟨.label, some "Finance".toList⟩, ⟨.archive, none⟩].map actionJson)
  hitCount := 0
  lastHitAt := none

def aliceWrote : InboundRuleMessage where
  threadId := "t"
  fromAddress := some "alice@acme.com".toList
  toAddresses := some []
  subject := none

/-- An engine that does all it is asked for. -/
def willingPort : StalwartPort Unit where
  call _ _ _ _ := (.done, ())

theorem fires_stoppingRow : fires aliceWrote.toInbound (compile stoppingRow) = true := by
  rw [fires, matchesNode_eq_eval]
  decide

theorem evaluateRules_stoppingRow : evaluateRules (ownRules "w" "m" [stoppingRow])
    aliceWrote.toInbound = [⟨.stop, none⟩, ⟨.label, some "Finance".toList⟩, ⟨.archive, none⟩] := by
  have hown : ownRules "w" "m" [stoppingRow] = [compile stoppingRow] := rfl
  rw [hown, evaluateRules_singleton, if_pos fires_stoppingRow]
  exact (parseActions_actionJson _).trans (parseActions_actionJson _)

/-- The actions after the first `STOP` are returned, and of what is returned only the last is
performed. -/
theorem applyInbound_stoppingRow :
    let store : RuleStore := ⟨[stoppingRow], false, false, 0⟩
    let actions := evaluateRules (ownRules "w" "m" [stoppingRow]) aliceWrote.toInbound
    let run := applyInbound "w" "m" willingPort [] aliceWrote (some [stoppingRow]) store ()
    run.performed ≠ actions ∧
      ¬ ∀ before after, actions = before ++ ⟨.stop, none⟩ :: after → after = [] := by
  intro store actions run
  have hactions : actions = _ := evaluateRules_stoppingRow
  have hperformed : run.performed = actions.filter executable :=
    performed_eq "w" "m" willingPort [] aliceWrote (some [stoppingRow]) store () rfl
  rw [hperformed, hactions]
  constructor
  · decide
  · intro h
    cases h [] _ rfl

/-- The rule archives the thread, and its counter is bumped. -/
theorem applyInbound_archives :
    let store : RuleStore := ⟨[stoppingRow], false, false, 0⟩
    let run := applyInbound "w" "m" willingPort [] aliceWrote none store ()
    run.performed = [⟨.archive, none⟩] ∧ run.table.map (·.hitCount) = [1] := by
  intro store run
  have hload : rowsFor "w" "m" store none = some [stoppingRow] := rfl
  obtain ⟨hperformed, -, -, htable⟩ :=
    applyInbound_performs "w" "m" willingPort [] aliceWrote none store () hload
  have hcounted : contributing aliceWrote.toInbound (ownRules "w" "m" [stoppingRow]) =
      [compile stoppingRow] := by
    have hfires := fires_stoppingRow
    change ((throughStop ([compile stoppingRow].filter (fires aliceWrote.toInbound))).filter _) = _
    rw [List.filter_cons, if_pos hfires]
    rfl
  rw [evaluateRules_stoppingRow] at hperformed
  rw [hcounted] at htable
  exact ⟨hperformed.trans (by decide), (congrArg (List.map (·.hitCount)) htable).trans rfl⟩

end MailRules
end EmailOps
