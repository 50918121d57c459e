import EmailOps.Framework.System
import EmailOps.Framework.Utf16
import EmailOps.MailRules.Apply
import EmailOps.MailRules.Grammar

/-!
# The rule editor

The mail client edits rules in a form with one flat list of conditions, one destination, and two
switches. A rule is opened as a form, which leaves out what the form cannot hold, and the form is
saved as a rule.

* `flattenSimpleMatch`, `openEdit` and `submitRule` are the client's, `compileBody` and `view` the
  server's.
* `editor` is the form under the user's edits, and `Formed` what holds of it throughout.
* `saved_form`: a form that the client lets pass is accepted if it has at most ten conditions, and
  opens again as it was.
-/

namespace EmailOps
namespace RuleEditor

open Framework Framework.Text Json MailRules

/-- `RULE_NAME_MAX` -/
def ruleNameMax : ℕ := 120

/-- `MAX_RULES_PER_MAILBOX` -/
def maxRulesPerMailbox : ℕ := 100

/-! ### The server -/

/-- The columns of a rule that the form is about. A body has the same, before they are checked. -/
structure MailRule where
  name : Text
  match? : Json
  actions : Json

def normalizeName (raw : Text) : Except Text Text :=
  let name := trim raw
  if (utf16 name).length < 1 ∨ ruleNameMax < (utf16 name).length then
    .error "name must be 1..120 characters.".toList
  else .ok name

def compileActions (raw : Json) : Except Text (List RuleAction) :=
  let actions := parseActions raw
  if actions = [] then .error "actions must contain at least one valid action".toList
  else if actions.any (·.type = .label) then .error "LABEL is not supported yet".toList
  else if actions.all (·.type = .stop) then
    .error "actions must include at least one effectful action (not only STOP)".toList
  else .ok actions

/-- The checks of `create` and `update`, and what they store. -/
def compileBody (body : MailRule) : Except Text MailRule := do
  let name ← normalizeName body.name
  let node ← compileMatch body.match?
  let actions ← compileActions body.actions
  return ⟨name, node.toJson, .arr (actions.map actionJson)⟩

structure MailRuleView where
  name : Text
  match? : MatchNode
  actions : List RuleAction

def view (rule : MailRule) : MailRuleView :=
  ⟨rule.name, parseMatch rule.match?, parseActions rule.actions⟩

/-! ### The form -/

inductive RuleMatchMode where
  | all | any
  deriving DecidableEq

/-- A condition of the form. -/
structure ConditionRow where
  field : Text
  op : Text
  value : Text
  deriving DecidableEq

inductive Destination where
  | inbox | move | archive | trash
  deriving DecidableEq

structure RuleForm where
  name : Text
  matchMode : RuleMatchMode
  rows : List ConditionRow
  destination : Destination
  folderId : Text
  markRead : Bool
  stopAfter : Bool
  /-- The rule has a match that the form cannot hold. -/
  advanced : Bool

/-- The condition that a child is, by its types alone. -/
def ruleCondition? : Json → Option ConditionRow
  | .obj fields =>
    match Json.get fields "field".toList, Json.get fields "op".toList,
        Json.get fields "value".toList with
    | some (.str field), some (.str op), some (.str value) => some ⟨field, op, value⟩
    | _, _, _ => none
  | _ => none

/-- `isRuleCondition` -/
def isRuleCondition (child : Json) : Bool :=
  (ruleCondition? child).isSome

structure SimpleMatch where
  mode : RuleMatchMode
  conditions : List ConditionRow

def flattenSimpleMatch (node : MatchNode) : Option SimpleMatch :=
  if node.both then none
  else if node.items.all isRuleCondition then
    some ⟨if node.any.isSome then .any else .all, node.items.filterMap ruleCondition?⟩
  else none

def makeRow : ConditionRow :=
  ⟨"from".toList, "contains".toList, []⟩

def openCreate : RuleForm :=
  ⟨[], .all, [makeRow], .inbox, [], false, true, false⟩

/-- The loop of `openEdit`: of the destinations the first one is kept. -/
def seedAction (form : RuleForm) (action : RuleAction) : RuleForm :=
  match action.type with
  | .moveToFolder =>
    if form.destination = .inbox then
      { form with destination := .move, folderId := action.value.getD [] }
    else form
  | .archive => if form.destination = .inbox then { form with destination := .archive } else form
  | .trash => if form.destination = .inbox then { form with destination := .trash } else form
  | .markRead => { form with markRead := true }
  | .stop => { form with stopAfter := true }
  | .label => form

/-- The form of a rule, before its actions. -/
def seedMatch (rule : MailRuleView) : RuleForm :=
  match flattenSimpleMatch rule.match? with
  | some simple =>
    ⟨rule.name, simple.mode, if simple.conditions = [] then [makeRow] else simple.conditions,
      .inbox, [], false, false, false⟩
  | none => ⟨rule.name, .all, [makeRow], .inbox, [], false, false, true⟩

def openEdit (rule : MailRuleView) : RuleForm :=
  rule.actions.foldl seedAction (seedMatch rule)

/-! ### Saving -/

def ConditionRow.tidied (row : ConditionRow) : ConditionRow :=
  { row with value := trim row.value }

def ConditionRow.toJson (row : ConditionRow) : Json :=
  .obj [("field".toList, .str row.field), ("op".toList, .str row.op),
    ("value".toList, .str row.value)]

/-- The action of the destination. -/
def RuleForm.moves (form : RuleForm) : List RuleAction :=
  match form.destination with
  | .inbox => []
  | .move => [⟨.moveToFolder, some form.folderId⟩]
  | .archive => [⟨.archive, none⟩]
  | .trash => [⟨.trash, none⟩]

/-- The actions, in their order on the wire. -/
def RuleForm.actions (form : RuleForm) : List RuleAction :=
  form.moves ++ ((if form.markRead then [⟨.markRead, none⟩] else []) ++
    if form.stopAfter then [⟨.stop, none⟩] else [])

def RuleForm.match? (form : RuleForm) : Json :=
  let conditions := form.rows.map fun row => row.tidied.toJson
  match form.matchMode with
  | .any => .obj [("any".toList, .arr conditions)]
  | .all => .obj [("all".toList, .arr conditions)]

/-- `submitRule`, up to its request; `count` is the number of the rules there are. -/
def submitRule (editing : Bool) (count : ℕ) (form : RuleForm) : Except Text MailRule :=
  let trimmedName := trim form.name
  if trimmedName = [] then .error "Give this rule a name.".toList
  else if ruleNameMax < (utf16 trimmedName).length then
    .error "Keep the name under 120 characters.".toList
  else if form.rows.any fun row => row.tidied.value = [] then
    .error "Every condition needs a value.".toList
  else if form.destination = .move ∧ form.folderId = [] then
    .error "Choose a folder to move matching mail into.".toList
  else if form.destination = .inbox ∧ form.markRead = false then
    .error ("Pick a destination or turn on “Mark as read” — otherwise this rule wouldn’t do " ++
      "anything.").toList
  else if editing = false ∧ maxRulesPerMailbox ≤ count then
    .error "This mailbox already has 100 rules — delete one first.".toList
  else .ok ⟨trimmedName, form.match?, .arr (form.actions.map actionJson)⟩

/-! ### Editing -/

/-- What the user does to a form. Parts and comparisons are chosen from lists. -/
inductive Edit where
  | name (name : Text)
  | mode (mode : RuleMatchMode)
  | addRow
  | removeRow (i : ℕ)
  | field (i : ℕ) (field : Text × MatchField)
  | op (i : ℕ) (op : Text × MatchOp)
  | value (i : ℕ) (value : Text)
  | destination (destination : Destination)
  | folder (id : Text)
  | markRead (on : Bool)
  | stopAfter (on : Bool)

def edit (form : RuleForm) : Edit → Option RuleForm
  | .name name => some { form with name }
  | .mode matchMode => some { form with matchMode }
  | .addRow =>
    if form.rows.length < maxMatchConditionsPerGroup then
      some { form with rows := form.rows ++ [makeRow] }
    else none
  | .removeRow i =>
    if 1 < form.rows.length then some { form with rows := form.rows.eraseIdx i } else none
  | .field i field =>
    if field ∈ matchFields then
      some { form with rows := form.rows.modify i fun row => { row with field := field.1 } }
    else none
  | .op i op =>
    if op ∈ matchOps then
      some { form with rows := form.rows.modify i fun row => { row with op := op.1 } }
    else none
  | .value i value =>
    some { form with rows := form.rows.modify i fun row => { row with value } }
  | .destination destination => some { form with destination }
  | .folder folderId => some { form with folderId }
  | .markRead markRead => some { form with markRead }
  | .stopAfter stopAfter => some { form with stopAfter }

/-- The form under the user's edits, from an empty one or that of a rule. -/
def editor : System RuleForm Edit where
  init form := form = openCreate ∨ ∃ rule, form = openEdit (view rule)
  step := edit

/-! ### Conditions -/

/-- A row that the server takes for a condition. -/
def ConditionRow.Valid (row : ConditionRow) : Prop :=
  isCondition row.toJson = true

/-- What the server reads of a row: no condition, unless it knows the field and the operator. -/
theorem condition?_toJson (row : ConditionRow) :
    condition? row.toJson = (matchFields.lookup row.field).bind fun field =>
      (matchOps.lookup row.op).map fun op => ⟨field, op, row.value⟩ := by
  let fields : List (Text × Json) := [("field".toList, .str row.field),
    ("op".toList, .str row.op), ("value".toList, .str row.value)]
  have hfield : oneOf matchFields (Json.get fields "field".toList) =
      matchFields.lookup row.field := rfl
  have hop : oneOf matchOps (Json.get fields "op".toList) = matchOps.lookup row.op := rfl
  have hvalue : Json.get fields "value".toList = some (.str row.value) := rfl
  show condition? (.obj fields) = _
  rw [condition?, hfield, hop, hvalue]
  cases matchFields.lookup row.field with
  | none => rfl
  | some field => cases matchOps.lookup row.op <;> rfl

theorem ConditionRow.valid_iff (row : ConditionRow) : row.Valid ↔
    (matchFields.lookup row.field).isSome = true ∧ (matchOps.lookup row.op).isSome = true := by
  rw [ConditionRow.Valid, isCondition, condition?_toJson]
  cases matchFields.lookup row.field with
  | none => simp
  | some field => simp

theorem ConditionRow.Valid.tidied {row : ConditionRow} (h : row.Valid) : row.tidied.Valid :=
  row.tidied.valid_iff.mpr (row.valid_iff.mp h)

/-- The server reads of a child what the client has read. -/
theorem condition?_of_ruleCondition {child : Json} {row : ConditionRow}
    (h : ruleCondition? child = some row) : condition? child = condition? row.toJson := by
  cases child with
  | obj fields =>
    rw [ruleCondition?] at h
    split at h
    · next field op value hfield hop hvalue =>
      obtain rfl := Option.some.inj h
      rw [condition?, hfield, hop, hvalue]
      rfl
    · cases h
  | _ => cases h

theorem ruleCondition?_node (node : MatchNode) : ruleCondition? node.toJson = none := by
  obtain ⟨fields, hjson, -, -, hfield⟩ := toJson_eq node
  rw [hjson, ruleCondition?, hfield]

theorem valid_of_child {raw child : Json} {node : MatchNode} (h : parseMatchNode raw = some node)
    (hchild : child ∈ node.items) {row : ConditionRow} (hrow : ruleCondition? child = some row) :
    row.Valid := by
  rcases child_cases h (node.items_subset hchild) with ⟨hcondition, -⟩ | ⟨-, -, -, node', -, rfl⟩
  · rw [isCondition, condition?_of_ruleCondition hrow] at hcondition
    exact hcondition
  · rw [ruleCondition?_node] at hrow
    cases hrow

/-! ### What the form keeps of a rule -/

theorem flattenSimpleMatch_eq_some {node : MatchNode} {simple : SimpleMatch} :
    flattenSimpleMatch node = some simple ↔ node.both = false ∧
      (∀ child ∈ node.items, isRuleCondition child = true) ∧
      simple = ⟨if node.any.isSome then .any else .all, node.items.filterMap ruleCondition?⟩ := by
  rw [flattenSimpleMatch]
  cases node.both with
  | true => exact iff_of_false nofun fun h => absurd h.1 nofun
  | false =>
    rw [if_neg Bool.false_ne_true, Option.ite_none_right_eq_some, List.all_eq_true,
      Option.some.injEq]
    exact ⟨fun h => ⟨rfl, h.1, h.2.symm⟩, fun h => ⟨h.2.1, h.2.2.symm⟩⟩

/-- The conditions of the form of a rule are valid. -/
theorem valid_of_flatten {raw : Json} {simple : SimpleMatch}
    (h : flattenSimpleMatch (parseMatch raw) = some simple) : ∀ row ∈ simple.conditions, row.Valid := by
  obtain ⟨-, -, rfl⟩ := flattenSimpleMatch_eq_some.mp h
  intro row hrow
  obtain ⟨child, hchild, hread⟩ := List.mem_filterMap.mp hrow
  cases hparse : parseMatchNode raw with
  | none =>
    rw [parseMatch, hparse] at hchild
    cases hchild
  | some node =>
    rw [parseMatch, hparse] at hchild
    exact valid_of_child hparse hchild hread

/-- The actions of a rule change neither the name nor the conditions. -/
theorem foldl_seedAction (actions : List RuleAction) (form : RuleForm) :
    (actions.foldl seedAction form).name = form.name ∧
      (actions.foldl seedAction form).matchMode = form.matchMode ∧
      (actions.foldl seedAction form).rows = form.rows := by
  induction actions generalizing form with
  | nil => exact ⟨rfl, rfl, rfl⟩
  | cons action actions ih =>
    obtain ⟨hname, hmode, hrows⟩ := ih (seedAction form action)
    have hstep : (seedAction form action).name = form.name ∧
        (seedAction form action).matchMode = form.matchMode ∧
        (seedAction form action).rows = form.rows := by
      rw [seedAction]
      split
      · split <;> exact ⟨rfl, rfl, rfl⟩
      · split <;> exact ⟨rfl, rfl, rfl⟩
      · split <;> exact ⟨rfl, rfl, rfl⟩
      all_goals exact ⟨rfl, rfl, rfl⟩
    exact ⟨hname.trans hstep.1, hmode.trans hstep.2.1, hrows.trans hstep.2.2⟩

/-- A form has a row, and its rows are valid. -/
structure Formed (form : RuleForm) : Prop where
  ne : form.rows ≠ []
  valid : ∀ row ∈ form.rows, row.Valid

theorem valid_makeRow : makeRow.Valid :=
  rfl

theorem formed_makeRow {form : RuleForm} (h : form.rows = [makeRow]) : Formed form where
  ne := h ▸ List.cons_ne_nil _ _
  valid row hrow := by
    rw [h] at hrow
    exact List.mem_singleton.mp hrow ▸ valid_makeRow

theorem formed_openEdit (rule : MailRule) : Formed (openEdit (view rule)) := by
  have hrows : (openEdit (view rule)).rows = (seedMatch (view rule)).rows :=
    (foldl_seedAction _ _).2.2
  have hseed : Formed (seedMatch (view rule)) := by
    rw [seedMatch]
    split
    · next simple hflat =>
      by_cases hnil : simple.conditions = []
      · exact formed_makeRow (if_pos hnil)
      · exact ⟨by rw [if_neg hnil]; exact hnil,
          by rw [if_neg hnil]; exact valid_of_flatten hflat⟩
    · exact formed_makeRow rfl
  exact ⟨hrows ▸ hseed.ne, hrows ▸ hseed.valid⟩

/-- A row that is edited stays valid. -/
theorem Formed.modify {form form' : RuleForm} (h : Formed form) {i : ℕ}
    {f : ConditionRow → ConditionRow} (hf : ∀ row, row.Valid → (f row).Valid)
    (hrows : form'.rows = form.rows.modify i f) : Formed form' where
  ne hnil := by
    have hlength := congrArg List.length hrows
    rw [hnil, List.length_modify] at hlength
    exact h.ne (List.length_eq_zero_iff.mp hlength.symm)
  valid row hrow := by
    rw [hrows, List.mem_iff_getElem?] at hrow
    obtain ⟨j, hj⟩ := hrow
    rw [List.getElem?_modify] at hj
    obtain ⟨old, hold, hnew⟩ := Option.map_eq_some_iff.mp hj
    have hvalid := h.valid old (List.mem_of_getElem? hold)
    split at hnew
    · exact hnew ▸ hf old hvalid
    · exact hnew ▸ hvalid

theorem Formed.edit {form form' : RuleForm} {e : Edit} (h : Formed form)
    (hedit : edit form e = some form') : Formed form' := by
  cases e with
  | name _ | mode _ | destination _ | folder _ | markRead _ | stopAfter _ =>
    obtain rfl := Option.some.inj hedit
    exact ⟨h.ne, h.valid⟩
  | addRow =>
    obtain ⟨-, hedit⟩ := Option.ite_none_right_eq_some.mp hedit
    obtain rfl := Option.some.inj hedit
    refine ⟨List.append_ne_nil_of_right_ne_nil _ (List.cons_ne_nil _ _), fun row hrow => ?_⟩
    rcases List.mem_append.mp hrow with hrow | hrow
    · exact h.valid row hrow
    · exact List.mem_singleton.mp hrow ▸ valid_makeRow
  | removeRow i =>
    obtain ⟨hmany, hedit⟩ := Option.ite_none_right_eq_some.mp hedit
    obtain rfl := Option.some.inj hedit
    refine ⟨fun hnil => ?_, fun row hrow => h.valid row (List.mem_of_mem_eraseIdx hrow)⟩
    have hlength : (form.rows.eraseIdx i).length = _ := List.length_eraseIdx
    rw [show form.rows.eraseIdx i = [] from hnil, List.length_nil] at hlength
    split at hlength <;> omega
  | field i field =>
    obtain ⟨hfield, hedit⟩ := Option.ite_none_right_eq_some.mp hedit
    obtain rfl := Option.some.inj hedit
    refine h.modify (fun row hrow => ?_) rfl
    obtain ⟨-, hop⟩ := row.valid_iff.mp hrow
    exact ConditionRow.valid_iff _ |>.mpr ⟨List.lookup_isSome_iff.mpr ⟨_, hfield, by simp⟩, hop⟩
  | op i op =>
    obtain ⟨hop, hedit⟩ := Option.ite_none_right_eq_some.mp hedit
    obtain rfl := Option.some.inj hedit
    refine h.modify (fun row hrow => ?_) rfl
    obtain ⟨hfield, -⟩ := row.valid_iff.mp hrow
    exact ConditionRow.valid_iff _ |>.mpr ⟨hfield, List.lookup_isSome_iff.mpr ⟨_, hop, by simp⟩⟩
  | value i value =>
    obtain rfl := Option.some.inj hedit
    exact h.modify (f := fun row => { row with value })
      (fun row hrow => (ConditionRow.valid_iff _).mpr (row.valid_iff.mp hrow)) rfl

theorem formed_of_reachable {form : RuleForm} (h : editor.Reachable form) : Formed form := by
  refine h.invariant ?_ fun _ _ _ _ hform hedit => hform.edit hedit
  rintro _ (rfl | ⟨rule, rfl⟩)
  · exact formed_makeRow rfl
  · exact formed_openEdit rule

/-! ### Saving a form -/

/-- The match of a form, as the node that it is. -/
def RuleForm.node (form : RuleForm) : MatchNode :=
  let conditions := form.rows.map fun row => row.tidied.toJson
  match form.matchMode with
  | .any => { any := some conditions }
  | .all => { all := some conditions }

theorem match_eq (form : RuleForm) : form.match? = form.node.toJson := by
  rw [RuleForm.match?, RuleForm.node]
  cases form.matchMode <;> rfl

theorem items_node (form : RuleForm) :
    form.node.items = form.rows.map fun row => row.tidied.toJson := by
  rw [RuleForm.node]
  cases form.matchMode <;> rfl

/-- The server makes of the match of a form what it is. -/
theorem parse_match {form : RuleForm} (h : ∀ row ∈ form.rows, row.Valid) :
    parseMatchNode form.match? = some form.node := by
  have hkept : (form.rows.map fun row => row.tidied.toJson).filterMap parseMatchChild =
      form.rows.map fun row => row.tidied.toJson := by
    refine (List.filterMap_congr fun child hchild => ?_).trans List.filterMap_some
    obtain ⟨row, hrow, rfl⟩ := List.mem_map.mp hchild
    exact if_pos (h row hrow).tidied
  rw [RuleForm.match?, RuleForm.node]
  cases form.matchMode with
  | all =>
    rw [parseMatchNode_obj]
    exact congrArg (fun items => MatchNode.of (some items) none) hkept
  | any =>
    rw [parseMatchNode_obj]
    exact congrArg (fun items => MatchNode.of none (some items)) hkept

/-- The client makes of the match of a form what it is. -/
theorem flatten_node (form : RuleForm) : flattenSimpleMatch form.node =
    some ⟨form.matchMode, form.rows.map ConditionRow.tidied⟩ := by
  rw [flattenSimpleMatch_eq_some, items_node, List.filterMap_map]
  refine ⟨?_, fun child hchild => ?_, ?_⟩
  · rw [RuleForm.node]
    cases form.matchMode <;> rfl
  · obtain ⟨row, -, rfl⟩ := List.mem_map.mp hchild
    rfl
  · have hrows : form.rows.filterMap (ruleCondition? ∘ fun row => row.tidied.toJson) =
        form.rows.map ConditionRow.tidied := by
      rw [← List.filterMap_eq_map]
      rfl
    rw [hrows, RuleForm.node]
    cases form.matchMode <;> rfl

/-- A match is accepted if it does not have too many conditions. -/
theorem compileMatch_match {form : RuleForm} (h : Formed form) {node : MatchNode} :
    compileMatch form.match? = .ok node ↔
      form.rows.length ≤ maxMatchConditionsPerGroup ∧ node = form.node := by
  have hparse := parse_match h.valid
  have hnode : parseMatch form.match? = form.node := by
    rw [parseMatch, hparse]
    rfl
  have hconditions : ∀ item ∈ form.node.items, isCondition item = true := by
    intro item hitem
    rw [items_node] at hitem
    obtain ⟨row, hrow, rfl⟩ := List.mem_map.mp hitem
    exact (h.valid row hrow).tidied
  have hlength : form.node.items.length = form.rows.length := by
    rw [items_node, List.length_map]
  have hboth : form.node.both = false := by
    rw [RuleForm.node]
    cases form.matchMode <;> rfl
  have hgrammar : inGrammar form.node.toJson = true ↔
      form.rows.length ≤ maxMatchConditionsPerGroup := by
    rw [inGrammar_iff, soleClause_toJson hparse, hboth, if_neg Bool.false_ne_true]
    have hcount : form.node.items.countP isCondition = form.rows.length :=
      (List.countP_eq_length.mpr hconditions).trans hlength
    have hgroups : form.node.items.countP (fun item => !isCondition item) = 0 :=
      List.countP_eq_zero.mpr fun item hitem => by simp [hconditions item hitem]
    have hne : form.node.items ≠ [] := by
      rw [items_node]
      exact mt List.map_eq_nil_iff.mp h.ne
    constructor
    · rintro ⟨items, hitems, -, -, hmany, -⟩
      obtain rfl := Option.some.inj hitems
      exact hcount ▸ hmany
    · intro hmany
      exact ⟨_, rfl, hne, fun item hitem => .inl (hconditions item hitem), hcount ▸ hmany,
        hgroups ▸ Nat.zero_le _⟩
  rw [compileMatch_eq_ok, hnode]
  constructor
  · rintro ⟨rfl, hok⟩
    exact ⟨hgrammar.mp hok, rfl⟩
  · rintro ⟨hmany, rfl⟩
    exact ⟨rfl, hgrammar.mpr hmany⟩

/-- What the client lets pass. -/
structure Passes (form : RuleForm) : Prop where
  name : trim form.name ≠ []
  short : (utf16 (trim form.name)).length ≤ ruleNameMax
  values : ∀ row ∈ form.rows, trim row.value ≠ []
  folder : form.destination = .move → form.folderId ≠ []
  effect : form.destination = .inbox → form.markRead = true

theorem passes_of_submitRule {editing : Bool} {count : ℕ} {form : RuleForm} {body : MailRule}
    (h : submitRule editing count form = .ok body) : Passes form ∧
      body = ⟨trim form.name, form.match?, .arr (form.actions.map actionJson)⟩ := by
  have hite : ∀ {p : Prop} [Decidable p] {message : Text} {rest : Except Text MailRule},
      (if p then .error message else rest) = .ok body → ¬ p ∧ rest = .ok body := by
    intro p _ message rest hok
    split at hok
    · cases hok
    · next hp => exact ⟨hp, hok⟩
  rw [submitRule] at h
  obtain ⟨hname, h⟩ := hite h
  obtain ⟨hshort, h⟩ := hite h
  obtain ⟨hvalues, h⟩ := hite h
  obtain ⟨hfolder, h⟩ := hite h
  obtain ⟨heffect, h⟩ := hite h
  obtain ⟨-, h⟩ := hite h
  refine ⟨⟨hname, not_lt.mp hshort, fun row hrow hnil => hvalues ?_, fun hmove hnil => ?_,
    fun hinbox => ?_⟩, (Except.ok.inj h).symm⟩
  · exact List.any_eq_true.mpr ⟨row, hrow, decide_eq_true hnil⟩
  · exact hfolder ⟨hmove, hnil⟩
  · exact Bool.not_eq_false _ ▸ fun hmark => heffect ⟨hinbox, hmark⟩

/-- The actions of a form that passes are accepted. -/
theorem compileActions_actions {form : RuleForm} (h : Passes form) :
    compileActions (.arr (form.actions.map actionJson)) = .ok form.actions := by
  have hmoves : form.actions ≠ [] ∧ (form.actions.any (·.type = .label)) = false ∧
      (form.actions.all (·.type = .stop)) = false := by
    have heffect := h.effect
    rw [RuleForm.actions, RuleForm.moves]
    revert heffect
    cases form.destination <;> cases form.markRead <;> cases form.stopAfter <;> simp
  obtain ⟨hne, hlabel, hstop⟩ := hmoves
  rw [compileActions, parseActions_actionJson, if_neg hne, hlabel, hstop]
  rfl

/-- **A form that passes is accepted if it does not have too many conditions**, and is stored as
it is. -/
theorem compileBody_eq_ok {form : RuleForm} (hformed : Formed form) (h : Passes form)
    {rule : MailRule} :
    compileBody ⟨trim form.name, form.match?, .arr (form.actions.map actionJson)⟩ = .ok rule ↔
      form.rows.length ≤ maxMatchConditionsPerGroup ∧
        rule = ⟨trim form.name, form.node.toJson, .arr (form.actions.map actionJson)⟩ := by
  have hname : normalizeName (trim form.name) = .ok (trim form.name) := by
    have hlong : 1 ≤ (utf16 (trim form.name)).length :=
      (List.length_pos_iff.mpr h.name).trans_le (length_le_utf16 _)
    rw [normalizeName, trim_trim, if_neg]
    exact fun hbad => hbad.elim (not_lt.mpr hlong) (not_lt.mpr h.short)
  rw [compileBody, hname, compileActions_actions h]
  cases hmatch : compileMatch form.match? with
  | error message =>
    refine iff_of_false nofun fun hok => ?_
    cases hmatch.symm.trans ((compileMatch_match hformed).mpr ⟨hok.1, rfl⟩)
  | ok node =>
    obtain ⟨hmany, rfl⟩ := (compileMatch_match hformed).mp hmatch
    exact ⟨fun hok => ⟨hmany, (Except.ok.inj hok).symm⟩, fun hok => congrArg _ hok.2.symm⟩

/-- A form without white space around its texts, and without a folder that is not used. -/
def RuleForm.tidied (form : RuleForm) : RuleForm :=
  { form with
    name := trim form.name
    rows := form.rows.map ConditionRow.tidied
    folderId := if form.destination = .move then form.folderId else []
    advanced := false }

/-- A rule that is stored for a form opens as that form. -/
theorem openEdit_stored {form : RuleForm} (hformed : Formed form) :
    openEdit (view ⟨trim form.name, form.node.toJson, .arr (form.actions.map actionJson)⟩) =
      form.tidied := by
  have hnode : parseMatch form.node.toJson = form.node := by
    rw [← match_eq, parseMatch, parse_match hformed.valid]
    rfl
  have hne : form.rows.map ConditionRow.tidied ≠ [] := mt List.map_eq_nil_iff.mp hformed.ne
  rw [view, openEdit, seedMatch, hnode, flatten_node, parseActions_actionJson]
  obtain ⟨name, matchMode, rows, destination, folderId, markRead, stopAfter, advanced⟩ := form
  dsimp only
  rw [if_neg hne]
  cases destination <;> cases markRead <;> cases stopAfter <;> rfl

/-- **A form is saved as what it says.** However the user has come to a form, from an empty one or
from that of any stored rule: when the client lets it pass, the server accepts it if and only if it
has at most ten conditions, and what is stored opens as the same form. -/
theorem saved_form {editing : Bool} {count : ℕ} {form : RuleForm} {body : MailRule}
    (hform : editor.Reachable form) (h : submitRule editing count form = .ok body) :
    ((∃ rule, compileBody body = .ok rule) ↔ form.rows.length ≤ maxMatchConditionsPerGroup) ∧
      ∀ rule, compileBody body = .ok rule → openEdit (view rule) = form.tidied := by
  have hformed := formed_of_reachable hform
  obtain ⟨hpasses, rfl⟩ := passes_of_submitRule h
  refine ⟨⟨fun ⟨rule, hrule⟩ => ((compileBody_eq_ok hformed hpasses).mp hrule).1, fun hmany => ?_⟩,
    fun rule hrule => ?_⟩
  · exact ⟨_, (compileBody_eq_ok hformed hpasses).mpr ⟨hmany, rfl⟩⟩
  · obtain ⟨-, rfl⟩ := (compileBody_eq_ok hformed hpasses).mp hrule
    exact openEdit_stored hformed

theorem saved_form_archive : ∃ form body rule, editor.Reachable form ∧
    submitRule false 0 form = .ok body ∧ compileBody body = .ok rule ∧
      openEdit (view rule) = form.tidied := by
  have h₀ : editor.Reachable openCreate := .init (.inl rfl)
  have h₁ := h₀.next (.name " Alice ".toList) trivial rfl
  have h₂ := h₁.next (.value 0 "alice@acme.com ".toList) trivial rfl
  have h₃ := h₂.next (.destination .archive) trivial rfl
  obtain ⟨hok, hopen⟩ := @saved_form false 0 _ _ h₃ rfl
  obtain ⟨rule, hrule⟩ := hok.mpr (by decide)
  exact ⟨_, _, rule, h₃, rfl, hrule, hopen rule hrule⟩

end RuleEditor
end EmailOps
