import EmailOps.MailRules.Engine

/-!
# The grammar of new rules

A rule that is written has its match tree parsed and then checked: one clause for each node,
one level of groups, at most ten conditions to a node and at most five groups.

* `compileMatch` is the check, with its messages.
* `inGrammar` says of a value, as it stands, that it is in the documented grammar.
* `compileMatch_eq_ok`: a value is accepted when what it is parsed to is in the grammar, and
  that is what is stored. `inGrammar_parseMatch`: what is in the grammar stays in it.
* `compileMatch_accepts` puts these together, with the way back from the view of a rule.
-/

namespace EmailOps
namespace MailRules

open Framework Framework.Text Json

def maxMatchGroups : ℕ := 5
def maxMatchConditionsPerGroup : ℕ := 10

/-! ### The checks -/

/-- `'field' in child`. -/
def hasField : Json → Bool
  | .obj fields => (Json.get fields "field".toList).isSome
  | _ => false

mutual

/-- The conditions of a parsed node, at any depth. -/
def countConditions : Json → ℕ
  | .obj fields => countClause "all".toList fields + countClause "any".toList fields
  | _ => 0

def countClause (name : Text) : List (Text × Json) → ℕ
  | [] => 0
  | (key, value) :: fields => if name = key then countItems value else countClause name fields

def countItems : Json → ℕ
  | .arr items => countChildren items
  | _ => 0

def countChildren : List Json → ℕ
  | [] => 0
  | child :: children =>
    (if hasField child then 1 else countConditions child) + countChildren children

end

/-- `node.all ?? node.any ?? []`. -/
def MatchNode.items (node : MatchNode) : List Json :=
  (node.all <|> node.any).getD []

/-- Has a node both clauses? -/
def MatchNode.both (node : MatchNode) : Bool :=
  node.all.isSome && node.any.isSome

/-- A parsed child as the node that it is. -/
def asNode : Json → MatchNode
  | .obj fields =>
    ⟨arrayOf (Json.get fields "all".toList), arrayOf (Json.get fields "any".toList)⟩
  | _ => {}

def bothModes : Text :=
  ("match node must use either \"all\" or \"any\", not both — " ++
    "put the other list in a nested group").toList

def tooManyConditions : Text :=
  "match supports at most 10 conditions per group.".toList

/-- The body of the loop over the groups. -/
def assertGroup (group : MatchNode) : Except Text Unit :=
  if group.both then .error bothModes
  else if group.items.any fun child => !hasField child then
    .error "match groups nest one level deep — a group may contain only conditions".toList
  else if group.items.isEmpty then
    .error "match groups must contain at least one condition".toList
  else if group.items.length > maxMatchConditionsPerGroup then .error tooManyConditions
  else .ok ()

def assertGroups : List Json → Except Text Unit
  | [] => .ok ()
  | group :: groups =>
    match assertGroup (asNode group) with
    | .error message => .error message
    | .ok () => assertGroups groups

def assertMatchShape (node : MatchNode) : Except Text Unit :=
  if node.both then .error bothModes
  else
    let children := node.items
    let groups := children.filter fun child => !hasField child
    if children.length - groups.length > maxMatchConditionsPerGroup then .error tooManyConditions
    else if groups.length > maxMatchGroups then
      .error "match supports at most 5 groups.".toList
    else assertGroups groups

def compileMatch (raw : Json) : Except Text MatchNode :=
  let node := parseMatch raw
  if countConditions node.toJson = 0 then
    .error "match must contain at least one condition".toList
  else
    match assertMatchShape node with
    | .error message => .error message
    | .ok () => .ok node

/-! ### The grammar -/

/-- The one clause of a node, when it has just one and that is an array. -/
def soleClause : Json → Option (List Json)
  | .obj fields =>
    match Json.get fields "all".toList, Json.get fields "any".toList with
    | some (.arr items), none => some items
    | none, some (.arr items) => some items
    | _, _ => none
  | _ => none

/-- A group of the grammar: one to ten conditions. -/
def groupInGrammar (raw : Json) : Bool :=
  match soleClause raw with
  | some items =>
    !items.isEmpty && (decide (items.length ≤ maxMatchConditionsPerGroup) && items.all isCondition)
  | none => false

/-- A match tree of the grammar: conditions and groups, at least one child in all. -/
def inGrammar (raw : Json) : Bool :=
  match soleClause raw with
  | some items =>
    (!items.isEmpty && items.all fun item => isCondition item || groupInGrammar item) &&
      (decide (items.countP isCondition ≤ maxMatchConditionsPerGroup) &&
        decide (items.countP (fun item => !isCondition item) ≤ maxMatchGroups))
  | none => false

theorem groupInGrammar_iff {raw : Json} : groupInGrammar raw = true ↔
    ∃ items, soleClause raw = some items ∧ items ≠ [] ∧
      items.length ≤ maxMatchConditionsPerGroup ∧ ∀ item ∈ items, isCondition item = true := by
  unfold groupInGrammar
  split
  · next items hsole => simp [hsole]
  · next hnone => simp [hnone]

theorem inGrammar_iff {raw : Json} : inGrammar raw = true ↔
    ∃ items, soleClause raw = some items ∧ items ≠ [] ∧
      (∀ item ∈ items, isCondition item = true ∨ groupInGrammar item = true) ∧
      items.countP isCondition ≤ maxMatchConditionsPerGroup ∧
      items.countP (fun item => !isCondition item) ≤ maxMatchGroups := by
  unfold inGrammar
  split
  · next items hsole => simp [hsole, and_assoc]
  · next hnone => simp [hnone]

/-! ### The checks of a parsed node -/

variable {raw : Json} {node : MatchNode}

theorem hasField_of_isCondition {c : Json} (h : isCondition c = true) : hasField c = true := by
  obtain ⟨condition, hcondition⟩ := Option.isSome_iff_exists.mp h
  cases c with
  | obj fields =>
    rw [condition?] at hcondition
    rw [hasField]
    cases hfield : Json.get fields "field".toList with
    | none =>
      rw [hfield] at hcondition
      cases hcondition
    | some value => rfl
  | _ => cases hcondition

@[simp] theorem hasField_toJson (node : MatchNode) : hasField node.toJson = false := by
  obtain ⟨fields, hjson, -, -, hfield⟩ := toJson_eq node
  rw [hjson, hasField, hfield]
  rfl

@[simp] theorem asNode_toJson (node : MatchNode) : asNode node.toJson = node := by
  obtain ⟨fields, hjson, hall, hany, -⟩ := toJson_eq node
  rw [hjson, asNode, hall, hany, arrayOf_map_arr, arrayOf_map_arr]

/-- A child of a parsed node is a condition, which has a field, or a parsed node, which has
none. -/
theorem child_cases (h : parseMatchNode raw = some node) {c : Json} (hc : c ∈ node.children) :
    (isCondition c = true ∧ hasField c = true) ∨
      (isCondition c = false ∧ hasField c = false ∧
        ∃ raw' node', parseMatchNode raw' = some node' ∧ c = node'.toJson) := by
  obtain ⟨fields, rfl, -⟩ := parseMatchNode_eq_some.mp h
  obtain ⟨-, -, -, c₀, -, hparse⟩ := mem_children_of_parse h hc
  unfold parseMatchChild at hparse
  split at hparse
  · next hcondition =>
    obtain rfl := Option.some.inj hparse
    exact .inl ⟨hcondition, hasField_of_isCondition hcondition⟩
  · obtain ⟨node', hnode', rfl⟩ := Option.map_eq_some_iff.mp hparse
    refine .inr ⟨?_, hasField_toJson node', c₀, node', hnode', rfl⟩
    rw [isCondition, condition?_toJson]
    rfl

theorem hasField_eq_isCondition (h : parseMatchNode raw = some node) {c : Json}
    (hc : c ∈ node.children) : hasField c = isCondition c := by
  rcases child_cases h hc with ⟨hcondition, hfield⟩ | ⟨hcondition, hfield, -⟩
  · rw [hcondition, hfield]
  · rw [hcondition, hfield]

theorem MatchNode.items_subset (node : MatchNode) : node.items ⊆ node.children := by
  obtain ⟨all, any⟩ := node
  cases all with
  | none => exact fun c hc => hc
  | some items => exact List.subset_append_left _ _

/-- The one clause of a parsed node. -/
theorem soleClause_toJson (h : parseMatchNode raw = some node) :
    soleClause node.toJson = if node.both then none else some node.items := by
  obtain ⟨-, -, -, -, hsome⟩ := parseMatchNode_eq_some.mp h
  obtain ⟨fields, hjson, hall, hany, -⟩ := toJson_eq node
  rw [hjson, soleClause, hall, hany]
  obtain ⟨all, any⟩ := node
  cases all with
  | none =>
    cases any with
    | none => exact absurd hsome (by simp)
    | some items => rfl
  | some items =>
    cases any with
    | none => rfl
    | some items' => rfl

/-- **A group passes when it is in the grammar.** -/
theorem assertGroup_eq_ok (h : parseMatchNode raw = some node) :
    assertGroup node = .ok () ↔ groupInGrammar node.toJson = true := by
  have hfields : (node.items.any fun child => !hasField child) = false ↔
      ∀ item ∈ node.items, isCondition item = true := by
    rw [List.any_eq_false]
    refine forall₂_congr fun c hc => ?_
    rw [hasField_eq_isCondition h (node.items_subset hc)]
    simp
  rw [groupInGrammar_iff, soleClause_toJson h, assertGroup]
  cases node.both with
  | true => simp
  | false =>
    simp only [Bool.false_eq_true, if_false, Option.some.injEq, exists_eq_left', ← hfields]
    cases hany : node.items.any fun child => !hasField child with
    | true => simp
    | false =>
      cases hitems : node.items with
      | nil => simp
      | cons c cs =>
        simp only [Bool.false_eq_true, if_false, List.isEmpty_cons, gt_iff_lt, ite_eq_right_iff]
        simp

theorem assertGroups_eq_ok {groups : List Json} :
    assertGroups groups = .ok () ↔ ∀ group ∈ groups, assertGroup (asNode group) = .ok () := by
  induction groups with
  | nil => exact iff_of_true rfl nofun
  | cons group groups ih =>
    rw [assertGroups, List.forall_mem_cons, ← ih]
    cases assertGroup (asNode group) with
    | error message => simp
    | ok _ => simp

/-- **A node with a child passes when it is in the grammar.** -/
theorem assertMatchShape_eq_ok (h : parseMatchNode raw = some node) :
    (node.items ≠ [] ∧ assertMatchShape node = .ok ()) ↔ inGrammar node.toJson = true := by
  rw [inGrammar_iff, soleClause_toJson h, assertMatchShape]
  cases node.both with
  | true => simp
  | false =>
    simp only [Bool.false_eq_true, if_false, Option.some.injEq, exists_eq_left']
    refine and_congr_right fun _ => ?_
    have hmem := node.items_subset
    -- The groups are the children that are no conditions.
    have hgroups : node.items.filter (fun child => !hasField child) =
        node.items.filter fun child => !isCondition child :=
      List.filter_congr fun c hc => by rw [hasField_eq_isCondition h (hmem hc)]
    have hpass : (∀ group ∈ node.items.filter (fun child => !isCondition child),
        assertGroup (asNode group) = .ok ()) ↔
          ∀ item ∈ node.items, isCondition item = true ∨ groupInGrammar item = true := by
      simp only [List.mem_filter, and_imp, Bool.not_eq_true']
      refine forall₂_congr fun c hc => ?_
      rcases child_cases h (hmem hc) with ⟨hcondition, -⟩ | ⟨hcondition, -, raw', node', hnode', rfl⟩
      · simp [hcondition]
      · rw [asNode_toJson, assertGroup_eq_ok hnode']
        simp [hcondition]
    have hlength : node.items.length - (node.items.filter fun child => !isCondition child).length =
        node.items.countP isCondition := by
      rw [← List.countP_eq_length_filter, List.length_eq_countP_add_countP isCondition]
      simp only [Bool.not_eq_true, Bool.decide_eq_false]
      omega
    rw [hgroups, hlength, ← List.countP_eq_length_filter, ← hpass, ← assertGroups_eq_ok]
    by_cases hconditions : node.items.countP isCondition ≤ maxMatchConditionsPerGroup
    · rw [if_neg (not_lt.mpr hconditions)]
      by_cases hmany : node.items.countP (fun item => !isCondition item) ≤ maxMatchGroups
      · rw [if_neg (not_lt.mpr hmany)]
        exact ⟨fun hok => ⟨hok, hconditions, hmany⟩, And.left⟩
      · rw [if_pos (not_le.mp hmany)]
        exact iff_of_false nofun fun h => hmany h.2.2
    · rw [if_pos (not_le.mp hconditions)]
      exact iff_of_false nofun fun h => hconditions h.2.1

/-! ### Counting the conditions -/

theorem countChildren_pos {children : List Json} {c : Json} (hc : c ∈ children)
    (h : hasField c = true ∨ 0 < countConditions c) : 0 < countChildren children := by
  induction children with
  | nil => cases hc
  | cons child children ih =>
    rw [countChildren]
    rcases List.mem_cons.mp hc with rfl | hc
    · split
      · omega
      · next hno =>
        have hpos := h.resolve_left hno
        omega
    · have hpos := ih hc
      omega

theorem countClause_eq (name : Text) (fields : List (Text × Json)) :
    countClause name fields = countChildren ((arrayOf (Json.get fields name)).getD []) := by
  induction fields with
  | nil => rfl
  | cons entry fields ih =>
    obtain ⟨key, value⟩ := entry
    unfold Json.get at ih ⊢
    rw [countClause, List.lookup_cons]
    by_cases hname : name = key
    · rw [if_pos hname, beq_iff_eq.mpr hname]
      cases value <;> rfl
    · rw [if_neg hname, beq_false_of_ne hname, ih]

theorem countConditions_toJson (node : MatchNode) : countConditions node.toJson =
    countChildren (node.all.getD []) + countChildren (node.any.getD []) := by
  obtain ⟨fields, hjson, hall, hany, -⟩ := toJson_eq node
  rw [hjson, countConditions, countClause_eq, countClause_eq, hall, hany, arrayOf_map_arr,
    arrayOf_map_arr]

theorem countConditions_pos {c : Json} (hc : c ∈ node.items)
    (h : hasField c = true ∨ 0 < countConditions c) : 0 < countConditions node.toJson := by
  rw [countConditions_toJson]
  obtain ⟨all, any⟩ := node
  cases all with
  | none =>
    exact Nat.add_pos_right _ (countChildren_pos hc h)
  | some items =>
    exact Nat.add_pos_left (countChildren_pos hc h) _

/-- What is in the grammar has a condition. -/
theorem countConditions_of_inGrammar (h : parseMatchNode raw = some node)
    (hgrammar : inGrammar node.toJson = true) : 0 < countConditions node.toJson := by
  obtain ⟨items, hsole, hne, hitems, -⟩ := inGrammar_iff.mp hgrammar
  rw [soleClause_toJson h] at hsole
  split at hsole
  · cases hsole
  · obtain rfl := Option.some.inj hsole
    obtain ⟨c, hc⟩ := List.exists_mem_of_ne_nil _ hne
    refine countConditions_pos hc ?_
    rcases child_cases h (node.items_subset hc) with
      ⟨-, hfield⟩ | ⟨hcondition, -, raw', node', hnode', rfl⟩
    · exact .inl hfield
    · -- A group of the grammar has conditions only.
      right
      have hgroup := (hitems _ hc).resolve_left (by simp [hcondition])
      obtain ⟨inner, hinner, hne', -, hconditions⟩ := groupInGrammar_iff.mp hgroup
      rw [soleClause_toJson hnode'] at hinner
      split at hinner
      · cases hinner
      · obtain rfl := Option.some.inj hinner
        obtain ⟨c', hc'⟩ := List.exists_mem_of_ne_nil _ hne'
        exact countConditions_pos hc' (.inl (hasField_of_isCondition (hconditions c' hc')))

/-! ### What is accepted -/

theorem both_of_assertMatchShape (h : assertMatchShape node = .ok ()) : node.both = false := by
  by_contra hboth
  rw [assertMatchShape, if_pos (by simpa using hboth)] at h
  cases h

/-- A node with a condition has an item, when it has one clause. -/
theorem items_ne_nil (hcount : countConditions node.toJson ≠ 0) (hboth : node.both = false) :
    node.items ≠ [] := by
  intro hnil
  apply hcount
  rw [countConditions_toJson]
  obtain ⟨all, any⟩ := node
  cases all with
  | none =>
    cases any with
    | none => rfl
    | some items =>
      obtain rfl : items = [] := hnil
      rfl
  | some items =>
    cases any with
    | none =>
      obtain rfl : items = [] := hnil
      rfl
    | some items' => cases hboth

/-- **A value is accepted when what it is parsed to is in the grammar**, and that is stored. -/
theorem compileMatch_eq_ok : compileMatch raw = .ok node ↔
    parseMatch raw = node ∧ inGrammar node.toJson = true := by
  unfold compileMatch
  cases hparse : parseMatchNode raw with
  | none =>
    -- Without a clause there is no condition.
    have hempty : parseMatch raw = {} := by
      rw [parseMatch, hparse]
      rfl
    rw [hempty]
    refine iff_of_false nofun ?_
    rintro ⟨rfl, hgrammar⟩
    cases hgrammar
  | some parsed =>
    have hparsed : parseMatch raw = parsed := by
      rw [parseMatch, hparse]
      rfl
    rw [hparsed]
    have hshape := assertMatchShape_eq_ok hparse
    dsimp only
    by_cases hcount : countConditions parsed.toJson = 0
    · rw [if_pos hcount]
      refine iff_of_false nofun ?_
      rintro ⟨rfl, hgrammar⟩
      exact (countConditions_of_inGrammar hparse hgrammar).ne' hcount
    · rw [if_neg hcount]
      constructor
      · intro hcompiled
        split at hcompiled
        · cases hcompiled
        · next hok =>
          obtain rfl := Except.ok.inj hcompiled
          exact ⟨rfl, hshape.mp ⟨items_ne_nil hcount (both_of_assertMatchShape hok), hok⟩⟩
      · rintro ⟨rfl, hgrammar⟩
        rw [(hshape.mpr hgrammar).2]

/-- What is parsed of a value with one clause. -/
theorem parse_of_soleClause {items : List Json} (h : soleClause raw = some items) :
    ∃ node, parseMatchNode raw = some node ∧
      soleClause node.toJson = some (items.filterMap parseMatchChild) := by
  cases raw with
  | obj fields =>
    rw [soleClause] at h
    split at h
    · next items' hall hany =>
      obtain rfl := Option.some.inj h
      refine ⟨⟨some (items'.filterMap parseMatchChild), none⟩, ?_, rfl⟩
      rw [parseMatchNode_obj, hall, hany]
      rfl
    · next items' hall hany =>
      obtain rfl := Option.some.inj h
      refine ⟨⟨none, some (items'.filterMap parseMatchChild)⟩, ?_, rfl⟩
      rw [parseMatchNode_obj, hall, hany]
      rfl
    · cases h
  | _ => cases h

/-- A group of the grammar stays one: its conditions are all kept. -/
theorem groupInGrammar_parse (h : groupInGrammar raw = true) :
    ∃ node, parseMatchNode raw = some node ∧ groupInGrammar node.toJson = true := by
  obtain ⟨items, hsole, hne, hlength, hconditions⟩ := groupInGrammar_iff.mp h
  obtain ⟨node, hnode, hsole'⟩ := parse_of_soleClause hsole
  have hkept : items.filterMap parseMatchChild = items := by
    calc items.filterMap parseMatchChild = items.filterMap some :=
          List.filterMap_congr fun item hitem => if_pos (hconditions item hitem)
      _ = items := List.filterMap_some
  rw [hkept] at hsole'
  exact ⟨node, hnode, groupInGrammar_iff.mpr ⟨items, hsole', hne, hlength, hconditions⟩⟩

/-- **What is in the grammar stays in it when it is parsed.** -/
theorem inGrammar_parseMatch (h : inGrammar raw = true) :
    inGrammar (parseMatch raw).toJson = true := by
  obtain ⟨items, hsole, hne, hitems, hconditions, hgroups⟩ := inGrammar_iff.mp h
  obtain ⟨node, hnode, hsole'⟩ := parse_of_soleClause hsole
  -- No child is left out, and a condition stays a condition, a group a group.
  have hparse : ∀ item ∈ items, ∃ c, parseMatchChild item = some c ∧
      isCondition c = isCondition item ∧ (isCondition c = true ∨ groupInGrammar c = true) := by
    intro item hitem
    unfold parseMatchChild
    by_cases hcondition : isCondition item = true
    · exact ⟨item, if_pos hcondition, rfl, .inl hcondition⟩
    · obtain ⟨node', hnode', hgroup⟩ :=
        groupInGrammar_parse ((hitems item hitem).resolve_left hcondition)
      refine ⟨node'.toJson, ?_, ?_, .inr hgroup⟩
      · rw [if_neg hcondition, hnode']
        rfl
      · rw [Bool.eq_false_iff.mpr hcondition, isCondition, condition?_toJson]
        rfl
  have hcount : ∀ q : Bool → Bool, (items.filterMap parseMatchChild).countP (fun c => q (isCondition c)) =
      items.countP fun item => q (isCondition item) := by
    intro q
    clear hsole hne hitems hconditions hgroups hsole'
    induction items with
    | nil => rfl
    | cons item items ih =>
      obtain ⟨c, hc, hsame, -⟩ := hparse item List.mem_cons_self
      rw [List.filterMap_cons, hc, List.countP_cons, List.countP_cons, hsame,
        ih fun i hi => hparse i (List.mem_cons_of_mem item hi)]
  have hstored : parseMatch raw = node := by
    rw [parseMatch, hnode]
    rfl
  rw [hstored]
  refine inGrammar_iff.mpr ⟨_, hsole', ?_, ?_, (hcount id).trans_le hconditions,
    (hcount not).trans_le hgroups⟩
  · obtain ⟨item, hitem⟩ := List.exists_mem_of_ne_nil _ hne
    obtain ⟨c, hc, -⟩ := hparse item hitem
    exact List.ne_nil_of_mem (List.mem_filterMap.mpr ⟨item, hitem, hc⟩)
  · intro c hc
    obtain ⟨item, hitem, hparsed⟩ := List.mem_filterMap.mp hc
    obtain ⟨c', hc', -, hgood⟩ := hparse item hitem
    obtain rfl := Option.some.inj (hparsed.symm.trans hc')
    exact hgood

/-! ### The view of a rule -/

/-- The match tree that the view of a rule shows. -/
def viewMatch (stored : MatchNode) : MatchNode :=
  parseMatch stored.toJson

theorem viewMatch_of_compileMatch (h : compileMatch raw = .ok node) : viewMatch node = node := by
  obtain ⟨rfl, hgrammar⟩ := compileMatch_eq_ok.mp h
  unfold viewMatch parseMatch
  cases hparse : parseMatchNode raw with
  | none =>
    rw [parseMatch, hparse] at hgrammar
    cases hgrammar
  | some parsed => rw [Option.getD_some, parseMatchNode_toJson hparse, Option.getD_some]

/-- **What is accepted**: a value is stored as what it is parsed to, if that is in the grammar;
all that is in the grammar is accepted; and what the view of a rule shows is what is stored,
and is accepted as that. -/
theorem compileMatch_accepts :
    (∀ raw node, compileMatch raw = .ok node ↔
        parseMatch raw = node ∧ inGrammar node.toJson = true) ∧
      (∀ raw, inGrammar raw = true → compileMatch raw = .ok (parseMatch raw)) ∧
        ∀ raw node, compileMatch raw = .ok node →
          viewMatch node = node ∧ compileMatch (viewMatch node).toJson = .ok node := by
  refine ⟨fun raw node => compileMatch_eq_ok, fun raw hgrammar => ?_, fun raw node h => ?_⟩
  · exact compileMatch_eq_ok.mpr ⟨rfl, inGrammar_parseMatch hgrammar⟩
  · have hview := viewMatch_of_compileMatch h
    refine ⟨hview, compileMatch_eq_ok.mpr ⟨?_, (compileMatch_eq_ok.mp h).2⟩⟩
    rw [hview]
    exact hview

/-- A rule with a child that is neither a condition nor a group. -/
def junkRule : Json :=
  .obj [("any".toList, .arr [
    .obj [("field".toList, .str "from".toList), ("op".toList, .str "contains".toList),
      ("value".toList, .str "alice".toList)],
    .obj [("bogus".toList, .bool true)]])]

/-- It is accepted, and the child is left out. -/
theorem compileMatch_junkRule :
    ¬ ∀ raw, (∃ node, compileMatch raw = .ok node) ↔ inGrammar raw = true := by
  intro h
  have haccepted := (h junkRule).mp ⟨_, compileMatch_eq_ok.mpr ⟨rfl, by decide⟩⟩
  revert haccepted
  decide

end MailRules
end EmailOps
