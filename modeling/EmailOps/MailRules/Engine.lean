import EmailOps.Framework.ClauseTree
import EmailOps.Inbound.Rules

/-!
# The rule engine

A stored rule has its match tree as a JSON value, of which the engine trusts nothing.
`parseMatch` makes a node of it: it keeps the lists `all` and `any` without the children that
are neither a condition nor a node themselves. `matchesNode` parses what it is given, and
each child that is not a condition again.

* `parseMatchNode` and `matchesNode` are the two functions, and `matchesNode_eq_true` is the
  recursion of the latter without its termination proof.
* `nodeTree` reads a value as a tree of clauses, with its malformed children in their places,
  and takes note of a clause that is there and is not an array.
* `nodeTree_toJson`: parsing prunes the tree. `matchesNode_eq_eval`: the engine evaluates the
  pruned tree.
-/

namespace EmailOps

namespace Json

mutual

/-- How deep a value is nested. -/
def height : Json → ℕ
  | .arr items => heightItems items + 1
  | .obj fields => heightFields fields + 1
  | _ => 0

def heightItems : List Json → ℕ
  | [] => 0
  | item :: items => max (height item) (heightItems items)

def heightFields : List (Text × Json) → ℕ
  | [] => 0
  | (_, value) :: fields => max (height value) (heightFields fields)

end

theorem height_le_heightItems {item : Json} {items : List Json} (h : item ∈ items) :
    item.height ≤ heightItems items := by
  induction items with
  | nil => cases h
  | cons _ items ih =>
    rcases List.mem_cons.mp h with rfl | h
    · exact le_max_left _ _
    · exact (ih h).trans (le_max_right _ _)

theorem heightItems_le {items : List Json} {k : ℕ} (h : ∀ item ∈ items, item.height ≤ k) :
    heightItems items ≤ k := by
  induction items with
  | nil => exact Nat.zero_le k
  | cons item items ih =>
    exact max_le (h item List.mem_cons_self) (ih fun i hi => h i (List.mem_cons_of_mem item hi))

theorem height_le_heightFields {fields : List (Text × Json)} {name : Text} {value : Json}
    (h : get fields name = some value) : value.height ≤ heightFields fields := by
  induction fields with
  | nil => cases h
  | cons entry fields ih =>
    obtain ⟨key, v⟩ := entry
    unfold get at h ih
    rw [List.lookup_cons] at h
    cases hkey : name == key with
    | true =>
      rw [hkey] at h
      obtain rfl := Option.some.inj h
      exact le_max_left _ _
    | false =>
      rw [hkey] at h
      exact (ih h).trans (le_max_right _ _)

/-- The array that a property is. -/
def arrayOf : Option Json → Option (List Json)
  | some (.arr items) => some items
  | _ => none

theorem arrayOf_eq_some {value : Option Json} {items : List Json} :
    arrayOf value = some items ↔ value = some (.arr items) := by
  match value with
  | none => exact iff_of_false nofun nofun
  | some (.arr _) => simp [arrayOf]
  | some .null | some (.bool _) | some (.num _) | some (.str _) | some (.obj _) =>
    simp [arrayOf]

@[simp] theorem arrayOf_map_arr (items : Option (List Json)) : arrayOf (items.map .arr) = items := by
  cases items with
  | none => rfl
  | some items => rfl

/-- A property that is there and is not an array. -/
def notArray (value : Option Json) : Bool :=
  value.isSome && (arrayOf value).isNone

@[simp] theorem notArray_map_arr (items : Option (List Json)) :
    notArray (items.map .arr) = false := by
  cases items with
  | none => rfl
  | some items => rfl

theorem height_lt_of_mem_arrayOf {fields : List (Text × Json)} {name : Text} {items : List Json}
    (harray : arrayOf (get fields name) = some items) {item : Json} (hitem : item ∈ items) :
    item.height + 2 ≤ (obj fields).height := by
  have harr : heightItems items + 1 ≤ heightFields fields :=
    height_le_heightFields (arrayOf_eq_some.mp harray)
  have hle := height_le_heightItems hitem
  change item.height + 2 ≤ heightFields fields + 1
  omega

/-- **Induction on nodes**: a property of a value may be shown from that of the items of the
arrays among its properties. -/
@[elab_as_elim]
theorem node_induction {P : Json → Prop}
    (h : ∀ raw, (∀ fields name items, raw = .obj fields → arrayOf (get fields name) = some items →
      ∀ item ∈ items, P item) → P raw) (raw : Json) : P raw := by
  induction hheight : raw.height using Nat.strong_induction_on generalizing raw with
  | _ n ih =>
    refine h raw fun fields name items hraw harray item hitem => ?_
    have hlt := height_lt_of_mem_arrayOf harray hitem
    rw [← hraw, hheight] at hlt
    exact ih item.height (by omega) item rfl

end Json

namespace MailRules

open Framework Framework.Text Json

export Inbound (MatchField MatchOp extractDomain)

/-! ### Messages and conditions -/

structure InboundMessage where
  fromAddress : Text
  toAddress : Text
  toAddresses : Option (List Text)
  subject : Text

structure Condition where
  field : MatchField
  op : MatchOp
  value : Text
  deriving DecidableEq

/-- `MATCH_FIELDS`. -/
def matchFields : List (Text × MatchField) :=
  [("from".toList, .sender), ("to".toList, .recipient), ("subject".toList, .subject),
    ("fromDomain".toList, .fromDomain)]

/-- `MATCH_OPS`. -/
def matchOps : List (Text × MatchOp) :=
  [("equals".toList, .equals), ("contains".toList, .contains), ("startsWith".toList, .startsWith),
    ("endsWith".toList, .endsWith)]

/-- The string among those of a list that a value is, if it is one of them. -/
def oneOf {β : Type*} (names : List (Text × β)) : Option Json → Option β
  | some (.str s) => names.lookup s
  | _ => none

/-- The condition that a value is, if `isCondition` holds of it. Its other properties are not
read. -/
def condition? : Json → Option Condition
  | .obj fields =>
    match oneOf matchFields (Json.get fields "field".toList),
        oneOf matchOps (Json.get fields "op".toList), Json.get fields "value".toList with
    | some field, some op, some (.str value) => some ⟨field, op, value⟩
    | _, _, _ => none
  | _ => none

def isCondition (raw : Json) : Bool :=
  (condition? raw).isSome

/-- The values of a field. The recipients are those of the header, and `toAddress` stands in
where there are none. -/
def readField (field : MatchField) (msg : InboundMessage) : List Text :=
  match field with
  | .sender => [msg.fromAddress]
  | .recipient =>
    match (msg.toAddresses.getD []).filter (· ≠ []) with
    | [] => if msg.toAddress = [] then [] else [msg.toAddress]
    | many => many
  | .subject => [msg.subject]
  | .fromDomain => [extractDomain msg.fromAddress]

def matchesCondition [CaseMapping] (msg : InboundMessage) (condition : Condition) : Bool :=
  (readField condition.field msg).any fun raw =>
    condition.op.holds (toLowerCase raw) (toLowerCase condition.value)

/-! ### Parsing -/

/-- A node of a match tree. Its children are conditions, as they were stored, and nodes. -/
structure MatchNode where
  all : Option (List Json) := none
  any : Option (List Json) := none

/-- A node as the object that it is. -/
def MatchNode.toJson (node : MatchNode) : Json :=
  .obj ((node.all.map fun items => ("all".toList, Json.arr items)).toList ++
    (node.any.map fun items => ("any".toList, Json.arr items)).toList)

/-- A node needs a clause. -/
def MatchNode.of (all any : Option (List Json)) : Option MatchNode :=
  if all.isNone && any.isNone then none else some ⟨all, any⟩

mutual

def parseMatchNode : Json → Option MatchNode
  | .obj fields => MatchNode.of (parseClause "all".toList fields) (parseClause "any".toList fields)
  | _ => none

/-- A clause of a node, when there is a property of its name and it is an array. -/
def parseClause (name : Text) : List (Text × Json) → Option (List Json)
  | [] => none
  | (key, value) :: fields => if name = key then parseItems value else parseClause name fields

def parseItems : Json → Option (List Json)
  | .arr items => some (parseChildren items)
  | _ => none

/-- The children that `parseMatchChild` makes something of. -/
def parseChildren : List Json → List Json
  | [] => []
  | child :: children =>
    if isCondition child then child :: parseChildren children
    else
      match parseMatchNode child with
      | some node => node.toJson :: parseChildren children
      | none => parseChildren children

end

def parseMatchChild (raw : Json) : Option Json :=
  if isCondition raw then some raw else (parseMatchNode raw).map (·.toJson)

/-- `{}` where there is no node. -/
def parseMatch (raw : Json) : MatchNode :=
  (parseMatchNode raw).getD {}

theorem parseChildren_eq (children : List Json) :
    parseChildren children = children.filterMap parseMatchChild := by
  induction children with
  | nil => rfl
  | cons child children ih =>
    rw [parseChildren, List.filterMap_cons, parseMatchChild, ih]
    split
    · rfl
    · cases parseMatchNode child with
      | none => rfl
      | some node => rfl

theorem parseItems_eq (value : Json) :
    parseItems value = (arrayOf (some value)).map (·.filterMap parseMatchChild) := by
  cases value with
  | arr items => exact congrArg some (parseChildren_eq items)
  | _ => rfl

theorem parseClause_eq (name : Text) (fields : List (Text × Json)) :
    parseClause name fields =
      (arrayOf (Json.get fields name)).map (·.filterMap parseMatchChild) := by
  induction fields with
  | nil => rfl
  | cons entry fields ih =>
    obtain ⟨key, value⟩ := entry
    unfold Json.get at ih ⊢
    rw [parseClause, List.lookup_cons]
    by_cases hname : name = key
    · rw [if_pos hname, beq_iff_eq.mpr hname, parseItems_eq]
    · rw [if_neg hname, beq_false_of_ne hname, ih]

/-! ### What a parsed node looks like -/

variable {raw : Json} {node : MatchNode} {fields : List (Text × Json)}

theorem parseMatchNode_obj (fields : List (Text × Json)) : parseMatchNode (.obj fields) =
    MatchNode.of ((arrayOf (Json.get fields "all".toList)).map (·.filterMap parseMatchChild))
      ((arrayOf (Json.get fields "any".toList)).map (·.filterMap parseMatchChild)) := by
  rw [parseMatchNode, parseClause_eq, parseClause_eq]

theorem MatchNode.of_eq_some {all any : Option (List Json)} : MatchNode.of all any = some node ↔
    node.all = all ∧ node.any = any ∧ (node.all.isSome = true ∨ node.any.isSome = true) := by
  unfold MatchNode.of
  split
  · next hnone =>
    -- Without a clause there is no node.
    rw [Bool.and_eq_true, Option.isNone_iff_eq_none, Option.isNone_iff_eq_none] at hnone
    obtain ⟨rfl, rfl⟩ := hnone
    refine iff_of_false nofun ?_
    rintro ⟨hall, hany, hsome⟩
    rw [hall, hany] at hsome
    simp at hsome
  · next hsome =>
    constructor
    · rintro ⟨rfl⟩
      refine ⟨rfl, rfl, ?_⟩
      simpa [Option.isSome_iff_ne_none, imp_iff_not_or] using hsome
    · rintro ⟨rfl, rfl, -⟩
      rfl

/-- A node is what an object with a clause is parsed to. -/
theorem parseMatchNode_eq_some : parseMatchNode raw = some node ↔
    ∃ fields, raw = .obj fields ∧
      node.all = (arrayOf (Json.get fields "all".toList)).map (·.filterMap parseMatchChild) ∧
      node.any = (arrayOf (Json.get fields "any".toList)).map (·.filterMap parseMatchChild) ∧
      (node.all.isSome = true ∨ node.any.isSome = true) := by
  cases raw with
  | obj fields =>
    rw [parseMatchNode_obj, MatchNode.of_eq_some]
    constructor
    · exact fun h => ⟨fields, rfl, h⟩
    · rintro ⟨_, ⟨rfl⟩, h⟩
      exact h
  | _ => exact iff_of_false nofun (by simp)

/-- The properties of a node. -/
theorem toJson_eq (node : MatchNode) :
    ∃ fields, node.toJson = .obj fields ∧ Json.get fields "all".toList = node.all.map .arr ∧
      Json.get fields "any".toList = node.any.map .arr ∧
        Json.get fields "field".toList = none := by
  obtain ⟨all, any⟩ := node
  cases all with
  | none =>
    cases any with
    | none => exact ⟨_, rfl, rfl, rfl, rfl⟩
    | some items => exact ⟨_, rfl, rfl, rfl, rfl⟩
  | some items =>
    cases any with
    | none => exact ⟨_, rfl, rfl, rfl, rfl⟩
    | some items => exact ⟨_, rfl, rfl, rfl, rfl⟩

/-- The children of both clauses. -/
def MatchNode.children (node : MatchNode) : List Json :=
  node.all.getD [] ++ node.any.getD []

theorem MatchNode.mem_children {c : Json} : c ∈ node.children ↔
    (∃ items, node.all = some items ∧ c ∈ items) ∨ ∃ items, node.any = some items ∧ c ∈ items := by
  unfold MatchNode.children
  rw [List.mem_append]
  cases node.all <;> cases node.any <;> simp

/-- The children of a parsed node are those of an array of the value, parsed. -/
theorem mem_children_of_parse {c : Json} (h : parseMatchNode (.obj fields) = some node)
    (hc : c ∈ node.children) :
    ∃ name items, arrayOf (Json.get fields name) = some items ∧
      ∃ c₀ ∈ items, parseMatchChild c₀ = some c := by
  obtain ⟨_, ⟨rfl⟩, hall, hany, -⟩ := parseMatchNode_eq_some.mp h
  rw [MatchNode.mem_children, hall, hany] at hc
  rcases hc with ⟨_, hitems, hc⟩ | ⟨_, hitems, hc⟩
  · obtain ⟨items, harray, rfl⟩ := Option.map_eq_some_iff.mp hitems
    exact ⟨_, items, harray, List.mem_filterMap.mp hc⟩
  · obtain ⟨items, harray, rfl⟩ := Option.map_eq_some_iff.mp hitems
    exact ⟨_, items, harray, List.mem_filterMap.mp hc⟩

/-- A node is no deeper than its children make it. -/
theorem height_toJson_le {k : ℕ} (hk : 2 ≤ k) (h : ∀ c ∈ node.children, c.height + 2 ≤ k) :
    node.toJson.height ≤ k := by
  have hclause : ∀ items : List Json, (∀ c ∈ items, c.height + 2 ≤ k) →
      heightItems items + 2 ≤ k := by
    intro items hitems
    have hle : heightItems items ≤ k - 2 :=
      heightItems_le fun c hc => Nat.le_sub_of_add_le (hitems c hc)
    omega
  obtain ⟨all, any⟩ := node
  have hall : ∀ items, all = some items → heightItems items + 2 ≤ k := fun items hitems =>
    hclause items fun c hc => h c (MatchNode.mem_children.mpr (.inl ⟨items, hitems, hc⟩))
  have hany : ∀ items, any = some items → heightItems items + 2 ≤ k := fun items hitems =>
    hclause items fun c hc => h c (MatchNode.mem_children.mpr (.inr ⟨items, hitems, hc⟩))
  cases all with
  | none =>
    cases any with
    | none => exact (Nat.le_succ 1).trans hk
    | some items =>
      have hle := hany items rfl
      simp [MatchNode.toJson, height, heightFields]
      omega
  | some items =>
    have hle := hall items rfl
    cases any with
    | none =>
      simp [MatchNode.toJson, height, heightFields]
      omega
    | some items' =>
      have hle' := hany items' rfl
      simp [MatchNode.toJson, height, heightFields]
      omega

/-- An object with a clause is nested twice at least. -/
theorem two_le_height (h : parseMatchNode raw = some node) : 2 ≤ raw.height := by
  obtain ⟨fields, rfl, hall, hany, hsome⟩ := parseMatchNode_eq_some.mp h
  have harray : ∃ name items, arrayOf (Json.get fields name) = some items := by
    rw [hall, hany, Option.isSome_map, Option.isSome_map] at hsome
    rcases hsome with hsome | hsome
    · exact ⟨_, Option.isSome_iff_exists.mp hsome⟩
    · exact ⟨_, Option.isSome_iff_exists.mp hsome⟩
  obtain ⟨name, items, harray⟩ := harray
  have hle : heightItems items + 1 ≤ heightFields fields :=
    height_le_heightFields (arrayOf_eq_some.mp harray)
  change 2 ≤ heightFields fields + 1
  omega

/-- **The children of a parsed node lie deeper than it.** -/
theorem height_children (h : parseMatchNode raw = some node) :
    ∀ c ∈ node.children, c.height + 2 ≤ raw.height := by
  induction raw using node_induction generalizing node with
  | h raw ih =>
    intro c hc
    obtain ⟨fields, rfl, -⟩ := parseMatchNode_eq_some.mp h
    obtain ⟨name, items, harray, c₀, hc₀, hparse⟩ := mem_children_of_parse h hc
    have hdeeper := height_lt_of_mem_arrayOf harray hc₀
    -- What a child is parsed to is no deeper than the child.
    have hle : c.height ≤ c₀.height := by
      unfold parseMatchChild at hparse
      split at hparse
      · obtain rfl := Option.some.inj hparse
        exact le_refl _
      · obtain ⟨node₀, hnode₀, rfl⟩ := Option.map_eq_some_iff.mp hparse
        exact height_toJson_le (two_le_height hnode₀) (ih fields name items rfl harray c₀ hc₀ hnode₀)
    omega

/-! ### Matching -/

section Matching

variable [CaseMapping] (msg : InboundMessage)

mutual

/-- Does a node match? Every clause that is there must hold, and an empty one does not. -/
def matchesNode (raw : Json) : Bool :=
  match h : parseMatchNode raw with
  | none => false
  | some node =>
    (match hall : node.all with
      | none => true
      | some children => children ≠ [] && children.attach.all fun child => matchesChild child.1) &&
    match hany : node.any with
      | none => true
      | some children => children ≠ [] && children.attach.any fun child => matchesChild child.1
termination_by (raw.height, 0)
decreasing_by
  · have hlt := height_children h child.1 (MatchNode.mem_children.mpr (.inl ⟨_, hall, child.2⟩))
    exact Prod.Lex.left _ _ (by omega)
  · have hlt := height_children h child.1 (MatchNode.mem_children.mpr (.inr ⟨_, hany, child.2⟩))
    exact Prod.Lex.left _ _ (by omega)

def matchesChild (child : Json) : Bool :=
  match condition? child with
  | some condition => matchesCondition msg condition
  | none => matchesNode child
termination_by (child.height, 1)

end

variable {msg}

/-- The recursion of `matchesNode`. -/
theorem matchesNode_eq_true : matchesNode msg raw = true ↔ ∃ node, parseMatchNode raw = some node ∧
    (∀ children ∈ node.all, children ≠ [] ∧ ∀ child ∈ children, matchesChild msg child = true) ∧
    ∀ children ∈ node.any, ∃ child ∈ children, matchesChild msg child = true := by
  have hsub : ∀ {children : List Json} {p : Json → Bool},
      children.attach.all (fun child => p child.1) = children.all p := by
    intro children p
    rw [Bool.eq_iff_iff, List.all_eq_true, List.all_eq_true]
    exact ⟨fun h c hc => h ⟨c, hc⟩ (List.mem_attach _ _), fun h c _ => h c.1 c.2⟩
  have hsub' : ∀ {children : List Json} {p : Json → Bool},
      children.attach.any (fun child => p child.1) = children.any p := by
    intro children p
    rw [Bool.eq_iff_iff, List.any_eq_true, List.any_eq_true]
    exact ⟨fun ⟨c, _, h⟩ => ⟨c.1, c.2, h⟩, fun ⟨c, hc, h⟩ => ⟨⟨c, hc⟩, List.mem_attach _ _, h⟩⟩
  rw [matchesNode]
  split
  · next hnone => simp [hnone]
  · next node hnode =>
    rw [hnode, Bool.and_eq_true]
    simp only [Option.some.injEq, exists_eq_left', hsub, hsub']
    refine and_congr ?_ ?_
    · split
      · next hall => simp [hall]
      · next children hall => simp [hall]
    · split
      · next hany => simp [hany]
      · next children hany =>
        simp only [hany, Option.mem_some_iff, forall_eq', Bool.and_eq_true, List.any_eq_true]
        refine and_iff_right_of_imp ?_
        rintro ⟨child, hchild, -⟩
        exact decide_eq_true (List.ne_nil_of_mem hchild)

end Matching

/-! ### Values as trees of clauses -/

/-- A node as a tree, and nothing without a clause. -/
def groupOf (broken : Bool) (all any : Option (List (ClauseTree Condition))) :
    ClauseTree Condition :=
  if all.isNone && any.isNone then .malformed else .group broken all any

/-- Is one of the clauses of a node there and not an array? -/
def brokenClause (fields : List (Text × Json)) : Bool :=
  notArray (Json.get fields "all".toList) || notArray (Json.get fields "any".toList)

mutual

/-- A value as a node. -/
def nodeTree : Json → ClauseTree Condition
  | .obj fields =>
    groupOf (brokenClause fields) (clauseTrees "all".toList fields)
      (clauseTrees "any".toList fields)
  | _ => .malformed

def clauseTrees (name : Text) : List (Text × Json) → Option (List (ClauseTree Condition))
  | [] => none
  | (key, value) :: fields => if name = key then itemTrees value else clauseTrees name fields

def itemTrees : Json → Option (List (ClauseTree Condition))
  | .arr items => some (childTrees items)
  | _ => none

/-- The children of a clause, each as a condition or else as a node. -/
def childTrees : List Json → List (ClauseTree Condition)
  | [] => []
  | child :: children =>
    (match condition? child with
      | some condition => .leaf condition
      | none => nodeTree child) :: childTrees children

end

/-- A value as a child of a clause. -/
def childTree (raw : Json) : ClauseTree Condition :=
  match condition? raw with
  | some condition => .leaf condition
  | none => nodeTree raw

theorem childTrees_eq_map (children : List Json) : childTrees children = children.map childTree := by
  induction children with
  | nil => rfl
  | cons child children ih =>
    rw [childTrees, List.map_cons, childTree, ih]

theorem clauseTrees_eq (name : Text) (fields : List (Text × Json)) :
    clauseTrees name fields = (arrayOf (Json.get fields name)).map (·.map childTree) := by
  have hitems : ∀ value, itemTrees value = (arrayOf (some value)).map (·.map childTree) := by
    intro value
    cases value with
    | arr items => exact congrArg some (childTrees_eq_map items)
    | _ => rfl
  induction fields with
  | nil => rfl
  | cons entry fields ih =>
    obtain ⟨key, value⟩ := entry
    unfold Json.get at ih ⊢
    rw [clauseTrees, List.lookup_cons]
    by_cases hname : name = key
    · rw [if_pos hname, beq_iff_eq.mpr hname, hitems]
    · rw [if_neg hname, beq_false_of_ne hname, ih]

theorem nodeTree_obj (fields : List (Text × Json)) : nodeTree (.obj fields) =
    groupOf (brokenClause fields)
      ((arrayOf (Json.get fields "all".toList)).map (·.map childTree))
      ((arrayOf (Json.get fields "any".toList)).map (·.map childTree)) := by
  rw [nodeTree, clauseTrees_eq, clauseTrees_eq]

/-- A node, as a tree. -/
theorem nodeTree_of_parse (h : parseMatchNode raw = some node) :
    nodeTree node.toJson =
      .group false (node.all.map (·.map childTree)) (node.any.map (·.map childTree)) := by
  obtain ⟨fields, hjson, hall, hany, -⟩ := toJson_eq node
  obtain ⟨-, -, -, -, hsome⟩ := parseMatchNode_eq_some.mp h
  have hwhole : brokenClause fields = false := by
    rw [brokenClause, hall, hany, notArray_map_arr, notArray_map_arr, Bool.or_false]
  rw [hjson, nodeTree_obj, hwhole, hall, hany, arrayOf_map_arr, arrayOf_map_arr, groupOf, if_neg]
  simpa [imp_iff_not_or, ← Option.isSome_iff_ne_none] using hsome

@[simp] theorem condition?_toJson (node : MatchNode) : condition? node.toJson = none := by
  obtain ⟨fields, hjson, -, -, hfield⟩ := toJson_eq node
  rw [hjson, condition?, hfield]
  rfl

/-! ### Parsing prunes -/

/-- What parsing has to do with the tree of a node. -/
def Prunes (raw : Json) : Prop :=
  (parseMatchNode raw = none → nodeTree raw = .malformed) ∧
    ∀ node, parseMatchNode raw = some node →
      (nodeTree raw).isMalformed = false ∧ nodeTree node.toJson = (nodeTree raw).prune

/-- From nodes to children. -/
theorem prunes_child (h : Prunes raw) :
    (parseMatchChild raw = none → childTree raw = .malformed) ∧
      ∀ child', parseMatchChild raw = some child' →
        (childTree raw).isMalformed = false ∧ childTree child' = (childTree raw).prune := by
  unfold parseMatchChild childTree isCondition
  cases hcondition : condition? raw with
  | some condition =>
    refine ⟨nofun, fun child' hchild => ?_⟩
    obtain rfl := Option.some.inj hchild
    exact ⟨rfl, by rw [hcondition]; rfl⟩
  | none =>
    refine ⟨fun hnone => h.1 (Option.map_eq_none_iff.mp hnone), fun child' hchild => ?_⟩
    obtain ⟨node, hnode, rfl⟩ := Option.map_eq_some_iff.mp hchild
    rw [condition?_toJson]
    exact h.2 node hnode

/-- The children that are kept are those of the pruned clause. -/
theorem map_childTree_filterMap {items : List Json} (h : ∀ item ∈ items, Prunes item) :
    (items.filterMap parseMatchChild).map childTree =
      ClauseTree.pruneChildren (items.map childTree) := by
  induction items with
  | nil => rfl
  | cons item items ih =>
    have hrest := ih fun i hi => h i (List.mem_cons_of_mem item hi)
    obtain ⟨hdropped, hkept⟩ := prunes_child (h item List.mem_cons_self)
    rw [List.filterMap_cons, List.map_cons, ClauseTree.pruneChildren]
    cases hparse : parseMatchChild item with
    | none =>
      rw [hdropped hparse]
      exact hrest
    | some child' =>
      obtain ⟨hgood, htree⟩ := hkept child' hparse
      rw [if_neg (Bool.eq_false_iff.mp hgood), List.map_cons, htree, hrest]

/-- **Parsing prunes the tree.** -/
theorem prunes (raw : Json) : Prunes raw := by
  induction raw using node_induction with
  | h raw ih =>
    have hclause : ∀ {fields : List (Text × Json)} (name : Text), raw = .obj fields →
        ((arrayOf (Json.get fields name)).map (·.filterMap parseMatchChild)).map
            (·.map childTree) =
          ClauseTree.pruneClause ((arrayOf (Json.get fields name)).map (·.map childTree)) := by
      intro fields name hraw
      rw [ClauseTree.pruneClause_eq_map]
      cases harray : arrayOf (Json.get fields name) with
      | none => rfl
      | some items =>
        exact congrArg some (map_childTree_filterMap (ih fields name items hraw harray))
    constructor
    · intro hnone
      cases raw with
      | obj fields =>
        rw [parseMatchNode_obj, MatchNode.of] at hnone
        rw [nodeTree_obj, groupOf, if_pos]
        by_contra hsome
        rw [if_neg (by simpa using hsome)] at hnone
        cases hnone
      | _ => rfl
    · intro node hnode
      obtain ⟨fields, hraw, hall, hany, hsome⟩ := parseMatchNode_eq_some.mp hnode
      have htree : nodeTree raw = .group (brokenClause fields)
          ((arrayOf (Json.get fields "all".toList)).map (·.map childTree))
          ((arrayOf (Json.get fields "any".toList)).map (·.map childTree)) := by
        rw [hraw, nodeTree_obj, groupOf, if_neg]
        rw [hall, hany] at hsome
        simpa [imp_iff_not_or, ← Option.isSome_iff_ne_none] using hsome
      rw [htree, nodeTree_of_parse hnode, ClauseTree.prune, hall, hany, hclause _ hraw,
        hclause _ hraw]
      exact ⟨rfl, rfl⟩

theorem nodeTree_toJson (h : parseMatchNode raw = some node) :
    nodeTree node.toJson = (nodeTree raw).prune :=
  ((prunes raw).2 node h).2

theorem prune_childTree {child parsed : Json} (h : parseMatchChild child = some parsed) :
    (childTree parsed).prune = childTree parsed := by
  obtain ⟨-, htree⟩ := (prunes_child (prunes child)).2 parsed h
  rw [htree, ClauseTree.prune_prune]

/-! ### Parsing twice -/

/-- A node is parsed to itself when each of its children is. -/
theorem parseMatchNode_toJson_of (h : parseMatchNode raw = some node)
    (hchildren : ∀ c ∈ node.children, parseMatchChild c = some c) :
    parseMatchNode node.toJson = some node := by
  have hclause : ∀ clause : Option (List Json), (∀ items ∈ clause, ∀ c ∈ items, c ∈ node.children) →
      clause = clause.map (·.filterMap parseMatchChild) := by
    intro clause hmem
    cases clause with
    | none => rfl
    | some items =>
      have hself : items.filterMap parseMatchChild = items.filterMap some :=
        List.filterMap_congr fun c hc => hchildren c (hmem items rfl c hc)
      rw [Option.map_some, hself, List.filterMap_some]
  obtain ⟨-, -, -, -, hsome⟩ := parseMatchNode_eq_some.mp h
  obtain ⟨fields, hjson, hall, hany, -⟩ := toJson_eq node
  rw [parseMatchNode_eq_some]
  refine ⟨fields, hjson, ?_, ?_, hsome⟩
  · rw [hall, arrayOf_map_arr]
    exact hclause _ fun items hitems c hc => MatchNode.mem_children.mpr (.inl ⟨items, hitems, hc⟩)
  · rw [hany, arrayOf_map_arr]
    exact hclause _ fun items hitems c hc => MatchNode.mem_children.mpr (.inr ⟨items, hitems, hc⟩)

/-- What a child is parsed to is parsed to itself. -/
theorem parseMatchChild_parsed {child parsed : Json} (h : parseMatchChild child = some parsed) :
    parseMatchChild parsed = some parsed := by
  induction child using node_induction generalizing parsed with
  | h child ih =>
    unfold parseMatchChild at h
    split at h
    · next hcondition =>
      obtain rfl := Option.some.inj h
      exact if_pos hcondition
    · obtain ⟨node, hnode, rfl⟩ := Option.map_eq_some_iff.mp h
      obtain ⟨fields, rfl, -⟩ := parseMatchNode_eq_some.mp hnode
      have hparse := parseMatchNode_toJson_of hnode fun c hc => by
        obtain ⟨name, items, harray, c₀, hc₀, hparsed⟩ := mem_children_of_parse hnode hc
        exact ih fields name items rfl harray c₀ hc₀ hparsed
      rw [parseMatchChild, isCondition, condition?_toJson, Option.isSome_none, if_neg nofun, hparse]
      rfl

/-- **A node that was parsed is parsed to itself.** -/
theorem parseMatchNode_toJson (h : parseMatchNode raw = some node) :
    parseMatchNode node.toJson = some node := by
  refine parseMatchNode_toJson_of h fun c hc => ?_
  obtain ⟨fields, rfl, -⟩ := parseMatchNode_eq_some.mp h
  obtain ⟨-, -, -, c₀, -, hparsed⟩ := mem_children_of_parse h hc
  exact parseMatchChild_parsed hparsed

/-! ### The engine and the tree -/

/-- A child is a condition or a parsed node, whose tree pruning leaves as it is. -/
theorem matchesChild_eq_eval [CaseMapping] {msg : InboundMessage} {raw : Json} {node : MatchNode}
    (hparse : parseMatchNode raw = some node) {child : Json} (hmem : child ∈ node.children)
    (ih : matchesNode msg child = (nodeTree child).prune.eval (matchesCondition msg)) :
    matchesChild msg child = (childTree child).eval (matchesCondition msg) := by
  obtain ⟨fields, rfl, -⟩ := parseMatchNode_eq_some.mp hparse
  obtain ⟨-, -, -, child₀, -, hparsed⟩ := mem_children_of_parse hparse hmem
  have hpruned := prune_childTree hparsed
  unfold childTree at hpruned ⊢
  rw [matchesChild]
  cases hcondition : condition? child with
  | some condition => rfl
  | none =>
    rw [hcondition] at hpruned
    change matchesNode msg child = (nodeTree child).eval _
    rw [ih, hpruned]

/-- **The engine evaluates the pruned tree.** -/
theorem matchesNode_eq_eval [CaseMapping] (msg : InboundMessage) (raw : Json) :
    matchesNode msg raw = (nodeTree raw).prune.eval (matchesCondition msg) := by
  -- The induction is on the height: the children of a parsed node lie deeper than the value.
  induction hheight : raw.height using Nat.strong_induction_on generalizing raw with
  | _ n ih =>
    cases hparse : parseMatchNode raw with
    | none =>
      have hfalse : matchesNode msg raw ≠ true := by
        rw [Ne, matchesNode_eq_true]
        rintro ⟨node, hnode, -⟩
        cases hparse.symm.trans hnode
      rw [(prunes raw).1 hparse, Bool.eq_false_iff.mpr hfalse]
      rfl
    | some node =>
      have hchild : ∀ child ∈ node.children,
          matchesChild msg child = (childTree child).eval (matchesCondition msg) := by
        intro child hmem
        have hlt := height_children hparse child hmem
        exact matchesChild_eq_eval hparse hmem (ih child.height (by omega) child rfl)
      have hall : ∀ children ∈ node.all, ∀ child ∈ children, child ∈ node.children :=
        fun children hchildren child hmem =>
          MatchNode.mem_children.mpr (.inl ⟨children, hchildren, hmem⟩)
      have hany : ∀ children ∈ node.any, ∀ child ∈ children, child ∈ node.children :=
        fun children hchildren child hmem =>
          MatchNode.mem_children.mpr (.inr ⟨children, hchildren, hmem⟩)
      obtain ⟨-, -, -, -, hsome⟩ := parseMatchNode_eq_some.mp hparse
      rw [Bool.eq_iff_iff, matchesNode_eq_true, ← nodeTree_toJson hparse, nodeTree_of_parse hparse,
        ClauseTree.eval, Bool.not_false, Bool.true_and, Bool.and_eq_true, Bool.and_eq_true,
        ClauseTree.evalAll_iff, ClauseTree.evalAny_iff, Bool.or_eq_true, Option.isSome_map,
        Option.isSome_map]
      constructor
      · rintro ⟨_, hnode, hevery, hone⟩
        obtain rfl := Option.some.inj (hparse.symm.trans hnode)
        refine ⟨hsome, fun ts hts => ?_, fun ts hts => ?_⟩
        · obtain ⟨children, hchildren, rfl⟩ := Option.map_eq_some_iff.mp hts
          obtain ⟨hne, hmatch⟩ := hevery children hchildren
          refine ⟨List.map_eq_nil_iff.not.mpr hne, List.forall_mem_map.mpr fun child hmem => ?_⟩
          rw [← hchild child (hall children hchildren child hmem)]
          exact hmatch child hmem
        · obtain ⟨children, hchildren, rfl⟩ := Option.map_eq_some_iff.mp hts
          obtain ⟨child, hmem, hmatch⟩ := hone children hchildren
          refine ⟨childTree child, List.mem_map_of_mem hmem, ?_⟩
          rw [← hchild child (hany children hchildren child hmem)]
          exact hmatch
      · rintro ⟨-, hevery, hone⟩
        refine ⟨node, hparse, fun children hchildren => ?_, fun children hchildren => ?_⟩
        · obtain ⟨hne, hmatch⟩ := hevery _ (Option.map_eq_some_iff.mpr ⟨children, hchildren, rfl⟩)
          refine ⟨List.map_eq_nil_iff.not.mp hne, fun child hmem => ?_⟩
          rw [hchild child (hall children hchildren child hmem)]
          exact hmatch _ (List.mem_map_of_mem hmem)
        · obtain ⟨t, ht, hmatch⟩ := hone _ (Option.map_eq_some_iff.mpr ⟨children, hchildren, rfl⟩)
          obtain ⟨child, hmem, rfl⟩ := List.mem_map.mp ht
          refine ⟨child, hmem, ?_⟩
          rw [hchild child (hany children hchildren child hmem)]
          exact hmatch

end MailRules
end EmailOps
