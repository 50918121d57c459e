import EmailOps.Client.RuleEditor
import EmailOps.MailRules.Guard

/-!
# A rule that is opened and saved

A rule that is opened in the editor and saved as it is may come out as another rule: the form has
one destination, and the rule may move a thread several times.

* `filed` is what a list of actions leaves of a thread: the place of the last move, and whether the
  thread is read.
* `filed_evaluateRules_congr`: rules that match alike and file alike may stand for each other.
* `resave_iff`: a rule that is saved unchanged does the same among any other rules exactly if its
  first destination is where its last move goes, or it matches nothing.
-/

namespace EmailOps
namespace RuleEditor

open Framework Framework.Text Json MailRules

/-! ### What actions leave -/

/-- What has been done with a thread. -/
structure Filed where
  place : Option EngineCall
  read : Bool
  deriving DecidableEq

def Filed.call (f : Filed) : EngineCall → Filed
  | .setThreadRead => { f with read := true }
  | .moveThreadToMailbox folderId => { f with place := some (.moveThreadToMailbox folderId) }
  | .archiveThread => { f with place := some .archiveThread }
  | .trashThread => { f with place := some .trashThread }

/-- One after the other: the last move counts. -/
def Filed.after (g f : Filed) : Filed :=
  ⟨g.place <|> f.place, g.read || f.read⟩

def untouched : Filed :=
  ⟨none, false⟩

/-- What actions leave of a thread. -/
def filed (actions : List RuleAction) : Filed :=
  (actions.filterMap (·.call?)).foldl Filed.call untouched

theorem foldl_call (calls : List EngineCall) (f : Filed) :
    calls.foldl Filed.call f = (calls.foldl Filed.call untouched).after f := by
  induction calls using List.reverseRecOn with
  | nil => rfl
  | append_singleton calls call ih =>
    rw [List.foldl_append, List.foldl_append, ih]
    cases call <;> simp [Filed.call, Filed.after]

theorem filed_append (actions actions' : List RuleAction) :
    filed (actions ++ actions') = (filed actions').after (filed actions) := by
  rw [filed, List.filterMap_append, List.foldl_append]
  exact foldl_call _ _

theorem filed_cons (action : RuleAction) (actions : List RuleAction) :
    filed (action :: actions) = (filed actions).after (filed [action]) :=
  filed_append [action] actions

/-- An action with a destination. -/
def isPlacement (action : RuleAction) : Bool :=
  action.type = .moveToFolder || action.type = .archive || action.type = .trash

/-- Where the first destination goes. -/
def firstPlace (actions : List RuleAction) : Option EngineCall :=
  (actions.find? isPlacement).bind (·.call?)

/-- Where the last move goes. -/
def lastPlace (actions : List RuleAction) : Option EngineCall :=
  (filed actions).place

theorem filed_read (actions : List RuleAction) :
    (filed actions).read = actions.any (·.type = .markRead) := by
  induction actions with
  | nil => rfl
  | cons action actions ih =>
    have hone : (filed [action]).read = decide (action.type = .markRead) := by
      obtain ⟨type, value⟩ := action
      cases type with
      | moveToFolder =>
        rw [filed, List.filterMap_cons, Inbound.RuleAction.call?]
        dsimp only
        cases trim (value.getD []) <;> rfl
      | _ => rfl
    rw [filed_cons, List.any_cons, Bool.or_comm, ← ih, ← hone]
    rfl

/-! ### What the form keeps of the actions -/

/-- The destination that the form has for an action. -/
def keptMove (action : RuleAction) : List RuleAction :=
  match action.type with
  | .moveToFolder => [⟨.moveToFolder, some (action.value.getD [])⟩]
  | .archive => [⟨.archive, none⟩]
  | .trash => [⟨.trash, none⟩]
  | _ => []

/-- A form that has a destination keeps it. -/
theorem moves_of_placed {form : RuleForm} (h : form.destination ≠ .inbox)
    (actions : List RuleAction) : (actions.foldl seedAction form).moves = form.moves := by
  induction actions generalizing form with
  | nil => rfl
  | cons action actions ih =>
    have hstep : (seedAction form action).destination = form.destination ∧
        (seedAction form action).moves = form.moves := by
      rw [seedAction]
      split
      all_goals first | rw [if_neg h]; exact ⟨rfl, rfl⟩ | exact ⟨rfl, rfl⟩
    rw [List.foldl_cons, ih (hstep.1 ▸ h), hstep.2]

/-- The first destination is kept. -/
theorem moves_foldl {form : RuleForm} (h : form.destination = .inbox) (actions : List RuleAction) :
    (actions.foldl seedAction form).moves = ((actions.find? isPlacement).map keptMove).getD [] := by
  induction actions generalizing form with
  | nil =>
    rw [List.foldl_nil, RuleForm.moves, h]
    rfl
  | cons action actions ih =>
    obtain ⟨type, value⟩ := action
    rw [List.foldl_cons, List.find?_cons]
    cases type with
    | moveToFolder | archive | trash =>
      dsimp only [seedAction]
      rw [if_pos h, moves_of_placed (by simp)]
      rfl
    | markRead | stop | label => exact ih h

theorem switches_foldl (form : RuleForm) (actions : List RuleAction) :
    (actions.foldl seedAction form).markRead = (form.markRead || actions.any (·.type = .markRead)) ∧
      (actions.foldl seedAction form).stopAfter = (form.stopAfter || stops actions) := by
  induction actions generalizing form with
  | nil => exact ⟨(Bool.or_false _).symm, (Bool.or_false _).symm⟩
  | cons action actions ih =>
    have hstep : (seedAction form action).markRead =
          (form.markRead || decide (action.type = .markRead)) ∧
        (seedAction form action).stopAfter =
          (form.stopAfter || decide (action.type = .stop)) := by
      obtain ⟨type, value⟩ := action
      cases type with
      | moveToFolder | archive | trash =>
        dsimp only [seedAction]
        split <;> exact ⟨by simp, by simp⟩
      | _ => exact ⟨by simp [seedAction], by simp [seedAction]⟩
    obtain ⟨hmark, hstop⟩ := ih (seedAction form action)
    rw [List.foldl_cons, hmark, hstop, hstep.1, hstep.2, Bool.or_assoc, Bool.or_assoc]
    exact ⟨rfl, rfl⟩

/-- **What the form of a rule does**: the first destination, and the two switches. -/
theorem filed_form {form : RuleForm} {actions : List RuleAction}
    (hplace : form.destination = .inbox) (hread : form.markRead = false)
    (hstop : form.stopAfter = false) :
    filed (actions.foldl seedAction form).actions =
        ⟨firstPlace actions, (filed actions).read⟩ ∧
      stops (actions.foldl seedAction form).actions = stops actions := by
  obtain ⟨hmark, hstops⟩ := switches_foldl form actions
  rw [hread, Bool.false_or, ← filed_read] at hmark
  rw [hstop, Bool.false_or] at hstops
  have hmoves : filed (actions.foldl seedAction form).moves = ⟨firstPlace actions, false⟩ ∧
      stops (actions.foldl seedAction form).moves = false := by
    rw [moves_foldl hplace, firstPlace]
    cases hfind : actions.find? isPlacement with
    | none => exact ⟨rfl, rfl⟩
    | some action =>
      obtain ⟨type, value⟩ := action
      have hkind := List.find?_some hfind
      cases type with
      | moveToFolder =>
        have hcall : (⟨.moveToFolder, some (value.getD [])⟩ : RuleAction).call? =
            (⟨.moveToFolder, value⟩ : RuleAction).call? := rfl
        refine ⟨?_, rfl⟩
        rw [Option.map_some, Option.getD_some, keptMove, filed, List.filterMap_cons, hcall,
          Option.bind_some, Inbound.RuleAction.call?]
        dsimp only
        cases trim (value.getD []) <;> rfl
      | archive | trash => exact ⟨rfl, rfl⟩
      | markRead | stop | label => cases hkind
  rw [RuleForm.actions, hmark, hstops, filed_append, hmoves.1]
  constructor
  · cases (filed actions).read <;> cases stops actions <;>
      simp [filed, Filed.after, Filed.call, untouched, Inbound.RuleAction.call?]
  · rw [stops, List.any_append, show List.any _ _ = false from hmoves.2, Bool.false_or]
    cases (filed actions).read <;> cases stops actions <;> rfl

/-! ### What the form keeps of the match -/

section Matching

variable [CaseMapping] {msg : InboundMessage}

def ConditionRow.holds (msg : InboundMessage) (row : ConditionRow) : Bool :=
  (condition? row.toJson).any (matchesCondition msg)

/-- Does a flat match hold? One without conditions does not. -/
def SimpleMatch.holds (msg : InboundMessage) (simple : SimpleMatch) : Bool :=
  match simple.mode with
  | .all => !simple.conditions.isEmpty && simple.conditions.all (·.holds msg)
  | .any => simple.conditions.any (·.holds msg)

/-- The children of a flat node are matched as the rows that they are. -/
theorem map_matchesChild (msg : InboundMessage) {raw : Json} {node : MatchNode} (hparse : parseMatchNode raw = some node)
    {items : List Json} (hitems : items ⊆ node.children)
    (hflat : ∀ child ∈ items, isRuleCondition child = true) :
    items.map (matchesChild msg) = (items.filterMap ruleCondition?).map (·.holds msg) := by
  induction items with
  | nil => rfl
  | cons child items ih =>
    obtain ⟨row, hrow⟩ := Option.isSome_iff_exists.mp (hflat child List.mem_cons_self)
    have hchild : matchesChild msg child = row.holds msg := by
      rw [ConditionRow.holds, ← condition?_of_ruleCondition hrow, matchesChild]
      rcases child_cases hparse (hitems List.mem_cons_self) with
        ⟨hcondition, -⟩ | ⟨-, -, -, node', -, rfl⟩
      · obtain ⟨condition, hcondition⟩ := Option.isSome_iff_exists.mp hcondition
        rw [hcondition]
        rfl
      · rw [ruleCondition?_node] at hrow
        cases hrow
    rw [List.map_cons, List.filterMap_cons, hrow, hchild,
      ih (fun c hc => hitems (List.mem_cons_of_mem child hc))
        fun c hc => hflat c (List.mem_cons_of_mem child hc)]
    rfl

/-- **A flat match is matched as the form shows it.** -/
theorem matchesNode_flat {raw : Json} {simple : SimpleMatch}
    (h : flattenSimpleMatch (parseMatch raw) = some simple) :
    matchesNode msg raw = simple.holds msg := by
  obtain ⟨hboth, hflat, rfl⟩ := flattenSimpleMatch_eq_some.mp h
  rw [parseMatch] at hboth hflat ⊢
  cases hparse : parseMatchNode raw with
  | none =>
    rw [matchesNode_of_none msg hparse]
    rfl
  | some node =>
    rw [hparse, Option.getD_some] at hboth hflat
    rw [Option.getD_some, Bool.eq_iff_iff, matchesNode_eq_true, hparse]
    simp only [Option.some.injEq, exists_eq_left']
    obtain ⟨-, -, -, -, hsome⟩ := parseMatchNode_eq_some.mp hparse
    have hrows := map_matchesChild msg hparse node.items_subset hflat
    have hall : node.items.all (matchesChild msg) =
        (node.items.filterMap ruleCondition?).all (·.holds msg) := by
      have hmapped := congrArg (List.all · id) hrows
      rwa [List.all_map, List.all_map] at hmapped
    have hany : node.items.any (matchesChild msg) =
        (node.items.filterMap ruleCondition?).any (·.holds msg) := by
      have hmapped := congrArg (List.any · id) hrows
      rwa [List.any_map, List.any_map] at hmapped
    have hempty : (node.items.filterMap ruleCondition?).isEmpty = node.items.isEmpty := by
      have hlength := congrArg List.length hrows
      rw [List.length_map, List.length_map] at hlength
      rw [Bool.eq_iff_iff, List.isEmpty_iff_length_eq_zero, List.isEmpty_iff_length_eq_zero, hlength]
    have hclause : ∀ {items : List Json} (p : List Json → Prop),
        (∀ children ∈ some items, p children) ↔ p items :=
      fun p => ⟨fun h => h _ rfl, fun h _ hc => Option.some.inj hc ▸ h⟩
    have hnone : ∀ {p : List Json → Prop}, ∀ children ∈ none, p children :=
      fun _ hc => absurd hc (Option.not_mem_none _)
    obtain ⟨all, any⟩ := node
    -- One of the clauses is there, and the other is not.
    cases all with
    | none =>
      cases any with
      | none => exact absurd hsome (by simp)
      | some items =>
        calc _ ↔ items.any (matchesChild msg) = true := by
              rw [List.any_eq_true]
              exact (and_iff_right hnone).trans (hclause _)
          _ ↔ _ := by
              rw [show items.any (matchesChild msg) = _ from hany]
              exact Iff.rfl
    | some items =>
      cases any with
      | some items' => cases hboth
      | none =>
        calc _ ↔ (!items.isEmpty && items.all (matchesChild msg)) = true := by
              rw [Bool.and_eq_true, List.all_eq_true, Bool.not_eq_true', List.isEmpty_eq_false_iff]
              exact (and_iff_left hnone).trans (hclause _)
          _ ↔ _ := by
              rw [show items.all (matchesChild msg) = _ from hall,
                show items.isEmpty = _ from hempty.symm]
              exact Iff.rfl

/-! ### Rules that stand for each other -/

/-- Two rules do the same with a message. -/
structure Alike (msg : InboundMessage) (a b : CompiledRule) : Prop where
  priority : a.priority = b.priority
  fire : fires msg a = fires msg b
  stop : fires msg a = true → stops (parseActions a.actions) = stops (parseActions b.actions)
  file : fires msg a = true → filed (parseActions a.actions) = filed (parseActions b.actions)

theorem Alike.refl (rule : CompiledRule) : Alike msg rule rule :=
  ⟨rfl, rfl, fun _ => rfl, fun _ => rfl⟩

theorem evaluateInOrder_cons (rule : CompiledRule) (rules : List CompiledRule) :
    evaluateInOrder msg (rule :: rules) =
      if fires msg rule then
        if stops (parseActions rule.actions) then parseActions rule.actions
        else parseActions rule.actions ++ evaluateInOrder msg rules
      else evaluateInOrder msg rules := by
  rw [evaluateInOrder, fires]
  cases rule.enabled with
  | false => rfl
  | true =>
    cases matchesNode msg rule.match? with
    | false => rfl
    | true => rfl

theorem filed_evaluateInOrder_congr {pairs : List (CompiledRule × CompiledRule)}
    (h : ∀ p ∈ pairs, Alike msg p.1 p.2) :
    filed (evaluateInOrder msg (pairs.map Prod.fst)) =
      filed (evaluateInOrder msg (pairs.map Prod.snd)) := by
  induction pairs with
  | nil => rfl
  | cons p pairs ih =>
    have hrest := ih fun q hq => h q (List.mem_cons_of_mem p hq)
    obtain ⟨-, hfires, hstops, hfiled⟩ := h p List.mem_cons_self
    rw [List.map_cons, List.map_cons, evaluateInOrder_cons, evaluateInOrder_cons, ← hfires]
    split
    · next hfire =>
      rw [← hstops hfire]
      split
      · exact hfiled hfire
      · rw [filed_append, filed_append, hrest, hfiled hfire]
    · exact hrest

/-- **Rules may stand for rules that do the same.** -/
theorem filed_evaluateRules_congr {pairs : List (CompiledRule × CompiledRule)}
    (h : ∀ p ∈ pairs, Alike msg p.1 p.2) :
    filed (evaluateRules (pairs.map Prod.fst) msg) =
      filed (evaluateRules (pairs.map Prod.snd) msg) := by
  -- Pairs are sorted as either of their rules.
  let sorted := pairs.insertionSort fun p q => p.1.priority ≤ q.1.priority
  have hfst : byPriority (pairs.map Prod.fst) = sorted.map Prod.fst :=
    (List.map_insertionSort _ _ Prod.fst pairs fun _ _ _ _ => Iff.rfl).symm
  have hsnd : byPriority (pairs.map Prod.snd) = sorted.map Prod.snd :=
    (List.map_insertionSort _ _ Prod.snd pairs fun p hp q hq => by
      rw [(h p hp).priority, (h q hq).priority]).symm
  rw [evaluateRules, evaluateRules, hfst, hsnd]
  exact filed_evaluateInOrder_congr fun p hp => h p (List.mem_insertionSort _ |>.mp hp)

/-! ### Opening and saving -/

/-- A rule is opened and saved without an edit, and the server accepts it. -/
def Resaved (rule rule' : MailRule) : Prop :=
  ∃ editing count body, submitRule editing count (openEdit (view rule)) = .ok body ∧
    compileBody body = .ok rule'

/-- No condition of a flat rule has white space around its value. -/
def Tidy (raw : Json) : Prop :=
  ∀ simple, flattenSimpleMatch (parseMatch raw) = some simple →
    ∀ row ∈ simple.conditions, trim row.value = row.value

omit [CaseMapping] in
/-- What the client lets pass unedited is flat. -/
theorem flat_of_passes {rule : MailRule} (h : Passes (openEdit (view rule))) :
    ∃ simple, flattenSimpleMatch (parseMatch rule.match?) = some simple ∧
      (openEdit (view rule)).matchMode = simple.mode ∧
      (openEdit (view rule)).rows = simple.conditions := by
  obtain ⟨-, hmode, hrows⟩ := foldl_seedAction (view rule).actions (seedMatch (view rule))
  have hvalues := h.values
  have hempty : (seedMatch (view rule)).rows ≠ [makeRow] := fun hrow =>
    hvalues makeRow (by rw [openEdit, hrows, hrow]; exact List.mem_singleton_self _) rfl
  rw [openEdit, hmode, hrows]
  rw [seedMatch] at hempty ⊢
  split at hempty
  · next simple hflat =>
    refine ⟨simple, hflat, ?_⟩
    by_cases hnil : simple.conditions = []
    · exact absurd (if_pos hnil) hempty
    · exact ⟨rfl, if_neg hnil⟩
  · exact absurd rfl hempty

/-- **What an unedited rule is saved as**: the same match, but for white space around values, and
the first destination alone. -/
theorem Resaved.spec {rule rule' : MailRule} (h : Resaved rule rule') :
    (Tidy rule.match? → ∀ msg, matchesNode msg rule'.match? = matchesNode msg rule.match?) ∧
      filed (parseActions rule'.actions) =
        ⟨firstPlace (parseActions rule.actions), (filed (parseActions rule.actions)).read⟩ ∧
      stops (parseActions rule'.actions) = stops (parseActions rule.actions) := by
  obtain ⟨editing, count, body, hsubmit, hcompile⟩ := h
  have hformed := formed_openEdit rule
  obtain ⟨hpasses, rfl⟩ := passes_of_submitRule hsubmit
  obtain ⟨-, rfl⟩ := (compileBody_eq_ok hformed hpasses).mp hcompile
  refine ⟨fun htidy msg => ?_, ?_⟩
  · obtain ⟨simple, hflat, hmode, hrows⟩ := flat_of_passes hpasses
    have hsaved : flattenSimpleMatch (parseMatch (openEdit (view rule)).node.toJson) =
        some simple := by
      rw [← match_eq, parseMatch, parse_match hformed.valid, Option.getD_some, flatten_node, hmode,
        hrows]
      have hkept : simple.conditions.map ConditionRow.tidied = simple.conditions :=
        (List.map_congr_left fun row hrow => by
          rw [ConditionRow.tidied, htidy simple hflat row hrow]
          rfl).trans (List.map_id _)
      rw [hkept]
    rw [matchesNode_flat hsaved, matchesNode_flat hflat]
  · rw [parseActions_actionJson]
    have hseed : (seedMatch (view rule)).destination = .inbox ∧
        (seedMatch (view rule)).markRead = false ∧ (seedMatch (view rule)).stopAfter = false := by
      rw [seedMatch]
      split <;> exact ⟨rfl, rfl, rfl⟩
    exact filed_form hseed.1 hseed.2.1 hseed.2.2

/-- **Saving a rule as it is keeps what the rules do, exactly if its first destination is its
last.** Among whatever other rules: every message ends where it would have, read or not, if and only
if the rule never fires or the first destination among its actions is where its last move goes. -/
theorem resave_iff {name : Text} {rule : CompiledRule} {rule' : MailRule}
    (h : Resaved ⟨name, rule.match?, rule.actions⟩ rule') (htidy : Tidy rule.match?) :
    (∀ (before after : List CompiledRule) (msg : InboundMessage),
      filed (evaluateRules (before ++
          { rule with match? := rule'.match?, actions := rule'.actions } :: after) msg) =
        filed (evaluateRules (before ++ rule :: after) msg)) ↔
      ((∃ msg, fires msg rule = true) →
        firstPlace (parseActions rule.actions) = lastPlace (parseActions rule.actions)) := by
  obtain ⟨hmatch, hfiled, hstops⟩ := h.spec
  have hfires : ∀ msg, fires msg { rule with match? := rule'.match?, actions := rule'.actions } =
      fires msg rule := fun msg => congrArg (rule.enabled && ·) (hmatch htidy msg)
  constructor
  · rintro hsame ⟨msg, hfire⟩
    have hone := hsame [] [] msg
    rw [List.nil_append, List.nil_append, evaluateRules_singleton, evaluateRules_singleton, hfires,
      if_pos hfire, if_pos hfire, hfiled] at hone
    exact congrArg Filed.place hone
  · intro hplace before after msg
    let pairs := before.map (fun x => (x, x)) ++
      ({ rule with match? := rule'.match?, actions := rule'.actions }, rule) ::
        after.map fun x => (x, x)
    have halike : ∀ p ∈ pairs, Alike msg p.1 p.2 := by
      intro p hp
      rcases List.mem_append.mp hp with hp | hp
      · obtain ⟨x, -, rfl⟩ := List.mem_map.mp hp
        exact .refl x
      · rcases List.mem_cons.mp hp with rfl | hp
        · refine ⟨rfl, hfires msg, fun _ => hstops, fun hfire => ?_⟩
          rw [hfiled, hplace ⟨msg, hfires msg ▸ hfire⟩]
          rfl
        · obtain ⟨x, -, rfl⟩ := List.mem_map.mp hp
          exact .refl x
    have hcongr := filed_evaluateRules_congr halike
    simpa [pairs, Function.comp_def] using hcongr

end Matching

/-- A rule for Alice's mail that moves a thread and then puts it in the trash. -/
def movesTwice : CompiledRule where
  id := "r"
  enabled := true
  priority := 10
  match? := .obj [("all".toList, .arr [
    .obj [("field".toList, .str "from".toList), ("op".toList, .str "contains".toList),
      ("value".toList, .str "alice".toList)]])]
  actions := .arr ([⟨.moveToFolder, some "f".toList⟩, ⟨.trash, none⟩].map actionJson)

theorem resave_iff_movesTwice : ∃ rule', (∀ before after msg,
    filed (evaluateRules (before ++
        { movesTwice with match? := MailRule.match? rule', actions := rule'.actions } :: after) msg) =
      filed (evaluateRules (before ++ movesTwice :: after) msg)) ↔
    ((∃ msg, fires msg movesTwice = true) →
      firstPlace (parseActions movesTwice.actions) = lastPlace (parseActions movesTwice.actions)) :=
  ⟨_, @resave_iff _ "Alice".toList movesTwice _ ⟨true, 1, _, rfl, rfl⟩ fun simple hflat => by
    obtain rfl := Option.some.inj hflat
    decide⟩

/-- Saved as it is, the rule no longer puts threads in the trash. -/
example : (firstPlace (parseActions movesTwice.actions), lastPlace (parseActions movesTwice.actions)) =
    (some (.moveThreadToMailbox "f".toList), some .trashThread) := by
  decide

end RuleEditor
end EmailOps
