import EmailOps.Cleanup.Protocol
import EmailOps.Email.Autonomy

/-!
# Planning, and the protection of messages

`planCleanup` lists the messages that match the criteria, completes what the listing left
out, and separates the rows that are safe to clean up from the protected ones: a message is
protected when it is starred, or when the domain of its sender is, and it is a candidate
only when the criteria name it. `executeCleanup` plans again and takes the ids of its
caller that the new plan has. `approveCleanupBatch` takes the ids of the staged plan as they
are, whenever it is called.

A message keeps its headers for as long as it exists; what changes is whether it exists, its
labels, and its importance. For Outlook the importance is what the star is for Gmail, and
only `get_message` asks Graph for it.

* `planCleanup` is the plan, `SafeNow` what the same rules say of the message itself.
* `mem_safe_iff`: the ids of a plan's safe rows.
* `handed_ids_safe_iff`: on either path, exactly when every id that is handed to the
  provider is one of a message that is safe then.
-/

namespace EmailOps
namespace Cleanup

open Framework Framework.Text

section Planner

variable [CaseMapping]

/-! ### Messages -/

/-- What a message keeps. For Outlook the sender is the bare address. -/
structure MessageContent where
  sender : Text
  subject : Text
  date : Text
  sizeEstimate : ℕ

/-- What changes about a message: its labels (Gmail), and its importance (Outlook). -/
structure MessageFlags where
  labelIds : List Text
  importance : Text

/-- The account of a user, and the messages it has ever had. -/
structure Account where
  provider : Provider
  content : Text → MessageContent

/-- The messages there are at one time. -/
abbrev Mailbox := Text → Option MessageFlags

/-- What the engine answers about a message. -/
structure EngineMessageSummary where
  id : Text
  subject : Option Text
  sender : Option Text
  date : Option Text
  labels : Option (List Text)
  isStarred : Option Bool
  sizeBytes : Option ℕ

namespace Account

variable (account : Account)

/-- A message in the answer of `list_messages`. Gmail lists ids only, and Graph is not asked
for the importance. -/
def listMessage (id : Text) : EngineMessageSummary :=
  match account.provider with
  | .gmail => ⟨id, some [], some [], some [], some [], some false, some 0⟩
  | .microsoft =>
    let content := account.content id
    ⟨id, some content.subject, some content.sender, some content.date, some [], some false, some 0⟩

/-- Is the message starred, or of high importance? -/
def starred (flags : MessageFlags) : Bool :=
  match account.provider with
  | .gmail => flags.labelIds.contains "STARRED".toList
  | .microsoft => flags.importance = "high".toList

/-- The labels that the engine answers. -/
def labels (flags : MessageFlags) : List Text :=
  match account.provider with
  | .gmail => flags.labelIds
  | .microsoft => []

/-- The answer of `get_message`. -/
def getMessage (id : Text) (flags : MessageFlags) : EngineMessageSummary :=
  let content := account.content id
  { id := id
    subject := some content.subject
    sender := some content.sender
    date := some content.date
    labels := some (account.labels flags)
    isStarred := some (account.starred flags)
    sizeBytes := some (match account.provider with
      | .gmail => content.sizeEstimate
      | .microsoft => 0) }

end Account

/-- How the provider and the engine answer. -/
structure Answers where
  /-- The ids of a page, and the token of the next one. -/
  listMessages : (query : Text) → (perPage : ℕ) → (pageToken : Option Text) →
    Option (List Text × Option Text)
  /-- Does `/messages/get` succeed? -/
  getMessage : Text → Bool

/-! ### The rules -/

/-- The settings of the environment. -/
structure CleanerEnv where
  protectedDomains : Option Text
  protectedSuffixes : Option Text

omit [CaseMapping] in
def parseCsvEnv (raw : Option Text) (fallback : List Text) : List Text :=
  match raw with
  | none | some [] => fallback
  | some raw => ((raw.splitOn ',').map trim).filter (· ≠ [])

omit [CaseMapping] in
def CleanerEnv.domains (env : CleanerEnv) : List Text :=
  parseCsvEnv env.protectedDomains <|
    ["usaa.com", "bankofamerica.com", "chase.com", "paypal.com", "venmo.com", "mychart.com",
      "questdiagnostics.com"].map (·.toList)

omit [CaseMapping] in
def CleanerEnv.suffixes (env : CleanerEnv) : List Text :=
  parseCsvEnv env.protectedSuffixes ([".gov", ".mil", ".edu"].map (·.toList))

omit [CaseMapping] in
/-- `sender.match(/<([^>]+)>/)?.[1]`: from the first `<` that something stands behind, up to
the next `>`. -/
def bracketedAddress : Text → Option Text
  | [] => none
  | c :: rest =>
    let inner := rest.takeWhile (· ≠ '>')
    if c = '<' && inner ≠ [] && inner.length < rest.length then some inner
    else bracketedAddress rest

/-- The domain of a sender, and nothing when there is none. -/
def domainOfSender (sender : Option Text) : Text :=
  match sender with
  | none | some [] => []
  | some sender =>
    match afterLastAt ((bracketedAddress sender).getD sender) with
    | none => []
    | some domain => toLowerCase (trim domain)

/-- Why a message is protected. -/
def protectionReason (env : CleanerEnv) (sender : Option Text) (starred : Bool) : Option Text :=
  if starred then some "starred".toList
  else
    let domain := domainOfSender sender
    if domain = [] then some "unparseable sender".toList
    else if env.domains.contains domain then some ("protected domain: ".toList ++ domain)
    else
      (env.suffixes.find? (·.isSuffixOf domain)).map fun suffix =>
        "protected suffix: ".toList ++ suffix

omit [CaseMapping] in
def cleanString (value : Option Text) : Option Text :=
  value.bind fun value => if trim value = [] then none else some (trim value)

/-- A row of a plan. -/
structure CleanupPlanMessageView where
  id : Text
  sender : Option Text
  subject : Option Text
  date : Option Text
  sizeBytes : ℕ
  starred : Bool
  labels : List Text
  reason : Option Text

omit [CaseMapping] in
/-- Is the row one of a protected message? -/
def CleanupPlanMessageView.isProtected (row : CleanupPlanMessageView) : Bool :=
  row.reason.isSome

omit [CaseMapping] in
/-- What the cleanup protocol reads of a row. -/
def CleanupPlanMessageView.row (row : CleanupPlanMessageView) : PlanRow :=
  ⟨row.id, row.sizeBytes⟩

def classifyMessage (env : CleanerEnv) (message : EngineMessageSummary) : CleanupPlanMessageView :=
  let starred := message.isStarred.getD false
  { id := message.id
    sender := cleanString message.sender
    subject := cleanString message.subject
    date := cleanString message.date
    sizeBytes := message.sizeBytes.getD 0
    starred := starred
    labels := message.labels.getD []
    reason := protectionReason env message.sender starred }

/-! ### The criteria -/

/-- What a cleanup is about. -/
structure CleanupCriteria where
  query : Option Text
  categories : Option (List Text)
  maxResults : Option ℤ

namespace CleanupCriteria

variable (criteria : CleanupCriteria)

def hasQuery : Bool :=
  (criteria.query.map trim).getD [] ≠ []

def loweredCategories : List Text :=
  (criteria.categories.getD []).map toLowerCase

omit [CaseMapping] in
def normalize : CleanupCriteria :=
  { criteria with
    query := some (criteria.query.getD [])
    categories := some (criteria.categories.getD []) }

end CleanupCriteria

omit [CaseMapping] in
def categoryQuery : List (Text × Text) :=
  [("promotional", "category:promotions"), ("promotions", "category:promotions"),
    ("social", "category:social"), ("newsletter", "category:updates"),
    ("updates", "category:updates"), ("forums", "category:forums")].map
      fun (category, query) => (category.toList, query.toList)

omit [CaseMapping] in
def categoryLabels : List (Text × List Text) :=
  [("promotional", ["CATEGORY_PROMOTIONS"]), ("promotions", ["CATEGORY_PROMOTIONS"]),
    ("social", ["CATEGORY_SOCIAL"]), ("newsletter", ["CATEGORY_UPDATES", "CATEGORY_FORUMS"]),
    ("updates", ["CATEGORY_UPDATES"]), ("forums", ["CATEGORY_FORUMS"])].map
      fun (category, labels) => (category.toList, labels.map (·.toList))

/-- The query of the criteria, or else that of their categories. -/
def backupQueryFor (criteria : CleanupCriteria) : Text :=
  if criteria.hasQuery then (criteria.query.map trim).getD []
  else
    match (criteria.loweredCategories.filterMap fun c => List.lookup c categoryQuery).eraseDups with
    | [] => "category:promotions".toList
    | [term] => term
    | terms => '(' :: join " OR ".toList terms ++ [')']

omit [CaseMapping] in
/-- Is the row one that the criteria ask for? -/
def isCleanupCandidate (toUpperCase : Text → Text) (labels : List Text) (categories : List Text)
    (hasQuery : Bool) : Bool :=
  if hasQuery then true
  else if categories = [] then false
  else
    let wantedLabels := categories.flatMap fun c => (List.lookup c categoryLabels).getD []
    if wantedLabels = [] then false
    else (labels.map toUpperCase).any wantedLabels.contains

/-! ### The plan -/

/-- How many messages one plan reviews. -/
def reviewPreviewCap : ℤ := 500

section Plan

variable (env : CleanerEnv) (toUpperCase : Text → Text) (account : Account) (mailbox : Mailbox)
  (answers : Answers)

omit [CaseMapping] in
/-- The pages of the listing, of which there are 10 at most. -/
def listPages (query : Text) (perPage reviewCap : ℕ) :
    ℕ → Option Text → List EngineMessageSummary → List EngineMessageSummary
  | 0, _, messages => messages
  | pages + 1, pageToken, messages =>
    if messages.length < reviewCap then
      match answers.listMessages query perPage pageToken with
      | none => messages
      | some (ids, next) =>
        let messages := messages ++
          (ids.filter fun id => (mailbox id).isSome).map account.listMessage
        match next with
        | none | some [] => messages
        | some token => listPages query perPage reviewCap pages (some token) messages
    else messages

omit [CaseMapping] in
def needsEnrichment (message : EngineMessageSummary) : Bool :=
  message.sender.getD [] = [] || message.sizeBytes.isNone || message.isStarred.isNone ||
    message.labels.isNone

omit [CaseMapping] in
/-- The message as `/messages/get` has it, when the listing has left something out. -/
def enrich (message : EngineMessageSummary) : EngineMessageSummary :=
  if needsEnrichment message && answers.getMessage message.id then
    ((mailbox message.id).map (account.getMessage message.id)).getD message
  else message

def collectMessages (criteria : CleanupCriteria) : List EngineMessageSummary :=
  let perPage := (max 1 (min (criteria.maxResults.getD 200) 500)).toNat
  let reviewCap :=
    (max 1 (min (criteria.maxResults.getD reviewPreviewCap) reviewPreviewCap)).toNat
  ((listPages account mailbox answers (backupQueryFor criteria) perPage reviewCap 10 none []).take
    reviewCap).map (enrich account mailbox answers)

structure CleanupPlanResult where
  criteria : CleanupCriteria
  reviewed : ℕ
  freesBytes : ℕ
  protectedRows : List CleanupPlanMessageView
  safe : List CleanupPlanMessageView
  backupQuery : Text

/-- Is the row safe to clean up? -/
def isSafe (criteria : CleanupCriteria) (row : CleanupPlanMessageView) : Bool :=
  !row.isProtected &&
    isCleanupCandidate toUpperCase row.labels criteria.loweredCategories criteria.hasQuery

def planCleanup (criteria : CleanupCriteria) : CleanupPlanResult :=
  let plans := (collectMessages account mailbox answers criteria).map (classifyMessage env)
  let safeRows := plans.filter (isSafe toUpperCase criteria)
  { criteria := criteria.normalize
    reviewed := plans.length
    freesBytes := (safeRows.map (·.sizeBytes)).sum
    protectedRows := plans.filter (·.isProtected)
    safe := safeRows
    backupQuery := backupQueryFor criteria }

/-! ### What is handed to the provider -/

omit [CaseMapping] in
/-- The batch that `stageCleanupRequest` writes for a plan. -/
def stagedBatch (id workspaceId : String) (mode : CleanupMode) (plan : CleanupPlanResult) :
    CleanupBatch where
  id := id
  workspaceId := workspaceId
  provider := account.provider
  mode := mode
  state := .pending
  safe := plan.safe.map (·.row)
  query := plan.backupQuery
  result := none
  backup := none

omit [CaseMapping] in
/-- The ids that a run hands to the provider. -/
def Job.handed (job : Job) : List Text :=
  match actionOf job.entry job.mode with
  | .archive | .trash | .organize => job.requested
  | .notImplemented => []

/-- Is the message there, and do the rules call it safe? -/
def safeNow (criteria : CleanupCriteria) (id : Text) : Bool :=
  (mailbox id).any fun flags =>
    isSafe toUpperCase criteria (classifyMessage env (account.getMessage id flags))

/-- Is the sender's domain one that the rules leave unprotected? -/
def unprotectedSender (id : Text) : Bool :=
  (protectionReason env (some (account.content id).sender) false).isNone

/-- Is the message one whose importance alone protects it, where nobody asks for it? -/
def overlooked (criteria : CleanupCriteria) (id : Text) : Bool :=
  account.provider = .microsoft && criteria.hasQuery && unprotectedSender env account id &&
    (mailbox id).any account.starred

/-- Is the message still there, without a star, and in the categories? -/
def unmarked (criteria : CleanupCriteria) (id : Text) : Bool :=
  (mailbox id).any fun flags => !account.starred flags &&
    isCleanupCandidate toUpperCase (account.labels flags) criteria.loweredCategories
      criteria.hasQuery

/-! ### The safe rows of a plan -/

variable {env toUpperCase account mailbox answers}

omit [CaseMapping] in
@[simp] theorem listMessage_id (id : Text) : (account.listMessage id).id = id := by
  unfold Account.listMessage
  cases account.provider with
  | gmail => rfl
  | microsoft => rfl

omit [CaseMapping] in
@[simp] theorem enrich_id (message : EngineMessageSummary) :
    (enrich account mailbox answers message).id = message.id := by
  unfold enrich
  split
  · cases mailbox message.id with
    | none => rfl
    | some flags => rfl
  · rfl

omit [CaseMapping] in
/-- Gmail lists an id, which is then fetched. -/
theorem enrich_gmail (hprovider : account.provider = .gmail) {id : Text} {flags : MessageFlags}
    (hflags : mailbox id = some flags) :
    enrich account mailbox answers (account.listMessage id) =
      if answers.getMessage id then account.getMessage id flags
      else ⟨id, some [], some [], some [], some [], some false, some 0⟩ := by
  have hlisted : account.listMessage id =
      ⟨id, some [], some [], some [], some [], some false, some 0⟩ := by
    unfold Account.listMessage
    rw [hprovider]
  rw [hlisted, enrich]
  change (if true && answers.getMessage id then _ else _) = _
  rw [Bool.true_and, hflags]
  rfl

omit [CaseMapping] in
theorem listMessage_microsoft (hprovider : account.provider = .microsoft) (id : Text) :
    account.listMessage id = ⟨id, some (account.content id).subject,
      some (account.content id).sender, some (account.content id).date, some [], some false,
      some 0⟩ := by
  unfold Account.listMessage
  rw [hprovider]

omit [CaseMapping] in
theorem enrich_microsoft (hprovider : account.provider = .microsoft) {id : Text}
    (hsender : (account.content id).sender ≠ []) :
    enrich account mailbox answers (account.listMessage id) = account.listMessage id := by
  have hneeds : needsEnrichment (account.listMessage id) = false := by
    rw [listMessage_microsoft hprovider]
    simp [needsEnrichment, hsender]
  rw [enrich, hneeds, Bool.false_and, if_neg (by decide)]

omit [CaseMapping] in
/-- Whether it is fetched or not, it has its sender. -/
theorem enrich_sender (hprovider : account.provider = .microsoft) {id : Text}
    {flags : MessageFlags} (hflags : mailbox id = some flags) :
    (enrich account mailbox answers (account.listMessage id)).sender =
      some (account.content id).sender := by
  unfold enrich
  rw [listMessage_id, hflags]
  split
  · rfl
  · rw [listMessage_microsoft hprovider]

omit [CaseMapping] in
/-- What holds of the messages of every page holds of what is listed. -/
theorem forall_mem_listPages {p : EngineMessageSummary → Prop} {query : Text}
    {perPage reviewCap pages : ℕ} {pageToken : Option Text} {messages : List EngineMessageSummary}
    (hmessages : ∀ m ∈ messages, p m)
    (hpage : ∀ token ids next, answers.listMessages query perPage token = some (ids, next) →
      ∀ id ∈ ids, (mailbox id).isSome → p (account.listMessage id)) :
    ∀ m ∈ listPages account mailbox answers query perPage reviewCap pages pageToken messages,
      p m := by
  -- The induction is on the pages.
  induction pages generalizing pageToken messages with
  | zero => exact hmessages
  | succ pages ih =>
    unfold listPages
    split
    · split
      · exact hmessages
      · next ids next hanswer =>
        have hmore : ∀ m ∈ messages ++
            (ids.filter fun id => (mailbox id).isSome).map account.listMessage, p m := by
          intro m hm
          cases List.mem_append.mp hm with
          | inl hold => exact hmessages m hold
          | inr hnew =>
            obtain ⟨id, hid, rfl⟩ := List.mem_map.mp hnew
            obtain ⟨hlisted, hthere⟩ := List.mem_filter.mp hid
            exact hpage pageToken ids next hanswer id hlisted hthere
        dsimp only
        split
        · exact hmore
        · exact hmore
        · exact ih hmore
    · exact hmessages

omit [CaseMapping] in
theorem mem_listPages {query : Text} {perPage reviewCap pages : ℕ} {pageToken : Option Text}
    {message : EngineMessageSummary}
    (h : message ∈ listPages account mailbox answers query perPage reviewCap pages pageToken []) :
    (mailbox message.id).isSome ∧ message = account.listMessage message.id := by
  refine forall_mem_listPages (p := fun m => (mailbox m.id).isSome ∧ m = account.listMessage m.id)
    (fun _ hm => by cases hm) (fun _ _ _ _ id _ hthere => ?_) message h
  rw [listMessage_id]
  exact ⟨hthere, rfl⟩

theorem mem_collectMessages {criteria : CleanupCriteria} {message : EngineMessageSummary}
    (h : message ∈ collectMessages account mailbox answers criteria) :
    (∃ flags, mailbox message.id = some flags) ∧
      message = enrich account mailbox answers (account.listMessage message.id) := by
  obtain ⟨listed, hlisted, rfl⟩ := List.mem_map.mp h
  obtain ⟨hsome, hlist⟩ := mem_listPages (List.mem_of_mem_take hlisted)
  rw [enrich_id, ← hlist]
  exact ⟨Option.isSome_iff_exists.mp hsome, rfl⟩

theorem protectionReason_isNone (sender : Option Text) (starred : Bool) :
    (protectionReason env sender starred).isNone =
      (!starred && (protectionReason env sender false).isNone) := by
  cases starred with
  | true => rfl
  | false => rfl

theorem protectionReason_nil (starred : Bool) :
    (protectionReason env (some []) starred).isNone = false := by
  cases starred with
  | true => rfl
  | false => rfl

theorem isSafe_classifyMessage (criteria : CleanupCriteria) (message : EngineMessageSummary) :
    isSafe toUpperCase criteria (classifyMessage env message) =
      ((protectionReason env message.sender (message.isStarred.getD false)).isNone &&
        isCleanupCandidate toUpperCase (message.labels.getD []) criteria.loweredCategories
          criteria.hasQuery) := by
  unfold isSafe CleanupPlanMessageView.isProtected classifyMessage
  rw [← Option.not_isSome]

/-- Of a message itself. -/
theorem isSafe_getMessage (criteria : CleanupCriteria) (id : Text) (flags : MessageFlags) :
    isSafe toUpperCase criteria (classifyMessage env (account.getMessage id flags)) =
      (unprotectedSender env account id && (!account.starred flags &&
        isCleanupCandidate toUpperCase (account.labels flags) criteria.loweredCategories
          criteria.hasQuery)) := by
  rw [isSafe_classifyMessage]
  show ((protectionReason env (some (account.content id).sender) (account.starred flags)).isNone &&
    isCleanupCandidate toUpperCase (account.labels flags) _ _) = _
  rw [protectionReason_isNone]
  unfold unprotectedSender
  cases account.starred flags with
  | true => simp
  | false => simp

theorem safeNow_eq (criteria : CleanupCriteria) (id : Text) :
    safeNow env toUpperCase account mailbox criteria id =
      (unprotectedSender env account id && unmarked toUpperCase account mailbox criteria id) := by
  unfold safeNow unmarked
  cases mailbox id with
  | none => simp
  | some flags => simp only [Option.any_some, isSafe_getMessage]

/-- Which of the messages reviewed a plan calls safe: for Gmail those that are, when they
can be fetched; for Outlook those of a query whose sender is unprotected. -/
def plannedSafe (env : CleanerEnv) (toUpperCase : Text → Text) (account : Account)
    (mailbox : Mailbox) (answers : Answers) (criteria : CleanupCriteria) (id : Text) : Bool :=
  match account.provider with
  | .gmail => answers.getMessage id && safeNow env toUpperCase account mailbox criteria id
  | .microsoft => unprotectedSender env account id && criteria.hasQuery

omit [CaseMapping] in
/-- Without labels only a query makes a candidate. -/
theorem isCleanupCandidate_nil (categories : List Text) (hasQuery : Bool) :
    isCleanupCandidate toUpperCase [] categories hasQuery = hasQuery := by
  unfold isCleanupCandidate
  cases hasQuery with
  | true => rfl
  | false =>
    rw [if_neg (by decide)]
    split
    · rfl
    · dsimp only
      split
      · rfl
      · rfl

theorem isSafe_of_no_sender {criteria : CleanupCriteria} {message : EngineMessageSummary}
    (h : message.sender = some []) :
    isSafe toUpperCase criteria (classifyMessage env message) = false := by
  rw [isSafe_classifyMessage, h, protectionReason_nil, Bool.false_and]

/-- Is a message that is reviewed called safe? -/
theorem isSafe_reviewed (criteria : CleanupCriteria) {id : Text} {flags : MessageFlags}
    (hflags : mailbox id = some flags) :
    isSafe toUpperCase criteria
        (classifyMessage env (enrich account mailbox answers (account.listMessage id))) =
      plannedSafe env toUpperCase account mailbox answers criteria id := by
  unfold plannedSafe
  cases hprovider : account.provider with
  | gmail =>
    rw [enrich_gmail hprovider hflags]
    cases answers.getMessage id with
    | true =>
      rw [if_pos rfl, safeNow, hflags]
      rfl
    | false =>
      rw [if_neg (by decide), isSafe_of_no_sender rfl]
      rfl
  | microsoft =>
    by_cases hsender : (account.content id).sender = []
    · have hunprotected : unprotectedSender env account id = false := by
        unfold unprotectedSender
        rw [hsender, protectionReason_nil]
      rw [hunprotected, Bool.false_and]
      exact isSafe_of_no_sender ((enrich_sender hprovider hflags).trans (congrArg some hsender))
    · rw [enrich_microsoft hprovider hsender, isSafe_classifyMessage,
        listMessage_microsoft hprovider]
      show ((protectionReason env (some (account.content id).sender) false).isNone &&
        isCleanupCandidate toUpperCase [] _ _) = _
      rw [isCleanupCandidate_nil, unprotectedSender]

/-- **The ids of a plan's safe rows.** -/
theorem mem_safe_iff (criteria : CleanupCriteria) (id : Text) :
    id ∈ (planCleanup env toUpperCase account mailbox answers criteria).safe.map (·.id) ↔
      id ∈ (collectMessages account mailbox answers criteria).map (·.id) ∧
        plannedSafe env toUpperCase account mailbox answers criteria id = true := by
  constructor
  · intro h
    obtain ⟨row, hrow, rfl⟩ := List.mem_map.mp h
    obtain ⟨hmem, hsafe⟩ := List.mem_filter.mp hrow
    obtain ⟨message, hmessage, rfl⟩ := List.mem_map.mp hmem
    -- The message is safe by the flags it had when it was reviewed.
    obtain ⟨⟨flags, hflags⟩, hreviewed⟩ := mem_collectMessages hmessage
    refine ⟨List.mem_map.mpr ⟨message, hmessage, rfl⟩, ?_⟩
    rw [hreviewed, isSafe_reviewed criteria hflags] at hsafe
    exact hsafe
  · -- A message that was collected and is safe is one of the rows.
    rintro ⟨hmem, hsafe⟩
    obtain ⟨message, hmessage, rfl⟩ := List.mem_map.mp hmem
    obtain ⟨⟨flags, hflags⟩, hreviewed⟩ := mem_collectMessages hmessage
    refine List.mem_map.mpr ⟨classifyMessage env message, List.mem_filter.mpr ⟨?_, ?_⟩, rfl⟩
    · exact List.mem_map_of_mem hmessage
    · rw [hreviewed, isSafe_reviewed criteria hflags]
      exact hsafe

/-! ### The two paths -/

omit [CaseMapping] in
theorem mem_requestedOf {plan serverPlan : List PlanRow} {id : Text} :
    id ∈ requestedOf plan serverPlan ↔ id ∈ plan.map (·.id) ∧ id ∈ serverPlan.map (·.id) := by
  unfold requestedOf
  rw [List.mem_filter, List.any_eq_true]
  refine and_congr_right fun _ => ?_
  rw [List.mem_map]
  exact exists_congr fun row => and_congr_right fun _ => decide_eq_true_iff

omit [CaseMapping] in
theorem mem_handed {job : Job} {id : Text} :
    id ∈ job.handed ↔ actionOf job.entry job.mode ≠ .notImplemented ∧ id ∈ job.requested := by
  unfold Job.handed
  cases actionOf job.entry job.mode with
  | archive | trash | organize => simp
  | notImplemented => simp

omit [CaseMapping] in
theorem map_row_id (rows : List CleanupPlanMessageView) :
    (rows.map (·.row)).map (·.id) = rows.map (·.id) := by
  rw [List.map_map]
  rfl

/-- What a plan calls safe is safe, unless its importance is overlooked. -/
theorem safeNow_of_plannedSafe {criteria : CleanupCriteria} {id : Text}
    (hthere : (mailbox id).isSome)
    (h : plannedSafe env toUpperCase account mailbox answers criteria id = true) :
    safeNow env toUpperCase account mailbox criteria id =
      !overlooked env account mailbox criteria id := by
  obtain ⟨flags, hflags⟩ := Option.isSome_iff_exists.mp hthere
  unfold plannedSafe at h
  cases hprovider : account.provider with
  | gmail =>
    rw [hprovider, Bool.and_eq_true] at h
    -- The plan's guard is the one of now.
    rw [h.2]
    simp [overlooked, hprovider]
  | microsoft =>
    rw [hprovider, Bool.and_eq_true] at h
    obtain ⟨hsender, hquery⟩ := h
    -- The plan has not looked at the star or the categories.
    rw [safeNow_eq, hsender]
    simp [overlooked, unmarked, hprovider, hsender, hquery, hflags, Account.labels,
      isCleanupCandidate_nil]

theorem mem_handed_executeJob {criteria : CleanupCriteria} {key : ArchiveKey} {mode : CleanupMode}
    {plan : List PlanRow} {query id : Text} :
    id ∈ (executeJob key mode plan ((planCleanup env toUpperCase account mailbox answers
        criteria).safe.map (·.row)) query).handed ↔
      actionOf .executeCleanup mode ≠ .notImplemented ∧ id ∈ plan.map (·.id) ∧
        id ∈ (collectMessages account mailbox answers criteria).map (·.id) ∧
        plannedSafe env toUpperCase account mailbox answers criteria id = true := by
  rw [mem_handed, executeJob, mem_requestedOf, map_row_id, mem_safe_iff]

omit [CaseMapping] in
theorem mem_handed_approveJob {plan : CleanupPlanResult} {batchId workspaceId iso : String}
    {mode : CleanupMode} {id : Text} :
    id ∈ (approveJob (stagedBatch account batchId workspaceId mode plan) iso).handed ↔
      actionOf .approveCleanupBatch mode ≠ .notImplemented ∧ id ∈ plan.safe.map (·.id) := by
  rw [mem_handed]
  refine and_congr_right fun _ => ?_
  show id ∈ requestedOf (plan.safe.map (·.row)) (plan.safe.map (·.row)) ↔ _
  rw [mem_requestedOf, map_row_id, and_self]

/-- A staged message has an unprotected sender, then and later. -/
theorem unprotectedSender_of_plannedSafe {criteria : CleanupCriteria} {id : Text}
    (h : plannedSafe env toUpperCase account mailbox answers criteria id = true) :
    unprotectedSender env account id = true := by
  unfold plannedSafe at h
  cases hprovider : account.provider with
  | gmail =>
    rw [hprovider, Bool.and_eq_true, safeNow_eq, Bool.and_eq_true] at h
    exact h.2.1
  | microsoft =>
    rw [hprovider, Bool.and_eq_true] at h
    exact h.1

/-- A message that is overlooked is called safe. -/
theorem plannedSafe_of_overlooked {criteria : CleanupCriteria} {id : Text}
    (h : overlooked env account mailbox criteria id = true) :
    plannedSafe env toUpperCase account mailbox answers criteria id = true := by
  unfold overlooked at h
  simp only [Bool.and_eq_true, decide_eq_true_eq] at h
  obtain ⟨⟨⟨hprovider, hquery⟩, hsender⟩, -⟩ := h
  unfold plannedSafe
  rw [hprovider]
  show (unprotectedSender env account id && criteria.hasQuery) = true
  rw [hsender, hquery]
  rfl

theorem isSome_of_reviewed {criteria : CleanupCriteria} {id : Text}
    (h : id ∈ (collectMessages account mailbox answers criteria).map (·.id)) :
    (mailbox id).isSome = true := by
  obtain ⟨message, hmessage, rfl⟩ := List.mem_map.mp h
  exact Option.isSome_iff_exists.mpr (mem_collectMessages hmessage).1

/-- **What is handed to the provider is safe.** An immediate cleanup hands over ids of safe
messages only, exactly when none of the messages of its plan that its search finds again is
of high importance where nobody asks for it. An approval does, exactly when each message of
the staged plan is still there, without a star, and in the categories. -/
theorem handed_ids_safe_iff (before now : Mailbox) (searched searchedNow : Answers)
    (criteria : CleanupCriteria) :
    (∀ (key : ArchiveKey) (mode : CleanupMode) (plan : List PlanRow) (query : Text),
      (∀ id ∈ (executeJob key mode plan ((planCleanup env toUpperCase account now searchedNow
          criteria).safe.map (·.row)) query).handed,
        safeNow env toUpperCase account now criteria id = true) ↔
      actionOf .executeCleanup mode = .notImplemented ∨
        ∀ row ∈ plan, row.id ∈ (collectMessages account now searchedNow criteria).map (·.id) →
          overlooked env account now criteria row.id = false) ∧
    ∀ (batchId workspaceId iso : String) (mode : CleanupMode),
      (∀ id ∈ (approveJob (stagedBatch account batchId workspaceId mode
          (planCleanup env toUpperCase account before searched criteria)) iso).handed,
        safeNow env toUpperCase account now criteria id = true) ↔
      actionOf .approveCleanupBatch mode = .notImplemented ∨
        ∀ row ∈ (planCleanup env toUpperCase account before searched criteria).safe,
          unmarked toUpperCase account now criteria row.id = true := by
  constructor
  · intro key mode plan query
    constructor
    · intro hall
      by_cases hmode : actionOf .executeCleanup mode = .notImplemented
      · exact .inl hmode
      · refine .inr fun row hrow hreviewed => ?_
        rw [Bool.eq_false_iff]
        intro hoverlooked
        -- An overlooked message is handed on, and is not safe.
        have hplanned : plannedSafe env toUpperCase account now searchedNow criteria row.id = true :=
          plannedSafe_of_overlooked hoverlooked
        have hsafe := hall row.id (mem_handed_executeJob.mpr
          ⟨hmode, List.mem_map_of_mem hrow, hreviewed, hplanned⟩)
        rw [safeNow_of_plannedSafe (isSome_of_reviewed hreviewed) hplanned, hoverlooked] at hsafe
        cases hsafe
    · intro hcondition id hid
      obtain ⟨hmode, hplan, hreviewed, hplanned⟩ := mem_handed_executeJob.mp hid
      obtain ⟨row, hrow, rfl⟩ := List.mem_map.mp hplan
      have hfound := (hcondition.resolve_left hmode) row hrow hreviewed
      rw [safeNow_of_plannedSafe (isSome_of_reviewed hreviewed) hplanned, hfound]
      rfl
  · intro batchId workspaceId iso mode
    constructor
    · intro hall
      by_cases hmode : actionOf .approveCleanupBatch mode = .notImplemented
      · exact .inl hmode
      · refine .inr fun row hrow => ?_
        have hsafe := hall row.id
          (mem_handed_approveJob.mpr ⟨hmode, List.mem_map_of_mem hrow⟩)
        rw [safeNow_eq, Bool.and_eq_true] at hsafe
        exact hsafe.2
    · intro hcondition id hid
      obtain ⟨hmode, hstaged⟩ := mem_handed_approveJob.mp hid
      obtain ⟨-, hplanned⟩ := (mem_safe_iff criteria id).mp hstaged
      obtain ⟨row, hrow, rfl⟩ := List.mem_map.mp hstaged
      -- The sender is as it was when the batch was staged.
      rw [safeNow_eq, unprotectedSender_of_plannedSafe hplanned,
        (hcondition.resolve_left hmode) row hrow]
      rfl

end Plan

end Planner

section Examples

/-- An account with a newsletter. -/
def newsAccount (provider : Provider) : Account where
  provider := provider
  content _ := ⟨"news@shop.com".toList, "Sale".toList, [], 10⟩

/-- The newsletter, with its labels and its importance. -/
def newsMailbox (labelIds : List String) (importance : String) : Mailbox := fun id =>
  if id = "m1".toList then some ⟨labelIds.map (·.toList), importance.toList⟩ else none

/-- Every search finds the newsletter. -/
def newsAnswers : Answers where
  listMessages _ _ _ := some (["m1".toList], none)
  getMessage _ := true

def newsEnv : CleanerEnv := ⟨none, none⟩

/-- A cleanup of promotions is staged. Then the newsletter is starred, and the cleanup is
approved. -/
def starredJob : Job :=
  approveJob (stagedBatch (newsAccount .gmail) "b" "ws" .trash
    (planCleanup newsEnv (·.map Char.toUpper) (newsAccount .gmail)
      (newsMailbox ["CATEGORY_PROMOTIONS"] "normal") newsAnswers
      ⟨none, some ["promotions".toList], none⟩)) "2026-01-01T00-00-00-000Z"

/-- A message of high importance is deleted from Outlook at once. -/
def importantJob : Job :=
  executeJob ⟨"ws", .microsoft, "b", "2026-01-01T00-00-00-000Z"⟩ .delete [⟨"m1".toList, 0⟩]
    ((planCleanup newsEnv (·.map Char.toUpper) (newsAccount .microsoft) (newsMailbox [] "high")
      newsAnswers ⟨some "is:unread".toList, none, none⟩).safe.map (·.row)) "is:unread".toList

/-- **Protected messages are handed to the provider**, on either path. -/
theorem protected_message_is_handed :
    ("m1".toList ∈ starredJob.handed ∧
      safeNow newsEnv (·.map Char.toUpper) (newsAccount .gmail)
        (newsMailbox ["CATEGORY_PROMOTIONS", "STARRED"] "normal")
        ⟨none, some ["promotions".toList], none⟩ "m1".toList = false) ∧
    "m1".toList ∈ importantJob.handed ∧
      safeNow newsEnv (·.map Char.toUpper) (newsAccount .microsoft) (newsMailbox [] "high")
        ⟨some "is:unread".toList, none, none⟩ "m1".toList = false := by
  refine ⟨⟨?_, ?_⟩, ?_, ?_⟩
  · decide
  · decide
  · decide
  · decide

end Examples

end Cleanup
end EmailOps
