import EmailOps.Email.Reading
import EmailOps.Email.ApprovalFidelity

/-!
# The fence around a human mailbox

A human mailbox is its owner's, and no other member of the workspace is to read anything
of it. What a read path shows of a mailbox is asked by comparing two runs: with the
content of the mailbox, and without it.

* `MailTables.without` and `Backends.without` take the content of a mailbox away.
* `Fenced`: to a caller, every request of the read plane returns the same with and without
  it.
* `SingleAdmits` and `AggregateAdmits`: the content shows in the list of the one mailbox,
  or in the unified inbox.

The unified inbox asks for the owner of every mailbox. The single-mailbox paths ask for
him only when the mailbox is an external account, and the messages of a thread are joined
with the workspace's rows of the thread, whichever mailbox they were sent from
(`read_fence_iff`).
-/

namespace EmailOps

open Framework

/-! ### Without a mailbox -/

/-- The tables without the rows of a mailbox. -/
def MailTables.without (tables : MailTables) (m : MailboxAccount) : MailTables where
  settings := tables.settings
  rows := tables.rows.filter fun r => r.mailboxAccountId ≠ some m.id
  dispositions := tables.dispositions
  row_ids := tables.row_ids.sublist (List.filter_sublist.map _)
  mailbox_ids := tables.mailbox_ids
  addresses := tables.addresses

/-- The backends without the mail of a mailbox. -/
def Backends.without (backends : Backends) (m : MailboxAccount) : Backends where
  isConfigured := backends.isConfigured
  listFolderThreads address query :=
    if address = m.emailAddress then [] else backends.listFolderThreads address query
  getThreadDetail address threadId :=
    if address = m.emailAddress then [] else backends.getThreadDetail address threadId
  listInbox mailbox folder limit :=
    if mailbox.id = m.id then [] else backends.listInbox mailbox folder limit
  providerThread mailbox threadId :=
    if mailbox.id = m.id then [] else backends.providerThread mailbox threadId

/-! ### The fence -/

/-- The caller owns the mailbox, which names its owner by either of his two ids. -/
def IsOwner (users : List User) (m : MailboxAccount) (ucUid : Option String) : Prop :=
  ∃ key caller, m.ownerKey = some key ∧ ucUid = some caller ∧ (key = caller ∨
    ∃ u ∈ users, (u.keycloakId = some caller ∨ u.id = caller) ∧
      (u.keycloakId = some key ∨ u.id = key))

section Fence

variable (locale : Locale) (tables : MailTables) (workspaceId : String) (ucUid : Option String)
  (m : MailboxAccount)

/-- **No read path shows anything of the mailbox** to the caller, whatever the backends
hold. -/
def Fenced : Prop :=
  ∀ backends request, read locale tables backends workspaceId ucUid request =
    read locale (tables.without m) (backends.without m) workspaceId ucUid request

/-- The list of the mailbox shows the caller what its backend holds. -/
def SingleAdmits : Prop :=
  ∃ backends limit folder query offset,
    listMailboxInbox locale tables backends workspaceId ucUid m.id limit folder query offset ≠
      listMailboxInbox locale tables (backends.without m) workspaceId ucUid m.id limit folder query
        offset

/-- The unified inbox shows the caller what the backend of the mailbox holds. -/
def AggregateAdmits : Prop :=
  ∃ backends folder limit query offset dropped,
    listAggregateInbox locale tables backends workspaceId ucUid folder limit query offset dropped ≠
      listAggregateInbox locale tables (backends.without m) workspaceId ucUid folder limit query
        offset dropped

/-- No row of the mailbox belongs to a thread. -/
def Unthreaded : Prop :=
  ∀ r ∈ tables.rows, r.workspaceId = workspaceId → r.mailboxAccountId = some m.id →
    r.threadId = none

end Fence

variable {locale : Locale} {tables : MailTables} {backends : Backends} {workspaceId : String}
  {ucUid : Option String} {m mailbox : MailboxAccount}

/-- The check lets only the owner of a human mailbox pass. -/
theorem isOwner_of_mayActThroughMailbox {users : List User} (hhuman : m.ownerKind = .human)
    (h : mayActThroughMailbox users m ucUid = true) : IsOwner users m ucUid := by
  unfold mayActThroughMailbox at h
  rw [if_neg (not_not.mpr hhuman)] at h
  split at h
  · cases h
  · next htruthy =>
    -- both ids are there
    cases hkey : m.ownerKey with
    | none => simp [hkey, truthy] at htruthy
    | some key =>
      cases hcaller : ucUid with
      | none => simp [hcaller, truthy] at htruthy
      | some caller =>
        rw [hkey, hcaller] at h
        refine ⟨key, caller, hkey, rfl, ?_⟩
        split at h
        · next hsame => exact .inl (Option.some.inj hsame)
        · split at h
          · next u hfind =>
            -- the caller is this user, and so is the owner
            right
            have hu := List.find?_some hfind
            simp only [Bool.or_eq_true, decide_eq_true_eq, Option.some.injEq] at hu h
            exact ⟨u, List.mem_of_find?_eq_some hfind, hu,
              h.imp (fun heq => heq.symm) (fun heq => heq.symm)⟩
          · cases h

/-! ### Other mailboxes -/

theorem eq_of_mailbox_id (hm : m ∈ tables.settings.mailboxes)
    (hmailbox : mailbox ∈ tables.settings.mailboxes) (hid : mailbox.id = m.id) : mailbox = m :=
  List.inj_on_of_nodup_map tables.mailbox_ids hmailbox hm hid

theorem eq_of_mailbox_address (hm : m ∈ tables.settings.mailboxes)
    (hmailbox : mailbox ∈ tables.settings.mailboxes) (hws : mailbox.workspaceId = m.workspaceId)
    (haddress : mailbox.emailAddress = m.emailAddress) : mailbox = m :=
  List.inj_on_of_nodup_map tables.addresses hmailbox hm (Prod.ext hws haddress)

/-- A mailbox is found by its id. -/
theorem findMailbox_self (hm : m ∈ tables.settings.mailboxes) (hws : m.workspaceId = workspaceId) :
    findMailbox tables.settings workspaceId m.id = some m := by
  have hsome : (findMailbox tables.settings workspaceId m.id).isSome = true := by
    unfold findMailbox
    rw [List.find?_isSome]
    exact ⟨m, hm, by simp [hws]⟩
  obtain ⟨found, hfound⟩ := Option.isSome_iff_exists.mp hsome
  obtain ⟨hmem, hid, -⟩ := mem_of_findMailbox hfound
  rw [hfound, eq_of_mailbox_id hm hmem hid]

/-- Taking a mailbox away changes nothing of another one's mail. -/
structure Apart (mailbox m : MailboxAccount) : Prop where
  id : mailbox.id ≠ m.id
  address : mailbox.emailAddress ≠ m.emailAddress

theorem apart_of_ne (hm : m ∈ tables.settings.mailboxes)
    (hmailbox : mailbox ∈ tables.settings.mailboxes) (hws : mailbox.workspaceId = m.workspaceId)
    (hne : mailbox ≠ m) : Apart mailbox m where
  id hid := hne (eq_of_mailbox_id hm hmailbox hid)
  address haddress := hne (eq_of_mailbox_address hm hmailbox hws haddress)

theorem liveFolderThreads_without (h : Apart mailbox m) (query : FolderQuery) :
    liveFolderThreads (backends.without m) mailbox.emailAddress query =
      liveFolderThreads backends mailbox.emailAddress query := by
  unfold liveFolderThreads Backends.without
  simp only [if_neg h.address]

theorem listInbox_without (h : Apart mailbox m) (folder : MailFolder) (limit : ℕ) :
    (backends.without m).listInbox mailbox folder limit = backends.listInbox mailbox folder limit :=
  if_neg h.id

theorem providerThread_without (h : Apart mailbox m) (threadId : String) :
    (backends.without m).providerThread mailbox threadId = backends.providerThread mailbox threadId :=
  if_neg h.id

theorem getThreadDetail_without (h : Apart mailbox m) (threadId : String) :
    (backends.without m).getThreadDetail mailbox.emailAddress threadId =
      backends.getThreadDetail mailbox.emailAddress threadId :=
  if_neg h.address

/-- The list of another mailbox does not depend on the backend of this one. -/
theorem listMailboxInbox_without (h : Apart mailbox m)
    (hfind : findMailbox tables.settings workspaceId mailbox.id = some mailbox) (limit : ℕ)
    (folder : MailFolder) (query : Option Text) (offset : ℕ) :
    listMailboxInbox locale tables (backends.without m) workspaceId ucUid mailbox.id limit folder
        query offset =
      listMailboxInbox locale tables backends workspaceId ucUid mailbox.id limit folder query
        offset := by
  unfold listMailboxInbox
  rw [hfind]
  simp only [liveFolderThreads_without h, listInbox_without h]

/-- Nor does that of an external mailbox the caller may not act through. -/
theorem listMailboxInbox_denied (hexternal : EngineMailProvider.handles m.provider = true)
    (hdenied : mayActThroughMailbox tables.settings.users m ucUid = false)
    (hfind : findMailbox tables.settings workspaceId m.id = some m) (limit : ℕ)
    (folder : MailFolder) (query : Option Text) (offset : ℕ) :
    listMailboxInbox locale tables backends workspaceId ucUid m.id limit folder query offset = [] := by
  unfold listMailboxInbox
  rw [hfind]
  simp only
  rw [if_pos hexternal, if_neg (by simp [hdenied])]

/-! ### What the rows of a mailbox show -/

/-- A query that no row of the mailbox answers finds the same without it. -/
theorem filter_without {p : MailRow → Bool}
    (hp : ∀ r ∈ tables.rows, r.mailboxAccountId = some m.id → p r = false) :
    (tables.without m).rows.filter p = tables.rows.filter p := by
  unfold MailTables.without
  rw [List.filter_filter]
  refine List.filter_congr fun r hr => ?_
  by_cases hrow : r.mailboxAccountId = some m.id
  · rw [hp r hr hrow]
    rfl
  · simp [hrow]

theorem localRows_without (h : Unthreaded tables workspaceId m) (folder : MailFolder)
    (address : Text) :
    localRows (tables.without m) workspaceId folder address =
      localRows tables workspaceId folder address := by
  unfold localRows
  rw [filter_without]
  intro r hr hrow
  by_cases hws : r.workspaceId = workspaceId
  · -- a row of the mailbox has no thread
    simp [h r hr hws hrow]
  · simp [hws]

theorem ownRows_without (h : Unthreaded tables workspaceId m) (threadId : String) :
    ownRows (tables.without m) workspaceId threadId = ownRows tables workspaceId threadId := by
  unfold ownRows
  rw [filter_without]
  intro r hr hrow
  by_cases hws : r.workspaceId = workspaceId
  · simp [h r hr hws hrow]
  · simp [hws]

/-- Without threaded rows, the tables of a mailbox show nothing in a list. -/
theorem listMailboxInbox_without_rows (h : Unthreaded tables workspaceId m) (mailboxId : String)
    (limit : ℕ) (folder : MailFolder) (query : Option Text) (offset : ℕ) :
    listMailboxInbox locale (tables.without m) backends workspaceId ucUid mailboxId limit folder
        query offset =
      listMailboxInbox locale tables backends workspaceId ucUid mailboxId limit folder query
        offset := by
  unfold listMailboxInbox
  simp only [localRows_without h]
  rfl

/-! ### The paths, one by one -/

/-- A human mailbox of the workspace, and a caller who does not own it. -/
structure Foreign (tables : MailTables) (workspaceId : String) (ucUid : Option String)
    (m : MailboxAccount) : Prop where
  mem : m ∈ tables.settings.mailboxes
  workspace : m.workspaceId = workspaceId
  human : m.ownerKind = .human
  other : ¬IsOwner tables.settings.users m ucUid

theorem Foreign.denied (h : Foreign tables workspaceId ucUid m) :
    mayActThroughMailbox tables.settings.users m ucUid = false := by
  rw [Bool.eq_false_iff]
  intro hpass
  exact h.other (isOwner_of_mayActThroughMailbox h.human hpass)

theorem Foreign.find (h : Foreign tables workspaceId ucUid m) :
    findMailbox tables.settings workspaceId m.id = some m :=
  findMailbox_self h.mem h.workspace

theorem Foreign.apart (h : Foreign tables workspaceId ucUid m)
    (hmailbox : mailbox ∈ tables.settings.mailboxes) (hws : mailbox.workspaceId = workspaceId)
    (hne : mailbox ≠ m) : Apart mailbox m :=
  apart_of_ne h.mem hmailbox (hws.trans h.workspace.symm) hne

theorem Foreign.ne_of_pass (h : Foreign tables workspaceId ucUid m)
    (hpass : mayActThroughMailbox tables.settings.users mailbox ucUid = true) : mailbox ≠ m := by
  intro heq
  rw [heq, h.denied] at hpass
  cases hpass

theorem ne_of_not_handles (hexternal : EngineMailProvider.handles m.provider = true)
    (hhandles : ¬EngineMailProvider.handles mailbox.provider = true) : mailbox ≠ m := by
  intro heq
  rw [heq] at hhandles
  exact hhandles hexternal

/-- The list of an external mailbox is fenced. -/
theorem Foreign.listMailboxInbox_eq (h : Foreign tables workspaceId ucUid m)
    (hexternal : EngineMailProvider.handles m.provider = true) (mailboxId : String) (limit : ℕ)
    (folder : MailFolder) (query : Option Text) (offset : ℕ) :
    listMailboxInbox locale tables (backends.without m) workspaceId ucUid mailboxId limit folder
        query offset =
      listMailboxInbox locale tables backends workspaceId ucUid mailboxId limit folder query
        offset := by
  cases hfind : findMailbox tables.settings workspaceId mailboxId with
  | none =>
    unfold listMailboxInbox
    rw [hfind]
  | some mailbox =>
    obtain ⟨hmem, rfl, hws⟩ := mem_of_findMailbox hfind
    by_cases hsame : mailbox = m
    · subst hsame
      rw [listMailboxInbox_denied hexternal h.denied hfind,
        listMailboxInbox_denied hexternal h.denied hfind]
    · exact listMailboxInbox_without (h.apart hmem hws hsame) hfind limit folder query offset

/-- The custom folders ask for the owner of every mailbox. -/
theorem Foreign.listCustomFolderThreads_eq (h : Foreign tables workspaceId ucUid m)
    (mailboxId folderId : String) (limit : ℕ) (query : Option Text) (offset : ℕ) :
    listCustomFolderThreads tables (backends.without m) workspaceId ucUid mailboxId folderId limit
        query offset =
      listCustomFolderThreads tables backends workspaceId ucUid mailboxId folderId limit query
        offset := by
  unfold listCustomFolderThreads
  cases hfind : findMailbox tables.settings workspaceId mailboxId with
  | none => rfl
  | some mailbox =>
    obtain ⟨hmem, -, hws⟩ := mem_of_findMailbox hfind
    simp only
    split
    · rfl
    · next hchecked =>
      -- the caller has passed the check, so it is not this mailbox
      simp only [Bool.or_eq_true, Bool.not_eq_true', not_or, Bool.not_eq_false] at hchecked
      exact liveFolderThreads_without (h.apart hmem hws (h.ne_of_pass hchecked.1)) _

/-- The messages of a thread are fenced, but for the rows. -/
theorem Foreign.listThreadMessages_eq (h : Foreign tables workspaceId ucUid m)
    (hexternal : EngineMailProvider.handles m.provider = true) (threadId : String)
    (mailboxId : Option String) :
    listThreadMessages locale tables (backends.without m) workspaceId ucUid threadId mailboxId =
      listThreadMessages locale tables backends workspaceId ucUid threadId mailboxId := by
  unfold listThreadMessages
  simp only
  split
  · rfl
  · next mailbox hmailbox =>
    -- named or not, it is a mailbox of the workspace
    have hmem : mailbox ∈ tables.settings.mailboxes ∧ mailbox.workspaceId = workspaceId := by
      split at hmailbox
      · obtain ⟨hmem, -, hws⟩ := mem_of_findMailbox hmailbox
        exact ⟨hmem, hws⟩
      · exact mem_of_defaultMailbox hmailbox
    split
    · split
      · next hpass =>
        rw [providerThread_without (h.apart hmem.1 hmem.2 (h.ne_of_pass hpass))]
      · rfl
    · next hhandles =>
      have hne := ne_of_not_handles hexternal hhandles
      rw [getThreadDetail_without (h.apart hmem.1 hmem.2 hne)]

/-- The unified inbox is fenced, whatever the mailbox is. -/
theorem Foreign.listAggregateInbox_eq (h : Foreign tables workspaceId ucUid m)
    (folder : MailFolder) (limit : ℕ) (query : Option Text) (offset : ℕ)
    (dropped : String → Bool) :
    listAggregateInbox locale tables (backends.without m) workspaceId ucUid folder limit query
        offset dropped =
      listAggregateInbox locale tables backends workspaceId ucUid folder limit query offset
        dropped := by
  have hlists : ∀ mailbox ∈ (readableMailboxes tables workspaceId ucUid).filter fun m => !dropped m.id,
      listMailboxInbox locale tables (backends.without m) workspaceId ucUid mailbox.id limit folder
          query offset =
        listMailboxInbox locale tables backends workspaceId ucUid mailbox.id limit folder query
          offset := by
    intro mailbox hmailbox
    -- A mailbox the caller may read is not the foreign one.
    have hreadable := (List.mem_filter.mp hmailbox).1
    obtain ⟨hmem, hcheck⟩ := List.mem_filter.mp hreadable
    simp only [Bool.and_eq_true, decide_eq_true_eq] at hcheck
    obtain ⟨⟨hws, -⟩, hpass⟩ := hcheck
    exact listMailboxInbox_without (h.apart hmem hws (h.ne_of_pass hpass))
      (findMailbox_self hmem hws) limit folder query offset
  unfold listAggregateInbox
  simp only
  rw [List.flatMap_congr fun mailbox hmailbox => congrArg _ (hlists mailbox hmailbox)]

/-! ### When the fence holds -/

/-- An external mailbox without threaded rows is fenced. -/
theorem Foreign.fenced (h : Foreign tables workspaceId ucUid m)
    (hexternal : EngineMailProvider.handles m.provider = true)
    (hrows : Unthreaded tables workspaceId m) : Fenced locale tables workspaceId ucUid m := by
  intro backends request
  unfold read
  cases request with
  | mailboxInbox mailboxId limit folder query offset =>
    -- Without rows of its own, an external mailbox is read from its provider alone.
    simp only
    rw [listMailboxInbox_without_rows hrows, h.listMailboxInbox_eq hexternal]
  | customFolder mailboxId folderId limit query offset =>
    simp only
    rw [← h.listCustomFolderThreads_eq]
    rfl
  | threadMessages threadId mailboxId =>
    simp only
    rw [← h.listThreadMessages_eq hexternal]
    unfold listThreadMessages
    -- The rows of a thread are the caller's own.
    rw [ownRows_without hrows]
    rfl
  | aggregateInbox folder limit query offset dropped =>
    simp only
    -- The aggregate reads the mailboxes one by one.
    rw [← h.listAggregateInbox_eq]
    unfold listAggregateInbox
    simp only [listMailboxInbox_without_rows hrows]
    rfl

theorem Foreign.not_aggregateAdmits (h : Foreign tables workspaceId ucUid m) :
    ¬AggregateAdmits locale tables workspaceId ucUid m := by
  rintro ⟨backends, folder, limit, query, offset, dropped, hne⟩
  exact hne (h.listAggregateInbox_eq folder limit query offset dropped).symm

theorem Foreign.not_singleAdmits (h : Foreign tables workspaceId ucUid m)
    (hexternal : EngineMailProvider.handles m.provider = true) :
    ¬SingleAdmits locale tables workspaceId ucUid m := by
  rintro ⟨backends, limit, folder, query, offset, hne⟩
  exact hne (h.listMailboxInbox_eq hexternal m.id limit folder query offset).symm

/-! ### When it does not -/

/-- A thread, and a backend that has it in the one mailbox. -/
def sampleThread : StalwartThread where
  id := "t"
  subject := some "private".toList
  messageCount := 1
  unread := true
  flagged := false
  lastMessageAt := none
  lastSnippet := none
  participants := []
  hasAttachments := false

def holding (address : Text) : Backends where
  isConfigured := true
  listFolderThreads a _ := if a = address then [sampleThread] else []
  getThreadDetail _ _ := []
  listInbox _ _ _ := []
  providerThread _ _ := []

/-- The list of a sovereign mailbox is what its backend holds, for every caller. -/
theorem listMailboxInbox_sovereign (hsovereign : ¬EngineMailProvider.handles m.provider = true)
    (hfind : findMailbox tables.settings workspaceId m.id = some m) :
    listMailboxInbox locale tables backends workspaceId ucUid m.id 1 .sent (some ['x']) 0 =
      liveFolderThreads backends m.emailAddress ⟨.sent, 1, 0, some ['x'], none⟩ := by
  unfold listMailboxInbox
  rw [hfind]
  simp only
  rw [if_neg hsovereign, if_pos (by decide)]
  rfl

theorem liveFolderThreads_self (query : FolderQuery) :
    liveFolderThreads (backends.without m) m.emailAddress query = [] := by
  unfold liveFolderThreads Backends.without
  simp

theorem liveFolderThreads_holding (address : Text) (query : FolderQuery) :
    liveFolderThreads (holding address) address query = [sampleThread.view] := by
  unfold liveFolderThreads holding
  simp

/-! ### Rows of a thread -/

/-- What is filled in was there, or is one of the new views. -/
theorem mem_of_mem_fillIn {α : Type} {id : α → String} {seen more : List α} {w : α}
    (h : w ∈ fillIn id seen more) : w ∈ seen ∨ w ∈ more := by
  unfold fillIn at h
  induction more generalizing seen with
  | nil => exact .inl h
  | cons v more ih =>
    rw [List.foldl_cons] at h
    rcases ih h with hseen | hmore
    · split at hseen
      · exact .inl hseen
      · rcases List.mem_append.mp hseen with hseen | hlast
        · exact .inl hseen
        · rw [List.mem_singleton.mp hlast]
          exact .inr List.mem_cons_self
    · exact .inr (List.mem_cons_of_mem v hmore)

/-- Nothing that was there goes. -/
theorem mem_fillIn_of_mem {α : Type} {id : α → String} {seen more : List α} {w : α}
    (h : w ∈ seen) : w ∈ fillIn id seen more := by
  unfold fillIn
  induction more generalizing seen with
  | nil => exact h
  | cons v more ih =>
    rw [List.foldl_cons]
    refine ih ?_
    split
    · exact h
    · exact List.mem_append_left _ h

/-- Every new view is there under its id. -/
theorem exists_mem_fillIn {α : Type} (id : α → String) (seen : List α) {more : List α}
    {v : α} (h : v ∈ more) : ∃ w ∈ fillIn id seen more, id w = id v := by
  induction more generalizing seen with
  | nil => cases h
  | cons u more ih =>
    have hfold : fillIn id seen (u :: more) =
        fillIn id (if seen.any (id · == id u) then seen else seen ++ [u]) more := rfl
    rw [hfold]
    rcases List.mem_cons.mp h with rfl | hmore
    · split
      · next hany =>
        -- another view has the id already
        obtain ⟨w, hw, hid⟩ := List.any_eq_true.mp hany
        exact ⟨w, mem_fillIn_of_mem hw, eq_of_beq hid⟩
      · exact ⟨v, mem_fillIn_of_mem (List.mem_append_right _ (List.mem_singleton_self v)), rfl⟩
    · exact ih _ hmore

/-- Some id is not in use. -/
theorem exists_fresh (ids : List String) : ∃ id, id ≠ "" ∧ id ∉ ids := by
  -- An id longer than all others.
  obtain ⟨n, hn⟩ : ∃ n, ∀ id ∈ ids, id.length < n := by
    induction ids with
    | nil => exact ⟨0, fun id hid => absurd hid List.not_mem_nil⟩
    | cons first ids ih =>
      obtain ⟨n, hn⟩ := ih
      refine ⟨max n (first.length + 1), ?_⟩
      intro id hid
      rcases List.mem_cons.mp hid with rfl | hid
      · exact lt_of_lt_of_le (Nat.lt_succ_self _) (le_max_right _ _)
      · exact lt_of_lt_of_le (hn id hid) (le_max_left _ _)
  have hlength : (String.ofList (List.replicate (n + 1) 'x')).length = n + 1 := by simp
  refine ⟨String.ofList (List.replicate (n + 1) 'x'), ?_, ?_⟩
  · intro heq
    rw [heq] at hlength
    simp at hlength
  · intro hmem
    have hlt := hn _ hmem
    rw [hlength] at hlt
    omega

/-- A thread asked for in no mailbox is its rows. -/
theorem listThreadMessages_unknown {id threadId : String} (hid : id ≠ "")
    (hfind : findMailbox tables.settings workspaceId id = none) :
    listThreadMessages locale tables backends workspaceId ucUid threadId (some id) =
      fillIn (·.id) [] ((ownRows tables workspaceId threadId).map (MailRow.view locale threadId)) := by
  have hnamed : (some id).filter (· ≠ "") = some id := by
    rw [Option.filter_some, if_pos (decide_eq_true hid)]
  unfold listThreadMessages
  rw [hnamed]
  simp only
  rw [hfind]
  rfl

/-- A threaded row of the mailbox is shown to everyone. -/
theorem unthreaded_of_fenced (h : Fenced locale tables workspaceId ucUid m) :
    Unthreaded tables workspaceId m := by
  intro r hr hws hrow
  cases hthread : r.threadId with
  | none => rfl
  | some threadId =>
    exfalso
    obtain ⟨id, hid, hfresh⟩ := exists_fresh (tables.settings.mailboxes.map (·.id))
    have hfind : findMailbox tables.settings workspaceId id = none := by
      unfold findMailbox
      rw [List.find?_eq_none]
      intro mailbox hmailbox hfound
      simp only [Bool.and_eq_true, decide_eq_true_eq] at hfound
      exact hfresh (List.mem_map.mpr ⟨mailbox, hmailbox, hfound.1⟩)
    -- the two runs return the same messages of the thread
    have hsame := h (holding m.emailAddress) (.threadMessages threadId (some id))
    unfold read at hsame
    simp only [ReadResult.messages.injEq] at hsame
    have hfind' : findMailbox (tables.without m).settings workspaceId id = none := hfind
    rw [listThreadMessages_unknown hid hfind, listThreadMessages_unknown hid hfind'] at hsame
    -- the row is in the first of them
    have hown : r ∈ ownRows tables workspaceId threadId := by
      unfold ownRows
      rw [List.mem_mergeSort, List.mem_filter]
      exact ⟨hr, by simp [hws, hthread]⟩
    obtain ⟨w, hw, hwid⟩ := exists_mem_fillIn (fun v : MessageView => v.id) []
      (List.mem_map_of_mem (f := MailRow.view locale threadId) hown)
    rw [hsame] at hw
    -- so its id is that of a row of the second
    rcases mem_of_mem_fillIn hw with hnil | hmore
    · cases hnil
    · obtain ⟨r', hr', rfl⟩ := List.mem_map.mp hmore
      unfold ownRows at hr'
      rw [List.mem_mergeSort] at hr'
      obtain ⟨hmem, hkept⟩ := List.mem_filter.mp (List.mem_filter.mp hr').1
      have heq : r' = r := List.inj_on_of_nodup_map tables.row_ids hmem hr hwid
      rw [heq, hrow] at hkept
      simp at hkept

/-- A fenced mailbox is an external one. -/
theorem Foreign.external_of_fenced (h : Foreign tables workspaceId ucUid m)
    (hfenced : Fenced locale tables workspaceId ucUid m) :
    EngineMailProvider.handles m.provider = true := by
  by_contra hsovereign
  have hsame := hfenced (holding m.emailAddress) (.mailboxInbox m.id 1 .sent (some ['x']) 0)
  unfold read at hsame
  simp only [ReadResult.threads.injEq] at hsame
  have hfind : findMailbox (tables.without m).settings workspaceId m.id = some m := h.find
  rw [listMailboxInbox_sovereign hsovereign h.find, listMailboxInbox_sovereign hsovereign hfind,
    liveFolderThreads_holding, liveFolderThreads_self] at hsame
  cases hsame

/-- **When the fence around a human mailbox holds.** To a member who does not own it, no
read path shows anything of it, and the single-mailbox path admits him exactly when the
unified inbox does, if and only if it is an external account and the workspace has no row
of it in a thread. -/
theorem read_fence_iff (h : Foreign tables workspaceId ucUid m) :
    (Fenced locale tables workspaceId ucUid m ∧
      (SingleAdmits locale tables workspaceId ucUid m ↔
        AggregateAdmits locale tables workspaceId ucUid m)) ↔
    EngineMailProvider.handles m.provider = true ∧ Unthreaded tables workspaceId m := by
  constructor
  · rintro ⟨hfenced, -⟩
    exact ⟨h.external_of_fenced hfenced, unthreaded_of_fenced hfenced⟩
  · rintro ⟨hexternal, hrows⟩
    refine ⟨h.fenced hexternal hrows, ?_⟩
    -- neither path admits him
    exact iff_of_false (h.not_singleAdmits hexternal) h.not_aggregateAdmits

section Examples

/-- Alice's mailbox, with the provider it is at. -/
private def alicesMailbox (provider : String) : MailboxAccount where
  id := "m"
  workspaceId := "ws"
  emailAddress := "alice@acme.test".toList
  displayName := none
  isDefault := true
  active := true
  postmarkLane := false
  provider := provider
  ownerKind := .human
  ownerKey := some "alice"

private def alicesTables (provider : String) : MailTables where
  settings := { users := [⟨"u1", some "alice"⟩, ⟨"u2", some "bob"⟩]
                mailboxes := [alicesMailbox provider] }
  rows := []
  dispositions := []
  row_ids := List.nodup_nil
  mailbox_ids := List.nodup_singleton _
  addresses := List.nodup_singleton _

private def plainLocale : Locale where
  toISOString _ := []
  parseDate _ := none
  localeCompare a b := if a = b then .eq else .lt

private theorem alices_foreign (provider : String) :
    Foreign (alicesTables provider) "ws" (some "bob") (alicesMailbox provider) where
  mem := List.mem_singleton_self _
  workspace := rfl
  human := rfl
  other := by
    rintro ⟨key, caller, hkey, hcaller, hsame⟩
    cases hkey
    cases hcaller
    simp [alicesTables] at hsame

/-- Bob reads nothing of the mailbox that Alice has at Gmail. -/
theorem read_fence_iff_gmail :
    Fenced plainLocale (alicesTables "gmail") "ws" (some "bob") (alicesMailbox "gmail") := by
  refine ((read_fence_iff (alices_foreign "gmail")).mpr ⟨by decide, ?_⟩).1
  intro r hr
  cases hr

/-- Alice's sovereign mailbox holds a thread. Bob is shown it in the list of the mailbox,
and not in the unified inbox. -/
theorem sovereign_mailbox_is_shown :
    Foreign (alicesTables "stalwart") "ws" (some "bob") (alicesMailbox "stalwart") ∧
      listMailboxInbox plainLocale (alicesTables "stalwart") (holding "alice@acme.test".toList) "ws"
        (some "bob") "m" 50 .sent (some ['x']) 0 = [sampleThread.view] ∧
      listAggregateInbox plainLocale (alicesTables "stalwart") (holding "alice@acme.test".toList)
        "ws" (some "bob") .sent 50 (some ['x']) 0 (fun _ => false) = [] ∧
      ¬Fenced plainLocale (alicesTables "stalwart") "ws" (some "bob") (alicesMailbox "stalwart") := by
  refine ⟨alices_foreign "stalwart", by decide, ?_, ?_⟩
  · have hreadable : readableMailboxes (alicesTables "stalwart") "ws" (some "bob") = [] := by decide
    unfold listAggregateInbox
    rw [hreadable]
    simp [fillIn]
  · intro hfenced
    exact absurd ((alices_foreign "stalwart").external_of_fenced hfenced) (by decide)

end Examples

end EmailOps
