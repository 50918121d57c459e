import EmailOps.Email.ReadFence
import EmailOps.Triage.Disposition

/-!
# Where a thread is listed

`listMailboxInbox` lists the threads of a folder in two layers. The engine says which threads
have a message in the folder; the overlay says, for each thread, the one folder besides Sent
and Drafts that it may be listed in. A thread is listed where the two agree.

* `Account.Files` is what the engine says, `visibleIn` what the overlay does.
* `listed_of_files`: a thread that has a message in a folder the overlay admits is listed
  there, on some page.
* `visible_of_listed`: what is listed is admitted by the overlay, and without rows of the
  service's own the engine has a message of it in that folder.
-/

namespace EmailOps
namespace Triage

open Framework

/-! ### Pages -/

section Pages

variable {α : Type} {id : α → String}

theorem length_fillIn_le (seen more : List α) :
    (fillIn id seen more).length ≤ seen.length + more.length := by
  unfold fillIn
  induction more generalizing seen with
  | nil => exact Nat.le_refl _
  | cons v more ih =>
    rw [List.foldl_cons]
    refine (ih _).trans ?_
    split
    · simp only [List.length_cons]
      omega
    · simp only [List.length_append, List.length_cons, List.length_nil]
      omega

/-- One round of the map. -/
def setById (id : α → String) (seen : List α) (v : α) : List α :=
  if seen.any (id · == id v) then seen.map fun w => if id w == id v then v else w
  else seen ++ [v]

theorem length_byId_le (views : List α) : (byId id views).length ≤ views.length := by
  have hfold : ∀ seen : List α, (views.foldl (setById id) seen).length ≤
      seen.length + views.length := by
    intro seen
    induction views generalizing seen with
    | nil => exact Nat.le_refl _
    | cons v views ih =>
      rw [List.foldl_cons]
      refine (ih _).trans ?_
      unfold setById
      split
      · simp only [List.length_map, List.length_cons]
        omega
      · simp only [List.length_append, List.length_cons, List.length_nil]
        omega
  have hlength := hfold []
  rw [List.length_nil, Nat.zero_add] at hlength
  exact hlength

/-- A view that is set is there under its id, and no id is lost. -/
theorem exists_mem_setById {seen : List α} {v w : α} (h : w ∈ seen ∨ w = v) :
    ∃ u ∈ setById id seen v, id u = id w := by
  unfold setById
  obtain hold | rfl := h
  · split
    · refine ⟨_, List.mem_map_of_mem hold, ?_⟩
      split
      · next heq => exact (eq_of_beq heq).symm
      · rfl
    · exact ⟨w, List.mem_append_left _ hold, rfl⟩
  · split
    · next hany =>
      obtain ⟨u, hu, hid⟩ := List.any_eq_true.mp hany
      refine ⟨_, List.mem_map_of_mem hu, ?_⟩
      rw [if_pos hid]
    · exact ⟨w, List.mem_append_right _ List.mem_cons_self, rfl⟩

/-- Every view has one of its id in the map. -/
theorem exists_mem_byId {views : List α} {v : α} (h : v ∈ views) :
    ∃ w ∈ byId id views, id w = id v := by
  have hfold : ∀ seen : List α, (∃ w ∈ seen, id w = id v) ∨ v ∈ views →
      ∃ w ∈ views.foldl (setById id) seen, id w = id v := by
    intro seen hv
    clear h
    induction views generalizing seen with
    | nil => exact hv.resolve_right List.not_mem_nil
    | cons u views ih =>
      rw [List.foldl_cons]
      refine ih _ ?_
      obtain ⟨w, hw, hid⟩ | hmem := hv
      · obtain ⟨x, hx, hxid⟩ := exists_mem_setById (v := u) (.inl hw)
        exact .inl ⟨x, hx, hxid.trans hid⟩
      · rcases List.mem_cons.mp hmem with rfl | hmore
        · exact .inl (exists_mem_setById (.inr rfl))
        · exact .inr hmore
  exact hfold [] (.inr h)

/-- What is in the map is one of the views. -/
theorem mem_of_mem_byId {views : List α} {w : α} (h : w ∈ byId id views) : w ∈ views := by
  have hfold : ∀ seen : List α, w ∈ views.foldl (setById id) seen → w ∈ seen ∨ w ∈ views := by
    intro seen hw
    clear h
    induction views generalizing seen with
    | nil => exact .inl hw
    | cons u views ih =>
      rw [List.foldl_cons] at hw
      rcases ih _ hw with hset | hmore
      · unfold setById at hset
        split at hset
        · obtain ⟨x, hx, rfl⟩ := List.mem_map.mp hset
          split
          · exact .inr List.mem_cons_self
          · exact .inl hx
        · rcases List.mem_append.mp hset with hold | hnew
          · exact .inl hold
          · exact .inr (List.mem_singleton.mp hnew ▸ List.mem_cons_self)
      · exact .inr (List.mem_cons_of_mem u hmore)
  exact (hfold [] h).resolve_left List.not_mem_nil

theorem any_eq_false_of_nodup {seen more : List α} {v : α}
    (h : ((seen ++ v :: more).map id).Nodup) : seen.any (id · == id v) = false := by
  rw [List.any_eq_false]
  intro w hw
  rw [List.map_append, List.nodup_append] at h
  have hne := h.2.2 (id w) (List.mem_map_of_mem hw) (id v) (by simp)
  simpa using hne

/-- Of views of different ids those are added whose id is not there yet. -/
theorem fillIn_eq {seen more : List α} (h : (more.map id).Nodup) :
    fillIn id seen more = seen ++ more.filter fun v => !(seen.map id).contains (id v) := by
  induction more generalizing seen with
  | nil => exact (List.append_nil seen).symm
  | cons v more ih =>
    obtain ⟨hv, hmore⟩ := List.nodup_cons.mp h
    have hfold : fillIn id seen (v :: more) =
        fillIn id (if seen.any (id · == id v) then seen else seen ++ [v]) more := rfl
    have hany : seen.any (id · == id v) = (seen.map id).contains (id v) := by
      rw [Bool.eq_iff_iff, List.any_eq_true, List.contains_iff_mem, List.mem_map]
      simp only [beq_iff_eq]
    rw [hfold, hany]
    cases hseen : (seen.map id).contains (id v) with
    | true => rw [if_pos rfl, ih hmore, List.filter_cons_of_neg (by rw [hseen]; decide)]
    | false =>
      rw [if_neg Bool.false_ne_true, ih hmore, List.filter_cons_of_pos (by rw [hseen]; decide),
        List.append_assoc, List.singleton_append]
      congr 2
      -- No later view has the id.
      refine List.filter_congr fun w hw => ?_
      have hne : id w ≠ id v := fun heq => hv (by rw [← heq]; exact List.mem_map_of_mem hw)
      simp [hne]

theorem fillIn_of_nodup {seen more : List α} (h : ((seen ++ more).map id).Nodup) :
    fillIn id seen more = seen ++ more := by
  rw [List.map_append, List.nodup_append] at h
  rw [fillIn_eq h.2.1, List.filter_eq_self.mpr]
  intro v hv
  have hnew : id v ∉ seen.map id := fun hmem => h.2.2 _ hmem _ (List.mem_map_of_mem hv) rfl
  simpa using hnew

/-- A map of views of different ids is the list of them. -/
theorem byId_of_nodup {views : List α} (h : (views.map id).Nodup) : byId id views = views := by
  have hfold : ∀ seen : List α, ((seen ++ views).map id).Nodup →
      views.foldl (setById id) seen = seen ++ views := by
    intro seen hseen
    clear h
    induction views generalizing seen with
    | nil => rw [List.foldl_nil, List.append_nil]
    | cons v views ih =>
      have hnew := any_eq_false_of_nodup hseen
      have hset : setById id seen v = seen ++ [v] := by
        unfold setById
        rw [hnew, if_neg Bool.false_ne_true]
      rw [List.append_cons] at hseen
      rw [List.foldl_cons, hset, ih _ hseen, List.append_assoc]
      rfl
  exact hfold [] h

end Pages

/-! ### The rows of the service -/

theorem length_addRow_le (threads : List LocalThread) (threadId : String) (m : MailRow) :
    (addRow threads threadId m).length ≤ threads.length + 1 := by
  unfold addRow
  dsimp only
  split
  · rw [List.length_map]
    exact Nat.le_succ _
  · rw [List.length_append]
    exact Nat.le_refl _

/-- A fold that adds at most one element for each row adds at most as many as there are rows. -/
theorem length_foldl_le {α β : Type*} {add : List β → α → List β}
    (hadd : ∀ acc a, (add acc a).length ≤ acc.length + 1) (as : List α) (acc : List β) :
    (as.foldl add acc).length ≤ acc.length + as.length := by
  induction as generalizing acc with
  | nil => exact Nat.le_refl _
  | cons a as ih =>
    rw [List.foldl_cons, List.length_cons]
    have hstep := hadd acc a
    have hrest := ih (add acc a)
    omega

/-- There are no more local threads than rows. -/
theorem length_localThreads_le (locale : Locale) (tables : MailTables) (workspaceId : String)
    (folder : MailFolder) (limit : ℕ) (msgs : List MailRow) :
    (localThreads locale tables workspaceId folder limit msgs).length ≤ msgs.length := by
  unfold localThreads
  dsimp only
  rw [List.length_map]
  refine (List.length_take_le' _ _).trans ((List.length_filter_le _ _).trans ?_)
  rw [List.length_mergeSort]
  refine (length_foldl_le (fun threads m => ?_) msgs []).trans ?_
  · split
    · exact length_addRow_le _ _ _
    · exact Nat.le_succ _
  · rw [List.length_nil, Nat.zero_add]

theorem length_localRows_le (tables : MailTables) (workspaceId : String) (folder : MailFolder)
    (addr : Text) : (localRows tables workspaceId folder addr).length ≤ tables.rows.length := by
  unfold localRows
  refine (List.length_take_le' _ _).trans ?_
  rw [List.length_mergeSort]
  exact List.length_filter_le _ _

theorem overlayFilterThreads_eq (tables : MailTables) (workspaceId : String)
    (threads : List ThreadView) (folder : MailFolder) :
    overlayFilterThreads tables workspaceId threads folder =
      threads.filter fun t => visibleIn folder (EmailOps.dispositionOf tables workspaceId t.id) := by
  cases folder with
  | sent | drafts => exact (List.filter_eq_self.mpr fun _ _ => rfl).symm
  | inbox | archive | spam | trash => rfl

/-! ### What the engine lists -/

/-- Is the message in a folder of the client? -/
def inFolder (a : Jmap.Account) (folder : MailFolder) (m : Jmap.Email) : Bool :=
  (a.mailboxFor folder).any fun id => decide (id ∈ m.mailboxIds)

/-- Has the thread a message in a folder of the client? -/
def Files (a : Jmap.Account) (folder : MailFolder) (threadId : String) : Prop :=
  ∃ m ∈ a.emails, m.threadId = threadId ∧ inFolder a folder m = true

section Engine

variable {locale : Locale} {finds : Text → Jmap.Email → Bool} {a : Jmap.Account}
  {folder : MailFolder} {threadId : String}

theorem length_listFolderThreads_le (query : FolderQuery) :
    (Jmap.listFolderThreads locale finds a query).length ≤ a.emails.length := by
  unfold Jmap.listFolderThreads
  split
  · exact Nat.zero_le _
  · dsimp only
    rw [List.length_map]
    refine (List.length_take_le' _ _).trans ((List.drop_sublist _ _).length_le.trans ?_)
    refine (length_fillIn_le _ _).trans ?_
    unfold Jmap.newestFirst
    rw [List.length_nil, Nat.zero_add, List.length_mergeSort]
    exact List.length_filter_le _ _

/-- What the engine lists has a message in the folder. -/
theorem files_of_mem_listFolderThreads {limit offset : ℕ} {t : StalwartThread}
    (h : t ∈ Jmap.listFolderThreads locale finds a ⟨folder, limit, offset, none, none⟩) :
    Files a folder t.id := by
  unfold Jmap.listFolderThreads at h
  dsimp only at h
  rw [Option.none_or] at h
  split at h
  · cases h
  · next mailboxId hmailbox =>
    obtain ⟨m, hm, rfl⟩ := List.mem_map.mp h
    have hcollapsed := List.mem_of_mem_drop (List.mem_of_mem_take hm)
    have hfound := (mem_of_mem_fillIn hcollapsed).resolve_left List.not_mem_nil
    unfold Jmap.newestFirst at hfound
    rw [List.mem_mergeSort] at hfound
    obtain ⟨hmem, hguard⟩ := List.mem_filter.mp hfound
    rw [Option.all_none, Bool.and_true] at hguard
    refine ⟨m, hmem, rfl, ?_⟩
    unfold inFolder
    rw [hmailbox]
    exact hguard

/-- A thread with a message in the folder is on the first page, when the page is long
enough. -/
theorem exists_mem_listFolderThreads {limit : ℕ} (hlimit : a.emails.length ≤ limit)
    (h : Files a folder threadId) :
    ∃ t ∈ Jmap.listFolderThreads locale finds a ⟨folder, limit, 0, none, none⟩,
      t.id = threadId := by
  obtain ⟨m, hm, rfl, hfolder⟩ := h
  unfold inFolder at hfolder
  unfold Jmap.listFolderThreads
  dsimp only
  rw [Option.none_or]
  cases hmailbox : a.mailboxFor folder with
  | none =>
    rw [hmailbox] at hfolder
    cases hfolder
  | some mailboxId =>
    rw [hmailbox, Option.any_some] at hfolder
    dsimp only
    -- Its newest message in the folder stands for the thread.
    have hfound : m ∈ Jmap.newestFirst (a.emails.filter fun m =>
        decide (mailboxId ∈ m.mailboxIds) && ((none : Option Text).all fun q => finds q m)) := by
      unfold Jmap.newestFirst
      rw [List.mem_mergeSort, List.mem_filter, Option.all_none, Bool.and_true]
      exact ⟨hm, hfolder⟩
    obtain ⟨m', hm', hthread⟩ := exists_mem_fillIn (·.threadId) [] hfound
    refine ⟨Jmap.listed locale a m', List.mem_map_of_mem ?_, hthread⟩
    rw [List.drop_zero, List.take_of_length_le]
    · exact hm'
    · refine (length_fillIn_le _ _).trans ?_
      unfold Jmap.newestFirst
      rw [List.length_nil, Nat.zero_add, List.length_mergeSort]
      exact (List.length_filter_le _ _).trans hlimit

end Engine

/-! ### The listing of a mailbox -/

section Paged

variable {locale : Locale} {tables : MailTables} {backends : Backends} {workspaceId : String}
  {ucUid : Option String} {mailbox : MailboxAccount} {limit : ℕ} {folder : MailFolder}

/-- The live threads of a page with the service's own, newest first. -/
def merged (locale : Locale) (tables : MailTables) (backends : Backends) (workspaceId : String)
    (address : Text) (limit : ℕ) (folder : MailFolder) : List ThreadView :=
  (fillIn (·.id) (byId (·.id) (liveFolderThreads backends address ⟨folder, limit, 0, none, none⟩))
    (localThreads locale tables workspaceId folder limit
      (localRows tables workspaceId folder address))).mergeSort
        fun a b => threadTime locale b ≤ threadTime locale a

/-- The first page of a sovereign mailbox. -/
theorem listMailboxInbox_first
    (hmailbox : findMailbox tables.settings workspaceId mailbox.id = some mailbox)
    (hsovereign : EngineMailProvider.handles mailbox.provider = false) :
    listMailboxInbox locale tables backends workspaceId ucUid mailbox.id limit folder none 0 =
      (overlayFilterThreads tables workspaceId
        (merged locale tables backends workspaceId mailbox.emailAddress limit folder)
          folder).take limit := by
  unfold listMailboxInbox
  rw [hmailbox]
  dsimp only
  rw [if_neg (by rw [hsovereign]; decide), if_neg (by decide)]
  rfl

/-- A later page. -/
theorem listMailboxInbox_later {offset : ℕ} (hoffset : 0 < offset)
    (hmailbox : findMailbox tables.settings workspaceId mailbox.id = some mailbox)
    (hsovereign : EngineMailProvider.handles mailbox.provider = false) :
    listMailboxInbox locale tables backends workspaceId ucUid mailbox.id limit folder none offset =
      overlayFilterThreads tables workspaceId
        (liveFolderThreads backends mailbox.emailAddress ⟨folder, limit, offset, none, none⟩)
          folder := by
  unfold listMailboxInbox
  rw [hmailbox]
  dsimp only
  rw [if_neg (by rw [hsovereign]; decide), if_pos (by simpa using hoffset)]

theorem length_merged_le {address : Text} : (merged locale tables backends workspaceId address limit
      folder).length ≤
    (liveFolderThreads backends address ⟨folder, limit, 0, none, none⟩).length +
      tables.rows.length := by
  unfold merged
  rw [List.length_mergeSort]
  refine (length_fillIn_le _ _).trans (Nat.add_le_add (length_byId_le _) ?_)
  exact (length_localThreads_le _ _ _ _ _ _).trans (length_localRows_le _ _ _ _)

end Paged

/-- The tables of the service, with the overlay of a desk. -/
def Desk.tables (tables : MailTables) (desk : Desk) : MailTables :=
  { tables with dispositions := desk.overlay.map (·.toThreadDisposition) }

/-- The backends of the service, with the engine's accounts of a desk. -/
def Desk.backends (locale : Locale) (finds : Text → Jmap.Email → Bool) (backends : Backends)
    (desk : Desk) : Backends :=
  { backends with
    isConfigured := true
    listFolderThreads := fun address query =>
      Jmap.listFolderThreads locale finds (desk.mail.engine address) query }

/-- The disposition of a thread. -/
def Desk.dispositionOf (desk : Desk) (workspaceId threadId : String) : MessageDisposition :=
  ((desk.overlay.find? fun r => r.workspaceId = workspaceId && r.threadId = threadId).map
    (·.disposition)).getD .inbox

theorem dispositionOf_tables (tables : MailTables) (desk : Desk) (workspaceId threadId : String) :
    EmailOps.dispositionOf (desk.tables tables) workspaceId threadId =
      desk.dispositionOf workspaceId threadId := by
  unfold EmailOps.dispositionOf Desk.tables Desk.dispositionOf
  dsimp only
  rw [List.find?_map, Option.map_map]
  rfl

/-- Is the thread listed in a folder of the mailbox, on a page of some size? -/
def Listed (locale : Locale) (finds : Text → Jmap.Email → Bool) (tables : MailTables)
    (backends : Backends) (workspaceId : String) (ucUid : Option String) (mailboxId : String)
    (folder : MailFolder) (threadId : String) (desk : Desk) : Prop :=
  ∃ limit offset, ∃ t ∈ listMailboxInbox locale (desk.tables tables)
    (desk.backends locale finds backends) workspaceId ucUid mailboxId limit folder none offset,
      t.id = threadId

section Listed

variable {locale : Locale} {finds : Text → Jmap.Email → Bool} {tables : MailTables}
  {backends : Backends} {workspaceId : String} {ucUid : Option String} {mailbox : MailboxAccount}
  {folder : MailFolder} {threadId : String} {desk : Desk}

/-- **A thread is listed in a folder that it has a message in, when the overlay admits it
there.** -/
theorem listed_of_files
    (hmailbox : findMailbox tables.settings workspaceId mailbox.id = some mailbox)
    (hsovereign : EngineMailProvider.handles mailbox.provider = false)
    (hfiles : Files (desk.mail.engine mailbox.emailAddress) folder threadId)
    (hadmitted : visibleIn folder (desk.dispositionOf workspaceId threadId) = true) :
    Listed locale finds tables backends workspaceId ucUid mailbox.id folder threadId desk := by
  have hfind : findMailbox (desk.tables tables).settings workspaceId mailbox.id = some mailbox :=
    hmailbox
  let limit := (desk.mail.engine mailbox.emailAddress).emails.length + tables.rows.length
  let live := liveFolderThreads (desk.backends locale finds backends) mailbox.emailAddress
    ⟨folder, limit, 0, none, none⟩
  obtain ⟨t, ht, hid⟩ : ∃ t ∈ Jmap.listFolderThreads locale finds
      (desk.mail.engine mailbox.emailAddress) ⟨folder, limit, 0, none, none⟩, t.id = threadId :=
    exists_mem_listFolderThreads (Nat.le_add_right _ tables.rows.length) hfiles
  have hlive : t.view ∈ live := List.mem_map_of_mem ht
  have hlength : live.length ≤ (desk.mail.engine mailbox.emailAddress).emails.length := by
    refine (List.length_map _).le.trans ?_
    exact length_listFolderThreads_le _
  -- The first page is long enough for all that there is.
  obtain ⟨w, hw, hwid⟩ : ∃ w ∈ byId (·.id) live, w.id = t.view.id := exists_mem_byId hlive
  have hmerged : w ∈ merged locale (desk.tables tables) (desk.backends locale finds backends)
      workspaceId mailbox.emailAddress limit folder :=
    List.mem_mergeSort.mpr (mem_fillIn_of_mem hw)
  have hwthread : w.id = threadId := hwid.trans hid
  refine ⟨limit, 0, w, ?_, hwthread⟩
  rw [listMailboxInbox_first hfind hsovereign, overlayFilterThreads_eq,
    List.take_of_length_le]
  · rw [List.mem_filter, dispositionOf_tables, hwthread]
    exact ⟨hmerged, hadmitted⟩
  · refine (List.length_filter_le _ _).trans (length_merged_le.trans ?_)
    exact Nat.add_le_add_right hlength _

/-- **What is listed in a folder is admitted there by the overlay**, and without rows of the
service's own it has a message there. -/
theorem visible_of_listed
    (hmailbox : findMailbox tables.settings workspaceId mailbox.id = some mailbox)
    (hsovereign : EngineMailProvider.handles mailbox.provider = false)
    (h : Listed locale finds tables backends workspaceId ucUid mailbox.id folder threadId desk) :
    visibleIn folder (desk.dispositionOf workspaceId threadId) = true ∧
      (tables.rows = [] → Files (desk.mail.engine mailbox.emailAddress) folder threadId) := by
  have hfind : findMailbox (desk.tables tables).settings workspaceId mailbox.id = some mailbox :=
    hmailbox
  obtain ⟨limit, offset, t, ht, rfl⟩ := h
  have hlive : ∀ offset, t ∈ liveFolderThreads (desk.backends locale finds backends)
      mailbox.emailAddress ⟨folder, limit, offset, none, none⟩ →
      Files (desk.mail.engine mailbox.emailAddress) folder t.id := by
    intro offset hmem
    obtain ⟨t', ht', rfl⟩ := List.mem_map.mp hmem
    exact files_of_mem_listFolderThreads ht'
  cases offset with
  | zero =>
    rw [listMailboxInbox_first hfind hsovereign, overlayFilterThreads_eq] at ht
    obtain ⟨hmerged, hadmitted⟩ := List.mem_filter.mp (List.mem_of_mem_take ht)
    rw [dispositionOf_tables] at hadmitted
    refine ⟨hadmitted, fun hrows => ?_⟩
    unfold merged at hmerged
    rw [List.mem_mergeSort] at hmerged
    rcases mem_of_mem_fillIn hmerged with hbyId | hlocal
    · exact hlive 0 (mem_of_mem_byId hbyId)
    · -- There are no rows to make a thread of.
      have hnone : localRows (desk.tables tables) workspaceId folder mailbox.emailAddress = [] := by
        have hlength := length_localRows_le (desk.tables tables) workspaceId folder
          mailbox.emailAddress
        rw [show (desk.tables tables).rows = [] from hrows] at hlength
        exact List.eq_nil_of_length_eq_zero (Nat.le_zero.mp hlength)
      have hlength := length_localThreads_le locale (desk.tables tables) workspaceId folder limit
        (localRows (desk.tables tables) workspaceId folder mailbox.emailAddress)
      rw [hnone] at hlength hlocal
      rw [List.eq_nil_of_length_eq_zero (Nat.le_zero.mp hlength)] at hlocal
      cases hlocal
  | succ offset =>
    rw [listMailboxInbox_later (Nat.succ_pos offset) hfind hsovereign,
      overlayFilterThreads_eq] at ht
    obtain ⟨hmem, hadmitted⟩ := List.mem_filter.mp ht
    rw [dispositionOf_tables] at hadmitted
    exact ⟨hadmitted, fun _ => hlive _ hmem⟩

end Listed

end Triage
end EmailOps
