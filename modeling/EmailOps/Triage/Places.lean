import EmailOps.Triage.Overlay

/-!
# What an operation does to the places of a thread

A thread that is in the Inbox, the Archive, the Trash or Junk is in sight when one of its
messages is in a folder that its disposition is listed in. `InSight` says so of all the
threads of an account, and here is what keeps it so: a write to the overlay, a call of the
engine, a message that is delivered, a folder that is emptied, and the search of the mail
client's endpoints.

* `dispositionOf_upsert` is what a write to the overlay does.
* `Moves` is what a call of the engine does to the folders, `shown_of_moved` and
  `shown_of_stays` are what follows for the messages of its thread.
* `engine_search` is what a search does to an account: nothing, or the call that moves the
  thread.
-/

namespace EmailOps
namespace Triage

open Framework

/-! ### Folders of a message -/

section Places

variable {a a' : Jmap.Account} {d : MessageDisposition} {m m' : Jmap.Email} {threadId : String}

theorem inFolder_congr (ha : a'.mailboxes = a.mailboxes) (hm : m'.mailboxIds = m.mailboxIds)
    (folder : MailFolder) : inFolder a' folder m' = inFolder a folder m := by
  unfold inFolder Jmap.Account.mailboxFor
  rw [ha, hm]

theorem showsIn_congr (ha : a'.mailboxes = a.mailboxes) (hm : m'.mailboxIds = m.mailboxIds) :
    showsIn a' d m' = showsIn a d m := by
  unfold showsIn
  simp only [inFolder_congr ha hm]

theorem placedIn_congr (ha : a'.mailboxes = a.mailboxes) (hm : m'.mailboxIds = m.mailboxIds) :
    placedIn a' m' = placedIn a m := by
  unfold placedIn
  simp only [inFolder_congr ha hm]

theorem showsIn_of_inFolder {folder : MailFolder} (hvisible : visibleIn folder d = true)
    (hfolder : inFolder a folder m = true) : showsIn a d m = true := by
  unfold showsIn
  rw [List.any_eq_true]
  refine ⟨folder, ?_, by rw [hvisible, hfolder]; rfl⟩
  cases folder <;> simp

theorem exists_of_showsIn (h : showsIn a d m = true) :
    ∃ folder, visibleIn folder d = true ∧ inFolder a folder m = true := by
  unfold showsIn at h
  obtain ⟨folder, -, hboth⟩ := List.any_eq_true.mp h
  exact ⟨folder, Bool.and_eq_true_iff.mp hboth⟩

theorem exists_files_of_shown (h : Shown a d threadId) :
    ∃ folder, visibleIn folder d = true ∧ Files a folder threadId := by
  obtain ⟨m, hm, hthread, hshows⟩ := h
  obtain ⟨folder, hvisible, hfolder⟩ := exists_of_showsIn hshows
  exact ⟨folder, hvisible, m, hm, hthread, hfolder⟩

theorem shown_of_files {folder : MailFolder} (hvisible : visibleIn folder d = true)
    (h : Files a folder threadId) : Shown a d threadId := by
  obtain ⟨m, hm, hthread, hfolder⟩ := h
  exact ⟨m, hm, hthread, showsIn_of_inFolder hvisible hfolder⟩

/-- **In sight**: the threads of an account, with their dispositions, are listed. -/
def InSight (a : Jmap.Account) (disposition : String → MessageDisposition) : Prop :=
  ∀ threadId, Placed a threadId → Shown a (disposition threadId) threadId

theorem visibleIn_dispositionFolder (d : MessageDisposition) :
    visibleIn (dispositionFolder d) d = true := by
  cases d <;> rfl

end Places

/-! ### The overlay -/

/-- **What a write to the overlay does**: it sets the disposition of its thread. -/
theorem dispositionOf_upsert (desk : Desk) (row : DispositionRow) (workspaceId threadId : String) :
    ({ desk with overlay := upsert row desk.overlay } : Desk).dispositionOf workspaceId threadId =
      if row.workspaceId = workspaceId ∧ row.threadId = threadId then row.disposition
      else desk.dispositionOf workspaceId threadId := by
  unfold Desk.dispositionOf upsert
  dsimp only
  split
  · next hany =>
    rw [List.find?_map]
    -- The rows that are replaced keep their key.
    have hkey : ((fun r : DispositionRow =>
        decide (r.workspaceId = workspaceId) && decide (r.threadId = threadId)) ∘
          fun r => if (decide (r.workspaceId = row.workspaceId) &&
            decide (r.threadId = row.threadId)) = true then row else r) =
        fun r => decide (r.workspaceId = workspaceId) && decide (r.threadId = threadId) := by
      funext r
      simp only [Function.comp_apply]
      split
      · next hsame =>
        simp only [Bool.and_eq_true, decide_eq_true_eq] at hsame
        rw [hsame.1, hsame.2]
      · rfl
    rw [hkey]
    split
    · next hrow =>
      -- The row that is found is one of those replaced.
      obtain ⟨r₀, hr₀, hsame⟩ := List.any_eq_true.mp hany
      rw [hrow.1, hrow.2] at hsame ⊢
      obtain ⟨r, hr⟩ : ∃ r, desk.overlay.find? (fun r => decide (r.workspaceId = workspaceId) &&
          decide (r.threadId = threadId)) = some r :=
        Option.isSome_iff_exists.mp (List.find?_isSome.mpr ⟨r₀, hr₀, hsame⟩)
      rw [hr, Option.map_some, if_pos (List.find?_some hr)]
      rfl
    · next hrow =>
      cases hr : desk.overlay.find? (fun r => decide (r.workspaceId = workspaceId) &&
          decide (r.threadId = threadId)) with
      | none => rfl
      | some r =>
        have hfound := List.find?_some hr
        simp only [Bool.and_eq_true, decide_eq_true_eq] at hfound
        rw [Option.map_some, if_neg]
        rw [Bool.and_eq_true, decide_eq_true_eq, decide_eq_true_eq, hfound.1, hfound.2]
        exact fun hkeys => hrow ⟨hkeys.1.symm, hkeys.2.symm⟩
  · next hnone =>
    rw [List.find?_append]
    split
    · next hrow =>
      -- No row has the key yet.
      have hfree : desk.overlay.find? (fun r => decide (r.workspaceId = workspaceId) &&
          decide (r.threadId = threadId)) = none := by
        rw [List.find?_eq_none]
        intro r hr hkey
        rw [← hrow.1, ← hrow.2] at hkey
        exact hnone (List.any_eq_true.mpr ⟨r, hr, hkey⟩)
      rw [hfree, Option.none_or, List.find?_cons_of_pos (by simpa using hrow)]
      rfl
    · next hrow =>
      rw [List.find?_cons_of_neg (by simpa using hrow), List.find?_nil, Option.or_none]

/-! ### Calls of the engine -/

section Calls

variable {a : Jmap.Account} {threadId : String} {x : Jmap.Exchange} {call : ThreadCall}

/-- The messages of an account after a call: those that are moved are in the target, and the
others are where they were. -/
structure Moves (call : ThreadCall) (a : Jmap.Account) (threadId : String) (x : Jmap.Exchange)
    (f : Jmap.Email → Jmap.Email) : Prop where
  mailboxes : (call.run a threadId x).mailboxes = a.mailboxes
  emails : (call.run a threadId x).emails = a.emails.map f
  thread : ∀ m, (f m).threadId = m.threadId
  moved : ∀ m ∈ call.moved a threadId x, ∃ target, call.target? a x = some target ∧
    (f m).mailboxIds = {target}
  stays : ∀ m, m ∉ call.moved a threadId x → (f m).mailboxIds = m.mailboxIds

/-- A call that comes to no message. -/
theorem moves_of_none (hrun : call.run a threadId x = a) (htarget : call.target? a x = none) :
    Moves call a threadId x id where
  mailboxes := by rw [hrun]
  emails := by rw [hrun, List.map_id]
  thread _ := rfl
  moved m hm := by
    unfold ThreadCall.moved at hm
    rw [htarget] at hm
    cases hm
  stays _ _ := rfl

/-- A call that moves messages to a target. -/
theorem moves_of_some {target : String}
    (hrun : call.run a threadId x = (Jmap.setThread a threadId x (Jmap.Email.moveTo target)).1)
    (htarget : call.target? a x = some target) :
    Moves call a threadId x fun m =>
      if m ∈ Jmap.updated a threadId x then m.moveTo target else m := by
  have hmoved : call.moved a threadId x = Jmap.updated a threadId x := by
    unfold ThreadCall.moved
    rw [htarget]
    rfl
  constructor
  · rw [hrun, Jmap.mailboxes_setThread]
  · rw [hrun, Jmap.emails_setThread]
  · intro m
    split
    · rfl
    · rfl
  · intro m hm
    rw [hmoved] at hm
    refine ⟨target, htarget, ?_⟩
    rw [if_pos hm]
    rfl
  · intro m hm
    rw [hmoved] at hm
    rw [if_neg hm]

/-- **What a call of the engine does to the folders.** -/
theorem exists_moves (call : ThreadCall) (a : Jmap.Account) (threadId : String)
    (x : Jmap.Exchange) : ∃ f, Moves call a threadId x f := by
  cases call with
  | toFolder folder =>
    cases htarget : Jmap.target? a folder x with
    | none =>
      refine ⟨_, moves_of_none ?_ htarget⟩
      show (Jmap.moveThreadToFolder true a threadId folder x).1 = a
      rw [Jmap.moveThreadToFolder_of_none fun _ => htarget]
    | some target =>
      refine ⟨_, moves_of_some ?_ htarget⟩
      show (Jmap.moveThreadToFolder true a threadId folder x).1 = _
      rw [Jmap.moveThreadToFolder_of_some htarget]
  | toMailbox mailboxId =>
    cases hknown : x.resolved && a.mailboxes.any (·.id = mailboxId) with
    | false =>
      refine ⟨_, moves_of_none ?_ ?_⟩
      · unfold ThreadCall.run Jmap.moveThreadToMailbox
        rw [Bool.and_eq_false_iff] at hknown
        obtain hresolved | hany := hknown
        · simp [hresolved]
        · simp [hany]
      · show (if x.resolved && a.mailboxes.any (·.id = mailboxId) then some mailboxId else none) = _
        rw [hknown]
        rfl
    | true =>
      have htarget : (ThreadCall.toMailbox mailboxId).target? a x = some mailboxId := by
        show (if x.resolved && a.mailboxes.any (·.id = mailboxId) then some mailboxId else none) = _
        rw [hknown]
        rfl
      refine ⟨_, moves_of_some ?_ htarget⟩
      unfold ThreadCall.run Jmap.moveThreadToMailbox
      rw [Bool.and_eq_true] at hknown
      simp [hknown.1, hknown.2]
  | read value =>
    -- Whether a message is read does not change its folders.
    have hmoved : (ThreadCall.read value).moved a threadId x = [] := rfl
    refine ⟨fun m => if m ∈ Jmap.updated a threadId x then m.setSeen value else m, ?_, ?_, ?_, ?_, ?_⟩
    · exact Jmap.mailboxes_setThread
    · exact Jmap.emails_setThread
    · intro m
      split
      · rfl
      · rfl
    · intro m hm
      rw [hmoved] at hm
      cases hm
    · intro m _
      split
      · rfl
      · rfl

theorem threadId_of_moved {m : Jmap.Email} (h : m ∈ call.moved a threadId x) :
    m.threadId = threadId := by
  unfold ThreadCall.moved at h
  split at h
  · exact (Jmap.mem_updated.mp h).2.1.2
  · cases h

theorem mem_of_moved {m : Jmap.Email} (h : m ∈ call.moved a threadId x) : m ∈ a.emails := by
  unfold ThreadCall.moved at h
  split at h
  · exact (Jmap.mem_updated.mp h).2.1.1
  · cases h

/-- **A call that leaves its thread in sight.** It moves nothing, or to a folder the thread
is listed in; or a message that shows the thread is not among those that are moved; or the
target is a folder of the user's own, and nothing stays behind in the Inbox, the Archive,
the Trash or Junk. -/
def Harmless (call : ThreadCall) (a : Jmap.Account) (threadId : String) (x : Jmap.Exchange)
    (d : MessageDisposition) : Prop :=
  call.moved a threadId x = [] ∨
  (∃ target folder, call.target? a x = some target ∧ visibleIn folder d = true ∧
    a.mailboxFor folder = some target) ∨
  (∃ m ∈ a.emails, m.threadId = threadId ∧ m ∉ call.moved a threadId x ∧ showsIn a d m = true) ∨
  (∃ target, call.target? a x = some target ∧
    (∀ folder ∈ [MailFolder.inbox, .archive, .spam, .trash], a.mailboxFor folder ≠ some target) ∧
    ∀ m ∈ a.emails, m.threadId = threadId → m ∉ call.moved a threadId x → placedIn a m = false)

/-- A message that has been moved is in the target only. -/
theorem inFolder_moved {f : Jmap.Email → Jmap.Email} (h : Moves call a threadId x f)
    {m : Jmap.Email} {target : String} (hm : m ∈ call.moved a threadId x)
    (htarget : call.target? a x = some target) (folder : MailFolder) :
    inFolder (call.run a threadId x) folder (f m) = true ↔ a.mailboxFor folder = some target := by
  obtain ⟨target', htarget', hids⟩ := h.moved m hm
  obtain rfl := Option.some.inj (htarget.symm.trans htarget')
  unfold inFolder Jmap.Account.mailboxFor
  rw [h.mailboxes, hids]
  cases a.mailboxes.find? fun b => b.role = some (Jmap.folderRole folder) with
  | none => simp
  | some b => simp

/-- A message that is not moved shows its thread as before. -/
theorem shown_of_stays {f : Jmap.Email → Jmap.Email} (h : Moves call a threadId x f)
    {m : Jmap.Email} {d : MessageDisposition} (hm : m ∈ a.emails)
    (hstays : m ∉ call.moved a threadId x) (hshows : showsIn a d m = true) :
    Shown (call.run a threadId x) d m.threadId := by
  refine ⟨f m, ?_, h.thread m, ?_⟩
  · rw [h.emails]
    exact List.mem_map_of_mem hm
  · rw [showsIn_congr h.mailboxes (h.stays m hstays)]
    exact hshows

/-- A message that is moved shows its thread, when the thread is listed in the target. -/
theorem shown_of_moved {m : Jmap.Email} {d : MessageDisposition} {target : String}
    {folder : MailFolder} (hm : m ∈ call.moved a threadId x)
    (htarget : call.target? a x = some target) (hvisible : visibleIn folder d = true)
    (hmailbox : a.mailboxFor folder = some target) :
    Shown (call.run a threadId x) d threadId := by
  obtain ⟨f, hf⟩ := exists_moves call a threadId x
  refine ⟨f m, ?_, (hf.thread m).trans (threadId_of_moved hm), ?_⟩
  · rw [hf.emails]
    exact List.mem_map_of_mem (mem_of_moved hm)
  · exact showsIn_of_inFolder hvisible ((inFolder_moved hf hm htarget folder).mpr hmailbox)

/-- **A call leaves a thread in sight**, when it is harmless to it. -/
theorem shown_run {d : MessageDisposition} {other : String}
    (h : Placed a other → Shown a d other) (hcall : other = threadId → Harmless call a threadId x d) :
    Placed (call.run a threadId x) other → Shown (call.run a threadId x) d other := by
  obtain ⟨f, hf⟩ := exists_moves call a threadId x
  rintro ⟨m', hm', rfl, hplaced⟩
  rw [hf.emails] at hm'
  obtain ⟨m, hm, rfl⟩ := List.mem_map.mp hm'
  rw [hf.thread] at h hcall ⊢
  -- While nothing of the thread is moved, it is where it was.
  have hstill : (∀ m₁ ∈ call.moved a threadId x, m₁.threadId ≠ m.threadId) →
      Shown (call.run a threadId x) d m.threadId := by
    intro hnone
    have hstays : ∀ {m₁ : Jmap.Email}, m₁.threadId = m.threadId →
        m₁ ∉ call.moved a threadId x := fun hthread hmem => hnone _ hmem hthread
    rw [placedIn_congr hf.mailboxes (hf.stays m (hstays rfl))] at hplaced
    obtain ⟨m₁, hm₁, hthread, hshows⟩ := h ⟨m, hm, rfl, hplaced⟩
    rw [← hthread]
    exact shown_of_stays hf hm₁ (hstays hthread) hshows
  by_cases hthread : m.threadId = threadId
  · obtain hnone | ⟨target, folder, htarget, hvisible, hmailbox⟩ | ⟨m₁, hm₁, hid, hstays, hshows⟩ |
      ⟨target, htarget, hroles, hleft⟩ := hcall hthread
    · refine hstill fun m₁ hm₁ => ?_
      rw [hnone] at hm₁
      cases hm₁
    · -- The thread is listed in the target.
      by_cases hempty : ∀ m₁ ∈ call.moved a threadId x, m₁.threadId ≠ m.threadId
      · exact hstill hempty
      · push Not at hempty
        obtain ⟨m₁, hm₁, -⟩ := hempty
        rw [hthread]
        exact shown_of_moved hm₁ htarget hvisible hmailbox
    · have hshown := shown_of_stays hf hm₁ hstays hshows
      rwa [hid.trans hthread.symm] at hshown
    · -- Nothing of the thread is left where it counts.
      by_cases hmoved : m ∈ call.moved a threadId x
      · unfold placedIn at hplaced
        obtain ⟨folder, hfolder, hin⟩ := List.any_eq_true.mp hplaced
        exact absurd ((inFolder_moved hf hmoved htarget folder).mp hin) (hroles folder hfolder)
      · rw [placedIn_congr hf.mailboxes (hf.stays m hmoved), hleft m hm hthread hmoved] at hplaced
        cases hplaced
  · refine hstill fun m₁ hm₁ hsame => hthread ?_
    rw [← hsame, threadId_of_moved hm₁]

theorem InSight.run {disposition : String → MessageDisposition} (h : InSight a disposition)
    (hcall : Harmless call a threadId x (disposition threadId)) :
    InSight (call.run a threadId x) disposition := by
  intro other
  refine shown_run (h other) ?_
  rintro rfl
  exact hcall

end Calls

/-! ### Messages that come and go -/

section Messages

variable {a a' : Jmap.Account} {disposition : String → MessageDisposition}

theorem Shown.mono {d : MessageDisposition} {threadId : String} (h : Shown a d threadId)
    (hmailboxes : a'.mailboxes = a.mailboxes) (hemails : ∀ m ∈ a.emails, m ∈ a'.emails) :
    Shown a' d threadId := by
  obtain ⟨m, hm, hthread, hshows⟩ := h
  refine ⟨m, hemails m hm, hthread, ?_⟩
  rw [showsIn_congr hmailboxes rfl]
  exact hshows

theorem inFolder_moveTo {folder : MailFolder} {mailboxId : String}
    (hmailbox : a.mailboxFor folder = some mailboxId) (emails : List Jmap.Email) (m : Jmap.Email) :
    inFolder { a with emails := emails } folder (m.moveTo mailboxId) = true := by
  show (a.mailboxFor folder).any _ = true
  rw [hmailbox, Option.any_some]
  simp [Jmap.Email.moveTo]

/-- A message that is delivered is put in the folder's mailbox. -/
theorem deliver_eq_some {desk desk' : Desk} {address : Text} {folder : MailFolder} {m : Jmap.Email}
    (h : desk.deliver address folder m = some desk') :
    ∃ mailboxId, (desk.mail.engine address).mailboxFor folder = some mailboxId ∧
      desk' = desk.setEngine address { desk.mail.engine address with
        emails := (desk.mail.engine address).emails ++ [m.moveTo mailboxId] } := by
  unfold Desk.deliver at h
  dsimp only at h
  split at h
  · next mailboxId hmailbox =>
    split at h
    · cases h
    · exact ⟨mailboxId, hmailbox, (Option.some.inj h).symm⟩
  · cases h

/-- A message is delivered in a folder that lists its thread, or its thread is in sight. -/
theorem InSight.deliver (h : InSight a disposition) {folder : MailFolder} {mailboxId : String}
    (hmailbox : a.mailboxFor folder = some mailboxId) (m : Jmap.Email)
    (hm : visibleIn folder (disposition m.threadId) = true ∨
      Shown a (disposition m.threadId) m.threadId) :
    InSight { a with emails := a.emails ++ [m.moveTo mailboxId] } disposition := by
  have hmore : ∀ m₁ ∈ a.emails, m₁ ∈ a.emails ++ [m.moveTo mailboxId] :=
    fun m₁ hm₁ => List.mem_append_left _ hm₁
  rintro other ⟨m₁, hm₁, rfl, hplaced⟩
  rcases List.mem_append.mp hm₁ with hold | hnew
  · have hshown : Shown a (disposition m₁.threadId) m₁.threadId := h _ ⟨m₁, hold, rfl, hplaced⟩
    exact hshown.mono rfl hmore
  · obtain rfl := List.mem_singleton.mp hnew
    obtain hvisible | hshown := hm
    · exact ⟨_, hm₁, rfl, showsIn_of_inFolder hvisible (inFolder_moveTo hmailbox _ m)⟩
    · exact hshown.mono rfl hmore

/-- What an emptied folder leaves: messages that were there, and all that are not in it. -/
structure Purged (mailboxId : String) (a a' : Jmap.Account) : Prop where
  mailboxes : a'.mailboxes = a.mailboxes
  emails : ∀ m ∈ a'.emails, m ∈ a.emails
  others : ∀ m ∈ a.emails, mailboxId ∉ m.mailboxIds → m ∈ a'.emails

theorem Purged.refl (mailboxId : String) (a : Jmap.Account) : Purged mailboxId a a :=
  ⟨rfl, fun _ hm => hm, fun _ hm _ => hm⟩

theorem Purged.trans {mailboxId : String} {a'' : Jmap.Account} (h : Purged mailboxId a a')
    (h' : Purged mailboxId a' a'') : Purged mailboxId a a'' where
  mailboxes := h'.mailboxes.trans h.mailboxes
  emails m hm := h.emails m (h'.emails m hm)
  others m hm hout := h'.others m (h.others m hm hout) hout

theorem purged_destroyed (mailboxId : String) (a : Jmap.Account) (round : Jmap.PurgeRound) :
    Purged mailboxId a (Jmap.destroyed a mailboxId round) where
  mailboxes := rfl
  emails m hm := (List.mem_filter.mp hm).1
  others m hm hout := List.mem_filter.mpr ⟨hm, by simp [hout]⟩

/-- The induction is on the rounds. -/
theorem purged_purgeLoop (mailboxId : String) (n : ℕ) (rounds : ℕ → Jmap.PurgeRound)
    (purged : Option ℕ) (a : Jmap.Account) :
    Purged mailboxId a (Jmap.purgeLoop mailboxId n rounds purged a).1 := by
  induction n generalizing rounds purged a with
  | zero => exact .refl _ _
  | succ n ih =>
    have hround := purged_destroyed mailboxId a (rounds 0)
    unfold Jmap.purgeLoop
    dsimp only
    split
    · exact .refl _ _
    · split
      · exact .refl _ _
      · split
        · exact hround
        · split
          · exact hround
          · exact hround.trans (ih _ _ _)

/-- **A folder that may be emptied**, as to the threads of an account: something that shows
the thread is elsewhere, or every message that counts shows it. -/
def Emptiable (a : Jmap.Account) (folder : MailFolder)
    (disposition : String → MessageDisposition) : Prop :=
  ∀ threadId, Placed a threadId →
    (∃ m ∈ a.emails, m.threadId = threadId ∧ inFolder a folder m = false ∧
      showsIn a (disposition threadId) m = true) ∨
    ∀ m ∈ a.emails, m.threadId = threadId → placedIn a m = true →
      showsIn a (disposition threadId) m = true

theorem InSight.emptyFolder (h : InSight a disposition) {folder : MailFolder}
    (hempty : Emptiable a folder disposition) (resolved : Bool) (rounds : ℕ → Jmap.PurgeRound) :
    InSight (Jmap.emptyFolder true a folder resolved rounds).1 disposition := by
  unfold Jmap.emptyFolder
  rw [if_neg (by decide)]
  split
  · exact h
  · next mailboxId hmailbox =>
    have hfolder : a.mailboxFor folder = some mailboxId := by
      split at hmailbox
      · exact hmailbox
      · cases hmailbox
    have hin : ∀ m : Jmap.Email, inFolder a folder m = decide (mailboxId ∈ m.mailboxIds) := by
      intro m
      unfold inFolder
      rw [hfolder, Option.any_some]
    have hpurged := purged_purgeLoop mailboxId 100 rounds none a
    rintro other ⟨m, hm, rfl, hplaced⟩
    rw [placedIn_congr hpurged.mailboxes rfl] at hplaced
    have hbefore := hpurged.emails m hm
    obtain ⟨m₁, hm₁, hthread, hout, hshows⟩ | hall :=
      hempty m.threadId ⟨m, hbefore, rfl, hplaced⟩
    · rw [hin, decide_eq_false_iff_not] at hout
      refine ⟨m₁, hpurged.others m₁ hm₁ hout, hthread, ?_⟩
      rw [showsIn_congr hpurged.mailboxes rfl]
      exact hshows
    · -- What is left of the thread shows it.
      refine ⟨m, hm, rfl, ?_⟩
      rw [showsIn_congr hpurged.mailboxes rfl]
      exact hall m hbefore rfl hplaced

end Messages

/-! ### The search of the endpoints -/

section Search

variable {configured : Bool} {threadId : String} {verb : Verb} {mail : Mail}
  {mailbox other : MailboxAccount} {fate : Fate} {fates : String → Fate}

/-- An attempt on one mailbox leaves the accounts of the others alone. -/
theorem engine_attempt_of_ne (h : other.emailAddress ≠ mailbox.emailAddress) :
    (attempt configured threadId verb mail other fate).mail.engine mailbox.emailAddress =
      mail.engine mailbox.emailAddress := by
  unfold attempt
  split
  · dsimp only
    split
    · rfl
    · rfl
  · exact Function.update_of_ne h.symm _ _

/-- So does a search among the others. -/
theorem engine_search_of_ne (mailboxes : List MailboxAccount)
    (haddress : ∀ other ∈ mailboxes, other.emailAddress ≠ mailbox.emailAddress)
    (hid : ∀ other ∈ mailboxes, other.id ≠ mailbox.id) :
    (search configured threadId verb fates mailboxes mail).mail.engine mailbox.emailAddress =
        mail.engine mailbox.emailAddress ∧
      ∀ id, (mailbox.id, id) ∉ (search configured threadId verb fates mailboxes mail).touched := by
  induction mailboxes generalizing mail with
  | nil => exact ⟨rfl, fun _ => List.not_mem_nil⟩
  | cons other rest ih =>
    have hattempt : (attempt configured threadId verb mail other
        (fates other.id)).mail.engine mailbox.emailAddress = mail.engine mailbox.emailAddress :=
      engine_attempt_of_ne (haddress other List.mem_cons_self)
    have hfound : ∀ id, (mailbox.id, id) ∉ (attempt configured threadId verb mail other
        (fates other.id)).touched.map fun id => (other.id, id) := by
      intro id hmem
      obtain ⟨_, -, heq⟩ := List.mem_map.mp hmem
      exact hid other List.mem_cons_self (Prod.ext_iff.mp heq).1
    obtain ⟨hengine, htouched⟩ := @ih (attempt configured threadId verb mail other
      (fates other.id)).mail (fun m hm => haddress m (List.mem_cons_of_mem other hm))
        fun m hm => hid m (List.mem_cons_of_mem other hm)
    unfold search
    dsimp only
    split
    · exact ⟨hattempt, hfound⟩
    · refine ⟨hengine.trans hattempt, fun id hmem => ?_⟩
      rcases List.mem_append.mp hmem with hfirst | hlater
      · exact hfound id hfirst
      · exact htouched id hlater

/-- **What a search does to a sovereign account**: it does not come to it, or it carries out
the verb there. -/
theorem engine_search (mailboxes : List MailboxAccount) (hsovereign : providerOf mailbox = none)
    (hnodup : mailboxes.Nodup)
    (haddress : ∀ other ∈ mailboxes, other.emailAddress = mailbox.emailAddress → other = mailbox)
    (hid : ∀ other ∈ mailboxes, other.id = mailbox.id → other = mailbox) :
    let s := search configured threadId verb fates mailboxes mail
    let a := mail.engine mailbox.emailAddress
    let x := (fates mailbox.id).exchange
    (s.mail.engine mailbox.emailAddress = a ∧ ∀ id, (mailbox.id, id) ∉ s.touched) ∨
    (s.mail.engine mailbox.emailAddress = (sovereignVerb configured a threadId verb x).1 ∧
      ∀ id, (mailbox.id, id) ∈ s.touched ↔
        id ∈ (sovereignTouched configured a threadId verb x).map (·.id)) := by
  induction mailboxes generalizing mail with
  | nil => exact .inl ⟨rfl, fun _ => List.not_mem_nil⟩
  | cons first rest ih =>
    obtain ⟨hnotMem, hrest⟩ := List.nodup_cons.mp hnodup
    by_cases hfirst : first = mailbox
    · subst hfirst
      right
      have hattempt : (attempt configured threadId verb mail first (fates first.id)).mail.engine
          first.emailAddress = (sovereignVerb configured (mail.engine first.emailAddress) threadId
            verb (fates first.id).exchange).1 := by
        unfold attempt
        rw [hsovereign]
        exact Function.update_self _ _ _
      have htouched : (attempt configured threadId verb mail first (fates first.id)).touched =
          (sovereignTouched configured (mail.engine first.emailAddress) threadId verb
            (fates first.id).exchange).map (·.id) := by
        unfold attempt
        rw [hsovereign]
      have hfound : ∀ id, (first.id, id) ∈ (attempt configured threadId verb mail first
            (fates first.id)).touched.map (fun id => (first.id, id)) ↔
          id ∈ (sovereignTouched configured (mail.engine first.emailAddress) threadId verb
            (fates first.id).exchange).map (·.id) := by
        intro id
        rw [← htouched]
        exact List.mem_map_of_injective fun _ _ h => (Prod.ext_iff.mp h).2
      -- The mailbox is not among the others.
      obtain ⟨hengine, hlater⟩ := @engine_search_of_ne configured threadId verb
        (attempt configured threadId verb mail first (fates first.id)).mail first fates rest
        (fun m hm heq => hnotMem (haddress m (List.mem_cons_of_mem first hm) heq ▸ hm))
        fun m hm heq => hnotMem (hid m (List.mem_cons_of_mem first hm) heq ▸ hm)
      unfold search
      dsimp only
      split
      · exact ⟨hattempt, hfound⟩
      · refine ⟨hengine.trans hattempt, fun id => ?_⟩
        rw [List.mem_append, hfound]
        exact or_iff_left (hlater id)
    · have hsame : (attempt configured threadId verb mail first (fates first.id)).mail.engine
          mailbox.emailAddress = mail.engine mailbox.emailAddress :=
        engine_attempt_of_ne fun heq => hfirst (haddress first List.mem_cons_self heq)
      have hfound : ∀ id, (mailbox.id, id) ∉ (attempt configured threadId verb mail first
          (fates first.id)).touched.map fun id => (first.id, id) := by
        intro id hmem
        obtain ⟨_, -, heq⟩ := List.mem_map.mp hmem
        exact hfirst (hid first List.mem_cons_self (Prod.ext_iff.mp heq).1)
      have hrestSearch := @ih (attempt configured threadId verb mail first (fates first.id)).mail
        hrest (fun m hm => haddress m (List.mem_cons_of_mem first hm))
        fun m hm => hid m (List.mem_cons_of_mem first hm)
      rw [hsame] at hrestSearch
      unfold search
      dsimp only
      split
      · exact .inl ⟨hsame, hfound⟩
      · obtain ⟨hengine, hnone⟩ | ⟨hengine, hsome⟩ := hrestSearch
        · refine .inl ⟨hengine, fun id hmem => ?_⟩
          rcases List.mem_append.mp hmem with hearly | hlater
          · exact hfound id hearly
          · exact hnone id hlater
        · refine .inr ⟨hengine, fun id => ?_⟩
          rw [List.mem_append, ← hsome]
          exact or_iff_right (hfound id)

end Search

end Triage
end EmailOps
