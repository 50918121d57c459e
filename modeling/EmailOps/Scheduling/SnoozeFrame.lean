import EmailOps.Scheduling.Snooze

/-!
# What a snooze does to the folders of a thread

The thread verbs of the external providers leave drafts alone, and those that move leave
sent mail alone too. The client of the sovereign engine moves every message of a thread, so a
thread comes back from a snooze with all its messages in the Inbox.

* `Framed` is the law of the other lanes, `SameFolders` what a snooze is to leave behind.
* `emails_moveThreadToFolder` and `emails_wake` say what becomes of each
  message, and `sameFolders_iff` what a way there and back means for a thread.
* `snooze_frame_iff`: when a move keeps to the law, and when a thread comes back from a
  snooze as it was.

A thread with an answer to it does not (`sent_message_returns_to_inbox`).
-/

namespace EmailOps
namespace Snooze

open Jmap

/-! ### The law -/

/-- **The law of a move**: only what was received changes its folders. -/
def Framed (a a' : Account) : Prop :=
  List.Forall₂ (fun m m' => m'.mailboxIds = m.mailboxIds ∨ m.direction = .received)
    a.emails a'.emails

/-- The messages of a thread are in the same folders. -/
def SameFolders (threadId : String) (a a' : Account) : Prop :=
  (a'.threadEmails threadId).map (·.mailboxIds) = (a.threadEmails threadId).map (·.mailboxIds)

/-- The message is in the folder and in no other. -/
def AloneIn (a : Account) (folder : MailFolder) (m : Email) : Prop :=
  ∃ target, a.mailboxFor folder = some target ∧ m.mailboxIds = {target}

/-- A move of a thread takes effect on the message. -/
def Moves (configured : Bool) (a : Account) (threadId : String) (folder : MailFolder)
    (x : Exchange) (m : Email) : Prop :=
  (configured = true ∧ (target? a folder x).isSome = true) ∧
    x.listed = true ∧ m.threadId = threadId ∧ x.updates m.id = true

instance (configured : Bool) (a : Account) (threadId : String) (folder : MailFolder)
    (x : Exchange) : DecidablePred (Moves configured a threadId folder x) :=
  fun _ => inferInstanceAs (Decidable ((_ ∧ _) ∧ _ ∧ _ ∧ _))

/-- One round of a sweep brings the message back. -/
def Wakes (settings : Settings) (configured : Bool) (fates : String → WakeFate) (address : Text)
    (a : Account) (row : SnoozedThread) (m : Email) : Prop :=
  ((fates row.id).lookedUp = true ∧
      ∃ mailbox ∈ snoozeMailbox settings row, mailbox.emailAddress = address) ∧
    Moves configured a row.threadId .inbox (fates row.id).exchange m

instance (settings : Settings) (configured : Bool) (fates : String → WakeFate) (address : Text)
    (a : Account) (row : SnoozedThread) :
    DecidablePred (Wakes settings configured fates address a row) :=
  fun _ => inferInstanceAs (Decidable ((_ ∧ _) ∧ _))

/-- **The condition.** Of the messages of the thread, those that are brought back were in the
Inbox alone, and those that are only put away were in the Archive alone. -/
def InboxAlone (threadId : String) (a : Account) (out back : Email → Prop) : Prop :=
  ∀ m ∈ a.threadEmails threadId,
    (back m → AloneIn a .inbox m) ∧ (¬back m → out m → AloneIn a .archive m)

/-! ### What a move does -/

/-- The message in the folder, if there is such a folder. -/
def moveInto (a : Account) (folder : MailFolder) (m : Email) : Email :=
  match a.mailboxFor folder with
  | some target => m.moveTo target
  | none => m

section Move

variable {configured : Bool} {a a' : Account} {threadId : String} {folder : MailFolder}
  {x : Exchange} {m : Email}

@[simp] theorem id_moveInto : (moveInto a folder m).id = m.id := by
  unfold moveInto
  split <;> rfl

@[simp] theorem threadId_moveInto : (moveInto a folder m).threadId = m.threadId := by
  unfold moveInto
  split <;> rfl

@[simp] theorem moveInto_moveInto : moveInto a folder (moveInto a folder m) = moveInto a folder m := by
  unfold moveInto
  split <;> rfl

theorem mailboxFor_congr (h : a'.mailboxes = a.mailboxes) :
    a'.mailboxFor folder = a.mailboxFor folder := by
  unfold Account.mailboxFor
  rw [h]

theorem moveInto_congr (h : a'.mailboxes = a.mailboxes) : moveInto a' folder = moveInto a folder := by
  funext m
  unfold moveInto
  rw [mailboxFor_congr h]

theorem moves_congr {m' : Email} (h : a'.mailboxes = a.mailboxes) (hid : m'.id = m.id)
    (hthread : m'.threadId = m.threadId) :
    Moves configured a' threadId folder x m' ↔ Moves configured a threadId folder x m := by
  unfold Moves target?
  rw [mailboxFor_congr h, hid, hthread]

theorem Moves.target (h : Moves configured a threadId folder x m) :
    ∃ target, a.mailboxFor folder = some target := by
  obtain ⟨target, htarget⟩ := Option.isSome_iff_exists.mp h.1.2
  exact ⟨target, mailboxFor_of_target? htarget⟩

theorem mailboxIds_moveInto_iff (h : ∃ target, a.mailboxFor folder = some target) :
    (moveInto a folder m).mailboxIds = m.mailboxIds ↔ AloneIn a folder m := by
  obtain ⟨target, htarget⟩ := h
  unfold moveInto AloneIn
  rw [htarget]
  simp only [Email.moveTo, Option.some.injEq, exists_eq_left']
  exact eq_comm

/-- **What a move does**, message by message. -/
theorem emails_moveThreadToFolder :
    (moveThreadToFolder configured a threadId folder x).1.emails =
      a.emails.map fun m =>
        if Moves configured a threadId folder x m then moveInto a folder m else m := by
  -- A move without a target takes effect on nothing.
  have hnone : (configured = true → target? a folder x = none) →
      (moveThreadToFolder configured a threadId folder x).1.emails = a.emails.map fun m =>
        if Moves configured a threadId folder x m then moveInto a folder m else m := by
    intro hnone
    rw [moveThreadToFolder_of_none hnone]
    conv_lhs => rw [← List.map_id a.emails]
    refine List.map_congr_left fun m _ => ?_
    rw [if_neg]
    · rfl
    · rintro ⟨⟨hconfigured, hsome⟩, -⟩
      rw [hnone hconfigured] at hsome
      cases hsome
  cases configured with
  | false => exact hnone nofun
  | true =>
    cases htarget : target? a folder x with
    | none => exact hnone fun _ => htarget
    | some target =>
      have hmailbox : a.mailboxFor folder = some target := mailboxFor_of_target? htarget
      rw [moveThreadToFolder_of_some htarget, emails_setThread]
      refine List.map_congr_left fun m hm => ?_
      -- With a target, the messages that are updated are those the move takes effect on.
      have hiff : m ∈ updated a threadId x ↔ Moves true a threadId folder x m := by
        rw [mem_updated, Moves, htarget]
        simp [hm]
      have hinto : moveInto a folder m = m.moveTo target := by
        unfold moveInto
        rw [hmailbox]
      rw [hinto]
      exact if_congr hiff rfl rfl

/-- **When a move keeps to the law**: all that it takes effect on and that was not received
is in the target alone. -/
theorem framed_moveThreadToFolder_iff :
    Framed a (moveThreadToFolder configured a threadId folder x).1 ↔
      ∀ m ∈ a.emails, Moves configured a threadId folder x m → m.direction ≠ .received →
        AloneIn a folder m := by
  unfold Framed
  rw [emails_moveThreadToFolder, List.forall₂_map_right_iff, List.forall₂_same]
  refine forall_congr' fun m => forall_congr' fun _ => ?_
  by_cases hmoves : Moves configured a threadId folder x m
  · rw [if_pos hmoves, mailboxIds_moveInto_iff hmoves.target]
    tauto
  · rw [if_neg hmoves]
    tauto

/-- The folders of a thread whose messages are rewritten in place. -/
theorem sameFolders_map_iff {f : Email → Email} (hf : ∀ m, (f m).threadId = m.threadId)
    (h : a'.emails = a.emails.map f) :
    SameFolders threadId a a' ↔
      ∀ m ∈ a.threadEmails threadId, (f m).mailboxIds = m.mailboxIds := by
  have hthread : a'.threadEmails threadId = (a.threadEmails threadId).map f := by
    unfold Account.threadEmails
    rw [h, List.filter_map]
    congr 1
    refine List.filter_congr fun m _ => ?_
    simp [hf]
  unfold SameFolders
  rw [hthread, List.map_map, List.map_inj_left]
  rfl

/-- **There and back.** A thread whose messages are moved to the Archive and then some of
them to the Inbox is as it was exactly when they have not really moved. -/
theorem sameFolders_iff {a₁ a₂ : Account} {back : Email → Prop} [DecidablePred back]
    (hmailboxes : a₁.mailboxes = a.mailboxes)
    (hout : a₁.emails = a.emails.map fun m =>
      if Moves configured a threadId .archive x m then moveInto a .archive m else m)
    (hback : a₂.emails = a₁.emails.map fun m => if back m then moveInto a₁ .inbox m else m)
    (hcongr : ∀ m m' : Email, m'.id = m.id → m'.threadId = m.threadId → (back m' ↔ back m))
    (htarget : ∀ m, back m → ∃ target, a.mailboxFor .inbox = some target) :
    SameFolders threadId a a₂ ↔
      InboxAlone threadId a (Moves configured a threadId .archive x) back := by
  rw [hout, List.map_map, moveInto_congr hmailboxes] at hback
  -- A move keeps the id and the thread of a message.
  have hinto : ∀ m, ((if Moves configured a threadId .archive x m then moveInto a .archive m
      else m).id = m.id) ∧ ((if Moves configured a threadId .archive x m then
        moveInto a .archive m else m).threadId = m.threadId) := by
    intro m
    split <;> simp
  rw [sameFolders_map_iff (fun m => ?_) hback]
  · refine forall_congr' fun m => forall_congr' fun _ => ?_
    simp only [Function.comp, hcongr _ _ (hinto m).1 (hinto m).2]
    by_cases hm : back m
    · -- The message comes back, whether or not it was put away.
      have hids : (moveInto a .inbox (if Moves configured a threadId .archive x m then
          moveInto a .archive m else m)).mailboxIds = (moveInto a .inbox m).mailboxIds := by
        obtain ⟨target, htarget⟩ := htarget m hm
        unfold moveInto
        rw [htarget]
        rfl
      rw [if_pos hm, hids, mailboxIds_moveInto_iff (htarget m hm)]
      simp [hm]
    · -- A message that does not come back was not put away, or was in the Archive alone.
      rw [if_neg hm]
      by_cases hmoves : Moves configured a threadId .archive x m
      · rw [if_pos hmoves, mailboxIds_moveInto_iff hmoves.target]
        simp [hm, hmoves]
      · simp [hm, hmoves]
  · simp only [Function.comp, apply_ite Email.threadId, threadId_moveInto, ite_self]

end Move

/-! ### What the calls do -/

section Calls

variable {settings : Settings} {configured : Bool} {ucUid : Option String} {address : Text}
  {fates : String → WakeFate} {engine : Text → Account} {desk desk' : Desk}

theorem moveThread_self {threadId : String} {folder : MailFolder} {x : Exchange} :
    (moveThread configured engine address threadId folder x).1 address =
      (moveThreadToFolder configured (engine address) threadId folder x).1 := by
  unfold moveThread
  exact Function.update_self _ _ _

theorem moveThread_of_ne {address' : Text} {threadId : String} {folder : MailFolder} {x : Exchange}
    (h : address ≠ address') :
    (moveThread configured engine address' threadId folder x).1 address = engine address := by
  unfold moveThread
  exact Function.update_of_ne h _ _

/-- The accounts after one round of a sweep: the answer and the row's write do not matter. -/
theorem engine_wake (row : SnoozedThread) :
    (wake settings configured fates desk row).1.engine =
      match if (fates row.id).lookedUp then snoozeMailbox settings row else none with
      | none => desk.engine
      | some mailbox => (moveThread configured desk.engine mailbox.emailAddress row.threadId .inbox
          (fates row.id).exchange).1 := by
  unfold wake
  dsimp only
  cases if (fates row.id).lookedUp then snoozeMailbox settings row else none with
  | none => rfl
  | some mailbox =>
    dsimp only
    split <;> rfl

/-- One round of a sweep moves the thread of the row, in the account of its mailbox. -/
theorem emails_wake (row : SnoozedThread) :
    ((wake settings configured fates desk row).1.engine address).mailboxes =
        (desk.engine address).mailboxes ∧
      ((wake settings configured fates desk row).1.engine address).emails =
        (desk.engine address).emails.map fun m =>
          if Wakes settings configured fates address (desk.engine address) row m then
            moveInto (desk.engine address) .inbox m else m := by
  -- A round that does not come to the account leaves it as it is.
  have hsame : (∀ m, ¬Wakes settings configured fates address (desk.engine address) row m) →
      (desk.engine address).emails = (desk.engine address).emails.map fun m =>
        if Wakes settings configured fates address (desk.engine address) row m then
          moveInto (desk.engine address) .inbox m else m := by
    intro hnone
    conv_lhs => rw [← List.map_id (desk.engine address).emails]
    refine List.map_congr_left fun m _ => ?_
    rw [if_neg (hnone m)]
    rfl
  rw [engine_wake]
  cases hlooked : (fates row.id).lookedUp with
  | false =>
    -- Without an answer, a mailbox or its address nothing is woken.
    refine ⟨rfl, hsame fun m hm => ?_⟩
    rw [hm.1.1] at hlooked
    cases hlooked
  | true =>
    rw [if_pos rfl]
    cases hfound : snoozeMailbox settings row with
    | none =>
      refine ⟨rfl, hsame fun m hm => ?_⟩
      obtain ⟨mailbox, hmailbox, -⟩ := hm.1.2
      rw [hfound] at hmailbox
      cases hmailbox
    | some mailbox =>
      simp only
      by_cases haddress : address = mailbox.emailAddress
      · subst haddress
        rw [moveThread_self]
        refine ⟨mailboxes_moveThreadToFolder, ?_⟩
        rw [emails_moveThreadToFolder]
        refine List.map_congr_left fun m _ => if_congr ?_ rfl rfl
        exact ⟨fun h => ⟨⟨hlooked, mailbox, hfound, rfl⟩, h⟩, And.right⟩
      · rw [moveThread_of_ne haddress]
        refine ⟨rfl, hsame fun m hm => ?_⟩
        obtain ⟨other, hother, hsame⟩ := hm.1.2
        obtain rfl : mailbox = other := Option.some.inj (hfound.symm.trans hother)
        exact haddress hsame.symm

theorem wakes_congr {a a' : Account} {row : SnoozedThread} {m m' : Email}
    (h : a'.mailboxes = a.mailboxes) (hid : m'.id = m.id) (hthread : m'.threadId = m.threadId) :
    Wakes settings configured fates address a' row m' ↔
      Wakes settings configured fates address a row m := by
  unfold Wakes
  rw [moves_congr h hid hthread]

/-- **What a sweep does**, message by message. The induction is on the rows it has read. -/
theorem engine_foldl_wake (rows : List SnoozedThread) (n : ℕ) :
    let done := rows.foldl
      (fun done row =>
        let woken := wake settings configured fates done.1 row
        (woken.1, if woken.2 then done.2 + 1 else done.2)) (desk, n)
    (done.1.engine address).emails = (desk.engine address).emails.map fun m =>
      if ∃ row ∈ rows, Wakes settings configured fates address (desk.engine address) row m then
        moveInto (desk.engine address) .inbox m else m := by
  induction rows generalizing desk n with
  | nil => simp
  | cons row rows ih =>
    obtain ⟨hmailboxes, hemails⟩ := @emails_wake settings configured address fates desk row
    simp only [List.foldl_cons]
    rw [ih, hemails, List.map_map, moveInto_congr hmailboxes]
    refine List.map_congr_left fun m _ => ?_
    simp only [Function.comp]
    by_cases hrow : Wakes settings configured fates address (desk.engine address) row m
    · -- A message that comes back twice comes back once.
      have hafter : (∃ r ∈ row :: rows,
          Wakes settings configured fates address (desk.engine address) r m) :=
        ⟨row, List.mem_cons_self, hrow⟩
      rw [if_pos hrow, if_pos hafter, moveInto_moveInto, ite_self]
    · rw [if_neg hrow]
      refine if_congr ?_ rfl rfl
      simp only [List.exists_mem_cons_iff, hrow, false_or]
      refine exists_congr fun r => and_congr_right fun _ => wakes_congr hmailboxes rfl rfl

/-- A call names its mailbox by id, so another caller is led to the same one. -/
theorem resolve_congr {workspaceId mailboxId : String} {ucUid' : Option String}
    {mailbox mailbox' : MailboxAccount}
    (h : resolveSovereignMailboxForCaller settings workspaceId ucUid mailboxId = some mailbox)
    (h' : resolveSovereignMailboxForCaller settings workspaceId ucUid' mailboxId = some mailbox') :
    mailbox' = mailbox := by
  -- Who asks does not matter for which mailbox is found.
  have hfind : ∀ {uid : Option String} {m : MailboxAccount},
      resolveSovereignMailboxForCaller settings workspaceId uid mailboxId = some m →
        (settings.mailboxes.find? fun m =>
          m.id = mailboxId && m.workspaceId = workspaceId && m.active) = some m := by
    intro uid m hm
    unfold resolveSovereignMailboxForCaller at hm
    split at hm
    · next hfound =>
      rw [hfound]
      split at hm
      · cases hm
      · split at hm
        · cases hm
        · exact hm
    · cases hm
  exact Option.some.inj ((hfind h').symm.trans (hfind h))

/-- What a thread that is snoozed leaves behind. -/
theorem snoozeThread_some {input : SnoozeThreadInput} {detail : List (Option Text)} {x : Exchange}
    {stored : Bool} {newId : String} {now : ℕ} {row : SnoozedThread}
    (h : snoozeThread settings configured ucUid input detail x stored newId now desk
      = (desk', some row)) :
    ∃ mailbox,
      resolveSovereignMailboxForCaller settings input.workspaceId ucUid input.mailboxId
        = some mailbox ∧
      desk'.engine = (moveThread configured desk.engine mailbox.emailAddress input.threadId .archive
        x).1 ∧
      row.key = input.key ∧ row ∈ desk'.table.rows := by
  unfold snoozeThread at h
  split at h
  · cases h
  · next snoozeUntil mailbox hgate =>
    -- The gate has looked the mailbox up.
    have hresolve : resolveSovereignMailboxForCaller settings input.workspaceId ucUid
        input.mailboxId = some mailbox := by
      unfold snoozeGate at hgate
      split at hgate
      · cases hgate
      · split at hgate
        · cases hgate
        · next hresolve =>
          split at hgate
          · obtain ⟨-, rfl⟩ := Prod.mk.inj (Option.some.inj hgate)
            exact hresolve
          · cases hgate
    dsimp only at h
    split at h
    · cases h
    · next table hcreate =>
      obtain ⟨rfl, hrow⟩ := Prod.mk.inj h
      obtain rfl := Option.some.inj hrow
      refine ⟨mailbox, hresolve, rfl, rfl, ?_⟩
      split at hcreate
      · rw [(SnoozedThreads.create_some hcreate).2]
        exact List.mem_append_right _ (List.mem_singleton_self _)
      · cases hcreate

/-- What a thread that is unsnoozed leaves behind. -/
theorem unsnooze_true {workspaceId id : String} {x : Exchange} {stored : Bool}
    (h : unsnooze settings configured ucUid workspaceId id x stored desk = (desk', true)) :
    ∃ row ∈ desk.table.rows, row.id = id ∧ row.workspaceId = workspaceId ∧ ∃ mailbox,
      resolveSovereignMailboxForCaller settings workspaceId ucUid row.mailboxId = some mailbox ∧
      desk'.engine =
        (moveThread configured desk.engine mailbox.emailAddress row.threadId .inbox x).1 := by
  unfold unsnooze at h
  split at h
  · cases h
  · next row hfound =>
    obtain ⟨hrow, hid, hworkspace, -⟩ := SnoozedThreads.findActive_some hfound
    refine ⟨row, hrow, hid, hworkspace, ?_⟩
    split at h
    · cases h
    · next mailbox hresolve =>
      dsimp only at h
      split at h
      · cases h
      · obtain ⟨rfl, -⟩ := Prod.mk.inj h
        exact ⟨mailbox, hresolve, rfl⟩

/-- A thread that is unsnoozed by its key is that of a row, unsnoozed by its id. -/
theorem unsnoozeThread_true {key : String × String × String} {x : Exchange} {stored : Bool}
    (h : unsnoozeThread settings configured ucUid key x stored desk = (desk', true)) :
    ∃ row ∈ desk.table.rows, row.key = key ∧
      unsnooze settings configured ucUid key.1 row.id x stored desk = (desk', true) := by
  unfold unsnoozeThread at h
  split at h
  · cases h
  · next row hfound =>
    obtain ⟨hrow, hkey, -⟩ := SnoozedThreads.findActiveThread_some hfound
    exact ⟨row, hrow, hkey, h⟩

end Calls

/-! ### When a thread comes back as it was -/

section RoundTrip

variable {settings : Settings} {configured : Bool} {ucUid : Option String}
  {input : SnoozeThreadInput} {detail : List (Option Text)} {x : Exchange} {stored : Bool}
  {newId : String} {now : ℕ} {desk desk' : Desk} {row : SnoozedThread} {mailbox : MailboxAccount}

/-- A thread that was snoozed comes back with whoever unsnoozes one of its rows. -/
theorem unsnooze_sameFolders_iff {ucUid' : Option String} {x' : Exchange} {stored' : Bool}
    {desk₂ : Desk} {row' : SnoozedThread}
    (hsnooze : snoozeThread settings configured ucUid input detail x stored newId now desk
      = (desk', some row))
    (hmailbox : resolveSovereignMailboxForCaller settings input.workspaceId ucUid input.mailboxId
      = some mailbox)
    (hrow : row' ∈ desk'.table.rows) (hkey : row'.key = input.key)
    (h : unsnooze settings configured ucUid' input.workspaceId row'.id x' stored' desk'
      = (desk₂, true)) :
    SameFolders input.threadId (desk.engine mailbox.emailAddress)
        (desk₂.engine mailbox.emailAddress) ↔
      InboxAlone input.threadId (desk.engine mailbox.emailAddress)
        (Moves configured (desk.engine mailbox.emailAddress) input.threadId .archive x)
        (Moves configured (desk.engine mailbox.emailAddress) input.threadId .inbox x') := by
  obtain ⟨_, hresolve, hengine, -, -⟩ := snoozeThread_some hsnooze
  obtain rfl := Option.some.inj (hmailbox.symm.trans hresolve)
  obtain ⟨found, hfound, hid, -, mailbox', hresolve', hengine'⟩ := unsnooze_true h
  obtain rfl : found = row' := SnoozedThreads.eq_of_id_eq hfound hrow hid
  -- The row leads back to the mailbox and the thread it was made for.
  simp only [SnoozedThread.key, SnoozeThreadInput.key, Prod.mk.injEq] at hkey
  obtain ⟨-, hmailboxId, hthreadId⟩ := hkey
  rw [hmailboxId] at hresolve'
  obtain rfl := resolve_congr hmailbox hresolve'
  rw [hthreadId] at hengine'
  have hmailboxes : (desk'.engine mailbox'.emailAddress).mailboxes
      = (desk.engine mailbox'.emailAddress).mailboxes := by
    rw [hengine, moveThread_self]
    exact mailboxes_moveThreadToFolder
  refine sameFolders_iff hmailboxes ?_ ?_ (fun m m' hid hthread => moves_congr rfl hid hthread)
    fun m hm => hm.target
  · rw [hengine, moveThread_self, emails_moveThreadToFolder]
  · rw [hengine', moveThread_self, emails_moveThreadToFolder]
    refine List.map_congr_left fun m _ => if_congr ?_ rfl rfl
    exact moves_congr hmailboxes rfl rfl

/-- A thread that was snoozed comes back with a sweep, by the rows that are due. -/
theorem surfaceDueSnoozes_sameFolders_iff {later take : ℕ} {fates : String → WakeFate}
    (hsnooze : snoozeThread settings configured ucUid input detail x stored newId now desk
      = (desk', some row))
    (hmailbox : resolveSovereignMailboxForCaller settings input.workspaceId ucUid input.mailboxId
      = some mailbox) :
    SameFolders input.threadId (desk.engine mailbox.emailAddress)
        ((surfaceDueSnoozes settings configured later take fates desk').1.engine
          mailbox.emailAddress) ↔
      InboxAlone input.threadId (desk.engine mailbox.emailAddress)
        (Moves configured (desk.engine mailbox.emailAddress) input.threadId .archive x)
        (fun m => ∃ r ∈ desk'.table.due later take, Wakes settings configured fates
          mailbox.emailAddress (desk.engine mailbox.emailAddress) r m) := by
  obtain ⟨_, hresolve, hengine, -, -⟩ := snoozeThread_some hsnooze
  obtain rfl := Option.some.inj (hmailbox.symm.trans hresolve)
  have hmailboxes : (desk'.engine mailbox.emailAddress).mailboxes
      = (desk.engine mailbox.emailAddress).mailboxes := by
    rw [hengine, moveThread_self]
    exact mailboxes_moveThreadToFolder
  refine sameFolders_iff hmailboxes ?_ ?_ ?_ ?_
  · rw [hengine, moveThread_self, emails_moveThreadToFolder]
  · unfold surfaceDueSnoozes
    rw [engine_foldl_wake]
    refine List.map_congr_left fun m _ => if_congr ?_ rfl rfl
    exact exists_congr fun r => and_congr_right fun _ => wakes_congr hmailboxes rfl rfl
  · intro m m' hid hthread
    exact exists_congr fun r => and_congr_right fun _ => wakes_congr rfl hid hthread
  · rintro m ⟨r, -, hwakes⟩
    exact hwakes.2.target

/-- **When a move keeps to the law, and a snooze leaves no trace.** A move of the client
changes the folders of received messages only if and only if the others that it takes effect
on are in the target alone. A thread that was snoozed and is unsnoozed, or surfaced by a
sweep, is as it was if and only if the messages that are brought back were in the Inbox
alone and those that are only put away in the Archive alone. -/
theorem snooze_frame_iff
    (hsnooze : snoozeThread settings configured ucUid input detail x stored newId now desk
      = (desk', some row))
    (hmailbox : resolveSovereignMailboxForCaller settings input.workspaceId ucUid input.mailboxId
      = some mailbox) :
    let address := mailbox.emailAddress
    let a := desk.engine address
    (∀ (a : Account) (configured : Bool) threadId folder x,
      Framed a (moveThreadToFolder configured a threadId folder x).1 ↔
        ∀ m ∈ a.emails, Moves configured a threadId folder x m → m.direction ≠ .received →
          AloneIn a folder m) ∧
    (∀ ucUid' x' stored' desk₂,
      (unsnooze settings configured ucUid' input.workspaceId row.id x' stored' desk'
          = (desk₂, true) ∨
        unsnoozeThread settings configured ucUid' input.key x' stored' desk' = (desk₂, true)) →
      (SameFolders input.threadId a (desk₂.engine address) ↔
        InboxAlone input.threadId a (Moves configured a input.threadId .archive x)
          (Moves configured a input.threadId .inbox x'))) ∧
    ∀ later take fates,
      SameFolders input.threadId a
          ((surfaceDueSnoozes settings configured later take fates desk').1.engine address) ↔
        InboxAlone input.threadId a (Moves configured a input.threadId .archive x)
          (fun m => ∃ r ∈ desk'.table.due later take,
            Wakes settings configured fates address a r m) := by
  refine ⟨fun _ _ _ _ _ => framed_moveThreadToFolder_iff, ?_,
    fun _ _ _ => surfaceDueSnoozes_sameFolders_iff hsnooze hmailbox⟩
  rintro ucUid' x' stored' desk₂ (h | h)
  · obtain ⟨_, -, -, hkey, hrow⟩ := snoozeThread_some hsnooze
    exact unsnooze_sameFolders_iff hsnooze hmailbox hrow hkey h
  · obtain ⟨row', hrow', hkey, hunsnooze⟩ := unsnoozeThread_true h
    exact unsnooze_sameFolders_iff hsnooze hmailbox hrow' hkey hunsnooze

end RoundTrip

/-! ### A thread that comes back from a snooze -/

section Examples

/-- Ada's answer to the message. -/
def answer : Email :=
  ⟨"e2", "t1", {"se"}, true, false, true, false, none, [], 2, none, false⟩

def afterSnooze (emails : List Email) : Desk × Option SnoozedThread :=
  snoozeThread adasSettings true (some "ada") adasSnooze [] .smooth true "s1" 0 (adasDesk emails)

/-- She brings it back. -/
def afterUnsnooze (emails : List Email) : Desk × Bool :=
  unsnooze adasSettings true (some "ada") "acme" "s1" .smooth true (afterSnooze emails).1

/-- A thread of one message in the Inbox comes back as it was. -/
theorem snooze_frame_iff_question :
    SameFolders "t1" ((adasDesk [question]).engine adasMailbox.emailAddress)
      ((afterUnsnooze [question]).1.engine adasMailbox.emailAddress) := by
  have hsnooze : afterSnooze [question] = ((afterSnooze [question]).1,
      some (snoozeRow (some "ada") adasSnooze 10 none "s1" 0)) := Prod.ext rfl (by decide)
  have hback : afterUnsnooze [question] = ((afterUnsnooze [question]).1, true) :=
    Prod.ext rfl (by decide)
  have hmailbox : resolveSovereignMailboxForCaller adasSettings "acme" (some "ada") "own"
      = some adasMailbox := by decide
  refine ((snooze_frame_iff hsnooze hmailbox).2.1 _ _ _ _ (.inl hback)).mpr fun m hm => ?_
  obtain rfl : m = question := List.mem_singleton.mp (mem_threadEmails.mp hm).1
  have halone : AloneIn ((adasDesk [question]).engine adasMailbox.emailAddress) .inbox question :=
    ⟨"in", by decide, rfl⟩
  exact ⟨fun _ => halone, fun hnot => absurd (by decide) hnot⟩

/-- **The answer comes back to the Inbox**: the move has taken it from Sent. -/
theorem sent_message_returns_to_inbox :
    (afterUnsnooze [question, answer]).2 = true ∧
      ¬Framed ((adasDesk [question, answer]).engine adasMailbox.emailAddress)
        ((afterSnooze [question, answer]).1.engine adasMailbox.emailAddress) ∧
      ((afterUnsnooze [question, answer]).1.engine adasMailbox.emailAddress).emails.map
        (·.mailboxIds) = [{"in"}, {"in"}] ∧
      ¬SameFolders "t1" ((adasDesk [question, answer]).engine adasMailbox.emailAddress)
        ((afterUnsnooze [question, answer]).1.engine adasMailbox.emailAddress) := by
  refine ⟨by decide, ?_, by decide, ?_⟩
  · unfold Framed
    decide
  · unfold SameFolders
    decide

end Examples

end Snooze
end EmailOps
