import EmailOps.Framework.Table
import EmailOps.Email.Compose

/-!
# Approving and rejecting a staged draft

A staged draft waits in the agent inbox for a human. Approving it reads the item
and its message and builds the send request (`approvePlan`), hands the request to
the engine outside any transaction, and records the outcome (`recordApproval`).
Rejecting it is one transaction (`rejectItem`).

* `parseStoredAttachments` reads the stored attachments back, and
  `parseStoredAttachments_stored` says what survives of those compose stored.
* `approveReq` is the request an approval sends.
-/

namespace EmailOps

/-! ### Stored attachments -/

/-- One entry of the stored attachments; anything but an object with a blob id is
skipped. Older rows spell the blob id in camel case. -/
def parseStoredAttachment (item : Json) : Option SendAttachment :=
  match item with
  | .obj fields =>
    let blobId := Json.orElse (Json.get fields "blobId".toList)
      (Json.orElse (Json.get fields "blob_id".toList) none)
    let blobText := (blobId.map Json.toText).getD []
    if blobText = [] then none
    else
      some
        { blobId := blobText
          name := ((Json.orElse (Json.get fields "name".toList) none).map Json.toText).getD []
          type := ((Json.orElse (Json.get fields "type".toList) none).map Json.toText).getD
            "application/octet-stream".toList }
  | _ => none

/-- The stored attachments in the send lane's shape; garbage is absent. -/
def parseStoredAttachments (raw : Option Json) : Option (List SendAttachment) :=
  match raw with
  | some (.arr items) => nonEmpty (items.filterMap parseStoredAttachment)
  | _ => none

theorem parseStoredAttachment_stored (a : ComposeAttachmentInput) :
    parseStoredAttachment (storedAttachment a) =
      if a.blob_id = [] then none else some ⟨a.blob_id, a.name, a.type⟩ := rfl

private theorem filterMap_stored (attachments : List ComposeAttachmentInput) :
    (attachments.map storedAttachment).filterMap parseStoredAttachment =
      (sendAttachments attachments).filter (·.blobId ≠ []) := by
  induction attachments with
  | nil => rfl
  | cons a rest ih =>
    rw [List.map_cons, List.filterMap_cons, parseStoredAttachment_stored, ih]
    by_cases hblob : a.blob_id = []
    · rw [if_pos hblob]
      simp [sendAttachments, hblob]
    · rw [if_neg hblob]
      simp [sendAttachments, hblob]

/-- **What survives storing.** The attachments compose stores are read back as it
would have sent them, without those that have no blob id. -/
theorem parseStoredAttachments_stored (attachments : List ComposeAttachmentInput) :
    parseStoredAttachments (storedAttachments attachments) =
      nonEmpty ((sendAttachments attachments).filter (·.blobId ≠ [])) := by
  unfold storedAttachments
  by_cases hnil : attachments = []
  · rw [if_pos hnil, hnil]
    rfl
  · rw [if_neg hnil]
    simp only [parseStoredAttachments, filterMap_stored]

/-! ### Phase 1 of an approval -/

/-- The request an approval sends, rebuilt from the row. -/
def approveReq (mailbox : Option MailboxAccount) (msg : EmailMessage) : SendReq where
  fromAddress := (msg.fromAddress.or (mailbox.map (·.emailAddress))).getD (msg.toAddress.getD [])
  fromName := mailbox.bind (·.displayName)
  toAddress := msg.toAddress.getD []
  toAddresses := nonEmpty msg.toAddresses
  subject := msg.subject.getD []
  body := msg.body.getD []
  bodyHtml := msg.bodyHtml
  inReplyToThreadId := msg.inReplyToThreadId
  transactional := (mailbox.map (·.postmarkLane)).getD true
  cc := nonEmpty msg.ccAddresses
  bcc := nonEmpty msg.bccAddresses
  attachments := parseStoredAttachments msg.attachments
  inReplyTo := none
  references := none
  headers := if msg.externalSource = some agentReplyRuntimeSource then [agentAutoreplyHeader] else []

/-- What phase 1 of an approval hands forward. -/
inductive ApprovePrep where
  /-- No such item, or an item without a message. -/
  | null
  /-- The item is not pending: it is the answer as it is. -/
  | result (item : AgentInboxItem) (message : Option EmailMessage)
  /-- A cleanup item, executed by the cleanup service. -/
  | cleanup (item : AgentInboxItem)
  | send (itemId : String) (draftedBy : Option String) (plan : SendPlan)

/-- The item with an id in a workspace. -/
def findItem (db : Db) (workspaceId itemId : String) : Option AgentInboxItem :=
  db.inbox.find? fun i => i.id = itemId && i.workspaceId = workspaceId

/-- The message of an item. -/
def itemMessage (db : Db) (item : AgentInboxItem) : Option EmailMessage :=
  item.messageId.bind fun id => db.messages.find? fun m => m.id = id

/-- The mailbox a staged message is sent through. -/
def approveMailbox (settings : Settings) (workspaceId : String) (msg : EmailMessage) :
    Option MailboxAccount :=
  match msg.mailboxAccountId with
  | none | some "" => defaultMailbox settings workspaceId
  | some id => findMailbox settings workspaceId id

/-- The reads and checks of phase 1. -/
def approvePlan (db : Db) (workspaceId : String) (ucUid : Option String) (itemId : String) :
    Except HttpError ApprovePrep :=
  match findItem db workspaceId itemId with
  | none => .ok .null
  | some item =>
    let message := itemMessage db item
    if item.state ≠ .pending then
      .ok (.result item (if item.kind = .email then message else none))
    else if item.kind = .cleanup then .ok (.cleanup item)
    else
      match message with
      | none => .ok .null
      | some msg =>
        let mailbox := approveMailbox db.settings workspaceId msg
        if mailbox.any fun m => !mayActThroughMailbox db.settings.users m ucUid then
          .error (.forbidden "Only the owner of that mailbox can approve a send from it.")
        else
          .ok (.send itemId item.draftedBy
            { messageId := msg.id
              mailbox := mailbox
              agentKey := none
              req := approveReq mailbox msg })

/-- **What a plan to send means.** The item is pending, and the request is rebuilt
from its message. -/
theorem approvePlan_send {db : Db} {workspaceId itemId itemId' : String} {ucUid : Option String}
    {draftedBy : Option String} {plan : SendPlan}
    (h : approvePlan db workspaceId ucUid itemId = .ok (.send itemId' draftedBy plan)) :
    itemId' = itemId ∧ ∃ item msg, findItem db workspaceId itemId = some item ∧
      item.state = .pending ∧ itemMessage db item = some msg ∧ plan.messageId = msg.id ∧
      plan.mailbox = approveMailbox db.settings workspaceId msg ∧
      plan.req = approveReq (approveMailbox db.settings workspaceId msg) msg := by
  unfold approvePlan at h
  split at h
  · cases h
  · rename_i item hitem
    simp only at h
    split at h
    · cases h
    · -- The item is pending.
      rename_i hstate
      split at h
      · cases h
      · split at h
        · cases h
        · -- Its message is there, and its mailbox is one the caller may send from.
          rename_i msg hmsg
          split at h
          · cases h
          · cases h
            exact ⟨rfl, item, msg, hitem, not_not.mp hstate, hmsg, rfl, rfl, rfl⟩

/-! ### Phase 3, and rejecting -/

/-- Set the state of an item. -/
def setItemState (inbox : List AgentInboxItem) (itemId : String) (state : AgentInboxState) :
    List AgentInboxItem :=
  inbox.map fun i => if i.id = itemId then { i with state := state } else i

/-- Record an approval's outcome: the message tells what the engine said, and an
accepted send approves the item, whatever state it is in by now. -/
def recordApproval (db : Db) (itemId messageId : String) (result : EngineSendResult) : Db :=
  { db with
    messages := stampSendResult db.messages messageId result
    inbox := if result.accepted then setItemState db.inbox itemId .approved else db.inbox }

/-- The error of an approval whose send was not accepted. -/
def notAccepted (result : EngineSendResult) : HttpError :=
  .badRequest (result.reason.getD
    "The message could not be sent — nothing was approved. Try again or reject.")

/-- The outcome of a rejection. -/
inductive RejectOutcome where
  /-- No such item, or an item without a message. -/
  | null
  /-- The item is not pending and stays as it is. -/
  | unchanged (item : AgentInboxItem)
  | rejected (db : Db)

/-- Reject an item, in one transaction. -/
def rejectItem (db : Db) (workspaceId itemId : String) : RejectOutcome :=
  match findItem db workspaceId itemId with
  | none => .null
  | some item =>
    if item.state ≠ .pending then .unchanged item
    else if item.kind = .cleanup then
      .rejected { db with inbox := setItemState db.inbox itemId .rejected }
    else
      match itemMessage db item with
      | none => .null
      | some msg =>
        .rejected
          { db with
            messages := db.messages.map fun m =>
              if m.id = msg.id then { m with status := .rejected } else m
            inbox := setItemState db.inbox itemId .rejected }

theorem mem_of_findItem {db : Db} {workspaceId itemId : String} {item : AgentInboxItem}
    (h : findItem db workspaceId itemId = some item) : item ∈ db.inbox ∧ item.id = itemId := by
  have hfound := List.find?_some h
  rw [Bool.and_eq_true] at hfound
  exact ⟨List.mem_of_find?_eq_some h, of_decide_eq_true hfound.1⟩

/-- A rejection that takes effect found the item pending and leaves it rejected. -/
theorem rejectItem_rejected {db db' : Db} {workspaceId itemId : String}
    (h : rejectItem db workspaceId itemId = .rejected db') :
    (∃ item ∈ db.inbox, item.id = itemId ∧ item.state = .pending) ∧
      db'.inbox = setItemState db.inbox itemId .rejected := by
  unfold rejectItem at h
  split at h
  · cases h
  · rename_i item hitem
    obtain ⟨hmem, hid⟩ := mem_of_findItem hitem
    split at h
    · cases h
    · rename_i hstate
      refine ⟨⟨item, hmem, hid, not_not.mp hstate⟩, ?_⟩
      -- With a message the draft is marked as well, and the inbox is the same.
      split at h
      · cases h
        rfl
      · split at h
        · cases h
        · cases h
          rfl

theorem mem_setItemState {inbox : List AgentInboxItem} {itemId : String} {state : AgentInboxState}
    {i : AgentInboxItem} (h : i ∈ setItemState inbox itemId state) :
    ∃ i₀ ∈ inbox, i.id = i₀.id ∧
      ((i₀.id = itemId ∧ i.state = state) ∨ (i₀.id ≠ itemId ∧ i.state = i₀.state)) := by
  obtain ⟨i₀, hi₀, hid, rfl⟩ | ⟨hi, hid⟩ := Framework.Table.mem_update.mp h
  · exact ⟨i₀, hi₀, rfl, .inl ⟨hid, rfl⟩⟩
  · exact ⟨i, hi, rfl, .inr ⟨hid, rfl⟩⟩

theorem exists_id_setItemState (inbox : List AgentInboxItem) (itemId : String)
    (state : AgentInboxState) (id : String) :
    (∃ i ∈ setItemState inbox itemId state, i.id = id) ↔ ∃ i ∈ inbox, i.id = id := by
  have hids : (setItemState inbox itemId state).map (·.id) = inbox.map (·.id) :=
    Framework.Table.keys_update fun _ => rfl
  rw [← List.mem_map, hids, List.mem_map]

end EmailOps
