import Mathlib.Data.List.Nodup
import Mathlib.Data.List.Sort
import EmailOps.Email.Compose
import EmailOps.Framework.Table

/-!
# Scheduled sends

The rows of the scheduler and the statements on them: scheduling, cancelling,
claiming a due row and marking it. Times are milliseconds.

* `ScheduledSend` is the row; `normalizePayload` reads its JSON payload back and
  `composeInput` turns it into the compose request the sweep makes.
* `updateMany` is the conditional update, with its count; `claim`,
  `markScheduledSend` and `cancelUpdate` are its three uses.
* `key_injective`: two rows share an idempotency key only if they share an id.
-/

namespace EmailOps

open Framework.Text

/-! ### Rows -/

inductive ScheduledSendState where
  | pending | claimed | sent | failed | cancelled
  deriving DecidableEq, Repr

structure ScheduledSend where
  id : String
  workspaceId : String
  mailboxId : String
  payload : Json
  sendAt : ℕ
  state : ScheduledSendState
  createdBy : Option String
  claimedAt : Option ℕ
  sentAt : Option ℕ

/-- A stored payload, parsed. -/
structure ScheduledSendPayload where
  toAddress : Text
  toAddresses : List Text
  subject : Text
  body : Text
  bodyHtml : Option Text
  cc : List Text
  bcc : List Text
  attachments : List ComposeAttachmentInput
  inReplyToThreadId : Option String
  inReplyToMessageId : Option String
  references : List Text
  draftId : Option String

/-! ### Payloads -/

/-- `typeof v === 'string' ? v : null`. -/
def Json.asString (v : Option Json) : Option Text :=
  match v with
  | some (.str s) => some s
  | _ => none

/-- The non-blank strings of an array; anything else is absent. -/
def stringArray (raw : Option Json) : List Text :=
  match raw with
  | some (.arr items) =>
    (items.filterMap fun v => Json.asString (some v)).filter fun s => trim s ≠ []
  | _ => []

/-- A string property that is not blank, or else a default. -/
def stringOr (fields : List (Text × Json)) (key : String) (fallback : String) : Text :=
  match Json.asString (Json.get fields key.toList) with
  | some s => if trim s = [] then fallback.toList else s
  | none => fallback.toList

/-- The attachments of a payload; entries without a blob id are dropped. -/
def payloadAttachments (raw : Option Json) : List ComposeAttachmentInput :=
  match raw with
  | some (.arr items) =>
    (items.filterMap fun
      | .obj fields =>
        some { blob_id := (Json.asString (Json.get fields "blob_id".toList)).getD []
               name := stringOr fields "name" "attachment"
               type := stringOr fields "type" "application/octet-stream" }
      | _ => none).filter (·.blob_id ≠ [])
  | _ => []

/-- Read a stored payload; one without a recipient is invalid. -/
def normalizePayload (raw : Json) : Option ScheduledSendPayload :=
  match raw with
  | .obj fields =>
    let str (key : String) := Json.asString (Json.get fields key.toList)
    let toAddress := trim ((str "toAddress").getD [])
    if toAddress = [] then none
    else
      some
        { toAddress := toAddress
          toAddresses := stringArray (Json.get fields "toAddresses".toList)
          subject := (str "subject").getD []
          body := (str "body").getD []
          bodyHtml := str "bodyHtml"
          cc := stringArray (Json.get fields "cc".toList)
          bcc := stringArray (Json.get fields "bcc".toList)
          attachments := payloadAttachments (Json.get fields "attachments".toList)
          inReplyToThreadId := (str "inReplyToThreadId").map String.ofList
          inReplyToMessageId := (str "inReplyToMessageId").map String.ofList
          references := stringArray (Json.get fields "references".toList)
          draftId := (str "draftId").map String.ofList }
  | _ => none

/-! ### The compose request of a row -/

def schedulerSource : String := "email-ops-client"

/-- The external reference of a row's message. -/
def scheduledRef (id : String) : String := "scheduled-send:" ++ id

/-- The idempotency key of a row's message. -/
def ScheduledSend.key (row : ScheduledSend) : Triple :=
  (row.workspaceId, schedulerSource, scheduledRef row.id)

/-- The compose request of a row. -/
def composeInput (row : ScheduledSend) (payload : ScheduledSendPayload) : ComposeInput where
  toAddress := payload.toAddress
  toAddresses := payload.toAddresses
  subject := payload.subject
  body := payload.body
  bodyHtml := payload.bodyHtml
  mode := .send
  inReplyToThreadId := payload.inReplyToThreadId
  externalSource := schedulerSource
  externalRef := scheduledRef row.id
  draftedBy := none
  fromMailboxAccountId := some row.mailboxId
  cc := payload.cc
  bcc := payload.bcc
  attachments := payload.attachments
  inReplyToMessageId := payload.inReplyToMessageId
  references := payload.references
  draftId := payload.draftId

@[simp] theorem composeInput_triple (row : ScheduledSend) (payload : ScheduledSendPayload) :
    (composeInput row payload).triple row.workspaceId = row.key := rfl

theorem key_injective {row row' : ScheduledSend} (h : row.key = row'.key) : row.id = row'.id := by
  simp only [ScheduledSend.key, scheduledRef, Prod.mk.injEq, true_and] at h
  have hlist := congrArg String.toList h.2
  rw [String.toList_append, String.toList_append] at hlist
  exact String.toList_inj.mp (List.append_cancel_left hlist)

/-! ### Scheduling -/

/-- The mailbox a caller may schedule from: active, the caller's to act through,
and not an external provider's. -/
def resolveSovereignMailboxForCaller (settings : Settings) (workspaceId : String)
    (ucUid : Option String) (mailboxId : String) : Option MailboxAccount :=
  match settings.mailboxes.find? fun m =>
      m.id = mailboxId && m.workspaceId = workspaceId && m.active with
  | some mailbox =>
    if !mayActThroughMailbox settings.users mailbox ucUid then none
    else if mailbox.provider = "gmail" || mailbox.provider = "microsoft" then none
    else some mailbox
  | none => none

/-- The properties of an object that are not `undefined`, as they are stored. -/
def definedFields (fields : List (String × Option Json)) : List (Text × Json) :=
  fields.filterMap fun field => field.2.map fun v => (field.1.toList, v)

/-- A list of a payload; an empty one is `undefined`. -/
def arrayField (items : List Json) : Option Json :=
  if items.isEmpty then none else some (.arr items)

/-- A nullable text of a payload. -/
def textField (s : Option Text) : Option Json :=
  some ((s.map Json.str).getD .null)

/-- An attachment of a payload, as it is stored. -/
def attachmentJson (a : ComposeAttachmentInput) : Json :=
  .obj [("blob_id".toList, .str a.blob_id), ("name".toList, .str a.name),
    ("type".toList, .str a.type)]

/-- The properties of a payload. -/
def ScheduledSendPayload.fields (p : ScheduledSendPayload) : List (String × Option Json) :=
  [("toAddress", some (.str p.toAddress)),
    ("toAddresses", arrayField (p.toAddresses.map .str)),
    ("subject", some (.str p.subject)),
    ("body", some (.str p.body)),
    ("bodyHtml", textField p.bodyHtml),
    ("cc", arrayField (p.cc.map .str)),
    ("bcc", arrayField (p.bcc.map .str)),
    ("attachments", arrayField (p.attachments.map attachmentJson)),
    ("inReplyToThreadId", textField (p.inReplyToThreadId.map String.toList)),
    ("inReplyToMessageId", textField (p.inReplyToMessageId.map String.toList)),
    ("references", arrayField (p.references.map .str)),
    ("draftId", textField (p.draftId.map String.toList))]

/-- The payload as it is stored. -/
def ScheduledSendPayload.toJson (p : ScheduledSendPayload) : Json :=
  .obj (definedFields p.fields)

/-- Schedule a send: the row to create, or `none` when the mailbox is not the
caller's, the engine is not configured or the payload is invalid. -/
def scheduleSend (settings : Settings) (configured : Bool) (ucUid : Option String)
    (workspaceId mailboxId : String) (payload : Json) (sendAt : ℕ) (newId : String) :
    Option ScheduledSend :=
  match resolveSovereignMailboxForCaller settings workspaceId ucUid mailboxId with
  | none => none
  | some _ =>
    if !configured then none
    else
      (normalizePayload payload).map fun p =>
        { id := newId
          workspaceId := workspaceId
          mailboxId := mailboxId
          payload := p.toJson
          sendAt := sendAt
          state := .pending
          createdBy := ucUid
          claimedAt := none
          sentAt := none }

/-- A new row is pending, under its own id and workspace. -/
theorem scheduleSend_some {settings : Settings} {configured : Bool} {ucUid : Option String}
    {workspaceId mailboxId : String} {payload : Json} {sendAt : ℕ} {newId : String}
    {row : ScheduledSend}
    (h : scheduleSend settings configured ucUid workspaceId mailboxId payload sendAt newId
      = some row) :
    row.id = newId ∧ row.workspaceId = workspaceId ∧ row.state = .pending := by
  unfold scheduleSend at h
  split at h
  · cases h
  · split at h
    · cases h
    · obtain ⟨p, -, rfl⟩ := Option.map_eq_some_iff.mp h
      exact ⟨rfl, rfl, rfl⟩

/-! ### Statements on the rows -/

/-- `updateMany`: change the rows that match. -/
def updateMany (rows : List ScheduledSend) (p : ScheduledSend → Bool)
    (f : ScheduledSend → ScheduledSend) : List ScheduledSend :=
  rows.map fun r => if p r then f r else r

/-- A claim older than this is abandoned. -/
def claimTtlMs : ℕ := 5 * 60 * 1000

/-- Is the row due at `now`: pending and its time come, or claimed by a claim
that is stale? -/
def isDue (now : ℕ) (row : ScheduledSend) : Bool :=
  (row.state = .pending && row.sendAt ≤ now) ||
    (row.state = .claimed && row.claimedAt.any fun t => t + claimTtlMs ≤ now)

/-- The rows a sweep reads: those due, earliest first, at most `take`. -/
def dueRows (rows : List ScheduledSend) (now take : ℕ) : List ScheduledSend :=
  ((rows.filter (isDue now)).insertionSort fun r r' => r.sendAt ≤ r'.sendAt).take take

/-- The guard of a claim: the state and the claim time the sweep read. -/
def claimGuard (snapshot r : ScheduledSend) : Bool :=
  r.id = snapshot.id &&
    (if snapshot.state = .claimed then r.state = .claimed && r.claimedAt = snapshot.claimedAt
      else r.state = .pending)

/-- Claim a row, or retake a stale claim. -/
def claim (rows : List ScheduledSend) (snapshot : ScheduledSend) (now : ℕ) : List ScheduledSend :=
  updateMany rows (claimGuard snapshot) fun r => { r with state := .claimed, claimedAt := some now }

/-- The guard of a mark: the row is still claimed. -/
def markGuard (id : String) (r : ScheduledSend) : Bool :=
  r.id = id && r.state = .claimed

/-- Move a claimed row to a final state. -/
def markScheduledSend (rows : List ScheduledSend) (id : String) (state : ScheduledSendState)
    (sentAt : Option ℕ) : List ScheduledSend :=
  updateMany rows (markGuard id) fun r => { r with state := state, sentAt := sentAt }

/-- The guard of a cancel: the row is still pending. -/
def cancelGuard (workspaceId id : String) (r : ScheduledSend) : Bool :=
  r.id = id && r.workspaceId = workspaceId && r.state = .pending

/-- Cancel a pending row. -/
def cancelUpdate (rows : List ScheduledSend) (workspaceId id : String) : List ScheduledSend :=
  updateMany rows (cancelGuard workspaceId id) fun r => { r with state := .cancelled }

theorem mem_of_mem_dueRows {rows : List ScheduledSend} {now take : ℕ} {r : ScheduledSend}
    (h : r ∈ dueRows rows now take) : r ∈ rows ∧ isDue now r = true := by
  have hsorted := List.mem_of_mem_take h
  rw [List.mem_insertionSort] at hsorted
  exact List.mem_filter.mp hsorted

section UpdateMany

variable {rows : List ScheduledSend} {p : ScheduledSend → Bool}
  {f : ScheduledSend → ScheduledSend}

theorem mem_updateMany {r : ScheduledSend} :
    r ∈ updateMany rows p f ↔
      (∃ r₀ ∈ rows, p r₀ = true ∧ r = f r₀) ∨ (r ∈ rows ∧ p r = false) := by
  rw [← Bool.not_eq_true]
  exact Framework.Table.mem_update

theorem updateMany_ids (hf : ∀ r, (f r).id = r.id) :
    (updateMany rows p f).map (·.id) = rows.map (·.id) :=
  Framework.Table.keys_update hf

end UpdateMany

theorem eq_of_id_eq {rows : List ScheduledSend} (h : (rows.map (·.id)).Nodup)
    {r r' : ScheduledSend} (hr : r ∈ rows) (hr' : r' ∈ rows) (hid : r.id = r'.id) : r = r' :=
  List.inj_on_of_nodup_map h hr hr' hid

end EmailOps
