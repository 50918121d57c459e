import EmailOps.Email.Reading
import EmailOps.Framework.Table

/-!
# Text messages

The rows of text messages and of their items in the approval queue, and what `composeSms`
decides in its transaction: the gates are those of e-mail.

* `SmsMessages` and `SmsItems` are the tables, each with its two unique columns.
* `composePlan` are the reads and decisions of `composeSms`. A `Staged` row comes with the
  item that is about it.
* `Db.stage`, `Db.record`, `Db.confirm` and `Db.reject` are what the transactions commit.
-/

namespace EmailOps
namespace Sms

open Framework Framework.Text Framework.Table

/-! ### Rows -/

structure SmsAccount where
  id : String
  workspaceId : String
  phoneNumber : Text
  isDefault : Bool
  active : Bool
  createdAt : ℕ

inductive SmsDeliveryStatus where
  | queued | sent | delivered | pendingApproval | rejected | failed
  deriving DecidableEq, Repr

/-- The row of a message that was composed. -/
structure SmsMessage where
  id : String
  workspaceId : String
  smsAccountId : Option String
  contactId : Option String
  threadId : Option String
  externalSource : String
  externalRef : String
  mode : EmailMode
  status : SmsDeliveryStatus
  direction : EmailDirection
  fromPhoneNumber : Option Text
  toPhoneNumber : Text
  body : Text
  preview : Option Text
  providerMessageId : Option String
  actorUcUid : Option String

/-- The idempotency key of a message. -/
def SmsMessage.key (m : SmsMessage) : Triple :=
  (m.workspaceId, m.externalSource, m.externalRef)

/-- An item of the approval queue that is about a text message. -/
structure SmsInboxItem where
  id : String
  workspaceId : String
  smsMessageId : String
  state : AgentInboxState
  draftedBy : Option String
  summary : Text

/-- The messages, unique by id and by idempotency key. -/
abbrev SmsMessages := Table.Unique SmsMessage.id SmsMessage.key

/-- The items, unique by id and by message. -/
abbrev SmsItems := Table.Unique SmsInboxItem.id SmsInboxItem.smsMessageId

structure Db where
  settings : Settings
  accounts : List SmsAccount
  messages : SmsMessages
  inbox : SmsItems

/-! ### Composing -/

structure ComposeSmsInput where
  contactId : Option String
  toPhoneNumber : Text
  body : Text
  mode : Option EmailMode
  externalSource : String
  externalRef : String
  draftedBy : Option String
  fromSmsAccountId : Option String
  inReplyToThreadId : Option String

def ComposeSmsInput.agentKey (input : ComposeSmsInput) : String :=
  input.draftedBy.getD input.externalSource

/-- The accounts of a workspace in the order they are asked for: the default first, then the
oldest. -/
def accountBefore (a b : SmsAccount) : Bool :=
  (a.isDefault && !b.isDefault) || (a.isDefault = b.isDefault && a.createdAt ≤ b.createdAt)

/-- `resolveSendAccount`. -/
def resolveSendAccount (accounts : List SmsAccount) (workspaceId : String)
    (explicitId : Option String) : Option SmsAccount :=
  let mine := accounts.filter fun a => a.workspaceId = workspaceId && a.active
  let explicit := if truthy explicitId then mine.find? (some ·.id = explicitId) else none
  explicit.or (mine.mergeSort accountBefore).head?

/-- The line of the queue about a message. -/
def summary (body receiver : Text) : Text :=
  let s := (snippet (some body)).getD "(empty)".toList
  if receiver = [] then "SMS: ".toList ++ s else "SMS → ".toList ++ receiver ++ ": ".toList ++ s

/-- A message that waits for approval, and the item about it. -/
structure Staged where
  msg : SmsMessage
  item : SmsInboxItem
  about : item.smsMessageId = msg.id
  pending : item.state = .pending
  unsent : msg.status = .pendingApproval

/-- What `composeSms` does after its reads. -/
inductive ComposePlan where
  /-- There is a message under the key. -/
  | done (existing : SmsMessage)
  | stage (staged : Staged)
  | send (msg : SmsMessage)

/-- The ids of the rows that a call creates. -/
structure NewIds where
  messageId : String
  itemId : String

section Compose

variable [CaseMapping]

/-- The reads and decisions of `composeSms`. -/
def composePlan (trustedComposeSources : List String) (db : Db) (workspaceId : String)
    (ucUid : Option String) (input : ComposeSmsInput) (ids : NewIds) :
    Except HttpError ComposePlan :=
  let key : Triple := (workspaceId, input.externalSource, input.externalRef)
  match db.messages.rows.find? (·.key = key) with
  | some existing => .ok (.done existing)
  | none =>
    if db.settings.workspaces.any fun w => w.id = workspaceId && w.agentsPaused then
      .error (.forbidden "Agents are paused for this workspace.")
    else
      let agent :=
        if input.agentKey = "" then none
        else
          db.settings.agents.find? fun a =>
            a.workspaceId = workspaceId && a.key = input.agentKey && a.active
      if agent.any (·.paused) then
        .error (.forbidden ("Agent '" ++ input.agentKey ++ "' is paused."))
      else
        let account := resolveSendAccount db.accounts workspaceId input.fromSmsAccountId
        let trustedUnregisteredSend :=
          agent.isNone && trustedComposeSources.contains input.agentKey
        let decision := decideComposeMode (if input.mode = some .draft then .draft else .send) agent
          input.toPhoneNumber trustedUnregisteredSend
        let msg : SmsMessage :=
          { id := ids.messageId
            workspaceId := workspaceId
            smsAccountId := account.map (·.id)
            contactId := input.contactId
            threadId := input.inReplyToThreadId
            externalSource := input.externalSource
            externalRef := input.externalRef
            mode := decision.mode
            status := if decision.mode = .draft then .pendingApproval else .queued
            direction := if decision.mode = .draft then .draft else .sent
            fromPhoneNumber := account.map (·.phoneNumber)
            toPhoneNumber := input.toPhoneNumber
            body := input.body
            preview := snippet (some input.body)
            providerMessageId := none
            actorUcUid := ucUid }
        if h : decision.mode = .draft then
          .ok (.stage
            { msg := msg
              item :=
                { id := ids.itemId
                  workspaceId := workspaceId
                  smsMessageId := ids.messageId
                  state := .pending
                  draftedBy := some input.agentKey
                  summary := summary input.body input.toPhoneNumber }
              about := rfl
              pending := rfl
              unsent := if_pos h })
        else .ok (.send msg)

end Compose

/-! ### The provider -/

structure TwilioSendRequest where
  fromPhoneNumber : Text
  toPhoneNumber : Text
  body : Text

structure TwilioSendResult where
  accepted : Bool
  providerMessageId : Option String

/-- What the provider is asked to send. -/
def SmsMessage.request (m : SmsMessage) : TwilioSendRequest where
  fromPhoneNumber := m.fromPhoneNumber.getD []
  toPhoneNumber := m.toPhoneNumber
  body := m.body

/-- What `handToTwilio` records on the message. -/
def recordSend (result : TwilioSendResult) (m : SmsMessage) : SmsMessage :=
  { m with
    status := if result.accepted then .sent else .failed
    providerMessageId := result.providerMessageId }

/-! ### The queue -/

/-- The item of an id, with its message. -/
def findItem (db : Db) (workspaceId itemId : String) : Option (SmsInboxItem × SmsMessage) :=
  (db.inbox.rows.find? fun i => i.id = itemId && i.workspaceId = workspaceId).bind fun item =>
    (db.messages.rows.find? (·.id = item.smsMessageId)).map fun msg => (item, msg)

/-- Set the state of an item. -/
def setState (inbox : SmsItems) (itemId : String) (state : AgentInboxState) : SmsItems :=
  inbox.update itemId (fun i => { i with state := state }) (fun _ => rfl) fun _ => rfl

/-! ### What is committed -/

/-- By a compose that stages its message. -/
def Db.stage (db : Db) (staged : Staged) : Db :=
  { db with messages := db.messages.insert staged.msg, inbox := db.inbox.insert staged.item }

/-- By a compose that has handed its message over. -/
def Db.record (db : Db) (msg : SmsMessage) (result : TwilioSendResult) : Db :=
  { db with messages := db.messages.insert (recordSend result msg) }

/-- By an approval. -/
def Db.confirm (db : Db) (item : SmsInboxItem) (msg : SmsMessage) (result : TwilioSendResult) :
    Db :=
  { db with
    messages := db.messages.update msg.id (recordSend result) (fun _ => rfl) fun _ => rfl
    inbox := setState db.inbox item.id .approved }

/-- By a rejection. -/
def Db.reject (db : Db) (item : SmsInboxItem) (msg : SmsMessage) : Db :=
  { db with
    messages :=
      db.messages.update msg.id (fun m => { m with status := .rejected }) (fun _ => rfl) fun _ =>
        rfl
    inbox := setState db.inbox item.id .rejected }

end Sms
end EmailOps
