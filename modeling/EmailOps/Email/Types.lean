import EmailOps.Framework.Text

/-!
# The data model

The rows of the database the mail service reads and writes, as far as the
modelled functions use them, and the requests that pass between its parts.
Identifiers and keys are strings; addresses, subjects and bodies are texts.
Columns that may be null are options, and array columns are lists.

`Settings` gathers the tables that compose and approve only read; `Db` adds the
two they write, the messages and the agent inbox. A table is a list in creation
order, so that `findFirst` with `orderBy createdAt asc` is `List.find?`.
-/

namespace EmailOps

export Framework (Text CaseMapping toLowerCase)

/-! ### JSON columns -/

/-- A stored JSON value. Numbers keep the text JavaScript prints them with. -/
inductive Json where
  | null
  | bool (b : Bool)
  | num (text : Text)
  | str (s : Text)
  | arr (items : List Json)
  | obj (fields : List (Text × Json))

namespace Json

/-- A property of an object; `undefined` is `none`. -/
def get (fields : List (Text × Json)) (key : Text) : Option Json :=
  fields.lookup key

/-- The operator `??`: `null` and `undefined` give way to the second operand. -/
def orElse (a : Option Json) (b : Option Json) : Option Json :=
  match a with
  | none | some .null => b
  | some v => some v

mutual

/-- `String(v)`. -/
def toText : Json → Text
  | .null => "null".toList
  | .bool true => "true".toList
  | .bool false => "false".toList
  | .num text => text
  | .str s => s
  | .arr items => joinTexts items
  | .obj _ => "[object Object]".toList

/-- `Array.prototype.join` with a comma; a null element contributes nothing. -/
def joinTexts : List Json → Text
  | [] => []
  | [.null] => []
  | [v] => toText v
  | .null :: vs => ',' :: joinTexts vs
  | v :: vs => toText v ++ ',' :: joinTexts vs

end

end Json

/-! ### Enumerations -/

inductive EmailMessageStatus where
  | queued | sent | delivered | draft | pendingApproval | rejected | failed | bounced
  deriving DecidableEq, Repr

inductive EmailMode where
  | send | draft
  deriving DecidableEq, Repr

inductive EmailDirection where
  | received | sent | draft
  deriving DecidableEq, Repr

inductive MailboxOwnerKind where
  | human | agent | shared
  deriving DecidableEq, Repr

inductive AgentInboxState where
  | pending | approved | rejected
  deriving DecidableEq, Repr

inductive AgentInboxKind where
  | email | cleanup
  deriving DecidableEq, Repr

/-- The autonomy dial of a registered agent. -/
inductive AgentAutonomyLevel where
  | l0DraftOnly | l1ApproveToSend | l2AutonomousAudit
  deriving DecidableEq, Repr

inductive TrustedCorrespondentScope where
  | address | domain
  deriving DecidableEq, Repr

/-! ### Rows that compose and approve read -/

structure Workspace where
  id : String
  agentsPaused : Bool

structure User where
  id : String
  keycloakId : Option String

structure Agent where
  id : String
  workspaceId : String
  key : String
  active : Bool
  paused : Bool
  autonomyLevel : AgentAutonomyLevel
  recipientPolicy : Json
  mailboxAccountId : Option String

structure AgentMailbox where
  workspaceId : String
  agentId : String
  mailboxAccountId : String
  isPrimary : Bool := false

structure MailboxAccount where
  id : String
  workspaceId : String
  emailAddress : Text
  displayName : Option Text
  isDefault : Bool
  active : Bool
  postmarkLane : Bool
  provider : String
  ownerKind : MailboxOwnerKind
  ownerKey : Option String
  deriving DecidableEq

structure MailDomain where
  workspaceId : String
  domain : Text

structure TrustedCorrespondent where
  workspaceId : String
  scope : TrustedCorrespondentScope
  address : Text

/-- The tables that compose and approve only read. -/
structure Settings where
  workspaces : List Workspace := []
  users : List User := []
  agents : List Agent := []
  agentMailboxes : List AgentMailbox := []
  mailboxes : List MailboxAccount := []
  mailDomains : List MailDomain := []
  trustedCorrespondents : List TrustedCorrespondent := []

/-! ### Rows that compose and approve write -/

/-- One machine and human reason a requested send was held for approval. -/
structure PolicyReason where
  code : String
  message : Text
  deriving DecidableEq

/-- The system-of-record row of a message. -/
structure EmailMessage where
  id : String
  workspaceId : String
  mailboxAccountId : Option String
  threadId : Option String
  inReplyToThreadId : Option String
  externalSource : Option String
  externalRef : Option String
  mode : EmailMode
  status : EmailMessageStatus
  direction : EmailDirection
  fromAddress : Option Text
  toAddress : Option Text
  subject : Option Text
  body : Option Text
  toAddresses : List Text
  ccAddresses : List Text
  bccAddresses : List Text
  bodyHtml : Option Text
  attachments : Option Json
  providerMessageId : Option String

/-- An entry of the approval queue. `held` is the policy payload: why the send
was held, when it was. -/
structure AgentInboxItem where
  id : String
  workspaceId : String
  messageId : Option String
  kind : AgentInboxKind
  state : AgentInboxState
  draftedBy : Option String
  summary : Text
  held : List PolicyReason

/-- The database. -/
structure Db where
  settings : Settings := {}
  messages : List EmailMessage := []
  inbox : List AgentInboxItem := []

/-- The idempotency key of a message: workspace, external source, external
reference. -/
abbrev Triple := String × String × String

/-- The idempotency key of a row, when its nullable columns are set. -/
def EmailMessage.triple? (m : EmailMessage) : Option Triple :=
  match m.externalSource, m.externalRef with
  | some source, some ref => some (m.workspaceId, source, ref)
  | _, _ => none

/-! ### Requests -/

/-- An attachment as the compose request carries it. -/
structure ComposeAttachmentInput where
  blob_id : Text
  name : Text
  type : Text
  deriving DecidableEq

structure TransparencyFooter where
  text : Text
  html : Text

/-- The parsed compose request, with the defaults of its optional fields. An absent
list is the empty list: every use of these fields in the source tests their
length. -/
structure ComposeInput where
  toAddress : Text
  toAddresses : List Text := []
  subject : Text
  body : Text
  bodyHtml : Option Text := none
  mode : EmailMode
  inReplyToThreadId : Option String := none
  externalSource : String
  externalRef : String
  draftedBy : Option String := none
  fromMailboxAccountId : Option String := none
  cc : List Text := []
  bcc : List Text := []
  attachments : List ComposeAttachmentInput := []
  inReplyToMessageId : Option String := none
  references : List Text := []
  draftId : Option String := none
  agentAutoreply : Bool := false
  inboundReplyAttestation : Option Text := none
  policyReasons : List PolicyReason := []
  transparencyFooter : Option TransparencyFooter := none

/-- The idempotency key of a request in a workspace. -/
def ComposeInput.triple (input : ComposeInput) (workspaceId : String) : Triple :=
  (workspaceId, input.externalSource, input.externalRef)

/-- An attachment as the send lane carries it. -/
structure SendAttachment where
  blobId : Text
  name : Text
  type : Text
  deriving DecidableEq

/-- A custom outbound header. -/
structure Header where
  name : Text
  value : Text
  deriving DecidableEq

/-- The external send request shared by the compose and approve lanes. -/
structure SendReq where
  fromAddress : Text
  fromName : Option Text
  toAddress : Text
  toAddresses : Option (List Text)
  subject : Text
  body : Text
  bodyHtml : Option Text
  inReplyToThreadId : Option String
  transactional : Bool
  cc : Option (List Text)
  bcc : Option (List Text)
  attachments : Option (List SendAttachment)
  inReplyTo : Option Text
  references : Option (List Text)
  headers : List Header
  deriving DecidableEq

/-- What the engine answers to a send. -/
structure EngineSendResult where
  accepted : Bool
  providerMessageId : Option String
  threadId : Option String
  lane : Option String
  reason : Option String
  deriving DecidableEq

/-- What compose returns about a message. -/
structure MessageComposeView where
  id : String
  threadId : Option String
  status : EmailMessageStatus
  mode : EmailMode
  externalSource : Option String
  externalRef : Option String
  deriving DecidableEq

/-- The errors the modelled handlers throw, with their texts. -/
inductive HttpError where
  | forbidden (message : String)
  | badRequest (message : String)
  /-- Prisma's P2002: an insert broke a unique index. -/
  | uniqueViolation
  deriving DecidableEq, Repr

/-! ### JavaScript truthiness -/

/-- A nullable string is truthy when it is present and not empty. -/
def truthy (s : Option String) : Bool :=
  match s with
  | some s => s != ""
  | none => false

/-- `xs?.length ? xs : undefined`. -/
def nonEmpty {α : Type} (xs : List α) : Option (List α) :=
  if xs.isEmpty then none else some xs

@[simp] theorem nonEmpty_nil {α : Type} : nonEmpty ([] : List α) = none := rfl

@[simp] theorem nonEmpty_getD {α : Type} (xs : List α) : (nonEmpty xs).getD [] = xs := by
  cases xs <;> rfl

end EmailOps
