import EmailOps.Inbound.Rules
import EmailOps.Triage.Listing

/-!
# What changes the folders, and what changes the overlay

A thread of a sovereign mailbox has two places: the folders its messages are in, and its
disposition. Mail arrives in the Inbox, whatever the disposition. The endpoints of the mail
client change both places. The tools of an agent and `classifyInbound` change the
disposition only; the rules of a mailbox, snoozing, custom folders and the emptying of a
folder change the folders only.

* `classifyInbound` writes the overlay on some of its branches.
* `ThreadCall` is a call of the engine about a thread, and `overlaySystem` the operations as
  steps, each of them from its beginning to its end.
* `Placed` and `Shown` are the two places of a thread, with `placedIn` and `showsIn` for a
  message.
-/

namespace EmailOps
namespace Triage

open Framework Framework.Text

/-! ### Classifying -/

inductive SenderPolicyKind where
  | allow | block
  deriving DecidableEq, Repr

inductive SenderPolicyScope where
  | address | domain
  deriving DecidableEq, Repr

structure SenderPolicy where
  workspaceId : String
  scope : SenderPolicyScope
  pattern : Text
  kind : SenderPolicyKind

/-- What the spam engine says of a message. -/
inductive SpamVerdict where
  | clean | spam | unsure
  deriving DecidableEq, Repr

inductive ClassifyReason where
  | senderAllowed | senderBlocked | engineVerdict | engineClean | engineDormant
  deriving DecidableEq, Repr

structure ClassifyResult where
  threadId : String
  disposition : MessageDisposition
  spamVerdict : Option SpamVerdict
  reason : ClassifyReason
  deriving DecidableEq

section Classify

variable [CaseMapping]

/-- The domain of an address, when something stands behind its last `@`. -/
def domainOf (address : Text) : Option Text :=
  match afterLastAt address with
  | none | some [] => none
  | some domain => some (toLowerCase (trim domain))

/-- The policy for a sender: that of the address, or else that of its domain. -/
def evaluate (policies : List SenderPolicy) (workspaceId : String) (fromAddress : Option Text) :
    Option SenderPolicyKind :=
  match fromAddress with
  | none | some [] => none
  | some raw =>
    let address := toLowerCase (trim raw)
    let domain := (domainOf address).filter (· ≠ [])
    let rows := policies.filter fun p => p.workspaceId = workspaceId &&
      ((p.scope = .address && p.pattern = address) || (p.scope = .domain && domain = some p.pattern))
    match rows.find? (·.scope = .address) with
    | some exact => some exact.kind
    | none => (rows.find? (·.scope = .domain)).map (·.kind)

end Classify

/-- `applyDisposition`: the writer of a row that exists is kept. -/
def Desk.applyDisposition (desk : Desk) (workspaceId threadId : String)
    (disposition : MessageDisposition) : Desk :=
  let old := desk.overlay.find? fun r => r.workspaceId = workspaceId && r.threadId = threadId
  { desk with
    overlay := upsert ⟨⟨workspaceId, threadId, disposition⟩, old.bind (·.setByUcUid),
      some "spam-filter"⟩ desk.overlay }

/-- `classifyInbound`, after the policy is looked up. It throws when the row cannot be
written. -/
def classifyInbound (policy : Option SenderPolicyKind) (workspaceId threadId : String)
    (isConfigured : Bool) (verdict : Option SpamVerdict) (stored : Bool) (desk : Desk) :
    Desk × Option ClassifyResult :=
  let applied (disposition : MessageDisposition) (verdict : SpamVerdict) (reason : ClassifyReason) :=
    if stored then
      (desk.applyDisposition workspaceId threadId disposition,
        some ⟨threadId, disposition, some verdict, reason⟩)
    else (desk, none)
  match policy, verdict with
  | some .allow, _ => applied .inbox .clean .senderAllowed
  | some .block, _ => applied .spam .spam .senderBlocked
  | none, some .spam => applied .spam .spam .engineVerdict
  | none, verdict =>
    (desk, some ⟨threadId, .inbox, verdict, if isConfigured then .engineClean else .engineDormant⟩)

/-! ### Calls of the engine about a thread -/

inductive ThreadCall where
  | toFolder (folder : MailFolder)
  | toMailbox (mailboxId : String)
  | read (value : Bool)

/-- The call of a rule's action. -/
def ThreadCall.ofRule : Inbound.EngineCall → ThreadCall
  | .moveThreadToMailbox folderId => .toMailbox (String.ofList folderId)
  | .archiveThread => .toFolder .archive
  | .trashThread => .toFolder .trash
  | .setThreadRead => .read true

/-- The account afterwards. -/
def ThreadCall.run (call : ThreadCall) (a : Jmap.Account) (threadId : String) (x : Jmap.Exchange) :
    Jmap.Account :=
  match call with
  | .toFolder folder => (Jmap.moveThreadToFolder true a threadId folder x).1
  | .toMailbox mailboxId => (Jmap.moveThreadToMailbox true a threadId mailboxId x).1
  | .read value => (Jmap.setThreadRead true a threadId value x).1

/-- The folder that a call moves messages to, if it comes to it. -/
def ThreadCall.target? (call : ThreadCall) (a : Jmap.Account) (x : Jmap.Exchange) : Option String :=
  match call with
  | .toFolder folder => Jmap.target? a folder x
  | .toMailbox mailboxId =>
    if x.resolved && a.mailboxes.any (·.id = mailboxId) then some mailboxId else none
  | .read _ => none

/-- The messages that a call moves. -/
def ThreadCall.moved (call : ThreadCall) (a : Jmap.Account) (threadId : String) (x : Jmap.Exchange) :
    List Jmap.Email :=
  if (call.target? a x).isSome then Jmap.updated a threadId x else []

/-! ### The operations -/

/-- What the operations read and do not change. -/
structure OverlayEnv where
  tables : MailTables
  workspaceId : String
  /-- Is there a spam engine? -/
  spamConfigured : Bool

inductive OverlayLabel where
  /-- A message arrives in the Inbox. -/
  | arrive (address : Text) (m : Jmap.Email)
  /-- A message is sent, or a draft is saved. -/
  | file (address : Text) (folder : MailFolder) (m : Jmap.Email)
  /-- `classifyInbound`, with the policies there are by then. -/
  | classify (policies : List SenderPolicy) (threadId : String) (fromAddress : Option Text)
      (verdict : Option SpamVerdict) (stored : Bool)
  /-- The endpoints of the mail client, one thread at a time. -/
  | dispose (ucUid : Option String) (threadId : String) (disposition : MessageDisposition)
      (agentKey : Option String) (stored : Bool) (fates : String → Fate)
  /-- The tools of an agent, one thread at a time. -/
  | setDisposition (ucUid : Option String) (threadId : String) (disposition : MessageDisposition)
      (agentKey : Option String) (stored : Bool)
  /-- An action of a rule. -/
  | rule (address : Text) (threadId : String) (call : Inbound.EngineCall) (x : Jmap.Exchange)
  | snooze (address : Text) (threadId : String) (x : Jmap.Exchange)
  /-- A thread comes back from a snooze. -/
  | unsnooze (address : Text) (threadId : String) (x : Jmap.Exchange)
  | moveToCustomFolder (address : Text) (threadId mailboxId : String) (x : Jmap.Exchange)
  | emptyFolder (address : Text) (folder : MailFolder) (resolved : Bool)
      (rounds : ℕ → Jmap.PurgeRound)

namespace Desk

variable (desk : Desk)

/-- Put a sovereign account in place. -/
def setEngine (address : Text) (a : Jmap.Account) : Desk :=
  { desk with mail := desk.mail.setEngine address a }

/-- A call of the engine about a thread. -/
def call (address : Text) (threadId : String) (call : ThreadCall) (x : Jmap.Exchange) : Desk :=
  desk.setEngine address (call.run (desk.mail.engine address) threadId x)

/-- A new message in a folder of an account. -/
def deliver (address : Text) (folder : MailFolder) (m : Jmap.Email) : Option Desk :=
  let a := desk.mail.engine address
  match a.mailboxFor folder with
  | some mailboxId =>
    if a.emails.any (·.id = m.id) then none
    else some (desk.setEngine address { a with emails := a.emails ++ [m.moveTo mailboxId] })
  | none => none

end Desk

section Step

variable [CaseMapping] (env : OverlayEnv)

/-- One operation. -/
def overlayStep (desk : Desk) : OverlayLabel → Option Desk
  | .arrive address m =>
    if m.direction = .received then desk.deliver address .inbox m else none
  | .file address folder m =>
    if folder = .sent || folder = .drafts then desk.deliver address folder m else none
  | .classify policies threadId fromAddress verdict stored =>
    some (classifyInbound (evaluate policies env.workspaceId fromAddress) env.workspaceId
      threadId env.spamConfigured verdict stored desk).1
  | .dispose ucUid threadId disposition agentKey stored fates =>
    some (applyThreadDisposition true env.tables env.workspaceId ucUid threadId disposition agentKey
      stored fates desk).1
  | .setDisposition ucUid threadId disposition agentKey stored =>
    some (Triage.setDisposition env.workspaceId ucUid threadId disposition agentKey stored desk).1
  | .rule address threadId call x => some (desk.call address threadId (.ofRule call) x)
  | .snooze address threadId x => some (desk.call address threadId (.toFolder .archive) x)
  | .unsnooze address threadId x => some (desk.call address threadId (.toFolder .inbox) x)
  | .moveToCustomFolder address threadId mailboxId x =>
    some (desk.call address threadId (.toMailbox mailboxId) x)
  | .emptyFolder address folder resolved rounds =>
    if folder = .trash || folder = .spam then
      some (desk.setEngine address
        (Jmap.emptyFolder true (desk.mail.engine address) folder resolved rounds).1)
    else none

/-- The operations, on accounts without mail and an overlay without rows. -/
def overlaySystem : System Desk OverlayLabel where
  init desk := (∀ address, (desk.mail.engine address).emails = []) ∧ desk.overlay = []
  step := overlayStep env

end Step

/-- The sovereign mailboxes of the workspace. -/
def OverlayEnv.sovereign (env : OverlayEnv) : List MailboxAccount :=
  env.tables.settings.mailboxes.filter fun m =>
    m.workspaceId = env.workspaceId && !EngineMailProvider.handles m.provider

/-! ### The places of a thread -/

section Places

variable (a : Jmap.Account) (d : MessageDisposition)

/-- Is the message in a folder that a thread of this disposition is listed in? -/
def showsIn (m : Jmap.Email) : Bool :=
  [MailFolder.inbox, .archive, .spam, .trash, .sent, .drafts].any fun folder =>
    visibleIn folder d && inFolder a folder m

/-- Is the message in the Inbox, the Archive, the Trash or Junk? -/
def placedIn (m : Jmap.Email) : Bool :=
  [MailFolder.inbox, .archive, .spam, .trash].any fun folder => inFolder a folder m

/-- The thread has a message where it is listed. -/
def Shown (threadId : String) : Prop :=
  ∃ m ∈ a.emails, m.threadId = threadId ∧ showsIn a d m = true

/-- The thread has a message in the Inbox, the Archive, the Trash or Junk. -/
def Placed (threadId : String) : Prop :=
  ∃ m ∈ a.emails, m.threadId = threadId ∧ placedIn a m = true

instance (threadId : String) : Decidable (Shown a d threadId) :=
  inferInstanceAs (Decidable (∃ m ∈ a.emails, m.threadId = threadId ∧ showsIn a d m = true))

instance (threadId : String) : Decidable (Placed a threadId) :=
  inferInstanceAs (Decidable (∃ m ∈ a.emails, m.threadId = threadId ∧ placedIn a m = true))

end Places

end Triage
end EmailOps
