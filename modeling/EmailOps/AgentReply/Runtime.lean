import EmailOps.Email.Compose

/-!
# The agent-reply runtime

What `draftReplyForInbound` decides about a message that arrived at an agent's mailbox, as
functions of what it reads.

* `suppressed`: the senders that are never answered, decided before anything is read.
* `readGate`: the one transaction that reads the pauses, the agent behind the mailbox, and
  the two counts the caps rest on; `Gate.admits` says whether a reply is written at all.
* `Reply.input`: the compose request of a reply. A registered agent asks for a send, unless
  the thread has had its share of automatic sends.

The texts of a reply, which the language model and the thread give, are parameters.
-/

namespace EmailOps
namespace AgentReply

open Framework.Text

variable [CaseMapping]

/-! ### What the runtime is given -/

/-- The mailbox polled. -/
structure AgentReplyMailboxRef where
  id : String
  emailAddress : Text
  workspaceId : String

/-- The message that arrived. -/
structure AgentReplyInboundMsg where
  threadId : String
  fromAddress : Option Text
  subject : Option Text
  receivedAt : Option String := none
  agentAutoreply : Bool := false

/-- The runtime's flags in the environment. -/
structure Flags where
  agentReplyRuntimeEnabled : Bool
  agentDraftsPerMailboxPerDay : ℕ

/-- The automatic sends a thread may have within the window. -/
def threadAutoSendCap : ℕ := 5

/-- The window of both caps, in milliseconds: a day. -/
def capWindow : ℕ := 24 * 60 * 60 * 1000

/-! ### Senders that are not answered -/

/-- The part of an address before the `@`, in lower case. -/
def localpart (address : Text) : Text :=
  (toLowerCase (trim address)).takeWhile (· ≠ '@')

/-- The localparts of senders behind which nobody reads. -/
def automatedLocalparts : List Text :=
  ["noreply", "no-reply", "donotreply", "donot-reply", "do-notreply", "do-not-reply", "bounce",
    "bounces", "mailer-daemon", "postmaster"].map String.toList

/-- Is the sender a machine? The tagged forms of `noreply` are among those that begin so. -/
def isAutomatedSender (fromAddress : Text) : Bool :=
  automatedLocalparts.contains (localpart fromAddress) ||
    "noreply".toList.isPrefixOf (localpart fromAddress) ||
    "no-reply".toList.isPrefixOf (localpart fromAddress)

omit [CaseMapping] in
/-- The sender of a message, empty when it names none. -/
def AgentReplyInboundMsg.sender (msg : AgentReplyInboundMsg) : Text :=
  trim (msg.fromAddress.getD [])

/-- A message without a sender, from the mailbox itself, from a machine, or that is itself an
automatic reply is not answered. -/
def suppressed (mailbox : AgentReplyMailboxRef) (msg : AgentReplyInboundMsg) : Bool :=
  msg.sender = [] || toLowerCase msg.sender = toLowerCase (trim mailbox.emailAddress) ||
    isAutomatedSender msg.sender || msg.agentAutoreply

/-! ### The gate -/

/-- The active agent with an id in a workspace. -/
def activeAgent (settings : Settings) (workspaceId : String) (p : Agent → Bool) : Option Agent :=
  settings.agents.find? fun a => a.workspaceId = workspaceId && a.active && p a

/-- The agent's binding to a mailbox, the primary one first. -/
def bindingOf (settings : Settings) (workspaceId mailboxAccountId : String) : Option AgentMailbox :=
  let bound := settings.agentMailboxes.filter fun b =>
    b.workspaceId = workspaceId && b.mailboxAccountId = mailboxAccountId
  (bound.find? (·.isPrimary)).or bound.head?

/-- The agent of a mailbox: the one bound to it, or else the one that names it, or else the
one whose key is the mailbox's localpart. -/
def resolveAgentForMailbox (settings : Settings) (workspaceId mailboxAccountId : String)
    (emailAddress : Text) : Option Agent :=
  let byBinding := (bindingOf settings workspaceId mailboxAccountId).bind fun b =>
    activeAgent settings workspaceId fun a => a.id = b.agentId
  let byCache := activeAgent settings workspaceId fun a => a.mailboxAccountId = some mailboxAccountId
  let byKey :=
    if localpart emailAddress = [] then none
    else activeAgent settings workspaceId fun a => a.key.toList = localpart emailAddress
  byBinding.or (byCache.or byKey)

/-- Is the address that of an agent's mailbox in the workspace? -/
def isAgentMailboxAddress (settings : Settings) (workspaceId : String) (address : Text) : Bool :=
  match settings.mailboxes.find? fun m =>
      m.workspaceId = workspaceId && toLowerCase m.emailAddress = toLowerCase (trim address) with
  | none => false
  | some m =>
    m.ownerKind = .agent ||
      (activeAgent settings workspaceId fun a => a.mailboxAccountId = some m.id).isSome ||
      settings.agentMailboxes.any fun b =>
        b.workspaceId = workspaceId && b.mailboxAccountId = m.id &&
          settings.agents.any fun a => a.id = b.agentId && a.active

omit [CaseMapping] in
/-- A runtime send in the thread. -/
def isThreadAutoSend (workspaceId threadId : String) (m : EmailMessage) : Bool :=
  m.workspaceId = workspaceId && m.externalSource = some agentReplyRuntimeSource &&
    m.mode = .send && m.inReplyToThreadId = some threadId

omit [CaseMapping] in
/-- A runtime compose of the mailbox, told by how its reference begins. -/
def isMailboxCompose (workspaceId mailboxId : String) (m : EmailMessage) : Bool :=
  m.workspaceId = workspaceId && m.externalSource = some agentReplyRuntimeSource &&
    match m.externalRef with
    | some ref => (mailboxId ++ ":").toList.isPrefixOf ref.toList
    | none => false

omit [CaseMapping] in
/-- `count` over the rows created within the window. -/
def countRecent (db : Db) (createdAt : String → ℕ) (now : ℕ) (p : EmailMessage → Bool) : ℕ :=
  db.messages.countP fun m => p m && now < createdAt m.id + capWindow

/-- What the gate reads. -/
structure Gate where
  agentsPaused : Bool
  agent : Option Agent
  senderIsAgentMailbox : Bool
  threadAutoSends : ℕ
  mailboxComposes24h : ℕ

/-- The gate's transaction. -/
def readGate (db : Db) (createdAt : String → ℕ) (now : ℕ) (workspaceId : String)
    (mailbox : AgentReplyMailboxRef) (msg : AgentReplyInboundMsg) : Gate where
  agentsPaused := db.settings.workspaces.any fun w => w.id = workspaceId && w.agentsPaused
  agent := resolveAgentForMailbox db.settings workspaceId mailbox.id mailbox.emailAddress
  senderIsAgentMailbox := isAgentMailboxAddress db.settings workspaceId msg.sender
  threadAutoSends := countRecent db createdAt now (isThreadAutoSend workspaceId msg.threadId)
  mailboxComposes24h := countRecent db createdAt now (isMailboxCompose workspaceId mailbox.id)

omit [CaseMapping] in
/-- Is a reply written? Not for a paused workspace or agent, not to another agent, and not
over the mailbox's cap. -/
def Gate.admits (gate : Gate) (flags : Flags) : Bool :=
  !gate.agentsPaused && !gate.agent.any (·.paused) && !gate.senderIsAgentMailbox &&
    !decide (flags.agentDraftsPerMailboxPerDay ≤ gate.mailboxComposes24h)

omit [CaseMapping] in
/-- Has the thread had its automatic sends? -/
def Gate.overCap (gate : Gate) : Bool :=
  threadAutoSendCap ≤ gate.threadAutoSends

omit [CaseMapping] in
/-- What a reply asks for: a send for a registered agent, unless the thread is over its cap. -/
def Gate.requestedMode (gate : Gate) : EmailMode :=
  if gate.agent.isSome && !gate.overCap then .send else .draft

/-! ### The reply -/

/-- A reply being written: what the service was called with, and what the gate read. -/
structure Reply where
  workspaceId : String
  mailbox : AgentReplyMailboxRef
  msg : AgentReplyInboundMsg
  gate : Gate

/-- The texts of a reply, from the language model, the thread and the signature. -/
structure ReplyTexts where
  bodyText : Text
  bodyHtml : Text

omit [CaseMapping]

/-- The subject of a reply, with one `Re:`. -/
def replySubject (subject : Option Text) : Text :=
  match trim (subject.getD []) with
  | [] => "Re: (no subject)".toList
  | c :: d :: ':' :: rest =>
    if (c = 'r' || c = 'R') && (d = 'e' || d = 'E') then c :: d :: ':' :: rest
    else "Re: ".toList ++ c :: d :: ':' :: rest
  | s => "Re: ".toList ++ s

/-- The idempotency reference of the reply to a message. -/
def externalRef (mailbox : AgentReplyMailboxRef) (msg : AgentReplyInboundMsg) : String :=
  mailbox.id ++ ":" ++ msg.threadId ++ ":" ++ msg.receivedAt.getD "na"

/-- Why a reply in a thread over its cap is held. -/
def threadRateCapReason : PolicyReason where
  code := "thread-rate-cap"
  message := "Auto-send cap reached for this thread (5 in 24h) — this reply needs a human approval.".toList

/-- The footer of a reply that is sent without a human. -/
def replyFooter : TransparencyFooter where
  text := "\n\nSent autonomously · AI agent".toList
  html := ("<p style=\"color:#6b7280;font-size:12px;margin-top:16px\">Sent autonomously · AI agent" ++
    "</p>").toList

/-- The compose request of a reply. -/
def Reply.input (reply : Reply) (texts : ReplyTexts) : ComposeInput where
  toAddress := reply.msg.sender
  subject := replySubject reply.msg.subject
  body := texts.bodyText
  bodyHtml := some texts.bodyHtml
  mode := reply.gate.requestedMode
  inReplyToThreadId := some reply.msg.threadId
  externalSource := agentReplyRuntimeSource
  externalRef := externalRef reply.mailbox reply.msg
  draftedBy := some ((reply.gate.agent.map (·.key)).getD agentReplyRuntimeSource)
  agentAutoreply := true
  inboundReplyAttestation := some reply.msg.sender
  policyReasons := if reply.gate.overCap then [threadRateCapReason] else []
  transparencyFooter := some replyFooter

/-! ### What a reply's row is counted as -/

theorem externalRef_prefix (mailbox : AgentReplyMailboxRef) (msg : AgentReplyInboundMsg) :
    (mailbox.id ++ ":").toList.isPrefixOf (externalRef mailbox msg).toList = true := by
  unfold externalRef
  rw [List.isPrefixOf_iff_prefix, String.toList_append, String.toList_append, String.toList_append]
  exact ⟨msg.threadId.toList ++ (":".toList ++ (msg.receivedAt.getD "na").toList), by
    simp only [String.toList_append, List.append_assoc]⟩

variable (reply : Reply) (texts : ReplyTexts) (id : String) (sendMailbox : Option MailboxAccount)

theorem isMailboxCompose_staged :
    isMailboxCompose reply.workspaceId reply.mailbox.id
      (stagedMessage reply.workspaceId id sendMailbox (reply.input texts)) = true := by
  have href := externalRef_prefix reply.mailbox reply.msg
  simp only [isMailboxCompose, stagedMessage, Reply.input, href, decide_true, Bool.and_self]

theorem isMailboxCompose_queued (footer : Option TransparencyFooter) :
    isMailboxCompose reply.workspaceId reply.mailbox.id
      (queuedMessage reply.workspaceId id sendMailbox footer (reply.input texts)) = true :=
  isMailboxCompose_staged reply texts id sendMailbox

theorem isThreadAutoSend_queued (footer : Option TransparencyFooter) :
    isThreadAutoSend reply.workspaceId reply.msg.threadId
      (queuedMessage reply.workspaceId id sendMailbox footer (reply.input texts)) = true := by
  simp only [isThreadAutoSend, queuedMessage, stagedMessage, Reply.input, decide_true,
    Bool.and_self]

end AgentReply
end EmailOps
