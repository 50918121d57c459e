import EmailOps.Email.ComposeContext

/-!
# Composing a message

The three phases of `composeEmail`, as functions of what they read.

* Phase 1 is a transaction: `composePlan` validates, authorizes and decides, and
  yields the rows to create (`ComposePlan`), and `ComposePlan.commit` creates
  them, subject to the unique index on the idempotency key.
* Phase 1.5 resolves the threading headers of a reply, and phase 2 hands the
  request to the engine: `withReplyHeaders` is what they add to the request.
* Phase 3 records the outcome: `stampSendResult`.

`composePlan_send` and `composePlan_stage` say what the two outcomes of phase 1
are made of; every later module reasons from them.
-/

namespace EmailOps

open Framework.Text

variable [CaseMapping]

/-! ### Configuration -/

/-- The environment of the service. -/
structure Env where
  trustedComposeSources : List String
  autonomousSendEnabled : Bool

/-- The trusted sources when none are configured. -/
def defaultTrustedComposeSources : List String :=
  ["email-ops-client", "customer-ops"]

def agentReplyRuntimeSource : String := "agent-reply-runtime"

def agentAutoreplyHeader : Header :=
  ⟨"X-UC-Agent-Autoreply".toList, "1".toList⟩

/-! ### Mailboxes -/

/-- May this caller act through the mailbox? A human mailbox is its owner's, who
may be named by either of two ids; other mailboxes are workspace resources. -/
def mayActThroughMailbox (users : List User) (mailbox : MailboxAccount) (ucUid : Option String) :
    Bool :=
  if mailbox.ownerKind ≠ .human then true
  else if !truthy mailbox.ownerKey || !truthy ucUid then false
  else if mailbox.ownerKey = ucUid then true
  else
    match users.find? fun u => u.keycloakId = ucUid || some u.id = ucUid with
    | some u => mailbox.ownerKey = u.keycloakId || mailbox.ownerKey = some u.id
    | none => false

/-- The mailbox with an id in a workspace. -/
def findMailbox (settings : Settings) (workspaceId id : String) : Option MailboxAccount :=
  settings.mailboxes.find? fun m => m.id = id && m.workspaceId = workspaceId

/-- The workspace's default mailbox, or else its oldest active one. -/
def defaultMailbox (settings : Settings) (workspaceId : String) : Option MailboxAccount :=
  (settings.mailboxes.find? fun m => m.workspaceId = workspaceId && m.isDefault && m.active).or
    (settings.mailboxes.find? fun m => m.workspaceId = workspaceId && m.active)

/-- The mailbox an agent sends from: its own, or else the default. -/
def resolveSendMailbox (settings : Settings) (workspaceId : String) (agent : Option Agent) :
    Option MailboxAccount :=
  match agent.bind (·.mailboxAccountId) with
  | none | some "" => defaultMailbox settings workspaceId
  | some id => (findMailbox settings workspaceId id).or (defaultMailbox settings workspaceId)

/-- The explicit from-mailbox of a request, when it names one and the caller may
send as it; without one, the agent's or the default mailbox. -/
def composeMailbox (settings : Settings) (workspaceId : String) (ucUid : Option String)
    (agent : Option Agent) (input : ComposeInput) : Except HttpError (Option MailboxAccount) :=
  let explicitFrom :=
    match input.fromMailboxAccountId with
    | none | some "" => none
    | some id => findMailbox settings workspaceId id
  match explicitFrom with
  | some mailbox =>
    let ownsIt := mailbox.ownerKind = .shared ||
      (mailbox.ownerKind = .human && mayActThroughMailbox settings.users mailbox ucUid)
    if ownsIt then .ok (some mailbox)
    else .error (.forbidden "You are not allowed to send as that mailbox.")
  | none => .ok (resolveSendMailbox settings workspaceId agent)

/-! ### The agent and the decision -/

/-- The provenance key of a request: who drafted it, or else where it comes
from. -/
def ComposeInput.agentKey (input : ComposeInput) : String :=
  input.draftedBy.getD input.externalSource

/-- The active registered agent under the provenance key. -/
def resolveAgent (settings : Settings) (workspaceId : String) (input : ComposeInput) :
    Option Agent :=
  if input.agentKey = "" then none
  else
    settings.agents.find? fun a =>
      a.workspaceId = workspaceId && a.key = input.agentKey && a.active

omit [CaseMapping] in
/-- The agent resolved is registered under the provenance key. -/
theorem key_of_resolveAgent {settings : Settings} {workspaceId : String} {input : ComposeInput}
    {agent : Agent} (h : resolveAgent settings workspaceId input = some agent) :
    agent.key = input.agentKey := by
  unfold resolveAgent at h
  split at h
  · cases h
  · have hfound := List.find?_some h
    simp only [Bool.and_eq_true, decide_eq_true_eq] at hfound
    exact hfound.1.2

/-- Is an unregistered provenance one the service sends for? -/
def trustedUnregisteredSend (env : Env) (agent : Option Agent) (input : ComposeInput) : Bool :=
  agent.isNone && env.trustedComposeSources.contains input.agentKey

/-- The context the matrix is asked with: only for a registered agent that asks
to send. -/
def composeContext (env : Env) (db : Db) (lookupsFail : Bool) (workspaceId : String)
    (agent : Option Agent) (mailbox : Option MailboxAccount) (input : ComposeInput) :
    Option AgentComposeContext :=
  match agent, input.mode with
  | some agent, .send =>
    some (buildAgentComposeContext db env.autonomousSendEnabled lookupsFail workspaceId agent
      mailbox input)
  | _, _ => none

/-- The gate's verdict on a request. -/
def composeDecision (env : Env) (db : Db) (lookupsFail : Bool) (workspaceId : String)
    (agent : Option Agent) (mailbox : Option MailboxAccount) (input : ComposeInput) :
    AgentComposeDecision :=
  decideAgentComposeMode input.mode agent input.toAddress
    (trustedUnregisteredSend env agent input)
    (composeContext env db lookupsFail workspaceId agent mailbox input)

/-! ### The rows and the request -/

/-- The persisted form of an attachment: the request's own shape. -/
def storedAttachment (a : ComposeAttachmentInput) : Json :=
  .obj [("blob_id".toList, .str a.blob_id), ("name".toList, .str a.name),
    ("type".toList, .str a.type)]

/-- The persisted form of the attachments, null when there are none. -/
def storedAttachments (attachments : List ComposeAttachmentInput) : Option Json :=
  if attachments = [] then none else some (.arr (attachments.map storedAttachment))

/-- The attachments as the send lanes carry them. -/
def sendAttachments (attachments : List ComposeAttachmentInput) : List SendAttachment :=
  attachments.map fun a => ⟨a.blob_id, a.name, a.type⟩

/-- The row of a staged draft. -/
def stagedMessage (workspaceId id : String) (mailbox : Option MailboxAccount)
    (input : ComposeInput) : EmailMessage where
  id := id
  workspaceId := workspaceId
  mailboxAccountId := mailbox.map (·.id)
  threadId := input.inReplyToThreadId
  inReplyToThreadId := input.inReplyToThreadId
  externalSource := some input.externalSource
  externalRef := some input.externalRef
  mode := .draft
  status := .pendingApproval
  direction := .draft
  fromAddress := mailbox.map (·.emailAddress)
  toAddress := some input.toAddress
  subject := some input.subject
  body := some input.body
  toAddresses := input.toAddresses
  ccAddresses := input.cc
  bccAddresses := input.bcc
  bodyHtml := input.bodyHtml
  attachments := storedAttachments input.attachments
  providerMessageId := none

/-- The one-line summary of a queued item. -/
def summaryOf (subject toAddress : Text) : Text :=
  let s := if trim subject = [] then "(no subject)".toList else trim subject
  if toAddress = [] then s else s ++ " → ".toList ++ toAddress

/-- Whether a compose is an agent's doing. -/
def agentInitiated (agent : Option Agent) (input : ComposeInput) : Bool :=
  agent.isSome || input.externalSource = agentReplyRuntimeSource

/-- The upstream holds of an agent-initiated compose and the gate's own. -/
def composePolicyReasons (agent : Option Agent) (decision : AgentComposeDecision)
    (input : ComposeInput) : List PolicyReason :=
  (if agentInitiated agent input then input.policyReasons else []) ++ decision.reasons

/-- The queue entry of a staged draft. -/
def stagedItem (workspaceId itemId messageId : String) (agent : Option Agent)
    (decision : AgentComposeDecision) (input : ComposeInput) : AgentInboxItem :=
  let held := if agentInitiated agent input then composePolicyReasons agent decision input else []
  { id := itemId
    workspaceId := workspaceId
    messageId := some messageId
    kind := .email
    state := .pending
    draftedBy := some input.agentKey
    summary := summaryOf input.subject input.toAddress ++
      (match held with
        | [] => []
        | r :: _ => " — held: ".toList ++ r.code.toList)
    held := held }

/-- The footer rides on an agent's own send to at least one external recipient. -/
def carriedFooter (agent : Option Agent) (ctx : Option AgentComposeContext)
    (input : ComposeInput) : Option TransparencyFooter :=
  match agent, ctx, input.transparencyFooter with
  | some _, some ctx, some footer =>
    if (splitRecipients ctx.recipients ctx.internalDomains).external = [] then none
    else some footer
  | _, _, _ => none

/-- The body as it is sent. -/
def sendBody (footer : Option TransparencyFooter) (body : Text) : Text :=
  body ++ (footer.elim [] (·.text))

/-- The HTML body as it is sent; an absent or empty one gets no footer. -/
def sendBodyHtml (footer : Option TransparencyFooter) (bodyHtml : Option Text) : Option Text :=
  match bodyHtml with
  | none => none
  | some [] => some []
  | some html => some (html ++ (footer.elim [] (·.html)))

/-- The row of a message to be sent. -/
def queuedMessage (workspaceId id : String) (mailbox : Option MailboxAccount)
    (footer : Option TransparencyFooter) (input : ComposeInput) : EmailMessage :=
  { stagedMessage workspaceId id mailbox input with
    mode := .send
    status := .queued
    direction := .sent
    body := some (sendBody footer input.body)
    bodyHtml := sendBodyHtml footer input.bodyHtml }

/-- The request phase 1 hands to phase 2. -/
def composeReq (mailbox : Option MailboxAccount) (footer : Option TransparencyFooter)
    (input : ComposeInput) : SendReq where
  fromAddress := (mailbox.map (·.emailAddress)).getD input.toAddress
  fromName := mailbox.bind (·.displayName)
  toAddress := input.toAddress
  toAddresses := nonEmpty input.toAddresses
  subject := input.subject
  body := sendBody footer input.body
  bodyHtml := sendBodyHtml footer input.bodyHtml
  inReplyToThreadId := input.inReplyToThreadId
  transactional := (mailbox.map (·.postmarkLane)).getD true
  cc := nonEmpty input.cc
  bcc := nonEmpty input.bcc
  attachments := nonEmpty (sendAttachments input.attachments)
  inReplyTo := none
  references := nonEmpty input.references
  headers := if input.agentAutoreply then [agentAutoreplyHeader] else []

/-! ### Phase 1 -/

/-- What phase 1 hands to phase 2. -/
structure SendPlan where
  messageId : String
  mailbox : Option MailboxAccount
  agentKey : Option String
  req : SendReq

/-- The outcome of phase 1, before the rows are created. -/
inductive ComposePlan where
  /-- An idempotent repeat: the stored message is the answer. -/
  | done (view : MessageComposeView)
  /-- A draft to be staged for approval. -/
  | stage (msg : EmailMessage) (item : AgentInboxItem)
  /-- A message to be recorded and then sent. -/
  | send (msg : EmailMessage) (plan : SendPlan)

/-- What compose answers about a row. -/
def composeView (m : EmailMessage) : MessageComposeView where
  id := m.id
  threadId := m.threadId
  status := m.status
  mode := m.mode
  externalSource := m.externalSource
  externalRef := m.externalRef

/-- The row under an idempotency key. -/
def findByTriple (messages : List EmailMessage) (t : Triple) : Option EmailMessage :=
  messages.find? fun m => m.triple? = some t

/-- The ids a call gives the rows it creates. -/
structure NewIds where
  messageId : String
  itemId : String

/-- The reads and decisions of phase 1. -/
def composePlan (env : Env) (db : Db) (lookupsFail : Bool) (workspaceId : String)
    (ucUid : Option String) (input : ComposeInput) (ids : NewIds) :
    Except HttpError ComposePlan :=
  match findByTriple db.messages (input.triple workspaceId) with
  | some existing => .ok (.done (composeView existing))
  | none =>
    if db.settings.workspaces.any fun w => w.id = workspaceId && w.agentsPaused then
      .error (.forbidden "Agents are paused for this workspace.")
    else
      let agent := resolveAgent db.settings workspaceId input
      if agent.any (·.paused) then
        .error (.forbidden ("Agent '" ++ input.agentKey ++ "' is paused."))
      else
        match composeMailbox db.settings workspaceId ucUid agent input with
        | .error e => .error e
        | .ok mailbox =>
          let ctx := composeContext env db lookupsFail workspaceId agent mailbox input
          let decision := composeDecision env db lookupsFail workspaceId agent mailbox input
          match decision.mode with
          | .draft =>
            .ok (.stage (stagedMessage workspaceId ids.messageId mailbox input)
              (stagedItem workspaceId ids.itemId ids.messageId agent decision input))
          | .send =>
            let footer := carriedFooter agent ctx input
            .ok (.send (queuedMessage workspaceId ids.messageId mailbox footer input)
              { messageId := ids.messageId
                mailbox := mailbox
                agentKey := agent.map (·.key)
                req := composeReq mailbox footer input })

/-- Insert a message row. The primary key and the unique index on the idempotency
key reject a second row, and the transaction is rolled back. -/
def insertMessage (db : Db) (msg : EmailMessage) : Except HttpError Db :=
  if db.messages.any fun m => m.id = msg.id || m.triple? = msg.triple? then
    .error .uniqueViolation
  else .ok { db with messages := db.messages ++ [msg] }

/-- Create the rows of a plan and commit. -/
def ComposePlan.commit (plan : ComposePlan) (db : Db) : Except HttpError Db :=
  match plan with
  | .done _ => .ok db
  | .stage msg item =>
    (insertMessage db msg).map fun db => { db with inbox := db.inbox ++ [item] }
  | .send msg _ => insertMessage db msg

/-! ### Phases 1.5 and 3 -/

/-- The threading headers found for the message replied to. -/
structure ReplyHeaders where
  messageIdHeader : Option Text
  references : Option (List Text)

/-- Set the resolved threading headers of a reply on the request. `resolved` is
what the mail engine answered, `none` when it found nothing. -/
def withReplyHeaders (input : ComposeInput) (resolved : Option ReplyHeaders) (req : SendReq) :
    SendReq :=
  if truthy input.inReplyToMessageId then
    let messageId : Option Text :=
      match resolved.bind (·.messageIdHeader) with
      | none | some [] => none
      | some header => some header
    let chain := (resolved.bind (·.references)).getD [] ++ messageId.toList
    { req with
      inReplyTo := messageId.or req.inReplyTo
      references := req.references.or (nonEmpty chain) }
  else req

/-- Persist the engine's answer on the row. -/
def stampSendResult (messages : List EmailMessage) (messageId : String)
    (result : EngineSendResult) : List EmailMessage :=
  messages.map fun m =>
    if m.id = messageId then
      { m with
        status := if result.accepted then .sent else .failed
        providerMessageId := result.providerMessageId
        threadId := result.threadId.or m.threadId }
    else m

/-! ### What phase 1 yields -/

omit [CaseMapping] in
/-- A successful insert found neither the id nor the key, and adds the row. -/
theorem insertMessage_ok {db db' : Db} {msg : EmailMessage}
    (h : insertMessage db msg = .ok db') :
    (∀ m ∈ db.messages, m.id ≠ msg.id ∧ m.triple? ≠ msg.triple?) ∧
      db' = { db with messages := db.messages ++ [msg] } := by
  unfold insertMessage at h
  split at h
  · cases h
  · rename_i hnone
    refine ⟨fun m hm => ?_, (Except.ok.inj h).symm⟩
    simp only [List.any_eq_true, not_exists, not_and, Bool.or_eq_true, decide_eq_true_eq,
      not_or] at hnone
    exact hnone m hm

section Outcomes

variable {env : Env} {db : Db} {fail : Bool} {ws : String} {ucUid : Option String}
  {input : ComposeInput} {ids : NewIds}

/-- Phase 1 decides on a fresh key, for a workspace and an agent that are not
paused, with a mailbox the caller may use. -/
private theorem composePlan_cases {plan : ComposePlan}
    (h : composePlan env db fail ws ucUid input ids = .ok plan) :
    (∃ m, findByTriple db.messages (input.triple ws) = some m ∧ plan = .done (composeView m)) ∨
    ∃ mailbox agent,
      agent = resolveAgent db.settings ws input ∧
      composeMailbox db.settings ws ucUid agent input = .ok mailbox ∧
      findByTriple db.messages (input.triple ws) = none ∧
      (((composeDecision env db fail ws agent mailbox input).mode = .draft ∧
          plan = .stage (stagedMessage ws ids.messageId mailbox input)
            (stagedItem ws ids.itemId ids.messageId agent
              (composeDecision env db fail ws agent mailbox input) input)) ∨
        ((composeDecision env db fail ws agent mailbox input).mode = .send ∧
          ∃ footer,
            footer = carriedFooter agent (composeContext env db fail ws agent mailbox input) input ∧
            plan = .send (queuedMessage ws ids.messageId mailbox footer input)
              { messageId := ids.messageId, mailbox := mailbox, agentKey := agent.map (·.key),
                req := composeReq mailbox footer input })) := by
  unfold composePlan at h
  split at h
  · rename_i m hm
    exact .inl ⟨m, hm, (Except.ok.inj h).symm⟩
  · rename_i hnone
    split at h
    · cases h
    · simp only at h
      split at h
      · cases h
      · split at h
        · cases h
        · rename_i mailbox hmailbox
          refine .inr ⟨mailbox, _, rfl, hmailbox, hnone, ?_⟩
          split at h
          · rename_i hmode
            exact .inl ⟨hmode, (Except.ok.inj h).symm⟩
          · rename_i hmode
            exact .inr ⟨hmode, _, rfl, (Except.ok.inj h).symm⟩

/-- A plan to send: the decision was `send`, and the row and the request are
those of the resolved mailbox and footer. -/
theorem composePlan_send {msg : EmailMessage} {plan : SendPlan}
    (h : composePlan env db fail ws ucUid input ids = .ok (.send msg plan)) :
    ∃ mailbox footer,
      composeMailbox db.settings ws ucUid (resolveAgent db.settings ws input) input = .ok mailbox ∧
      (composeDecision env db fail ws (resolveAgent db.settings ws input) mailbox input).mode
        = .send ∧
      footer = carriedFooter (resolveAgent db.settings ws input)
        (composeContext env db fail ws (resolveAgent db.settings ws input) mailbox input) input ∧
      msg = queuedMessage ws ids.messageId mailbox footer input ∧
      plan.messageId = ids.messageId ∧ plan.mailbox = mailbox ∧
      plan.req = composeReq mailbox footer input := by
  rcases composePlan_cases h with ⟨m, -, hm⟩ | ⟨mailbox, _, rfl, hmb, -, ⟨-, hs⟩ | ⟨hmode, f, hf, hs⟩⟩
  · cases hm
  · cases hs
  · cases hs
    exact ⟨mailbox, f, hmb, hmode, hf, rfl, rfl, rfl, rfl⟩

/-- A plan to stage: the row is that of the resolved mailbox. -/
theorem composePlan_stage {msg : EmailMessage} {item : AgentInboxItem}
    (h : composePlan env db fail ws ucUid input ids = .ok (.stage msg item)) :
    ∃ mailbox,
      composeMailbox db.settings ws ucUid (resolveAgent db.settings ws input) input = .ok mailbox ∧
      (composeDecision env db fail ws (resolveAgent db.settings ws input) mailbox input).mode
        = .draft ∧
      msg = stagedMessage ws ids.messageId mailbox input ∧
      item = stagedItem ws ids.itemId ids.messageId (resolveAgent db.settings ws input)
        (composeDecision env db fail ws (resolveAgent db.settings ws input) mailbox input)
        input := by
  rcases composePlan_cases h with ⟨m, -, hm⟩ | ⟨mailbox, _, rfl, hmb, -, ⟨hmode, hs⟩ | ⟨-, f, -, hs⟩⟩
  · cases hm
  · cases hs
    exact ⟨mailbox, hmb, hmode, rfl, rfl⟩
  · cases hs

/-- What a trusted source that is no agent's asks to send is not staged. -/
theorem composePlan_ne_stage {msg : EmailMessage} {item : AgentInboxItem}
    (hagent : resolveAgent db.settings ws input = none) (hsend : input.mode = .send)
    (htrusted : env.trustedComposeSources.contains input.agentKey = true) :
    composePlan env db fail ws ucUid input ids ≠ .ok (.stage msg item) := by
  intro h
  obtain ⟨mailbox, -, hmode, -, -⟩ := composePlan_stage h
  have hmatrix : (composeDecision env db fail ws none mailbox input).mode = .send := by
    refine decideAgentComposeMode_unregistered.mpr ⟨hsend, ?_⟩
    unfold trustedUnregisteredSend
    rw [Bool.and_eq_true]
    exact ⟨rfl, htrusted⟩
  rw [hagent, hmatrix] at hmode
  cases hmode

theorem findByTriple_of_composePlan {res : Except HttpError ComposePlan}
    (h : composePlan env db fail ws ucUid input ids = res) (hres : ∀ view, res ≠ .ok (.done view)) :
    findByTriple db.messages (input.triple ws) = none := by
  unfold composePlan at h
  split at h
  · exact absurd h.symm (hres _)
  · rename_i hnone
    exact hnone

theorem composePlan_done {view : MessageComposeView}
    (h : composePlan env db fail ws ucUid input ids = .ok (.done view)) :
    ∃ m, findByTriple db.messages (input.triple ws) = some m ∧ view = composeView m := by
  rcases composePlan_cases h with ⟨m, hm, hv⟩ | ⟨mailbox, _, rfl, hmb, -, ⟨-, hs⟩ | ⟨-, f, -, hs⟩⟩
  · exact ⟨m, hm, ComposePlan.done.inj hv⟩
  · cases hs
  · cases hs

end Outcomes

omit [CaseMapping] in
/-- Stamping a row keeps its idempotency key. -/
theorem any_triple?_stampSendResult (messages : List EmailMessage) (messageId : String)
    (result : EngineSendResult) (t : Triple) :
    (stampSendResult messages messageId result).any (fun m => m.triple? = some t) =
      messages.any fun m => m.triple? = some t := by
  unfold stampSendResult
  rw [List.any_map]
  refine congrArg (messages.any ·) (funext fun m => ?_)
  by_cases hid : m.id = messageId
  · simp only [Function.comp_apply, if_pos hid]
    rfl
  · simp only [Function.comp_apply, if_neg hid]

end EmailOps
