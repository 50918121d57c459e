import EmailOps.Email.Autonomy

/-!
# The context of the autonomy matrix

What compose looks up before it asks the matrix: the class of the sending
mailbox, the internal domains, the trusted correspondents among the recipients,
and the proof that the compose answers an inbound message.

* `buildAgentComposeContext` is the lookup, over the settings and the stored
  messages. When a lookup fails it answers a context the matrix never sends on.
* `trusted_of_mem_trustedAddressesOf` says what a trusted recipient is trusted for: a row
  of the table of trusted correspondents.
-/

namespace EmailOps

open Framework.Text

variable [CaseMapping]

/-- The recipient entries the gate reads: `toAddresses` when present, else
`toAddress`, and then cc and bcc. -/
def ComposeInput.recipientEntries (input : ComposeInput) : List Text :=
  (if input.toAddresses = [] then [input.toAddress] else input.toAddresses) ++
    input.cc ++ input.bcc

/-- The recipients as the gate classifies them; entries that normalize to
nothing are dropped. -/
def ComposeInput.gateRecipients (input : ComposeInput) : List Text :=
  (input.recipientEntries.map normalizeAddress).filter (· ≠ [])

/-- The class of the sending mailbox: an agent's when its owner is an agent or an
active agent is linked to it. -/
def mailboxClassOf (settings : Settings) (workspaceId : String)
    (mailbox : Option MailboxAccount) : MailboxClass :=
  match mailbox with
  | none => .unknown
  | some mailbox =>
    if mailbox.ownerKind = .agent then .agent
    else
      let byCache := settings.agents.any fun a =>
        a.workspaceId = workspaceId && a.active && a.mailboxAccountId = some mailbox.id
      let byJoin := settings.agentMailboxes.any fun link =>
        link.workspaceId = workspaceId && link.mailboxAccountId = mailbox.id &&
          settings.agents.any fun a => a.id = link.agentId && a.active
      if byCache || byJoin then .agent else .user

/-- The workspace's mail domains together with those of the agent's policy. -/
def internalDomainsOf (settings : Settings) (workspaceId : String) (recipientPolicy : Json) :
    List Text :=
  (((settings.mailDomains.filter (·.workspaceId = workspaceId)).map
      fun r => normalizeDomain r.domain).filter (· ≠ []) ++
    (parseRecipientPolicy recipientPolicy).internalDomains).dedup

/-- `addr.slice(addr.lastIndexOf('@') + 1)`: the whole text when there is no `@`. -/
def domainOf (addr : Text) : Text :=
  (afterLastAt addr).getD addr

/-- The rows of the correspondents that match a recipient or its domain. -/
def trustedRows (settings : Settings) (workspaceId : String) (recipients : List Text) :
    List TrustedCorrespondent :=
  let recipientDomains := (recipients.map domainOf).filter (· ≠ [])
  settings.trustedCorrespondents.filter fun r =>
    r.workspaceId = workspaceId &&
      match r.scope with
      | .address => recipients.contains r.address
      | .domain => recipientDomains.contains r.address

/-- The trusted recipients: those trusted by address, or by domain. -/
def trustedAddressesOf (settings : Settings) (workspaceId : String) (recipients : List Text) :
    List Text :=
  let rows := trustedRows settings workspaceId recipients
  let trustedExact := (rows.filter (·.scope = .address)).map fun r => toLowerCase r.address
  let trustedDomains := (rows.filter (·.scope = .domain)).map fun r => toLowerCase r.address
  recipients.filter fun addr =>
    trustedExact.contains addr ||
      (domainOf addr ≠ [] && trustedDomains.contains (domainOf addr))

/-- Does the row trust the address, alone or with its domain? -/
def TrustedCorrespondent.Covers (row : TrustedCorrespondent) (addr : Text) : Prop :=
  match row.scope with
  | .address => toLowerCase row.address = addr
  | .domain => domainOf addr ≠ [] ∧ toLowerCase row.address = domainOf addr

/-- A trusted correspondent of the workspace. -/
def Trusted (settings : Settings) (workspaceId : String) (addr : Text) : Prop :=
  ∃ row ∈ settings.trustedCorrespondents, row.workspaceId = workspaceId ∧ row.Covers addr

/-- A recipient counted as trusted has a row that covers it. -/
theorem trusted_of_mem_trustedAddressesOf {settings : Settings} {workspaceId : String}
    {recipients : List Text} {addr : Text}
    (h : addr ∈ trustedAddressesOf settings workspaceId recipients) :
    Trusted settings workspaceId addr := by
  have hrows : ∀ {scope row}, row ∈ (trustedRows settings workspaceId recipients).filter
      (·.scope = scope) → row ∈ settings.trustedCorrespondents ∧ row.workspaceId = workspaceId ∧
        row.scope = scope := by
    intro scope row hrow
    obtain ⟨hrow, hscope⟩ := List.mem_filter.mp hrow
    obtain ⟨hmem, hmatch⟩ := List.mem_filter.mp hrow
    rw [Bool.and_eq_true] at hmatch
    exact ⟨hmem, of_decide_eq_true hmatch.1, of_decide_eq_true hscope⟩
  obtain ⟨-, hcovered⟩ := List.mem_filter.mp h
  rcases Bool.or_eq_true_iff.mp hcovered with hexact | hdomain
  · obtain ⟨row, hrow, haddr⟩ := List.mem_map.mp (List.contains_iff_mem.mp hexact)
    obtain ⟨hmem, hworkspace, hscope⟩ := hrows hrow
    refine ⟨row, hmem, hworkspace, ?_⟩
    unfold TrustedCorrespondent.Covers
    rw [hscope]
    exact haddr
  · rw [Bool.and_eq_true] at hdomain
    obtain ⟨row, hrow, haddr⟩ := List.mem_map.mp (List.contains_iff_mem.mp hdomain.2)
    obtain ⟨hmem, hworkspace, hscope⟩ := hrows hrow
    refine ⟨row, hmem, hworkspace, ?_⟩
    unfold TrustedCorrespondent.Covers
    rw [hscope]
    exact ⟨of_decide_eq_true hdomain.1, haddr⟩

/-- Is the compose an in-thread reply to a message received from one of the
external recipients, by attestation or by a stored row? -/
def inThreadReplyToInbound (messages : List EmailMessage) (workspaceId : String)
    (external : List Text) (input : ComposeInput) : Bool :=
  if truthy input.inReplyToThreadId && external ≠ [] then
    let attested : Option Text :=
      match input.inboundReplyAttestation with
      | none | some [] => none
      | some address => some (normalizeAddress address)
    match attested with
    | some address =>
      if address ≠ [] && external.contains address then true
      else storedInbound
    | none => storedInbound
  else false
where
  /-- A row received in this thread from an external recipient, among the first
  two hundred. -/
  storedInbound : Bool :=
    ((messages.filter fun m =>
        m.workspaceId = workspaceId && m.threadId = input.inReplyToThreadId &&
          m.direction = .received).take 200).any fun m =>
      match m.fromAddress with
      | none | some [] => false
      | some address => external.contains (normalizeAddress address)

/-- Build the context of a registered agent's requested send. `lookupsFail` says
that a database lookup on the way throws. -/
def buildAgentComposeContext (db : Db) (autonomousSendEnabled lookupsFail : Bool)
    (workspaceId : String) (agent : Agent) (mailbox : Option MailboxAccount)
    (input : ComposeInput) : AgentComposeContext :=
  let recipients := input.gateRecipients
  if lookupsFail then
    { mailboxClass := .unknown
      internalDomains := []
      recipients := recipients
      isInThreadReplyToInbound := false
      attachmentCount := input.attachments.length
      trustedAddresses := []
      autonomousSendEnabled := autonomousSendEnabled }
  else
    let internalDomains := internalDomainsOf db.settings workspaceId agent.recipientPolicy
    { mailboxClass := mailboxClassOf db.settings workspaceId mailbox
      internalDomains := internalDomains
      recipients := recipients
      isInThreadReplyToInbound :=
        inThreadReplyToInbound db.messages workspaceId
          (splitRecipients recipients internalDomains).external input
      attachmentCount := input.attachments.length
      trustedAddresses := trustedAddressesOf db.settings workspaceId recipients
      autonomousSendEnabled := autonomousSendEnabled }

@[simp] theorem buildAgentComposeContext_recipients (db : Db) (enabled fail : Bool)
    (workspaceId : String) (agent : Agent) (mailbox : Option MailboxAccount)
    (input : ComposeInput) :
    (buildAgentComposeContext db enabled fail workspaceId agent mailbox input).recipients =
      input.gateRecipients := by
  unfold buildAgentComposeContext
  split <;> rfl

theorem buildAgentComposeContext_failed {db : Db} {enabled : Bool} {workspaceId : String}
    {agent : Agent} {mailbox : Option MailboxAccount} {input : ComposeInput} :
    (buildAgentComposeContext db enabled true workspaceId agent mailbox input).mailboxClass ≠
      .agent := by
  simp [buildAgentComposeContext]

end EmailOps
