import EmailOps.Email.Types

/-!
# The autonomy gate

The pure decision logic of the autonomy dial: given an agent-initiated compose,
is the effective mode `send` or `draft`?

* `isExternalRecipient`, `normalizeAddress` and `splitRecipients` classify the
  recipients; `decideComposeMode` is the base gate and `decideAgentComposeMode`
  the matrix over mailbox class, level and recipients.
* `decideAgentComposeMode_send` is what a `send` means when a context was built:
  the mailbox is an agent's, and every recipient is internal or, for an L2
  agent, trusted.
-/

namespace EmailOps

open Framework.Text

variable [CaseMapping]

/-! ### Policies and addresses -/

/-- The parsed recipient policy of an agent. -/
structure RecipientPolicy where
  requireApprovalForExternal : Bool
  internalDomains : List Text

/-- `d.trim().toLowerCase().replace(/^@/, '')`. -/
def normalizeDomain (d : Text) : Text :=
  match toLowerCase (trim d) with
  | '@' :: rest => rest
  | t => t

/-- Tolerant parse of the recipient policy: an unknown shape is empty. -/
def parseRecipientPolicy (raw : Json) : RecipientPolicy :=
  match raw with
  | .obj fields =>
    { requireApprovalForExternal :=
        match Json.get fields "requireApprovalForExternal".toList with
        | some (.bool true) => true
        | _ => false
      internalDomains :=
        match Json.get fields "internalDomains".toList with
        | some (.arr items) =>
          (items.filterMap fun | .str d => some (normalizeDomain d) | _ => none).filter (· ≠ [])
        | _ => [] }
  | _ => ⟨false, []⟩

/-- The text after the last `@`, when there is one. -/
def afterLastAt (t : Text) : Option Text :=
  if '@' ∈ t then some (t.rtakeWhile (· ≠ '@')) else none

/-- Is the address outside the internal domains? An empty domain, or no internal
domain at all, is external: the safer side. -/
def isExternalRecipient (toAddress : Text) (internalDomains : List Text) : Bool :=
  let domain := toLowerCase (trim ((afterLastAt toAddress).getD []))
  if domain = [] then true
  else if internalDomains = [] then true
  else !internalDomains.contains domain

/-- `/<([^<>]+)>\s*$/`: the bracketed text a value ends with. Read from the end,
the match is the closing bracket, the longest run without brackets before it,
and the opening bracket before that. -/
def angled (t : Text) : Option Text :=
  match t.reverse.dropWhile isWhite with
  | '>' :: rest =>
    let inner := rest.takeWhile fun c => c ≠ '<' && c ≠ '>'
    match rest.dropWhile fun c => c ≠ '<' && c ≠ '>' with
    | '<' :: _ => if inner = [] then none else some inner.reverse
    | _ => none
  | _ => none

/-- The address text the gate takes out of a recipient entry, before the case is
folded: the bracketed text at the end, or else the whole entry. -/
def addressText (raw : Text) : Text :=
  trim ((angled (trim raw)).getD (trim raw))

/-- One recipient entry as a bare lowercased address. -/
def normalizeAddress (raw : Text) : Text :=
  toLowerCase (addressText raw)

/-- The internal and the external part of a recipient list. -/
structure SplitRecipients where
  internal : List Text
  external : List Text

/-- Split a recipient list per the domain list. -/
def splitRecipients (recipients : List Text) (internalDomains : List Text) : SplitRecipients :=
  { internal := recipients.filter fun addr => !isExternalRecipient addr internalDomains
    external := recipients.filter fun addr => isExternalRecipient addr internalDomains }

theorem mem_external {recipients domains : List Text} {addr : Text} :
    addr ∈ (splitRecipients recipients domains).external ↔
      addr ∈ recipients ∧ isExternalRecipient addr domains = true := by
  simp [splitRecipients]

/-! ### The base gate -/

/-- The verdict of the gate. `coerced` tells a downgraded `send` from a draft
that was asked for. -/
structure AgentComposeDecision where
  mode : EmailMode
  coerced : Bool
  reason : String
  reasons : List PolicyReason
  deriving DecidableEq

/-- The base decision, whose reason list is filled in by the matrix. -/
structure ComposeModeDecision where
  mode : EmailMode
  coerced : Bool
  reason : String
  deriving DecidableEq

/-- The level as its enumeration literal. -/
def AgentAutonomyLevel.wire : AgentAutonomyLevel → String
  | .l0DraftOnly => "L0_DRAFT_ONLY"
  | .l1ApproveToSend => "L1_APPROVE_TO_SEND"
  | .l2AutonomousAudit => "L2_AUTONOMOUS_AUDIT"

/-- The base gate: the requested mode, the agent and its policy. -/
def decideComposeMode (requestedMode : EmailMode) (agent : Option Agent) (toAddress : Text)
    (trustedUnregisteredSend : Bool) : ComposeModeDecision :=
  match agent with
  | none =>
    if requestedMode = .draft then ⟨.draft, false, "requested-draft"⟩
    else if trustedUnregisteredSend then ⟨.send, false, "unregistered-trusted-source"⟩
    else ⟨.draft, true, "unregistered-untrusted-source-fail-safe"⟩
  | some agent =>
    if requestedMode = .draft then ⟨.draft, false, "requested-draft"⟩
    else if agent.autonomyLevel ≠ .l2AutonomousAudit then
      ⟨.draft, true, agent.autonomyLevel.wire ++ "-requires-approval"⟩
    else
      let policy := parseRecipientPolicy agent.recipientPolicy
      if policy.requireApprovalForExternal
          && isExternalRecipient toAddress policy.internalDomains then
        ⟨.draft, true, "L2-external-recipient-requires-approval"⟩
      else ⟨.send, false, "L2-autonomous-audited"⟩

/-- A base reason as a stable machine code. The `-requires-approval` reasons are
the two of the dial and the one of the policy. -/
def baseReasonCode (reason : String) : String :=
  if reason = "unregistered-untrusted-source-fail-safe" then "untrusted-source"
  else if "-requires-approval".toList <:+ reason.toList then "autonomy-dial"
  else reason

/-- A human line for the coercions of the base gate. -/
def baseReasonMessage (reason : String) : Text :=
  if reason = "unregistered-untrusted-source-fail-safe" then
    "Unregistered, untrusted source — the send was staged for a human approval.".toList
  else "The agent autonomy dial requires a human approval for this send.".toList

/-! ### The matrix -/

/-- The class of the sending mailbox. -/
inductive MailboxClass where
  | user | agent | unknown
  deriving DecidableEq, Repr

/-- The precomputed inputs of the matrix. -/
structure AgentComposeContext where
  mailboxClass : MailboxClass
  internalDomains : List Text
  recipients : List Text
  isInThreadReplyToInbound : Bool
  attachmentCount : ℕ
  trustedAddresses : List Text
  autonomousSendEnabled : Bool

/-- At most this many external recipients in an autonomous send. -/
def maxRoutineExternalRecipients : ℕ := 5

/-- How many first-contact reasons are spelled out before summarizing. -/
def maxFirstContactReasons : ℕ := 5

/-- The first three addresses, and how many more there are. -/
def summarize (addresses : List Text) : Text :=
  let head := join ", ".toList (addresses.take 3)
  if addresses.length > 3 then
    head ++ ", +".toList ++ (toString (addresses.length - 3)).toList ++ " more".toList
  else head

/-- A requested send downgraded to a draft. -/
def hold (reasons : List PolicyReason) (reason : String) : AgentComposeDecision :=
  ⟨.draft, true, reason, reasons⟩

/-- Every routine condition an L2 external send misses, in the order of the
source. -/
def routineReasons (ctx : AgentComposeContext) (external : List Text) : List PolicyReason :=
  let untrusted := external.filter fun addr => !ctx.trustedAddresses.contains addr
  (if !ctx.autonomousSendEnabled then
    [⟨"autonomous-send-disabled",
      "Autonomous agent sends are globally disabled (AGENT_AUTONOMOUS_SEND_ENABLED=false).".toList⟩]
    else []) ++
  (if !ctx.isInThreadReplyToInbound then
    [⟨"cold-outbound",
      ("Not a reply to an inbound message from these recipients — cold outreach always needs " ++
        "a human approval.").toList⟩]
    else []) ++
  (if ctx.attachmentCount > 0 then
    [⟨"attachment",
      ("Carries " ++ toString ctx.attachmentCount ++
        " attachment(s) — attachments always need a human approval.").toList⟩]
    else []) ++
  (if external.length > maxRoutineExternalRecipients then
    [⟨"bulk-external",
      (toString external.length ++ " external recipients (max " ++
        toString maxRoutineExternalRecipients ++ " for an autonomous send).").toList⟩]
    else []) ++
  (untrusted.take maxFirstContactReasons).map (fun addr =>
    ⟨"first-contact",
      "First contact with ".toList ++ addr ++ " — approve once to trust this correspondent.".toList⟩) ++
  (if untrusted.length > maxFirstContactReasons then
    [⟨"first-contact",
      ("…and " ++ toString (untrusted.length - maxFirstContactReasons) ++
        " more first-contact recipient(s).").toList⟩]
    else [])

/-- Decide the effective mode of an agent-initiated compose. Without a context,
without a registered agent, or for a requested draft, this is the base gate. -/
def decideAgentComposeMode (requestedMode : EmailMode) (agent : Option Agent) (toAddress : Text)
    (trustedUnregisteredSend : Bool) (agentContext : Option AgentComposeContext) :
    AgentComposeDecision :=
  match agentContext, agent, requestedMode with
  | some ctx, some agent, .send =>
    if ctx.mailboxClass ≠ .agent then
      hold [⟨"class-a-mailbox",
          ("This is a human/shared mailbox — agent-initiated mail from it always needs a " ++
            "human approval.").toList⟩]
        "class-a-mailbox-requires-approval"
    else
      let external := (splitRecipients ctx.recipients ctx.internalDomains).external
      match agent.autonomyLevel with
      | .l0DraftOnly =>
        hold [⟨"l0-draft-only",
            "This agent is draft-only (L0) — every send needs a human approval.".toList⟩]
          "L0_DRAFT_ONLY-requires-approval"
      | .l1ApproveToSend =>
        if external = [] then ⟨.send, false, "L1-internal-autonomous", []⟩
        else
          hold [⟨"l1-external",
              "This agent (L1) sends internally on its own; external recipients (".toList ++
                summarize external ++ ") need a human approval.".toList⟩]
            "L1-external-requires-approval"
      | .l2AutonomousAudit =>
        if external = [] then ⟨.send, false, "L2-internal-autonomous", []⟩
        else if (parseRecipientPolicy agent.recipientPolicy).requireApprovalForExternal then
          hold [⟨"l2-external-policy",
              ("This agent's recipient policy requires human approval for all external " ++
                "mail.").toList⟩]
            "L2-external-recipient-requires-approval"
        else if routineReasons ctx external ≠ [] then
          hold (routineReasons ctx external) "L2-external-not-routine"
        else ⟨.send, false, "L2-routine-external-autonomous", []⟩
  | _, agent, requestedMode =>
    let base := decideComposeMode requestedMode agent toAddress trustedUnregisteredSend
    { mode := base.mode
      coerced := base.coerced
      reason := base.reason
      reasons :=
        if base.coerced then [⟨baseReasonCode base.reason, baseReasonMessage base.reason⟩] else [] }

omit [CaseMapping] in
/-- No routine reason means that every external recipient is trusted. -/
theorem trusted_of_routineReasons_nil {ctx : AgentComposeContext} {external : List Text}
    (h : routineReasons ctx external = []) {addr : Text} (haddr : addr ∈ external) :
    addr ∈ ctx.trustedAddresses := by
  simp only [routineReasons, List.append_eq_nil_iff, List.map_eq_nil_iff, List.take_eq_nil_iff] at h
  obtain ⟨⟨-, huntrusted⟩, -⟩ := h
  rcases huntrusted with hmax | hnil
  · cases hmax
  · by_contra hnot
    have hmem : addr ∈ external.filter fun a => !ctx.trustedAddresses.contains a := by
      simp [haddr, hnot]
    rw [hnil] at hmem
    cases hmem

/-- **What a send verdict of the matrix means.** The sending mailbox is an
agent's, the agent is L1 or L2, and every recipient is internal or else the
agent is L2 and the recipient trusted. -/
theorem decideAgentComposeMode_send {agent : Agent} {toAddress : Text} {trusted : Bool}
    {ctx : AgentComposeContext}
    (h : (decideAgentComposeMode .send (some agent) toAddress trusted (some ctx)).mode = .send) :
    ctx.mailboxClass = .agent ∧
      ∀ addr ∈ ctx.recipients, isExternalRecipient addr ctx.internalDomains = false ∨
        (agent.autonomyLevel = .l2AutonomousAudit ∧ addr ∈ ctx.trustedAddresses) := by
  simp only [decideAgentComposeMode] at h
  split at h
  · cases h
  · rename_i hclass
    refine ⟨not_not.mp hclass, fun addr haddr => ?_⟩
    -- An external recipient is in the external part, which the verdict bounds.
    cases hext : isExternalRecipient addr ctx.internalDomains with
    | false => exact .inl rfl
    | true =>
      have hmem := mem_external.mpr ⟨haddr, hext⟩
      cases hlevel : agent.autonomyLevel with
      | l0DraftOnly =>
        rw [hlevel] at h
        cases h
      | l1ApproveToSend =>
        rw [hlevel] at h
        simp only at h
        split at h
        · rename_i hnil
          rw [hnil] at hmem
          cases hmem
        · cases h
      | l2AutonomousAudit =>
        rw [hlevel] at h
        simp only at h
        split at h
        · rename_i hnil
          rw [hnil] at hmem
          cases hmem
        · split at h
          · cases h
          · split at h
            · cases h
            · rename_i hroutine
              exact .inr ⟨rfl, trusted_of_routineReasons_nil (not_not.mp hroutine) hmem⟩

theorem decideAgentComposeMode_unregistered {requestedMode : EmailMode} {toAddress : Text}
    {trusted : Bool} {ctx : Option AgentComposeContext} :
    (decideAgentComposeMode requestedMode none toAddress trusted ctx).mode = .send ↔
      requestedMode = .send ∧ trusted = true := by
  cases requestedMode <;> cases trusted <;> cases ctx <;>
    simp [decideAgentComposeMode, decideComposeMode]

theorem decideAgentComposeMode_draft {agent : Option Agent} {toAddress : Text} {trusted : Bool}
    {ctx : Option AgentComposeContext} :
    (decideAgentComposeMode .draft agent toAddress trusted ctx).mode = .draft := by
  cases agent <;> cases ctx <;> simp [decideAgentComposeMode, decideComposeMode]

end EmailOps
