import EmailOps.Email.Approval

/-!
# What an approval sends

A held draft goes through the database: compose stores it (`stagedMessage`), and
the approval builds its request from the row (`approveReq`). Had the gate let it
through, compose would have built the request from the input (`directReq`).

* `SentAlike` is what the two requests share, whatever became of the direct one's
  threading headers.
* They do not share everything (`approval_drops_fields`): the footer is not put on
  what a human approves, and the threading headers are not stored.
* `approval_sends_what_was_composed` is the result for every input.
-/

namespace EmailOps

open Framework

/-! ### The two requests -/

/-- The request compose hands over when it sends an input itself: that of phase 1,
with the threading headers phase 1.5 resolved. -/
def directReq (mailbox : Option MailboxAccount) (footer : Option TransparencyFooter)
    (resolved : Option ReplyHeaders) (input : ComposeInput) : SendReq :=
  withReplyHeaders input resolved (composeReq mailbox footer input)

/-- Two requests with the same recipients, texts, attachments, threading and identity. -/
structure SameRequest (approved direct : SendReq) : Prop where
  fromAddress : approved.fromAddress = direct.fromAddress
  fromName : approved.fromName = direct.fromName
  toAddress : approved.toAddress = direct.toAddress
  toAddresses : approved.toAddresses = direct.toAddresses
  cc : approved.cc = direct.cc
  bcc : approved.bcc = direct.bcc
  subject : approved.subject = direct.subject
  body : approved.body = direct.body
  bodyHtml : approved.bodyHtml = direct.bodyHtml
  attachments : approved.attachments = direct.attachments
  inReplyTo : approved.inReplyTo = direct.inReplyTo
  references : approved.references = direct.references
  inReplyToThreadId : approved.inReplyToThreadId = direct.inReplyToThreadId

/-- The fields of an approved request that are those of the direct one. The direct
one's texts may carry a footer; attachments without a blob id are not stored. -/
structure SentAlike (footer : Option TransparencyFooter) (approved direct : SendReq) : Prop where
  fromAddress : approved.fromAddress = direct.fromAddress
  fromName : approved.fromName = direct.fromName
  toAddress : approved.toAddress = direct.toAddress
  toAddresses : approved.toAddresses = direct.toAddresses
  cc : approved.cc = direct.cc
  bcc : approved.bcc = direct.bcc
  subject : approved.subject = direct.subject
  body : direct.body = sendBody footer approved.body
  bodyHtml : direct.bodyHtml = sendBodyHtml footer approved.bodyHtml
  inReplyToThreadId : approved.inReplyToThreadId = direct.inReplyToThreadId
  transactional : approved.transactional = direct.transactional
  attachments : approved.attachments.getD [] =
    (direct.attachments.getD []).filter (·.blobId ≠ [])

/-- Phase 1.5 touches the threading headers only. -/
theorem SentAlike.withReplyHeaders {footer : Option TransparencyFooter} {approved direct : SendReq}
    (h : SentAlike footer approved direct) (input : ComposeInput)
    (resolved : Option ReplyHeaders) :
    SentAlike footer approved (EmailOps.withReplyHeaders input resolved direct) := by
  unfold EmailOps.withReplyHeaders
  split
  · exact ⟨h.fromAddress, h.fromName, h.toAddress, h.toAddresses, h.cc, h.bcc, h.subject, h.body,
      h.bodyHtml, h.inReplyToThreadId, h.transactional, h.attachments⟩
  · exact h

/-- **The round trip through the row.** A request built from a stored draft is like the
one built from the input, when both name the same mailbox. -/
theorem sentAlike_staged (workspaceId id : String) (mailbox : Option MailboxAccount)
    (footer : Option TransparencyFooter) (input : ComposeInput) :
    SentAlike footer (approveReq mailbox (stagedMessage workspaceId id mailbox input))
      (composeReq mailbox footer input) := by
  refine ⟨?_, rfl, rfl, rfl, rfl, rfl, rfl, rfl, rfl, rfl, rfl, ?_⟩
  · cases mailbox <;> rfl
  · show (parseStoredAttachments (storedAttachments input.attachments)).getD [] =
      ((nonEmpty (sendAttachments input.attachments)).getD []).filter (·.blobId ≠ [])
    rw [parseStoredAttachments_stored, nonEmpty_getD, nonEmpty_getD]

/-! ### The mailbox of an approval -/

/-- The ids of the mailbox table: primary keys, none empty. -/
structure MailboxIds (settings : Settings) : Prop where
  unique : ∀ m ∈ settings.mailboxes, ∀ m' ∈ settings.mailboxes, m.id = m'.id → m = m'
  nonempty : ∀ m ∈ settings.mailboxes, m.id ≠ ""

theorem mem_of_findMailbox {settings : Settings} {workspaceId id : String} {m : MailboxAccount}
    (h : findMailbox settings workspaceId id = some m) :
    m ∈ settings.mailboxes ∧ m.id = id ∧ m.workspaceId = workspaceId := by
  have hfound := List.find?_some h
  rw [Bool.and_eq_true] at hfound
  exact ⟨List.mem_of_find?_eq_some h, of_decide_eq_true hfound.1, of_decide_eq_true hfound.2⟩

theorem mem_of_defaultMailbox {settings : Settings} {workspaceId : String} {m : MailboxAccount}
    (h : defaultMailbox settings workspaceId = some m) :
    m ∈ settings.mailboxes ∧ m.workspaceId = workspaceId := by
  rcases Option.or_eq_some_iff.mp h with h | ⟨-, h⟩
  all_goals
    have hfound := List.find?_some h
    simp only [Bool.and_eq_true, decide_eq_true_eq] at hfound
  · exact ⟨List.mem_of_find?_eq_some h, hfound.1.1⟩
  · exact ⟨List.mem_of_find?_eq_some h, hfound.1⟩

/-- Without an agent's mailbox, a compose falls back to the default one. -/
theorem resolveSendMailbox_cases (settings : Settings) (workspaceId : String)
    (agent : Option Agent) :
    resolveSendMailbox settings workspaceId agent = defaultMailbox settings workspaceId ∨
      ∃ id m, findMailbox settings workspaceId id = some m ∧
        resolveSendMailbox settings workspaceId agent = some m := by
  unfold resolveSendMailbox
  split
  · exact .inl rfl
  · exact .inl rfl
  · rename_i id _ _
    cases hfound : findMailbox settings workspaceId id with
    | none => exact .inl rfl
    | some m => exact .inr ⟨id, m, hfound, rfl⟩

/-- The mailbox a compose resolves is a row of its workspace, or it resolves none
because there is none. -/
theorem composeMailbox_ok {settings : Settings} {workspaceId : String} {ucUid : Option String}
    {agent : Option Agent} {input : ComposeInput} {mailbox : Option MailboxAccount}
    (h : composeMailbox settings workspaceId ucUid agent input = .ok mailbox) :
    (mailbox = none ∧ defaultMailbox settings workspaceId = none) ∨
      ∃ m, mailbox = some m ∧ m ∈ settings.mailboxes ∧ m.workspaceId = workspaceId := by
  unfold composeMailbox at h
  simp only at h
  split at h
  · -- The input names a mailbox, and the caller may use it.
    rename_i m hexplicit
    split at h
    · cases h
      split at hexplicit
      · cases hexplicit
      · cases hexplicit
      · obtain ⟨hmem, -, hworkspace⟩ := mem_of_findMailbox hexplicit
        exact .inr ⟨m, rfl, hmem, hworkspace⟩
    · cases h
  · cases h
    -- The agent's mailbox, or the default one of the workspace.
    rcases resolveSendMailbox_cases settings workspaceId agent with heq | ⟨id, m, hfound, heq⟩
    · rw [heq]
      cases hdefault : defaultMailbox settings workspaceId with
      | none => exact .inl ⟨rfl, rfl⟩
      | some m =>
        obtain ⟨hmem, hworkspace⟩ := mem_of_defaultMailbox hdefault
        exact .inr ⟨m, rfl, hmem, hworkspace⟩
    · obtain ⟨hmem, -, hworkspace⟩ := mem_of_findMailbox hfound
      exact .inr ⟨m, heq, hmem, hworkspace⟩

/-- An approval finds the mailbox the draft was staged with. -/
theorem approveMailbox_staged {settings : Settings} (hids : MailboxIds settings)
    {workspaceId id : String} {ucUid : Option String} {agent : Option Agent} {input : ComposeInput}
    {mailbox : Option MailboxAccount}
    (h : composeMailbox settings workspaceId ucUid agent input = .ok mailbox) :
    approveMailbox settings workspaceId (stagedMessage workspaceId id mailbox input) = mailbox := by
  rcases composeMailbox_ok h with ⟨rfl, hdefault⟩ | ⟨m, rfl, hmem, hworkspace⟩
  · exact hdefault
  · have hid := hids.nonempty m hmem
    unfold approveMailbox
    split
    · rename_i heq
      cases heq
    · rename_i heq
      exact absurd (Option.some.inj heq) hid
    · rename_i id' _ heq
      cases heq
      -- The row is found under its own id, and no other has it.
      cases hfound : findMailbox settings workspaceId m.id with
      | none =>
        have hnot := List.find?_eq_none.mp hfound m hmem
        simp [hworkspace] at hnot
      | some m' =>
        obtain ⟨hmem', hid', -⟩ := mem_of_findMailbox hfound
        rw [hids.unique m' hmem' m hmem hid']

/-! ### The two lanes compared -/

theorem approveMailbox_congr {settings settings' : Settings}
    (h : settings'.mailboxes = settings.mailboxes) (workspaceId : String) (msg : EmailMessage) :
    approveMailbox settings' workspaceId msg = approveMailbox settings workspaceId msg := by
  unfold approveMailbox findMailbox defaultMailbox
  rw [h]

/-- The footer of the request compose would hand over. -/
def composedFooter [CaseMapping] (env : Env) (db : Db) (lookupsFail : Bool) (workspaceId : String)
    (mailbox : Option MailboxAccount) (input : ComposeInput) : Option TransparencyFooter :=
  let agent := resolveAgent db.settings workspaceId input
  carriedFooter agent (composeContext env db lookupsFail workspaceId agent mailbox input) input

/-- **An approval sends what was composed.** A compose is staged, and later, with the
same mailboxes, the item and its row as they were staged, an approval sends it. Its
request is like the one compose would have handed over directly, whatever the
threading headers of that would have been. -/
theorem approval_sends_what_was_composed [CaseMapping] {env : Env} {db db' : Db} {fail : Bool}
    {ws : String} {ucUid approver draftedBy : Option String} {input : ComposeInput} {ids : NewIds}
    {msg : EmailMessage} {item : AgentInboxItem} {plan : SendPlan}
    (hids : MailboxIds db.settings)
    (hstage : composePlan env db fail ws ucUid input ids = .ok (.stage msg item))
    (hmailboxes : db'.settings.mailboxes = db.settings.mailboxes)
    (hitem : findItem db' ws item.id = some item) (hmsg : itemMessage db' item = some msg)
    (happrove : approvePlan db' ws approver item.id = .ok (.send item.id draftedBy plan))
    (resolved : Option ReplyHeaders) :
    composeMailbox db.settings ws ucUid (resolveAgent db.settings ws input) input =
        .ok plan.mailbox ∧
      SentAlike (composedFooter env db fail ws plan.mailbox input) plan.req
        (directReq plan.mailbox (composedFooter env db fail ws plan.mailbox input) resolved
          input) := by
  obtain ⟨mailbox, hmailbox, -, hrow, -⟩ := composePlan_stage hstage
  obtain ⟨-, item', msg', hitem', -, hmsg', -, hplan, hreq⟩ := approvePlan_send happrove
  -- The approval reads the item and the row that were staged.
  obtain rfl : item = item' := Option.some.inj (hitem.symm.trans hitem')
  obtain rfl : msg = msg' := Option.some.inj (hmsg.symm.trans hmsg')
  have hsame : approveMailbox db'.settings ws msg = mailbox := by
    rw [approveMailbox_congr hmailboxes, hrow]
    exact approveMailbox_staged hids hmailbox
  rw [hsame] at hplan hreq
  rw [hplan, hreq, hrow]
  exact ⟨hmailbox, (sentAlike_staged ws ids.messageId mailbox _ input).withReplyHeaders input
    resolved⟩

/-! A workspace with one agent mailbox, and an agent whose mail to the outside is held:
a reply with a footer and a chain of references. -/

private def heldDb : Db where
  settings :=
    { agents := [⟨"a", "ws", "perry", true, false, .l1ApproveToSend, .null, some "mb"⟩]
      mailboxes := [⟨"mb", "ws", "perry@example.org".toList, none, true, true, true, "james",
        .agent, none⟩] }

private def heldEnv : Env where
  trustedComposeSources := []
  autonomousSendEnabled := true

private def heldInput : ComposeInput where
  toAddress := "ada@example.net".toList
  subject := "Hello".toList
  body := "Hi.".toList
  mode := .send
  externalSource := "perry"
  externalRef := "r"
  cc := ["bob@example.net".toList]
  attachments := [⟨"b1".toList, "a.pdf".toList, "application/pdf".toList⟩]
  references := ["<1@example.net>".toList]
  transparencyFooter := some ⟨" Sent by an agent.".toList, []⟩

private def heldMessage : EmailMessage :=
  stagedMessage "ws" "m" heldDb.settings.mailboxes.head? heldInput

private def heldItem : AgentInboxItem :=
  stagedItem "ws" "i" "m" heldDb.settings.agents.head?
    (composeDecision heldEnv heldDb false "ws" heldDb.settings.agents.head?
      heldDb.settings.mailboxes.head? heldInput) heldInput

private def stagedDb : Db := { heldDb with messages := [heldMessage], inbox := [heldItem] }

private theorem heldDb_ids : MailboxIds heldDb.settings := by
  refine ⟨fun m hm m' hm' _ => ?_, fun m hm => ?_⟩
  · rw [List.mem_singleton.mp hm, List.mem_singleton.mp hm']
  · rw [List.mem_singleton.mp hm]
    decide

/-- The reply is staged and approved; the approved request goes to the composed
addresses, with the composed attachment. -/
theorem approval_sends_what_was_composed_reply :
    ∃ plan : SendPlan, approvePlan stagedDb "ws" none "i" = .ok (.send "i" (some "perry") plan) ∧
      plan.req.cc = some ["bob@example.net".toList] ∧
      SentAlike (composedFooter heldEnv heldDb false "ws" plan.mailbox heldInput) plan.req
        (directReq plan.mailbox (composedFooter heldEnv heldDb false "ws" plan.mailbox heldInput)
          none heldInput) := by
  have hstage : composePlan heldEnv heldDb false "ws" none heldInput ⟨"m", "i"⟩ =
      .ok (.stage heldMessage heldItem) := rfl
  obtain ⟨plan, happrove, hcc⟩ : ∃ plan : SendPlan,
      approvePlan stagedDb "ws" none heldItem.id = .ok (.send heldItem.id (some "perry") plan) ∧
        plan.req.cc = some ["bob@example.net".toList] := ⟨_, rfl, rfl⟩
  have hsent := approval_sends_what_was_composed heldDb_ids hstage
    (rfl : stagedDb.settings.mailboxes = heldDb.settings.mailboxes) rfl rfl happrove none
  exact ⟨plan, happrove, hcc, hsent.2⟩

/-- **Not every field survives.** The direct request of the reply carries a footer and
the chain of references; the approved one carries neither. -/
theorem approval_drops_fields :
    ¬∀ (env : Env) (db db' : Db) (fail : Bool) (ws : String) (ucUid approver draftedBy : Option String)
      (input : ComposeInput) (ids : NewIds) (msg : EmailMessage) (item : AgentInboxItem)
      (plan : SendPlan) (resolved : Option ReplyHeaders), MailboxIds db.settings →
      composePlan env db fail ws ucUid input ids = .ok (.stage msg item) →
      db'.settings.mailboxes = db.settings.mailboxes →
      findItem db' ws item.id = some item → itemMessage db' item = some msg →
      approvePlan db' ws approver item.id = .ok (.send item.id draftedBy plan) →
      SameRequest plan.req
        (directReq plan.mailbox (composedFooter env db fail ws plan.mailbox input) resolved
          input) := by
  intro hclaim
  have hsame := hclaim heldEnv heldDb stagedDb false "ws" none none (some "perry") heldInput
    ⟨"m", "i"⟩ heldMessage heldItem _ none heldDb_ids rfl rfl rfl rfl rfl
  have hreferences : (none : Option (List Text)) = some ["<1@example.net>".toList] :=
    hsame.references
  cases hreferences

end EmailOps
