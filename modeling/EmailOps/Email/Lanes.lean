import EmailOps.Framework.AddressList
import EmailOps.Email.Compose

/-!
# The lanes of the mail engine

`callEngine` hands a send request to one of several lanes: the provider lane of a Gmail
or Microsoft 365 mailbox, or the configured mail engine, James or Stalwart, each of
which submits by JMAP or through Postmark. Every lane builds a request of its own for
the outside, and answers with what came back.

* `ProviderRequest` is what leaves the service.
* `JamesClient.send`, `StalwartClient.send` and `EngineMailProvider.send` build it;
  `callEngine` chooses among them, and `laneOf` names the choice.
* `handedOut_of_callEngine` says what was handed out, and `callEngine_honest` that an
  accepted send did hand something out.
-/

namespace EmailOps

open Framework Text

/-! ### What leaves the service -/

/-- The body of a Postmark call. -/
structure PostmarkEmail where
  fromHeader : Text
  toField : Text
  cc : Option Text
  bcc : Option Text
  subject : Text
  textBody : Text
  htmlBody : Option Text
  headers : List Header

/-- The `Email/set` of a JMAP submission; each recipient is an address object. -/
structure JmapEmail where
  fromEmail : Text
  fromName : Option Text
  toField : List Text
  cc : List Text
  bcc : List Text
  subject : Text
  body : Text
  html : Option Text
  inReplyTo : Option (List Text)
  references : Option (List Text)
  headers : List Header
  attachments : List SendAttachment

/-- The MIME message of a Gmail send. -/
structure GmailMessage where
  fromHeader : Option Text
  toField : Text
  subject : Text
  content : Text
  headers : List Header
  threadId : Option String

/-- The message of a Graph `sendMail`. -/
structure GraphMessage where
  fromAddress : Option Text
  toRecipients : List Text
  subject : Text
  content : Text

inductive ProviderRequest where
  | postmark (r : PostmarkEmail)
  | jmap (r : JmapEmail)
  | gmail (r : GmailMessage)
  | graph (r : GraphMessage)

/-- A lane's work: what it handed out, if anything, and its answer. -/
structure Sent where
  handedOut : Option ProviderRequest
  result : EngineSendResult

/-- The answer of a send that was not accepted. -/
def notSent (req : SendReq) (lane : Option String) (reason : Option String) : EngineSendResult :=
  ⟨false, none, req.inReplyToThreadId, lane, reason⟩

/-! ### Parts of a request -/

/-- A nullable text, absent when it is empty. -/
def truthyText (t : Option Text) : Option Text :=
  t.filter (· ≠ [])

/-- The recipients of the `To` field: the list when there is one, else the single
address. -/
def SendReq.toEntries (req : SendReq) : List Text :=
  match req.toAddresses with
  | none | some [] => [req.toAddress]
  | some ts => ts

def SendReq.ccEntries (req : SendReq) : List Text :=
  req.cc.getD []

def SendReq.bccEntries (req : SendReq) : List Text :=
  req.bcc.getD []

/-- A message id in angle brackets. -/
def angleWrap (id : Text) : Text :=
  match trim id with
  | '<' :: rest => '<' :: rest
  | trimmed => '<' :: trimmed ++ ['>']

/-- `id.replace(/^<|>$/g, '')`. -/
def bareId (id : Text) : Text :=
  let opened := match id with
    | '<' :: rest => rest
    | id => id
  if opened.getLast? = some '>' then opened.dropLast else opened

/-- The threading headers a request calls for. -/
def SendReq.threadingHeaders (req : SendReq) : List Header :=
  ((truthyText req.inReplyTo).map fun id => ⟨"In-Reply-To".toList, angleWrap id⟩).toList ++
    (match req.references with
      | none | some [] => []
      | some refs => [⟨"References".toList, join [' '] (refs.map angleWrap)⟩])

/-- The threading properties a request calls for in JMAP. -/
def SendReq.jmapInReplyTo (req : SendReq) : Option (List Text) :=
  (truthyText req.inReplyTo).map fun id => [bareId id]

def SendReq.jmapReferences (req : SendReq) : Option (List Text) :=
  match req.references with
  | none | some [] => none
  | some refs => some (refs.map bareId)

/-- `${fromName} <${fromAddress}>`, or the bare address. -/
def SendReq.fromHeader (req : SendReq) : Text :=
  match truthyText req.fromName with
  | some name => name ++ " <".toList ++ req.fromAddress ++ ">".toList
  | none => req.fromAddress

/-- Joined header values; an empty list has none. -/
def joinedHeader (ts : List Text) : Option Text :=
  if ts = [] then none else some (join ", ".toList ts)

/-! ### What the outside answers -/

inductive PostmarkAnswer where
  | transportError (message : String)
  | http (status : ℕ)
  | ok (messageId : Option String)

/-- The created message a JMAP submission answers with. -/
structure JmapCreated where
  id : Option String
  threadId : Option String

/-- The answers of James on the way to a submission: whether it knows the sending
identity and a mailbox to stage in, and what the submission returned. -/
structure JamesAnswer where
  identity : Bool
  stageMailbox : Bool
  submission : Option JmapCreated

/-- The answers of a provider, and why there may be none. -/
inductive ProviderAnswer where
  | notConnected
  | engineUnavailable
  | providerUnavailable
  | sendFailed
  /-- Gmail's, with the message id it found for the thread. -/
  | gmail (reference : Option Text) (id threadId : Option String)
  /-- The status of a Graph call. -/
  | graph (status : ℕ)

/-- All that a send may be answered. -/
structure Answers where
  postmark : PostmarkAnswer
  james : JamesAnswer
  stalwart : Option JmapCreated
  provider : ProviderAnswer

/-! ### Postmark and JMAP -/

/-- What a Postmark call answers. -/
def postmarkResult (req : SendReq) : PostmarkAnswer → EngineSendResult
  | .transportError message => notSent req (some "postmark") (some message)
  | .http status => notSent req (some "postmark") (some s!"HTTP {status}")
  | .ok messageId => ⟨true, messageId, req.inReplyToThreadId, some "postmark", none⟩

/-- What a JMAP submission answers. -/
def jmapResult (req : SendReq) (lane : String) : Option JmapCreated → EngineSendResult
  | none => notSent req (some lane) (some (lane ++ " submission failed (no response)"))
  | some created =>
    ⟨created.id.isSome, created.id, created.threadId.or req.inReplyToThreadId, some lane,
      if created.id.isSome then none else some (lane ++ " submission returned no id")⟩

/-- Which engine is configured, and which of its lanes. -/
inductive EngineKind where
  | james | stalwart
  deriving DecidableEq

structure EngineConfig where
  kind : EngineKind
  postmarkConfigured : Bool
  jmapConfigured : Bool

namespace JamesClient

/-- The Postmark lane of James carries everything but attachments. -/
def postmarkEmail (req : SendReq) : PostmarkEmail where
  fromHeader := req.fromHeader
  toField := join ", ".toList req.toEntries
  cc := joinedHeader req.ccEntries
  bcc := joinedHeader req.bccEntries
  subject := req.subject
  textBody := req.body
  htmlBody := truthyText req.bodyHtml
  headers := req.threadingHeaders ++ req.headers

def jmapEmail (req : SendReq) : JmapEmail where
  fromEmail := req.fromAddress
  fromName := req.fromName
  toField := req.toEntries
  cc := req.ccEntries
  bcc := req.bccEntries
  subject := req.subject
  body := req.body
  html := truthyText req.bodyHtml
  inReplyTo := req.jmapInReplyTo
  references := req.jmapReferences
  headers := req.headers
  attachments := req.attachments.getD []

def sendViaPostmark (answer : PostmarkAnswer) (req : SendReq) : Sent :=
  ⟨some (.postmark (postmarkEmail req)), postmarkResult req answer⟩

def sendViaJames (answer : JamesAnswer) (req : SendReq) : Sent :=
  if !answer.identity then
    ⟨none, notSent req (some "james") (some "no James sending identity for from-address")⟩
  else if !answer.stageMailbox then
    ⟨none, notSent req (some "james") (some "no James mailbox to stage the outbound message")⟩
  else ⟨some (.jmap (jmapEmail req)), jmapResult req "james" answer.submission⟩

/-- Postmark, except for attachments, which only the JMAP lane carries. -/
def send (config : EngineConfig) (answers : Answers) (req : SendReq) : Sent :=
  let hasAttachments := (req.attachments.getD []) ≠ []
  if config.postmarkConfigured && !hasAttachments then sendViaPostmark answers.postmark req
  else if config.jmapConfigured then sendViaJames answers.james req
  else if config.postmarkConfigured then
    ⟨none, notSent req none
      (some "attachments require the JMAP lane, but JAMES_JMAP_URL is not configured")⟩
  else
    ⟨none, notSent req none
      (some "mail engine not configured (JAMES_JMAP_URL + POSTMARK_SERVER_TOKEN unset)")⟩

end JamesClient

namespace StalwartClient

/-- Unlike that of James, without cc, bcc and threading. -/
def postmarkEmail (req : SendReq) : PostmarkEmail where
  fromHeader := req.fromHeader
  toField := join ", ".toList req.toEntries
  cc := none
  bcc := none
  subject := req.subject
  textBody := req.body
  htmlBody := truthyText req.bodyHtml
  headers := req.headers

def jmapEmail (req : SendReq) : JmapEmail where
  fromEmail := req.fromAddress
  fromName := req.fromName
  toField := req.toEntries
  cc := []
  bcc := []
  subject := req.subject
  body := req.body
  html := truthyText req.bodyHtml
  inReplyTo := none
  references := none
  headers := req.headers
  attachments := []

def sendViaPostmark (answer : PostmarkAnswer) (req : SendReq) : Sent :=
  ⟨some (.postmark (postmarkEmail req)), postmarkResult req answer⟩

def sendViaStalwart (answer : Option JmapCreated) (req : SendReq) : Sent :=
  ⟨some (.jmap (jmapEmail req)), jmapResult req "stalwart" answer⟩

/-- No attachments; a transactional send goes through Postmark. -/
def send (config : EngineConfig) (answers : Answers) (req : SendReq) (transactional : Bool) : Sent :=
  if (req.attachments.getD []) ≠ [] then
    ⟨none, notSent req none
      (some "the Stalwart engine cannot carry attachments — nothing was sent")⟩
  else if transactional && config.postmarkConfigured then sendViaPostmark answers.postmark req
  else if config.jmapConfigured then sendViaStalwart answers.stalwart req
  else
    ⟨none, notSent req none
      (some "mail engine not configured (STALWART_* + POSTMARK_SERVER_TOKEN unset)")⟩

end StalwartClient

/-! ### The provider lane -/

/-- The threading headers Gmail's client adds, of the message it found in the
thread. -/
def gmailHeaders (reference : Option Text) : List Header :=
  match truthyText reference with
  | some id => [⟨"In-Reply-To".toList, id⟩, ⟨"References".toList, id⟩]
  | none => []

def gmailMessage (reference : Option Text) (req : SendReq) : GmailMessage where
  fromHeader := truthyText (some req.fromAddress)
  toField := req.toAddress
  subject := req.subject
  content := req.body
  headers := if truthy req.inReplyToThreadId then gmailHeaders reference else []
  threadId := req.inReplyToThreadId.filter (· ≠ "")

def graphMessage (req : SendReq) : GraphMessage where
  fromAddress := truthyText (some req.fromAddress)
  toRecipients := [req.toAddress]
  subject := req.subject
  content := req.body

def EngineMailProvider.handles (provider : String) : Bool :=
  provider = "gmail" || provider = "microsoft"

/-- Resolve the account, and send through the provider's client. The request is handed
out when the client is reached and does not fail before. -/
def EngineMailProvider.send (provider : String) (answer : ProviderAnswer) (req : SendReq) : Sent :=
  let refused (reason : String) : EngineSendResult := ⟨false, none, none, none, some reason⟩
  match answer with
  | .notConnected => ⟨none, refused "account_not_connected"⟩
  | .engineUnavailable => ⟨none, refused "engine_unavailable"⟩
  | .providerUnavailable => ⟨none, refused "provider_unavailable"⟩
  | .sendFailed => ⟨none, refused "send_failed"⟩
  | .gmail reference id threadId =>
    if provider = "gmail" then
      ⟨some (.gmail (gmailMessage reference req)),
        ⟨true, id, threadId.or req.inReplyToThreadId, some provider, none⟩⟩
    else ⟨none, refused "send_failed"⟩
  | .graph status =>
    if provider = "microsoft" then
      if status = 200 ∨ status = 202 then
        ⟨some (.graph (graphMessage req)),
          ⟨true, none, req.inReplyToThreadId, some provider, none⟩⟩
      else ⟨some (.graph (graphMessage req)), refused s!"graph_status_{status}"⟩
    else ⟨none, refused "send_failed"⟩

/-! ### The choice of the lane -/

/-- The mailbox, when an external provider sends for it. -/
def providerMailbox (mailbox : Option MailboxAccount) : Option MailboxAccount :=
  mailbox.filter fun m => EngineMailProvider.handles m.provider

/-- Hand a request to its lane. -/
def callEngine (config : EngineConfig) (mailbox : Option MailboxAccount) (answers : Answers)
    (req : SendReq) : Sent :=
  match providerMailbox mailbox with
  | some m =>
    if (req.attachments.getD []) ≠ [] then
      ⟨none, notSent req none (some ("attachments are not supported for " ++ m.provider ++
        " sends yet — nothing was sent"))⟩
    else EngineMailProvider.send m.provider answers.provider req
  | none =>
    match config.kind with
    | .james => JamesClient.send config answers req
    | .stalwart => StalwartClient.send config answers req req.transactional

/-- The lanes a request can be accepted on. -/
inductive Lane where
  | jamesPostmark | jamesJmap | stalwartPostmark | stalwartJmap | gmail | microsoft
  deriving DecidableEq, Repr

/-- The lane of a request, when one is configured that takes it. -/
def laneOf (config : EngineConfig) (mailbox : Option MailboxAccount) (req : SendReq) :
    Option Lane :=
  let hasAttachments := (req.attachments.getD []) ≠ []
  match providerMailbox mailbox with
  | some m =>
    if hasAttachments then none
    else if m.provider = "gmail" then some .gmail
    else some .microsoft
  | none =>
    match config.kind with
    | .james =>
      if config.postmarkConfigured && !hasAttachments then some .jamesPostmark
      else if config.jmapConfigured then some .jamesJmap
      else none
    | .stalwart =>
      if hasAttachments then none
      else if req.transactional && config.postmarkConfigured then some .stalwartPostmark
      else if config.jmapConfigured then some .stalwartJmap
      else none

/-- The message id Gmail found in the thread. -/
def ProviderAnswer.reference : ProviderAnswer → Option Text
  | .gmail reference _ _ => reference
  | _ => none

/-- What a lane hands out for a request. -/
def Lane.request (reference : Option Text) (req : SendReq) : Lane → ProviderRequest
  | .jamesPostmark => .postmark (JamesClient.postmarkEmail req)
  | .jamesJmap => .jmap (JamesClient.jmapEmail req)
  | .stalwartPostmark => .postmark (StalwartClient.postmarkEmail req)
  | .stalwartJmap => .jmap (StalwartClient.jmapEmail req)
  | .gmail => .gmail (gmailMessage reference req)
  | .microsoft => .graph (graphMessage req)

section HandedOut

variable {config : EngineConfig} {mailbox : Option MailboxAccount} {answers : Answers}
  {req : SendReq} {r : ProviderRequest}

theorem handedOut_of_james (h : (JamesClient.send config answers req).handedOut = some r)
    (hm : providerMailbox mailbox = none) (hk : config.kind = .james) :
    ∃ lane, laneOf config mailbox req = some lane ∧
      r = lane.request answers.provider.reference req := by
  unfold laneOf
  rw [hm, hk]
  unfold JamesClient.send at h
  simp only at h ⊢
  split at h
  · rename_i hpostmark
    rw [if_pos hpostmark]
    exact ⟨.jamesPostmark, rfl, (Option.some.inj h).symm⟩
  · rename_i hpostmark
    rw [if_neg hpostmark]
    split at h
    · rename_i hjmap
      rw [if_pos hjmap]
      refine ⟨.jamesJmap, rfl, ?_⟩
      unfold JamesClient.sendViaJames at h
      split at h
      · cases h
      · split at h
        · cases h
        · exact (Option.some.inj h).symm
    · split at h <;> cases h

theorem handedOut_of_stalwart
    (h : (StalwartClient.send config answers req req.transactional).handedOut = some r)
    (hm : providerMailbox mailbox = none) (hk : config.kind = .stalwart) :
    ∃ lane, laneOf config mailbox req = some lane ∧
      r = lane.request answers.provider.reference req := by
  unfold laneOf
  rw [hm, hk]
  unfold StalwartClient.send at h
  simp only at h ⊢
  split at h
  · cases h
  · rename_i hattached
    rw [if_neg hattached]
    split at h
    · rename_i hpostmark
      rw [if_pos hpostmark]
      exact ⟨.stalwartPostmark, rfl, (Option.some.inj h).symm⟩
    · rename_i hpostmark
      rw [if_neg hpostmark]
      split at h
      · rename_i hjmap
        rw [if_pos hjmap]
        exact ⟨.stalwartJmap, rfl, (Option.some.inj h).symm⟩
      · cases h

theorem handedOut_of_provider {m : MailboxAccount}
    (h : (EngineMailProvider.send m.provider answers.provider req).handedOut = some r)
    (hm : providerMailbox mailbox = some m) (hattached : ¬(req.attachments.getD []) ≠ []) :
    ∃ lane, laneOf config mailbox req = some lane ∧
      r = lane.request answers.provider.reference req := by
  unfold laneOf
  rw [hm]
  unfold EngineMailProvider.send at h
  simp only at h ⊢
  rw [if_neg hattached]
  -- Only the answers of a provider that was reached come with a request.
  cases hanswer : answers.provider with
  | gmail reference id threadId =>
    simp only [hanswer] at h
    split at h
    · rename_i hgmail
      rw [if_pos hgmail]
      exact ⟨.gmail, rfl, (Option.some.inj h).symm⟩
    · cases h
  | graph status =>
    simp only [hanswer] at h
    split at h
    · rename_i hmicrosoft
      have hgmail : ¬m.provider = "gmail" := by simp [hmicrosoft]
      rw [if_neg hgmail]
      refine ⟨.microsoft, rfl, ?_⟩
      split at h <;> exact (Option.some.inj h).symm
    · cases h
  | _ =>
    simp only [hanswer] at h
    cases h

/-- **What a send hands out** is the request of its lane. -/
theorem handedOut_of_callEngine (h : (callEngine config mailbox answers req).handedOut = some r) :
    ∃ lane, laneOf config mailbox req = some lane ∧
      r = lane.request answers.provider.reference req := by
  unfold callEngine at h
  cases hm : providerMailbox mailbox with
  | some m =>
    simp only [hm] at h
    split at h
    · cases h
    · rename_i hattached
      exact handedOut_of_provider h hm hattached
  | none =>
    simp only [hm] at h
    cases hk : config.kind with
    | james =>
      simp only [hk] at h
      exact handedOut_of_james h hm hk
    | stalwart =>
      simp only [hk] at h
      exact handedOut_of_stalwart h hm hk

end HandedOut

/-- The answer of a lane is honest about what it did not do: accepted, it has handed
something out. -/
def Sent.Honest (sent : Sent) : Prop :=
  sent.result.accepted = true → ∃ r, sent.handedOut = some r

section Honest

variable (config : EngineConfig) (mailbox : Option MailboxAccount) (answers : Answers)
  (req : SendReq)

theorem Sent.honest_of_handedOut {sent : Sent} {r : ProviderRequest}
    (h : sent.handedOut = some r) : sent.Honest :=
  fun _ => ⟨r, h⟩

theorem Sent.honest_of_refused {sent : Sent} (h : sent.result.accepted = false) : sent.Honest := by
  intro haccepted
  rw [h] at haccepted
  cases haccepted

theorem JamesClient.send_honest : (JamesClient.send config answers req).Honest := by
  unfold JamesClient.send JamesClient.sendViaJames
  simp only
  split
  · exact Sent.honest_of_handedOut rfl
  · split
    · split
      · exact Sent.honest_of_refused rfl
      · split
        · exact Sent.honest_of_refused rfl
        · exact Sent.honest_of_handedOut rfl
    · split <;> exact Sent.honest_of_refused rfl

theorem StalwartClient.send_honest (transactional : Bool) :
    (StalwartClient.send config answers req transactional).Honest := by
  unfold StalwartClient.send
  split
  · exact Sent.honest_of_refused rfl
  · split
    · exact Sent.honest_of_handedOut rfl
    · split
      · exact Sent.honest_of_handedOut rfl
      · exact Sent.honest_of_refused rfl

theorem EngineMailProvider.send_honest (provider : String) (answer : ProviderAnswer) :
    (EngineMailProvider.send provider answer req).Honest := by
  unfold EngineMailProvider.send
  cases answer with
  | gmail reference id threadId =>
    simp only
    split
    · exact Sent.honest_of_handedOut rfl
    · exact Sent.honest_of_refused rfl
  | graph status =>
    simp only
    split
    · split <;> exact Sent.honest_of_handedOut rfl
    · exact Sent.honest_of_refused rfl
  | _ => exact Sent.honest_of_refused rfl

/-- **An accepted send was handed out**, on whichever lane. -/
theorem callEngine_honest : (callEngine config mailbox answers req).Honest := by
  unfold callEngine
  cases providerMailbox mailbox with
  | some m =>
    simp only
    split
    · exact Sent.honest_of_refused rfl
    · exact EngineMailProvider.send_honest req m.provider answers.provider
  | none =>
    simp only
    cases config.kind with
    | james => exact JamesClient.send_honest config answers req
    | stalwart => exact StalwartClient.send_honest config answers req req.transactional

end Honest

end EmailOps
