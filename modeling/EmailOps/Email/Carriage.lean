import EmailOps.Email.Lanes

/-!
# What an accepted send carries

A send request names recipients, an HTML body, threading headers and attachments. A lane
builds its own request from it, and what it leaves out is invisible to the caller: the
send is accepted all the same.

* `ProviderRequest.Carries` says that nothing was left out, and that every recipient
  stands for itself.
* `Lane.Fits` is the condition on the send request, lane by lane, and
  `Lane.carries_iff` that it is the exact one.
* `accepted_carries_iff` is the same about a whole call.

Recipients are counted as RFC 5322 reads the entries of the request: an entry that names
two mailboxes is two recipients.
-/

namespace EmailOps

open Framework Text AddressList

/-! ### The recipients of a list of entries -/

/-- The mailboxes that a list of entries names. -/
def named (entries : List Text) : List Text :=
  entries.flatMap mailboxes

@[simp] theorem named_nil : named [] = [] := rfl

@[simp] theorem named_singleton (t : Text) : named [t] = mailboxes t :=
  List.flatMap_singleton mailboxes t

/-- Joined in a header, the entries stay apart: no quote, comment or domain literal runs
on into the next one. -/
def StayApart (entries : List Text) : Prop :=
  ∀ t ∈ entries.dropLast, mailboxList.Closed t

/-- Each entry is a single mailbox. -/
def Single (entries : List Text) : Prop :=
  ∀ t ∈ entries, mailboxes t = [trim t]

instance (entries : List Text) : Decidable (StayApart entries) :=
  inferInstanceAs (Decidable (∀ t ∈ entries.dropLast, mailboxList.Closed t))

instance (entries : List Text) : Decidable (Single entries) :=
  inferInstanceAs (Decidable (∀ t ∈ entries, mailboxes t = [trim t]))

theorem mailboxes_join_iff (entries : List Text) :
    mailboxes (join ", ".toList entries) = named entries ↔ StayApart entries :=
  mailboxList.elements_join_iff entries

theorem map_trim_eq_named_iff (entries : List Text) :
    entries.map trim = named entries ↔ Single entries :=
  mailboxList.map_trim_eq_iff entries

theorem mailboxes_joinedHeader (entries : List Text) :
    (joinedHeader entries).elim [] mailboxes = mailboxes (join ", ".toList entries) := by
  unfold joinedHeader
  by_cases h : entries = []
  · rw [if_pos h, h]
    rfl
  · rw [if_neg h]
    rfl

/-! ### What a request to the outside carries -/

namespace ProviderRequest

/-- The mailboxes of the `To` field: those of a header, or the address objects. -/
def toMailboxes : ProviderRequest → List Text
  | .postmark r => mailboxes r.toField
  | .jmap r => r.toField.map trim
  | .gmail r => mailboxes r.toField
  | .graph r => r.toRecipients.map trim

def ccMailboxes : ProviderRequest → List Text
  | .postmark r => r.cc.elim [] mailboxes
  | .jmap r => r.cc.map trim
  | .gmail _ | .graph _ => []

def bccMailboxes : ProviderRequest → List Text
  | .postmark r => r.bcc.elim [] mailboxes
  | .jmap r => r.bcc.map trim
  | .gmail _ | .graph _ => []

def html : ProviderRequest → Option Text
  | .postmark r => r.htmlBody
  | .jmap r => r.html
  | .gmail _ | .graph _ => none

def attachments : ProviderRequest → List SendAttachment
  | .jmap r => r.attachments
  | .postmark _ | .gmail _ | .graph _ => []

/-- The threading a send request calls for, in the form of the lane. -/
def CarriesThreading (req : SendReq) : ProviderRequest → Prop
  | .postmark r => ∀ h ∈ req.threadingHeaders, h ∈ r.headers
  | .jmap r => r.inReplyTo = req.jmapInReplyTo ∧ r.references = req.jmapReferences
  | .gmail r => ∀ h ∈ req.threadingHeaders, h ∈ r.headers
  | .graph _ => req.threadingHeaders = []

/-- **Nothing is left out.** Every recipient of the send request is there, apart from
the others, and so are the HTML body, the threading and the attachments. -/
structure Carries (req : SendReq) (r : ProviderRequest) : Prop where
  recipients : r.toMailboxes = named req.toEntries
  cc : r.ccMailboxes = named req.ccEntries
  bcc : r.bccMailboxes = named req.bccEntries
  html : r.html = truthyText req.bodyHtml
  threading : r.CarriesThreading req
  attachments : r.attachments = req.attachments.getD []

end ProviderRequest

/-! ### What a lane has room for -/

/-- No cc and no bcc. -/
def SendReq.DirectOnly (req : SendReq) : Prop :=
  named req.ccEntries = [] ∧ named req.bccEntries = []

/-- The send requests that a lane carries whole. -/
def Lane.Fits (reference : Option Text) (req : SendReq) : Lane → Prop
  | .jamesPostmark =>
    StayApart req.toEntries ∧ StayApart req.ccEntries ∧ StayApart req.bccEntries
  | .jamesJmap => Single req.toEntries ∧ Single req.ccEntries ∧ Single req.bccEntries
  | .stalwartPostmark =>
    StayApart req.toEntries ∧ req.DirectOnly ∧ ∀ h ∈ req.threadingHeaders, h ∈ req.headers
  | .stalwartJmap => Single req.toEntries ∧ req.DirectOnly ∧ req.threadingHeaders = []
  | .gmail =>
    named req.toEntries = mailboxes req.toAddress ∧ req.DirectOnly ∧
      truthyText req.bodyHtml = none ∧
      -- The thread's own message id is all the threading there is.
      ∀ h ∈ req.threadingHeaders,
        truthy req.inReplyToThreadId = true ∧ truthyText reference = some h.value
  | .microsoft =>
    named req.toEntries = [trim req.toAddress] ∧ req.DirectOnly ∧
      truthyText req.bodyHtml = none ∧ req.threadingHeaders = []

/-- JMAP and the header form call for threading in the same cases. -/
theorem jmap_threading_iff (req : SendReq) :
    (none = req.jmapInReplyTo ∧ none = req.jmapReferences) ↔ req.threadingHeaders = [] := by
  unfold SendReq.jmapInReplyTo SendReq.jmapReferences SendReq.threadingHeaders
  rw [List.append_eq_nil_iff]
  refine and_congr ?_ ?_
  · cases truthyText req.inReplyTo <;> simp
  · match req.references with
    | none => simp
    | some [] => simp
    | some (_ :: _) => simp

/-- The names of the threading headers. -/
theorem name_of_mem_threadingHeaders {req : SendReq} {h : Header}
    (hmem : h ∈ req.threadingHeaders) :
    h.name = "In-Reply-To".toList ∨ h.name = "References".toList := by
  unfold SendReq.threadingHeaders at hmem
  rcases List.mem_append.mp hmem with hreply | hrefs
  · rw [Option.mem_toList, Option.map_eq_some_iff] at hreply
    obtain ⟨id, -, rfl⟩ := hreply
    exact .inl rfl
  · match hr : req.references with
    | none => simp [hr] at hrefs
    | some [] => simp [hr] at hrefs
    | some (_ :: _) =>
      rw [hr] at hrefs
      rw [List.mem_singleton.mp hrefs]
      exact .inr rfl

/-- A threading header is among Gmail's exactly when its value is the id Gmail found in
the thread. -/
theorem mem_gmailMessage_headers_iff {reference : Option Text} {req : SendReq} {h : Header}
    (hmem : h ∈ req.threadingHeaders) :
    h ∈ (gmailMessage reference req).headers ↔
      truthy req.inReplyToThreadId = true ∧ truthyText reference = some h.value := by
  obtain ⟨name, value⟩ := h
  show _ ∈ (if truthy req.inReplyToThreadId then gmailHeaders reference else []) ↔ _
  cases truthy req.inReplyToThreadId with
  | false => exact ⟨fun hin => absurd hin List.not_mem_nil, fun hthread => nomatch hthread.1⟩
  | true =>
    rw [if_pos rfl]
    unfold gmailHeaders
    cases truthyText reference with
    | none => exact ⟨fun hin => absurd hin List.not_mem_nil, fun hthread => nomatch hthread.2⟩
    | some id =>
      constructor
      · intro hin
        rcases List.mem_cons.mp hin with heq | hin
        · exact ⟨rfl, congrArg (some ·.value) heq.symm⟩
        · exact ⟨rfl, congrArg (some ·.value) (List.mem_singleton.mp hin).symm⟩
      · rintro ⟨-, hid⟩
        have hid : id = value := Option.some.inj hid
        rcases name_of_mem_threadingHeaders hmem with hname | hname
        · exact List.mem_cons.mpr (.inl (congrArg₂ Header.mk hname hid.symm))
        · exact List.mem_cons_of_mem _ (List.mem_singleton.mpr (congrArg₂ Header.mk hname hid.symm))

/-- Only the JMAP lane of James is given attachments. -/
theorem attachments_of_laneOf {config : EngineConfig} {mailbox : Option MailboxAccount}
    {req : SendReq} {lane : Lane} (h : laneOf config mailbox req = some lane)
    (hlane : lane ≠ .jamesJmap) : req.attachments.getD [] = [] := by
  by_contra hattached
  unfold laneOf at h
  simp only [ne_eq, hattached, not_false_eq_true, decide_true, Bool.not_true, Bool.and_false,
    if_true] at h
  split at h
  · cases h
  · split at h
    · rw [if_neg Bool.false_ne_true] at h
      split at h
      · exact hlane (Option.some.inj h).symm
      · cases h
    · cases h

/-- **A lane carries exactly what fits it.** -/
theorem Lane.carries_iff (reference : Option Text) {req : SendReq} (lane : Lane)
    (hattached : lane ≠ .jamesJmap → req.attachments.getD [] = []) :
    (lane.request reference req).Carries req ↔ lane.Fits reference req := by
  cases lane with
  | jamesPostmark =>
    constructor
    · intro h
      refine ⟨(mailboxes_join_iff _).mp h.recipients, (mailboxes_join_iff _).mp ?_,
        (mailboxes_join_iff _).mp ?_⟩
      · rw [← mailboxes_joinedHeader]
        exact h.cc
      · rw [← mailboxes_joinedHeader]
        exact h.bcc
    · rintro ⟨hto, hcc, hbcc⟩
      exact
        { recipients := (mailboxes_join_iff _).mpr hto
          cc := (mailboxes_joinedHeader _).trans ((mailboxes_join_iff _).mpr hcc)
          bcc := (mailboxes_joinedHeader _).trans ((mailboxes_join_iff _).mpr hbcc)
          html := rfl
          threading := fun h hh => List.mem_append_left _ hh
          attachments := (hattached (by decide)).symm }
  | jamesJmap =>
    constructor
    · intro h
      exact ⟨(map_trim_eq_named_iff _).mp h.recipients, (map_trim_eq_named_iff _).mp h.cc,
        (map_trim_eq_named_iff _).mp h.bcc⟩
    · rintro ⟨hto, hcc, hbcc⟩
      exact
        { recipients := (map_trim_eq_named_iff _).mpr hto
          cc := (map_trim_eq_named_iff _).mpr hcc
          bcc := (map_trim_eq_named_iff _).mpr hbcc
          html := rfl
          threading := ⟨rfl, rfl⟩
          attachments := rfl }
  | stalwartPostmark =>
    constructor
    · intro h
      exact ⟨(mailboxes_join_iff _).mp h.recipients, ⟨h.cc.symm, h.bcc.symm⟩, h.threading⟩
    · rintro ⟨hto, ⟨hcc, hbcc⟩, hthreading⟩
      exact
        { recipients := (mailboxes_join_iff _).mpr hto
          cc := hcc.symm
          bcc := hbcc.symm
          html := rfl
          threading := hthreading
          attachments := (hattached (by decide)).symm }
  | stalwartJmap =>
    constructor
    · intro h
      exact ⟨(map_trim_eq_named_iff _).mp h.recipients, ⟨h.cc.symm, h.bcc.symm⟩,
        (jmap_threading_iff req).mp h.threading⟩
    · rintro ⟨hto, ⟨hcc, hbcc⟩, hthreading⟩
      exact
        { recipients := (map_trim_eq_named_iff _).mpr hto
          cc := hcc.symm
          bcc := hbcc.symm
          html := rfl
          threading := (jmap_threading_iff req).mpr hthreading
          attachments := (hattached (by decide)).symm }
  | gmail =>
    constructor
    · intro h
      exact ⟨h.recipients.symm, ⟨h.cc.symm, h.bcc.symm⟩, h.html.symm,
        fun header hmem => (mem_gmailMessage_headers_iff hmem).mp (h.threading header hmem)⟩
    · rintro ⟨hto, ⟨hcc, hbcc⟩, hhtml, hthreading⟩
      exact
        { recipients := hto.symm
          cc := hcc.symm
          bcc := hbcc.symm
          html := hhtml.symm
          threading := fun header hmem =>
            (mem_gmailMessage_headers_iff hmem).mpr (hthreading header hmem)
          attachments := (hattached (by decide)).symm }
  | microsoft =>
    constructor
    · intro h
      exact ⟨h.recipients.symm, ⟨h.cc.symm, h.bcc.symm⟩, h.html.symm, h.threading⟩
    · rintro ⟨hto, ⟨hcc, hbcc⟩, hhtml, hthreading⟩
      exact
        { recipients := hto.symm
          cc := hcc.symm
          bcc := hbcc.symm
          html := hhtml.symm
          threading := hthreading
          attachments := (hattached (by decide)).symm }

/-! ### Accepted sends -/

/-- **An accepted send left nothing out** exactly when the request fits the lane it
took. -/
theorem accepted_carries_iff {config : EngineConfig} {mailbox : Option MailboxAccount}
    {answers : Answers} {req : SendReq}
    (h : (callEngine config mailbox answers req).result.accepted = true) :
    (∃ r, (callEngine config mailbox answers req).handedOut = some r ∧ r.Carries req) ↔
      ∀ lane ∈ laneOf config mailbox req, lane.Fits answers.provider.reference req := by
  obtain ⟨r, hhanded⟩ := callEngine_honest config mailbox answers req h
  obtain ⟨lane, hlane, rfl⟩ := handedOut_of_callEngine hhanded
  have hcarries := lane.carries_iff answers.provider.reference (attachments_of_laneOf hlane)
  rw [hhanded, hlane]
  constructor
  · rintro ⟨r, hr, hcarried⟩ lane' hlane'
    cases hr
    cases hlane'
    exact hcarries.mp hcarried
  · intro hfits
    exact ⟨_, rfl, hcarries.mpr (hfits lane rfl)⟩

section Examples

/-- A linked Gmail mailbox. -/
private def linked : MailboxAccount where
  id := "mb1"
  workspaceId := "w1"
  emailAddress := "me@gmail.com".toList
  displayName := none
  isDefault := false
  active := true
  postmarkLane := false
  provider := "gmail"
  ownerKind := .human
  ownerKey := some "kc1"

/-- A reply with a copy, an HTML body and threading headers. -/
private def reply : SendReq where
  fromAddress := "me@gmail.com".toList
  fromName := none
  toAddress := "ada@x.org".toList
  toAddresses := some ["ada@x.org".toList, "Bob <bob@y.org>".toList]
  subject := "Re: plan".toList
  body := "Yes.".toList
  bodyHtml := some "<p>Yes.</p>".toList
  inReplyToThreadId := some "t1"
  transactional := true
  cc := some ["eve@z.org".toList]
  bcc := none
  attachments := none
  inReplyTo := some "<m1@x.org>".toList
  references := some ["<m1@x.org>".toList]
  headers := []

private def james : EngineConfig := ⟨.james, true, true⟩

/-- Whatever is asked accepts. -/
private def accepting : Answers where
  postmark := .ok (some "p1")
  james := ⟨true, true, some ⟨some "e1", none⟩⟩
  stalwart := some ⟨some "e1", none⟩
  provider := .gmail (some "<m1@x.org>".toList) (some "g1") (some "t1")

/-- Through James and Postmark the whole reply is carried. -/
theorem accepted_carries_iff_postmark :
    (callEngine james none accepting reply).result.accepted = true ∧
      ((∃ r, (callEngine james none accepting reply).handedOut = some r ∧ r.Carries reply) ↔
        ∀ lane ∈ laneOf james none reply, lane.Fits accepting.provider.reference reply) :=
  ⟨rfl, accepted_carries_iff rfl⟩

/-- Gmail accepts the same reply, and leaves out the second recipient, the copy and the
HTML body. -/
theorem gmail_accepts_and_drops :
    (callEngine james (some linked) accepting reply).result.accepted = true ∧
      ∃ r, (callEngine james (some linked) accepting reply).handedOut = some r ∧
        r.toMailboxes ≠ named reply.toEntries ∧ r.ccMailboxes ≠ named reply.ccEntries ∧
        r.html ≠ truthyText reply.bodyHtml ∧ ¬r.Carries reply := by
  refine ⟨rfl, _, rfl, by decide, by decide, by decide, fun h => ?_⟩
  exact absurd h.cc (by decide)

end Examples

end EmailOps
