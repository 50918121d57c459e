import EmailOps.Framework.Replacement
import EmailOps.Email.Lanes
import EmailOps.Stalwart.Responses

/-!
# Saving a draft

The messages of the engine are immutable, so that a draft is updated by one `Email/set` that
creates the new version and destroys the old one. The engine decides on the two separately,
and `saveOrUpdateDraft` answers with the id of the new draft when it reads one, and with the
id it was given otherwise.

* `saveDraftRequest` makes the request, and `SetFate` is what becomes of it.
* `saveOrUpdateDraft_update` reduces an update to a `Replacement`.
* `replaced_iff` says when an update leaves a draft and names one that exists. It does not
  when the engine refuses the new draft and destroys the old one, or when its answer is lost.
-/

namespace EmailOps
namespace Stalwart

open Framework

/-! ### The request -/

structure StalwartDraftRequest where
  fromAddress : Text
  fromName : Option Text
  toAddress : Text
  toAddresses : Option (List Text)
  subject : Text
  body : Text
  bodyHtml : Option Text
  cc : Option (List Text)
  bcc : Option (List Text)
  attachments : Option (List SendAttachment)
  inReplyTo : Option Text
  references : Option (List Text)

/-- A message of the Drafts folder, as it is created. -/
structure DraftObject where
  mailboxId : String
  keywords : List String
  email : JmapEmail

/-- An optional list, absent when it is empty. -/
def nonEmptyList {α : Type*} (items : Option (List α)) : Option (List α) :=
  items.filter (!·.isEmpty)

def draftCreateObject (draft : StalwartDraftRequest) (draftsMailboxId : String) :
    DraftObject where
  mailboxId := draftsMailboxId
  keywords := ["$draft", "$seen"]
  email :=
    { fromEmail := draft.fromAddress
      fromName := draft.fromName
      toField := (nonEmptyList draft.toAddresses).getD [draft.toAddress]
      cc := draft.cc.getD []
      bcc := draft.bcc.getD []
      subject := draft.subject
      body := draft.body
      html := truthyText draft.bodyHtml
      inReplyTo := (truthyText draft.inReplyTo).map fun id => [bareId id]
      references := (nonEmptyList draft.references).map (·.map bareId)
      headers := []
      attachments := draft.attachments.getD [] }

/-! ### What becomes of it -/

/-- The drafts of a mailbox, by their ids. -/
abbrev Drafts := String → Option DraftObject

/-- What becomes of the `Email/set` that saves a draft. -/
inductive SetFate where
  /-- There is no account or no transport: the engine does nothing. -/
  | unreached
  /-- The engine refuses the method as a whole. -/
  | methodError (type : Text)
  /-- The engine decides on each object; `error` is why it creates none. -/
  | applied (outcome : Replacement.Outcome String) (error : Text)

def SetFate.outcome : SetFate → Replacement.Outcome String
  | .unreached | .methodError _ => .nothing
  | .applied outcome _ => outcome

/-- The payload that comes back, about the drafts that were to be destroyed. -/
def SetFate.payload (destroy : List String) : SetFate → Option Json
  | .unreached => none
  | .methodError type =>
    some (payloadOf [respond "error" (object [("type", .str type)]) "0"])
  | .applied o error =>
    if o.answered then
      some (payloadOf [respond "Email/set" (setArguments
        { key := "draft"
          created := o.created
          error := error
          destroyed := if o.destroyed then destroy else []
          notDestroyed := if o.destroyed then [] else destroy }) "0"])
    else none

/-- A new draft is given an id that was not in use, and ids are not empty. -/
structure SetFate.Lawful (fate : SetFate) (drafts : Drafts) (old : String) : Prop where
  fresh : fate.outcome.Fresh drafts old
  nonempty : fate.outcome.created ≠ some ""

/-- `resolveMailboxIdForRole`, from the payload of its `Mailbox/query`. -/
def resolveMailboxIdForRole (payload : Option Json) : Option String :=
  match (methodResponses payload).bind (named · "Mailbox/query") with
  | some args =>
    match prop (some args) "ids" with
    | some (.arr (.str id :: _)) => some (String.ofList id)
    | _ => none
  | none => none

/-- The id of the created draft, as `saveDraftRequest` reads it. -/
def createdDraftId (payload : Option Json) : Option String :=
  let created := prop (((methodResponses payload).bind (named · "Email/set"))) "created"
  ((stringOf (prop (prop created "draft") "id")).map String.ofList).filter (· ≠ "")

/-- The payload of the query for the Drafts folder, and the fate of the `Email/set`. -/
structure SaveExchange where
  draftsMailbox : Option Json
  fate : SetFate

/-- The Drafts folder, where it is found. -/
def SaveExchange.folder (x : SaveExchange) : Option String :=
  (resolveMailboxIdForRole x.draftsMailbox).filter (· ≠ "")

/-- `saveDraftRequest`: the drafts afterwards, and the id of the new one. -/
def saveDraftRequest (configured : Bool) (drafts : Drafts) (draft : StalwartDraftRequest)
    (draftId : Option String) (x : SaveExchange) : Drafts × Option String :=
  if !configured then (drafts, none)
  else
    match x.folder with
    | none => (drafts, none)
    | some draftsMailboxId =>
      let create := draftCreateObject draft draftsMailboxId
      match draftId.filter (· ≠ "") with
      -- One request creates the new version and destroys the old one.
      | some old =>
        (x.fate.outcome.apply drafts old create, createdDraftId (x.fate.payload [old]))
      | none => (x.fate.outcome.create drafts create, createdDraftId (x.fate.payload []))

def saveDraft (configured : Bool) (drafts : Drafts) (draft : StalwartDraftRequest)
    (x : SaveExchange) : Drafts × Option String :=
  saveDraftRequest configured drafts draft none x

def updateDraft (configured : Bool) (drafts : Drafts) (draftId : String)
    (draft : StalwartDraftRequest) (x : SaveExchange) : Drafts × Option String :=
  saveDraftRequest configured drafts draft (some draftId) x

/-! ### The call -/

structure DraftReq where
  toAddress : Text
  toAddresses : Option (List Text)
  subject : Text
  body : Text
  bodyHtml : Option Text
  cc : Option (List Text)
  bcc : Option (List Text)
  attachments : Option (List SendAttachment)
  inReplyToMessageId : Option String

structure DraftAnswer where
  draft_id : Option String
  updated : Bool
  deriving DecidableEq

/-- A call of `saveOrUpdateDraft`, with what it meets: whether the engine is configured, the
reply headers found for the message it answers, and what becomes of its requests. -/
structure DraftCall where
  configured : Bool
  settings : Settings
  workspaceId : String
  ucUid : Option String
  mailboxId : String
  draftId : Option String
  payload : DraftReq
  resolved : Option ReplyHeaders
  exchange : SaveExchange

namespace DraftCall

variable (c : DraftCall)

/-- The sovereign mailbox that the caller may act through. -/
def mailbox : Option MailboxAccount :=
  (findMailbox c.settings c.workspaceId c.mailboxId).filter fun m =>
    mayActThroughMailbox c.settings.users m c.ucUid && !EngineMailProvider.handles m.provider

/-- The headers of the message that the draft answers, where it names one that is found. -/
def replyHeaders : Option (Text × Option (List Text)) :=
  if truthy c.payload.inReplyToMessageId then
    c.resolved.bind fun r => (truthyText r.messageIdHeader).map fun id => (id, r.references)
  else none

/-- The draft that the call saves. -/
def draft (mailbox : MailboxAccount) : StalwartDraftRequest where
  fromAddress := mailbox.emailAddress
  fromName := mailbox.displayName
  toAddress := c.payload.toAddress
  toAddresses := nonEmptyList c.payload.toAddresses
  subject := c.payload.subject
  body := c.payload.body
  bodyHtml := c.payload.bodyHtml
  cc := nonEmptyList c.payload.cc
  bcc := nonEmptyList c.payload.bcc
  attachments := nonEmptyList c.payload.attachments
  inReplyTo := c.replyHeaders.map (·.1)
  references := c.replyHeaders.bind (·.2)

end DraftCall

def saveOrUpdateDraft (c : DraftCall) (drafts : Drafts) : Drafts × DraftAnswer :=
  match c.mailbox with
  | none => (drafts, ⟨c.draftId, false⟩)
  | some mailbox =>
    let (after, id) :=
      match c.draftId.filter (· ≠ "") with
      | some draftId => updateDraft c.configured drafts draftId (c.draft mailbox) c.exchange
      | none => saveDraft c.configured drafts (c.draft mailbox) c.exchange
    -- Where no new id is read, the one that was given is handed back.
    (after, ⟨id.or c.draftId, id.isSome⟩)

/-! ### What is read of the engine's answer -/

theorem createdDraftId_none : createdDraftId none = none := rfl

/-- **The client reads what the engine created**, when the answer arrives. -/
theorem createdDraftId_payload {fate : SetFate} {drafts : Drafts} {old : String}
    (h : fate.Lawful drafts old) (destroy : List String) :
    createdDraftId (fate.payload destroy) =
      if fate.outcome.answered then fate.outcome.created else none := by
  cases fate with
  | unreached => rfl
  | methodError type =>
    have hnamed : named [respond "error" (object [("type", .str type)]) "0"] "Email/set" = none :=
      named_respond_of_ne (by decide) _ _ _
    simp [SetFate.payload, SetFate.outcome, createdDraftId, hnamed, stringOf,
      Replacement.Outcome.nothing]
  | applied o error =>
    have hne : o.created ≠ some "" := h.nonempty
    cases ha : o.answered with
    | false => simp [SetFate.payload, SetFate.outcome, ha, createdDraftId_none]
    | true =>
      -- the answer is the response of the method, and has the new id in it
      simp only [SetFate.payload, SetFate.outcome, ha, if_true, createdDraftId,
        methodResponses_payloadOf, Option.bind_some, named_respond, created_setArguments]
      cases hcreated : o.created with
      | none => simp [stringOf]
      | some id =>
        have hid : id ≠ "" := fun h' => hne (by rw [hcreated, h'])
        simp [prop_object_head, stringOf, hid]

/-! ### An update is a replacement -/

namespace DraftCall

variable (c : DraftCall)

/-- The draft that is created, where the call gets as far as asking for it. -/
def create : Option DraftObject :=
  if !c.configured then none
  else
    c.mailbox.bind fun mailbox =>
      c.exchange.folder.map fun folder => draftCreateObject (c.draft mailbox) folder

/-- What the call has come to at the engine. -/
def outcome : Replacement.Outcome String :=
  if c.create.isSome then c.exchange.fate.outcome else .nothing

/-- The drafts after the call. -/
def after (drafts : Drafts) (old : String) : Drafts :=
  match c.create with
  | some new => c.outcome.apply drafts old new
  | none => drafts

end DraftCall

variable {c : DraftCall} {drafts : Drafts} {old : String}

/-- **An update is a replacement**, and it answers with the draft that the replacement
reports. -/
theorem saveOrUpdateDraft_update (hid : c.draftId = some old) (hold : old ≠ "")
    (h : c.exchange.fate.Lawful drafts old) :
    (saveOrUpdateDraft c drafts).1 = c.after drafts old ∧
      (saveOrUpdateDraft c drafts).2.draft_id = some (c.outcome.report old) := by
  have htruthy : (some old).filter (fun id => decide (id ≠ "")) = some old := by simp [hold]
  unfold saveOrUpdateDraft DraftCall.after DraftCall.outcome DraftCall.create
  cases hmailbox : c.mailbox with
  | none => simp [hid, Replacement.Outcome.report, Replacement.Outcome.nothing]
  | some mailbox =>
    simp only [hid, htruthy, updateDraft, saveDraftRequest]
    cases c.configured with
    | false => simp [Replacement.Outcome.report, Replacement.Outcome.nothing]
    | true =>
      cases hfolder : c.exchange.folder with
      | none => simp [Replacement.Outcome.report, Replacement.Outcome.nothing]
      | some folder =>
        -- the engine was asked, and the answer is what is read of it
        simp only [Bool.not_true, Bool.false_eq_true, if_false, Option.bind_some,
          Option.map_some, Option.isSome_some, if_true, createdDraftId_payload h, true_and]
        cases ha : c.exchange.fate.outcome.answered with
        | false => simp [Replacement.Outcome.report, ha]
        | true =>
          cases hcreated : c.exchange.fate.outcome.created <;>
            simp [Replacement.Outcome.report, ha, hcreated]

theorem DraftCall.fresh_outcome (h : c.exchange.fate.Lawful drafts old) :
    c.outcome.Fresh drafts old := by
  unfold DraftCall.outcome
  split
  · exact h.fresh
  · exact Replacement.Outcome.fresh_nothing

/-! ### Replacing a draft -/

/-- The old draft is left as it was or the new one is there, and the call answers with the id
of a draft that exists. -/
def DraftCall.Replaced (c : DraftCall) (drafts : Drafts) (old : String) : Prop :=
  let r := saveOrUpdateDraft c drafts
  ((drafts old ≠ none ∧ r.1 old = drafts old) ∨
      ∃ id new, c.create = some new ∧ drafts id = none ∧ r.1 id = some new) ∧
    ∃ id, r.2.draft_id = some id ∧ r.1 id ≠ none

/-- **When an update replaces the draft.** The engine has created the new draft and its
answer has arrived, or the old draft existed and the engine has not destroyed it. -/
theorem replaced_iff (hid : c.draftId = some old) (hold : old ≠ "")
    (h : c.exchange.fate.Lawful drafts old) :
    c.Replaced drafts old ↔
      (c.outcome.answered = true ∧ c.outcome.created ≠ none) ∨
        (drafts old ≠ none ∧ c.outcome.destroyed = false) := by
  obtain ⟨hafter, hreport⟩ := saveOrUpdateDraft_update hid hold h
  simp only [DraftCall.Replaced, hafter, hreport, Option.some.injEq, exists_eq_left']
  unfold DraftCall.after
  cases hcreate : c.create with
  | none =>
    -- the engine was not asked for anything
    have hnothing : c.outcome = .nothing := by simp [DraftCall.outcome, hcreate]
    simp [hnothing, Replacement.Outcome.nothing, Replacement.Outcome.report]
  | some new =>
    have hfresh := DraftCall.fresh_outcome h
    -- the id that is named tells which of the two has survived
    have hnames : c.outcome.apply drafts old new (c.outcome.report old) ≠ none ↔ _ :=
      Replacement.report_iff hfresh
    rw [← hnames]
    constructor
    · exact fun hr => hr.2
    · intro hr
      refine ⟨?_, hr⟩
      obtain hleft | ⟨id, hnone, hsome⟩ := Replacement.survives_of_report hfresh hr
      · exact .inl hleft
      · exact .inr ⟨id, new, rfl, hnone, hsome⟩

/-! ### A draft that is lost -/

/-- A shared mailbox of the engine. -/
def draftMailbox : MailboxAccount where
  id := "mb"
  workspaceId := "ws"
  emailAddress := "desk@acme.test".toList
  displayName := none
  isDefault := true
  active := true
  postmarkLane := false
  provider := "STALWART"
  ownerKind := .shared
  ownerKey := none

/-- The folder of a role has this id. -/
def folderPayload (id : String) : Json :=
  payloadOf [respond "Mailbox/query" (object [("ids", .arr [.str id.toList])]) "0"]

/-- The update of draft `d1` with an attachment, and what becomes of its `Email/set`. -/
def attachmentUpdate (fate : SetFate) : DraftCall where
  configured := true
  settings := { mailboxes := [draftMailbox] }
  workspaceId := "ws"
  ucUid := none
  mailboxId := "mb"
  draftId := some "d1"
  payload :=
    { toAddress := "ann@x.org".toList, toAddresses := none, subject := [], body := []
      bodyHtml := none, cc := none, bcc := none
      attachments := some [⟨"blob".toList, "a.pdf".toList, "application/pdf".toList⟩]
      inReplyToMessageId := none }
  resolved := none
  exchange :=
    { draftsMailbox := some (folderPayload "drafts")
      fate := fate }

/-- The engine no longer has the blob of the attachment, and destroys the old draft. -/
def blobGone : SetFate :=
  .applied ⟨none, true, true⟩ "blobNotFound".toList

/-- The draft `d1` alone. -/
def onlyDraft : Drafts := fun id =>
  if id = "d1" then
    some (draftCreateObject ((attachmentUpdate .unreached).draft draftMailbox) "drafts")
  else none

theorem lawful_blobGone : blobGone.Lawful onlyDraft "d1" where
  fresh := by
    intro id h
    exact absurd h (by simp [blobGone, SetFate.outcome])
  nonempty := by simp [blobGone, SetFate.outcome]

/-- `replaced_iff` at the update of `onlyDraft` whose attachment is gone. -/
theorem replaced_iff_blobGone :
    (attachmentUpdate blobGone).Replaced onlyDraft "d1" ↔
      ((attachmentUpdate blobGone).outcome.answered = true ∧
          (attachmentUpdate blobGone).outcome.created ≠ none) ∨
        (onlyDraft "d1" ≠ none ∧ (attachmentUpdate blobGone).outcome.destroyed = false) :=
  replaced_iff rfl (by decide) lawful_blobGone

/-- The draft is gone, there is no new one, and the call answers with the id of the old one. -/
theorem saveOrUpdateDraft_blobGone :
    (∀ id, (saveOrUpdateDraft (attachmentUpdate blobGone) onlyDraft).1 id = none) ∧
      (saveOrUpdateDraft (attachmentUpdate blobGone) onlyDraft).2 = ⟨some "d1", false⟩ := by
  refine ⟨fun id => ?_, by decide +kernel⟩
  have hafter : (saveOrUpdateDraft (attachmentUpdate blobGone) onlyDraft).1 =
      Function.update onlyDraft "d1" none := rfl
  rw [hafter]
  by_cases hid : id = "d1"
  · simp [hid]
  · simp [hid, onlyDraft]

/-- **An update can lose the draft**: an update of a draft that exists, at a lawful engine,
leaves neither version of it. -/
theorem draft_lost :
    (attachmentUpdate blobGone).draftId = some "d1" ∧ onlyDraft "d1" ≠ none ∧
      blobGone.Lawful onlyDraft "d1" ∧ ¬ (attachmentUpdate blobGone).Replaced onlyDraft "d1" := by
  refine ⟨rfl, by simp [onlyDraft], lawful_blobGone, fun h => ?_⟩
  obtain ⟨id, -, hid⟩ := h.2
  exact hid (saveOrUpdateDraft_blobGone.1 id)

end Stalwart
end EmailOps
