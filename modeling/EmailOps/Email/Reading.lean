import Mathlib.Data.List.Sort
import EmailOps.Email.Compose
import EmailOps.Email.Lanes

/-!
# Reading mail

The read paths of the mail service, over the backends that hold the mail and the
workspace's own rows.

* `listMailboxInbox` lists the threads of one mailbox, `listThreadMessages` the messages
  of one thread, `listAggregateInbox` the threads of all mailboxes a caller may read, and
  `listCustomFolderThreads` those of a folder of his own.
* `read` is the read plane as one function of a request.

What a path may show of a mailbox is a question about two runs, and is asked in
`Email/ReadFence.lean`.
-/

namespace EmailOps

open Framework Framework.Text

/-! ### Views -/

inductive MailFolder where
  | inbox | archive | spam | trash | sent | drafts
  deriving DecidableEq, Repr

inductive MessageDisposition where
  | inbox | archive | spam | trash
  deriving DecidableEq, Repr

structure ParticipantView where
  address : Text
  name : Option Text
  deriving DecidableEq

structure ThreadView where
  id : String
  subject : Option Text
  message_count : ℕ
  unread : Bool
  flagged : Option Bool := none
  last_message_at : Option Text
  last_snippet : Option Text
  participants : List ParticipantView
  disposition : Option MessageDisposition := none
  has_attachments : Option Bool := none
  mailbox_id : Option String := none
  mailbox_address : Option Text := none
  deriving DecidableEq

structure AttachmentView where
  blob_id : Text
  name : Option Text
  type : Option Text
  size : Option ℕ
  cid : Option Text
  deriving DecidableEq

/-- The part of a message that only the sovereign engine tells. -/
structure MessageDetail where
  cc : List ParticipantView
  bcc : List ParticipantView
  html_body : Option Text
  text_body : Option Text
  message_id_header : Option Text
  references : Option (List Text)
  is_unread : Bool
  flagged : Bool
  attachments : List AttachmentView
  deriving DecidableEq

structure MessageView where
  id : String
  thread_id : String
  sender : Option ParticipantView
  recipients : List ParticipantView
  subject : Option Text
  sent_at : Option Text
  preview : Option Text
  direction : Text
  detail : Option MessageDetail := none
  deriving DecidableEq

/-! ### What is read -/

/-- A row of the messages' table, with the columns only the read paths use. Times are in
milliseconds. -/
structure MailRow extends EmailMessage where
  preview : Option Text
  sentAt : Option ℕ
  createdAt : ℕ

structure ThreadDisposition where
  workspaceId : String
  threadId : String
  disposition : MessageDisposition

/-- The tables the read paths use, with their keys: ids are unique, and an address is that
of one mailbox of a workspace. -/
structure MailTables where
  settings : Settings
  rows : List MailRow
  dispositions : List ThreadDisposition
  row_ids : (rows.map (·.id)).Nodup
  mailbox_ids : (settings.mailboxes.map (·.id)).Nodup
  addresses : (settings.mailboxes.map fun m => (m.workspaceId, m.emailAddress)).Nodup

/-- A query for the threads of a folder. -/
structure FolderQuery where
  folder : MailFolder
  limit : ℕ
  offset : ℕ
  query : Option Text
  mailboxId : Option String
  deriving DecidableEq

/-- A thread as the sovereign engine lists it. -/
structure StalwartThread where
  id : String
  subject : Option Text
  messageCount : ℕ
  unread : Bool
  flagged : Bool
  lastMessageAt : Option Text
  lastSnippet : Option Text
  participants : List ParticipantView
  hasAttachments : Bool

/-- A message as the sovereign engine details it. -/
structure StalwartMessageDetail extends MessageDetail where
  id : String
  threadId : String
  sender : Option ParticipantView
  recipients : List ParticipantView
  subject : Option Text
  sentAt : Option Text
  preview : Option Text
  direction : Text

/-- The backends that hold the mail: the sovereign engine, which is asked for an address,
and the providers of the external accounts. Where they fail they return nothing. -/
structure Backends where
  isConfigured : Bool
  listFolderThreads : Text → FolderQuery → List StalwartThread
  getThreadDetail : Text → String → List StalwartMessageDetail
  listInbox : MailboxAccount → MailFolder → ℕ → List ThreadView
  providerThread : MailboxAccount → String → List MessageView

/-- The functions of the language's library on times and texts. -/
structure Locale where
  /-- `toISOString` of a time in milliseconds. -/
  toISOString : ℕ → Text
  /-- `Date.parse`, when the text is a date. -/
  parseDate : Text → Option ℕ
  localeCompare : Text → Text → Ordering

/-! ### Small functions -/

/-- `snippet`: one line of at most 140 characters. -/
def snippet (body : Option Text) : Option Text :=
  match body with
  | none | some [] => none
  | some body =>
    let flat := trim (body.foldr (fun c rest =>
      if isWhite c then (if rest.head? = some ' ' then rest else ' ' :: rest) else c :: rest) [])
    if 140 < flat.length then some (flat.take 137 ++ ['…']) else some flat

/-- `threadTime`. -/
def threadTime (locale : Locale) (t : ThreadView) : ℕ :=
  ((t.last_message_at.filter (· ≠ [])).bind locale.parseDate).getD 0

/-- An optional address as a participant; an empty one is none. -/
def participantOf (address : Option Text) : Option ParticipantView :=
  (address.filter (· ≠ [])).map fun a => ⟨a, none⟩

def EmailDirection.wire : EmailDirection → Text
  | .received => "received".toList
  | .sent => "sent".toList
  | .draft => "draft".toList

/-- A list as a map from ids, by `Map.set` in order: a later view of an id takes the place
of the earlier one. -/
def byId {α : Type} (id : α → String) (views : List α) : List α :=
  views.foldl (fun seen v =>
    if seen.any (id · == id v) then seen.map fun w => if id w == id v then v else w
    else seen ++ [v]) []

/-- Add the views whose id is not there yet. -/
def fillIn {α : Type} (id : α → String) (seen more : List α) : List α :=
  more.foldl (fun seen v => if seen.any (id · == id v) then seen else seen ++ [v]) seen

/-- The disposition of a thread, the inbox when none is recorded. -/
def dispositionOf (tables : MailTables) (workspaceId threadId : String) : MessageDisposition :=
  ((tables.dispositions.find? fun d => d.workspaceId = workspaceId && d.threadId = threadId).map
    (·.disposition)).getD .inbox

/-- `overlayFilterThreads`. -/
def overlayFilterThreads (tables : MailTables) (workspaceId : String) (threads : List ThreadView)
    (folder : MailFolder) : List ThreadView :=
  let keep (want : MessageDisposition) :=
    threads.filter fun t => dispositionOf tables workspaceId t.id = want
  match folder with
  | .sent | .drafts => threads
  | .archive => keep .archive
  | .spam => keep .spam
  | .trash => keep .trash
  | .inbox => keep .inbox

/-! ### The sovereign engine -/

def StalwartThread.view (t : StalwartThread) : ThreadView where
  id := t.id
  subject := t.subject
  message_count := t.messageCount
  unread := t.unread
  flagged := some t.flagged
  last_message_at := t.lastMessageAt
  last_snippet := t.lastSnippet
  participants := t.participants
  has_attachments := some t.hasAttachments

/-- `liveFolderThreads`. -/
def liveFolderThreads (backends : Backends) (address : Text) (query : FolderQuery) :
    List ThreadView :=
  if !backends.isConfigured then []
  else (backends.listFolderThreads address query).map StalwartThread.view

def toDetailedMessageView (m : StalwartMessageDetail) : MessageView where
  id := m.id
  thread_id := m.threadId
  sender := m.sender
  recipients := m.recipients
  subject := m.subject
  sent_at := m.sentAt
  preview := m.preview
  direction := m.direction
  detail := some m.toMessageDetail

/-! ### The local rows of an inbox -/

/-- The rows of a folder: sent mail and drafts by what the rows say, the others by who
takes part. -/
def inScope (folder : MailFolder) (addr : Text) (m : MailRow) : Bool :=
  match folder with
  | .sent => m.fromAddress = some addr && m.direction = .sent
  | .drafts => m.fromAddress = some addr && m.status = .draft
  | _ => m.fromAddress = some addr || m.toAddress = some addr

/-- A thread made of local rows. -/
structure LocalThread where
  id : String
  subject : Option Text
  count : ℕ
  last : ℕ
  snippet : Option Text
  participants : List Text

/-- One round of the grouping loop. -/
def addRow (threads : List LocalThread) (threadId : String) (m : MailRow) : List LocalThread :=
  let when := m.sentAt.getD m.createdAt
  let line := m.preview.or (snippet m.body)
  let address := m.toAddress.filter (· ≠ [])
  if threads.any (·.id = threadId) then
    threads.map fun cur =>
      if cur.id = threadId then
        let cur := { cur with
          count := cur.count + 1
          participants := cur.participants ++
            address.toList.filter fun a => !cur.participants.contains a }
        if cur.last < when then
          { cur with last := when, snippet := line, subject := cur.subject.or m.subject }
        else cur
      else cur
  else threads ++ [⟨threadId, m.subject, 1, when, line, address.toList⟩]

/-- The newest 300 rows of a folder that belong to a thread. -/
def localRows (tables : MailTables) (workspaceId : String) (folder : MailFolder) (addr : Text) :
    List MailRow :=
  ((tables.rows.filter fun m =>
    m.workspaceId = workspaceId && m.threadId.isSome && inScope folder addr m).mergeSort
      fun a b => b.createdAt ≤ a.createdAt).take 300

/-- Is a thread with this disposition shown in the folder? -/
def visibleIn (folder : MailFolder) (d : MessageDisposition) : Bool :=
  match folder with
  | .archive => d = .archive
  | .spam => d = .spam
  | .trash => d = .trash
  | .inbox => d = .inbox
  | .sent | .drafts => true

/-- The local threads of a folder, newest first. -/
def localThreads (locale : Locale) (tables : MailTables) (workspaceId : String)
    (folder : MailFolder) (limit : ℕ) (msgs : List MailRow) : List ThreadView :=
  let grouped := msgs.foldl (fun threads m =>
    match m.threadId with
    | some threadId => addRow threads threadId m
    | none => threads) []
  let sorted := grouped.mergeSort fun a b => b.last ≤ a.last
  let visible := sorted.filter fun t => visibleIn folder (dispositionOf tables workspaceId t.id)
  (visible.take limit).map fun t =>
    { id := t.id
      subject := t.subject
      message_count := t.count
      unread := false
      last_message_at := some (locale.toISOString t.last)
      last_snippet := t.snippet
      participants := t.participants.map fun a => ⟨a, none⟩
      disposition := some (dispositionOf tables workspaceId t.id) }

/-! ### The read paths -/

section Paths

variable (locale : Locale) (tables : MailTables) (backends : Backends) (workspaceId : String)
  (ucUid : Option String)

/-- `listMailboxInbox`. -/
def listMailboxInbox (mailboxId : String) (limit : ℕ) (folder : MailFolder) (query : Option Text)
    (offset : ℕ) : List ThreadView :=
  match findMailbox tables.settings workspaceId mailboxId with
  | none => []
  | some mailbox =>
    if EngineMailProvider.handles mailbox.provider then
      if mayActThroughMailbox tables.settings.users mailbox ucUid then
        backends.listInbox mailbox folder limit
      else []
    else
      let live := liveFolderThreads backends mailbox.emailAddress ⟨folder, limit, offset, query, none⟩
      if (query.any fun q => trim q ≠ []) || 0 < offset then
        overlayFilterThreads tables workspaceId live folder
      else
        let msgs := localRows tables workspaceId folder mailbox.emailAddress
        let merged := (fillIn (·.id) (byId (·.id) live)
          (localThreads locale tables workspaceId folder limit msgs)).mergeSort
            fun a b => threadTime locale b ≤ threadTime locale a
        (overlayFilterThreads tables workspaceId merged folder).take limit

/-- The rows of a thread, oldest first. -/
def ownRows (threadId : String) : List MailRow :=
  (tables.rows.filter fun m => m.workspaceId = workspaceId && m.threadId = some threadId).mergeSort
    fun a b => a.createdAt ≤ b.createdAt

/-- A local row as a message of a thread. -/
def MailRow.view (threadId : String) (m : MailRow) : MessageView where
  id := m.id
  thread_id := m.threadId.getD threadId
  sender := participantOf m.fromAddress
  recipients := (participantOf m.toAddress).toList
  subject := m.subject
  sent_at := some (locale.toISOString (m.sentAt.getD m.createdAt))
  preview := m.preview.or (snippet m.body)
  direction := m.direction.wire

/-- `listThreadMessages`, of the mailbox that is named or else of the default one. -/
def listThreadMessages (threadId : String) (mailboxId : Option String) : List MessageView :=
  let mailbox :=
    match mailboxId.filter (· ≠ "") with
    | some id => findMailbox tables.settings workspaceId id
    | none => defaultMailbox tables.settings workspaceId
  let own := (ownRows tables workspaceId threadId).map (MailRow.view locale threadId)
  let union (live : List MessageView) := fillIn (·.id) (byId (·.id) live) own
  match mailbox with
  | none => union []
  | some mailbox =>
    if EngineMailProvider.handles mailbox.provider then
      if mayActThroughMailbox tables.settings.users mailbox ucUid then
        union (backends.providerThread mailbox threadId)
      else []
    else union ((backends.getThreadDetail mailbox.emailAddress threadId).map toDetailedMessageView)

/-- `readableMailboxes`. -/
def readableMailboxes : List MailboxAccount :=
  tables.settings.mailboxes.filter fun m =>
    m.workspaceId = workspaceId && m.active &&
      mayActThroughMailbox tables.settings.users m ucUid

/-- `listAggregateInbox`. The mailboxes in `dropped` have failed or timed out. -/
def listAggregateInbox (folder : MailFolder) (limit : ℕ) (query : Option Text) (offset : ℕ)
    (dropped : String → Bool) : List ThreadView :=
  let settled := (readableMailboxes tables workspaceId ucUid).filter fun m => !dropped m.id
  let merged := settled.flatMap fun m =>
    (listMailboxInbox locale tables backends workspaceId ucUid m.id limit folder query offset).map
      fun t => { t with mailbox_id := some m.id, mailbox_address := some m.emailAddress }
  let deduped := fillIn (fun t => t.mailbox_id.getD "" ++ ":" ++ t.id) [] merged
  let sorted := deduped.mergeSort fun a b =>
    if threadTime locale a = threadTime locale b then
      match locale.localeCompare (a.mailbox_address.getD []) (b.mailbox_address.getD []) with
      | .lt => true
      | .gt => false
      | .eq => locale.localeCompare a.id.toList b.id.toList ≠ .gt
    else threadTime locale b < threadTime locale a
  sorted.take limit

/-- `listCustomFolderThreads`, which asks for the mailbox with `resolveMailboxForCaller`. -/
def listCustomFolderThreads (mailboxId folderId : String) (limit : ℕ) (query : Option Text)
    (offset : ℕ) : List ThreadView :=
  match findMailbox tables.settings workspaceId mailboxId with
  | none => []
  | some mailbox =>
    if !mayActThroughMailbox tables.settings.users mailbox ucUid ||
        EngineMailProvider.handles mailbox.provider then []
    else
      liveFolderThreads backends mailbox.emailAddress ⟨.inbox, limit, offset, query, some folderId⟩

end Paths

/-- A request of the read plane. -/
inductive ReadRequest where
  | mailboxInbox (mailboxId : String) (limit : ℕ) (folder : MailFolder) (query : Option Text)
      (offset : ℕ)
  | customFolder (mailboxId folderId : String) (limit : ℕ) (query : Option Text) (offset : ℕ)
  | threadMessages (threadId : String) (mailboxId : Option String)
  | aggregateInbox (folder : MailFolder) (limit : ℕ) (query : Option Text) (offset : ℕ)
      (dropped : String → Bool)

/-- What a read path returns. -/
inductive ReadResult where
  | threads (views : List ThreadView)
  | messages (views : List MessageView)

/-- The read plane, for a caller in a workspace. -/
def read (locale : Locale) (tables : MailTables) (backends : Backends) (workspaceId : String)
    (ucUid : Option String) : ReadRequest → ReadResult
  | .mailboxInbox mailboxId limit folder query offset =>
    .threads (listMailboxInbox locale tables backends workspaceId ucUid mailboxId limit folder query
      offset)
  | .customFolder mailboxId folderId limit query offset =>
    .threads (listCustomFolderThreads tables backends workspaceId ucUid mailboxId folderId limit
      query offset)
  | .threadMessages threadId mailboxId =>
    .messages (listThreadMessages locale tables backends workspaceId ucUid threadId mailboxId)
  | .aggregateInbox folder limit query offset dropped =>
    .threads (listAggregateInbox locale tables backends workspaceId ucUid folder limit query offset
      dropped)

end EmailOps
