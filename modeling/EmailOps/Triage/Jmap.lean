import Mathlib.Data.Finset.Basic
import EmailOps.Email.Reading

/-!
# The folders of a sovereign mailbox

The account of a mailbox as the sovereign engine holds it, and what the client of the engine
does to it: move the messages of a thread, set whether they are read, empty a folder, list
the threads of a folder.

A call of the client is a chain of JMAP requests. What becomes of each of them is an
`Exchange`: the engine may not answer, it may leave out some of the updates it is asked for,
and it may make the updates while its answer is lost.

* `moveThreadToFolder` and `moveThreadToMailbox` replace the folders of every message of a
  thread that the engine updates, whether it was received, sent or is a draft.
* `listFolderThreads` collapses the messages of a folder into threads, newest first.
* `emails_setThread` says what a chain of requests about a thread does.
-/

namespace EmailOps
namespace Jmap

open Framework

/-! ### Accounts -/

/-- A folder of an account. -/
structure Mailbox where
  id : String
  role : Option String
  deriving DecidableEq

/-- A message of an account. -/
structure Email where
  id : String
  threadId : String
  /-- The folders the message is in. -/
  mailboxIds : Finset String
  seen : Bool
  /-- The keyword `$draft`. -/
  draft : Bool
  /-- The keyword `$sent`. -/
  sent : Bool
  flagged : Bool
  subject : Option Text
  participants : List ParticipantView
  receivedAt : ℕ
  preview : Option Text
  hasAttachment : Bool
  deriving DecidableEq

/-- What the readers of a thread take the message for. -/
def Email.direction (m : Email) : EmailDirection :=
  if m.draft then .draft else if m.sent then .sent else .received

/-- The message in exactly one folder. -/
def Email.moveTo (target : String) (m : Email) : Email :=
  { m with mailboxIds := {target} }

/-- The message, read or unread. -/
def Email.setSeen (read : Bool) (m : Email) : Email :=
  { m with seen := read }

structure Account where
  mailboxes : List Mailbox
  emails : List Email
  deriving DecidableEq

/-- `FOLDER_ROLE`. -/
def folderRole : MailFolder → String
  | .inbox => "inbox"
  | .archive => "archive"
  | .spam => "junk"
  | .trash => "trash"
  | .sent => "sent"
  | .drafts => "drafts"

/-- The folder with the role that stands for a folder of the client. -/
def Account.mailboxFor (a : Account) (folder : MailFolder) : Option String :=
  (a.mailboxes.find? fun b => b.role = some (folderRole folder)).map (·.id)

/-- The messages of a thread. -/
def Account.threadEmails (a : Account) (threadId : String) : List Email :=
  a.emails.filter (·.threadId = threadId)

/-- Rewrite the messages of a thread that the engine updates. -/
def Account.rewrite (a : Account) (threadId : String) (updates : String → Bool)
    (f : Email → Email) : Account :=
  { a with emails := a.emails.map fun m =>
      if m.threadId = threadId && updates m.id then f m else m }

/-! ### The client -/

/-- What becomes of the requests of one call of the client. -/
structure Exchange where
  /-- The lookup of the target folder is answered. -/
  resolved : Bool
  /-- `Thread/get` is answered. -/
  listed : Bool
  /-- The messages the engine updates, of those it is asked to. -/
  updates : String → Bool
  /-- `Email/set` is answered. -/
  answered : Bool

/-- An exchange without a failure. -/
def Exchange.smooth : Exchange := ⟨true, true, fun _ => true, true⟩

/-- The messages that an `Email/set` on a thread takes effect on. -/
def updated (a : Account) (threadId : String) (x : Exchange) : List Email :=
  if x.listed then (a.threadEmails threadId).filter fun m => x.updates m.id else []

/-- `Thread/get` and `Email/set`: the account afterwards, and whether the client is told of
an update. Without messages nothing is asked for. -/
def setThread (a : Account) (threadId : String) (x : Exchange) (f : Email → Email) :
    Account × Bool :=
  if !x.listed || a.threadEmails threadId = [] then (a, false)
  else
    (a.rewrite threadId x.updates f, x.answered && (updated a threadId x ≠ []))

/-- The folder a thread is to be moved to, when its lookup is answered. -/
def target? (a : Account) (folder : MailFolder) (x : Exchange) : Option String :=
  if x.resolved then a.mailboxFor folder else none

/-- `moveThreadToFolder`. -/
def moveThreadToFolder (configured : Bool) (a : Account) (threadId : String) (folder : MailFolder)
    (x : Exchange) : Account × Bool :=
  if !configured then (a, false)
  else
    match target? a folder x with
    | none => (a, false)
    | some target => setThread a threadId x (Email.moveTo target)

/-- `moveThreadToMailbox`: the target must be a folder of the account. -/
def moveThreadToMailbox (configured : Bool) (a : Account) (threadId targetMailboxId : String)
    (x : Exchange) : Account × Bool :=
  if !configured then (a, false)
  else if !x.resolved || !a.mailboxes.any (·.id = targetMailboxId) then (a, false)
  else setThread a threadId x (Email.moveTo targetMailboxId)

/-- `setThreadRead`. -/
def setThreadRead (configured : Bool) (a : Account) (threadId : String) (read : Bool)
    (x : Exchange) : Account × Bool :=
  if !configured then (a, false) else setThread a threadId x (Email.setSeen read)

/-- What becomes of one round of emptying a folder. -/
structure PurgeRound where
  /-- `Email/query` is answered. -/
  queried : Bool
  /-- The messages the engine destroys, of those it is asked to. -/
  destroys : String → Bool
  answered : Bool

/-- The messages that a round of emptying a folder asks to destroy. -/
def purgeIds (a : Account) (mailboxId : String) : List String :=
  ((a.emails.filter (mailboxId ∈ ·.mailboxIds)).take 1000).map (·.id)

/-- The account without the messages a round has destroyed. -/
def destroyed (a : Account) (mailboxId : String) (round : PurgeRound) : Account :=
  { a with emails := a.emails.filter fun m =>
      !(decide (m.id ∈ purgeIds a mailboxId) && round.destroys m.id &&
        decide (mailboxId ∈ m.mailboxIds)) }

/-- The loop of `emptyFolder`, with the rounds it may still make and what they have purged so
far. `none` stands for a folder of which nothing is known. -/
def purgeLoop (mailboxId : String) :
    ℕ → (ℕ → PurgeRound) → Option ℕ → Account → Account × Option ℕ
  | 0, _, purged, a => (a, some (purged.getD 0))
  | n + 1, rounds, purged, a =>
    if !(rounds 0).queried then (a, purged)
    else if purgeIds a mailboxId = [] then (a, some (purged.getD 0))
    else
      let a' := destroyed a mailboxId (rounds 0)
      let count := ((purgeIds a mailboxId).filter (rounds 0).destroys).length
      if !(rounds 0).answered then (a', some (purged.getD 0))
      else if count = 0 then (a', some (purged.getD 0))
      else purgeLoop mailboxId n (fun i => rounds (i + 1)) (some (purged.getD 0 + count)) a'

/-- `emptyFolder`, of Trash or Junk: how many messages are gone, or nothing when the engine
does not answer. -/
def emptyFolder (configured : Bool) (a : Account) (folder : MailFolder) (resolved : Bool)
    (rounds : ℕ → PurgeRound) : Account × Option ℕ :=
  if !configured then (a, none)
  else
    match if resolved then a.mailboxFor folder else none with
    | none => (a, none)
    | some mailboxId => purgeLoop mailboxId 100 rounds none a

/-! ### Listing -/

/-- The newest first. -/
def newestFirst (emails : List Email) : List Email :=
  emails.mergeSort fun m m' => m'.receivedAt ≤ m.receivedAt

/-- `collapseThreads`: of each thread the first message. -/
def collapse (emails : List Email) : List Email :=
  fillIn (·.threadId) [] emails

/-- A collapsed message as the client lists it, with the number of messages of its thread. -/
def listed (locale : Locale) (a : Account) (m : Email) : StalwartThread where
  id := m.threadId
  subject := m.subject
  messageCount := (a.threadEmails m.threadId).length
  unread := !m.seen
  flagged := m.flagged
  lastMessageAt := some (locale.toISOString m.receivedAt)
  lastSnippet := m.preview
  participants := m.participants
  hasAttachments := m.hasAttachment

/-- `listFolderThreads`. `finds` is the search of the engine. -/
def listFolderThreads (locale : Locale) (finds : Text → Email → Bool) (a : Account)
    (query : FolderQuery) : List StalwartThread :=
  match query.mailboxId.or (a.mailboxFor query.folder) with
  | none => []
  | some mailboxId =>
    let found := a.emails.filter fun m =>
      decide (mailboxId ∈ m.mailboxIds) && (query.query.all fun q => finds q m)
    (((collapse (newestFirst found)).drop query.offset).take query.limit).map (listed locale a)

/-! ### What a call does -/

section SetThread

variable {a : Account} {threadId : String} {x : Exchange} {f : Email → Email}

theorem mem_threadEmails {m : Email} :
    m ∈ a.threadEmails threadId ↔ m ∈ a.emails ∧ m.threadId = threadId := by
  simp [Account.threadEmails]

theorem mem_updated {m : Email} :
    m ∈ updated a threadId x ↔
      x.listed = true ∧ (m ∈ a.emails ∧ m.threadId = threadId) ∧ x.updates m.id = true := by
  unfold updated
  split
  · next hlisted => simp [hlisted, mem_threadEmails]
  · next hlisted => simp [hlisted]

/-- **What a chain of requests about a thread does**: the messages it updates are rewritten,
and the others stay. -/
theorem emails_setThread :
    (setThread a threadId x f).1.emails = a.emails.map fun m =>
      if m ∈ updated a threadId x then f m else m := by
  unfold setThread
  split
  · next hnone =>
    -- Nothing is asked for, and nothing is updated.
    have hupdated : ∀ m ∈ a.emails, m ∉ updated a threadId x := by
      intro m hm hmem
      obtain ⟨hlisted, hthread, -⟩ := mem_updated.mp hmem
      have hempty : a.threadEmails threadId = [] := by simpa [hlisted] using hnone
      have hin := mem_threadEmails.mpr hthread
      rw [hempty] at hin
      cases hin
    conv_lhs => rw [← List.map_id a.emails]
    refine List.map_congr_left fun m hm => ?_
    rw [if_neg (hupdated m hm)]
    rfl
  · next hsome =>
    have hlisted : x.listed = true := by
      by_contra hnot
      simp [hnot] at hsome
    refine List.map_congr_left fun m hm => ?_
    refine if_congr ?_ rfl rfl
    rw [mem_updated]
    simp [hm, hlisted]

@[simp] theorem mailboxes_setThread : (setThread a threadId x f).1.mailboxes = a.mailboxes := by
  unfold setThread
  split <;> rfl

/-- The client is told of an update when there is one, and its answer is not lost. -/
theorem setThread_snd :
    (setThread a threadId x f).2 = true ↔ x.answered = true ∧ updated a threadId x ≠ [] := by
  unfold setThread
  split
  · next hnone =>
    have hupdated : updated a threadId x = [] := by
      unfold updated
      split
      · next hlisted =>
        have hempty : a.threadEmails threadId = [] := by simpa [hlisted] using hnone
        rw [hempty]
        rfl
      · rfl
    simp [hupdated]
  · simp

end SetThread

section MoveThread

variable {configured : Bool} {a : Account} {threadId : String} {folder : MailFolder} {x : Exchange}

theorem mailboxFor_of_target? {target : String} (h : target? a folder x = some target) :
    a.mailboxFor folder = some target := by
  unfold target? at h
  split at h
  · exact h
  · cases h

theorem moveThreadToFolder_of_none (h : configured = true → target? a folder x = none) :
    moveThreadToFolder configured a threadId folder x = (a, false) := by
  unfold moveThreadToFolder
  cases configured with
  | false => rfl
  | true => simp [h rfl]

theorem moveThreadToFolder_of_some {target : String} (h : target? a folder x = some target) :
    moveThreadToFolder true a threadId folder x = setThread a threadId x (Email.moveTo target) := by
  simp [moveThreadToFolder, h]

@[simp] theorem mailboxes_moveThreadToFolder :
    (moveThreadToFolder configured a threadId folder x).1.mailboxes = a.mailboxes := by
  unfold moveThreadToFolder
  split
  · rfl
  · split
    · rfl
    · exact mailboxes_setThread

end MoveThread

end Jmap
end EmailOps
