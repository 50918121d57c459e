import EmailOps.Scheduling.Service
import EmailOps.Triage.Jmap

/-!
# Snoozed threads

A snooze moves a thread of a sovereign mailbox to the Archive and creates a row; the thread
comes back when the row is unsnoozed, or when a sweep finds the row due.

* `SnoozedThreads` is the table, with the statements on it: `findActive`, `findActiveThread`,
  `due`, `create`, `cancel` and `claim`. `cancel` does not look at the state of its row.
* `snoozeThread`, `unsnooze`, `unsnoozeThread` and `surfaceDueSnoozes` are the calls, each
  from its first statement to its last. Their steps interleave in
  `Scheduling/SnoozeProtocol.lean`.
-/

namespace EmailOps
namespace Snooze

open Framework.Text

/-! ### Rows -/

inductive SnoozedThreadState where
  | active | surfaced | cancelled
  deriving DecidableEq, Repr

structure SnoozedThread where
  id : String
  workspaceId : String
  mailboxId : String
  threadId : String
  snoozeUntil : ℕ
  subject : Option Text
  createdBy : Option String
  state : SnoozedThreadState
  createdAt : ℕ
  deriving DecidableEq

/-- What a row is a snooze of: a thread of a mailbox of a workspace. -/
def SnoozedThread.key (row : SnoozedThread) : String × String × String :=
  (row.workspaceId, row.mailboxId, row.threadId)

structure SnoozeThreadInput where
  workspaceId : String
  mailboxId : String
  threadId : String
  /-- `until`, when it is a time. -/
  snoozeUntil : Option ℕ
  subject : Option Text

def SnoozeThreadInput.key (input : SnoozeThreadInput) : String × String × String :=
  (input.workspaceId, input.mailboxId, input.threadId)

/-- The table of the snoozes, with its primary key. -/
structure SnoozedThreads where
  rows : List SnoozedThread
  ids : (rows.map (·.id)).Nodup

namespace SnoozedThreads

variable (table : SnoozedThreads)

/-- The row with an id in a workspace, while it is active. -/
def findActive (workspaceId id : String) : Option SnoozedThread :=
  table.rows.find? fun r => r.id = id && r.workspaceId = workspaceId && r.state = .active

/-- The newest active row of a thread. -/
def findActiveThread (key : String × String × String) : Option SnoozedThread :=
  ((table.rows.filter fun r => r.key = key && r.state = .active).insertionSort
    fun r r' => r'.createdAt ≤ r.createdAt).head?

/-- The rows a sweep reads: those active and due, earliest first, at most `take`. -/
def due (now take : ℕ) : List SnoozedThread :=
  ((table.rows.filter fun r => r.state = .active && r.snoozeUntil ≤ now).insertionSort
    fun r r' => r.snoozeUntil ≤ r'.snoozeUntil).take take

/-- Is the row with this id active? -/
def isActive (id : String) : Bool :=
  table.rows.any fun r => r.id = id && r.state = .active

/-- `snoozedThread.create`, which the primary key refuses for an id that is taken. -/
def create (row : SnoozedThread) : Option SnoozedThreads :=
  if h : ∀ r ∈ table.rows, r.id ≠ row.id then
    some ⟨table.rows ++ [row], Framework.Table.nodup_insert table.ids h⟩
  else none

/-- Rewrite the rows that a guard selects; their ids stay. -/
def update (p : SnoozedThread → Prop) [DecidablePred p] (f : SnoozedThread → SnoozedThread)
    (hf : ∀ r, (f r).id = r.id) : SnoozedThreads where
  rows := table.rows.map fun r => if p r then f r else r
  ids := by
    rw [Framework.Table.keys_update hf]
    exact table.ids

/-- Cancel a row, whatever its state. -/
def cancel (id : String) : SnoozedThreads :=
  table.update (·.id = id) (fun r => { r with state := .cancelled }) fun _ => rfl

/-- Mark a row as surfaced, if it is active. -/
def claim (id : String) : SnoozedThreads :=
  table.update (fun r => r.id = id ∧ r.state = .active) (fun r => { r with state := .surfaced })
    fun _ => rfl

variable {table}

/-- The rows after a row is created, under an id that was free. -/
theorem create_some {row : SnoozedThread} {table' : SnoozedThreads}
    (h : table.create row = some table') :
    (∀ r ∈ table.rows, r.id ≠ row.id) ∧ table'.rows = table.rows ++ [row] := by
  unfold create at h
  split at h
  · next hfree =>
    obtain rfl := Option.some.inj h
    exact ⟨hfree, rfl⟩
  · cases h

theorem eq_of_id_eq {r r' : SnoozedThread} (hr : r ∈ table.rows) (hr' : r' ∈ table.rows)
    (hid : r.id = r'.id) : r = r' :=
  List.inj_on_of_nodup_map table.ids hr hr' hid

theorem findActive_some {workspaceId id : String} {row : SnoozedThread}
    (h : table.findActive workspaceId id = some row) :
    row ∈ table.rows ∧ row.id = id ∧ row.workspaceId = workspaceId ∧ row.state = .active := by
  refine ⟨List.mem_of_find?_eq_some h, ?_⟩
  have hguard := List.find?_some h
  simpa [and_assoc] using hguard

theorem findActiveThread_some {key : String × String × String} {row : SnoozedThread}
    (h : table.findActiveThread key = some row) :
    row ∈ table.rows ∧ row.key = key ∧ row.state = .active := by
  have hmem := List.mem_of_mem_head? h
  rw [List.mem_insertionSort] at hmem
  obtain ⟨hrow, hguard⟩ := List.mem_filter.mp hmem
  exact ⟨hrow, by simpa using hguard⟩

theorem mem_due {now take : ℕ} {row : SnoozedThread} (h : row ∈ table.due now take) :
    row ∈ table.rows ∧ row.state = .active := by
  have hmem := List.mem_of_mem_take h
  rw [List.mem_insertionSort] at hmem
  obtain ⟨hrow, hguard⟩ := List.mem_filter.mp hmem
  simp only [Bool.and_eq_true, decide_eq_true_eq] at hguard
  exact ⟨hrow, hguard.1⟩

end SnoozedThreads

/-- The active sovereign mailbox of a row. -/
def snoozeMailbox (settings : Settings) (row : SnoozedThread) : Option MailboxAccount :=
  settings.mailboxes.find? fun m =>
    m.id = row.mailboxId && m.workspaceId = row.workspaceId && m.provider = "stalwart" && m.active

/-! ### The calls -/

/-- What a snooze starts from: its time and the mailbox of the thread, for a caller who may
act through it. -/
def snoozeGate (settings : Settings) (configured : Bool) (ucUid : Option String)
    (input : SnoozeThreadInput) : Option (ℕ × MailboxAccount) :=
  match input.snoozeUntil with
  | none => none
  | some snoozeUntil =>
    match resolveSovereignMailboxForCaller settings input.workspaceId ucUid input.mailboxId with
    | none => none
    | some mailbox => if configured then some (snoozeUntil, mailbox) else none

/-- `resolveSnoozeSubject`: the subject of the caller, or the newest one that the engine
tells. -/
def resolveSnoozeSubject (provided : Option Text) (detail : List (Option Text)) : Option Text :=
  let given := trim (provided.getD [])
  if given ≠ [] then some (given.take 300)
  else
    detail.reverse.findSome? fun subject =>
      let s := trim (subject.getD [])
      if s ≠ [] then some (s.take 300) else none

/-- The row of a snooze. -/
def snoozeRow (ucUid : Option String) (input : SnoozeThreadInput) (snoozeUntil : ℕ)
    (subject : Option Text) (newId : String) (now : ℕ) : SnoozedThread where
  id := newId
  workspaceId := input.workspaceId
  mailboxId := input.mailboxId
  threadId := input.threadId
  snoozeUntil := snoozeUntil
  subject := subject
  createdBy := ucUid.filter (· ≠ "")
  state := .active
  createdAt := now

/-- The accounts of the engine, by address, and the rows of the snoozes. -/
structure Desk where
  engine : Text → Jmap.Account
  table : SnoozedThreads

/-- Move a thread of an account: the accounts afterwards, and the answer. -/
def moveThread (configured : Bool) (engine : Text → Jmap.Account) (address : Text)
    (threadId : String) (folder : MailFolder) (x : Jmap.Exchange) : (Text → Jmap.Account) × Bool :=
  let moved := Jmap.moveThreadToFolder configured (engine address) threadId folder x
  (Function.update engine address moved.1, moved.2)

section Calls

variable (settings : Settings) (configured : Bool) (ucUid : Option String)

/-- `snoozeThread`: the row, unless the thread is not snoozed or a statement throws. -/
def snoozeThread (input : SnoozeThreadInput) (detail : List (Option Text)) (x : Jmap.Exchange)
    (stored : Bool) (newId : String) (now : ℕ) (desk : Desk) : Desk × Option SnoozedThread :=
  match snoozeGate settings configured ucUid input with
  | none => (desk, none)
  | some (snoozeUntil, mailbox) =>
    let subject := resolveSnoozeSubject input.subject detail
    let hidden := moveThread configured desk.engine mailbox.emailAddress input.threadId .archive x
    let row := snoozeRow ucUid input snoozeUntil subject newId now
    match if hidden.2 && stored then desk.table.create row else none with
    | none => ({ desk with engine := hidden.1 }, none)
    | some table => (⟨hidden.1, table⟩, some row)

/-- `unsnooze`. -/
def unsnooze (workspaceId id : String) (x : Jmap.Exchange) (stored : Bool) (desk : Desk) :
    Desk × Bool :=
  match desk.table.findActive workspaceId id with
  | none => (desk, false)
  | some row =>
    match resolveSovereignMailboxForCaller settings workspaceId ucUid row.mailboxId with
    | none => (desk, false)
    | some mailbox =>
      let restored := moveThread configured desk.engine mailbox.emailAddress row.threadId .inbox x
      if !restored.2 || !stored then ({ desk with engine := restored.1 }, false)
      else (⟨restored.1, desk.table.cancel id⟩, true)

/-- `unsnoozeThread`. -/
def unsnoozeThread (key : String × String × String) (x : Jmap.Exchange) (stored : Bool)
    (desk : Desk) : Desk × Bool :=
  match desk.table.findActiveThread key with
  | none => (desk, false)
  | some row => unsnooze settings configured ucUid key.1 row.id x stored desk

end Calls

/-- What becomes of the statements of a sweep about one row. -/
structure WakeFate where
  /-- The mailbox is read. -/
  lookedUp : Bool
  exchange : Jmap.Exchange
  /-- The row is written. -/
  stored : Bool

/-- One round of `surfaceDueSnoozes`. -/
def wake (settings : Settings) (configured : Bool) (fates : String → WakeFate) (desk : Desk)
    (row : SnoozedThread) : Desk × Bool :=
  let fate := fates row.id
  match if fate.lookedUp then snoozeMailbox settings row else none with
  | none => (desk, false)
  | some mailbox =>
    let restored :=
      moveThread configured desk.engine mailbox.emailAddress row.threadId .inbox fate.exchange
    if !restored.2 || !fate.stored then ({ desk with engine := restored.1 }, false)
    else (⟨restored.1, desk.table.claim row.id⟩, desk.table.isActive row.id)

/-- `surfaceDueSnoozes`, with the number of rows that were surfaced. -/
def surfaceDueSnoozes (settings : Settings) (configured : Bool) (now take : ℕ)
    (fates : String → WakeFate) (desk : Desk) : Desk × ℕ :=
  (desk.table.due now take).foldl
    (fun done row =>
      let woken := wake settings configured fates done.1 row
      (woken.1, if woken.2 then done.2 + 1 else done.2)) (desk, 0)

/-! ### A thread to snooze -/

/-- Ada's mailbox of the engine. -/
def adasMailbox : MailboxAccount :=
  ⟨"own", "acme", "ada@acme.com".toList, none, true, true, false, "stalwart", .human, some "ada"⟩

def adasSettings : Settings where
  mailboxes := [adasMailbox]

/-- A message that she was sent. -/
def question : Jmap.Email :=
  ⟨"e1", "t1", {"in"}, true, false, false, false, none, [], 1, none, false⟩

/-- Ada's account, with these messages. -/
def adasDesk (emails : List Jmap.Email) : Desk where
  engine _ := ⟨[⟨"in", some "inbox"⟩, ⟨"ar", some "archive"⟩, ⟨"se", some "sent"⟩], emails⟩
  table := ⟨[], List.nodup_nil⟩

/-- She snoozes the thread until time 10. -/
def adasSnooze : SnoozeThreadInput := ⟨"acme", "own", "t1", some 10, none⟩

end Snooze
end EmailOps
