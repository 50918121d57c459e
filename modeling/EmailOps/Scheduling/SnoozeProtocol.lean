import EmailOps.Framework.Log
import EmailOps.Framework.System
import EmailOps.Scheduling.Snooze

/-!
# Snoozes and workers

Callers snooze and unsnooze threads while any number of workers surface the rows that are
due, and the mail changes meanwhile. A snooze moves its thread before it creates the row, a
worker moves the thread before it claims the row, and an unsnooze cancels its row whatever
has become of it.

* `step` is the executable step, and `Step` its cases by name; `step_sound` connects them.
* `Safe` is what the rows are for: of a thread at most one snooze is active, a thread that
  was unsnoozed is not surfaced for an earlier snooze, and a snooze surfaces its thread once.
* `Careful` are the runs in which nobody steps into a gap between a move and the write that
  goes with it, and `safe_of_reachable` says that they are safe.

Without care none of the three holds (`snoozes_interfere`).
-/

namespace EmailOps
namespace Snooze

open Framework

/-! ### The protocol -/

/-- What a snooze has in hand before it has its row. -/
structure Draft where
  ucUid : Option String
  input : SnoozeThreadInput
  snoozeUntil : ℕ
  subject : Option Text

/-- The row, under its id and time. -/
def Draft.row (draft : Draft) (newId : String) (now : ℕ) : SnoozedThread :=
  snoozeRow draft.ucUid draft.input draft.snoozeUntil draft.subject newId now

/-- Where a call of `snoozeThread`, `unsnooze` or `unsnoozeThread` stands. -/
inductive Call where
  | idle
  /-- The thread is about to be moved to the Archive. -/
  | snoozing (draft : Draft) (address : Text)
  /-- The thread is in the Archive, and its row is about to be created. -/
  | hidden (draft : Draft)
  /-- `unsnoozeThread` has found a row, and calls `unsnooze` with its id. -/
  | located (ucUid : Option String) (workspaceId id : String)
  /-- The thread is about to be moved to the Inbox. -/
  | unsnoozing (row : SnoozedThread) (address : Text)
  /-- The thread is in the Inbox, and its row is about to be cancelled. -/
  | restored (row : SnoozedThread)
  | returned (answer : Bool)
  | failed

/-- Where a worker stands in `surfaceDueSnoozes`; `queue` is what is left of the rows it
read. -/
inductive Work where
  | resting
  | sweeping (queue : List SnoozedThread)
  /-- The mailbox of the row is found. -/
  | found (row : SnoozedThread) (address : Text) (queue : List SnoozedThread)
  /-- The thread is in the Inbox, and its row is about to be claimed. -/
  | moved (row : SnoozedThread) (queue : List SnoozedThread)

/-- What has been done. -/
inductive Event where
  | created (row : SnoozedThread)
  /-- An unsnooze of the thread has returned `unsnoozed: true`. -/
  | unsnoozed (key : String × String × String)
  /-- A worker has moved messages of the row's thread to the Inbox. -/
  | surfaced (row : SnoozedThread)

structure State where
  settings : Settings
  engine : Text → Jmap.Account
  table : SnoozedThreads
  calls : ℕ → Call
  workers : ℕ → Work
  log : List Event

/-- The steps. -/
inductive Label where
  /-- The checks of a snooze. `detail` are the subjects that the engine tells. -/
  | snooze (k : ℕ) (ucUid : Option String) (input : SnoozeThreadInput) (detail : List (Option Text))
  /-- A snooze moves its thread. -/
  | hide (k : ℕ) (x : Jmap.Exchange)
  | create (k : ℕ) (newId : String) (now : ℕ)
  /-- `unsnoozeThread` looks the newest active row of the thread up. -/
  | locate (k : ℕ) (ucUid : Option String) (key : String × String × String)
  /-- The row of an unsnooze is read, and its mailbox resolved. -/
  | unsnooze (k : ℕ) (ucUid : Option String) (workspaceId id : String)
  /-- So is the row that `unsnoozeThread` has found. -/
  | reread (k : ℕ)
  /-- An unsnooze moves its thread. -/
  | restore (k : ℕ) (x : Jmap.Exchange)
  | cancel (k : ℕ)
  /-- A statement of a call throws, or its process dies. -/
  | fail (k : ℕ)
  /-- A worker reads the due rows. -/
  | sweep (w now take : ℕ)
  /-- A worker reads the mailbox of its next row. -/
  | lookup (w : ℕ)
  /-- A worker moves the thread of its row. -/
  | move (w : ℕ) (x : Jmap.Exchange)
  | claim (w : ℕ)
  /-- A statement of a worker throws. -/
  | throws (w : ℕ)
  /-- The process of a worker dies. -/
  | crash (w : ℕ)
  /-- Something else happens to the mail. -/
  | mail (engine : Text → Jmap.Account)

/-- Move a call on. -/
def State.setCall (s : State) (k : ℕ) (call : Call) : State :=
  { s with calls := Function.update s.calls k call }

/-- Move a worker on. -/
def State.setWork (s : State) (w : ℕ) (work : Work) : State :=
  { s with workers := Function.update s.workers w work }

/-- Does the move of a thread to a folder take effect on a message? -/
def effective (configured : Bool) (a : Jmap.Account) (threadId : String) (folder : MailFolder)
    (x : Jmap.Exchange) : Bool :=
  configured && (Jmap.target? a folder x).isSome && Jmap.updated a threadId x ≠ []

/-- The reads of an unsnooze. -/
def beginUnsnooze (configured : Bool) (s : State) (ucUid : Option String)
    (workspaceId id : String) : Call :=
  match s.table.findActive workspaceId id with
  | none => .returned false
  | some row =>
    match resolveSovereignMailboxForCaller s.settings workspaceId ucUid row.mailboxId with
    | none => .returned false
    | some mailbox =>
      if configured then .unsnoozing row mailbox.emailAddress else .returned false

/-- One step. -/
def step (configured : Bool) (s : State) : Label → Option State
  | .snooze k ucUid input detail =>
    match s.calls k with
    | .idle =>
      match snoozeGate s.settings configured ucUid input with
      | none => some (s.setCall k (.returned false))
      | some (snoozeUntil, mailbox) =>
        let subject := resolveSnoozeSubject input.subject detail
        some (s.setCall k (.snoozing ⟨ucUid, input, snoozeUntil, subject⟩ mailbox.emailAddress))
    | _ => none
  | .hide k x =>
    match s.calls k with
    | .snoozing draft address =>
      let hidden := moveThread configured s.engine address draft.input.threadId .archive x
      let call := if hidden.2 then .hidden draft else .returned false
      some { s.setCall k call with engine := hidden.1 }
    | _ => none
  | .create k newId now =>
    match s.calls k with
    | .hidden draft =>
      (s.table.create (draft.row newId now)).map fun table =>
        { s.setCall k (.returned true) with
          table := table
          log := s.log ++ [.created (draft.row newId now)] }
    | _ => none
  | .locate k ucUid key =>
    match s.calls k with
    | .idle =>
      match s.table.findActiveThread key with
      | none => some (s.setCall k (.returned false))
      | some row => some (s.setCall k (.located ucUid key.1 row.id))
    | _ => none
  | .unsnooze k ucUid workspaceId id =>
    match s.calls k with
    | .idle => some (s.setCall k (beginUnsnooze configured s ucUid workspaceId id))
    | _ => none
  | .reread k =>
    match s.calls k with
    | .located ucUid workspaceId id =>
      some (s.setCall k (beginUnsnooze configured s ucUid workspaceId id))
    | _ => none
  | .restore k x =>
    match s.calls k with
    | .unsnoozing row address =>
      let restored := moveThread configured s.engine address row.threadId .inbox x
      let call := if restored.2 then .restored row else .returned false
      some { s.setCall k call with engine := restored.1 }
    | _ => none
  | .cancel k =>
    match s.calls k with
    | .restored row =>
      some { s.setCall k (.returned true) with
        table := s.table.cancel row.id
        log := s.log ++ [.unsnoozed row.key] }
    | _ => none
  | .fail k => some (s.setCall k .failed)
  | .sweep w now take =>
    match s.workers w with
    | .resting => some (s.setWork w (.sweeping (s.table.due now take)))
    | _ => none
  | .lookup w =>
    match s.workers w with
    | .sweeping [] => some (s.setWork w .resting)
    | .sweeping (row :: queue) =>
      match snoozeMailbox s.settings row with
      | none => some (s.setWork w (.sweeping queue))
      | some mailbox =>
        if configured then some (s.setWork w (.found row mailbox.emailAddress queue))
        else some (s.setWork w (.sweeping queue))
    | _ => none
  | .move w x =>
    match s.workers w with
    | .found row address queue =>
      let restored := moveThread configured s.engine address row.threadId .inbox x
      let work := if restored.2 then .moved row queue else .sweeping queue
      let events :=
        if effective configured (s.engine address) row.threadId .inbox x then [.surfaced row] else []
      some { s.setWork w work with engine := restored.1, log := s.log ++ events }
    | _ => none
  | .claim w =>
    match s.workers w with
    | .moved row queue => some { s.setWork w (.sweeping queue) with table := s.table.claim row.id }
    | _ => none
  | .throws w =>
    match s.workers w with
    | .sweeping (_ :: queue) | .found _ _ queue | .moved _ queue =>
      some (s.setWork w (.sweeping queue))
    | _ => none
  | .crash w => some (s.setWork w .resting)
  | .mail engine => some { s with engine := engine }

/-- Snoozes and workers. Initially nothing is snoozed, no call runs and no worker sweeps; the
mail and the settings are any. -/
def system (configured : Bool) : System State Label where
  init s := s.table.rows = [] ∧ (∀ k, s.calls k = .idle) ∧ (∀ w, s.workers w = .resting) ∧ s.log = []
  step := step configured

/-! ### The steps by name -/

/-- The rows a worker has in hand. -/
def Work.rows : Work → List SnoozedThread
  | .resting => []
  | .sweeping queue => queue
  | .found row _ queue | .moved row queue => row :: queue

/-- The worker has moved the thread of the row with this id, and not yet claimed the row. -/
def Work.Holds (work : Work) (id : String) : Prop :=
  ∃ row queue, work = .moved row queue ∧ row.id = id

/-- The steps, by what they do to the rows, the workers and the log. -/
inductive Step (configured : Bool) (s : State) : Label → State → Prop
  /-- A call moves on, or the mail changes. -/
  | aside {l s'} (htable : s'.table = s.table) (hworkers : s'.workers = s.workers)
      (hlog : s'.log = s.log) : Step configured s l s'
  | create {k newId now draft table} (hk : s.calls k = .hidden draft)
      (hcreate : s.table.create (draft.row newId now) = some table) :
      Step configured s (.create k newId now)
        { s.setCall k (.returned true) with
          table := table
          log := s.log ++ [.created (draft.row newId now)] }
  | cancel {k row} (hk : s.calls k = .restored row) :
      Step configured s (.cancel k)
        { s.setCall k (.returned true) with
          table := s.table.cancel row.id
          log := s.log ++ [.unsnoozed row.key] }
  | sweep {w now take} (hw : s.workers w = .resting) :
      Step configured s (.sweep w now take) (s.setWork w (.sweeping (s.table.due now take)))
  /-- A worker comes to its next row, finds the row's mailbox or has no more rows. -/
  | lookup {w queue work} (hw : s.workers w = .sweeping queue)
      (hrows : ∀ row ∈ work.rows, row ∈ queue) : Step configured s (.lookup w) (s.setWork w work)
  | move {w x row address queue work} (hw : s.workers w = .found row address queue)
      (hwork : work = if (moveThread configured s.engine address row.threadId .inbox x).2 then
        .moved row queue else .sweeping queue) :
      Step configured s (.move w x)
        { s.setWork w work with
          engine := (moveThread configured s.engine address row.threadId .inbox x).1
          log := s.log ++ if effective configured (s.engine address) row.threadId .inbox x then
            [.surfaced row] else [] }
  | claim {w row queue} (hw : s.workers w = .moved row queue) :
      Step configured s (.claim w)
        { s.setWork w (.sweeping queue) with table := s.table.claim row.id }
  /-- A worker drops its row, or all its rows. -/
  | drop {l w work} (hl : l = .throws w ∨ l = .crash w)
      (hrows : ∀ row ∈ work.rows, row ∈ (s.workers w).rows) : Step configured s l (s.setWork w work)

theorem step_sound {configured : Bool} {s s' : State} {l : Label}
    (h : step configured s l = some s') : Step configured s l s' := by
  cases l with
  | snooze k ucUid input detail =>
    simp only [step] at h
    split at h
    · split at h <;> (obtain rfl := Option.some.inj h; exact .aside rfl rfl rfl)
    · cases h
  | hide k x =>
    simp only [step] at h
    split at h
    · obtain rfl := Option.some.inj h
      exact .aside rfl rfl rfl
    · cases h
  | create k newId now =>
    simp only [step] at h
    split at h
    · next draft hk =>
      obtain ⟨table, hcreate, rfl⟩ := Option.map_eq_some_iff.mp h
      exact .create hk hcreate
    · cases h
  | locate k ucUid key =>
    simp only [step] at h
    split at h
    · split at h <;> (obtain rfl := Option.some.inj h; exact .aside rfl rfl rfl)
    · cases h
  | unsnooze k ucUid workspaceId id =>
    simp only [step] at h
    split at h
    · obtain rfl := Option.some.inj h
      exact .aside rfl rfl rfl
    · cases h
  | reread k =>
    simp only [step] at h
    split at h
    · obtain rfl := Option.some.inj h
      exact .aside rfl rfl rfl
    · cases h
  | restore k x =>
    simp only [step] at h
    split at h
    · obtain rfl := Option.some.inj h
      exact .aside rfl rfl rfl
    · cases h
  | cancel k =>
    simp only [step] at h
    split at h
    · next row hk =>
      obtain rfl := Option.some.inj h
      exact .cancel hk
    · cases h
  | fail k =>
    obtain rfl := Option.some.inj h
    exact .aside rfl rfl rfl
  | sweep w now take =>
    simp only [step] at h
    split at h
    · next hw =>
      obtain rfl := Option.some.inj h
      exact .sweep hw
    · cases h
  | lookup w =>
    simp only [step] at h
    split at h
    · next hw =>
      obtain rfl := Option.some.inj h
      exact .lookup hw nofun
    · next row queue hw =>
      split at h
      · obtain rfl := Option.some.inj h
        exact .lookup hw fun r hr => List.mem_cons_of_mem _ hr
      · split at h
        · obtain rfl := Option.some.inj h
          exact .lookup hw fun r hr => hr
        · obtain rfl := Option.some.inj h
          exact .lookup hw fun r hr => List.mem_cons_of_mem _ hr
    · cases h
  | move w x =>
    simp only [step] at h
    split at h
    · next row address queue hw =>
      obtain rfl := Option.some.inj h
      exact .move hw rfl
    · cases h
  | claim w =>
    simp only [step] at h
    split at h
    · next row queue hw =>
      obtain rfl := Option.some.inj h
      exact .claim hw
    · cases h
  | throws w =>
    simp only [step] at h
    split at h
    · next row queue hw =>
      obtain rfl := Option.some.inj h
      exact .drop (.inl rfl) fun r hr => by
        rw [hw]
        exact List.mem_cons_of_mem _ hr
    · next row address queue hw =>
      obtain rfl := Option.some.inj h
      exact .drop (.inl rfl) fun r hr => by
        rw [hw]
        exact List.mem_cons_of_mem _ hr
    · next row queue hw =>
      obtain rfl := Option.some.inj h
      exact .drop (.inl rfl) fun r hr => by
        rw [hw]
        exact List.mem_cons_of_mem _ hr
    · cases h
  | crash w =>
    obtain rfl := Option.some.inj h
    exact .drop (.inr rfl) nofun
  | mail engine =>
    obtain rfl := Option.some.inj h
    exact .aside rfl rfl rfl

/-! ### What the rows are for -/

/-- The id of the row that an event surfaces. -/
def Event.surfacedId : Event → Option String
  | .surfaced row => some row.id
  | _ => none

/-- **No surfacing for an earlier snooze.** What a worker surfaces after an unsnooze of the
thread was created after it. -/
def LaterSnooze (pre : List Event) (e : Event) : Prop :=
  ∀ row, e = .surfaced row → ∀ before mid, pre = before ++ .unsnoozed row.key :: mid →
    ∃ created, .created created ∈ mid ∧ created.id = row.id

/-- **Safe snoozes.** -/
structure Safe (s : State) : Prop where
  /-- Of a thread, at most one row is active. -/
  one_active : ∀ r ∈ s.table.rows, ∀ r' ∈ s.table.rows, r.state = .active → r'.state = .active →
    r.key = r'.key → r = r'
  after_unsnooze : Justified LaterSnooze s.log
  /-- A row surfaces its thread at most once. -/
  once : (s.log.filterMap Event.surfacedId).Nodup

/-- **The condition.** A row is created while its thread has no active row; a row is cancelled
while the thread has no other active one; and a worker's move, if it takes effect, is of an
active row that no other worker has moved and not yet claimed, its answer arrives, and
nothing throws before the claim. -/
def Careful (configured : Bool) (s : State) : Label → Prop
  | .create k _ _ => ∀ draft, s.calls k = .hidden draft →
    ∀ r ∈ s.table.rows, r.state = .active → r.key ≠ draft.input.key
  | .cancel k => ∀ row, s.calls k = .restored row →
    ∀ r ∈ s.table.rows, r.state = .active → r.key = row.key → r.id = row.id
  | .move w x => ∀ row address queue, s.workers w = .found row address queue →
    effective configured (s.engine address) row.threadId .inbox x = true →
      s.table.isActive row.id = true ∧ (∀ w', ¬(s.workers w').Holds row.id) ∧ x.answered = true
  | .throws w | .crash w => ∀ id, ¬(s.workers w).Holds id
  | _ => True

/-! ### The rows from step to step -/

namespace SnoozedThreads

variable {table table' : SnoozedThreads}

/-- The table has a row with the id and the key of this one. -/
def Knows (table : SnoozedThreads) (row : SnoozedThread) : Prop :=
  ∃ r ∈ table.rows, r.id = row.id ∧ r.key = row.key

theorem isActive_iff {id : String} :
    table.isActive id = true ↔ ∃ r ∈ table.rows, r.id = id ∧ r.state = .active := by
  simp [isActive]

section Update

variable {p : SnoozedThread → Prop} [DecidablePred p] {f : SnoozedThread → SnoozedThread}
  {hf : ∀ r, (f r).id = r.id}

theorem Knows.update {row : SnoozedThread} (h : table.Knows row) (hkey : ∀ r, (f r).key = r.key) :
    (table.update p f hf).Knows row := by
  obtain ⟨r, hr, hid, hrow⟩ := h
  obtain ⟨r', hr', hcase⟩ := Framework.Table.exists_update (p := p) (f := f) hr
  refine ⟨r', hr', ?_⟩
  rcases hcase with ⟨-, rfl⟩ | ⟨-, rfl⟩
  · exact ⟨(hf r).trans hid, (hkey r).trans hrow⟩
  · exact ⟨hid, hrow⟩

theorem Knows.cancel {row : SnoozedThread} (h : table.Knows row) (id : String) :
    (table.cancel id).Knows row :=
  h.update fun _ => rfl

theorem Knows.claim {row : SnoozedThread} (h : table.Knows row) (id : String) :
    (table.claim id).Knows row :=
  h.update fun _ => rfl

theorem active_of_update (hend : ∀ r, (f r).state ≠ .active) {r : SnoozedThread}
    (hr : r ∈ (table.update p f hf).rows) (hactive : r.state = .active) :
    r ∈ table.rows ∧ ¬p r := by
  rcases Framework.Table.mem_update.mp hr with ⟨r₀, -, -, rfl⟩ | hold
  · exact absurd hactive (hend r₀)
  · exact hold

end Update

theorem Knows.create {row created : SnoozedThread} (h : table.Knows row)
    (hcreate : table.create created = some table') : table'.Knows row := by
  obtain ⟨r, hr, hrow⟩ := h
  refine ⟨r, ?_, hrow⟩
  rw [(create_some hcreate).2]
  exact List.mem_append_left _ hr

theorem mem_of_create {created r : SnoozedThread} (hcreate : table.create created = some table')
    (hr : r ∈ table'.rows) : r ∈ table.rows ∨ r = created := by
  rw [(create_some hcreate).2] at hr
  simpa using hr

end SnoozedThreads

/-- A move that takes effect and is answered is answered with yes. -/
theorem moveThread_snd {configured : Bool} {engine : Text → Jmap.Account} {address : Text}
    {threadId : String} {folder : MailFolder} {x : Jmap.Exchange}
    (h : effective configured (engine address) threadId folder x = true)
    (hanswered : x.answered = true) :
    (moveThread configured engine address threadId folder x).2 = true := by
  simp only [effective, Bool.and_eq_true, decide_eq_true_eq] at h
  obtain ⟨⟨rfl, hsome⟩, hupdated⟩ := h
  obtain ⟨target, htarget⟩ := Option.isSome_iff_exists.mp hsome
  unfold moveThread
  rw [Jmap.moveThreadToFolder_of_some htarget]
  exact Jmap.setThread_snd.mpr ⟨hanswered, hupdated⟩

/-! ### The invariant -/

/-- **The invariant.** Besides being safe: what a worker has in hand is in the table; a row
that was surfaced and is still active is about to be claimed; and what is active of a thread
was created after its unsnoozes. -/
structure Inv (s : State) : Prop extends Safe s where
  in_hand : ∀ w, ∀ row ∈ (s.workers w).rows, s.table.Knows row
  surfaced : ∀ row, .surfaced row ∈ s.log → s.table.Knows row ∧
    (s.table.isActive row.id = true → ∃ w, (s.workers w).Holds row.id)
  unsnoozed : ∀ key pre post, s.log = pre ++ .unsnoozed key :: post →
    ∀ r ∈ s.table.rows, r.state = .active → r.key = key →
      ∃ created, .created created ∈ post ∧ created.id = r.id

namespace Inv

variable {configured : Bool} {s s' : State}

theorem initial (h : (system configured).init s) : Inv s := by
  obtain ⟨hrows, -, hworkers, hlog⟩ := h
  constructor
  case toSafe =>
    refine ⟨?_, ?_, ?_⟩
    · rw [hrows]
      exact nofun
    · rw [hlog]
      exact .nil
    · rw [hlog]
      exact List.nodup_nil
  case in_hand =>
    intro w row hrow
    rw [hworkers] at hrow
    cases hrow
  case surfaced =>
    intro row hrow
    rw [hlog] at hrow
    cases hrow
  case unsnoozed =>
    intro key pre post hsplit
    rw [hlog] at hsplit
    exact absurd hsplit (by simp)

/-- Workers move on without the table or the log: they take rows of the table in hand, and
none that is about to be claimed is dropped. -/
theorem work (h : Inv s) (htable : s'.table = s.table) (hlog : s'.log = s.log)
    (hrows : ∀ w, ∀ row ∈ (s'.workers w).rows, s.table.Knows row)
    (hholds : ∀ w id, (s.workers w).Holds id → (s'.workers w).Holds id) : Inv s' := by
  constructor
  case toSafe =>
    refine ⟨?_, ?_, ?_⟩
    · rw [htable]
      exact h.one_active
    · rw [hlog]
      exact h.after_unsnooze
    · rw [hlog]
      exact h.once
  case in_hand =>
    rw [htable]
    exact hrows
  case surfaced =>
    rw [htable, hlog]
    intro row hrow
    obtain ⟨hknows, hactive⟩ := h.surfaced row hrow
    refine ⟨hknows, fun hrow => ?_⟩
    obtain ⟨w, hw⟩ := hactive hrow
    exact ⟨w, hholds w row.id hw⟩
  case unsnoozed =>
    rw [htable, hlog]
    exact h.unsnoozed

/-- One worker moves on. -/
theorem advance (h : Inv s) {w : ℕ} {work : Work} (htable : s'.table = s.table)
    (hlog : s'.log = s.log) (hworkers : s'.workers = Function.update s.workers w work)
    (hrows : ∀ row ∈ work.rows, s.table.Knows row)
    (hholds : ∀ id, ¬(s.workers w).Holds id) : Inv s' := by
  refine h.work htable hlog (fun w' => ?_) fun w' id hid => ?_
  · rw [hworkers]
    by_cases hw : w' = w
    · subst hw
      rwa [Function.update_self]
    · rw [Function.update_of_ne hw]
      exact h.in_hand w'
  · have hw : w' ≠ w := by
      rintro rfl
      exact hholds id hid
    rwa [hworkers, Function.update_of_ne hw]

/-- A call writes to the table, and the log is told. -/
theorem write (h : Inv s) {e : Event} (hlog : s'.log = s.log ++ [e]) (he : e.surfacedId = none)
    (hworkers : s'.workers = s.workers)
    (hknows : ∀ row, s.table.Knows row → s'.table.Knows row)
    (hactive : ∀ row, s.table.Knows row → s'.table.isActive row.id = true →
      s.table.isActive row.id = true)
    (hone : ∀ r ∈ s'.table.rows, ∀ r' ∈ s'.table.rows, r.state = .active → r'.state = .active →
      r.key = r'.key → r = r')
    (hnew : ∀ r ∈ s'.table.rows, r.state = .active →
      (r ∈ s.table.rows ∨ ∃ created, e = .created created ∧ created.id = r.id) ∧
        e ≠ .unsnoozed r.key) : Inv s' := by
  have hnot : ∀ row, e ≠ .surfaced row := by
    rintro row rfl
    cases he
  constructor
  case toSafe =>
    refine ⟨hone, ?_, ?_⟩
    · rw [hlog]
      exact h.after_unsnooze.append_singleton fun row hrow => absurd hrow (hnot row)
    · rw [hlog, List.filterMap_append, List.filterMap_cons_none he, List.filterMap_nil,
        List.append_nil]
      exact h.once
  case in_hand =>
    intro w row hrow
    rw [hworkers] at hrow
    exact hknows row (h.in_hand w row hrow)
  case surfaced =>
    intro row hrow
    rw [hlog] at hrow
    -- The new event surfaces no row, so that the row was surfaced before.
    have hold : .surfaced row ∈ s.log := by
      rcases List.mem_append.mp hrow with hold | hlast
      · exact hold
      · exact absurd (List.mem_singleton.mp hlast).symm (hnot row)
    obtain ⟨hrow, hclaim⟩ := h.surfaced row hold
    rw [hworkers]
    exact ⟨hknows row hrow, fun hactive' => hclaim (hactive row hrow hactive')⟩
  case unsnoozed =>
    intro key pre post hsplit r hr hstate hkey
    obtain ⟨hfrom, hother⟩ := hnew r hr hstate
    rw [hlog] at hsplit
    rcases Framework.split_append_singleton hsplit with ⟨-, hlast, -⟩ | ⟨post', rfl, hbefore⟩
    · -- The unsnooze is of this very moment.
      rw [← hlast, hkey] at hother
      exact absurd rfl hother
    · rcases hfrom with hold | ⟨created, rfl, hid⟩
      · obtain ⟨created, hcreated, hid⟩ := h.unsnoozed key pre post' hbefore r hold hstate hkey
        exact ⟨created, List.mem_append_left _ hcreated, hid⟩
      · exact ⟨created, List.mem_append_right _ (List.mem_singleton_self _), hid⟩

/-- A worker surfaces a thread, and has its row in hand. -/
theorem surface (h : Inv s) {w : ℕ} {row : SnoozedThread} {queue : List SnoozedThread}
    (htable : s'.table = s.table) (hlog : s'.log = s.log ++ [.surfaced row])
    (hworkers : s'.workers = Function.update s.workers w (.moved row queue))
    (hrows : ∀ r ∈ row :: queue, s.table.Knows r) (hidle : ∀ id, ¬(s.workers w).Holds id)
    (hactive : s.table.isActive row.id = true) (hholds : ∀ w', ¬(s.workers w').Holds row.id) :
    Inv s' := by
  obtain ⟨r, hr, hid, hstate⟩ := SnoozedThreads.isActive_iff.mp hactive
  have hknows := hrows row List.mem_cons_self
  have hkey : r.key = row.key := by
    obtain ⟨r', hr', hid', hkey'⟩ := hknows
    rw [SnoozedThreads.eq_of_id_eq hr hr' (hid.trans hid'.symm)]
    exact hkey'
  -- Nothing was surfaced for the row: it would be about to be claimed.
  have hfresh : ∀ other, .surfaced other ∈ s.log → other.id ≠ row.id := by
    intro other hother hsame
    obtain ⟨w', hw'⟩ := (h.surfaced other hother).2 (by rwa [hsame])
    rw [hsame] at hw'
    exact hholds w' hw'
  constructor
  case toSafe =>
    refine ⟨?_, ?_, ?_⟩
    · rw [htable]
      exact h.one_active
    · -- The row is still active, so that it was created after the last unsnooze of its key.
      rw [hlog]
      refine h.after_unsnooze.append_singleton ?_
      rintro other heq before mid hsplit
      obtain rfl := Event.surfaced.inj heq
      obtain ⟨created, hcreated, hid'⟩ := h.unsnoozed row.key before mid hsplit r hr hstate hkey
      exact ⟨created, hcreated, hid'.trans hid⟩
    · rw [hlog, List.filterMap_append, List.nodup_append]
      refine ⟨h.once, List.nodup_singleton _, fun id hid id' hid' => ?_⟩
      obtain ⟨e, he, hsurfaced⟩ := List.mem_filterMap.mp hid
      obtain rfl : id' = row.id := List.mem_singleton.mp hid'
      cases e with
      | surfaced other =>
        obtain rfl := Option.some.inj hsurfaced
        exact hfresh other he
      | created _ | unsnoozed _ => cases hsurfaced
  case in_hand =>
    rw [htable]
    intro w' r hr
    -- Only this worker has other rows in hand than before.
    rw [hworkers] at hr
    rcases update_cases (r ∈ Work.rows ·) hr with ⟨rfl, hmoved⟩ | ⟨-, hr⟩
    · exact hrows r hmoved
    · exact h.in_hand w' r hr
  case surfaced =>
    rw [htable]
    intro other hother
    rw [hlog] at hother
    rcases List.mem_append.mp hother with hold | hlast
    · obtain ⟨hknows', hclaim⟩ := h.surfaced other hold
      refine ⟨hknows', fun hactive' => ?_⟩
      -- The worker that is about to claim the other row is another worker.
      obtain ⟨w', hw'⟩ := hclaim hactive'
      have hne : w' ≠ w := by
        rintro rfl
        exact hidle _ hw'
      exact ⟨w', by rwa [hworkers, Function.update_of_ne hne]⟩
    · obtain rfl := Event.surfaced.inj (List.mem_singleton.mp hlast)
      refine ⟨hknows, fun _ => ⟨w, ?_⟩⟩
      rw [hworkers, Function.update_self]
      exact ⟨other, queue, rfl, rfl⟩
  case unsnoozed =>
    rw [htable, hlog]
    intro key pre post hsplit r' hr' hstate' hkey'
    -- To surface a row is not to unsnooze a key.
    rcases Framework.split_append_singleton hsplit with ⟨-, hlast, -⟩ | ⟨post', rfl, hbefore⟩
    · cases hlast
    · obtain ⟨created, hcreated, hid'⟩ := h.unsnoozed key pre post' hbefore r' hr' hstate' hkey'
      exact ⟨created, List.mem_append_left _ hcreated, hid'⟩

/-- A worker claims the row it has moved. -/
theorem claim (h : Inv s) {w : ℕ} {row : SnoozedThread} {queue : List SnoozedThread}
    (hw : s.workers w = .moved row queue) :
    Inv { s.setWork w (.sweeping queue) with table := s.table.claim row.id } := by
  have hactive : ∀ {r : SnoozedThread}, r ∈ (s.table.claim row.id).rows → r.state = .active →
      r ∈ s.table.rows ∧ ¬(r.id = row.id ∧ r.state = .active) :=
    fun hr hstate => SnoozedThreads.active_of_update (fun _ heq => by cases heq) hr hstate
  have hknows : ∀ r, s.table.Knows r → (s.table.claim row.id).Knows r :=
    fun r hr => hr.claim row.id
  constructor
  case toSafe =>
    refine ⟨fun r hr r' hr' hstate hstate' hkey => ?_, h.after_unsnooze, h.once⟩
    exact h.one_active r (hactive hr hstate).1 r' (hactive hr' hstate').1 hstate hstate' hkey
  case in_hand =>
    intro w' r hr
    refine hknows r ?_
    simp only [State.setWork] at hr
    rcases update_cases (r ∈ Work.rows ·) hr with ⟨rfl, hmoved⟩ | ⟨-, hr⟩
    · -- The row that is claimed is no longer in hand.
      refine h.in_hand w' r ?_
      rw [hw]
      exact List.mem_cons_of_mem _ hmoved
    · exact h.in_hand w' r hr
  case surfaced =>
    intro other hother
    obtain ⟨hother, hclaim⟩ := h.surfaced other hother
    refine ⟨hknows other hother, fun hstill => ?_⟩
    obtain ⟨r, hr, hid, hstate⟩ := SnoozedThreads.isActive_iff.mp hstill
    obtain ⟨hrow, hguard⟩ := hactive hr hstate
    obtain ⟨w', hw'⟩ := hclaim (SnoozedThreads.isActive_iff.mpr ⟨r, hrow, hid, hstate⟩)
    -- It is another row than the one that is claimed.
    have hne : w' ≠ w := by
      rintro rfl
      obtain ⟨held, queue', hheld, hheldid⟩ := hw'
      rw [hw] at hheld
      obtain ⟨rfl, -⟩ := Work.moved.inj hheld
      exact hguard ⟨hid.trans hheldid.symm, hstate⟩
    refine ⟨w', ?_⟩
    simp only [State.setWork]
    rwa [Function.update_of_ne hne]
  case unsnoozed =>
    intro key pre post hsplit r hr hstate hkey
    exact h.unsnoozed key pre post hsplit r (hactive hr hstate).1 hstate hkey

/-- **One careful step.** -/
theorem step (h : Inv s) {l : Label} (hc : Careful configured s l)
    (hs : Snooze.step configured s l = some s') : Inv s' := by
  cases step_sound hs with
  | aside htable hworkers hlog =>
    refine h.work htable hlog (fun w => ?_) fun w id hid => ?_
    · rw [hworkers]
      exact h.in_hand w
    · rwa [hworkers]
  | @create k newId now draft table hk hcreate =>
    have hkey : (draft.row newId now).key = draft.input.key := rfl
    have hfree := (SnoozedThreads.create_some hcreate).1
    refine h.write (e := .created (draft.row newId now)) rfl rfl rfl
      (fun row hrow => hrow.create hcreate) ?_ ?_ ?_
    · -- A row that was known before is not the new one, whose id is free.
      intro row hrow hactive
      obtain ⟨r, hr, hid, hstate⟩ := SnoozedThreads.isActive_iff.mp hactive
      rcases SnoozedThreads.mem_of_create hcreate hr with hold | rfl
      · exact SnoozedThreads.isActive_iff.mpr ⟨r, hold, hid, hstate⟩
      · obtain ⟨r', hr', hid', -⟩ := hrow
        exact absurd (hid'.trans hid.symm) (hfree r' hr')
    · -- The key of the new row has no active row yet.
      intro r hr r' hr' hstate hstate' hsame
      rcases SnoozedThreads.mem_of_create hcreate hr with hold | rfl
      · rcases SnoozedThreads.mem_of_create hcreate hr' with hold' | rfl
        · exact h.one_active r hold r' hold' hstate hstate' hsame
        · exact absurd (hsame.trans hkey) (hc draft hk r hold hstate)
      · rcases SnoozedThreads.mem_of_create hcreate hr' with hold' | rfl
        · exact absurd (hsame.symm.trans hkey) (hc draft hk r' hold' hstate')
        · rfl
    · intro r hr _
      refine ⟨?_, nofun⟩
      rcases SnoozedThreads.mem_of_create hcreate hr with hold | rfl
      · exact .inl hold
      · exact .inr ⟨_, rfl, rfl⟩
  | @cancel k row hk =>
    have hactive : ∀ {r : SnoozedThread}, r ∈ (s.table.cancel row.id).rows → r.state = .active →
        r ∈ s.table.rows ∧ ¬r.id = row.id :=
      fun hr hstate => SnoozedThreads.active_of_update (fun _ heq => by cases heq) hr hstate
    refine h.write (e := .unsnoozed row.key) rfl rfl rfl
      (fun r hr => hr.cancel row.id) ?_ ?_ ?_
    · intro r _ hstill
      obtain ⟨r', hr', hid, hstate⟩ := SnoozedThreads.isActive_iff.mp hstill
      exact SnoozedThreads.isActive_iff.mpr ⟨r', (hactive hr' hstate).1, hid, hstate⟩
    · intro r hr r' hr' hstate hstate' hkey
      exact h.one_active r (hactive hr hstate).1 r' (hactive hr' hstate').1 hstate hstate' hkey
    · -- No other active row has the key that is unsnoozed.
      intro r hr hstate
      obtain ⟨hrow, hother⟩ := hactive hr hstate
      refine ⟨.inl hrow, fun heq => ?_⟩
      exact hother (hc row hk r hrow hstate (Event.unsnoozed.inj heq).symm)
  | @sweep w now take hw =>
    refine h.advance rfl rfl rfl (fun row hrow => ?_) fun id hid => ?_
    · exact ⟨row, (SnoozedThreads.mem_due hrow).1, rfl, rfl⟩
    · obtain ⟨row, queue, hmoved, -⟩ := hid
      rw [hw] at hmoved
      cases hmoved
  | @lookup w queue work hw hrows =>
    refine h.advance rfl rfl rfl (fun row hrow => ?_) fun id hid => ?_
    · refine h.in_hand w row ?_
      rw [hw]
      exact hrows row hrow
    · obtain ⟨row, queue, hmoved, -⟩ := hid
      rw [hw] at hmoved
      cases hmoved
  | @move w x row address queue work hw hwork =>
    have hidle : ∀ id, ¬(s.workers w).Holds id := by
      rintro id ⟨row', queue', hmoved, -⟩
      rw [hw] at hmoved
      cases hmoved
    have hrows : ∀ r ∈ row :: queue, s.table.Knows r := by
      intro r hr
      refine h.in_hand w r ?_
      rw [hw]
      exact hr
    -- Only a move that takes effect is written to the log.
    by_cases heffective : effective configured (s.engine address) row.threadId .inbox x = true
    · obtain ⟨hactive, hholds, hanswered⟩ := hc row address queue hw heffective
      rw [if_pos (moveThread_snd heffective hanswered)] at hwork
      subst hwork
      refine h.surface rfl ?_ rfl hrows hidle hactive hholds
      rw [if_pos heffective]
    · refine h.advance rfl ?_ rfl (fun r hr => hrows r ?_) hidle
      · rw [if_neg heffective]
        exact List.append_nil _
      · rw [hwork] at hr
        split at hr
        · exact hr
        · exact List.mem_cons_of_mem _ hr
  | claim hw => exact h.claim hw
  | @drop _ w work hl hrows =>
    refine h.advance rfl rfl rfl (fun row hrow => h.in_hand w row (hrows row hrow)) ?_
    rcases hl with rfl | rfl
    · exact hc
    · exact hc

end Inv

/-! ### The result -/

/-- **Careful runs are safe.** In every run in which no step goes between a move and the
write that belongs to it, and none snoozes a thread that is snoozed, each thread has at most
one active row, no worker surfaces a thread for a snooze from before its unsnooze, and each
row surfaces its thread at most once. -/
theorem safe_of_reachable (configured : Bool) {s : State}
    (h : (system configured).ReachableUnder (Careful configured) s) : Safe s := by
  have hinv : Inv s := h.invariant (P := Inv) (fun _ h0 => Inv.initial h0)
    fun _ _ _ _ hi hc hs => hi.step hc hs
  exact hinv.toSafe

section Examples

/-- Ada's account, with the message she was sent. -/
def sampleStart : State where
  settings := adasSettings
  engine := (adasDesk [question]).engine
  table := (adasDesk [question]).table
  calls _ := .idle
  workers _ := .resting
  log := []

theorem sampleStart_init : (system true).init sampleStart :=
  ⟨rfl, fun _ => rfl, fun _ => rfl, rfl⟩

/-- The `k`-th call snoozes the thread, under this id. -/
def snoozeSteps (k : ℕ) (id : String) : List Label :=
  [.snooze k (some "ada") adasSnooze [], .hide k .smooth, .create k id k]

/-- Two calls snooze the thread. -/
def twiceSteps : List Label :=
  snoozeSteps 0 "s1" ++ snoozeSteps 1 "s2"

/-- The second snooze is unsnoozed, and a worker sweeps. -/
def earlierSteps : List Label :=
  twiceSteps ++ [.unsnooze 2 (some "ada") "acme" "s2", .restore 2 .smooth, .cancel 2,
    .sweep 0 10 100, .lookup 0, .move 0 .smooth]

/-- Two workers have read the row, and both move the thread. -/
def racingSteps : List Label :=
  snoozeSteps 0 "s1" ++ [.sweep 0 10 100, .sweep 1 10 100, .lookup 0, .lookup 1,
    .move 0 .smooth, .move 1 .smooth]

/-- **Without care.** A thread has two active rows; it is surfaced for the first of them
after an unsnooze has returned true; and two workers surface a thread for the same row. -/
theorem snoozes_interfere :
    (∃ s, (system true).Reachable s ∧
      s.table.rows.countP (fun r => r.key = adasSnooze.key && r.state = .active) = 2) ∧
    (∃ s, (system true).Reachable s ∧ s.calls 2 = .returned true ∧
      ¬Justified LaterSnooze s.log) ∧
    ∃ s, (system true).Reachable s ∧ s.log.filterMap Event.surfacedId = ["s1", "s1"] := by
  have htwice : ((system true).exec sampleStart twiceSteps).isSome = true := rfl
  have hearlier : ((system true).exec sampleStart earlierSteps).isSome = true := rfl
  have hracing : ((system true).exec sampleStart racingSteps).isSome = true := rfl
  refine ⟨⟨_, System.exec_reachable sampleStart_init (Option.some_get htwice).symm, rfl⟩,
    ⟨_, System.exec_reachable sampleStart_init (Option.some_get hearlier).symm, rfl, ?_⟩,
    ⟨_, System.exec_reachable sampleStart_init (Option.some_get hracing).symm, rfl⟩⟩
  intro hjustified
  let row (id : String) (now : ℕ) : SnoozedThread :=
    snoozeRow (some "ada") adasSnooze 10 none id now
  -- Nothing was created between the unsnooze and the worker's move.
  obtain ⟨created, hcreated, -⟩ := hjustified
    [.created (row "s1" 0), .created (row "s2" 1), .unsnoozed adasSnooze.key]
    (.surfaced (row "s1" 0)) [] rfl (row "s1" 0) rfl
    [.created (row "s1" 0), .created (row "s2" 1)] [] rfl
  cases hcreated

/-- A thread is snoozed, surfaced, snoozed again and unsnoozed. -/
theorem safe_of_reachable_run :
    ∃ s : State, s.log.length = 4 ∧ s.table.rows.map (·.state) = [.surfaced, .cancelled] ∧
      Safe s := by
  have hstart : (system true).ReachableUnder (Careful true) sampleStart := .init sampleStart_init
  have hsnoozed := ((hstart.next (.snooze 0 (some "ada") adasSnooze []) trivial rfl).next
    (.hide 0 .smooth) trivial rfl).next (.create 0 "s1" 0) (fun _ _ => nofun) rfl
  have hfound := (hsnoozed.next (.sweep 0 10 100) trivial rfl).next (.lookup 0) trivial rfl
  have hmoved := hfound.next (.move 0 .smooth) (by
    intro row address queue hw _
    cases hw
    refine ⟨rfl, ?_, rfl⟩
    rintro (_ | w') ⟨row', queue', hmoved, -⟩ <;> cases hmoved) rfl
  have hagain := (((hmoved.next (.claim 0) trivial rfl).next
    (.snooze 1 (some "ada") adasSnooze []) trivial rfl).next (.hide 1 .smooth) trivial rfl).next
    (.create 1 "s2" 1) (by
      intro draft _ r hr hactive
      cases List.mem_singleton.mp hr
      cases hactive) rfl
  have hend := ((hagain.next (.unsnooze 2 (some "ada") "acme" "s2") trivial rfl).next
    (.restore 2 .smooth) trivial rfl).next (.cancel 2) (by
      intro row hk r hr hactive _
      cases hk
      rcases List.mem_cons.mp hr with rfl | hr
      · cases hactive
      · rw [List.mem_singleton.mp hr]) rfl
  exact ⟨_, rfl, rfl, safe_of_reachable true hend⟩

end Examples

end Snooze
end EmailOps
