import Mathlib.Data.List.Nodup
import EmailOps.Framework.Log
import EmailOps.Framework.System
import EmailOps.Framework.Table
import EmailOps.Cleanup.Archive

/-!
# The cleanup protocol

`executeCleanup` runs a plan at once, `approveCleanupBatch` one that was staged for
approval. Both are a chain of calls to the cleaner engine, over HTTP: create an archive,
verify it, delete the messages. Any of the calls may fail or time out, and the engine may
go on with a call whose caller has given up. Any number of runs, of the same batch or of
others, interleave, and all of them share the object store.

* `Cleanup.system` is the protocol, with the log of what was exported, verified and
  deleted.
* `Cleanup.Moves` says once what a step can do; every invariant is derived from it.
* `Cleanup.Inv` is the invariant. It rests on two facts: the object under a key covers
  the ids of a run with this key (`createArchive_covers`), and runs with one batch id ask
  for the same ids, since a batch id is either fresh or names a stored plan.
* `Cleanup.deleted_only_when_archived`: whatever is passed to the permanent delete had
  been archived, and the archive verified, before.
-/

namespace EmailOps
namespace Cleanup

open Framework

/-! ### Plans and batches -/

/-- A message of a cleanup plan. -/
structure PlanRow where
  id : Text
  sizeBytes : ℕ
  deriving DecidableEq

inductive CleanupMode where
  | trash | delete | archivePurge | archive | label | unsubscribe | undo
  deriving DecidableEq, Repr

inductive CleanupBatchState where
  | pending | completed | rejected | failed | undone | canceled
  deriving DecidableEq, Repr

structure CleanupResult where
  completed : ℕ
  failed : ℕ
  bytesFreed : ℕ
  totalAttempted : ℕ
  deriving DecidableEq

/-- The reference to a verified archive. -/
structure BackupRef where
  path : String
  verified : Bool
  totalMessages : ℕ
  createdAt : Text
  deriving DecidableEq

/-- A row of the batches' table. `safe` is the part of its plan that is cleaned up. -/
structure CleanupBatch where
  id : String
  workspaceId : String
  provider : Provider
  mode : CleanupMode
  state : CleanupBatchState
  safe : List PlanRow
  query : Text
  result : Option CleanupResult
  backup : Option BackupRef

/-- The ids of a plan that the server's plan has too. -/
def requestedOf (plan serverPlan : List PlanRow) : List Text :=
  (plan.map (·.id)).filter fun id => serverPlan.any (·.id = id)

/-- `estimateBytes`; of several rows with an id the last counts. -/
def estimateBytes (safe : List PlanRow) (requestedIds : List Text) : ℕ :=
  (requestedIds.map fun id =>
    ((safe.reverse.find? (·.id = id)).map (·.sizeBytes)).getD 0).sum

def cleanupResult (safe : List PlanRow) (requested : List Text) (count : ℕ) : CleanupResult where
  completed := count
  failed := requested.length - count
  bytesFreed := estimateBytes safe requested
  totalAttempted := requested.length

/-! ### Runs -/

/-- The parts of the name an archive is stored under. A batch id is a UUID and the time
stamp has a fixed length, so the parts can be read back from the path. -/
structure ArchiveKey where
  workspaceId : String
  provider : Provider
  batchId : String
  iso : String
  deriving DecidableEq

def ArchiveKey.path (key : ArchiveKey) : String :=
  s!"workspaces/{key.workspaceId}/archives/{key.provider.wire}/{key.batchId}-{key.iso}.eml.zip"

/-- The function a run is a call of. -/
inductive Entry where
  | executeCleanup | approveCleanupBatch
  deriving DecidableEq

/-- What a run works on. -/
structure Job where
  entry : Entry
  key : ArchiveKey
  mode : CleanupMode
  safe : List PlanRow
  requested : List Text
  query : Text

/-- What a mode calls for first. -/
inductive Action where
  | archive | trash | organize | notImplemented

def actionOf : Entry → CleanupMode → Action
  | _, .delete | _, .archivePurge => .archive
  | _, .trash => .trash
  | .approveCleanupBatch, .archive => .organize
  | _, _ => .notImplemented

/-- Where a run stands. -/
inductive Run where
  | idle
  /-- `/archive/create` is called. -/
  | archiving (job : Job)
  /-- The archive is there, to be verified. -/
  | archived (job : Job) (ref : ArchiveRef)
  /-- The archive is verified. -/
  | verified (job : Job) (ref : ArchiveRef)
  /-- The call that changes the mailbox is made. -/
  | applying (job : Job) (backup : Option BackupRef)
  /-- The run has returned or thrown, or its process has died. -/
  | ended

/-- A call of `/archive/create`, as the engine sees it. -/
inductive ExportCall where
  | none
  | running (job : Job)
  | answered (ref : Option ArchiveRef)

/-- What the protocol does to the outside, and what it learns there. -/
inductive Event where
  /-- The provider has exported a message, for the archive under the key. -/
  | exported (key : ArchiveKey) (id : Text) (raw : Bytes)
  /-- The verification of the object under the key accepts it. -/
  | verified (c : ℕ) (key : ArchiveKey) (zip : Zip)
  /-- The engine is asked to delete messages. -/
  | deleteCalled (c : ℕ) (requested : List Text)
  /-- Messages are passed to the provider's permanent delete. -/
  | purged (c : ℕ) (ids : List Text)
  | trashed (c : ℕ) (ids : List Text)
  | organized (c : ℕ) (ids : List Text)

/-- The state of the protocol. The log is in the order of events. -/
structure State where
  batches : List CleanupBatch
  /-- The object store. -/
  store : ArchiveKey → Option Zip
  /-- The jobs begun so far. -/
  jobs : List Job
  runs : ℕ → Run
  exports : ℕ → ExportCall
  /-- The chunks of ids that a call of `/cleanup/delete` has still to pass on. -/
  purges : ℕ → List (List Text)
  log : List Event

namespace State

variable (s : State)

def setRun (c : ℕ) (run : Run) : State :=
  { s with runs := Function.update s.runs c run }

def setExport (c : ℕ) (call : ExportCall) : State :=
  { s with exports := Function.update s.exports c call }

def setPurge (c : ℕ) (chunks : List (List Text)) : State :=
  { s with purges := Function.update s.purges c chunks }

def note (events : List Event) : State :=
  { s with log := s.log ++ events }

/-- Is the id in use? -/
def fresh (batchId : String) : Bool :=
  s.batches.all (·.id ≠ batchId) && s.jobs.all (·.key.batchId ≠ batchId)

/-- Update the batch with an id. -/
def updateBatch (id : String) (f : CleanupBatch → CleanupBatch) : State :=
  { s with batches := s.batches.map fun b => if b.id = id then f b else b }

end State

/-! ### The steps -/

/-- The steps of the protocol. -/
inductive Label where
  /-- A batch is staged for approval, under a new id. -/
  | stage (batch : CleanupBatch)
  /-- A batch is settled without a run: rejected, canceled or undone. -/
  | settle (batchId : String) (state : CleanupBatchState)
  /-- `executeCleanup`, up to its first call of the engine, under a new batch id. -/
  | execute (c : ℕ) (key : ArchiveKey) (mode : CleanupMode) (linked : Bool)
      (plan serverPlan : List PlanRow) (query : Text)
  /-- `approveCleanupBatch`, up to its first call of the engine. -/
  | approve (c : ℕ) (workspaceId batchId : String) (linked : Bool) (iso : String)
  /-- The engine exports the messages of a run, and stores the archive. -/
  | exportMessages (c : ℕ) (createdAt : Text) (answers : ℕ → Fetched)
  /-- The answer of `/archive/create` arrives. -/
  | answer (c : ℕ)
  /-- `/archive/verify`, with the object the store has then. -/
  | verify (c : ℕ)
  /-- `/cleanup/delete` is called. -/
  | delete (c : ℕ)
  /-- The engine passes the next chunk to the provider, whose call may raise. -/
  | purge (c : ℕ) (raised : Bool)
  /-- The count arrives, and the outcome is recorded. -/
  | finish (c : ℕ) (count : ℕ)
  /-- A call of the engine fails or times out. -/
  | fail (c : ℕ)
  /-- The process of a run dies. -/
  | crash (c : ℕ)

/-- How many ids a provider is passed at a time. -/
def chunkSize : Provider → ℕ
  | .gmail => 100
  | .microsoft => 20

/-- The slices `ids[i:i + n]`, for `i` from 0 in steps of `n`. -/
def slices (n : ℕ) (ids : List Text) : List (List Text) :=
  (List.range ((ids.length + n - 1) / n)).map fun i => (ids.drop (i * n)).take n

/-- A run throws: of a staged batch the failure is recorded. -/
def throwing (s : State) (c : ℕ) (job : Job) : State :=
  match job.entry with
  | .executeCleanup => s.setRun c .ended
  | .approveCleanupBatch =>
    (s.setRun c .ended).updateBatch job.key.batchId fun b =>
      { b with state := .failed, result := some ⟨0, 0, 0, 0⟩ }

/-- Begin a job with the first thing its mode calls for. -/
def begin (s : State) (c : ℕ) (job : Job) : State :=
  let s := { s with jobs := s.jobs ++ [job] }
  match actionOf job.entry job.mode with
  | .archive => (s.setRun c (.archiving job)).setExport c (.running job)
  | .trash => (s.setRun c (.applying job none)).note [.trashed c job.requested]
  | .organize => (s.setRun c (.applying job none)).note [.organized c job.requested]
  | .notImplemented => throwing s c job

/-- The job of an immediate cleanup. -/
def executeJob (key : ArchiveKey) (mode : CleanupMode) (plan serverPlan : List PlanRow)
    (query : Text) : Job where
  entry := .executeCleanup
  key := key
  mode := mode
  safe := serverPlan
  requested := requestedOf plan serverPlan
  query := query

/-- The job of a staged batch. -/
def approveJob (batch : CleanupBatch) (iso : String) : Job where
  entry := .approveCleanupBatch
  key := ⟨batch.workspaceId, batch.provider, batch.id, iso⟩
  mode := batch.mode
  safe := batch.safe
  requested := requestedOf batch.safe batch.safe
  query := batch.query

def archiveRequest (bucket : String) (job : Job) (createdAt : Text) : ArchiveRequest where
  provider := job.key.provider
  messageIds := job.requested
  bucket := bucket
  key := job.key.path
  query := job.query
  createdAt := createdAt

def backupRef (ref : ArchiveRef) : BackupRef :=
  ⟨ref.key, true, ref.totalMessages, ref.createdAt⟩

/-- The row an immediate cleanup creates at its end. -/
def executedBatch (job : Job) (backup : Option BackupRef) (count : ℕ) : CleanupBatch where
  id := job.key.batchId
  workspaceId := job.key.workspaceId
  provider := job.key.provider
  mode := job.mode
  state := .completed
  safe := job.safe
  query := job.query
  result := some (cleanupResult job.safe job.requested count)
  backup := backup

/-- Record the outcome of a run: in a new row, or in that of the batch. -/
def recording (s : State) (c : ℕ) (job : Job) (backup : Option BackupRef) (count : ℕ) : State :=
  match job.entry with
  | .executeCleanup =>
    -- A row under this id would break the primary key, and the transaction.
    if s.batches.any (·.id = job.key.batchId) then s.setRun c .ended
    else { s.setRun c .ended with batches := s.batches ++ [executedBatch job backup count] }
  | .approveCleanupBatch =>
    (s.setRun c .ended).updateBatch job.key.batchId fun b =>
      { b with
        state := .completed
        result := some (cleanupResult job.safe job.requested count)
        backup := backup.or b.backup }

/-- One atomic step. -/
def step (lib : Library) (bucket : String) (s : State) : Label → Option State
  | .stage batch =>
    if s.fresh batch.id then
      some { s with batches := s.batches ++ [{ batch with state := .pending }] }
    else none
  | .settle batchId state =>
    if state = .pending then none
    else some (s.updateBatch batchId fun b => { b with state := state })
  | .execute c key mode linked plan serverPlan query =>
    match s.runs c with
    | .idle =>
      if !linked then some (s.setRun c .ended)
      else if s.fresh key.batchId then
        some (begin s c (executeJob key mode plan serverPlan query))
      else none
    | _ => none
  | .approve c workspaceId batchId linked iso =>
    match s.runs c with
    | .idle =>
      match s.batches.find? fun b => b.id = batchId && b.workspaceId = workspaceId with
      | none => some (s.setRun c .ended)
      | some batch =>
        if batch.state ≠ .pending then some (s.setRun c .ended)
        else if !linked then some (s.setRun c .ended)
        else some (begin s c (approveJob batch iso))
    | _ => none
  | .exportMessages c createdAt answers =>
    match s.exports c with
    | .running job =>
      match createArchive lib (archiveRequest bucket job createdAt) answers with
      | .error _ => some (s.setExport c (.answered none))
      | .ok (exported, zip) =>
        some { (s.setExport c (.answered (some
            ((archiveRequest bucket job createdAt).ref exported)))).note
              (exported.map fun e => .exported job.key e.id e.raw) with
          store := Function.update s.store job.key (some zip) }
    | _ => none
  | .answer c =>
    match s.runs c, s.exports c with
    | .archiving job, .answered (some ref) => some (s.setRun c (.archived job ref))
    | .archiving job, .answered none => some (throwing s c job)
    | _, _ => none
  | .verify c =>
    match s.runs c with
    | .archived job ref =>
      match s.store job.key with
      | some zip =>
        if (verifyArchive lib (some zip)).success then
          some ((s.setRun c (.verified job ref)).note [.verified c job.key zip])
        else some (throwing s c job)
      | none => some (throwing s c job)
    | _ => none
  | .delete c =>
    match s.runs c with
    | .verified job ref =>
      some (((s.setRun c (.applying job (some (backupRef ref)))).setPurge c
        (slices (chunkSize job.key.provider) job.requested)).note [.deleteCalled c job.requested])
    | _ => none
  | .purge c raised =>
    match s.purges c with
    | chunk :: rest => some ((s.setPurge c (if raised then [] else rest)).note [.purged c chunk])
    | [] => none
  | .finish c count =>
    match s.runs c with
    | .applying job backup => some (recording s c job backup count)
    | _ => none
  | .fail c =>
    match s.runs c with
    | .archiving job | .archived job _ | .verified job _ | .applying job _ =>
      some (throwing s c job)
    | _ => none
  | .crash c => some (s.setRun c .ended)

/-- The cleanup protocol, on an empty store. -/
def system (lib : Library) (bucket : String) : System State Label where
  init s := s.batches = [] ∧ s.jobs = [] ∧ (∀ key, s.store key = none) ∧ (∀ c, s.runs c = .idle) ∧
    (∀ c, s.exports c = .none) ∧ (∀ c, s.purges c = []) ∧ s.log = []
  step := step lib bucket

/-! ### What a step can do -/

/-- The job of a run that has begun and not ended. -/
def Run.job? : Run → Option Job
  | .archiving job | .archived job _ | .verified job _ | .applying job _ => some job
  | .idle | .ended => none

/-- Has the run not yet come to its deletion? -/
def Run.beforeDelete : Run → Bool
  | .idle | .archiving _ | .archived _ _ | .verified _ _ => true
  | .applying _ _ | .ended => false

/-- **What a step can do.** -/
inductive Moves (lib : Library) (bucket : String) (s : State) : Label → State → Prop
  | stage {batch : CleanupBatch} :
      s.fresh batch.id = true →
      Moves lib bucket s (.stage batch)
        { s with batches := s.batches ++ [{ batch with state := .pending }] }
  | settle {batchId : String} {state : CleanupBatchState} :
      state ≠ .pending →
      Moves lib bucket s (.settle batchId state)
        (s.updateBatch batchId fun b => { b with state := state })
  /-- A run that is not begun. -/
  | refused {c : ℕ} {l : Label} :
      s.runs c = .idle → Moves lib bucket s l (s.setRun c .ended)
  | executed {c : ℕ} {key : ArchiveKey} {mode : CleanupMode} {linked : Bool}
      {plan serverPlan : List PlanRow} {query : Text} :
      s.runs c = .idle → s.fresh key.batchId = true →
      Moves lib bucket s (.execute c key mode linked plan serverPlan query)
        (begin s c (executeJob key mode plan serverPlan query))
  | approved {c : ℕ} {workspaceId batchId : String} {linked : Bool} {iso : String}
      {batch : CleanupBatch} :
      s.runs c = .idle → batch ∈ s.batches → batch.id = batchId → batch.state = .pending →
      Moves lib bucket s (.approve c workspaceId batchId linked iso)
        (begin s c (approveJob batch iso))
  | exportFailed {c : ℕ} {createdAt : Text} {answers : ℕ → Fetched} {job : Job} :
      s.exports c = .running job →
      Moves lib bucket s (.exportMessages c createdAt answers) (s.setExport c (.answered none))
  | exported {c : ℕ} {createdAt : Text} {answers : ℕ → Fetched} {job : Job}
      {exported : List Exported} {zip : Zip} :
      s.exports c = .running job →
      createArchive lib (archiveRequest bucket job createdAt) answers = .ok (exported, zip) →
      Moves lib bucket s (.exportMessages c createdAt answers)
        { (s.setExport c (.answered (some
            ((archiveRequest bucket job createdAt).ref exported)))).note
              (exported.map fun e => .exported job.key e.id e.raw) with
          store := Function.update s.store job.key (some zip) }
  | answered {c : ℕ} {job : Job} {ref : ArchiveRef} :
      s.runs c = .archiving job → s.exports c = .answered (some ref) →
      Moves lib bucket s (.answer c) (s.setRun c (.archived job ref))
  | verified {c : ℕ} {job : Job} {ref : ArchiveRef} {zip : Zip} :
      s.runs c = .archived job ref → s.store job.key = some zip →
      (verifyArchive lib (some zip)).success = true →
      Moves lib bucket s (.verify c)
        ((s.setRun c (.verified job ref)).note [.verified c job.key zip])
  | delete {c : ℕ} {job : Job} {ref : ArchiveRef} :
      s.runs c = .verified job ref →
      Moves lib bucket s (.delete c)
        (((s.setRun c (.applying job (some (backupRef ref)))).setPurge c
          (slices (chunkSize job.key.provider) job.requested)).note [.deleteCalled c job.requested])
  | purge {c : ℕ} {raised : Bool} {chunk : List Text} {rest : List (List Text)} :
      s.purges c = chunk :: rest →
      Moves lib bucket s (.purge c raised)
        ((s.setPurge c (if raised then [] else rest)).note [.purged c chunk])
  | finish {c count : ℕ} {job : Job} {backup : Option BackupRef} :
      s.runs c = .applying job backup →
      Moves lib bucket s (.finish c count) (recording s c job backup count)
  /-- A call of the engine has failed, or an answer of it is a refusal. -/
  | thrown {c : ℕ} {l : Label} {job : Job} :
      (s.runs c).job? = some job → ((s.runs c).beforeDelete = false → l = .fail c) →
      Moves lib bucket s l (throwing s c job)
  | crash {c : ℕ} : Moves lib bucket s (.crash c) (s.setRun c .ended)

section Moves

variable {lib : Library} {bucket : String} {s s' : State} {l : Label}

/-- The inversion of a step. -/
theorem moves_of_step (h : step lib bucket s l = some s') : Moves lib bucket s l s' := by
  cases l with
  | stage batch =>
    simp only [Cleanup.step] at h
    split at h
    · next hfresh =>
      cases h
      exact .stage hfresh
    · cases h
  | settle batchId state =>
    simp only [Cleanup.step] at h
    split at h
    · cases h
    · next hstate =>
      cases h
      exact .settle hstate
  | execute c key mode linked plan serverPlan query =>
    simp only [Cleanup.step] at h
    split at h
    · next hidle =>
      split at h
      · cases h
        exact .refused hidle
      · split at h
        · next hfresh =>
          cases h
          exact .executed hidle hfresh
        · cases h
    · cases h
  | approve c workspaceId batchId linked iso =>
    simp only [Cleanup.step] at h
    split at h
    · next hidle =>
      split at h
      · cases h
        exact .refused hidle
      · next batch hfind =>
        split at h
        · cases h
          exact .refused hidle
        · next hpending =>
          split at h
          · cases h
            exact .refused hidle
          · cases h
            have hfound := List.find?_some hfind
            simp only [Bool.and_eq_true, decide_eq_true_eq] at hfound
            exact .approved hidle (List.mem_of_find?_eq_some hfind) hfound.1 (not_not.mp hpending)
    · cases h
  | exportMessages c createdAt answers =>
    simp only [Cleanup.step] at h
    split at h
    · next job hrunning =>
      split at h
      · cases h
        exact .exportFailed hrunning
      · next exported zip hcreate =>
        cases h
        exact .exported hrunning hcreate
    · cases h
  | answer c =>
    simp only [Cleanup.step] at h
    split at h
    · next job ref hrun hanswer =>
      cases h
      exact .answered hrun hanswer
    · next job hrun _ =>
      cases h
      -- Without an archive the run throws, and it has deleted nothing.
      exact .thrown (by rw [hrun]; rfl) fun hlate => by
        rw [hrun] at hlate
        cases hlate
    · cases h
  | verify c =>
    simp only [Cleanup.step] at h
    split at h
    · next job ref hrun =>
      have hjob : (s.runs c).job? = some job := by
        rw [hrun]
        rfl
      -- A run that has still to verify has deleted nothing.
      have hearly : (s.runs c).beforeDelete = false → Label.verify c = .fail c := fun hlate => by
        rw [hrun] at hlate
        cases hlate
      split at h
      · next zip hstore =>
        split at h
        · next haccepted =>
          cases h
          exact .verified hrun hstore haccepted
        · cases h
          exact .thrown hjob hearly
      · cases h
        exact .thrown hjob hearly
    · cases h
  | delete c =>
    simp only [Cleanup.step] at h
    split at h
    · next job ref hrun =>
      cases h
      exact .delete hrun
    · cases h
  | purge c raised =>
    simp only [Cleanup.step] at h
    split at h
    · next chunk rest hpurge =>
      cases h
      exact .purge hpurge
    · cases h
  | finish c count =>
    simp only [Cleanup.step] at h
    split at h
    · next job backup hrun =>
      cases h
      exact .finish hrun
    · cases h
  | fail c =>
    -- In each phase that waits for an answer a failure throws.
    simp only [Cleanup.step] at h
    split at h
    · next job hrun =>
      cases h
      exact .thrown (by rw [hrun]; rfl) fun _ => rfl
    · next job _ hrun =>
      cases h
      exact .thrown (by rw [hrun]; rfl) fun _ => rfl
    · next job _ hrun =>
      cases h
      exact .thrown (by rw [hrun]; rfl) fun _ => rfl
    · next job _ hrun =>
      cases h
      exact .thrown (by rw [hrun]; rfl) fun _ => rfl
    · cases h
  | crash c =>
    cases h
    exact .crash

end Moves

/-! ### The invariant -/

section Invariant

variable (lib : Library)

/-- A verified archive of the run holds every one of the messages, with the content the
provider has exported. -/
def Archived (log : List Event) (c : ℕ) (requested : List Text) : Prop :=
  ∃ key zip, .verified c key zip ∈ log ∧ (verifyArchive lib (some zip)).success = true ∧
    ∀ id ∈ requested, ∃ raw, .exported key id raw ∈ log ∧ Holds lib zip id raw

/-- What the log before an event has to say: messages are deleted that the engine was
asked to delete, when an archive of all of them had been verified. -/
def Event.Sound (pre : List Event) : Event → Prop
  | .purged c ids => ∃ requested, .deleteCalled c requested ∈ pre ∧ (∀ id ∈ ids, id ∈ requested) ∧
      Archived lib pre c requested
  | _ => True

/-- The job of a run that waits for its archive. -/
def Run.awaits : Run → Option Job
  | .archiving job | .archived job _ => some job
  | _ => none

/-- **The invariant.** -/
structure Inv (s : State) : Prop where
  /-- A pending batch and the jobs under its id ask for the same messages. -/
  planned : ∀ b ∈ s.batches, b.state = .pending → ∀ j ∈ s.jobs, j.key.batchId = b.id →
    j.requested = requestedOf b.safe b.safe
  ids : (s.batches.map (·.id)).Nodup
  /-- So do the jobs under one batch id. -/
  same : ∀ j ∈ s.jobs, ∀ j' ∈ s.jobs, j.key.batchId = j'.key.batchId → j.requested = j'.requested
  /-- A stored object covers the messages of a job with its key. -/
  stored : ∀ key zip, s.store key = some zip → ∃ j ∈ s.jobs, j.key = key ∧
    ∀ id ∈ j.requested, ∃ raw, .exported key id raw ∈ s.log ∧ Covers lib zip id raw
  exporting : ∀ c j, s.exports c = .running j → j ∈ s.jobs
  awaiting : ∀ c j, (s.runs c).awaits = some j → j ∈ s.jobs
  verified : ∀ c j ref, s.runs c = .verified j ref → Archived lib s.log c j.requested
  purging : ∀ c, s.purges c ≠ [] → ∃ requested, .deleteCalled c requested ∈ s.log ∧
    (∀ chunk ∈ s.purges c, ∀ id ∈ chunk, id ∈ requested) ∧ Archived lib s.log c requested
  log : Justified (Event.Sound lib) s.log

variable {lib}

/-! What was archived stays archived, whatever else happens. -/

theorem Archived.mono {log : List Event} {c : ℕ} {requested : List Text}
    (h : Archived lib log c requested) (more : List Event) :
    Archived lib (log ++ more) c requested := by
  obtain ⟨key, zip, hverified, haccepted, hholds⟩ := h
  refine ⟨key, zip, List.mem_append_left more hverified, haccepted, fun id hid => ?_⟩
  obtain ⟨raw, hexported, hraw⟩ := hholds id hid
  exact ⟨raw, List.mem_append_left more hexported, hraw⟩

variable {s : State}

/-- More events, none of which deletes. -/
theorem Inv.note (h : Inv lib s) (events : List Event)
    (hevents : ∀ e ∈ events, ∀ c ids, e ≠ .purged c ids) : Inv lib (s.note events) where
  planned := h.planned
  ids := h.ids
  same := h.same
  stored key zip hstore := by
    -- The log only grows, so what was exported stays exported.
    obtain ⟨j, hj, hkey, hcovers⟩ := h.stored key zip hstore
    refine ⟨j, hj, hkey, fun id hid => ?_⟩
    obtain ⟨raw, hexported, hraw⟩ := hcovers id hid
    exact ⟨raw, List.mem_append_left events hexported, hraw⟩
  exporting := h.exporting
  awaiting := h.awaiting
  verified c j ref hrun := (h.verified c j ref hrun).mono events
  purging c hpurge := by
    obtain ⟨requested, hcalled, hsubset, harchived⟩ := h.purging c hpurge
    exact ⟨requested, List.mem_append_left events hcalled, hsubset, harchived.mono events⟩
  log := by
    -- What is noted is no deletion, which alone has to be justified.
    refine h.log.append fun e he pre => ?_
    cases e with
    | purged c ids => exact absurd rfl (hevents _ he c ids)
    | _ => trivial

/-- A run moves on, and is not one that has verified its archive. -/
theorem Inv.setRun (h : Inv lib s) (c : ℕ) (run : Run)
    (hawaits : ∀ j, run.awaits = some j → j ∈ s.jobs)
    (hverified : ∀ j ref, run = .verified j ref → Archived lib s.log c j.requested) :
    Inv lib (s.setRun c run) where
  planned := h.planned
  ids := h.ids
  same := h.same
  stored := h.stored
  exporting := h.exporting
  awaiting d j hd := by
    -- Only the run of `c` moves.
    change (Function.update s.runs c run d).awaits = some j at hd
    rcases update_cases (Run.awaits · = some j) hd with ⟨rfl, hmoved⟩ | ⟨-, hd⟩
    · exact hawaits j hmoved
    · exact h.awaiting d j hd
  verified d j ref hd := by
    change Function.update s.runs c run d = .verified j ref at hd
    rcases update_eq_cases hd with ⟨rfl, hmoved⟩ | ⟨-, hd⟩
    · exact hverified j ref hmoved
    · exact h.verified d j ref hd
  purging := h.purging
  log := h.log

theorem Inv.endRun (h : Inv lib s) (c : ℕ) : Inv lib (s.setRun c .ended) :=
  h.setRun c .ended (fun _ heq => by cases heq) (fun _ _ heq => by cases heq)

theorem Inv.setExport (h : Inv lib s) (c : ℕ) {call : ExportCall}
    (hcall : ∀ j, call = .running j → j ∈ s.jobs) : Inv lib (s.setExport c call) where
  planned := h.planned
  ids := h.ids
  same := h.same
  stored := h.stored
  exporting d j hd := by
    change Function.update s.exports c call d = .running j at hd
    rcases update_eq_cases hd with ⟨rfl, hmoved⟩ | ⟨-, hd⟩
    · exact hcall j hmoved
    · exact h.exporting d j hd
  awaiting := h.awaiting
  verified := h.verified
  purging := h.purging
  log := h.log

theorem updateBatch_ids (s : State) (batchId : String) {f : CleanupBatch → CleanupBatch}
    (hf : ∀ b, (f b).id = b.id) :
    (s.updateBatch batchId f).batches.map (·.id) = s.batches.map (·.id) :=
  Framework.Table.keys_update hf

theorem mem_updateBatch {batchId : String} {f : CleanupBatch → CleanupBatch} {b : CleanupBatch}
    (h : b ∈ (s.updateBatch batchId f).batches) :
    b ∈ s.batches ∧ b.id ≠ batchId ∨ ∃ b₀ ∈ s.batches, b₀.id = batchId ∧ b = f b₀ :=
  (Framework.Table.mem_update.mp h).symm

/-- A batch is settled. -/
theorem Inv.updateBatch (h : Inv lib s) (batchId : String) {f : CleanupBatch → CleanupBatch}
    (hid : ∀ b, (f b).id = b.id) (hstate : ∀ b, (f b).state ≠ .pending) :
    Inv lib (s.updateBatch batchId f) where
  planned b hb hpending j hj hbatch := by
    -- A settled batch is no longer pending, and the others are as they were.
    obtain ⟨hold, -⟩ | ⟨b₀, -, -, rfl⟩ := mem_updateBatch hb
    · exact h.planned b hold hpending j hj hbatch
    · exact absurd hpending (hstate b₀)
  ids := by
    rw [updateBatch_ids s batchId hid]
    exact h.ids
  same := h.same
  stored := h.stored
  exporting := h.exporting
  awaiting := h.awaiting
  verified := h.verified
  purging := h.purging
  log := h.log

/-- A batch is created, under an id that no batch has. -/
theorem Inv.addBatch (h : Inv lib s) {batch : CleanupBatch}
    (hfresh : ∀ b ∈ s.batches, b.id ≠ batch.id)
    (hplanned : batch.state = .pending → ∀ j ∈ s.jobs, j.key.batchId ≠ batch.id) :
    Inv lib { s with batches := s.batches ++ [batch] } where
  planned b hb hpending j hj hbatch := by
    -- Nobody has begun a job under the id of a new batch.
    rcases List.mem_append.mp hb with hb | hb
    · exact h.planned b hb hpending j hj hbatch
    · rw [List.mem_singleton.mp hb] at hpending hbatch
      exact absurd hbatch (hplanned hpending j hj)
  ids := by
    show ((s.batches ++ [batch]).map (·.id)).Nodup
    exact Framework.Table.nodup_insert h.ids hfresh
  same := h.same
  stored := h.stored
  exporting := h.exporting
  awaiting := h.awaiting
  verified := h.verified
  purging := h.purging
  log := h.log

/-- A job is begun that asks for the same messages as its batch, and as the other jobs
under its batch id. -/
theorem Inv.addJob (h : Inv lib s) {job : Job}
    (hplanned : ∀ b ∈ s.batches, b.state = .pending → job.key.batchId = b.id →
      job.requested = requestedOf b.safe b.safe)
    (hsame : ∀ j ∈ s.jobs, j.key.batchId = job.key.batchId → j.requested = job.requested) :
    Inv lib { s with jobs := s.jobs ++ [job] } where
  planned b hb hpending j hj hbatch := by
    rcases List.mem_append.mp hj with hj | hj
    · exact h.planned b hb hpending j hj hbatch
    · rw [List.mem_singleton.mp hj] at hbatch ⊢
      exact hplanned b hb hpending hbatch
  ids := h.ids
  same j hj j' hj' hbatch := by
    -- Two old jobs, an old one and the new one, or the new one twice.
    rcases List.mem_append.mp hj with hj | hj <;> rcases List.mem_append.mp hj' with hj' | hj'
    · exact h.same j hj j' hj' hbatch
    · rw [List.mem_singleton.mp hj'] at hbatch ⊢
      exact hsame j hj hbatch
    · rw [List.mem_singleton.mp hj] at hbatch ⊢
      exact (hsame j' hj' hbatch.symm).symm
    · rw [List.mem_singleton.mp hj, List.mem_singleton.mp hj']
  stored key zip hstore := by
    obtain ⟨j, hj, hrest⟩ := h.stored key zip hstore
    exact ⟨j, List.mem_append_left _ hj, hrest⟩
  exporting c j hj := List.mem_append_left _ (h.exporting c j hj)
  awaiting c j hj := List.mem_append_left _ (h.awaiting c j hj)
  verified := h.verified
  purging := h.purging
  log := h.log

theorem Inv.throwing (h : Inv lib s) (c : ℕ) (job : Job) : Inv lib (throwing s c job) := by
  unfold Cleanup.throwing
  cases job.entry with
  | executeCleanup => exact h.endRun c
  | approveCleanupBatch =>
    exact (h.endRun c).updateBatch job.key.batchId (fun _ => rfl) (fun _ heq => by cases heq)

theorem Inv.begin (h : Inv lib s) (c : ℕ) {job : Job}
    (hplanned : ∀ b ∈ s.batches, b.state = .pending → job.key.batchId = b.id →
      job.requested = requestedOf b.safe b.safe)
    (hsame : ∀ j ∈ s.jobs, j.key.batchId = job.key.batchId → j.requested = job.requested) :
    Inv lib (begin s c job) := by
  have hjob := h.addJob hplanned hsame
  have hmem : job ∈ s.jobs ++ [job] := List.mem_append_right _ (List.mem_singleton_self job)
  unfold Cleanup.begin
  cases actionOf job.entry job.mode with
  | archive =>
    -- The export is called before the run waits for it.
    refine (hjob.setRun c (.archiving job) (fun j heq => ?_) (fun _ _ heq => by cases heq)).setExport c
      (fun j heq => ?_)
    · cases heq
      exact hmem
    · cases heq
      exact hmem
  | trash =>
    refine (hjob.setRun c (.applying job none) (fun _ heq => by cases heq)
      (fun _ _ heq => by cases heq)).note _ ?_
    intro e he d ids heq
    rw [List.mem_singleton.mp he] at heq
    cases heq
  | organize =>
    refine (hjob.setRun c (.applying job none) (fun _ heq => by cases heq)
      (fun _ _ heq => by cases heq)).note _ ?_
    intro e he d ids heq
    rw [List.mem_singleton.mp he] at heq
    cases heq
  | notImplemented => exact hjob.throwing c job

/-- An archive is stored that covers the messages of its job. -/
theorem Inv.putStore (h : Inv lib s) {job : Job} {zip : Zip} (hjob : job ∈ s.jobs)
    (hcovers : ∀ id ∈ job.requested, ∃ raw, .exported job.key id raw ∈ s.log ∧
      Covers lib zip id raw) :
    Inv lib { s with store := Function.update s.store job.key (some zip) } where
  planned := h.planned
  ids := h.ids
  same := h.same
  stored key zip' hstore := by
    -- The archive that is put is the job's, and no other key is touched.
    change Function.update s.store job.key (some zip) key = some zip' at hstore
    rcases update_eq_cases hstore with ⟨rfl, hput⟩ | ⟨-, hstore⟩
    · cases hput
      exact ⟨job, hjob, rfl, hcovers⟩
    · exact h.stored key zip' hstore
  exporting := h.exporting
  awaiting := h.awaiting
  verified := h.verified
  purging := h.purging
  log := h.log

/-- The engine is given ids to delete that it was asked to delete, and are archived. -/
theorem Inv.setPurge (h : Inv lib s) (c : ℕ) {chunks : List (List Text)}
    (hchunks : chunks ≠ [] → ∃ requested, .deleteCalled c requested ∈ s.log ∧
      (∀ chunk ∈ chunks, ∀ id ∈ chunk, id ∈ requested) ∧ Archived lib s.log c requested) :
    Inv lib (s.setPurge c chunks) where
  planned := h.planned
  ids := h.ids
  same := h.same
  stored := h.stored
  exporting := h.exporting
  awaiting := h.awaiting
  verified := h.verified
  purging d hd := by
    -- The chunks of `c` are new, those of the other runs stay.
    change Function.update s.purges c chunks d ≠ [] at hd
    show ∃ requested, _ ∈ s.log ∧ (∀ chunk ∈ Function.update s.purges c chunks d, _) ∧ _
    by_cases hdc : d = c
    · subst hdc
      rw [Function.update_self] at hd ⊢
      exact hchunks hd
    · rw [Function.update_of_ne hdc] at hd ⊢
      exact h.purging d hd
  log := h.log

/-! ### Every step keeps it -/

theorem Inv.initial {bucket : String} (h : (system lib bucket).init s) : Inv lib s := by
  obtain ⟨hbatches, hjobs, hstore, hruns, hexports, hpurges, hlog⟩ := h
  exact
    { planned := fun b hb => by
        rw [hbatches] at hb
        cases hb
      ids := by
        rw [hbatches]
        exact List.nodup_nil
      same := fun j hj => by
        rw [hjobs] at hj
        cases hj
      stored := fun key zip heq => by
        rw [hstore] at heq
        cases heq
      exporting := fun c j heq => by
        rw [hexports] at heq
        cases heq
      awaiting := fun c j heq => by
        rw [hruns] at heq
        cases heq
      verified := fun c j ref heq => by
        rw [hruns] at heq
        cases heq
      purging := fun c hne => absurd (hpurges c) hne
      log := by
        rw [hlog]
        exact Justified.nil }

theorem State.fresh_iff {batchId : String} : s.fresh batchId = true ↔
    (∀ b ∈ s.batches, b.id ≠ batchId) ∧ ∀ j ∈ s.jobs, j.key.batchId ≠ batchId := by
  unfold State.fresh
  rw [Bool.and_eq_true, List.all_eq_true, List.all_eq_true]
  simp only [decide_eq_true_eq]

/-- A staged batch that is found is the one its job asks for. -/
theorem Inv.approve (h : Inv lib s) {c : ℕ} {batch : CleanupBatch} (iso : String)
    (hbatch : batch ∈ s.batches) (hpending : batch.state = .pending) :
    Inv lib (Cleanup.begin s c (approveJob batch iso)) := by
  refine h.begin c (fun b hb _ hid => ?_) (fun j hj hid => ?_)
  · -- No other batch has its id.
    have hsame : batch = b := List.inj_on_of_nodup_map h.ids hbatch hb hid
    rw [← hsame]
    rfl
  · exact h.planned batch hbatch hpending j hj hid

/-- The engine's export stores an archive of every message that was asked for. -/
theorem Inv.exportMessages (h : Inv lib s) {c : ℕ} {job : Job} {request : ArchiveRequest}
    {answers : ℕ → Fetched} {exported : List Exported} {zip : Zip} (ref : Option ArchiveRef)
    (hc : s.exports c = .running job) (hids : request.messageIds = job.requested)
    (hcreate : createArchive lib request answers = .ok (exported, zip)) :
    Inv lib { (s.setExport c (.answered ref)).note
      (exported.map fun e => .exported job.key e.id e.raw) with
        store := Function.update s.store job.key (some zip) } := by
  have hjob : job ∈ s.jobs := h.exporting c job hc
  have hanswered : Inv lib (s.setExport c (.answered ref)) :=
    h.setExport c fun _ heq => by cases heq
  have hnoted := hanswered.note (exported.map fun e => .exported job.key e.id e.raw)
    (fun e he d ids heq => by
      obtain ⟨e', -, rfl⟩ := List.mem_map.mp he
      cases heq)
  -- What the archive covers was exported just now, and is noted with it.
  refine hnoted.putStore hjob fun id hid => ?_
  obtain ⟨e, he, rfl, hcovers⟩ := createArchive_covers hcreate id (hids ▸ hid)
  exact ⟨e.raw, List.mem_append_right _ (List.mem_map_of_mem he), hcovers⟩

/-- A stored object that is accepted holds the messages of every job with its key. -/
theorem Inv.holds (h : Inv lib s) {job : Job} {zip : Zip} (hjob : job ∈ s.jobs)
    (hstore : s.store job.key = some zip)
    (haccepted : (verifyArchive lib (some zip)).success = true) :
    ∀ id ∈ job.requested, ∃ raw, .exported job.key id raw ∈ s.log ∧ Holds lib zip id raw := by
  intro id hid
  -- Whichever run has stored the object, it asked for the same messages.
  obtain ⟨j, hj, hkey, hcovers⟩ := h.stored job.key zip hstore
  have hsame : j.requested = job.requested := h.same j hj job hjob (by rw [hkey])
  obtain ⟨raw, hexported, hraw⟩ := hcovers id (hsame ▸ hid)
  exact ⟨raw, hexported, holds_of_covers haccepted hraw⟩

/-- The verification accepts the object under the key of the run. -/
theorem Inv.verify (h : Inv lib s) {c : ℕ} {job : Job} {ref : ArchiveRef} {zip : Zip}
    (hc : s.runs c = .archived job ref) (hstore : s.store job.key = some zip)
    (haccepted : (verifyArchive lib (some zip)).success = true) :
    Inv lib ((s.setRun c (.verified job ref)).note [.verified c job.key zip]) := by
  have hnoted := h.note [.verified c job.key zip] (fun e he d ids heq => by
    rw [List.mem_singleton.mp he] at heq
    cases heq)
  have hjob : job ∈ s.jobs := h.awaiting c job (by rw [hc]; rfl)
  have harchived : Archived lib (s.log ++ [Event.verified c job.key zip]) c job.requested := by
    -- The archive that was accepted holds each message of the job.
    refine ⟨job.key, zip, List.mem_append_right _ (List.mem_singleton_self _), haccepted,
      fun id hid => ?_⟩
    obtain ⟨raw, hexported, hraw⟩ := h.holds hjob hstore haccepted id hid
    exact ⟨raw, List.mem_append_left _ hexported, hraw⟩
  exact hnoted.setRun c (.verified job ref) (fun _ heq => by cases heq) fun j' ref' heq => by
    cases heq
    exact harchived

theorem mem_of_mem_slices {n : ℕ} {ids chunk : List Text} (h : chunk ∈ slices n ids) :
    ∀ id ∈ chunk, id ∈ ids := by
  obtain ⟨i, -, rfl⟩ := List.mem_map.mp h
  exact fun id hid => List.mem_of_mem_drop (List.mem_of_mem_take hid)

/-- A verified run asks for the deletion. -/
theorem Inv.delete (h : Inv lib s) {c : ℕ} {job : Job} {ref : ArchiveRef} (n : ℕ)
    (backup : Option BackupRef) (hc : s.runs c = .verified job ref) :
    Inv lib (((s.setRun c (.applying job backup)).setPurge c (slices n job.requested)).note
      [.deleteCalled c job.requested]) := by
  have hnoted := h.note [.deleteCalled c job.requested] (fun e he d ids heq => by
    rw [List.mem_singleton.mp he] at heq
    cases heq)
  have hrun := hnoted.setRun c (.applying job backup) (fun _ heq => by cases heq)
    (fun _ _ heq => by cases heq)
  refine hrun.setPurge c fun _ => ⟨job.requested, ?_, ?_, ?_⟩
  · exact List.mem_append_right _ (List.mem_singleton_self _)
  · exact fun chunk hchunk => mem_of_mem_slices hchunk
  · exact (h.verified c job ref hc).mono _

/-- A chunk is passed to the provider. -/
theorem Inv.purge (h : Inv lib s) {c : ℕ} {chunk : List Text} {rest left : List (List Text)}
    (hc : s.purges c = chunk :: rest) (hleft : ∀ chunk ∈ left, chunk ∈ rest) :
    Inv lib ((s.setPurge c left).note [.purged c chunk]) := by
  obtain ⟨requested, hcalled, hsubset, harchived⟩ :=
    h.purging c (by rw [hc]; exact List.cons_ne_nil chunk rest)
  -- The chunk is part of a call that an archive has justified.
  rw [hc] at hsubset
  have hset : Inv lib (s.setPurge c left) := by
    refine h.setPurge c fun _ => ⟨requested, hcalled, fun chunk' hchunk' => ?_, harchived⟩
    exact hsubset chunk' (List.mem_cons_of_mem chunk (hleft chunk' hchunk'))
  have hsound : Event.Sound lib s.log (.purged c chunk) :=
    ⟨requested, hcalled, hsubset chunk List.mem_cons_self, harchived⟩
  exact
    { planned := hset.planned
      ids := hset.ids
      same := hset.same
      stored := fun key zip hstore => by
        obtain ⟨j, hj, hkey, hcovers⟩ := hset.stored key zip hstore
        refine ⟨j, hj, hkey, fun id hid => ?_⟩
        obtain ⟨raw, hexported, hraw⟩ := hcovers id hid
        exact ⟨raw, List.mem_append_left _ hexported, hraw⟩
      exporting := hset.exporting
      awaiting := hset.awaiting
      verified := fun d j ref hd => (hset.verified d j ref hd).mono _
      purging := fun d hd => by
        obtain ⟨requested', hcalled', hsubset', harchived'⟩ := hset.purging d hd
        exact ⟨requested', List.mem_append_left _ hcalled', hsubset', harchived'.mono _⟩
      log := hset.log.append_singleton hsound }

/-- The outcome of a run is recorded. -/
theorem Inv.recording (h : Inv lib s) (c : ℕ) (job : Job) (backup : Option BackupRef) (count : ℕ) :
    Inv lib (recording s c job backup count) := by
  unfold Cleanup.recording
  cases job.entry with
  | executeCleanup =>
    simp only
    split
    · exact h.endRun c
    · rename_i hfree
      refine (h.endRun c).addBatch (fun b hb hid => hfree ?_) (fun heq => by cases heq)
      exact List.any_eq_true.mpr ⟨b, hb, decide_eq_true hid⟩
  | approveCleanupBatch =>
    exact (h.endRun c).updateBatch job.key.batchId (fun _ => rfl) (fun _ heq => by cases heq)

/-- **Every step keeps the invariant.** -/
theorem Inv.step {bucket : String} {l : Label} {s' : State} (h : Inv lib s)
    (hs : (system lib bucket).step s l = some s') : Inv lib s' := by
  cases moves_of_step hs with
  | stage hfresh =>
    obtain ⟨hbatches, hjobs⟩ := State.fresh_iff.mp hfresh
    exact h.addBatch hbatches fun _ => hjobs
  | settle hstate => exact h.updateBatch _ (fun _ => rfl) (fun _ => hstate)
  | refused _ => exact h.endRun _
  | executed _ hfresh =>
    obtain ⟨hbatches, hjobs⟩ := State.fresh_iff.mp hfresh
    exact h.begin _ (fun b hb _ hid => absurd hid.symm (hbatches b hb))
      (fun j hj hid => absurd hid (hjobs j hj))
  | approved _ hbatch _ hpending => exact h.approve _ hbatch hpending
  | exportFailed _ => exact h.setExport _ fun _ heq => by cases heq
  | exported hrunning hcreate => exact h.exportMessages _ hrunning rfl hcreate
  | answered hrun _ =>
    refine h.setRun _ _ (fun j heq => ?_) (fun _ _ heq => by cases heq)
    cases heq
    exact h.awaiting _ _ (by rw [hrun]; rfl)
  | verified hrun hstore haccepted => exact h.verify hrun hstore haccepted
  | delete hrun => exact h.delete _ _ hrun
  | @purge c raised chunk rest hpurge =>
    refine h.purge hpurge fun chunk' hchunk' => ?_
    -- After an error nothing is left to be passed on.
    cases raised with
    | true => cases hchunk'
    | false => exact hchunk'
  | finish _ => exact h.recording _ _ _ _
  | thrown _ _ => exact h.throwing _ _
  | crash => exact h.endRun _

theorem inv_of_reachable {bucket : String} (h : (system lib bucket).Reachable s) : Inv lib s :=
  h.invariant (fun _ hinit => Inv.initial hinit) (fun _ _ _ _ ih hs => ih.step hs)

/-- **Permanent delete is safe.** In every run, whatever ids are passed to the provider's
permanent delete, a verified archive of all the messages the deletion was asked for came
before: each of them was exported, its content is in the archive, and what a restore reads
for it has the content's digest. -/
theorem deleted_only_when_archived {bucket : String} (hreach : (system lib bucket).Reachable s)
    {c : ℕ} {ids : List Text} {pre post : List Event} (hlog : s.log = pre ++ .purged c ids :: post) :
    ∃ requested, .deleteCalled c requested ∈ pre ∧ (∀ id ∈ ids, id ∈ requested) ∧
      Archived lib pre c requested :=
  (inv_of_reachable hreach).log pre _ post hlog

end Invariant

section Examples

/-- The libraries, on the messages of the example. -/
def sampleLibrary : Library where
  sha256 raw :=
    if raw = [104, 105] then
      "8f434346648f6b96df89dda901c5176b10a6d83961dd3c1ac88b59b2dc327aa4".toList
    else if raw = [121, 111] then
      "e9058ab198f6908f702111b0c0fb5b36f99d00554521886c40e2891b349dc7a1".toList
    else []
  urlsafeB64decode text :=
    if text = "aGk=".toList then some [104, 105]
    else if text = "eW8=".toList then some [121, 111]
    else none
  isalnum := Char.isAlphanum

/-- Nothing has happened yet. -/
def noCleanup : State where
  batches := []
  store _ := none
  jobs := []
  runs _ := .idle
  exports _ := .none
  purges _ := []
  log := []

theorem noCleanup_init : (system sampleLibrary "archives").init noCleanup :=
  ⟨rfl, rfl, fun _ => rfl, fun _ => rfl, fun _ => rfl, fun _ => rfl, rfl⟩

/-- A plan of two messages. -/
def sampleRows : List PlanRow := [⟨"m1".toList, 2⟩, ⟨"m2".toList, 2⟩]

/-- A staged batch of two messages is approved, archived, verified and deleted. -/
theorem deleted_only_when_archived_run :
    ∃ s pre, (system sampleLibrary "archives").Reachable s ∧
      s.log = pre ++ [.purged 0 ["m1".toList, "m2".toList]] ∧
      ∃ requested, .deleteCalled 0 requested ∈ pre ∧
        (∀ id ∈ ["m1".toList, "m2".toList], id ∈ requested) ∧
        Archived sampleLibrary pre 0 requested := by
  let run : List Label :=
    [.stage ⟨"b", "ws", .gmail, .delete, .pending, sampleRows, "category:promotions".toList, none,
        none⟩,
      .approve 0 "ws" "b" true "2026-01-01T00-00-00-000Z",
      .exportMessages 0 "2026-01-01T00:00:00Z".toList fun n =>
        if n = 0 then .gmail (some "aGk=".toList) [] else .gmail (some "eW8=".toList) [],
      .answer 0, .verify 0, .delete 0, .purge 0 false]
  have hrun : ((system sampleLibrary "archives").exec noCleanup run).isSome = true := rfl
  obtain ⟨s, hreach, hlog⟩ : ∃ s, (system sampleLibrary "archives").Reachable s ∧
      s.log = s.log.take 4 ++ [.purged 0 ["m1".toList, "m2".toList]] :=
    ⟨_, System.exec_reachable noCleanup_init (Option.some_get hrun).symm, rfl⟩
  exact ⟨s, s.log.take 4, hreach, hlog, deleted_only_when_archived hreach hlog⟩

end Examples

end Cleanup
end EmailOps
