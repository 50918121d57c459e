import EmailOps.Cleanup.Protocol
import EmailOps.Cleanup.Restore

/-!
# Archives on record, and undo

A batch whose messages were deleted is undone from its archive. Whether it can be is a
matter of its row: of the archive's bucket and key, of the date the archive expires on, or
whether it is retained, and of whether it was restored already (`archiveLive`). This
module adds to the cleanup protocol the columns of the rows that say so, the clock, the
part of each deletion that took effect, and the attempts to undo a batch.

`undoBatch` reads the row, has the engine restore the archive, and marks the batch UNDONE
when nothing failed. The engine's loop over the archive is a run of its own: it goes on
when its caller has given up, and the imports it has made stay when a later one fails. An
expired archive is swept from the store and from its row; for `archiveLive` the row is the
same before and after, so the sweep is left out.

* `undoSystem` is the protocol with its archives, `archivesOf` the simulation of it by
  `Cleanup.system`.
* `restoreRounds_eq`: the loop, taken step by step, is `restoreLoop`.
-/

namespace EmailOps
namespace Cleanup

open Framework

/-! ### The archive of a batch -/

/-- The columns of a batch about its archive. -/
structure ArchiveColumns where
  archiveBucket : Option String
  archiveKey : Option ArchiveKey
  archiveExpiresAt : Option ℕ
  archiveRetained : Bool
  restoredAt : Option ℕ
  deriving DecidableEq

/-- The columns of a row without an archive. -/
def ArchiveColumns.blank : ArchiveColumns := ⟨none, none, none, false, none⟩

/-- May the archive be restored? -/
def archiveLive (now : ℕ) (batch : ArchiveColumns) : Bool :=
  if batch.archiveKey.isNone || !truthy batch.archiveBucket then false
  else if batch.restoredAt.isSome then false
  else if batch.archiveRetained then true
  else
    match batch.archiveExpiresAt with
    | some expiry => now < expiry
    | none => false

/-- How long the archive of a run is kept. -/
structure Retention where
  archiveExpiresAt : Option ℕ
  archiveRetained : Bool

/-- Seven days, in milliseconds. -/
def sevenDays : ℕ := 7 * 24 * 60 * 60 * 1000

/-- Archives are retained for accounts with a vault, and others for seven days. -/
def retention (now : ℕ) (vault : Bool) : Retention :=
  if vault then ⟨none, true⟩ else ⟨some (now + sevenDays), false⟩

/-- The columns a run writes when it completes a batch. The row of an immediate cleanup is
new; in that of a staged batch the columns without a new value keep their old one. -/
def recordColumns (bucket : String) (job : Job) (backup : Option BackupRef) (kept : Retention)
    (old : ArchiveColumns) : ArchiveColumns :=
  match job.entry, backup with
  | .executeCleanup, _ =>
    { archiveBucket := backup.map fun _ => bucket
      archiveKey := backup.map fun _ => job.key
      archiveExpiresAt := kept.archiveExpiresAt
      archiveRetained := kept.archiveRetained
      restoredAt := none }
  | .approveCleanupBatch, some _ =>
    { archiveBucket := some bucket
      archiveKey := some job.key
      archiveExpiresAt := kept.archiveExpiresAt.or old.archiveExpiresAt
      archiveRetained := kept.archiveRetained
      restoredAt := old.restoredAt }
  | .approveCleanupBatch, none => old

/-! ### The restore, step by step -/

/-- What is noted about the account. -/
inductive UndoEvent where
  /-- Messages of a chunk are gone from the account for good. -/
  | deleted (c : ℕ) (ids : List Text)
  /-- A message of a batch's archive has been imported. -/
  | imported (batchId : String) (id : Text)
  deriving DecidableEq

variable (lib : Library)

/-- One round of the engine's loop: what is imported, and the result so far. -/
def restoreRound (zip : Zip) (entry : ManifestEntry) (answer : ImportAnswer)
    (result : RestoreResult) : List Import × RestoreResult :=
  match importOf lib zip entry with
  | .error message => ([], ⟨result.restored, result.failed ++ [(entry.id, message)]⟩)
  | .ok message =>
    (if answer.imported then [message] else [],
      match answer.raised with
      | none => ⟨result.restored + 1, result.failed⟩
      | some error => ⟨result.restored, result.failed ++ [(entry.id, error)]⟩)

/-- All rounds, from a result on. -/
def restoreRounds (zip : Zip) :
    List ManifestEntry → (ℕ → ImportAnswer) → RestoreResult → Restored
  | [], _, result => ⟨[], result⟩
  | entry :: entries, answers, result =>
    let round := restoreRound lib zip entry (answers 0) result
    let rest := restoreRounds zip entries (fun n => answers (n + 1)) round.2
    ⟨round.1 ++ rest.imports, rest.result⟩

variable {lib}

/-- **The steps make up the loop**: from any result so far, they import what the loop does,
and add up its counts and its failures. -/
theorem restoreRounds_eq (zip : Zip) (entries : List ManifestEntry) (answers : ℕ → ImportAnswer)
    (result : RestoreResult) :
    restoreRounds lib zip entries answers result =
      { imports := (restoreLoop lib zip entries answers).imports
        result :=
          { restored := result.restored + (restoreLoop lib zip entries answers).result.restored
            failed := result.failed ++ (restoreLoop lib zip entries answers).result.failed } } := by
  -- The induction is on the entries, for any result so far.
  induction entries generalizing answers result with
  | nil => simp [restoreRounds, restoreLoop]
  | cons entry entries ih =>
    unfold restoreRounds restoreLoop
    dsimp only
    rw [ih]
    unfold restoreRound restoreEntry
    cases importOf lib zip entry with
    | error message => simp
    | ok message =>
      cases answers 0 with
      | mk imported raised =>
        cases raised with
        | none => cases imported <;> simp [Nat.add_assoc, Nat.add_comm 1]
        | some error => cases imported <;> simp

/-! ### The system -/

variable (lib)

/-- An attempt to undo a batch, as the service sees it. -/
inductive UndoCall where
  | idle
  /-- `/archive/restore` is called. -/
  | restoring (batchId : String)
  /-- Nothing has failed, and the batch is to be marked. -/
  | marking (batchId : String)
  /-- The attempt has returned or thrown, or its process has died. -/
  | ended
  deriving DecidableEq

/-- A call of `/archive/restore`, as the engine sees it. -/
inductive RestoreCall where
  | idle
  | called (batchId : String) (key : ArchiveKey)
  /-- The loop, with the entries that are left. -/
  | looping (batchId : String) (zip : Zip) (entries : List ManifestEntry) (result : RestoreResult)
  | answered (batchId : String) (result : Option RestoreResult)

/-- The batch a call of `/archive/restore` is about. -/
def RestoreCall.batch? : RestoreCall → Option String
  | .called batchId _ | .looping batchId _ _ _ | .answered batchId _ => some batchId
  | .idle => none

/-- Is the call under way? -/
def RestoreCall.running : RestoreCall → Bool
  | .called _ _ | .looping _ _ _ _ => true
  | .answered _ _ | .idle => false

/-- The state of the protocol and its archives. -/
structure UndoState where
  base : State
  archives : String → ArchiveColumns
  now : ℕ
  /-- When each run has begun, and whether for an account with a vault. -/
  begun : ℕ → ℕ × Bool
  /-- Has the delete call of the run raised? -/
  raised : ℕ → Bool
  undos : ℕ → UndoCall
  restores : ℕ → RestoreCall
  events : List UndoEvent

inductive UndoLabel where
  | tick (passed : ℕ)
  | stage (batch : CleanupBatch)
  | execute (c : ℕ) (key : ArchiveKey) (mode : CleanupMode) (linked vault : Bool)
      (plan serverPlan : List PlanRow) (query : Text)
  | approve (c : ℕ) (workspaceId batchId : String) (linked vault : Bool) (iso : String)
  | exportMessages (c : ℕ) (createdAt : Text) (answers : ℕ → Fetched)
  | answer (c : ℕ)
  | verify (c : ℕ)
  | delete (c : ℕ)
  /-- The engine passes the next chunk to the provider, which deletes some of it. -/
  | purge (c : ℕ) (raised : Bool) (deleted : List Text)
  /-- The count arrives, and the batch is recorded in a transaction. -/
  | finish (c : ℕ) (count : ℕ)
  /-- A call of the engine fails or times out, and the run throws. -/
  | fail (c : ℕ)
  /-- The process of the run dies, or the database refuses its outcome. -/
  | crash (c : ℕ)
  /-- `undoBatch`, up to its call of the engine. -/
  | undo (u : ℕ) (workspaceId : String) (provider : Provider) (batchId : String) (linked : Bool)
  /-- The engine downloads the archive, if the store has it. -/
  | download (u : ℕ)
  /-- The engine imports the next message of the archive. -/
  | importNext (u : ℕ) (answer : ImportAnswer)
  /-- The answer of `/archive/restore` arrives. -/
  | restored (u : ℕ)
  /-- The batch is marked UNDONE. -/
  | mark (u : ℕ)
  /-- A call of the engine or of the database fails, or the process dies. -/
  | failUndo (u : ℕ)

namespace UndoState

variable (s : UndoState)

def setUndo (u : ℕ) (call : UndoCall) : UndoState :=
  { s with undos := Function.update s.undos u call }

def setRestore (u : ℕ) (call : RestoreCall) : UndoState :=
  { s with restores := Function.update s.restores u call }

def setBegun (c : ℕ) (vault : Bool) : UndoState :=
  { s with begun := Function.update s.begun c (s.now, vault) }

/-- How long the archive of a run is kept. -/
def kept (c : ℕ) : Retention :=
  retention (s.begun c).1 (s.begun c).2

def setArchive (batchId : String) (columns : ArchiveColumns) : UndoState :=
  { s with archives := Function.update s.archives batchId columns }

def note (events : List UndoEvent) : UndoState :=
  { s with events := s.events ++ events }

/-- What a chunk did to the account. -/
def purged (c : ℕ) (raised : Bool) (deleted : List Text) : UndoState :=
  { s.note [.deleted c deleted] with
    raised := Function.update s.raised c (s.raised c || raised) }

/-- The row of a batch when everything came back. -/
def markUndone (u : ℕ) (batchId : String) : UndoState :=
  (s.setUndo u .ended).setArchive batchId { s.archives batchId with restoredAt := some s.now }

/-- Take a step of the cleanup protocol. -/
def lift (bucket : String) (l : Label) : Option UndoState :=
  (Cleanup.step lib bucket s.base l).map fun base => { s with base := base }

end UndoState

/-- Read the row of a batch, and have its archive restored when it is live. -/
def beginUndo (s : UndoState) (u : ℕ) (workspaceId : String) (provider : Provider)
    (batchId : String) (linked : Bool) : UndoState :=
  match s.base.batches.find? fun b =>
      b.id = batchId && b.workspaceId = workspaceId && b.provider = provider with
  | none => s.setUndo u .ended
  | some batch =>
    match (s.archives batch.id).archiveKey with
    | none => s.setUndo u .ended
    | some key =>
      if !archiveLive s.now (s.archives batch.id) then s.setUndo u .ended
      else if !linked then s.setUndo u .ended
      else (s.setUndo u (.restoring batch.id)).setRestore u (.called batch.id key)

/-- One atomic step. -/
def undoStep (bucket : String) (s : UndoState) : UndoLabel → Option UndoState
  | .tick passed => some { s with now := s.now + passed }
  | .stage batch => s.lift lib bucket (.stage batch)
  | .execute c key mode linked vault plan serverPlan query =>
    (s.lift lib bucket (.execute c key mode linked plan serverPlan query)).map
      (·.setBegun c vault)
  | .approve c workspaceId batchId linked vault iso =>
    (s.lift lib bucket (.approve c workspaceId batchId linked iso)).map
      (·.setBegun c vault)
  | .exportMessages c createdAt answers => s.lift lib bucket (.exportMessages c createdAt answers)
  | .answer c => s.lift lib bucket (.answer c)
  | .verify c => s.lift lib bucket (.verify c)
  | .delete c => s.lift lib bucket (.delete c)
  | .purge c raised deleted =>
    match s.base.purges c with
    | [] => none
    | chunk :: _ =>
      if deleted.all (chunk.contains ·) then
        (s.lift lib bucket (.purge c raised)).map (·.purged c raised deleted)
      else none
  | .finish c count =>
    match s.base.runs c with
    | .applying job backup =>
      -- The engine answers with a count when every chunk was passed on.
      if s.base.purges c ≠ [] || s.raised c then none
      else
        (s.lift lib bucket (.finish c count)).map fun s' =>
          if job.entry = .executeCleanup && s.base.batches.any (·.id = job.key.batchId) then s'
          else s'.setArchive job.key.batchId
            (recordColumns bucket job backup (s.kept c) (s.archives job.key.batchId))
    | _ => none
  | .fail c => s.lift lib bucket (.fail c)
  | .crash c => s.lift lib bucket (.crash c)
  | .undo u workspaceId provider batchId linked =>
    match s.undos u with
    | .idle => some (beginUndo s u workspaceId provider batchId linked)
    | _ => none
  | .download u =>
    match s.restores u with
    | .called batchId key =>
      match (s.base.store key).bind fun zip => zip.manifest.map fun m => (zip, m) with
      | some (zip, m) => some (s.setRestore u (.looping batchId zip m.messages ⟨0, []⟩))
      | none => some (s.setRestore u (.answered batchId none))
    | _ => none
  | .importNext u answer =>
    match s.restores u with
    | .looping batchId zip (entry :: entries) result =>
      -- An import that does not raise has its effect.
      if answer.raised.isNone && !answer.imported then none
      else
        let round := restoreRound lib zip entry answer result
        some ((s.setRestore u (.looping batchId zip entries round.2)).note
          (round.1.map fun _ => .imported batchId entry.id))
    | .looping batchId _ [] result => some (s.setRestore u (.answered batchId (some result)))
    | _ => none
  | .restored u =>
    match s.undos u, s.restores u with
    | .restoring batchId, .answered _ (some result) =>
      if result.failed.length > 0 then some (s.setUndo u .ended)
      else some (s.setUndo u (.marking batchId))
    | .restoring _, .answered _ none => some (s.setUndo u .ended)
    | _, _ => none
  | .mark u =>
    match s.undos u with
    | .marking batchId =>
      (s.lift lib bucket (.settle batchId .undone)).map (·.markUndone u batchId)
    | _ => none
  | .failUndo u => some (s.setUndo u .ended)

/-- The cleanup protocol with its archives, on an empty store. -/
def undoSystem (bucket : String) : System UndoState UndoLabel where
  init s := (system lib bucket).init s.base ∧ (∀ id, s.archives id = .blank) ∧
    (∀ c, s.raised c = false) ∧ (∀ u, s.undos u = .idle) ∧ (∀ u, s.restores u = .idle) ∧
    s.events = []
  step := undoStep lib bucket

/-! ### It is the cleanup protocol -/

variable {lib} {bucket : String} {s s' : UndoState} {l : UndoLabel}

theorem lift_eq_some {k : Label} (h : s.lift lib bucket k = some s') :
    ∃ base, Cleanup.step lib bucket s.base k = some base ∧ s' = { s with base := base } := by
  obtain ⟨base, hbase, rfl⟩ := Option.map_eq_some_iff.mp h
  exact ⟨base, hbase, rfl⟩

/-- A restore that is begun is that of a batch whose row has a live archive. -/
theorem beginUndo_cases (s : UndoState) (u : ℕ) (workspaceId : String) (provider : Provider)
    (batchId : String) (linked : Bool) :
    beginUndo s u workspaceId provider batchId linked = s.setUndo u .ended ∨
      ∃ key, (s.archives batchId).archiveKey = some key ∧
        archiveLive s.now (s.archives batchId) = true ∧ linked = true ∧
        beginUndo s u workspaceId provider batchId linked =
          (s.setUndo u (.restoring batchId)).setRestore u (.called batchId key) := by
  unfold beginUndo
  split
  · exact .inl rfl
  · next batch hfind =>
    -- The batch that is found has the id that was asked for.
    have hid : batch.id = batchId := by
      have hfound := List.find?_some hfind
      simp only [Bool.and_eq_true, decide_eq_true_eq] at hfound
      exact hfound.1.1
    rw [hid]
    split
    · exact .inl rfl
    · next key hkey =>
      split
      · exact .inl rfl
      · next hlive =>
        split
        · exact .inl rfl
        · next hlinked =>
          refine .inr ⟨key, hkey, ?_, ?_, rfl⟩
          · simpa using hlive
          · simpa using hlinked

/-- The step of the protocol below that a step is, when it adds nothing to it. -/
def UndoLabel.plain? : UndoLabel → Option Label
  | .stage batch => some (.stage batch)
  | .exportMessages c createdAt answers => some (.exportMessages c createdAt answers)
  | .answer c => some (.answer c)
  | .verify c => some (.verify c)
  | .delete c => some (.delete c)
  | .fail c => some (.fail c)
  | .crash c => some (.crash c)
  | _ => none

/-- The attempt that a step may end before its batch is marked. -/
def UndoLabel.ends? : UndoLabel → Option ℕ
  | .undo u _ _ _ _ | .restored u | .failUndo u => some u
  | _ => none

/-- What the steps do. -/
inductive UndoMoves (lib : Library) (bucket : String) (s : UndoState) :
    UndoLabel → UndoState → Prop
  | tick (passed : ℕ) : UndoMoves lib bucket s (.tick passed) { s with now := s.now + passed }
  | plain {l : UndoLabel} {k : Label} {base : State} :
      l.plain? = some k → Cleanup.step lib bucket s.base k = some base →
      UndoMoves lib bucket s l { s with base := base }
  | execute {c : ℕ} {key : ArchiveKey} {mode : CleanupMode} {linked vault : Bool}
      {plan serverPlan : List PlanRow} {query : Text} {base : State} :
      Cleanup.step lib bucket s.base (.execute c key mode linked plan serverPlan query) = some base →
      UndoMoves lib bucket s (.execute c key mode linked vault plan serverPlan query)
        (({ s with base := base } : UndoState).setBegun c vault)
  | approve {c : ℕ} {workspaceId batchId : String} {linked vault : Bool} {iso : String}
      {base : State} :
      Cleanup.step lib bucket s.base (.approve c workspaceId batchId linked iso) = some base →
      UndoMoves lib bucket s (.approve c workspaceId batchId linked vault iso)
        (({ s with base := base } : UndoState).setBegun c vault)
  | purge {c : ℕ} {raised : Bool} {deleted chunk : List Text} {rest : List (List Text)}
      {base : State} :
      s.base.purges c = chunk :: rest → (∀ id ∈ deleted, id ∈ chunk) →
      Cleanup.step lib bucket s.base (.purge c raised) = some base →
      UndoMoves lib bucket s (.purge c raised deleted)
        (({ s with base := base } : UndoState).purged c raised deleted)
  | finish {c count : ℕ} {job : Job} {backup : Option BackupRef} {base : State} :
      s.base.runs c = .applying job backup →
      Cleanup.step lib bucket s.base (.finish c count) = some base →
      UndoMoves lib bucket s (.finish c count)
        (if job.entry = .executeCleanup && s.base.batches.any (·.id = job.key.batchId) then
          { s with base := base }
        else ({ s with base := base } : UndoState).setArchive job.key.batchId
          (recordColumns bucket job backup (s.kept c) (s.archives job.key.batchId)))
  /-- The attempt returns or throws before the batch is marked, or its process dies. -/
  | ended {l : UndoLabel} {u : ℕ} :
      l.ends? = some u → UndoMoves lib bucket s l (s.setUndo u .ended)
  | undo {u : ℕ} {workspaceId batchId : String} {provider : Provider} {linked : Bool}
      {key : ArchiveKey} :
      s.undos u = .idle → (s.archives batchId).archiveKey = some key →
      archiveLive s.now (s.archives batchId) = true → linked = true →
      UndoMoves lib bucket s (.undo u workspaceId provider batchId linked)
        ((s.setUndo u (.restoring batchId)).setRestore u (.called batchId key))
  | download {u : ℕ} {batchId : String} {key : ArchiveKey} {zip : Zip} {m : Manifest} :
      s.restores u = .called batchId key → s.base.store key = some zip → zip.manifest = some m →
      UndoMoves lib bucket s (.download u)
        (s.setRestore u (.looping batchId zip m.messages ⟨0, []⟩))
  /-- The store does not have the archive, or it has no manifest. -/
  | missing {u : ℕ} {batchId : String} {key : ArchiveKey} :
      s.restores u = .called batchId key →
      UndoMoves lib bucket s (.download u) (s.setRestore u (.answered batchId none))
  | importNext {u : ℕ} {answer : ImportAnswer} {batchId : String} {zip : Zip}
      {entry : ManifestEntry} {entries : List ManifestEntry} {result : RestoreResult} :
      s.restores u = .looping batchId zip (entry :: entries) result →
      (answer.raised = none → answer.imported = true) →
      UndoMoves lib bucket s (.importNext u answer)
        ((s.setRestore u (.looping batchId zip entries
          (restoreRound lib zip entry answer result).2)).note
            ((restoreRound lib zip entry answer result).1.map fun _ => .imported batchId entry.id))
  | through {u : ℕ} {answer : ImportAnswer} {batchId : String} {zip : Zip}
      {result : RestoreResult} :
      s.restores u = .looping batchId zip [] result →
      UndoMoves lib bucket s (.importNext u answer)
        (s.setRestore u (.answered batchId (some result)))
  | restored {u : ℕ} {batchId batchId' : String} {result : RestoreResult} :
      s.undos u = .restoring batchId → s.restores u = .answered batchId' (some result) →
      result.failed = [] →
      UndoMoves lib bucket s (.restored u) (s.setUndo u (.marking batchId))
  | mark {u : ℕ} {batchId : String} {base : State} :
      s.undos u = .marking batchId →
      Cleanup.step lib bucket s.base (.settle batchId .undone) = some base →
      UndoMoves lib bucket s (.mark u) (({ s with base := base } : UndoState).markUndone u batchId)

/-- A step of the protocol below moves it, with what is added on top. -/
theorem undoMoves_of_step (h : undoStep lib bucket s l = some s') :
    UndoMoves lib bucket s l s' := by
  -- A step that adds nothing.
  have hplain : ∀ {k}, l.plain? = some k → s.lift lib bucket k = some s' →
      UndoMoves lib bucket s l s' := by
    intro k hk h
    obtain ⟨base, hbase, rfl⟩ := lift_eq_some h
    exact .plain hk hbase
  cases l with
  | tick passed =>
    obtain rfl := Option.some.inj h
    exact .tick passed
  | stage batch => exact hplain rfl h
  | exportMessages c createdAt answers => exact hplain rfl h
  | answer c => exact hplain rfl h
  | verify c => exact hplain rfl h
  | delete c => exact hplain rfl h
  | fail c => exact hplain rfl h
  | crash c => exact hplain rfl h
  | execute c key mode linked vault plan serverPlan query =>
    obtain ⟨s₁, hs₁, rfl⟩ := Option.map_eq_some_iff.mp h
    obtain ⟨base, hbase, rfl⟩ := lift_eq_some hs₁
    exact .execute hbase
  | approve c workspaceId batchId linked vault iso =>
    obtain ⟨s₁, hs₁, rfl⟩ := Option.map_eq_some_iff.mp h
    obtain ⟨base, hbase, rfl⟩ := lift_eq_some hs₁
    exact .approve hbase
  | purge c raised deleted =>
    simp only [undoStep] at h
    split at h
    · cases h
    · next chunk rest hpurge =>
      split at h
      · next hchunk =>
        obtain ⟨s₁, hs₁, rfl⟩ := Option.map_eq_some_iff.mp h
        obtain ⟨base, hbase, rfl⟩ := lift_eq_some hs₁
        refine .purge hpurge (fun id hid => ?_) hbase
        -- What is purged is in the chunk.
        exact List.contains_iff_mem.mp (List.all_eq_true.mp hchunk id hid)
      · cases h
  | finish c count =>
    simp only [undoStep] at h
    split at h
    · next job backup hrun =>
      split at h
      · cases h
      · obtain ⟨s₁, hs₁, rfl⟩ := Option.map_eq_some_iff.mp h
        obtain ⟨base, hbase, rfl⟩ := lift_eq_some hs₁
        exact .finish hrun hbase
    · cases h
  | undo u workspaceId provider batchId linked =>
    simp only [undoStep] at h
    split at h
    · next hidle =>
      obtain rfl := Option.some.inj h
      obtain hnone | ⟨key, hkey, hlive, hlinked, hbegin⟩ :=
        beginUndo_cases s u workspaceId provider batchId linked
      · rw [hnone]
        exact .ended rfl
      · rw [hbegin]
        exact .undo hidle hkey hlive hlinked
    · cases h
  | download u =>
    simp only [undoStep] at h
    split at h
    · next batchId key hcall =>
      split at h
      · next zip m hfound =>
        obtain rfl := Option.some.inj h
        -- The archive is there, and its manifest can be read.
        obtain ⟨zip', hstore, hmanifest⟩ := Option.bind_eq_some_iff.mp hfound
        obtain ⟨m', hm, hpair⟩ := Option.map_eq_some_iff.mp hmanifest
        cases hpair
        exact .download hcall hstore hm
      · obtain rfl := Option.some.inj h
        exact .missing hcall
    · cases h
  | importNext u answer =>
    simp only [undoStep] at h
    split at h
    · next hcall =>
      split at h
      · cases h
      · next hanswer =>
        obtain rfl := Option.some.inj h
        refine .importNext hcall fun hraised => ?_
        simpa [hraised] using hanswer
    · next hcall =>
      obtain rfl := Option.some.inj h
      exact .through hcall
    · cases h
  | restored u =>
    simp only [undoStep] at h
    split at h
    · next hundo hcall =>
      split at h
      · obtain rfl := Option.some.inj h
        exact .ended rfl
      · next hfailed =>
        obtain rfl := Option.some.inj h
        -- The batch is marked only when nothing has failed.
        exact .restored hundo hcall (List.length_eq_zero_iff.mp (by omega))
    · obtain rfl := Option.some.inj h
      exact .ended rfl
    · cases h
  | mark u =>
    simp only [undoStep] at h
    split at h
    · next hcall =>
      obtain ⟨s₁, hs₁, rfl⟩ := Option.map_eq_some_iff.mp h
      obtain ⟨base, hbase, rfl⟩ := lift_eq_some hs₁
      exact .mark hcall hbase
    · cases h
  | failUndo u =>
    obtain rfl := Option.some.inj h
    exact .ended rfl

/-- A step of the protocol with its archives is a step of the protocol, or leaves it
alone. -/
theorem base_of_undoStep (h : undoStep lib bucket s l = some s') :
    s'.base = s.base ∨ ∃ k, Cleanup.step lib bucket s.base k = some s'.base := by
  cases undoMoves_of_step h with
  | plain _ hbase => exact .inr ⟨_, hbase⟩
  | execute hbase => exact .inr ⟨_, hbase⟩
  | approve hbase => exact .inr ⟨_, hbase⟩
  | purge _ _ hbase => exact .inr ⟨_, hbase⟩
  | mark _ hbase => exact .inr ⟨_, hbase⟩
  | finish _ hbase =>
    split
    · exact .inr ⟨_, hbase⟩
    · exact .inr ⟨_, hbase⟩
  | tick _ | ended _ | undo _ _ _ _ | download _ _ _ | missing _ | importNext _ _ | through _
  | restored _ _ _ => exact .inl rfl

/-- The protocol with its archives refines the cleanup protocol. -/
def archivesOf (lib : Library) (bucket : String) :
    Simulation (undoSystem lib bucket) (system lib bucket) where
  map := UndoState.base
  init _ h := h.1
  step _ _ _ _ h := base_of_undoStep h

theorem inv_base (h : (undoSystem lib bucket).Reachable s) : Inv lib s.base :=
  inv_of_reachable ((archivesOf lib bucket).reachable h)

/-! ### The steps of the examples -/

/-- Nothing has happened yet, and nothing was undone. -/
def noUndo : UndoState where
  base := noCleanup
  archives _ := .blank
  now := 0
  begun _ := (0, false)
  raised _ := false
  undos _ := .idle
  restores _ := .idle
  events := []

theorem noUndo_init : (undoSystem sampleLibrary "archives").init noUndo :=
  ⟨noCleanup_init, fun _ => rfl, fun _ => rfl, fun _ => rfl, fun _ => rfl, rfl⟩

/-- A staged batch of two messages is approved, and its archive is verified. -/
def archivedSteps : List UndoLabel :=
  [.stage ⟨"b", "ws", .gmail, .delete, .pending, sampleRows, "category:promotions".toList, none,
      none⟩,
    .approve 0 "ws" "b" true false "2026-01-01T00-00-00-000Z",
    .exportMessages 0 "2026-01-01T00:00:00Z".toList fun n =>
      if n = 0 then .gmail (some "aGk=".toList) [] else .gmail (some "eW8=".toList) [],
    .answer 0, .verify 0]

/-- Then its messages are deleted, and the batch is completed. -/
def deletedSteps : List UndoLabel :=
  archivedSteps ++ [.delete 0, .purge 0 false ["m1".toList, "m2".toList], .finish 0 2]

/-- An import that Gmail refuses. -/
def refusedImport : ImportAnswer := ⟨false, some "503".toList⟩

end Cleanup
end EmailOps
