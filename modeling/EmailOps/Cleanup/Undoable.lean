import EmailOps.Cleanup.UndoOnce

/-!
# What is deleted can be undone

The reference to the archive is in the batch's row, and the row is written after the
deletion: in the transaction of `executeCleanup`, or in the update that completes a staged
batch. Whatever fails in between leaves messages deleted and no reference to their
archive: `executeCleanup` writes no row, and `approveCleanupBatch` marks the batch FAILED
without the reference.

* `deleted_is_undoable`: in a run where no cleanup fails once something of it is deleted,
  whatever was deleted by a cleanup that has ended is in the archive of a batch whose undo
  is allowed, unless the archive has expired or the message is back already.
* `deleted_without_a_row`: a provider error after the first chunk leaves messages deleted
  and no batch at all.
-/

namespace EmailOps
namespace Cleanup

open Framework

/-- A run has deleted a message. -/
def DeletedBy (s : UndoState) (c : ℕ) (id : Text) : Prop :=
  ∃ ids, UndoEvent.deleted c ids ∈ s.events ∧ id ∈ ids

/-- No run fails, crashes or is given up on when something of it is deleted, and nothing is
deleted for a run that was. -/
def Attended (s : UndoState) : UndoLabel → Prop
  | .purge c _ deleted => deleted ≠ [] → ∃ job backup, s.base.runs c = .applying job backup
  | .fail c | .crash c =>
    (∃ job backup, s.base.runs c = .applying job backup) → ∀ id, ¬DeletedBy s c id
  | _ => True

/-- The archive was kept until its date, and the date has passed. -/
def ArchiveColumns.expired (now : ℕ) (batch : ArchiveColumns) : Prop :=
  batch.archiveRetained = false ∧ ∃ expiry, batch.archiveExpiresAt = some expiry ∧ expiry ≤ now

/-- The row of a batch refers to a verified archive that holds the message, and `undoBatch`
may restore it, unless it has expired or has brought the message back. -/
def Undoable (lib : Library) (bucket : String) (s : UndoState) (batchId : String) (id : Text) :
    Prop :=
  ∃ key, (s.archives batchId).archiveKey = some key ∧
    (s.archives batchId).archiveBucket = some bucket ∧ KeptUnder lib s.base.log key [id] ∧
    (archiveLive s.now (s.archives batchId) = true ∨ (s.archives batchId).expired s.now ∨
      UndoEvent.imported batchId id ∈ s.events)

/-! ### The invariant -/

variable {lib : Library} {bucket : String} {s s' : UndoState} {l : UndoLabel}

/-- A batch with a row and an archive asked for the message. -/
def Recorded (s : UndoState) (id : Text) : Prop :=
  ∃ j ∈ s.base.jobs, id ∈ j.requested ∧ j.key.batchId ∈ s.base.batches.map (·.id) ∧
    (s.archives j.key.batchId).archiveKey.isSome = true

/-- What a row says about its archive is true, and what was deleted is recorded or waits
for its record. -/
structure UndoableInv (lib : Library) (bucket : String) (s : UndoState) : Prop where
  columns : ∀ id key, (s.archives id).archiveKey = some key →
    (s.archives id).archiveBucket = some bucket ∧
      ((s.archives id).archiveRetained = true ∨ (s.archives id).archiveExpiresAt.isSome = true) ∧
      ∃ j ∈ s.base.jobs, j.key = key ∧ KeptUnder lib s.base.log key j.requested
  deleted : ∀ c id, DeletedBy s c id →
    (∃ j backup, s.base.runs c = .applying j (some backup) ∧ id ∈ j.requested) ∨
      s.base.runs c = .ended ∧ Recorded s id

theorem retention_cases (now : ℕ) (vault : Bool) :
    (retention now vault).archiveRetained = true ∨
      (retention now vault).archiveExpiresAt.isSome = true := by
  unfold retention
  split
  · exact .inl rfl
  · exact .inr rfl

theorem isSome_recordColumns_of_backup (bucket : String) (job : Job) (ref : BackupRef)
    (kept : Retention) (old : ArchiveColumns) :
    (recordColumns bucket job (some ref) kept old).archiveKey.isSome = true := by
  unfold recordColumns
  cases job.entry with
  | executeCleanup => rfl
  | approveCleanupBatch => rfl

/-- A staged batch does not lose its reference. -/
theorem isSome_recordColumns_of_old (bucket : String) {job : Job}
    (hentry : job.entry = .approveCleanupBatch) (backup : Option BackupRef) (kept : Retention)
    {old : ArchiveColumns} (hold : old.archiveKey.isSome = true) :
    (recordColumns bucket job backup kept old).archiveKey.isSome = true := by
  unfold recordColumns
  rw [hentry]
  cases backup with
  | none => exact hold
  | some ref => rfl

theorem UndoableInv.initial (h : (undoSystem lib bucket).init s) : UndoableInv lib bucket s := by
  obtain ⟨-, harchives, -, -, -, hevents⟩ := h
  constructor
  · intro id key hkey
    rw [harchives] at hkey
    cases hkey
  · rintro c id ⟨ids, hmem, -⟩
    rw [hevents] at hmem
    cases hmem

/-- Other columns and other attempts do not matter. -/
theorem UndoableInv.frame (h : UndoableInv lib bucket s) (hbase : s'.base = s.base)
    (hkeys : ∀ id, (s'.archives id).archiveKey = (s.archives id).archiveKey ∧
      (s'.archives id).archiveBucket = (s.archives id).archiveBucket ∧
      (s'.archives id).archiveRetained = (s.archives id).archiveRetained ∧
      (s'.archives id).archiveExpiresAt = (s.archives id).archiveExpiresAt)
    (hevents : ∀ c ids, .deleted c ids ∈ s'.events → .deleted c ids ∈ s.events) :
    UndoableInv lib bucket s' := by
  constructor
  · intro id key hkey
    obtain ⟨hsame, hbucket, hretained, hexpires⟩ := hkeys id
    rw [hsame] at hkey
    rw [hbucket, hretained, hexpires, hbase]
    exact h.columns id key hkey
  · rintro c id ⟨ids, hmem, hin⟩
    rw [hbase]
    refine (h.deleted c id ⟨ids, hevents c ids hmem, hin⟩).imp_right (And.imp_right ?_)
    rintro ⟨j, hj, hid, hrow, hsome⟩
    exact ⟨j, hbase ▸ hj, hid, hbase ▸ hrow, by rw [(hkeys _).1]; exact hsome⟩

/-- A step of the cleanup protocol that is not the outcome of a run with a deletion. -/
theorem UndoableInv.lift (h : UndoableInv lib bucket s) {k : Label}
    (hs : s.lift lib bucket k = some s')
    (houtcome : ∀ c id, k.outcome = some c → DeletedBy s c id → s.base.runs c = .ended) :
    UndoableInv lib bucket s' := by
  obtain ⟨base, hbase, rfl⟩ := lift_eq_some hs
  have hmoves := moves_of_step hbase
  have hgrows := moves_grow hmoves
  constructor
  · intro id key hkey
    obtain ⟨hbucket, hkept, j, hj, heq, hunder⟩ := h.columns id key hkey
    exact ⟨hbucket, hkept, j, hgrows.jobs hj, heq, hunder.mono hgrows.log⟩
  · intro c id hdeleted
    have hrecorded : Recorded s id → Recorded { s with base := base } id := by
      rintro ⟨j, hj, hid, hrow, hsome⟩
      exact ⟨j, hgrows.jobs hj, hid, hgrows.ids hrow, hsome⟩
    obtain ⟨j, backup, hrun, hid⟩ | ⟨hended, hold⟩ := h.deleted c id hdeleted
    · -- The run goes on waiting: its outcome would come after the deletion.
      refine .inl ⟨j, backup, applying_stays hmoves hrun (fun hk => ?_), hid⟩
      rw [houtcome c id hk hdeleted] at hrun
      cases hrun
    · exact .inr ⟨ended_stays hmoves hended, hrecorded hold⟩

/-- A chunk is deleted. -/
theorem UndoableInv.purged (h : UndoableInv lib bucket s) {c : ℕ} {raised : Bool}
    {deleted : List Text}
    (hwaits : deleted ≠ [] → ∃ j backup, s.base.runs c = .applying j (some backup) ∧
      ∀ id ∈ deleted, id ∈ j.requested) : UndoableInv lib bucket (s.purged c raised deleted) := by
  constructor
  · exact h.columns
  · rintro c' id ⟨ids, hmem, hin⟩
    cases List.mem_append.mp hmem with
    | inl hold => exact h.deleted c' id ⟨ids, hold, hin⟩
    | inr hnew =>
      cases List.mem_singleton.mp hnew
      obtain ⟨j, backup, hrun, hall⟩ := hwaits (List.ne_nil_of_mem hin)
      exact .inl ⟨j, backup, hrun, hall id hin⟩

/-- A run whose messages are deleted writes its row, with the reference. -/
theorem UndoableInv.finish (h : UndoableInv lib bucket s) (hruns : RunsInv lib s.base)
    {c count : ℕ} {job : Job} {backup : Option BackupRef} {base : State}
    (hrun : s.base.runs c = .applying job backup)
    (hstep : Cleanup.step lib bucket s.base (.finish c count) = some base) :
    UndoableInv lib bucket
      (if job.entry = .executeCleanup && s.base.batches.any (·.id = job.key.batchId) then
        { s with base := base }
      else ({ s with base := base } : UndoState).setArchive job.key.batchId
        (recordColumns bucket job backup (s.kept c) (s.archives job.key.batchId))) := by
  have hmoves := moves_of_step hstep
  have hgrows := moves_grow hmoves
  have hjob : (s.base.runs c).job? = some job := by
    rw [hrun]
    rfl
  have hbase : base = recording s.base c job backup count := by
    simp only [Cleanup.step, hrun] at hstep
    exact (Option.some.inj hstep).symm
  -- An immediate cleanup has no row yet, so its row can be written.
  have hfree : ¬(job.entry = .executeCleanup && s.base.batches.any (·.id = job.key.batchId)) := by
    intro htaken
    simp only [Bool.and_eq_true, decide_eq_true_eq, List.any_eq_true] at htaken
    obtain ⟨hentry, b, hb, hid⟩ := htaken
    exact (hruns.alone c job hjob hentry).1 (hid ▸ List.mem_map_of_mem hb)
  rw [if_neg hfree]
  have hrow : job.key.batchId ∈ base.batches.map (·.id) := by
    cases hentry : job.entry with
    | approveCleanupBatch => exact hgrows.ids (hruns.staged c job hjob hentry)
    | executeCleanup =>
      have hnone : ¬s.base.batches.any (·.id = job.key.batchId) = true := by
        intro hany
        exact hfree (by rw [hentry, hany]; rfl)
      rw [hbase]
      unfold recording
      rw [hentry]
      dsimp only
      rw [if_neg hnone, List.map_append]
      exact List.mem_append_right _ (List.mem_singleton_self _)
  have hself : (({ s with base := base } : UndoState).setArchive job.key.batchId
      (recordColumns bucket job backup (s.kept c) (s.archives job.key.batchId))).archives
        job.key.batchId = recordColumns bucket job backup (s.kept c) (s.archives job.key.batchId) :=
    Function.update_self ..
  have hother : ∀ id, id ≠ job.key.batchId → (({ s with base := base } : UndoState).setArchive
      job.key.batchId (recordColumns bucket job backup (s.kept c)
        (s.archives job.key.batchId))).archives id = s.archives id :=
    fun id hid => Function.update_of_ne hid ..
  have hkept : ∀ {ref}, backup = some ref → KeptUnder lib base.log job.key job.requested := by
    intro ref hsome
    have hkept := hruns.kept c job (by rw [hrun, hsome]; rfl)
    exact hkept.mono hgrows.log
  have hold : ∀ id key, (s.archives id).archiveKey = some key →
      (s.archives id).archiveBucket = some bucket ∧
        ((s.archives id).archiveRetained = true ∨ (s.archives id).archiveExpiresAt.isSome = true) ∧
        ∃ j ∈ base.jobs, j.key = key ∧ KeptUnder lib base.log key j.requested := by
    intro id key hkey
    obtain ⟨hbucket, hdate, j, hj, heq, hunder⟩ := h.columns id key hkey
    exact ⟨hbucket, hdate, j, hgrows.jobs hj, heq, hunder.mono hgrows.log⟩
  constructor
  · -- The columns are those of the run, or those of before.
    intro id key hkey
    by_cases hid : id = job.key.batchId
    · subst hid
      rw [hself] at hkey ⊢
      have hretention := retention_cases (s.begun c).1 (s.begun c).2
      unfold recordColumns at hkey ⊢
      split at hkey
      · next hentry =>
        -- An immediate cleanup refers to the archive its run has verified.
        obtain ⟨ref, hbackup, rfl⟩ := Option.map_eq_some_iff.mp hkey
        refine ⟨?_, hretention, job, hgrows.jobs (hruns.mem c job hjob), rfl, hkept hbackup⟩
        rw [hbackup]
        rfl
      · next hentry =>
        -- A staged batch that has an archive refers to it.
        obtain rfl := Option.some.inj hkey
        refine ⟨rfl, ?_, job, hgrows.jobs (hruns.mem c job hjob), rfl, hkept rfl⟩
        refine hretention.imp_right fun hsome => ?_
        change ((s.kept c).archiveExpiresAt.or _).isSome = true
        rw [Option.isSome_or]
        exact Bool.or_eq_true_iff.mpr (.inl hsome)
      · -- Without an archive the columns stay.
        exact hold _ key hkey
    · rw [hother id hid] at hkey ⊢
      exact hold id key hkey
  · intro c' id hdeleted
    obtain ⟨j, ref, hrun', hid⟩ | ⟨hended, j, hj, hid, hjrow, hsome⟩ := h.deleted c' id hdeleted
    · by_cases hcc : c' = c
      · -- The run that is recorded.
        subst hcc
        rw [hrun] at hrun'
        cases hrun'
        refine .inr ⟨?_, job, hgrows.jobs (hruns.mem c' job hjob), hid, hrow, ?_⟩
        · change base.runs c' = .ended
          rw [hbase, recording_runs, Function.update_self]
        · rw [hself]
          exact isSome_recordColumns_of_backup bucket job ref (s.kept c') _
      · exact .inl ⟨j, ref, applying_stays hmoves hrun' (fun heq =>
          hcc (Option.some.inj heq).symm), hid⟩
    · -- What was recorded before is recorded still.
      refine .inr ⟨ended_stays hmoves hended, j, hgrows.jobs hj, hid, hgrows.ids hjrow, ?_⟩
      by_cases hsame : j.key.batchId = job.key.batchId
      · rw [hsame] at hsome hjrow ⊢
        rw [hself]
        cases hentry : job.entry with
        -- No other run is recorded under the id of an immediate cleanup.
        | executeCleanup => exact absurd hjrow (hruns.alone c job hjob hentry).1
        | approveCleanupBatch =>
          exact isSome_recordColumns_of_old bucket hentry backup (s.kept c) hsome
      · rw [hother _ hsame]
        exact hsome

/-- **Every step keeps it.** -/
theorem UndoableInv.step (h : UndoableInv lib bucket s) (hruns : RunsInv lib s.base)
    (hc : Attended s l) (hs : undoStep lib bucket s l = some s') :
    UndoableInv lib bucket s' := by
  have hquiet : ∀ {k base}, Cleanup.step lib bucket s.base k = some base → k.outcome = none →
      UndoableInv lib bucket { s with base := base } := by
    intro k base hstep hnone
    refine h.lift (by rw [UndoState.lift, hstep]; rfl) fun c id hk _ => ?_
    rw [hnone] at hk
    cases hk
  -- A run that fails or crashes has deleted nothing, or has ended before.
  have hlate : ∀ {c : ℕ}, ((∃ job backup, s.base.runs c = .applying job backup) →
      ∀ id, ¬DeletedBy s c id) → ∀ id, DeletedBy s c id → s.base.runs c = .ended := by
    intro c hattended id hdeleted
    obtain ⟨j, backup, hrun, -⟩ | ⟨hended, -⟩ := h.deleted c id hdeleted
    · exact absurd hdeleted (hattended ⟨j, _, hrun⟩ id)
    · exact hended
  cases undoMoves_of_step hs with
  | tick _ => exact h.frame rfl (fun _ => ⟨rfl, rfl, rfl, rfl⟩) fun _ _ hmem => hmem
  | @plain l k base hplain hstep =>
    refine h.lift (k := k) (by rw [UndoState.lift, hstep]; rfl) fun c id hk hdeleted => ?_
    -- Of these steps, only a failure and a crash end a run.
    cases l with
    | fail d =>
      cases hplain
      cases hk
      exact hlate hc id hdeleted
    | crash d =>
      cases hplain
      cases hk
      exact hlate hc id hdeleted
    | stage | exportMessages | answer | verify | delete =>
      cases hplain
      cases hk
    | tick | execute | approve | purge | finish | undo | download | importNext | restored | mark
    | failUndo => cases hplain
  | execute hstep =>
    exact (hquiet hstep rfl).frame rfl (fun _ => ⟨rfl, rfl, rfl, rfl⟩) fun _ _ hmem => hmem
  | approve hstep =>
    exact (hquiet hstep rfl).frame rfl (fun _ => ⟨rfl, rfl, rfl, rfl⟩) fun _ _ hmem => hmem
  | @purge c _ _ chunk _ _ hpurge hchunk hstep =>
    refine (hquiet hstep rfl).purged fun hne => ?_
    obtain ⟨job, backup, hrun⟩ := hc hne
    obtain ⟨hsome, hall⟩ := hruns.purging c job backup hrun chunk
      (by rw [hpurge]; exact List.mem_cons_self)
    obtain ⟨ref, rfl⟩ := Option.isSome_iff_exists.mp hsome
    exact ⟨job, ref, applying_stays (moves_of_step hstep) hrun (fun heq => by cases heq),
      fun id hid => hall id (hchunk id hid)⟩
  | finish hrun hstep => exact h.finish hruns hrun hstep
  | @importNext _ _ batchId _ entry _ _ _ _ =>
    refine h.frame rfl (fun _ => ⟨rfl, rfl, rfl, rfl⟩) fun c ids hmem => ?_
    -- What is noted is an import.
    refine (List.mem_append.mp hmem).resolve_right fun hnew => ?_
    obtain ⟨message, -, heq⟩ := List.mem_map.mp hnew
    cases heq
  | @mark _ batchId _ _ hstep =>
    refine (hquiet hstep rfl).frame rfl (fun id => ?_) fun _ _ hmem => hmem
    -- Only the date of the restore is new.
    unfold UndoState.markUndone UndoState.setArchive
    by_cases hid : id = batchId
    · subst hid
      simp only [Function.update_self]
      exact ⟨trivial, trivial, trivial, trivial⟩
    · simp only [Function.update_of_ne hid]
      exact ⟨rfl, rfl, rfl, rfl⟩
  | ended _ => exact h.frame rfl (fun _ => ⟨rfl, rfl, rfl, rfl⟩) fun _ _ hmem => hmem
  | undo _ _ _ _ => exact h.frame rfl (fun _ => ⟨rfl, rfl, rfl, rfl⟩) fun _ _ hmem => hmem
  | download _ _ _ => exact h.frame rfl (fun _ => ⟨rfl, rfl, rfl, rfl⟩) fun _ _ hmem => hmem
  | missing _ => exact h.frame rfl (fun _ => ⟨rfl, rfl, rfl, rfl⟩) fun _ _ hmem => hmem
  | through _ => exact h.frame rfl (fun _ => ⟨rfl, rfl, rfl, rfl⟩) fun _ _ hmem => hmem
  | restored _ _ _ => exact h.frame rfl (fun _ => ⟨rfl, rfl, rfl, rfl⟩) fun _ _ hmem => hmem

theorem undoableInv_of_attended (h : (undoSystem lib bucket).ReachableUnder Attended s) :
    UndoableInv lib bucket s := by
  refine h.invariant (fun s => UndoableInv.initial) ?_
  intro s l s' hreach hinv hc hstep
  exact hinv.step (runsInv_of_reachable ((archivesOf lib bucket).reachable hreach.reachable)) hc hstep

/-! ### The result -/

/-- An archive that has its reference is live, has expired or was restored. -/
theorem live_or_expired (now : ℕ) {batch : ArchiveColumns} {key : ArchiveKey} {bucket : String}
    (hkey : batch.archiveKey = some key) (hbucket : batch.archiveBucket = some bucket)
    (hnonempty : bucket ≠ "")
    (hdate : batch.archiveRetained = true ∨ batch.archiveExpiresAt.isSome = true) :
    archiveLive now batch = true ∨ batch.expired now ∨ batch.restoredAt.isSome = true := by
  have hreferred : ¬(batch.archiveKey.isNone || !truthy batch.archiveBucket) = true := by
    rw [hkey, hbucket]
    simp [truthy, hnonempty]
  unfold archiveLive
  rw [if_neg hreferred]
  cases hrestored : batch.restoredAt.isSome with
  | true => exact .inr (.inr rfl)
  | false =>
    cases hretained : batch.archiveRetained with
    | true => exact .inl rfl
    | false =>
      -- What is not retained has a date.
      obtain hkept | hsome := hdate
      · rw [hretained] at hkept
        cases hkept
      · obtain ⟨expiry, hexpiry⟩ := Option.isSome_iff_exists.mp hsome
        by_cases hlater : now < expiry
        · left
          simp [hexpiry, hlater]
        · exact .inr (.inl ⟨hretained, expiry, hexpiry, Nat.le_of_not_lt hlater⟩)

/-- **What was deleted can be undone.** In a run where no cleanup fails once something of it
is deleted, each message that an ended cleanup has deleted is in the archive of a batch
that may be undone, unless the archive has expired or the message is back. -/
theorem deleted_is_undoable (h : (undoSystem lib bucket).ReachableUnder Attended s) {c : ℕ}
    {id : Text} (hended : s.base.runs c = .ended) (hdeleted : DeletedBy s c id) :
    ∃ b ∈ s.base.batches, Undoable lib bucket s b.id id := by
  have hinv := undoableInv_of_attended h
  have hundone := undoneInv_of_reachable h.reachable
  have hsame := (inv_base h.reachable).same
  obtain ⟨j', ref, hrun, -⟩ | ⟨-, j, hj, hid, hrow, hsome⟩ := hinv.deleted c id hdeleted
  · rw [hended] at hrun
    cases hrun
  · obtain ⟨b, hb, hbatch⟩ := List.mem_map.mp hrow
    obtain ⟨key, hkey⟩ := Option.isSome_iff_exists.mp hsome
    obtain ⟨hbucket, hdate, j₁, hj₁, rfl, hkept⟩ := hinv.columns _ key hkey
    obtain ⟨hbatch₁, -⟩ := hundone.keyed _ _ hkey
    -- The archive on record may be that of another run, with the same messages.
    have hin : id ∈ j₁.requested := hsame j hj j₁ hj₁ hbatch₁.symm ▸ hid
    obtain ⟨d, zip, hverified, haccepted, hholds⟩ := hkept
    have hnonempty : bucket ≠ "" :=
      bucket_of_verified ((archivesOf lib bucket).reachable h.reachable) hverified
    refine ⟨b, hb, j₁.key, hbatch ▸ hkey, hbatch ▸ hbucket, ⟨d, zip, hverified, haccepted, ?_⟩, ?_⟩
    · intro id' hid'
      rw [List.mem_singleton.mp hid']
      exact hholds id hin
    · rw [hbatch]
      obtain hlive | hexpired | hrestored := live_or_expired s.now hkey hbucket hnonempty hdate
      · exact .inl hlive
      · exact .inr (.inl hexpired)
      · -- A batch that was restored has all its messages back.
        obtain ⟨j₂, hj₂, hbatch₂, hall⟩ := hundone.restoredAt _ hrestored
        exact .inr (.inr (hall id (hsame j hj j₂ hj₂ hbatch₂.symm ▸ hid)))

/-- A staged batch of two messages is approved, and both are deleted. -/
theorem deleted_is_undoable_run : ∃ s,
    (undoSystem sampleLibrary "archives").ReachableUnder Attended s ∧
    s.base.runs 0 = .ended ∧ DeletedBy s 0 "m1".toList ∧
    ∃ b ∈ s.base.batches, Undoable sampleLibrary "archives" s b.id "m1".toList := by
  have r0 : (undoSystem sampleLibrary "archives").ReachableUnder Attended noUndo :=
    .init noUndo_init
  have r1 := r0.next (.stage ⟨"b", "ws", .gmail, .delete, .pending, sampleRows,
    "category:promotions".toList, none, none⟩) trivial rfl
  have r2 := r1.next (.approve 0 "ws" "b" true false "2026-01-01T00-00-00-000Z") trivial rfl
  have r3 := r2.next (.exportMessages 0 "2026-01-01T00:00:00Z".toList fun n =>
    if n = 0 then .gmail (some "aGk=".toList) [] else .gmail (some "eW8=".toList) []) trivial rfl
  have r4 := r3.next (.answer 0) trivial rfl
  have r5 := r4.next (.verify 0) trivial rfl
  have r6 := r5.next (.delete 0) trivial rfl
  have r7 := r6.next (.purge 0 false ["m1".toList, "m2".toList]) (fun _ => ⟨_, _, rfl⟩) rfl
  have r8 := r7.next (.finish 0 2) trivial rfl
  obtain ⟨s, hreach, hended, hdeleted⟩ : ∃ s,
      (undoSystem sampleLibrary "archives").ReachableUnder Attended s ∧
      s.base.runs 0 = .ended ∧ DeletedBy s 0 "m1".toList :=
    ⟨_, r8, rfl, _, List.mem_singleton_self _, List.mem_cons_self⟩
  exact ⟨s, hreach, hended, hdeleted, deleted_is_undoable hreach hended hdeleted⟩

/-- An immediate cleanup deletes its messages, and the answer of the engine is lost. The
run throws, and there is no batch to undo. -/
theorem deleted_without_a_row : ∃ s, (undoSystem sampleLibrary "archives").Reachable s ∧
    s.base.runs 0 = .ended ∧ DeletedBy s 0 "m1".toList ∧ s.base.batches = [] := by
  let run : List UndoLabel :=
    [.execute 0 ⟨"ws", .gmail, "b", "2026-01-01T00-00-00-000Z"⟩ .delete true false sampleRows
        sampleRows "category:promotions".toList,
      .exportMessages 0 "2026-01-01T00:00:00Z".toList fun n =>
        if n = 0 then .gmail (some "aGk=".toList) [] else .gmail (some "eW8=".toList) [],
      .answer 0, .verify 0, .delete 0, .purge 0 false ["m1".toList, "m2".toList], .fail 0]
  have hrun : ((undoSystem sampleLibrary "archives").exec noUndo run).isSome = true := rfl
  exact ⟨_, System.exec_reachable noUndo_init (Option.some_get hrun).symm, rfl,
    ⟨_, List.mem_singleton_self _, List.mem_cons_self⟩, rfl⟩

end Cleanup
end EmailOps
