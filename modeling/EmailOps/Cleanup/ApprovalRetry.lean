import EmailOps.Cleanup.InboxOnce

/-!
# Approving again after a failure

The item of a cleanup whose batch could not be executed stays PENDING, "for a retry or
reject". `approveCleanupBatch` records the failure in the row, though, and executes no row but
one that is PENDING; so the item may be approved again, and every time it is told of the failure.
Only when the run breaks off before its outcome is recorded does the next approval have the
batch executed. (Of a mode that is not implemented the failure is meant to last.)

This module puts `undoBatch` back on top of the inbox, which makes a row UNDONE only when it has
an archive, and keeps in mind which batches have been COMPLETED.

* `retrySystem` is the inbox with its undo, `inboxOfRetry` the simulation of it by the inbox.
* `step_row` says what a step of the protocol does to a row, and `throwsRun` when a run throws.
* `ReviewsInv` holds of every run. An approved item's batch has been COMPLETED, since what is
  reported as done is COMPLETED or UNDONE.
* `approval_retries_iff`: the states of a run all keep `Retried` and `Truthful` exactly when no
  step of it records the failure of an implemented batch that waits for its approval.
-/

namespace EmailOps
namespace Cleanup
namespace Retry

open Framework Inbox

/-! ### Rows and runs of the protocol -/

section Rows

variable {lib : Library} {bucket : String} {s s' : State} {l : Label}

/-- The run that a step makes throw: an answer is a refusal, or a call has failed, or its mode
is not implemented. -/
def throwsRun (lib : Library) (s : State) : Label → Option ℕ
  | .approve c workspaceId batchId linked _ =>
    match s.batches.find? fun b => b.id = batchId && b.workspaceId = workspaceId with
    | some batch =>
      match actionOf .approveCleanupBatch batch.mode with
      | .notImplemented => if batch.state = .pending ∧ linked = true then some c else none
      | _ => none
    | none => none
  | .answer c =>
    match s.exports c with
    | .answered none => some c
    | _ => none
  | .verify c =>
    match s.runs c with
    | .archived job _ =>
      if (s.store job.key).any fun zip => (verifyArchive lib (some zip)).success then none
      else some c
    | _ => none
  | .fail c => some c
  | _ => none

/-- A batch that is approved throws at once when it is PENDING and its mode is not implemented. -/
theorem throwsRun_approve {c d : ℕ} {workspaceId batchId iso : String} {linked : Bool}
    (h : throwsRun lib s (.approve c workspaceId batchId linked iso) = some d) :
    d = c ∧ linked = true ∧ ∃ batch,
      (s.batches.find? fun b => b.id = batchId && b.workspaceId = workspaceId) = some batch ∧
      batch.id = batchId ∧ batch.state = .pending ∧
      actionOf .approveCleanupBatch batch.mode = .notImplemented := by
  rw [throwsRun] at h
  split at h
  · next batch hfind =>
    have hfound := List.find?_some hfind
    rw [Bool.and_eq_true, decide_eq_true_eq] at hfound
    split at h
    · next haction =>
      split at h
      · next hready =>
        exact ⟨(Option.some.inj h).symm, hready.2, batch, hfind, hfound.1, hready.1, haction⟩
      · cases h
    · cases h
  · cases h

/-- What a step does to a row. -/
inductive RowStep (lib : Library) (s : State) (l : Label) (b : CleanupBatch) : CleanupBatch → Prop
  | same : RowStep lib s l b b
  | settled {state : CleanupBatchState} :
      l = .settle b.id state → RowStep lib s l b { b with state := state }
  | completed {result : Option CleanupResult} {backup : Option BackupRef} :
      RowStep lib s l b { b with state := .completed, result := result, backup := backup }
  | failed {c : ℕ} {result : Option CleanupResult} :
      throwsRun lib s l = some c →
      ((∃ job, (s.runs c).job? = some job ∧ job.entry = .approveCleanupBatch ∧
          job.key.batchId = b.id) ∨
        ∃ workspaceId linked iso, l = .approve c workspaceId b.id linked iso) →
      RowStep lib s l b { b with state := .failed, result := result }

theorem RowStep.id {b b' : CleanupBatch} (h : RowStep lib s l b b') : b'.id = b.id := by
  cases h with
  | same | settled _ | completed | failed _ _ => rfl

theorem RowStep.mode {b b' : CleanupBatch} (h : RowStep lib s l b b') : b'.mode = b.mode := by
  cases h with
  | same | settled _ | completed | failed _ _ => rfl

/-- The rows after a run has thrown. -/
theorem mem_throwing {c : ℕ} {job : Job} {b' : CleanupBatch}
    (h : b' ∈ (throwing s c job).batches) :
    b' ∈ s.batches ∧ (job.entry = .approveCleanupBatch → b'.id ≠ job.key.batchId) ∨
      job.entry = .approveCleanupBatch ∧ ∃ b ∈ s.batches, b.id = job.key.batchId ∧
        b' = { b with state := .failed, result := some ⟨0, 0, 0, 0⟩ } := by
  unfold throwing at h
  cases hentry : job.entry with
  | executeCleanup =>
    rw [hentry] at h
    exact .inl ⟨h, nofun⟩
  | approveCleanupBatch =>
    rw [hentry] at h
    obtain ⟨hold, hne⟩ | ⟨b, hb, hid, rfl⟩ := mem_updateBatch h
    · exact .inl ⟨hold, fun _ => hne⟩
    · exact .inr ⟨rfl, b, hb, hid, rfl⟩

/-- The rows after a run was recorded. -/
theorem mem_recording {c : ℕ} {job : Job} {backup : Option BackupRef} {count : ℕ}
    {b' : CleanupBatch} (h : b' ∈ (recording s c job backup count).batches) :
    (∃ b ∈ s.batches, RowStep lib s l b b') ∨
      (∀ b ∈ s.batches, b.id ≠ b'.id) ∧ b'.state = .completed := by
  unfold recording at h
  cases hentry : job.entry with
  | executeCleanup =>
    rw [hentry] at h
    dsimp only at h
    split at h
    · exact .inl ⟨b', h, .same⟩
    · next hnew =>
      cases List.mem_append.mp h with
      | inl hold => exact .inl ⟨b', hold, .same⟩
      | inr hadded =>
        obtain rfl := List.mem_singleton.mp hadded
        refine .inr ⟨fun b hb hid => hnew ?_, rfl⟩
        exact List.any_eq_true.mpr ⟨b, hb, decide_eq_true hid⟩
  | approveCleanupBatch =>
    rw [hentry] at h
    obtain ⟨hold, -⟩ | ⟨b, hb, -, rfl⟩ := mem_updateBatch h
    · exact .inl ⟨b', hold, .same⟩
    · exact .inl ⟨b, hb, .completed⟩

/-- **What a step writes to the table of rows**, and whether it makes a run throw. -/
inductive Writes (lib : Library) (s : State) (l : Label) : State → Prop
  | nothing {s' : State} :
      (∀ c, throwsRun lib s l ≠ some c) → s'.batches = s.batches → Writes lib s l s'
  | staged {batch : CleanupBatch} {s' : State} :
      l = .stage batch → s.fresh batch.id = true →
      s'.batches = s.batches ++ [{ batch with state := .pending }] → Writes lib s l s'
  | settled {batchId : String} {state : CleanupBatchState} :
      l = .settle batchId state →
      Writes lib s l (s.updateBatch batchId fun b => { b with state := state })
  | recorded {c count : ℕ} {job : Job} {backup : Option BackupRef} :
      l = .finish c count → Writes lib s l (recording s c job backup count)
  | thrown {c : ℕ} {job : Job} {t : State} :
      throwsRun lib s l = some c → t.batches = s.batches →
      ((s.runs c).job? = some job ∨ ∃ workspaceId linked iso,
        l = .approve c workspaceId job.key.batchId linked iso ∧
          job.entry = .approveCleanupBatch) →
      Writes lib s l (throwing t c job)

theorem Writes.ofNone (hthrows : throwsRun lib s l = none) (hsame : s'.batches = s.batches) :
    Writes lib s l s' := by
  refine .nothing (fun c hc => ?_) hsame
  rw [hthrows] at hc
  cases hc

theorem writes_of_approve {c : ℕ} {workspaceId batchId iso : String} {linked : Bool}
    (h : Cleanup.step lib bucket s (.approve c workspaceId batchId linked iso) = some s') :
    Writes lib s (.approve c workspaceId batchId linked iso) s' := by
  simp only [Cleanup.step] at h
  split at h
  · split at h
    · next hfind =>
      obtain rfl := Option.some.inj h
      refine .nothing (fun d heq => ?_) rfl
      obtain ⟨-, -, _, hfound, -⟩ := throwsRun_approve heq
      cases hfind.symm.trans hfound
    · next batch hfind =>
      split at h
      · next hsettled =>
        obtain rfl := Option.some.inj h
        refine .nothing (fun d heq => ?_) rfl
        obtain ⟨-, -, _, hfound, -, hpending, -⟩ := throwsRun_approve heq
        cases hfind.symm.trans hfound
        exact hsettled hpending
      · next hpending =>
        split at h
        · next hunlinked =>
          obtain rfl := Option.some.inj h
          refine .nothing (fun d heq => ?_) rfl
          rw [(throwsRun_approve heq).2.1] at hunlinked
          cases hunlinked
        · next hlinked =>
          obtain rfl := Option.some.inj h
          have hid : batch.id = batchId := by
            have hfound := List.find?_some hfind
            rw [Bool.and_eq_true, decide_eq_true_eq] at hfound
            exact hfound.1
          unfold begin
          cases haction : actionOf (approveJob batch iso).entry (approveJob batch iso).mode with
          | archive | trash | organize =>
            refine .nothing (fun d heq => ?_) rfl
            obtain ⟨-, -, _, hfound, -, -, hnone⟩ := throwsRun_approve heq
            cases hfind.symm.trans hfound
            cases haction.symm.trans hnone
          | notImplemented =>
            change actionOf .approveCleanupBatch batch.mode = .notImplemented at haction
            refine .thrown (t := { s with jobs := s.jobs ++ [approveJob batch iso] }) ?_ rfl
              (.inr ⟨workspaceId, linked, iso, by rw [← hid]; rfl, rfl⟩)
            rw [throwsRun, hfind]
            dsimp only
            rw [haction]
            rw [Bool.not_eq_true', Bool.not_eq_false] at hlinked
            exact if_pos ⟨not_not.mp hpending, hlinked⟩
  · cases h

theorem writes_of_step (h : Cleanup.step lib bucket s l = some s') : Writes lib s l s' := by
  cases l with
  | approve c workspaceId batchId linked iso => exact writes_of_approve h
  | stage batch =>
    simp only [Cleanup.step] at h
    split at h
    · next hfresh =>
      obtain rfl := Option.some.inj h
      exact .staged rfl hfresh rfl
    · cases h
  | settle batchId state =>
    simp only [Cleanup.step] at h
    split at h
    · cases h
    · obtain rfl := Option.some.inj h
      exact .settled rfl
  | execute c key mode linked plan serverPlan query =>
    simp only [Cleanup.step] at h
    split at h
    · split at h
      · obtain rfl := Option.some.inj h
        exact .ofNone rfl rfl
      · split at h
        · obtain rfl := Option.some.inj h
          refine .ofNone rfl ?_
          have hbegins := begins_begin s c (executeJob key mode plan serverPlan query)
          generalize begin s c _ = s₁ at hbegins
          -- An immediate cleanup has no row to fail.
          cases hbegins with
          | archiving | trashed | organized | thrown => rfl
        · cases h
    · cases h
  | exportMessages c createdAt answers =>
    simp only [Cleanup.step] at h
    split at h
    · split at h
      · obtain rfl := Option.some.inj h
        exact .ofNone rfl rfl
      · obtain rfl := Option.some.inj h
        exact .ofNone rfl rfl
    · cases h
  | answer c =>
    simp only [Cleanup.step] at h
    split at h
    · next hanswer =>
      obtain rfl := Option.some.inj h
      refine .nothing (fun d hthrows => ?_) rfl
      rw [throwsRun, hanswer] at hthrows
      cases hthrows
    · next job hrun hanswer =>
      obtain rfl := Option.some.inj h
      have hthrows : throwsRun lib s (.answer c) = some c := by rw [throwsRun, hanswer]
      exact .thrown hthrows rfl (.inl (by rw [hrun]; rfl))
    · cases h
  | verify c =>
    simp only [Cleanup.step] at h
    split at h
    · next job ref hrun =>
      have hjob : (s.runs c).job? = some job := by
        rw [hrun]
        rfl
      have hverify : throwsRun lib s (.verify c) =
          if (s.store job.key).any fun zip => (verifyArchive lib (some zip)).success then none
          else some c := by
        rw [throwsRun, hrun]
      split at h
      · next zip hstore =>
        rw [hstore, Option.any_some] at hverify
        split at h
        · next haccepted =>
          obtain rfl := Option.some.inj h
          rw [if_pos haccepted] at hverify
          exact .nothing (fun d hthrows => by cases hverify.symm.trans hthrows) rfl
        · next hrefused =>
          obtain rfl := Option.some.inj h
          rw [if_neg hrefused] at hverify
          exact .thrown hverify rfl (.inl hjob)
      · next hstore =>
        obtain rfl := Option.some.inj h
        rw [hstore] at hverify
        exact .thrown hverify rfl (.inl hjob)
    · cases h
  | delete c =>
    simp only [Cleanup.step] at h
    split at h
    · obtain rfl := Option.some.inj h
      exact .ofNone rfl rfl
    · cases h
  | purge c raised =>
    simp only [Cleanup.step] at h
    split at h
    · obtain rfl := Option.some.inj h
      exact .ofNone rfl rfl
    · cases h
  | finish c count =>
    simp only [Cleanup.step] at h
    split at h
    · obtain rfl := Option.some.inj h
      exact .recorded rfl
    · cases h
  | fail c =>
    have hthrown : ∀ {job}, (s.runs c).job? = some job →
        Writes lib s (.fail c) (throwing s c job) := fun hjob => .thrown rfl rfl (.inl hjob)
    simp only [Cleanup.step] at h
    split at h
    · next job hrun => exact Option.some.inj h ▸ hthrown (by rw [hrun]; rfl)
    · next job _ hrun => exact Option.some.inj h ▸ hthrown (by rw [hrun]; rfl)
    · next job _ hrun => exact Option.some.inj h ▸ hthrown (by rw [hrun]; rfl)
    · next job _ hrun => exact Option.some.inj h ▸ hthrown (by rw [hrun]; rfl)
    · cases h
  | crash c =>
    cases h
    exact .ofNone rfl rfl

/-- **What a step does to the rows**: each one is an old one that has made a step, or it is new,
and PENDING when it was staged. -/
theorem step_row (h : Cleanup.step lib bucket s l = some s') {b' : CleanupBatch}
    (hb : b' ∈ s'.batches) :
    (∃ b ∈ s.batches, RowStep lib s l b b') ∨ (∀ b ∈ s.batches, b.id ≠ b'.id) ∧
      (b'.state = .completed ∨
        ∃ batch, l = .stage batch ∧ b' = { batch with state := .pending }) := by
  cases writes_of_step h with
  | nothing _ hsame => exact .inl ⟨b', hsame ▸ hb, .same⟩
  | @staged batch _ hlabel hfresh hadds =>
    rw [hadds] at hb
    cases List.mem_append.mp hb with
    | inl hold => exact .inl ⟨b', hold, .same⟩
    | inr hadded =>
      obtain rfl := List.mem_singleton.mp hadded
      exact .inr ⟨(State.fresh_iff.mp hfresh).1, .inr ⟨batch, hlabel, rfl⟩⟩
  | settled hlabel =>
    obtain ⟨hold, -⟩ | ⟨b, hmem, rfl, rfl⟩ := mem_updateBatch hb
    · exact .inl ⟨b', hold, .same⟩
    · exact .inl ⟨b, hmem, .settled hlabel⟩
  | recorded _ => exact (mem_recording hb).imp_right fun hnew => ⟨hnew.1, .inl hnew.2⟩
  | @thrown c job t hthrows hsame hcause =>
    obtain ⟨hold, -⟩ | ⟨hentry, b, hmem, hid, rfl⟩ := mem_throwing hb
    · exact .inl ⟨b', hsame ▸ hold, .same⟩
    · refine .inl ⟨b, hsame ▸ hmem, .failed hthrows ?_⟩
      rcases hcause with hjob | ⟨workspaceId, linked, iso, hlabel, -⟩
      · exact .inl ⟨job, hjob, hentry, hid.symm⟩
      · exact .inr ⟨workspaceId, linked, iso, hid ▸ hlabel⟩

/-- A step that makes a run throw records it. -/
theorem step_of_throws (h : Cleanup.step lib bucket s l = some s') {c : ℕ}
    (hthrows : throwsRun lib s l = some c) :
    ∃ t job, t.batches = s.batches ∧ s' = throwing t c job ∧ ((s.runs c).job? = some job ∨
      ∃ workspaceId linked iso, l = .approve c workspaceId job.key.batchId linked iso ∧
        job.entry = .approveCleanupBatch) := by
  cases writes_of_step h with
  | nothing hnone _ => exact absurd hthrows (hnone c)
  | staged hlabel _ _ | settled hlabel | recorded hlabel =>
    subst hlabel
    cases hthrows
  | @thrown _ job t hthrows' hsame hcause =>
    obtain rfl := Option.some.inj (hthrows'.symm.trans hthrows)
    exact ⟨t, job, hsame, rfl, hcause⟩

/-- The job of a run is the one that it had, or that of a run that has just begun. -/
theorem step_job (h : Cleanup.step lib bucket s l = some s') {c : ℕ} {job : Job}
    (hjob : (s'.runs c).job? = some job) :
    (s.runs c).job? = some job ∨
      (job.entry = .executeCleanup ∧ ∃ key mode linked plan serverPlan query,
        l = .execute c key mode linked plan serverPlan query) ∨
      job.entry = .approveCleanupBatch ∧ ∃ workspaceId linked iso,
        l = .approve c workspaceId job.key.batchId linked iso := by
  have hupdate : ∀ {d run}, (Function.update s.runs d run c).job? = some job →
      (s.runs c).job? = some job ∨ c = d ∧ run.job? = some job := fun hjob =>
    (update_cases (Run.job? · = some job) hjob).symm.imp And.right id
  have hbegin : ∀ {d job'}, ((begin s d job').runs c).job? = some job →
      (s.runs c).job? = some job ∨ c = d ∧ job' = job := by
    intro d job' hjob
    have hbegins := begins_begin s d job'
    generalize begin s d job' = s₁ at hbegins hjob
    cases hbegins with
    | archiving | trashed | organized =>
      exact (hupdate hjob).imp_right fun hnew => ⟨hnew.1, Option.some.inj hnew.2⟩
    | thrown =>
      rw [(throwing_frame _ d job').1] at hjob
      exact (hupdate hjob).imp_right fun hnew => by cases hnew.2
  have hmoves := moves_of_step h
  cases hmoves with
  | stage _ | settle _ | exportFailed _ | exported _ _ | purge _ => exact .inl hjob
  | refused _ | crash =>
    obtain hold | ⟨-, hnone⟩ := hupdate hjob
    · exact .inl hold
    · cases hnone
  | executed _ _ =>
    obtain hold | ⟨rfl, rfl⟩ := hbegin hjob
    · exact .inl hold
    · exact .inr (.inl ⟨rfl, _, _, _, _, _, _, rfl⟩)
  | approved _ _ hid _ =>
    obtain hold | ⟨rfl, rfl⟩ := hbegin hjob
    · exact .inl hold
    · exact .inr (.inr ⟨rfl, _, _, _, by rw [← hid]; rfl⟩)
  | answered hrun _ =>
    obtain hold | ⟨rfl, hnew⟩ := hupdate hjob
    · exact .inl hold
    · rw [hrun]
      exact .inl hnew
  | verified hrun _ _ =>
    obtain hold | ⟨rfl, hnew⟩ := hupdate hjob
    · exact .inl hold
    · rw [hrun]
      exact .inl hnew
  | delete hrun =>
    obtain hold | ⟨rfl, hnew⟩ := hupdate hjob
    · exact .inl hold
    · rw [hrun]
      exact .inl hnew
  | finish _ =>
    rw [recording_runs] at hjob
    obtain hold | ⟨-, hnone⟩ := hupdate hjob
    · exact .inl hold
    · cases hnone
  | thrown _ _ =>
    rw [(throwing_frame _ _ _).1] at hjob
    obtain hold | ⟨-, hnone⟩ := hupdate hjob
    · exact .inl hold
    · cases hnone

end Rows

/-! ### The inbox with its undo -/

/-- The state of the inbox, with the attempts to undo a batch that have found its archive, and
the batches that have been COMPLETED. -/
structure RetryState where
  inbox : InboxState
  undoing : ℕ → Option String
  completed : String → Bool

inductive RetryLabel where
  | inbox (l : InboxLabel)
  /-- `undoBatch` finds the archive of a batch. -/
  | undo (u : ℕ) (batchId : String)
  /-- All of the archive is restored, and the batch is marked UNDONE. -/
  | markUndone (u : ℕ)

/-- The rows that are COMPLETED are kept in mind. -/
def RetryState.withInbox (s : RetryState) (inbox : InboxState) : RetryState :=
  { s with
    inbox := inbox
    completed := fun batchId => s.completed batchId ||
      inbox.base.batches.any fun b => b.id = batchId && b.state = .completed }

section System

variable (lib : Library) (bucket : String)

/-- One atomic step. A batch that is staged has an id, and no archive; it has one when a run of
it is recorded, and only then is it undone. -/
def retryStep (s : RetryState) : RetryLabel → Option RetryState
  | .inbox (.cleanup (.settle _ _)) => none
  | .inbox (.stageBatch itemId batch) =>
    if batch.id ≠ "" ∧ batch.backup.isNone then
      (inboxStep lib bucket s.inbox (.stageBatch itemId batch)).map s.withInbox
    else none
  | .inbox l => (inboxStep lib bucket s.inbox l).map s.withInbox
  | .undo u batchId =>
    if s.inbox.base.batches.any fun b => b.id = batchId && b.backup.isSome then
      some { s with undoing := Function.update s.undoing u (some batchId) }
    else none
  | .markUndone u =>
    match s.undoing u with
    | none => none
    | some batchId =>
      (inboxStep lib bucket s.inbox (.cleanup (.settle batchId .undone))).map fun inbox =>
        { s.withInbox inbox with undoing := Function.update s.undoing u none }

/-- The inbox with its undo. -/
def retrySystem : System RetryState RetryLabel where
  init s := (inboxSystem lib bucket).init s.inbox ∧ (∀ u, s.undoing u = none) ∧
    ∀ batchId, s.completed batchId = false
  step := retryStep lib bucket

/-! ### What the claim is about -/

/-- Does an approval of the item begin to run the batch? -/
def Attempts (s : RetryState) (item : CleanupItem) (batchId : String) : Prop :=
  ∀ r iso, s.inbox.reviews r = .idle → s.inbox.base.runs r = .idle →
    ∃ s', (retrySystem lib bucket).exec s
        [.inbox (.approve r item.workspaceId item.id true), .inbox (.execute r true iso)] =
      some s' ∧ s'.inbox.batchOf r = some batchId

/-- The mode of a row is one that is implemented; a failure for want of it lasts. -/
def Implemented (s : InboxState) (batchId : String) : Prop :=
  ∃ b ∈ s.base.batches, b.id = batchId ∧ actionOf .approveCleanupBatch b.mode ≠ .notImplemented

/-- **Retry**: when a run of a batch has ended, and none has COMPLETED it, an approval of its
item, which is PENDING, begins another one. -/
def Retried (s : RetryState) : Prop :=
  ∀ item ∈ s.inbox.items, ∀ batchId, item.payload = .batch batchId → item.state = .pending →
    Implemented s.inbox batchId →
    (∃ r, s.inbox.batchOf r = some batchId ∧ s.inbox.base.runs r = .ended) →
    s.completed batchId = false → Attempts lib bucket s item batchId

/-- **Truth**: the batch of an item that is APPROVED has been COMPLETED. -/
def Truthful (s : RetryState) : Prop :=
  ∀ item ∈ s.inbox.items, ∀ batchId, item.payload = .batch batchId → item.state = .approved →
    s.completed batchId = true

/-- The item is PENDING, and so is the batch, whose mode is implemented. -/
def Waits (s : InboxState) (itemId batchId : String) : Prop :=
  (∃ item ∈ s.items, item.id = itemId ∧ item.state = .pending) ∧
    ∃ b ∈ s.base.batches, b.id = batchId ∧ b.state = .pending ∧
      actionOf .approveCleanupBatch b.mode ≠ .notImplemented

/-- No run throws whose item and batch are waiting. -/
def Unrecorded (s : RetryState) : RetryLabel → Prop
  | .inbox (.cleanup k) => ∀ c itemId batchId, throwsRun lib s.inbox.base k = some c →
    s.inbox.reviews c = .running itemId batchId → ¬Waits s.inbox itemId batchId
  | _ => True

end System

variable {lib : Library} {bucket : String} {s s' : RetryState} {l : RetryLabel}

/-- **What a step can do.** -/
inductive RetryMoves (lib : Library) (bucket : String) (s : RetryState) :
    RetryLabel → RetryState → Prop
  | inbox {l : InboxLabel} {inbox : InboxState} :
      inboxStep lib bucket s.inbox l = some inbox →
      (∀ batchId state, l ≠ .cleanup (.settle batchId state)) →
      (∀ itemId batch, l = .stageBatch itemId batch → batch.id ≠ "" ∧ batch.backup = none) →
      RetryMoves lib bucket s (.inbox l) (s.withInbox inbox)
  | undo {u : ℕ} {batchId : String} :
      (∃ b ∈ s.inbox.base.batches, b.id = batchId ∧ b.backup.isSome = true) →
      RetryMoves lib bucket s (.undo u batchId)
        { s with undoing := Function.update s.undoing u (some batchId) }
  | markUndone {u : ℕ} {batchId : String} {inbox : InboxState} :
      s.undoing u = some batchId →
      inboxStep lib bucket s.inbox (.cleanup (.settle batchId .undone)) = some inbox →
      RetryMoves lib bucket s (.markUndone u)
        { s.withInbox inbox with undoing := Function.update s.undoing u none }

/-- The inversion of a step. -/
theorem retryMoves_of_step (h : retryStep lib bucket s l = some s') :
    RetryMoves lib bucket s l s' := by
  cases l with
  | inbox l =>
    -- A step of the inbox that neither settles a batch nor stages one.
    have hplain : (inboxStep lib bucket s.inbox l).map s.withInbox = some s' →
        (∀ batchId state, l ≠ .cleanup (.settle batchId state)) →
        (∀ itemId batch, l ≠ .stageBatch itemId batch) → RetryMoves lib bucket s (.inbox l) s' := by
      intro hstep hsettle hstage
      obtain ⟨inbox, hinbox, rfl⟩ := Option.map_eq_some_iff.mp hstep
      exact .inbox hinbox hsettle fun itemId batch heq => absurd heq (hstage itemId batch)
    cases l with
    | stageBatch itemId batch =>
      simp only [retryStep] at h
      split at h
      · next hguard =>
        obtain ⟨inbox, hinbox, rfl⟩ := Option.map_eq_some_iff.mp h
        refine .inbox hinbox (by simp) fun itemId' batch' heq => ?_
        cases heq
        exact ⟨hguard.1, Option.isNone_iff_eq_none.mp hguard.2⟩
      · cases h
    | cleanup k =>
      cases k with
      | settle batchId state => cases h
      | _ => exact hplain h (by simp) (by simp)
    | _ => exact hplain h (by simp) (by simp)
  | undo u batchId =>
    simp only [retryStep] at h
    split at h
    · next hlive =>
      obtain rfl := Option.some.inj h
      obtain ⟨b, hb, hboth⟩ := List.any_eq_true.mp hlive
      rw [Bool.and_eq_true, decide_eq_true_eq] at hboth
      exact .undo ⟨b, hb, hboth⟩
    · cases h
  | markUndone u =>
    simp only [retryStep] at h
    split at h
    · cases h
    · next hundoing =>
      obtain ⟨inbox, hinbox, rfl⟩ := Option.map_eq_some_iff.mp h
      exact .markUndone hundoing hinbox

/-- The inbox with its undo refines the inbox. -/
def inboxOfRetry (lib : Library) (bucket : String) :
    Simulation (retrySystem lib bucket) (inboxSystem lib bucket) where
  map := RetryState.inbox
  init _ h := h.1
  step _ _ _ _ h := by
    cases retryMoves_of_step h with
    | inbox hstep _ _ => exact .inr ⟨_, hstep⟩
    | undo _ => exact .inl rfl
    | @markUndone u batchId _ _ hstep => exact .inr ⟨.cleanup (.settle batchId .undone), hstep⟩

/-! ### What holds of the rows -/

/-- The step of the protocol that a step of the inbox takes. -/
inductive Lifted (s : InboxState) : InboxLabel → Label → Prop
  | stage {itemId : String} {batch : CleanupBatch} :
      Lifted s (.stageBatch itemId batch) (.stage batch)
  | cleanup {k : Label} : Lifted s (.cleanup k) k
  | execute {r : ℕ} {linked : Bool} {iso workspaceId itemId batchId : String} :
      s.reviews r = .approving workspaceId itemId batchId →
      Lifted s (.execute r linked iso) (.approve r workspaceId batchId linked iso)
  | finish {r count : ℕ} : Lifted s (.finish r count) (.finish r count)

theorem lifted_of_moves {s s' : InboxState} {l : InboxLabel} (h : InboxMoves lib bucket s l s') :
    s'.base = s.base ∨
      ∃ k, Lifted s l k ∧ Cleanup.step lib bucket s.base k = some s'.base := by
  cases h with
  | stageBatch _ hbase => exact .inr ⟨_, .stage, hbase⟩
  | cleanup hbase _ _ _ => exact .inr ⟨_, .cleanup, hbase⟩
  | execute hreview hbase => exact .inr ⟨_, .execute hreview, hbase⟩
  | finish _ hbase => exact .inr ⟨_, .finish, hbase⟩
  | _ => exact .inl rfl

/-- What holds of the rows of the batches, and of those that have been COMPLETED. -/
structure RowsInv (s : RetryState) : Prop where
  kinds : ∀ b ∈ s.inbox.base.batches,
    b.state = .pending ∨ b.state = .failed ∨ s.completed b.id = true
  archived : ∀ b ∈ s.inbox.base.batches, b.backup.isSome = true → s.completed b.id = true
  undoing : ∀ u batchId, s.undoing u = some batchId → s.completed batchId = true
  fresh : ∀ b ∈ s.inbox.base.batches, b.state = .pending → s.completed b.id = false
  known : ∀ batchId, s.completed batchId = true → ∃ b ∈ s.inbox.base.batches, b.id = batchId

theorem completed_withInbox {inbox : InboxState} {batchId : String}
    (h : s.completed batchId = true) : (s.withInbox inbox).completed batchId = true := by
  change (s.completed batchId || _) = true
  rw [h, Bool.true_or]

theorem completed_of_row {inbox : InboxState} {b : CleanupBatch} (hb : b ∈ inbox.base.batches)
    (hstate : b.state = .completed) : (s.withInbox inbox).completed b.id = true := by
  change (s.completed b.id || inbox.base.batches.any _) = true
  rw [Bool.or_eq_true]
  exact .inr (List.any_eq_true.mpr ⟨b, hb, by simp [hstate]⟩)

theorem completed_cases {inbox : InboxState} {batchId : String}
    (h : (s.withInbox inbox).completed batchId = true) :
    s.completed batchId = true ∨
      ∃ b ∈ inbox.base.batches, b.id = batchId ∧ b.state = .completed := by
  rcases Bool.or_eq_true_iff.mp h with hold | hnew
  · exact .inl hold
  · obtain ⟨b, hb, hboth⟩ := List.any_eq_true.mp hnew
    rw [Bool.and_eq_true, decide_eq_true_eq, decide_eq_true_eq] at hboth
    exact .inr ⟨b, hb, hboth⟩

variable (lib) in
/-- The rows of the next state are old ones that have made a step, and new ones. -/
theorem RowsInv.next (h : RowsInv s) {inbox : InboxState} (k : Label)
    (hids : (inbox.base.batches.map (·.id)).Nodup)
    (hkeep : ∀ b ∈ s.inbox.base.batches, ∃ b' ∈ inbox.base.batches, b'.id = b.id)
    (hrows : ∀ b' ∈ inbox.base.batches,
      (∃ b ∈ s.inbox.base.batches, RowStep lib s.inbox.base k b b') ∨
        (∀ b ∈ s.inbox.base.batches, b.id ≠ b'.id) ∧
          (b'.state = .completed ∨ b'.state = .pending ∧ b'.backup = none))
    (hsettle : ∀ batchId state, k = .settle batchId state →
      s.completed batchId = true ∧ state = .undone) : RowsInv (s.withInbox inbox) where
  kinds b' hb' := by
    rcases hrows b' hb' with ⟨b, hb, hstep⟩ | ⟨-, hcompleted | ⟨hpending, -⟩⟩
    · cases hstep with
      | same => exact (h.kinds b' hb).imp_right (·.imp_right completed_withInbox)
      | settled heq => exact .inr (.inr (completed_withInbox (hsettle _ _ heq).1))
      | completed => exact .inr (.inr (completed_of_row hb' rfl))
      | failed _ _ => exact .inr (.inl rfl)
    · exact .inr (.inr (completed_of_row hb' hcompleted))
    · exact .inl hpending
  archived b' hb' hbackup := by
    rcases hrows b' hb' with ⟨b, hb, hstep⟩ | ⟨-, hcompleted | ⟨-, hnone⟩⟩
    · cases hstep with
      | same => exact completed_withInbox (h.archived b' hb hbackup)
      | settled heq => exact completed_withInbox (hsettle _ _ heq).1
      | completed => exact completed_of_row hb' rfl
      | failed _ _ => exact completed_withInbox (h.archived b hb hbackup)
    · exact completed_of_row hb' hcompleted
    · rw [hnone] at hbackup
      cases hbackup
  undoing u batchId hu := completed_withInbox (h.undoing u batchId hu)
  fresh b' hb' hpending := by
    -- The only row with this id is PENDING, and it has never been COMPLETED before.
    have hold : s.completed b'.id = false := by
      rcases hrows b' hb' with ⟨b, hb, hstep⟩ | ⟨hnew, -⟩
      · cases hstep with
        | same => exact h.fresh b' hb hpending
        | settled heq =>
          obtain rfl := (hsettle _ _ heq).2
          cases hpending
        | completed => cases hpending
        | failed _ _ => cases hpending
      · rw [Bool.eq_false_iff]
        intro hcompleted
        obtain ⟨b, hb, hid⟩ := h.known _ hcompleted
        exact hnew b hb hid
    rw [Bool.eq_false_iff]
    intro hcompleted
    rcases completed_cases hcompleted with hbefore | ⟨b, hb, hid, hstate⟩
    · cases hold.symm.trans hbefore
    · obtain rfl := List.inj_on_of_nodup_map hids hb hb' hid
      cases hpending.symm.trans hstate
  known batchId hcompleted := by
    rcases completed_cases hcompleted with hbefore | ⟨b, hb, hid, -⟩
    · obtain ⟨b, hb, hid⟩ := h.known batchId hbefore
      obtain ⟨b', hb', hid'⟩ := hkeep b hb
      exact ⟨b', hb', hid'.trans hid⟩
    · exact ⟨b, hb, hid⟩

/-- A step of the inbox below. -/
theorem RowsInv.ofInbox (h : RowsInv s) {l : InboxLabel} {inbox : InboxState}
    (hstep : inboxStep lib bucket s.inbox l = some inbox)
    (hids : (inbox.base.batches.map (·.id)).Nodup)
    (hsettle : ∀ batchId state, l = .cleanup (.settle batchId state) →
      s.completed batchId = true ∧ state = .undone)
    (hstage : ∀ itemId batch, l = .stageBatch itemId batch → batch.backup = none)
    (hcleanup : ∀ batch, l ≠ .cleanup (.stage batch)) : RowsInv (s.withInbox inbox) := by
  rcases lifted_of_moves (inboxMoves_of_step hstep) with hbase | ⟨k, hlifted, hbase⟩
  · -- Nothing happens to the rows.
    refine h.next lib (.crash 0) hids (fun b hb => ⟨b, hbase ▸ hb, rfl⟩)
      (fun b' hb' => .inl ⟨b', hbase ▸ hb', .same⟩) (by simp)
  · refine h.next lib k hids (fun b hb => ?_) (fun b' hb' => ?_) (fun batchId state heq => ?_)
    · obtain ⟨b', hb', hid⟩ := List.mem_map.mp
        ((moves_grow (moves_of_step hbase)).ids (List.mem_map_of_mem hb))
      exact ⟨b', hb', hid⟩
    · refine (step_row hbase hb').imp_right (And.imp_right (Or.imp_right ?_))
      rintro ⟨batch, heq, rfl⟩
      cases hlifted with
      | stage =>
        cases heq
        exact ⟨rfl, hstage _ batch rfl⟩
      | cleanup => exact absurd (congrArg _ heq) (hcleanup batch)
      | execute _ => cases heq
      | finish => cases heq
    · cases hlifted with
      | stage => cases heq
      | cleanup => exact hsettle batchId state (congrArg _ heq)
      | execute _ => cases heq
      | finish => cases heq

/-- What is COMPLETED stays so in the inbox as it goes on. -/
theorem rowsInv_of_reachable (h : (retrySystem lib bucket).Reachable s) : RowsInv s := by
  refine h.invariant ?_ ?_
  · rintro s ⟨hinbox, hundoing, hcompleted⟩
    have hrows : s.inbox.base.batches = [] := hinbox.1.1
    constructor
    · simp [hrows]
    · simp [hrows]
    · simp [hundoing]
    · simp [hrows]
    · simp [hcompleted]
  · intro s l s' hreach hinv hstep
    have hmoves := retryMoves_of_step hstep
    have hreach' := hreach.step hstep
    cases hmoves with
    | @inbox l inbox hbelow hsettle hstage =>
      have hbase := (inboxOf lib bucket).reachable ((inboxOfRetry lib bucket).reachable hreach')
      refine hinv.ofInbox hbelow (inv_of_reachable hbase).ids (fun batchId state heq => ?_)
        (fun itemId batch heq => (hstage itemId batch heq).2) (fun batch heq => ?_)
      · exact absurd heq (hsettle batchId state)
      · subst heq
        cases hbelow
    | undo hlive =>
      refine { hinv with undoing := fun u batchId hu => ?_ }
      rcases update_eq_cases hu with ⟨-, heq⟩ | ⟨-, hold⟩
      · obtain rfl := Option.some.inj heq
        obtain ⟨b, hb, rfl, hbackup⟩ := hlive
        exact hinv.archived b hb hbackup
      · exact hinv.undoing u batchId hold
    | @markUndone u batchId inbox hundoing hbelow =>
      have hbase := (inboxOf lib bucket).reachable ((inboxOfRetry lib bucket).reachable hreach')
      have hnext : RowsInv (s.withInbox inbox) := by
        refine hinv.ofInbox hbelow (inv_of_reachable hbase).ids (fun batchId' state heq => ?_)
          (fun _ _ heq => by cases heq) (fun _ heq => by cases heq)
        cases heq
        exact ⟨hinv.undoing u batchId hundoing, rfl⟩
      refine { hnext with undoing := fun u' batchId' hu => ?_ }
      rcases update_eq_cases hu with ⟨-, heq⟩ | ⟨-, hold⟩
      · cases heq
      · exact hnext.undoing u' batchId' hold

/-! ### What holds of the reviews -/

/-- What holds of the items, their reviews and the runs of these. -/
structure ReviewsInv (s : RetryState) : Prop where
  executed : ∀ r itemId, s.inbox.reviews r = .executed itemId →
    ∀ item ∈ s.inbox.items, item.id = itemId → ∀ batchId, item.payload = .batch batchId →
      s.completed batchId = true
  approved : Truthful s
  running : ∀ r itemId batchId, s.inbox.reviews r = .running itemId batchId →
    s.inbox.batchOf r = some batchId ∧ ∀ job, (s.inbox.base.runs r).job? = some job →
      job.entry = .approveCleanupBatch ∧ job.key.batchId = batchId
  jobs : ∀ r job, (s.inbox.base.runs r).job? = some job → job.entry = .approveCleanupBatch →
    ∃ itemId, s.inbox.reviews r = .running itemId job.key.batchId
  rows : ∀ item ∈ s.inbox.items, ∀ batchId, item.payload = .batch batchId → batchId ≠ "" ∧
    ∃ b ∈ s.inbox.base.batches, b.id = batchId ∧ b.workspaceId = item.workspaceId
  approving : ∀ r workspaceId itemId batchId,
    s.inbox.reviews r = .approving workspaceId itemId batchId →
    ∀ item ∈ s.inbox.items, item.id = itemId →
      item.workspaceId = workspaceId ∧ item.payload = .batch batchId
  quiet : ∃ n, ∀ r, n ≤ r → s.inbox.reviews r = .idle ∧ s.inbox.base.runs r = .idle

section Reviews

variable {lib : Library} {bucket : String} {s s' : InboxState} {l : InboxLabel}

/-- The items of the next state are those of the one before, of which one may be marked by its
review, and a new one, which is PENDING. -/
theorem item_cases (h : InboxMoves lib bucket s l s') {item : CleanupItem} (hi : item ∈ s'.items) :
    (∃ old ∈ s.items, old.id = item.id ∧ old.workspaceId = item.workspaceId ∧
        old.payload = item.payload ∧ (item.state = old.state ∨ item.state = .rejected ∨
          item.state = .approved ∧ ∃ r, s.reviews r = .executed item.id)) ∨
      s.freshItem item.id = true ∧ item.state = .pending ∧
        ∀ batchId, item.payload = .batch batchId → ∃ batch, l = .stageBatch item.id batch ∧
          batch.id = batchId ∧ batch.workspaceId = item.workspaceId := by
  have hold : item ∈ s.items → ∃ old ∈ s.items, old.id = item.id ∧
      old.workspaceId = item.workspaceId ∧ old.payload = item.payload ∧
      (item.state = old.state ∨ item.state = .rejected ∨
        item.state = .approved ∧ ∃ r, s.reviews r = .executed item.id) :=
    fun hmem => ⟨item, hmem, rfl, rfl, rfl, .inl rfl⟩
  cases h with
  | stageBatch hfresh hbase =>
    rcases List.mem_append.mp hi with hmem | hnew
    · exact .inl (hold hmem)
    · obtain rfl := List.mem_singleton.mp hnew
      refine .inr ⟨hfresh, rfl, fun batchId heq => ?_⟩
      cases heq
      exact ⟨_, rfl, rfl, rfl⟩
  | stageNative hfresh =>
    rcases List.mem_append.mp hi with hmem | hnew
    · exact .inl (hold hmem)
    · obtain rfl := List.mem_singleton.mp hnew
      exact .inr ⟨hfresh, rfl, fun _ heq => by cases heq⟩
  | @mark r itemId hreview =>
    obtain ⟨old, hmem, hid, rfl⟩ | ⟨hmem, -⟩ := Framework.Table.mem_update.mp hi
    · exact .inl ⟨old, hmem, rfl, rfl, rfl, .inr (.inr ⟨rfl, r, hid ▸ hreview⟩)⟩
    · exact .inl (hold hmem)
  | markRejected _ =>
    obtain ⟨old, hmem, hid, rfl⟩ | ⟨hmem, -⟩ := Framework.Table.mem_update.mp hi
    · exact .inl ⟨old, hmem, rfl, rfl, rfl, .inr (.inl rfl)⟩
    · exact .inl (hold hmem)
  | _ => exact .inl (hold hi)

/-- What a step makes of a review. -/
inductive ReviewStep (lib : Library) (bucket : String) (s : InboxState) (l : InboxLabel)
    (s' : InboxState) (r : ℕ) : Review → Prop
  | approving {item : CleanupItem} {batchId : String} :
      s.reviews r = .idle → item ∈ s.items → item.payload = .batch batchId →
      ReviewStep lib bucket s l s' r (.approving item.workspaceId item.id batchId)
  | running {workspaceId itemId batchId iso : String} {linked : Bool} :
      s.reviews r = .approving workspaceId itemId batchId → l = .execute r linked iso →
      s'.batchOf r = some batchId →
      Cleanup.step lib bucket s.base (.approve r workspaceId batchId linked iso) = some s'.base →
      ReviewStep lib bucket s l s' r (.running itemId batchId)
  | reported {workspaceId itemId batchId iso : String} {linked : Bool} :
      s.reviews r = .approving workspaceId itemId batchId → l = .execute r linked iso →
      ReviewStep lib bucket s l s' r (.executed itemId)
  | finished {itemId batchId : String} {count : ℕ} :
      s.reviews r = .running itemId batchId →
      Cleanup.step lib bucket s.base (.finish r count) = some s'.base →
      ReviewStep lib bucket s l s' r (.executed itemId)
  | tagged {itemId : String} {disposition : MessageDisposition} :
      s.reviews r = .moving itemId disposition [] →
      ReviewStep lib bucket s l s' r (.executed itemId)
  | moving {itemId : String} {disposition : MessageDisposition} {left : List Text} :
      (s.reviews r = .idle ∨ ∃ left', s.reviews r = .moving itemId disposition left') →
      ReviewStep lib bucket s l s' r (.moving itemId disposition left)
  | rejecting {itemId : String} :
      s.reviews r = .idle → ReviewStep lib bucket s l s' r (.rejecting itemId)
  | ended : (∀ itemId batchId, s.reviews r = .running itemId batchId → s.base.runs r = .ended) →
      ReviewStep lib bucket s l s' r .ended

/-- A review stays as it is, or it makes a step. -/
theorem review_cases (h : InboxMoves lib bucket s l s') (r : ℕ) :
    s'.reviews r = s.reviews r ∨ ReviewStep lib bucket s l s' r (s'.reviews r) := by
  -- One review makes a step, and the others stay.
  have hone : ∀ {t : InboxState} {d : ℕ} {review : Review},
      t.reviews = Function.update s.reviews d review →
      (d = r → ReviewStep lib bucket s l s' r review) →
      t.reviews r = s.reviews r ∨ ReviewStep lib bucket s l s' r (t.reviews r) := by
    intro t d review hreviews hstep
    rw [hreviews]
    by_cases hr : r = d
    · subst hr
      rw [Function.update_self]
      exact .inr (hstep rfl)
    · exact .inl (Function.update_of_ne hr ..)
  cases h with
  | stageBatch _ _ | stageNative _ | cleanup _ _ _ _ => exact .inl rfl
  | approveBatch hidle _ hitem hid _ hpayload =>
    refine hone rfl ?_
    rintro rfl
    rw [← hid]
    exact .approving hidle hitem hpayload
  | approveNative hidle _ _ _ _ _ =>
    refine hone rfl ?_
    rintro rfl
    exact .moving (.inl hidle)
  | @execute d linked iso workspaceId itemId batchId base hreview hbase =>
    refine hone rfl ?_
    rintro rfl
    exact .running hreview rfl (Function.update_self ..) hbase
  | reported hreview =>
    refine hone rfl ?_
    rintro rfl
    exact .reported hreview rfl
  | finish hreview hbase =>
    refine hone rfl ?_
    rintro rfl
    exact .finished hreview hbase
  | move hreview =>
    refine hone rfl ?_
    rintro rfl
    exact .moving (.inr ⟨_, hreview⟩)
  | tag hreview =>
    refine hone rfl ?_
    rintro rfl
    exact .tagged hreview
  | mark hreview =>
    refine hone rfl ?_
    rintro rfl
    exact .ended fun _ _ heq => by cases hreview.symm.trans heq
  | reject hidle _ _ _ _ =>
    refine hone rfl ?_
    rintro rfl
    exact .rejecting hidle
  | markRejected hreview =>
    refine hone rfl ?_
    rintro rfl
    exact .ended fun _ _ heq => by cases hreview.symm.trans heq
  | ended hrun _ =>
    refine hone rfl ?_
    rintro rfl
    exact .ended hrun

/-- A review changes the batch that it has begun to run when it begins to run it. -/
theorem batchOf_cases (h : InboxMoves lib bucket s l s') (r : ℕ) :
    s'.batchOf r = s.batchOf r ∨
      ∃ workspaceId itemId batchId, s.reviews r = .approving workspaceId itemId batchId := by
  cases h with
  | @execute d linked iso workspaceId itemId batchId base hreview _ =>
    by_cases hr : r = d
    · subst hr
      exact .inr ⟨_, _, _, hreview⟩
    · exact .inl (Function.update_of_ne hr ..)
  | _ => exact .inl rfl

/-- A run that begins is that of an immediate cleanup, or that of its review. -/
theorem job_cases (h : InboxMoves lib bucket s l s') {r : ℕ} {job : Job}
    (hjob : (s'.base.runs r).job? = some job) :
    (s.base.runs r).job? = some job ∨ s.reviews r = .idle ∧ job.entry = .executeCleanup ∨
      job.entry = .approveCleanupBatch ∧
        ∃ itemId, s'.reviews r = .running itemId job.key.batchId := by
  cases h with
  | stageBatch _ hbase =>
    rcases step_job hbase hjob with hold | ⟨-, _, _, _, _, _, _, heq⟩ | ⟨-, _, _, _, heq⟩
    · exact .inl hold
    · cases heq
    · cases heq
  | cleanup hbase happrove hexecute _ =>
    rcases step_job hbase hjob with hold | ⟨himmediate, _, _, _, _, _, _, heq⟩ | ⟨-, _, _, _, heq⟩
    · exact .inl hold
    · exact .inr (.inl ⟨hexecute _ _ _ _ _ _ _ heq, himmediate⟩)
    · exact absurd heq (happrove _ _ _ _ _)
  | execute _ hbase =>
    rcases step_job hbase hjob with hold | ⟨-, _, _, _, _, _, _, heq⟩ | ⟨hentry, _, _, _, heq⟩
    · exact .inl hold
    · cases heq
    · cases heq
      exact .inr (.inr ⟨hentry, _, Function.update_self ..⟩)
  | finish _ hbase =>
    rcases step_job hbase hjob with hold | ⟨-, _, _, _, _, _, _, heq⟩ | ⟨-, _, _, _, heq⟩
    · exact .inl hold
    · cases heq
    · cases heq
  | _ => exact .inl hjob

/-- Only finitely many reviews and runs have begun. -/
theorem quiet_of_moves (h : InboxMoves lib bucket s l s')
    (hquiet : ∃ n, ∀ r, n ≤ r → s.reviews r = .idle ∧ s.base.runs r = .idle) :
    ∃ n, ∀ r, n ≤ r → s'.reviews r = .idle ∧ s'.base.runs r = .idle := by
  obtain ⟨n, hn⟩ := hquiet
  have hreviews : ∃ d, ∀ r, r ≠ d → s'.reviews r = s.reviews r := by
    cases h with
    | stageBatch _ _ | stageNative _ | cleanup _ _ _ _ => exact ⟨0, fun _ _ => rfl⟩
    | _ => exact ⟨_, fun r hr => Function.update_of_ne hr ..⟩
  have hruns : ∃ d, ∀ r, r ≠ d → s'.base.runs r = s.base.runs r := by
    rcases base_of_inboxMoves h with hbase | ⟨k, hbase⟩
    · exact ⟨0, fun r _ => by rw [hbase]⟩
    · rcases moves_runs (moves_of_step hbase) with hsame | ⟨d, run, hupdate, -⟩
      · exact ⟨0, fun r _ => by rw [hsame]⟩
      · exact ⟨d, fun r hr => by rw [hupdate, Function.update_of_ne hr]⟩
  obtain ⟨d, hd⟩ := hreviews
  obtain ⟨e, he⟩ := hruns
  refine ⟨max n (max (d + 1) (e + 1)), fun r hr => ?_⟩
  rw [hd r (by omega), he r (by omega)]
  exact hn r (by omega)

theorem old_of_reviewed (h : InboxMoves lib bucket s l s') {item : CleanupItem}
    (hi : item ∈ s'.items) (hthere : ∃ i ∈ s.items, i.id = item.id) :
    ∃ old ∈ s.items, old.id = item.id ∧ old.workspaceId = item.workspaceId ∧
      old.payload = item.payload := by
  rcases item_cases h hi with ⟨old, hold, hid, hworkspace, hpayload, -⟩ | ⟨hfresh, -⟩
  · exact ⟨old, hold, hid, hworkspace, hpayload⟩
  · obtain ⟨i, hmem, hid⟩ := hthere
    exact absurd hid (of_decide_eq_true (List.all_eq_true.mp hfresh i hmem))

/-- A row that was there is there, in its workspace. -/
theorem row_kept (h : InboxMoves lib bucket s l s') (hids : (s.base.batches.map (·.id)).Nodup)
    {b : CleanupBatch} (hb : b ∈ s.base.batches) :
    ∃ b' ∈ s'.base.batches, b'.id = b.id ∧ b'.workspaceId = b.workspaceId := by
  rcases base_of_inboxMoves h with hbase | ⟨k, hbase⟩
  · exact ⟨b, hbase ▸ hb, rfl, rfl⟩
  obtain ⟨b', hb', hid⟩ := List.mem_map.mp
    ((moves_grow (moves_of_step hbase)).ids (List.mem_map_of_mem hb))
  rcases step_row hbase hb' with ⟨b₀, hb₀, hstep⟩ | ⟨hnew, -⟩
  · have hsame : b'.id = b₀.id ∧ b'.workspaceId = b₀.workspaceId := by
      cases hstep with
      | same | settled _ | completed | failed _ _ => exact ⟨rfl, rfl⟩
    obtain rfl := List.inj_on_of_nodup_map hids hb₀ hb (hsame.1.symm.trans hid)
    exact ⟨b', hb', hsame⟩
  · exact absurd hid.symm (hnew b hb)

/-- A batch that is staged has its row. -/
theorem row_of_stage {itemId : String} {batch : CleanupBatch}
    (h : inboxStep lib bucket s (.stageBatch itemId batch) = some s') :
    ∃ b ∈ s'.base.batches, b.id = batch.id ∧ b.workspaceId = batch.workspaceId ∧
      b.state = .pending := by
  simp only [inboxStep] at h
  split at h
  · obtain ⟨s₁, hs₁, rfl⟩ := Option.map_eq_some_iff.mp h
    obtain ⟨base, hbase, rfl⟩ := InboxState.lift_eq_some hs₁
    simp only [Cleanup.step] at hbase
    split at hbase
    · obtain rfl := Option.some.inj hbase
      exact ⟨_, List.mem_append_right _ (List.mem_singleton_self _), rfl, rfl, rfl⟩
    · cases hbase
  · cases h

/-- What comes of a review that calls `approveCleanupBatch`: it ends, it is told that the batch was
done, or it begins to run the batch, which is PENDING. -/
theorem execute_cases {r : ℕ} {linked : Bool} {iso : String}
    (h : inboxStep lib bucket s (.execute r linked iso) = some s') :
    ∃ workspaceId itemId batchId, s.reviews r = .approving workspaceId itemId batchId ∧
      (s' = s.setReview r .ended ∨
        (∃ b ∈ s.base.batches, b.id = batchId ∧ reportsDone b.state = true ∧
          s' = s.setReview r (.executed itemId)) ∨
        ∃ b ∈ s.base.batches, b.id = batchId ∧ b.state = .pending ∧ ∃ base,
          Cleanup.step lib bucket s.base (.approve r workspaceId batchId linked iso) = some base ∧
          s' = (({ s with base := base } : InboxState).setReview r
            (.running itemId batchId)).setBatchOf r batchId) := by
  simp only [inboxStep] at h
  split at h
  · next workspaceId itemId batchId hreview =>
    refine ⟨workspaceId, itemId, batchId, hreview, ?_⟩
    split at h
    · exact .inl (Option.some.inj h).symm
    · next batch hfind =>
      have hmem := List.mem_of_find?_eq_some hfind
      have hfound := List.find?_some hfind
      rw [Bool.and_eq_true, decide_eq_true_eq] at hfound
      split at h
      · obtain rfl := Option.some.inj h
        split
        · next hdone => exact .inr (.inl ⟨batch, hmem, hfound.1, hdone, rfl⟩)
        · exact .inl rfl
      · next hpending =>
        split at h
        · exact .inl (Option.some.inj h).symm
        · obtain ⟨s₁, hs₁, rfl⟩ := Option.map_eq_some_iff.mp h
          obtain ⟨base, hbase, rfl⟩ := InboxState.lift_eq_some hs₁
          exact .inr (.inr ⟨batch, hmem, hfound.1, not_not.mp hpending, base, hbase, rfl⟩)
  · cases h

/-- A step of the protocol below changes nothing else. -/
theorem cleanup_of_step {k : Label} (h : inboxStep lib bucket s (.cleanup k) = some s') :
    ∃ base, Cleanup.step lib bucket s.base k = some base ∧ s' = { s with base := base } := by
  cases k with
  | stage | approve => cases h
  | settle batchId state =>
    simp only [inboxStep] at h
    split at h
    · exact InboxState.lift_eq_some h
    · cases h
  | execute c key mode linked plan serverPlan query =>
    simp only [inboxStep] at h
    split at h
    · exact InboxState.lift_eq_some h
    · cases h
  | finish c count =>
    simp only [inboxStep] at h
    split at h
    · exact InboxState.lift_eq_some h
    · cases h
  | _ => exact InboxState.lift_eq_some h

/-- A review that is told so has found a row that is COMPLETED, or has been. -/
theorem row_of_reported {r : ℕ} {linked : Bool} {iso workspaceId itemId batchId : String}
    (h : inboxStep lib bucket s (.execute r linked iso) = some s')
    (hreview : s.reviews r = .approving workspaceId itemId batchId)
    (hnew : s'.reviews r = .executed itemId) :
    ∃ b ∈ s.base.batches, b.id = batchId ∧ reportsDone b.state = true := by
  have hself : ∀ {t : InboxState} {review : Review}, (t.setReview r review).reviews r = review :=
    Function.update_self ..
  obtain ⟨_, _, _, happroving, rfl | ⟨b, hb, hid, hdone, -⟩ | ⟨b, _, _, _, _, _, rfl⟩⟩ :=
    execute_cases h
  · cases hself.symm.trans hnew
  · cases hreview.symm.trans happroving
    exact ⟨b, hb, hid, hdone⟩
  · cases hself.symm.trans hnew

/-- The outcome of a review's run is recorded in the row of its batch. -/
theorem row_of_finish {s s' : State} {r count : ℕ} {batchId : String}
    (h : Cleanup.step lib bucket s (.finish r count) = some s')
    (hjob : ∀ job, (s.runs r).job? = some job →
      job.entry = .approveCleanupBatch ∧ job.key.batchId = batchId)
    (hrow : ∃ b ∈ s.batches, b.id = batchId) :
    ∃ b ∈ s'.batches, b.id = batchId ∧ b.state = .completed := by
  simp only [Cleanup.step] at h
  split at h
  · next job backup hrun =>
    obtain rfl := Option.some.inj h
    obtain ⟨hentry, rfl⟩ := hjob job (by rw [hrun]; rfl)
    obtain ⟨b, hb, hid⟩ := hrow
    unfold recording
    rw [hentry]
    obtain ⟨b', hb', ⟨-, rfl⟩ | ⟨hne, -⟩⟩ := Framework.Table.exists_update hb
      (p := fun b => b.id = job.key.batchId)
      (f := fun b : CleanupBatch =>
        { b with
          state := .completed
          result := some (cleanupResult job.safe job.requested count)
          backup := backup.or b.backup })
    · exact ⟨_, hb', hid, rfl⟩
    · exact absurd hid hne
  · cases h

end Reviews

/-- The item of a review that was under way was there before, and suits it. -/
theorem old_of_review (hitems : ItemsInv s.inbox) {l : InboxLabel} {inbox : InboxState}
    (hmoves : InboxMoves lib bucket s.inbox l inbox) {r : ℕ} {item : CleanupItem}
    {review : Review} (hreview : s.inbox.reviews r = review)
    (hitem : review.itemId? = some item.id) (hi : item ∈ inbox.items) :
    ∃ old ∈ s.inbox.items, old.id = item.id ∧ old.workspaceId = item.workspaceId ∧
      old.payload = item.payload ∧ Suits old.payload review := by
  subst hreview
  obtain ⟨i, hmem, hid, hsuits⟩ := hitems.reviewed r item.id hitem
  obtain ⟨old, holdMem, hold, hworkspace, hpayload⟩ := old_of_reviewed hmoves hi ⟨i, hmem, hid⟩
  obtain rfl := hitems.unique hmem holdMem (hid.trans hold.symm)
  exact ⟨i, hmem, hid, hworkspace, hpayload, hsuits⟩

/-- What is executed is COMPLETED, whether a run of the review has done it, or an earlier one. -/
theorem ReviewsInv.executed_next (h : ReviewsInv s) (hrows : RowsInv s)
    (hitems : ItemsInv s.inbox) {l : InboxLabel} {inbox : InboxState}
    (hstep : inboxStep lib bucket s.inbox l = some inbox) {r : ℕ} {item : CleanupItem}
    (hreview : inbox.reviews r = .executed item.id) (hi : item ∈ inbox.items) {batchId : String}
    (hpayload : item.payload = .batch batchId) :
    (s.withInbox inbox).completed batchId = true := by
  have hmoves : InboxMoves lib bucket s.inbox l inbox := inboxMoves_of_step hstep
  rcases review_cases hmoves r with hsame | hnew
  · rw [hreview] at hsame
    obtain ⟨old, hmem, hid, -, hsamePayload, -⟩ :=
      old_of_review hitems hmoves hsame.symm rfl hi
    exact completed_withInbox (h.executed r item.id hsame.symm old hmem hid batchId
      (hsamePayload.trans hpayload))
  · rw [hreview] at hnew
    cases hnew with
    | reported happroving heq =>
      subst heq
      obtain ⟨old, hmem, hid, -, hsamePayload, hsuits⟩ :=
        old_of_review hitems hmoves happroving rfl hi
      obtain ⟨b, hb, hbid, hdone⟩ := row_of_reported hstep happroving hreview
      cases hsuits.symm.trans (hsamePayload.trans hpayload)
      rcases hrows.kinds b hb with hpending | hfailed | hcompleted
      · rw [hpending] at hdone
        cases hdone
      · rw [hfailed] at hdone
        cases hdone
      · exact completed_withInbox (hbid ▸ hcompleted)
    | finished hrunning hfinish =>
      obtain ⟨old, hmem, hid, -, hsamePayload, hsuits⟩ :=
        old_of_review hitems hmoves hrunning rfl hi
      cases hsuits.symm.trans (hsamePayload.trans hpayload)
      obtain ⟨-, b, hb, hbid, -⟩ := h.rows old hmem _ hsuits
      obtain ⟨b', hb', hbid', hstate⟩ :=
        row_of_finish hfinish (h.running r item.id _ hrunning).2 ⟨b, hb, hbid⟩
      exact hbid' ▸ completed_of_row hb' hstate
    | tagged hmoving =>
      obtain ⟨old, -, -, -, hsamePayload, hsuits⟩ :=
        old_of_review hitems hmoves hmoving rfl hi
      obtain ⟨action, threadIds, hnative⟩ := hsuits
      cases hnative.symm.trans (hsamePayload.trans hpayload)

/-- A review that is running has a run of the batch. -/
theorem ReviewsInv.running_next (h : ReviewsInv s) {l : InboxLabel} {inbox : InboxState}
    (hmoves : InboxMoves lib bucket s.inbox l inbox) {r : ℕ} {itemId batchId : String}
    (hnow : inbox.reviews r = .running itemId batchId) :
    inbox.batchOf r = some batchId ∧ ∀ job, (inbox.base.runs r).job? = some job →
      job.entry = .approveCleanupBatch ∧ job.key.batchId = batchId := by
  have hjobs : (∀ job, (s.inbox.base.runs r).job? = some job →
        job.entry = .approveCleanupBatch ∧ job.key.batchId = batchId) →
      s.inbox.reviews r ≠ .idle → ∀ job, (inbox.base.runs r).job? = some job →
        job.entry = .approveCleanupBatch ∧ job.key.batchId = batchId := by
    intro hbefore hbusy job hjob
    rcases job_cases hmoves hjob with hjobBefore | ⟨hidle, -⟩ | ⟨hentry, itemId', hrunning⟩
    · exact hbefore job hjobBefore
    · exact absurd hidle hbusy
    · cases hnow.symm.trans hrunning
      exact ⟨hentry, rfl⟩
  rcases review_cases hmoves r with hsame | hnew
  · rw [hnow] at hsame
    obtain ⟨hbatch, hbefore⟩ := h.running r itemId batchId hsame.symm
    refine ⟨?_, hjobs hbefore (by rw [← hsame]; exact nofun)⟩
    rcases batchOf_cases hmoves r with hkept | ⟨_, _, _, happroving⟩
    · exact hkept.trans hbatch
    · cases hsame.trans happroving
  · rw [hnow] at hnew
    cases hnew with
    | running happroving _ hbatch hbegun =>
      refine ⟨hbatch, hjobs (fun job hjob => ?_) (by rw [happroving]; exact nofun)⟩
      rw [idle_of_approve hbegun] at hjob
      cases hjob

/-- It goes on running for as long as the run has a job. -/
theorem ReviewsInv.jobs_next (h : ReviewsInv s) {l : InboxLabel} {inbox : InboxState}
    (hmoves : InboxMoves lib bucket s.inbox l inbox) {r : ℕ} {job : Job}
    (hjob : (inbox.base.runs r).job? = some job) (hentry : job.entry = .approveCleanupBatch) :
    ∃ itemId, inbox.reviews r = .running itemId job.key.batchId := by
  rcases job_cases hmoves hjob with hjobBefore | ⟨-, himmediate⟩ | ⟨-, hrunning⟩
  · obtain ⟨itemId, hrunning⟩ := h.jobs r job hjobBefore hentry
    rcases review_cases hmoves r with hsame | hnew
    · exact ⟨itemId, hsame.trans hrunning⟩
    · exfalso
      generalize inbox.reviews r = review at hnew
      cases hnew with
      | approving hidle _ _ => cases hidle.symm.trans hrunning
      | running happroving _ _ _ => cases happroving.symm.trans hrunning
      | reported happroving _ => cases happroving.symm.trans hrunning
      | finished _ hfinish =>
        rw [ended_of_finish hfinish] at hjob
        cases hjob
      | tagged hmoving => cases hmoving.symm.trans hrunning
      | moving hwhy =>
        rcases hwhy with hidle | ⟨left', hmoving⟩
        · cases hidle.symm.trans hrunning
        · cases hmoving.symm.trans hrunning
      | rejecting hidle => cases hidle.symm.trans hrunning
      | ended hended =>
        rw [hended _ _ hrunning] at hjobBefore
        cases hjobBefore
  · cases himmediate.symm.trans hentry
  · exact hrunning

/-- What is approved is the batch of the item, in its workspace. -/
theorem ReviewsInv.approving_next (h : ReviewsInv s) (hitems : ItemsInv s.inbox) {l : InboxLabel}
    {inbox : InboxState} (hmoves : InboxMoves lib bucket s.inbox l inbox) {r : ℕ}
    {workspaceId batchId : String} {item : CleanupItem}
    (hnow : inbox.reviews r = .approving workspaceId item.id batchId)
    (hi : item ∈ inbox.items) :
    item.workspaceId = workspaceId ∧ item.payload = .batch batchId := by
  rcases review_cases hmoves r with hsame | hnew
  · rw [hnow] at hsame
    obtain ⟨old, hmem, hid, hworkspace, hpayload, -⟩ :=
      old_of_review hitems hmoves hsame.symm rfl hi
    rw [← hworkspace, ← hpayload]
    exact h.approving r workspaceId item.id batchId hsame.symm old hmem hid
  · generalize hreviewNew : inbox.reviews r = review at hnew
    cases hnew with
    | @approving found batchId' _ hfound hpayload =>
      injection hnow.symm.trans hreviewNew with hworkspace hid hbatch
      obtain ⟨old, hmem, hold, holdWorkspace, holdPayload⟩ :=
        old_of_reviewed hmoves hi ⟨found, hfound, hid.symm⟩
      obtain rfl := hitems.unique hmem hfound (hold.trans hid)
      rw [← holdWorkspace, ← holdPayload, hbatch]
      exact ⟨hworkspace.symm, hpayload⟩
    | _ => cases hnow.symm.trans hreviewNew

/-- A step of the inbox below. -/
theorem ReviewsInv.ofInbox (h : ReviewsInv s) (hrows : RowsInv s) (hitems : ItemsInv s.inbox)
    (hids : (s.inbox.base.batches.map (·.id)).Nodup) {l : InboxLabel} {inbox : InboxState}
    (hstep : inboxStep lib bucket s.inbox l = some inbox)
    (hstage : ∀ itemId batch, l = .stageBatch itemId batch → batch.id ≠ "") :
    ReviewsInv (s.withInbox inbox) := by
  have hmoves : InboxMoves lib bucket s.inbox l inbox := inboxMoves_of_step hstep
  constructor
  · rintro r itemId hreview item hi rfl batchId hpayload
    exact h.executed_next hrows hitems hstep hreview hi hpayload
  · -- An item is marked APPROVED by a review that has executed it.
    intro item hi batchId hpayload hstate
    rcases item_cases hmoves hi with ⟨old, hmem, hid, -, hsamePayload, hwhy⟩ | ⟨-, hpending, -⟩
    · rcases hwhy with hkept | hrejected | ⟨-, r, hexecuted⟩
      · exact completed_withInbox (h.approved old hmem batchId (hsamePayload.trans hpayload)
          (hkept.symm.trans hstate))
      · cases hrejected.symm.trans hstate
      · exact completed_withInbox (h.executed r item.id hexecuted old hmem hid batchId
          (hsamePayload.trans hpayload))
    · cases hpending.symm.trans hstate
  · exact fun r itemId batchId hreview => h.running_next hmoves hreview
  · exact fun r job hjob hentry => h.jobs_next hmoves hjob hentry
  · intro item hi batchId hpayload
    rcases item_cases hmoves hi with
      ⟨old, hmem, -, hworkspace, hsamePayload, -⟩ | ⟨-, -, hnew⟩
    · obtain ⟨hne, b, hb, hid, hbws⟩ := h.rows old hmem batchId (hsamePayload.trans hpayload)
      obtain ⟨b', hb', hid', hbws'⟩ := row_kept hmoves hids hb
      exact ⟨hne, b', hb', hid'.trans hid, hbws'.trans (hbws.trans hworkspace)⟩
    · obtain ⟨batch, rfl, rfl, hworkspace⟩ := hnew batchId hpayload
      obtain ⟨b, hb, hid, hbws, -⟩ := row_of_stage hstep
      exact ⟨hstage _ _ rfl, b, hb, hid, hbws.trans hworkspace⟩
  · rintro r workspaceId itemId batchId hreview item hi rfl
    exact h.approving_next hitems hmoves hreview hi
  · exact quiet_of_moves hmoves h.quiet

theorem inboxReachable (h : (retrySystem lib bucket).Reachable s) :
    (inboxSystem lib bucket).Reachable s.inbox :=
  (inboxOfRetry lib bucket).reachable h

theorem ids_of_reachable (h : (retrySystem lib bucket).Reachable s) :
    (s.inbox.base.batches.map (·.id)).Nodup :=
  (inv_of_reachable ((inboxOf lib bucket).reachable (inboxReachable h))).ids

theorem reviewsInv_of_reachable (h : (retrySystem lib bucket).Reachable s) : ReviewsInv s := by
  refine h.invariant ?_ ?_
  · rintro s ⟨⟨hbase, hitems, hreviews, -, -⟩, -, -⟩
    have hruns : ∀ c, s.inbox.base.runs c = .idle := hbase.2.2.2.1
    constructor
    · simp [hreviews]
    · intro item hi
      rw [hitems] at hi
      cases hi
    · simp [hreviews]
    · simp [hruns, Run.job?]
    · simp [hitems]
    · simp [hreviews]
    · exact ⟨0, fun r _ => ⟨hreviews r, hruns r⟩⟩
  · intro s l s' hreach hinv hstep
    have hrows := rowsInv_of_reachable hreach
    have hitems := itemsInv_of_reachable (inboxReachable hreach)
    have hids := ids_of_reachable hreach
    cases retryMoves_of_step hstep with
    | inbox hbelow _ hstage =>
      exact hinv.ofInbox hrows hitems hids hbelow
        fun itemId batch heq => (hstage itemId batch heq).1
    | undo _ => exact { hinv with approved := hinv.approved }
    | markUndone _ hbelow =>
      have hnext := hinv.ofInbox hrows hitems hids hbelow fun _ _ heq => by cases heq
      exact { hnext with approved := hnext.approved }

/-! ### Approving again -/

theorem findItem_of_mem (hitems : ItemsInv s.inbox) {item : CleanupItem}
    (hi : item ∈ s.inbox.items) : s.inbox.findItem item.workspaceId item.id = some item := by
  have hsome : (s.inbox.findItem item.workspaceId item.id).isSome = true :=
    List.find?_isSome.mpr ⟨item, hi, by simp⟩
  obtain ⟨found, hfound⟩ := Option.isSome_iff_exists.mp hsome
  obtain ⟨hmem, hid⟩ := mem_of_findItem hfound
  rw [hfound, hitems.unique hmem hi hid]

/-- So is a row. -/
theorem findBatch_of_mem {batches : List CleanupBatch} (hids : (batches.map (·.id)).Nodup)
    {b : CleanupBatch} (hb : b ∈ batches) :
    batches.find? (fun row => row.id = b.id && row.workspaceId = b.workspaceId) = some b := by
  have hsome : (batches.find? fun row =>
      row.id = b.id && row.workspaceId = b.workspaceId).isSome = true :=
    List.find?_isSome.mpr ⟨b, hb, by simp⟩
  obtain ⟨found, hfound⟩ := Option.isSome_iff_exists.mp hsome
  have hsame := List.find?_some hfound
  rw [Bool.and_eq_true, decide_eq_true_eq] at hsame
  rw [hfound, List.inj_on_of_nodup_map hids (List.mem_of_find?_eq_some hfound) hb hsame.1]

/-- An approval of an item whose batch is PENDING begins to run it. -/
theorem attempts_of_pending (h : (retrySystem lib bucket).Reachable s) {item : CleanupItem}
    (hi : item ∈ s.inbox.items) {batchId : String} (hpayload : item.payload = .batch batchId)
    (hstate : item.state = .pending) {b : CleanupBatch} (hb : b ∈ s.inbox.base.batches)
    (hid : b.id = batchId) (hpending : b.state = .pending) :
    Attempts lib bucket s item batchId := by
  subst hid
  have hitems := itemsInv_of_reachable (inboxReachable h)
  have hids := ids_of_reachable h
  obtain ⟨hne, b', hb', hid', hworkspace⟩ := (reviewsInv_of_reachable h).rows item hi b.id hpayload
  obtain rfl := List.inj_on_of_nodup_map hids hb' hb hid'
  intro r iso hreview hrun
  -- The item is read, and then the row.
  have happrove : (retrySystem lib bucket).step s
      (.inbox (.approve r item.workspaceId item.id true)) =
        some (s.withInbox (s.inbox.setReview r (.approving item.workspaceId item.id b'.id))) := by
    change (inboxStep lib bucket s.inbox (.approve r item.workspaceId item.id true)).map _ = _
    have hbegin : beginApproval s.inbox r item true =
        s.inbox.setReview r (.approving item.workspaceId item.id b'.id) := by
      rw [beginApproval, hpayload]
      exact if_neg (by simpa using hne)
    rw [inboxStep, hreview, hrun]
    dsimp only
    rw [findItem_of_mem hitems hi]
    dsimp only
    rw [if_neg (not_not.mpr hstate), hbegin]
    rfl
  have hfind : s.inbox.base.batches.find?
      (fun row => row.id = b'.id && row.workspaceId = item.workspaceId) = some b' := by
    rw [← hworkspace]
    exact findBatch_of_mem hids hb
  have hbase : Cleanup.step lib bucket s.inbox.base
      (.approve r item.workspaceId b'.id true iso) =
        some (begin s.inbox.base r (approveJob b' iso)) := by
    rw [Cleanup.step, hrun]
    dsimp only
    rw [hfind]
    dsimp only
    rw [if_neg (not_not.mpr hpending)]
    rfl
  have hexecute : inboxStep lib bucket
      (s.inbox.setReview r (.approving item.workspaceId item.id b'.id)) (.execute r true iso) =
        some ((({ s.inbox.setReview r (.approving item.workspaceId item.id b'.id) with
          base := begin s.inbox.base r (approveJob b' iso) } : InboxState).setReview r
            (.running item.id b'.id)).setBatchOf r b'.id) := by
    have hself : (s.inbox.setReview r (.approving item.workspaceId item.id b'.id)).reviews r =
        .approving item.workspaceId item.id b'.id := Function.update_self ..
    have hsame : (s.inbox.setReview r (.approving item.workspaceId item.id b'.id)).base =
        s.inbox.base := rfl
    rw [inboxStep, hself]
    dsimp only
    rw [hsame, hfind]
    dsimp only
    rw [if_neg (not_not.mpr hpending), InboxState.lift, hsame, hbase]
    rfl
  refine ⟨_, System.exec_cons_eq_some.mpr ⟨_, happrove, System.exec_cons_eq_some.mpr
    ⟨_, congrArg (Option.map _) hexecute, rfl⟩⟩, ?_⟩
  exact Function.update_self ..

/-- No approval runs a batch that is not PENDING. -/
theorem not_attempts (hitems : ItemsInv s.inbox) {item : CleanupItem} {batchId : String}
    (hrows : ∀ b ∈ s.inbox.base.batches, b.id = batchId → b.state ≠ .pending) {r : ℕ}
    (hreview : s.inbox.reviews r = .idle) (hrun : s.inbox.base.runs r = .idle) :
    ¬Attempts lib bucket s item batchId := by
  intro h
  obtain ⟨s', hexec, hbatch⟩ := h r "" hreview hrun
  obtain ⟨s₁, happrove, hrest⟩ := System.exec_cons_eq_some.mp hexec
  obtain ⟨s₂, hexecute, hend⟩ := System.exec_cons_eq_some.mp hrest
  obtain rfl := Option.some.inj hend
  obtain ⟨inbox₁, happroveBelow, rfl⟩ := Option.map_eq_some_iff.mp happrove
  obtain ⟨inbox₂, hexecuteBelow, rfl⟩ := Option.map_eq_some_iff.mp hexecute
  -- The approval changes its review alone.
  have hfirst : inbox₁.base = s.inbox.base ∧ inbox₁.batchOf = s.inbox.batchOf := by
    simp only [inboxStep] at happroveBelow
    split at happroveBelow
    · split at happroveBelow
      · obtain rfl := Option.some.inj happroveBelow
        exact ⟨rfl, rfl⟩
      · split at happroveBelow
        · obtain rfl := Option.some.inj happroveBelow
          exact ⟨rfl, rfl⟩
        · obtain rfl := Option.some.inj happroveBelow
          unfold beginApproval
          split
          · exact ⟨rfl, rfl⟩
          · split
            · exact ⟨rfl, rfl⟩
            · exact ⟨rfl, rfl⟩
    · cases happroveBelow
  have hnone : inbox₁.batchOf r = none := by
    rw [hfirst.2]
    exact hitems.unbegun r (by rw [hreview]; rfl)
  obtain ⟨_, _, batchId', -, rfl | ⟨_, _, _, _, rfl⟩ | ⟨b, hb, hid, hpending, _, _, rfl⟩⟩ :=
    execute_cases hexecuteBelow
  · cases hnone.symm.trans hbatch
  · cases hnone.symm.trans hbatch
  · change Function.update inbox₁.batchOf r (some batchId') r = some batchId at hbatch
    rw [Function.update_self] at hbatch
    obtain rfl := Option.some.inj hbatch
    change b ∈ inbox₁.base.batches at hb
    rw [hfirst.1] at hb
    exact hrows b hb hid hpending

/-- A batch of an implemented mode whose item is PENDING is so, too, or it has been COMPLETED. -/
def Kept (s : RetryState) : Prop :=
  ∀ item ∈ s.inbox.items, ∀ batchId, item.payload = .batch batchId → item.state = .pending →
    Implemented s.inbox batchId →
    s.completed batchId = true ∨ ∃ b ∈ s.inbox.base.batches, b.id = batchId ∧ b.state = .pending

theorem retried_of_kept (h : (retrySystem lib bucket).Reachable s) (hkept : Kept s) :
    Retried lib bucket s := by
  intro item hi batchId hpayload hstate himplemented _ hcompleted
  rcases hkept item hi batchId hpayload hstate himplemented with hdone | ⟨b, hb, hid, hpending⟩
  · cases hcompleted.symm.trans hdone
  · exact attempts_of_pending h hi hpayload hstate hb hid hpending

/-- The item of a batch is the one that its review is about. -/
theorem waits_of_review (hitems : ItemsInv s.inbox) {item : CleanupItem}
    (hi : item ∈ s.inbox.items) (hstate : item.state = .pending) {b : CleanupBatch}
    (hb : b ∈ s.inbox.base.batches) (hpayload : item.payload = .batch b.id)
    (hpending : b.state = .pending)
    (hmode : actionOf .approveCleanupBatch b.mode ≠ .notImplemented) {r : ℕ} {itemId : String}
    (hreview : s.inbox.reviews r = .running itemId b.id) : Waits s.inbox itemId b.id := by
  refine ⟨⟨item, hi, ?_, hstate⟩, b, hb, rfl, hpending, hmode⟩
  obtain ⟨found, hmem, hid, hsuits⟩ := hitems.item_of hreview rfl
  rw [← hid]
  exact hitems.batches item hi found hmem b.id hpayload hsuits

/-- What is implemented after a step was so before it, when the row was there. -/
theorem Implemented.before {t t' : InboxState} {l : InboxLabel} {b : CleanupBatch}
    (h : Implemented t' b.id) (hmoves : InboxMoves lib bucket t l t') (hb : b ∈ t.base.batches) :
    Implemented t b.id := by
  obtain ⟨b', hb', hid, hmode⟩ := h
  rcases lifted_of_moves hmoves with hbase | ⟨k, -, hbase⟩
  · exact ⟨b', hbase ▸ hb', hid, hmode⟩
  · rcases step_row hbase hb' with ⟨b₀, hb₀, hrow⟩ | ⟨hnew, -⟩
    · exact ⟨b₀, hb₀, hrow.id.symm.trans hid, hrow.mode ▸ hmode⟩
    · exact absurd hid.symm (hnew b hb)

/-- A step of the inbox below keeps it. -/
theorem kept_ofInbox (h : (retrySystem lib bucket).Reachable s) (hkept : Kept s) {l : InboxLabel}
    {inbox : InboxState} (hstep : inboxStep lib bucket s.inbox l = some inbox)
    (hsettle : ∀ batchId state, l = .cleanup (.settle batchId state) →
      s.completed batchId = true)
    (hunrecorded : Unrecorded lib s (.inbox l)) : Kept (s.withInbox inbox) := by
  have hitems := itemsInv_of_reachable (inboxReachable h)
  have hids := ids_of_reachable h
  have hreviews := reviewsInv_of_reachable h
  have hmoves : InboxMoves lib bucket s.inbox l inbox := inboxMoves_of_step hstep
  intro item hi batchId hpayload hstate himplemented
  rcases item_cases hmoves hi with ⟨old, hold, -, -, hsamePayload, hwhy⟩ | ⟨-, -, hnew⟩
  · have hstateOld : old.state = .pending := by
      rcases hwhy with hsame | hrejected | ⟨happroved, -⟩
      · exact hsame.symm.trans hstate
      · cases hrejected.symm.trans hstate
      · cases happroved.symm.trans hstate
    have hpayloadOld : old.payload = .batch batchId := hsamePayload.trans hpayload
    obtain ⟨-, b, hb, rfl, -⟩ := hreviews.rows old hold batchId hpayloadOld
    have hbefore : Implemented s.inbox b.id := himplemented.before hmoves hb
    rcases hkept old hold b.id hpayloadOld hstateOld hbefore with hdone | ⟨row, hrow, hid, hpending⟩
    · exact .inl (completed_withInbox hdone)
    obtain rfl := List.inj_on_of_nodup_map hids hrow hb hid
    -- The row is PENDING. What does the step make of it?
    rcases lifted_of_moves hmoves with hbase | ⟨k, hlifted, hbase⟩
    · exact .inr ⟨row, hbase ▸ hrow, rfl, hpending⟩
    obtain ⟨b', hb', hid'⟩ := List.mem_map.mp
      ((moves_grow (moves_of_step hbase)).ids (List.mem_map_of_mem hrow))
    rcases step_row hbase hb' with ⟨b₀, hb₀, hstepped⟩ | ⟨hnew, -⟩
    · obtain rfl := List.inj_on_of_nodup_map hids hb₀ hrow (hstepped.id.symm.trans hid')
      cases hstepped with
      | same => exact .inr ⟨b', hb', rfl, hpending⟩
      | settled heq =>
        cases hlifted with
        | cleanup => exact .inl (completed_withInbox (hsettle _ _ (congrArg _ heq)))
        | stage | execute _ | finish => cases heq
      | completed =>
        have hdone := completed_of_row (s := s) hb' rfl
        exact .inl hdone
      | @failed c result hthrows hcause =>
        exfalso
        have hmode : actionOf .approveCleanupBatch b₀.mode ≠ .notImplemented := by
          obtain ⟨same, hmem, hsame, hmode⟩ := hbefore
          rwa [List.inj_on_of_nodup_map hids hmem hb₀ hsame] at hmode
        cases hlifted with
        | stage => cases hthrows
        | finish => cases hthrows
        | cleanup =>
          rcases hcause with ⟨job, hjob, hentry, hkey⟩ | ⟨_, _, _, rfl⟩
          · obtain ⟨itemId, hrunning⟩ := hreviews.jobs c job hjob hentry
            rw [hkey] at hrunning
            exact hunrecorded c itemId b₀.id hthrows hrunning
              (waits_of_review hitems hold hstateOld hb₀ hpayloadOld hpending hmode hrunning)
          · cases hstep
        | execute _ =>
          -- What is approved throws at once only for its mode.
          obtain ⟨rfl, rfl, batch, hfind, hbatch, -, haction⟩ := throwsRun_approve hthrows
          rcases hcause with ⟨job, hjob, -⟩ | ⟨_, _, _, heq⟩
          · rw [idle_of_approve hbase] at hjob
            cases hjob
          · cases heq
            have hsame : batch = b₀ :=
              List.inj_on_of_nodup_map hids (List.mem_of_find?_eq_some hfind) hb₀ hbatch
            exact hmode (hsame ▸ haction)
    · exact absurd hid'.symm (hnew row hrow)
  · -- A new item has a new batch.
    obtain ⟨batch, rfl, rfl, -⟩ := hnew batchId hpayload
    obtain ⟨b, hb, hid, -, hpending⟩ := row_of_stage hstep
    exact .inr ⟨b, hb, hid, hpending⟩

/-- A step that records no failure keeps it. -/
theorem kept_of_step (h : (retrySystem lib bucket).Reachable s) (hkept : Kept s)
    (hunrecorded : Unrecorded lib s l) (hstep : retryStep lib bucket s l = some s') : Kept s' := by
  cases retryMoves_of_step hstep with
  | inbox hbelow hsettle _ =>
    exact kept_ofInbox h hkept hbelow (fun _ _ heq => absurd heq (hsettle _ _)) hunrecorded
  | undo _ => exact hkept
  | markUndone hundoing hbelow =>
    refine kept_ofInbox h hkept hbelow (fun batchId' state heq => ?_)
      (fun _ _ _ heq => by cases heq)
    cases heq
    exact (rowsInv_of_reachable h).undoing _ _ hundoing

/-- A batch that has FAILED is not tried again. -/
theorem not_retried (h : (retrySystem lib bucket).Reachable s) {item : CleanupItem}
    (hi : item ∈ s.inbox.items) {batchId : String} (hpayload : item.payload = .batch batchId)
    (hstate : item.state = .pending) {r : ℕ} (hbatch : s.inbox.batchOf r = some batchId)
    (hrun : s.inbox.base.runs r = .ended) (himplemented : Implemented s.inbox batchId)
    (hcompleted : s.completed batchId = false)
    (hrows : ∀ b ∈ s.inbox.base.batches, b.id = batchId → b.state = .failed) :
    ¬Retried lib bucket s := by
  intro hretried
  obtain ⟨n, hn⟩ := (reviewsInv_of_reachable h).quiet
  obtain ⟨hreview, hidle⟩ := hn n le_rfl
  refine not_attempts (itemsInv_of_reachable (inboxReachable h)) (fun b hb hid hpending => ?_)
    hreview hidle (hretried item hi batchId hpayload hstate himplemented ⟨r, hbatch, hrun⟩
      hcompleted)
  cases hpending.symm.trans (hrows b hb hid)

theorem failed_of_throwing {t : State} {c : ℕ} {job : Job}
    (hentry : job.entry = .approveCleanupBatch) {b : CleanupBatch}
    (hb : b ∈ (throwing t c job).batches) (hid : b.id = job.key.batchId) : b.state = .failed := by
  rcases mem_throwing hb with ⟨-, hne⟩ | ⟨-, b₀, -, -, rfl⟩
  · exact absurd hid (hne hentry)
  · rfl

/-- They are still there, with their modes. -/
theorem exists_throwing {t : State} (c : ℕ) (job : Job) {b : CleanupBatch} (hb : b ∈ t.batches) :
    ∃ b' ∈ (throwing t c job).batches, b'.id = b.id ∧ b'.mode = b.mode := by
  unfold throwing
  cases job.entry with
  | executeCleanup => exact ⟨b, hb, rfl, rfl⟩
  | approveCleanupBatch =>
    refine ⟨_, List.mem_map_of_mem hb, ?_⟩
    split
    · exact ⟨rfl, rfl⟩
    · exact ⟨rfl, rfl⟩

/-- A step that records the failure of a waiting batch ends what may be tried again. -/
theorem breaks (h : (retrySystem lib bucket).Reachable s) (hrecorded : ¬Unrecorded lib s l)
    (hstep : retryStep lib bucket s l = some s') : ¬Retried lib bucket s' := by
  have hitems := itemsInv_of_reachable (inboxReachable h)
  have hrows := rowsInv_of_reachable h
  have hreviews := reviewsInv_of_reachable h
  have hreach' : (retrySystem lib bucket).Reachable s' := h.step hstep
  cases retryMoves_of_step hstep with
  | @inbox l inbox hbelow hsettle _ =>
    cases l with
    | cleanup k =>
      simp only [Unrecorded, not_forall, not_not] at hrecorded
      obtain ⟨c, itemId, batchId, hthrows, hrunning, ⟨item, hi, rfl, hstate⟩, b, hb, rfl, hpending,
        hmode⟩ := hrecorded
      obtain ⟨base, hbase, rfl⟩ := cleanup_of_step hbelow
      obtain ⟨t, job, hsame, rfl, hjob | ⟨_, _, _, rfl, -⟩⟩ := step_of_throws hbase hthrows
      · obtain ⟨hbatch, hjobs⟩ := hreviews.running c item.id b.id hrunning
        obtain ⟨hentry, hkey⟩ := hjobs job hjob
        obtain ⟨found, hmem, hfound, hpayload⟩ := hitems.item_of hrunning rfl
        obtain rfl := hitems.unique hmem hi hfound
        have hfailed : ∀ row ∈ (throwing t c job).batches, row.id = b.id → row.state = .failed :=
          fun row hrow hid => failed_of_throwing hentry hrow (hid.trans hkey.symm)
        refine not_retried hreach' hmem hpayload hstate hbatch ?_ ?_ ?_ hfailed
        · change (throwing t c job).runs c = .ended
          rw [(throwing_frame t c job).1, Function.update_self]
        · obtain ⟨b', hb', hid, hsameMode⟩ := exists_throwing c job (hsame ▸ hb)
          exact ⟨b', hb', hid, hsameMode ▸ hmode⟩
        · -- It was PENDING before, and is not COMPLETED now.
          rw [Bool.eq_false_iff]
          intro hcompleted
          rcases completed_cases hcompleted with hold | ⟨row, hrow, hid, hdone⟩
          · cases (hrows.fresh b hb hpending).symm.trans hold
          · cases (hfailed row hrow hid).symm.trans hdone
      · cases hbelow
    | _ => exact absurd trivial hrecorded
  | undo _ => exact absurd trivial hrecorded
  | markUndone _ _ => exact absurd trivial hrecorded

/-- **When a failed cleanup is tried again.** Every state of a run keeps the law, of the approvals
that are tried again and of those that are true, exactly when no step of the run makes a run
throw whose item and batch are waiting. -/
theorem approval_retries_iff (hinit : (retrySystem lib bucket).init s) {ls : List RetryLabel}
    (hrun : (retrySystem lib bucket).exec s ls = some s') :
    (retrySystem lib bucket).Always (fun s => Retried lib bucket s ∧ Truthful s) s ls ↔
      (retrySystem lib bucket).Along (Unrecorded lib) s ls := by
  refine System.always_iff_along (fun s => (retrySystem lib bucket).Reachable s ∧ Kept s)
    ?_ ?_ ?_ ?_ hrun
  · rintro s ⟨hreach, hkept⟩
    exact ⟨retried_of_kept hreach hkept, (reviewsInv_of_reachable hreach).approved⟩
  · rintro s l s' ⟨hreach, hkept⟩ hunrecorded hstep
    exact ⟨hreach.step hstep, kept_of_step hreach hkept hunrecorded hstep⟩
  · rintro s l s' ⟨hreach, -⟩ hrecorded hstep ⟨hretried, -⟩
    exact breaks hreach hrecorded hstep hretried
  · refine ⟨.init hinit, fun item hi => ?_⟩
    rw [show s.inbox.items = [] from hinit.1.2.1] at hi
    cases hi

/-! ### Runs -/

/-- Nothing has happened yet. -/
def emptyRetry : RetryState := ⟨emptyInbox, fun _ => none, fun _ => false⟩

theorem emptyRetry_init : (retrySystem sampleLibrary "archives").init emptyRetry :=
  ⟨emptyInbox_init, fun _ => rfl, fun _ => rfl⟩

/-- A review whose process dies before the outcome of its run is recorded, and another one. -/
def crashedRun : List RetryLabel :=
  [.inbox (.stageBatch "i" (trashBatch "b")), .inbox (.approve 0 "ws" "i" true),
    .inbox (.execute 0 true "2026-01-01T00-00-00-000Z"), .inbox (.cleanup (.crash 0)),
    .inbox (.drop 0), .inbox (.approve 1 "ws" "i" true),
    .inbox (.execute 1 true "2026-01-01T00-01-00-000Z"), .inbox (.finish 1 2), .inbox (.mark 1)]

/-- The second approval has the batch executed. -/
theorem approval_retries_crashed : ∃ s',
    (retrySystem sampleLibrary "archives").exec emptyRetry crashedRun = some s' ∧
      s'.inbox.batchOf 0 = some "b" ∧ s'.inbox.batchOf 1 = some "b" ∧ s'.completed "b" = true ∧
      ((retrySystem sampleLibrary "archives").Always
          (fun s => Retried sampleLibrary "archives" s ∧ Truthful s) emptyRetry crashedRun ↔
        (retrySystem sampleLibrary "archives").Along (Unrecorded sampleLibrary) emptyRetry
          crashedRun) := by
  have hsome : ((retrySystem sampleLibrary "archives").exec emptyRetry crashedRun).isSome = true :=
    rfl
  have hexec := (Option.some_get hsome).symm
  exact ⟨_, hexec, rfl, rfl, rfl, approval_retries_iff emptyRetry_init hexec⟩

/-- The engine does not answer, and the batch has FAILED. The item is PENDING, and no approval
of it runs the batch. -/
theorem failed_batch_is_stuck : ∃ s, (retrySystem sampleLibrary "archives").Reachable s ∧
    ¬Retried sampleLibrary "archives" s := by
  let run : List RetryLabel :=
    [.inbox (.stageBatch "i" (trashBatch "b")), .inbox (.approve 0 "ws" "i" true),
      .inbox (.execute 0 true "2026-01-01T00-00-00-000Z"), .inbox (.cleanup (.fail 0)),
      .inbox (.drop 0)]
  have hsome : ((retrySystem sampleLibrary "archives").exec emptyRetry run).isSome = true := rfl
  refine ⟨_, System.exec_reachable emptyRetry_init (Option.some_get hsome).symm, fun h => ?_⟩
  obtain ⟨s', hagain, hbatch⟩ := h ⟨"i", "ws", .batch "b", .pending⟩ (List.mem_singleton_self _)
    "b" rfl rfl ⟨_, List.mem_singleton_self _, rfl, nofun⟩ ⟨0, rfl, rfl⟩ rfl 1
    "2026-01-01T00-01-00-000Z" rfl rfl
  have hnone : (((retrySystem sampleLibrary "archives").exec
      (((retrySystem sampleLibrary "archives").exec emptyRetry run).get hsome)
      [.inbox (.approve 1 "ws" "i" true),
        .inbox (.execute 1 true "2026-01-01T00-01-00-000Z")]).bind (·.inbox.batchOf 1)) = none :=
    rfl
  rw [hagain] at hnone
  cases hbatch.symm.trans hnone

end Retry
end Cleanup
end EmailOps
