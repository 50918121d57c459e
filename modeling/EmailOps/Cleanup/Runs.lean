import EmailOps.Cleanup.Protocol

/-!
# The runs of the cleanup protocol

More about the runs than permanent delete needs. `RunsInv` says that an immediate cleanup
is alone under its batch id and has no row yet, that a staged one has its row, and that a
run whose archive is verified, or whose messages are being deleted, has an archive under
its own key that holds its messages.

* `moves_grow`: jobs, events and rows stay.
* `runsInv_of_reachable`: the invariant holds of every run.
-/

namespace EmailOps
namespace Cleanup

open Framework

/-- The run whose outcome a step is. -/
def Label.outcome : Label → Option ℕ
  | .finish c _ | .fail c | .crash c => some c
  | _ => none

/-- The run that asks the engine to change a mailbox. -/
def Event.actor? : Event → Option ℕ
  | .deleteCalled c _ | .trashed c _ | .organized c _ => some c
  | .exported _ _ _ | .verified _ _ _ | .purged _ _ => none

/-- The run that a step may have ask the engine to change a mailbox. -/
def Label.actor? : Label → Option ℕ
  | .execute c _ _ _ _ _ _ | .approve c _ _ _ _ | .delete c => some c
  | _ => none

/-- The job of a run whose archive is verified. -/
def Run.kept? : Run → Option Job
  | .verified job _ | .applying job (some _) => some job
  | _ => none

/-- An archive under the key was verified that holds the messages. -/
def KeptUnder (lib : Library) (log : List Event) (key : ArchiveKey) (requested : List Text) : Prop :=
  ∃ c zip, .verified c key zip ∈ log ∧ (verifyArchive lib (some zip)).success = true ∧
    ∀ id ∈ requested, ∃ raw, .exported key id raw ∈ log ∧ Holds lib zip id raw

variable {lib : Library} {bucket : String} {s s' : State} {l : Label}

theorem KeptUnder.mono {log log' : List Event} {key : ArchiveKey} {requested : List Text}
    (h : KeptUnder lib log key requested) (hlog : log ⊆ log') :
    KeptUnder lib log' key requested := by
  obtain ⟨c, zip, hverified, haccepted, hholds⟩ := h
  refine ⟨c, zip, hlog hverified, haccepted, fun id hid => ?_⟩
  obtain ⟨raw, hexported, hraw⟩ := hholds id hid
  exact ⟨raw, hlog hexported, hraw⟩

/-! ### What stays -/

/-- A run that throws changes itself, and at most the state of its row. -/
theorem throwing_frame (s : State) (c : ℕ) (job : Job) :
    (throwing s c job).runs = Function.update s.runs c .ended ∧
      (throwing s c job).purges = s.purges ∧ (throwing s c job).jobs = s.jobs ∧
      (throwing s c job).log = s.log ∧
      (throwing s c job).batches.map (·.id) = s.batches.map (·.id) := by
  unfold throwing
  cases job.entry with
  | executeCleanup => exact ⟨rfl, rfl, rfl, rfl, rfl⟩
  | approveCleanupBatch => exact ⟨rfl, rfl, rfl, rfl, updateBatch_ids _ _ fun _ => rfl⟩

/-- What `begin` does to a state that has its job. -/
inductive Begins (s : State) (c : ℕ) (job : Job) : State → Prop
  | archiving : Begins s c job ((s.setRun c (.archiving job)).setExport c (.running job))
  | trashed : Begins s c job ((s.setRun c (.applying job none)).note [.trashed c job.requested])
  | organized : Begins s c job ((s.setRun c (.applying job none)).note [.organized c job.requested])
  | thrown : Begins s c job (throwing s c job)

theorem begins_begin (s : State) (c : ℕ) (job : Job) :
    Begins { s with jobs := s.jobs ++ [job] } c job (begin s c job) := by
  unfold begin
  dsimp only
  cases actionOf job.entry job.mode with
  | archive => exact .archiving
  | trash => exact .trashed
  | organize => exact .organized
  | notImplemented => exact .thrown

/-- Jobs, events and rows stay. -/
structure Grows (s s' : State) : Prop where
  jobs : s.jobs ⊆ s'.jobs
  log : s.log ⊆ s'.log
  ids : s.batches.map (·.id) ⊆ s'.batches.map (·.id)

theorem Grows.of_eq (hjobs : s'.jobs = s.jobs)
    (hlog : s'.log = s.log) (hids : s'.batches.map (·.id) = s.batches.map (·.id)) : Grows s s' :=
  ⟨hjobs ▸ List.Subset.refl _, hlog ▸ List.Subset.refl _, hids ▸ List.Subset.refl _⟩

theorem Grows.of_note {more : List Event} (hjobs : s'.jobs = s.jobs) (hlog : s'.log = s.log ++ more)
    (hids : s'.batches.map (·.id) = s.batches.map (·.id)) : Grows s s' :=
  ⟨hjobs ▸ List.Subset.refl _, hlog ▸ List.subset_append_left _ _, hids ▸ List.Subset.refl _⟩

theorem Grows.trans {t : State} (h : Grows s s') (h' : Grows s' t) : Grows s t :=
  ⟨List.Subset.trans h.jobs h'.jobs, List.Subset.trans h.log h'.log, List.Subset.trans h.ids h'.ids⟩

theorem throwing_grows (s : State) (c : ℕ) (job : Job) : Grows s (throwing s c job) := by
  obtain ⟨-, -, hjobs, hlog, hids⟩ := throwing_frame s c job
  exact .of_eq hjobs hlog hids

theorem Begins.grows {c : ℕ} {job : Job} (h : Begins s c job s') : Grows s s' := by
  cases h with
  | archiving => exact .of_eq rfl rfl rfl
  | trashed => exact .of_note rfl rfl rfl
  | organized => exact .of_note rfl rfl rfl
  | thrown => exact throwing_grows s c job

theorem begin_grows (s : State) (c : ℕ) (job : Job) : Grows s (begin s c job) := by
  have hjob : Grows s { s with jobs := s.jobs ++ [job] } :=
    ⟨List.subset_append_left _ _, List.Subset.refl _, List.Subset.refl _⟩
  exact hjob.trans (begins_begin s c job).grows

/-- A run that is recorded has ended. -/
theorem recording_runs (s : State) (c : ℕ) (job : Job) (backup : Option BackupRef) (count : ℕ) :
    (recording s c job backup count).runs = Function.update s.runs c .ended := by
  unfold recording
  cases job.entry with
  | executeCleanup =>
    dsimp only
    split
    · rfl
    · rfl
  | approveCleanupBatch => rfl

theorem recording_grows (s : State) (c : ℕ) (job : Job) (backup : Option BackupRef) (count : ℕ) :
    Grows s (recording s c job backup count) := by
  unfold recording
  cases job.entry with
  | executeCleanup =>
    dsimp only
    split
    · exact .of_eq rfl rfl rfl
    · refine ⟨List.Subset.refl _, List.Subset.refl _, ?_⟩
      change s.batches.map (·.id) ⊆ (s.batches ++ [executedBatch job backup count]).map (·.id)
      rw [List.map_append]
      exact List.subset_append_left _ _
  | approveCleanupBatch => exact .of_eq rfl rfl (updateBatch_ids _ _ fun _ => rfl)

theorem moves_grow (h : Moves lib bucket s l s') : Grows s s' := by
  cases h with
  | stage _ =>
    refine ⟨List.Subset.refl _, List.Subset.refl _, ?_⟩
    rw [List.map_append]
    exact List.subset_append_left _ _
  | settle _ => exact .of_eq rfl rfl (updateBatch_ids _ _ fun _ => rfl)
  | executed _ _ => exact begin_grows _ _ _
  | approved _ _ _ _ => exact begin_grows _ _ _
  | exported _ _ => exact .of_note rfl rfl rfl
  | verified _ _ _ => exact .of_note rfl rfl rfl
  | delete _ => exact .of_note rfl rfl rfl
  | purge _ => exact .of_note rfl rfl rfl
  | finish _ => exact recording_grows _ _ _ _ _
  | thrown _ _ => exact throwing_grows _ _ _
  | refused _ | exportFailed _ | answered _ _ | crash => exact .of_eq rfl rfl rfl

/-- No step but the settling of a batch makes it UNDONE. -/
theorem moves_undone (h : Moves lib bucket s l s') {b : CleanupBatch} (hb : b ∈ s'.batches)
    (hundone : b.state = .undone) : b ∈ s.batches ∨ l = .settle b.id .undone := by
  -- A run that throws makes its staged batch FAILED, and nothing UNDONE.
  have hthrowing : ∀ (s₀ : State) {c job}, s₀.batches = s.batches →
      b ∈ (throwing s₀ c job).batches → b ∈ s.batches := by
    intro s₀ c job hsame hb
    unfold throwing at hb
    cases hentry : job.entry with
    | executeCleanup =>
      rw [hentry] at hb
      exact hsame ▸ hb
    | approveCleanupBatch =>
      rw [hentry] at hb
      obtain ⟨hold, -⟩ | ⟨b₀, -, -, rfl⟩ := mem_updateBatch hb
      · exact hsame ▸ hold
      · cases hundone
  have hbegin : ∀ {c job}, b ∈ (begin s c job).batches → b ∈ s.batches := by
    intro c job hb
    have hbegins := begins_begin s c job
    generalize begin s c job = s₁ at hbegins hb
    cases hbegins with
    | archiving | trashed | organized => exact hb
    | thrown => exact hthrowing { s with jobs := s.jobs ++ [job] } rfl hb
  cases h with
  | stage _ =>
    cases List.mem_append.mp hb with
    | inl hold => exact .inl hold
    | inr hnew =>
      -- A new batch is pending.
      rw [List.mem_singleton.mp hnew] at hundone
      cases hundone
  | settle _ =>
    obtain ⟨hold, -⟩ | ⟨b₀, -, rfl, rfl⟩ := mem_updateBatch hb
    · exact .inl hold
    · -- The row that is settled is the only one that can have become UNDONE.
      right
      rw [show b₀.id = _ from rfl]
      exact congrArg _ hundone
  | executed _ _ => exact .inl (hbegin hb)
  | approved _ _ _ _ => exact .inl (hbegin hb)
  | @finish c count job backup _ =>
    unfold recording at hb
    cases hentry : job.entry with
    | executeCleanup =>
      rw [hentry] at hb
      dsimp only at hb
      split at hb
      · -- There is a row of the batch, and none is written.
        exact .inl hb
      · cases List.mem_append.mp hb with
        | inl hold => exact .inl hold
        | inr hnew =>
          -- An immediate cleanup writes a row that is COMPLETED.
          rw [List.mem_singleton.mp hnew] at hundone
          cases hundone
    | approveCleanupBatch =>
      rw [hentry] at hb
      obtain ⟨hold, -⟩ | ⟨b₀, -, -, rfl⟩ := mem_updateBatch hb
      · exact .inl hold
      · cases hundone
  | thrown _ _ => exact .inl (hthrowing s rfl hb)
  | refused _ | exportFailed _ | exported _ _ | answered _ _ | verified _ _ _ | delete _ | purge _
  | crash => exact .inl hb

/-- A step changes one run at most, and one that has come to its deletion only by its
outcome. -/
theorem moves_runs (h : Moves lib bucket s l s') :
    s'.runs = s.runs ∨ ∃ c run, s'.runs = Function.update s.runs c run ∧
      ((s.runs c).beforeDelete = true ∨ run = .ended ∧ l.outcome = some c) := by
  have hbegin : ∀ c job, ∃ run, (begin s c job).runs = Function.update s.runs c run := by
    intro c job
    have hbegins := begins_begin s c job
    generalize begin s c job = s₁ at hbegins
    cases hbegins with
    | archiving | trashed | organized => exact ⟨_, rfl⟩
    | thrown => exact ⟨_, (throwing_frame _ c job).1⟩
  cases h with
  | stage _ | settle _ | exportFailed _ | exported _ _ | purge _ => exact .inl rfl
  -- A run leaves the phase it is in, early or by its outcome.
  | @refused c l hidle => exact .inr ⟨c, _, rfl, .inl (by rw [hidle]; rfl)⟩
  | @executed c key mode linked plan serverPlan query hidle _ =>
    obtain ⟨run, hrun⟩ := hbegin c (executeJob key mode plan serverPlan query)
    exact .inr ⟨c, run, hrun, .inl (by rw [hidle]; rfl)⟩
  | @approved c workspaceId batchId linked iso batch hidle _ _ _ =>
    obtain ⟨run, hrun⟩ := hbegin c (approveJob batch iso)
    exact .inr ⟨c, run, hrun, .inl (by rw [hidle]; rfl)⟩
  | @answered c job ref hrun _ => exact .inr ⟨c, _, rfl, .inl (by rw [hrun]; rfl)⟩
  | @verified c job ref zip hrun _ _ => exact .inr ⟨c, _, rfl, .inl (by rw [hrun]; rfl)⟩
  | @delete c job ref hrun => exact .inr ⟨c, _, rfl, .inl (by rw [hrun]; rfl)⟩
  | @finish c count job backup hrun =>
    exact .inr ⟨c, .ended, recording_runs s c job backup count, .inr ⟨rfl, rfl⟩⟩
  | @thrown c l job _ hearly =>
    refine .inr ⟨c, .ended, (throwing_frame s c job).1, ?_⟩
    -- A run that is past its deletion throws only when a call fails.
    cases hdelete : (s.runs c).beforeDelete with
    | true => exact .inl rfl
    | false => exact .inr ⟨rfl, by rw [hearly hdelete]; rfl⟩
  | @crash c => exact .inr ⟨c, .ended, rfl, .inr ⟨rfl, rfl⟩⟩

/-- A run that waits for its outcome goes on waiting until it has it. -/
theorem applying_stays (h : Moves lib bucket s l s') {c : ℕ} {job : Job}
    {backup : Option BackupRef} (hrun : s.runs c = .applying job backup)
    (hl : l.outcome ≠ some c) :
    s'.runs c = .applying job backup := by
  obtain hsame | ⟨d, run, hupdate, hwhy⟩ := moves_runs h
  · rw [hsame, hrun]
  · by_cases hcd : c = d
    · subst hcd
      rw [hrun] at hwhy
      obtain hearly | ⟨-, houtcome⟩ := hwhy
      · cases hearly
      · exact absurd houtcome hl
    · rw [hupdate, Function.update_of_ne hcd, hrun]

/-- A run that has ended has ended. -/
theorem ended_stays (h : Moves lib bucket s l s') {c : ℕ} (hrun : s.runs c = .ended) :
    s'.runs c = .ended := by
  obtain hsame | ⟨d, run, hupdate, hwhy⟩ := moves_runs h
  · rw [hsame, hrun]
  · by_cases hcd : c = d
    · subst hcd
      rw [hrun] at hwhy
      obtain hearly | ⟨rfl, -⟩ := hwhy
      · cases hearly
      · rw [hupdate, Function.update_self]
    · rw [hupdate, Function.update_of_ne hcd, hrun]

/-! ### Asking the engine -/

theorem Begins.acts {c : ℕ} {job : Job} (h : Begins s c job s') :
    s'.log = s.log ∨ ∃ e, s'.log = s.log ++ [e] ∧ e.actor? = some c ∧
      s'.runs c = .applying job none := by
  cases h with
  | archiving => exact .inl rfl
  | trashed => exact .inr ⟨_, rfl, rfl, Function.update_self ..⟩
  | organized => exact .inr ⟨_, rfl, rfl, Function.update_self ..⟩
  | thrown => exact .inl (throwing_frame s c job).2.2.2.1

/-- **A run asks the engine to change a mailbox when it comes to it**, and then waits for
the outcome. No other step asks. -/
theorem moves_act (h : Moves lib bucket s l s') :
    (∃ more, s'.log = s.log ++ more ∧ ∀ e ∈ more, e.actor? = none) ∨
      ∃ c e job backup, s'.log = s.log ++ [e] ∧ e.actor? = some c ∧ l.actor? = some c ∧
        (s.runs c).beforeDelete = true ∧ s'.runs c = .applying job backup := by
  -- A step that logs nothing, or nothing a run asks for.
  have hsame : ∀ {t : State}, t.log = s.log →
      ∃ more, t.log = s.log ++ more ∧ ∀ e ∈ more, e.actor? = none :=
    fun heq => ⟨[], heq.trans (List.append_nil _).symm, fun _ hmem => absurd hmem List.not_mem_nil⟩
  have hone : ∀ {t : State} {e : Event}, t.log = s.log ++ [e] → e.actor? = none →
      ∃ more, t.log = s.log ++ more ∧ ∀ e ∈ more, e.actor? = none := by
    intro t e heq hnone
    refine ⟨[e], heq, fun e' he' => ?_⟩
    rw [List.mem_singleton.mp he']
    exact hnone
  have hbegin : ∀ {c : ℕ} {job : Job}, s.runs c = .idle → l.actor? = some c →
      (∃ more, (begin s c job).log = s.log ++ more ∧ ∀ e ∈ more, e.actor? = none) ∨
        ∃ d e j backup, (begin s c job).log = s.log ++ [e] ∧ e.actor? = some d ∧
          l.actor? = some d ∧ (s.runs d).beforeDelete = true ∧
          (begin s c job).runs d = .applying j backup := by
    intro c job hidle hl
    obtain hlog | ⟨e, hlog, hactor, hrun⟩ := (begins_begin s c job).acts
    · exact .inl (hsame hlog)
    · exact .inr ⟨c, e, job, none, hlog, hactor, hl, by rw [hidle]; rfl, hrun⟩
  cases h with
  | stage _ | settle _ | refused _ | exportFailed _ | answered _ _ | crash =>
    exact .inl (hsame rfl)
  | executed hidle _ => exact hbegin hidle rfl
  | approved hidle _ _ _ => exact hbegin hidle rfl
  | exported _ _ =>
    -- What is exported is read from the mailbox, not asked for by a run.
    refine .inl ⟨_, rfl, fun e he => ?_⟩
    obtain ⟨e', -, rfl⟩ := List.mem_map.mp he
    rfl
  | verified _ _ _ => exact .inl (hone rfl rfl)
  | @delete c job ref hrun =>
    exact .inr ⟨c, _, job, _, rfl, rfl, rfl, by rw [hrun]; rfl, Function.update_self ..⟩
  | purge _ => exact .inl (hone rfl rfl)
  -- The row is written, and the log stays.
  | @finish c count job backup _ =>
    left
    unfold recording
    cases job.entry with
    | executeCleanup =>
      dsimp only
      split
      · exact hsame rfl
      · exact hsame rfl
    | approveCleanupBatch => exact hsame rfl
  | thrown _ _ => exact .inl (hsame (throwing_frame s _ _).2.2.2.1)

/-- A run that has not come to its deletion was not there before. -/
theorem beforeDelete_of_moves (h : Moves lib bucket s l s') {c : ℕ}
    (hlater : (s'.runs c).beforeDelete = true) : (s.runs c).beforeDelete = true := by
  obtain hsame | ⟨d, run, hupdate, hwhy⟩ := moves_runs h
  · rwa [hsame] at hlater
  · by_cases hcd : c = d
    · subst hcd
      rw [hupdate, Function.update_self] at hlater
      obtain hearly | ⟨rfl, -⟩ := hwhy
      · exact hearly
      · cases hlater
    · rwa [hupdate, Function.update_of_ne hcd] at hlater

/-- A run that has not come to its deletion has asked for nothing. -/
theorem not_acted_of_beforeDelete (h : (system lib bucket).Reachable s) :
    ∀ c, (s.runs c).beforeDelete = true → ∀ e ∈ s.log, e.actor? ≠ some c := by
  refine h.invariant
    (P := fun s => ∀ c, (s.runs c).beforeDelete = true → ∀ e ∈ s.log, e.actor? ≠ some c) ?_ ?_
  · -- Nothing is logged at first.
    intro s hinit c _ e he
    obtain ⟨-, -, -, -, -, -, hlog⟩ := hinit
    rw [hlog] at he
    exact absurd he List.not_mem_nil
  · intro s l s' _ ih hstep c hc e he
    have hmoves := moves_of_step hstep
    have hold := ih c (beforeDelete_of_moves hmoves hc)
    obtain ⟨more, hlog, hnone⟩ | ⟨d, e', job, backup, hlog, hactor, -, -, hrun⟩ := moves_act hmoves
    · -- What the step has logged nobody asked for.
      rw [hlog] at he
      cases List.mem_append.mp he with
      | inl hin => exact hold e hin
      | inr hin =>
        rw [hnone e hin]
        exact fun heq => by cases heq
    · rw [hlog] at he
      cases List.mem_append.mp he with
      | inl hin => exact hold e hin
      | inr hin =>
        -- The one who asks is no longer early.
        rw [List.mem_singleton.mp hin, hactor]
        intro heq
        obtain rfl := Option.some.inj heq
        rw [hrun] at hc
        cases hc

/-! ### The invariant -/

/-- What holds of the runs. -/
structure RunsInv (lib : Library) (s : State) : Prop where
  mem : ∀ c j, (s.runs c).job? = some j → j ∈ s.jobs
  /-- An immediate cleanup has no row yet, and shares its batch id with no other run. -/
  alone : ∀ c j, (s.runs c).job? = some j → j.entry = .executeCleanup →
    j.key.batchId ∉ s.batches.map (·.id) ∧
      ∀ c' j', (s.runs c').job? = some j' → j'.key.batchId = j.key.batchId → c' = c
  staged : ∀ c j, (s.runs c).job? = some j → j.entry = .approveCleanupBatch →
    j.key.batchId ∈ s.batches.map (·.id)
  kept : ∀ c j, (s.runs c).kept? = some j → KeptUnder lib s.log j.key j.requested
  before : ∀ c, (s.runs c).beforeDelete = true → s.purges c = []
  purging : ∀ c j backup, s.runs c = .applying j backup →
    ∀ chunk ∈ s.purges c, backup.isSome = true ∧ ∀ id ∈ chunk, id ∈ j.requested

theorem RunsInv.initial (h : (system lib bucket).init s) : RunsInv lib s := by
  obtain ⟨-, -, -, hruns, -, hpurges, -⟩ := h
  constructor
  · intro c j hc
    rw [hruns] at hc
    cases hc
  · intro c j hc
    rw [hruns] at hc
    cases hc
  · intro c j hc
    rw [hruns] at hc
    cases hc
  · intro c j hc
    rw [hruns] at hc
    cases hc
  · exact fun c _ => hpurges c
  · intro c j backup hc
    rw [hruns] at hc
    cases hc

/-- The runs stay, and so do the ids of the rows. -/
theorem RunsInv.frame (h : RunsInv lib s) (hgrows : Grows s s') (hruns : s'.runs = s.runs)
    (hpurges : s'.purges = s.purges) (hids : s'.batches.map (·.id) = s.batches.map (·.id)) :
    RunsInv lib s' := by
  constructor
  · intro c j hc
    rw [hruns] at hc
    exact hgrows.jobs (h.mem c j hc)
  · rw [hruns, hids]
    exact h.alone
  · rw [hruns, hids]
    exact h.staged
  · intro c j hc
    rw [hruns] at hc
    exact (h.kept c j hc).mono hgrows.log
  · rw [hruns, hpurges]
    exact h.before
  · rw [hruns, hpurges]
    exact h.purging

/-- A run moves on with its job, or ends. -/
theorem RunsInv.setRun (h : RunsInv lib s) {c : ℕ} {run : Run}
    (hjob : ∀ j, run.job? = some j → (s.runs c).job? = some j)
    (hkept : ∀ j, run.kept? = some j → KeptUnder lib s.log j.key j.requested)
    (hbefore : run.beforeDelete = true → s.purges c = [])
    (hpurging : ∀ j backup, run = .applying j backup →
      ∀ chunk ∈ s.purges c, backup.isSome = true ∧ ∀ id ∈ chunk, id ∈ j.requested) :
    RunsInv lib (s.setRun c run) := by
  have hself : (s.setRun c run).runs c = run := Function.update_self ..
  have hother : ∀ d, d ≠ c → (s.setRun c run).runs d = s.runs d :=
    fun d hd => Function.update_of_ne hd ..
  -- A run with a job has had it before.
  have hback : ∀ d j, ((s.setRun c run).runs d).job? = some j → (s.runs d).job? = some j := by
    intro d j hd
    by_cases hdc : d = c
    · subst hdc
      rw [hself] at hd
      exact hjob j hd
    · rwa [hother d hdc] at hd
  constructor
  · exact fun d j hd => h.mem d j (hback d j hd)
  · intro d j hd hentry
    obtain ⟨hrow, halone⟩ := h.alone d j (hback d j hd) hentry
    exact ⟨hrow, fun d' j' hd' => halone d' j' (hback d' j' hd')⟩
  · exact fun d j hd => h.staged d j (hback d j hd)
  · -- Only the run that moves has to show what its archive holds.
    intro d j hd
    by_cases hdc : d = c
    · subst hdc
      rw [hself] at hd
      exact hkept j hd
    · rw [hother d hdc] at hd
      exact h.kept d j hd
  · intro d hd
    by_cases hdc : d = c
    · subst hdc
      rw [hself] at hd
      exact hbefore hd
    · rw [hother d hdc] at hd
      exact h.before d hd
  · intro d j backup hd
    by_cases hdc : d = c
    · subst hdc
      rw [hself] at hd
      exact hpurging j backup hd
    · rw [hother d hdc] at hd
      exact h.purging d j backup hd

/-- A run has other chunks left, of messages its job asked for. -/
theorem RunsInv.setPurge (h : RunsInv lib s) {c : ℕ} {chunks : List (List Text)}
    (hbefore : (s.runs c).beforeDelete = true → chunks = [])
    (hpurging : ∀ j backup, s.runs c = .applying j backup →
      ∀ chunk ∈ chunks, backup.isSome = true ∧ ∀ id ∈ chunk, id ∈ j.requested) :
    RunsInv lib (s.setPurge c chunks) := by
  have hself : (s.setPurge c chunks).purges c = chunks := Function.update_self ..
  have hother : ∀ d, d ≠ c → (s.setPurge c chunks).purges d = s.purges d :=
    fun d hd => Function.update_of_ne hd ..
  refine ⟨h.mem, h.alone, h.staged, h.kept, fun d hd => ?_, fun d j backup hd chunk hchunk => ?_⟩
  · by_cases hdc : d = c
    · subst hdc
      rw [hself]
      exact hbefore hd
    · rw [hother d hdc]
      exact h.before d hd
  · by_cases hdc : d = c
    · subst hdc
      rw [hself] at hchunk
      exact hpurging j backup hd chunk hchunk
    · rw [hother d hdc] at hchunk
      exact h.purging d j backup hd chunk hchunk

/-- A batch is staged under an id that no run works for. -/
theorem RunsInv.addBatch (h : RunsInv lib s) {batch : CleanupBatch}
    (hfresh : ∀ j ∈ s.jobs, j.key.batchId ≠ batch.id) :
    RunsInv lib { s with batches := s.batches ++ [batch] } := by
  refine ⟨h.mem, fun c j hc hentry => ?_, fun c j hc hentry => ?_, h.kept, h.before, h.purging⟩
  · obtain ⟨hrow, halone⟩ := h.alone c j hc hentry
    refine ⟨fun hmem => ?_, halone⟩
    rw [List.map_append] at hmem
    cases List.mem_append.mp hmem with
    | inl hold => exact hrow hold
    | inr hnew => exact hfresh j (h.mem c j hc) (List.mem_singleton.mp hnew)
  · rw [List.map_append]
    exact List.mem_append_left _ (h.staged c j hc hentry)

theorem RunsInv.endRun (h : RunsInv lib s) (c : ℕ) : RunsInv lib (s.setRun c .ended) :=
  h.setRun (fun _ heq => by cases heq) (fun _ heq => by cases heq) (fun heq => by cases heq)
    (fun _ _ heq => by cases heq)

theorem RunsInv.throwing (h : RunsInv lib s) (c : ℕ) (job : Job) :
    RunsInv lib (throwing s c job) := by
  obtain ⟨hruns, hpurges, hjobs, hlog, hids⟩ := throwing_frame s c job
  exact (h.endRun c).frame (.of_eq hjobs hlog hids) hruns hpurges hids

/-- A run begins a job that is new to the others under its batch id. -/
theorem RunsInv.begins (h : RunsInv lib s) {c : ℕ} {job : Job} (hidle : s.runs c = .idle)
    (hmem : job ∈ s.jobs)
    (halone : job.entry = .executeCleanup → job.key.batchId ∉ s.batches.map (·.id) ∧
      ∀ c' j', (s.runs c').job? = some j' → j'.key.batchId ≠ job.key.batchId)
    (hstaged : job.entry = .approveCleanupBatch → job.key.batchId ∈ s.batches.map (·.id))
    {run : Run} (hrun : run.job? = some job) (hkept : run.kept? = none) :
    RunsInv lib (s.setRun c run) := by
  have hself : (s.setRun c run).runs c = run := Function.update_self ..
  have hother : ∀ d, d ≠ c → (s.setRun c run).runs d = s.runs d :=
    fun d hd => Function.update_of_ne hd ..
  have hnone : s.purges c = [] := h.before c (by rw [hidle]; rfl)
  constructor
  · -- A job that is begun is on record.
    intro d j hd
    by_cases hdc : d = c
    · subst hdc
      rw [hself, hrun] at hd
      obtain rfl := Option.some.inj hd
      exact hmem
    · rw [hother d hdc] at hd
      exact h.mem d j hd
  · intro d j hd hentry
    by_cases hdc : d = c
    · subst hdc
      rw [hself, hrun] at hd
      obtain rfl := Option.some.inj hd
      obtain ⟨hrow, hfresh⟩ := halone hentry
      refine ⟨hrow, fun d' j' hd' hid => ?_⟩
      by_contra hdd
      -- Another run under this id would be one of before.
      rw [hother d' hdd] at hd'
      exact hfresh d' j' hd' hid
    · rw [hother d hdc] at hd
      obtain ⟨hrow, hother'⟩ := h.alone d j hd hentry
      refine ⟨hrow, fun d' j' hd' hid => ?_⟩
      by_cases hdc' : d' = c
      · subst hdc'
        rw [hself, hrun] at hd'
        obtain rfl := Option.some.inj hd'
        -- The job begun is not under the id of this immediate cleanup.
        cases hjob : job.entry with
        | executeCleanup => exact absurd hid.symm ((halone hjob).2 d j hd)
        | approveCleanupBatch => exact absurd (hid ▸ hstaged hjob) hrow
      · rw [hother d' hdc'] at hd'
        exact hother' d' j' hd' hid
  · intro d j hd hentry
    by_cases hdc : d = c
    · subst hdc
      rw [hself, hrun] at hd
      obtain rfl := Option.some.inj hd
      exact hstaged hentry
    · rw [hother d hdc] at hd
      exact h.staged d j hd hentry
  · intro d j hd
    by_cases hdc : d = c
    · subst hdc
      rw [hself, hkept] at hd
      cases hd
    · rw [hother d hdc] at hd
      exact h.kept d j hd
  · intro d hd
    by_cases hdc : d = c
    · subst hdc
      exact hnone
    · rw [hother d hdc] at hd
      exact h.before d hd
  · intro d j backup hd chunk hchunk
    by_cases hdc : d = c
    · subst hdc
      change chunk ∈ s.purges d at hchunk
      rw [hnone] at hchunk
      cases hchunk
    · rw [hother d hdc] at hd
      exact h.purging d j backup hd chunk hchunk

theorem RunsInv.begin (h : RunsInv lib s) {c : ℕ} {job : Job} (hidle : s.runs c = .idle)
    (halone : job.entry = .executeCleanup → job.key.batchId ∉ s.batches.map (·.id) ∧
      ∀ j ∈ s.jobs, j.key.batchId ≠ job.key.batchId)
    (hstaged : job.entry = .approveCleanupBatch → job.key.batchId ∈ s.batches.map (·.id)) :
    RunsInv lib (Cleanup.begin s c job) := by
  -- The job is put on record first, then its run begins.
  have hjobs : Grows s { s with jobs := s.jobs ++ [job] } :=
    ⟨List.subset_append_left _ _, List.Subset.refl _, List.Subset.refl _⟩
  have hframe : RunsInv lib { s with jobs := s.jobs ++ [job] } := h.frame hjobs rfl rfl rfl
  have hset : ∀ {run : Run}, run.job? = some job → run.kept? = none →
      RunsInv lib (({ s with jobs := s.jobs ++ [job] } : State).setRun c run) := by
    intro run hrun hkept
    refine hframe.begins hidle (List.mem_append_right _ (List.mem_singleton_self _)) ?_ hstaged
      hrun hkept
    intro hentry
    obtain ⟨hrow, hfresh⟩ := halone hentry
    exact ⟨hrow, fun c' j' hc' => hfresh j' (h.mem c' j' hc')⟩
  have hbegins := begins_begin s c job
  generalize Cleanup.begin s c job = s' at hbegins
  cases hbegins with
  | archiving => exact (hset rfl rfl).frame (.of_eq rfl rfl rfl) rfl rfl rfl
  | trashed => exact (hset rfl rfl).frame (.of_note rfl rfl rfl) rfl rfl rfl
  | organized => exact (hset rfl rfl).frame (.of_note rfl rfl rfl) rfl rfl rfl
  | thrown => exact hframe.throwing c job

/-- The row of a cleanup is written. -/
theorem RunsInv.recording (h : RunsInv lib s) {c : ℕ} {job : Job} {backup : Option BackupRef}
    (hrun : s.runs c = .applying job backup) (count : ℕ) :
    RunsInv lib (recording s c job backup count) := by
  have hjob : (s.runs c).job? = some job := by
    rw [hrun]
    rfl
  have hended := h.endRun c
  unfold Cleanup.recording
  cases hentry : job.entry with
  | approveCleanupBatch =>
    have hids := updateBatch_ids (s.setRun c .ended) job.key.batchId (f := fun b =>
      { b with
        state := .completed
        result := some (cleanupResult job.safe job.requested count)
        backup := backup.or b.backup }) fun _ => rfl
    exact hended.frame (.of_eq rfl rfl hids) rfl rfl hids
  | executeCleanup =>
    dsimp only
    split
    · exact hended
    · -- The batch has no row yet, so this run is the only one of its id.
      obtain ⟨-, honly⟩ := h.alone c job hjob hentry
      have hother : ∀ d j, ((s.setRun c .ended).runs d).job? = some j →
          (s.runs d).job? = some j ∧ d ≠ c := by
        intro d j hd
        by_cases hdc : d = c
        · subst hdc
          rw [show (s.setRun d .ended).runs d = .ended from Function.update_self ..] at hd
          cases hd
        · rw [show (s.setRun c .ended).runs d = s.runs d from Function.update_of_ne hdc ..] at hd
          exact ⟨hd, hdc⟩
      constructor
      · exact hended.mem
      · intro d j hd hexecute
        obtain ⟨hrow, halone⟩ := hended.alone d j hd hexecute
        refine ⟨?_, halone⟩
        rw [List.map_append]
        intro hmem
        cases List.mem_append.mp hmem with
        | inl hold => exact hrow hold
        | inr hnew =>
          -- The new row is of this run, and no other has its id.
          obtain ⟨hbefore, hdc⟩ := hother d j hd
          exact hdc (honly d j hbefore (List.mem_singleton.mp hnew))
      · intro d j hd hstaged
        rw [List.map_append]
        exact List.mem_append_left _ (hended.staged d j hd hstaged)
      · exact hended.kept
      · exact hended.before
      · exact hended.purging

/-- **Every step keeps what holds of the runs.** -/
theorem RunsInv.step (h : RunsInv lib s) (hinv : Inv lib s) (hmoves : Moves lib bucket s l s') :
    RunsInv lib s' := by
  have hgrows := moves_grow hmoves
  cases hmoves with
  | stage hfresh => exact h.addBatch (State.fresh_iff.mp hfresh).2
  | @settle batchId state _ =>
    have hids := updateBatch_ids s batchId (f := fun b => { b with state := state }) fun _ => rfl
    exact h.frame hgrows rfl rfl hids
  | refused _ => exact h.endRun _
  | executed hidle hfresh =>
    obtain ⟨hbatches, hjobs⟩ := State.fresh_iff.mp hfresh
    refine h.begin hidle (fun _ => ⟨?_, hjobs⟩) (fun heq => by cases heq)
    intro hmem
    -- No row has the id of an immediate cleanup.
    obtain ⟨b, hb, hid⟩ := List.mem_map.mp hmem
    exact hbatches b hb hid
  | approved hidle hbatch _ _ =>
    exact h.begin hidle (fun heq => by cases heq) fun _ => List.mem_map_of_mem hbatch
  | exportFailed _ => exact h.frame hgrows rfl rfl rfl
  | exported _ _ => exact h.frame hgrows rfl rfl rfl
  | @answered c job ref hrun _ =>
    refine h.setRun (fun j heq => ?_) (fun _ heq => by cases heq) (fun _ => h.before c ?_)
      (fun _ _ heq => by cases heq)
    · rw [hrun]
      exact heq
    · rw [hrun]
      rfl
  | @verified c job ref zip hrun hstore haccepted =>
    have hjob : job ∈ s.jobs := h.mem c job (by rw [hrun]; rfl)
    have hnoted : RunsInv lib (s.note [.verified c job.key zip]) :=
      h.frame (.of_note rfl rfl rfl) rfl rfl rfl
    change RunsInv lib ((s.note [.verified c job.key zip]).setRun c (.verified job ref))
    refine hnoted.setRun (fun j heq => ?_) (fun j heq => ?_)
      (fun _ => h.before c ?_) (fun _ _ heq => by cases heq)
    · -- It keeps its job.
      change (s.runs c).job? = some j
      rw [hrun]
      exact heq
    · -- The archive that was accepted holds the messages of the job.
      obtain rfl := Option.some.inj heq
      refine ⟨c, zip, List.mem_append_right _ (List.mem_singleton_self _), haccepted, ?_⟩
      intro id hid
      obtain ⟨raw, hexported, hraw⟩ := hinv.holds hjob hstore haccepted id hid
      exact ⟨raw, List.mem_append_left _ hexported, hraw⟩
    · rw [hrun]
      rfl
  | @delete c job ref hrun =>
    have hset : RunsInv lib (s.setRun c (.applying job (some (backupRef ref)))) := by
      refine h.setRun (fun j heq => ?_) (fun j heq => ?_) (fun heq => by cases heq)
        (fun j backup heq chunk hchunk => ?_)
      · -- The verified archive is kept, and nothing was left to delete before.
        rw [hrun]
        exact heq
      · obtain rfl := Option.some.inj heq
        exact h.kept c _ (by rw [hrun]; rfl)
      · rw [h.before c (by rw [hrun]; rfl)] at hchunk
        cases hchunk
    have hself : (s.setRun c (.applying job (some (backupRef ref)))).runs c =
        .applying job (some (backupRef ref)) := Function.update_self ..
    -- The chunks are those of the job.
    have hchunks : RunsInv lib ((s.setRun c (.applying job (some (backupRef ref)))).setPurge c
        (slices (chunkSize job.key.provider) job.requested)) := by
      refine hset.setPurge (fun hd => ?_) fun j backup hd chunk hchunk => ?_
      · rw [hself] at hd
        cases hd
      · have hd' : Run.applying job (some (backupRef ref)) = .applying j backup := hself.symm.trans hd
        cases hd'
        exact ⟨rfl, mem_of_mem_slices hchunk⟩
    exact hchunks.frame (.of_note rfl rfl rfl) rfl rfl rfl
  | @purge c raised chunk rest hpurge =>
    -- What is left was left before.
    have hleft : ∀ chunk' ∈ (if raised then [] else rest), chunk' ∈ s.purges c := by
      intro chunk' hchunk'
      split at hchunk'
      · cases hchunk'
      · rw [hpurge]
        exact List.mem_cons_of_mem chunk hchunk'
    have hchunks : RunsInv lib (s.setPurge c (if raised then [] else rest)) := by
      refine h.setPurge (fun hd => ?_) fun j backup hd chunk' hchunk' => ?_
      · rw [h.before c hd] at hpurge
        cases hpurge
      · exact h.purging c j backup hd chunk' (hleft chunk' hchunk')
    exact hchunks.frame (.of_note rfl rfl rfl) rfl rfl rfl
  | finish hrun => exact h.recording hrun _
  | thrown _ _ => exact h.throwing _ _
  | crash => exact h.endRun _

theorem runsInv_of_reachable (h : (system lib bucket).Reachable s) : RunsInv lib s := by
  refine h.invariant (fun s => RunsInv.initial) ?_
  intro s l s' hreach hinv hstep
  exact hinv.step (inv_of_reachable hreach) (moves_of_step hstep)

/-- Without a bucket nothing is archived, and so nothing verified. -/
def NoArchive (s : State) : Prop :=
  (∀ key, s.store key = none) ∧ ∀ c key zip, Event.verified c key zip ∉ s.log

theorem NoArchive.frame (h : NoArchive s) {more : List Event} (hstore : s'.store = s.store)
    (hlog : s'.log = s.log ++ more) (hmore : ∀ c key zip, Event.verified c key zip ∉ more) :
    NoArchive s' := by
  refine ⟨fun key => hstore ▸ h.1 key, fun c key zip hmem => ?_⟩
  rw [hlog] at hmem
  cases List.mem_append.mp hmem with
  | inl hold => exact h.2 c key zip hold
  | inr hnew => exact hmore c key zip hnew

theorem NoArchive.same (h : NoArchive s) (hstore : s'.store = s.store) (hlog : s'.log = s.log) :
    NoArchive s' :=
  h.frame hstore (hlog.trans (List.append_nil _).symm) fun _ _ _ => List.not_mem_nil

theorem NoArchive.begins (h : NoArchive s) {c : ℕ} {job : Job} (hbegins : Begins s c job s') :
    NoArchive s' := by
  cases hbegins with
  | archiving => exact h.same rfl rfl
  | trashed =>
    refine h.frame rfl rfl fun _ _ _ hmem => ?_
    cases List.mem_singleton.mp hmem
  | organized =>
    refine h.frame rfl rfl fun _ _ _ hmem => ?_
    cases List.mem_singleton.mp hmem
  | thrown =>
    refine h.same ?_ (throwing_frame s c job).2.2.2.1
    unfold Cleanup.throwing
    cases job.entry with
    | executeCleanup => rfl
    | approveCleanupBatch => rfl

theorem NoArchive.begin (h : NoArchive s) (c : ℕ) (job : Job) :
    NoArchive (Cleanup.begin s c job) := by
  have hjob : NoArchive { s with jobs := s.jobs ++ [job] } := h
  exact hjob.begins (begins_begin s c job)

theorem NoArchive.step (h : NoArchive s) (hmoves : Moves lib "" s l s') : NoArchive s' := by
  cases hmoves with
  | stage _ | settle _ | refused _ | exportFailed _ | answered _ _ | crash => exact h.same rfl rfl
  | executed _ _ => exact h.begin _ _
  | approved _ _ _ _ => exact h.begin _ _
  | exported _ hcreate =>
    -- `create_archive` wants a bucket.
    unfold createArchive at hcreate
    split at hcreate
    · cases hcreate
    · next hbucket => exact absurd (Or.inl rfl) hbucket
  | verified _ hstore _ =>
    rw [h.1] at hstore
    cases hstore
  | delete _ =>
    refine h.frame rfl rfl fun _ _ _ hmem => ?_
    cases List.mem_singleton.mp hmem
  | purge _ =>
    refine h.frame rfl rfl fun _ _ _ hmem => ?_
    cases List.mem_singleton.mp hmem
  | @finish c count job backup _ =>
    unfold Cleanup.recording
    cases job.entry with
    | executeCleanup =>
      dsimp only
      split
      · exact h.same rfl rfl
      · exact h.same rfl rfl
    | approveCleanupBatch => exact h.same rfl rfl
  | thrown _ _ => exact h.begins .thrown

/-- Where an archive was verified there is a bucket. -/
theorem bucket_of_verified (h : (system lib bucket).Reachable s) {c : ℕ} {key : ArchiveKey}
    {zip : Zip} (hverified : .verified c key zip ∈ s.log) : bucket ≠ "" := by
  rintro rfl
  have hnone : NoArchive s := by
    refine h.invariant (fun s hinit => ?_) (fun s l s' _ hinv hstep => ?_)
    · obtain ⟨-, -, hstore, -, -, -, hlog⟩ := hinit
      refine ⟨hstore, fun c key zip hmem => ?_⟩
      rw [hlog] at hmem
      cases hmem
    · exact hinv.step (moves_of_step hstep)
  exact hnone.2 c key zip hverified

end Cleanup
end EmailOps
