import EmailOps.Cleanup.Runs
import EmailOps.Cleanup.Undo

/-!
# Whose account a batch belongs to

The messages of a plan are those of one user's account: `stageCleanupRequest` and
`executeCleanup` read them with that user's token. The batch is then a row of the
workspace. `approveCleanupBatch` looks it up by its id and its workspace, `undoBatch` and
`getArchiveDownloadUrl` by the provider too, and each of them takes the token of whoever
calls. The row keeps the user (`requestedByUcUid`), and nothing compares him with the
caller.

* `bindingSystem` is the protocol with its archives, and the users: the account each
  batch was read from, the accounts the engine is given, and the download links.
* `Continues` and `RunsTied` follow the token of a run to the calls of the engine.
* `batches_stay_with_their_account`: as long as a batch is approved, undone and downloaded
  by the user it was read for, its calls and its links are his.
* `archive_reaches_a_co_member` is a run of two users.
-/

namespace EmailOps
namespace Cleanup

open Framework

/-! ### Users -/

/-- The account that a user has linked at a provider. -/
structure LinkedAccount where
  ucUid : String
  provider : Provider
  deriving DecidableEq

/-- The methods of the engine that call the provider. -/
inductive ProviderMethod where
  | archiveCreate | batchTrash | batchArchive | batchDelete | archiveRestore
  deriving DecidableEq

/-- A call of a provider, for a batch. -/
structure ProviderCall where
  method : ProviderMethod
  batchId : String
  account : LinkedAccount
  deriving DecidableEq

/-- The state of the protocol, its archives and its users. -/
structure BindingState where
  undo : UndoState
  /-- The account that the messages of each batch were read from. -/
  reader : String → Option LinkedAccount
  /-- The batch of each run, and the account whose token it has. -/
  tokens : ℕ → String × LinkedAccount
  /-- The account whose token each attempt to undo a batch has. -/
  undoers : ℕ → LinkedAccount
  calls : List ProviderCall
  /-- The batches that users were given download links for. -/
  links : List (String × String)

inductive BindingLabel where
  /-- `stageCleanupRequest`. -/
  | stage (ucUid : String) (batch : CleanupBatch)
  | execute (ucUid : String) (c : ℕ) (key : ArchiveKey) (mode : CleanupMode) (linked vault : Bool)
      (plan serverPlan : List PlanRow) (query : Text)
  | approve (ucUid : String) (c : ℕ) (workspaceId batchId : String) (linked vault : Bool)
      (iso : String)
  | undo (ucUid : String) (u : ℕ) (workspaceId : String) (provider : Provider) (batchId : String)
      (linked : Bool)
  /-- `getArchiveDownloadUrl`. -/
  | download (ucUid workspaceId : String) (provider : Provider) (batchId : String)
  /-- A step that goes on with a call. -/
  | goOn (l : UndoLabel)

/-- Is the step the beginning of a user's call? -/
def UndoLabel.begins : UndoLabel → Bool
  | .stage _ | .execute _ _ _ _ _ _ _ _ | .approve _ _ _ _ _ _ | .undo _ _ _ _ _ => true
  | _ => false

/-- The batch that an approval runs. -/
def approvable? (s : State) (workspaceId batchId : String) (linked : Bool) : Option CleanupBatch :=
  (s.batches.find? fun b => b.id = batchId && b.workspaceId = workspaceId).filter fun b =>
    b.state = .pending && linked

/-- The batch whose live archive a user asks for. -/
def liveBatch? (s : UndoState) (workspaceId : String) (provider : Provider) (batchId : String) :
    Option CleanupBatch :=
  (s.base.batches.find? fun b =>
    b.id = batchId && b.workspaceId = workspaceId && b.provider = provider).filter fun b =>
      archiveLive s.now (s.archives b.id)

/-- What a run asks of the provider when it begins. -/
def firstCalls (job : Job) (account : LinkedAccount) : List ProviderCall :=
  match actionOf job.entry job.mode with
  | .trash => [⟨.batchTrash, job.key.batchId, account⟩]
  | .organize => [⟨.batchArchive, job.key.batchId, account⟩]
  | .archive | .notImplemented => []

namespace BindingState

variable (lib : Library) (s : BindingState)

/-- The messages of a batch were read from an account. -/
def read (batchId : String) (account : LinkedAccount) : BindingState :=
  { s with reader := Function.update s.reader batchId (some account) }

/-- A run begins, with a user's token. -/
def begin (c : ℕ) (job : Job) (ucUid : String) : BindingState :=
  { s with
    tokens := Function.update s.tokens c (job.key.batchId, ⟨ucUid, job.key.provider⟩)
    calls := s.calls ++ firstCalls job ⟨ucUid, job.key.provider⟩ }

/-- The calls of the provider that a step of the engine makes. -/
def callsOf : UndoLabel → List ProviderCall
  | .exportMessages c _ _ => [⟨.archiveCreate, (s.tokens c).1, (s.tokens c).2⟩]
  | .purge c _ _ => [⟨.batchDelete, (s.tokens c).1, (s.tokens c).2⟩]
  | .importNext u _ =>
    match s.undo.restores u with
    | .looping batchId zip (entry :: _) _ =>
      -- What cannot be read from the archive is not imported.
      match importOf lib zip entry with
      | .ok _ => [⟨.archiveRestore, batchId, s.undoers u⟩]
      | .error _ => []
    | _ => []
  | _ => []

/-- Was the batch read for the user? -/
def readFor (ucUid : String) (batch : CleanupBatch) : Bool :=
  (s.reader batch.id).any (·.ucUid = ucUid)

end BindingState

/-- One atomic step. -/
def bindingStep (lib : Library) (bucket : String) (s : BindingState) :
    BindingLabel → Option BindingState
  | .stage ucUid batch =>
    (undoStep lib bucket s.undo (.stage batch)).map fun undo =>
      { s with undo := undo }.read batch.id ⟨ucUid, batch.provider⟩
  | .execute ucUid c key mode linked vault plan serverPlan query =>
    (undoStep lib bucket s.undo (.execute c key mode linked vault plan serverPlan query)).map
      fun undo =>
        if linked then
          ({ s with undo := undo }.read key.batchId ⟨ucUid, key.provider⟩).begin c
            (executeJob key mode plan serverPlan query) ucUid
        else { s with undo := undo }
  | .approve ucUid c workspaceId batchId linked vault iso =>
    (undoStep lib bucket s.undo (.approve c workspaceId batchId linked vault iso)).map fun undo =>
      match approvable? s.undo.base workspaceId batchId linked with
      | some batch => { s with undo := undo }.begin c (approveJob batch iso) ucUid
      | none => { s with undo := undo }
  | .undo ucUid u workspaceId provider batchId linked =>
    (undoStep lib bucket s.undo (.undo u workspaceId provider batchId linked)).map fun undo =>
      { s with undo := undo, undoers := Function.update s.undoers u ⟨ucUid, provider⟩ }
  | .download ucUid workspaceId provider batchId =>
    match liveBatch? s.undo workspaceId provider batchId with
    | some batch => some { s with links := s.links ++ [(batch.id, ucUid)] }
    | none => some s
  | .goOn l =>
    if l.begins then none
    else
      (undoStep lib bucket s.undo l).map fun undo =>
        { s with undo := undo, calls := s.calls ++ s.callsOf lib l }

/-- The cleanup protocol with its users, before any of them has called. -/
def bindingSystem (lib : Library) (bucket : String) : System BindingState BindingLabel where
  init s := (undoSystem lib bucket).init s.undo ∧ (∀ id, s.reader id = none) ∧ s.calls = [] ∧
    s.links = []
  step := bindingStep lib bucket

/-- The condition: an approval, an undo or a download that goes ahead is of a batch that
was read for the user who asks. -/
def BindingState.Careful (s : BindingState) : BindingLabel → Prop
  | .approve ucUid _ workspaceId batchId linked _ _ =>
    (approvable? s.undo.base workspaceId batchId linked).all (s.readFor ucUid)
  | .undo ucUid _ workspaceId provider batchId linked =>
    linked = true → (liveBatch? s.undo workspaceId provider batchId).all (s.readFor ucUid)
  | .download ucUid workspaceId provider batchId =>
    (liveBatch? s.undo workspaceId provider batchId).all (s.readFor ucUid)
  | _ => True

/-! ### What the protocol does to a run -/

section Protocol

variable {lib : Library} {bucket : String} {s s' : State} {l : Label}

/-- The run that a step begins. -/
def Label.begins? : Label → Option ℕ
  | .execute c _ _ _ _ _ _ | .approve c _ _ _ _ => some c
  | _ => none

/-- Has the run a job, or the engine something to do for it? -/
def Engaged (s : State) (c : ℕ) : Prop :=
  (s.runs c).job? ≠ none ∨ s.exports c ≠ .none ∨ s.purges c ≠ []

/-- What goes on about a run was there before. -/
structure Continues (s s' : State) (c : ℕ) : Prop where
  job : ∀ job, (s'.runs c).job? = some job → (s.runs c).job? = some job
  engaged : Engaged s' c → Engaged s c
  idle : s'.runs c = .idle → s.runs c = .idle

/-- An immediate cleanup begins under a fresh id, when the account is linked. -/
theorem execute_cases {c : ℕ} {key : ArchiveKey} {mode : CleanupMode} {linked : Bool}
    {plan serverPlan : List PlanRow} {query : Text}
    (h : Cleanup.step lib bucket s (.execute c key mode linked plan serverPlan query) = some s') :
    s.runs c = .idle ∧
      (linked = false ∧ s' = s.setRun c .ended ∨
        linked = true ∧ s.fresh key.batchId = true ∧
          s' = begin s c (executeJob key mode plan serverPlan query)) := by
  simp only [Cleanup.step] at h
  split at h
  · next hidle =>
    -- Without a linked account the run ends where it begins.
    refine ⟨hidle, ?_⟩
    cases linked with
    | false =>
      obtain rfl := Option.some.inj h
      exact .inl ⟨rfl, rfl⟩
    | true =>
      rw [if_neg (by decide)] at h
      split at h
      · next hfresh =>
        obtain rfl := Option.some.inj h
        exact .inr ⟨rfl, hfresh, rfl⟩
      · cases h
  · cases h

/-- An approval runs the batch that is approvable. -/
theorem approve_cases {c : ℕ} {workspaceId batchId : String} {linked : Bool} {iso : String}
    (h : Cleanup.step lib bucket s (.approve c workspaceId batchId linked iso) = some s') :
    s.runs c = .idle ∧
      (approvable? s workspaceId batchId linked = none ∧ s' = s.setRun c .ended ∨
        ∃ batch, approvable? s workspaceId batchId linked = some batch ∧ batch ∈ s.batches ∧
          s' = begin s c (approveJob batch iso)) := by
  simp only [Cleanup.step] at h
  unfold approvable?
  split at h
  · next hidle =>
    refine ⟨hidle, ?_⟩
    split at h
    · next hnone =>
      obtain rfl := Option.some.inj h
      rw [hnone]
      exact .inl ⟨rfl, rfl⟩
    · next batch hfind =>
      rw [hfind]
      split at h
      · next hstate =>
        -- A batch that is settled is not approved again.
        obtain rfl := Option.some.inj h
        exact .inl ⟨by simp [hstate], rfl⟩
      · next hpending =>
        split at h
        · next hlinked =>
          obtain rfl := Option.some.inj h
          exact .inl ⟨by simp_all, rfl⟩
        · next hlinked =>
          obtain rfl := Option.some.inj h
          exact .inr ⟨batch, by simp_all, List.mem_of_find?_eq_some hfind, rfl⟩
  · cases h

theorem throwing_exports (s : State) (c : ℕ) (job : Job) :
    (throwing s c job).exports = s.exports := by
  unfold throwing
  cases job.entry with
  | executeCleanup => rfl
  | approveCleanupBatch => rfl

theorem recording_frame (s : State) (c : ℕ) (job : Job) (backup : Option BackupRef) (count : ℕ) :
    (recording s c job backup count).exports = s.exports ∧
      (recording s c job backup count).purges = s.purges := by
  unfold recording
  cases job.entry with
  | executeCleanup =>
    dsimp only
    split
    · exact ⟨rfl, rfl⟩
    · exact ⟨rfl, rfl⟩
  | approveCleanupBatch => exact ⟨rfl, rfl⟩

theorem Continues.of_eq {c : ℕ} (hruns : s'.runs c = s.runs c)
    (hexports : s'.exports c = s.exports c) (hpurges : s'.purges c = s.purges c) :
    Continues s s' c := by
  refine ⟨fun job hjob => ?_, fun hengaged => ?_, fun hidle => ?_⟩
  · rwa [hruns] at hjob
  · unfold Engaged at hengaged ⊢
    rwa [hruns, hexports, hpurges] at hengaged
  · rwa [hruns] at hidle

/-- A run goes on with its job, or ends. -/
theorem Continues.of_run {c : ℕ} {run : Run} (hruns : s'.runs = Function.update s.runs c run)
    (hexports : s'.exports = s.exports) (hpurges : s'.purges = s.purges ∨ (s.runs c).job? ≠ none)
    (hothers : ∀ d, d ≠ c → s'.purges d = s.purges d)
    (hjob : ∀ job, run.job? = some job → (s.runs c).job? = some job) (hrun : run ≠ .idle) (d : ℕ) :
    Continues s s' d := by
  by_cases hd : d = c
  · subst hd
    have hself : s'.runs d = run := by rw [hruns, Function.update_self]
    -- The run has the job it had, if it has one.
    refine ⟨fun job hj => hjob job (hself ▸ hj), fun hengaged => ?_, fun hidle => ?_⟩
    · obtain hj | hexport | hpurge := hengaged
      · obtain ⟨job, hj⟩ := Option.ne_none_iff_exists'.mp hj
        exact .inl (by rw [hjob job (hself ▸ hj)]; exact Option.some_ne_none job)
      · exact .inr (.inl (hexports ▸ hexport))
      · obtain hsame | hold := hpurges
        · exact .inr (.inr (hsame ▸ hpurge))
        · exact .inl hold
    · exact absurd (hself ▸ hidle) hrun
  · exact .of_eq (by rw [hruns, Function.update_of_ne hd]) (by rw [hexports]) (hothers d hd)

theorem Continues.setRun (s : State) (c : ℕ) {run : Run} (hrun : run ≠ .idle)
    (hjob : ∀ job, run.job? = some job → (s.runs c).job? = some job) (d : ℕ) :
    Continues s (s.setRun c run) d := by
  have hruns : (s.setRun c run).runs = Function.update s.runs c run := rfl
  exact .of_run hruns rfl (.inl rfl) (fun _ _ => rfl) hjob hrun d

theorem Continues.of_busy {c : ℕ} (hruns : s'.runs = s.runs) (hbusy : Engaged s c)
    (hexports : ∀ e, e ≠ c → s'.exports e = s.exports e)
    (hpurges : ∀ e, e ≠ c → s'.purges e = s.purges e) (d : ℕ) : Continues s s' d := by
  by_cases hd : d = c
  · subst hd
    exact ⟨fun job hj => hruns ▸ hj, fun _ => hbusy, fun hidle => hruns ▸ hidle⟩
  · exact .of_eq (by rw [hruns]) (hexports d hd) (hpurges d hd)

/-- A run that begins is another one. -/
theorem Continues.of_begin {c : ℕ} {job : Job} {d : ℕ} (hd : d ≠ c) :
    Continues s (begin s c job) d := by
  have hbegins := begins_begin s c job
  generalize begin s c job = s₁ at hbegins
  cases hbegins with
  | archiving =>
    exact .of_eq (Function.update_of_ne hd ..) (Function.update_of_ne hd ..) rfl
  | trashed | organized => exact .of_eq (Function.update_of_ne hd ..) rfl rfl
  | thrown =>
    obtain ⟨hruns, hpurges, -, -, -⟩ := throwing_frame { s with jobs := s.jobs ++ [job] } c job
    refine .of_eq ?_ (congrFun (throwing_exports _ c job) d) (congrFun hpurges d)
    rw [hruns, Function.update_of_ne hd]

theorem Engaged.of_running {c : ℕ} {job : Job} (h : s.exports c = .running job) : Engaged s c := by
  refine .inr (.inl fun heq => ?_)
  rw [h] at heq
  cases heq

/-- **What goes on about a run was there before**, unless the run begins. -/
theorem continues_of_moves (h : Moves lib bucket s l s') (d : ℕ) (hd : l.begins? ≠ some d) :
    Continues s s' d := by
  cases h with
  | stage _ | settle _ => exact .of_eq rfl rfl rfl
  | refused _ | crash => exact .setRun s _ (fun heq => by cases heq) (fun _ hj => by cases hj) d
  | @executed c => exact .of_begin fun heq => hd (congrArg some heq.symm)
  | @approved c => exact .of_begin fun heq => hd (congrArg some heq.symm)
  | exportFailed hrunning | exported hrunning _ =>
    -- The engine was at it, and the others are not concerned.
    refine .of_busy ?_ (.of_running hrunning) (fun e he => ?_) (fun _ _ => ?_) d
    · rfl
    · exact Function.update_of_ne he ..
    · rfl
  | answered hrun _ =>
    refine .setRun s _ (fun heq => by cases heq) (fun job hj => ?_) d
    rw [hrun]
    exact hj
  | @verified c job ref zip hrun _ _ =>
    have hruns : ((s.setRun c (.verified job ref)).note [.verified c job.key zip]).runs =
        Function.update s.runs c (.verified job ref) := rfl
    refine .of_run hruns rfl (.inl rfl) (fun _ _ => rfl) (fun job hj => ?_)
      (fun heq => by cases heq) d
    rw [hrun]
    exact hj
  | @delete c job ref hrun =>
    have hruns : (((s.setRun c (.applying job (some (backupRef ref)))).setPurge c
        (slices (chunkSize job.key.provider) job.requested)).note
          [.deleteCalled c job.requested]).runs =
        Function.update s.runs c (.applying job (some (backupRef ref))) := rfl
    refine .of_run hruns rfl (.inr ?_) (fun e he => Function.update_of_ne he ..)
      (fun job hj => ?_) (fun heq => by cases heq) d
    · rw [hrun]
      exact Option.some_ne_none job
    · rw [hrun]
      exact hj
  | @purge c raised chunk rest hpurge =>
    have hbusy : Engaged s c :=
      .inr (.inr (by rw [hpurge]; exact List.cons_ne_nil chunk rest))
    refine .of_busy ?_ hbusy (fun _ _ => ?_) (fun e he => ?_) d
    · -- The purge was at it.
      rfl
    · rfl
    · exact Function.update_of_ne he ..
  | @finish c count job backup _ =>
    -- The outcome is written, and the run is over.
    obtain ⟨hexports, hpurges⟩ := recording_frame s c job backup count
    exact .of_run (recording_runs s c job backup count) hexports (.inl hpurges)
      (fun e _ => congrFun hpurges e) (fun _ hj => by cases hj) (fun heq => by cases heq) d
  | @thrown c l job _ _ =>
    obtain ⟨hruns, hpurges, -, -, -⟩ := throwing_frame s c job
    exact .of_run hruns (throwing_exports s c job) (.inl hpurges) (fun e _ => congrFun hpurges e)
      (fun _ hj => by cases hj) (fun heq => by cases heq) d

theorem Grows.not_fresh (h : Grows s s') {batchId : String} (hused : s.fresh batchId = false) :
    s'.fresh batchId = false := by
  rw [Bool.eq_false_iff] at hused ⊢
  refine fun hfresh => hused ?_
  obtain ⟨hbatches, hjobs⟩ := State.fresh_iff.mp hfresh
  refine State.fresh_iff.mpr ⟨fun b hb hid => ?_, fun j hj => hjobs j (h.jobs hj)⟩
  obtain ⟨b', hb', hsame⟩ := List.mem_map.mp (h.ids (List.mem_map_of_mem hb))
  exact hbatches b' hb' (hsame.trans hid)

/-- The rows of `s'` are those of `s`, with other states or results. -/
def SameRows (s s' : State) : Prop :=
  ∀ b ∈ s'.batches, ∃ b₀ ∈ s.batches, b₀.id = b.id ∧ b₀.provider = b.provider

theorem SameRows.of_eq (h : s'.batches = s.batches) : SameRows s s' :=
  fun b hb => ⟨b, h ▸ hb, rfl, rfl⟩

theorem SameRows.of_update {batchId : String} {f : CleanupBatch → CleanupBatch} {b : CleanupBatch}
    (hb : b ∈ (s.updateBatch batchId f).batches)
    (hf : ∀ b, (f b).id = b.id ∧ (f b).provider = b.provider) :
    ∃ b₀ ∈ s.batches, b₀.id = b.id ∧ b₀.provider = b.provider := by
  obtain ⟨hold, -⟩ | ⟨b₀, hb₀, -, rfl⟩ := mem_updateBatch hb
  · exact ⟨b, hold, rfl, rfl⟩
  · exact ⟨b₀, hb₀, (hf b₀).1.symm, (hf b₀).2.symm⟩

theorem sameRows_throwing (s : State) (c : ℕ) (job : Job) : SameRows s (throwing s c job) := by
  unfold throwing
  cases job.entry with
  | executeCleanup => exact .of_eq rfl
  | approveCleanupBatch => exact fun b hb => SameRows.of_update hb fun _ => ⟨rfl, rfl⟩

theorem sameRows_begin (s : State) (c : ℕ) (job : Job) : SameRows s (begin s c job) := by
  have hbegins := begins_begin s c job
  generalize begin s c job = s₁ at hbegins
  cases hbegins with
  | archiving | trashed | organized => exact .of_eq rfl
  | thrown => exact sameRows_throwing { s with jobs := s.jobs ++ [job] } c job

/-- A row is of a batch that was there, or is the outcome of an immediate cleanup, unless
it is staged. -/
theorem rows_of_moves (h : Moves lib bucket s l s') (hl : ∀ batch, l ≠ .stage batch)
    {b : CleanupBatch} (hb : b ∈ s'.batches) :
    (∃ b₀ ∈ s.batches, b₀.id = b.id ∧ b₀.provider = b.provider) ∨
      ∃ c job, (s.runs c).job? = some job ∧ job.key.batchId = b.id ∧
        job.key.provider = b.provider := by
  cases h with
  | stage _ => exact absurd rfl (hl _)
  | settle _ => exact .inl (SameRows.of_update hb fun _ => ⟨rfl, rfl⟩)
  | executed _ _ => exact .inl (sameRows_begin s _ _ b hb)
  | approved _ _ _ _ => exact .inl (sameRows_begin s _ _ b hb)
  | @finish c count job backup hrun =>
    -- An immediate cleanup writes a row, an approval updates one.
    unfold recording at hb
    cases hentry : job.entry with
    | executeCleanup =>
      rw [hentry] at hb
      dsimp only at hb
      split at hb
      · exact .inl ⟨b, hb, rfl, rfl⟩
      · cases List.mem_append.mp hb with
        | inl hold => exact .inl ⟨b, hold, rfl, rfl⟩
        | inr hnew =>
          -- The new row is that of the run.
          rw [List.mem_singleton.mp hnew]
          exact .inr ⟨c, job, by rw [hrun]; rfl, rfl, rfl⟩
    | approveCleanupBatch =>
      rw [hentry] at hb
      exact .inl (SameRows.of_update hb fun _ => ⟨rfl, rfl⟩)
  | thrown _ _ => exact .inl (sameRows_throwing s _ _ b hb)
  | refused _ | exportFailed _ | exported _ _ | answered _ _ | verified _ _ _ | delete _ | purge _
  | crash => exact .inl ⟨b, hb, rfl, rfl⟩

end Protocol

/-! ### The token of a run -/

/-- The tokens of the runs are those of the accounts that their batches were read from. -/
structure RunsTied (s : State) (reader : String → Option LinkedAccount)
    (tokens : ℕ → String × LinkedAccount) : Prop where
  /-- A batch is read under an id that is in use from then on. -/
  known : ∀ id account, reader id = some account → s.fresh id = false
  rows : ∀ b ∈ s.batches, ∃ account, reader b.id = some account ∧ account.provider = b.provider
  jobs : ∀ c job, (s.runs c).job? = some job →
    job.key.batchId = (tokens c).1 ∧ job.key.provider = (tokens c).2.provider
  engaged : ∀ c, Engaged s c → reader (tokens c).1 = some (tokens c).2
  idle : ∀ c, s.runs c = .idle → ¬Engaged s c

section Runs

variable {lib : Library} {bucket : String} {s s' : State} {l : Label}
  {reader : String → Option LinkedAccount} {tokens : ℕ → String × LinkedAccount}

/-- The runs go on. -/
theorem RunsTied.goOn (h : RunsTied s reader tokens) (hmoves : Moves lib bucket s l s')
    (hbegins : l.begins? = none) (hstage : ∀ batch, l ≠ .stage batch) :
    RunsTied s' reader tokens := by
  have hcontinues : ∀ c, Continues s s' c := fun c =>
    continues_of_moves hmoves c (by rw [hbegins]; exact fun heq => by cases heq)
  constructor
  · exact fun id account hread => (moves_grow hmoves).not_fresh (h.known id account hread)
  · intro b hb
    obtain ⟨b₀, hb₀, hid, hprovider⟩ | ⟨c, job, hjob, hid, hprovider⟩ :=
      rows_of_moves hmoves hstage hb
    · rw [← hid, ← hprovider]
      exact h.rows b₀ hb₀
    · -- The row of an immediate cleanup is that of its run.
      obtain ⟨hbatch, hsame⟩ := h.jobs c job hjob
      have hread := h.engaged c (.inl (by rw [hjob]; exact Option.some_ne_none job))
      exact ⟨(tokens c).2, by rw [← hid, hbatch, hread], by rw [← hprovider, hsame]⟩
  · exact fun c job hjob => h.jobs c job ((hcontinues c).job job hjob)
  · exact fun c hengaged => h.engaged c ((hcontinues c).engaged hengaged)
  · exact fun c hidle hengaged =>
      h.idle c ((hcontinues c).idle hidle) ((hcontinues c).engaged hengaged)

theorem RunsTied.keep (h : RunsTied s reader tokens) {batchId : String}
    (hfresh : s.fresh batchId = true) (account : LinkedAccount) {id : String} {old : LinkedAccount}
    (hread : reader id = some old) :
    Function.update reader batchId (some account) id = some old := by
  rw [Function.update_of_ne, hread]
  rintro rfl
  rw [h.known _ _ hread] at hfresh
  cases hfresh

/-- A batch is staged, and its messages are read from an account. -/
theorem RunsTied.stage (h : RunsTied s reader tokens) (batch : CleanupBatch)
    (account : LinkedAccount) (hfresh : s.fresh batch.id = true)
    (hprovider : account.provider = batch.provider) :
    RunsTied { s with batches := s.batches ++ [batch] }
      (Function.update reader batch.id (some account)) tokens := by
  have hkeep : ∀ id old, reader id = some old →
      Function.update reader batch.id (some account) id = some old :=
    fun _ _ => h.keep hfresh account
  have hself : Function.update reader batch.id (some account) batch.id = some account :=
    Function.update_self ..
  have hgrows : Grows s { s with batches := s.batches ++ [batch] } := by
    refine ⟨List.Subset.refl _, List.Subset.refl _, ?_⟩
    rw [List.map_append]
    exact List.subset_append_left _ _
  constructor
  · intro id old hread
    -- The new batch uses its own id.
    by_cases hid : id = batch.id
    · rw [Bool.eq_false_iff]
      intro hnew
      have hne := (State.fresh_iff.mp hnew).1 batch (List.mem_append_right _ List.mem_cons_self)
      exact hne hid.symm
    · rw [Function.update_of_ne hid] at hread
      exact hgrows.not_fresh (h.known id old hread)
  · intro b hb
    cases List.mem_append.mp hb with
    | inl hold =>
      obtain ⟨old, hread, hsame⟩ := h.rows b hold
      exact ⟨old, hkeep _ _ hread, hsame⟩
    | inr hnew =>
      rw [List.mem_singleton.mp hnew]
      exact ⟨account, hself, hprovider⟩
  · exact h.jobs
  · exact fun c hengaged => hkeep _ _ (h.engaged c hengaged)
  · exact h.idle

/-- A run begins, with the token of the account that its batch was read from. -/
theorem RunsTied.begun (h : RunsTied s reader tokens) {reader' : String → Option LinkedAccount}
    {c : ℕ} (job : Job) {account : LinkedAccount} (hidle : s.runs c = .idle)
    (hkeep : ∀ id old, reader id = some old → reader' id = some old)
    (hknown : ∀ id old, reader' id = some old → s.fresh id = false ∨ id = job.key.batchId)
    (hread : reader' job.key.batchId = some account)
    (hprovider : account.provider = job.key.provider) :
    RunsTied (begin s c job) reader' (Function.update tokens c (job.key.batchId, account)) := by
  have hself : Function.update tokens c (job.key.batchId, account) c = (job.key.batchId, account) :=
    Function.update_self ..
  -- The run has a job from now on, which is this one, or it ends at once.
  have hbegun : (∀ j, ((begin s c job).runs c).job? = some j → j = job) ∧
      (begin s c job).runs c ≠ .idle := by
    have hbegins := begins_begin s c job
    generalize begin s c job = s₁ at hbegins
    cases hbegins with
    | archiving | trashed | organized =>
      refine ⟨fun j hj => ?_, fun heq => ?_⟩
      · change (Function.update s.runs c _ c).job? = some j at hj
        rw [Function.update_self] at hj
        exact (Option.some.inj hj).symm
      · change Function.update s.runs c _ c = _ at heq
        rw [Function.update_self] at heq
        cases heq
    | thrown =>
      rw [(throwing_frame _ c job).1, Function.update_self]
      refine ⟨fun j hj => ?_, fun heq => ?_⟩
      · cases hj
      · cases heq
  have hothers : ∀ d, d ≠ c → Continues s (begin s c job) d := fun d hd => .of_begin hd
  constructor
  · intro id old hold
    obtain hused | rfl := hknown id old hold
    · exact (begin_grows s c job).not_fresh hused
    · -- The job that begins uses it.
      rw [Bool.eq_false_iff]
      intro hfresh
      refine (State.fresh_iff.mp hfresh).2 job ?_ rfl
      have hbegins := begins_begin s c job
      generalize begin s c job = s₁ at hbegins
      cases hbegins with
      | archiving | trashed | organized => exact List.mem_append_right _ List.mem_cons_self
      | thrown =>
        rw [(throwing_frame _ c job).2.2.1]
        exact List.mem_append_right _ List.mem_cons_self
  · intro b hb
    obtain ⟨b₀, hb₀, hid, hsame⟩ := sameRows_begin s c job b hb
    obtain ⟨old, hold, hold'⟩ := h.rows b₀ hb₀
    exact ⟨old, by rw [← hid]; exact hkeep _ _ hold, by rw [← hsame]; exact hold'⟩
  · intro d j hj
    by_cases hd : d = c
    · subst hd
      rw [hself, hbegun.1 j hj]
      exact ⟨rfl, hprovider.symm⟩
    · rw [Function.update_of_ne hd]
      exact h.jobs d j ((hothers d hd).job j hj)
  · intro d hengaged
    by_cases hd : d = c
    · subst hd
      rw [hself]
      exact hread
    · rw [Function.update_of_ne hd]
      exact hkeep _ _ (h.engaged d ((hothers d hd).engaged hengaged))
  · intro d hd hengaged
    by_cases hdc : d = c
    · subst hdc
      exact hbegun.2 hd
    · exact h.idle d ((hothers d hdc).idle hd) ((hothers d hdc).engaged hengaged)

end Runs

/-! ### The undo of a batch -/

section Undo

variable {lib : Library} {bucket : String} {s s' : UndoState} {l : UndoLabel}

/-- A restore that is begun is that of the live batch which was asked for. -/
theorem beginUndo_live (s : UndoState) (u : ℕ) (workspaceId : String) (provider : Provider)
    (batchId : String) (linked : Bool) :
    beginUndo s u workspaceId provider batchId linked = s.setUndo u .ended ∨
      linked = true ∧ ∃ batch key, liveBatch? s workspaceId provider batchId = some batch ∧
        batch ∈ s.base.batches ∧ batch.provider = provider ∧
        beginUndo s u workspaceId provider batchId linked =
          (s.setUndo u (.restoring batch.id)).setRestore u (.called batch.id key) := by
  unfold beginUndo liveBatch?
  split
  · exact .inl rfl
  · next batch hfind =>
    have hfound := List.find?_some hfind
    simp only [Bool.and_eq_true, decide_eq_true_eq] at hfound
    split
    · exact .inl rfl
    · next key hkey =>
      split
      · exact .inl rfl
      · next hlive =>
        split
        · exact .inl rfl
        · next hlinked =>
          refine .inr ⟨by simpa using hlinked, batch, key, ?_, List.mem_of_find?_eq_some hfind,
            hfound.2, rfl⟩
          rw [hfind, Option.filter_some, if_pos (by simpa using hlive)]

/-- What a step that no user begins does to the runs, and to the restores. -/
theorem goOn_cases (h : undoStep lib bucket s l = some s') (hl : l.begins = false) :
    (s'.base = s.base ∨ ∃ k, Moves lib bucket s.base k s'.base ∧ k.begins? = none ∧
      ∀ batch, k ≠ .stage batch) ∧
    ∀ u, (s'.restores u).batch? = (s.restores u).batch? ∧
      (s'.undos u = .idle → s.undos u = .idle) := by
  -- The attempt that ends or goes on has begun.
  have hundos : ∀ {t : UndoState} {u : ℕ} {call : UndoCall}, t.restores = s.restores →
      t.undos = Function.update s.undos u call → call ≠ .idle →
      ∀ v, (t.restores v).batch? = (s.restores v).batch? ∧
        (t.undos v = .idle → s.undos v = .idle) := by
    intro t u call hrestores hcall hne v
    refine ⟨by rw [hrestores], fun hidle => ?_⟩
    rw [hcall] at hidle
    rcases update_eq_cases hidle with ⟨rfl, hmoved⟩ | ⟨-, hidle⟩
    · exact absurd hmoved hne
    · exact hidle
  -- The restore that goes on is of the same batch.
  have hrestores : ∀ {t : UndoState} {u : ℕ} {call : RestoreCall},
      t.restores = Function.update s.restores u call → t.undos = s.undos →
      call.batch? = (s.restores u).batch? →
      ∀ v, (t.restores v).batch? = (s.restores v).batch? ∧
        (t.undos v = .idle → s.undos v = .idle) := by
    intro t u call hcall hsame hbatch v
    refine ⟨?_, fun hidle => hsame ▸ hidle⟩
    rw [hcall]
    by_cases hv : v = u
    · subst hv
      rw [Function.update_self, hbatch]
    · rw [Function.update_of_ne hv]
  cases undoMoves_of_step h with
  | tick _ => exact ⟨.inl rfl, fun _ => ⟨rfl, id⟩⟩
  | @plain _ k base hplain hbase =>
    refine ⟨.inr ⟨k, moves_of_step hbase, ?_, ?_⟩, fun _ => ⟨rfl, id⟩⟩
    · cases l <;> cases hplain <;> rfl
    · rintro batch rfl
      cases l <;> cases hplain
      cases hl
  | execute _ => cases hl
  | approve _ => cases hl
  | purge _ _ hbase =>
    exact ⟨.inr ⟨_, moves_of_step hbase, rfl, fun _ heq => by cases heq⟩, fun _ => ⟨rfl, id⟩⟩
  | finish _ hbase =>
    have hmoves := moves_of_step hbase
    split
    · exact ⟨.inr ⟨_, hmoves, rfl, fun _ heq => by cases heq⟩, fun _ => ⟨rfl, id⟩⟩
    · exact ⟨.inr ⟨_, hmoves, rfl, fun _ heq => by cases heq⟩, fun _ => ⟨rfl, id⟩⟩
  | ended _ => exact ⟨.inl rfl, hundos rfl rfl fun heq => by cases heq⟩
  | undo _ _ _ _ => cases hl
  | download hcall _ _ => exact ⟨.inl rfl, hrestores rfl rfl (by rw [hcall]; rfl)⟩
  | missing hcall => exact ⟨.inl rfl, hrestores rfl rfl (by rw [hcall]; rfl)⟩
  | importNext hcall _ => exact ⟨.inl rfl, hrestores rfl rfl (by rw [hcall]; rfl)⟩
  | through hcall => exact ⟨.inl rfl, hrestores rfl rfl (by rw [hcall]; rfl)⟩
  | restored _ _ _ => exact ⟨.inl rfl, hundos rfl rfl fun heq => by cases heq⟩
  | mark _ hbase =>
    exact ⟨.inr ⟨_, moves_of_step hbase, rfl, fun _ heq => by cases heq⟩,
      hundos rfl rfl fun heq => by cases heq⟩

end Undo

/-! ### The invariant -/

/-- **The invariant.** -/
structure BindingState.Tied (s : BindingState) : Prop where
  runs : RunsTied s.undo.base s.reader s.tokens
  restores : ∀ u batchId, (s.undo.restores u).batch? = some batchId →
    s.reader batchId = some (s.undoers u)
  idle : ∀ u, s.undo.undos u = .idle → (s.undo.restores u).batch? = none
  calls : ∀ call ∈ s.calls, s.reader call.batchId = some call.account
  links : ∀ link ∈ s.links, ∃ account, s.reader link.1 = some account ∧ account.ucUid = link.2

namespace BindingState

variable {lib : Library} {bucket : String} {s s' : BindingState} {l : BindingLabel}

theorem Tied.own (h : s.Tied) {batch : CleanupBatch} {ucUid : String}
    (hbatch : batch ∈ s.undo.base.batches) (hown : s.readFor ucUid batch = true) :
    s.reader batch.id = some ⟨ucUid, batch.provider⟩ := by
  obtain ⟨⟨user, provider⟩, hread, rfl⟩ := h.runs.rows batch hbatch
  unfold readFor at hown
  rw [hread, Option.any_some, decide_eq_true_eq] at hown
  rw [hread, ← hown]

/-- The calls of a run that begins are made with its token. -/
theorem mem_firstCalls {job : Job} {account : LinkedAccount} {call : ProviderCall}
    (h : call ∈ firstCalls job account) : call.batchId = job.key.batchId ∧ call.account = account := by
  unfold firstCalls at h
  split at h
  · rw [List.mem_singleton.mp h]
    exact ⟨rfl, rfl⟩
  · rw [List.mem_singleton.mp h]
    exact ⟨rfl, rfl⟩
  · cases h
  · cases h

/-- A run begins. -/
theorem Tied.begin (h : s.Tied) {undo : UndoState} {reader : String → Option LinkedAccount} {c : ℕ}
    {job : Job} {ucUid : String} (hruns : RunsTied undo.base reader
      (Function.update s.tokens c (job.key.batchId, ⟨ucUid, job.key.provider⟩)))
    (hkeep : ∀ id old, s.reader id = some old → reader id = some old)
    (hread : reader job.key.batchId = some ⟨ucUid, job.key.provider⟩)
    (hundos : undo.undos = s.undo.undos) (hrestores : undo.restores = s.undo.restores) :
    (BindingState.begin { s with undo := undo, reader := reader } c job ucUid).Tied where
  runs := hruns
  restores u batchId hbatch := by
    change (undo.restores u).batch? = some batchId at hbatch
    rw [hrestores] at hbatch
    exact hkeep _ _ (h.restores u batchId hbatch)
  idle u hidle := by
    change undo.undos u = .idle at hidle
    show (undo.restores u).batch? = none
    rw [hundos] at hidle
    rw [hrestores]
    exact h.idle u hidle
  calls call hcall := by
    cases List.mem_append.mp hcall with
    | inl hold => exact hkeep _ _ (h.calls call hold)
    | inr hnew =>
      obtain ⟨hid, haccount⟩ := mem_firstCalls hnew
      rw [hid, haccount]
      exact hread
  links link hlink := by
    obtain ⟨account, hold, huser⟩ := h.links link hlink
    exact ⟨account, hkeep _ _ hold, huser⟩

/-- The calls of a step of the engine are made with the token of the run, or of the
attempt. -/
theorem Tied.callsOf (h : s.Tied) {undo : UndoState} {l : UndoLabel}
    (hstep : undoStep lib bucket s.undo l = some undo) {call : ProviderCall}
    (hcall : call ∈ s.callsOf lib l) : s.reader call.batchId = some call.account := by
  cases l with
  | exportMessages c createdAt answers =>
    rw [List.mem_singleton.mp hcall]
    -- The engine exports for a run that has asked for it.
    obtain ⟨base, hbase, -⟩ := lift_eq_some hstep
    refine h.runs.engaged c (.inr (.inl fun hnone => ?_))
    simp [Cleanup.step, hnone] at hbase
  | purge c raised deleted =>
    rw [List.mem_singleton.mp hcall]
    refine h.runs.engaged c (.inr (.inr fun hnone => ?_))
    simp [undoStep, hnone] at hstep
  | importNext u answer =>
    unfold BindingState.callsOf at hcall
    dsimp only at hcall
    split at hcall
    · next batchId zip entry entries result hrestore =>
      split at hcall
      · rw [List.mem_singleton.mp hcall]
        exact h.restores u batchId (by rw [hrestore]; rfl)
      · cases hcall
    · cases hcall
  | _ => cases hcall

/-- A user stages a batch. -/
theorem Tied.stage (h : s.Tied) {ucUid : String} {batch : CleanupBatch}
    (hstep : bindingStep lib bucket s (.stage ucUid batch) = some s') : s'.Tied := by
  obtain ⟨undo, hundo, rfl⟩ := Option.map_eq_some_iff.mp hstep
  obtain ⟨base, hbase, rfl⟩ := lift_eq_some hundo
  simp only [Cleanup.step] at hbase
  split at hbase
  · next hfresh =>
    obtain rfl := Option.some.inj hbase
    have hruns := h.runs.stage { batch with state := .pending } ⟨ucUid, batch.provider⟩ hfresh rfl
    have hkeep : ∀ id old, s.reader id = some old →
        Function.update s.reader batch.id (some ⟨ucUid, batch.provider⟩) id = some old :=
      fun _ _ => h.runs.keep hfresh _
    refine ⟨hruns, fun u id hid => hkeep _ _ (h.restores u id hid), h.idle,
      fun call hcall => hkeep _ _ (h.calls call hcall), fun link hlink => ?_⟩
    obtain ⟨account, hold, huser⟩ := h.links link hlink
    exact ⟨account, hkeep _ _ hold, huser⟩
  · cases hbase

/-- The protocol goes on below, and the engine makes its calls. -/
theorem Tied.goOn (h : s.Tied) {undo : UndoState} {calls : List ProviderCall}
    (hruns : RunsTied undo.base s.reader s.tokens)
    (hundos : ∀ u, (undo.restores u).batch? = (s.undo.restores u).batch? ∧
      (undo.undos u = .idle → s.undo.undos u = .idle))
    (hcalls : ∀ call ∈ calls, s.reader call.batchId = some call.account) :
    ({ s with undo := undo, calls := s.calls ++ calls } : BindingState).Tied where
  runs := hruns
  restores u id hid := h.restores u id ((hundos u).1 ▸ hid)
  idle u hidle := by
    show (undo.restores u).batch? = none
    rw [(hundos u).1]
    exact h.idle u ((hundos u).2 hidle)
  calls call hcall := (List.mem_append.mp hcall).elim (h.calls call) (hcalls call)
  links := h.links

/-- A user cleans up at once. -/
theorem Tied.execute (h : s.Tied) {ucUid : String} {c : ℕ} {key : ArchiveKey} {mode : CleanupMode}
    {linked vault : Bool} {plan serverPlan : List PlanRow} {query : Text}
    (hstep : bindingStep lib bucket s
      (.execute ucUid c key mode linked vault plan serverPlan query) = some s') : s'.Tied := by
  obtain ⟨undo, hundo, rfl⟩ := Option.map_eq_some_iff.mp hstep
  obtain ⟨undo', hundo', rfl⟩ := Option.map_eq_some_iff.mp hundo
  obtain ⟨base, hbase, rfl⟩ := lift_eq_some hundo'
  obtain ⟨hidle, ⟨rfl, rfl⟩ | ⟨rfl, hfresh, rfl⟩⟩ := execute_cases hbase
  · -- The account is not linked, and nothing is read.
    rw [if_neg (by decide)]
    have hmoves : Moves lib bucket s.undo.base (.crash c) (s.undo.base.setRun c .ended) := .crash
    have hruns := h.runs.goOn hmoves rfl fun _ heq => by cases heq
    exact ⟨hruns, h.restores, h.idle, h.calls, h.links⟩
  · rw [if_pos rfl]
    -- The batch is read from the account whose token the run has.
    have hself : Function.update s.reader key.batchId (some ⟨ucUid, key.provider⟩) key.batchId =
        some ⟨ucUid, key.provider⟩ := Function.update_self ..
    have hkeep : ∀ id old, s.reader id = some old →
        Function.update s.reader key.batchId (some ⟨ucUid, key.provider⟩) id = some old :=
      fun _ _ => h.runs.keep hfresh _
    have hruns := h.runs.begun (executeJob key mode plan serverPlan query) hidle hkeep
      (fun id old hold => ?_) hself rfl
    · exact h.begin hruns hkeep hself rfl rfl
    · by_cases hid : id = key.batchId
      · exact .inr hid
      · rw [Function.update_of_ne hid] at hold
        exact .inl (h.runs.known id old hold)

/-- A user approves a batch that was read for him. -/
theorem Tied.approve (h : s.Tied) {ucUid : String} {c : ℕ} {workspaceId batchId : String}
    {linked vault : Bool} {iso : String}
    (hcareful : s.Careful (.approve ucUid c workspaceId batchId linked vault iso))
    (hstep : bindingStep lib bucket s
      (.approve ucUid c workspaceId batchId linked vault iso) = some s') : s'.Tied := by
  obtain ⟨undo, hundo, rfl⟩ := Option.map_eq_some_iff.mp hstep
  obtain ⟨undo', hundo', rfl⟩ := Option.map_eq_some_iff.mp hundo
  obtain ⟨base, hbase, rfl⟩ := lift_eq_some hundo'
  obtain ⟨hidle, ⟨hnone, rfl⟩ | ⟨batch, hfound, hbatch, rfl⟩⟩ := approve_cases hbase
  · rw [hnone]
    have hmoves : Moves lib bucket s.undo.base (.crash c) (s.undo.base.setRun c .ended) := .crash
    have hruns := h.runs.goOn hmoves rfl fun _ heq => by cases heq
    exact ⟨hruns, h.restores, h.idle, h.calls, h.links⟩
  · rw [hfound]
    have hown : s.readFor ucUid batch = true := by
      change (approvable? s.undo.base workspaceId batchId linked).all (s.readFor ucUid) = true
        at hcareful
      rwa [hfound, Option.all_some] at hcareful
    have hread : s.reader batch.id = some ⟨ucUid, batch.provider⟩ := h.own hbatch hown
    have hruns := h.runs.begun (approveJob batch iso) hidle (fun _ _ hold => hold)
      (fun id old hold => .inl (h.runs.known id old hold)) hread rfl
    exact h.begin hruns (fun _ _ hold => hold) hread rfl rfl

/-- A user undoes a batch that was read for him. -/
theorem Tied.undo (h : s.Tied) {ucUid : String} {u : ℕ} {workspaceId : String}
    {provider : Provider} {batchId : String} {linked : Bool}
    (hcareful : s.Careful (.undo ucUid u workspaceId provider batchId linked))
    (hstep : bindingStep lib bucket s
      (.undo ucUid u workspaceId provider batchId linked) = some s') : s'.Tied := by
  obtain ⟨undo, hundo, rfl⟩ := Option.map_eq_some_iff.mp hstep
  simp only [undoStep] at hundo
  split at hundo
  · next hidle =>
    obtain rfl := Option.some.inj hundo
    have hbefore : (s.undo.restores u).batch? = none := h.idle u hidle
    obtain hended | ⟨hlinked, batch, key, hlive, hbatch, rfl, hbegun⟩ :=
      beginUndo_live s.undo u workspaceId provider batchId linked
    · -- The attempt ends, and has called nobody.
      rw [hended]
      refine ⟨h.runs, fun v id hid => ?_, fun v hv => ?_, h.calls, h.links⟩
      · change s.reader id = some (Function.update s.undoers u _ v)
        by_cases hvu : v = u
        · subst hvu
          change (s.undo.restores v).batch? = some id at hid
          rw [hbefore] at hid
          cases hid
        · rw [Function.update_of_ne hvu]
          exact h.restores v id hid
      · by_cases hvu : v = u
        · subst hvu
          exact hbefore
        · change Function.update s.undo.undos u .ended v = .idle at hv
          rw [Function.update_of_ne hvu] at hv
          exact h.idle v hv
    · have hown : s.readFor ucUid batch = true := by
        have hall := hcareful hlinked
        rwa [hlive, Option.all_some] at hall
      have hread := h.own hbatch hown
      rw [hbegun]
      refine ⟨h.runs, fun v id hid => ?_, fun v hv => ?_, h.calls, h.links⟩
      · change (Function.update s.undo.restores u _ v).batch? = some id at hid
        show s.reader id = some (Function.update s.undoers u _ v)
        by_cases hvu : v = u
        · subst hvu
          rw [Function.update_self] at hid ⊢
          rw [← Option.some.inj hid]
          exact hread
        · rw [Function.update_of_ne hvu] at hid ⊢
          exact h.restores v id hid
      · by_cases hvu : v = u
        · subst hvu
          change Function.update s.undo.undos v _ v = .idle at hv
          rw [Function.update_self] at hv
          cases hv
        · change Function.update s.undo.undos u _ v = .idle at hv
          show (Function.update s.undo.restores u _ v).batch? = none
          rw [Function.update_of_ne hvu] at hv ⊢
          exact h.idle v hv
  · cases hundo

/-- **Every step that meets the condition keeps the invariant.** -/
theorem Tied.step (h : s.Tied) (hcareful : s.Careful l)
    (hstep : bindingStep lib bucket s l = some s') : s'.Tied := by
  cases l with
  | stage ucUid batch => exact h.stage hstep
  | execute ucUid c key mode linked vault plan serverPlan query => exact h.execute hstep
  | approve ucUid c workspaceId batchId linked vault iso => exact h.approve hcareful hstep
  | undo ucUid u workspaceId provider batchId linked => exact h.undo hcareful hstep
  | download ucUid workspaceId provider batchId =>
    simp only [bindingStep] at hstep
    split at hstep
    · next batch hlive =>
      obtain rfl := Option.some.inj hstep
      have hown : s.readFor ucUid batch = true := by
        change (liveBatch? s.undo workspaceId provider batchId).all (s.readFor ucUid) = true
          at hcareful
        rwa [hlive, Option.all_some] at hcareful
      have hbatch : batch ∈ s.undo.base.batches :=
        List.mem_of_find?_eq_some (Option.filter_eq_some_iff.mp hlive).1
      refine ⟨h.runs, h.restores, h.idle, h.calls, fun link hlink => ?_⟩
      cases List.mem_append.mp hlink with
      | inl hold => exact h.links link hold
      | inr hnew =>
        rw [List.mem_singleton.mp hnew]
        exact ⟨_, h.own hbatch hown, rfl⟩
    · obtain rfl := Option.some.inj hstep
      exact h
  | goOn l =>
    simp only [bindingStep] at hstep
    split at hstep
    · cases hstep
    · next hbegins =>
      obtain ⟨undo, hundo, rfl⟩ := Option.map_eq_some_iff.mp hstep
      obtain ⟨hbase, hundos⟩ := goOn_cases hundo (Bool.eq_false_iff.mpr hbegins)
      refine h.goOn ?_ hundos fun call hcall => h.callsOf hundo hcall
      obtain hsame | ⟨k, hmoves, hk, hstage⟩ := hbase
      · rw [hsame]
        exact h.runs
      · exact h.runs.goOn hmoves hk hstage

theorem Tied.initial (h : (bindingSystem lib bucket).init s) : s.Tied := by
  obtain ⟨⟨hbase, -, -, hundos, hrestores, -⟩, hreader, hcalls, hlinks⟩ := h
  obtain ⟨hbatches, -, -, hruns, hexports, hpurges, -⟩ := hbase
  -- Nothing is under way.
  have hengaged : ∀ c, ¬Engaged s.undo.base c := by
    intro c hc
    rw [Engaged, hruns, hexports, hpurges] at hc
    obtain hjob | hexport | hpurge := hc
    · exact hjob rfl
    · exact hexport rfl
    · exact hpurge rfl
  constructor
  · constructor
    · intro id account hread
      rw [hreader] at hread
      cases hread
    · intro b hb
      rw [hbatches] at hb
      cases hb
    · intro c job hjob
      rw [hruns] at hjob
      cases hjob
    · exact fun c hc => absurd hc (hengaged c)
    · exact fun c _ => hengaged c
  · intro u id hid
    rw [hrestores] at hid
    cases hid
  · intro u _
    rw [hrestores]
    rfl
  · intro call hcall
    rw [hcalls] at hcall
    cases hcall
  · intro link hlink
    rw [hlinks] at hlink
    cases hlink

/-- **A batch stays with its account.** In every run in which a batch is approved, undone
and downloaded by the user it was read for only, each call of a provider for a batch is made
with the account that the batch was read from, and each download link for a batch is given
to the user of that account. -/
theorem batches_stay_with_their_account
    (h : (bindingSystem lib bucket).ReachableUnder BindingState.Careful s) :
    (∀ call ∈ s.calls, s.reader call.batchId = some call.account) ∧
      ∀ link ∈ s.links, ∃ account, s.reader link.1 = some account ∧ account.ucUid = link.2 := by
  have htied : s.Tied :=
    h.invariant (fun _ hinit => Tied.initial hinit) fun _ _ _ _ ih hc hs => ih.step hc hs
  exact ⟨htied.calls, htied.links⟩

end BindingState

section Examples

open BindingState

theorem goOn_reachable {lib : Library} {bucket : String} {s : BindingState}
    (h : (bindingSystem lib bucket).ReachableUnder Careful s) (ls : List UndoLabel)
    (hs : ((bindingSystem lib bucket).exec s (ls.map .goOn)).isSome = true) :
    (bindingSystem lib bucket).ReachableUnder Careful
      (((bindingSystem lib bucket).exec s (ls.map .goOn)).get hs) := by
  refine h.exec (fun l hl _ => ?_) (Option.some_get hs).symm
  obtain ⟨_, -, rfl⟩ := List.mem_map.mp hl
  trivial

/-- No user has called yet. -/
def noBinding : BindingState where
  undo := noUndo
  reader _ := none
  tokens _ := ("", ⟨"", .gmail⟩)
  undoers _ := ⟨"", .gmail⟩
  calls := []
  links := []

theorem noBinding_init : (bindingSystem sampleLibrary "archives").init noBinding :=
  ⟨noUndo_init, fun _ => rfl, rfl, rfl⟩

/-- A batch of a user's messages. -/
def adasBatch : CleanupBatch :=
  ⟨"b", "ws", .gmail, .delete, .pending, sampleRows, "category:promotions".toList, none, none⟩

/-- The batch is staged, approved by the user, and deleted. -/
def adasSteps : List BindingLabel :=
  [.stage "ada" adasBatch,
    .approve "ada" 0 "ws" "b" true false "2026-01-01T00-00-00-000Z"] ++
    (deletedSteps.drop 2).map .goOn

/-- A user undoes the batch, and asks for its archive. -/
def undoneBy (ucUid : String) : List BindingLabel :=
  [.undo ucUid 0 "ws" .gmail "b" true, .goOn (.download 0), .goOn (.importNext 0 ⟨true, none⟩),
    .download ucUid "ws" .gmail "b"]

/-- A second batch is staged, for the trash, and approved by another user. -/
def approvedBy (ucUid : String) : List BindingLabel :=
  [.stage "ada" ⟨"t", "ws", .gmail, .trash, .pending, sampleRows,
      "category:promotions".toList, none, none⟩,
    .approve ucUid 1 "ws" "t" true false "2026-01-02T00-00-00-000Z"]

/-- A user's own batch is undone into the user's account. -/
theorem batches_stay_with_their_account_run :
    ∃ s, (bindingSystem sampleLibrary "archives").ReachableUnder Careful s ∧
      (s.calls.map (·.method) = [.archiveCreate, .batchDelete, .archiveRestore] ∧
        s.links = [("b", "ada")]) ∧
      (∀ call ∈ s.calls, s.reader call.batchId = some call.account) ∧
      ∀ link ∈ s.links, ∃ account, s.reader link.1 = some account ∧ account.ucUid = link.2 := by
  have r0 : (bindingSystem sampleLibrary "archives").ReachableUnder Careful noBinding :=
    .init noBinding_init
  have r1 := r0.next (.stage "ada" adasBatch) trivial rfl
  have r2 := r1.next (.approve "ada" 0 "ws" "b" true false "2026-01-01T00-00-00-000Z") rfl rfl
  have r3 := goOn_reachable r2 (deletedSteps.drop 2) rfl
  have r4 := r3.next (.undo "ada" 0 "ws" .gmail "b" true) (fun _ => rfl) rfl
  have r5 := goOn_reachable r4 [.download 0, .importNext 0 ⟨true, none⟩] rfl
  have r6 := r5.next (.download "ada" "ws" .gmail "b") rfl rfl
  obtain ⟨s, hreach, hcalls, hlinks⟩ :
      ∃ s, (bindingSystem sampleLibrary "archives").ReachableUnder Careful s ∧
        s.calls.map (·.method) = [.archiveCreate, .batchDelete, .archiveRestore] ∧
        s.links = [("b", "ada")] :=
    ⟨_, r6, rfl, rfl⟩
  exact ⟨s, hreach, ⟨hcalls, hlinks⟩, batches_stay_with_their_account hreach⟩

/-- **Another user of the workspace takes a batch.** Ada's messages are restored into Bob's
account, Bob is given the link to her archive, and her plan is run with his token. -/
theorem archive_reaches_a_co_member :
    ∃ s, (bindingSystem sampleLibrary "archives").Reachable s ∧
      s.reader "b" = some ⟨"ada", .gmail⟩ ∧ s.reader "t" = some ⟨"ada", .gmail⟩ ∧
      ⟨.archiveRestore, "b", ⟨"bob", .gmail⟩⟩ ∈ s.calls ∧ ("b", "bob") ∈ s.links ∧
      ⟨.batchTrash, "t", ⟨"bob", .gmail⟩⟩ ∈ s.calls := by
  have hrun : ((bindingSystem sampleLibrary "archives").exec noBinding
    (adasSteps ++ undoneBy "bob" ++ approvedBy "bob")).isSome = true := rfl
  obtain ⟨s, hreach, hb, ht, hlinks, hcalls⟩ :
      ∃ s, (bindingSystem sampleLibrary "archives").Reachable s ∧
        s.reader "b" = some ⟨"ada", .gmail⟩ ∧ s.reader "t" = some ⟨"ada", .gmail⟩ ∧
        s.links = [("b", "bob")] ∧
        s.calls = [⟨.archiveCreate, "b", ⟨"ada", .gmail⟩⟩, ⟨.batchDelete, "b", ⟨"ada", .gmail⟩⟩,
          ⟨.archiveRestore, "b", ⟨"bob", .gmail⟩⟩, ⟨.batchTrash, "t", ⟨"bob", .gmail⟩⟩] :=
    ⟨_, System.exec_reachable noBinding_init (Option.some_get hrun).symm, rfl, rfl, rfl, rfl⟩
  refine ⟨s, hreach, hb, ht, ?_, ?_, ?_⟩
  · rw [hcalls]
    decide
  · rw [hlinks]
    decide
  · rw [hcalls]
    decide

end Examples

end Cleanup
end EmailOps
