import EmailOps.Email.ComposeProtocol
import EmailOps.Scheduling.Service

/-!
# The scheduler

Any number of workers sweep the due rows, each one claiming a row, composing its
message and marking the row, while callers schedule and cancel sends and other
composes run on the same database. The compose protocol is a component of the
state, so a sweep's `composeEmail` call interleaves phase by phase with all else.

* `Scheduler.step` is the executable step, and `Scheduler.Step` its cases by
  name; `Scheduler.step_sound` connects them.
* `Scheduler.toCompose` forgets everything but the composes.
* `Scheduler.Fresh` says that the composes a worker has not begun are idle.
-/

namespace EmailOps
namespace Scheduler

open Framework Compose

/-! ### The protocol -/

/-- Who composes: the `n`-th compose of a worker, or someone else. -/
inductive Caller where
  | worker (w n : ℕ)
  | other (k : ℕ)
  deriving DecidableEq

/-- Where a worker stands in `fireDueScheduledSends`. `now` is the time of the
sweep and `queue` what is left of the rows it read. -/
inductive Work where
  | resting
  | sweeping (now : ℕ) (queue : List ScheduledSend)
  | claimed (now : ℕ) (row : ScheduledSend) (queue : List ScheduledSend)
  /-- The row's compose runs, as the worker's `n`-th. -/
  | composing (now : ℕ) (row : ScheduledSend) (payload : ScheduledSendPayload) (n : ℕ)
      (queue : List ScheduledSend)
  /-- The row is about to be marked; `caught` says that this is the handler's
  mark, whose own failure is swallowed. -/
  | marking (now : ℕ) (row : ScheduledSend) (target : ScheduledSendState) (sentAt : Option ℕ)
      (caught : Bool) (queue : List ScheduledSend)

/-- A worker, and how many composes it has begun. -/
structure Worker where
  work : Work
  begun : ℕ

/-- Where a `cancelScheduledSend` call stands. -/
inductive CancelCall where
  | idle
  /-- The row was found pending and the caller may cancel it. -/
  | checked (workspaceId id : String)
  | returned (workspaceId id : String) (cancelled : Bool)

/-- The state of the scheduler. -/
structure State where
  compose : Compose.State Caller
  sends : List ScheduledSend
  workers : ℕ → Worker
  cancels : ℕ → CancelCall

/-- The steps of the scheduler. -/
inductive Label where
  | schedule (configured : Bool) (ucUid : Option String) (workspaceId mailboxId : String)
      (payload : Json) (sendAt : ℕ) (newId : String)
  /-- The read and the authorization of a cancel. -/
  | cancelRead (k : ℕ) (ucUid : Option String) (workspaceId id : String)
  /-- The conditional update of a cancel. -/
  | cancelWrite (k : ℕ)
  /-- A worker reads the due rows. -/
  | sweep (w now take : ℕ)
  /-- A worker tries to claim the next row it read. -/
  | claim (w : ℕ)
  /-- A worker parses the payload and looks the mailbox up. -/
  | prepare (w : ℕ) (configured : Bool)
  /-- A step of a compose. -/
  | compose (l : Compose.Label Caller)
  /-- A worker's compose has ended. -/
  | finish (w : ℕ) (sentAt : ℕ)
  /-- A worker marks its row. -/
  | mark (w : ℕ)
  /-- A statement of the worker throws. -/
  | throws (w : ℕ)
  /-- The process of a worker dies, and its compose with it. -/
  | crash (w : ℕ)

/-- What a worker is at. -/
def State.workOf (s : State) (w : ℕ) : Work :=
  (s.workers w).work

/-- Move a worker on. -/
def State.setWork (s : State) (w : ℕ) (work : Work) : State :=
  { s with workers := Function.update s.workers w { s.workers w with work := work } }

/-- Move a worker on to its next compose. -/
def State.beginCompose (s : State) (w : ℕ) (work : Work) : State :=
  { s with workers := Function.update s.workers w ⟨work, (s.workers w).begun + 1⟩ }

/-- Move a cancel on. -/
def State.setCancel (s : State) (k : ℕ) (call : CancelCall) : State :=
  { s with cancels := Function.update s.cancels k call }

/-- The compose request of a row. -/
def requestOf (row : ScheduledSend) (payload : ScheduledSendPayload) : Request :=
  ⟨row.workspaceId, row.createdBy, composeInput row payload⟩

@[simp] theorem requestOf_triple (row : ScheduledSend) (payload : ScheduledSendPayload) :
    (requestOf row payload).triple = row.key := rfl

/-- Is the worker at this compose? -/
def Work.isComposing (work : Work) (n : ℕ) : Bool :=
  match work with
  | .composing _ _ _ m _ => m = n
  | _ => false

/-- The active engine mailbox of a row. -/
def sendMailbox (settings : Settings) (row : ScheduledSend) : Option MailboxAccount :=
  settings.mailboxes.find? fun m =>
    m.id = row.mailboxId && m.workspaceId = row.workspaceId && m.provider = "stalwart" && m.active

/-- Does a claimed row fail before its message is composed: is its payload invalid,
its mailbox gone or the engine not configured? -/
def prepareFails (settings : Settings) (row : ScheduledSend) (configured : Bool) : Bool :=
  (normalizePayload row.payload).isNone || (sendMailbox settings row).isNone || !configured

variable [CaseMapping]

/-- The compose steps that the workers leave to the composes: a worker's compose
is begun with its row's request, and dies alone only while the worker awaits it. -/
def composeStep (env : Env) (s : State) (l : Compose.Label Caller) :
    Option (Compose.State Caller) :=
  match l with
  | .start (.worker w n) _ lookupsFail ids =>
    match s.workOf w with
    | .composing _ row payload m _ =>
      if m = n then
        Compose.step env s.compose (.start (.worker w n) (requestOf row payload) lookupsFail ids)
      else none
    | _ => none
  | .crash (.worker w n) =>
    if (s.workOf w).isComposing n then Compose.step env s.compose l else none
  | l => Compose.step env s.compose l

/-- One step. -/
def step (env : Env) (s : State) : Label → Option State
  | .schedule configured ucUid workspaceId mailboxId payload sendAt newId =>
    match scheduleSend s.compose.db.settings configured ucUid workspaceId mailboxId payload sendAt
        newId with
    | some row =>
      -- A fresh uuid: no row and no message mentions it.
      if s.sends.any (·.id = newId) || hasKey s.compose.db row.key then none
      else some { s with sends := s.sends ++ [row] }
    | none => none
  | .cancelRead k ucUid workspaceId id =>
    match s.cancels k with
    | .idle =>
      match s.sends.find? (cancelGuard workspaceId id) with
      | none => some (s.setCancel k (.returned workspaceId id false))
      | some row =>
        match resolveSovereignMailboxForCaller s.compose.db.settings workspaceId ucUid
            row.mailboxId with
        | none => some (s.setCancel k (.returned workspaceId id false))
        | some _ => some (s.setCancel k (.checked workspaceId id))
    | _ => none
  | .cancelWrite k =>
    match s.cancels k with
    | .checked workspaceId id =>
      some { s.setCancel k (.returned workspaceId id
          (s.sends.countP (cancelGuard workspaceId id) = 1)) with
        sends := cancelUpdate s.sends workspaceId id }
    | _ => none
  | .sweep w now take =>
    match s.workOf w with
    | .resting => some (s.setWork w (.sweeping now (dueRows s.sends now take)))
    | _ => none
  | .claim w =>
    match s.workOf w with
    | .sweeping _ [] => some (s.setWork w .resting)
    | .sweeping now (row :: queue) =>
      let work :=
        if s.sends.countP (claimGuard row) = 1 then .claimed now row queue
        else .sweeping now queue
      some { s.setWork w work with sends := EmailOps.claim s.sends row now }
    | _ => none
  | .prepare w configured =>
    match s.workOf w with
    | .claimed now row queue =>
      if prepareFails s.compose.db.settings row configured then
        some (s.setWork w (.marking now row .failed none false queue))
      else
        (normalizePayload row.payload).map fun payload =>
          s.beginCompose w (.composing now row payload (s.workers w).begun queue)
    | _ => none
  | .compose l => (composeStep env s l).map fun c => { s with compose := c }
  | .finish w sentAt =>
    match s.workOf w with
    | .composing now row _ n queue =>
      match s.compose.calls (.worker w n) with
      | .returned view =>
        if view.status = .failed then
          some (s.setWork w (.marking now row .failed none false queue))
        else some (s.setWork w (.marking now row .sent (some sentAt) false queue))
      | .failed _ | .crashed => some (s.setWork w (.marking now row .failed none true queue))
      | _ => none
    | _ => none
  | .mark w =>
    match s.workOf w with
    | .marking now row target sentAt _ queue =>
      some { s.setWork w (.sweeping now queue) with
        sends := markScheduledSend s.sends row.id target sentAt }
    | _ => none
  | .throws w =>
    match s.workOf w with
    | .sweeping now (row :: queue) => some (s.setWork w (.marking now row .failed none true queue))
    | .claimed now row queue => some (s.setWork w (.marking now row .failed none true queue))
    | .marking now row _ _ false queue =>
      some (s.setWork w (.marking now row .failed none true queue))
    | .marking now _ _ _ true queue => some (s.setWork w (.sweeping now queue))
    | _ => none
  | .crash w =>
    match s.workOf w with
    | .composing _ _ _ n _ =>
      some { s.setWork w .resting with compose := s.compose.setCall (.worker w n) .crashed }
    | _ => some (s.setWork w .resting)

/-- The scheduler. Initially nothing is scheduled, no worker sweeps and no call
runs; the database is any. -/
def system (env : Env) : System State Label where
  init s := (Compose.system env).init s.compose ∧ s.sends = [] ∧
    (∀ w, s.workOf w = .resting) ∧ ∀ k, s.cancels k = .idle
  step := step env

/-! ### The steps by name -/

/-- The steps of the scheduler, one constructor an outcome. -/
inductive Step (env : Env) (s : State) : Label → State → Prop
  | schedule {configured ucUid workspaceId mailboxId payload sendAt newId} (row : ScheduledSend)
      (hrow : scheduleSend s.compose.db.settings configured ucUid workspaceId mailboxId payload
        sendAt newId = some row)
      (hfresh : ∀ r ∈ s.sends, r.id ≠ row.id) (hkey : hasKey s.compose.db row.key = false) :
      Step env s (.schedule configured ucUid workspaceId mailboxId payload sendAt newId)
        { s with sends := s.sends ++ [row] }
  | cancelRefused {k ucUid workspaceId id} (hk : s.cancels k = .idle) :
      Step env s (.cancelRead k ucUid workspaceId id)
        (s.setCancel k (.returned workspaceId id false))
  | cancelChecked {k ucUid workspaceId id} (hk : s.cancels k = .idle) :
      Step env s (.cancelRead k ucUid workspaceId id) (s.setCancel k (.checked workspaceId id))
  | cancelWrite {k workspaceId id} (hk : s.cancels k = .checked workspaceId id) :
      Step env s (.cancelWrite k)
        { s.setCancel k (.returned workspaceId id
            (s.sends.countP (cancelGuard workspaceId id) = 1)) with
          sends := cancelUpdate s.sends workspaceId id }
  | sweep {w now take} (hw : s.workOf w = .resting) :
      Step env s (.sweep w now take) (s.setWork w (.sweeping now (dueRows s.sends now take)))
  | sweepEnd {w now} (hw : s.workOf w = .sweeping now []) :
      Step env s (.claim w) (s.setWork w .resting)
  | claimWon {w now row queue} (hw : s.workOf w = .sweeping now (row :: queue))
      (hcount : s.sends.countP (claimGuard row) = 1) :
      Step env s (.claim w)
        { s.setWork w (.claimed now row queue) with sends := EmailOps.claim s.sends row now }
  | claimLost {w now row queue} (hw : s.workOf w = .sweeping now (row :: queue))
      (hcount : s.sends.countP (claimGuard row) ≠ 1) :
      Step env s (.claim w)
        { s.setWork w (.sweeping now queue) with sends := EmailOps.claim s.sends row now }
  | prepareFailed {w configured now row queue} (hw : s.workOf w = .claimed now row queue)
      (hfails : prepareFails s.compose.db.settings row configured = true) :
      Step env s (.prepare w configured) (s.setWork w (.marking now row .failed none false queue))
  | prepared {w configured now row queue} (hw : s.workOf w = .claimed now row queue)
      (payload : ScheduledSendPayload) :
      Step env s (.prepare w configured)
        (s.beginCompose w (.composing now row payload (s.workers w).begun queue))
  | composeStart {w n r lookupsFail ids now row payload queue c}
      (hw : s.workOf w = .composing now row payload n queue)
      (hc : (Compose.system env).step s.compose
        (.start (.worker w n) (requestOf row payload) lookupsFail ids) = some c) :
      Step env s (.compose (.start (.worker w n) r lookupsFail ids)) { s with compose := c }
  | composeAbort {w n now row payload queue c}
      (hw : s.workOf w = .composing now row payload n queue)
      (hc : (Compose.system env).step s.compose (.crash (.worker w n)) = some c) :
      Step env s (.compose (.crash (.worker w n))) { s with compose := c }
  | compose {l c} (hstart : ∀ w n r f ids, l ≠ .start (.worker w n) r f ids)
      (hcrash : ∀ w n, l ≠ .crash (.worker w n))
      (hc : (Compose.system env).step s.compose l = some c) :
      Step env s (.compose l) { s with compose := c }
  | finishFailed {w sentAt now row payload n queue view}
      (hw : s.workOf w = .composing now row payload n queue)
      (hcall : s.compose.calls (.worker w n) = .returned view) (hview : view.status = .failed) :
      Step env s (.finish w sentAt) (s.setWork w (.marking now row .failed none false queue))
  | finishSent {w sentAt now row payload n queue view}
      (hw : s.workOf w = .composing now row payload n queue)
      (hcall : s.compose.calls (.worker w n) = .returned view) (hview : view.status ≠ .failed) :
      Step env s (.finish w sentAt)
        (s.setWork w (.marking now row .sent (some sentAt) false queue))
  | finishThrown {w sentAt now row payload n queue}
      (hw : s.workOf w = .composing now row payload n queue)
      (hcall : (∃ e, s.compose.calls (.worker w n) = .failed e) ∨
        s.compose.calls (.worker w n) = .crashed) :
      Step env s (.finish w sentAt) (s.setWork w (.marking now row .failed none true queue))
  | mark {w now row target sentAt caught queue}
      (hw : s.workOf w = .marking now row target sentAt caught queue) :
      Step env s (.mark w)
        { s.setWork w (.sweeping now queue) with
          sends := markScheduledSend s.sends row.id target sentAt }
  | throwClaim {w now row queue} (hw : s.workOf w = .sweeping now (row :: queue)) :
      Step env s (.throws w) (s.setWork w (.marking now row .failed none true queue))
  | throwHeld {w now row queue} (hw : s.workOf w = .claimed now row queue) :
      Step env s (.throws w) (s.setWork w (.marking now row .failed none true queue))
  | throwMark {w now row target sentAt queue}
      (hw : s.workOf w = .marking now row target sentAt false queue) :
      Step env s (.throws w) (s.setWork w (.marking now row .failed none true queue))
  | throwCaught {w now row target sentAt queue}
      (hw : s.workOf w = .marking now row target sentAt true queue) :
      Step env s (.throws w) (s.setWork w (.sweeping now queue))
  | crashComposing {w now row payload n queue}
      (hw : s.workOf w = .composing now row payload n queue) :
      Step env s (.crash w)
        { s.setWork w .resting with compose := s.compose.setCall (.worker w n) .crashed }
  | crash {w} (hw : ∀ now row payload n queue, s.workOf w ≠ .composing now row payload n queue) :
      Step env s (.crash w) (s.setWork w .resting)

/-- A step of a compose inside the scheduler, by name. -/
private theorem composeStep_sound {env : Env} {s : State} {l : Compose.Label Caller}
    {c : Compose.State Caller} (h : composeStep env s l = some c) :
    Step env s (.compose l) { s with compose := c } := by
  unfold composeStep at h
  split at h
  · -- The compose of a worker begins when the worker is at its row.
    split at h
    · rename_i hw
      split at h
      · rename_i hmn
        subst hmn
        exact .composeStart hw h
      · cases h
    · cases h
  · -- It is aborted only while the worker waits for it.
    rename_i w n
    split at h
    · rename_i hcomposing
      unfold Work.isComposing at hcomposing
      split at hcomposing
      · rename_i hw
        simp only [decide_eq_true_eq] at hcomposing
        subst hcomposing
        exact .composeAbort hw h
      · cases hcomposing
    · cases h
  · -- Anyone else may compose as they like.
    rename_i hstart hcrash
    exact .compose (fun w n r f ids => hstart w n r f ids) (fun w n => hcrash w n) h

/-- The executable step takes the named steps only. -/
theorem step_sound {env : Env} {s s' : State} {l : Label} (h : (system env).step s l = some s') :
    Step env s l s' := by
  change Scheduler.step env s l = some s' at h
  cases l with
  | schedule configured ucUid workspaceId mailboxId payload sendAt newId =>
    simp only [step] at h
    split at h
    · rename_i row hrow
      split at h
      · -- The id is in use, or the key is.
        cases h
      · rename_i hfresh
        cases h
        simp only [Bool.or_eq_true, not_or, Bool.not_eq_true, List.any_eq_false,
          decide_eq_true_eq] at hfresh
        refine .schedule row hrow (fun r hr => ?_) hfresh.2
        rw [(scheduleSend_some hrow).1]
        exact hfresh.1 r hr
    · cases h
  | cancelRead k ucUid workspaceId id =>
    simp only [step] at h
    split at h
    · rename_i hk
      -- No such row is pending, or its mailbox is not the caller's.
      split at h
      · cases h
        exact .cancelRefused hk
      · split at h
        · cases h
          exact .cancelRefused hk
        · cases h
          exact .cancelChecked hk
    · cases h
  | cancelWrite k =>
    simp only [step] at h
    split at h
    · rename_i hk
      cases h
      exact .cancelWrite hk
    · cases h
  | sweep w now take =>
    simp only [step] at h
    split at h
    · rename_i hw
      cases h
      exact .sweep hw
    · cases h
  | claim w =>
    simp only [step] at h
    split at h
    · rename_i hw
      cases h
      exact .sweepEnd hw
    · rename_i hw
      split at h
      · rename_i hcount
        cases h
        exact .claimWon hw hcount
      · rename_i hcount
        cases h
        exact .claimLost hw hcount
    · cases h
  | prepare w configured =>
    simp only [step] at h
    split at h
    · rename_i hw
      -- The configuration or the payload of the row is at fault.
      split at h
      · rename_i hfails
        cases h
        exact .prepareFailed hw hfails
      · obtain ⟨payload, -, rfl⟩ := Option.map_eq_some_iff.mp h
        exact .prepared hw payload
    · cases h
  | compose l =>
    obtain ⟨c, hc, rfl⟩ := Option.map_eq_some_iff.mp h
    exact composeStep_sound hc
  | finish w sentAt =>
    simp only [step] at h
    split at h
    · rename_i hw
      split at h
      · rename_i hcall
        split at h
        · rename_i hview
          cases h
          exact .finishFailed hw hcall hview
        · rename_i hview
          cases h
          exact .finishSent hw hcall hview
      · rename_i e hcall
        cases h
        exact .finishThrown hw (.inl ⟨e, hcall⟩)
      · rename_i hcall
        cases h
        exact .finishThrown hw (.inr hcall)
      · cases h
    · cases h
  | mark w =>
    simp only [step] at h
    split at h
    · rename_i hw
      cases h
      exact .mark hw
    · cases h
  | throws w =>
    simp only [step] at h
    split at h
    · rename_i hw
      cases h
      exact .throwClaim hw
    · rename_i hw
      cases h
      exact .throwHeld hw
    · rename_i hw
      cases h
      exact .throwMark hw
    · rename_i hw
      cases h
      exact .throwCaught hw
    · cases h
  | crash w =>
    simp only [step] at h
    split at h
    · rename_i hw
      cases h
      exact .crashComposing hw
    · rename_i hw
      cases h
      exact .crash hw

/-- A step of the scheduler is a step of the composes or leaves them alone; a compose
that no worker makes begins by name. -/
theorem compose_step {env : Env} {s s' : State} {l : Label}
    (hs : (system env).step s l = some s') :
    s'.compose = s.compose ∨ ∃ cl, (Compose.system env).step s.compose cl = some s'.compose ∧
      ∀ k r f ids, cl = .start (.other k) r f ids → l = .compose cl := by
  cases step_sound hs with
  | composeStart hw hc => exact .inr ⟨_, hc, fun _ _ _ _ heq => by cases heq⟩
  | composeAbort hw hc => exact .inr ⟨_, hc, fun _ _ _ _ heq => by cases heq⟩
  | compose hstart hcrash hc => exact .inr ⟨_, hc, fun _ _ _ _ _ => rfl⟩
  | crashComposing hw => exact .inr ⟨.crash _, rfl, fun _ _ _ _ heq => by cases heq⟩
  | _ => exact .inl rfl

/-- **The composes of the scheduler are a run of the compose protocol.** -/
def toCompose (env : Env) :
    Simulation (system env) (Compose.system env : System (Compose.State Caller) _) where
  map := State.compose
  init _ h := h.1
  step _ _ _ _ hs := (compose_step hs).imp_right fun ⟨cl, hc, _⟩ => ⟨cl, hc⟩

/-! ### Workers and their composes -/

section Updates

omit [CaseMapping]

variable {s : State}

@[simp] theorem workOf_setWork_self (w : ℕ) (work : Work) : (s.setWork w work).workOf w = work := by
  simp [State.workOf, State.setWork]

theorem workOf_setWork_of_ne {w v : ℕ} (hne : v ≠ w) (work : Work) :
    (s.setWork w work).workOf v = s.workOf v := by
  simp [State.workOf, State.setWork, Function.update_of_ne hne]

@[simp] theorem workOf_beginCompose_self (w : ℕ) (work : Work) :
    (s.beginCompose w work).workOf w = work := by
  simp [State.workOf, State.beginCompose]

theorem workOf_beginCompose_of_ne {w v : ℕ} (hne : v ≠ w) (work : Work) :
    (s.beginCompose w work).workOf v = s.workOf v := by
  simp [State.workOf, State.beginCompose, Function.update_of_ne hne]

end Updates

/-- The composes a worker has not begun are idle. -/
structure Fresh (s : State) : Prop where
  idle : ∀ w n, (s.workers w).begun ≤ n → s.compose.calls (.worker w n) = .idle
  begun : ∀ w now row payload n queue, s.workOf w = .composing now row payload n queue →
    n < (s.workers w).begun

omit [CaseMapping] in
/-- A worker that moves on to anything but a compose keeps its idle composes. -/
private theorem Fresh.setWork {s : State} (h : Fresh s) (w : ℕ) (work : Work)
    (hwork : ∀ now row payload n queue, work = .composing now row payload n queue →
      s.workOf w = .composing now row payload n queue) : Fresh (s.setWork w work) := by
  have hbegun : ∀ v, ((s.setWork w work).workers v).begun = (s.workers v).begun := by
    intro v
    by_cases hv : v = w
    · subst hv
      simp [State.setWork]
    · simp [State.setWork, Function.update_of_ne hv]
  refine ⟨fun v n hn => h.idle v n (by rwa [hbegun] at hn), fun v now row payload n queue hv => ?_⟩
  rw [hbegun]
  by_cases hvw : v = w
  · subst hvw
    rw [workOf_setWork_self] at hv
    exact h.begun v now row payload n queue (hwork _ _ _ _ _ hv)
  · rw [workOf_setWork_of_ne hvw] at hv
    exact h.begun v now row payload n queue hv

/-- A compose step begins or kills no other call, so idle composes stay idle. -/
private theorem Fresh.composed {env : Env} {s : State} (h : Fresh s) {l : Compose.Label Caller}
    {c : Compose.State Caller} (hs : (Compose.system env).step s.compose l = some c)
    (hl : ∀ w n, (∃ r f ids, l = .start (.worker w n) r f ids) ∨ l = .crash (.worker w n) →
      n < (s.workers w).begun) : Fresh { s with compose := c } := by
  refine ⟨fun w n hn => ?_, h.begun⟩
  have hidle := h.idle w n hn
  have hcall : c.calls (.worker w n) = s.compose.calls (.worker w n) := by
    refine calls_of_ne hs (fun habout => ?_) (fun r f ids heq => ?_) fun heq => ?_
    · rcases step_eq_some hs with ⟨e, r, f, ids, rfl, hc, -⟩ | ⟨e, r, plan, rfl, hc, -⟩ |
        ⟨e, r, plan, resolved, result, rfl, hc, -⟩ | ⟨e, r, plan, result, rfl, hc, -⟩ |
        ⟨e, rfl, -⟩ | ⟨settings, rfl, -⟩ <;> cases habout <;> rw [hidle] at hc <;> cases hc
    · exact absurd (hl w n (.inl ⟨r, f, ids, heq⟩)) (Nat.not_lt.mpr hn)
    · exact absurd (hl w n (.inr heq)) (Nat.not_lt.mpr hn)
  exact hcall.trans hidle

theorem Fresh.initial {env : Env} {s : State} (h : (system env).init s) : Fresh s := by
  obtain ⟨hcompose, -, hwork, -⟩ := h
  refine ⟨fun w n _ => hcompose.1 _, fun w now row payload n queue hw => ?_⟩
  rw [hwork] at hw
  cases hw

theorem Fresh.step {env : Env} {s s' : State} {l : Label} (h : Fresh s)
    (hs : (system env).step s l = some s') : Fresh s' := by
  cases step_sound hs with
  | schedule row hrow hfresh hkey => exact ⟨h.idle, h.begun⟩
  | cancelRefused hk => exact ⟨h.idle, h.begun⟩
  | cancelChecked hk => exact ⟨h.idle, h.begun⟩
  | cancelWrite hk => exact ⟨h.idle, h.begun⟩
  | @prepared w configured now row queue hw payload =>
    refine ⟨fun v n hn => ?_, fun v now' row' payload' n queue' hv => ?_⟩
    · -- The compose number goes up by one, and those above it stay idle.
      by_cases hvw : v = w
      · subst hvw
        simp only [State.beginCompose, Function.update_self] at hn
        exact h.idle v n (Nat.le_of_succ_le hn)
      · simp only [State.beginCompose, Function.update_of_ne hvw] at hn
        exact h.idle v n hn
    · by_cases hvw : v = w
      · subst hvw
        rw [workOf_beginCompose_self] at hv
        cases hv
        simp [State.beginCompose]
      · rw [workOf_beginCompose_of_ne hvw] at hv
        simp only [State.beginCompose, Function.update_of_ne hvw]
        exact h.begun v _ _ _ _ _ hv
  | @composeStart w n r f ids now row payload queue c hw hc =>
    -- A worker starts a compose it has begun.
    refine h.composed hc fun v m hl => ?_
    rcases hl with ⟨r', f', ids', hl⟩ | hl
    · cases hl
      exact h.begun w _ _ _ _ _ hw
    · cases hl
  | @composeAbort w n now row payload queue c hw hc =>
    refine h.composed hc fun v m hl => ?_
    rcases hl with ⟨r', f', ids', hl⟩ | hl
    · cases hl
    · cases hl
      exact h.begun w _ _ _ _ _ hw
  -- The compose is none of a worker's.
  | compose hstart hcrash hc =>
    refine h.composed hc fun v m hl => ?_
    rcases hl with ⟨r', f', ids', hl⟩ | hl
    · exact absurd hl (hstart v m r' f' ids')
    · exact absurd hl (hcrash v m)
  | @crashComposing w now row payload n queue hw =>
    -- The compose dies first, then the worker rests.
    have hcrash : (Compose.system env).step s.compose (.crash (.worker w n)) =
        some (s.compose.setCall (.worker w n) .crashed) := rfl
    have hdead := h.composed hcrash fun v m hl => by
      rcases hl with ⟨r', f', ids', hl⟩ | hl
      · cases hl
      · cases hl
        exact h.begun w _ _ _ _ _ hw
    exact hdead.setWork _ _ fun _ _ _ _ _ hwork => by cases hwork
  | sweep hw => exact h.setWork _ _ fun _ _ _ _ _ hwork => by cases hwork
  | sweepEnd hw => exact h.setWork _ _ fun _ _ _ _ _ hwork => by cases hwork
  | @claimWon w now row queue hw hcount =>
    have hmoved := h.setWork w (.claimed now row queue)
      fun _ _ _ _ _ hwork => by cases hwork
    exact ⟨hmoved.idle, hmoved.begun⟩
  | @claimLost w now row queue hw hcount =>
    have hmoved := h.setWork w (.sweeping now queue)
      fun _ _ _ _ _ hwork => by cases hwork
    exact ⟨hmoved.idle, hmoved.begun⟩
  | prepareFailed hw hfails => exact h.setWork _ _ fun _ _ _ _ _ hwork => by cases hwork
  | finishFailed hw hcall hview => exact h.setWork _ _ fun _ _ _ _ _ hwork => by cases hwork
  | finishSent hw hcall hview => exact h.setWork _ _ fun _ _ _ _ _ hwork => by cases hwork
  | finishThrown hw hcall => exact h.setWork _ _ fun _ _ _ _ _ hwork => by cases hwork
  | @mark w now row target sentAt caught queue hw =>
    have hmoved := h.setWork w (.sweeping now queue)
      fun _ _ _ _ _ hwork => by cases hwork
    exact ⟨hmoved.idle, hmoved.begun⟩
  | throwClaim hw => exact h.setWork _ _ fun _ _ _ _ _ hwork => by cases hwork
  | throwHeld hw => exact h.setWork _ _ fun _ _ _ _ _ hwork => by cases hwork
  | throwMark hw => exact h.setWork _ _ fun _ _ _ _ _ hwork => by cases hwork
  | throwCaught hw => exact h.setWork _ _ fun _ _ _ _ _ hwork => by cases hwork
  | crash hw => exact h.setWork _ _ fun _ _ _ _ _ hwork => by cases hwork

theorem fresh_of_reachable {env : Env} {s : State} (h : (system env).Reachable s) : Fresh s :=
  h.invariant (P := Fresh) (fun _ h0 => Fresh.initial h0) fun _ _ _ _ hi hs => hi.step hs

/-! ### A sample workspace -/

/-- The default configuration. -/
def sampleEnv : Env :=
  ⟨defaultTrustedComposeSources, true⟩

/-- A shared mailbox of the own engine. -/
def sampleMailbox : MailboxAccount where
  id := "mb"
  workspaceId := "ws"
  emailAddress := "me@example.org".toList
  displayName := none
  isDefault := true
  active := true
  postmarkLane := false
  provider := "stalwart"
  ownerKind := .shared
  ownerKey := none

/-- A payload with a recipient and nothing else. -/
def samplePayload : Json :=
  .obj [("toAddress".toList, .str "ada@example.org".toList)]

/-- The compose request of that payload, scheduled under the id `a`. -/
def sampleInput : ComposeInput where
  toAddress := "ada@example.org".toList
  subject := []
  body := []
  mode := .send
  externalSource := schedulerSource
  externalRef := scheduledRef "a"
  fromMailboxAccountId := some "mb"

/-- A workspace with that mailbox, where nothing has happened yet. -/
def sampleStart : State where
  compose := ⟨{ settings := { mailboxes := [sampleMailbox] } }, fun _ => .idle, []⟩
  sends := []
  workers := fun _ => ⟨.resting, 0⟩
  cancels := fun _ => .idle

theorem sampleStart_init : (system sampleEnv).init sampleStart :=
  ⟨⟨fun _ => rfl, rfl⟩, rfl, fun _ => rfl, fun _ => rfl⟩

end Scheduler
end EmailOps
