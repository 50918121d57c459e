import EmailOps.Client.ComposeRetry
import EmailOps.Scheduling.Protocol

/-!
# Sending with undo

The web client schedules a message a few seconds ahead and shows a bar that counts down, with
Undo and Send now. Undo cancels the scheduled send and puts the message back into the composer;
Send now cancels it and composes the message at once; when the window closes, the bar polls
what has become of the scheduled send. Any request may be lost on its way, any answer may be
lost, and all the client sees is that the request failed.

* `State` is one such message: what its client shows and awaits, next to the scheduler, on
  which any other sends are scheduled, cancelled and composed.
* `step` lets the user click, requests arrive, answers come or fail to, and the server go on.
* `copies` counts how often the engine has accepted the message.
* `State.EndsWell` is what the client promises of a message that has come to its end, and
  `State.Dropped` is what must not happen to one.
-/

namespace EmailOps
namespace UndoSend

open Framework Framework.Text Client Scheduler

/-! ### The client -/

/-- What the bar shows. -/
inductive Phase where
  | counting
  /-- The window has closed; so many polls have told nothing. -/
  | sending (polls : ℕ)
  | sent
  | failed
  deriving DecidableEq

/-- What a click on the bar awaits. -/
inductive Handler where
  | idle
  /-- The answer to Undo's cancel, or to its retry. -/
  | undoing (retried : Bool)
  /-- The answer to the cancel of Send now. -/
  | sendingNow
  /-- The answer to the compose of Send now. -/
  | composing
  deriving DecidableEq

/-- The number of the cancel that is awaited. -/
def Handler.cancel? : Handler → Option ℕ
  | .undoing false => some 0
  | .undoing true => some 1
  | .sendingNow => some 2
  | _ => none

/-- Where the client stands with the message. -/
inductive Stage where
  | editing
  /-- The answer to the schedule request is awaited. -/
  | scheduling
  /-- The answer to the compose that stands in for the schedule is awaited. -/
  | posting
  /-- That compose has an answer, or nobody knows whether the message is scheduled. -/
  | closed
  /-- The message is scheduled; the bar shows it, unless it is gone. -/
  | undoable (bar : Option Phase) (handler : Handler)
  deriving DecidableEq

/-- The requests of the client that are not reads. -/
inductive Request where
  | schedule
  | cancel (k : ℕ)
  | compose
  deriving DecidableEq

structure State where
  scheduler : Scheduler.State
  stage : Stage
  /-- The id of the scheduled send of the message. -/
  row : Option String
  /-- The requests sent so far. One that is lost never arrives. -/
  requests : List Request
  /-- Undo has put the message back into the composer. -/
  restored : Bool
  /-- The client has said that sending failed, with the message at hand. -/
  reported : Bool

/-- Polls after which the bar goes. -/
def verifyAttempts : ℕ := 3

/-- `describeStatus(…).sent`: the composer takes the message for sent. -/
def takenForSent : EmailMessageStatus → Bool
  | .sent | .queued => true
  | _ => false

/-- The bar awaits the verdict, unless it already does or is gone. -/
def awaitVerdict : Option Phase → Option Phase
  | some (.sending polls) => some (.sending polls)
  | some _ => some (.sending 0)
  | none => none

/-- The body of the schedule request, as it is stored. -/
def schedulePayload (body : ComposeBody) : ScheduledSendPayload where
  toAddress := trim body.to_address
  toAddresses := []
  subject := body.subject.getD []
  body := body.body.getD []
  bodyHtml := body.body_html.filter (· ≠ [])
  cc := body.cc
  bcc := body.bcc
  attachments := body.attachments.map fun a =>
    ⟨a.blob_id.getD [], a.name.getD [], a.type.getD []⟩
  inReplyToThreadId := body.in_reply_to_thread_id
  inReplyToMessageId := body.in_reply_to
  references := body.references
  draftId := body.draft_id

/-! ### The steps -/

inductive Label where
  /-- The user sends the message; `direct` when the mailbox cannot schedule or the user has
  turned the window off. -/
  | send (direct : Bool)
  /-- The schedule request arrives. -/
  | schedule (configured : Bool) (sendAt : ℕ) (newId : String)
  /-- The client learns that the message is scheduled. -/
  | scheduled
  /-- The client learns that it is not, or sees the request fail. -/
  | unscheduled (ambiguous : Bool)
  | undo
  | sendNow
  | windowCloses
  /-- A cancel request arrives. -/
  | cancelArrives (k : ℕ)
  | cancelAnswer
  /-- The client sees a cancel fail. -/
  | cancelError
  /-- The compose request arrives, and the endpoint gives it a reference. -/
  | composeArrives (uuid : String) (lookupsFail : Bool) (ids : NewIds)
  | composeAnswer
  /-- The client sees the compose fail. -/
  | composeError
  /-- The client polls the scheduled send; it may get no answer. -/
  | verify (answered : Bool)
  /-- The bar goes: the user dismisses or edits what it shows, or has seen that it was sent. -/
  | dismiss
  /-- The bar of the user's next message takes its place. -/
  | replace
  /-- The server goes on. -/
  | server (l : Scheduler.Label)

/-- The compose of the client. -/
def own : Scheduler.Caller := .other 0

/-- The state of the scheduled send, as the client reads it. -/
def State.verdict (s : State) (draft : Draft) : Option ScheduledSendState :=
  s.row.bind fun id =>
    (s.scheduler.sends.find? fun r => r.id = id && r.workspaceId = draft.workspaceId &&
      r.mailboxId = draft.mailboxId).map (·.state)

def State.ask (s : State) (stage : Stage) (r : Request) : State :=
  { s with stage := stage, requests := s.requests ++ [r] }

/-- The client says that sending failed, if it has where to say it. -/
def State.report (s : State) (stage : Stage) (shown : Bool) : State :=
  { s with stage := stage, reported := s.reported || shown }

/-- A cancel was answered. -/
def cancelAnswered (s : State) (bar : Option Phase) (cancelled : Bool) : Handler → Option State
  | .undoing _ =>
    if cancelled then some { s with stage := .undoable none .idle, restored := true }
    else some { s with stage := .undoable (awaitVerdict bar) .idle }
  | .sendingNow =>
    if cancelled then some (s.ask (.undoable bar .composing) .compose)
    else some { s with stage := .undoable (awaitVerdict bar) .idle }
  | _ => none

/-- A cancel failed; Undo tries once more. -/
def cancelFailed (s : State) (bar : Option Phase) : Handler → Option State
  | .undoing false => some (s.ask (.undoable bar (.undoing true)) (.cancel 1))
  | .undoing true | .sendingNow => some { s with stage := .undoable (awaitVerdict bar) .idle }
  | _ => none

/-- The compose of the message ended; `sent` is what the client takes from it. -/
def composeEnded (s : State) (sent : Bool) : Option State :=
  match s.stage with
  | .posting => if sent then some { s with stage := .closed } else some (s.report .closed true)
  | .undoable bar .composing =>
    if sent then some { s with stage := .undoable (bar.map fun _ => .sent) .idle }
    else some (s.report (.undoable (bar.map fun _ => .failed) .idle) bar.isSome)
  | _ => none

/-- What the client takes from the answer to the compose. -/
def takesForSent (stage : Stage) (status : EmailMessageStatus) : Bool :=
  match stage with
  | .posting => takenForSent status
  | _ => status ≠ .failed

/-- A poll, the `polls`-th after the first. -/
def verified (s : State) (polls : ℕ) (handler : Handler) (verdict : Option ScheduledSendState) :
    State :=
  match verdict with
  | some .sent => { s with stage := .undoable (some .sent) handler }
  | some .failed => s.report (.undoable (some .failed) handler) true
  -- "Undone from another tab/surface — nothing to report here."
  | some .cancelled => { s with stage := .undoable none handler }
  | _ =>
    if polls + 1 < verifyAttempts then
      { s with stage := .undoable (some (.sending (polls + 1))) handler }
    else { s with stage := .undoable none handler }

section Step

variable [CaseMapping] (env : Env) (normalizeComposeHtml : Text → Text) (draft : Draft)

/-- The server's steps; those that begin a call of the client are left to the arrivals. -/
def serverStep (s : State) (l : Scheduler.Label) : Option Scheduler.State :=
  match l with
  | .cancelRead k _ _ _ => if k < 3 then none else Scheduler.step env s.scheduler l
  | .compose (.start (.other 0) _ _ _) => none
  | .compose (.crash (.other 0)) =>
    if (s.scheduler.compose.calls own).activeKey.isSome then Scheduler.step env s.scheduler l
    else none
  | l => Scheduler.step env s.scheduler l

/-- One step. -/
def step (s : State) : Label → Option State
  | .send direct =>
    match s.stage with
    | .editing => if direct then some (s.ask .posting .compose) else some (s.ask .scheduling .schedule)
    | _ => none
  | .schedule configured sendAt newId =>
    if .schedule ∈ s.requests ∧ s.row = none then
      (Scheduler.step env s.scheduler (.schedule configured draft.ucUid draft.workspaceId
        draft.mailboxId (schedulePayload draft.body).toJson sendAt newId)).map fun c =>
          { s with scheduler := c, row := some newId }
    else none
  | .scheduled =>
    match s.stage, s.row with
    | .scheduling, some _ => some { s with stage := .undoable (some .counting) .idle }
    | _, _ => none
  | .unscheduled ambiguous =>
    match s.stage with
    | .scheduling => if ambiguous then some (s.report .closed true) else some (s.ask .posting .compose)
    | _ => none
  | .undo =>
    match s.stage with
    | .undoable (some .counting) .idle =>
      some (s.ask (.undoable (some .counting) (.undoing false)) (.cancel 0))
    | _ => none
  | .sendNow =>
    match s.stage with
    | .undoable (some .counting) .idle =>
      some (s.ask (.undoable (some .counting) .sendingNow) (.cancel 2))
    | _ => none
  | .windowCloses =>
    match s.stage with
    | .undoable (some .counting) handler =>
      some { s with stage := .undoable (some (.sending 0)) handler }
    | _ => none
  | .cancelArrives k =>
    match s.row with
    | some id =>
      if .cancel k ∈ s.requests then
        (Scheduler.step env s.scheduler (.cancelRead k draft.ucUid draft.workspaceId id)).map
          fun c => { s with scheduler := c }
      else none
    | none => none
  | .cancelAnswer =>
    match s.stage with
    | .undoable bar handler =>
      match handler.cancel?.map s.scheduler.cancels with
      | some (.returned _ _ cancelled) => cancelAnswered s bar cancelled handler
      | _ => none
    | _ => none
  | .cancelError =>
    match s.stage with
    | .undoable bar handler => cancelFailed s bar handler
    | _ => none
  | .composeArrives uuid lookupsFail ids =>
    if .compose ∈ s.requests then
      match composeRequest normalizeComposeHtml draft uuid with
      | .error _ => none
      | .ok r =>
        -- A fresh uuid: no message carries the key.
        if Compose.hasKey s.scheduler.compose.db r.triple then none
        else
          (Scheduler.step env s.scheduler (.compose (.start own r lookupsFail ids))).map
            fun c => { s with scheduler := c }
    else none
  | .composeAnswer =>
    match s.scheduler.compose.calls own with
    | .returned view => composeEnded s (takesForSent s.stage view.status)
    | _ => none
  | .composeError => composeEnded s false
  | .verify answered =>
    match s.stage with
    | .undoable (some (.sending polls)) handler =>
      some (verified s polls handler (if answered then s.verdict draft else none))
    | _ => none
  | .dismiss =>
    match s.stage with
    | .undoable (some .sent) handler | .undoable (some .failed) handler =>
      some { s with stage := .undoable none handler }
    | _ => none
  | .replace =>
    match s.stage with
    | .undoable (some _) handler => some { s with stage := .undoable none handler }
    | _ => none
  | .server l => (serverStep env s l).map fun c => { s with scheduler := c }

/-- One message, sent with undo. Initially it is in the composer. -/
def system : System State Label where
  init s := (Scheduler.system env).init s.scheduler ∧ s.stage = .editing ∧ s.row = none ∧
    s.requests = [] ∧ s.restored = false ∧ s.reported = false
  step := step env normalizeComposeHtml draft

end Step

/-! ### What becomes of the message -/

/-- The idempotency key of the scheduled send. -/
def rowKey (draft : Draft) (id : String) : Triple :=
  (draft.workspaceId, schedulerSource, scheduledRef id)

/-- The engine call is one for the message. -/
def State.isCopy (s : State) (draft : Draft) (h : Compose.HandOff Scheduler.Caller) : Bool :=
  h.caller = own || s.row.any fun id => h.triple = rowKey draft id

/-- How often the engine has accepted the message. -/
def State.copies (s : State) (draft : Draft) : ℕ :=
  s.scheduler.compose.log.countP fun h => h.result.accepted && s.isCopy draft h

/-- The row of the message is in that state. -/
def State.RowIs (s : State) (state : ScheduledSendState) : Prop :=
  ∃ r ∈ s.scheduler.sends, s.row = some r.id ∧ r.state = state

/-- The bar has nothing more to do. -/
def Phase.settled : Phase → Bool
  | .sent | .failed => true
  | _ => false

/-- The client awaits nothing. -/
def Stage.settled : Stage → Bool
  | .closed => true
  | .undoable bar .idle => bar.all (·.settled)
  | _ => false

/-- **The message has come to its end**: the client awaits nothing, its scheduled send is in a
final state, and its compose does not run. -/
def State.Ended (s : State) : Prop :=
  s.stage.settled = true ∧ ¬s.RowIs .pending ∧ ¬s.RowIs .claimed ∧
    (s.scheduler.compose.calls own).activeKey = none

/-- **Exactly one of three ends**: sent once, back in the composer, or reported as failed. -/
def State.EndsWell (s : State) (draft : Draft) : Prop :=
  (s.copies draft = 1 ∧ s.restored = false ∧ s.reported = false) ∨
    (s.copies draft = 0 ∧ s.restored = true ∧ s.reported = false) ∨
      (s.copies draft = 0 ∧ s.restored = false ∧ s.reported = true)

/-- **Cancelled on the server and dropped by the client.** -/
def State.Dropped (s : State) (draft : Draft) : Prop :=
  s.RowIs .cancelled ∧ s.stage = .undoable none .idle ∧ s.copies draft = 0 ∧
    s.restored = false ∧ s.reported = false

end UndoSend
end EmailOps
