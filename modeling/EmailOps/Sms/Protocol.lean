import EmailOps.Framework.System
import EmailOps.Sms.Service

/-!
# Sending, approving and rejecting text messages

Any number of calls of `composeSms`, `approveSmsInboxItem` and `rejectSmsInboxItem`,
interleaved at their statements. Each call is one transaction, and the provider is called
inside it, so that what was handed to the provider stays there when the transaction is
rolled back.

* `State.inserted` are the messages that a transaction has inserted and not committed: an
  insert that clashes with one of them waits. `State.handing` are the items of approvals that
  have called the provider and not ended.
* `State.log` are the calls of the provider. `AtMostOnce` says of a state that each message
  was handed over once at most, that what is recorded as sent or approved was accepted, and
  that what is rejected was never handed over.
-/

namespace EmailOps
namespace Sms

open Framework Framework.Table

/-! ### Calls -/

structure Request where
  workspaceId : String
  ucUid : Option String
  input : ComposeSmsInput

/-- Where a call stands. -/
inductive Call where
  | idle
  /-- A compose that creates a message, after its reads. -/
  | staging (staged : Staged)
  | queuing (msg : SmsMessage)
  /-- The message is inserted, the provider not called. -/
  | queued (msg : SmsMessage)
  | handed (msg : SmsMessage) (result : TwilioSendResult)
  /-- An approval that has read the item pending. -/
  | approving (item : SmsInboxItem) (msg : SmsMessage)
  | confirming (item : SmsInboxItem) (msg : SmsMessage) (result : TwilioSendResult)
  /-- A rejection that has read the item pending. -/
  | rejecting (item : SmsInboxItem) (msg : SmsMessage)
  /-- Committed or rolled back. -/
  | ended

/-- The call is over. -/
def Call.isEnded : Call → Bool
  | .ended => true
  | _ => false

/-- A call of the provider: for the message of which key, and the answer. -/
structure HandOff where
  key : Triple
  request : TwilioSendRequest
  result : TwilioSendResult

structure State where
  db : Db
  calls : ℕ → Call
  inserted : List (ℕ × SmsMessage)
  handing : List (ℕ × String)
  /-- The calls of the provider, oldest first. -/
  log : List HandOff

/-- Move a call on. What it has open is gone when it ends. -/
def State.moveTo (s : State) (c : ℕ) (call : Call) : State :=
  { s with
    calls := Function.update s.calls c call
    inserted := if call.isEnded then s.inserted.filter (·.1 ≠ c) else s.inserted
    handing := if call.isEnded then s.handing.filter (·.1 ≠ c) else s.handing }

/-- Has a transaction inserted a message that this one would clash with? -/
def State.waits (s : State) (msg : SmsMessage) : Bool :=
  s.inserted.any fun p => Unique.clash SmsMessage.id SmsMessage.key msg p.2

/-- How often the message of a key was handed to the provider. -/
def State.handOffs (s : State) (key : Triple) : ℕ :=
  s.log.countP (·.key = key)

/-- The provider has accepted the message of the key. -/
def State.Accepted (s : State) (key : Triple) : Prop :=
  ∃ h ∈ s.log, h.key = key ∧ h.result.accepted = true

/-! ### The protocol -/

inductive Label where
  | compose (c : ℕ) (r : Request) (ids : NewIds)
  | approve (c : ℕ) (workspaceId itemId : String)
  | reject (c : ℕ) (workspaceId itemId : String)
  /-- The next statement of a call. -/
  | next (c : ℕ)
  /-- A call hands its message to the provider, which answers. -/
  | handOver (c : ℕ) (result : TwilioSendResult)
  /-- The transaction of a call fails, or its process dies. -/
  | rollback (c : ℕ)
  | settings (settings : Settings) (accounts : List SmsAccount)

section Steps

variable [CaseMapping]

/-- Where a compose stands after its reads. -/
def planned (trustedComposeSources : List String) (db : Db) (r : Request) (ids : NewIds) : Call :=
  match composePlan trustedComposeSources db r.workspaceId r.ucUid r.input ids with
  | .error _ | .ok (.done _) => .ended
  | .ok (.stage staged) => .staging staged
  | .ok (.send msg) => .queuing msg

/-- Where a review stands that has read its item. -/
def reviewing (db : Db) (workspaceId itemId : String) (next : SmsInboxItem → SmsMessage → Call) :
    Call :=
  match findItem db workspaceId itemId with
  | some (item, msg) => if item.state = .pending then next item msg else .ended
  | none => .ended

/-- The next statement of a call, other than the provider's. -/
def State.next (s : State) (c : ℕ) : Call → Option State
  | .queuing msg =>
    if s.waits msg then none
    else if s.db.messages.refuses msg then some (s.moveTo c .ended)
    else some (State.moveTo { s with inserted := s.inserted ++ [(c, msg)] } c (.queued msg))
  | .staging staged =>
    if s.waits staged.msg then none
    else if s.db.messages.refuses staged.msg || s.db.inbox.refuses staged.item then
      some (s.moveTo c .ended)
    else some (State.moveTo { s with db := s.db.stage staged } c .ended)
  | .handed msg result =>
    some (State.moveTo { s with db := s.db.record msg result } c .ended)
  | .confirming item msg result =>
    some (State.moveTo { s with db := s.db.confirm item msg result } c .ended)
  | .rejecting item msg =>
    some (State.moveTo { s with db := s.db.reject item msg } c .ended)
  | _ => none

/-- Note a call of the provider. -/
def State.noteHandOff (s : State) (msg : SmsMessage) (result : TwilioSendResult) : State :=
  { s with log := s.log ++ [⟨msg.key, msg.request, result⟩] }

/-- A call hands its message over. -/
def State.handOver (s : State) (c : ℕ) (result : TwilioSendResult) : Call → Option State
  | .queued msg => some ((s.noteHandOff msg result).moveTo c (.handed msg result))
  | .approving item msg =>
    some (State.moveTo { s.noteHandOff msg result with handing := s.handing ++ [(c, item.id)] } c
      (.confirming item msg result))
  | _ => none

/-- One step. -/
def step (trustedComposeSources : List String) (s : State) : Label → Option State
  | .compose c r ids =>
    match s.calls c with
    | .idle => some (s.moveTo c (planned trustedComposeSources s.db r ids))
    | _ => none
  | .approve c workspaceId itemId =>
    match s.calls c with
    | .idle => some (s.moveTo c (reviewing s.db workspaceId itemId .approving))
    | _ => none
  | .reject c workspaceId itemId =>
    match s.calls c with
    | .idle => some (s.moveTo c (reviewing s.db workspaceId itemId .rejecting))
    | _ => none
  | .next c => s.next c (s.calls c)
  | .handOver c result => s.handOver c result (s.calls c)
  | .rollback c => some (s.moveTo c .ended)
  | .settings settings accounts =>
    some { s with db := { s.db with settings := settings, accounts := accounts } }

/-- The protocol. Initially there are no messages; the settings are any. -/
def system (trustedComposeSources : List String) : System State Label where
  init s := s.db.messages.rows = [] ∧ s.db.inbox.rows = [] ∧ (∀ c, s.calls c = .idle) ∧
    s.inserted = [] ∧ s.handing = [] ∧ s.log = []
  step := step trustedComposeSources

end Steps

/-! ### The guarantee -/

/-- **The guarantee.** -/
structure AtMostOnce (s : State) : Prop where
  once : ∀ key, s.handOffs key ≤ 1
  sent : ∀ m ∈ s.db.messages.rows, m.status = .sent → s.Accepted m.key
  approved : ∀ i ∈ s.db.inbox.rows, i.state = .approved →
    ∀ m ∈ s.db.messages.rows, m.id = i.smsMessageId → s.Accepted m.key
  rejected : ∀ i ∈ s.db.inbox.rows, i.state = .rejected →
    ∀ m ∈ s.db.messages.rows, m.id = i.smsMessageId → s.handOffs m.key = 0

end Sms
end EmailOps
