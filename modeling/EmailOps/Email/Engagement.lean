import EmailOps.Email.Compose

/-!
# Engagement events and the status ladder

The mail provider reports what became of a message by webhook. A report names the
message by the provider's id; `resolveOwner` finds the row outside any workspace,
and `captureEvent` records the event and advances the row's status inside the
row's workspace, in one transaction.

* `statusRank` is the ladder and `shouldAdvanceStatus` the rule by which an event
  climbs it.
* The events are unique on their key (`EngagementCaptureInput.key`), so that a
  redelivery is a `duplicate`.
* `captureEvent_cases` says what the transaction does.
-/

namespace EmailOps

/-! ### The ladder -/

/-- The rung of a status. The off-ramps share the top one. -/
def statusRank : EmailMessageStatus → ℕ
  | .draft => 0
  | .pendingApproval => 5
  | .queued => 10
  | .sent => 20
  | .delivered => 30
  | .bounced => 40
  | .failed => 40
  | .rejected => 40

/-- An event advances a status to a strictly higher rung; one without a status
target never does. -/
def shouldAdvanceStatus (current : EmailMessageStatus) (incoming : Option EmailMessageStatus) :
    Bool :=
  match incoming with
  | none => false
  | some status => statusRank current < statusRank status

/-- The rung of an optional status, the lowest when there is none. -/
def targetRank (target : Option EmailMessageStatus) : ℕ :=
  (target.map statusRank).getD 0

/-! ### Events -/

inductive EmailEngagementKind where
  | opened | clicked | bounced | unsubscribed
  deriving DecidableEq, Repr

/-- A signal of the provider, normalised by the webhook. Times are milliseconds. -/
structure EngagementCaptureInput where
  provider : String
  providerMessageId : String
  providerEventId : String
  recordType : String
  normalizedKind : Option EmailEngagementKind
  statusTarget : Option EmailMessageStatus
  occurredAt : Option ℕ
  raw : Option Json

structure EmailEngagementEvent where
  workspaceId : String
  emailMessageId : String
  provider : String
  providerEventId : String
  recordType : String
  normalizedKind : Option EmailEngagementKind
  occurredAt : ℕ
  raw : Option Json

/-- The unique key of the events table. -/
structure EventKey where
  workspaceId : String
  provider : String
  providerEventId : String
  deriving DecidableEq

def EmailEngagementEvent.key (e : EmailEngagementEvent) : EventKey :=
  ⟨e.workspaceId, e.provider, e.providerEventId⟩

/-- The key an event is recorded under in a workspace. -/
def EngagementCaptureInput.key (input : EngagementCaptureInput) (workspaceId : String) :
    EventKey :=
  ⟨workspaceId, input.provider, input.providerEventId⟩

inductive EngagementOutcome where
  | recorded | duplicate | unmatched
  deriving DecidableEq, Repr

/-- What the webhook is told. The kind and the statuses go out in lower case. -/
structure EngagementCaptureResult where
  outcome : EngagementOutcome
  workspaceId : Option String
  emailMessageId : Option String
  normalizedKind : Option EmailEngagementKind
  statusBefore : Option EmailMessageStatus
  statusAfter : Option EmailMessageStatus
  statusAdvanced : Bool

/-! ### Step 1: the privileged read -/

/-- What step 1 selects of the row. -/
structure Owner where
  id : String
  workspaceId : String
  status : EmailMessageStatus

/-- The newest message with the provider's id; rows are in the order they were
created in. -/
def resolveOwner (messages : List EmailMessage) (providerMessageId : String) : Option Owner :=
  (messages.reverse.find? fun m => m.providerMessageId = some providerMessageId).map fun m =>
    ⟨m.id, m.workspaceId, m.status⟩

/-- The answer when no message has the provider's id. -/
def unmatchedResult (input : EngagementCaptureInput) : EngagementCaptureResult :=
  ⟨.unmatched, none, none, input.normalizedKind, none, none, false⟩

theorem resolveOwner_some {messages : List EmailMessage} {id : String} {owner : Owner}
    (h : resolveOwner messages id = some owner) :
    ∃ m ∈ messages, m.providerMessageId = some id ∧ m.id = owner.id ∧
      m.workspaceId = owner.workspaceId ∧ m.status = owner.status := by
  obtain ⟨m, hm, rfl⟩ := Option.map_eq_some_iff.mp h
  refine ⟨m, List.mem_reverse.mp (List.mem_of_find?_eq_some hm), ?_, rfl, rfl, rfl⟩
  simpa using List.find?_some hm

theorem resolveOwner_none {messages : List EmailMessage} {id : String}
    (h : resolveOwner messages id = none) :
    ∀ m ∈ messages, m.providerMessageId ≠ some id := by
  intro m hm
  have hnone := List.find?_eq_none.mp (Option.map_eq_none_iff.mp h) m (List.mem_reverse.mpr hm)
  simpa using hnone

/-! ### Step 2: the transaction -/

/-- The answer to a redelivery. -/
def duplicateResult (owner : Owner) (input : EngagementCaptureInput) : EngagementCaptureResult :=
  ⟨.duplicate, some owner.workspaceId, some owner.id, input.normalizedKind, some owner.status,
    some owner.status, false⟩

/-- Set the status of a message. -/
def setStatus (messages : List EmailMessage) (messageId : String) (status : EmailMessageStatus) :
    List EmailMessage :=
  messages.map fun m => if m.id = messageId then { m with status := status } else m

/-- Record the event and advance the status of its message, in one transaction. A
key already in the table, also one a concurrent transaction has just inserted, is
a redelivery. The status compared is the one step 1 read. -/
def captureEvent (messages : List EmailMessage) (events : List EmailEngagementEvent)
    (owner : Owner) (input : EngagementCaptureInput) (now : ℕ) :
    EngagementCaptureResult × List EmailMessage × List EmailEngagementEvent :=
  if events.any fun e => e.key = input.key owner.workspaceId then
    (duplicateResult owner input, messages, events)
  else
    let event : EmailEngagementEvent :=
      { workspaceId := owner.workspaceId
        emailMessageId := owner.id
        provider := input.provider
        providerEventId := input.providerEventId
        recordType := input.recordType
        normalizedKind := input.normalizedKind
        occurredAt := input.occurredAt.getD now
        raw := input.raw }
    let before := owner.status
    let after :=
      match input.statusTarget with
      | some status => if shouldAdvanceStatus before (some status) then status else before
      | none => before
    let messages' :=
      match input.statusTarget with
      | some status =>
        if shouldAdvanceStatus before (some status) then setStatus messages owner.id status
        else messages
      | none => messages
    ({ outcome := .recorded
       workspaceId := some owner.workspaceId
       emailMessageId := some owner.id
       normalizedKind := input.normalizedKind
       statusBefore := some before
       statusAfter := some after
       statusAdvanced := after ≠ before }, messages', events ++ [event])

/-- **What the transaction does.** It repeats an event that is there, or records a
new one; then it sets the status the event targets, if that ranks above the one
read. -/
theorem captureEvent_cases (messages : List EmailMessage) (events : List EmailEngagementEvent)
    (owner : Owner) (input : EngagementCaptureInput) (now : ℕ) :
    ((∃ e ∈ events, e.key = input.key owner.workspaceId) ∧
      captureEvent messages events owner input now =
        (duplicateResult owner input, messages, events)) ∨
    ((∀ e ∈ events, e.key ≠ input.key owner.workspaceId) ∧
      ∃ result event messages', captureEvent messages events owner input now =
          (result, messages', events ++ [event]) ∧
        result.outcome = .recorded ∧ event.key = input.key owner.workspaceId ∧
        ((∃ status, input.statusTarget = some status ∧
            statusRank owner.status < statusRank status ∧
            messages' = setStatus messages owner.id status) ∨
          (targetRank input.statusTarget ≤ statusRank owner.status ∧ messages' = messages))) := by
  unfold captureEvent
  by_cases hdup : (events.any fun e => e.key = input.key owner.workspaceId) = true
  · rw [if_pos hdup]
    obtain ⟨e, he, hkey⟩ := List.any_eq_true.mp hdup
    exact .inl ⟨⟨e, he, of_decide_eq_true hkey⟩, rfl⟩
  · rw [if_neg hdup]
    refine .inr ⟨fun e he hkey => hdup (List.any_eq_true.mpr ⟨e, he, decide_eq_true hkey⟩),
      _, _, _, rfl, rfl, rfl, ?_⟩
    cases htarget : input.statusTarget with
    | none => exact .inr ⟨Nat.zero_le _, rfl⟩
    | some status =>
      by_cases hadvance : shouldAdvanceStatus owner.status (some status) = true
      · exact .inl ⟨status, rfl, of_decide_eq_true hadvance, if_pos hadvance⟩
      · refine .inr ⟨?_, if_neg hadvance⟩
        have hle : ¬statusRank owner.status < statusRank status :=
          fun hlt => hadvance (decide_eq_true hlt)
        exact Nat.le_of_not_lt hle

end EmailOps
