import EmailOps.Framework.HighWater
import EmailOps.Framework.System
import EmailOps.Framework.Table
import EmailOps.Email.Engagement

/-!
# Concurrent webhook deliveries

Any number of webhook deliveries, redeliveries and stamps of send results. A
delivery reads the row that owns its provider id in one statement and records the
event in a transaction of its own, so that other deliveries and stamps may come
between.

* `Engagement.system` is the protocol, with the log of acknowledged events and of
  stamps.
* `Engagement.Faithful` is what the log should mean: each acknowledged event of a
  message is recorded once, and the message stands on the highest rung it was
  shown. `Engagement.NeverLower` is the same of one step: no status falls.
* The code does not guarantee it (`stale_read_lowers_status`): the status compared
  is the one read before the transaction.
* `Engagement.Careful` is the condition under which it does, and
  `Engagement.statuses_follow_events` the result.
-/

namespace EmailOps
namespace Engagement

open Framework

/-! ### The protocol -/

/-- Where a delivery stands. -/
inductive Hook where
  | idle
  /-- The owner is read, the event is not yet recorded. -/
  | resolved (input : EngagementCaptureInput) (owner : Owner)
  /-- The delivery is answered, or has failed and may come again as another one. -/
  | ended

inductive Entry where
  /-- A delivery was acknowledged. -/
  | acked (input : EngagementCaptureInput) (outcome : EngagementOutcome)
  /-- A send result was stamped. -/
  | stamped (messageId : String) (status : EmailMessageStatus)

/-- The state of the protocol. The log is in the order of events. -/
structure State where
  messages : List EmailMessage
  events : List EmailEngagementEvent
  hooks : ℕ → Hook
  log : List Entry

/-- The steps of the protocol. -/
inductive Label where
  /-- A delivery arrives and step 1 reads the owner. -/
  | receive (c : ℕ) (input : EngagementCaptureInput)
  /-- Step 2: the transaction. -/
  | commit (c : ℕ) (now : ℕ)
  | crash (c : ℕ)
  /-- A send of the message ends and its result is stamped. -/
  | stamp (messageId : String) (result : EngineSendResult)

/-- Move a delivery on. -/
def State.setHook (s : State) (c : ℕ) (hook : Hook) : State :=
  { s with hooks := Function.update s.hooks c hook }

/-- The status a send result stamps. -/
def stampedStatus (result : EngineSendResult) : EmailMessageStatus :=
  if result.accepted then .sent else .failed

/-- One step. -/
def step (s : State) : Label → Option State
  | .receive c input =>
    match s.hooks c with
    | .idle =>
      match resolveOwner s.messages input.providerMessageId with
      | none =>
        some { s.setHook c .ended with
          log := s.log ++ [.acked input (unmatchedResult input).outcome] }
      | some owner => some (s.setHook c (.resolved input owner))
    | _ => none
  | .commit c now =>
    match s.hooks c with
    | .resolved input owner =>
      let (result, messages, events) := captureEvent s.messages s.events owner input now
      some { s.setHook c .ended with
        messages := messages, events := events
        log := s.log ++ [.acked input result.outcome] }
    | _ => none
  | .crash c => some (s.setHook c .ended)
  | .stamp messageId result =>
    some { s with
      messages := stampSendResult s.messages messageId result
      log := s.log ++ [.stamped messageId (stampedStatus result)] }

/-- What holds of a table of messages: an id names one row, and so does an id of the
provider. -/
structure WellKept (messages : List EmailMessage) : Prop where
  byId : ∀ m ∈ messages, ∀ m' ∈ messages, m.id = m'.id → m = m'
  byProviderId : ∀ m ∈ messages, ∀ m' ∈ messages, ∀ p, m.providerMessageId = some p →
    m'.providerMessageId = some p → m = m'

/-- The protocol, from the messages `start` and no events. -/
def system (start : List EmailMessage) : System State Label where
  init s := s.messages = start ∧ WellKept start ∧ s.events = [] ∧ (∀ c, s.hooks c = .idle) ∧
    s.log = []
  step := step

/-- **What a step does**, label by label. -/
theorem step_eq_some {start : List EmailMessage} {s s' : State} {l : Label}
    (h : (system start).step s l = some s') :
    (∃ c input, l = .receive c input ∧ s.hooks c = .idle ∧
      ((resolveOwner s.messages input.providerMessageId = none ∧
          s' = { s.setHook c .ended with log := s.log ++ [.acked input .unmatched] }) ∨
        ∃ owner, resolveOwner s.messages input.providerMessageId = some owner ∧
          s' = s.setHook c (.resolved input owner))) ∨
    (∃ c now input owner result messages events, l = .commit c now ∧
      s.hooks c = .resolved input owner ∧
      captureEvent s.messages s.events owner input now = (result, messages, events) ∧
      s' = { s.setHook c .ended with
        messages := messages, events := events
        log := s.log ++ [.acked input result.outcome] }) ∨
    (∃ c, l = .crash c ∧ s' = s.setHook c .ended) ∨
    (∃ messageId result, l = .stamp messageId result ∧
      s' = { s with
        messages := stampSendResult s.messages messageId result
        log := s.log ++ [.stamped messageId (stampedStatus result)] }) := by
  change Engagement.step s l = some s' at h
  cases l with
  | receive c input =>
    simp only [step] at h
    split at h
    · rename_i hc
      split at h
      · rename_i howner
        exact .inl ⟨c, input, rfl, hc, .inl ⟨howner, (Option.some.inj h).symm⟩⟩
      · rename_i owner howner
        exact .inl ⟨c, input, rfl, hc, .inr ⟨owner, howner, (Option.some.inj h).symm⟩⟩
    · cases h
  | commit c now =>
    simp only [step] at h
    split at h
    · rename_i input owner hc
      exact .inr (.inl ⟨c, now, input, owner, _, _, _, rfl, hc, rfl, (Option.some.inj h).symm⟩)
    · cases h
  | crash c => exact .inr (.inr (.inl ⟨c, rfl, (Option.some.inj h).symm⟩))
  | stamp messageId result =>
    exact .inr (.inr (.inr ⟨messageId, result, rfl, (Option.some.inj h).symm⟩))

/-! ### What the log should mean -/

/-- The rung an entry shows a message: that of the status stamped, or of the status
targeted by an acknowledged event with the message's provider id. -/
def Entry.rung (m : EmailMessage) : Entry → ℕ
  | .acked input _ =>
    if m.providerMessageId = some input.providerMessageId then targetRank input.statusTarget else 0
  | .stamped id status => if id = m.id then statusRank status else 0

/-- **The guarantee of a state**: each acknowledged event of a message is in the
table once, and the message stands on the highest of the rungs it started at and
was shown. -/
structure Faithful (start : List EmailMessage) (s : State) : Prop where
  recordedOnce : ∀ input outcome, .acked input outcome ∈ s.log → ∀ m ∈ s.messages,
    m.providerMessageId = some input.providerMessageId →
      s.events.countP (fun e => e.key = input.key m.workspaceId) = 1
  status : ∀ m ∈ s.messages, ∃ m₀ ∈ start, m₀.id = m.id ∧
    statusRank m.status = HighWater.top (statusRank m₀.status) (s.log.map (Entry.rung m))

/-- **The guarantee of a step**: no message moves to a lower rung. -/
def NeverLower (s s' : State) : Prop :=
  ∀ m ∈ s.messages, ∃ m' ∈ s'.messages, m'.id = m.id ∧ statusRank m.status ≤ statusRank m'.status

/-! ### The code does not keep it -/

/-- A message sent under the provider id `p`. -/
def sampleMessage : EmailMessage where
  id := "m"
  workspaceId := "ws"
  mailboxAccountId := none
  threadId := none
  inReplyToThreadId := none
  externalSource := some "perry"
  externalRef := some "r"
  mode := .send
  status := .queued
  direction := .sent
  fromAddress := none
  toAddress := some "ada@example.org".toList
  subject := some []
  body := some []
  toAddresses := []
  ccAddresses := []
  bccAddresses := []
  bodyHtml := none
  attachments := none
  providerMessageId := none

/-- A report of the provider on its message `p`. -/
def sampleInput (eventId : String) (target : EmailMessageStatus) : EngagementCaptureInput where
  provider := "postmark"
  providerMessageId := "p"
  providerEventId := eventId
  recordType := eventId
  normalizedKind := none
  statusTarget := some target
  occurredAt := none
  raw := none

def sampleStart : State := ⟨[sampleMessage], [], fun _ => .idle, []⟩

theorem sampleStart_init : (system [sampleMessage]).init sampleStart := by
  refine ⟨rfl, ⟨fun m hm m' hm' _ => ?_, fun m hm m' hm' p _ _ => ?_⟩, rfl, fun _ => rfl, rfl⟩
  all_goals rw [List.mem_singleton.mp hm, List.mem_singleton.mp hm']

/-- **The code does not keep it.** A bounce and a delivery report of one message are
processed at the same time: both read the status `SENT`, the bounce sets `BOUNCED`,
and the delivery report, which still compares with `SENT`, sets `DELIVERED`. -/
theorem stale_read_lowers_status :
    ¬∀ (start : List EmailMessage) (s : State), (system start).Reachable s →
      Faithful start s ∧ ∀ l s', (system start).step s l = some s' → NeverLower s s' := by
  intro hclaim
  let run : List Label :=
    [.stamp "m" ⟨true, some "p", none, none, none⟩,
      .receive 0 (sampleInput "bounce" .bounced), .receive 1 (sampleInput "delivery" .delivered),
      .commit 0 10, .commit 1 20]
  have hrun : ((system [sampleMessage]).exec sampleStart run).isSome = true := rfl
  obtain ⟨s, hreach, hstatus, hbounce⟩ : ∃ s, (system [sampleMessage]).Reachable s ∧
      s.messages = [{ sampleMessage with status := .delivered, providerMessageId := some "p" }] ∧
      Entry.acked (sampleInput "bounce" .bounced) .recorded ∈ s.log :=
    ⟨_, System.exec_reachable sampleStart_init (Option.some_get hrun).symm, rfl,
      .tail _ (.head _)⟩
  obtain ⟨m₀, -, -, htop⟩ := (hclaim [sampleMessage] s hreach).1.status _
    (hstatus ▸ List.mem_singleton_self _)
  -- The bounce was acknowledged, so its rung should be reached.
  have hle : statusRank .bounced ≤ statusRank .delivered :=
    htop ▸ HighWater.le_top (List.mem_map_of_mem hbounce)
  exact absurd hle (by decide)

/-! ### Careful runs -/

/-- **The condition.** A delivery commits a status only while no other has raised the
message above it since the status was read, and a key of the provider names one
event; a result is stamped once, on a message that stands no higher, before any
report of the stamped id is processed. -/
def Careful (s : State) : Label → Prop
  | .commit c _ => ∀ input owner, s.hooks c = .resolved input owner →
      (∀ m ∈ s.messages, m.id = owner.id →
        statusRank owner.status < targetRank input.statusTarget →
          statusRank m.status ≤ targetRank input.statusTarget) ∧
      ∀ input' outcome, .acked input' outcome ∈ s.log → input'.provider = input.provider →
        input'.providerEventId = input.providerEventId →
          input'.providerMessageId = input.providerMessageId ∧
            input'.statusTarget = input.statusTarget
  | .stamp messageId result => ∀ m ∈ s.messages, m.id = messageId →
      m.providerMessageId = none ∧ statusRank m.status ≤ statusRank (stampedStatus result) ∧
      ∀ p, result.providerMessageId = some p →
        (∀ m' ∈ s.messages, m'.providerMessageId ≠ some p) ∧
          ∀ input outcome, .acked input outcome ∈ s.log → input.providerMessageId ≠ p
  | _ => True

/-- **The invariant** of careful runs. -/
structure Inv (start : List EmailMessage) (s : State) : Prop where
  kept : WellKept s.messages
  /-- The status a delivery has read is not above the message's. -/
  reads : ∀ c input owner, s.hooks c = .resolved input owner → ∃ m ∈ s.messages,
    m.id = owner.id ∧ m.workspaceId = owner.workspaceId ∧
      m.providerMessageId = some input.providerMessageId ∧
        statusRank owner.status ≤ statusRank m.status
  /-- The index on the key is unique. -/
  once : ∀ key, s.events.countP (fun e => e.key = key) ≤ 1
  /-- Acknowledged events are in the table, -/
  recorded : ∀ input outcome, .acked input outcome ∈ s.log → ∀ m ∈ s.messages,
    m.providerMessageId = some input.providerMessageId →
      ∃ e ∈ s.events, e.key = input.key m.workspaceId
  /-- and only they are. -/
  origin : ∀ e ∈ s.events, ∃ input outcome, .acked input outcome ∈ s.log ∧
    input.provider = e.provider ∧ input.providerEventId = e.providerEventId
  status : ∀ m ∈ s.messages, ∃ m₀ ∈ start, m₀.id = m.id ∧
    statusRank m.status = HighWater.top (statusRank m₀.status) (s.log.map (Entry.rung m))

variable {start : List EmailMessage} {s s' : State}

theorem Entry.rung_congr {m m' : EmailMessage} (hid : m'.id = m.id)
    (hpid : m'.providerMessageId = m.providerMessageId) : Entry.rung m' = Entry.rung m := by
  funext e
  cases e with
  | acked input outcome => rw [Entry.rung, Entry.rung, hpid]
  | stamped id status => rw [Entry.rung, Entry.rung, hid]

theorem Entry.rung_of_ne {m : EmailMessage} {input : EngagementCaptureInput}
    (h : m.providerMessageId ≠ some input.providerMessageId) (outcome : EngagementOutcome) :
    (Entry.acked input outcome).rung m = 0 :=
  if_neg h

theorem mem_stamped {messages : List EmailMessage} {messageId : String} {result : EngineSendResult}
    {m' : EmailMessage} (h : m' ∈ stampSendResult messages messageId result) :
    ∃ m ∈ messages, m'.id = m.id ∧ m'.workspaceId = m.workspaceId ∧
      ((m.id = messageId ∧ m'.providerMessageId = result.providerMessageId ∧
          m'.status = stampedStatus result) ∨
        (m.id ≠ messageId ∧ m' = m)) := by
  obtain ⟨m, hm, hid, rfl⟩ | ⟨hm, hid⟩ := Framework.Table.mem_update.mp h
  · exact ⟨m, hm, rfl, rfl, .inl ⟨hid, rfl, rfl⟩⟩
  · exact ⟨m', hm, rfl, rfl, .inr ⟨hid, rfl⟩⟩

/-- A change of the rows that keeps their ids and merges no provider ids leaves the
table well kept. -/
theorem WellKept.map {messages : List EmailMessage} (h : WellKept messages)
    (f : EmailMessage → EmailMessage) (hid : ∀ m, (f m).id = m.id)
    (hpid : ∀ m ∈ messages, ∀ m' ∈ messages, ∀ p, (f m).providerMessageId = some p →
      (f m').providerMessageId = some p → m = m') : WellKept (messages.map f) := by
  constructor
  · intro m₁ h₁ m₂ h₂ hsame
    obtain ⟨m, hm, rfl⟩ := List.mem_map.mp h₁
    obtain ⟨m', hm', rfl⟩ := List.mem_map.mp h₂
    rw [hid, hid] at hsame
    rw [h.byId m hm m' hm' hsame]
  · intro m₁ h₁ m₂ h₂ p hp hp'
    obtain ⟨m, hm, rfl⟩ := List.mem_map.mp h₁
    obtain ⟨m', hm', rfl⟩ := List.mem_map.mp h₂
    rw [hpid m hm m' hm' p hp hp']

/-! ### The steps of a careful run -/

theorem Inv.initial (h : (system start).init s) : Inv start s := by
  obtain ⟨hmessages, hkept, hevents, hidle, hlog⟩ := h
  refine ⟨hmessages ▸ hkept, ?_, ?_, ?_, ?_, ?_⟩
  · intro c input owner hc
    rw [hidle] at hc
    cases hc
  · intro key
    rw [hevents]
    exact Nat.zero_le 1
  · intro input outcome hmem
    rw [hlog] at hmem
    cases hmem
  · intro e he
    rw [hevents] at he
    cases he
  · intro m hm
    rw [hlog]
    exact ⟨m, hmessages ▸ hm, rfl, rfl⟩

/-- A delivery moves to where it has read nothing, or a status that is not above the
message's. -/
private theorem Inv.setHook (h : Inv start s) (c : ℕ) (hook : Hook)
    (hreads : ∀ input owner, hook = .resolved input owner → ∃ m ∈ s.messages,
      m.id = owner.id ∧ m.workspaceId = owner.workspaceId ∧
        m.providerMessageId = some input.providerMessageId ∧
          statusRank owner.status ≤ statusRank m.status) :
    Inv start (s.setHook c hook) := by
  refine ⟨h.kept, fun d input owner hd => ?_, h.once, h.recorded, h.origin, h.status⟩
  change Function.update s.hooks c hook d = _ at hd
  rcases update_eq_cases hd with ⟨rfl, hmoved⟩ | ⟨-, hd⟩
  · exact hreads input owner hmoved
  · exact h.reads d input owner hd

/-- An acknowledgement that shows no message a rung above its own. Every message of the
event has it in the table already. -/
private theorem Inv.acknowledge (h : Inv start s) (input : EngagementCaptureInput)
    (outcome : EngagementOutcome)
    (hmatch : ∀ m ∈ s.messages, m.providerMessageId = some input.providerMessageId →
      targetRank input.statusTarget ≤ statusRank m.status ∧
        ∃ e ∈ s.events, e.key = input.key m.workspaceId) :
    Inv start { s with log := s.log ++ [.acked input outcome] } := by
  refine ⟨h.kept, h.reads, h.once, ?_, ?_, ?_⟩
  · intro input' outcome' hmem m hm hpid
    rcases List.mem_append.mp hmem with hmem | hmem
    · exact h.recorded input' outcome' hmem m hm hpid
    · cases List.mem_singleton.mp hmem
      exact (hmatch m hm hpid).2
  · intro e he
    obtain ⟨input', outcome', hmem, hkey⟩ := h.origin e he
    exact ⟨input', outcome', List.mem_append_left _ hmem, hkey⟩
  · intro m hm
    obtain ⟨m₀, hm₀, hid, htop⟩ := h.status m hm
    refine ⟨m₀, hm₀, hid, ?_⟩
    have hle : (Entry.acked input outcome).rung m ≤ statusRank m.status := by
      by_cases hpid : m.providerMessageId = some input.providerMessageId
      · rw [Entry.rung, if_pos hpid]
        exact (hmatch m hm hpid).1
      · rw [Entry.rung_of_ne hpid]
        exact Nat.zero_le _
    rw [List.map_append, List.map_singleton, HighWater.top_append_of_le (htop ▸ hle)]
    exact htop

/-- The message a delivery has read is the only one of its provider id. -/
private theorem Inv.owned (h : Inv start s) {c : ℕ} {input : EngagementCaptureInput}
    {owner : Owner} (hc : s.hooks c = .resolved input owner) {m : EmailMessage}
    (hm : m ∈ s.messages) :
    (m.id = owner.id ↔ m.providerMessageId = some input.providerMessageId) ∧
      (m.id = owner.id → m.workspaceId = owner.workspaceId ∧
        statusRank owner.status ≤ statusRank m.status) := by
  obtain ⟨m₁, hm₁, hid, hworkspace, hpid, hrank⟩ := h.reads c input owner hc
  refine ⟨⟨fun hmid => ?_, fun hmpid => ?_⟩, fun hmid => ?_⟩
  · rw [h.kept.byId m hm m₁ hm₁ (hmid.trans hid.symm)]
    exact hpid
  · rw [h.kept.byProviderId m hm m₁ hm₁ _ hmpid hpid]
    exact hid
  · rw [h.kept.byId m hm m₁ hm₁ (hmid.trans hid.symm)]
    exact ⟨hworkspace, hrank⟩

/-- A redelivery: the event is in the table, and has shown its rung already. -/
private theorem Inv.redeliver (h : Inv start s) {c now : ℕ} {input : EngagementCaptureInput}
    {owner : Owner} (hcareful : Careful s (.commit c now))
    (hc : s.hooks c = .resolved input owner)
    (hdup : ∃ e ∈ s.events, e.key = input.key owner.workspaceId) (outcome : EngagementOutcome) :
    Inv start { s.setHook c .ended with log := s.log ++ [.acked input outcome] } := by
  have hmoved := h.setHook c .ended (fun _ _ heq => by cases heq)
  refine hmoved.acknowledge input outcome (fun m hm hpid => ?_)
  obtain ⟨howner, hsame⟩ := h.owned hc hm
  obtain ⟨hworkspace, -⟩ := hsame (howner.mpr hpid)
  obtain ⟨e, he, hkey⟩ := hdup
  refine ⟨?_, e, he, hworkspace ▸ hkey⟩
  -- The delivery that recorded `e` is in the log, with the same target.
  obtain ⟨input', outcome', hmem, hprovider, hevent⟩ := h.origin e he
  have hfields : e.provider = input.provider ∧ e.providerEventId = input.providerEventId := by
    injection hkey with _ hp he
    exact ⟨hp, he⟩
  obtain ⟨hpid', htarget⟩ := (hcareful input owner hc).2 input' outcome' hmem
    (hprovider.trans hfields.1) (hevent.trans hfields.2)
  have hrung : (Entry.acked input' outcome').rung m = targetRank input.statusTarget := by
    rw [Entry.rung, hpid', htarget]
    exact if_pos hpid
  obtain ⟨m₀, -, -, htop⟩ := h.status m hm
  rw [htop, ← hrung]
  exact HighWater.le_top (List.mem_map_of_mem hmem)

/-- What the transaction makes of the messages: the one owning the event climbs to the
rung targeted, if that is above its own. -/
structure Raised (f : EmailMessage → EmailMessage) (messages : List EmailMessage) (owner : Owner)
    (target : Option EmailMessageStatus) : Prop where
  id : ∀ m, (f m).id = m.id
  workspaceId : ∀ m, (f m).workspaceId = m.workspaceId
  providerMessageId : ∀ m, (f m).providerMessageId = m.providerMessageId
  rank : ∀ m ∈ messages, statusRank (f m).status =
    if m.id = owner.id then max (statusRank m.status) (targetRank target) else statusRank m.status

private theorem Inv.raised (h : Inv start s) {c now : ℕ} {input : EngagementCaptureInput}
    {owner : Owner} {messages : List EmailMessage} (hcareful : Careful s (.commit c now))
    (hc : s.hooks c = .resolved input owner)
    (hmessages : (∃ status, input.statusTarget = some status ∧
        statusRank owner.status < statusRank status ∧
        messages = setStatus s.messages owner.id status) ∨
      (targetRank input.statusTarget ≤ statusRank owner.status ∧ messages = s.messages)) :
    ∃ f, messages = s.messages.map f ∧ Raised f s.messages owner input.statusTarget := by
  rcases hmessages with ⟨status, htarget, hlt, rfl⟩ | ⟨hle, rfl⟩
  · refine ⟨_, rfl, fun m => ?_, fun m => ?_, fun m => ?_, fun m hm => ?_⟩
    · split <;> rfl
    · split <;> rfl
    · split <;> rfl
    · have hrank : targetRank input.statusTarget = statusRank status := by
        rw [htarget]
        rfl
      by_cases hid : m.id = owner.id
      · -- No other delivery has raised the message above the target.
        have hbelow := (hcareful input owner hc).1 m hm hid (hrank ▸ hlt)
        rw [if_pos hid, if_pos hid, max_eq_right hbelow]
        exact hrank.symm
      · rw [if_neg hid, if_neg hid]
  · refine ⟨id, (List.map_id _).symm, fun _ => rfl, fun _ => rfl, fun _ => rfl, fun m hm => ?_⟩
    by_cases hid : m.id = owner.id
    · have hread := ((h.owned hc hm).2 hid).2
      rw [if_pos hid, max_eq_left (hle.trans hread)]
      rfl
    · rw [if_neg hid]
      rfl

/-- A new event is recorded, and its message climbs. -/
private theorem Inv.record (h : Inv start s) {c : ℕ} {input : EngagementCaptureInput}
    {owner : Owner} (hc : s.hooks c = .resolved input owner)
    {f : EmailMessage → EmailMessage} (hf : Raised f s.messages owner input.statusTarget)
    {event : EmailEngagementEvent} (hkey : event.key = input.key owner.workspaceId)
    (hnew : ∀ e ∈ s.events, e.key ≠ input.key owner.workspaceId) (outcome : EngagementOutcome) :
    Inv start { s.setHook c .ended with
      messages := s.messages.map f, events := s.events ++ [event]
      log := s.log ++ [.acked input outcome] } := by
  have hclimb : ∀ m ∈ s.messages, statusRank m.status ≤ statusRank (f m).status := by
    intro m hm
    rw [hf.rank m hm]
    split
    · exact le_max_left _ _
    · exact le_refl _
  refine ⟨?_, ?_, ?_, ?_, ?_, ?_⟩
  · refine h.kept.map f hf.id (fun m hm m' hm' p hp hp' => ?_)
    rw [hf.providerMessageId] at hp hp'
    exact h.kept.byProviderId m hm m' hm' p hp hp'
  · intro d input' owner' hd
    change Function.update s.hooks c .ended d = _ at hd
    rcases update_eq_cases hd with ⟨rfl, hmoved⟩ | ⟨-, hd⟩
    · cases hmoved
    · obtain ⟨m, hm, hid, hworkspace, hpid, hrank⟩ := h.reads d input' owner' hd
      exact ⟨f m, List.mem_map_of_mem hm, (hf.id m).trans hid,
        (hf.workspaceId m).trans hworkspace, (hf.providerMessageId m).trans hpid,
        hrank.trans (hclimb m hm)⟩
  · intro key
    change (s.events ++ [event]).countP _ ≤ 1
    rw [List.countP_append, List.countP_singleton]
    by_cases heq : event.key = key
    · have hzero : s.events.countP (fun e => e.key = key) = 0 :=
        List.countP_eq_zero.mpr fun e he => by
          rw [decide_eq_true_eq, ← heq, hkey]
          exact hnew e he
      rw [hzero]
      split <;> decide
    · rw [if_neg (by simpa using heq)]
      exact h.once key
  · intro input' outcome' hmem m' hm' hpid
    obtain ⟨m, hm, rfl⟩ := List.mem_map.mp hm'
    rw [hf.providerMessageId] at hpid
    rw [hf.workspaceId]
    rcases List.mem_append.mp hmem with hmem | hmem
    · obtain ⟨e, he, hkey'⟩ := h.recorded input' outcome' hmem m hm hpid
      exact ⟨e, List.mem_append_left _ he, hkey'⟩
    · cases List.mem_singleton.mp hmem
      obtain ⟨howner, hsame⟩ := h.owned hc hm
      rw [(hsame (howner.mpr hpid)).1]
      exact ⟨event, List.mem_append_right _ (List.mem_singleton_self _), hkey⟩
  · intro e he
    rcases List.mem_append.mp he with he | he
    · obtain ⟨input', outcome', hmem, hfields⟩ := h.origin e he
      exact ⟨input', outcome', List.mem_append_left _ hmem, hfields⟩
    · rw [List.mem_singleton.mp he]
      injection hkey with _ hprovider hevent
      exact ⟨input, outcome, List.mem_append_right _ (List.mem_singleton_self _),
        hprovider.symm, hevent.symm⟩
  · intro m' hm'
    obtain ⟨m, hm, rfl⟩ := List.mem_map.mp hm'
    obtain ⟨m₀, hm₀, hid, htop⟩ := h.status m hm
    refine ⟨m₀, hm₀, hid.trans (hf.id m).symm, ?_⟩
    rw [hf.rank m hm, Entry.rung_congr (hf.id m) (hf.providerMessageId m)]
    change _ = HighWater.top _ ((s.log ++ [_]).map _)
    rw [List.map_append, List.map_singleton, HighWater.top_append_singleton, ← htop, Entry.rung]
    have howner := (h.owned hc hm).1
    by_cases hmid : m.id = owner.id
    · rw [if_pos hmid, if_pos (howner.mp hmid)]
    · rw [if_neg hmid, if_neg (mt howner.mpr hmid), max_eq_left (Nat.zero_le _)]

/-- A stamp: the message stands no higher, and no report of the stamped id was
acknowledged. -/
private theorem Inv.stamp (h : Inv start s) {messageId : String} {result : EngineSendResult}
    (hcareful : Careful s (.stamp messageId result)) :
    Inv start { s with
      messages := stampSendResult s.messages messageId result
      log := s.log ++ [.stamped messageId (stampedStatus result)] } := by
  have hacked : ∀ {input outcome},
      .acked input outcome ∈ s.log ++ [.stamped messageId (stampedStatus result)] →
        .acked input outcome ∈ s.log := by
    intro input outcome hmem
    rcases List.mem_append.mp hmem with hmem | hmem
    · exact hmem
    · cases List.mem_singleton.mp hmem
  refine ⟨?_, ?_, h.once, ?_, ?_, ?_⟩
  · refine h.kept.map _ (fun m => by split <;> rfl) (fun m hm m' hm' p hp hp' => ?_)
    by_cases hid : m.id = messageId <;> by_cases hid' : m'.id = messageId
    · exact h.kept.byId m hm m' hm' (hid.trans hid'.symm)
    · rw [if_pos hid] at hp
      rw [if_neg hid'] at hp'
      exact absurd hp' (((hcareful m hm hid).2.2 p hp).1 m' hm')
    · rw [if_neg hid] at hp
      rw [if_pos hid'] at hp'
      exact absurd hp (((hcareful m' hm' hid').2.2 p hp').1 m hm)
    · rw [if_neg hid] at hp
      rw [if_neg hid'] at hp'
      exact h.kept.byProviderId m hm m' hm' p hp hp'
  · intro c input owner hc
    obtain ⟨m, hm, hid, hworkspace, hpid, hrank⟩ := h.reads c input owner hc
    -- A message with a provider id is not stamped again.
    have hne : m.id ≠ messageId := by
      intro hmid
      rw [(hcareful m hm hmid).1] at hpid
      cases hpid
    refine ⟨m, ?_, hid, hworkspace, hpid, hrank⟩
    have hmem := List.mem_map_of_mem (f := fun m => if m.id = messageId then
      { m with status := stampedStatus result, providerMessageId := result.providerMessageId
               threadId := result.threadId.or m.threadId } else m) hm
    simp only [if_neg hne] at hmem
    exact hmem
  · intro input outcome hmem m' hm' hpid
    obtain ⟨m, hm, -, hworkspace, ⟨hid, hstamped, -⟩ | ⟨-, rfl⟩⟩ := mem_stamped hm'
    · rw [hstamped] at hpid
      exact absurd rfl (((hcareful m hm hid).2.2 _ hpid).2 input outcome (hacked hmem))
    · exact h.recorded input outcome (hacked hmem) m' hm hpid
  · intro e he
    obtain ⟨input, outcome, hmem, hfields⟩ := h.origin e he
    exact ⟨input, outcome, List.mem_append_left _ hmem, hfields⟩
  · intro m' hm'
    obtain ⟨m, hm, hsame, -, hcases⟩ := mem_stamped hm'
    obtain ⟨m₀, hm₀, hid₀, htop⟩ := h.status m hm
    refine ⟨m₀, hm₀, hid₀.trans hsame.symm, ?_⟩
    change _ = HighWater.top _ ((s.log ++ [_]).map _)
    rw [List.map_append, List.map_singleton]
    rcases hcases with ⟨hid, hpid, hstatus⟩ | ⟨hne, rfl⟩
    · obtain ⟨hunsent, hbelow, hfresh⟩ := hcareful m hm hid
      -- The log shows the message the same rungs before and after it has its provider id.
      have hrungs : s.log.map (Entry.rung m') = s.log.map (Entry.rung m) := by
        refine List.map_congr_left (fun e he => ?_)
        cases e with
        | acked input outcome =>
          rw [Entry.rung_of_ne, Entry.rung_of_ne]
          · rw [hunsent]
            exact fun heq => by cases heq
          · rw [hpid]
            exact fun heq => (hfresh _ heq).2 input outcome he rfl
        | stamped id status => rw [Entry.rung, Entry.rung, hsame]
      have hshown : (Entry.stamped messageId (stampedStatus result)).rung m' =
          statusRank (stampedStatus result) :=
        if_pos (hid.symm.trans hsame.symm)
      rw [hrungs, hshown, hstatus, HighWater.top_append_of_ge (htop ▸ hbelow)]
    · have hshown : (Entry.stamped messageId (stampedStatus result)).rung m' = 0 :=
        if_neg fun heq => hne heq.symm
      rw [hshown, HighWater.top_append_of_le (Nat.zero_le _)]
      exact htop

/-- A careful step keeps the invariant and lowers no status. -/
theorem Inv.step (h : Inv start s) {l : Label} (hcareful : Careful s l)
    (hs : (system start).step s l = some s') : Inv start s' ∧ NeverLower s s' := by
  have hsame : ∀ {t : State}, t.messages = s.messages → NeverLower s t :=
    fun heq m hm => ⟨m, heq ▸ hm, rfl, le_refl _⟩
  rcases step_eq_some hs with ⟨c, input, rfl, hc, ⟨hnone, rfl⟩ | ⟨owner, howner, rfl⟩⟩ |
    ⟨c, now, input, owner, result, messages, events, rfl, hc, hcapture, rfl⟩ |
    ⟨c, rfl, rfl⟩ | ⟨messageId, result, rfl, rfl⟩
  · have hmoved := h.setHook c .ended (fun _ _ heq => by cases heq)
    refine ⟨hmoved.acknowledge input .unmatched (fun m hm hpid => ?_), hsame rfl⟩
    exact absurd hpid (resolveOwner_none hnone m hm)
  · refine ⟨h.setHook c _ (fun input' owner' heq => ?_), hsame rfl⟩
    cases heq
    obtain ⟨m, hm, hpid, hid, hworkspace, hstatus⟩ := resolveOwner_some howner
    exact ⟨m, hm, hid, hworkspace, hpid, (congrArg statusRank hstatus).ge⟩
  · rcases captureEvent_cases s.messages s.events owner input now with
      ⟨hdup, hresult⟩ | ⟨hnew, result', event, messages', hresult, -, hkey, hmessages⟩
    · rw [hresult] at hcapture
      cases hcapture
      exact ⟨h.redeliver hcareful hc hdup _, hsame rfl⟩
    · rw [hresult] at hcapture
      cases hcapture
      obtain ⟨f, rfl, hf⟩ := h.raised hcareful hc hmessages
      refine ⟨h.record hc hf hkey hnew _, fun m hm => ?_⟩
      refine ⟨f m, List.mem_map_of_mem hm, hf.id m, ?_⟩
      rw [hf.rank m hm]
      split
      · exact le_max_left _ _
      · exact le_refl _
  · exact ⟨h.setHook c .ended (fun _ _ heq => by cases heq), hsame rfl⟩
  · refine ⟨h.stamp hcareful, fun m hm => ⟨_, List.mem_map_of_mem hm, ?_⟩⟩
    by_cases hid : m.id = messageId
    · rw [if_pos hid]
      exact ⟨rfl, (hcareful m hm hid).2.1⟩
    · rw [if_neg hid]
      exact ⟨rfl, le_refl _⟩

theorem inv_of_careful (hreach : (system start).ReachableUnder Careful s) : Inv start s :=
  hreach.invariant (fun _ hinit => Inv.initial hinit)
    (fun _ _ _ _ ih hcareful hs => (ih.step hcareful hs).1)

/-- **Careful runs are faithful.** In every state of a run whose steps are careful, each
acknowledged event of a message is in the table once, and the message stands on the
highest rung it was shown; and no careful step lowers a status. -/
theorem statuses_follow_events (hreach : (system start).ReachableUnder Careful s) :
    Faithful start s ∧
      ∀ l s', Careful s l → (system start).step s l = some s' → NeverLower s s' := by
  have hinv := inv_of_careful hreach
  refine ⟨⟨fun input outcome hmem m hm hpid => ?_, hinv.status⟩,
    fun l s' hcareful hs => (hinv.step hcareful hs).2⟩
  obtain ⟨e, he, hkey⟩ := hinv.recorded input outcome hmem m hm hpid
  have hpos : 0 < s.events.countP (fun e => e.key = input.key m.workspaceId) :=
    List.countP_pos_iff.mpr ⟨e, he, decide_eq_true hkey⟩
  exact Nat.le_antisymm (hinv.once _) hpos

/-- A send is stamped, its delivery report comes twice and its bounce last: two events
are recorded, and the message has bounced. -/
theorem statuses_follow_events_run :
    ∃ s : State, s.messages.map (·.status) = [.bounced] ∧ s.events.length = 2 ∧
      Faithful [sampleMessage] s := by
  have r := (System.ReachableUnder.init sampleStart_init :
    (system [sampleMessage]).ReachableUnder Careful sampleStart)
  have r := r.next (.stamp "m" ⟨true, some "p", none, none, none⟩)
    (fun m hm _ => by
      cases List.mem_singleton.mp hm
      refine ⟨rfl, by decide, fun p _ => ⟨fun m' hm' => ?_, fun _ _ hmem => by cases hmem⟩⟩
      rw [List.mem_singleton.mp hm']
      exact fun heq => by cases heq) rfl
  have r := r.next (.receive 0 (sampleInput "delivery" .delivered)) trivial rfl
  have r := r.next (.receive 1 (sampleInput "delivery" .delivered)) trivial rfl
  have r := r.next (.commit 0 10)
    (fun input owner hc => by
      cases hc
      refine ⟨fun m hm _ _ => ?_, fun input' outcome hmem _ _ => ?_⟩
      · rw [List.mem_singleton.mp hm]
        decide
      · cases List.mem_singleton.mp hmem) rfl
  have r := r.next (.commit 1 20)
    (fun input owner hc => by
      cases hc
      refine ⟨fun m hm _ _ => ?_, fun input' outcome hmem _ _ => ?_⟩
      · rw [List.mem_singleton.mp hm]
        decide
      · cases hmem with
        | tail _ hmem =>
          cases List.mem_singleton.mp hmem
          exact ⟨rfl, rfl⟩) rfl
  have r := r.next (.receive 2 (sampleInput "bounce" .bounced)) trivial rfl
  have r := r.next (.commit 2 30)
    (fun input owner hc => by
      cases hc
      refine ⟨fun m hm _ _ => ?_, fun input' outcome hmem _ hevent => ?_⟩
      · rw [List.mem_singleton.mp hm]
        decide
      · cases hmem with
        | tail _ hmem =>
          cases hmem with
          | head => exact absurd hevent (by decide)
          | tail _ hmem =>
            cases List.mem_singleton.mp hmem
            exact absurd hevent (by decide)) rfl
  exact ⟨_, rfl, rfl, (statuses_follow_events r).1⟩

end Engagement
end EmailOps
