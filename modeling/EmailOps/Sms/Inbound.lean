import EmailOps.Framework.System
import EmailOps.Sms.Service

/-!
# Deliveries of an inbound text message

The provider posts an inbound message to the webhook, and again until it is acknowledged.
Any number of calls of `recordInboundSms` run side by side: each resolves the line, looks in
its transaction for a row of the message, and stores one where it found none.

* There is no unique index on the provider's id of a message, and the one on the source and
  reference of a message leaves out inbound ones, so that the database refuses no second row.
* `Once` is the guarantee: a message that was answered for has one row, and was counted once.
* `overtaken` says that a delivery is about to store its row after another one of the same
  message has, since the lookup. `once_iff_not_overtaken`: a run leaves each message once if
  and only if none of its deliveries is.
-/

namespace EmailOps
namespace Sms
namespace Inbound

open Framework

/-! ### Rows and calls -/

/-- A row of the messages, composed or received. Times are in milliseconds. -/
structure SmsMessage where
  id : String
  workspaceId : String
  smsAccountId : Option String
  mode : EmailMode
  status : SmsDeliveryStatus
  direction : EmailDirection
  fromPhoneNumber : Option Text
  toPhoneNumber : Option Text
  body : Option Text
  preview : Option Text
  providerMessageId : Option String
  receivedAt : Option ℕ

structure InboundSmsInput where
  /-- The provider's id of the message, the same on each redelivery. -/
  providerMessageId : String
  fromPhoneNumber : Text
  toPhoneNumber : Text
  body : Text
  occurredAt : Option ℕ

inductive Outcome where
  | recorded | duplicate | unmatched
  deriving DecidableEq, Repr

structure InboundSmsResult where
  outcome : Outcome
  workspaceId : Option String
  smsMessageId : Option String
  deriving DecidableEq

/-- Is the row one of the inbound message? -/
def SmsMessage.isOf (providerMessageId : String) (m : SmsMessage) : Bool :=
  m.providerMessageId = some providerMessageId && m.direction = .received

/-- The row that a delivery stores. -/
def InboundSmsInput.message (input : InboundSmsInput) (account : SmsAccount) (id : String)
    (now : ℕ) : SmsMessage where
  id := id
  workspaceId := account.workspaceId
  smsAccountId := some account.id
  mode := .send
  status := .delivered
  direction := .received
  fromPhoneNumber := some input.fromPhoneNumber
  toPhoneNumber := some input.toPhoneNumber
  body := some input.body
  preview := snippet (some input.body)
  providerMessageId := some input.providerMessageId
  receivedAt := some (input.occurredAt.getD now)

/-- Where a call stands. -/
inductive Call where
  | idle
  /-- It knows the account of the line. -/
  | resolved (input : InboundSmsInput) (account : SmsAccount)
  /-- It has found no row of the message. -/
  | missed (input : InboundSmsInput) (account : SmsAccount)
  /-- It has answered or failed. -/
  | ended

/-- What a call answered about a message. -/
structure Answer where
  providerMessageId : String
  result : InboundSmsResult
  deriving DecidableEq

structure State where
  accounts : List SmsAccount
  messages : List SmsMessage
  calls : ℕ → Call
  /-- Oldest first. -/
  answers : List Answer

def State.moveTo (s : State) (c : ℕ) (call : Call) : State :=
  { s with calls := Function.update s.calls c call }

/-- A call ends with an answer. -/
def State.answer (s : State) (c : ℕ) (providerMessageId : String) (result : InboundSmsResult) :
    State :=
  { s.moveTo c .ended with answers := s.answers ++ [⟨providerMessageId, result⟩] }

/-- The rows of an inbound message. -/
def State.stored (s : State) (providerMessageId : String) : ℕ :=
  s.messages.countP (·.isOf providerMessageId)

/-- How often an inbound message was counted. -/
def State.recorded (s : State) (providerMessageId : String) : ℕ :=
  s.answers.countP fun a =>
    a.providerMessageId = providerMessageId && a.result.outcome = .recorded

/-! ### The protocol -/

inductive Label where
  /-- A delivery arrives, and its line is resolved. -/
  | resolve (c : ℕ) (input : InboundSmsInput)
  /-- The lookup in the transaction. -/
  | lookUp (c : ℕ)
  /-- The row is created, and the transaction committed. -/
  | store (c : ℕ) (id : String) (now : ℕ)
  /-- The call throws, or its process dies, and the transaction is rolled back. -/
  | fail (c : ℕ)
  /-- The rest of the program writes the messages that are not inbound. -/
  | outbound (messages : List SmsMessage)
  | accounts (accounts : List SmsAccount)

/-- The account of the line that a message came in on. -/
def resolveLine (accounts : List SmsAccount) (toPhoneNumber : Text) : Option SmsAccount :=
  accounts.find? fun a => a.phoneNumber = toPhoneNumber && a.active

/-- One step. -/
def step (s : State) : Label → Option State
  | .resolve c input =>
    match s.calls c with
    | .idle =>
      match resolveLine s.accounts input.toPhoneNumber with
      | some account => some (s.moveTo c (.resolved input account))
      | none => some (s.answer c input.providerMessageId ⟨.unmatched, none, none⟩)
    | _ => none
  | .lookUp c =>
    match s.calls c with
    | .resolved input account =>
      match s.messages.find? (·.isOf input.providerMessageId) with
      | some already =>
        some (s.answer c input.providerMessageId
          ⟨.duplicate, some account.workspaceId, some already.id⟩)
      | none => some (s.moveTo c (.missed input account))
    | _ => none
  | .store c id now =>
    match s.calls c with
    | .missed input account =>
      -- The id is a new one, so that no unique index is in the way.
      if s.messages.any (·.id = id) then none
      else
        some (State.answer { s with messages := s.messages ++ [input.message account id now] } c
          input.providerMessageId ⟨.recorded, some account.workspaceId, some id⟩)
    | _ => none
  | .fail c => some (s.moveTo c .ended)
  | .outbound messages =>
    if messages.any (·.direction = .received) then none
    else some { s with messages := s.messages.filter (·.direction = .received) ++ messages }
  | .accounts accounts => some { s with accounts := accounts }

/-- The protocol. Initially no message was received. -/
def system : System State Label where
  init s := (∀ m ∈ s.messages, m.direction ≠ .received) ∧ (∀ c, s.calls c = .idle) ∧
    s.answers = []
  step := step

/-- A message that was answered for has one row, and was counted once. A line that is no
account's is not ours to store. -/
def Once (s : State) : Prop :=
  ∀ a ∈ s.answers, a.result.outcome ≠ .unmatched →
    s.stored a.providerMessageId = 1 ∧ s.recorded a.providerMessageId = 1

/-- The delivery is about to store its row, and another one of the same message has stored
one since the lookup. -/
def overtaken (s : State) : Label → Bool
  | .store c _ _ =>
    match s.calls c with
    | .missed input _ => 0 < s.stored input.providerMessageId
    | _ => false
  | _ => false

/-! ### What a step does to the counts -/

variable {s s' : State} {l : Label} {providerMessageId : String}

/-- What a step does to the rows of the inbound messages and to the answers. -/
inductive Effect (s : State) (l : Label) (s' : State) : Prop
  | quiet (hrows : s'.stored = s.stored) (hanswers : s'.answers = s.answers)
      (hovertaken : overtaken s l = false)
  /-- A delivery answers without a row of its own. -/
  | passed (a : Answer) (hrows : s'.stored = s.stored) (hanswers : s'.answers = s.answers ++ [a])
      (hnew : a.result.outcome ≠ .recorded)
      (hold : a.result.outcome ≠ .unmatched → 0 < s.stored a.providerMessageId)
      (hovertaken : overtaken s l = false)
  /-- A delivery stores a row. -/
  | stored (a : Answer)
      (hrows : ∀ id, s'.stored id = s.stored id + if a.providerMessageId = id then 1 else 0)
      (hanswers : s'.answers = s.answers ++ [a]) (hnew : a.result.outcome = .recorded)
      (hovertaken : overtaken s l = decide (0 < s.stored a.providerMessageId))

theorem isOf_message {id : String} {input : InboundSmsInput} {account : SmsAccount} {now : ℕ} :
    (input.message account id now).isOf providerMessageId =
      decide (input.providerMessageId = providerMessageId) := by
  simp [SmsMessage.isOf, InboundSmsInput.message]

/-- The rest of the program leaves the inbound messages alone. -/
theorem countP_outbound {rows messages : List SmsMessage}
    (h : messages.any (·.direction = .received) = false) :
    (rows.filter (·.direction = .received) ++ messages).countP (·.isOf providerMessageId) =
      rows.countP (·.isOf providerMessageId) := by
  have hnone : messages.countP (·.isOf providerMessageId) = 0 := by
    rw [List.countP_eq_zero]
    intro m hm
    have hdirection := List.any_eq_false.mp h m hm
    simp_all [SmsMessage.isOf]
  rw [List.countP_append, hnone, Nat.add_zero, List.countP_filter]
  refine List.countP_congr fun m _ => ?_
  simp [SmsMessage.isOf]

theorem effect_of_step (h : step s l = some s') : Effect s l s' := by
  cases l with
  | resolve c input =>
    simp only [step] at h
    split at h
    · split at h
      · cases h
        exact .quiet rfl rfl rfl
      · cases h
        exact .passed _ rfl rfl nofun (fun hne => absurd rfl hne) rfl
    · cases h
  | lookUp c =>
    simp only [step] at h
    split at h
    · split at h
      · next already hfind =>
        cases h
        refine .passed _ rfl rfl nofun (fun _ => ?_) rfl
        exact List.countP_pos_iff.mpr ⟨already, List.mem_of_find?_eq_some hfind,
          List.find?_some hfind⟩
      · cases h
        exact .quiet rfl rfl rfl
    · cases h
  | store c id now =>
    simp only [step] at h
    split at h
    · next input account hcall =>
      split at h
      · cases h
      · cases h
        refine .stored _ (fun id => ?_) rfl rfl (by simp only [overtaken, hcall])
        simp [State.stored, State.answer, State.moveTo, isOf_message]
    · cases h
  | fail c =>
    cases h
    exact .quiet rfl rfl rfl
  | outbound messages =>
    simp only [step] at h
    split at h
    · cases h
    · next hany =>
      cases h
      refine .quiet (funext fun _ => ?_) rfl rfl
      exact countP_outbound (Bool.eq_false_iff.mpr hany)
  | accounts accounts =>
    cases h
    exact .quiet rfl rfl rfl

/-! ### Runs -/

/-- The invariant: each message has one row at most, was counted as often as it has rows, and
has one if it was answered for. -/
structure Inv (s : State) : Prop where
  le_one : ∀ id, s.stored id ≤ 1
  counted : ∀ id, s.recorded id = s.stored id
  answered : ∀ a ∈ s.answers, a.result.outcome ≠ .unmatched → 0 < s.stored a.providerMessageId

/-- A message that was answered for has two rows. -/
def Doubled (s : State) : Prop :=
  ∃ a ∈ s.answers, a.result.outcome ≠ .unmatched ∧ 2 ≤ s.stored a.providerMessageId

theorem Inv.once (h : Inv s) : Once s := by
  intro a ha hmatched
  have hpos := h.answered a ha hmatched
  have hle := h.le_one a.providerMessageId
  have hone : s.stored a.providerMessageId = 1 := by omega
  exact ⟨hone, (h.counted _).trans hone⟩

theorem Doubled.not_once (h : Doubled s) : ¬Once s := by
  obtain ⟨a, ha, hmatched, htwo⟩ := h
  intro honce
  have hone := (honce a ha hmatched).1
  omega

theorem Inv.of_init (h : system.init s) : Inv s := by
  obtain ⟨hrows, -, hanswers⟩ := h
  have hnone : ∀ id, s.stored id = 0 := by
    intro id
    refine List.countP_eq_zero.mpr fun m hm => ?_
    simp [SmsMessage.isOf, hrows m hm]
  refine ⟨fun id => ?_, fun id => ?_, ?_⟩
  · exact (hnone id).trans_le zero_le_one
  · rw [hnone, State.recorded, hanswers, List.countP_nil]
  · simp [hanswers]

theorem recorded_append {a : Answer} (h : s'.answers = s.answers ++ [a]) (id : String) :
    s'.recorded id = s.recorded id +
      if a.providerMessageId = id ∧ a.result.outcome = .recorded then 1 else 0 := by
  simp [State.recorded, h]

/-- A step at which no delivery is overtaken. -/
theorem Inv.step (h : Inv s) (hstep : step s l = some s') (hl : overtaken s l = false) :
    Inv s' := by
  cases effect_of_step hstep with
  | quiet hrows hanswers _ =>
    refine ⟨fun id => ?_, fun id => ?_, ?_⟩
    · rw [hrows]
      exact h.le_one id
    · rw [hrows, State.recorded, hanswers]
      exact h.counted id
    · rw [hrows, hanswers]
      exact h.answered
  | passed a hrows hanswers hnew hold _ =>
    refine ⟨fun id => ?_, fun id => ?_, fun b hb hmatched => ?_⟩
    · rw [hrows]
      exact h.le_one id
    · rw [hrows, recorded_append hanswers, if_neg fun hrec => hnew hrec.2]
      exact h.counted id
    · rw [hrows]
      rw [hanswers, List.mem_append, List.mem_singleton] at hb
      rcases hb with hb | rfl
      · exact h.answered b hb hmatched
      · exact hold hmatched
  | stored a hrows hanswers hnew hovertaken =>
    have hfirst : s.stored a.providerMessageId = 0 := by simpa [hovertaken] using hl
    refine ⟨fun id => ?_, fun id => ?_, fun b hb hmatched => ?_⟩
    · have hle := h.le_one id
      rw [hrows]
      split
      · next heq => rw [← heq, hfirst]
      · exact hle
    · rw [hrows, recorded_append hanswers, h.counted]
      simp [hnew]
    · rw [hrows]
      rw [hanswers, List.mem_append, List.mem_singleton] at hb
      rcases hb with hb | rfl
      · have hpos := h.answered b hb hmatched
        omega
      · rw [if_pos rfl]
        omega

/-- A step at which a delivery is overtaken. -/
theorem doubled_of_overtaken (hstep : step s l = some s') (hl : overtaken s l = true) :
    Doubled s' := by
  cases effect_of_step hstep with
  | quiet _ _ hovertaken => rw [hovertaken] at hl; cases hl
  | passed _ _ _ _ _ hovertaken => rw [hovertaken] at hl; cases hl
  | stored a hrows hanswers hnew hovertaken =>
    have hrow : 0 < s.stored a.providerMessageId := by simpa [hovertaken] using hl
    refine ⟨a, by simp [hanswers], by simp [hnew], ?_⟩
    rw [hrows, if_pos rfl]
    omega

/-- Rows of inbound messages are not taken back. -/
theorem Doubled.step (h : Doubled s) (hstep : Inbound.step s l = some s') : Doubled s' := by
  obtain ⟨a, ha, hmatched, htwo⟩ := h
  have hkept := effect_of_step hstep
  refine ⟨a, ?_, hmatched, ?_⟩
  · cases hkept with
    | quiet hrows hanswers _ => exact hanswers ▸ ha
    | passed b hrows hanswers _ _ _ => exact hanswers ▸ List.mem_append_left _ ha
    | stored b hrows hanswers _ _ => exact hanswers ▸ List.mem_append_left _ ha
  · cases hkept with
    | quiet hrows hanswers _ => exact hrows ▸ htwo
    | passed b hrows hanswers _ _ _ => exact hrows ▸ htwo
    | stored b hrows hanswers _ _ => exact (hrows _).symm ▸ Nat.le_add_right_of_le htwo

/-- **A run leaves each message once if and only if no delivery of it is overtaken.** -/
theorem once_iff_not_overtaken {ls : List Label} (h : system.init s)
    (hrun : system.exec s ls = some s') :
    Once s' ↔ system.execUnder (fun s l => overtaken s l = false) s ls = some s' := by
  refine System.exec_iff_execUnder Inv Doubled ?_ ?_ ?_ ?_ ?_ (Inv.of_init h) hrun
  · exact fun s l s' hs hl hstep => hs.step hstep hl
  · exact fun s l s' _ hl hstep => doubled_of_overtaken hstep (by simpa using hl)
  · exact fun s l s' hs hstep => hs.step hstep
  · exact fun s hs => hs.once
  · exact fun s hs => hs.not_once

/-! ### Two deliveries side by side -/

def sampleInput : InboundSmsInput where
  providerMessageId := "SM1"
  fromPhoneNumber := "+15551112222".toList
  toPhoneNumber := "+15550100".toList
  body := "hi".toList
  occurredAt := none

/-- One account, and nothing stored. -/
def sampleState : State where
  accounts :=
    [{ id := "a1", workspaceId := "w1", phoneNumber := "+15550100".toList, isDefault := true
       active := true, createdAt := 0 }]
  messages := []
  calls _ := .idle
  answers := []

/-- Two deliveries look for the message before either has stored it. -/
def sideBySide : List Label :=
  [.resolve 0 sampleInput, .resolve 1 sampleInput, .lookUp 0, .lookUp 1, .store 0 "m1" 10,
    .store 1 "m2" 11]

/-- The second delivery looks for the message when the first has stored it. -/
def oneByOne : List Label :=
  [.resolve 0 sampleInput, .resolve 1 sampleInput, .lookUp 0, .store 0 "m1" 10, .lookUp 1]

theorem sampleState_init : system.init sampleState :=
  ⟨by simp [sampleState], fun _ => rfl, rfl⟩

/-- The message is stored twice, and counted twice. -/
theorem stored_twice :
    ∃ s', system.init sampleState ∧ system.exec sampleState sideBySide = some s' ∧ ¬Once s' ∧
      s'.stored "SM1" = 2 ∧ s'.recorded "SM1" = 2 := by
  refine ⟨_, sampleState_init, rfl, ?_, rfl, rfl⟩
  intro honce
  have hone := honce ⟨"SM1", ⟨.recorded, some "w1", some "m1"⟩⟩ (by decide) nofun
  exact absurd hone.1 (by decide)

theorem once_oneByOne :
    ∃ s', system.exec sampleState oneByOne = some s' ∧ Once s' := by
  have hrun : system.exec sampleState oneByOne = some _ := rfl
  exact ⟨_, hrun, (once_iff_not_overtaken sampleState_init hrun).mpr rfl⟩

end Inbound
end Sms
end EmailOps
