import EmailOps.AgentReply.Protocol
import EmailOps.Inbound.Poll

/-!
# The inbound watcher

The watcher of one mailbox: a poll asks for a page of the inbox, works through the messages it
finds new, one after the other, and at its end writes its cursor. Meanwhile messages arrive,
leave the inbox and come back, and the replies that were handed over are written.

For a message the poll first has it classified, which may throw; then it calls the mail engine
for the actions of the rules that fire and bumps their hit counters, where every failure is
caught; then it hands the message of an agent's mailbox over to the reply runtime.

* `Inbound.system` is the protocol, `Moves` what a step does.
* `State.watched`, `State.returned` and `State.effects` remember what arrived once the watcher
  had begun, what the polls returned, and what was done about each message.
-/

namespace EmailOps
namespace Inbound

open Framework

/-! ### The protocol -/

/-- The mailbox watched. -/
structure WatchedMailbox where
  id : String
  workspaceId : String
  emailAddress : Text
  ownerKind : MailboxOwnerKind

/-- How a call of the engine ends: it is done, the engine declines, or it throws. -/
inductive CallOutcome where
  | applied | declined | threw
  deriving DecidableEq

/-- Where a poll stands with a message. -/
inductive Stage where
  | classify
  /-- The engine calls still to be made, and then the counters of the rules. -/
  | rules (calls : List EngineCall) (ids : List String)
  | handOff

/-- A poll under way. -/
structure Poll where
  /-- The cursor it will write. -/
  cursor : Text
  /-- The rules of the mailbox, loaded once for the sweep. -/
  rules : List MailRuleRow
  /-- The messages it returned. -/
  messages : List JmapEmail
  /-- Those it is not through with, the one under work first. -/
  todo : List JmapEmail
  stage : Stage

/-- Something that was done about a message. -/
inductive Effect where
  | called (m : JmapEmail) (call : EngineCall) (outcome : CallOutcome)
  | bumped (m : JmapEmail) (ruleIds : List String)
  | handedOver (m : JmapEmail)

/-- The state of the protocol. -/
structure State (Caller : Type) where
  inbox : List JmapEmail
  /-- The `inboundCursor` column. -/
  cursor : Option Text
  poll : Option Poll
  /-- The messages that arrived once the watcher had a cursor. -/
  watched : List JmapEmail
  /-- The messages the polls returned, oldest first. -/
  returned : List JmapEmail
  effects : List Effect
  replies : AgentReply.State Caller

/-- The steps of the protocol. -/
inductive Label (Caller : Type) where
  /-- A message is delivered. -/
  | arrive (m : JmapEmail)
  /-- A message is moved out of the inbox, by its owner or by an engine call. -/
  | leave (m : JmapEmail)
  /-- A message is moved back into the inbox. -/
  | restore (m : JmapEmail)
  /-- A poll begins: the engine answers with the inbox in this order. -/
  | poll (order : List JmapEmail) (nowIso : Text) (rules : List MailRuleRow)
  /-- The message is classified, or the classifier throws and the poll breaks off. -/
  | classify (ok : Bool)
  /-- The next engine call of the rules. -/
  | act (outcome : CallOutcome)
  /-- The hit counters are bumped, or the update fails. -/
  | bump (ok : Bool)
  /-- The message is handed over to the reply runtime. -/
  | handOff (c : Caller)
  /-- The poll ends: the cursor is written, or the write throws. -/
  | advance (ok : Bool)
  /-- The process of the watcher dies. -/
  | crash
  /-- A step of the replies that were handed over. -/
  | reply (l : AgentReply.Label Caller)

variable {Caller : Type} [DecidableEq Caller]

/-- The cursor of the poll under way, or else the one stored. -/
def State.mark (s : State Caller) : Option Text :=
  match s.poll with
  | some p => some p.cursor
  | none => s.cursor

/-- The mailbox, for the reply runtime. -/
def WatchedMailbox.replyRef (mb : WatchedMailbox) : AgentReply.AgentReplyMailboxRef where
  id := mb.id
  emailAddress := mb.emailAddress
  workspaceId := mb.workspaceId

/-- A message, for the reply runtime. -/
def InboundMessageRef.replyMsg (ref : InboundMessageRef) : AgentReply.AgentReplyInboundMsg where
  threadId := ref.threadId
  fromAddress := ref.fromAddress
  subject := ref.subject
  receivedAt := some (String.ofList ref.receivedAt)
  agentAutoreply := ref.agentAutoreply

/-- The poll that begins with a page of the inbox. It works on the emails whose references
`pollInbound` returns. -/
def State.beginPoll (s : State Caller) (order : List JmapEmail) (nowIso : Text)
    (rules : List MailRuleRow) : State Caller :=
  let page := order.take pageLimit
  let messages := newEmails page s.cursor
  { s with
    poll := some ⟨(pollInbound page s.cursor nowIso).cursor, rules, messages, messages, .classify⟩
    returned := s.returned ++ messages }

/-- Where a message goes once it is classified. -/
def afterClassify [CaseMapping] (mb : WatchedMailbox) (rules : List MailRuleRow) (m : JmapEmail) :
    Stage :=
  match planRules mb.workspaceId mb.id rules m.ref with
  | some plan => .rules plan.calls plan.matchedIds
  | none => .handOff

/-- The cursor column after a poll: it is written only when it changes. -/
def State.storedCursor (s : State Caller) (cursor : Text) : Option Text :=
  if cursor ≠ [] ∧ some cursor ≠ s.cursor then some cursor else s.cursor

/-- The replies once a message is handed over. -/
def handedOver [CaseMapping] (mb : WatchedMailbox) (env : Env) (flags : AgentReply.Flags)
    (replies : AgentReply.State Caller) (m : JmapEmail) (c : Caller) :
    Option (AgentReply.State Caller) :=
  if mb.ownerKind = .agent then
    AgentReply.step env flags replies (.inbound c mb.workspaceId mb.replyRef m.ref.replyMsg)
  else some replies

/-- One step. -/
def step [CaseMapping] (mb : WatchedMailbox) (env : Env) (flags : AgentReply.Flags)
    (s : State Caller) : Label Caller → Option (State Caller)
  | .arrive m =>
    if m ∉ s.inbox ∧ m.threadId ≠ "" then
      some { s with
        inbox := s.inbox ++ [m]
        watched := if s.mark.isSome then s.watched ++ [m] else s.watched }
    else none
  | .leave m => some { s with inbox := s.inbox.erase m }
  | .restore m => if m ∉ s.inbox then some { s with inbox := s.inbox ++ [m] } else none
  | .poll order nowIso rules =>
    if s.poll.isNone ∧ NewestFirst s.inbox order ∧ nowIso ≠ [] then
      some (s.beginPoll order nowIso rules)
    else none
  | .classify ok =>
    match s.poll with
    | some ⟨cursor, rules, messages, m :: todo, .classify⟩ =>
      if ok then
        some { s with
          poll := some ⟨cursor, rules, messages, m :: todo, afterClassify mb rules m⟩ }
      else some { s with poll := none }
    | _ => none
  | .act outcome =>
    match s.poll with
    | some ⟨cursor, rules, messages, m :: todo, .rules (call :: calls) ids⟩ =>
      some { s with
        poll := some ⟨cursor, rules, messages, m :: todo, .rules calls ids⟩
        effects := s.effects ++ [.called m call outcome] }
    | _ => none
  | .bump ok =>
    match s.poll with
    | some ⟨cursor, rules, messages, m :: todo, .rules [] ids⟩ =>
      some { s with
        poll := some ⟨cursor, rules, messages, m :: todo, .handOff⟩
        effects := s.effects ++ if ok then [.bumped m ids] else [] }
    | _ => none
  | .handOff c =>
    match s.poll with
    | some ⟨cursor, rules, messages, m :: todo, .handOff⟩ =>
      (handedOver mb env flags s.replies m c).map fun replies =>
        { s with
          poll := some ⟨cursor, rules, messages, todo, .classify⟩
          effects := s.effects ++ if mb.ownerKind = .agent then [.handedOver m] else []
          replies := replies }
    | _ => none
  | .advance ok =>
    match s.poll with
    | some ⟨cursor, _, _, [], _⟩ =>
      some { s with
        poll := none
        cursor := if ok then s.storedCursor cursor else s.cursor }
    | _ => none
  | .crash => some { s with poll := none }
  | .reply l =>
    match l with
    | .inbound _ _ _ _ => none
    | l => (AgentReply.step env flags s.replies l).map fun replies => { s with replies := replies }

/-- The protocol. Initially the mailbox was never polled; its inbox is any. -/
def system [CaseMapping] (mb : WatchedMailbox) (env : Env) (flags : AgentReply.Flags) :
    System (State Caller) (Label Caller) where
  init s :=
    s.inbox.Nodup ∧ s.cursor = none ∧ s.poll = none ∧ s.watched = [] ∧ s.returned = [] ∧
      s.effects = [] ∧ (AgentReply.system env flags).init s.replies
  step := step mb env flags

/-! ### What a step does -/

/-- **What a step does.** -/
inductive Moves [CaseMapping] (mb : WatchedMailbox) (env : Env) (flags : AgentReply.Flags)
    (s : State Caller) : Label Caller → State Caller → Prop
  | arrive (m : JmapEmail) : m ∉ s.inbox → m.threadId ≠ "" →
      Moves mb env flags s (.arrive m)
        { s with
          inbox := s.inbox ++ [m]
          watched := if s.mark.isSome then s.watched ++ [m] else s.watched }
  | leave (m : JmapEmail) : Moves mb env flags s (.leave m) { s with inbox := s.inbox.erase m }
  | restore (m : JmapEmail) : m ∉ s.inbox →
      Moves mb env flags s (.restore m) { s with inbox := s.inbox ++ [m] }
  | poll (order : List JmapEmail) (nowIso : Text) (rules : List MailRuleRow) :
      s.poll = none → NewestFirst s.inbox order → nowIso ≠ [] →
      Moves mb env flags s (.poll order nowIso rules) (s.beginPoll order nowIso rules)
  | classify (cursor : Text) (rules : List MailRuleRow) (messages todo : List JmapEmail)
      (m : JmapEmail) :
      s.poll = some ⟨cursor, rules, messages, m :: todo, .classify⟩ →
      Moves mb env flags s (.classify true)
        { s with poll := some ⟨cursor, rules, messages, m :: todo, afterClassify mb rules m⟩ }
  | act (outcome : CallOutcome) (cursor : Text) (rules : List MailRuleRow)
      (messages todo : List JmapEmail) (m : JmapEmail) (call : EngineCall)
      (calls : List EngineCall) (ids : List String) :
      s.poll = some ⟨cursor, rules, messages, m :: todo, .rules (call :: calls) ids⟩ →
      Moves mb env flags s (.act outcome)
        { s with
          poll := some ⟨cursor, rules, messages, m :: todo, .rules calls ids⟩
          effects := s.effects ++ [.called m call outcome] }
  | bump (ok : Bool) (cursor : Text) (rules : List MailRuleRow) (messages todo : List JmapEmail)
      (m : JmapEmail) (ids : List String) :
      s.poll = some ⟨cursor, rules, messages, m :: todo, .rules [] ids⟩ →
      Moves mb env flags s (.bump ok)
        { s with
          poll := some ⟨cursor, rules, messages, m :: todo, .handOff⟩
          effects := s.effects ++ if ok then [.bumped m ids] else [] }
  | handOff (c : Caller) (cursor : Text) (rules : List MailRuleRow)
      (messages todo : List JmapEmail) (m : JmapEmail) (replies : AgentReply.State Caller) :
      s.poll = some ⟨cursor, rules, messages, m :: todo, .handOff⟩ →
      handedOver mb env flags s.replies m c = some replies →
      Moves mb env flags s (.handOff c)
        { s with
          poll := some ⟨cursor, rules, messages, todo, .classify⟩
          effects := s.effects ++ if mb.ownerKind = .agent then [.handedOver m] else []
          replies := replies }
  | advance (cursor : Text) (rules : List MailRuleRow) (messages : List JmapEmail)
      (stage : Stage) :
      s.poll = some ⟨cursor, rules, messages, [], stage⟩ →
      Moves mb env flags s (.advance true)
        { s with
          poll := none
          cursor := s.storedCursor cursor }
  /-- The poll breaks off: the classifier or the write of the cursor throws, or the process
  dies. -/
  | breakOff (l : Label Caller) : l = .classify false ∨ l = .advance false ∨ l = .crash →
      Moves mb env flags s l { s with poll := none }
  | reply (l : AgentReply.Label Caller) (replies : AgentReply.State Caller) :
      (AgentReply.system env flags).step s.replies l = some replies →
      Moves mb env flags s (.reply l) { s with replies := replies }

variable [CaseMapping] {mb : WatchedMailbox} {env : Env} {flags : AgentReply.Flags}
  {s s' : State Caller} {l : Label Caller}

theorem moves_of_step (h : (system mb env flags).step s l = some s') :
    Moves mb env flags s l s' := by
  change step mb env flags s l = some s' at h
  cases l with
  | arrive m =>
    simp only [step] at h
    split at h
    · next hnew =>
      obtain rfl := Option.some.inj h
      exact .arrive m hnew.1 hnew.2
    · cases h
  | leave m =>
    obtain rfl := Option.some.inj h
    exact .leave m
  | restore m =>
    simp only [step] at h
    split at h
    · next hnew =>
      obtain rfl := Option.some.inj h
      exact .restore m hnew
    · cases h
  | poll order nowIso rules =>
    simp only [step] at h
    split at h
    · next hguard =>
      obtain rfl := Option.some.inj h
      exact .poll order nowIso rules (Option.isNone_iff_eq_none.mp hguard.1) hguard.2.1 hguard.2.2
    · cases h
  | classify ok =>
    simp only [step] at h
    split at h
    · next cursor rules messages m todo hpoll =>
      split at h
      · next hok =>
        obtain rfl := Option.some.inj h
        subst hok
        exact .classify cursor rules messages todo m hpoll
      · next hok =>
        obtain rfl := Option.some.inj h
        -- A classification that throws ends the poll.
        rw [Bool.not_eq_true] at hok
        subst hok
        exact .breakOff _ (.inl rfl)
    · cases h
  | act outcome =>
    simp only [step] at h
    split at h
    · next cursor rules messages m todo call calls ids hpoll =>
      obtain rfl := Option.some.inj h
      exact .act outcome cursor rules messages todo m call calls ids hpoll
    · cases h
  | bump ok =>
    simp only [step] at h
    split at h
    · next cursor rules messages m todo ids hpoll =>
      obtain rfl := Option.some.inj h
      exact .bump ok cursor rules messages todo m ids hpoll
    · cases h
  | handOff c =>
    simp only [step] at h
    split at h
    · next cursor rules messages m todo hpoll =>
      obtain ⟨replies, hreplies, rfl⟩ := Option.map_eq_some_iff.mp h
      exact .handOff c cursor rules messages todo m replies hpoll hreplies
    · cases h
  | advance ok =>
    simp only [step] at h
    split at h
    · next cursor rules messages stage hpoll =>
      obtain rfl := Option.some.inj h
      cases ok with
      -- The cursor is stored, or the poll has been for nothing.
      | true => exact .advance cursor rules messages stage hpoll
      | false => exact .breakOff _ (.inr (.inl rfl))
    · cases h
  | crash =>
    obtain rfl := Option.some.inj h
    exact .breakOff _ (.inr (.inr rfl))
  | reply l =>
    simp only [step] at h
    split at h
    · cases h
    · obtain ⟨replies, hreplies, rfl⟩ := Option.map_eq_some_iff.mp h
      exact .reply _ replies hreplies

/-! ### The replies run their own protocol -/

/-- **The replies of the watcher are a run of the reply runtime.** -/
def toReplies (mb : WatchedMailbox) (env : Env) (flags : AgentReply.Flags) :
    Simulation (system mb env flags : System (State Caller) (Label Caller))
      (AgentReply.system env flags :
        System (AgentReply.State Caller) (AgentReply.Label Caller)) where
  map := State.replies
  init s h := h.2.2.2.2.2.2
  step s l s' _ hs := by
    cases moves_of_step hs with
    | handOff c cursor rules messages todo m replies hpoll hreplies =>
      unfold handedOver at hreplies
      split at hreplies
      · exact .inr ⟨.inbound c mb.workspaceId mb.replyRef m.ref.replyMsg, hreplies⟩
      · exact .inl (Option.some.inj hreplies).symm
    | reply l replies hreplies => exact .inr ⟨l, hreplies⟩
    | _ => exact .inl rfl

/-! ### The poll under way -/

/-- **What holds of the poll under way**, in every run. Its messages are distinct, those it is
not through with are the last of them, and they are after the stored cursor and not after its
own. -/
structure PollInv (s : State Caller) : Prop where
  inbox : s.inbox.Nodup
  /-- It does not turn the cursor back. -/
  forward : ∀ p cursor, s.poll = some p → s.cursor = some cursor → cursor ≤ p.cursor
  first : ∀ p, s.poll = some p → s.cursor = none → p.cursor ≠ []
  nodup : ∀ p, s.poll = some p → p.messages.Nodup
  todo : ∀ p, s.poll = some p → p.todo <:+ p.messages
  between : ∀ p, s.poll = some p → ∀ m ∈ p.messages,
    m.receivedAt ≤ p.cursor ∧ ∃ cursor, s.cursor = some cursor ∧ cursor < m.receivedAt

omit [DecidableEq Caller] [CaseMapping] in
theorem PollInv.of_idle (hinbox : s.inbox.Nodup) (hidle : s.poll = none) : PollInv s where
  inbox := hinbox
  forward p _ hp := by rw [hidle] at hp; cases hp
  first p hp := by rw [hidle] at hp; cases hp
  nodup p hp := by rw [hidle] at hp; cases hp
  todo p hp := by rw [hidle] at hp; cases hp
  between p hp := by rw [hidle] at hp; cases hp

omit [DecidableEq Caller] [CaseMapping] in
/-- A poll that goes on with the same messages and what is left of them keeps it. -/
theorem PollInv.goOn (h : PollInv s) {p p' : Poll} (hp : s.poll = some p)
    (hinbox : s'.inbox = s.inbox) (hcursor : s'.cursor = s.cursor) (hp' : s'.poll = some p')
    (hsame : p'.cursor = p.cursor) (hmessages : p'.messages = p.messages)
    (htodo : p'.todo <:+ p.todo) : PollInv s' where
  -- The poll goes on with its cursor and its messages, and with less to do.
  inbox := hinbox ▸ h.inbox
  forward q cursor hq hc := by
    obtain rfl := Option.some.inj (hp'.symm.trans hq)
    rw [hsame]
    exact h.forward p cursor hp (hcursor ▸ hc)
  first q hq hc := by
    obtain rfl := Option.some.inj (hp'.symm.trans hq)
    rw [hsame]
    exact h.first p hp (hcursor ▸ hc)
  nodup q hq := by
    obtain rfl := Option.some.inj (hp'.symm.trans hq)
    rw [hmessages]
    exact h.nodup p hp
  todo q hq := by
    obtain rfl := Option.some.inj (hp'.symm.trans hq)
    rw [hmessages]
    exact htodo.trans (h.todo p hp)
  between q hq := by
    obtain rfl := Option.some.inj (hp'.symm.trans hq)
    rw [hmessages, hsame, hcursor]
    exact h.between p hp

omit [DecidableEq Caller] [CaseMapping] in
theorem PollInv.beginPoll (h : PollInv s) {order : List JmapEmail} {nowIso : Text}
    (rules : List MailRuleRow) (horder : NewestFirst s.inbox order) (hnow : nowIso ≠ []) :
    PollInv (s.beginPoll order nowIso rules) := by
  have hpage : (order.take pageLimit).Nodup :=
    (horder.1.nodup_iff.mpr h.inbox).sublist (List.take_sublist _ _)
  refine
    { inbox := h.inbox
      forward := fun p cursor hp hcursor => ?_
      first := fun p hp hcursor => ?_
      nodup := fun p hp => ?_
      todo := fun p hp => ?_
      between := fun p hp m hm => ?_ }
  all_goals obtain rfl := Option.some.inj hp
  · -- The cursor does not go back.
    change cursor ≤ pollCursor (order.take pageLimit) s.cursor nowIso
    rw [show s.cursor = some cursor from hcursor]
    exact since_le_pollCursor _ cursor nowIso
  · -- The first poll sets a cursor.
    change pollCursor (order.take pageLimit) s.cursor nowIso ≠ []
    rw [show s.cursor = none from hcursor]
    exact pollCursor_ne_nil hnow _
  · -- What is polled is a part of the page.
    exact nodup_newEmails hpage
  · exact List.suffix_refl _
  · exact ⟨le_pollCursor nowIso hm, (of_mem_newEmails hm).2⟩

omit [DecidableEq Caller] [CaseMapping] in
private theorem nodup_concat {m : JmapEmail} {inbox : List JmapEmail} (h : inbox.Nodup)
    (hnew : m ∉ inbox) : (inbox ++ [m]).Nodup := by
  rw [← List.concat_eq_append]
  exact h.concat hnew

theorem PollInv.step (h : PollInv s) (hm : Moves mb env flags s l s') : PollInv s' := by
  cases hm with
  | arrive m hnew _ => exact { h with inbox := nodup_concat h.inbox hnew }
  | leave m => exact { h with inbox := h.inbox.erase m }
  | restore m hnew => exact { h with inbox := nodup_concat h.inbox hnew }
  | poll order nowIso rules _ horder hnow => exact h.beginPoll rules horder hnow
  | classify cursor rules messages todo m hpoll =>
    exact h.goOn hpoll rfl rfl rfl rfl rfl (List.suffix_refl _)
  | act outcome cursor rules messages todo m call calls ids hpoll =>
    exact h.goOn hpoll rfl rfl rfl rfl rfl (List.suffix_refl _)
  | bump ok cursor rules messages todo m ids hpoll =>
    exact h.goOn hpoll rfl rfl rfl rfl rfl (List.suffix_refl _)
  | handOff c cursor rules messages todo m replies hpoll _ =>
    exact h.goOn hpoll rfl rfl rfl rfl rfl (List.suffix_cons m todo)
  | advance cursor rules messages stage _ => exact .of_idle h.inbox rfl
  | breakOff l _ => exact .of_idle h.inbox rfl
  | reply l replies _ => exact ⟨h.inbox, h.forward, h.first, h.nodup, h.todo, h.between⟩

theorem pollInv_of_reachable (h : (system mb env flags).Reachable s) : PollInv s := by
  refine h.invariant (P := PollInv) ?_ fun _ _ _ _ hinv hs => hinv.step (moves_of_step hs)
  intro s h0
  obtain ⟨hinbox, -, hpoll, -⟩ := h0
  exact .of_idle hinbox hpoll

omit [DecidableEq Caller] [CaseMapping] in
/-- The cursor of a poll that ends is stored. -/
theorem PollInv.stored (h : PollInv s) {p : Poll} (hp : s.poll = some p) :
    s.storedCursor p.cursor = some p.cursor := by
  unfold State.storedCursor
  split
  · rfl
  · next hsame =>
    cases hcursor : s.cursor with
    | none =>
      rw [hcursor] at hsame
      exact absurd ⟨h.first p hp hcursor, Option.some_ne_none _⟩ hsame
    | some cursor =>
      rw [hcursor] at hsame
      by_contra hne
      have hnil : p.cursor = [] := by
        by_contra hnil
        exact hsame ⟨hnil, fun heq => hne heq.symm⟩
      -- An empty cursor is only found where the stored one is empty.
      have hle := h.forward p cursor hp hcursor
      rw [hnil] at hle hne
      cases cursor with
      | nil => exact hne rfl
      | cons c cs => exact absurd (List.nil_lt_cons c cs) (not_lt_of_ge hle)

end Inbound
end EmailOps
