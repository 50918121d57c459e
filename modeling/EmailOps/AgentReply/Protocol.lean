import Mathlib.Data.List.Nodup
import Mathlib.Data.List.Perm.Subperm
import EmailOps.AgentReply.Runtime
import EmailOps.Framework.Table
import EmailOps.Email.ComposeProtocol

/-!
# Replies being written side by side

The watcher hands each message over without waiting for the reply, so any number of replies
are written at once. Each passes the gate, has a text written, and is composed, on the
database the other callers of `composeEmail` share.

* `AgentReply.system` is the protocol over `Compose.system`: a reply is pending from the gate
  to the commit of its compose, or until it is given up.
* `Moves` is what a step does, `moves_of_step` the inversion.
* `MadeInv` and `HandlerInv` say that what the service made is in the database, as the gate
  counts it.
-/

namespace EmailOps

/-- The call a compose step is a step of. -/
def Compose.Label.actor {Caller : Type} : Compose.Label Caller → Option Caller
  | .start c _ _ _ | .commit c | .callEngine c _ _ | .stamp c | .crash c => some c
  | .settings _ => none

namespace AgentReply

open Framework

/-! ### The protocol -/

/-- A compose the service made: a row that a reply's compose inserted. -/
structure Made where
  workspaceId : String
  mailboxId : String
  threadId : String
  externalRef : String
  messageId : String
  mode : EmailMode
  time : ℕ

/-- The state of the protocol. -/
structure State (Caller : Type) where
  base : Compose.State Caller
  now : ℕ
  /-- The `createdAt` column of the messages, by id. -/
  createdAt : String → ℕ
  /-- The replies that have passed the gate and are not composed yet. -/
  pending : List (Caller × Reply)
  /-- The composes the service made, oldest first. -/
  made : List Made

/-- The steps of the protocol. -/
inductive Label (Caller : Type) where
  | tick (passed : ℕ)
  /-- A message is handed over: it is looked at, and the gate is read. -/
  | inbound (c : Caller) (workspaceId : String) (mailbox : AgentReplyMailboxRef)
      (msg : AgentReplyInboundMsg)
  /-- The text is written, and the compose of the reply does the reads of its phase 1. -/
  | compose (c : Caller) (texts : ReplyTexts) (lookupsFail : Bool) (ids : NewIds)
  /-- The compose of a reply creates its rows and commits, or is refused. -/
  | commit (c : Caller)
  /-- A reply is given up: there is no text, the compose failed, or the process died. -/
  | giveUp (c : Caller)
  /-- A step of a compose that is not a pending reply's, or of the settings. -/
  | mail (l : Compose.Label Caller)

variable {Caller : Type} [DecidableEq Caller]

/-- The reply a caller is writing. -/
def State.replyOf (s : State Caller) (c : Caller) : Option Reply :=
  (s.pending.find? fun p => p.1 = c).map (·.2)

/-- The pending replies but a caller's. -/
def State.pendingBut (s : State Caller) (c : Caller) : List (Caller × Reply) :=
  s.pending.filter fun p => p.1 ≠ c

/-- The compose calls and the database move on; a new row is created now. -/
def State.onBase (s : State Caller) (base : Compose.State Caller) : State Caller :=
  { s with
    base := base
    createdAt := fun id =>
      if s.base.db.messages.any fun m => m.id = id then s.createdAt id else s.now }

/-- The request of a reply. -/
def Reply.request (reply : Reply) (texts : ReplyTexts) : Compose.Request where
  workspaceId := reply.workspaceId
  ucUid := none
  input := reply.input texts

/-- The reply a message gets, when it is not suppressed and the gate admits it. -/
def admitted [CaseMapping] (flags : Flags) (s : State Caller) (workspaceId : String)
    (mailbox : AgentReplyMailboxRef) (msg : AgentReplyInboundMsg) : Option Reply :=
  if flags.agentReplyRuntimeEnabled && !suppressed mailbox msg then
    let gate := readGate s.base.db s.createdAt s.now workspaceId mailbox msg
    if gate.admits flags then some ⟨workspaceId, mailbox, msg, gate⟩ else none
  else none

/-- A row of a reply. -/
def Reply.made (reply : Reply) (m : EmailMessage) (now : ℕ) : Made where
  workspaceId := reply.workspaceId
  mailboxId := reply.mailbox.id
  threadId := reply.msg.threadId
  externalRef := externalRef reply.mailbox reply.msg
  messageId := m.id
  mode := m.mode
  time := now

/-- What the commit of a reply's plan makes: its row, when it is inserted. -/
def madeBy (db : Db) (plan : ComposePlan) (reply : Reply) (now : ℕ) : List Made :=
  match plan, plan.commit db with
  | .stage msg _, .ok _ | .send msg _, .ok _ => [reply.made msg now]
  | _, _ => []

/-- One step. -/
def step [CaseMapping] (env : Env) (flags : Flags) (s : State Caller) :
    Label Caller → Option (State Caller)
  | .tick passed => some { s with now := s.now + passed }
  | .inbound c workspaceId mailbox msg =>
    match s.base.calls c, s.replyOf c with
    | .idle, none =>
      some { s with
        pending := s.pending ++ ((admitted flags s workspaceId mailbox msg).map (c, ·)).toList }
    | _, _ => none
  | .compose c texts lookupsFail ids =>
    match s.replyOf c with
    | some reply =>
      (Compose.step env s.base (.start c (reply.request texts) lookupsFail ids)).map s.onBase
    | none => none
  | .commit c =>
    match s.replyOf c, s.base.calls c with
    | some reply, .planned _ plan =>
      (Compose.step env s.base (.commit c)).map fun base =>
        { s.onBase base with
          pending := s.pendingBut c
          made := s.made ++ madeBy s.base.db plan reply s.now }
    | _, _ => none
  | .giveUp c =>
    match s.replyOf c with
    | some _ =>
      (Compose.step env s.base (.crash c)).map fun base =>
        { s.onBase base with pending := s.pendingBut c }
    | none => none
  | .mail l =>
    if l.actor.all fun c => (s.replyOf c).isNone then (Compose.step env s.base l).map s.onBase
    else none

/-- The protocol. Initially no compose has begun, nothing is pending and nothing was made; the
database is any. -/
def system [CaseMapping] (env : Env) (flags : Flags) : System (State Caller) (Label Caller) where
  init s := (Compose.system env).init s.base ∧ s.pending = [] ∧ s.made = []
  step := step env flags

/-! ### What a step does -/

/-- **What a step does.** -/
inductive Moves [CaseMapping] (env : Env) (flags : Flags) (s : State Caller) :
    Label Caller → State Caller → Prop
  | tick (passed : ℕ) : Moves env flags s (.tick passed) { s with now := s.now + passed }
  | inbound (c : Caller) (ws : String) (mailbox : AgentReplyMailboxRef)
      (msg : AgentReplyInboundMsg) :
      s.base.calls c = .idle → s.replyOf c = none →
      Moves env flags s (.inbound c ws mailbox msg)
        { s with pending := s.pending ++ ((admitted flags s ws mailbox msg).map (c, ·)).toList }
  | compose (c : Caller) (texts : ReplyTexts) (f : Bool) (ids : NewIds) (reply : Reply)
      (base : Compose.State Caller) :
      s.replyOf c = some reply →
      (Compose.system env).step s.base (.start c (reply.request texts) f ids) = some base →
      Moves env flags s (.compose c texts f ids) (s.onBase base)
  | commit (c : Caller) (reply : Reply) (r : Compose.Request) (plan : ComposePlan)
      (base : Compose.State Caller) :
      s.replyOf c = some reply → s.base.calls c = .planned r plan →
      (Compose.system env).step s.base (.commit c) = some base →
      Moves env flags s (.commit c)
        { s.onBase base with
          pending := s.pendingBut c
          made := s.made ++ madeBy s.base.db plan reply s.now }
  | giveUp (c : Caller) (base : Compose.State Caller) :
      (Compose.system env).step s.base (.crash c) = some base →
      Moves env flags s (.giveUp c) { s.onBase base with pending := s.pendingBut c }
  | mail (l : Compose.Label Caller) (base : Compose.State Caller) :
      (∀ c, l.actor = some c → s.replyOf c = none) →
      (Compose.system env).step s.base l = some base →
      Moves env flags s (.mail l) (s.onBase base)

variable [CaseMapping] {env : Env} {flags : Flags} {s s' : State Caller} {l : Label Caller}

theorem moves_of_step (h : (system env flags).step s l = some s') : Moves env flags s l s' := by
  change step env flags s l = some s' at h
  cases l with
  | tick passed =>
    obtain rfl := Option.some.inj h
    exact .tick passed
  | inbound c ws mailbox msg =>
    simp only [step] at h
    split at h
    · next hidle hfree =>
      obtain rfl := Option.some.inj h
      exact .inbound c ws mailbox msg hidle hfree
    · cases h
  | compose c texts f ids =>
    simp only [step] at h
    split at h
    · next reply hreply =>
      obtain ⟨base, hbase, rfl⟩ := Option.map_eq_some_iff.mp h
      exact .compose c texts f ids reply base hreply hbase
    · cases h
  | commit c =>
    simp only [step] at h
    split at h
    · next reply r plan hreply hplanned =>
      obtain ⟨base, hbase, rfl⟩ := Option.map_eq_some_iff.mp h
      exact .commit c reply r plan base hreply hplanned hbase
    · cases h
  | giveUp c =>
    simp only [step] at h
    split at h
    · obtain ⟨base, hbase, rfl⟩ := Option.map_eq_some_iff.mp h
      exact .giveUp c base hbase
    · cases h
  | mail l =>
    simp only [step] at h
    split at h
    · next hquiet =>
      -- Nobody else steps for a caller with a reply.
      obtain ⟨base, hbase, rfl⟩ := Option.map_eq_some_iff.mp h
      refine .mail l base (fun c hc => ?_) hbase
      rw [hc] at hquiet
      exact Option.isNone_iff_eq_none.mp hquiet
    · cases h

/-! ### The pending replies -/

omit [CaseMapping] in
theorem mem_pending_of_replyOf {c : Caller} {reply : Reply} (h : s.replyOf c = some reply) :
    (c, reply) ∈ s.pending := by
  obtain ⟨p, hfind, rfl⟩ := Option.map_eq_some_iff.mp h
  have hp : p.1 = c := by simpa using List.find?_some hfind
  rw [← hp]
  exact List.mem_of_find?_eq_some hfind

omit [CaseMapping] in
/-- When a caller begins a reply, no other caller's reply changes. -/
theorem replyOf_append {c d : Caller} {reply : Option Reply} {reply' : Reply}
    (h : State.replyOf { s with pending := s.pending ++ (reply.map (c, ·)).toList } d =
      some reply') :
    d = c ∨ s.replyOf d = some reply' := by
  by_cases hdc : d = c
  · exact .inl hdc
  · refine .inr ?_
    have hcd : ¬c = d := fun heq => hdc heq.symm
    unfold State.replyOf at h ⊢
    rw [List.find?_append] at h
    cases reply with
    | none => simpa using h
    | some reply => simpa [hcd] using h

omit [CaseMapping] in
/-- When a caller's reply is not pending any more, no other caller's changes. -/
theorem replyOf_pendingBut {c d : Caller} {reply : Reply} (base : Compose.State Caller)
    (made : List Made)
    (h : State.replyOf { s.onBase base with pending := s.pendingBut c, made := made } d =
      some reply) :
    d ≠ c ∧ s.replyOf d = some reply := by
  unfold State.replyOf State.pendingBut at h
  rw [List.find?_filter] at h
  by_cases hdc : d = c
  · -- Every reply left is another caller's.
    obtain ⟨p, hfind, rfl⟩ := Option.map_eq_some_iff.mp h
    have hp := List.find?_some hfind
    simp only [ne_eq, decide_not, Bool.not_eq_true', decide_eq_false_iff_not, decide_eq_true_eq] at hp
    exact absurd (hp.2.trans hdc) hp.1
  · refine ⟨hdc, ?_⟩
    have hsame : (fun p : Caller × Reply =>
        decide (decide (p.1 ≠ c) = true ∧ decide (p.1 = d) = true)) = fun p => decide (p.1 = d) := by
      funext p
      by_cases hp : p.1 = d
      · simp [hp, hdc]
      · simp [hp]
    rw [hsame] at h
    exact h

/-! ### What the caps count -/

/-- The two caps. -/
inductive Cap where
  /-- On the composes made from a mailbox. -/
  | mailbox
  /-- On the automatic sends in a thread. -/
  | thread

/-- What a compose counts against: its mailbox, and its thread when it is a send. -/
def Cap.key (cap : Cap) (workspaceId mailboxId threadId : String) (mode : EmailMode) :
    Option (String × String) :=
  match cap with
  | .mailbox => some (workspaceId, mailboxId)
  | .thread => if mode = .send then some (workspaceId, threadId) else none

/-- What a reply counts against while it is pending. -/
def Reply.key (reply : Reply) (cap : Cap) : Option (String × String) :=
  cap.key reply.workspaceId reply.mailbox.id reply.msg.threadId reply.gate.requestedMode

/-- What a compose that was made counts against. -/
def Made.key (made : Made) (cap : Cap) : Option (String × String) :=
  cap.key made.workspaceId made.mailboxId made.threadId made.mode

/-- The rows the gate counts. -/
def Cap.counts (cap : Cap) (key : String × String) : EmailMessage → Bool :=
  match cap with
  | .mailbox => isMailboxCompose key.1 key.2
  | .thread => isThreadAutoSend key.1 key.2

/-- What the gate reads. -/
def State.read (s : State Caller) (cap : Cap) (key : String × String) : ℕ :=
  countRecent s.base.db s.createdAt s.now (cap.counts key)

/-- The composes made within the window. -/
def State.used (s : State Caller) (cap : Cap) (key : String × String) : ℕ :=
  s.made.countP fun e => e.key cap = some key && s.now < e.time + capWindow

/-- The replies that are pending. -/
def State.reserved (s : State Caller) (cap : Cap) (key : String × String) : ℕ :=
  s.pending.countP fun p => p.2.key cap = some key

/-! ### What a reply's compose inserts -/

/-- A row under the key of a reply that counts, as the gate counts, for what the reply counts
against. It is a send only if the reply asks for one. -/
structure CountsFor (reply : Reply) (msg : EmailMessage) : Prop where
  triple : msg.triple? =
    some (reply.workspaceId, agentReplyRuntimeSource, externalRef reply.mailbox reply.msg)
  requested : msg.mode = .send → reply.gate.requestedMode = .send
  counts : ∀ (cap : Cap) (key : String × String),
    cap.key reply.workspaceId reply.mailbox.id reply.msg.threadId msg.mode = some key →
      cap.counts key msg = true

/-- The row a plan inserts counts for the reply. -/
def Fits (reply : Reply) (plan : ComposePlan) : Prop :=
  match plan with
  | .done _ => True
  | .stage msg _ | .send msg _ => CountsFor reply msg

omit [CaseMapping] in
theorem countsFor_staged (reply : Reply) (texts : ReplyTexts) (id : String)
    (mailbox : Option MailboxAccount) :
    CountsFor reply (stagedMessage reply.workspaceId id mailbox (reply.input texts)) where
  triple := rfl
  requested hsend := by cases hsend
  counts cap key hkey := by
    cases cap with
    | mailbox =>
      obtain rfl := Option.some.inj hkey
      exact isMailboxCompose_staged reply texts id mailbox
    | thread => cases hkey

omit [CaseMapping] in
theorem countsFor_queued (reply : Reply) (texts : ReplyTexts) (id : String)
    (mailbox : Option MailboxAccount) (footer : Option TransparencyFooter)
    (hsend : reply.gate.requestedMode = .send) :
    CountsFor reply (queuedMessage reply.workspaceId id mailbox footer (reply.input texts)) where
  triple := rfl
  requested _ := hsend
  counts cap key hkey := by
    cases cap with
    | mailbox =>
      obtain rfl := Option.some.inj hkey
      exact isMailboxCompose_queued reply texts id mailbox footer
    | thread =>
      obtain rfl := Option.some.inj hkey
      exact isThreadAutoSend_queued reply texts id mailbox footer

/-- Phase 1 plans what fits the reply. -/
theorem fits_of_planned {db : Db} {reply : Reply} {texts : ReplyTexts} {f : Bool} {ids : NewIds}
    {r : Compose.Request} {plan : ComposePlan}
    (h : Compose.planned env db (reply.request texts) f ids = .planned r plan) :
    Fits reply plan := by
  unfold Compose.planned at h
  split at h
  · next plan' hplan =>
    cases h
    cases plan with
    | done view => trivial
    | stage msg item =>
      obtain ⟨mailbox, -, -, rfl, -⟩ := composePlan_stage hplan
      exact countsFor_staged reply texts ids.messageId mailbox
    | send msg sendPlan =>
      obtain ⟨mailbox, footer, -, hmode, -, rfl, -⟩ := composePlan_send hplan
      refine countsFor_queued reply texts ids.messageId mailbox footer ?_
      cases hrequested : reply.gate.requestedMode with
      | send => rfl
      | draft =>
        -- A request for a draft is never sent.
        have hinput : (reply.request texts).input.mode = .draft := hrequested
        unfold composeDecision at hmode
        rw [hinput, decideAgentComposeMode_draft] at hmode
        cases hmode
  · cases h

omit [CaseMapping] in
/-- **What a reply's commit makes**: nothing, or the one row it inserts. -/
theorem madeBy_cases {db : Db} {plan : ComposePlan} {reply : Reply} (h : Fits reply plan)
    (r : Compose.Request) (now : ℕ) :
    madeBy db plan reply now = [] ∨
      ∃ msg, CountsFor reply msg ∧
        (∀ m ∈ db.messages, m.id ≠ msg.id ∧ m.triple? ≠ msg.triple?) ∧
        msg ∈ (Compose.commit db r plan).1.messages ∧
        madeBy db plan reply now = [reply.made msg now] := by
  cases plan with
  | done view => exact .inl rfl
  | stage msg item =>
    cases hins : insertMessage db msg with
    -- The insert is refused, and nothing was made.
    | error e =>
      left
      simp only [madeBy, ComposePlan.commit, hins, Except.map]
    | ok db' =>
      right
      -- The row is new by its id and by its key.
      obtain ⟨hfresh, rfl⟩ := insertMessage_ok hins
      refine ⟨msg, h, hfresh, ?_, ?_⟩
      · simp only [Compose.commit, ComposePlan.commit, hins, Except.map]
        exact List.mem_append_right _ (List.mem_singleton_self msg)
      · simp only [madeBy, ComposePlan.commit, hins, Except.map]
  | send msg sendPlan =>
    cases hins : insertMessage db msg with
    | error e =>
      left
      simp only [madeBy, ComposePlan.commit, hins]
    | ok db' =>
      right
      obtain ⟨hfresh, rfl⟩ := insertMessage_ok hins
      refine ⟨msg, h, hfresh, ?_, ?_⟩
      · simp only [Compose.commit, ComposePlan.commit, hins]
        exact List.mem_append_right _ (List.mem_singleton_self msg)
      · simp only [madeBy, ComposePlan.commit, hins]

/-! ### Rows are kept -/

/-- A row that counts as another does, under the same id and key. -/
structure SameCounts (m m' : EmailMessage) : Prop where
  id : m'.id = m.id
  triple : m'.triple? = m.triple?
  counts : ∀ (cap : Cap) (key : String × String), cap.counts key m' = cap.counts key m

omit [CaseMapping] in
/-- Recording an engine's answer changes nothing the gate counts. -/
theorem sameCounts_stamped (m : EmailMessage) (id : String) (result : EngineSendResult) :
    SameCounts m (if m.id = id then
      { m with
        status := if result.accepted then .sent else .failed
        providerMessageId := result.providerMessageId
        threadId := result.threadId.or m.threadId } else m) := by
  split
  · exact ⟨rfl, rfl, fun cap _ => by cases cap <;> rfl⟩
  · exact ⟨rfl, rfl, fun _ _ => rfl⟩

omit [CaseMapping] in
theorem mem_commit {db : Db} {m : EmailMessage} (hm : m ∈ db.messages) (r : Compose.Request)
    (plan : ComposePlan) : m ∈ (Compose.commit db r plan).1.messages := by
  rcases Compose.commit_cases db r plan with ⟨e, hcommit⟩ | ⟨view, -, hcommit⟩ |
    ⟨msg, item, db', -, hins, hcommit⟩ | ⟨msg, sendPlan, db', -, hins, hcommit⟩ <;> rw [hcommit]
  · exact hm
  · exact hm
  · obtain ⟨-, rfl⟩ := insertMessage_ok hins
    exact List.mem_append_left _ hm
  · obtain ⟨-, rfl⟩ := insertMessage_ok hins
    exact List.mem_append_left _ hm

/-- **No compose step loses a row** or changes what it counts for. -/
theorem row_kept {b b' : Compose.State Caller} {k : Compose.Label Caller}
    (h : (Compose.system env).step b k = some b') {m : EmailMessage} (hm : m ∈ b.db.messages) :
    ∃ m' ∈ b'.db.messages, SameCounts m m' := by
  have hsame : SameCounts m m := ⟨rfl, rfl, fun _ _ => rfl⟩
  rcases Compose.step_eq_some h with ⟨c, r, f, ids, -, -, rfl⟩ | ⟨c, r, plan, -, -, rfl⟩ |
    ⟨c, r, plan, resolved, result, -, -, rfl⟩ | ⟨c, r, plan, result, -, -, rfl⟩ |
    ⟨c, -, rfl⟩ | ⟨settings, -, rfl⟩
  · exact ⟨m, hm, hsame⟩
  · exact ⟨m, mem_commit hm r plan, hsame⟩
  · exact ⟨m, hm, hsame⟩
  · exact ⟨_, List.mem_map_of_mem hm, sameCounts_stamped m plan.messageId result⟩
  · exact ⟨m, hm, hsame⟩
  · exact ⟨m, hm, hsame⟩

/-! ### What a pending reply's compose is planning -/

/-- What a pending reply's compose plans fits the reply. -/
def HandlerInv (s : State Caller) : Prop :=
  ∀ c reply, s.replyOf c = some reply → ∀ r plan, s.base.calls c = .planned r plan →
    Fits reply plan

/-- A compose step that is no pending reply's leaves their calls alone. -/
theorem calls_of_actor_ne {b b' : Compose.State Caller} {k : Compose.Label Caller}
    (h : (Compose.system env).step b k = some b') {c : Caller} (hk : k.actor ≠ some c) :
    b'.calls c = b.calls c := by
  refine Compose.calls_of_ne h (fun habout => hk ?_) (fun r f ids heq => hk ?_) fun heq => hk ?_
  · cases k with
    | commit d => exact habout
    | callEngine d resolved result => exact habout
    | stamp d => exact habout
    | start d r f ids => cases habout
    | crash d => cases habout
    | settings t => cases habout
  · rw [heq]
    rfl
  · rw [heq]
    rfl

theorem HandlerInv.step (h : HandlerInv s) (hm : Moves env flags s l s') : HandlerInv s' := by
  intro d reply hd r plan hplanned
  cases hm with
  | tick passed => exact h d reply hd r plan hplanned
  | inbound c ws mailbox msg hidle hfree =>
    rcases replyOf_append hd with rfl | hd'
    · -- The caller's compose has not begun.
      exact absurd (hidle.symm.trans hplanned) (by simp)
    · exact h d reply hd' r plan hplanned
  | compose c texts f ids reply' base hreply hbase =>
    by_cases hdc : d = c
    · subst hdc
      obtain rfl := Option.some.inj (hd.symm.trans hreply)
      rcases Compose.step_eq_some hbase with ⟨e, r', f', ids', heq, -, rfl⟩ | ⟨e, _, _, heq, -⟩ |
        ⟨e, _, _, _, _, heq, -⟩ | ⟨e, _, _, _, heq, -⟩ | ⟨e, heq, -⟩ | ⟨t, heq, -⟩
      · -- The plan is the one the compose has just made.
        obtain ⟨rfl, rfl, rfl, rfl⟩ := Compose.Label.start.injEq .. ▸ heq
        change Function.update s.base.calls d _ d = _ at hplanned
        rw [Function.update_self] at hplanned
        exact fits_of_planned hplanned
      · cases heq
      · cases heq
      · cases heq
      · cases heq
      · cases heq
    · -- Another caller's compose leaves this plan as it is.
      have hcalls := calls_of_actor_ne hbase (c := d) fun heq => hdc (Option.some.inj heq).symm
      exact h d reply hd r plan (hcalls.symm.trans hplanned)
  | commit c reply' r' plan' base hreply hplan hbase =>
    -- The caller that commits has no reply any more.
    obtain ⟨hdc, hd'⟩ := replyOf_pendingBut _ _ hd
    have hcalls := calls_of_actor_ne hbase (c := d) fun heq => hdc (Option.some.inj heq).symm
    exact h d reply hd' r plan (hcalls.symm.trans hplanned)
  | giveUp c base hbase =>
    obtain ⟨hdc, hd'⟩ := replyOf_pendingBut _ s.made hd
    have hcalls := calls_of_actor_ne hbase (c := d) fun heq => hdc (Option.some.inj heq).symm
    exact h d reply hd' r plan (hcalls.symm.trans hplanned)
  | mail k base hquiet hbase =>
    have hcalls := calls_of_actor_ne hbase (c := d) fun heq => by
      -- The caller would have no reply.
      have hnone := hquiet d heq
      rw [show s.replyOf d = some reply from hd] at hnone
      cases hnone
    exact h d reply hd r plan (hcalls.symm.trans hplanned)

/-! ### What was made is in the database -/

/-- **What the service made is what the gate sees.** Each compose has a row of its own, under
its own key and with its time, that counts for what the compose counts for. -/
structure MadeInv (s : State Caller) : Prop where
  nodup : (s.made.map (·.messageId)).Nodup
  keys : (s.made.map fun e => (e.workspaceId, e.externalRef)).Nodup
  row : ∀ e ∈ s.made, ∃ m ∈ s.base.db.messages, m.id = e.messageId ∧
    m.triple? = some (e.workspaceId, agentReplyRuntimeSource, e.externalRef) ∧
    ∀ (cap : Cap) (key : String × String), e.key cap = some key → cap.counts key m = true
  time : ∀ e ∈ s.made, s.createdAt e.messageId = e.time

omit [DecidableEq Caller] [CaseMapping] in
theorem createdAt_onBase {m : EmailMessage} (hm : m ∈ s.base.db.messages)
    (base : Compose.State Caller) : (s.onBase base).createdAt m.id = s.createdAt m.id :=
  if_pos (List.any_eq_true.mpr ⟨m, hm, decide_eq_true rfl⟩)

omit [DecidableEq Caller] [CaseMapping] in
theorem createdAt_onBase_new {id : String} (hfresh : ∀ m ∈ s.base.db.messages, m.id ≠ id)
    (base : Compose.State Caller) : (s.onBase base).createdAt id = s.now := by
  refine if_neg fun hany => ?_
  obtain ⟨m, hm, hid⟩ := List.any_eq_true.mp hany
  exact hfresh m hm (of_decide_eq_true hid)

/-- A compose step keeps it. -/
theorem MadeInv.onBase (h : MadeInv s) {k : Compose.Label Caller} {base : Compose.State Caller}
    (hbase : (Compose.system env).step s.base k = some base) : MadeInv (s.onBase base) where
  nodup := h.nodup
  keys := h.keys
  row e he := by
    obtain ⟨m, hm, hid, htriple, hcounts⟩ := h.row e he
    obtain ⟨m', hm', hsame⟩ := row_kept hbase hm
    refine ⟨m', hm', hsame.id.trans hid, hsame.triple.trans htriple, fun cap key hkey => ?_⟩
    rw [hsame.counts]
    exact hcounts cap key hkey
  time e he := by
    obtain ⟨m, hm, hid, -⟩ := h.row e he
    have hkept := createdAt_onBase hm base
    rw [hid] at hkept
    exact hkept.trans (h.time e he)

theorem MadeInv.step (h : MadeInv s) (hhandlers : HandlerInv s) (hm : Moves env flags s l s') :
    MadeInv s' := by
  cases hm with
  | tick passed => exact ⟨h.nodup, h.keys, h.row, h.time⟩
  | inbound c ws mailbox msg hidle hfree => exact ⟨h.nodup, h.keys, h.row, h.time⟩
  | compose c texts f ids reply base hreply hbase => exact h.onBase hbase
  | commit c reply r plan base hreply hplan hbase =>
    have hkept := h.onBase hbase
    have hfits := hhandlers c reply hreply r plan hplan
    have hrows : base.db = (Compose.commit s.base.db r plan).1 := by
      change Compose.step env s.base (.commit c) = some base at hbase
      simp only [Compose.step, hplan] at hbase
      rw [← Option.some.inj hbase]
    rcases madeBy_cases hfits r s.now with hnone | ⟨msg, hcounts, hfresh, hmsg, hmade⟩
    · rw [hnone, List.append_nil]
      exact ⟨hkept.nodup, hkept.keys, hkept.row, hkept.time⟩
    · rw [hmade]
      refine ⟨?_, ?_, fun e he => ?_, fun e he => ?_⟩
      · -- The new row's id is no row's, and what was made has rows.
        refine Framework.Table.nodup_insert h.nodup fun e he heq => ?_
        obtain ⟨m, hm, hmid, -⟩ := h.row e he
        exact (hfresh m hm).1 (hmid.trans heq)
      · -- Nor is its key, which the unique index guards.
        refine Framework.Table.nodup_insert h.keys fun e he heq => ?_
        obtain ⟨m, hm, -, htriple, -⟩ := h.row e he
        obtain ⟨hws, href⟩ := Prod.mk.inj heq
        refine (hfresh m hm).2 (htriple.trans (hcounts.triple.trans ?_).symm)
        rw [hws, href]
        rfl
      · rcases List.mem_append.mp he with he | he
        · exact hkept.row e he
        · obtain rfl := List.mem_singleton.mp he
          refine ⟨msg, ?_, rfl, hcounts.triple, hcounts.counts⟩
          change msg ∈ base.db.messages
          rw [hrows]
          exact hmsg
      · rcases List.mem_append.mp he with he | he
        · exact hkept.time e he
        · obtain rfl := List.mem_singleton.mp he
          exact createdAt_onBase_new (fun m hm => (hfresh m hm).1) base
  | giveUp c base hbase =>
    have hkept := h.onBase hbase
    exact ⟨hkept.nodup, hkept.keys, hkept.row, hkept.time⟩
  | mail k base hquiet hbase => exact h.onBase hbase

theorem inv_of_reachable (h : (system env flags).Reachable s) : HandlerInv s ∧ MadeInv s := by
  refine h.invariant (P := fun s => HandlerInv s ∧ MadeInv s) ?_ ?_
  · intro s h0
    obtain ⟨-, hpending, hmade⟩ := h0
    -- No reply is pending at first, and none was made.
    refine ⟨fun c reply hc => ?_, ?_, ?_, ?_, ?_⟩
    · unfold State.replyOf at hc
      rw [hpending] at hc
      cases hc
    · rw [hmade]
      exact List.nodup_nil
    · rw [hmade]
      exact List.nodup_nil
    · rw [hmade]
      exact fun e he => nomatch he
    · rw [hmade]
      exact fun e he => nomatch he
  · intro s l s' _ hinv hs
    have hm := moves_of_step hs
    exact ⟨hinv.1.step hm, hinv.2.step hinv.1 hm⟩

/-- The composes made under a reference. -/
def State.madeUnder (s : State Caller) (workspaceId ref : String) : ℕ :=
  s.made.countP fun e => e.workspaceId = workspaceId && e.externalRef = ref

/-- **A reference is composed under once.** In every run of the replies. -/
theorem madeUnder_le_one (h : (system env flags).Reachable s) (workspaceId ref : String) :
    s.madeUnder workspaceId ref ≤ 1 := by
  have hkeys := List.nodup_iff_count_le_one.mp (inv_of_reachable h).2.keys (workspaceId, ref)
  rw [List.count, List.countP_map] at hkeys
  refine Nat.le_trans (le_of_eq (List.countP_congr fun e _ => ?_)) hkeys
  simp

omit [DecidableEq Caller] [CaseMapping] in
/-- **The gate counts everything the service made.** -/
theorem used_le_read (h : MadeInv s) (cap : Cap) (key : String × String) :
    s.used cap key ≤ s.read cap key := by
  unfold State.used State.read countRecent
  rw [List.countP_eq_length_filter, List.countP_eq_length_filter]
  -- Their ids are distinct, and each is the id of a row that is counted.
  have hsub : ((s.made.filter fun e => e.key cap = some key && s.now < e.time + capWindow).map
      (·.messageId)).Subset
      ((s.base.db.messages.filter fun m =>
        cap.counts key m && s.now < s.createdAt m.id + capWindow).map (·.id)) := by
    intro id hid
    obtain ⟨e, he, rfl⟩ := List.mem_map.mp hid
    obtain ⟨hmade, hp⟩ := List.mem_filter.mp he
    simp only [Bool.and_eq_true, decide_eq_true_eq] at hp
    obtain ⟨m, hm, hmid, -, hcounts⟩ := h.row e hmade
    refine List.mem_map.mpr ⟨m, List.mem_filter.mpr ⟨hm, ?_⟩, hmid⟩
    rw [hcounts cap key hp.1, hmid, h.time e hmade, Bool.true_and, decide_eq_true_eq]
    exact hp.2
  have hnodup : ((s.made.filter fun e => e.key cap = some key && s.now < e.time + capWindow).map
      (·.messageId)).Nodup := h.nodup.sublist (List.filter_sublist.map _)
  have hle := (List.subperm_of_subset hnodup hsub).length_le
  rwa [List.length_map, List.length_map] at hle

end AgentReply
end EmailOps
