import EmailOps.Framework.Once
import EmailOps.Email.Compose

/-!
# Concurrent composes

Any number of `composeEmail` calls on one database, interleaved at the borders of
their transactions, each of which may crash between any two phases. A retry is
another call with the same request.

* `Compose.system` is the protocol. Its database, its calls and the log of what
  was handed to the engine make up the state; `Compose.step_eq_some` lists what
  each step does.
* `Compose.toOnce` shows the once-per-key machine in it: a key is taken when a
  row carries it, held by the call between its insert and its engine call, and
  spent by the engine call.
* `Compose.engine_called_at_most_once` is the result for one idempotency key.
-/

namespace EmailOps
namespace Compose

open Framework

/-! ### The protocol -/

/-- What a call was made with. -/
structure Request where
  workspaceId : String
  ucUid : Option String
  input : ComposeInput

/-- The idempotency key of a call. -/
def Request.triple (r : Request) : Triple :=
  r.input.triple r.workspaceId

/-- Where a call stands. -/
inductive Call where
  | idle
  /-- Inside the phase-1 transaction, after its reads. -/
  | planned (r : Request) (plan : ComposePlan)
  /-- The row is committed, the engine not yet called. -/
  | queued (r : Request) (plan : SendPlan)
  /-- The engine has answered, the answer is not yet recorded. -/
  | handed (r : Request) (plan : SendPlan) (result : EngineSendResult)
  | returned (view : MessageComposeView)
  | failed (error : HttpError)
  | crashed

/-- One engine call: who made it, under which key, for which row, with what
request and what answer. -/
structure HandOff (Caller : Type) where
  caller : Caller
  triple : Triple
  messageId : String
  req : SendReq
  result : EngineSendResult

/-- The state of the protocol. -/
structure State (Caller : Type) where
  db : Db
  calls : Caller → Call
  /-- The engine calls so far, oldest first. -/
  log : List (HandOff Caller)

/-- The steps of the protocol. -/
inductive Label (Caller : Type) where
  /-- A call begins and does the reads of phase 1. -/
  | start (c : Caller) (r : Request) (lookupsFail : Bool) (ids : NewIds)
  /-- A call creates its rows and commits, or is refused by the unique index. -/
  | commit (c : Caller)
  /-- A call resolves the reply headers and calls the engine. -/
  | callEngine (c : Caller) (resolved : Option ReplyHeaders) (result : EngineSendResult)
  /-- A call records the engine's answer and returns. -/
  | stamp (c : Caller)
  /-- The process running a call dies. -/
  | crash (c : Caller)
  /-- Someone changes the workspace's settings. -/
  | settings (settings : Settings)

variable {Caller : Type} [DecidableEq Caller]

/-- Move a call on. -/
def State.setCall (s : State Caller) (c : Caller) (call : Call) : State Caller :=
  { s with calls := Function.update s.calls c call }

/-- Where a call stands once its plan is committed. -/
def ComposePlan.next (plan : ComposePlan) (r : Request) : Call :=
  match plan with
  | .done view => .returned view
  | .stage msg _ => .returned (composeView msg)
  | .send _ plan => .queued r plan

/-- Where a call stands after the reads of phase 1. -/
def planned [CaseMapping] (env : Env) (db : Db) (r : Request) (lookupsFail : Bool) (ids : NewIds) : Call :=
  match composePlan env db lookupsFail r.workspaceId r.ucUid r.input ids with
  | .ok plan => .planned r plan
  | .error e => .failed e

/-- The commit of a plan: the new database and where the call stands. The
refusal of the unique index leaves the database as it was. -/
def commit (db : Db) (r : Request) (plan : ComposePlan) : Db × Call :=
  match plan.commit db with
  | .ok db' => (db', ComposePlan.next plan r)
  | .error e => (db, .failed e)

/-- The engine call of a queued call. -/
def handOff (c : Caller) (r : Request) (plan : SendPlan) (resolved : Option ReplyHeaders)
    (result : EngineSendResult) : HandOff Caller where
  caller := c
  triple := r.triple
  messageId := plan.messageId
  req := withReplyHeaders r.input resolved plan.req
  result := result

/-- What a call returns after recording the engine's answer. -/
def stamped (messages : List EmailMessage) (messageId : String) : Call :=
  match messages.find? (·.id = messageId) with
  | some m => .returned (composeView m)
  | none => .failed (.badRequest "Record to update not found.")

/-- One step. -/
def step [CaseMapping] (env : Env) (s : State Caller) : Label Caller → Option (State Caller)
  | .start c r lookupsFail ids =>
    match s.calls c with
    | .idle => some (s.setCall c (planned env s.db r lookupsFail ids))
    | _ => none
  | .commit c =>
    match s.calls c with
    | .planned r plan =>
      some { s.setCall c (commit s.db r plan).2 with db := (commit s.db r plan).1 }
    | _ => none
  | .callEngine c resolved result =>
    match s.calls c with
    | .queued r plan =>
      some { s.setCall c (.handed r plan result) with
        log := s.log ++ [handOff c r plan resolved result] }
    | _ => none
  | .stamp c =>
    match s.calls c with
    | .handed _ plan result =>
      let messages := stampSendResult s.db.messages plan.messageId result
      some { s.setCall c (stamped messages plan.messageId) with
        db := { s.db with messages := messages } }
    | _ => none
  | .crash c => some (s.setCall c .crashed)
  | .settings settings => some { s with db := { s.db with settings := settings } }

/-- The protocol. Initially no call has begun; the database is any. -/
def system [CaseMapping] (env : Env) : System (State Caller) (Label Caller) where
  init s := (∀ c, s.calls c = .idle) ∧ s.log = []
  step := step env

/-- **What a step does**, label by label. -/
theorem step_eq_some [CaseMapping] {env : Env} {s s' : State Caller} {l : Label Caller}
    (h : (system env).step s l = some s') :
    (∃ c r f ids, l = .start c r f ids ∧ s.calls c = .idle ∧
      s' = s.setCall c (planned env s.db r f ids)) ∨
    (∃ c r plan, l = .commit c ∧ s.calls c = .planned r plan ∧
      s' = { s.setCall c (commit s.db r plan).2 with db := (commit s.db r plan).1 }) ∨
    (∃ c r plan resolved result, l = .callEngine c resolved result ∧ s.calls c = .queued r plan ∧
      s' = { s.setCall c (.handed r plan result) with
        log := s.log ++ [handOff c r plan resolved result] }) ∨
    (∃ c r plan result, l = .stamp c ∧ s.calls c = .handed r plan result ∧
      s' = { s.setCall c (stamped (stampSendResult s.db.messages plan.messageId result)
          plan.messageId) with
        db := { s.db with messages := stampSendResult s.db.messages plan.messageId result } }) ∨
    (∃ c, l = .crash c ∧ s' = s.setCall c .crashed) ∨
    (∃ t, l = .settings t ∧ s' = { s with db := { s.db with settings := t } }) := by
  change Compose.step env s l = some s' at h
  cases l with
  | start c r f ids =>
    simp only [step] at h
    split at h
    · rename_i hc
      exact .inl ⟨c, r, f, ids, rfl, hc, (Option.some.inj h).symm⟩
    · cases h
  | commit c =>
    simp only [step] at h
    split at h
    · rename_i r plan hc
      exact .inr (.inl ⟨c, r, plan, rfl, hc, (Option.some.inj h).symm⟩)
    · cases h
  | callEngine c resolved result =>
    simp only [step] at h
    split at h
    · rename_i r plan hc
      exact .inr (.inr (.inl ⟨c, r, plan, resolved, result, rfl, hc, (Option.some.inj h).symm⟩))
    · cases h
  | stamp c =>
    simp only [step] at h
    split at h
    · rename_i r plan result hc
      exact .inr (.inr (.inr (.inl ⟨c, r, plan, result, rfl, hc, (Option.some.inj h).symm⟩)))
    · cases h
  | crash c => exact .inr (.inr (.inr (.inr (.inl ⟨c, rfl, (Option.some.inj h).symm⟩))))
  | settings t => exact .inr (.inr (.inr (.inr (.inr ⟨t, rfl, (Option.some.inj h).symm⟩))))

/-- **What a commit does**: it is refused, or it returns the stored message, or it
stages a draft, or it queues a message. -/
theorem commit_cases (db : Db) (r : Request) (plan : ComposePlan) :
    (∃ e, commit db r plan = (db, .failed e)) ∨
    (∃ view, plan = .done view ∧ commit db r plan = (db, .returned view)) ∨
    (∃ msg item db', plan = .stage msg item ∧ insertMessage db msg = .ok db' ∧
      commit db r plan =
        ({ db' with inbox := db'.inbox ++ [item] }, .returned (composeView msg))) ∨
    (∃ msg sendPlan db', plan = .send msg sendPlan ∧ insertMessage db msg = .ok db' ∧
      commit db r plan = (db', .queued r sendPlan)) := by
  unfold commit
  cases plan with
  | done view => exact .inr (.inl ⟨view, rfl, rfl⟩)
  | stage msg item =>
    simp only [ComposePlan.commit]
    cases hins : insertMessage db msg with
    | error e => exact .inl ⟨e, rfl⟩
    | ok db' => exact .inr (.inr (.inl ⟨msg, item, db', rfl, hins, rfl⟩))
  | send msg plan =>
    simp only [ComposePlan.commit]
    cases hins : insertMessage db msg with
    | error e => exact .inl ⟨e, rfl⟩
    | ok db' => exact .inr (.inr (.inr ⟨msg, plan, db', rfl, hins, rfl⟩))

/-! ### What a step does to the calls and to the log -/

/-- The key a call works for while it runs. -/
def Call.activeKey : Call → Option Triple
  | .planned r _ | .queued r _ | .handed r _ _ => some r.triple
  | _ => none

theorem activeKey_commit {db : Db} {r : Request} {plan : ComposePlan} {t : Triple}
    (h : (commit db r plan).2.activeKey = some t) : t = r.triple := by
  rcases commit_cases db r plan with ⟨e, hcommit⟩ | ⟨view, -, hcommit⟩ |
    ⟨msg, item, db', -, -, hcommit⟩ | ⟨msg, sendPlan, db', -, -, hcommit⟩ <;> rw [hcommit] at h
  · cases h
  · cases h
  · cases h
  · exact (Option.some.inj h).symm

theorem activeKey_planned [CaseMapping] {env : Env} {db : Db} {r : Request} {f : Bool} {ids : NewIds}
    {t : Triple} (h : (planned env db r f ids).activeKey = some t) : t = r.triple := by
  unfold planned at h
  split at h
  · exact (Option.some.inj h).symm
  · cases h

theorem activeKey_stamped (messages : List EmailMessage) (id : String) :
    (stamped messages id).activeKey = none := by
  unfold stamped
  split <;> rfl

/-- **What a compose step does to the calls.** Besides the call the step is
about, no call changes, and that one works for the key it worked for, or begins
to work for that of its request. -/
theorem activeKey_step [CaseMapping] {env : Env} {c c' : State Caller} {l : Label Caller}
    (hs : (system env).step c l = some c') (d : Caller) {t : Triple}
    (ht : (c'.calls d).activeKey = some t) :
    (c.calls d).activeKey = some t ∨ ∃ r f ids, l = .start d r f ids ∧ t = r.triple := by
  -- A call that the step moved to `call` works for a key `call` names.
  have moved : ∀ {e : Caller} {call : Call}, ((c.setCall e call).calls d).activeKey = some t →
      (d = e ∧ call.activeKey = some t) ∨ (c.calls d).activeKey = some t := by
    intro e call h
    change (Function.update c.calls e call d).activeKey = some t at h
    rcases update_cases (Call.activeKey · = some t) h with ⟨rfl, hmoved⟩ | ⟨-, h⟩
    · exact .inl ⟨rfl, hmoved⟩
    · exact .inr h
  rcases step_eq_some hs with ⟨e, r, f, ids, rfl, hc, rfl⟩ | ⟨e, r, plan, rfl, hc, rfl⟩ |
    ⟨e, r, plan, resolved, result, rfl, hc, rfl⟩ | ⟨e, r, plan, result, rfl, hc, rfl⟩ |
    ⟨e, rfl, rfl⟩ | ⟨settings, rfl, rfl⟩
  · rcases moved ht with ⟨rfl, h⟩ | h
    · exact .inr ⟨r, f, ids, rfl, activeKey_planned h⟩
    · exact .inl h
  · rcases moved ht with ⟨rfl, h⟩ | h
    · rw [hc, activeKey_commit h]
      exact .inl rfl
    · exact .inl h
  · rcases moved ht with ⟨rfl, h⟩ | h
    · rw [hc]
      exact .inl h
    · exact .inl h
  · rcases moved ht with ⟨rfl, h⟩ | h
    · rw [activeKey_stamped] at h
      cases h
    · exact .inl h
  · rcases moved ht with ⟨rfl, h⟩ | h
    · cases h
    · exact .inl h
  · exact .inl ht

/-- **What a compose step does to the log.** A new engine call is that of a call
working for the key it is logged under. -/
theorem log_step [CaseMapping] {env : Env} {c c' : State Caller} {l : Label Caller}
    (hs : (system env).step c l = some c') {e : HandOff Caller} (he : e ∈ c'.log) :
    e ∈ c.log ∨ ∃ r plan resolved result, c.calls e.caller = .queued r plan ∧
      e = handOff e.caller r plan resolved result ∧ l = .callEngine e.caller resolved result := by
  rcases step_eq_some hs with ⟨d, r, f, ids, rfl, hc, rfl⟩ | ⟨d, r, plan, rfl, hc, rfl⟩ |
    ⟨d, r, plan, resolved, result, rfl, hc, rfl⟩ | ⟨d, r, plan, result, rfl, hc, rfl⟩ |
    ⟨d, rfl, rfl⟩ | ⟨settings, rfl, rfl⟩
  · exact .inl he
  · exact .inl he
  · rcases List.mem_append.mp he with h | h
    · exact .inl h
    · obtain rfl := List.mem_singleton.mp h
      exact .inr ⟨r, plan, resolved, result, hc, rfl, rfl⟩
  · exact .inl he
  · exact .inl he
  · exact .inl he

/-- The call whose work a step does. -/
def Label.about : Label Caller → Option Caller
  | .commit c | .callEngine c _ _ | .stamp c => some c
  | _ => none

/-- A call whose work is done works for a key. -/
theorem exists_activeKey_of_about [CaseMapping] {env : Env} {c c' : State Caller}
    {l : Label Caller} (hs : (system env).step c l = some c') {d : Caller}
    (hl : l.about = some d) : ∃ t, (c.calls d).activeKey = some t := by
  rcases step_eq_some hs with ⟨e, r, f, ids, rfl, hc, -⟩ | ⟨e, r, plan, rfl, hc, -⟩ |
    ⟨e, r, plan, resolved, result, rfl, hc, -⟩ | ⟨e, r, plan, result, rfl, hc, -⟩ |
    ⟨e, rfl, -⟩ | ⟨settings, rfl, -⟩ <;> cases hl
  · exact ⟨r.triple, by rw [hc]; rfl⟩
  · exact ⟨r.triple, by rw [hc]; rfl⟩
  · exact ⟨r.triple, by rw [hc]; rfl⟩

/-- A compose step changes only the call its label names. -/
theorem calls_of_ne [CaseMapping] {env : Env} {c c' : State Caller} {l : Label Caller}
    (hs : (system env).step c l = some c') {d : Caller} (hl : l.about ≠ some d)
    (hstart : ∀ r f ids, l ≠ .start d r f ids) (hcrash : l ≠ .crash d) :
    c'.calls d = c.calls d := by
  rcases step_eq_some hs with ⟨e, r, f, ids, rfl, hc, rfl⟩ | ⟨e, r, plan, rfl, hc, rfl⟩ |
    ⟨e, r, plan, resolved, result, rfl, hc, rfl⟩ | ⟨e, r, plan, result, rfl, hc, rfl⟩ |
    ⟨e, rfl, rfl⟩ | ⟨settings, rfl, rfl⟩
  · exact Function.update_of_ne (fun hde => hstart r f ids (by rw [hde])) _ _
  · exact Function.update_of_ne (fun hde => hl (by rw [hde]; rfl)) _ _
  · exact Function.update_of_ne (fun hde => hl (by rw [hde]; rfl)) _ _
  · exact Function.update_of_ne (fun hde => hl (by rw [hde]; rfl)) _ _
  · exact Function.update_of_ne (fun hde => hcrash (by rw [hde])) _ _
  · rfl

/-! ### Plans carry the key of their call -/

/-- The row a plan creates carries the key. -/
def ComposePlan.Carries (plan : ComposePlan) (t : Triple) : Prop :=
  match plan with
  | .done _ => True
  | .stage msg _ => msg.triple? = some t
  | .send msg _ => msg.triple? = some t

/-- Every plan is about its call's key. -/
def PlanInv (s : State Caller) : Prop :=
  ∀ c r plan, s.calls c = .planned r plan → ComposePlan.Carries plan r.triple

theorem PlanInv.initial [CaseMapping] {env : Env} {s : State Caller}
    (h : (system env).init s) : PlanInv s := by
  intro c r plan hc
  rw [h.1 c] at hc
  cases hc

/-- What phase 1 plans carries the key. -/
theorem carries_of_planned [CaseMapping] {env : Env} {db : Db} {r r' : Request} {f : Bool} {ids : NewIds}
    {plan : ComposePlan} (h : planned env db r f ids = .planned r' plan) :
    r' = r ∧ ComposePlan.Carries plan r.triple := by
  unfold planned at h
  split at h
  · rename_i plan' hplan
    cases h
    refine ⟨rfl, ?_⟩
    cases plan with
    | done view => trivial
    | stage msg item =>
      obtain ⟨mailbox, -, -, rfl, -⟩ := composePlan_stage hplan
      rfl
    | send msg plan =>
      obtain ⟨mailbox, footer, -, -, -, rfl, -⟩ := composePlan_send hplan
      rfl
  · cases h

/-- A call that only moves itself to a state that is not `planned` keeps every
plan's key. -/
private theorem PlanInv.setCall {s : State Caller} (h : PlanInv s) (c : Caller) (call : Call)
    (hcall : ∀ r plan, call = .planned r plan → ComposePlan.Carries plan r.triple) :
    PlanInv (s.setCall c call) := by
  intro d r plan hd
  by_cases hdc : d = c
  · subst hdc
    change Function.update s.calls d call d = _ at hd
    rw [Function.update_self] at hd
    exact hcall r plan hd
  · change Function.update s.calls c call d = _ at hd
    rw [Function.update_of_ne hdc] at hd
    exact h d r plan hd

theorem commit_ne_planned (db : Db) (r r' : Request) (plan plan' : ComposePlan) :
    (commit db r plan).2 ≠ .planned r' plan' := by
  rcases commit_cases db r plan with ⟨e, hcommit⟩ | ⟨view, -, hcommit⟩ |
    ⟨msg, item, db', -, -, hcommit⟩ | ⟨msg, sendPlan, db', -, -, hcommit⟩ <;>
  · rw [hcommit]
    simp

theorem stamped_ne_planned (messages : List EmailMessage) (id : String) (r : Request)
    (plan : ComposePlan) : stamped messages id ≠ .planned r plan := by
  unfold stamped
  split <;> simp

theorem PlanInv.step [CaseMapping] {env : Env} {s s' : State Caller} {l : Label Caller} (h : PlanInv s)
    (hs : (system env).step s l = some s') : PlanInv s' := by
  rcases step_eq_some hs with ⟨c, r, f, ids, -, -, rfl⟩ | ⟨c, r, plan, -, -, rfl⟩ |
    ⟨c, r, plan, resolved, result, -, -, rfl⟩ | ⟨c, r, plan, result, -, -, rfl⟩ |
    ⟨c, -, rfl⟩ | ⟨t, -, rfl⟩
  · refine h.setCall c _ fun r' plan hplan => ?_
    obtain ⟨rfl, hcarries⟩ := carries_of_planned hplan
    exact hcarries
  · exact h.setCall c _ fun r' plan' hp => absurd hp (commit_ne_planned _ _ _ _ _)
  · exact h.setCall c (.handed r plan result) fun r' plan' hp => by cases hp
  · exact h.setCall c _ fun r' plan' hp => absurd hp (stamped_ne_planned _ _ _ _)
  · exact h.setCall c .crashed fun r' plan' hp => by cases hp
  · exact h

theorem planInv_of_reachable [CaseMapping] {env : Env} {s : State Caller}
    (h : (system env).Reachable s) : PlanInv s :=
  h.invariant (P := PlanInv) (fun _ h0 => PlanInv.initial h0) fun _ _ _ _ hi hs => hi.step hs

/-! ### The once-per-key machine in the protocol -/

/-- The key a call has the right to send under: that of its queued row. -/
def Call.holds : Call → Option Triple
  | .queued r _ => some r.triple
  | _ => none

/-- Does a row carry the key? -/
def hasKey (db : Db) (t : Triple) : Bool :=
  db.messages.any fun m => m.triple? = some t

/-- How often the engine was called under a key. -/
def engineCalls (log : List (HandOff Caller)) (t : Triple) : ℕ :=
  log.countP fun h => h.triple = t

/-- **The abstraction.** Keys, holders and engine calls. -/
def onceView (s : State Caller) : Once.State Triple Caller where
  taken t := hasKey s.db t
  holder c := (s.calls c).holds
  spent t := engineCalls s.log t

/-- Moving a call moves what it holds. -/
private theorem holder_update (calls : Caller → Call) (c : Caller)
    (call : Call) :
    (fun d => (Function.update calls c call d).holds) =
      Function.update (fun d => (calls d).holds) c call.holds := by
  funext d
  by_cases hdc : d = c
  · subst hdc
    simp
  · simp [Function.update_of_ne hdc]

private theorem holder_stutter (calls : Caller → Call) (c : Caller) (call : Call)
    (hold : (calls c).holds = none) (hnew : call.holds = none) :
    (fun d => (Function.update calls c call d).holds) = fun d => (calls d).holds := by
  rw [holder_update, hnew, ← hold]
  exact Function.update_eq_self c _

/-- Inserting a row takes its key. -/
theorem hasKey_append {db : Db} {msg : EmailMessage} {t : Triple} (hmsg : msg.triple? = some t) :
    hasKey { db with messages := db.messages ++ [msg] } = Function.update (hasKey db) t true := by
  funext u
  unfold hasKey
  rw [List.any_append]
  by_cases hut : u = t
  · subst hut
    simp [hmsg]
  · have hne : ¬t = u := fun h => hut h.symm
    simp [Function.update_of_ne hut, hmsg, hne]

theorem hasKey_of_insert {db db' : Db} {msg : EmailMessage} {t : Triple}
    (hmsg : msg.triple? = some t) (h : insertMessage db msg = .ok db') : hasKey db t = false := by
  unfold hasKey
  rw [List.any_eq_false]
  intro m hm
  have := ((insertMessage_ok h).1 m hm).2
  simpa [← hmsg] using this

/-- A step the machine does not see, or one step of the machine. -/
def OnceStep (s s' : State Caller) : Prop :=
  onceView s' = onceView s ∨ ∃ k, Once.system.step (onceView s) k = some (onceView s')

private theorem onceStep_stutter {s : State Caller} (c : Caller) (call : Call)
    (hold : (s.calls c).holds = none) (hnew : call.holds = none) :
    OnceStep s (s.setCall c call) := by
  left
  have hholder := holder_stutter s.calls c call hold hnew
  exact congrArg (fun h => { onceView s with holder := h }) hholder

/-- An insert that stages a draft takes the key, and nobody may send under it. -/
private theorem onceStep_stage {s : State Caller} {db : Db} {c : Caller} {call : Call} {t : Triple}
    {msg : EmailMessage} {item : AgentInboxItem} (hold : (s.calls c).holds = none)
    (hnew : call.holds = none) (hmsg : msg.triple? = some t)
    (hins : insertMessage s.db msg = .ok db) :
    OnceStep s { s.setCall c call with db := { db with inbox := db.inbox ++ [item] } } := by
  right
  refine ⟨.mark t, ?_⟩
  have hfree : (onceView s).taken t = false := hasKey_of_insert hmsg hins
  rw [Once.step_mark hfree]
  obtain ⟨-, rfl⟩ := insertMessage_ok hins
  have htaken : hasKey { s.db with messages := s.db.messages ++ [msg] } =
      Function.update (hasKey s.db) _ true := hasKey_append hmsg
  have hholder := holder_stutter s.calls c call hold hnew
  exact congrArg some (congrArg₂ (fun taken holder => { onceView s with taken, holder })
    htaken.symm hholder.symm)

/-- An insert that queues a message takes the key for the call. -/
private theorem onceStep_queue {s : State Caller} {db : Db} {c : Caller} {r : Request}
    {plan : SendPlan} {msg : EmailMessage} (hmsg : msg.triple? = some r.triple)
    (hins : insertMessage s.db msg = .ok db) :
    OnceStep s { s.setCall c (.queued r plan) with db := db } := by
  right
  refine ⟨.take c r.triple, ?_⟩
  have hfree : (onceView s).taken r.triple = false := hasKey_of_insert hmsg hins
  rw [Once.step_take hfree]
  obtain ⟨-, rfl⟩ := insertMessage_ok hins
  have htaken : hasKey { s.db with messages := s.db.messages ++ [msg] } =
      Function.update (hasKey s.db) _ true := hasKey_append hmsg
  have hholder := holder_update s.calls c (.queued r plan)
  exact congrArg some (congrArg₂ (fun taken holder => { onceView s with taken, holder })
    htaken.symm hholder.symm)

/-- The commit of a plan takes or marks the key, or changes nothing. -/
private theorem onceStep_commit {s : State Caller} {c : Caller} {r : Request} {plan : ComposePlan}
    (hcarries : ComposePlan.Carries plan r.triple) (hold : (s.calls c).holds = none) :
    OnceStep s { s.setCall c (commit s.db r plan).2 with db := (commit s.db r plan).1 } := by
  rcases commit_cases s.db r plan with ⟨e, hcommit⟩ | ⟨view, -, hcommit⟩ |
    ⟨msg, item, db, rfl, hins, hcommit⟩ | ⟨msg, sendPlan, db, rfl, hins, hcommit⟩ <;>
    rw [hcommit]
  · exact onceStep_stutter c (.failed e) hold rfl
  · exact onceStep_stutter c (.returned view) hold rfl
  · exact onceStep_stage hold rfl hcarries hins
  · exact onceStep_queue hcarries hins

/-- The engine call spends the key its call holds. -/
private theorem onceStep_engine {s : State Caller} {c : Caller} {r : Request} {plan : SendPlan}
    (resolved : Option ReplyHeaders) (result : EngineSendResult)
    (hc : s.calls c = .queued r plan) :
    OnceStep s { s.setCall c (.handed r plan result) with
      log := s.log ++ [handOff c r plan resolved result] } := by
  right
  refine ⟨.spend c, ?_⟩
  have hheld : (onceView s).holder c = some r.triple := by
    change (s.calls c).holds = _
    rw [hc]
    rfl
  rw [Once.step_spend hheld]
  have hholder := holder_update s.calls c (.handed r plan result)
  have hspent : (fun t => engineCalls (s.log ++ [handOff c r plan resolved result]) t) =
      Function.update (fun t => engineCalls s.log t) r.triple (engineCalls s.log r.triple + 1) := by
    funext t
    unfold engineCalls
    rw [List.countP_append]
    by_cases ht : t = r.triple
    · subst ht
      simp [handOff]
    · have hne : ¬r.triple = t := fun h => ht h.symm
      simp [Function.update_of_ne ht, handOff, hne]
  exact congrArg some (congrArg₂ (fun holder spent => { onceView s with holder, spent })
    hholder.symm hspent.symm)

/-- Recording the engine's answer keeps every key and every holder. -/
private theorem onceStep_stamp {s : State Caller} {c : Caller} (messageId : String)
    (result : EngineSendResult) (hold : (s.calls c).holds = none) :
    OnceStep s { s.setCall c (stamped (stampSendResult s.db.messages messageId result) messageId) with
      db := { s.db with messages := stampSendResult s.db.messages messageId result } } := by
  left
  have hkey : hasKey { s.db with messages := stampSendResult s.db.messages messageId result } =
      hasKey s.db := funext fun t => any_triple?_stampSendResult _ _ _ t
  have hnew : (stamped (stampSendResult s.db.messages messageId result) messageId).holds = none := by
    unfold stamped
    split <;> rfl
  have hholder := holder_stutter s.calls c _ hold hnew
  exact congrArg₂ (fun taken holder => { onceView s with taken, holder }) hkey hholder

/-- **The protocol refines the machine.** An insert takes or marks the key, the
engine call spends it, a crash releases it; every other step is invisible. -/
def toOnce [CaseMapping] (env : Env) :
    Simulation (system env : System (State Caller) (Label Caller))
      (Once.system : System (Once.State Triple Caller) (Once.Label Triple Caller)) where
  map := onceView
  init s h := by
    refine ⟨fun c => ?_, fun t => ?_⟩
    · change (s.calls c).holds = none
      rw [h.1 c]
      rfl
    · change engineCalls s.log t = 0
      rw [h.2]
      rfl
  step s l s' hr hs := by
    have hplan := planInv_of_reachable hr
    rcases step_eq_some hs with ⟨c, r, f, ids, -, hc, rfl⟩ | ⟨c, r, plan, -, hc, rfl⟩ |
      ⟨c, r, plan, resolved, result, -, hc, rfl⟩ | ⟨c, r, plan, result, -, hc, rfl⟩ |
      ⟨c, -, rfl⟩ | ⟨t, -, rfl⟩
    · -- The reads of phase 1 leave the call without a row.
      have hnew : (planned env s.db r f ids).holds = none := by
        unfold planned
        split <;> rfl
      exact onceStep_stutter c _ (by rw [hc]; rfl) hnew
    · exact onceStep_commit (hplan c r plan hc) (by rw [hc]; rfl)
    · exact onceStep_engine resolved result hc
    · exact onceStep_stamp _ result (by rw [hc]; rfl)
    · right
      refine ⟨.release c, ?_⟩
      have hholder := holder_update s.calls c .crashed
      rw [Once.step_release]
      exact congrArg some (congrArg (fun holder => { onceView s with holder }) hholder.symm)
    · exact .inl rfl

/-- **At most one engine call.** In every run of any number of concurrent and
retried calls, with crashes between any two phases, the engine is called at most
once under an idempotency key. -/
theorem engine_called_at_most_once [CaseMapping] (env : Env) {s : State Caller}
    (h : (system env).Reachable s) (t : Triple) : engineCalls s.log t ≤ 1 :=
  Once.spent_le_one ((toOnce env).reachable h) t

/-- A request of an outside partner, and two calls racing with it: the second one
is refused by the unique index, and the engine is called for the first. -/
theorem engine_called_at_most_once_race :
    ∃ s : State ℕ, engineCalls s.log ("ws", "customer-ops", "ref-1") ≤ 1 ∧
      s.calls 1 = .failed .uniqueViolation ∧ s.log.length = 1 :=
  let env : Env := ⟨defaultTrustedComposeSources, true⟩
  let r : Request := ⟨"ws", none,
    { toAddress := "ada@example.org".toList, subject := "Hello".toList, body := "Hi".toList,
      mode := .send, externalSource := "customer-ops", externalRef := "ref-1" }⟩
  let s₀ : State ℕ := ⟨{}, fun _ => .idle, []⟩
  ⟨_, engine_called_at_most_once env (s := ((system env).exec s₀
      [.start 0 r false ⟨"m0", "i0"⟩, .start 1 r false ⟨"m1", "i1"⟩, .commit 0, .commit 1,
        .callEngine 0 none ⟨true, some "p0", none, none, none⟩, .stamp 0]).get rfl)
      (System.exec_reachable ⟨fun _ => rfl, rfl⟩ (Option.some_get _).symm) _, rfl, rfl⟩

end Compose
end EmailOps
