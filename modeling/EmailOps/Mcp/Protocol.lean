import EmailOps.Email.ApprovalProtocol
import EmailOps.Mcp.Tools
import EmailOps.Scheduling.Protocol

/-!
# An agent at the tools

An agent calls the MCP tools, one after the other or at once, with arguments of its
choosing, while humans compose, schedule, approve and change the settings, and the
scheduler sweeps. The scheduler (with the composes in it) and the approvals are
components of the state; they share one database.

* `Mcp.system` is the protocol. Its log tells of every engine call whose doing it
  was, and `verdicts` what the gates said when the agent called `compose_email`.
* `Mcp.Gated` is what an engine call of the agent's doing should rest on: the
  entitlement gate and the autonomy decision *for that agent*.
* The code does not guarantee it (`trusted_source_is_not_gated`): the agent names
  itself in the arguments, and `schedule_send` asks no gate.
* `Mcp.Careful` is the condition under which it does, and
  `Mcp.agent_sends_are_gated` the result.
-/

namespace EmailOps
namespace Mcp

open Framework

/-! ### The protocol -/

/-- The configuration of the service. -/
structure Config where
  env : Env
  entitlementMode : EntitlementMode

/-- Whose doing an engine call is. What no tool call of the agent began is a
human's. -/
inductive Source where
  | human | agentCompose | agentSchedule | agentApproval
  deriving DecidableEq

/-- An engine call: whose doing, of which message under which key, with what
request. -/
structure Handed where
  source : Source
  triple : Option Triple
  messageId : String
  req : SendReq

/-- What the gates said to a `compose_email` call, for the message it would create:
the entitlement gate, the registered agent and the autonomy decision. -/
structure Verdict where
  triple : Triple
  messageId : String
  entitled : Bool
  agent : Option Agent
  mode : EmailMode

/-- The state of the protocol. -/
structure State where
  scheduler : Scheduler.State
  approvals : ℕ → Approval.Call
  /-- The composes the agent began. -/
  agentComposes : List ℕ
  /-- The keys of the rows the agent scheduled. -/
  agentRows : List Triple
  /-- The approvals the agent began. -/
  agentApprovals : List ℕ
  verdicts : List Verdict
  /-- The engine calls so far, oldest first. -/
  log : List Handed

/-- The steps of the protocol. -/
inductive Label where
  /-- The agent calls `compose_email`. -/
  | composeEmail (k : ℕ) (user : User) (workspaceId : String) (args : ComposeEmailArgs)
      (lookupsFail : Bool) (ids : NewIds)
  /-- The agent calls `schedule_send`. -/
  | scheduleSend (user : User) (workspaceId : String) (args : ScheduleSendArgs)
      (configured : Bool) (newId : String)
  /-- The agent calls `approve_agent_inbox_item`. -/
  | approveItem (c : ℕ) (user : User) (workspaceId itemId : String)
  /-- A step of the scheduler or of a compose, or one a human begins. -/
  | scheduler (l : Scheduler.Label)
  /-- A step of an approval, or one a human begins. -/
  | approval (l : Approval.Label)

/-- The approvals' view of the state. -/
def State.approval (s : State) : Approval.State :=
  ⟨s.scheduler.compose.db, s.approvals, []⟩

/-- Put the approvals' view back. -/
def State.setApproval (s : State) (a : Approval.State) : State :=
  { s with
    scheduler := { s.scheduler with compose := { s.scheduler.compose with db := a.db } }
    approvals := a.calls }

/-- Whose doing a compose is: the agent's own, that of a row the agent scheduled, or a
human's. -/
def State.sourceOf (s : State) (caller : Scheduler.Caller) (r : Compose.Request) : Source :=
  match caller with
  | .other k => if k ∈ s.agentComposes then .agentCompose else .human
  | .worker _ _ => if r.triple ∈ s.agentRows then .agentSchedule else .human

/-- The engine call of a step of a compose. -/
def State.composeHands (s : State) : Scheduler.Label → List Handed
  | .compose (.callEngine caller resolved _) =>
    match s.scheduler.compose.calls caller with
    | .queued r plan =>
      [⟨s.sourceOf caller r, some r.triple, plan.messageId,
        withReplyHeaders r.input resolved plan.req⟩]
    | _ => []
  | _ => []

/-- The engine call of a step of an approval. -/
def State.approvalHands (s : State) : Approval.Label → List Handed
  | .callEngine c _ =>
    match s.approvals c with
    | .sending _ _ plan =>
      [⟨if c ∈ s.agentApprovals then .agentApproval else .human,
        (s.scheduler.compose.db.messages.find? (·.id = plan.messageId)).bind (·.triple?),
        plan.messageId, plan.req⟩]
    | _ => []
  | _ => []

section

variable [CaseMapping]

/-- The compose request of a `compose_email` call. -/
def composeRequest (user : User) (workspaceId : String) (args : ComposeEmailArgs) :
    Compose.Request :=
  ⟨workspaceId, user.ucUid, args.input⟩

/-- What the gates say to a call, none when it fails before the decision. -/
def verdictOf (env : Env) (entitlement : EntitlementDecision) (db : Db) (lookupsFail : Bool)
    (r : Compose.Request) (ids : NewIds) : Option Verdict :=
  let agent := resolveAgent db.settings r.workspaceId r.input
  match composeMailbox db.settings r.workspaceId r.ucUid agent r.input with
  | .error _ => none
  | .ok mailbox =>
    some
      { triple := r.triple
        messageId := ids.messageId
        entitled := entitlement.allowed
        agent := agent
        mode := (composeDecision env db lookupsFail r.workspaceId agent mailbox r.input).mode }

/-- One step. -/
def step (config : Config) (s : State) : Label → Option State
  | .composeEmail k user workspaceId args lookupsFail ids =>
    let gate := checkComposeEntitlement config.entitlementMode user.entitlements
    if gate.allowed then
      let r := composeRequest user workspaceId args
      (Scheduler.step config.env s.scheduler
        (.compose (.start (.other k) r lookupsFail ids))).map fun scheduler =>
          { s with
            scheduler := scheduler
            agentComposes := k :: s.agentComposes
            verdicts := s.verdicts ++
              (verdictOf config.env gate s.scheduler.compose.db lookupsFail r ids).toList }
    else some s
  | .scheduleSend user workspaceId args configured newId =>
    (Scheduler.step config.env s.scheduler
      (.schedule configured user.ucUid workspaceId args.mailboxId args.payload args.sendAt
        newId)).map fun scheduler =>
          { s with
            scheduler := scheduler
            agentRows := (workspaceId, schedulerSource, scheduledRef newId) :: s.agentRows }
  | .approveItem c user workspaceId itemId =>
    if approveGate config.entitlementMode user s.scheduler.compose.db workspaceId itemId then
      (Approval.step s.approval (.approve c workspaceId user.ucUid itemId)).map fun a =>
        { s.setApproval a with agentApprovals := c :: s.agentApprovals }
    else some s
  | .scheduler l =>
    (Scheduler.step config.env s.scheduler l).map fun scheduler =>
      { s with scheduler := scheduler, log := s.log ++ s.composeHands l }
  | .approval l =>
    (Approval.step s.approval l).map fun a =>
      { s.setApproval a with log := s.log ++ s.approvalHands l }

/-- The protocol. Initially nothing runs; the database is any. -/
def system (config : Config) : System State Label where
  init s := (Scheduler.system config.env).init s.scheduler ∧ (∀ c, s.approvals c = .idle) ∧
    s.agentComposes = [] ∧ s.agentRows = [] ∧ s.agentApprovals = [] ∧ s.verdicts = [] ∧ s.log = []
  step := step config

end

/-! ### What the gates should guarantee -/

/-- The gates let the agent `me` send the message: the entitlement gate passed for it,
and the autonomy decision for the registered agent was to send. -/
def Decided (me : String) (verdicts : List Verdict) (t : Triple) (messageId : String) : Prop :=
  ∃ v ∈ verdicts, v.triple = t ∧ v.messageId = messageId ∧ v.entitled = true ∧
    (∃ agent, v.agent = some agent ∧ agent.key = me) ∧ v.mode = .send

/-- An engine call that rests on the gates. -/
def Gated (me : String) (s : State) (h : Handed) : Prop :=
  ∃ t, h.triple = some t ∧ Decided me s.verdicts t h.messageId

/-- **The guarantee**: every engine call that is the doing of the agent `me`, and no
human's, rests on the gates. -/
def AllGated (me : String) (s : State) : Prop :=
  ∀ h ∈ s.log, h.source ≠ .human → Gated me s h

/-! ### The code does not keep it -/

/-- A workspace with one shared mailbox and no registered agent. -/
def sampleStart : State where
  scheduler := Scheduler.sampleStart
  approvals := fun _ => .idle
  agentComposes := []
  agentRows := []
  agentApprovals := []
  verdicts := []
  log := []

def sampleConfig : Config := ⟨Scheduler.sampleEnv, .enforce⟩

/-- A caller who holds both SKUs. -/
def sampleUser : User := ⟨some "u", [skuCustomerOps, skuEmailOps]⟩

theorem sampleStart_init : (system sampleConfig).init sampleStart :=
  ⟨Scheduler.sampleStart_init, fun _ => rfl, rfl, rfl, rfl, rfl, rfl⟩

def sampleArgs (externalSource : String) : ComposeEmailArgs where
  toAddress := "ada@example.net".toList
  subject := "Hello".toList
  body := "Hi.".toList
  mode := none
  inReplyToThreadId := none
  externalSource := externalSource
  externalRef := "r"

/-- **The code does not keep it.** An agent names a first-party source in its arguments.
No agent is registered under that name, so the send counts as the service's own: no
autonomy decision is made for the agent, and no human sees it. -/
theorem trusted_source_is_not_gated :
    ¬∀ (config : Config) (me : String) (s : State), (system config).Reachable s →
      AllGated me s := by
  intro hclaim
  let run : List Label :=
    [.composeEmail 0 sampleUser "ws" (sampleArgs "customer-ops") false ⟨"m", "i"⟩,
      .scheduler (.compose (.commit (.other 0))),
      .scheduler (.compose (.callEngine (.other 0) none ⟨true, some "p", none, none, none⟩))]
  have hrun : ((system sampleConfig).exec sampleStart run).isSome = true := rfl
  obtain ⟨s, hreach, hlog, hverdicts⟩ : ∃ s, (system sampleConfig).Reachable s ∧
      s.log.map (·.source) = [.agentCompose] ∧ s.verdicts.map (·.agent.isSome) = [false] :=
    ⟨_, System.exec_reachable sampleStart_init (Option.some_get hrun).symm, rfl, rfl⟩
  obtain ⟨h, hmem, hsource⟩ := List.mem_map.mp (hlog ▸ List.mem_singleton_self _)
  obtain ⟨t, -, v, hv, -, -, -, ⟨agent, hagent, -⟩, -⟩ :=
    hclaim sampleConfig "perry" s hreach h hmem (by rw [hsource]; decide)
  -- The one verdict knows no agent.
  have hnone := List.mem_map_of_mem (f := fun v => v.agent.isSome) hv
  rw [hverdicts, hagent] at hnone
  cases List.mem_singleton.mp hnone

/-! ### Careful runs -/

section Careful

variable [CaseMapping]

/-- **The condition.** The agent composes under its own registered key, or under an
unregistered one that is not trusted, or asks for a draft; it approves no item that
would be sent; and no row it scheduled is handed over. -/
def Careful (config : Config) (me : String) (s : State) : Label → Prop
  | .composeEmail _ user workspaceId args _ _ =>
    let agent := resolveAgent s.scheduler.compose.db.settings workspaceId args.input
    (checkComposeEntitlement config.entitlementMode user.entitlements).allowed = true →
      args.mode = some .draft ∨ (agent.isSome = true ∧ args.externalSource = me) ∨
        (agent = none ∧ args.externalSource ∉ config.env.trustedComposeSources)
  | .approveItem _ user workspaceId itemId => ∀ itemId' draftedBy plan,
      approvePlan s.scheduler.compose.db workspaceId user.ucUid itemId ≠
        .ok (.send itemId' draftedBy plan)
  | .scheduler (.compose (.callEngine (.worker w n) _ _)) => ∀ r plan,
      s.scheduler.compose.calls (.worker w n) = .queued r plan → r.triple ∉ s.agentRows
  | _ => True

/-- The request and plan of a compose that will call the engine. -/
def sendPlan : Compose.Call → Option (Compose.Request × SendPlan)
  | .planned r (.send _ plan) => some (r, plan)
  | .queued r plan => some (r, plan)
  | _ => none

/-- **The invariant** of careful runs. -/
structure Inv (me : String) (s : State) : Prop where
  begun : ∀ k ∈ s.agentComposes, s.scheduler.compose.calls (.other k) ≠ .idle
  /-- A compose of the agent that will call the engine may. -/
  decided : ∀ k ∈ s.agentComposes, ∀ r plan,
    sendPlan (s.scheduler.compose.calls (.other k)) = some (r, plan) →
      Decided me s.verdicts r.triple plan.messageId
  /-- An approval of the agent will not call the engine. -/
  approvals : ∀ c ∈ s.agentApprovals, s.approvals c ≠ .idle ∧
    ∀ workspaceId itemId plan, s.approvals c ≠ .sending workspaceId itemId plan
  gated : AllGated me s

omit [CaseMapping] in
theorem Decided.mono {me : String} {verdicts : List Verdict} {t : Triple} {messageId : String}
    (h : Decided me verdicts t messageId) (more : List Verdict) :
    Decided me (verdicts ++ more) t messageId := by
  obtain ⟨v, hv, hrest⟩ := h
  exact ⟨v, List.mem_append_left _ hv, hrest⟩

/-! ### What a step does to one call -/

/-- A compose begins to be one that will call the engine only when it starts, and never
becomes idle again. -/
theorem sendPlan_step {env : Env} {c c' : Compose.State Scheduler.Caller}
    {l : Compose.Label Scheduler.Caller} (hs : (Compose.system env).step c l = some c')
    (d : Scheduler.Caller) (hd : c.calls d ≠ .idle) :
    c'.calls d ≠ .idle ∧ ∀ x, sendPlan (c'.calls d) = some x → sendPlan (c.calls d) = some x := by
  -- The step moved the call `e` to `call`, which is as stated of `e`.
  have moved : ∀ {e call}, call ≠ Compose.Call.idle →
      (∀ x, sendPlan call = some x → e = d → sendPlan (c.calls d) = some x) →
      (c.setCall e call).calls d ≠ .idle ∧
        ∀ x, sendPlan ((c.setCall e call).calls d) = some x → sendPlan (c.calls d) = some x := by
    intro e call hidle hplan
    change Function.update c.calls e call d ≠ .idle ∧
      ∀ x, sendPlan (Function.update c.calls e call d) = some x → _
    by_cases hde : d = e
    · subst hde
      rw [Function.update_self]
      exact ⟨hidle, fun x hx => hplan x hx rfl⟩
    · rw [Function.update_of_ne hde]
      exact ⟨hd, fun x hx => hx⟩
  rcases Compose.step_eq_some hs with ⟨e, r, f, ids, rfl, hc, rfl⟩ | ⟨e, r, plan, rfl, hc, rfl⟩ |
    ⟨e, r, plan, resolved, result, rfl, hc, rfl⟩ | ⟨e, r, plan, result, rfl, hc, rfl⟩ |
    ⟨e, rfl, rfl⟩ | ⟨settings, rfl, rfl⟩
  · -- The call that starts was idle, so it is another.
    refine moved ?_ (fun x _ hed => absurd (hed ▸ hc) hd)
    unfold Compose.planned
    split <;> exact fun heq => by cases heq
  · rcases Compose.commit_cases c.db r plan with ⟨error, hcommit⟩ | ⟨view, -, hcommit⟩ |
      ⟨msg, item, db', -, -, hcommit⟩ | ⟨msg, plan', db', hplan, -, hcommit⟩ <;> rw [hcommit]
    · exact moved (fun heq => by cases heq) (fun x hx => by cases hx)
    · exact moved (fun heq => by cases heq) (fun x hx => by cases hx)
    · exact moved (fun heq => by cases heq) (fun x hx => by cases hx)
    · -- The plan is sent as it was decided.
      refine moved (fun heq => by cases heq) (fun x hx hed => ?_)
      rw [← hed, hc, hplan]
      exact hx
  · exact moved (fun heq => by cases heq) (fun x hx => by cases hx)
  · -- A stamped call has returned or failed.
    refine moved ?_ (fun x hx => ?_)
    · unfold Compose.stamped
      split <;> exact fun heq => by cases heq
    · unfold Compose.stamped at hx
      split at hx <;> cases hx
  · exact moved (fun heq => by cases heq) (fun x hx => by cases hx)
  · exact ⟨hd, fun x hx => hx⟩

/-- The same of a step of the scheduler. -/
theorem sendPlan_scheduler_step {env : Env} {s s' : Scheduler.State} {l : Scheduler.Label}
    (hs : (Scheduler.system env).step s l = some s') (d : Scheduler.Caller)
    (hd : s.compose.calls d ≠ .idle) :
    s'.compose.calls d ≠ .idle ∧
      ∀ x, sendPlan (s'.compose.calls d) = some x → sendPlan (s.compose.calls d) = some x := by
  rcases Scheduler.compose_step hs with hsame | ⟨cl, hc, -⟩
  · rw [hsame]
    exact ⟨hd, fun x hx => hx⟩
  · exact sendPlan_step hc d hd

omit [CaseMapping] in
/-- An approval that is past its engine call stays there. -/
theorem past_step {s s' : Approval.State} {l : Approval.Label}
    (hs : Approval.system.step s l = some s') {c : ℕ} (hidle : s.calls c ≠ .idle)
    (hsending : ∀ workspaceId itemId plan, s.calls c ≠ .sending workspaceId itemId plan) :
    s'.calls c ≠ .idle ∧
      ∀ workspaceId itemId plan, s'.calls c ≠ .sending workspaceId itemId plan := by
  have moved : ∀ {e call}, (e = c → call ≠ Approval.Call.idle ∧
        ∀ workspaceId itemId plan, call ≠ .sending workspaceId itemId plan) →
      Function.update s.calls e call c ≠ .idle ∧
        ∀ workspaceId itemId plan,
          Function.update s.calls e call c ≠ .sending workspaceId itemId plan := by
    intro e call hcall
    by_cases hce : c = e
    · subst hce
      rw [Function.update_self]
      exact hcall rfl
    · rw [Function.update_of_ne hce]
      exact ⟨hidle, hsending⟩
  have ended : Approval.Call.ended ≠ .idle ∧
      ∀ workspaceId itemId plan, Approval.Call.ended ≠ .sending workspaceId itemId plan :=
    ⟨fun heq => (by cases heq), fun _ _ _ heq => (by cases heq)⟩
  rcases Approval.step_eq_some hs with ⟨e, workspaceId, ucUid, itemId, rfl, hc, rfl⟩ |
    ⟨e, workspaceId, itemId, plan, result, rfl, hc, rfl⟩ | ⟨e, itemId, plan, result, rfl, hc, rfl⟩ |
    ⟨e, rfl, rfl⟩ | ⟨workspaceId, itemId, rfl, rfl⟩ | ⟨workspaceId, itemId, db, rfl, hdb, rfl⟩
  · -- The call that begins was idle, so it is another.
    exact moved fun hec => absurd (hec ▸ hc) hidle
  · exact moved fun hec => absurd (hec ▸ hc) (hsending _ _ _)
  · exact moved fun _ => ended
  · exact moved fun _ => ended
  · exact ⟨hidle, hsending⟩
  · exact ⟨hidle, hsending⟩

/-! ### The steps of a careful run -/

variable {config : Config} {me : String} {s s' : State}

omit [CaseMapping] in
theorem Gated.mono {h : Handed} (hgated : Gated me s h)
    (hverdicts : ∃ more, s'.verdicts = s.verdicts ++ more) : Gated me s' h := by
  obtain ⟨t, ht, hdecided⟩ := hgated
  obtain ⟨more, hmore⟩ := hverdicts
  exact ⟨t, ht, hmore ▸ hdecided.mono more⟩

theorem Inv.initial (h : (system config).init s) : Inv me s := by
  obtain ⟨-, -, hcomposes, -, happrovals, -, hlog⟩ := h
  refine ⟨?_, ?_, ?_, ?_⟩
  · rw [hcomposes]
    exact nofun
  · rw [hcomposes]
    exact nofun
  · rw [happrovals]
    exact nofun
  · intro h hmem
    rw [hlog] at hmem
    cases hmem

/-- The gates are asked once the mailbox is resolved. -/
theorem verdictOf_ok {env : Env} (entitlement : EntitlementDecision) {db : Db} {f : Bool}
    {r : Compose.Request} {ids : NewIds} {mailbox : Option MailboxAccount}
    (h : composeMailbox db.settings r.workspaceId r.ucUid
      (resolveAgent db.settings r.workspaceId r.input) r.input = .ok mailbox) :
    verdictOf env entitlement db f r ids = some
      ⟨r.triple, ids.messageId, entitlement.allowed,
        resolveAgent db.settings r.workspaceId r.input,
        (composeDecision env db f r.workspaceId (resolveAgent db.settings r.workspaceId r.input)
          mailbox r.input).mode⟩ := by
  simp only [verdictOf, h]

/-- A decision to send for a compose under the agent's own key is one for the agent. -/
theorem decided_of_planned {env : Env} {entitlement : EntitlementDecision} {db : Db} {f : Bool}
    {user : User} {workspaceId : String} {args : ComposeEmailArgs} {ids : NewIds}
    {r : Compose.Request} {plan : SendPlan} (hallowed : entitlement.allowed = true)
    (hcareful : args.mode = some .draft ∨
      ((resolveAgent db.settings workspaceId args.input).isSome = true ∧
        args.externalSource = me) ∨
      (resolveAgent db.settings workspaceId args.input = none ∧
        args.externalSource ∉ env.trustedComposeSources))
    (hplan : sendPlan (Compose.planned env db (composeRequest user workspaceId args) f ids) =
      some (r, plan)) :
    Decided me (verdictOf env entitlement db f (composeRequest user workspaceId args) ids).toList
      r.triple plan.messageId := by
  unfold Compose.planned at hplan
  split at hplan
  · rename_i composed hcomposed
    cases composed with
    | send msg plan' =>
      cases hplan
      obtain ⟨mailbox, footer, hmailbox, hmode, -, -, hid, -, -⟩ := composePlan_send hcomposed
      refine ⟨_, Option.mem_toList.mpr (verdictOf_ok entitlement hmailbox), rfl, hid.symm,
        hallowed, ?_, hmode⟩
      change ∃ agent, resolveAgent db.settings workspaceId args.input = some agent ∧ agent.key = me
      cases hagent : resolveAgent db.settings workspaceId args.input with
      | some agent =>
        refine ⟨agent, rfl, ?_⟩
        rcases hcareful with hdraft | ⟨-, hme⟩ | ⟨hnone, -⟩
        · -- A requested draft is not sent.
          have hinput : args.input.mode = .draft := if_pos hdraft
          unfold composeDecision at hmode
          change (decideAgentComposeMode args.input.mode _ _ _ _).mode = .send at hmode
          rw [hinput, decideAgentComposeMode_draft] at hmode
          cases hmode
        · rw [← hme]
          exact key_of_resolveAgent hagent
        · rw [hnone] at hagent
          cases hagent
      | none =>
        -- Without an agent, only a trusted source sends.
        exfalso
        unfold composeDecision at hmode
        change (decideAgentComposeMode args.input.mode
          (resolveAgent db.settings workspaceId args.input) _
          (trustedUnregisteredSend env (resolveAgent db.settings workspaceId args.input) args.input)
          _).mode = .send at hmode
        rw [hagent] at hmode
        obtain ⟨hsend, htrusted⟩ := decideAgentComposeMode_unregistered.mp hmode
        rcases hcareful with hdraft | ⟨hsome, -⟩ | ⟨-, huntrusted⟩
        · have hinput : args.input.mode = .draft := if_pos hdraft
          rw [hinput] at hsend
          cases hsend
        · rw [hagent] at hsome
          cases hsome
        · exact huntrusted (List.contains_iff_mem.mp htrusted)
    | _ => cases hplan
  · cases hplan

/-- The agent composes. -/
private theorem Inv.composeEmail (h : Inv me s) {k : ℕ} {user : User} {workspaceId : String}
    {args : ComposeEmailArgs} {f : Bool} {ids : NewIds}
    (hcareful : Careful config me s (.composeEmail k user workspaceId args f ids))
    (hs : (system config).step s (.composeEmail k user workspaceId args f ids) = some s') :
    Inv me s' := by
  change Mcp.step config s (.composeEmail k user workspaceId args f ids) = some s' at hs
  simp only [step] at hs
  split at hs
  · rename_i hallowed
    obtain ⟨scheduler, hscheduler, rfl⟩ := Option.map_eq_some_iff.mp hs
    obtain ⟨c, hc, rfl⟩ := Option.map_eq_some_iff.mp hscheduler
    change Compose.step config.env s.scheduler.compose (.start _ _ _ _) = some c at hc
    simp only [Compose.step] at hc
    split at hc
    · rename_i hidle
      cases hc
      have hne : ∀ k' ∈ s.agentComposes, Scheduler.Caller.other k' ≠ .other k := by
        intro k' hk' heq
        cases heq
        exact h.begun k hk' hidle
      -- What was handed over before is as gated as it was.
      refine ⟨fun k' hk' => ?_, fun k' hk' r plan hplan => ?_, h.approvals, fun e he hsource =>
        (h.gated e he hsource).mono ⟨_, rfl⟩⟩
      · change Function.update s.scheduler.compose.calls _ _ _ ≠ _
        rcases List.mem_cons.mp hk' with rfl | hk'
        · rw [Function.update_self]
          unfold Compose.planned
          split <;> exact fun heq => (by cases heq)
        · -- Another tool call has begun before, and keeps its plan.
          rw [Function.update_of_ne (hne k' hk')]
          exact h.begun k' hk'
      · change sendPlan (Function.update s.scheduler.compose.calls _ _ _) = _ at hplan
        rcases List.mem_cons.mp hk' with rfl | hk'
        · rw [Function.update_self] at hplan
          obtain ⟨v, hv, hrest⟩ := decided_of_planned hallowed (hcareful hallowed) hplan
          exact ⟨v, List.mem_append_right _ hv, hrest⟩
        · rw [Function.update_of_ne (hne k' hk')] at hplan
          exact (h.decided k' hk' r plan hplan).mono _
    · cases hc
  · cases hs
    exact h

/-- A step of the scheduler that is not the agent's engine call, or rests on the gates. -/
private theorem Inv.scheduler (h : Inv me s) {l : Scheduler.Label} {scheduler : Scheduler.State}
    (hs : (Scheduler.system config.env).step s.scheduler l = some scheduler)
    (rows : List Triple) (hands : List Handed)
    (hhands : ∀ e ∈ hands, e.source ≠ .human → Gated me s e) :
    Inv me { s with scheduler := scheduler, agentRows := rows, log := s.log ++ hands } := by
  refine ⟨fun k hk => ?_, fun k hk r plan hplan => ?_, h.approvals, fun e he hsource => ?_⟩
  · exact (sendPlan_scheduler_step hs _ (h.begun k hk)).1
  · exact h.decided k hk r plan
      ((sendPlan_scheduler_step hs _ (h.begun k hk)).2 (r, plan) hplan)
  · rcases List.mem_append.mp he with he | he
    · exact h.gated e he hsource
    · exact hhands e he hsource

/-- The engine calls of a careful step of the composes rest on the gates. -/
private theorem Inv.composeHands (h : Inv me s) {l : Scheduler.Label}
    (hcareful : Careful config me s (.scheduler l)) :
    ∀ e ∈ s.composeHands l, e.source ≠ .human → Gated me s e := by
  intro e he hsource
  unfold State.composeHands at he
  split at he
  · rename_i caller resolved result
    -- An engine call is for a compose that is queued.
    split at he
    · rename_i r plan hcall
      obtain rfl := List.mem_singleton.mp he
      cases caller with
      | other k =>
        -- Only a tool call hands over for an agent.
        have hk : k ∈ s.agentComposes := by
          by_contra hk
          exact hsource (if_neg hk)
        have hplan : sendPlan (s.scheduler.compose.calls (.other k)) = some (r, plan) := by
          rw [hcall]
          rfl
        exact ⟨r.triple, rfl, h.decided k hk r plan hplan⟩
      -- A scheduled send is no agent's.
      | worker w n => exact absurd (if_neg (hcareful r plan hcall)) hsource
    · cases he
  · cases he

omit [CaseMapping] in
/-- A step of an approval that a human began, or that is past its engine call. -/
private theorem Inv.approval (h : Inv me s) {l : Approval.Label} {a : Approval.State}
    (hs : Approval.system.step s.approval l = some a) :
    Inv me { s.setApproval a with log := s.log ++ s.approvalHands l } := by
  refine ⟨h.begun, h.decided, fun c hc => ?_, fun e he hsource => ?_⟩
  · exact past_step hs (h.approvals c hc).1 (h.approvals c hc).2
  · rcases List.mem_append.mp he with he | he
    · exact h.gated e he hsource
    · unfold State.approvalHands at he
      split at he
      · rename_i c _ _
        split at he
        · rename_i hcall
          obtain rfl := List.mem_singleton.mp he
          exact absurd (if_neg fun hc => (h.approvals c hc).2 _ _ _ hcall) hsource
        · cases he
      · cases he

/-- The agent approves an item that is not sent. -/
private theorem Inv.approveItem (h : Inv me s) {c : ℕ} {user : User}
    {workspaceId itemId : String}
    (hcareful : Careful config me s (.approveItem c user workspaceId itemId))
    (hs : (system config).step s (.approveItem c user workspaceId itemId) = some s') :
    Inv me s' := by
  change Mcp.step config s (.approveItem c user workspaceId itemId) = some s' at hs
  simp only [step] at hs
  split at hs
  · obtain ⟨a, ha, rfl⟩ := Option.map_eq_some_iff.mp hs
    have happrove : Approval.system.step s.approval (.approve c workspaceId user.ucUid itemId) =
        some a := ha
    have hkept := h.approval happrove
    refine ⟨hkept.begun, hkept.decided, fun c' hc' => ?_, fun e he => hkept.gated e
      (List.mem_append_left _ he)⟩
    rcases List.mem_cons.mp hc' with rfl | hc'
    · -- The approval of this call plans no send.
      simp only [Approval.step] at ha
      split at ha
      · cases ha
        change Function.update s.approvals c' _ c' ≠ _ ∧
          ∀ w i p, Function.update s.approvals c' _ c' ≠ .sending w i p
        rw [Function.update_self]
        unfold Approval.afterPlan
        split
        · rename_i hplan
          exact absurd hplan (hcareful _ _ _)
        · exact ⟨fun heq => (by cases heq), fun _ _ _ heq => (by cases heq)⟩
      · cases ha
    · -- The other calls of the inbox are as they were.
      exact hkept.approvals c' hc'
  · cases hs
    exact h

theorem Inv.step (h : Inv me s) {l : Label} (hcareful : Careful config me s l)
    (hs : (system config).step s l = some s') : Inv me s' := by
  cases l with
  | composeEmail k user workspaceId args f ids => exact h.composeEmail hcareful hs
  | scheduleSend user workspaceId args configured newId =>
    obtain ⟨scheduler, hscheduler, rfl⟩ := Option.map_eq_some_iff.mp hs
    have hscheduled : (Scheduler.system config.env).step s.scheduler
        (.schedule configured user.ucUid workspaceId args.mailboxId args.payload args.sendAt
          newId) = some scheduler := hscheduler
    have hkept := h.scheduler hscheduled
      ((workspaceId, schedulerSource, scheduledRef newId) :: s.agentRows) []
      (fun e he => absurd he List.not_mem_nil)
    exact ⟨hkept.begun, hkept.decided, hkept.approvals, h.gated⟩
  | approveItem c user workspaceId itemId => exact h.approveItem hcareful hs
  | scheduler l =>
    obtain ⟨scheduler, hscheduler, rfl⟩ := Option.map_eq_some_iff.mp hs
    have hstep : (Scheduler.system config.env).step s.scheduler l = some scheduler := hscheduler
    exact h.scheduler hstep s.agentRows _ (h.composeHands hcareful)
  | approval l =>
    obtain ⟨a, ha, rfl⟩ := Option.map_eq_some_iff.mp hs
    have hstep : Approval.system.step s.approval l = some a := ha
    exact h.approval hstep

/-- **Careful runs are gated.** In every run whose steps are careful, every engine call
that is the agent's doing and no human's rests on the gates. -/
theorem agent_sends_are_gated (hreach : (system config).ReachableUnder (Careful config me) s) :
    AllGated me s :=
  (hreach.invariant (P := Inv me) (fun _ hinit => Inv.initial hinit)
    (fun _ _ _ _ ih hcareful hs => ih.step hcareful hs)).gated

end Careful

/-- The sample workspace with an agent, `perry`, that has a mailbox of its own and may
write to colleagues. -/
def registeredStart : State :=
  { sampleStart with
    scheduler :=
      { Scheduler.sampleStart with
        compose :=
          { Scheduler.sampleStart.compose with
            db :=
              { settings :=
                  { mailboxes := [{ Scheduler.sampleMailbox with ownerKind := .agent }]
                    agents := [⟨"a", "ws", "perry", true, false, .l1ApproveToSend, .null,
                      some "mb"⟩]
                    mailDomains := [⟨"ws", "example.org".toList⟩] } } } } }

theorem registeredStart_init : (system sampleConfig).init registeredStart :=
  ⟨⟨⟨fun _ => rfl, rfl⟩, rfl, fun _ => rfl, fun _ => rfl⟩, fun _ => rfl, rfl, rfl, rfl, rfl, rfl⟩

/-- The agent writes to a colleague under its own key, and the send rests on the gates. -/
theorem agent_sends_are_gated_run :
    ∃ s : State, s.log.map (·.source) = [.agentCompose] ∧ AllGated "perry" s := by
  have r := (System.ReachableUnder.init registeredStart_init :
    (system sampleConfig).ReachableUnder (Careful sampleConfig "perry") registeredStart)
  have r := r.next (.composeEmail 0 sampleUser "ws"
    { sampleArgs "perry" with toAddress := "ada@example.org".toList } false ⟨"m", "i"⟩)
    (fun _ => .inr (.inl ⟨rfl, rfl⟩)) rfl
  have r := r.next (.scheduler (.compose (.commit (.other 0)))) trivial rfl
  have r := r.next (.scheduler (.compose (.callEngine (.other 0) none
    ⟨true, some "p", none, none, none⟩))) trivial rfl
  exact ⟨_, rfl, agent_sends_are_gated r⟩

end Mcp
end EmailOps
