import Mathlib.Logic.Relation
import EmailOps.Email.Autonomy

/-!
# The autonomy matrix

What `decideAgentComposeMode` decides when a registered agent asks for a `send` and a context
was built for it.

* `MaySend` is the matrix: an agent's own mailbox, and recipients who are all internal, or a
  routine reply of an L2 agent.
* `RoutineCondition` lists what makes a reply routine. `code_mem_routineReasons`: the reasons
  of a refusal name the conditions that fail, and no other.
* `Tighter` orders the cases by what has to be true of them for a send. `Change` lists the
  single steps up; `MaySend.of_tighter` says that a send is never gained on the way.
-/

namespace EmailOps

open Framework.Text

variable [CaseMapping]

/-! ### The matrix -/

/-- The recipients outside the internal domains. -/
def AgentComposeContext.external (ctx : AgentComposeContext) : List Text :=
  (splitRecipients ctx.recipients ctx.internalDomains).external

/-- What makes a send to external recipients routine. -/
inductive RoutineCondition where
  | switchOn | inThreadReply | noAttachment | fewExternal | allTrusted
  deriving DecidableEq

namespace RoutineCondition

/-- The code of the reason that names the condition. -/
def code : RoutineCondition → String
  | switchOn => "autonomous-send-disabled"
  | inThreadReply => "cold-outbound"
  | noAttachment => "attachment"
  | fewExternal => "bulk-external"
  | allTrusted => "first-contact"

def Holds (ctx : AgentComposeContext) : RoutineCondition → Prop
  | switchOn => ctx.autonomousSendEnabled = true
  | inThreadReply => ctx.isInThreadReplyToInbound = true
  | noAttachment => ctx.attachmentCount = 0
  | fewExternal => ctx.external.length ≤ maxRoutineExternalRecipients
  | allTrusted => ∀ addr ∈ ctx.external, addr ∈ ctx.trustedAddresses

end RoutineCondition

/-- The agent's policy asks for an approval of all external mail. -/
def Agent.requiresApproval (agent : Agent) : Bool :=
  (parseRecipientPolicy agent.recipientPolicy).requireApprovalForExternal

/-- When an agent may send on its own. -/
def MaySend (agent : Agent) (ctx : AgentComposeContext) : Prop :=
  ctx.mailboxClass = .agent ∧
    ((agent.autonomyLevel = .l1ApproveToSend ∨ agent.autonomyLevel = .l2AutonomousAudit) ∧
        (∀ addr ∈ ctx.recipients, isExternalRecipient addr ctx.internalDomains = false) ∨
      agent.autonomyLevel = .l2AutonomousAudit ∧ agent.requiresApproval = false ∧
        ∀ condition : RoutineCondition, condition.Holds ctx)

/-- Does the decision come down to the routine conditions? -/
structure AtRoutineCheck (agent : Agent) (ctx : AgentComposeContext) : Prop where
  mailboxClass : ctx.mailboxClass = .agent
  level : agent.autonomyLevel = .l2AutonomousAudit
  external : ctx.external ≠ []
  policy : agent.requiresApproval = false

/-- The decision on an agent's request to send. -/
def agentSend (agent : Agent) (toAddress : Text) (trusted : Bool) (ctx : AgentComposeContext) :
    AgentComposeDecision :=
  decideAgentComposeMode .send (some agent) toAddress trusted (some ctx)

variable {agent : Agent} {toAddress : Text} {trusted : Bool} {ctx : AgentComposeContext}

theorem external_eq_nil_iff :
    ctx.external = [] ↔
      ∀ addr ∈ ctx.recipients, isExternalRecipient addr ctx.internalDomains = false := by
  simp [AgentComposeContext.external, splitRecipients, List.filter_eq_nil_iff]

omit [CaseMapping] in
/-- The codes of the routine reasons, in their order. -/
theorem map_code_routineReasons (ctx : AgentComposeContext) (external : List Text) :
    (routineReasons ctx external).map (·.code) =
      (if !ctx.autonomousSendEnabled then ["autonomous-send-disabled"] else []) ++
      (if !ctx.isInThreadReplyToInbound then ["cold-outbound"] else []) ++
      (if ctx.attachmentCount > 0 then ["attachment"] else []) ++
      (if external.length > maxRoutineExternalRecipients then ["bulk-external"] else []) ++
      List.map (fun _ => "first-contact")
        ((external.filter fun addr => !ctx.trustedAddresses.contains addr).take
          maxFirstContactReasons) ++
      (if (external.filter fun addr => !ctx.trustedAddresses.contains addr).length >
          maxFirstContactReasons then ["first-contact"] else []) := by
  simp only [routineReasons, List.map_append, List.map_map]
  congr 1
  · congr 1
    congr 1
    · congr 1
      · congr 1
        all_goals split <;> rfl
      · split <;> rfl
    · split <;> rfl
  · split <;> rfl

/-- **The reasons name the conditions that fail**, and no other. -/
theorem code_mem_routineReasons (condition : RoutineCondition) :
    condition.code ∈ (routineReasons ctx ctx.external).map (·.code) ↔ ¬condition.Holds ctx := by
  rw [map_code_routineReasons]
  cases condition with
  | switchOn => simp [RoutineCondition.code, RoutineCondition.Holds]
  | inThreadReply => simp [RoutineCondition.code, RoutineCondition.Holds]
  | noAttachment => simp [RoutineCondition.code, RoutineCondition.Holds, Nat.pos_iff_ne_zero]
  | fewExternal => simp [RoutineCondition.code, RoutineCondition.Holds]
  | allTrusted =>
    simp only [RoutineCondition.code, RoutineCondition.Holds]
    constructor
    · intro hcode hall
      -- No reason of a first contact without one who is not trusted.
      have hnone : (ctx.external.filter fun addr => !ctx.trustedAddresses.contains addr) = [] := by
        rw [List.filter_eq_nil_iff]
        intro addr haddr
        simp [hall addr haddr]
      rw [hnone] at hcode
      simp at hcode
    · intro hsome
      push Not at hsome
      obtain ⟨addr, haddr, huntrusted⟩ := hsome
      have hmax : maxFirstContactReasons ≠ 0 := by decide
      simpa [hmax] using Or.inl ⟨addr, haddr, huntrusted⟩

/-- Every reason names a condition. -/
theorem exists_code_of_mem_routineReasons {code : String}
    (h : code ∈ (routineReasons ctx ctx.external).map (·.code)) :
    ∃ condition : RoutineCondition, condition.code = code := by
  rw [map_code_routineReasons] at h
  simp only [List.mem_append, List.mem_map, List.mem_ite_nil_right, List.mem_singleton] at h
  rcases h with ((((⟨-, h⟩ | ⟨-, h⟩) | ⟨-, h⟩) | ⟨-, h⟩) | ⟨-, -, h⟩) | ⟨-, h⟩
  · exact ⟨.switchOn, h.symm⟩
  · exact ⟨.inThreadReply, h.symm⟩
  · exact ⟨.noAttachment, h.symm⟩
  · exact ⟨.fewExternal, h.symm⟩
  · exact ⟨.allTrusted, h⟩
  · exact ⟨.allTrusted, h.symm⟩

/-- There is no reason exactly when each condition holds. -/
theorem routineReasons_eq_nil_iff :
    routineReasons ctx ctx.external = [] ↔ ∀ condition : RoutineCondition, condition.Holds ctx := by
  constructor
  · intro hnil condition
    by_contra hfails
    have hcode := (code_mem_routineReasons condition).mpr hfails
    rw [hnil] at hcode
    cases hcode
  · intro hall
    rw [← List.map_eq_nil_iff (f := (·.code)), List.eq_nil_iff_forall_not_mem]
    intro code hcode
    obtain ⟨condition, rfl⟩ := exists_code_of_mem_routineReasons hcode
    exact (code_mem_routineReasons condition).mp hcode (hall condition)

/-- **When an agent's request to send is granted.** -/
theorem mode_agentSend_iff :
    (agentSend agent toAddress trusted ctx).mode = .send ↔ MaySend agent ctx := by
  unfold agentSend decideAgentComposeMode MaySend
  rw [← external_eq_nil_iff, ← routineReasons_eq_nil_iff]
  simp only
  by_cases hclass : ctx.mailboxClass = .agent
  swap
  · rw [if_pos hclass]
    exact iff_of_false nofun fun h => hclass h.1
  rw [if_neg (not_not.mpr hclass)]
  simp only [hclass, true_and]
  cases hlevel : agent.autonomyLevel with
  | l0DraftOnly => simp [hold]
  | l1ApproveToSend =>
    change (ite (ctx.external = []) _ _ : AgentComposeDecision).mode = .send ↔ _
    by_cases hexternal : ctx.external = []
    · simp [hexternal]
    · simp [hexternal, hold]
  | l2AutonomousAudit =>
    change (ite (ctx.external = []) _ (ite (agent.requiresApproval = true) _
      (ite (routineReasons ctx ctx.external ≠ []) _ _)) : AgentComposeDecision).mode = .send ↔ _
    by_cases hexternal : ctx.external = []
    · simp [hexternal]
    · -- What is left is the policy and the routine check.
      cases hpolicy : agent.requiresApproval with
      | true => simp [hexternal, hold]
      | false =>
        by_cases hroutine : routineReasons ctx ctx.external = []
        · simp [hexternal, hroutine]
        · simp [hexternal, hroutine, hold]

/-- A refusal at the routine check gives the routine reasons. -/
theorem reasons_agentSend (h : AtRoutineCheck agent ctx)
    (hdraft : (agentSend agent toAddress trusted ctx).mode = .draft) :
    (agentSend agent toAddress trusted ctx).reasons = routineReasons ctx ctx.external := by
  have hroutine : routineReasons ctx ctx.external ≠ [] := by
    intro hnil
    have hsend := (@mode_agentSend_iff _ agent toAddress trusted ctx).mpr
      ⟨h.mailboxClass, .inr ⟨h.level, h.policy, routineReasons_eq_nil_iff.mp hnil⟩⟩
    rw [hdraft] at hsend
    cases hsend
  unfold agentSend decideAgentComposeMode
  simp only
  rw [if_neg (not_not.mpr h.mailboxClass)]
  simp only [h.level]
  change (ite (ctx.external = []) _ (ite (agent.requiresApproval = true) _
    (ite (routineReasons ctx ctx.external ≠ []) _ _)) : AgentComposeDecision).reasons = _
  rw [if_neg h.external, if_neg (by simp [h.policy]), if_pos hroutine]
  rfl

/-! ### Asking for more -/

/-- The order of the levels: how much an agent may do on its own. -/
def AgentAutonomyLevel.rank : AgentAutonomyLevel → ℕ
  | .l0DraftOnly => 0
  | .l1ApproveToSend => 1
  | .l2AutonomousAudit => 2

/-- A request to send: who asks, and what for. -/
structure SendCase where
  agent : Agent
  ctx : AgentComposeContext

/-- A change after which a send takes no less than before. -/
inductive Change : SendCase → SendCase → Prop
  /-- Another external recipient, anywhere in the list. -/
  | addExternal (agent : Agent) (ctx : AgentComposeContext) (before after : List Text)
      (addr : Text) (hrecipients : ctx.recipients = before ++ after)
      (hexternal : isExternalRecipient addr ctx.internalDomains = true) :
      Change ⟨agent, ctx⟩ ⟨agent, { ctx with recipients := before ++ addr :: after }⟩
  | addAttachment (agent : Agent) (ctx : AgentComposeContext) :
      Change ⟨agent, ctx⟩ ⟨agent, { ctx with attachmentCount := ctx.attachmentCount + 1 }⟩
  | removeTrusted (agent : Agent) (ctx : AgentComposeContext) (trusted : List Text)
      (hfewer : trusted ⊆ ctx.trustedAddresses) :
      Change ⟨agent, ctx⟩ ⟨agent, { ctx with trustedAddresses := trusted }⟩
  | removeDomain (agent : Agent) (ctx : AgentComposeContext) (domains : List Text)
      (hfewer : domains ⊆ ctx.internalDomains) :
      Change ⟨agent, ctx⟩ ⟨agent, { ctx with internalDomains := domains }⟩
  | lowerLevel (agent : Agent) (ctx : AgentComposeContext) (level : AgentAutonomyLevel)
      (hlower : level.rank < agent.autonomyLevel.rank) :
      Change ⟨agent, ctx⟩ ⟨{ agent with autonomyLevel := level }, ctx⟩

/-- A send in the second case takes at least what one in the first does. -/
structure Tighter (x y : SendCase) : Prop where
  mailboxClass : y.ctx.mailboxClass = x.ctx.mailboxClass
  level : y.agent.autonomyLevel.rank ≤ x.agent.autonomyLevel.rank
  policy : y.agent.requiresApproval = x.agent.requiresApproval
  switchOn : y.ctx.autonomousSendEnabled = x.ctx.autonomousSendEnabled
  inThreadReply : y.ctx.isInThreadReplyToInbound = x.ctx.isInThreadReplyToInbound
  attachments : x.ctx.attachmentCount ≤ y.ctx.attachmentCount
  external : x.ctx.external.Sublist y.ctx.external
  trusted : y.ctx.trustedAddresses ⊆ x.ctx.trustedAddresses

theorem Tighter.refl (x : SendCase) : Tighter x x :=
  ⟨rfl, le_rfl, rfl, rfl, rfl, le_rfl, .refl _, List.Subset.refl _⟩

theorem Tighter.trans {x y z : SendCase} (h : Tighter x y) (h' : Tighter y z) : Tighter x z where
  mailboxClass := h'.mailboxClass.trans h.mailboxClass
  level := h'.level.trans h.level
  policy := h'.policy.trans h.policy
  switchOn := h'.switchOn.trans h.switchOn
  inThreadReply := h'.inThreadReply.trans h.inThreadReply
  attachments := h.attachments.trans h'.attachments
  external := h.external.trans h'.external
  trusted := List.Subset.trans h'.trusted h.trusted

/-- With fewer internal domains, an external recipient stays one. -/
theorem isExternalRecipient_of_subset {addr : Text} {domains domains' : List Text}
    (hsub : domains' ⊆ domains) (h : isExternalRecipient addr domains = true) :
    isExternalRecipient addr domains' = true := by
  unfold isExternalRecipient at *
  simp only at *
  split
  · rfl
  · next hdomain =>
    rw [if_neg hdomain] at h
    split
    · rfl
    · next hsome =>
      have hne : domains ≠ [] := by
        rintro rfl
        exact hsome (List.subset_nil.mp hsub)
      rw [if_neg hne] at h
      simp only [Bool.not_eq_true', List.contains_eq_mem, decide_eq_false_iff_not] at h ⊢
      exact fun hmem => h (hsub hmem)

theorem Tighter.of_change {x y : SendCase} (h : Change x y) : Tighter x y := by
  cases h with
  | addExternal agent ctx before after addr hrecipients hexternal =>
    refine ⟨rfl, le_rfl, rfl, rfl, rfl, le_rfl, ?_, List.Subset.refl _⟩
    unfold AgentComposeContext.external splitRecipients
    simp only [hrecipients]
    exact ((List.sublist_cons_self addr after).append_left before).filter _
  | addAttachment agent ctx =>
    exact ⟨rfl, le_rfl, rfl, rfl, rfl, Nat.le_succ _, .refl _, List.Subset.refl _⟩
  | removeTrusted agent ctx trusted hfewer =>
    exact ⟨rfl, le_rfl, rfl, rfl, rfl, le_rfl, .refl _, hfewer⟩
  | removeDomain agent ctx domains hfewer =>
    refine ⟨rfl, le_rfl, rfl, rfl, rfl, le_rfl, ?_, List.Subset.refl _⟩
    refine List.monotone_filter_right _ fun addr hexternal => ?_
    exact isExternalRecipient_of_subset hfewer hexternal
  | lowerLevel agent ctx level hlower =>
    exact ⟨rfl, hlower.le, rfl, rfl, rfl, le_rfl, .refl _, List.Subset.refl _⟩

theorem RoutineCondition.Holds.of_tighter {x y : SendCase} (h : Tighter x y)
    {condition : RoutineCondition} (hy : condition.Holds y.ctx) : condition.Holds x.ctx := by
  cases condition with
  | switchOn => exact h.switchOn.symm.trans hy
  | inThreadReply => exact h.inThreadReply.symm.trans hy
  | noAttachment => exact Nat.eq_zero_of_le_zero (h.attachments.trans hy.le)
  | fewExternal => exact h.external.length_le.trans hy
  | allTrusted => exact fun addr haddr => h.trusted (hy addr (h.external.subset haddr))

/-- **No send is gained** where it takes more. -/
theorem MaySend.of_tighter {x y : SendCase} (h : Tighter x y) (hy : MaySend y.agent y.ctx) :
    MaySend x.agent x.ctx := by
  obtain ⟨hclass, hcase⟩ := hy
  refine ⟨h.mailboxClass.symm.trans hclass, ?_⟩
  rcases hcase with ⟨hlevel, hinternal⟩ | ⟨hlevel, hpolicy, hall⟩
  · -- All recipients are internal, so that the level only must not be the lowest.
    refine .inl ⟨?_, ?_⟩
    · have hrank := h.level
      cases hx : x.agent.autonomyLevel with
      | l0DraftOnly =>
        rcases hlevel with hlevel | hlevel
        all_goals simp [hx, hlevel, AgentAutonomyLevel.rank] at hrank
      | l1ApproveToSend => exact .inl rfl
      | l2AutonomousAudit => exact .inr rfl
    · rw [← external_eq_nil_iff] at hinternal ⊢
      have hsub := h.external
      rw [hinternal] at hsub
      exact List.sublist_nil.mp hsub
  · have hrank := h.level
    refine .inr ⟨?_, h.policy.symm.trans hpolicy, fun condition => (hall condition).of_tighter h⟩
    cases hx : x.agent.autonomyLevel with
    | l2AutonomousAudit => rfl
    | l0DraftOnly => simp [hx, hlevel, AgentAutonomyLevel.rank] at hrank
    | l1ApproveToSend => simp [hx, hlevel, AgentAutonomyLevel.rank] at hrank

theorem Tighter.of_changes {x y : SendCase} (h : Relation.ReflTransGen Change x y) :
    Tighter x y := by
  induction h with
  | refl => exact .refl x
  | tail _ hchange ih => exact ih.trans (.of_change hchange)

/-- What the matrix promises of every registered agent that asks for a send. -/
structure AutonomyMatrix : Prop where
  send_iff : ∀ (agent : Agent) (toAddress : Text) (trusted : Bool) (ctx : AgentComposeContext),
    (agentSend agent toAddress trusted ctx).mode = .send ↔ MaySend agent ctx
  /-- A refusal at the routine check names each condition that fails, and no other. -/
  reasons : ∀ (agent : Agent) (toAddress : Text) (trusted : Bool) (ctx : AgentComposeContext),
    AtRoutineCheck agent ctx → (agentSend agent toAddress trusted ctx).mode = .draft →
      (∀ condition : RoutineCondition,
          condition.code ∈ (agentSend agent toAddress trusted ctx).reasons.map (·.code) ↔
            ¬condition.Holds ctx) ∧
        ∀ code ∈ (agentSend agent toAddress trusted ctx).reasons.map (·.code),
          ∃ condition : RoutineCondition, condition.code = code
  /-- A draft stays one, whatever changes are made that ask for more. -/
  monotone : ∀ (toAddress : Text) (trusted : Bool) (x y : SendCase),
    Relation.ReflTransGen Change x y → (agentSend x.agent toAddress trusted x.ctx).mode = .draft →
      (agentSend y.agent toAddress trusted y.ctx).mode = .draft

/-- **The autonomy matrix.** -/
theorem decideAgentComposeMode_matrix : AutonomyMatrix where
  send_iff _ _ _ _ := mode_agentSend_iff
  reasons agent toAddress trusted ctx hcheck hdraft := by
    rw [reasons_agentSend hcheck hdraft]
    exact ⟨code_mem_routineReasons, fun _ => exists_code_of_mem_routineReasons⟩
  monotone toAddress trusted x y hchanges hdraft := by
    cases hmode : (agentSend y.agent toAddress trusted y.ctx).mode with
    | draft => rfl
    | send =>
      have hx := (mode_agentSend_iff.mp hmode).of_tighter (.of_changes hchanges)
      rw [mode_agentSend_iff.mpr hx] at hdraft
      cases hdraft

end EmailOps
