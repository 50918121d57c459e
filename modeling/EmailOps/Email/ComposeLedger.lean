import EmailOps.Framework.Table
import EmailOps.Email.ComposeProtocol

/-!
# What the rows say about the engine

The protocol's rows and its log of engine calls, against each other.

* `Ledger`: a call that is sending owns the one row of its key, which stays
  `QUEUED` until the call records the engine's answer.
* `Told` for a key: what its row says is so. A row marked `SENT` was accepted by
  the engine and one marked `FAILED` was not; a `QUEUED` row says nothing. It is
  kept by every step except one that stages a draft under the key.
-/

namespace EmailOps
namespace Compose

open Framework

variable {Caller : Type} [DecidableEq Caller]

/-! ### Calls that are sending -/

/-- The request and the plan of a call between its insert and its return. -/
def Call.sending : Call → Option (Request × SendPlan)
  | .queued r plan | .handed r plan _ => some (r, plan)
  | _ => none

/-- **The ledger.** -/
structure Ledger (s : State Caller) : Prop where
  /-- A sending call has a row. -/
  exists_row : ∀ c r plan, (s.calls c).sending = some (r, plan) →
    ∃ m ∈ s.db.messages, m.id = plan.messageId
  /-- The row of a sending call is the one under its key. -/
  row_iff : ∀ c r plan, (s.calls c).sending = some (r, plan) → ∀ m ∈ s.db.messages,
    m.id = plan.messageId ↔ m.triple? = some r.triple
  /-- One call is sending under a key. -/
  sole : ∀ c d r r' plan plan', (s.calls c).sending = some (r, plan) →
    (s.calls d).sending = some (r', plan') → r.triple = r'.triple → c = d
  /-- The row of a sending call is queued. -/
  row_queued : ∀ c r plan, (s.calls c).sending = some (r, plan) → ∀ m ∈ s.db.messages,
    m.triple? = some r.triple → m.status = .queued
  /-- Nothing was handed over under the key of a queued call. -/
  unspent : ∀ c r plan, s.calls c = .queued r plan → ∀ e ∈ s.log, e.triple ≠ r.triple
  /-- What was handed over under the key of a handed call got the call's answer. -/
  answered : ∀ c r plan result, s.calls c = .handed r plan result →
    (∃ e ∈ s.log, e.triple = r.triple) ∧ ∀ e ∈ s.log, e.triple = r.triple → e.result = result

/-- **Frame rule.** One call moves to where it is not sending; rows and log stay. -/
private theorem Ledger.setCall {s : State Caller} (h : Ledger s) (c : Caller) {call : Call}
    (hcall : call.sending = none) : Ledger (s.setCall c call) := by
  have hold : ∀ {d p}, ((s.setCall c call).calls d).sending = some p →
      (s.calls d).sending = some p := by
    intro d p hd
    change (Function.update s.calls c call d).sending = some p at hd
    by_cases hdc : d = c
    · subst hdc
      rw [Function.update_self, hcall] at hd
      cases hd
    · rwa [Function.update_of_ne hdc] at hd
  have hsame : ∀ {d call'}, (s.setCall c call).calls d = call' → call'.sending ≠ none →
      s.calls d = call' := by
    intro d call' hd hne
    change Function.update s.calls c call d = call' at hd
    rcases update_eq_cases hd with ⟨rfl, hmoved⟩ | ⟨-, hd⟩
    · exact absurd (hmoved ▸ hcall) hne
    · exact hd
  exact
    { exists_row := fun d r plan hd => h.exists_row d r plan (hold hd)
      row_iff := fun d r plan hd => h.row_iff d r plan (hold hd)
      sole := fun d e r r' plan plan' hd he => h.sole d e r r' plan plan' (hold hd) (hold he)
      row_queued := fun d r plan hd => h.row_queued d r plan (hold hd)
      unspent := fun d r plan hd => h.unspent d r plan (hsame hd (by simp [Call.sending]))
      answered := fun d r plan result hd =>
        h.answered d r plan result (hsame hd (by simp [Call.sending])) }

omit [DecidableEq Caller] in
/-- A row inserted beside a sending call's has another id and another key. -/
private theorem Ledger.insert {s : State Caller} (h : Ledger s) {msg : EmailMessage} {db : Db}
    (hins : insertMessage s.db msg = .ok db) (inbox : List AgentInboxItem) :
    Ledger { s with db := { db with inbox := inbox } } := by
  obtain ⟨hfresh, rfl⟩ := insertMessage_ok hins
  -- The sending call's own row is in the table, so the new row differs from it.
  have hdiffer : ∀ c r plan, (s.calls c).sending = some (r, plan) →
      msg.id ≠ plan.messageId ∧ msg.triple? ≠ some r.triple := by
    intro c r plan hc
    obtain ⟨m, hm, hmid⟩ := h.exists_row c r plan hc
    have hmkey := (h.row_iff c r plan hc m hm).mp hmid
    obtain ⟨hid, hkey⟩ := hfresh m hm
    exact ⟨fun heq => hid (hmid.trans heq.symm), fun heq => hkey (hmkey.trans heq.symm)⟩
  refine
    { exists_row := fun c r plan hc => ?_
      row_iff := fun c r plan hc m hm => ?_
      sole := h.sole
      row_queued := fun c r plan hc m hm hkey => ?_
      unspent := h.unspent
      answered := h.answered }
  · obtain ⟨m, hm, hmid⟩ := h.exists_row c r plan hc
    exact ⟨m, List.mem_append_left _ hm, hmid⟩
  · rcases List.mem_append.mp hm with hm | hm
    · exact h.row_iff c r plan hc m hm
    · obtain rfl := List.mem_singleton.mp hm
      obtain ⟨hid, hkey⟩ := hdiffer c r plan hc
      exact iff_of_false hid hkey
  · rcases List.mem_append.mp hm with hm | hm
    · exact h.row_queued c r plan hc m hm hkey
    · obtain rfl := List.mem_singleton.mp hm
      exact absurd hkey (hdiffer c r plan hc).2

/-- A call that inserts its queued row becomes the one sending under the key. -/
private theorem Ledger.queue {s : State Caller} (h : Ledger s) {c : Caller} {r : Request}
    {plan : SendPlan} {msg : EmailMessage} {db : Db} (hmsg : msg.triple? = some r.triple)
    (hid : msg.id = plan.messageId) (hstatus : msg.status = .queued)
    (hlog : ∀ e ∈ s.log, e.triple ≠ r.triple)
    (hins : insertMessage s.db msg = .ok db) :
    Ledger { s.setCall c (.queued r plan) with db := db } := by
  have hother := h.insert hins db.inbox
  obtain ⟨hfresh, rfl⟩ := insertMessage_ok hins
  -- Nobody was sending under the key: a sending call has a row under it.
  have hnobody : ∀ d r' plan', (s.calls d).sending = some (r', plan') → r'.triple ≠ r.triple := by
    intro d r' plan' hd heq
    obtain ⟨m, hm, hmid⟩ := h.exists_row d r' plan' hd
    have hmkey := (h.row_iff d r' plan' hd m hm).mp hmid
    exact (hfresh m hm).2 (by rw [hmkey, hmsg, heq])
  have hcases : ∀ {d p}, (Function.update s.calls c (.queued r plan) d).sending = some p →
      (d = c ∧ p = (r, plan)) ∨ (d ≠ c ∧ (s.calls d).sending = some p) := by
    intro d p hd
    rcases update_cases (Call.sending · = some p) hd with ⟨rfl, hmoved⟩ | ⟨hdc, hd⟩
    · exact .inl ⟨rfl, (Option.some.inj hmoved).symm⟩
    · exact .inr ⟨hdc, hd⟩
  refine
    { exists_row := fun d r' plan' hd => ?_
      row_iff := fun d r' plan' hd m hm => ?_
      sole := fun d e r₁ r₂ plan₁ plan₂ hd he heq => ?_
      row_queued := fun d r' plan' hd m hm hkey => ?_
      unspent := fun d r' plan' hd => ?_
      answered := fun d r' plan' result hd => ?_ }
  · rcases hcases hd with ⟨rfl, hp⟩ | ⟨-, hd'⟩
    · cases hp
      exact ⟨msg, List.mem_append_right _ List.mem_cons_self, hid⟩
    · exact hother.exists_row d r' plan' hd'
  · rcases hcases hd with ⟨rfl, hp⟩ | ⟨-, hd'⟩
    · cases hp
      rcases List.mem_append.mp hm with hm | hm
      · obtain ⟨hmid, hmkey⟩ := hfresh m hm
        exact iff_of_false (fun heq => hmid (heq.trans hid.symm))
          (fun heq => hmkey (heq.trans hmsg.symm))
      · obtain rfl := List.mem_singleton.mp hm
        exact iff_of_true hid hmsg
    · exact hother.row_iff d r' plan' hd' m hm
  · rcases hcases hd with ⟨rfl, hp⟩ | ⟨-, hd'⟩ <;> rcases hcases he with ⟨rfl, hq⟩ | ⟨-, he'⟩
    · rfl
    · cases hp
      exact absurd heq.symm (hnobody e r₂ plan₂ he')
    · cases hq
      exact absurd heq (hnobody d r₁ plan₁ hd')
    · exact h.sole d e r₁ r₂ plan₁ plan₂ hd' he' heq
  · rcases hcases hd with ⟨rfl, hp⟩ | ⟨-, hd'⟩
    · cases hp
      rcases List.mem_append.mp hm with hm | hm
      · exact absurd (hkey.trans hmsg.symm) (hfresh m hm).2
      · obtain rfl := List.mem_singleton.mp hm
        exact hstatus
    · exact hother.row_queued d r' plan' hd' m hm hkey
  · change Function.update s.calls c (.queued r plan) d = .queued r' plan' at hd
    rcases update_eq_cases hd with ⟨rfl, hmoved⟩ | ⟨-, hd⟩
    · cases hmoved
      exact hlog
    · exact h.unspent d r' plan' hd
  · change Function.update s.calls c (.queued r plan) d = .handed r' plan' result at hd
    rcases update_eq_cases hd with ⟨rfl, hmoved⟩ | ⟨-, hd⟩
    · cases hmoved
    · exact h.answered d r' plan' result hd

/-- The engine call of a queued call is the one under its key. -/
private theorem Ledger.hand {s : State Caller} (h : Ledger s) {c : Caller} {r : Request}
    {plan : SendPlan} (resolved : Option ReplyHeaders) (result : EngineSendResult)
    (hc : s.calls c = .queued r plan) :
    Ledger { s.setCall c (.handed r plan result) with
      log := s.log ++ [handOff c r plan resolved result] } := by
  have hsending : (s.calls c).sending = some (r, plan) := by rw [hc]; rfl
  have hcalls : ∀ d, (Function.update s.calls c (.handed r plan result) d).sending =
      (s.calls d).sending := by
    intro d
    by_cases hdc : d = c
    · subst hdc
      rw [Function.update_self, hsending]
      rfl
    · rw [Function.update_of_ne hdc]
  refine
    { exists_row := fun d r' plan' hd => h.exists_row d r' plan' ((hcalls d).symm.trans hd)
      row_iff := fun d r' plan' hd => h.row_iff d r' plan' ((hcalls d).symm.trans hd)
      sole := fun d e r₁ r₂ plan₁ plan₂ hd he =>
        h.sole d e r₁ r₂ plan₁ plan₂ ((hcalls d).symm.trans hd) ((hcalls e).symm.trans he)
      row_queued := fun d r' plan' hd => h.row_queued d r' plan' ((hcalls d).symm.trans hd)
      unspent := fun d r' plan' hd e he heq => ?_
      answered := fun d r' plan' result' hd => ?_ }
  · change Function.update s.calls c (.handed r plan result) d = .queued r' plan' at hd
    rcases update_eq_cases hd with ⟨rfl, hmoved⟩ | ⟨hdc, hd⟩
    · cases hmoved
    · rcases List.mem_append.mp he with he | he
      · exact h.unspent d r' plan' hd e he heq
      · obtain rfl := List.mem_singleton.mp he
        exact hdc (h.sole d c r' r plan' plan (by rw [hd]; rfl) hsending heq.symm)
  · change Function.update s.calls c (.handed r plan result) d = .handed r' plan' result' at hd
    rcases update_eq_cases hd with ⟨rfl, hmoved⟩ | ⟨hdc, hd⟩
    · cases hmoved
      refine ⟨⟨_, List.mem_append_right _ List.mem_cons_self, rfl⟩, fun e he heq => ?_⟩
      rcases List.mem_append.mp he with he | he
      · exact absurd heq (h.unspent d r plan hc e he)
      · obtain rfl := List.mem_singleton.mp he
        rfl
    · obtain ⟨⟨e₀, he₀, hkey₀⟩, hall⟩ := h.answered d r' plan' result' hd
      refine ⟨⟨e₀, List.mem_append_left _ he₀, hkey₀⟩, fun e he heq => ?_⟩
      rcases List.mem_append.mp he with he | he
      · exact hall e he heq
      · obtain rfl := List.mem_singleton.mp he
        exact absurd (h.sole d c r' r plan' plan (by rw [hd]; rfl) hsending heq.symm) hdc

omit [DecidableEq Caller] in
theorem mem_stampSendResult {messages : List EmailMessage} {id : String}
    {result : EngineSendResult} {m : EmailMessage} (h : m ∈ stampSendResult messages id result) :
    ∃ m₀ ∈ messages, m.id = m₀.id ∧ m.triple? = m₀.triple? ∧
      ((m₀.id = id ∧ m.status = if result.accepted then .sent else .failed) ∨
        (m₀.id ≠ id ∧ m.status = m₀.status)) := by
  obtain ⟨m₀, hm₀, hid, rfl⟩ | ⟨hm, hid⟩ := Framework.Table.mem_update.mp h
  · exact ⟨m₀, hm₀, rfl, rfl, .inl ⟨hid, rfl⟩⟩
  · exact ⟨m, hm, rfl, rfl, .inr ⟨hid, rfl⟩⟩

/-- Recording an answer touches the row of the call that stops sending. -/
private theorem Ledger.stamp {s : State Caller} (h : Ledger s) {c : Caller} {r : Request}
    {plan : SendPlan} {result : EngineSendResult} (hc : s.calls c = .handed r plan result) :
    Ledger { s.setCall c (stamped (stampSendResult s.db.messages plan.messageId result)
        plan.messageId) with
      db := { s.db with messages := stampSendResult s.db.messages plan.messageId result } } := by
  have hsending : (s.calls c).sending = some (r, plan) := by rw [hc]; rfl
  have hnew : (stamped (stampSendResult s.db.messages plan.messageId result)
      plan.messageId).sending = none := by
    unfold stamped
    split <;> rfl
  have hframe := h.setCall c hnew
  -- Whoever is still sending is another call, whose row is another row.
  have hother : ∀ d r' plan', (((s.setCall c (stamped (stampSendResult s.db.messages
      plan.messageId result) plan.messageId)).calls d).sending = some (r', plan')) →
      plan'.messageId ≠ plan.messageId := by
    intro d r' plan' hd heq
    change (Function.update s.calls c _ d).sending = some (r', plan') at hd
    by_cases hdc : d = c
    · subst hdc
      rw [Function.update_self, hnew] at hd
      cases hd
    · rw [Function.update_of_ne hdc] at hd
      obtain ⟨m, hm, hmid⟩ := h.exists_row d r' plan' hd
      have hkey' := (h.row_iff d r' plan' hd m hm).mp hmid
      have hkey := (h.row_iff c r plan hsending m hm).mp (hmid.trans heq)
      exact hdc (h.sole d c r' r plan' plan hd hsending
        (Option.some.inj (hkey'.symm.trans hkey)))
  refine
    { exists_row := fun d r' plan' hd => ?_
      row_iff := fun d r' plan' hd m hm => ?_
      sole := hframe.sole
      row_queued := fun d r' plan' hd m hm hkey => ?_
      unspent := hframe.unspent
      answered := hframe.answered }
  · obtain ⟨m, hm, hmid⟩ := hframe.exists_row d r' plan' hd
    refine ⟨_, List.mem_map.mpr ⟨m, hm, rfl⟩, ?_⟩
    rw [if_neg (by rw [hmid]; exact hother d r' plan' hd)]
    exact hmid
  · obtain ⟨m₀, hm₀, hid, hkey, -⟩ := mem_stampSendResult hm
    rw [hid, hkey]
    exact hframe.row_iff d r' plan' hd m₀ hm₀
  · obtain ⟨m₀, hm₀, hid, hkey₀, hstatus⟩ := mem_stampSendResult hm
    rw [hkey₀] at hkey
    have hmid := (hframe.row_iff d r' plan' hd m₀ hm₀).mpr hkey
    rcases hstatus with ⟨hstamped, -⟩ | ⟨-, hstatus⟩
    · exact absurd (hmid.symm.trans hstamped) (hother d r' plan' hd)
    · rw [hstatus]
      exact hframe.row_queued d r' plan' hd m₀ hm₀ hkey

/-- Every logged engine call has a row under its key. -/
def LogHasRow (s : State Caller) : Prop :=
  ∀ e ∈ s.log, hasKey s.db e.triple = true

/-- The row a plan to send creates is a queued one with the plan's id. -/
def PlanRow (plan : ComposePlan) : Prop :=
  match plan with
  | .send msg plan => msg.id = plan.messageId ∧ msg.status = .queued
  | _ => True

/-- **What the proofs about rows carry along a run.** -/
structure RowInv (s : State Caller) : Prop where
  ledger : Ledger s
  logged : LogHasRow s
  plans : ∀ c r plan, s.calls c = .planned r plan → PlanRow plan

omit [DecidableEq Caller] in
/-- A key that a row carries is still carried after a commit. -/
theorem hasKey_commit {db : Db} {r : Request} {plan : ComposePlan} {t : Triple}
    (h : hasKey db t = true) : hasKey (commit db r plan).1 t = true := by
  have hins : ∀ {msg db'}, insertMessage db msg = .ok db' →
      ∀ inbox, hasKey { db' with inbox := inbox } t = true := by
    intro msg db' hins inbox
    obtain ⟨-, rfl⟩ := insertMessage_ok hins
    unfold hasKey
    rw [List.any_append, Bool.or_eq_true]
    exact .inl h
  rcases commit_cases db r plan with ⟨e, hcommit⟩ | ⟨view, -, hcommit⟩ |
    ⟨msg, item, db', -, hi, hcommit⟩ | ⟨msg, sendPlan, db', -, hi, hcommit⟩ <;> rw [hcommit]
  · exact h
  · exact h
  · exact hins hi _
  · exact hins hi db'.inbox

/-- Committing a plan keeps the ledger. -/
private theorem Ledger.commit {s : State Caller} (h : Ledger s) (hlogged : LogHasRow s)
    {c : Caller} {r : Request} {plan : ComposePlan}
    (hcarries : ComposePlan.Carries plan r.triple) (hrow : PlanRow plan) :
    Ledger { s.setCall c (commit s.db r plan).2 with db := (commit s.db r plan).1 } := by
  rcases commit_cases s.db r plan with ⟨e, hcommit⟩ | ⟨view, -, hcommit⟩ |
    ⟨msg, item, db, -, hins, hcommit⟩ | ⟨msg, sendPlan, db, rfl, hins, hcommit⟩ <;> rw [hcommit]
  · exact h.setCall c rfl
  · exact h.setCall c rfl
  · exact (h.insert hins _).setCall c rfl
  · refine h.queue hcarries hrow.1 hrow.2 (fun e he heq => ?_) hins
    have hkey := hlogged e he
    rw [heq, hasKey_of_insert hcarries hins] at hkey
    cases hkey

/-- What phase 1 plans is the row of the plan. -/
theorem planRow_of_planned [CaseMapping] {env : Env} {db : Db} {r r' : Request} {f : Bool}
    {ids : NewIds} {plan : ComposePlan} (h : planned env db r f ids = .planned r' plan) :
    PlanRow plan := by
  unfold planned at h
  split at h
  · rename_i plan' hplan
    cases h
    cases plan with
    | send msg plan =>
      obtain ⟨mailbox, footer, -, -, -, rfl, hid, -⟩ := composePlan_send hplan
      exact ⟨hid.symm, rfl⟩
    | _ => trivial
  · cases h

/-- Only the reads of phase 1 leave a call planning. -/
private theorem plans_setCall {s : State Caller}
    (h : ∀ c r plan, s.calls c = .planned r plan → PlanRow plan) (c : Caller) {call : Call}
    (hcall : ∀ r plan, call = .planned r plan → PlanRow plan) :
    ∀ d r plan, (s.setCall c call).calls d = .planned r plan → PlanRow plan := by
  intro d r plan hd
  change Function.update s.calls c call d = .planned r plan at hd
  rcases update_eq_cases hd with ⟨rfl, hmoved⟩ | ⟨-, hd⟩
  · exact hcall r plan hmoved
  · exact h d r plan hd

theorem RowInv.initial [CaseMapping] {env : Env} {s : State Caller} (h : (system env).init s) :
    RowInv s := by
  obtain ⟨hidle, hlog⟩ := h
  have hnone : ∀ c p, (s.calls c).sending ≠ some p := by
    intro c p hc
    rw [hidle c] at hc
    cases hc
  refine ⟨⟨fun c r plan hc => absurd hc (hnone c _), fun c r plan hc => absurd hc (hnone c _),
    fun c d r r' plan plan' hc => absurd hc (hnone c _), fun c r plan hc => absurd hc (hnone c _),
    fun c r plan hc => ?_, fun c r plan result hc => ?_⟩, fun e he => ?_, fun c r plan hc => ?_⟩
  · rw [hidle c] at hc
    cases hc
  · rw [hidle c] at hc
    cases hc
  · rw [hlog] at he
    cases he
  · rw [hidle c] at hc
    cases hc

theorem RowInv.step [CaseMapping] {env : Env} {s s' : State Caller} {l : Label Caller}
    (h : RowInv s) (hplan : PlanInv s) (hs : (system env).step s l = some s') : RowInv s' := by
  rcases step_eq_some hs with ⟨c, r, f, ids, rfl, hc, rfl⟩ | ⟨c, r, plan, rfl, hc, rfl⟩ |
    ⟨c, r, plan, resolved, result, rfl, hc, rfl⟩ | ⟨c, r, plan, result, rfl, hc, rfl⟩ |
    ⟨c, rfl, rfl⟩ | ⟨t, rfl, rfl⟩
  · have hnew : (planned env s.db r f ids).sending = none := by
      unfold planned
      split <;> rfl
    exact ⟨h.ledger.setCall c hnew, h.logged,
      plans_setCall h.plans c fun r' plan hp => planRow_of_planned hp⟩
  · refine ⟨h.ledger.commit h.logged (hplan c r plan hc) (h.plans c r plan hc),
      fun e he => hasKey_commit (h.logged e he), ?_⟩
    exact plans_setCall h.plans c fun r' plan' hp => absurd hp (commit_ne_planned _ _ _ _ _)
  · refine ⟨h.ledger.hand resolved result hc, fun e he => ?_, ?_⟩
    · rcases List.mem_append.mp he with he | he
      · exact h.logged e he
      · obtain rfl := List.mem_singleton.mp he
        have hsending : (s.calls c).sending = some (r, plan) := by rw [hc]; rfl
        obtain ⟨m, hm, hmid⟩ := h.ledger.exists_row c r plan hsending
        have hkey := (h.ledger.row_iff c r plan hsending m hm).mp hmid
        exact List.any_eq_true.mpr ⟨m, hm, decide_eq_true hkey⟩
    · exact plans_setCall h.plans c fun r' plan' hp => by cases hp
  · refine ⟨h.ledger.stamp hc, fun e he => ?_, ?_⟩
    · have hkey := h.logged e he
      unfold hasKey at hkey ⊢
      rwa [any_triple?_stampSendResult]
    · exact plans_setCall h.plans c fun r' plan' hp => absurd hp (stamped_ne_planned _ _ _ _)
  · exact ⟨h.ledger.setCall c rfl, h.logged, plans_setCall h.plans c fun r' plan hp => by cases hp⟩
  · exact ⟨⟨h.ledger.exists_row, h.ledger.row_iff, h.ledger.sole, h.ledger.row_queued,
      h.ledger.unspent, h.ledger.answered⟩, h.logged, h.plans⟩

theorem rowInv_of_reachable [CaseMapping] {env : Env} {s : State Caller}
    (h : (system env).Reachable s) : RowInv s :=
  h.invariant (P := RowInv) (fun _ h0 => RowInv.initial h0)
    fun _ _ _ hr hi hs => hi.step (planInv_of_reachable hr) hs

/-! ### What a key's row says -/

/-- The engine accepted a message under the key. -/
def Accepted (log : List (HandOff Caller)) (t : Triple) : Prop :=
  ∃ e ∈ log, e.triple = t ∧ e.result.accepted = true

/-- What a status says about the engine is so. -/
def StatusTold (log : List (HandOff Caller)) (t : Triple) (status : EmailMessageStatus) : Prop :=
  (status = .sent ∧ Accepted log t) ∨ (status = .failed ∧ ¬Accepted log t)

/-- What the row of a key says is so, or it does not say anything yet. -/
def Told (s : State Caller) (t : Triple) : Prop :=
  ∀ m ∈ s.db.messages, m.triple? = some t → m.status = .queued ∨ StatusTold s.log t m.status

omit [DecidableEq Caller] in
theorem not_accepted_of_no_row {s : State Caller} (h : LogHasRow s) {t : Triple}
    (hkey : hasKey s.db t = false) : ¬Accepted s.log t := by
  rintro ⟨e, he, rfl, -⟩
  rw [h e he] at hkey
  cases hkey

omit [DecidableEq Caller] in
/-- The answer of a handed call is what the engine said under its key. -/
theorem accepted_iff_of_handed {s : State Caller} (h : Ledger s) {c : Caller} {r : Request}
    {plan : SendPlan} {result : EngineSendResult} (hc : s.calls c = .handed r plan result) :
    Accepted s.log r.triple ↔ result.accepted = true := by
  obtain ⟨⟨e₀, he₀, hkey₀⟩, hall⟩ := h.answered c r plan result hc
  constructor
  · rintro ⟨e, he, hkey, haccepted⟩
    rwa [hall e he hkey] at haccepted
  · intro haccepted
    exact ⟨e₀, he₀, hkey₀, by rw [hall e₀ he₀ hkey₀]; exact haccepted⟩

omit [DecidableEq Caller] in
/-- Recording a handed call's answer makes its row tell it. -/
theorem statusTold_of_stamp {s : State Caller} (h : Ledger s) {c : Caller} {r : Request}
    {plan : SendPlan} {result : EngineSendResult} (hc : s.calls c = .handed r plan result)
    {status : EmailMessageStatus}
    (hstatus : status = if result.accepted then .sent else .failed) :
    StatusTold s.log r.triple status := by
  have hiff := accepted_iff_of_handed h hc
  rw [hstatus]
  by_cases haccepted : result.accepted = true
  · rw [if_pos haccepted]
    exact .inl ⟨rfl, hiff.mpr haccepted⟩
  · rw [if_neg haccepted]
    exact .inr ⟨rfl, fun hacc => haccepted (hiff.mp hacc)⟩

omit [DecidableEq Caller] in
/-- A row appended beside the rows of a key keeps what they say. -/
private theorem Told.insert {s : State Caller} {t : Triple} (h : Told s t) {msg : EmailMessage}
    {db : Db} (hins : insertMessage s.db msg = .ok db)
    (hmsg : msg.triple? = some t → msg.status = .queued) :
    ∀ m ∈ db.messages, m.triple? = some t → m.status = .queued ∨ StatusTold s.log t m.status := by
  obtain ⟨-, rfl⟩ := insertMessage_ok hins
  intro m hm hkey
  rcases List.mem_append.mp hm with hm | hm
  · exact h m hm hkey
  · obtain rfl := List.mem_singleton.mp hm
    exact .inl (hmsg hkey)

/-- **Rows go on telling the truth.** Every step keeps what the row of a key says,
unless it stages a draft under the key. -/
theorem Told.step [CaseMapping] {env : Env} {s s' : State Caller} {l : Label Caller} {t : Triple}
    (h : Told s t) (hrow : RowInv s) (hplan : PlanInv s)
    (hstage : ∀ c r msg item, l = .commit c → s.calls c = .planned r (.stage msg item) →
      r.triple ≠ t)
    (hs : (system env).step s l = some s') : Told s' t := by
  rcases step_eq_some hs with ⟨c, r, f, ids, rfl, hc, rfl⟩ | ⟨c, r, plan, rfl, hc, rfl⟩ |
    ⟨c, r, plan, resolved, result, rfl, hc, rfl⟩ | ⟨c, r, plan, result, rfl, hc, rfl⟩ |
    ⟨c, rfl, rfl⟩ | ⟨settings, rfl, rfl⟩
  · exact h
  · have hcarries := hplan c r plan hc
    have hstatus := hrow.plans c r plan hc
    rcases commit_cases s.db r plan with ⟨e, hcommit⟩ | ⟨view, -, hcommit⟩ |
      ⟨msg, item, db, rfl, hins, hcommit⟩ | ⟨msg, sendPlan, db, rfl, hins, hcommit⟩ <;>
      rw [hcommit]
    · exact h
    · exact h
    · have hmsg : msg.triple? = some r.triple := hcarries
      have hkept := h.insert hins fun hkey =>
        absurd (Option.some.inj (hmsg.symm.trans hkey)) (hstage c r msg item rfl hc)
      exact hkept
    · exact h.insert hins fun _ => hstatus.2
  · -- The row of the key handed over under is queued; no other key is touched.
    have hsending : (s.calls c).sending = some (r, plan) := by rw [hc]; rfl
    intro m hm hkey
    by_cases ht : r.triple = t
    · exact .inl (hrow.ledger.row_queued c r plan hsending m hm (by rw [ht]; exact hkey))
    · have hsame : Accepted (s.log ++ [handOff c r plan resolved result]) t ↔ Accepted s.log t := by
        constructor
        · rintro ⟨e, he, hkey', haccepted⟩
          rcases List.mem_append.mp he with he | he
          · exact ⟨e, he, hkey', haccepted⟩
          · obtain rfl := List.mem_singleton.mp he
            exact absurd hkey' ht
        · rintro ⟨e, he, hrest⟩
          exact ⟨e, List.mem_append_left _ he, hrest⟩
      unfold StatusTold
      rw [hsame]
      exact h m hm hkey
  · intro m hm hkey
    have hsending : (s.calls c).sending = some (r, plan) := by rw [hc]; rfl
    obtain ⟨m₀, hm₀, hid, hkey₀, hstatus⟩ := mem_stampSendResult hm
    rw [hkey₀] at hkey
    rcases hstatus with ⟨hstamped, hstatus⟩ | ⟨-, hstatus⟩
    · have hrkey := (hrow.ledger.row_iff c r plan hsending m₀ hm₀).mp hstamped
      obtain rfl := Option.some.inj (hrkey.symm.trans hkey)
      exact .inr (statusTold_of_stamp hrow.ledger hc hstatus)
    · rw [hstatus]
      exact h m₀ hm₀ hkey
  · exact h
  · exact h

/-! ### Keys a step does not touch -/

/-- Two states that agree on a key: its rows, their statuses, and what was
accepted under it. -/
structure SameKey (s s' : State Caller) (t : Triple) : Prop where
  accepted : Accepted s'.log t ↔ Accepted s.log t
  hasKey : Compose.hasKey s'.db t = Compose.hasKey s.db t
  status : ∀ m' ∈ s'.db.messages, m'.triple? = some t →
    ∃ m ∈ s.db.messages, m.triple? = some t ∧ m'.status = m.status

omit [DecidableEq Caller] in
private theorem SameKey.of_eq {s s' : State Caller} {t : Triple}
    (hmessages : s'.db.messages = s.db.messages) (hlog : s'.log = s.log) : SameKey s s' t where
  accepted := by rw [hlog]
  hasKey := by
    unfold Compose.hasKey
    rw [hmessages]
  status m hm hkey := ⟨m, by rwa [hmessages] at hm, hkey, rfl⟩

omit [DecidableEq Caller] in
/-- A row under another key leaves a key as it is. -/
private theorem SameKey.of_insert {s s' : State Caller} {t : Triple} {msg : EmailMessage}
    (hmessages : s'.db.messages = s.db.messages ++ [msg]) (hlog : s'.log = s.log)
    (hmsg : msg.triple? ≠ some t) : SameKey s s' t where
  accepted := by rw [hlog]
  hasKey := by
    unfold Compose.hasKey
    rw [hmessages, List.any_append]
    simp [hmsg]
  status m hm hkey := by
    rw [hmessages] at hm
    rcases List.mem_append.mp hm with hm | hm
    · exact ⟨m, hm, hkey, rfl⟩
    · obtain rfl := List.mem_singleton.mp hm
      exact absurd hkey hmsg

/-- **Frame rule for keys.** A step leaves a key as it is unless it does the work
of a call on that key. -/
theorem sameKey_of_step [CaseMapping] {env : Env} {s s' : State Caller} {l : Label Caller}
    {t : Triple} (hrow : RowInv s) (hplan : PlanInv s) (hs : (system env).step s l = some s')
    (hquiet : ∀ c, l.about = some c → (s.calls c).activeKey ≠ some t) : SameKey s s' t := by
  rcases step_eq_some hs with ⟨c, r, f, ids, rfl, hc, rfl⟩ | ⟨c, r, plan, rfl, hc, rfl⟩ |
    ⟨c, r, plan, resolved, result, rfl, hc, rfl⟩ | ⟨c, r, plan, result, rfl, hc, rfl⟩ |
    ⟨c, rfl, rfl⟩ | ⟨settings, rfl, rfl⟩
  · exact SameKey.of_eq rfl rfl
  · have hne : r.triple ≠ t := fun heq => hquiet c rfl (by rw [hc, ← heq]; rfl)
    have hcarries := hplan c r plan hc
    rcases commit_cases s.db r plan with ⟨e, hcommit⟩ | ⟨view, -, hcommit⟩ |
      ⟨msg, item, db, rfl, hins, hcommit⟩ | ⟨msg, sendPlan, db, rfl, hins, hcommit⟩ <;>
      rw [hcommit]
    · exact SameKey.of_eq rfl rfl
    · exact SameKey.of_eq rfl rfl
    · obtain ⟨-, rfl⟩ := insertMessage_ok hins
      have hmsg : msg.triple? = some r.triple := hcarries
      exact SameKey.of_insert rfl rfl fun heq => hne (Option.some.inj (hmsg.symm.trans heq))
    · obtain ⟨-, rfl⟩ := insertMessage_ok hins
      have hmsg : msg.triple? = some r.triple := hcarries
      exact SameKey.of_insert rfl rfl fun heq => hne (Option.some.inj (hmsg.symm.trans heq))
  · have hne : r.triple ≠ t := fun heq => hquiet c rfl (by rw [hc, ← heq]; rfl)
    refine ⟨⟨?_, ?_⟩, rfl, fun m hm hkey => ⟨m, hm, hkey, rfl⟩⟩
    · rintro ⟨e, he, hkey, haccepted⟩
      rcases List.mem_append.mp he with he | he
      · exact ⟨e, he, hkey, haccepted⟩
      · obtain rfl := List.mem_singleton.mp he
        exact absurd hkey hne
    · rintro ⟨e, he, hrest⟩
      exact ⟨e, List.mem_append_left _ he, hrest⟩
  · have hne : r.triple ≠ t := fun heq => hquiet c rfl (by rw [hc, ← heq]; rfl)
    have hsending : (s.calls c).sending = some (r, plan) := by rw [hc]; rfl
    refine ⟨Iff.rfl, any_triple?_stampSendResult _ _ _ t, fun m hm hkey => ?_⟩
    obtain ⟨m₀, hm₀, -, hkey₀, hstatus⟩ := mem_stampSendResult hm
    rw [hkey₀] at hkey
    refine ⟨m₀, hm₀, hkey, ?_⟩
    rcases hstatus with ⟨hstamped, -⟩ | ⟨-, hstatus⟩
    · -- The row stamped is the one under the call's own key.
      have hrkey := (hrow.ledger.row_iff c r plan hsending m₀ hm₀).mp hstamped
      exact absurd (Option.some.inj (hrkey.symm.trans hkey)) hne
    · exact hstatus
  · exact SameKey.of_eq rfl rfl
  · exact SameKey.of_eq rfl rfl

end Compose
end EmailOps
