import EmailOps.Email.ComposeLedger
import EmailOps.Scheduling.AtMostOnce

/-!
# What a scheduled send's final state says

A row in state `SENT` should mean that the engine accepted its message, and one
in state `FAILED` or `CANCELLED` that it never did. The code does not guarantee
it: a worker that dies after its compose has committed the `QUEUED` row leaves a
row that the next worker marks `SENT` on the strength of the idempotent replay
alone (`sent_without_acceptance`).

* `Careful` is the condition on the steps under which it does hold.
* `Truth` is the invariant of the runs whose steps are all careful: one worker
  owns a claimed row, only its compose works under the row's key, and what the
  worker has learnt about the message is so.
* `final_states_are_true` is the result.
-/

namespace EmailOps
namespace Scheduler

open Framework Compose

/-! ### The condition -/

/-- The row a worker answers for, from its claim until it goes on. -/
def Work.owned : Work → Option ScheduledSend
  | .claimed _ row _ | .composing _ row _ _ _ | .marking _ row _ _ _ _ => some row
  | _ => none

/-- Is this an idempotency key of the scheduler? -/
def isScheduledKey (t : Triple) : Bool :=
  t.2.1 = schedulerSource && (scheduledRef "").toList.isPrefixOf t.2.2.toList

theorem isScheduledKey_key (row : ScheduledSend) : isScheduledKey row.key = true := by
  unfold isScheduledKey ScheduledSend.key
  rw [Bool.and_eq_true, List.isPrefixOf_iff_prefix]
  refine ⟨decide_eq_true rfl, ?_⟩
  unfold scheduledRef
  rw [String.toList_append, String.toList_append]
  exact ⟨row.id.toList, by simp⟩

/-- **The condition.** A stale claim is retaken only when no worker answers for the
row any more and its message, if recorded, has left `QUEUED`; a failure before
or beside the compose's own answer happens only while the engine has not
accepted the message; the scheduler's source is trusted and not an agent's, so
that its composes are not staged; and nobody else composes under its keys. -/
def Careful (env : Env) (s : State) : Label → Prop
  | .claim w => ∀ now row queue, s.workOf w = .sweeping now (row :: queue) →
      row.state = .claimed →
        (∀ v r, (s.workOf v).owned = some r → r.id ≠ row.id) ∧
        ∀ m ∈ s.compose.db.messages, m.triple? = some row.key → m.status ≠ .queued
  | .prepare w configured => ∀ now row queue, s.workOf w = .claimed now row queue →
      prepareFails s.compose.db.settings row configured = true → ¬Accepted s.compose.log row.key
  | .throws w => (∀ now row queue, s.workOf w ≠ .sweeping now (row :: queue)) ∧
      ∀ row, (s.workOf w).owned = some row → ¬Accepted s.compose.log row.key
  | .compose (.start (.worker w _) _ _ _) => ∀ now row payload n queue,
      s.workOf w = .composing now row payload n queue →
        resolveAgent s.compose.db.settings row.workspaceId (composeInput row payload) = none ∧
        env.trustedComposeSources.contains schedulerSource = true
  | .compose (.start (.other _) r _ _) => isScheduledKey r.triple = false
  | .compose (.crash (.worker w _)) => ∀ now row payload n queue,
      s.workOf w = .composing now row payload n queue → ¬Accepted s.compose.log row.key
  | _ => True

/-! ### The invariant -/

/-- Every row of the key tells what the engine said. -/
def Settled (c : Compose.State Caller) (t : Triple) : Prop :=
  ∀ m ∈ c.db.messages, m.triple? = some t → StatusTold c.log t m.status

/-- What a worker's compose has learnt about its key. -/
def CallTold (c : Compose.State Caller) (t : Triple) : Call → Prop
  | .idle => Settled c t
  | .planned _ (.done view) => StatusTold c.log t view.status
  | .planned _ (.stage _ _) => False
  | .planned _ (.send _ _) => hasKey c.db t = false
  | .queued _ _ | .handed _ _ _ => True
  | .returned view => StatusTold c.log t view.status
  | .failed _ | .crashed => ¬Accepted c.log t

/-- What a row's state says about the engine. -/
def RowTold (c : Compose.State Caller) (t : Triple) : ScheduledSendState → Prop
  | .pending | .cancelled => hasKey c.db t = false
  | .claimed => True
  | .sent => Accepted c.log t
  | .failed => ¬Accepted c.log t

/-- What a worker knows about the message of its row. -/
def WorkTold (c : Compose.State Caller) (w : ℕ) : Work → Prop
  | .claimed _ row _ => Settled c row.key
  | .composing _ row _ n _ => CallTold c row.key (c.calls (.worker w n))
  | .marking _ row target _ _ _ => (target = .sent ∨ target = .failed) ∧ RowTold c row.key target
  | _ => True

/-- The table has the row, and it is claimed. -/
def ClaimedIn (rows : List ScheduledSend) (row : ScheduledSend) : Prop :=
  ∃ r ∈ rows, r.id = row.id ∧ r.workspaceId = row.workspaceId ∧ r.state = .claimed

/-- **The invariant.** -/
structure Truth (s : State) : Prop where
  /-- One worker answers for a row. -/
  sole : ∀ v w r r', (s.workOf v).owned = some r → (s.workOf w).owned = some r' →
    r.id = r'.id → v = w
  /-- A row somebody answers for is claimed. -/
  claimed : ∀ w row, (s.workOf w).owned = some row → ClaimedIn s.sends row
  /-- Only the compose of the worker that answers for a row works under its key. -/
  working : ∀ c t, (s.compose.calls c).activeKey = some t → isScheduledKey t = true →
    ∃ w n now row payload queue, c = .worker w n ∧
      s.workOf w = .composing now row payload n queue ∧ row.key = t
  /-- The message of a row tells what the engine said. -/
  told : ∀ row ∈ s.sends, Told s.compose row.key
  /-- What the rows say is so. -/
  rows : ∀ row ∈ s.sends, RowTold s.compose row.key row.state
  /-- What the workers know is so. -/
  work : ∀ w, WorkTold s.compose w (s.workOf w)

theorem key_eq {r row : ScheduledSend} (hid : r.id = row.id)
    (hws : r.workspaceId = row.workspaceId) : r.key = row.key := by
  unfold ScheduledSend.key
  rw [hid, hws]

private theorem owned_of_composing {work : Work} {now : ℕ} {row : ScheduledSend}
    {payload : ScheduledSendPayload} {n : ℕ} {queue : List ScheduledSend}
    (h : work = .composing now row payload n queue) : work.owned = some row := by
  rw [h]
  rfl

/-- The row of a key somebody composes under is claimed. -/
private theorem Truth.state_of_active {s : State} (h : Truth s)
    (hnodup : (s.sends.map (·.id)).Nodup) {c : Caller} {row : ScheduledSend}
    (hrow : row ∈ s.sends) (hc : (s.compose.calls c).activeKey = some row.key) :
    row.state = .claimed := by
  obtain ⟨w, n, now, row', payload, queue, -, hw, hkey⟩ :=
    h.working c row.key hc (isScheduledKey_key row)
  obtain ⟨r, hr, hid, -, hstate⟩ := h.claimed w row' (owned_of_composing hw)
  have heq := eq_of_id_eq hnodup hr hrow (hid.trans (key_injective hkey))
  rw [← heq]
  exact hstate

/-- Under the key of a row a worker answers for, nobody else works. -/
private theorem Truth.active_of_owned {s : State} (h : Truth s) {w : ℕ} {row : ScheduledSend}
    (hw : (s.workOf w).owned = some row) {c : Caller}
    (hc : (s.compose.calls c).activeKey = some row.key) :
    ∃ n now row' payload queue, c = .worker w n ∧
      s.workOf w = .composing now row' payload n queue := by
  obtain ⟨v, n, now, row', payload, queue, rfl, hv, hkey⟩ :=
    h.working c row.key hc (isScheduledKey_key row)
  have hvw := h.sole v w row' row (owned_of_composing hv) hw (key_injective hkey)
  subst hvw
  exact ⟨n, now, row', payload, queue, rfl, hv⟩

/-! ### Steps of the workers -/

/-- None of a worker's composes works under a scheduler key. -/
def NoneActive (s : State) (w : ℕ) : Prop :=
  ∀ n t, (s.compose.calls (.worker w n)).activeKey = some t → isScheduledKey t = false

/-- A worker that is not composing has no compose at work. -/
private theorem Truth.noneActive {s : State} (h : Truth s) {w : ℕ}
    (hw : ∀ now row payload n queue, s.workOf w = .composing now row payload n queue →
      (s.compose.calls (.worker w n)).activeKey = none) : NoneActive s w := by
  intro n t ht
  cases hkey : isScheduledKey t with
  | false => rfl
  | true =>
    obtain ⟨v, m, now, row, payload, queue, hcaller, hv, -⟩ := h.working _ t ht hkey
    cases hcaller
    rw [hw now row payload n queue hv] at ht
    cases ht

/-- **Frame rule for workers.** A worker without a compose at work moves on, and
answers for what it answered for, or for a claimed row nobody answers for. -/
private theorem Truth.moveOn {s s' : State} (h : Truth s) {w : ℕ} {work : Work}
    (hcompose : s'.compose = s.compose) (hsends : s'.sends = s.sends)
    (hself : s'.workOf w = work) (hother : ∀ v, v ≠ w → s'.workOf v = s.workOf v)
    (hactive : NoneActive s w)
    (howned : ∀ row, work.owned = some row → (s.workOf w).owned = some row ∨
      ((∀ v r, (s.workOf v).owned = some r → r.id ≠ row.id) ∧ ClaimedIn s.sends row))
    (htold : WorkTold s.compose w work) : Truth s' := by
  have hcases : ∀ {v row}, (s'.workOf v).owned = some row → (s.workOf v).owned = some row ∨
      (v = w ∧ (∀ u r, (s.workOf u).owned = some r → r.id ≠ row.id) ∧
        ClaimedIn s.sends row) := by
    intro v row hv
    by_cases hvw : v = w
    · subst hvw
      rw [hself] at hv
      rcases howned row hv with hold | ⟨hnone, hclaimed⟩
      · exact .inl hold
      · exact .inr ⟨rfl, hnone, hclaimed⟩
    · rw [hother v hvw] at hv
      exact .inl hv
  refine
    { sole := fun u v r r' hu hv hid => ?_
      claimed := fun v row hv => ?_
      working := fun c t ht hkey => ?_
      told := by rw [hsends, hcompose]; exact h.told
      rows := by rw [hsends, hcompose]; exact h.rows
      work := fun v => ?_ }
  · rcases hcases hu with hu | ⟨rfl, hnone, -⟩ <;> rcases hcases hv with hv | ⟨rfl, hnone', -⟩
    · exact h.sole u v r r' hu hv hid
    · exact absurd hid (hnone' u r hu)
    · exact absurd hid.symm (hnone v r' hv)
    · rfl
  · rw [hsends]
    rcases hcases hv with hv | ⟨-, -, hclaimed⟩
    · exact h.claimed v row hv
    · exact hclaimed
  · rw [hcompose] at ht
    obtain ⟨v, n, now, row, payload, queue, rfl, hv, hrow⟩ := h.working c t ht hkey
    have hvw : v ≠ w := by
      rintro rfl
      rw [hactive n t ht] at hkey
      cases hkey
    exact ⟨v, n, now, row, payload, queue, rfl, (hother v hvw).trans hv, hrow⟩
  · rw [hcompose]
    by_cases hvw : v = w
    · subst hvw
      rw [hself]
      exact htold
    · rw [hother v hvw]
      exact h.work v

/-- **Frame rule for the table.** A statement changes rows; what each of them says
is so, and the rows somebody answers for stay claimed. -/
private theorem Truth.table {s s' : State} (h : Truth s) (hcompose : s'.compose = s.compose)
    (hworkers : ∀ w, s'.workOf w = s.workOf w)
    (hrows : ∀ row ∈ s'.sends, Told s.compose row.key ∧ RowTold s.compose row.key row.state)
    (hclaimed : ∀ w row, (s.workOf w).owned = some row → ClaimedIn s'.sends row) : Truth s' where
  sole v w r r' hv hw := by
    rw [hworkers] at hv hw
    exact h.sole v w r r' hv hw
  claimed w row hw := by
    rw [hworkers] at hw
    exact hclaimed w row hw
  working c t ht hkey := by
    rw [hcompose] at ht
    obtain ⟨w, n, now, row, payload, queue, hc, hw, hrow⟩ := h.working c t ht hkey
    exact ⟨w, n, now, row, payload, queue, hc, (hworkers w).trans hw, hrow⟩
  told row hrow := by
    rw [hcompose]
    exact (hrows row hrow).1
  rows row hrow := by
    rw [hcompose]
    exact (hrows row hrow).2
  work w := by
    rw [hcompose, hworkers]
    exact h.work w

/-- An update that leaves claimed rows claimed leaves those rows in place. -/
private theorem ClaimedIn.update {rows : List ScheduledSend} {row : ScheduledSend}
    (h : ClaimedIn rows row) {p : ScheduledSend → Bool} {f : ScheduledSend → ScheduledSend}
    (hp : ∀ r, p r = true → r.id = row.id → r.state = .claimed →
      (f r).id = r.id ∧ (f r).workspaceId = r.workspaceId ∧ (f r).state = .claimed) :
    ClaimedIn (updateMany rows p f) row := by
  obtain ⟨r, hr, hid, hws, hstate⟩ := h
  cases hpr : p r with
  | false => exact ⟨r, mem_updateMany.mpr (.inr ⟨hr, hpr⟩), hid, hws, hstate⟩
  | true =>
    obtain ⟨hid', hws', hstate'⟩ := hp r hpr hid hstate
    exact ⟨f r, mem_updateMany.mpr (.inl ⟨r, hr, hpr, rfl⟩), hid'.trans hid, hws'.trans hws,
      hstate'⟩

private theorem Truth.claim {s : State} (h : Truth s) (row : ScheduledSend) (now : ℕ) :
    Truth { s with sends := EmailOps.claim s.sends row now } := by
  refine h.table rfl (fun _ => rfl) (fun r hr => ?_) fun w r hw => ?_
  · rcases mem_updateMany.mp hr with ⟨r₀, hr₀, -, rfl⟩ | ⟨hr, -⟩
    · exact ⟨h.told r₀ hr₀, trivial⟩
    · exact ⟨h.told r hr, h.rows r hr⟩
  · exact (h.claimed w r hw).update fun _ _ _ _ => ⟨rfl, rfl, rfl⟩

/-- A mark's statement keeps the invariant when nobody answers for the row and the
state it writes is so. -/
private theorem Truth.mark {s : State} (h : Truth s) {id : String} {target : ScheduledSendState}
    (sentAt : Option ℕ) (hnone : ∀ v r, (s.workOf v).owned = some r → r.id ≠ id)
    (htold : ∀ r ∈ s.sends, r.id = id → RowTold s.compose r.key target) :
    Truth { s with sends := markScheduledSend s.sends id target sentAt } := by
  have hguard : ∀ {r}, markGuard id r = true → r.id = id := by
    intro r hr
    unfold markGuard at hr
    simp only [Bool.and_eq_true, decide_eq_true_eq] at hr
    exact hr.1
  refine h.table rfl (fun _ => rfl) (fun r hr => ?_) fun w r hw => ?_
  · rcases mem_updateMany.mp hr with ⟨r₀, hr₀, hp, rfl⟩ | ⟨hr, -⟩
    · exact ⟨h.told r₀ hr₀, htold r₀ hr₀ (hguard hp)⟩
    · exact ⟨h.told r hr, h.rows r hr⟩
  · exact (h.claimed w r hw).update fun r₀ hp hid _ =>
      absurd (hid.symm.trans (hguard hp)) (hnone w r hw)

/-- A cancel's statement keeps the invariant: a pending row's message does not
exist yet. -/
private theorem Truth.cancel {s : State} (h : Truth s) (workspaceId id : String) :
    Truth { s with sends := cancelUpdate s.sends workspaceId id } := by
  have hguard : ∀ {r}, cancelGuard workspaceId id r = true → r.state = .pending := by
    intro r hr
    unfold cancelGuard at hr
    simp only [Bool.and_eq_true, decide_eq_true_eq] at hr
    exact hr.2
  refine h.table rfl (fun _ => rfl) (fun r hr => ?_) fun w r hw => ?_
  · rcases mem_updateMany.mp hr with ⟨r₀, hr₀, hp, rfl⟩ | ⟨hr, -⟩
    · have hrow := h.rows r₀ hr₀
      rw [hguard hp] at hrow
      exact ⟨h.told r₀ hr₀, hrow⟩
    · exact ⟨h.told r hr, h.rows r hr⟩
  · refine (h.claimed w r hw).update fun r₀ hp _ hstate => ?_
    rw [hguard hp] at hstate
    cases hstate

/-- Scheduling adds a row whose message does not exist. -/
private theorem Truth.schedule {s : State} (h : Truth s) {row : ScheduledSend}
    (hstate : row.state = .pending) (hkey : hasKey s.compose.db row.key = false) :
    Truth { s with sends := s.sends ++ [row] } := by
  refine h.table rfl (fun _ => rfl) (fun r hr => ?_) fun w r hw => ?_
  · rcases List.mem_append.mp hr with hr | hr
    · exact ⟨h.told r hr, h.rows r hr⟩
    · obtain rfl := List.mem_singleton.mp hr
      refine ⟨fun m hm hmkey => ?_, ?_⟩
      · -- No message carries a fresh row's key.
        unfold hasKey at hkey
        rw [List.any_eq_false] at hkey
        exact absurd (decide_eq_true hmkey) (hkey m hm)
      · rw [hstate]
        exact hkey
  · obtain ⟨r₀, hr₀, hrest⟩ := h.claimed w r hw
    exact ⟨r₀, List.mem_append_left _ hr₀, hrest⟩

/-! ### Steps of the composes -/

section Frame

variable {c c' : Compose.State Caller} {t : Triple} (h : SameKey c c' t)
include h

private theorem statusTold_frame {status : EmailMessageStatus} (ht : StatusTold c.log t status) :
    StatusTold c'.log t status := by
  unfold StatusTold
  rw [h.accepted]
  exact ht

private theorem settled_frame (ht : Settled c t) : Settled c' t := by
  intro m hm hkey
  obtain ⟨m₀, hm₀, hkey₀, hstatus⟩ := h.status m hm hkey
  rw [hstatus]
  exact statusTold_frame h (ht m₀ hm₀ hkey₀)

private theorem rowTold_frame {state : ScheduledSendState} (ht : RowTold c t state) :
    RowTold c' t state := by
  cases state with
  | pending => exact h.hasKey.trans ht
  | cancelled => exact h.hasKey.trans ht
  | claimed => trivial
  | sent => exact h.accepted.mpr ht
  | failed => exact fun hacc => ht (h.accepted.mp hacc)

private theorem callTold_frame {call : Call} (ht : CallTold c t call) : CallTold c' t call := by
  cases call with
  | idle => exact settled_frame h ht
  | planned r plan =>
    cases plan with
    | done view => exact statusTold_frame h ht
    | stage msg item => exact ht
    | send msg plan => exact h.hasKey.trans ht
  | queued r plan => trivial
  | handed r plan result => trivial
  | returned view => exact statusTold_frame h ht
  | failed e => exact fun hacc => ht (h.accepted.mp hacc)
  | crashed => exact fun hacc => ht (h.accepted.mp hacc)

end Frame

private theorem not_accepted_of_free {c : Compose.State Caller} (h : RowInv c) {t : Triple}
    (hkey : hasKey c.db t = false) : ¬Accepted c.log t :=
  not_accepted_of_no_row h.logged hkey

private theorem hasKey_of_findByTriple {db : Db} {t : Triple}
    (h : findByTriple db.messages t = none) : hasKey db t = false := by
  unfold hasKey
  rw [List.any_eq_false]
  intro m hm
  exact List.find?_eq_none.mp h m hm

section Runs

variable [CaseMapping]

/-- **The reads of a worker's compose.** From a settled key, under a trusted source
that is no agent's, it replays what the engine said, or plans a first send, or
fails before anything was sent. -/
private theorem callTold_planned {env : Env} {c : Compose.State Caller}
    {row : ScheduledSend} {payload : ScheduledSendPayload} (f : Bool) (ids : NewIds)
    (h : RowInv c) (hsettled : Settled c row.key)
    (hagent : resolveAgent c.db.settings row.workspaceId (composeInput row payload) = none)
    (htrusted : env.trustedComposeSources.contains schedulerSource = true) :
    CallTold c row.key (planned env c.db (requestOf row payload) f ids) := by
  unfold planned
  split
  · rename_i plan hplan
    cases plan with
    | done view =>
      obtain ⟨m, hm, rfl⟩ := composePlan_done hplan
      have hmem := List.mem_of_find?_eq_some hm
      have hfound := List.find?_some hm
      have hmkey : m.triple? = some row.key := of_decide_eq_true hfound
      exact hsettled m hmem hmkey
    | stage msg item =>
      exact absurd hplan (composePlan_ne_stage hagent rfl htrusted)
    | send msg plan =>
      exact hasKey_of_findByTriple
        (findByTriple_of_composePlan hplan fun view hv => by cases hv)
  · rename_i e herror
    exact not_accepted_of_free h (hasKey_of_findByTriple
      (findByTriple_of_composePlan herror fun view hv => by cases hv))

/-- **The work of a worker's compose.** Its commit, its engine call and its stamp
keep what it has learnt true. -/
private theorem callTold_about {env : Env} {c c' : Compose.State Caller}
    {l : Compose.Label Caller} {t : Triple} {d : Caller} (h : RowInv c)
    (hs : (Compose.system env).step c l = some c') (hl : l.about = some d)
    (hkey : (c.calls d).activeKey = some t) (htold : CallTold c t (c.calls d)) :
    CallTold c' t (c'.calls d) := by
  rcases step_eq_some hs with ⟨e, r, f, ids, rfl, hc, rfl⟩ | ⟨e, r, plan, rfl, hc, rfl⟩ |
    ⟨e, r, plan, resolved, result, rfl, hc, rfl⟩ | ⟨e, r, plan, result, rfl, hc, rfl⟩ |
    ⟨e, rfl, rfl⟩ | ⟨settings, rfl, rfl⟩
  · cases hl
  · obtain rfl := Option.some.inj hl
    rw [hc] at hkey htold
    change CallTold _ t (Function.update c.calls e _ e)
    rw [Function.update_self]
    rcases commit_cases c.db r plan with ⟨err, hcommit⟩ | ⟨view, rfl, hcommit⟩ |
      ⟨msg, item, db, rfl, hins, hcommit⟩ | ⟨msg, sendPlan, db, rfl, hins, hcommit⟩ <;>
      rw [hcommit]
    · cases plan with
      | done view => cases hcommit
      | stage msg item => exact absurd htold id
      | send msg sendPlan => exact not_accepted_of_free h htold
    · exact htold
    · exact absurd htold id
    · trivial
  · obtain rfl := Option.some.inj hl
    change CallTold _ t (Function.update c.calls e _ e)
    rw [Function.update_self]
    trivial
  · obtain rfl := Option.some.inj hl
    rw [hc] at hkey
    obtain rfl := Option.some.inj hkey
    change CallTold _ r.triple (Function.update c.calls e _ e)
    rw [Function.update_self]
    have hsending : (c.calls e).sending = some (r, plan) := by rw [hc]; rfl
    unfold stamped
    split
    · rename_i m hm
      -- The row found by the plan's id is the one just stamped.
      obtain ⟨m₀, -, hid, -, hstatus⟩ := mem_stampSendResult (List.mem_of_find?_eq_some hm)
      have hmid : m.id = plan.messageId := by simpa using List.find?_some hm
      rcases hstatus with ⟨-, hstatus⟩ | ⟨hne, -⟩
      · exact statusTold_of_stamp h.ledger hc hstatus
      · exact absurd (hid.symm.trans hmid) hne
    · rename_i hnone
      obtain ⟨m, hm, hmid⟩ := h.ledger.exists_row e r plan hsending
      have hfound := List.find?_eq_none.mp hnone _ (List.mem_map.mpr ⟨m, hm, rfl⟩)
      rw [if_pos hmid] at hfound
      exact absurd (decide_eq_true hmid) hfound
  · cases hl
  · cases hl

/-- **Frame rule for composes.** A compose moves on; the rows and the workers stay.
What is asked is that a compose begun works under the key of its worker's row,
and that the worker whose own compose begins or dies knows what it should. -/
private theorem Truth.composed {env : Env} {s : State} (h : Truth s) (hinv : Inv s)
    (hrow : RowInv s.compose) (hplan : PlanInv s.compose) {l : Compose.Label Caller}
    {c : Compose.State Caller} (hs : (Compose.system env).step s.compose l = some c)
    (hstart : ∀ d r f ids, l = .start d r f ids → isScheduledKey r.triple = true →
      ∃ w n now row payload queue, d = .worker w n ∧
        s.workOf w = .composing now row payload n queue ∧ row.key = r.triple)
    (hself : ∀ w now row payload n queue, s.workOf w = .composing now row payload n queue →
      ((∃ r f ids, l = .start (.worker w n) r f ids) ∨ l = .crash (.worker w n)) →
        CallTold c row.key (c.calls (.worker w n))) :
    Truth { s with compose := c } := by
  have hsame : ∀ w row, (s.workOf w).owned = some row →
      (∀ now row' payload n queue, s.workOf w = .composing now row' payload n queue →
        l.about ≠ some (.worker w n)) → SameKey s.compose c row.key := by
    intro w row hw hquiet
    refine sameKey_of_step hrow hplan hs fun d hd hactive => ?_
    obtain ⟨n, now, row', payload, queue, rfl, hcomposing⟩ := h.active_of_owned hw hactive
    exact hquiet now row' payload n queue hcomposing hd
  refine
    { sole := h.sole
      claimed := h.claimed
      working := fun d t ht hkey => ?_
      told := fun row hrow' => ?_
      rows := fun row hrow' => ?_
      work := fun w => ?_ }
  · rcases activeKey_step hs d ht with hold | ⟨r, f, ids, hl, rfl⟩
    · exact h.working d t hold hkey
    · exact hstart d r f ids hl hkey
  · -- A worker never stages under its row's key.
    refine (h.told row hrow').step hrow hplan (fun d r msg item hl hd hkey => ?_) hs
    have hactive : (s.compose.calls d).activeKey = some row.key := by
      rw [hd, ← hkey]
      rfl
    obtain ⟨w, n, now, row', payload, queue, rfl, hw, -⟩ :=
      h.working d row.key hactive (isScheduledKey_key row)
    have htold := h.work w
    rw [hw] at htold
    change CallTold s.compose row'.key (s.compose.calls (.worker w n)) at htold
    rw [hd] at htold
    exact htold
  · -- A key somebody works on is that of a claimed row, which says nothing.
    by_cases hactive : ∃ d, l.about = some d ∧ (s.compose.calls d).activeKey = some row.key
    · obtain ⟨d, -, hd⟩ := hactive
      rw [h.state_of_active hinv.nodup hrow' hd]
      trivial
    · have hframe : SameKey s.compose c row.key :=
        sameKey_of_step hrow hplan hs fun d hd hd' => hactive ⟨d, hd, hd'⟩
      exact rowTold_frame hframe (h.rows row hrow')
  · have htold := h.work w
    change WorkTold c w (s.workOf w)
    cases hw : s.workOf w with
    | resting => trivial
    | sweeping now queue => trivial
    | claimed now row queue =>
      rw [hw] at htold
      have hframe := hsame w row (by rw [hw]; rfl) fun _ _ _ _ _ hcomposing => by
        rw [hw] at hcomposing
        cases hcomposing
      exact settled_frame hframe htold
    | marking now row target sentAt caught queue =>
      rw [hw] at htold
      have hframe := hsame w row (by rw [hw]; rfl) fun _ _ _ _ _ hcomposing => by
        rw [hw] at hcomposing
        cases hcomposing
      exact ⟨htold.1, rowTold_frame hframe htold.2⟩
    | composing now row payload n queue =>
      rw [hw] at htold
      change CallTold s.compose row.key (s.compose.calls (.worker w n)) at htold
      change CallTold c row.key (c.calls (.worker w n))
      by_cases hown : (∃ r f ids, l = .start (.worker w n) r f ids) ∨ l = .crash (.worker w n)
      · exact hself w now row payload n queue hw hown
      · by_cases habout : l.about = some (.worker w n)
        · obtain ⟨t, hkey⟩ := exists_activeKey_of_about hs habout
          -- What a worker's compose works under is the key of its row.
          obtain rfl : row.key = t := by
            cases hsched : isScheduledKey t with
            | true =>
              obtain ⟨w', n', now', row', payload', queue', hcaller, hw', hkey'⟩ :=
                h.working _ t hkey hsched
              cases hcaller
              rw [hw] at hw'
              cases hw'
              exact hkey'
            | false =>
              obtain ⟨r, hr, hrkey, -⟩ := hinv.active w n t hkey
              rw [← hrkey, isScheduledKey_key] at hsched
              cases hsched
          exact callTold_about hrow hs habout hkey htold
        · -- The step is not about this compose, which waits for its turn.
          have hframe := hsame w row (by rw [hw]; rfl) fun _ _ _ _ _ hcomposing => by
            rw [hw] at hcomposing
            cases hcomposing
            exact habout
          have hcall := calls_of_ne hs habout
            (fun r f ids hl => hown (.inl ⟨r, f, ids, hl⟩)) (fun hl => hown (.inr hl))
          rw [hcall]
          exact callTold_frame hframe htold

omit [CaseMapping] in
/-- A worker that dies in its compose takes the compose with it, and answers for
nothing any more. -/
private theorem Truth.crashComposing {s : State} (h : Truth s) {w now n : ℕ} {row : ScheduledSend}
    {payload : ScheduledSendPayload} {queue : List ScheduledSend}
    (hw : s.workOf w = .composing now row payload n queue) :
    Truth { s.setWork w .resting with compose := s.compose.setCall (.worker w n) .crashed } := by
  have hwork : ∀ v, ({ s.setWork w .resting with
      compose := s.compose.setCall (.worker w n) .crashed } : State).workOf v =
        if v = w then .resting else s.workOf v := by
    intro v
    by_cases hv : v = w
    · subst hv
      rw [if_pos rfl]
      exact workOf_setWork_self v .resting
    · rw [if_neg hv]
      exact workOf_setWork_of_ne hv .resting
  have howned : ∀ {v r}, (({ s.setWork w .resting with
      compose := s.compose.setCall (.worker w n) .crashed } : State).workOf v).owned = some r →
        v ≠ w ∧ (s.workOf v).owned = some r := by
    intro v r hv
    rw [hwork] at hv
    split at hv
    · cases hv
    · rename_i hne
      exact ⟨hne, hv⟩
  refine
    { sole := fun u v r r' hu hv hid => h.sole u v r r' (howned hu).2 (howned hv).2 hid
      claimed := fun v r hv => h.claimed v r (howned hv).2
      working := fun c t ht hkey => ?_
      told := h.told
      rows := h.rows
      work := fun v => ?_ }
  · change (Function.update s.compose.calls (.worker w n) .crashed c).activeKey = some t at ht
    by_cases hc : c = .worker w n
    · subst hc
      rw [Function.update_self] at ht
      cases ht
    · rw [Function.update_of_ne hc] at ht
      obtain ⟨v, m, now', row', payload', queue', rfl, hv, hrow⟩ := h.working c t ht hkey
      have hvw : v ≠ w := by
        rintro rfl
        rw [hw] at hv
        cases hv
        exact hc rfl
      refine ⟨v, m, now', row', payload', queue', rfl, ?_, hrow⟩
      rw [hwork, if_neg hvw]
      exact hv
  · -- The dead compose was that of this worker only.
    rw [hwork]
    by_cases hv : v = w
    · rw [if_pos hv]
      trivial
    · rw [if_neg hv]
      have htold := h.work v
      cases hvwork : s.workOf v with
      | composing now' row' payload' m queue' =>
        rw [hvwork] at htold
        have hcall : Function.update s.compose.calls (.worker w n) .crashed (.worker v m) =
            s.compose.calls (.worker v m) :=
          Function.update_of_ne (fun heq => hv (Caller.worker.inj heq).1) _ _
        change CallTold _ row'.key (Function.update s.compose.calls (.worker w n) .crashed
          (.worker v m))
        rw [hcall]
        exact callTold_frame ⟨Iff.rfl, rfl, fun m hm hkey => ⟨m, hm, hkey, rfl⟩⟩ htold
      | _ =>
        rw [hvwork] at htold
        exact htold

/-! ### Every careful step keeps the invariant -/

theorem Truth.initial {env : Env} {s : State} (h : (system env).init s) : Truth s := by
  obtain ⟨hcompose, hsends, hwork, -⟩ := h
  refine
    { sole := fun v w r r' hv => ?_
      claimed := fun w row hw => ?_
      working := fun c t ht => ?_
      told := fun row hrow => ?_
      rows := fun row hrow => ?_
      work := fun w => ?_ }
  · rw [hwork] at hv
    cases hv
  · rw [hwork] at hw
    cases hw
  · rw [hcompose.1] at ht
    cases ht
  · rw [hsends] at hrow
    cases hrow
  · rw [hsends] at hrow
    cases hrow
  · rw [hwork]
    trivial

omit [CaseMapping] in
private theorem Truth.leave {s : State} (h : Truth s) {w : ℕ} (work : Work)
    (hactive : NoneActive s w)
    (howned : ∀ row, work.owned = some row → (s.workOf w).owned = some row)
    (htold : WorkTold s.compose w work) : Truth (s.setWork w work) :=
  h.moveOn rfl rfl (workOf_setWork_self w work) (fun _ hv => workOf_setWork_of_ne hv work)
    hactive (fun row hrow => .inl (howned row hrow)) htold

omit [CaseMapping] in
/-- **A claim that took effect.** Nobody answered for the row, and what its message
says is so: a pending row has none, and of a retaken one the condition says it. -/
private theorem Truth.claimWon {s : State} (h : Truth s) (hinv : Inv s) {w now : ℕ}
    {row : ScheduledSend} {queue : List ScheduledSend}
    (hw : s.workOf w = .sweeping now (row :: queue))
    (hcount : s.sends.countP (claimGuard row) = 1)
    (hretake : row.state = .claimed →
      (∀ v r, (s.workOf v).owned = some r → r.id ≠ row.id) ∧
      ∀ m ∈ s.compose.db.messages, m.triple? = some row.key → m.status ≠ .queued) :
    Truth { s.setWork w (.claimed now row queue) with
      sends := EmailOps.claim s.sends row now } := by
  obtain ⟨r₀, hr₀, hguard⟩ := List.countP_pos_iff.mp (by rw [hcount]; exact Nat.one_pos)
  have hguard' := hguard
  unfold claimGuard at hguard'
  simp only [Bool.and_eq_true, decide_eq_true_eq] at hguard'
  obtain ⟨hid, hstate⟩ := hguard'
  obtain ⟨r₁, hr₁, hid₁, hws₁⟩ := hinv.known w row (by rw [hw]; exact List.mem_cons_self)
  obtain rfl := eq_of_id_eq hinv.nodup hr₁ hr₀ (hid₁.trans hid.symm)
  have hkey : r₁.key = row.key := key_eq hid₁ hws₁
  have hnobody : ∀ v r, (s.workOf v).owned = some r → r.id ≠ row.id := by
    by_cases hclaimed : row.state = .claimed
    · exact (hretake hclaimed).1
    · -- The row is pending, and rows somebody answers for are claimed.
      intro v r hv heq
      rw [if_neg hclaimed] at hstate
      obtain ⟨r₂, hr₂, hid₂, -, hstate₂⟩ := h.claimed v r hv
      obtain rfl := eq_of_id_eq hinv.nodup hr₂ hr₁ (by rw [hid₂, heq, hid₁])
      rw [of_decide_eq_true hstate] at hstate₂
      cases hstate₂
  have hsettled : Settled s.compose row.key := by
    -- A row that is taken again may not have a message queued; a pending one has no message.
    intro m hm hmkey
    by_cases hclaimed : row.state = .claimed
    · rcases h.told r₁ hr₁ m hm (by rw [hkey]; exact hmkey) with hqueued | htold
      · exact absurd hqueued ((hretake hclaimed).2 m hm hmkey)
      · rw [← hkey]
        exact htold
    · rw [if_neg hclaimed] at hstate
      have hrow := h.rows r₁ hr₁
      rw [of_decide_eq_true hstate, hkey] at hrow
      change hasKey s.compose.db row.key = false at hrow
      unfold hasKey at hrow
      rw [List.any_eq_false] at hrow
      exact absurd (decide_eq_true hmkey) (hrow m hm)
  have hclaimedIn : ClaimedIn (EmailOps.claim s.sends row now) row :=
    ⟨{ r₁ with state := .claimed, claimedAt := some now },
      mem_updateMany.mpr (.inl ⟨r₁, hr₁, hguard, rfl⟩), hid₁, hws₁, rfl⟩
  have hactive : NoneActive s w := h.noneActive fun _ _ _ _ _ hcomposing => by
    rw [hw] at hcomposing
    cases hcomposing
  refine (h.claim row now).moveOn rfl rfl (workOf_setWork_self w _)
    (fun v hv => workOf_setWork_of_ne hv _) hactive (fun r hr => ?_) hsettled
  obtain rfl := Option.some.inj hr
  exact .inr ⟨hnobody, hclaimedIn⟩

omit [CaseMapping] in
/-- **A mark.** The worker goes on, and then nobody answers for the row it marks. -/
private theorem Truth.marked {s : State} (h : Truth s) (hinv : Inv s) {w now : ℕ}
    {row : ScheduledSend} {target : ScheduledSendState} {sentAt : Option ℕ} {caught : Bool}
    {queue : List ScheduledSend} (hw : s.workOf w = .marking now row target sentAt caught queue) :
    Truth { s.setWork w (.sweeping now queue) with
      sends := markScheduledSend s.sends row.id target sentAt } := by
  have hactive : NoneActive s w := h.noneActive fun _ _ _ _ _ hcomposing => by
    rw [hw] at hcomposing
    cases hcomposing
  have hleft := h.leave (.sweeping now queue) hactive (fun row hrow => by cases hrow) trivial
  have hmine : (s.workOf w).owned = some row := by
    rw [hw]
    rfl
  have htold : RowTold s.compose row.key target := by
    have := h.work w
    rw [hw] at this
    exact this.2
  refine hleft.mark sentAt (fun v r hv heq => ?_) fun r hr hid => ?_
  · by_cases hvw : v = w
    · subst hvw
      rw [workOf_setWork_self] at hv
      cases hv
    · rw [workOf_setWork_of_ne hvw] at hv
      exact hvw (h.sole v w r row hv hmine heq)
  · -- The row that is marked is the one the worker answers for, under the same key.
    obtain ⟨r₁, hr₁, hid₁, hws₁, -⟩ := h.claimed w row hmine
    obtain rfl := eq_of_id_eq hinv.nodup hr₁ hr (hid₁.trans hid.symm)
    rw [key_eq hid₁ hws₁]
    exact htold

theorem Truth.step {env : Env} {s s' : State} {l : Label} (h : Truth s) (hinv : Inv s)
    (hfresh : Fresh s) (hrow : RowInv s.compose) (hplan : PlanInv s.compose)
    (hcare : Careful env s l) (hs : (system env).step s l = some s') : Truth s' := by
  -- What a worker at a given point knows about its row.
  have known : ∀ {w work}, s.workOf w = work → WorkTold s.compose w work := by
    rintro w _ rfl
    exact h.work w
  have idle : ∀ {w work}, s.workOf w = work →
      (∀ now row payload n queue, work ≠ .composing now row payload n queue) →
        NoneActive s w := by
    rintro w _ rfl hne
    exact h.noneActive fun now row payload n queue hw => absurd hw (hne _ _ _ _ _)
  -- A compose that has come to an end works for nobody, and its worker knows its outcome.
  have ended : ∀ {w now row payload n queue call},
      s.workOf w = .composing now row payload n queue → s.compose.calls (.worker w n) = call →
      call.activeKey = none → NoneActive s w ∧ CallTold s.compose row.key call := by
    rintro w now row payload n queue _ hw rfl hnone
    refine ⟨h.noneActive fun _ _ _ _ _ hw' => ?_, known hw⟩
    rw [hw] at hw'
    cases hw'
    exact hnone
  cases step_sound hs with
  | schedule row hrow' hfresh' hkey => exact h.schedule (scheduleSend_some hrow').2.2 hkey
  | cancelRefused hk =>
    exact h.table rfl (fun _ => rfl) (fun r hr => ⟨h.told r hr, h.rows r hr⟩) h.claimed
  | cancelChecked hk =>
    exact h.table rfl (fun _ => rfl) (fun r hr => ⟨h.told r hr, h.rows r hr⟩) h.claimed
  | @cancelWrite k workspaceId id hk =>
    have hcancelled := h.cancel workspaceId id
    exact hcancelled.table rfl (fun _ => rfl)
      (fun r hr => ⟨hcancelled.told r hr, hcancelled.rows r hr⟩) hcancelled.claimed
  | sweep hw =>
    exact h.leave _ (idle hw fun _ _ _ _ _ hc => by cases hc) (fun row hr => by cases hr) trivial
  | sweepEnd hw =>
    exact h.leave _ (idle hw fun _ _ _ _ _ hc => by cases hc) (fun row hr => by cases hr) trivial
  | @claimWon w now row queue hw hcount => exact h.claimWon hinv hw hcount (hcare now row queue hw)
  | @claimLost w now row queue hw hcount =>
    exact (h.claim row now).leave (.sweeping now queue)
      (idle hw fun _ _ _ _ _ hc => by cases hc) (fun row hr => by cases hr) trivial
  | @prepareFailed w configured now row queue hw hfails =>
    refine h.leave _ (idle hw fun _ _ _ _ _ hc => by cases hc) (fun r hr => ?_) ⟨.inr rfl, ?_⟩
    · rw [hw]
      exact hr
    · exact hcare now row queue hw hfails
  | @prepared w configured now row queue hw payload =>
    refine h.moveOn rfl rfl (workOf_beginCompose_self w _)
      (fun v hv => workOf_beginCompose_of_ne hv _) (idle hw fun _ _ _ _ _ hc => by cases hc)
      (fun r hr => .inl ?_) ?_
    · rw [hw]
      exact hr
    · -- The compose about to begin is idle, and the row is settled.
      change CallTold s.compose row.key (s.compose.calls (.worker w (s.workers w).begun))
      rw [hfresh.idle w _ (Nat.le_refl _)]
      exact known hw
  | @composeStart w n r f ids now row payload queue c hw hc =>
    obtain ⟨hagent, htrusted⟩ := hcare now row payload n queue hw
    refine h.composed hinv hrow hplan hc (fun d r' f' ids' hl _ => ?_) ?_
    · -- The compose that begins is that of the worker's row.
      cases hl
      exact ⟨w, n, now, row, payload, queue, rfl, hw, rfl⟩
    · rintro w' now' row' payload' n' queue' hw' (⟨r', f', ids', hl⟩ | hl)
      · cases hl
        rw [hw] at hw'
        cases hw'
        have htold := known hw
        -- It has read from a key that was settled when its row was claimed.
        rcases step_eq_some hc with ⟨e, r₁, f₁, ids₁, hl, hidle, rfl⟩ | ⟨e, r₁, p₁, hl, -⟩ |
          ⟨e, r₁, p₁, a₁, b₁, hl, -⟩ | ⟨e, r₁, p₁, b₁, hl, -⟩ | ⟨e, hl, -⟩ | ⟨t₁, hl, -⟩ <;>
          cases hl
        change CallTold s.compose row.key (s.compose.calls (.worker w n)) at htold
        rw [hidle] at htold
        change CallTold _ row.key (Function.update s.compose.calls (.worker w n) _ (.worker w n))
        rw [Function.update_self]
        have hplanned := callTold_planned f ids hrow htold hagent htrusted
        exact callTold_frame ⟨Iff.rfl, rfl, fun m hm hkey => ⟨m, hm, hkey, rfl⟩⟩ hplanned
      · cases hl
  | @composeAbort w n now row payload queue c hw hc =>
    refine h.composed hinv hrow hplan hc (fun d r' f' ids' hl => by cases hl) ?_
    rintro w' now' row' payload' n' queue' hw' (⟨r', f', ids', hl⟩ | hl)
    · cases hl
    · cases hl
      rw [hw] at hw'
      cases hw'
      cases hc
      change CallTold _ row.key (Function.update s.compose.calls (.worker w n) .crashed (.worker w n))
      rw [Function.update_self]
      exact hcare now row payload n queue hw
  | @compose l c hstart hcrash hc =>
    refine h.composed hinv hrow hplan hc (fun d r f ids hl hkey => ?_) ?_
    · -- Nobody else begins a compose under the key of a row.
      subst hl
      cases d with
      | worker w n => exact absurd rfl (hstart w n r f ids)
      | other k =>
        have hother : isScheduledKey r.triple = false := hcare
        rw [hother] at hkey
        cases hkey
    · rintro w now row payload n queue hw (⟨r, f, ids, hl⟩ | hl)
      · exact absurd hl (hstart w n r f ids)
      · exact absurd hl (hcrash w n)
  | @finishFailed w sentAt now row payload n queue view hw hcall hview =>
    obtain ⟨hactive, htold⟩ := ended hw hcall rfl
    refine h.leave _ hactive (fun r hr => ?_) ⟨.inr rfl, ?_⟩
    · rw [hw]
      exact hr
    · -- The worker reads that its compose was not sent, and that is true.
      rcases htold with ⟨hsent, -⟩ | ⟨-, hnot⟩
      · rw [hsent] at hview
        cases hview
      · exact hnot
  | @finishSent w sentAt now row payload n queue view hw hcall hview =>
    obtain ⟨hactive, htold⟩ := ended hw hcall rfl
    refine h.leave _ hactive (fun r hr => ?_) ⟨.inl rfl, ?_⟩
    · rw [hw]
      exact hr
    · rcases htold with ⟨-, hacc⟩ | ⟨hfailed, -⟩
      · exact hacc
      · exact absurd hfailed hview
  | @finishThrown w sentAt now row payload n queue hw hcall =>
    -- It threw or it died: either way nothing was accepted under the key.
    obtain ⟨hactive, hnot⟩ : NoneActive s w ∧ ¬Accepted s.compose.log row.key := by
      obtain ⟨e, hcall⟩ | hcall := hcall
      · exact ended hw hcall rfl
      · exact ended hw hcall rfl
    refine h.leave _ hactive (fun r hr => ?_) ⟨.inr rfl, hnot⟩
    rw [hw]
    exact hr
  | mark hw => exact h.marked hinv hw
  | throwClaim hw => exact absurd hw (hcare.1 _ _ _)
  | @throwHeld w now row queue hw =>
    have hmine : (s.workOf w).owned = some row := by rw [hw]; rfl
    refine h.leave _ (idle hw fun _ _ _ _ _ hc => by cases hc) (fun r hr => ?_) ⟨.inr rfl, ?_⟩
    · rw [hw]
      exact hr
    · exact hcare.2 row hmine
  | @throwMark w now row target sentAt queue hw =>
    have hmine : (s.workOf w).owned = some row := by rw [hw]; rfl
    refine h.leave _ (idle hw fun _ _ _ _ _ hc => by cases hc) (fun r hr => ?_) ⟨.inr rfl, ?_⟩
    · rw [hw]
      exact hr
    · exact hcare.2 row hmine
  | throwCaught hw =>
    exact h.leave _ (idle hw fun _ _ _ _ _ hc => by cases hc) (fun row hr => by cases hr) trivial
  | crashComposing hw => exact h.crashComposing hw
  | @crash w hw =>
    exact h.leave _ (h.noneActive fun _ _ _ _ _ hc => absurd hc (hw _ _ _ _ _))
      (fun row hr => by cases hr) trivial

theorem truth_of_reachable {env : Env} {s : State}
    (h : (system env).ReachableUnder (Careful env) s) : Truth s := by
  refine System.ReachableUnder.invariant (P := Truth) (fun _ h0 => Truth.initial h0) ?_ h
  intro s l s' hr ht hcare hs
  have hreach := hr.reachable
  have hcompose := (toCompose env).reachable hreach
  exact ht.step (inv_of_reachable hreach) (fresh_of_reachable hreach)
    (rowInv_of_reachable hcompose) (planInv_of_reachable hcompose) hcare hs

/-! ### The result -/

/-- What a row's final state promises: `SENT` that the engine accepted its message,
`FAILED` and `CANCELLED` that it did not. -/
def Promise (s : State) (row : ScheduledSend) : Prop :=
  (row.state = .sent → Accepted s.compose.log row.key) ∧
    (row.state = .failed ∨ row.state = .cancelled → ¬Accepted s.compose.log row.key)

/-- **Final states are true** in every run whose steps are all careful. -/
theorem final_states_are_true (env : Env) {s : State}
    (h : (system env).ReachableUnder (Careful env) s) : ∀ row ∈ s.sends, Promise s row := by
  intro row hrow
  have htold := (truth_of_reachable h).rows row hrow
  have hlogged := (rowInv_of_reachable ((toCompose env).reachable h.reachable)).logged
  refine ⟨fun hstate => ?_, fun hstate => ?_⟩
  · rw [hstate] at htold
    exact htold
  · rcases hstate with hstate | hstate
    · rw [hstate] at htold
      exact htold
    · rw [hstate] at htold
      exact not_accepted_of_no_row hlogged htold

end Runs

/-! ### A careful run, and one that is not -/

/-- A worker claims the row, composes it and marks it: the run is careful, and the
row says `SENT` of an accepted message. -/
theorem final_states_are_true_run :
    ∃ s : State, s.sends.map (·.state) = [.sent] ∧ ∀ row ∈ s.sends, Promise s row := by
  have r := (System.ReachableUnder.init sampleStart_init :
    (system sampleEnv).ReachableUnder (Careful sampleEnv) sampleStart)
  have r := r.next (.schedule true none "ws" "mb" samplePayload 10 "a") trivial rfl
  have r := r.next (.sweep 0 30 50) trivial rfl
  have r := r.next (.claim 0) (fun now row queue hw hclaimed => by
    injection hw with hnow hqueue
    injection hqueue with hrow hnil
    rw [← hrow] at hclaimed
    cases hclaimed) rfl
  have r := r.next (.prepare 0 true) (fun now row queue hw hfails => by
    injection hw with hnow hrow hqueue
    rw [← hrow] at hfails
    cases hfails) rfl
  have r := r.next (.compose (.start (.worker 0 0) ⟨"ws", none, sampleInput⟩ false ⟨"m", "i"⟩))
    (fun now row payload n queue hw => by
      injection hw with hnow hrow hpayload hn hqueue
      exact ⟨rfl, rfl⟩) rfl
  have r := r.next (.compose (.commit (.worker 0 0))) trivial rfl
  have r := r.next (.compose (.callEngine (.worker 0 0) none ⟨true, some "p", none, none, none⟩))
    trivial rfl
  have r := r.next (.compose (.stamp (.worker 0 0))) trivial rfl
  have r := r.next (.finish 0 31) trivial rfl
  have r := r.next (.mark 0) trivial rfl
  exact ⟨_, rfl, final_states_are_true sampleEnv r⟩

/-- **The code's sweeps do not keep the promise.** A worker commits its message's
`QUEUED` row and dies before it calls the engine. Five minutes later the claim is
stale, the next worker's compose replays the `QUEUED` row, and the row is marked
`SENT`; the engine was never called. -/
theorem sent_without_acceptance :
    ¬∀ (env : Env) (s : State), (system env).Reachable s → ∀ row ∈ s.sends, Promise s row := by
  intro hclaim
  let run : List Label :=
    [.schedule true none "ws" "mb" samplePayload 10 "a", .sweep 0 30 50, .claim 0, .prepare 0 true,
      .compose (.start (.worker 0 0) ⟨"ws", none, sampleInput⟩ false ⟨"m", "i"⟩),
      .compose (.commit (.worker 0 0)), .crash 0,
      .sweep 1 300030 50, .claim 1, .prepare 1 true,
      .compose (.start (.worker 1 0) ⟨"ws", none, sampleInput⟩ false ⟨"m'", "i'"⟩),
      .compose (.commit (.worker 1 0)), .finish 1 300031, .mark 1]
  have hrun : ((system sampleEnv).exec sampleStart run).isSome = true := rfl
  obtain ⟨s, hreach, hsends, hlog⟩ : ∃ s, (system sampleEnv).Reachable s ∧
      s.sends.map (·.state) = [.sent] ∧ s.compose.log = [] :=
    ⟨_, System.exec_reachable sampleStart_init (Option.some_get hrun).symm, rfl, rfl⟩
  obtain ⟨row, hrow, hstate⟩ := List.mem_map.mp (hsends ▸ List.mem_singleton_self _)
  obtain ⟨e, he, -⟩ := (hclaim sampleEnv s hreach row hrow).1 hstate
  rw [hlog] at he
  cases he

end Scheduler
end EmailOps
