import EmailOps.Scheduling.Protocol

/-!
# Scheduled sends are handed over at most once, and never after a cancel

* `RowsEvolve` is what any statement on the table may do to a row: keep its id
  and workspace, never take back that its message has been worked on, never
  revive a cancelled row.
* `Inv` says whose message has been worked on: the rows that workers hold, that
  composes run for and that the engine was called for have all been claimed.
* `handed_at_most_once_and_never_after_cancel` combines it with the compose
  protocol's own at-most-once theorem.
-/

namespace EmailOps
namespace Scheduler

open Framework Compose

/-! ### What happens to a row -/

/-- Claimed at some time: the row has left `PENDING` other than by a cancel. -/
def wasClaimed (state : ScheduledSendState) : Prop :=
  state = .claimed ∨ state = .sent ∨ state = .failed

/-- **What a statement may do to the table.** Ids stay unique, and every row is
still there, in a state it can have moved to. -/
structure RowsEvolve (rows rows' : List ScheduledSend) : Prop where
  nodup : (rows.map (·.id)).Nodup → (rows'.map (·.id)).Nodup
  kept : ∀ r ∈ rows, ∃ r' ∈ rows', r'.id = r.id ∧ r'.workspaceId = r.workspaceId ∧
    (wasClaimed r.state → wasClaimed r'.state) ∧ (r.state = .cancelled → r'.state = .cancelled)

theorem RowsEvolve.refl (rows : List ScheduledSend) : RowsEvolve rows rows :=
  ⟨id, fun r hr => ⟨r, hr, rfl, rfl, id, id⟩⟩

/-- An update that respects the states it finds evolves the table. -/
private theorem RowsEvolve.update {rows : List ScheduledSend} {p : ScheduledSend → Bool}
    {f : ScheduledSend → ScheduledSend} (hid : ∀ r, (f r).id = r.id)
    (hws : ∀ r, (f r).workspaceId = r.workspaceId)
    (hbegun : ∀ r, p r = true → wasClaimed r.state → wasClaimed (f r).state)
    (hcancelled : ∀ r, p r = true → r.state = .cancelled → (f r).state = .cancelled) :
    RowsEvolve rows (updateMany rows p f) where
  nodup h := by rwa [updateMany_ids hid]
  kept r hr := by
    cases hp : p r with
    | true =>
      exact ⟨f r, mem_updateMany.mpr (.inl ⟨r, hr, hp, rfl⟩), hid r, hws r, hbegun r hp,
        hcancelled r hp⟩
    | false => exact ⟨r, mem_updateMany.mpr (.inr ⟨hr, hp⟩), rfl, rfl, id, id⟩

theorem RowsEvolve.claim (rows : List ScheduledSend) (row : ScheduledSend) (now : ℕ) :
    RowsEvolve rows (EmailOps.claim rows row now) := by
  refine RowsEvolve.update (fun _ => rfl) (fun _ => rfl) (fun _ _ _ => .inl rfl) fun r hp hr => ?_
  unfold claimGuard at hp
  rw [hr] at hp
  simp at hp

theorem RowsEvolve.mark (rows : List ScheduledSend) (id : String) {target : ScheduledSendState}
    (sentAt : Option ℕ) (htarget : wasClaimed target) :
    RowsEvolve rows (markScheduledSend rows id target sentAt) := by
  refine RowsEvolve.update (fun _ => rfl) (fun _ => rfl) (fun _ _ _ => htarget) fun r hp hr => ?_
  unfold markGuard at hp
  rw [hr] at hp
  simp at hp

theorem RowsEvolve.cancel (rows : List ScheduledSend) (workspaceId id : String) :
    RowsEvolve rows (cancelUpdate rows workspaceId id) := by
  refine RowsEvolve.update (fun _ => rfl) (fun _ => rfl) (fun r hp hr => ?_) fun _ _ _ => rfl
  unfold cancelGuard at hp
  rcases hr with hr | hr | hr <;> rw [hr] at hp <;> simp at hp

theorem RowsEvolve.schedule {rows : List ScheduledSend} {row : ScheduledSend}
    (hfresh : ∀ r ∈ rows, r.id ≠ row.id) : RowsEvolve rows (rows ++ [row]) where
  nodup h := Framework.Table.nodup_insert h hfresh
  kept r hr := ⟨r, List.mem_append_left _ hr, rfl, rfl, id, id⟩

/-! ### Which rows have been worked on -/

/-- The row under a key has been claimed. -/
def Begun (rows : List ScheduledSend) (t : Triple) : Prop :=
  ∃ r ∈ rows, r.key = t ∧ wasClaimed r.state

/-- The table has a row of the snapshot's id and workspace. -/
def Known (rows : List ScheduledSend) (row : ScheduledSend) : Prop :=
  ∃ r ∈ rows, r.id = row.id ∧ r.workspaceId = row.workspaceId

/-- The row of an id is cancelled. -/
def Cancelled (rows : List ScheduledSend) (id : String) : Prop :=
  ∃ r ∈ rows, r.id = id ∧ r.state = .cancelled

section Evolve

variable {rows rows' : List ScheduledSend} (h : RowsEvolve rows rows')
include h

theorem Begun.evolve {t : Triple} (hb : Begun rows t) : Begun rows' t := by
  obtain ⟨r, hr, rfl, hstate⟩ := hb
  obtain ⟨r', hr', hid, hws, hbegun, -⟩ := h.kept r hr
  refine ⟨r', hr', ?_, hbegun hstate⟩
  unfold ScheduledSend.key
  rw [hid, hws]

theorem Known.evolve {row : ScheduledSend} (hk : Known rows row) : Known rows' row := by
  obtain ⟨r, hr, hid, hws⟩ := hk
  obtain ⟨r', hr', hid', hws', -⟩ := h.kept r hr
  exact ⟨r', hr', hid'.trans hid, hws'.trans hws⟩

theorem Cancelled.evolve {id : String} (hc : Cancelled rows id) : Cancelled rows' id := by
  obtain ⟨r, hr, hid, hstate⟩ := hc
  obtain ⟨r', hr', hid', -, -, hcancelled⟩ := h.kept r hr
  exact ⟨r', hr', hid'.trans hid, hcancelled hstate⟩

end Evolve

/-- A claim that took effect begins the row of the snapshot. -/
theorem begun_of_claim {rows : List ScheduledSend} {row : ScheduledSend} {now : ℕ}
    (hnodup : (rows.map (·.id)).Nodup) (hknown : Known rows row)
    (hcount : rows.countP (claimGuard row) = 1) : Begun (EmailOps.claim rows row now) row.key := by
  obtain ⟨r, hr, hguard⟩ := List.countP_pos_iff.mp (by rw [hcount]; exact Nat.one_pos)
  obtain ⟨r', hr', hid, hws⟩ := hknown
  have hrid : r.id = row.id := by
    unfold claimGuard at hguard
    simp only [Bool.and_eq_true, decide_eq_true_eq] at hguard
    exact hguard.1
  have heq : r' = r := eq_of_id_eq hnodup hr' hr (hid.trans hrid.symm)
  subst heq
  refine ⟨{ r' with state := .claimed, claimedAt := some now },
    mem_updateMany.mpr (.inl ⟨r', hr, hguard, rfl⟩), ?_, .inl rfl⟩
  unfold ScheduledSend.key
  rw [hid, hws]

/-- A cancel that took effect leaves the row cancelled. -/
theorem cancelled_of_cancel {rows : List ScheduledSend} {workspaceId id : String}
    (hcount : rows.countP (cancelGuard workspaceId id) = 1) :
    Cancelled (cancelUpdate rows workspaceId id) id := by
  obtain ⟨r, hr, hguard⟩ := List.countP_pos_iff.mp (by rw [hcount]; exact Nat.one_pos)
  have hrid : r.id = id := by
    unfold cancelGuard at hguard
    simp only [Bool.and_eq_true, decide_eq_true_eq] at hguard
    exact hguard.1.1
  exact ⟨{ r with state := .cancelled }, mem_updateMany.mpr (.inl ⟨r, hr, hguard, rfl⟩), hrid, rfl⟩

/-! ### The invariant -/

/-- The rows a worker has read and not finished. -/
def Work.rows : Work → List ScheduledSend
  | .resting => []
  | .sweeping _ queue => queue
  | .claimed _ row queue | .composing _ row _ _ queue | .marking _ row _ _ _ queue => row :: queue

/-- The row a worker has claimed and works on. -/
def Work.held : Work → Option ScheduledSend
  | .claimed _ row _ | .composing _ row _ _ _ => some row
  | _ => none

/-- **The invariant.** -/
structure Inv (s : State) : Prop where
  /-- Ids are unique. -/
  nodup : (s.sends.map (·.id)).Nodup
  /-- Workers hold rows of the table. -/
  known : ∀ w, ∀ row ∈ (s.workOf w).rows, Known s.sends row
  /-- A row a worker works on has been claimed. -/
  held : ∀ w row, (s.workOf w).held = some row → Begun s.sends row.key
  /-- A mark is to a final state of a claimed row. -/
  target : ∀ w now row target sentAt caught queue,
    s.workOf w = .marking now row target sentAt caught queue → wasClaimed target
  /-- A worker's compose runs for a claimed row. -/
  active : ∀ w n t, (s.compose.calls (.worker w n)).activeKey = some t → Begun s.sends t
  /-- A worker's engine call was for a claimed row. -/
  logged : ∀ h ∈ s.compose.log, ∀ w n, h.caller = .worker w n → Begun s.sends h.triple
  /-- A cancel that returned true left its row cancelled. -/
  cancelled : ∀ k workspaceId id, s.cancels k = .returned workspaceId id true →
    Cancelled s.sends id

/-- What is asked of what a worker moves on to. -/
structure WorkOk (rows : List ScheduledSend) (work : Work) : Prop where
  known : ∀ row ∈ work.rows, Known rows row
  held : ∀ row, work.held = some row → Begun rows row.key
  target : ∀ now row target sentAt caught queue,
    work = .marking now row target sentAt caught queue → wasClaimed target

/-- **Frame rule for workers.** The table evolves and one worker moves on; composes
and cancels stay. -/
private theorem Inv.work {s s' : State} (h : Inv s) {w : ℕ} {work : Work}
    (hrows : RowsEvolve s.sends s'.sends) (hcompose : s'.compose = s.compose)
    (hcancels : s'.cancels = s.cancels) (hself : s'.workOf w = work)
    (hother : ∀ v, v ≠ w → s'.workOf v = s.workOf v) (hok : WorkOk s'.sends work) : Inv s' where
  nodup := hrows.nodup h.nodup
  -- Only the worker `w` moves on; the rows of the others are as good as before.
  known v row hrow := by
    by_cases hv : v = w
    · subst hv
      rw [hself] at hrow
      exact hok.known row hrow
    · rw [hother v hv] at hrow
      exact (h.known v row hrow).evolve hrows
  held v row hrow := by
    by_cases hv : v = w
    · subst hv
      rw [hself] at hrow
      exact hok.held row hrow
    · rw [hother v hv] at hrow
      exact (h.held v row hrow).evolve hrows
  target v now row target sentAt caught queue hwork := by
    by_cases hv : v = w
    · subst hv
      rw [hself] at hwork
      exact hok.target _ _ _ _ _ _ hwork
    · rw [hother v hv] at hwork
      exact h.target _ _ _ _ _ _ _ hwork
  -- No compose is touched, nor any answer of the engine.
  active v n t ht := by
    rw [hcompose] at ht
    exact (h.active v n t ht).evolve hrows
  logged e he v n hcaller := by
    rw [hcompose] at he
    exact (h.logged e he v n hcaller).evolve hrows
  cancelled k ws id hk := by
    rw [hcancels] at hk
    exact (h.cancelled k ws id hk).evolve hrows

/-- A worker whose rows are rows of the table and that holds none is fine. -/
private theorem WorkOk.of_rows {rows : List ScheduledSend} {work : Work}
    (hknown : ∀ row ∈ work.rows, Known rows row) (hheld : work.held = none)
    (htarget : ∀ now row target sentAt caught queue,
      work = .marking now row target sentAt caught queue → wasClaimed target) :
    WorkOk rows work where
  known := hknown
  held row hrow := by
    rw [hheld] at hrow
    cases hrow
  target := htarget

/-- **Frame rule for composes.** Composes move on; everything else stays. -/
private theorem Inv.composed {s : State} (h : Inv s) {c : Compose.State Caller}
    (hactive : ∀ w n t, (c.calls (.worker w n)).activeKey = some t → Begun s.sends t)
    (hlog : ∀ e ∈ c.log, ∀ w n, e.caller = .worker w n → Begun s.sends e.triple) :
    Inv { s with compose := c } where
  nodup := h.nodup
  known := h.known
  held := h.held
  target := h.target
  active := hactive
  logged := hlog
  cancelled := h.cancelled

/-! ### Every step keeps the invariant -/

/-- A compose step keeps the invariant, when a worker's compose is begun for the
row the worker holds. -/
private theorem Inv.composeStep [CaseMapping] {env : Env} {s : State} (h : Inv s) {l : Compose.Label Caller}
    {c : Compose.State Caller} (hs : (Compose.system env).step s.compose l = some c)
    (hstart : ∀ w n r f ids, l = .start (.worker w n) r f ids → Begun s.sends r.triple) :
    Inv { s with compose := c } := by
  refine h.composed (fun w n t ht => ?_) (fun e he w n hcaller => ?_)
  · rcases activeKey_step hs (.worker w n) ht with hold | ⟨r, f, ids, hl, rfl⟩
    · exact h.active w n t hold
    · exact hstart w n r f ids hl
  · rcases log_step hs he with hold | ⟨r, plan, resolved, result, hc, hhand, -⟩
    · exact h.logged e hold w n hcaller
    · rw [hcaller] at hc
      have hkey : e.triple = r.triple := by
        rw [hhand]
        rfl
      rw [hkey]
      exact h.active w n _ (by rw [hc]; rfl)

theorem Inv.initial [CaseMapping] {env : Env} {s : State} (h : (system env).init s) : Inv s := by
  obtain ⟨hcompose, hsends, hwork, hcancels⟩ := h
  refine ⟨?_, fun w row hrow => ?_, fun w row hrow => ?_, fun w _ _ _ _ _ _ hw => ?_,
    fun w n t ht => ?_, fun e he => ?_, fun k ws id hk => ?_⟩
  · rw [hsends]
    exact List.nodup_nil
  · rw [hwork] at hrow
    cases hrow
  · rw [hwork] at hrow
    cases hrow
  · rw [hwork] at hw
    cases hw
  · rw [hcompose.1] at ht
    cases ht
  · rw [hcompose.2] at he
    cases he
  · rw [hcancels] at hk
    cases hk

private theorem Inv.setWork {s : State} (h : Inv s) {w : ℕ} {work : Work}
    (hok : WorkOk s.sends work) : Inv (s.setWork w work) :=
  h.work (RowsEvolve.refl _) rfl rfl (workOf_setWork_self w work)
    (fun _ hv => workOf_setWork_of_ne hv work) hok

private theorem Inv.leaveRow {s : State} (h : Inv s) {w : ℕ} {work : Work}
    (hrows : ∀ row ∈ work.rows, row ∈ (s.workOf w).rows) (hheld : work.held = none)
    (htarget : ∀ now row target sentAt caught queue,
      work = .marking now row target sentAt caught queue → wasClaimed target) :
    Inv (s.setWork w work) :=
  h.setWork (WorkOk.of_rows (fun row hrow => h.known w row (hrows row hrow)) hheld htarget)

/-- A cancel that moves on, with the table, keeps the invariant when what it
returns is so. -/
private theorem Inv.setCancel {s s' : State} (h : Inv s) {k : ℕ} {call : CancelCall}
    (hrows : RowsEvolve s.sends s'.sends) (hcompose : s'.compose = s.compose)
    (hworkers : s'.workers = s.workers) (hcancels : s'.cancels = Function.update s.cancels k call)
    (hcall : ∀ ws id, call = .returned ws id true → Cancelled s'.sends id) : Inv s' := by
  have hwork : ∀ w, s'.workOf w = s.workOf w := fun w => by
    unfold State.workOf
    rw [hworkers]
  refine ⟨hrows.nodup h.nodup, fun w row hrow => ?_, fun w row hrow => ?_,
    fun w _ _ _ _ _ _ hw => ?_, fun w n t ht => ?_, fun e he w n hcaller => ?_,
    fun j ws id hj => ?_⟩
  · rw [hwork] at hrow
    exact (h.known w row hrow).evolve hrows
  · rw [hwork] at hrow
    exact (h.held w row hrow).evolve hrows
  · rw [hwork] at hw
    exact h.target _ _ _ _ _ _ _ hw
  · rw [hcompose] at ht
    exact (h.active w n t ht).evolve hrows
  · rw [hcompose] at he
    exact (h.logged e he w n hcaller).evolve hrows
  · -- The call that answers now says what the table says.
    rw [hcancels] at hj
    rcases update_eq_cases hj with ⟨rfl, hmoved⟩ | ⟨-, hj⟩
    · exact hcall ws id hmoved
    · exact (h.cancelled j ws id hj).evolve hrows

theorem Inv.step [CaseMapping] {env : Env} {s s' : State} {l : Label} (h : Inv s)
    (hs : (system env).step s l = some s') : Inv s' := by
  cases step_sound hs with
  | schedule row hrow hfresh hkey =>
    -- No worker and no call is touched; the table grows by a pending row.
    exact h.work (w := 0) (RowsEvolve.schedule hfresh) rfl rfl rfl (fun _ _ => rfl)
      ⟨fun row hr => (h.known 0 row hr).evolve (RowsEvolve.schedule hfresh),
        fun row hr => (h.held 0 row hr).evolve (RowsEvolve.schedule hfresh),
        fun _ _ _ _ _ _ hw => h.target 0 _ _ _ _ _ _ hw⟩
  | cancelRefused hk =>
    exact h.setCancel (RowsEvolve.refl _) rfl rfl rfl fun ws id hcall => by cases hcall
  | cancelChecked hk =>
    exact h.setCancel (RowsEvolve.refl _) rfl rfl rfl fun ws id hcall => by cases hcall
  | @cancelWrite k workspaceId id hk =>
    refine h.setCancel (RowsEvolve.cancel _ _ _) rfl rfl rfl fun ws id' hcall => ?_
    simp only [CancelCall.returned.injEq, decide_eq_true_eq] at hcall
    obtain ⟨-, rfl, hcount⟩ := hcall
    exact cancelled_of_cancel hcount
  | sweep hw =>
    -- A sweep reads rows that are there.
    refine h.setWork (WorkOk.of_rows (fun row hrow => ?_) rfl fun _ _ _ _ _ _ hm => by cases hm)
    exact ⟨row, (mem_of_mem_dueRows hrow).1, rfl, rfl⟩
  | sweepEnd hw => exact h.leaveRow (fun row hrow => by cases hrow) rfl fun _ _ _ _ _ _ hm => by cases hm
  | @claimWon w now row queue hw hcount =>
    have hknown : ∀ r ∈ row :: queue, Known s.sends r := by
      intro r hr
      exact h.known w r (by rw [hw]; exact hr)
    have hrows := RowsEvolve.claim s.sends row now
    refine h.work hrows rfl rfl (workOf_setWork_self w _)
      (fun v hv => workOf_setWork_of_ne hv _) ⟨fun r hr => (hknown r hr).evolve hrows, ?_, ?_⟩
    · -- The claim took effect, so the row has been worked on.
      intro r hr
      obtain rfl := Option.some.inj hr
      exact begun_of_claim h.nodup (hknown row List.mem_cons_self) hcount
    · intro _ _ _ _ _ _ hm
      cases hm
  | @claimLost w now row queue hw hcount =>
    have hrows := RowsEvolve.claim s.sends row now
    refine h.work hrows rfl rfl (workOf_setWork_self w _) (fun v hv => workOf_setWork_of_ne hv _)
      (WorkOk.of_rows (fun r hr => ?_) rfl fun _ _ _ _ _ _ hm => by cases hm)
    -- The row is dropped, and the rest of the queue stays.
    exact (h.known w r (by rw [hw]; exact List.mem_cons_of_mem _ hr)).evolve hrows
  | prepareFailed hw hfails =>
    exact h.leaveRow (fun r hr => by rw [hw]; exact hr) rfl fun _ _ _ _ _ _ hm => by
      cases hm
      exact .inr (.inr rfl)
  | @prepared w configured now row queue hw payload =>
    refine h.work (RowsEvolve.refl _) rfl rfl (workOf_beginCompose_self w _)
      (fun v hv => workOf_beginCompose_of_ne hv _) ⟨fun r hr => ?_, fun r hr => ?_, ?_⟩
    · exact h.known w r (by rw [hw]; exact hr)
    · exact h.held w r (by rw [hw]; exact hr)
    · intro _ _ _ _ _ _ hm
      cases hm
  | @composeStart w n r f ids now row payload queue c hw hc =>
    refine h.composeStep hc fun w' n' r' f' ids' hl => ?_
    cases hl
    -- The compose works under the key of a row that was worked on.
    rw [requestOf_triple]
    exact h.held w row (by rw [hw]; rfl)
  | composeAbort hw hc => exact h.composeStep hc fun w' n' r' f' ids' hl => by cases hl
  | compose hstart hcrash hc =>
    exact h.composeStep hc fun w' n' r' f' ids' hl => absurd hl (hstart w' n' r' f' ids')
  | finishFailed hw hcall hview =>
    exact h.leaveRow (fun r hr => by rw [hw]; exact hr) rfl fun _ _ _ _ _ _ hm => by
      cases hm
      exact .inr (.inr rfl)
  | finishSent hw hcall hview =>
    exact h.leaveRow (fun r hr => by rw [hw]; exact hr) rfl fun _ _ _ _ _ _ hm => by
      cases hm
      exact .inr (.inl rfl)
  | finishThrown hw hcall =>
    exact h.leaveRow (fun r hr => by rw [hw]; exact hr) rfl fun _ _ _ _ _ _ hm => by
      cases hm
      exact .inr (.inr rfl)
  | @mark w now row target sentAt caught queue hw =>
    have hrows := RowsEvolve.mark s.sends row.id sentAt (h.target w _ _ _ _ _ _ hw)
    refine h.work hrows rfl rfl (workOf_setWork_self w _) (fun v hv => workOf_setWork_of_ne hv _)
      (WorkOk.of_rows (fun r hr => ?_) rfl fun _ _ _ _ _ _ hm => by cases hm)
    exact (h.known w r (by rw [hw]; exact List.mem_cons_of_mem _ hr)).evolve hrows
  | throwClaim hw =>
    exact h.leaveRow (fun r hr => by rw [hw]; exact hr) rfl fun _ _ _ _ _ _ hm => by
      cases hm
      exact .inr (.inr rfl)
  | throwHeld hw =>
    exact h.leaveRow (fun r hr => by rw [hw]; exact hr) rfl fun _ _ _ _ _ _ hm => by
      cases hm
      exact .inr (.inr rfl)
  | throwMark hw =>
    exact h.leaveRow (fun r hr => by rw [hw]; exact hr) rfl fun _ _ _ _ _ _ hm => by
      cases hm
      exact .inr (.inr rfl)
  | throwCaught hw =>
    exact h.leaveRow (fun r hr => by rw [hw]; exact List.mem_cons_of_mem _ hr) rfl
      fun _ _ _ _ _ _ hm => by cases hm
  | @crashComposing w now row payload n queue hw =>
    -- The compose dies first, then the worker rests.
    have hcrash : (Compose.system env).step s.compose (.crash (.worker w n)) =
        some (s.compose.setCall (.worker w n) .crashed) := rfl
    have hdead : Inv { s with compose := s.compose.setCall (.worker w n) .crashed } :=
      h.composeStep hcrash fun w' n' r' f' ids' hl => by cases hl
    exact hdead.leaveRow (w := w) (fun r hr => by cases hr) rfl fun _ _ _ _ _ _ hm => by cases hm
  | crash hw => exact h.leaveRow (fun r hr => by cases hr) rfl fun _ _ _ _ _ _ hm => by cases hm

theorem inv_of_reachable [CaseMapping] {env : Env} {s : State} (h : (system env).Reachable s) : Inv s :=
  h.invariant (P := Inv) (fun _ h0 => Inv.initial h0) fun _ _ _ _ hi hs => hi.step hs

/-! ### The result -/

/-- **At most once, and never after a cancel.** In every run, the engine is
called at most once under a row's key, and no worker ever calls it for a row
whose cancel returned true. -/
theorem handed_at_most_once_and_never_after_cancel [CaseMapping] (env : Env) {s : State}
    (h : (system env).Reachable s) :
    (∀ row ∈ s.sends, engineCalls s.compose.log row.key ≤ 1) ∧
      ∀ k workspaceId id, s.cancels k = .returned workspaceId id true →
        ∀ row ∈ s.sends, row.id = id →
          ∀ e ∈ s.compose.log, ∀ w n, e.caller = .worker w n → e.triple ≠ row.key := by
  have hinv := inv_of_reachable h
  have hcompose := (toCompose env).reachable h
  refine ⟨fun row _ => Once.spent_le_one ((Compose.toOnce env).reachable hcompose) row.key, ?_⟩
  intro k ws id hk row hrow hid e he w n hcaller hkey
  -- The row of the key is both cancelled and claimed.
  obtain ⟨rc, hrc, hrcid, hcancelled⟩ := hinv.cancelled k ws id hk
  obtain ⟨rb, hrb, hrbkey, hbegun⟩ := hinv.logged e he w n hcaller
  have hbid : rb.id = rc.id := by
    rw [hrcid, ← hid]
    exact key_injective (hrbkey.trans hkey)
  have heq := eq_of_id_eq hinv.nodup hrb hrc hbid
  subst heq
  rw [hcancelled] at hbegun
  rcases hbegun with hb | hb | hb <;> cases hb

/-- Two scheduled sends: one is cancelled, the other swept, composed and marked. -/
theorem handed_at_most_once_and_never_after_cancel_run :
    ∃ s : State, s.cancels 0 = .returned "ws" "b" true ∧ s.compose.log.length = 1 ∧
      s.sends.map (·.state) = [.sent, .cancelled] ∧
      (∀ row ∈ s.sends, engineCalls s.compose.log row.key ≤ 1) ∧
      ∀ row ∈ s.sends, row.id = "b" →
        ∀ e ∈ s.compose.log, ∀ w n, e.caller = .worker w n → e.triple ≠ row.key := by
  let run : List Label :=
    [.schedule true none "ws" "mb" samplePayload 10 "a",
      .schedule true none "ws" "mb" samplePayload 20 "b",
      .cancelRead 0 none "ws" "b", .cancelWrite 0, .sweep 0 30 50, .claim 0, .prepare 0 true,
      .compose (.start (.worker 0 0) ⟨"ws", none, sampleInput⟩ false ⟨"m", "i"⟩),
      .compose (.commit (.worker 0 0)),
      .compose (.callEngine (.worker 0 0) none ⟨true, some "p", none, none, none⟩),
      .compose (.stamp (.worker 0 0)), .finish 0 31, .mark 0]
  have hrun : ((system sampleEnv).exec sampleStart run).isSome = true := rfl
  have hreach := System.exec_reachable sampleStart_init (Option.some_get hrun).symm
  obtain ⟨honce, hnever⟩ := handed_at_most_once_and_never_after_cancel sampleEnv hreach
  exact ⟨_, rfl, rfl, rfl, honce, hnever 0 "ws" "b" rfl⟩

end Scheduler
end EmailOps
