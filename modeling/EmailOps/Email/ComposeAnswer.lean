import EmailOps.Email.ComposeLedger

/-!
# What a compose has to show

A call calls the engine at most once, and the view that it returns tells what the engine
said, unless it returned without calling the engine.

* `handOffs` are the engine calls of one call; `call_step` says what a step does to the call
  and to them.
* `Call.Shows` says what they are at each point of the call.
* `shows_of_reachable` is the invariant.
-/

namespace EmailOps
namespace Compose

open Framework

variable {Caller : Type} [DecidableEq Caller]

/-! ### From step to step -/

/-- The call has not called the engine, and may yet. -/
def beforeEngine : Call → Prop
  | .idle | .planned _ _ | .queued _ _ => True
  | _ => False

section Steps

variable [CaseMapping] {env : Env} {c c' : State Caller} {l : Label Caller}

/-- **What a step does to the log**: nothing, or a call that was queued calls the engine. -/
theorem log_cases (hs : (system env).step c l = some c') :
    c'.log = c.log ∨ ∃ h r plan, c'.log = c.log ++ [h] ∧ c.calls h.caller = .queued r plan ∧
      ¬beforeEngine (c'.calls h.caller) := by
  rcases step_eq_some hs with ⟨d, r, f, ids, rfl, hd, rfl⟩ | ⟨d, r, plan, rfl, hd, rfl⟩ |
    ⟨d, r, plan, resolved, result, rfl, hd, rfl⟩ | ⟨d, r, plan, result, rfl, hd, rfl⟩ |
    ⟨d, rfl, rfl⟩ | ⟨settings, rfl, rfl⟩
  · exact .inl rfl
  · exact .inl rfl
  · refine .inr ⟨handOff d r plan resolved result, r, plan, rfl, hd, ?_⟩
    have hcall : Function.update c.calls d (.handed r plan result) d = .handed r plan result :=
      Function.update_self _ _ _
    change ¬beforeEngine (Function.update c.calls d (.handed r plan result) d)
    rw [hcall]
    exact not_false
  · exact .inl rfl
  · exact .inl rfl
  · exact .inl rfl

/-- A call that may yet call the engine could before. -/
theorem beforeEngine_step (hs : (system env).step c l = some c') {d : Caller}
    (hd : beforeEngine (c'.calls d)) : beforeEngine (c.calls d) := by
  -- A call that has just moved was idle or planned before, or may not call any more.
  have hmoved : ∀ (e : Caller) (call : Call),
      (beforeEngine call → beforeEngine (c.calls e)) →
        beforeEngine (Function.update c.calls e call d) → beforeEngine (c.calls d) := by
    intro e call hcall h
    rcases update_cases beforeEngine h with ⟨rfl, hmoved⟩ | ⟨-, h⟩
    · exact hcall hmoved
    · exact h
  rcases step_eq_some hs with ⟨e, r, f, ids, rfl, he, rfl⟩ | ⟨e, r, plan, rfl, he, rfl⟩ |
    ⟨e, r, plan, resolved, result, rfl, he, rfl⟩ | ⟨e, r, plan, result, rfl, he, rfl⟩ |
    ⟨e, rfl, rfl⟩ | ⟨settings, rfl, rfl⟩
  · exact hmoved e _ (fun _ => by rw [he]; trivial) hd
  · exact hmoved e _ (fun _ => by rw [he]; trivial) hd
  · exact hmoved e (.handed r plan result) (fun h => h.elim) hd
  · refine hmoved e _ (fun h => ?_) hd
    unfold stamped at h
    split at h <;> exact h.elim
  · exact hmoved e .crashed (fun h => h.elim) hd
  · exact hd

end Steps

/-! ### What a step does to one call -/

/-- The engine calls of a call. -/
def handOffs (log : List (HandOff Caller)) (c : Caller) : List (HandOff Caller) :=
  log.filter (·.caller = c)

theorem mem_handOffs {log : List (HandOff Caller)} {c : Caller} {h : HandOff Caller} :
    h ∈ handOffs log c ↔ h ∈ log ∧ h.caller = c := by
  unfold handOffs
  rw [List.mem_filter, decide_eq_true_eq]

private theorem handOffs_append_of_ne {log : List (HandOff Caller)} {h : HandOff Caller}
    {c : Caller} (hne : h.caller ≠ c) : handOffs (log ++ [h]) c = handOffs log c := by
  unfold handOffs
  rw [List.filter_append, List.filter_singleton]
  simp [hne]

private theorem handOffs_append_self {log : List (HandOff Caller)} {h : HandOff Caller}
    {c : Caller} (heq : h.caller = c) : handOffs (log ++ [h]) c = handOffs log c ++ [h] := by
  unfold handOffs
  rw [List.filter_append, List.filter_singleton]
  simp [heq]

/-- What a step may do to the call of `d` and to the engine calls of it. -/
inductive CallMoves [CaseMapping] (env : Env) (c c' : State Caller) (d : Caller) :
    Label Caller → Prop
  | stays {l} (hcall : c'.calls d = c.calls d) (hlog : handOffs c'.log d = handOffs c.log d) :
      CallMoves env c c' d l
  | starts {r f ids} (hidle : c.calls d = .idle) (hcall : c'.calls d = planned env c.db r f ids)
      (hlog : handOffs c'.log d = handOffs c.log d) : CallMoves env c c' d (.start d r f ids)
  | commits {r plan} (hplanned : c.calls d = .planned r plan)
      (hcall : c'.calls d = (commit c.db r plan).2)
      (hlog : handOffs c'.log d = handOffs c.log d) : CallMoves env c c' d (.commit d)
  | callsEngine {r plan resolved result} (h : HandOff Caller) (hqueued : c.calls d = .queued r plan)
      (hcall : c'.calls d = .handed r plan result) (hresult : h.result = result)
      (hlog : handOffs c'.log d = handOffs c.log d ++ [h]) :
      CallMoves env c c' d (.callEngine d resolved result)
  | stamps {r plan result} (hhanded : c.calls d = .handed r plan result)
      (hcall : c'.calls d = stamped (stampSendResult c.db.messages plan.messageId result)
        plan.messageId)
      (hlog : handOffs c'.log d = handOffs c.log d) : CallMoves env c c' d (.stamp d)
  | crashes (hcall : c'.calls d = .crashed) (hlog : handOffs c'.log d = handOffs c.log d) :
      CallMoves env c c' d (.crash d)

/-- **What a step does to one call.** -/
theorem call_step [CaseMapping] {env : Env} {c c' : State Caller} {l : Label Caller}
    (hs : (system env).step c l = some c') (d : Caller) : CallMoves env c c' d l := by
  -- The call of the step has moved, and no other call.
  have hself : ∀ call : Call, Function.update c.calls d call d = call :=
    fun call => Function.update_self d call c.calls
  have hother : ∀ (e : Caller) (call : Call), d ≠ e →
      Function.update c.calls e call d = c.calls d :=
    fun e call hne => Function.update_of_ne hne call c.calls
  rcases step_eq_some hs with ⟨e, r, f, ids, rfl, he, rfl⟩ | ⟨e, r, plan, rfl, he, rfl⟩ |
    ⟨e, r, plan, resolved, result, rfl, he, rfl⟩ | ⟨e, r, plan, result, rfl, he, rfl⟩ |
    ⟨e, rfl, rfl⟩ | ⟨settings, rfl, rfl⟩
  · by_cases hde : d = e
    · subst hde
      exact .starts he (hself _) rfl
    · exact .stays (hother e _ hde) rfl
  · by_cases hde : d = e
    · subst hde
      exact .commits he (hself _) rfl
    · exact .stays (hother e _ hde) rfl
  · by_cases hde : d = e
    · subst hde
      exact .callsEngine (handOff d r plan resolved result) he (hself _) rfl
        (handOffs_append_self rfl)
    · exact .stays (hother e _ hde) (handOffs_append_of_ne fun heq => hde heq.symm)
  · by_cases hde : d = e
    · subst hde
      exact .stamps he (hself _) rfl
    · exact .stays (hother e _ hde) rfl
  · by_cases hde : d = e
    · subst hde
      exact .crashes (hself _) rfl
    · exact .stays (hother e _ hde) rfl
  · exact .stays rfl rfl

/-! ### What a call has to show -/

/-- What the engine calls of a call are when it stands there. -/
def Call.Shows (made : List (HandOff Caller)) : Call → Prop
  | .idle | .planned _ _ | .queued _ _ | .failed _ => made = []
  | .handed _ _ result => ∃ h, made = [h] ∧ h.result = result
  | .returned view =>
    made = [] ∨ ∃ h, made = [h] ∧ view.status = if h.result.accepted then .sent else .failed
  | .crashed => made.length ≤ 1

omit [DecidableEq Caller] in
/-- A call has called the engine at most once. -/
theorem Call.Shows.length_le_one {call : Call} {made : List (HandOff Caller)}
    (h : call.Shows made) : made.length ≤ 1 := by
  have hnone : made = [] → made.length ≤ 1 := by
    rintro rfl
    exact Nat.zero_le 1
  have hone : ∀ {P : HandOff Caller → Prop}, (∃ h, made = [h] ∧ P h) → made.length ≤ 1 := by
    rintro P ⟨e, rfl, -⟩
    exact le_refl 1
  cases call with
  | idle | planned | queued | failed => exact hnone h
  | handed r plan result => exact hone h
  | returned view => exact h.elim hnone hone
  | crashed => exact h

omit [DecidableEq Caller] in
private theorem shows_commit (db : Db) (r : Request) (plan : ComposePlan) :
    (commit db r plan).2.Shows ([] : List (HandOff Caller)) := by
  rcases commit_cases db r plan with ⟨e, hcommit⟩ | ⟨view, -, hcommit⟩ |
    ⟨msg, item, db', -, -, hcommit⟩ | ⟨msg, sendPlan, db', -, -, hcommit⟩ <;> rw [hcommit]
  · exact rfl
  · exact .inl rfl
  · exact .inl rfl
  · exact rfl

/-- A stamp returns the row of the call, with what the engine said. -/
theorem stamped_returns {messages : List EmailMessage} {id : String} {result : EngineSendResult}
    (hrow : ∃ m ∈ messages, m.id = id) :
    ∃ view, stamped (stampSendResult messages id result) id = .returned view ∧
      view.status = if result.accepted then .sent else .failed := by
  unfold stamped
  split
  · next m hfind =>
    have hmem := List.mem_of_find?_eq_some hfind
    have hfound := List.find?_some hfind
    have hid : m.id = id := of_decide_eq_true hfound
    obtain ⟨m₀, -, hid₀, -, hstatus⟩ := mem_stampSendResult hmem
    rcases hstatus with ⟨-, hstatus⟩ | ⟨hne, -⟩
    · exact ⟨composeView m, rfl, hstatus⟩
    · exact absurd (hid₀.symm.trans hid) hne
  · next hnone =>
    -- The row is there, and a stamp keeps it.
    exfalso
    obtain ⟨m, hm, hid⟩ := hrow
    rw [List.find?_eq_none] at hnone
    have hstays : ∃ m' ∈ stampSendResult messages id result, m'.id = id := by
      unfold stampSendResult
      exact ⟨_, List.mem_map_of_mem hm, by rw [if_pos hid]; exact hid⟩
    obtain ⟨m', hm', hid'⟩ := hstays
    exact hnone m' hm' (decide_eq_true hid')

/-- A step keeps what a call has to show. -/
theorem Call.Shows.step [CaseMapping] {env : Env} {c c' : State Caller} {l : Label Caller}
    {d : Caller} (h : (c.calls d).Shows (handOffs c.log d)) (hrow : RowInv c)
    (hs : (system env).step c l = some c') : (c'.calls d).Shows (handOffs c'.log d) := by
  cases call_step hs d with
  | stays hcall hlog =>
    rw [hcall, hlog]
    exact h
  | starts hidle hcall hlog =>
    rw [hidle] at h
    have hmade : handOffs c.log d = [] := h
    rw [hcall, hlog, hmade]
    unfold Compose.planned
    split <;> exact rfl
  | @commits r plan hplanned hcall hlog =>
    rw [hplanned] at h
    have hmade : handOffs c.log d = [] := h
    rw [hcall, hlog, hmade]
    exact shows_commit c.db r plan
  | callsEngine e hqueued hcall hresult hlog =>
    rw [hqueued] at h
    have hmade : handOffs c.log d = [] := h
    rw [hcall, hlog, hmade]
    exact ⟨e, rfl, hresult⟩
  | @stamps r plan result hhanded hcall hlog =>
    have hsending : (c.calls d).sending = some (r, plan) := by
      rw [hhanded]
      rfl
    rw [hhanded] at h
    obtain ⟨e, hmade, hresult⟩ := h
    obtain ⟨view, hview, hstatus⟩ :=
      @stamped_returns _ _ result (hrow.ledger.exists_row d r plan hsending)
    rw [hcall, hlog, hmade, hview]
    exact .inr ⟨e, rfl, by rw [hresult]; exact hstatus⟩
  | crashes hcall hlog =>
    rw [hcall, hlog]
    exact h.length_le_one

theorem shows_of_reachable [CaseMapping] {env : Env} {s : State Caller}
    (h : (system env).Reachable s) (c : Caller) : (s.calls c).Shows (handOffs s.log c) := by
  refine h.invariant (P := fun s => (s.calls c).Shows (handOffs s.log c)) (fun s h0 => ?_)
    fun _ _ _ hr hi hs => hi.step (rowInv_of_reachable hr) hs
  rw [h0.1 c, h0.2]
  exact rfl

end Compose
end EmailOps
