import EmailOps.Email.ComposeAnswer
import EmailOps.Scheduling.AtMostOnce

/-!
# What a step of the scheduler does to one row, one cancel and one compose

* `RowMoves` lists what a step may do to the state of a row, with what it says of the rest of
  the state, and `row_step` places every step in the list.
* `cancel_step` does the same for a cancel, and `other_step` for a compose that no worker makes.
-/

namespace EmailOps
namespace Scheduler

open Framework Compose

/-! ### Rows -/

/-- What a step may do to a row, by the state it leaves the row in. -/
inductive RowMoves (s s' : State) (r : ScheduledSend) : Label → ScheduledSendState → Prop
  | stays {l} : RowMoves s s' r l r.state
  | cancelled {k workspaceId id} (hguard : cancelGuard workspaceId id r = true)
      (hk : s.cancels k = .checked workspaceId id)
      (hk' : s'.cancels k = .returned workspaceId id true) :
      RowMoves s s' r (.cancelWrite k) .cancelled
  | claimed {w} (hstate : r.state = .pending ∨ r.state = .claimed) :
      RowMoves s s' r (.claim w) .claimed
  | marked {w now row target sentAt caught queue}
      (hw : s.workOf w = .marking now row target sentAt caught queue) (hid : row.id = r.id)
      (hstate : r.state = .claimed) : RowMoves s s' r (.mark w) target

/-- The row goes on, under the id, the workspace and the mailbox it had. -/
def GoesOn (s s' : State) (l : Label) (r : ScheduledSend) : Prop :=
  ∃ r' ∈ s'.sends, r'.id = r.id ∧ r'.workspaceId = r.workspaceId ∧ r'.mailboxId = r.mailboxId ∧
    RowMoves s s' r l r'.state

section Rows

variable {s s' : State} {l : Label}

private theorem GoesOn.of_mem {r : ScheduledSend} (hr : r ∈ s'.sends) : GoesOn s s' l r :=
  ⟨r, hr, rfl, rfl, rfl, .stays⟩

/-- An update moves the rows it matches and leaves the others alone. -/
private theorem GoesOn.of_update {r : ScheduledSend} {p : ScheduledSend → Bool}
    {f : ScheduledSend → ScheduledSend} (hr : r ∈ s.sends) (hsends : s'.sends = updateMany s.sends p f)
    (hf : (f r).id = r.id ∧ (f r).workspaceId = r.workspaceId ∧ (f r).mailboxId = r.mailboxId)
    (hmoves : p r = true → RowMoves s s' r l (f r).state) : GoesOn s s' l r := by
  cases hp : p r with
  | true =>
    refine ⟨f r, ?_, hf.1, hf.2.1, hf.2.2, hmoves hp⟩
    rw [hsends]
    exact mem_updateMany.mpr (.inl ⟨r, hr, hp, rfl⟩)
  | false =>
    refine GoesOn.of_mem ?_
    rw [hsends]
    exact mem_updateMany.mpr (.inr ⟨hr, hp⟩)

/-- In a table with a primary key, an id matches one row at most. -/
theorem countP_cancelGuard {rows : List ScheduledSend} (hnodup : (rows.map (·.id)).Nodup)
    {workspaceId id : String} {r : ScheduledSend} (hr : r ∈ rows)
    (hguard : cancelGuard workspaceId id r = true) :
    rows.countP (cancelGuard workspaceId id) = 1 := by
  have hid : ∀ r, cancelGuard workspaceId id r = true → r.id = id := by
    intro r hr
    unfold cancelGuard at hr
    simp only [Bool.and_eq_true, decide_eq_true_eq] at hr
    exact hr.1.1
  have hle : rows.countP (cancelGuard workspaceId id) ≤ (rows.map (·.id)).count id := by
    rw [List.count, List.countP_map]
    refine List.countP_mono_left fun r _ hr => ?_
    exact beq_iff_eq.mpr (hid r hr)
  have hone : (rows.map (·.id)).count id ≤ 1 := List.nodup_iff_count_le_one.mp hnodup id
  have hpos : 0 < rows.countP (cancelGuard workspaceId id) :=
    List.countP_pos_iff.mpr ⟨r, hr, hguard⟩
  omega

/-- **What a step does to a row.** -/
theorem row_step [CaseMapping] {env : Env} (hnodup : (s.sends.map (·.id)).Nodup) (hs : (system env).step s l = some s')
    {r : ScheduledSend} (hr : r ∈ s.sends) : GoesOn s s' l r := by
  cases step_sound hs with
  | schedule row hrow hfresh hkey => exact .of_mem (List.mem_append_left _ hr)
  | cancelWrite hk =>
    refine .of_update hr rfl ⟨rfl, rfl, rfl⟩ fun hguard => .cancelled hguard hk ?_
    have hcount := countP_cancelGuard hnodup hr hguard
    change Function.update s.cancels _ _ _ = _
    rw [Function.update_self, hcount]
    rfl
  | claimWon hw hcount =>
    refine .of_update hr rfl ⟨rfl, rfl, rfl⟩ fun hguard => .claimed ?_
    unfold claimGuard at hguard
    split at hguard <;> simp at hguard <;> simp [hguard]
  | claimLost hw hcount =>
    refine .of_update hr rfl ⟨rfl, rfl, rfl⟩ fun hguard => .claimed ?_
    unfold claimGuard at hguard
    split at hguard <;> simp at hguard <;> simp [hguard]
  | mark hw =>
    refine .of_update hr rfl ⟨rfl, rfl, rfl⟩ fun hguard => ?_
    unfold markGuard at hguard
    simp only [Bool.and_eq_true, decide_eq_true_eq] at hguard
    exact .marked hw hguard.1.symm hguard.2
  | _ => exact .of_mem hr

end Rows

/-! ### Cancels -/

/-- What a step may do to a cancel. -/
inductive CancelMoves (s s' : State) (k : ℕ) : Label → Prop
  | stays {l} (hk : s'.cancels k = s.cancels k) : CancelMoves s s' k l
  | reads {ucUid workspaceId id} (hk : s.cancels k = .idle)
      (hk' : s'.cancels k = .returned workspaceId id false ∨
        s'.cancels k = .checked workspaceId id) :
      CancelMoves s s' k (.cancelRead k ucUid workspaceId id)
  | writes {workspaceId id} (hk : s.cancels k = .checked workspaceId id)
      (hk' : ∃ b, s'.cancels k = .returned workspaceId id b) :
      CancelMoves s s' k (.cancelWrite k)

private theorem cancels_of_ne {s : State} {k j : ℕ} (hne : k ≠ j) (call : CancelCall) :
    (s.setCancel j call).cancels k = s.cancels k :=
  Function.update_of_ne hne _ _

private theorem cancels_self {s : State} (k : ℕ) (call : CancelCall) : (s.setCancel k call).cancels k = call :=
  Function.update_self _ _ _

/-- **What a step does to a cancel.** -/
theorem cancel_step [CaseMapping] {env : Env} {s s' : State} {l : Label}
    (hs : (system env).step s l = some s') (k : ℕ) : CancelMoves s s' k l := by
  cases step_sound hs with
  | @cancelRefused j ucUid workspaceId id hj =>
    by_cases hkj : k = j
    · subst hkj
      exact .reads hj (.inl (cancels_self k _))
    · exact .stays (cancels_of_ne hkj _)
  | @cancelChecked j ucUid workspaceId id hj =>
    by_cases hkj : k = j
    · subst hkj
      exact .reads hj (.inr (cancels_self k _))
    · exact .stays (cancels_of_ne hkj _)
  | @cancelWrite j workspaceId id hj =>
    by_cases hkj : k = j
    · subst hkj
      exact .writes hj ⟨_, cancels_self k _⟩
    · exact .stays (cancels_of_ne hkj _)
  | _ => exact .stays rfl

/-! ### Composes that no worker makes -/

/-- **What a step does to a compose that no worker makes**: nothing, or the step is one of the
composes. -/
theorem other_step [CaseMapping] {env : Env} {s s' : State} {l : Label}
    (hs : (system env).step s l = some s') (k : ℕ) :
    (s'.compose.calls (.other k) = s.compose.calls (.other k) ∧
        handOffs s'.compose.log (.other k) = handOffs s.compose.log (.other k)) ∨
      ∃ cl, l = .compose cl ∧ CallMoves env s.compose s'.compose (.other k) cl := by
  have hworker : ∀ {cl}, (Compose.system env).step s.compose cl = some s'.compose →
      (∃ w n, (∃ r f ids, cl = .start (.worker w n) r f ids) ∨ cl = .crash (.worker w n)) →
        s'.compose.calls (.other k) = s.compose.calls (.other k) ∧
          handOffs s'.compose.log (.other k) = handOffs s.compose.log (.other k) := by
    rintro cl hcl ⟨w, n, ⟨r, f, ids, rfl⟩ | rfl⟩
    · cases call_step hcl (.other k) with
      | stays hcall hlog => exact ⟨hcall, hlog⟩
    · cases call_step hcl (.other k) with
      | stays hcall hlog => exact ⟨hcall, hlog⟩
  cases step_sound hs with
  | composeStart hw hc => exact .inl (hworker hc ⟨_, _, .inl ⟨_, _, _, rfl⟩⟩)
  | composeAbort hw hc => exact .inl (hworker hc ⟨_, _, .inr rfl⟩)
  | compose hstart hcrash hc => exact .inr ⟨_, rfl, call_step hc _⟩
  | @crashComposing w now row payload n queue hw =>
    have hc : (Compose.system env).step s.compose (.crash (.worker w n)) =
        some (s.compose.setCall (.worker w n) .crashed) := rfl
    exact .inl (hworker hc ⟨w, n, .inr rfl⟩)
  | _ => exact .inl ⟨rfl, rfl⟩

end Scheduler
end EmailOps
