import EmailOps.Workspaces.LastOwner

/-!
# Authority at the commit

Who changes a member must be an admin, or leave; must not be outranked by the member; and
must not grant a role above the own. A change checks this against roles that it reads before
its transaction. Inside it, only the target is read again, and only for the last owner.

* `Commit.Sufficient` says of a committed change that the rules were met by what was committed
  when it wrote.
* `demoted_by_an_admin`: a change of an admin may commit when its target is an owner by then.
* `Unmoved` is the condition under which the rules are met, that no change in between has
  lowered the caller or raised the target; `sufficient_of_unmoved` is the result.
-/

namespace EmailOps
namespace Workspaces

open Framework

/-- **The rules, at the commit.** The caller has a role, it suffices, and neither the target
nor the granted role outranks it. -/
def Commit.Sufficient (k : Commit) : Prop :=
  ∃ role, k.callerRole = some role ∧ k.op.admits role = true ∧
    k.op.refused role k.target.role = false

/-- Every change was committed under the rules. -/
def Authorized (s : State) : Prop :=
  ∀ k ∈ s.commits, k.Sufficient

/-- **The condition.** When a change is about to write, the caller still has a role, no lower
than the one it read, and the target none higher. -/
def Unmoved (s : State) : Label → Prop
  | .next c =>
    match s.calls c with
    | .tx op roles .cleared =>
      ∀ target ∈ s.members.find op.target,
        (∃ role ∈ s.members.resolveCallerRole op.workspaceId op.user,
          roleRank roles.callerRole ≤ roleRank role) ∧
            roleRank target.role ≤ roleRank roles.targetRole
    | _ => True
  | _ => True

instance (s : State) (l : Label) : Decidable (Unmoved s l) := by
  induction l using Label.casesOn with
  | next c =>
    dsimp only [Unmoved]
    generalize s.calls c = call
    induction call using Call.casesOn with
    | tx _ _ stage =>
      induction stage using TxStage.casesOn with
      | cleared => infer_instance
      | _ => exact .isTrue trivial
    | _ => exact .isTrue trivial
  | _ => exact .isTrue trivial

/-! ### The rules -/

section Rules

variable {op : MemberOp} {callerRole callerRole' targetRole targetRole' : WorkspaceRole}

theorem MemberOp.admits_mono (hcaller : roleRank callerRole ≤ roleRank callerRole')
    (h : op.admits callerRole = true) : op.admits callerRole' = true := by
  unfold MemberOp.admits at h ⊢
  rcases Bool.or_eq_true_iff.mp h with hleaves | hadmin
  · rw [hleaves, Bool.true_or]
  · have hrank : roleRank .admin ≤ roleRank callerRole := of_decide_eq_true hadmin
    have hat : roleAtLeast callerRole' .admin = true := decide_eq_true (hrank.trans hcaller)
    rw [hat, Bool.or_true]

/-- A caller who was not outranked is not when the caller has risen and the target fallen. -/
theorem MemberOp.refused_mono (hcaller : roleRank callerRole ≤ roleRank callerRole')
    (htarget : roleRank targetRole' ≤ roleRank targetRole)
    (h : op.refused callerRole targetRole = false) :
    op.refused callerRole' targetRole' = false := by
  unfold MemberOp.refused at h ⊢
  obtain ⟨hover, hgrant⟩ := Bool.or_eq_false_iff.mp h
  refine Bool.or_eq_false_iff.mpr ⟨?_, ?_⟩
  · rcases Bool.and_eq_false_iff.mp hover with hself | hrank
    · rw [hself, Bool.false_and]
    · have hle : ¬ roleRank callerRole' < roleRank targetRole' := by
        have hnot := of_decide_eq_false hrank
        omega
      rw [decide_eq_false hle, Bool.and_false]
  · cases hgranted : op.granted with
    | none => rfl
    | some role =>
      rw [hgranted] at hgrant
      have hnot : ¬ roleRank callerRole < roleRank role := of_decide_eq_false hgrant
      have hle : ¬ roleRank callerRole' < roleRank role := by omega
      exact decide_eq_false hle

end Rules

/-! ### What a call has checked -/

/-- A change has checked the roles that it has read. -/
def Checked : Call → Prop
  | .authorized op role => op.admits role = true
  | .tx op roles _ =>
    op.admits roles.callerRole = true ∧ op.refused roles.callerRole roles.targetRole = false
  | _ => True

theorem checked_of_sparesMembers {call : Call} (h : call.sparesMembers = true) : Checked call := by
  cases call with
  | authorized | tx => cases h
  | _ => trivial

section Run

variable [CaseMapping] {env : Env} {s s' : State} {l : Label} {c : ℕ} {call : Call} {eff : Effect}

/-- **A statement leaves a call with what it has checked.** -/
theorem Checked.next (h : Checked (s.calls c)) (hplan : plan env s c (s.calls c) = some (call, eff)) :
    Checked call := by
  rcases plan_cases hplan with ⟨op, roles, stage, hcall, htx⟩ |
    ⟨op, role, target, hcall, -, hranked, rfl, -⟩ | ⟨user, invite, -, -, hnext⟩ |
    ⟨user, invite, -, rfl, -⟩ | ⟨invite, key, -, rfl, -⟩ | ⟨user, role, -, rfl, -⟩ | ⟨hspares, -⟩
  · rw [hcall] at h
    rcases planTx_cases htx with ⟨-, rfl, -⟩ | ⟨key, rows, -, -, rfl, -⟩ | ⟨-, rfl, -⟩ |
      ⟨fresh, -, -, rfl, -⟩ | ⟨-, -, rfl, -⟩ | ⟨target, -, -, rfl, -⟩ | ⟨rfl, -⟩
    · exact h
    · exact h
    · exact h
    · exact h
    · exact h
    · trivial
    · trivial
  · rw [hcall] at h
    exact ⟨h, hranked⟩
  · rcases hnext with rfl | rfl | ⟨key, rfl⟩ <;> trivial
  · trivial
  · trivial
  · trivial
  · exact checked_of_sparesMembers hspares

/-- A first statement leaves a call with what it has checked. -/
theorem checked_first (r : Request) : Checked (first env s r) := by
  rcases first_cases env s r with ⟨op, role, hrole, hfirst⟩ |
    ⟨user, invite, -, -, hfirst⟩ | ⟨user, role, hfirst⟩ | hspares
  · rw [hfirst]
    exact (Option.filter_eq_some_iff.mp hrole).2
  · rw [hfirst]
    trivial
  · rw [hfirst]
    trivial
  · exact checked_of_sparesMembers hspares

/-- What is committed by a statement is committed by the write of a change. -/
theorem commits_apply {k : Commit} (h : k ∈ (eff.apply c s).commits) :
    k ∈ s.commits ∨ ∃ op target, eff = .change op target ∧
      k = ⟨op, s.members.resolveCallerRole op.workspaceId op.user, target⟩ := by
  cases eff with
  | change op target =>
    rcases List.mem_append.mp h with hold | hnew
    · exact .inl hold
    · exact .inr ⟨op, target, rfl, List.mem_singleton.mp hnew⟩
  | _ => exact .inl h

/-- The write of a change comes from a transaction that is cleared. -/
theorem change_of_plan {op : MemberOp} {target : Membership}
    (hplan : plan env s c (s.calls c) = some (call, .change op target)) :
    ∃ roles, s.calls c = .tx op roles .cleared ∧ s.members.find op.target = some target := by
  rcases plan_cases hplan with ⟨op', roles, stage, hcall, htx⟩ | ⟨_, _, _, -, -, -, -, heff⟩ |
    ⟨_, _, -, heff, -⟩ | ⟨_, _, -, -, heff⟩ | ⟨_, _, -, -, heff⟩ | ⟨_, _, -, -, heff⟩ | ⟨-, heff⟩
  · rcases planTx_cases htx with ⟨-, -, heff⟩ | ⟨key, rows, -, -, -, heff⟩ | ⟨-, -, heff⟩ |
      ⟨fresh, -, -, -, heff⟩ | ⟨-, -, -, heff⟩ | ⟨target', rfl, hfind, -, heff⟩ | ⟨-, heff⟩
    · cases heff
    · split at heff <;> cases heff
    · cases heff
    · cases heff
    · cases heff
    · cases heff
      exact ⟨roles, hcall, hfind⟩
    · cases heff
  all_goals cases heff

/-- **The invariant.** -/
structure AuthorityInv (s : State) : Prop where
  checked : ∀ c, Checked (s.calls c)
  authorized : Authorized s

/-- **A step keeps the invariant.** -/
theorem AuthorityInv.step (h : AuthorityInv s) (hunmoved : Unmoved s l)
    (hstep : (system env).step s l = some s') : AuthorityInv s' := by
  rcases step_cases hstep with ⟨c, r, rfl, -, rfl⟩ | ⟨c, call, eff, rfl, hplan, rfl⟩ |
    ⟨c, rfl, rfl⟩ | ⟨passed, rfl, rfl⟩ | ⟨users, rfl, rfl⟩
  · exact ⟨forall_update (checked_first r) h.checked, h.authorized⟩
  · constructor
    · intro c'
      change Checked (Function.update (eff.apply c s).calls c call c')
      rw [calls_apply]
      exact forall_update ((h.checked c).next hplan) h.checked c'
    · intro k hk
      rcases commits_apply hk with hold | ⟨op, target, rfl, rfl⟩
      · exact h.authorized k hold
      · -- The roles of the caller and of the target are no worse than those checked.
        obtain ⟨roles, hcall, hfind⟩ := change_of_plan hplan
        have hchecked := h.checked c
        rw [hcall] at hchecked
        simp only [Unmoved, hcall] at hunmoved
        obtain ⟨⟨role, hrole, hcaller⟩, htarget⟩ := hunmoved target hfind
        exact ⟨role, hrole, op.admits_mono hcaller hchecked.1,
          op.refused_mono hcaller htarget hchecked.2⟩
  · exact ⟨forall_update (p := Checked) trivial h.checked, h.authorized⟩
  · exact ⟨h.checked, h.authorized⟩
  · exact ⟨h.checked, h.authorized⟩

/-- **Where no change moves the roles of another, every change is committed under the
rules.** -/
theorem sufficient_of_unmoved {env : Env} {s : State}
    (h : (system env).ReachableUnder Unmoved s) : Authorized s := by
  have hinv : AuthorityInv s := by
    refine System.ReachableUnder.invariant ?_ (fun s l s' _ hs hc hstep => hs.step hc hstep) h
    rintro s ⟨hidle, -, hcommits, -, -⟩
    refine ⟨fun c => ?_, fun k hk => ?_⟩
    · rw [hidle c]
      trivial
    · rw [hcommits] at hk
      cases hk
  exact hinv.authorized

end Run

/-! ### Two changes at a time -/

/-- Ada makes Bob an owner, while he makes Cleo a viewer. -/
def promotedMeanwhile : List Label :=
  List.flatten
    [[.call 0 (setRole "ada" "bob" .owner), .call 1 (setRole "bob" "cleo" .viewer)],
      List.replicate 6 (.next 0), List.replicate 7 (.next 1)]

/-- Ada makes Cleo an owner, while Bob makes her a viewer. -/
def outrankedMeanwhile : List Label :=
  List.flatten
    [[.call 0 (setRole "bob" "cleo" .viewer), .next 0, .call 1 (setRole "ada" "cleo" .owner)],
      List.replicate 6 (.next 1), List.replicate 7 (.next 0)]

/-- **An admin is promoted while he demotes another**: both changes are committed under the
rules. -/
theorem sufficient_of_unmoved_promotion : ∃ s, Authorized s ∧
    s.members.rows.map (·.role) = [.owner, .owner, .viewer] := by
  have hrun : ((system plainEnv).execUnder Unmoved adasStart promotedMeanwhile).isSome = true :=
    rfl
  exact ⟨_, sufficient_of_unmoved (System.execUnder_reachable (.init adasStart_init.1)
    (Option.some_get hrun).symm), rfl⟩

/-- **An admin demotes an owner.** Cleo is made an owner when Bob has already compared her
role with his. -/
theorem demoted_by_an_admin : ∃ s, (system plainEnv).Reachable s ∧ ¬ Authorized s := by
  have hrun : ((system plainEnv).exec adasStart outrankedMeanwhile).isSome = true := rfl
  obtain ⟨s, k, hreach, hk, hcaller, hrefused⟩ : ∃ s k, (system plainEnv).Reachable s ∧
      k ∈ s.commits ∧ k.callerRole = some .admin ∧ k.op.refused .admin k.target.role = true :=
    ⟨_, _, System.exec_reachable adasStart_init.1 (Option.some_get hrun).symm,
      List.mem_cons_of_mem _ List.mem_cons_self, rfl, rfl⟩
  refine ⟨s, hreach, fun hall => ?_⟩
  obtain ⟨role, hrole, -, hnot⟩ := hall k hk
  obtain rfl := Option.some.inj (hcaller.symm.trans hrole)
  rw [hrefused] at hnot
  cases hnot

end Workspaces
end EmailOps
