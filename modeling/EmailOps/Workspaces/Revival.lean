import EmailOps.Workspaces.LastOwner

/-!
# Members who come back

A member whom an administrator has suspended or removed should be active again only when an
administrator has made it so, and an invitation that is revoked or accepted should give no
membership.

* `Kept` says both of a state: who is barred is not active, and each membership was given by
  an invitation that was neither revoked nor accepted by then.
* An invitation that was pending before a suspension undoes it (`revived_by_invitation`), since
  `acceptInvite` makes any membership active that it finds; and an invitation may be revoked
  after it was read.
* `Clean` is the condition under which a run keeps what administrators have done:
  `kept_of_clean`.
-/

namespace EmailOps
namespace Workspaces

open Framework

/-- No bar is up for the member. -/
def Unbarred (s : State) (key : MemberKey) : Prop :=
  ∀ b ∈ s.bars, b.key ≠ key

instance (s : State) (key : MemberKey) : Decidable (Unbarred s key) :=
  inferInstanceAs (Decidable (∀ b ∈ s.bars, b.key ≠ key))

/-- Whoever is barred is not active. -/
def BarsHold (s : State) : Prop :=
  ∀ b ∈ s.bars, ∀ m ∈ s.members.rows, m.key = b.key → m.status ≠ .active

/-- **The guarantee.** Bars hold, and invitations gave memberships while they stood. -/
structure Kept (s : State) : Prop where
  bars : BarsHold s
  grants : ∀ g ∈ s.grants, g.status ≠ some .revoked ∧ g.status ≠ some .accepted

/-- **The condition.** Who joins by an invitation or is seeded at sign-in was not removed
before, and the membership that an invitation makes active is not suspended. The status of
the invitation is still the one that was read. -/
def Clean (env : Env) (s : State) : Label → Prop
  | .next c =>
    match s.calls c with
    | .joining user invite =>
      s.members.find (invite.workspaceId, user.membershipKey) = none →
        Unbarred s (invite.workspaceId, user.membershipKey) ∧
          s.inviteStatus invite.id = some invite.status
    | .reviving invite key =>
      s.members.find key ≠ none →
        Unbarred s key ∧ s.inviteStatus invite.id = some invite.status
    | .seeding user _ =>
      s.members.find (env.bootstrapWorkspaceId, user.membershipKey) = none →
        Unbarred s (env.bootstrapWorkspaceId, user.membershipKey)
    | _ => True
  | _ => True

instance (env : Env) (s : State) (l : Label) : Decidable (Clean env s l) := by
  unfold Clean
  split
  · split <;> infer_instance
  · infer_instance

/-! ### What a call accepts -/

/-- The invitation that a call is accepting was pending when it was read. -/
def Call.ReadPending : Call → Prop
  | .accepting _ invite | .joining _ invite | .reviving invite _ => invite.status = .pending
  | _ => True

theorem readPending_of_sparesMembers {call : Call} (h : call.sparesMembers = true) :
    call.ReadPending := by
  cases call with
  | accepting | joining | reviving => cases h
  | _ => trivial

section Run

variable [CaseMapping] {env : Env} {s s' : State} {l : Label} {c : ℕ} {call : Call} {eff : Effect}
  {op : MemberOp}

/-- **A statement leaves a call with an invitation that was pending.** -/
theorem Call.ReadPending.next (h : (s.calls c).ReadPending)
    (hplan : plan env s c (s.calls c) = some (call, eff)) : call.ReadPending := by
  rcases plan_cases hplan with ⟨op, roles, stage, -, htx⟩ | ⟨op, role, target, -, -, -, rfl, -⟩ |
    ⟨user, invite, hcall, -, hnext⟩ | ⟨user, invite, -, rfl, -⟩ | ⟨invite, key, -, rfl, -⟩ |
    ⟨user, role, -, rfl, -⟩ | ⟨hspares, -⟩
  · rcases planTx_cases htx with ⟨-, rfl, -⟩ | ⟨key, rows, -, -, rfl, -⟩ | ⟨-, rfl, -⟩ |
      ⟨fresh, -, -, rfl, -⟩ | ⟨-, -, rfl, -⟩ | ⟨target, -, -, rfl, -⟩ | ⟨rfl, -⟩ <;> trivial
  · trivial
  · rw [hcall] at h
    rcases hnext with rfl | rfl | ⟨key, rfl⟩
    · exact h
    · trivial
    · exact h
  · trivial
  · trivial
  · trivial
  · exact readPending_of_sparesMembers hspares

theorem readPending_first (r : Request) : (first env s r).ReadPending := by
  rcases first_cases env s r with ⟨op, role, -, hfirst⟩ |
    ⟨user, invite, -, hpending, hfirst⟩ | ⟨user, role, hfirst⟩ | hspares
  · rw [hfirst]
    trivial
  · rw [hfirst]
    exact hpending
  · rw [hfirst]
    trivial
  · exact readPending_of_sparesMembers hspares

/-! ### What becomes of the bars -/

omit [CaseMapping] in
theorem BarsHold.shrink (h : BarsHold s) (hbars : ∀ b ∈ s'.bars, b ∈ s.bars)
    (hmembers : s'.members = s.members) : BarsHold s' := by
  intro b hb m hm
  rw [hmembers] at hm
  exact h b (hbars b hb) m hm

omit [CaseMapping] in
/-- **A change keeps the bars**: it bars whom it suspends or removes. -/
theorem BarsHold.change (h : BarsHold s) (hbars : s'.bars = op.barsAfter s.bars)
    (hmembers : s'.members = op.apply s.members) : BarsHold s' := by
  intro b hb m hm hkey
  rw [hbars] at hb
  rw [hmembers] at hm
  unfold MemberOp.barsAfter at hb
  unfold MemberOp.apply at hm
  have hothers : b ∈ s.bars.filter (·.key ≠ op.target) → b ∈ s.bars ∧ b.key ≠ op.target := by
    intro hmem
    obtain ⟨hold, hne⟩ := List.mem_filter.mp hmem
    exact ⟨hold, of_decide_eq_true hne⟩
  cases hchange : op.change with
  | update patch =>
    obtain ⟨role, status⟩ := patch
    rw [hchange] at hb hm
    rcases Memberships.mem_update.mp hm with ⟨r, hr, hrkey, rfl⟩ | ⟨hold, hne⟩
    · -- The target: its status is that of the patch, if that has one.
      have hbkey : b.key = op.target := hkey.symm.trans hrkey
      cases status with
      | none => exact h b hb r hr hkey
      | some status =>
        cases status with
        | active => exact absurd hbkey (hothers hb).2
        | suspended | revoked => exact nofun
    · have hbar : b ∈ s.bars := by
        have hbkey : b.key ≠ op.target := fun heq => hne (hkey.trans heq)
        cases status with
        | none => exact hb
        | some status =>
          cases status with
          | active => exact (hothers hb).1
          | suspended | revoked =>
            rcases List.mem_cons.mp hb with rfl | hmem
            · exact absurd rfl hbkey
            · exact (hothers hmem).1
      exact h b hbar m hold hkey
  | remove =>
    rw [hchange] at hb hm
    obtain ⟨hold, hne⟩ := Memberships.mem_erase.mp hm
    have hbar : b ∈ s.bars := by
      have hbkey : b.key ≠ op.target := fun heq => hne (hkey.trans heq)
      dsimp only at hb
      split at hb
      · exact hb
      · rcases List.mem_cons.mp hb with rfl | hmem
        · exact absurd rfl hbkey
        · exact (hothers hmem).1
    exact h b hbar m hold hkey

omit [CaseMapping] in
/-- A new member who is not barred keeps the bars. -/
theorem BarsHold.insert {m : Membership} (h : BarsHold s) (hbars : s'.bars = s.bars)
    (hmembers : s'.members = s.members.insert m)
    (hfree : s.members.find m.key = none → Unbarred s m.key) : BarsHold s' := by
  intro b hb r hr hkey
  rw [hbars] at hb
  rw [hmembers] at hr
  rcases Memberships.mem_insert.mp hr with hold | ⟨hnew, rfl⟩
  · exact h b hb r hold hkey
  · have hnone : s.members.find r.key = none := by
      cases hfind : s.members.find r.key with
      | none => rfl
      | some x =>
        obtain ⟨hx, hxkey⟩ := Memberships.find_eq_some.mp hfind
        exact absurd hxkey (hnew x hx)
    exact absurd hkey.symm (hfree hnone b hb)

omit [CaseMapping] in
theorem BarsHold.activate {key : MemberKey} (h : BarsHold s) (hbars : s'.bars = s.bars)
    (hmembers : s'.members = s.members.activate key) (hfree : Unbarred s key) : BarsHold s' := by
  intro b hb m hm hkey
  rw [hbars] at hb
  rw [hmembers] at hm
  rcases Memberships.mem_activate.mp hm with ⟨r, hr, hrkey, rfl⟩ | ⟨hold, -⟩
  · exact absurd (hkey.symm.trans hrkey) (hfree b hb)
  · exact h b hb m hold hkey

theorem mem_of_mem_barsAfterInvite {users : List User} {workspaceId : String} {address : Text}
    {bars : List Bar} {b : Bar} (h : b ∈ barsAfterInvite users workspaceId address bars) :
    b ∈ bars :=
  List.mem_of_mem_filter h

/-! ### The invariant -/

/-- A statement writes members or grants only as a change, as a grant, or as a seed. -/
theorem Kept.move (h : Kept s) (heff : eff.sparesMembers = true ∨ ∃ key, eff = .lock key) :
    Kept ((eff.apply c s).moveTo c call) := by
  rcases heff with hspares | ⟨key, rfl⟩
  · cases eff with
    | quiet | mark => exact ⟨h.bars.shrink (fun _ hb => hb) rfl, h.grants⟩
    | issue | refresh =>
      exact ⟨h.bars.shrink (fun _ hb => mem_of_mem_barsAfterInvite hb) rfl, h.grants⟩
    | _ => cases hspares
  · exact ⟨h.bars.shrink (fun _ hb => hb) rfl, h.grants⟩

omit [CaseMapping] in
/-- A grant by an invitation whose status is the one that was read. -/
theorem Kept.grant {invite : Invitation} (h : Kept s) (hpending : invite.status = .pending)
    (hread : s.inviteStatus invite.id = some invite.status) :
    ∀ g ∈ s.grants ++ [⟨invite.id, s.inviteStatus invite.id⟩],
      g.status ≠ some .revoked ∧ g.status ≠ some .accepted := by
  intro g hg
  rcases List.mem_append.mp hg with hold | hnew
  · exact h.grants g hold
  · obtain rfl := List.mem_singleton.mp hnew
    change s.inviteStatus invite.id ≠ _ ∧ s.inviteStatus invite.id ≠ _
    rw [hread, hpending]
    exact ⟨nofun, nofun⟩

/-- **A statement keeps the guarantee.** -/
theorem Kept.next (h : Kept s) (hread : (s.calls c).ReadPending) (hclean : Clean env s (.next c))
    (hplan : plan env s c (s.calls c) = some (call, eff)) :
    Kept ((eff.apply c s).moveTo c call) := by
  rcases plan_cases hplan with ⟨op, roles, stage, -, htx⟩ | ⟨op, role, target, -, -, -, -, rfl⟩ |
    ⟨user, invite, -, rfl, -⟩ | ⟨user, invite, hcall, -, rfl⟩ | ⟨invite, key, hcall, -, rfl⟩ |
    ⟨user, role, hcall, -, rfl⟩ | ⟨-, hspares⟩
  · rcases planTx_cases htx with ⟨-, -, rfl⟩ | ⟨key, rows, -, -, -, rfl⟩ | ⟨-, -, rfl⟩ |
      ⟨fresh, -, -, -, rfl⟩ | ⟨-, -, -, rfl⟩ | ⟨target, -, -, -, rfl⟩ | ⟨-, rfl⟩
    · exact h.move (.inl rfl)
    · split
      · exact h.move (.inr ⟨key, rfl⟩)
      · exact h.move (.inl rfl)
    · exact h.move (.inl rfl)
    · exact h.move (.inl rfl)
    · exact h.move (.inl rfl)
    · exact ⟨h.bars.change rfl rfl, h.grants⟩
    · exact h.move (.inl rfl)
  · exact h.move (.inl rfl)
  · exact h.move (.inl rfl)
  · -- The insert of `acceptInvite`: it runs when the key is free.
    rw [hcall] at hread hplan
    simp only [Clean, hcall] at hclean
    have hfree : s.members.find (invite.workspaceId, user.membershipKey) = none := by
      simp only [plan] at hplan
      split at hplan
      · cases hplan
      · next hnone => exact Option.not_isSome_iff_eq_none.mp hnone
    obtain ⟨hbar, hstatus⟩ := hclean hfree
    exact ⟨h.bars.insert rfl rfl fun _ => hbar, h.grant hread hstatus⟩
  · -- Its update: there is a row to make active.
    rw [hcall] at hread hplan
    simp only [Clean, hcall] at hclean
    have hrow : s.members.find key ≠ none := by
      simp only [plan] at hplan
      split at hplan
      · cases hplan
      · split at hplan
        · cases hplan
        · next hsome => exact fun hnone => hsome (Option.isNone_iff_eq_none.mpr hnone)
    obtain ⟨hbar, hstatus⟩ := hclean hrow
    exact ⟨h.bars.activate rfl rfl hbar, h.grant hread hstatus⟩
  · simp only [Clean, hcall] at hclean
    exact ⟨h.bars.insert rfl rfl hclean, h.grants⟩
  · exact h.move (.inl hspares)

/-- **The invariant.** -/
structure RevivalInv (s : State) : Prop where
  read : ∀ c, (s.calls c).ReadPending
  kept : Kept s

/-- **A step keeps the invariant.** -/
theorem RevivalInv.step (h : RevivalInv s) (hclean : Clean env s l)
    (hstep : (system env).step s l = some s') : RevivalInv s' := by
  have hbars : ∀ {t : State}, t.members = s.members → t.bars = s.bars → BarsHold t :=
    fun hmembers hbars => h.kept.bars.shrink (fun _ hb => hbars ▸ hb) hmembers
  rcases step_cases hstep with ⟨c, r, rfl, -, rfl⟩ | ⟨c, call, eff, rfl, hplan, rfl⟩ |
    ⟨c, rfl, rfl⟩ | ⟨passed, rfl, rfl⟩ | ⟨users, rfl, rfl⟩
  · exact ⟨forall_update (readPending_first r) h.read, hbars rfl rfl, h.kept.grants⟩
  · refine ⟨fun c' => ?_, h.kept.next (h.read c) hclean hplan⟩
    change (Function.update (eff.apply c s).calls c call c').ReadPending
    rw [calls_apply]
    exact forall_update ((h.read c).next hplan) h.read c'
  · exact ⟨forall_update (p := Call.ReadPending) trivial h.read, hbars rfl rfl, h.kept.grants⟩
  · exact ⟨h.read, hbars rfl rfl, h.kept.grants⟩
  · exact ⟨h.read, hbars rfl rfl, h.kept.grants⟩

/-- **Where nobody who is barred is let in, and invitations are as they were read, bars hold
and invitations give memberships only while they stand.** -/
theorem kept_of_clean {env : Env} {s : State} (h : (system env).ReachableUnder (Clean env) s) :
    Kept s := by
  have hinv : RevivalInv s := by
    refine System.ReachableUnder.invariant ?_ (fun s l s' _ hs hc hstep => hs.step hc hstep) h
    rintro s ⟨hidle, -, -, hgrants, hbars⟩
    refine ⟨fun c => ?_, fun b hb m hm hkey hactive => ?_, fun g hg => ?_⟩
    · rw [hidle c]
      trivial
    · exact (hbars m hm).mp hactive b hb hkey.symm
    · rw [hgrants] at hg
      cases hg
  exact hinv.kept

end Run

/-! ### Dan is invited -/

/-- Whoever has an address at Acme is a member of it. -/
def seedingEnv : Env where
  tenancyEnabled := true
  accessList := [⟨[], true, "acme.test".toList, .member⟩]
  bootstrapWorkspaceId := "acme"
  bootstrapExists := true

/-- Ada invites Dan. -/
def inviteDan : Request :=
  .invite ⟨"acme", localUser "ada", "dan@acme.test".toList, none, "i1", "t1".toList⟩

def acceptDan : Request :=
  .acceptInvite (localUser "dan") "t1".toList

/-- Ada sets the status of Dan. -/
def setDan (status : MembershipStatus) : Request :=
  .member (updateMember "acme" (localUser "ada") "dan" ⟨none, some status⟩)

/-- Dan accepts, is suspended, and is made active again. -/
def takenBack : List Label :=
  List.flatten
    [[.call 0 inviteDan], List.replicate 3 (.next 0),
      [.call 1 acceptDan], List.replicate 3 (.next 1),
      [.call 2 (setDan .suspended)], List.replicate 6 (.next 2),
      [.call 3 (setDan .active)], List.replicate 6 (.next 3)]

/-- Dan is invited, becomes a member by signing in, and is suspended; then he accepts. -/
def revived : List Label :=
  List.flatten
    [[.call 0 inviteDan], List.replicate 3 (.next 0),
      [.call 1 (.signIn (localUser "dan")), .next 1, .call 2 (setDan .suspended)],
      List.replicate 6 (.next 2), [.call 3 acceptDan], List.replicate 3 (.next 3)]

/-- An invitation is revoked while it is accepted. -/
def revokedMeanwhile : List Label :=
  List.flatten
    [[.call 0 inviteDan], List.replicate 3 (.next 0),
      [.call 1 acceptDan, .next 1, .call 2 (.revokeInvite "acme" (localUser "ada") "i1"),
        .next 2, .next 2, .next 1]]

/-- **Dan accepts, is suspended, and Ada takes him back.** -/
theorem kept_of_clean_reactivated : ∃ s, Kept s ∧ s.grants = [⟨"i1", some .pending⟩] ∧
    s.members.isActive ("acme", "dan") = true := by
  have hrun : ((system plainEnv).execUnder (Clean plainEnv) adasStart takenBack).isSome = true :=
    rfl
  exact ⟨_, kept_of_clean (System.execUnder_reachable (.init adasStart_init.1)
    (Option.some_get hrun).symm), rfl, rfl⟩

/-- **Revived by an invitation.** Dan is suspended, and is active when he accepts. And an
invitation that is revoked while it is accepted gives a membership. -/
theorem revived_by_invitation :
    (∃ s, (system seedingEnv).Reachable s ∧ ¬ BarsHold s) ∧
      ∃ s, (system plainEnv).Reachable s ∧ ⟨"i1", some .revoked⟩ ∈ s.grants := by
  constructor
  · have hrun : ((system seedingEnv).exec adasStart revived).isSome = true := rfl
    obtain ⟨s, b, m, hreach, hb, hm, hkey, hactive⟩ : ∃ s b m, (system seedingEnv).Reachable s ∧
        b ∈ s.bars ∧ m ∈ s.members.rows ∧ m.key = b.key ∧ m.status = .active := by
      refine ⟨_, ⟨("acme", "dan"), .suspended⟩, ⟨"dan", "acme", .member, .active⟩,
        System.exec_reachable adasStart_init.1 (Option.some_get hrun).symm, ?_, ?_, rfl, rfl⟩
      · exact List.mem_cons_self
      · exact List.mem_of_getLast? rfl
    exact ⟨s, hreach, fun hbars => hbars b hb m hm hkey hactive⟩
  · have hrun : ((system plainEnv).exec adasStart revokedMeanwhile).isSome = true := rfl
    exact ⟨_, System.exec_reachable adasStart_init.1 (Option.some_get hrun).symm,
      List.mem_cons_self⟩

end Workspaces
end EmailOps
