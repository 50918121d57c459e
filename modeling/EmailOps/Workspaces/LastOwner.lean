import EmailOps.Workspaces.Protocol

/-!
# The last owner

A workspace that has an active owner should keep one, whatever calls run at the same time. A
change that takes an owner away counts the owners first, in a transaction that locks their
rows.

* `Serial` says of a run that the lock statement of a transaction, when it returns, has locked
  every active owner there is then. `SELECT … FOR UPDATE` does not see to it: who becomes an
  owner while it waits is not among the rows that it found.
* `Inv` is the invariant of such runs: one transaction at a time is past its lock statement,
  and it holds the row of an active owner, whom only it can take away.
* `owner_stands` is the result, and `stranded_without_owner` a run that is not serial.
-/

namespace EmailOps
namespace Workspaces

open Framework

/-- The workspace has an active owner. -/
def OwnerStands (workspaceId : String) (s : State) : Prop :=
  ∃ m ∈ s.members.rows, m.isActiveOwner workspaceId = true

instance (workspaceId : String) (s : State) : Decidable (OwnerStands workspaceId s) :=
  inferInstanceAs (Decidable (∃ m ∈ s.members.rows, m.isActiveOwner workspaceId = true))

/-- Is the call in a transaction on the workspace, past its lock statement? -/
def Call.inside (workspaceId : String) : Call → Bool
  | .tx op _ .locked | .tx op _ .counting | .tx op _ .cleared => op.workspaceId = workspaceId
  | _ => false

/-- When a lock statement on the workspace returns, every active owner is locked. -/
def Serial (workspaceId : String) (s : State) : Label → Prop
  | .next c =>
    match s.calls c with
    | .tx op _ (.locking []) =>
      op.workspaceId = workspaceId → ∀ key ∈ s.ownerKeys workspaceId, (c, key) ∈ s.locks
    | _ => True
  | _ => True

instance (workspaceId : String) (s : State) (l : Label) : Decidable (Serial workspaceId s l) := by
  induction l using Label.casesOn with
  | next c =>
    dsimp only [Serial]
    generalize s.calls c = call
    induction call using Call.casesOn with
    | tx _ _ stage =>
      induction stage using TxStage.casesOn with
      | locking rows =>
        induction rows using List.casesOn with
        | nil => infer_instance
        | cons _ _ => exact .isTrue trivial
      | _ => exact .isTrue trivial
    | _ => exact .isTrue trivial
  | _ => exact .isTrue trivial

/-! ### What becomes of the owners -/

/-- Who is an active owner stays one. -/
def Grows (workspaceId : String) (s s' : State) : Prop :=
  ∀ m ∈ s.members.rows, m.isActiveOwner workspaceId = true →
    ∃ m' ∈ s'.members.rows, m'.key = m.key ∧ m'.isActiveOwner workspaceId = true

section Owners

variable {workspaceId : String} {s s' : State}

theorem Grows.of_eq (h : s'.members = s.members) : Grows workspaceId s s' :=
  fun m hm howner => ⟨m, h ▸ hm, rfl, howner⟩

theorem isActiveOwner_iff {m : Membership} :
    m.isActiveOwner workspaceId = true ↔
      m.workspaceId = workspaceId ∧ m.role = .owner ∧ m.status = .active := by
  simp [Membership.isActiveOwner, and_assoc]

theorem key_mem_ownerKeys {m : Membership} (hm : m ∈ s.members.rows)
    (howner : m.isActiveOwner workspaceId = true) : m.key ∈ s.ownerKeys workspaceId :=
  List.mem_map_of_mem (List.mem_filter.mpr ⟨hm, howner⟩)

/-- Two owners are counted where one is left besides the target. -/
theorem exists_other_owner {target : MemberKey}
    (h : ¬ s.members.activeOwnerCount workspaceId ≤ 1) :
    ∃ m ∈ s.members.rows, m.isActiveOwner workspaceId = true ∧ m.key ≠ target := by
  by_contra hnone
  push Not at hnone
  -- Otherwise every owner has the key of the target, and keys are unique.
  refine h ?_
  have hkeys : ((s.members.activeOwners workspaceId).map (·.key)).Nodup :=
    s.members.keys.sublist (List.filter_sublist.map _)
  have hsub : (s.members.activeOwners workspaceId).map (·.key) ⊆ [target] := by
    intro key hkey
    obtain ⟨m, hm, rfl⟩ := List.mem_map.mp hkey
    obtain ⟨hrow, howner⟩ := List.mem_filter.mp hm
    exact List.mem_singleton.mpr (hnone m hrow howner)
  have hlength := hkeys.length_le_of_subset hsub
  rwa [List.length_map] at hlength

variable [CaseMapping] {c : ℕ} {eff : Effect}

/-- **Only a change takes owners away**, and from its own workspace. -/
theorem Grows.apply (h : ∀ op target, eff = .change op target → op.workspaceId ≠ workspaceId) :
    Grows workspaceId s (eff.apply c s) := by
  intro m hm howner
  obtain ⟨hworkspace, hrole, hstatus⟩ := isActiveOwner_iff.mp howner
  cases eff with
  | quiet | lock | issue | refresh | mark => exact ⟨m, hm, rfl, howner⟩
  | join | seed => exact ⟨m, Memberships.mem_insert.mpr (.inl hm), rfl, howner⟩
  | revive invite key =>
    by_cases hkey : m.key = key
    · refine ⟨{ m with status := .active }, ?_, rfl, isActiveOwner_iff.mpr ⟨hworkspace, hrole, rfl⟩⟩
      exact Memberships.mem_activate.mpr (.inl ⟨m, hm, hkey, rfl⟩)
    · exact ⟨m, Memberships.mem_activate.mpr (.inr ⟨hm, hkey⟩), rfl, howner⟩
  | change op target =>
    have hne : m.key ≠ op.target := by
      intro hkey
      exact h op target rfl ((Prod.mk.inj hkey).1.symm.trans hworkspace)
    refine ⟨m, ?_, rfl, howner⟩
    change m ∈ (op.apply s.members).rows
    unfold MemberOp.apply
    split
    · exact Memberships.mem_update.mpr (.inr ⟨hm, hne⟩)
    · exact Memberships.mem_erase.mpr ⟨hm, hne⟩

omit [CaseMapping] in
/-- A change that leaves an owner besides its target, or leaves its target an owner, leaves
one. -/
theorem OwnerStands.change {op : MemberOp} (hstands : OwnerStands workspaceId s)
    (h : op.change.dropsOwner = false ∨ ∃ m ∈ s.members.rows,
      m.isActiveOwner workspaceId = true ∧ m.key ≠ op.target) :
    ∃ m ∈ (op.apply s.members).rows, m.isActiveOwner workspaceId = true := by
  have hother : ∀ m ∈ s.members.rows, m.key ≠ op.target → m ∈ (op.apply s.members).rows := by
    intro m hm hne
    unfold MemberOp.apply
    split
    · exact Memberships.mem_update.mpr (.inr ⟨hm, hne⟩)
    · exact Memberships.mem_erase.mpr ⟨hm, hne⟩
  rcases h with hkeeps | ⟨m, hm, howner, hne⟩
  · obtain ⟨m, hm, howner⟩ := hstands
    by_cases hkey : m.key = op.target
    · -- The target is the owner, and the patch leaves it one.
      cases hchange : op.change with
      | remove =>
        rw [hchange] at hkeeps
        cases hkeeps
      | update patch =>
        rw [hchange] at hkeeps
        obtain ⟨hworkspace, hrole, hstatus⟩ := isActiveOwner_iff.mp howner
        refine ⟨{ m with role := patch.role.getD m.role, status := patch.status.getD m.status },
          ?_, isActiveOwner_iff.mpr ⟨hworkspace, ?_, ?_⟩⟩
        · unfold MemberOp.apply
          rw [hchange]
          exact Memberships.mem_update.mpr (.inl ⟨m, hm, hkey, rfl⟩)
        · cases hpatch : patch.role with
          | none => exact hrole
          | some role => simpa [MemberChange.dropsOwner, hpatch] using (Bool.or_eq_false_iff.mp hkeeps).1
        · cases hpatch : patch.status with
          | none => exact hstatus
          | some status => simpa [MemberChange.dropsOwner, hpatch] using (Bool.or_eq_false_iff.mp hkeeps).2
    · exact ⟨m, hother m hm hkey, howner⟩
  · exact ⟨m, hother m hm hne, howner⟩

end Owners

/-! ### One transaction at a time -/

/-- No row is locked twice. -/
def Exclusive (s : State) : Prop :=
  ∀ c c' key, (c, key) ∈ s.locks → (c', key) ∈ s.locks → c = c'

/-- The call holds the row of an active owner. -/
def Guards (workspaceId : String) (s : State) (c : ℕ) : Prop :=
  ∃ m ∈ s.members.rows, m.isActiveOwner workspaceId = true ∧ (c, m.key) ∈ s.locks

/-- A call that is about to write leaves an owner. -/
def Spares (workspaceId : String) (s : State) : Call → Prop
  | .tx op _ .cleared =>
    op.workspaceId = workspaceId → op.change.dropsOwner = false ∨
      ∃ m ∈ s.members.rows, m.isActiveOwner workspaceId = true ∧ m.key ≠ op.target
  | _ => True

/-- **The invariant.** At most one transaction on the workspace is past its lock statement.
It holds the row of an active owner, and leaves an owner when it writes. -/
structure Inv (workspaceId : String) (s : State) : Prop where
  stands : OwnerStands workspaceId s
  exclusive : Exclusive s
  alone : ∀ c c', (s.calls c).inside workspaceId = true →
    (s.calls c').inside workspaceId = true → c = c'
  guards : ∀ c, (s.calls c).inside workspaceId = true → Guards workspaceId s c
  spares : ∀ c, Spares workspaceId s (s.calls c)

section Invariant

variable {workspaceId : String} {s s' : State} {c : ℕ} {call : Call}

theorem Grows.stands (hgrow : Grows workspaceId s s') (h : OwnerStands workspaceId s) :
    OwnerStands workspaceId s' := by
  obtain ⟨m, hm, howner⟩ := h
  obtain ⟨m', hm', -, howner'⟩ := hgrow m hm howner
  exact ⟨m', hm', howner'⟩

theorem Grows.guards (hgrow : Grows workspaceId s s')
    (hlocks : ∀ key, (c, key) ∈ s.locks → (c, key) ∈ s'.locks) (h : Guards workspaceId s c) :
    Guards workspaceId s' c := by
  obtain ⟨m, hm, howner, hlock⟩ := h
  obtain ⟨m', hm', hkey, howner'⟩ := hgrow m hm howner
  exact ⟨m', hm', howner', hlocks m'.key (hkey ▸ hlock)⟩

theorem Grows.spares (hgrow : Grows workspaceId s s') (h : Spares workspaceId s call) :
    Spares workspaceId s' call := by
  unfold Spares at h ⊢
  split
  · intro hworkspace
    refine (h hworkspace).imp id ?_
    rintro ⟨m, hm, howner, hne⟩
    obtain ⟨m', hm', hkey, howner'⟩ := hgrow m hm howner
    exact ⟨m', hm', howner', hkey ▸ hne⟩
  · trivial

/-- What a call must show when it moves on: it is still alone and guarded when it is past its
lock statement, and leaves an owner when it is about to write. -/
theorem Inv.move (h : Inv workspaceId s) (hgrow : Grows workspaceId s s')
    (hcalls : s'.calls = Function.update s.calls c call) (hexclusive : Exclusive s')
    (hlocks : ∀ c' key, c' ≠ c → (c', key) ∈ s.locks → (c', key) ∈ s'.locks)
    (hinside : call.inside workspaceId = true →
      (∀ c', (s.calls c').inside workspaceId = true → c' = c) ∧ Guards workspaceId s' c)
    (hspares : Spares workspaceId s' call) : Inv workspaceId s' where
  stands := hgrow.stands h.stands
  exclusive := hexclusive
  alone := by
    rw [hcalls]
    intro c₁ c₂ h₁ h₂
    rcases update_cases (Call.inside workspaceId · = true) h₁ with ⟨hc₁, h₁⟩ | ⟨-, h₁⟩
    · rcases update_cases (Call.inside workspaceId · = true) h₂ with ⟨hc₂, -⟩ | ⟨-, h₂⟩
      · rw [hc₁, hc₂]
      · rw [hc₁, (hinside h₁).1 c₂ h₂]
    · rcases update_cases (Call.inside workspaceId · = true) h₂ with ⟨hc₂, h₂⟩ | ⟨-, h₂⟩
      · rw [hc₂, (hinside h₂).1 c₁ h₁]
      · exact h.alone c₁ c₂ h₁ h₂
  guards := by
    rw [hcalls]
    intro c' h'
    rcases update_cases (Call.inside workspaceId · = true) h' with ⟨rfl, hmoved⟩ | ⟨hc, h'⟩
    · exact (hinside hmoved).2
    · exact hgrow.guards (fun key => hlocks c' key hc) (h.guards c' h')
  spares := by
    rw [hcalls]
    intro c'
    by_cases hc : c' = c
    · rw [hc, Function.update_self]
      exact hspares
    · rw [Function.update_of_ne hc]
      exact hgrow.spares (h.spares c')

theorem spares_of_outside (h : call.inside workspaceId = false) : Spares workspaceId s call := by
  unfold Spares
  split
  · next op roles =>
    intro hworkspace
    simp [Call.inside, hworkspace] at h
  · trivial

theorem mem_locks_moveTo {lock : ℕ × MemberKey} :
    lock ∈ (s.moveTo c call).locks ↔ lock ∈ s.locks ∧ (call.isEnded = true → lock.1 ≠ c) := by
  unfold State.moveTo
  dsimp only
  split
  · next hended => simp [hended]
  · next hended => simp [hended]

theorem Exclusive.moveTo (h : Exclusive s) : Exclusive (s.moveTo c call) := by
  intro c₁ c₂ key h₁ h₂
  exact h c₁ c₂ key (mem_locks_moveTo.mp h₁).1 (mem_locks_moveTo.mp h₂).1

/-- A call that moves on without being past its lock statement keeps the invariant, whatever
it writes that is no change of the workspace. -/
theorem Inv.move_outside (h : Inv workspaceId s) (hgrow : Grows workspaceId s s')
    (hcalls : s'.calls = s.calls) (hlocks : s'.locks = s.locks)
    (houtside : call.inside workspaceId = false) : Inv workspaceId (s'.moveTo c call) := by
  have hexclusive : Exclusive s' := by
    unfold Exclusive
    rw [hlocks]
    exact h.exclusive
  have hmoved : (s'.moveTo c call).calls = Function.update s.calls c call := by
    unfold State.moveTo
    rw [hcalls]
  refine h.move hgrow hmoved hexclusive.moveTo ?_ ?_ (spares_of_outside houtside)
  · intro c' key hne hlock
    exact mem_locks_moveTo.mpr ⟨hlocks ▸ hlock, fun _ => hne⟩
  · intro hinside
    rw [houtside] at hinside
    cases hinside

end Invariant

section Run

variable [CaseMapping] {env : Env} {workspaceId : String} {s s' : State} {l : Label} {c : ℕ}
  {eff : Effect}

@[simp] theorem calls_apply : (eff.apply c s).calls = s.calls := by
  cases eff <;> rfl

theorem locks_apply (h : ∀ key, eff ≠ .lock key) : (eff.apply c s).locks = s.locks := by
  cases eff with
  | lock key => exact absurd rfl (h key)
  | _ => rfl

omit [CaseMapping] in
theorem inside_of_sparesMembers {call : Call} (h : call.sparesMembers = true) :
    call.inside workspaceId = false := by
  cases call with
  | tx => cases h
  | _ => rfl

theorem Inv.step_outside {call : Call} (h : Inv workspaceId s)
    (hchange : ∀ op target, eff ≠ .change op target) (hlock : ∀ key, eff ≠ .lock key)
    (houtside : call.inside workspaceId = false) :
    Inv workspaceId ((eff.apply c s).moveTo c call) :=
  h.move_outside (.apply fun op target heff => absurd heff (hchange op target)) calls_apply
    (locks_apply hlock) houtside

omit [CaseMapping] in
/-- A lock statement that comes to a free row keeps the invariant. -/
theorem Inv.step_lock {op : MemberOp} {roles : RolesRead} {rows : List MemberKey} {key : MemberKey}
    (h : Inv workspaceId s) (hfree : s.blocked c key = false) :
    Inv workspaceId
      (({ s with locks := s.locks ++ [(c, key)] } : State).moveTo c (.tx op roles (.locking rows))) := by
  have hmine : ∀ c', (c', key) ∈ s.locks → c' = c := by
    intro c' hlock
    by_contra hne
    have hblocked : s.blocked c key = true :=
      List.any_eq_true.mpr ⟨(c', key), hlock, by simpa using hne⟩
    rw [hfree] at hblocked
    cases hblocked
  refine h.move (c := c) (.of_eq rfl) rfl ?_ ?_ nofun trivial
  · refine Exclusive.moveTo fun c₁ c₂ k h₁ h₂ => ?_
    rcases List.mem_append.mp h₁ with hold₁ | hnew₁
    · rcases List.mem_append.mp h₂ with hold₂ | hnew₂
      · exact h.exclusive c₁ c₂ k hold₁ hold₂
      · obtain ⟨rfl, rfl⟩ := Prod.mk.inj (List.mem_singleton.mp hnew₂)
        exact hmine c₁ hold₁
    · obtain ⟨rfl, rfl⟩ := Prod.mk.inj (List.mem_singleton.mp hnew₁)
      rcases List.mem_append.mp h₂ with hold₂ | hnew₂
      · exact (hmine c₂ hold₂).symm
      · exact (Prod.mk.inj (List.mem_singleton.mp hnew₂)).1.symm
  · exact fun c' k _ hlock => mem_locks_moveTo.mpr ⟨List.mem_append_left _ hlock, nofun⟩

/-- **A statement of a transaction on the workspace keeps the invariant**, if its lock
statement is serial. -/
theorem Inv.step_tx {op : MemberOp} {roles : RolesRead} {stage : TxStage} {call : Call}
    (h : Inv workspaceId s) (hcall : s.calls c = .tx op roles stage)
    (hworkspace : op.workspaceId = workspaceId) (hserial : Serial workspaceId s (.next c))
    (hplan : planTx s c op roles stage = some (call, eff)) :
    Inv workspaceId ((eff.apply c s).moveTo c call) := by
  -- A call that goes on past its lock statement was alone there and keeps its row.
  have hgoes : ∀ stage', (s.calls c).inside workspaceId = true →
      Spares workspaceId s (.tx op roles stage') →
      Inv workspaceId (s.moveTo c (.tx op roles stage')) := by
    intro stage' hinside hspares
    refine h.move (c := c) (.of_eq rfl) rfl h.exclusive.moveTo ?_ ?_ hspares
    · exact fun c' key _ hlock => mem_locks_moveTo.mpr ⟨hlock, nofun⟩
    · refine fun _ => ⟨fun c' hc' => h.alone c' c hc' hinside, ?_⟩
      obtain ⟨m, hm, howner, hlock⟩ := h.guards c hinside
      exact ⟨m, hm, howner, mem_locks_moveTo.mpr ⟨hlock, nofun⟩⟩
  rcases planTx_cases hplan with ⟨rfl, rfl, rfl⟩ | ⟨key, rows, rfl, hfree, rfl, rfl⟩ |
    ⟨rfl, rfl, rfl⟩ | ⟨fresh, rfl, hfresh, rfl, rfl⟩ | ⟨rfl, hmany, rfl, rfl⟩ |
    ⟨target, rfl, htarget, rfl, rfl⟩ | ⟨rfl, rfl⟩
  · exact h.step_outside (fun _ _ => nofun) (fun _ => nofun) rfl
  · split
    · exact h.step_lock hfree
    · exact h.step_outside (fun _ _ => nofun) (fun _ => nofun) rfl
  · -- The lock statement returns. It holds the row of whoever is guarded by another.
    have hlocked : ∀ key ∈ s.ownerKeys workspaceId, (c, key) ∈ s.locks := by
      simp only [Serial, hcall] at hserial
      exact hserial hworkspace
    refine h.move (c := c) (.of_eq rfl) rfl h.exclusive.moveTo ?_ (fun _ => ⟨?_, ?_⟩) trivial
    · exact fun c' key _ hlock => mem_locks_moveTo.mpr ⟨hlock, nofun⟩
    · intro c' hc'
      obtain ⟨m, hm, howner, hlock⟩ := h.guards c' hc'
      exact h.exclusive c' c m.key hlock (hlocked m.key (key_mem_ownerKeys hm howner))
    · obtain ⟨m, hm, howner⟩ := h.stands
      exact ⟨m, hm, howner,
        mem_locks_moveTo.mpr ⟨hlocked m.key (key_mem_ownerKeys hm howner), nofun⟩⟩
  · have hinside : (s.calls c).inside workspaceId = true := by
      rw [hcall]
      exact decide_eq_true hworkspace
    refine hgoes _ hinside ?_
    split
    · trivial
    · next hkeeps =>
      intro _
      by_cases hdrops : op.change.dropsOwner = true
      · -- The target is no active owner, so that one stands besides.
        obtain ⟨m, hm, howner⟩ := h.stands
        refine .inr ⟨m, hm, howner, fun hkey => hkeeps ?_⟩
        obtain ⟨hrow, hfreshkey⟩ := Memberships.find_eq_some.mp hfresh
        obtain rfl := Memberships.eq_of_key_eq hm hrow (hkey.trans hfreshkey.symm)
        obtain ⟨-, hrole, hstatus⟩ := isActiveOwner_iff.mp howner
        simp [MemberOp.losesOwner, hrole, hstatus, hdrops]
      · exact .inl (Bool.not_eq_true _ ▸ hdrops)
  · have hinside : (s.calls c).inside workspaceId = true := by
      rw [hcall]
      exact decide_eq_true hworkspace
    exact hgoes _ hinside fun _ => .inr (exists_other_owner (hworkspace ▸ hmany))
  · -- The write, after which nobody is past the lock statement.
    have hinside : (s.calls c).inside workspaceId = true := by
      rw [hcall]
      exact decide_eq_true hworkspace
    have hleft : ∀ c', (Function.update s.calls c Call.ended c').inside workspaceId = false := by
      intro c'
      by_cases hc : c' = c
      · rw [hc, Function.update_self]
        rfl
      · rw [Function.update_of_ne hc]
        exact Bool.eq_false_iff.mpr fun hc' => hc (h.alone c' c hc' hinside)
    have hspares := h.spares c
    rw [hcall] at hspares
    exact
      { stands := h.stands.change (hspares hworkspace)
        exclusive := Exclusive.moveTo (s := Effect.apply c s (.change op target)) h.exclusive
        alone := fun c₁ _ h₁ _ => absurd ((hleft c₁).symm.trans h₁) Bool.false_ne_true
        guards := fun c' h' => absurd ((hleft c').symm.trans h') Bool.false_ne_true
        spares := fun c' => spares_of_outside (hleft c') }
  · exact h.step_outside (fun _ _ => nofun) (fun _ => nofun) rfl

/-- **A step keeps the invariant.** -/
theorem Inv.step (h : Inv workspaceId s) (hserial : Serial workspaceId s l)
    (hstep : (system env).step s l = some s') : Inv workspaceId s' := by
  rcases step_cases hstep with ⟨c, r, rfl, hidle, rfl⟩ | ⟨c, call, eff, rfl, hplan, rfl⟩ |
    ⟨c, rfl, rfl⟩ | ⟨passed, rfl, rfl⟩ | ⟨users, rfl, rfl⟩
  · -- No call is past a lock statement after its first statement.
    refine h.move_outside (.of_eq rfl) rfl rfl ?_
    rcases first_cases env s r with ⟨op, role, -, hfirst⟩ |
      ⟨user, invite, -, -, hfirst⟩ | ⟨user, role, hfirst⟩ | hspares
    · rw [hfirst]
      rfl
    · rw [hfirst]
      rfl
    · rw [hfirst]
      rfl
    · exact inside_of_sparesMembers hspares
  · rcases plan_cases hplan with ⟨op, roles, stage, hcall, htx⟩ |
      ⟨op, role, target, -, -, -, rfl, rfl⟩ | ⟨user, invite, -, rfl, hnext⟩ |
      ⟨user, invite, -, rfl, rfl⟩ | ⟨invite, key, -, rfl, rfl⟩ | ⟨user, role, -, rfl, rfl⟩ |
      ⟨hcall, heff⟩
    · by_cases hworkspace : op.workspaceId = workspaceId
      · exact h.step_tx hcall hworkspace hserial htx
      · have houtside : ∀ stage', (Call.tx op roles stage').inside workspaceId = false := by
          intro stage'
          cases stage' <;> simp [Call.inside, hworkspace]
        rcases planTx_cases htx with ⟨-, rfl, rfl⟩ | ⟨key, rows, -, hfree, rfl, rfl⟩ |
          ⟨-, rfl, rfl⟩ | ⟨fresh, -, -, rfl, rfl⟩ | ⟨-, -, rfl, rfl⟩ | ⟨target, -, -, rfl, rfl⟩ |
          ⟨rfl, rfl⟩
        · exact h.step_outside (fun _ _ => nofun) (fun _ => nofun) (houtside _)
        · split
          · exact h.step_lock hfree
          · exact h.step_outside (fun _ _ => nofun) (fun _ => nofun) (houtside _)
        · exact h.step_outside (fun _ _ => nofun) (fun _ => nofun) (houtside _)
        · exact h.step_outside (fun _ _ => nofun) (fun _ => nofun) (houtside _)
        · exact h.step_outside (fun _ _ => nofun) (fun _ => nofun) (houtside _)
        · -- A change of another workspace.
          refine h.move_outside (.apply fun op' target' heff => ?_) calls_apply
            (locks_apply fun _ => nofun) rfl
          obtain ⟨rfl, -⟩ := Effect.change.inj heff
          exact hworkspace
        · exact h.step_outside (fun _ _ => nofun) (fun _ => nofun) rfl
    · exact h.step_outside (fun _ _ => nofun) (fun _ => nofun) rfl
    · refine h.step_outside (fun _ _ => nofun) (fun _ => nofun) ?_
      rcases hnext with rfl | rfl | ⟨key, rfl⟩ <;> rfl
    · exact h.step_outside (fun _ _ => nofun) (fun _ => nofun) rfl
    · exact h.step_outside (fun _ _ => nofun) (fun _ => nofun) rfl
    · exact h.step_outside (fun _ _ => nofun) (fun _ => nofun) rfl
    · refine h.step_outside (fun op target => ?_) (fun key => ?_) (inside_of_sparesMembers hcall)
      · rintro rfl
        cases heff
      · rintro rfl
        cases heff
  · exact h.move_outside (.of_eq rfl) rfl rfl rfl
  · exact ⟨h.stands, h.exclusive, h.alone, h.guards, h.spares⟩
  · exact ⟨h.stands, h.exclusive, h.alone, h.guards, h.spares⟩

/-- The protocol, begun in a workspace that has an active owner. -/
def ownedSystem (env : Env) (workspaceId : String) : System State Label where
  init s := (system env).init s ∧ OwnerStands workspaceId s
  step := step env

/-- **In a run whose lock statements are serial, the workspace keeps an active owner.** -/
theorem owner_stands {env : Env} {workspaceId : String} {s : State}
    (h : (ownedSystem env workspaceId).ReachableUnder (Serial workspaceId) s) :
    OwnerStands workspaceId s := by
  have hinv : Inv workspaceId s := by
    refine System.ReachableUnder.invariant ?_ ?_ h
    · rintro s ⟨⟨hidle, hlocks, -, -, -⟩, hstands⟩
      have houtside : ∀ c, (s.calls c).inside workspaceId = false := fun c => by
        rw [hidle c]
        rfl
      refine ⟨hstands, ?_, ?_, ?_, fun c => spares_of_outside (houtside c)⟩
      · intro c c' key hc
        rw [hlocks] at hc
        cases hc
      · exact fun c _ hc => absurd ((houtside c).symm.trans hc) Bool.false_ne_true
      · exact fun c hc => absurd ((houtside c).symm.trans hc) Bool.false_ne_true
    · intro s l s' _ hs hc hstep
      have hnext : (system env).step s l = some s' := hstep
      exact hs.step hc hnext
  exact hinv.stands

end Run

/-! ### Five calls at a time -/

/-- A user who is known by a local id. -/
def localUser (id : String) : User where
  id := id
  keycloakId := none
  email := id.toList ++ "@acme.test".toList

/-- Ada owns the workspace; Bob and Cleo are its admins. -/
def adasMembers : Memberships where
  rows := [⟨"ada", "acme", .owner, .active⟩, ⟨"bob", "acme", .admin, .active⟩,
    ⟨"cleo", "acme", .admin, .active⟩]
  keys := by decide

def adasStart : State where
  members := adasMembers
  invitations := []
  users := []
  now := 0
  locks := []
  calls _ := .idle
  commits := []
  bars := []
  grants := []

/-- No access list. -/
def plainEnv : Env := ⟨false, [], "", false⟩

theorem adasStart_init : (ownedSystem plainEnv "acme").init adasStart :=
  ⟨⟨fun _ => rfl, rfl, rfl, rfl, by decide⟩, by decide⟩

/-- A user sets the role of another. -/
def setRole (user target : String) (role : WorkspaceRole) : Request :=
  .member (updateMember "acme" (localUser user) target ⟨some role, none⟩)

/-- Ada makes Bob an owner, and then both resign at the same time. -/
def bothResign : List Label :=
  List.flatten
    [[.call 0 (setRole "ada" "bob" .owner)], List.replicate 6 (.next 0),
      [.call 1 (setRole "ada" "ada" .member), .call 2 (setRole "bob" "bob" .member),
        .next 1, .next 2, .next 1, .next 2],
      List.replicate 6 (.next 1), List.replicate 5 (.next 2)]

/-- **The workspace keeps an owner when two owners resign at the same time.** One of them
waits for the other, and is then the last. -/
theorem owner_stands_two_resign : ∃ s, OwnerStands "acme" s ∧
    s.members.rows.map (·.role) = [.member, .owner, .admin] := by
  have hrun : ((ownedSystem plainEnv "acme").execUnder (Serial "acme") adasStart
    bothResign).isSome = true := rfl
  exact ⟨_, owner_stands (System.execUnder_reachable (.init adasStart_init)
    (Option.some_get hrun).symm), rfl⟩

/-- A change of Cleo's role waits while the owners come and go. -/
def stranding : List Label :=
  List.flatten
    [ -- Ada makes Bob an owner, resigns, and makes Cleo a member.
      [.call 0 (setRole "ada" "bob" .owner), .next 0, .next 0,
        .call 1 (setRole "ada" "ada" .member), .next 1, .next 1,
        .call 2 (setRole "ada" "cleo" .member), .next 2, .next 2],
      List.replicate 4 (.next 0), List.replicate 5 (.next 1), List.replicate 2 (.next 2),
      -- Bob makes Cleo an owner.
      [.call 3 (setRole "bob" "cleo" .owner)], List.replicate 6 (.next 3),
      -- Two owners are counted, and Bob resigns.
      List.replicate 2 (.next 2), [.call 4 (setRole "bob" "bob" .member)],
      List.replicate 8 (.next 4), [.next 2]]

/-- **A workspace without an owner.** The change of Cleo's role waits for Ada's row, the only
one that it found. When it gets there Ada is no owner any more, and it goes on without a
lock; Bob resigns beside it. -/
theorem stranded_without_owner :
    ∃ s, (ownedSystem plainEnv "acme").Reachable s ∧ ¬ OwnerStands "acme" s := by
  have hrun : ((ownedSystem plainEnv "acme").exec adasStart stranding).isSome = true := rfl
  obtain ⟨s, hreach, hrows⟩ : ∃ s, (ownedSystem plainEnv "acme").Reachable s ∧
      s.members.activeOwners "acme" = [] :=
    ⟨_, System.exec_reachable adasStart_init (Option.some_get hrun).symm, rfl⟩
  refine ⟨s, hreach, ?_⟩
  rintro ⟨m, hm, howner⟩
  have hmem : m ∈ s.members.activeOwners "acme" := List.mem_filter.mpr ⟨hm, howner⟩
  rw [hrows] at hmem
  cases hmem

end Workspaces
end EmailOps
