import EmailOps.Framework.System
import EmailOps.Workspaces.Members

/-!
# Concurrent changes of the members

Any number of calls of `updateMember`, `removeMember`, `invite`, `revokeInvite`,
`acceptInvite` and of the seeding at sign-in, interleaved at their statements. Each statement
sees what is committed when it runs, as it does under `READ COMMITTED`.

The transaction of a change locks the rows of the active owners, reads its target again,
counts the owners when the change loses one, and writes. `SELECT … FOR UPDATE` finds its rows
when it begins; it then comes to them one after the other, waits for a row that another
transaction has locked, and keeps those that are still selected.

* `plan` is the next statement of a call: where the call stands then, and its `Effect`.
* `State.commits`, `State.bars` and `State.grants` remember the changes that were committed,
  the members that an administrator suspended or removed, and the memberships that an
  invitation gave.
-/

namespace EmailOps
namespace Workspaces

open Framework Framework.Text

/-! ### Calls -/

/-- The roles that a change read before its transaction. -/
structure RolesRead where
  callerRole : WorkspaceRole
  targetRole : WorkspaceRole

/-- Where the transaction of a change stands. -/
inductive TxStage where
  /-- Before its first statement. -/
  | begun
  /-- `lockActiveOwners` runs: the rows that it selected and has not come to. -/
  | locking (rows : List MemberKey)
  | locked
  /-- The target, read under the lock, is an active owner and will not be one. -/
  | counting
  /-- There is only the write left. -/
  | cleared

/-- Where a call stands. -/
inductive Call where
  | idle
  | authorized (op : MemberOp) (callerRole : WorkspaceRole)
  | tx (op : MemberOp) (roles : RolesRead) (stage : TxStage)
  /-- `invite`, authorized. -/
  | inviting (r : InviteRequest)
  /-- There is a user under the address. -/
  | inviteKnown (r : InviteRequest) (existing : User)
  /-- No membership stands in the way. -/
  | invitable (r : InviteRequest)
  | issuing (r : InviteRequest) (pending : Option String) (expiresAt : ℕ)
  /-- `revokeInvite`, authorized. -/
  | revoking (workspaceId inviteId : String)
  | revokingPending (inviteId : String)
  /-- The invitation was read, pending and the caller's. -/
  | accepting (user : User) (invite : Invitation)
  | expiring (inviteId : String)
  /-- The caller has no membership. -/
  | joining (user : User) (invite : Invitation)
  /-- The caller has a membership that is not active. -/
  | reviving (invite : Invitation) (key : MemberKey)
  /-- The membership is there, the invitation is not marked yet. -/
  | granted (invite : Invitation)
  /-- The user is on the access list, and has no membership. -/
  | seeding (user : User) (role : WorkspaceRole)
  | ended

/-- Has the call returned or thrown? -/
def Call.isEnded : Call → Bool
  | .ended => true
  | _ => false

/-- Is the call over, or one that writes an invitation next and no membership after? -/
def Call.sparesMembers : Call → Bool
  | .inviting _ | .inviteKnown _ _ | .invitable _ | .issuing _ _ _ | .revoking _ _
  | .revokingPending _ | .expiring _ | .granted _ | .ended => true
  | _ => false

inductive Request where
  | member (op : MemberOp)
  | invite (r : InviteRequest)
  | revokeInvite (workspaceId : String) (user : User) (inviteId : String)
  | acceptInvite (user : User) (token : Text)
  /-- `ensureSeededMembership`. -/
  | signIn (user : User)

/-! ### The state -/

/-- A change that was committed, with what was committed before of the caller's role and the
target. -/
structure Commit where
  op : MemberOp
  callerRole : Option WorkspaceRole
  target : Membership

inductive BarKind where
  | suspended | removed
  deriving DecidableEq

/-- An administrator has suspended or removed the member, and has not taken it back. -/
structure Bar where
  key : MemberKey
  kind : BarKind
  deriving DecidableEq

/-- An invitation gave a membership; how it stood by then. -/
structure Grant where
  inviteId : String
  status : Option InvitationStatus
  deriving DecidableEq

structure State where
  members : Memberships
  invitations : List Invitation
  users : List User
  now : ℕ
  /-- The rows that are locked, with the call whose transaction has locked them. -/
  locks : List (ℕ × MemberKey)
  calls : ℕ → Call
  commits : List Commit
  bars : List Bar
  grants : List Grant

/-- The settings of the service. -/
structure Env where
  tenancyEnabled : Bool
  accessList : List AccessRule
  bootstrapWorkspaceId : String
  bootstrapExists : Bool

/-- Has another transaction locked the row? -/
def State.blocked (s : State) (c : ℕ) (key : MemberKey) : Bool :=
  s.locks.any fun lock => lock.1 ≠ c && lock.2 = key

/-- The rows of the active owners. -/
def State.ownerKeys (s : State) (workspaceId : String) : List MemberKey :=
  (s.members.activeOwners workspaceId).map (·.key)

/-- Is the row that of an active owner? -/
def State.isActiveOwner (s : State) (key : MemberKey) : Bool :=
  (s.members.find key).any (·.isActiveOwner key.1)

/-- How an invitation stands. -/
def State.inviteStatus (s : State) (inviteId : String) : Option InvitationStatus :=
  (s.invitations.find? (·.id = inviteId)).map (·.status)

/-! ### Effects -/

/-- What a statement writes. -/
inductive Effect where
  | quiet
  | lock (key : MemberKey)
  /-- The write of a change, which commits it. -/
  | change (op : MemberOp) (target : Membership)
  /-- An invitation gives a new membership, or makes one active. -/
  | join (invite : Invitation) (m : Membership)
  | revive (invite : Invitation) (key : MemberKey)
  | seed (m : Membership)
  | issue (invite : Invitation)
  | refresh (workspaceId : String) (address : Text) (inviteId : String) (role : WorkspaceRole)
      (token : Text) (expiresAt : ℕ)
  | mark (inviteId : String) (status : InvitationStatus)

/-- Are there no memberships and no locks among what it writes? -/
def Effect.sparesMembers : Effect → Bool
  | .quiet | .issue _ | .refresh _ _ _ _ _ _ | .mark _ _ => true
  | _ => false

/-- The bars after a change. Whoever leaves is not removed. -/
def MemberOp.barsAfter (op : MemberOp) (bars : List Bar) : List Bar :=
  let others := bars.filter (·.key ≠ op.target)
  match op.change with
  | .update ⟨_, none⟩ => bars
  | .update ⟨_, some .active⟩ => others
  | .update ⟨_, some _⟩ => ⟨op.target, .suspended⟩ :: others
  | .remove => if op.isSelf then bars else ⟨op.target, .removed⟩ :: others

section Steps

variable [CaseMapping]

/-- The bars after an invitation: to invite the removed is to take the removal back. -/
def barsAfterInvite (users : List User) (workspaceId : String) (address : Text)
    (bars : List Bar) : List Bar :=
  bars.filter fun b => !(b.kind = .removed && b.key.1 = workspaceId &&
    users.any fun u => normalEmail u.email = address && u.callerKeys.contains b.key.2)

/-- Set how an invitation stands. -/
def markInvite (invitations : List Invitation) (inviteId : String) (status : InvitationStatus) :
    List Invitation :=
  invitations.map fun i => if i.id = inviteId then { i with status := status } else i

def Effect.apply (c : ℕ) (s : State) : Effect → State
  | .quiet => s
  | .lock key => { s with locks := s.locks ++ [(c, key)] }
  | .change op target =>
    { s with
      members := op.apply s.members
      commits := s.commits ++ [⟨op, s.members.resolveCallerRole op.workspaceId op.user, target⟩]
      bars := op.barsAfter s.bars }
  | .join invite m =>
    { s with
      members := s.members.insert m
      grants := s.grants ++ [⟨invite.id, s.inviteStatus invite.id⟩] }
  | .revive invite key =>
    { s with
      members := s.members.activate key
      grants := s.grants ++ [⟨invite.id, s.inviteStatus invite.id⟩] }
  | .seed m => { s with members := s.members.insert m }
  | .issue invite =>
    { s with
      invitations := s.invitations ++ [invite]
      bars := barsAfterInvite s.users invite.workspaceId invite.email s.bars }
  | .refresh workspaceId address inviteId role token expiresAt =>
    { s with
      invitations := s.invitations.map fun i =>
        if i.id = inviteId then { i with role := role, token := token, expiresAt := some expiresAt }
        else i
      bars := barsAfterInvite s.users workspaceId address s.bars }
  | .mark inviteId status => { s with invitations := markInvite s.invitations inviteId status }

/-! ### Statements -/

/-- Where a call stands after its first statement. -/
def first (env : Env) (s : State) : Request → Call
  | .member op =>
    match op.requireRole s.members with
    | some role => .authorized op role
    | none => .ended
  | .invite r =>
    match (s.members.resolveCallerRole r.workspaceId r.user).filter (roleAtLeast · .admin) with
    | some callerRole =>
      if roleRank callerRole < roleRank r.inviteRole then .ended
      else if r.address = [] || !r.address.contains '@' then .ended
      else .inviting r
    | none => .ended
  | .revokeInvite workspaceId user inviteId =>
    match (s.members.resolveCallerRole workspaceId user).filter (roleAtLeast · .admin) with
    | some _ => .revoking workspaceId inviteId
    | none => .ended
  | .acceptInvite user token =>
    if trim token = [] then .ended
    else
      match s.invitations.find? (·.token = trim token) with
      | none => .ended
      | some invite =>
        if invite.status ≠ .pending then .ended
        else if invite.expiresAt.any (· ≤ s.now) then .expiring invite.id
        else if normalEmail invite.email ≠ normalEmail user.email then .ended
        else .accepting user invite
  | .signIn user =>
    if !env.tenancyEnabled || s.members.rows.any (·.userKey = user.membershipKey) then .ended
    else
      match resolveUserAccess env.accessList user.email with
      | some role => if env.bootstrapExists then .seeding user role else .ended
      | none => .ended

/-- The next statement of a transaction. A statement that waits for a lock does not run. -/
def planTx (s : State) (c : ℕ) (op : MemberOp) (roles : RolesRead) :
    TxStage → Option (Call × Effect)
  | .begun => some (.tx op roles (.locking (s.ownerKeys op.workspaceId)), .quiet)
  | .locking (key :: rows) =>
    if s.blocked c key then none
    else
      some (.tx op roles (.locking rows), if s.isActiveOwner key then .lock key else .quiet)
  | .locking [] => some (.tx op roles .locked, .quiet)
  | .locked =>
    match s.members.find op.target with
    | none => some (.ended, .quiet)
    | some fresh =>
      some (.tx op roles (if op.losesOwner fresh then .counting else .cleared), .quiet)
  | .counting =>
    if s.members.activeOwnerCount op.workspaceId ≤ 1 then some (.ended, .quiet)
    else some (.tx op roles .cleared, .quiet)
  | .cleared =>
    if s.blocked c op.target then none
    else
      match s.members.find op.target with
      | none => some (.ended, .quiet)
      | some target => some (.ended, .change op target)

/-- The next statement of a call. -/
def plan (env : Env) (s : State) (c : ℕ) : Call → Option (Call × Effect)
  | .idle | .ended => none
  | .authorized op callerRole =>
    match s.members.find op.target with
    | none => some (.ended, .quiet)
    | some target =>
      if op.refused callerRole target.role then some (.ended, .quiet)
      else some (.tx op ⟨callerRole, target.role⟩ .begun, .quiet)
  | .tx op roles stage => planTx s c op roles stage
  | .inviting r =>
    match s.users.find? (·.email = r.address) with
    | some existing => some (.inviteKnown r existing, .quiet)
    | none => some (.invitable r, .quiet)
  | .inviteKnown r existing =>
    if s.members.rows.any fun m =>
        m.workspaceId = r.workspaceId && existing.callerKeys.contains m.userKey then
      some (.ended, .quiet)
    else some (.invitable r, .quiet)
  | .invitable r =>
    let pending := s.invitations.find? fun i =>
      i.workspaceId = r.workspaceId && i.email = r.address && i.status = .pending
    some (.issuing r (pending.map (·.id)) (s.now + inviteTtlMs), .quiet)
  | .issuing r (some inviteId) expiresAt =>
    if s.invitations.any fun i => i.id ≠ inviteId && i.token = r.newToken then
      some (.ended, .quiet)
    else
      some (.ended,
        .refresh r.workspaceId r.address inviteId r.inviteRole r.newToken expiresAt)
  | .issuing r none expiresAt =>
    if s.invitations.any fun i => i.id = r.newId || i.token = r.newToken then
      some (.ended, .quiet)
    else
      some (.ended,
        .issue ⟨r.newId, r.workspaceId, r.address, r.inviteRole, r.newToken, .pending,
          some expiresAt⟩)
  | .revoking workspaceId inviteId =>
    match s.invitations.find? fun i => i.id = inviteId && i.workspaceId = workspaceId with
    | some invite =>
      some (if invite.status = .pending then .revokingPending inviteId else .ended, .quiet)
    | none => some (.ended, .quiet)
  | .revokingPending inviteId => some (.ended, .mark inviteId .revoked)
  | .expiring inviteId => some (.ended, .mark inviteId .expired)
  | .accepting user invite =>
    match s.members.rows.find? fun m =>
        m.workspaceId = invite.workspaceId && user.callerKeys.contains m.userKey with
    | none => some (.joining user invite, .quiet)
    | some existing =>
      some (if existing.status = .active then .granted invite else .reviving invite existing.key,
        .quiet)
  | .joining user invite =>
    let m : Membership := ⟨user.membershipKey, invite.workspaceId, invite.role, .active⟩
    if (s.members.find m.key).isSome then some (.ended, .quiet)
    else some (.granted invite, .join invite m)
  | .reviving invite key =>
    if s.blocked c key then none
    else if (s.members.find key).isNone then some (.ended, .quiet)
    else some (.granted invite, .revive invite key)
  | .granted invite => some (.ended, .mark invite.id .accepted)
  | .seeding user role =>
    some (.ended, .seed ⟨user.membershipKey, env.bootstrapWorkspaceId, role, .active⟩)

/-! ### The protocol -/

inductive Label where
  /-- A call begins with its first statement. -/
  | call (c : ℕ) (r : Request)
  /-- The next statement of a call. -/
  | next (c : ℕ)
  /-- The process of a call dies, and its transaction is rolled back. -/
  | crash (c : ℕ)
  | tick (passed : ℕ)
  /-- Accounts come, change and go. -/
  | users (users : List User)

/-- Move a call on. Its locks are gone with it. -/
def State.moveTo (s : State) (c : ℕ) (call : Call) : State :=
  { s with
    calls := Function.update s.calls c call
    locks := if call.isEnded then s.locks.filter (·.1 ≠ c) else s.locks }

/-- One step. -/
def step (env : Env) (s : State) : Label → Option State
  | .call c r =>
    match s.calls c with
    | .idle => some (s.moveTo c (first env s r))
    | _ => none
  | .next c =>
    (plan env s c (s.calls c)).map fun planned => (planned.2.apply c s).moveTo c planned.1
  | .crash c => some (s.moveTo c .ended)
  | .tick passed => some { s with now := s.now + passed }
  | .users users => some { s with users := users }

/-- The protocol. Initially no call runs, and every member who is not active has been
suspended; the tables are any. -/
def system (env : Env) : System State Label where
  init s := (∀ c, s.calls c = .idle) ∧ s.locks = [] ∧ s.commits = [] ∧ s.grants = [] ∧
    ∀ m ∈ s.members.rows, m.status = .active ↔ ∀ b ∈ s.bars, b.key ≠ m.key
  step := step env

/-! ### What a step does -/

section Cases

variable {env : Env} {s s' : State} {c : ℕ} {op : MemberOp} {roles : RolesRead}
  {call call' : Call} {eff : Effect}

theorem step_cases {l : Label} (h : (system env).step s l = some s') :
    (∃ c r, l = .call c r ∧ s.calls c = .idle ∧ s' = s.moveTo c (first env s r)) ∨
    (∃ c call' eff, l = .next c ∧ plan env s c (s.calls c) = some (call', eff) ∧
      s' = (eff.apply c s).moveTo c call') ∨
    (∃ c, l = .crash c ∧ s' = s.moveTo c .ended) ∨
    (∃ passed, l = .tick passed ∧ s' = { s with now := s.now + passed }) ∨
    ∃ users, l = .users users ∧ s' = { s with users := users } := by
  change step env s l = some s' at h
  cases l with
  | call c r =>
    simp only [step] at h
    split at h
    · next hidle => exact .inl ⟨c, r, rfl, hidle, (Option.some.inj h).symm⟩
    · cases h
  | next c =>
    obtain ⟨⟨call', eff⟩, hplan, rfl⟩ := Option.map_eq_some_iff.mp h
    exact .inr (.inl ⟨c, call', eff, rfl, hplan, rfl⟩)
  | crash c => exact .inr (.inr (.inl ⟨c, rfl, (Option.some.inj h).symm⟩))
  | tick passed => exact .inr (.inr (.inr (.inl ⟨passed, rfl, (Option.some.inj h).symm⟩)))
  | users users => exact .inr (.inr (.inr (.inr ⟨users, rfl, (Option.some.inj h).symm⟩)))

/-- **Where a first statement leads**: to a change, with the role it requires, to the
acceptance of a pending invitation, to the seeding of a membership, or nowhere near one. -/
theorem first_cases (env : Env) (s : State) (r : Request) :
    (∃ op role, op.requireRole s.members = some role ∧ first env s r = .authorized op role) ∨
    (∃ user invite, invite ∈ s.invitations ∧ invite.status = .pending ∧
      first env s r = .accepting user invite) ∨
    (∃ user role, first env s r = .seeding user role) ∨
    (first env s r).sparesMembers = true := by
  cases r with
  | member op =>
    simp only [first]
    split
    · next role hrole => exact .inl ⟨op, role, hrole, rfl⟩
    · exact .inr (.inr (.inr rfl))
  | invite r =>
    refine .inr (.inr (.inr ?_))
    simp only [first]
    repeat' split
    all_goals rfl
  | revokeInvite workspaceId user inviteId =>
    refine .inr (.inr (.inr ?_))
    simp only [first]
    split <;> rfl
  | acceptInvite user token =>
    simp only [first]
    split
    · exact .inr (.inr (.inr rfl))
    · split
      · exact .inr (.inr (.inr rfl))
      · next invite hfind =>
        split
        · exact .inr (.inr (.inr rfl))
        · next hpending =>
          split
          · exact .inr (.inr (.inr rfl))
          · split
            · exact .inr (.inr (.inr rfl))
            · exact .inr (.inl
                ⟨user, invite, List.mem_of_find?_eq_some hfind, not_not.mp hpending, rfl⟩)
  | signIn user =>
    simp only [first]
    split
    · exact .inr (.inr (.inr rfl))
    · split
      · next role _ =>
        split
        · exact .inr (.inr (.inl ⟨user, role, rfl⟩))
        · exact .inr (.inr (.inr rfl))
      · exact .inr (.inr (.inr rfl))

omit [CaseMapping] in
/-- **What the statements of a transaction do**, one after the other. -/
theorem planTx_cases {stage : TxStage} (h : planTx s c op roles stage = some (call', eff)) :
    (stage = .begun ∧ call' = .tx op roles (.locking (s.ownerKeys op.workspaceId)) ∧
      eff = .quiet) ∨
    (∃ key rows, stage = .locking (key :: rows) ∧ s.blocked c key = false ∧
      call' = .tx op roles (.locking rows) ∧
      eff = if s.isActiveOwner key then .lock key else .quiet) ∨
    (stage = .locking [] ∧ call' = .tx op roles .locked ∧ eff = .quiet) ∨
    (∃ fresh, stage = .locked ∧ s.members.find op.target = some fresh ∧
      call' = .tx op roles (if op.losesOwner fresh then .counting else .cleared) ∧
      eff = .quiet) ∨
    (stage = .counting ∧ ¬ s.members.activeOwnerCount op.workspaceId ≤ 1 ∧
      call' = .tx op roles .cleared ∧ eff = .quiet) ∨
    (∃ target, stage = .cleared ∧ s.members.find op.target = some target ∧ call' = .ended ∧
      eff = .change op target) ∨
    (call' = .ended ∧ eff = .quiet) := by
  cases stage with
  | begun =>
    obtain ⟨rfl, rfl⟩ := Prod.mk.inj (Option.some.inj h)
    exact .inl ⟨rfl, rfl, rfl⟩
  | locking rows =>
    cases rows with
    | nil =>
      obtain ⟨rfl, rfl⟩ := Prod.mk.inj (Option.some.inj h)
      exact .inr (.inr (.inl ⟨rfl, rfl, rfl⟩))
    | cons key rows =>
      simp only [planTx] at h
      split at h
      · cases h
      · next hfree =>
        obtain ⟨rfl, rfl⟩ := Prod.mk.inj (Option.some.inj h)
        exact .inr (.inl ⟨key, rows, rfl, Bool.not_eq_true _ ▸ hfree, rfl, rfl⟩)
  | locked =>
    simp only [planTx] at h
    split at h
    · obtain ⟨rfl, rfl⟩ := Prod.mk.inj (Option.some.inj h)
      exact .inr (.inr (.inr (.inr (.inr (.inr ⟨rfl, rfl⟩)))))
    · next fresh hfresh =>
      obtain ⟨rfl, rfl⟩ := Prod.mk.inj (Option.some.inj h)
      exact .inr (.inr (.inr (.inl ⟨fresh, rfl, hfresh, rfl, rfl⟩)))
  | counting =>
    simp only [planTx] at h
    split at h
    · obtain ⟨rfl, rfl⟩ := Prod.mk.inj (Option.some.inj h)
      exact .inr (.inr (.inr (.inr (.inr (.inr ⟨rfl, rfl⟩)))))
    · next hmany =>
      obtain ⟨rfl, rfl⟩ := Prod.mk.inj (Option.some.inj h)
      exact .inr (.inr (.inr (.inr (.inl ⟨rfl, hmany, rfl, rfl⟩))))
  | cleared =>
    simp only [planTx] at h
    split at h
    · cases h
    · split at h
      · obtain ⟨rfl, rfl⟩ := Prod.mk.inj (Option.some.inj h)
        exact .inr (.inr (.inr (.inr (.inr (.inr ⟨rfl, rfl⟩)))))
      · next target htarget =>
        obtain ⟨rfl, rfl⟩ := Prod.mk.inj (Option.some.inj h)
        exact .inr (.inr (.inr (.inr (.inr (.inl ⟨target, rfl, htarget, rfl, rfl⟩)))))

/-- **What a statement does**: it is one of a transaction, or leads to one; it belongs to the
acceptance of an invitation, or to the seeding of a membership; or it is about invitations
only. -/
theorem plan_cases (h : plan env s c call = some (call', eff)) :
    (∃ op roles stage, call = .tx op roles stage ∧
      planTx s c op roles stage = some (call', eff)) ∨
    (∃ op role target, call = .authorized op role ∧ s.members.find op.target = some target ∧
      op.refused role target.role = false ∧ call' = .tx op ⟨role, target.role⟩ .begun ∧
      eff = .quiet) ∨
    (∃ user invite, call = .accepting user invite ∧ eff = .quiet ∧
      (call' = .joining user invite ∨ call' = .granted invite ∨
        ∃ key, call' = .reviving invite key)) ∨
    (∃ user invite, call = .joining user invite ∧ call' = .granted invite ∧
      eff = .join invite ⟨user.membershipKey, invite.workspaceId, invite.role, .active⟩) ∨
    (∃ invite key, call = .reviving invite key ∧ call' = .granted invite ∧
      eff = .revive invite key) ∨
    (∃ user role, call = .seeding user role ∧ call' = .ended ∧
      eff = .seed ⟨user.membershipKey, env.bootstrapWorkspaceId, role, .active⟩) ∨
    (call'.sparesMembers = true ∧ eff.sparesMembers = true) := by
  have hspares : ∀ {planned : Call × Effect}, planned.1.sparesMembers = true →
      planned.2.sparesMembers = true → some planned = some (call', eff) →
      call'.sparesMembers = true ∧ eff.sparesMembers = true := by
    rintro planned hcall heff hplanned
    obtain rfl := Option.some.inj hplanned
    exact ⟨hcall, heff⟩
  cases call with
  | idle | ended => cases h
  | tx op roles stage => exact .inl ⟨op, roles, stage, rfl, h⟩
  | authorized op role =>
    simp only [plan] at h
    split at h
    · exact .inr (.inr (.inr (.inr (.inr (.inr (hspares rfl rfl h))))))
    · next target htarget =>
      split at h
      · exact .inr (.inr (.inr (.inr (.inr (.inr (hspares rfl rfl h))))))
      · next hranked =>
        obtain ⟨rfl, rfl⟩ := Prod.mk.inj (Option.some.inj h)
        exact .inr (.inl
          ⟨op, role, target, rfl, htarget, Bool.not_eq_true _ ▸ hranked, rfl, rfl⟩)
  | accepting user invite =>
    simp only [plan] at h
    refine .inr (.inr (.inl ⟨user, invite, rfl, ?_⟩))
    split at h
    · obtain ⟨rfl, rfl⟩ := Prod.mk.inj (Option.some.inj h)
      exact ⟨rfl, .inl rfl⟩
    · next existing _ =>
      obtain ⟨rfl, rfl⟩ := Prod.mk.inj (Option.some.inj h)
      refine ⟨rfl, .inr ?_⟩
      split
      · exact .inl rfl
      · exact .inr ⟨existing.key, rfl⟩
  | joining user invite =>
    simp only [plan] at h
    split at h
    · exact .inr (.inr (.inr (.inr (.inr (.inr (hspares rfl rfl h))))))
    · obtain ⟨rfl, rfl⟩ := Prod.mk.inj (Option.some.inj h)
      exact .inr (.inr (.inr (.inl ⟨user, invite, rfl, rfl, rfl⟩)))
  | reviving invite key =>
    simp only [plan] at h
    split at h
    · cases h
    · split at h
      · exact .inr (.inr (.inr (.inr (.inr (.inr (hspares rfl rfl h))))))
      · obtain ⟨rfl, rfl⟩ := Prod.mk.inj (Option.some.inj h)
        exact .inr (.inr (.inr (.inr (.inl ⟨invite, key, rfl, rfl, rfl⟩))))
  | seeding user role =>
    obtain ⟨rfl, rfl⟩ := Prod.mk.inj (Option.some.inj h)
    exact .inr (.inr (.inr (.inr (.inr (.inl ⟨user, role, rfl, rfl, rfl⟩)))))
  | inviting | inviteKnown | revoking =>
    refine .inr (.inr (.inr (.inr (.inr (.inr ?_)))))
    simp only [plan] at h
    split at h
    · exact hspares (by first | rfl | (split <;> rfl)) rfl h
    · exact hspares rfl rfl h
  | issuing r pending expiresAt =>
    refine .inr (.inr (.inr (.inr (.inr (.inr ?_)))))
    cases pending with
    | none | some =>
      simp only [plan] at h
      split at h <;> exact hspares rfl rfl h
  | invitable | revokingPending | expiring | granted =>
    exact .inr (.inr (.inr (.inr (.inr (.inr (hspares rfl rfl h))))))

end Cases

end Steps

end Workspaces
end EmailOps
