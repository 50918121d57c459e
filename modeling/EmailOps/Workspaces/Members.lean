import EmailOps.Email.Types
import EmailOps.Framework.Table
import EmailOps.Framework.Text

/-!
# Members and invitations of a workspace

The rows of the membership and invitation tables, and the checks that the service makes on
them. A user may be known by two ids, and a membership by either.

* `Memberships` is the table of the members with its primary key, and `find`, `update`,
  `insert` and `erase` are the statements on it.
* `MemberOp` is a call of `updateMember` or `removeMember`; `MemberOp.requireRole`,
  `MemberOp.refused` and `MemberOp.losesOwner` are its checks.
* `Invitation` is the row of an invitation, and `resolveUserAccess` the access list that
  seeds memberships at sign-in.
-/

namespace EmailOps
namespace Workspaces

open Framework Framework.Text

/-! ### Roles -/

inductive WorkspaceRole where
  | viewer | member | manager | admin | owner
  deriving DecidableEq, Repr

def roleRank : WorkspaceRole → ℕ
  | .viewer => 0
  | .member => 1
  | .manager => 2
  | .admin => 3
  | .owner => 4

def roleAtLeast (role min : WorkspaceRole) : Bool :=
  roleRank min ≤ roleRank role

/-! ### Rows -/

inductive MembershipStatus where
  | active | suspended | revoked
  deriving DecidableEq, Repr

structure Membership where
  userKey : String
  workspaceId : String
  role : WorkspaceRole
  status : MembershipStatus
  deriving DecidableEq

/-- The primary key of a membership. -/
abbrev MemberKey := String × String

/-- `userKey_workspaceId`. -/
def Membership.key (m : Membership) : MemberKey :=
  (m.workspaceId, m.userKey)

/-- Is the row that of an active owner of the workspace? -/
def Membership.isActiveOwner (m : Membership) (workspaceId : String) : Bool :=
  m.workspaceId = workspaceId && m.role = .owner && m.status = .active

inductive InvitationStatus where
  | pending | accepted | revoked | expired
  deriving DecidableEq, Repr

structure Invitation where
  id : String
  workspaceId : String
  email : Text
  role : WorkspaceRole
  token : Text
  status : InvitationStatus
  expiresAt : Option ℕ
  deriving DecidableEq

/-- A user, with the address of the account. -/
structure User extends EmailOps.User where
  email : Text

/-- `membershipKey`. -/
def User.membershipKey (user : User) : String :=
  user.keycloakId.getD user.id

/-- `callerKeys`: every id that the user may be keyed by. -/
def User.callerKeys (user : User) : List String :=
  ([user.membershipKey, user.id, user.keycloakId.getD ""].filter (· ≠ "")).dedup

/-! ### The table of the members -/

/-- The memberships of all workspaces, with their primary key. -/
structure Memberships where
  rows : List Membership
  keys : (rows.map (·.key)).Nodup

namespace Memberships

variable (table : Memberships)

def find (key : MemberKey) : Option Membership :=
  table.rows.find? (·.key = key)

/-- Rewrite the row of a key. -/
def update (key : MemberKey) (f : Membership → Membership) (hf : ∀ m, (f m).key = m.key) :
    Memberships where
  rows := table.rows.map fun m => if m.key = key then f m else m
  keys := by
    rw [Table.keys_update hf]
    exact table.keys

/-- Make the membership of a key active. -/
def activate (key : MemberKey) : Memberships :=
  table.update key (fun m => { m with status := .active }) fun _ => rfl

/-- A new row. For a key that is taken the table stays as it is. -/
def insert (m : Membership) : Memberships :=
  if h : ∀ r ∈ table.rows, r.key ≠ m.key then ⟨table.rows ++ [m], Table.nodup_insert table.keys h⟩
  else table

/-- Delete the row of a key. -/
def erase (key : MemberKey) : Memberships where
  rows := table.rows.filter (·.key ≠ key)
  keys := table.keys.sublist (List.filter_sublist.map _)

/-- The row of an active membership of the user. -/
def callerMembership (workspaceId : String) (user : User) : Option Membership :=
  table.rows.find? fun m =>
    m.workspaceId = workspaceId && user.callerKeys.contains m.userKey && m.status = .active

/-- `resolveCallerRole`. -/
def resolveCallerRole (workspaceId : String) (user : User) : Option WorkspaceRole :=
  (table.callerMembership workspaceId user).map (·.role)

/-- The active owners of a workspace. -/
def activeOwners (workspaceId : String) : List Membership :=
  table.rows.filter (·.isActiveOwner workspaceId)

/-- `activeOwnerCount`. -/
def activeOwnerCount (workspaceId : String) : ℕ :=
  (table.activeOwners workspaceId).length

/-- Is the membership active? -/
def isActive (key : MemberKey) : Bool :=
  table.rows.any fun m => m.key = key && m.status = .active

variable {table} {m r : Membership} {key : MemberKey}

theorem eq_of_key_eq (hm : m ∈ table.rows) (hr : r ∈ table.rows) (h : m.key = r.key) : m = r :=
  List.inj_on_of_nodup_map table.keys hm hr h

theorem find_eq_some : table.find key = some m ↔ m ∈ table.rows ∧ m.key = key :=
  Table.find_eq_some table.keys

theorem mem_update {f : Membership → Membership} {hf : ∀ m, (f m).key = m.key} :
    m ∈ (table.update key f hf).rows ↔
      (∃ r ∈ table.rows, r.key = key ∧ m = f r) ∨ m ∈ table.rows ∧ m.key ≠ key :=
  Table.mem_update

theorem mem_activate :
    m ∈ (table.activate key).rows ↔
      (∃ r ∈ table.rows, r.key = key ∧ m = { r with status := .active }) ∨
        m ∈ table.rows ∧ m.key ≠ key :=
  mem_update

theorem mem_insert :
    r ∈ (table.insert m).rows ↔ r ∈ table.rows ∨ (∀ x ∈ table.rows, x.key ≠ m.key) ∧ r = m := by
  unfold insert
  split
  · next hfree =>
    rw [List.mem_append, List.mem_singleton]
    exact or_congr_right ⟨fun hr => ⟨hfree, hr⟩, And.right⟩
  · next htaken => exact ⟨.inl, fun h => h.resolve_right fun hfree => htaken hfree.1⟩

theorem mem_erase : m ∈ (table.erase key).rows ↔ m ∈ table.rows ∧ m.key ≠ key := by
  unfold erase
  rw [List.mem_filter, decide_eq_true_eq]

theorem isActive_iff :
    table.isActive key = true ↔ ∃ m ∈ table.rows, m.key = key ∧ m.status = .active := by
  simp [isActive]

end Memberships

/-! ### Changing a member -/

structure UpdateMemberInput where
  role : Option WorkspaceRole
  status : Option MembershipStatus
  deriving DecidableEq

inductive MemberChange where
  | update (patch : UpdateMemberInput)
  | remove
  deriving DecidableEq

/-- Does the change make an active owner something else? -/
def MemberChange.dropsOwner : MemberChange → Bool
  | .update patch => patch.role.any (· ≠ .owner) || patch.status.any (· ≠ .active)
  | .remove => true

/-- A call of `updateMember` or of `removeMember`. -/
structure MemberOp where
  workspaceId : String
  user : User
  targetUserKey : String
  change : MemberChange

def updateMember (workspaceId : String) (user : User) (targetUserKey : String)
    (patch : UpdateMemberInput) : MemberOp :=
  ⟨workspaceId, user, targetUserKey, .update patch⟩

def removeMember (workspaceId : String) (user : User) (targetUserKey : String) : MemberOp :=
  ⟨workspaceId, user, targetUserKey, .remove⟩

namespace MemberOp

variable (op : MemberOp)

/-- The key of the member it is about. -/
def target : MemberKey :=
  (op.workspaceId, op.targetUserKey)

def isSelf : Bool :=
  op.user.callerKeys.contains op.targetUserKey

/-- Does the role suffice? Any member may leave, everything else takes an admin. -/
def admits (role : WorkspaceRole) : Bool :=
  (decide (op.change = .remove) && op.isSelf) || roleAtLeast role .admin

/-- The role of the caller, if it suffices: `requireMember` or `requireRole`. -/
def requireRole (table : Memberships) : Option WorkspaceRole :=
  (table.resolveCallerRole op.workspaceId op.user).filter op.admits

/-- The role that is granted. -/
def granted : Option WorkspaceRole :=
  match op.change with
  | .update patch => patch.role
  | .remove => none

/-- Does the target outrank the caller, or the role that is granted? -/
def refused (callerRole targetRole : WorkspaceRole) : Bool :=
  (!op.isSelf && decide (roleRank callerRole < roleRank targetRole)) ||
    op.granted.any fun role => decide (roleRank callerRole < roleRank role)

/-- `losesOwner`. -/
def losesOwner (fresh : Membership) : Bool :=
  fresh.role = .owner && fresh.status = .active && op.change.dropsOwner

/-- The table after the change. -/
def apply (table : Memberships) : Memberships :=
  match op.change with
  | .update patch =>
    table.update op.target
      (fun m => { m with role := patch.role.getD m.role, status := patch.status.getD m.status })
      fun _ => rfl
  | .remove => table.erase op.target

end MemberOp

/-! ### Inviting -/

/-- A call of `invite`, with the id and the token that a new invitation gets. -/
structure InviteRequest where
  workspaceId : String
  user : User
  email : Text
  role : Option WorkspaceRole
  newId : String
  newToken : Text

def InviteRequest.inviteRole (r : InviteRequest) : WorkspaceRole :=
  r.role.getD .member

section Addresses

variable [CaseMapping]

/-- An address as invitations are matched by it. -/
def normalEmail (email : Text) : Text :=
  toLowerCase (trim email)

def InviteRequest.address (r : InviteRequest) : Text :=
  normalEmail r.email

end Addresses

/-- `INVITE_TTL_MS`. -/
def inviteTtlMs : ℕ := 14 * 24 * 60 * 60 * 1000

/-! ### The access list -/

structure AccessRule where
  pattern : Text
  isDomain : Bool
  domain : Text
  role : WorkspaceRole

/-- `resolveUserAccess`: the role of a user on the access list. An exact match wins over a
domain. -/
def resolveUserAccess [CaseMapping] (rules : List AccessRule) (email : Text) :
    Option WorkspaceRole :=
  if email = [] then none
  else
    let lower := toLowerCase email
    match rules.find? fun r => !r.isDomain && r.pattern = lower with
    | some exact => some exact.role
    | none =>
      -- What stands behind the first `@`, if anything does.
      match (lower.dropWhile (· ≠ '@')).tail with
      | [] => none
      | domain => (rules.find? fun r => r.isDomain && r.domain = domain).map (·.role)

end Workspaces
end EmailOps
