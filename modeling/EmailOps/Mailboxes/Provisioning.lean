import EmailOps.Mailboxes.Connect
import EmailOps.Workspaces.Members

/-!
# Provisioning mailboxes

The ways in which a workspace gets a mailbox, side by side: the REST endpoint, the tool of an
agent, the approval of a request that was filed, and a user's connection of an external
account. Each statement is a transaction of its own.

* `decideProvision` says whether a caller may create a mailbox, has to file a request, or
  neither; `ProvisioningPolicy` are the dials of a workspace, with the limit of its mailboxes.
* Only the REST endpoint looks at the limit: it reads it, counts the mailboxes, and creates
  the row in another transaction.
* `State.growths` remembers each row that was added, with the number of rows by then and the
  limit that was set.
-/

namespace EmailOps
namespace Mailboxes

open Framework EngineAdmin
open Workspaces (roleAtLeast)

/-! ### The policy -/

inductive ProvisioningMode where
  /-- Any member. -/
  | anyMember
  | manager | adminOnly | approval
  deriving DecidableEq

/-- The dials of a workspace for its mailboxes. -/
structure ProvisioningPolicy where
  humanMailboxCreateMode : ProvisioningMode
  agentMailboxCreateMode : ProvisioningMode
  approverMinRole : Workspaces.WorkspaceRole
  allowSelfServiceOwnMailbox : Bool
  maxMailboxesPerWorkspace : Option ℕ

/-- `DEFAULT_PROVISIONING_POLICY`, with no limit. -/
def defaultProvisioningPolicy : ProvisioningPolicy where
  humanMailboxCreateMode := .manager
  agentMailboxCreateMode := .adminOnly
  approverMinRole := .admin
  allowSelfServiceOwnMailbox := false
  maxMailboxesPerWorkspace := none

inductive ProvisionDecision where
  | allow | deny | requiresApproval
  deriving DecidableEq

def decideProvision (mode : ProvisioningMode) (callerRole approverMinRole : Workspaces.WorkspaceRole)
    (isSelfOwnMailbox allowSelfServiceOwnMailbox : Bool) : ProvisionDecision :=
  if isSelfOwnMailbox && allowSelfServiceOwnMailbox && roleAtLeast callerRole .member then .allow
  else
    match mode with
    | .anyMember => if roleAtLeast callerRole .member then .allow else .deny
    | .manager => if roleAtLeast callerRole .manager then .allow else .deny
    | .adminOnly => if roleAtLeast callerRole .admin then .allow else .deny
    | .approval =>
      if roleAtLeast callerRole approverMinRole then .allow
      else if roleAtLeast callerRole .member then .requiresApproval
      else .deny

/-- The dial for a new mailbox of the kind. -/
def ProvisioningPolicy.modeFor (policy : ProvisioningPolicy) : MailboxOwnerKind → ProvisioningMode
  | .agent => policy.agentMailboxCreateMode
  | .human | .shared => policy.humanMailboxCreateMode

/-- `authorize`, for a new mailbox. -/
def ProvisioningPolicy.authorize (policy : ProvisioningPolicy) (ucUid : String)
    (role : Workspaces.WorkspaceRole) (input : CreateMailboxInput) : ProvisionDecision :=
  let ownerKind := input.ownerKind.getD .shared
  let isSelfOwnMailbox := ownerKind = .human && ucUid ≠ "" && input.ownerKey = some ucUid
  decideProvision (policy.modeFor ownerKind) role policy.approverMinRole isSelfOwnMailbox
    policy.allowSelfServiceOwnMailbox

/-- A patch of the policy. The limit may be set to null. -/
structure UpdatePolicyInput where
  humanMailboxCreateMode : Option ProvisioningMode
  agentMailboxCreateMode : Option ProvisioningMode
  approverMinRole : Option Workspaces.WorkspaceRole
  allowSelfServiceOwnMailbox : Option Bool
  maxMailboxesPerWorkspace : Option (Option ℕ)

def UpdatePolicyInput.apply (patch : UpdatePolicyInput) (policy : ProvisioningPolicy) :
    ProvisioningPolicy where
  humanMailboxCreateMode := patch.humanMailboxCreateMode.getD policy.humanMailboxCreateMode
  agentMailboxCreateMode := patch.agentMailboxCreateMode.getD policy.agentMailboxCreateMode
  approverMinRole := patch.approverMinRole.getD policy.approverMinRole
  allowSelfServiceOwnMailbox :=
    patch.allowSelfServiceOwnMailbox.getD policy.allowSelfServiceOwnMailbox
  maxMailboxesPerWorkspace := patch.maxMailboxesPerWorkspace.getD policy.maxMailboxesPerWorkspace

/-! ### Requests -/

inductive ProvisioningRequestState where
  | pending | approved | rejected | applied | failed
  deriving DecidableEq

/-- What a request asks for. The other kinds create no mailbox; their replay may fail. -/
inductive Payload where
  | create (input : CreateMailboxInput)
  | other (fails : Bool)

structure ProvisioningRequest where
  id : String
  workspaceId : String
  payload : Payload
  state : ProvisioningRequestState

/-! ### Calls -/

/-- The count of the REST endpoint, below the limit that it read. -/
structure Counted where
  max : ℕ
  count : ℕ

/-- Where a call stands. -/
inductive Call where
  | idle
  /-- The REST endpoint, authorized. -/
  | limiting (workspaceId : String) (input : CreateMailboxInput)
  | counting (workspaceId : String) (input : CreateMailboxInput) (max : ℕ)
  /-- Past its check, or without a limit. -/
  | creating (workspaceId : String) (input : CreateMailboxInput) (counted : Option Counted)
  /-- The agent's tool, authorized. -/
  | provisioning (workspaceId : String) (input : CreateMailboxInput)
  | filing (workspaceId : String) (payload : Payload)
  /-- The caller may approve. -/
  | approving (workspaceId requestId : String)
  | claimed (workspaceId requestId : String)
  | replaying (workspaceId : String) (request : ProvisioningRequest)
  | stamping (requestId : String) (state : ProvisioningRequestState)
  | rejecting (workspaceId requestId : String)
  | connecting (workspaceId ucUid : String) (body : ConnectMailboxDto) (address : Text)
  | ended

inductive Request where
  | create (workspaceId ucUid : String) (role : Workspaces.WorkspaceRole)
      (input : CreateMailboxInput)
  | provisionMailbox (workspaceId ucUid : String) (role : Workspaces.WorkspaceRole)
      (input : CreateMailboxInput)
  | connect (workspaceId ucUid : String) (body : ConnectMailboxDto) (profiles : Profiles)
  | approve (workspaceId requestId : String) (role : Workspaces.WorkspaceRole)
  | reject (workspaceId requestId : String) (role : Workspaces.WorkspaceRole)

/-- What the write of a statement takes from outside. -/
structure Fresh where
  id : String
  admin : WebAdmin
  generated : Text

/-! ### The state -/

/-- A row was added: how many the workspace has by then, and its limit. -/
structure Growth where
  workspaceId : String
  count : ℕ
  limit : Option ℕ

structure State where
  /-- The users and the mailboxes. -/
  tenant : EngineAdmin.State
  policies : String → Option ProvisioningPolicy
  requests : List ProvisioningRequest
  calls : ℕ → Call
  growths : List Growth

/-- `getEffectivePolicy`. -/
def State.getEffectivePolicy (s : State) (workspaceId : String) : ProvisioningPolicy :=
  (s.policies workspaceId).getD defaultProvisioningPolicy

/-- The limit of a workspace. -/
def State.limit (s : State) (workspaceId : String) : Option ℕ :=
  (s.getEffectivePolicy workspaceId).maxMailboxesPerWorkspace

/-- The number of the mailboxes of a workspace. -/
def countMailboxes (tenant : EngineAdmin.State) (workspaceId : String) : ℕ :=
  tenant.mailboxes.countP (·.workspaceId = workspaceId)

/-- Write the tables of the mailboxes, and note whether the workspace has one more. -/
def State.write (s : State) (workspaceId : String) (tenant : EngineAdmin.State) : State :=
  { s with
    tenant := tenant
    growths :=
      if countMailboxes s.tenant workspaceId < countMailboxes tenant workspaceId then
        s.growths ++ [⟨workspaceId, countMailboxes tenant workspaceId, s.limit workspaceId⟩]
      else s.growths }

/-- Set the state of a request. -/
def State.stamp (s : State) (requestId : String) (state : ProvisioningRequestState) : State :=
  { s with
    requests := s.requests.map fun r => if r.id = requestId then { r with state := state } else r }

/-- Is the request pending, in the workspace? -/
def State.isPending (s : State) (workspaceId requestId : String) : Bool :=
  s.requests.any fun r =>
    r.id = requestId && r.workspaceId = workspaceId && r.state = .pending

/-! ### Statements -/

section Steps

variable [CaseMapping] [DomainMapping]

/-- Where a call stands after its first statement. -/
def first (s : State) : Request → Call
  | .create workspaceId ucUid role input =>
    match assertValidAddress input.emailAddress with
    | .error _ => .ended
    | .ok () =>
      match (s.getEffectivePolicy workspaceId).authorize ucUid role input with
      | .allow => .limiting workspaceId input
      | .deny => .ended
      | .requiresApproval => .filing workspaceId (.create input)
  | .provisionMailbox workspaceId ucUid role input =>
    match assertValidAddress input.emailAddress with
    | .error _ => .ended
    | .ok () =>
      match (s.getEffectivePolicy workspaceId).authorize ucUid role input with
      | .allow => .provisioning workspaceId input
      | .deny => .ended
      | .requiresApproval => .filing workspaceId (.create input)
  | .connect workspaceId ucUid body profiles =>
    if ucUid = "" then .ended
    else
      match connectAddress s.tenant.users profiles ucUid body with
      | none => .ended
      | some address =>
        match assertValidAddress address with
        | .error _ => .ended
        | .ok () => .connecting workspaceId ucUid body address
  | .approve workspaceId requestId role =>
    if roleAtLeast role (s.getEffectivePolicy workspaceId).approverMinRole then
      .approving workspaceId requestId
    else .ended
  | .reject workspaceId requestId role =>
    if roleAtLeast role (s.getEffectivePolicy workspaceId).approverMinRole then
      .rejecting workspaceId requestId
    else .ended

/-- Create the row of a mailbox, and say whether there was none of its address. -/
def State.create (s : State) (workspaceId : String) (input : CreateMailboxInput) (fresh : Fresh) :
    State × Bool :=
  let (tenant, view) :=
    createMailbox s.tenant fresh.admin workspaceId fresh.id input fresh.generated
  (s.write workspaceId tenant, view.isOk)

/-- The next statement of a call. -/
def run (s : State) (fresh : Fresh) : Call → Option (State × Call)
  | .idle | .ended => none
  | .limiting workspaceId input =>
    match s.limit workspaceId with
    | none => some (s, .creating workspaceId input none)
    | some max => some (s, .counting workspaceId input max)
  | .counting workspaceId input max =>
    let count := countMailboxes s.tenant workspaceId
    if max ≤ count then some (s, .ended)
    else some (s, .creating workspaceId input (some ⟨max, count⟩))
  | .creating workspaceId input _ | .provisioning workspaceId input =>
    some ((s.create workspaceId input fresh).1, .ended)
  | .filing workspaceId payload =>
    some ({ s with requests := s.requests ++ [⟨fresh.id, workspaceId, payload, .pending⟩] }, .ended)
  | .approving workspaceId requestId =>
    if s.isPending workspaceId requestId then
      some (s.stamp requestId .approved, .claimed workspaceId requestId)
    else some (s, .ended)
  | .claimed workspaceId requestId =>
    match s.requests.find? fun r => r.id = requestId && r.workspaceId = workspaceId with
    | none => some (s, .ended)
    | some request => some (s, .replaying workspaceId request)
  | .replaying workspaceId request =>
    match request.payload with
    | .create input =>
      let (s', created) := s.create workspaceId input fresh
      some (s', .stamping request.id (if created then .applied else .failed))
    | .other fails => some (s, .stamping request.id (if fails then .failed else .applied))
  | .stamping requestId state => some (s.stamp requestId state, .ended)
  | .rejecting workspaceId requestId =>
    if s.isPending workspaceId requestId then some (s.stamp requestId .rejected, .ended)
    else some (s, .ended)
  | .connecting workspaceId ucUid body address =>
    some (s.write workspaceId (connectExternalMailbox s.tenant workspaceId (some ucUid) fresh.id
      body.provider address body.displayName), .ended)

/-! ### The protocol -/

inductive Label where
  /-- A call begins with its first statement. -/
  | call (c : ℕ) (r : Request)
  /-- The next statement of a call. -/
  | next (c : ℕ) (fresh : Fresh)
  | crash (c : ℕ)
  | setPolicy (workspaceId : String) (patch : UpdatePolicyInput)

/-- Move a call on. -/
def State.moveTo (s : State) (c : ℕ) (call : Call) : State :=
  { s with calls := Function.update s.calls c call }

/-- One step. -/
def step (s : State) : Label → Option State
  | .call c r =>
    match s.calls c with
    | .idle => some (s.moveTo c (first s r))
    | _ => none
  | .next c fresh => (run s fresh (s.calls c)).map fun done => done.1.moveTo c done.2
  | .crash c => some (s.moveTo c .ended)
  | .setPolicy workspaceId patch =>
    some { s with
      policies := Function.update s.policies workspaceId
        (some (patch.apply (s.getEffectivePolicy workspaceId))) }

/-- The protocol. Initially no call runs; the tables are any. -/
def system : System State Label where
  init s := (∀ c, s.calls c = .idle) ∧ s.growths = []
  step := step

end Steps

end Mailboxes
end EmailOps
