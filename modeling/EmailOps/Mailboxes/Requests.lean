import EmailOps.Framework.System
import EmailOps.Framework.Table
import EmailOps.Mailboxes.Provisioning

/-!
# Reviewing provisioning requests

A request that was filed waits for an approver. `approve` claims it by one conditional
update, reads it, replays it through the service that a direct call would have used, and
stamps it; `reject` is one transaction. Any number of calls run side by side, each statement
or transaction a step of its own, and a call may die between two of them.

* `canonicalCall` says which service a request is replayed through.
* `State.replays` remembers each replay of a request and what came of it.
-/

namespace EmailOps
namespace Mailboxes
namespace Requests

open Framework
open Workspaces (WorkspaceRole roleAtLeast)

/-! ### Requests -/

/-- The name of a role in the messages. -/
def roleName : WorkspaceRole → String
  | .viewer => "VIEWER"
  | .member => "MEMBER"
  | .manager => "MANAGER"
  | .admin => "ADMIN"
  | .owner => "OWNER"

inductive ProvisionableKind where
  | humanMailbox | agentMailbox | agent
  deriving DecidableEq, Repr

inductive ProvisioningRequestState where
  | pending | approved | rejected | canceled | applied | failed
  deriving DecidableEq, Repr

def ProvisionableKind.wire : ProvisionableKind → String
  | .humanMailbox => "HUMAN_MAILBOX"
  | .agentMailbox => "AGENT_MAILBOX"
  | .agent => "AGENT"

def ProvisioningRequestState.wire : ProvisioningRequestState → String
  | .pending => "PENDING"
  | .approved => "APPROVED"
  | .rejected => "REJECTED"
  | .canceled => "CANCELED"
  | .applied => "APPLIED"
  | .failed => "FAILED"

/-- A row of the queue. Times are in milliseconds. -/
structure ProvisioningRequest where
  id : String
  workspaceId : String
  kind : ProvisionableKind
  action : String
  state : ProvisioningRequestState
  payload : Json
  summary : Option String
  requestedByUcUid : Option String
  requestedByAgentKey : Option String
  reviewedByUcUid : Option String := none
  reviewedAt : Option ℕ := none
  reviewNote : Option String := none
  appliedRefId : Option String := none
  appliedAt : Option ℕ := none
  failureReason : Option String := none

/-- A call of the service that a request is replayed through. -/
inductive CanonicalCall where
  | createMailbox (input : Json)
  | updateMailbox (id patch : Option Json)
  | createAgent (input : Json)
  | updateAgent (id patch : Option Json)

/-- The properties of a payload; null stands for the empty object. -/
def payloadFields : Json → List (Text × Json)
  | .obj fields => fields
  | _ => []

/-- The call that replays a request, or the message of the error. -/
def canonicalCall (req : ProvisioningRequest) : Except String CanonicalCall :=
  let payload := match req.payload with | .null => .obj [] | payload => payload
  let id := Json.get (payloadFields payload) "id".toList
  let patch := Json.get (payloadFields payload) "patch".toList
  match req.kind, req.action with
  | .humanMailbox, "create" | .agentMailbox, "create" => .ok (.createMailbox payload)
  | .humanMailbox, "update" | .agentMailbox, "update" => .ok (.updateMailbox id patch)
  | .agent, "create" => .ok (.createAgent payload)
  | .agent, "update" => .ok (.updateAgent id patch)
  | kind, action =>
    .error ("Unsupported provisioning request: " ++ kind.wire ++ "/" ++ action)

/-! ### Calls -/

inductive ReviewError where
  | forbidden (message : String)
  | notFound (message : String)
  | conflict (message : String)
  deriving DecidableEq, Repr

/-- What a call answers: the request as it stands then. -/
abbrev Answer := Except ReviewError ProvisioningRequest

/-- Where a call stands. -/
inductive Call where
  | idle
  /-- The caller may approve. -/
  | approving (workspaceId : String) (ucUid : Option String) (id : String)
  /-- The claim is committed. -/
  | claimed (workspaceId : String) (ucUid : Option String) (id : String)
  | replaying (workspaceId : String) (ucUid : Option String) (req : ProvisioningRequest)
  /-- After the replay, with the id of what was made or the message of the error. -/
  | stamping (workspaceId : String) (ucUid : Option String) (req : ProvisioningRequest)
      (outcome : Except String String)
  | rejecting (workspaceId : String) (ucUid : Option String) (id : String) (note : Option String)
  /-- There was no such request pending. -/
  | missed (workspaceId id : String)
  /-- It has answered, or thrown, or died. -/
  | ended (answer : Option Answer)

inductive AgentActionKind where
  | provisionRequested | provisionApplied | provisionFailed | provisionRejected
  deriving DecidableEq, Repr

/-- A row of the audit log. -/
structure AgentActionEvent where
  workspaceId : String
  kind : AgentActionKind
  actorUcUid : Option String
  agentKey : Option String
  detail : Option String

/-- A replay: of which request, by which call of a service, and what came of it. -/
structure Replay where
  requestId : String
  call : CanonicalCall
  outcome : Except String String

structure State where
  policies : String → Option ProvisioningPolicy
  requests : List ProvisioningRequest
  events : List AgentActionEvent
  calls : ℕ → Call
  /-- Oldest first. -/
  replays : List Replay

/-- `getEffectivePolicy`. -/
def State.getEffectivePolicy (s : State) (workspaceId : String) : ProvisioningPolicy :=
  (s.policies workspaceId).getD defaultProvisioningPolicy

def State.moveTo (s : State) (c : ℕ) (call : Call) : State :=
  { s with calls := Function.update s.calls c call }

/-- Rewrite the requests that a condition selects. -/
def State.rewrite (s : State) (p : ProvisioningRequest → Bool)
    (f : ProvisioningRequest → ProvisioningRequest) : State :=
  { s with requests := s.requests.map fun r => if p r then f r else r }

def State.note (s : State) (event : AgentActionEvent) : State :=
  { s with events := s.events ++ [event] }

/-- The request of an id, in the workspace. -/
def State.find (s : State) (workspaceId id : String) : Option ProvisioningRequest :=
  s.requests.find? fun r => r.id = id && r.workspaceId = workspaceId

/-- Is it the request, and pending? The condition of the claims. -/
def isPending (workspaceId id : String) (r : ProvisioningRequest) : Bool :=
  r.id = id && r.workspaceId = workspaceId && r.state = .pending

/-- The write of the claim of `approve`. -/
def claim (ucUid : Option String) (now : ℕ) (r : ProvisioningRequest) : ProvisioningRequest :=
  { r with state := .approved, reviewedByUcUid := ucUid, reviewedAt := some now }

/-- The write of `reject`. -/
def rejection (ucUid note : Option String) (now : ℕ) (r : ProvisioningRequest) :
    ProvisioningRequest :=
  { r with
    state := .rejected, reviewedByUcUid := ucUid, reviewedAt := some now, reviewNote := note }

/-- The message of a failed replay. An empty one counts as none. -/
def failure : Except String String → Option String
  | .error message => if message = "" then none else some message
  | .ok _ => none

/-- The last write of `approve`. -/
def stamp (ucUid : Option String) (now : ℕ) (outcome : Except String String)
    (r : ProvisioningRequest) : ProvisioningRequest :=
  match failure outcome with
  | some message =>
    { r with
      state := .failed, reviewedByUcUid := ucUid, reviewedAt := some now
      failureReason := some message }
  | none =>
    { r with
      state := .applied, reviewedByUcUid := ucUid, reviewedAt := some now
      appliedRefId := some (match outcome with | .ok id => id | .error _ => "")
      appliedAt := some now }

/-- The row of the audit log that goes with the last write. -/
def stampEvent (workspaceId : String) (ucUid : Option String) (req : ProvisioningRequest)
    (outcome : Except String String) : AgentActionEvent where
  workspaceId := workspaceId
  kind := if (failure outcome).isSome then .provisionFailed else .provisionApplied
  actorUcUid := ucUid
  agentKey := req.requestedByAgentKey
  detail :=
    match failure outcome with
    | some message => some (req.summary.getD "null" ++ " — FAILED: " ++ message)
    | none => req.summary

/-! ### The protocol -/

inductive Label where
  | file (req : ProvisioningRequest)
  | approve (c : ℕ) (workspaceId : String) (ucUid : Option String) (role : WorkspaceRole)
      (id : String)
  | reject (c : ℕ) (workspaceId : String) (ucUid : Option String) (role : WorkspaceRole)
      (id : String) (note : Option String)
  /-- The next statement of a call. -/
  | next (c : ℕ) (now : ℕ)
  /-- The service that a request is replayed through answers, with an id if it has one, or
  throws. -/
  | replay (c : ℕ) (service : Except String (Option String))
  /-- A call throws between its statements, or its process dies. -/
  | die (c : ℕ)
  | setPolicy (workspaceId : String) (policy : ProvisioningPolicy)

/-- `assertApprover`, and where a call stands after it. -/
def State.begin (s : State) (workspaceId : String) (role : WorkspaceRole) (call : Call) : Call :=
  let min := (s.getEffectivePolicy workspaceId).approverMinRole
  if roleAtLeast role min then call
  else
    .ended (some (.error (.forbidden
      ("Approving provisioning requests requires " ++ roleName min ++ " or above."))))

/-- The next statement of a call, other than the replay. -/
def State.next (s : State) (c now : ℕ) : Call → Option State
  | .approving workspaceId ucUid id =>
    if s.requests.any (isPending workspaceId id) then
      some ((s.rewrite (isPending workspaceId id) (claim ucUid now)).moveTo c
        (.claimed workspaceId ucUid id))
    else some (s.moveTo c (.missed workspaceId id))
  | .claimed workspaceId ucUid id =>
    match s.find workspaceId id with
    | some req => some (s.moveTo c (.replaying workspaceId ucUid req))
    | none => some (s.moveTo c (.ended none))
  | .stamping workspaceId ucUid req outcome =>
    match s.requests.find? (·.id = req.id) with
    | some r =>
      some (((s.rewrite (·.id = req.id) (stamp ucUid now outcome)).note
        (stampEvent workspaceId ucUid req outcome)).moveTo c
          (.ended (some (.ok (stamp ucUid now outcome r)))))
    | none => some (s.moveTo c (.ended none))
  | .rejecting workspaceId ucUid id note =>
    match s.requests.find? (isPending workspaceId id) with
    | some r =>
      let updated := rejection ucUid note now r
      some (((s.rewrite (isPending workspaceId id) (rejection ucUid note now)).note
        { workspaceId := workspaceId, kind := .provisionRejected, actorUcUid := ucUid
          agentKey := r.requestedByAgentKey, detail := r.summary }).moveTo c
          (.ended (some (.ok updated))))
    | none => some (s.moveTo c (.missed workspaceId id))
  | .missed workspaceId id =>
    match s.find workspaceId id with
    | some existing =>
      some (s.moveTo c (.ended (some (.error (.conflict
        ("Request is " ++ existing.state.wire ++ ", not PENDING."))))))
    | none =>
      some (s.moveTo c (.ended (some (.error (.notFound
        "Provisioning request not found in this workspace.")))))
  | .idle | .replaying _ _ _ | .ended _ => none

/-- The replay of a request. Where there is no service for it, it throws. -/
def State.replay (s : State) (c : ℕ) (service : Except String (Option String)) :
    Call → Option State
  | .replaying workspaceId ucUid req =>
    match canonicalCall req with
    | .ok call =>
      let outcome := service.map (·.getD "")
      some (State.moveTo { s with replays := s.replays ++ [⟨req.id, call, outcome⟩] } c
        (.stamping workspaceId ucUid req outcome))
    | .error message => some (s.moveTo c (.stamping workspaceId ucUid req (.error message)))
  | _ => none

/-- One step. -/
def step (s : State) : Label → Option State
  | .file req =>
    if req.state = .pending && s.requests.all (·.id ≠ req.id) then
      some (State.note { s with requests := s.requests ++ [req] }
        { workspaceId := req.workspaceId, kind := .provisionRequested
          actorUcUid := req.requestedByUcUid, agentKey := req.requestedByAgentKey
          detail := req.summary })
    else none
  | .approve c workspaceId ucUid role id =>
    match s.calls c with
    | .idle => some (s.moveTo c (s.begin workspaceId role (.approving workspaceId ucUid id)))
    | _ => none
  | .reject c workspaceId ucUid role id note =>
    match s.calls c with
    | .idle => some (s.moveTo c (s.begin workspaceId role (.rejecting workspaceId ucUid id note)))
    | _ => none
  | .next c now => s.next c now (s.calls c)
  | .replay c service => s.replay c service (s.calls c)
  | .die c => some (s.moveTo c (.ended none))
  | .setPolicy workspaceId policy =>
    some { s with policies := Function.update s.policies workspaceId (some policy) }

/-- The protocol. Initially there is no request; the policies are any. -/
def system : System State Label where
  init s := s.requests = [] ∧ (∀ c, s.calls c = .idle) ∧ s.replays = []
  step := step

end Requests
end Mailboxes
end EmailOps
