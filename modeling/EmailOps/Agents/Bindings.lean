import Mathlib.Data.List.Sort
import EmailOps.Email.Types
import EmailOps.Framework.System
import EmailOps.Framework.Table

/-!
# Agents and the mailboxes they act through

An agent is bound to any number of mailboxes. One of the bindings may be its primary one, and
the row of the agent keeps the mailbox of that binding.

* `Db` are the tables, with their unique columns.
* `setPrimaryMailbox` and `reconcilePrimary` are what the operations write a primary binding
  through; `createAgent`, `updateAgent`, `bindMailbox` and `unbindMailbox` are the operations,
  each one transaction.
* `Bound` is the invariant of an agent.
-/

namespace EmailOps
namespace Agents

open Framework

/-! ### Rows -/

inductive MailboxAccessLevel where
  | send | read | both
  deriving DecidableEq, Repr

def MailboxAccessLevel.isSendable (a : MailboxAccessLevel) : Bool :=
  a = .send || a = .both

inductive AgentTier where
  | executive | domainLead | manager | specialist | unspecified
  deriving DecidableEq, Repr

structure Agent where
  id : String
  workspaceId : String
  key : String
  displayName : String
  description : Option String := none
  avatarUrl : Option String := none
  /-- The mailbox of the primary binding. -/
  mailboxAccountId : Option String := none
  autonomyLevel : AgentAutonomyLevel
  recipientPolicy : Option Json := none
  active : Bool := true
  tier : AgentTier := .unspecified
  managerAgentKey : Option String := none
  paused : Bool := false

/-- A binding. Times are in milliseconds. -/
structure AgentMailbox where
  id : String
  workspaceId : String
  agentId : String
  mailboxAccountId : String
  access : MailboxAccessLevel
  isPrimary : Bool
  createdAt : ℕ
  deriving DecidableEq

structure Mailbox where
  id : String
  workspaceId : String
  deriving DecidableEq

/-- The columns under which a binding is unique. -/
def AgentMailbox.pair (b : AgentMailbox) : String × String :=
  (b.agentId, b.mailboxAccountId)

def Agent.name (a : Agent) : String × String :=
  (a.workspaceId, a.key)

structure Db where
  mailboxes : List Mailbox
  agents : Table.Unique Agent.id Agent.name
  bindings : Table.Unique AgentMailbox.id AgentMailbox.pair

/-! ### The writes -/

/-- Is it a binding of the agent? -/
def AgentMailbox.isOf (workspaceId agentId : String) (b : AgentMailbox) : Bool :=
  b.workspaceId = workspaceId && b.agentId = agentId

/-- The binding of an agent to a mailbox. -/
def Db.findBinding (db : Db) (workspaceId agentId mailboxAccountId : String) :
    Option AgentMailbox :=
  db.bindings.rows.find? fun b =>
    b.isOf workspaceId agentId && b.mailboxAccountId = mailboxAccountId

/-- Write the flag of a binding. -/
def Db.flag (db : Db) (id : String) (isPrimary : Bool) : Db :=
  { db with
    bindings := db.bindings.update id (fun b => { b with isPrimary := isPrimary }) (fun _ => rfl)
      fun _ => rfl }

/-- Write the mailbox that the row of an agent keeps. -/
def Db.setCache (db : Db) (agentId : String) (mailboxAccountId : Option String) : Db :=
  { db with
    agents := db.agents.update agentId (fun a => { a with mailboxAccountId := mailboxAccountId })
      (fun _ => rfl) fun _ => rfl }

/-- The id and the time of a binding, should one be created. -/
structure Fresh where
  id : String
  now : ℕ

/-- The row of a new binding. -/
def newBinding (fresh : Fresh) (workspaceId agentId mailboxAccountId : String)
    (access : MailboxAccessLevel) (isPrimary : Bool) : AgentMailbox where
  id := fresh.id
  workspaceId := workspaceId
  agentId := agentId
  mailboxAccountId := mailboxAccountId
  access := access
  isPrimary := isPrimary
  createdAt := fresh.now

def upsertBinding (db : Db) (fresh : Fresh) (workspaceId agentId mailboxAccountId : String)
    (access : MailboxAccessLevel) (isPrimary : Bool) : Db :=
  match db.findBinding workspaceId agentId mailboxAccountId with
  | some existing =>
    { db with
      bindings := db.bindings.update existing.id
        (fun b => { b with access := access, isPrimary := isPrimary }) (fun _ => rfl) fun _ => rfl }
  | none =>
    { db with
      bindings := db.bindings.insert
        (newBinding fresh workspaceId agentId mailboxAccountId access isPrimary) }

/-- The access of a binding that becomes primary. -/
def primaryAccess (existing : Option AgentMailbox) : MailboxAccessLevel :=
  match existing with
  | some b => if b.access = .read then .both else b.access
  | none => .both

/-- The first write of `setPrimaryMailbox`. -/
def Db.clearPrimaries (db : Db) (workspaceId agentId : String) : Db :=
  { db with
    bindings := db.bindings.rewrite
      (fun b => if b.isOf workspaceId agentId && b.isPrimary then { b with isPrimary := false } else b)
      (fun b => by split <;> rfl) fun b => by split <;> rfl }

def setPrimaryMailbox (db : Db) (fresh : Fresh) (workspaceId agentId : String)
    (mailboxAccountId : Option String) : Db :=
  let cleared := db.clearPrimaries workspaceId agentId
  let bound :=
    match mailboxAccountId with
    | some id =>
      -- The empty text is falsy.
      if id = "" then cleared
      else
        let existing := cleared.findBinding workspaceId agentId id
        upsertBinding cleared fresh workspaceId agentId id (primaryAccess existing) true
    | none => cleared
  bound.setCache agentId mailboxAccountId

/-- The order of `reconcilePrimary`: primary bindings first, then the oldest. -/
def bindingBefore (a b : AgentMailbox) : Bool :=
  (a.isPrimary && !b.isPrimary) || (a.isPrimary = b.isPrimary && a.createdAt ≤ b.createdAt)

/-- Clear the flags of bindings, one after the other. -/
def Db.demote (db : Db) (extras : List AgentMailbox) : Db :=
  extras.foldl (fun db extra => db.flag extra.id false) db

/-- Promote the oldest sendable binding, if there is one. -/
def Db.promote (db : Db) (agentId : String) (bindings : List AgentMailbox) : Db :=
  match bindings.find? (·.access.isSendable) with
  | some next => (db.flag next.id true).setCache agentId (some next.mailboxAccountId)
  | none => db.setCache agentId none

def reconcilePrimary (db : Db) (workspaceId agentId : String) : Db :=
  let bindings := (db.bindings.rows.filter (·.isOf workspaceId agentId)).insertionSort
    (bindingBefore · ·)
  let primaries := bindings.filter (·.isPrimary)
  let collapsed := db.demote primaries.tail
  match primaries.head? with
  | some primary =>
    if primary.access.isSendable then collapsed.setCache agentId (some primary.mailboxAccountId)
    else (collapsed.flag primary.id false).promote agentId bindings
  | none => collapsed.promote agentId bindings

/-! ### The operations -/

inductive AgentError where
  | badRequest (message : String)
  | conflict (message : String)
  deriving DecidableEq, Repr

def assertMailboxInWorkspace (db : Db) (workspaceId mailboxAccountId : String) :
    Except AgentError Unit :=
  if db.mailboxes.any fun m => m.id = mailboxAccountId && m.workspaceId = workspaceId then .ok ()
  else
    .error (.badRequest "mailbox_account_id does not reference a mailbox in this workspace.")

/-- The check of a mailbox that may be given. -/
def checkMailbox (db : Db) (workspaceId : String) (mailboxAccountId : Option String) :
    Except AgentError Unit :=
  if truthy mailboxAccountId then
    assertMailboxInWorkspace db workspaceId (mailboxAccountId.getD "")
  else .ok ()

structure CreateAgentInput where
  key : String
  displayName : String
  description : Option String := none
  avatarUrl : Option String := none
  mailboxAccountId : Option String := none
  autonomyLevel : Option AgentAutonomyLevel := none
  recipientPolicy : Option Json := none
  tier : Option AgentTier := none
  managerAgentKey : Option String := none

/-- The row of a new agent. -/
def CreateAgentInput.agent (input : CreateAgentInput) (workspaceId id : String) : Agent where
  id := id
  workspaceId := workspaceId
  key := input.key
  displayName := input.displayName
  description := input.description
  avatarUrl := input.avatarUrl
  autonomyLevel := input.autonomyLevel.getD .l1ApproveToSend
  recipientPolicy := input.recipientPolicy
  tier := input.tier.getD .unspecified
  managerAgentKey := input.managerAgentKey

def createAgent (db : Db) (fresh : Fresh) (id workspaceId : String) (input : CreateAgentInput) :
    Except AgentError Db :=
  match checkMailbox db workspaceId input.mailboxAccountId with
  | .error err => .error err
  | .ok () =>
    let agent := input.agent workspaceId id
    if db.agents.refuses agent then
      .error (.conflict
        ("An agent with key \"" ++ input.key ++ "\" already exists in this workspace."))
    else
      let created := { db with agents := db.agents.insert agent }
      if truthy input.mailboxAccountId then
        .ok (setPrimaryMailbox created fresh workspaceId id input.mailboxAccountId)
      else .ok created

/-- A patch. A field that is `none` stays; where a column may be null, the inner option is
the value. -/
structure UpdateAgentInput where
  displayName : Option String := none
  description : Option (Option String) := none
  avatarUrl : Option (Option String) := none
  mailboxAccountId : Option (Option String) := none
  autonomyLevel : Option AgentAutonomyLevel := none
  recipientPolicy : Option (Option Json) := none
  tier : Option AgentTier := none
  managerAgentKey : Option (Option String) := none
  paused : Option Bool := none
  active : Option Bool := none

/-- The columns that are written as they are given. -/
def UpdateAgentInput.apply (patch : UpdateAgentInput) (a : Agent) : Agent :=
  { a with
    displayName := patch.displayName.getD a.displayName
    description := patch.description.getD a.description
    avatarUrl := patch.avatarUrl.getD a.avatarUrl
    autonomyLevel := patch.autonomyLevel.getD a.autonomyLevel
    tier := patch.tier.getD a.tier
    managerAgentKey := patch.managerAgentKey.getD a.managerAgentKey
    paused := patch.paused.getD a.paused
    active := patch.active.getD a.active
    recipientPolicy := patch.recipientPolicy.getD a.recipientPolicy }

/-- The agent of an id, in the workspace. -/
def Db.findAgent (db : Db) (workspaceId id : String) : Option Agent :=
  db.agents.rows.find? fun a => a.id = id && a.workspaceId = workspaceId

/-- Nothing is written when there is no such agent. -/
def updateAgent (db : Db) (fresh : Fresh) (workspaceId id : String) (patch : UpdateAgentInput) :
    Except AgentError (Option Db) :=
  match db.findAgent workspaceId id with
  | none => .ok none
  | some existing =>
    match checkMailbox db workspaceId (patch.mailboxAccountId.getD none) with
    | .error err => .error err
    | .ok () =>
      let written :=
        { db with agents := db.agents.update existing.id patch.apply (fun _ => rfl) fun _ => rfl }
      match patch.mailboxAccountId with
      | some mailboxAccountId =>
        .ok (some (setPrimaryMailbox written fresh workspaceId existing.id mailboxAccountId))
      | none => .ok (some written)

structure BindMailboxInput where
  mailboxAccountId : String
  access : Option MailboxAccessLevel := none
  isPrimary : Bool := false

def bindMailbox (db : Db) (fresh : Fresh) (workspaceId agentId : String)
    (input : BindMailboxInput) : Except AgentError (Option Db) :=
  match db.findAgent workspaceId agentId with
  | none => .ok none
  | some _ =>
    match assertMailboxInWorkspace db workspaceId input.mailboxAccountId with
    | .error err => .error err
    | .ok () =>
      let requested := input.access.getD .send
      let bound :=
        if input.isPrimary then
          let access := if requested = .read then .both else requested
          let upserted :=
            upsertBinding db fresh workspaceId agentId input.mailboxAccountId access false
          setPrimaryMailbox upserted fresh workspaceId agentId (some input.mailboxAccountId)
        else upsertBinding db fresh workspaceId agentId input.mailboxAccountId requested false
      .ok (some (reconcilePrimary bound workspaceId agentId))

def unbindMailbox (db : Db) (workspaceId agentId mailboxAccountId : String) : Option Db :=
  match db.findAgent workspaceId agentId with
  | none => none
  | some _ =>
    match db.findBinding workspaceId agentId mailboxAccountId with
    | some binding =>
      let deleted := { db with bindings := db.bindings.delete (·.id = binding.id) }
      some (reconcilePrimary deleted workspaceId agentId)
    | none => some db

/-! ### Sequences of operations -/

inductive Label where
  | create (fresh : Fresh) (id workspaceId : String) (input : CreateAgentInput)
  | update (fresh : Fresh) (workspaceId id : String) (patch : UpdateAgentInput)
  | bind (fresh : Fresh) (workspaceId agentId : String) (input : BindMailboxInput)
  | unbind (workspaceId agentId mailboxAccountId : String)
  /-- A mailbox is registered. -/
  | mailbox (m : Mailbox)

/-- Is the id one that no binding has? -/
def Db.isFresh (db : Db) (fresh : Fresh) : Bool :=
  db.bindings.rows.all (·.id ≠ fresh.id)

/-- One operation. One that throws, or finds no agent, leaves the tables as they are. -/
def step (db : Db) : Label → Option Db
  | .create fresh id workspaceId input =>
    if db.isFresh fresh && db.agents.rows.all (·.id ≠ id) then
      match createAgent db fresh id workspaceId input with
      | .ok db' => some db'
      | .error _ => some db
    else none
  | .update fresh workspaceId id patch =>
    if db.isFresh fresh then
      match updateAgent db fresh workspaceId id patch with
      | .ok (some db') => some db'
      | .ok none | .error _ => some db
    else none
  | .bind fresh workspaceId agentId input =>
    if db.isFresh fresh then
      match bindMailbox db fresh workspaceId agentId input with
      | .ok (some db') => some db'
      | .ok none | .error _ => some db
    else none
  | .unbind workspaceId agentId mailboxAccountId =>
    some ((unbindMailbox db workspaceId agentId mailboxAccountId).getD db)
  | .mailbox m => some { db with mailboxes := db.mailboxes ++ [m] }

/-- The operation updates an agent to the empty mailbox. -/
def emptied (db : Db) : Label → Bool
  | .update _ workspaceId id patch =>
    patch.mailboxAccountId = some (some "") && (db.findAgent workspaceId id).isSome
  | _ => false

/-- Initially there are no agents. -/
def system : System Db Label where
  init db := db.agents.rows = [] ∧ db.bindings.rows = []
  step := step

/-! ### The invariant -/

/-- **The invariant of an agent**, whose row keeps a mailbox or none. -/
structure Bound (db : Db) (agentId : String) (mailboxAccountId : Option String) : Prop where
  one : ∀ b ∈ db.bindings.rows, ∀ b' ∈ db.bindings.rows, b.agentId = agentId →
    b'.agentId = agentId → b.isPrimary = true → b'.isPrimary = true → b = b'
  cache : ∀ m, mailboxAccountId = some m ↔
    ∃ b ∈ db.bindings.rows, b.agentId = agentId ∧ b.isPrimary = true ∧ b.mailboxAccountId = m
  sendable : ∀ b ∈ db.bindings.rows, b.agentId = agentId → b.isPrimary = true →
    b.access.isSendable = true

/-- It holds for each agent. -/
def AllBound (db : Db) : Prop :=
  ∀ a ∈ db.agents.rows, Bound db a.id a.mailboxAccountId

end Agents
end EmailOps
