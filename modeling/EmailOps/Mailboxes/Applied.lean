import EmailOps.Agents.Bindings
import EmailOps.EngineAdmin.Boundary
import EmailOps.Mailboxes.Requests

/-!
# What an applied request has done

The replay of a request calls the service a direct request would have called, over the tables
as they are then. A service that finds no row to update answers with null, which is not an
error; the request is stamped as applied all the same, with an empty reference.

* `Tables` are the tables of the services, and `replayCall` the call of a service over them,
  with what it meets (`Circumstances`).
* `replay` is the replay of a request, and `State.replay_eq` places it in the protocol.
* `applied_iff_changed_iff` says when a request that is stamped as applied has changed its
  target: when its target is there, or it creates one.
-/

namespace EmailOps
namespace Mailboxes
namespace Requests

open EngineAdmin (AdminMailbox ApiError CreateMailboxInput UpdateMailboxInput WebAdmin)
open Agents (AgentError CreateAgentInput UpdateAgentInput)
open Framework

/-! ### The services -/

/-- The tables that the services write. -/
structure Tables where
  tenant : EngineAdmin.State
  agents : Table.Unique Agents.Agent.id Agents.Agent.name
  bindings : Table.Unique Agents.AgentMailbox.id Agents.AgentMailbox.pair

/-- The tables as the service of the agents sees them. -/
def Tables.db (t : Tables) : Agents.Db where
  mailboxes := t.tenant.mailboxes.map fun m => ⟨m.id, m.workspaceId⟩
  agents := t.agents
  bindings := t.bindings

def Tables.withDb (t : Tables) (db : Agents.Db) : Tables :=
  { t with agents := db.agents, bindings := db.bindings }

/-- The message of an error is not empty. -/
abbrev Message := { m : String // m ≠ "" }

/-- What a service meets when it is called: whether its transaction fails or its data are
rejected, the engine, the ids of what is created, and how it reads what it is given. -/
structure Circumstances where
  /-- The database does not run the transaction. -/
  down : Option Message
  /-- The database client rejects a value that is to be written, or to be looked up. -/
  invalid : Option Message
  admin : WebAdmin
  newId : String
  fresh : Agents.Fresh
  generated : Text
  mailboxInput : Json → CreateMailboxInput
  mailboxPatch : Option Json → UpdateMailboxInput
  agentInput : Json → CreateAgentInput
  agentPatch : Option Json → UpdateAgentInput

def apiMessage : ApiError → String
  | .badRequest m | .forbidden m | .conflict m | .serviceUnavailable m => String.ofList m

def agentMessage : AgentError → String
  | .badRequest m | .conflict m => m

/-- A service answers with the id of what it has written, with null, or throws. -/
abbrev Service := Except String (Option String)

/-- The id of the row that an update is about, if there is one: of the id it is given, or of
the first row of the workspace where it is given none. Another value is not looked up. -/
def target (firstRow : Option String) (row : String → Option String) (id : Option Json) :
    Option (Option String) :=
  match id with
  | some (.str id) => some (row (String.ofList id))
  | none => some firstRow
  | some _ => none

section Services

variable (x : Circumstances) (t : Tables) (workspaceId : String)

/-- The mailbox that an update is about. -/
def targetMailbox (id : Option Json) : Option (Option String) :=
  target ((t.tenant.mailboxes.find? (·.workspaceId = workspaceId)).map (·.id))
    (fun id => (t.tenant.findMailbox workspaceId id).map (·.id)) id

/-- The agent that an update is about. -/
def targetAgent (id : Option Json) : Option (Option String) :=
  target ((t.agents.rows.find? (·.workspaceId = workspaceId)).map (·.id))
    (fun id => (t.db.findAgent workspaceId id).map (·.id)) id

/-- `createMailbox` of the mailbox service. -/
def callCreateMailbox (input : CreateMailboxInput) : Tables × Service :=
  match EngineAdmin.createMailbox t.tenant x.admin workspaceId x.newId input x.generated with
  | (tenant, .ok view) => ({ t with tenant := tenant }, .ok (some view.id))
  | (tenant, .error e) => ({ t with tenant := tenant }, .error (apiMessage e))

/-- `updateMailbox`, of the mailbox that was found. -/
def callUpdateMailbox (id : String) (patch : UpdateMailboxInput) : Tables × Service :=
  ({ t with tenant := (EngineAdmin.updateMailbox t.tenant workspaceId id patch).1 },
    .ok ((EngineAdmin.updateMailbox t.tenant workspaceId id patch).2.map (·.id)))

/-- `createAgent` of the agent service. -/
def callCreateAgent (input : CreateAgentInput) : Tables × Service :=
  match Agents.createAgent t.db x.fresh x.newId workspaceId input with
  | .ok db => (t.withDb db, .ok (some x.newId))
  | .error e => (t, .error (agentMessage e))

/-- `updateAgent`, of the agent that was found. -/
def callUpdateAgent (id : String) (patch : UpdateAgentInput) : Tables × Service :=
  match Agents.updateAgent t.db x.fresh workspaceId id patch with
  | .ok (some db) => (t.withDb db, .ok (some id))
  | .ok none => (t, .ok none)
  | .error e => (t, .error (agentMessage e))

/-- Check, and write what the database client takes. -/
def callWrite (check : Except AgentError Unit) (write : Tables × Service) : Tables × Service :=
  match check with
  | .error e => (t, .error (agentMessage e))
  | .ok () =>
    match x.invalid with
    | some m => (t, .error m.1)
    | none => write

/-- An update: look the row up, check, and write to it. No row, no error. -/
def callUpdate (found : Option (Option String)) (check : Except AgentError Unit)
    (write : String → Tables × Service) : Tables × Service :=
  match found with
  -- The database client does not take the id.
  | none => (t, .error "Argument id: Invalid value provided.")
  | some none => (t, .ok none)
  | some (some id) => callWrite x t check (write id)

/-- The call of a service. -/
def replayCall (call : CanonicalCall) : Tables × Service :=
  match x.down with
  | some m => (t, .error m.1)
  | none =>
    match call with
    | .createMailbox input =>
      callWrite x t (.ok ()) (callCreateMailbox x t workspaceId (x.mailboxInput input))
    | .updateMailbox id patch =>
      callUpdate x t (targetMailbox t workspaceId id) (.ok ())
        fun id => callUpdateMailbox t workspaceId id (x.mailboxPatch patch)
    | .createAgent input =>
      callWrite x t (Agents.checkMailbox t.db workspaceId (x.agentInput input).mailboxAccountId)
        (callCreateAgent x t workspaceId (x.agentInput input))
    | .updateAgent id patch =>
      callUpdate x t (targetAgent t workspaceId id)
        (Agents.checkMailbox t.db workspaceId ((x.agentPatch patch).mailboxAccountId.getD none))
        fun id => callUpdateAgent x t workspaceId id (x.agentPatch patch)

end Services

/-- `replay`: the tables afterwards, and the reference or the message of the error. -/
def replay (x : Circumstances) (t : Tables) (req : ProvisioningRequest) :
    Tables × Except String String :=
  match canonicalCall req with
  | .ok call =>
    -- A service that returns null leaves an empty reference.
    ((replayCall x t req.workspaceId call).1,
      (replayCall x t req.workspaceId call).2.map (·.getD ""))
  | .error message => (t, .error message)

/-- The replay in the protocol is this one, where the service answers over the tables. -/
theorem State.replay_eq (s : State) (c : ℕ) (x : Circumstances) (t : Tables)
    (workspaceId : String) (ucUid : Option String) (req : ProvisioningRequest)
    {call : CanonicalCall} (h : canonicalCall req = .ok call) :
    s.replay c (replayCall x t req.workspaceId call).2 (.replaying workspaceId ucUid req) =
      some (State.moveTo
        { s with replays := s.replays ++ [⟨req.id, call, (Requests.replay x t req).2⟩] } c
        (.stamping workspaceId ucUid req (Requests.replay x t req).2)) := by
  simp only [State.replay, Requests.replay, h]

/-! ### What a call does -/

/-- The row of an agent after an update. -/
def agentAfter (patch : UpdateAgentInput) (a : Agents.Agent) : Agents.Agent :=
  { patch.apply a with mailboxAccountId := patch.mailboxAccountId.getD a.mailboxAccountId }

/-- A call has created its row, or has written to the row it is about, in the workspace. -/
def Changed (x : Circumstances) (t t' : Tables) (workspaceId : String) : CanonicalCall → Prop
  | .createMailbox input =>
    let address := (x.mailboxInput input).emailAddress
    t.tenant.hasMailbox workspaceId address = false ∧
      ∃ m ∈ t'.tenant.mailboxes,
        m.id = x.newId ∧ m.workspaceId = workspaceId ∧ m.emailAddress = address
  | .updateMailbox id patch =>
    ∃ row existing, targetMailbox t workspaceId id = some (some row) ∧
      t.tenant.findMailbox workspaceId row = some existing ∧
      t'.tenant.findMailbox workspaceId row = some ((x.mailboxPatch patch).apply existing)
  | .createAgent input =>
    let name := (workspaceId, (x.agentInput input).key)
    (∀ a ∈ t.agents.rows, a.name ≠ name) ∧ ∃ a ∈ t'.agents.rows, a.id = x.newId ∧ a.name = name
  | .updateAgent id patch =>
    ∃ row existing, targetAgent t workspaceId id = some (some row) ∧
      t.db.findAgent workspaceId row = some existing ∧
      t'.db.findAgent workspaceId row = some (agentAfter (x.agentPatch patch) existing)

/-- The service runs, and is about a row that is not in the workspace. -/
def Missed (x : Circumstances) (t : Tables) (workspaceId : String) (call : CanonicalCall) : Prop :=
  x.down = none ∧
    match call with
    | .updateMailbox id _ => targetMailbox t workspaceId id = some none
    | .updateAgent id _ => targetAgent t workspaceId id = some none
    | .createMailbox _ | .createAgent _ => False

/-- What a call can come to. -/
inductive Came (x : Circumstances) (t t' : Tables) (workspaceId : String) (call : CanonicalCall) :
    Service → Prop
  | threw (m : String) (hm : m ≠ "") (hnot : ¬ Missed x t workspaceId call) :
    Came x t t' workspaceId call (.error m)
  | missed (h : Missed x t workspaceId call) (hsame : t' = t) : Came x t t' workspaceId call (.ok none)
  | changed (id : String) (h : Changed x t t' workspaceId call)
      (hnot : ¬ Missed x t workspaceId call) : Came x t t' workspaceId call (.ok (some id))

section Calls

variable {x : Circumstances} {t : Tables} {workspaceId : String}

theorem find?_id_of_find? {Row : Type} {rows : List Row} {p : Row → Bool} {r : Row}
    (id : Row → String) (h : rows.find? p = some r) :
    rows.find? (fun r' => decide (id r' = id r) && p r') = some r := by
  obtain ⟨hp, before, after, hrows, hbefore⟩ := List.find?_eq_some_iff_append.mp h
  refine List.find?_eq_some_iff_append.mpr ⟨by simp [hp], before, after, hrows, fun r' hr' => ?_⟩
  simp only [Bool.not_eq_true'] at hbefore ⊢
  rw [hbefore r' hr', Bool.and_false]

/-- An update that has found a row is about a row of the workspace. -/
theorem exists_of_target {Row : Type} {rows : List Row} {key ws : Row → String}
    {id : Option Json} {row : String}
    (h : target ((rows.find? fun r => decide (ws r = workspaceId)).map key)
      (fun id => (rows.find? fun r => decide (key r = id) && decide (ws r = workspaceId)).map key)
      id = some (some row)) :
    ∃ existing, rows.find? (fun r => decide (key r = row) && decide (ws r = workspaceId)) =
      some existing ∧ key existing = row := by
  unfold target at h
  split at h
  · next name =>
    obtain ⟨r, hr, rfl⟩ := Option.map_eq_some_iff.mp (Option.some.inj h)
    have hid : key r = String.ofList name ∧ ws r = workspaceId := by
      simpa using List.find?_some hr
    exact ⟨r, by rw [hid.1, hr], rfl⟩
  · obtain ⟨r, hr, rfl⟩ := Option.map_eq_some_iff.mp (Option.some.inj h)
    exact ⟨r, find?_id_of_find? key hr, rfl⟩
  · cases h

theorem exists_of_targetMailbox {id : Option Json} {row : String}
    (h : targetMailbox t workspaceId id = some (some row)) :
    ∃ existing, t.tenant.findMailbox workspaceId row = some existing ∧ existing.id = row :=
  exists_of_target h

theorem exists_of_targetAgent {id : Option Json} {row : String}
    (h : targetAgent t workspaceId id = some (some row)) :
    ∃ existing, t.db.findAgent workspaceId row = some existing ∧ existing.id = row :=
  exists_of_target h

theorem ne_empty_of_toList {m : String} (h : m.toList ≠ []) : m ≠ "" := by
  rintro rfl
  exact h rfl

theorem agentMessage_ne_of_checkMailbox {db : Agents.Db} {mailboxAccountId : Option String}
    {e : AgentError} (h : Agents.checkMailbox db workspaceId mailboxAccountId = .error e) :
    agentMessage e ≠ "" := by
  unfold Agents.checkMailbox Agents.assertMailboxInWorkspace at h
  split at h
  · split at h
    · simp at h
    · obtain rfl := Except.error.inj h
      simp [agentMessage]
  · simp at h

/-- Minting the account of a row keeps the row, and its columns but the state of it. -/
theorem exists_mintOnEngine {tenant : EngineAdmin.State} {created : AdminMailbox}
    (h : created ∈ tenant.mailboxes) (admin : WebAdmin) (generated : Text) :
    ∃ m ∈ (EngineAdmin.mintOnEngine tenant admin workspaceId created generated).1.mailboxes,
      m.id = created.id ∧ m.workspaceId = created.workspaceId ∧
        m.emailAddress = created.emailAddress := by
  unfold EngineAdmin.mintOnEngine
  dsimp only
  split
  · exact ⟨created, h, rfl, rfl, rfl⟩
  · split
    · exact ⟨created, h, rfl, rfl, rfl⟩
    · refine ⟨_, List.mem_map_of_mem h, ?_⟩
      simp

/-- **Creating a mailbox** throws a conflict, or there is a new row of the address. -/
theorem came_createMailbox (payload : Json) :
    let r := callCreateMailbox x t workspaceId (x.mailboxInput payload)
    Came x t r.1 workspaceId (.createMailbox payload) r.2 := by
  intro r
  have hnot : ¬ Missed x t workspaceId (.createMailbox payload) := fun h => h.2
  cases htaken : t.tenant.hasMailbox workspaceId (x.mailboxInput payload).emailAddress with
  | true =>
    have hr : r = (t, .error (apiMessage (.conflict (EngineAdmin.quoting "A mailbox ".toList
        (x.mailboxInput payload).emailAddress " already exists in this workspace.".toList)))) := by
      simp only [r, callCreateMailbox, EngineAdmin.createMailbox, htaken, if_true]
    rw [hr]
    exact .threw _ (ne_empty_of_toList (by simp [apiMessage, EngineAdmin.quoting])) hnot
  | false =>
    let created := EngineAdmin.newMailbox workspaceId x.newId (x.mailboxInput payload)
    let minted := EngineAdmin.mintOnEngine
      { t.tenant with mailboxes := t.tenant.mailboxes ++ [created] } x.admin workspaceId created
      x.generated
    have hr : r = ({ t with tenant := minted.1 }, .ok (some minted.2.id)) := by
      simp only [r, callCreateMailbox, EngineAdmin.createMailbox, htaken, Bool.false_eq_true,
        if_false]
      rfl
    rw [hr]
    -- the new row is there however the engine takes its account
    refine .changed _ ⟨htaken, ?_⟩ hnot
    exact exists_mintOnEngine (List.mem_append_right _ (List.mem_singleton_self created)) x.admin
      x.generated

/-- **Updating a mailbox** that is there writes the patch to its row. -/
theorem came_updateMailbox {id : Option Json} {row : String} (patch : Option Json)
    (htarget : targetMailbox t workspaceId id = some (some row)) :
    let r := callUpdateMailbox t workspaceId row (x.mailboxPatch patch)
    Came x t r.1 workspaceId (.updateMailbox id patch) r.2 := by
  intro r
  obtain ⟨existing, hfound, rfl⟩ := exists_of_targetMailbox htarget
  have hnot : ¬ Missed x t workspaceId (.updateMailbox id patch) := by
    rintro ⟨-, hmissed⟩
    simp [htarget] at hmissed
  let written := t.tenant.updateMailboxRow existing.id (x.mailboxPatch patch).apply
  have hr : r = ({ t with tenant := written }, .ok (some existing.id)) := by
    simp only [r, callUpdateMailbox, EngineAdmin.updateMailbox, hfound]
    rfl
  rw [hr]
  refine .changed _ ⟨_, existing, htarget, hfound, ?_⟩ hnot
  -- the patch keeps the id and the workspace, by which the row is found
  show (t.tenant.mailboxes.map _).find? _ = _
  rw [List.find?_map]
  have hsame : ((fun m : AdminMailbox =>
      decide (m.id = existing.id) && decide (m.workspaceId = workspaceId)) ∘
        fun m => if m.id = existing.id then (x.mailboxPatch patch).apply m else m) =
      fun m => decide (m.id = existing.id) && decide (m.workspaceId = workspaceId) := by
    funext m
    simp only [Function.comp]
    split <;> rfl
  rw [hsame]
  show (t.tenant.findMailbox workspaceId existing.id).map _ = _
  rw [hfound, Option.map_some, if_pos rfl]

/-- Setting the primary mailbox of an agent writes its own row, in one column. -/
theorem agents_setPrimaryMailbox (db : Agents.Db) (fresh : Agents.Fresh) (agentId : String)
    (mailboxAccountId : Option String) :
    (Agents.setPrimaryMailbox db fresh workspaceId agentId mailboxAccountId).agents =
      (db.setCache agentId mailboxAccountId).agents := by
  unfold Agents.setPrimaryMailbox Agents.Db.setCache Agents.upsertBinding
  cases mailboxAccountId with
  | none => rfl
  | some id =>
    dsimp only
    split
    · rfl
    · split <;> rfl

/-- A write to the row of an agent is read back. -/
theorem findAgent_update (db : Agents.Db) (k : String) (f : Agents.Agent → Agents.Agent)
    (hf₁ : ∀ a, (f a).id = a.id) (hf₂ : ∀ a, (f a).name = a.name) (id : String) :
    (db.agents.update k f hf₁ hf₂).rows.find?
        (fun a => a.id = id && a.workspaceId = workspaceId) =
      (db.findAgent workspaceId id).map fun a => if a.id = k then f a else a := by
  show (db.agents.rows.map _).find? _ = _
  rw [List.find?_map, Agents.Db.findAgent]
  congr 1
  refine List.find?_congr fun a _ => ?_
  -- the write keeps the id and the workspace
  have hws : (f a).workspaceId = a.workspaceId := congrArg Prod.fst (hf₂ a)
  simp only [Function.comp]
  split
  · rw [hf₁, hws]
  · rfl

/-- `createAgent` throws with a message, or there is a new row, of a key that was free. -/
theorem createAgent_cases (db : Agents.Db) (fresh : Agents.Fresh) (id workspaceId : String)
    (input : CreateAgentInput) :
    (∃ e, Agents.createAgent db fresh id workspaceId input = .error e ∧ agentMessage e ≠ "") ∨
    ∃ db', Agents.createAgent db fresh id workspaceId input = .ok db' ∧
      (∀ a ∈ db.agents.rows, a.name ≠ (workspaceId, input.key)) ∧
      ∃ a ∈ db'.agents.rows, a.id = id ∧ a.name = (workspaceId, input.key) := by
  let agent := input.agent workspaceId id
  unfold Agents.createAgent
  cases hcheck : Agents.checkMailbox db workspaceId input.mailboxAccountId with
  | error e => exact .inl ⟨e, rfl, agentMessage_ne_of_checkMailbox hcheck⟩
  | ok _ =>
    dsimp only
    cases hrefused : db.agents.refuses agent with
    | true =>
      rw [if_pos rfl]
      exact .inl ⟨_, rfl, ne_empty_of_toList (by simp [agentMessage])⟩
    | false =>
      rw [if_neg Bool.false_ne_true]
      -- no row has the key
      have hclash := Table.Unique.refuses_eq_false.mp hrefused
      have hfree : ∀ a ∈ db.agents.rows, a.name ≠ (workspaceId, input.key) := fun a ha heq =>
        (Table.Unique.clash_eq_false.mp (hclash a ha)).2 heq.symm
      have hagent : agent ∈ (db.agents.insert agent).rows :=
        (Table.Unique.mem_insert hrefused).mpr (.inr rfl)
      split
      · -- the mailbox is set in a column of the new row
        refine .inr ⟨_, rfl, hfree, ?_⟩
        rw [agents_setPrimaryMailbox]
        let f (a : Agents.Agent) : Agents.Agent :=
          { a with mailboxAccountId := input.mailboxAccountId }
        have hf₁ (a : Agents.Agent) : (f a).id = a.id := rfl
        have hf₂ (a : Agents.Agent) : (f a).name = a.name := rfl
        exact Table.Unique.exists_update hf₁ hf₂ hagent
      · exact .inr ⟨_, rfl, hfree, agent, hagent, rfl, rfl⟩

/-- `updateAgent` throws with a message, or writes the patch to the row that is there. -/
theorem updateAgent_cases {db : Agents.Db} (fresh : Agents.Fresh) {existing : Agents.Agent}
    (patch : UpdateAgentInput) (hfound : db.findAgent workspaceId existing.id = some existing) :
    (∃ e, Agents.updateAgent db fresh workspaceId existing.id patch = .error e ∧
      agentMessage e ≠ "") ∨
    ∃ db', Agents.updateAgent db fresh workspaceId existing.id patch = .ok (some db') ∧
      db'.findAgent workspaceId existing.id = some (agentAfter patch existing) := by
  let written : Agents.Db :=
    { db with agents := db.agents.update existing.id patch.apply (fun _ => rfl) fun _ => rfl }
  -- the row after the patch, before its mailbox is set
  have hwritten : written.findAgent workspaceId existing.id = some (patch.apply existing) := by
    have hfind := @findAgent_update workspaceId db existing.id patch.apply (fun _ => rfl)
      (fun _ => rfl) existing.id
    rwa [hfound, Option.map_some, if_pos rfl] at hfind
  unfold Agents.updateAgent
  rw [hfound]
  dsimp only
  cases hcheck : Agents.checkMailbox db workspaceId (patch.mailboxAccountId.getD none) with
  | error e => exact .inl ⟨e, rfl, agentMessage_ne_of_checkMailbox hcheck⟩
  | ok _ =>
    dsimp only
    cases hmailbox : patch.mailboxAccountId with
    | none =>
      refine .inr ⟨written, rfl, ?_⟩
      rw [hwritten, agentAfter, hmailbox]
      rfl
    | some mailboxAccountId =>
      refine .inr ⟨_, rfl, ?_⟩
      -- the write of the patch is followed by that of the mailbox
      have hcache := @findAgent_update workspaceId written existing.id
        (fun a => { a with mailboxAccountId := mailboxAccountId }) (fun _ => rfl) (fun _ => rfl)
        existing.id
      calc (Agents.setPrimaryMailbox written fresh workspaceId existing.id
            mailboxAccountId).agents.rows.find? _
          = (written.setCache existing.id mailboxAccountId).agents.rows.find? _ := by
            rw [agents_setPrimaryMailbox]
        _ = (written.findAgent workspaceId existing.id).map _ := hcache
        _ = some (agentAfter patch existing) := by
            have hid : (patch.apply existing).id = existing.id := rfl
            rw [hwritten, Option.map_some, if_pos hid, agentAfter, hmailbox]
            rfl

/-- **Creating an agent** throws, or there is a new row of the key. -/
theorem came_createAgent (payload : Json) :
    let r := callCreateAgent x t workspaceId (x.agentInput payload)
    Came x t r.1 workspaceId (.createAgent payload) r.2 := by
  intro r
  have hnot : ¬ Missed x t workspaceId (.createAgent payload) := fun h => h.2
  obtain ⟨e, herror, hmessage⟩ | ⟨db, hok, hfree, hrow⟩ :=
    createAgent_cases t.db x.fresh x.newId workspaceId (x.agentInput payload)
  · have hr : r = (t, .error (agentMessage e)) := by
      simp only [r, callCreateAgent, herror]
    rw [hr]
    exact .threw _ hmessage hnot
  · have hr : r = (t.withDb db, .ok (some x.newId)) := by
      simp only [r, callCreateAgent, hok]
    rw [hr]
    exact .changed _ ⟨hfree, hrow⟩ hnot

/-- **Updating an agent** that is there throws, or writes the patch to its row. -/
theorem came_updateAgent {id : Option Json} {row : String} (patch : Option Json)
    (htarget : targetAgent t workspaceId id = some (some row)) :
    let r := callUpdateAgent x t workspaceId row (x.agentPatch patch)
    Came x t r.1 workspaceId (.updateAgent id patch) r.2 := by
  intro r
  obtain ⟨existing, hfound, rfl⟩ := exists_of_targetAgent htarget
  have hnot : ¬ Missed x t workspaceId (.updateAgent id patch) := by
    rintro ⟨-, hmissed⟩
    simp [htarget] at hmissed
  obtain ⟨e, herror, hmessage⟩ | ⟨db, hok, hafter⟩ :=
    updateAgent_cases x.fresh (x.agentPatch patch) hfound
  · have hr : r = (t, .error (agentMessage e)) := by
      simp only [r, callUpdateAgent, herror]
    rw [hr]
    exact .threw _ hmessage hnot
  · have hr : r = (t.withDb db, .ok (some existing.id)) := by
      simp only [r, callUpdateAgent, hok]
    rw [hr]
    exact .changed _ ⟨_, existing, htarget, hfound, hafter⟩ hnot

/-- A write that the check and the database client let through is what the call comes to. -/
theorem came_callWrite {call : CanonicalCall} {check : Except AgentError Unit}
    {write : Tables × Service} (hnot : ¬ Missed x t workspaceId call)
    (hcheck : ∀ e, check = .error e → agentMessage e ≠ "")
    (hwrite : Came x t write.1 workspaceId call write.2) :
    Came x t (callWrite x t check write).1 workspaceId call (callWrite x t check write).2 := by
  unfold callWrite
  split
  · next e => exact .threw _ (hcheck e rfl) hnot
  · split
    · next m _ => exact .threw _ m.2 hnot
    · exact hwrite

/-- An update misses when it finds no row, and writes to the row that it finds. -/
theorem came_callUpdate {call : CanonicalCall} {found : Option (Option String)}
    {check : Except AgentError Unit} {write : String → Tables × Service}
    (hmissed : Missed x t workspaceId call ↔ found = some none)
    (hcheck : ∀ e, check = .error e → agentMessage e ≠ "")
    (hwrite : ∀ row, found = some (some row) →
      Came x t (write row).1 workspaceId call (write row).2) :
    Came x t (callUpdate x t found check write).1 workspaceId call
      (callUpdate x t found check write).2 := by
  unfold callUpdate
  split
  · exact .threw _ (by simp) (by simp [hmissed])
  · exact .missed (hmissed.mpr rfl) rfl
  · next row => exact came_callWrite (by simp [hmissed]) hcheck (hwrite row rfl)

/-- **Spec of a call.** It throws, has no row to write to, or changes what it is about. -/
theorem came_replayCall (x : Circumstances) (t : Tables) (workspaceId : String)
    (call : CanonicalCall) :
    let r := replayCall x t workspaceId call
    Came x t r.1 workspaceId call r.2 := by
  intro r
  cases hdown : x.down with
  | some m =>
    have hr : r = (t, .error m.1) := by simp only [r, replayCall, hdown]
    rw [hr]
    exact .threw _ m.2 fun h => by simp [Missed, hdown] at h
  | none =>
    simp only [r, replayCall, hdown]
    cases call with
    | createMailbox payload =>
      exact came_callWrite (fun h => h.2) (fun e he => by simp at he) (came_createMailbox payload)
    | createAgent payload =>
      exact came_callWrite (fun h => h.2) (fun e => agentMessage_ne_of_checkMailbox)
        (came_createAgent payload)
    | updateMailbox id patch =>
      have hmissed : Missed x t workspaceId (.updateMailbox id patch) ↔
          targetMailbox t workspaceId id = some none := by simp [Missed, hdown]
      exact came_callUpdate hmissed (fun e he => by simp at he)
        fun row hrow => came_updateMailbox patch hrow
    | updateAgent id patch =>
      have hmissed : Missed x t workspaceId (.updateAgent id patch) ↔
          targetAgent t workspaceId id = some none := by simp [Missed, hdown]
      exact came_callUpdate hmissed (fun e => agentMessage_ne_of_checkMailbox)
        fun row hrow => came_updateAgent patch hrow

end Calls

/-! ### Requests that are stamped -/

/-- However the request is stamped: as applied, only if the call that replays it has changed its
target; and as failed, if there was no row to change. -/
def AppliedMeansChanged (x : Circumstances) (t : Tables) (req : ProvisioningRequest) : Prop :=
  ∀ ucUid now r,
    let after := stamp ucUid now (replay x t req).2 r
    (after.state = .applied → ∃ call, canonicalCall req = .ok call ∧
      Changed x t (replay x t req).1 req.workspaceId call) ∧
    ((∃ call, canonicalCall req = .ok call ∧ Missed x t req.workspaceId call) →
      after.state = .failed)

theorem stamp_applied_iff (ucUid : Option String) (now : ℕ) (outcome : Except String String)
    (r : ProvisioningRequest) :
    (stamp ucUid now outcome r).state = .applied ↔ failure outcome = none := by
  unfold stamp
  cases failure outcome with
  | none => simp
  | some m => simp

/-- A request of no known kind and action fails. -/
theorem failure_ne_none_of_canonicalCall {req : ProvisioningRequest} {m : String}
    (h : canonicalCall req = .error m) : failure (.error m) ≠ none := by
  have hm : m ≠ "" := by
    unfold canonicalCall at h
    simp only at h
    split at h
    · simp at h
    · simp at h
    · simp at h
    · simp at h
    · simp at h
    · simp at h
    · obtain rfl := Except.error.inj h
      exact ne_empty_of_toList (by simp)
  rw [failure, if_neg hm]
  simp

/-- **Applied means changed, unless the row of an update is not there**: a request to update is
stamped as applied when the workspace has no such row (any more). -/
theorem applied_iff_changed_iff (x : Circumstances) (t : Tables) (req : ProvisioningRequest) :
    AppliedMeansChanged x t req ↔
      ∀ call, canonicalCall req = .ok call → ¬ Missed x t req.workspaceId call := by
  cases hcall : canonicalCall req with
  | error m =>
    have hreplay : replay x t req = (t, .error m) := by simp only [replay, hcall]
    refine iff_of_true (fun ucUid now r => ⟨fun happlied => ?_, ?_⟩) (by simp)
    · rw [stamp_applied_iff, hreplay] at happlied
      exact absurd happlied (failure_ne_none_of_canonicalCall hcall)
    · rintro ⟨call, hok, -⟩
      rw [hcall] at hok
      cases hok
  | ok call =>
    have hreplay : replay x t req = ((replayCall x t req.workspaceId call).1,
        (replayCall x t req.workspaceId call).2.map (·.getD "")) := by
      simp only [replay, hcall]
    have hcame := came_replayCall x t req.workspaceId call
    generalize replayCall x t req.workspaceId call = done at hreplay hcame
    obtain ⟨t', service⟩ := done
    simp only [AppliedMeansChanged, hreplay, stamp_applied_iff, Except.ok.injEq, forall_eq',
      exists_eq_left', hcall]
    cases hcame with
    | threw m hm hnot =>
      refine iff_of_true (fun ucUid now r => ⟨fun happlied => ?_, fun h => absurd h hnot⟩) hnot
      simp [Except.map, failure, hm] at happlied
    | missed h hsame =>
      refine iff_of_false (fun hall => ?_) (fun hnot => hnot h)
      have happlied := (stamp_applied_iff none 0 (.ok "") req).mpr rfl
      have hfailed := (hall none 0 req).2 h
      rw [show Except.map (·.getD "") (.ok none) = (.ok "" : Except String String) from rfl,
        happlied] at hfailed
      cases hfailed
    | changed id h hnot =>
      exact iff_of_true (fun ucUid now r => ⟨fun _ => h, fun h => absurd h hnot⟩) hnot

/-! ### An agent that was deleted -/

/-- A workspace that has no agents any more. -/
def noAgents : Tables where
  tenant := ⟨[], [], [], []⟩
  agents := .empty
  bindings := .empty

/-- Everything works, and nothing is given. -/
def allGoesWell : Circumstances where
  down := none
  invalid := none
  admin := ⟨true, fun _ => some 200⟩
  newId := "new"
  fresh := ⟨"new", 0⟩
  generated := []
  mailboxInput := fun _ => ⟨[], none, none, none, none⟩
  mailboxPatch := fun _ => ⟨none, none, none, none, none⟩
  agentInput := fun _ => { key := "", displayName := "" }
  agentPatch := fun _ => { paused := some true }

/-- The request to pause an agent, filed while there was one. -/
def pauseRequest : ProvisioningRequest where
  id := "r1"
  workspaceId := "ws"
  kind := .agent
  action := "update"
  state := .approved
  payload := .obj [("id".toList, .str "a1".toList),
    ("patch".toList, .obj [("paused".toList, .bool true)])]
  summary := some "Pause"
  requestedByUcUid := none
  requestedByAgentKey := none

/-- **A request can be stamped as applied, to an agent that was deleted.** -/
theorem applied_not_changed :
    (stamp none 0 (replay allGoesWell noAgents pauseRequest).2 pauseRequest).state = .applied ∧
      (replay allGoesWell noAgents pauseRequest).1.agents.rows = [] ∧
      ¬ AppliedMeansChanged allGoesWell noAgents pauseRequest := by
  have happlied : (stamp none 0 (replay allGoesWell noAgents pauseRequest).2 pauseRequest).state =
      .applied := rfl
  refine ⟨happlied, rfl, fun hall => ?_⟩
  obtain ⟨call, hcall, hchanged⟩ := (hall none 0 pauseRequest).1 happlied
  obtain rfl := Except.ok.inj hcall
  obtain ⟨row, existing, -, hfound, -⟩ := hchanged
  -- there is no row to be found
  have hnone : noAgents.db.findAgent "ws" row = none := rfl
  rw [show pauseRequest.workspaceId = "ws" from rfl, hnone] at hfound
  cases hfound

end Requests
end Mailboxes
end EmailOps
