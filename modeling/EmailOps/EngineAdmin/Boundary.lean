import Mathlib.Data.List.Nodup
import EmailOps.Framework.System
import EmailOps.Framework.Table
import EmailOps.EngineAdmin.WebAdmin

/-!
# The tenant boundary of the mail engine

The engine is shared by all workspaces. A `MailDomain` row binds a domain to the one
workspace whose domain it is, and the rows are unique by domain; the rows of mailboxes
are unique by workspace *and* address only, so that two workspaces may each have a row of
the same address. The state of the `system` holds both tables, the users, and the log of
the requests made of the engine, each under the workspace it was made for.

The owner's tools (`ensureMailDomain`, `removeMailDomain`, `setMailboxQuota`,
`removeMailboxEngine`) ask for the binding before they call the engine. `createMailbox`
and `resetOwnAppPassword` do not.

* `within_boundary`: in a run where a mailbox is created or its password reset only under
  a domain of the workspace, every request is about a domain that is bound to its
  workspace, and every account request about a domain bound to no other.
* `foreign_account_is_altered`: without that condition a workspace sets the quota, and
  asks for the password, of an account of another.
-/

namespace EmailOps.EngineAdmin

open Framework

/-! ### Rows and requests -/

inductive WorkspaceRole where
  | viewer | member | manager | admin | owner
  deriving DecidableEq

inductive MailboxProvisionState where
  | registered | provisioned
  deriving DecidableEq

/-- A mailbox with the columns of its administration. -/
structure AdminMailbox extends MailboxAccount where
  kind : Text
  provisionState : MailboxProvisionState
  deriving DecidableEq

structure CreateMailboxInput where
  emailAddress : Text
  displayName : Option Text
  ownerKind : Option MailboxOwnerKind
  ownerKey : Option String
  postmarkLane : Option Bool

/-- A patch of a mailbox. A column left out is `none`; a nullable one may be set to null. -/
structure UpdateMailboxInput where
  displayName : Option (Option Text)
  ownerKind : Option MailboxOwnerKind
  ownerKey : Option (Option String)
  postmarkLane : Option Bool
  active : Option Bool

/-- The external providers a user may connect. -/
inductive ExternalProvider where
  | gmail | microsoft
  deriving DecidableEq

def ExternalProvider.name : ExternalProvider → String
  | .gmail => "gmail"
  | .microsoft => "microsoft"

structure State where
  users : List User
  domains : List MailDomain
  mailboxes : List AdminMailbox
  /-- The requests made of the engine, with the workspaces they were made for. -/
  log : List (String × Request)

/-- Note the requests made for a workspace. -/
def State.note (s : State) (workspaceId : String) (requests : List Request) : State :=
  { s with log := s.log ++ requests.map fun req => (workspaceId, req) }

/-- The answer of an owner's tool. -/
inductive ToolStatus where
  | forbidden
  | engineNotConfigured
  | done (result : EngineProvisionResult)

section Boundary

variable [CaseMapping] [DomainMapping]

/-! ### Domain bindings -/

/-- The row that binds a key to a workspace. -/
def State.findDomain (s : State) (workspaceId : String) (key : Text) : Option MailDomain :=
  s.domains.find? fun row => row.workspaceId = workspaceId && row.domain = key

/-- Claim a domain for a workspace. The insert is globally unique; where it fails, only the
workspace's own row is looked up. -/
def bindDomain (s : State) (workspaceId : String) (domain : Text) :
    Except ApiError (State × MailDomain) :=
  match canonicalDomain domain with
  | .error e => .error e
  | .ok canonical =>
    if s.domains.all fun row => row.domain ≠ canonical then
      let row : MailDomain := { workspaceId := workspaceId, domain := canonical }
      .ok ({ s with domains := s.domains ++ [row] }, row)
    else
      match s.findDomain workspaceId canonical with
      | some owned => .ok (s, owned)
      | none => .error (.conflict
          (quoting "Mail domain ".toList canonical " is already bound to another workspace.".toList))

/-- Fail closed unless the domain is bound to the workspace. -/
def assertWorkspaceOwnsDomain (s : State) (workspaceId : String) (domain : Text) :
    Except ApiError MailDomain :=
  match canonicalDomain domain with
  | .error e => .error e
  | .ok canonical =>
    match s.findDomain workspaceId canonical with
    | some owned => .ok owned
    | none => .error (.forbidden
        (quoting "Mail domain ".toList canonical " is not bound to this workspace.".toList))

/-! ### The owner's tools -/

def ensureMailDomain (s : State) (admin : WebAdmin) (workspaceId : String) (role : WorkspaceRole)
    (domain : Text) : State × Except ApiError ToolStatus :=
  if role ≠ .owner then (s, .ok .forbidden)
  else
    match bindDomain s workspaceId domain with
    | .error e => (s, .error e)
    | .ok (s', binding) =>
      if !admin.isConfigured then (s', .ok .engineNotConfigured)
      else
        let (requests, result) := admin.ensureDomain binding.domain
        (s'.note workspaceId requests, .ok (.done result))

def removeMailDomain (s : State) (admin : WebAdmin) (workspaceId : String) (role : WorkspaceRole)
    (domain : Text) : State × Except ApiError ToolStatus :=
  if role ≠ .owner then (s, .ok .forbidden)
  else
    match assertWorkspaceOwnsDomain s workspaceId domain with
    | .error e => (s, .error e)
    | .ok binding =>
      if !admin.isConfigured then (s, .ok .engineNotConfigured)
      else
        let (requests, result) := admin.removeDomain binding.domain
        (s.note workspaceId requests, .ok (.done result))

/-- An operation on an account, for the owner of the workspace its domain is bound to. -/
def onOwnAccount (s : State) (admin : WebAdmin) (workspaceId : String) (role : WorkspaceRole)
    (address : Text) (operation : List Request × EngineProvisionResult) :
    State × Except ApiError ToolStatus :=
  if role ≠ .owner then (s, .ok .forbidden)
  else
    match domainOf address with
    | .error e => (s, .error e)
    | .ok domain =>
      match assertWorkspaceOwnsDomain s workspaceId domain with
      | .error e => (s, .error e)
      | .ok _ =>
        if !admin.isConfigured then (s, .ok .engineNotConfigured)
        else (s.note workspaceId operation.1, .ok (.done operation.2))

/-- A quota left out is the default; a null one removes the limit. -/
def setMailboxQuota (s : State) (admin : WebAdmin) (workspaceId : String) (role : WorkspaceRole)
    (address : Text) (quota_bytes : Option (Option ℕ)) : State × Except ApiError ToolStatus :=
  let quotaBytes := quota_bytes.getD (some DEFAULT_MAILBOX_QUOTA_BYTES)
  onOwnAccount s admin workspaceId role address (admin.setQuota address quotaBytes)

def removeMailboxEngine (s : State) (admin : WebAdmin) (workspaceId : String)
    (role : WorkspaceRole) (address : Text) : State × Except ApiError ToolStatus :=
  onOwnAccount s admin workspaceId role address (admin.removeAccount address)

/-! ### Mailboxes -/

/-- Only the owner of a hosted human mailbox may see to its devices. -/
def assertOwnHumanMailbox (mb : MailboxAccount) (ucUid : Option String) : Except ApiError Unit :=
  if !truthy ucUid || mb.ownerKind ≠ .human || mb.ownerKey ≠ ucUid then
    .error (.forbidden "Mailbox is not owned by the current user.".toList)
  else
    let provider := toLowerCase mb.provider.toList
    if provider ≠ "stalwart".toList && provider ≠ "james".toList then
      .error (.badRequest "Device setup is only available for hosted mailboxes.".toList)
    else .ok ()

def kindOf : MailboxOwnerKind → Text
  | .human => "human".toList
  | .agent => "agent".toList
  | .shared => "shared".toList

/-- The row that `createMailbox` writes. -/
def newMailbox (workspaceId id : String) (input : CreateMailboxInput) : AdminMailbox :=
  let ownerKind := input.ownerKind.getD .shared
  { id := id
    workspaceId := workspaceId
    emailAddress := input.emailAddress
    displayName := input.displayName
    isDefault := false
    active := true
    postmarkLane := input.postmarkLane.getD true
    provider := "stalwart"
    ownerKind := ownerKind
    ownerKey := input.ownerKey
    kind := kindOf ownerKind
    provisionState := .registered }

/-- Whether the workspace has a row of the address. -/
def State.hasMailbox (s : State) (workspaceId : String) (address : Text) : Bool :=
  s.mailboxes.any fun m => m.workspaceId = workspaceId && m.emailAddress = address

def State.findMailbox (s : State) (workspaceId id : String) : Option AdminMailbox :=
  s.mailboxes.find? fun m => m.id = id && m.workspaceId = workspaceId

/-- Change the row of an id. -/
def State.updateMailboxRow (s : State) (id : String) (f : AdminMailbox → AdminMailbox) : State :=
  { s with mailboxes := s.mailboxes.map fun m => if m.id = id then f m else m }

/-- Mint the engine account of a fresh row. An external mailbox has none, and a failure
leaves the row as it is. -/
def mintOnEngine (s : State) (admin : WebAdmin) (workspaceId : String) (created : AdminMailbox)
    (generated : Text) : State × AdminMailbox :=
  let isExternal :=
    created.provider ≠ "" && created.provider ≠ "stalwart" && created.provider ≠ "james"
  if !admin.isConfigured || isExternal then (s, created)
  else
    let (requests, res) := admin.ensureAccount created.emailAddress none none generated
    let s' := s.note workspaceId requests
    if !res.provisioned then (s', created)
    else
      (s'.updateMailboxRow created.id fun m => { m with provisionState := .provisioned },
        { created with provisionState := .provisioned })

/-- Write the row of a mailbox, then mint its account. -/
def createMailbox (s : State) (admin : WebAdmin) (workspaceId id : String)
    (input : CreateMailboxInput) (generated : Text) : State × Except ApiError AdminMailbox :=
  if s.hasMailbox workspaceId input.emailAddress then
    (s, .error (.conflict
      (quoting "A mailbox ".toList input.emailAddress " already exists in this workspace.".toList)))
  else
    let created := newMailbox workspaceId id input
    let (s', view) :=
      mintOnEngine { s with mailboxes := s.mailboxes ++ [created] } admin workspaceId created generated
    (s', .ok view)

/-- What the callers of `createMailbox` do: check the address, then create. -/
def provisionMailbox (s : State) (admin : WebAdmin) (workspaceId id : String)
    (input : CreateMailboxInput) (generated : Text) : State × Except ApiError AdminMailbox :=
  match assertValidAddress input.emailAddress with
  | .error e => (s, .error e)
  | .ok () => createMailbox s admin workspaceId id input generated

/-- Register a user's external account, or point the row of its address at it. -/
def connectExternalMailbox (s : State) (workspaceId : String) (ucUid : Option String) (id : String)
    (provider : ExternalProvider) (emailAddress : Text) (displayName : Option Text) :
    State :=
  let owner :=
    if truthy ucUid then s.users.find? fun u => u.keycloakId = ucUid || some u.id = ucUid else none
  let ownerKey :=
    match owner with
    | some u => some (u.keycloakId.getD u.id)
    | none => ucUid
  if s.hasMailbox workspaceId emailAddress then
    { s with
      mailboxes := s.mailboxes.map fun m =>
        if m.workspaceId = workspaceId ∧ m.emailAddress = emailAddress then
          { m with
            provider := provider.name
            ownerKind := .human
            ownerKey := ownerKey
            kind := provider.name.toList
            active := true }
        else m }
  else
    let created : AdminMailbox :=
      { id := id
        workspaceId := workspaceId
        emailAddress := emailAddress
        displayName := displayName
        isDefault := false
        active := true
        postmarkLane := false
        provider := provider.name
        ownerKind := .human
        ownerKey := ownerKey
        kind := provider.name.toList
        provisionState := .registered }
    { s with mailboxes := s.mailboxes ++ [created] }

def UpdateMailboxInput.apply (patch : UpdateMailboxInput) (m : AdminMailbox) : AdminMailbox :=
  { m with
    displayName := patch.displayName.getD m.displayName
    ownerKind := patch.ownerKind.getD m.ownerKind
    kind := (patch.ownerKind.map kindOf).getD m.kind
    ownerKey := patch.ownerKey.getD m.ownerKey
    postmarkLane := patch.postmarkLane.getD m.postmarkLane
    active := patch.active.getD m.active }

/-- Patch a mailbox of the workspace. -/
def updateMailbox (s : State) (workspaceId id : String) (patch : UpdateMailboxInput) :
    State × Option AdminMailbox :=
  match s.findMailbox workspaceId id with
  | none => (s, none)
  | some existing => (s.updateMailboxRow existing.id patch.apply, some (patch.apply existing))

/-- Give a mailbox of one's own a fresh password. -/
def resetOwnAppPassword (s : State) (admin : WebAdmin) (workspaceId : String)
    (ucUid : Option String) (id : String) (password generated : Text) :
    State × Except ApiError (Option Text) :=
  match s.findMailbox workspaceId id with
  | none => (s, .ok none)
  | some mb =>
    match assertOwnHumanMailbox mb.toMailboxAccount ucUid with
    | .error e => (s, .error e)
    | .ok () =>
      if mb.emailAddress = [] then (s, .ok none)
      else if !admin.isConfigured then
        (s, .error (.serviceUnavailable "James WebAdmin is not configured.".toList))
      else
        let (requests, result) :=
          admin.ensureAccount mb.emailAddress (some password) none generated
        let s' := s.note workspaceId requests
        if !result.provisioned then
          (s', .error (.serviceUnavailable "Could not reset the mailbox password.".toList))
        else (s', .ok (some password))

/-! ### The system -/

/-- A call made for a workspace. The role is the caller's in it, and each call finds the
admin interface in a state of its own. -/
inductive Label where
  | ensureMailDomain (admin : WebAdmin) (workspaceId : String) (role : WorkspaceRole)
      (domain : Text)
  | removeMailDomain (admin : WebAdmin) (workspaceId : String) (role : WorkspaceRole)
      (domain : Text)
  | setMailboxQuota (admin : WebAdmin) (workspaceId : String) (role : WorkspaceRole)
      (address : Text) (quota_bytes : Option (Option ℕ))
  | removeMailboxEngine (admin : WebAdmin) (workspaceId : String) (role : WorkspaceRole)
      (address : Text)
  | provisionMailbox (admin : WebAdmin) (workspaceId id : String) (input : CreateMailboxInput)
      (generated : Text)
  | connectExternalMailbox (workspaceId : String) (ucUid : Option String) (id : String)
      (provider : ExternalProvider) (emailAddress : Text) (displayName : Option Text)
  | updateMailbox (workspaceId id : String) (patch : UpdateMailboxInput)
  | resetOwnAppPassword (admin : WebAdmin) (workspaceId : String) (ucUid : Option String)
      (id : String) (password generated : Text)

def next (s : State) : Label → State
  | .ensureMailDomain admin workspaceId role domain =>
    (ensureMailDomain s admin workspaceId role domain).1
  | .removeMailDomain admin workspaceId role domain =>
    (removeMailDomain s admin workspaceId role domain).1
  | .setMailboxQuota admin workspaceId role address quota_bytes =>
    (setMailboxQuota s admin workspaceId role address quota_bytes).1
  | .removeMailboxEngine admin workspaceId role address =>
    (removeMailboxEngine s admin workspaceId role address).1
  | .provisionMailbox admin workspaceId id input generated =>
    (provisionMailbox s admin workspaceId id input generated).1
  | .connectExternalMailbox workspaceId ucUid id provider emailAddress displayName =>
    connectExternalMailbox s workspaceId ucUid id provider emailAddress displayName
  | .updateMailbox workspaceId id patch => (updateMailbox s workspaceId id patch).1
  | .resetOwnAppPassword admin workspaceId ucUid id password generated =>
    (resetOwnAppPassword s admin workspaceId ucUid id password generated).1

/-- A run starts before any domain is bound and any request is made. Bindings are never
taken back. -/
def system : System State Label where
  init s := s.domains = [] ∧ s.log = []
  step s l := some (next s l)

/-! ### The boundary -/

/-- A request is about the domain of a key. -/
def Request.Names (req : Request) (key : Text) : Prop :=
  ∃ d, req.domain = some d ∧ canonicalDomain d = .ok key

/-- The domain of a spelling is bound to the workspace. -/
def BoundTo (s : State) (workspaceId : String) (domain : Text) : Prop :=
  ∃ row ∈ s.domains, row.workspaceId = workspaceId ∧ canonicalDomain domain = .ok row.domain

/-- A request made for a workspace is about a domain that is bound to it, and to no
other. -/
structure Within (s : State) (workspaceId : String) (req : Request) : Prop where
  bound : ∃ row ∈ s.domains, row.workspaceId = workspaceId ∧ req.Names row.domain
  alone : ∀ row ∈ s.domains, req.Names row.domain → row.workspaceId = workspaceId

/-- Where a call reaches `ensureAccount`, the domain of the address is bound to the
workspace it is made for. -/
def Careful (s : State) : Label → Prop
  | .provisionMailbox admin workspaceId _ input _ =>
    admin.isConfigured = true → assertValidAddress input.emailAddress = .ok () →
      s.hasMailbox workspaceId input.emailAddress = false →
      ∀ domain, splitAddress input.emailAddress = some domain → BoundTo s workspaceId domain
  | .resetOwnAppPassword admin workspaceId ucUid id _ _ =>
    admin.isConfigured = true →
      ∀ mb, s.findMailbox workspaceId id = some mb →
        assertOwnHumanMailbox mb.toMailboxAccount ucUid = .ok () →
        ∀ domain, splitAddress mb.emailAddress = some domain → BoundTo s workspaceId domain
  | _ => True

/-! ### What every call keeps -/

/-- The bound domains are canonical, each is bound once, and every request was made under
a binding of its workspace. -/
structure Inv (s : State) : Prop where
  canonical : ∀ row ∈ s.domains, canonicalDomain row.domain = .ok row.domain
  unique : (s.domains.map (·.domain)).Nodup
  bound : ∀ entry ∈ s.log, ∃ row ∈ s.domains,
    row.workspaceId = entry.1 ∧ entry.2.Names row.domain

variable {s s' : State} {workspaceId : String} {d : Text} {requests : List Request}

theorem Inv.initial (h : system.init s) : Inv s := by
  obtain ⟨hdomains, hlog⟩ := h
  constructor
  · intro row hrow
    rw [hdomains] at hrow
    cases hrow
  · rw [hdomains]
    exact List.nodup_nil
  · intro entry hentry
    rw [hlog] at hentry
    cases hentry

theorem Inv.eq_of_key (h : Inv s) {row row' : MailDomain} (hrow : row ∈ s.domains)
    (hrow' : row' ∈ s.domains) (hkey : row.domain = row'.domain) : row = row' :=
  List.inj_on_of_nodup_map h.unique hrow hrow' hkey

/-- What is bound to its workspace is bound to no other. -/
theorem Inv.within (h : Inv s) {req : Request} (hmem : (workspaceId, req) ∈ s.log) :
    Within s workspaceId req := by
  obtain ⟨row, hrow, hws, hnames⟩ := h.bound (workspaceId, req) hmem
  refine ⟨⟨row, hrow, hws, hnames⟩, ?_⟩
  intro row' hrow' hnames'
  obtain ⟨d, hd, hkey⟩ := hnames
  obtain ⟨d', hd', hkey'⟩ := hnames'
  -- The request has one domain, so the two rows have one key.
  obtain rfl : d = d' := Option.some.inj (hd.symm.trans hd')
  have hsame : row.domain = row'.domain := Except.ok.inj (hkey.symm.trans hkey')
  rw [← h.eq_of_key hrow hrow' hsame]
  exact hws

theorem Inv.setMailboxes (h : Inv s) (mailboxes : List AdminMailbox) :
    Inv { s with mailboxes := mailboxes } :=
  ⟨h.canonical, h.unique, h.bound⟩

/-- Requests about one domain that is bound to the workspace may be made. -/
theorem Inv.note (h : Inv s) (hbound : BoundTo s workspaceId d) (htarget : EachTargets d requests) :
    Inv (s.note workspaceId requests) := by
  refine ⟨h.canonical, h.unique, ?_⟩
  intro entry hentry
  cases List.mem_append.mp hentry with
  | inl hold => exact h.bound entry hold
  | inr hnew =>
    obtain ⟨req, hreq, rfl⟩ := List.mem_map.mp hnew
    obtain ⟨row, hrow, hws, hkey⟩ := hbound
    exact ⟨row, hrow, hws, d, htarget req hreq, hkey⟩

theorem Inv.note_nil (h : Inv s) : Inv (s.note workspaceId []) := by
  have hsame : s.note workspaceId [] = s := by
    unfold State.note
    rw [List.map_nil, List.append_nil]
  rwa [hsame]

/-! ### The owner's tools -/

omit [CaseMapping] [DomainMapping] in
theorem mem_of_findDomain {key : Text} {row : MailDomain}
    (h : s.findDomain workspaceId key = some row) :
    row ∈ s.domains ∧ row.workspaceId = workspaceId ∧ row.domain = key := by
  have hfound := List.find?_some h
  simp only [Bool.and_eq_true, decide_eq_true_eq] at hfound
  exact ⟨List.mem_of_find?_eq_some h, hfound⟩

/-- A claimed domain is bound to the workspace from then on. -/
theorem Inv.bindDomain (h : Inv s) {row : MailDomain}
    (hbind : bindDomain s workspaceId d = .ok (s', row)) :
    Inv s' ∧ BoundTo s' workspaceId row.domain := by
  unfold EngineAdmin.bindDomain at hbind
  split at hbind
  · cases hbind
  · next canonical hcanonical =>
    have hkey : canonicalDomain canonical = .ok canonical := canonicalDomain_idem hcanonical
    split at hbind
    · next hfree =>
      obtain ⟨rfl, rfl⟩ := Prod.mk.inj (Except.ok.inj hbind)
      refine ⟨⟨?_, ?_, ?_⟩, ?_⟩
      · -- The new row has the canonical key.
        intro row hrow
        cases List.mem_append.mp hrow with
        | inl hold => exact h.canonical row hold
        | inr hnew =>
          rw [List.mem_singleton.mp hnew]
          exact hkey
      · -- No row had the key, so the new one keeps the keys apart.
        refine Framework.Table.nodup_insert h.unique fun row hrow => ?_
        exact of_decide_eq_true (List.all_eq_true.mp hfree row hrow)
      · -- What was bound is bound still.
        intro entry hentry
        obtain ⟨row, hrow, hrest⟩ := h.bound entry hentry
        exact ⟨row, List.mem_append_left _ hrow, hrest⟩
      · exact ⟨_, List.mem_append_right _ (List.mem_singleton_self _), rfl, hkey⟩
    · split at hbind
      · next owned hfind =>
        -- The domain was bound to the workspace before.
        obtain ⟨rfl, rfl⟩ := Prod.mk.inj (Except.ok.inj hbind)
        obtain ⟨hmem, hws, -⟩ := mem_of_findDomain hfind
        exact ⟨h, owned, hmem, hws, h.canonical owned hmem⟩
      · cases hbind

/-- A domain that passes the check is bound to the workspace. -/
theorem Inv.assertWorkspaceOwnsDomain (h : Inv s) {row : MailDomain}
    (hassert : assertWorkspaceOwnsDomain s workspaceId d = .ok row) :
    BoundTo s workspaceId d ∧ BoundTo s workspaceId row.domain := by
  unfold EngineAdmin.assertWorkspaceOwnsDomain at hassert
  split at hassert
  · cases hassert
  · next canonical hcanonical =>
    split at hassert
    · next owned hfind =>
      obtain rfl := Except.ok.inj hassert
      obtain ⟨hmem, hws, hkey⟩ := mem_of_findDomain hfind
      refine ⟨⟨owned, hmem, hws, ?_⟩, ⟨owned, hmem, hws, h.canonical owned hmem⟩⟩
      rw [hkey]
      exact hcanonical
    · cases hassert

theorem Inv.ensureMailDomain (h : Inv s) (admin : WebAdmin) (workspaceId : String)
    (role : WorkspaceRole) (domain : Text) :
    Inv (ensureMailDomain s admin workspaceId role domain).1 := by
  unfold EngineAdmin.ensureMailDomain
  split
  · exact h
  · split
    · exact h
    · next s' binding hbind =>
      obtain ⟨hinv, hbound⟩ := h.bindDomain hbind
      split
      · exact hinv
      · exact hinv.note hbound (ensureDomain_targets admin binding.domain)

theorem Inv.removeMailDomain (h : Inv s) (admin : WebAdmin) (workspaceId : String)
    (role : WorkspaceRole) (domain : Text) :
    Inv (removeMailDomain s admin workspaceId role domain).1 := by
  unfold EngineAdmin.removeMailDomain
  split
  · exact h
  · split
    · exact h
    · next binding hassert =>
      have hbound := (h.assertWorkspaceOwnsDomain hassert).2
      split
      · exact h
      · exact h.note hbound (removeDomain_targets admin binding.domain)

/-- An operation that only makes requests about the domain of its address is fenced by the
check in front of it. -/
theorem Inv.onOwnAccount (h : Inv s) (admin : WebAdmin) (workspaceId : String)
    (role : WorkspaceRole) (address : Text) (operation : List Request × EngineProvisionResult)
    (htarget : ∀ d, splitAddress address = some d → EachTargets d operation.1) :
    Inv (onOwnAccount s admin workspaceId role address operation).1 := by
  unfold EngineAdmin.onOwnAccount
  split
  · exact h
  · split
    · exact h
    · next key hdomain =>
      -- The check looks at the trimmed address, the engine gets the address as it is.
      obtain ⟨d, hsplit, hkey⟩ := canonicalDomain_of_domainOf hdomain
      split
      · exact h
      · next binding hassert =>
        obtain ⟨⟨row, hrow, hws, hrowKey⟩, -⟩ := h.assertWorkspaceOwnsDomain hassert
        have hsame : key = row.domain :=
          Except.ok.inj ((canonicalDomain_idem hkey).symm.trans hrowKey)
        have hbound : BoundTo s workspaceId d := ⟨row, hrow, hws, by rw [hkey, hsame]⟩
        split
        · exact h
        · exact h.note hbound (htarget d hsplit)

/-! ### Mailboxes -/

/-- What `ensureAccount` asks of the engine is fenced when the domain of the address is
bound to the workspace. -/
theorem Inv.ensureAccount (h : Inv s) (admin : WebAdmin) (workspaceId : String) (address : Text)
    (password : Option Text) (quotaBytes : Option (Option ℕ)) (generated : Text)
    (hbound : ∀ d, splitAddress address = some d → BoundTo s workspaceId d) :
    Inv (s.note workspaceId (admin.ensureAccount address password quotaBytes generated).1) := by
  cases hsplit : splitAddress address with
  | none =>
    rw [ensureAccount_of_split_none hsplit]
    exact h.note_nil
  | some d => exact h.note (hbound d hsplit) (ensureAccount_targets hsplit _ _ _)

theorem Inv.mintOnEngine (h : Inv s) (admin : WebAdmin) (workspaceId : String)
    (created : AdminMailbox) (generated : Text)
    (hbound : admin.isConfigured = true → ∀ d, splitAddress created.emailAddress = some d →
      BoundTo s workspaceId d) :
    Inv (mintOnEngine s admin workspaceId created generated).1 := by
  unfold EngineAdmin.mintOnEngine
  dsimp only
  split
  · -- Nothing is asked of the engine for an external mailbox.
    exact h
  · next hreaches =>
    simp only [Bool.or_eq_true, Bool.not_eq_true', not_or, Bool.not_eq_false] at hreaches
    have hnoted := h.ensureAccount admin workspaceId created.emailAddress none none generated
      (hbound hreaches.1)
    -- The row changes its state only when the account was provisioned.
    split
    · exact hnoted
    · exact hnoted.setMailboxes _

theorem Inv.provisionMailbox (h : Inv s) (admin : WebAdmin) (workspaceId id : String)
    (input : CreateMailboxInput) (generated : Text)
    (hcareful : Careful s (.provisionMailbox admin workspaceId id input generated)) :
    Inv (provisionMailbox s admin workspaceId id input generated).1 := by
  unfold EngineAdmin.provisionMailbox
  split
  · exact h
  · next hvalid =>
    unfold EngineAdmin.createMailbox
    split
    · exact h
    · next hfree =>
      refine (h.setMailboxes _).mintOnEngine admin workspaceId _ generated ?_
      intro hconfigured
      exact hcareful hconfigured hvalid (Bool.eq_false_iff.mpr hfree)

theorem Inv.resetOwnAppPassword (h : Inv s) (admin : WebAdmin) (workspaceId : String)
    (ucUid : Option String) (id : String) (password generated : Text)
    (hcareful : Careful s (.resetOwnAppPassword admin workspaceId ucUid id password generated)) :
    Inv (resetOwnAppPassword s admin workspaceId ucUid id password generated).1 := by
  unfold EngineAdmin.resetOwnAppPassword
  split
  · exact h
  · next mb hfind =>
    -- The mailbox has to be the user's own, and the engine configured.
    split
    · exact h
    · next hown =>
      split
      · exact h
      · split
        · exact h
        · next hreaches =>
          have hconfigured : admin.isConfigured = true := by
            simpa using hreaches
          have hnoted := h.ensureAccount admin workspaceId mb.emailAddress (some password) none
            generated (hcareful hconfigured mb hfind hown)
          dsimp only
          split
          · exact hnoted
          · exact hnoted

theorem Inv.connectExternalMailbox (h : Inv s) (workspaceId : String) (ucUid : Option String)
    (id : String) (provider : ExternalProvider) (emailAddress : Text) (displayName : Option Text) :
    Inv (connectExternalMailbox s workspaceId ucUid id provider emailAddress displayName) := by
  unfold EngineAdmin.connectExternalMailbox
  dsimp only
  split
  · exact h.setMailboxes _
  · exact h.setMailboxes _

theorem Inv.updateMailbox (h : Inv s) (workspaceId id : String) (patch : UpdateMailboxInput) :
    Inv (updateMailbox s workspaceId id patch).1 := by
  unfold EngineAdmin.updateMailbox
  split
  · exact h
  · exact h.setMailboxes _

theorem Inv.next (h : Inv s) {l : Label} (hcareful : Careful s l) : Inv (next s l) := by
  cases l with
  -- The domain calls check the role and the binding themselves.
  | ensureMailDomain admin workspaceId role domain =>
    exact h.ensureMailDomain admin workspaceId role domain
  | removeMailDomain admin workspaceId role domain =>
    exact h.removeMailDomain admin workspaceId role domain
  | setMailboxQuota admin workspaceId role address quota_bytes =>
    exact h.onOwnAccount admin workspaceId role address _ fun d hsplit => setQuota_targets hsplit _
  | removeMailboxEngine admin workspaceId role address =>
    exact h.onOwnAccount admin workspaceId role address _ fun d hsplit => removeAccount_targets hsplit
  -- The calls on mailboxes check less: here the run is careful.
  | provisionMailbox admin workspaceId id input generated =>
    exact h.provisionMailbox admin workspaceId id input generated hcareful
  | connectExternalMailbox workspaceId ucUid id provider emailAddress displayName =>
    exact h.connectExternalMailbox workspaceId ucUid id provider emailAddress displayName
  | updateMailbox workspaceId id patch => exact h.updateMailbox workspaceId id patch
  | resetOwnAppPassword admin workspaceId ucUid id password generated =>
    exact h.resetOwnAppPassword admin workspaceId ucUid id password generated hcareful

theorem inv_of_careful (h : system.ReachableUnder Careful s) : Inv s := by
  refine h.invariant (fun s => Inv.initial) ?_
  intro s l s' _ hinv hcareful hstep
  obtain rfl := Option.some.inj hstep
  exact hinv.next hcareful

/-- **The tenant boundary.** Every request a workspace makes of the engine is about a
domain that is bound to it and to no other workspace, as long as mailboxes are created and
passwords reset only under domains of the workspace. -/
theorem within_boundary (h : system.ReachableUnder Careful s) {req : Request}
    (hmem : (workspaceId, req) ∈ s.log) : Within s workspaceId req :=
  (inv_of_careful h).within hmem

end Boundary

/-! ### Two runs -/

/-- An engine that does everything it is asked. -/
def willing : WebAdmin where
  isConfigured := true
  answer _ := some 204

/-- A mailbox of one's own. -/
def ownMailbox (address : String) : CreateMailboxInput where
  emailAddress := address.toList
  displayName := none
  ownerKind := some .human
  ownerKey := some "ann"
  postmarkLane := none

def emptyStart : State where
  users := []
  domains := []
  mailboxes := []
  log := []

theorem emptyStart_init : system.init emptyStart := ⟨rfl, rfl⟩

/-- A workspace claims a domain, and its member has a mailbox there and a new password
for it. -/
theorem within_boundary_run : ∃ s, system.ReachableUnder Careful s ∧
    ("ws1", Request.putUser "ann@acme.test".toList "fresh".toList) ∈ s.log ∧
    Within s "ws1" (.putUser "ann@acme.test".toList "fresh".toList) := by
  have hbound : ∀ s : State, s.domains = [⟨"ws1", "acme.test".toList⟩] →
      ∀ d, splitAddress "ann@acme.test".toList = some d → BoundTo s "ws1" d := by
    intro s hdomains d hsplit
    obtain rfl : "acme.test".toList = d := Option.some.inj hsplit
    refine ⟨⟨"ws1", "acme.test".toList⟩, ?_, rfl, by decide⟩
    rw [hdomains]
    exact List.mem_singleton_self _
  have r0 : system.ReachableUnder Careful emptyStart := .init emptyStart_init
  have r1 := r0.next (.ensureMailDomain willing "ws1" .owner "Acme.test.".toList) trivial rfl
  have r2 := r1.next (.provisionMailbox willing "ws1" "m1" (ownMailbox "ann@acme.test") "made".toList)
    (fun _ _ _ => hbound _ rfl) rfl
  have r3 := r2.next (.resetOwnAppPassword willing "ws1" (some "ann") "m1" "fresh".toList [])
    (fun _ mb hfind _ => by
      obtain rfl := Option.some.inj hfind
      exact hbound _ rfl) rfl
  obtain ⟨s, hreach, hmem⟩ : ∃ s, system.ReachableUnder Careful s ∧
      ("ws1", Request.putUser "ann@acme.test".toList "fresh".toList) ∈ s.log :=
    ⟨_, r3, by decide⟩
  exact ⟨s, hreach, hmem, within_boundary hreach hmem⟩

/-- The engine account of another workspace is altered: the second workspace owns the
domain, and the first one creates a row of an address there, which sets the quota of the
account, and asks for a new password of it. -/
theorem foreign_account_is_altered : ∃ s, system.Reachable s ∧
    (⟨"ws2", "other.test".toList⟩ : MailDomain) ∈ s.domains ∧
    ("ws1", Request.putQuota "ceo@other.test".toList DEFAULT_MAILBOX_QUOTA_BYTES) ∈ s.log ∧
    ("ws1", Request.putUser "ceo@other.test".toList "fresh".toList) ∈ s.log ∧
    ¬Within s "ws1" (.putUser "ceo@other.test".toList "fresh".toList) := by
  let run : List Label :=
    [.ensureMailDomain willing "ws2" .owner "other.test".toList,
      .provisionMailbox willing "ws1" "m1" (ownMailbox "ceo@other.test") "made".toList,
      .resetOwnAppPassword willing "ws1" (some "ann") "m1" "fresh".toList []]
  have hrun : (system.exec emptyStart run).isSome = true := rfl
  obtain ⟨s, hreach, hdomains, hquota, huser⟩ : ∃ s, system.Reachable s ∧
      s.domains = [⟨"ws2", "other.test".toList⟩] ∧
      decide (("ws1", Request.putQuota "ceo@other.test".toList DEFAULT_MAILBOX_QUOTA_BYTES) ∈
        s.log) = true ∧
      decide (("ws1", Request.putUser "ceo@other.test".toList "fresh".toList) ∈ s.log) = true :=
    ⟨_, System.exec_reachable emptyStart_init (Option.some_get hrun).symm, rfl, rfl, rfl⟩
  have hrow : (⟨"ws2", "other.test".toList⟩ : MailDomain) ∈ s.domains := by
    rw [hdomains]
    exact List.mem_singleton_self _
  refine ⟨s, hreach, hrow, of_decide_eq_true hquota, of_decide_eq_true huser, ?_⟩
  intro hwithin
  have hws : "ws2" = "ws1" :=
    hwithin.alone _ hrow ⟨"other.test".toList, by decide, by decide⟩
  exact absurd hws (by decide)

end EmailOps.EngineAdmin
