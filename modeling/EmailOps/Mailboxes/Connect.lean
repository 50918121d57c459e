import EmailOps.EngineAdmin.Boundary

/-!
# Connecting an external account

A user connects a Gmail or Microsoft account of their own. The address is the one that the
provider gives for it, and where the provider gives none, the one that the client sent along.
The row of the mailbox is written by an upsert under workspace and address.

* `connect` is the endpoint; the providers are a parameter.
* `KeepsForeign` says that the mailboxes of others keep their owner and their provider.
* `keepsForeign_iff`: they do as long as none of them stands under the address that is
  connected, and not otherwise, since the upsert does not ask whose row it finds.
-/

namespace EmailOps
namespace Mailboxes

open Framework Framework.Text EngineAdmin

/-- What the providers answer: the address in the profile of a user's linked account. There
is none without a token, and none where the engine does not answer. -/
abbrev Profiles := User → ExternalProvider → Option Text

structure ConnectMailboxDto where
  provider : ExternalProvider
  /-- A hint. -/
  emailAddress : Option Text
  displayName : Option Text

/-- The user that is known by an id, of either kind. -/
def ownerOf (users : List User) (ucUid : String) : Option User :=
  users.find? fun u => u.keycloakId = some ucUid || u.id = ucUid

/-- The ids that a caller may be known by. -/
def callerKeys (users : List User) (ucUid : String) : List String :=
  match ownerOf users ucUid with
  | some u => [ucUid, u.keycloakId.getD u.id, u.id]
  | none => [ucUid]

/-- Is the row owned under a key that is not the caller's, or of another provider? -/
def Foreign (users : List User) (ucUid : String) (provider : ExternalProvider)
    (m : AdminMailbox) : Prop :=
  (∃ key, m.ownerKey = some key ∧ key ∉ callerKeys users ucUid) ∨ m.provider ≠ provider.name

/-- The mailboxes of others keep their owner and their provider. -/
def KeepsForeign (users : List User) (ucUid : String) (provider : ExternalProvider)
    (s s' : State) : Prop :=
  ∀ m ∈ s.mailboxes, Foreign users ucUid provider m →
    ∃ m' ∈ s'.mailboxes, m'.id = m.id ∧ m'.ownerKey = m.ownerKey ∧ m'.ownerKind = m.ownerKind ∧
      m'.provider = m.provider

section Endpoint

variable [CaseMapping]

/-- The address that the provider gives for the caller's account. -/
def resolveOwnAddress (users : List User) (profiles : Profiles) (provider : ExternalProvider)
    (ucUid : String) : Option Text :=
  (ownerOf users ucUid).bind fun user =>
    ((profiles user provider).map fun email => toLowerCase (trim email)).filter (· ≠ [])

/-- The address that is connected: the provider's, or else the hint. -/
def connectAddress (users : List User) (profiles : Profiles) (ucUid : String)
    (body : ConnectMailboxDto) : Option Text :=
  ((resolveOwnAddress users profiles body.provider ucUid).or body.emailAddress).filter (· ≠ [])

/-- The endpoint. -/
def connect (s : State) (profiles : Profiles) (workspaceId ucUid id : String)
    (body : ConnectMailboxDto) : State × Except ApiError Unit :=
  if ucUid = "" then (s, .error (.badRequest "No identity on the request.".toList))
  else
    match connectAddress s.users profiles ucUid body with
    | none =>
      (s, .error (.badRequest
        "Could not determine the account address — re-link the account, then try again.".toList))
    | some emailAddress =>
      match assertValidAddress emailAddress with
      | .error e => (s, .error e)
      | .ok () =>
        (connectExternalMailbox s workspaceId (some ucUid) id body.provider emailAddress
          body.displayName, .ok ())

end Endpoint

/-! ### The upsert -/

section Upsert

variable {s : State} {workspaceId ucUid id : String} {provider : ExternalProvider}
  {emailAddress : Text} {displayName : Option Text} {m m' : AdminMailbox}

/-- The rows under other addresses stay. -/
theorem mem_connectExternalMailbox_of_other (hm : m ∈ s.mailboxes)
    (hother : ¬ (m.workspaceId = workspaceId ∧ m.emailAddress = emailAddress)) :
    m ∈ (connectExternalMailbox s workspaceId (some ucUid) id provider emailAddress
      displayName).mailboxes := by
  unfold connectExternalMailbox
  dsimp only
  split
  · exact Table.mem_update.mpr (.inr ⟨hm, hother⟩)
  · exact List.mem_append_left _ hm

/-- **The row under the address is given to the caller**, whosever it was. -/
theorem taken_of_connectExternalMailbox (hids : (s.mailboxes.map (·.id)).Nodup)
    (hid : ucUid ≠ "") (hm : m ∈ s.mailboxes) (hworkspace : m.workspaceId = workspaceId)
    (haddress : m.emailAddress = emailAddress)
    (hm' : m' ∈ (connectExternalMailbox s workspaceId (some ucUid) id provider emailAddress
      displayName).mailboxes) (hsame : m'.id = m.id) :
    m'.provider = provider.name ∧
      ∃ key ∈ callerKeys s.users ucUid, m'.ownerKey = some key := by
  have htaken : s.hasMailbox workspaceId emailAddress = true := by
    refine List.any_eq_true.mpr ⟨m, hm, ?_⟩
    rw [hworkspace, haddress, decide_eq_true rfl, decide_eq_true rfl]
    rfl
  have htruthy : truthy (some ucUid) = true := by
    simpa [truthy] using hid
  have howner : (s.users.find? fun u => u.keycloakId = some ucUid || some u.id = some ucUid) =
      ownerOf s.users ucUid := by
    simp [ownerOf]
  unfold connectExternalMailbox at hm'
  rw [if_pos htruthy, howner, if_pos htaken] at hm'
  rcases Table.mem_update.mp hm' with ⟨r, -, -, rfl⟩ | ⟨hold, hother⟩
  · refine ⟨rfl, ?_⟩
    unfold callerKeys
    cases ownerOf s.users ucUid with
    | none => exact ⟨ucUid, List.mem_singleton_self _, rfl⟩
    | some u => exact ⟨_, List.mem_cons_of_mem _ List.mem_cons_self, rfl⟩
  · -- Another row would have the same id.
    obtain rfl := List.inj_on_of_nodup_map hids hold hm hsame
    exact absurd ⟨hworkspace, haddress⟩ hother

theorem not_foreign_of_taken {users : List User} (hprovider : m.provider = provider.name)
    (howner : ∃ key ∈ callerKeys users ucUid, m.ownerKey = some key) :
    ¬ Foreign users ucUid provider m := by
  obtain ⟨key, hkey, hown⟩ := howner
  rintro (⟨other, hother, hforeign⟩ | hne)
  · obtain rfl := Option.some.inj (hown.symm.trans hother)
    exact hforeign hkey
  · exact hne hprovider

/-- **The upsert leaves the mailboxes of others alone if and only if none of them has the
address.** -/
theorem keepsForeign_connectExternalMailbox (hids : (s.mailboxes.map (·.id)).Nodup)
    (hid : ucUid ≠ "") :
    KeepsForeign s.users ucUid provider s (connectExternalMailbox s workspaceId (some ucUid) id
        provider emailAddress displayName) ↔
      ∀ m ∈ s.mailboxes, m.workspaceId = workspaceId → m.emailAddress = emailAddress →
        ¬ Foreign s.users ucUid provider m := by
  constructor
  · intro hkeeps m hm hworkspace haddress hforeign
    obtain ⟨m', hm', hsame, howner, -, hprovider⟩ := hkeeps m hm hforeign
    obtain ⟨hname, hown⟩ :=
      taken_of_connectExternalMailbox hids hid hm hworkspace haddress hm' hsame
    rw [hprovider] at hname
    rw [howner] at hown
    exact not_foreign_of_taken hname hown hforeign
  · intro hnone m hm hforeign
    refine ⟨m, mem_connectExternalMailbox_of_other hm ?_, rfl, rfl, rfl, rfl⟩
    exact fun h => hnone m hm h.1 h.2 hforeign

end Upsert

section Endpoint

variable [CaseMapping]

/-- **Connecting leaves the mailboxes of others alone if and only if none of them has the
address that is connected.** -/
theorem keepsForeign_iff {s : State} (hids : (s.mailboxes.map (·.id)).Nodup)
    (profiles : Profiles) (workspaceId ucUid id : String) (body : ConnectMailboxDto) :
    KeepsForeign s.users ucUid body.provider s
        (connect s profiles workspaceId ucUid id body).1 ↔
      (ucUid ≠ "" → ∀ address, connectAddress s.users profiles ucUid body = some address →
        assertValidAddress address = .ok () → ∀ m ∈ s.mailboxes, m.workspaceId = workspaceId →
          m.emailAddress = address → ¬ Foreign s.users ucUid body.provider m) := by
  have hkept : KeepsForeign s.users ucUid body.provider s s :=
    fun m hm _ => ⟨m, hm, rfl, rfl, rfl, rfl⟩
  unfold connect
  split
  · next hnobody => exact iff_of_true hkept fun hsome => absurd hnobody hsome
  · next hid =>
    split
    · next hnone =>
      refine iff_of_true hkept fun _ address haddress => ?_
      rw [hnone] at haddress
      cases haddress
    · next address haddress =>
      rw [haddress]
      split
      · next e hinvalid =>
        refine iff_of_true hkept fun _ other hother hvalid => ?_
        obtain rfl := Option.some.inj hother
        rw [hinvalid] at hvalid
        cases hvalid
      · next hvalid =>
        rw [keepsForeign_connectExternalMailbox hids hid]
        constructor
        · rintro hnone - other hother - m hm hworkspace hsame
          obtain rfl := Option.some.inj hother
          exact hnone m hm hworkspace hsame
        · exact fun hnone => hnone hid address rfl hvalid

end Endpoint

/-! ### Bob connects an account -/

def ada : User := ⟨"ada", none⟩

def bob : User := ⟨"bob", some "sub-bob"⟩

/-- Ada has connected her account. -/
def adasAccount : AdminMailbox where
  id := "m1"
  workspaceId := "acme"
  emailAddress := "ada@mail.test".toList
  displayName := none
  isDefault := false
  active := true
  postmarkLane := false
  provider := "gmail"
  ownerKind := .human
  ownerKey := some "ada"
  kind := "gmail".toList
  provisionState := .registered

def adasAcme : State where
  users := [ada, bob]
  domains := []
  mailboxes := [adasAccount]
  log := []

/-- The provider does not answer. -/
def noProfiles : Profiles := fun _ _ => none

/-- The body of a call with a hint. -/
def hinted (address : String) : ConnectMailboxDto where
  provider := .gmail
  emailAddress := some address.toList
  displayName := none

/-- Bob connects an account of an address that nobody has. -/
theorem keepsForeign_iff_free : KeepsForeign adasAcme.users "sub-bob" .gmail adasAcme
    (connect adasAcme noProfiles "acme" "sub-bob" "m2" (hinted "bob@mail.test")).1 := by
  refine (keepsForeign_iff (by decide) noProfiles "acme" "sub-bob" "m2"
    (hinted "bob@mail.test")).mpr ?_
  rintro - address haddress - m hm - hsame
  obtain rfl : "bob@mail.test".toList = address := Option.some.inj haddress
  obtain rfl := List.mem_singleton.mp hm
  exact absurd hsame (by decide)

/-- **Bob takes Ada's mailbox.** The provider does not answer, and the hint is her address. -/
theorem connect_takes_over : ¬ KeepsForeign adasAcme.users "sub-bob" .gmail adasAcme
    (connect adasAcme noProfiles "acme" "sub-bob" "m2" (hinted "ada@mail.test")).1 := by
  intro hkeeps
  have hforeign : Foreign adasAcme.users "sub-bob" .gmail adasAccount :=
    .inl ⟨"ada", rfl, by decide⟩
  obtain ⟨m, hm, -, howner, -⟩ := hkeeps adasAccount (List.mem_singleton_self _) hforeign
  obtain rfl : m = { adasAccount with ownerKey := some "sub-bob" } := List.mem_singleton.mp hm
  exact absurd howner (by decide)

end Mailboxes
end EmailOps
