import Mathlib.Data.List.Infix
import EmailOps.Auth.AccessList
import EmailOps.Framework.System

/-!
# Signing in

A verified token is turned into a row of `users`: by its `sub`, or by its address where the row
has no `sub` yet, or by a new row, if the access list has the address. A token of a broker may
also speak for another application, which gets a principal that is no row.

Any number of tokens are resolved at the same time, each one statement after the other.

* `route` is what `validate` and `validateJwtPayload` decide without the database, and `Call`
  where a resolution stands. `State.next` is its next statement.
* `State.bindings` remembers every `sub` that a row has carried, and `State.grants` who was let
  in, with which token, as whom.
* `effect_of_step` says what a step can do to the rows.
-/

namespace EmailOps
namespace Auth

open Framework Framework.Text
open Workspaces (WorkspaceRole AccessRule resolveUserAccess)

/-! ### Tokens -/

/-- The `aud` of a token. -/
inductive Audience where
  | none
  | one (aud : Text)
  | many (auds : List Text)

/-- The claims of a verified token. -/
structure Payload where
  iss : Option Text
  aud : Audience
  sub : Option Text
  email : Option Text
  /-- `act.client_id` -/
  actClientId : Option Text
  preferred_username : Option Text
  given_name : Option Text
  family_name : Option Text

/-- What is known of a person. -/
structure Profile where
  email : Option Text
  picture : Option Text
  preferred_username : Option Text
  username : Option Text
  given_name : Option Text
  firstName : Option Text
  family_name : Option Text
  lastName : Option Text

/-- The settings of the service. -/
structure Env where
  /-- `EMAIL_OPS_ACCESS_LIST` -/
  accessList : Option Text
  /-- `BRIGADE_TRUSTED_ISSUERS` -/
  trustedIssuers : Option Text
  /-- `BRIGADE_EXPECTED_AUDIENCE`, or what stands in for it. -/
  expectedAudience : Text
  /-- `EMAIL_OPS_FEDERATION_ACTORS` -/
  actors : Option Text
  toUpperCase : Text → Text

/-- `normalizeIssuer` -/
def normalizeIssuer (raw : Option Text) : Option Text :=
  match raw with
  | some raw =>
    let trimmed := (trim raw).rdropWhile (· = '/')
    if trimmed = [] then none else some trimmed
  | none => none

/-- `brigadeTrustedIssuers` -/
def brigadeTrustedIssuers (env : Env) : List Text :=
  match env.trustedIssuers with
  | none => ["https://brigade.unicorncommander.ai".toList]
  | some raw => (raw.splitOn ',').filterMap fun s => normalizeIssuer (some s)

/-- `federationActors` -/
def federationActors (env : Env) : List Text :=
  (((env.actors.getD []).splitOn ',').map trim).filter (· ≠ [])

/-- `audienceMatches` -/
def audienceMatches (aud : Audience) (expected : Text) : Bool :=
  match aud with
  | .none => false
  | .one aud => aud = expected
  | .many auds => auds.contains expected

/-- `Boolean(text)` -/
def given (t : Option Text) : Bool :=
  t.getD [] ≠ []

/-- `a || b` -/
def orElse (a b : Option Text) : Option Text :=
  if given a then a else b

/-- Where a token goes. -/
inductive Route where
  | rejected
  /-- `buildFederationPrincipal` -/
  | principal (actor : Text)
  /-- `validateKeycloakUser` -/
  | keycloak (sub : Text) (profile : Profile)
  /-- A local session. -/
  | session (id : Text)

/-- Is it a token of a trusted broker? -/
def isBrigade (env : Env) (payload : Payload) : Bool :=
  (normalizeIssuer payload.iss).any (brigadeTrustedIssuers env).contains

/-- Is it a token of the realm? -/
def isRealm (payload : Payload) : Bool :=
  (normalizeIssuer payload.iss).any fun issuer => decide ("/realms/".toList <:+: issuer)

/-- Does the token name a person? -/
def hasHumanIdentity (payload : Payload) : Bool :=
  given payload.email || payload.sub.any (·.contains '@')

/-- The address of a token, which may be in its `sub`. -/
def emailOf (payload : Payload) : Option Text :=
  payload.email.or (payload.sub.filter (·.contains '@'))

/-- `validateJwtPayload`, up to the database. -/
def routePayload (env : Env) (payload : Payload) : Route :=
  if isRealm payload || isBrigade env payload then
    let actor := (payload.actClientId.map trim).getD []
    if actor ≠ [] && !hasHumanIdentity payload && (federationActors env).contains actor then
      .principal actor
    else
      -- An actor that is not listed is treated as a person.
      match payload.sub with
      | none => .rejected
      | some sub =>
        .keycloak sub
          { email := emailOf payload, picture := none,
            preferred_username := payload.preferred_username, username := none,
            given_name := payload.given_name, firstName := none,
            family_name := payload.family_name, lastName := none }
  else
    match payload.sub with
    | none => .rejected
    | some id => .session id

/-- `validate` of the strategy, up to the database: a token of a broker must be meant for this
application. -/
def route (env : Env) (payload : Payload) : Route :=
  if isBrigade env payload && !audienceMatches payload.aud env.expectedAudience then .rejected
  else routePayload env payload

/-! ### Rows and calls -/

/-- A row of `users`, with the columns that signing in reads and writes. -/
structure Account where
  id : Text
  email : Text
  username : Text
  firstName : Text
  lastName : Text
  picture : Option Text
  keycloakId : Option Text
  isActive : Bool
  lastLoginAt : Option ℕ
  deriving DecidableEq

/-- Who signs in. -/
inductive Bearer where
  | person (sub : Text) (profile : Profile)
  | session (id : Text)

/-- Where a resolution stands. -/
inductive Call where
  | idle
  /-- The row under the `sub` is looked up next. -/
  | asked (sub : Text) (profile : Profile)
  /-- There is none; the row under the address is looked up next. -/
  | unknown (sub : Text) (profile : Profile)
  /-- The row that was found under the address is linked next. -/
  | linking (sub : Text) (profile : Profile) (id : Text)
  /-- There is none either; a row is created next. -/
  | absent (sub : Text) (profile : Profile)
  /-- The row that was found, linked or created; it is stamped next. -/
  | found (sub : Text) (profile : Profile) (account : Account)
  /-- The row of a session is looked up next. -/
  | session (id : Text)
  | ended

/-- Has the call a row? -/
def Call.isFound : Call → Bool
  | .found _ _ _ => true
  | _ => false

/-- Is the next statement the link? -/
def Call.isLinking : Call → Bool
  | .linking _ _ _ => true
  | _ => false

/-- Who was let in. -/
inductive Grant where
  | account (sub : Text) (account : Account)
  | session (account : Account)
  | principal (payload : Payload) (actor : Text)

/-- Is it a row that was let in? -/
def Grant.isAccount : Grant → Bool
  | .account _ _ => true
  | _ => false

structure State where
  accounts : List Account
  /-- `EMAIL_OPS_ALLOW_KEYCLOAK_REBIND` -/
  rebind : Bool
  now : ℕ
  calls : ℕ → Call
  bindings : List (Text × Text)
  grants : List Grant

inductive Label where
  /-- A verified token comes in. -/
  | token (c : ℕ) (payload : Payload)
  /-- The callback of the browser flow has a verified identity. -/
  | callback (c : ℕ) (sub : Text) (profile : Profile)
  /-- The next statement of a call; the identifier is what the database would generate. -/
  | next (c : ℕ) (fresh : Text)
  | setRebind (on : Bool)
  /-- An operator changes a row. -/
  | setActive (id : Text) (on : Bool)
  | tick

namespace State

variable (s : State)

def moveTo (c : ℕ) (call : Call) : State :=
  { s with calls := Function.update s.calls c call }

/-- The row of a unique column. -/
def bySub (sub : Text) : Option Account :=
  s.accounts.find? (·.keycloakId = some sub)

def byEmail (email : Text) : Option Account :=
  s.accounts.find? (·.email = email)

def byId (id : Text) : Option Account :=
  s.accounts.find? (·.id = id)

/-- `update({ where: { id } })` -/
def rewrite (id : Text) (f : Account → Account) : List Account :=
  s.accounts.map fun a => if a.id = id then f a else a

/-- Resolution 1: by the `sub`. -/
def askSub (c : ℕ) (sub : Text) (profile : Profile) : State :=
  match s.bySub sub with
  | some account => s.moveTo c (.found sub profile account)
  | none => s.moveTo c (if given profile.email then .unknown sub profile else .absent sub profile)

/-- Resolution 2: by the address. A row of another `sub` is refused, except in a migration. -/
def askEmail (c : ℕ) (sub : Text) (profile : Profile) : State :=
  match s.byEmail (profile.email.getD []) with
  | none => s.moveTo c (.absent sub profile)
  | some account =>
    -- `!byEmail.keycloakId`
    if !given account.keycloakId || s.rebind then s.moveTo c (.linking sub profile account.id)
    else s.moveTo c .ended

/-- The row is linked to the `sub`, whatever it holds by now. A `sub` of another row is refused
by the unique column. -/
def link (c : ℕ) (sub : Text) (profile : Profile) (id : Text) : State :=
  match s.byId id with
  | none => s.moveTo c .ended
  | some account =>
    if s.accounts.any fun a => a.id ≠ id && a.keycloakId = some sub then s.moveTo c .ended
    else
      { s with
        accounts := s.rewrite id fun a => { a with keycloakId := some sub }
        bindings := s.bindings ++ [(id, sub)]
        calls := Function.update s.calls c
          (.found sub profile { account with keycloakId := some sub }) }

/-- The `picture` claim, if it is an absolute address. -/
def pictureOf (profile : Profile) : Option Text :=
  profile.picture.filter fun p =>
    "http://".toList.isPrefixOf p || "https://".toList.isPrefixOf p

/-- The row of a new user. -/
def newAccount (sub : Text) (profile : Profile) (fresh : Text) : Account :=
  let email := profile.email.getD []
  { id := fresh, email
    username := (orElse profile.preferred_username (orElse profile.username (some email))).getD []
    firstName := (orElse profile.given_name (orElse profile.firstName (some []))).getD []
    lastName := (orElse profile.family_name (orElse profile.lastName (some []))).getD []
    picture := pictureOf profile
    keycloakId := some sub
    isActive := true
    lastLoginAt := none }

/-- Do two rows agree under a unique column? -/
def clash (a b : Account) : Bool :=
  a.id = b.id || a.email = b.email || a.username = b.username || a.keycloakId = b.keycloakId

/-- Resolution 3: a new row, if the access list has the address. -/
def create [CaseMapping] (env : Env) (c : ℕ) (sub : Text) (profile : Profile) (fresh : Text) :
    State :=
  match resolveUserAccess (getRules env.toUpperCase env.accessList) (profile.email.getD []) with
  | none => s.moveTo c .ended
  | some _ =>
    let account := newAccount sub profile fresh
    if s.accounts.any (clash account) then s.moveTo c .ended
    else
      { s with
        accounts := s.accounts ++ [account]
        bindings := s.bindings ++ [(fresh, sub)]
        calls := Function.update s.calls c (.found sub profile account) }

/-- The row is stamped and returned, as it is by now. -/
def stamp (c : ℕ) (sub : Text) (profile : Profile) (account : Account) : State :=
  let f (a : Account) : Account :=
    { a with lastLoginAt := some s.now, picture := (pictureOf profile).or a.picture }
  match s.byId account.id with
  | some row =>
    if account.isActive then
      { s with
        accounts := s.rewrite account.id f
        grants := s.grants ++ [.account sub (f row)]
        calls := Function.update s.calls c .ended }
    else s.moveTo c .ended
  | none => s.moveTo c .ended

/-- A session is that of a row that is active. -/
def resume (c : ℕ) (id : Text) : State :=
  match s.byId id with
  | some row =>
    if row.isActive then
      { s.moveTo c .ended with grants := s.grants ++ [.session row] }
    else s.moveTo c .ended
  | none => s.moveTo c .ended

/-- The next statement of a call. -/
def next [CaseMapping] (env : Env) (c : ℕ) (fresh : Text) : Option State :=
  match s.calls c with
  | .idle | .ended => none
  | .asked sub profile => some (s.askSub c sub profile)
  | .unknown sub profile => some (s.askEmail c sub profile)
  | .linking sub profile id => some (s.link c sub profile id)
  | .absent sub profile => some (s.create env c sub profile fresh)
  | .found sub profile account => some (s.stamp c sub profile account)
  | .session id => some (s.resume c id)

/-- A token comes in. -/
def receive (env : Env) (c : ℕ) (payload : Payload) : State :=
  match route env payload with
  | .rejected => s.moveTo c .ended
  | .principal actor => { s.moveTo c .ended with grants := s.grants ++ [.principal payload actor] }
  | .keycloak sub profile => s.moveTo c (.asked sub profile)
  | .session id => s.moveTo c (.session id)

end State

/-- One step. -/
def step [CaseMapping] (env : Env) (s : State) : Label → Option State
  | .token c payload =>
    match s.calls c with
    | .idle => some (s.receive env c payload)
    | _ => none
  | .callback c sub profile =>
    match s.calls c with
    | .idle => some (s.moveTo c (.asked sub profile))
    | _ => none
  | .next c fresh => s.next env c fresh
  | .setRebind on => some { s with rebind := on }
  | .setActive id on => some { s with accounts := s.rewrite id fun a => { a with isActive := on } }
  | .tick => some { s with now := s.now + 1 }

/-- Rows that agree under no unique column. -/
structure Distinct (accounts : List Account) : Prop where
  ids : (accounts.map (·.id)).Nodup
  emails : (accounts.map (·.email)).Nodup
  usernames : (accounts.map (·.username)).Nodup
  subs : ∀ a ∈ accounts, ∀ b ∈ accounts, a.keycloakId ≠ none → a.keycloakId = b.keycloakId → a = b

/-- The links of the rows. -/
def links (accounts : List Account) : List (Text × Text) :=
  accounts.filterMap fun a => a.keycloakId.map (a.id, ·)

/-- Rows, and nobody who signs in. -/
def Starts (s : State) : Prop :=
  Distinct s.accounts ∧ (∀ c, s.calls c = .idle) ∧ s.bindings = links s.accounts ∧ s.grants = []

def system [CaseMapping] (env : Env) : System State Label where
  init := Starts
  step := step env

/-! ### What a step does -/

/-- A change of a row that leaves its unique columns as they are. -/
structure KeepsKeys (f : Account → Account) : Prop where
  id : ∀ a, (f a).id = a.id
  email : ∀ a, (f a).email = a.email
  username : ∀ a, (f a).username = a.username
  keycloakId : ∀ a, (f a).keycloakId = a.keycloakId

/-- What a step does to the rows, the history and the call that takes it. -/
inductive Effect [CaseMapping] (env : Env) (s : State) (l : Label) (s' : State) : Prop where
  /-- Rows change in their other columns, if at all. -/
  | stays (id : Text) {f : Account → Account} (hf : KeepsKeys f)
      (haccounts : s'.accounts = s.rewrite id f) (hbindings : s'.bindings = s.bindings)
      (hgrants : ∀ sub a, .account sub a ∈ s'.grants → .account sub a ∈ s.grants ∨
        ∃ c profile account, s.calls c = .found sub profile account ∧ a.id = account.id)
      (hcalls : ∀ c sub profile account, s'.calls c = .found sub profile account →
        s.calls c = .found sub profile account ∨ s.bySub sub = some account)
  | linked (c : ℕ) (fresh sub : Text) {profile : Profile} {account : Account}
      (hlabel : l = .next c fresh) (hcall : s.calls c = .linking sub profile account.id)
      (hfind : s.byId account.id = some account)
      (hfree : ∀ a ∈ s.accounts, a.keycloakId = some sub → a.id = account.id)
      (heq : s' = { s with
        accounts := s.rewrite account.id fun a => { a with keycloakId := some sub }
        bindings := s.bindings ++ [(account.id, sub)]
        calls := Function.update s.calls c
          (.found sub profile { account with keycloakId := some sub }) })
  | created (c : ℕ) (sub : Text) {profile : Profile} {account : Account} {role : WorkspaceRole}
      (hresolve : resolveUserAccess (getRules env.toUpperCase env.accessList) account.email =
        some role)
      (hsub : account.keycloakId = some sub)
      (hnew : ∀ a ∈ s.accounts, State.clash account a = false)
      (heq : s' = { s with
        accounts := s.accounts ++ [account]
        bindings := s.bindings ++ [(account.id, sub)]
        calls := Function.update s.calls c (.found sub profile account) })

theorem keepsKeys_id : KeepsKeys id :=
  ⟨fun _ => rfl, fun _ => rfl, fun _ => rfl, fun _ => rfl⟩

theorem rewrite_id (s : State) (id : Text) : s.rewrite id (fun a => a) = s.accounts := by
  rw [State.rewrite]
  exact (List.map_congr_left fun a _ => ite_self a).trans (List.map_id _)

theorem byId_eq_some {s : State} {id : Text} {a : Account} (h : s.byId id = some a) :
    a ∈ s.accounts ∧ a.id = id :=
  ⟨List.mem_of_find?_eq_some h, by simpa using List.find?_some h⟩

theorem bySub_eq_some {s : State} {sub : Text} {a : Account} (h : s.bySub sub = some a) :
    a ∈ s.accounts ∧ a.keycloakId = some sub :=
  ⟨List.mem_of_find?_eq_some h, by simpa using List.find?_some h⟩

section Effects

variable [CaseMapping] {env : Env} {s s' : State} {l : Label}

omit [CaseMapping] in
theorem found_of_update {c c' : ℕ} {call : Call} {sub : Text} {profile : Profile} {account : Account}
    (hcall : call.isFound = false)
    (h : Function.update s.calls c call c' = .found sub profile account) :
    s.calls c' = .found sub profile account := by
  rcases update_eq_cases h with ⟨-, rfl⟩ | ⟨-, h⟩
  · cases hcall
  · exact h

theorem effect_moveTo {c : ℕ} {call : Call} (hcall : call.isFound = false) :
    Effect env s l (s.moveTo c call) :=
  .stays [] keepsKeys_id (rewrite_id s []).symm rfl (fun _ _ ha => .inl ha)
    fun _ _ _ _ hc => .inl (found_of_update hcall hc)

theorem effect_ended {c : ℕ} : Effect env s l (s.moveTo c .ended) :=
  effect_moveTo rfl

theorem effect_askSub {c : ℕ} {sub : Text} {profile : Profile} :
    Effect env s l (s.askSub c sub profile) := by
  rw [State.askSub]
  split
  · next account hfind =>
    refine .stays [] keepsKeys_id (rewrite_id s []).symm rfl (fun _ _ ha => .inl ha) ?_
    intro c' sub' profile' account' hc
    rcases update_eq_cases hc with ⟨-, heq⟩ | ⟨-, hc⟩
    · cases heq
      exact .inr hfind
    · exact .inl hc
  · split <;> exact effect_moveTo rfl

theorem effect_askEmail {c : ℕ} {sub : Text} {profile : Profile} :
    Effect env s l (s.askEmail c sub profile) := by
  rw [State.askEmail]
  split
  · exact effect_moveTo rfl
  · split <;> exact effect_moveTo rfl

theorem effect_link {c : ℕ} {fresh sub : Text} {profile : Profile} {id : Text}
    (hcall : s.calls c = .linking sub profile id) :
    Effect env s (.next c fresh) (s.link c sub profile id) := by
  rw [State.link]
  split
  · exact effect_ended
  · next account hfind =>
    obtain ⟨-, rfl⟩ := byId_eq_some hfind
    split
    · exact effect_ended
    · next hfree =>
      refine .linked c fresh sub rfl hcall hfind (fun a ha hsub => ?_) rfl
      by_contra hid
      exact hfree (List.any_eq_true.mpr ⟨a, ha, by simp [hid, hsub]⟩)

theorem effect_create {c : ℕ} {sub : Text} {profile : Profile} {fresh : Text} :
    Effect env s l (s.create env c sub profile fresh) := by
  rw [State.create]
  split
  · exact effect_ended
  · next role hresolve =>
    dsimp only
    split
    · exact effect_ended
    · next hnew =>
      refine .created c sub hresolve rfl (fun a ha => ?_) rfl
      exact Bool.eq_false_iff.mpr fun hclash => hnew (List.any_eq_true.mpr ⟨a, ha, hclash⟩)

theorem effect_stamp {c : ℕ} {sub : Text} {profile : Profile} {account : Account}
    (hcall : s.calls c = .found sub profile account) :
    Effect env s l (s.stamp c sub profile account) := by
  rw [State.stamp]
  split
  · next row hfind =>
    split
    · refine .stays account.id (f := fun a => { a with
          lastLoginAt := some s.now, picture := (State.pictureOf profile).or a.picture })
        ⟨fun _ => rfl, fun _ => rfl, fun _ => rfl, fun _ => rfl⟩ rfl rfl (fun sub' a ha => ?_) ?_
      · rcases List.mem_append.mp ha with ha | ha
        · exact .inl ha
        · obtain ⟨rfl, rfl⟩ := Grant.account.inj (List.mem_singleton.mp ha)
          exact .inr ⟨c, profile, account, hcall, (byId_eq_some hfind).2⟩
      · exact fun _ _ _ _ hc => .inl (found_of_update rfl hc)
    · exact effect_ended
  · exact effect_ended

theorem effect_grant {c : ℕ} {g : Grant} (hg : g.isAccount = false) :
    Effect env s l { s.moveTo c .ended with grants := s.grants ++ [g] } := by
  refine .stays [] keepsKeys_id (rewrite_id s []).symm rfl (fun sub a ha => ?_)
    fun _ _ _ _ hc => .inl (found_of_update rfl hc)
  rcases List.mem_append.mp ha with ha | ha
  · exact .inl ha
  · rw [← List.mem_singleton.mp ha] at hg
    cases hg

theorem effect_resume {c : ℕ} {id : Text} : Effect env s l (s.resume c id) := by
  rw [State.resume]
  split
  · split
    · exact effect_grant rfl
    · exact effect_ended
  · exact effect_ended

theorem effect_receive {c : ℕ} {payload : Payload} : Effect env s l (s.receive env c payload) := by
  rw [State.receive]
  split
  · exact effect_ended
  · exact effect_grant rfl
  · exact effect_moveTo rfl
  · exact effect_moveTo rfl

/-- **What a step can do.** -/
theorem effect_of_step (h : step env s l = some s') : Effect env s l s' := by
  cases l with
  | token c payload =>
    simp only [step] at h
    split at h
    · obtain rfl := Option.some.inj h
      exact effect_receive
    · cases h
  | callback c sub profile =>
    simp only [step] at h
    split at h
    · obtain rfl := Option.some.inj h
      exact effect_moveTo rfl
    · cases h
  | next c fresh =>
    rw [step, State.next] at h
    split at h
    · cases h
    · cases h
    · obtain rfl := Option.some.inj h
      exact effect_askSub
    · obtain rfl := Option.some.inj h
      exact effect_askEmail
    · next hcall =>
      obtain rfl := Option.some.inj h
      exact effect_link hcall
    · obtain rfl := Option.some.inj h
      exact effect_create
    · next hcall =>
      obtain rfl := Option.some.inj h
      exact effect_stamp hcall
    · obtain rfl := Option.some.inj h
      exact effect_resume
  | setRebind on =>
    obtain rfl := Option.some.inj h
    exact .stays [] keepsKeys_id (rewrite_id s []).symm rfl (fun _ _ ha => .inl ha)
      fun _ _ _ _ hc => .inl hc
  | setActive id on =>
    obtain rfl := Option.some.inj h
    exact .stays id (f := fun a => { a with isActive := on })
      ⟨fun _ => rfl, fun _ => rfl, fun _ => rfl, fun _ => rfl⟩ rfl rfl
      (fun _ _ ha => .inl ha) fun _ _ _ _ hc => .inl hc
  | tick =>
    obtain rfl := Option.some.inj h
    exact .stays [] keepsKeys_id (rewrite_id s []).symm rfl (fun _ _ ha => .inl ha)
      fun _ _ _ _ hc => .inl hc

end Effects

end Auth
end EmailOps
