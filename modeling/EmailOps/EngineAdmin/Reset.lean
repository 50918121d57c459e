import Mathlib.Logic.Function.Basic
import EmailOps.EngineAdmin.Boundary

/-!
# Resetting an app password

`resetOwnAppPassword` draws a password and runs the operation that makes sure of an account:
it puts the user with that password, and takes a conflict with a user that exists for a
success; then it puts the standard mailboxes and, as no quota is given, the default one.

* `Engine` is what the engine holds of its accounts, and `EngineRun` an engine that says of
  each request what it has done with it.
* `view_perform_ensureAccount` is the account after the requests of the operation.
* `reset_truthful_iff` says when a reset that succeeds has set the password it returns and has left
  the rest of the account: when the engine did put the user, rather than answer with a
  conflict, and the quota was the default one or was not put.
-/

namespace EmailOps.EngineAdmin

open Framework

/-! ### The engine -/

/-- An account of the engine. -/
structure EngineAccount where
  password : Text
  quota : Option ℕ
  aliases : List Text
  mailboxes : List Text
  deriving DecidableEq

/-- The accounts of the engine, by their addresses. -/
abbrev Engine := Text → Option EngineAccount

/-- Change an account that exists. -/
def Engine.modify (e : Engine) (address : Text) (f : EngineAccount → EngineAccount) : Engine :=
  Function.update e address ((e address).map f)

/-- What a request does to the accounts, when the engine does what it asks. -/
def Request.effect (e : Engine) : Request → Engine
  | .putDomain _ | .deleteDomain _ => e
  -- Putting a user that exists sets its password.
  | .putUser a p =>
    Function.update e a (some
      (match e a with
        | some account => { account with password := p }
        | none => ⟨p, none, [], []⟩))
  | .deleteUser a => Function.update e a none
  | .putMailbox a mailbox =>
    e.modify a fun account =>
      { account with mailboxes :=
          if account.mailboxes.contains mailbox then account.mailboxes
          else account.mailboxes ++ [mailbox] }
  | .putQuota a size => e.modify a fun account => { account with quota := some size }
  | .deleteQuota a => e.modify a fun account => { account with quota := none }

/-- An engine at work: which requests it does. It does those it answers with a 2xx and none
that it answers otherwise. One that is not answered it may have done. -/
structure EngineRun extends WebAdmin where
  applied : Request → Bool
  applied_of_ok : ∀ req, ok (answer req) false = true → applied req = true
  not_applied : ∀ req status, answer req = some status → ok (some status) false = false →
    applied req = false

theorem EngineRun.applied_of_conflict_ok (x : EngineRun) {req : Request}
    (h : ok (x.answer req) true = true) : x.applied req = ok (x.answer req) false := by
  cases hok : ok (x.answer req) false with
  | true => exact x.applied_of_ok req hok
  | false =>
    cases hanswer : x.answer req with
    | none => simp [ok, hanswer] at h
    | some status => exact x.not_applied req status hanswer (by rw [← hanswer, hok])

/-- The accounts after a list of requests. -/
def EngineRun.perform (x : EngineRun) (requests : List Request) (e : Engine) : Engine :=
  requests.foldl (fun e req => if x.applied req then req.effect e else e) e

section Perform

variable (x : EngineRun) (e : Engine)

@[simp] theorem perform_nil : x.perform [] e = e := rfl

theorem perform_cons (req : Request) (requests : List Request) :
    x.perform (req :: requests) e =
      x.perform requests (if x.applied req then req.effect e else e) := rfl

theorem perform_append (requests requests' : List Request) :
    x.perform (requests ++ requests') e = x.perform requests' (x.perform requests e) :=
  List.foldl_append

end Perform

/-! ### What is seen of an account -/

/-- The attributes of an account, its folders apart. -/
structure AccountView where
  password : Text
  quota : Option ℕ
  aliases : List Text
  deriving DecidableEq

/-- What is seen of the account of an address. -/
def Engine.view (e : Engine) (address : Text) : Option AccountView :=
  (e address).map fun account => ⟨account.password, account.quota, account.aliases⟩

section View

variable (x : EngineRun) (e : Engine) (a : Text)

/-- The account with a password, made if there is none. -/
def withPassword (p : Text) (account : Option AccountView) : AccountView :=
  match account with
  | some account => { account with password := p }
  | none => ⟨p, none, []⟩

@[simp] theorem view_putUser (p : Text) :
    Engine.view (Request.effect e (.putUser a p)) a = some (withPassword p (e.view a)) := by
  unfold Engine.view Request.effect
  cases h : e a <;> simp [h, withPassword]

@[simp] theorem view_putMailbox (mailbox : Text) :
    Engine.view (Request.effect e (.putMailbox a mailbox)) a = e.view a := by
  simp only [Engine.view, Request.effect, Engine.modify, Function.update_self, Option.map_map]
  rfl

@[simp] theorem view_putQuota (size : ℕ) :
    Engine.view (Request.effect e (.putQuota a size)) a =
      (e.view a).map fun account => { account with quota := some size } := by
  simp only [Engine.view, Request.effect, Engine.modify, Function.update_self, Option.map_map]
  rfl

/-- Putting folders changes nothing that is seen. -/
theorem view_perform_putMailbox (mailboxes : List Text) :
    Engine.view (x.perform (mailboxes.map (Request.putMailbox a)) e) a = e.view a := by
  induction mailboxes generalizing e with
  | nil => rfl
  | cons mailbox rest ih =>
    rw [List.map_cons, perform_cons, ih]
    split
    · exact view_putMailbox e a mailbox
    · rfl

/-- The account after an operation that has put the user. -/
theorem view_perform_ensureAccount {d : Text} (hconfigured : x.isConfigured = true)
    (hsplit : splitAddress a = some d) (p generated : Text)
    (hput : ok (x.answer (.putUser a p)) true = true) :
    Engine.view (x.perform (x.ensureAccount a (some p) none generated).1 e) a =
      let put := if x.applied (.putUser a p) then some (withPassword p (e.view a)) else e.view a
      if x.applied (.putQuota a DEFAULT_MAILBOX_QUOTA_BYTES) then
        put.map fun account => { account with quota := some DEFAULT_MAILBOX_QUOTA_BYTES }
      else put := by
  have hrequests : (x.ensureAccount a (some p) none generated).1 =
      [.putDomain d, .putUser a p] ++ (STANDARD_MAILBOXES.map (Request.putMailbox a) ++
        [.putQuota a DEFAULT_MAILBOX_QUOTA_BYTES]) := by
    simp [WebAdmin.ensureAccount, WebAdmin.ensureDomain, WebAdmin.setQuota, hconfigured, hsplit,
      result, hput]
  rw [hrequests, perform_append, perform_append]
  -- the quota comes last, then the folders, then the user
  have hquota (e : Engine) : Engine.view
      (x.perform [.putQuota a DEFAULT_MAILBOX_QUOTA_BYTES] e) a =
        if x.applied (.putQuota a DEFAULT_MAILBOX_QUOTA_BYTES) then
          (e.view a).map fun account =>
            { account with quota := some DEFAULT_MAILBOX_QUOTA_BYTES }
        else e.view a := by
    rw [perform_cons, perform_nil]
    split
    · exact view_putQuota e a _
    · rfl
  have huser : Engine.view (x.perform [.putDomain d, .putUser a p] e) a =
      if x.applied (.putUser a p) then some (withPassword p (e.view a)) else e.view a := by
    have hdomain : (if x.applied (.putDomain d) then Request.effect e (.putDomain d) else e) = e :=
      ite_self e
    rw [perform_cons, perform_cons, perform_nil, hdomain]
    split
    · exact view_putUser e a p
    · rfl
  rw [hquota, view_perform_putMailbox, huser]

end View

/-! ### The reset -/

section Reset

variable [CaseMapping]

/-- The requests that a reset makes. -/
def resetRequests (s : State) (admin : WebAdmin) (workspaceId : String) (ucUid : Option String)
    (id : String) (password generated : Text) : List Request :=
  ((resetOwnAppPassword s admin workspaceId ucUid id password generated).1.log.drop
    s.log.length).map (·.2)

/-- A reset gets as far as success: the mailbox is a hosted one of the caller, its address
can be put, and the engine takes the user or has it already. -/
structure Resets (s : State) (admin : WebAdmin) (workspaceId : String) (ucUid : Option String)
    (id : String) (password : Text) (mb : AdminMailbox) : Prop where
  found : s.findMailbox workspaceId id = some mb
  own : assertOwnHumanMailbox mb.toMailboxAccount ucUid = .ok ()
  address : mb.emailAddress ≠ []
  configured : admin.isConfigured = true
  split : splitAddress mb.emailAddress ≠ none
  put : ok (admin.answer (.putUser mb.emailAddress password)) true = true

variable {s : State} {admin : WebAdmin} {workspaceId id : String} {ucUid : Option String}
  {password generated : Text}

omit [CaseMapping] in
theorem ensureAccount_provisioned {a : Text} (hconfigured : admin.isConfigured = true)
    (hsplit : splitAddress a ≠ none) (p generated : Text) :
    (admin.ensureAccount a (some p) none generated).2.provisioned =
      ok (admin.answer (.putUser a p)) true := by
  obtain ⟨d, hd⟩ := Option.ne_none_iff_exists'.mp hsplit
  cases hput : ok (admin.answer (.putUser a p)) true <;>
    simp [WebAdmin.ensureAccount, hconfigured, hd, result, hput]

/-- A reset that gets so far returns the password it has drawn, and has made the requests of
making sure of the account. -/
theorem resetOwnAppPassword_of_resets {mb : AdminMailbox}
    (h : Resets s admin workspaceId ucUid id password mb) :
    (resetOwnAppPassword s admin workspaceId ucUid id password generated).2 =
        .ok (some password) ∧
      resetRequests s admin workspaceId ucUid id password generated =
        (admin.ensureAccount mb.emailAddress (some password) none generated).1 := by
  have hprovisioned := ensureAccount_provisioned h.configured h.split password generated
  rw [h.put] at hprovisioned
  have hreset : resetOwnAppPassword s admin workspaceId ucUid id password generated =
      (s.note workspaceId (admin.ensureAccount mb.emailAddress (some password) none generated).1,
        .ok (some password)) := by
    simp [resetOwnAppPassword, h.found, h.own, h.address, h.configured, hprovisioned]
  -- the log has what it had before, and after that the requests
  constructor
  · rw [hreset]
  · simp [resetRequests, hreset, State.note, Function.comp_def]

/-- Only such a reset returns a password. -/
theorem resets_of_ok {p : Text}
    (h : (resetOwnAppPassword s admin workspaceId ucUid id password generated).2 = .ok (some p)) :
    ∃ mb, Resets s admin workspaceId ucUid id password mb := by
  unfold resetOwnAppPassword at h
  cases hfound : s.findMailbox workspaceId id with
  | none => simp [hfound] at h
  | some mb =>
    simp only [hfound] at h
    cases hown : assertOwnHumanMailbox mb.toMailboxAccount ucUid with
    | error e => simp [hown] at h
    | ok _ =>
      simp only [hown] at h
      split at h
      · simp at h
      · next haddress =>
        split at h
        · simp at h
        · next hconfigured =>
          split at h
          · simp at h
          · next hprovisioned =>
            have hconf : admin.isConfigured = true := by simpa using hconfigured
            have hprov : (admin.ensureAccount mb.emailAddress (some password) none
                generated).2.provisioned = true := by simpa using hprovisioned
            -- an address that cannot be split is refused before the engine is asked
            have hsplit : splitAddress mb.emailAddress ≠ none := by
              intro hnone
              simp [WebAdmin.ensureAccount, hconf, hnone] at hprov
            exact ⟨mb, hfound, hown, haddress, hconf, hsplit,
              (ensureAccount_provisioned hconf hsplit password generated).symm.trans hprov⟩

/-! ### What a reset comes to -/

/-- A password that is returned is the one the engine takes for the account, and the rest of
the account is as it was. -/
def Truthful (s : State) (x : EngineRun) (e : Engine) (workspaceId : String)
    (ucUid : Option String) (id : String) (password generated : Text) : Prop :=
  ∀ p, (resetOwnAppPassword s x.toWebAdmin workspaceId ucUid id password generated).2 =
      .ok (some p) →
    ∃ mb account, s.findMailbox workspaceId id = some mb ∧
      e.view mb.emailAddress = some account ∧
      Engine.view
          (x.perform (resetRequests s x.toWebAdmin workspaceId ucUid id password generated) e)
          mb.emailAddress =
        some { account with password := p }

/-- **When a reset is truthful.** The account existed; the engine has put the user, or the
drawn password was its password; and its quota was the default one, or was not put. -/
theorem reset_truthful_iff (s : State) (x : EngineRun) (e : Engine) (workspaceId : String)
    (ucUid : Option String) (id : String) (password generated : Text) :
    Truthful s x e workspaceId ucUid id password generated ↔
      ∀ mb, Resets s x.toWebAdmin workspaceId ucUid id password mb →
        ∃ account, e.view mb.emailAddress = some account ∧
          (ok (x.answer (.putUser mb.emailAddress password)) false = true ∨
            account.password = password) ∧
          (x.applied (.putQuota mb.emailAddress DEFAULT_MAILBOX_QUOTA_BYTES) = false ∨
            account.quota = some DEFAULT_MAILBOX_QUOTA_BYTES) := by
  -- what the requests make of an account that exists
  have hafter : ∀ mb, Resets s x.toWebAdmin workspaceId ucUid id password mb →
      ∀ account, e.view mb.emailAddress = some account →
        (Engine.view
            (x.perform (resetRequests s x.toWebAdmin workspaceId ucUid id password generated) e)
            mb.emailAddress = some { account with password := password } ↔
          (ok (x.answer (.putUser mb.emailAddress password)) false = true ∨
              account.password = password) ∧
            (x.applied (.putQuota mb.emailAddress DEFAULT_MAILBOX_QUOTA_BYTES) = false ∨
              account.quota = some DEFAULT_MAILBOX_QUOTA_BYTES)) := by
    intro mb h account hview
    obtain ⟨d, hd⟩ := Option.ne_none_iff_exists'.mp h.split
    -- the view afterwards, in whether the user and the quota were put
    rw [(resetOwnAppPassword_of_resets h).2,
      view_perform_ensureAccount x e _ h.configured hd _ _ h.put,
      x.applied_of_conflict_ok h.put, hview]
    obtain ⟨stored, quota, aliases⟩ := account
    cases ok (x.answer (.putUser mb.emailAddress password)) false <;>
      cases x.applied (.putQuota mb.emailAddress DEFAULT_MAILBOX_QUOTA_BYTES) <;>
        simp [withPassword, eq_comm]
  constructor
  · intro htruthful mb h
    obtain ⟨mb', account, hfound, hview, hset⟩ :=
      htruthful password (resetOwnAppPassword_of_resets h).1
    obtain rfl : mb = mb' := Option.some.inj (h.found.symm.trans hfound)
    exact ⟨account, hview, (hafter mb h account hview).mp hset⟩
  · intro hcond p hp
    obtain ⟨mb, h⟩ := resets_of_ok hp
    obtain rfl : password = p := by
      simpa using (resetOwnAppPassword_of_resets h).1.symm.trans hp
    obtain ⟨account, hview, hkept⟩ := hcond mb h
    exact ⟨mb, account, h.found, hview, (hafter mb h account hview).mpr hkept⟩

end Reset

/-! ### A reset that changes the quota and not the password -/

def Request.isPutUser : Request → Bool
  | .putUser _ _ => true
  | _ => false

/-- An engine that has the user already. -/
def userExists : EngineRun where
  isConfigured := true
  answer req := some (if req.isPutUser then 409 else 204)
  applied req := !req.isPutUser
  applied_of_ok req h := by
    cases hput : req.isPutUser <;> simp [hput, ok] at h ⊢
  not_applied req status hanswer h := by
    obtain rfl := Option.some.inj hanswer
    cases hput : req.isPutUser <;> simp [hput, ok] at h ⊢

/-- The only mailbox is hosted, and its owner is `ann`. -/
def annsMailbox : State where
  users := []
  domains := []
  mailboxes := [{
    id := "m1"
    workspaceId := "ws"
    emailAddress := "ann@acme.test".toList
    displayName := none
    isDefault := false
    active := true
    postmarkLane := false
    provider := "james"
    ownerKind := .human
    ownerKey := some "ann"
    kind := "human".toList
    provisionState := .provisioned }]
  log := []

/-- Her account, with a quota of its own. -/
def annsAccount : Engine := fun _ => some ⟨"old".toList, some 1000, [], []⟩

/-- **A reset can change the quota and not the password**, and return the password it has
drawn. -/
theorem reset_not_truthful :
    (resetOwnAppPassword annsMailbox userExists.toWebAdmin "ws" (some "ann") "m1" "fresh".toList
        []).2 = .ok (some "fresh".toList) ∧
      Engine.view
          (userExists.perform (resetRequests annsMailbox userExists.toWebAdmin "ws" (some "ann")
            "m1" "fresh".toList []) annsAccount) "ann@acme.test".toList =
        some ⟨"old".toList, some DEFAULT_MAILBOX_QUOTA_BYTES, []⟩ ∧
      ¬ Truthful annsMailbox userExists annsAccount "ws" (some "ann") "m1" "fresh".toList [] := by
  have hok : (resetOwnAppPassword annsMailbox userExists.toWebAdmin "ws" (some "ann") "m1"
      "fresh".toList []).2 = .ok (some "fresh".toList) := rfl
  have hview : Engine.view
      (userExists.perform (resetRequests annsMailbox userExists.toWebAdmin "ws" (some "ann")
        "m1" "fresh".toList []) annsAccount) "ann@acme.test".toList =
      some ⟨"old".toList, some DEFAULT_MAILBOX_QUOTA_BYTES, []⟩ := by decide +kernel
  refine ⟨hok, hview, fun htruthful => ?_⟩
  obtain ⟨mb, account, hfound, -, hset⟩ := htruthful _ hok
  obtain rfl := Option.some.inj hfound
  rw [hview] at hset
  have hpassword : "old".toList = "fresh".toList :=
    congrArg AccountView.password (Option.some.inj hset)
  exact absurd hpassword (by decide)

end EmailOps.EngineAdmin
