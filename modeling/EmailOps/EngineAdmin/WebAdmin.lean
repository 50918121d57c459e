import EmailOps.EngineAdmin.Domains

/-!
# The engine's admin interface

`JamesAdminClient` speaks James' WebAdmin REST interface. A `Request` is a call of it
that changes something on the engine; what the engine answers is an oracle. Each
operation of the client is given with the requests it makes, in their order, and the
result it reports.

* `EachTargets` says of a list of requests that all of them are about one domain, and
  `ensureAccount_targets`, `setQuota_targets` and `removeAccount_targets` say it of the
  operations on an account.
-/

namespace EmailOps.EngineAdmin

/-- A request that changes something on the engine. -/
inductive Request where
  | putDomain (domain : Text)
  | deleteDomain (domain : Text)
  | putUser (address password : Text)
  | deleteUser (address : Text)
  | putMailbox (address mailbox : Text)
  | putQuota (address : Text) (size : ℕ)
  | deleteQuota (address : Text)
  deriving DecidableEq

/-- The account a request is about. -/
def Request.account : Request → Option Text
  | .putDomain _ | .deleteDomain _ => none
  | .putUser a _ | .deleteUser a | .putMailbox a _ | .putQuota a _ | .deleteQuota a => some a

/-- The domain a request is about, as it is spelled there. -/
def Request.domain : Request → Option Text
  | .putDomain d | .deleteDomain d => some d
  | .putUser a _ | .deleteUser a | .putMailbox a _ | .putQuota a _ | .deleteQuota a =>
    splitAddress a

/-- The admin interface as one call finds it: whether its URL is set, and the HTTP status
of each answer, with `none` for a transport error or a timeout. -/
structure WebAdmin where
  isConfigured : Bool
  answer : Request → Option ℕ

/-- The outcome of an admin mutation. -/
structure EngineProvisionResult where
  provisioned : Bool
  reason : Option Text
  deriving DecidableEq

/-- A 2xx is a success, and so is a 409 where the object may exist already. -/
def ok (res : Option ℕ) (idempotentConflict : Bool) : Bool :=
  match res with
  | none => false
  | some status => (200 ≤ status && status < 300) || (idempotentConflict && status = 409)

def result (res : Option ℕ) (what : Text) (idempotentConflict : Bool) : EngineProvisionResult :=
  if ok res idempotentConflict then ⟨true, none⟩
  else
    ⟨false, some (match res with
      | some status => what ++ " → HTTP ".toList ++ Nat.toDigits 10 status
      | none => what ++ " → transport error".toList)⟩

def notConfigured : EngineProvisionResult :=
  ⟨false, some "james admin not configured".toList⟩

/-- `operation(argument)`, as the results name it. -/
def naming (operation : String) (argument : Text) : Text :=
  operation.toList ++ '(' :: argument ++ [')']

/-- The standard mailboxes of a fresh account. -/
def STANDARD_MAILBOXES : List Text :=
  ["INBOX".toList, "Sent".toList, "Drafts".toList, "Trash".toList, "Archive".toList, "Spam".toList]

def DEFAULT_MAILBOX_QUOTA_BYTES : ℕ := 5368709120

namespace WebAdmin

variable (admin : WebAdmin)

def ensureDomain (domain : Text) : List Request × EngineProvisionResult :=
  if !admin.isConfigured then ([], notConfigured)
  else
    let put := Request.putDomain domain
    ([put], result (admin.answer put) (naming "ensureDomain" domain) true)

def removeDomain (domain : Text) : List Request × EngineProvisionResult :=
  if !admin.isConfigured then ([], notConfigured)
  else
    let delete := Request.deleteDomain domain
    ([delete], result (admin.answer delete) (naming "removeDomain" domain) true)

/-- A null quota removes the limit. -/
def setQuota (address : Text) (quotaBytes : Option ℕ) : List Request × EngineProvisionResult :=
  if !admin.isConfigured then ([], notConfigured)
  else
    match quotaBytes with
    | none =>
      let delete := Request.deleteQuota address
      ([delete], result (admin.answer delete) (naming "clearQuota" address) true)
    | some size =>
      let put := Request.putQuota address size
      ([put], result (admin.answer put) (naming "setQuota" address) false)

def removeAccount (address : Text) : List Request × EngineProvisionResult :=
  if !admin.isConfigured then ([], notConfigured)
  else
    let delete := Request.deleteUser address
    ([delete], result (admin.answer delete) (naming "removeAccount" address) true)

/-- Make sure of an account: its domain, its login, the standard mailboxes and the quota.
The domain, the mailboxes and the quota are best effort. `quotaBytes` is `none` where the
option is left out, and `generated` is the password that is used where none is given. -/
def ensureAccount (address : Text) (password : Option Text) (quotaBytes : Option (Option ℕ))
    (generated : Text) : List Request × EngineProvisionResult :=
  if !admin.isConfigured then ([], notConfigured)
  else
    match splitAddress address with
    | none => ([], ⟨false, some (quoting "invalid address ".toList address [])⟩)
    | some domain =>
      let domainRequests := (admin.ensureDomain domain).1
      let put := Request.putUser address (password.getD generated)
      let userResult := result (admin.answer put) (naming "ensureAccount" address) true
      if !userResult.provisioned then (domainRequests ++ [put], userResult)
      else
        let mailboxRequests := STANDARD_MAILBOXES.map (Request.putMailbox address)
        let quotaRequests :=
          match quotaBytes.getD (some DEFAULT_MAILBOX_QUOTA_BYTES) with
          | none => []
          | some size => (admin.setQuota address (some size)).1
        (domainRequests ++ [put] ++ mailboxRequests ++ quotaRequests, ⟨true, none⟩)

end WebAdmin

/-! ### The domain an operation is about -/

/-- All requests of a list are about one domain. -/
def EachTargets (domain : Text) (requests : List Request) : Prop :=
  ∀ req ∈ requests, req.domain = some domain

theorem EachTargets.nil {d : Text} : EachTargets d [] :=
  fun _ hmem => absurd hmem List.not_mem_nil

theorem EachTargets.append {d : Text} {rs rs' : List Request} (h : EachTargets d rs)
    (h' : EachTargets d rs') : EachTargets d (rs ++ rs') := by
  intro req hmem
  cases List.mem_append.mp hmem with
  | inl hmem => exact h req hmem
  | inr hmem => exact h' req hmem

theorem EachTargets.singleton {d : Text} {req : Request} (h : req.domain = some d) :
    EachTargets d [req] := by
  intro req' hmem
  rw [List.mem_singleton.mp hmem, h]

variable {admin : WebAdmin} {a d : Text}

theorem ensureDomain_targets (admin : WebAdmin) (d : Text) :
    EachTargets d (admin.ensureDomain d).1 := by
  unfold WebAdmin.ensureDomain
  split
  · exact .nil
  · exact .singleton rfl

theorem removeDomain_targets (admin : WebAdmin) (d : Text) :
    EachTargets d (admin.removeDomain d).1 := by
  unfold WebAdmin.removeDomain
  split
  · exact .nil
  · exact .singleton rfl

theorem setQuota_targets (h : splitAddress a = some d) (quotaBytes : Option ℕ) :
    EachTargets d (admin.setQuota a quotaBytes).1 := by
  unfold WebAdmin.setQuota
  split
  · exact .nil
  · split
    · exact .singleton h
    · exact .singleton h

theorem removeAccount_targets (h : splitAddress a = some d) :
    EachTargets d (admin.removeAccount a).1 := by
  unfold WebAdmin.removeAccount
  split
  · exact .nil
  · exact .singleton h

theorem ensureAccount_targets (h : splitAddress a = some d) (password : Option Text)
    (quotaBytes : Option (Option ℕ)) (generated : Text) :
    EachTargets d (admin.ensureAccount a password quotaBytes generated).1 := by
  unfold WebAdmin.ensureAccount
  rw [h]
  -- The domain and the user come first, the folders and the quota after them.
  have huser : EachTargets d
      ((admin.ensureDomain d).1 ++ [Request.putUser a (password.getD generated)]) :=
    (ensureDomain_targets admin d).append (.singleton h)
  have hmailboxes : EachTargets d (STANDARD_MAILBOXES.map (Request.putMailbox a)) := by
    intro req hmem
    obtain ⟨mailbox, -, rfl⟩ := List.mem_map.mp hmem
    exact h
  split
  · exact .nil
  · dsimp only
    split
    · exact huser
    · refine (huser.append hmailboxes).append ?_
      split
      · exact .nil
      · exact setQuota_targets h _

theorem ensureAccount_of_split_none (h : splitAddress a = none) (password : Option Text)
    (quotaBytes : Option (Option ℕ)) (generated : Text) :
    (admin.ensureAccount a password quotaBytes generated).1 = [] := by
  unfold WebAdmin.ensureAccount
  rw [h]
  split
  · rfl
  · rfl

end EmailOps.EngineAdmin
