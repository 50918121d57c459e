import EmailOps.Email.Compose

/-!
# The fences of a mailbox

Three checks say who may act through a mailbox: one of the mail service, a copy of it in the
scheduling service, and `assertMayActThroughMailbox`, which the services of a mailbox's rules,
contacts, signatures and vacation answer share.

A user has two ids, his own and that of the identity provider, and either may be the owner's
key of a mailbox or the caller's id of a request. The first two checks look the caller up and
accept both; the third compares the two texts.

* `UnderOtherId` says that the owner calls under the id that is not the key of his mailbox.
* `allows_agree_iff`: the three give one answer to everybody else, and to him they do not.
* `allows_of_settings`: nobody else gets past the third who does not get past the others.
-/

namespace EmailOps
namespace Fences

open Framework

/-! ### The three checks -/

inductive FenceError where
  | notFound (message : String)
  | forbidden (message : String)
  | badRequest (message : String)
  deriving DecidableEq

/-- The check of the settings of a mailbox. -/
def assertMayActThroughMailbox (mb : MailboxAccount) (ucUid : Option String) :
    Except FenceError Unit :=
  if mb.ownerKind = .human ∧ (!truthy ucUid ∨ mb.ownerKey ≠ ucUid) then
    .error (.forbidden "This mailbox is private to its owner.")
  else .ok ()

/-- `SchedulingService.mayActThroughMailbox`, which reads the users in its transaction. -/
def schedulingMayActThroughMailbox (users : List User) (mailbox : MailboxAccount)
    (ucUid : Option String) : Bool :=
  if mailbox.ownerKind ≠ .human then true
  else if !truthy mailbox.ownerKey || !truthy ucUid then false
  else if mailbox.ownerKey = ucUid then true
  else
    match users.find? fun u => u.keycloakId = ucUid || some u.id = ucUid with
    | some u => mailbox.ownerKey = u.keycloakId || mailbox.ownerKey = some u.id
    | none => false

/-- Where a caller acts through a mailbox. -/
inductive Surface where
  | settings | email | scheduling
  deriving DecidableEq

/-- Does the surface let the caller act through the mailbox? -/
def Surface.allows (users : List User) (mailbox : MailboxAccount) (ucUid : Option String) :
    Surface → Bool
  | .settings => (assertMayActThroughMailbox mailbox ucUid).isOk
  | .email => mayActThroughMailbox users mailbox ucUid
  | .scheduling => schedulingMayActThroughMailbox users mailbox ucUid

/-- `MailRulesService.assertMailbox`. Creating a rule also takes a sovereign mailbox. -/
def assertMailbox (settings : Settings) (workspaceId : String) (ucUid : Option String)
    (mailboxId : String) (requireSovereign : Bool) : Except FenceError Unit :=
  match findMailbox settings workspaceId mailboxId with
  | none => .error (.notFound "Mailbox not found in this workspace.")
  | some mailbox => do
    assertMayActThroughMailbox mailbox ucUid
    if requireSovereign && (mailbox.provider ≠ "stalwart" || !mailbox.active) then
      .error (.badRequest ("Mail rules run only on active sovereign mailboxes — this mailbox " ++
        "is external or inactive."))
    else .ok ()

/-! ### What they let through -/

variable {users : List User} {mailbox : MailboxAccount} {ucUid : Option String}

/-- The mailbox is nobody's own, or the caller's id is its key. -/
def UnderItsKey (mailbox : MailboxAccount) (ucUid : Option String) : Prop :=
  mailbox.ownerKind ≠ .human ∨ truthy ucUid = true ∧ mailbox.ownerKey = ucUid

/-- The mailbox is that of the user who calls, and its key is one of his ids while he calls
under the other. -/
def UnderOtherId (users : List User) (mailbox : MailboxAccount) (ucUid : Option String) : Prop :=
  mailbox.ownerKind = .human ∧ mailbox.ownerKey ≠ ucUid ∧
    truthy mailbox.ownerKey = true ∧ truthy ucUid = true ∧
      ∃ u, users.find? (fun u => u.keycloakId = ucUid || some u.id = ucUid) = some u ∧
        (mailbox.ownerKey = some u.id ∧ ucUid = u.keycloakId ∨
          mailbox.ownerKey = u.keycloakId ∧ ucUid = some u.id)

theorem UnderOtherId.not_underItsKey (h : UnderOtherId users mailbox ucUid) :
    ¬UnderItsKey mailbox ucUid := by
  rintro (hkind | ⟨-, hkey⟩)
  · exact hkind h.1
  · exact h.2.1 hkey

theorem schedulingMayActThroughMailbox_eq (users : List User) (mailbox : MailboxAccount)
    (ucUid : Option String) :
    schedulingMayActThroughMailbox users mailbox ucUid =
      mayActThroughMailbox users mailbox ucUid :=
  rfl

theorem assertMayActThroughMailbox_isOk_iff :
    (assertMayActThroughMailbox mailbox ucUid).isOk = true ↔ UnderItsKey mailbox ucUid := by
  unfold assertMayActThroughMailbox UnderItsKey
  split
  · next h =>
    obtain ⟨hhuman, hother⟩ := h
    refine iff_of_false (by simp [Except.isOk, Except.toBool]) ?_
    rintro (hkind | ⟨htruthy, hkey⟩)
    · exact hkind hhuman
    · rcases hother with hother | hother
      · simp [htruthy] at hother
      · exact hother hkey
  · next h =>
    refine iff_of_true rfl ?_
    by_cases hhuman : mailbox.ownerKind = .human
    · have hsame := not_or.mp fun hother => h ⟨hhuman, hother⟩
      exact .inr ⟨by simpa using hsame.1, not_not.mp hsame.2⟩
    · exact .inl hhuman

/-- The lookup finds a user whose ids are the two of an owner under another name. -/
theorem find_owner_iff (hkey : mailbox.ownerKey ≠ ucUid) :
    (match users.find? fun u => u.keycloakId = ucUid || some u.id = ucUid with
      | some u => mailbox.ownerKey = u.keycloakId || mailbox.ownerKey = some u.id
      | none => false) = true ↔
      ∃ u, users.find? (fun u => u.keycloakId = ucUid || some u.id = ucUid) = some u ∧
        (mailbox.ownerKey = some u.id ∧ ucUid = u.keycloakId ∨
          mailbox.ownerKey = u.keycloakId ∧ ucUid = some u.id) := by
  cases hfind : users.find? fun u => u.keycloakId = ucUid || some u.id = ucUid with
  | none => simp
  | some u =>
    have hcaller : u.keycloakId = ucUid ∨ some u.id = ucUid := by
      simpa using List.find?_some hfind
    simp only [Option.some.injEq, exists_eq_left', Bool.or_eq_true, decide_eq_true_eq]
    constructor
    · rintro (howner | howner)
      · -- The caller's id is not this one, so it is the user's own.
        refine .inr ⟨howner, ?_⟩
        rcases hcaller with hcaller | hcaller
        · exact absurd (howner.trans hcaller) hkey
        · exact hcaller.symm
      · refine .inl ⟨howner, ?_⟩
        rcases hcaller with hcaller | hcaller
        · exact hcaller.symm
        · exact absurd (howner.trans hcaller) hkey
    · rintro (⟨howner, -⟩ | ⟨howner, -⟩)
      · exact .inr howner
      · exact .inl howner

theorem mayActThroughMailbox_iff :
    mayActThroughMailbox users mailbox ucUid = true ↔
      UnderItsKey mailbox ucUid ∨ UnderOtherId users mailbox ucUid := by
  unfold mayActThroughMailbox
  by_cases hhuman : mailbox.ownerKind = .human
  swap
  · rw [if_pos hhuman]
    exact iff_of_true rfl (.inl (.inl hhuman))
  rw [if_neg (not_not.mpr hhuman)]
  by_cases hcaller : truthy ucUid = true
  swap
  · -- Nobody calls.
    rw [if_pos (by simp [hcaller])]
    refine iff_of_false (by simp) ?_
    rintro ((hkind | ⟨htruthy, -⟩) | hother)
    · exact hkind hhuman
    · exact hcaller htruthy
    · exact hcaller hother.2.2.2.1
  by_cases hkey : mailbox.ownerKey = ucUid
  · rw [if_neg (by simp [hkey, hcaller]), if_pos hkey]
    exact iff_of_true rfl (.inl (.inr ⟨hcaller, hkey⟩))
  have hits : ¬UnderItsKey mailbox ucUid := by
    rintro (hkind | ⟨-, hsame⟩)
    · exact hkind hhuman
    · exact hkey hsame
  by_cases howned : truthy mailbox.ownerKey = true
  · rw [if_neg (by simp [howned, hcaller]), if_neg hkey]
    refine (find_owner_iff hkey).trans ?_
    constructor
    · exact fun howner => .inr ⟨hhuman, hkey, howned, hcaller, howner⟩
    · rintro (hsame | ⟨-, -, -, -, howner⟩)
      · exact absurd hsame hits
      · exact howner
  · rw [if_pos (by simp [howned])]
    refine iff_of_false (by simp) ?_
    rintro (hsame | ⟨-, -, htruthy, -⟩)
    · exact hits hsame
    · exact howned htruthy

/-! ### Whether they agree -/

/-- **The three checks agree** on a mailbox and a caller, unless it is the owner under his
other id. -/
theorem allows_agree_iff (users : List User) (mailbox : MailboxAccount)
    (ucUid : Option String) :
    (∀ surface surface' : Surface,
        surface.allows users mailbox ucUid = surface'.allows users mailbox ucUid) ↔
      ¬UnderOtherId users mailbox ucUid := by
  constructor
  · intro hagree hother
    have hmail := mayActThroughMailbox_iff.mpr (.inr hother)
    have hsettings : (assertMayActThroughMailbox mailbox ucUid).isOk = true :=
      (hagree .settings .email).trans hmail
    exact hother.not_underItsKey (assertMayActThroughMailbox_isOk_iff.mp hsettings)
  · intro hother
    have hsettings : (assertMayActThroughMailbox mailbox ucUid).isOk =
        mayActThroughMailbox users mailbox ucUid := by
      rw [Bool.eq_iff_iff, assertMayActThroughMailbox_isOk_iff, mayActThroughMailbox_iff]
      exact (or_iff_left hother).symm
    -- All three are the check of the mail service.
    have hone : ∀ surface : Surface,
        surface.allows users mailbox ucUid = mayActThroughMailbox users mailbox ucUid := by
      intro surface
      cases surface with
      | settings => exact hsettings
      | email => rfl
      | scheduling => exact schedulingMayActThroughMailbox_eq users mailbox ucUid
    exact fun surface surface' => (hone surface).trans (hone surface').symm

theorem allows_of_settings (h : Surface.settings.allows users mailbox ucUid = true)
    (surface : Surface) : surface.allows users mailbox ucUid = true := by
  have hmail : mayActThroughMailbox users mailbox ucUid = true :=
    mayActThroughMailbox_iff.mpr (.inl (assertMayActThroughMailbox_isOk_iff.mp h))
  cases surface with
  | settings => exact h
  | email => exact hmail
  | scheduling => exact hmail

/-! ### The owner's session -/

def linkedUser : User := { id := "user-1", keycloakId := some "kc-1" }

def ownMailbox : MailboxAccount where
  id := "mb-1"
  workspaceId := "w1"
  emailAddress := "ada@example.com".toList
  displayName := none
  isDefault := false
  active := true
  postmarkLane := false
  provider := "stalwart"
  ownerKind := .human
  ownerKey := some "kc-1"

/-- The owner may send from the mailbox and schedule from it, and may not set its rules. -/
theorem owner_is_refused_settings :
    Surface.email.allows [linkedUser] ownMailbox (some "user-1") = true ∧
      Surface.scheduling.allows [linkedUser] ownMailbox (some "user-1") = true ∧
        Surface.settings.allows [linkedUser] ownMailbox (some "user-1") = false := by
  decide

end Fences
end EmailOps
