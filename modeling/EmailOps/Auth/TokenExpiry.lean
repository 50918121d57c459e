import EmailOps.Framework.IsoOrder

/-!
# The expiry of an access token

A personal access token is created with an expiry, which is stored as a time. When the token
is used, the time is written as a text, and the text is compared with that of the clock.

* `createPat` and `resolved` are what is stored of a token and what is read of it, and
  `checkPat` is the decision.
* `checkPat_expired_iff`: an expiry is a date, never a text in some spelling, and a token has
  expired once the clock is past it. At that very time it is still good.
-/

namespace EmailOps
namespace Auth

open Framework Framework.Text

/-! ### Scopes -/

/-- The canonical scope vocabulary. -/
def KNOWN_SCOPES : List Text :=
  ["mail:read".toList, "mail:write".toList, "agent-inbox:read".toList,
    "agent-inbox:approve".toList, "cleaner:run".toList, "admin:provision".toList,
    "ui:control".toList]

/-- The part of a scope before its first colon. -/
def scopePrefix (scope : Text) : Text :=
  scope.takeWhile (· ≠ ':')

/-- A scope a token can be created with: all, a known one, or a wildcard of known ones. -/
def knownScope (scope : Text) : Bool :=
  scope = "*".toList || scope ∈ KNOWN_SCOPES ||
    (":*".toList.isSuffixOf scope && scope.dropLast.dropLast ≠ [] &&
      scope.dropLast.dropLast ∈ KNOWN_SCOPES.map scopePrefix)

/-- `normalizeScopes`: trimmed, known, and each one once. -/
def normalizeScopes (scopes : List Text) : Except Text (List Text) :=
  scopes.foldlM (fun normalized raw =>
    let scope := trim raw
    if knownScope scope then
      .ok (if scope ∈ normalized then normalized else normalized ++ [scope])
    else
      .error ("Unknown PAT scope: ".toList ++
        if scope = [] then "(empty)".toList else scope)) []

/-- Does one scope that is held grant the required one? -/
def grants (required raw : Text) : Bool :=
  raw ≠ [] && (raw = "*".toList || raw = required ||
    (":*".toList.isSuffixOf raw && raw.dropLast.isPrefixOf required &&
      raw.dropLast.length < required.length))

/-- `scopeSatisfies` -/
def scopeSatisfies (held : List Text) (required : Text) : Bool :=
  required ≠ [] && held.any (grants required)

/-! ### Creation -/

/-- What can come for an expiry. -/
inductive ExpiryInput
  /-- Nothing, or `null`. -/
  | absent
  /-- A date, in milliseconds. -/
  | date (time : ℤ)
  | invalidDate
  /-- A value that is no `Date`, such as a text. -/
  | other (text : Text)

/-- `normalizeExpiry` -/
def normalizeExpiry : ExpiryInput → Except Text (Option ℤ)
  | .absent => .ok none
  | .date time => .ok (some time)
  | .invalidDate | .other _ => .error "PAT expiry must be a valid Date or null".toList

structure CreatePatOptions where
  scopes : Option (List Text) := none
  expiresAt : ExpiryInput := .absent

/-- A stored token. -/
structure PersonalAccessToken where
  scopes : List Text
  expiresAt : Option ℤ
  revokedAt : Option ℤ

/-- What `createPat` stores. -/
def createPat (opts : CreatePatOptions) : Except Text PersonalAccessToken := do
  let scopes ← normalizeScopes (opts.scopes.getD ["*".toList])
  let expiresAt ← normalizeExpiry opts.expiresAt
  return ⟨scopes, expiresAt, none⟩

/-! ### The check -/

structure PatRecord where
  scopes : List Text
  expiresAt : Option Text
  revokedAt : Option Text

/-- What `resolvePatRecord` reads of a stored token. -/
def resolved (row : PersonalAccessToken) : PatRecord where
  scopes := row.scopes
  expiresAt := row.expiresAt.map toISOString
  revokedAt := row.revokedAt.map toISOString

inductive PatDenyReason
  | revoked
  | expired
  | missingScope
  deriving DecidableEq

/-- `checkPat`: the reason to deny a token, if there is one. Texts are compared as texts. -/
def checkPat (pat : PatRecord) (required nowIso : Text) : Option PatDenyReason :=
  if pat.revokedAt.isSome then some .revoked
  else if pat.expiresAt.any (Before · nowIso) then some .expired
  else if scopeSatisfies pat.scopes required then none
  else some .missingScope

/-! ### What is stored -/

/-- A token that is created has the expiry it was created with, and is not revoked. -/
theorem createPat_ok {opts : CreatePatOptions} {row : PersonalAccessToken}
    (h : createPat opts = .ok row) :
    normalizeExpiry opts.expiresAt = .ok row.expiresAt ∧ row.revokedAt = none := by
  unfold createPat at h
  cases hscopes : normalizeScopes (opts.scopes.getD ["*".toList]) with
  | error e =>
    rw [hscopes] at h
    cases h
  | ok scopes =>
    cases hexpiry : normalizeExpiry opts.expiresAt with
    | error e =>
      rw [hscopes, hexpiry] at h
      cases h
    | ok expiresAt =>
      rw [hscopes, hexpiry] at h
      cases h
      exact ⟨rfl, rfl⟩

theorem normalizeExpiry_some_iff {input : ExpiryInput} {expiresAt : Option ℤ}
    (h : normalizeExpiry input = .ok expiresAt) (time : ℤ) :
    expiresAt = some time ↔ input = .date time := by
  cases input <;> cases h <;> simp

/-! ### When a token has expired -/

/-- The check compares the two times as texts. -/
theorem checkPat_resolved (row : PersonalAccessToken) (required : Text) (now : ℤ) :
    checkPat (resolved row) required (toISOString now) = some .expired ↔
      row.revokedAt = none ∧
        ∃ time, row.expiresAt = some time ∧ Before (toISOString time) (toISOString now) := by
  unfold checkPat resolved
  cases row.revokedAt with
  | some revoked => simp
  | none =>
    cases row.expiresAt with
    | none =>
      simp only [Option.map_none, Option.isSome_none, Option.any_none]
      split_ifs <;> simp
    | some time =>
      simp only [Option.map_none, Option.isSome_none, Option.map_some, Option.any_some,
        decide_eq_true_eq]
      split_ifs <;> simp_all

/-- **When a token has expired**: when it is not revoked, was created with an expiry, and the
clock is past that. The expiry is a date, in whatever way it was written. -/
theorem checkPat_expired_iff {opts : CreatePatOptions} {row : PersonalAccessToken}
    (h : createPat opts = .ok row) (revokedAt : Option ℤ) (required : Text) {now : ℤ}
    (hexpiry : ∀ time, opts.expiresAt = .date time → (dateFields time).year ≤ 9999)
    (hnow : (dateFields now).FourDigits) :
    (∀ text, opts.expiresAt ≠ .other text) ∧
      (checkPat (resolved { row with revokedAt }) required (toISOString now) = some .expired ↔
        revokedAt = none ∧ ∃ time, opts.expiresAt = .date time ∧ time < now) := by
  obtain ⟨hnormal, -⟩ := createPat_ok h
  constructor
  · rintro text htext
    rw [htext] at hnormal
    cases hnormal
  · rw [checkPat_resolved]
    refine and_congr_right fun _ => exists_congr fun time => ?_
    rw [normalizeExpiry_some_iff hnormal]
    exact and_congr_right fun hdate => before_toISOString_iff (hexpiry time hdate) hnow

/-- Noon of a day. -/
def noon : ℤ := 1784289600000

/-- A token that expired a millisecond before noon. -/
theorem checkPat_expired_noon :
    checkPat (resolved ⟨["*".toList], some (noon - 1), none⟩) "mail:read".toList
      (toISOString noon) = some .expired := by
  have hcreated : createPat ⟨none, .date (noon - 1)⟩ = .ok ⟨["*".toList], some (noon - 1), none⟩ :=
    rfl
  have hyear : (dateFields (noon - 1)).year ≤ 9999 := by decide +kernel
  have hnow : 0 ≤ (dateFields noon).year ∧ (dateFields noon).year ≤ 9999 := by decide +kernel
  refine ((checkPat_expired_iff hcreated none "mail:read".toList (fun time h => ?_) hnow).2).mpr
    ⟨rfl, noon - 1, rfl, by decide⟩
  cases h
  exact hyear

/-- At the time of its expiry a token is still good. -/
theorem not_expired_at_expiry :
    createPat ⟨none, .date noon⟩ = .ok ⟨["*".toList], some noon, none⟩ ∧
      ¬ (checkPat (resolved ⟨["*".toList], some noon, none⟩) "mail:read".toList
        (toISOString noon) = some .expired ↔ ¬ noon < noon) := by
  refine ⟨rfl, fun h => ?_⟩
  exact absurd (h.mpr (lt_irrefl noon)) (by decide +kernel)

end Auth
end EmailOps
