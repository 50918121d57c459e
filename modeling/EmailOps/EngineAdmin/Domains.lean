import EmailOps.Email.Types

/-!
# Mail domains

The keys under which the mail engine's domains are shared out among workspaces.
`canonicalDomain` brings a spelling of a domain to its key, and the domain of a mailbox
address is what follows its last `@`: `splitAddress`, which the engine client applies to
the address as it is (`JamesAdminClient.domainOf`) and the service to the trimmed one
(`MailDomainService.domainOf`).

`canonicalDomain_of_domainOf` says that the two agree on the key wherever the service
finds one, so that a check of the trimmed address is a check of the address the engine
is called with.
-/

namespace EmailOps.EngineAdmin

open Framework.Text

/-- Node's `domainToASCII`: the Punycode form of a domain, or nothing where the domain is
invalid. It is a host in lower-case ASCII, and its own Punycode form. -/
class DomainMapping where
  domainToASCII : Text → Text
  domainToASCII_ascii : ∀ t, ∀ c ∈ domainToASCII t, c.toNat < 128
  domainToASCII_lower : ∀ t, ∀ c ∈ domainToASCII t, c.toLower = c
  domainToASCII_idem : ∀ t, domainToASCII (domainToASCII t) = domainToASCII t

export DomainMapping (domainToASCII domainToASCII_ascii domainToASCII_lower domainToASCII_idem)

theorem toLower_ascii : ∀ n < 128,
    (Char.ofNat n).toLower.toNat < 128 ∧ (Char.ofNat n).toLower.toLower = (Char.ofNat n).toLower := by
  decide

/-- Domains in ASCII alone: the mapping lowers them, and refuses any other. -/
instance asciiDomains : DomainMapping where
  domainToASCII t := if t.all (·.toNat < 128) then t.map Char.toLower else []
  domainToASCII_ascii t c hc := by
    split at hc
    · next hall =>
      obtain ⟨b, hb, rfl⟩ := List.mem_map.mp hc
      have hlt : b.toNat < 128 := of_decide_eq_true (List.all_eq_true.mp hall b hb)
      have hlower := (toLower_ascii b.toNat hlt).1
      rwa [Char.ofNat_toNat] at hlower
    · cases hc
  domainToASCII_lower t c hc := by
    split at hc
    · next hall =>
      obtain ⟨b, hb, rfl⟩ := List.mem_map.mp hc
      have hlt : b.toNat < 128 := of_decide_eq_true (List.all_eq_true.mp hall b hb)
      have hlower := (toLower_ascii b.toNat hlt).2
      rwa [Char.ofNat_toNat] at hlower
    · cases hc
  domainToASCII_idem t := by
    split
    · next hall =>
      have hlower : ∀ b ∈ t, b.toLower.toNat < 128 ∧ b.toLower.toLower = b.toLower := by
        intro b hb
        have hlt : b.toNat < 128 := of_decide_eq_true (List.all_eq_true.mp hall b hb)
        have hboth := toLower_ascii b.toNat hlt
        rwa [Char.ofNat_toNat] at hboth
      have hagain : (t.map Char.toLower).all (·.toNat < 128) = true := by
        refine List.all_eq_true.mpr fun c hc => ?_
        obtain ⟨b, hb, rfl⟩ := List.mem_map.mp hc
        exact decide_eq_true (hlower b hb).1
      rw [if_pos hagain, List.map_map]
      exact List.map_congr_left fun b hb => (hlower b hb).2
    · rfl

/-- The exceptions of the admin services, with their texts. -/
inductive ApiError where
  | badRequest (message : Text)
  | forbidden (message : Text)
  | conflict (message : Text)
  | serviceUnavailable (message : Text)
  deriving DecidableEq

/-- A text in double quotes between two others. -/
def quoting (before value after : Text) : Text :=
  before ++ '"' :: value ++ '"' :: after

/-! ### Canonical domains -/

/-- `[a-z0-9]`. -/
def isLowerAlnum (c : Char) : Bool :=
  c.isDigit || ('a' ≤ c && c ≤ 'z')

/-- `/^[a-z0-9](?:[a-z0-9-]{0,61}[a-z0-9])?$/`. -/
def validLabel (label : Text) : Bool :=
  match label with
  | [] => false
  | c :: rest =>
    isLowerAlnum c && rest.length ≤ 62 && rest.all (fun d => isLowerAlnum d || d = '-') &&
      (match rest.getLast? with
      | none => true
      | some d => isLowerAlnum d)

section Canonical

variable [CaseMapping] [DomainMapping]

/-- DNS-equivalent spellings resolve to one binding key. -/
def canonicalDomain (domain : Text) : Except ApiError Text :=
  let input := toLowerCase ((trim domain).rdropWhile (· = '.'))
  let canonical := toLowerCase (domainToASCII input)
  let labels := canonical.splitOn '.'
  if canonical = [] || 253 < canonical.length || labels.any (fun label => !validLabel label) then
    .error (.badRequest (quoting "Invalid mail domain ".toList domain ".".toList))
  else .ok canonical

/-- What a canonical domain is. -/
theorem canonicalDomain_eq_ok_iff {d c : Text} :
    canonicalDomain d = .ok c ↔
      c = toLowerCase (domainToASCII (toLowerCase ((trim d).rdropWhile (· = '.')))) ∧
        c ≠ [] ∧ c.length ≤ 253 ∧ ∀ label ∈ c.splitOn '.', validLabel label = true := by
  unfold canonicalDomain
  dsimp only
  split
  · next hinvalid =>
    constructor
    · intro h
      cases h
    · -- A valid name passes none of the checks that refuse it.
      rintro ⟨rfl, hne, hlen, hlabels⟩
      simp only [Bool.or_eq_true, decide_eq_true_eq, List.any_eq_true, Bool.not_eq_true'] at hinvalid
      obtain (hnil | hlong) | ⟨label, hmem, hlabel⟩ := hinvalid
      · exact absurd hnil hne
      · omega
      · rw [hlabels label hmem] at hlabel
        cases hlabel
  · next hvalid =>
    -- All the checks have passed.
    simp only [Bool.or_eq_true, decide_eq_true_eq, List.any_eq_true, Bool.not_eq_true', not_or,
      not_exists, not_and, Bool.not_eq_false, not_lt] at hvalid
    constructor
    · intro h
      obtain rfl := Except.ok.inj h
      exact ⟨rfl, hvalid.1.1, hvalid.1.2, hvalid.2⟩
    · rintro ⟨rfl, -⟩
      rfl

theorem canonicalDomain_ok_congr {d e c : Text} (h : trim d = trim e)
    (hc : canonicalDomain d = .ok c) : canonicalDomain e = .ok c := by
  rw [canonicalDomain_eq_ok_iff] at hc ⊢
  rwa [h] at hc

omit [CaseMapping] [DomainMapping] in
theorem isWhite_of_isLowerAlnum {c : Char} (h : isLowerAlnum c = true) : isWhite c = false := by
  unfold isLowerAlnum at h
  simp only [Bool.or_eq_true, Char.isDigit, Bool.and_eq_true, decide_eq_true_eq] at h
  have hrange : (48 ≤ c.toNat ∧ c.toNat ≤ 57) ∨ (97 ≤ c.toNat ∧ c.toNat ≤ 122) := h
  simp only [isWhite, Bool.or_eq_false_iff, Bool.and_eq_false_iff, decide_eq_false_iff_not]
  omega

omit [CaseMapping] [DomainMapping] in
/-- No label has white space. -/
theorem isWhite_of_validLabel {label : Text} (h : validLabel label = true) {c : Char}
    (hc : c ∈ label) : isWhite c = false := by
  cases label with
  | nil => cases hc
  | cons b rest =>
    simp only [validLabel, Bool.and_eq_true, List.all_eq_true] at h
    cases List.mem_cons.mp hc with
    | inl heq => exact heq ▸ isWhite_of_isLowerAlnum h.1.1.1
    | inr hmem =>
      cases Bool.or_eq_true_iff.mp (h.1.2 c hmem) with
      | inl halnum => exact isWhite_of_isLowerAlnum halnum
      | inr hdash =>
        rw [of_decide_eq_true hdash]
        decide

/-- A canonical domain is its own key. -/
theorem canonicalDomain_idem {d c : Text} (h : canonicalDomain d = .ok c) :
    canonicalDomain c = .ok c := by
  obtain ⟨hc, hne, hlen, hlabels⟩ := canonicalDomain_eq_ok_iff.mp h
  have hvisible : ∀ x ∈ c, isWhite x = false := by
    intro x hx
    by_cases hdot : x = '.'
    · rw [hdot]
      decide
    · obtain ⟨label, hlabel, hin⟩ := exists_mem_splitOn hdot hx
      exact isWhite_of_validLabel (hlabels label hlabel) hin
  have hdots : c.rdropWhile (· = '.') = c := by
    refine List.rdropWhile_eq_self_iff.mpr fun hnil hlast => ?_
    -- A dot at the end would leave an empty last label.
    have hend : c = c.dropLast ++ ['.'] := by
      rw [← of_decide_eq_true hlast, List.dropLast_append_getLast]
    have hempty : ([] : Text) ∈ c.splitOn '.' := by
      rw [hend, List.splitOn_append_cons_self]
      simp
    have hvalid := hlabels [] hempty
    cases hvalid
  have hlower : ∀ t, toLowerCase (domainToASCII t) = domainToASCII t := by
    intro t
    rw [Framework.toLowerCase_ascii _ (domainToASCII_ascii t)]
    exact (List.map_congr_left (domainToASCII_lower t)).trans (List.map_id _)
  rw [hlower] at hc
  refine canonicalDomain_eq_ok_iff.mpr ⟨?_, hne, hlen, hlabels⟩
  rw [trim_of_visible hvisible, hdots, hlower]
  conv_rhs => rw [hc, hlower, domainToASCII_idem]
  exact hc

end Canonical

/-! ### Addresses -/

/-- What follows the last `@` of an address: nothing when the address has none, begins
with it or ends with it. -/
def splitAddress (address : Text) : Option Text :=
  let domain := address.rtakeWhile (· ≠ '@')
  if domain.length + 1 < address.length ∧ domain ≠ [] then some domain else none

theorem rtakeWhile_append_cons {l d : Text} (hd : '@' ∉ d) :
    (l ++ '@' :: d).rtakeWhile (· ≠ '@') = d := by
  unfold List.rtakeWhile
  have hall : ∀ c ∈ d.reverse, decide (c ≠ '@') = true := by
    intro c hc
    have hmem : c ∈ d := List.mem_reverse.mp hc
    exact decide_eq_true (fun heq => hd (heq ▸ hmem))
  rw [List.reverse_append, List.reverse_cons, List.append_assoc,
    List.takeWhile_append_of_pos hall]
  simp

/-- The parts of an address. -/
theorem splitAddress_eq_some_iff {a d : Text} :
    splitAddress a = some d ↔ ∃ l, l ≠ [] ∧ d ≠ [] ∧ '@' ∉ d ∧ a = l ++ '@' :: d := by
  constructor
  · intro h
    unfold splitAddress at h
    dsimp only at h
    split at h
    · next hc =>
      obtain ⟨hlen, hne⟩ := hc
      obtain rfl := Option.some.inj h
      have hsplit : a.rdropWhile (· ≠ '@') ++ a.rtakeWhile (· ≠ '@') = a :=
        List.rdropWhile_append_rtakeWhile
      have hcount : (a.rdropWhile (· ≠ '@')).length + (a.rtakeWhile (· ≠ '@')).length = a.length := by
        rw [← List.length_append, hsplit]
      have hdrop : a.rdropWhile (· ≠ '@') ≠ [] := by
        intro hnil
        rw [hnil] at hcount
        simp only [List.length_nil] at hcount
        omega
      have hlast := List.rdropWhile_last_not _ a hdrop
      have hat : (a.rdropWhile (· ≠ '@')).getLast hdrop = '@' := by simpa using hlast
      have hfront : (a.rdropWhile (· ≠ '@')).dropLast ++ ['@'] = a.rdropWhile (· ≠ '@') := by
        have hjoin := List.dropLast_append_getLast hdrop
        rwa [hat] at hjoin
      refine ⟨(a.rdropWhile (· ≠ '@')).dropLast, ?_, hne, ?_, ?_⟩
      · -- More than the `@` stands in front of the domain.
        intro hnil
        have hone : (a.rdropWhile (· ≠ '@')).dropLast.length =
            (a.rdropWhile (· ≠ '@')).length - 1 := List.length_dropLast
        rw [hnil] at hone
        simp only [List.length_nil] at hone
        omega
      · -- The domain is what follows the last `@`.
        intro hmem
        have := List.mem_rtakeWhile_imp hmem
        simp at this
      · calc a = a.rdropWhile (· ≠ '@') ++ a.rtakeWhile (· ≠ '@') := hsplit.symm
          _ = (a.rdropWhile (· ≠ '@')).dropLast ++ ['@'] ++ a.rtakeWhile (· ≠ '@') := by
            rw [hfront]
          _ = (a.rdropWhile (· ≠ '@')).dropLast ++ '@' :: a.rtakeWhile (· ≠ '@') := by
            rw [← List.append_cons]
    · cases h
  · rintro ⟨l, hl, hd, hat, rfl⟩
    -- The last `@` is the one in front of the domain.
    have htake := rtakeWhile_append_cons (l := l) hat
    have hpos : 0 < l.length := List.length_pos_iff.mpr hl
    have hlen : d.length + 1 < (l ++ '@' :: d).length := by
      rw [List.length_append, List.length_cons]
      omega
    unfold splitAddress
    rw [htake, if_pos ⟨hlen, hd⟩]

/-- `MailDomainService.domainOf`: the key of an address' domain. -/
def domainOf [CaseMapping] [DomainMapping] (address : Text) : Except ApiError Text :=
  match splitAddress (trim address) with
  | none => .error (.badRequest (quoting "Invalid mailbox address ".toList address ".".toList))
  | some domain => canonicalDomain domain

/-- `MailboxAccountsService.assertValidAddress`, on
`/^[^\s@]+@[^\s@]+\.[^\s@]+$/`. -/
def assertValidAddress (emailAddress : Text) : Except ApiError Unit :=
  let valid :=
    match emailAddress.splitOn '@' with
    | [l, d] => l ≠ [] && !(l ++ d).any isWhite && (d.drop 1).dropLast.contains '.'
    | _ => false
  if valid then .ok () else .error (.badRequest "email_address must be a valid email address.".toList)

variable [CaseMapping] [DomainMapping]

/-- Where the service finds the key of an address' domain, the engine client calls the
engine with a domain of that key. -/
theorem canonicalDomain_of_domainOf {a c : Text} (h : domainOf a = .ok c) :
    ∃ d, splitAddress a = some d ∧ canonicalDomain d = .ok c := by
  unfold domainOf at h
  split at h
  · cases h
  · next d hsplit =>
    obtain ⟨l, hl, hd, hat, htrim⟩ := splitAddress_eq_some_iff.mp hsplit
    obtain ⟨pre, post, ha, hpost⟩ := exists_eq_append_trim a
    refine ⟨d ++ post, ?_, canonicalDomain_ok_congr (trim_append_blank d hpost).symm h⟩
    refine splitAddress_eq_some_iff.mpr ⟨pre ++ l, ?_, ?_, ?_, ?_⟩
    · exact fun hnil => hl (List.append_eq_nil_iff.mp hnil).2
    · exact fun hnil => hd (List.append_eq_nil_iff.mp hnil).1
    · intro hmem
      cases List.mem_append.mp hmem with
      | inl hmem => exact hat hmem
      | inr hmem =>
        -- What was trimmed off is white space, and `@` is not.
        have hwhite : isWhite '@' = true := List.all_eq_true.mp hpost '@' hmem
        exact absurd hwhite (by decide)
    · calc a = pre ++ trim a ++ post := ha
        _ = pre ++ l ++ '@' :: (d ++ post) := by rw [htrim]; simp

end EmailOps.EngineAdmin
