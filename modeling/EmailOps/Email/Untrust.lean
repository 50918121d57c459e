import EmailOps.Email.ComposeContext
import EmailOps.Email.TrustLearning

/-!
# Trusting and untrusting by hand

The workspace's trusted correspondents are managed by hand: an address or a domain is added,
and what was added is removed by its value. What is typed may be spelled in many ways, and so
may the recipients of a later compose.

* `resolveTrustTarget`, `add` and `removeByAddress` are the service. `removes_after_add`: what
  is added can be removed, however either is spelled.
* `mem_trustedAddressesOf_iff` reads the lookup of the gate as a question about the rows.
* `untrust_spec` says what a removal achieves. No row is left of what was removed, but a domain
  that is trusted goes on trusting each address at it, and an address that is trusted in its own
  right stays so when its domain is removed.
-/

namespace EmailOps
namespace TrustedCorrespondents

open Framework.Text TrustLearning
open Framework (Text CaseMapping toLowerCase)

/-! ### The service -/

/-- `DOMAIN_RE`: no space, no at sign, and a dot inside. -/
def isDomain (d : Text) : Bool :=
  d.all (fun c => !isWhite c && c ≠ '@') && ((d.drop 1).dropLast).contains '.'

/-- `ADDRESS_RE`: a local part, an at sign and a domain. -/
def isAddress (a : Text) : Bool :=
  let localPart := a.takeWhile (· ≠ '@')
  localPart ≠ [] && localPart.all (!isWhite ·) && isDomain ((a.dropWhile (· ≠ '@')).drop 1)

/-- `t.replace(/^@/, '')`. -/
def stripAt : Text → Text
  | '@' :: rest => rest
  | t => t

section Service

variable [CaseMapping]

/-- What a text names, for a scope that is asked for or inferred. -/
def resolveTrustTarget (raw : Text) (scope : Option TrustedCorrespondentScope) :
    Except String (Text × TrustedCorrespondentScope) :=
  let address := normalizeAddress raw
  -- What is not an address is taken for a domain, unless an address is asked for.
  if scope = some .domain || (scope = none && !isAddress address) then
    let domain := normalizeDomain raw
    if isDomain domain then .ok (domain, .domain)
    else .error "A valid domain (e.g. acme.com) is required."
  else if isAddress address then .ok (address, .address)
  else .error "A valid email address is required."

/-- `add`, with the note as it is stored. -/
def add (rows : List TrustRow) (workspaceId : String) (ucUid : Option String) (raw : Text)
    (scope : Option TrustedCorrespondentScope) (note : Option Text) :
    Except String (List TrustRow) :=
  match resolveTrustTarget raw scope with
  | .ok (value, scope) => .ok (addManually rows workspaceId ucUid scope value note)
  | .error message => .error message

/-- The value that is removed: a leading at sign is dropped. -/
def removalKey (raw : Text) : Text :=
  stripAt (normalizeAddress raw)

/-- `removeByAddress`: the rows that are left, and whether there was one to remove. -/
def removeByAddress (rows : List TrustRow) (workspaceId : String) (raw : Text) :
    List TrustRow × Bool :=
  let address := removalKey raw
  -- The scope of a row is not compared.
  let gone (r : TrustRow) : Bool := r.workspaceId = workspaceId && r.address = address
  if address = [] then (rows, false) else (rows.filter (!gone ·), rows.any gone)

end Service

/-! ### Rows -/

/-- The workspace has a row of a value. -/
def HasRow (rows : List TrustRow) (workspaceId : String) (scope : TrustedCorrespondentScope)
    (address : Text) : Prop :=
  ∃ r ∈ rows, r.workspaceId = workspaceId ∧ r.scope = scope ∧ r.address = address

section Rows

variable {rows : List TrustRow} {workspaceId : String} {scope : TrustedCorrespondentScope}
  {address : Text}

theorem hasRow_iff_isAt :
    HasRow rows workspaceId scope address ↔
      ∃ r ∈ rows, r.isAt workspaceId scope address = true := by
  simp only [HasRow, TrustRow.isAt, Bool.and_eq_true, decide_eq_true_eq, and_assoc]

/-- What is added is there afterwards. -/
theorem hasRow_addManually (rows : List TrustRow) (workspaceId : String) (ucUid : Option String)
    (scope : TrustedCorrespondentScope) (address : Text) (note : Option Text) :
    HasRow (addManually rows workspaceId ucUid scope address note) workspaceId scope address := by
  unfold addManually
  split
  · next hany =>
    obtain ⟨r, hr, hat⟩ := List.any_eq_true.mp hany
    refine hasRow_iff_isAt.mpr ⟨_, List.mem_map_of_mem hr, ?_⟩
    rw [if_pos hat]
    exact hat
  · exact ⟨_, List.mem_append_right _ (List.mem_singleton_self _), rfl, rfl, rfl⟩

theorem stripAt_of_isAddress {a : Text} (h : isAddress a = true) : stripAt a = a := by
  unfold stripAt
  split
  · simp [isAddress] at h
  · rfl

variable [CaseMapping] {raw : Text}

/-- **When a removal reports success.** -/
theorem removes_iff :
    (removeByAddress rows workspaceId raw).2 = true ↔
      removalKey raw ≠ [] ∧ ∃ scope, HasRow rows workspaceId scope (removalKey raw) := by
  unfold removeByAddress
  dsimp only
  split
  · next hempty => simp [hempty]
  · next hkey =>
    simp only [List.any_eq_true, Bool.and_eq_true, decide_eq_true_eq, ne_eq, hkey,
      not_false_eq_true, true_and]
    constructor
    · rintro ⟨r, hr, hws, haddress⟩
      exact ⟨r.scope, r, hr, hws, rfl, haddress⟩
    · rintro ⟨-, r, hr, hws, -, haddress⟩
      exact ⟨r, hr, hws, haddress⟩

/-- **A removal takes the rows of one value away, in either scope, and no others.** -/
theorem hasRow_removeByAddress (h : (removeByAddress rows workspaceId raw).2 = true) :
    HasRow (removeByAddress rows workspaceId raw).1 workspaceId scope address ↔
      HasRow rows workspaceId scope address ∧ address ≠ removalKey raw := by
  have hkey : removalKey raw ≠ [] := (removes_iff.mp h).1
  unfold removeByAddress
  rw [if_neg hkey]
  constructor
  · rintro ⟨r, hr, hws, hscope, haddress⟩
    obtain ⟨hmem, hkept⟩ := List.mem_filter.mp hr
    refine ⟨⟨r, hmem, hws, hscope, haddress⟩, ?_⟩
    simpa [hws, haddress] using hkept
  · rintro ⟨⟨r, hr, hws, hscope, haddress⟩, hne⟩
    refine ⟨r, List.mem_filter.mpr ⟨hr, ?_⟩, hws, hscope, haddress⟩
    simp [hws, haddress, hne]

/-- **What is added can be removed**, however it is spelled then. -/
theorem removes_after_add {rows' : List TrustRow} {ucUid : Option String} {added : Text}
    {asked : Option TrustedCorrespondentScope} {note : Option Text}
    (hadd : add rows workspaceId ucUid added asked note = .ok rows')
    (htarget : resolveTrustTarget added asked = .ok (normalizeAddress raw, .address)) :
    (removeByAddress rows' workspaceId raw).2 = true := by
  have hrows : addManually rows workspaceId ucUid .address (normalizeAddress raw) note = rows' := by
    simpa only [add, htarget, Except.ok.injEq] using hadd
  -- only an address is added in the scope of addresses
  have haddress : isAddress (normalizeAddress raw) = true := by
    unfold resolveTrustTarget at htarget
    dsimp only at htarget
    split at htarget
    · split at htarget <;> simp at htarget
    · split at htarget
      · next h =>
        simp only [Except.ok.injEq, Prod.mk.injEq, and_true] at htarget
        rw [← htarget, h]
      · simp at htarget
  have hkey : removalKey raw = normalizeAddress raw := stripAt_of_isAddress haddress
  refine removes_iff.mpr ⟨?_, .address, ?_⟩
  · rw [hkey]
    intro hempty
    simp [hempty, isAddress] at haddress
  · rw [hkey, ← hrows]
    exact hasRow_addManually rows workspaceId ucUid .address _ note

end Rows

/-! ### The lookup -/

/-- The end of a text in lower case is in lower case. Unicode's mapping has this law: it leaves a
character that it has put there, wherever it stands. -/
def LowerCaseStays [CaseMapping] : Prop :=
  ∀ s t : Text, s <:+ toLowerCase t → toLowerCase s = s

/-- The rows in the settings of a workspace. -/
def Holds (settings : Settings) (rows : List TrustRow) : Prop :=
  settings.trustedCorrespondents = rows.map (·.toTrustedCorrespondent)

section Lookup

variable [CaseMapping] {settings : Settings} {rows : List TrustRow} {workspaceId : String}

omit [CaseMapping] in
theorem mem_trustedRows (hrows : Holds settings rows) {recipients : List Text}
    {r : TrustedCorrespondent} :
    r ∈ trustedRows settings workspaceId recipients ↔
      (∃ row ∈ rows, row.toTrustedCorrespondent = r) ∧ r.workspaceId = workspaceId ∧
        (r.scope = .address ∧ r.address ∈ recipients ∨
          r.scope = .domain ∧ r.address ≠ [] ∧ ∃ addr ∈ recipients, domainOf addr = r.address) := by
  unfold trustedRows
  rw [List.mem_filter, show settings.trustedCorrespondents = _ from hrows, List.mem_map]
  cases hscope : r.scope with
  | address => simp
  | domain =>
    simp only [Bool.and_eq_true, decide_eq_true_eq, List.contains_iff_mem, List.mem_filter,
      List.mem_map, reduceCtorEq, false_and, false_or, true_and]
    constructor
    · rintro ⟨hrow, hws, haddr, hne⟩
      exact ⟨hrow, hws, hne, haddr⟩
    · rintro ⟨hrow, hws, hne, haddr⟩
      exact ⟨hrow, hws, haddr, hne⟩

/-- **The lookup of the gate.** A recipient is trusted when there is a row of it, or one of its
domain. -/
theorem mem_trustedAddressesOf_iff (hlower : LowerCaseStays) (hrows : Holds settings rows)
    {recipients : List Text} (hnormal : ∀ r ∈ recipients, ∃ t, r = toLowerCase t) {addr : Text} :
    addr ∈ trustedAddressesOf settings workspaceId recipients ↔
      addr ∈ recipients ∧ (HasRow rows workspaceId .address addr ∨
        domainOf addr ≠ [] ∧ HasRow rows workspaceId .domain (domainOf addr)) := by
  -- a recipient is in lower case, and so is its domain
  have hself : ∀ r ∈ recipients, toLowerCase r = r := by
    intro r hr
    obtain ⟨t, rfl⟩ := hnormal r hr
    exact hlower _ t List.suffix_rfl
  have hdomain : ∀ r ∈ recipients, toLowerCase (domainOf r) = domainOf r := by
    intro r hr
    obtain ⟨t, rfl⟩ := hnormal r hr
    refine hlower _ t ?_
    unfold domainOf afterLastAt
    -- the domain is what comes after the last at sign
    split
    · exact List.rtakeWhile_suffix _ _
    · exact List.suffix_rfl
  unfold trustedAddressesOf
  simp only [List.mem_filter, Bool.or_eq_true, Bool.and_eq_true, List.contains_iff_mem,
    List.mem_map, decide_eq_true_eq, mem_trustedRows hrows]
  refine and_congr_right fun haddr => or_congr ?_ (and_congr_right fun hne => ?_)
  · constructor
    · rintro ⟨r, ⟨⟨⟨row, hrow, rfl⟩, hws, hmatch⟩, hscope⟩, hlow⟩
      simp only [hscope, true_and, reduceCtorEq, false_and, or_false] at hmatch
      exact ⟨row, hrow, hws, hscope, (hself _ hmatch).symm.trans hlow⟩
    · rintro ⟨row, hrow, hws, hscope, rfl⟩
      exact ⟨_, ⟨⟨⟨row, hrow, rfl⟩, hws, .inl ⟨hscope, haddr⟩⟩, hscope⟩, hself _ haddr⟩
  · constructor
    · rintro ⟨r, ⟨⟨⟨row, hrow, rfl⟩, hws, hmatch⟩, hscope⟩, hlow⟩
      simp only [hscope, true_and, reduceCtorEq, false_and, false_or] at hmatch
      -- the row was found for a recipient of the same domain
      obtain ⟨-, other, hother, hsame⟩ := hmatch
      refine ⟨row, hrow, hws, hscope, ?_⟩
      rw [← hlow, ← hsame, hdomain other hother]
    · rintro ⟨row, hrow, hws, hscope, hsame⟩
      refine ⟨_, ⟨⟨⟨row, hrow, rfl⟩, hws, .inr ⟨hscope, ?_, addr, haddr, hsame.symm⟩⟩, hscope⟩, ?_⟩
      · rw [hsame]
        exact hne
      · rw [hsame, hdomain addr haddr]

theorem exists_of_mem_gateRecipients {input : ComposeInput} {addr : Text}
    (h : addr ∈ input.gateRecipients) : ∃ t, addr = toLowerCase t := by
  obtain ⟨entry, -, rfl⟩ := List.mem_map.mp (List.mem_filter.mp h).1
  exact ⟨addressText entry, rfl⟩

/-- Whom the gate trusts has a row, or its domain has. -/
theorem hasRow_of_mem_trustedAddresses (hlower : LowerCaseStays) {db : Db}
    (hrows : Holds db.settings rows) {enabled lookupsFail : Bool} {agent : Agent}
    {mailbox : Option MailboxAccount} {input : ComposeInput} {addr : Text}
    (h : addr ∈ (buildAgentComposeContext db enabled lookupsFail workspaceId agent mailbox
      input).trustedAddresses) :
    HasRow rows workspaceId .address addr ∨ HasRow rows workspaceId .domain (domainOf addr) := by
  unfold buildAgentComposeContext at h
  dsimp only at h
  split at h
  · cases h
  · exact (((mem_trustedAddressesOf_iff hlower hrows
      fun r hr => exists_of_mem_gateRecipients hr).mp h).2).imp_right And.right

end Lookup

/-! ### After a removal -/

section Removal

variable [CaseMapping] {rows : List TrustRow} {workspaceId : String} {raw : Text} {db : Db}
  {enabled lookupsFail : Bool} {agent : Agent} {mailbox : Option MailboxAccount}
  {input : ComposeInput}

/-- Whom the gate trusts after a removal has another row than what was removed. -/
theorem hasRow_of_trusted_after (hlower : LowerCaseStays)
    (hremoved : (removeByAddress rows workspaceId raw).2 = true)
    (hdb : Holds db.settings (removeByAddress rows workspaceId raw).1) {addr : Text}
    (htrusted : addr ∈ (buildAgentComposeContext db enabled lookupsFail workspaceId agent mailbox
      input).trustedAddresses) :
    HasRow rows workspaceId .address addr ∧ addr ≠ removalKey raw ∨
      HasRow rows workspaceId .domain (domainOf addr) ∧ domainOf addr ≠ removalKey raw := by
  have hleft := hasRow_of_mem_trustedAddresses hlower hdb htrusted
  rwa [hasRow_removeByAddress hremoved, hasRow_removeByAddress hremoved] at hleft

/-- **What was removed is held**: a compose to an address that was removed, and whose domain is
not trusted, is not sent by the agent on its own. -/
theorem held_after_removal (hlower : LowerCaseStays)
    (hremoved : (removeByAddress rows workspaceId raw).2 = true)
    (hdb : Holds db.settings (removeByAddress rows workspaceId raw).1)
    (hdomain : ¬ HasRow rows workspaceId .domain (domainOf (removalKey raw)))
    {toAddress : Text} {trusted : Bool} (hmem : removalKey raw ∈ input.gateRecipients) :
    let ctx := buildAgentComposeContext db enabled lookupsFail workspaceId agent mailbox input
    isExternalRecipient (removalKey raw) ctx.internalDomains = true →
      (decideAgentComposeMode .send (some agent) toAddress trusted (some ctx)).mode ≠ .send := by
  intro ctx hexternal hsend
  have hmem' : removalKey raw ∈ ctx.recipients := by
    rw [buildAgentComposeContext_recipients]
    exact hmem
  obtain hinternal | ⟨-, htrusted⟩ := (decideAgentComposeMode_send hsend).2 _ hmem'
  · rw [hexternal] at hinternal
    cases hinternal
  · obtain ⟨-, hne⟩ | ⟨hrow, -⟩ := hasRow_of_trusted_after hlower hremoved hdb htrusted
    · exact hne rfl
    · exact hdomain hrow

/-- **Untrusting by hand.** After a removal that reports success there is no row of what was
removed, in either scope. A recipient of what was removed is trusted only with its domain, which
has a row that was there before; and a recipient at a domain that was removed only by a row of its
own. -/
theorem untrust_spec (hlower : LowerCaseStays)
    (hremoved : (removeByAddress rows workspaceId raw).2 = true)
    (hdb : Holds db.settings (removeByAddress rows workspaceId raw).1) (entry : Text) :
    let key := removalKey raw
    let addr := normalizeAddress entry
    (∀ scope, ¬ HasRow (removeByAddress rows workspaceId raw).1 workspaceId scope key) ∧
      (addr ∈ (buildAgentComposeContext db enabled lookupsFail workspaceId agent mailbox
          input).trustedAddresses →
        (addr = key → domainOf addr ≠ key ∧ HasRow rows workspaceId .domain (domainOf addr)) ∧
          (domainOf addr = key → addr ≠ key ∧ HasRow rows workspaceId .address addr)) := by
  intro key addr
  refine ⟨fun scope hrow => ?_, fun htrusted => ?_⟩
  · exact ((hasRow_removeByAddress hremoved).mp hrow).2 rfl
  · have hleft := hasRow_of_trusted_after hlower hremoved hdb htrusted
    constructor
    · intro haddr
      obtain ⟨-, hne⟩ | ⟨hrow, hne⟩ := hleft
      · exact absurd haddr hne
      · exact ⟨hne, hrow⟩
    · intro hdomain
      obtain ⟨hrow, hne⟩ | ⟨-, hne⟩ := hleft
      · exact ⟨hne, hrow⟩
      · exact absurd hdomain hne

end Removal

/-! ### An address of a trusted domain -/

theorem toLower_toLower (c : Char) : c.toLower.toLower = c.toLower := by
  unfold Char.toLower
  split
  · next h =>
    -- a letter that was lowered is past the capital letters
    rw [dif_neg]
    rintro ⟨h₁, h₂⟩
    simp only [ge_iff_le, UInt32.le_iff_toNat_le, UInt32.toNat_add] at h h₁ h₂
    simp at h h₁ h₂
    omega
  · next h => rfl

theorem lowerCaseStays_ascii : LowerCaseStays := by
  intro s t hs
  show s.map Char.toLower = s
  refine List.map_congr_left (fun c hc => ?_) |>.trans (List.map_id s)
  obtain ⟨d, -, rfl⟩ := List.mem_map.mp (hs.subset hc)
  exact toLower_toLower d

/-- Jane is trusted, and so is everyone at her domain. -/
def janeAndAcme : List TrustRow :=
  [⟨⟨"ws", .address, "jane@acme.test".toList⟩, .approval, 1, some 0, none, some "ada", none⟩,
    ⟨⟨"ws", .domain, "acme.test".toList⟩, .manual, 0, none, some "uc", none, none⟩]

/-- An agent that may send on its own. -/
def ada : Agent :=
  ⟨"a1", "ws", "ada", true, false, .l2AutonomousAudit, .null, some "m1"⟩

def adasMailbox : MailboxAccount :=
  ⟨"m1", "ws", "ada@ours.test".toList, none, true, true, false, "james", .agent, some "ada"⟩

/-- How her address is spelled when it is removed. -/
def removedJane : Text := " Jane <JANE@acme.test>".toList

/-- The database after Jane was removed. -/
def withoutJane : Db where
  settings :=
    { mailDomains := [⟨"ws", "ours.test".toList⟩]
      trustedCorrespondents :=
        (removeByAddress janeAndAcme "ws" removedJane).1.map (·.toTrustedCorrespondent) }

/-- An answer to Jane. -/
def replyToJane : ComposeInput where
  toAddress := "Jane <jane@ACME.test>".toList
  subject := []
  body := []
  mode := .send
  inReplyToThreadId := some "t1"
  externalSource := "ada"
  externalRef := "r1"
  inboundReplyAttestation := some "jane@acme.test".toList

/-- What the gate is told of the answer. -/
def replyContext : AgentComposeContext :=
  buildAgentComposeContext withoutJane true false "ws" ada (some adasMailbox) replyToJane

theorem jane_removed : (removeByAddress janeAndAcme "ws" removedJane).2 = true := by
  decide +kernel

theorem jane_trusted :
    normalizeAddress replyToJane.toAddress ∈ replyContext.trustedAddresses := by
  decide +kernel

/-- **A removal can succeed and the agent go on answering by itself.** -/
theorem untrusted_and_sent :
    (removeByAddress janeAndAcme "ws" removedJane).2 = true ∧
      normalizeAddress replyToJane.toAddress = normalizeAddress removedJane ∧
      normalizeAddress replyToJane.toAddress ∈ replyContext.trustedAddresses ∧
      (decideAgentComposeMode .send (some ada) replyToJane.toAddress false
        (some replyContext)).mode = .send :=
  ⟨jane_removed, by decide +kernel, jane_trusted, by decide +kernel⟩

theorem untrust_spec_jane :
    (removeByAddress janeAndAcme "ws" removedJane).2 = true ∧
      HasRow janeAndAcme "ws" .domain (domainOf (normalizeAddress replyToJane.toAddress)) := by
  have hdb : Holds withoutJane.settings (removeByAddress janeAndAcme "ws" removedJane).1 := rfl
  have hsame : normalizeAddress replyToJane.toAddress = removalKey removedJane := by
    decide +kernel
  obtain ⟨-, hspec⟩ := untrust_spec lowerCaseStays_ascii jane_removed hdb replyToJane.toAddress
  exact ⟨jane_removed, ((hspec jane_trusted).1 hsame).2⟩

end TrustedCorrespondents
end EmailOps
