import Mathlib.Data.List.Dedup
import EmailOps.Framework.System
import EmailOps.Email.ApprovalProtocol
import EmailOps.Email.Lanes

/-!
# Learning whom to trust

An approval of a staged send vouches for its external recipients: each becomes a trusted
correspondent of the workspace, whose approvals are counted. An approval reads the item in
one transaction, calls the engine in none, learns in another transaction, and only then looks
at what the engine said and records it. Any number of approvals run side by side.

* `learnTrustedCorrespondents` is the learning, one `upsert` for each address.
* `Earned` is the guarantee: whom the workspace has learned to trust is a recipient of a send
  that the engine accepted, and his count has at most one part from each such item.
* `Vouched` says that an approval which learns has an accepted send, of an item that nobody
  has learned the addresses from. `earned_iff_vouched`: the guarantee holds along a run if and
  only if each of its learning approvals is so.
-/

namespace EmailOps
namespace TrustLearning

open Framework Framework.Text

section Learning

variable [CaseMapping]

/-! ### The learning -/

inductive TrustedCorrespondentSource where
  | approval | manual
  deriving DecidableEq, Repr

/-- A row of `trustedCorrespondent`. Times are in milliseconds. -/
structure TrustRow extends TrustedCorrespondent where
  source : TrustedCorrespondentSource
  approvalCount : ℕ
  lastApprovedAt : Option ℕ
  addedByUcUid : Option String
  addedByAgentKey : Option String
  note : Option Text

/-- The unique key of a row. -/
def TrustRow.isAt (r : TrustRow) (workspaceId : String) (scope : TrustedCorrespondentScope)
    (address : Text) : Bool :=
  r.workspaceId = workspaceId && r.scope = scope && r.address = address

/-- Every recipient of a request. -/
def recipientsOf (req : SendReq) : List Text :=
  req.toEntries ++ req.ccEntries ++ req.bccEntries

/-- The addresses that an approval vouches for. The order in which they are written is of no
account, since each row is written once. -/
def vouchedAddresses (settings : Settings) (workspaceId : String) (rawRecipients : List Text) :
    List Text :=
  let internalDomains := ((settings.mailDomains.filter (·.workspaceId = workspaceId)).map
    fun r => normalizeDomain r.domain).filter (· ≠ [])
  (((rawRecipients.map normalizeAddress).filter (· ≠ [])).dedup).filter fun addr =>
    isExternalRecipient addr internalDomains

/-- Who approves what, and when. -/
structure Approver where
  workspaceId : String
  ucUid : Option String
  agentKey : Option String
  now : ℕ

/-- The `upsert` of one address. -/
def vouch (approver : Approver) (rows : List TrustRow) (address : Text) : List TrustRow :=
  if rows.any (·.isAt approver.workspaceId .address address) then
    rows.map fun r =>
      if r.isAt approver.workspaceId .address address then
        { r with approvalCount := r.approvalCount + 1, lastApprovedAt := some approver.now }
      else r
  else
    rows ++
      [{ workspaceId := approver.workspaceId
         scope := .address
         address := address
         source := .approval
         approvalCount := 1
         lastApprovedAt := some approver.now
         addedByUcUid := approver.ucUid
         addedByAgentKey := approver.agentKey
         note := none }]

def learnTrustedCorrespondents (settings : Settings) (approver : Approver)
    (rows : List TrustRow) (rawRecipients : List Text) : List TrustRow :=
  (vouchedAddresses settings approver.workspaceId rawRecipients).foldl (vouch approver) rows

/-- `TrustedCorrespondentsService.add`, of an address or a domain in its normal form. -/
def addManually (rows : List TrustRow) (workspaceId : String) (ucUid : Option String)
    (scope : TrustedCorrespondentScope) (address : Text) (note : Option Text) : List TrustRow :=
  if rows.any (·.isAt workspaceId scope address) then
    rows.map fun r =>
      if r.isAt workspaceId scope address then { r with note := note.or r.note } else r
  else
    rows ++
      [{ workspaceId := workspaceId
         scope := scope
         address := address
         source := .manual
         approvalCount := 0
         lastApprovedAt := none
         addedByUcUid := ucUid
         addedByAgentKey := none
         note := note }]

/-! ### The protocol -/

/-- An approval that sends. -/
structure Approving where
  workspaceId : String
  ucUid : Option String
  itemId : String
  draftedBy : Option String
  plan : SendPlan
  trustRecipients : Bool

/-- The addresses that the approval vouches for. -/
def Approving.addresses (a : Approving) (settings : Settings) : List Text :=
  vouchedAddresses settings a.workspaceId (recipientsOf a.plan.req)

/-- Where an approval stands. -/
inductive Call where
  | idle
  /-- The item was read pending and the request is built. -/
  | sending (a : Approving)
  /-- The engine has answered. -/
  | handed (a : Approving) (result : EngineSendResult)
  /-- It has learned, or failed to, and is about to record the answer. -/
  | learned (a : Approving) (result : EngineSendResult)
  /-- The call has returned or thrown, or its process has died. -/
  | ended

/-- What an item can add to the count of an address. -/
structure Credit where
  workspaceId : String
  itemId : String
  address : Text
  deriving DecidableEq

/-- What an approval has added to a count. -/
structure Contribution extends Credit where
  /-- The engine's answer to the approval's send. -/
  accepted : Bool
  deriving DecidableEq

/-- A request that was handed to the engine, and its answer. -/
structure Sent where
  workspaceId : String
  itemId : String
  req : SendReq
  accepted : Bool

structure State where
  db : Db
  trusted : List TrustRow
  calls : ℕ → Call
  /-- Oldest first, as the next one. -/
  sends : List Sent
  contributions : List Contribution

inductive Label where
  /-- Phase 1 of an approval. -/
  | approve (c : ℕ) (workspaceId : String) (ucUid : Option String) (itemId : String)
      (trustRecipients : Bool)
  /-- Phase 2: the engine call. -/
  | callEngine (c : ℕ) (result : EngineSendResult)
  | learn (c : ℕ) (now : ℕ)
  /-- The learning fails, which the approval does not notice. -/
  | learnFails (c : ℕ)
  /-- Phase 3: recording the outcome. -/
  | record (c : ℕ)
  /-- The process running an approval dies. -/
  | crash (c : ℕ)
  | add (workspaceId : String) (ucUid : Option String) (scope : TrustedCorrespondentScope)
      (address : Text) (note : Option Text)
  /-- Somebody is not trusted any longer. -/
  | remove (workspaceId : String) (address : Text)
  /-- The rest of the program stages, edits and rejects items, and binds domains. -/
  | elsewhere (db : Db)

def State.moveTo (s : State) (c : ℕ) (call : Call) : State :=
  { s with calls := Function.update s.calls c call }

/-- What the approval adds when it learns. -/
def Approving.contributions (a : Approving) (settings : Settings) (accepted : Bool) :
    List Contribution :=
  (a.addresses settings).map fun address => ⟨⟨a.workspaceId, a.itemId, address⟩, accepted⟩

/-- An approval learns, if it is asked to, whatever the engine said. -/
def State.learn (s : State) (a : Approving) (accepted : Bool) (now : ℕ) : State :=
  if a.trustRecipients then
    { s with
      trusted := learnTrustedCorrespondents s.db.settings
        ⟨a.workspaceId, a.ucUid, a.draftedBy, now⟩ s.trusted (recipientsOf a.plan.req)
      contributions := s.contributions ++ a.contributions s.db.settings accepted }
  else s

/-- One step. -/
def step (s : State) : Label → Option State
  | .approve c workspaceId ucUid itemId trustRecipients =>
    match s.calls c with
    | .idle =>
      match approvePlan s.db workspaceId ucUid itemId with
      | .ok (.send itemId draftedBy plan) =>
        some (s.moveTo c (.sending ⟨workspaceId, ucUid, itemId, draftedBy, plan, trustRecipients⟩))
      | _ => some (s.moveTo c .ended)
    | _ => none
  | .callEngine c result =>
    match s.calls c with
    | .sending a =>
      some { s.moveTo c (.handed a result) with
        sends := s.sends ++ [⟨a.workspaceId, a.itemId, a.plan.req, result.accepted⟩] }
    | _ => none
  | .learn c now =>
    match s.calls c with
    | .handed a result => some ((s.learn a result.accepted now).moveTo c (.learned a result))
    | _ => none
  | .learnFails c =>
    match s.calls c with
    | .handed a result => some (s.moveTo c (.learned a result))
    | _ => none
  | .record c =>
    match s.calls c with
    | .learned a result =>
      some { s.moveTo c .ended with db := recordApproval s.db a.itemId a.plan.messageId result }
    | _ => none
  | .crash c => some (s.moveTo c .ended)
  | .add workspaceId ucUid scope address note =>
    some { s with trusted := addManually s.trusted workspaceId ucUid scope address note }
  | .remove workspaceId address =>
    some { s with trusted := s.trusted.filter fun r =>
      !(r.workspaceId = workspaceId && r.address = address) }
  | .elsewhere db => some { s with db := db }

/-- The protocol. Initially nobody is trusted. -/
def system : System State Label where
  init s := s.trusted = [] ∧ (∀ c, s.calls c = .idle) ∧ s.sends = [] ∧ s.contributions = []
  step := step

/-- Is the contribution one to the row's count? -/
def Contribution.isTo (row : TrustRow) (e : Contribution) : Bool :=
  e.workspaceId = row.workspaceId && e.address = row.address

/-- **The guarantee.** -/
structure Earned (s : State) : Prop where
  /-- Whom the workspace has learned to trust is a recipient of an accepted send. -/
  learned : ∀ row ∈ s.trusted, row.source = .approval → ∃ sent ∈ s.sends,
    sent.accepted = true ∧ sent.workspaceId = row.workspaceId ∧
      row.address ∈ (recipientsOf sent.req).map normalizeAddress
  /-- The counts are made of the contributions. -/
  counted : ∀ row ∈ s.trusted, row.approvalCount ≤ s.contributions.countP (·.isTo row)
  /-- No refused send contributes. -/
  accepted : ∀ e ∈ s.contributions, e.accepted = true
  /-- An item contributes once to an address. -/
  once : (s.contributions.map (·.toCredit)).Nodup

/-- If the approval learns, then its send was accepted, and nobody has learned the same of
the same item. -/
def Vouched (s : State) : Label → Prop
  | .learn c _ =>
    match s.calls c with
    | .handed a result => a.trustRecipients = true → ∀ address ∈ a.addresses s.db.settings,
        result.accepted = true ∧
          ⟨a.workspaceId, a.itemId, address⟩ ∉ s.contributions.map (·.toCredit)
    | _ => True
  | _ => True

/-! ### Counts and contributions -/

variable {s s' : State} {l : Label} {row : TrustRow} {rows : List TrustRow}
  {contributions : List Contribution} {approver : Approver} {address : Text}

/-- The count of the row is made of contributions, and is not zero when it was learned. -/
def Backed (contributions : List Contribution) (row : TrustRow) : Prop :=
  row.approvalCount ≤ contributions.countP (·.isTo row) ∧
    (row.source = .approval → 0 < row.approvalCount)

omit [CaseMapping] in
theorem Backed.append (h : Backed contributions row) (more : List Contribution) :
    Backed (contributions ++ more) row := by
  refine ⟨h.1.trans ?_, h.2⟩
  rw [List.countP_append]
  exact Nat.le_add_right _ _

omit [CaseMapping] in
/-- The upsert of an address, with the contribution that it is for. -/
theorem backed_vouch (h : ∀ row ∈ rows, Backed contributions row) (itemId : String)
    (accepted : Bool) :
    ∀ row ∈ vouch approver rows address,
      Backed (contributions ++ [⟨⟨approver.workspaceId, itemId, address⟩, accepted⟩]) row := by
  unfold vouch
  split
  · rintro row hrow
    obtain ⟨r, hr, rfl⟩ := List.mem_map.mp hrow
    split
    · next hat =>
      -- The row that is there has one more.
      simp only [TrustRow.isAt, Bool.and_eq_true, decide_eq_true_eq] at hat
      refine ⟨?_, fun _ => Nat.succ_pos _⟩
      rw [List.countP_append]
      refine Nat.add_le_add (h r hr).1 ?_
      simp [Contribution.isTo, hat.1.1, hat.2]
    · exact (h r hr).append _
  · intro row hrow
    rcases List.mem_append.mp hrow with hrow | hrow
    · exact (h row hrow).append _
    · obtain rfl := List.mem_singleton.mp hrow
      refine ⟨?_, fun _ => Nat.one_pos⟩
      rw [List.countP_append]
      simp [Contribution.isTo]

omit [CaseMapping] in
/-- The upserts of some addresses, one after the other. -/
theorem backed_foldl_vouch (addresses : List Text) (h : ∀ row ∈ rows, Backed contributions row)
    (itemId : String) (accepted : Bool) :
    ∀ row ∈ addresses.foldl (vouch approver) rows,
      Backed (contributions ++ addresses.map fun address =>
        ⟨⟨approver.workspaceId, itemId, address⟩, accepted⟩) row := by
  induction addresses generalizing rows contributions with
  | nil => simpa using h
  | cons address addresses ih =>
    have hfirst : ∀ row ∈ vouch approver rows address,
        Backed (contributions ++ [⟨⟨approver.workspaceId, itemId, address⟩, accepted⟩]) row :=
      backed_vouch h itemId accepted
    simpa using ih hfirst

omit [CaseMapping] in
theorem backed_addManually (h : ∀ row ∈ rows, Backed contributions row) (workspaceId : String)
    (ucUid : Option String) (scope : TrustedCorrespondentScope) (note : Option Text) :
    ∀ row ∈ addManually rows workspaceId ucUid scope address note, Backed contributions row := by
  unfold addManually
  split
  · intro row hrow
    obtain ⟨r, hr, rfl⟩ := List.mem_map.mp hrow
    split
    · exact h r hr
    · exact h r hr
  · intro row hrow
    rcases List.mem_append.mp hrow with hrow | hrow
    · exact h row hrow
    · obtain rfl := List.mem_singleton.mp hrow
      exact ⟨Nat.zero_le _, nofun⟩

theorem mem_vouchedAddresses {settings : Settings} {workspaceId : String} {raw : List Text}
    (h : address ∈ vouchedAddresses settings workspaceId raw) :
    address ∈ raw.map normalizeAddress := by
  have hmem := List.mem_dedup.mp (List.mem_filter.mp h).1
  exact (List.mem_filter.mp hmem).1

theorem nodup_vouchedAddresses (settings : Settings) (workspaceId : String) (raw : List Text) :
    (vouchedAddresses settings workspaceId raw).Nodup :=
  (List.nodup_dedup _).filter _

theorem map_toCredit_contributions (a : Approving) (settings : Settings) (accepted : Bool) :
    (a.contributions settings accepted).map (·.toCredit) =
      (a.addresses settings).map fun address => ⟨a.workspaceId, a.itemId, address⟩ := by
  unfold Approving.contributions
  rw [List.map_map]
  rfl

/-! ### What a step does -/

/-- The request of the approval was handed over, and the answer is this one. -/
def Approving.SentWith (a : Approving) (result : EngineSendResult) (s : State) : Prop :=
  ⟨a.workspaceId, a.itemId, a.plan.req, result.accepted⟩ ∈ s.sends

/-- What a step does to the counts. -/
inductive Effect (s : State) (l : Label) (s' : State) : Prop
  | quiet (hcontributions : s'.contributions = s.contributions) (hsends : s.sends ⊆ s'.sends)
      (hrows : ∀ contributions, (∀ row ∈ s.trusted, Backed contributions row) →
        ∀ row ∈ s'.trusted, Backed contributions row)
      (hcalls : ∀ c a result, s'.calls c = .handed a result →
        s.calls c = .handed a result ∨ a.SentWith result s')
      (hvouched : Vouched s l)
  /-- An approval learns. -/
  | learned (c : ℕ) (a : Approving) (result : EngineSendResult) (now : ℕ)
      (hcall : s.calls c = .handed a result)
      (hcontributions : s'.contributions =
        s.contributions ++ a.contributions s.db.settings result.accepted)
      (hsends : s'.sends = s.sends)
      (hrows : s'.trusted = (a.addresses s.db.settings).foldl
        (vouch ⟨a.workspaceId, a.ucUid, a.draftedBy, now⟩) s.trusted)
      (hcalls : ∀ c a result, s'.calls c = .handed a result → s.calls c = .handed a result)
      (hvouched : Vouched s l ↔ ∀ address ∈ a.addresses s.db.settings,
        result.accepted = true ∧
          ⟨a.workspaceId, a.itemId, address⟩ ∉ s.contributions.map (·.toCredit))

omit [CaseMapping] in
theorem handed_of_moveTo {c d : ℕ} {call : Call} {a : Approving} {result : EngineSendResult}
    (hcall : ∀ a result, call ≠ .handed a result)
    (h : (s.moveTo c call).calls d = .handed a result) : s.calls d = .handed a result := by
  change Function.update s.calls c call d = _ at h
  rcases update_eq_cases h with ⟨rfl, hmoved⟩ | ⟨-, h⟩
  · exact absurd hmoved (hcall a result)
  · exact h

theorem effect_moveTo {c : ℕ} {call : Call} (hcall : ∀ a result, call ≠ .handed a result)
    (hvouched : Vouched s l) : Effect s l (s.moveTo c call) :=
  .quiet rfl (List.Subset.refl _) (fun _ h => h)
    (fun _ _ _ h => .inl (handed_of_moveTo hcall h)) hvouched

theorem effect_of_step (h : step s l = some s') : Effect s l s' := by
  cases l with
  | approve c workspaceId ucUid itemId trustRecipients =>
    simp only [step] at h
    split at h
    · split at h
      · cases h
        exact effect_moveTo (by simp) trivial
      · cases h
        exact effect_moveTo (by simp) trivial
    · cases h
  | callEngine c result =>
    simp only [step] at h
    split at h
    · next a hcall =>
      cases h
      refine .quiet rfl (List.subset_append_left _ _) (fun _ h => h) ?_ trivial
      intro d a' result' hd
      change Function.update s.calls c _ d = _ at hd
      rcases update_eq_cases hd with ⟨rfl, hmoved⟩ | ⟨-, hd⟩
      · cases hmoved
        exact .inr (List.mem_append_right _ List.mem_cons_self)
      · exact .inl hd
    · cases h
  | learn c now =>
    simp only [step] at h
    split at h
    · next a result hcall =>
      cases h
      unfold State.learn
      split
      · next htrust =>
        refine .learned c a result now hcall rfl rfl rfl ?_ ?_
        · exact fun _ _ _ h => handed_of_moveTo (s := s) (by simp) h
        · simp only [Vouched, hcall]
          exact forall_prop_of_true htrust
      · next htrust =>
        refine effect_moveTo (by simp) ?_
        simp only [Vouched, hcall]
        exact fun h => absurd h htrust
    · cases h
  | learnFails c =>
    simp only [step] at h
    split at h
    · cases h
      exact effect_moveTo (by simp) trivial
    · cases h
  | record c =>
    simp only [step] at h
    split at h
    · cases h
      exact .quiet rfl (List.Subset.refl _) (fun _ h => h)
        (fun _ _ _ h => .inl (handed_of_moveTo (s := s) (by simp) h)) trivial
    · cases h
  | crash c =>
    cases h
    exact effect_moveTo (by simp) trivial
  | add workspaceId ucUid scope address note =>
    cases h
    exact .quiet rfl (List.Subset.refl _) (fun _ h => backed_addManually h _ _ _ _)
      (fun _ _ _ h => .inl h) trivial
  | remove workspaceId address =>
    cases h
    exact .quiet rfl (List.Subset.refl _) (fun _ h row hrow => h row (List.mem_filter.mp hrow).1)
      (fun _ _ _ h => .inl h) trivial
  | elsewhere db =>
    cases h
    exact .quiet rfl (List.Subset.refl _) (fun _ h => h) (fun _ _ _ h => .inl h) trivial

/-! ### Runs -/

/-- What holds in every run: the counts are made of contributions, and each of them is from a
request that was handed over, to one of its recipients. -/
structure Traced (s : State) : Prop where
  backed : ∀ row ∈ s.trusted, Backed s.contributions row
  sent : ∀ e ∈ s.contributions, ∃ sent ∈ s.sends, sent.accepted = e.accepted ∧
    sent.workspaceId = e.workspaceId ∧ e.address ∈ (recipientsOf sent.req).map normalizeAddress
  handed : ∀ c a result, s.calls c = .handed a result → a.SentWith result s

theorem Traced.of_init (h : system.init s) : Traced s := by
  obtain ⟨htrusted, hcalls, -, hcontributions⟩ := h
  refine ⟨?_, ?_, fun c a result hc => ?_⟩
  · simp [htrusted]
  · simp [hcontributions]
  · rw [hcalls] at hc
    cases hc

theorem Traced.step (h : Traced s) (hstep : step s l = some s') : Traced s' := by
  cases effect_of_step hstep with
  | quiet hcontributions hsends hrows hcalls _ =>
    refine ⟨?_, fun e he => ?_, fun c a result hc => ?_⟩
    · rw [hcontributions]
      exact hrows _ h.backed
    · rw [hcontributions] at he
      obtain ⟨sent, hsent, hrest⟩ := h.sent e he
      exact ⟨sent, hsends hsent, hrest⟩
    · rcases hcalls c a result hc with hc | hsent
      · exact hsends (h.handed c a result hc)
      · exact hsent
  | learned c a result now hcall hcontributions hsends hrows hcalls _ =>
    refine ⟨?_, fun e he => ?_, fun d b result' hd => ?_⟩
    · rw [hrows, hcontributions]
      exact backed_foldl_vouch _ h.backed a.itemId result.accepted
    · rw [hcontributions] at he
      rw [hsends]
      rcases List.mem_append.mp he with he | he
      · exact h.sent e he
      · -- It is from the send of this approval.
        obtain ⟨address, haddress, rfl⟩ := List.mem_map.mp he
        exact ⟨_, h.handed c a result hcall, rfl, rfl, mem_vouchedAddresses haddress⟩
    · unfold Approving.SentWith
      rw [hsends]
      exact h.handed d b result' (hcalls d b result' hd)

/-- Where no contribution is from a refused send and none is made twice, all is earned. -/
theorem Traced.earned (h : Traced s) (haccepted : ∀ e ∈ s.contributions, e.accepted = true)
    (honce : (s.contributions.map (·.toCredit)).Nodup) : Earned s where
  learned row hrow hsource := by
    obtain ⟨hcount, hpos⟩ := h.backed row hrow
    obtain ⟨e, he, hto⟩ := List.countP_pos_iff.mp ((hpos hsource).trans_le hcount)
    simp only [Contribution.isTo, Bool.and_eq_true, decide_eq_true_eq] at hto
    obtain ⟨sent, hsent, hanswer, hworkspace, haddress⟩ := h.sent e he
    refine ⟨sent, hsent, hanswer.trans (haccepted e he), hworkspace.trans hto.1, ?_⟩
    rw [← hto.2]
    exact haddress
  counted row hrow := (h.backed row hrow).1
  accepted := haccepted
  once := honce

/-- **A step earns what it adds** if and only if it is no learning but that of an accepted
send, of which nobody has learned the same. -/
theorem earned_step_iff (h : Traced s) (hearned : Earned s) (hstep : step s l = some s') :
    Earned s' ↔ Vouched s l := by
  have htraced := h.step hstep
  cases effect_of_step hstep with
  | quiet hcontributions _ _ _ hvouched =>
    refine iff_of_true (htraced.earned ?_ ?_) hvouched
    · rw [hcontributions]
      exact hearned.accepted
    · rw [hcontributions]
      exact hearned.once
  | learned c a result now hcall hcontributions hsends hrows hcalls hvouched =>
    rw [hvouched]
    have hcredits : s'.contributions.map (·.toCredit) = s.contributions.map (·.toCredit) ++
        (a.addresses s.db.settings).map fun address => ⟨a.workspaceId, a.itemId, address⟩ := by
      rw [hcontributions, List.map_append, map_toCredit_contributions]
    constructor
    · intro hafter address haddress
      have hnew := List.mem_map_of_mem
        (f := fun address => (⟨a.workspaceId, a.itemId, address⟩ : Credit)) haddress
      constructor
      · refine hafter.accepted ⟨⟨a.workspaceId, a.itemId, address⟩, result.accepted⟩ ?_
        rw [hcontributions]
        exact List.mem_append_right _ (List.mem_map_of_mem haddress)
      · intro hold
        have honce := hafter.once
        rw [hcredits] at honce
        exact (List.nodup_append.mp honce).2.2 _ hold _ hnew rfl
    · intro hall
      refine htraced.earned (fun e he => ?_) ?_
      · rw [hcontributions] at he
        rcases List.mem_append.mp he with he | he
        · exact hearned.accepted e he
        · obtain ⟨address, haddress, rfl⟩ := List.mem_map.mp he
          exact (hall address haddress).1
      · rw [hcredits, List.nodup_append]
        refine ⟨hearned.once, ?_, ?_⟩
        · refine (nodup_vouchedAddresses _ _ _).map fun x y hxy => ?_
          exact congrArg Credit.address hxy
        · rintro credit hold credit' hnew rfl
          obtain ⟨address, haddress, rfl⟩ := List.mem_map.mp hnew
          exact (hall address haddress).2 hold

/-- **Trust is earned** along a run if and only if each approval that learns has an accepted
send, and no other approval of its item has learned the same before it. -/
theorem earned_iff_vouched {s s' : State} {ls : List Label} (h : system.init s)
    (hrun : system.exec s ls = some s') :
    system.Always Earned s ls ↔ system.Along Vouched s ls := by
  have hearned : Earned s := by
    obtain ⟨-, -, -, hcontributions⟩ := id h
    refine (Traced.of_init h).earned ?_ ?_
    · simp [hcontributions]
    · simp [hcontributions]
  exact System.always_iff_along (fun s => Traced s ∧ Earned s) (fun _ hs => hs.2)
    (fun _ _ _ hs hl hstep => ⟨hs.1.step hstep, (earned_step_iff hs.1 hs.2 hstep).mpr hl⟩)
    (fun _ _ _ hs hl hstep hafter => hl ((earned_step_iff hs.1 hs.2 hstep).mp hafter))
    ⟨.of_init h, hearned⟩ hrun

end Learning

/-! ### A refused send -/

/-- Nobody is trusted, and the sample item waits. -/
def sampleStart : State := ⟨Approval.sampleDb, [], fun _ => .idle, [], []⟩

/-- An approval whose send the engine answers in this way. -/
def approvalRun (accepted : Bool) : List Label :=
  [.approve 0 "ws" none "i" true, .callEngine 0 ⟨accepted, none, none, none, none⟩, .learn 0 5,
    .record 0]

theorem earned_approvalRun :
    (system.exec sampleStart (approvalRun true)).isSome = true ∧
      ∀ s', system.exec sampleStart (approvalRun true) = some s' →
        (system.Always Earned sampleStart (approvalRun true) ↔
          system.Along Vouched sampleStart (approvalRun true)) :=
  ⟨rfl, fun _ hrun => earned_iff_vouched ⟨rfl, fun _ => rfl, rfl, rfl⟩ hrun⟩

/-- The engine refuses the send, and its recipient is trusted. -/
theorem refused_recipient_is_trusted :
    system.init sampleStart ∧ ∃ s', system.exec sampleStart (approvalRun false) = some s' ∧
      s'.trusted.map (fun row => (row.address, row.source, row.approvalCount)) =
        [("ada@example.org".toList, .approval, 1)] ∧
      (s'.sends.all fun sent => !sent.accepted) = true ∧ ¬Earned s' := by
  refine ⟨⟨rfl, fun _ => rfl, rfl, rfl⟩, _, rfl, by decide, by decide, fun hearned => ?_⟩
  have haccepted := hearned.accepted ⟨⟨"ws", "i", "ada@example.org".toList⟩, false⟩ (by decide)
  cases haccepted

end TrustLearning
end EmailOps
