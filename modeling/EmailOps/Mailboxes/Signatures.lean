import EmailOps.Framework.ReadCommitted
import EmailOps.Framework.System
import EmailOps.Mailboxes.Fences

/-!
# The default signature of a mailbox

`MailSignaturesService`: any number of calls of `create`, `update`, `setDefault` and `delete`,
interleaved at their statements. A call that makes a signature the default first clears the
others, in a statement that finds its rows when it begins, then comes to them one after the
other, waits for a row that another transaction holds, and changes those that are still
selected. No lock and no unique index is over the rows that it does not find.

* `system` is the machine, over the table of mailbox accounts.
* `OneDefault` is the property.
* `Settles` is the condition on the commit of a default: whoever else makes a default for the
  mailbox and has looked for the ones to clear has found this one, or makes the same.
* `oneDefault_of_settles`: in a run whose steps all meet it a mailbox has one default at most.
* `not_oneDefault_twoCalls`: two calls that both look before either commits leave two.
-/

namespace EmailOps
namespace Signatures

open Framework

/-! ### Rows and requests -/

/-- A row of `mail_signatures`. -/
structure SignatureRow where
  workspaceId : String
  mailboxAccountId : String
  name : String
  html : String
  isDefault : Bool
  deriving DecidableEq

structure SaveMailSignatureInput where
  name : String
  html : String
  isDefault : Option Bool

/-- `Partial<SaveMailSignatureInput>`. -/
structure MailSignaturePatch where
  name : Option String
  html : Option String
  isDefault : Option Bool

inductive Operation where
  | create (input : SaveMailSignatureInput)
  | update (signatureId : String) (input : MailSignaturePatch)
  | setDefault (signatureId : String)
  | delete (signatureId : String)

structure Request where
  workspaceId : String
  ucUid : Option String
  mailboxId : String
  operation : Operation

/-- Does the call clear the other defaults? -/
def Request.makesDefault (r : Request) : Bool :=
  match r.operation with
  | .create input => input.isDefault.getD false
  | .update _ input => input.isDefault.getD false
  | .setDefault _ => true
  | .delete _ => false

/-- The signature that the call is about, where it is there already. -/
def Request.target (r : Request) : Option String :=
  match r.operation with
  | .create _ => none
  | .update signatureId _ => some signatureId
  | .setDefault signatureId => some signatureId
  | .delete signatureId => some signatureId

/-- The `where` of the rows of the mailbox. -/
def Request.ofMailbox (r : Request) (row : SignatureRow) : Bool :=
  row.workspaceId = r.workspaceId && row.mailboxAccountId = r.mailboxId

/-- The rows that the call sets to no default; `update` leaves out its own. -/
def Request.clears (r : Request) (id : String) (row : SignatureRow) : Bool :=
  r.ofMailbox row && row.isDefault &&
    match r.operation with
    | .update signatureId _ => id ≠ signatureId
    | _ => true

/-- What `update` makes of a row. -/
def MailSignaturePatch.apply (input : MailSignaturePatch) (row : SignatureRow) : SignatureRow :=
  { row with
    name := input.name.getD row.name
    html := input.html.getD row.html
    isDefault := input.isDefault.getD row.isDefault }

/-- The row that `create` makes. -/
def SaveMailSignatureInput.row (input : SaveMailSignatureInput) (r : Request) : SignatureRow where
  workspaceId := r.workspaceId
  mailboxAccountId := r.mailboxId
  name := input.name
  html := input.html
  isDefault := input.isDefault.getD false

/-- `assertMailbox`, with the mailbox accounts under their ids. -/
def assertMailbox (mailboxes : String → Option MailboxAccount) (r : Request) :
    Except Fences.FenceError Unit :=
  match (mailboxes r.mailboxId).filter (·.workspaceId = r.workspaceId) with
  | none => .error (.notFound "Mailbox not found in this workspace.")
  | some mailbox => Fences.assertMayActThroughMailbox mailbox r.ucUid

/-! ### Calls -/

/-- Where the transaction of a call stands. -/
inductive Stage where
  /-- The mailbox is asserted. -/
  | opened
  /-- So is the signature, if the call is about one. -/
  | asserted
  /-- `updateMany` runs: the rows that it has found and not come to. -/
  | clearing (rest : List String)
  /-- All is written, the row `id` last. -/
  | written (id : String)

inductive Call where
  | idle
  | running (r : Request) (stage : Stage)
  | refused (e : Fences.FenceError)
  /-- The transaction was rolled back. -/
  | failed
  /-- It was committed: the row `id` as it is then, or none if it was deleted. -/
  | done (id : String) (row : Option SignatureRow)

structure State where
  rows : ReadCommitted ℕ String SignatureRow
  calls : ℕ → Call

inductive Label where
  | start (c : ℕ) (r : Request)
  | assertSignature (c : ℕ)
  /-- `updateMany` begins. -/
  | find (c : ℕ)
  /-- It comes to a row. -/
  | clear (c : ℕ) (id : String)
  /-- The last statement; `newId` is the id of a new row. -/
  | write (c : ℕ) (newId : String)
  | commit (c : ℕ)
  /-- A statement fails, or the transaction runs out of time or is the victim of a deadlock. -/
  | abort (c : ℕ)

/-- Where a call stands after its first statement. -/
def begin (mailboxes : String → Option MailboxAccount) (r : Request) : Call :=
  match assertMailbox mailboxes r with
  | .error e => .refused e
  | .ok () => .running r (if r.target.isSome then .opened else .asserted)

/-- The row under the id that the last statement writes and its new version; none when there is
no such row, or when the id of the new one is taken. -/
def Request.lastWrite (r : Request) (rows : ReadCommitted ℕ String SignatureRow) (c : ℕ)
    (newId : String) : Option (String × Option SignatureRow) :=
  match r.operation with
  | .create input => if newId ∈ rows.ids then none else some (newId, some (input.row r))
  | .update signatureId input =>
    (rows.visible c signatureId).map fun row => (signatureId, some (input.apply row))
  | .setDefault signatureId =>
    (rows.visible c signatureId).map fun row => (signatureId, some { row with isDefault := true })
  | .delete signatureId => (rows.visible c signatureId).map fun _ => (signatureId, none)

def State.moveTo (s : State) (c : ℕ) (call : Call) : State :=
  { s with calls := Function.update s.calls c call }

/-- `updateMany` comes to a row and, if it is still selected, sets it to no default. -/
def clearRow (rows : ReadCommitted ℕ String SignatureRow) (c : ℕ) (r : Request) (id : String) :
    ReadCommitted ℕ String SignatureRow :=
  match (rows.visible c id).filter (r.clears id) with
  | some row => rows.put c id (some { row with isDefault := false })
  | none => rows

/-- The last statement runs when nothing is left to clear. -/
def Stage.ready (r : Request) : Stage → Bool
  | .opened => false
  | .asserted => !r.makesDefault
  | .clearing rest => rest = []
  | .written _ => false

def step (mailboxes : String → Option MailboxAccount) (s : State) : Label → Option State
  | .start c r =>
    match s.calls c with
    | .idle => some (s.moveTo c (begin mailboxes r))
    | _ => none
  | .assertSignature c =>
    match s.calls c with
    | .running r .opened =>
      if r.target.any fun id => (s.rows.visible c id).any r.ofMailbox then
        some (s.moveTo c (.running r .asserted))
      else some (s.moveTo c (.refused (.notFound "Signature not found in this mailbox.")))
    | _ => none
  | .find c =>
    match s.calls c with
    | .running r .asserted =>
      if r.makesDefault then
        some (s.moveTo c (.running r (.clearing (s.rows.matching c r.clears))))
      else none
    | _ => none
  | .clear c id =>
    match s.calls c with
    | .running r (.clearing rest) =>
      if id ∈ rest ∧ s.rows.Free c id then
        some { rows := clearRow s.rows c r id
               calls := Function.update s.calls c (.running r (.clearing (rest.filter (· ≠ id)))) }
      else none
    | _ => none
  | .write c newId =>
    match s.calls c with
    | .running r stage =>
      if stage.ready r then
        match r.lastWrite s.rows c newId with
        | some (id, v) =>
          if s.rows.Free c id then
            some { rows := s.rows.put c id v
                   calls := Function.update s.calls c (.running r (.written id)) }
          else none
        | none => none
      else none
    | _ => none
  | .commit c =>
    match s.calls c with
    | .running _ (.written id) =>
      some { rows := s.rows.commit c
             calls := Function.update s.calls c (.done id (s.rows.visible c id)) }
    | _ => none
  | .abort c =>
    match s.calls c with
    | .running _ _ =>
      some { rows := s.rows.rollback c, calls := Function.update s.calls c .failed }
    | _ => none

/-- No signature is there at first. -/
def system (mailboxes : String → Option MailboxAccount) : System State Label where
  init s := s = { rows := .empty ℕ String SignatureRow, calls := fun _ => .idle }
  step := step mailboxes

variable {mailboxes : String → Option MailboxAccount} {s s' : State}

/-! ### The property and the condition -/

/-- A mailbox has one default at most among what is committed. -/
def OneDefault (s : State) : Prop :=
  ∀ a b ra rb, s.rows.committed a = some ra → s.rows.committed b = some rb →
    ra.isDefault = true → rb.isDefault = true → ra.mailboxAccountId = rb.mailboxAccountId → a = b

/-- A call that makes a default will find the row under the id, or still has to clear it, or
makes it the default itself. -/
def Stage.Minds (r : Request) (id : String) : Stage → Prop
  | .opened | .asserted => True
  | .clearing rest => id ∈ rest ∨ r.target = some id
  | .written x => id = x

/-- Where a default is committed, every other open call that makes one for the mailbox minds
it. -/
def Settles (s : State) : Label → Prop
  | .commit c =>
    ∀ r id, s.calls c = .running r (.written id) → r.makesDefault = true →
      ∀ c' ≠ c, ∀ r' stage, s.calls c' = .running r' stage → r'.makesDefault = true →
        r'.mailboxId = r.mailboxId → stage.Minds r' id
  | _ => True

/-! ### What a step does -/

/-- The steps by their cases. -/
inductive Moves (mailboxes : String → Option MailboxAccount) (s : State) : Label → State → Prop
  | start {c : ℕ} {r : Request} : s.calls c = .idle →
      Moves mailboxes s (.start c r) (s.moveTo c (begin mailboxes r))
  | asserted {c : ℕ} {r : Request} {id : String} {row : SignatureRow} :
      s.calls c = .running r .opened → r.target = some id → s.rows.visible c id = some row →
      r.ofMailbox row = true →
      Moves mailboxes s (.assertSignature c) (s.moveTo c (.running r .asserted))
  | refused {c : ℕ} {r : Request} {e : Fences.FenceError} : s.calls c = .running r .opened →
      Moves mailboxes s (.assertSignature c) (s.moveTo c (.refused e))
  | find {c : ℕ} {r : Request} : s.calls c = .running r .asserted → r.makesDefault = true →
      Moves mailboxes s (.find c)
        (s.moveTo c (.running r (.clearing (s.rows.matching c r.clears))))
  | clear {c : ℕ} {r : Request} {rest : List String} {id : String} :
      s.calls c = .running r (.clearing rest) → s.rows.Free c id →
      Moves mailboxes s (.clear c id)
        { rows := clearRow s.rows c r id
          calls := Function.update s.calls c (.running r (.clearing (rest.filter (· ≠ id)))) }
  | write {c : ℕ} {r : Request} {stage : Stage} {newId id : String} {v : Option SignatureRow} :
      s.calls c = .running r stage → stage.ready r = true →
      r.lastWrite s.rows c newId = some (id, v) → s.rows.Free c id →
      Moves mailboxes s (.write c newId)
        { rows := s.rows.put c id v
          calls := Function.update s.calls c (.running r (.written id)) }
  | commit {c : ℕ} {r : Request} {id : String} : s.calls c = .running r (.written id) →
      Moves mailboxes s (.commit c)
        { rows := s.rows.commit c
          calls := Function.update s.calls c (.done id (s.rows.visible c id)) }
  | abort {c : ℕ} {r : Request} {stage : Stage} : s.calls c = .running r stage →
      Moves mailboxes s (.abort c)
        { rows := s.rows.rollback c, calls := Function.update s.calls c .failed }

theorem moves_of_step {l : Label} (h : step mailboxes s l = some s') :
    Moves mailboxes s l s' := by
  cases l with
  | start c r =>
    simp only [step] at h
    split at h
    · next hc =>
      obtain rfl := Option.some.inj h
      exact .start hc
    · cases h
  | assertSignature c =>
    simp only [step] at h
    split at h
    · next r hc =>
      split at h
      · next hfound =>
        obtain ⟨id, htarget, hvisible⟩ := (Option.any_eq_true _ _).mp hfound
        obtain ⟨row, hrow, hof⟩ := (Option.any_eq_true _ _).mp hvisible
        obtain rfl := Option.some.inj h
        exact .asserted hc htarget hrow hof
      · obtain rfl := Option.some.inj h
        exact .refused hc
    · cases h
  | find c =>
    simp only [step] at h
    split at h
    · next r hc =>
      split at h
      · next hmakes =>
        obtain rfl := Option.some.inj h
        exact .find hc hmakes
      · cases h
    · cases h
  | clear c id =>
    simp only [step] at h
    split at h
    · next r rest hc =>
      split at h
      · next hfree =>
        obtain rfl := Option.some.inj h
        exact .clear hc hfree.2
      · cases h
    · cases h
  | write c newId =>
    simp only [step] at h
    split at h
    · next r stage hc =>
      split at h
      · next hready =>
        split at h
        · next id v hlast =>
          split at h
          · next hfree =>
            obtain rfl := Option.some.inj h
            exact .write hc hready hlast hfree
          · cases h
        · cases h
      · cases h
    · cases h
  | commit c =>
    simp only [step] at h
    split at h
    · next r id hc =>
      obtain rfl := Option.some.inj h
      exact .commit hc
    · cases h
  | abort c =>
    simp only [step] at h
    split at h
    · next r stage hc =>
      obtain rfl := Option.some.inj h
      exact .abort hc
    · cases h

/-! ### The invariant -/

/-- The version of the row that the transaction holds is no default. -/
def Cleared (rows : ReadCommitted ℕ String SignatureRow) (c : ℕ) (id : String) : Prop :=
  ∃ v, rows.pending id = some (c, v) ∧ ∀ row, v = some row → row.isDefault = false

/-- The row is one of the mailbox under `home`, with the mailbox's workspace. -/
def Placed (mailboxes : String → Option MailboxAccount) (home : String → String) (id : String)
    (row : SignatureRow) : Prop :=
  row.mailboxAccountId = home id ∧
    ∃ mailbox, mailboxes row.mailboxAccountId = some mailbox ∧
      mailbox.workspaceId = row.workspaceId

/-- May a transaction hold rows? -/
def Stage.hasBegun : Stage → Bool
  | .opened | .asserted => false
  | .clearing _ | .written _ => true

/-- What is known of a call that stands at the stage. -/
structure Fits (mailboxes : String → Option MailboxAccount) (home : String → String)
    (rows : ReadCommitted ℕ String SignatureRow) (c : ℕ) (r : Request) (stage : Stage) :
    Prop where
  asked : ∃ mailbox, mailboxes r.mailboxId = some mailbox ∧ mailbox.workspaceId = r.workspaceId
  target : ∀ id, r.target = some id → stage ≠ .opened → home id = r.mailboxId ∧ id ∈ rows.ids
  wrote : ∀ id, stage = .written id → home id = r.mailboxId ∧ id ∈ rows.ids
  /-- A default that it holds is the one it makes, or was one. -/
  held : ∀ id row, rows.pending id = some (c, some row) → row.isDefault = true →
    r.makesDefault = true ∧ stage = .written id ∨
      r.makesDefault = false ∧ ∃ row₀, rows.committed id = some row₀ ∧ row₀.isDefault = true
  /-- The defaults that it does not mind it has cleared. -/
  looked : r.makesDefault = true → ∀ id row, rows.committed id = some row →
    row.isDefault = true → home id = r.mailboxId → stage.Minds r id ∨ Cleared rows c id

/-- The invariant, where `home` tells the mailbox of every id that was ever used. -/
structure Inv (mailboxes : String → Option MailboxAccount) (home : String → String)
    (s : State) : Prop where
  committed : ∀ id row, s.rows.committed id = some row → Placed mailboxes home id row
  pending : ∀ id c row, s.rows.pending id = some (c, some row) → Placed mailboxes home id row
  holder : ∀ id c v, s.rows.pending id = some (c, v) →
    ∃ r stage, s.calls c = .running r stage ∧ stage.hasBegun = true
  fits : ∀ c r stage, s.calls c = .running r stage → Fits mailboxes home s.rows c r stage
  one : ∀ a b ra rb, s.rows.committed a = some ra → s.rows.committed b = some rb →
    ra.isDefault = true → rb.isDefault = true → home a = home b → a = b

variable {home home' : String → String} {rows rows' : ReadCommitted ℕ String SignatureRow}
  {c : ℕ} {r : Request} {stage : Stage} {id : String} {v : Option SignatureRow}

theorem Inv.oneDefault (h : Inv mailboxes home s) : OneDefault s := by
  intro a b ra rb ha hb hda hdb hmailbox
  refine h.one a b ra rb ha hb hda hdb ?_
  rw [← (h.committed a ra ha).1, ← (h.committed b rb hb).1, hmailbox]

/-- The rows of the mailbox are those that the `where` of a call selects. -/
theorem Placed.ofMailbox {row : SignatureRow} (h : Placed mailboxes home id row)
    (hasked : ∃ mailbox, mailboxes r.mailboxId = some mailbox ∧
      mailbox.workspaceId = r.workspaceId) (hhome : home id = r.mailboxId) :
    r.ofMailbox row = true := by
  obtain ⟨hrow, mailbox, hfound, hworkspace⟩ := h
  obtain ⟨mailbox', hfound', hworkspace'⟩ := hasked
  rw [hrow, hhome, hfound'] at hfound
  obtain rfl := Option.some.inj hfound
  simp [Request.ofMailbox, ← hworkspace, hworkspace', hrow, hhome]

theorem Request.ofMailbox_iff {row : SignatureRow} :
    r.ofMailbox row = true ↔
      row.workspaceId = r.workspaceId ∧ row.mailboxAccountId = r.mailboxId := by
  simp [Request.ofMailbox]

theorem Fits.held_of_ne (h : Fits mailboxes home rows c r stage) (hstage : stage ≠ .written id)
    {row : SignatureRow} (hp : rows.pending id = some (c, some row))
    (hdefault : row.isDefault = true) :
    r.makesDefault = false ∧ ∃ row₀, rows.committed id = some row₀ ∧ row₀.isDefault = true :=
  (h.held id row hp hdefault).resolve_left fun hmade => hstage hmade.2

/-- What is known of a call stays so while others write. -/
theorem Fits.frame (h : Fits mailboxes home rows c r stage)
    (hids : ∀ id ∈ rows.ids, id ∈ rows'.ids ∧ home' id = home id)
    (hcommitted : rows'.committed = rows.committed)
    (hpending : ∀ id v, rows'.pending id = some (c, v) ↔ rows.pending id = some (c, v)) :
    Fits mailboxes home' rows' c r stage where
  asked := h.asked
  target id htarget hstage := by
    obtain ⟨hhome, hid⟩ := h.target id htarget hstage
    exact ⟨(hids id hid).2.trans hhome, (hids id hid).1⟩
  wrote id hstage := by
    obtain ⟨hhome, hid⟩ := h.wrote id hstage
    exact ⟨(hids id hid).2.trans hhome, (hids id hid).1⟩
  held id row hp hdefault := by
    rw [hcommitted]
    exact h.held id row ((hpending id _).mp hp) hdefault
  looked hmakes id row hrow hdefault hhome := by
    rw [hcommitted] at hrow
    rw [(hids id (ReadCommitted.mem_ids_of_committed hrow)).2] at hhome
    refine (h.looked hmakes id row hrow hdefault hhome).imp_right ?_
    rintro ⟨v, hv, hclear⟩
    exact ⟨v, (hpending id v).mpr hv, hclear⟩

theorem inv_init (mailboxes : String → Option MailboxAccount) :
    Inv mailboxes (fun _ => "") { rows := .empty ℕ String SignatureRow, calls := fun _ => .idle }
    where
  committed _ _ h := nomatch h
  pending _ _ _ h := nomatch h
  holder _ _ _ h := nomatch h
  fits _ _ _ h := nomatch h
  one _ _ _ _ h := nomatch h

/-- A call moves on and no row is written. -/
theorem Inv.moveTo (h : Inv mailboxes home s) {call : Call}
    (hholds : ∀ id v, s.rows.pending id = some (c, v) →
      ∃ r stage, call = .running r stage ∧ stage.hasBegun = true)
    (hfits : ∀ r stage, call = .running r stage → Fits mailboxes home s.rows c r stage) :
    Inv mailboxes home (s.moveTo c call) where
  committed := h.committed
  pending := h.pending
  one := h.one
  holder id c' v hp := by
    by_cases hc : c' = c
    · subst hc
      simp only [State.moveTo, Function.update_self]
      exact hholds id v hp
    · simp only [State.moveTo, Function.update_of_ne hc]
      exact h.holder id c' v hp
  fits c' r stage hcall := by
    rcases update_eq_cases hcall with ⟨rfl, rfl⟩ | ⟨-, hcall⟩
    · exact hfits r stage rfl
    · exact h.fits c' r stage hcall

theorem Inv.not_pending (h : Inv mailboxes home s) (hc : s.calls c = .running r stage)
    (hstage : stage.hasBegun = false) (id : String) (v : Option SignatureRow) :
    s.rows.pending id ≠ some (c, v) := by
  intro hp
  obtain ⟨r', stage', hc', hbegun⟩ := h.holder id c v hp
  obtain ⟨-, rfl⟩ := Call.running.inj (hc.symm.trans hc')
  rw [hstage] at hbegun
  cases hbegun

/-- A call writes a version of a free row. -/
theorem Inv.put (h : Inv mailboxes home s) (hfree : s.rows.Free c id)
    (hhome : ∀ id ∈ s.rows.ids, home' id = home id)
    (hv : ∀ row, v = some row → Placed mailboxes home' id row) (hbegun : stage.hasBegun = true)
    (hfits : Fits mailboxes home' (s.rows.put c id v) c r stage) :
    Inv mailboxes home'
      { rows := s.rows.put c id v, calls := Function.update s.calls c (.running r stage) } where
  committed id' row hrow := by
    rw [Placed, hhome id' (ReadCommitted.mem_ids_of_committed hrow)]
    exact h.committed id' row hrow
  pending id' c' row hp := by
    rcases ReadCommitted.pending_put_iff.mp hp with ⟨rfl, hpair⟩ | ⟨-, hp⟩
    · exact hv row (Prod.mk.inj hpair).2.symm
    · rw [Placed, hhome id' (ReadCommitted.mem_ids_of_pending hp)]
      exact h.pending id' c' row hp
  holder id' c' v' hp := by
    by_cases hc : c' = c
    · subst hc
      exact ⟨r, stage, Function.update_self .., hbegun⟩
    · rcases ReadCommitted.pending_put_iff.mp hp with ⟨-, hpair⟩ | ⟨-, hp⟩
      · exact absurd (Prod.mk.inj hpair).1 hc
      · simp only [Function.update_of_ne hc]
        exact h.holder id' c' v' hp
  fits c' r' stage' hcall := by
    by_cases hc : c' = c
    · subst hc
      simp only [Function.update_self, Call.running.injEq] at hcall
      obtain ⟨rfl, rfl⟩ := hcall
      exact hfits
    · simp only [Function.update_of_ne hc] at hcall
      refine (h.fits c' r' stage' hcall).frame
        (fun id' hid' => ⟨ReadCommitted.mem_ids_put hid', hhome id' hid'⟩) rfl fun id' v' => ?_
      rw [ReadCommitted.pending_put_iff]
      constructor
      · rintro (⟨-, hpair⟩ | ⟨-, hp⟩)
        · exact absurd (Prod.mk.inj hpair).1 hc
        · exact hp
      · intro hp
        refine .inr ⟨?_, hp⟩
        rintro rfl
        exact hc (hfree.eq_of_pending hp)
  one a b ra rb ha hb hda hdb hab := by
    rw [hhome a (ReadCommitted.mem_ids_of_committed ha),
      hhome b (ReadCommitted.mem_ids_of_committed hb)] at hab
    exact h.one a b ra rb ha hb hda hdb hab

/-! ### The steps keep it -/

/-- A call that runs after its first statement has a mailbox of its workspace, and is only
opened or asserted. -/
theorem begin_running (h : begin mailboxes r = .running r' stage) :
    r' = r ∧ stage.hasBegun = false ∧ (stage ≠ .opened → r.target = none) ∧
      ∃ mailbox, mailboxes r.mailboxId = some mailbox ∧ mailbox.workspaceId = r.workspaceId := by
  unfold begin at h
  split at h
  · cases h
  · next hassert =>
    obtain ⟨rfl, rfl⟩ := Call.running.inj h
    refine ⟨rfl, by split <;> rfl, ?_, ?_⟩
    · intro hstage
      cases htarget : r.target with
      | none => rfl
      | some id => simp [htarget] at hstage
    · unfold assertMailbox at hassert
      split at hassert
      · cases hassert
      · next mailbox hfound =>
        obtain ⟨hfound, hworkspace⟩ := Option.filter_eq_some_iff.mp hfound
        exact ⟨mailbox, hfound, by simpa using hworkspace⟩

/-- A call that has not begun to write and has not looked for defaults. -/
theorem fits_of_not_begun (hbegun : stage.hasBegun = false)
    (hnone : ∀ id v, rows.pending id ≠ some (c, v))
    (hasked : ∃ mailbox, mailboxes r.mailboxId = some mailbox ∧
      mailbox.workspaceId = r.workspaceId)
    (htarget : ∀ id, r.target = some id → stage ≠ .opened →
      home id = r.mailboxId ∧ id ∈ rows.ids) : Fits mailboxes home rows c r stage where
  asked := hasked
  target := htarget
  wrote id hstage := by
    rw [hstage] at hbegun
    cases hbegun
  held id row hp := absurd hp (hnone id _)
  looked _ _ _ _ _ _ := by
    cases stage with
    | opened | asserted => exact .inl trivial
    | clearing rest | written id => cases hbegun

theorem Inv.start (h : Inv mailboxes home s) (hc : s.calls c = .idle) (r : Request) :
    Inv mailboxes home (s.moveTo c (begin mailboxes r)) := by
  have hnone : ∀ id v, s.rows.pending id ≠ some (c, v) := by
    intro id v hp
    obtain ⟨r', stage, hc', -⟩ := h.holder id c v hp
    rw [hc] at hc'
    cases hc'
  refine h.moveTo (fun id v hp => absurd hp (hnone id v)) fun r' stage hcall => ?_
  obtain ⟨rfl, hbegun, htarget, hasked⟩ := begin_running hcall
  refine fits_of_not_begun hbegun hnone hasked fun id hid hstage => ?_
  rw [htarget hstage] at hid
  cases hid

theorem Inv.asserted (h : Inv mailboxes home s) (hc : s.calls c = .running r .opened)
    {row : SignatureRow} (htarget : r.target = some id) (hrow : s.rows.visible c id = some row)
    (hof : r.ofMailbox row = true) :
    Inv mailboxes home (s.moveTo c (.running r .asserted)) := by
  have hnone := h.not_pending hc rfl
  refine h.moveTo (fun id v hp => absurd hp (hnone id v)) fun r' stage hcall => ?_
  obtain ⟨rfl, rfl⟩ := Call.running.inj hcall
  refine fits_of_not_begun rfl hnone (h.fits c r .opened hc).asked fun id' hid' _ => ?_
  obtain rfl := Option.some.inj (htarget.symm.trans hid')
  rw [ReadCommitted.visible_of_not_pending (hnone id)] at hrow
  rw [← (h.committed id row hrow).1]
  exact ⟨(Request.ofMailbox_iff.mp hof).2, ReadCommitted.mem_ids_of_committed hrow⟩

/-- A default of the mailbox is one that the call clears, or the one that it makes. -/
theorem Placed.clears {row : SignatureRow} (h : Placed mailboxes home id row)
    (hasked : ∃ mailbox, mailboxes r.mailboxId = some mailbox ∧
      mailbox.workspaceId = r.workspaceId) (hhome : home id = r.mailboxId)
    (hdefault : row.isDefault = true) : r.clears id row = true ∨ r.target = some id := by
  rw [Request.clears, h.ofMailbox hasked hhome, hdefault]
  cases hop : r.operation with
  | create input | setDefault signatureId | delete signatureId => simp
  | update signatureId input =>
    by_cases hid : id = signatureId
    · exact .inr (by rw [Request.target, hop, hid])
    · exact .inl (by simp [hid])

theorem Inv.find (h : Inv mailboxes home s) (hc : s.calls c = .running r .asserted) :
    Inv mailboxes home (s.moveTo c (.running r (.clearing (s.rows.matching c r.clears)))) := by
  have hnone := h.not_pending hc rfl
  have hfits := h.fits c r .asserted hc
  refine h.moveTo (fun id v hp => absurd hp (hnone id v)) fun r' stage hcall => ?_
  obtain ⟨rfl, rfl⟩ := Call.running.inj hcall
  exact {
    asked := hfits.asked
    target := fun id hid _ => hfits.target id hid nofun
    wrote := nofun
    held := fun id row hp => absurd hp (hnone id _)
    looked := by
      intro _ id row hrow hdefault hhome
      refine .inl (((h.committed id row hrow).clears hfits.asked hhome hdefault).imp_left ?_)
      intro hclears
      rw [← ReadCommitted.visible_of_not_pending (hnone id)] at hrow
      exact ReadCommitted.mem_matching.mpr ⟨row, hrow, hclears⟩ }

/-- `updateMany` writes a row that it still selects, and no other. -/
theorem clearRow_cases (rows : ReadCommitted ℕ String SignatureRow) (c : ℕ) (r : Request)
    (id : String) :
    (∃ row, rows.visible c id = some row ∧ r.clears id row = true ∧
      clearRow rows c r id = rows.put c id (some { row with isDefault := false })) ∨
    (∀ row, rows.visible c id = some row → r.clears id row = false) ∧
      clearRow rows c r id = rows := by
  cases hrow : (rows.visible c id).filter (r.clears id) with
  | some row =>
    obtain ⟨hvisible, hclears⟩ := Option.filter_eq_some_iff.mp hrow
    exact .inl ⟨row, hvisible, hclears, by rw [clearRow, hrow]⟩
  | none =>
    refine .inr ⟨fun row hvisible => ?_, by rw [clearRow, hrow]⟩
    simpa using Option.filter_eq_none_iff.mp hrow row hvisible

theorem Inv.placed_of_visible (h : Inv mailboxes home s) {row : SignatureRow}
    (hrow : s.rows.visible c id = some row) : Placed mailboxes home id row := by
  rcases ReadCommitted.visible_cases hrow with hp | ⟨-, hrow⟩
  · exact h.pending id c row hp
  · exact h.committed id row hrow

theorem Inv.clear (h : Inv mailboxes home s) {rest : List String}
    (hc : s.calls c = .running r (.clearing rest)) (hfree : s.rows.Free c id) :
    Inv mailboxes home
      { rows := clearRow s.rows c r id
        calls := Function.update s.calls c (.running r (.clearing (rest.filter (· ≠ id)))) } := by
  have hfits := h.fits c r _ hc
  rcases clearRow_cases s.rows c r id with ⟨row, hrow, hclears, heq⟩ | ⟨hnot, heq⟩
  · rw [heq]
    refine h.put hfree (fun _ _ => rfl) ?_ rfl ?_
    · rintro _ ⟨rfl⟩
      have hplaced := h.placed_of_visible hrow
      exact hplaced
    · exact {
        asked := hfits.asked
        target := by
          intro id' hid' _
          obtain ⟨hhome, hmem⟩ := hfits.target id' hid' nofun
          exact ⟨hhome, ReadCommitted.mem_ids_put hmem⟩
        wrote := nofun
        held := by
          intro id' row' hp hdefault
          rcases ReadCommitted.pending_put_iff.mp hp with ⟨-, hpair⟩ | ⟨-, hp⟩
          · obtain rfl := Option.some.inj (Prod.mk.inj hpair).2
            cases hdefault
          · exact .inr (hfits.held_of_ne nofun hp hdefault)
        looked := by
          intro hmakes id' row' hrow' hdefault hhome
          by_cases hid : id' = id
          · subst hid
            refine .inr ⟨_, ReadCommitted.pending_put_self, ?_⟩
            rintro _ ⟨rfl⟩
            rfl
          · rcases hfits.looked hmakes id' row' hrow' hdefault hhome with hminds | hcleared
            · refine .inl (hminds.imp_left fun hmem => ?_)
              exact List.mem_filter.mpr ⟨hmem, by simpa using hid⟩
            · obtain ⟨v, hv, hclear⟩ := hcleared
              exact .inr ⟨v, ReadCommitted.pending_put_iff.mpr (.inr ⟨hid, hv⟩), hclear⟩ }
  · rw [heq]
    refine h.moveTo (fun id v hp => ⟨r, _, rfl, rfl⟩) fun r' stage hcall => ?_
    obtain ⟨rfl, rfl⟩ := Call.running.inj hcall
    exact {
      asked := hfits.asked
      target := fun id' hid' _ => hfits.target id' hid' nofun
      wrote := nofun
      held := by
        intro id' row' hp hdefault
        exact .inr (hfits.held_of_ne nofun hp hdefault)
      looked := by
        intro hmakes id' row' hrow' hdefault hhome
        rcases hfits.looked hmakes id' row' hrow' hdefault hhome with (hmem | htarget) | hcleared
        · by_cases hid : id' = id
          · subst hid
            by_cases hown : ∃ v, s.rows.pending id' = some (c, v)
            · -- The version that it holds is no default, as only the last one is.
              obtain ⟨v, hv⟩ := hown
              refine .inr ⟨v, hv, ?_⟩
              rintro row rfl
              by_contra hrow
              have hheld := hfits.held_of_ne nofun hv (by simpa using hrow)
              rw [hmakes] at hheld
              cases hheld.1
            · have hvisible := ReadCommitted.visible_of_not_pending (not_exists.mp hown)
              rcases (h.committed id' row' hrow').clears hfits.asked hhome hdefault with
                hclears | htarget
              · rw [hnot row' (hvisible.trans hrow')] at hclears
                cases hclears
              · exact .inl (.inr htarget)
          · exact .inl (.inl (List.mem_filter.mpr ⟨hmem, by simpa using hid⟩))
        · exact .inl (.inr htarget)
        · exact .inr hcleared }

/-- **The last statement** writes a new row of the mailbox, which is a default if the call
makes one, or the row that the call is about, which is one if it was or the call makes it. -/
theorem lastWrite_cases {newId : String} (h : r.lastWrite rows c newId = some (id, v)) :
    (r.target = none ∧ id ∉ rows.ids ∧
      ∃ row, v = some row ∧ r.ofMailbox row = true ∧ row.isDefault = r.makesDefault) ∨
    (r.target = some id ∧ ∃ row, rows.visible c id = some row ∧ ∀ row', v = some row' →
      row'.workspaceId = row.workspaceId ∧ row'.mailboxAccountId = row.mailboxAccountId ∧
        (row'.isDefault = true → r.makesDefault = true ∨ row.isDefault = true)) := by
  unfold Request.lastWrite at h
  split at h
  · next input hop =>
    split at h
    · cases h
    · next hnew =>
      obtain ⟨rfl, rfl⟩ := Prod.mk.inj (Option.some.inj h)
      have hmakes : r.makesDefault = input.isDefault.getD false := by
        rw [Request.makesDefault, hop]
      refine .inl ⟨by rw [Request.target, hop], hnew, _, rfl, ?_, hmakes.symm⟩
      exact Request.ofMailbox_iff.mpr ⟨rfl, rfl⟩
  · next signatureId input hop =>
    obtain ⟨row, hrow, heq⟩ := Option.map_eq_some_iff.mp h
    obtain ⟨rfl, rfl⟩ := Prod.mk.inj heq
    refine .inr ⟨by rw [Request.target, hop], row, hrow, ?_⟩
    rintro _ ⟨rfl⟩
    refine ⟨rfl, rfl, fun hdefault => ?_⟩
    have hmakes : r.makesDefault = input.isDefault.getD false := by rw [Request.makesDefault, hop]
    rw [hmakes]
    cases hinput : input.isDefault with
    | none =>
      rw [MailSignaturePatch.apply, hinput] at hdefault
      exact .inr hdefault
    | some b =>
      rw [MailSignaturePatch.apply, hinput] at hdefault
      exact .inl hdefault
  · next signatureId hop =>
    obtain ⟨row, hrow, heq⟩ := Option.map_eq_some_iff.mp h
    obtain ⟨rfl, rfl⟩ := Prod.mk.inj heq
    refine .inr ⟨by rw [Request.target, hop], row, hrow, ?_⟩
    rintro _ ⟨rfl⟩
    exact ⟨rfl, rfl, fun _ => .inl (by rw [Request.makesDefault, hop])⟩
  · next signatureId hop =>
    obtain ⟨row, hrow, heq⟩ := Option.map_eq_some_iff.mp h
    obtain ⟨rfl, rfl⟩ := Prod.mk.inj heq
    exact .inr ⟨by rw [Request.target, hop], row, hrow, nofun⟩

theorem Stage.ready_cases (h : stage.ready r = true) :
    stage = .asserted ∧ r.makesDefault = false ∨ stage = .clearing [] := by
  cases stage with
  | opened | written id => cases h
  | asserted => exact .inl ⟨rfl, by simpa [Stage.ready] using h⟩
  | clearing rest => exact .inr (by simpa [Stage.ready] using h)

theorem Stage.ne_written_of_ready (h : stage.ready r = true) (id : String) :
    stage ≠ .written id := by
  rintro rfl
  cases h

/-- What is known of a call once its last statement has run. -/
theorem Fits.written {newId : String} (h : Fits mailboxes home rows c r stage)
    (hready : stage.ready r = true) (hlast : r.lastWrite rows c newId = some (id, v))
    (hhome : ∀ id ∈ rows.ids, home' id = home id) (hid : home' id = r.mailboxId) :
    Fits mailboxes home' (rows.put c id v) c r (.written id) where
  asked := h.asked
  target id' hid' _ := by
    have hopened : stage ≠ .opened := by
      rintro rfl
      cases hready
    obtain ⟨hhome', hmem⟩ := h.target id' hid' hopened
    exact ⟨(hhome id' hmem).trans hhome', ReadCommitted.mem_ids_put hmem⟩
  wrote id' hstage := by
    obtain rfl := Stage.written.inj hstage
    exact ⟨hid, ReadCommitted.mem_ids_put_self⟩
  held id' row' hp hdefault := by
    rcases ReadCommitted.pending_put_iff.mp hp with ⟨rfl, hpair⟩ | ⟨-, hp⟩
    · cases hmakes : r.makesDefault with
      | true => exact .inl ⟨rfl, rfl⟩
      | false =>
        -- Who makes no default leaves one that was there.
        refine .inr ⟨rfl, ?_⟩
        rcases lastWrite_cases hlast with ⟨-, -, row, hrow, -, hsame⟩ | ⟨-, row, hrow, hall⟩
        · obtain rfl := Option.some.inj ((Prod.mk.inj hpair).2.trans hrow)
          rw [hsame, hmakes] at hdefault
          cases hdefault
        · have hwas := ((hall row' (Prod.mk.inj hpair).2.symm).2.2 hdefault).resolve_left
            (by simp [hmakes])
          rcases ReadCommitted.visible_cases hrow with hp | ⟨-, hrow⟩
          · exact (h.held_of_ne (Stage.ne_written_of_ready hready id') hp hwas).2
          · exact ⟨row, hrow, hwas⟩
    · exact .inr (h.held_of_ne (Stage.ne_written_of_ready hready id') hp hdefault)
  looked hmakes id' row' hrow' hdefault hhome' := by
    rw [hhome id' (ReadCommitted.mem_ids_of_committed hrow')] at hhome'
    have hlooked := h.looked hmakes id' row' hrow' hdefault hhome'
    rcases Stage.ready_cases hready with ⟨-, hnot⟩ | rfl
    · rw [hmakes] at hnot
      cases hnot
    · rcases hlooked with (hmem | htarget) | ⟨v', hv', hclear⟩
      · cases hmem
      · rcases lastWrite_cases hlast with ⟨hnone, -⟩ | ⟨hsome, -⟩
        · rw [htarget] at hnone
          cases hnone
        · exact .inl (Option.some.inj (htarget.symm.trans hsome))
      · by_cases hne : id' = id
        · exact .inl hne
        · exact .inr ⟨v', ReadCommitted.pending_put_iff.mpr (.inr ⟨hne, hv'⟩), hclear⟩

theorem Inv.write (h : Inv mailboxes home s) {newId : String}
    (hc : s.calls c = .running r stage) (hready : stage.ready r = true)
    (hlast : r.lastWrite s.rows c newId = some (id, v)) (hfree : s.rows.Free c id) :
    ∃ home', Inv mailboxes home'
      { rows := s.rows.put c id v
        calls := Function.update s.calls c (.running r (.written id)) } := by
  have hfits := h.fits c r stage hc
  rcases lastWrite_cases hlast with ⟨-, hnew, row, rfl, hof, -⟩ | ⟨htarget, row, hrow, hall⟩
  · -- The id of the new row was never used.
    have hhome : ∀ id' ∈ s.rows.ids, Function.update home id r.mailboxId id' = home id' := by
      rintro id' hid'
      refine Function.update_of_ne ?_ _ _
      rintro rfl
      exact hnew hid'
    refine ⟨Function.update home id r.mailboxId, h.put hfree hhome ?_ rfl
      (hfits.written hready hlast hhome (Function.update_self ..))⟩
    rintro _ ⟨rfl⟩
    obtain ⟨hworkspace, hmailbox⟩ := Request.ofMailbox_iff.mp hof
    rw [Placed, Function.update_self, hmailbox, hworkspace]
    exact ⟨rfl, hfits.asked⟩
  · have hopened : stage ≠ .opened := by
      rintro rfl
      cases hready
    refine ⟨home, h.put hfree (fun _ _ => rfl) ?_ rfl
      (hfits.written hready hlast (fun _ _ => rfl) (hfits.target id htarget hopened).1)⟩
    intro row' hrow'
    obtain ⟨hworkspace, hmailbox, -⟩ := hall row' hrow'
    rw [Placed, hworkspace, hmailbox]
    exact h.placed_of_visible hrow

/-- **A default after a commit** is the one that the call makes, or was one that the call has
not cleared. -/
theorem Inv.default_of_commit (h : Inv mailboxes home s) {x : String}
    (hc : s.calls c = .running r (.written x)) {row : SignatureRow}
    (hrow : (s.rows.commit c).committed id = some row) (hdefault : row.isDefault = true) :
    r.makesDefault = true ∧ id = x ∨
      (∃ row₀, s.rows.committed id = some row₀ ∧ row₀.isDefault = true) ∧
        ¬Cleared s.rows c id := by
  rcases ReadCommitted.committed_commit_cases hrow with hp | ⟨hnone, hrow⟩
  · rcases (h.fits c r _ hc).held id row hp hdefault with ⟨hmakes, hstage⟩ | ⟨-, hwas⟩
    · exact .inl ⟨hmakes, (Stage.written.inj hstage).symm⟩
    · refine .inr ⟨hwas, ?_⟩
      rintro ⟨v, hv, hclear⟩
      rw [hp] at hv
      have hnot := hclear row (Prod.mk.inj (Option.some.inj hv)).2.symm
      rw [hdefault] at hnot
      cases hnot
  · exact .inr ⟨⟨row, hrow, hdefault⟩, fun ⟨v, hv, _⟩ => hnone v hv⟩

/-- The mailbox of the default that a call makes has no other after its commit. -/
theorem Inv.eq_of_commit (h : Inv mailboxes home s) {x : String}
    (hc : s.calls c = .running r (.written x)) (hmakes : r.makesDefault = true)
    (hhome : home id = home x)
    (hwas : ∃ row₀, s.rows.committed id = some row₀ ∧ row₀.isDefault = true)
    (hkept : ¬Cleared s.rows c id) : id = x := by
  have hfits := h.fits c r _ hc
  obtain ⟨row₀, hrow₀, hdefault⟩ := hwas
  rw [(hfits.wrote x rfl).1] at hhome
  exact (hfits.looked hmakes id row₀ hrow₀ hdefault hhome).resolve_right hkept

theorem Inv.commit (h : Inv mailboxes home s) {x : String} (call : Call)
    (hc : s.calls c = .running r (.written x)) (hsettles : Settles s (.commit c))
    (hended : ∀ r stage, call ≠ .running r stage) :
    Inv mailboxes home
      { rows := s.rows.commit c, calls := Function.update s.calls c call } where
  committed id row hrow := h.placed_of_visible hrow
  pending id c' row hp := h.pending id c' row (ReadCommitted.pending_commit_iff.mp hp).2
  holder id c' v hp := by
    obtain ⟨hne, hp⟩ := ReadCommitted.pending_commit_iff.mp hp
    simp only [Function.update_of_ne hne]
    exact h.holder id c' v hp
  fits c' r' stage hcall := by
    rcases update_eq_cases hcall with ⟨-, hcall⟩ | ⟨hne, hcall⟩
    · exact absurd hcall (hended r' stage)
    · have hfits := h.fits c' r' stage hcall
      exact {
        asked := hfits.asked
        target := hfits.target
        wrote := hfits.wrote
        held := by
          intro id row hp hdefault
          obtain ⟨-, hp⟩ := ReadCommitted.pending_commit_iff.mp hp
          rw [ReadCommitted.committed_commit_of_pending hp hne]
          exact hfits.held id row hp hdefault
        looked := by
          intro hmakes' id row hrow hdefault hhome
          rcases h.default_of_commit hc hrow hdefault with ⟨hmakes, rfl⟩ | ⟨⟨row₀, hrow₀, hwas⟩, -⟩
          · -- The new default: this is what the condition says.
            have hmailbox := hhome.symm.trans ((h.fits c r _ hc).wrote id rfl).1
            exact .inl (hsettles r id hc hmakes c' hne r' stage hcall hmakes' hmailbox)
          · refine (hfits.looked hmakes' id row₀ hrow₀ hwas hhome).imp_right ?_
            rintro ⟨v, hv, hclear⟩
            exact ⟨v, ReadCommitted.pending_commit_iff.mpr ⟨hne, hv⟩, hclear⟩ }
  one a b ra rb ha hb hda hdb hab := by
    rcases h.default_of_commit hc ha hda with ⟨hmakes, rfl⟩ | ⟨hwasa, hkepta⟩
    · rcases h.default_of_commit hc hb hdb with ⟨-, rfl⟩ | ⟨hwasb, hkeptb⟩
      · rfl
      · exact (h.eq_of_commit hc hmakes hab.symm hwasb hkeptb).symm
    · rcases h.default_of_commit hc hb hdb with ⟨hmakes, rfl⟩ | ⟨hwasb, -⟩
      · exact h.eq_of_commit hc hmakes hab hwasa hkepta
      · obtain ⟨ra₀, hra₀, hda₀⟩ := hwasa
        obtain ⟨rb₀, hrb₀, hdb₀⟩ := hwasb
        exact h.one a b ra₀ rb₀ hra₀ hrb₀ hda₀ hdb₀ hab

theorem Inv.abort (h : Inv mailboxes home s) (call : Call)
    (hended : ∀ r stage, call ≠ .running r stage) :
    Inv mailboxes home
      { rows := s.rows.rollback c, calls := Function.update s.calls c call } where
  committed := h.committed
  pending id c' row hp := h.pending id c' row (ReadCommitted.pending_rollback_iff.mp hp).2
  holder id c' v hp := by
    obtain ⟨hne, hp⟩ := ReadCommitted.pending_rollback_iff.mp hp
    simp only [Function.update_of_ne hne]
    exact h.holder id c' v hp
  fits c' r' stage hcall := by
    rcases update_eq_cases hcall with ⟨-, hcall⟩ | ⟨hne, hcall⟩
    · exact absurd hcall (hended r' stage)
    · refine (h.fits c' r' stage hcall).frame (fun id hid => ⟨hid, rfl⟩) rfl fun id v => ?_
      rw [ReadCommitted.pending_rollback_iff]
      exact and_iff_right hne
  one := h.one

/-- **Step.** A step that meets the condition keeps the invariant. -/
theorem Inv.step (h : Inv mailboxes home s) {l : Label} (hl : Settles s l)
    (hstep : Signatures.step mailboxes s l = some s') : ∃ home', Inv mailboxes home' s' := by
  cases moves_of_step hstep with
  | start hc => exact ⟨home, h.start hc _⟩
  | asserted hc htarget hrow hof => exact ⟨home, h.asserted hc htarget hrow hof⟩
  | refused hc =>
    exact ⟨home, h.moveTo (fun id v hp => absurd hp (h.not_pending hc rfl id v)) nofun⟩
  | find hc => exact ⟨home, h.find hc⟩
  | clear hc hfree => exact ⟨home, h.clear hc hfree⟩
  | write hc hready hlast hfree => exact h.write hc hready hlast hfree
  | commit hc => exact ⟨home, h.commit _ hc hl nofun⟩
  | abort => exact ⟨home, h.abort _ nofun⟩

/-- **Run.** In a run whose steps all meet the condition, a mailbox has one default at most in
every committed state. -/
theorem oneDefault_of_settles (mailboxes : String → Option MailboxAccount) (s : State)
    (h : (system mailboxes).ReachableUnder Settles s) : OneDefault s := by
  have hinv : ∃ home, Inv mailboxes home s := by
    induction h with
    | init h0 =>
      obtain rfl := h0
      exact ⟨_, inv_init mailboxes⟩
    | step _ hl hstep ih =>
      obtain ⟨home, ih⟩ := ih
      exact ih.step hl hstep
  obtain ⟨home, hinv⟩ := hinv
  exact hinv.oneDefault

/-! ### Two runs -/

section Runs

/-- A mailbox of everybody's in the workspace. -/
def sharedMailbox : MailboxAccount where
  id := "m"
  workspaceId := "w"
  emailAddress := "team@example.test".toList
  displayName := none
  isDefault := true
  active := true
  postmarkLane := false
  provider := "stalwart"
  ownerKind := .shared
  ownerKey := none

/-- The one mailbox under its id. -/
def oneMailbox (id : String) : Option MailboxAccount :=
  if id = "m" then some sharedMailbox else none

def requestOf (operation : Operation) : Request := ⟨"w", none, "m", operation⟩

/-- A request for a new default. -/
def newDefault : Request :=
  requestOf (.create ⟨"Work", "<p>Team</p>", some true⟩)

/-- Nobody has asked for anything. -/
def start : State where
  rows := .empty ℕ String SignatureRow
  calls _ := .idle

theorem settles_of_alone (h : ∀ c' ≠ c, ∀ r stage, s.calls c' ≠ .running r stage) :
    Settles s (.commit c) :=
  fun _ _ _ _ c' hne r' stage hcall => absurd hcall (h c' hne r' stage)

/-- Two calls make a new default one after the other: the second clears the first one's. -/
theorem oneDefault_inTurn :
    ∃ s, (s.rows.committed "a").map (·.isDefault) = some false ∧
      (s.rows.committed "b").map (·.isDefault) = some true ∧ OneDefault s := by
  have hstart : (system oneMailbox).ReachableUnder Settles start := .init rfl
  have r := hstart.next (.start 0 newDefault) trivial rfl
  have r := (r.next (.find 0) trivial rfl).next (.write 0 "a") trivial rfl
  have r := r.next (.commit 0) (settles_of_alone fun c' hne r' stage hcall => by
    have hidle : Function.update (Function.update (Function.update start.calls 0 _) 0 _) 0 _ c' =
      .running r' stage := hcall
    simp only [Function.update_of_ne hne] at hidle
    cases hidle) rfl
  have r := r.next (.start 1 newDefault) trivial rfl
  have r := (r.next (.find 1) trivial rfl).next (.clear 1 "a") trivial rfl
  have r := r.next (.write 1 "b") trivial rfl
  have r := r.next (.commit 1) (settles_of_alone fun c' hne r' stage hcall => by
    have hended : Function.update (Function.update (Function.update (Function.update
      (Function.update (Function.update (Function.update (Function.update start.calls 0 _) 0 _)
        0 _) 0 (.done _ _)) 1 _) 1 _) 1 _) 1 _ c' = .running r' stage := hcall
    simp only [Function.update_of_ne hne] at hended
    rcases update_eq_cases hended with ⟨-, hdone⟩ | ⟨hne', hidle⟩
    · cases hdone
    · simp only [Function.update_of_ne hne'] at hidle
      cases hidle) rfl
  exact ⟨_, rfl, rfl, oneDefault_of_settles oneMailbox _ r⟩

/-- Two calls that make a new default for a mailbox and look for the old ones before either
commits. -/
def twoCalls : List Label :=
  [.start 0 newDefault, .start 1 newDefault, .find 0, .find 1, .write 0 "a", .write 1 "b",
    .commit 0, .commit 1]

/-- **They leave two defaults.** -/
theorem not_oneDefault_twoCalls :
    ∃ s, (system oneMailbox).Reachable s ∧ ¬OneDefault s := by
  have hrun : ((system oneMailbox).exec start twoCalls).isSome = true := rfl
  refine ⟨_, System.exec_reachable rfl (Option.some_get hrun).symm, fun h => ?_⟩
  have hsame := h "a" "b" ⟨"w", "m", "Work", "<p>Team</p>", true⟩ ⟨"w", "m", "Work", "<p>Team</p>", true⟩ rfl rfl rfl rfl rfl
  revert hsame
  decide

end Runs

end Signatures
end EmailOps
