import EmailOps.Framework.Rewriting
import EmailOps.Triage.Dispatch

/-!
# Disposing of threads

The disposition of a thread is a row of the overlay. The mail client's endpoints write the
row after they have moved the thread in the mailbox that holds it; the tools of an agent,
`set_disposition` and `bulk_disposition`, write the row only.

* `applyThreadDisposition` is what the endpoints do for one thread and `setDisposition` what
  the tools do; `bulk` and `bulkDisposition` are their loops.
* `Mail.Rewritten` orders the mail by what a verb has been carried out on, so that mail which
  is the same in the end was the same all along.
* `bulk_eq_bulkDisposition_iff`: the two surfaces leave the same state exactly when all that
  the endpoints move is in its place already, `AllInPlace`.

The rows are the same on both surfaces (`overlay_bulk`); the folders are not
(`agent_archives_nothing`).
-/

namespace EmailOps
namespace Triage

open Framework Cleanup

/-! ### The rows -/

/-- A row of the overlay. -/
structure DispositionRow extends ThreadDisposition where
  setByUcUid : Option String
  setByAgentKey : Option String

/-- The mail of the mailboxes, and the overlay. -/
structure Desk where
  mail : Mail
  overlay : List DispositionRow

/-- `threadDisposition.upsert`. -/
def upsert (row : DispositionRow) (overlay : List DispositionRow) : List DispositionRow :=
  let same := fun r : DispositionRow => r.workspaceId = row.workspaceId && r.threadId = row.threadId
  if overlay.any same then overlay.map fun r => if same r then row else r
  else overlay ++ [row]

/-! ### One thread -/

section One

variable (configured : Bool) (tables : MailTables) (workspaceId : String) (ucUid : Option String)
  (threadId : String) (disposition : MessageDisposition) (agentKey : Option String)

/-- `setDisposition` of the disposition service: the row that is returned, unless the write
fails. -/
def setDisposition (stored : Bool) (desk : Desk) : Desk × Option DispositionRow :=
  let row : DispositionRow := ⟨⟨workspaceId, threadId, disposition⟩, ucUid, agentKey⟩
  if stored then ({ desk with overlay := upsert row desk.overlay }, some row) else (desk, none)

/-- `applyThreadDisposition`: the thread is moved, then the row is written. The second part
of the result says whether the search has found the thread. -/
def applyThreadDisposition (stored : Bool) (fates : String → Fate) (desk : Desk) :
    Desk × Option (DispositionRow × Bool) :=
  let moved := moveThreadToFolderAcrossMailboxes configured
    (readableMailboxes tables workspaceId ucUid) desk.mail threadId disposition fates
  let written := setDisposition workspaceId ucUid threadId disposition agentKey stored
    { desk with mail := moved.mail }
  (written.1, written.2.map fun row => (row, moved.answer))

end One

/-! ### Many threads -/

/-- The threads of a bulk action, by what became of them. -/
structure BulkOutcome where
  succeeded : List String
  failed : List String
  deriving DecidableEq

/-- `Promise.allSettled`, over the threads of a bulk action: a thread that fails does not
keep the others from their turn. -/
def settleAll {σ : Type} (one : ℕ → String → σ → σ × Bool) : ℕ → List String → σ → σ × BulkOutcome
  | _, [], s => (s, ⟨[], []⟩)
  | i, id :: ids, s =>
    let done := one i id s
    let rest := settleAll one (i + 1) ids done.1
    if done.2 then (rest.1, { rest.2 with succeeded := id :: rest.2.succeeded })
    else (rest.1, { rest.2 with failed := id :: rest.2.failed })

/-- The actions of the bulk endpoint. -/
inductive BulkThreadAction where
  | archive | trash | spam | inbox | read | unread
  deriving DecidableEq, Repr

/-- `BULK_DISPOSITION`. -/
def bulkTarget : BulkThreadAction → Option MessageDisposition
  | .archive => some .archive
  | .trash => some .trash
  | .spam => some .spam
  | .inbox => some .inbox
  | .read | .unread => none

/-- The action of a disposition. -/
def actionOf : MessageDisposition → BulkThreadAction
  | .archive => .archive
  | .trash => .trash
  | .spam => .spam
  | .inbox => .inbox

@[simp] theorem bulkTarget_actionOf (d : MessageDisposition) : bulkTarget (actionOf d) = some d := by
  cases d <;> rfl

section Many

variable (configured : Bool) (tables : MailTables) (workspaceId : String) (ucUid : Option String)

/-- `POST threads/bulk` of the mail controller. `fates` and `stored` are what becomes of the
requests and of the write for each thread of the list. -/
def bulk (stored : ℕ → Bool) (fates : ℕ → String → Fate) (action : BulkThreadAction) :
    ℕ → List String → Desk → Desk × BulkOutcome :=
  settleAll fun i threadId desk =>
    match bulkTarget action with
    | some target =>
      let applied := applyThreadDisposition configured tables workspaceId ucUid threadId target none
        (stored i) (fates i) desk
      (applied.1, applied.2.isSome)
    | none =>
      let toggled := setThreadReadAcrossMailboxes configured
        (readableMailboxes tables workspaceId ucUid) desk.mail threadId (action = .read) (fates i)
      ({ desk with mail := toggled.mail }, toggled.answer)

/-- The tool `bulk_disposition`. -/
def bulkDisposition (stored : ℕ → Bool) (disposition : MessageDisposition) :
    ℕ → List String → Desk → Desk × BulkOutcome :=
  settleAll fun i threadId desk =>
    let written := setDisposition workspaceId ucUid threadId disposition none (stored i) desk
    (written.1, written.2.isSome)

end Many

/-! ### Mail on which a verb has been carried out -/

/-- The second mail is the first after the verb was carried out on some of its messages. -/
structure Mail.Rewritten (verb : Verb) (mail mail' : Mail) : Prop where
  mailboxes : ∀ address, (mail'.engine address).mailboxes = (mail.engine address).mailboxes
  emails : ∀ address, Framework.Rewritten (rewriteOf (mail.engine address) verb)
    (mail.engine address).emails (mail'.engine address).emails
  address : ∀ provider owner,
    (mail'.connected provider owner).address = (mail.connected provider owner).address
  messages : ∀ provider owner, Framework.Rewritten (Message.rewritten provider verb)
    (mail.connected provider owner).messages (mail'.connected provider owner).messages

attribute [ext] Mail Account Jmap.Account Desk

section Rewritten

variable {verb : Verb} {mail mail' mail'' : Mail}

theorem rewriteOf_congr {a a' : Jmap.Account} (h : a'.mailboxes = a.mailboxes) :
    rewriteOf a' verb = rewriteOf a verb := by
  funext m
  unfold rewriteOf Jmap.Account.mailboxFor
  rw [h]

theorem rewriteOf_rewriteOf (a : Jmap.Account) (m : Jmap.Email) :
    rewriteOf a verb (rewriteOf a verb m) = rewriteOf a verb m := by
  unfold rewriteOf
  cases verb.folder?.bind a.mailboxFor <;> cases verb <;> rfl

namespace Mail.Rewritten

theorem refl (verb : Verb) (mail : Mail) : mail.Rewritten verb mail where
  mailboxes _ := rfl
  emails _ := .refl _ _
  address _ _ := rfl
  messages _ _ := .refl _ _

theorem trans (h : mail.Rewritten verb mail') (h' : mail'.Rewritten verb mail'') :
    mail.Rewritten verb mail'' where
  mailboxes address := (h'.mailboxes address).trans (h.mailboxes address)
  emails address := by
    have hemails := h'.emails address
    rw [rewriteOf_congr (h.mailboxes address)] at hemails
    exact (h.emails address).trans (rewriteOf_rewriteOf _) hemails
  address provider owner := (h'.address provider owner).trans (h.address provider owner)
  messages provider owner :=
    (h.messages provider owner).trans rewritten_rewritten (h'.messages provider owner)

/-- **No way back**: mail that is the same again has not changed on the way. -/
theorem antisymm (h : mail.Rewritten verb mail') (h' : mail'.Rewritten verb mail) :
    mail = mail' := by
  refine Mail.ext (funext fun address => Jmap.Account.ext (h.mailboxes address).symm ?_)
    (funext fun provider => funext fun owner => Account.ext (h.address provider owner).symm ?_)
  · have hemails := h'.emails address
    rw [rewriteOf_congr (h.mailboxes address)] at hemails
    exact (h.emails address).antisymm (rewriteOf_rewriteOf _) hemails
  · exact (h.messages provider owner).antisymm rewritten_rewritten (h'.messages provider owner)

end Mail.Rewritten

end Rewritten

/-! ### What the endpoints move -/

section Endpoints

variable (configured : Bool) (threadId : String) (verb : Verb) (mail : Mail)

/-- All the messages that the verb takes effect on in a mailbox are as it leaves them. -/
def InPlace (mailbox : MailboxAccount) (fate : Fate) : Prop :=
  match providerOf mailbox with
  | some provider =>
    let a := mail.connected provider (mailbox.ownerKey.getD "")
    truthy mailbox.ownerKey = true →
      ∀ m ∈ touched provider a fate.turn verb threadId, m.rewritten provider verb = m
  | none =>
    let a := mail.engine mailbox.emailAddress
    ∀ m ∈ sovereignTouched configured a threadId verb fate.exchange, rewriteOf a verb m = m

/-- **All in place.** In every mailbox that the search for a thread comes to, the messages
that the verb takes effect on are as it leaves them. -/
def AllInPlace (fates : String → Fate) : List MailboxAccount → Prop
  | [] => True
  | mailbox :: rest =>
    InPlace configured threadId verb mail mailbox (fates mailbox.id) ∧
      (¬Answers configured threadId verb mail mailbox (fates mailbox.id) → AllInPlace fates rest)

end Endpoints

section Attempt

variable {configured : Bool} {threadId : String} {verb : Verb} {mail : Mail}
  {mailbox : MailboxAccount} {fate : Fate} {fates : String → Fate}

theorem emails_sovereignVerb (a : Jmap.Account) (x : Jmap.Exchange) :
    (sovereignVerb configured a threadId verb x).1 =
      { a with emails := a.emails.map fun m =>
          if m ∈ sovereignTouched configured a threadId verb x then rewriteOf a verb m else m } := by
  rw [sovereignVerb_eq, sovereignTouched]
  split
  · exact Jmap.Account.ext Jmap.mailboxes_setThread Jmap.emails_setThread
  · simp

/-- An account of the engine on which the verb has been carried out, put in place. -/
theorem rewritten_setEngine {address : Text} {a : Jmap.Account}
    (hmailboxes : a.mailboxes = (mail.engine address).mailboxes)
    (hemails : Framework.Rewritten (rewriteOf (mail.engine address) verb)
      (mail.engine address).emails a.emails) :
    mail.Rewritten verb (mail.setEngine address a) := by
  refine ⟨fun other => ?_, fun other => ?_, fun _ _ => rfl, fun _ _ => .refl _ _⟩
  · by_cases hother : other = address
    · subst hother
      simpa [Mail.setEngine] using hmailboxes
    · simp [Mail.setEngine, Function.update_of_ne hother]
  · by_cases hother : other = address
    · subst hother
      simpa [Mail.setEngine] using hemails
    · simpa [Mail.setEngine, Function.update_of_ne hother] using .refl _ _

/-- A connected account on which the verb has been carried out, put in place. -/
theorem rewritten_setConnected {provider : Provider} {owner : String} {a : Account}
    (haddress : a.address = (mail.connected provider owner).address)
    (hmessages : Framework.Rewritten (Message.rewritten provider verb)
      (mail.connected provider owner).messages a.messages) :
    mail.Rewritten verb (mail.setConnected provider owner a) := by
  have haccount : ∀ other other', other = provider ∧ other' = owner ∨
      (mail.setConnected provider owner a).connected other other' = mail.connected other other' := by
    intro other other'
    by_cases hprovider : other = provider
    · subst hprovider
      by_cases howner : other' = owner
      · exact .inl ⟨rfl, howner⟩
      · exact .inr (by simp [Mail.setConnected, Function.update_of_ne howner])
    · exact .inr (by simp [Mail.setConnected, Function.update_of_ne hprovider])
  have hself : (mail.setConnected provider owner a).connected provider owner = a := by
    simp [Mail.setConnected]
  refine ⟨fun _ => rfl, fun _ => .refl _ _, fun other other' => ?_, fun other other' => ?_⟩
  · -- The account that is put in place, or another one.
    rcases haccount other other' with ⟨rfl, rfl⟩ | hsame
    · rw [hself, haddress]
    · rw [hsame]
  · rcases haccount other other' with ⟨rfl, rfl⟩ | hsame
    · rw [hself]
      exact hmessages
    · rw [hsame]
      exact .refl _ _

/-- The verb is carried out on some messages of the mailbox. -/
theorem rewritten_attempt :
    mail.Rewritten verb (attempt configured threadId verb mail mailbox fate).mail := by
  unfold attempt
  cases providerOf mailbox with
  | some provider =>
    simp only
    split
    · exact .refl _ _
    · exact rewritten_setConnected rfl (.map _ _ _)
  | none =>
    refine rewritten_setEngine ?_ ?_
    · rw [emails_sovereignVerb]
    · rw [emails_sovereignVerb]
      exact .map _ _ _

@[simp] theorem setEngine_eq_self_iff {address : Text} {a : Jmap.Account} :
    mail.setEngine address a = mail ↔ a = mail.engine address := by
  rw [Mail.setEngine, Mail.ext_iff]
  simp

@[simp] theorem setConnected_eq_self_iff {provider : Provider} {owner : String} {a : Account} :
    mail.setConnected provider owner a = mail ↔ a = mail.connected provider owner := by
  rw [Mail.setConnected, Mail.ext_iff]
  simp

/-- **An attempt that changes nothing** has all in place. -/
theorem attempt_eq_self_iff :
    (attempt configured threadId verb mail mailbox fate).mail = mail ↔
      InPlace configured threadId verb mail mailbox fate := by
  unfold attempt InPlace
  cases providerOf mailbox with
  | some provider =>
    cases howner : truthy mailbox.ownerKey with
    | false => simp
    | true =>
      simp only [Bool.not_true, Bool.false_eq_true, if_false, setConnected_eq_self_iff,
        Account.triaged, Account.ext_iff, Framework.Rewritten.map_eq_self_iff, true_and,
        true_implies]
      exact ⟨fun h m hm => h m (mem_touched.mp hm).1.1 hm, fun h m _ hm => h m hm⟩
  | none =>
    simp only [setEngine_eq_self_iff, emails_sovereignVerb, Jmap.Account.ext_iff, true_and,
      Framework.Rewritten.map_eq_self_iff]
    refine ⟨fun h m hm => h m ?_ hm, fun h m _ hm => h m hm⟩
    -- A message that is touched is one of the account.
    unfold sovereignTouched at hm
    split at hm
    · exact (Jmap.mem_updated.mp hm).2.1.1
    · cases hm

/-- The verb is carried out on some messages of the mailboxes. The induction is on them. -/
theorem rewritten_search (mailboxes : List MailboxAccount) :
    mail.Rewritten verb (search configured threadId verb fates mailboxes mail).mail := by
  induction mailboxes generalizing mail with
  | nil => exact .refl _ _
  | cons mailbox rest ih =>
    unfold search
    simp only
    split
    · exact rewritten_attempt
    · exact rewritten_attempt.trans ih

/-- **A search that changes nothing** has all in place. -/
theorem search_eq_self_iff (mailboxes : List MailboxAccount) :
    (search configured threadId verb fates mailboxes mail).mail = mail ↔
      AllInPlace configured threadId verb mail fates mailboxes := by
  induction mailboxes with
  | nil => simp [search, AllInPlace]
  | cons mailbox rest ih =>
    unfold search AllInPlace
    rw [← attempt_eq_self_iff]
    by_cases hanswers : Answers configured threadId verb mail mailbox (fates mailbox.id)
    · -- The search stops here.
      simp [answer_attempt_iff.mpr hanswers, hanswers]
    · have hanswer : (attempt configured threadId verb mail mailbox
          (fates mailbox.id)).answer = false := by
        rw [← Bool.not_eq_true, answer_attempt_iff]
        exact hanswers
      simp only [hanswer, Bool.false_eq_true, if_false, hanswers, not_false_eq_true, true_implies]
      constructor
      · intro hsame
        -- Mail that is the same in the end is the same after this mailbox.
        have hlater : (attempt configured threadId verb mail mailbox
            (fates mailbox.id)).mail.Rewritten verb
            (search configured threadId verb fates rest
              (attempt configured threadId verb mail mailbox (fates mailbox.id)).mail).mail :=
          rewritten_search rest
        rw [hsame] at hlater
        have hfirst := (rewritten_attempt.antisymm hlater).symm
        rw [hfirst] at hsame
        exact ⟨hfirst, ih.mp hsame⟩
      · rintro ⟨hfirst, hrest⟩
        rw [hfirst]
        exact ih.mpr hrest

end Attempt

/-! ### The two surfaces -/

section Surfaces

variable {configured : Bool} {tables : MailTables} {workspaceId : String} {ucUid : Option String}
  {stored : ℕ → Bool} {fates : ℕ → String → Fate} {d : MessageDisposition}

theorem settleAll_cons {σ : Type} (one : ℕ → String → σ → σ × Bool) (i : ℕ) (id : String)
    (ids : List String) (s : σ) :
    (settleAll one i (id :: ids) s).1 = (settleAll one (i + 1) ids (one i id s).1).1 := by
  simp only [settleAll, apply_ite Prod.fst, ite_self]

/-- The endpoint's loop takes the threads one by one. -/
theorem bulk_cons (i : ℕ) (threadId : String) (threadIds : List String) (desk : Desk) :
    (bulk configured tables workspaceId ucUid stored fates (actionOf d) i
        (threadId :: threadIds) desk).1 =
      (bulk configured tables workspaceId ucUid stored fates (actionOf d) (i + 1) threadIds
        (applyThreadDisposition configured tables workspaceId ucUid threadId d none (stored i)
          (fates i) desk).1).1 := by
  unfold bulk
  rw [settleAll_cons]
  cases d <;> rfl

theorem bulkDisposition_cons (i : ℕ) (threadId : String) (threadIds : List String) (desk : Desk) :
    (bulkDisposition workspaceId ucUid stored d i (threadId :: threadIds) desk).1 =
      (bulkDisposition workspaceId ucUid stored d (i + 1) threadIds
        (setDisposition workspaceId ucUid threadId d none (stored i) desk).1).1 :=
  settleAll_cons _ _ _ _ _

@[simp] theorem mail_setDisposition (threadId : String) (agentKey : Option String) (done : Bool)
    (desk : Desk) :
    (setDisposition workspaceId ucUid threadId d agentKey done desk).1.mail = desk.mail := by
  unfold setDisposition
  split <;> rfl

theorem mail_applyThreadDisposition (threadId : String) (agentKey : Option String) (done : Bool)
    (fate : String → Fate) (desk : Desk) :
    (applyThreadDisposition configured tables workspaceId ucUid threadId d agentKey done fate
        desk).1.mail =
      (search configured threadId (verbOf d) fate (readableMailboxes tables workspaceId ucUid)
        desk.mail).mail := by
  unfold applyThreadDisposition
  rw [mail_setDisposition]
  rfl

/-- The rows are written alike, whatever becomes of the mail. -/
theorem overlay_bulk (i : ℕ) (threadIds : List String) {desk desk' : Desk}
    (h : desk.overlay = desk'.overlay) :
    (bulk configured tables workspaceId ucUid stored fates (actionOf d) i threadIds desk).1.overlay
      = (bulkDisposition workspaceId ucUid stored d i threadIds desk').1.overlay := by
  induction threadIds generalizing i desk desk' with
  | nil => exact h
  | cons threadId threadIds ih =>
    -- Both surfaces write the row of this thread, or fail to.
    have hwritten : (applyThreadDisposition configured tables workspaceId ucUid threadId d none
          (stored i) (fates i) desk).1.overlay =
        (setDisposition workspaceId ucUid threadId d none (stored i) desk').1.overlay := by
      unfold applyThreadDisposition setDisposition
      cases stored i <;> simp [h]
    rw [bulk_cons, bulkDisposition_cons]
    exact ih (i + 1) hwritten

@[simp] theorem mail_bulkDisposition (i : ℕ) (threadIds : List String) (desk : Desk) :
    (bulkDisposition workspaceId ucUid stored d i threadIds desk).1.mail = desk.mail := by
  induction threadIds generalizing i desk with
  | nil => rfl
  | cons threadId threadIds ih => rw [bulkDisposition_cons, ih, mail_setDisposition]

/-- The endpoint carries the verb out on some messages. -/
theorem rewritten_bulk (i : ℕ) (threadIds : List String) (desk : Desk) :
    desk.mail.Rewritten (verbOf d)
      (bulk configured tables workspaceId ucUid stored fates (actionOf d) i threadIds desk).1.mail := by
  induction threadIds generalizing i desk with
  | nil => exact .refl _ _
  | cons threadId threadIds ih =>
    rw [bulk_cons]
    refine .trans ?_ (ih (i + 1) _)
    rw [mail_applyThreadDisposition]
    exact rewritten_search _

/-- **The endpoint changes no mail** exactly when every thread is all in place. The
induction is on the threads; that a later one does not undo an earlier one is `antisymm`. -/
theorem mail_bulk_eq_iff (i : ℕ) (threadIds : List String) (desk : Desk) :
    (bulk configured tables workspaceId ucUid stored fates (actionOf d) i threadIds desk).1.mail
        = desk.mail ↔
      ∀ j threadId, threadIds[j]? = some threadId →
        AllInPlace configured threadId (verbOf d) desk.mail (fates (i + j))
          (readableMailboxes tables workspaceId ucUid) := by
  induction threadIds generalizing i desk with
  | nil => simp [bulk, settleAll]
  | cons threadId threadIds ih =>
    have happly : (applyThreadDisposition configured tables workspaceId ucUid threadId d none
          (stored i) (fates i) desk).1.mail =
        (search configured threadId (verbOf d) (fates i)
          (readableMailboxes tables workspaceId ucUid) desk.mail).mail :=
      mail_applyThreadDisposition threadId none (stored i) (fates i) desk
    rw [bulk_cons]
    constructor
    · -- Mail that has not changed in the end has not changed on the first thread.
      intro hsame
      have hlater := @rewritten_bulk configured tables workspaceId ucUid stored fates d (i + 1)
        threadIds (applyThreadDisposition configured tables workspaceId ucUid threadId d none
          (stored i) (fates i) desk).1
      rw [hsame, happly] at hlater
      have hfirst := ((rewritten_search _).antisymm hlater).symm
      rw [hfirst] at happly
      rw [← happly, ih, happly] at hsame
      rintro (_ | j) other hother
      · obtain rfl := Option.some.inj hother
        exact search_eq_self_iff _ |>.mp hfirst
      · have hplace := hsame j other hother
        rwa [Nat.add_assoc, Nat.add_comm 1] at hplace
    · intro h
      -- The first thread is in place, so that the others are looked at in the same mail.
      have hfirst := (search_eq_self_iff _).mpr (h 0 threadId rfl)
      rw [Nat.add_zero] at hfirst
      rw [hfirst] at happly
      rw [← happly]
      refine (ih (i + 1) _).mpr fun j other hother => ?_
      have hplace := h (j + 1) other hother
      rwa [happly, Nat.add_assoc, Nat.add_comm 1]

/-- **When the two surfaces agree.** An agent's `bulk_disposition` and the mail client's
bulk endpoint, and so `set_disposition` and the endpoint for one thread, leave the same mail
and the same rows exactly when the endpoint finds all in place. -/
theorem bulk_eq_bulkDisposition_iff (configured : Bool) (tables : MailTables)
    (workspaceId : String) (ucUid : Option String) (stored : ℕ → Bool)
    (fates : ℕ → String → Fate) (d : MessageDisposition) (desk : Desk) :
    (∀ threadIds,
      (bulk configured tables workspaceId ucUid stored fates (actionOf d) 0 threadIds desk).1 =
          (bulkDisposition workspaceId ucUid stored d 0 threadIds desk).1 ↔
        ∀ i threadId, threadIds[i]? = some threadId →
          AllInPlace configured threadId (verbOf d) desk.mail (fates i)
            (readableMailboxes tables workspaceId ucUid)) ∧
    ∀ threadId,
      (applyThreadDisposition configured tables workspaceId ucUid threadId d none (stored 0)
          (fates 0) desk).1 =
          (setDisposition workspaceId ucUid threadId d none (stored 0) desk).1 ↔
        AllInPlace configured threadId (verbOf d) desk.mail (fates 0)
          (readableMailboxes tables workspaceId ucUid) := by
  have hmany : ∀ threadIds,
      (bulk configured tables workspaceId ucUid stored fates (actionOf d) 0 threadIds desk).1 =
          (bulkDisposition workspaceId ucUid stored d 0 threadIds desk).1 ↔
        ∀ i threadId, threadIds[i]? = some threadId →
          AllInPlace configured threadId (verbOf d) desk.mail (fates i)
            (readableMailboxes tables workspaceId ucUid) := by
    intro threadIds
    have hmail := @mail_bulk_eq_iff configured tables workspaceId ucUid stored fates d 0 threadIds
      desk
    simp only [Nat.zero_add] at hmail
    rw [Desk.ext_iff, mail_bulkDisposition, hmail]
    exact and_iff_left (overlay_bulk 0 threadIds rfl)
  refine ⟨hmany, fun threadId => ?_⟩
  -- One thread is a list of one.
  have hone := hmany [threadId]
  rw [bulk_cons, bulkDisposition_cons] at hone
  refine hone.trans ⟨fun h => h 0 threadId rfl, fun h i other hother => ?_⟩
  obtain ⟨rfl, rfl⟩ : i = 0 ∧ other = threadId := by
    cases i with
    | zero => exact ⟨rfl, (Option.some.inj hother).symm⟩
    | succ i => cases hother
  exact h

end Surfaces

/-! ### A thread that an agent does not archive -/

/-- The workspace has the mailbox of the engine. -/
def adasTables : MailTables where
  settings := { mailboxes := [engineMailbox] }
  rows := []
  dispositions := []
  row_ids := List.nodup_nil
  mailbox_ids := List.nodup_singleton _
  addresses := List.nodup_singleton _

/-- **The same action, and another folder**: the mail client's endpoint moves the thread to
the Archive, an agent's tool leaves it in the Inbox. -/
theorem agent_archives_nothing :
    let endpoint := bulk true adasTables "acme" (some "ada") (fun _ => true)
      (fun _ _ => smoothFate) (actionOf .archive) 0 ["t1"] ⟨engineOnly, []⟩
    let tool := bulkDisposition "acme" (some "ada") (fun _ => true) .archive 0 ["t1"]
      ⟨engineOnly, []⟩
    (endpoint.1.mail.engine engineMailbox.emailAddress).emails.map (·.mailboxIds) = [{"ar"}] ∧
      (tool.1.mail.engine engineMailbox.emailAddress).emails.map (·.mailboxIds) = [{"in"}] ∧
      endpoint.1 ≠ tool.1 := by
  have hendpoint : ((bulk true adasTables "acme" (some "ada") (fun _ => true)
      (fun _ _ => smoothFate) (actionOf .archive) 0 ["t1"] ⟨engineOnly, []⟩).1.mail.engine
        engineMailbox.emailAddress).emails.map (·.mailboxIds) = [{"ar"}] := by decide
  have htool : ((bulkDisposition "acme" (some "ada") (fun _ => true) .archive 0 ["t1"]
      ⟨engineOnly, []⟩).1.mail.engine engineMailbox.emailAddress).emails.map (·.mailboxIds)
        = [{"in"}] := by decide
  refine ⟨hendpoint, htool, fun hsame => ?_⟩
  rw [hsame, htool] at hendpoint
  exact absurd hendpoint (by decide)

end Triage
end EmailOps
