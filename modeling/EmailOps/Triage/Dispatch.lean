import EmailOps.Triage.Jmap
import EmailOps.Triage.Provider

/-!
# Moving a thread, whichever mailbox holds it

A bulk action names a thread and no mailbox. `moveThreadToFolderAcrossMailboxes` and
`setThreadReadAcrossMailboxes` try the mailboxes the caller may read one after the other,
and stop at the first whose lane answers yes. A `true` is to mean that the thread was really
triaged, in a mailbox that holds it.

* `attempt` is what one mailbox does, by its lane, and `search` the loop over the mailboxes,
  with the messages that are really touched.
* `Hollow` and `Torn` are the two ways in which a lane's answer is not about the mail: a yes
  without a message, and messages without a yes.
* `truthful_iff`: the search is truthful exactly when it does not stop at a hollow mailbox
  and does not pass a torn one, `Clean`.

An endpoint of the cleaner engine says `ok` when nothing has raised, and Microsoft Graph has
an empty list for a conversation it does not know. So a Microsoft mailbox ends the search
for a thread of any mailbox behind it (`foreign_thread_is_reported_moved`).
-/

namespace EmailOps
namespace Triage

open Framework Cleanup

/-! ### One mailbox -/

/-- The mail of the mailboxes. -/
structure Mail where
  /-- The accounts of the sovereign engine, by address. -/
  engine : Text → Jmap.Account
  /-- The connected accounts, by provider and owner. -/
  connected : Provider → String → Account

/-- Put a sovereign account in place. -/
def Mail.setEngine (mail : Mail) (address : Text) (a : Jmap.Account) : Mail :=
  { mail with engine := Function.update mail.engine address a }

/-- Put a connected account in place. -/
def Mail.setConnected (mail : Mail) (provider : Provider) (owner : String) (a : Account) : Mail :=
  let accounts := Function.update (mail.connected provider) owner a
  { mail with connected := Function.update mail.connected provider accounts }

/-- What becomes of the call of one mailbox's lane. -/
structure Fate where
  exchange : Jmap.Exchange
  turn : Turn

/-- The provider of an external mailbox. -/
def providerOf (mailbox : MailboxAccount) : Option Provider :=
  if mailbox.provider = "gmail" then some .gmail
  else if mailbox.provider = "microsoft" then some .microsoft
  else none

/-- `dispositionFolder`. -/
def dispositionFolder : MessageDisposition → MailFolder
  | .archive => .archive
  | .trash => .trash
  | .spam => .spam
  | .inbox => .inbox

/-- The verb of a disposition. -/
def verbOf : MessageDisposition → Verb
  | .archive => .archive
  | .trash => .trash
  | .spam => .spam
  | .inbox => .inbox

/-- The folder a verb moves to. -/
def Verb.folder? : Verb → Option MailFolder
  | .archive => some .archive
  | .trash => some .trash
  | .spam => some .spam
  | .inbox => some .inbox
  | .read _ => none

/-- A verb on a thread of the sovereign engine. -/
def sovereignVerb (configured : Bool) (a : Jmap.Account) (threadId : String) (verb : Verb)
    (x : Jmap.Exchange) : Jmap.Account × Bool :=
  match verb with
  | .archive => Jmap.moveThreadToFolder configured a threadId .archive x
  | .trash => Jmap.moveThreadToFolder configured a threadId .trash x
  | .spam => Jmap.moveThreadToFolder configured a threadId .spam x
  | .inbox => Jmap.moveThreadToFolder configured a threadId .inbox x
  | .read value => Jmap.setThreadRead configured a threadId value x

/-- What a verb makes of a message of the sovereign engine that it takes effect on. -/
def rewriteOf (a : Jmap.Account) (verb : Verb) (m : Jmap.Email) : Jmap.Email :=
  match verb, verb.folder?.bind a.mailboxFor with
  | .read value, _ => m.setSeen value
  | _, some target => m.moveTo target
  | _, none => m

/-- Does the sovereign lane come to the messages of the thread? -/
def reaches (configured : Bool) (a : Jmap.Account) (verb : Verb) (x : Jmap.Exchange) : Bool :=
  configured && (verb.folder?.all fun folder => (Jmap.target? a folder x).isSome)

/-- The messages that a verb of the sovereign lane takes effect on. -/
def sovereignTouched (configured : Bool) (a : Jmap.Account) (threadId : String) (verb : Verb)
    (x : Jmap.Exchange) : List Jmap.Email :=
  if reaches configured a verb x then Jmap.updated a threadId x else []

/-- What one mailbox has done. -/
structure Attempt where
  mail : Mail
  /-- The answer of the lane. -/
  answer : Bool
  /-- The ids of the messages that the verb has taken effect on. -/
  touched : List String

/-- The verb, in one mailbox. An external mailbox is reached through its owner. -/
def attempt (configured : Bool) (threadId : String) (verb : Verb) (mail : Mail)
    (mailbox : MailboxAccount) (fate : Fate) : Attempt :=
  match providerOf mailbox with
  | some provider =>
    if !truthy mailbox.ownerKey then ⟨mail, false, []⟩
    else
      let owner := mailbox.ownerKey.getD ""
      let a := mail.connected provider owner
      { mail := mail.setConnected provider owner (a.triaged provider fate.turn verb threadId)
        answer := answerOf fate.turn (threadVerb provider a fate.turn verb threadId)
        touched := (touched provider a fate.turn verb threadId).map fun m => String.ofList m.id }
  | none =>
    let a := mail.engine mailbox.emailAddress
    let done := sovereignVerb configured a threadId verb fate.exchange
    { mail := mail.setEngine mailbox.emailAddress done.1
      answer := done.2
      touched := (sovereignTouched configured a threadId verb fate.exchange).map (·.id) }

/-- Does the mailbox hold a message of the thread? -/
def holds (threadId : String) (mail : Mail) (mailbox : MailboxAccount) : Bool :=
  match providerOf mailbox with
  | some provider =>
    truthy mailbox.ownerKey &&
      (mail.connected provider (mailbox.ownerKey.getD "")).messages.any (·.threadId = threadId)
  | none => (mail.engine mailbox.emailAddress).emails.any (·.threadId = threadId)

/-! ### The search -/

/-- The outcome of a search. -/
structure Search where
  mail : Mail
  answer : Bool
  /-- The mailbox the search has stopped at. -/
  stoppedAt : Option MailboxAccount
  /-- The messages that were really touched, with their mailboxes. -/
  touched : List (String × String)

section Search

variable (configured : Bool) (threadId : String) (verb : Verb) (fates : String → Fate)

/-- Try the mailboxes in turn, up to the first whose lane answers yes. -/
def search : List MailboxAccount → Mail → Search
  | [], mail => ⟨mail, false, none, []⟩
  | mailbox :: rest, mail =>
    let tried := attempt configured threadId verb mail mailbox (fates mailbox.id)
    let found := tried.touched.map fun id => (mailbox.id, id)
    if tried.answer then ⟨tried.mail, true, some mailbox, found⟩
    else
      let later := search rest tried.mail
      { later with touched := found ++ later.touched }

end Search

/-- `moveThreadToFolderAcrossMailboxes`. -/
def moveThreadToFolderAcrossMailboxes (configured : Bool) (mailboxes : List MailboxAccount)
    (mail : Mail) (threadId : String) (disposition : MessageDisposition) (fates : String → Fate) :
    Search :=
  search configured threadId (verbOf disposition) fates mailboxes mail

/-- `setThreadReadAcrossMailboxes`. -/
def setThreadReadAcrossMailboxes (configured : Bool) (mailboxes : List MailboxAccount)
    (mail : Mail) (threadId : String) (read : Bool) (fates : String → Fate) : Search :=
  search configured threadId (.read read) fates mailboxes mail

/-- **A truthful search.** It answers yes exactly when a message was really touched, and it
does not stop at a mailbox that does not know the thread. -/
structure Truthful (threadId : String) (mail : Mail) (s : Search) : Prop where
  answer : s.answer = true ↔ s.touched ≠ []
  stopped : ∀ mailbox, s.stoppedAt = some mailbox → holds threadId mail mailbox = true

/-! ### When a lane's answer is about the mail -/

section Lanes

variable (configured : Bool) (threadId : String) (verb : Verb) (mail : Mail)
  (mailbox : MailboxAccount) (fate : Fate)

/-- An endpoint is reached, it reads the thread, and its answer arrives. -/
structure Heard (provider : Provider) (a : Account) (turn : Turn) : Prop where
  signedIn : turn.signedIn = true
  read : (getThread provider a turn threadId).isSome = true
  delivered : turn.delivered = true

/-- The lane answers yes. -/
def Answers : Prop :=
  match providerOf mailbox with
  | some provider =>
    let a := mail.connected provider (mailbox.ownerKey.getD "")
    truthy mailbox.ownerKey = true ∧ Heard threadId provider a fate.turn ∧
      (eligible provider a fate.turn verb threadId = [] ∨
        Undisturbed provider verb (eligible provider a fate.turn verb threadId) fate.turn)
  | none =>
    fate.exchange.answered = true ∧
      sovereignTouched configured (mail.engine mailbox.emailAddress) threadId verb fate.exchange ≠ []

/-- **Hollow.** An external lane answers yes without a message: Gmail has only drafts of the
thread, Microsoft has nothing of it that the verb may touch, or refuses every item. -/
def Hollow : Prop :=
  ∃ provider, providerOf mailbox = some provider ∧ truthy mailbox.ownerKey = true ∧
    let a := mail.connected provider (mailbox.ownerKey.getD "")
    Heard threadId provider a fate.turn ∧
      (eligible provider a fate.turn verb threadId = [] ∨
        Undisturbed provider verb (eligible provider a fate.turn verb threadId) fate.turn ∧
          provider = .microsoft ∧ RefusedAll (eligible provider a fate.turn verb threadId) fate.turn)

/-- **Torn.** A lane has touched messages, and then its answer is lost or a later request
raises. -/
def Torn : Prop :=
  match providerOf mailbox with
  | some provider =>
    let a := mail.connected provider (mailbox.ownerKey.getD "")
    truthy mailbox.ownerKey = true ∧ carried provider a fate.turn verb threadId ≠ [] ∧
      (fate.turn.delivered = false ∨
        ¬Undisturbed provider verb (eligible provider a fate.turn verb threadId) fate.turn)
  | none =>
    fate.exchange.answered = false ∧
      sovereignTouched configured (mail.engine mailbox.emailAddress) threadId verb fate.exchange ≠ []

end Lanes

/-- **The condition.** Up to the mailbox where the search stops none is torn, unless a later
one answers yes, and that one is not hollow, unless it holds the thread and an earlier one
is torn. -/
def Clean (configured : Bool) (threadId : String) (verb : Verb) (fates : String → Fate) :
    Prop → List MailboxAccount → Mail → Prop
  | torn, [], _ => ¬torn
  | torn, mailbox :: rest, mail =>
    (Hollow threadId verb mail mailbox (fates mailbox.id) →
      torn ∧ holds threadId mail mailbox = true) ∧
    (¬Answers configured threadId verb mail mailbox (fates mailbox.id) →
      Clean configured threadId verb fates
        (torn ∨ Torn configured threadId verb mail mailbox (fates mailbox.id)) rest
        (attempt configured threadId verb mail mailbox (fates mailbox.id)).mail)

/-! ### What an attempt does -/

section Attempt

variable {configured : Bool} {threadId : String} {verb : Verb} {mail : Mail}
  {mailbox : MailboxAccount} {fate : Fate}

@[simp] theorem threadId_rewriteOf (a : Jmap.Account) (m : Jmap.Email) :
    (rewriteOf a verb m).threadId = m.threadId := by
  unfold rewriteOf
  split <;> rfl

/-- The sovereign lane's verbs are one chain of requests. -/
theorem sovereignVerb_eq {a : Jmap.Account} {x : Jmap.Exchange} :
    sovereignVerb configured a threadId verb x =
      if reaches configured a verb x then Jmap.setThread a threadId x (rewriteOf a verb)
      else (a, false) := by
  -- A verb that moves needs a target.
  have hmove : ∀ folder, verb.folder? = some folder → (∀ value, verb ≠ .read value) →
      Jmap.moveThreadToFolder configured a threadId folder x =
        if reaches configured a verb x then Jmap.setThread a threadId x (rewriteOf a verb)
        else (a, false) := by
    intro folder hfolder hverb
    unfold Jmap.moveThreadToFolder reaches
    rw [hfolder]
    cases configured with
    | false => rfl
    | true =>
      cases htarget : Jmap.target? a folder x with
      | none => simp [htarget]
      | some target =>
        have hmailbox : a.mailboxFor folder = some target := Jmap.mailboxFor_of_target? htarget
        have hrewrite : rewriteOf a verb = Jmap.Email.moveTo target := by
          funext m
          unfold rewriteOf
          rw [hfolder, Option.bind_some, hmailbox]
          cases verb with
          | read value => exact absurd rfl (hverb value)
          | archive | trash | spam | inbox => rfl
        simp [htarget, hrewrite]
  -- Four verbs move, and one sets a keyword.
  cases verb with
  | archive => exact hmove .archive rfl nofun
  | trash => exact hmove .trash rfl nofun
  | spam => exact hmove .spam rfl nofun
  | inbox => exact hmove .inbox rfl nofun
  | read value =>
    have hrewrite : rewriteOf a (.read value) = Jmap.Email.setSeen value := rfl
    rw [hrewrite]
    cases configured <;> rfl

theorem sovereignVerb_snd {a : Jmap.Account} {x : Jmap.Exchange} :
    (sovereignVerb configured a threadId verb x).2 = true ↔
      x.answered = true ∧ sovereignTouched configured a threadId verb x ≠ [] := by
  rw [sovereignVerb_eq, sovereignTouched]
  split
  · exact Jmap.setThread_snd
  · simp

/-- **What a lane's answer is.** -/
theorem answer_attempt_iff :
    (attempt configured threadId verb mail mailbox fate).answer = true ↔
      Answers configured threadId verb mail mailbox fate := by
  unfold attempt Answers
  -- The lane is the provider's, or the engine's.
  cases providerOf mailbox with
  | some provider =>
    cases howner : truthy mailbox.ownerKey with
    | false => simp
    | true =>
      simp only [Bool.not_true, Bool.false_eq_true, if_false, true_and, answerOf,
        Bool.and_eq_true, ok_threadVerb_iff]
      constructor
      · rintro ⟨hdelivered, hsigned, hread, hquiet⟩
        exact ⟨⟨hsigned, hread, hdelivered⟩, hquiet⟩
      · rintro ⟨hheard, hquiet⟩
        exact ⟨hheard.delivered, hheard.signedIn, hheard.read, hquiet⟩
  | none => exact sovereignVerb_snd

/-- **A yes without a message** is that of a hollow lane. -/
theorem touched_eq_nil_of_answers (h : Answers configured threadId verb mail mailbox fate) :
    (attempt configured threadId verb mail mailbox fate).touched = [] ↔
      Hollow threadId verb mail mailbox fate := by
  unfold attempt Hollow
  unfold Answers at h
  cases hprovider : providerOf mailbox with
  | some provider =>
    rw [hprovider] at h
    obtain ⟨howner, hheard, hquiet⟩ := h
    simp only [howner, Bool.not_true, Bool.false_eq_true, if_false, List.map_eq_nil_iff,
      touched_eq_nil_iff, Option.some.injEq, exists_eq_left', true_and]
    rw [carried_eq_nil_iff hheard.signedIn hheard.read hquiet]
    constructor
    · -- Of a lane that answers, the messages were not eligible or all refused.
      rintro (hnil | ⟨hmicrosoft, hrefused⟩)
      · exact ⟨hheard, .inl hnil⟩
      · rcases hquiet with hnil | hquiet
        · exact ⟨hheard, .inl hnil⟩
        · exact ⟨hheard, .inr ⟨hquiet, hmicrosoft, hrefused⟩⟩
    · rintro ⟨-, hnil | ⟨-, hmicrosoft, hrefused⟩⟩
      · exact .inl hnil
      · exact .inr ⟨hmicrosoft, hrefused⟩
  | none =>
    rw [hprovider] at h
    simp [h.2]

/-- **Messages without a yes** are those of a torn lane. -/
theorem touched_ne_nil_of_not_answers
    (h : ¬Answers configured threadId verb mail mailbox fate) :
    (attempt configured threadId verb mail mailbox fate).touched ≠ [] ↔
      Torn configured threadId verb mail mailbox fate := by
  unfold attempt Torn
  unfold Answers at h
  cases hprovider : providerOf mailbox with
  | some provider =>
    rw [hprovider] at h
    cases howner : truthy mailbox.ownerKey with
    | false => simp
    | true =>
      simp only [Bool.not_true, Bool.false_eq_true, if_false, ne_eq, List.map_eq_nil_iff,
        touched_eq_nil_iff, true_and]
      refine ⟨fun hcarried => ⟨hcarried, ?_⟩, fun htorn => htorn.1⟩
      -- A verb that is carried out has signed in and has read the thread.
      by_contra hnot
      rw [not_or, Bool.not_eq_false, not_not] at hnot
      refine h ⟨howner, ⟨?_, ?_, hnot.1⟩, .inr hnot.2⟩
      · by_contra hsigned
        exact hcarried (by simp [carried, hsigned])
      · by_contra hread
        rw [Bool.not_eq_true, Option.isSome_eq_false_iff, Option.isNone_iff_eq_none] at hread
        exact hcarried (by simp [carried, hread])
  | none =>
    rw [hprovider] at h
    simp only [ne_eq, List.map_eq_nil_iff]
    constructor
    · -- The messages are touched, and the answer is what is missing.
      intro htouched
      refine ⟨?_, htouched⟩
      by_contra hanswered
      exact h ⟨by simpa using hanswered, htouched⟩
    · exact fun htorn => htorn.2

/-- Whoever is touched is held. -/
theorem holds_of_touched
    (h : (attempt configured threadId verb mail mailbox fate).touched ≠ []) :
    holds threadId mail mailbox = true := by
  unfold attempt at h
  unfold holds
  cases hprovider : providerOf mailbox with
  | some provider =>
    rw [hprovider] at h
    cases howner : truthy mailbox.ownerKey with
    | false => simp [howner] at h
    | true =>
      simp only [howner, Bool.not_true, Bool.false_eq_true, if_false, ne_eq,
        List.map_eq_nil_iff] at h
      -- A message that is touched is one of the thread.
      obtain ⟨m, hm⟩ := List.exists_mem_of_ne_nil _ h
      obtain ⟨⟨hmem, hthread⟩, -⟩ := mem_touched.mp hm
      simp only [Bool.true_and, List.any_eq_true, decide_eq_true_eq]
      exact ⟨m, hmem, hthread⟩
  | none =>
    rw [hprovider] at h
    simp only [ne_eq, List.map_eq_nil_iff, sovereignTouched] at h
    split at h
    · obtain ⟨m, hm⟩ := List.exists_mem_of_ne_nil _ h
      obtain ⟨-, ⟨hmem, hthread⟩, -⟩ := Jmap.mem_updated.mp hm
      simp only [List.any_eq_true, decide_eq_true_eq]
      exact ⟨m, hmem, hthread⟩
    · exact absurd rfl h

theorem answers_of_hollow (h : Hollow threadId verb mail mailbox fate) :
    Answers configured threadId verb mail mailbox fate := by
  obtain ⟨provider, hprovider, howner, hheard, hquiet⟩ := h
  unfold Answers
  rw [hprovider]
  exact ⟨howner, hheard, hquiet.imp_right And.left⟩

/-- What is held stays held: a verb leaves the messages in their threads. -/
theorem holds_attempt (other : MailboxAccount) :
    holds threadId (attempt configured threadId verb mail mailbox fate).mail other =
      holds threadId mail other := by
  -- A sovereign account is rewritten message by message.
  have hengine : ((sovereignVerb configured (mail.engine mailbox.emailAddress) threadId verb
        fate.exchange).1.emails.any (·.threadId = threadId)) =
      (mail.engine mailbox.emailAddress).emails.any (·.threadId = threadId) := by
    rw [Bool.eq_iff_iff]
    rw [sovereignVerb_eq]
    split
    · simp only [Jmap.emails_setThread, List.any_map, List.any_eq_true, Function.comp]
      refine exists_congr fun m => and_congr_right fun _ => ?_
      split
      · rw [threadId_rewriteOf]
      · rfl
    · rfl
  -- So is a connected one.
  have hconnected : ∀ (provider : Provider) (a : Account),
      ((a.triaged provider fate.turn verb threadId).messages.any (·.threadId = threadId)) =
        a.messages.any (·.threadId = threadId) := by
    intro provider a
    rw [Bool.eq_iff_iff]
    simp only [Account.triaged, List.any_map, List.any_eq_true, Function.comp]
    refine exists_congr fun m => and_congr_right fun _ => ?_
    split
    · rw [threadId_rewritten]
    · rfl
  unfold attempt
  cases providerOf mailbox with
  | some provider =>
    simp only
    split
    · rfl
    · unfold holds Mail.setConnected
      cases providerOf other with
      | none => rfl
      | some provider' =>
        simp only
        by_cases hprovider : provider' = provider
        · subst hprovider
          by_cases howner : other.ownerKey.getD "" = mailbox.ownerKey.getD ""
          · rw [howner, Function.update_self, Function.update_self, hconnected]
          · rw [Function.update_self, Function.update_of_ne howner]
        · rw [Function.update_of_ne hprovider]
  | none =>
    unfold holds Mail.setEngine
    cases providerOf other with
    | some provider' => rfl
    | none =>
      simp only
      by_cases haddress : other.emailAddress = mailbox.emailAddress
      · rw [haddress, Function.update_self, hengine]
      · rw [Function.update_of_ne haddress]

end Attempt

/-! ### When the search is truthful -/

section Search

variable {configured : Bool} {threadId : String} {verb : Verb} {fates : String → Fate}

/-- The step of the search: a mailbox that stops it, or is passed. The induction is on the
mailboxes, for a search before which something may have been touched. -/
private theorem clean_iff (torn : Prop) (mailboxes : List MailboxAccount) (mail : Mail) :
    Clean configured threadId verb fates torn mailboxes mail ↔
      ((search configured threadId verb fates mailboxes mail).answer = true ↔
        torn ∨ (search configured threadId verb fates mailboxes mail).touched ≠ []) ∧
      ∀ mailbox, (search configured threadId verb fates mailboxes mail).stoppedAt = some mailbox →
        holds threadId mail mailbox = true := by
  induction mailboxes generalizing torn mail with
  | nil => simp [Clean, search]
  | cons mailbox rest ih =>
    unfold Clean search
    rw [ih]
    by_cases hanswers : Answers configured threadId verb mail mailbox (fates mailbox.id)
    · -- The search stops here.
      have hanswer := answer_attempt_iff.mpr hanswers
      have hhollow := touched_eq_nil_of_answers hanswers
      simp only [hanswer, if_true, true_iff, hanswers, not_true, false_implies, and_true,
        Option.some.injEq, forall_eq', ne_eq, List.map_eq_nil_iff, hhollow]
      constructor
      · intro h
        by_cases hcase : Hollow threadId verb mail mailbox (fates mailbox.id)
        · exact ⟨.inl (h hcase).1, (h hcase).2⟩
        · exact ⟨.inr hcase, holds_of_touched fun hnil => hcase (hhollow.mp hnil)⟩
      · rintro ⟨htorn, hholds⟩ hcase
        exact ⟨htorn.resolve_right fun hnot => hnot hcase, hholds⟩
    · -- The search goes on, and remembers whether this lane was torn.
      have hanswer : (attempt configured threadId verb mail mailbox
          (fates mailbox.id)).answer = false := by
        rw [← Bool.not_eq_true, answer_attempt_iff]
        exact hanswers
      have htorn := touched_ne_nil_of_not_answers hanswers
      have hnothollow : ¬Hollow threadId verb mail mailbox (fates mailbox.id) :=
        fun h => hanswers (answers_of_hollow h)
      simp only [hanswer, Bool.false_eq_true, if_false, hanswers, not_false_eq_true, true_implies,
        hnothollow, false_implies, true_and, holds_attempt, ← htorn, ne_eq, List.append_eq_nil_iff,
        List.map_eq_nil_iff]
      tauto

/-- **When the search is truthful.** The search for a thread to move, or to mark read or
unread, says yes exactly when a message of it was really touched, and does not stop at a
mailbox that does not know it, if and only if it meets no hollow and no torn lane that
matters, `Clean`. -/
theorem truthful_iff (configured : Bool) (mailboxes : List MailboxAccount) (mail : Mail)
    (threadId : String) (fates : String → Fate) :
    (∀ disposition, Truthful threadId mail
        (moveThreadToFolderAcrossMailboxes configured mailboxes mail threadId disposition fates) ↔
      Clean configured threadId (verbOf disposition) fates False mailboxes mail) ∧
    ∀ read, Truthful threadId mail
        (setThreadReadAcrossMailboxes configured mailboxes mail threadId read fates) ↔
      Clean configured threadId (.read read) fates False mailboxes mail := by
  have hverb : ∀ verb, Truthful threadId mail (search configured threadId verb fates mailboxes mail)
      ↔ Clean configured threadId verb fates False mailboxes mail := by
    intro verb
    rw [clean_iff, false_or]
    constructor
    · -- The two say the same, field by field.
      intro h
      exact ⟨h.answer, h.stopped⟩
    · rintro ⟨hanswer, hstopped⟩
      exact ⟨hanswer, hstopped⟩
  exact ⟨fun disposition => hverb (verbOf disposition), fun read => hverb (.read read)⟩

end Search

/-! ### A thread that is reported moved -/

/-- A Microsoft mailbox that is listed first, and a mailbox of the engine. -/
def microsoftMailbox : MailboxAccount :=
  ⟨"outlook", "acme", "ada@outlook.com".toList, none, false, true, false, "microsoft", .human,
    some "ada"⟩

def engineMailbox : MailboxAccount :=
  ⟨"own", "acme", "ada@acme.com".toList, none, true, true, false, "stalwart", .human, some "ada"⟩

/-- A message of the engine's mailbox, in its Inbox. -/
def waitingEmail : Jmap.Email :=
  ⟨"e1", "t1", {"in"}, false, false, false, false, none, [], 1, none, false⟩

/-- The engine holds the thread, and the Microsoft account is empty. -/
def engineOnly : Mail where
  engine _ := ⟨[⟨"in", some "inbox"⟩, ⟨"ar", some "archive"⟩], [waitingEmail]⟩
  connected _ _ := ⟨"ada@outlook.com".toList, []⟩

/-- Nothing fails. -/
def smoothFate : Fate where
  exchange := .smooth
  turn := ⟨true, true, true, none, fun _ => none, fun _ => .answered 200 fun _ => 200,
    fun _ _ => false, true⟩

/-- **The thread is in the engine's mailbox, and stays there unmoved**: the Microsoft mailbox
before it says yes to a conversation it does not know. -/
theorem foreign_thread_is_reported_moved :
    holds "t1" engineOnly engineMailbox = true ∧ holds "t1" engineOnly microsoftMailbox = false ∧
      ¬Truthful "t1" engineOnly (moveThreadToFolderAcrossMailboxes true
        [microsoftMailbox, engineMailbox] engineOnly "t1" .archive fun _ => smoothFate) := by
  refine ⟨by decide, by decide, fun h => ?_⟩
  have hanswer : (moveThreadToFolderAcrossMailboxes true [microsoftMailbox, engineMailbox]
      engineOnly "t1" .archive fun _ => smoothFate).answer = true := by decide
  exact h.answer.mp hanswer (by decide)

end Triage
end EmailOps
