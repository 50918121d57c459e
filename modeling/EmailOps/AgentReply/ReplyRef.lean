import Mathlib.Data.List.Nodup
import EmailOps.AgentReply.Runtime
import EmailOps.Email.ComposeWhole

/-!
# Which messages a reply reference tells apart

The reply to a message is composed under a reference made of the mailbox, the thread and the
time of receipt, and compose answers a request under a recorded reference with the record. So
a message gets a reply of its own exactly if no other message of the workspace has the same
reference.

* `WorkspaceMail` is the mail of a workspace, with an identity for each message that the
  reference does not use.
* `externalRef_eq_iff` says when two messages have one reference, and
  `composePlan_of_replied` what becomes of the second reply then.
* `told_apart_iff` says of which mail the references are as good as the messages: that in
  which no two messages of a thread were received at one time.
-/

namespace EmailOps
namespace AgentReply

open Framework

/-! ### Messages -/

/-- A message that arrived at a mailbox. The id of a mailbox is a UUID and that of a thread a
JMAP id, so that neither has a colon. -/
structure InboundMail where
  mailbox : AgentReplyMailboxRef
  /-- The id of the message within its mailbox. -/
  emailId : String
  msg : AgentReplyInboundMsg
  mailbox_id : ':' ∉ mailbox.id.toList
  thread_id : ':' ∉ msg.threadId.toList

/-- What identifies a message. -/
def InboundMail.key (m : InboundMail) : String × String :=
  (m.mailbox.id, m.emailId)

/-- The mail of a workspace. -/
structure WorkspaceMail where
  mails : List InboundMail
  nodup : (mails.map InboundMail.key).Nodup

/-- The idempotency key of the reply to a message. -/
def replyTriple (workspaceId : String) (m : InboundMail) : Triple :=
  (workspaceId, agentReplyRuntimeSource, externalRef m.mailbox m.msg)

/-- Two messages of one thread of one mailbox, received at one time. A time that is not known
stands for the same time everywhere. -/
def SameStamp (m m' : InboundMail) : Prop :=
  m.mailbox.id = m'.mailbox.id ∧ m.msg.threadId = m'.msg.threadId ∧
    m.msg.receivedAt.getD "na" = m'.msg.receivedAt.getD "na"

/-! ### References -/

theorem takeWhile_join {s t : List Char} (h : ':' ∉ s) :
    (s ++ ':' :: t).takeWhile (· ≠ ':') = s := by
  have hs : ∀ c ∈ s, decide (c ≠ ':') = true := fun c hc =>
    decide_eq_true fun h' => h (h' ▸ hc)
  rw [List.takeWhile_append_of_pos hs]
  simp

theorem join_eq_iff {s s' t t' : String} (h : ':' ∉ s.toList) (h' : ':' ∉ s'.toList) :
    s ++ ":" ++ t = s' ++ ":" ++ t' ↔ s = s' ∧ t = t' := by
  constructor
  · intro heq
    have hlist : s.toList ++ ':' :: t.toList = s'.toList ++ ':' :: t'.toList := by
      simpa [String.toList_append, List.append_assoc] using congrArg String.toList heq
    have hs : s.toList = s'.toList := by
      calc s.toList = (s.toList ++ ':' :: t.toList).takeWhile (· ≠ ':') := (takeWhile_join h).symm
        _ = (s'.toList ++ ':' :: t'.toList).takeWhile (· ≠ ':') := by rw [hlist]
        _ = s'.toList := takeWhile_join h'
    rw [hs, List.append_cancel_left_eq, List.cons.injEq] at hlist
    exact ⟨String.toList_inj.mp hs, String.toList_inj.mp hlist.2⟩
  · rintro ⟨rfl, rfl⟩
    rfl

/-- **When two messages have one reference**: mailbox, thread and time are the same. -/
theorem externalRef_eq_iff (m m' : InboundMail) :
    externalRef m.mailbox m.msg = externalRef m'.mailbox m'.msg ↔ SameStamp m m' := by
  -- the mailbox ends at the first colon, and the thread at the next
  have hassoc (m : InboundMail) : externalRef m.mailbox m.msg =
      m.mailbox.id ++ ":" ++ (m.msg.threadId ++ ":" ++ m.msg.receivedAt.getD "na") := by
    simp only [externalRef, String.append_assoc]
  rw [hassoc, hassoc, join_eq_iff m.mailbox_id m'.mailbox_id,
    join_eq_iff m.thread_id m'.thread_id]
  rfl

theorem replyTriple_eq_iff (workspaceId : String) (m m' : InboundMail) :
    replyTriple workspaceId m = replyTriple workspaceId m' ↔ SameStamp m m' := by
  simp [replyTriple, externalRef_eq_iff]

theorem triple_input (workspaceId : String) (m : InboundMail) (gate : Gate) (texts : ReplyTexts) :
    ((Reply.mk workspaceId m.mailbox m.msg gate).input texts).triple workspaceId =
      replyTriple workspaceId m := rfl

/-- **A reply is suppressed by that to another message of the same stamp**: compose answers
with the row of the other reply. -/
theorem composePlan_of_replied [CaseMapping] {env : Env} {db : Db} {lookupsFail : Bool}
    {workspaceId : String} {ucUid : Option String} {ids : NewIds} {m m' : InboundMail}
    {row : EmailMessage} (hrow : findByTriple db.messages (replyTriple workspaceId m) = some row)
    (h : SameStamp m m') (gate : Gate) (texts : ReplyTexts) :
    composePlan env db lookupsFail workspaceId ucUid
      ((Reply.mk workspaceId m'.mailbox m'.msg gate).input texts) ids =
        .ok (.done (composeView row)) := by
  -- the second reply comes under a reference that is recorded
  apply Compose.composePlan_recorded
  rw [triple_input, ← (replyTriple_eq_iff workspaceId m m').mpr h]
  exact hrow

/-! ### Telling messages apart -/

/-- Two messages of the mail have one idempotency key exactly if they are the same. -/
def ToldApart (workspaceId : String) (mail : WorkspaceMail) : Prop :=
  ∀ m ∈ mail.mails, ∀ m' ∈ mail.mails,
    replyTriple workspaceId m = replyTriple workspaceId m' ↔ m.key = m'.key

/-- **Which mail is told apart**: that in which no two messages of one thread of one mailbox
were received at one time. -/
theorem told_apart_iff (workspaceId : String) (mail : WorkspaceMail) :
    ToldApart workspaceId mail ↔
      ∀ m ∈ mail.mails, ∀ m' ∈ mail.mails, m.key ≠ m'.key → ¬ SameStamp m m' := by
  constructor
  · intro h m hm m' hm' hne hstamp
    exact hne ((h m hm m' hm').mp ((replyTriple_eq_iff workspaceId m m').mpr hstamp))
  · intro h m hm m' hm'
    constructor
    · intro heq
      by_contra hne
      exact h m hm m' hm' hne ((replyTriple_eq_iff workspaceId m m').mp heq)
    · -- the key of a message says which message it is
      intro hkey
      rw [List.inj_on_of_nodup_map mail.nodup hm hm' hkey]

/-! ### Two messages of one second -/

/-- A message of thread `t1`, received within the second. -/
def mailOfThread (emailId : String) (sender : String) : InboundMail where
  mailbox := ⟨"mb-1", "perry@acme.test".toList, "ws"⟩
  emailId := emailId
  msg :=
    { threadId := "t1"
      fromAddress := some sender.toList
      subject := none
      receivedAt := some "2026-07-18T00:00:00Z" }
  mailbox_id := show ':' ∉ "mb-1".toList by decide
  thread_id := show ':' ∉ "t1".toList by decide

theorem key_mailOfThread (emailId sender : String) :
    (mailOfThread emailId sender).key = ("mb-1", emailId) := rfl

theorem sameStamp_mailOfThread (emailId sender emailId' sender' : String) :
    SameStamp (mailOfThread emailId sender) (mailOfThread emailId' sender') :=
  ⟨rfl, rfl, rfl⟩

/-- Two people write in a thread within one second. -/
def twoInASecond : WorkspaceMail where
  mails := [mailOfThread "m1" "ann@x.org", mailOfThread "m2" "bob@y.org"]
  nodup := by simp [key_mailOfThread]

/-- **They are not told apart.** -/
theorem not_told_apart_twoInASecond :
    (mailOfThread "m1" "ann@x.org").key ≠ (mailOfThread "m2" "bob@y.org").key ∧
      replyTriple "ws" (mailOfThread "m1" "ann@x.org") =
        replyTriple "ws" (mailOfThread "m2" "bob@y.org") ∧
      ¬ ToldApart "ws" twoInASecond := by
  have hne : (mailOfThread "m1" "ann@x.org").key ≠ (mailOfThread "m2" "bob@y.org").key := by
    simp [key_mailOfThread]
  have htriple : replyTriple "ws" (mailOfThread "m1" "ann@x.org") =
      replyTriple "ws" (mailOfThread "m2" "bob@y.org") :=
    (replyTriple_eq_iff "ws" _ _).mpr (sameStamp_mailOfThread _ _ _ _)
  have hm : mailOfThread "m1" "ann@x.org" ∈ twoInASecond.mails := List.mem_cons_self ..
  have hm' : mailOfThread "m2" "bob@y.org" ∈ twoInASecond.mails :=
    List.mem_cons_of_mem _ (List.mem_singleton_self _)
  exact ⟨hne, htriple, fun h => hne ((h _ hm _ hm').mp htriple)⟩

end AgentReply
end EmailOps
