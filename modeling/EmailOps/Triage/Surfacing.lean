import EmailOps.Triage.Visibility

/-!
# New mail and old dispositions

Mail arrives message by message, and the overlay has one row for a thread. A message that is
not spam is left in the Inbox by `classifyInbound`, which writes a row only when a policy
allows the sender. So the row of an earlier triage of the thread stays, and it decides
whether the new message is seen.

* `listed_inbox_iff`: a thread with a message in the Inbox is listed there exactly when its
  disposition is that.
* `new_mail_surfaces_iff`: new mail that is not spam surfaces exactly when the sender is
  allowed or the thread had not been triaged out of the Inbox.
* `answer_to_archived_thread_is_hidden` is a run in which it does not.
-/

namespace EmailOps
namespace Triage

open Framework Framework.Text

section Surfacing

variable {env : OverlayEnv} {desk desk' : Desk} {mailbox : MailboxAccount} {threadId : String}
  {locale : Locale} {finds : Text → Jmap.Email → Bool} {backends : Backends} {ucUid : Option String}

theorem visibleIn_inbox_iff (d : MessageDisposition) : visibleIn .inbox d = true ↔ d = .inbox := by
  cases d <;> decide

/-- **The row decides**, for a thread with a message in the Inbox. -/
theorem listed_inbox_iff (hmailbox : mailbox ∈ env.sovereign)
    (hfiles : Files (desk.mail.engine mailbox.emailAddress) .inbox threadId) :
    Listed locale finds env.tables backends env.workspaceId ucUid mailbox.id .inbox threadId desk ↔
      desk.dispositionOf env.workspaceId threadId = .inbox := by
  obtain ⟨hfound, hhandles⟩ := find_sovereign hmailbox
  rw [← visibleIn_inbox_iff]
  constructor
  · intro hlisted
    exact (visible_of_listed hfound hhandles hlisted).1
  · intro hvisible
    exact listed_of_files hfound hhandles hfiles hvisible

/-- A message that is delivered is in the folder, and the overlay stays. -/
theorem files_deliver {address : Text} {folder : MailFolder} {m : Jmap.Email}
    (hs : desk.deliver address folder m = some desk') :
    Files (desk'.mail.engine address) folder m.threadId ∧ desk'.overlay = desk.overlay := by
  obtain ⟨mailboxId, hfolder, rfl⟩ := deliver_eq_some hs
  refine ⟨?_, rfl⟩
  show Files (Function.update desk.mail.engine address _ address) folder m.threadId
  rw [Function.update_self]
  have hlast : m.moveTo mailboxId ∈ (desk.mail.engine address).emails ++ [m.moveTo mailboxId] :=
    List.mem_append_right _ List.mem_cons_self
  exact ⟨_, hlast, rfl, inFolder_moveTo hfolder _ m⟩

/-- **What becomes of a message that is not spam**: a row for a sender who is allowed, and
nothing for the others. -/
theorem classifyInbound_of_not_spam {policy : Option SenderPolicyKind} {workspaceId : String}
    {isConfigured : Bool} {verdict : Option SpamVerdict} {stored : Bool} {result : ClassifyResult}
    (hresult : (classifyInbound policy workspaceId threadId isConfigured verdict stored desk).2 =
      some result) (hclean : result.spamVerdict ≠ some .spam) :
    (policy = some .allow ∧
      (classifyInbound policy workspaceId threadId isConfigured verdict stored desk).1 =
        desk.applyDisposition workspaceId threadId .inbox) ∨
    (policy = none ∧
      (classifyInbound policy workspaceId threadId isConfigured verdict stored desk).1 = desk) := by
  cases policy with
  | none =>
    right
    refine ⟨rfl, ?_⟩
    rcases verdict with _ | _ | _ | _
    · rfl
    · rfl
    · -- A verdict of spam is either lost or told.
      cases stored with
      | false => cases hresult
      | true =>
        obtain rfl := Option.some.inj hresult
        exact absurd rfl hclean
    · rfl
  | some kind =>
    -- A row that is not written leaves no result.
    cases stored with
    | false => cases kind <;> cases hresult
    | true =>
      cases kind with
      | allow => exact .inl ⟨rfl, rfl⟩
      | block =>
        obtain rfl := Option.some.inj hresult
        exact absurd rfl hclean

/-- The disposition after a message that is not spam. -/
theorem dispositionOf_classifyInbound {policy : Option SenderPolicyKind} {workspaceId : String}
    {isConfigured : Bool} {verdict : Option SpamVerdict} {stored : Bool} {result : ClassifyResult}
    (hresult : (classifyInbound policy workspaceId threadId isConfigured verdict stored desk).2 =
      some result) (hclean : result.spamVerdict ≠ some .spam) :
    (classifyInbound policy workspaceId threadId isConfigured verdict stored desk).1.dispositionOf
        workspaceId threadId = .inbox ↔
      policy = some .allow ∨ desk.dispositionOf workspaceId threadId = .inbox := by
  obtain ⟨rfl, hwritten⟩ | ⟨rfl, hsame⟩ := classifyInbound_of_not_spam hresult hclean
  · rw [hwritten]
    unfold Desk.applyDisposition
    rw [dispositionOf_upsert, if_pos ⟨rfl, rfl⟩]
    simp
  · rw [hsame]
    simp

theorem mail_classifyInbound (policy : Option SenderPolicyKind) (workspaceId threadId : String)
    (isConfigured : Bool) (verdict : Option SpamVerdict) (stored : Bool) (desk : Desk) :
    (classifyInbound policy workspaceId threadId isConfigured verdict stored desk).1.mail =
      desk.mail := by
  rw [classifyInbound_fst]
  split
  · split
    · rfl
    · rfl
  · rfl

end Surfacing

/-- **When new mail surfaces.** A message arrives in the Inbox of a sovereign mailbox and is
classified, and it is not spam. Whatever has happened before, its thread is then listed in
the Inbox exactly when a policy allows the sender or the disposition of the thread was the
Inbox already. -/
theorem new_mail_surfaces_iff [CaseMapping] (env : OverlayEnv) {desk desk₁ desk₂ : Desk}
    {mailbox : MailboxAccount} (hmailbox : mailbox ∈ env.sovereign) {m : Jmap.Email}
    (harrive : overlayStep env desk (.arrive mailbox.emailAddress m) = some desk₁)
    (policies : List SenderPolicy) (fromAddress : Option Text) (verdict : Option SpamVerdict)
    (stored : Bool) (hclassify : overlayStep env desk₁
      (.classify policies m.threadId fromAddress verdict stored) = some desk₂)
    {result : ClassifyResult}
    (hresult : (classifyInbound (evaluate policies env.workspaceId fromAddress) env.workspaceId
      m.threadId env.spamConfigured verdict stored desk₁).2 = some result)
    (hclean : result.spamVerdict ≠ some .spam) (locale : Locale)
    (finds : Text → Jmap.Email → Bool) (backends : Backends) (ucUid : Option String) :
    Listed locale finds env.tables backends env.workspaceId ucUid mailbox.id .inbox m.threadId desk₂ ↔
      evaluate policies env.workspaceId fromAddress = some .allow ∨
        desk.dispositionOf env.workspaceId m.threadId = .inbox := by
  obtain ⟨-, hdeliver⟩ := Option.ite_none_right_eq_some.mp harrive
  obtain ⟨hfiles, hoverlay⟩ := files_deliver hdeliver
  have hdisposition : desk₁.dispositionOf env.workspaceId m.threadId =
      desk.dispositionOf env.workspaceId m.threadId := by
    unfold Desk.dispositionOf
    rw [hoverlay]
  have hmail : desk₂.mail = desk₁.mail := by
    rw [← Option.some.inj hclassify]
    exact mail_classifyInbound _ _ _ _ _ _ _
  rw [← hmail] at hfiles
  rw [listed_inbox_iff hmailbox hfiles, ← hdisposition, ← Option.some.inj hclassify]
  exact dispositionOf_classifyInbound hresult hclean

/-- An answer in Ada's thread. -/
def answerEmail : Jmap.Email := { waitingEmail with id := "e2", receivedAt := 2 }

/-- The desk after the answer. -/
def answered (desk : Desk) : Desk :=
  let a := desk.mail.engine engineMailbox.emailAddress
  desk.setEngine engineMailbox.emailAddress { a with emails := a.emails ++ [answerEmail] }

/-- In a thread that nobody has triaged, the answer surfaces. -/
theorem new_mail_surfaces_iff_untriaged :
    overlayStep adasEnv arrivedDesk (.arrive engineMailbox.emailAddress answerEmail) =
        some (answered arrivedDesk) ∧
      overlayStep adasEnv (answered arrivedDesk) (.classify [] "t1" none none true) =
        some (answered arrivedDesk) ∧
      ∀ locale finds backends ucUid, Listed locale finds adasEnv.tables backends "acme" ucUid
        engineMailbox.id .inbox "t1" (answered arrivedDesk) := by
  have harrive : overlayStep adasEnv arrivedDesk
      (.arrive engineMailbox.emailAddress answerEmail) = some (answered arrivedDesk) := rfl
  have hclassify : overlayStep adasEnv (answered arrivedDesk) (.classify [] "t1" none none true) =
      some (answered arrivedDesk) := rfl
  have huntriaged : arrivedDesk.dispositionOf "acme" "t1" = .inbox := by decide
  refine ⟨harrive, hclassify, fun locale finds backends ucUid => ?_⟩
  exact (new_mail_surfaces_iff adasEnv engineMailbox_sovereign harrive [] none none true hclassify rfl nofun locale
    finds backends ucUid).mpr (.inr huntriaged)

/-- Ada archives her thread in the mail client. -/
def archivedDesk : Desk :=
  (applyThreadDisposition true adasTables "acme" (some "ada") "t1" .archive none true
    (fun _ => smoothFate) arrivedDesk).1

/-- **An answer that nobody sees.** The answer to a thread that Ada has archived arrives in
the Inbox, and no engine says that it is spam. Its disposition is said to be the Inbox, and
the Inbox does not list it. -/
theorem answer_to_archived_thread_is_hidden :
    (overlaySystem adasEnv).Reachable archivedDesk ∧
      overlayStep adasEnv archivedDesk (.arrive engineMailbox.emailAddress answerEmail) =
        some (answered archivedDesk) ∧
      classifyInbound (evaluate [] "acme" none) "acme" "t1" false none true
          (answered archivedDesk) =
        (answered archivedDesk, some ⟨"t1", .inbox, none, .engineDormant⟩) ∧
      ∀ locale finds backends ucUid, ¬Listed locale finds adasEnv.tables backends "acme" ucUid
        engineMailbox.id .inbox "t1" (answered archivedDesk) := by
  have harchived : (overlaySystem adasEnv).step arrivedDesk
      (.dispose (some "ada") "t1" .archive none true fun _ => smoothFate) = some archivedDesk := rfl
  refine ⟨arrivedDesk_reachable.reachable.step harchived, rfl, rfl, ?_⟩
  intro locale finds backends ucUid hlisted
  obtain ⟨hfound, hhandles⟩ := find_sovereign engineMailbox_sovereign
  -- The row of the archiving is still there.
  have hvisible := (visible_of_listed hfound hhandles hlisted).1
  exact absurd hvisible (by decide)

end Triage
end EmailOps
