import EmailOps.Triage.Places

/-!
# No invisible thread

A thread of a sovereign mailbox is listed somewhere as long as it is in sight. The mail
client's endpoints move a thread and write its disposition; every other operation changes
one of the two and leaves the other as it is.

* `Careful` is the condition on an operation: a disposition is written where a message is or
  comes to be, and messages leave the folder of their disposition only when something else
  of the thread stays there.
* `AllShown` is the invariant, and `AllShown.step` keeps it.
* `no_thread_is_invisible`: in a run of careful operations every thread is listed in some
  folder.
* `one_place_is_not_enough`: after a rule has archived a thread, a snooze, the tool of an
  agent or a verdict of spam, it is listed nowhere.
-/

namespace EmailOps
namespace Triage

open Framework Framework.Text

section Careful

variable [CaseMapping] (env : OverlayEnv) (desk : Desk)

/-- All threads of the sovereign mailboxes are in sight. -/
def AllShown : Prop :=
  ∀ mailbox ∈ env.sovereign,
    InSight (desk.mail.engine mailbox.emailAddress) (desk.dispositionOf env.workspaceId)

/-- The disposition fits the folders of the thread, in every mailbox that has it. -/
def Fits (threadId : String) (d : MessageDisposition) : Prop :=
  ∀ mailbox ∈ env.sovereign, Placed (desk.mail.engine mailbox.emailAddress) threadId →
    Shown (desk.mail.engine mailbox.emailAddress) d threadId

/-- The call is harmless to the thread, in the mailbox of the address. -/
def Spares (address : Text) (threadId : String) (call : ThreadCall) (x : Jmap.Exchange) : Prop :=
  ∀ mailbox ∈ env.sovereign, mailbox.emailAddress = address →
    Harmless call (desk.mail.engine address) threadId x (desk.dispositionOf env.workspaceId threadId)

/-- The disposition that `classifyInbound` writes, if it writes one. -/
def writtenBy (policy : Option SenderPolicyKind) (verdict : Option SpamVerdict) :
    Option MessageDisposition :=
  match policy, verdict with
  | some .allow, _ => some .inbox
  | some .block, _ => some .spam
  | none, some .spam => some .spam
  | none, _ => none

/-- Does the endpoint move a message of the thread in this mailbox? -/
def MovesIn (mailbox : MailboxAccount) (ucUid : Option String) (threadId : String)
    (d : MessageDisposition) (fates : String → Fate) : Prop :=
  ∃ id, (mailbox.id, id) ∈ (moveThreadToFolderAcrossMailboxes true
    (readableMailboxes env.tables env.workspaceId ucUid) desk.mail threadId d fates).touched

/-- **A careful operation.** A message arrives in a thread that is listed in the Inbox, or
that another message shows. A row that is written without a move names a folder the thread
has a message in. A call without a row is harmless to the thread, and the emptying of a
folder to all threads. -/
def Careful : OverlayLabel → Prop
  | .arrive address m =>
    let d := desk.dispositionOf env.workspaceId m.threadId
    ∀ mailbox ∈ env.sovereign, mailbox.emailAddress = address →
      d = .inbox ∨ Shown (desk.mail.engine address) d m.threadId
  | .file _ _ _ => True
  | .classify policies threadId fromAddress verdict stored =>
    stored = true → ∀ d,
      writtenBy (evaluate policies env.workspaceId fromAddress) verdict = some d →
        Fits env desk threadId d
  | .dispose ucUid threadId d _ stored fates =>
    ∀ mailbox ∈ env.sovereign,
      if stored then
        MovesIn env desk mailbox ucUid threadId d fates ∨
          (Placed (desk.mail.engine mailbox.emailAddress) threadId →
            Shown (desk.mail.engine mailbox.emailAddress) d threadId)
      else
        MovesIn env desk mailbox ucUid threadId d fates →
          Harmless (.toFolder (dispositionFolder d)) (desk.mail.engine mailbox.emailAddress) threadId
            (fates mailbox.id).exchange (desk.dispositionOf env.workspaceId threadId)
  | .setDisposition _ threadId d _ stored => stored = true → Fits env desk threadId d
  | .rule address threadId call x => Spares env desk address threadId (.ofRule call) x
  | .snooze address threadId x => Spares env desk address threadId (.toFolder .archive) x
  | .unsnooze address threadId x => Spares env desk address threadId (.toFolder .inbox) x
  | .moveToCustomFolder address threadId mailboxId x =>
    Spares env desk address threadId (.toMailbox mailboxId) x
  | .emptyFolder address folder _ _ =>
    ∀ mailbox ∈ env.sovereign, mailbox.emailAddress = address →
      Emptiable (desk.mail.engine address) folder (desk.dispositionOf env.workspaceId)

end Careful

/-! ### What keeps the threads in sight -/

section Kept

variable {env : OverlayEnv} {desk : Desk}

/-- An account is put in place whose threads are in sight. -/
theorem AllShown.setEngine (h : AllShown env desk) {address : Text} {a : Jmap.Account}
    (ha : ∀ mailbox ∈ env.sovereign, mailbox.emailAddress = address →
      InSight a (desk.dispositionOf env.workspaceId)) :
    AllShown env (desk.setEngine address a) := by
  intro mailbox hmailbox
  show InSight (Function.update desk.mail.engine address a mailbox.emailAddress) _
  by_cases heq : mailbox.emailAddress = address
  · rw [heq, Function.update_self]
    exact ha mailbox hmailbox heq
  · rw [Function.update_of_ne heq]
    exact h mailbox hmailbox

/-- A row is written that fits the folders of its thread. -/
theorem AllShown.write (h : AllShown env desk) {row : DispositionRow}
    (hfits : Fits env desk row.threadId row.disposition) :
    AllShown env { desk with overlay := upsert row desk.overlay } := by
  intro mailbox hmailbox threadId hplaced
  rw [dispositionOf_upsert]
  split
  · next hrow =>
    rw [← hrow.2] at hplaced ⊢
    exact hfits mailbox hmailbox hplaced
  · exact h mailbox hmailbox threadId hplaced

theorem AllShown.call (h : AllShown env desk) {address : Text} {threadId : String}
    {call : ThreadCall} {x : Jmap.Exchange} (hspares : Spares env desk address threadId call x) :
    AllShown env (desk.call address threadId call x) := by
  refine h.setEngine fun mailbox hmailbox heq => ?_
  have hsight := h mailbox hmailbox
  rw [heq] at hsight
  exact hsight.run (hspares mailbox hmailbox heq)

/-- A message is delivered. -/
theorem AllShown.deliver (h : AllShown env desk) {desk' : Desk} {address : Text}
    {folder : MailFolder} {m : Jmap.Email} (hs : desk.deliver address folder m = some desk')
    (hm : ∀ mailbox ∈ env.sovereign, mailbox.emailAddress = address →
      visibleIn folder (desk.dispositionOf env.workspaceId m.threadId) = true ∨
        Shown (desk.mail.engine address) (desk.dispositionOf env.workspaceId m.threadId)
          m.threadId) :
    AllShown env desk' := by
  obtain ⟨mailboxId, hfolder, rfl⟩ := deliver_eq_some hs
  refine h.setEngine fun mailbox hmailbox heq => ?_
  have hsight := h mailbox hmailbox
  rw [heq] at hsight
  exact hsight.deliver hfolder m (hm mailbox hmailbox heq)

/-- `classifyInbound` writes the disposition that it comes to, or nothing. -/
theorem classifyInbound_fst (policy : Option SenderPolicyKind) (workspaceId threadId : String)
    (isConfigured : Bool) (verdict : Option SpamVerdict) (stored : Bool) (desk : Desk) :
    (classifyInbound policy workspaceId threadId isConfigured verdict stored desk).1 =
      match writtenBy policy verdict with
      | some d => if stored then desk.applyDisposition workspaceId threadId d else desk
      | none => desk := by
  unfold classifyInbound
  cases stored with
  | false => rcases policy with _ | _ | _ <;> rcases verdict with _ | _ | _ | _ <;> rfl
  | true => rcases policy with _ | _ | _ <;> rcases verdict with _ | _ | _ | _ <;> rfl

/-- A sovereign mailbox is found by its id, and is not external. -/
theorem find_sovereign {mailbox : MailboxAccount} (h : mailbox ∈ env.sovereign) :
    findMailbox env.tables.settings env.workspaceId mailbox.id = some mailbox ∧
      EngineMailProvider.handles mailbox.provider = false := by
  obtain ⟨hmem, hguard⟩ := List.mem_filter.mp h
  rw [Bool.and_eq_true, decide_eq_true_eq, Bool.not_eq_true'] at hguard
  refine ⟨?_, hguard.2⟩
  unfold findMailbox
  cases hfound : env.tables.settings.mailboxes.find? fun m =>
      decide (m.id = mailbox.id) && decide (m.workspaceId = env.workspaceId) with
  | none =>
    have hnot := List.find?_eq_none.mp hfound mailbox hmem
    rw [decide_eq_true rfl, decide_eq_true hguard.1] at hnot
    exact absurd rfl hnot
  | some other =>
    have hsame := List.find?_some hfound
    rw [Bool.and_eq_true, decide_eq_true_eq] at hsame
    rw [List.inj_on_of_nodup_map env.tables.mailbox_ids (List.mem_of_find?_eq_some hfound) hmem
      hsame.1]

theorem providerOf_sovereign {mailbox : MailboxAccount} (h : mailbox ∈ env.sovereign) :
    providerOf mailbox = none := by
  have hhandles := (find_sovereign h).2
  unfold EngineMailProvider.handles at hhandles
  rw [Bool.or_eq_false_iff, decide_eq_false_iff_not, decide_eq_false_iff_not] at hhandles
  unfold providerOf
  rw [if_neg hhandles.1, if_neg hhandles.2]

theorem sovereignVerb_verbOf (a : Jmap.Account) (threadId : String) (d : MessageDisposition)
    (x : Jmap.Exchange) :
    (sovereignVerb true a threadId (verbOf d) x).1 =
        ThreadCall.run (.toFolder (dispositionFolder d)) a threadId x ∧
      sovereignTouched true a threadId (verbOf d) x =
        ThreadCall.moved (.toFolder (dispositionFolder d)) a threadId x := by
  cases d <;> exact ⟨rfl, rfl⟩

/-- **What the endpoint does to a sovereign mailbox**: nothing, or the call that moves the
thread. -/
theorem engine_dispose {mailbox : MailboxAccount} (h : mailbox ∈ env.sovereign)
    (ucUid : Option String) (threadId : String) (d : MessageDisposition) (fates : String → Fate) :
    let mail := (moveThreadToFolderAcrossMailboxes true
      (readableMailboxes env.tables env.workspaceId ucUid) desk.mail threadId d fates).mail
    let a := desk.mail.engine mailbox.emailAddress
    let call := ThreadCall.toFolder (dispositionFolder d)
    let x := (fates mailbox.id).exchange
    (mail.engine mailbox.emailAddress = a ∧ ¬MovesIn env desk mailbox ucUid threadId d fates) ∨
    (mail.engine mailbox.emailAddress = call.run a threadId x ∧
      (MovesIn env desk mailbox ucUid threadId d fates ↔ call.moved a threadId x ≠ [])) := by
  obtain ⟨hmem, hguard⟩ := List.mem_filter.mp h
  rw [Bool.and_eq_true, decide_eq_true_eq] at hguard
  have hreadable : ∀ other ∈ readableMailboxes env.tables env.workspaceId ucUid,
      other ∈ env.tables.settings.mailboxes ∧ other.workspaceId = env.workspaceId := by
    intro other hother
    obtain ⟨hin, hthis⟩ := List.mem_filter.mp hother
    rw [Bool.and_eq_true, Bool.and_eq_true, decide_eq_true_eq] at hthis
    exact ⟨hin, hthis.1.1⟩
  have hnodup : (readableMailboxes env.tables env.workspaceId ucUid).Nodup :=
    (List.Nodup.of_map _ env.tables.mailbox_ids).filter _
  obtain ⟨hsame, hnone⟩ | ⟨hrun, htouched⟩ := @engine_search true threadId (verbOf d) desk.mail
    mailbox fates (readableMailboxes env.tables env.workspaceId ucUid) (providerOf_sovereign h)
    hnodup (fun other hother haddress =>
      List.inj_on_of_nodup_map env.tables.addresses (hreadable other hother).1 hmem
        (Prod.ext ((hreadable other hother).2.trans hguard.1.symm) haddress))
    (fun other hother hid =>
      List.inj_on_of_nodup_map env.tables.mailbox_ids (hreadable other hother).1 hmem hid)
  · exact .inl ⟨hsame, fun ⟨id, hid⟩ => hnone id hid⟩
  · rw [(sovereignVerb_verbOf _ _ _ _).1] at hrun
    rw [(sovereignVerb_verbOf _ _ _ _).2] at htouched
    refine .inr ⟨hrun, ?_⟩
    constructor
    · rintro ⟨id, hid⟩ hnil
      have hmoved := (htouched id).mp hid
      rw [hnil] at hmoved
      cases hmoved
    · intro hmoved
      obtain ⟨m, hm⟩ := List.exists_mem_of_ne_nil _ hmoved
      exact ⟨m.id, (htouched m.id).mpr (List.mem_map_of_mem hm)⟩

/-- The threads of an account stay in sight when one of them is given a disposition, and is
moved to its folder. -/
theorem inSight_move {a : Jmap.Account} {disposition disposition' : String → MessageDisposition}
    (h : InSight a disposition) {threadId : String} {d : MessageDisposition} {x : Jmap.Exchange}
    (hothers : ∀ other, other ≠ threadId → disposition' other = disposition other)
    (hstill : ThreadCall.moved (.toFolder (dispositionFolder d)) a threadId x = [] →
      Placed a threadId → Shown a (disposition' threadId) threadId)
    (hwritten : disposition' threadId = d) :
    InSight (ThreadCall.run (.toFolder (dispositionFolder d)) a threadId x) disposition' := by
  intro other hplaced
  by_cases hother : other = threadId
  · subst hother
    by_cases hnone : ThreadCall.moved (.toFolder (dispositionFolder d)) a other x = []
    · exact shown_run (hstill hnone) (fun _ => .inl hnone) hplaced
    · -- What is moved is in the folder of the disposition.
      obtain ⟨m, hm⟩ := List.exists_mem_of_ne_nil _ hnone
      have hisSome : (Jmap.target? a (dispositionFolder d) x).isSome = true := by
        by_contra hnot
        exact List.ne_nil_of_mem hm (if_neg hnot)
      obtain ⟨target, htarget⟩ := Option.isSome_iff_exists.mp hisSome
      rw [hwritten]
      exact shown_of_moved hm htarget (visibleIn_dispositionFolder d)
        (Jmap.mailboxFor_of_target? htarget)
  · rw [hothers other hother]
    exact shown_run (h other) (fun heq => absurd heq hother) hplaced

/-- A thread is disposed of by the endpoint. -/
theorem AllShown.dispose (h : AllShown env desk) {ucUid : Option String} {threadId : String}
    {d : MessageDisposition} {agentKey : Option String} {stored : Bool} {fates : String → Fate}
    [CaseMapping] (hc : Careful env desk (.dispose ucUid threadId d agentKey stored fates)) :
    AllShown env (applyThreadDisposition true env.tables env.workspaceId ucUid threadId d agentKey
      stored fates desk).1 := by
  intro mailbox hmailbox
  have hcareful := hc mailbox hmailbox
  have hsight := h mailbox hmailbox
  let moved := moveThreadToFolderAcrossMailboxes true
    (readableMailboxes env.tables env.workspaceId ucUid) desk.mail threadId d fates
  cases stored with
  | false =>
    rw [if_neg (by decide)] at hcareful
    show InSight (moved.mail.engine mailbox.emailAddress) (desk.dispositionOf env.workspaceId)
    obtain ⟨hengine, -⟩ | ⟨hengine, hmoves⟩ := engine_dispose hmailbox ucUid threadId d fates
    · rw [show moved.mail.engine mailbox.emailAddress = _ from hengine]
      exact hsight
    · rw [show moved.mail.engine mailbox.emailAddress = _ from hengine]
      refine hsight.run ?_
      by_cases hmoved : ThreadCall.moved (.toFolder (dispositionFolder d))
          (desk.mail.engine mailbox.emailAddress) threadId (fates mailbox.id).exchange = []
      · exact .inl hmoved
      · exact hcareful (hmoves.mpr hmoved)
  | true =>
    rw [if_pos rfl] at hcareful
    let row : DispositionRow := ⟨⟨env.workspaceId, threadId, d⟩, ucUid, agentKey⟩
    have hothers : ∀ other, other ≠ threadId →
        ({ desk with overlay := upsert row desk.overlay } : Desk).dispositionOf env.workspaceId
          other = desk.dispositionOf env.workspaceId other := by
      intro other hother
      rw [dispositionOf_upsert, if_neg fun hkeys => hother hkeys.2.symm]
    have hwritten : ({ desk with overlay := upsert row desk.overlay } : Desk).dispositionOf
        env.workspaceId threadId = d := by
      rw [dispositionOf_upsert, if_pos ⟨rfl, rfl⟩]
    show InSight (moved.mail.engine mailbox.emailAddress)
      (({ desk with overlay := upsert row desk.overlay } : Desk).dispositionOf env.workspaceId)
    obtain ⟨hengine, hnone⟩ | ⟨hengine, hmoves⟩ := engine_dispose hmailbox ucUid threadId d fates
    · rw [show moved.mail.engine mailbox.emailAddress = _ from hengine]
      intro other hplaced
      by_cases hother : other = threadId
      · rw [hother] at hplaced ⊢
        rw [hwritten]
        exact hcareful.resolve_left hnone hplaced
      · rw [hothers other hother]
        exact hsight other hplaced
    · rw [show moved.mail.engine mailbox.emailAddress = _ from hengine]
      refine inSight_move hsight hothers (fun hnil => ?_) hwritten
      rw [hwritten]
      exact hcareful.resolve_left fun hmovesIn => hmoves.mp hmovesIn hnil

theorem AllShown.initial [CaseMapping] (h : (overlaySystem env).init desk) : AllShown env desk := by
  rintro mailbox - threadId ⟨m, hm, -⟩
  rw [h.1 mailbox.emailAddress] at hm
  cases hm

/-- **A careful operation keeps the threads in sight.** -/
theorem AllShown.step [CaseMapping] (h : AllShown env desk) {l : OverlayLabel} {desk' : Desk}
    (hc : Careful env desk l) (hs : overlayStep env desk l = some desk') : AllShown env desk' := by
  cases l with
  | arrive address m =>
    obtain ⟨-, hdeliver⟩ := Option.ite_none_right_eq_some.mp hs
    refine h.deliver hdeliver fun mailbox hmailbox heq => ?_
    obtain hinbox | hshown := hc mailbox hmailbox heq
    · rw [hinbox]
      exact .inl rfl
    · exact .inr hshown
  | file address folder m =>
    obtain ⟨hfolder, hdeliver⟩ := Option.ite_none_right_eq_some.mp hs
    -- Sent and Drafts list the threads of every disposition.
    refine h.deliver hdeliver fun _ _ _ => .inl ?_
    rw [Bool.or_eq_true, decide_eq_true_eq, decide_eq_true_eq] at hfolder
    obtain rfl | rfl := hfolder
    · rfl
    · rfl
  | classify policies threadId fromAddress verdict stored =>
    obtain rfl := Option.some.inj hs
    rw [classifyInbound_fst]
    split
    · next d hwrites =>
      split
      · next hstored => exact h.write (hc hstored d hwrites)
      · exact h
    · exact h
  | dispose ucUid threadId d agentKey stored fates =>
    obtain rfl := Option.some.inj hs
    exact h.dispose hc
  | setDisposition ucUid threadId d agentKey stored =>
    obtain rfl := Option.some.inj hs
    unfold Triage.setDisposition
    dsimp only
    split
    · next hstored => exact h.write (hc hstored)
    · exact h
  | rule address threadId call x | snooze address threadId x | unsnooze address threadId x
  | moveToCustomFolder address threadId mailboxId x =>
    obtain rfl := Option.some.inj hs
    exact h.call hc
  | emptyFolder address folder resolved rounds =>
    obtain ⟨-, hemptied⟩ := Option.ite_none_right_eq_some.mp hs
    obtain rfl := Option.some.inj hemptied
    refine h.setEngine fun mailbox hmailbox heq => ?_
    have hsight := h mailbox hmailbox
    rw [heq] at hsight
    exact hsight.emptyFolder (hc mailbox hmailbox heq) resolved rounds

theorem allShown_of_reachable [CaseMapping]
    (h : (overlaySystem env).ReachableUnder (Careful env) desk) : AllShown env desk :=
  h.invariant (fun _ => AllShown.initial) fun _ _ _ _ hshown hc hs => hshown.step hc hs

/-- A thread in sight is listed in some folder. -/
theorem AllShown.listed (h : AllShown env desk) {mailbox : MailboxAccount}
    (hmailbox : mailbox ∈ env.sovereign) {threadId : String}
    (hplaced : Placed (desk.mail.engine mailbox.emailAddress) threadId) (locale : Locale)
    (finds : Text → Jmap.Email → Bool) (backends : Backends) (ucUid : Option String) :
    ∃ folder, Listed locale finds env.tables backends env.workspaceId ucUid mailbox.id folder
      threadId desk := by
  obtain ⟨folder, hvisible, hfiles⟩ := exists_files_of_shown (h mailbox hmailbox threadId hplaced)
  obtain ⟨hfound, hhandles⟩ := find_sovereign hmailbox
  exact ⟨folder, listed_of_files hfound hhandles hfiles hvisible⟩

/-- Without rows of the service's own, what is listed is in sight. -/
theorem shown_of_listed (hrows : env.tables.rows = []) {mailbox : MailboxAccount}
    (hmailbox : mailbox ∈ env.sovereign) {locale : Locale} {finds : Text → Jmap.Email → Bool}
    {backends : Backends} {ucUid : Option String} {folder : MailFolder} {threadId : String}
    (h : Listed locale finds env.tables backends env.workspaceId ucUid mailbox.id folder threadId
      desk) :
    Shown (desk.mail.engine mailbox.emailAddress) (desk.dispositionOf env.workspaceId threadId)
      threadId := by
  obtain ⟨hfound, hhandles⟩ := find_sovereign hmailbox
  obtain ⟨hvisible, hfiles⟩ := visible_of_listed hfound hhandles h
  exact shown_of_files hvisible (hfiles hrows)

end Kept

/-- Ada's mailbox of the engine, without a spam engine. -/
def adasEnv : OverlayEnv := ⟨adasTables, "acme", false⟩

/-- The engine has no mail. -/
def emptyDesk : Desk where
  mail :=
    { engine := fun _ => ⟨[⟨"in", some "inbox"⟩, ⟨"ar", some "archive"⟩], []⟩
      connected := fun _ _ => ⟨"ada@outlook.com".toList, []⟩ }
  overlay := []

/-- One message has arrived. -/
def arrivedDesk : Desk :=
  emptyDesk.setEngine engineMailbox.emailAddress
    ⟨[⟨"in", some "inbox"⟩, ⟨"ar", some "archive"⟩], [waitingEmail]⟩

theorem sovereign_adasEnv : adasEnv.sovereign = [engineMailbox] := by decide

theorem engineMailbox_sovereign : engineMailbox ∈ adasEnv.sovereign := by
  rw [sovereign_adasEnv]
  exact List.mem_singleton_self _

theorem arrivedDesk_reachable :
    (overlaySystem adasEnv).ReachableUnder (Careful adasEnv) arrivedDesk := by
  have hempty : (overlaySystem adasEnv).ReachableUnder (Careful adasEnv) emptyDesk :=
    .init ⟨fun _ => rfl, rfl⟩
  have hcareful : Careful adasEnv emptyDesk (.arrive engineMailbox.emailAddress waitingEmail) :=
    fun _ _ _ => .inl rfl
  exact .step hempty hcareful rfl

/-- After the operation the thread is in the Inbox, the Archive, the Trash or Junk of Ada's
mailbox, and no page of a folder lists it. -/
def HiddenBy (l : OverlayLabel) : Prop :=
  ∃ desk, (overlaySystem adasEnv).Reachable desk ∧ overlayStep adasEnv arrivedDesk l = some desk ∧
    Placed (desk.mail.engine engineMailbox.emailAddress) "t1" ∧
    ∀ locale finds backends ucUid folder, ¬Listed locale finds adasEnv.tables backends "acme"
      ucUid engineMailbox.id folder "t1" desk

/-- What no message shows is listed nowhere. -/
theorem hiddenBy_of_not_shown {l : OverlayLabel} {desk : Desk}
    (hstep : overlayStep adasEnv arrivedDesk l = some desk)
    (hplaced : Placed (desk.mail.engine engineMailbox.emailAddress) "t1")
    (hshown : ¬Shown (desk.mail.engine engineMailbox.emailAddress)
      (desk.dispositionOf "acme" "t1") "t1") : HiddenBy l := by
  have hreachable : (overlaySystem adasEnv).Reachable desk :=
    arrivedDesk_reachable.reachable.step hstep
  refine ⟨desk, hreachable, hstep, hplaced, fun locale finds backends ucUid folder hlisted => ?_⟩
  exact hshown (shown_of_listed rfl engineMailbox_sovereign hlisted)

end Triage
end EmailOps
