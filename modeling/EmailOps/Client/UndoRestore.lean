import EmailOps.Client.ComposeRetry
import EmailOps.Framework.Replacing
import EmailOps.Framework.Separated

/-!
# Undoing a send

A send can be undone for a few seconds. What the composer handed over is then put back into the
compose dialog, whatever composer it came from, and may be sent again from there.

* `Lane.handOver` is what a composer hands over, `resend` what the dialog hands over after it was
  restored and not edited.
* `SameMessage` compares two bodies: the recipients, the texts, the attachments, the draft and
  the threading.
* `Survives` says of what stands in a composer that it is restored: the recipients are addresses
  also where they have commas, the text does not hang on white space around the markup, the
  default signature is at its end, and no message is named as the one replied to.
* `undoRestores_iff`: the message that is sent again is the one that was undone if and only if
  what stood in the composer survives.

A reply names the message it replies to, and the dialog has no place for it, so a reply does not
survive (`not_undoRestores_reply`).
-/

namespace EmailOps
namespace UndoRestore

open Framework Framework.Text Framework.Replacing Client

/-! ### Attachments -/

/-- How far an upload is. -/
inductive UploadStatus where
  | uploading | done | error
  deriving DecidableEq

/-- `PendingAttachment`, without what is only displayed. -/
structure PendingAttachment where
  name : Option Text
  type : Option Text
  status : UploadStatus
  blob_id : Option Text := none

def uploading (items : List PendingAttachment) : Bool :=
  items.any (·.status = .uploading)

/-- `refs`: what is uploaded. -/
def refs (items : List PendingAttachment) : List ComposeAttachment :=
  (items.filter fun it => it.status = .done && (it.blob_id.getD [] ≠ [] : Bool)).map fun it =>
    ⟨it.blob_id, it.name, it.type⟩

/-- `reset`: the blobs are uploaded already. -/
def reset (prefill : List ComposeAttachment) : List PendingAttachment :=
  prefill.map fun b => ⟨b.name, b.type, .done, b.blob_id⟩

/-! ### Texts -/

/-- `/c{n,}/`, for a positive `n`. -/
def runOf (c : Char) (n : ℕ) : Pattern Char := fun t =>
  let run := (t.takeWhile (· = c)).length
  if n ≤ run then some (run - 1) else none

/-- `htmlToText`, after the text that the browser reads off the cleaned markup. -/
def htmlToText (textContent : Text → Text) (html : Text) : Text :=
  trim (replaceAll (runOf '\n' 3) "\n\n".toList (textContent html))

/-- `plainToHtml` -/
def plainToHtml (text : Text) : Text :=
  (splitAt (runOf '\n' 2) text).flatMap fun part =>
    let part := replaceAll (literal "&".toList) "&amp;".toList part
    let part := replaceAll (literal "<".toList) "&lt;".toList part
    let part := replaceAll (literal ">".toList) "&gt;".toList part
    let part := replaceAll (literal "\n".toList) "<br>".toList part
    "<p>".toList ++ part ++ "</p>".toList

/-- `isValidEmail`: `/^[^\s@]+@[^\s@]+\.[^\s@]{2,}$/` of the trimmed text. -/
def isValidEmail (s : Text) : Bool :=
  let a := trim s
  let domain := (a.dropWhile (· ≠ '@')).drop 1
  a.takeWhile (· ≠ '@') ≠ [] && !a.any isWhite && a.count '@' = 1 &&
    ((domain.drop 1).dropLast.dropLast).contains '.'

structure MailSignature where
  html : Text
  is_default : Bool

/-- `signatureBlock` -/
def signatureBlock (sig : MailSignature) : Text :=
  if trim sig.html ≠ [] then "<p>-- </p>".toList ++ sig.html else []

/-- The block of the default signature, where there is one. -/
def defaultBlock (signatures : List MailSignature) : Text :=
  match signatures.find? (·.is_default) with
  | some sig => signatureBlock sig
  | none => []

/-! ### The composers -/

/-- What stands in a composer. -/
structure Composer where
  to_ : List Text
  cc : List Text := []
  subject : Text := []
  body : Text := []
  draftId : Option String := none
  items : List PendingAttachment := []

/-- `ComposeDialog` -/
structure ComposeDialog extends Composer where
  bcc : List Text := []

/-- `ReplyComposer` -/
structure ReplyComposer extends Composer where
  inReplyTo : Option String := none

/-- `id ? { id } : {}` -/
def ifTruthy (id : Option String) : Option String :=
  if truthy id then id else none

/-- The fields that both composers fill. -/
def Composer.message (textContent : Text → Text) (s : Composer) : ComposeBody :=
  { to_address := join ", ".toList s.to_
    subject := nonEmpty (trim s.subject)
    body := nonEmpty (htmlToText textContent s.body)
    body_html := nonEmpty (trim s.body)
    draft_id := ifTruthy s.draftId
    cc := s.cc
    attachments := refs s.items }

/-- `buildComposeBody` -/
def ComposeDialog.buildComposeBody (textContent : Text → Text) (s : ComposeDialog) : ComposeBody :=
  { s.toComposer.message textContent with bcc := s.bcc }

def ComposeDialog.canSend (s : ComposeDialog) : Bool :=
  s.to_ ≠ [] && (s.to_ ++ s.cc ++ s.bcc).all isValidEmail && !uploading s.items

/-- What `handleSend` of the reply composer sends. -/
def ReplyComposer.buildReplyBody (textContent : Text → Text) (s : ReplyComposer) : ComposeBody :=
  { s.toComposer.message textContent with in_reply_to := ifTruthy s.inReplyTo }

def ReplyComposer.canSend (textContent : Text → Text) (s : ReplyComposer) : Bool :=
  s.to_ ≠ [] && (s.to_ ++ s.cc).all isValidEmail && htmlToText textContent s.body ≠ [] &&
    !uploading s.items

/-- `onCompose` of the page: a dialog that was restored from a reply keeps its thread. -/
def threaded (thread_id : Option String) (body : ComposeBody) : ComposeBody :=
  if truthy thread_id then { body with in_reply_to_thread_id := thread_id } else body

/-- Where a message is handed over: the compose dialog, with the thread it was restored with,
or the reply composer of an open thread. -/
inductive Lane where
  | composer (s : ComposeDialog) (thread_id : Option String)
  | reply (s : ReplyComposer) (rowId : String)

/-- What a lane hands to `sendWithUndo`; nothing while it cannot be sent. -/
def Lane.handOver (textContent : Text → Text) : Lane → Option ComposeBody
  | .composer s thread_id =>
    if s.canSend then some (threaded thread_id (s.buildComposeBody textContent)) else none
  | .reply s rowId =>
    if s.canSend textContent then
      some { s.buildReplyBody textContent with in_reply_to_thread_id := some rowId }
    else none

/-! ### Restoring -/

/-- `ComposeDialogPrefill`, with the thread of the page. -/
structure ComposeInitial where
  to_ : List Text
  cc : List Text
  bcc : List Text
  subject : Option Text
  body : Option Text
  bodyHtml : Option Text
  draftId : Option String
  attachments : List ComposeAttachment
  thread_id : Option String

/-- `restoreComposer` -/
def restoreComposer (body : ComposeBody) : ComposeInitial where
  to_ := toAddresses body.to_address
  cc := body.cc
  bcc := body.bcc
  subject := body.subject
  body := body.body
  bodyHtml := body.body_html
  draftId := body.draft_id
  attachments := body.attachments
  thread_id := body.in_reply_to_thread_id

/-- What the body of the dialog begins with. -/
def ComposeInitial.seededBody (initial : ComposeInitial) : Text :=
  match initial.bodyHtml with
  | some html => html
  | none => if initial.body.getD [] ≠ [] then plainToHtml (initial.body.getD []) else []

/-- The fields of the dialog when it opens. -/
def ComposeInitial.seed (initial : ComposeInitial) : ComposeDialog where
  to_ := initial.to_.filter (· ≠ [])
  cc := initial.cc
  bcc := initial.bcc
  subject := initial.subject.getD []
  body := initial.seededBody
  draftId := initial.draftId
  items := reset initial.attachments

/-- The signature block is put behind a body that does not end with it. -/
def withBlock (block current : Text) : Text :=
  if block ≠ [] ∧ ¬block <:+ current then current ++ block else current

/-- The default signature is applied once the signatures are loaded. -/
def ComposeDialog.withSignature (signatures : List MailSignature) (s : ComposeDialog) :
    ComposeDialog :=
  { s with body := withBlock (defaultBlock signatures) s.body }

/-- The dialog that a body is restored to; `signatures` are those that are loaded. -/
def restored (signatures : List MailSignature) (body : ComposeBody) : Lane :=
  let initial := restoreComposer body
  .composer (initial.seed.withSignature signatures) initial.thread_id

/-- What the restored dialog hands over, unedited. -/
def resend (textContent : Text → Text) (signatures : List MailSignature) (body : ComposeBody) :
    Option ComposeBody :=
  (restored signatures body).handOver textContent

/-! ### The law -/

/-- Two bodies are the same message. -/
structure SameMessage (body body' : ComposeBody) : Prop where
  recipients : toAddresses body'.to_address = toAddresses body.to_address
  cc : body'.cc = body.cc
  bcc : body'.bcc = body.bcc
  subject : body'.subject = body.subject
  text : body'.body = body.body
  html : body'.body_html = body.body_html
  attachments : body'.attachments = body.attachments
  draft : body'.draft_id = body.draft_id
  thread : body'.in_reply_to_thread_id = body.in_reply_to_thread_id
  inReplyTo : body'.in_reply_to = body.in_reply_to
  references : body'.references = body.references

/-- A body that is restored and sent again is the same message. -/
def UndoRestores (textContent : Text → Text) (signatures : List MailSignature)
    (body : ComposeBody) : Prop :=
  ∃ body', resend textContent signatures body = some body' ∧ SameMessage body body'

/-- What stands in the composer of a lane. -/
def Lane.composing : Lane → Composer
  | .composer s _ => s.toComposer
  | .reply s _ => s.toComposer

/-- No message is named as the one replied to, and a thread has an id. -/
def Lane.KeepsThread : Lane → Prop
  | .composer _ _ => True
  | .reply s rowId => truthy s.inReplyTo = false ∧ rowId ≠ ""

/-- What stands in the composer is restored. -/
structure Survives (textContent : Text → Text) (signatures : List MailSignature) (lane : Lane) :
    Prop where
  recipients : ∀ a ∈ lane.composing.to_, ∀ r ∈ toAddresses a, isValidEmail r = true
  text : htmlToText textContent (trim lane.composing.body) =
    htmlToText textContent lane.composing.body
  blank : trim lane.composing.body = [] → htmlToText textContent lane.composing.body = []
  signature : defaultBlock signatures <:+ trim lane.composing.body
  thread : lane.KeepsThread

/-! ### Recipients -/

private theorem comma_visible : isWhite ',' = false := by decide

theorem toAddresses_eq_elements (t : Text) :
    toAddresses t = (Scanner.plain comma_visible).elements t :=
  (Scanner.elements_plain comma_visible t).symm

theorem toAddresses_join (ts : List Text) :
    toAddresses (join ", ".toList ts) = ts.flatMap toAddresses := by
  rw [toAddresses_eq_elements, funext toAddresses_eq_elements]
  exact Scanner.elements_join_plain comma_visible ts

theorem toAddresses_join_toAddresses (t : Text) :
    toAddresses (join ", ".toList (toAddresses t)) = toAddresses t := by
  simp only [toAddresses_eq_elements]
  exact Scanner.elements_join_elements_plain comma_visible t

theorem filter_toAddresses (t : Text) : (toAddresses t).filter (· ≠ []) = toAddresses t :=
  List.filter_eq_self.mpr fun _ hr => (List.mem_filter.mp hr).2

/-- An address has an at sign, so it is no mere separator. -/
theorem toAddresses_ne_nil {a : Text} (h : isValidEmail a = true) : toAddresses a ≠ [] := by
  have hcount : (trim a).count '@' = 1 := by
    unfold isValidEmail at h
    simp only [Bool.and_eq_true, decide_eq_true_eq] at h
    exact h.1.2
  rw [count_trim (by decide)] at hcount
  have hat : '@' ∈ a := List.count_pos_iff.mp (by omega)
  obtain ⟨e, he, -⟩ :=
    Scanner.exists_mem_elements_plain comma_visible (by decide) (by decide) hat
  rw [toAddresses_eq_elements]
  exact List.ne_nil_of_mem he

/-! ### Attachments and identifiers -/

theorem refs_reset {prefill : List ComposeAttachment}
    (h : ∀ b ∈ prefill, b.blob_id.getD [] ≠ []) : refs (reset prefill) = prefill := by
  unfold refs reset
  rw [List.filter_eq_self.mpr, List.map_map]
  · exact List.map_id _
  · intro it hit
    obtain ⟨b, hb, rfl⟩ := List.mem_map.mp hit
    simpa using h b hb

theorem blob_of_mem_refs {items : List PendingAttachment} {b : ComposeAttachment}
    (h : b ∈ refs items) : b.blob_id.getD [] ≠ [] := by
  obtain ⟨it, hit, rfl⟩ := List.mem_map.mp h
  have hdone := (List.mem_filter.mp hit).2
  simp only [Bool.and_eq_true, decide_eq_true_eq] at hdone
  exact hdone.2

theorem uploading_reset (prefill : List ComposeAttachment) : uploading (reset prefill) = false := by
  simp [uploading, reset]

theorem ifTruthy_ifTruthy (id : Option String) : ifTruthy (ifTruthy id) = ifTruthy id := by
  unfold ifTruthy
  split_ifs <;> rfl

theorem nonEmpty_inj {xs ys : Text} : nonEmpty xs = nonEmpty ys ↔ xs = ys := by
  constructor
  · intro h
    rw [← nonEmpty_getD xs, h, nonEmpty_getD]
  · exact congrArg nonEmpty

theorem threaded_eq (thread_id : Option String) (body : ComposeBody) :
    threaded thread_id body =
      { body with in_reply_to_thread_id :=
          if truthy thread_id then thread_id else body.in_reply_to_thread_id } := by
  unfold threaded
  split_ifs <;> rfl

/-! ### What is handed over -/

/-- A body is made from what stands in a composer. -/
structure HandedOver (textContent : Text → Text) (s : Composer) (body : ComposeBody) : Prop where
  to_address : body.to_address = join ", ".toList s.to_
  subject : body.subject = nonEmpty (trim s.subject)
  text : body.body = nonEmpty (htmlToText textContent s.body)
  html : body.body_html = nonEmpty (trim s.body)
  draft : body.draft_id = ifTruthy s.draftId
  attachments : body.attachments = refs s.items
  references : body.references = []
  sendable : s.to_ ≠ []
  valid : (s.to_ ++ body.cc ++ body.bcc).all isValidEmail = true

variable {textContent : Text → Text} {signatures : List MailSignature} {lane : Lane}
  {body : ComposeBody}

theorem handedOver_of_handOver (h : lane.handOver textContent = some body) :
    HandedOver textContent lane.composing body := by
  cases lane with
  | composer s thread_id =>
    simp only [Lane.handOver, Option.ite_none_right_eq_some, Option.some.injEq] at h
    obtain ⟨hsend, rfl⟩ := h
    simp only [ComposeDialog.canSend, Bool.and_eq_true, decide_eq_true_eq] at hsend
    rw [threaded_eq]
    exact ⟨rfl, rfl, rfl, rfl, rfl, rfl, rfl, hsend.1.1, hsend.1.2⟩
  | reply s rowId =>
    simp only [Lane.handOver, Option.ite_none_right_eq_some, Option.some.injEq] at h
    obtain ⟨hsend, rfl⟩ := h
    simp only [ReplyComposer.canSend, Bool.and_eq_true, decide_eq_true_eq] at hsend
    refine ⟨rfl, rfl, rfl, rfl, rfl, rfl, rfl, hsend.1.1.1, ?_⟩
    have hvalid := hsend.1.1.2
    rwa [← List.append_nil (s.to_ ++ s.cc)] at hvalid

/-- The threading of a body is kept where that of its lane is. -/
theorem thread_kept_iff (h : lane.handOver textContent = some body) :
    (ifTruthy body.in_reply_to_thread_id = body.in_reply_to_thread_id ∧ body.in_reply_to = none) ↔
      lane.KeepsThread := by
  cases lane with
  | composer s thread_id =>
    simp only [Lane.handOver, Option.ite_none_right_eq_some, Option.some.injEq] at h
    obtain ⟨-, rfl⟩ := h
    rw [threaded_eq]
    exact ⟨fun _ => trivial, fun _ => ⟨ifTruthy_ifTruthy thread_id, rfl⟩⟩
  | reply s rowId =>
    simp only [Lane.handOver, Option.ite_none_right_eq_some, Option.some.injEq] at h
    obtain ⟨-, rfl⟩ := h
    show (ifTruthy (some rowId) = some rowId ∧ ifTruthy s.inReplyTo = none) ↔
      truthy s.inReplyTo = false ∧ rowId ≠ ""
    have hrow : ifTruthy (some rowId) = some rowId ↔ rowId ≠ "" := by
      simp [ifTruthy, truthy]
    have hreply : ifTruthy s.inReplyTo = none ↔ truthy s.inReplyTo = false := by
      cases hr : s.inReplyTo with
      | none => simp [ifTruthy, truthy]
      | some id => simp [ifTruthy, truthy]
    rw [hrow, hreply]
    exact And.comm

/-! ### The texts -/

theorem lt_mem_defaultBlock (h : defaultBlock signatures ≠ []) : '<' ∈ defaultBlock signatures := by
  unfold defaultBlock at h ⊢
  split at h
  · unfold signatureBlock at h ⊢
    split_ifs at h ⊢
    · exact List.mem_cons_self
    · exact absurd rfl h
  · exact absurd rfl h

theorem lt_mem_plainToHtml (t : Text) : '<' ∈ plainToHtml t := by
  obtain ⟨part, hpart⟩ := List.exists_mem_of_ne_nil _ (splitAt_ne_nil (m := runOf '\n' 2) t)
  exact List.mem_flatMap.mpr ⟨part, hpart, List.mem_cons_self⟩

theorem withBlock_of_suffix {block current : Text} (h : block <:+ current) :
    withBlock block current = current :=
  if_neg fun hand => hand.2 h

theorem lt_mem_withBlock {block current : Text} (h : '<' ∈ current) :
    '<' ∈ withBlock block current := by
  unfold withBlock
  split_ifs
  · exact List.mem_append_left _ h
  · exact h

theorem lt_mem_trim_iff (t : Text) : '<' ∈ trim t ↔ '<' ∈ t := by
  rw [← List.count_pos_iff, ← List.count_pos_iff, count_trim (by decide)]

/-- A block that is put behind a text shows. -/
theorem suffix_of_trim_withBlock (current : Text)
    (h : trim (withBlock (defaultBlock signatures) current) = trim current) :
    defaultBlock signatures <:+ current := by
  by_contra hnot
  have hne : defaultBlock signatures ≠ [] := fun hnil => hnot (hnil ▸ List.nil_suffix)
  have happend : withBlock (defaultBlock signatures) current =
      current ++ defaultBlock signatures := if_pos ⟨hne, hnot⟩
  have hcount := congrArg (List.count '<') h
  rw [happend, count_trim (by decide), count_trim (by decide), List.count_append] at hcount
  have hpos := List.count_pos_iff.mpr (lt_mem_defaultBlock hne)
  omega

/-- What the restored body of the dialog begins with. -/
theorem seededBody_of_handedOver {s : Composer} (h : HandedOver textContent s body) :
    (restoreComposer body).seededBody =
      if trim s.body ≠ [] then trim s.body
      else if htmlToText textContent s.body ≠ [] then
        plainToHtml (htmlToText textContent s.body)
      else [] := by
  unfold ComposeInitial.seededBody restoreComposer
  rw [h.html, h.text, nonEmpty_getD]
  by_cases hnil : trim s.body = []
  · rw [hnil]
    rfl
  · rw [if_pos hnil]
    cases htrim : trim s.body with
    | nil => exact absurd htrim hnil
    | cons c t => rfl

variable (signatures) in
/-- **The texts come back** if and only if the surrounding white space does not matter and the
default signature is there. -/
theorem texts_restored_iff {s : Composer} (h : HandedOver textContent s body) :
    (nonEmpty (trim (withBlock (defaultBlock signatures) (restoreComposer body).seededBody)) =
        body.body_html ∧
      nonEmpty (htmlToText textContent
        (withBlock (defaultBlock signatures) (restoreComposer body).seededBody)) = body.body) ↔
      htmlToText textContent (trim s.body) = htmlToText textContent s.body ∧
        (trim s.body = [] → htmlToText textContent s.body = []) ∧
        defaultBlock signatures <:+ trim s.body := by
  rw [h.html, h.text, nonEmpty_inj, nonEmpty_inj, seededBody_of_handedOver h]
  by_cases hblank : trim s.body = []
  · rw [if_neg (not_not.mpr hblank), hblank]
    by_cases htext : htmlToText textContent s.body = []
    · rw [if_neg (not_not.mpr htext), htext]
      constructor
      · rintro ⟨hhtml, hsame⟩
        have hsuffix := suffix_of_trim_withBlock [] hhtml
        rw [withBlock_of_suffix hsuffix] at hsame
        exact ⟨hsame, fun _ => rfl, hsuffix⟩
      · rintro ⟨hsame, -, hsuffix⟩
        rw [withBlock_of_suffix hsuffix]
        exact ⟨rfl, hsame⟩
    · -- What is restored is the text, as markup, where there was none.
      rw [if_pos htext]
      refine ⟨fun hboth => ?_, fun hboth => absurd (hboth.2.1 rfl) htext⟩
      have hmark : '<' ∈ withBlock (defaultBlock signatures)
          (plainToHtml (htmlToText textContent s.body)) :=
        lt_mem_withBlock (lt_mem_plainToHtml _)
      rw [← lt_mem_trim_iff] at hmark
      rw [hboth.1] at hmark
      exact absurd hmark List.not_mem_nil
  · rw [if_pos hblank]
    constructor
    · rintro ⟨hhtml, hsame⟩
      have hsuffix := suffix_of_trim_withBlock (trim s.body) (hhtml.trans (trim_trim _).symm)
      rw [withBlock_of_suffix hsuffix] at hsame
      exact ⟨hsame, fun hnil => absurd hnil hblank, hsuffix⟩
    · rintro ⟨hsame, -, hsuffix⟩
      rw [withBlock_of_suffix hsuffix]
      exact ⟨trim_trim _, hsame⟩

/-! ### Restored bodies -/

variable (signatures) in
/-- The restored dialog can be sent if and only if the recipients are addresses. -/
theorem canSend_restored_iff {s : Composer} (h : HandedOver textContent s body) :
    ((restoreComposer body).seed.withSignature signatures).canSend = true ↔
      ∀ a ∈ s.to_, ∀ r ∈ toAddresses a, isValidEmail r = true := by
  have hto : toAddresses body.to_address = s.to_.flatMap toAddresses := by
    rw [h.to_address, toAddresses_join]
  obtain ⟨hvalid_to, hvalid_cc, hvalid_bcc⟩ :
      s.to_.all isValidEmail = true ∧ body.cc.all isValidEmail = true ∧
        body.bcc.all isValidEmail = true := by
    have hvalid := h.valid
    rw [List.all_append, List.all_append, Bool.and_eq_true, Bool.and_eq_true] at hvalid
    exact ⟨hvalid.1.1, hvalid.1.2, hvalid.2⟩
  have hne : toAddresses body.to_address ≠ [] := by
    obtain ⟨a, ha⟩ := List.exists_mem_of_ne_nil _ h.sendable
    obtain ⟨r, hr⟩ :=
      List.exists_mem_of_ne_nil _ (toAddresses_ne_nil (List.all_eq_true.mp hvalid_to a ha))
    rw [hto]
    exact List.ne_nil_of_mem (List.mem_flatMap.mpr ⟨a, ha, hr⟩)
  have hchips : ((restoreComposer body).seed.withSignature signatures).to_ =
      toAddresses body.to_address := filter_toAddresses _
  have hidle : uploading ((restoreComposer body).seed.withSignature signatures).items = false :=
    uploading_reset _
  unfold ComposeDialog.canSend
  rw [hchips, hidle, List.all_append, List.all_append]
  show (_ && (_ && body.cc.all isValidEmail && body.bcc.all isValidEmail) && _) = true ↔ _
  rw [hvalid_cc, hvalid_bcc, hto]
  rw [hto] at hne
  simp only [hne, List.all_flatMap, Bool.and_true, ne_eq, not_false_eq_true, decide_true,
    Bool.true_and, Bool.not_false, List.all_eq_true]

/-- The dialog names no message replied to, and has a thread where the body has. -/
theorem thread_of_undoRestores (h : UndoRestores textContent signatures body) :
    ifTruthy body.in_reply_to_thread_id = body.in_reply_to_thread_id ∧
      body.in_reply_to = none := by
  obtain ⟨body', hresend, hsame⟩ := h
  simp only [resend, restored, Lane.handOver, Option.ite_none_right_eq_some,
    Option.some.injEq] at hresend
  obtain ⟨-, rfl⟩ := hresend
  rw [threaded_eq] at hsame
  exact ⟨hsame.thread, hsame.inReplyTo.symm⟩

/-- **Undoing a send.** The message that is sent again is the one that was undone if and only if
what stood in the composer survives. -/
theorem undoRestores_iff (h : lane.handOver textContent = some body) :
    UndoRestores textContent signatures body ↔ Survives textContent signatures lane := by
  have hover := handedOver_of_handOver h
  have hsend := canSend_restored_iff signatures hover
  have htexts := texts_restored_iff signatures hover
  have hthread := thread_kept_iff h
  constructor
  · intro hrestores
    have hkept := hthread.mp (thread_of_undoRestores hrestores)
    obtain ⟨body', hresend, hsame⟩ := hrestores
    simp only [resend, restored, Lane.handOver, Option.ite_none_right_eq_some,
      Option.some.injEq] at hresend
    obtain ⟨hcan, rfl⟩ := hresend
    rw [threaded_eq] at hsame
    obtain ⟨htext, hblank, hsignature⟩ := htexts.mp ⟨hsame.html, hsame.text⟩
    exact
      { recipients := hsend.mp hcan
        text := htext
        blank := hblank
        signature := hsignature
        thread := hkept }
  · intro hsurvives
    obtain ⟨hhtml, htext⟩ :=
      htexts.mpr ⟨hsurvives.text, hsurvives.blank, hsurvives.signature⟩
    obtain ⟨hid, hreply⟩ := hthread.mpr hsurvives.thread
    refine ⟨_, if_pos (hsend.mpr hsurvives.recipients), ?_⟩
    rw [threaded_eq]
    exact
      { recipients := by
          show toAddresses (join ", ".toList ((toAddresses body.to_address).filter _)) = _
          rw [filter_toAddresses, toAddresses_join_toAddresses]
        cc := rfl
        bcc := rfl
        subject := by
          show nonEmpty (trim (body.subject.getD [])) = _
          rw [hover.subject, nonEmpty_getD, trim_trim]
        text := htext
        html := hhtml
        attachments := by
          refine refs_reset fun b hb => ?_
          have hmem : b ∈ refs lane.composing.items := by
            rw [← hover.attachments]
            exact hb
          exact blob_of_mem_refs hmem
        draft := by
          show ifTruthy body.draft_id = _
          rw [hover.draft, ifTruthy_ifTruthy]
        thread := hid
        inReplyTo := hreply.symm
        references := hover.references.symm }

/-! ### Two messages -/

/-- The text of markup without entities. -/
def betweenTags : Bool → Text → Text
  | _, [] => []
  | inTag, c :: t =>
    if c = '<' then betweenTags true t
    else if c = '>' then betweenTags false t
    else if inTag then betweenTags inTag t
    else c :: betweenTags inTag t

/-- A new message, with the default signature at its end. -/
def lunch : ComposeDialog where
  to_ := ["ada@x.org".toList, "bob@y.org".toList]
  subject := "Lunch ".toList
  body := "<p>At noon?</p><p>-- </p><i>Eve</i>".toList

/-- It comes back. -/
theorem undoRestores_lunch :
    ∃ body, (Lane.composer lunch none).handOver (betweenTags false) = some body ∧
      UndoRestores (betweenTags false) [⟨"<i>Eve</i>".toList, true⟩] body := by
  have hcan : lunch.canSend = true := by decide
  have hsend : (Lane.composer lunch none).handOver (betweenTags false) =
      some (lunch.buildComposeBody (betweenTags false)) := by
    rw [Lane.handOver, if_pos hcan]
    rfl
  refine ⟨_, hsend, (undoRestores_iff hsend).mpr ?_⟩
  exact
    { recipients := by decide
      text := by decide
      blank := by decide
      signature := by decide
      thread := trivial }

/-- A reply to a message of a thread. -/
def answer : ReplyComposer where
  to_ := ["ada@x.org".toList]
  subject := "Re: Lunch".toList
  body := "<p>Yes.</p>".toList
  inReplyTo := some "m1"

/-- A reply that is undone and sent again does not name the message that it replies to. -/
theorem not_undoRestores_reply :
    ¬∀ (textContent : Text → Text) (signatures : List MailSignature) (lane : Lane)
        (body : ComposeBody), lane.handOver textContent = some body →
      UndoRestores textContent signatures body := by
  intro h
  have hcan : answer.canSend (betweenTags false) = true := by decide
  have hsend : (Lane.reply answer "t1").handOver (betweenTags false) =
      some { answer.buildReplyBody (betweenTags false) with in_reply_to_thread_id := some "t1" } := by
    rw [Lane.handOver, if_pos hcan]
  have hnone := (thread_of_undoRestores (h (betweenTags false) [] _ _ hsend)).2
  exact absurd hnone (by decide)

end UndoRestore
end EmailOps
