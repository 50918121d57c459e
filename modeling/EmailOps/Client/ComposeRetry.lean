import Mathlib.Data.List.Nodup
import EmailOps.Email.ComposeAnswer

/-!
# Composes of the web client

The client posts a composed message to the compose endpoint. Its request may be lost on the
way, the server may die at it, and the answer may be lost; all the client sees is that the
post failed, and the message stays in the composer to be sent again. The endpoint gives each
request a new idempotency key.

* `composeRequest` is what the endpoint makes of a request.
* `step` lets clients submit and submit again, requests and answers be lost, and the server
  compose, over `Compose.system`, next to any other composes.
* `received` are the messages that the engine was called for. `received_nodup`: where a
  message is submitted again only after the earlier requests are lost or have ended without
  an engine call, the engine receives it at most once.

The key does not help, as it is not the client's (`retry_is_sent_twice`).
-/

namespace EmailOps
namespace Client

open Framework Framework.Text

/-! ### The endpoint -/

/-- An attachment as the client names it; the types of its fields are not checked. -/
structure ComposeAttachment where
  blob_id : Option Text
  name : Option Text
  type : Option Text

/-- `ComposeMailDto`. -/
structure ComposeBody where
  to_address : Text
  subject : Option Text := none
  body : Option Text := none
  body_html : Option Text := none
  in_reply_to_thread_id : Option String := none
  draft_id : Option String := none
  cc : List Text := []
  bcc : List Text := []
  attachments : List ComposeAttachment := []
  in_reply_to : Option String := none
  references : List Text := []

/-- `ADDRESS_RE`: a local part and a domain with a dot inside, no space and one at sign. -/
def isAddress (a : Text) : Bool :=
  let domain := (a.dropWhile (· ≠ '@')).drop 1
  a.takeWhile (· ≠ '@') ≠ [] && !a.any isWhite && a.count '@' = 1 &&
    ((domain.drop 1).dropLast).contains '.'

/-- The addresses of a comma-joined list. -/
def toAddresses (to_address : Text) : List Text :=
  ((to_address.splitOn ',').map trim).filter (· ≠ [])

/-- A text of an attachment, or its default. -/
def nonBlankOr (t : Option Text) (fallback : String) : Text :=
  (t.filter fun t => trim t ≠ []).getD fallback.toList

/-- `parseComposePayload`; the error is that of the bad request. -/
def parseComposePayload (body : ComposeBody) :
    Except String (List Text × List ComposeAttachmentInput) :=
  let addresses := toAddresses body.to_address
  if addresses = [] || addresses.any fun a => !isAddress a then
    .error "to_address must be one or more comma-separated email addresses."
  else if body.attachments.any fun a => trim (a.blob_id.getD []) = [] then
    .error "each attachment needs a blob_id (from POST .../attachments)."
  else
    .ok (addresses, body.attachments.map fun a =>
      ⟨a.blob_id.getD [], nonBlankOr a.name "attachment",
        nonBlankOr a.type "application/octet-stream"⟩)

/-- A composed message, and where it is sent from. -/
structure Draft where
  workspaceId : String
  ucUid : Option String
  mailboxId : String
  body : ComposeBody

/-- `POST :mailboxId/compose`: the request to the mail service, under a new reference. -/
def composeRequest (normalizeComposeHtml : Text → Text) (draft : Draft) (uuid : String) :
    Except String Compose.Request :=
  (parseComposePayload draft.body).map fun (addresses, attachments) =>
    { workspaceId := draft.workspaceId
      ucUid := draft.ucUid
      input :=
        { toAddress := addresses.headD []
          toAddresses := if 1 < addresses.length then addresses else []
          subject := draft.body.subject.getD []
          body := draft.body.body.getD []
          bodyHtml := (draft.body.body_html.filter (· ≠ [])).map normalizeComposeHtml
          mode := .send
          inReplyToThreadId := draft.body.in_reply_to_thread_id
          externalSource := "email-ops-client"
          externalRef := uuid
          draftedBy := none
          fromMailboxAccountId := some draft.mailboxId
          draftId := draft.body.draft_id
          cc := draft.body.cc
          bcc := draft.body.bcc
          attachments := attachments
          inReplyToMessageId := draft.body.in_reply_to
          references := draft.body.references } }

/-! ### The protocol -/

/-- Who composes: a request of the client, by its number, or someone else. -/
inductive Caller where
  | client (n : ℕ)
  | other (k : ℕ)
  deriving DecidableEq

/-- What has become of a request on its way. -/
inductive Fate where
  | travelling | lost | arrived
  /-- The endpoint has answered that it is bad. -/
  | refused
  deriving DecidableEq

/-- A request of the client: which of its messages it carries. -/
structure Submission where
  message : ℕ
  fate : Fate

/-- Where a composed message stands in the client. -/
inductive Composer where
  /-- It is in the composer, to be sent or sent again. -/
  | editing
  /-- The client awaits the answer to a request. -/
  | waiting (n : ℕ)
  | recorded

structure State where
  compose : Compose.State Caller
  /-- The composed messages. -/
  drafts : ℕ → Draft
  composers : ℕ → Composer
  /-- The requests so far, oldest first. -/
  submissions : List Submission

/-- The steps. -/
inductive Label where
  /-- The client sends a message, for the first time or again. -/
  | submit (k : ℕ)
  /-- A request is lost. -/
  | lose (n : ℕ)
  /-- A request arrives, and the endpoint gives it a reference. -/
  | arrive (n : ℕ) (uuid : String) (lookupsFail : Bool) (ids : NewIds)
  /-- The server goes on. -/
  | server (l : Compose.Label Caller)
  /-- The client sees that its request failed: no answer came, or an error. -/
  | fail (k : ℕ)
  /-- The client has the answer that its message is recorded. -/
  | answer (k : ℕ)

/-- Record what has become of a request. -/
def State.setFate (s : State) (n : ℕ) (fate : Fate) : State :=
  { s with submissions := s.submissions.modify n fun sub => { sub with fate := fate } }

/-- What has become of a request. -/
def State.fateOf (s : State) (n : ℕ) : Option Fate :=
  s.submissions[n]?.map (·.fate)

def State.setComposer (s : State) (k : ℕ) (composer : Composer) : State :=
  { s with composers := Function.update s.composers k composer }

section Step

variable [CaseMapping] (env : Env) (normalizeComposeHtml : Text → Text)

/-- The server's steps; those that begin a request of the client are left to `arrive`. -/
def serverStep (s : State) (l : Compose.Label Caller) : Option (Compose.State Caller) :=
  match l with
  | .start (.client _) _ _ _ => none
  | .crash (.client n) =>
    if s.fateOf n = some .arrived then Compose.step env s.compose l else none
  | l => Compose.step env s.compose l

/-- One step. -/
def step (s : State) : Label → Option State
  | .submit k =>
    match s.composers k with
    | .editing =>
      some { s.setComposer k (.waiting s.submissions.length) with
        submissions := s.submissions ++ [⟨k, .travelling⟩] }
    | _ => none
  | .lose n => if s.fateOf n = some .travelling then some (s.setFate n .lost) else none
  | .arrive n uuid lookupsFail ids =>
    match s.submissions[n]? with
    | some ⟨k, .travelling⟩ =>
      match composeRequest normalizeComposeHtml (s.drafts k) uuid with
      | .error _ => some (s.setFate n .refused)
      | .ok r =>
        -- A fresh uuid: no message carries the key.
        if Compose.hasKey s.compose.db r.triple then none
        else
          (Compose.step env s.compose (.start (.client n) r lookupsFail ids)).map fun c =>
            { s.setFate n .arrived with compose := c }
    | _ => none
  | .server l => (serverStep env s l).map fun c => { s with compose := c }
  | .fail k =>
    match s.composers k with
    | .waiting _ => some (s.setComposer k .editing)
    | _ => none
  | .answer k =>
    match s.composers k with
    | .waiting n =>
      match s.compose.calls (.client n) with
      | .returned _ => some (s.setComposer k .recorded)
      | _ => none
    | _ => none

/-- Clients over composes. Initially nothing was submitted and no call has begun. -/
def system : System State Label where
  init s := (Compose.system env).init s.compose ∧ s.submissions = [] ∧
    ∀ k, s.composers k = .editing
  step := step env normalizeComposeHtml

end Step

/-! ### What the engine receives -/

/-- The message that a call is about, when it is a request of the client. -/
def State.messageOf (s : State) : Caller → Option ℕ
  | .client n => s.submissions[n]?.map (·.message)
  | .other _ => none

/-- The messages of the client that the engine was called for. -/
def State.received (s : State) : List ℕ :=
  s.compose.log.filterMap fun h => s.messageOf h.caller

/-- The engine was not called for the request. -/
def State.Unsent (s : State) (n : ℕ) : Prop :=
  ∀ h ∈ s.compose.log, h.caller ≠ .client n

/-- The request can no longer lead to an engine call, and has led to none. -/
def State.Spent (s : State) (n : ℕ) : Prop :=
  s.Unsent n ∧
    (s.fateOf n = some .lost ∨ s.fateOf n = some .refused ∨
      s.fateOf n = some .arrived ∧ (s.compose.calls (.client n)).activeKey = none)

/-- **The condition.** A message is submitted again only after each earlier request of it is
lost, is refused or has ended without an engine call. -/
def Careful (s : State) : Label → Prop
  | .submit k => ∀ n, s.messageOf (.client n) = some k → s.Spent n
  | _ => True

/-! ### The requests from step to step -/

section Fates

variable {s : State} {n m : ℕ} {fate : Fate}

theorem fateOf_setFate_self (h : (s.fateOf n).isSome = true) :
    (s.setFate n fate).fateOf n = some fate := by
  obtain ⟨old, hold⟩ := Option.isSome_iff_exists.mp h
  obtain ⟨sub, hsub, -⟩ := Option.map_eq_some_iff.mp hold
  simp [State.fateOf, State.setFate, hsub]

theorem fateOf_setFate_of_ne (h : m ≠ n) : (s.setFate n fate).fateOf m = s.fateOf m := by
  simp [State.fateOf, State.setFate, Ne.symm h]

@[simp] theorem messageOf_setFate (c : Caller) :
    (s.setFate n fate).messageOf c = s.messageOf c := by
  cases c with
  | other k => rfl
  | client m =>
    simp only [State.messageOf, State.setFate, List.getElem?_modify]
    cases s.submissions[m]? with
    | none => rfl
    | some sub =>
      simp only [Option.map_some]
      split <;> rfl

end Fates

/-! ### The invariant -/

/-- **The invariant.** A request that has not arrived is idle, a call that may yet call the
engine has not, and of several requests of one message all but the last are spent. -/
structure Inv (s : State) : Prop where
  idle : ∀ n, s.fateOf n ≠ some .arrived → s.compose.calls (.client n) = .idle
  unsent : ∀ n, Compose.beforeEngine (s.compose.calls (.client n)) → s.Unsent n
  spent : ∀ n n' k, n < n' → s.messageOf (.client n) = some k → s.messageOf (.client n') = some k →
    s.Spent n
  once : s.received.Nodup

namespace Inv

variable {s s' : State}

/-- The work of a spent request is done. -/
theorem done_of_spent (h : Inv s) {n : ℕ} (hn : s.Spent n) :
    (s.compose.calls (.client n)).activeKey = none := by
  have hidle : s.fateOf n ≠ some .arrived → (s.compose.calls (.client n)).activeKey = none := by
    intro hfate
    rw [h.idle n hfate]
    rfl
  rcases hn.2 with hlost | hrefused | ⟨-, hdone⟩
  · exact hidle (by rw [hlost]; exact nofun)
  · exact hidle (by rw [hrefused]; exact nofun)
  · exact hdone

theorem arrived_of_sent (h : Inv s) {n : ℕ} {e : Compose.HandOff Caller} (he : e ∈ s.compose.log)
    (hcaller : e.caller = .client n) : s.fateOf n = some .arrived := by
  by_contra hfate
  refine h.unsent n ?_ e he hcaller
  rw [h.idle n hfate]
  trivial

/-- The server goes on. A request that begins here has just arrived. -/
theorem compose [CaseMapping] {env : Env} (h : Inv s) {l : Compose.Label Caller}
    (hs : (Compose.system env).step s.compose l = some s'.compose)
    (hmessage : ∀ c, s'.messageOf c = s.messageOf c)
    (hfates : ∀ n, s.Spent n → s'.fateOf n = s.fateOf n)
    (hidle : ∀ n, s'.fateOf n ≠ some .arrived → s'.compose.calls (.client n) = .idle)
    (hstart : ∀ n, s.Spent n → ∀ r f ids, l ≠ .start (.client n) r f ids) : Inv s' := by
  have hgrow := Compose.log_cases hs
  -- What was not sent before and is not queued is not sent now.
  have hunsent : ∀ n, s.Unsent n → (∀ r plan, s.compose.calls (.client n) ≠ .queued r plan) →
      s'.Unsent n := by
    intro n hn hqueued e he hcaller
    rcases hgrow with hsame | ⟨new, r, plan, hnew, hcall, -⟩
    · rw [hsame] at he
      exact hn e he hcaller
    · rw [hnew] at he
      rcases List.mem_append.mp he with hold | hlast
      · exact hn e hold hcaller
      · obtain rfl := List.mem_singleton.mp hlast
        rw [hcaller] at hcall
        exact hqueued r plan hcall
  have hspent : ∀ n, s.Spent n → s'.Spent n := by
    intro n hn
    have hdone := h.done_of_spent hn
    -- A call that was not active is not active now, as it does not start again.
    have hstill : (s'.compose.calls (.client n)).activeKey = none := by
      rw [Option.eq_none_iff_forall_ne_some]
      intro t ht
      rcases Compose.activeKey_step hs (.client n) ht with hbefore | ⟨r, f, ids, rfl, -⟩
      · rw [hdone] at hbefore
        cases hbefore
      · exact hstart n hn r f ids rfl
    refine ⟨hunsent n hn.1 fun r plan hqueued => ?_, ?_⟩
    · rw [hqueued] at hdone
      cases hdone
    · rw [hfates n hn]
      exact hn.2.imp_right (Or.imp_right fun harrived => ⟨harrived.1, hstill⟩)
  constructor
  case idle => exact hidle
  case unsent =>
    intro n hn e he hcaller
    rcases hgrow with hsame | ⟨new, r, plan, hnew, hcall, hafter⟩
    · rw [hsame] at he
      exact h.unsent n (Compose.beforeEngine_step hs hn) e he hcaller
    · rw [hnew] at he
      rcases List.mem_append.mp he with hold | hlast
      · exact h.unsent n (Compose.beforeEngine_step hs hn) e hold hcaller
      · obtain rfl := List.mem_singleton.mp hlast
        rw [hcaller] at hafter
        exact hafter hn
  case spent =>
    intro n n' k hlt hn hn'
    rw [hmessage] at hn hn'
    exact hspent n (h.spent n n' k hlt hn hn')
  case once =>
    have hreceived : s'.received = s'.compose.log.filterMap fun e => s.messageOf e.caller := by
      unfold State.received
      exact congrArg (List.filterMap · s'.compose.log) (funext fun e => hmessage e.caller)
    rw [hreceived]
    rcases hgrow with hsame | ⟨new, r, plan, hnew, hcall, -⟩
    · rw [hsame]
      exact h.once
    · rw [hnew, List.filterMap_append, List.nodup_append]
      refine ⟨h.once, ?_, fun k hk k' hk' => ?_⟩
      · rw [List.filterMap_cons]
        split
        · exact List.nodup_nil
        · exact List.nodup_singleton _
      · -- An earlier engine call for the message is that of a spent request, or of this one.
        rintro rfl
        obtain ⟨old, hold, hmold⟩ := List.mem_filterMap.mp hk
        obtain ⟨last, hmem, hmnew⟩ := List.mem_filterMap.mp hk'
        rw [List.mem_singleton.mp hmem] at hmnew
        cases hcold : old.caller with
        -- The server's own calls carry no message of the client.
        | other j =>
          rw [hcold] at hmold
          cases hmold
        | client m =>
          cases hcnew : new.caller with
          | other j =>
            rw [hcnew] at hmnew
            cases hmnew
          | client n =>
            rw [hcold] at hmold
            rw [hcnew] at hmnew hcall
            rcases lt_trichotomy m n with hlt | rfl | hgt
            · exact (h.spent m n k hlt hmold hmnew).1 old hold hcold
            · refine h.unsent m ?_ old hold hcold
              rw [hcall]
              trivial
            · have hdone := h.done_of_spent (h.spent n m k hgt hmnew hmold)
              rw [hcall] at hdone
              cases hdone

/-- A request that was on its way is lost or refused. -/
theorem setFate (h : Inv s) {n : ℕ} {fate : Fate} (htravelling : s.fateOf n = some .travelling) :
    Inv (s.setFate n fate) := by
  have hspent : ∀ m, s.Spent m → (s.setFate n fate).Spent m := by
    intro m hm
    -- It was not settled before.
    have hne : m ≠ n := by
      rintro rfl
      -- What is settled is not travelling.
      have hsettled := hm.2
      rw [htravelling] at hsettled
      simp at hsettled
    refine ⟨hm.1, ?_⟩
    rw [fateOf_setFate_of_ne hne]
    exact hm.2
  constructor
  case idle =>
    intro m hm
    by_cases hne : m = n
    · subst hne
      exact h.idle m (by rw [htravelling]; exact nofun)
    · rw [fateOf_setFate_of_ne hne] at hm
      exact h.idle m hm
  case unsent => exact h.unsent
  case spent =>
    intro m m' k hlt hm hm'
    rw [messageOf_setFate] at hm hm'
    exact hspent m (h.spent m m' k hlt hm hm')
  case once =>
    unfold State.received
    simp only [messageOf_setFate]
    exact h.once

/-- The client sends a message whose earlier requests are spent. -/
theorem submit (h : Inv s) {k : ℕ} {composer : Composer}
    (hspent : ∀ n, s.messageOf (.client n) = some k → s.Spent n) :
    Inv { s.setComposer k composer with submissions := s.submissions ++ [⟨k, .travelling⟩] } := by
  -- The new request is the last one.
  have hold : ∀ n, n ≠ s.submissions.length →
      (s.submissions ++ [⟨k, .travelling⟩])[n]? = s.submissions[n]? := by
    intro n hn
    rcases Nat.lt_or_gt_of_ne hn with hlt | hgt
    · exact List.getElem?_append_left hlt
    · rw [List.getElem?_append_right hgt.le, List.getElem?_eq_none hgt.le]
      exact List.getElem?_eq_none (Nat.sub_pos_of_lt hgt)
  have hnew : (s.submissions ++ [⟨k, .travelling⟩])[s.submissions.length]?
      = some ⟨k, .travelling⟩ := List.getElem?_concat_length
  -- There is no request behind the last one yet.
  have hunborn : s.fateOf s.submissions.length = none := by
    unfold State.fateOf
    rw [List.getElem?_eq_none le_rfl]
    rfl
  have hkept : ∀ n, s.Spent n → State.Spent { s.setComposer k composer with
      submissions := s.submissions ++ [⟨k, .travelling⟩] } n := by
    intro n hn
    have hne : n ≠ s.submissions.length := by
      rintro rfl
      have hsettled := hn.2
      rw [hunborn] at hsettled
      simp at hsettled
    refine ⟨hn.1, ?_⟩
    unfold State.fateOf
    rw [hold n hne]
    exact hn.2
  constructor
  case idle =>
    intro n hn
    by_cases hne : n = s.submissions.length
    · rw [hne]
      exact h.idle _ (by rw [hunborn]; exact nofun)
    · unfold State.fateOf at hn
      rw [hold n hne] at hn
      exact h.idle n hn
  case unsent => exact h.unsent
  case spent =>
    intro n n' j hlt hn hn'
    refine hkept n ?_
    unfold State.messageOf at hn hn'
    simp only at hn hn'
    by_cases hne' : n' = s.submissions.length
    · -- The later one is the new request.
      rw [hne'] at hlt
      rw [hold n hlt.ne] at hn
      rw [hne', hnew] at hn'
      obtain rfl := Option.some.inj hn'
      exact hspent n hn
    · have hne : n ≠ s.submissions.length := by
        rintro rfl
        rw [hold n' hne', List.getElem?_eq_none hlt.le] at hn'
        cases hn'
      rw [hold n hne] at hn
      rw [hold n' hne'] at hn'
      exact h.spent n n' j hlt hn hn'
  case once =>
    have hsame : State.received { s.setComposer k composer with
        submissions := s.submissions ++ [⟨k, .travelling⟩] } = s.received := by
      refine List.filterMap_congr fun e he => ?_
      cases hcaller : e.caller with
      | other j => rfl
      | client n =>
        -- A call that has come to the engine has arrived.
        have harrived := h.arrived_of_sent he hcaller
        have hne : n ≠ s.submissions.length := by
          rintro rfl
          rw [hunborn] at harrived
          cases harrived
        unfold State.messageOf
        simp only
        rw [hold n hne]
    rw [hsame]
    exact h.once

section Step

variable [CaseMapping] {env : Env} {normalizeComposeHtml : Text → Text}

/-- The server goes on, with a step that begins no request of the client. -/
theorem server (h : Inv s) {l : Compose.Label Caller} {c : Compose.State Caller}
    (hs : serverStep env s l = some c) : Inv { s with compose := c } := by
  have hstep : (Compose.system env).step s.compose l = some c := by
    unfold serverStep at hs
    split at hs
    · cases hs
    · split at hs
      · exact hs
      · cases hs
    · exact hs
  have hstart : ∀ n r f ids, l ≠ .start (.client n) r f ids := by
    rintro n r f ids rfl
    cases hs
  refine h.compose hstep (fun _ => rfl) (fun _ _ => rfl) (fun n hn => ?_) fun n _ => hstart n
  -- A request that has not arrived is not the server's.
  have hidle := h.idle n hn
  have hcrash : l ≠ .crash (.client n) := by
    rintro rfl
    have hfate : s.fateOf n ≠ some .arrived := hn
    unfold serverStep at hs
    simp only at hs
    rw [if_neg hfate] at hs
    cases hs
  rw [← hidle]
  refine Compose.calls_of_ne hstep (fun habout => ?_) (hstart n) hcrash
  obtain ⟨t, ht⟩ := Compose.exists_activeKey_of_about hstep habout
  rw [hidle] at ht
  cases ht

/-- A request arrives and its call begins. -/
theorem arrive (h : Inv s) {n : ℕ} {r : Compose.Request} {lookupsFail : Bool} {ids : NewIds}
    {c : Compose.State Caller} (htravelling : s.fateOf n = some .travelling)
    (hs : Compose.step env s.compose (.start (.client n) r lookupsFail ids) = some c) :
    Inv { s.setFate n .arrived with compose := c } := by
  have hstep : (Compose.system env).step s.compose (.start (.client n) r lookupsFail ids) = some c :=
    hs
  have hself : (s.setFate n .arrived).fateOf n = some .arrived :=
    fateOf_setFate_self (by rw [htravelling]; rfl)
  -- The request that arrives was travelling, and a spent one was not.
  have hne : ∀ m, s.Spent m → m ≠ n := by
    rintro m hm rfl
    have hsettled := hm.2
    rw [htravelling] at hsettled
    simp at hsettled
  refine h.compose hstep
    (fun c => messageOf_setFate c) (fun m hm => fateOf_setFate_of_ne (hne m hm)) (fun m hm => ?_) ?_
  · have hmn : m ≠ n := by
      rintro rfl
      exact hm hself
    have hsame : (s.setFate n .arrived).fateOf m = s.fateOf m := fateOf_setFate_of_ne hmn
    -- Only this request arrives.
    have hfate : s.fateOf m ≠ some .arrived := by
      rw [← hsame]
      exact hm
    rw [← h.idle m hfate]
    refine Compose.calls_of_ne hstep (fun habout => by cases habout) ?_ fun hcrash => by cases hcrash
    rintro r' f' ids' heq
    exact hmn (Caller.client.inj (Compose.Label.start.inj heq).1).symm
  · rintro m hm r' f' ids' heq
    exact hne m hm (Caller.client.inj (Compose.Label.start.inj heq).1).symm

/-- **One careful step.** -/
theorem step (h : Inv s) {l : Label} (hc : Careful s l)
    (hs : Client.step env normalizeComposeHtml s l = some s') : Inv s' := by
  cases l with
  | submit k =>
    simp only [Client.step] at hs
    split at hs
    · obtain rfl := Option.some.inj hs
      exact h.submit hc
    · cases hs
  | lose n =>
    simp only [Client.step] at hs
    split at hs
    · next htravelling =>
      obtain rfl := Option.some.inj hs
      exact h.setFate htravelling
    · cases hs
  | arrive n uuid lookupsFail ids =>
    simp only [Client.step] at hs
    split at hs
    · next k hsub =>
      -- It is under way.
      have htravelling : s.fateOf n = some .travelling := by
        unfold State.fateOf
        rw [hsub]
        rfl
      split at hs
      · obtain rfl := Option.some.inj hs
        exact h.setFate htravelling
      · split at hs
        · cases hs
        · obtain ⟨c, hstart, rfl⟩ := Option.map_eq_some_iff.mp hs
          exact h.arrive htravelling hstart
    · cases hs
  | server l =>
    obtain ⟨c, hserver, rfl⟩ := Option.map_eq_some_iff.mp hs
    exact h.server hserver
  | fail k =>
    simp only [Client.step] at hs
    split at hs
    · obtain rfl := Option.some.inj hs
      exact ⟨h.idle, h.unsent, h.spent, h.once⟩
    · cases hs
  | answer k =>
    simp only [Client.step] at hs
    split at hs
    · split at hs
      · obtain rfl := Option.some.inj hs
        exact ⟨h.idle, h.unsent, h.spent, h.once⟩
      · cases hs
    · cases hs

theorem initial (h : (system env normalizeComposeHtml).init s) : Inv s := by
  obtain ⟨⟨hcalls, hlog⟩, hsubmissions, -⟩ := h
  constructor
  case idle => exact fun n _ => hcalls (.client n)
  case unsent =>
    intro n _ e he
    rw [hlog] at he
    cases he
  case spent =>
    intro n n' k _ hn
    unfold State.messageOf at hn
    rw [hsubmissions] at hn
    cases hn
  case once =>
    unfold State.received
    rw [hlog]
    exact List.nodup_nil

end Step

end Inv

/-! ### The result -/

/-- **At most once, with careful retries.** In every run of any clients, with requests and
answers lost at any point, server processes that die, and other composes on the same
database, in which a message is submitted again only after its earlier requests are spent,
the engine is called for each message of a client at most once. -/
theorem received_nodup [CaseMapping] (env : Env) (normalizeComposeHtml : Text → Text) {s : State}
    (h : (system env normalizeComposeHtml).ReachableUnder Careful s) : s.received.Nodup := by
  have hinv : Inv s := h.invariant (P := Inv) (fun _ h0 => Inv.initial h0)
    fun _ _ _ _ hi hc hs => hi.step hc hs
  exact hinv.once

/-! ### A message that is sent twice -/

section Examples

/-- A shared mailbox of the engine. -/
def sharedMailbox : MailboxAccount :=
  ⟨"mb", "ws", "me@example.org".toList, none, true, true, false, "stalwart", .shared, none⟩

def sampleEnv : Env :=
  ⟨defaultTrustedComposeSources, true⟩

/-- Every message is to the same address. Nothing has happened yet. -/
def sampleStart : State where
  compose := ⟨{ settings := { mailboxes := [sharedMailbox] } }, fun _ => .idle, []⟩
  drafts _ := ⟨"ws", none, "mb", { to_address := "ada@example.org".toList }⟩
  composers _ := .editing
  submissions := []

theorem sampleStart_init : (system sampleEnv id).init sampleStart :=
  ⟨⟨fun _ => rfl, rfl⟩, rfl, fun _ => rfl⟩

/-- The server composes the `n`-th request of the client, and calls the engine. -/
def serverSteps (n : ℕ) (uuid : String) : List Label :=
  [.arrive n uuid false ⟨uuid, uuid⟩, .server (.commit (.client n)),
    .server (.callEngine (.client n) none ⟨true, some "p", none, none, none⟩),
    .server (.stamp (.client n))]

/-- The first answer is lost, and the message is submitted again. -/
def retrySteps : List Label :=
  [.submit 0] ++ serverSteps 0 "u0" ++ [.fail 0, .submit 0] ++ serverSteps 1 "u1" ++ [.answer 0]

/-- **Sent twice**: the answer to the first request is lost, and the second one goes under
another key. -/
theorem retry_is_sent_twice :
    ∃ s, (system sampleEnv id).Reachable s ∧ s.composers 0 = .recorded ∧ s.received = [0, 0] := by
  have hrun : ((system sampleEnv id).exec sampleStart retrySteps).isSome = true := rfl
  exact ⟨_, System.exec_reachable sampleStart_init (Option.some_get hrun).symm, rfl, rfl⟩

/-- The first request is lost on its way, and the client has seen that it failed. -/
def lostState : State :=
  { (sampleStart.setComposer 0 (.waiting 0)).setComposer 0 .editing with
    submissions := [⟨0, .lost⟩] }

/-- The second one is sent. -/
theorem received_nodup_run :
    ∃ s : State, s.submissions.length = 2 ∧ s.received = [0] ∧ s.received.Nodup := by
  have hstart : (system sampleEnv id).ReachableUnder Careful sampleStart := .init sampleStart_init
  have hfirst := hstart.next (.submit 0) (fun n hn => by cases hn) rfl
  have hfailed := (hfirst.next (.lose 0) trivial rfl).next (.fail 0) trivial rfl
  have hlost : (system sampleEnv id).ReachableUnder Careful lostState := hfailed
  have hcareful : Careful lostState (.submit 0) := by
    intro n hn
    cases n with
    | zero =>
      have hlost : lostState.fateOf 0 = some .lost := rfl
      exact ⟨fun h hh => absurd hh List.not_mem_nil, .inl hlost⟩
    | succ n =>
      have hnone : lostState.messageOf (.client (n + 1)) = none := rfl
      rw [hnone] at hn
      cases hn
  have hagain := hlost.next (.submit 0) hcareful rfl
  -- The rest of the run submits nothing.
  have hrest : ((system sampleEnv id).exec { lostState.setComposer 0 (.waiting 1) with
      submissions := [⟨0, .lost⟩, ⟨0, .travelling⟩] } (serverSteps 1 "u1")).isSome = true := rfl
  have hsent := hagain.exec (by simp [serverSteps, Careful]) (Option.some_get hrest).symm
  exact ⟨_, rfl, rfl, received_nodup sampleEnv id hsent⟩

end Examples

end Client
end EmailOps
