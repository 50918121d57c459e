import EmailOps.Client.UndoSendStanding

/-!
# Where a message sent with undo ends

A message should end in exactly one of three ways: sent once, back in the composer, or reported
as failed. The client does not see to it: when the answer to a cancel that took effect is lost,
the retry is told that there is nothing to cancel, and the poll that the send is cancelled, at
which the bar goes without a word (`cancelled_and_dropped`).

* `Inv.step` keeps the invariant in every careful step; one lemma for each step of the client.
* `message_ends_well` is the result.
-/

namespace EmailOps
namespace UndoSend

open Framework Framework.Text Client Scheduler Compose

section Ends

variable [CaseMapping] {env : Env} {normalizeComposeHtml : Text → Text} {draft : Draft}

/-! ### Requests arrive -/

section Arrivals

variable {s : State} {c : Scheduler.State}

omit [CaseMapping] in
/-- A row is scheduled for the mailbox that was asked for. -/
theorem scheduleSend_mailbox {settings : Settings} {configured : Bool} {ucUid : Option String}
    {workspaceId mailboxId : String} {payload : Json} {sendAt : ℕ} {newId : String}
    {row : ScheduledSend}
    (h : scheduleSend settings configured ucUid workspaceId mailboxId payload sendAt newId
      = some row) : row.mailboxId = mailboxId := by
  unfold scheduleSend at h
  split at h
  · cases h
  · split at h
    · cases h
    · obtain ⟨p, -, rfl⟩ := Option.map_eq_some_iff.mp h
      rfl

/-- **The message is scheduled.** -/
theorem Inv.schedule (h : Inv draft s) (hsound : Sound s.scheduler) {configured : Bool}
    {payload : Json} {sendAt : ℕ} {newId : String}
    (hs : (Scheduler.system env).step s.scheduler (.schedule configured draft.ucUid
      draft.workspaceId draft.mailboxId payload sendAt newId) = some c)
    (hrow : s.row = none) (hstage : s.stage = .scheduling) :
    Inv draft { s.goOn c with row := some newId } := by
  -- What the server does besides, and then the new row.
  have hnext := h.goOn hsound hs trivial (fun _ _ _ _ heq => by cases heq)
    (fun _ _ _ heq => by cases heq) (fun heq => by cases heq)
  have hinv' : Scheduler.Inv c := hsound.inv.step hs
  cases step_sound hs with
  | schedule row hsched hfresh hkey =>
    obtain ⟨hid, hws, hstate⟩ := scheduleSend_some hsched
    have hmem : row ∈ s.scheduler.sends ++ [row] :=
      List.mem_append_right _ (List.mem_singleton_self row)
    constructor
    case row =>
      intro id heq
      obtain rfl := Option.some.inj heq
      exact ⟨row, hmem, hid, hws, scheduleSend_mailbox hsched⟩
    case cancels =>
      intro k hk ws id hcall
      -- Before there is a row no cancel is about one.
      have hnone := hnext.cancels k hk ws id hcall
      rw [show s.row = some id from hnone] at hrow
      cases hrow
    case unposted => exact hnext.unposted
    case sends => exact hnext.sends
    case standing =>
      have hbefore := h.standing
      unfold Standing at hbefore ⊢
      simp only [hstage, State.goOn] at hbefore ⊢
      refine ⟨hbefore.1, ?_, hbefore.2.2⟩
      -- The row of the message is the new one, which is pending.
      rintro ⟨r, hr, heq, hcancelled⟩
      have hsame : r = row := by
        refine eq_of_id_eq hinv'.nodup hr hmem ?_
        rw [hid]
        exact (Option.some.inj heq).symm
      rw [hsame, hstate] at hcancelled
      cases hcancelled

omit [CaseMapping] in
/-- The endpoint asks to send, and names no agent. -/
theorem composeRequest_ok {r : Compose.Request} {uuid : String}
    (hr : composeRequest normalizeComposeHtml draft uuid = .ok r) :
    r.input.mode = .send ∧ r.input.agentKey = schedulerSource := by
  unfold composeRequest at hr
  cases hparse : parseComposePayload draft.body with
  | error e =>
    rw [hparse] at hr
    cases hr
  | ok parsed =>
    rw [hparse] at hr
    obtain rfl := Except.ok.inj hr
    exact ⟨rfl, rfl⟩

/-- **The reads of the client's compose.** Under a new key, from a trusted source that is no
agent's, it plans to send, or fails. -/
theorem sends_planned {db : Db} {r : Compose.Request} {f : Bool} {ids : NewIds} {uuid : String}
    (hr : composeRequest normalizeComposeHtml draft uuid = .ok r)
    (hkey : Compose.hasKey db r.triple = false)
    (hagent : resolveAgent db.settings r.workspaceId r.input = none)
    (htrusted : env.trustedComposeSources.contains schedulerSource = true) :
    Sends [] (planned env db r f ids) := by
  obtain ⟨hsend, hsource⟩ := composeRequest_ok hr
  unfold planned
  split
  · next plan hplan =>
    cases plan with
    | done view =>
      -- A message under the key would have been found by it.
      obtain ⟨m, hm, -⟩ := composePlan_done hplan
      unfold Compose.hasKey at hkey
      rw [List.any_eq_false] at hkey
      have hfound := List.find?_some hm
      exact absurd hfound (hkey m (List.mem_of_find?_eq_some hm))
    | stage msg item =>
      rw [← hsource] at htrusted
      exact absurd hplan (composePlan_ne_stage hagent hsend htrusted)
    | send msg p => exact ⟨msg, p, rfl⟩
  · trivial

end Arrivals

/-! ### The client goes on -/

section Client

omit [CaseMapping]

variable {s s' : State} {bar : Option Phase} {handler : Handler}

/-- The client moves; the scheduler does not, and no request is taken back. -/
theorem Inv.move (h : Inv draft s) (hscheduler : s'.scheduler = s.scheduler)
    (hrow : s'.row = s.row) (hrequests : s.requests ⊆ s'.requests) (hstanding : Standing s') :
    Inv draft s' where
  row id hid := by
    rw [hrow] at hid
    rw [hscheduler]
    exact h.row id hid
  cancels k hk ws id hcall := by
    rw [hscheduler] at hcall
    rw [hrow]
    exact h.cancels k hk ws id hcall
  -- A request that is not among the new ones was not among the old.
  unposted hposted := by
    rw [hscheduler]
    exact h.unposted fun hmem => hposted (hrequests hmem)
  sends := by
    rw [hscheduler]
    exact h.sends
  standing := hstanding

theorem Inv.scheduledAt (h : Inv draft s) (hstage : s.stage = .undoable bar handler) :
    Scheduled s bar handler := by
  have hstanding := h.standing
  unfold Standing at hstanding
  simp only [hstage] at hstanding
  exact hstanding

theorem cancel?_lt {k : ℕ} (hk : handler.cancel? = some k) : k < 3 := by
  unfold Handler.cancel? at hk
  split at hk <;> simp at hk <;> omega

theorem watching_awaitVerdict (hbar : watching bar = true) : watching (awaitVerdict bar) = true := by
  cases bar with
  | none => cases hbar
  | some p => cases p <;> rfl

theorem Inv.rowIs_cancelled (h : Inv draft s) (hsound : Sound s.scheduler) {k : ℕ}
    {ws id : String} (hk : k < 3) (hcall : s.scheduler.cancels k = .returned ws id true) :
    s.RowIs .cancelled := by
  have hrow := h.cancels k hk ws id (.inr ⟨true, hcall⟩)
  obtain ⟨r, hr, rfl, hstate⟩ := hsound.inv.cancelled k ws id hcall
  exact ⟨r, hr, hrow, hstate⟩

/-- A live message's bar awaits the verdict. -/
theorem Inv.awaitVerdict (h : Inv draft s) (hlive : Scheduled s bar handler)
    (hcancelled : ¬s.RowIs .cancelled) :
    Inv draft { s with stage := .undoable (UndoSend.awaitVerdict bar) .idle } := by
  refine h.move rfl rfl (List.Subset.refl _) ?_
  cases hlive with
  | live hrow hposted _ hhandler hrestored hreported hfailed =>
    refine Scheduled.live hrow hposted hcancelled (by decide) hrestored hreported fun hfails => ?_
    exact (hfailed hfails).imp_right watching_awaitVerdict
  | answering _ _ _ hrow _ => exact absurd hrow hcancelled
  | undone _ _ _ hrow _ _ => exact absurd hrow hcancelled
  | composing _ hrow _ => exact absurd hrow hcancelled
  | composed _ _ hrow _ _ => exact absurd hrow hcancelled

/-- **The answer to a cancel.** -/
theorem Inv.cancelAnswered (h : Inv draft s) (hsound : Sound s.scheduler) {k : ℕ}
    {ws id : String} {cancelled : Bool} (hstage : s.stage = .undoable bar handler)
    (hk : handler.cancel? = some k) (hcall : s.scheduler.cancels k = .returned ws id cancelled)
    (hs : UndoSend.cancelAnswered s bar cancelled handler = some s') : Inv draft s' := by
  have hscheduled := h.scheduledAt hstage
  -- While a cancel is awaited, the message is live, or that cancel took effect.
  have hcases : (cancelled = false ∧ ¬s.RowIs .cancelled) ∨
      (cancelled = true ∧ .compose ∉ s.requests ∧ s.RowIs .cancelled ∧ s.Silent) := by
    cases hscheduled with
    | live hrow hposted hcancelled _ _ _ _ =>
      refine .inl ⟨?_, hcancelled⟩
      rw [← Bool.not_eq_true]
      rintro rfl
      exact hcancelled (h.rowIs_cancelled hsound (cancel?_lt hk) hcall)
    | answering hk' hcall' hposted hcancelled hsilent =>
      obtain rfl := Option.some.inj (hk.symm.trans hk')
      have htrue := (CancelCall.returned.inj (hcall.symm.trans hcall')).2.2
      exact .inr ⟨htrue, hposted, hcancelled, hsilent⟩
    | undone _ hhandler _ _ _ _ =>
      rw [hhandler] at hk
      cases hk
    | composing hhandler _ _ =>
      rw [hhandler] at hk
      cases hk
    | composed hhandler _ _ _ _ =>
      rw [hhandler] at hk
      cases hk
  rcases hcases with ⟨rfl, hcancelled⟩ | ⟨rfl, hposted, hcancelled, hrestored, hreported⟩
  · -- The send is still due, and the bar waits for its end.
    have hs' : s' = { s with stage := .undoable (UndoSend.awaitVerdict bar) .idle } := by
      cases handler with
      | undoing retried => exact (Option.some.inj hs).symm
      | sendingNow => exact (Option.some.inj hs).symm
      | idle => cases hk
      | composing => cases hk
    rw [hs']
    exact h.awaitVerdict hscheduled hcancelled
  · -- The cancel has taken effect.
    cases handler with
    | undoing retried =>
      obtain rfl := Option.some.inj hs
      exact h.move rfl rfl (List.Subset.refl _)
        (Scheduled.undone rfl rfl hposted hcancelled rfl hreported)
    | sendingNow =>
      obtain rfl := Option.some.inj hs
      exact h.move rfl rfl (List.subset_append_left _ _)
        (Scheduled.composing rfl hcancelled ⟨hrestored, hreported⟩)
    | idle => cases hk
    | composing => cases hk

/-- **A cancel that fails**, without having taken effect. -/
theorem Inv.cancelFailed (h : Inv draft s) (hstage : s.stage = .undoable bar handler)
    (hcare : ∀ k ws id, handler.cancel? = some k →
      s.scheduler.cancels k ≠ .returned ws id true)
    (hs : UndoSend.cancelFailed s bar handler = some s') : Inv draft s' := by
  have hscheduled := h.scheduledAt hstage
  have hawaited : handler.cancel? ≠ none := by
    cases handler with
    | undoing retried => cases retried <;> exact Option.some_ne_none _
    | sendingNow => exact Option.some_ne_none _
    | idle => cases hs
    | composing => cases hs
  cases hscheduled with
  | live hrow hposted hcancelled hhandler hrestored hreported hfailed =>
    -- The handler asks again, or leaves the send to the bar.
    have hlive : Scheduled s bar handler :=
      .live hrow hposted hcancelled hhandler hrestored hreported hfailed
    cases handler with
    | undoing retried =>
      cases retried with
      | false =>
        obtain rfl := Option.some.inj hs
        refine h.move rfl rfl (List.subset_append_left _ _) ?_
        refine Scheduled.live hrow (fun hmem => ?_) hcancelled (by decide) hrestored hreported hfailed
        rcases List.mem_append.mp hmem with hold | hnew
        · exact hposted hold
        · cases List.mem_singleton.mp hnew
      | true =>
        obtain rfl := Option.some.inj hs
        exact h.awaitVerdict hlive hcancelled
    | sendingNow =>
      obtain rfl := Option.some.inj hs
      exact h.awaitVerdict hlive hcancelled
    | idle => exact absurd rfl hawaited
    | composing => exact absurd rfl hawaited
  -- The condition on the step: a cancel that took effect is answered.
  | answering hk hcall _ _ _ => exact absurd hcall (hcare _ _ _ hk)
  | undone _ hhandler _ _ _ _ => exact absurd (by rw [hhandler]; rfl) hawaited
  | composing hhandler _ _ => exact absurd (by rw [hhandler]; rfl) hawaited
  | composed hhandler _ _ _ _ => exact absurd (by rw [hhandler]; rfl) hawaited

/-- **The compose of the message ends**, with the truth told. -/
theorem Inv.composeEnded (h : Inv draft s) {sent : Bool} (hsent : sent = true ↔ s.SentNow)
    (hshown : sent = false → s.stage ≠ .undoable none .composing)
    (hs : UndoSend.composeEnded s sent = some s') : Inv draft s' := by
  have hstanding := h.standing
  -- What the compose answers is what the engine said.
  have hnot : sent = false → ¬s.SentNow := by
    rintro rfl hnow
    cases hsent.mpr hnow
  unfold UndoSend.composeEnded at hs
  split at hs
  · next hstage =>
    unfold Standing at hstanding
    simp only [hstage] at hstanding
    obtain ⟨hrow, hrestored, hreported⟩ := hstanding
    cases sent with
    | true =>
      obtain rfl := Option.some.inj hs
      refine h.move rfl rfl (List.Subset.refl _) ⟨hrow, hrestored, ?_⟩
      exact ⟨fun hr => absurd hreported (by rw [show s.reported = true from hr]; decide),
        fun hn => absurd (hsent.mp rfl) hn⟩
    | false =>
      obtain rfl := Option.some.inj hs
      refine h.move rfl rfl (List.Subset.refl _) ⟨hrow, hrestored, ?_⟩
      exact ⟨fun _ => hnot rfl, fun _ => Bool.or_true _⟩
  · next bar hstage =>
    cases h.scheduledAt hstage with
    -- The handler composes only after a cancel that took effect.
    | live _ _ _ hhandler _ _ _ => exact absurd rfl hhandler
    | answering hk _ _ _ _ => cases hk
    | undone _ hhandler _ _ _ _ => cases hhandler
    | composed hhandler _ _ _ _ => cases hhandler
    | composing _ hcancelled hsilent =>
      cases sent with
      | true =>
        obtain rfl := Option.some.inj hs
        refine h.move rfl rfl (List.Subset.refl _) ?_
        refine Scheduled.composed rfl (by cases bar <;> rfl) hcancelled hsilent.1 ?_
        exact ⟨fun hr => absurd hsilent.2 (by rw [show s.reported = true from hr]; decide),
          fun hn => absurd (hsent.mp rfl) hn⟩
      | false =>
        -- The bar is there to say so.
        obtain rfl := Option.some.inj hs
        refine h.move rfl rfl (List.Subset.refl _) ?_
        refine Scheduled.composed rfl (by cases bar <;> rfl) hcancelled hsilent.1 ?_
        have hbar : bar.isSome = true := by
          cases bar with
          | none => exact absurd hstage (hshown rfl)
          | some p => rfl
        refine ⟨fun _ => hnot rfl, fun _ => ?_⟩
        change (s.reported || bar.isSome) = true
        rw [hbar]
        exact Bool.or_true _
  · cases hs

/-- A send that has failed was not cancelled, so that the client is as after the schedule. -/
theorem Inv.live_of_failed (h : Inv draft s) (hsound : Sound s.scheduler)
    (hstage : s.stage = .undoable bar handler) (hfails : s.RowIs .failed) :
    s.row ≠ none ∧ .compose ∉ s.requests ∧ ¬s.RowIs .cancelled ∧ handler ≠ .composing ∧
      s.restored = false ∧ (s.reported = true ∨ watching bar = true) := by
  have hother : ¬s.RowIs .cancelled := by
    intro hcancelled
    cases rowIs_unique hsound.inv.nodup hfails hcancelled
  cases h.scheduledAt hstage with
  | live hrow hposted _ hhandler hrestored _ hfailed =>
    exact ⟨hrow, hposted, hother, hhandler, hrestored, hfailed hfails⟩
  | answering _ _ _ hcancelled _ => exact absurd hcancelled hother
  | undone _ _ _ hcancelled _ _ => exact absurd hcancelled hother
  | composing _ hcancelled _ => exact absurd hcancelled hother
  | composed _ _ hcancelled _ _ => exact absurd hcancelled hother

theorem Inv.failed_shown (h : Inv draft s) (hsound : Sound s.scheduler)
    (hstage : s.stage = .undoable bar handler) (hfails : s.RowIs .failed) :
    s.reported = true ∨ watching bar = true := by
  obtain ⟨-, -, -, -, -, hshown⟩ := h.live_of_failed hsound hstage hfails
  exact hshown

/-- **The bar changes.** It may go when there is no failure left to show. -/
theorem Inv.rebar (h : Inv draft s) {p : Phase} {bar' : Option Phase}
    (hstage : s.stage = .undoable (some p) handler)
    (hlive : s.RowIs .failed → s.reported = true ∨ watching bar' = true)
    (hcomposed : p.settled = true → watching bar' = false) :
    Inv draft { s with stage := .undoable bar' handler } := by
  refine h.move rfl rfl (List.Subset.refl _) ?_
  cases h.scheduledAt hstage with
  | live hrow hposted hcancelled hhandler hrestored hreported _ =>
    exact Scheduled.live hrow hposted hcancelled hhandler hrestored hreported hlive
  | answering hk hcall hposted hcancelled hsilent =>
    exact Scheduled.answering hk hcall hposted hcancelled hsilent
  | undone hbar _ _ _ _ _ => cases hbar
  | composing hhandler hcancelled hsilent => exact Scheduled.composing hhandler hcancelled hsilent
  | composed hhandler hbar hcancelled hrestored htold =>
    -- A bar that has settled does not watch, and neither does the next one.
    have hsettled : p.settled = true := by
      unfold watching at hbar
      rw [Option.any_some, Bool.not_eq_false'] at hbar
      exact hbar
    exact Scheduled.composed hhandler (hcomposed hsettled) hcancelled hrestored htold

/-- **A poll.** -/
theorem Inv.verified (h : Inv draft s) (hsound : Sound s.scheduler) {polls : ℕ}
    {verdict : Option ScheduledSendState}
    (hstage : s.stage = .undoable (some (.sending polls)) handler)
    (htrue : ∀ state, verdict = some state → s.RowIs state)
    (hseen : verifyAttempts ≤ polls + 1 → s.RowIs .failed → s.reported = false →
      verdict = some .failed) : Inv draft (UndoSend.verified s polls handler verdict) := by
  have hnodup := hsound.inv.nodup
  -- A bar that polls has not settled.
  have hpolling : Phase.settled (.sending polls) = true → ∀ bar', watching bar' = false := by
    intro hsettled
    cases hsettled
  unfold UndoSend.verified
  split
  · -- A row that is sent has not failed.
    refine h.rebar hstage (fun hfails => ?_) fun hp => hpolling hp _
    cases rowIs_unique hnodup hfails (htrue _ rfl)
  · -- The row has failed, and that is reported.
    have hfails := htrue _ rfl
    obtain ⟨hrow, hposted, hcancelled, hhandler, hrestored, -⟩ :=
      h.live_of_failed hsound hstage hfails
    refine h.move rfl rfl (List.Subset.refl _) ?_
    exact Scheduled.live hrow hposted hcancelled hhandler hrestored (fun _ => hfails)
      fun _ => .inl (Bool.or_true _)
  · -- Nor has a row that is cancelled.
    refine h.rebar hstage (fun hfails => ?_) fun hp => hpolling hp _
    cases rowIs_unique hnodup hfails (htrue _ rfl)
  · next hsent hfailed hcancelled =>
    split
    · exact h.rebar hstage (fun _ => .inr rfl) fun hp => hpolling hp _
    · next hlast =>
      -- The bar goes: a failure would have been read, or has been reported.
      refine h.rebar hstage (fun hfails => .inl ?_) fun hp => hpolling hp _
      by_contra hquiet
      exact hfailed (hseen (Nat.not_lt.mp hlast) hfails (Bool.not_eq_true _ ▸ hquiet))

/-- **A click** on the bar that counts down: a cancel is awaited. -/
theorem Inv.click (h : Inv draft s) (hstage : s.stage = .undoable (some .counting) .idle)
    (hhandler : handler ≠ .composing) (k : ℕ) :
    Inv draft (s.ask (.undoable (some .counting) handler) (.cancel k)) := by
  refine h.move rfl rfl (List.subset_append_left _ _) ?_
  cases h.scheduledAt hstage with
  | live hrow hposted hcancelled _ hrestored hreported _ =>
    refine Scheduled.live hrow (fun hmem => ?_) hcancelled hhandler hrestored hreported
      fun _ => .inr rfl
    rcases List.mem_append.mp hmem with hold | hnew
    · exact hposted hold
    · cases List.mem_singleton.mp hnew
  | answering hk _ _ _ _ => cases hk
  | undone hbar _ _ _ _ _ => cases hbar
  | composing hidle _ _ => cases hidle
  | composed _ hbar _ _ _ => cases hbar

/-- The message leaves the composer. -/
theorem Inv.send (h : Inv draft s) (hstage : s.stage = .editing) {stage : Stage} {r : Request}
    (hstands : (stage = .posting ∧ r = .compose) ∨ (stage = .scheduling ∧ r = .schedule)) :
    Inv draft (s.ask stage r) := by
  have hstanding := h.standing
  unfold Standing at hstanding
  simp only [hstage] at hstanding
  obtain ⟨hrequests, hrow, hsilent⟩ := hstanding
  refine h.move rfl rfl (List.subset_append_left _ _) ?_
  rcases hstands with ⟨rfl, rfl⟩ | ⟨rfl, rfl⟩
  · exact ⟨hrow, hsilent⟩
  · refine ⟨fun hmem => ?_, not_rowIs_of_none hrow, hsilent⟩
    change Request.compose ∈ s.requests ++ [.schedule] at hmem
    rw [hrequests] at hmem
    cases List.mem_singleton.mp hmem

/-- **The answer to the schedule request.** -/
theorem Inv.scheduled (h : Inv draft s) (hstage : s.stage = .scheduling) (hrow : s.row ≠ none) :
    Inv draft { s with stage := .undoable (some .counting) .idle } := by
  have hstanding := h.standing
  unfold Standing at hstanding
  simp only [hstage] at hstanding
  obtain ⟨hposted, hcancelled, hrestored, hreported⟩ := hstanding
  refine h.move rfl rfl (List.Subset.refl _) ?_
  refine Scheduled.live hrow hposted hcancelled (by decide) hrestored (fun hr => ?_) fun _ => .inr rfl
  rw [show s.reported = true from hr] at hreported
  cases hreported

/-- The message is not scheduled. -/
theorem Inv.unscheduled (h : Inv draft s) (hsound : Sound s.scheduler)
    (hstage : s.stage = .scheduling) (hrow : s.row = none) :
    Inv draft (s.report .closed true) ∧ Inv draft (s.ask .posting .compose) := by
  have hstanding := h.standing
  unfold Standing at hstanding
  simp only [hstage] at hstanding
  obtain ⟨hposted, -, hrestored, hreported⟩ := hstanding
  constructor
  · refine h.move rfl rfl (List.Subset.refl _) ⟨hrow, hrestored, ?_⟩
    exact ⟨fun _ => h.not_sentNow hsound hposted, fun _ => Bool.or_true _⟩
  · exact h.move rfl rfl (List.subset_append_left _ _) ⟨hrow, hrestored, hreported⟩

end Client

/-! ### Every careful step -/

section Step

variable {s s' : State} {l : Label}

/-- The server's own steps begin no call of the client. -/
theorem serverStep_sound {l : Scheduler.Label} {c : Scheduler.State}
    (hs : serverStep env s l = some c) :
    (Scheduler.system env).step s.scheduler l = some c ∧
      (∀ k ucUid ws id, l = .cancelRead k ucUid ws id → 3 ≤ k) ∧
        (∀ r f ids, l ≠ .compose (.start own r f ids)) ∧
          (l = .compose (.crash own) → s.scheduler.compose.calls own ≠ .idle) := by
  unfold serverStep at hs
  split at hs
  · next k ucUid ws id =>
    split at hs
    · cases hs
    · next hk =>
      -- The client's own cancels have the numbers below.
      refine ⟨hs, fun k' _ _ _ heq => ?_, fun _ _ _ heq => (by cases heq), fun heq => (by cases heq)⟩
      cases heq
      exact Nat.not_lt.mp hk
  · cases hs
  · split at hs
    · next hactive =>
      refine ⟨hs, fun _ _ _ _ heq => (by cases heq), fun _ _ _ heq => (by cases heq), fun _ hidle => ?_⟩
      rw [hidle] at hactive
      cases hactive
    · cases hs
  · next hread hstart hcrash =>
    refine ⟨hs, fun k ucUid ws id heq => ?_, fun r f ids heq => ?_, fun heq => ?_⟩
    · exact absurd heq (hread k ucUid ws id)
    · exact absurd heq (hstart r f ids)
    · exact absurd heq hcrash

/-- **A careful step keeps the invariant.** -/
theorem Inv.step (h : Inv draft s) (hsound : Sound s.scheduler)
    (hc : Careful env normalizeComposeHtml draft s l)
    (hs : (system env normalizeComposeHtml draft).step s l = some s') : Inv draft s' := by
  change UndoSend.step env normalizeComposeHtml draft s l = some s' at hs
  cases l with
  | send direct =>
    simp only [UndoSend.step] at hs
    split at hs
    · next hstage =>
      split at hs
      · obtain rfl := Option.some.inj hs
        exact h.send hstage (.inl ⟨rfl, rfl⟩)
      · obtain rfl := Option.some.inj hs
        exact h.send hstage (.inr ⟨rfl, rfl⟩)
    · cases hs
  | schedule configured sendAt newId =>
    simp only [UndoSend.step] at hs
    split at hs
    · next hasked =>
      obtain ⟨c, hstep, rfl⟩ := Option.map_eq_some_iff.mp hs
      have hscheduled : (Scheduler.system env).step s.scheduler (.schedule configured draft.ucUid
        draft.workspaceId draft.mailboxId (schedulePayload draft.body).toJson sendAt newId) =
          some c := hstep
      exact h.schedule hsound hscheduled hasked.2 hc
    · cases hs
  | scheduled =>
    simp only [UndoSend.step] at hs
    split at hs
    · next id hstage hrow =>
      obtain rfl := Option.some.inj hs
      exact h.scheduled hstage (by rw [hrow]; exact Option.some_ne_none id)
    · cases hs
  | unscheduled ambiguous =>
    simp only [UndoSend.step] at hs
    split at hs
    · next hstage =>
      obtain ⟨hclosed, hposting⟩ := h.unscheduled hsound hstage hc
      split at hs <;> obtain rfl := Option.some.inj hs
      · exact hclosed
      · exact hposting
    · cases hs
  | undo =>
    simp only [UndoSend.step] at hs
    split at hs
    · next hstage =>
      obtain rfl := Option.some.inj hs
      exact h.click hstage (by decide) 0
    · cases hs
  | sendNow =>
    simp only [UndoSend.step] at hs
    split at hs
    · next hstage =>
      obtain rfl := Option.some.inj hs
      exact h.click hstage (by decide) 2
    · cases hs
  | windowCloses =>
    simp only [UndoSend.step] at hs
    split at hs
    · next hstage =>
      obtain rfl := Option.some.inj hs
      exact h.rebar hstage (fun _ => .inr rfl) fun hp => by cases hp
    · cases hs
  | cancelArrives k =>
    simp only [UndoSend.step] at hs
    split at hs
    · next id hrow =>
      split at hs
      · obtain ⟨c, hstep, rfl⟩ := Option.map_eq_some_iff.mp hs
        have hread : (Scheduler.system env).step s.scheduler (.cancelRead k draft.ucUid
          draft.workspaceId id) = some c := hstep
        refine h.goOn hsound hread trivial (fun _ _ _ _ heq _ => ?_)
          (fun _ _ _ heq => by cases heq) (fun heq => by cases heq)
        cases heq
        exact hrow
      · cases hs
    · cases hs
  | cancelAnswer =>
    simp only [UndoSend.step] at hs
    split at hs
    · next bar handler hstage =>
      split at hs
      · next ws id cancelled hcall =>
        obtain ⟨k, hk, hreturned⟩ := Option.map_eq_some_iff.mp hcall
        exact h.cancelAnswered hsound hstage hk hreturned hs
      · cases hs
    · cases hs
  | cancelError =>
    simp only [UndoSend.step] at hs
    split at hs
    · next bar handler hstage =>
      exact h.cancelFailed hstage (fun k ws id hk => hc bar handler k ws id hstage hk) hs
    · cases hs
  | composeArrives uuid lookupsFail ids =>
    simp only [UndoSend.step] at hs
    split at hs
    · next hposted =>
      split at hs
      · cases hs
      · next r hr =>
        split at hs
        · cases hs
        · next hkey =>
          obtain ⟨c, hstep, rfl⟩ := Option.map_eq_some_iff.mp hs
          obtain ⟨-, hagent, htrusted⟩ := hc r hr
          have hstart : (Scheduler.system env).step s.scheduler
            (.compose (.start own r lookupsFail ids)) = some c := hstep
          refine h.goOn hsound hstart trivial (fun _ _ _ _ heq => by cases heq)
            (fun r' f ids' heq => ?_) (fun heq => by cases heq)
          cases heq
          exact ⟨hposted, sends_planned hr (Bool.not_eq_true _ ▸ hkey) hagent htrusted⟩
    · cases hs
  | composeAnswer =>
    simp only [UndoSend.step] at hs
    split at hs
    · next view hview =>
      refine h.composeEnded ?_ (fun hfailed => ?_) hs
      · rcases h.sentNow_iff_status hsound hview with ⟨hnow, hstatus⟩ | ⟨hnot, hstatus⟩
        · rw [hstatus]
          exact ⟨fun _ => hnow, fun _ => by cases s.stage <;> rfl⟩
        · rw [hstatus]
          refine ⟨fun htaken => ?_, fun hnow => absurd hnow hnot⟩
          cases hst : s.stage <;> rw [hst] at htaken <;> cases htaken
      · refine hc view hview ?_
        rcases h.sentNow_iff_status hsound hview with ⟨-, hstatus⟩ | ⟨-, hstatus⟩
        · rw [hstatus] at hfailed
          cases hst : s.stage <;> rw [hst] at hfailed <;> cases hfailed
        · exact hstatus
    · cases hs
  | composeError =>
    have hunsent : false = true ↔ s.SentNow :=
      ⟨fun hfalse => (by cases hfalse), fun hnow => absurd hnow hc.2⟩
    exact h.composeEnded hunsent (fun _ => hc.1) hs
  | verify answered =>
    simp only [UndoSend.step] at hs
    split at hs
    · next polls handler hstage =>
      obtain rfl := Option.some.inj hs
      refine h.verified hsound hstage (fun state hverdict => ?_) fun hlast hfails hquiet => ?_
      · split at hverdict
        · exact (h.verdict_eq_some hsound).mp hverdict
        · cases hverdict
      · rw [if_pos (hc polls handler hstage hlast hfails hquiet)]
        exact (h.verdict_eq_some hsound).mpr hfails
    · cases hs
  | dismiss =>
    simp only [UndoSend.step] at hs
    split at hs
    · next handler hstage =>
      obtain rfl := Option.some.inj hs
      refine h.rebar hstage (fun hfails => .inl ?_) fun _ => rfl
      exact (h.failed_shown hsound hstage hfails).resolve_right (by decide)
    · next handler hstage =>
      obtain rfl := Option.some.inj hs
      refine h.rebar hstage (fun hfails => .inl ?_) fun _ => rfl
      exact (h.failed_shown hsound hstage hfails).resolve_right (by decide)
    · cases hs
  | replace =>
    simp only [UndoSend.step] at hs
    split at hs
    · next p handler hstage =>
      obtain rfl := Option.some.inj hs
      exact h.rebar hstage (fun hfails => .inl (hc hfails)) fun _ => rfl
    · cases hs
  | server l =>
    obtain ⟨c, hserver, rfl⟩ := Option.map_eq_some_iff.mp hs
    obtain ⟨hstep, hread, hstart, hcrash⟩ := serverStep_sound hserver
    refine h.goOn hsound hstep hc.2 (fun k ucUid ws id heq hk => ?_)
      (fun r f ids heq => absurd heq (hstart r f ids)) hcrash
    have hthree := hread k ucUid ws id heq
    omega

omit [CaseMapping] in
private theorem cancelAnswered_scheduler {bar : Option Phase} {cancelled : Bool}
    {handler : Handler} (hs : cancelAnswered s bar cancelled handler = some s') :
    s'.scheduler = s.scheduler := by
  unfold cancelAnswered at hs
  split at hs
  · split at hs <;> obtain rfl := Option.some.inj hs <;> rfl
  · split at hs <;> obtain rfl := Option.some.inj hs <;> rfl
  · cases hs

omit [CaseMapping] in
private theorem cancelFailed_scheduler {bar : Option Phase} {handler : Handler}
    (hs : cancelFailed s bar handler = some s') : s'.scheduler = s.scheduler := by
  unfold cancelFailed at hs
  split at hs
  · obtain rfl := Option.some.inj hs
    rfl
  · obtain rfl := Option.some.inj hs
    rfl
  · obtain rfl := Option.some.inj hs
    rfl
  · cases hs

omit [CaseMapping] in
private theorem composeEnded_scheduler {sent : Bool} (hs : composeEnded s sent = some s') :
    s'.scheduler = s.scheduler := by
  unfold composeEnded at hs
  split at hs
  · split at hs <;> obtain rfl := Option.some.inj hs <;> rfl
  · split at hs <;> obtain rfl := Option.some.inj hs <;> rfl
  · cases hs

omit [CaseMapping] in
private theorem verified_scheduler {polls : ℕ} {handler : Handler}
    {verdict : Option ScheduledSendState} :
    (verified s polls handler verdict).scheduler = s.scheduler := by
  unfold verified
  split
  · rfl
  · rfl
  · rfl
  · split <;> rfl

/-- **A careful step leaves the scheduler or is a careful step of it.** -/
theorem scheduler_step (hc : Careful env normalizeComposeHtml draft s l)
    (hs : (system env normalizeComposeHtml draft).step s l = some s') :
    s'.scheduler = s.scheduler ∨ ∃ l', Scheduler.Careful env s.scheduler l' ∧
      (Scheduler.system env).step s.scheduler l' = some s'.scheduler := by
  change UndoSend.step env normalizeComposeHtml draft s l = some s' at hs
  cases l with
  | schedule configured sendAt newId =>
    simp only [UndoSend.step] at hs
    split at hs
    · obtain ⟨c, hstep, rfl⟩ := Option.map_eq_some_iff.mp hs
      exact .inr ⟨.schedule configured draft.ucUid draft.workspaceId draft.mailboxId
        (schedulePayload draft.body).toJson sendAt newId, trivial, hstep⟩
    · cases hs
  | cancelArrives k =>
    simp only [UndoSend.step] at hs
    split at hs
    · next id hrow =>
      split at hs
      · obtain ⟨c, hstep, rfl⟩ := Option.map_eq_some_iff.mp hs
        exact .inr ⟨.cancelRead k draft.ucUid draft.workspaceId id, trivial, hstep⟩
      · cases hs
    · cases hs
  | composeArrives uuid lookupsFail ids =>
    simp only [UndoSend.step] at hs
    split at hs
    · split at hs
      · cases hs
      · next r hr =>
        split at hs
        · cases hs
        · obtain ⟨c, hstep, rfl⟩ := Option.map_eq_some_iff.mp hs
          exact .inr ⟨.compose (.start own r lookupsFail ids), (hc r hr).1, hstep⟩
    · cases hs
  | server l =>
    obtain ⟨c, hserver, rfl⟩ := Option.map_eq_some_iff.mp hs
    exact .inr ⟨l, hc.1, (serverStep_sound hserver).1⟩
  | cancelAnswer =>
    simp only [UndoSend.step] at hs
    split at hs
    · split at hs
      · exact .inl (cancelAnswered_scheduler hs)
      · cases hs
    · cases hs
  | cancelError =>
    simp only [UndoSend.step] at hs
    split at hs
    · exact .inl (cancelFailed_scheduler hs)
    · cases hs
  | composeAnswer =>
    simp only [UndoSend.step] at hs
    split at hs
    · exact .inl (composeEnded_scheduler hs)
    · cases hs
  | composeError => exact .inl (composeEnded_scheduler hs)
  | verify answered =>
    simp only [UndoSend.step] at hs
    split at hs
    · obtain rfl := Option.some.inj hs
      exact .inl verified_scheduler
    · cases hs
  | _ =>
    -- The other steps are the client's own.
    left
    simp only [UndoSend.step] at hs
    grind [State.ask, State.report]

end Step

/-! ### The result -/

/-- A careful run is one of the scheduler. -/
theorem scheduler_of_reachable {s : State}
    (h : (system env normalizeComposeHtml draft).ReachableUnder
      (Careful env normalizeComposeHtml draft) s) :
    (Scheduler.system env).ReachableUnder (Scheduler.Careful env) s.scheduler := by
  refine h.invariant
    (P := fun s => (Scheduler.system env).ReachableUnder (Scheduler.Careful env) s.scheduler)
    (fun s (h0 : (system env normalizeComposeHtml draft).init s) => .init h0.1)
    fun s l s' _ hr hc hs => ?_
  rcases scheduler_step hc hs with hsame | ⟨l', hcare, hstep⟩
  · rw [hsame]
    exact hr
  · exact .step hr hcare hstep

theorem sound_of_reachable {c : Scheduler.State}
    (h : (Scheduler.system env).ReachableUnder (Scheduler.Careful env) c) : Sound c where
  inv := Scheduler.inv_of_reachable h.reachable
  truth := truth_of_reachable h
  shows := shows_of_reachable ((toCompose env).reachable h.reachable) own
  row := rowInv_of_reachable ((toCompose env).reachable h.reachable)
  once t := Once.spent_le_one ((toOnce env).reachable ((toCompose env).reachable h.reachable)) t

/-- The invariant holds in every state of a careful run. -/
theorem inv_of_reachable {s : State}
    (h : (system env normalizeComposeHtml draft).ReachableUnder
      (Careful env normalizeComposeHtml draft) s) : Inv draft s := by
  refine h.invariant (P := Inv draft) (fun s h0 => ?_)
    fun s l s' hr hi hc hs => hi.step (sound_of_reachable (scheduler_of_reachable hr)) hc hs
  obtain ⟨⟨⟨hcalls, -⟩, -, -, hcancels⟩, hstage, hrow, hrequests, hrestored, hreported⟩ := h0
  constructor
  case row =>
    intro id hid
    rw [hrow] at hid
    cases hid
  case cancels =>
    intro k _ ws id hcall
    rw [hcancels k] at hcall
    rcases hcall with hcall | ⟨b, hcall⟩ <;> cases hcall
  case unposted => exact fun _ => hcalls own
  case sends =>
    rw [hcalls own]
    trivial
  case standing =>
    unfold Standing
    rw [hstage]
    exact ⟨hrequests, hrow, hrestored, hreported⟩

section Copies

omit [CaseMapping]

variable {s : State}

/-- The engine has accepted no copy. -/
theorem copies_eq_zero (hnow : ¬s.SentNow)
    (hrow : ∀ id, s.row = some id → ¬Accepted s.scheduler.compose.log (rowKey draft id)) :
    s.copies draft = 0 := by
  unfold State.copies
  rw [List.countP_eq_zero]
  intro e he hcopy
  unfold State.isCopy at hcopy
  simp only [Bool.and_eq_true, Bool.or_eq_true, decide_eq_true_eq, Option.any_eq_true] at hcopy
  obtain ⟨haccepted, hown | ⟨id, hid, hkey⟩⟩ := hcopy
  · exact hnow ⟨e, he, hown, haccepted⟩
  · exact hrow id hid ⟨e, he, hkey, haccepted⟩

/-- It has accepted that of the scheduled send. -/
theorem copies_eq_one_of_row (honce : ∀ t, engineCalls s.scheduler.compose.log t ≤ 1)
    (hnow : ¬s.SentNow) {id : String} (hid : s.row = some id)
    (haccepted : Accepted s.scheduler.compose.log (rowKey draft id)) : s.copies draft = 1 := by
  have hle : s.copies draft ≤ engineCalls s.scheduler.compose.log (rowKey draft id) := by
    refine List.countP_mono_left fun e he hcopy => ?_
    unfold State.isCopy at hcopy
    simp only [hid, Option.any_some, Bool.and_eq_true, Bool.or_eq_true, decide_eq_true_eq]
      at hcopy
    obtain ⟨hyes, hown | hkey⟩ := hcopy
    · exact absurd ⟨e, he, hown, hyes⟩ hnow
    · exact decide_eq_true hkey
  have hpos : 0 < s.copies draft := by
    obtain ⟨e, he, hkey, hyes⟩ := haccepted
    refine List.countP_pos_iff.mpr ⟨e, he, ?_⟩
    unfold State.isCopy
    simp [hid, hkey, hyes]
  have hone := honce (rowKey draft id)
  omega

/-- It has accepted that of the client's compose. -/
theorem copies_eq_one_of_sentNow (hnow : s.SentNow)
    (hmade : (handOffs s.scheduler.compose.log own).length ≤ 1)
    (hrow : ∀ id, s.row = some id → ¬Accepted s.scheduler.compose.log (rowKey draft id)) :
    s.copies draft = 1 := by
  have hle : s.copies draft ≤ (handOffs s.scheduler.compose.log own).length := by
    unfold handOffs
    rw [← List.countP_eq_length_filter]
    refine List.countP_mono_left fun e he hcopy => ?_
    unfold State.isCopy at hcopy
    simp only [Bool.and_eq_true, Bool.or_eq_true, decide_eq_true_eq, Option.any_eq_true] at hcopy
    obtain ⟨hyes, hown | ⟨id, hid, hkey⟩⟩ := hcopy
    · exact decide_eq_true hown
    · exact absurd ⟨e, he, hkey, hyes⟩ (hrow id hid)
  have hpos : 0 < s.copies draft := by
    obtain ⟨e, he, hown, hyes⟩ := hnow
    refine List.countP_pos_iff.mpr ⟨e, he, ?_⟩
    unfold State.isCopy
    simp [hown, hyes]
  omega

/-- What the engine did with the scheduled send, by the state of its row. -/
theorem Inv.accepted_row (h : Inv draft s) (hsound : Sound s.scheduler)
    {state : ScheduledSendState} (hstate : s.RowIs state) :
    ∃ id, s.row = some id ∧ (state = .sent → Accepted s.scheduler.compose.log (rowKey draft id)) ∧
      (state = .failed ∨ state = .cancelled →
        ¬Accepted s.scheduler.compose.log (rowKey draft id)) := by
  obtain ⟨r, hr, hrow, rfl⟩ := hstate
  obtain ⟨r', hr', hid, hws, -⟩ := h.row r.id hrow
  obtain rfl := eq_of_id_eq hsound.inv.nodup hr' hr hid
  have hkey : r'.key = rowKey draft r'.id := by
    unfold ScheduledSend.key rowKey
    rw [hws]
  have htold := hsound.truth.rows r' hr
  rw [hkey] at htold
  refine ⟨r'.id, hrow, fun hsent => ?_, fun hstate => ?_⟩
  · rw [hsent] at htold
    exact htold
  · rcases hstate with hfailed | hcancelled
    · rw [hfailed] at htold
      exact htold
    · rw [hcancelled] at htold
      exact not_accepted_of_no_row hsound.row.logged htold

/-- A message that is not live and whose row is cancelled ends well when told the truth. -/
theorem endsWell_of_told (hsound : Sound s.scheduler)
    (hrow : ∀ id, s.row = some id → ¬Accepted s.scheduler.compose.log (rowKey draft id))
    (hrestored : s.restored = false) (htold : s.reported = true ↔ ¬s.SentNow) :
    s.EndsWell draft := by
  by_cases hnow : s.SentNow
  · have hquiet : s.reported = false := by
      rw [← Bool.not_eq_true]
      intro hreported
      exact htold.mp hreported hnow
    exact .inl ⟨copies_eq_one_of_sentNow hnow hsound.shows.length_le_one hrow, hrestored, hquiet⟩
  · exact .inr (.inr ⟨copies_eq_zero hnow hrow, hrestored, htold.mpr hnow⟩)

/-- **A message that has come to its end ends well.** -/
theorem Inv.endsWell (h : Inv draft s) (hsound : Sound s.scheduler) (hended : s.Ended) :
    s.EndsWell draft := by
  obtain ⟨hsettled, hpending, hclaimed, -⟩ := hended
  have hstanding := h.standing
  have hcancelledRow : s.RowIs .cancelled → ∀ id, s.row = some id →
      ¬Accepted s.scheduler.compose.log (rowKey draft id) := by
    intro hcancelled id hid
    obtain ⟨id', hid', -, hnot⟩ := h.accepted_row hsound hcancelled
    obtain rfl := Option.some.inj (hid'.symm.trans hid)
    exact hnot (.inr rfl)
  cases hstage : s.stage with
  | editing | scheduling | posting =>
    rw [hstage] at hsettled
    cases hsettled
  | closed =>
    unfold Standing at hstanding
    simp only [hstage] at hstanding
    obtain ⟨hrow, hrestored, htold⟩ := hstanding
    refine endsWell_of_told hsound (fun id hid => ?_) hrestored htold
    rw [hrow] at hid
    cases hid
  | undoable bar handler =>
    rw [hstage] at hsettled
    have hidle : handler = .idle := by
      cases handler with
      | idle => rfl
      | undoing retried => cases hsettled
      | sendingNow => cases hsettled
      | composing => cases hsettled
    subst hidle
    have hbar : watching bar = false := by
      cases bar with
      | none => rfl
      | some p =>
        have hp : p.settled = true := hsettled
        unfold watching
        rw [Option.any_some, hp]
        rfl
    cases h.scheduledAt hstage with
    | live hrow hposted hcancelled _ hrestored hreported hfailed =>
      have hnow := h.not_sentNow hsound hposted
      obtain ⟨id, hid⟩ := Option.ne_none_iff_exists'.mp hrow
      obtain ⟨r, hr, rfl, -, -⟩ := h.row id hid
      have his : s.RowIs r.state := ⟨r, hr, hid, rfl⟩
      obtain ⟨id', hid', hsent, hnot⟩ := h.accepted_row hsound his
      obtain rfl := Option.some.inj (hid'.symm.trans hid)
      cases hstate : r.state with
      | pending => exact absurd (hstate ▸ his) hpending
      | claimed => exact absurd (hstate ▸ his) hclaimed
      | cancelled => exact absurd (hstate ▸ his) hcancelled
      | sent =>
        -- Nothing was reported, as only a failed send is.
        have hquiet : s.reported = false := by
          rw [← Bool.not_eq_true]
          intro hr
          cases hstate.symm.trans (rowIs_unique hsound.inv.nodup his (hreported hr))
        exact .inl ⟨copies_eq_one_of_row hsound.once hnow hid (hsent hstate), hrestored, hquiet⟩
      | failed =>
        have hshown : s.reported = true := by
          refine (hfailed (hstate ▸ his)).resolve_right ?_
          rw [hbar]
          decide
        have hzero : s.copies draft = 0 := by
          refine copies_eq_zero hnow fun id hid' => ?_
          obtain rfl := Option.some.inj (hid'.symm.trans hid)
          exact hnot (.inl hstate)
        exact .inr (.inr ⟨hzero, hrestored, hshown⟩)
    | answering hk _ _ _ _ => cases hk
    | undone _ _ hposted hcancelled hrestored hreported =>
      have hzero := copies_eq_zero (h.not_sentNow hsound hposted) (hcancelledRow hcancelled)
      exact .inr (.inl ⟨hzero, hrestored, hreported⟩)
    | composing hhandler _ _ => cases hhandler
    | composed _ _ hcancelled hrestored htold =>
      exact endsWell_of_told hsound (hcancelledRow hcancelled) hrestored htold

/-- **A message cancelled on the server is not dropped by the client.** -/
theorem Inv.not_dropped (h : Inv draft s) (hsound : Sound s.scheduler) : ¬s.Dropped draft := by
  rintro ⟨hcancelled, hstage, hzero, hrestored, hreported⟩
  cases h.scheduledAt hstage with
  | live _ _ hlive _ _ _ _ => exact hlive hcancelled
  | answering hk _ _ _ _ => cases hk
  | undone _ _ _ _ hback _ =>
    rw [hrestored] at hback
    cases hback
  | composing hhandler _ _ => cases hhandler
  | composed _ _ _ _ htold =>
    -- The client has said nothing, so the message was sent.
    have hnow : s.SentNow := by
      by_contra hnot
      rw [htold.mpr hnot] at hreported
      cases hreported
    obtain ⟨id, hid, -, hnot⟩ := h.accepted_row hsound hcancelled
    have hone := copies_eq_one_of_sentNow hnow hsound.shows.length_le_one fun id' hid' => by
      obtain rfl := Option.some.inj (hid'.symm.trans hid)
      exact hnot (.inr rfl)
    rw [hzero] at hone
    cases hone

end Copies

/-- **Exactly one of three ends, with careful steps.** In every run of the client, the scheduler,
its workers and any other composes, with requests and answers lost at any point, whose steps are
all careful, a message that has come to its end was sent once, or is back in the composer, or is
reported as failed, and it is never cancelled on the server and dropped by the client. -/
theorem message_ends_well (env : Env) (normalizeComposeHtml : Text → Text) (draft : Draft)
    {s : State} (h : (system env normalizeComposeHtml draft).ReachableUnder
      (Careful env normalizeComposeHtml draft) s) :
    (s.Ended → s.EndsWell draft) ∧ ¬s.Dropped draft := by
  have hsound := sound_of_reachable (scheduler_of_reachable h)
  have hinv := inv_of_reachable h
  exact ⟨hinv.endsWell hsound, hinv.not_dropped hsound⟩

end Ends

/-! ### A message that is dropped -/

section Examples

def sampleDraft : Draft :=
  ⟨"ws", none, "mb", { to_address := "ada@example.org".toList }⟩

/-- The message is in the composer, and nothing has happened. -/
def sampleStart : State :=
  ⟨Scheduler.sampleStart, .editing, none, [], false, false⟩

theorem sampleStart_init : (system Scheduler.sampleEnv id sampleDraft).init sampleStart :=
  ⟨Scheduler.sampleStart_init, rfl, rfl, rfl, rfl, rfl⟩

/-- Its scheduled send. -/
def sampleRow (state : ScheduledSendState) : ScheduledSend where
  id := "a"
  workspaceId := "ws"
  mailboxId := "mb"
  payload := (schedulePayload sampleDraft.body).toJson
  sendAt := 10
  state := state
  createdBy := none
  claimedAt := none
  sentAt := none

/-- The message is scheduled, and the bar counts down. -/
def countingState : State :=
  ⟨{ Scheduler.sampleStart with sends := [sampleRow .pending] }, .undoable (some .counting) .idle,
    some "a", [.schedule], false, false⟩

theorem countingState_reachable :
    (system Scheduler.sampleEnv id sampleDraft).ReachableUnder
      (Careful Scheduler.sampleEnv id sampleDraft) countingState := by
  have r := (System.ReachableUnder.init sampleStart_init :
    (system Scheduler.sampleEnv id sampleDraft).ReachableUnder
      (Careful Scheduler.sampleEnv id sampleDraft) sampleStart)
  have r := r.next (.send false) trivial rfl
  have r := r.next (.schedule true 10 "a") rfl rfl
  exact r.next .scheduled trivial rfl

private theorem eq_of_rowIs {s : State} {a b : ScheduledSendState}
    (hsends : s.scheduler.sends = [sampleRow a]) (h : s.RowIs b) : b = a := by
  obtain ⟨r, hr, -, rfl⟩ := h
  rw [hsends] at hr
  rw [List.mem_singleton.mp hr]
  rfl

/-- Undo's cancel takes effect and its answer is lost. The retry finds nothing to cancel, and the
poll finds the send cancelled. -/
def lostAnswer : List Label :=
  [.undo, .cancelArrives 0, .server (.cancelWrite 0), .cancelError, .cancelArrives 1,
    .cancelAnswer, .verify true]

/-- **Cancelled and dropped.** -/
theorem cancelled_and_dropped :
    ∃ s, (system Scheduler.sampleEnv id sampleDraft).Reachable s ∧ s.Ended ∧
      s.Dropped sampleDraft := by
  have hrun : ((system Scheduler.sampleEnv id sampleDraft).exec countingState lostAnswer).isSome
    = true := rfl
  have hreach := System.execUnder_reachable countingState_reachable.reachable
    (Option.some_get hrun).symm
  have honly := fun b => @eq_of_rowIs (((system Scheduler.sampleEnv id sampleDraft).exec
    countingState lostAnswer).get hrun) .cancelled b rfl
  refine ⟨_, hreach, ⟨rfl, fun h => ?_, fun h => ?_, rfl⟩,
    ⟨sampleRow .cancelled, List.mem_singleton_self _, rfl, rfl⟩, rfl, rfl, rfl, rfl⟩
  · cases honly _ h
  · cases honly _ h

/-- The request of Undo's cancel is lost, and the retry cancels: the message is back in the
composer. -/
theorem message_ends_well_run :
    ∃ s : State, s.stage = .undoable none .idle ∧ s.requests.length = 3 ∧
      s.EndsWell sampleDraft := by
  have r := countingState_reachable.next .undo trivial rfl
  have r := r.next .cancelError (fun bar handler k ws id hstage hk hcall => by
    injection hstage with hbar hhandler
    rw [← hhandler] at hk
    obtain rfl := Option.some.inj hk
    cases hcall) rfl
  have r := r.next (.cancelArrives 1) trivial rfl
  have r := r.next (.server (.cancelWrite 1)) ⟨trivial, fun ws id hcall r hr hrow hguard =>
    ⟨some .counting, .undoing true, rfl, rfl⟩⟩ rfl
  have r := r.next .cancelAnswer trivial rfl
  have hends := (message_ends_well Scheduler.sampleEnv id sampleDraft r).1
  refine ⟨_, rfl, rfl, hends ⟨rfl, fun h => ?_, fun h => ?_, rfl⟩⟩
  · cases eq_of_rowIs (a := .cancelled) rfl h
  · cases eq_of_rowIs (a := .cancelled) rfl h

end Examples

end UndoSend
end EmailOps
