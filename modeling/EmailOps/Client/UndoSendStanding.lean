import EmailOps.Client.UndoSend
import EmailOps.Scheduling.RowSteps
import EmailOps.Scheduling.Truth

/-!
# Where a message sent with undo is

* `Careful` is the condition on the steps of the client and of the server under which a message
  sent with undo ends well.
* `Standing` says where the message is at each point of the client, and `Inv` is the invariant.
* `Inv.goOn` keeps it when the server goes on.
-/

namespace EmailOps
namespace UndoSend

open Framework Framework.Text Client Scheduler Compose

/-! ### The condition -/

/-- The engine has accepted the message from the client's own compose. -/
def State.SentNow (s : State) : Prop :=
  ∃ h ∈ s.scheduler.compose.log, h.caller = own ∧ h.result.accepted = true

/-- The answer to the client's compose is awaited. -/
def Stage.composes : Stage → Bool
  | .posting | .undoable _ .composing => true
  | _ => false

/-- The bar counts down or polls. -/
def watching (bar : Option Phase) : Bool :=
  bar.any fun p => !p.settled

/-- The bar will show what becomes of the scheduled send. -/
def Stage.watches : Stage → Bool
  | .scheduling => true
  | .undoable bar _ => watching bar
  | _ => false

/-- **The condition on the server.** A cancel that takes effect is the one the client awaits, a
failure is marked while the bar watches, and the engine accepts the message from the client's
compose while the client awaits that. -/
def Watched (s : State) : Scheduler.Label → Prop
  | .cancelWrite k => ∀ ws id, s.scheduler.cancels k = .checked ws id →
      ∀ r ∈ s.scheduler.sends, s.row = some r.id → cancelGuard ws id r = true →
        ∃ bar handler, s.stage = .undoable bar handler ∧ handler.cancel? = some k
  | .mark w => ∀ now row sentAt caught queue,
      s.scheduler.workOf w = .marking now row .failed sentAt caught queue → s.row = some row.id →
        s.RowIs .claimed → s.stage.watches = true
  | .compose (.callEngine (.other 0) _ result) =>
      result.accepted = true → s.stage.composes = true
  | _ => True

variable [CaseMapping] {env : Env} {normalizeComposeHtml : Text → Text} {draft : Draft}

/-- **The condition.** The schedule request is answered; a cancel or a compose that took effect
is not taken for failed; a failure of the compose finds the bar; the bar does not go before it
has shown that the scheduled send failed; the client's compose is sent and not staged; and the
server is careful. -/
def Careful (env : Env) (normalizeComposeHtml : Text → Text) (draft : Draft) (s : State) :
    Label → Prop
  | .schedule _ _ _ => s.stage = .scheduling
  | .unscheduled _ => s.row = none
  | .cancelError => ∀ bar handler k ws id, s.stage = .undoable bar handler →
      handler.cancel? = some k → s.scheduler.cancels k ≠ .returned ws id true
  | .composeArrives uuid _ _ => ∀ r, composeRequest normalizeComposeHtml draft uuid = .ok r →
      isScheduledKey r.triple = false ∧
        resolveAgent s.scheduler.compose.db.settings r.workspaceId r.input = none ∧
          env.trustedComposeSources.contains schedulerSource = true
  | .composeAnswer => ∀ view, s.scheduler.compose.calls own = .returned view →
      view.status = .failed → s.stage ≠ .undoable none .composing
  | .composeError => s.stage ≠ .undoable none .composing ∧ ¬s.SentNow
  | .verify answered => ∀ polls handler, s.stage = .undoable (some (.sending polls)) handler →
      verifyAttempts ≤ polls + 1 → s.RowIs .failed → s.reported = false → answered = true
  | .replace => s.RowIs .failed → s.reported = true
  | .server l => Scheduler.Careful env s.scheduler l ∧ Watched s l
  | _ => True

/-! ### Where the message is -/

/-- Nothing has been restored and no failure reported. -/
def State.Silent (s : State) : Prop :=
  s.restored = false ∧ s.reported = false

/-- Where a message is that has been scheduled. -/
inductive Scheduled (s : State) (bar : Option Phase) (handler : Handler) : Prop
  /-- It has not been cancelled. -/
  | live (hrow : s.row ≠ none) (hposted : .compose ∉ s.requests)
      (hcancelled : ¬s.RowIs .cancelled) (hhandler : handler ≠ .composing) (hrestored : s.restored = false)
      (hreported : s.reported = true → s.RowIs .failed)
      (hfailed : s.RowIs .failed → s.reported = true ∨ watching bar = true)
  /-- It has been, and the answer is on its way. -/
  | answering {k ws id} (hk : handler.cancel? = some k)
      (hcall : s.scheduler.cancels k = .returned ws id true) (hposted : .compose ∉ s.requests)
      (hcancelled : s.RowIs .cancelled) (hsilent : s.Silent)
  /-- It is back in the composer. -/
  | undone (hbar : bar = none) (hhandler : handler = .idle) (hposted : .compose ∉ s.requests)
      (hcancelled : s.RowIs .cancelled) (hrestored : s.restored = true)
      (hreported : s.reported = false)
  /-- It is being sent at once. -/
  | composing (hhandler : handler = .composing) (hcancelled : s.RowIs .cancelled)
      (hsilent : s.Silent)
  /-- It was sent at once, or that failed. -/
  | composed (hhandler : handler = .idle) (hbar : watching bar = false)
      (hcancelled : s.RowIs .cancelled) (hrestored : s.restored = false)
      (htold : s.reported = true ↔ ¬s.SentNow)

/-- Where the message is. -/
def Standing (s : State) : Prop :=
  match s.stage with
  | .editing => s.requests = [] ∧ s.row = none ∧ s.Silent
  | .scheduling => .compose ∉ s.requests ∧ ¬s.RowIs .cancelled ∧ s.Silent
  | .posting => s.row = none ∧ s.Silent
  | .closed => s.row = none ∧ s.restored = false ∧ (s.reported = true ↔ ¬s.SentNow)
  | .undoable bar handler => Scheduled s bar handler

/-- The client's compose sends: it plans neither to stage nor to replay, and it does not return
without an engine call. -/
def Sends (made : List (HandOff Scheduler.Caller)) : Call → Prop
  | .planned _ plan => ∃ msg p, plan = .send msg p
  | .returned _ => made ≠ []
  | _ => True

/-- **The invariant.** -/
structure Inv (draft : Draft) (s : State) : Prop where
  /-- The row of the message is in the table. -/
  row : ∀ id, s.row = some id → ∃ r ∈ s.scheduler.sends, r.id = id ∧
    r.workspaceId = draft.workspaceId ∧ r.mailboxId = draft.mailboxId
  /-- The cancels of the client are about it. -/
  cancels : ∀ k < 3, ∀ ws id, (s.scheduler.cancels k = .checked ws id ∨
    ∃ b, s.scheduler.cancels k = .returned ws id b) → s.row = some id
  unposted : .compose ∉ s.requests → s.scheduler.compose.calls own = .idle
  sends : Sends (handOffs s.scheduler.compose.log own) (s.scheduler.compose.calls own)
  standing : Standing s

/-- What is known of the scheduler in a careful run. -/
structure Sound (c : Scheduler.State) : Prop where
  inv : Scheduler.Inv c
  truth : Truth c
  shows : (c.compose.calls own).Shows (handOffs c.compose.log own)
  row : RowInv c.compose
  once : ∀ t, engineCalls c.compose.log t ≤ 1

/-! ### The row and the compose, read -/

section Reading

omit [CaseMapping]

variable {s : State}

/-- The state of the row is that of any row of the table under its id. -/
theorem rowIs_iff (hnodup : (s.scheduler.sends.map (·.id)).Nodup) {r : ScheduledSend}
    (hr : r ∈ s.scheduler.sends) (hrow : s.row = some r.id) {state : ScheduledSendState} :
    s.RowIs state ↔ r.state = state := by
  constructor
  · rintro ⟨r', hr', hrow', hstate⟩
    have hid : r'.id = r.id := Option.some.inj (hrow'.symm.trans hrow)
    rw [← eq_of_id_eq hnodup hr' hr hid]
    exact hstate
  · intro hstate
    exact ⟨r, hr, hrow, hstate⟩

theorem not_rowIs_of_none (hrow : s.row = none) {state : ScheduledSendState} :
    ¬s.RowIs state := by
  rintro ⟨r, -, hrow', -⟩
  rw [hrow] at hrow'
  cases hrow'

theorem sentNow_iff : s.SentNow ↔
    ∃ h ∈ handOffs s.scheduler.compose.log own, h.result.accepted = true := by
  constructor
  · rintro ⟨h, hmem, hcaller, haccepted⟩
    exact ⟨h, mem_handOffs.mpr ⟨hmem, hcaller⟩, haccepted⟩
  · rintro ⟨h, hmem, haccepted⟩
    obtain ⟨hlog, hcaller⟩ := mem_handOffs.mp hmem
    exact ⟨h, hlog, hcaller, haccepted⟩

theorem Inv.not_sentNow (h : Inv draft s) (hsound : Sound s.scheduler)
    (hposted : .compose ∉ s.requests) : ¬s.SentNow := by
  have hmade := hsound.shows
  rw [h.unposted hposted] at hmade
  rw [sentNow_iff]
  rintro ⟨e, he, -⟩
  rw [show handOffs s.scheduler.compose.log own = [] from hmade] at he
  cases he

/-- **The answer of the client's compose is true.** -/
theorem Inv.sentNow_iff_status (h : Inv draft s) (hsound : Sound s.scheduler)
    {view : MessageComposeView} (hview : s.scheduler.compose.calls own = .returned view) :
    (s.SentNow ∧ view.status = .sent) ∨ (¬s.SentNow ∧ view.status = .failed) := by
  have hmade := hsound.shows
  have hsends := h.sends
  rw [hview] at hmade hsends
  rcases hmade with hnone | ⟨e, hone, hstatus⟩
  · exact absurd hnone hsends
  · rw [sentNow_iff, hone]
    cases haccepted : e.result.accepted with
    | true =>
      rw [haccepted] at hstatus
      exact .inl ⟨⟨e, List.mem_singleton_self e, haccepted⟩, hstatus⟩
    | false =>
      rw [haccepted] at hstatus
      refine .inr ⟨?_, hstatus⟩
      rintro ⟨e', he', haccepted'⟩
      rw [List.mem_singleton.mp he', haccepted] at haccepted'
      cases haccepted'

/-- What the client reads is the state of the row. -/
theorem Inv.verdict_eq_some (h : Inv draft s) (hsound : Sound s.scheduler)
    {state : ScheduledSendState} : s.verdict draft = some state ↔ s.RowIs state := by
  unfold State.verdict
  cases hrow : s.row with
  | none =>
    -- Without a row there is nothing to read.
    constructor
    · intro hnone
      cases hnone
    · intro his
      exact absurd his (not_rowIs_of_none hrow)
  | some id =>
    -- The ids are unique, so that the row that is read is that of the message.
    obtain ⟨r, hr, rfl, hws, hmbx⟩ := h.row id hrow
    have hfind : (s.scheduler.sends.find? fun r' => r'.id = r.id &&
        r'.workspaceId = draft.workspaceId && r'.mailboxId = draft.mailboxId) = some r := by
      have hsome : (s.scheduler.sends.find? fun r' => r'.id = r.id &&
          r'.workspaceId = draft.workspaceId && r'.mailboxId = draft.mailboxId).isSome = true :=
        List.find?_isSome.mpr ⟨r, hr, by simp [hws, hmbx]⟩
      obtain ⟨r', hr'⟩ := Option.isSome_iff_exists.mp hsome
      have hfound := List.find?_some hr'
      simp only [Bool.and_eq_true, decide_eq_true_eq] at hfound
      rw [hr', eq_of_id_eq hsound.inv.nodup (List.mem_of_find?_eq_some hr') hr hfound.1.1]
    rw [rowIs_iff hsound.inv.nodup hr hrow]
    rw [Option.bind_some, hfind, Option.map_some, Option.some.injEq]

theorem rowIs_unique (hnodup : (s.scheduler.sends.map (·.id)).Nodup) {a b : ScheduledSendState}
    (ha : s.RowIs a) (hb : s.RowIs b) : a = b := by
  obtain ⟨r, hr, hrow, rfl⟩ := ha
  exact (rowIs_iff hnodup hr hrow).mp hb

end Reading

/-! ### The server goes on -/

section Server

variable {s : State} {c : Scheduler.State} {l : Scheduler.Label}

/-- The state after a step of the server. -/
def State.goOn (s : State) (c : Scheduler.State) : State :=
  { s with scheduler := c }

/-- The row of the message moves as any row does. -/
theorem Inv.row_moves (h : Inv draft s) (hsound : Sound s.scheduler)
    (hs : (Scheduler.system env).step s.scheduler l = some c) {id : String}
    (hrow : s.row = some id) :
    ∃ r ∈ s.scheduler.sends, ∃ r' ∈ c.sends, s.row = some r.id ∧ s.row = some r'.id ∧
      r'.workspaceId = draft.workspaceId ∧ r'.mailboxId = draft.mailboxId ∧
        RowMoves s.scheduler c r l r'.state := by
  obtain ⟨r, hr, rfl, hws, hmbx⟩ := h.row id hrow
  obtain ⟨r', hr', hid, hws', hmbx', hmoves⟩ := row_step hsound.inv.nodup hs hr
  exact ⟨r, hr, r', hr', hrow, by rw [hid]; exact hrow, hws'.trans hws, hmbx'.trans hmbx, hmoves⟩

/-- **Where a row comes from.** A row that is now in a state was so before, or it was pending and
the client's cancel took effect, or it was claimed again, or it was claimed and has been marked. -/
theorem Inv.rowIs_before (h : Inv draft s) (hsound : Sound s.scheduler)
    (hs : (Scheduler.system env).step s.scheduler l = some c) (hwatched : Watched s l)
    {state : ScheduledSendState} (hafter : (s.goOn c).RowIs state) :
    s.RowIs state ∨
      (state = .cancelled ∧ s.RowIs .pending ∧ ∃ k ws id bar handler,
        s.stage = .undoable bar handler ∧ handler.cancel? = some k ∧
          c.cancels k = .returned ws id true) ∨
      (state = .claimed ∧ (s.RowIs .pending ∨ s.RowIs .claimed)) ∨
      (wasClaimed state ∧ s.RowIs .claimed ∧ (state = .failed → s.stage.watches = true)) := by
  have hinv' : Scheduler.Inv c := hsound.inv.step hs
  obtain ⟨r₁, hr₁, hrow₁, hstate₁⟩ := hafter
  obtain ⟨r, hr, r', hr', hrow, hrow', -, -, hmoves⟩ := h.row_moves hsound hs hrow₁
  have heq : r₁ = r' :=
    eq_of_id_eq hinv'.nodup hr₁ hr' (Option.some.inj (hrow₁.symm.trans hrow'))
  subst heq
  rw [hstate₁] at hmoves
  cases hmoves with
  | stays => exact .inl ⟨r, hr, hrow, rfl⟩
  | @cancelled k ws id hguard hk hk' =>
    -- A cancel takes effect on the row only when the client awaits it.
    obtain ⟨bar, handler, hstage, hawaited⟩ := hwatched ws id hk r hr hrow hguard
    have hpending : s.RowIs .pending := by
      unfold cancelGuard at hguard
      simp only [Bool.and_eq_true, decide_eq_true_eq] at hguard
      exact ⟨r, hr, hrow, hguard.2⟩
    exact .inr (.inl ⟨rfl, hpending, k, ws, id, bar, handler, hstage, hawaited, hk'⟩)
  | claimed hstate =>
    refine .inr (.inr (.inl ⟨rfl, ?_⟩))
    exact hstate.imp (fun hp => ⟨r, hr, hrow, hp⟩) fun hc => ⟨r, hr, hrow, hc⟩
  | @marked w now row target sentAt caught queue hw hid hstate =>
    -- A worker writes its verdict on the row that it has claimed.
    have hclaimed : s.RowIs .claimed := ⟨r, hr, hrow, hstate⟩
    refine .inr (.inr (.inr ⟨hsound.inv.target w now row _ sentAt caught queue hw, hclaimed, ?_⟩))
    rintro rfl
    exact hwatched now row sentAt caught queue hw (by rw [hid]; exact hrow) hclaimed

/-- A row in a final state stays there. -/
theorem Inv.rowIs_final (h : Inv draft s) (hsound : Sound s.scheduler)
    (hs : (Scheduler.system env).step s.scheduler l = some c) {state : ScheduledSendState}
    (hpending : state ≠ .pending) (hclaimed : state ≠ .claimed) (hbefore : s.RowIs state) :
    (s.goOn c).RowIs state := by
  obtain ⟨r₁, hr₁, hrow₁, hstate₁⟩ := hbefore
  obtain ⟨r, hr, r', hr', hrow, hrow', -, -, hmoves⟩ := h.row_moves hsound hs hrow₁
  have heq : r₁ = r :=
    eq_of_id_eq hsound.inv.nodup hr₁ hr (Option.some.inj (hrow₁.symm.trans hrow))
  subst heq
  refine ⟨r', hr', hrow', ?_⟩
  generalize r'.state = final at hmoves
  cases hmoves with
  | stays => exact hstate₁
  | cancelled hguard hk hk' =>
    -- A cancel guards for a pending row.
    unfold cancelGuard at hguard
    simp only [Bool.and_eq_true, decide_eq_true_eq] at hguard
    exact absurd (hstate₁.symm.trans hguard.2) hpending
  | claimed hstate =>
    rcases hstate with hstate | hstate
    · exact absurd (hstate₁.symm.trans hstate) hpending
    · exact absurd (hstate₁.symm.trans hstate) hclaimed
  | marked hw hid hstate => exact absurd (hstate₁.symm.trans hstate) hclaimed

/-- The engine accepts the message from the client's compose only while that is awaited. -/
theorem sentNow_goOn (hs : (Scheduler.system env).step s.scheduler l = some c)
    (hwatched : Watched s l) (hstage : s.stage.composes = false) :
    (s.goOn c).SentNow ↔ s.SentNow := by
  rw [sentNow_iff, sentNow_iff]
  have hsame : handOffs c.compose.log own = handOffs s.scheduler.compose.log own →
      ((∃ h ∈ handOffs c.compose.log own, h.result.accepted = true) ↔
        ∃ h ∈ handOffs s.scheduler.compose.log own, h.result.accepted = true) := by
    intro hlog
    rw [hlog]
  rcases other_step hs 0 with ⟨-, hlog⟩ | ⟨cl, rfl, hmoves⟩
  · exact hsame hlog
  · cases hmoves with
    | stays _ hlog | starts _ _ hlog | commits _ _ hlog | stamps _ _ hlog | crashes _ hlog =>
      exact hsame hlog
    | callsEngine e hqueued hcall hresult hlog =>
      -- It is refused, as nobody awaits it.
      have hrefused : e.result.accepted = false := by
        rw [hresult, ← Bool.not_eq_true]
        intro haccepted
        have hawaited := hwatched haccepted
        rw [hstage] at hawaited
        cases hawaited
      constructor
      · rintro ⟨h, hmem, haccepted⟩
        rcases List.mem_append.mp (hlog ▸ hmem) with hold | hnew
        · exact ⟨h, hold, haccepted⟩
        · rw [List.mem_singleton.mp hnew, hrefused] at haccepted
          cases haccepted
      · rintro ⟨h, hmem, haccepted⟩
        exact ⟨h, hlog ▸ List.mem_append_left _ hmem, haccepted⟩

/-- **The server goes on, and the message stays where it is**, unless the client's cancel takes
effect. -/
theorem Inv.standing_goOn (h : Inv draft s) (hsound : Sound s.scheduler)
    (hs : (Scheduler.system env).step s.scheduler l = some c) (hwatched : Watched s l) :
    Standing (s.goOn c) := by
  have hstanding := h.standing
  have hnodup := hsound.inv.nodup
  have hstays : s.RowIs .cancelled → (s.goOn c).RowIs .cancelled :=
    h.rowIs_final hsound hs (by decide) (by decide)
  unfold Standing at hstanding ⊢
  cases hstage : s.stage with
  | editing =>
    simp only [hstage, State.goOn] at hstanding ⊢
    exact hstanding
  | scheduling =>
    simp only [hstage, State.goOn] at hstanding ⊢
    obtain ⟨hposted, hcancelled, hsilent⟩ := hstanding
    -- Nobody has asked for a cancel yet.
    refine ⟨hposted, fun hafter => ?_, hsilent⟩
    rcases h.rowIs_before hsound hs hwatched hafter with hbefore |
      ⟨-, -, k, ws, id, bar, handler, hundoable, -⟩ | ⟨heq, -⟩ | ⟨hwas, -⟩
    · exact hcancelled hbefore
    · rw [hstage] at hundoable
      cases hundoable
    · cases heq
    · rcases hwas with heq | heq | heq <;> cases heq
  | posting =>
    simp only [hstage, State.goOn] at hstanding ⊢
    exact hstanding
  | closed =>
    -- Nobody awaits the compose, so that the engine accepts nothing for it.
    have hsent := sentNow_goOn hs hwatched (by rw [hstage]; rfl)
    simp only [hstage, State.goOn] at hstanding ⊢
    obtain ⟨hrow, hrestored, htold⟩ := hstanding
    exact ⟨hrow, hrestored, htold.trans (not_congr hsent.symm)⟩
  | undoable bar handler =>
    have hstage' : (s.goOn c).stage = .undoable bar handler := hstage
    simp only [hstage] at hstanding
    simp only [hstage']
    cases hstanding with
    | live hrow hposted hcancelled hhandler hrestored hreported hfailed =>
      by_cases hafter : (s.goOn c).RowIs .cancelled
      · -- The client's cancel has taken effect, and nothing was reported before.
        rcases h.rowIs_before hsound hs hwatched hafter with hbefore |
          ⟨-, hpending, k, ws, id, bar', handler', hundoable, hk, hcall⟩ | ⟨heq, -⟩ | ⟨hwas, -⟩
        · exact absurd hbefore hcancelled
        · rw [hstage] at hundoable
          obtain ⟨rfl, rfl⟩ := Stage.undoable.inj hundoable
          have hquiet : s.reported = false := by
            rw [← Bool.not_eq_true]
            intro hreport
            cases rowIs_unique hnodup hpending (hreported hreport)
          exact .answering hk hcall hposted hafter ⟨hrestored, hquiet⟩
        · cases heq
        · rcases hwas with heq | heq | heq <;> cases heq
      · refine .live hrow hposted hafter hhandler hrestored
          (fun hreport => h.rowIs_final hsound hs (by decide) (by decide) (hreported hreport))
          fun hfails => ?_
        rcases h.rowIs_before hsound hs hwatched hfails with hbefore | ⟨heq, -⟩ | ⟨heq, -⟩ |
          ⟨-, -, hwatches⟩
        · exact hfailed hbefore
        · cases heq
        · cases heq
        · -- The failure has just been marked, and the bar watches.
          have hbar := hwatches rfl
          rw [hstage] at hbar
          exact .inr hbar
    | @answering k ws id hk hcall hposted hcancelled hsilent =>
      -- An answer that was given stays.
      have hcall' : c.cancels k = .returned ws id true := by
        cases cancel_step hs k with
        | stays hsame => exact hsame.trans hcall
        | reads hidle _ =>
          rw [hcall] at hidle
          cases hidle
        | writes hchecked _ =>
          rw [hcall] at hchecked
          cases hchecked
      exact .answering hk hcall' hposted (hstays hcancelled) hsilent
    | undone hbar hhandler hposted hcancelled hrestored hreported =>
      exact .undone hbar hhandler hposted (hstays hcancelled) hrestored hreported
    | composing hhandler hcancelled hsilent =>
      exact .composing hhandler (hstays hcancelled) hsilent
    | composed hhandler hbar hcancelled hrestored htold =>
      subst hhandler
      have hsent := sentNow_goOn hs hwatched (by rw [hstage]; rfl)
      exact .composed rfl hbar (hstays hcancelled) hrestored (htold.trans (not_congr hsent.symm))

/-- A compose that sends goes on to. -/
private theorem sends_step {made made' : List (HandOff Scheduler.Caller)}
    {b b' : Compose.State Scheduler.Caller} {cl : Compose.Label Scheduler.Caller}
    (hsends : Sends made (b.calls own)) (hmade : made = handOffs b.log own)
    (hmade' : made' = handOffs b'.log own) (hshows : (b.calls own).Shows (handOffs b.log own))
    (hmoves : CallMoves env b b' own cl)
    (hstart : ∀ r f ids, cl = .start own r f ids → Sends [] (planned env b.db r f ids)) :
    Sends made' (b'.calls own) := by
  subst hmade hmade'
  cases hmoves with
  | stays hcall hlog =>
    rw [hcall, hlog]
    exact hsends
  | @starts r f ids hidle hcall hlog =>
    rw [hidle] at hshows
    -- A call that has not begun has handed nothing to the engine.
    have hnone : handOffs b.log own = [] := hshows
    rw [hcall, hlog, hnone]
    exact hstart r f ids rfl
  | @commits r plan hplanned hcall hlog =>
    rw [hplanned] at hsends
    obtain ⟨msg, p, rfl⟩ := hsends
    rw [hcall]
    rcases commit_cases b.db r (.send msg p) with ⟨e, hcommit⟩ | ⟨view, heq, -⟩ |
      ⟨_, item, db', heq, -, -⟩ | ⟨_, sendPlan, db', -, -, hcommit⟩
    · rw [hcommit]
      trivial
    · cases heq
    · cases heq
    · rw [hcommit]
      trivial
  | callsEngine e hqueued hcall hresult hlog =>
    rw [hcall]
    trivial
  | stamps hhanded hcall hlog =>
    rw [hhanded] at hshows
    obtain ⟨e, hone, -⟩ := hshows
    rw [hcall, hlog, hone]
    unfold stamped
    split
    · exact List.cons_ne_nil e []
    · trivial
  | crashes hcall hlog =>
    rw [hcall]
    trivial

/-- **The server goes on.** -/
theorem Inv.goOn (h : Inv draft s) (hsound : Sound s.scheduler)
    (hs : (Scheduler.system env).step s.scheduler l = some c) (hwatched : Watched s l)
    (hread : ∀ k ucUid ws id, l = .cancelRead k ucUid ws id → k < 3 → s.row = some id)
    (hstart : ∀ r f ids, l = .compose (.start own r f ids) → .compose ∈ s.requests ∧
      Sends [] (planned env s.scheduler.compose.db r f ids))
    (hcrash : l = .compose (.crash own) → s.scheduler.compose.calls own ≠ .idle) :
    Inv draft (s.goOn c) where
  row id hrow := by
    obtain ⟨r, -, r', hr', -, hrow', hws, hmbx, -⟩ := h.row_moves hsound hs hrow
    exact ⟨r', hr', Option.some.inj (hrow'.symm.trans hrow), hws, hmbx⟩
  cancels k hk ws id hcall := by
    change c.cancels k = _ ∨ (∃ b, c.cancels k = _) at hcall
    cases cancel_step hs k with
    | stays hsame =>
      rw [hsame] at hcall
      exact h.cancels k hk ws id hcall
    | @reads ucUid ws' id' hidle hafter =>
      have hid : id' = id := by
        -- The cancel is about the row that the client has asked about.
        rcases hafter with hafter | hafter <;> rw [hafter] at hcall <;> simp at hcall <;>
          exact hcall.2
      rw [← hid]
      exact hread k ucUid ws' id' rfl hk
    | @writes ws' id' hchecked hafter =>
      obtain ⟨b, hafter⟩ := hafter
      rw [hafter] at hcall
      have hid : id' = id := by
        simp at hcall
        exact hcall.2
      rw [← hid]
      exact h.cancels k hk ws' id' (.inl hchecked)
  unposted hposted := by
    have hidle := h.unposted hposted
    change c.compose.calls own = .idle
    rcases other_step hs 0 with ⟨hcall, -⟩ | ⟨cl, rfl, hmoves⟩
    · exact hcall.trans hidle
    · cases hmoves with
      | stays hcall hlog => exact hcall.trans hidle
      -- The request has not been posted.
      | starts _ _ _ => exact absurd (hstart _ _ _ rfl).1 hposted
      | commits hplanned _ _ =>
        rw [show s.scheduler.compose.calls (.other 0) = .idle from hidle] at hplanned
        cases hplanned
      | callsEngine e hqueued _ _ _ =>
        rw [show s.scheduler.compose.calls (.other 0) = .idle from hidle] at hqueued
        cases hqueued
      | stamps hhanded _ _ =>
        rw [show s.scheduler.compose.calls (.other 0) = .idle from hidle] at hhanded
        cases hhanded
      | crashes _ _ => exact absurd hidle (hcrash rfl)
  sends := by
    change Sends (handOffs c.compose.log own) (c.compose.calls own)
    rcases other_step hs 0 with ⟨hcall, hlog⟩ | ⟨cl, rfl, hmoves⟩
    · rw [show c.compose.calls own = _ from hcall, show handOffs c.compose.log own = _ from hlog]
      exact h.sends
    · refine sends_step h.sends rfl rfl hsound.shows hmoves fun r f ids heq => ?_
      exact (hstart r f ids (by rw [heq])).2
  standing := h.standing_goOn hsound hs hwatched

end Server

end UndoSend
end EmailOps
