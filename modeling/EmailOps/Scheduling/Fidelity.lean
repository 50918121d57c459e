import EmailOps.Scheduling.AtMostOnce

/-!
# A scheduled payload comes through as it was shown

A payload is normalized when it is scheduled, stored, and normalized again whenever its row is
viewed or fired. Nothing is lost on the way.

* `ScheduledSendPayload.Normal` is what the normalizer ensures, and `normalizePayload_toJson`
  says that it reads back what was stored of such a payload.
* `Moves` is all that a step of the scheduler may do to the rows and to what the workers have
  read of them. `Kept` follows the row of one send along a run.
* `payload_fidelity`: normalizing twice is normalizing once, and the compose that a worker makes
  of a row carries what the client was shown when the row was scheduled.
-/

namespace EmailOps

open Framework.Text

/-! ### Reading back what is stored -/

section Fields

variable {fields : List (String × Option Json)} {key : String}

theorem get_definedFields_of_notMem (h : key ∉ fields.map (·.1)) :
    Json.get (definedFields fields) key.toList = none := by
  refine List.lookup_eq_none_iff.mpr fun field hfield => ?_
  obtain ⟨⟨k, v⟩, hmem, hv⟩ := List.mem_filterMap.mp hfield
  obtain ⟨w, -, rfl⟩ := Option.map_eq_some_iff.mp hv
  have hne : key ≠ k := fun heq => h (heq ▸ List.mem_map_of_mem hmem)
  simpa [String.toList_inj] using hne

/-- A property of a stored object is what was defined of it. -/
theorem get_definedFields (h : (fields.map (·.1)).Nodup) :
    Json.get (definedFields fields) key.toList = (fields.lookup key).join := by
  induction fields with
  | nil => rfl
  | cons field fields ih =>
    obtain ⟨k, v⟩ := field
    obtain ⟨hk, hfields⟩ := List.nodup_cons.mp h
    by_cases heq : key = k
    · -- a key is there once, so that one without a value is nowhere
      subst heq
      rw [List.lookup_cons, beq_self_eq_true]
      cases v with
      | none =>
        show Json.get (definedFields fields) key.toList = none
        exact get_definedFields_of_notMem hk
      | some v => simp [definedFields, Json.get]
    · have hlookup : ((k, v) :: fields).lookup key = fields.lookup key := by
        rw [List.lookup_cons, beq_false_of_ne heq]
      rw [hlookup, ← ih hfields]
      have hne : (key.toList == k.toList) = false := by simpa [String.toList_inj] using heq
      cases v with
      | none => rfl
      | some v => simp [definedFields, Json.get, List.lookup_cons, hne]

end Fields

/-- What the normalizer ensures of a payload. -/
structure ScheduledSendPayload.Normal (p : ScheduledSendPayload) : Prop where
  trimmed : trim p.toAddress = p.toAddress
  addressed : p.toAddress ≠ []
  visible : ∀ ts ∈ [p.toAddresses, p.cc, p.bcc, p.references], ∀ t ∈ ts, trim t ≠ []
  attached : ∀ a ∈ p.attachments, a.blob_id ≠ [] ∧ trim a.name ≠ [] ∧ trim a.type ≠ []

theorem trim_ne_of_mem_stringArray {raw : Option Json} {t : Text} (h : t ∈ stringArray raw) :
    trim t ≠ [] := by
  unfold stringArray at h
  split at h
  · exact of_decide_eq_true (List.mem_filter.mp h).2
  · cases h

theorem trim_stringOr_ne {fields : List (Text × Json)} {key fallback : String}
    (h : trim fallback.toList ≠ []) : trim (stringOr fields key fallback) ≠ [] := by
  unfold stringOr
  split
  · split
    · exact h
    · next hne => exact hne
  · exact h

theorem of_mem_payloadAttachments {raw : Option Json} {a : ComposeAttachmentInput}
    (h : a ∈ payloadAttachments raw) :
    a.blob_id ≠ [] ∧ trim a.name ≠ [] ∧ trim a.type ≠ [] := by
  unfold payloadAttachments at h
  split at h
  · obtain ⟨hmem, hblob⟩ := List.mem_filter.mp h
    obtain ⟨item, -, hitem⟩ := List.mem_filterMap.mp hmem
    split at hitem
    · obtain rfl := Option.some.inj hitem
      exact ⟨of_decide_eq_true hblob, trim_stringOr_ne (by decide), trim_stringOr_ne (by decide)⟩
    · cases hitem
  · cases h

/-- The normalizer answers with a normal payload. -/
theorem normal_of_normalizePayload {raw : Json} {p : ScheduledSendPayload}
    (h : normalizePayload raw = some p) : p.Normal := by
  unfold normalizePayload at h
  split at h
  · dsimp only at h
    split at h
    · cases h
    · next hto =>
      obtain rfl := Option.some.inj h
      refine ⟨trim_trim _, hto, fun ts hts t ht => ?_, fun a ha => of_mem_payloadAttachments ha⟩
      simp only [List.mem_cons, List.not_mem_nil, or_false] at hts
      obtain rfl | rfl | rfl | rfl := hts
      · exact trim_ne_of_mem_stringArray ht
      · exact trim_ne_of_mem_stringArray ht
      · exact trim_ne_of_mem_stringArray ht
      · exact trim_ne_of_mem_stringArray ht
  · cases h

theorem stringArray_arrayField {ts : List Text} (h : ∀ t ∈ ts, trim t ≠ []) :
    stringArray (arrayField (ts.map .str)) = ts := by
  cases ts with
  | nil => rfl
  | cons t ts =>
    have hfield : arrayField ((t :: ts).map .str) = some (.arr ((t :: ts).map .str)) := rfl
    rw [hfield, stringArray, List.filterMap_map]
    have hread : (fun v => Json.asString (some v)) ∘ Json.str = some := rfl
    rw [hread, List.filterMap_some]
    exact List.filter_eq_self.mpr fun t ht => decide_eq_true (h t ht)

theorem stringOr_str {fields : List (Text × Json)} {key fallback : String} {t : Text}
    (hget : Json.get fields key.toList = some (.str t)) (ht : trim t ≠ []) :
    stringOr fields key fallback = t := by
  unfold stringOr
  rw [hget]
  exact if_neg ht

theorem payloadAttachments_arrayField {as : List ComposeAttachmentInput}
    (h : ∀ a ∈ as, a.blob_id ≠ [] ∧ trim a.name ≠ [] ∧ trim a.type ≠ []) :
    payloadAttachments (arrayField (as.map attachmentJson)) = as := by
  cases as with
  | nil => rfl
  | cons a as =>
    -- each attachment is read back as it was
    have hread : ∀ b ∈ a :: as, ComposeAttachmentInput.mk b.blob_id
        (stringOr [("blob_id".toList, .str b.blob_id), ("name".toList, .str b.name),
          ("type".toList, .str b.type)] "name" "attachment")
        (stringOr [("blob_id".toList, .str b.blob_id), ("name".toList, .str b.name),
          ("type".toList, .str b.type)] "type" "application/octet-stream") = b := by
      intro b hb
      rw [stringOr_str rfl (h b hb).2.1, stringOr_str rfl (h b hb).2.2]
    have hfield : arrayField ((a :: as).map attachmentJson) =
        some (.arr ((a :: as).map attachmentJson)) := rfl
    rw [hfield, payloadAttachments, List.filterMap_map]
    calc ((a :: as).filterMap _).filter _
        = ((a :: as).filterMap some).filter (·.blob_id ≠ []) := by
          congr 1
          exact List.filterMap_congr fun b hb => congrArg some (hread b hb)
      _ = (a :: as).filter (·.blob_id ≠ []) := by rw [List.filterMap_some]
      _ = a :: as := List.filter_eq_self.mpr fun b hb => decide_eq_true (h b hb).1

@[simp] theorem asString_str (t : Text) : Json.asString (some (.str t)) = some t := rfl

@[simp] theorem asString_textField (t : Option Text) : Json.asString (textField t) = t := by
  cases t with
  | none => rfl
  | some t => rfl

theorem map_ofList_map_toList (s : Option String) :
    (s.map String.toList).map String.ofList = s := by
  cases s with
  | none => rfl
  | some s => simp

/-- **What was stored of a normal payload is read back.** -/
theorem normalizePayload_toJson {p : ScheduledSendPayload} (h : p.Normal) :
    normalizePayload p.toJson = some p := by
  obtain ⟨ht, hc, hb, hr⟩ : (∀ t ∈ p.toAddresses, trim t ≠ []) ∧ (∀ t ∈ p.cc, trim t ≠ []) ∧
      (∀ t ∈ p.bcc, trim t ≠ []) ∧ ∀ t ∈ p.references, trim t ≠ [] := by
    simpa using h.visible
  -- each property is what was defined of it
  have hget (key : String) : Json.get (definedFields p.fields) key.toList =
      (p.fields.lookup key).join := get_definedFields (by simp [ScheduledSendPayload.fields])
  simp only [normalizePayload, ScheduledSendPayload.toJson, hget]
  simp only [ScheduledSendPayload.fields, List.lookup_cons, String.reduceBEq, beq_self_eq_true,
    Option.join_some, asString_textField, stringArray_arrayField ht, stringArray_arrayField hc,
    stringArray_arrayField hb, stringArray_arrayField hr, payloadAttachments_arrayField h.attached,
    map_ofList_map_toList, asString_str, Option.getD_some, h.trimmed, h.addressed, if_false]

/-- `normalizePayload`, as a function on what is stored: null, or the payload. -/
def normalized (raw : Json) : Json :=
  ((normalizePayload raw).map (·.toJson)).getD .null

/-- **Normalizing twice is normalizing once.** -/
theorem normalized_normalized (raw : Json) : normalized (normalized raw) = normalized raw := by
  unfold normalized
  cases h : normalizePayload raw with
  | none => rfl
  | some p =>
    show ((normalizePayload p.toJson).map (·.toJson)).getD .null = p.toJson
    rw [normalizePayload_toJson (normal_of_normalizePayload h)]
    rfl

/-! ### What the client is shown -/

/-- A row as the client is shown it. Times are in milliseconds. -/
structure ScheduledSendView where
  id : String
  mailbox_id : String
  payload : ScheduledSendPayload
  send_at : ℕ
  state : String
  created_by : Option String
  sent_at : Option ℕ

def ScheduledSendState.wire : ScheduledSendState → String
  | .pending => "pending"
  | .claimed => "claimed"
  | .sent => "sent"
  | .failed => "failed"
  | .cancelled => "cancelled"

/-- What is shown of a row whose payload is invalid. -/
def emptyPayload : ScheduledSendPayload where
  toAddress := []
  toAddresses := []
  subject := []
  body := []
  bodyHtml := none
  cc := []
  bcc := []
  attachments := []
  inReplyToThreadId := none
  inReplyToMessageId := none
  references := []
  draftId := none

def scheduledView (row : ScheduledSend) : ScheduledSendView where
  id := row.id
  mailbox_id := row.mailboxId
  payload := (normalizePayload row.payload).getD emptyPayload
  send_at := row.sendAt
  state := row.state.wire
  created_by := row.createdBy
  sent_at := row.sentAt

/-- A compose carries what a row shows: the recipients, the bodies, the attachments, the
threading fields and the draft, under the mailbox and the id of the row. -/
structure Carries (input : ComposeInput) (view : ScheduledSendView) : Prop where
  toAddress : input.toAddress = view.payload.toAddress
  toAddresses : input.toAddresses = view.payload.toAddresses
  cc : input.cc = view.payload.cc
  bcc : input.bcc = view.payload.bcc
  subject : input.subject = view.payload.subject
  body : input.body = view.payload.body
  bodyHtml : input.bodyHtml = view.payload.bodyHtml
  attachments : input.attachments = view.payload.attachments
  inReplyToThreadId : input.inReplyToThreadId = view.payload.inReplyToThreadId
  inReplyToMessageId : input.inReplyToMessageId = view.payload.inReplyToMessageId
  references : input.references = view.payload.references
  draftId : input.draftId = view.payload.draftId
  mailbox : input.fromMailboxAccountId = some view.mailbox_id
  ref : input.externalRef = scheduledRef view.id

/-- The columns of a row that no statement writes after it is scheduled. -/
structure SameSend (row row' : ScheduledSend) : Prop where
  id : row'.id = row.id
  mailboxId : row'.mailboxId = row.mailboxId
  payload : row'.payload = row.payload

theorem SameSend.refl (row : ScheduledSend) : SameSend row row :=
  ⟨rfl, rfl, rfl⟩

theorem SameSend.trans {row row' row'' : ScheduledSend} (h : SameSend row row')
    (h' : SameSend row' row'') : SameSend row row'' :=
  ⟨h'.id.trans h.id, h'.mailboxId.trans h.mailboxId, h'.payload.trans h.payload⟩

/-- The compose of a row carries what the row shows. -/
theorem carries_composeInput {row row' : ScheduledSend} {p : ScheduledSendPayload}
    (hsame : SameSend row row') (hp : normalizePayload row'.payload = some p) :
    Carries (composeInput row' p) (scheduledView row) := by
  have hview : (scheduledView row).payload = p := by
    show (normalizePayload row.payload).getD emptyPayload = p
    rw [← hsame.payload, hp]
    rfl
  refine ⟨?_, ?_, ?_, ?_, ?_, ?_, ?_, ?_, ?_, ?_, ?_, ?_, congrArg some hsame.mailboxId,
    congrArg scheduledRef hsame.id⟩ <;> rw [hview] <;> rfl

namespace Scheduler

open Framework

/-! ### What a step does to the rows -/

/-- What a statement may do to the table: a row that is there stays, as the same send, and a row
that is new has a new id. -/
structure SendsMove (rows rows' : List ScheduledSend) : Prop where
  stays : ∀ r ∈ rows, ∃ r' ∈ rows', r'.id = r.id
  comes : ∀ r' ∈ rows', (∃ r ∈ rows, SameSend r r') ∨ ∀ r ∈ rows, r.id ≠ r'.id

theorem SendsMove.refl (rows : List ScheduledSend) : SendsMove rows rows :=
  ⟨fun r hr => ⟨r, hr, rfl⟩, fun r hr => .inl ⟨r, hr, .refl r⟩⟩

/-- An update that writes neither the mailbox nor the payload. -/
theorem SendsMove.update {rows : List ScheduledSend} {p : ScheduledSend → Bool}
    {f : ScheduledSend → ScheduledSend} (hf : ∀ r, SameSend r (f r)) :
    SendsMove rows (updateMany rows p f) where
  stays r hr := by
    cases hp : p r with
    | true => exact ⟨f r, mem_updateMany.mpr (.inl ⟨r, hr, hp, rfl⟩), (hf r).id⟩
    | false => exact ⟨r, mem_updateMany.mpr (.inr ⟨hr, hp⟩), rfl⟩
  comes r' hr' := by
    obtain ⟨r, hr, -, rfl⟩ | ⟨hr, -⟩ := mem_updateMany.mp hr'
    · exact .inl ⟨r, hr, hf r⟩
    · exact .inl ⟨r', hr, .refl r'⟩

theorem SendsMove.schedule {rows : List ScheduledSend} {row : ScheduledSend}
    (hfresh : ∀ r ∈ rows, r.id ≠ row.id) : SendsMove rows (rows ++ [row]) where
  stays r hr := ⟨r, List.mem_append_left _ hr, rfl⟩
  comes r' hr' := by
    obtain hr | hr := List.mem_append.mp hr'
    · exact .inl ⟨r', hr, .refl r'⟩
    · obtain rfl := List.mem_singleton.mp hr
      exact .inr hfresh

/-- What a step may do to the work of a worker: the rows it goes on with are rows it had, or rows
of the table, and the payload it composes is what the normalizer reads in the row. -/
structure WorkMoves (rows : List ScheduledSend) (work work' : Work) : Prop where
  rows : ∀ r ∈ work'.rows, r ∈ work.rows ∨ r ∈ rows
  reads : ∀ now r p n queue, work' = .composing now r p n queue →
    work = .composing now r p n queue ∨ normalizePayload r.payload = some p

theorem WorkMoves.refl (rows : List ScheduledSend) (work : Work) : WorkMoves rows work work :=
  ⟨fun _ hr => .inl hr, fun _ _ _ _ _ h => .inl h⟩

theorem WorkMoves.of_rows {rows : List ScheduledSend} {work work' : Work}
    (hrows : ∀ r ∈ work'.rows, r ∈ work.rows)
    (hcomposing : ∀ n, work'.isComposing n = false) : WorkMoves rows work work' where
  rows r hr := .inl (hrows r hr)
  reads now r p n queue h := by
    have hnot := hcomposing n
    rw [h] at hnot
    simp [Work.isComposing] at hnot

/-- What a step may do. -/
structure Moves (s s' : State) : Prop where
  sends : SendsMove s.sends s'.sends
  works : ∀ w, WorkMoves s.sends (s.workOf w) (s'.workOf w)

section Moves

variable {s s' : State}

theorem Moves.of_sends (hsends : SendsMove s.sends s'.sends) (hwork : s'.workers = s.workers) :
    Moves s s' where
  sends := hsends
  works w := by
    rw [show s'.workOf w = s.workOf w from congrArg (fun ws => (ws w).work) hwork]
    exact .refl _ _

/-- One worker moves. -/
theorem Moves.of_work {w : ℕ} {worker : Worker} (hsends : SendsMove s.sends s'.sends)
    (hworkers : s'.workers = Function.update s.workers w worker)
    (hmoves : WorkMoves s.sends (s.workOf w) worker.work) : Moves s s' where
  sends := hsends
  works v := by
    unfold State.workOf at hmoves ⊢
    rw [hworkers]
    -- any other worker is where it was
    by_cases hvw : v = w
    · subst hvw
      rw [Function.update_self]
      exact hmoves
    · rw [Function.update_of_ne hvw]
      exact .refl _ _

end Moves

/-- The payload that a worker composes is read from the row. -/
theorem normalizePayload_of_prepare [CaseMapping] {env : Env} {s s' : State} {w : ℕ}
    {configured : Bool} {now now' : ℕ} {row row' : ScheduledSend} {queue queue' : List ScheduledSend}
    {payload : ScheduledSendPayload} {n : ℕ} (hw : s.workOf w = .claimed now row queue)
    (hs : step env s (.prepare w configured) = some s')
    (hw' : s'.workOf w = .composing now' row' payload n queue') :
    row' = row ∧ normalizePayload row.payload = some payload := by
  simp only [step, hw] at hs
  split at hs
  · -- a row that cannot be prepared is marked as failed instead
    obtain rfl := Option.some.inj hs
    rw [workOf_setWork_self] at hw'
    cases hw'
  · obtain ⟨p, hp, rfl⟩ := Option.map_eq_some_iff.mp hs
    rw [workOf_beginCompose_self] at hw'
    cases hw'
    exact ⟨rfl, hp⟩

/-- **What a step does to the rows and to what the workers have read.** -/
theorem moves_of_step [CaseMapping] {env : Env} {s s' : State} {l : Label}
    (hs : (system env).step s l = some s') : Moves s s' := by
  have hstep : step env s l = some s' := hs
  cases step_sound hs with
  | schedule row hrow hfresh hkey => exact .of_sends (.schedule hfresh) rfl
  | cancelRefused hk => exact .of_sends (.refl _) rfl
  | cancelChecked hk => exact .of_sends (.refl _) rfl
  | cancelWrite hk => exact .of_sends (.update fun _ => ⟨rfl, rfl, rfl⟩) rfl
  | composeStart hw hc => exact .of_sends (.refl _) rfl
  | composeAbort hw hc => exact .of_sends (.refl _) rfl
  | compose hstart hcrash hc => exact .of_sends (.refl _) rfl
  | @sweep w now take hw =>
    -- the rows that are due are rows of the table
    refine .of_work (.refl _) rfl ⟨fun r hr => .inr (mem_of_mem_dueRows hr).1, ?_⟩
    intro now' r p n queue heq
    cases heq
  | @prepared w configured now row queue hw payload =>
    refine .of_work (.refl _) rfl ⟨fun r hr => .inl ?_, fun now' r p n queue' heq => .inr ?_⟩
    · rw [hw]
      exact hr
    · obtain ⟨hrow, hp⟩ := normalizePayload_of_prepare hw hstep
        (workOf_beginCompose_self w (.composing now row payload (s.workers w).begun queue))
      cases heq
      exact hp
  | claimWon hw hcount =>
    refine .of_work (.update fun _ => ⟨rfl, rfl, rfl⟩) rfl (.of_rows (fun r hr => ?_) fun _ => rfl)
    rw [hw]
    exact hr
  | claimLost hw hcount =>
    refine .of_work (.update fun _ => ⟨rfl, rfl, rfl⟩) rfl (.of_rows (fun r hr => ?_) fun _ => rfl)
    rw [hw]
    exact List.mem_cons_of_mem _ hr
  | mark hw =>
    refine .of_work (.update fun _ => ⟨rfl, rfl, rfl⟩) rfl (.of_rows (fun r hr => ?_) fun _ => rfl)
    rw [hw]
    exact List.mem_cons_of_mem _ hr
  | throwCaught hw =>
    refine .of_work (.refl _) rfl (.of_rows (fun r hr => ?_) fun _ => rfl)
    rw [hw]
    exact List.mem_cons_of_mem _ hr
  | sweepEnd hw | crashComposing hw | crash hw =>
    -- the worker rests, and has no rows
    refine .of_work (.refl _) rfl (.of_rows (fun r hr => ?_) fun _ => rfl)
    cases hr
  | prepareFailed hw | finishFailed hw | finishSent hw | finishThrown hw | throwClaim hw
  | throwHeld hw | throwMark hw =>
    -- the worker goes on to mark the row it had
    refine .of_work (.refl _) rfl (.of_rows (fun r hr => ?_) fun _ => rfl)
    rw [hw]
    exact hr

/-! ### Along a run -/

/-- What the workers compose is what the normalizer reads in their rows. -/
def Reads (s : State) : Prop :=
  ∀ w now r p n queue, s.workOf w = .composing now r p n queue → normalizePayload r.payload = some p

theorem Reads.step {s s' : State} (h : Reads s) (hmoves : Moves s s') : Reads s' := by
  intro w now r p n queue hw
  obtain hsame | hread := (hmoves.works w).reads now r p n queue hw
  · exact h w now r p n queue hsame
  · exact hread

theorem reads_of_reachable [CaseMapping] {env : Env} {s : State}
    (h : (system env).Reachable s) : Reads s := by
  refine h.invariant (P := Reads) (fun s hinit w now r p n queue hw => ?_) fun _ _ _ _ hi hs =>
    hi.step (moves_of_step hs)
  rw [hinit.2.2.1 w] at hw
  cases hw

/-- The row of a send is there, and all that is known of it anywhere is of the same send. -/
structure Kept (row : ScheduledSend) (s : State) : Prop where
  there : ∃ r ∈ s.sends, r.id = row.id
  sends : ∀ r ∈ s.sends, r.id = row.id → SameSend row r
  works : ∀ w, ∀ r ∈ (s.workOf w).rows, r.id = row.id → SameSend row r

/-- **Step rule.** A step keeps the row of a send. -/
theorem Kept.step {row : ScheduledSend} {s s' : State} (h : Kept row s) (hmoves : Moves s s') :
    Kept row s' where
  there := by
    obtain ⟨r, hr, hid⟩ := h.there
    obtain ⟨r', hr', hid'⟩ := hmoves.sends.stays r hr
    exact ⟨r', hr', hid'.trans hid⟩
  sends r' hr' hid := by
    obtain ⟨r, hr, hsame⟩ | hnew := hmoves.sends.comes r' hr'
    · exact (h.sends r hr (hsame.id.symm.trans hid)).trans hsame
    · -- a row that comes later has another id
      obtain ⟨r, hr, hrid⟩ := h.there
      exact absurd (hrid.trans hid.symm) (hnew r hr)
  works w r hr hid := by
    obtain hold | hsend := (hmoves.works w).rows r hr
    · exact h.works w r hold hid
    · exact h.sends r hsend hid

/-- A send that has just been scheduled is known only by its row. -/
theorem Kept.of_schedule {row : ScheduledSend} {s : State} (hinv : Inv s)
    (hfresh : ∀ r ∈ s.sends, r.id ≠ row.id) : Kept row { s with sends := s.sends ++ [row] } where
  there := ⟨row, List.mem_append_right _ (List.mem_singleton_self row), rfl⟩
  sends r hr hid := by
    obtain hold | hnew := List.mem_append.mp hr
    · exact absurd hid (hfresh r hold)
    · obtain rfl := List.mem_singleton.mp hnew
      exact .refl r
  works w r hr hid := by
    obtain ⟨r', hr', hid', -⟩ := hinv.known w r hr
    exact absurd (hid'.trans hid) (hfresh r' hr')

/-- **A scheduled payload comes through.** Normalizing twice is normalizing once, and null stays
null. Along any run after a send was scheduled, a worker that composes its message composes what
the client was shown then, and that is what the normalizer made of the request. -/
theorem payload_fidelity [CaseMapping] (env : Env) :
    (∀ raw, normalized (normalized raw) = normalized raw) ∧ normalized .null = .null ∧
      ∀ (s s₁ s₂ : State) (configured : Bool) (ucUid : Option String)
        (workspaceId mailboxId : String) (payload : Json) (sendAt : ℕ) (newId : String)
        (row : ScheduledSend) (ls : List Label),
        (system env).Reachable s →
        (system env).step s (.schedule configured ucUid workspaceId mailboxId payload sendAt newId) =
          some s₁ →
        scheduleSend s.compose.db.settings configured ucUid workspaceId mailboxId payload sendAt
          newId = some row →
        (system env).exec s₁ ls = some s₂ →
        normalizePayload payload = some (scheduledView row).payload ∧
          ∀ w now row' p n queue, s₂.workOf w = .composing now row' p n queue → row'.id = newId →
            Carries (composeInput row' p) (scheduledView row) := by
  refine ⟨normalized_normalized, rfl, ?_⟩
  intro s s₁ s₂ configured ucUid workspaceId mailboxId payload sendAt newId row ls hreach hstep
    hrow hrun
  have hreach₁ : (system env).Reachable s₁ := hreach.step hstep
  have hreads : Reads s₂ := reads_of_reachable (hreach₁.exec (fun _ _ _ => trivial) hrun)
  have hkept₁ : Kept row s₁ := by
    cases step_sound hstep with
    | schedule row' hrow' hfresh hkey =>
      obtain rfl := Option.some.inj (hrow'.symm.trans hrow)
      exact .of_schedule (inv_of_reachable hreach) hfresh
  have hkept : Kept row s₂ :=
    System.exec_invariant (fun _ _ _ h hs => h.step (moves_of_step hs)) hkept₁ hrun
  constructor
  · -- the view reads back what was stored of the request
    unfold scheduleSend at hrow
    split at hrow
    · cases hrow
    · split at hrow
      · cases hrow
      · obtain ⟨p, hp, rfl⟩ := Option.map_eq_some_iff.mp hrow
        show _ = some ((normalizePayload p.toJson).getD emptyPayload)
        rw [normalizePayload_toJson (normal_of_normalizePayload hp), hp]
        rfl
  · intro w now row' p n queue hw hid
    have hmem : row' ∈ (s₂.workOf w).rows := by
      rw [hw]
      exact List.mem_cons_self
    have hid' : row'.id = row.id := hid.trans (scheduleSend_some hrow).1.symm
    exact carries_composeInput (hkept.works w row' hmem hid') (hreads w now row' p n queue hw)

/-- A send with blanks around its recipient and an attachment without a name, as it is asked
for. -/
def untidyPayload : Json :=
  .obj [("toAddress".toList, .str " ada@example.org ".toList), ("cc".toList, .arr [.str [], .null]),
    ("attachments".toList, .arr [.obj [("blob_id".toList, .str "b1".toList)], .null])]

/-- It is scheduled, and a worker that sweeps later is about to compose it. -/
theorem payload_fidelity_run :
    ∃ (s : State) (row row' : ScheduledSend) (p : ScheduledSendPayload),
      s.workOf 0 = .composing 20 row' p 0 [] ∧ p.attachments.length = 1 ∧
        Carries (composeInput row' p) (scheduledView row) := by
  let request : Label := .schedule true none "ws" "mb" untidyPayload 10 "a"
  have hstep : ((system sampleEnv).step sampleStart request).isSome = true := rfl
  have hrow : (scheduleSend sampleStart.compose.db.settings true none "ws" "mb" untidyPayload 10
      "a").isSome = true := rfl
  let s₁ := ((system sampleEnv).step sampleStart request).get hstep
  have hrun : ((system sampleEnv).exec s₁ [.sweep 0 20 5, .claim 0, .prepare 0 true]).isSome =
      true := rfl
  let s₂ := ((system sampleEnv).exec s₁ [.sweep 0 20 5, .claim 0, .prepare 0 true]).get hrun
  have hcarries := ((payload_fidelity sampleEnv).2.2 sampleStart s₁ s₂ true none "ws" "mb"
    untidyPayload 10 "a" _ _ (System.Reachable.init sampleStart_init) (Option.some_get hstep).symm
    (Option.some_get hrow).symm (Option.some_get hrun).symm).2
  exact ⟨s₂, _, _, _, rfl, rfl, hcarries 0 20 _ _ 0 [] rfl rfl⟩

end Scheduler

end EmailOps
