import EmailOps.Client.ComposeRetry
import EmailOps.Email.ComposeWhole
import EmailOps.Framework.TwoRuns
import EmailOps.Scheduling.Protocol

/-!
# The kill switch

A workspace may pause its agents: `agentsPaused` is to stop every compose of an agent, and
none of a human. A human sends from the web client, or schedules a send that a sweep fires
later; an agent composes, and schedules sends too.

* `step` is one operation, done whole; `Report` is what it says of a send.
* `Scoped` is what the switch should do: of two runs of the same operations that differ in
  the switch alone, each send that a human began has the same outcome in both, and no
  compose of an agent reaches the engine in the paused one.
* The code does not do it (`web_send_is_paused`): the flag is read before the compose is
  put down to anyone, so it stops humans as well.
* `scoped_iff` says when it does: when every compose that a human began in the paused
  workspace is a repeat of a recorded one. Composes elsewhere are never told apart.

The proof relates the two worlds (`Alike`). Where the workspaces differ is in what composes
left in the paused one, and in how rows of it ended.
-/

namespace EmailOps
namespace KillSwitch

open Framework Compose

/-! ### Operations -/

/-- Who begins a send. -/
inductive Origin where
  | human | agent
  deriving DecidableEq

structure Config where
  env : Env
  normalizeComposeHtml : Text → Text

/-- The state between operations. -/
structure World where
  db : Db
  sends : List ScheduledSend
  /-- The ids of the rows that an agent scheduled. -/
  agentRows : List String
  /-- The time of each worker's sweep, and what is left of the rows it read. -/
  sweeps : ℕ → ℕ × List ScheduledSend

/-- What an operation says of a send: its outcome, none when it failed before the compose,
and the state its row was left in. -/
structure Report where
  origin : Origin
  workspaceId : String
  /-- Does the code put the compose down to an agent? -/
  attributed : Bool
  outcome : Option Outcome
  row : Option ScheduledSendState

/-- An update of message rows that keeps the columns they are found by: an approval, a
rejection, a delivery event. -/
structure RowUpdate where
  apply : EmailMessage → EmailMessage
  id : ∀ m, (apply m).id = m.id
  workspaceId : ∀ m, (apply m).workspaceId = m.workspaceId
  triple? : ∀ m, (apply m).triple? = m.triple?

/-- The operations. None of them sets the flag of a workspace. -/
inductive Op where
  /-- A human sends from the web client. -/
  | compose (draft : Client.Draft) (uuid : String) (x : Circumstances)
  /-- An agent composes, by whichever path. -/
  | agentCompose (r : Request) (x : Circumstances)
  | schedule (origin : Origin) (configured : Bool) (ucUid : Option String)
      (workspaceId mailboxId : String) (payload : Json) (sendAt : ℕ) (newId : String)
  | cancel (ucUid : Option String) (workspaceId id : String)
  /-- A worker reads the due rows. -/
  | sweep (k now take : ℕ)
  /-- A worker fires the next row it read. -/
  | fire (k : ℕ) (configured : Bool) (sentAt : ℕ) (x : Circumstances)
  /-- Someone changes the settings, the workspaces apart. -/
  | settings (settings : Settings)
  | update (f : RowUpdate)

/-- The id an operation gives to a message. -/
def Op.messageId : Op → Option String
  | .compose _ _ x | .agentCompose _ x | .fire _ _ _ x => some x.ids.messageId
  | _ => none

/-- The compose that a claimed row comes to, none when the row fails before. -/
def rowRequest (settings : Settings) (row : ScheduledSend) (configured : Bool) : Option Request :=
  if Scheduler.prepareFails settings row configured then none
  else (normalizePayload row.payload).map (Scheduler.requestOf row)

/-- The state a fired row is left in. -/
def firedState (o : Outcome) : ScheduledSendState :=
  match o.answer with
  | .ok view => if view.status = .failed then .failed else .sent
  | .error _ => .failed

/-- Who scheduled a row. -/
def World.originOf (w : World) (row : ScheduledSend) : Origin :=
  if row.id ∈ w.agentRows then .agent else .human

/-- Does the code put a compose down to an agent? -/
def attributed (settings : Settings) (r : Request) : Bool :=
  agentInitiated (resolveAgent settings r.workspaceId r.input) r.input

/-- Mark a row that a sweep claimed. -/
def World.mark (w : World) (id : String) (state : ScheduledSendState) (sentAt : ℕ) : World :=
  { w with
    sends := markScheduledSend w.sends id state (if state = .sent then some sentAt else none) }

/-- Begin a worker's sweep, or move on in it. -/
def World.setSweep (w : World) (k now : ℕ) (queue : List ScheduledSend) : World :=
  { w with sweeps := Function.update w.sweeps k (now, queue) }

/-- The report on a compose. -/
def composeReport (w : World) (origin : Origin) (r : Request) (o : Outcome)
    (row : Option ScheduledSendState) : Report :=
  ⟨origin, r.workspaceId, attributed w.db.settings r, some o, row⟩

section Step

variable [CaseMapping]

/-- Compose. -/
def World.compose (w : World) (config : Config) (r : Request) (x : Circumstances) :
    World × Outcome :=
  let done := composeEmail config.env w.db r x
  ({ w with db := done.1 }, done.2)

/-- Fire a row that is claimed. -/
def World.fireClaimed (w : World) (config : Config) (row : ScheduledSend) (configured : Bool)
    (sentAt : ℕ) (x : Circumstances) : World × Report :=
  match rowRequest w.db.settings row configured with
  | none =>
    (w.mark row.id .failed sentAt, ⟨w.originOf row, row.workspaceId, false, none, some .failed⟩)
  | some r =>
    let done := w.compose config r x
    (done.1.mark row.id (firedState done.2) sentAt,
      composeReport w (w.originOf row) r done.2 (some (firedState done.2)))

/-- One operation. -/
def step (config : Config) (w : World) : Op → World × Option Report
  | .compose draft uuid x =>
    match Client.composeRequest config.normalizeComposeHtml draft uuid with
    | .error _ => (w, some ⟨.human, draft.workspaceId, false, none, none⟩)
    | .ok r =>
      let done := w.compose config r x
      (done.1, some (composeReport w .human r done.2 none))
  | .agentCompose r x =>
    let done := w.compose config r x
    (done.1, some (composeReport w .agent r done.2 none))
  | .schedule origin configured ucUid workspaceId mailboxId payload sendAt newId =>
    match scheduleSend w.db.settings configured ucUid workspaceId mailboxId payload sendAt
        newId with
    | some row =>
      if w.sends.any (·.id = newId) then (w, none)
      else
        ({ w with
            sends := w.sends ++ [row]
            agentRows := if origin = .agent then newId :: w.agentRows else w.agentRows }, none)
    | none => (w, none)
  | .cancel ucUid workspaceId id =>
    match w.sends.find? (cancelGuard workspaceId id) with
    | some row =>
      match resolveSovereignMailboxForCaller w.db.settings workspaceId ucUid row.mailboxId with
      | some _ => ({ w with sends := cancelUpdate w.sends workspaceId id }, none)
      | none => (w, none)
    | none => (w, none)
  | .sweep k now take => (w.setSweep k now (dueRows w.sends now take), none)
  | .fire k configured sentAt x =>
    match w.sweeps k with
    | (_, []) => (w, none)
    | (now, row :: queue) =>
      let w' := { w.setSweep k now queue with sends := claim w.sends row now }
      if w.sends.countP (claimGuard row) = 1 then
        let done := w'.fireClaimed config row configured sentAt x
        (done.1, some done.2)
      else (w', none)
  | .settings settings =>
    ({ w with db := { w.db with
        settings := { settings with workspaces := w.db.settings.workspaces } } }, none)
  | .update f => ({ w with db := { w.db with messages := w.db.messages.map f.apply } }, none)

end Step

/-! ### What the switch should do -/

/-- Set the flag of a workspace. -/
def World.setPaused (w : World) (ws : String) (paused : Bool) : World :=
  { w with db := { w.db with settings := { w.db.settings with
      workspaces := w.db.settings.workspaces.map fun row =>
        if row.id = ws then { row with agentsPaused := paused } else row } } }

/-- What is seen of an operation by those who only watch the sends of humans. -/
def humanView (out : Option Report) : Option Report :=
  out.filter (·.origin = .human)

/-- The ids that the operations give are new, as uuids are. -/
structure FreshIds (w : World) (ops : List Op) : Prop where
  nodup : (ops.filterMap Op.messageId).Nodup
  fresh : ∀ id ∈ ops.filterMap Op.messageId, FreshId w.db id

section Claims

variable [CaseMapping]

/-- **What the switch should do**: leave the sends of humans as they are, and keep the
composes of agents from the engine. -/
structure Scoped (config : Config) (ws : String) (start : World) (ops : List Op) : Prop where
  human : (TwoRuns.outputs (step config) (start.setPaused ws false) ops).map humanView =
    (TwoRuns.outputs (step config) (start.setPaused ws true) ops).map humanView
  agents : ∀ out ∈ TwoRuns.outputs (step config) (start.setPaused ws true) ops,
    ∀ report, out = some report → report.workspaceId = ws →
      report.origin = .agent ∨ report.attributed = true →
        ∀ o, report.outcome = some o → o.handed = none

/-- The compose that a human began and an operation comes to. -/
def humanCompose (config : Config) (w : World) : Op → Option Request
  | .compose draft uuid _ =>
    (Client.composeRequest config.normalizeComposeHtml draft uuid).toOption
  | .fire k configured _ _ =>
    match (w.sweeps k).2 with
    | [] => none
    | row :: _ =>
      if w.originOf row = .human ∧ w.sends.countP (claimGuard row) = 1 then
        rowRequest w.db.settings row configured
      else none
  | _ => none

/-- **The condition.** A compose that a human began in the workspace is a repeat. -/
def Repeats (config : Config) (ws : String) (w : World) (op : Op) : Prop :=
  ∀ r, humanCompose config w op = some r → r.workspaceId = ws →
    findByTriple w.db.messages r.triple ≠ none

instance (config : Config) (ws : String) (w : World) (op : Op) :
    Decidable (Repeats config ws w op) :=
  match h : humanCompose config w op with
  | none => isTrue fun r hr => by rw [h] at hr; cases hr
  | some r =>
    decidable_of_iff (r.workspaceId = ws → (findByTriple w.db.messages r.triple).isSome = true) (by
      simp [Repeats, h, Option.isSome_iff_ne_none])

end Claims

/-! ### The two worlds -/

section Related

variable (ws : String)

/-- What the databases of the two worlds have in common: the first is not paused, the second
is, and the first may have more messages in the paused workspace. -/
structure DbAlike (db db' : Db) : Prop where
  settings : db.settings = { db'.settings with workspaces := db.settings.workspaces }
  unpaused : agentsPaused db.settings ws = false
  paused : agentsPaused db'.settings ws = true
  flags : ∀ w ≠ ws, agentsPaused db.settings w = agentsPaused db'.settings w
  others : ∀ w ≠ ws, messagesOf db w = messagesOf db' w
  own : messagesOf db' ws <+: messagesOf db ws

/-- A row is in a final state. -/
def Ended (row : ScheduledSend) : Prop :=
  row.state ≠ .pending ∧ row.state ≠ .claimed

/-- The rows of the two worlds: the same, or one row that has ended in both. -/
def RowAlike (row row' : ScheduledSend) : Prop :=
  row = row' ∨ (row.id = row'.id ∧ Ended row ∧ Ended row')

/-- **The two worlds**, before the operations `ops`. -/
structure Alike (ops : List Op) (w w' : World) : Prop where
  db : DbAlike ws w.db w'.db
  sends : List.Forall₂ RowAlike w.sends w'.sends
  agentRows : w.agentRows = w'.agentRows
  sweeps : w.sweeps = w'.sweeps
  fresh : FreshIds w ops
  fresh' : FreshIds w' ops

end Related

/-! ### Rows -/

section Rows

variable {rows rows' : List ScheduledSend} {p : ScheduledSend → Bool}

/-- Statements that leave ended rows alone select the same rows. -/
theorem filter_alike (h : List.Forall₂ RowAlike rows rows')
    (hp : ∀ row, Ended row → p row = false) : rows.filter p = rows'.filter p := by
  induction h with
  | nil => rfl
  | @cons row row' _ _ hrow _ ih =>
    rcases hrow with rfl | ⟨-, hended, hended'⟩
    · rw [List.filter_cons, List.filter_cons, ih]
    · rw [List.filter_cons_of_neg (by simp [hp row hended]),
        List.filter_cons_of_neg (by simp [hp row' hended']), ih]

theorem countP_alike (h : List.Forall₂ RowAlike rows rows')
    (hp : ∀ row, Ended row → p row = false) : rows.countP p = rows'.countP p := by
  rw [List.countP_eq_length_filter, List.countP_eq_length_filter, filter_alike h hp]

theorem find?_alike (h : List.Forall₂ RowAlike rows rows')
    (hp : ∀ row, Ended row → p row = false) : rows.find? p = rows'.find? p := by
  rw [← List.head?_filter, ← List.head?_filter, filter_alike h hp]

/-- An update of rows that have not ended keeps the rows alike. -/
theorem updateMany_alike {f f' : ScheduledSend → ScheduledSend}
    (h : List.Forall₂ RowAlike rows rows') (hp : ∀ row, Ended row → p row = false)
    (hf : ∀ row, RowAlike (f row) (f' row)) :
    List.Forall₂ RowAlike (updateMany rows p f) (updateMany rows' p f') := by
  unfold updateMany
  rw [List.forall₂_map_left_iff, List.forall₂_map_right_iff]
  refine h.imp fun row row' hrow => ?_
  rcases hrow with rfl | ⟨hid, hended, hended'⟩
  · split
    · exact hf row
    · exact .inl rfl
  · rw [hp row hended, hp row' hended']
    exact .inr ⟨hid, hended, hended'⟩

theorem ids_alike (h : List.Forall₂ RowAlike rows rows') (id : String) :
    rows.any (·.id = id) = rows'.any (·.id = id) := by
  induction h with
  | nil => rfl
  | @cons row row' _ _ hrow _ ih =>
    have hid : row.id = row'.id := by
      rcases hrow with rfl | ⟨hid, -⟩
      · rfl
      · exact hid
    rw [List.any_cons, List.any_cons, ih, hid]

/-! An ended row is not due, and is not claimed, marked or cancelled any more. -/

theorem isDue_ended {row : ScheduledSend} (h : Ended row) (now : ℕ) : isDue now row = false := by
  simp [isDue, h.1, h.2]

theorem claimGuard_ended {row : ScheduledSend} (h : Ended row) (snapshot : ScheduledSend) :
    claimGuard snapshot row = false := by
  unfold claimGuard
  split <;> simp [h.1, h.2]

theorem markGuard_ended {row : ScheduledSend} (h : Ended row) (id : String) :
    markGuard id row = false := by
  simp [markGuard, h.2]

theorem cancelGuard_ended {row : ScheduledSend} (h : Ended row) (workspaceId id : String) :
    cancelGuard workspaceId id row = false := by
  simp [cancelGuard, h.1]

theorem markScheduledSend_alike {state state' : ScheduledSendState} {sentAt sentAt' : Option ℕ}
    (h : List.Forall₂ RowAlike rows rows') (id : String)
    (hstate : state ≠ .pending ∧ state ≠ .claimed)
    (hstate' : state' ≠ .pending ∧ state' ≠ .claimed) :
    List.Forall₂ RowAlike (markScheduledSend rows id state sentAt)
      (markScheduledSend rows' id state' sentAt') :=
  updateMany_alike h (fun _ hended => markGuard_ended hended id)
    fun _ => .inr ⟨rfl, hstate, hstate'⟩

theorem firedState_ended (o : Outcome) : firedState o ≠ .pending ∧ firedState o ≠ .claimed := by
  unfold firedState
  split
  · split <;> decide
  · decide

end Rows

/-! ### Databases -/

section Databases

variable {ws : String} {db db' : Db}

theorem DbAlike.seesAlike (h : DbAlike ws db db') {w : String} (hw : w ≠ ws) :
    SeesAlike w db' db :=
  ⟨h.settings, h.flags w hw, h.others w hw⟩

theorem DbAlike.recorded (h : DbAlike ws db db') {key : String × String} {m : EmailMessage}
    (hm : findByTriple db'.messages (ws, key) = some m) :
    findByTriple db.messages (ws, key) = some m := by
  rw [← findByTriple_messagesOf] at hm ⊢
  obtain ⟨more, hmore⟩ := h.own
  unfold findByTriple at hm ⊢
  rw [← hmore, List.find?_append, hm, Option.some_or]

variable [CaseMapping] {env : Env} {r : Request} {x : Circumstances}

/-- **A compose keeps the databases alike.** -/
theorem DbAlike.compose (h : DbAlike ws db db') (hfresh : FreshId db x.ids.messageId)
    (hfresh' : FreshId db' x.ids.messageId) :
    DbAlike ws (composeEmail env db r x).1 (composeEmail env db' r x).1 := by
  have hsettings : (composeEmail env db r x).1.settings = db.settings := composeEmail_settings
  have hsettings' : (composeEmail env db' r x).1.settings = db'.settings := composeEmail_settings
  -- New rows show in the workspace of the compose only.
  have hadd : ∀ {d d' : Db} {rows : List EmailMessage} {w : String},
      d'.messages = d.messages ++ rows →
        messagesOf d' w = messagesOf d w ++ rows.filter (·.workspaceId = w) := by
    intro d d' rows w hd
    unfold messagesOf
    rw [hd, List.filter_append]
  have hnone : ∀ {rows : List EmailMessage} {w : String},
      (∀ m ∈ rows, m.workspaceId = r.workspaceId ∧ m.id = x.ids.messageId) →
        r.workspaceId ≠ w → rows.filter (·.workspaceId = w) = [] := by
    intro rows w hrows hw
    refine List.filter_eq_nil_iff.mpr fun m hm => ?_
    rw [(hrows m hm).1]
    simpa using hw
  by_cases hws : r.workspaceId = ws
  · -- The compose is refused in the paused world.
    obtain ⟨hdb', -⟩ := composeEmail_of_paused (r := r) env x
      (by rw [hws]; exact h.paused)
    obtain ⟨rows, hrows, hmessages⟩ := composeEmail_messages env r hfresh
    rw [hdb']
    refine ⟨by rw [hsettings]; exact h.settings, by rw [hsettings]; exact h.unpaused, h.paused,
      by rw [hsettings]; exact h.flags, fun w hw => ?_, ?_⟩
    · rw [hadd hmessages, hnone hrows (by rw [hws]; exact hw.symm), List.append_nil]
      exact h.others w hw
    · rw [hadd hmessages]
      exact h.own.trans (List.prefix_append _ _)
  · obtain ⟨-, rows, hrows, hmessages', hmessages⟩ :=
      composeEmail_congr env (h.seesAlike hws) hfresh' hfresh
    refine ⟨by rw [hsettings, hsettings']; exact h.settings, by rw [hsettings]; exact h.unpaused,
      by rw [hsettings']; exact h.paused, by rw [hsettings, hsettings']; exact h.flags,
      fun w hw => ?_, ?_⟩
    · rw [hadd hmessages, hadd hmessages', h.others w hw]
    · rw [hadd hmessages, hadd hmessages', hnone hrows hws, List.append_nil, List.append_nil]
      exact h.own

/-- **What is not told apart**: composes elsewhere, and repeats. -/
theorem DbAlike.outcome_eq (h : DbAlike ws db db') (hfresh : FreshId db x.ids.messageId)
    (hfresh' : FreshId db' x.ids.messageId)
    (hr : r.workspaceId = ws → findByTriple db'.messages r.triple ≠ none) :
    (composeEmail env db r x).2 = (composeEmail env db' r x).2 := by
  by_cases hws : r.workspaceId = ws
  · obtain ⟨m, hm⟩ := Option.ne_none_iff_exists'.mp (hr hws)
    have htriple : r.triple = (ws, r.input.externalSource, r.input.externalRef) := by
      rw [← hws]
      rfl
    have hm₀ : findByTriple db.messages r.triple = some m := by
      rw [htriple] at hm ⊢
      exact h.recorded hm
    rw [composeEmail_recorded hm, composeEmail_recorded hm₀]
  · exact (composeEmail_congr env (h.seesAlike hws) hfresh' hfresh).1

/-- **What is told apart**: any other compose in the workspace. -/
theorem DbAlike.outcome_ne (h : DbAlike ws db db') (hfresh : FreshId db x.ids.messageId)
    (hws : r.workspaceId = ws) (hkey : findByTriple db'.messages r.triple = none) :
    (composeEmail env db r x).2 ≠ (composeEmail env db' r x).2 := by
  rw [composeEmail_paused hkey (by rw [hws]; exact h.paused)]
  intro heq
  refine composeEmail_ne_pausedError (r := r) (x := x) env ?_ hfresh
    (congrArg Outcome.answer heq)
  rw [hws]
  exact h.unpaused

end Databases

/-! ### Ids -/

section Fresh

variable {w w' : World} {op : Op} {ops : List Op}

/-- The ids of the later operations are fresh after an operation whose new messages have the
id that it gave. -/
theorem FreshIds.next (h : FreshIds w (op :: ops))
    (hids : ∀ m ∈ w'.db.messages, (∃ m₀ ∈ w.db.messages, m.id = m₀.id) ∨
      op.messageId = some m.id) : FreshIds w' ops := by
  obtain ⟨hnodup, hfresh⟩ := h
  cases hop : op.messageId with
  | none =>
    rw [List.filterMap_cons_none hop] at hnodup hfresh
    refine ⟨hnodup, fun id hid m hm => ?_⟩
    rcases hids m hm with ⟨m₀, hm₀, heq⟩ | heq
    · rw [heq]
      exact hfresh id hid m₀ hm₀
    · rw [hop] at heq
      cases heq
  | some new =>
    rw [List.filterMap_cons_some hop] at hnodup hfresh
    obtain ⟨hnew, hnodup⟩ := List.nodup_cons.mp hnodup
    refine ⟨hnodup, fun id hid m hm => ?_⟩
    rcases hids m hm with ⟨m₀, hm₀, heq⟩ | heq
    · rw [heq]
      exact hfresh id (List.mem_cons_of_mem _ hid) m₀ hm₀
    · rintro rfl
      rw [hop] at heq
      exact hnew (Option.some.inj heq ▸ hid)

theorem FreshIds.same (h : FreshIds w (op :: ops)) (hw : w'.db.messages = w.db.messages) :
    FreshIds w' ops :=
  h.next fun m hm => .inl ⟨m, hw ▸ hm, rfl⟩

theorem FreshIds.head {id : String} (h : FreshIds w (op :: ops)) (hop : op.messageId = some id) :
    FreshId w.db id := by
  refine h.fresh id ?_
  rw [List.filterMap_cons_some hop]
  exact List.mem_cons_self

variable [CaseMapping]

theorem FreshIds.compose (h : FreshIds w (op :: ops)) {x : Circumstances}
    (hop : op.messageId = some x.ids.messageId) {env : Env} {r : Request}
    (hw : w'.db = (composeEmail env w.db r x).1) : FreshIds w' ops := by
  obtain ⟨rows, hrows, hmessages⟩ := composeEmail_messages env r (h.head hop)
  refine h.next fun m hm => ?_
  rw [hw, hmessages] at hm
  rcases List.mem_append.mp hm with hm | hm
  · exact .inl ⟨m, hm, rfl⟩
  · rw [(hrows m hm).2]
    exact .inr hop

end Fresh

/-! ### One operation in both worlds -/

section Steps

variable {ws : String} {op : Op} {ops : List Op} {w w' : World}

theorem DbAlike.rowRequest {db db' : Db} (h : DbAlike ws db db') (row : ScheduledSend)
    (configured : Bool) :
    rowRequest db.settings row configured = rowRequest db'.settings row configured := by
  rw [h.settings]
  rfl

theorem DbAlike.attributed {db db' : Db} (h : DbAlike ws db db') (r : Request) :
    attributed db.settings r = attributed db'.settings r := by
  rw [h.settings]
  rfl

theorem Alike.idle (h : Alike ws (op :: ops) w w') : Alike ws ops w w' :=
  ⟨h.db, h.sends, h.agentRows, h.sweeps, h.fresh.same rfl, h.fresh'.same rfl⟩

variable [CaseMapping] {config : Config}

theorem Alike.compose (config : Config) (h : Alike ws (op :: ops) w w') {x : Circumstances}
    (hop : op.messageId = some x.ids.messageId) (r : Request) :
    Alike ws ops (w.compose config r x).1 (w'.compose config r x).1 :=
  ⟨h.db.compose (h.fresh.head hop) (h.fresh'.head hop), h.sends, h.agentRows, h.sweeps,
    h.fresh.compose hop rfl, h.fresh'.compose hop rfl⟩

/-- **The reports on one compose** are the same if and only if it is elsewhere, or a repeat. -/
theorem Alike.report_eq_iff (h : Alike ws (op :: ops) w w') {x : Circumstances}
    (hop : op.messageId = some x.ids.messageId) (r : Request) (origin : Origin)
    (row : Outcome → Option ScheduledSendState) :
    composeReport w origin r (w.compose config r x).2 (row (w.compose config r x).2) =
        composeReport w' origin r (w'.compose config r x).2 (row (w'.compose config r x).2) ↔
      (r.workspaceId = ws → findByTriple w'.db.messages r.triple ≠ none) := by
  constructor
  · intro heq hws hkey
    exact h.db.outcome_ne (h.fresh.head hop) hws hkey
      (Option.some.inj (congrArg Report.outcome heq))
  · intro hr
    have houtcome : (w.compose config r x).2 = (w'.compose config r x).2 :=
      h.db.outcome_eq (h.fresh.head hop) (h.fresh'.head hop) hr
    unfold composeReport
    rw [houtcome, h.db.attributed]

/-- **Firing a claimed row** keeps the worlds alike, and what it says is told apart only
where a compose is. -/
theorem Alike.fireClaimed (config : Config) (h : Alike ws (op :: ops) w w')
    {x : Circumstances} (hop : op.messageId = some x.ids.messageId) (row : ScheduledSend) (configured : Bool)
    (sentAt : ℕ) :
    Alike ws ops (w.fireClaimed config row configured sentAt x).1
        (w'.fireClaimed config row configured sentAt x).1 ∧
      ((w.fireClaimed config row configured sentAt x).2 =
          (w'.fireClaimed config row configured sentAt x).2 ↔
        ∀ r, rowRequest w'.db.settings row configured = some r → r.workspaceId = ws →
          findByTriple w'.db.messages r.triple ≠ none) := by
  have horigin : w.originOf row = w'.originOf row := by
    unfold World.originOf
    rw [h.agentRows]
  unfold World.fireClaimed
  rw [h.db.rowRequest]
  cases hrow : KillSwitch.rowRequest w'.db.settings row configured with
  | none =>
    have hmark : List.Forall₂ RowAlike (w.mark row.id .failed sentAt).sends
        (w'.mark row.id .failed sentAt).sends :=
      markScheduledSend_alike h.sends row.id (by decide) (by decide)
    refine ⟨?_, iff_of_true (by rw [horigin]) (fun r hr => nomatch hr)⟩
    exact ⟨h.db, hmark, h.agentRows, h.sweeps, h.fresh.same rfl, h.fresh'.same rfl⟩
  | some r =>
    have hcompose := h.compose config hop r
    have hmark : List.Forall₂ RowAlike
        (w.mark row.id (firedState (w.compose config r x).2) sentAt).sends
        (w'.mark row.id (firedState (w'.compose config r x).2) sentAt).sends :=
      markScheduledSend_alike h.sends row.id (firedState_ended _) (firedState_ended _)
    refine ⟨⟨hcompose.db, hmark, h.agentRows, h.sweeps, ⟨hcompose.fresh.1, hcompose.fresh.2⟩,
      ⟨hcompose.fresh'.1, hcompose.fresh'.2⟩⟩, ?_⟩
    rw [horigin]
    refine (h.report_eq_iff hop r (w'.originOf row) fun o => some (firedState o)).trans ?_
    simp

omit [CaseMapping] in
theorem humanView_of_agent {report : Report} (h : report.origin = .agent) :
    humanView (some report) = none := by
  unfold humanView
  rw [Option.filter_some, h]
  rfl

omit [CaseMapping] in
theorem humanView_of_human {report : Report} (h : report.origin = .human) :
    humanView (some report) = some report := by
  unfold humanView
  rw [Option.filter_some, h]
  rfl

/-- What an operation has to show in both worlds: that they stay alike, and are told apart
unless it meets the condition. -/
def Shows (config : Config) (ws : String) (ops : List Op) (w w' : World) (op : Op) : Prop :=
  Alike ws ops (step config w op).1 (step config w' op).1 ∧
    (humanView (step config w op).2 = humanView (step config w' op).2 ↔ Repeats config ws w' op)

theorem shows_of_silent (halike : Alike ws ops (step config w op).1 (step config w' op).1)
    (hview : humanView (step config w op).2 = humanView (step config w' op).2)
    (hnone : humanCompose config w' op = none) : Shows config ws ops w w' op := by
  refine ⟨halike, iff_of_true hview fun r hr => ?_⟩
  rw [hnone] at hr
  cases hr

theorem Alike.shows_compose {draft : Client.Draft} {uuid : String} {x : Circumstances}
    (h : Alike ws (.compose draft uuid x :: ops) w w') :
    Shows config ws ops w w' (.compose draft uuid x) := by
  unfold Shows Repeats humanCompose
  simp only [step]
  cases hreq : Client.composeRequest config.normalizeComposeHtml draft uuid with
  | error e => exact ⟨h.idle, iff_of_true rfl fun r hr => nomatch hr⟩
  | ok r =>
    refine ⟨h.compose config rfl r, ?_⟩
    dsimp only
    rw [humanView_of_human rfl, humanView_of_human rfl, Option.some.injEq]
    refine (h.report_eq_iff rfl r .human fun _ => none).trans ?_
    simp [Except.toOption]

theorem Alike.shows_agentCompose {r : Request} {x : Circumstances}
    (h : Alike ws (.agentCompose r x :: ops) w w') :
    Shows config ws ops w w' (.agentCompose r x) := by
  refine shows_of_silent (h.compose config rfl r) ?_ rfl
  simp only [step]
  rw [humanView_of_agent rfl, humanView_of_agent rfl]

theorem Alike.shows_schedule {origin : Origin} {configured : Bool} {ucUid : Option String}
    {workspaceId mailboxId : String} {payload : Json} {sendAt : ℕ} {newId : String}
    (h : Alike ws
      (.schedule origin configured ucUid workspaceId mailboxId payload sendAt newId :: ops) w w') :
    Shows config ws ops w w'
      (.schedule origin configured ucUid workspaceId mailboxId payload sendAt newId) := by
  have hrow : scheduleSend w.db.settings configured ucUid workspaceId mailboxId payload sendAt
      newId = scheduleSend w'.db.settings configured ucUid workspaceId mailboxId payload sendAt
      newId := by
    rw [h.db.settings]
    rfl
  have hmoved : Alike ws ops
      (step config w (.schedule origin configured ucUid workspaceId mailboxId payload sendAt newId)).1
      (step config w' (.schedule origin configured ucUid workspaceId mailboxId payload sendAt
        newId)).1 := by
    simp only [step]
    rw [hrow]
    split
    · rw [ids_alike h.sends]
      split
      · exact h.idle
      · -- The row is the same in both.
        refine ⟨h.db, List.rel_append h.sends (.cons (.inl rfl) .nil), ?_, h.sweeps,
          h.fresh.same rfl, h.fresh'.same rfl⟩
        dsimp only
        rw [h.agentRows]
    · exact h.idle
  refine shows_of_silent hmoved ?_ rfl
  have hnone : ∀ v : World, (step config v
      (.schedule origin configured ucUid workspaceId mailboxId payload sendAt newId)).2 = none := by
    intro v
    simp only [step]
    split
    · split <;> rfl
    · rfl
  rw [hnone, hnone]

theorem Alike.shows_cancel {ucUid : Option String} {workspaceId id : String}
    (h : Alike ws (.cancel ucUid workspaceId id :: ops) w w') :
    Shows config ws ops w w' (.cancel ucUid workspaceId id) := by
  have hresolve : resolveSovereignMailboxForCaller w.db.settings =
      resolveSovereignMailboxForCaller w'.db.settings := by
    rw [h.db.settings]
    rfl
  have hguard : ∀ row, Ended row → cancelGuard workspaceId id row = false :=
    fun row hended => cancelGuard_ended hended workspaceId id
  have hmoved : Alike ws ops (step config w (.cancel ucUid workspaceId id)).1
      (step config w' (.cancel ucUid workspaceId id)).1 := by
    simp only [step]
    rw [find?_alike h.sends hguard, hresolve]
    split
    · split
      · exact ⟨h.db, updateMany_alike h.sends hguard fun row => .inl rfl, h.agentRows, h.sweeps,
          h.fresh.same rfl, h.fresh'.same rfl⟩
      · exact h.idle
    · exact h.idle
  refine shows_of_silent hmoved ?_ rfl
  have hnone : ∀ v : World, (step config v (.cancel ucUid workspaceId id)).2 = none := by
    intro v
    simp only [step]
    split
    · split <;> rfl
    · rfl
  rw [hnone, hnone]

theorem Alike.shows_sweep {k now take : ℕ} (h : Alike ws (.sweep k now take :: ops) w w') :
    Shows config ws ops w w' (.sweep k now take) := by
  have hdue : dueRows w.sends now take = dueRows w'.sends now take := by
    unfold dueRows
    rw [filter_alike h.sends fun row hended => isDue_ended hended now]
  refine shows_of_silent ⟨h.db, h.sends, h.agentRows, ?_, h.fresh.same rfl, h.fresh'.same rfl⟩
    rfl rfl
  change Function.update w.sweeps k (now, _) = Function.update w'.sweeps k (now, _)
  rw [h.sweeps, hdue]

theorem Alike.shows_settings {settings : Settings}
    (h : Alike ws (.settings settings :: ops) w w') :
    Shows config ws ops w w' (.settings settings) :=
  shows_of_silent
    ⟨⟨rfl, h.db.unpaused, h.db.paused, h.db.flags, h.db.others, h.db.own⟩, h.sends, h.agentRows,
      h.sweeps, h.fresh.same rfl, h.fresh'.same rfl⟩ rfl rfl

theorem Alike.shows_update {f : RowUpdate} (h : Alike ws (.update f :: ops) w w') :
    Shows config ws ops w w' (.update f) := by
  -- The messages of a workspace are updated in place.
  have hmessages : ∀ (db : Db) v,
      messagesOf { db with messages := db.messages.map f.apply } v =
        (messagesOf db v).map f.apply := by
    intro db v
    unfold messagesOf
    rw [List.filter_map]
    refine congrArg (List.map _) (List.filter_congr fun m _ => ?_)
    simp only [Function.comp_apply, f.workspaceId]
  have hids : ∀ (v : World), ∀ m ∈ v.db.messages.map f.apply,
      (∃ m₀ ∈ v.db.messages, m.id = m₀.id) ∨ (Op.update f).messageId = some m.id := by
    intro v m hm
    obtain ⟨m₀, hm₀, rfl⟩ := List.mem_map.mp hm
    exact .inl ⟨m₀, hm₀, f.id m₀⟩
  refine shows_of_silent ⟨⟨h.db.settings, h.db.unpaused, h.db.paused, h.db.flags, ?_, ?_⟩,
    h.sends, h.agentRows, h.sweeps, h.fresh.next (hids w), h.fresh'.next (hids w')⟩ rfl rfl
  · intro v hv
    rw [step, step, hmessages, hmessages, h.db.others v hv]
  · rw [step, step, hmessages, hmessages]
    exact h.db.own.map f.apply

theorem fireClaimed_origin (config : Config) (v : World) (row : ScheduledSend) (configured : Bool) (sentAt : ℕ)
    (x : Circumstances) :
    (v.fireClaimed config row configured sentAt x).2.origin = v.originOf row := by
  unfold World.fireClaimed
  split <;> rfl

theorem Alike.shows_fire {k : ℕ} {configured : Bool} {sentAt : ℕ} {x : Circumstances}
    (h : Alike ws (.fire k configured sentAt x :: ops) w w') :
    Shows config ws ops w w' (.fire k configured sentAt x) := by
  unfold Shows Repeats humanCompose
  simp only [step]
  rw [h.sweeps]
  cases hsweep : w'.sweeps k with
  | mk now queue =>
    cases queue with
    | nil => exact ⟨h.idle, iff_of_true rfl fun r hr => nomatch hr⟩
    | cons row queue =>
      dsimp only
      have hguard : ∀ r, Ended r → claimGuard row r = false :=
        fun r hended => claimGuard_ended hended row
      -- Both worlds move on in the sweep and claim the row, or do not.
      have hclaimed : Alike ws (.fire k configured sentAt x :: ops)
          { w.setSweep k now queue with sends := claim w.sends row now }
          { w'.setSweep k now queue with sends := claim w'.sends row now } := by
        refine ⟨h.db, updateMany_alike h.sends hguard fun r => .inl rfl, h.agentRows, ?_,
          ⟨h.fresh.1, h.fresh.2⟩, ⟨h.fresh'.1, h.fresh'.2⟩⟩
        change Function.update w.sweeps k (now, queue) = Function.update w'.sweeps k (now, queue)
        rw [h.sweeps]
      rw [countP_alike h.sends hguard]
      by_cases hcount : w'.sends.countP (claimGuard row) = 1
      · rw [if_pos hcount, if_pos hcount]
        obtain ⟨hnext, hreport⟩ := hclaimed.fireClaimed config rfl row configured sentAt
        refine ⟨hnext, ?_⟩
        have horigin := fireClaimed_origin config
          { w.setSweep k now queue with sends := claim w.sends row now } row configured sentAt x
        have horigin' := fireClaimed_origin config
          { w'.setSweep k now queue with sends := claim w'.sends row now } row configured sentAt x
        have hsame : w.originOf row = w'.originOf row := by
          unfold World.originOf
          rw [h.agentRows]
        cases hrow : w'.originOf row with
        | human =>
          rw [humanView_of_human (horigin.trans (hsame.trans hrow)),
            humanView_of_human (horigin'.trans hrow), Option.some.injEq]
          refine hreport.trans ?_
          rw [if_pos ⟨rfl, hcount⟩]
          rfl
        | agent =>
          rw [humanView_of_agent (horigin.trans (hsame.trans hrow)),
            humanView_of_agent (horigin'.trans hrow)]
          refine iff_of_true rfl fun r hr => ?_
          rw [if_neg fun hand => nomatch hand.1] at hr
          cases hr
      · rw [if_neg hcount, if_neg hcount]
        refine ⟨hclaimed.idle, iff_of_true rfl fun r hr => ?_⟩
        rw [if_neg fun hand => hcount hand.2] at hr
        cases hr

/-- **One operation in both worlds.** -/
theorem Alike.shows (h : Alike ws (op :: ops) w w') : Shows config ws ops w w' op := by
  cases op with
  | compose draft uuid x => exact h.shows_compose
  | agentCompose r x => exact h.shows_agentCompose
  | schedule origin configured ucUid workspaceId mailboxId payload sendAt newId =>
    exact h.shows_schedule
  | cancel ucUid workspaceId id => exact h.shows_cancel
  | sweep k now take => exact h.shows_sweep
  | fire k configured sentAt x => exact h.shows_fire
  | settings settings => exact h.shows_settings
  | update f => exact h.shows_update

end Steps

/-! ### The paused workspace -/

section Paused

variable [CaseMapping] {config : Config} {ws : String}

/-- No operation sets a flag. -/
theorem step_agentsPaused (w : World) (op : Op) :
    agentsPaused (step config w op).1.db.settings ws = agentsPaused w.db.settings ws := by
  have hcompose : ∀ (v : World) (r : Request) (x : Circumstances),
      agentsPaused (v.compose config r x).1.db.settings ws = agentsPaused v.db.settings ws := by
    intro v r x
    unfold World.compose
    rw [composeEmail_settings]
  have hfire : ∀ (v : World) (row : ScheduledSend) configured sentAt x,
      agentsPaused (v.fireClaimed config row configured sentAt x).1.db.settings ws =
        agentsPaused v.db.settings ws := by
    intro v row configured sentAt x
    unfold World.fireClaimed
    split
    · rfl
    · exact hcompose v _ x
  cases op with
  | compose draft uuid x =>
    simp only [step]
    split
    · rfl
    · exact hcompose w _ x
  | agentCompose r x => exact hcompose w r x
  | schedule origin configured ucUid workspaceId mailboxId payload sendAt newId =>
    simp only [step]
    split
    · split <;> rfl
    · rfl
  | cancel ucUid workspaceId id =>
    simp only [step]
    split
    · split <;> rfl
    · rfl
  | sweep k now take => rfl
  | fire k configured sentAt x =>
    simp only [step]
    split
    · rfl
    · split
      · exact hfire _ _ configured sentAt x
      · rfl
  | settings settings => rfl
  | update f => rfl

/-- A report on a paused workspace hands nothing to the engine. -/
def HandsNothing (ws : String) (out : Option Report) : Prop :=
  ∀ report, out = some report → report.workspaceId = ws →
    ∀ o, report.outcome = some o → o.handed = none

/-- **In a paused workspace no compose reaches the engine**, whoever began it. -/
theorem step_handsNothing {w : World} (h : agentsPaused w.db.settings ws = true) (op : Op) :
    HandsNothing ws (step config w op).2 := by
  have hcompose : ∀ (v : World) (r : Request) (x : Circumstances),
      agentsPaused v.db.settings ws = true → r.workspaceId = ws →
        (v.compose config r x).2.handed = none := by
    intro v r x hv hws
    exact (composeEmail_of_paused config.env x (by rw [hws]; exact hv)).2
  intro report hreport hws o ho
  cases op with
  | compose draft uuid x =>
    simp only [step] at hreport
    split at hreport <;> cases hreport
    · cases ho
    · cases ho
      exact hcompose w _ x h hws
  | agentCompose r x =>
    cases hreport
    cases ho
    exact hcompose w r x h hws
  | schedule origin configured ucUid workspaceId mailboxId payload sendAt newId =>
    simp only [step] at hreport
    split at hreport
    · split at hreport <;> cases hreport
    · cases hreport
  | cancel ucUid workspaceId id =>
    simp only [step] at hreport
    split at hreport
    · split at hreport <;> cases hreport
    · cases hreport
  | sweep k now take => cases hreport
  | fire k configured sentAt x =>
    simp only [step] at hreport
    split at hreport
    · cases hreport
    · split at hreport
      · cases hreport
        unfold World.fireClaimed at hws ho
        split at hws
        · rename_i hrow
          rw [hrow] at ho
          cases ho
        · rename_i r hrow
          rw [hrow] at ho
          cases ho
          exact hcompose _ r x h hws
      · cases hreport
  | settings settings => cases hreport
  | update f => cases hreport

end Paused

/-! ### The result -/

section Result

/-- The flag that is set is the flag that is read, and no other has changed. -/
theorem agentsPaused_setPaused (w : World) {ws : String} (paused : Bool)
    (hws : ∃ row ∈ w.db.settings.workspaces, row.id = ws) :
    agentsPaused (w.setPaused ws paused).db.settings ws = paused ∧
      ∀ v ≠ ws, agentsPaused (w.setPaused ws paused).db.settings v =
        agentsPaused w.db.settings v := by
  unfold agentsPaused World.setPaused
  simp only [List.any_map]
  constructor
  · cases paused with
    | true =>
      obtain ⟨row, hrow, hid⟩ := hws
      refine List.any_eq_true.mpr ⟨row, hrow, ?_⟩
      simp [hid]
    | false =>
      refine List.any_eq_false.mpr fun row _ => ?_
      by_cases hid : row.id = ws <;> simp [hid]
  · intro v hv
    refine congrArg (w.db.settings.workspaces.any ·) (funext fun row => ?_)
    by_cases hid : row.id = ws
    · simp [hid, hv.symm]
    · simp [hid]

theorem alike_start {start : World} {ws : String} {ops : List Op}
    (hws : ∃ row ∈ start.db.settings.workspaces, row.id = ws) (hfresh : FreshIds start ops) :
    Alike ws ops (start.setPaused ws false) (start.setPaused ws true) := by
  obtain ⟨hfalse, hothers⟩ := agentsPaused_setPaused start false hws
  obtain ⟨htrue, hothers'⟩ := agentsPaused_setPaused start true hws
  refine ⟨⟨rfl, hfalse, htrue, fun v hv => (hothers v hv).trans (hothers' v hv).symm,
    fun v _ => rfl, List.prefix_rfl⟩, ?_, rfl, rfl, ⟨hfresh.1, hfresh.2⟩, ⟨hfresh.1, hfresh.2⟩⟩
  exact List.forall₂_same.mpr fun row _ => .inl rfl

variable [CaseMapping]

/-- **When the switch does what it should**: when every compose that a human began in the
paused workspace, and that comes to the mail service, is a repeat of a recorded one. -/
theorem scoped_iff (config : Config) {ws : String} {start : World} {ops : List Op}
    (hws : ∃ row ∈ start.db.settings.workspaces, row.id = ws) (hfresh : FreshIds start ops) :
    Scoped config ws start ops ↔
      TwoRuns.Along (step config) (Repeats config ws) (start.setPaused ws true) ops := by
  have hhuman : (TwoRuns.outputs (step config) (start.setPaused ws false) ops).map humanView =
      (TwoRuns.outputs (step config) (start.setPaused ws true) ops).map humanView ↔
        TwoRuns.Along (step config) (Repeats config ws) (start.setPaused ws true) ops :=
    TwoRuns.view_eq_iff (R := Alike ws)
      (fun h hC => ⟨h.shows.1, h.shows.2.mpr hC⟩) (fun h hC heq => hC (h.shows.2.mp heq))
      (alike_start hws hfresh)
  have hagents : ∀ out ∈ TwoRuns.outputs (step config) (start.setPaused ws true) ops,
      HandsNothing ws out :=
    TwoRuns.outputs_invariant (I := fun w => agentsPaused w.db.settings ws = true)
      (fun w op h => ⟨(step_agentsPaused w op).trans h, step_handsNothing h op⟩)
      (agentsPaused_setPaused start true hws).1
  constructor
  · exact fun h => hhuman.mp h.human
  · exact fun h => ⟨hhuman.mpr h, fun out hout report hreport hreportws _ =>
      hagents out hout report hreport hreportws⟩

end Result

/-! ### The code does not do it -/

section Examples

/-- The engine takes what it is given. -/
def accepted (messageId : String) : Circumstances :=
  ⟨false, ⟨messageId, messageId⟩, none, ⟨true, some "p", none, none, none⟩⟩

/-- A message that the scheduler sent for the row `old`, and did not get to mark. -/
def sentBefore : EmailMessage where
  id := "m0"
  workspaceId := "ws"
  mailboxAccountId := some "mb"
  threadId := none
  inReplyToThreadId := none
  externalSource := some schedulerSource
  externalRef := some (scheduledRef "old")
  mode := .send
  status := .sent
  direction := .sent
  fromAddress := some "me@example.org".toList
  toAddress := some "ada@example.org".toList
  subject := none
  body := none
  toAddresses := []
  ccAddresses := []
  bccAddresses := []
  bodyHtml := none
  attachments := none
  providerMessageId := some "p"

/-- A workspace with a shared mailbox, where one message has been sent. -/
def sampleWorld : World where
  db :=
    { settings := { workspaces := [⟨"ws", false⟩], mailboxes := [Scheduler.sampleMailbox] }
      messages := [sentBefore] }
  sends := []
  agentRows := []
  sweeps _ := (0, [])

def sampleConfig : Config := ⟨Scheduler.sampleEnv, id⟩

/-- A message from the shared mailbox. -/
def sampleDraft : Client.Draft :=
  ⟨"ws", some "u", "mb", { to_address := "ada@example.org".toList }⟩

/-- A human schedules a row, and a worker fires it. -/
def scheduleAndFire (rowId messageId : String) : List Op :=
  [.schedule .human true (some "u") "ws" "mb" Scheduler.samplePayload 0 rowId, .sweep 0 1 50,
    .fire 0 true 1 (accepted messageId)]

/-- What the operations came to: whether the engine was called, and how the row ended. -/
def ends (out : Option Report) : Option (Bool × Option ScheduledSendState) :=
  out.bind fun report => report.outcome.map fun o => (o.handed.isSome, report.row)

/-- The switch stops a message from the web client and a message that a human scheduled. -/
theorem web_send_is_paused :
    ¬∀ (config : Config) (ws : String) (start : World) (ops : List Op),
      (∃ row ∈ start.db.settings.workspaces, row.id = ws) → FreshIds start ops →
        Scoped config ws start ops := by
  intro hclaim
  let ops := .compose sampleDraft "u1" (accepted "m1") :: scheduleAndFire "r" "m2"
  have hfresh : FreshIds sampleWorld ops := ⟨by decide, by unfold FreshId; decide⟩
  have hscoped := hclaim sampleConfig "ws" sampleWorld ops ⟨_, List.mem_singleton_self _, rfl⟩ hfresh
  have hends := congrArg (List.map ends) hscoped.human
  -- Sent and sent; refused and failed.
  have hfree : ((TwoRuns.outputs (step sampleConfig) (sampleWorld.setPaused "ws" false) ops).map
      humanView).map ends = [some (true, none), none, none, some (true, some .sent)] := by
    decide +kernel
  have hpaused : ((TwoRuns.outputs (step sampleConfig) (sampleWorld.setPaused "ws" true) ops).map
      humanView).map ends = [some (false, none), none, none, some (false, some .failed)] := by
    decide +kernel
  rw [hfree, hpaused] at hends
  exact absurd hends (by decide)

/-- An agent composes under a trusted name, and the row `old` is fired again. -/
def repeatOps : List Op :=
  .agentCompose ⟨"ws", none, { Scheduler.sampleInput with
    externalSource := "customer-ops", externalRef := "r" }⟩ (accepted "m1") ::
      scheduleAndFire "old" "m2"

/-- The switch stops the agent, and the row is answered from the record. -/
theorem scoped_iff_repeat : Scoped sampleConfig "ws" sampleWorld repeatOps := by
  have hws : ∃ row ∈ sampleWorld.db.settings.workspaces, row.id = "ws" :=
    ⟨_, List.mem_singleton_self _, rfl⟩
  have hfresh : FreshIds sampleWorld repeatOps := ⟨by decide, by unfold FreshId; decide⟩
  exact (scoped_iff sampleConfig hws hfresh).mpr (by decide +kernel)

end Examples

end KillSwitch
end EmailOps
