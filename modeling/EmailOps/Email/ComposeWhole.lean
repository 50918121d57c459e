import EmailOps.Email.ComposeProtocol

/-!
# A whole compose

`composeEmail` from its first phase to its last, with nothing in between: what a caller sees
of a compose that no other call interrupts.

* `composeEmail` is the call, with what it meets on the way (`Circumstances`): the database
  it leaves, the answer, and the request the engine was given.
* `composeEmail_exec` places it in the protocol: it is the run of the call's own steps.
* `composeEmail_congr` says what it reads: the settings, and the messages of its workspace.
* `composeEmail_recorded`, `composeEmail_paused` and `composeEmail_ne_pausedError` tell its
  answers in a paused workspace from those in one that is not.
-/

namespace EmailOps
namespace Compose

open Framework

/-- What a call meets: whether lookups fail, the ids its rows are given, the reply headers
found and the engine's answer. -/
structure Circumstances where
  lookupsFail : Bool
  ids : NewIds
  resolved : Option ReplyHeaders
  result : EngineSendResult

/-- What comes of a call: what it answers, and what it gave to the engine. -/
structure Outcome where
  answer : Except HttpError MessageComposeView
  handed : Option SendReq

/-- The answer about a row after the engine's result is recorded. -/
def answerOf (messages : List EmailMessage) (messageId : String) :
    Except HttpError MessageComposeView :=
  match messages.find? (·.id = messageId) with
  | some m => .ok (composeView m)
  | none => .error (.badRequest "Record to update not found.")

/-- Phases 1.5 to 3 of a committed plan. -/
def finish (db : Db) (r : Request) (plan : ComposePlan) (x : Circumstances) : Db × Outcome :=
  match plan with
  | .done view => (db, ⟨.ok view, none⟩)
  | .stage msg _ => (db, ⟨.ok (composeView msg), none⟩)
  | .send _ plan =>
    let messages := stampSendResult db.messages plan.messageId x.result
    ({ db with messages := messages },
      ⟨answerOf messages plan.messageId, some (withReplyHeaders r.input x.resolved plan.req)⟩)

/-- `composeEmail`. -/
def composeEmail [CaseMapping] (env : Env) (db : Db) (r : Request) (x : Circumstances) :
    Db × Outcome :=
  match composePlan env db x.lookupsFail r.workspaceId r.ucUid r.input x.ids with
  | .error e => (db, ⟨.error e, none⟩)
  | .ok plan =>
    match plan.commit db with
    | .error e => (db, ⟨.error e, none⟩)
    | .ok db' => finish db' r plan x

/-! ### The call in the protocol -/

/-- The steps of a call. -/
def callSteps {Caller : Type} (c : Caller) (r : Request) (x : Circumstances) :
    List (Label Caller) :=
  [.start c r x.lookupsFail x.ids, .commit c, .callEngine c x.resolved x.result, .stamp c]

/-- Where a call stands that has answered. -/
def Outcome.call (o : Outcome) : Call :=
  match o.answer with
  | .ok view => .returned view
  | .error e => .failed e

theorem stamped_eq (messages : List EmailMessage) (messageId : String) (handed : Option SendReq) :
    stamped messages messageId = Outcome.call ⟨answerOf messages messageId, handed⟩ := by
  unfold stamped Outcome.call answerOf
  cases messages.find? (·.id = messageId) <;> rfl

section Protocol

variable [CaseMapping] {Caller : Type} [DecidableEq Caller]

section Steps

variable (env : Env) {s : State Caller} {c : Caller} {r : Request}

theorem step_start (hc : s.calls c = .idle) (r : Request) (f : Bool) (ids : NewIds) :
    (system env).step s (.start c r f ids) = some (s.setCall c (planned env s.db r f ids)) := by
  change Compose.step env s (.start c r f ids) = _
  simp only [step, hc]

theorem step_commit {plan : ComposePlan} (hc : s.calls c = .planned r plan) :
    (system env).step s (.commit c) =
      some { s.setCall c (commit s.db r plan).2 with db := (commit s.db r plan).1 } := by
  change Compose.step env s (.commit c) = _
  simp only [step, hc]

theorem step_callEngine {plan : SendPlan} (hc : s.calls c = .queued r plan)
    (resolved : Option ReplyHeaders) (result : EngineSendResult) :
    (system env).step s (.callEngine c resolved result) =
      some { s.setCall c (.handed r plan result) with
        log := s.log ++ [handOff c r plan resolved result] } := by
  change Compose.step env s (.callEngine c resolved result) = _
  simp only [step, hc]

theorem step_stamp {plan : SendPlan} {result : EngineSendResult}
    (hc : s.calls c = .handed r plan result) :
    (system env).step s (.stamp c) =
      some { s.setCall c (stamped (stampSendResult s.db.messages plan.messageId result)
          plan.messageId) with
        db := { s.db with messages := stampSendResult s.db.messages plan.messageId result } } := by
  change Compose.step env s (.stamp c) = _
  simp only [step, hc]

end Steps

/-- **A whole compose is a run of the protocol**: the steps of the call as far as it gets,
with no step of another between them. -/
theorem composeEmail_exec (env : Env) {s : State Caller} {c : Caller} (hc : s.calls c = .idle)
    (r : Request) (x : Circumstances) :
    ∃ ls s', ls <+: callSteps c r x ∧ (system env).exec s ls = some s' ∧
      s'.db = (composeEmail env s.db r x).1 ∧
      s'.calls c = (composeEmail env s.db r x).2.call ∧
      s'.log.map (fun h => (h.caller, h.req)) =
        s.log.map (fun h => (h.caller, h.req)) ++
          (composeEmail env s.db r x).2.handed.toList.map (c, ·) := by
  have hself : ∀ (t : State Caller) (call : Call), (t.setCall c call).calls c = call := by
    intro t call
    exact Function.update_self c call t.calls
  have hstart := step_start env hc r x.lookupsFail x.ids
  unfold planned at hstart
  unfold composeEmail
  cases hplan : composePlan env s.db x.lookupsFail r.workspaceId r.ucUid r.input x.ids with
  | error e =>
    rw [hplan] at hstart
    refine ⟨[.start c r x.lookupsFail x.ids], _, ⟨_, rfl⟩, System.exec_cons hstart, rfl, ?_, ?_⟩
    · exact hself s (.failed e)
    · exact (List.append_nil _).symm
  | ok plan =>
    rw [hplan] at hstart
    have hcommit := step_commit env (hself s (.planned r plan))
    change (system env).step _ _ = some { (s.setCall c (.planned r plan)).setCall c
      (commit s.db r plan).2 with db := (commit s.db r plan).1 } at hcommit
    unfold commit at hcommit
    dsimp only
    cases hdb : plan.commit s.db with
    | error e =>
      rw [hdb] at hcommit
      refine ⟨[.start c r x.lookupsFail x.ids, .commit c], _, ⟨_, rfl⟩,
        (System.exec_cons hstart).trans (System.exec_cons hcommit), rfl, ?_, ?_⟩
      · exact hself _ (.failed e)
      · exact (List.append_nil _).symm
    | ok db' =>
      rw [hdb] at hcommit
      cases plan with
      | done view =>
        refine ⟨[.start c r x.lookupsFail x.ids, .commit c], _, ⟨_, rfl⟩,
          (System.exec_cons hstart).trans (System.exec_cons hcommit), rfl, ?_, ?_⟩
        · exact hself _ (.returned view)
        · exact (List.append_nil _).symm
      | stage msg item =>
        refine ⟨[.start c r x.lookupsFail x.ids, .commit c], _, ⟨_, rfl⟩,
          (System.exec_cons hstart).trans (System.exec_cons hcommit), rfl, ?_, ?_⟩
        · exact hself _ (.returned (composeView msg))
        · exact (List.append_nil _).symm
      | send msg plan =>
        -- The engine is called, and its answer recorded.
        have hengine := step_callEngine env
          (s := { (s.setCall c (.planned r (.send msg plan))).setCall c (.queued r plan) with
            db := db' }) (hself _ (.queued r plan)) x.resolved x.result
        have hstamp := step_stamp env
          (s := { (State.setCall { (s.setCall c (.planned r (.send msg plan))).setCall c
            (.queued r plan) with db := db' } c (.handed r plan x.result)) with
              log := s.log ++ [handOff c r plan x.resolved x.result] })
          (hself _ (.handed r plan x.result))
        refine ⟨callSteps c r x, _, List.prefix_rfl,
          (System.exec_cons hstart).trans ((System.exec_cons hcommit).trans
            ((System.exec_cons hengine).trans (System.exec_cons hstamp))), rfl, ?_, ?_⟩
        · exact (hself _ _).trans (stamped_eq _ _ _)
        · change (s.log ++ [handOff c r plan x.resolved x.result]).map _ = _
          rw [List.map_append]
          rfl

end Protocol

/-! ### What a call leaves -/

/-- The rows that a plan adds, as the call leaves them. -/
def newRows (plan : ComposePlan) (x : Circumstances) : List EmailMessage :=
  match plan with
  | .done _ => []
  | .stage msg _ => [msg]
  | .send msg plan => stampSendResult [msg] plan.messageId x.result

/-- What comes of a plan whose rows are added. -/
def planOutcome (r : Request) (plan : ComposePlan) (x : Circumstances) : Outcome :=
  match plan with
  | .done view => ⟨.ok view, none⟩
  | .stage msg _ => ⟨.ok (composeView msg), none⟩
  | .send _ sendPlan =>
    ⟨answerOf (newRows plan x) sendPlan.messageId,
      some (withReplyHeaders r.input x.resolved sendPlan.req)⟩

/-- No message has the id. -/
def FreshId (db : Db) (messageId : String) : Prop :=
  ∀ m ∈ db.messages, m.id ≠ messageId

/-- Rows of other ids are not stamped. -/
theorem stampSendResult_append {messages rows : List EmailMessage} {messageId : String}
    (h : ∀ m ∈ messages, m.id ≠ messageId) (result : EngineSendResult) :
    stampSendResult (messages ++ rows) messageId result =
      messages ++ stampSendResult rows messageId result := by
  unfold stampSendResult
  rw [List.map_append]
  refine congrArg (· ++ _) ?_
  calc messages.map _ = messages.map id := List.map_congr_left fun m hm => if_neg (h m hm)
    _ = messages := List.map_id messages

theorem answerOf_append {messages rows : List EmailMessage} {messageId : String}
    (h : ∀ m ∈ messages, m.id ≠ messageId) :
    answerOf (messages ++ rows) messageId = answerOf rows messageId := by
  have hnone : messages.find? (·.id = messageId) = none :=
    List.find?_eq_none.mpr fun m hm => by simpa using h m hm
  unfold answerOf
  rw [List.find?_append, hnone, Option.none_or]

/-- A row of a fresh id and a key not recorded is inserted. -/
theorem insertMessage_fresh {db : Db} (msg : EmailMessage) {t : Triple}
    (hid : FreshId db msg.id) (ht : msg.triple? = some t)
    (hkey : findByTriple db.messages t = none) :
    insertMessage db msg = .ok { db with messages := db.messages ++ [msg] } := by
  have hnone : db.messages.any (fun m => m.id = msg.id || m.triple? = msg.triple?) = false := by
    refine List.any_eq_false.mpr fun m hm => ?_
    have hkey' := List.find?_eq_none.mp hkey m hm
    simp only [decide_eq_true_eq] at hkey'
    simp [hid m hm, ht, hkey']
  unfold insertMessage
  rw [hnone]
  rfl

section Leaves

variable [CaseMapping] {env : Env} {db : Db} {r : Request} {x : Circumstances}

theorem composeEmail_of_error {e : HttpError}
    (h : composePlan env db x.lookupsFail r.workspaceId r.ucUid r.input x.ids = .error e) :
    composeEmail env db r x = (db, ⟨.error e, none⟩) := by
  unfold composeEmail
  rw [h]

/-- **What a call leaves**: the rows of its plan, added to those there were. -/
theorem composeEmail_of_plan {plan : ComposePlan}
    (h : composePlan env db x.lookupsFail r.workspaceId r.ucUid r.input x.ids = .ok plan)
    (hfresh : FreshId db x.ids.messageId) :
    (composeEmail env db r x).1.messages = db.messages ++ newRows plan x ∧
      (composeEmail env db r x).1.settings = db.settings ∧
      (composeEmail env db r x).2 = planOutcome r plan x := by
  unfold composeEmail
  rw [h]
  dsimp only
  cases plan with
  | done view => exact ⟨(List.append_nil _).symm, rfl, rfl⟩
  | stage msg item =>
    obtain ⟨mailbox, -, -, hmsg, -⟩ := composePlan_stage h
    have hkey := findByTriple_of_composePlan h (by simp)
    have hins := insertMessage_fresh msg (t := r.input.triple r.workspaceId)
      (by rw [hmsg]; exact hfresh) (by rw [hmsg]; rfl) hkey
    simp only [ComposePlan.commit, hins]
    exact ⟨rfl, rfl, rfl⟩
  | send msg plan =>
    obtain ⟨mailbox, footer, -, -, -, hmsg, hid, -⟩ := composePlan_send h
    have hkey := findByTriple_of_composePlan h (by simp)
    have hins := insertMessage_fresh msg (t := r.input.triple r.workspaceId)
      (by rw [hmsg]; exact hfresh) (by rw [hmsg]; rfl) hkey
    have hold : ∀ m ∈ db.messages, m.id ≠ plan.messageId := by
      rw [hid]
      exact hfresh
    simp only [ComposePlan.commit, hins, finish, stampSendResult_append hold,
      answerOf_append hold]
    exact ⟨rfl, trivial, rfl⟩

/-- The rows of a plan are of the call's workspace and have the id it was given. -/
theorem newRows_mem {plan : ComposePlan}
    (h : composePlan env db x.lookupsFail r.workspaceId r.ucUid r.input x.ids = .ok plan) :
    ∀ m ∈ newRows plan x, m.workspaceId = r.workspaceId ∧ m.id = x.ids.messageId := by
  intro m hm
  cases plan with
  | done view => cases hm
  | stage msg item =>
    obtain ⟨mailbox, -, -, rfl, -⟩ := composePlan_stage h
    obtain rfl := List.mem_singleton.mp hm
    exact ⟨rfl, rfl⟩
  | send msg plan =>
    obtain ⟨mailbox, footer, -, -, -, rfl, -, -⟩ := composePlan_send h
    obtain ⟨m₀, hm₀, rfl⟩ := List.mem_map.mp hm
    obtain rfl := List.mem_singleton.mp hm₀
    split <;> exact ⟨rfl, rfl⟩

/-- A call leaves the messages there were as they are. -/
theorem composeEmail_messages (env : Env) (r : Request) (hfresh : FreshId db x.ids.messageId) :
    ∃ rows : List EmailMessage,
      (∀ m ∈ rows, m.workspaceId = r.workspaceId ∧ m.id = x.ids.messageId) ∧
      (composeEmail env db r x).1.messages = db.messages ++ rows := by
  cases hplan : composePlan env db x.lookupsFail r.workspaceId r.ucUid r.input x.ids with
  | error e =>
    rw [composeEmail_of_error hplan]
    exact ⟨[], by simp, (List.append_nil _).symm⟩
  | ok plan =>
    obtain ⟨hmessages, -⟩ := composeEmail_of_plan hplan hfresh
    exact ⟨newRows plan x, newRows_mem hplan, hmessages⟩

omit [CaseMapping] in
/-- A commit leaves the settings as they are. -/
theorem commit_settings {plan : ComposePlan} {db' : Db} (h : plan.commit db = .ok db') :
    db'.settings = db.settings := by
  cases plan with
  | done view =>
    rw [Except.ok.inj h]
  | stage msg item =>
    simp only [ComposePlan.commit] at h
    cases hins : insertMessage db msg with
    | error e =>
      rw [hins] at h
      cases h
    | ok d =>
      rw [hins] at h
      obtain ⟨-, rfl⟩ := insertMessage_ok hins
      rw [← Except.ok.inj h]
  | send msg plan =>
    obtain ⟨-, rfl⟩ := insertMessage_ok h
    rfl

omit [CaseMapping] in
theorem finish_settings (plan : ComposePlan) : (finish db r plan x).1.settings = db.settings := by
  cases plan <;> rfl

/-- A call leaves the settings as they are. -/
@[simp] theorem composeEmail_settings :
    (composeEmail env db r x).1.settings = db.settings := by
  unfold composeEmail
  split
  · rfl
  · split
    · rfl
    · rename_i hcommit
      exact (finish_settings _).trans (commit_settings hcommit)

end Leaves

/-! ### What a call reads -/

/-- Are the agents of the workspace paused? -/
def agentsPaused (settings : Settings) (workspaceId : String) : Bool :=
  settings.workspaces.any fun w => w.id = workspaceId && w.agentsPaused

/-- The messages of a workspace. -/
def messagesOf (db : Db) (workspaceId : String) : List EmailMessage :=
  db.messages.filter (·.workspaceId = workspaceId)

/-- The databases agree on what a compose in the workspace reads. -/
structure SeesAlike (workspaceId : String) (db db' : Db) : Prop where
  settings : db'.settings = { db.settings with workspaces := db'.settings.workspaces }
  paused : agentsPaused db'.settings workspaceId = agentsPaused db.settings workspaceId
  messages : messagesOf db' workspaceId = messagesOf db workspaceId

/-- A key is looked up among the messages of its workspace. -/
theorem findByTriple_messagesOf (db : Db) (workspaceId : String) (key : String × String) :
    findByTriple (messagesOf db workspaceId) (workspaceId, key) =
      findByTriple db.messages (workspaceId, key) := by
  unfold findByTriple messagesOf
  rw [List.find?_filter]
  refine congrArg (db.messages.find? ·) (funext fun m => ?_)
  by_cases htriple : m.triple? = some (workspaceId, key)
  · -- A row with the key is in the workspace of the key.
    have hws : m.workspaceId = workspaceId := by
      unfold EmailMessage.triple? at htriple
      split at htriple
      · exact congrArg Prod.fst (Option.some.inj htriple)
      · cases htriple
    simp [htriple, hws]
  · simp [htriple]

section Reads

variable [CaseMapping] {env : Env} {db db' : Db} {workspaceId : String}

/-- The inbound messages of a thread are looked up in the workspace. -/
theorem inThreadReplyToInbound_messagesOf (db : Db) (workspaceId : String) (external : List Text)
    (input : ComposeInput) :
    inThreadReplyToInbound (messagesOf db workspaceId) workspaceId external input =
      inThreadReplyToInbound db.messages workspaceId external input := by
  have hfilter : (messagesOf db workspaceId).filter (fun m =>
        m.workspaceId = workspaceId && m.threadId = input.inReplyToThreadId &&
          m.direction = .received) =
      db.messages.filter fun m =>
        m.workspaceId = workspaceId && m.threadId = input.inReplyToThreadId &&
          m.direction = .received := by
    unfold messagesOf
    rw [List.filter_filter]
    refine List.filter_congr fun m _ => ?_
    by_cases hws : m.workspaceId = workspaceId <;> simp [hws]
  unfold inThreadReplyToInbound inThreadReplyToInbound.storedInbound
  rw [hfilter]

/-- What the matrix is asked with reads nothing else. -/
theorem composeContext_congr (h : SeesAlike workspaceId db db') (lookupsFail : Bool)
    (agent : Option Agent) (mailbox : Option MailboxAccount) (input : ComposeInput) :
    composeContext env db' lookupsFail workspaceId agent mailbox input =
      composeContext env db lookupsFail workspaceId agent mailbox input := by
  have hinbound : ∀ external, inThreadReplyToInbound db'.messages workspaceId external input =
      inThreadReplyToInbound db.messages workspaceId external input := by
    intro external
    rw [← inThreadReplyToInbound_messagesOf db', h.messages, inThreadReplyToInbound_messagesOf]
  unfold composeContext buildAgentComposeContext
  simp only [hinbound]
  rw [h.settings]
  rfl

/-- **What phase 1 reads.** -/
theorem composePlan_congr (env : Env) (h : SeesAlike workspaceId db db') (lookupsFail : Bool)
    (ucUid : Option String) (input : ComposeInput) (ids : NewIds) :
    composePlan env db' lookupsFail workspaceId ucUid input ids =
      composePlan env db lookupsFail workspaceId ucUid input ids := by
  have hkey : findByTriple db'.messages (input.triple workspaceId) =
      findByTriple db.messages (input.triple workspaceId) := by
    unfold ComposeInput.triple
    rw [← findByTriple_messagesOf db', h.messages, findByTriple_messagesOf]
  have hpaused : (db'.settings.workspaces.any fun w => w.id = workspaceId && w.agentsPaused) =
      db.settings.workspaces.any fun w => w.id = workspaceId && w.agentsPaused := h.paused
  have hagent : resolveAgent db'.settings workspaceId input =
      resolveAgent db.settings workspaceId input := by
    rw [h.settings]
    rfl
  have hmailbox : composeMailbox db'.settings workspaceId ucUid =
      composeMailbox db.settings workspaceId ucUid := by
    rw [h.settings]
    rfl
  unfold composePlan composeDecision
  simp only [hkey, hpaused, hagent, hmailbox, composeContext_congr h]

/-- **What a whole call reads.** -/
theorem composeEmail_congr (env : Env) {r : Request} {x : Circumstances}
    (h : SeesAlike r.workspaceId db db') (hdb : FreshId db x.ids.messageId)
    (hdb' : FreshId db' x.ids.messageId) :
    (composeEmail env db' r x).2 = (composeEmail env db r x).2 ∧
      ∃ rows : List EmailMessage,
        (∀ m ∈ rows, m.workspaceId = r.workspaceId ∧ m.id = x.ids.messageId) ∧
        (composeEmail env db r x).1.messages = db.messages ++ rows ∧
        (composeEmail env db' r x).1.messages = db'.messages ++ rows := by
  have hplan := composePlan_congr env h x.lookupsFail r.ucUid r.input x.ids
  cases hres : composePlan env db x.lookupsFail r.workspaceId r.ucUid r.input x.ids with
  | error e =>
    rw [composeEmail_of_error hres, composeEmail_of_error (hplan.trans hres)]
    exact ⟨rfl, [], by simp, (List.append_nil _).symm, (List.append_nil _).symm⟩
  | ok plan =>
    obtain ⟨hmessages, -, houtcome⟩ := composeEmail_of_plan hres hdb
    obtain ⟨hmessages', -, houtcome'⟩ := composeEmail_of_plan (hplan.trans hres) hdb'
    exact ⟨houtcome'.trans houtcome.symm, newRows plan x, newRows_mem hres, hmessages, hmessages'⟩

end Reads

/-! ### The flag of the kill switch -/

/-- The answer to a compose in a paused workspace. -/
def pausedError : HttpError :=
  .forbidden "Agents are paused for this workspace."

section Flag

variable [CaseMapping] {env : Env} {db : Db} {workspaceId : String} {ucUid : Option String}
  {input : ComposeInput} {ids : NewIds} {lookupsFail : Bool}

theorem composePlan_recorded {m : EmailMessage}
    (h : findByTriple db.messages (input.triple workspaceId) = some m) :
    composePlan env db lookupsFail workspaceId ucUid input ids = .ok (.done (composeView m)) := by
  unfold composePlan
  rw [h]

theorem composePlan_paused (hkey : findByTriple db.messages (input.triple workspaceId) = none)
    (hpaused : agentsPaused db.settings workspaceId = true) :
    composePlan env db lookupsFail workspaceId ucUid input ids = .error pausedError := by
  unfold agentsPaused at hpaused
  unfold composePlan
  rw [hkey, hpaused]
  rfl

omit [CaseMapping] in
private theorem agentPaused_ne (key : String) :
    "Agent '" ++ key ++ "' is paused." ≠ "Agents are paused for this workspace." := by
  intro h
  have hlist := congrArg (fun s : String => (s.toList.take 6)) h
  simp [String.toList_append] at hlist

omit [CaseMapping] in
/-- A mailbox that is not the caller's is refused otherwise. -/
private theorem composeMailbox_ne_pausedError {settings : Settings} {agent : Option Agent} :
    composeMailbox settings workspaceId ucUid agent input ≠ .error pausedError := by
  unfold composeMailbox
  dsimp only
  split
  · split
    · exact fun h => nomatch h
    · intro h
      simp only [pausedError, Except.error.injEq, HttpError.forbidden.injEq] at h
      exact absurd h (by decide)
  · exact fun h => nomatch h

/-- In a workspace that is not paused, no compose is refused for the flag. -/
theorem composePlan_ne_pausedError (hpaused : agentsPaused db.settings workspaceId = false) :
    composePlan env db lookupsFail workspaceId ucUid input ids ≠ .error pausedError := by
  unfold agentsPaused at hpaused
  unfold composePlan
  split
  · exact fun h => nomatch h
  · rw [hpaused, if_neg Bool.false_ne_true]
    dsimp only
    split
    · -- The agent is paused.
      intro h
      simp only [pausedError, Except.error.injEq, HttpError.forbidden.injEq] at h
      exact agentPaused_ne _ h
    · split
      · rename_i e hmailbox
        intro h
        rw [Except.error.inj h] at hmailbox
        exact composeMailbox_ne_pausedError hmailbox
      · split <;> exact fun h => nomatch h

variable {r : Request} {x : Circumstances}

theorem composeEmail_recorded {m : EmailMessage} (h : findByTriple db.messages r.triple = some m) :
    composeEmail env db r x = (db, ⟨.ok (composeView m), none⟩) := by
  unfold composeEmail
  rw [composePlan_recorded h]
  rfl

theorem composeEmail_paused (hkey : findByTriple db.messages r.triple = none)
    (hpaused : agentsPaused db.settings r.workspaceId = true) :
    composeEmail env db r x = (db, ⟨.error pausedError, none⟩) :=
  composeEmail_of_error (composePlan_paused hkey hpaused)

/-- **A compose in a paused workspace changes nothing**, and the engine does not hear of it. -/
theorem composeEmail_of_paused (env : Env) (x : Circumstances)
    (hpaused : agentsPaused db.settings r.workspaceId = true) :
    (composeEmail env db r x).1 = db ∧ (composeEmail env db r x).2.handed = none := by
  cases hkey : findByTriple db.messages r.triple with
  | none =>
    rw [composeEmail_paused hkey hpaused]
    exact ⟨rfl, rfl⟩
  | some m =>
    rw [composeEmail_recorded hkey]
    exact ⟨rfl, rfl⟩

/-- In a workspace that is not paused, no compose is answered with the flag. -/
theorem composeEmail_ne_pausedError (env : Env)
    (hpaused : agentsPaused db.settings r.workspaceId = false) (hfresh : FreshId db x.ids.messageId) :
    (composeEmail env db r x).2.answer ≠ .error pausedError := by
  cases hplan : composePlan env db x.lookupsFail r.workspaceId r.ucUid r.input x.ids with
  | error e =>
    rw [composeEmail_of_error hplan]
    intro h
    rw [Except.error.inj h] at hplan
    exact composePlan_ne_pausedError hpaused hplan
  | ok plan =>
    obtain ⟨-, -, houtcome⟩ := composeEmail_of_plan hplan hfresh
    rw [houtcome]
    cases plan with
    | done view => exact fun h => nomatch h
    | stage msg item => exact fun h => nomatch h
    | send msg plan =>
      unfold planOutcome answerOf
      dsimp only
      split <;> exact fun h => nomatch h

end Flag

end Compose
end EmailOps
