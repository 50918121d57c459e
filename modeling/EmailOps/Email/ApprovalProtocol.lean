import EmailOps.Framework.System
import EmailOps.Email.Approval

/-!
# Concurrent approvals and rejections

Any number of approvals and rejections of inbox items, interleaved at the borders
of their transactions: an approval reads the item in one transaction, calls the
engine in none, and records the outcome in another.

* `Approval.system` is the protocol, with the log of what it did to the outside:
  engine calls and committed rejections.
* `Approval.SafeLog` is what the protocol should guarantee of an item: the engine
  accepts it at most once, and never gets it after a rejection, which stands.
* The code does not guarantee it (`two_approvals_send_twice`): the status is read
  in one transaction and written in another, unconditionally.
* `Approval.Careful` is the condition under which it does; `Approval.Inv` the
  invariant of such runs, and `Approval.safe_of_careful` the result.
-/

namespace EmailOps
namespace Approval

open Framework

/-! ### The protocol -/

/-- Where an approval stands. -/
inductive Call where
  | idle
  /-- The item was read pending and the request is built. -/
  | sending (workspaceId itemId : String) (plan : SendPlan)
  /-- The engine has answered, the answer is not yet recorded. -/
  | handed (itemId : String) (plan : SendPlan) (result : EngineSendResult)
  /-- The call has returned or thrown, or its process has died. -/
  | ended

/-- What the protocol does to the outside. -/
inductive Event where
  | handed (itemId messageId : String) (req : SendReq) (result : EngineSendResult)
  | rejected (itemId : String)

/-- The state of the protocol. The log is in the order of events. -/
structure State where
  db : Db
  calls : ℕ → Call
  log : List Event

/-- The steps of the protocol. -/
inductive Label where
  /-- Phase 1 of an approval. -/
  | approve (c : ℕ) (workspaceId : String) (ucUid : Option String) (itemId : String)
  /-- Phase 2: the engine call. -/
  | callEngine (c : ℕ) (result : EngineSendResult)
  /-- Phase 3: recording the outcome. -/
  | record (c : ℕ)
  /-- The process running an approval dies. -/
  | crash (c : ℕ)
  | reject (workspaceId itemId : String)

/-- Move a call on. -/
def State.setCall (s : State) (c : ℕ) (call : Call) : State :=
  { s with calls := Function.update s.calls c call }

/-- Where an approval stands after its phase 1. -/
def afterPlan (workspaceId : String) (prep : Except HttpError ApprovePrep) : Call :=
  match prep with
  | .ok (.send itemId _ plan) => .sending workspaceId itemId plan
  | _ => .ended

/-- One step. -/
def step (s : State) : Label → Option State
  | .approve c workspaceId ucUid itemId =>
    match s.calls c with
    | .idle =>
      some (s.setCall c (afterPlan workspaceId (approvePlan s.db workspaceId ucUid itemId)))
    | _ => none
  | .callEngine c result =>
    match s.calls c with
    | .sending _ itemId plan =>
      some { s.setCall c (.handed itemId plan result) with
        log := s.log ++ [.handed itemId plan.messageId plan.req result] }
    | _ => none
  | .record c =>
    match s.calls c with
    | .handed itemId plan result =>
      some { s.setCall c .ended with db := recordApproval s.db itemId plan.messageId result }
    | _ => none
  | .crash c => some (s.setCall c .ended)
  | .reject workspaceId itemId =>
    match rejectItem s.db workspaceId itemId with
    | .rejected db => some { s with db := db, log := s.log ++ [.rejected itemId] }
    | _ => some s

/-- The protocol. Initially no call runs; the database is any. -/
def system : System State Label where
  init s := (∀ c, s.calls c = .idle) ∧ s.log = []
  step := step

/-- **What a step does**, label by label. -/
theorem step_eq_some {s s' : State} {l : Label} (h : system.step s l = some s') :
    (∃ c workspaceId ucUid itemId, l = .approve c workspaceId ucUid itemId ∧ s.calls c = .idle ∧
      s' = s.setCall c
        (afterPlan workspaceId (approvePlan s.db workspaceId ucUid itemId))) ∨
    (∃ c workspaceId itemId plan result, l = .callEngine c result ∧
      s.calls c = .sending workspaceId itemId plan ∧
      s' = { s.setCall c (.handed itemId plan result) with
        log := s.log ++ [.handed itemId plan.messageId plan.req result] }) ∨
    (∃ c itemId plan result, l = .record c ∧ s.calls c = .handed itemId plan result ∧
      s' = { s.setCall c .ended with db := recordApproval s.db itemId plan.messageId result }) ∨
    (∃ c, l = .crash c ∧ s' = s.setCall c .ended) ∨
    (∃ workspaceId itemId, l = .reject workspaceId itemId ∧ s' = s) ∨
    (∃ workspaceId itemId db, l = .reject workspaceId itemId ∧
      rejectItem s.db workspaceId itemId = .rejected db ∧
      s' = { s with db := db, log := s.log ++ [.rejected itemId] }) := by
  change Approval.step s l = some s' at h
  cases l with
  | approve c workspaceId ucUid itemId =>
    simp only [step] at h
    split at h
    · rename_i hc
      exact .inl ⟨c, workspaceId, ucUid, itemId, rfl, hc, (Option.some.inj h).symm⟩
    · cases h
  | callEngine c result =>
    simp only [step] at h
    split at h
    · rename_i workspaceId itemId plan hc
      exact .inr (.inl ⟨c, workspaceId, itemId, plan, result, rfl, hc, (Option.some.inj h).symm⟩)
    · cases h
  | record c =>
    simp only [step] at h
    split at h
    · rename_i itemId plan result hc
      exact .inr (.inr (.inl ⟨c, itemId, plan, result, rfl, hc, (Option.some.inj h).symm⟩))
    · cases h
  | crash c => exact .inr (.inr (.inr (.inl ⟨c, rfl, (Option.some.inj h).symm⟩)))
  | reject workspaceId itemId =>
    simp only [step] at h
    split at h
    · -- The reject went through, or it changed nothing.
      rename_i db hdb
      exact .inr (.inr (.inr (.inr (.inr
        ⟨workspaceId, itemId, db, rfl, hdb, (Option.some.inj h).symm⟩))))
    · exact .inr (.inr (.inr (.inr (.inl ⟨workspaceId, itemId, rfl, (Option.some.inj h).symm⟩))))

/-! ### What the protocol should guarantee -/

/-- Is this an engine call for the item? -/
def Event.hands (itemId : String) : Event → Bool
  | .handed i _ _ _ => i = itemId
  | .rejected _ => false

/-- Is this an engine call for the item that the engine accepted? -/
def Event.accepts (itemId : String) : Event → Bool
  | .handed i _ _ result => i = itemId && result.accepted
  | .rejected _ => false

/-- Every item of this id is in this state. -/
def ItemState (db : Db) (itemId : String) (state : AgentInboxState) : Prop :=
  ∀ i ∈ db.inbox, i.id = itemId → i.state = state

/-- **The guarantee for an item**: it is accepted at most once, and after a
rejection it is not handed over and stays rejected. -/
def SafeLog (s : State) (itemId : String) : Prop :=
  s.log.countP (Event.accepts itemId) ≤ 1 ∧
    ∀ pre post, s.log = pre ++ .rejected itemId :: post →
      (∀ e ∈ post, e.hands itemId = false) ∧ ItemState s.db itemId .rejected

/-- A database with one pending item, `i`, of one staged message. -/
def sampleDb : Db where
  messages :=
    [{ id := "m", workspaceId := "ws", mailboxAccountId := none, threadId := none,
       inReplyToThreadId := none, externalSource := some "perry", externalRef := some "r",
       mode := .draft, status := .pendingApproval, direction := .draft, fromAddress := none,
       toAddress := some "ada@example.org".toList, subject := some [], body := some [],
       toAddresses := [], ccAddresses := [], bccAddresses := [], bodyHtml := none,
       attachments := none, providerMessageId := none }]
  inbox := [⟨"i", "ws", some "m", .email, .pending, some "perry", [], []⟩]

/-- No call runs over the sample database. -/
def sampleStart : State := ⟨sampleDb, fun _ => .idle, []⟩

theorem sampleStart_init : system.init sampleStart := ⟨fun _ => rfl, rfl⟩

/-- **The code does not keep it.** Two approvals read the item pending, and the
engine accepts both sends. -/
theorem two_approvals_send_twice :
    ¬∀ (s : State), system.Reachable s → ∀ itemId, SafeLog s itemId := by
  intro hclaim
  let run : List Label :=
    [.approve 0 "ws" none "i", .approve 1 "ws" none "i",
      .callEngine 0 ⟨true, some "p0", none, none, none⟩,
      .callEngine 1 ⟨true, some "p1", none, none, none⟩]
  have hrun : (system.exec sampleStart run).isSome = true := rfl
  obtain ⟨s, hreach, hcount⟩ : ∃ s, system.Reachable s ∧
      s.log.countP (Event.accepts "i") = 2 :=
    ⟨_, System.exec_reachable sampleStart_init (Option.some_get hrun).symm, rfl⟩
  have hle := (hclaim s hreach "i").1
  rw [hcount] at hle
  exact absurd hle (by decide)

/-! ### Careful runs -/

/-- Some approval of the item has an accepted send that is not yet recorded. -/
def Outstanding (s : State) (itemId : String) : Prop :=
  ∃ c plan result, s.calls c = .handed itemId plan result ∧ result.accepted = true

/-- **The condition.** An approval calls the engine only while the item is still
pending and no approval of it has an accepted send to record; a rejection
commits only when no approval has one; and no approval with one dies. -/
def Careful (s : State) : Label → Prop
  | .callEngine c _ => ∀ workspaceId itemId plan, s.calls c = .sending workspaceId itemId plan →
      ItemState s.db itemId .pending ∧ ¬Outstanding s itemId
  | .reject _ itemId => ¬Outstanding s itemId
  | .crash c => ∀ itemId plan result, s.calls c = .handed itemId plan result →
      result.accepted = false
  | _ => True

/-- **The invariant** of careful runs, for an item. -/
structure Inv (s : State) (itemId : String) : Prop where
  /-- Accepted at most once. -/
  once : s.log.countP (Event.accepts itemId) ≤ 1
  /-- While pending and with nothing to record, not accepted at all. -/
  unsent : (∃ i ∈ s.db.inbox, i.id = itemId ∧ i.state = .pending) → ¬Outstanding s itemId →
    s.log.countP (Event.accepts itemId) = 0
  /-- One approval has an accepted send to record. -/
  sole : ∀ c d plan plan' result result', s.calls c = .handed itemId plan result →
    s.calls d = .handed itemId plan' result' → result.accepted = true →
      result'.accepted = true → c = d
  /-- An approval about to send read an item that is there. -/
  present : ∀ c workspaceId plan, s.calls c = .sending workspaceId itemId plan →
    ∃ i ∈ s.db.inbox, i.id = itemId
  /-- A rejection stands, and nothing is to be recorded or handed over after it. -/
  rejected : ∀ pre post, s.log = pre ++ .rejected itemId :: post →
    (∀ e ∈ post, e.hands itemId = false) ∧ ItemState s.db itemId .rejected ∧ ¬Outstanding s itemId

/-- Where a log with one more event holds a rejection. -/
private theorem split_append {log : List Event} {e : Event} {itemId : String} {pre post : List Event}
    (h : log ++ [e] = pre ++ .rejected itemId :: post) :
    (∃ post', log = pre ++ .rejected itemId :: post' ∧ post = post' ++ [e]) ∨
      (log = pre ∧ e = .rejected itemId ∧ post = []) := by
  rcases List.eq_nil_or_concat post with rfl | ⟨post', last, rfl⟩
  · have h' : log ++ [e] = pre ++ [.rejected itemId] := h
    obtain ⟨hpre, hlast⟩ := List.append_inj' h' rfl
    exact .inr ⟨hpre, List.singleton_inj.mp hlast, rfl⟩
  · have h' : log ++ [e] = (pre ++ .rejected itemId :: post') ++ [last] := by
      rw [h]
      simp
    obtain ⟨hpre, hlast⟩ := List.append_inj' h' rfl
    exact .inl ⟨post', hpre, by rw [List.singleton_inj.mp hlast]; simp⟩

/-! The invariant of an item has one frame rule for each component of the state. -/

/-- **Frame rule for calls.** A call moves from and to where it has nothing accepted
to record of the item. -/
private theorem Inv.setCall {s : State} {itemId : String} (h : Inv s itemId) (c : ℕ) (call : Call)
    (hold : ∀ plan result, s.calls c = .handed itemId plan result → result.accepted = false)
    (hnew : ∀ plan result, call = .handed itemId plan result → result.accepted = false)
    (hsending : ∀ workspaceId plan, call = .sending workspaceId itemId plan →
      ∃ i ∈ s.db.inbox, i.id = itemId) :
    Inv (s.setCall c call) itemId := by
  have hcases : ∀ {d plan result}, (s.setCall c call).calls d = .handed itemId plan result →
      result.accepted = true → s.calls d = .handed itemId plan result := by
    -- A call that hands the item over is one of before.
    intro d plan result hd haccepted
    change Function.update s.calls c call d = _ at hd
    rcases update_eq_cases hd with ⟨rfl, hmoved⟩ | ⟨-, hd⟩
    · rw [hnew plan result hmoved] at haccepted
      cases haccepted
    · exact hd
  have hout : Outstanding (s.setCall c call) itemId ↔ Outstanding s itemId := by
    constructor
    · rintro ⟨d, plan, result, hd, haccepted⟩
      exact ⟨d, plan, result, hcases hd haccepted, haccepted⟩
    · rintro ⟨d, plan, result, hd, haccepted⟩
      refine ⟨d, plan, result, ?_, haccepted⟩
      change Function.update s.calls c call d = _
      by_cases hdc : d = c
      · subst hdc
        rw [hold plan result hd] at haccepted
        cases haccepted
      · rwa [Function.update_of_ne hdc]
  refine ⟨h.once, fun hpending hnone => h.unsent hpending (mt hout.mpr hnone), ?_, ?_, ?_⟩
  · -- At most one accepted answer is outstanding.
    intro d e plan plan' result result' hd he haccepted haccepted'
    exact h.sole d e plan plan' result result' (hcases hd haccepted) (hcases he haccepted')
      haccepted haccepted'
  · -- Whoever sends for the item has found it.
    intro d workspaceId plan hd
    change Function.update s.calls c call d = _ at hd
    rcases update_eq_cases hd with ⟨rfl, hmoved⟩ | ⟨-, hd⟩
    · exact hsending workspaceId plan hmoved
    · exact h.present d workspaceId plan hd
  · -- What was rejected stays rejected.
    intro pre post hlog
    obtain ⟨hpost, hstate, hnone⟩ := h.rejected pre post hlog
    exact ⟨hpost, hstate, mt hout.mp hnone⟩

/-- **Frame rule for the database.** The items with the id keep their states. -/
private theorem Inv.setDb {s : State} {itemId : String} (h : Inv s itemId) (db : Db)
    (hback : ∀ i ∈ db.inbox, i.id = itemId → ∃ i₀ ∈ s.db.inbox, i₀.id = itemId ∧
      i.state = i₀.state)
    (hforth : (∃ i ∈ s.db.inbox, i.id = itemId) → ∃ i ∈ db.inbox, i.id = itemId) :
    Inv { s with db := db } itemId := by
  refine ⟨h.once, ?_, h.sole, fun c workspaceId plan hc => hforth (h.present c workspaceId plan hc),
    fun pre post hlog => ?_⟩
  · rintro ⟨i, hi, hid, hpending⟩ hnone
    obtain ⟨i₀, hi₀, hid₀, hsame⟩ := hback i hi hid
    exact h.unsent ⟨i₀, hi₀, hid₀, hsame ▸ hpending⟩ hnone
  · obtain ⟨hpost, hstate, hnone⟩ := h.rejected pre post hlog
    refine ⟨hpost, fun i hi hid => ?_, hnone⟩
    obtain ⟨i₀, hi₀, hid₀, hsame⟩ := hback i hi hid
    rw [hsame]
    exact hstate i₀ hi₀ hid₀

/-- Changing the state of another item is such a change. -/
private theorem Inv.setOther {s : State} {itemId itemId' : String} (h : Inv s itemId)
    (hne : itemId' ≠ itemId) {state : AgentInboxState} {db : Db}
    (hdb : db.inbox = setItemState s.db.inbox itemId' state) : Inv { s with db := db } itemId := by
  refine h.setDb db (fun i hi hid => ?_) ?_
  · rw [hdb] at hi
    obtain ⟨i₀, hi₀, hsame, ⟨hid₀, -⟩ | ⟨-, hstate⟩⟩ := mem_setItemState hi
    · exact absurd (hid₀.symm.trans (hsame.symm.trans hid)) hne
    · exact ⟨i₀, hi₀, hsame.symm.trans hid, hstate⟩
  · rw [hdb]
    exact (exists_id_setItemState _ _ _ _).mpr

/-- **Frame rule for the log.** An event of another item is appended. -/
private theorem Inv.append {s : State} {itemId : String} (h : Inv s itemId) (e : Event)
    (haccepts : e.accepts itemId = false) (hhands : e.hands itemId = false)
    (hrejected : e ≠ .rejected itemId) : Inv { s with log := s.log ++ [e] } itemId := by
  have hcount : (s.log ++ [e]).countP (Event.accepts itemId) =
      s.log.countP (Event.accepts itemId) := by
    rw [List.countP_append, List.countP_singleton, haccepts]
    rfl
  refine ⟨?_, fun hpending hnone => ?_, h.sole, h.present, fun pre post hsplit => ?_⟩
  · -- The event accepts nothing of the item.
    change List.countP _ (s.log ++ [e]) ≤ 1
    rw [hcount]
    exact h.once
  · -- It hands nothing over, so the item is still unsent.
    change List.countP _ (s.log ++ [e]) = 0
    rw [hcount]
    exact h.unsent hpending hnone
  · -- The event is no rejection of the item.
    rcases split_append hsplit with ⟨post', hlog, rfl⟩ | ⟨-, heq, -⟩
    · obtain ⟨hpost, hrest⟩ := h.rejected pre post' hlog
      refine ⟨fun e' he' => ?_, hrest⟩
      rcases List.mem_append.mp he' with he' | he'
      · exact hpost e' he'
      · rw [List.mem_singleton.mp he']
        exact hhands
    · exact absurd heq hrejected

/-! ### The steps of a careful run -/

theorem Inv.initial {s : State} (h : system.init s) (itemId : String) : Inv s itemId := by
  obtain ⟨hidle, hlog⟩ := h
  refine ⟨by rw [hlog]; exact Nat.zero_le 1, fun _ _ => by rw [hlog]; rfl, ?_, ?_, ?_⟩
  · intro c d plan plan' result result' hc
    rw [hidle] at hc
    cases hc
  · intro c workspaceId plan hc
    rw [hidle] at hc
    cases hc
  · intro pre post hsplit
    rw [hlog] at hsplit
    cases pre <;> cases hsplit

/-- Phase 1 of an approval. -/
private theorem Inv.approve {s : State} {itemId : String} (h : Inv s itemId) {c : ℕ}
    (hc : s.calls c = .idle) (workspaceId : String) (ucUid : Option String) (itemId' : String) :
    Inv (s.setCall c (afterPlan workspaceId (approvePlan s.db workspaceId ucUid itemId')))
      itemId := by
  refine h.setCall c _ (fun plan result heq => ?_) (fun plan result heq => ?_)
    (fun workspaceId' plan heq => ?_)
  · rw [hc] at heq
    cases heq
  · unfold afterPlan at heq
    split at heq <;> cases heq
  · unfold afterPlan at heq
    split at heq
    · rename_i hplan
      cases heq
      obtain ⟨rfl, item, -, hitem, -⟩ := approvePlan_send hplan
      exact ⟨item, mem_of_findItem hitem⟩
    · cases heq

/-- The engine call of an approval, made while the item is pending and nothing is to
be recorded. -/
private theorem Inv.hand {s : State} {itemId : String} (h : Inv s itemId) {c : ℕ}
    {workspaceId itemId' : String} {plan : SendPlan} (result : EngineSendResult)
    (hc : s.calls c = .sending workspaceId itemId' plan)
    (hpending : ItemState s.db itemId' .pending) (hnone : ¬Outstanding s itemId') :
    Inv { s.setCall c (.handed itemId' plan result) with
      log := s.log ++ [.handed itemId' plan.messageId plan.req result] } itemId := by
  by_cases hid : itemId' = itemId
  · subst hid
    obtain ⟨i, hi, hiid⟩ := h.present c workspaceId plan hc
    have hzero := h.unsent ⟨i, hi, hiid, hpending i hi hiid⟩ hnone
    have hnew : ∀ {d plan' result'}, (s.setCall c (.handed itemId' plan result)).calls d =
        .handed itemId' plan' result' → result'.accepted = true → d = c := by
      intro d plan' result' hd haccepted
      by_contra hdc
      change Function.update s.calls c _ d = _ at hd
      rw [Function.update_of_ne hdc] at hd
      exact hnone ⟨d, plan', result', hd, haccepted⟩
    have hcount : (s.log ++ [Event.handed itemId' plan.messageId plan.req result]).countP
        (Event.accepts itemId') = if result.accepted then 1 else 0 := by
      rw [List.countP_append, hzero, List.countP_singleton]
      simp [Event.accepts]
    refine ⟨?_, fun _ hout => ?_, ?_, ?_, fun pre post hsplit => ?_⟩
    · change List.countP _ (s.log ++ _) ≤ 1
      rw [hcount]
      split <;> decide
    · change List.countP _ (s.log ++ _) = 0
      rw [hcount, if_neg]
      -- An accepted send would now be there to be recorded.
      intro haccepted
      exact hout ⟨c, plan, result, Function.update_self c _ _, haccepted⟩
    · intro d e plan₁ plan₂ r₁ r₂ hd he h₁ h₂
      rw [hnew hd h₁, hnew he h₂]
    · exact fun _ _ _ _ => ⟨i, hi, hiid⟩
    · rcases split_append hsplit with ⟨post', hlog, -⟩ | ⟨-, hevent, -⟩
      · have hrejected := (h.rejected pre post' hlog).2.1 i hi hiid
        rw [hpending i hi hiid] at hrejected
        cases hrejected
      · cases hevent
  · -- The item handed over is another one.
    have hmoved := h.setCall c (.handed itemId' plan result)
      (fun plan' result' heq => by rw [hc] at heq; cases heq)
      (fun plan' result' heq => by cases heq; exact absurd rfl hid)
      (fun _ _ heq => by cases heq)
    exact hmoved.append _ (by simp [Event.accepts, hid]) (by simp [Event.hands, hid])
      (fun heq => by cases heq)

/-- Phase 3 of an approval. -/
private theorem Inv.record {s : State} {itemId : String} (h : Inv s itemId) {c : ℕ}
    {itemId' : String} {plan : SendPlan} {result : EngineSendResult}
    (hc : s.calls c = .handed itemId' plan result) :
    Inv { s.setCall c .ended with
      db := recordApproval s.db itemId' plan.messageId result } itemId := by
  by_cases haccepted : result.accepted = true
  · have hinbox : (recordApproval s.db itemId' plan.messageId result).inbox =
        setItemState s.db.inbox itemId' .approved := if_pos haccepted
    by_cases hid : itemId' = itemId
    · subst hid
      have houtstanding : Outstanding s itemId' := ⟨c, plan, result, hc, haccepted⟩
      have hcall : ∀ {d call}, (s.setCall c .ended).calls d = call → call ≠ .ended →
          s.calls d = call ∧ d ≠ c := by
        intro d call hd hne
        change Function.update s.calls c .ended d = _ at hd
        rcases update_eq_cases hd with ⟨rfl, hmoved⟩ | ⟨hdc, hd⟩
        · exact absurd hmoved.symm hne
        · exact ⟨hd, hdc⟩
      refine ⟨h.once, ?_, ?_, ?_, ?_⟩
      · -- The item is approved, and not pending any more.
        rintro ⟨i, hi, hiid, hpending⟩ -
        rw [hinbox] at hi
        obtain ⟨i₀, -, hsame, ⟨-, hstate⟩ | ⟨hne, -⟩⟩ := mem_setItemState hi
        · rw [hstate] at hpending
          cases hpending
        · exact absurd (hsame.symm.trans hiid) hne
      · -- The one accepted answer is recorded now.
        intro d e plan₁ plan₂ r₁ r₂ hd _ h₁ _
        obtain ⟨hd', hdc⟩ := hcall hd (by simp)
        exact absurd (h.sole d c plan₁ plan r₁ result hd' hc h₁ haccepted) hdc
      · -- An approval marks the item and does not remove it.
        intro d workspaceId plan' hd
        have hpresent := h.present d workspaceId plan' (hcall hd (by simp)).1
        rw [hinbox]
        exact (exists_id_setItemState _ _ _ _).mpr hpresent
      · -- With an accepted answer outstanding the item was never rejected.
        intro pre post hlog
        exact absurd houtstanding (h.rejected pre post hlog).2.2
    · -- The answer is for another item.
      have hmoved := h.setCall c .ended
        (fun plan' result' heq => by rw [hc] at heq; cases heq; exact absurd rfl hid)
        (fun _ _ heq => by cases heq) (fun _ _ heq => by cases heq)
      exact hmoved.setOther hid hinbox
  · -- A refused answer leaves the inbox as it is.
    have hinbox : (recordApproval s.db itemId' plan.messageId result).inbox = s.db.inbox :=
      if_neg haccepted
    have hmoved := h.setCall c .ended
      (fun plan' result' heq => by
        rw [hc] at heq
        cases heq
        exact Bool.eq_false_iff.mpr haccepted)
      (fun _ _ heq => by cases heq) (fun _ _ heq => by cases heq)
    refine hmoved.setDb _ (fun i hi hiid => ?_) (fun hex => ?_)
    · rw [hinbox] at hi
      exact ⟨i, hi, hiid, rfl⟩
    · rw [hinbox]
      exact hex

/-- A rejection that commits while nothing is to be recorded. -/
private theorem Inv.reject {s : State} {itemId : String} (h : Inv s itemId)
    {workspaceId itemId' : String} {db : Db}
    (hdb : rejectItem s.db workspaceId itemId' = .rejected db) (hnone : ¬Outstanding s itemId') :
    Inv { s with db := db, log := s.log ++ [.rejected itemId'] } itemId := by
  obtain ⟨-, hinbox⟩ := rejectItem_rejected hdb
  by_cases hid : itemId' = itemId
  · subst hid
    have hstate : ItemState db itemId' .rejected := by
      intro i hi hiid
      rw [hinbox] at hi
      obtain ⟨i₀, -, hsame, ⟨-, hstate⟩ | ⟨hne, -⟩⟩ := mem_setItemState hi
      · exact hstate
      · exact absurd (hsame.symm.trans hiid) hne
    have hcount : (s.log ++ [Event.rejected itemId']).countP (Event.accepts itemId') =
        s.log.countP (Event.accepts itemId') := by
      rw [List.countP_append]
      rfl
    refine ⟨hcount.trans_le h.once, ?_, h.sole, fun d workspaceId' plan hd => ?_,
      fun pre post hsplit => ⟨?_, hstate, hnone⟩⟩
    · -- A rejected item is not pending.
      rintro ⟨i, hi, hiid, hpending⟩ -
      rw [hstate i hi hiid] at hpending
      cases hpending
    · rw [hinbox]
      exact (exists_id_setItemState _ _ _ _).mpr (h.present d workspaceId' plan hd)
    · -- Nothing was handed over since an earlier rejection, and nothing yet since this one.
      rcases split_append hsplit with ⟨post', hlog, rfl⟩ | ⟨-, -, rfl⟩
      · intro e he
        rcases List.mem_append.mp he with he | he
        · exact (h.rejected pre post' hlog).1 e he
        · rw [List.mem_singleton.mp he]
          rfl
      · exact fun e he => absurd he List.not_mem_nil
  · -- Another item was rejected.
    have hmoved := h.setOther hid hinbox
    exact hmoved.append _ rfl rfl (fun heq => hid (by cases heq; rfl))

/-- A careful step keeps the invariant of every item. -/
theorem Inv.step {s s' : State} {l : Label} {itemId : String} (h : Inv s itemId)
    (hcareful : Careful s l) (hs : system.step s l = some s') : Inv s' itemId := by
  rcases step_eq_some hs with ⟨c, workspaceId, ucUid, itemId', rfl, hc, rfl⟩ |
    ⟨c, workspaceId, itemId', plan, result, rfl, hc, rfl⟩ |
    ⟨c, itemId', plan, result, rfl, hc, rfl⟩ | ⟨c, rfl, rfl⟩ | ⟨workspaceId, itemId', rfl, rfl⟩ |
    ⟨workspaceId, itemId', db, rfl, hdb, rfl⟩
  · exact h.approve hc workspaceId ucUid itemId'
  · obtain ⟨hpending, hnone⟩ := hcareful workspaceId itemId' plan hc
    exact h.hand result hc hpending hnone
  · exact h.record hc
  · exact h.setCall c .ended (hcareful itemId) (fun _ _ heq => by cases heq)
      (fun _ _ heq => by cases heq)
  · exact h
  · exact h.reject hdb hcareful

/-- **Careful runs are safe.** In every run whose steps are careful, the engine
accepts every item at most once, and an item rejected is not handed over any more
and stays rejected. -/
theorem safe_of_careful {s : State} (hreach : system.ReachableUnder Careful s) (itemId : String) :
    SafeLog s itemId := by
  have hinv : Inv s itemId := hreach.invariant (P := fun s => Inv s itemId)
    (fun _ hinit => Inv.initial hinit itemId)
    (fun _ _ _ _ ih hcareful hs => ih.step hcareful hs)
  exact ⟨hinv.once, fun pre post hlog =>
    ⟨(hinv.rejected pre post hlog).1, (hinv.rejected pre post hlog).2.1⟩⟩

/-- Two approvals read the item; the engine refuses the first send and accepts the
second, made while the item is still pending, and the rejection that comes last finds
it approved. -/
theorem safe_of_careful_run :
    ∃ s : State, s.db.inbox.map (·.state) = [.approved] ∧ s.log.length = 2 ∧ SafeLog s "i" := by
  have r := (System.ReachableUnder.init sampleStart_init :
    system.ReachableUnder Careful sampleStart)
  have r := r.next (.approve 0 "ws" none "i") trivial rfl
  have r := r.next (.approve 1 "ws" none "i") trivial rfl
  have r := r.next (.callEngine 0 ⟨false, none, none, none, none⟩)
    (fun workspaceId itemId plan hc => by
      cases hc
      exact ⟨fun i hi _ => by rw [List.mem_singleton.mp hi],
        fun ⟨c, plan, result, hd, _⟩ => by
          match c, hd with
          | 0, hd => cases hd
          | 1, hd => cases hd
          | _ + 2, hd => cases hd⟩) rfl
  have r := r.next (.record 0) trivial rfl
  have r := r.next (.callEngine 1 ⟨true, some "p", none, none, none⟩)
    (fun workspaceId itemId plan hc => by
      cases hc
      exact ⟨fun i hi _ => by rw [List.mem_singleton.mp hi],
        fun ⟨c, plan, result, hd, _⟩ => by
          match c, hd with
          | 0, hd => cases hd
          | 1, hd => cases hd
          | _ + 2, hd => cases hd⟩) rfl
  have r := r.next (.record 1) trivial rfl
  have r := r.next (.reject "ws" "i")
    (fun ⟨c, plan, result, hd, _⟩ => by
      match c, hd with
      | 0, hd => cases hd
      | 1, hd => cases hd
      | _ + 2, hd => cases hd) rfl
  exact ⟨_, rfl, rfl, safe_of_careful r "i"⟩

end Approval
end EmailOps
