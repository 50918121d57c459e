import EmailOps.Sms.Protocol

/-!
# Text messages, at most once

* `Careful` is the condition under which a run keeps the guarantee: no transaction is rolled
  back that has called the provider, an approval calls it for an item that is still pending
  and commits if it was accepted, and a rejection commits over an item that is still pending.
* `Inv` is the invariant of such runs. A message that is inserted and not handed over has no
  hand-offs, since a key that has some is recorded or held by the call that made them
  (`Inv.unhanded`).
* `atMostOnce_of_careful` is the result, and `unsafe_runs` are three runs of another kind.
-/

namespace EmailOps
namespace Sms

open Framework Framework.Table

/-- The item is pending, and no approval of it has called the provider. -/
def State.StillPending (s : State) (itemId : String) : Prop :=
  (∀ i ∈ s.db.inbox.rows, i.id = itemId → i.state = .pending) ∧ ∀ p ∈ s.handing, p.2 ≠ itemId

instance (s : State) (itemId : String) : Decidable (s.StillPending itemId) :=
  inferInstanceAs (Decidable (_ ∧ _))

/-- **The condition.** -/
def Careful (s : State) : Label → Prop
  | .rollback c =>
    match s.calls c with
    | .handed _ _ | .confirming _ _ _ => False
    | _ => True
  | .handOver c _ =>
    match s.calls c with
    | .approving item _ => s.StillPending item.id
    | _ => True
  | .next c =>
    match s.calls c with
    | .confirming _ _ result => result.accepted = true
    | .rejecting item _ => s.StillPending item.id
    | _ => True
  | _ => True

instance (s : State) (l : Label) : Decidable (Careful s l) := by
  unfold Careful
  split
  · split <;> infer_instance
  · split <;> infer_instance
  · split <;> infer_instance
  · infer_instance

/-! ### What becomes of the rows -/

/-- Every row is still there, under its unique columns. -/
structure Db.Grows (db db' : Db) : Prop where
  messages : ∀ m ∈ db.messages.rows, ∃ m' ∈ db'.messages.rows, m'.id = m.id ∧ m'.key = m.key
  items : ∀ i ∈ db.inbox.rows, ∃ i' ∈ db'.inbox.rows, i'.id = i.id ∧
    i'.smsMessageId = i.smsMessageId

/-- A review has read rows that are there. -/
def Call.Read (db : Db) : Call → Prop
  | .approving item msg | .confirming item msg _ | .rejecting item msg =>
    (∃ i ∈ db.inbox.rows, i.id = item.id ∧ i.smsMessageId = msg.id) ∧
      ∃ m ∈ db.messages.rows, m.id = msg.id ∧ m.key = msg.key
  | _ => True

theorem Call.Read.grows {db db' : Db} {call : Call} (h : call.Read db) (hgrows : db.Grows db') :
    call.Read db' := by
  cases call with
  | approving item msg | confirming item msg result | rejecting item msg =>
    obtain ⟨⟨i, hi, hid, habout⟩, m, hm, hmid, hkey⟩ := h
    obtain ⟨i', hi', hid', habout'⟩ := hgrows.items i hi
    obtain ⟨m', hm', hmid', hkey'⟩ := hgrows.messages m hm
    exact ⟨⟨i', hi', hid'.trans hid, habout'.trans habout⟩, m', hm', hmid'.trans hmid,
      hkey'.trans hkey⟩
  | _ => trivial

section Reviews

variable {db : Db} {item : SmsInboxItem} {msg m' : SmsMessage} {result : TwilioSendResult}

theorem of_mem_confirm (h : m' ∈ (db.confirm item msg result).messages.rows) :
    ∃ m ∈ db.messages.rows, m'.id = m.id ∧ m'.key = m.key ∧
      (m' = m ∨ m.id = msg.id ∧ m' = recordSend result m) := by
  obtain ⟨m, hm, hid, hkey, hwritten | ⟨-, hkept⟩⟩ :=
    Unique.of_mem_update (f := recordSend result) (fun _ => rfl) (fun _ => rfl) h
  · exact ⟨m, hm, hid, hkey, .inr hwritten⟩
  · exact ⟨m, hm, hid, hkey, .inl hkept⟩

theorem of_mem_reject (h : m' ∈ (db.reject item msg).messages.rows) :
    ∃ m ∈ db.messages.rows, m'.id = m.id ∧ m'.key = m.key ∧
      (m' = m ∨ m.id = msg.id ∧ m' = { m with status := .rejected }) := by
  obtain ⟨m, hm, hid, hkey, hwritten | ⟨-, hkept⟩⟩ :=
    Unique.of_mem_update (f := fun m : SmsMessage => { m with status := .rejected })
      (fun _ => rfl) (fun _ => rfl) h
  · exact ⟨m, hm, hid, hkey, .inr hwritten⟩
  · exact ⟨m, hm, hid, hkey, .inl hkept⟩

end Reviews

theorem refuses_of_forall_exists {messages messages' : SmsMessages} {msg : SmsMessage}
    (hold : ∀ m' ∈ messages'.rows, ∃ m ∈ messages.rows, m'.id = m.id ∧ m'.key = m.key)
    (h : messages.refuses msg = false) : messages'.refuses msg = false := by
  refine Unique.refuses_eq_false.mpr fun m' hm' => ?_
  obtain ⟨m, hm, hid, hkey⟩ := hold m' hm'
  have hapart := Unique.clash_eq_false.mp (Unique.refuses_eq_false.mp h m hm)
  exact Unique.clash_eq_false.mpr ⟨hid ▸ hapart.1, hkey ▸ hapart.2⟩

theorem of_mem_setState {inbox : SmsItems} {id : String} {state : AgentInboxState}
    {i' : SmsInboxItem} (h : i' ∈ (setState inbox id state).rows) :
    ∃ i ∈ inbox.rows, i'.id = i.id ∧ i'.smsMessageId = i.smsMessageId ∧
      (i.id = id ∧ i'.state = state ∨ i.id ≠ id ∧ i' = i) := by
  obtain ⟨i, hi, hid, habout, ⟨hitem, rfl⟩ | hother⟩ :=
    Unique.of_mem_update (f := fun i : SmsInboxItem => { i with state := state })
      (fun _ => rfl) (fun _ => rfl) h
  · exact ⟨i, hi, hid, habout, .inl ⟨hitem, rfl⟩⟩
  · exact ⟨i, hi, hid, habout, .inr hother⟩

theorem Db.grows_confirm (db : Db) (item : SmsInboxItem) (msg : SmsMessage)
    (result : TwilioSendResult) : db.Grows (db.confirm item msg result) :=
  ⟨fun _ => Unique.exists_update (f := recordSend result) (fun _ => rfl) fun _ => rfl,
    fun _ => Unique.exists_update (f := fun i : SmsInboxItem => { i with state := .approved })
      (fun _ => rfl) fun _ => rfl⟩

theorem Db.grows_reject (db : Db) (item : SmsInboxItem) (msg : SmsMessage) :
    db.Grows (db.reject item msg) :=
  ⟨fun _ => Unique.exists_update (f := fun m : SmsMessage => { m with status := .rejected })
      (fun _ => rfl) fun _ => rfl,
    fun _ => Unique.exists_update (f := fun i : SmsInboxItem => { i with state := .rejected })
      (fun _ => rfl) fun _ => rfl⟩

section Log

variable {s : State} {msg : SmsMessage} {result : TwilioSendResult} {key : Triple}

theorem handOffs_noteHandOff : (s.noteHandOff msg result).handOffs key =
    s.handOffs key + if msg.key = key then 1 else 0 := by
  unfold State.handOffs State.noteHandOff
  rw [List.countP_append, List.countP_singleton]
  simp

theorem handOffs_noteHandOff_of_ne (h : msg.key ≠ key) :
    (s.noteHandOff msg result).handOffs key = s.handOffs key := by
  rw [handOffs_noteHandOff, if_neg h, Nat.add_zero]

theorem once_noteHandOff (hnone : s.handOffs msg.key = 0) (honce : ∀ key, s.handOffs key ≤ 1)
    (key : String × String × String) : (s.noteHandOff msg result).handOffs key ≤ 1 := by
  rw [handOffs_noteHandOff]
  split
  · next heq => rw [← heq, hnone]
  · exact honce key

theorem State.Accepted.note (h : s.Accepted key) : (s.noteHandOff msg result).Accepted key := by
  obtain ⟨k, hk, hkey⟩ := h
  exact ⟨k, List.mem_append_left _ hk, hkey⟩

theorem accepted_noteHandOff (h : result.accepted = true) :
    (s.noteHandOff msg result).Accepted msg.key :=
  ⟨_, List.mem_append_right _ (List.mem_singleton_self _), rfl, h⟩

end Log

/-! ### The invariant -/

/-- Is the call one that has a message inserted? -/
def Call.inserted : Call → Option SmsMessage
  | .queued msg | .handed msg _ => some msg
  | _ => none

/-- What the provider has answered to the call, if it has. -/
def Call.answer : Call → Option (SmsMessage × TwilioSendResult)
  | .handed msg result | .confirming _ msg result => some (msg, result)
  | _ => none

/-- **The invariant.** -/
structure Inv (s : State) : Prop where
  /-- What a call has inserted is among what is inserted, under unique columns of its own. -/
  held : ∀ c msg, (s.calls c).inserted = some msg → (c, msg) ∈ s.inserted
  apart : ∀ p ∈ s.inserted, ∀ q ∈ s.inserted,
    Unique.clash SmsMessage.id SmsMessage.key p.2 q.2 = true → p.1 = q.1
  free : ∀ p ∈ s.inserted, s.db.messages.refuses p.2 = false
  /-- A key with a hand-off is recorded, or held by the call that made it. -/
  spent : ∀ key, 0 < s.handOffs key → (∃ m ∈ s.db.messages.rows, m.key = key) ∨
    ∃ c msg result, s.calls c = .handed msg result ∧ msg.key = key
  answered : ∀ c msg result, (s.calls c).answer = some (msg, result) → result.accepted = true →
    s.Accepted msg.key
  about : ∀ i ∈ s.db.inbox.rows, ∃ m ∈ s.db.messages.rows, m.id = i.smsMessageId
  read : ∀ c, (s.calls c).Read s.db
  /-- A pending item was not handed over, unless by an approval that has not ended. -/
  unsent : ∀ i ∈ s.db.inbox.rows, i.state = .pending → (∀ p ∈ s.handing, p.2 ≠ i.id) →
    ∀ m ∈ s.db.messages.rows, m.id = i.smsMessageId → s.handOffs m.key = 0
  confirming : ∀ c item msg result, s.calls c = .confirming item msg result →
    (c, item.id) ∈ s.handing
  outstanding : ∀ p ∈ s.handing,
    (∃ item msg result, s.calls p.1 = .confirming item msg result ∧ item.id = p.2) ∧
      ∀ i ∈ s.db.inbox.rows, i.id = p.2 → i.state = .pending
  sole : ∀ p ∈ s.handing, ∀ q ∈ s.handing, p.2 = q.2 → p.1 = q.1
  safe : AtMostOnce s

section Run

variable {s s' : State} {c : ℕ} {call : Call} {msg : SmsMessage} {result : TwilioSendResult}
  {item : SmsInboxItem}

/-- **A message that is inserted and not handed over has no hand-offs.** -/
theorem Inv.unhanded (h : Inv s) (hcall : s.calls c = .queued msg) : s.handOffs msg.key = 0 := by
  by_contra hspent
  have hmem : (c, msg) ∈ s.inserted := h.held c msg (by rw [hcall]; rfl)
  rcases h.spent msg.key (Nat.pos_of_ne_zero hspent) with ⟨m, hm, hkey⟩ |
    ⟨d, msg', result, hd, hkey⟩
  · -- It would be recorded under the key already.
    have hfree := Unique.refuses_eq_false.mp (h.free _ hmem) m hm
    exact (Unique.clash_eq_false.mp hfree).2 hkey.symm
  · -- The call that made them would be the same.
    have hmem' : (d, msg') ∈ s.inserted := h.held d msg' (by rw [hd]; rfl)
    have hclash : Unique.clash SmsMessage.id SmsMessage.key msg msg' = true := by
      simp [Unique.clash, hkey]
    obtain rfl := h.apart _ hmem _ hmem' hclash
    rw [hcall] at hd
    cases hd

/-- **A pending item that no approval has handed over has no hand-offs.** -/
theorem Inv.unreviewed (h : Inv s) (hread : (Call.approving item msg).Read s.db)
    (hpending : s.StillPending item.id) : s.handOffs msg.key = 0 := by
  obtain ⟨⟨i, hi, hid, habout⟩, m, hm, hmid, hkey⟩ := hread
  rw [← hkey]
  refine h.unsent i hi (hpending.1 i hi hid) ?_ m hm (hmid.trans habout.symm)
  rw [hid]
  exact hpending.2

/-! ### Moving a call on -/

@[simp] theorem moveTo_self : (s.moveTo c call).calls c = call := by
  simp [State.moveTo]

theorem moveTo_of_ne {d : ℕ} (h : d ≠ c) : (s.moveTo c call).calls d = s.calls d := by
  simp [State.moveTo, h]

theorem mem_inserted_of_moveTo {p : ℕ × SmsMessage} (h : p ∈ (s.moveTo c call).inserted) :
    p ∈ s.inserted := by
  unfold State.moveTo at h
  dsimp only at h
  split at h
  · exact List.mem_of_mem_filter h
  · exact h

theorem mem_inserted_moveTo {p : ℕ × SmsMessage} (h : p ∈ s.inserted) (hp : p.1 ≠ c) :
    p ∈ (s.moveTo c call).inserted := by
  unfold State.moveTo
  dsimp only
  split
  · exact List.mem_filter.mpr ⟨h, decide_eq_true hp⟩
  · exact h

theorem mem_handing_of_moveTo {p : ℕ × String} (h : p ∈ (s.moveTo c call).handing) :
    p ∈ s.handing := by
  unfold State.moveTo at h
  dsimp only at h
  split at h
  · exact List.mem_of_mem_filter h
  · exact h

theorem mem_handing_moveTo {p : ℕ × String} (h : p ∈ s.handing) (hp : p.1 ≠ c) :
    p ∈ (s.moveTo c call).handing := by
  unfold State.moveTo
  dsimp only
  split
  · exact List.mem_filter.mpr ⟨h, decide_eq_true hp⟩
  · exact h

theorem Inv.ne_of_handing (h : Inv s) (hnow : ∀ item msg result, s.calls c ≠
    .confirming item msg result) {p : ℕ × String} (hp : p ∈ s.handing) : p.1 ≠ c := by
  rintro rfl
  obtain ⟨⟨item, msg, result, hcall, -⟩, -⟩ := h.outstanding p hp
  exact hnow item msg result hcall

theorem ne_confirming_of_answer (hnow : (s.calls c).answer = none) (item : SmsInboxItem)
    (msg : SmsMessage) (result : TwilioSendResult) : s.calls c ≠ .confirming item msg result := by
  intro hcall
  rw [hcall] at hnow
  cases hnow

/-- **A call that the provider has not answered may move on to where it has nothing open.** -/
theorem Inv.quiet (h : Inv s) (hnow : (s.calls c).answer = none) (hinserted : call.inserted = none)
    (hanswer : call.answer = none) (hread : call.Read s.db) : Inv (s.moveTo c call) where
  held d msg hd := by
    by_cases hc : d = c
    · rw [hc, moveTo_self, hinserted] at hd
      cases hd
    · rw [moveTo_of_ne hc] at hd
      exact mem_inserted_moveTo (h.held d msg hd) hc
  apart p hp q hq := h.apart p (mem_inserted_of_moveTo hp) q (mem_inserted_of_moveTo hq)
  free p hp := h.free p (mem_inserted_of_moveTo hp)
  spent key hkey := by
    rcases h.spent key hkey with hrow | ⟨d, msg, result, hd, hmsg⟩
    · exact .inl hrow
    · have hc : d ≠ c := by
        rintro rfl
        rw [hd] at hnow
        cases hnow
      exact .inr ⟨d, msg, result, (moveTo_of_ne hc).trans hd, hmsg⟩
  answered d msg result hd := by
    by_cases hc : d = c
    · rw [hc, moveTo_self, hanswer] at hd
      cases hd
    · rw [moveTo_of_ne hc] at hd
      exact h.answered d msg result hd
  about := h.about
  read d := by
    by_cases hc : d = c
    · rw [hc, moveTo_self]
      exact hread
    · rw [moveTo_of_ne hc]
      exact h.read d
  unsent i hi hpending hnone := by
    refine h.unsent i hi hpending fun p hp => hnone p (mem_handing_moveTo hp ?_)
    exact h.ne_of_handing (ne_confirming_of_answer hnow) hp
  confirming d item msg result hd := by
    by_cases hc : d = c
    · rw [hc, moveTo_self] at hd
      rw [hd] at hanswer
      cases hanswer
    · rw [moveTo_of_ne hc] at hd
      exact mem_handing_moveTo (h.confirming d item msg result hd) hc
  outstanding p hp := by
    have hmem := mem_handing_of_moveTo hp
    obtain ⟨⟨item, msg, result, hcall, hid⟩, hpending⟩ := h.outstanding p hmem
    have hc := h.ne_of_handing (ne_confirming_of_answer hnow) hmem
    exact ⟨⟨item, msg, result, (moveTo_of_ne hc).trans hcall, hid⟩, hpending⟩
  sole p hp q hq := h.sole p (mem_handing_of_moveTo hp) q (mem_handing_of_moveTo hq)
  safe := ⟨h.safe.once, h.safe.sent, h.safe.approved, h.safe.rejected⟩

/-! ### Composing -/

theorem waits_eq_false {msg : SmsMessage} :
    s.waits msg = false ↔ ∀ p ∈ s.inserted, Unique.clash SmsMessage.id SmsMessage.key msg p.2
      = false := by
  simp [State.waits]

theorem clash_comm {m m' : SmsMessage} :
    Unique.clash SmsMessage.id SmsMessage.key m m' =
      Unique.clash SmsMessage.id SmsMessage.key m' m := by
  simp [Unique.clash, eq_comm]

/-- A message that neither the table nor a transaction refuses has no hand-offs. -/
theorem Inv.fresh (h : Inv s) (hwaits : s.waits msg = false)
    (hfree : s.db.messages.refuses msg = false) : s.handOffs msg.key = 0 := by
  by_contra hspent
  rcases h.spent msg.key (Nat.pos_of_ne_zero hspent) with ⟨m, hm, hkey⟩ |
    ⟨d, msg', result, hd, hkey⟩
  · have hapart := Unique.refuses_eq_false.mp hfree m hm
    exact (Unique.clash_eq_false.mp hapart).2 hkey.symm
  · have hmem : (d, msg') ∈ s.inserted := h.held d msg' (by rw [hd]; rfl)
    have hapart := waits_eq_false.mp hwaits _ hmem
    exact (Unique.clash_eq_false.mp hapart).2 hkey.symm

/-- **The insert of a message that is sent.** -/
theorem Inv.queue (h : Inv s) (hnow : (s.calls c).answer = none) (hwaits : s.waits msg = false)
    (hfree : s.db.messages.refuses msg = false) :
    Inv (State.moveTo { s with inserted := s.inserted ++ [(c, msg)] } c (.queued msg)) where
  held d msg' hd := by
    by_cases hc : d = c
    · rw [hc] at hd ⊢
      rw [moveTo_self] at hd
      obtain rfl := Option.some.inj hd
      exact List.mem_append_right _ (List.mem_singleton_self _)
    · rw [moveTo_of_ne hc] at hd
      exact List.mem_append_left _ (h.held d msg' hd)
  apart p hp q hq hclash := by
    have hnew := waits_eq_false.mp hwaits
    rcases List.mem_append.mp hp with hold | hp <;> rcases List.mem_append.mp hq with hold' | hq
    · exact h.apart p hold q hold' hclash
    · obtain rfl := List.mem_singleton.mp hq
      rw [clash_comm, hnew p hold] at hclash
      cases hclash
    · obtain rfl := List.mem_singleton.mp hp
      rw [hnew q hold'] at hclash
      cases hclash
    · rw [List.mem_singleton.mp hp, List.mem_singleton.mp hq]
  free p hp := by
    rcases List.mem_append.mp hp with hold | hnew
    · exact h.free p hold
    · rw [List.mem_singleton.mp hnew]
      exact hfree
  spent key hkey := by
    rcases h.spent key hkey with hrow | ⟨d, msg', result, hd, hmsg⟩
    · exact .inl hrow
    · have hc : d ≠ c := by
        rintro rfl
        rw [hd] at hnow
        cases hnow
      exact .inr ⟨d, msg', result, (moveTo_of_ne hc).trans hd, hmsg⟩
  answered d msg' result hd := by
    by_cases hc : d = c
    · rw [hc, moveTo_self] at hd
      cases hd
    · rw [moveTo_of_ne hc] at hd
      exact h.answered d msg' result hd
  about := h.about
  read d := by
    by_cases hc : d = c
    · rw [hc, moveTo_self]
      trivial
    · rw [moveTo_of_ne hc]
      exact h.read d
  unsent := h.unsent
  confirming d item msg' result hd := by
    by_cases hc : d = c
    · rw [hc, moveTo_self] at hd
      cases hd
    · rw [moveTo_of_ne hc] at hd
      exact h.confirming d item msg' result hd
  outstanding p hp := by
    obtain ⟨⟨item, msg', result, hcall, hid⟩, hpending⟩ := h.outstanding p hp
    have hc := h.ne_of_handing (ne_confirming_of_answer hnow) hp
    exact ⟨⟨item, msg', result, (moveTo_of_ne hc).trans hcall, hid⟩, hpending⟩
  sole := h.sole
  safe := ⟨h.safe.once, h.safe.sent, h.safe.approved, h.safe.rejected⟩

/-- An item that was there is about a message that was there. -/
theorem Inv.old_message (h : Inv s) {msg' : SmsMessage} (hfree : s.db.messages.refuses msg' = false)
    {i : SmsInboxItem} (hi : i ∈ s.db.inbox.rows) {m : SmsMessage}
    (hm : m ∈ (s.db.messages.insert msg').rows) (hid : m.id = i.smsMessageId) :
    m ∈ s.db.messages.rows := by
  rcases (Unique.mem_insert hfree).mp hm with hold | rfl
  · exact hold
  · obtain ⟨r, hr, hrid⟩ := h.about i hi
    have hapart := Unique.refuses_eq_false.mp hfree r hr
    exact absurd (hid.trans hrid.symm) (Unique.clash_eq_false.mp hapart).1

/-- **A message is staged with its item.** -/
theorem Inv.stage (h : Inv s) {staged : Staged} (hwaits : s.waits staged.msg = false)
    (hfree : s.db.messages.refuses staged.msg = false)
    (hitem : s.db.inbox.refuses staged.item = false) :
    Inv { s with db := s.db.stage staged } := by
  have hgrows : s.db.Grows (s.db.stage staged) :=
    ⟨fun m hm => ⟨m, (Unique.mem_insert hfree).mpr (.inl hm), rfl, rfl⟩,
      fun i hi => ⟨i, (Unique.mem_insert hitem).mpr (.inl hi), rfl, rfl⟩⟩
  have hnew : staged.msg ∈ (s.db.messages.insert staged.msg).rows :=
    (Unique.mem_insert hfree).mpr (.inr rfl)
  constructor
  · exact h.held
  · exact h.apart
  · intro p hp
    refine Unique.refuses_eq_false.mpr fun r hr => ?_
    rcases (Unique.mem_insert hfree).mp hr with hold | rfl
    · exact Unique.refuses_eq_false.mp (h.free p hp) r hold
    · rw [clash_comm]
      exact waits_eq_false.mp hwaits p hp
  · intro key hkey
    rcases h.spent key hkey with ⟨m, hm, hmkey⟩ | hcall
    · exact .inl ⟨m, (Unique.mem_insert hfree).mpr (.inl hm), hmkey⟩
    · exact .inr hcall
  · exact h.answered
  · intro i hi
    rcases (Unique.mem_insert hitem).mp hi with hold | rfl
    · obtain ⟨m, hm, hid⟩ := h.about i hold
      exact ⟨m, (Unique.mem_insert hfree).mpr (.inl hm), hid⟩
    · exact ⟨staged.msg, hnew, staged.about.symm⟩
  · exact fun c => (h.read c).grows hgrows
  · intro i hi hpending hnone m hm hid
    rcases (Unique.mem_insert hitem).mp hi with hold | rfl
    · exact h.unsent i hold hpending hnone m (h.old_message hfree hold hm hid) hid
    · -- The message of the new item is the new one.
      obtain rfl := Unique.eq_of_key₁ hm hnew (hid.trans staged.about)
      exact h.fresh hwaits hfree
  · exact h.confirming
  · intro p hp
    refine ⟨(h.outstanding p hp).1, fun i hi hid => ?_⟩
    rcases (Unique.mem_insert hitem).mp hi with hold | rfl
    · exact (h.outstanding p hp).2 i hold hid
    · exact staged.pending
  · exact h.sole
  · refine ⟨h.safe.once, fun m hm hsent => ?_, fun i hi happroved m hm hid => ?_,
      fun i hi hrejected m hm hid => ?_⟩
    · rcases (Unique.mem_insert hfree).mp hm with hold | rfl
      · exact h.safe.sent m hold hsent
      · rw [staged.unsent] at hsent
        cases hsent
    · rcases (Unique.mem_insert hitem).mp hi with hold | rfl
      · exact h.safe.approved i hold happroved m (h.old_message hfree hold hm hid) hid
      · rw [staged.pending] at happroved
        cases happroved
    · rcases (Unique.mem_insert hitem).mp hi with hold | rfl
      · exact h.safe.rejected i hold hrejected m (h.old_message hfree hold hm hid) hid
      · rw [staged.pending] at hrejected
        cases hrejected

theorem Inv.key_ne_of_held (h : Inv s) (hheld : (c, msg) ∈ s.inserted) {m : SmsMessage}
    (hm : m ∈ s.db.messages.rows) : msg.key ≠ m.key := by
  have hfree := Unique.refuses_eq_false.mp (h.free _ hheld) m hm
  exact (Unique.clash_eq_false.mp hfree).2

/-- A call of the provider leaves the other keys with what they are spent on. -/
theorem Inv.spent_noteHandOff (h : Inv s) (hnot : ∀ msg result, s.calls c ≠ .handed msg result)
    {s₁ : State} (hcalls : ∀ d, d ≠ c → s₁.calls d = s.calls d) {key : String × String × String}
    (hne : msg.key ≠ key) (hkey : 0 < (s.noteHandOff msg result).handOffs key) :
    (∃ m ∈ s.db.messages.rows, m.key = key) ∨
      ∃ d msg' result', s₁.calls d = .handed msg' result' ∧ msg'.key = key := by
  rw [handOffs_noteHandOff_of_ne hne] at hkey
  rcases h.spent key hkey with hrow | ⟨d, msg', result', hd, hmsg⟩
  · exact .inl hrow
  · have hc : d ≠ c := by
      rintro rfl
      exact hnot msg' result' hd
    exact .inr ⟨d, msg', result', (hcalls d hc).trans hd, hmsg⟩

/-- The call that is noted has the answer that is noted, and the other calls have theirs. -/
theorem Inv.answered_noteHandOff (h : Inv s) {s₁ : State}
    (hcall : (s₁.calls c).answer = some (msg, result))
    (hcalls : ∀ d, d ≠ c → s₁.calls d = s.calls d) {d : ℕ} {msg' : SmsMessage}
    {result' : TwilioSendResult} (hd : (s₁.calls d).answer = some (msg', result'))
    (haccepted : result'.accepted = true) : (s.noteHandOff msg result).Accepted msg'.key := by
  by_cases hc : d = c
  · rw [hc, hcall] at hd
    obtain ⟨rfl, rfl⟩ := Prod.mk.inj (Option.some.inj hd)
    exact accepted_noteHandOff haccepted
  · rw [hcalls d hc] at hd
    exact (h.answered d msg' result' hd haccepted).note

/-- **A compose hands its message over.** -/
theorem Inv.hand (h : Inv s) (hcall : s.calls c = .queued msg) :
    Inv ((s.noteHandOff msg result).moveTo c (.handed msg result)) := by
  have hheld : (c, msg) ∈ s.inserted := h.held c msg (by rw [hcall]; rfl)
  have hother : ∀ m ∈ s.db.messages.rows,
      (s.noteHandOff msg result).handOffs m.key = s.handOffs m.key := by
    intro m hm
    exact handOffs_noteHandOff_of_ne (h.key_ne_of_held hheld hm)
  constructor
  · intro d msg' hd
    by_cases hc : d = c
    · rw [hc, moveTo_self] at hd
      obtain rfl := Option.some.inj hd
      exact hc ▸ hheld
    · rw [moveTo_of_ne hc] at hd
      exact h.held d msg' hd
  · exact h.apart
  · exact h.free
  · intro key hkey
    by_cases heq : msg.key = key
    · exact .inr ⟨c, msg, result, moveTo_self, heq⟩
    · refine h.spent_noteHandOff (c := c) (fun msg' result' hd => ?_) (fun d => moveTo_of_ne) heq
        hkey
      rw [hcall] at hd
      cases hd
  · intro d msg' result' hd haccepted
    refine h.answered_noteHandOff (c := c) ?_ (fun d => moveTo_of_ne) hd haccepted
    rw [moveTo_self]
    rfl
  · exact h.about
  · intro d
    by_cases hc : d = c
    · rw [hc, moveTo_self]
      trivial
    · rw [moveTo_of_ne hc]
      exact h.read d
  · intro i hi hpending hnone m hm hid
    exact (hother m hm).trans (h.unsent i hi hpending hnone m hm hid)
  · intro d item msg' result' hd
    by_cases hc : d = c
    · rw [hc, moveTo_self] at hd
      cases hd
    · rw [moveTo_of_ne hc] at hd
      exact h.confirming d item msg' result' hd
  · intro p hp
    obtain ⟨⟨item, msg', result', hd, hid⟩, hpending⟩ := h.outstanding p hp
    have hc : p.1 ≠ c := by
      rintro rfl
      rw [hcall] at hd
      cases hd
    exact ⟨⟨item, msg', result', (moveTo_of_ne hc).trans hd, hid⟩, hpending⟩
  · exact h.sole
  · exact ⟨once_noteHandOff (h.unhanded hcall) h.safe.once,
      fun m hm hsent => (h.safe.sent m hm hsent).note,
      fun i hi happroved m hm hid => (h.safe.approved i hi happroved m hm hid).note,
      fun i hi hrejected m hm hid =>
        (hother m hm).trans (h.safe.rejected i hi hrejected m hm hid)⟩

theorem ne_of_mem_inserted_ended {p : ℕ × SmsMessage} (h : p ∈ (s.moveTo c .ended).inserted) :
    p.1 ≠ c :=
  of_decide_eq_true (List.mem_filter.mp h).2

theorem ne_of_mem_handing_ended {p : ℕ × String} (h : p ∈ (s.moveTo c .ended).handing) :
    p.1 ≠ c :=
  of_decide_eq_true (List.mem_filter.mp h).2

theorem of_moveTo_ended {d : ℕ} {P : Call → Prop} (h : P ((s.moveTo c .ended).calls d))
    (hended : ¬ P .ended) : d ≠ c ∧ P (s.calls d) := by
  by_cases hc : d = c
  · rw [hc, moveTo_self] at h
    exact absurd h hended
  · rw [moveTo_of_ne hc] at h
    exact ⟨hc, h⟩

/-- **A compose commits what the provider answered.** -/
theorem Inv.record (h : Inv s) (hcall : s.calls c = .handed msg result) :
    Inv (State.moveTo { s with db := s.db.record msg result } c .ended) := by
  have hheld : (c, msg) ∈ s.inserted := h.held c msg (by rw [hcall]; rfl)
  have hfree : s.db.messages.refuses (recordSend result msg) = false := h.free _ hheld
  have hnew : recordSend result msg ∈ (s.db.record msg result).messages.rows :=
    (Unique.mem_insert hfree).mpr (.inr rfl)
  have hgrows : s.db.Grows (s.db.record msg result) :=
    ⟨fun m hm => ⟨m, (Unique.mem_insert hfree).mpr (.inl hm), rfl, rfl⟩,
      fun i hi => ⟨i, hi, rfl, rfl⟩⟩
  have hnot : ∀ item msg' result', s.calls c ≠ .confirming item msg' result' := by
    intro item msg' result' hconfirming
    rw [hcall] at hconfirming
    cases hconfirming
  constructor
  · intro d msg' hd
    obtain ⟨hc, hd⟩ := of_moveTo_ended (P := fun call => call.inserted = some msg') hd nofun
    exact mem_inserted_moveTo (h.held d msg' hd) hc
  · exact fun p hp q hq => h.apart p (mem_inserted_of_moveTo hp) q (mem_inserted_of_moveTo hq)
  · intro p hp
    have hmem := mem_inserted_of_moveTo hp
    refine Unique.refuses_eq_false.mpr fun r hr => ?_
    rcases (Unique.mem_insert hfree).mp hr with hold | rfl
    · exact Unique.refuses_eq_false.mp (h.free p hmem) r hold
    · -- Two transactions have not inserted messages that clash.
      by_contra hclash
      refine ne_of_mem_inserted_ended hp (h.apart p hmem _ hheld ?_)
      exact Bool.not_eq_false _ ▸ hclash
  · intro key hkey
    rcases h.spent key hkey with ⟨m, hm, hmkey⟩ | ⟨d, msg', result', hd, hmsg⟩
    · exact .inl ⟨m, (Unique.mem_insert hfree).mpr (.inl hm), hmkey⟩
    · by_cases hc : d = c
      · rw [hc, hcall] at hd
        cases hd
        exact .inl ⟨_, hnew, hmsg⟩
      · exact .inr ⟨d, msg', result', (moveTo_of_ne hc).trans hd, hmsg⟩
  · intro d msg' result' hd
    obtain ⟨-, hd⟩ := of_moveTo_ended (P := fun call => call.answer = some (msg', result')) hd nofun
    exact h.answered d msg' result' hd
  · intro i hi
    obtain ⟨m, hm, hid⟩ := h.about i hi
    exact ⟨m, (Unique.mem_insert hfree).mpr (.inl hm), hid⟩
  · intro d
    by_cases hc : d = c
    · rw [hc, moveTo_self]
      trivial
    · rw [moveTo_of_ne hc]
      exact (h.read d).grows hgrows
  · intro i hi hpending hnone m hm hid
    refine h.unsent i hi hpending (fun p hp => hnone p ?_) m (h.old_message hfree hi hm hid) hid
    exact mem_handing_moveTo hp (h.ne_of_handing hnot hp)
  · intro d item msg' result' hd
    obtain ⟨hc, hd⟩ := of_moveTo_ended (P := fun call => call = .confirming item msg' result') hd
      nofun
    exact mem_handing_moveTo (h.confirming d item msg' result' hd) hc
  · intro p hp
    obtain ⟨⟨item, msg', result', hd, hid⟩, hpending⟩ :=
      h.outstanding p (mem_handing_of_moveTo hp)
    exact ⟨⟨item, msg', result', (moveTo_of_ne (ne_of_mem_handing_ended hp)).trans hd, hid⟩,
      hpending⟩
  · exact fun p hp q hq => h.sole p (mem_handing_of_moveTo hp) q (mem_handing_of_moveTo hq)
  · refine ⟨h.safe.once, fun m hm hsent => ?_,
      fun i hi happroved m hm hid =>
        h.safe.approved i hi happroved m (h.old_message hfree hi hm hid) hid,
      fun i hi hrejected m hm hid =>
        h.safe.rejected i hi hrejected m (h.old_message hfree hi hm hid) hid⟩
    rcases (Unique.mem_insert hfree).mp hm with hold | rfl
    · exact h.safe.sent m hold hsent
    · have haccepted : result.accepted = true := by
        by_contra hrefused
        simp [recordSend, hrefused] at hsent
      exact h.answered c msg result (by rw [hcall]; rfl) haccepted

/-! ### Reviewing -/

theorem item_of_key (hread : (Call.approving item msg).Read s.db) {i : SmsInboxItem}
    (hi : i ∈ s.db.inbox.rows) {m : SmsMessage} (hm : m ∈ s.db.messages.rows)
    (hid : m.id = i.smsMessageId) (hkey : m.key = msg.key) : i.id = item.id := by
  obtain ⟨⟨i', hi', hid', habout⟩, m', hm', hmid, hmkey⟩ := hread
  obtain rfl := Unique.eq_of_key₂ hm hm' (hkey.trans hmkey.symm)
  obtain rfl := Unique.eq_of_key₂ hi hi' ((hid.symm.trans hmid).trans habout.symm)
  exact hid'

/-- The key of the message of the item that a review has read. -/
theorem key_of_item (hread : (Call.approving item msg).Read s.db) {i : SmsInboxItem}
    (hi : i ∈ s.db.inbox.rows) (hiid : i.id = item.id) {m : SmsMessage}
    (hm : m ∈ s.db.messages.rows) (hid : m.id = i.smsMessageId) :
    m.id = msg.id ∧ m.key = msg.key := by
  obtain ⟨⟨i', hi', hid', habout⟩, m', hm', hmid, hmkey⟩ := hread
  obtain rfl := Unique.eq_of_key₁ hi hi' (hiid.trans hid'.symm)
  have hmsg : m.id = msg.id := hid.trans habout
  obtain rfl := Unique.eq_of_key₁ hm hm' (hmsg.trans hmid.symm)
  exact ⟨hmsg, hmkey⟩

/-- **An approval hands its message over**, when the item is still pending. -/
theorem Inv.approve (h : Inv s) (hcall : s.calls c = .approving item msg)
    (hpending : s.StillPending item.id) :
    Inv (State.moveTo { s.noteHandOff msg result with handing := s.handing ++ [(c, item.id)] } c
      (.confirming item msg result)) := by
  have hread : (Call.approving item msg).Read s.db := hcall ▸ h.read c
  have hnot : ∀ {d item' msg' result'}, s.calls d = .confirming item' msg' result' → d ≠ c := by
    rintro d item' msg' result' hd rfl
    rw [hcall] at hd
    cases hd
  constructor
  · intro d msg' hd
    by_cases hc : d = c
    · rw [hc, moveTo_self] at hd
      cases hd
    · rw [moveTo_of_ne hc] at hd
      exact h.held d msg' hd
  · exact h.apart
  · exact h.free
  · intro key hkey
    by_cases heq : msg.key = key
    · obtain ⟨-, m, hm, -, hmkey⟩ := hread
      exact .inl ⟨m, hm, hmkey.trans heq⟩
    · refine h.spent_noteHandOff (c := c) (fun msg' result' hd => ?_) (fun d => moveTo_of_ne) heq
        hkey
      rw [hcall] at hd
      cases hd
  · intro d msg' result' hd haccepted
    refine h.answered_noteHandOff (c := c) ?_ (fun d => moveTo_of_ne) hd haccepted
    rw [moveTo_self]
    rfl
  · exact h.about
  · intro d
    by_cases hc : d = c
    · rw [hc, moveTo_self]
      exact hread
    · rw [moveTo_of_ne hc]
      exact h.read d
  · intro i hi hstate hnone m hm hid
    -- The item is another one, since an approval of this one has called the provider.
    have hne : msg.key ≠ m.key := by
      intro hkey
      have hitem := item_of_key hread hi hm hid hkey.symm
      exact hnone (c, item.id) (List.mem_append_right _ (List.mem_singleton_self _)) hitem.symm
    refine (handOffs_noteHandOff_of_ne hne).trans
      (h.unsent i hi hstate (fun p hp => ?_) m hm hid)
    exact hnone p (List.mem_append_left _ hp)
  · intro d item' msg' result' hd
    by_cases hc : d = c
    · rw [hc, moveTo_self] at hd
      cases hd
      exact List.mem_append_right _ (hc ▸ List.mem_singleton_self _)
    · rw [moveTo_of_ne hc] at hd
      exact List.mem_append_left _ (h.confirming d item' msg' result' hd)
  · intro p hp
    rcases List.mem_append.mp hp with hold | hnew
    · obtain ⟨⟨item', msg', result', hd, hid⟩, hstate⟩ := h.outstanding p hold
      exact ⟨⟨item', msg', result', (moveTo_of_ne (hnot hd)).trans hd, hid⟩, hstate⟩
    · obtain rfl := List.mem_singleton.mp hnew
      exact ⟨⟨item, msg, result, moveTo_self, rfl⟩, hpending.1⟩
  · intro p hp q hq heq
    rcases List.mem_append.mp hp with hold | hp <;> rcases List.mem_append.mp hq with hold' | hq
    · exact h.sole p hold q hold' heq
    · rw [List.mem_singleton.mp hq] at heq
      exact absurd heq (hpending.2 p hold)
    · rw [List.mem_singleton.mp hp] at heq
      exact absurd heq.symm (hpending.2 q hold')
    · rw [List.mem_singleton.mp hp, List.mem_singleton.mp hq]
  · refine ⟨once_noteHandOff (h.unreviewed hread hpending) h.safe.once,
      fun m hm hsent => (h.safe.sent m hm hsent).note,
      fun i hi happroved m hm hid => (h.safe.approved i hi happroved m hm hid).note,
      fun i hi hrejected m hm hid => ?_⟩
    -- An item that is rejected is not the one that is still pending.
    have hne : msg.key ≠ m.key := by
      intro hkey
      have hstate := hpending.1 i hi (item_of_key hread hi hm hid hkey.symm)
      rw [hrejected] at hstate
      cases hstate
    exact (handOffs_noteHandOff_of_ne hne).trans (h.safe.rejected i hi hrejected m hm hid)

/-- **An approval commits**, when the provider has accepted its message. -/
theorem Inv.confirm (h : Inv s) (hcall : s.calls c = .confirming item msg result)
    (haccepted : result.accepted = true) :
    Inv (State.moveTo { s with db := s.db.confirm item msg result } c .ended) := by
  have hread : (Call.approving item msg).Read s.db := by
    have hread := h.read c
    rw [hcall] at hread
    exact hread
  have hhanding : (c, item.id) ∈ s.handing := h.confirming c item msg result hcall
  have hacc : s.Accepted msg.key := h.answered c msg result (by rw [hcall]; rfl) haccepted
  have hgrows : s.db.Grows (s.db.confirm item msg result) := s.db.grows_confirm item msg result
  constructor
  · intro d msg' hd
    obtain ⟨hc, hd⟩ := of_moveTo_ended (P := fun call => call.inserted = some msg') hd nofun
    exact mem_inserted_moveTo (h.held d msg' hd) hc
  · exact fun p hp q hq => h.apart p (mem_inserted_of_moveTo hp) q (mem_inserted_of_moveTo hq)
  · intro p hp
    refine refuses_of_forall_exists (fun m' hm' => ?_) (h.free p (mem_inserted_of_moveTo hp))
    obtain ⟨m, hm, hid, hkey, -⟩ := of_mem_confirm hm'
    exact ⟨m, hm, hid, hkey⟩
  · intro key hkey
    rcases h.spent key hkey with ⟨m, hm, hmkey⟩ | ⟨d, msg', result', hd, hmsg⟩
    · obtain ⟨m', hm', -, hkey'⟩ := hgrows.messages m hm
      exact .inl ⟨m', hm', hkey'.trans hmkey⟩
    · have hc : d ≠ c := by
        rintro rfl
        rw [hcall] at hd
        cases hd
      exact .inr ⟨d, msg', result', (moveTo_of_ne hc).trans hd, hmsg⟩
  · intro d msg' result' hd
    obtain ⟨-, hd⟩ := of_moveTo_ended (P := fun call => call.answer = some (msg', result')) hd nofun
    exact h.answered d msg' result' hd
  · intro i' hi'
    obtain ⟨i, hi, -, habout, -⟩ := of_mem_setState hi'
    obtain ⟨m, hm, hid⟩ := h.about i hi
    obtain ⟨m', hm', hid', -⟩ := hgrows.messages m hm
    exact ⟨m', hm', (hid'.trans hid).trans habout.symm⟩
  · intro d
    by_cases hc : d = c
    · rw [hc, moveTo_self]
      trivial
    · rw [moveTo_of_ne hc]
      exact (h.read d).grows hgrows
  · intro i' hi' hstate hnone m' hm' hid'
    obtain ⟨i, hi, -, -, ⟨-, happroved⟩ | ⟨hne, rfl⟩⟩ := of_mem_setState hi'
    · rw [happroved] at hstate
      cases hstate
    · obtain ⟨m, hm, hid, hkey, -⟩ := of_mem_confirm hm'
      rw [hkey]
      refine h.unsent i' hi hstate (fun p hp heq => ?_) m hm (hid.symm.trans hid')
      -- The approval that ends was of another item.
      have hc : p.1 ≠ c := by
        intro hpc
        obtain ⟨⟨item', msg', result', hd, hitem⟩, -⟩ := h.outstanding p hp
        rw [hpc, hcall] at hd
        cases hd
        exact hne (heq.symm.trans hitem.symm)
      exact hnone p (mem_handing_moveTo hp hc) heq
  · intro d item' msg' result' hd
    obtain ⟨hc, hd⟩ := of_moveTo_ended (P := fun call => call = .confirming item' msg' result') hd
      nofun
    exact mem_handing_moveTo (h.confirming d item' msg' result' hd) hc
  · intro p hp
    have hmem := mem_handing_of_moveTo hp
    have hc := ne_of_mem_handing_ended hp
    obtain ⟨⟨item', msg', result', hd, hid⟩, hstate⟩ := h.outstanding p hmem
    refine ⟨⟨item', msg', result', (moveTo_of_ne hc).trans hd, hid⟩, fun i' hi' hid' => ?_⟩
    obtain ⟨i, hi, hsame, -, ⟨hitem, -⟩ | ⟨-, rfl⟩⟩ := of_mem_setState hi'
    · exact absurd (h.sole p hmem _ hhanding (hid'.symm.trans (hsame.trans hitem))) hc
    · exact hstate i' hi hid'
  · exact fun p hp q hq => h.sole p (mem_handing_of_moveTo hp) q (mem_handing_of_moveTo hq)
  · refine ⟨h.safe.once, fun m' hm' hsent => ?_, fun i' hi' happroved m' hm' hid' => ?_,
      fun i' hi' hrejected m' hm' hid' => ?_⟩
    · obtain ⟨m, hm, -, hkey, rfl | ⟨hid, -⟩⟩ := of_mem_confirm hm'
      · exact h.safe.sent m' hm hsent
      · obtain ⟨-, r, hr, hrid, hrkey⟩ := hread
        obtain rfl := Unique.eq_of_key₁ hm hr (hid.trans hrid.symm)
        rw [hkey, hrkey]
        exact hacc
    · obtain ⟨m, hm, hid, hkey, -⟩ := of_mem_confirm hm'
      obtain ⟨i, hi, -, habout, ⟨hitem, -⟩ | ⟨-, rfl⟩⟩ := of_mem_setState hi'
      · have hmsg := key_of_item hread hi hitem hm (hid.symm.trans (hid'.trans habout))
        rw [hkey, hmsg.2]
        exact hacc
      · rw [hkey]
        exact h.safe.approved i' hi happroved m hm (hid.symm.trans hid')
    · obtain ⟨m, hm, hid, hkey, -⟩ := of_mem_confirm hm'
      obtain ⟨i, hi, -, -, ⟨-, hstate⟩ | ⟨-, rfl⟩⟩ := of_mem_setState hi'
      · rw [hrejected] at hstate
        cases hstate
      · rw [hkey]
        exact h.safe.rejected i' hi hrejected m hm (hid.symm.trans hid')

/-- **A rejection commits**, over an item that is still pending. -/
theorem Inv.reject (h : Inv s) (hcall : s.calls c = .rejecting item msg)
    (hpending : s.StillPending item.id) : Inv { s with db := s.db.reject item msg } := by
  have hread : (Call.approving item msg).Read s.db := by
    have hread := h.read c
    rw [hcall] at hread
    exact hread
  have hgrows : s.db.Grows (s.db.reject item msg) := s.db.grows_reject item msg
  constructor
  · exact h.held
  · exact h.apart
  · intro p hp
    refine refuses_of_forall_exists (fun m' hm' => ?_) (h.free p hp)
    obtain ⟨m, hm, hid, hkey, -⟩ := of_mem_reject hm'
    exact ⟨m, hm, hid, hkey⟩
  · intro key hkey
    rcases h.spent key hkey with ⟨m, hm, hmkey⟩ | hd
    · obtain ⟨m', hm', -, hkey'⟩ := hgrows.messages m hm
      exact .inl ⟨m', hm', hkey'.trans hmkey⟩
    · exact .inr hd
  · exact h.answered
  · intro i' hi'
    obtain ⟨i, hi, -, habout, -⟩ := of_mem_setState hi'
    obtain ⟨m, hm, hid⟩ := h.about i hi
    obtain ⟨m', hm', hid', -⟩ := hgrows.messages m hm
    exact ⟨m', hm', (hid'.trans hid).trans habout.symm⟩
  · exact fun d => (h.read d).grows hgrows
  · intro i' hi' hstate hnone m' hm' hid'
    obtain ⟨i, hi, -, -, ⟨-, hrejected⟩ | ⟨-, rfl⟩⟩ := of_mem_setState hi'
    · rw [hrejected] at hstate
      cases hstate
    · obtain ⟨m, hm, hid, hkey, -⟩ := of_mem_reject hm'
      rw [hkey]
      exact h.unsent i' hi hstate hnone m hm (hid.symm.trans hid')
  · exact h.confirming
  · intro p hp
    refine ⟨(h.outstanding p hp).1, fun i' hi' hid' => ?_⟩
    obtain ⟨i, hi, hsame, -, ⟨hitem, -⟩ | ⟨-, rfl⟩⟩ := of_mem_setState hi'
    · exact absurd (hid'.symm.trans (hsame.trans hitem)) (hpending.2 p hp)
    · exact (h.outstanding p hp).2 i' hi hid'
  · exact h.sole
  · refine ⟨h.safe.once, fun m' hm' hsent => ?_, fun i' hi' happroved m' hm' hid' => ?_,
      fun i' hi' hrejected m' hm' hid' => ?_⟩
    · obtain ⟨m, hm, -, hkey, rfl | ⟨-, rfl⟩⟩ := of_mem_reject hm'
      · exact h.safe.sent m' hm hsent
      · cases hsent
    · obtain ⟨m, hm, hid, hkey, -⟩ := of_mem_reject hm'
      obtain ⟨i, hi, -, -, ⟨-, hstate⟩ | ⟨-, rfl⟩⟩ := of_mem_setState hi'
      · rw [happroved] at hstate
        cases hstate
      · rw [hkey]
        exact h.safe.approved i' hi happroved m hm (hid.symm.trans hid')
    · obtain ⟨m, hm, hid, hkey, -⟩ := of_mem_reject hm'
      rw [hkey]
      obtain ⟨i, hi, -, habout, ⟨hitem, -⟩ | ⟨-, rfl⟩⟩ := of_mem_setState hi'
      · have hmsg := key_of_item hread hi hitem hm (hid.symm.trans (hid'.trans habout))
        rw [hmsg.2]
        exact h.unreviewed hread hpending
      · exact h.safe.rejected i' hi hrejected m hm (hid.symm.trans hid')

/-! ### Runs -/

theorem Inv.initial (hmessages : s.db.messages.rows = []) (hinbox : s.db.inbox.rows = [])
    (hidle : ∀ c, s.calls c = .idle) (hinserted : s.inserted = []) (hhanding : s.handing = [])
    (hlog : s.log = []) : Inv s := by
  have hnone : ∀ key, s.handOffs key = 0 := fun key => by
    unfold State.handOffs
    rw [hlog]
    rfl
  constructor
  · intro c msg hc
    rw [hidle c] at hc
    cases hc
  · intro p hp
    rw [hinserted] at hp
    cases hp
  · intro p hp
    rw [hinserted] at hp
    cases hp
  · intro key hkey
    rw [hnone key] at hkey
    cases hkey
  · intro c msg result hc
    rw [hidle c] at hc
    cases hc
  · intro i hi
    rw [hinbox] at hi
    cases hi
  · intro c
    rw [hidle c]
    trivial
  · exact fun _ _ _ _ m _ _ => hnone m.key
  · intro c item msg result hc
    rw [hidle c] at hc
    cases hc
  · intro p hp
    rw [hhanding] at hp
    cases hp
  · intro p hp
    rw [hhanding] at hp
    cases hp
  · refine ⟨fun key => (hnone key).trans_le (Nat.zero_le 1), fun m hm => ?_, fun i hi => ?_,
      fun i hi => ?_⟩
    · rw [hmessages] at hm
      cases hm
    · rw [hinbox] at hi
      cases hi
    · rw [hinbox] at hi
      cases hi

/-- **A review that goes on has read rows that are there.** -/
theorem reviewing_cases (db : Db) (workspaceId itemId : String)
    (next : SmsInboxItem → SmsMessage → Call) :
    reviewing db workspaceId itemId next = .ended ∨
      ∃ item msg, reviewing db workspaceId itemId next = next item msg ∧
        (Call.approving item msg).Read db := by
  unfold reviewing
  split
  · next item msg hfind =>
    split
    · refine .inr ⟨item, msg, rfl, ?_⟩
      obtain ⟨i, hitem, hmsg⟩ := Option.bind_eq_some_iff.mp hfind
      obtain ⟨m, hm, hpair⟩ := Option.map_eq_some_iff.mp hmsg
      obtain ⟨rfl, rfl⟩ := Prod.mk.inj hpair
      have hid : m.id = i.smsMessageId := by simpa using List.find?_some hm
      exact ⟨⟨i, List.mem_of_find?_eq_some hitem, rfl, hid.symm⟩,
        m, List.mem_of_find?_eq_some hm, rfl, rfl⟩
    · exact .inl rfl
  · exact .inl rfl

/-- **A call's own statement keeps the invariant.** -/
theorem Inv.next (h : Inv s) (hcareful : Careful s (.next c))
    (hnext : s.next c (s.calls c) = some s') : Inv s' := by
  cases hcall : s.calls c with
  | idle | ended | queued | approving =>
    rw [hcall] at hnext
    cases hnext
  | queuing msg =>
    have hnow : (s.calls c).answer = none := by rw [hcall]; rfl
    rw [hcall] at hnext
    simp only [State.next] at hnext
    split at hnext
    · cases hnext
    · next hwaits =>
      split at hnext
      · obtain rfl := Option.some.inj hnext
        exact h.quiet hnow rfl rfl trivial
      · next hfree =>
        obtain rfl := Option.some.inj hnext
        exact h.queue hnow (Bool.not_eq_true _ ▸ hwaits) (Bool.not_eq_true _ ▸ hfree)
  | staging staged =>
    have hnow : (s.calls c).answer = none := by rw [hcall]; rfl
    rw [hcall] at hnext
    simp only [State.next] at hnext
    split at hnext
    · cases hnext
    · next hwaits =>
      split at hnext
      · obtain rfl := Option.some.inj hnext
        exact h.quiet hnow rfl rfl trivial
      · next hfree =>
        obtain rfl := Option.some.inj hnext
        obtain ⟨hmessage, hitem⟩ := Bool.or_eq_false_iff.mp (Bool.not_eq_true _ ▸ hfree)
        exact (h.stage (Bool.not_eq_true _ ▸ hwaits) hmessage hitem).quiet hnow rfl rfl trivial
  | handed msg result =>
    rw [hcall] at hnext
    obtain rfl := Option.some.inj hnext
    exact h.record hcall
  | confirming item msg result =>
    simp only [Careful, hcall] at hcareful
    rw [hcall] at hnext
    obtain rfl := Option.some.inj hnext
    exact h.confirm hcall hcareful
  | rejecting item msg =>
    have hnow : (s.calls c).answer = none := by rw [hcall]; rfl
    simp only [Careful, hcall] at hcareful
    rw [hcall] at hnext
    obtain rfl := Option.some.inj hnext
    exact (h.reject hcall hcareful).quiet hnow rfl rfl trivial

/-- **So does its call of the provider.** -/
theorem Inv.handOver (h : Inv s) (hcareful : Careful s (.handOver c result))
    (hhand : s.handOver c result (s.calls c) = some s') : Inv s' := by
  cases hcall : s.calls c with
  | queued msg =>
    rw [hcall] at hhand
    obtain rfl := Option.some.inj hhand
    exact h.hand hcall
  | approving item msg =>
    simp only [Careful, hcall] at hcareful
    rw [hcall] at hhand
    obtain rfl := Option.some.inj hhand
    exact h.approve hcall hcareful
  | _ =>
    rw [hcall] at hhand
    cases hhand

variable [CaseMapping] {sources : List String} {l : Label}

/-- **A step keeps the invariant.** -/
theorem Inv.step (h : Inv s) (hcareful : Careful s l)
    (hstep : (system sources).step s l = some s') : Inv s' := by
  change Sms.step sources s l = some s' at hstep
  cases l with
  | compose c r ids =>
    simp only [Sms.step] at hstep
    split at hstep
    · next hidle =>
      obtain rfl := Option.some.inj hstep
      have hnow : (s.calls c).answer = none := by rw [hidle]; rfl
      unfold planned
      split <;> exact h.quiet hnow rfl rfl trivial
    · cases hstep
  | approve c workspaceId itemId =>
    simp only [Sms.step] at hstep
    split at hstep
    · next hidle =>
      obtain rfl := Option.some.inj hstep
      have hnow : (s.calls c).answer = none := by rw [hidle]; rfl
      rcases reviewing_cases s.db workspaceId itemId .approving with hended | ⟨item, msg, heq, hread⟩
      · rw [hended]
        exact h.quiet hnow rfl rfl trivial
      · rw [heq]
        exact h.quiet hnow rfl rfl hread
    · cases hstep
  | reject c workspaceId itemId =>
    simp only [Sms.step] at hstep
    split at hstep
    · next hidle =>
      obtain rfl := Option.some.inj hstep
      have hnow : (s.calls c).answer = none := by rw [hidle]; rfl
      rcases reviewing_cases s.db workspaceId itemId .rejecting with hended | ⟨item, msg, heq, hread⟩
      · rw [hended]
        exact h.quiet hnow rfl rfl trivial
      · rw [heq]
        exact h.quiet hnow rfl rfl hread
    · cases hstep
  | next c => exact h.next hcareful hstep
  | handOver c result => exact h.handOver hcareful hstep
  | rollback c =>
    obtain rfl := Option.some.inj hstep
    refine h.quiet ?_ rfl rfl trivial
    cases hcall : s.calls c with
    | handed | confirming => simp [Careful, hcall] at hcareful
    | _ => rfl
  | settings settings accounts =>
    obtain rfl := Option.some.inj hstep
    exact ⟨h.held, h.apart, h.free, h.spent, h.answered, h.about, h.read, h.unsent, h.confirming,
      h.outstanding, h.sole, h.safe.once, h.safe.sent, h.safe.approved, h.safe.rejected⟩

/-- **Careful runs hand each message over at most once**, record as sent or approved only what
was accepted, and never hand over what is rejected. -/
theorem atMostOnce_of_careful (h : (system sources).ReachableUnder Careful s) : AtMostOnce s := by
  have hinv : Inv s := by
    refine System.ReachableUnder.invariant ?_ (fun s l s' _ hs hc hstep => hs.step hc hstep) h
    rintro s ⟨hmessages, hinbox, hidle, hinserted, hhanding, hlog⟩
    exact .initial hmessages hinbox hidle hinserted hhanding hlog
  exact hinv.safe

end Run

/-! ### Messages of the desk -/

def noMessages : State where
  db := ⟨{}, [], ⟨[], List.nodup_nil, List.nodup_nil⟩, ⟨[], List.nodup_nil, List.nodup_nil⟩⟩
  calls _ := .idle
  inserted := []
  handing := []
  log := []

/-- The desk is a trusted source. -/
def desk : System State Label :=
  system ["desk"]

theorem noMessages_init : desk.init noMessages :=
  ⟨rfl, rfl, fun _ => rfl, rfl, rfl, rfl⟩

/-- A message of the desk. -/
def ofDesk (ref : String) (mode : EmailMode) : Request where
  workspaceId := "acme"
  ucUid := none
  input :=
    { contactId := none
      toPhoneNumber := "+15550001".toList
      body := "Hello".toList
      mode := some mode
      externalSource := "desk"
      externalRef := ref
      draftedBy := none
      fromSmsAccountId := none
      inReplyToThreadId := none }

def accepted : TwilioSendResult := ⟨true, some "SM1"⟩

def refused : TwilioSendResult := ⟨false, none⟩

/-- One message is sent, one approved after another approval was rolled back before it called
the provider, and one rejected. -/
theorem atMostOnce_of_careful_three : ∃ s, AtMostOnce s ∧
    s.log.map (·.key.2.2) = ["r1", "r2"] ∧
    s.db.inbox.rows.map (·.state) = [.approved, .rejected] := by
  let run : List Label :=
    [.compose 0 (ofDesk "r1" .send) ⟨"m1", "i1"⟩, .next 0, .handOver 0 accepted, .next 0,
      .compose 1 (ofDesk "r2" .draft) ⟨"m2", "i2"⟩, .next 1,
      .compose 2 (ofDesk "r3" .draft) ⟨"m3", "i3"⟩, .next 2,
      .approve 3 "acme" "i2", .rollback 3, .approve 4 "acme" "i2", .handOver 4 accepted, .next 4,
      .reject 5 "acme" "i3", .next 5]
  have hrun : (desk.execUnder Careful noMessages run).map
      (fun s => (s.log.map (·.key.2.2), s.db.inbox.rows.map (·.state))) =
      some (["r1", "r2"], [.approved, .rejected]) := by decide +kernel
  obtain ⟨s, hexec, hcolumns⟩ := Option.map_eq_some_iff.mp hrun
  obtain ⟨hlog, hstates⟩ := Prod.mk.inj hcolumns
  exact ⟨s, atMostOnce_of_careful (System.execUnder_reachable (.init noMessages_init) hexec),
    hlog, hstates⟩

/-- The transaction fails after the provider has accepted, and the desk tries again. -/
def retryRun : List Label :=
  [.compose 0 (ofDesk "r1" .send) ⟨"m1", "i1"⟩, .next 0, .handOver 0 accepted, .rollback 0,
    .compose 1 (ofDesk "r1" .send) ⟨"m2", "i2"⟩, .next 1, .handOver 1 accepted]

/-- The provider refuses a message that is approved. -/
def refusedRun : List Label :=
  [.compose 0 (ofDesk "r1" .draft) ⟨"m1", "i1"⟩, .next 0, .approve 1 "acme" "i1",
    .handOver 1 refused, .next 1]

/-- A message is rejected while it is approved. -/
def rejectedRun : List Label :=
  [.compose 0 (ofDesk "r1" .draft) ⟨"m1", "i1"⟩, .next 0, .approve 1 "acme" "i1",
    .reject 2 "acme" "i1", .next 2, .handOver 1 accepted]

/-- The one item and the one message of a state, from their columns. -/
theorem exists_item {s : State} {state : AgentInboxState} {key : Triple}
    (hitem : s.db.inbox.rows.map (fun i => (i.smsMessageId, i.state)) = [("m1", state)])
    (hmsg : s.db.messages.rows.map (fun m => (m.id, m.key)) = [("m1", key)]) :
    ∃ i ∈ s.db.inbox.rows, ∃ m ∈ s.db.messages.rows, m.id = i.smsMessageId ∧ i.state = state ∧
      m.key = key := by
  obtain ⟨i, hi, hipair⟩ := List.mem_map.mp (hitem ▸ List.mem_singleton_self ("m1", state))
  obtain ⟨m, hm, hmpair⟩ := List.mem_map.mp (hmsg ▸ List.mem_singleton_self ("m1", key))
  obtain ⟨hid, hstate⟩ := Prod.mk.inj hipair
  obtain ⟨hmid, hkey⟩ := Prod.mk.inj hmpair
  exact ⟨i, hi, m, hm, hmid.trans hid.symm, hstate, hkey⟩

/-- **Each part of the guarantee fails in a run**: a key is handed over twice, an item is
approved whose message was refused, and a message is handed over whose item is rejected. -/
theorem unsafe_runs :
    (∃ s, desk.exec noMessages retryRun = some s ∧ desk.Reachable s ∧ ¬ AtMostOnce s) ∧
      (∃ s, desk.exec noMessages refusedRun = some s ∧ desk.Reachable s ∧ ¬ AtMostOnce s) ∧
      ∃ s, desk.exec noMessages rejectedRun = some s ∧ desk.Reachable s ∧ ¬ AtMostOnce s := by
  have hreach : ∀ {run : List Label} {s : State}, desk.exec noMessages run = some s →
      desk.Reachable s := fun hexec => System.exec_reachable noMessages_init hexec
  refine ⟨?_, ?_, ?_⟩
  · obtain ⟨s, hexec, htwice⟩ : ∃ s, desk.exec noMessages retryRun = some s ∧
        s.handOffs ("acme", "desk", "r1") = 2 := ⟨_, rfl, rfl⟩
    refine ⟨s, hexec, hreach hexec, fun hsafe => ?_⟩
    have hle := hsafe.once ("acme", "desk", "r1")
    rw [htwice] at hle
    exact absurd hle (by decide)
  · obtain ⟨s, hexec, hitem, hmsg, hnone⟩ : ∃ s, desk.exec noMessages refusedRun = some s ∧
        s.db.inbox.rows.map (fun i => (i.smsMessageId, i.state)) = [("m1", .approved)] ∧
        s.db.messages.rows.map (fun m => (m.id, m.key)) = [("m1", "acme", "desk", "r1")] ∧
        s.log.map (·.result.accepted) = [false] := ⟨_, rfl, rfl, rfl, rfl⟩
    obtain ⟨i, hi, m, hm, hid, hstate, -⟩ := exists_item hitem hmsg
    refine ⟨s, hexec, hreach hexec, fun hsafe => ?_⟩
    obtain ⟨h, hmem, -, haccepted⟩ := hsafe.approved i hi hstate m hm hid
    have hanswer := List.mem_map_of_mem (f := fun h : HandOff => h.result.accepted) hmem
    rw [hnone, haccepted] at hanswer
    exact absurd hanswer (by decide)
  · obtain ⟨s, hexec, hitem, hmsg, honce⟩ : ∃ s, desk.exec noMessages rejectedRun = some s ∧
        s.db.inbox.rows.map (fun i => (i.smsMessageId, i.state)) = [("m1", .rejected)] ∧
        s.db.messages.rows.map (fun m => (m.id, m.key)) = [("m1", "acme", "desk", "r1")] ∧
        s.handOffs ("acme", "desk", "r1") = 1 := ⟨_, rfl, rfl, rfl, rfl⟩
    obtain ⟨i, hi, m, hm, hid, hstate, hkey⟩ := exists_item hitem hmsg
    refine ⟨s, hexec, hreach hexec, fun hsafe => ?_⟩
    have hnever := hsafe.rejected i hi hstate m hm hid
    rw [hkey, honce] at hnever
    cases hnever

end Sms
end EmailOps
