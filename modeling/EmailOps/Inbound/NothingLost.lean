import EmailOps.Inbound.Watcher

/-!
# What the watcher returns

A poll sees one page of the inbox and moves the cursor to the largest `receivedAt` of it. A
message that is not after the cursor when it is delivered, or that is beyond the page while
it is new, is never returned.

* `nothing_is_lost`: in a run where every delivered message is after the cursor, the page holds
  all that is new, no message leaves before it is returned and no poll breaks off, every
  message is returned once, by the next poll, and until then it is after the cursor.
* `messages_are_lost`: a message of the cursor's own second, one of a fraction of it, and the
  first of a burst of fifty-one.
* `WatchInv` is the invariant.
-/

namespace EmailOps
namespace Inbound

open Framework

section

variable {Caller : Type} [DecidableEq Caller]

/-- A message is delivered after the cursor. What is new fits the page. A message that is
watched does not leave before it is returned, and no poll breaks off. -/
def Prompt (s : State Caller) : Label Caller → Prop
  | .arrive m => ∀ cursor, s.mark = some cursor → cursor < m.receivedAt
  | .leave m => m ∈ s.watched → m ∈ s.returned
  | .poll order _ _ =>
    ∀ cursor, s.cursor = some cursor → ∀ m ∈ order.drop pageLimit, m.receivedAt ≤ cursor
  | .classify ok | .advance ok => ok = true
  | .crash => s.poll = none
  | _ => True

/-- **The invariant.** -/
structure WatchInv (s : State Caller) : Prop where
  /-- Every message was delivered with a thread. -/
  thread : ∀ m ∈ s.watched, m.threadId ≠ ""
  /-- A message that is still to be returned waits in the inbox, after the cursor. -/
  waiting : ∀ m ∈ s.watched, m ∉ s.returned →
    m ∈ s.inbox ∧ ∀ cursor, s.mark = some cursor → cursor < m.receivedAt
  /-- What was returned is not after the cursor. -/
  passed : ∀ m ∈ s.returned, ∃ cursor, s.mark = some cursor ∧ m.receivedAt ≤ cursor
  once : s.returned.Nodup
  /-- The watch begins with the first cursor. -/
  begun : s.watched ≠ [] → s.mark ≠ none

variable [CaseMapping] {mb : WatchedMailbox} {env : Env} {flags : AgentReply.Flags}
  {s s' : State Caller} {l : Label Caller}

theorem WatchInv.initial (h : (system mb env flags).init s) : WatchInv s := by
  obtain ⟨-, -, -, hwatched, hreturned, -, -⟩ := h
  refine
    { thread := ?_
      waiting := ?_
      passed := ?_
      once := ?_
      begun := fun hne => absurd hwatched hne }
  · -- Nothing is watched or returned at first.
    rw [hwatched]
    exact fun m hm => nomatch hm
  · rw [hwatched]
    exact fun m hm => nomatch hm
  · rw [hreturned]
    exact fun m hm => nomatch hm
  · rw [hreturned]
    exact List.nodup_nil

omit [DecidableEq Caller] [CaseMapping] in
theorem mark_of_idle (h : s.poll = none) : s.mark = s.cursor := by
  unfold State.mark
  rw [h]

omit [DecidableEq Caller] [CaseMapping] in
/-- **A poll returns every message that waits**, and puts its mark before none of them. -/
theorem WatchInv.poll (h : WatchInv s) (hpoll : PollInv s) {order : List JmapEmail} {nowIso : Text}
    (rules : List MailRuleRow) (hidle : s.poll = none) (horder : NewestFirst s.inbox order)
    (hfits : ∀ cursor, s.cursor = some cursor →
      ∀ m ∈ order.drop pageLimit, m.receivedAt ≤ cursor) :
    WatchInv (s.beginPoll order nowIso rules) ∧
      ∀ m ∈ s.watched, m ∈ (s.beginPoll order nowIso rules).returned := by
  have hmark := mark_of_idle hidle
  have hpage : (order.take pageLimit).Nodup :=
    (horder.1.nodup_iff.mpr hpoll.inbox).sublist (List.take_sublist _ _)
  -- A message that waits is in the inbox after the cursor, hence on the page.
  have hall : ∀ m ∈ s.watched, m ∈ s.returned ++ newEmails (order.take pageLimit) s.cursor := by
    intro m hm
    by_cases hreturned : m ∈ s.returned
    · exact List.mem_append_left _ hreturned
    · refine List.mem_append_right _ ?_
      obtain ⟨hinbox, hafter⟩ := h.waiting m hm hreturned
      obtain ⟨cursor, hcursor⟩ := Option.ne_none_iff_exists'.mp (h.begun (List.ne_nil_of_mem hm))
      have hlt := hafter cursor hcursor
      rw [hmark] at hcursor
      rw [hcursor, mem_newEmails (h.thread m hm)]
      refine ⟨?_, hlt⟩
      have hmem := horder.1.mem_iff.mpr hinbox
      rw [← List.take_append_drop pageLimit order] at hmem
      rcases List.mem_append.mp hmem with htake | hdrop
      · exact htake
      · exact absurd hlt (not_lt_of_ge (hfits cursor hcursor m hdrop))
  refine ⟨?_, hall⟩
  exact
    { thread := h.thread
      waiting := fun m hm hnot => absurd (hall m hm) hnot
      passed := by
        intro m hm
        refine ⟨_, rfl, ?_⟩
        rcases List.mem_append.mp hm with hold | hnew
        · obtain ⟨cursor, hcursor, hle⟩ := h.passed m hold
          rw [hmark] at hcursor
          rw [hcursor]
          exact hle.trans (since_le_pollCursor _ cursor nowIso)
        · exact le_pollCursor nowIso hnew
      once := by
        refine List.nodup_append.mpr ⟨h.once, nodup_newEmails hpage, ?_⟩
        rintro m hold m' hnew rfl
        -- What is returned now is after the cursor, and what was returned before is not.
        obtain ⟨cursor, hcursor, hle⟩ := h.passed m hold
        obtain ⟨-, cursor', hcursor', hlt⟩ := of_mem_newEmails hnew
        rw [hmark, hcursor'] at hcursor
        obtain rfl := Option.some.inj hcursor
        exact absurd hlt (not_lt_of_ge hle)
      begun := fun _ => Option.some_ne_none _ }

omit [DecidableEq Caller] [CaseMapping] in
theorem WatchInv.keep (h : WatchInv s) (hinbox : s'.inbox = s.inbox)
    (hwatched : s'.watched = s.watched) (hreturned : s'.returned = s.returned)
    (hmark : s'.mark = s.mark) : WatchInv s' where
  thread := by rw [hwatched]; exact h.thread
  waiting := by rw [hwatched, hreturned, hinbox, hmark]; exact h.waiting
  passed := by rw [hreturned, hmark]; exact h.passed
  once := by rw [hreturned]; exact h.once
  begun := by rw [hwatched, hmark]; exact h.begun

omit [DecidableEq Caller] [CaseMapping] in
theorem mark_of_poll {p p' : Poll} (hp : s.poll = some p) (hp' : s'.poll = some p')
    (hsame : p'.cursor = p.cursor) : s'.mark = s.mark := by
  unfold State.mark
  rw [hp, hp']
  exact congrArg some hsame

theorem WatchInv.step (h : WatchInv s) (hpollInv : PollInv s) (hc : Prompt s l) (hm : Moves mb env flags s l s') :
    WatchInv s' := by
  cases hm with
  | arrive m hnew hthread =>
    -- A message that arrives before the first poll is not watched.
    have hwatched : ∀ m' ∈ (if s.mark.isSome then s.watched ++ [m] else s.watched),
        m' ∈ s.watched ∨ m' = m ∧ s.mark ≠ none := by
      intro m' hm'
      split at hm'
      · next hmark =>
        rcases List.mem_append.mp hm' with hold | hnew
        · exact .inl hold
        · exact .inr ⟨List.mem_singleton.mp hnew, Option.isSome_iff_ne_none.mp hmark⟩
      · exact .inl hm'
    refine { h with thread := ?_, waiting := ?_, begun := ?_ }
    · -- It was delivered with a thread.
      intro m' hm'
      rcases hwatched m' hm' with hold | ⟨rfl, -⟩
      · exact h.thread m' hold
      · exact hthread
    · -- It is in the inbox, and after the cursor.
      intro m' hm' hnot
      rcases hwatched m' hm' with hold | ⟨rfl, -⟩
      · obtain ⟨hinbox, hafter⟩ := h.waiting m' hold hnot
        exact ⟨List.mem_append_left _ hinbox, hafter⟩
      · exact ⟨List.mem_append_right _ (List.mem_singleton_self _), hc⟩
    · -- What is watched has arrived after the first poll.
      intro hne
      obtain ⟨m', hm'⟩ := List.exists_mem_of_ne_nil _ hne
      rcases hwatched m' hm' with hold | ⟨-, hmark⟩
      · exact h.begun (List.ne_nil_of_mem hold)
      · exact hmark
  | leave m =>
    refine { h with waiting := ?_ }
    intro m' hm' hnot
    obtain ⟨hinbox, hafter⟩ := h.waiting m' hm' hnot
    -- The message that leaves is no message that waits.
    have hne : m' ≠ m := by
      rintro rfl
      exact hnot (hc hm')
    exact ⟨(List.mem_erase_of_ne hne).mpr hinbox, hafter⟩
  | restore m hnew =>
    refine { h with waiting := ?_ }
    intro m' hm' hnot
    obtain ⟨hinbox, hafter⟩ := h.waiting m' hm' hnot
    exact ⟨List.mem_append_left _ hinbox, hafter⟩
  | poll order nowIso rules hidle horder hnow => exact (h.poll hpollInv rules hidle horder hc).1
  -- While a poll goes on, neither the messages nor the mark change.
  | classify cursor rules messages todo m hpoll =>
    exact h.keep rfl rfl rfl (mark_of_poll hpoll rfl rfl)
  | act outcome cursor rules messages todo m call calls ids hpoll =>
    exact h.keep rfl rfl rfl (mark_of_poll hpoll rfl rfl)
  | bump ok cursor rules messages todo m ids hpoll =>
    exact h.keep rfl rfl rfl (mark_of_poll hpoll rfl rfl)
  | handOff c cursor rules messages todo m replies hpoll hreplies =>
    exact h.keep rfl rfl rfl (mark_of_poll hpoll rfl rfl)
  | advance cursor rules messages stage hpoll =>
    -- The mark is the poll's cursor before, and the stored cursor after.
    have hmark : State.mark { s with poll := none, cursor := s.storedCursor cursor } = s.mark := by
      unfold State.mark
      rw [hpoll]
      exact hpollInv.stored hpoll
    exact h.keep rfl rfl rfl hmark
  | breakOff l hbreak =>
    -- A prompt run breaks off nothing but an idle watcher.
    have hidle : s.poll = none := by
      rcases hbreak with rfl | rfl | rfl
      · cases hc
      · cases hc
      · exact hc
    exact h.keep rfl rfl rfl (by unfold State.mark; rw [hidle])
  | reply l replies hreplies => exact h.keep rfl rfl rfl rfl

theorem watchInv_of_reachable (h : (system mb env flags).ReachableUnder Prompt s) : WatchInv s :=
  h.invariant (P := WatchInv) (fun _ h0 => WatchInv.initial h0) fun _ _ _ hreach hinv hc hs =>
    hinv.step (pollInv_of_reachable hreach.reachable) hc (moves_of_step hs)

/-- **Nothing is lost.** When every message is delivered after the cursor, the page holds what
is new, no message leaves before it is returned and no poll breaks off, then no message is
returned twice, one that was not returned is in the inbox after the cursor, and the next poll
returns it. -/
theorem nothing_is_lost (h : (system mb env flags).ReachableUnder Prompt s) :
    (∀ m, s.returned.count m ≤ 1) ∧
    (∀ m ∈ s.watched, m ∉ s.returned →
      m ∈ s.inbox ∧ ∀ cursor, s.cursor = some cursor → cursor < m.receivedAt) ∧
    ∀ order nowIso rules s', Prompt s (.poll order nowIso rules) →
      (system mb env flags).step s (.poll order nowIso rules) = some s' →
      ∀ m ∈ s.watched, s'.returned.count m = 1 := by
  have hinv := watchInv_of_reachable h
  have hpollInv := pollInv_of_reachable h.reachable
  refine ⟨fun m => List.nodup_iff_count_le_one.mp hinv.once m, fun m hm hnot => ?_, ?_⟩
  · obtain ⟨hinbox, hafter⟩ := hinv.waiting m hm hnot
    refine ⟨hinbox, fun cursor hcursor => ?_⟩
    cases hpoll : s.poll with
    | none =>
      rw [mark_of_idle hpoll] at hafter
      exact hafter cursor hcursor
    | some p =>
      -- The poll under way has not turned the cursor back.
      have hmark : s.mark = some p.cursor := by
        unfold State.mark
        rw [hpoll]
      exact lt_of_le_of_lt (hpollInv.forward p cursor hpoll hcursor) (hafter p.cursor hmark)
  · intro order nowIso rules s' hc hs m hm
    cases moves_of_step hs with
    | poll _ _ _ hidle horder hnow =>
      obtain ⟨hnext, hall⟩ := hinv.poll hpollInv rules hidle horder hc
      exact List.count_eq_one_of_mem hnext.once (hall m hm)
    | breakOff _ hbreak => rcases hbreak with heq | heq | heq <;> cases heq

end

/-- A mailbox nobody but its owner reads. -/
def sampleMailbox : WatchedMailbox := ⟨"mb", "ws", "ada@acme.com".toList, .human⟩

def sampleFlags : AgentReply.Flags := ⟨false, 20⟩

/-- A message to it. -/
def letter (id : String) (receivedAt : Text) (instant : ℕ) : JmapEmail where
  instant := instant
  id := id
  threadId := "t"
  subject := none
  from? := ["bob@acme.com".toList]
  to? := ["ada@acme.com".toList]
  receivedAt := receivedAt
  autoreplyHeader := none

def midnight : Text := "2026-01-01T00:00:00Z".toList

def secondAfter : Text := "2026-01-01T00:00:01Z".toList

/-- A message there was before the first poll. -/
def backlog : JmapEmail := letter "a" midnight 0

/-- A message of the second after, the `n`-th. -/
def burstLetter (n : ℕ) : JmapEmail :=
  letter (String.ofList [Nat.digitChar (n % 10), Nat.digitChar (n / 10)]) secondAfter 1000

/-- The mailbox with one message, before its first poll. -/
def sampleState : State ℕ where
  inbox := [backlog]
  cursor := none
  poll := none
  watched := []
  returned := []
  effects := []
  replies := ⟨⟨{}, fun _ => .idle, []⟩, 0, fun _ => 0, [], []⟩

theorem sampleState_init [CaseMapping] (env : Env) :
    (system sampleMailbox env sampleFlags).init sampleState :=
  ⟨List.nodup_singleton _, rfl, rfl, rfl, rfl, rfl, ⟨fun _ => rfl, rfl⟩, rfl, rfl⟩

/-- The first poll. -/
def baseline : List (Label ℕ) := [.poll [backlog] secondAfter [], .advance true]

/-- A poll that finds these messages new. -/
def pollOf (order : List JmapEmail) (new : ℕ) : List (Label ℕ) :=
  .poll order secondAfter [] :: (List.replicate new [.classify true, .handOff 0]).flatten ++
    [.advance true]

/-- A message that comes after the first poll is returned by the second. -/
theorem nothing_is_lost_run : ∃ s : State ℕ,
    (system sampleMailbox ⟨[], true⟩ sampleFlags).ReachableUnder Prompt s ∧
    s.watched = [burstLetter 0] ∧ s.returned = [burstLetter 0] ∧
    ((∀ m, s.returned.count m ≤ 1) ∧
      (∀ m ∈ s.watched, m ∉ s.returned →
        m ∈ s.inbox ∧ ∀ cursor, s.cursor = some cursor → cursor < m.receivedAt) ∧
      ∀ order nowIso rules s', Prompt s (.poll order nowIso rules) →
        (system sampleMailbox ⟨[], true⟩ sampleFlags).step s (.poll order nowIso rules) = some s' →
        ∀ m ∈ s.watched, s'.returned.count m = 1) := by
  let S : System (State ℕ) (Label ℕ) := system sampleMailbox ⟨[], true⟩ sampleFlags
  let letters := [burstLetter 0]
  let polled : State ℕ := { sampleState with cursor := some midnight }
  let arrived : State ℕ := { polled with inbox := [backlog, burstLetter 0], watched := letters }
  let found : State ℕ :=
    { arrived with
      poll := some ⟨secondAfter, [], letters, letters, .classify⟩
      returned := letters }
  let classified : State ℕ :=
    { found with poll := some ⟨secondAfter, [], letters, letters, .handOff⟩ }
  let handed : State ℕ := { found with poll := some ⟨secondAfter, [], letters, [], .classify⟩ }
  let stored : State ℕ := { found with poll := none, cursor := some secondAfter }
  have r0 : S.ReachableUnder Prompt sampleState := .init (sampleState_init _)
  have r1 := r0.next (.poll [backlog] secondAfter []) (fun _ hcursor => by cases hcursor) rfl
  have r2 : S.ReachableUnder Prompt polled := r1.step (l := .advance true) rfl rfl
  have r3 : S.ReachableUnder Prompt arrived := by
    refine r2.step (l := .arrive (burstLetter 0)) (fun cursor hcursor => ?_) rfl
    obtain rfl := Option.some.inj hcursor
    decide +kernel
  have r4 : S.ReachableUnder Prompt found :=
    r3.step (l := .poll [burstLetter 0, backlog] secondAfter []) (fun _ _ _ hm => by cases hm) rfl
  have r5 : S.ReachableUnder Prompt classified := r4.step (l := .classify true) rfl rfl
  have r6 : S.ReachableUnder Prompt handed := r5.step (l := .handOff 0) trivial rfl
  have r7 : S.ReachableUnder Prompt stored := r6.step (l := .advance true) rfl rfl
  exact ⟨stored, r7, rfl, rfl, nothing_is_lost r7⟩

/-- A message that a poll has passed: it arrived once the watcher had begun, it is in the inbox,
and no later than the cursor, but it was not returned. -/
def Lost (s : State ℕ) (m : JmapEmail) (cursor : Text) : Prop :=
  s.poll.isNone = true ∧ m ∈ s.watched ∧ m ∈ s.inbox ∧ m ∉ s.returned ∧
    s.cursor = some cursor ∧ m.receivedAt ≤ cursor

instance (s : State ℕ) (m : JmapEmail) (cursor : Text) : Decidable (Lost s m cursor) :=
  inferInstanceAs (Decidable (_ ∧ _))

private theorem lost_of_run {run : List (Label ℕ)} {m : JmapEmail} {cursor : Text}
    (h : ((system sampleMailbox ⟨[], true⟩ sampleFlags).exec sampleState run).any
      (fun s => decide (Lost s m cursor)) = true) :
    ∃ s, (system sampleMailbox ⟨[], true⟩ sampleFlags).Reachable s ∧ Lost s m cursor := by
  obtain ⟨s, hs, hlost⟩ := (Option.any_eq_true _ _).mp h
  exact ⟨s, System.exec_reachable (sampleState_init _) hs, of_decide_eq_true hlost⟩

/-- A message of the cursor's own second is lost, one of a fraction of it, which sorts before
it, and the first of a burst of fifty-one. -/
theorem messages_are_lost :
    (∃ s, (system sampleMailbox ⟨[], true⟩ sampleFlags).Reachable s ∧
      Lost s (letter "b" midnight 0) midnight) ∧
    (∃ s, (system sampleMailbox ⟨[], true⟩ sampleFlags).Reachable s ∧
      Lost s (letter "b" "2026-01-01T00:00:00.5Z".toList 500) midnight) ∧
    ∃ s, (system sampleMailbox ⟨[], true⟩ sampleFlags).Reachable s ∧
      Lost s (burstLetter 0) secondAfter := by
  let tie := letter "b" midnight 0
  let fraction := letter "b" "2026-01-01T00:00:00.5Z".toList 500
  let burst : List (Label ℕ) := (List.range 51).map fun n => .arrive (burstLetter n)
  have htie : ((system sampleMailbox ⟨[], true⟩ sampleFlags).exec sampleState
      (baseline ++ .arrive tie :: pollOf [tie, backlog] 0)).any
      (fun s => decide (Lost s tie midnight)) = true := by
    decide +kernel
  have hfraction : ((system sampleMailbox ⟨[], true⟩ sampleFlags).exec sampleState
      (baseline ++ .arrive fraction :: pollOf [fraction, backlog] 0)).any
      (fun s => decide (Lost s fraction midnight)) = true := by
    decide +kernel
  have hburst : ((system sampleMailbox ⟨[], true⟩ sampleFlags).exec sampleState
      (baseline ++ burst ++ pollOf ((List.range 51).reverse.map burstLetter ++ [backlog]) 50)).any
      (fun s => decide (Lost s (burstLetter 0) secondAfter)) = true := by
    decide +kernel
  exact ⟨lost_of_run htie, lost_of_run hfraction, lost_of_run hburst⟩

end Inbound
end EmailOps
