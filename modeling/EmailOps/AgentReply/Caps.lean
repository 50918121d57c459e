import EmailOps.Framework.Capped
import EmailOps.AgentReply.Protocol

/-!
# The caps on automatic replies

The gate counts the rows of the last day and lets a reply through when they are fewer than
the cap; the row of the reply is written only when its text is and its compose commits. Two
replies whose gates are read before either commits may both go over the cap.

* `caps_are_kept`: in a run where every reply that is let through finds room for itself
  beside those that are pending, no mailbox makes more composes and no thread gets more
  automatic sends in a day than its cap.
* `gates_interfere`: six messages of one thread handed over at once get six automatic sends,
  from a mailbox whose cap is five.
* `capped_of_reachable` places the runs that meet the condition in the machine that reserves
  before it acts.
-/

namespace EmailOps
namespace AgentReply

open Framework

/-- The limit of a cap. -/
def Cap.limit (flags : Flags) : Cap → ℕ
  | .mailbox => flags.agentDraftsPerMailboxPerDay
  | .thread => threadAutoSendCap

section

variable {Caller : Type} [DecidableEq Caller]

/-- A reply is let through only where there is room for it beside the pending ones, under
each cap it counts against. -/
def Careful [CaseMapping] (flags : Flags) (s : State Caller) : Label Caller → Prop
  | .inbound _ workspaceId mailbox msg =>
    ∀ reply, admitted flags s workspaceId mailbox msg = some reply →
      ∀ (cap : Cap) (key : String × String), reply.key cap = some key →
        s.read cap key + s.reserved cap key < cap.limit flags
  | _ => True

/-- What the machine sees: the composes made and the replies pending that count against the
cap. -/
def capView (cap : Cap) (s : State Caller) : Capped.State (String × String) Caller where
  now := s.now
  records := s.made.filterMap fun e => (e.key cap).map fun key => (key, e.time)
  reserved := s.pending.filterMap fun p => (p.2.key cap).map fun key => (p.1, key)

omit [DecidableEq Caller] in
theorem recent_capView (cap : Cap) (s : State Caller) (key : String × String) :
    Capped.recent capWindow (capView cap s) key = s.used cap key := by
  unfold Capped.recent State.used capView
  rw [List.countP_filterMap]
  refine List.countP_congr fun e _ => ?_
  cases hkey : e.key cap with
  | none => simp
  | some key' => simp

omit [DecidableEq Caller] in
theorem out_capView (cap : Cap) (s : State Caller) (key : String × String) :
    Capped.out (capView cap s) key = s.reserved cap key := by
  unfold Capped.out State.reserved capView
  rw [List.countP_filterMap]
  refine List.countP_congr fun p _ => ?_
  cases hkey : p.2.key cap with
  | none => simp
  | some key' => simp

/-- Without a caller's replies, its reservations are gone. -/
theorem reserved_pendingBut (cap : Cap) (s : State Caller) (c : Caller) :
    ((s.pendingBut c).filterMap fun p => (p.2.key cap).map fun key => (p.1, key)) =
      Capped.without (capView cap s).reserved c := by
  unfold State.pendingBut Capped.without capView
  rw [List.filterMap_filter, List.filter_filterMap]
  refine List.filterMap_congr fun p _ => ?_
  cases hkey : p.2.key cap with
  | none => simp
  | some key =>
    by_cases hp : p.1 = c
    · simp [hp, Option.filter_some]
    · simp [hp, Option.filter_some]

omit [DecidableEq Caller] in
theorem capView_onBase (cap : Cap) (s : State Caller) (base : Compose.State Caller) :
    capView cap (s.onBase base) = capView cap s := rfl

variable [CaseMapping] {env : Env} {flags : Flags} {s s' : State Caller} {l : Label Caller}

omit [CaseMapping] in
theorem release_of_giveUp (cap : Cap) (s : State Caller) (c : Caller) (limit : ℕ)
    (base : Compose.State Caller) :
    Capped.step limit capWindow (capView cap s) (.release c) =
      some (capView cap { s.onBase base with pending := s.pendingBut c }) := by
  change some { capView cap s with reserved := Capped.without (capView cap s).reserved c } = _
  rw [← reserved_pendingBut]
  rfl

omit [CaseMapping] in
/-- A compose of a reply that is pending was reserved. -/
theorem record_of_commit {cap : Cap} {c : Caller} {reply : Reply} {msg : EmailMessage}
    {key : String × String} (hreply : s.replyOf c = some reply) (hcounts : CountsFor reply msg)
    (hkey : (reply.made msg s.now).key cap = some key) (limit : ℕ)
    (base : Compose.State Caller) :
    Capped.step limit capWindow (capView cap s) (.record c key) =
      some (capView cap { s.onBase base with
        pending := s.pendingBut c
        made := s.made ++ [reply.made msg s.now] }) := by
  -- What the compose counts against, the reply did.
  -- The reply counts against the key under which its message is recorded.
  have hpending : reply.key cap = some key := by
    cases cap with
    | mailbox => exact hkey
    | thread =>
      change (if msg.mode = .send then some (reply.workspaceId, reply.msg.threadId) else none) =
        some key at hkey
      split at hkey
      · next hsend =>
        simp only [Reply.key, Cap.key, hcounts.requested hsend, if_true]
        exact hkey
      · cases hkey
  -- The reservation is out as long as the reply is pending.
  have hreserved : (c, key) ∈ (capView cap s).reserved := by
    refine List.mem_filterMap.mpr ⟨(c, reply), mem_pending_of_replyOf hreply, ?_⟩
    rw [hpending]
    rfl
  simp only [Capped.step, if_pos hreserved]
  refine congrArg some ?_
  unfold capView
  rw [reserved_pendingBut, List.filterMap_append]
  simp only [List.filterMap_cons, List.filterMap_nil, hkey, Option.map_some]
  rfl

/-- **A careful step is a step of the machine**, or is not seen. -/
theorem capped_step (hinv : HandlerInv s ∧ MadeInv s) (hc : Careful flags s l)
    (hm : Moves env flags s l s') (cap : Cap) :
    capView cap s' = capView cap s ∨
      ∃ k, (Capped.system (cap.limit flags) capWindow).step (capView cap s) k =
        some (capView cap s') := by
  change _ ∨ ∃ k, Capped.step (cap.limit flags) capWindow (capView cap s) k = some (capView cap s')
  cases hm with
  | tick passed => exact .inr ⟨.tick passed, rfl⟩
  | inbound c ws mailbox msg hidle hfree =>
    -- A message that is not admitted reserves nothing.
    cases hadmitted : admitted flags s ws mailbox msg with
    | none =>
      left
      simp only [capView, Option.map_none, Option.toList_none, List.append_nil]
    | some reply =>
      cases hkey : reply.key cap with
      | none =>
        left
        simp only [capView, Option.map_some, Option.toList_some, List.filterMap_append,
          List.filterMap_cons, List.filterMap_nil, hkey, Option.map_none, List.append_nil]
      | some key =>
        -- The gate has counted what was made, so there is room in the machine as well.
        have hroom : Capped.recent capWindow (capView cap s) key + Capped.out (capView cap s) key <
            cap.limit flags := by
          have hlimit := hc reply hadmitted cap key hkey
          have hcounted := used_le_read hinv.2 cap key
          rw [recent_capView, out_capView]
          omega
        refine .inr ⟨.reserve c key, ?_⟩
        simp only [Capped.step, if_pos hroom]
        simp only [capView, Option.map_some, Option.toList_some, List.filterMap_append,
          List.filterMap_cons, List.filterMap_nil, hkey]
  | compose c texts f ids reply base hreply hbase => exact .inl (capView_onBase cap s base)
  | commit c reply r plan base hreply hplan hbase =>
    -- A commit records what it has made, or gives the reservation up.
    have hfits := hinv.1 c reply hreply r plan hplan
    rcases madeBy_cases hfits r s.now with hnone | ⟨msg, hcounts, -, -, hmade⟩
    · refine .inr ⟨.release c, ?_⟩
      rw [hnone, List.append_nil]
      exact release_of_giveUp cap s c _ base
    · rw [hmade]
      cases hkey : (reply.made msg s.now).key cap with
      | some key => exact .inr ⟨.record c key, record_of_commit hreply hcounts hkey _ base⟩
      | none =>
        refine .inr ⟨.release c, ?_⟩
        rw [release_of_giveUp cap s c _ base]
        simp only [capView, State.onBase, List.filterMap_append, List.filterMap_cons,
          List.filterMap_nil, hkey, Option.map_none, List.append_nil]
  | giveUp c base hbase => exact .inr ⟨.release c, release_of_giveUp cap s c _ base⟩
  | mail k base hquiet hbase => exact .inl (capView_onBase cap s base)

/-- The runs that meet the condition are runs of the machine. -/
theorem capped_of_reachable (h : (system env flags).ReachableUnder (Careful flags) s) (cap : Cap) :
    (Capped.system (cap.limit flags) capWindow).Reachable (capView cap s) := by
  refine h.invariant
    (P := fun s => (Capped.system (cap.limit flags) capWindow).Reachable (capView cap s)) ?_ ?_
  · intro s h0
    obtain ⟨-, hpending, hmade⟩ := h0
    refine System.Reachable.init ⟨?_, ?_⟩
    · simp only [capView, hmade, List.filterMap_nil]
    · simp only [capView, hpending, List.filterMap_nil]
  · intro s l s' hreach ih hc hs
    rcases capped_step (inv_of_reachable hreach.reachable) hc (moves_of_step hs) cap with hsame | hstep
    · rw [hsame]
      exact ih
    · obtain ⟨k, hk⟩ := hstep
      exact ih.step hk

/-- **The caps are kept.** When every reply that is let through finds room beside the pending
ones, the runtime makes no more composes from a mailbox within a day than the mailbox's cap,
and no more automatic sends in a thread than the thread's. -/
theorem caps_are_kept (h : (system env flags).ReachableUnder (Careful flags) s) :
    (∀ workspaceId mailboxId,
      s.used .mailbox (workspaceId, mailboxId) ≤ flags.agentDraftsPerMailboxPerDay) ∧
    ∀ workspaceId threadId, s.used .thread (workspaceId, threadId) ≤ threadAutoSendCap := by
  have hcap : ∀ (cap : Cap) (key : String × String), s.used cap key ≤ cap.limit flags := by
    intro cap key
    rw [← recent_capView]
    exact Capped.recent_le (capped_of_reachable h cap) key
  exact ⟨fun ws id => hcap .mailbox (ws, id), fun ws id => hcap .thread (ws, id)⟩

end

/-- A workspace with one agent, who may write inside it on its own. -/
def sampleDb : Db where
  settings :=
    { workspaces := [⟨"ws", false⟩]
      agents := [⟨"a", "ws", "perry", true, false, .l1ApproveToSend, .null, some "mb"⟩]
      mailboxes := [⟨"mb", "ws", "perry@acme.com".toList, none, true, true, false, "stalwart",
        .agent, none⟩]
      mailDomains := [⟨"ws", "acme.com".toList⟩] }

def sampleState : State ℕ := ⟨⟨sampleDb, fun _ => .idle, []⟩, 0, fun _ => 0, [], []⟩

def sampleFlags : Flags := ⟨true, 5⟩

/-- A message of one thread is handed over. -/
def handOver (c : ℕ) (receivedAt : String) : Label ℕ :=
  .inbound c "ws" ⟨"mb", "perry@acme.com".toList, "ws"⟩
    { threadId := "t"
      fromAddress := some "ada@acme.com".toList
      subject := some "Hello".toList
      receivedAt := some receivedAt }

/-- Its reply is composed and sent. -/
def answer (c : ℕ) (id : String) : List (Label ℕ) :=
  [.compose c ⟨"Hi".toList, "<p>Hi</p>".toList⟩ false ⟨id, id⟩, .commit c,
    .mail (.callEngine c none ⟨true, some id, none, none, none⟩), .mail (.stamp c)]

/-- A reply that is alone is let through and sent. -/
theorem caps_are_kept_run : ∃ s : State ℕ,
    (system ⟨[], true⟩ sampleFlags).ReachableUnder (Careful sampleFlags) s ∧
    s.used .thread ("ws", "t") = 1 ∧
    ((∀ workspaceId mailboxId, s.used .mailbox (workspaceId, mailboxId) ≤ 5) ∧
      ∀ workspaceId threadId, s.used .thread (workspaceId, threadId) ≤ threadAutoSendCap) := by
  have r0 : (system ⟨[], true⟩ sampleFlags).ReachableUnder (Careful sampleFlags) sampleState :=
    .init ⟨⟨fun _ => rfl, rfl⟩, rfl, rfl⟩
  have r1 := r0.next (handOver 0 "2026-01-01T00:00:00Z") (fun reply _ cap key _ => by
    -- Nothing is counted yet, and nothing is pending.
    cases cap <;> exact Nat.succ_pos 4) rfl
  have r2 := r1.next (.compose 0 ⟨"Hi".toList, "<p>Hi</p>".toList⟩ false ⟨"m", "i"⟩) trivial rfl
  have r3 := r2.next (.commit 0) trivial rfl
  obtain ⟨s, hreach, hone⟩ : ∃ s,
      (system ⟨[], true⟩ sampleFlags).ReachableUnder (Careful sampleFlags) s ∧
      s.used .thread ("ws", "t") = 1 := ⟨_, r3, rfl⟩
  exact ⟨s, hreach, hone, caps_are_kept hreach⟩

/-- Six messages of a thread are handed over before any of the replies is composed: all six
are sent, from a mailbox that may make five composes, in a thread that may have five. -/
theorem gates_interfere : ∃ s : State ℕ, (system ⟨[], true⟩ sampleFlags).Reachable s ∧
    s.used .mailbox ("ws", "mb") = 6 ∧ s.used .thread ("ws", "t") = 6 ∧ s.base.log.length = 6 ∧
    sampleFlags.agentDraftsPerMailboxPerDay = 5 ∧ threadAutoSendCap = 5 := by
  let run : List (Label ℕ) :=
    [handOver 0 "2026-01-01T00:00:00Z", handOver 1 "2026-01-01T00:00:01Z",
      handOver 2 "2026-01-01T00:00:02Z", handOver 3 "2026-01-01T00:00:03Z",
      handOver 4 "2026-01-01T00:00:04Z", handOver 5 "2026-01-01T00:00:05Z"] ++
    (answer 0 "m0" ++ answer 1 "m1" ++ answer 2 "m2" ++ answer 3 "m3" ++ answer 4 "m4" ++
      answer 5 "m5")
  have hrun : ((system ⟨[], true⟩ sampleFlags).exec sampleState run).map (fun s =>
      (s.used .mailbox ("ws", "mb"), s.used .thread ("ws", "t"), s.base.log.length)) =
        some (6, 6, 6) := by
    decide +kernel
  obtain ⟨s, hs, hused⟩ := Option.map_eq_some_iff.mp hrun
  simp only [Prod.mk.injEq] at hused
  obtain ⟨hmailbox, hthread, hlog⟩ := hused
  exact ⟨s, System.exec_reachable ⟨⟨fun _ => rfl, rfl⟩, rfl, rfl⟩ hs, hmailbox, hthread, hlog,
    rfl, rfl⟩

end AgentReply
end EmailOps
