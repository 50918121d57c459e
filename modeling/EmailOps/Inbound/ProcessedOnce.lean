import EmailOps.Inbound.NothingLost

/-!
# What is done about a message

A poll works through its messages and writes its cursor only at the end, so whatever breaks it
off leaves the messages it is through with to the next poll, which begins again with the first
of them.

* `processed_at_most_once`: in a run where no poll breaks off once something was done about one
  of its messages, the engine calls made for a message are those of one application of the
  rules, in order, its hit counters are bumped at most once, and it is handed over to the reply
  runtime at most once. That at most one reply is composed for it holds in every run.
* `rules_applied_again`: the classifier throws at the second message of a poll, and the rules
  are applied to the first one again.
* `OnceInv` is the invariant.
-/

namespace EmailOps
namespace Inbound

open Framework

/-- The message an effect is about. -/
def Effect.email : Effect → JmapEmail
  | .called m _ _ | .bumped m _ | .handedOver m => m

/-- The engine call an effect is. -/
def Effect.call? : Effect → Option EngineCall
  | .called _ call _ => some call
  | .bumped _ _ | .handedOver _ => none

def Effect.isBump : Effect → Bool
  | .bumped _ _ => true
  | .called _ _ _ | .handedOver _ => false

def Effect.isHandOver : Effect → Bool
  | .handedOver _ => true
  | .called _ _ _ | .bumped _ _ => false

section

variable {Caller : Type}

/-- What was done about a message, oldest first. -/
def State.effectsOn (s : State Caller) (m : JmapEmail) : List Effect :=
  s.effects.filter fun e => e.email = m

/-- The engine calls made for a message. -/
def State.callsFor (s : State Caller) (m : JmapEmail) : List EngineCall :=
  (s.effectsOn m).filterMap Effect.call?

/-- How often the hit counters were bumped for a message. -/
def State.bumpsFor (s : State Caller) (m : JmapEmail) : ℕ :=
  (s.effectsOn m).countP Effect.isBump

/-- How often a message was handed over to the reply runtime. -/
def State.handOversOf (s : State Caller) (m : JmapEmail) : ℕ :=
  (s.effectsOn m).countP Effect.isHandOver

/-- The engine calls of the rules for a message. -/
def ruleCalls [CaseMapping] (mb : WatchedMailbox) (rules : List MailRuleRow) (m : JmapEmail) :
    List EngineCall :=
  ((planRules mb.workspaceId mb.id rules m.ref).map (·.calls)).getD []

/-- Something was done about a message of the poll under way. -/
def Touched (s : State Caller) : Prop :=
  ∃ p, s.poll = some p ∧ ∃ m ∈ p.messages, s.effectsOn m ≠ []

/-- A poll does not break off once something was done about one of its messages. -/
def Unbroken (s : State Caller) : Label Caller → Prop
  | .classify ok | .advance ok => ok = true ∨ ¬Touched s
  | .crash => ¬Touched s
  | _ => True

/-! ### What may have been done so far -/

/-- What may have been done about a message that the poll is at a stage with. -/
def Stage.Allows [CaseMapping] (mb : WatchedMailbox) (rules : List MailRuleRow) (m : JmapEmail) :
    Stage → List Effect → Prop
  | .classify, done => done = []
  | .rules calls _, done =>
    done.countP Effect.isBump = 0 ∧ done.countP Effect.isHandOver = 0 ∧
      done.filterMap Effect.call? ++ calls = ruleCalls mb rules m
  | .handOff, done =>
    done.countP Effect.isBump ≤ 1 ∧ done.countP Effect.isHandOver = 0 ∧
      done.filterMap Effect.call? <+: ruleCalls mb rules m

/-- What may have been done about a message at all. -/
def Once [CaseMapping] (mb : WatchedMailbox) (m : JmapEmail) (done : List Effect) : Prop :=
  done.countP Effect.isBump ≤ 1 ∧ done.countP Effect.isHandOver ≤ 1 ∧
    ∃ rules, done.filterMap Effect.call? <+: ruleCalls mb rules m

/-- **The invariant.** -/
structure OnceInv [CaseMapping] (mb : WatchedMailbox) (s : State Caller) : Prop where
  once : ∀ m, Once mb m (s.effectsOn m)
  /-- A message something was done about is behind the stored cursor, or the poll's. -/
  behind : ∀ m, s.effectsOn m ≠ [] →
    (∃ cursor, s.cursor = some cursor ∧ m.receivedAt ≤ cursor) ∨
      ∃ p, s.poll = some p ∧ m ∈ p.messages
  /-- Nothing was done about the messages to come. -/
  untouched : ∀ p m todo, s.poll = some p → p.todo = m :: todo →
    ∀ m' ∈ todo, s.effectsOn m' = []
  /-- What was done about the message under work is what its stage allows. -/
  underWork : ∀ p m todo, s.poll = some p → p.todo = m :: todo →
    p.stage.Allows mb p.rules m (s.effectsOn m)

end

section

variable {Caller : Type} {s s' : State Caller}

/-! ### Adding to what was done -/

theorem effectsOn_self {m : JmapEmail} {added : List Effect} (heffects : s'.effects = s.effects ++ added)
    (hadded : ∀ e ∈ added, e.email = m) : s'.effectsOn m = s.effectsOn m ++ added := by
  unfold State.effectsOn
  rw [heffects, List.filter_append]
  congr 1
  exact List.filter_eq_self.mpr fun e he => decide_eq_true (hadded e he)

theorem effectsOn_of_ne {m m' : JmapEmail} {added : List Effect}
    (heffects : s'.effects = s.effects ++ added) (hadded : ∀ e ∈ added, e.email = m)
    (hne : m' ≠ m) : s'.effectsOn m' = s.effectsOn m' := by
  unfold State.effectsOn
  rw [heffects, List.filter_append]
  have hnone : added.filter (fun e => e.email = m') = [] := by
    refine List.filter_eq_nil_iff.mpr fun e he heq => ?_
    rw [decide_eq_true_eq, hadded e he] at heq
    exact hne heq.symm
  rw [hnone, List.append_nil]

end

section

variable {Caller : Type} [CaseMapping] {mb : WatchedMailbox} {s s' : State Caller}

theorem Once.nil (mb : WatchedMailbox) (m : JmapEmail) : Once mb m [] :=
  ⟨Nat.zero_le 1, Nat.zero_le 1, [], List.nil_prefix⟩

/-- It is about what was done, the stored cursor and the poll. -/
theorem OnceInv.keep (h : OnceInv mb s) (heffects : s'.effects = s.effects)
    (hcursor : s'.cursor = s.cursor) (hpoll : s'.poll = s.poll) : OnceInv mb s' := by
  have hsame : ∀ m, s'.effectsOn m = s.effectsOn m := by
    intro m
    unfold State.effectsOn
    rw [heffects]
  exact
    { once := fun m => by rw [hsame]; exact h.once m
      behind := fun m hne => by
        rw [hsame] at hne
        rw [hcursor, hpoll]
        exact h.behind m hne
      untouched := fun p m todo hp htodo m' hm' => by
        rw [hsame]
        exact h.untouched p m todo (hpoll ▸ hp) htodo m' hm'
      underWork := fun p m todo hp htodo => by
        rw [hsame]
        exact h.underWork p m todo (hpoll ▸ hp) htodo }

/-- **Work on a message.** The poll is at a stage with a message, and something more is done
about it. Either the poll stays with the message, at a stage that allows for it, or it goes on
to the next one. -/
theorem OnceInv.work (h : OnceInv mb s) (hinv : PollInv s) {p p' : Poll} {m : JmapEmail}
    {todo : List JmapEmail} (added : List Effect) (hp : s.poll = some p) (htodo : p.todo = m :: todo)
    (hcursor : s'.cursor = s.cursor) (hp' : s'.poll = some p')
    (heffects : s'.effects = s.effects ++ added) (hmessages : p'.messages = p.messages)
    (hadded : ∀ e ∈ added, e.email = m) (honce : Once mb m (s.effectsOn m ++ added))
    (hnext : (p'.todo = m :: todo ∧ p'.stage.Allows mb p'.rules m (s.effectsOn m ++ added)) ∨
      (p'.todo = todo ∧ p'.stage = .classify)) :
    OnceInv mb s' := by
  -- The message under work is one of the poll's, and none of those to come.
  have hsuffix := hinv.todo p hp
  rw [htodo] at hsuffix
  have hmem : m ∈ p.messages := hsuffix.subset List.mem_cons_self
  have hnodup : (m :: todo).Nodup := (hinv.nodup p hp).sublist hsuffix.sublist
  have hself := effectsOn_self heffects hadded
  have hother : ∀ m', m' ≠ m → s'.effectsOn m' = s.effectsOn m' := fun m' hne =>
    effectsOn_of_ne heffects hadded hne
  have hcoming : ∀ m' ∈ todo, s'.effectsOn m' = [] := by
    intro m' hm'
    have hne : m' ≠ m := by
      rintro rfl
      exact (List.nodup_cons.mp hnodup).1 hm'
    rw [hother m' hne]
    exact h.untouched p m todo hp htodo m' hm'
  refine
    { once := fun m' => ?_
      behind := fun m' hne => ?_
      untouched := fun q m₂ rest hq hrest m' hm' => ?_
      underWork := fun q m₂ rest hq hrest => ?_ }
  · -- What is done about the message is allowed, and nothing else is done.
    by_cases hm' : m' = m
    · rw [hm', hself]
      exact honce
    · rw [hother m' hm']
      exact h.once m'
  · -- Something was done about it, so it is one of the poll's.
    by_cases hm' : m' = m
    · refine .inr ⟨p', hp', ?_⟩
      rw [hm', hmessages]
      exact hmem
    · rw [hother m' hm'] at hne
      rw [hcursor]
      rcases h.behind m' hne with hstored | ⟨q, hq, hpolled⟩
      · exact .inl hstored
      · obtain rfl := Option.some.inj (hp.symm.trans hq)
        exact .inr ⟨p', hp', hmessages ▸ hpolled⟩
  · -- The messages to come are still untouched.
    obtain rfl := Option.some.inj (hp'.symm.trans hq)
    refine hcoming m' ?_
    rcases hnext with ⟨hstay, -⟩ | ⟨hgo, -⟩
    · rw [hstay] at hrest
      rw [(List.cons.inj hrest).2]
      exact hm'
    · rw [← hgo, hrest]
      exact List.mem_cons_of_mem _ hm'
  · -- The poll stays with the message, or goes on to the next.
    obtain rfl := Option.some.inj (hp'.symm.trans hq)
    rcases hnext with ⟨hstay, hallows⟩ | ⟨hgo, hstage⟩
    · rw [hstay] at hrest
      rw [← (List.cons.inj hrest).1, hself]
      exact hallows
    · -- Nothing was done yet about the next message.
      rw [hstage]
      refine hcoming m₂ ?_
      rw [← hgo, hrest]
      exact List.mem_cons_self

/-- A poll that begins finds nothing done about its messages. -/
theorem OnceInv.beginPoll (h : OnceInv mb s) (hidle : s.poll = none) (order : List JmapEmail)
    (nowIso : Text) (rules : List MailRuleRow) : OnceInv mb (s.beginPoll order nowIso rules) := by
  -- What something was done about is behind the cursor, and what is new is after it.
  have hbehind : ∀ m, s.effectsOn m ≠ [] →
      ∃ cursor, s.cursor = some cursor ∧ m.receivedAt ≤ cursor := by
    intro m hne
    rcases h.behind m hne with hstored | ⟨p, hp, -⟩
    · exact hstored
    · rw [hidle] at hp
      cases hp
  have hnew : ∀ m ∈ newEmails (order.take pageLimit) s.cursor, s.effectsOn m = [] := by
    intro m hm
    by_contra hne
    obtain ⟨cursor, hcursor, hle⟩ := hbehind m hne
    obtain ⟨-, cursor', hcursor', hlt⟩ := of_mem_newEmails hm
    obtain rfl := Option.some.inj (hcursor.symm.trans hcursor')
    exact absurd hlt (not_lt_of_ge hle)
  refine
    { once := h.once
      behind := fun m hne => .inl (hbehind m hne)
      untouched := fun p m todo hp htodo m' hm' => ?_
      underWork := fun p m todo hp htodo => ?_ }
  · -- All that is new is untouched, the first message included.
    obtain rfl := Option.some.inj hp
    change newEmails (order.take pageLimit) s.cursor = m :: todo at htodo
    refine hnew m' ?_
    rw [htodo]
    exact List.mem_cons_of_mem _ hm'
  · obtain rfl := Option.some.inj hp
    change newEmails (order.take pageLimit) s.cursor = m :: todo at htodo
    refine hnew m ?_
    rw [htodo]
    exact List.mem_cons_self

/-- A poll that ends, leaving a cursor that all its messages are behind or nothing done about
them, keeps it. -/
theorem OnceInv.endPoll (h : OnceInv mb s) (heffects : s'.effects = s.effects)
    (hidle : s'.poll = none)
    (hstored : ∀ cursor, s.cursor = some cursor →
      ∃ cursor', s'.cursor = some cursor' ∧ cursor ≤ cursor')
    (hpolled : ∀ p, s.poll = some p → ∀ m ∈ p.messages, s.effectsOn m ≠ [] →
      ∃ cursor', s'.cursor = some cursor' ∧ m.receivedAt ≤ cursor') :
    OnceInv mb s' := by
  have hsame : ∀ m, s'.effectsOn m = s.effectsOn m := by
    intro m
    unfold State.effectsOn
    rw [heffects]
  refine
    { once := fun m => by rw [hsame]; exact h.once m
      behind := fun m hne => .inl ?_
      untouched := fun p m todo hp => by rw [hidle] at hp; cases hp
      underWork := fun p m todo hp => by rw [hidle] at hp; cases hp }
  rw [hsame] at hne
  rcases h.behind m hne with ⟨cursor, hcursor, hle⟩ | ⟨p, hp, hm⟩
  · obtain ⟨cursor', hcursor', hforward⟩ := hstored cursor hcursor
    exact ⟨cursor', hcursor', hle.trans hforward⟩
  · exact hpolled p hp m hm hne

theorem allows_afterClassify (rules : List MailRuleRow) (m : JmapEmail) :
    (afterClassify mb rules m).Allows mb rules m [] := by
  unfold afterClassify
  split
  · next plan hplan =>
    refine ⟨rfl, rfl, ?_⟩
    unfold ruleCalls
    rw [hplan]
    rfl
  · exact ⟨Nat.zero_le 1, rfl, List.nil_prefix⟩

variable [DecidableEq Caller] {env : Env} {flags : AgentReply.Flags} {l : Label Caller}

theorem OnceInv.step (h : OnceInv mb s) (hinv : PollInv s) (hc : Unbroken s l)
    (hm : Moves mb env flags s l s') : OnceInv mb s' := by
  cases hm with
  | arrive m _ _ => exact h.keep rfl rfl rfl
  | leave m => exact h.keep rfl rfl rfl
  | restore m _ => exact h.keep rfl rfl rfl
  | reply l replies _ => exact h.keep rfl rfl rfl
  | poll order nowIso rules hidle _ _ => exact h.beginPoll hidle order nowIso rules
  | classify cursor rules messages todo m hpoll =>
    -- Before its rules apply, nothing was done about the message.
    have hnone : s.effectsOn m = [] := h.underWork _ m todo hpoll rfl
    refine h.work hinv [] hpoll rfl rfl rfl (List.append_nil _).symm rfl
      (fun e he => nomatch he) ?_ (.inl ⟨rfl, ?_⟩)
    · rw [List.append_nil]
      exact h.once m
    · rw [List.append_nil, hnone]
      exact allows_afterClassify rules m
  | act outcome cursor rules messages todo m call calls ids hpoll =>
    obtain ⟨hbumps, hhandOvers, hcalls⟩ := h.underWork _ m todo hpoll rfl
    -- The call is the next one of the rules.
    have hdone : (s.effectsOn m ++ [Effect.called m call outcome]).filterMap Effect.call? ++ calls =
        ruleCalls mb rules m := by
      rw [← hcalls, List.filterMap_append, List.append_assoc]
      rfl
    have hbumps' : (s.effectsOn m ++ [Effect.called m call outcome]).countP Effect.isBump = 0 := by
      rw [List.countP_append, hbumps]
      rfl
    have hhandOvers' :
        (s.effectsOn m ++ [Effect.called m call outcome]).countP Effect.isHandOver = 0 := by
      rw [List.countP_append, hhandOvers]
      rfl
    refine h.work hinv [.called m call outcome] hpoll rfl rfl rfl rfl rfl (fun e he => ?_) ⟨?_, ?_, rules, ?_⟩
      (.inl ⟨rfl, hbumps', hhandOvers', hdone⟩)
    · rw [List.mem_singleton.mp he]
      rfl
    · rw [hbumps']
      exact Nat.zero_le 1
    · rw [hhandOvers']
      exact Nat.zero_le 1
    · rw [← hdone]
      exact List.prefix_append _ _
  | bump ok cursor rules messages todo m ids hpoll =>
    obtain ⟨hbumps, hhandOvers, hcalls⟩ := h.underWork _ m todo hpoll rfl
    -- All its calls were made, and the counters come after them.
    rw [List.append_nil] at hcalls
    let added : List Effect := if ok then [.bumped m ids] else []
    have hbump : added.countP Effect.isBump ≤ 1 ∧ added.countP Effect.isHandOver = 0 ∧
        added.filterMap Effect.call? = [] ∧ ∀ e ∈ added, e.email = m := by
      cases ok with
      | true => exact ⟨le_refl 1, rfl, rfl, fun e he => by rw [List.mem_singleton.mp he]; rfl⟩
      | false =>
        have heq : added = [] := rfl
        rw [heq]
        exact ⟨Nat.zero_le 1, rfl, rfl, fun e he => nomatch he⟩
    obtain ⟨hone, hnone, hnocall, hadded⟩ := hbump
    have hbumps' : (s.effectsOn m ++ added).countP Effect.isBump ≤ 1 := by
      rw [List.countP_append, hbumps, Nat.zero_add]
      exact hone
    have hhandOvers' : (s.effectsOn m ++ added).countP Effect.isHandOver = 0 := by
      rw [List.countP_append, hhandOvers, hnone]
    have hcalls' : (s.effectsOn m ++ added).filterMap Effect.call? <+: ruleCalls mb rules m := by
      rw [List.filterMap_append, hnocall, List.append_nil]
      exact ⟨[], (List.append_nil _).trans hcalls⟩
    refine h.work hinv added hpoll rfl rfl rfl rfl rfl hadded ⟨hbumps', ?_, rules, hcalls'⟩
      (.inl ⟨rfl, hbumps', hhandOvers', hcalls'⟩)
    rw [hhandOvers']
    exact Nat.zero_le 1
  | handOff c cursor rules messages todo m replies hpoll _ =>
    -- The hand-over is the last that is done about the message.
    obtain ⟨hbumps, hhandOvers, hcalls⟩ := h.underWork _ m todo hpoll rfl
    let added : List Effect := if mb.ownerKind = .agent then [.handedOver m] else []
    have hhand : added.countP Effect.isBump = 0 ∧ added.countP Effect.isHandOver ≤ 1 ∧
        added.filterMap Effect.call? = [] ∧ ∀ e ∈ added, e.email = m := by
      by_cases hagent : mb.ownerKind = .agent
      · have heq : added = [.handedOver m] := if_pos hagent
        rw [heq]
        exact ⟨rfl, le_refl 1, rfl, fun e he => by rw [List.mem_singleton.mp he]; rfl⟩
      · have heq : added = [] := if_neg hagent
        rw [heq]
        exact ⟨rfl, Nat.zero_le 1, rfl, fun e he => nomatch he⟩
    obtain ⟨hnone, hone, hnocall, hadded⟩ := hhand
    refine h.work hinv added hpoll rfl rfl rfl rfl rfl hadded ⟨?_, ?_, rules, ?_⟩ (.inr ⟨rfl, rfl⟩)
    · rw [List.countP_append, hnone]
      exact hbumps
    · rw [List.countP_append, hhandOvers, Nat.zero_add]
      exact hone
    · rw [List.filterMap_append, hnocall, List.append_nil]
      exact hcalls
  | advance cursor rules messages stage hpoll =>
    -- The stored cursor covers all the messages of the poll.
    have hstored := hinv.stored hpoll
    refine h.endPoll rfl rfl (fun cursor' hcursor => ?_) fun p hp m hm _ => ?_
    · exact ⟨cursor, hstored, hinv.forward _ cursor' hpoll hcursor⟩
    · obtain rfl := Option.some.inj (hpoll.symm.trans hp)
      exact ⟨cursor, hstored, (hinv.between _ hpoll m hm).1⟩
  | breakOff l hbreak =>
    -- A poll that is not broken off in the middle has done nothing.
    have huntouched : ¬Touched s := by
      rcases hbreak with rfl | rfl | rfl
      · exact hc.resolve_left Bool.false_ne_true
      · exact hc.resolve_left Bool.false_ne_true
      · exact hc
    refine h.endPoll rfl rfl (fun cursor hcursor => ⟨cursor, hcursor, le_refl cursor⟩) ?_
    exact fun p hp m hm hne => absurd ⟨p, hp, m, hm, hne⟩ huntouched

theorem onceInv_of_reachable (h : (system mb env flags).ReachableUnder Unbroken s) :
    OnceInv mb s := by
  refine h.invariant (P := OnceInv mb) ?_ fun _ _ _ hreach hinv hc hs =>
    hinv.step (pollInv_of_reachable hreach.reachable) hc (moves_of_step hs)
  intro s h0
  obtain ⟨-, -, hpoll, -, -, heffects, -⟩ := h0
  -- Nothing was done about any message at first.
  have hnone : ∀ m, s.effectsOn m = [] := by
    intro m
    unfold State.effectsOn
    rw [heffects]
    rfl
  exact
    { once := fun m => by rw [hnone]; exact Once.nil mb m
      behind := fun m hne => absurd (hnone m) hne
      untouched := fun p m todo _ _ m' _ => hnone m'
      underWork := fun p m todo hp => by rw [hpoll] at hp; cases hp }

/-- **A message is processed at most once.** When no poll breaks off once something was done
about one of its messages, the engine calls made for a message are those of one application of
the rules, its hit counters are bumped at most once, and it is handed over at most once. At most
one reply is composed for it in any case. -/
theorem processed_at_most_once (h : (system mb env flags).ReachableUnder Unbroken s) :
    (∀ m, ∃ rules, s.callsFor m <+: ruleCalls mb rules m) ∧
    (∀ m, s.bumpsFor m ≤ 1) ∧ (∀ m, s.handOversOf m ≤ 1) ∧
    ∀ m : JmapEmail, s.replies.madeUnder mb.workspaceId
      (AgentReply.externalRef mb.replyRef m.ref.replyMsg) ≤ 1 := by
  have hinv := onceInv_of_reachable h
  refine ⟨fun m => (hinv.once m).2.2, fun m => (hinv.once m).1, fun m => (hinv.once m).2.1, ?_⟩
  intro m
  exact AgentReply.madeUnder_le_one ((toReplies mb env flags).reachable h.reachable) _ _

end

/-- A rule that marks what bob writes as read. -/
def sampleRule : MailRuleRow where
  id := "r"
  workspaceId := "ws"
  mailboxId := "mb"
  enabled := true
  priority := 10
  match? := .group (some [.condition .sender .contains "bob@".toList]) none
  actions := [⟨.markRead, none⟩]

/-- One message is worked through. -/
theorem processed_at_most_once_run : ∃ s : State ℕ,
    (system sampleMailbox ⟨[], true⟩ sampleFlags).ReachableUnder Unbroken s ∧
    s.callsFor (burstLetter 0) = [.setThreadRead] ∧ s.bumpsFor (burstLetter 0) = 1 ∧
    ((∀ m, ∃ rules, s.callsFor m <+: ruleCalls sampleMailbox rules m) ∧
      (∀ m, s.bumpsFor m ≤ 1) ∧ (∀ m, s.handOversOf m ≤ 1) ∧
      ∀ m : JmapEmail, s.replies.madeUnder sampleMailbox.workspaceId
        (AgentReply.externalRef sampleMailbox.replyRef m.ref.replyMsg) ≤ 1) := by
  have r0 : (system sampleMailbox ⟨[], true⟩ sampleFlags).ReachableUnder Unbroken sampleState :=
    .init (sampleState_init _)
  have r1 := r0.next (.poll [backlog] secondAfter []) trivial rfl
  have r2 := r1.next (.advance true) (.inl rfl) rfl
  have r3 := r2.next (.arrive (burstLetter 0)) trivial rfl
  have r4 := r3.next (.poll [burstLetter 0, backlog] secondAfter [sampleRule]) trivial rfl
  have r5 := r4.next (.classify true) (.inl rfl) rfl
  have r6 := r5.next (.act .applied) trivial rfl
  have r7 := r6.next (.bump true) trivial rfl
  have r8 := r7.next (.handOff 0) trivial rfl
  have r9 := r8.next (.advance true) (.inl rfl) rfl
  exact ⟨_, r9, rfl, rfl, processed_at_most_once r9⟩

/-- Of two new messages the classifier throws at the second: the next poll applies the rules to
the first again, and bumps their counters again. -/
theorem rules_applied_again : ∃ s : State ℕ,
    (system sampleMailbox ⟨[], true⟩ sampleFlags).Reachable s ∧
    s.bumpsFor (burstLetter 0) = 2 ∧
    s.callsFor (burstLetter 0) = [.setThreadRead, .setThreadRead] := by
  let poll : Label ℕ := .poll [burstLetter 0, burstLetter 1, backlog] secondAfter [sampleRule]
  let first : List (Label ℕ) := [poll, .classify true, .act .applied, .bump true, .handOff 0]
  let run := baseline ++ [.arrive (burstLetter 0), .arrive (burstLetter 1)] ++ first ++
    .classify false :: first
  have hrun : ((system sampleMailbox ⟨[], true⟩ sampleFlags).exec sampleState run).any (fun s =>
      s.bumpsFor (burstLetter 0) = 2 &&
        s.callsFor (burstLetter 0) = [.setThreadRead, .setThreadRead]) = true := by
    decide +kernel
  obtain ⟨s, hs, htwice⟩ := (Option.any_eq_true _ _).mp hrun
  rw [Bool.and_eq_true, decide_eq_true_eq, decide_eq_true_eq] at htwice
  exact ⟨s, System.exec_reachable (sampleState_init _) hs, htwice.1, htwice.2⟩

end Inbound
end EmailOps
