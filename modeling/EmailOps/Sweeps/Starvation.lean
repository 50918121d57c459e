import EmailOps.Sweeps.Approvals
import EmailOps.Sweeps.Mailboxes
import EmailOps.Sweeps.Snoozes

/-!
# Which sweeps starve

Three workers of the backend sweep in bounded pages, and each leaves in its place a row that
it can do nothing for. `SweepRun.serves_iff_reached` says for all of them when `⌈n / L⌉` sweeps with
no other change process every due row that can be processed.

* The rows that stay in front of the due snoozes are those whose mailbox is gone or whose
  move is refused; in front of the mailboxes, the idle ones and those that do not answer.
  Each of them takes its place on every page (`Sweep.covered`).
* In front of the approvals every item stays: those that are reminded of, too. The sweeps
  never get past the first page.
-/

namespace EmailOps
namespace Sweeps

open Framework

/-- Sweeps of one of the workers, one after the other, with no other change. -/
inductive SweepRun where
  | snoozes (run : Snooze.SnoozeRun)
  | mailboxes (run : Inbound.MailboxRun)
  | approvals (run : StaleApprovals.ApprovalRun)

/-- **What the sweeps should do**: process every due row that can be processed. -/
def SweepRun.Served : SweepRun → Prop
  | .snoozes run => run.Served
  | .mailboxes run => run.Served
  | .approvals run => run.Served

/-- **The condition**: the due rows that the pages do not get to are stuck. -/
def SweepRun.Reached : SweepRun → Prop
  | .snoozes run => run.Reached
  | .mailboxes run => run.Reached
  | .approvals run => run.Reached

/-- **When bounded sweeps do not starve**, for any rows, any bound of the page and any rows
that are stuck. -/
theorem SweepRun.serves_iff_reached (run : SweepRun) : run.Served ↔ run.Reached := by
  cases run with
  | snoozes run => exact run.served_iff
  | mailboxes run => exact run.served_iff
  | approvals run => exact run.served_iff

/-! ### One sweep of each worker that starves -/

section Examples

/-- A row that comes after `n` others. -/
def behind {Row : Type*} (n : ℕ) (row : ℕ → Row) (last : Row) : List Row :=
  (List.range n).map row ++ [last]

section Behind

variable {Row : Type*} {n : ℕ} {row : ℕ → Row} {last : Row}

theorem forall_mem_behind {P : Row → Prop} :
    (∀ a ∈ behind n row last, P a) ↔ (∀ k < n, P (row k)) ∧ P last := by
  unfold behind
  constructor
  · exact fun h => ⟨fun k hk => h _ (by simpa using .inl ⟨k, hk, rfl⟩), h _ (by simp)⟩
  · rintro ⟨hfirst, hlast⟩ a ha
    rcases List.mem_append.mp ha with ha | ha
    · obtain ⟨k, hk, rfl⟩ := List.mem_map.mp ha
      exact hfirst k (List.mem_range.mp hk)
    · rw [List.mem_singleton.mp ha]
      exact hlast

/-- Such rows are in order, and all of them in the queue. -/
theorem sort_behind {key : Row → ℕ} {p : Row → Bool} (h : ∀ k, key (row k) = 0)
    (hp : ∀ a ∈ behind n row last, p a = true) :
    ((behind n row last).filter p).insertionSort (fun a b => key a ≤ key b) =
      behind n row last := by
  rw [List.filter_eq_self.mpr hp]
  have hfirst : ∀ a ∈ (List.range n).map row, ∀ b, key a ≤ key b := by
    intro a ha b
    obtain ⟨k, -, rfl⟩ := List.mem_map.mp ha
    exact (h k).trans_le (Nat.zero_le _)
  refine List.Pairwise.insertionSort_eq (List.pairwise_append.mpr ⟨?_, ?_, ?_⟩)
  · exact List.pairwise_of_forall_mem_list fun a ha b _ => hfirst a ha b
  · exact List.pairwise_singleton _ _
  · exact fun a ha b _ => hfirst a ha b

theorem take_behind : (behind n row last).take n = (List.range n).map row := by
  unfold behind
  exact List.take_left' (by simp)

theorem mem_drop_behind : last ∈ (behind n row last).drop n := by
  unfold behind
  rw [List.drop_left' (by simp)]
  exact List.mem_singleton.mpr rfl

/-- A different id for each number. -/
def idOf (k : ℕ) : String :=
  String.ofList (List.replicate k 'r')

theorem nodup_behind {id : Row → String} (h : ∀ k, id (row k) = idOf k)
    (hlast : id last = "last") : ((behind n row last).map id).Nodup := by
  have hne : ∀ k, idOf k ≠ "last" := by
    intro k heq
    have hchars : List.replicate k 'r' = ['l', 'a', 's', 't'] := String.ofList_injective heq
    have hmem : 'l' ∈ List.replicate k 'r' := by
      rw [hchars]
      exact List.mem_cons_self
    exact absurd (List.eq_of_mem_replicate hmem) (by decide)
  unfold behind
  rw [List.map_append, List.map_map, List.nodup_append]
  refine ⟨List.Nodup.map_on ?_ List.nodup_range, List.nodup_singleton _, ?_⟩
  · intro k _ k' _ heq
    simp only [Function.comp_apply, h] at heq
    have hlength := congrArg List.length (String.ofList_injective heq)
    simpa using hlength
  · rintro _ hid _ hid'
    obtain ⟨k, -, rfl⟩ := List.mem_map.mp hid
    simp only [List.map_cons, List.map_nil, List.mem_singleton] at hid'
    rw [hid', hlast, Function.comp_apply, h]
    exact hne k

end Behind

/-- Two snoozes are due, and the mailbox of the first is gone. -/
def goneFirst : Snooze.SnoozeRun where
  settings := Snooze.adasSettings
  configured := true
  fates _ := ⟨true, .smooth, true⟩
  desk :=
    { Snooze.adasDesk [Snooze.question] with
      table := ⟨[⟨"s1", "acme", "gone", "t0", 5, none, none, .active, 0⟩,
        ⟨"s2", "acme", "own", "t1", 10, none, none, .active, 0⟩], by decide⟩ }
  take := 1
  now := 10
  times k := 10 + k
  le_times k := Nat.le_add_right 10 k

/-- A page of idle mailboxes. -/
def idle (k : ℕ) : Inbound.MailboxRow :=
  ⟨idOf k, "acme", "idle@acme.com".toList, "stalwart", true,
    some "1970-01-01T00:00:00Z".toList, 0⟩

/-- A mailbox with a new message. -/
def busy : Inbound.MailboxRow :=
  ⟨"last", "acme", "ada@acme.com".toList, "stalwart", true,
    some "1970-01-01T00:00:00Z".toList, 1⟩

def idleFirst : Inbound.MailboxRun where
  mail :=
    { page := fun address =>
        if address = "ada@acme.com".toList then
          some [⟨1, "e1", "t1", none, [], [], "1970-01-01T00:00:01Z".toList, none⟩]
        else some []
      classifies := fun _ _ => true
      stored := fun _ => true
      toISOString := fun _ => "1970-01-01T00:00:00.002Z".toList
      toISOString_ne_nil := fun _ => by decide }
  rows := behind Inbound.Mail.sweepTake idle busy
  ids := nodup_behind (fun _ => rfl) rfl
  take := Inbound.Mail.sweepTake
  times k := k + 2
  strictMono _ _ h := Nat.add_lt_add_right h 2
  updatedAt_lt := forall_mem_behind.mpr ⟨fun _ _ => Nat.zero_lt_two, Nat.one_lt_two⟩

/-- The instant of a sweep, and an instant an hour before. -/
def sweptAt : Text := "1970-01-03T00:00:01.000Z".toList

def remindedAt : Text := "1970-01-02T23:00:01.000Z".toList

/-- A page of items that were reminded of an hour ago. -/
def waiting (k : ℕ) : StaleApprovals.SweepRow :=
  ⟨idOf k, "acme", .pending, 0,
    .obj [("notify".toList, .obj [("lastRemindedAt".toList, .str remindedAt)])]⟩

/-- An item that was never reminded of. -/
def fresh : StaleApprovals.SweepRow :=
  ⟨"last", "acme", .pending, 1, .null⟩

def waitingFirst : StaleApprovals.ApprovalRun where
  locale :=
    { toISOString := fun _ => sweptAt
      parseDate := fun text =>
        if text = sweptAt then some 172801000
        else if text = remindedAt then some 169201000
        else none
      localeCompare := fun _ _ => .eq }
  parseDate_nil := rfl
  delivered := true
  stamps _ := true
  rows := behind StaleApprovals.SWEEP_SCAN_LIMIT waiting fresh
  ids := nodup_behind (fun _ => rfl) rfl
  take := StaleApprovals.SWEEP_SCAN_LIMIT
  now := 172801000
  times _ := 172801000
  le_times _ := le_refl _
  dates _ := rfl

theorem waitingFirst_stale :
    StaleApprovals.stale waitingFirst.now waitingFirst.rows =
      behind StaleApprovals.SWEEP_SCAN_LIMIT waiting fresh := by
  refine sort_behind (fun _ => rfl) (forall_mem_behind.mpr ⟨fun k _ => ?_, ?_⟩)
  · simp [waiting, waitingFirst, StaleApprovals.STALE_AFTER_MS]
  · simp [fresh, waitingFirst, StaleApprovals.STALE_AFTER_MS]

theorem idleFirst_due : idleFirst.due = behind Inbound.Mail.sweepTake idle busy :=
  sort_behind (fun _ => rfl) (forall_mem_behind.mpr ⟨fun _ _ => rfl, rfl⟩)

/-- **Each of the sweeps starves**: behind a snooze whose mailbox is gone, behind a page of
idle mailboxes, and behind a page of items that were reminded of. -/
theorem sweeps_starve :
    ¬(SweepRun.snoozes goneFirst).Served ∧ ¬(SweepRun.mailboxes idleFirst).Served ∧
      ¬(SweepRun.approvals waitingFirst).Served := by
  refine ⟨?_, ?_, ?_⟩
  · have hrow : (⟨"s2", "acme", "own", "t1", 10, none, none, .active, 0⟩ : Snooze.SnoozedThread) ∈
        goneFirst.due.drop goneFirst.take := by decide
    exact fun h => Sweep.starved (by decide) hrow (by decide) _ (Snooze.SnoozeRun.served_iff.mp h)
  · have hrow : busy ∈ idleFirst.due.drop Inbound.Mail.sweepTake := by
      rw [idleFirst_due]
      exact mem_drop_behind
    have hfront : ∀ row ∈ idleFirst.due.take Inbound.Mail.sweepTake,
        idleFirst.mail.stuck row = true := by
      rw [idleFirst_due, take_behind]
      intro row hrow
      obtain ⟨k, -, rfl⟩ := List.mem_map.mp hrow
      rfl
    exact fun h => Sweep.starved hfront hrow (by decide) _ (Inbound.MailboxRun.served_iff.mp h)
  · intro h
    have hrow : fresh ∈ (StaleApprovals.stale waitingFirst.now waitingFirst.rows).drop
        StaleApprovals.SWEEP_SCAN_LIMIT := by
      rw [waitingFirst_stale]
      exact mem_drop_behind
    have hstuck := StaleApprovals.ApprovalRun.served_iff.mp h fresh hrow rfl
    cases hstuck

end Examples

end Sweeps
end EmailOps
