import EmailOps.Framework.Sweep
import EmailOps.Scheduling.SnoozeFrame

/-!
# Sweeps of the due snoozes

`surfaceDueSnoozes` reads a page of the active rows whose time has come, earliest first. A
row whose mailbox is gone, or whose thread the engine does not move, stays active and is on
the next page again.

* `queue` are the rows that are due, in the order they are read, and `surfaces` says which
  of them a sweep can surface.
* `queue_surfaceDueSnoozes`: a sweep is a `Sweep.pass` over the queue.
* `SnoozeRun.served_iff`: when the sweeps have surfaced all the rows that they can.
-/

namespace EmailOps
namespace Snooze

open Framework Jmap

/-! ### What a sweep can surface -/

/-- The rows due at a time, in the order a sweep reads them. -/
def queue (table : SnoozedThreads) (now : ℕ) : List SnoozedThread :=
  (table.rows.filter fun r => r.state = .active && r.snoozeUntil ≤ now).insertionSort
    fun r r' => r.snoozeUntil ≤ r'.snoozeUntil

/-- Is the row one that a sweep can surface: is its mailbox found, its thread moved and its
own write done? -/
def surfaces (settings : Settings) (configured : Bool) (fates : String → WakeFate)
    (engine : Text → Account) (row : SnoozedThread) : Bool :=
  match if (fates row.id).lookedUp then snoozeMailbox settings row else none with
  | none => false
  | some mailbox =>
    (moveThread configured engine mailbox.emailAddress row.threadId .inbox
      (fates row.id).exchange).2 && (fates row.id).stored

/-- The accounts have the same folders and the same messages, wherever these are. -/
def SameShape (engine engine' : Text → Account) : Prop :=
  ∀ address, (engine' address).mailboxes = (engine address).mailboxes ∧
    ∃ f : Email → Email, (∀ m, (f m).id = m.id ∧ (f m).threadId = m.threadId) ∧
      (engine' address).emails = (engine address).emails.map f

theorem SameShape.refl (engine : Text → Account) : SameShape engine engine :=
  fun _ => ⟨rfl, id, fun _ => ⟨rfl, rfl⟩, (List.map_id _).symm⟩

theorem SameShape.trans {engine engine' engine'' : Text → Account} (h : SameShape engine engine')
    (h' : SameShape engine' engine'') : SameShape engine engine'' := by
  intro address
  obtain ⟨hmailboxes, f, hf, hemails⟩ := h address
  obtain ⟨hmailboxes', g, hg, hemails'⟩ := h' address
  refine ⟨hmailboxes'.trans hmailboxes, g ∘ f, fun m => ?_, ?_⟩
  · exact ⟨(hg (f m)).1.trans (hf m).1, (hg (f m)).2.trans (hf m).2⟩
  · rw [hemails', hemails, List.map_map]

/-- Whether there is something to update does not depend on the folders it is in. -/
theorem updated_eq_nil_congr {a a' : Account} {f : Email → Email} {threadId : String}
    {x : Exchange} (hf : ∀ m, (f m).id = m.id ∧ (f m).threadId = m.threadId)
    (h : a'.emails = a.emails.map f) : updated a' threadId x = [] ↔ updated a threadId x = [] := by
  simp only [List.eq_nil_iff_forall_not_mem, mem_updated, h, List.mem_map]
  constructor
  · intro hnone m hm
    refine hnone (f m) ⟨hm.1, ⟨⟨m, hm.2.1.1, rfl⟩, ?_⟩, ?_⟩
    · rw [(hf m).2]
      exact hm.2.1.2
    · rw [(hf m).1]
      exact hm.2.2
  · rintro hnone _ ⟨hlisted, ⟨⟨m, hm, rfl⟩, hthread⟩, hupdates⟩
    rw [(hf m).2] at hthread
    rw [(hf m).1] at hupdates
    exact hnone m ⟨hlisted, ⟨hm, hthread⟩, hupdates⟩

/-- Nor does the answer to a move. -/
theorem moveThreadToFolder_snd_congr {a a' : Account} {f : Email → Email} {configured : Bool}
    {threadId : String} {folder : MailFolder} {x : Exchange}
    (hf : ∀ m, (f m).id = m.id ∧ (f m).threadId = m.threadId)
    (hmailboxes : a'.mailboxes = a.mailboxes) (h : a'.emails = a.emails.map f) :
    (moveThreadToFolder configured a' threadId folder x).2 =
      (moveThreadToFolder configured a threadId folder x).2 := by
  have htarget : target? a' folder x = target? a folder x := by
    unfold target?
    rw [mailboxFor_congr hmailboxes]
  unfold moveThreadToFolder
  rw [htarget]
  split
  · rfl
  · split
    · rfl
    · rw [Bool.eq_iff_iff, setThread_snd, setThread_snd, Ne, Ne, updated_eq_nil_congr hf h]

section Sweeps

variable {settings : Settings} {configured : Bool} {fates : String → WakeFate} {desk : Desk}

/-- What can be surfaced can be surfaced wherever the messages are. -/
theorem surfaces_congr {engine engine' : Text → Account} (h : SameShape engine engine')
    (row : SnoozedThread) :
    surfaces settings configured fates engine' row =
      surfaces settings configured fates engine row := by
  unfold surfaces moveThread
  split
  · rfl
  · next mailbox hmailbox =>
    obtain ⟨hmailboxes, f, hf, hemails⟩ := h mailbox.emailAddress
    dsimp only
    rw [moveThreadToFolder_snd_congr hf hmailboxes hemails]

theorem sameShape_wake (row : SnoozedThread) :
    SameShape desk.engine (wake settings configured fates desk row).1.engine := by
  intro address
  obtain ⟨hmailboxes, hemails⟩ := @emails_wake settings configured address fates desk row
  refine ⟨hmailboxes, _, fun m => ?_, hemails⟩
  split
  · exact ⟨id_moveInto, threadId_moveInto⟩
  · exact ⟨rfl, rfl⟩

/-- A round surfaces the row when it can. -/
theorem table_wake (row : SnoozedThread) :
    (wake settings configured fates desk row).1.table =
      if surfaces settings configured fates desk.engine row then desk.table.claim row.id
      else desk.table := by
  unfold wake surfaces
  dsimp only
  cases if (fates row.id).lookedUp then snoozeMailbox settings row else none with
  | none => rfl
  | some mailbox =>
    dsimp only
    rw [← Bool.not_and]
    by_cases hdone : ((moveThread configured desk.engine mailbox.emailAddress row.threadId .inbox
        (fates row.id).exchange).2 && (fates row.id).stored) = true
    · rw [if_pos hdone, if_neg (by simp [hdone])]
    · rw [if_neg hdone, if_pos (by simp [hdone])]

/-- A row once the rows of some ids are surfaced. -/
def surfaceIf (ids : List String) (row : SnoozedThread) : SnoozedThread :=
  if ids.contains row.id ∧ row.state = .active then { row with state := .surfaced } else row

theorem map_surfaceIf_nil (rows : List SnoozedThread) : rows.map (surfaceIf []) = rows := by
  conv_rhs => rw [← List.map_id rows]
  refine List.map_congr_left fun row _ => ?_
  unfold surfaceIf
  rw [if_neg fun h => by simp at h]
  rfl

theorem surfaceIf_comp (ids ids' : List String) (row : SnoozedThread) :
    surfaceIf ids' (surfaceIf ids row) = surfaceIf (ids ++ ids') row := by
  unfold surfaceIf
  by_cases hactive : row.state = .active
  · by_cases hid : row.id ∈ ids
    · simp [hactive, hid]
    · simp [hactive, hid]
  · simp [hactive]

/-- **What a sweep leaves of the table**: of the rows it has read, those that can be surfaced
are. -/
theorem rows_foldl_wake (page : List SnoozedThread) (n : ℕ) :
    let done := page.foldl
      (fun done row =>
        let woken := wake settings configured fates done.1 row
        (woken.1, if woken.2 then done.2 + 1 else done.2)) (desk, n)
    SameShape desk.engine done.1.engine ∧
      done.1.table.rows = desk.table.rows.map (surfaceIf
        ((page.filter (surfaces settings configured fates desk.engine)).map (·.id))) := by
  induction page generalizing desk n with
  | nil => exact ⟨.refl _, (map_surfaceIf_nil _).symm⟩
  | cons row page ih =>
    have hshape := @sameShape_wake settings configured fates desk row
    obtain ⟨hrest, hrows⟩ := @ih (wake settings configured fates desk row).1
      (if (wake settings configured fates desk row).2 then n + 1 else n)
    refine ⟨hshape.trans hrest, ?_⟩
    simp only [List.foldl_cons]
    rw [hrows, table_wake]
    -- The later rows are as before the round.
    have hfilter : page.filter (surfaces settings configured fates
        (wake settings configured fates desk row).1.engine) =
          page.filter (surfaces settings configured fates desk.engine) :=
      List.filter_congr fun r _ => surfaces_congr hshape r
    rw [hfilter]
    cases hsurfaces : surfaces settings configured fates desk.engine row with
    | false =>
      rw [List.filter_cons_of_neg (by simp [hsurfaces])]
      rfl
    | true =>
      have hclaim : (desk.table.claim row.id).rows = desk.table.rows.map (surfaceIf [row.id]) := by
        refine List.map_congr_left fun r _ => ?_
        unfold surfaceIf
        simp
      rw [List.filter_cons_of_pos hsurfaces, if_pos rfl, hclaim, List.map_map]
      refine List.map_congr_left fun r _ => ?_
      exact surfaceIf_comp _ _ r

/-! ### A sweep of the queue -/

/-- The rows that are due later come after those due at a time. -/
theorem queue_split (table : SnoozedThreads) {now now' : ℕ} (h : now ≤ now') :
    ∃ later, queue table now' = queue table now ++ later := by
  refine Sweep.insertionSort_extend (fun r _ hr => ?_) fun a _ b _ ha hb hnot hle => ?_
  · simp only [Bool.and_eq_true, decide_eq_true_eq] at hr ⊢
    exact ⟨hr.1, hr.2.trans h⟩
  · -- A row that is not due yet is later than one that is.
    simp only [Bool.and_eq_true, decide_eq_true_eq] at ha hb
    simp only [Bool.and_eq_false_iff, decide_eq_false_iff_not] at hnot
    rcases hnot with hnot | hnot
    · exact hnot hb.1
    · exact hnot (hle.trans ha.2)

theorem nodup_queue (table : SnoozedThreads) (now : ℕ) : ((queue table now).map (·.id)).Nodup := by
  unfold queue
  rw [((List.perm_insertionSort _ _).map _).nodup_iff]
  exact table.ids.sublist (List.Sublist.map _ List.filter_sublist)

/-- The queue once rows are surfaced. -/
theorem queue_surfaceIf {table table' : SnoozedThreads} {ids : List String} (now : ℕ)
    (h : table'.rows = table.rows.map (surfaceIf ids)) :
    queue table' now = (queue table now).filter fun row => !ids.contains row.id := by
  unfold queue
  rw [Sweep.filter_insertionSort, h, List.filter_map, List.filter_filter]
  congr 1
  -- An active row is one that was active and is not surfaced.
  have hfilter : table.rows.filter ((fun r => decide (r.state = .active) &&
        decide (r.snoozeUntil ≤ now)) ∘ surfaceIf ids) =
      table.rows.filter fun row => !ids.contains row.id &&
        (decide (row.state = .active) && decide (row.snoozeUntil ≤ now)) := by
    refine List.filter_congr fun row _ => ?_
    unfold surfaceIf
    by_cases hactive : row.state = .active
    · by_cases hid : row.id ∈ ids <;> simp [hactive, hid]
    · simp [hactive]
  rw [hfilter]
  conv_rhs => rw [← List.map_id (table.rows.filter _)]
  refine List.map_congr_left fun row hrow => ?_
  have hid := (List.mem_filter.mp hrow).2
  unfold surfaceIf
  rw [if_neg]
  · rfl
  · rintro ⟨hmem, -⟩
    rw [hmem] at hid
    cases hid

/-- **A sweep is a pass over the queue**, also when more rows are due by then. -/
theorem queue_surfaceDueSnoozes {now now' : ℕ} (h : now ≤ now') (take : ℕ) :
    queue (surfaceDueSnoozes settings configured now' take fates desk).1.table now =
      Sweep.pass take (fun row => !surfaces settings configured fates desk.engine row)
        (queue desk.table now) := by
  obtain ⟨later, hlater⟩ := queue_split desk.table h
  obtain ⟨-, hrows⟩ := @rows_foldl_wake settings configured fates desk
    (desk.table.due now' take) 0
  have hkeys := nodup_queue desk.table now'
  rw [hlater] at hkeys
  rw [← Sweep.filter_worked _ _ hkeys]
  refine (queue_surfaceIf now hrows).trans ?_
  have hpage : desk.table.due now' take = (queue desk.table now ++ later).take take := by
    rw [← hlater]
    rfl
  rw [hpage]
  simp only [Bool.not_not]

end Sweeps

/-! ### Sweep after sweep -/

/-- Sweeps one after the other, with no other change: what becomes of a row stays the same.
The first is at the time `now`, and the others are not before it. -/
structure SnoozeRun where
  settings : Settings
  configured : Bool
  fates : String → WakeFate
  desk : Desk
  take : ℕ
  now : ℕ
  times : ℕ → ℕ
  le_times : ∀ k, now ≤ times k

namespace SnoozeRun

variable (run : SnoozeRun)

/-- The state after some sweeps. -/
def after : ℕ → Desk
  | 0 => run.desk
  | k + 1 =>
    (surfaceDueSnoozes run.settings run.configured (run.times k) run.take run.fates
      (after k)).1

/-- The rows that are due at the beginning. -/
def due : List SnoozedThread :=
  queue run.desk.table run.now

/-- Is the row one that no sweep can surface? -/
def stuck (row : SnoozedThread) : Bool :=
  !surfaces run.settings run.configured run.fates run.desk.engine row

/-- The sweeps that should be enough. -/
def sweeps : ℕ :=
  Sweep.needed run.take run.due.length

/-- **What the sweeps should do**: surface every due row that can be surfaced. -/
def Served : Prop :=
  ∀ row ∈ run.due, run.stuck row = false →
    { row with state := .surfaced } ∈ (run.after run.sweeps).table.rows

/-- **The condition**: the due rows that the sweeps do not get to are stuck. -/
def Reached : Prop :=
  ∀ row ∈ run.due.drop (Sweep.covered run.take run.stuck run.due run.sweeps), run.stuck row = true

variable {run}

theorem mem_due {table : SnoozedThreads} {now : ℕ} {row : SnoozedThread} :
    row ∈ queue table now ↔ row ∈ table.rows ∧ row.state = .active ∧ row.snoozeUntil ≤ now := by
  unfold queue
  rw [List.mem_insertionSort, List.mem_filter, Bool.and_eq_true, decide_eq_true_eq,
    decide_eq_true_eq]

/-- **What some sweeps leave**: the messages they had, a swept queue, and of the other rows
nothing is changed. -/
theorem after_spec (k : ℕ) :
    SameShape run.desk.engine (run.after k).engine ∧
      Sweep.Swept run.take run.stuck run.due k (queue (run.after k).table run.now) ∧
      ∃ ids, (run.after k).table.rows = run.desk.table.rows.map (surfaceIf ids) := by
  induction k with
  | zero => exact ⟨.refl _, .start, [], (map_surfaceIf_nil _).symm⟩
  | succ k ih =>
    obtain ⟨hshape, hswept, ids, hids⟩ := ih
    obtain ⟨hmoved, hrows⟩ := @rows_foldl_wake run.settings run.configured run.fates (run.after k)
      ((run.after k).table.due (run.times k) run.take) 0
    let page := (run.after k).table.due (run.times k) run.take
    let surfaced := page.filter
      (surfaces run.settings run.configured run.fates (run.after k).engine)
    refine ⟨hshape.trans hmoved, ?_, ids ++ surfaced.map (·.id), ?_⟩
    · have hpass := @queue_surfaceDueSnoozes run.settings run.configured run.fates (run.after k)
        run.now (run.times k) (run.le_times k) run.take
      -- What is stuck is stuck wherever the messages are.
      have hstuck :
          (fun row => !surfaces run.settings run.configured run.fates (run.after k).engine row) =
            run.stuck := by
        funext row
        unfold stuck
        rw [surfaces_congr hshape]
      rw [hstuck] at hpass
      have hnext := hswept.next (List.forall_mem_nil fun row => run.stuck row = true)
      rw [List.append_nil, ← hpass] at hnext
      exact hnext
    · refine hrows.trans ?_
      rw [hids, List.map_map]
      exact List.map_congr_left fun row _ => surfaceIf_comp _ _ row

/-- A due row is surfaced or still due. -/
theorem surfaced_or_due {row : SnoozedThread} (hrow : row ∈ run.due) (k : ℕ) :
    { row with state := .surfaced } ∈ (run.after k).table.rows ∨
      row ∈ queue (run.after k).table run.now := by
  obtain ⟨-, -, ids, hids⟩ := run.after_spec k
  obtain ⟨hmem, hactive, hdue⟩ := mem_due.mp hrow
  have hafter : surfaceIf ids row ∈ (run.after k).table.rows := by
    rw [hids]
    exact List.mem_map_of_mem hmem
  unfold surfaceIf at hafter
  split at hafter
  · exact .inl hafter
  · exact .inr (mem_due.mpr ⟨hafter, hactive, hdue⟩)

/-- **When the sweeps serve all that they can.** -/
theorem served_iff : run.Served ↔ run.Reached := by
  obtain ⟨-, hswept, ids, hids⟩ := run.after_spec run.sweeps
  refine Iff.trans ?_ (Sweep.drained_iff hswept)
  constructor
  · intro hserved row hrow
    by_contra hstuck
    -- The row is still active, and was due.
    obtain ⟨hmem, hactive, -⟩ := mem_due.mp hrow
    have hdue : row ∈ run.due := by
      rw [queue_surfaceIf run.now hids] at hrow
      exact (List.mem_filter.mp hrow).1
    have hsurfaced := hserved row hdue (by simpa using hstuck)
    have heq := SnoozedThreads.eq_of_id_eq hmem hsurfaced rfl
    rw [heq] at hactive
    cases hactive
  · intro hall row hrow hstuck
    rcases run.surfaced_or_due hrow run.sweeps with h | h
    · exact h
    · rw [hall row h] at hstuck
      cases hstuck

end SnoozeRun

end Snooze
end EmailOps
