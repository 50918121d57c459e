import EmailOps.Email.Reading
import EmailOps.Framework.Sweep

/-!
# Sweeps of the approvals that wait

The hourly sweep reads a page of the pending items that are over a day old, oldest first, and
keeps those that were not reminded of within the last day. It posts one message about them
and stamps each of them. A reminded item stays pending, and stays where it is in the order.

* `runSweep` is the sweep, over `readLastReminded` and `mergeNotifyStamp`.
* `rows_runSweep`: it stamps the items of its page that are due, and changes nothing else.
* `ApprovalRun.served_iff`: when the sweeps have reminded of every item that was due.
-/

namespace EmailOps
namespace StaleApprovals

open Framework

/-! ### The stamp of a reminder -/

/-- A property of an object is set: in its place, or as the last. -/
def setKey (fields : List (Text × Json)) (key : Text) (v : Json) : List (Text × Json) :=
  match fields with
  | [] => [(key, v)]
  | (k, w) :: fields => if k = key then (key, v) :: fields else (k, w) :: setKey fields key v

/-- The fields of a record, none of anything else. -/
def recordFields : Option Json → List (Text × Json)
  | some (.obj fields) => fields
  | _ => []

/-- `readLastReminded`. -/
def readLastReminded (locale : Locale) (payload : Json) : Option ℕ :=
  match Json.get (recordFields (Json.get (recordFields (some payload)) "notify".toList))
    "lastRemindedAt".toList with
  | some (.str raw) => if raw = [] then none else locale.parseDate raw
  | _ => none

/-- `mergeNotifyStamp`. -/
def mergeNotifyStamp (locale : Locale) (payload : Json) (time : ℕ) : Json :=
  let base := recordFields (some payload)
  let notify := recordFields (Json.get base "notify".toList)
  .obj (setKey base "notify".toList
    (.obj (setKey notify "lastRemindedAt".toList (.str (locale.toISOString time)))))

theorem get_setKey (fields : List (Text × Json)) (key : Text) (v : Json) :
    Json.get (setKey fields key v) key = some v := by
  unfold Json.get
  induction fields with
  | nil => simp [setKey]
  | cons field fields ih =>
    unfold setKey
    split
    · simp
    · next hne =>
      have hother : (key == field.1) = false := beq_eq_false_iff_ne.mpr fun h => hne h.symm
      rw [List.lookup_cons, hother]
      exact ih

/-- **What is stamped is read back**, where the time is written as a date. -/
theorem readLastReminded_mergeNotifyStamp {locale : Locale} (payload : Json) {time : ℕ}
    (hdate : locale.parseDate (locale.toISOString time) = some time)
    (hnil : locale.parseDate [] = none) :
    readLastReminded locale (mergeNotifyStamp locale payload time) = some time := by
  have hne : locale.toISOString time ≠ [] := by
    intro h
    rw [h, hnil] at hdate
    cases hdate
  unfold readLastReminded mergeNotifyStamp
  simp only [recordFields, get_setKey]
  rw [if_neg hne, hdate]

/-! ### The sweep -/

/-- An item must be at least this old before it escalates. -/
def STALE_AFTER_MS : ℕ := 24 * 60 * 60 * 1000

/-- It is reminded of at most once per this interval. -/
def REMIND_INTERVAL_MS : ℕ := 24 * 60 * 60 * 1000

/-- The bound of a sweep's read. -/
def SWEEP_SCAN_LIMIT : ℕ := 500

/-- A row of `agentInboxItem`, as far as the sweep reads it. -/
structure SweepRow where
  id : String
  workspaceId : String
  state : AgentInboxState
  createdAt : ℕ
  payload : Json

/-- The rows that are pending and over a day old, in the order a sweep reads them. -/
def stale (now : ℕ) (rows : List SweepRow) : List SweepRow :=
  (rows.filter fun r => r.state = .pending && r.createdAt + STALE_AFTER_MS < now).insertionSort
    fun r r' => r.createdAt ≤ r'.createdAt

/-- Was the item never reminded of, or too long ago? -/
def isDue (locale : Locale) (now : ℕ) (r : SweepRow) : Bool :=
  match readLastReminded locale r.payload with
  | none => true
  | some last => last + REMIND_INTERVAL_MS < now

/-- The stamp of one item: the rows afterwards. -/
def stamp (locale : Locale) (now : ℕ) (rows : List SweepRow) (r : SweepRow) : List SweepRow :=
  rows.map fun row =>
    if row.id = r.id ∧ row.workspaceId = r.workspaceId ∧ row.state = .pending then
      { row with payload := mergeNotifyStamp locale r.payload now }
    else row

/-- `runSweep`: the rows afterwards, and the number of items it says it has reminded of.
`delivered` is what the notifier answers, and `stamps` says which updates do not throw. -/
def runSweep (locale : Locale) (delivered : Bool) (stamps : String → Bool) (now take : ℕ)
    (rows : List SweepRow) : List SweepRow × ℕ :=
  let due := ((stale now rows).take take).filter (isDue locale now)
  if due = [] then (rows, 0)
  else if !delivered then (rows, 0)
  else
    due.foldl
      (fun done r => if stamps r.id then (stamp locale now done.1 r, done.2 + 1) else done)
      (rows, 0)

/-! ### What a sweep does -/

section Sweeps

variable {locale : Locale} {delivered : Bool} {stamps : String → Bool} {now now' take : ℕ}
  {rows : List SweepRow}

theorem mem_stale {row : SweepRow} :
    row ∈ stale now rows ↔
      row ∈ rows ∧ row.state = .pending ∧ row.createdAt + STALE_AFTER_MS < now := by
  unfold stale
  rw [List.mem_insertionSort, List.mem_filter, Bool.and_eq_true, decide_eq_true_eq,
    decide_eq_true_eq]

theorem nodup_stale (hids : (rows.map (·.id)).Nodup) : ((stale now rows).map (·.id)).Nodup := by
  unfold stale
  rw [((List.perm_insertionSort _ _).map _).nodup_iff]
  exact hids.sublist (List.Sublist.map _ List.filter_sublist)

/-- The rows that are stale later come after those that are stale now. -/
theorem stale_split (rows : List SweepRow) (h : now ≤ now') :
    ∃ later, stale now' rows = stale now rows ++ later := by
  refine Sweep.insertionSort_extend (fun r _ hr => ?_) fun a _ b _ ha hb hnot hle => ?_
  · simp only [Bool.and_eq_true, decide_eq_true_eq] at hr ⊢
    exact ⟨hr.1, lt_of_lt_of_le hr.2 h⟩
  · -- A row that is not stale yet is younger than one that is.
    simp only [Bool.and_eq_true, decide_eq_true_eq] at ha hb
    simp only [Bool.and_eq_false_iff, decide_eq_false_iff_not] at hnot
    rcases hnot with hnot | hnot
    · exact hnot hb.1
    · exact hnot (lt_of_le_of_lt (Nat.add_le_add_right hle _) ha.2)

/-- A row with another payload is the same row to a sweep's read. -/
def SameRow (row row' : SweepRow) : Prop :=
  ∃ payload, row' = { row with payload := payload }

theorem stale_map {f : SweepRow → SweepRow} (h : ∀ row ∈ rows, SameRow row (f row)) :
    stale now (rows.map f) = (stale now rows).map f := by
  unfold stale
  have hselect : (rows.map f).filter (fun r => decide (r.state = .pending) &&
        decide (r.createdAt + STALE_AFTER_MS < now)) =
      (rows.filter fun r => decide (r.state = .pending) &&
        decide (r.createdAt + STALE_AFTER_MS < now)).map f := by
    rw [List.filter_map]
    congr 1
    refine List.filter_congr fun row hrow => ?_
    obtain ⟨payload, hrow'⟩ := h row hrow
    simp only [Function.comp_apply, hrow']
  rw [hselect]
  refine (List.map_insertionSort _ _ f _ fun a ha b hb => ?_).symm
  obtain ⟨payload, ha'⟩ := h a (List.mem_filter.mp ha).1
  obtain ⟨payload', hb'⟩ := h b (List.mem_filter.mp hb).1
  rw [ha', hb']

theorem isDue_mono {row : SweepRow} (h : now ≤ now') (hdue : isDue locale now row = true) :
    isDue locale now' row = true := by
  unfold isDue at *
  cases hlast : readLastReminded locale row.payload with
  | none => rfl
  | some last =>
    simp only [hlast, decide_eq_true_eq] at hdue ⊢
    exact lt_of_lt_of_le hdue h

/-- A row once the items of some ids are stamped. -/
def stampIf (locale : Locale) (now : ℕ) (ids : List String) (row : SweepRow) : SweepRow :=
  if ids.contains row.id then
    { row with payload := mergeNotifyStamp locale row.payload now }
  else row

theorem sameRow_stampIf (ids : List String) (row : SweepRow) :
    SameRow row (stampIf locale now ids row) := by
  unfold stampIf
  split
  · exact ⟨_, rfl⟩
  · exact ⟨row.payload, rfl⟩

theorem map_stampIf_nil (rows : List SweepRow) : rows.map (stampIf locale now []) = rows := by
  conv_rhs => rw [← List.map_id rows]
  refine List.map_congr_left fun row _ => ?_
  unfold stampIf
  simp

/-- One more stamp. -/
theorem stamp_map_stampIf (hids : (rows.map (·.id)).Nodup) {ids : List String} {r : SweepRow}
    (hr : r ∈ rows) (hpending : r.state = .pending) :
    stamp locale now (rows.map (stampIf locale now ids)) r =
      rows.map (stampIf locale now (ids ++ [r.id])) := by
  unfold stamp
  rw [List.map_map]
  refine List.map_congr_left fun row hrow => ?_
  simp only [Function.comp_apply]
  by_cases hsame : row.id = r.id
  · -- Stamped again, the row would be as it is.
    obtain rfl := List.inj_on_of_nodup_map hids hrow hr hsame
    unfold stampIf
    split <;> simp [hpending]
  · have hkept : (stampIf locale now ids row).id = row.id := by
      obtain ⟨payload, heq⟩ := @sameRow_stampIf locale now ids row
      rw [heq]
    rw [if_neg fun h => hsame (hkept.symm.trans h.1)]
    unfold stampIf
    simp [hsame]

/-- The stamps of a sweep, one after the other. -/
theorem foldl_stamp (hids : (rows.map (·.id)).Nodup) {due : List SweepRow}
    (hdue : ∀ r ∈ due, r ∈ rows ∧ r.state = .pending) :
    (due.foldl (fun done r => if stamps r.id then (stamp locale now done.1 r, done.2 + 1) else done)
      (rows, 0)).1 =
        rows.map (stampIf locale now ((due.filter fun r => stamps r.id).map (·.id))) := by
  induction due using List.reverseRecOn with
  | nil => exact (map_stampIf_nil rows).symm
  | append_singleton due d ih =>
    obtain ⟨hd, hpending⟩ := hdue d (by simp)
    have ih := ih fun r hr => hdue r (List.mem_append_left _ hr)
    rw [List.foldl_append, List.foldl_cons, List.foldl_nil, List.filter_append, List.map_append]
    by_cases hstamps : stamps d.id = true
    · rw [if_pos hstamps, ih, stamp_map_stampIf hids hd hpending]
      simp [hstamps]
    · rw [if_neg hstamps, ih]
      simp [hstamps]

/-- The items that a sweep stamps. -/
def reminded (locale : Locale) (delivered : Bool) (stamps : String → Bool) (now take : ℕ)
    (rows : List SweepRow) : List SweepRow :=
  ((stale now rows).take take).filter fun r => isDue locale now r && (delivered && stamps r.id)

/-- The ids of the items that a sweep stamps. -/
def remindedIds (locale : Locale) (delivered : Bool) (stamps : String → Bool) (now take : ℕ)
    (rows : List SweepRow) : List String :=
  (reminded locale delivered stamps now take rows).map (·.id)

/-- **What a sweep leaves**: the items that are due are stamped, where that is possible. -/
theorem rows_runSweep (hids : (rows.map (·.id)).Nodup) :
    (runSweep locale delivered stamps now take rows).1 =
      rows.map (stampIf locale now (remindedIds locale delivered stamps now take rows)) := by
  unfold runSweep remindedIds
  dsimp only
  split
  · next hnil =>
    have hempty : reminded locale delivered stamps now take rows = [] := by
      unfold reminded
      refine List.filter_eq_nil_iff.mpr fun r hr hworked => ?_
      rw [Bool.and_eq_true] at hworked
      exact List.filter_eq_nil_iff.mp hnil r hr hworked.1
    rw [hempty]
    exact (map_stampIf_nil rows).symm
  · cases delivered with
    | false =>
      have hempty : reminded locale false stamps now take rows = [] := by
        unfold reminded
        simp
      rw [hempty]
      exact (map_stampIf_nil rows).symm
    | true =>
      have hdue : ∀ r ∈ ((stale now rows).take take).filter (isDue locale now),
          r ∈ rows ∧ r.state = .pending := by
        intro r hr
        obtain ⟨hmem, hpending, -⟩ :=
          mem_stale.mp (List.mem_of_mem_take (List.mem_filter.mp hr).1)
        exact ⟨hmem, hpending⟩
      refine (foldl_stamp hids hdue).trans ?_
      unfold reminded
      rw [List.filter_filter]
      simp only [Bool.true_and, Bool.and_comm]

theorem mem_remindedIds (hids : (rows.map (·.id)).Nodup) {row : SweepRow} (hrow : row ∈ rows) :
    row.id ∈ remindedIds locale delivered stamps now take rows ↔
      row ∈ (stale now rows).take take ∧ isDue locale now row = true ∧
        (delivered && stamps row.id) = true := by
  unfold remindedIds reminded
  constructor
  · intro hmem
    obtain ⟨other, hother, hid⟩ := List.mem_map.mp hmem
    obtain ⟨hpage, hworked⟩ := List.mem_filter.mp hother
    have hmem := (mem_stale.mp (List.mem_of_mem_take hpage)).1
    obtain rfl := List.inj_on_of_nodup_map hids hmem hrow hid
    exact ⟨hpage, Bool.and_eq_true_iff.mp hworked⟩
  · rintro ⟨hpage, hworked⟩
    exact List.mem_map_of_mem (List.mem_filter.mpr ⟨hpage, Bool.and_eq_true_iff.mpr hworked⟩)

/-- A later sweep does not get to what is after the first page. -/
theorem not_mem_take_of_mem_drop (hids : (rows.map (·.id)).Nodup) (h : now ≤ now')
    {row : SweepRow} (hrow : row ∈ (stale now rows).drop take) :
    row ∉ (stale now' rows).take take := by
  obtain ⟨later, hsplit⟩ := stale_split rows h
  have hdrop : row ∈ (stale now' rows).drop take := by
    rw [hsplit, List.drop_append]
    exact List.mem_append_left _ hrow
  have hnodup : ((stale now' rows).take take ++ (stale now' rows).drop take).Nodup := by
    rw [List.take_append_drop]
    exact (nodup_stale hids).of_map _
  exact fun htake => List.disjoint_of_nodup_append hnodup htake hdrop

theorem mem_take_of_mem_take (h : now ≤ now') {row : SweepRow}
    (hrow : row ∈ (stale now rows).take take) : row ∈ (stale now' rows).take take := by
  obtain ⟨later, hsplit⟩ := stale_split rows h
  rw [hsplit, List.take_append]
  exact List.mem_append_left _ hrow

section Row

variable {row : SweepRow} (hids : (rows.map (·.id)).Nodup)

include hids

theorem stampIf_later (h : now ≤ now') (hrow : row ∈ (stale now rows).drop take) :
    stampIf locale now' (remindedIds locale delivered stamps now' take rows) row = row := by
  have hmem := (mem_stale.mp (List.mem_of_mem_drop hrow)).1
  unfold stampIf
  rw [if_neg]
  rw [List.contains_iff_mem, mem_remindedIds hids hmem]
  exact fun hreminded => not_mem_take_of_mem_drop hids h hrow hreminded.1

theorem stampIf_of_not_due (hrow : row ∈ rows) (hdue : isDue locale now row = false) :
    stampIf locale now (remindedIds locale delivered stamps now take rows) row = row := by
  unfold stampIf
  rw [if_neg]
  rw [List.contains_iff_mem, mem_remindedIds hids hrow, hdue]
  exact fun hreminded => Bool.false_ne_true hreminded.2.1

/-- To one on the first page that is due. -/
theorem stampIf_first (h : now ≤ now') (hrow : row ∈ (stale now rows).take take)
    (hdue : isDue locale now' row = true) (hworked : (delivered && stamps row.id) = true) :
    stampIf locale now' (remindedIds locale delivered stamps now' take rows) row =
      { row with payload := mergeNotifyStamp locale row.payload now' } := by
  have hmem := (mem_stale.mp (List.mem_of_mem_take hrow)).1
  unfold stampIf
  rw [if_pos]
  rw [List.contains_iff_mem, mem_remindedIds hids hmem]
  exact ⟨mem_take_of_mem_take h hrow, hdue, hworked⟩

end Row

end Sweeps

/-! ### Sweep after sweep -/

/-- Sweeps one after the other, with no other change. The first is not before the time `now`,
and the times of the sweeps can be written and read as dates. -/
structure ApprovalRun where
  locale : Locale
  parseDate_nil : locale.parseDate [] = none
  delivered : Bool
  stamps : String → Bool
  rows : List SweepRow
  ids : (rows.map (·.id)).Nodup
  take : ℕ
  now : ℕ
  times : ℕ → ℕ
  le_times : ∀ k, now ≤ times k
  dates : ∀ k, locale.parseDate (locale.toISOString (times k)) = some (times k)

namespace ApprovalRun

variable (run : ApprovalRun)

/-- The rows after some sweeps. -/
def after : ℕ → List SweepRow
  | 0 => run.rows
  | k + 1 => (runSweep run.locale run.delivered run.stamps (run.times k) run.take (after k)).1

/-- The items that are due at the beginning. -/
def due : List SweepRow :=
  (stale run.now run.rows).filter (isDue run.locale run.now)

/-- Is the item one that no sweep can stamp? -/
def stuck (row : SweepRow) : Bool :=
  !(run.delivered && run.stamps row.id)

/-- The sweeps that should be enough. -/
def sweeps : ℕ :=
  Sweep.needed run.take run.due.length

/-- **What the sweeps should do**: remind of every item that is due, and stamp it. -/
def Served : Prop :=
  ∀ row ∈ run.due, run.stuck row = false →
    ∃ row' ∈ run.after run.sweeps, row'.id = row.id ∧
      ∃ k < run.sweeps, readLastReminded run.locale row'.payload = some (run.times k)

/-- **The condition**: after the first page of stale items, whether these are due or not, all
that are due are stuck. -/
def Reached : Prop :=
  ∀ row ∈ (stale run.now run.rows).drop run.take, isDue run.locale run.now row = true →
    run.stuck row = true

variable {run}

/-- **What becomes of the items** in some sweeps: those after the first page stay as they are,
and those on it that are due and can be stamped are. -/
theorem after_map (k : ℕ) :
    ∃ f : SweepRow → SweepRow, run.after k = run.rows.map f ∧
      (∀ row ∈ run.rows, SameRow row (f row)) ∧
      (∀ row ∈ (stale run.now run.rows).drop run.take, f row = row) ∧
      ∀ row ∈ (stale run.now run.rows).take run.take, isDue run.locale run.now row = true →
        run.stuck row = false →
        (k = 0 ∧ f row = row) ∨
          ∃ j < k, readLastReminded run.locale (f row).payload = some (run.times j) := by
  induction k with
  | zero =>
    exact ⟨id, (List.map_id _).symm, fun row _ => ⟨row.payload, rfl⟩, fun _ _ => rfl,
      fun row _ _ _ => .inl ⟨rfl, rfl⟩⟩
  | succ k ih =>
    obtain ⟨f, hf, hsame, hlater, hfirst⟩ := ih
    have hid : ∀ row ∈ run.rows, (f row).id = row.id := by
      intro row hrow
      obtain ⟨payload, heq⟩ := hsame row hrow
      rw [heq]
    have hids : ((run.after k).map (·.id)).Nodup := by
      have hmap : run.rows.map ((·.id) ∘ f) = run.rows.map (·.id) := List.map_congr_left hid
      rw [hf, List.map_map, hmap]
      exact run.ids
    let step := stampIf run.locale (run.times k)
      (remindedIds run.locale run.delivered run.stamps (run.times k) run.take (run.after k))
    have hnext : run.after (k + 1) = run.rows.map (step ∘ f) := by
      rw [← List.map_map, ← hf]
      exact rows_runSweep hids
    have hstale : stale run.now (run.after k) = (stale run.now run.rows).map f := by
      rw [hf, stale_map hsame]
    refine ⟨step ∘ f, hnext, ?_, ?_, ?_⟩
    · intro row hrow
      obtain ⟨payload, heq⟩ := hsame row hrow
      obtain ⟨payload', heq'⟩ := @sameRow_stampIf run.locale (run.times k)
        (remindedIds run.locale run.delivered run.stamps (run.times k) run.take (run.after k))
        (f row)
      exact ⟨payload', heq'.trans (by rw [heq])⟩
    · intro row hrow
      have hdrop : f row ∈ (stale run.now (run.after k)).drop run.take := by
        rw [hstale, ← List.map_drop]
        exact List.mem_map_of_mem hrow
      exact (stampIf_later hids (run.le_times k) hdrop).trans (hlater row hrow)
    · intro row hrow hdue hstuck
      have hrows := (mem_stale.mp (List.mem_of_mem_take hrow)).1
      have htake : f row ∈ (stale run.now (run.after k)).take run.take := by
        rw [hstale, ← List.map_take]
        exact List.mem_map_of_mem hrow
      rw [Function.comp_apply]
      cases hagain : isDue run.locale (run.times k) (f row) with
      | true =>
        have hworked : (run.delivered && run.stamps (f row).id) = true := by
          rw [hid row hrows]
          simpa [stuck] using hstuck
        have hstamped : step (f row) = _ := stampIf_first hids (run.le_times k) htake hagain hworked
        refine .inr ⟨k, Nat.lt_succ_self k, ?_⟩
        rw [hstamped]
        exact readLastReminded_mergeNotifyStamp _ (run.dates k) run.parseDate_nil
      | false =>
        have hafter := (mem_stale.mp (List.mem_of_mem_take htake)).1
        have hkept : step (f row) = f row := stampIf_of_not_due hids hafter hagain
        -- It was stamped by an earlier sweep: the first finds it due.
        rcases hfirst row hrow hdue hstuck with ⟨-, hsame⟩ | ⟨j, hj, hlast⟩
        · rw [hsame, isDue_mono (run.le_times k) hdue] at hagain
          cases hagain
        · rw [hkept]
          exact .inr ⟨j, Nat.lt_succ_of_lt hj, hlast⟩

/-- **When the sweeps remind of all that they can.** -/
theorem served_iff : run.Served ↔ run.Reached := by
  obtain ⟨f, hf, hsame, hlater, hfirst⟩ := run.after_map run.sweeps
  have hid : ∀ row ∈ run.rows, (f row).id = row.id := by
    intro row hrow
    obtain ⟨payload, heq⟩ := hsame row hrow
    rw [heq]
  constructor
  · intro hserved row hrow hdue
    by_contra hstuck
    have hstale := List.mem_of_mem_drop hrow
    have hmem := (mem_stale.mp hstale).1
    obtain ⟨row', hrow', hsameId, k, -, hlast⟩ :=
      hserved row (List.mem_filter.mpr ⟨hstale, hdue⟩) (by simpa using hstuck)
    rw [hf] at hrow'
    obtain ⟨other, hother, rfl⟩ := List.mem_map.mp hrow'
    obtain rfl :=
      List.inj_on_of_nodup_map run.ids hother hmem ((hid other hother).symm.trans hsameId)
    -- The item is as it was, and was not due when its last reminder was in a sweep.
    rw [hlater other hrow] at hlast
    unfold isDue at hdue
    have hle := run.le_times k
    simp only [hlast, decide_eq_true_eq] at hdue
    omega
  · intro hreached row hrow hstuck
    obtain ⟨hstale, hdue⟩ := List.mem_filter.mp hrow
    have hmem := (mem_stale.mp hstale).1
    have hpage : row ∈ (stale run.now run.rows).take run.take := by
      have hsplit := hstale
      rw [← List.take_append_drop run.take (stale run.now run.rows)] at hsplit
      rcases List.mem_append.mp hsplit with h | h
      · exact h
      · rw [hreached row h hdue] at hstuck
        cases hstuck
    have hpos : 0 < run.sweeps := by
      have hlength := List.length_pos_of_mem hpage
      rw [List.length_take] at hlength
      have htake : 0 < run.take := (Nat.lt_min.mp hlength).1
      exact Sweep.needed_pos htake (List.length_pos_of_mem hrow)
    rcases hfirst row hpage hdue hstuck with ⟨hzero, -⟩ | hlast
    · omega
    · exact ⟨f row, by rw [hf]; exact List.mem_map_of_mem hmem, hid row hmem, hlast⟩

end ApprovalRun

end StaleApprovals
end EmailOps
