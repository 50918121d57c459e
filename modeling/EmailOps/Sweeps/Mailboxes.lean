import EmailOps.Framework.Sweep
import EmailOps.Inbound.Poll

/-!
# Sweeps of the watched mailboxes

`runSweep` reads a page of the active sovereign mailboxes, those first that were updated
longest ago, and polls each one. A poll that finds a new cursor writes it, and the row goes
to the end of the order. A poll that finds nothing new, or does not come to its end, writes
nothing, and the row keeps its place.

* `runSweep` is the sweep, over `pollOne`; `advance` is the cursor a poll writes.
* `watched_runSweep`: a sweep is a `Sweep.pass` over the queue of the mailboxes, and those it
  has advanced come back at the end.
* `MailboxRun.served_iff`: when the sweeps have polled every mailbox that has something new.
-/

namespace EmailOps
namespace Inbound

open Framework

/-! ### The sweep -/

/-- A row of `mailboxAccount`, as far as the watcher reads it. -/
structure MailboxRow where
  id : String
  workspaceId : String
  emailAddress : Text
  provider : String
  active : Bool
  inboundCursor : Option Text
  updatedAt : ℕ
  deriving DecidableEq

/-- What the polls meet. -/
structure Mail where
  /-- The page of an inbox that the engine answers with, none when it does not answer. -/
  page : Text → Option (List JmapEmail)
  /-- Is the message classified, or does the classifier throw? -/
  classifies : String → JmapEmail → Bool
  /-- Is the cursor of the mailbox written, or does the update throw? -/
  stored : String → Bool
  toISOString : ℕ → Text
  toISOString_ne_nil : ∀ t, toISOString t ≠ []

namespace Mail

variable (mail : Mail)

/-- The cursor a poll of a mailbox writes, none when it writes nothing: without an answer,
where a message is not classified, or where the cursor is the old one. -/
def advance (now : ℕ) (mb : MailboxRow) : Option Text :=
  match mail.page mb.emailAddress with
  | none => none
  | some page =>
    let cursor := pollCursor page mb.inboundCursor (mail.toISOString now)
    if (newEmails page mb.inboundCursor).all (mail.classifies mb.workspaceId) ∧ cursor ≠ [] ∧
        some cursor ≠ mb.inboundCursor ∧ mail.stored mb.id = true then
      some cursor
    else none

/-- A mailbox that a poll leaves as it is. -/
def stuck (mb : MailboxRow) : Bool :=
  (mail.advance 0 mb).isNone

/-- `pollOne`: the rows afterwards. The column `updatedAt` is written with every update. -/
def pollOne (now : ℕ) (rows : List MailboxRow) (mb : MailboxRow) : List MailboxRow :=
  rows.map fun r =>
    if r.id = mb.id then
      match mail.advance now mb with
      | some cursor => { r with inboundCursor := some cursor, updatedAt := now }
      | none => r
    else r

/-- The mailboxes that are watched, in the order a sweep reads them. -/
def watched (rows : List MailboxRow) : List MailboxRow :=
  (rows.filter fun r => r.provider = "stalwart" && r.active).insertionSort
    fun r r' => r.updatedAt ≤ r'.updatedAt

/-- `runSweep`. -/
def runSweep (now take : ℕ) (rows : List MailboxRow) : List MailboxRow :=
  ((watched rows).take take).foldl (mail.pollOne now) rows

/-- The page of the watcher. -/
def sweepTake : ℕ := 500

/-- A mailbox after a poll. -/
def polled (now : ℕ) (mb : MailboxRow) : MailboxRow :=
  match mail.advance now mb with
  | some cursor => { mb with inboundCursor := some cursor, updatedAt := now }
  | none => mb

end Mail

/-! ### What a poll does -/

section Poll

variable {mail : Mail} {mb : MailboxRow} {now now' : ℕ}

/-- What a poll that writes has found. -/
theorem advance_some {cursor : Text} (h : mail.advance now mb = some cursor) :
    ∃ page, mail.page mb.emailAddress = some page ∧
      cursor = pollCursor page mb.inboundCursor (mail.toISOString now) ∧
      some cursor ≠ mb.inboundCursor := by
  unfold Mail.advance at h
  split at h
  · cases h
  · next page hpage =>
    dsimp only at h
    split at h
    · next hif =>
      cases h
      exact ⟨page, hpage, rfl, hif.2.2.1⟩
    · cases h

/-- Whether a poll writes does not depend on the time. -/
theorem advance_isNone_congr (now now' : ℕ) :
    (mail.advance now mb).isNone = (mail.advance now' mb).isNone := by
  unfold Mail.advance
  cases mail.page mb.emailAddress with
  | none => rfl
  | some page =>
    dsimp only
    cases hcursor : mb.inboundCursor with
    | none =>
      -- The first poll always finds where to begin.
      have hne := pollCursor_ne_nil (mail.toISOString_ne_nil now) page
      have hne' := pollCursor_ne_nil (mail.toISOString_ne_nil now') page
      by_cases hstored : mail.stored mb.id = true <;> simp [newEmails, hne, hne', hstored]
    | some since =>
      have hsame : pollCursor page (some since) (mail.toISOString now) =
          pollCursor page (some since) (mail.toISOString now') := by
        unfold pollCursor
        rfl
      rw [hsame]

theorem stuck_iff (now : ℕ) : mail.stuck mb = true ↔ mail.advance now mb = none := by
  unfold Mail.stuck
  rw [advance_isNone_congr 0 now, Option.isNone_iff_eq_none]

/-- No message of a page is after the cursor that its poll leaves. -/
theorem receivedAt_le_pollCursor {page : List JmapEmail} {since : Option Text} {nowIso : Text}
    {m : JmapEmail} (hm : m ∈ usable page) : m.receivedAt ≤ pollCursor page since nowIso := by
  have hle : m.receivedAt ≤ maxCursor page since := HighWater.le_top (List.mem_map_of_mem hm)
  unfold pollCursor
  split
  · next hnil =>
    -- A usable message has a time, which is not below the empty text.
    rw [hnil] at hle
    have hnil' : m.receivedAt = [] := le_antisymm hle (not_lt.mp (List.not_lt_nil _))
    have hne := (List.mem_filter.mp hm).2
    simp [hnil'] at hne
  · exact hle

/-- **A second poll finds nothing new.** -/
theorem pollCursor_pollCursor (page : List JmapEmail) (since : Option Text)
    (nowIso nowIso' : Text) :
    pollCursor page (some (pollCursor page since nowIso)) nowIso' =
      pollCursor page since nowIso := by
  have hmax : maxCursor page (some (pollCursor page since nowIso)) =
      pollCursor page since nowIso := by
    refine HighWater.top_of_forall_le fun x hx => ?_
    obtain ⟨m, hm, rfl⟩ := List.mem_map.mp hx
    exact receivedAt_le_pollCursor hm
  rw [pollCursor, hmax]
  split
  · next hnil => rw [Option.getD_some, hnil]
  · rfl

/-- A mailbox is stuck once it is polled. -/
theorem stuck_of_advance {cursor : Text} (h : mail.advance now mb = some cursor) (updatedAt : ℕ) :
    mail.stuck { mb with inboundCursor := some cursor, updatedAt := updatedAt } = true := by
  obtain ⟨page, hpage, rfl, -⟩ := advance_some h
  rw [stuck_iff 0]
  unfold Mail.advance
  rw [hpage]
  dsimp only
  rw [pollCursor_pollCursor, if_neg]
  simp

theorem polled_of_stuck (h : mail.stuck mb = true) : mail.polled now mb = mb := by
  unfold Mail.polled
  rw [(stuck_iff now).mp h]

theorem stuck_polled : mail.stuck (mail.polled now mb) = true := by
  unfold Mail.polled
  split
  · next cursor h => exact stuck_of_advance h now
  · next h => exact (stuck_iff now).mpr h

theorem polled_of_not_stuck (h : mail.stuck mb = false) (now : ℕ) :
    ∃ cursor, mail.polled now mb = { mb with inboundCursor := some cursor, updatedAt := now } := by
  have hsome : mail.advance now mb ≠ none := by
    rw [Ne, ← stuck_iff now, h]
    exact Bool.false_ne_true
  obtain ⟨cursor, hcursor⟩ := Option.ne_none_iff_exists'.mp hsome
  refine ⟨cursor, ?_⟩
  unfold Mail.polled
  rw [hcursor]

theorem id_polled : (mail.polled now mb).id = mb.id := by
  unfold Mail.polled
  split <;> rfl

theorem watched_polled :
    (mail.polled now mb).provider = mb.provider ∧ (mail.polled now mb).active = mb.active := by
  unfold Mail.polled
  split <;> exact ⟨rfl, rfl⟩

end Poll

/-! ### What a sweep does -/

section Sweeps

open Mail

variable {mail : Mail} {rows : List MailboxRow} {now take : ℕ}

/-- The rows after a sweep that has polled the mailboxes of a page. -/
theorem foldl_pollOne (hids : (rows.map (·.id)).Nodup) {page : List MailboxRow}
    (hpage : ∀ row ∈ page, row ∈ rows) :
    page.foldl (mail.pollOne now) rows =
      rows.map fun r => if r ∈ page then mail.polled now r else r := by
  induction page using List.reverseRecOn with
  | nil => simp
  | append_singleton page mb ih =>
    have hmb : mb ∈ rows := hpage mb (by simp)
    rw [List.foldl_append, ih fun row hrow => hpage row (List.mem_append_left _ hrow)]
    simp only [List.foldl_cons, List.foldl_nil]
    unfold pollOne
    rw [List.map_map]
    refine List.map_congr_left fun r hr => ?_
    have hid : (if r ∈ page then mail.polled now r else r).id = r.id := by
      split
      · exact id_polled
      · rfl
    simp only [Function.comp_apply, hid, List.mem_append, List.mem_singleton]
    by_cases hsame : r.id = mb.id
    · -- Polled again, the row would be written as before.
      obtain rfl : r = mb := List.inj_on_of_nodup_map hids hr hmb hsame
      have hagain : (if r ∈ page ∨ r = r then mail.polled now r else r) = mail.polled now r :=
        if_pos (Or.inr rfl)
      rw [if_pos rfl, hagain]
      unfold polled
      cases mail.advance now r with
      | none => exact ite_self r
      | some cursor =>
        dsimp only
        split <;> rfl
    · have hne : r ≠ mb := fun h => hsame (by rw [h])
      rw [if_neg hsame]
      simp [hne]

theorem mem_watched {row : MailboxRow} :
    row ∈ watched rows ↔ row ∈ rows ∧ row.provider = "stalwart" ∧ row.active = true := by
  unfold watched
  rw [List.mem_insertionSort, List.mem_filter, Bool.and_eq_true, decide_eq_true_eq]

theorem nodup_watched (hids : (rows.map (·.id)).Nodup) : ((watched rows).map (·.id)).Nodup := by
  unfold watched
  rw [((List.perm_insertionSort _ _).map _).nodup_iff]
  exact hids.sublist (List.Sublist.map _ List.filter_sublist)

theorem rows_runSweep (hids : (rows.map (·.id)).Nodup) :
    mail.runSweep now take rows =
      rows.map fun r => if r ∈ (watched rows).take take then mail.polled now r else r :=
  foldl_pollOne hids fun _ hrow => (mem_watched.mp (List.mem_of_mem_take hrow)).1

/-- **A sweep is a pass over the queue**, and the mailboxes it has advanced come back at the
end of it. -/
theorem watched_runSweep (hids : (rows.map (·.id)).Nodup)
    (hearlier : ∀ row ∈ rows, row.updatedAt < now) :
    ∃ back, (∀ row ∈ back, mail.stuck row = true) ∧
      watched (mail.runSweep now take rows) =
        Sweep.pass take mail.stuck (watched rows) ++ back := by
  let page := (watched rows).take take
  let worked := (page.filter fun r => !mail.stuck r).map (·.id)
  let after := fun r => if r ∈ page then mail.polled now r else r
  let seen := rows.filter fun r => r.provider = "stalwart" && r.active
  -- The mailboxes that are watched are those that were.
  have hseen : (mail.runSweep now take rows).filter
      (fun r => decide (r.provider = "stalwart") && r.active) = seen.map after := by
    rw [rows_runSweep hids, List.filter_map]
    congr 1
    refine List.filter_congr fun r _ => ?_
    simp only [Function.comp_apply]
    split
    · rw [watched_polled.1, watched_polled.2]
    · rfl
  have hworked : ∀ r ∈ seen, worked.contains r.id = true → r ∈ page ∧ mail.stuck r = false := by
    intro r hr hmem
    obtain ⟨r', hr', hid⟩ := List.mem_map.mp (List.contains_iff_mem.mp hmem)
    obtain ⟨hpage, hstuck⟩ := List.mem_filter.mp hr'
    have hrow : r' ∈ rows := (mem_watched.mp (List.mem_of_mem_take hpage)).1
    obtain rfl := List.inj_on_of_nodup_map hids hrow (List.mem_filter.mp hr).1 hid
    exact ⟨hpage, by simpa using hstuck⟩
  -- A mailbox that is worked off is written now, and stuck from then on.
  have hdone : ∀ r ∈ seen, worked.contains r.id = true →
      (after r).updatedAt = now ∧ mail.stuck (after r) = true := by
    intro r hr hmem
    obtain ⟨hpage, hstuck⟩ := hworked r hr hmem
    have hafter : after r = mail.polled now r := if_pos hpage
    obtain ⟨cursor, hcursor⟩ := polled_of_not_stuck hstuck now
    rw [hafter]
    exact ⟨by rw [hcursor], stuck_polled⟩
  -- Another is as it was.
  have hkept : ∀ r ∈ seen, worked.contains r.id = false → after r = r := by
    intro r hr hnot
    by_cases hpage : r ∈ page
    · have hstuck : mail.stuck r = true := by
        by_contra hfree
        have hmem : r.id ∈ worked :=
          List.mem_map_of_mem (List.mem_filter.mpr ⟨hpage, by simpa using hfree⟩)
        rw [List.contains_iff_mem.mpr hmem] at hnot
        cases hnot
      have hafter : after r = mail.polled now r := if_pos hpage
      rw [hafter, polled_of_stuck hstuck]
    · exact if_neg hpage
  refine ⟨((seen.filter fun r => worked.contains r.id).map after).insertionSort
    fun r r' => r.updatedAt ≤ r'.updatedAt, ?_, ?_⟩
  · intro row hrow
    obtain ⟨r, hr, rfl⟩ := List.mem_map.mp ((List.mem_insertionSort _).mp hrow)
    obtain ⟨hr, hmem⟩ := List.mem_filter.mp hr
    exact (hdone r hr hmem).2
  · have hkeys : ((watched rows ++ []).map MailboxRow.id).Nodup := by
      rw [List.append_nil]
      exact nodup_watched hids
    have hpass := Sweep.filter_worked take mail.stuck hkeys
    rw [List.append_nil] at hpass
    have hwritten := Sweep.insertionSort_map_written (fun r : MailboxRow => r.updatedAt)
      (fun r hr => hearlier r (List.mem_filter.mp hr).1)
      (fun r hr hmem => (hdone r hr hmem).1) hkept
    conv_lhs => rw [watched, hseen]
    rw [hwritten, ← hpass]
    rfl

end Sweeps

/-! ### Sweep after sweep -/

/-- Sweeps one after the other, with no other change, each at a later time than what was
written before. What the engine answers stays the same. -/
structure MailboxRun where
  mail : Mail
  rows : List MailboxRow
  ids : (rows.map (·.id)).Nodup
  take : ℕ
  times : ℕ → ℕ
  strictMono : StrictMono times
  updatedAt_lt : ∀ row ∈ rows, row.updatedAt < times 0

namespace MailboxRun

variable (run : MailboxRun)

/-- The rows after some sweeps. -/
def after : ℕ → List MailboxRow
  | 0 => run.rows
  | k + 1 => run.mail.runSweep (run.times k) run.take (after k)

/-- The mailboxes that are watched. -/
def due : List MailboxRow :=
  Mail.watched run.rows

/-- The sweeps that should be enough. -/
def sweeps : ℕ :=
  Sweep.needed run.take run.due.length

/-- **What the sweeps should do**: poll every mailbox that has something new. -/
def Served : Prop :=
  ∀ row ∈ run.due, run.mail.stuck row = false →
    ∃ k < run.sweeps, run.mail.polled (run.times k) row ∈ run.after run.sweeps

/-- **The condition**: the mailboxes that the sweeps do not get to are stuck. -/
def Reached : Prop :=
  ∀ row ∈ run.due.drop (Sweep.covered run.take run.mail.stuck run.due run.sweeps),
    run.mail.stuck row = true

variable {run}

/-- A mailbox as it was, or as one of the first `k` sweeps has polled it. -/
def Moved (run : MailboxRun) (k : ℕ) (row row' : MailboxRow) : Prop :=
  row' = row ∨ ∃ j < k, row' = run.mail.polled (run.times j) row

section Moved

variable {row row' : MailboxRow} {k : ℕ}

theorem Moved.id_eq (h : run.Moved k row row') : row'.id = row.id := by
  rcases h with rfl | ⟨j, -, rfl⟩
  · rfl
  · exact id_polled

theorem Moved.updatedAt_lt (h : run.Moved k row row') (hrow : row ∈ run.rows) :
    row'.updatedAt < run.times k := by
  have hbefore : row.updatedAt < run.times k :=
    lt_of_lt_of_le (run.updatedAt_lt row hrow) (run.strictMono.monotone (Nat.zero_le k))
  rcases h with rfl | ⟨j, hj, rfl⟩
  · exact hbefore
  · cases hstuck : run.mail.stuck row with
    | true => rwa [polled_of_stuck hstuck]
    | false =>
      obtain ⟨cursor, hcursor⟩ := polled_of_not_stuck hstuck (run.times j)
      rw [hcursor]
      exact run.strictMono hj

theorem Moved.next (h : run.Moved k row row') :
    run.Moved (k + 1) row row' ∧ run.Moved (k + 1) row (run.mail.polled (run.times k) row') := by
  rcases h with rfl | ⟨j, hj, rfl⟩
  · exact ⟨.inl rfl, .inr ⟨k, Nat.lt_succ_self k, rfl⟩⟩
  · have hlater : run.Moved (k + 1) row (run.mail.polled (run.times j) row) :=
      .inr ⟨j, Nat.lt_succ_of_lt hj, rfl⟩
    rw [polled_of_stuck stuck_polled]
    exact ⟨hlater, hlater⟩

theorem nodup_map_moved {f : MailboxRow → MailboxRow}
    (h : ∀ row ∈ run.rows, run.Moved k row (f row)) :
    ((run.rows.map f).map (·.id)).Nodup := by
  have hids : run.rows.map ((·.id) ∘ f) = run.rows.map (·.id) :=
    List.map_congr_left fun row hrow => (h row hrow).id_eq
  rw [List.map_map, hids]
  exact run.ids

end Moved

/-- **What becomes of the mailboxes** in some sweeps. -/
theorem after_map (k : ℕ) :
    ∃ f : MailboxRow → MailboxRow, run.after k = run.rows.map f ∧
      ∀ row ∈ run.rows, run.Moved k row (f row) := by
  induction k with
  | zero => exact ⟨id, (List.map_id _).symm, fun row _ => .inl rfl⟩
  | succ k ih =>
    obtain ⟨f, hf, hmoved⟩ := ih
    have hids : ((run.after k).map (·.id)).Nodup := by
      rw [hf]
      exact nodup_map_moved hmoved
    refine ⟨_, (rows_runSweep hids).trans (by rw [hf, List.map_map]), fun row hrow => ?_⟩
    have hnext := (hmoved row hrow).next
    simp only [Function.comp_apply]
    split
    · exact hnext.2
    · exact hnext.1

theorem nodup_after (k : ℕ) : ((run.after k).map (·.id)).Nodup := by
  obtain ⟨f, hf, hmoved⟩ := run.after_map k
  rw [hf]
  exact nodup_map_moved hmoved

theorem exists_moved {k : ℕ} {row' : MailboxRow} (h : row' ∈ run.after k) :
    ∃ row ∈ run.rows, run.Moved k row row' := by
  obtain ⟨f, hf, hmoved⟩ := run.after_map k
  rw [hf] at h
  obtain ⟨row, hrow, rfl⟩ := List.mem_map.mp h
  exact ⟨row, hrow, hmoved row hrow⟩

/-- The queue after some sweeps is a swept queue. -/
theorem swept (k : ℕ) :
    Sweep.Swept run.take run.mail.stuck run.due k (Mail.watched (run.after k)) := by
  induction k with
  | zero => exact .start
  | succ k ih =>
    have hearlier : ∀ row ∈ run.after k, row.updatedAt < run.times k := by
      intro row' hrow'
      obtain ⟨row, hrow, hmoved⟩ := exists_moved hrow'
      exact hmoved.updatedAt_lt hrow
    obtain ⟨back, hback, hwatched⟩ :=
      @watched_runSweep run.mail _ _ run.take (run.nodup_after k) hearlier
    have hnext := ih.next hback
    rw [← hwatched] at hnext
    exact hnext

/-- **When the sweeps poll all that have something new.** -/
theorem served_iff : run.Served ↔ run.Reached := by
  refine Iff.trans ?_ (Sweep.drained_iff (run.swept run.sweeps))
  constructor
  · intro hserved row' hrow'
    by_contra hstuck
    obtain ⟨hmem, hwatched⟩ := mem_watched.mp hrow'
    obtain ⟨row, hrow, hmoved⟩ := exists_moved hmem
    rcases hmoved with rfl | ⟨j, -, rfl⟩
    · -- The mailbox is as it was, and the one that is served has its id.
      obtain ⟨k, -, hpolled⟩ :=
        hserved row' (mem_watched.mpr ⟨hrow, hwatched⟩) (by simpa using hstuck)
      have heq := List.inj_on_of_nodup_map (run.nodup_after run.sweeps) hmem hpolled id_polled.symm
      rw [heq] at hstuck
      exact hstuck stuck_polled
    · exact hstuck stuck_polled
  · intro hall row hrow hstuck
    obtain ⟨f, hf, hmoved⟩ := run.after_map run.sweeps
    obtain ⟨hmem, hwatched⟩ := mem_watched.mp hrow
    have hafter : f row ∈ run.after run.sweeps := by
      rw [hf]
      exact List.mem_map_of_mem hmem
    rcases hmoved row hmem with heq | ⟨k, hk, heq⟩
    · -- It would be watched still.
      rw [heq] at hafter
      rw [hall row (mem_watched.mpr ⟨hafter, hwatched⟩)] at hstuck
      cases hstuck
    · rw [heq] at hafter
      exact ⟨k, hk, hafter⟩

end MailboxRun

end Inbound
end EmailOps
