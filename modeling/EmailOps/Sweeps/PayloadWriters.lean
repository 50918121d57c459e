import EmailOps.Framework.LostUpdate
import EmailOps.Framework.System
import EmailOps.Sweeps.Approvals

/-!
# The writers of a waiting item's payload

The payload of a pending item is written from two sides. The sweep stamps `notify` into it
when it has reminded of the item; a view of the queue puts `targets` into that of an item
which was staged without them. Both read the payload, merge in memory, wait for a remote
service and write the whole payload back, where the item is still pending. The row has no
version, and neither side looks again at what is there.

* `Kept` is the guarantee: each key holds what was last written under it, and a key that
  neither side writes is as it was.
* `Fresh` says that a write-back is of a payload whose other keys are those that are there.
  `kept_iff_fresh`: nothing is lost along a run if and only if each of its write-backs is.
-/

namespace EmailOps
namespace StaleApprovals

open Framework Framework.Text

/-! ### Payloads by key -/

theorem get_setKey_of_ne (fields : List (Text × Json)) {key key' : Text} (v : Json)
    (hne : key' ≠ key) : Json.get (setKey fields key v) key' = Json.get fields key' := by
  have hother : (key' == key) = false := beq_eq_false_iff_ne.mpr hne
  unfold Json.get
  induction fields with
  | nil => simp [setKey, hne]
  | cons field fields ih =>
    unfold setKey
    split
    · next heq =>
      rw [List.lookup_cons, List.lookup_cons, heq, hother]
    · rw [List.lookup_cons, List.lookup_cons, ih]

/-- A payload and its keys. What is no record has none. -/
def payloadKeys : Parts Json Text Json where
  get payload key := Json.get (recordFields (some payload)) key
  set payload key v := .obj (setKey (recordFields (some payload)) key v)
  get_set _ key v := get_setKey _ key v
  get_set_of_ne _ v _ _ hne := get_setKey_of_ne _ v hne

/-! ### The preview of what a cleanup touches -/

/-- The bound of the rows of a preview. -/
def MAX_TARGET_ROWS : ℕ := 8

structure CleanupTargetRow where
  subject : Option Text
  sender : Option Text

/-- A text, or `null`. -/
def jsonText : Option Text → Json
  | some t => .str t
  | none => .null

def CleanupTargetRow.toJson (row : CleanupTargetRow) : Json :=
  .obj [("subject".toList, jsonText row.subject), ("sender".toList, jsonText row.sender)]

/-- An item of the agent inbox, as far as the two sides read it. -/
structure QueueItem extends SweepRow where
  kind : AgentInboxKind

def isRec : Option Json → Bool
  | some (.obj _) => true
  | _ => false

/-- The raw threads of a native batch. -/
def threadIds (payload : Json) : List Json :=
  match payloadKeys.get payload "thread_ids".toList with
  | some (.arr ids) => ids
  | _ => []

/-- Is the item a pending batch that was staged before targets were captured? -/
def QueueItem.isCandidate (it : QueueItem) : Bool :=
  it.state = .pending && it.kind = .cleanup && isRec (some it.payload) &&
    (match payloadKeys.get it.payload "native".toList with
      | some (.bool b) => b
      | _ => false) &&
    !(threadIds it.payload).isEmpty && !isRec (payloadKeys.get it.payload "targets".toList)

/-- The ids of the threads, without those that are blank. -/
def cleanIds (payload : Json) : List Text :=
  ((threadIds payload).map fun t =>
    trim (((Json.orElse (some t) (some (.str []))).map Json.toText).getD [])).filter (· ≠ [])

/-- The `targets` of a batch, whose subjects are resolved. -/
def targetsOf (toUpperCase : Text → Text) (payload : Json) (rows : List CleanupTargetRow) : Json :=
  let ids := cleanIds payload
  let action := ((Json.orElse (payloadKeys.get payload "action".toList)
    (some (.str []))).map Json.toText).getD []
  .obj
    [("verb".toList, .str (if toUpperCase action = "TRASH".toList then "Move to Trash".toList
      else "Archive".toList)),
      ("scope".toList, .str "threads".toList),
      ("provider".toList, .str "this inbox".toList),
      ("total".toList, .num (toString ids.length).toList),
      ("rows".toList, .arr (rows.map (·.toJson))),
      ("truncated".toList, .bool (rows.length < ids.length))]

/-- The payload that `backfillNativeCleanupTargets` writes back. -/
def withTargets (toUpperCase : Text → Text) (payload : Json) (rows : List CleanupTargetRow) :
    Json :=
  .obj (setKey (recordFields (some payload)) "targets".toList (targetsOf toUpperCase payload rows))

/-! ### The protocol -/

/-- Where a call stands. -/
inductive Call where
  | idle
  /-- A sweep that has read the item as due, and posts its reminder. -/
  | stamping (read : Json) (now : ℕ)
  /-- A view of the queue that resolves the subjects of the item's threads. -/
  | resolving (read : Json)

structure State where
  item : QueueItem
  calls : ℕ → Call
  /-- The payload as it was at first. -/
  original : Json
  /-- What was last written under each key. -/
  written : Text → Option Json

inductive Label where
  /-- A sweep reads the item. -/
  | readStale (c : ℕ) (now : ℕ)
  /-- The reminder is delivered, and the sweep stamps the item. -/
  | stamp (c : ℕ)
  /-- A view of the queue reads the item. -/
  | readQueue (c : ℕ)
  /-- The subjects are resolved, and put into the item. -/
  | backfill (c : ℕ) (rows : List CleanupTargetRow)
  /-- A call writes nothing: the post failed, no subject was found, or it threw. -/
  | leave (c : ℕ)
  /-- The item is approved or rejected. -/
  | review (state : AgentInboxState)

def State.moveTo (s : State) (c : ℕ) (call : Call) : State :=
  { s with calls := Function.update s.calls c call }

/-- The update of a payload for the sake of one key, where the item is still pending. -/
def State.updateMany (s : State) (key : Text) (next : Json) : State :=
  if s.item.state = .pending then
    { s with
      item := { s.item with payload := next }
      written := Function.update s.written key (payloadKeys.get next key) }
  else s

/-- One step. -/
def step (locale : Locale) (toUpperCase : Text → Text) (s : State) : Label → Option State
  | .readStale c now =>
    match s.calls c with
    | .idle =>
      if s.item.state = .pending ∧ s.item.createdAt + STALE_AFTER_MS < now ∧
          isDue locale now s.item.toSweepRow = true then
        some (s.moveTo c (.stamping s.item.payload now))
      else none
    | _ => none
  | .stamp c =>
    match s.calls c with
    | .stamping read now =>
      some ((s.updateMany "notify".toList (mergeNotifyStamp locale read now)).moveTo c .idle)
    | _ => none
  | .readQueue c =>
    match s.calls c with
    | .idle => if s.item.isCandidate then some (s.moveTo c (.resolving s.item.payload)) else none
    | _ => none
  | .backfill c rows =>
    match s.calls c with
    | .resolving read =>
      if rows = [] ∨ min (cleanIds read).length MAX_TARGET_ROWS < rows.length then none
      else
        some ((s.updateMany "targets".toList (withTargets toUpperCase read rows)).moveTo c .idle)
    | _ => none
  | .leave c => some (s.moveTo c .idle)
  | .review state =>
    if s.item.state = .pending ∧ state ≠ .pending then
      some { s with item := { s.item with state := state } }
    else none

/-- The protocol. -/
def system (locale : Locale) (toUpperCase : Text → Text) : System State Label where
  init s := (∀ c, s.calls c = .idle) ∧ s.original = s.item.payload ∧ s.written = fun _ => none
  step := step locale toUpperCase

/-- Each key of the payload holds what was last written under it, and is unchanged when
nothing was. -/
def Kept (s : State) : Prop :=
  payloadKeys.Kept s.original s.written s.item.payload

/-- The payload that was read agrees with the one that is there on every key but one. -/
def SameElsewhere (read : Json) (s : State) (key : Text) : Prop :=
  ∀ key', key' ≠ key → payloadKeys.get read key' = payloadKeys.get s.item.payload key'

/-- If the step writes a payload back, then it is out of date on no other key. -/
def Fresh (s : State) : Label → Prop
  | .stamp c =>
    match s.calls c with
    | .stamping read _ => s.item.state = .pending → SameElsewhere read s "notify".toList
    | _ => True
  | .backfill c _ =>
    match s.calls c with
    | .resolving read => s.item.state = .pending → SameElsewhere read s "targets".toList
    | _ => True
  | _ => True

/-! ### What a step does to the payload -/

variable {locale : Locale} {toUpperCase : Text → Text} {s s' : State} {l : Label}

/-- What a step does to the payload. -/
inductive Effect (s : State) (l : Label) (s' : State) : Prop
  | quiet (hpayload : s'.item.payload = s.item.payload) (horiginal : s'.original = s.original)
      (hwritten : s'.written = s.written) (hfresh : Fresh s l)
  /-- A payload is written back, with a new part under one key. -/
  | wrote (key : Text) (read part : Json)
      (hpayload : s'.item.payload = payloadKeys.set read key part)
      (horiginal : s'.original = s.original)
      (hwritten : s'.written = Function.update s.written key (some part))
      (hfresh : Fresh s l ↔ SameElsewhere read s key)

/-- A write-back, or none when the item is no longer pending. -/
theorem effect_updateMany {key : Text} {read part : Json} {c : ℕ}
    (hfresh : Fresh s l ↔ (s.item.state = .pending → SameElsewhere read s key)) :
    Effect s l ((s.updateMany key (payloadKeys.set read key part)).moveTo c .idle) := by
  unfold State.updateMany
  split
  · next hpending =>
    refine .wrote key read part rfl rfl ?_ ?_
    · simp only [State.moveTo, payloadKeys.get_set]
    · rw [hfresh]
      exact forall_prop_of_true hpending
  · next hpending => exact .quiet rfl rfl rfl (hfresh.mpr fun h => absurd h hpending)

theorem effect_of_step (h : step locale toUpperCase s l = some s') : Effect s l s' := by
  cases l with
  | readStale c now =>
    simp only [step] at h
    split at h
    · split at h
      · cases h
        exact .quiet rfl rfl rfl trivial
      · cases h
    · cases h
  | stamp c =>
    simp only [step] at h
    split at h
    · next read now hcall =>
      cases h
      refine effect_updateMany (s := s) ?_
      simp only [Fresh, hcall]
    · cases h
  | readQueue c =>
    simp only [step] at h
    split at h
    · split at h
      · cases h
        exact .quiet rfl rfl rfl trivial
      · cases h
    · cases h
  | backfill c rows =>
    simp only [step] at h
    split at h
    · next read hcall =>
      split at h
      · cases h
      · cases h
        refine effect_updateMany (s := s) ?_
        simp only [Fresh, hcall]
    · cases h
  | leave c =>
    cases h
    exact .quiet rfl rfl rfl trivial
  | review state =>
    simp only [step] at h
    split at h
    · cases h
      exact .quiet rfl rfl rfl trivial
    · cases h

/-- A step loses nothing if and only if it writes back no payload that is out of date. -/
theorem kept_step_iff (h : Kept s) (hstep : step locale toUpperCase s l = some s') :
    Kept s' ↔ Fresh s l := by
  unfold Kept at *
  cases effect_of_step hstep with
  | quiet hpayload horiginal hwritten hfresh =>
    rw [hpayload, horiginal, hwritten]
    exact iff_of_true h hfresh
  | wrote key read part hpayload horiginal hwritten hfresh =>
    rw [hpayload, horiginal, hwritten, hfresh]
    exact Parts.kept_set_iff h key part

theorem kept_of_init (h : (system locale toUpperCase).init s) : Kept s := by
  obtain ⟨-, horiginal, hwritten⟩ := h
  unfold Kept
  rw [horiginal, hwritten]
  exact payloadKeys.kept_refl _

/-- **No lost payload update**: the payload keeps what either side writes into it, and all
else, along a run if and only if no call writes back what it has read before another write. -/
theorem kept_iff_fresh (locale : Locale) (toUpperCase : Text → Text) {s s' : State}
    {ls : List Label} (h : (system locale toUpperCase).init s)
    (hrun : (system locale toUpperCase).exec s ls = some s') :
    (system locale toUpperCase).Always Kept s ls ↔
      (system locale toUpperCase).Along Fresh s ls :=
  System.always_iff_along Kept (fun _ hs => hs)
    (fun _ _ _ hs hl hstep => (kept_step_iff hs hstep).mpr hl)
    (fun _ _ _ hs hl hstep hkept => hl ((kept_step_iff hs hstep).mp hkept))
    (kept_of_init h) hrun

/-! ### A lost preview -/

/-- An old batch without targets, of which nobody was reminded. -/
def staleBatch : State where
  item :=
    { id := "item-1"
      workspaceId := "w1"
      state := .pending
      createdAt := 0
      payload := .obj [("native".toList, .bool true), ("action".toList, .str "TRASH".toList),
        ("thread_ids".toList, .arr [.str "t1".toList])]
      kind := .cleanup }
  calls _ := .idle
  original := .obj [("native".toList, .bool true), ("action".toList, .str "TRASH".toList),
    ("thread_ids".toList, .arr [.str "t1".toList])]
  written _ := none

/-- Times as digits. -/
def digitLocale : Locale where
  toISOString time := (toString time).toList
  parseDate t := (String.ofList t).toNat?
  localeCompare _ _ := .eq

/-- The queue is viewed while the sweep posts its reminder. -/
def viewedMeanwhile : List Label :=
  [.readStale 0 (STALE_AFTER_MS + 1), .readQueue 1,
    .backfill 1 [⟨some "Invoice".toList, none⟩], .stamp 0]

/-- The queue is viewed after the sweep. -/
def viewedAfterwards : List Label :=
  [.readStale 0 (STALE_AFTER_MS + 1), .stamp 0, .readQueue 1,
    .backfill 1 [⟨some "Invoice".toList, none⟩]]

theorem kept_viewedAfterwards :
    ((system digitLocale (·.map Char.toUpper)).exec staleBatch viewedAfterwards).isSome = true ∧
      ∀ s', (system digitLocale (·.map Char.toUpper)).exec staleBatch viewedAfterwards = some s' →
        ((system digitLocale (·.map Char.toUpper)).Always Kept staleBatch viewedAfterwards ↔
          (system digitLocale (·.map Char.toUpper)).Along Fresh staleBatch viewedAfterwards) :=
  ⟨rfl, fun _ hrun => kept_iff_fresh _ _ ⟨fun _ => rfl, rfl, rfl⟩ hrun⟩

/-- The stamp takes the targets away that were put into the payload since it was read. -/
theorem targets_are_lost :
    (system digitLocale (·.map Char.toUpper)).init staleBatch ∧
      ∃ s', (system digitLocale (·.map Char.toUpper)).exec staleBatch viewedMeanwhile = some s' ∧
        (s'.written "targets".toList).isSome = true ∧
        (payloadKeys.get s'.item.payload "targets".toList).isNone = true ∧
        (payloadKeys.get s'.item.payload "notify".toList).isSome = true ∧ ¬Kept s' := by
  refine ⟨⟨fun _ => rfl, rfl, rfl⟩, _, rfl, rfl, rfl, rfl, fun hkept => ?_⟩
  have htargets := hkept "targets".toList
  exact absurd (congrArg Option.isSome htargets) (by decide)

end StaleApprovals
end EmailOps
