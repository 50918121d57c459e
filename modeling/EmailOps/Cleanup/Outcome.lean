import EmailOps.Cleanup.Protocol

/-!
# What a cleanup reports

The outcome of a cleanup is inferred in three layers. A provider passes the ids on in
chunks and returns a count, or raises. The endpoint turns an exception into a 502. The
backend turns whatever is not a 200 into an exception, and records the rest as a completed
batch.

* `graphBatch` and `gmailBatch` are the loops of the providers, `graphApplied` and
  `gmailApplied` are the ids that the provider has carried out.
* `runCleanup` is the whole chain, for each of the functions that record a batch.

Gmail carries a chunk out or raises. Graph answers a chunk with one status for each of its
messages, and none of the layers looks at the count. So a completed batch has cleaned up
every message unless Graph has refused a chunk, or one of its items, without raising
(`completed_means_applied_iff`).
-/

namespace EmailOps
namespace Cleanup

open Framework

/-! ### The providers -/

/-- The verbs of the engine's cleanup endpoints. -/
inductive Verb where
  | trash | delete | organize
  deriving DecidableEq, Repr

/-- The verb as the backend names it. -/
def Verb.wire : Verb → Text
  | .trash => "trash".toList
  | .delete => "delete".toList
  | .organize => "organize".toList

/-- What Graph answers to a `$batch` request. -/
inductive GraphAnswer where
  /-- A transport error. -/
  | raised (message : Text)
  /-- The status of the request, and that of the response to each of its items. -/
  | answered (status : ℕ) (items : ℕ → ℕ)

/-- `_graph_post`: a throttled request raises, any other answer is returned. -/
def graphPost : GraphAnswer → Except Text (ℕ × (ℕ → ℕ))
  | .raised message => .error message
  | .answered status items =>
    if status = 429 then .error "429 Client Error: Too Many Requests".toList
    else .ok (status, items)

/-- The statuses an item is counted for. -/
def Verb.counts (verb : Verb) (status : ℕ) : Bool :=
  match verb with
  | .delete => status = 200 || status = 202 || status = 204
  | .trash | .organize => status = 200 || status = 201

/-- The statuses of success. -/
def isSuccess (status : ℕ) : Bool :=
  200 ≤ status && status < 300

/-- The loop of `batch_trash`, `batch_delete` and `batch_archive` over the chunks, the
`n`-th of them with the `n`-th answer. -/
def graphBatch (verb : Verb) : List (List Text) → (ℕ → GraphAnswer) → Except Text ℕ
  | [], _ => .ok 0
  | chunk :: chunks, answers =>
    match graphPost (answers 0) with
    | .error message => .error message
    | .ok (status, items) =>
      match graphBatch verb chunks fun n => answers (n + 1) with
      | .error message => .error message
      | .ok count =>
        if status = 200 then
          .ok (((List.range chunk.length).filter fun j => verb.counts (items j)).length + count)
        else .ok count

/-- The ids that Graph has carried out: those whose item, of a batch that was not refused,
has succeeded. -/
def graphApplied : List (List Text) → (ℕ → GraphAnswer) → List Text
  | [], _ => []
  | chunk :: chunks, answers =>
    match graphPost (answers 0) with
    | .error _ => []
    | .ok (status, items) =>
      let applied := if status = 200 then
          (chunk.zipIdx.filter fun item => isSuccess (items item.2)).map (·.1)
        else []
      applied ++ graphApplied chunks fun n => answers (n + 1)

/-- The loop of Gmail's verbs. A chunk raises or is executed. -/
def gmailBatch : List (List Text) → (ℕ → Option Text) → Except Text ℕ
  | [], _ => .ok 0
  | chunk :: chunks, answers =>
    match answers 0 with
    | some message => .error message
    | none =>
      match gmailBatch chunks fun n => answers (n + 1) with
      | .error message => .error message
      | .ok count => .ok (chunk.length + count)

/-- The ids that Gmail has carried out. -/
def gmailApplied : List (List Text) → (ℕ → Option Text) → List Text
  | [], _ => []
  | chunk :: chunks, answers =>
    match answers 0 with
    | some _ => []
    | none => chunk ++ gmailApplied chunks fun n => answers (n + 1)

/-! ### The engine and the backend -/

/-- What the outside does during a cleanup. -/
structure Outside where
  /-- The exception of creating and verifying the archive. -/
  archive : Option Text
  /-- The exception of signing in to the provider. -/
  signIn : Option Text
  /-- The exception of looking up the folder messages are moved to. -/
  folder : Option Text
  gmail : ℕ → Option Text
  graph : ℕ → GraphAnswer
  /-- The answer of the endpoint arrives in time. -/
  delivered : Bool
  /-- The exception of the transaction that records the outcome. -/
  database : Option Text

/-- A verb of a provider. -/
def batchVerb (provider : Provider) (verb : Verb) (ids : List Text) (o : Outside) :
    Except Text ℕ :=
  match provider with
  | .gmail => gmailBatch (slices (chunkSize .gmail) ids) o.gmail
  | .microsoft =>
    match verb, o.folder with
    | .trash, some message | .organize, some message => .error message
    | _, _ => graphBatch verb (slices (chunkSize .microsoft) ids) o.graph

/-- The ids that a verb has been carried out for. -/
def applied (provider : Provider) (verb : Verb) (ids : List Text) (o : Outside) : List Text :=
  match provider with
  | .gmail => gmailApplied (slices (chunkSize .gmail) ids) o.gmail
  | .microsoft =>
    match verb, o.folder with
    | .trash, some _ | .organize, some _ => []
    | _, _ => graphApplied (slices (chunkSize .microsoft) ids) o.graph

/-- The response of a cleanup endpoint. -/
inductive Response where
  | ok (count : ℕ)
  /-- A 502. -/
  | badGateway (detail : Text)

/-- The endpoints `/cleanup/trash`, `/cleanup/delete` and `/cleanup/organize`. -/
def cleanupEndpoint (provider : Provider) (verb : Verb) (ids : List Text) (o : Outside) :
    Response :=
  let failed (message : Text) : Response :=
    .badGateway ("cleanup ".toList ++ verb.wire ++ " failed: ".toList ++ message)
  match o.signIn with
  | some message => failed message
  | none =>
    match batchVerb provider verb ids o with
    | .error message => failed message
    | .ok count => .ok count

/-- `postJson`: the count, or `null`. -/
def postJson (o : Outside) : Response → Option ℕ
  | .ok count => if o.delivered then some count else none
  | .badGateway _ => none

/-- `assertEngineApplied`. -/
def assertEngineApplied (verb : Verb) : Option ℕ → Except Text ℕ
  | none =>
    .error ("The mail provider did not confirm the ".toList ++ verb.wire ++
      " — it may be rate-limited or the sign-in may have expired. ".toList ++
      "Nothing was recorded as done; try again.".toList)
  | some count => .ok count

/-- The functions that record a batch. -/
inductive Recorder where
  | executeCleanup | organize | approveCleanupBatch
  deriving DecidableEq, Repr

/-- The mode as its wire name. -/
def CleanupMode.wire : CleanupMode → Text
  | .trash => "trash".toList
  | .delete => "delete".toList
  | .archivePurge => "archive_purge".toList
  | .archive => "archive".toList
  | .label => "label".toList
  | .unsubscribe => "unsubscribe".toList
  | .undo => "undo".toList

/-- The verb a mode stands for, or the message it is refused with. -/
def verbOf : Recorder → CleanupMode → Except Text Verb
  | .organize, _ => .ok .organize
  | _, .trash => .ok .trash
  | _, .delete | _, .archivePurge => .ok .delete
  | .approveCleanupBatch, .archive => .ok .organize
  | .executeCleanup, mode =>
    .error ("\"".toList ++ mode.wire ++
      "\" cleanup is not implemented for direct execution.".toList)
  | .approveCleanupBatch, mode =>
    .error ("\"".toList ++ mode.wire ++
      "\" cleanup is not implemented — no messages were changed.".toList)

/-- What is known of a cleanup when its function is done. -/
inductive Outcome where
  /-- A batch is recorded COMPLETED. -/
  | completed (result : CleanupResult)
  /-- The batch is recorded FAILED. -/
  | failed (reason : Text)
  /-- The function throws, and records nothing. -/
  | thrown (message : Text)

/-- The engine's part of a cleanup: the archive of what is to be deleted, and the verb. -/
def callEngine (provider : Provider) (verb : Verb) (ids : List Text) (o : Outside) :
    Except Text ℕ :=
  match verb, o.archive with
  | .delete, some message => .error message
  | _, _ => assertEngineApplied verb (postJson o (cleanupEndpoint provider verb ids o))

/-- A cleanup fails: of a staged batch the reason is recorded. -/
def recordFailure (recorder : Recorder) (o : Outside) (reason : Text) : Outcome :=
  match recorder, o.database with
  | .approveCleanupBatch, none => .failed reason
  | .approveCleanupBatch, some message => .thrown message
  | _, _ => .thrown reason

/-- A cleanup, with its outcome. -/
def runCleanup (recorder : Recorder) (mode : CleanupMode) (provider : Provider)
    (safe : List PlanRow) (ids : List Text) (o : Outside) : Outcome :=
  match verbOf recorder mode with
  | .error reason => recordFailure recorder o reason
  | .ok verb =>
    match callEngine provider verb ids o with
    | .error reason => recordFailure recorder o reason
    | .ok count =>
      match o.database with
      | some message => .thrown message
      | none => .completed (cleanupResult safe ids count)

/-! ### When nothing raises -/

/-- Does the request raise? -/
def GraphAnswer.raises : GraphAnswer → Bool
  | .raised _ => true
  | .answered status _ => status = 429

/-- **Nothing raises on the way**, and no answer is lost. -/
structure Undisturbed (provider : Provider) (verb : Verb) (ids : List Text) (o : Outside) :
    Prop where
  archive : verb = .delete → o.archive = none
  signIn : o.signIn = none
  folder : provider = .microsoft → verb ≠ .delete → o.folder = none
  gmail : provider = .gmail → ∀ i < (slices (chunkSize .gmail) ids).length, o.gmail i = none
  graph : provider = .microsoft →
    ∀ i < (slices (chunkSize .microsoft) ids).length, (o.graph i).raises = false
  delivered : o.delivered = true
  database : o.database = none

/-- Graph has accepted a chunk with the id, and its item in there. -/
def GraphAccepted (ids : List Text) (o : Outside) (id : Text) : Prop :=
  ∃ i j chunk items, (slices (chunkSize .microsoft) ids)[i]? = some chunk ∧
    chunk[j]? = some id ∧ o.graph i = .answered 200 items ∧ isSuccess (items j) = true

theorem graphPost_ok_iff (answer : GraphAnswer) :
    (∃ reply, graphPost answer = .ok reply) ↔ answer.raises = false := by
  cases answer with
  | raised message => simp [graphPost, GraphAnswer.raises]
  | answered status items =>
    by_cases hstatus : status = 429 <;> simp [graphPost, GraphAnswer.raises, hstatus]

theorem graphPost_of_not_raises {answer : GraphAnswer} (h : answer.raises = false) :
    ∃ status items, answer = .answered status items ∧ graphPost answer = .ok (status, items) := by
  cases answer with
  | raised message => cases h
  | answered status items =>
    have hne : ¬status = 429 := by simpa [GraphAnswer.raises] using h
    refine ⟨status, items, rfl, ?_⟩
    rw [graphPost, if_neg hne]

private theorem forall_lt_length_cons {α : Type*} {P : ℕ → Prop} (a : α) (as : List α) :
    (∀ i < (a :: as).length, P i) ↔ P 0 ∧ ∀ i < as.length, P (i + 1) := by
  rw [List.length_cons, Nat.forall_lt_succ_left]

/-- **The loop over Graph's chunks returns** exactly when none of its requests raises. -/
theorem graphBatch_ok_iff (verb : Verb) (chunks : List (List Text)) (answers : ℕ → GraphAnswer) :
    (∃ count, graphBatch verb chunks answers = .ok count) ↔
      ∀ i < chunks.length, (answers i).raises = false := by
  induction chunks generalizing answers with
  | nil => simp [graphBatch]
  | cons chunk chunks ih =>
    rw [forall_lt_length_cons, ← ih, graphBatch]
    cases hpost : graphPost (answers 0) with
    | error message =>
      -- the first request raises
      have hraises : ¬(answers 0).raises = false := fun h => by
        obtain ⟨reply, hok⟩ := (graphPost_ok_iff (answers 0)).mpr h
        rw [hpost] at hok
        cases hok
      simp [hraises]
    | ok reply =>
      have hquiet : (answers 0).raises = false := (graphPost_ok_iff (answers 0)).mp ⟨reply, hpost⟩
      cases hrest : graphBatch verb chunks fun n => answers (n + 1) with
      | error message => simp
      | ok count =>
        simp only [hquiet, true_and]
        constructor
        · intro _
          exact ⟨count, rfl⟩
        · intro _
          split
          · exact ⟨_, rfl⟩
          · exact ⟨_, rfl⟩

/-- **The loop over Gmail's chunks returns** exactly when none of them raises. -/
theorem gmailBatch_ok_iff (chunks : List (List Text)) (answers : ℕ → Option Text) :
    (∃ count, gmailBatch chunks answers = .ok count) ↔ ∀ i < chunks.length, answers i = none := by
  induction chunks generalizing answers with
  | nil => simp [gmailBatch]
  | cons chunk chunks ih =>
    rw [forall_lt_length_cons, ← ih, gmailBatch]
    cases hfirst : answers 0 with
    | some message => simp
    | none =>
      cases hrest : gmailBatch chunks fun n => answers (n + 1) with
      | error message => simp
      | ok count => simp

/-- The batch verb returns exactly when neither the folder nor a chunk raises. -/
theorem batchVerb_ok_iff (provider : Provider) (verb : Verb) (ids : List Text) (o : Outside) :
    (∃ count, batchVerb provider verb ids o = .ok count) ↔
      (provider = .microsoft → verb ≠ .delete → o.folder = none) ∧
      (provider = .gmail → ∀ i < (slices (chunkSize .gmail) ids).length, o.gmail i = none) ∧
      (provider = .microsoft →
        ∀ i < (slices (chunkSize .microsoft) ids).length, (o.graph i).raises = false) := by
  cases provider with
  | gmail => simp [batchVerb, gmailBatch_ok_iff]
  | microsoft =>
    cases hfolder : o.folder with
    | none => cases verb <;> simp [batchVerb, hfolder, graphBatch_ok_iff]
    | some message => cases verb <;> simp [batchVerb, hfolder, graphBatch_ok_iff]

/-- The engine's part is confirmed exactly when nothing raises and the answer arrives. -/
theorem callEngine_ok_iff (provider : Provider) (verb : Verb) (ids : List Text) (o : Outside) :
    (∃ count, callEngine provider verb ids o = .ok count) ↔
      (verb = .delete → o.archive = none) ∧ o.signIn = none ∧
      (∃ count, batchVerb provider verb ids o = .ok count) ∧ o.delivered = true := by
  have hengine : (∃ count, assertEngineApplied verb
      (postJson o (cleanupEndpoint provider verb ids o)) = .ok count) ↔
      o.signIn = none ∧ (∃ count, batchVerb provider verb ids o = .ok count) ∧
        o.delivered = true := by
    unfold cleanupEndpoint
    cases o.signIn with
    | some message => simp [postJson, assertEngineApplied]
    | none =>
      cases batchVerb provider verb ids o with
      | error message => simp [postJson, assertEngineApplied]
      | ok count => cases hdelivered : o.delivered <;> simp [postJson, assertEngineApplied, hdelivered]
  unfold callEngine
  -- only a deletion is archived first
  cases verb with
  | delete => cases o.archive <;> simp [hengine]
  | trash => simp [hengine]
  | organize => simp [hengine]

/-- **A batch is recorded COMPLETED** exactly when the mode has a verb and nothing raises. -/
theorem completed_iff (recorder : Recorder) (mode : CleanupMode) (provider : Provider)
    (safe : List PlanRow) (ids : List Text) (o : Outside) :
    (∃ result, runCleanup recorder mode provider safe ids o = .completed result) ↔
      ∃ verb, verbOf recorder mode = .ok verb ∧ Undisturbed provider verb ids o := by
  -- A failure is recorded as one, and never as a completed batch.
  have hfailure : ∀ reason, ¬∃ result, recordFailure recorder o reason = .completed result := by
    intro reason
    unfold recordFailure
    rintro ⟨result, heq⟩
    split at heq <;> cases heq
  unfold runCleanup
  cases hverb : verbOf recorder mode with
  | error reason => simpa using hfailure reason
  | ok verb =>
    have hcall := callEngine_ok_iff provider verb ids o
    rw [batchVerb_ok_iff] at hcall
    simp only
    cases hengine : callEngine provider verb ids o with
    | error reason =>
      rw [hengine] at hcall
      -- The engine has raised, so nothing is completed on either side.
      constructor
      · intro hcompleted
        exact absurd hcompleted (hfailure reason)
      · rintro ⟨verb', heq, h⟩
        cases heq
        obtain ⟨count, hok⟩ := hcall.mpr
          ⟨h.archive, h.signIn, ⟨h.folder, h.gmail, h.graph⟩, h.delivered⟩
        cases hok
    | ok count =>
      obtain ⟨harchive, hsignIn, ⟨hfolder, hgmail, hgraph⟩, hdelivered⟩ := hcall.mp ⟨count, hengine⟩
      cases hdatabase : o.database with
      | some message =>
        -- The database refuses the outcome.
        constructor
        · rintro ⟨result, heq⟩
          cases heq
        · rintro ⟨verb', -, h⟩
          rw [h.database] at hdatabase
          cases hdatabase
      | none =>
        -- Nothing has stood in the way.
        constructor
        · intro _
          exact ⟨verb, rfl, harchive, hsignIn, hfolder, hgmail, hgraph, hdelivered, hdatabase⟩
        · intro _
          exact ⟨_, rfl⟩

/-! ### What was carried out -/

/-- Slices of a positive length hold everything that was sliced. -/
theorem exists_mem_slices {n : ℕ} (hn : 0 < n) {ids : List Text} {id : Text} (h : id ∈ ids) :
    ∃ chunk ∈ slices n ids, id ∈ chunk := by
  obtain ⟨k, hk⟩ := List.mem_iff_getElem?.mp h
  have hlt : k < ids.length := by
    rw [List.getElem?_eq_some_iff] at hk
    exact hk.1
  -- the id is in the slice that its index falls into
  refine ⟨(ids.drop (k / n * n)).take n, ?_, ?_⟩
  · refine List.mem_map.mpr ⟨k / n, ?_, rfl⟩
    rw [List.mem_range, Nat.div_lt_iff_lt_mul hn]
    have hceil := Nat.lt_div_mul_add hn (a := ids.length + n - 1)
    omega
  · refine List.mem_iff_getElem?.mpr ⟨k % n, ?_⟩
    rw [List.getElem?_take, if_pos (Nat.mod_lt k hn), List.getElem?_drop, Nat.div_add_mod']
    exact hk

/-- Gmail carries out every chunk when none raises. -/
theorem mem_gmailApplied {chunks : List (List Text)} {answers : ℕ → Option Text}
    (hquiet : ∀ i < chunks.length, answers i = none) {chunk : List Text} (hchunk : chunk ∈ chunks)
    {id : Text} (hid : id ∈ chunk) : id ∈ gmailApplied chunks answers := by
  induction chunks generalizing answers with
  | nil => cases hchunk
  | cons first chunks ih =>
    obtain ⟨hfirst, hrest⟩ := (forall_lt_length_cons first chunks).mp hquiet
    rw [gmailApplied, hfirst]
    simp only
    rcases List.mem_cons.mp hchunk with rfl | hchunk
    · exact List.mem_append_left _ hid
    · exact List.mem_append_right _ (ih hrest hchunk)

/-- What Graph carries out of one chunk. -/
theorem mem_filter_zipIdx {chunk : List Text} {items : ℕ → ℕ} {id : Text} :
    id ∈ (chunk.zipIdx.filter fun item => isSuccess (items item.2)).map (·.1) ↔
      ∃ j, chunk[j]? = some id ∧ isSuccess (items j) = true := by
  rw [List.mem_map]
  constructor
  · rintro ⟨⟨id', j⟩, hmem, rfl⟩
    obtain ⟨hzip, hsuccess⟩ := List.mem_filter.mp hmem
    exact ⟨j, List.mem_zipIdx_iff_getElem?.mp hzip, hsuccess⟩
  · rintro ⟨j, hget, hsuccess⟩
    exact ⟨(id, j), List.mem_filter.mpr ⟨List.mem_zipIdx_iff_getElem?.mpr hget, hsuccess⟩, rfl⟩

/-- **What Graph carries out** when no request raises: the items that have succeeded, of the
chunks it has accepted. -/
theorem mem_graphApplied_iff {chunks : List (List Text)} {answers : ℕ → GraphAnswer}
    (hquiet : ∀ i < chunks.length, (answers i).raises = false) {id : Text} :
    id ∈ graphApplied chunks answers ↔ ∃ i j chunk items, chunks[i]? = some chunk ∧
      chunk[j]? = some id ∧ answers i = .answered 200 items ∧ isSuccess (items j) = true := by
  induction chunks generalizing answers with
  | nil => simp [graphApplied]
  | cons chunk chunks ih =>
    obtain ⟨hfirst, hrest⟩ := (forall_lt_length_cons chunk chunks).mp hquiet
    obtain ⟨status, items, hanswer, hpost⟩ := graphPost_of_not_raises hfirst
    rw [graphApplied, hpost]
    simp only
    rw [List.mem_append, ih hrest]
    constructor
    · rintro (hhere | ⟨i, j, chunk', items', hchunk, hid, hcode, hsuccess⟩)
      · -- an item of the first chunk
        split at hhere
        · next hcode =>
          obtain ⟨j, hget, hsuccess⟩ := mem_filter_zipIdx.mp hhere
          refine ⟨0, j, chunk, items, rfl, hget, ?_, hsuccess⟩
          rw [hanswer, hcode]
        · cases hhere
      · -- An item of a later chunk.
        exact ⟨i + 1, j, chunk', items', hchunk, hid, hcode, hsuccess⟩
    · rintro ⟨i, j, chunk', items', hchunk, hid, hcode, hsuccess⟩
      -- The index of the chunk tells which call has the item.
      cases i with
      | zero =>
        left
        cases hchunk
        rw [hanswer] at hcode
        cases hcode
        rw [if_pos rfl]
        exact mem_filter_zipIdx.mpr ⟨j, hid, hsuccess⟩
      | succ i => exact .inr ⟨i, j, chunk', items', hchunk, hid, hcode, hsuccess⟩

/-- What a verb is carried out for when nothing raises. -/
theorem mem_applied_iff {provider : Provider} {verb : Verb} {ids : List Text} {o : Outside}
    (h : Undisturbed provider verb ids o) {id : Text} (hid : id ∈ ids) :
    id ∈ applied provider verb ids o ↔ provider = .gmail ∨ GraphAccepted ids o id := by
  cases provider with
  | gmail =>
    -- no chunk raises, so every one of them is carried out
    obtain ⟨chunk, hchunk, hmem⟩ := exists_mem_slices (n := chunkSize .gmail) (by decide) hid
    have happlied := mem_gmailApplied (h.gmail rfl) hchunk hmem
    exact iff_of_true happlied (.inl rfl)
  | microsoft =>
    have hgraph : applied .microsoft verb ids o =
        graphApplied (slices (chunkSize .microsoft) ids) o.graph := by
      have hfolder := h.folder rfl
      cases verb with
      | delete => rfl
      | trash => simp [applied, hfolder]
      | organize => simp [applied, hfolder]
    rw [hgraph, mem_graphApplied_iff (h.graph rfl), GraphAccepted]
    simp

/-- **When a completed batch means what it says.** The messages of a batch that is recorded
COMPLETED have all been cleaned up if and only if, unless something raises or the answer is
lost, the provider is Gmail or Graph has accepted every message and its chunk. -/
theorem completed_means_applied_iff (recorder : Recorder) (mode : CleanupMode)
    (provider : Provider) (safe : List PlanRow) (ids : List Text) (o : Outside) :
    (∀ result, runCleanup recorder mode provider safe ids o = .completed result →
      ∃ verb, verbOf recorder mode = .ok verb ∧ ∀ id ∈ ids, id ∈ applied provider verb ids o) ↔
    ∀ verb, verbOf recorder mode = .ok verb → Undisturbed provider verb ids o →
      provider = .gmail ∨ ∀ id ∈ ids, GraphAccepted ids o id := by
  constructor
  · -- What is undisturbed is completed, and so was applied.
    intro h verb hverb hquiet
    obtain ⟨result, hcompleted⟩ :=
      (completed_iff recorder mode provider safe ids o).mpr ⟨verb, hverb, hquiet⟩
    obtain ⟨verb', hverb', happlied⟩ := h result hcompleted
    rw [hverb] at hverb'
    cases hverb'
    cases provider with
    | gmail => exact .inl rfl
    | microsoft =>
      right
      intro id hid
      rcases (mem_applied_iff hquiet hid).mp (happlied id hid) with hgmail | haccepted
      · cases hgmail
      · exact haccepted
  · -- What is completed was undisturbed, and Gmail applies all or raises.
    intro h result hcompleted
    obtain ⟨verb, hverb, hquiet⟩ :=
      (completed_iff recorder mode provider safe ids o).mp ⟨result, hcompleted⟩
    refine ⟨verb, hverb, ?_⟩
    intro id hid
    rw [mem_applied_iff hquiet hid]
    rcases h verb hverb hquiet with hgmail | haccepted
    · exact .inl hgmail
    · exact .inr (haccepted id hid)

section Examples

/-- Graph is unavailable when it is asked to move a message. -/
private def unavailable : Outside where
  archive := none
  signIn := none
  folder := none
  gmail _ := none
  graph _ := .answered 503 fun _ => 0
  delivered := true
  database := none

/-- Graph refuses the only chunk of a staged batch with a 503. Nothing is moved, and the
batch is recorded COMPLETED. -/
theorem refused_chunk_is_completed :
    runCleanup .approveCleanupBatch .trash .microsoft [⟨"m1".toList, 2⟩] ["m1".toList]
        unavailable = .completed ⟨0, 1, 2, 1⟩ ∧
      verbOf .approveCleanupBatch .trash = .ok .trash ∧
      "m1".toList ∉ applied .microsoft .trash ["m1".toList] unavailable := by
  refine ⟨rfl, rfl, ?_⟩
  decide

end Examples

end Cleanup
end EmailOps
