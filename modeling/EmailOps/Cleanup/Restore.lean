import EmailOps.Cleanup.Archive

/-!
# Restoring an archive

`restore_archive` reads every entry of an archive's manifest back, checks its digest, and
imports it into the account with the labels it had. An import that fails is recorded, and
the loop goes on.

* `restoreLoop` and `restoreArchive` are the restore, `ImportAnswer` is what the provider
  does with one import.
* `RoundTrips` is what an archive is for: it is accepted by the verification, and its
  restore imports exactly what was exported.

The file has one member for each *file name*, and `safeFilename` maps different ids to one
name: `a/b` and `a_b` are both `a_b`. What is read under a shared name is the message
written last (`read_memberName`). So an archive makes the round trip exactly when messages
that share a name also share their content (`roundTrips_iff`).
-/

namespace EmailOps
namespace Cleanup

open Framework

/-! ### The restore -/

/-- A message as it is passed to `import_message`. -/
structure Import where
  raw : Bytes
  labels : List Text
  deriving DecidableEq

/-- What the provider does with an import. A call that raises may have had its effect. -/
structure ImportAnswer where
  /-- The message is in the account. -/
  imported : Bool
  /-- The text of the exception. -/
  raised : Option Text
  deriving DecidableEq

/-- The answer to an import that went well. -/
def ImportAnswer.accepted : ImportAnswer := ⟨true, none⟩

/-- What `restore_archive` returns. -/
structure RestoreResult where
  restored : ℕ
  failed : List (Text × Text)
  deriving DecidableEq

/-- The messages that are in the account after a restore, and what it returns. -/
structure Restored where
  imports : List Import
  result : RestoreResult
  deriving DecidableEq

variable (lib : Library)

/-- The message an entry restores to, when it reads back intact. -/
def importOf (zip : Zip) (entry : ManifestEntry) : Except Text Import :=
  match zip.read entry.file with
  | some (.mime data) =>
    if lib.sha256 data ≠ entry.sha256 then .error "sha256 mismatch".toList
    else .ok ⟨data, entry.labels⟩
  | some (.manifest _) => .error "sha256 mismatch".toList
  | none =>
    .error ("\"There is no item named '".toList ++ entry.file ++ "' in the archive\"".toList)

/-- The round of the loop for one entry, before the others. -/
def restoreEntry (zip : Zip) (entry : ManifestEntry) (answer : ImportAnswer) (rest : Restored) :
    Restored :=
  match importOf lib zip entry with
  | .error message =>
    { rest with result := ⟨rest.result.restored, (entry.id, message) :: rest.result.failed⟩ }
  | .ok message =>
    { imports := if answer.imported then message :: rest.imports else rest.imports
      result :=
        match answer.raised with
        | none => ⟨rest.result.restored + 1, rest.result.failed⟩
        | some error => ⟨rest.result.restored, (entry.id, error) :: rest.result.failed⟩ }

/-- The loop over the entries, with the answer to the `n`-th of them. -/
def restoreLoop (zip : Zip) : List ManifestEntry → (ℕ → ImportAnswer) → Restored
  | [], _ => ⟨[], ⟨0, []⟩⟩
  | entry :: entries, answers =>
    restoreEntry lib zip entry (answers 0) (restoreLoop zip entries fun n => answers (n + 1))

/-- `restore_archive`, on what was downloaded. Without a manifest it raises. -/
def restoreArchive (object : Option Zip) (answers : ℕ → ImportAnswer) : Except Text Restored :=
  match object with
  | none => .error "Not Found".toList
  | some zip =>
    match zip.manifest with
    | none => .error "no manifest".toList
    | some m => .ok (restoreLoop lib zip m.messages answers)

/-! ### What a created archive reads back as -/

/-- The manifest and the members of a created archive. -/
def archiveOf (request : ArchiveRequest) (exported : List Exported) : Zip :=
  exported.map (memberOf lib) ++
    [⟨manifestName, .manifest (manifestOf lib request.provider request.createdAt request.query
      request.messageIds exported)⟩]

/-- An exported message as its import. -/
def Exported.import (exported : Exported) : Import :=
  ⟨exported.raw, exported.labelIds⟩

variable {lib}

/-- What `create_archive` makes, when it does not raise. -/
theorem createArchive_ok {request : ArchiveRequest} {answers : ℕ → Fetched}
    {exported : List Exported} {zip : Zip}
    (h : createArchive lib request answers = .ok (exported, zip)) :
    exportMessages lib request.provider request.messageIds answers = .ok exported ∧
      zip = archiveOf lib request exported := by
  unfold createArchive at h
  split at h
  · cases h
  · -- the bucket and the key are there, and the loop decides
    cases hexport : exportMessages lib request.provider request.messageIds answers with
    | error message =>
      rw [hexport] at h
      cases h
    | ok all =>
      rw [hexport] at h
      cases h
      exact ⟨rfl, rfl⟩

theorem manifest_archiveOf (request : ArchiveRequest) (exported : List Exported) :
    (archiveOf lib request exported).manifest = some (manifestOf lib request.provider
      request.createdAt request.query request.messageIds exported) :=
  manifest_append _ _

theorem memberName_eq_iff (id id' : Text) :
    memberName lib id = memberName lib id' ↔ safeFilename lib id = safeFilename lib id' := by
  unfold memberName
  rw [List.append_assoc, List.append_assoc, List.append_cancel_left_eq,
    List.append_cancel_right_eq]

theorem memberName_ne_manifestName (id : Text) : memberName lib id ≠ manifestName := by
  unfold memberName manifestName
  intro heq
  -- the second characters differ: `messages/…` and `manifest.json`
  have hsecond := congrArg (fun t : Text => t.take 2) heq
  simp at hsecond

/-- **What is read under the name of a message** is the content of some message with the
same file name. -/
theorem read_memberName (request : ArchiveRequest) {exported : List Exported} {e : Exported}
    (he : e ∈ exported) :
    ∃ f ∈ exported, safeFilename lib f.id = safeFilename lib e.id ∧
      (archiveOf lib request exported).read (memberName lib e.id) = some (.mime f.raw) := by
  have hne : ¬manifestName = memberName lib e.id :=
    fun heq => memberName_ne_manifestName e.id heq.symm
  -- the reader passes the manifest over, and stops at the last member of the name
  have hread : (archiveOf lib request exported).read (memberName lib e.id) =
      ((exported.map (memberOf lib)).reverse.find? (·.name = memberName lib e.id)).map
        (·.content) := by
    unfold Zip.read archiveOf
    rw [List.reverse_append, List.reverse_singleton, List.singleton_append,
      List.find?_cons_of_neg (by simpa using hne)]
  have hsome : ((exported.map (memberOf lib)).reverse.find?
      (·.name = memberName lib e.id)).isSome = true := by
    rw [List.find?_isSome]
    refine ⟨memberOf lib e, ?_, decide_eq_true rfl⟩
    rw [List.mem_reverse]
    exact List.mem_map_of_mem he
  obtain ⟨member, hfind⟩ := Option.isSome_iff_exists.mp hsome
  have hname : member.name = memberName lib e.id := by
    simpa using List.find?_some hfind
  have hmem : member ∈ exported.map (memberOf lib) := by
    rw [← List.mem_reverse]
    exact List.mem_of_find?_eq_some hfind
  obtain ⟨f, hf, rfl⟩ := List.mem_map.mp hmem
  refine ⟨f, hf, (memberName_eq_iff f.id e.id).mp hname, ?_⟩
  rw [hread, hfind]
  rfl

/-! ### The round trip -/

variable (lib)

/-- **The round trip of an archive.** It is verified, and a restore into an account that
takes every message imports what was exported, each message once. -/
structure RoundTrips (exported : List Exported) (zip : Zip) : Prop where
  verified : (verifyArchive lib (some zip)).success = true
  restored : ∃ r, restoreArchive lib (some zip) (fun _ => .accepted) = .ok r ∧
    r.imports.Perm (exported.map Exported.import) ∧
    r.result = ⟨exported.length, []⟩

/-- Messages that share a file name share their content. -/
def SharesOnlyContent (exported : List Exported) : Prop :=
  ∀ e ∈ exported, ∀ f ∈ exported, safeFilename lib e.id = safeFilename lib f.id → e.raw = f.raw

/-- The digest tells the messages apart. -/
def CollisionFree (exported : List Exported) : Prop :=
  ∀ e ∈ exported, ∀ f ∈ exported, lib.sha256 e.raw = lib.sha256 f.raw → e.raw = f.raw

variable {lib}

theorem read_of_sharesOnlyContent (request : ArchiveRequest) {exported : List Exported}
    (h : SharesOnlyContent lib exported) {e : Exported} (he : e ∈ exported) :
    (archiveOf lib request exported).read (memberName lib e.id) = some (.mime e.raw) := by
  obtain ⟨f, hf, hname, hread⟩ := read_memberName request he
  rw [hread, h f hf e he hname]

/-- The verification's loop accepts entries that read back as they were written. -/
theorem firstBroken_map_entryOf {zip : Zip} {exported : List Exported}
    (h : ∀ e ∈ exported, zip.read (memberName lib e.id) = some (.mime e.raw)) :
    firstBroken lib zip (exported.map (entryOf lib)) = none := by
  induction exported with
  | nil => rfl
  | cons e exported ih =>
    have hread : zip.read (entryOf lib e).file = some (.mime e.raw) := h e List.mem_cons_self
    have hrest := ih fun f hf => h f (List.mem_cons_of_mem e hf)
    have hdigest : ¬lib.sha256 e.raw ≠ (entryOf lib e).sha256 := not_not.mpr rfl
    rw [List.map_cons, firstBroken, hread]
    simp only
    rw [if_neg hdigest, hrest]

/-- The restore's loop imports them all. -/
theorem restoreLoop_map_entryOf {zip : Zip} {exported : List Exported}
    (h : ∀ e ∈ exported, zip.read (memberName lib e.id) = some (.mime e.raw)) :
    restoreLoop lib zip (exported.map (entryOf lib)) (fun _ => .accepted) =
      ⟨exported.map Exported.import, exported.length, []⟩ := by
  induction exported with
  | nil => rfl
  | cons e exported ih =>
    have hread : zip.read (entryOf lib e).file = some (.mime e.raw) := h e List.mem_cons_self
    have hrest := ih fun f hf => h f (List.mem_cons_of_mem e hf)
    have himport : importOf lib zip (entryOf lib e) = .ok e.import := by
      have hdigest : ¬lib.sha256 e.raw ≠ (entryOf lib e).sha256 := not_not.mpr rfl
      unfold importOf
      rw [hread]
      simp only
      rw [if_neg hdigest]
      rfl
    rw [List.map_cons, restoreLoop, hrest, restoreEntry, himport]
    rfl

/-- What is verified reads back, under every name, with the digest of each message of that
name. -/
theorem sharesOnlyContent_of_verified {request : ArchiveRequest} {exported : List Exported}
    (hfree : CollisionFree lib exported)
    (hverified : (verifyArchive lib (some (archiveOf lib request exported))).success = true) :
    SharesOnlyContent lib exported := by
  obtain ⟨zip, m, hzip, hm, hintact⟩ := verifyArchive_success hverified
  cases hzip
  rw [manifest_archiveOf] at hm
  cases hm
  -- each message has the digest of the one that is read under its name
  have hlast : ∀ e ∈ exported, ∃ f ∈ exported, f.raw = e.raw ∧
      (archiveOf lib request exported).read (memberName lib e.id) = some (.mime f.raw) := by
    intro e he
    obtain ⟨data, hdata, hdigest⟩ := hintact (entryOf lib e) (List.mem_map_of_mem he)
    obtain ⟨f, hf, -, hread⟩ := read_memberName request he
    have hsame : data = f.raw := by
      have heq := hdata.symm.trans hread
      simpa using heq
    refine ⟨f, hf, hfree f hf e he ?_, hread⟩
    rw [← hsame]
    exact hdigest
  intro e he f hf hname
  obtain ⟨e', -, he', hreadE⟩ := hlast e he
  obtain ⟨f', -, hf', hreadF⟩ := hlast f hf
  -- one name, one content
  rw [(memberName_eq_iff e.id f.id).mpr hname, hreadF] at hreadE
  have hsame : f'.raw = e'.raw := by simpa using hreadE
  rw [← he', ← hf', hsame]

/-- **When an archive makes the round trip.** Whatever ids, contents and labels were
exported, the archive is verified and restores to exactly them if and only if no two
messages with different contents have one file name. -/
theorem roundTrips_iff {request : ArchiveRequest} {answers : ℕ → Fetched}
    {exported : List Exported} {zip : Zip}
    (hcreate : createArchive lib request answers = .ok (exported, zip))
    (hfree : CollisionFree lib exported) :
    RoundTrips lib exported zip ↔ SharesOnlyContent lib exported := by
  obtain ⟨-, rfl⟩ := createArchive_ok hcreate
  constructor
  · intro h
    exact sharesOnlyContent_of_verified hfree h.verified
  · intro h
    have hread := fun e he => read_of_sharesOnlyContent request h (e := e) he
    refine ⟨?_, ?_⟩
    · -- every digest is that of the message
      unfold verifyArchive
      simp only [manifest_archiveOf]
      rw [manifestOf, firstBroken_map_entryOf hread]
    · -- the loop runs through
      refine ⟨⟨exported.map Exported.import, exported.length, []⟩, ?_, List.Perm.refl _, rfl⟩
      unfold restoreArchive
      simp only [manifest_archiveOf]
      rw [manifestOf, restoreLoop_map_entryOf hread]

section Examples

/-- The libraries, on two messages. -/
private def roundTripLibrary : Library where
  sha256 raw :=
    if raw = [104, 105] then
      "8f434346648f6b96df89dda901c5176b10a6d83961dd3c1ac88b59b2dc327aa4".toList
    else if raw = [121, 111] then
      "e9058ab198f6908f702111b0c0fb5b36f99d00554521886c40e2891b349dc7a1".toList
    else []
  urlsafeB64decode _ := none
  isalnum := Char.isAlphanum

private def exportedPair (id id' : Text) : List Exported :=
  [⟨id, [104, 105], []⟩, ⟨id', [121, 111], []⟩]

private def pairRequest (id id' : Text) : ArchiveRequest :=
  ⟨.microsoft, [id, id'], "archives", "key", [], "2026-01-01T00:00:00Z".toList⟩

private def pairAnswers (n : ℕ) : Fetched :=
  if n = 0 then .microsoft [104, 105] else .microsoft [121, 111]

private theorem exportedPair_collisionFree (id id' : Text) :
    CollisionFree roundTripLibrary (exportedPair id id') := by
  have hdistinct : roundTripLibrary.sha256 [104, 105] ≠ roundTripLibrary.sha256 [121, 111] := by
    decide
  intro e he f hf hdigest
  simp only [exportedPair, List.mem_cons, List.not_mem_nil, or_false] at he hf
  rcases he with rfl | rfl <;> rcases hf with rfl | rfl
  · rfl
  · exact absurd hdigest hdistinct
  · exact absurd hdigest.symm hdistinct
  · rfl

/-- Two messages with names of their own make the round trip. -/
theorem roundTrips_iff_pair :
    RoundTrips roundTripLibrary (exportedPair "m1".toList "m2".toList)
      (archiveOf roundTripLibrary (pairRequest "m1".toList "m2".toList)
        (exportedPair "m1".toList "m2".toList)) := by
  have hcreate : createArchive roundTripLibrary (pairRequest "m1".toList "m2".toList) pairAnswers =
      .ok (exportedPair "m1".toList "m2".toList, archiveOf roundTripLibrary
        (pairRequest "m1".toList "m2".toList) (exportedPair "m1".toList "m2".toList)) := rfl
  refine (roundTrips_iff hcreate (exportedPair_collisionFree _ _)).mpr ?_
  intro e he f hf
  simp only [exportedPair, List.mem_cons, List.not_mem_nil, or_false] at he hf
  rcases he with rfl | rfl <;> rcases hf with rfl | rfl <;> decide

/-- Two messages are exported under different ids, which have one safe file name. The
archive that is written of them is not verified. -/
theorem shared_name_is_lost :
    ∃ exported zip, ["a/b".toList, "a_b".toList].Nodup ∧
      createArchive roundTripLibrary (pairRequest "a/b".toList "a_b".toList) pairAnswers =
        .ok (exported, zip) ∧
      exported.map (·.id) = ["a/b".toList, "a_b".toList] ∧
      (verifyArchive roundTripLibrary (some zip)).success = false ∧
      ¬RoundTrips roundTripLibrary exported zip := by
  have hbroken : (verifyArchive roundTripLibrary (some (archiveOf roundTripLibrary
      (pairRequest "a/b".toList "a_b".toList)
      (exportedPair "a/b".toList "a_b".toList)))).success = false := by decide
  refine ⟨exportedPair "a/b".toList "a_b".toList, archiveOf roundTripLibrary
    (pairRequest "a/b".toList "a_b".toList) (exportedPair "a/b".toList "a_b".toList),
    by decide, rfl, rfl, hbroken, ?_⟩
  intro h
  have hverified := h.verified
  rw [hbroken] at hverified
  cases hverified

end Examples

end Cleanup
end EmailOps
