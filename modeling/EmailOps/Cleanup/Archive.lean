import Mathlib.Algebra.Ring.Nat
import EmailOps.Email.Types

/-!
# Archives

Before messages are deleted for good, the cleaner engine exports their raw MIME content
into a ZIP file, puts the file into the object store, and reads it back to verify it.

* `exportMessages` is the export loop of a provider: it answers for every id it was given
  or fails as a whole.
* `createArchive` writes the exported messages and the manifest; two ids may share a file
  name, and a reader of the file then gets the member written last.
* `verifyArchive` checks the digest of every entry of the manifest.

`createArchive_covers` says what a created archive holds, `verifyArchive_success` what an
accepted one does. Together, in `holds_of_covers`, the raw content of every id is in the
file, and what a restore would read for it has the same digest.
-/

namespace EmailOps
namespace Cleanup

open Framework

/-! ### Libraries -/

abbrev Bytes := List UInt8

/-- The library functions the archiver calls. -/
structure Library where
  /-- `hashlib.sha256(b).hexdigest()`. -/
  sha256 : Bytes → Text
  /-- `base64.urlsafe_b64decode`; `none` when it raises. -/
  urlsafeB64decode : Text → Option Bytes
  /-- `str.isalnum` of one character. -/
  isalnum : Char → Bool

variable (lib : Library)

/-! ### Exporting -/

inductive Provider where
  | gmail | microsoft
  deriving DecidableEq, Repr

/-- The provider as its wire name. -/
def Provider.wire : Provider → String
  | .gmail => "gmail"
  | .microsoft => "microsoft"

/-- What a provider answers to the fetch of one message. -/
inductive Fetched where
  /-- An HTTP or transport error. -/
  | raised (message : Text)
  /-- Gmail's message resource. -/
  | gmail (raw : Option Text) (labelIds : List Text)
  /-- The content of Graph's `$value`. -/
  | microsoft (content : Bytes)

/-- A message as `export_messages` yields it. -/
structure Exported where
  id : Text
  raw : Bytes
  labelIds : List Text
  deriving DecidableEq

/-- One round of the export loop. -/
def exportMessage (provider : Provider) (id : Text) (fetched : Fetched) : Except Text Exported :=
  match provider, fetched with
  | .gmail, .gmail raw labelIds =>
    match raw with
    | none | some [] =>
      .error ("Message ".toList ++ id ++ " did not include raw RFC822 data".toList)
    | some raw =>
      match lib.urlsafeB64decode raw with
      | some content => .ok ⟨id, content, labelIds⟩
      | none => .error "Incorrect padding".toList
  | .microsoft, .microsoft content => .ok ⟨id, content, []⟩
  | _, .raised message => .error message
  | _, _ => .error "unexpected answer".toList

/-- Export the messages in order, the `n`-th of them with the `n`-th answer. -/
def exportMessages (provider : Provider) : List Text → (ℕ → Fetched) → Except Text (List Exported)
  | [], _ => .ok []
  | id :: ids, answers =>
    match exportMessage lib provider id (answers 0) with
    | .error message => .error message
    | .ok exported =>
      match exportMessages provider ids fun n => answers (n + 1) with
      | .error message => .error message
      | .ok rest => .ok (exported :: rest)

/-! ### ZIP files -/

structure ManifestEntry where
  id : Text
  file : Text
  bytes : ℕ
  sha256 : Text
  labels : List Text
  deriving DecidableEq

structure Manifest where
  version : Text
  format : Text
  createdAt : Text
  query : Text
  provider : Provider
  messageIds : List Text
  totalMessages : ℕ
  messages : List ManifestEntry
  deriving DecidableEq

/-- The content of a member: raw MIME, or the manifest's JSON text. -/
inductive Content where
  | mime (raw : Bytes)
  | manifest (m : Manifest)
  deriving DecidableEq

structure Member where
  name : Text
  content : Content
  deriving DecidableEq

/-- A ZIP file: its members in the order they were written. -/
abbrev Zip := List Member

/-- Read a member. Of several under one name it is the last. -/
def Zip.read (zip : Zip) (name : Text) : Option Content :=
  (zip.reverse.find? (·.name = name)).map (·.content)

def manifestName : Text := "manifest.json".toList

/-- The manifest of a file, when it has one that parses. -/
def Zip.manifest (zip : Zip) : Option Manifest :=
  match zip.read manifestName with
  | some (.manifest m) => some m
  | _ => none

/-! ### Creating an archive -/

/-- `_safe_filename`. -/
def safeFilename (value : Text) : Text :=
  let name := value.map fun ch =>
    if lib.isalnum ch || ch = '-' || ch = '_' || ch = '.' then ch else '_'
  if name = [] then "message".toList else name

def memberName (id : Text) : Text :=
  "messages/".toList ++ safeFilename lib id ++ ".eml".toList

/-- The manifest's entry for a message. -/
def entryOf (exported : Exported) : ManifestEntry where
  id := exported.id
  file := memberName lib exported.id
  bytes := exported.raw.length
  sha256 := lib.sha256 exported.raw
  labels := exported.labelIds

/-- The file's member for a message. -/
def memberOf (exported : Exported) : Member :=
  ⟨memberName lib exported.id, .mime exported.raw⟩

def manifestOf (provider : Provider) (createdAt query : Text) (ids : List Text)
    (exported : List Exported) : Manifest where
  version := "2.1".toList
  format := "eml_zip".toList
  createdAt := createdAt
  query := query
  provider := provider
  messageIds := ids
  totalMessages := exported.length
  messages := exported.map (entryOf lib)

/-- What is asked of `create_archive`. -/
structure ArchiveRequest where
  provider : Provider
  messageIds : List Text
  bucket : String
  key : String
  query : Text
  createdAt : Text

/-- What `create_archive` answers about the object it has stored. -/
structure ArchiveRef where
  bucket : String
  key : String
  format : Text
  totalMessages : ℕ
  contentBytes : ℕ
  createdAt : Text
  deriving DecidableEq

def ArchiveRequest.ref (request : ArchiveRequest) (exported : List Exported) : ArchiveRef where
  bucket := request.bucket
  key := request.key
  format := "eml_zip".toList
  totalMessages := exported.length
  contentBytes := (exported.map (·.raw.length)).sum
  createdAt := request.createdAt

/-- The exported messages of an archive, and the file that holds them. -/
def createArchive (request : ArchiveRequest) (answers : ℕ → Fetched) :
    Except Text (List Exported × Zip) :=
  if request.bucket = "" ∨ request.key = "" then .error "archive bucket and key are required".toList
  else
    match exportMessages lib request.provider request.messageIds answers with
    | .error message => .error message
    | .ok exported =>
      .ok (exported, exported.map (memberOf lib) ++
        [⟨manifestName, .manifest (manifestOf lib request.provider request.createdAt
          request.query request.messageIds exported)⟩])

/-! ### Verifying an archive -/

structure VerifyResult where
  success : Bool
  totalMessages : ℕ
  message : Text
  deriving DecidableEq

/-- The loop over the entries; `none` when every one is intact. -/
def firstBroken (zip : Zip) : List ManifestEntry → Option Text
  | [] => none
  | entry :: entries =>
    match zip.read entry.file with
    | some (.mime data) =>
      if lib.sha256 data ≠ entry.sha256 then some ("sha256 mismatch for ".toList ++ entry.id)
      else firstBroken zip entries
    | some (.manifest _) => some ("sha256 mismatch for ".toList ++ entry.id)
    | none => some ("archive verification failed: no item named ".toList ++ entry.file)

/-- Verify what was downloaded, if anything was. -/
def verifyArchive (object : Option Zip) : VerifyResult :=
  match object with
  | none => ⟨false, 0, "archive verification failed: Not Found".toList⟩
  | some zip =>
    match zip.manifest with
    | none => ⟨false, 0, "archive verification failed: no manifest".toList⟩
    | some m =>
      match firstBroken lib zip m.messages with
      | some message => ⟨false, 0, message⟩
      | none =>
        ⟨true, m.messages.length, "Archive verified: ".toList ++
          (toString m.messages.length).toList ++ " messages intact".toList⟩

/-! ### What an archive holds -/

/-- The manifest lists the message, and its content is a member of the file. -/
def Covers (zip : Zip) (id : Text) (raw : Bytes) : Prop :=
  ∃ m entry, zip.manifest = some m ∧ entry ∈ m.messages ∧ entry.id = id ∧
    entry.sha256 = lib.sha256 raw ∧ (⟨entry.file, .mime raw⟩ : Member) ∈ zip

/-- **The file holds the message.** Moreover, what is read under the name the manifest
gives, and so what a restore imports, has the digest of the message's content. -/
def Holds (zip : Zip) (id : Text) (raw : Bytes) : Prop :=
  ∃ m entry data, zip.manifest = some m ∧ entry ∈ m.messages ∧ entry.id = id ∧
    (⟨entry.file, .mime raw⟩ : Member) ∈ zip ∧ zip.read entry.file = some (.mime data) ∧
    lib.sha256 data = lib.sha256 raw

variable {lib}

/-- A message is exported under the id it was asked for. -/
theorem exportMessage_id {provider : Provider} {id : Text} {fetched : Fetched}
    {exported : Exported} (h : exportMessage lib provider id fetched = .ok exported) :
    exported.id = id := by
  unfold exportMessage at h
  split at h
  · -- A message of Gmail is there with its content, and the content decodes.
    split at h
    · cases h
    · cases h
    · split at h
      · cases h
        rfl
      · cases h
  · -- Graph answers with the content itself.
    cases h
    rfl
  · cases h
  · cases h

/-- **The export loop answers for every id**, in order, or it fails. -/
theorem exportMessages_ids {provider : Provider} {ids : List Text} {answers : ℕ → Fetched}
    {exported : List Exported} (h : exportMessages lib provider ids answers = .ok exported) :
    exported.map (·.id) = ids := by
  induction ids generalizing answers exported with
  | nil =>
    cases h
    rfl
  | cons id ids ih =>
    unfold exportMessages at h
    -- One message that cannot be exported ends the loop.
    cases hone : exportMessage lib provider id (answers 0) with
    | error message =>
      rw [hone] at h
      cases h
    | ok first =>
      rw [hone] at h
      simp only at h
      cases hrest : exportMessages lib provider ids fun n => answers (n + 1) with
      | error message =>
        rw [hrest] at h
        cases h
      | ok rest =>
        rw [hrest] at h
        cases h
        rw [List.map_cons, exportMessage_id hone, ih hrest]

/-- The manifest is written last, so it is the one that is read. -/
theorem manifest_append (members : List Member) (m : Manifest) :
    Zip.manifest (members ++ [⟨manifestName, .manifest m⟩]) = some m := by
  have hread : Zip.read (members ++ [⟨manifestName, .manifest m⟩]) manifestName =
      some (.manifest m) := by
    unfold Zip.read
    rw [List.reverse_append, List.reverse_singleton, List.singleton_append,
      List.find?_cons_of_pos (by simp)]
    rfl
  unfold Zip.manifest
  rw [hread]

/-- **A created archive covers every id it was asked for**, with the content that was
exported for it. -/
theorem createArchive_covers {request : ArchiveRequest} {answers : ℕ → Fetched}
    {exported : List Exported} {zip : Zip}
    (h : createArchive lib request answers = .ok (exported, zip)) :
    ∀ id ∈ request.messageIds, ∃ e ∈ exported, e.id = id ∧ Covers lib zip id e.raw := by
  unfold createArchive at h
  split at h
  · cases h
  · cases hexport : exportMessages lib request.provider request.messageIds answers with
    | error message =>
      rw [hexport] at h
      cases h
    | ok all =>
      rw [hexport] at h
      cases h
      intro id hid
      -- The messages asked for are the messages exported.
      rw [← exportMessages_ids hexport] at hid
      obtain ⟨e, he, rfl⟩ := List.mem_map.mp hid
      refine ⟨e, he, rfl, _, entryOf lib e, manifest_append _ _, List.mem_map_of_mem he, rfl, rfl,
        List.mem_append_left _ ?_⟩
      exact List.mem_map_of_mem (f := memberOf lib) he

/-- The loop finds nothing broken only when every entry reads back with its digest. -/
theorem firstBroken_none {zip : Zip} {entries : List ManifestEntry}
    (h : firstBroken lib zip entries = none) :
    ∀ entry ∈ entries, ∃ data, zip.read entry.file = some (.mime data) ∧
      lib.sha256 data = entry.sha256 := by
  induction entries with
  | nil =>
    intro entry hentry
    cases hentry
  | cons first entries ih =>
    unfold firstBroken at h
    -- An entry without its file breaks the archive.
    cases hread : zip.read first.file with
    | none =>
      rw [hread] at h
      cases h
    | some content =>
      cases content with
      | manifest m =>
        rw [hread] at h
        cases h
      -- The file is there, so only the digest can differ.
      | mime data =>
        rw [hread] at h
        simp only at h
        split at h
        · cases h
        · rename_i hdigest
          intro entry hentry
          rcases List.mem_cons.mp hentry with rfl | hentry
          · exact ⟨data, hread, not_not.mp hdigest⟩
          · exact ih h entry hentry

/-- **What verification accepts.** -/
theorem verifyArchive_success {object : Option Zip} (h : (verifyArchive lib object).success = true) :
    ∃ zip m, object = some zip ∧ zip.manifest = some m ∧
      ∀ entry ∈ m.messages, ∃ data, zip.read entry.file = some (.mime data) ∧
        lib.sha256 data = entry.sha256 := by
  unfold verifyArchive at h
  cases object with
  | none => cases h
  | some zip =>
    simp only at h
    -- Without a manifest nothing is verified.
    cases hm : zip.manifest with
    | none =>
      rw [hm] at h
      cases h
    | some m =>
      rw [hm] at h
      simp only at h
      cases hbroken : firstBroken lib zip m.messages with
      | some message =>
        rw [hbroken] at h
        cases h
      | none => exact ⟨zip, m, rfl, hm, firstBroken_none hbroken⟩

theorem holds_of_covers {zip : Zip} (haccepted : (verifyArchive lib (some zip)).success = true)
    {id : Text} {raw : Bytes} (hcovers : Covers lib zip id raw) : Holds lib zip id raw := by
  obtain ⟨m, entry, hm, hentry, hid, hdigest, hmember⟩ := hcovers
  obtain ⟨zip', m', hzip, hm', hintact⟩ := verifyArchive_success haccepted
  cases hzip
  have hsame : m = m' := Option.some.inj (hm.symm.trans hm')
  obtain ⟨data, hread, hdata⟩ := hintact entry (hsame ▸ hentry)
  exact ⟨m, entry, data, hm, hentry, hid, hmember, hread, hdata.trans hdigest⟩

end Cleanup
end EmailOps
