import EmailOps.Framework.FileTree

/-!
# Backups on disk

`BackupManager` of the cleaner engine. `create_backup` lists the messages page by page, fetches
each and writes it to a file of its id in the directory `messages`, and counts what it has saved.
`verify_backup` counts the entries of that directory whose suffix is `.json`.

The id is put into the file's name as it is. So a message whose id is listed again is counted
again and written over, and one whose id leads elsewhere is written there. The archives of the
same class replace such characters (`_safe_filename`).

* `BackupLaw` is the property: the backup verifies, and its total and the errors are as many as
  the distinct messages that were listed.
* `lost` counts the saved messages without an entry of their own in `messages`, and `strays` are
  the entries there that no saved message has.
* `backupLaw_iff`: the law holds if and only if no id is listed twice and there are as many
  strays as saved messages are lost.
* `sound_of_plain`: where the ids have no separators and are distinct, every file is written to
  its end and the directory is new, the law holds.
-/

namespace EmailOps
namespace Backup

open Framework

/-! ### What is listed and written -/

/-- What comes of fetching and writing a listed message. -/
inductive Attempt where
  /-- It is not read, or no file can be opened for it. -/
  | unread
  /-- A file is opened, and writing to it fails. The text is what a reader of it would be told. -/
  | cut (unreadable : Text)
  | saved
  deriving DecidableEq

/-- A message of the listing; the id is empty where it has none. -/
structure Listed where
  id : Text
  attempt : Attempt
  deriving DecidableEq

structure Manifest where
  version : Text
  createdAt : Text
  query : Text
  totalMessages : ℕ
  errors : ℕ
  path : Path
  provider : Text
  deriving DecidableEq

/-- What the verification reads of a manifest, with its defaults. -/
structure ManifestRead where
  totalMessages : ℕ := 0
  createdAt : Text := []
  query : Text := []

inductive Content where
  | message (id : Text)
  | cut (unreadable : Text)
  | manifest (m : Manifest)
  /-- A file that was there before: what reading it as a manifest gives. -/
  | foreign (read : Except Text ManifestRead)

/-- What is not in the arguments of a call. -/
structure Env where
  createdAt : Text
  providerType : Text
  defaultPath : Path

/-- The answers of `list_messages`, with the tokens of the next pages. -/
abbrev Answers := List (List Listed × Option Text)

/-- The pages up to the one without a next one; none if there is always a next one. -/
def allMessages : Answers → Option (List Listed)
  | [] => none
  | (messages, nextToken) :: answers =>
    if nextToken = none ∨ nextToken = some [] then some messages
    else (allMessages answers).map (messages ++ ·)

/-! ### Creating -/

structure Progress where
  disk : FileTree Content
  saved : ℕ
  errors : ℕ

/-- The name of a message's file. -/
def fileName (id : Text) : Text :=
  id ++ ".json".toList

def messagesDir (backupDir : Path) : Path :=
  backupDir ++ ["messages".toList]

def manifestFile (backupDir : Path) : Path :=
  backupDir ++ ["manifest.json".toList]

/-- Fetch and write one message. -/
def saveOne (dir : Path) (p : Progress) (l : Listed) : Progress :=
  if l.id = [] then { p with errors := p.errors + 1 }
  else
    match l.attempt, p.disk.locate dir (fileName l.id) with
    | .saved, some file =>
      { p with disk := p.disk.write file (.message l.id), saved := p.saved + 1 }
    | .cut e, some file => { p with disk := p.disk.write file (.cut e), errors := p.errors + 1 }
    | _, _ => { p with errors := p.errors + 1 }

/-- `create_backup`: the manifest and the disk afterwards, or none if it raises. -/
def createBackup (env : Env) (disk : FileTree Content) (query : Text) (path : Option Path)
    (answers : Answers) : Option (Manifest × FileTree Content) := do
  let backupDir := path.getD env.defaultPath
  let made ← disk.makeDirs (messagesDir backupDir)
  let listing ← allMessages answers
  let p := listing.foldl (saveOne (messagesDir backupDir)) ⟨made, 0, 0⟩
  let manifest : Manifest :=
    { version := "1.0".toList, createdAt := env.createdAt, query := query,
      totalMessages := p.saved, errors := p.errors, path := backupDir,
      provider := env.providerType }
  if p.disk.isDir (manifestFile backupDir) then none
  else some (manifest, p.disk.write (manifestFile backupDir) (.manifest manifest))

/-! ### Verifying -/

structure Verdict where
  success : Bool
  message : Text
  totalMessages : ℕ
  createdAt : Option Text
  query : Option Text
  deriving DecidableEq

/-- A path as it is printed. -/
def render (p : Path) : Text :=
  p.flatMap fun name => '/' :: name

/-- `json.load` of a file, and the defaults of `get`. -/
def Content.asManifest : Content → Except Text ManifestRead
  | .message _ => .ok {}
  | .cut unreadable => .error unreadable
  | .manifest m => .ok ⟨m.totalMessages, m.createdAt, m.query⟩
  | .foreign read => read

/-- The entries that the verification counts: those with the suffix of a message's file. -/
def isCounted (dir p : Path) : Bool :=
  p.In dir && suffix (p.getLastD []) = ".json".toList

def countedEntries (disk : FileTree Content) (dir : Path) : Finset Path :=
  (disk.entries dir).filter (isCounted dir ·)

def refuse (message : Text) : Verdict :=
  ⟨false, message, 0, none, none⟩

/-- `verify_backup`; none if it raises. -/
def verifyBackup (disk : FileTree Content) (backupDir : Path) : Option Verdict :=
  if !disk.isDir backupDir && !disk.hasFile backupDir then
    some (refuse ("Backup directory does not exist: ".toList ++ render backupDir))
  else if disk.isDir (manifestFile backupDir) then
    some (refuse ("Failed to read manifest: [Errno 21] Is a directory: '".toList ++
      render (manifestFile backupDir) ++ ['\'']))
  else
    match disk.read (manifestFile backupDir) with
    | none => some (refuse "manifest.json not found in backup directory".toList)
    | some content =>
      match content.asManifest with
      | .error e => some (refuse ("Failed to read manifest: ".toList ++ e))
      | .ok manifest =>
        if disk.hasFile (messagesDir backupDir) then none
        else
          let actual :=
            if disk.isDir (messagesDir backupDir) then
              (countedEntries disk (messagesDir backupDir)).card
            else 0
          if actual = manifest.totalMessages then
            some ⟨true, "Backup verified: ".toList ++ (toString actual).toList ++
              " messages intact".toList, actual, some manifest.createdAt, some manifest.query⟩
          else
            some ⟨false, "Message count mismatch: manifest says ".toList ++
              (toString manifest.totalMessages).toList ++ ", found ".toList ++
              (toString actual).toList ++ " files".toList, actual, none, none⟩

/-! ### The law -/

/-- The distinct messages of a listing. Each that has no id is one of its own. -/
def distinctMessages (listing : List Listed) : ℕ :=
  let ids := listing.map Listed.id
  (ids.filter (· = [])).length + (ids.filter (· ≠ [])).dedup.length

/-- A backup that was made of a listing verifies, and its total is that of the distinct messages
less the errors. -/
def BackupLaw (listing : List Listed) (manifest : Manifest) (disk : FileTree Content) : Prop :=
  (verifyBackup disk manifest.path).any (·.success) = true ∧
    manifest.totalMessages + manifest.errors = distinctMessages listing

/-! ### The condition -/

/-- The files that the listed messages are written to whose attempts end so. -/
def filesOf (disk : FileTree Content) (dir : Path) (p : Attempt → Bool) (listing : List Listed) :
    List Path :=
  (listing.filter fun l => l.id ≠ [] && p l.attempt).filterMap fun l =>
    disk.locate dir (fileName l.id)

def Attempt.isSaved : Attempt → Bool
  | .saved => true
  | _ => false

def Attempt.isCut : Attempt → Bool
  | .cut _ => true
  | _ => false

/-- How many files, in the order of their writing, are not counted or are written over by a
later one. -/
def lost (dir : Path) : List Path → ℕ
  | [] => 0
  | p :: later => lost dir later + if isCounted dir p = true ∧ p ∉ later then 0 else 1

/-- The counted entries that no saved message has: they were there before, or were left by
messages that could not be written. -/
def strays (disk : FileTree Content) (dir : Path) (listing : List Listed) : Finset Path :=
  (countedEntries disk dir ∪
    ((filesOf disk dir Attempt.isCut listing).filter (isCounted dir)).toFinset) \
      (filesOf disk dir Attempt.isSaved listing).toFinset

/-- No id is listed twice, and as many entries are strays as saved messages have none. -/
structure Sound (disk : FileTree Content) (dir : Path) (listing : List Listed) : Prop where
  distinct : ((listing.map Listed.id).filter (· ≠ [])).Nodup
  balance : lost dir (filesOf disk dir Attempt.isSaved listing) = (strays disk dir listing).card

variable {env : Env} {disk made : FileTree Content} {dir : Path} {listing : List Listed}

/-! ### Saving the messages of a listing -/

theorem filesOf_cons (disk : FileTree Content) (dir : Path) (p : Attempt → Bool) (l : Listed)
    (listing : List Listed) :
    filesOf disk dir p (l :: listing) = filesOf disk dir p [l] ++ filesOf disk dir p listing := by
  simp only [filesOf, ← List.filterMap_append, ← List.filter_append, List.singleton_append]

theorem filesOf_congr {disk' : FileTree Content} (h : disk'.dirs = disk.dirs) (dir : Path)
    (p : Attempt → Bool) (listing : List Listed) :
    filesOf disk' dir p listing = filesOf disk dir p listing := by
  simp only [filesOf, FileTree.locate_congr h]

theorem isDir_of_mem_filesOf {p : Attempt → Bool} {file : Path}
    (h : file ∈ filesOf disk dir p listing) : disk.isDir file = false := by
  obtain ⟨l, -, hfile⟩ := List.mem_filterMap.mp h
  exact FileTree.isDir_of_locate hfile

/-- What saving the messages of a listing does. -/
structure Saves (dir : Path) (listing : List Listed) (p q : Progress) : Prop where
  dirs : q.disk.dirs = p.disk.dirs
  saved : q.saved = p.saved + (filesOf p.disk dir Attempt.isSaved listing).length
  total : q.saved + q.errors = p.saved + p.errors + listing.length
  entries : ∀ d e, e ∈ q.disk.entries d ↔ e ∈ p.disk.entries d ∨
    (e ∈ filesOf p.disk dir Attempt.isSaved listing ∨
      e ∈ filesOf p.disk dir Attempt.isCut listing) ∧ e.In d
  files : ∀ e, q.disk.hasFile e = true → p.disk.hasFile e = true ∨ p.disk.isDir e = false

/-- **One message** is not written, or its file is cut off, or it is saved. -/
theorem saveOne_cases (dir : Path) (p : Progress) (l : Listed) :
    (saveOne dir p l = { p with errors := p.errors + 1 } ∧
      filesOf p.disk dir Attempt.isSaved [l] = [] ∧ filesOf p.disk dir Attempt.isCut [l] = []) ∨
    (∃ file e, p.disk.isDir file = false ∧
      saveOne dir p l =
        { p with disk := p.disk.write file (.cut e), errors := p.errors + 1 } ∧
      filesOf p.disk dir Attempt.isSaved [l] = [] ∧
        filesOf p.disk dir Attempt.isCut [l] = [file]) ∨
    (∃ file, p.disk.isDir file = false ∧
      saveOne dir p l =
        { p with disk := p.disk.write file (.message l.id), saved := p.saved + 1 } ∧
      filesOf p.disk dir Attempt.isSaved [l] = [file] ∧
        filesOf p.disk dir Attempt.isCut [l] = []) := by
  by_cases hid : l.id = []
  · exact .inl ⟨by rw [saveOne, if_pos hid], by simp [filesOf, hid], by simp [filesOf, hid]⟩
  · cases hfile : p.disk.locate dir (fileName l.id) with
    | none =>
      refine .inl ⟨?_, ?_, ?_⟩
      · cases hattempt : l.attempt <;> simp [saveOne, hid, hfile, hattempt]
      · cases hattempt : l.attempt <;> simp [filesOf, hid, hfile, hattempt]
      · cases hattempt : l.attempt <;> simp [filesOf, hid, hfile, hattempt]
    | some file =>
      have hnot := FileTree.isDir_of_locate hfile
      cases hattempt : l.attempt with
      | unread =>
        refine .inl ⟨?_, ?_, ?_⟩ <;>
          simp [saveOne, filesOf, hid, hattempt, Attempt.isSaved, Attempt.isCut]
      | cut e =>
        refine .inr (.inl ⟨file, e, hnot, ?_, ?_, ?_⟩) <;>
          simp [saveOne, filesOf, hid, hfile, hattempt, Attempt.isSaved, Attempt.isCut]
      | saved =>
        refine .inr (.inr ⟨file, hnot, ?_, ?_, ?_⟩) <;>
          simp [saveOne, filesOf, hid, hfile, hattempt, Attempt.isSaved, Attempt.isCut]

/-- A file that was written has an entry, and was not a directory. -/
theorem saves_of_write {p q : Progress} {l : Listed} {file : Path} {c : Content}
    (hdisk : q.disk = p.disk.write file c) (hnot : p.disk.isDir file = false)
    (hsaved : q.saved = p.saved + (filesOf p.disk dir Attempt.isSaved [l]).length)
    (htotal : q.saved + q.errors = p.saved + p.errors + 1)
    (hfiles : ∀ e, e ∈ filesOf p.disk dir Attempt.isSaved [l] ∨
      e ∈ filesOf p.disk dir Attempt.isCut [l] ↔ e = file) : Saves dir [l] p q where
  dirs := by rw [hdisk, FileTree.dirs_write]
  saved := hsaved
  total := htotal
  entries d e := by
    rw [hdisk, FileTree.mem_entries_write, hfiles, or_comm]
    refine or_congr_right (and_congr_right ?_)
    rintro rfl
    rfl
  files e he := by
    rw [hdisk, FileTree.hasFile_write] at he
    rcases he with rfl | he
    · exact .inr hnot
    · exact .inl he

theorem saves_one (dir : Path) (p : Progress) (l : Listed) :
    Saves dir [l] p (saveOne dir p l) := by
  rcases saveOne_cases dir p l with ⟨heq, hsaved, hcut⟩ | ⟨file, e, hnot, heq, hsaved, hcut⟩ |
    ⟨file, hnot, heq, hsaved, hcut⟩
  · rw [heq]
    exact {
      dirs := rfl
      saved := by rw [hsaved]; rfl
      total := rfl
      entries := fun d e => by simp [hsaved, hcut]
      files := fun e he => .inl he }
  · rw [heq]
    exact saves_of_write rfl hnot (by rw [hsaved]; rfl) rfl fun e => by simp [hsaved, hcut]
  · rw [heq]
    exact saves_of_write rfl hnot (by rw [hsaved]; rfl) (by dsimp only; omega) fun e => by
      simp [hsaved, hcut]

/-- **All messages**, one after the other. -/
theorem saves_foldl (dir : Path) (listing : List Listed) (p : Progress) :
    Saves dir listing p (listing.foldl (saveOne dir) p) := by
  induction listing generalizing p with
  | nil => exact ⟨rfl, rfl, rfl, fun d e => by simp [filesOf], fun e he => .inl he⟩
  | cons l listing ih =>
    have hone := saves_one dir p l
    have hrest := ih (saveOne dir p l)
    have hlater := filesOf_congr hone.dirs dir
    rw [List.foldl_cons]
    refine ⟨hrest.dirs.trans hone.dirs, ?_, ?_, fun d e => ?_, fun e he => ?_⟩
    · rw [hrest.saved, hone.saved, hlater, filesOf_cons _ _ _ l listing, List.length_append,
        Nat.add_assoc]
    · rw [hrest.total, hone.total, List.length_cons, List.length_cons, List.length_nil]
      omega
    · rw [hrest.entries, hone.entries, hlater, hlater, filesOf_cons _ _ _ l listing,
        filesOf_cons _ _ _ l listing, List.mem_append, List.mem_append]
      tauto
    · rcases hrest.files e he with he | he
      · exact hone.files e he
      · rw [FileTree.isDir, hone.dirs] at he
        exact .inr he

/-! ### Counting -/

theorem mem_countedEntries {e : Path} :
    e ∈ countedEntries disk dir ↔ e ∈ disk.entries dir ∧ isCounted dir e = true := by
  rw [countedEntries, Finset.mem_filter]

theorem in_of_isCounted {e : Path} (h : isCounted dir e = true) : e.In dir := by
  rw [isCounted, Bool.and_eq_true, decide_eq_true_eq] at h
  exact h.1

/-- The files that are not lost are as many as the entries that they have. -/
theorem lost_add_card (dir : Path) (files : List Path) :
    lost dir files + ((files.filter (isCounted dir)).toFinset).card = files.length := by
  induction files with
  | nil => rfl
  | cons p later ih =>
    rw [lost, List.length_cons, ← ih]
    by_cases hcounted : isCounted dir p = true
    · rw [List.filter_cons_of_pos hcounted, List.toFinset_cons]
      by_cases hlater : p ∈ later
      · rw [if_neg (fun h => h.2 hlater), Finset.insert_eq_of_mem]
        · omega
        · exact List.mem_toFinset.mpr (List.mem_filter.mpr ⟨hlater, hcounted⟩)
      · rw [if_pos ⟨hcounted, hlater⟩, Finset.card_insert_of_notMem]
        · omega
        · exact fun hmem => hlater (List.mem_of_mem_filter (List.mem_toFinset.mp hmem))
    · rw [List.filter_cons_of_neg hcounted, if_neg (fun h => hcounted h.1)]
      omega

/-- **The entries after a backup** are those of the saved messages and the strays. -/
theorem Saves.card_countedEntries {p q : Progress} (h : Saves dir listing p q) :
    (countedEntries q.disk dir).card + lost dir (filesOf p.disk dir Attempt.isSaved listing) =
      (filesOf p.disk dir Attempt.isSaved listing).length + (strays p.disk dir listing).card := by
  have hsplit : countedEntries q.disk dir =
      ((filesOf p.disk dir Attempt.isSaved listing).filter (isCounted dir)).toFinset ∪
        strays p.disk dir listing := by
    ext e
    simp only [mem_countedEntries, h.entries, strays, Finset.mem_union, Finset.mem_sdiff,
      List.mem_toFinset, List.mem_filter]
    constructor
    · rintro ⟨hentry | ⟨hsaved | hcut, -⟩, hcounted⟩
      · by_cases hsaved : e ∈ filesOf p.disk dir Attempt.isSaved listing
        · exact .inl ⟨hsaved, hcounted⟩
        · exact .inr ⟨.inl ⟨hentry, hcounted⟩, hsaved⟩
      · exact .inl ⟨hsaved, hcounted⟩
      · by_cases hsaved : e ∈ filesOf p.disk dir Attempt.isSaved listing
        · exact .inl ⟨hsaved, hcounted⟩
        · exact .inr ⟨.inr ⟨hcut, hcounted⟩, hsaved⟩
    · rintro (⟨hsaved, hcounted⟩ | ⟨⟨hentry, hcounted⟩ | ⟨hcut, hcounted⟩, -⟩)
      · exact ⟨.inr ⟨.inl hsaved, in_of_isCounted hcounted⟩, hcounted⟩
      · exact ⟨.inl hentry, hcounted⟩
      · exact ⟨.inr ⟨.inr hcut, in_of_isCounted hcounted⟩, hcounted⟩
  have hdisjoint : Disjoint
      ((filesOf p.disk dir Attempt.isSaved listing).filter (isCounted dir)).toFinset
      (strays p.disk dir listing) := by
    rw [Finset.disjoint_left]
    intro e hsaved hstray
    rw [List.mem_toFinset, List.mem_filter] at hsaved
    exact (Finset.mem_sdiff.mp hstray).2 (List.mem_toFinset.mpr hsaved.1)
  rw [hsplit, Finset.card_union_of_disjoint hdisjoint,
    ← lost_add_card dir (filesOf p.disk dir Attempt.isSaved listing)]
  omega

/-- A listing has as many messages as distinct ones if and only if no id is listed twice. -/
theorem length_eq_distinctMessages_iff :
    listing.length = distinctMessages listing ↔
      ((listing.map Listed.id).filter (· ≠ [])).Nodup := by
  have hsplit : listing.length = ((listing.map Listed.id).filter (· = [])).length +
      ((listing.map Listed.id).filter (· ≠ [])).length := by
    rw [← List.length_map Listed.id, List.length_eq_length_filter_add (· = [])]
    simp
  rw [hsplit, distinctMessages, Nat.add_left_cancel_iff, eq_comm]
  constructor
  · intro h
    rw [← List.dedup_eq_self]
    exact (List.dedup_sublist _).eq_of_length h
  · intro h
    rw [List.dedup_eq_self.mpr h]

/-! ### The law -/

/-- What a backup that is made comes to. -/
theorem createBackup_eq_some {query : Text} {path : Option Path} {answers : Answers}
    {manifest : Manifest} (h : createBackup env disk query path answers = some (manifest, made)) :
    ∃ listing, allMessages answers = some listing ∧
      let dir := messagesDir manifest.path
      let q := listing.foldl (saveOne dir) ⟨disk.withDirs dir, 0, 0⟩
      (∀ p ∈ dir.inits, disk.hasFile p = false) ∧ manifest.totalMessages = q.saved ∧
        manifest.errors = q.errors ∧ q.disk.isDir (manifestFile manifest.path) = false ∧
          made = q.disk.write (manifestFile manifest.path) (.manifest manifest) := by
  unfold createBackup at h
  simp only [Option.bind_eq_bind, Option.bind_eq_some_iff] at h
  obtain ⟨disk', hdisk', listing, hlisting, h⟩ := h
  obtain ⟨hfiles, rfl⟩ := FileTree.makeDirs_eq_some.mp hdisk'
  split at h
  · cases h
  · next hdir =>
    obtain ⟨rfl, rfl⟩ := Prod.mk.inj (Option.some.inj h)
    exact ⟨listing, hlisting, hfiles, rfl, rfl, by simpa using hdir, rfl⟩

theorem not_in_messagesDir (backupDir : Path) :
    ¬(manifestFile backupDir).In (messagesDir backupDir) := by
  rintro ⟨-, h⟩
  rw [manifestFile, messagesDir, List.dropLast_concat] at h
  have hlength := congrArg List.length h
  simp at hlength

/-- **A backup verifies** if and only if its entries are as many as its messages. -/
theorem verifyBackup_written {backupDir : Path} {manifest : Manifest}
    (hdir : disk.isDir backupDir = true) (hmessages : disk.isDir (messagesDir backupDir) = true)
    (hfile : disk.hasFile (messagesDir backupDir) = false)
    (hmanifest : disk.isDir (manifestFile backupDir) = false) :
    (verifyBackup (disk.write (manifestFile backupDir) (.manifest manifest)) backupDir).any
        (·.success) = true ↔
      (countedEntries disk (messagesDir backupDir)).card = manifest.totalMessages := by
  have hentries : countedEntries (disk.write (manifestFile backupDir) (.manifest manifest))
      (messagesDir backupDir) = countedEntries disk (messagesDir backupDir) := by
    ext e
    rw [mem_countedEntries, mem_countedEntries, FileTree.mem_entries_write]
    simp [not_in_messagesDir]
  have hstill : (disk.write (manifestFile backupDir) (.manifest manifest)).hasFile
      (messagesDir backupDir) = false := by
    rw [← Bool.not_eq_true, FileTree.hasFile_write, hfile]
    simp [messagesDir, manifestFile]
  simp only [verifyBackup, FileTree.isDir_write, hdir, hmanifest, FileTree.read_write_self,
    Content.asManifest, hstill, hmessages, hentries, Bool.not_true, Bool.false_and,
    Bool.false_eq_true, if_false, if_true]
  split
  · next hcount => exact iff_of_true rfl hcount
  · next hcount => exact iff_of_false nofun hcount

/-- **The law.** A backup verifies with the total of the distinct messages less the errors if and
only if no id was listed twice and there are as many strays as lost messages. -/
theorem backupLaw_iff (env : Env) (disk : FileTree Content) (query : Text) (path : Option Path)
    (answers : Answers) (listing : List Listed) (manifest : Manifest) (made : FileTree Content)
    (hlisting : allMessages answers = some listing)
    (hmade : createBackup env disk query path answers = some (manifest, made)) :
    BackupLaw listing manifest made ↔
      Sound (disk.withDirs (messagesDir manifest.path)) (messagesDir manifest.path) listing := by
  obtain ⟨listing', hlisting', hrun⟩ := createBackup_eq_some hmade
  obtain rfl := Option.some.inj (hlisting.symm.trans hlisting')
  obtain ⟨hfiles, htotal, herrors, hmanifest, rfl⟩ := hrun
  have hsaves := saves_foldl (messagesDir manifest.path) listing
    ⟨disk.withDirs (messagesDir manifest.path), 0, 0⟩
  have hcount := hsaves.card_countedEntries
  have hsaved := hsaves.saved
  have hboth := hsaves.total
  simp only [Nat.zero_add] at hcount hsaved hboth
  have hdir : ∀ p, (disk.withDirs (messagesDir manifest.path)).isDir p = true →
      (listing.foldl (saveOne (messagesDir manifest.path))
        ⟨disk.withDirs (messagesDir manifest.path), 0, 0⟩).disk.isDir p = true := by
    intro p hp
    rw [FileTree.isDir, hsaves.dirs]
    exact hp
  rw [BackupLaw, verifyBackup_written (hdir _ (FileTree.isDir_withDirs_of_prefix
    (List.prefix_append _ _))) (hdir _ FileTree.isDir_withDirs_self) ?_ hmanifest]
  · rw [htotal, herrors, hboth, length_eq_distinctMessages_iff]
    constructor
    · rintro ⟨hverified, hdistinct⟩
      exact ⟨hdistinct, by omega⟩
    · rintro ⟨hdistinct, hbalance⟩
      exact ⟨by omega, hdistinct⟩
  · -- No message was written where the directory is.
    rw [← Bool.not_eq_true]
    intro hfile
    rcases hsaves.files _ hfile with hbefore | hnot
    · have hself := hfiles (messagesDir manifest.path) ((List.mem_inits _ _).mpr List.prefix_rfl)
      rw [FileTree.hasFile_withDirs, hself] at hbefore
      cases hbefore
    · rw [FileTree.isDir_withDirs_self] at hnot
      cases hnot

/-! ### Plain ids -/

/-- Nothing is lost if and only if each file is counted and no two are the same. -/
theorem lost_eq_zero_iff {files : List Path} :
    lost dir files = 0 ↔ (∀ p ∈ files, isCounted dir p = true) ∧ files.Nodup := by
  induction files with
  | nil => simp [lost]
  | cons p later ih =>
    rw [lost, Nat.add_eq_zero_iff, ih, List.forall_mem_cons, List.nodup_cons]
    constructor
    · rintro ⟨⟨hcounted, hnodup⟩, hp⟩
      split at hp
      · next h => exact ⟨⟨h.1, hcounted⟩, h.2, hnodup⟩
      · cases hp
    · rintro ⟨⟨hp, hcounted⟩, hlater, hnodup⟩
      exact ⟨⟨hcounted, hnodup⟩, if_pos ⟨hp, hlater⟩⟩

theorem isCounted_fileName (dir : Path) {id : Text} (hid : id ≠ []) :
    isCounted dir (dir ++ [fileName id]) = true := by
  have hsuffix : suffix (fileName id) = ".json".toList :=
    suffix_append hid (by decide) (by decide)
  simp [isCounted, Path.in_append_singleton, hsuffix]

/-- A message under an id without separators goes to the file of its id. -/
theorem locate_fileName {id : Text} (hid : id ≠ []) (hslash : '/' ∉ id)
    (hempty : countedEntries disk dir = ∅) :
    disk.locate dir (fileName id) = some (dir ++ [fileName id]) := by
  refine FileTree.locate_plain ?_ ?_ ?_
  · simpa [fileName] using hslash
  · refine ⟨?_, ?_, ?_⟩ <;>
    · intro h
      have hlength := congrArg List.length h
      simp [fileName] at hlength
  · -- A directory of this name would be counted.
    by_contra hdir
    have hmem : dir ++ [fileName id] ∈ countedEntries disk dir := by
      refine mem_countedEntries.mpr ⟨FileTree.mem_entries.mpr ⟨.inr ?_, ?_⟩, ?_⟩
      · simpa [FileTree.isDir] using hdir
      · exact Path.in_append_singleton dir _
      · exact isCounted_fileName dir hid
    rw [hempty] at hmem
    exact absurd hmem (Finset.notMem_empty _)

/-- **Plain ids.** In a new directory the law holds of a listing of distinct ids without
separators all of whose files are written to the end. -/
theorem sound_of_plain (hplain : ∀ l ∈ listing, '/' ∉ l.id)
    (hdistinct : ((listing.map Listed.id).filter (· ≠ [])).Nodup)
    (hcut : ∀ l ∈ listing, l.attempt.isCut = false) (hempty : countedEntries disk dir = ∅) :
    Sound disk dir listing := by
  have hfiles : filesOf disk dir Attempt.isSaved listing =
      (listing.filter fun l => l.id ≠ [] && l.attempt.isSaved).map
        fun l => dir ++ [fileName l.id] := by
    rw [filesOf, ← List.filterMap_eq_map]
    refine List.filterMap_congr fun l hl => ?_
    obtain ⟨hmem, hl⟩ := List.mem_filter.mp hl
    have hid : l.id ≠ [] := by simpa using (Bool.and_eq_true_iff.mp hl).1
    exact locate_fileName hid (hplain l hmem) hempty
  have hstrays : strays disk dir listing = ∅ := by
    have hnone : filesOf disk dir Attempt.isCut listing = [] := by
      have hnil : (listing.filter fun l => l.id ≠ [] && l.attempt.isCut) = [] := by
        refine List.filter_eq_nil_iff.mpr fun l hl => ?_
        simp [hcut l hl]
      rw [filesOf, hnil, List.filterMap_nil]
    simp [strays, hempty, hnone]
  refine ⟨hdistinct, ?_⟩
  rw [hstrays, Finset.card_empty, lost_eq_zero_iff, hfiles]
  constructor
  · intro p hp
    obtain ⟨l, hl, rfl⟩ := List.mem_map.mp hp
    have hid : l.id ≠ [] := by simpa using (Bool.and_eq_true_iff.mp (List.mem_filter.mp hl).2).1
    exact isCounted_fileName dir hid
  · have hids : ((listing.filter fun l => l.id ≠ [] && l.attempt.isSaved).map Listed.id).Nodup := by
      refine hdistinct.sublist ?_
      rw [List.filter_map]
      refine List.Sublist.map _ ?_
      refine List.monotone_filter_right _ fun l hl => ?_
      exact (Bool.and_eq_true_iff.mp hl).1
    have hinj : Function.Injective fun id : Text => dir ++ [fileName id] := by
      intro a b hab
      exact List.append_cancel_right (List.singleton_inj.mp (List.append_cancel_left hab))
    have hmapped := hids.map hinj
    rwa [List.map_map] at hmapped

/-! ### Two listings -/

def someEnv : Env where
  createdAt := "2026-01-01T00:00:00Z".toList
  providerType := "gmail".toList
  defaultPath := ["backup".toList]

/-- Two pages of one message each. -/
def twoPages (first second : Text) : Answers :=
  [([⟨first, .saved⟩], some ['t']), ([⟨second, .saved⟩], none)]

/-- Two messages are saved, and the backup verifies. -/
theorem backupLaw_twoMessages :
    ∃ manifest made,
      createBackup someEnv ⟨[], []⟩ [] none (twoPages ['a'] ['b']) = some (manifest, made) ∧
        BackupLaw [⟨['a'], .saved⟩, ⟨['b'], .saved⟩] manifest made := by
  refine ⟨_, _, rfl, ?_⟩
  refine (backupLaw_iff someEnv ⟨[], []⟩ [] none (twoPages ['a'] ['b']) _ _ _ rfl rfl).mpr ?_
  exact sound_of_plain (by decide) (by decide) (by decide) (by decide)

/-- **One message is listed on both pages.** It is counted twice and has one file. -/
theorem not_backupLaw_repeated :
    ∃ manifest made,
      createBackup someEnv ⟨[], []⟩ [] none (twoPages ['a'] ['a']) = some (manifest, made) ∧
        ¬BackupLaw [⟨['a'], .saved⟩, ⟨['a'], .saved⟩] manifest made := by
  refine ⟨_, _, rfl, fun h => ?_⟩
  have hcount : 2 + 0 = distinctMessages [⟨['a'], .saved⟩, ⟨['a'], .saved⟩] := h.2
  revert hcount
  decide

end Backup
end EmailOps
