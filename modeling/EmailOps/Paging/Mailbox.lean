import EmailOps.Framework.MergedPages
import EmailOps.Paging.Aggregate

/-!
# Paging one mailbox

The client of a mailbox asks for its first page, then for the page at the offset of what it
has received, and stops at a page that is not full. `listMailboxInbox` takes the offset for the
engine's, whose pages are cut before the overlay takes threads off them, and merges the
service's own threads into the first page only. An external account does not take an offset.

* `Box` is a mailbox as the client reads it, and `Box.received` what the client has after some
  requests.
* `Box.source` is the mailbox of the engine as a `Paging.Source`.
* `Box.mailbox_complete_iff`: when the client comes to have every visible thread once.
-/

namespace EmailOps
namespace Paging

open Framework Framework.Paging

/-! ### The service's own threads -/

section Own

variable {locale : Locale} {tables : MailTables} {workspaceId : String} {folder : MailFolder}

theorem nodup_addRow {threads : List LocalThread} (h : (threads.map (·.id)).Nodup)
    (threadId : String) (m : MailRow) : ((addRow threads threadId m).map (·.id)).Nodup := by
  unfold addRow
  dsimp only
  split
  · -- The thread is there, and keeps its id.
    have hsame : ∀ f : LocalThread → LocalThread, (∀ cur, (f cur).id = cur.id) →
        ((threads.map f).map (·.id)).Nodup := by
      intro f hf
      have hids : (·.id) ∘ f = (·.id) := funext hf
      rw [List.map_map, hids]
      exact h
    refine hsame _ fun cur => ?_
    split
    · split <;> rfl
    · rfl
  · next hnew =>
    rw [List.map_append, List.nodup_append]
    refine ⟨h, List.nodup_singleton _, ?_⟩
    rintro id hid _ hid' rfl
    obtain ⟨cur, hcur, rfl⟩ := List.mem_map.mp hid
    rw [List.map_cons, List.map_nil, List.mem_singleton] at hid'
    exact hnew (List.any_eq_true.mpr ⟨cur, hcur, decide_eq_true hid'⟩)

/-- The service's own threads have different ids. -/
theorem nodup_localThreads (limit : ℕ) (msgs : List MailRow) :
    ((localThreads locale tables workspaceId folder limit msgs).map (·.id)).Nodup := by
  unfold localThreads
  dsimp only
  rw [List.map_map]
  refine List.Nodup.sublist (((List.take_sublist _ _).trans List.filter_sublist).map _) ?_
  refine ((List.mergeSort_perm _ fun a b : LocalThread => b.last ≤ a.last).map
    (·.id)).nodup_iff.mpr ?_
  -- The rows are grouped one by one.
  refine List.foldlRecOn (motive := fun acc => (List.map LocalThread.id acc).Nodup) msgs _
    List.nodup_nil fun acc h m _ => ?_
  split
  · exact nodup_addRow h _ m
  · exact h

theorem visibleIn_of_mem_localThreads {limit : ℕ} {msgs : List MailRow} {t : ThreadView}
    (h : t ∈ localThreads locale tables workspaceId folder limit msgs) :
    visibleIn folder (dispositionOf tables workspaceId t.id) = true := by
  unfold localThreads at h
  obtain ⟨cur, hcur, rfl⟩ := List.mem_map.mp h
  exact (List.mem_filter.mp (List.mem_of_mem_take hcur)).2

/-- The first of them, as the first page has them. -/
theorem localThreads_eq_take (limit : ℕ) (msgs : List MailRow) :
    localThreads locale tables workspaceId folder limit msgs =
      (localThreads locale tables workspaceId folder msgs.length msgs).take limit := by
  have hlength := fun k =>
    Triage.length_localThreads_le locale tables workspaceId folder k msgs
  unfold localThreads at *
  dsimp only at *
  generalize List.filter _ _ = visible at *
  have hall := hlength visible.length
  rw [List.length_map, List.take_length] at hall
  rw [← List.map_take, List.take_take]
  congr 1
  rcases Nat.le_total limit msgs.length with hle | hle
  · rw [Nat.min_eq_left hle]
  · rw [Nat.min_eq_right hle, List.take_of_length_le hall, List.take_of_length_le (hall.trans hle)]

end Own

/-! ### A mailbox as the client reads it -/

/-- A mailbox with a fixed list of threads in a folder, and a caller who may read it. -/
structure Box where
  locale : Locale
  tables : MailTables
  backends : Backends
  workspaceId : String
  ucUid : Option String
  mailbox : MailboxAccount
  folder : MailFolder
  limit : ℕ
  /-- The limit that a request is given is not zero. -/
  limit_pos : 0 < limit
  found : findMailbox tables.settings workspaceId mailbox.id = some mailbox
  mayAct : mayActThroughMailbox tables.settings.users mailbox ucUid = true
  /-- The threads of the folder, at the engine or at the provider. -/
  live : List ThreadView
  ids : (live.map (·.id)).Nodup
  /-- The engine pages them. -/
  engine : EngineMailProvider.handles mailbox.provider = false → ∀ offset,
    liveFolderThreads backends mailbox.emailAddress ⟨folder, limit, offset, none, none⟩ =
      (live.drop offset).take limit
  /-- A provider answers with the first of them. -/
  external : EngineMailProvider.handles mailbox.provider = true →
    backends.listInbox mailbox folder limit = live.take limit

namespace Box

variable (b : Box)

/-- The answer to a request. -/
def ask (offset : ℕ) : List ThreadView :=
  listMailboxInbox b.locale b.tables b.backends b.workspaceId b.ucUid b.mailbox.id b.limit b.folder
    none offset

/-- What the client has received after some requests. -/
def received (n : ℕ) : List ThreadView :=
  (client b.limit b.ask n).1

/-- The service's own threads of the folder. -/
def own : List ThreadView :=
  let msgs := localRows b.tables b.workspaceId b.folder b.mailbox.emailAddress
  localThreads b.locale b.tables b.workspaceId b.folder msgs.length msgs

/-- Does the overlay admit a thread to the folder? -/
def admits (threadId : String) : Bool :=
  visibleIn b.folder (dispositionOf b.tables b.workspaceId threadId)

/-- The threads that are visible in the folder. -/
def visible : List ThreadView :=
  if EngineMailProvider.handles b.mailbox.provider then b.live
  else (b.live.filter fun t => b.admits t.id) ++ b.own

/-- **What the client should come to have**: every visible thread, and none twice. -/
def Complete : Prop :=
  ∃ N, ∀ n, N ≤ n → ((b.received n).map (·.id)).Nodup ∧
    ∀ id, id ∈ (b.received n).map (·.id) ↔ id ∈ b.visible.map (·.id)

/-- The mailbox of the engine, as a list that is read page by page. -/
def source : Source ThreadView String where
  key := (·.id)
  L := b.limit
  L_pos := b.limit_pos
  live := b.live
  own := b.own
  admits := b.admits
  sort rows := rows.mergeSort fun t t' => threadTime b.locale t' ≤ threadTime b.locale t
  live_keys := b.ids
  own_keys := nodup_localThreads _ _
  admits_own _ h := visibleIn_of_mem_localThreads h
  sort_perm rows := List.mergeSort_perm rows _

/-- **The condition.** The threads of an external account are fewer than the limit. Those of
the engine meet the condition for a list that is read page by page. -/
def Fits : Prop :=
  if EngineMailProvider.handles b.mailbox.provider then b.live.length < b.limit
  else b.source.Fits

variable {b}

/-- **The listing is the source's**, request by request. -/
theorem ask_eq (hsovereign : EngineMailProvider.handles b.mailbox.provider = false) :
    b.ask = b.source.answer := by
  funext offset
  unfold ask Source.answer
  rcases Nat.eq_zero_or_pos offset with rfl | hpos
  · have hlive : (((b.live.drop 0).take b.limit).map (·.id)).Nodup :=
      b.ids.sublist (((List.take_sublist _ _).trans (List.drop_sublist _ _)).map _)
    rw [if_pos rfl, Triage.listMailboxInbox_first b.found hsovereign,
      Triage.overlayFilterThreads_eq, Triage.merged, b.engine hsovereign,
      Triage.byId_of_nodup hlive, Triage.fillIn_eq (nodup_localThreads _ _),
      localThreads_eq_take b.limit, List.drop_zero]
    rfl
  · rw [if_neg (Nat.ne_of_gt hpos), Triage.listMailboxInbox_later hpos b.found hsovereign,
      Triage.overlayFilterThreads_eq, b.engine hsovereign]
    rfl

/-! ### An external account -/

theorem ask_external (hexternal : EngineMailProvider.handles b.mailbox.provider = true)
    (offset : ℕ) : b.ask offset = b.live.take b.limit := by
  unfold ask listMailboxInbox
  rw [b.found]
  dsimp only
  rw [if_pos hexternal, if_pos b.mayAct, b.external hexternal]

/-- With as many threads as the limit, the client does not stop, and has the same again. -/
theorem client_external (hexternal : EngineMailProvider.handles b.mailbox.provider = true)
    (hmany : b.limit ≤ b.live.length) (n : ℕ) :
    (client b.limit b.ask n).2 = false ∧ (b.received n).length = n * b.limit ∧
      ∀ t ∈ b.received n, t ∈ b.live.take b.limit := by
  have hlimit : (b.live.take b.limit).length = b.limit := by
    rw [List.length_take, Nat.min_eq_left hmany]
  unfold received
  induction n with
  | zero => exact ⟨rfl, by simp [client], by simp [client]⟩
  | succ n ih =>
    obtain ⟨hstop, hlength, hmem⟩ := ih
    have hlast : client b.limit b.ask n = ((client b.limit b.ask n).1, false) := Prod.ext rfl hstop
    rw [client_succ hlast, ask_external hexternal, hlimit, decide_eq_false (Nat.lt_irrefl _)]
    refine ⟨rfl, ?_, fun t ht => ?_⟩
    · rw [List.length_append, hlength, hlimit, Nat.succ_mul]
    · rcases List.mem_append.mp ht with ht | ht
      · exact hmem t ht
      · exact ht

theorem complete_external (hexternal : EngineMailProvider.handles b.mailbox.provider = true) :
    b.Complete ↔ b.live.length < b.limit := by
  have hvisible : b.visible = b.live := if_pos hexternal
  constructor
  · rintro ⟨N, hN⟩
    by_contra hmany
    rw [Nat.not_lt] at hmany
    -- Two requests bring more than there is in one.
    obtain ⟨hnodup, -⟩ := hN (max N 2) (le_max_left _ _)
    obtain ⟨-, hlength, hmem⟩ := client_external hexternal hmany (max N 2)
    have hle := ((hnodup.of_map _).subperm hmem).length_le
    rw [hlength, List.length_take, Nat.min_eq_left hmany] at hle
    have htwo : 2 * b.limit ≤ max N 2 * b.limit := Nat.mul_le_mul_right _ (le_max_right _ _)
    have hpos := b.limit_pos
    omega
  · intro hfew
    have hall : b.live.take b.limit = b.live := List.take_of_length_le hfew.le
    have hstart : client b.limit b.ask 0 = ([], false) := rfl
    have hone := client_succ hstart
    rw [ask_external hexternal, hall, decide_eq_true hfew, List.nil_append] at hone
    refine ⟨1, fun n hn => ?_⟩
    have hreceived : b.received n = b.live := by
      unfold received
      rw [client_of_stopped (by rw [hone]) hn, hone]
    rw [hreceived, hvisible]
    exact ⟨b.ids, fun _ => Iff.rfl⟩

/-! ### When the client has every visible thread -/

theorem complete_sovereign (hsovereign : EngineMailProvider.handles b.mailbox.provider = false) :
    b.Complete ↔ b.source.Complete := by
  have hvisible : b.visible = (b.live.filter fun t => b.admits t.id) ++ b.own := by
    unfold visible
    rw [hsovereign, if_neg Bool.false_ne_true]
  unfold Complete Source.Complete Source.Shows received
  rw [ask_eq hsovereign, hvisible]
  rfl

/-- **When paging one mailbox shows every visible thread once.** -/
theorem mailbox_complete_iff (b : Box) : b.Complete ↔ b.Fits := by
  unfold Fits
  cases hexternal : EngineMailProvider.handles b.mailbox.provider with
  | true =>
    rw [if_pos rfl]
    exact complete_external hexternal
  | false =>
    rw [if_neg Bool.false_ne_true, ← Source.complete_iff]
    exact complete_sovereign hexternal

end Box

/-! ### An archived thread on the first page -/

section Examples

/-- The newer of two threads is archived, and the engine has not moved it yet. -/
def archivedFirst : Box where
  locale := sampleLocale
  tables := { sampleTables with dispositions := [⟨"acme", "t1", .archive⟩] }
  backends :=
    { sampleBackends with
      listFolderThreads := fun _ query =>
        (([datedThread "t1" "2026-01-02T00:00:00Z", datedThread "t2" "2026-01-01T00:00:00Z"]).drop
          query.offset).take query.limit }
  workspaceId := "acme"
  ucUid := none
  mailbox := supportMailbox
  folder := .inbox
  limit := 1
  limit_pos := Nat.one_pos
  found := by decide
  mayAct := rfl
  live :=
    [datedThread "t1" "2026-01-02T00:00:00Z", datedThread "t2" "2026-01-01T00:00:00Z"].map
      StalwartThread.view
  ids := by decide
  engine _ offset := by
    unfold liveFolderThreads
    rw [if_neg (by decide), List.map_take, List.map_drop]
  external h := by cases h

/-- **The other thread is never received**: the overlay takes the archived one off the first
page, which is then shorter than the limit. -/
theorem archived_thread_ends_paging : ¬archivedFirst.Complete := by
  have hown : archivedFirst.source.own = [] := by
    have hrows : localRows archivedFirst.tables "acme" .inbox supportMailbox.emailAddress = [] := by
      simp [localRows, archivedFirst, sampleTables]
    have hnil : archivedFirst.own = localThreads sampleLocale archivedFirst.tables "acme" .inbox
        0 [] := by
      rw [← List.length_nil (α := MailRow), ← hrows]
      rfl
    exact hnil.trans (by simp [localThreads])
  have hcandidates : archivedFirst.source.candidates = [] := by
    unfold Source.candidates Source.extras
    rw [hown]
    decide
  rw [Box.complete_sovereign (by decide), Source.complete_iff]
  intro h
  have hshort : archivedFirst.source.candidates.length < archivedFirst.source.L := by
    rw [hcandidates]
    exact Nat.one_pos
  have hrest := h.rest
  rw [Source.kept_of_short hshort, hcandidates] at hrest
  unfold Source.asked at hrest
  rw [if_pos hshort] at hrest
  revert hrest
  decide

end Examples

end Paging
end EmailOps
