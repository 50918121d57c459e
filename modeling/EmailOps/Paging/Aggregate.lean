import EmailOps.Framework.Paging
import EmailOps.Triage.Listing

/-!
# Paging the unified inbox

`listAggregateInbox` takes the offset of a page for the offset into each account: it reads the
page at that offset of every account, merges what it has read and cuts the merge at the limit.
What is cut off is before the next offset of its account and is never shown. An external
account does not take an offset, and shows its first threads on every page.

* `Accounts` are accounts with fixed thread lists, and `Accounts.pages` the pages at the
  offsets `0`, `L`, `2L`, …, one after the other.
* `Accounts.aggregate_complete_iff`: the pages hold every thread exactly once, newest first, when all the
  threads fit on one page or are those of one account, and none are of an external account.
-/

namespace EmailOps
namespace Paging

open Framework Framework.Paging

/-- A thread as the unified inbox shows it. -/
def tag (m : MailboxAccount) (t : ThreadView) : ThreadView :=
  { t with mailbox_id := some m.id, mailbox_address := some m.emailAddress }

/-- Accounts with fixed thread lists, newest first, as a caller reads them. -/
structure Accounts where
  locale : Locale
  collates : Std.TransCmp locale.localeCompare
  tables : MailTables
  backends : Backends
  workspaceId : String
  ucUid : Option String
  folder : MailFolder
  query : Option Text
  list : MailboxAccount → List ThreadView
  ids : ∀ m, ((list m).map (·.id)).Nodup
  newestFirst : ∀ m, (list m).Pairwise fun t t' => threadTime locale t' ≤ threadTime locale t
  /-- The ids that the database makes. -/
  plain : ∀ m ∈ readableMailboxes tables workspaceId ucUid, ':' ∉ m.id.toList
  /-- What an engine account lists are the pages of its list. -/
  engine : ∀ m ∈ readableMailboxes tables workspaceId ucUid,
    EngineMailProvider.handles m.provider = false → ∀ limit offset,
      listMailboxInbox locale tables backends workspaceId ucUid m.id limit folder query offset =
        ((list m).drop offset).take limit
  /-- The provider of an external account answers with the first threads. -/
  external : ∀ m ∈ readableMailboxes tables workspaceId ucUid,
    EngineMailProvider.handles m.provider = true → ∀ limit,
      backends.listInbox m folder limit = (list m).take limit

namespace Accounts

variable (a : Accounts)

/-- The accounts that are merged. -/
def readable : List MailboxAccount :=
  readableMailboxes a.tables a.workspaceId a.ucUid

/-- The threads of an account. -/
def threads (m : MailboxAccount) : List ThreadView :=
  (a.list m).map (tag m)

/-- The threads of all accounts. -/
def all : List ThreadView :=
  a.readable.flatMap a.threads

/-- The page at an offset of `k` pages; every account answers. -/
def aggregate (L k : ℕ) : List ThreadView :=
  listAggregateInbox a.locale a.tables a.backends a.workspaceId a.ucUid a.folder L a.query (k * L)
    fun _ => false

/-- The first `n` pages, one after the other. -/
def pages (L n : ℕ) : List ThreadView :=
  (List.range n).flatMap (a.aggregate L)

/-- **What paging should show**: every thread of every account exactly once, newest first. -/
def Complete (L : ℕ) : Prop :=
  ∃ N, ∀ n, N ≤ n → (a.pages L n).Perm a.all ∧
    (a.pages L n).Pairwise fun t t' => threadTime a.locale t' ≤ threadTime a.locale t

/-- **The condition**: no external account has threads, and all threads fit on one page or are
those of one account. -/
def Fits (L : ℕ) : Prop :=
  (∀ m ∈ a.readable, EngineMailProvider.handles m.provider = true → a.list m = []) ∧
    (a.all.length ≤ L ∨
      0 < L ∧ ((a.readable.map a.threads).filter fun l => !l.isEmpty).length ≤ 1)

variable {a}

/-! ### One page -/

/-- What an account adds to a page. -/
def part (a : Accounts) (L k : ℕ) (m : MailboxAccount) : List ThreadView :=
  if EngineMailProvider.handles m.provider then (a.threads m).take L
  else page L k (a.threads m)

theorem listMailboxInbox_eq {m : MailboxAccount} (hm : m ∈ a.readable) (L k : ℕ) :
    (listMailboxInbox a.locale a.tables a.backends a.workspaceId a.ucUid m.id L a.folder a.query
      (k * L)).map (tag m) = a.part L k m := by
  obtain ⟨hmem, hreadable⟩ := List.mem_filter.mp hm
  simp only [Bool.and_eq_true, decide_eq_true_eq] at hreadable
  obtain ⟨⟨hws, -⟩, hpass⟩ := hreadable
  unfold part
  cases hexternal : EngineMailProvider.handles m.provider with
  | false =>
    rw [if_neg Bool.false_ne_true, a.engine m hm hexternal]
    unfold page threads
    rw [List.map_take, List.map_drop]
  | true =>
    have hlist : listMailboxInbox a.locale a.tables a.backends a.workspaceId a.ucUid m.id L a.folder
        a.query (k * L) = a.backends.listInbox m a.folder L := by
      unfold listMailboxInbox
      rw [findMailbox_self hmem hws]
      dsimp only
      rw [if_pos hexternal, if_pos hpass]
    rw [hlist, if_pos rfl, a.external m hm hexternal]
    unfold threads
    rw [List.map_take]

/-- The key of a thread in the merge. -/
def key (t : ThreadView) : String :=
  t.mailbox_id.getD "" ++ ":" ++ t.id

/-- Ids without a colon are read back from a key. -/
theorem key_tag_inj {m m' : MailboxAccount} {t t' : ThreadView} (hm : ':' ∉ m.id.toList)
    (hm' : ':' ∉ m'.id.toList) (h : key (tag m t) = key (tag m' t')) :
    m.id = m'.id ∧ t.id = t'.id := by
  have hchars : m.id.toList ++ ':' :: t.id.toList = m'.id.toList ++ ':' :: t'.id.toList := by
    have hkeys := congrArg String.toList h
    unfold key tag at hkeys
    simpa [String.toList_append] using hkeys
  have hfirst : ∀ {id rest : List Char}, ':' ∉ id →
      (id ++ ':' :: rest).takeWhile (· ≠ ':') = id := by
    intro id rest hid
    rw [List.takeWhile_append_of_pos, List.takeWhile_cons_of_neg (by simp), List.append_nil]
    intro c hc
    simpa using ne_of_mem_of_not_mem hc hid
  have hid : m.id.toList = m'.id.toList := by
    rw [← hfirst hm, hchars, hfirst hm']
  rw [hid, List.append_cancel_left_eq, List.cons.injEq] at hchars
  exact ⟨String.toList_inj.mp hid, String.toList_inj.mp hchars.2⟩

/-- What the accounts add to a page has different keys. -/
theorem nodup_keys (L k : ℕ) : ((a.readable.flatMap (a.part L k)).map key).Nodup := by
  have hpart : ∀ {m t}, t ∈ a.part L k m → t ∈ a.threads m := by
    intro m t ht
    unfold part at ht
    split at ht
    · exact List.mem_of_mem_take ht
    · exact mem_of_mem_page ht
  have hids : (a.readable.map (·.id)).Nodup :=
    a.tables.mailbox_ids.sublist (List.Sublist.map _ List.filter_sublist)
  rw [List.map_flatMap, List.nodup_flatMap]
  constructor
  · intro m hm
    -- Within an account the keys tell the ids of the threads apart.
    have hlist : ((a.threads m).map key).Nodup := by
      unfold threads
      rw [List.map_map]
      refine List.Nodup.map_on ?_ ((a.ids m).of_map _)
      intro t ht t' ht' h
      exact List.inj_on_of_nodup_map (a.ids m) ht ht'
        (key_tag_inj (a.plain m hm) (a.plain m hm) h).2
    refine hlist.sublist (List.Sublist.map _ ?_)
    unfold part page
    split
    · exact List.take_sublist _ _
    · exact (List.take_sublist _ _).trans (List.drop_sublist _ _)
  · refine List.Pairwise.imp_of_mem ?_ (List.pairwise_map.mp hids)
    intro m m' hm hm' hne
    -- Between accounts, the ids of the accounts.
    change List.Disjoint _ _
    rw [List.disjoint_left]
    rintro _ hkey hkey'
    obtain ⟨t, ht, rfl⟩ := List.mem_map.mp hkey
    obtain ⟨t', ht', heq⟩ := List.mem_map.mp hkey'
    obtain ⟨u, -, rfl⟩ := List.mem_map.mp (hpart ht)
    obtain ⟨u', -, rfl⟩ := List.mem_map.mp (hpart ht')
    exact hne (key_tag_inj (a.plain m' hm') (a.plain m hm) heq).1.symm

/-- The order of the unified inbox. -/
def before (a : Accounts) (t t' : ThreadView) : Bool :=
  if threadTime a.locale t = threadTime a.locale t' then
    match a.locale.localeCompare (t.mailbox_address.getD []) (t'.mailbox_address.getD []) with
    | .lt => true
    | .gt => false
    | .eq => a.locale.localeCompare t.id.toList t'.id.toList ≠ .gt
  else threadTime a.locale t' < threadTime a.locale t

/-- **One page**: what the accounts add to it, in order and cut at the limit. -/
theorem aggregate_eq (L k : ℕ) :
    a.aggregate L k = ((a.readable.flatMap (a.part L k)).mergeSort a.before).take L := by
  have hmerged : (a.readable.filter fun _ => !false).flatMap (fun m =>
      (listMailboxInbox a.locale a.tables a.backends a.workspaceId a.ucUid m.id L a.folder a.query
        (k * L)).map (tag m)) = a.readable.flatMap (a.part L k) := by
    have hsettled : (a.readable.filter fun _ => !false) = a.readable :=
      List.filter_eq_self.mpr fun _ _ => rfl
    rw [hsettled]
    exact List.flatMap_congr fun m hm => listMailboxInbox_eq hm L k
  have hdeduped : fillIn key [] (a.readable.flatMap (a.part L k)) =
      a.readable.flatMap (a.part L k) := Triage.fillIn_of_nodup (a.nodup_keys L k)
  rw [← hdeduped, ← hmerged]
  rfl

theorem length_aggregate (L k : ℕ) :
    (a.aggregate L k).length = min L (a.readable.flatMap (a.part L k)).length := by
  rw [aggregate_eq, List.length_take, List.length_mergeSort]

theorem perm_aggregate {L k : ℕ} (h : (a.readable.flatMap (a.part L k)).length ≤ L) :
    (a.aggregate L k).Perm (a.readable.flatMap (a.part L k)) := by
  rw [aggregate_eq, List.take_of_length_le (by rwa [List.length_mergeSort])]
  exact List.mergeSort_perm _ _

/-! ### The order of a page -/

/-- The comparison behind the order: the time, the later first, then the address of the
mailbox, then the id. -/
def compareThreads (a : Accounts) : ThreadView → ThreadView → Ordering :=
  compareLex (fun t t' => compare (threadTime a.locale t') (threadTime a.locale t))
    (compareLex
      (fun t t' =>
        a.locale.localeCompare (t.mailbox_address.getD []) (t'.mailbox_address.getD []))
      fun t t' => a.locale.localeCompare t.id.toList t'.id.toList)

theorem before_eq (t t' : ThreadView) : a.before t t' = (a.compareThreads t t').isLE := by
  unfold before compareThreads compareLex
  dsimp only
  by_cases htime : threadTime a.locale t = threadTime a.locale t'
  · rw [if_pos htime, htime, Nat.compare_eq_eq.mpr rfl, Ordering.eq_then]
    cases a.locale.localeCompare (t.mailbox_address.getD []) (t'.mailbox_address.getD []) with
    | lt => rfl
    | gt => rfl
    | eq => cases a.locale.localeCompare t.id.toList t'.id.toList <;> rfl
  · rw [if_neg htime]
    rcases Nat.lt_or_gt_of_ne htime with hlt | hgt
    · rw [Nat.compare_eq_gt.mpr hlt, decide_eq_false (Nat.lt_asymm hlt)]
      rfl
    · rw [Nat.compare_eq_lt.mpr hgt, decide_eq_true hgt]
      rfl

instance transCmp_compareThreads : Std.TransCmp a.compareThreads := by
  have hcollates := a.collates
  have htime : Std.TransCmp fun t t' : ThreadView =>
      compare (threadTime a.locale t') (threadTime a.locale t) :=
    { eq_swap := Std.OrientedCmp.eq_swap
      isLE_trans := fun h h' => Std.TransCmp.isLE_trans h' h }
  have haddress : Std.TransCmp fun t t' : ThreadView =>
      a.locale.localeCompare (t.mailbox_address.getD []) (t'.mailbox_address.getD []) :=
    { eq_swap := Std.OrientedCmp.eq_swap
      isLE_trans := fun h h' => Std.TransCmp.isLE_trans h h' }
  have hid : Std.TransCmp fun t t' : ThreadView =>
      a.locale.localeCompare t.id.toList t'.id.toList :=
    { eq_swap := Std.OrientedCmp.eq_swap
      isLE_trans := fun h h' => Std.TransCmp.isLE_trans h h' }
  unfold compareThreads
  infer_instance

theorem threadTime_le_of_before {t t' : ThreadView} (h : a.before t t' = true) :
    threadTime a.locale t' ≤ threadTime a.locale t := by
  unfold before at h
  split at h
  · next htime => exact htime.ge
  · exact le_of_lt (of_decide_eq_true h)

/-- **A page is in order**: newest first. -/
theorem pairwise_aggregate (L k : ℕ) :
    (a.aggregate L k).Pairwise fun t t' => threadTime a.locale t' ≤ threadTime a.locale t := by
  have hsorted : ((a.readable.flatMap (a.part L k)).mergeSort a.before).Pairwise
      fun t t' => a.before t t' = true := by
    refine List.pairwise_mergeSort ?_ ?_ _
    · intro t t' t'' h h'
      rw [before_eq] at *
      exact Std.TransCmp.isLE_trans h h'
    · intro t t'
      have hswap : a.compareThreads t' t = (a.compareThreads t t').swap :=
        Std.OrientedCmp.eq_swap
      rw [before_eq, before_eq, hswap]
      cases a.compareThreads t t' <;> rfl
  rw [aggregate_eq]
  exact (hsorted.imp threadTime_le_of_before).sublist (List.take_sublist _ _)

/-! ### All the pages -/

/-- Without threads in the external accounts every account adds its page. -/
theorem part_eq_page (h : ∀ m ∈ a.readable, EngineMailProvider.handles m.provider = true →
    a.list m = []) {m : MailboxAccount} (hm : m ∈ a.readable) (L k : ℕ) :
    a.part L k m = page L k (a.threads m) := by
  unfold part
  split
  · next hexternal =>
    unfold page threads
    rw [h m hm hexternal]
    simp
  · rfl

theorem flatMap_part (h : ∀ m ∈ a.readable, EngineMailProvider.handles m.provider = true →
    a.list m = []) (L k : ℕ) :
    a.readable.flatMap (a.part L k) = (a.readable.map a.threads).flatMap (page L k) := by
  rw [List.flatMap_map]
  exact List.flatMap_congr fun m hm => part_eq_page h hm L k

theorem length_all : a.all.length = ((a.readable.map a.threads).map List.length).sum := by
  unfold all
  rw [List.length_flatMap, List.map_map]
  rfl

theorem length_pages (L n : ℕ) :
    (a.pages L n).length = ((List.range n).map fun k => (a.aggregate L k).length).sum := by
  unfold pages
  rw [List.length_flatMap]

/-- Where an external account has threads, the pages never end. -/
theorem le_length_pages {m : MailboxAccount} (hm : m ∈ a.readable)
    (hexternal : EngineMailProvider.handles m.provider = true) (hlist : a.list m ≠ []) {L : ℕ}
    (hL : 0 < L) (n : ℕ) : n ≤ (a.pages L n).length := by
  have hone : ∀ k ∈ List.range n, 1 ≤ (a.aggregate L k).length := by
    intro k _
    have hpart : (a.part L k m).length = min L (a.list m).length := by
      unfold part threads
      rw [if_pos hexternal, List.length_take, List.length_map]
    have hpos := List.length_pos_of_ne_nil hlist
    have hle : (a.part L k m).length ≤ (a.readable.flatMap (a.part L k)).length :=
      (List.sublist_flatten_of_mem (List.mem_map_of_mem hm)).length_le
    rw [length_aggregate]
    omega
  rw [length_pages]
  calc n = ((List.range n).map fun _ => 1).sum := by
        rw [List.map_const', List.sum_replicate, List.length_range]
        exact (Nat.mul_one n).symm
    _ ≤ ((List.range n).map fun k => (a.aggregate L k).length).sum := List.sum_le_sum hone

/-- **Complete pages fit.** -/
theorem fits_of_complete {L : ℕ} (h : a.Complete L) : a.Fits L := by
  obtain ⟨N, hN⟩ := h
  rcases Nat.eq_zero_or_pos L with rfl | hL
  · -- Pages without room are empty, and so are the accounts.
    have hlength := (hN N le_rfl).1.length_eq
    have hzero : (a.pages 0 N).length = 0 := by
      rw [length_pages]
      simp [length_aggregate]
    have hnil : a.all = [] := List.length_eq_zero_iff.mp (hlength.symm.trans hzero)
    refine ⟨fun m hm _ => ?_, .inl (by rw [hnil]; exact le_rfl)⟩
    have hthreads := List.flatMap_eq_nil_iff.mp hnil m hm
    exact List.map_eq_nil_iff.mp hthreads
  · have hexternal : ∀ m ∈ a.readable, EngineMailProvider.handles m.provider = true →
        a.list m = [] := by
      intro m hm hexternal
      by_contra hlist
      let n := max N (a.all.length + 1)
      have hlength := (hN n (le_max_left _ _)).1.length_eq
      have hmany := le_length_pages hm hexternal hlist hL n
      have hlarge : a.all.length + 1 ≤ n := le_max_right _ _
      omega
    refine ⟨hexternal, ?_⟩
    rcases Nat.lt_or_ge L (loaded L 0 (a.readable.map a.threads)) with hover | hroom
    · -- The first page cuts off threads, and the next ones are after them.
      have hlost := sum_min_loaded_lt hover N
      have hlength := (hN N le_rfl).1.length_eq
      rw [length_all, length_pages] at hlength
      have hmin : ((List.range N).map fun k => (a.aggregate L k).length) =
          (List.range N).map fun k => min L (loaded L k (a.readable.map a.threads)) := by
        refine List.map_congr_left fun k _ => ?_
        rw [length_aggregate, flatMap_part hexternal, List.length_flatMap]
        rfl
      rw [hmin] at hlength
      omega
    · rw [length_all]
      exact (of_loaded_le hL hroom).imp_right fun hfew => ⟨hL, hfew⟩

/-- **Pages that fit are complete.** -/
theorem complete_of_fits {L : ℕ} (h : a.Fits L) : a.Complete L := by
  obtain ⟨hexternal, hfits⟩ := h
  rcases hfits with hall | ⟨hL, hfew⟩
  · -- The first page holds all the threads, and the others are empty.
    have hshort : ∀ m ∈ a.readable, (a.threads m).length ≤ L := fun m hm =>
      (List.sublist_flatten_of_mem (List.mem_map_of_mem hm)).length_le.trans hall
    have hfirst : a.readable.flatMap (a.part L 0) = a.all :=
      List.flatMap_congr fun m hm => by
        rw [part_eq_page hexternal hm, page_zero_of_length_le (hshort m hm)]
    have hlater : ∀ k, a.aggregate L (k + 1) = [] := by
      intro k
      refine List.length_eq_zero_iff.mp ?_
      have hnil : a.readable.flatMap (a.part L (k + 1)) = [] :=
        List.flatMap_eq_nil_iff.mpr fun m hm => by
          rw [part_eq_page hexternal hm, page_succ_of_length_le (hshort m hm)]
      rw [length_aggregate, hnil]
      exact Nat.min_zero L
    refine ⟨1, fun n hn => ?_⟩
    obtain ⟨n, rfl⟩ := Nat.exists_eq_add_of_le' hn
    have hpages : a.pages L (n + 1) = a.aggregate L 0 := by
      unfold pages
      rw [List.range_succ_eq_map, List.flatMap_cons, List.flatMap_map]
      simp [hlater]
    rw [hpages]
    refine ⟨?_, a.pairwise_aggregate L 0⟩
    have hperm := perm_aggregate (a := a) (L := L) (k := 0) (by rwa [hfirst])
    rwa [hfirst] at hperm
  · -- The pages are those of the one account that has threads.
    obtain ⟨l, hl, hflat⟩ := exists_flatMap_eq (β := ThreadView) hfew
    have hall : a.all = l := by
      have hid := hflat id rfl
      rwa [List.flatMap_map] at hid
    have hpage : ∀ k, a.readable.flatMap (a.part L k) = page L k l := by
      intro k
      rw [flatMap_part hexternal]
      exact hflat _ (by simp [page])
    have hperm : ∀ k, (a.aggregate L k).Perm (page L k l) := by
      intro k
      rw [← hpage k]
      exact perm_aggregate (by rw [hpage k]; exact length_page_le k l)
    have hsorted : l.Pairwise fun t t' => threadTime a.locale t' ≤ threadTime a.locale t := by
      rcases hl with rfl | hl
      · exact List.Pairwise.nil
      · obtain ⟨m, -, rfl⟩ := List.mem_map.mp hl
        exact List.pairwise_map.mpr (a.newestFirst m)
    refine ⟨l.length, fun n hn => ⟨?_, ?_⟩⟩
    · rw [hall]
      conv_rhs => rw [← flatMap_page_of_length_le hL hn]
      exact List.Perm.flatMap_left _ fun k _ => hperm k
    · refine List.pairwise_flatMap.mpr ⟨fun k _ => a.pairwise_aggregate L k, ?_⟩
      refine List.pairwise_lt_range.imp fun {j k} hjk t ht t' ht' => ?_
      exact rel_of_mem_page hsorted hjk ((hperm j).mem_iff.mp ht) ((hperm k).mem_iff.mp ht')

end Accounts

/-! ### Accounts of the engine -/

section Engine

variable {locale : Locale} {tables : MailTables} {backends : Backends} {workspaceId : String}
  {ucUid : Option String} {m : MailboxAccount}

/-- **An engine account has a fixed thread list** when the engine answers with the pages of
one, the overlay hides none of its threads, and the service has no rows of its own. -/
theorem listMailboxInbox_fixed
    (hmailbox : findMailbox tables.settings workspaceId m.id = some m)
    (hsovereign : EngineMailProvider.handles m.provider = false)
    (hrows : tables.rows = []) (hconfigured : backends.isConfigured = true)
    {list : List StalwartThread} {folder : MailFolder} {query : Option Text}
    (hengine : ∀ limit offset,
      backends.listFolderThreads m.emailAddress ⟨folder, limit, offset, query, none⟩ =
        (list.drop offset).take limit)
    (hids : (list.map (·.id)).Nodup)
    (hsorted : (list.map StalwartThread.view).Pairwise fun t t' =>
      threadTime locale t' ≤ threadTime locale t)
    (hvisible : ∀ t ∈ list, visibleIn folder (dispositionOf tables workspaceId t.id) = true)
    (limit offset : ℕ) :
    listMailboxInbox locale tables backends workspaceId ucUid m.id limit folder query offset =
      ((list.map StalwartThread.view).drop offset).take limit := by
  have hlive : liveFolderThreads backends m.emailAddress ⟨folder, limit, offset, query, none⟩ =
      ((list.map StalwartThread.view).drop offset).take limit := by
    unfold liveFolderThreads
    rw [if_neg (by simp [hconfigured]), hengine, List.map_take, List.map_drop]
  have hadmitted : overlayFilterThreads tables workspaceId
      (((list.map StalwartThread.view).drop offset).take limit) folder =
        ((list.map StalwartThread.view).drop offset).take limit := by
    rw [Triage.overlayFilterThreads_eq, List.filter_eq_self]
    intro t ht
    obtain ⟨u, hu, rfl⟩ := List.mem_map.mp (List.mem_of_mem_drop (List.mem_of_mem_take ht))
    exact hvisible u hu
  have hsub : (((list.map StalwartThread.view).drop offset).take limit).Sublist
      (list.map StalwartThread.view) :=
    (List.take_sublist _ _).trans (List.drop_sublist _ _)
  unfold listMailboxInbox
  rw [hmailbox]
  dsimp only
  rw [if_neg (by simp [hsovereign]), hlive]
  split
  · exact hadmitted
  · have hlocal : localThreads locale tables workspaceId folder limit
        (localRows tables workspaceId folder m.emailAddress) = [] := by
      unfold localRows
      rw [hrows]
      simp [localThreads]
    have hnodup : ((((list.map StalwartThread.view).drop offset).take limit).map
        (·.id)).Nodup := by
      have hviews : ((list.map StalwartThread.view).map (·.id)).Nodup := by
        rw [List.map_map]
        exact hids
      exact hviews.sublist (hsub.map _)
    have hnewest : (((list.map StalwartThread.view).drop offset).take limit).mergeSort
        (fun t t' => decide (threadTime locale t' ≤ threadTime locale t)) =
          ((list.map StalwartThread.view).drop offset).take limit :=
      List.mergeSort_of_pairwise ((hsorted.sublist hsub).imp fun h => decide_eq_true h)
    rw [hlocal, Triage.byId_of_nodup hnodup]
    unfold fillIn
    rw [List.foldl_nil, hnewest, hadmitted, List.take_take, Nat.min_self]

end Engine

/-! ### Two accounts -/

section Examples

def supportMailbox : MailboxAccount :=
  ⟨"support", "acme", "support@acme.com".toList, none, true, true, false, "stalwart", .agent, none⟩

def salesMailbox : MailboxAccount :=
  ⟨"sales", "acme", "sales@acme.com".toList, none, false, true, false, "stalwart", .agent, none⟩

/-- A thread with an id and a time. -/
def datedThread (id time : String) : StalwartThread :=
  ⟨id, none, 1, true, false, some time.toList, none, [], false⟩

/-- Each of them has one thread. -/
def sampleList (address : Text) : List StalwartThread :=
  if address = "support@acme.com".toList then [datedThread "t1" "2026-01-02T00:00:00Z"]
  else if address = "sales@acme.com".toList then [datedThread "t2" "2026-01-01T00:00:00Z"]
  else []

def sampleLocale : Locale where
  toISOString _ := []
  parseDate text :=
    if text = "2026-01-02T00:00:00Z".toList then some 1767312000000
    else if text = "2026-01-01T00:00:00Z".toList then some 1767225600000
    else none
  localeCompare := compare

def sampleTables : MailTables where
  settings := { mailboxes := [supportMailbox, salesMailbox] }
  rows := []
  dispositions := []
  row_ids := List.nodup_nil
  mailbox_ids := by decide
  addresses := by decide

def sampleBackends : Backends where
  isConfigured := true
  listFolderThreads address query := ((sampleList address).drop query.offset).take query.limit
  getThreadDetail _ _ := []
  listInbox _ _ _ := []
  providerThread _ _ := []

theorem readable_sample {m : MailboxAccount}
    (hm : m ∈ readableMailboxes sampleTables "acme" none) :
    m = supportMailbox ∨ m = salesMailbox := by
  have hmem := (List.mem_filter.mp hm).1
  simpa [sampleTables] using hmem

theorem ids_sampleList (address : Text) : ((sampleList address).map (·.id)).Nodup := by
  unfold sampleList
  split
  · simp
  · split <;> simp

theorem newestFirst_sampleList (address : Text) :
    ((sampleList address).map StalwartThread.view).Pairwise fun t t' =>
      threadTime sampleLocale t' ≤ threadTime sampleLocale t := by
  unfold sampleList
  split
  · simp
  · split <;> simp

def sampleAccounts : Accounts where
  locale := sampleLocale
  collates := inferInstanceAs (Std.TransCmp (compare : Text → Text → Ordering))
  tables := sampleTables
  backends := sampleBackends
  workspaceId := "acme"
  ucUid := none
  folder := .inbox
  query := none
  list m := (sampleList m.emailAddress).map StalwartThread.view
  ids m := by
    rw [List.map_map]
    exact ids_sampleList m.emailAddress
  newestFirst m := newestFirst_sampleList m.emailAddress
  plain m hm := by
    rcases readable_sample hm with rfl | rfl <;> decide
  engine m hm hsovereign limit offset := by
    obtain ⟨hmem, hreadable⟩ := List.mem_filter.mp hm
    simp only [Bool.and_eq_true, decide_eq_true_eq] at hreadable
    exact listMailboxInbox_fixed (findMailbox_self hmem hreadable.1.1) hsovereign rfl rfl
      (fun _ _ => rfl) (ids_sampleList m.emailAddress) (newestFirst_sampleList m.emailAddress)
      (fun _ _ => rfl) limit offset
  external m hm hexternal := by
    rcases readable_sample hm with rfl | rfl <;> cases hexternal

end Examples

end Paging
end EmailOps
