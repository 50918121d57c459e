import Mathlib.Data.List.Nodup
import Mathlib.Data.List.TakeWhile
import EmailOps.Framework.Paging
import EmailOps.Framework.Sweep

/-!
# Reading a filtered list to its end

A client reads a list page by page: it asks at the offset of what it has received, and stops
at the first page that is shorter than `L`. The list is kept elsewhere, page by page; a filter
takes rows off a page after it is cut, and rows of one's own are merged into the first page.

* `client L ask n` is what the client has after `n` requests.
* `Source` is such a list. `Source.client_eq` says which pages the client asks for: those up
  to the one on which the filter takes off a row (`Source.asked`).
* `Source.complete_iff` says when the client has every visible row once.
-/

namespace Framework
namespace Paging

variable {Row Key : Type*}

/-- What a client has received after some requests, and whether it has stopped. -/
def client (L : ℕ) (ask : ℕ → List Row) : ℕ → List Row × Bool
  | 0 => ([], false)
  | n + 1 =>
    let sofar := client L ask n
    if sofar.2 then sofar
    else
      let answer := ask sofar.1.length
      (sofar.1 ++ answer, decide (answer.length < L))

section Client

variable {L : ℕ} {ask : ℕ → List Row}

/-- A client that has stopped has what it has. -/
theorem client_of_stopped {n m : ℕ} (h : (client L ask n).2 = true) (hm : n ≤ m) :
    client L ask m = client L ask n := by
  induction m, hm using Nat.le_induction with
  | base => rfl
  | succ m _ ih =>
    rw [client, ih]
    dsimp only
    rw [if_pos h]

theorem client_succ {n : ℕ} {rows : List Row} (h : client L ask n = (rows, false)) :
    client L ask (n + 1) =
      (rows ++ ask rows.length, decide ((ask rows.length).length < L)) := by
  rw [client, h]
  rfl

end Client

/-- A list kept elsewhere, with a filter and with rows of one's own. -/
structure Source (Row Key : Type*) where
  key : Row → Key
  L : ℕ
  L_pos : 0 < L
  /-- The list that is kept elsewhere. -/
  live : List Row
  /-- The rows of one's own. -/
  own : List Row
  /-- The filter, by key. -/
  admits : Key → Bool
  /-- The order of the first page. -/
  sort : List Row → List Row
  live_keys : (live.map key).Nodup
  own_keys : (own.map key).Nodup
  admits_own : ∀ row ∈ own, admits (key row) = true
  sort_perm : ∀ rows, (sort rows).Perm rows

namespace Source

variable [DecidableEq Key] (S : Source Row Key)

/-- The rows of one's own that the first page of the list does not have. -/
def extras : List Row :=
  (S.own.take S.L).filter fun row => !((S.live.take S.L).map S.key).contains (S.key row)

/-- The rows that may be on the first page. -/
def candidates : List Row :=
  ((S.live.take S.L).filter fun row => S.admits (S.key row)) ++ S.extras

/-- The same in order. -/
def newest : List Row :=
  (S.sort (S.live.take S.L ++ S.extras)).filter fun row => S.admits (S.key row)

/-- The answer to a request. -/
def answer (offset : ℕ) : List Row :=
  if offset = 0 then S.newest.take S.L
  else ((S.live.drop offset).take S.L).filter fun row => S.admits (S.key row)

/-- The list after its first page. -/
def later : List Row :=
  S.live.drop S.L

/-- The rows after the first page before the filter takes off one. -/
def untouched : ℕ :=
  (S.later.takeWhile fun row => S.admits (S.key row)).length

/-- What the client asks for after the first page: where that is full, the pages up to the one
on which the filter takes off a row. -/
def asked : List Row :=
  if S.candidates.length < S.L then []
  else S.later.take ((S.untouched / S.L + 1) * S.L)

/-- What it receives of that. -/
def read : List Row :=
  S.asked.filter fun row => S.admits (S.key row)

/-- The rows that may be on the first page and are on no later one that is asked for. -/
def kept : List Row :=
  S.candidates.filter fun row => !(S.read.map S.key).contains (S.key row)

/-- **What a client should have**: every visible row, and none twice. -/
def Shows (rows : List Row) : Prop :=
  (rows.map S.key).Nodup ∧ ∀ k, k ∈ rows.map S.key ↔
    k ∈ ((S.live.filter fun row => S.admits (S.key row)) ++ S.own).map S.key

/-- The client comes to have it. -/
def Complete : Prop :=
  ∃ N, ∀ n, N ≤ n → S.Shows (client S.L S.answer n).1

/-- **The condition.** -/
structure Fits : Prop where
  /-- The first page is not full, or it has room for just those rows that no later page has, and
  these come before the others. -/
  room : S.candidates.length < S.L ∨
    (S.kept.length = S.L ∧ ∀ row ∈ S.kept, ∀ other ∈ S.candidates,
      S.key other ∈ S.read.map S.key → [row, other].Sublist S.newest)
  /-- After the pages that are asked for nothing is visible but what the first page has. -/
  rest : ∀ row ∈ S.later.drop S.asked.length, S.admits (S.key row) = true →
    S.key row ∈ S.kept.map S.key
  /-- The rows of one's own after the first page are on a page of the list that is asked for. -/
  own_rest : ∀ row ∈ S.own.drop S.L,
    S.key row ∈ (S.live.take S.L).map S.key ∨ S.key row ∈ S.asked.map S.key

variable {S}

/-! ### What the client asks for -/

theorem newest_perm : S.newest.Perm S.candidates := by
  have hextras : S.extras.filter (fun row => S.admits (S.key row)) = S.extras := by
    refine List.filter_eq_self.mpr fun row hrow => ?_
    exact S.admits_own row (List.mem_of_mem_take (List.mem_filter.mp hrow).1)
  have hperm := (S.sort_perm (S.live.take S.L ++ S.extras)).filter fun row => S.admits (S.key row)
  rw [List.filter_append, hextras] at hperm
  exact hperm

/-- The rows before which the filter takes off none. -/
theorem le_length_takeWhile {p : Row → Bool} {l : List Row} {k : ℕ} (hk : k ≤ l.length)
    (h : ∀ row ∈ l.take k, p row = true) : k ≤ (l.takeWhile p).length := by
  conv_rhs => rw [← List.take_append_drop k l, List.takeWhile_append_of_pos h]
  rw [List.length_append, List.length_take]
  omega

omit [DecidableEq Key] in
theorem admits_of_mem_take {k : ℕ}
    (hk : k ≤ S.untouched) {row : Row}
    (hrow : row ∈ S.later.take k) : S.admits (S.key row) = true := by
  have hprefix := List.prefix_iff_eq_take.mp
    ( List.takeWhile_prefix (l := S.later) fun row => S.admits (S.key row))
  have hmem := List.take_subset_take_left S.later hk hrow
  unfold untouched at hmem
  rw [← hprefix] at hmem
  exact List.mem_takeWhile_imp (p := fun row => S.admits (S.key row)) hmem

omit [DecidableEq Key] in
theorem untouched_le : S.untouched ≤ S.later.length :=
  (List.takeWhile_sublist _).length_le

theorem answer_zero : S.answer 0 = S.newest.take S.L :=
  if_pos rfl

theorem answer_later (m : ℕ) :
    S.answer (S.L + m) = ((S.later.drop m).take S.L).filter fun row => S.admits (S.key row) := by
  have hpos := S.L_pos
  unfold answer later
  rw [if_neg (by omega), List.drop_drop]

/-- The pages before the one on which the filter takes off a row. -/
theorem client_full (hfull : S.L ≤ S.candidates.length) {j : ℕ}
    (hj : j * S.L ≤ S.untouched) :
    client S.L S.answer (j + 1) = (S.newest.take S.L ++ S.later.take (j * S.L), false) := by
  have hfirst : (S.newest.take S.L).length = S.L := by
    rw [List.length_take, newest_perm.length_eq]
    omega
  induction j with
  | zero =>
    have hstart : client S.L S.answer 0 = ([], false) := rfl
    rw [client_succ hstart, List.length_nil, answer_zero, hfirst]
    simp
  | succ j ih =>
    have hle := S.untouched_le
    have hbefore : j * S.L ≤ (j + 1) * S.L := Nat.mul_le_mul_right _ (Nat.le_succ j)
    have hlength : (S.newest.take S.L ++ S.later.take (j * S.L)).length = S.L + j * S.L := by
      rw [List.length_append, hfirst, List.length_take]
      omega
    -- The page is full, and the filter takes nothing off it.
    have hpage : S.answer (S.L + j * S.L) = (S.later.drop (j * S.L)).take S.L := by
      rw [answer_later, List.filter_eq_self]
      intro row hrow
      refine admits_of_mem_take hj ?_
      rw [Nat.succ_mul, List.take_add]
      exact List.mem_append_right _ hrow
    have hfullpage : ((S.later.drop (j * S.L)).take S.L).length = S.L := by
      rw [List.length_take, List.length_drop]
      rw [Nat.succ_mul] at hj
      omega
    rw [client_succ (ih (hbefore.trans hj)), hlength, hpage, hfullpage, Nat.succ_mul,
      List.take_add, List.append_assoc]
    simp

/-- The page on which the filter takes off a row, or which is the last. -/
theorem length_answer_lt :
    (S.answer (S.L + S.untouched / S.L * S.L)).length
      < S.L := by
  have hpos := S.L_pos
  rw [answer_later]
  by_contra hlong
  have hpage : ((S.later.drop (S.untouched / S.L * S.L)).take S.L).length ≤ S.L := List.length_take_le _ _
  have hfilter := List.length_filter_le (fun row => S.admits (S.key row))
    ((S.later.drop (S.untouched / S.L * S.L)).take S.L)
  have hall : ∀ row ∈ (S.later.drop (S.untouched / S.L * S.L)).take S.L, S.admits (S.key row) = true :=
    List.length_filter_eq_length_iff.mp (by omega)
  have hlength : S.L ≤ (S.later.drop (S.untouched / S.L * S.L)).length := by
    rw [List.length_take] at hpage hfilter
    omega
  -- Then the filter takes nothing off the list up to the end of this page.
  have hnext : (S.untouched / S.L + 1) * S.L ≤ S.untouched := by
    refine le_length_takeWhile ?_ fun row hrow => ?_
    · rw [List.length_drop] at hlength
      rw [Nat.succ_mul]
      omega
    · rw [Nat.succ_mul, List.take_add] at hrow
      rcases List.mem_append.mp hrow with hrow | hrow
      · exact admits_of_mem_take (Nat.div_mul_le_self S.untouched S.L) hrow
      · exact hall row hrow
  have hdiv := Nat.lt_div_mul_add (a := S.untouched) hpos
  rw [Nat.succ_mul] at hnext
  omega

/-- **What the client comes to have**: the first page, and what it reads after it. -/
theorem client_eq :
    ∃ N, ∀ n, N ≤ n → (client S.L S.answer n).1 = S.newest.take S.L ++ S.read := by
  rcases Nat.lt_or_ge S.candidates.length S.L with hshort | hfull
  · -- It stops at the first page.
    have hfirst : (S.newest.take S.L).length < S.L := by
      rw [List.length_take, newest_perm.length_eq]
      omega
    have hstart : client S.L S.answer 0 = ([], false) := rfl
    have hone := client_succ hstart
    rw [List.length_nil, answer_zero, decide_eq_true hfirst, List.nil_append] at hone
    refine ⟨1, fun n hn => ?_⟩
    rw [client_of_stopped (by rw [hone]) hn, hone]
    simp [read, asked, hshort]
  · let j := S.untouched / S.L
    have hj : j * S.L ≤ S.untouched :=
      Nat.div_mul_le_self _ _
    have hbefore := client_full hfull hj
    have hlength : (S.newest.take S.L ++ S.later.take (j * S.L)).length = S.L + j * S.L := by
      have hle := S.untouched_le
      rw [List.length_append, List.length_take, List.length_take, newest_perm.length_eq]
      omega
    have hlast := client_succ hbefore
    rw [hlength, decide_eq_true length_answer_lt] at hlast
    refine ⟨j + 2, fun n hn => ?_⟩
    rw [client_of_stopped (by rw [hlast]) hn, hlast, List.append_assoc]
    have hadmitted : (S.later.take (j * S.L)).filter (fun row => S.admits (S.key row)) =
        S.later.take (j * S.L) := List.filter_eq_self.mpr fun row => admits_of_mem_take hj
    unfold read asked
    rw [if_neg (by omega), Nat.succ_mul, List.take_add, List.filter_append, answer_later, hadmitted]

/-! ### What the client should have -/

theorem asked_initial : S.asked <+: S.later := by
  unfold asked
  split
  · exact List.nil_prefix
  · exact List.take_prefix _ _

omit [DecidableEq Key] in
/-- A row is known by its key. -/
theorem eq_of_mem_live {a b : Row} (ha : a ∈ S.live) (hb : b ∈ S.live)
    (h : S.key a = S.key b) : a = b :=
  List.inj_on_of_nodup_map S.live_keys ha hb h

theorem mem_candidates {row : Row} :
    row ∈ S.candidates ↔
      (row ∈ S.live.take S.L ∧ S.admits (S.key row) = true) ∨
        (row ∈ S.own.take S.L ∧ S.key row ∉ (S.live.take S.L).map S.key) := by
  unfold candidates extras
  rw [List.mem_append, List.mem_filter, List.mem_filter, Bool.not_eq_true',
    List.contains_eq_mem, decide_eq_false_iff_not]

theorem nodup_candidates : (S.candidates.map S.key).Nodup := by
  unfold candidates
  rw [List.map_append, List.nodup_append]
  refine ⟨?_, ?_, ?_⟩
  · exact S.live_keys.sublist
      ((List.filter_sublist.trans (List.take_sublist _ _)).map _)
  · exact S.own_keys.sublist ((List.filter_sublist.trans (List.take_sublist _ _)).map _)
  · rintro k hk _ hk' rfl
    obtain ⟨row, hrow, rfl⟩ := List.mem_map.mp hk'
    have hnot := (List.mem_filter.mp hrow).2
    rw [Bool.not_eq_true', List.contains_eq_mem, decide_eq_false_iff_not] at hnot
    obtain ⟨other, hother, hkey⟩ := List.mem_map.mp hk
    exact hnot (List.mem_map.mpr ⟨other, (List.mem_filter.mp hother).1, hkey⟩)

theorem mem_read {row : Row} :
    row ∈ S.read ↔ row ∈ S.asked ∧ S.admits (S.key row) = true :=
  List.mem_filter

theorem nodup_read : (S.read.map S.key).Nodup :=
  S.live_keys.sublist
    ((List.filter_sublist.trans (asked_initial.sublist.trans (List.drop_sublist _ _))).map _)

theorem mem_kept {row : Row} :
    row ∈ S.kept ↔ row ∈ S.candidates ∧ S.key row ∉ S.read.map S.key := by
  unfold kept
  rw [List.mem_filter, Bool.not_eq_true', List.contains_eq_mem, decide_eq_false_iff_not]

theorem nodup_kept : (S.kept.map S.key).Nodup :=
  nodup_candidates.sublist (List.filter_sublist.map _)

/-- Where the first page is not full, nothing is read after it. -/
theorem kept_of_short (h : S.candidates.length < S.L) : S.kept = S.candidates := by
  have hread : S.read = [] := by
    unfold read asked
    rw [if_pos h]
    rfl
  unfold kept
  rw [hread]
  exact List.filter_eq_self.mpr fun _ _ => rfl

omit [DecidableEq Key] in
/-- What is visible. -/
theorem mem_visible {k : Key} :
    k ∈ ((S.live.filter fun row => S.admits (S.key row)) ++ S.own).map S.key ↔
      (∃ row ∈ S.live, S.admits (S.key row) = true ∧ S.key row = k) ∨
        ∃ row ∈ S.own, S.key row = k := by
  simp only [List.map_append, List.mem_append, List.mem_map, List.mem_filter, and_assoc]

/-- **The first page has what is kept**, when the client has what it should. -/
theorem perm_kept_of_shows (h : S.Shows (S.newest.take S.L ++ S.read)) :
    (S.newest.take S.L).Perm S.kept := by
  obtain ⟨hnodup, hvisible⟩ := h
  rw [List.map_append, List.nodup_append] at hnodup
  refine (List.perm_ext_iff_of_nodup (hnodup.1.of_map _) (nodup_kept.of_map _)).mpr fun row => ?_
  constructor
  · intro hrow
    refine mem_kept.mpr ⟨newest_perm.mem_iff.mp (List.mem_of_mem_take hrow), fun hread => ?_⟩
    exact hnodup.2.2 _ (List.mem_map_of_mem hrow) _ hread rfl
  · intro hrow
    obtain ⟨hcandidate, hnot⟩ := mem_kept.mp hrow
    -- It is visible, and not on a later page.
    have hmem : S.key row ∈ (S.newest.take S.L ++ S.read).map S.key := by
      refine (hvisible _).mpr (mem_visible.mpr ?_)
      rcases mem_candidates.mp hcandidate with ⟨hlive, hadmits⟩ | ⟨hown, -⟩
      · exact .inl ⟨row, List.mem_of_mem_take hlive, hadmits, rfl⟩
      · exact .inr ⟨row, List.mem_of_mem_take hown, rfl⟩
    rw [List.map_append] at hmem
    obtain ⟨other, hother, hkey⟩ := List.mem_map.mp ((List.mem_append.mp hmem).resolve_right hnot)
    have hcandidate' := newest_perm.mem_iff.mp (List.mem_of_mem_take hother)
    rwa [← List.inj_on_of_nodup_map nodup_candidates hcandidate' hcandidate hkey]

/-- In a list without duplicates one of two entries is the earlier. -/
theorem not_sublist_swap {l : List Row} (hl : l.Nodup) {a b : Row} (h : [a, b].Sublist l) :
    ¬[b, a].Sublist l := by
  induction l with
  | nil => simp at h
  | cons x l ih =>
    obtain ⟨hx, hl⟩ := List.nodup_cons.mp hl
    intro h'
    rcases List.sublist_cons_iff.mp h with hin | ⟨_, heq, hsub⟩
    · rcases List.sublist_cons_iff.mp h' with hin' | ⟨_, heq', -⟩
      · exact ih hl hin hin'
      · -- The second entry is at the front.
        obtain ⟨rfl, rfl⟩ := List.cons.inj heq'
        exact hx (hin.subset (List.mem_cons_of_mem a List.mem_cons_self))
    · obtain ⟨rfl, rfl⟩ := List.cons.inj heq
      rcases List.sublist_cons_iff.mp h' with hin' | ⟨_, heq', -⟩
      · exact hx (hin'.subset (List.mem_cons_of_mem b List.mem_cons_self))
      · obtain ⟨rfl, -⟩ := List.cons.inj heq'
        exact hx (List.singleton_sublist.mp hsub)

/-- The first page has what is kept, when the condition holds. -/
theorem perm_kept_of_fits (h : S.Fits) : (S.newest.take S.L).Perm S.kept := by
  rcases h.room with hshort | ⟨hlength, hbefore⟩
  · rw [List.take_of_length_le (by rw [newest_perm.length_eq]; omega), kept_of_short hshort]
    exact newest_perm
  · let keeps := fun row => !(S.read.map S.key).contains (S.key row)
    have hperm : (S.newest.filter keeps).Perm S.kept := newest_perm.filter keeps
    have hnewest : S.newest.Nodup := newest_perm.nodup_iff.mpr (nodup_candidates.of_map _)
    have hsep : ∀ a ∈ S.newest, ∀ b ∈ S.newest, keeps a = true → keeps b = false →
        ¬[b, a].Sublist S.newest := by
      intro a ha b hb hkeeps hdrops
      have hkept : a ∈ S.kept := hperm.mem_iff.mp (List.mem_filter.mpr ⟨ha, hkeeps⟩)
      have hread : S.key b ∈ S.read.map S.key := by simpa [keeps] using hdrops
      exact not_sublist_swap hnewest (hbefore a hkept b (newest_perm.mem_iff.mp hb) hread)
    -- Those that are kept come first.
    have hsplit := Sweep.filter_append_of_pairwise (r := fun a b => [a, b].Sublist S.newest)
      (List.pairwise_iff_forall_sublist.mpr fun h => h) hsep
    rw [hsplit, List.take_left' (hperm.length_eq.trans hlength)]
    exact hperm

/-- A candidate is kept, or is read after the first page. -/
theorem kept_or_read {row : Row} (h : row ∈ S.candidates) :
    S.key row ∈ S.kept.map S.key ∨ S.key row ∈ S.read.map S.key := by
  by_cases hread : S.key row ∈ S.read.map S.key
  · exact .inr hread
  · exact .inl (List.mem_map_of_mem (mem_kept.mpr ⟨h, hread⟩))

/-- **Nothing visible is missing**, when the condition holds. -/
theorem covered_of_fits (h : S.Fits) {k : Key}
    (hk : k ∈ ((S.live.filter fun row => S.admits (S.key row)) ++ S.own).map S.key) :
    k ∈ S.kept.map S.key ∨ k ∈ S.read.map S.key := by
  -- A live row is kept or read.
  have hlive : ∀ row ∈ S.live, S.admits (S.key row) = true →
      S.key row ∈ S.kept.map S.key ∨ S.key row ∈ S.read.map S.key := by
    intro row hrow hadmits
    rw [← List.take_append_drop S.L S.live] at hrow
    rcases List.mem_append.mp hrow with hfirst | hlater
    · exact kept_or_read (mem_candidates.mpr (.inl ⟨hfirst, hadmits⟩))
    · have hsplit : row ∈ S.asked ++ S.later.drop S.asked.length := by
        rw [List.prefix_iff_eq_append.mp asked_initial]
        exact hlater
      rcases List.mem_append.mp hsplit with hasked | hrest
      · exact .inr (List.mem_map_of_mem (mem_read.mpr ⟨hasked, hadmits⟩))
      · exact .inl (h.rest row hrest hadmits)
  rcases mem_visible.mp hk with ⟨row, hrow, hadmits, rfl⟩ | ⟨row, hrow, rfl⟩
  · exact hlive row hrow hadmits
  · have hadmits := S.admits_own row hrow
    -- A live row with the key of an own one is admitted as that is.
    have hsame : ∀ other ∈ S.live, S.key other = S.key row →
        S.key row ∈ S.kept.map S.key ∨ S.key row ∈ S.read.map S.key := by
      intro other hother hkey
      rw [← hkey]
      exact hlive other hother (by rw [hkey]; exact hadmits)
    by_cases hfirst : S.key row ∈ (S.live.take S.L).map S.key
    · obtain ⟨other, hother, hkey⟩ := List.mem_map.mp hfirst
      exact hsame other (List.mem_of_mem_take hother) hkey
    · rw [← List.take_append_drop S.L S.own] at hrow
      rcases List.mem_append.mp hrow with hown | hown
      · exact kept_or_read (mem_candidates.mpr (.inr ⟨hown, hfirst⟩))
      · obtain ⟨other, hother, hkey⟩ :=
          List.mem_map.mp ((h.own_rest row hown).resolve_left hfirst)
        exact hsame other (List.mem_of_mem_drop (asked_initial.subset hother)) hkey

/-- What the client should have, when the condition holds. -/
theorem shows_of_fits (h : S.Fits) : S.Shows (S.newest.take S.L ++ S.read) := by
  have hperm := (perm_kept_of_fits h).map S.key
  refine ⟨?_, fun k => ?_⟩
  · rw [List.map_append, List.nodup_append]
    refine ⟨hperm.nodup_iff.mpr nodup_kept, nodup_read, ?_⟩
    rintro k hk _ hread rfl
    obtain ⟨row, hrow, rfl⟩ := List.mem_map.mp (hperm.mem_iff.mp hk)
    exact (mem_kept.mp hrow).2 hread
  · rw [List.map_append, List.mem_append, hperm.mem_iff]
    constructor
    · rintro (hkept | hread)
      · obtain ⟨row, hrow, rfl⟩ := List.mem_map.mp hkept
        refine mem_visible.mpr ?_
        rcases mem_candidates.mp (mem_kept.mp hrow).1 with ⟨hlive, hadmits⟩ | ⟨hown, -⟩
        · exact .inl ⟨row, List.mem_of_mem_take hlive, hadmits, rfl⟩
        · exact .inr ⟨row, List.mem_of_mem_take hown, rfl⟩
      · obtain ⟨row, hrow, rfl⟩ := List.mem_map.mp hread
        obtain ⟨hasked, hadmits⟩ := mem_read.mp hrow
        exact mem_visible.mpr
          (.inl ⟨row, List.mem_of_mem_drop (asked_initial.subset hasked), hadmits, rfl⟩)
    · exact covered_of_fits h

/-- The condition, when the client has what it should. -/
theorem fits_of_shows (h : S.Shows (S.newest.take S.L ++ S.read)) : S.Fits := by
  have hperm := perm_kept_of_shows h
  obtain ⟨-, hvisible⟩ := h
  -- What is visible is kept or on a later page.
  have hcover : ∀ k, k ∈ ((S.live.filter fun row => S.admits (S.key row)) ++ S.own).map S.key →
      k ∈ S.kept.map S.key ∨ k ∈ S.read.map S.key := by
    intro k hk
    have hmem := (hvisible k).mpr hk
    rw [List.map_append] at hmem
    exact (List.mem_append.mp hmem).imp_left (hperm.map S.key).mem_iff.mp
  refine ⟨?_, ?_, ?_⟩
  · rcases Nat.lt_or_ge S.candidates.length S.L with hshort | hfull
    · exact .inl hshort
    · have hlength : (S.newest.take S.L).length = S.L := by
        rw [List.length_take, newest_perm.length_eq]
        omega
      refine .inr ⟨hperm.length_eq.symm.trans hlength, fun row hrow other hother hread => ?_⟩
      -- The other row is not on the first page.
      have hfirst : row ∈ S.newest.take S.L := hperm.mem_iff.mpr hrow
      have hmem : other ∈ S.newest.take S.L ++ S.newest.drop S.L := by
        rw [List.take_append_drop]
        exact newest_perm.mem_iff.mpr hother
      have hafter : other ∈ S.newest.drop S.L := by
        refine (List.mem_append.mp hmem).resolve_left fun h => ?_
        exact (mem_kept.mp (hperm.mem_iff.mp h)).2 hread
      rw [← List.take_append_drop S.L S.newest]
      exact (List.singleton_sublist.mpr hfirst).append (List.singleton_sublist.mpr hafter)
  · intro row hrow hadmits
    have hlater : row ∈ S.later := List.mem_of_mem_drop hrow
    refine (hcover _ (mem_visible.mpr
      (.inl ⟨row, List.mem_of_mem_drop hlater, hadmits, rfl⟩))).resolve_right fun hread => ?_
    -- The pages that are asked for end before it.
    obtain ⟨other, hother, hkey⟩ := List.mem_map.mp hread
    have hasked := (mem_read.mp hother).1
    have hlive : other ∈ S.live := List.mem_of_mem_drop (asked_initial.subset hasked)
    obtain rfl := eq_of_mem_live hlive (List.mem_of_mem_drop hlater) hkey
    have hnodup : (S.asked ++ S.later.drop S.asked.length).Nodup := by
      rw [List.prefix_iff_eq_append.mp asked_initial]
      exact (S.live_keys.of_map _).sublist (List.drop_sublist _ _)
    exact List.disjoint_of_nodup_append hnodup hasked hrow
  · intro row hrow
    rcases hcover _ (mem_visible.mpr (.inr ⟨row, List.mem_of_mem_drop hrow, rfl⟩)) with
      hkept | hread
    · obtain ⟨other, hother, hkey⟩ := List.mem_map.mp hkept
      rcases mem_candidates.mp (mem_kept.mp hother).1 with ⟨hlive, -⟩ | ⟨hown, -⟩
      · exact .inl (List.mem_map.mpr ⟨other, hlive, hkey⟩)
      · -- A row of one's own is not before and after the page.
        have hnodup : (S.own.take S.L ++ S.own.drop S.L).Nodup := by
          rw [List.take_append_drop]
          exact S.own_keys.of_map _
        have heq := List.inj_on_of_nodup_map S.own_keys (List.mem_of_mem_take hown)
          (List.mem_of_mem_drop hrow) hkey
        rw [heq] at hown
        exact absurd hrow (List.disjoint_of_nodup_append hnodup hown)
    · obtain ⟨other, hother, hkey⟩ := List.mem_map.mp hread
      exact .inr (List.mem_map.mpr ⟨other, (mem_read.mp hother).1, hkey⟩)

/-- **When the client comes to have every visible row once.** -/
theorem complete_iff : S.Complete ↔ S.Fits := by
  obtain ⟨N, hN⟩ := S.client_eq
  constructor
  · rintro ⟨M, hM⟩
    have h := hM (max N M) (le_max_right _ _)
    rw [hN _ (le_max_left _ _)] at h
    exact fits_of_shows h
  · intro h
    refine ⟨N, fun n hn => ?_⟩
    rw [hN n hn]
    exact shows_of_fits h

end Source

end Paging
end Framework
