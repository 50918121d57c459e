import Mathlib.Algebra.GroupWithZero.Nat
import Mathlib.Algebra.Order.BigOperators.Group.List
import Mathlib.Algebra.Order.Group.Nat
import Mathlib.Data.List.Sort
import EmailOps.AgentReply.ReplyHtml
import EmailOps.AgentReply.Runtime
import EmailOps.Framework.Utf16

/-!
# The digest of a thread

Before it drafts a reply, the runtime gathers the last messages of the thread for the model.
It walks them from the newest and stops at a bound on the total, so that the bound trims the
oldest context.

* `buildThreadDigest` is the walk. Lengths are in UTF-16 code units.
* `walk_eq` says that it keeps the first entries of those it is given, and
  `total_walk_le` how long they are together.
* `digestLaw_iff` says when the digest is as it should be: the newest entry is kept however
  long it is, and of its three parts only the body is cut.
-/

namespace EmailOps
namespace AgentReply

open Framework Framework.Text

/-- Thread-context caps: the last messages, per message and in total. -/
def maxContextMessages : ℕ := 5

def maxMessageChars : ℕ := 1500

def maxDigestChars : ℕ := 6000

/-! ### Entries -/

structure Participant where
  name : Option Text
  address : Text

/-- A message of a thread. -/
structure StalwartMessageDetail where
  from_ : Option Participant
  subject : Option Text
  /-- The instant of the ISO-8601 time, in milliseconds. -/
  sentAt : Option ℤ
  preview : Option Text
  htmlBody : Option Text
  textBody : Option Text

/-- One message of the digest. A body may be cut within a surrogate pair. -/
structure DigestMessage where
  from_ : Text
  subject : Text
  body : List ℕ

/-- Best body text for one message: text > stripped HTML > preview. -/
def extractBody (m : StalwartMessageDetail) : Text :=
  match m.textBody.filter (trim · ≠ []), m.htmlBody.filter (trim · ≠ []) with
  | some textBody, _ => trim textBody
  | none, some htmlBody => stripHtml htmlBody
  | none, none => trim (m.preview.getD [])

/-- Whom a message is from. -/
def fromText (m : StalwartMessageDetail) : Text :=
  match m.from_ with
  | some p => trim (p.name.getD [] ++ " <".toList ++ p.address ++ ">".toList)
  | none => "(unknown sender)".toList

def subjectText (subject : Option Text) : Text :=
  subject.getD "(no subject)".toList

def entry (m : StalwartMessageDetail) : DigestMessage where
  from_ := fromText m
  subject := subjectText m.subject
  body := (utf16 (extractBody m)).take maxMessageChars

/-- The entry for a thread without messages. -/
def fallbackEntry (msg : AgentReplyInboundMsg) : DigestMessage where
  from_ := msg.fromAddress.getD "(unknown sender)".toList
  subject := subjectText msg.subject
  body := utf16 "(message body unavailable — reply from the subject and sender alone)".toList

def DigestMessage.size (e : DigestMessage) : ℕ :=
  (utf16 e.from_).length + (utf16 e.subject).length + e.body.length

/-- The length of some entries together. -/
def total (digest : List DigestMessage) : ℕ :=
  (digest.map DigestMessage.size).sum

/-! ### The walk -/

/-- `new Date(sentAt ?? 0).getTime()` -/
def sentTime (m : StalwartMessageDetail) : ℤ :=
  m.sentAt.getD 0

/-- The messages in the order of their times. -/
def chronological (detail : List StalwartMessageDetail) : List StalwartMessageDetail :=
  detail.insertionSort fun a b => sentTime a ≤ sentTime b

/-- The walk over the messages, newest first, with the digest so far and its length. -/
def walk (digest : List DigestMessage) (length : ℕ) :
    List StalwartMessageDetail → List DigestMessage
  | [] => digest
  | m :: ms =>
    if 0 < digest.length ∧ maxDigestChars < length + (entry m).size then digest
    else walk (digest ++ [entry m]) (length + (entry m).size) ms

/-- `buildThreadDigest` -/
def buildThreadDigest (detail : List StalwartMessageDetail) (msg : AgentReplyInboundMsg) :
    List DigestMessage :=
  let chronological := chronological detail
  let recent := chronological.drop (chronological.length - maxContextMessages)
  let digest := (walk [] 0 recent.reverse).reverse
  if digest = [] then [fallbackEntry msg] else digest

theorem pairwise_chronological (detail : List StalwartMessageDetail) :
    (chronological detail).Pairwise fun a b => sentTime a ≤ sentTime b :=
  List.pairwise_insertionSort (fun a b => sentTime a ≤ sentTime b) detail

theorem mem_chronological {detail : List StalwartMessageDetail} {m : StalwartMessageDetail} :
    m ∈ chronological detail ↔ m ∈ detail :=
  (List.perm_insertionSort _ detail).mem_iff

theorem total_append (d d' : List DigestMessage) : total (d ++ d') = total d + total d' := by
  simp [total]

@[simp] theorem total_singleton (e : DigestMessage) : total [e] = e.size := by
  simp [total]

theorem total_reverse (d : List DigestMessage) : total d.reverse = total d := by
  simp [total, List.map_reverse, List.sum_reverse]

/-- The walk keeps what is there, and adds the first entries it is given. -/
theorem walk_eq (digest : List DigestMessage) (length : ℕ) (ms : List StalwartMessageDetail) :
    ∃ k, walk digest length ms = digest ++ (ms.take k).map entry := by
  induction ms generalizing digest length with
  | nil => exact ⟨0, (List.append_nil digest).symm⟩
  | cons m ms ih =>
    rw [walk]
    split
    · exact ⟨0, (List.append_nil digest).symm⟩
    · obtain ⟨k, hk⟩ := ih (digest ++ [entry m]) (length + (entry m).size)
      exact ⟨k + 1, by rw [hk, List.take_succ_cons, List.map_cons, List.append_assoc]; rfl⟩

/-- Past the first entry, the walk stops at the bound. -/
theorem total_walk_le {digest : List DigestMessage} (h : 0 < digest.length)
    (ms : List StalwartMessageDetail) :
    total (walk digest (total digest) ms) ≤ max (total digest) maxDigestChars := by
  induction ms generalizing digest with
  | nil => exact le_max_left _ _
  | cons m ms ih =>
    rw [walk]
    split
    · exact le_max_left _ _
    · next hstop =>
      have hfits : total digest + (entry m).size ≤ maxDigestChars := by
        by_contra hgt
        exact hstop ⟨h, not_le.mp hgt⟩
      have htotal : total (digest ++ [entry m]) = total digest + (entry m).size := by
        rw [total_append, total_singleton]
      have hpos : 0 < (digest ++ [entry m]).length := by simp
      have hle := ih hpos
      rw [htotal] at hle
      exact hle.trans ((max_le hfits le_rfl).trans (le_max_right _ _))

/-! ### The law of the digest -/

/-- What is expected of the digest of a thread. -/
structure DigestLaw (detail : List StalwartMessageDetail) (digest : List DigestMessage) :
    Prop where
  /-- A contiguous newest part of the thread, the latest message with it, in the order of the
  times. -/
  newest : detail ≠ [] → ∃ ms, ms <:+ chronological detail ∧
    ms.Pairwise (fun a b => sentTime a ≤ sentTime b) ∧
    (∃ m ∈ ms, ∀ m' ∈ detail, sentTime m' ≤ sentTime m) ∧ digest = ms.map entry
  bounded : total digest ≤ maxDigestChars

/-- The length of a sender, a subject and a body that is capped. -/
def cappedLength (sender subject body : Text) : ℕ :=
  (utf16 sender).length + (utf16 subject).length + min maxMessageChars (utf16 body).length

/-- How long the latest message of a thread is, its body capped, or else the message that is
replied to. -/
def latestLength (detail : List StalwartMessageDetail) (msg : AgentReplyInboundMsg) : ℕ :=
  match (chronological detail).getLast? with
  | some m => cappedLength (fromText m) (subjectText m.subject) (extractBody m)
  | none => (fallbackEntry msg).size

theorem size_entry (m : StalwartMessageDetail) : (entry m).size =
    cappedLength (fromText m) (subjectText m.subject) (extractBody m) := by
  simp [DigestMessage.size, entry, cappedLength, List.length_take]

theorem buildThreadDigest_nil (msg : AgentReplyInboundMsg) :
    buildThreadDigest [] msg = [fallbackEntry msg] := rfl

/-- **What the digest is**: the entries of a last part of the thread, its latest message with
it, and only the latest may be too long. -/
theorem buildThreadDigest_spec {detail : List StalwartMessageDetail} {m : StalwartMessageDetail}
    (h : (chronological detail).getLast? = some m) (msg : AgentReplyInboundMsg) :
    ∃ ms, ms <:+ chronological detail ∧ m ∈ ms ∧ buildThreadDigest detail msg = ms.map entry ∧
      total (buildThreadDigest detail msg) ≤ max (entry m).size maxDigestChars := by
  set c := chronological detail with hc
  obtain ⟨older, holder⟩ := List.getLast?_eq_some_iff.mp h
  -- the recent messages end with the latest one
  obtain ⟨r, hr⟩ : ∃ r, c.drop (c.length - maxContextMessages) = r ++ [m] := by
    refine ⟨older.drop (c.length - maxContextMessages), ?_⟩
    rw [holder, List.drop_append_of_le_length]
    simp only [List.length_append, List.length_singleton, maxContextMessages]
    omega
  have hwalk : walk [] 0 (m :: r.reverse) = walk [entry m] (total [entry m]) r.reverse := by
    rw [walk, if_neg (by simp), total_singleton, Nat.zero_add, List.nil_append]
  obtain ⟨k, hk⟩ := walk_eq [entry m] (total [entry m]) r.reverse
  have hpos : 0 < [entry m].length := Nat.one_pos
  have htotal := total_walk_le hpos r.reverse
  rw [← hwalk] at hk htotal
  have hbuild : buildThreadDigest detail msg = (walk [] 0 (m :: r.reverse)).reverse := by
    unfold buildThreadDigest
    simp only [← hc, hr, List.reverse_append, List.reverse_singleton, List.singleton_append]
    rw [if_neg]
    simp [hk]
  have hmap : (walk [] 0 (m :: r.reverse)).reverse =
      ((r.reverse.take k).reverse ++ [m]).map entry := by
    rw [hk, List.singleton_append, List.reverse_cons, ← List.map_reverse, List.map_append]
    rfl
  refine ⟨(r.reverse.take k).reverse ++ [m], ?_, by simp, hbuild.trans hmap, ?_⟩
  · rw [List.reverse_take, List.reverse_reverse]
    refine List.IsSuffix.trans ?_ (List.drop_suffix (c.length - maxContextMessages) c)
    rw [hr]
    exact List.suffix_append_self_iff.mpr (List.drop_suffix _ _)
  · rw [hbuild, total_reverse]
    rwa [total_singleton] at htotal

/-- **When the digest is as it should be**: when the latest message, its body capped, is
itself within the bound. -/
theorem digestLaw_iff (detail : List StalwartMessageDetail) (msg : AgentReplyInboundMsg) :
    DigestLaw detail (buildThreadDigest detail msg) ↔
      latestLength detail msg ≤ maxDigestChars := by
  cases h : (chronological detail).getLast? with
  | none =>
    have hnil : detail = [] := by
      rw [List.getLast?_eq_none_iff] at h
      exact List.eq_nil_iff_forall_not_mem.mpr fun m hm =>
        List.not_mem_nil (h ▸ mem_chronological.mpr hm)
    have hlatest : latestLength detail msg = (fallbackEntry msg).size := by
      rw [latestLength, h]
    rw [hlatest, hnil, buildThreadDigest_nil]
    constructor
    · intro hlaw
      have := hlaw.bounded
      rwa [total_singleton] at this
    · intro hle
      exact ⟨fun hne => absurd rfl hne, by rwa [total_singleton]⟩
  | some m =>
    have hlatest : latestLength detail msg = (entry m).size := by
      rw [latestLength, h, size_entry]
    obtain ⟨ms, hsuffix, hmem, heq, htotal⟩ := buildThreadDigest_spec h msg
    rw [hlatest]
    constructor
    · intro hlaw
      refine le_trans ?_ hlaw.bounded
      rw [heq]
      exact List.le_sum_of_mem (List.mem_map_of_mem (List.mem_map_of_mem hmem))
    · intro hle
      refine ⟨fun _ => ⟨ms, hsuffix, (pairwise_chronological detail).sublist hsuffix.sublist,
        ⟨m, hmem, fun m' hm' => ?_⟩, heq⟩, htotal.trans (max_le hle le_rfl)⟩
      -- the latest message is the last in order
      obtain ⟨older, holder⟩ := List.getLast?_eq_some_iff.mp h
      have hpair := pairwise_chronological detail
      have hm'' := mem_chronological.mpr hm'
      rw [holder] at hpair hm''
      rcases List.mem_append.mp hm'' with hold | hlast
      · exact (List.pairwise_append.mp hpair).2.2 m' hold m (by simp)
      · rw [List.mem_singleton.mp hlast]

theorem length_le_size {m : StalwartMessageDetail} {s : Text} (h : m.subject = some s) :
    s.length ≤ (entry m).size := by
  have hsubject : (entry m).subject = s := by
    rw [entry, h]
    rfl
  have hle := length_le_utf16 s
  rw [DigestMessage.size, hsubject]
  omega

/-- A message with a long subject. -/
def longSubject : StalwartMessageDetail where
  from_ := some ⟨none, "ann@other.test".toList⟩
  subject := some (List.replicate 6001 'a')
  sentAt := some 0
  preview := none
  htmlBody := none
  textBody := some "Hello".toList

/-- Its arrival. -/
def longSubjectMsg : AgentReplyInboundMsg where
  threadId := "t1"
  fromAddress := some "ann@other.test".toList
  subject := longSubject.subject

/-- **A thread of one message can be past the bound**, since a subject is not cut. -/
theorem not_digestLaw_longSubject :
    ¬ DigestLaw [longSubject] (buildThreadDigest [longSubject] longSubjectMsg) := by
  have hdigest : buildThreadDigest [longSubject] longSubjectMsg = [entry longSubject] := rfl
  intro h
  have hbounded := h.bounded
  have hsize : (List.replicate 6001 'a').length ≤ (entry longSubject).size := length_le_size rfl
  rw [List.length_replicate] at hsize
  rw [hdigest, total_singleton, maxDigestChars] at hbounded
  omega

end AgentReply
end EmailOps
