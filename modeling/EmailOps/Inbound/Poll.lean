import Mathlib.Data.Char
import Mathlib.Data.List.Lex
import EmailOps.Framework.HighWater
import EmailOps.Inbound.Rules

/-!
# Polling a mailbox

`pollInbound` asks the mail engine for the newest messages of the inbox, one page of them, and
keeps those whose `receivedAt` is after the cursor. The cursor is the largest `receivedAt` it
has seen. Both comparisons are of texts.

* `pollInbound` is the function; `newEmails` are the messages behind the references it
  returns.
* `mem_newEmails` says which messages a poll returns, and `le_pollCursor` that none of them is
  after the cursor it leaves.

Texts are ordered as JavaScript compares strings, which on the characters of a timestamp is
the order of their code points.
-/

namespace EmailOps
namespace Inbound

open Framework

/-- An email of the inbox, as the engine stores it: the instant it was received, which is what
the engine sorts by, and the properties that are asked for. -/
structure JmapEmail where
  instant : ℕ
  id : String
  threadId : String
  subject : Option Text
  from? : List Text
  to? : List Text
  receivedAt : Text
  autoreplyHeader : Option Text
  deriving DecidableEq

/-- The messages a poll asks for. -/
def pageLimit : ℕ := 50

/-- The reference of an email. -/
def JmapEmail.ref (email : JmapEmail) : InboundMessageRef where
  threadId := email.threadId
  fromAddress := email.from?.head?.filter (· ≠ [])
  toAddresses := email.to?.filter (· ≠ [])
  subject := email.subject
  receivedAt := email.receivedAt
  agentAutoreply :=
    match email.autoreplyHeader with
    | some header => Text.trim header ≠ []
    | none => false

/-- The emails of a page that have a thread and a time. -/
def usable (page : List JmapEmail) : List JmapEmail :=
  page.filter fun m => m.threadId ≠ "" && m.receivedAt ≠ []

/-- The largest `receivedAt` of a page, or the cursor when that is larger. -/
def maxCursor (page : List JmapEmail) (since : Option Text) : Text :=
  HighWater.top (since.getD []) ((usable page).map (·.receivedAt))

/-- The emails of a page after the cursor, by `receivedAt`. Without a cursor there are none:
the first poll only finds where to begin. -/
def newEmails (page : List JmapEmail) : Option Text → List JmapEmail
  | none => []
  | some since =>
    ((usable page).filter fun m => since < m.receivedAt).insertionSort
      fun a b => a.receivedAt ≤ b.receivedAt

/-- The cursor a poll leaves. Where there is nothing to begin at, it begins now. -/
def pollCursor (page : List JmapEmail) (since : Option Text) (nowIso : Text) : Text :=
  match maxCursor page since with
  | [] => since.getD nowIso
  | cursor => cursor

/-- What a poll answers. -/
structure InboundPollResult where
  cursor : Text
  newMessages : List InboundMessageRef

/-- The poll of a page, the engine's answer. -/
def pollInbound (page : List JmapEmail) (since : Option Text) (nowIso : Text) :
    InboundPollResult where
  cursor := pollCursor page since nowIso
  newMessages := (newEmails page since).map JmapEmail.ref

/-- An inbox in the order of the engine's answer: the newest first, by instant. -/
def NewestFirst (inbox order : List JmapEmail) : Prop :=
  order.Perm inbox ∧ order.Pairwise fun a b => b.instant ≤ a.instant

instance (inbox order : List JmapEmail) : Decidable (NewestFirst inbox order) :=
  inferInstanceAs (Decidable (_ ∧ _))

/-! ### What a poll returns -/

variable {page : List JmapEmail} {since : Text} {m : JmapEmail}

/-- A poll returns the emails of the page that are after the cursor. -/
theorem mem_newEmails (hthread : m.threadId ≠ "") :
    m ∈ newEmails page (some since) ↔ m ∈ page ∧ since < m.receivedAt := by
  unfold newEmails usable
  rw [List.mem_insertionSort, List.mem_filter, List.mem_filter]
  simp only [ne_eq, decide_not, Bool.and_eq_true, Bool.not_eq_true', decide_eq_false_iff_not,
    decide_eq_true_eq]
  constructor
  · rintro ⟨⟨hpage, -⟩, hafter⟩
    exact ⟨hpage, hafter⟩
  · rintro ⟨hpage, hafter⟩
    -- No text is before the empty one.
    have hne : m.receivedAt ≠ [] := by
      intro hnil
      rw [hnil] at hafter
      exact List.not_lt_nil since hafter
    exact ⟨⟨hpage, hthread, hne⟩, hafter⟩

theorem of_mem_newEmails {since : Option Text} (h : m ∈ newEmails page since) :
    m ∈ page ∧ ∃ cursor, since = some cursor ∧ cursor < m.receivedAt := by
  cases since with
  | none => cases h
  | some cursor =>
    unfold newEmails usable at h
    rw [List.mem_insertionSort, List.mem_filter, List.mem_filter] at h
    exact ⟨h.1.1, cursor, rfl, of_decide_eq_true h.2⟩

theorem nodup_newEmails {since : Option Text} (h : page.Nodup) : (newEmails page since).Nodup := by
  cases since with
  | none => exact List.nodup_nil
  | some cursor =>
    unfold newEmails usable
    rw [(List.perm_insertionSort _ _).nodup_iff]
    exact (h.filter _).filter _

theorem since_le_pollCursor (page : List JmapEmail) (since nowIso : Text) :
    since ≤ pollCursor page (some since) nowIso := by
  have hmax : since ≤ maxCursor page (some since) := HighWater.base_le_top _ _
  unfold pollCursor
  split
  · exact le_refl since
  · exact hmax

/-- What a poll returns is not after the cursor it leaves. -/
theorem le_pollCursor {since : Option Text} (nowIso : Text) (h : m ∈ newEmails page since) :
    m.receivedAt ≤ pollCursor page since nowIso := by
  obtain ⟨-, cursor, rfl, hafter⟩ := of_mem_newEmails h
  have hmem : m.receivedAt ∈ (usable page).map (·.receivedAt) := by
    unfold newEmails at h
    rw [List.mem_insertionSort, List.mem_filter] at h
    exact List.mem_map_of_mem h.1
  have hmax : m.receivedAt ≤ maxCursor page (some cursor) := HighWater.le_top hmem
  unfold pollCursor
  split
  · next hnil =>
    -- The largest of them is not empty: it is after the old cursor.
    rw [hnil] at hmax
    exact absurd (lt_of_lt_of_le hafter hmax) (List.not_lt_nil cursor)
  · exact hmax

theorem pollCursor_ne_nil {nowIso : Text} (h : nowIso ≠ []) (page : List JmapEmail) :
    pollCursor page none nowIso ≠ [] := by
  unfold pollCursor
  split
  · exact h
  · next hne => exact fun hnil => hne hnil

end Inbound
end EmailOps
