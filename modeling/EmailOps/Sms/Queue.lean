import Mathlib.Data.List.Sort
import EmailOps.Email.Reading
import EmailOps.Framework.Table

/-!
# The queue of text messages

`listSmsInbox` lists the items of the approval queue that are about a text message. Its
query asks for a state and an order, and for no workspace; the policies of the database do
not apply to the role that the program connects as, so that the query alone decides.

* `scope` are the rows the query selects, and `IsListing` says which lists are a result:
  the database orders rows of one time as it likes.
* `AgreeOn` says that two states have the same rows of a workspace.
* `listSmsInbox_same_iff`: two such states have the same results if and only if what is
  shown of the entries that are not wholly of the workspace is the same in both.
-/

namespace EmailOps
namespace Sms
namespace Queue

/-! ### Rows -/

/-- A row of the approval queue. Times are in milliseconds. -/
structure AgentInboxItem where
  id : String
  workspaceId : String
  smsMessageId : Option String
  state : AgentInboxState
  draftedBy : Option String
  summary : Option Text
  reviewedByUcUid : Option String
  reviewedAt : Option ℕ
  reviewNote : Option Text
  createdAt : ℕ
  deriving DecidableEq

structure SmsMessage where
  id : String
  workspaceId : String
  toPhoneNumber : Option Text
  body : Option Text
  preview : Option Text
  deriving DecidableEq

/-- The tables, with their keys. -/
structure Db where
  items : List AgentInboxItem
  messages : List SmsMessage
  item_ids : (items.map (·.id)).Nodup
  message_ids : (messages.map (·.id)).Nodup

/-! ### The listing -/

/-- The channel is that of text messages. Times stand for the texts of them. -/
structure SmsInboxView where
  id : String
  sms_message_id : Option String
  state : AgentInboxState
  drafted_by : Option String
  summary : Option Text
  receiver : Option Text
  body_preview : Option Text
  reviewed_by_uc_uid : Option String
  reviewed_at : Option ℕ
  review_note : Option Text
  created_at : ℕ
  deriving DecidableEq

/-- An item with the message it is about. -/
abbrev Entry := AgentInboxItem × Option SmsMessage

def inboxView (e : Entry) : SmsInboxView where
  id := e.1.id
  sms_message_id := e.1.smsMessageId
  state := e.1.state
  drafted_by := e.1.draftedBy
  summary := e.1.summary
  receiver := e.2.bind (·.toPhoneNumber)
  body_preview := e.2.bind fun msg => msg.preview.or (snippet msg.body)
  reviewed_by_uc_uid := e.1.reviewedByUcUid
  reviewed_at := e.1.reviewedAt
  review_note := e.1.reviewNote
  created_at := e.1.createdAt

/-- The message of an item, by the foreign key. -/
def Db.messageOf (db : Db) (i : AgentInboxItem) : Option SmsMessage :=
  i.smsMessageId.bind fun id => db.messages.find? (·.id = id)

/-- The rows that the query selects: the state is the one that is asked for, or pending. -/
def Db.scope (db : Db) (state : Option AgentInboxState) : List Entry :=
  (db.items.filter fun i => i.smsMessageId.isSome && i.state = state.getD .pending).map fun i =>
    (i, db.messageOf i)

/-- Newest first. -/
def newer (a b : SmsInboxView) : Bool :=
  b.created_at ≤ a.created_at

/-- `listSmsInbox`, where rows of one time stay in the order they are stored in. The
workspace and the caller are set for the policies of the database, which do not apply. -/
def listSmsInbox (db : Db) (_workspaceId : String) (_ucUid : Option String)
    (state : Option AgentInboxState) : List SmsInboxView :=
  ((db.scope state).map inboxView).mergeSort newer

/-- A list that `listSmsInbox` may return. -/
def IsListing (db : Db) (_workspaceId : String) (_ucUid : Option String)
    (state : Option AgentInboxState) (out : List SmsInboxView) : Prop :=
  out.Perm ((db.scope state).map inboxView) ∧ out.Pairwise fun a b => newer a b

instance (db : Db) (workspaceId : String) (ucUid : Option String)
    (state : Option AgentInboxState) (out : List SmsInboxView) :
    Decidable (IsListing db workspaceId ucUid state out) :=
  inferInstanceAs (Decidable (_ ∧ _))

variable {db db₁ db₂ : Db} {workspaceId : String} {ucUid : Option String}
  {state : Option AgentInboxState} {out : List SmsInboxView}

theorem listSmsInbox_isListing :
    IsListing db workspaceId ucUid state (listSmsInbox db workspaceId ucUid state) := by
  refine ⟨List.mergeSort_perm _ _, List.pairwise_mergeSort ?_ ?_ _⟩
  · intro a b c hab hbc
    simp only [newer, decide_eq_true_eq] at hab hbc ⊢
    exact hbc.trans hab
  · intro a b
    simpa [newer] using Nat.le_total b.created_at a.created_at

/-- Two states have the same results when they show the same views, in any order. -/
theorem isListing_same_iff :
    (∀ out, IsListing db₁ workspaceId ucUid state out ↔ IsListing db₂ workspaceId ucUid state out) ↔
      ((db₁.scope state).map inboxView).Perm ((db₂.scope state).map inboxView) := by
  constructor
  · intro h
    have hfirst : IsListing db₁ workspaceId ucUid state (listSmsInbox db₁ workspaceId ucUid state) :=
      listSmsInbox_isListing
    have hsecond := (h _).mp hfirst
    exact hfirst.1.symm.trans hsecond.1
  · intro h out
    unfold IsListing
    rw [and_congr_left_iff]
    exact fun _ => ⟨fun hout => hout.trans h, fun hout => hout.trans h.symm⟩

/-! ### Two states -/

/-- The two states have the same rows of the workspace. -/
structure AgreeOn (workspaceId : String) (db₁ db₂ : Db) : Prop where
  items : (db₁.items.filter (·.workspaceId = workspaceId)).Perm
    (db₂.items.filter (·.workspaceId = workspaceId))
  messages : (db₁.messages.filter (·.workspaceId = workspaceId)).Perm
    (db₂.messages.filter (·.workspaceId = workspaceId))

/-- The entry is wholly of the workspace: the item and its message are. -/
def owned (workspaceId : String) (e : Entry) : Bool :=
  e.1.workspaceId = workspaceId && e.2.any (·.workspaceId = workspaceId)

/-- The entries that the query selects and that are not wholly of the workspace. -/
def Db.foreign (db : Db) (workspaceId : String) (state : Option AgentInboxState) : List Entry :=
  (db.scope state).filter (!owned workspaceId ·)

theorem AgreeOn.symm (h : AgreeOn workspaceId db₁ db₂) : AgreeOn workspaceId db₂ db₁ :=
  ⟨h.items.symm, h.messages.symm⟩

/-- A message of the workspace is found in both states. -/
theorem AgreeOn.messageOf {i : AgentInboxItem} {msg : SmsMessage}
    (h : AgreeOn workspaceId db₁ db₂) (hmsg : db₁.messageOf i = some msg)
    (hmine : msg.workspaceId = workspaceId) : db₂.messageOf i = some msg := by
  obtain ⟨id, hid, hfind⟩ := Option.bind_eq_some_iff.mp hmsg
  obtain ⟨hmem, rfl⟩ := (Framework.Table.find_eq_some db₁.message_ids).mp hfind
  have hrow : msg ∈ db₁.messages.filter (·.workspaceId = workspaceId) :=
    List.mem_filter.mpr ⟨hmem, by simpa using hmine⟩
  have hother := List.mem_of_mem_filter (h.messages.mem_iff.mp hrow)
  have hfind := (Framework.Table.find_eq_some db₂.message_ids).mpr ⟨hother, rfl⟩
  exact Option.bind_eq_some_iff.mpr ⟨msg.id, hid, hfind⟩

/-- An entry as it is read from its item, if it is wholly of the workspace. -/
def Db.ownEntry (db : Db) (workspaceId : String) (state : Option AgentInboxState)
    (i : AgentInboxItem) : Option Entry :=
  if i.smsMessageId.isSome && i.state = state.getD .pending then
    ((db.messageOf i).filter (·.workspaceId = workspaceId)).map fun msg => (i, some msg)
  else none

/-- What is wholly of the workspace is read from the items of the workspace. -/
theorem scope_owned :
    (db.scope state).filter (owned workspaceId) =
      (db.items.filter (·.workspaceId = workspaceId)).filterMap
        (db.ownEntry workspaceId state) := by
  unfold Db.scope
  rw [List.filter_map, List.filter_filter, List.filterMap_filter, ← List.filterMap_eq_map,
    List.filterMap_filter]
  refine List.filterMap_congr fun i _ => ?_
  by_cases hmine : i.workspaceId = workspaceId
  · -- The item is of the workspace; whether the entry is, its message decides.
    cases hmsg : db.messageOf i with
    | none => simp [Db.ownEntry, owned, hmsg]
    | some msg =>
      by_cases hws : msg.workspaceId = workspaceId
      · simp [Db.ownEntry, owned, hmsg, hmine, hws, Option.filter]
      · simp [Db.ownEntry, owned, hmsg, hmine, hws, Option.filter]
  · simp [owned, hmine]

/-- **What is wholly of the workspace is listed in both states.** -/
theorem AgreeOn.owned (h : AgreeOn workspaceId db₁ db₂) :
    ((db₁.scope state).filter (owned workspaceId)).Perm
      ((db₂.scope state).filter (owned workspaceId)) := by
  have hentry : db₁.ownEntry workspaceId state = db₂.ownEntry workspaceId state := by
    funext i
    unfold Db.ownEntry
    have hmsg : (db₁.messageOf i).filter (·.workspaceId = workspaceId) =
        (db₂.messageOf i).filter (·.workspaceId = workspaceId) := by
      ext msg
      simp only [Option.filter_eq_some_iff, decide_eq_true_eq]
      exact ⟨fun ⟨hmsg, hmine⟩ => ⟨h.messageOf hmsg hmine, hmine⟩,
        fun ⟨hmsg, hmine⟩ => ⟨h.symm.messageOf hmsg hmine, hmine⟩⟩
    rw [hmsg]
  rw [scope_owned, scope_owned, hentry]
  exact h.items.filterMap _

/-- The two states have the same results if and only if the entries that are not wholly of
the workspace look the same in both. -/
theorem listSmsInbox_same_iff (h : AgreeOn workspaceId db₁ db₂) :
    (∀ out, IsListing db₁ workspaceId ucUid state out ↔ IsListing db₂ workspaceId ucUid state out) ↔
      ((db₁.foreign workspaceId state).map inboxView).Perm
        ((db₂.foreign workspaceId state).map inboxView) := by
  have hsplit : ∀ db : Db, ((db.scope state).map inboxView).Perm
      (((db.scope state).filter (Queue.owned workspaceId)).map inboxView ++
        (db.foreign workspaceId state).map inboxView) := by
    intro db
    rw [← List.map_append]
    exact ((List.filter_append_perm _ _).symm).map _
  have howned : (((db₁.scope state).filter (Queue.owned workspaceId)).map inboxView).Perm
      (((db₂.scope state).filter (Queue.owned workspaceId)).map inboxView) := h.owned.map inboxView
  rw [isListing_same_iff]
  constructor
  · intro hall
    have hparts := (hsplit db₁).symm.trans (hall.trans (hsplit db₂))
    exact (List.perm_append_left_iff _).mp (hparts.trans (howned.symm.append_right _))
  · intro hforeign
    have hparts := (howned.append_right _).trans (hforeign.append_left _)
    exact (hsplit db₁).trans (hparts.trans (hsplit db₂).symm)

/-! ### A state with rows of another workspace -/

def emptyDb : Db where
  items := []
  messages := []
  item_ids := List.nodup_nil
  message_ids := List.nodup_nil

/-- Workspace `w2` has a message that waits for approval. -/
def foreignDb : Db where
  items :=
    [{ id := "i1", workspaceId := "w2", smsMessageId := some "m1", state := .pending
       draftedBy := some "customer-ops", summary := some "SMS: see you at ten".toList
       reviewedByUcUid := none, reviewedAt := none, reviewNote := none, createdAt := 1000 }]
  messages :=
    [{ id := "m1", workspaceId := "w2", toPhoneNumber := some "+15550100".toList
       body := some "see you at ten".toList, preview := some "see you at ten".toList }]
  item_ids := List.nodup_singleton _
  message_ids := List.nodup_singleton _

/-- Workspace `w1` is listed the message of `w2`. -/
theorem foreign_message_is_listed :
    AgreeOn "w1" emptyDb foreignDb ∧
      ¬ ∀ out, IsListing emptyDb "w1" none none out ↔ IsListing foreignDb "w1" none none out := by
  have hagree : AgreeOn "w1" emptyDb foreignDb := ⟨by decide, by decide⟩
  have hempty : IsListing emptyDb "w1" none none [] := by decide
  have hforeign : ¬ IsListing foreignDb "w1" none none [] := by decide
  exact ⟨hagree, fun h => hforeign ((h []).mp hempty)⟩

/-- The message of `w2` is not listed among those that were approved. -/
theorem listSmsInbox_same_approved :
    AgreeOn "w1" emptyDb foreignDb ∧
      ∀ out, IsListing emptyDb "w1" none (some .approved) out ↔
        IsListing foreignDb "w1" none (some .approved) out := by
  have hagree : AgreeOn "w1" emptyDb foreignDb := ⟨by decide, by decide⟩
  exact ⟨hagree, (listSmsInbox_same_iff hagree).mpr (by decide)⟩

end Queue
end Sms
end EmailOps
