import EmailOps.Framework.Draining
import EmailOps.Framework.Table
import EmailOps.Stalwart.Drafts
import EmailOps.Triage.Jmap

/-!
# Emptying a folder

`emptyFolder` destroys the messages of Trash or Junk in batches: it asks for a page of the
folder, asks the engine to destroy what is on it, adds up what the engine says it destroyed,
and asks again. It stops when a page is empty, when an answer is missing, when nothing of a
batch was destroyed, and after a hundred batches.

The engine chooses the pages, of as many messages as it is asked for and as it allows, and
decides on each message of a batch (`BatchRound`).

* `purgeLoop_frame` and `purgeLoop_counts` are about every course of the batches: what is
  destroyed was in the folder, and the count is right as long as no answer about destroyed
  messages is lost.
* `length_folder_emptyFolder` is about an engine that honours every request: what is left is
  what a hundred pages do not cover.
* `emptyFolder_spec` puts them together. A message that also belongs to another folder is
  destroyed with the others (`not_mem_emptyHonoured`).
* `purgeLoop_front` says that the loop is the one of `Triage.Jmap` where the engine does not
  cap its pages.
-/

namespace EmailOps
namespace Stalwart

open Framework
open Jmap (Account Email)

/-! ### Accounts -/

/-- The ids of the messages of a folder. -/
def folderIds (a : Account) (mailboxId : String) : List String :=
  (a.emails.filter (mailboxId ∈ ·.mailboxIds)).map (·.id)

/-- The account without those messages of a page that the engine destroys. -/
def without (a : Account) (page : List String) (destroys : String → Bool) : Account :=
  { a with emails := a.emails.filter fun m => !(decide (m.id ∈ page) && destroys m.id) }

/-- Messages are told apart by their ids, which are not empty. -/
structure WellFormed (a : Account) : Prop where
  nodup : (a.emails.map (·.id)).Nodup
  nonempty : ∀ m ∈ a.emails, m.id ≠ ""

section Accounts

variable {a : Account} {mailboxId : String} {page : List String} {destroys : String → Bool}

theorem without_sublist : (without a page destroys).emails.Sublist a.emails :=
  List.filter_sublist

theorem WellFormed.without (h : WellFormed a) : WellFormed (without a page destroys) where
  nodup := h.nodup.sublist (without_sublist.map _)
  nonempty m hm := h.nonempty m (without_sublist.subset hm)

theorem nodup_folderIds (h : WellFormed a) (mailboxId : String) :
    (folderIds a mailboxId).Nodup :=
  h.nodup.sublist (List.filter_sublist.map _)

theorem mem_folder_of_id (h : WellFormed a) {m : Email} (hm : m ∈ a.emails)
    (hid : m.id ∈ folderIds a mailboxId) : mailboxId ∈ m.mailboxIds := by
  obtain ⟨m', hm', heq⟩ := List.mem_map.mp hid
  obtain ⟨hmem, hfolder⟩ := List.mem_filter.mp hm'
  obtain rfl := List.inj_on_of_nodup_map h.nodup hmem hm heq
  simpa using hfolder

/-- The folder after a batch is what the page leaves of it. -/
theorem folderIds_without :
    folderIds (without a page destroys) mailboxId =
      Draining.left page destroys (folderIds a mailboxId) := by
  unfold folderIds without Draining.left
  rw [List.filter_map]
  show ((a.emails.filter _).filter _).map _ = ((a.emails.filter _).filter _).map _
  rw [List.filter_filter, List.filter_filter]
  -- the two conditions stand the other way round
  congr 1
  apply List.filter_congr
  intro m _
  simp only [Function.comp, Bool.and_comm]

/-- **The count of a batch.** What is destroyed of the page is what the account has lost. -/
theorem length_without (h : WellFormed a) (hpage : page.Subperm (folderIds a mailboxId)) :
    (page.filter destroys).length + (without a page destroys).emails.length =
      a.emails.length := by
  have hids : (without a page destroys).emails.map (·.id) =
      Draining.left page destroys (a.emails.map (·.id)) := by
    unfold without Draining.left
    rw [List.filter_map]
    rfl
  -- the page is of the folder, and the folder of the account
  have hsub : page.Subperm (a.emails.map (·.id)) :=
    hpage.trans (List.filter_sublist.map _).subperm
  have hleft := Draining.length_left h.nodup hsub destroys
  rwa [← hids, List.length_map, List.length_map] at hleft

/-- **The frame of a batch.** A message outside the folder stays. -/
theorem mem_without_of_not_mem (h : WellFormed a) (hpage : page ⊆ folderIds a mailboxId)
    {m : Email} (hm : m ∈ a.emails) (hout : mailboxId ∉ m.mailboxIds) :
    m ∈ (without a page destroys).emails := by
  have hid : m.id ∉ page := fun h' => hout (mem_folder_of_id h hm (hpage h'))
  exact List.mem_filter.mpr ⟨hm, by simp [hid]⟩

end Accounts

/-! ### A batch -/

/-- What becomes of the `Email/query` of a batch. -/
inductive QueryFate where
  | unreached
  | refused (type : Text)
  | answered

/-- A page comes back. -/
def QueryFate.answers : QueryFate → Bool
  | .answered => true
  | .unreached | .refused _ => false

def QueryFate.payload (page : List String) : QueryFate → Option Json
  | .unreached => none
  | .refused type => some (payloadOf [respond "error" (object [("type", .str type)]) "0"])
  | .answered =>
    some (payloadOf [respond "Email/query"
      (object [("ids", .arr (page.map fun id => .str id.toList))]) "0"])

/-- What becomes of the `Email/set` of a batch: not reached, refused as a whole, or decided on
message by message, with the answer arriving or not. -/
inductive BatchFate where
  | unreached
  | refused (type : Text)
  | applied (destroys : String → Bool) (answered : Bool)

namespace BatchFate

def destroys : BatchFate → String → Bool
  | .applied destroys _ => destroys
  | .unreached | .refused _ => fun _ => false

def payload (destroy : List String) : BatchFate → Option Json
  | .unreached => none
  | .refused type => some (payloadOf [respond "error" (object [("type", .str type)]) "0"])
  | .applied destroys answered =>
    if answered then
      some (payloadOf [respond "Email/set" (object
        [("destroyed", .arr ((destroy.filter destroys).map fun id => .str id.toList)),
          ("notDestroyed", object ((destroy.filter (!destroys ·)).map fun id =>
            (id, object [("type", .str "notFound".toList)])))]) "0"])
    else none

/-- An answer comes back, be it that the batch is refused. -/
def answers : BatchFate → Bool
  | .unreached => false
  | .refused _ => true
  | .applied _ answered => answered

/-- An answer comes back, or there is nothing to tell. -/
def Told (fate : BatchFate) : Prop :=
  fate.answers = true ∨ ∀ id, fate.destroys id = false

end BatchFate

/-- What becomes of the two requests of a batch. -/
structure BatchRound where
  query : QueryFate
  set : BatchFate

/-- The engine honours both requests. -/
def BatchRound.honoured : BatchRound :=
  ⟨.answered, .applied (fun _ => true) true⟩

/-! ### The client -/

/-- The message ids of an `Email/query`; anything else in its place is none. -/
def queryIds (payload : Option Json) : Option (List String) :=
  match prop ((methodResponses payload).bind (named · "Email/query")) "ids" with
  | some (.arr ids) =>
    some ((ids.filterMap fun id => (stringOf (some id)).map String.ofList).filter (· ≠ ""))
  | _ => none

/-- `Object.keys(v).length`, and zero of what is not truthy. A string has a key for each of
its UTF-16 code units. -/
def keysCount : Option Json → ℕ
  | some (.arr items) => items.length
  | some (.obj fields) => fields.length
  | some (.str s) => (s.flatMap fun c => if c.toNat < 0x10000 then [c] else [c, c]).length
  | _ => 0

/-- How many messages the answer of an `Email/set` says are destroyed. -/
def destroyedCount (responses : List Json) : ℕ :=
  keysCount (prop (named responses "Email/set") "destroyed")

/-- The loop of `emptyFolder`, with the batches it may still make. The engine picks each page
from the ids of the folder. -/
def purgeLoop (pick : List String → List String) (mailboxId : String) :
    ℕ → (ℕ → BatchRound) → ℕ → Bool → Account → Account × Option ℕ
  | 0, _, purged, _, a => (a, some purged)
  | n + 1, rounds, purged, sawAny, a =>
    match queryIds ((rounds 0).query.payload (pick (folderIds a mailboxId))) with
    -- A query that fails is told only before anything was destroyed.
    | none => (a, if sawAny then some purged else none)
    | some [] => (a, some purged)
    | some destroy =>
      let a' := without a destroy (rounds 0).set.destroys
      match methodResponses ((rounds 0).set.payload destroy) with
      | none => (a', some purged)
      | some responses =>
        -- A batch without progress ends the loop.
        let gone := destroyedCount responses
        if gone = 0 then (a', some purged)
        else purgeLoop pick mailboxId n (fun i => rounds (i + 1)) (purged + gone) true a'

/-- `emptyFolder`, of the folder that the query for its role finds. -/
def emptyFolder (configured : Bool) (roleQuery : Option Json)
    (pick : List String → List String) (rounds : ℕ → BatchRound) (a : Account) :
    Account × Option ℕ :=
  if !configured then (a, none)
  else
    match (resolveMailboxIdForRole roleQuery).filter (· ≠ "") with
    | none => (a, none)
    | some mailboxId => purgeLoop pick mailboxId 100 rounds 0 false a

/-! ### What the client reads -/

/-- The client reads the page, when it comes back. -/
theorem queryIds_payload {page : List String} (h : ∀ id ∈ page, id ≠ "") (fate : QueryFate) :
    queryIds (fate.payload page) = if fate.answers then some page else none := by
  cases fate with
  | unreached => rfl
  | refused type =>
    have hnamed : named [respond "error" (object [("type", .str type)]) "0"] "Email/query" =
        none := named_respond_of_ne (by decide) _ _ _
    simp [QueryFate.payload, QueryFate.answers, queryIds, hnamed]
  | answered =>
    have hids : (page.map fun id => Json.str id.toList).filterMap
        (fun id => (stringOf (some id)).map String.ofList) = page := by
      rw [List.filterMap_map]
      calc page.filterMap _ = page.filterMap some :=
            List.filterMap_congr fun id _ => by simp [stringOf]
        _ = page := List.filterMap_some
    simp only [QueryFate.payload, QueryFate.answers, queryIds, methodResponses_payloadOf,
      Option.bind_some, named_respond, prop_object_head, hids, if_true]
    rw [List.filter_eq_self.mpr fun id hid => by simpa using h id hid]

/-- The client reads how many messages of the batch are destroyed, when an answer comes
back. -/
theorem destroyedCount_payload (destroy : List String) (fate : BatchFate) :
    (methodResponses (fate.payload destroy)).map destroyedCount =
      if fate.answers then some (destroy.filter fate.destroys).length else none := by
  cases fate with
  | unreached => rfl
  | refused type =>
    have hnamed : named [respond "error" (object [("type", .str type)]) "0"] "Email/set" =
        none := named_respond_of_ne (by decide) _ _ _
    have hnone : destroy.filter (BatchFate.refused type).destroys = [] :=
      List.filter_eq_nil_iff.mpr fun _ _ => by simp [BatchFate.destroys]
    simp [BatchFate.payload, BatchFate.answers, destroyedCount, hnamed, keysCount, hnone]
  | applied destroys answered =>
    cases answered with
    | true => simp [BatchFate.payload, BatchFate.answers, BatchFate.destroys, destroyedCount,
        prop_object_head, keysCount]
    | false => rfl

/-! ### One batch -/

section Loop

variable {size : ℕ} {pager : Draining.Pager String size} {mailboxId : String} {n : ℕ}
  {rounds : ℕ → BatchRound} {purged : ℕ} {sawAny : Bool} {a : Account}

theorem ne_of_mem_page (h : WellFormed a) :
    ∀ id ∈ pager.pick (folderIds a mailboxId), id ≠ "" := by
  intro id hid
  obtain ⟨m, hm, rfl⟩ := List.mem_map.mp ((pager.subperm _).subset hid)
  exact h.nonempty m (List.mem_filter.mp hm).1

/-- **What a batch comes to**, in what becomes of its two requests. -/
theorem purgeLoop_succ (h : WellFormed a) :
    purgeLoop pager.pick mailboxId (n + 1) rounds purged sawAny a =
      let page := pager.pick (folderIds a mailboxId)
      let a' := without a page (rounds 0).set.destroys
      let count := (page.filter (rounds 0).set.destroys).length
      if !(rounds 0).query.answers then (a, if sawAny then some purged else none)
      else if page = [] then (a, some purged)
      else if !(rounds 0).set.answers then (a', some purged)
      else if count = 0 then (a', some purged)
      else purgeLoop pager.pick mailboxId n (fun i => rounds (i + 1)) (purged + count) true a' := by
  rw [purgeLoop, queryIds_payload (ne_of_mem_page h)]
  generalize pager.pick (folderIds a mailboxId) = page
  cases (rounds 0).query.answers with
  | false => rfl
  | true =>
    cases page with
    | nil => rfl
    | cons id rest =>
      have hcount := destroyedCount_payload (id :: rest) (rounds 0).set
      simp only [if_true, Bool.not_true, Bool.false_eq_true, if_false, reduceCtorEq]
      cases hanswers : (rounds 0).set.answers with
      | false =>
        -- the answer is lost, and the loop stops without counting
        rw [hanswers, if_neg (by simp), Option.map_eq_none_iff] at hcount
        simp [hcount]
      | true =>
        rw [hanswers, if_pos rfl, Option.map_eq_some_iff] at hcount
        obtain ⟨responses, hresponses, hgone⟩ := hcount
        simp [hresponses, hgone]

/-- The four ways a batch can end. The query is not answered; the page is empty; the loop
stops after the batch; or it counts what was destroyed and goes on. -/
theorem purgeLoop_cases (h : WellFormed a) :
    let page := pager.pick (folderIds a mailboxId)
    let destroys := (rounds 0).set.destroys
    let r := purgeLoop pager.pick mailboxId (n + 1) rounds purged sawAny a
    (r = (a, if sawAny then some purged else none) ∧ (rounds 0).query.answers = false) ∨
    (r = (a, some purged) ∧ page = []) ∨
    (r = (without a page destroys, some purged) ∧
      ((∀ id ∈ page, destroys id = false) ∨ (rounds 0).set.answers = false)) ∨
    r = purgeLoop pager.pick mailboxId n (fun i => rounds (i + 1))
      (purged + (page.filter destroys).length) true (without a page destroys) := by
  intro page destroys r
  have hr : r = _ := purgeLoop_succ h
  simp only at hr
  split at hr
  · next hquery => exact .inl ⟨hr, by simpa using hquery⟩
  · split at hr
    · next hpage => exact .inr (.inl ⟨hr, hpage⟩)
    · split at hr
      · next hset => exact .inr (.inr (.inl ⟨hr, .inr (by simpa using hset)⟩))
      · split at hr
        · next hzero =>
          -- nothing of the batch is destroyed
          refine .inr (.inr (.inl ⟨hr, .inl fun id hid => ?_⟩))
          simpa using List.filter_eq_nil_iff.mp (List.eq_nil_of_length_eq_zero hzero) id hid
        · exact .inr (.inr (.inr hr))

/-! ### Every course of the batches -/

/-- **Only messages of the folder are destroyed**, and none comes into being. -/
theorem purgeLoop_frame (h : WellFormed a) :
    let r := purgeLoop pager.pick mailboxId n rounds purged sawAny a
    r.1.emails.Sublist a.emails ∧
      ∀ m ∈ a.emails, mailboxId ∉ m.mailboxIds → m ∈ r.1.emails := by
  induction n generalizing rounds purged sawAny a with
  | zero => exact ⟨List.Sublist.refl _, fun m hm _ => hm⟩
  | succ n ih =>
    intro r
    have hout : ∀ m ∈ a.emails, mailboxId ∉ m.mailboxIds →
        m ∈ (without a (pager.pick (folderIds a mailboxId)) (rounds 0).set.destroys).emails :=
      fun m hm hm' => mem_without_of_not_mem h (pager.subperm _).subset hm hm'
    obtain ⟨hr, -⟩ | ⟨hr, -⟩ | ⟨hr, -⟩ | hr :=
      @purgeLoop_cases size pager mailboxId n rounds purged sawAny a h
    · rw [show r = _ from hr]
      exact ⟨List.Sublist.refl _, fun m hm _ => hm⟩
    · rw [show r = _ from hr]
      exact ⟨List.Sublist.refl _, fun m hm _ => hm⟩
    · rw [show r = _ from hr]
      exact ⟨without_sublist, hout⟩
    · rw [show r = _ from hr]
      obtain ⟨hsub, hkeep⟩ := ih (h.without)
      exact ⟨hsub.trans without_sublist, fun m hm hm' => hkeep m (hout m hm hm') hm'⟩

/-- **The count is exact**, as long as no answer about destroyed messages is lost; and where
there is none, nothing has happened. -/
theorem purgeLoop_counts (h : WellFormed a) (htold : ∀ i, (rounds i).set.Told) :
    let r := purgeLoop pager.pick mailboxId n rounds purged sawAny a
    (∀ count, r.2 = some count → count + r.1.emails.length = purged + a.emails.length) ∧
      (r.2 = none → r.1 = a ∧ sawAny = false) := by
  induction n generalizing rounds purged sawAny a with
  | zero => simp [purgeLoop]
  | succ n ih =>
    intro r
    have hlength :=
      @length_without a mailboxId _ (rounds 0).set.destroys h (pager.subperm _)
    obtain ⟨hr, -⟩ | ⟨hr, -⟩ | ⟨hr, hstop⟩ | hr :=
      @purgeLoop_cases size pager mailboxId n rounds purged sawAny a h
    · rw [show r = _ from hr]
      cases sawAny <;> simp
    · rw [show r = _ from hr]
      simp
    · -- the loop stops, and nothing of the page was destroyed
      rw [show r = _ from hr]
      have hzero : ((pager.pick (folderIds a mailboxId)).filter
          (rounds 0).set.destroys).length = 0 := by
        obtain hnothing | hlost := hstop
        · rw [List.filter_eq_nil_iff.mpr fun id hid => by simp [hnothing id hid]]
          rfl
        · -- an answer that does not come back has nothing to tell
          obtain htold | hnothing := htold 0
          · exact absurd (htold.symm.trans hlost) (by simp)
          · rw [List.filter_eq_nil_iff.mpr fun id _ => by simp [hnothing id]]
            rfl
      refine ⟨fun count hcount => ?_, by simp⟩
      obtain rfl : purged = count := by simpa using hcount
      rw [hzero, Nat.zero_add] at hlength
      show purged + (without a _ _).emails.length = _
      rw [hlength]
    · rw [show r = _ from hr]
      obtain ⟨hcount, hnone⟩ := ih h.without fun i => htold (i + 1)
      refine ⟨fun count hc => ?_, fun hn => nomatch (hnone hn).2⟩
      have := hcount count hc
      omega

/-! ### An engine that honours every request -/

/-- **The folder is drained**, a page for each batch. -/
theorem folderIds_purgeLoop (h : WellFormed a) (hsize : 0 < size)
    (hrounds : ∀ i, rounds i = .honoured) :
    folderIds (purgeLoop pager.pick mailboxId n rounds purged sawAny a).1 mailboxId =
        Draining.drain pager.pick n (folderIds a mailboxId) ∧
      (purgeLoop pager.pick mailboxId n rounds purged sawAny a).2 ≠ none := by
  induction n generalizing rounds purged sawAny a with
  | zero => exact ⟨rfl, by simp [purgeLoop]⟩
  | succ n ih =>
    have hdestroys : (rounds 0).set.destroys = fun _ => true := by rw [hrounds 0]; rfl
    have hempty (hp : pager.pick (folderIds a mailboxId) = []) : folderIds a mailboxId = [] := by
      have := pager.length_pick (folderIds a mailboxId)
      rw [hp, List.length_nil] at this
      exact List.eq_nil_of_length_eq_zero (by omega)
    have hdrained (hp : pager.pick (folderIds a mailboxId) = []) (k : ℕ) :
        Draining.drain pager.pick k (folderIds a mailboxId) = folderIds a mailboxId := by
      have := (Draining.drain_sublist pager.pick k (folderIds a mailboxId)).subset
      rw [hempty hp] at this ⊢
      exact List.eq_nil_iff_forall_not_mem.mpr fun id hid => by simpa using this hid
    obtain ⟨-, hfate⟩ | ⟨hr, hp⟩ | ⟨hr, hstop⟩ | hr :=
      @purgeLoop_cases size pager mailboxId n rounds purged sawAny a h
    · rw [hrounds 0] at hfate
      exact absurd hfate (by simp [BatchRound.honoured, QueryFate.answers])
    · rw [hr]
      exact ⟨(hdrained hp _).symm, by simp⟩
    · -- the whole page is destroyed, so that the page is empty
      have hp : pager.pick (folderIds a mailboxId) = [] := by
        obtain hnothing | hlost := hstop
        · refine List.eq_nil_iff_forall_not_mem.mpr fun id hid => ?_
          have := hnothing id hid
          rw [hdestroys] at this
          exact absurd this (by simp)
        · rw [hrounds 0] at hlost
          exact absurd hlost (by simp [BatchRound.honoured, BatchFate.answers])
      rw [hr, hp]
      refine ⟨?_, by simp⟩
      show folderIds (without a [] _) mailboxId = _
      rw [folderIds_without, hdrained hp]
      exact List.filter_eq_self.mpr fun _ _ => by simp
    · rw [hr]
      obtain ⟨hids, hsome⟩ := @ih (fun i => rounds (i + 1)) _ true _ h.without
        fun i => hrounds (i + 1)
      exact ⟨by rw [hids, folderIds_without, hdestroys, Draining.drain], hsome⟩

end Loop

/-! ### The call -/

/-- The messages of a folder. -/
def folder (a : Account) (mailboxId : String) : List Email :=
  a.emails.filter (mailboxId ∈ ·.mailboxIds)

theorem length_folderIds (a : Account) (mailboxId : String) :
    (folderIds a mailboxId).length = (folder a mailboxId).length := by
  simp [folderIds, folder]

section Call

variable {size : ℕ} {pager : Draining.Pager String size} {mailboxId : String}
  {rounds : ℕ → BatchRound} {a : Account}

theorem emptyFolder_of_found (hid : mailboxId ≠ "") :
    emptyFolder true (some (folderPayload mailboxId)) pager.pick rounds a =
      purgeLoop pager.pick mailboxId 100 rounds 0 false a := by
  have hfound : (resolveMailboxIdForRole (some (folderPayload mailboxId))).filter (· ≠ "") =
      some mailboxId := by
    simp [resolveMailboxIdForRole, folderPayload, prop_object_head, hid]
  rw [emptyFolder, hfound]
  rfl

/-- **What an honoured call leaves of the folder**: what a hundred pages do not cover. -/
theorem length_folder_emptyFolder (h : WellFormed a) (hid : mailboxId ≠ "") (hsize : 0 < size) :
    (folder (emptyFolder true (some (folderPayload mailboxId)) pager.pick
      (fun _ => .honoured) a).1 mailboxId).length =
      (folder a mailboxId).length - 100 * size := by
  rw [emptyFolder_of_found hid, ← length_folderIds, ← length_folderIds,
    (folderIds_purgeLoop h hsize fun _ => rfl).1,
    Draining.length_drain pager 100 (nodup_folderIds h mailboxId)]

/-- Where a hundred pages cover the folder, an honoured call destroys the messages of the
folder and no others. -/
theorem mem_emptyFolder (h : WellFormed a) (hid : mailboxId ≠ "") (hsize : 0 < size)
    (hcovered : (folder a mailboxId).length ≤ 100 * size) (m : Email) :
    m ∈ (emptyFolder true (some (folderPayload mailboxId)) pager.pick
        (fun _ => .honoured) a).1.emails ↔ m ∈ a.emails ∧ mailboxId ∉ m.mailboxIds := by
  have hlength := @length_folder_emptyFolder size pager mailboxId a h hid hsize
  rw [Nat.sub_eq_zero_of_le hcovered] at hlength
  have hempty := List.filter_eq_nil_iff.mp (List.eq_nil_of_length_eq_zero hlength)
  rw [emptyFolder_of_found hid] at hempty ⊢
  obtain ⟨hsub, hkeep⟩ := @purgeLoop_frame size pager mailboxId 100 (fun _ => .honoured) 0 false a h
  constructor
  · exact fun hm => ⟨hsub.subset hm, by simpa using hempty m hm⟩
  · exact fun hm => hkeep m hm.1 hm.2

/-- **Emptying a folder.** An engine that honours every request destroys the messages of a
folder that a hundred pages cover, those that also belong to another folder among them, and
the call answers with their number. Whatever becomes of the batches, the call destroys only
messages of the folder, and its count is exact as long as no answer about destroyed messages
is lost. -/
theorem emptyFolder_spec {cap : ℕ} (pager : Draining.Pager String (min 1000 cap))
    (h : WellFormed a) (hid : mailboxId ≠ "") (hcap : 1 ≤ cap) :
    ((folder a mailboxId).length ≤ 100 * min 1000 cap →
      (∀ m, m ∈ (emptyFolder true (some (folderPayload mailboxId)) pager.pick
          (fun _ => .honoured) a).1.emails ↔ m ∈ a.emails ∧ mailboxId ∉ m.mailboxIds) ∧
        (emptyFolder true (some (folderPayload mailboxId)) pager.pick
          (fun _ => .honoured) a).2 = some (folder a mailboxId).length) ∧
      ∀ rounds : ℕ → BatchRound,
        let r := emptyFolder true (some (folderPayload mailboxId)) pager.pick rounds a
        r.1.emails.Sublist a.emails ∧
          (∀ m ∈ a.emails, mailboxId ∉ m.mailboxIds → m ∈ r.1.emails) ∧
          ((∀ i, (rounds i).set.Told) →
            (∀ count, r.2 = some count → count + r.1.emails.length = a.emails.length) ∧
              (r.2 = none → r.1 = a)) := by
  have hsize : 0 < min 1000 cap := by omega
  constructor
  · intro hcovered
    have hmem := @mem_emptyFolder _ pager mailboxId a h hid hsize hcovered
    refine ⟨hmem, ?_⟩
    rw [emptyFolder_of_found hid] at hmem ⊢
    obtain ⟨hcount, -⟩ := @purgeLoop_counts _ pager mailboxId 100 (fun _ => .honoured) 0 false a
      h fun _ => .inl rfl
    obtain ⟨count, hcount'⟩ := Option.ne_none_iff_exists'.mp
      (@folderIds_purgeLoop _ pager mailboxId 100 (fun _ => .honoured) 0 false a h hsize
        fun _ => rfl).2
    have hsum := hcount count hcount'
    rw [hcount', Option.some.injEq]
    -- what is left is as many as there are outside the folder
    have hperm : (purgeLoop pager.pick mailboxId 100 (fun _ => .honoured) 0 false a).1.emails.Perm
        (a.emails.filter fun m => !decide (mailboxId ∈ m.mailboxIds)) := by
      have hnodup : a.emails.Nodup := h.nodup.of_map _
      refine (List.perm_ext_iff_of_nodup (hnodup.sublist ?_) (hnodup.filter _)).mpr fun m => ?_
      · exact (@purgeLoop_frame _ pager mailboxId 100 (fun _ => .honoured) 0 false a h).1
      · rw [hmem m, List.mem_filter]
        simp
    have hsplit := List.length_eq_length_filter_add (l := a.emails)
      fun m => decide (mailboxId ∈ m.mailboxIds)
    rw [hperm.length_eq] at hsum
    show count = (a.emails.filter _).length
    omega
  · intro rounds r
    have hr : r = purgeLoop pager.pick mailboxId 100 rounds 0 false a := emptyFolder_of_found hid
    rw [hr]
    obtain ⟨hsub, hkeep⟩ := @purgeLoop_frame _ pager mailboxId 100 rounds 0 false a h
    refine ⟨hsub, hkeep, fun htold => ?_⟩
    obtain ⟨hcount, hnone⟩ := @purgeLoop_counts _ pager mailboxId 100 rounds 0 false a h htold
    exact ⟨fun count hc => by simpa using hcount count hc, fun hn => (hnone hn).1⟩

end Call

/-! ### Where the pages are not capped -/

/-- What the triage of threads knows of a batch. -/
def BatchRound.purgeRound (round : BatchRound) : Jmap.PurgeRound :=
  ⟨round.query.answers, round.set.destroys, round.set.answers⟩

theorem purgeIds_eq (a : Account) (mailboxId : String) :
    Jmap.purgeIds a mailboxId = (folderIds a mailboxId).take 1000 := by
  rw [Jmap.purgeIds, folderIds, List.map_take]

theorem destroyed_eq {a : Account} (h : WellFormed a) (mailboxId : String)
    (round : Jmap.PurgeRound) :
    Jmap.destroyed a mailboxId round =
      without a (Jmap.purgeIds a mailboxId) round.destroys := by
  unfold Jmap.destroyed without
  congr 1
  apply List.filter_congr
  intro m hm
  by_cases hid : m.id ∈ Jmap.purgeIds a mailboxId
  · -- a message on the page is in the folder
    have hfolder : mailboxId ∈ m.mailboxIds := by
      rw [purgeIds_eq] at hid
      exact mem_folder_of_id h hm (List.take_subset _ _ hid)
    simp [hid, hfolder]
  · simp [hid]

/-- **The loop is that of the triage of threads**, where the pages are the first thousand
messages. -/
theorem purgeLoop_front {a : Account} (h : WellFormed a) (mailboxId : String) (n : ℕ)
    (rounds : ℕ → BatchRound) {purged : ℕ} {sawAny : Bool} (hsaw : sawAny = false → purged = 0) :
    purgeLoop (Draining.Pager.front String 1000).pick mailboxId n rounds purged sawAny a =
      Jmap.purgeLoop mailboxId n (fun i => (rounds i).purgeRound)
        (if sawAny then some purged else none) a := by
  have hgetD : ∀ (purged : ℕ) (sawAny : Bool), (sawAny = false → purged = 0) →
      (if sawAny then some purged else none).getD 0 = purged := by
    intro purged sawAny hsaw
    cases sawAny with
    | true => rfl
    | false => exact (hsaw rfl).symm
  induction n generalizing rounds purged sawAny a with
  | zero => rw [purgeLoop, Jmap.purgeLoop, hgetD _ _ hsaw]
  | succ n ih =>
    have hpage : (Draining.Pager.front String 1000).pick (folderIds a mailboxId) =
        Jmap.purgeIds a mailboxId := (purgeIds_eq a mailboxId).symm
    rw [purgeLoop_succ h, Jmap.purgeLoop, hgetD _ _ hsaw, destroyed_eq h, hpage]
    simp only [BatchRound.purgeRound]
    rw [ih h.without (fun i => rounds (i + 1)) (by simp), if_pos rfl]
    rfl

/-! ### Falling short -/

/-- A message of some folders. -/
def mailIn (id : String) (mailboxIds : Finset String) : Email where
  id := id
  threadId := id
  mailboxIds := mailboxIds
  seen := true
  draft := false
  sent := false
  flagged := false
  subject := none
  participants := []
  receivedAt := 0
  preview := none
  hasAttachment := false

/-- An account with a number of messages in its Trash. -/
def trashOf (n : ℕ) : Account :=
  ⟨[], (List.range n).map fun i => mailIn (String.ofList (List.replicate (i + 1) 'm')) {"trash"}⟩

/-- An account with one message, in both Trash and Inbox. -/
def trashAndInbox : Account :=
  ⟨[], [mailIn "m" {"trash", "inbox"}]⟩

theorem wellFormed_trashOf (n : ℕ) : WellFormed (trashOf n) where
  nodup := by
    rw [trashOf, List.map_map]
    refine List.nodup_range.map fun i j hij => ?_
    have hlength := congrArg List.length (String.ofList_injective hij)
    simpa using hlength
  nonempty m hm := by
    obtain ⟨i, -, rfl⟩ := List.mem_map.mp hm
    intro h
    have hlength := congrArg String.length h
    simp [mailIn] at hlength

theorem wellFormed_trashAndInbox : WellFormed trashAndInbox where
  nodup := List.nodup_singleton _
  nonempty m hm := by
    obtain rfl := List.mem_singleton.mp hm
    decide

/-- The call that honours every request, with the first messages of a folder for its pages. -/
def emptyHonoured (size : ℕ) (a : Account) : Account × Option ℕ :=
  emptyFolder true (some (folderPayload "trash")) (Draining.Pager.front String size).pick
    (fun _ => .honoured) a

/-- **More than a hundred pages are not emptied**: a message is left, of a hundred and one. -/
theorem length_folder_trashOf :
    (folder (emptyHonoured 1 (trashOf 101)).1 "trash").length = 1 := by
  have hall : folder (trashOf 101) "trash" = (trashOf 101).emails := by
    refine List.filter_eq_self.mpr fun m hm => ?_
    obtain ⟨i, -, rfl⟩ := List.mem_map.mp hm
    simp [mailIn]
  rw [emptyHonoured, length_folder_emptyFolder (wellFormed_trashOf 101) (by decide) Nat.one_pos,
    hall]
  simp [trashOf]

/-- **A message that is also in the Inbox is destroyed.** -/
theorem not_mem_emptyHonoured :
    mailIn "m" {"trash", "inbox"} ∉ (emptyHonoured 500 trashAndInbox).1.emails := by
  rw [emptyHonoured, mem_emptyFolder wellFormed_trashAndInbox (by decide) (by decide) (by decide)]
  simp [mailIn]

/-- Neither is every folder emptied, nor every message of another folder kept, by an engine
that honours every request. -/
theorem emptyFolder_falls_short :
    folder (emptyHonoured (min 1000 1) (trashOf 101)).1 "trash" ≠ [] ∧
      ∃ m ∈ trashAndInbox.emails, "inbox" ∈ m.mailboxIds ∧
        m ∉ (emptyHonoured (min 1000 500) trashAndInbox).1.emails := by
  constructor
  · intro hnil
    have hlength := length_folder_trashOf
    rw [show folder (emptyHonoured 1 (trashOf 101)).1 "trash" = [] from hnil] at hlength
    exact absurd hlength (by simp)
  · exact ⟨_, List.mem_singleton_self _, by simp [mailIn], not_mem_emptyHonoured⟩

/-- The count of `emptyFolder_spec` at a folder of one message and pages of 500. -/
theorem emptyFolder_spec_trashAndInbox : (emptyHonoured 500 trashAndInbox).2 = some 1 :=
  ((emptyFolder_spec (Draining.Pager.front String (min 1000 500)) wellFormed_trashAndInbox
    (by decide) (by decide)).1 (by decide)).2

end Stalwart
end EmailOps
