import Mathlib.Data.Finset.Basic
import EmailOps.Cleanup.Outcome
import EmailOps.Email.Types

/-!
# The thread verbs of the external providers

A connected Gmail or Microsoft account is triaged through the cleaner engine: an endpoint
reads the messages of the thread, picks those that the verb is to touch and passes their ids
to the provider in chunks. The mail service takes the endpoint's `ok` for its answer.

* `triageIds` is the law which messages a verb touches: never a draft, and for Microsoft's
  moves only what was received.
* `threadVerb` is an endpoint, `carried` the ids its verb takes effect on, and
  `Account.triaged` the account afterwards.
* `ok_threadVerb_iff`: an endpoint says `ok` when nothing raises, whether or not there was
  anything to touch.
-/

namespace EmailOps
namespace Triage

open Framework Cleanup

/-! ### Accounts -/

/-- The verbs of the thread endpoints. -/
inductive Verb where
  | archive | trash | spam | inbox
  | read (value : Bool)
  deriving DecidableEq, Repr

/-- A message of a connected account. -/
structure Message where
  id : Text
  threadId : String
  /-- Gmail's labels, or the folder Graph has the message in. -/
  labels : Finset String
  isDraft : Bool
  isRead : Bool
  /-- The address of the sender, in lower case. -/
  sender : Text
  deriving DecidableEq

structure Account where
  /-- The account's own address, in lower case. -/
  address : Text
  messages : List Message
  deriving DecidableEq

def Account.thread (a : Account) (threadId : String) : List Message :=
  a.messages.filter (·.threadId = threadId)

/-- What becomes of one call of an endpoint. -/
structure Turn where
  /-- The owner's token is there, and the engine has signed in with it. -/
  signedIn : Bool
  /-- The request for the thread is answered. -/
  listed : Bool
  /-- Graph tells the account's own address. -/
  addressed : Bool
  /-- The exception of looking up the folder messages are moved to. -/
  folder : Option Text
  /-- The exception of each request to Gmail. -/
  gmail : ℕ → Option Text
  graph : ℕ → GraphAnswer
  /-- The messages of a chunk that its verb takes effect on although its request raises. -/
  lost : ℕ → Text → Bool
  /-- The answer of the endpoint arrives in time. -/
  delivered : Bool

/-! ### The endpoints -/

/-- The direction of a message as `get_thread` tells it. Graph's goes by the sender. -/
def directionOf (provider : Provider) (a : Account) (turn : Turn) (m : Message) : EmailDirection :=
  match provider with
  | .gmail =>
    if "DRAFT" ∈ m.labels then .draft else if "SENT" ∈ m.labels then .sent else .received
  | .microsoft =>
    if m.isDraft then .draft
    else if turn.addressed && a.address ≠ [] && m.sender = a.address then .sent
    else .received

/-- `get_thread`: Gmail refuses a thread it does not know, Graph has no message of it. -/
def getThread (provider : Provider) (a : Account) (turn : Turn) (threadId : String) :
    Option (List Message) :=
  if !turn.listed then none
  else
    match provider with
    | .gmail => if a.thread threadId = [] then none else some (a.thread threadId)
    | .microsoft => some ((a.thread threadId).take 100)

/-- `_thread_triage_ids`: is the message one that the verb touches? -/
def touches (provider : Provider) (verb : Verb) (direction : EmailDirection) : Bool :=
  match direction, provider, verb with
  | .draft, _, _ => false
  | .received, _, _ => true
  | .sent, .microsoft, .read _ => true
  | .sent, .microsoft, _ => false
  | .sent, .gmail, _ => true

def triageIds (provider : Provider) (a : Account) (turn : Turn) (verb : Verb)
    (messages : List Message) : List Text :=
  (messages.filter fun m => touches provider verb (directionOf provider a turn m)).map (·.id)

/-- Does the verb look a folder up? -/
def Verb.moves : Verb → Bool
  | .archive | .trash | .spam | .inbox => true
  | .read _ => false

/-- A batch verb of a provider, as the endpoints call it. -/
def batch (provider : Provider) (verb : Verb) (ids : List Text) (turn : Turn) : Except Text ℕ :=
  if ids = [] then .ok 0
  else
    match provider with
    | .gmail => gmailBatch (slices (chunkSize .gmail) ids) turn.gmail
    | .microsoft =>
      match verb.moves, turn.folder with
      | true, some message => .error message
      | _, _ => graphBatch .organize (slices (chunkSize .microsoft) ids) turn.graph

/-- `ThreadActionResponse`. -/
structure ThreadAction where
  ok : Bool
  moved : ℕ
  deriving DecidableEq

/-- The endpoints `/mail/threads/{thread_id}/…`. -/
def threadVerb (provider : Provider) (a : Account) (turn : Turn) (verb : Verb)
    (threadId : String) : ThreadAction :=
  if !turn.signedIn then ⟨false, 0⟩
  else
    match getThread provider a turn threadId with
    | none => ⟨false, 0⟩
    | some messages =>
      match batch provider verb (triageIds provider a turn verb messages) turn with
      | .error _ => ⟨false, 0⟩
      | .ok moved => ⟨true, moved⟩

/-- What the mail service makes of an endpoint's answer, if it arrives. -/
def answerOf (turn : Turn) (action : ThreadAction) : Bool :=
  turn.delivered && action.ok

/-! ### What a verb does to the account -/

/-- What Gmail's verbs do to the labels, and Graph's to the folder. -/
def Message.rewritten (provider : Provider) (verb : Verb) (m : Message) : Message :=
  match provider, verb with
  | .gmail, .archive => { m with labels := m.labels.erase "INBOX" }
  | .gmail, .trash => { m with labels := insert "TRASH" m.labels }
  | .gmail, .spam => { m with labels := insert "SPAM" (m.labels.erase "INBOX") }
  | .gmail, .inbox =>
    { m with labels := insert "INBOX" ((m.labels.erase "SPAM").erase "TRASH") }
  | .gmail, .read true => { m with labels := m.labels.erase "UNREAD" }
  | .gmail, .read false => { m with labels := insert "UNREAD" m.labels }
  | .microsoft, .archive => { m with labels := {"archive"} }
  | .microsoft, .trash => { m with labels := {"deleteditems"} }
  | .microsoft, .spam => { m with labels := {"junkemail"} }
  | .microsoft, .inbox => { m with labels := {"inbox"} }
  | .microsoft, .read value => { m with isRead := value }

/-- The ids of the chunks that are carried out, up to the first request that raises. -/
def carriedOf (raised : ℕ → Bool) (done lost : ℕ → ℕ → Text → Bool) :
    ℕ → List (List Text) → List Text
  | _, [] => []
  | n, chunk :: chunks =>
    if raised n then (chunk.zipIdx.filter fun item => lost n item.2 item.1).map (·.1)
    else
      (chunk.zipIdx.filter fun item => done n item.2 item.1).map (·.1) ++
        carriedOf raised done lost (n + 1) chunks

/-- Does Graph carry an item out? -/
def graphDone : GraphAnswer → ℕ → Bool
  | .raised _, _ => false
  | .answered status items, j => status = 200 && isSuccess (items j)

/-- The ids a batch verb takes effect on. -/
def carriedIds (provider : Provider) (verb : Verb) (ids : List Text) (turn : Turn) : List Text :=
  match provider with
  | .gmail =>
    carriedOf (fun n => (turn.gmail n).isSome) (fun _ _ _ => true) (fun n _ => turn.lost n) 0
      (slices (chunkSize .gmail) ids)
  | .microsoft =>
    match verb.moves, turn.folder with
    | true, some _ => []
    | _, _ =>
      carriedOf (fun n => (turn.graph n).raises) (fun n j _ => graphDone (turn.graph n) j)
        (fun n _ => turn.lost n) 0 (slices (chunkSize .microsoft) ids)

/-- The ids of a thread that an endpoint's verb takes effect on. -/
def carried (provider : Provider) (a : Account) (turn : Turn) (verb : Verb) (threadId : String) :
    List Text :=
  if !turn.signedIn then []
  else
    match getThread provider a turn threadId with
    | none => []
    | some messages => carriedIds provider verb (triageIds provider a turn verb messages) turn

/-- The messages of a thread that an endpoint's verb takes effect on. -/
def touched (provider : Provider) (a : Account) (turn : Turn) (verb : Verb) (threadId : String) :
    List Message :=
  (a.thread threadId).filter fun m => m.id ∈ carried provider a turn verb threadId

/-- The account after a call of an endpoint. -/
def Account.triaged (provider : Provider) (a : Account) (turn : Turn) (verb : Verb)
    (threadId : String) : Account :=
  { a with messages := a.messages.map fun m =>
      if m ∈ touched provider a turn verb threadId then m.rewritten provider verb else m }

/-! ### When an endpoint says ok -/

section Ok

variable {provider : Provider} {a : Account} {turn : Turn} {verb : Verb} {threadId : String}

/-- **The ids that a verb is to touch**: those of the thread as it is read. -/
def eligible (provider : Provider) (a : Account) (turn : Turn) (verb : Verb)
    (threadId : String) : List Text :=
  triageIds provider a turn verb ((getThread provider a turn threadId).getD [])

/-- **Nothing raises** while the ids are passed on. -/
structure Undisturbed (provider : Provider) (verb : Verb) (ids : List Text) (turn : Turn) :
    Prop where
  folder : provider = .microsoft → verb.moves = true → turn.folder = none
  gmail : provider = .gmail →
    ∀ i < (slices (chunkSize .gmail) ids).length, turn.gmail i = none
  graph : provider = .microsoft →
    ∀ i < (slices (chunkSize .microsoft) ids).length, (turn.graph i).raises = false

/-- A batch verb returns when there is nothing to pass on, or nothing raises. -/
theorem batch_ok_iff (ids : List Text) :
    (∃ moved, batch provider verb ids turn = .ok moved) ↔
      (ids = [] ∨ Undisturbed provider verb ids turn) := by
  unfold batch
  split
  · next hnil => simp [hnil]
  · next hids =>
    simp only [hids, false_or]
    cases provider with
    | gmail =>
      rw [gmailBatch_ok_iff]
      -- Gmail has no lookup of a folder and no requests of Graph.
      constructor
      · intro h
        exact ⟨nofun, fun _ => h, nofun⟩
      · intro h
        exact h.gmail rfl
    | microsoft =>
      have hgraph := graphBatch_ok_iff .organize (slices (chunkSize .microsoft) ids) turn.graph
      cases hmoves : verb.moves with
      | false =>
        simp only [hgraph]
        constructor
        · intro h
          -- A verb that moves nothing looks no folder up.
          refine ⟨fun _ htrue => ?_, nofun, fun _ => h⟩
          rw [hmoves] at htrue
          cases htrue
        · intro h
          exact h.graph rfl
      | true =>
        cases hfolder : turn.folder with
        | some message =>
          -- the folder's lookup has raised
          constructor
          · rintro ⟨moved, heq⟩
            cases heq
          · intro h
            rw [h.folder rfl hmoves] at hfolder
            cases hfolder
        | none =>
          simp only [hgraph]
          constructor
          · intro h
            exact ⟨fun _ _ => hfolder, nofun, fun _ => h⟩
          · intro h
            exact h.graph rfl

/-- **When an endpoint says `ok`.** The thread is read, and passing its ids on raises
nothing. That there be an id is not asked for. -/
theorem ok_threadVerb_iff :
    (threadVerb provider a turn verb threadId).ok = true ↔
      turn.signedIn = true ∧ (getThread provider a turn threadId).isSome = true ∧
        (eligible provider a turn verb threadId = [] ∨
          Undisturbed provider verb (eligible provider a turn verb threadId) turn) := by
  unfold threadVerb eligible
  -- Without a sign-in the endpoint answers nothing.
  cases turn.signedIn with
  | false => simp
  | true =>
    cases getThread provider a turn threadId with
    | none => simp
    | some messages =>
      rw [← batch_ok_iff]
      simp only [Option.getD_some, Option.isSome_some]
      cases batch provider verb (triageIds provider a turn verb messages) turn with
      | error message => simp
      | ok moved => simp

end Ok

/-! ### What is touched -/

section Touched

variable {provider : Provider} {a : Account} {turn : Turn} {verb : Verb} {threadId : String}

theorem mem_of_mem_carriedOf {raised : ℕ → Bool} {done lost : ℕ → ℕ → Text → Bool} {n : ℕ}
    {chunks : List (List Text)} {id : Text} (h : id ∈ carriedOf raised done lost n chunks) :
    ∃ chunk ∈ chunks, id ∈ chunk := by
  -- Whatever a chunk contributes is one of its ids.
  have hfilter : ∀ (chunk : List Text) (p : Text × ℕ → Bool),
      id ∈ (chunk.zipIdx.filter p).map (·.1) → id ∈ chunk := by
    intro chunk p hmem
    obtain ⟨item, hitem, rfl⟩ := List.mem_map.mp hmem
    exact List.fst_mem_of_mem_zipIdx (List.mem_filter.mp hitem).1
  induction chunks generalizing n with
  | nil => cases h
  | cons chunk chunks ih =>
    unfold carriedOf at h
    split at h
    · exact ⟨chunk, List.mem_cons_self, hfilter chunk _ h⟩
    · rcases List.mem_append.mp h with h | h
      · exact ⟨chunk, List.mem_cons_self, hfilter chunk _ h⟩
      · obtain ⟨chunk', hchunk', hid⟩ := ih h
        exact ⟨chunk', List.mem_cons_of_mem _ hchunk', hid⟩

theorem mem_touched {m : Message} :
    m ∈ touched provider a turn verb threadId ↔
      (m ∈ a.messages ∧ m.threadId = threadId) ∧ m.id ∈ carried provider a turn verb threadId := by
  simp only [touched, Account.thread, List.mem_filter, decide_eq_true_eq]

/-- While no request raises, the items of the chunks are carried out that are done. -/
theorem mem_carriedOf_iff (raised : ℕ → Bool) (done lost : ℕ → ℕ → Text → Bool) {n : ℕ}
    {chunks : List (List Text)} (h : ∀ i < chunks.length, raised (n + i) = false) (id : Text) :
    id ∈ carriedOf raised done lost n chunks ↔
      ∃ i j chunk, chunks[i]? = some chunk ∧ chunk[j]? = some id ∧ done (n + i) j id = true := by
  induction chunks generalizing n with
  | nil => simp [carriedOf]
  | cons chunk chunks ih =>
    -- The first chunk and the others do not raise.
    have hfirst : raised n = false := h 0 (Nat.zero_lt_succ _)
    have hrest : ∀ i < chunks.length, raised (n + 1 + i) = false := by
      intro i hi
      rw [Nat.add_assoc, Nat.add_comm 1]
      exact h (i + 1) (Nat.succ_lt_succ hi)
    unfold carriedOf
    rw [hfirst, if_neg Bool.false_ne_true, List.mem_append, ih hrest]
    constructor
    · -- An id of the first chunk, or of a later one.
      rintro (hmem | ⟨i, j, chunk', hchunk', hid, hdone⟩)
      · obtain ⟨⟨id', j⟩, hitem, rfl⟩ := List.mem_map.mp hmem
        obtain ⟨hzip, hdone⟩ := List.mem_filter.mp hitem
        exact ⟨0, j, chunk, rfl, List.mem_zipIdx_iff_getElem?.mp hzip, hdone⟩
      · refine ⟨i + 1, j, chunk', hchunk', hid, ?_⟩
        rwa [Nat.add_assoc, Nat.add_comm 1] at hdone
    · rintro ⟨i, j, chunk', hchunk', hid, hdone⟩
      cases i with
      | zero =>
        obtain rfl := Option.some.inj hchunk'
        refine .inl (List.mem_map.mpr ⟨(id, j), List.mem_filter.mpr ⟨?_, hdone⟩, rfl⟩)
        exact List.mem_zipIdx_iff_getElem?.mpr hid
      | succ i =>
        refine .inr ⟨i, j, chunk', hchunk', hid, ?_⟩
        rwa [Nat.add_assoc, Nat.add_comm 1]

/-- The ids that are touched are among those the verb is to touch. -/
theorem mem_eligible_of_mem_carried {id : Text}
    (h : id ∈ carried provider a turn verb threadId) :
    id ∈ eligible provider a turn verb threadId := by
  unfold carried at h
  split at h
  · cases h
  · split at h
    · cases h
    · next messages hread =>
      rw [eligible, hread, Option.getD_some]
      -- A slice of the ids holds nothing but ids.
      have hslices : ∀ n, ∀ chunk ∈ slices n (triageIds provider a turn verb messages),
          id ∈ chunk → id ∈ triageIds provider a turn verb messages :=
        fun n chunk hchunk hid => mem_of_mem_slices hchunk id hid
      unfold carriedIds at h
      split at h
      · obtain ⟨chunk, hchunk, hid⟩ := mem_of_mem_carriedOf h
        exact hslices _ chunk hchunk hid
      · split at h
        · cases h
        · obtain ⟨chunk, hchunk, hid⟩ := mem_of_mem_carriedOf h
          exact hslices _ chunk hchunk hid

/-- An id that a verb is to touch is that of a message of the thread. -/
theorem exists_of_mem_eligible {id : Text} (h : id ∈ eligible provider a turn verb threadId) :
    ∃ m ∈ a.messages, m.threadId = threadId ∧ m.id = id := by
  unfold eligible triageIds at h
  obtain ⟨m, hm, rfl⟩ := List.mem_map.mp h
  have hread := (List.mem_filter.mp hm).1
  have hthread : m ∈ a.thread threadId := by
    -- What a provider lists of a thread is of the thread.
    unfold getThread at hread
    split at hread
    · cases hread
    · split at hread
      · split at hread
        · cases hread
        · exact hread
      · exact List.mem_of_mem_take hread
  simp only [Account.thread, List.mem_filter, decide_eq_true_eq] at hthread
  exact ⟨m, hthread.1, hthread.2, rfl⟩

/-- Something is touched exactly when an id is carried out. -/
theorem touched_eq_nil_iff :
    touched provider a turn verb threadId = [] ↔ carried provider a turn verb threadId = [] := by
  constructor
  · intro hnil
    -- An id that is carried out is that of a message.
    refine List.eq_nil_iff_forall_not_mem.mpr fun id hid => ?_
    obtain ⟨m, hm, hthread, rfl⟩ := exists_of_mem_eligible (mem_eligible_of_mem_carried hid)
    have hmem : m ∈ touched provider a turn verb threadId := mem_touched.mpr ⟨⟨hm, hthread⟩, hid⟩
    rw [hnil] at hmem
    cases hmem
  · intro hnil
    refine List.eq_nil_iff_forall_not_mem.mpr fun m hm => ?_
    have hid := (mem_touched.mp hm).2
    rw [hnil] at hid
    cases hid

/-- Graph answers the request for an id that it is carried out. -/
def Answered (turn : Turn) (ids : List Text) (id : Text) : Prop :=
  ∃ i j chunk, (slices (chunkSize .microsoft) ids)[i]? = some chunk ∧ chunk[j]? = some id ∧
    graphDone (turn.graph i) j = true

theorem carriedIds_microsoft {ids : List Text} (h : Undisturbed .microsoft verb ids turn) :
    carriedIds .microsoft verb ids turn =
      carriedOf (fun n => (turn.graph n).raises) (fun n j _ => graphDone (turn.graph n) j)
        (fun n _ => turn.lost n) 0 (slices (chunkSize .microsoft) ids) := by
  unfold carriedIds
  cases hmoves : verb.moves with
  | false => rfl
  | true => rw [h.folder rfl hmoves]

theorem mem_carriedIds_microsoft {ids : List Text} (h : Undisturbed .microsoft verb ids turn)
    (id : Text) : id ∈ carriedIds .microsoft verb ids turn ↔ Answered turn ids id := by
  have hnone : ∀ i < (slices (chunkSize .microsoft) ids).length,
      (turn.graph (0 + i)).raises = false := by
    intro i hi
    rw [Nat.zero_add]
    exact h.graph rfl i hi
  rw [carriedIds_microsoft h, mem_carriedOf_iff _ _ _ hnone]
  simp only [Nat.zero_add, Answered]

/-- While nothing raises, Gmail's verbs take effect on every id. -/
theorem mem_carriedIds_gmail {ids : List Text} (h : Undisturbed .gmail verb ids turn) {id : Text}
    (hid : id ∈ ids) : id ∈ carriedIds .gmail verb ids turn := by
  obtain ⟨chunk, hchunk, hmem⟩ := exists_mem_slices (Nat.zero_lt_succ 99) hid
  obtain ⟨i, hi, rfl⟩ := List.mem_iff_getElem.mp hchunk
  obtain ⟨j, hj, rfl⟩ := List.mem_iff_getElem.mp hmem
  refine (mem_carriedOf_iff _ _ _ (fun k hk => ?_) _).mpr
    ⟨i, j, _, List.getElem?_eq_getElem hi, List.getElem?_eq_getElem hj, rfl⟩
  rw [Nat.zero_add, h.gmail rfl k hk]
  rfl

/-- **Which ids take effect** while nothing raises: Gmail takes all of them, Graph those that it
answers so. -/
theorem mem_carried_iff (hsigned : turn.signedIn = true)
    (hread : (getThread provider a turn threadId).isSome = true)
    (hquiet : eligible provider a turn verb threadId = [] ∨
      Undisturbed provider verb (eligible provider a turn verb threadId) turn) (id : Text) :
    id ∈ carried provider a turn verb threadId ↔
      id ∈ eligible provider a turn verb threadId ∧
        (provider = .microsoft → Answered turn (eligible provider a turn verb threadId) id) := by
  obtain hnil | hquiet := hquiet
  · -- there is nothing to touch
    have hnone : id ∉ eligible provider a turn verb threadId := by
      rw [hnil]
      exact List.not_mem_nil
    exact iff_of_false (fun h => hnone (mem_eligible_of_mem_carried h)) fun h => hnone h.1
  obtain ⟨messages, hmessages⟩ := Option.isSome_iff_exists.mp hread
  have hcarried : carried provider a turn verb threadId =
      carriedIds provider verb (eligible provider a turn verb threadId) turn := by
    simp [carried, eligible, hsigned, hmessages]
  refine ⟨fun h => ⟨mem_eligible_of_mem_carried h, ?_⟩, fun ⟨hid, hanswered⟩ => ?_⟩
  · rintro rfl
    rw [hcarried] at h
    exact (mem_carriedIds_microsoft hquiet id).mp h
  · rw [hcarried]
    cases provider with
    | gmail => exact mem_carriedIds_gmail hquiet hid
    | microsoft => exact (mem_carriedIds_microsoft hquiet id).mpr (hanswered rfl)

/-- Nothing raises, and yet Graph carries no item out. -/
def RefusedAll (ids : List Text) (turn : Turn) : Prop :=
  ∀ i j chunk id, (slices (chunkSize .microsoft) ids)[i]? = some chunk → chunk[j]? = some id →
    graphDone (turn.graph i) j = false

/-- Graph refuses all of them when it answers for none of them. -/
theorem refusedAll_iff {ids : List Text} :
    RefusedAll ids turn ↔ ∀ id ∈ ids, ¬ Answered turn ids id := by
  constructor
  · rintro hrefused id - ⟨i, j, chunk, hchunk, hid, hdone⟩
    rw [hrefused i j chunk id hchunk hid] at hdone
    cases hdone
  · intro hnone i j chunk id hchunk hid
    have hmem : id ∈ ids :=
      mem_of_mem_slices (List.mem_of_getElem? hchunk) id (List.mem_of_getElem? hid)
    by_contra hdone
    exact hnone id hmem ⟨i, j, chunk, hchunk, hid, by simpa using hdone⟩

/-- **When a verb that meets no exception touches nothing**: there is nothing to touch, or
Graph has refused every item. -/
theorem carried_eq_nil_iff (hsigned : turn.signedIn = true)
    (hread : (getThread provider a turn threadId).isSome = true)
    (hundisturbed : eligible provider a turn verb threadId = [] ∨
      Undisturbed provider verb (eligible provider a turn verb threadId) turn) :
    carried provider a turn verb threadId = [] ↔
      eligible provider a turn verb threadId = [] ∨
        provider = .microsoft ∧ RefusedAll (eligible provider a turn verb threadId) turn := by
  rw [refusedAll_iff, List.eq_nil_iff_forall_not_mem]
  simp only [mem_carried_iff hsigned hread hundisturbed, not_and]
  cases provider with
  | gmail => simp [List.eq_nil_iff_forall_not_mem]
  | microsoft =>
    simp only [forall_const, true_and]
    constructor
    · exact .inr
    · rintro (hnil | hrefused) id hid
      · rw [hnil] at hid
        cases hid
      · exact hrefused id hid

@[simp] theorem threadId_rewritten (m : Message) :
    (m.rewritten provider verb).threadId = m.threadId := by
  unfold Message.rewritten
  split <;> rfl

/-- A verb that is carried out once more changes nothing more. -/
theorem rewritten_rewritten (m : Message) :
    (m.rewritten provider verb).rewritten provider verb = m.rewritten provider verb := by
  cases provider with
  | gmail =>
    cases verb with
    | read value => cases value <;> simp [Message.rewritten]
    | archive => simp [Message.rewritten]
    | trash => simp [Message.rewritten]
    | spam =>
      simp only [Message.rewritten]
      congr 1
      ext label
      simp only [Finset.mem_insert, Finset.mem_erase]
      tauto
    | inbox =>
      simp only [Message.rewritten]
      congr 1
      ext label
      simp only [Finset.mem_insert, Finset.mem_erase]
      tauto
  | microsoft => cases verb <;> rfl

end Touched

end Triage
end EmailOps
