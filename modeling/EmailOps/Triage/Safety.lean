import EmailOps.Triage.Provider

/-!
# What a triage endpoint may move, and when it may say `ok`

The endpoints of the cleaner engine are to move what the owner of an account has received, all
of it and nothing else. Whose a message is, the engine can only guess.

* `Spared` is the first half of the law: whatever the requests to move come to, no draft is
  touched and no message of the owner is moved. `Complete` is the other: `ok` means that each
  received message of the thread has been touched.
* `mem_carried_iff` says which ids a call that meets no exception takes effect on.
* `triageSafe_iff`: on Gmail the law holds. On Graph it holds when the engine recognises what the
  owner has sent, and nothing else as such; when the thread is not longer than what is read of
  it; and when Graph carries the request of each received message out.

Gmail's verbs edit labels. A message that the owner has sent is where it was, among the sent
messages, as long as its label is not taken; `takesAway` reads a move so.
-/

namespace EmailOps
namespace Triage

open Framework Cleanup

/-! ### The law -/

/-- A draft, as the provider has it. -/
def Message.isDraftAt (provider : Provider) (m : Message) : Bool :=
  match provider with
  | .gmail => "DRAFT" ∈ m.labels
  | .microsoft => m.isDraft

/-- Does a verb take a message from where it is? Graph's moves do. Gmail's edits would, if they
took the label of the sent messages. -/
def takesAway (provider : Provider) (verb : Verb) (m : Message) : Bool :=
  match provider with
  | .gmail => "SENT" ∈ m.labels && "SENT" ∉ (m.rewritten .gmail verb).labels
  | .microsoft => verb.moves

/-- Two calls that learn the same before they ask for anything to be moved. -/
structure Turn.SameListing (turn turn' : Turn) : Prop where
  signedIn : turn'.signedIn = turn.signedIn
  listed : turn'.listed = turn.listed
  addressed : turn'.addressed = turn.addressed

section Law

variable (provider : Provider) (a : Account) (turn : Turn) (verb : Verb) (threadId : String)
  (own : Message → Prop)

/-- Whatever the requests come to, no draft is touched and nothing that the owner has sent is
moved. -/
def Spared : Prop :=
  ∀ turn', turn.SameListing turn' → ∀ m ∈ touched provider a turn' verb threadId,
    m.isDraftAt provider = false ∧ (own m → takesAway provider verb m = false)

/-- What is received in a thread. -/
def Received (m : Message) : Prop :=
  m ∈ a.thread threadId ∧ m.isDraftAt provider = false ∧ ¬ own m

/-- When the endpoint says `ok`, everything that was received has been touched. -/
def Complete : Prop :=
  (threadVerb provider a turn verb threadId).ok = true →
    ∀ m, Received provider a threadId own m → m ∈ touched provider a turn verb threadId

/-- The law of the endpoints; `own` are the messages that the owner has sent. -/
def TriageSafe : Prop :=
  Spared provider a turn verb threadId own ∧ Complete provider a turn verb threadId own

/-! ### What the law takes on Graph -/

/-- The engine takes the message for one that the owner has sent. -/
def recognised (m : Message) : Bool :=
  turn.addressed && a.address ≠ [] && m.sender = a.address

/-- The engine recognises what the owner has sent, of what it reads of the thread. -/
def Recognises : Prop :=
  turn.signedIn = true → turn.listed = true → verb.moves = true →
    ∀ m ∈ (a.thread threadId).take 100, own m → m.isDraft = true ∨ recognised a turn m = true

/-- A received message is among those that are read, is not taken for one that the owner has
sent, and its request is carried out. -/
structure Reaches (m : Message) : Prop where
  read : m ∈ (a.thread threadId).take 100
  notTaken : verb.moves = true → recognised a turn m = false
  answered : Answered turn (eligible .microsoft a turn verb threadId) m.id

/-- While nothing raises, each received message is reached. -/
def ReachesAll : Prop :=
  turn.signedIn = true → turn.listed = true →
    eligible .microsoft a turn verb threadId = [] ∨
      Undisturbed .microsoft verb (eligible .microsoft a turn verb threadId) turn →
    ∀ m, Received .microsoft a threadId own m → Reaches a turn verb threadId m

end Law

/-! ### What a call asks for -/

section Asked

variable {provider : Provider} {a : Account} {turn : Turn} {verb : Verb} {threadId : String}

theorem touches_gmail_iff {m : Message} :
    touches .gmail verb (directionOf .gmail a turn m) = true ↔ m.isDraftAt .gmail = false := by
  unfold directionOf Message.isDraftAt
  by_cases hdraft : "DRAFT" ∈ m.labels
  · simp [hdraft, touches]
  · by_cases hsent : "SENT" ∈ m.labels <;> simp [hdraft, hsent, touches]

/-- On Graph a draft is never asked for, and what is taken for sent only to be read. -/
theorem touches_microsoft_iff {m : Message} :
    touches .microsoft verb (directionOf .microsoft a turn m) = true ↔
      m.isDraft = false ∧ (verb.moves = true → recognised a turn m = false) := by
  unfold directionOf
  cases hdraft : m.isDraft with
  | true => simp [touches]
  | false =>
    cases hsent : recognised a turn m with
    | true =>
      rw [recognised] at hsent
      rw [hsent]
      cases verb <;> simp [touches, Verb.moves]
    | false =>
      rw [recognised] at hsent
      rw [hsent]
      simp [touches]

theorem takesAway_gmail (m : Message) : takesAway .gmail verb m = false := by
  cases verb with
  | read value => cases value <;> simp [takesAway, Message.rewritten]
  | archive | trash | spam | inbox => simp [takesAway, Message.rewritten]

theorem eq_of_id_eq (hids : (a.messages.map (·.id)).Nodup) {m m' : Message}
    (hm : m ∈ a.messages) (hm' : m' ∈ a.messages) (h : m.id = m'.id) : m = m' :=
  List.inj_on_of_nodup_map hids hm hm' h

/-- What is read of a thread is of the thread. -/
theorem mem_thread_of_mem_getThread {m : Message}
    (h : m ∈ (getThread provider a turn threadId).getD []) : m ∈ a.thread threadId := by
  unfold getThread at h
  split at h
  · cases h
  · split at h
    · split at h
      · cases h
      · exact h
    · exact List.mem_of_mem_take h

/-- The id of a message is asked for when the message is read, and is one to be touched. -/
theorem mem_eligible_iff (hids : (a.messages.map (·.id)).Nodup) {m : Message}
    (hm : m ∈ a.thread threadId) :
    m.id ∈ eligible provider a turn verb threadId ↔
      m ∈ (getThread provider a turn threadId).getD [] ∧
        touches provider verb (directionOf provider a turn m) = true := by
  unfold eligible triageIds
  rw [List.mem_map]
  constructor
  · rintro ⟨m', hm', hid⟩
    obtain ⟨hread, htouches⟩ := List.mem_filter.mp hm'
    have hthread := mem_thread_of_mem_getThread hread
    obtain rfl := eq_of_id_eq hids (List.mem_filter.mp hthread).1 (List.mem_filter.mp hm).1 hid
    exact ⟨hread, htouches⟩
  · intro h
    exact ⟨m, List.mem_filter.mpr h, rfl⟩

theorem asked_of_mem_touched (hids : (a.messages.map (·.id)).Nodup) {m : Message}
    (h : m ∈ touched provider a turn verb threadId) :
    m ∈ (getThread provider a turn threadId).getD [] ∧
      touches provider verb (directionOf provider a turn m) = true := by
  obtain ⟨hm, hid⟩ := List.mem_filter.mp h
  exact (mem_eligible_iff hids hm).mp (mem_eligible_of_mem_carried (of_decide_eq_true hid))

theorem getThread_microsoft (hlisted : turn.listed = true) :
    getThread .microsoft a turn threadId = some ((a.thread threadId).take 100) := by
  unfold getThread
  rw [hlisted]
  rfl

theorem isSome_getThread_microsoft :
    (getThread .microsoft a turn threadId).isSome = turn.listed := by
  unfold getThread
  cases turn.listed <;> rfl

/-- On Graph the id of a message is asked for when it is among the first hundred of the thread,
no draft, and not taken for sent by a verb that moves. -/
theorem mem_eligible_microsoft_iff (hids : (a.messages.map (·.id)).Nodup)
    (hlisted : turn.listed = true) {m : Message} (hm : m ∈ a.thread threadId) :
    m.id ∈ eligible .microsoft a turn verb threadId ↔
      m ∈ (a.thread threadId).take 100 ∧ m.isDraft = false ∧
        (verb.moves = true → recognised a turn m = false) := by
  rw [mem_eligible_iff hids hm, getThread_microsoft hlisted, touches_microsoft_iff]
  rfl

/-- Where nothing raises, Graph touches what it is asked for and answers. -/
theorem mem_touched_microsoft_iff (hsigned : turn.signedIn = true) (hlisted : turn.listed = true)
    (hquiet : eligible .microsoft a turn verb threadId = [] ∨
      Undisturbed .microsoft verb (eligible .microsoft a turn verb threadId) turn) {m : Message} :
    m ∈ touched .microsoft a turn verb threadId ↔
      m ∈ a.thread threadId ∧ m.id ∈ eligible .microsoft a turn verb threadId ∧
        Answered turn (eligible .microsoft a turn verb threadId) m.id := by
  unfold touched
  rw [List.mem_filter, decide_eq_true_eq,
    mem_carried_iff hsigned (isSome_getThread_microsoft.trans hlisted) hquiet]
  simp

/-- What Graph touches was read by a call that has signed in. -/
theorem read_of_mem_touched_microsoft {m : Message}
    (h : m ∈ touched .microsoft a turn verb threadId) :
    turn.signedIn = true ∧ turn.listed = true := by
  have hid : m.id ∈ carried .microsoft a turn verb threadId :=
    of_decide_eq_true (List.mem_filter.mp h).2
  constructor
  · by_contra hout
    rw [carried, if_pos (by simpa using hout)] at hid
    cases hid
  · -- a thread that is not read has nothing to ask for
    by_contra hunread
    have hnone : getThread .microsoft a turn threadId = none := by
      rw [← Option.not_isSome_iff_eq_none, isSome_getThread_microsoft]
      exact hunread
    have heligible := mem_eligible_of_mem_carried hid
    rw [eligible, hnone] at heligible
    cases heligible

end Asked

/-! ### What is spared -/

/-- A call like this one, in which all goes well that is asked for. -/
def Turn.succeeding (turn : Turn) : Turn :=
  { turn with
    folder := none
    gmail := fun _ => none
    graph := fun _ => .answered 200 fun _ => 200 }

theorem undisturbed_succeeding (provider : Provider) (verb : Verb) (ids : List Text)
    (turn : Turn) : Undisturbed provider verb ids turn.succeeding :=
  ⟨fun _ _ => rfl, fun _ _ _ => rfl, fun _ _ _ => rfl⟩

theorem answered_succeeding (turn : Turn) {ids : List Text} {id : Text} (h : id ∈ ids) :
    Answered turn.succeeding ids id := by
  obtain ⟨chunk, hchunk, hid⟩ := exists_mem_slices (n := 20) (by decide) h
  obtain ⟨i, hi, rfl⟩ := List.mem_iff_getElem.mp hchunk
  obtain ⟨j, hj, rfl⟩ := List.mem_iff_getElem.mp hid
  exact ⟨i, j, _, List.getElem?_eq_getElem hi, List.getElem?_eq_getElem hj, rfl⟩

section Safety

variable {provider : Provider} {a : Account} {turn : Turn} {verb : Verb} {threadId : String}
  {own : Message → Prop}

theorem spared_gmail (hids : (a.messages.map (·.id)).Nodup) :
    Spared .gmail a turn verb threadId own := by
  intro turn' _ m hm
  have hasked := asked_of_mem_touched hids hm
  exact ⟨touches_gmail_iff.mp hasked.2, fun _ => takesAway_gmail m⟩

/-- **Graph's verbs spare what the engine recognises.** -/
theorem spared_microsoft_iff (hids : (a.messages.map (·.id)).Nodup) :
    Spared .microsoft a turn verb threadId own ↔ Recognises a turn verb threadId own := by
  constructor
  · intro hspared hsigned hlisted hmoves m hm hown
    by_contra hnot
    obtain ⟨hdraft, hunknown⟩ := not_or.mp hnot
    -- were all to go well, the message would be moved
    have hsigned' : turn.succeeding.signedIn = true := hsigned
    have hlisted' : turn.succeeding.listed = true := hlisted
    have hthread : m ∈ a.thread threadId := List.mem_of_mem_take hm
    have heligible : m.id ∈ eligible .microsoft a turn.succeeding verb threadId :=
      (mem_eligible_microsoft_iff hids hlisted' hthread).mpr
        ⟨hm, Bool.eq_false_iff.mpr hdraft, fun _ => Bool.eq_false_iff.mpr hunknown⟩
    have htouched : m ∈ touched .microsoft a turn.succeeding verb threadId :=
      (mem_touched_microsoft_iff hsigned' hlisted' (.inr (undisturbed_succeeding _ _ _ _))).mpr
        ⟨hthread, heligible, answered_succeeding turn heligible⟩
    have hstays := (hspared turn.succeeding ⟨rfl, rfl, rfl⟩ m htouched).2 hown
    rw [show takesAway .microsoft verb m = verb.moves from rfl, hmoves] at hstays
    cases hstays
  · intro hknows turn' hsame m hm
    obtain ⟨hsigned, hlisted⟩ := read_of_mem_touched_microsoft hm
    obtain ⟨hread, htouches⟩ := asked_of_mem_touched hids hm
    rw [getThread_microsoft hlisted] at hread
    obtain ⟨hdraft, hreceived⟩ := touches_microsoft_iff.mp htouches
    refine ⟨hdraft, fun hown => Bool.eq_false_iff.mpr fun hmoves => ?_⟩
    -- the addresses are those of the call in question
    have hsame' : recognised a turn' m = recognised a turn m := by
      unfold recognised
      rw [hsame.addressed]
    obtain hdraft' | hown' := hknows (hsame.signedIn.symm.trans hsigned)
      (hsame.listed.symm.trans hlisted) hmoves m hread hown
    · rw [hdraft] at hdraft'
      cases hdraft'
    · rw [← hsame', hreceived hmoves] at hown'
      cases hown'

/-! ### When `ok` is complete -/

/-- On Gmail an `ok` is complete. -/
theorem complete_gmail (hids : (a.messages.map (·.id)).Nodup) :
    Complete .gmail a turn verb threadId own := by
  rintro hok m ⟨hthread, hdraft, -⟩
  obtain ⟨hsigned, hsome, hquiet⟩ := ok_threadVerb_iff.mp hok
  -- the whole thread is read
  have hread : m ∈ (getThread .gmail a turn threadId).getD [] := by
    unfold getThread at hsome ⊢
    split at hsome
    · cases hsome
    · next hlisted =>
      rw [if_neg hlisted]
      have hne : a.thread threadId ≠ [] := List.ne_nil_of_mem hthread
      simp only [hne, if_false, Option.getD_some]
      exact hthread
  have heligible : m.id ∈ eligible .gmail a turn verb threadId :=
    (mem_eligible_iff hids hthread).mpr ⟨hread, touches_gmail_iff.mpr hdraft⟩
  have hcarried : m.id ∈ carried .gmail a turn verb threadId :=
    (mem_carried_iff hsigned hsome hquiet m.id).mpr ⟨heligible, fun h => by cases h⟩
  exact List.mem_filter.mpr ⟨hthread, decide_eq_true hcarried⟩

/-- **On Graph an `ok` is complete when each received message is reached.** -/
theorem complete_microsoft_iff (hids : (a.messages.map (·.id)).Nodup) :
    Complete .microsoft a turn verb threadId own ↔ ReachesAll a turn verb threadId own := by
  have hok : (threadVerb .microsoft a turn verb threadId).ok = true ↔
      turn.signedIn = true ∧ turn.listed = true ∧
        (eligible .microsoft a turn verb threadId = [] ∨
          Undisturbed .microsoft verb (eligible .microsoft a turn verb threadId) turn) := by
    rw [ok_threadVerb_iff, isSome_getThread_microsoft]
  unfold Complete ReachesAll
  rw [hok]
  constructor
  · intro hcomplete hsigned hlisted hquiet m hm
    obtain ⟨hthread, heligible, hanswered⟩ := (mem_touched_microsoft_iff hsigned hlisted hquiet).mp
      (hcomplete ⟨hsigned, hlisted, hquiet⟩ m hm)
    obtain ⟨hread, -, hreceived⟩ := (mem_eligible_microsoft_iff hids hlisted hthread).mp heligible
    exact ⟨hread, hreceived, hanswered⟩
  · rintro hreaches ⟨hsigned, hlisted, hquiet⟩ m hm
    obtain ⟨hread, hreceived, hanswered⟩ := hreaches hsigned hlisted hquiet m hm
    obtain ⟨hthread, hdraft, -⟩ := hm
    exact (mem_touched_microsoft_iff hsigned hlisted hquiet).mpr
      ⟨hthread, (mem_eligible_microsoft_iff hids hlisted hthread).mpr ⟨hread, hdraft, hreceived⟩,
        hanswered⟩

end Safety

/-! ### A thread with an answer -/

/-- A message to the owner, and the answer, from an address of the owner's. -/
def answeredThread (sender : Text) : Account where
  address := "me@acme.test".toList
  messages :=
    [⟨"m1".toList, "t1", {"inbox"}, false, false, "ann@other.test".toList⟩,
      ⟨"m2".toList, "t1", {"sentitems"}, false, true, sender⟩]

/-- The answer is the owner's. -/
def ownAnswer (m : Message) : Prop := m.id = "m2".toList

/-- All is well but for the request of the first item. -/
def firstItem (status : ℕ) : Turn where
  signedIn := true
  listed := true
  addressed := true
  folder := none
  gmail := fun _ => none
  graph := fun _ => .answered 200 fun j => if j = 0 then status else 201
  lost := fun _ _ => false
  delivered := true

theorem mem_answeredThread {sender : Text} {m : Message}
    (h : m ∈ (answeredThread sender).thread "t1") :
    m = ⟨"m1".toList, "t1", {"inbox"}, false, false, "ann@other.test".toList⟩ ∨
      m = ⟨"m2".toList, "t1", {"sentitems"}, false, true, sender⟩ := by
  have hmem : m ∈ (answeredThread sender).messages := (List.mem_filter.mp h).1
  obtain hfirst | hrest := List.mem_cons.mp hmem
  · exact .inl hfirst
  · exact .inr (List.mem_singleton.mp hrest)

end Triage
end EmailOps
