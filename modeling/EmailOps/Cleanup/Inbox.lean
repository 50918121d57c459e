import EmailOps.Cleanup.Runs
import EmailOps.Email.Types

/-!
# Cleanup items of the agent inbox

A staged cleanup waits in the agent inbox until a reviewer approves or rejects it. Its
state is in three places: the item is PENDING, APPROVED or REJECTED, the batch has a state
of its own, and the messages are where the engine has put them. `approveAgentInboxItem`
reads the item, has `approveCleanupBatch` run the batch (or moves the threads of a native
batch one by one), and marks the item APPROVED at the end. `rejectAgentInboxItem` reads the
item and marks it REJECTED; the batch is left as it is.

This module puts items and reviews on top of the cleanup protocol. A review is one call
of either function, the run of its batch has the same number, and the reads and the writes
of a review are steps of their own.

* `inboxSystem` is the protocol with its inbox, `inboxOf` the simulation of it by
  `Cleanup.system`.
-/

namespace EmailOps
namespace Cleanup

open Framework

/-! ### Items -/

inductive MessageDisposition where
  | inbox | archive | trash | spam
  deriving DecidableEq, Repr

/-- What an item asks for: a batch of a connected account, or threads of a native mailbox
to be moved. -/
inductive CleanupPayload where
  | batch (batchId : String)
  | native (action : MessageDisposition) (threadIds : List Text)

/-- A CLEANUP item of the agent inbox. -/
structure CleanupItem where
  id : String
  workspaceId : String
  payload : CleanupPayload
  state : AgentInboxState

/-- The threads of a native batch: without blanks and repetitions, and at most 50. -/
def nativeIds (threadIds : List Text) : List Text :=
  (((threadIds.map Text.trim).filter (· ≠ [])).eraseDups).take 50

/-- The folder a native batch moves its threads to. -/
def dispositionOf (action : MessageDisposition) : MessageDisposition :=
  if action = .trash then .trash else .archive

/-- `approveCleanupBatch` reports a batch that was settled before as done, unless it has
failed. -/
def reportsDone : CleanupBatchState → Bool
  | .failed | .pending => false
  | .undone | .completed | .rejected | .canceled => true

/-! ### Reviews -/

/-- Where a call of `approveAgentInboxItem` or `rejectAgentInboxItem` stands. -/
inductive Review where
  | idle
  /-- The item was PENDING, and `approveCleanupBatch` is called. -/
  | approving (workspaceId itemId batchId : String)
  /-- `approveCleanupBatch` has begun the run of this number. -/
  | running (itemId batchId : String)
  /-- The threads of a native batch are moved. -/
  | moving (itemId : String) (disposition : MessageDisposition) (left : List Text)
  /-- The batch is executed, and the item is to be marked APPROVED. -/
  | executed (itemId : String)
  /-- The item was PENDING, and is to be marked REJECTED. -/
  | rejecting (itemId : String)
  /-- The call has returned or thrown, or its process has died. -/
  | ended
  deriving DecidableEq

/-- The item of a review that is under way. -/
def Review.itemId? : Review → Option String
  | .approving _ itemId _ | .running itemId _ | .moving itemId _ _ | .executed itemId
  | .rejecting itemId => some itemId
  | .idle | .ended => none

inductive InboxEvent where
  /-- A thread is moved in the mailboxes of the workspace. -/
  | moved (r : ℕ) (itemId : String) (threadId : Text) (disposition : MessageDisposition)
  | approved (itemId : String)
  | rejected (itemId : String)
  deriving DecidableEq

/-- The state of the protocol and its inbox. -/
structure InboxState where
  base : State
  items : List CleanupItem
  reviews : ℕ → Review
  /-- The batch that each review has begun to run. -/
  batchOf : ℕ → Option String
  events : List InboxEvent

inductive InboxLabel where
  /-- `stageCleanupRequest`: a batch and its item, under new ids. -/
  | stageBatch (itemId : String) (batch : CleanupBatch)
  /-- `stageNativeCleanup`. -/
  | stageNative (itemId workspaceId : String) (action : MessageDisposition)
      (threadIds : List Text)
  /-- A step of the cleanup protocol. -/
  | cleanup (l : Label)
  /-- `approveAgentInboxItem`, up to `approveCleanupBatch` or the first move. -/
  | approve (r : ℕ) (workspaceId itemId : String) (owner : Bool)
  /-- `approveCleanupBatch`, up to its first call of the engine. -/
  | execute (r : ℕ) (linked : Bool) (iso : String)
  /-- The run of the review is recorded. -/
  | finish (r count : ℕ)
  /-- The next thread of a native batch is moved. -/
  | move (r : ℕ)
  /-- All threads are moved, and the dispositions are written. -/
  | tag (r : ℕ)
  /-- The item is marked APPROVED. -/
  | mark (r : ℕ)
  /-- `rejectAgentInboxItem`, up to its write. -/
  | reject (r : ℕ) (workspaceId itemId : String)
  /-- The item is marked REJECTED. -/
  | markRejected (r : ℕ)
  /-- The review throws, or its process dies. -/
  | drop (r : ℕ)

namespace InboxState

variable (s : InboxState)

def setReview (r : ℕ) (review : Review) : InboxState :=
  { s with reviews := Function.update s.reviews r review }

def setBatchOf (r : ℕ) (batchId : String) : InboxState :=
  { s with batchOf := Function.update s.batchOf r (some batchId) }

def setItem (itemId : String) (state : AgentInboxState) : InboxState :=
  { s with items := s.items.map fun i => if i.id = itemId then { i with state := state } else i }

def addItem (item : CleanupItem) : InboxState :=
  { s with items := s.items ++ [item] }

def note (e : InboxEvent) : InboxState :=
  { s with events := s.events ++ [e] }

/-- Is the item id in use? -/
def freshItem (itemId : String) : Bool :=
  s.items.all (·.id ≠ itemId)

def findItem (workspaceId itemId : String) : Option CleanupItem :=
  s.items.find? fun i => i.id = itemId && i.workspaceId = workspaceId

/-- Take a step of the cleanup protocol. -/
def lift (lib : Library) (bucket : String) (l : Label) : Option InboxState :=
  (Cleanup.step lib bucket s.base l).map fun base => { s with base := base }

/-- How often a review has asked the engine to execute the batch. -/
def executionsOf (batchId : String) : ℕ :=
  s.base.log.countP fun e => e.actor?.any fun r => s.batchOf r = some batchId

/-- The threads that were moved for a native item, in the order of the moves. -/
def movesOf (itemId : String) : List Text :=
  s.events.filterMap fun e =>
    match e with
    | .moved _ itemId' threadId _ => if itemId' = itemId then some threadId else none
    | .approved _ | .rejected _ => none

end InboxState

/-! ### The steps -/

variable (lib : Library) (bucket : String)

/-- What the reviewer's approval does to an item that is PENDING. -/
def beginApproval (s : InboxState) (r : ℕ) (item : CleanupItem) (owner : Bool) : InboxState :=
  match item.payload with
  | .native action threadIds => s.setReview r (.moving item.id (dispositionOf action) threadIds)
  | .batch batchId =>
    if !owner || batchId = "" then s.setReview r .ended
    else s.setReview r (.approving item.workspaceId item.id batchId)

/-- One atomic step. -/
def inboxStep (s : InboxState) : InboxLabel → Option InboxState
  | .stageBatch itemId batch =>
    if s.freshItem itemId then
      (s.lift lib bucket (.stage batch)).map
        (·.addItem ⟨itemId, batch.workspaceId, .batch batch.id, .pending⟩)
    else none
  | .stageNative itemId workspaceId action threadIds =>
    if s.freshItem itemId && nativeIds threadIds ≠ [] then
      some (s.addItem ⟨itemId, workspaceId, .native action (nativeIds threadIds), .pending⟩)
    else none
  | .cleanup l =>
    match l with
    | .stage _ | .approve _ _ _ _ _ => none
    | .settle _ state =>
      -- `undoBatch` has restored the archive of the batch.
      if state = .undone then s.lift lib bucket l else none
    | .execute c _ _ _ _ _ _ | .finish c _ =>
      match s.reviews c with
      | .idle => s.lift lib bucket l
      | _ => none
    | l => s.lift lib bucket l
  | .approve r workspaceId itemId owner =>
    match s.reviews r, s.base.runs r with
    | .idle, .idle =>
      match s.findItem workspaceId itemId with
      | none => some (s.setReview r .ended)
      | some item =>
        if item.state ≠ .pending then some (s.setReview r .ended)
        else some (beginApproval s r item owner)
    | _, _ => none
  | .execute r linked iso =>
    match s.reviews r with
    | .approving workspaceId itemId batchId =>
      match s.base.batches.find? fun b => b.id = batchId && b.workspaceId = workspaceId with
      | none => some (s.setReview r .ended)
      | some batch =>
        if batch.state ≠ .pending then
          some (s.setReview r (if reportsDone batch.state then .executed itemId else .ended))
        else if !linked then some (s.setReview r .ended)
        else
          (s.lift lib bucket (.approve r workspaceId batchId linked iso)).map fun s' =>
            (s'.setReview r (.running itemId batchId)).setBatchOf r batchId
    | _ => none
  | .finish r count =>
    match s.reviews r with
    | .running itemId _ =>
      (s.lift lib bucket (.finish r count)).map (·.setReview r (.executed itemId))
    | _ => none
  | .move r =>
    match s.reviews r with
    | .moving itemId disposition (threadId :: left) =>
      some ((s.setReview r (.moving itemId disposition left)).note
        (.moved r itemId threadId disposition))
    | _ => none
  | .tag r =>
    match s.reviews r with
    | .moving itemId _ [] => some (s.setReview r (.executed itemId))
    | _ => none
  | .mark r =>
    match s.reviews r with
    | .executed itemId =>
      some (((s.setReview r .ended).setItem itemId .approved).note (.approved itemId))
    | _ => none
  | .reject r workspaceId itemId =>
    match s.reviews r, s.base.runs r with
    | .idle, .idle =>
      match s.findItem workspaceId itemId with
      | none => some (s.setReview r .ended)
      | some item =>
        if item.state ≠ .pending then some (s.setReview r .ended)
        else some (s.setReview r (.rejecting item.id))
    | _, _ => none
  | .markRejected r =>
    match s.reviews r with
    | .rejecting itemId =>
      some (((s.setReview r .ended).setItem itemId .rejected).note (.rejected itemId))
    | _ => none
  | .drop r =>
    match s.reviews r, s.base.runs r with
    | .idle, _ | .ended, _ => none
    -- `approveCleanupBatch` returns when its run is over.
    | .running _ _, .ended => some (s.setReview r .ended)
    | .running _ _, _ => none
    | _, _ => some (s.setReview r .ended)

/-- The cleanup protocol with its inbox, on empty tables. -/
def inboxSystem : System InboxState InboxLabel where
  init s := (system lib bucket).init s.base ∧ s.items = [] ∧ (∀ r, s.reviews r = .idle) ∧
    (∀ r, s.batchOf r = none) ∧ s.events = []
  step := inboxStep lib bucket

/-! ### It is the cleanup protocol -/

variable {lib bucket} {s s' : InboxState} {l : InboxLabel}

namespace InboxState

theorem lift_eq_some {k : Label} (h : s.lift lib bucket k = some s') :
    ∃ base, Cleanup.step lib bucket s.base k = some base ∧ s' = { s with base := base } := by
  obtain ⟨base, hbase, rfl⟩ := Option.map_eq_some_iff.mp h
  exact ⟨base, hbase, rfl⟩

end InboxState

/-- **What a step can do.** -/
inductive InboxMoves (lib : Library) (bucket : String) (s : InboxState) :
    InboxLabel → InboxState → Prop
  | stageBatch {itemId : String} {batch : CleanupBatch} {base : State} :
      s.freshItem itemId = true → Cleanup.step lib bucket s.base (.stage batch) = some base →
      InboxMoves lib bucket s (.stageBatch itemId batch)
        (({ s with base := base } : InboxState).addItem
          ⟨itemId, batch.workspaceId, .batch batch.id, .pending⟩)
  | stageNative {itemId workspaceId : String} {action : MessageDisposition}
      {threadIds : List Text} :
      s.freshItem itemId = true →
      InboxMoves lib bucket s (.stageNative itemId workspaceId action threadIds)
        (s.addItem ⟨itemId, workspaceId, .native action (nativeIds threadIds), .pending⟩)
  /-- A step of the cleanup protocol, and no run of a review begins or is recorded. -/
  | cleanup {l : Label} {base : State} :
      Cleanup.step lib bucket s.base l = some base →
      (∀ c workspaceId batchId linked iso, l ≠ .approve c workspaceId batchId linked iso) →
      (∀ c key mode linked plan serverPlan query,
        l = .execute c key mode linked plan serverPlan query → s.reviews c = .idle) →
      (∀ c count, l = .finish c count → s.reviews c = .idle) →
      InboxMoves lib bucket s (.cleanup l) { s with base := base }
  | approveBatch {r : ℕ} {workspaceId itemId batchId : String} {owner : Bool}
      {item : CleanupItem} :
      s.reviews r = .idle → s.base.runs r = .idle → item ∈ s.items → item.id = itemId →
      item.state = .pending → item.payload = .batch batchId →
      InboxMoves lib bucket s (.approve r workspaceId itemId owner)
        (s.setReview r (.approving item.workspaceId itemId batchId))
  | approveNative {r : ℕ} {workspaceId itemId : String} {owner : Bool} {item : CleanupItem}
      {action : MessageDisposition} {threadIds : List Text} :
      s.reviews r = .idle → s.base.runs r = .idle → item ∈ s.items → item.id = itemId →
      item.state = .pending → item.payload = .native action threadIds →
      InboxMoves lib bucket s (.approve r workspaceId itemId owner)
        (s.setReview r (.moving itemId (dispositionOf action) threadIds))
  | execute {r : ℕ} {linked : Bool} {iso workspaceId itemId batchId : String} {base : State} :
      s.reviews r = .approving workspaceId itemId batchId →
      Cleanup.step lib bucket s.base (.approve r workspaceId batchId linked iso) = some base →
      InboxMoves lib bucket s (.execute r linked iso)
        ((({ s with base := base } : InboxState).setReview r (.running itemId batchId)).setBatchOf
          r batchId)
  /-- The batch was settled before. -/
  | reported {r : ℕ} {linked : Bool} {iso workspaceId itemId batchId : String} :
      s.reviews r = .approving workspaceId itemId batchId →
      InboxMoves lib bucket s (.execute r linked iso) (s.setReview r (.executed itemId))
  | finish {r count : ℕ} {itemId batchId : String} {base : State} :
      s.reviews r = .running itemId batchId →
      Cleanup.step lib bucket s.base (.finish r count) = some base →
      InboxMoves lib bucket s (.finish r count)
        (({ s with base := base } : InboxState).setReview r (.executed itemId))
  | move {r : ℕ} {itemId : String} {disposition : MessageDisposition} {threadId : Text}
      {left : List Text} :
      s.reviews r = .moving itemId disposition (threadId :: left) →
      InboxMoves lib bucket s (.move r)
        ((s.setReview r (.moving itemId disposition left)).note
          (.moved r itemId threadId disposition))
  | tag {r : ℕ} {itemId : String} {disposition : MessageDisposition} :
      s.reviews r = .moving itemId disposition [] →
      InboxMoves lib bucket s (.tag r) (s.setReview r (.executed itemId))
  | mark {r : ℕ} {itemId : String} :
      s.reviews r = .executed itemId →
      InboxMoves lib bucket s (.mark r)
        (((s.setReview r .ended).setItem itemId .approved).note (.approved itemId))
  | reject {r : ℕ} {workspaceId itemId : String} {item : CleanupItem} :
      s.reviews r = .idle → s.base.runs r = .idle → item ∈ s.items → item.id = itemId →
      item.state = .pending →
      InboxMoves lib bucket s (.reject r workspaceId itemId) (s.setReview r (.rejecting itemId))
  | markRejected {r : ℕ} {itemId : String} :
      s.reviews r = .rejecting itemId →
      InboxMoves lib bucket s (.markRejected r)
        (((s.setReview r .ended).setItem itemId .rejected).note (.rejected itemId))
  /-- A review ends without an effect of its own: at its start, before its run begins, when
  the run is over, or because it throws. -/
  | ended {r : ℕ} {l : InboxLabel} :
      (∀ itemId batchId, s.reviews r = .running itemId batchId → s.base.runs r = .ended) →
      (s.reviews r = .idle ∨ (∃ workspaceId itemId batchId,
        s.reviews r = .approving workspaceId itemId batchId) ∨ l = .drop r) →
      InboxMoves lib bucket s l (s.setReview r .ended)

theorem mem_of_findItem {workspaceId itemId : String} {item : CleanupItem}
    (h : s.findItem workspaceId itemId = some item) :
    item ∈ s.items ∧ item.id = itemId := by
  have hfound := List.find?_some h
  simp only [Bool.and_eq_true, decide_eq_true_eq] at hfound
  exact ⟨List.mem_of_find?_eq_some h, hfound.1⟩

theorem InboxMoves.over_idle {r : ℕ} (hidle : s.reviews r = .idle) :
    InboxMoves lib bucket s l (s.setReview r .ended) := by
  refine .ended (fun itemId batchId hrun => ?_) (.inl hidle)
  rw [hidle] at hrun
  cases hrun

theorem InboxMoves.over_approving {r : ℕ} {workspaceId itemId batchId : String}
    (hreview : s.reviews r = .approving workspaceId itemId batchId) :
    InboxMoves lib bucket s l (s.setReview r .ended) := by
  refine .ended (fun itemId' batchId' hrun => ?_) (.inr (.inl ⟨_, _, _, hreview⟩))
  rw [hreview] at hrun
  cases hrun

/-- The inversion of a step. -/
theorem inboxMoves_of_step (h : inboxStep lib bucket s l = some s') :
    InboxMoves lib bucket s l s' := by
  cases l with
  | stageBatch itemId batch =>
    simp only [inboxStep] at h
    split at h
    · next hfresh =>
      obtain ⟨s₁, hs₁, rfl⟩ := Option.map_eq_some_iff.mp h
      obtain ⟨base, hbase, rfl⟩ := InboxState.lift_eq_some hs₁
      exact .stageBatch hfresh hbase
    · cases h
  | stageNative itemId workspaceId action threadIds =>
    simp only [inboxStep] at h
    split at h
    · next hfresh =>
      obtain rfl := Option.some.inj h
      exact .stageNative (Bool.and_eq_true_iff.mp hfresh).1
    · cases h
  | cleanup l =>
    -- A label that is neither of a start nor of an outcome.
    have hplain : s.lift lib bucket l = some s' →
        (∀ c workspaceId batchId linked iso, l ≠ .approve c workspaceId batchId linked iso) →
        (∀ c key mode linked plan serverPlan query,
          l = .execute c key mode linked plan serverPlan query → s.reviews c = .idle) →
        (∀ c count, l = .finish c count → s.reviews c = .idle) →
        InboxMoves lib bucket s (.cleanup l) s' := by
      intro hlift happrove hexecute hfinish
      obtain ⟨base, hbase, rfl⟩ := InboxState.lift_eq_some hlift
      exact .cleanup hbase happrove hexecute hfinish
    cases l with
    -- Batches are staged and approved through the inbox alone.
    | stage | approve => cases h
    | settle batchId state =>
      simp only [inboxStep] at h
      split at h
      · exact hplain h (by simp) (by simp) (by simp)
      · cases h
    | execute c key mode linked plan serverPlan query =>
      simp only [inboxStep] at h
      split at h
      · next hidle =>
        refine hplain h (by simp) (fun c' _ _ _ _ _ _ heq => ?_) (by simp)
        cases heq
        exact hidle
      · cases h
    | finish c count =>
      simp only [inboxStep] at h
      split at h
      · next hidle =>
        refine hplain h (by simp) (by simp) (fun c' _ heq => ?_)
        cases heq
        exact hidle
      · cases h
    | _ => exact hplain h (by simp) (by simp) (by simp)
  | approve r workspaceId itemId owner =>
    simp only [inboxStep] at h
    split at h
    · next hreview hrun =>
      split at h
      · -- There is no such item, so the review is over.
        obtain rfl := Option.some.inj h
        exact .over_idle hreview
      · next item hfind =>
        split at h
        · obtain rfl := Option.some.inj h
          exact .over_idle hreview
        · next hpending =>
          -- The item is pending, and what it asks for decides how it goes on.
          obtain ⟨hitem, rfl⟩ := mem_of_findItem hfind
          obtain rfl := Option.some.inj h
          unfold beginApproval
          split
          · next hpayload =>
            exact .approveNative hreview hrun hitem rfl (not_not.mp hpending) hpayload
          · next hpayload =>
            split
            · exact .over_idle hreview
            · exact .approveBatch hreview hrun hitem rfl (not_not.mp hpending) hpayload
    · cases h
  | execute r linked iso =>
    simp only [inboxStep] at h
    split at h
    · next hreview =>
      split at h
      · -- The batch is not there any more.
        obtain rfl := Option.some.inj h
        exact .over_approving hreview
      · split at h
        · obtain rfl := Option.some.inj h
          -- A batch that is not pending is reported as done, or refused, by its state.
          split
          · exact .reported hreview
          · exact .over_approving hreview
        · split at h
          · -- The account is not linked.
            obtain rfl := Option.some.inj h
            exact .over_approving hreview
          · obtain ⟨s₁, hs₁, rfl⟩ := Option.map_eq_some_iff.mp h
            obtain ⟨base, hbase, rfl⟩ := InboxState.lift_eq_some hs₁
            exact .execute hreview hbase
    · cases h
  | finish r count =>
    simp only [inboxStep] at h
    split at h
    · next hreview =>
      obtain ⟨s₁, hs₁, rfl⟩ := Option.map_eq_some_iff.mp h
      obtain ⟨base, hbase, rfl⟩ := InboxState.lift_eq_some hs₁
      exact .finish hreview hbase
    · cases h
  | move r =>
    simp only [inboxStep] at h
    split at h
    · next hreview =>
      obtain rfl := Option.some.inj h
      exact .move hreview
    · cases h
  | tag r =>
    simp only [inboxStep] at h
    split at h
    · next hreview =>
      obtain rfl := Option.some.inj h
      exact .tag hreview
    · cases h
  | mark r =>
    simp only [inboxStep] at h
    split at h
    · next hreview =>
      obtain rfl := Option.some.inj h
      exact .mark hreview
    · cases h
  | reject r workspaceId itemId =>
    simp only [inboxStep] at h
    split at h
    · next hreview hrun =>
      split at h
      · obtain rfl := Option.some.inj h
        exact .over_idle hreview
      · next item hfind =>
        split at h
        · obtain rfl := Option.some.inj h
          exact .over_idle hreview
        · next hpending =>
          obtain ⟨hitem, rfl⟩ := mem_of_findItem hfind
          obtain rfl := Option.some.inj h
          exact .reject hreview hrun hitem rfl (not_not.mp hpending)
    · cases h
  | markRejected r =>
    simp only [inboxStep] at h
    split at h
    · next hreview =>
      obtain rfl := Option.some.inj h
      exact .markRejected hreview
    · cases h
  | drop r =>
    simp only [inboxStep] at h
    split at h
    · cases h
    · cases h
    · next hrun =>
      -- The run of the review is over, and the review with it.
      obtain rfl := Option.some.inj h
      exact .ended (fun _ _ _ => hrun) (.inr (.inr rfl))
    · cases h
    · next hnot _ =>
      -- Any other review may break off where it is.
      obtain rfl := Option.some.inj h
      exact .ended (fun itemId batchId hreview => absurd hreview (hnot itemId batchId))
        (.inr (.inr rfl))

theorem base_of_inboxMoves (h : InboxMoves lib bucket s l s') :
    s'.base = s.base ∨ ∃ k, Cleanup.step lib bucket s.base k = some s'.base := by
  cases h with
  | stageBatch _ hbase => exact .inr ⟨_, hbase⟩
  | cleanup hbase _ _ _ => exact .inr ⟨_, hbase⟩
  | execute _ hbase => exact .inr ⟨_, hbase⟩
  | finish _ hbase => exact .inr ⟨_, hbase⟩
  | _ => exact .inl rfl

/-- The protocol with its inbox refines the cleanup protocol. -/
def inboxOf (lib : Library) (bucket : String) :
    Simulation (inboxSystem lib bucket) (system lib bucket) where
  map := InboxState.base
  init _ h := h.1
  step _ _ _ _ h := base_of_inboxMoves (inboxMoves_of_step h)

/-! ### The start of the examples -/

/-- Nothing has happened yet, and the inbox is empty. -/
def emptyInbox : InboxState where
  base := noCleanup
  items := []
  reviews _ := .idle
  batchOf _ := none
  events := []

theorem emptyInbox_init : (inboxSystem sampleLibrary "archives").init emptyInbox :=
  ⟨noCleanup_init, rfl, fun _ => rfl, fun _ => rfl, rfl⟩

end Cleanup
end EmailOps
