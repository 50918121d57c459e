import EmailOps.Cleanup.Inbox

/-!
# A staged cleanup is executed once

An approval reads the item, has the batch executed, and marks the item at its end; until
then the item is PENDING, for any other reviewer too. Whatever fails between
the engine's action and the mark leaves a PENDING item whose batch was executed.

* `executed_at_most_once`: in a run where a review starts only when none of its item is
  under way, and none breaks off once it has asked for a change of a mailbox, a batch is
  executed at most once, a native batch moves its threads once, in order, and nothing is
  executed of an item that is rejected.
* `reviews_interfere`: two approvals side by side execute the batch twice, and a rejection
  beside an approval rejects what is executed.
* `ItemsInv` holds of every run, `OnceInv` of those that meet the condition.
-/

namespace EmailOps
namespace Cleanup
namespace Inbox

open Framework

/-- The review has asked for a change of a mailbox. -/
def Acted (s : InboxState) (r : ℕ) : Prop :=
  ((∃ batchId, s.batchOf r = some batchId) ∧ ∃ e ∈ s.base.log, e.actor? = some r) ∨
    ∃ itemId threadId disposition, InboxEvent.moved r itemId threadId disposition ∈ s.events

/-- Something of the item's batch was executed. -/
def Executed (s : InboxState) (item : CleanupItem) : Prop :=
  match item.payload with
  | .batch batchId => 0 < s.executionsOf batchId
  | .native _ _ => s.movesOf item.id ≠ []

/-- A review starts when none of its item is under way, and does not break off once it has
asked for a change of a mailbox. -/
def Careful (s : InboxState) : InboxLabel → Prop
  | .approve _ _ itemId _ | .reject _ _ itemId => ∀ r, (s.reviews r).itemId? ≠ some itemId
  | .drop r => ¬Acted s r
  | _ => True

variable {lib : Library} {bucket : String} {s s' : InboxState} {l : InboxLabel}

/-! ### What is counted -/

/-- Is the event the execution of the batch by a review? -/
def executes (batchOf : ℕ → Option String) (batchId : String) (e : Event) : Bool :=
  e.actor?.any fun r => batchOf r = some batchId

theorem executionsOf_eq (s : InboxState) (batchId : String) :
    s.executionsOf batchId = s.base.log.countP (executes s.batchOf batchId) := rfl

theorem countP_executes_of_none {batchOf : ℕ → Option String} {batchId : String}
    {more : List Event} (hmore : ∀ e ∈ more, e.actor? = none) :
    more.countP (executes batchOf batchId) = 0 := by
  rw [List.countP_eq_zero]
  intro e he
  unfold executes
  rw [hmore e he]
  exact Bool.false_ne_true

/-- What a run asks for counts for the batch of the review that has made it. -/
theorem executionsOf_of_act {base : State} {e : Event} {c : ℕ} (hmore : base.log = s.base.log ++ [e])
    (hactor : e.actor? = some c) (batchId : String) :
    ({ s with base := base } : InboxState).executionsOf batchId =
      s.executionsOf batchId + if s.batchOf c = some batchId then 1 else 0 := by
  rw [executionsOf_eq, executionsOf_eq]
  change base.log.countP (executes s.batchOf batchId) = _
  rw [hmore, List.countP_append, List.countP_singleton]
  unfold executes
  rw [hactor, Option.any_some]
  simp only [decide_eq_true_eq]

theorem exists_of_executionsOf_pos {batchId : String} (h : 0 < s.executionsOf batchId) :
    ∃ r, s.batchOf r = some batchId ∧ ∃ e ∈ s.base.log, e.actor? = some r := by
  rw [executionsOf_eq, List.countP_pos_iff] at h
  obtain ⟨e, he, hexecutes⟩ := h
  unfold executes at hexecutes
  rw [Option.any_eq_true] at hexecutes
  obtain ⟨r, hactor, hbatch⟩ := hexecutes
  exact ⟨r, of_decide_eq_true hbatch, e, he, hactor⟩

/-- A review that has asked for nothing may take up a batch. -/
theorem executionsOf_setBatchOf {r : ℕ} (batchId : String)
    (hnone : ∀ e ∈ s.base.log, e.actor? ≠ some r) (batchId' : String) :
    (s.setBatchOf r batchId).executionsOf batchId' = s.executionsOf batchId' := by
  rw [executionsOf_eq, executionsOf_eq]
  refine List.countP_congr fun e he => ?_
  unfold executes
  cases hactor : e.actor? with
  | none => exact Iff.rfl
  | some c =>
    have hne : c ≠ r := by
      rintro rfl
      exact hnone e he hactor
    change decide ((Function.update s.batchOf r (some batchId)) c = some batchId') = true ↔ _
    rw [Function.update_of_ne hne]
    exact Iff.rfl

theorem movesOf_note (s : InboxState) (e : InboxEvent) (itemId : String) :
    (s.note e).movesOf itemId = s.movesOf itemId ++
      ([e].filterMap fun e =>
        match e with
        | .moved _ itemId' threadId _ => if itemId' = itemId then some threadId else none
        | .approved _ | .rejected _ => none) :=
  List.filterMap_append ..

/-- An item whose threads were moved has a move among the events. -/
theorem exists_of_movesOf_ne_nil {itemId : String} (h : s.movesOf itemId ≠ []) :
    ∃ r threadId disposition, InboxEvent.moved r itemId threadId disposition ∈ s.events := by
  obtain ⟨threadId, hmem⟩ := List.exists_mem_of_ne_nil _ h
  obtain ⟨e, he, hsome⟩ := List.mem_filterMap.mp hmem
  cases e with
  | moved r itemId' threadId' disposition =>
    change (if itemId' = itemId then some threadId' else none) = some threadId at hsome
    split at hsome
    · next hid =>
      subst hid
      exact ⟨r, threadId', disposition, he⟩
    · cases hsome
  | approved | rejected => cases hsome

theorem mem_setItem {itemId : String} {state : AgentInboxState} {item : CleanupItem}
    (h : item ∈ (s.setItem itemId state).items) :
    ∃ old ∈ s.items, item.id = old.id ∧ item.payload = old.payload ∧
      (old.id = itemId → item.state = state) ∧ (old.id ≠ itemId → item = old) := by
  obtain ⟨old, hold, hid, rfl⟩ | ⟨hold, hid⟩ := Framework.Table.mem_update.mp h
  · exact ⟨old, hold, rfl, rfl, fun _ => rfl, fun hne => absurd hid hne⟩
  · exact ⟨item, hold, rfl, rfl, fun heq => absurd heq hid, fun _ => rfl⟩

theorem exists_setItem (itemId : String) (state : AgentInboxState) {i : CleanupItem}
    (hi : i ∈ s.items) : ∃ i' ∈ (s.setItem itemId state).items,
      i'.id = i.id ∧ i'.payload = i.payload := by
  obtain ⟨i', hi', ⟨-, rfl⟩ | ⟨-, rfl⟩⟩ := Framework.Table.exists_update hi
    (p := fun i => i.id = itemId) (f := fun i => { i with state := state })
  · exact ⟨_, hi', rfl, rfl⟩
  · exact ⟨_, hi', rfl, rfl⟩

/-! ### Steps of the protocol below -/

theorem fresh_of_stage {s base : State} {batch : CleanupBatch}
    (h : Cleanup.step lib bucket s (.stage batch) = some base) :
    s.fresh batch.id = true ∧ batch.id ∈ base.batches.map (·.id) := by
  simp only [Cleanup.step] at h
  split at h
  · next hfresh =>
    obtain rfl := Option.some.inj h
    refine ⟨hfresh, ?_⟩
    rw [List.map_append]
    exact List.mem_append_right _ (List.mem_singleton_self _)
  · cases h

theorem idle_of_approve {s base : State} {c : ℕ} {workspaceId batchId iso : String} {linked : Bool}
    (h : Cleanup.step lib bucket s (.approve c workspaceId batchId linked iso) = some base) :
    s.runs c = .idle := by
  simp only [Cleanup.step] at h
  split at h
  · next hidle => exact hidle
  · cases h

theorem ended_of_finish {s base : State} {c count : ℕ}
    (h : Cleanup.step lib bucket s (.finish c count) = some base) : base.runs c = .ended := by
  simp only [Cleanup.step] at h
  split at h
  · obtain rfl := Option.some.inj h
    rw [recording_runs, Function.update_self]
  · cases h

/-! ### Items and reviews -/

/-- Does the review do what the payload says? -/
def Suits (payload : CleanupPayload) : Review → Prop
  | .approving _ _ batchId | .running _ batchId => payload = .batch batchId
  | .moving _ _ _ => ∃ action threadIds, payload = .native action threadIds
  | _ => True

/-- A review that has not begun to run a batch. -/
def Review.unbegun : Review → Bool
  | .idle | .approving _ _ _ | .moving _ _ _ | .rejecting _ => true
  | .running _ _ | .executed _ | .ended => false

/-- A review that moves no threads. -/
def Review.unmoved : Review → Bool
  | .idle | .approving _ _ _ | .running _ _ | .rejecting _ => true
  | .moving _ _ _ | .executed _ | .ended => false

/-- What holds of the items and their reviews in every run. -/
structure ItemsInv (s : InboxState) : Prop where
  ids : (s.items.map (·.id)).Nodup
  batches : ∀ i ∈ s.items, ∀ j ∈ s.items, ∀ batchId, i.payload = .batch batchId →
    j.payload = .batch batchId → i.id = j.id
  rows : ∀ i ∈ s.items, ∀ batchId, i.payload = .batch batchId →
    batchId ∈ s.base.batches.map (·.id)
  reviewed : ∀ r itemId, (s.reviews r).itemId? = some itemId →
    ∃ i ∈ s.items, i.id = itemId ∧ Suits i.payload (s.reviews r)
  begun : ∀ r batchId, s.batchOf r = some batchId →
    (∃ i ∈ s.items, i.payload = .batch batchId) ∧
      ((∃ itemId, s.reviews r = .running itemId batchId) ∨ s.base.runs r = .ended)
  unbegun : ∀ r, Review.unbegun (s.reviews r) = true → s.batchOf r = none
  moved : ∀ r itemId threadId disposition, .moved r itemId threadId disposition ∈ s.events →
    (∃ i ∈ s.items, i.id = itemId ∧ ∃ action threadIds, i.payload = .native action threadIds) ∧
      Review.unmoved (s.reviews r) = false
  settled : ∀ itemId, .rejected itemId ∈ s.events → ∃ i ∈ s.items, i.id = itemId

theorem ItemsInv.unique (h : ItemsInv s) {i j : CleanupItem} (hi : i ∈ s.items) (hj : j ∈ s.items)
    (hid : i.id = j.id) : i = j :=
  List.inj_on_of_nodup_map h.ids hi hj hid

theorem ItemsInv.initial (h : (inboxSystem lib bucket).init s) : ItemsInv s := by
  obtain ⟨-, hitems, hreviews, hbatchOf, hevents⟩ := h
  constructor
  · rw [hitems]
    exact List.nodup_nil
  · intro i hi
    rw [hitems] at hi
    exact absurd hi List.not_mem_nil
  · intro i hi
    rw [hitems] at hi
    exact absurd hi List.not_mem_nil
  · intro r itemId hr
    rw [hreviews] at hr
    cases hr
  · intro r batchId hr
    rw [hbatchOf] at hr
    cases hr
  · exact fun r _ => hbatchOf r
  · intro r itemId threadId disposition hmem
    rw [hevents] at hmem
    exact absurd hmem List.not_mem_nil
  · intro itemId hmem
    rw [hevents] at hmem
    exact absurd hmem List.not_mem_nil

/-- The protocol below goes on. -/
theorem ItemsInv.lift (h : ItemsInv s) {k : Label} {base : State}
    (hbase : Cleanup.step lib bucket s.base k = some base) :
    ItemsInv { s with base := base } where
  ids := h.ids
  batches := h.batches
  rows i hi batchId hpayload :=
    (moves_grow (moves_of_step hbase)).ids (h.rows i hi batchId hpayload)
  reviewed := h.reviewed
  begun r batchId hr := by
    obtain ⟨hitem, hrun⟩ := h.begun r batchId hr
    exact ⟨hitem, hrun.imp_right (ended_stays (moves_of_step hbase))⟩
  unbegun := h.unbegun
  moved := h.moved
  settled := h.settled

/-- A new item, under a new id. -/
theorem ItemsInv.addItem (h : ItemsInv s) {item : CleanupItem} (hfresh : s.freshItem item.id = true)
    (hbatch : ∀ batchId, item.payload = .batch batchId → batchId ∈ s.base.batches.map (·.id) ∧
      ∀ i ∈ s.items, i.payload ≠ .batch batchId) : ItemsInv (s.addItem item) := by
  have hnew : ∀ i ∈ s.items, i.id ≠ item.id := by
    intro i hi
    exact of_decide_eq_true (List.all_eq_true.mp hfresh i hi)
  have hkeep : ∀ {i}, i ∈ s.items → i ∈ (s.addItem item).items := List.mem_append_left _
  have hcases : ∀ {i}, i ∈ (s.addItem item).items → i ∈ s.items ∨ i = item := by
    intro i hi
    exact (List.mem_append.mp hi).imp_right List.mem_singleton.mp
  constructor
  · change ((s.items ++ [item]).map (·.id)).Nodup
    exact Framework.Table.nodup_insert h.ids hnew
  · -- Two items of a batch: the new one shares its batch with no old one.
    intro i hi j hj batchId hpi hpj
    rcases hcases hi with hi | rfl
    · rcases hcases hj with hj | rfl
      · exact h.batches i hi j hj batchId hpi hpj
      · exact absurd hpi ((hbatch batchId hpj).2 i ‹_›)
    · rcases hcases hj with hj | rfl
      · exact absurd hpj ((hbatch batchId hpi).2 j hj)
      · rfl
  · -- The batch of the new item has its row.
    intro i hi batchId hpayload
    rcases hcases hi with hi | rfl
    · exact h.rows i hi batchId hpayload
    · exact (hbatch batchId hpayload).1
  · intro r itemId hr
    obtain ⟨i, hi, hid, hsuits⟩ := h.reviewed r itemId hr
    exact ⟨i, hkeep hi, hid, hsuits⟩
  · intro r batchId hr
    obtain ⟨⟨i, hi, hpayload⟩, hrun⟩ := h.begun r batchId hr
    exact ⟨⟨i, hkeep hi, hpayload⟩, hrun⟩
  · exact h.unbegun
  · -- What was moved was moved for an item that is still there.
    intro r itemId threadId disposition hmem
    obtain ⟨⟨i, hi, hpayload⟩, hreview⟩ := h.moved r itemId threadId disposition hmem
    exact ⟨⟨i, hkeep hi, hpayload⟩, hreview⟩
  · intro itemId hmem
    obtain ⟨i, hi, hid⟩ := h.settled itemId hmem
    exact ⟨i, hkeep hi, hid⟩

/-- A review moves on. -/
theorem ItemsInv.setReview (h : ItemsInv s) {r : ℕ} {review : Review}
    (hitem : ∀ itemId, review.itemId? = some itemId →
      ∃ i ∈ s.items, i.id = itemId ∧ Suits i.payload review)
    (hbegun : ∀ batchId, s.batchOf r = some batchId →
      (∃ itemId, review = .running itemId batchId) ∨ s.base.runs r = .ended)
    (hunbegun : Review.unbegun review = true → s.batchOf r = none)
    (hmoved : Review.unmoved review = true → Review.unmoved (s.reviews r) = true) :
    ItemsInv (s.setReview r review) := by
  have hself : (s.setReview r review).reviews r = review := Function.update_self ..
  have hother : ∀ c, c ≠ r → (s.setReview r review).reviews c = s.reviews c :=
    fun c hc => Function.update_of_ne hc ..
  constructor
  · exact h.ids
  · exact h.batches
  · exact h.rows
  · -- The review that moves shows that its item suits it.
    intro c itemId hc
    by_cases hcr : c = r
    · subst hcr
      rw [hself] at hc ⊢
      exact hitem itemId hc
    · rw [hother c hcr] at hc ⊢
      exact h.reviewed c itemId hc
  · -- What has begun is under way in the same review, or its run has ended.
    intro c batchId hc
    obtain ⟨hexists, hrun⟩ := h.begun c batchId hc
    refine ⟨hexists, ?_⟩
    by_cases hcr : c = r
    · subst hcr
      rw [hself]
      exact hbegun batchId hc
    · rw [hother c hcr]
      exact hrun
  · intro c hc
    by_cases hcr : c = r
    · subst hcr
      rw [hself] at hc
      exact hunbegun hc
    · rw [hother c hcr] at hc
      exact h.unbegun c hc
  · intro c itemId threadId disposition hmem
    obtain ⟨hexists, hunmoved⟩ := h.moved c itemId threadId disposition hmem
    refine ⟨hexists, ?_⟩
    -- A review that has moved something is none that has moved nothing.
    by_cases hcr : c = r
    · subst hcr
      rw [hself]
      cases hnew : Review.unmoved review with
      | false => rfl
      | true => rw [← hunmoved, hmoved hnew]
    · rw [hother c hcr]
      exact hunmoved
  · exact h.settled

/-- An item is marked. -/
theorem ItemsInv.setItem (h : ItemsInv s) (itemId : String) (state : AgentInboxState) :
    ItemsInv (s.setItem itemId state) := by
  have hids : (s.setItem itemId state).items.map (·.id) = s.items.map (·.id) :=
    Framework.Table.keys_update fun _ => rfl
  have hkeep : ∀ i ∈ s.items, ∃ i' ∈ (s.setItem itemId state).items,
      i'.id = i.id ∧ i'.payload = i.payload := fun i => exists_setItem itemId state
  -- The marks of an item change neither its id nor its payload.
  constructor
  · rw [hids]
    exact h.ids
  · intro i hi j hj batchId hpi hpj
    obtain ⟨i₀, hi₀, hidi, hpayloadi, -⟩ := mem_setItem hi
    obtain ⟨j₀, hj₀, hidj, hpayloadj, -⟩ := mem_setItem hj
    rw [hidi, hidj]
    exact h.batches i₀ hi₀ j₀ hj₀ batchId (hpayloadi ▸ hpi) (hpayloadj ▸ hpj)
  · intro i hi batchId hpayload
    obtain ⟨i₀, hi₀, -, hpayload₀, -⟩ := mem_setItem hi
    exact h.rows i₀ hi₀ batchId (hpayload₀ ▸ hpayload)
  · intro r itemId' hr
    obtain ⟨i, hi, hid, hsuits⟩ := h.reviewed r itemId' hr
    obtain ⟨i', hi', hid', hpayload'⟩ := hkeep i hi
    exact ⟨i', hi', hid'.trans hid, hpayload' ▸ hsuits⟩
  · intro r batchId hr
    obtain ⟨⟨i, hi, hpayload⟩, hrun⟩ := h.begun r batchId hr
    obtain ⟨i', hi', -, hpayload'⟩ := hkeep i hi
    exact ⟨⟨i', hi', hpayload'.trans hpayload⟩, hrun⟩
  · exact h.unbegun
  · intro r itemId' threadId disposition hmem
    obtain ⟨⟨i, hi, hid, hnative⟩, hreview⟩ := h.moved r itemId' threadId disposition hmem
    obtain ⟨i', hi', hid', hpayload'⟩ := hkeep i hi
    exact ⟨⟨i', hi', hid'.trans hid, hpayload' ▸ hnative⟩, hreview⟩
  · intro itemId' hmem
    obtain ⟨i, hi, hid⟩ := h.settled itemId' hmem
    obtain ⟨i', hi', hid', -⟩ := hkeep i hi
    exact ⟨i', hi', hid'.trans hid⟩

/-- Something is noted: a move by a review that moves threads, or the mark of an item. -/
theorem ItemsInv.note (h : ItemsInv s) {e : InboxEvent}
    (hmoved : ∀ r itemId threadId disposition, e = .moved r itemId threadId disposition →
      (∃ i ∈ s.items, i.id = itemId ∧ ∃ action threadIds, i.payload = .native action threadIds) ∧
        Review.unmoved (s.reviews r) = false)
    (hrejected : ∀ itemId, e = .rejected itemId → ∃ i ∈ s.items, i.id = itemId) :
    ItemsInv (s.note e) where
  ids := h.ids
  batches := h.batches
  rows := h.rows
  reviewed := h.reviewed
  begun := h.begun
  unbegun := h.unbegun
  moved r itemId threadId disposition hmem := by
    rcases List.mem_append.mp hmem with hold | hnew
    · exact h.moved r itemId threadId disposition hold
    · exact hmoved r itemId threadId disposition (List.mem_singleton.mp hnew).symm
  settled itemId hmem := by
    rcases List.mem_append.mp hmem with hold | hnew
    · exact h.settled itemId hold
    · exact hrejected itemId (List.mem_singleton.mp hnew).symm

theorem ItemsInv.item_of (h : ItemsInv s) {r : ℕ} {review : Review} (hreview : s.reviews r = review)
    {itemId : String} (hid : review.itemId? = some itemId) :
    ∃ i ∈ s.items, i.id = itemId ∧ Suits i.payload review := by
  have hitem := h.reviewed r itemId
  rw [hreview] at hitem
  exact hitem hid

/-- A review takes up the batch of its item. -/
theorem ItemsInv.setBatchOf (h : ItemsInv s) {r : ℕ} {itemId batchId : String}
    (hreview : s.reviews r = .running itemId batchId) : ItemsInv (s.setBatchOf r batchId) := by
  have hself : (s.setBatchOf r batchId).batchOf r = some batchId := Function.update_self ..
  have hother : ∀ c, c ≠ r → (s.setBatchOf r batchId).batchOf c = s.batchOf c :=
    fun c hc => Function.update_of_ne hc ..
  obtain ⟨i, hi, -, hpayload⟩ := h.item_of hreview rfl
  refine { h with begun := fun c batchId' hc => ?_, unbegun := fun c hc => ?_ }
  · by_cases hcr : c = r
    · subst hcr
      rw [hself] at hc
      obtain rfl := Option.some.inj hc
      exact ⟨⟨i, hi, hpayload⟩, .inl ⟨itemId, hreview⟩⟩
    · rw [hother c hcr] at hc
      exact h.begun c batchId' hc
  · by_cases hcr : c = r
    · subst hcr
      change Review.unbegun (s.reviews c) = true at hc
      rw [hreview] at hc
      exact absurd hc Bool.false_ne_true
    · rw [hother c hcr]
      exact h.unbegun c hc

/-- A review that has not begun to run a batch moves on to one that has not, either, or
ends. -/
theorem ItemsInv.unbegunReview (h : ItemsInv s) {r : ℕ} {review : Review}
    (hunbegun : Review.unbegun (s.reviews r) = true)
    (hitem : ∀ itemId, review.itemId? = some itemId →
      ∃ i ∈ s.items, i.id = itemId ∧ Suits i.payload review)
    (hmoved : Review.unmoved review = true → Review.unmoved (s.reviews r) = true) :
    ItemsInv (s.setReview r review) := by
  have hnone : s.batchOf r = none := h.unbegun r hunbegun
  refine h.setReview hitem (fun batchId hbatch => ?_) (fun _ => hnone) hmoved
  rw [hnone] at hbatch
  cases hbatch

/-- A review ends. -/
theorem ItemsInv.endReview (h : ItemsInv s) {r : ℕ}
    (hrun : ∀ itemId batchId, s.reviews r = .running itemId batchId → s.base.runs r = .ended) :
    ItemsInv (s.setReview r .ended) := by
  refine h.setReview (fun _ hnone => ?_) (fun batchId hbatch => .inr ?_) (fun hnot => ?_)
    (fun hnot => ?_)
  · cases hnone
  · obtain ⟨-, ⟨itemId, hreview⟩ | hended⟩ := h.begun r batchId hbatch
    · exact hrun itemId batchId hreview
    · exact hended
  · cases hnot
  · cases hnot

/-- A review begins to run the batch of its item. -/
theorem ItemsInv.takeUp (h : ItemsInv s) {r : ℕ} {workspaceId itemId batchId : String}
    (hreview : s.reviews r = .approving workspaceId itemId batchId) :
    ItemsInv ((s.setReview r (.running itemId batchId)).setBatchOf r batchId) := by
  have hsuits := h.item_of hreview rfl
  have hrunning : ItemsInv (s.setReview r (.running itemId batchId)) := by
    refine h.unbegunReview (by rw [hreview]; rfl) (fun itemId' heq => ?_) (fun _ => by rw [hreview]; rfl)
    obtain rfl := Option.some.inj heq
    exact hsuits
  exact hrunning.setBatchOf (Function.update_self ..)

/-- **Every step keeps it.** -/
theorem ItemsInv.step (h : ItemsInv s) (hmoves : InboxMoves lib bucket s l s') : ItemsInv s' := by
  cases hmoves with
  | @stageBatch itemId batch base hfresh hbase =>
    obtain ⟨hnew, hrow⟩ := fresh_of_stage hbase
    refine (h.lift hbase).addItem hfresh fun batchId hpayload => ?_
    injection hpayload with hid
    rw [← hid]
    refine ⟨hrow, fun i hi hi' => ?_⟩
    -- The id of the batch is new, so no item has it yet.
    obtain ⟨b, hb, hbid⟩ := List.mem_map.mp (h.rows i hi _ hi')
    exact (State.fresh_iff.mp hnew).1 b hb hbid
  | stageNative hfresh => exact h.addItem hfresh fun batchId hpayload => by cases hpayload
  | cleanup hbase _ _ _ => exact h.lift hbase
  | @approveBatch r workspaceId itemId batchId owner item hidle _ hitem hid _ hpayload =>
    -- The review is of the item that was found, and has begun nothing.
    refine h.unbegunReview (by rw [hidle]; rfl) (fun itemId' heq => ?_) (fun _ => by rw [hidle]; rfl)
    obtain rfl := Option.some.inj heq
    exact ⟨item, hitem, hid, hpayload⟩
  | @approveNative r workspaceId itemId owner item action threadIds hidle _ hitem hid _ hpayload =>
    refine h.unbegunReview (by rw [hidle]; rfl) (fun itemId' heq => ?_) (fun _ => by rw [hidle]; rfl)
    obtain rfl := Option.some.inj heq
    exact ⟨item, hitem, hid, action, threadIds, hpayload⟩
  | execute hreview hbase => exact (h.takeUp hreview).lift hbase
  | @reported r linked iso workspaceId itemId batchId hreview =>
    obtain ⟨i, hi, hid, -⟩ := h.item_of hreview rfl
    refine h.unbegunReview (by rw [hreview]; rfl) (fun itemId' heq => ?_) (fun hnot => by cases hnot)
    obtain rfl := Option.some.inj heq
    exact ⟨i, hi, hid, trivial⟩
  | @finish r count itemId batchId base hreview hbase =>
    obtain ⟨i, hi, hid, -⟩ := h.item_of hreview rfl
    -- The run of the review has ended with its outcome.
    refine (h.lift hbase).setReview (fun itemId' heq => ?_) (fun _ _ => .inr ?_) (fun hnot => ?_)
      (fun hnot => ?_)
    · obtain rfl := Option.some.inj heq
      exact ⟨i, hi, hid, trivial⟩
    · exact ended_of_finish hbase
    · cases hnot
    · cases hnot
  | @move r itemId disposition threadId left hreview =>
    have hsuits := h.item_of hreview rfl
    have hmoving : ItemsInv (s.setReview r (.moving itemId disposition left)) := by
      refine h.unbegunReview (by rw [hreview]; rfl) (fun itemId' heq => ?_) (fun hnot => by cases hnot)
      obtain rfl := Option.some.inj heq
      exact hsuits
    refine hmoving.note (fun r' itemId' threadId' disposition' heq => ?_) (fun _ heq => by cases heq)
    -- What is noted is a move of the item under review.
    injection heq with hr hid
    subst hr hid
    obtain ⟨i, hi, hid, action, threadIds, hpayload⟩ := hsuits
    refine ⟨⟨i, hi, hid, action, threadIds, hpayload⟩, ?_⟩
    rw [show (s.setReview r (.moving itemId disposition left)).reviews r =
      .moving itemId disposition left from Function.update_self ..]
    rfl
  | @tag r itemId disposition hreview =>
    obtain ⟨i, hi, hid, -⟩ := h.item_of hreview rfl
    refine h.unbegunReview (by rw [hreview]; rfl) (fun itemId' heq => ?_) (fun hnot => by cases hnot)
    obtain rfl := Option.some.inj heq
    exact ⟨i, hi, hid, trivial⟩
  | @mark r itemId hreview =>
    -- The run of an executed review has ended before.
    have hended : ItemsInv (s.setReview r .ended) := h.endReview fun _ _ hrunning => by
      rw [hreview] at hrunning
      cases hrunning
    exact (hended.setItem itemId .approved).note (fun _ _ _ _ heq => by cases heq)
      (fun _ heq => by cases heq)
  | @reject r workspaceId itemId item hidle _ hitem hid _ =>
    refine h.unbegunReview (by rw [hidle]; rfl) (fun itemId' heq => ?_) (fun _ => by rw [hidle]; rfl)
    obtain rfl := Option.some.inj heq
    exact ⟨item, hitem, hid, trivial⟩
  | @markRejected r itemId hreview =>
    obtain ⟨i, hi, hid, -⟩ := h.item_of hreview rfl
    have hended : ItemsInv (s.setReview r .ended) := h.endReview fun _ _ hrunning => by
      rw [hreview] at hrunning
      cases hrunning
    refine (hended.setItem itemId .rejected).note (fun _ _ _ _ heq => by cases heq)
      (fun itemId' heq => ?_)
    injection heq with heq
    subst heq
    obtain ⟨i', hi', hid', -⟩ := exists_setItem itemId .rejected hi
    exact ⟨i', hi', hid'.trans hid⟩
  | ended hrun _ => exact h.endReview hrun

theorem itemsInv_of_reachable (h : (inboxSystem lib bucket).Reachable s) : ItemsInv s := by
  refine h.invariant (fun s => ItemsInv.initial) ?_
  intro s l s' _ hinv hstep
  exact hinv.step (inboxMoves_of_step hstep)

/-! ### Each batch once -/

/-- What holds of the items and their reviews when the reviews are careful. -/
structure OnceInv (s : InboxState) : Prop where
  sole : ∀ r r' itemId, (s.reviews r).itemId? = some itemId →
    (s.reviews r').itemId? = some itemId → r = r'
  pending : ∀ r itemId, (s.reviews r).itemId? = some itemId →
    ∀ i ∈ s.items, i.id = itemId → i.state = .pending
  done : ∀ i ∈ s.items, Executed s i →
    i.state = .approved ∨ ∃ r, (s.reviews r).itemId? = some i.id ∧ Acted s r
  once : ∀ batchId, s.executionsOf batchId ≤ 1
  moves : ∀ i ∈ s.items, ∀ action threadIds, i.payload = .native action threadIds →
    s.movesOf i.id <+: threadIds
  moving : ∀ r itemId disposition left, s.reviews r = .moving itemId disposition left →
    ∀ i ∈ s.items, i.id = itemId → ∀ action threadIds, i.payload = .native action threadIds →
      s.movesOf itemId ++ left = threadIds
  rejected : ∀ itemId, .rejected itemId ∈ s.events →
    ∀ i ∈ s.items, i.id = itemId → i.state = .rejected ∧ ¬Executed s i

/-- A review that neither runs a batch nor moves threads has asked for nothing. -/
theorem ItemsInv.not_acted (h : ItemsInv s) {r : ℕ}
    (hunbegun : Review.unbegun (s.reviews r) = true)
    (hunmoved : Review.unmoved (s.reviews r) = true) : ¬Acted s r := by
  rintro (⟨⟨batchId, hbatch⟩, -⟩ | ⟨itemId, threadId, disposition, hmem⟩)
  · rw [h.unbegun r hunbegun] at hbatch
    cases hbatch
  · have hlate := (h.moved r itemId threadId disposition hmem).2
    rw [hunmoved] at hlate
    cases hlate

/-- Nothing was executed of an item whose review has asked for nothing. -/
theorem OnceInv.not_executed (h : OnceInv s) {r : ℕ} {itemId : String}
    (hreview : (s.reviews r).itemId? = some itemId) (hacted : ¬Acted s r) {i : CleanupItem}
    (hi : i ∈ s.items) (hid : i.id = itemId) : ¬Executed s i := by
  intro hexecuted
  obtain happroved | ⟨r', hreview', hacted'⟩ := h.done i hi hexecuted
  · -- The item of a review that is under way is pending.
    rw [h.pending r itemId hreview i hi hid] at happroved
    cases happroved
  · rw [hid] at hreview'
    obtain rfl := h.sole r r' itemId hreview hreview'
    exact hacted hacted'

theorem OnceInv.initial (h : (inboxSystem lib bucket).init s) : OnceInv s := by
  obtain ⟨⟨-, -, -, -, -, -, hlog⟩, hitems, hreviews, -, hevents⟩ := h
  have hnone : ∀ i, i ∉ s.items := by
    intro i hi
    rw [hitems] at hi
    exact absurd hi List.not_mem_nil
  constructor
  · intro r r' itemId hr
    rw [hreviews] at hr
    cases hr
  · exact fun r itemId _ i hi => absurd hi (hnone i)
  · exact fun i hi => absurd hi (hnone i)
  · intro batchId
    rw [executionsOf_eq, hlog]
    exact Nat.zero_le 1
  · exact fun i hi => absurd hi (hnone i)
  · exact fun r itemId _ _ _ i hi => absurd hi (hnone i)
  · exact fun itemId _ i hi => absurd hi (hnone i)

/-- A review moves on: it takes up a pending item that has no other review, stays with its
item, or ends without having asked for anything. -/
theorem OnceInv.setReview (h : OnceInv s) {r : ℕ} {review : Review}
    (hitem : ∀ itemId, review.itemId? = some itemId → (s.reviews r).itemId? = some itemId ∨
      (∀ c, (s.reviews c).itemId? ≠ some itemId) ∧
        ∀ i ∈ s.items, i.id = itemId → i.state = .pending)
    (hleave : Acted s r → review.itemId? = (s.reviews r).itemId?)
    (hmoving : ∀ itemId disposition left, review = .moving itemId disposition left →
      ∀ i ∈ s.items, i.id = itemId → ∀ action threadIds, i.payload = .native action threadIds →
        s.movesOf itemId ++ left = threadIds) : OnceInv (s.setReview r review) := by
  have hself : (s.setReview r review).reviews r = review := Function.update_self ..
  have hother : ∀ c, c ≠ r → (s.setReview r review).reviews c = s.reviews c :=
    fun c hc => Function.update_of_ne hc ..
  -- Another review of the item would have been one of it before.
  have halone : ∀ {c itemId}, c ≠ r → review.itemId? = some itemId →
      (s.reviews c).itemId? ≠ some itemId := by
    intro c itemId hcr hr hc
    obtain hstays | ⟨hfree, -⟩ := hitem itemId hr
    · exact hcr (h.sole c r itemId hc hstays)
    · exact hfree c hc
  constructor
  · -- Two reviews of one item: neither or both are the one that moves.
    intro c c' itemId hc hc'
    by_cases hcr : c = r
    · subst hcr
      rw [hself] at hc
      by_cases hcr' : c' = c
      · exact hcr'.symm
      · rw [hother c' hcr'] at hc'
        exact absurd hc' (halone hcr' hc)
    · rw [hother c hcr] at hc
      by_cases hcr' : c' = r
      · subst hcr'
        rw [hself] at hc'
        exact absurd hc (halone hcr hc')
      · rw [hother c' hcr'] at hc'
        exact h.sole c c' itemId hc hc'
  · -- The item of the moving review was pending before, or is found pending.
    intro c itemId hc i hi hid
    by_cases hcr : c = r
    · subst hcr
      rw [hself] at hc
      obtain hstays | ⟨-, hpending⟩ := hitem itemId hc
      · exact h.pending c itemId hstays i hi hid
      · exact hpending i hi hid
    · rw [hother c hcr] at hc
      exact h.pending c itemId hc i hi hid
  · -- Whoever has acted stays with the item.
    intro i hi hexecuted
    obtain happroved | ⟨c, hc, hacted⟩ := h.done i hi hexecuted
    · exact .inl happroved
    · refine .inr ⟨c, ?_, hacted⟩
      by_cases hcr : c = r
      · subst hcr
        rw [hself, hleave hacted]
        exact hc
      · rw [hother c hcr]
        exact hc
  · exact h.once
  · exact h.moves
  · intro c itemId disposition left hc
    by_cases hcr : c = r
    · subst hcr
      rw [hself] at hc
      exact hmoving itemId disposition left hc
    · rw [hother c hcr] at hc
      exact h.moving c itemId disposition left hc
  · exact h.rejected

theorem OnceInv.endReview (h : OnceInv s) {r : ℕ} (hacted : ¬Acted s r) :
    OnceInv (s.setReview r .ended) :=
  h.setReview (fun _ hnone => by cases hnone) (fun hr => absurd hr hacted)
    (fun _ _ _ heq => by cases heq)

/-- Nothing more is executed, and the items and their reviews stay. -/
theorem OnceInv.frame (h : OnceInv s) (hitems : s'.items = s.items)
    (hreviews : s'.reviews = s.reviews) (hevents : s'.events = s.events)
    (hexecutions : ∀ batchId, s'.executionsOf batchId = s.executionsOf batchId)
    (hacted : ∀ {c}, Acted s c → Acted s' c) : OnceInv s' := by
  -- The moves are read off the events.
  have hmoves : ∀ id, s'.movesOf id = s.movesOf id := by
    intro id
    unfold InboxState.movesOf
    rw [hevents]
  have hexecuted : ∀ {i}, Executed s' i → Executed s i := by
    intro i hi
    unfold Executed at hi ⊢
    split at hi
    · rw [hexecutions] at hi
      exact hi
    · rw [hmoves] at hi
      exact hi
  constructor
  · rw [hreviews]
    exact h.sole
  · rw [hreviews, hitems]
    exact h.pending
  · intro i hi hexec
    rw [hitems] at hi
    rw [hreviews]
    -- Whatever its review had asked for, it has asked for still.
    obtain happroved | ⟨c, hc, hac⟩ := h.done i hi (hexecuted hexec)
    · exact .inl happroved
    · exact .inr ⟨c, hc, hacted hac⟩
  · intro batchId
    rw [hexecutions]
    exact h.once batchId
  · intro i hi
    rw [hitems] at hi
    rw [hmoves]
    exact h.moves i hi
  · intro r itemId disposition left hr
    rw [hreviews] at hr
    rw [hitems, hmoves]
    exact h.moving r itemId disposition left hr
  · intro itemId hmem i hi hid
    rw [hevents] at hmem
    rw [hitems] at hi
    obtain ⟨hstate, hnot⟩ := h.rejected itemId hmem i hi hid
    exact ⟨hstate, fun hexec => hnot (hexecuted hexec)⟩

/-- A review takes up a batch. -/
theorem OnceInv.setBatchOf (h : OnceInv s) {r : ℕ} (batchId : String)
    (hnone : ∀ e ∈ s.base.log, e.actor? ≠ some r) : OnceInv (s.setBatchOf r batchId) := by
  refine h.frame rfl rfl rfl (executionsOf_setBatchOf batchId hnone) fun {c} hc => ?_
  obtain ⟨⟨batchId', hbatch⟩, hlog⟩ | hmoved := hc
  · refine .inl ⟨?_, hlog⟩
    by_cases hcr : c = r
    · subst hcr
      exact ⟨batchId, Function.update_self ..⟩
    · exact ⟨batchId', (Function.update_of_ne hcr ..).trans hbatch⟩
  · exact .inr hmoved

theorem Acted.mono {base : State} {c : ℕ} (h : Acted s c) (hlog : s.base.log ⊆ base.log) :
    Acted { s with base := base } c := by
  obtain ⟨hbatch, e, he, hactor⟩ | hmoved := h
  · exact .inl ⟨hbatch, e, hlog he, hactor⟩
  · exact .inr hmoved

/-- **The run of a review asks for its deletion.** The review is the only one of its item,
and the first to have something executed. -/
theorem OnceInv.execute (h : OnceInv s) (hitems : ItemsInv s) {c : ℕ} {e : Event} {base : State}
    {batchId : String} (hfirst : ∀ e ∈ s.base.log, e.actor? ≠ some c)
    (hearly : (s.base.runs c).beforeDelete = true) (hbatch : s.batchOf c = some batchId)
    (hmore : base.log = s.base.log ++ [e]) (hactor : e.actor? = some c) :
    OnceInv { s with base := base } := by
  have hlog : s.base.log ⊆ base.log := hmore ▸ List.subset_append_left _ _
  -- The run has begun and not ended, so its review is under way.
  obtain ⟨itemId, hreview⟩ : ∃ itemId, s.reviews c = .running itemId batchId := by
    refine (hitems.begun c batchId hbatch).2.resolve_right fun hended => ?_
    rw [hended] at hearly
    cases hearly
  obtain ⟨i₀, hi₀, hid₀, hpayload₀⟩ := hitems.item_of hreview rfl
  have hunder : (s.reviews c).itemId? = some itemId := by
    rw [hreview]
    rfl
  have hnot : ¬Acted s c := by
    rintro (⟨-, e', he', hactor'⟩ | ⟨itemId', threadId, disposition, hmem⟩)
    · exact hfirst e' he' hactor'
    · have hlate := (hitems.moved c itemId' threadId disposition hmem).2
      rw [hreview] at hlate
      cases hlate
  have hzero : s.executionsOf batchId = 0 := by
    have hexecuted := h.not_executed hunder hnot hi₀ hid₀
    unfold Executed at hexecuted
    rw [hpayload₀] at hexecuted
    exact Nat.eq_zero_of_not_pos hexecuted
  have hnow : Acted { s with base := base } c := by
    refine .inl ⟨⟨batchId, hbatch⟩, e, ?_, hactor⟩
    change e ∈ base.log
    rw [hmore]
    exact List.mem_append_right _ (List.mem_singleton_self e)
  -- An item of which something is executed now is that of the review, or it was executed
  -- before.
  have hexecuted : ∀ {i}, i ∈ s.items → Executed { s with base := base } i →
      i.id = itemId ∨ Executed s i := by
    intro i hi hexec
    unfold Executed at hexec ⊢
    split at hexec
    · next batchId' hpayload =>
      by_cases hsame : batchId = batchId'
      · subst hsame
        exact .inl ((hitems.batches i hi i₀ hi₀ batchId hpayload hpayload₀).trans hid₀)
      · rw [executionsOf_of_act hmore hactor, hbatch,
          if_neg fun heq => hsame (Option.some.inj heq)] at hexec
        exact .inr hexec
    · exact .inr hexec
  refine { h with
    done := fun i hi hexec => ?_, once := fun batchId' => ?_,
    rejected := fun itemId' hmem i hi hid => ?_ }
  · obtain hthis | hold := hexecuted hi hexec
    · refine .inr ⟨c, ?_, hnow⟩
      rw [hthis]
      exact hunder
    · obtain happroved | ⟨r, hr, har⟩ := h.done i hi hold
      · exact .inl happroved
      · exact .inr ⟨r, hr, har.mono hlog⟩
  · rw [executionsOf_of_act hmore hactor, hbatch]
    split
    · next heq =>
      rw [← Option.some.inj heq, hzero]
    · exact h.once batchId'
  · obtain ⟨hstate, hbefore⟩ := h.rejected itemId' hmem i hi hid
    refine ⟨hstate, fun hexec => ?_⟩
    obtain hthis | hold := hexecuted hi hexec
    · -- The item under review is pending, and not rejected.
      rw [h.pending c itemId hunder i hi hthis] at hstate
      cases hstate
    · exact hbefore hold

/-- **A step of the protocol.** It asks for nothing, or it is the run of a review that does,
or the run of no review. -/
theorem OnceInv.lift (h : OnceInv s) (hitems : ItemsInv s)
    (hacts : ∀ c, (s.base.runs c).beforeDelete = true → ∀ e ∈ s.base.log, e.actor? ≠ some c)
    {k : Label} {base : State} (hbase : Cleanup.step lib bucket s.base k = some base) :
    OnceInv { s with base := base } := by
  have hmoves := moves_of_step hbase
  have hquiet : (∀ batchId, ({ s with base := base } : InboxState).executionsOf batchId =
      s.executionsOf batchId) → OnceInv { s with base := base } :=
    fun hsame => h.frame rfl rfl rfl hsame fun hc => hc.mono (moves_grow hmoves).log
  obtain ⟨more, hmore, hnone⟩ | ⟨c, e, job, backup, hmore, hactor, -, hearly, -⟩ := moves_act hmoves
  · refine hquiet fun batchId => ?_
    rw [executionsOf_eq, executionsOf_eq]
    change base.log.countP (executes s.batchOf batchId) = _
    rw [hmore, List.countP_append, countP_executes_of_none hnone, Nat.add_zero]
  · cases hbatch : s.batchOf c with
    | none =>
      refine hquiet fun batchId => ?_
      rw [executionsOf_of_act hmore hactor, hbatch]
      exact Nat.add_zero _
    | some batchId => exact h.execute hitems (hacts c hearly) hearly hbatch hmore hactor

/-- A new item: nothing was executed of it. -/
theorem OnceInv.addItem (h : OnceInv s) (hitems : ItemsInv s) {item : CleanupItem}
    (hfresh : s.freshItem item.id = true)
    (hbatch : ∀ batchId, item.payload = .batch batchId → ∀ i ∈ s.items, i.payload ≠ .batch batchId)
    (hpending : item.state = .pending) : OnceInv (s.addItem item) := by
  have hnew : ∀ i ∈ s.items, i.id ≠ item.id := by
    intro i hi
    exact of_decide_eq_true (List.all_eq_true.mp hfresh i hi)
  have hcases : ∀ {i}, i ∈ (s.addItem item).items → i ∈ s.items ∨ i = item := by
    intro i hi
    exact (List.mem_append.mp hi).imp_right List.mem_singleton.mp
  -- Whatever was moved was moved for an item that is there.
  have hmoves : s.movesOf item.id = [] := by
    by_contra hne
    obtain ⟨r, threadId, disposition, hmem⟩ := exists_of_movesOf_ne_nil hne
    obtain ⟨⟨i, hi, hid, -⟩, -⟩ := hitems.moved r item.id threadId disposition hmem
    exact hnew i hi hid
  have hexecuted : ¬Executed (s.addItem item) item := by
    intro hexec
    unfold Executed at hexec
    split at hexec
    · next batchId hpayload =>
      obtain ⟨r, hr, -⟩ := exists_of_executionsOf_pos hexec
      obtain ⟨⟨i, hi, hpi⟩, -⟩ := hitems.begun r batchId hr
      exact hbatch batchId hpayload i hi hpi
    · exact hexec hmoves
  -- No review is one of the new item.
  have hunder : ∀ {r}, (s.reviews r).itemId? ≠ some item.id := by
    intro r hr
    obtain ⟨i, hi, hid, -⟩ := hitems.reviewed r item.id hr
    exact hnew i hi hid
  refine { h with
    pending := fun r itemId hr i hi hid => ?_, done := fun i hi hexec => ?_,
    moves := fun i hi action threadIds hpayload => ?_,
    moving := fun r itemId disposition left hr i hi hid action threadIds hpayload => ?_,
    rejected := fun itemId hmem i hi hid => ?_ }
  · rcases hcases hi with hi | rfl
    · exact h.pending r itemId hr i hi hid
    · exact hpending
  · -- The new item is new to the record.
    rcases hcases hi with hi | rfl
    · exact h.done i hi hexec
    · exact absurd hexec hexecuted
  · rcases hcases hi with hi | rfl
    · exact h.moves i hi action threadIds hpayload
    · change s.movesOf i.id <+: threadIds
      rw [hmoves]
      exact List.nil_prefix
  · rcases hcases hi with hi | rfl
    · exact h.moving r itemId disposition left hr i hi hid action threadIds hpayload
    · change s.reviews r = _ at hr
      refine absurd ?_ (hunder (r := r))
      rw [hr, hid]
      rfl
  · -- What was settled is an item of before.
    rcases hcases hi with hi | rfl
    · exact h.rejected itemId hmem i hi hid
    · obtain ⟨j, hj, hidj⟩ := hitems.settled itemId hmem
      exact absurd (hidj.trans hid.symm) (hnew j hj)

/-- The next thread of a native batch is moved. -/
theorem OnceInv.move (h : OnceInv s) (hitems : ItemsInv s) {r : ℕ} {itemId : String}
    {disposition : MessageDisposition} {threadId : Text} {left : List Text}
    (hreview : s.reviews r = .moving itemId disposition (threadId :: left)) :
    OnceInv ((s.setReview r (.moving itemId disposition left)).note
      (.moved r itemId threadId disposition)) := by
  have hunder : (s.reviews r).itemId? = some itemId := by
    rw [hreview]
    rfl
  obtain ⟨i₀, hi₀, hid₀, hsuits⟩ := hitems.item_of hreview rfl
  -- The moves of the item have one more thread, those of other items are the same.
  have hthis : ((s.setReview r (.moving itemId disposition left)).note
      (.moved r itemId threadId disposition)).movesOf itemId = s.movesOf itemId ++ [threadId] := by
    rw [movesOf_note]
    simp only [List.filterMap_cons, List.filterMap_nil, if_true]
    rfl
  have hothers : ∀ {id}, id ≠ itemId → ((s.setReview r (.moving itemId disposition left)).note
      (.moved r itemId threadId disposition)).movesOf id = s.movesOf id := by
    intro id hne
    rw [movesOf_note]
    simp only [List.filterMap_cons, List.filterMap_nil, if_neg hne.symm, List.append_nil]
    rfl
  have hself : (s.setReview r (.moving itemId disposition left)).reviews r =
      .moving itemId disposition left := Function.update_self ..
  have hother : ∀ c, c ≠ r → (s.setReview r (.moving itemId disposition left)).reviews c =
      s.reviews c := fun c hc => Function.update_of_ne hc ..
  -- The review stays with its item.
  have hids : ∀ c, ((s.setReview r (.moving itemId disposition left)).reviews c).itemId? =
      (s.reviews c).itemId? := by
    intro c
    by_cases hcr : c = r
    · subst hcr
      rw [hself, hunder]
      rfl
    · rw [hother c hcr]
  -- What is left to move is one thread shorter.
  have hsplit : ∀ i ∈ s.items, i.id = itemId → ∀ action threadIds,
      i.payload = .native action threadIds →
      (s.movesOf itemId ++ [threadId]) ++ left = threadIds := by
    intro i hi hid action threadIds hpayload
    rw [← h.moving r itemId disposition _ hreview i hi hid action threadIds hpayload,
      List.append_assoc, List.singleton_append]
  have hexecuted : ∀ {i}, i.id ≠ itemId → Executed ((s.setReview r (.moving itemId disposition
      left)).note (.moved r itemId threadId disposition)) i → Executed s i := by
    intro i hne hexec
    unfold Executed at hexec ⊢
    split at hexec
    · exact hexec
    · rw [hothers hne] at hexec
      exact hexec
  have hacted : ∀ {c}, Acted s c → Acted ((s.setReview r (.moving itemId disposition left)).note
      (.moved r itemId threadId disposition)) c := by
    intro c hc
    obtain hlog | ⟨itemId', threadId', disposition', hmem⟩ := hc
    · exact .inl hlog
    · exact .inr ⟨itemId', threadId', disposition', List.mem_append_left _ hmem⟩
  constructor
  · -- One review for each item.
    intro c c' id hc hc'
    change ((s.setReview r _).reviews c).itemId? = some id at hc
    change ((s.setReview r _).reviews c').itemId? = some id at hc'
    rw [hids] at hc hc'
    exact h.sole c c' id hc hc'
  · intro c id hc
    change ((s.setReview r _).reviews c).itemId? = some id at hc
    rw [hids] at hc
    exact h.pending c id hc
  · -- An item of which something was executed: this one, or one of before.
    intro i hi hexec
    by_cases hid : i.id = itemId
    · refine .inr ⟨r, ?_, .inr ⟨itemId, threadId, disposition, ?_⟩⟩
      · change ((s.setReview r _).reviews r).itemId? = some i.id
        rw [hids, hunder, hid]
      · exact List.mem_append_right _ (List.mem_singleton_self _)
    · obtain happroved | ⟨c, hc, hac⟩ := h.done i hi (hexecuted hid hexec)
      · exact .inl happroved
      · refine .inr ⟨c, ?_, hacted hac⟩
        change ((s.setReview r _).reviews c).itemId? = some i.id
        rw [hids]
        exact hc
  · exact h.once
  · -- The moves are a first part of the threads.
    intro i hi action threadIds hpayload
    by_cases hid : i.id = itemId
    · rw [hid, hthis, ← hsplit i hi hid action threadIds hpayload]
      exact List.prefix_append _ _
    · rw [hothers hid]
      exact h.moves i hi action threadIds hpayload
  · -- Another review moves the threads of another item.
    intro c id disposition' left' hc i hi hid action threadIds hpayload
    change (s.setReview r _).reviews c = _ at hc
    by_cases hcr : c = r
    · subst hcr
      rw [hself] at hc
      cases hc
      rw [hthis]
      exact hsplit i hi hid action threadIds hpayload
    · rw [hother c hcr] at hc
      have hne : id ≠ itemId := by
        rintro rfl
        exact hcr (h.sole c r id (by rw [hc]; rfl) hunder)
      rw [hothers hne]
      exact h.moving c id disposition' left' hc i hi hid action threadIds hpayload
  · -- A rejected item is not the one under review.
    intro id hmem i hi hid
    rcases List.mem_append.mp hmem with hold | hnew
    · obtain ⟨hstate, hnot⟩ := h.rejected id hold i hi hid
      refine ⟨hstate, fun hexec => ?_⟩
      by_cases hthat : i.id = itemId
      · rw [h.pending r itemId hunder i hi hthat] at hstate
        cases hstate
      · exact hnot (hexecuted hthat hexec)
    · cases List.mem_singleton.mp hnew

/-- The only review of an item marks it, and ends. What it has rejected it has left alone. -/
theorem OnceInv.settle (h : OnceInv s) {r : ℕ} {itemId : String} {state : AgentInboxState}
    {e : InboxEvent} (hunder : (s.reviews r).itemId? = some itemId)
    (he : e = .approved itemId ∧ state = .approved ∨
      e = .rejected itemId ∧ state = .rejected ∧ ¬Acted s r) :
    OnceInv (((s.setReview r .ended).setItem itemId state).note e) := by
  have hmoves : ∀ id, (((s.setReview r .ended).setItem itemId state).note e).movesOf id =
      s.movesOf id := by
    intro id
    rw [movesOf_note]
    obtain ⟨rfl, -⟩ | ⟨rfl, -⟩ := he
    · exact List.append_nil _
    · exact List.append_nil _
  have hself : (s.setReview r .ended).reviews r = .ended := Function.update_self ..
  have hother : ∀ c, c ≠ r → (s.setReview r .ended).reviews c = s.reviews c :=
    fun c hc => Function.update_of_ne hc ..
  -- The reviews that are left are of other items.
  have hold : ∀ {c id}, ((s.setReview r .ended).reviews c).itemId? = some id →
      c ≠ r ∧ (s.reviews c).itemId? = some id ∧ id ≠ itemId := by
    intro c id hc
    have hcr : c ≠ r := by
      rintro rfl
      rw [hself] at hc
      cases hc
    rw [hother c hcr] at hc
    refine ⟨hcr, hc, ?_⟩
    rintro rfl
    exact hcr (h.sole c r id hc hunder)
  have hexecuted : ∀ {i old : CleanupItem}, i.id = old.id → i.payload = old.payload →
      Executed (((s.setReview r .ended).setItem itemId state).note e) i → Executed s old := by
    intro i old hid hpayload hexec
    unfold Executed at hexec ⊢
    rw [hpayload] at hexec
    split at hexec
    · exact hexec
    · rw [hmoves, hid] at hexec
      exact hexec
  constructor
  · -- One review for each item.
    intro c c' id hc hc'
    exact h.sole c c' id (hold hc).2.1 (hold hc').2.1
  · intro c id hc i hi hid
    obtain ⟨-, hc, hne⟩ := hold hc
    obtain ⟨old, hmem, hidi, -, -, hsame⟩ := mem_setItem hi
    rw [hsame (fun heq => hne (hid.symm.trans (hidi.trans heq)))]
    exact h.pending c id hc old hmem (hidi.symm.trans hid)
  · -- The item is marked as executed, unless nothing of it was.
    intro i hi hexec
    obtain ⟨old, hmem, hidi, hpayload, hmarked, hsame⟩ := mem_setItem hi
    have hexec₀ := hexecuted hidi hpayload hexec
    by_cases hid : old.id = itemId
    · obtain ⟨-, rfl⟩ | ⟨-, -, hnot⟩ := he
      · exact .inl (hmarked hid)
      · exact absurd hexec₀ (h.not_executed hunder hnot hmem hid)
    · rw [hsame hid]
      obtain happroved | ⟨c, hc, hacted⟩ := h.done old hmem hexec₀
      · exact .inl happroved
      · have hcr : c ≠ r := by
          rintro rfl
          rw [hunder] at hc
          exact hid (Option.some.inj hc).symm
        refine .inr ⟨c, ?_, ?_⟩
        · change ((s.setReview r .ended).reviews c).itemId? = some old.id
          rw [hother c hcr]
          exact hc
        · obtain hlog | ⟨id, threadId, disposition, hmoved⟩ := hacted
          · exact .inl hlog
          · exact .inr ⟨id, threadId, disposition, List.mem_append_left _ hmoved⟩
  · exact h.once
  · intro i hi action threadIds hpayload
    obtain ⟨old, hmem, hidi, hpayload₀, -, -⟩ := mem_setItem hi
    rw [hmoves, hidi]
    exact h.moves old hmem action threadIds (hpayload₀ ▸ hpayload)
  · -- The threads of other reviews are as they were.
    intro c id disposition left hc i hi hid action threadIds hpayload
    change (s.setReview r .ended).reviews c = _ at hc
    have hunder' : ((s.setReview r .ended).reviews c).itemId? = some id := by
      rw [hc]
      rfl
    obtain ⟨hcr, -, -⟩ := hold hunder'
    rw [hother c hcr] at hc
    obtain ⟨old, hmem, hidi, hpayload₀, -, -⟩ := mem_setItem hi
    rw [hmoves]
    exact h.moving c id disposition left hc old hmem (hidi.symm.trans hid) action threadIds
      (hpayload₀ ▸ hpayload)
  · -- A rejected item of before, or the one that is rejected now.
    intro id hmem i hi hid
    obtain ⟨old, hmem₀, hidi, hpayload₀, hmarked, hsame⟩ := mem_setItem hi
    rcases List.mem_append.mp hmem with hbefore | hnew
    · obtain ⟨hstate, hnot⟩ := h.rejected id hbefore old hmem₀ (hidi.symm.trans hid)
      have hne : old.id ≠ itemId := by
        intro heq
        rw [h.pending r itemId hunder old hmem₀ heq] at hstate
        cases hstate
      rw [hsame hne]
      exact ⟨hstate, fun hexec => hnot (hexecuted rfl rfl hexec)⟩
    · obtain ⟨rfl, -⟩ | ⟨rfl, rfl, hnot⟩ := he
      · cases List.mem_singleton.mp hnew
      · have heq := List.mem_singleton.mp hnew
        injection heq with heq
        have hid₀ : old.id = itemId := hidi.symm.trans (hid.trans heq)
        exact ⟨hmarked hid₀, fun hexec =>
          h.not_executed hunder hnot hmem₀ hid₀ (hexecuted hidi hpayload₀ hexec)⟩

theorem OnceInv.not_executed_of_free (h : OnceInv s) {i : CleanupItem} (hi : i ∈ s.items)
    (hpending : i.state = .pending) (hfree : ∀ r, (s.reviews r).itemId? ≠ some i.id) :
    ¬Executed s i := by
  intro hexecuted
  obtain happroved | ⟨r, hr, -⟩ := h.done i hi hexecuted
  · rw [hpending] at happroved
    cases happroved
  · exact hfree r hr

/-- A review of a pending item begins. -/
theorem OnceInv.beginReview (h : OnceInv s) (hitems : ItemsInv s) {r : ℕ} {review : Review}
    {item : CleanupItem} (hidle : s.reviews r = .idle) (hitem : item ∈ s.items)
    (hpending : item.state = .pending) (hfree : ∀ c, (s.reviews c).itemId? ≠ some item.id)
    (hreview : review.itemId? = some item.id)
    (hmoving : ∀ disposition left, review = .moving item.id disposition left →
      ∀ action threadIds, item.payload = .native action threadIds → left = threadIds) :
    OnceInv (s.setReview r review) := by
  have hacted : ¬Acted s r := hitems.not_acted (by rw [hidle]; rfl) (by rw [hidle]; rfl)
  refine h.setReview (fun itemId heq => .inr ?_) (fun hr => absurd hr hacted)
    (fun itemId disposition left heq i hi hid action threadIds hpayload => ?_)
  · rw [hreview] at heq
    obtain rfl := Option.some.inj heq
    refine ⟨hfree, fun i hi hid => ?_⟩
    rw [hitems.unique hi hitem hid]
    exact hpending
  · have hsame : itemId = item.id := by
      rw [heq] at hreview
      exact Option.some.inj hreview
    subst hsame
    obtain rfl := hitems.unique hi hitem hid
    -- No thread was moved before.
    have hnot := h.not_executed_of_free hi hpending hfree
    unfold Executed at hnot
    rw [hpayload] at hnot
    rw [not_not.mp hnot, List.nil_append]
    exact hmoving disposition left heq action threadIds hpayload

theorem OnceInv.stay (h : OnceInv s) {r : ℕ} {review : Review}
    (hsame : review.itemId? = (s.reviews r).itemId?)
    (hmoving : ∀ itemId disposition left, review ≠ .moving itemId disposition left) :
    OnceInv (s.setReview r review) :=
  h.setReview (fun _ heq => .inl (hsame.symm.trans heq)) (fun _ => hsame)
    (fun itemId disposition left heq => absurd heq (hmoving itemId disposition left))

/-- **Every careful step keeps it.** -/
theorem OnceInv.step (h : OnceInv s) (hitems : ItemsInv s)
    (hacts : ∀ c, (s.base.runs c).beforeDelete = true → ∀ e ∈ s.base.log, e.actor? ≠ some c)
    (hc : Careful s l) (hmoves : InboxMoves lib bucket s l s') : OnceInv s' := by
  cases hmoves with
  | @stageBatch itemId batch base hfresh hbase =>
    obtain ⟨hnew, -⟩ := fresh_of_stage hbase
    refine (h.lift hitems hacts hbase).addItem (hitems.lift hbase) hfresh
      (fun batchId hpayload i hi hi' => ?_) rfl
    injection hpayload with hid
    subst hid
    -- The id of the batch is new, so no item has it yet.
    obtain ⟨b, hb, hbid⟩ := List.mem_map.mp (hitems.rows i hi _ hi')
    exact (State.fresh_iff.mp hnew).1 b hb hbid
  | stageNative hfresh =>
    exact h.addItem hitems hfresh (fun batchId hpayload => by cases hpayload) rfl
  | cleanup hbase _ _ _ => exact h.lift hitems hacts hbase
  | approveBatch hidle _ hitem hid hpending _ =>
    subst hid
    exact h.beginReview hitems hidle hitem hpending hc rfl fun _ _ heq => by cases heq
  | approveNative hidle _ hitem hid hpending hpayload =>
    subst hid
    refine h.beginReview hitems hidle hitem hpending hc rfl fun disposition left heq => ?_
    -- The threads of the item are all still to be moved.
    cases heq
    intro action threadIds hpayload'
    rw [hpayload] at hpayload'
    injection hpayload' with _ hsame
  | @execute r _ _ _ itemId batchId _ hreview hbase =>
    -- The review takes up the batch first, and has asked for nothing yet.
    have hnone := hacts r (by rw [idle_of_approve hbase]; rfl)
    have hrunning : OnceInv (s.setReview r (.running itemId batchId)) :=
      h.stay (by rw [hreview]; rfl) fun _ _ _ heq => by cases heq
    exact (hrunning.setBatchOf batchId hnone).lift (hitems.takeUp hreview) hacts hbase
  | reported hreview => exact h.stay (by rw [hreview]; rfl) fun _ _ _ heq => by cases heq
  | finish hreview hbase =>
    refine (h.lift hitems hacts hbase).stay ?_ fun _ _ _ heq => by cases heq
    change _ = (s.reviews _).itemId?
    rw [hreview]
    rfl
  | move hreview => exact h.move hitems hreview
  | tag hreview => exact h.stay (by rw [hreview]; rfl) fun _ _ _ heq => by cases heq
  | mark hreview => exact h.settle (by rw [hreview]; rfl) (.inl ⟨rfl, rfl⟩)
  | reject hidle _ hitem hid hpending =>
    subst hid
    exact h.beginReview hitems hidle hitem hpending hc rfl fun _ _ heq => by cases heq
  | markRejected hreview =>
    refine h.settle (by rw [hreview]; rfl) (.inr ⟨rfl, rfl, ?_⟩)
    exact hitems.not_acted (by rw [hreview]; rfl) (by rw [hreview]; rfl)
  | ended _ hwhy =>
    obtain hidle | ⟨workspaceId, itemId, batchId, hreview⟩ | rfl := hwhy
    · exact h.endReview (hitems.not_acted (by rw [hidle]; rfl) (by rw [hidle]; rfl))
    · exact h.endReview (hitems.not_acted (by rw [hreview]; rfl) (by rw [hreview]; rfl))
    · exact h.endReview hc

/-! ### The result -/

/-- **A staged cleanup is executed at most once, and not when it is rejected.** When the
reviews of an item come one after the other, and none breaks off once it has asked for a
change of a mailbox, the engine is asked at most once to execute a batch, the threads of a
native batch are moved once, in its order, and of a rejected item nothing is executed,
neither before nor after. -/
theorem executed_at_most_once (h : (inboxSystem lib bucket).ReachableUnder Careful s) :
    (∀ batchId, s.executionsOf batchId ≤ 1) ∧
      (∀ i ∈ s.items, ∀ action threadIds, i.payload = .native action threadIds →
        s.movesOf i.id <+: threadIds) ∧
      ∀ i ∈ s.items, .rejected i.id ∈ s.events → ¬Executed s i := by
  have hinv : OnceInv s := by
    refine h.invariant (fun s => OnceInv.initial) ?_
    intro s l s' hreach hinv hc hstep
    have hbase := (inboxOf lib bucket).reachable hreach.reachable
    exact hinv.step (itemsInv_of_reachable hreach.reachable) (not_acted_of_beforeDelete hbase) hc
      (inboxMoves_of_step hstep)
  exact ⟨hinv.once, hinv.moves, fun i hi hrejected => (hinv.rejected i.id hrejected i hi rfl).2⟩

/-- A batch of two messages, to be moved to the trash. -/
def trashBatch (id : String) : CleanupBatch :=
  ⟨id, "ws", .gmail, .trash, .pending, sampleRows, "category:promotions".toList, none, none⟩

/-- One item is approved, and then another one is rejected. -/
theorem executed_at_most_once_run : ∃ s,
    (inboxSystem sampleLibrary "archives").ReachableUnder Careful s ∧
    s.executionsOf "b" = 1 ∧ .rejected "j" ∈ s.events ∧
    ((∀ batchId, s.executionsOf batchId ≤ 1) ∧
      (∀ i ∈ s.items, ∀ action threadIds, i.payload = .native action threadIds →
        s.movesOf i.id <+: threadIds) ∧
      ∀ i ∈ s.items, .rejected i.id ∈ s.events → ¬Executed s i) := by
  have r0 : (inboxSystem sampleLibrary "archives").ReachableUnder Careful emptyInbox :=
    .init emptyInbox_init
  have r1 := r0.next (.stageBatch "i" (trashBatch "b")) trivial rfl
  have r2 := r1.next (.stageBatch "j" (trashBatch "c")) trivial rfl
  have r3 := r2.next (.approve 0 "ws" "i" true) (fun _ hreview => by cases hreview) rfl
  have r4 := r3.next (.execute 0 true "2026-01-01T00-00-00-000Z") trivial rfl
  have r5 := r4.next (.finish 0 2) trivial rfl
  have r6 := r5.next (.mark 0) trivial rfl
  have r7 := r6.next (.reject 1 "ws" "j") (fun r hreview => by
    -- The first review has ended, and the others have not begun.
    cases r with
    | zero => cases hreview
    | succ r => cases hreview) rfl
  have r8 := r7.next (.markRejected 1) trivial rfl
  obtain ⟨s, hreach, hone, hrejected⟩ : ∃ s,
      (inboxSystem sampleLibrary "archives").ReachableUnder Careful s ∧
      s.executionsOf "b" = 1 ∧ .rejected "j" ∈ s.events :=
    ⟨_, r8, rfl, List.mem_cons_of_mem _ (List.mem_singleton_self _)⟩
  exact ⟨s, hreach, hone, hrejected, executed_at_most_once hreach⟩

/-- Two approvals have a batch executed twice. A rejection between the two reads of an
approval is a rejection of what is executed. -/
theorem reviews_interfere :
    (∃ s, (inboxSystem sampleLibrary "archives").Reachable s ∧ s.executionsOf "b" = 2) ∧
    ∃ s, (inboxSystem sampleLibrary "archives").Reachable s ∧ .rejected "i" ∈ s.events ∧
      s.executionsOf "b" = 1 := by
  let twice : List InboxLabel :=
    [.stageBatch "i" (trashBatch "b"), .approve 0 "ws" "i" true, .approve 1 "ws" "i" true,
      .execute 0 true "2026-01-01T00-00-00-000Z", .execute 1 true "2026-01-01T00-00-01-000Z"]
  let beside : List InboxLabel :=
    [.stageBatch "i" (trashBatch "b"), .approve 0 "ws" "i" true, .reject 1 "ws" "i",
      .markRejected 1, .execute 0 true "2026-01-01T00-00-00-000Z"]
  have htwice : ((inboxSystem sampleLibrary "archives").exec emptyInbox twice).isSome = true := rfl
  have hbeside : ((inboxSystem sampleLibrary "archives").exec emptyInbox beside).isSome = true :=
    rfl
  constructor
  · exact ⟨_, System.exec_reachable emptyInbox_init (Option.some_get htwice).symm, rfl⟩
  · exact ⟨_, System.exec_reachable emptyInbox_init (Option.some_get hbeside).symm,
      List.mem_singleton_self _, rfl⟩

end Inbox
end Cleanup
end EmailOps
