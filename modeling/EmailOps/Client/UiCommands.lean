import EmailOps.Framework.StableSort
import EmailOps.Framework.System
import EmailOps.Framework.Table
import EmailOps.Framework.Text

/-!
# Commands for the user interface

An agent enqueues commands addressed to a user in a workspace. The bridge in the user's
browser polls: the server deletes the user's commands in one statement and returns those that
are fresh, oldest first and `MAX_DRAIN` at most, and the bridge applies the first `MAX_APPLY`
of what it is sent.

* `State.owed` are the commands that the polls took and that were fresh then, each poll's up
  to the cap of the server, in the order in which they were enqueued.
* `Delivered` says that these are the commands the bridge has applied, or has before it, each
  once and in that order.
* `Kept` is the condition on a step: a poll takes no more fresh commands than the bridge
  applies, and no answer with commands in it is lost. `delivered_iff_kept`: the commands of a
  run are delivered if and only if each of its steps meets it.
-/

namespace EmailOps
namespace UiCommands

open Framework Framework.Text

/-! ### The server -/

inductive UiCommandKind where
  | navigate | openThread | compose | switchSpace | notify
  deriving DecidableEq, Repr

def kindToWire : UiCommandKind → String
  | .navigate => "navigate"
  | .openThread => "open_thread"
  | .compose => "compose"
  | .switchSpace => "switch_space"
  | .notify => "notify"

section

variable {Payload : Type}

/-- A row as the `DELETE` returns it. Times are in milliseconds. -/
structure UiCommandRow (Payload : Type) where
  id : String
  kind : UiCommandKind
  payload : Payload
  createdAt : ℕ
  deriving DecidableEq

/-- A row of the queue, with the user it is addressed to. -/
structure UiCommand (Payload : Type) extends UiCommandRow Payload where
  workspaceId : String
  ucUid : String

/-- A command as it is delivered. -/
structure UiCommandView (Payload : Type) where
  id : String
  kind : String
  payload : Payload
  created_at : ℕ
  deriving DecidableEq

def toView (row : UiCommandRow Payload) : UiCommandView Payload where
  id := row.id
  kind := kindToWire row.kind
  payload := row.payload
  created_at := row.createdAt

/-- Commands older than five minutes are deleted and not delivered. -/
def staleMs : ℕ := 5 * 60 * 1000

/-- How many commands the server delivers at once. -/
def maxDrain : ℕ := 50

/-- How many commands the bridge applies of one answer. -/
def maxApply : ℕ := 25

def isFresh (now : ℕ) (row : UiCommandRow Payload) : Bool :=
  now < row.createdAt + staleMs

/-- `drain`, of the rows that the `DELETE` returns. -/
def drain (now : ℕ) (rows : List (UiCommandRow Payload)) : List (UiCommandView Payload) :=
  (((rows.filter (isFresh now)).insertionSort fun a b => a.createdAt ≤ b.createdAt).take
    maxDrain).map toView

/-! ### The protocol -/

structure State (Payload : Type) where
  now : ℕ
  /-- The table, in the order in which its rows were inserted. -/
  rows : List (UiCommand Payload)
  /-- The answer that a poll of the bridge is waiting for, from when the server has it. -/
  inFlight : Option (List (UiCommandView Payload))
  /-- The session has lapsed. -/
  stopped : Bool
  /-- The commands that the bridge has applied, oldest first. -/
  applied : List (UiCommandView Payload)
  /-- The rows that were ever inserted, oldest first. -/
  enqueued : List (UiCommand Payload)
  owed : List (UiCommandRow Payload)

inductive Label (Payload : Type) where
  | tick (d : ℕ)
  | enqueue (id workspaceId ucUid : String) (kind : UiCommandKind) (payload : Payload)
  /-- The server drains for the bridge. The `DELETE` returns its rows in some order. -/
  | poll (returned : List (UiCommandRow Payload))
  /-- The bridge has the answer, and applies the commands in it. -/
  | respond
  /-- The answer is lost, or the page is closed. -/
  | lose
  /-- A poll is answered with 401, before anything is drained. -/
  | refuse
  /-- The active workspace changes. -/
  | rearm

/-- Is the row one that the bridge polls for? The drain of a blank user does nothing. -/
def isFor (workspaceId ucUid : String) (r : UiCommand Payload) : Bool :=
  !isBlank ucUid.toList && r.workspaceId = workspaceId && r.ucUid = ucUid

/-- The rows that a drain deletes. -/
def State.mine (workspaceId ucUid : String) (s : State Payload) : List (UiCommandRow Payload) :=
  (s.rows.filter (isFor workspaceId ucUid)).map (·.toUiCommandRow)

/-- Those of them that are fresh. -/
def State.fresh (workspaceId ucUid : String) (s : State Payload) : List (UiCommandRow Payload) :=
  (s.mine workspaceId ucUid).filter (isFresh s.now)

/-- The commands that the bridge will apply of the answer under way. -/
def State.coming (s : State Payload) : List (UiCommandView Payload) :=
  (s.inFlight.getD []).take maxApply

/-- The commands that the bridge has applied, or has before it. -/
def State.reached (s : State Payload) : List (UiCommandView Payload) :=
  s.applied ++ s.coming

variable [DecidableEq Payload] (workspaceId ucUid : String)

/-- One step. -/
def step (s : State Payload) : Label Payload → Option (State Payload)
  | .tick d => some { s with now := s.now + d }
  | .enqueue id workspaceId ucUid kind payload =>
    -- The id is a new one.
    if isBlank ucUid.toList || s.enqueued.any (·.id = id) then none
    else
      let row : UiCommand Payload :=
        { id := id, kind := kind, payload := payload, createdAt := s.now
          workspaceId := workspaceId, ucUid := ucUid }
      some { s with rows := s.rows ++ [row], enqueued := s.enqueued ++ [row] }
  | .poll returned =>
    if s.stopped || s.inFlight.isSome then none
    else if returned.Perm (s.mine workspaceId ucUid) then
      some { s with
        rows := s.rows.filter (!isFor workspaceId ucUid ·)
        inFlight := some (drain s.now returned)
        owed := s.owed ++ (s.fresh workspaceId ucUid).take maxDrain }
    else none
  | .respond =>
    match s.inFlight with
    | some commands =>
      some { s with applied := s.applied ++ commands.take maxApply, inFlight := none }
    | none => none
  | .lose => if s.inFlight.isSome then some { s with inFlight := none } else none
  | .refuse =>
    if s.stopped || s.inFlight.isSome then none else some { s with stopped := true }
  | .rearm => some { s with stopped := false }

/-- The protocol of a user's bridge in a workspace. Initially the queue is empty. -/
def system : System (State Payload) (Label Payload) where
  init s := s.rows = [] ∧ s.inFlight = none ∧ s.applied = [] ∧ s.enqueued = [] ∧ s.owed = []
  step := step workspaceId ucUid

/-- **The guarantee.** -/
structure Delivered (s : State Payload) : Prop where
  applied : s.reached = s.owed.map toView
  order : s.owed.Sublist (s.enqueued.map (·.toUiCommandRow))
  once : (s.reached.map (·.id)).Nodup

/-- The commands of one millisecond are returned in the order in which they were enqueued. -/
def InOrder (returned rows : List (UiCommandRow Payload)) : Prop :=
  ∀ r ∈ rows, returned.filter (·.createdAt = r.createdAt) = rows.filter (·.createdAt = r.createdAt)

instance (returned rows : List (UiCommandRow Payload)) : Decidable (InOrder returned rows) :=
  inferInstanceAs (Decidable (∀ r ∈ rows, _))

/-- A poll takes no more fresh commands than the bridge applies, in an order that the sort
mends, and no answer with a command in it is lost. -/
def Kept (s : State Payload) : Label Payload → Prop
  | .poll returned =>
    (s.fresh workspaceId ucUid).length ≤ maxApply ∧
      InOrder (returned.filter (isFresh s.now)) (s.fresh workspaceId ucUid)
  | .lose => s.coming = []
  | _ => True

instance (s : State Payload) (l : Label Payload) : Decidable (Kept workspaceId ucUid s l) := by
  cases l <;> unfold Kept <;> infer_instance

/-! ### One poll -/

omit [DecidableEq Payload] in
theorem toView_injective : Function.Injective (toView : UiCommandRow Payload → UiCommandView Payload) := by
  rintro ⟨id, kind, payload, createdAt⟩ ⟨id', kind', payload', createdAt'⟩ h
  simp only [toView, UiCommandView.mk.injEq] at h
  obtain ⟨rfl, hkind, rfl, rfl⟩ := h
  have heq : kind = kind' := by cases kind <;> cases kind' <;> simp_all [kindToWire]
  rw [heq]

omit [DecidableEq Payload] in
/-- What the sort makes of the rows that the database returns. -/
theorem sort_eq_iff {returned rows : List (UiCommandRow Payload)} (hperm : returned.Perm rows)
    (hsorted : rows.Pairwise fun a b => a.createdAt ≤ b.createdAt) :
    (returned.insertionSort fun a b => a.createdAt ≤ b.createdAt) = rows ↔
      InOrder returned rows := by
  rw [StableSort.insertionSort_eq_iff hsorted]
  constructor
  · exact fun h r _ => h r.createdAt
  · intro h t
    by_cases ht : ∃ r ∈ rows, r.createdAt = t
    · obtain ⟨r, hr, rfl⟩ := ht
      exact h r hr
    · -- There are no commands of that time in either list.
      have hnone : rows.filter (·.createdAt = t) = [] := by
        simpa [List.filter_eq_nil_iff] using ht
      have hperm' := hperm.filter (·.createdAt = t)
      rw [hnone] at hperm' ⊢
      exact hperm'.eq_nil

omit [DecidableEq Payload] in
/-- The bridge applies what a poll owes it if and only if the poll meets the condition. -/
theorem take_drain_eq_iff {returned rows : List (UiCommandRow Payload)} {now : ℕ}
    (hperm : returned.Perm rows) (hsorted : rows.Pairwise fun a b => a.createdAt ≤ b.createdAt) :
    (drain now returned).take maxApply = ((rows.filter (isFresh now)).take maxDrain).map toView ↔
      (rows.filter (isFresh now)).length ≤ maxApply ∧
        InOrder (returned.filter (isFresh now)) (rows.filter (isFresh now)) := by
  have hfresh := hperm.filter (isFresh now)
  have hiff := sort_eq_iff hfresh (hsorted.filter (isFresh now))
  unfold drain
  generalize returned.filter (isFresh now) = returned' at *
  generalize rows.filter (isFresh now) = rows' at *
  rw [← List.map_take, List.take_take, (List.map_injective_iff.mpr toView_injective).eq_iff]
  have hlength : (returned'.insertionSort fun a b => a.createdAt ≤ b.createdAt).length =
      rows'.length := by
    rw [List.length_insertionSort, hfresh.length_eq]
  constructor
  · intro h
    have hlengths := congrArg List.length h
    rw [List.length_take, List.length_take, hlength] at hlengths
    have hle : rows'.length ≤ maxApply := by
      unfold maxApply maxDrain at *
      omega
    refine ⟨hle, hiff.mp ?_⟩
    rwa [List.take_of_length_le, List.take_of_length_le] at h
    · exact hle.trans (by decide)
    · rw [hlength]
      exact hle.trans (by decide)
  · rintro ⟨hle, horder⟩
    rw [hiff.mpr horder, List.take_of_length_le, List.take_of_length_le]
    · exact hle.trans (by decide)
    · exact hle.trans (by decide)

omit [DecidableEq Payload] in
theorem length_take_drain {returned rows : List (UiCommandRow Payload)} {now : ℕ}
    (hperm : returned.Perm rows) :
    ((drain now returned).take maxApply).length ≤
      ((rows.filter (isFresh now)).take maxDrain).length := by
  have hlength := (hperm.filter (isFresh now)).length_eq
  simp only [drain, List.length_take, List.length_map, List.length_insertionSort, hlength]
  exact min_le_right _ _

/-! ### What a step does -/

/-- What is known of every state of a run. -/
structure Wf (s : State Payload) : Prop where
  sorted : (s.mine workspaceId ucUid).Pairwise fun a b => a.createdAt ≤ b.createdAt
  past : ∀ r ∈ s.mine workspaceId ucUid, r.createdAt ≤ s.now
  ids : (s.enqueued.map (·.id)).Nodup
  order : (s.owed ++ s.mine workspaceId ucUid).Sublist (s.enqueued.map (·.toUiCommandRow))

/-- What a step does to the commands that the bridge is owed and to those that reach it. -/
inductive Effect (s : State Payload) (l : Label Payload) (s' : State Payload) : Prop
  | quiet (hreached : s'.reached = s.reached) (howed : s'.owed = s.owed)
      (hkept : Kept workspaceId ucUid s l)
  | drained (commands : List (UiCommandView Payload)) (rows : List (UiCommandRow Payload))
      (hreached : s'.reached = s.reached ++ commands) (howed : s'.owed = s.owed ++ rows)
      (hle : commands.length ≤ rows.length)
      (hkept : commands = rows.map toView ↔ Kept workspaceId ucUid s l)
  | lost (commands : List (UiCommandView Payload)) (hreached : s.reached = s'.reached ++ commands)
      (howed : s'.owed = s.owed) (hkept : commands = [] ↔ Kept workspaceId ucUid s l)

variable {workspaceId ucUid} {s s' : State Payload} {l : Label Payload}

theorem effect_of_step (hs : Wf workspaceId ucUid s)
    (h : (system workspaceId ucUid).step s l = some s') :
    Effect workspaceId ucUid s l s' := by
  change step workspaceId ucUid s l = some s' at h
  cases l with
  | tick d =>
    cases h
    exact .quiet rfl rfl trivial
  | enqueue id workspaceId' ucUid' kind payload =>
    simp only [step] at h
    split at h
    · cases h
    · cases h
      exact .quiet rfl rfl trivial
  | poll returned =>
    simp only [step] at h
    split at h
    · cases h
    · next hidle =>
      split at h
      · next hperm =>
        cases h
        have hnone : s.inFlight = none := by
          simp only [Bool.or_eq_true, not_or, Option.not_isSome_iff_eq_none] at hidle
          exact hidle.2
        refine .drained ((drain s.now returned).take maxApply) _ ?_ rfl ?_ ?_
        · simp [State.reached, State.coming, hnone]
        · exact length_take_drain hperm
        · exact take_drain_eq_iff hperm hs.sorted
      · cases h
  | respond =>
    simp only [step] at h
    split at h
    · next commands hcommands =>
      cases h
      refine .quiet ?_ rfl trivial
      simp [State.reached, State.coming, hcommands]
    · cases h
  | lose =>
    simp only [step] at h
    split at h
    · cases h
      refine .lost s.coming ?_ rfl Iff.rfl
      simp [State.reached, State.coming]
    · cases h
  | refuse =>
    simp only [step] at h
    split at h
    · cases h
    · cases h
      exact .quiet rfl rfl trivial
  | rearm =>
    cases h
    exact .quiet rfl rfl trivial

/-! ### Runs -/

theorem Wf.of_init (h : (system workspaceId ucUid).init s) : Wf workspaceId ucUid s := by
  obtain ⟨hrows, -, -, henqueued, howed⟩ := h
  have hmine : s.mine workspaceId ucUid = [] := by simp [State.mine, hrows]
  constructor
  · simp [hmine]
  · simp [hmine]
  · simp [henqueued]
  · simp [hmine, howed]

omit [DecidableEq Payload] in
/-- A row of a new id is inserted now. -/
theorem Wf.enqueue (hs : Wf workspaceId ucUid s) {row : UiCommand Payload}
    (hnow : row.createdAt = s.now) (hnew : ∀ r ∈ s.enqueued, r.id ≠ row.id) :
    Wf workspaceId ucUid { s with rows := s.rows ++ [row], enqueued := s.enqueued ++ [row] } := by
  have hmine : State.mine workspaceId ucUid { s with rows := s.rows ++ [row] } =
      s.mine workspaceId ucUid ++
        if isFor workspaceId ucUid row then [row.toUiCommandRow] else [] := by
    unfold State.mine
    rw [List.filter_append, List.map_append]
    split
    · next hfor => simp [hfor]
    · next hfor => simp [hfor]
  constructor
  · change (State.mine workspaceId ucUid { s with rows := s.rows ++ [row] }).Pairwise _
    rw [hmine, List.pairwise_append]
    refine ⟨hs.sorted, ?_, fun r hr r' hr' => ?_⟩
    · split <;> simp
    · have hr'now : r'.createdAt = s.now := by
        split at hr'
        · rw [List.mem_singleton.mp hr', hnow]
        · exact absurd hr' List.not_mem_nil
      exact (hs.past r hr).trans hr'now.ge
  · intro r hr
    change r ∈ State.mine workspaceId ucUid { s with rows := s.rows ++ [row] } at hr
    rw [hmine, List.mem_append] at hr
    rcases hr with hr | hr
    · exact hs.past r hr
    · split at hr
      · rw [List.mem_singleton.mp hr]
        exact hnow.le
      · exact absurd hr List.not_mem_nil
  · exact Table.nodup_insert hs.ids hnew
  · change (s.owed ++ State.mine workspaceId ucUid { s with rows := s.rows ++ [row] }).Sublist
      ((s.enqueued ++ [row]).map _)
    rw [hmine, ← List.append_assoc, List.map_append]
    refine hs.order.append ?_
    split
    · exact List.Sublist.refl _
    · exact List.nil_sublist _

omit [DecidableEq Payload] in
/-- The rows of the bridge are deleted, and those of them that are fresh are owed. -/
theorem Wf.poll (hs : Wf workspaceId ucUid s) {inFlight : Option (List (UiCommandView Payload))} :
    Wf workspaceId ucUid { s with
      rows := s.rows.filter (!isFor workspaceId ucUid ·)
      inFlight := inFlight
      owed := s.owed ++ (s.fresh workspaceId ucUid).take maxDrain } := by
  have hmine : State.mine workspaceId ucUid
      { s with rows := s.rows.filter (!isFor workspaceId ucUid ·) } = [] := by
    simp [State.mine, List.filter_filter]
  constructor
  · change (State.mine workspaceId ucUid
      { s with rows := s.rows.filter (!isFor workspaceId ucUid ·) }).Pairwise _
    simp [hmine]
  · intro r hr
    change r ∈ State.mine workspaceId ucUid
      { s with rows := s.rows.filter (!isFor workspaceId ucUid ·) } at hr
    simp [hmine] at hr
  · exact hs.ids
  · change ((s.owed ++ _) ++ State.mine workspaceId ucUid
      { s with rows := s.rows.filter (!isFor workspaceId ucUid ·) }).Sublist _
    rw [hmine, List.append_nil]
    have htaken : ((s.fresh workspaceId ucUid).take maxDrain).Sublist (s.mine workspaceId ucUid) :=
      (List.take_sublist _ _).trans List.filter_sublist
    exact ((List.Sublist.refl _).append htaken).trans hs.order

theorem Wf.step (hs : Wf workspaceId ucUid s) (h : (system workspaceId ucUid).step s l = some s') :
    Wf workspaceId ucUid s' := by
  change UiCommands.step workspaceId ucUid s l = some s' at h
  cases l with
  | tick d =>
    cases h
    exact ⟨hs.sorted, fun r hr => (hs.past r hr).trans (Nat.le_add_right _ _), hs.ids, hs.order⟩
  | enqueue id workspaceId' ucUid' kind payload =>
    simp only [UiCommands.step] at h
    split at h
    · cases h
    · next hnew =>
      cases h
      simp only [Bool.or_eq_true, not_or, List.any_eq_true, decide_eq_true_eq, not_exists,
        not_and] at hnew
      exact hs.enqueue rfl hnew.2
  | poll returned =>
    simp only [UiCommands.step] at h
    split at h
    · cases h
    · split at h
      · cases h
        exact hs.poll
      · cases h
  | respond =>
    simp only [UiCommands.step] at h
    split at h
    · cases h
      exact ⟨hs.sorted, hs.past, hs.ids, hs.order⟩
    · cases h
  | lose =>
    simp only [UiCommands.step] at h
    split at h
    · cases h
      exact ⟨hs.sorted, hs.past, hs.ids, hs.order⟩
    · cases h
  | refuse =>
    simp only [UiCommands.step] at h
    split at h
    · cases h
    · cases h
      exact ⟨hs.sorted, hs.past, hs.ids, hs.order⟩
  | rearm =>
    cases h
    exact ⟨hs.sorted, hs.past, hs.ids, hs.order⟩

/-- Something that is owed has not reached the bridge. -/
def Missed (s : State Payload) : Prop :=
  s.reached.length ≤ s.owed.length ∧ s.reached ≠ s.owed.map toView

omit [DecidableEq Payload] in
/-- What is owed has reached the bridge, each command once. -/
theorem Wf.delivered (hs : Wf workspaceId ucUid s) (h : s.reached = s.owed.map toView) :
    Delivered s where
  applied := h
  order := (List.sublist_append_left _ _).trans hs.order
  once := by
    have howed : (s.owed.map (·.id)).Sublist (s.enqueued.map (·.id)) := by
      have horder := (List.sublist_append_left _ _).trans hs.order
      simpa [Function.comp_def] using horder.map (·.id)
    have hids : s.reached.map (·.id) = s.owed.map (·.id) := by
      rw [h, List.map_map]
      rfl
    rw [hids]
    exact hs.ids.sublist howed

theorem Wf.missed_step (hs : Wf workspaceId ucUid s) (hmissed : Missed s)
    (h : (system workspaceId ucUid).step s l = some s') : Missed s' := by
  obtain ⟨hle, hne⟩ := hmissed
  cases effect_of_step hs h with
  | quiet hreached howed _ =>
    unfold Missed
    rw [hreached, howed]
    exact ⟨hle, hne⟩
  | drained commands rows hreached howed hmore _ =>
    unfold Missed
    rw [hreached, howed, List.length_append, List.length_append, List.map_append]
    refine ⟨Nat.add_le_add hle hmore, fun heq => hne ?_⟩
    -- Had the poll made up for it, it would have brought more than it took.
    have hlengths := congrArg List.length heq
    simp only [List.length_append, List.length_map] at hlengths
    have hlength : s.reached.length = (s.owed.map toView).length := by
      rw [List.length_map]
      omega
    exact (List.append_inj heq hlength).1
  | lost commands hreached howed _ =>
    have hlength := congrArg List.length hreached
    rw [List.length_append] at hlength
    unfold Missed
    rw [howed]
    refine ⟨by omega, fun heq => hne ?_⟩
    have hlengths := congrArg List.length heq
    rw [List.length_map] at hlengths
    have hnone : commands = [] := List.length_eq_zero_iff.mp (by omega)
    rw [hreached, hnone, List.append_nil, heq]

theorem Wf.reached_step (hs : Wf workspaceId ucUid s) (hreach : s.reached = s.owed.map toView)
    (h : (system workspaceId ucUid).step s l = some s') :
    if Kept workspaceId ucUid s l then s'.reached = s'.owed.map toView else Missed s' := by
  cases effect_of_step hs h with
  | quiet hreached howed hkept =>
    rw [if_pos hkept, hreached, howed, hreach]
  | drained commands rows hreached howed hle hkept =>
    split
    · next hk => rw [hreached, howed, hreach, hkept.mpr hk, List.map_append]
    · next hk =>
      unfold Missed
      rw [hreached, howed, hreach, List.map_append, List.length_append, List.length_append,
        List.length_map]
      exact ⟨Nat.add_le_add_left hle _, fun heq => hk (hkept.mp (List.append_cancel_left heq))⟩
  | lost commands hreached howed hkept =>
    rw [hreach] at hreached
    have hlength := congrArg List.length hreached
    rw [List.length_map, List.length_append] at hlength
    split
    · next hk => rw [howed, hreached, hkept.mpr hk, List.append_nil]
    · next hk =>
      unfold Missed
      rw [howed]
      refine ⟨by omega, fun heq => hk (hkept.mp ?_)⟩
      rw [heq] at hreached
      exact List.self_eq_append_right.mp hreached

/-- **The commands of a run are delivered if and only if each of its steps meets the
condition.** -/
theorem delivered_iff_kept {ls : List (Label Payload)} (h : (system workspaceId ucUid).init s)
    (hrun : (system workspaceId ucUid).exec s ls = some s') :
    Delivered s' ↔
      (system workspaceId ucUid).execUnder (Kept workspaceId ucUid) s ls = some s' := by
  refine System.exec_iff_execUnder
    (fun s => Wf workspaceId ucUid s ∧ s.reached = s.owed.map toView)
    (fun s => Wf workspaceId ucUid s ∧ Missed s) ?_ ?_ ?_ ?_ ?_ ⟨.of_init h, ?_⟩ hrun
  · intro s l s' ⟨hs, hreach⟩ hk hstep
    have hnext := hs.reached_step hreach hstep
    rw [if_pos hk] at hnext
    exact ⟨hs.step hstep, hnext⟩
  · intro s l s' ⟨hs, hreach⟩ hk hstep
    have hnext := hs.reached_step hreach hstep
    rw [if_neg hk] at hnext
    exact ⟨hs.step hstep, hnext⟩
  · exact fun s l s' ⟨hs, hmissed⟩ hstep => ⟨hs.step hstep, hs.missed_step hmissed hstep⟩
  · exact fun s ⟨hs, hreach⟩ => hs.delivered hreach
  · exact fun s ⟨_, hmissed⟩ hdelivered => hmissed.2 hdelivered.applied
  · obtain ⟨-, hidle, happlied, -, howed⟩ := h
    simp [State.reached, State.coming, hidle, happlied, howed]

end

/-! ### A backlog -/

def sampleState : State String where
  now := 0
  rows := []
  inFlight := none
  stopped := false
  applied := []
  enqueued := []
  owed := []

/-- An agent notifies the user again and again, each time a millisecond later. -/
def notices (n : ℕ) : List (Label String) :=
  (List.range n).flatMap fun i =>
    [.enqueue (toString i) "w1" "u1" .notify ("n" ++ toString i), .tick 1]

/-- The rows of these commands. -/
def noticeRows (n : ℕ) : List (UiCommandRow String) :=
  (List.range n).map fun i =>
    { id := toString i, kind := .notify, payload := "n" ++ toString i, createdAt := i }

theorem sampleState_init : (system "w1" "u1").init sampleState :=
  ⟨rfl, rfl, rfl, rfl, rfl⟩

/-- One poll takes 26 commands, all of them fresh, and the bridge applies 25. -/
theorem last_command_is_dropped :
    ∃ s', (system "w1" "u1").init sampleState ∧
      (system "w1" "u1").exec sampleState (notices 26 ++ [.poll (noticeRows 26), .respond]) =
        some s' ∧ ¬Delivered s' := by
  refine ⟨_, sampleState_init, rfl, fun h => ?_⟩
  have hlengths := congrArg List.length h.applied
  exact absurd hlengths (by decide)

/-- A poll of two commands of one millisecond, which the database returns in order. -/
def shortRun : List (Label String) :=
  [.enqueue "c1" "w1" "u1" .navigate "/agents", .enqueue "c2" "w1" "u1" .notify "done",
    .enqueue "c3" "w1" "u2" .notify "other", .tick 1500,
    .poll [⟨"c1", .navigate, "/agents", 0⟩, ⟨"c2", .notify, "done", 0⟩], .respond]

theorem delivered_shortRun :
    ∃ s', (system "w1" "u1").exec sampleState shortRun = some s' ∧ Delivered s' ∧
      s'.applied.map (·.id) = ["c1", "c2"] := by
  have hrun : (system "w1" "u1").exec sampleState shortRun = some _ := rfl
  exact ⟨_, hrun, (delivered_iff_kept sampleState_init hrun).mpr rfl, rfl⟩

end UiCommands
end EmailOps
