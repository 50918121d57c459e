import Mathlib.Logic.Relation
import EmailOps.Framework.Claims
import EmailOps.Mailboxes.Requests

/-!
# What becomes of a provisioning request

* `Moves` are the transitions of a request. `Guarantee` says of a state that no request was
  replayed twice, that none that is rejected was replayed, and that each is where the
  transitions lead from the pending state.
* `effect_of_step` says what a step does to the requests, the calls and the replays.
* `claimsOf` sees the protocol as the machine of claimed tasks, on which the workers are the
  calls of `approve`; `claims` says that this is a simulation.
* `requests_guarantee`: the guarantee holds in every run, and on from any of its states a
  request only moves by the transitions.
-/

namespace EmailOps
namespace Mailboxes
namespace Requests

open Framework Relation

/-! ### The guarantee -/

/-- The transitions of a request. -/
inductive Moves : ProvisioningRequestState → ProvisioningRequestState → Prop
  | claim : Moves .pending .approved
  | reject : Moves .pending .rejected
  | apply : Moves .approved .applied
  | fail : Moves .approved .failed

/-- No transition leads on. -/
def Terminal (st : ProvisioningRequestState) : Prop :=
  ∀ st', ¬Moves st st'

/-- How often a request was replayed, whatever came of it. -/
def State.replaysOf (s : State) (id : String) : ℕ :=
  s.replays.countP (·.requestId = id)

/-- **The guarantee.** -/
structure Guarantee (s : State) : Prop where
  once : ∀ id, s.replaysOf id ≤ 1
  rejected : ∀ r ∈ s.requests, r.state = .rejected → s.replaysOf r.id = 0
  states : ∀ r ∈ s.requests, ReflTransGen Moves .pending r.state
  terminal : ∀ r ∈ s.requests, Terminal r.state →
    r.state = .rejected ∨ r.state = .applied ∨ r.state = .failed

/-- Each request of the first state is in the second, moved on by the transitions. -/
def MovedOn (s s' : State) : Prop :=
  ∀ r ∈ s.requests, ∃ r' ∈ s'.requests, r'.id = r.id ∧ ReflTransGen Moves r.state r'.state

theorem MovedOn.refl (s : State) : MovedOn s s :=
  fun r hr => ⟨r, hr, rfl, .refl⟩

theorem MovedOn.trans {s s' s'' : State} (h : MovedOn s s') (h' : MovedOn s' s'') :
    MovedOn s s'' := by
  intro r hr
  obtain ⟨r', hr', hid, hmoves⟩ := h r hr
  obtain ⟨r'', hr'', hid', hmoves'⟩ := h' r' hr'
  exact ⟨r'', hr'', hid'.trans hid, hmoves.trans hmoves'⟩

/-! ### What a step does -/

variable {s s' : State} {l : Label}

/-- The request that a call of `approve` has claimed, and whether it has replayed it. -/
def Call.held : Call → Option (String × Bool)
  | .claimed _ _ id => some (id, false)
  | .replaying _ _ req => some (req.id, false)
  | .stamping _ _ req _ => some (req.id, (canonicalCall req).toBool)
  | .idle | .approving _ _ _ | .rejecting _ _ _ _ | .missed _ _ | .ended _ => none

/-- A row is put in the place of the one of its id. -/
def replaceRow (requests : List ProvisioningRequest) (r : ProvisioningRequest) :
    List ProvisioningRequest :=
  requests.map fun q => if q.id = r.id then r else q

/-- What a step does to the requests, the calls and the replays. -/
inductive Effect (s s' : State) : Prop
  | kept (hrequests : s'.requests = s.requests) (hcalls : s'.calls = s.calls)
      (hreplays : s'.replays = s.replays)
  /-- A call moves on, with what it has claimed or without. -/
  | moved (c : ℕ) (call : Call) (hheld : call.held = (s.calls c).held ∨ call.held = none)
      (hrequests : s'.requests = s.requests) (hcalls : s'.calls = Function.update s.calls c call)
      (hreplays : s'.replays = s.replays)
  | filed (req : ProvisioningRequest) (hpending : req.state = .pending)
      (hfresh : ∀ r ∈ s.requests, r.id ≠ req.id) (hrequests : s'.requests = s.requests ++ [req])
      (hcalls : s'.calls = s.calls) (hreplays : s'.replays = s.replays)
  | claimed (c : ℕ) (call : Call) (r r' : ProvisioningRequest) (hr : r ∈ s.requests)
      (hpending : r.state = .pending) (hid : r'.id = r.id) (hstate : r'.state = .approved)
      (hheld : call.held = some (r.id, false)) (hrequests : s'.requests = replaceRow s.requests r')
      (hcalls : s'.calls = Function.update s.calls c call) (hreplays : s'.replays = s.replays)
  | rejected (c : ℕ) (call : Call) (r r' : ProvisioningRequest) (hr : r ∈ s.requests)
      (hpending : r.state = .pending) (hid : r'.id = r.id) (hstate : r'.state = .rejected)
      (hfree : (s.calls c).held = none) (hheld : call.held = none)
      (hrequests : s'.requests = replaceRow s.requests r')
      (hcalls : s'.calls = Function.update s.calls c call) (hreplays : s'.replays = s.replays)
  | replayed (c : ℕ) (call : Call) (replay : Replay)
      (hfirst : (s.calls c).held = some (replay.requestId, false))
      (hheld : call.held = some (replay.requestId, true)) (hrequests : s'.requests = s.requests)
      (hcalls : s'.calls = Function.update s.calls c call)
      (hreplays : s'.replays = s.replays ++ [replay])
  | stamped (c : ℕ) (call : Call) (r r' : ProvisioningRequest) (b : Bool) (hr : r ∈ s.requests)
      (hclaimed : (s.calls c).held = some (r.id, b)) (hid : r'.id = r.id)
      (hstate : r'.state = .applied ∨ r'.state = .failed) (hheld : call.held = none)
      (hrequests : s'.requests = replaceRow s.requests r')
      (hcalls : s'.calls = Function.update s.calls c call) (hreplays : s'.replays = s.replays)

theorem held_begin {workspaceId : String} {role : Workspaces.WorkspaceRole} {call : Call}
    (h : call.held = none) : (s.begin workspaceId role call).held = none := by
  unfold State.begin
  dsimp only
  split
  · exact h
  · rfl

theorem stamp_state (ucUid : Option String) (now : ℕ) (outcome : Except String String)
    (r : ProvisioningRequest) :
    (stamp ucUid now outcome r).state = .applied ∨ (stamp ucUid now outcome r).state = .failed := by
  unfold stamp
  split <;> simp

theorem stamp_id (ucUid : Option String) (now : ℕ) (outcome : Except String String)
    (r : ProvisioningRequest) : (stamp ucUid now outcome r).id = r.id := by
  unfold stamp
  split <;> rfl

theorem isPending_iff {workspaceId id : String} {r : ProvisioningRequest} :
    isPending workspaceId id r = true ↔
      r.id = id ∧ r.workspaceId = workspaceId ∧ r.state = .pending := by
  simp [isPending, and_assoc]

/-- A conditional update of the pending request of an id replaces one row. -/
theorem rewrite_pending {workspaceId id : String} {r : ProvisioningRequest}
    (hids : (s.requests.map (·.id)).Nodup) (hr : r ∈ s.requests)
    (hpending : isPending workspaceId id r = true) (f : ProvisioningRequest → ProvisioningRequest)
    (hf : (f r).id = r.id) :
    (s.rewrite (isPending workspaceId id) f).requests = replaceRow s.requests (f r) := by
  have hid := (isPending_iff.mp hpending).1
  unfold State.rewrite replaceRow
  dsimp only
  rw [hf]
  refine Table.update_eq_replace hids hr hpending fun q _ hq => ?_
  exact (isPending_iff.mp hq).1.trans hid.symm

theorem effect_of_next {c now : ℕ} (hids : (s.requests.map (·.id)).Nodup)
    (h : s.next c now (s.calls c) = some s') : Effect s s' := by
  cases hcall : s.calls c with
  | approving workspaceId ucUid id =>
    simp only [State.next, hcall] at h
    split at h
    · next hany =>
      obtain ⟨r, hr, hpending⟩ := List.any_eq_true.mp hany
      cases h
      refine .claimed c _ r (claim ucUid now r) hr (isPending_iff.mp hpending).2.2 rfl rfl ?_
        (rewrite_pending hids hr hpending _ rfl) rfl rfl
      rw [(isPending_iff.mp hpending).1]
      rfl
    · cases h
      exact .moved c _ (.inr rfl) rfl rfl rfl
  | claimed workspaceId ucUid id =>
    simp only [State.next, hcall] at h
    split at h
    · next req hfind =>
      cases h
      have hreq := List.find?_some hfind
      simp only [Bool.and_eq_true, decide_eq_true_eq] at hreq
      refine .moved c _ (.inl ?_) rfl rfl rfl
      rw [hcall, Call.held, Call.held, hreq.1]
    · cases h
      exact .moved c _ (.inr rfl) rfl rfl rfl
  | stamping workspaceId ucUid req outcome =>
    simp only [State.next, hcall] at h
    split at h
    · next r hfind =>
      cases h
      have hid : r.id = req.id := by simpa using List.find?_some hfind
      have hr := List.mem_of_find?_eq_some hfind
      refine .stamped c _ r (stamp ucUid now outcome r) (canonicalCall req).toBool hr ?_
        (stamp_id _ _ _ _) (stamp_state _ _ _ _) rfl ?_ rfl rfl
      · rw [hcall, Call.held, hid]
      · change s.requests.map _ = s.requests.map _
        rw [stamp_id, ← hid]
        refine (Table.update_eq_replace hids hr ?_ ?_).trans ?_
        all_goals simp
    · cases h
      exact .moved c _ (.inr rfl) rfl rfl rfl
  | rejecting workspaceId ucUid id note =>
    simp only [State.next, hcall] at h
    split at h
    · next r hfind =>
      cases h
      have hr := List.mem_of_find?_eq_some hfind
      have hpending := List.find?_some hfind
      exact .rejected c _ r (rejection ucUid note now r) hr (isPending_iff.mp hpending).2.2 rfl rfl
        (by rw [hcall]; rfl) rfl (rewrite_pending hids hr hpending _ rfl) rfl rfl
    · cases h
      exact .moved c _ (.inr rfl) rfl rfl rfl
  | missed workspaceId id =>
    simp only [State.next, hcall] at h
    split at h
    · cases h
      exact .moved c _ (.inr rfl) rfl rfl rfl
    · cases h
      exact .moved c _ (.inr rfl) rfl rfl rfl
  | idle | replaying _ _ _ | ended _ => simp [State.next, hcall] at h

theorem effect_of_replay {c : ℕ} {service : Except String (Option String)}
    (h : s.replay c service (s.calls c) = some s') : Effect s s' := by
  cases hcall : s.calls c with
  | replaying workspaceId ucUid req =>
    simp only [State.replay, hcall] at h
    split at h
    · next call hok =>
      cases h
      refine .replayed c _ _ ?_ ?_ rfl rfl rfl
      · rw [hcall, Call.held]
      · rw [Call.held, hok]
        rfl
    · next message herror =>
      cases h
      refine .moved c _ (.inl ?_) rfl rfl rfl
      rw [hcall, Call.held, Call.held, herror]
      rfl
  | _ => simp [State.replay, hcall] at h

theorem effect_of_step (hids : (s.requests.map (·.id)).Nodup) (h : system.step s l = some s') :
    Effect s s' := by
  change step s l = some s' at h
  cases l with
  | file req =>
    simp only [step] at h
    split at h
    · next hnew =>
      cases h
      simp only [Bool.and_eq_true, decide_eq_true_eq, List.all_eq_true] at hnew
      exact .filed req hnew.1 hnew.2 rfl rfl rfl
    · cases h
  | approve c workspaceId ucUid role id =>
    simp only [step] at h
    split at h
    · cases h
      exact .moved c _ (.inr (held_begin rfl)) rfl rfl rfl
    · cases h
  | reject c workspaceId ucUid role id note =>
    simp only [step] at h
    split at h
    · cases h
      exact .moved c _ (.inr (held_begin rfl)) rfl rfl rfl
    · cases h
  | next c now => exact effect_of_next hids h
  | replay c service => exact effect_of_replay h
  | die c =>
    cases h
    exact .moved c _ (.inr rfl) rfl rfl rfl
  | setPolicy workspaceId policy =>
    cases h
    exact .kept rfl rfl rfl

/-! ### The ids -/

theorem replaceRow_ids {requests : List ProvisioningRequest} {r : ProvisioningRequest} :
    (replaceRow requests r).map (·.id) = requests.map (·.id) := by
  unfold replaceRow
  rw [List.map_map]
  refine List.map_congr_left fun q _ => ?_
  change (if q.id = r.id then r else q).id = q.id
  split
  · next heq => exact heq.symm
  · rfl

/-- The ids stay unique. -/
theorem Effect.ids (h : Effect s s') (hids : (s.requests.map (·.id)).Nodup) :
    (s'.requests.map (·.id)).Nodup := by
  cases h with
  | kept hrequests | moved _ _ _ hrequests | replayed _ _ _ _ _ hrequests => rwa [hrequests]
  | filed req _ hfresh hrequests =>
    rw [hrequests]
    exact Table.nodup_insert hids hfresh
  | claimed _ _ _ _ _ _ _ _ _ hrequests | rejected _ _ _ _ _ _ _ _ _ _ hrequests
  | stamped _ _ _ _ _ _ _ _ _ _ hrequests =>
    rwa [hrequests, replaceRow_ids]

theorem ids_nodup (h : system.Reachable s) : (s.requests.map (·.id)).Nodup := by
  refine h.invariant (fun s h0 => ?_) fun s l s' _ hi hs => (effect_of_step hi hs).ids hi
  rw [h0.1]
  exact List.nodup_nil

/-! ### The claimed tasks -/

def ProvisioningRequestState.status : ProvisioningRequestState → Claims.Status
  | .pending => .pending
  | .approved => .claimed
  | .rejected | .canceled => .refused
  | .applied => .done
  | .failed => .failed

/-- The state of a request, by its id. -/
def State.stateOf (s : State) (id : String) : Option ProvisioningRequestState :=
  (s.requests.find? (·.id = id)).map (·.state)

/-- What the machine of claimed tasks sees. -/
def claimsOf (s : State) : Claims.State String ℕ where
  status id := (s.stateOf id).map (·.status)
  holder c := (s.calls c).held
  acted := s.replaysOf

theorem stateOf_of_mem (hids : (s.requests.map (·.id)).Nodup) {r : ProvisioningRequest}
    (hr : r ∈ s.requests) : s.stateOf r.id = some r.state := by
  have hfind := (Table.find_eq_some hids).mpr ⟨hr, rfl⟩
  rw [State.stateOf, hfind]
  rfl

theorem stateOf_filed {req : ProvisioningRequest} (hfresh : ∀ r ∈ s.requests, r.id ≠ req.id)
    (hrequests : s'.requests = s.requests ++ [req]) :
    s'.stateOf = Function.update s.stateOf req.id (some req.state) := by
  funext id
  unfold State.stateOf
  rw [hrequests, List.find?_append]
  by_cases hid : id = req.id
  · subst hid
    have hnone : s.requests.find? (·.id = req.id) = none := by simpa using hfresh
    simp [hnone]
  · rw [Function.update_of_ne hid]
    simp [Ne.symm hid]

theorem stateOf_replaced {r : ProvisioningRequest} (hr : ∃ q ∈ s.requests, q.id = r.id)
    (hrequests : s'.requests = replaceRow s.requests r) :
    s'.stateOf = Function.update s.stateOf r.id (some r.state) := by
  funext id
  unfold State.stateOf
  rw [hrequests, replaceRow, Table.find_update (fun _ hq => hq.symm)]
  by_cases hid : id = r.id
  · subst hid
    cases hq : s.requests.find? (·.id = r.id) with
    | none =>
      obtain ⟨q, hmem, hqid⟩ := hr
      exact absurd (List.find?_eq_none.mp hq q hmem) (by simpa using hqid)
    | some q =>
      have hqid : q.id = r.id := by simpa using List.find?_some hq
      simp [hqid]
  · rw [Function.update_of_ne hid]
    cases hq : s.requests.find? (·.id = id) with
    | none => rfl
    | some q =>
      have hqid : q.id = id := by simpa using List.find?_some hq
      simp [hqid, hid]

/-- A call that moves on. -/
theorem held_moved {c : ℕ} {call : Call} (hcalls : s'.calls = Function.update s.calls c call) :
    (claimsOf s').holder = Function.update (claimsOf s).holder c call.held := by
  funext d
  change (s'.calls d).held = Function.update (fun d => (s.calls d).held) c call.held d
  rw [hcalls]
  by_cases hd : d = c
  · subst hd
    simp
  · simp [Function.update_of_ne hd]

theorem status_kept (hrequests : s'.requests = s.requests) :
    (claimsOf s').status = (claimsOf s).status := by
  funext id
  simp only [claimsOf, State.stateOf, hrequests]

theorem acted_kept (hreplays : s'.replays = s.replays) :
    (claimsOf s').acted = (claimsOf s).acted := by
  funext id
  simp only [claimsOf, State.replaysOf, hreplays]

/-- A request that takes another state. -/
theorem status_update {id : String} {st : ProvisioningRequestState}
    (h : s'.stateOf = Function.update s.stateOf id (some st)) :
    (claimsOf s').status = Function.update (claimsOf s).status id (some st.status) := by
  funext id'
  simp only [claimsOf, h]
  by_cases hid : id' = id
  · subst hid
    simp
  · simp [Function.update_of_ne hid]

theorem acted_replayed {replay : Replay} (hreplays : s'.replays = s.replays ++ [replay]) :
    (claimsOf s').acted = Function.update (claimsOf s).acted replay.requestId
      ((claimsOf s).acted replay.requestId + 1) := by
  funext id
  simp only [claimsOf, State.replaysOf, hreplays]
  by_cases hid : id = replay.requestId
  · subst hid
    simp
  · rw [Function.update_of_ne hid]
    simp [State.replaysOf, Ne.symm hid]

theorem claimsOf_eq {t : Claims.State String ℕ} (hstatus : (claimsOf s).status = t.status)
    (hholder : (claimsOf s).holder = t.holder) (hacted : (claimsOf s).acted = t.acted) :
    claimsOf s = t := by
  cases t
  simp_all [claimsOf]

/-- What a step does is a step of the machine, or none. -/
theorem Effect.claims (h : Effect s s') (hids : (s.requests.map (·.id)).Nodup) :
    claimsOf s' = claimsOf s ∨
      ∃ k, Claims.system.step (claimsOf s) k = some (claimsOf s') := by
  cases h with
  | kept hrequests hcalls hreplays =>
    refine .inl (claimsOf_eq (status_kept hrequests) ?_ (acted_kept hreplays))
    simp only [claimsOf, hcalls]
  | moved c call hheld hrequests hcalls hreplays =>
    have hholder := held_moved hcalls
    rcases hheld with hheld | hheld
    · refine .inl (claimsOf_eq (status_kept hrequests) ?_ (acted_kept hreplays))
      rw [hholder, hheld]
      exact Function.update_eq_self c _
    · refine .inr ⟨.leave c, ?_⟩
      refine congrArg some (claimsOf_eq ?_ ?_ ?_).symm
      · exact status_kept hrequests
      · rw [hholder, hheld]
      · exact acted_kept hreplays
  | filed req hpending hfresh hrequests hcalls hreplays =>
    have hnone : (claimsOf s).status req.id = none := by
      have hfind : s.requests.find? (·.id = req.id) = none := by simpa using hfresh
      simp [claimsOf, State.stateOf, hfind]
    refine .inr ⟨.post req.id, ?_⟩
    refine (if_pos hnone).trans ?_
    refine congrArg some (claimsOf_eq ?_ ?_ ?_).symm
    · rw [status_update (stateOf_filed hfresh hrequests), hpending]
      rfl
    · simp only [claimsOf, hcalls]
    · exact acted_kept hreplays
  | claimed c call r r' hr hpending hid hstate hheld hrequests hcalls hreplays =>
    have hopen : (claimsOf s).status r.id = some .pending := by
      simp [claimsOf, stateOf_of_mem hids hr, hpending, ProvisioningRequestState.status]
    refine .inr ⟨.claim c r.id, ?_⟩
    refine (if_pos hopen).trans ?_
    refine congrArg some (claimsOf_eq ?_ ?_ ?_).symm
    · rw [status_update (stateOf_replaced ⟨r, hr, hid.symm⟩ hrequests), hstate, hid]
      rfl
    · rw [held_moved hcalls, hheld]
    · exact acted_kept hreplays
  | rejected c call r r' hr hpending hid hstate hfree hheld hrequests hcalls hreplays =>
    have hopen : (claimsOf s).status r.id = some .pending := by
      simp [claimsOf, stateOf_of_mem hids hr, hpending, ProvisioningRequestState.status]
    refine .inr ⟨.refuse r.id, ?_⟩
    refine (if_pos hopen).trans ?_
    refine congrArg some (claimsOf_eq ?_ ?_ ?_).symm
    · rw [status_update (stateOf_replaced ⟨r, hr, hid.symm⟩ hrequests), hstate, hid]
      rfl
    · -- A call that rejects has claimed nothing.
      rw [held_moved hcalls, hheld, ← hfree]
      exact Function.update_eq_self c _
    · exact acted_kept hreplays
  | replayed c call replay hfirst hheld hrequests hcalls hreplays =>
    have hholder : (claimsOf s).holder c = some (replay.requestId, false) := hfirst
    refine .inr ⟨.act c, ?_⟩
    change Claims.step (claimsOf s) (.act c) = _
    simp only [Claims.step, hholder]
    refine congrArg some (claimsOf_eq ?_ ?_ ?_).symm
    · exact status_kept hrequests
    · rw [held_moved hcalls, hheld]
    · exact acted_replayed hreplays
  | stamped c call r r' b hr hclaimed hid hstate hheld hrequests hcalls hreplays =>
    have hholder : (claimsOf s).holder c = some (r.id, b) := hclaimed
    refine .inr ⟨.finish c (r'.state = .applied), ?_⟩
    change Claims.step (claimsOf s) (.finish c _) = _
    simp only [Claims.step, hholder]
    refine congrArg some (claimsOf_eq ?_ ?_ ?_).symm
    · rw [status_update (stateOf_replaced ⟨r, hr, hid.symm⟩ hrequests), hid]
      rcases hstate with hstate | hstate <;> simp [hstate, ProvisioningRequestState.status]
    · rw [held_moved hcalls, hheld]
    · exact acted_kept hreplays

/-- **The protocol is a machine of claimed tasks.** -/
def claims : Simulation system
    (Claims.system : System (Claims.State String ℕ) (Claims.Label String ℕ)) where
  map := claimsOf
  init s h := by
    obtain ⟨hrequests, hcalls, hreplays⟩ := h
    refine ⟨fun id => ?_, fun c => ?_, fun id => ?_⟩
    · simp [claimsOf, State.stateOf, hrequests]
    · simp [claimsOf, hcalls, Call.held]
    · simp [claimsOf, State.replaysOf, hreplays]
  step s l s' hr hs := (effect_of_step (ids_nodup hr) hs).claims (ids_nodup hr)

theorem claims_inv (h : system.Reachable s) : Claims.Inv (claimsOf s) :=
  Claims.inv_of_reachable (claims.reachable h)

/-! ### Runs -/

/-- A request that a call has claimed is approved. -/
theorem approved_of_held (h : system.Reachable s) {c : ℕ} {b : Bool} {r : ProvisioningRequest}
    (hr : r ∈ s.requests) (hheld : (s.calls c).held = some (r.id, b)) : r.state = .approved := by
  have hclaimed := (claims_inv h).held hheld
  have hstate : (claimsOf s).status r.id = some r.state.status := by
    simp [claimsOf, stateOf_of_mem (ids_nodup h) hr]
  rw [hstate] at hclaimed
  cases hst : r.state with
  | approved => rfl
  | _ => simp [hst, ProvisioningRequestState.status] at hclaimed

/-- What a step does to the requests: nothing, or one is filed, or one makes a transition. -/
theorem requests_of_step (h : system.Reachable s) (hs : system.step s l = some s') :
    s'.requests = s.requests ∨
    (∃ req, req.state = .pending ∧ s'.requests = s.requests ++ [req]) ∨
    ∃ r ∈ s.requests, ∃ r', r'.id = r.id ∧ Moves r.state r'.state ∧
      s'.requests = replaceRow s.requests r' := by
  cases effect_of_step (ids_nodup h) hs with
  | kept hrequests | moved _ _ _ hrequests | replayed _ _ _ _ _ hrequests => exact .inl hrequests
  | filed req hpending _ hrequests => exact .inr (.inl ⟨req, hpending, hrequests⟩)
  | claimed c call r r' hr hpending hid hstate _ hrequests =>
    refine .inr (.inr ⟨r, hr, r', hid, ?_, hrequests⟩)
    rw [hpending, hstate]
    exact .claim
  | rejected c call r r' hr hpending hid hstate _ _ hrequests =>
    refine .inr (.inr ⟨r, hr, r', hid, ?_, hrequests⟩)
    rw [hpending, hstate]
    exact .reject
  | stamped c call r r' b hr hclaimed hid hstate _ hrequests =>
    refine .inr (.inr ⟨r, hr, r', hid, ?_, hrequests⟩)
    rw [approved_of_held h hr hclaimed]
    rcases hstate with hstate | hstate
    · rw [hstate]
      exact .apply
    · rw [hstate]
      exact .fail

theorem movedOn_of_step (h : system.Reachable s) (hs : system.step s l = some s') :
    MovedOn s s' := by
  intro q hq
  rcases requests_of_step h hs with hrequests | ⟨req, -, hrequests⟩ |
    ⟨r, hr, r', hid, hmoves, hrequests⟩
  · exact ⟨q, hrequests ▸ hq, rfl, .refl⟩
  · exact ⟨q, hrequests ▸ List.mem_append_left _ hq, rfl, .refl⟩
  · rw [hrequests]
    by_cases hqid : q.id = r'.id
    · obtain rfl := List.inj_on_of_nodup_map (ids_nodup h) hq hr (hqid.trans hid)
      exact ⟨r', List.mem_map.mpr ⟨q, hq, if_pos hqid⟩, hid, .single hmoves⟩
    · exact ⟨q, List.mem_map.mpr ⟨q, hq, if_neg hqid⟩, rfl, .refl⟩

/-- A run moves the requests on. -/
theorem movedOn_of_exec {ls : List Label} (h : system.Reachable s)
    (hrun : system.exec s ls = some s') : MovedOn s s' := by
  induction ls generalizing s with
  | nil =>
    obtain rfl := Option.some.inj hrun
    exact .refl s
  | cons l ls ih =>
    obtain ⟨s₁, hs, hrest⟩ := System.exec_cons_eq_some.mp hrun
    exact (movedOn_of_step h hs).trans (ih (h.step hs) hrest)

/-- Each request has come from the pending state by the transitions. -/
theorem moves_of_reachable (h : system.Reachable s) :
    ∀ r ∈ s.requests, ReflTransGen Moves .pending r.state := by
  refine h.invariant (P := fun s => ∀ r ∈ s.requests, ReflTransGen Moves .pending r.state)
    (fun s h0 => ?_) fun s l s' hreach hi hs => ?_
  · simp [h0.1]
  · intro q hq
    rcases requests_of_step hreach hs with hrequests | ⟨req, hpending, hrequests⟩ |
      ⟨r, hr, r', -, hmoves, hrequests⟩
    · exact hi q (hrequests ▸ hq)
    · rw [hrequests, List.mem_append, List.mem_singleton] at hq
      rcases hq with hq | rfl
      · exact hi q hq
      · rw [hpending]
    · rw [hrequests, replaceRow, List.mem_map] at hq
      obtain ⟨q₀, hq₀, rfl⟩ := hq
      split
      · exact (hi r hr).tail hmoves
      · exact hi q₀ hq₀

/-- A state to which the transitions lead, and from which none leads on. -/
theorem terminal_cases {st : ProvisioningRequestState} (h : ReflTransGen Moves .pending st)
    (hterminal : Terminal st) : st = .rejected ∨ st = .applied ∨ st = .failed := by
  cases st with
  | pending => exact absurd .claim (hterminal _)
  | approved => exact absurd .apply (hterminal _)
  | canceled =>
    -- No transition ends here.
    rcases ReflTransGen.cases_tail h with heq | ⟨_, _, hlast⟩
    · cases heq
    · cases hlast
  | rejected => exact .inl rfl
  | applied => exact .inr (.inl rfl)
  | failed => exact .inr (.inr rfl)

theorem guarantee_of_reachable (h : system.Reachable s) : Guarantee s where
  once := (claims_inv h).acted_le_one
  rejected r hr hrejected := by
    have hstatus : (claimsOf s).status r.id = some .refused := by
      simp [claimsOf, stateOf_of_mem (ids_nodup h) hr, hrejected,
        ProvisioningRequestState.status]
    exact (claims_inv h).unclaimed (.inr (.inr hstatus))
  states := moves_of_reachable h
  terminal r hr hterminal := terminal_cases (moves_of_reachable h r hr) hterminal

theorem Terminal.eq {st st' : ProvisioningRequestState} (h : Terminal st)
    (hmoves : ReflTransGen Moves st st') : st' = st := by
  rcases ReflTransGen.cases_head hmoves with heq | ⟨_, hfirst, -⟩
  · exact heq.symm
  · exact absurd hfirst (h _)

/-- **The guarantee holds in every state of a run.** From there on each request only moves by
the transitions, and one that is rejected is not replayed. -/
theorem requests_guarantee {ls : List Label} (h : system.Reachable s)
    (hrun : system.exec s ls = some s') :
    Guarantee s' ∧ MovedOn s s' ∧
      ∀ r ∈ s.requests, r.state = .rejected → s'.replaysOf r.id = 0 := by
  have hmoved := movedOn_of_exec h hrun
  have hguarantee := guarantee_of_reachable (System.execUnder_reachable h hrun)
  refine ⟨hguarantee, hmoved, fun r hr hrejected => ?_⟩
  have hterminal : Terminal r.state := by
    rw [hrejected]
    rintro st' ⟨⟩
  obtain ⟨r', hr', hid, hmoves⟩ := hmoved r hr
  rw [← hid]
  exact hguarantee.rejected r' hr' ((hterminal.eq hmoves).trans hrejected)

/-! ### An approval and a rejection side by side -/

def sampleRequest : ProvisioningRequest where
  id := "p1"
  workspaceId := "w1"
  kind := .agent
  action := "create"
  state := .pending
  payload := .obj [("key".toList, .str "customer-ops".toList)]
  summary := some "Create agent customer-ops"
  requestedByUcUid := some "u1"
  requestedByAgentKey := none

def sampleState : State where
  policies _ := none
  requests := []
  events := []
  calls _ := .idle
  replays := []

/-- Two approvals and a rejection begin; the first approval claims the request. -/
def sampleStart : List Label :=
  [.file sampleRequest, .approve 0 "w1" (some "u2") .admin "p1",
    .approve 1 "w1" (some "u3") .owner "p1", .reject 2 "w1" (some "u4") .admin "p1" none, .next 0 1]

/-- The others find it taken, and the first one replays it. -/
def sampleRest : List Label :=
  [.next 2 2, .next 1 3, .next 0 4, .replay 0 (.ok (some "a1")), .next 0 5, .next 2 6, .next 1 7]

theorem requests_guarantee_sample :
    ∃ s s', system.exec sampleState sampleStart = some s ∧
      system.exec s sampleRest = some s' ∧ Guarantee s' ∧ MovedOn s s' ∧
      s'.replaysOf "p1" = 1 ∧ s'.requests.map (·.state) = [.applied] := by
  have hinit : system.init sampleState := ⟨rfl, fun _ => rfl, rfl⟩
  have hstart : system.exec sampleState sampleStart = some _ := rfl
  have hreach := System.exec_reachable hinit hstart
  have hguarantee := @requests_guarantee _ _ sampleRest hreach rfl
  exact ⟨_, _, hstart, rfl, hguarantee.1, hguarantee.2.1, rfl, rfl⟩

end Requests
end Mailboxes
end EmailOps
