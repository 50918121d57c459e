import EmailOps.Mailboxes.Provisioning

/-!
# The limit of mailboxes

A workspace whose policy limits its mailboxes should not get more of them than that, in
whichever way they are created.

* `Capped` says of a state that no row was added past the limit that was set then.
* `overgrown` are two runs in which one is: the agent's tool does not look at the limit, and
  two calls of the REST endpoint count before either has written.
* `Admissible` is the condition: what does not count finds room, and what has counted is
  right still. `capped_of_admissible` is the result.
-/

namespace EmailOps
namespace Mailboxes

open Framework EngineAdmin

/-- **The guarantee.** No row was added past the limit of its workspace. -/
def Capped (s : State) : Prop :=
  ∀ g ∈ s.growths, ∀ max ∈ g.limit, g.count ≤ max

/-- The workspace may have one more mailbox. -/
def State.HasRoom (s : State) (workspaceId : String) : Prop :=
  ∀ max ∈ s.limit workspaceId, countMailboxes s.tenant workspaceId < max

instance (s : State) (workspaceId : String) : Decidable (s.HasRoom workspaceId) :=
  inferInstanceAs (Decidable (∀ max ∈ s.limit workspaceId, _))

/-- No mailbox has come since the count, and the limit was not lowered. Where there was none
to count for, there is none. -/
def State.StillCounted (s : State) (workspaceId : String) : Option Counted → Prop
  | none => s.limit workspaceId = none
  | some counted =>
    countMailboxes s.tenant workspaceId ≤ counted.count ∧
      ∀ max ∈ s.limit workspaceId, counted.max ≤ max

instance (s : State) (workspaceId : String) (counted : Option Counted) :
    Decidable (s.StillCounted workspaceId counted) := by
  cases counted with
  | none => exact inferInstanceAs (Decidable (_ = _))
  | some counted => exact inferInstanceAs (Decidable (_ ∧ ∀ max ∈ s.limit workspaceId, _))

/-- **The condition**, on each write that adds a row. -/
def Admissible (s : State) : Label → Prop
  | .next c _ =>
    match s.calls c with
    | .creating workspaceId input counted =>
      s.tenant.hasMailbox workspaceId input.emailAddress = false →
        s.StillCounted workspaceId counted
    | .provisioning workspaceId input | .replaying workspaceId ⟨_, _, .create input, _⟩ =>
      s.tenant.hasMailbox workspaceId input.emailAddress = false → s.HasRoom workspaceId
    | .connecting workspaceId _ _ address =>
      s.tenant.hasMailbox workspaceId address = false → s.HasRoom workspaceId
    | _ => True
  | _ => True

instance (s : State) (l : Label) : Decidable (Admissible s l) := by
  unfold Admissible
  split
  · split <;> infer_instance
  · infer_instance

/-! ### Counting rows -/

section Count

variable {tenant : EngineAdmin.State} {workspaceId id : String}

theorem countMailboxes_map (tenant : EngineAdmin.State) {f : AdminMailbox → AdminMailbox}
    (hf : ∀ m, (f m).workspaceId = m.workspaceId) :
    countMailboxes { tenant with mailboxes := tenant.mailboxes.map f } workspaceId =
      countMailboxes tenant workspaceId := by
  unfold countMailboxes
  rw [List.countP_map]
  refine List.countP_congr fun m _ => ?_
  rw [Function.comp_apply, hf]

theorem countMailboxes_append (m : AdminMailbox) :
    countMailboxes { tenant with mailboxes := tenant.mailboxes ++ [m] } workspaceId ≤
      countMailboxes tenant workspaceId + 1 := by
  unfold countMailboxes
  rw [List.countP_append]
  have hone := List.countP_le_length (p := fun m => decide (m.workspaceId = workspaceId)) (l := [m])
  exact Nat.add_le_add_left hone _

/-- Minting an account adds no row. -/
theorem countMailboxes_mintOnEngine (admin : WebAdmin) (created : AdminMailbox)
    (generated : Text) :
    countMailboxes (mintOnEngine tenant admin workspaceId created generated).1 workspaceId =
      countMailboxes tenant workspaceId := by
  unfold mintOnEngine
  dsimp only
  split
  · rfl
  · split
    · rfl
    · refine countMailboxes_map (tenant.note workspaceId _) fun m => ?_
      split <;> rfl

/-- **Creating a mailbox adds one row at most**, and none where the address is taken. -/
theorem countMailboxes_createMailbox (tenant : EngineAdmin.State) (admin : WebAdmin)
    (workspaceId id : String) (input : CreateMailboxInput) (generated : Text) :
    let tenant' := (createMailbox tenant admin workspaceId id input generated).1
    countMailboxes tenant' workspaceId ≤ countMailboxes tenant workspaceId + 1 ∧
      (countMailboxes tenant workspaceId < countMailboxes tenant' workspaceId →
        tenant.hasMailbox workspaceId input.emailAddress = false) := by
  dsimp only
  unfold createMailbox
  split
  · exact ⟨Nat.le_succ _, fun hmore => absurd hmore (Nat.lt_irrefl _)⟩
  · next hfree =>
    refine ⟨?_, fun _ => Bool.not_eq_true _ ▸ hfree⟩
    dsimp only
    rw [countMailboxes_mintOnEngine]
    exact countMailboxes_append _

/-- **Connecting an account adds one row at most**, and none where the address is taken. -/
theorem countMailboxes_connectExternalMailbox (tenant : EngineAdmin.State)
    (workspaceId : String) (ucUid : Option String) (id : String) (provider : ExternalProvider)
    (address : Text) (displayName : Option Text) :
    let tenant' := connectExternalMailbox tenant workspaceId ucUid id provider address displayName
    countMailboxes tenant' workspaceId ≤ countMailboxes tenant workspaceId + 1 ∧
      (countMailboxes tenant workspaceId < countMailboxes tenant' workspaceId →
        tenant.hasMailbox workspaceId address = false) := by
  dsimp only
  unfold connectExternalMailbox
  dsimp only
  split
  · -- The row of the address is rewritten.
    rw [countMailboxes_map _ fun m => by split <;> rfl]
    exact ⟨Nat.le_succ _, fun hmore => absurd hmore (Nat.lt_irrefl _)⟩
  · next hfree => exact ⟨countMailboxes_append _, fun _ => Bool.not_eq_true _ ▸ hfree⟩

end Count

/-! ### The invariant -/

/-- A call that has counted has found fewer than the limit. -/
def Call.HasCounted : Call → Prop
  | .creating _ _ (some counted) => counted.count < counted.max
  | _ => True

section Run

variable {s s' : State} {l : Label} {workspaceId : String} {tenant : EngineAdmin.State}

/-- A count that is still right has left room. -/
theorem State.StillCounted.hasRoom {counted : Option Counted}
    (h : s.StillCounted workspaceId counted)
    (hcounted : ∀ r ∈ counted, r.count < r.max) : s.HasRoom workspaceId := by
  intro max hmax
  cases counted with
  | none =>
    rw [show s.limit workspaceId = none from h] at hmax
    cases hmax
  | some r =>
    have hless := hcounted r rfl
    have hrows := h.1
    have hlimit := h.2 max hmax
    omega

/-- **A write that adds a row only where there is room keeps the guarantee.** -/
theorem Capped.write (h : Capped s)
    (hone : countMailboxes tenant workspaceId ≤ countMailboxes s.tenant workspaceId + 1)
    (hroom : countMailboxes s.tenant workspaceId < countMailboxes tenant workspaceId →
      s.HasRoom workspaceId) : Capped (s.write workspaceId tenant) := by
  intro g hg max hmax
  unfold State.write at hg
  dsimp only at hg
  split at hg
  · next hmore =>
    rcases List.mem_append.mp hg with hold | hnew
    · exact h g hold max hmax
    · obtain rfl := List.mem_singleton.mp hnew
      have hless := hroom hmore max hmax
      dsimp only
      omega
  · exact h g hg max hmax

theorem Capped.create {input : CreateMailboxInput} {fresh : Fresh} (h : Capped s)
    (hroom : s.tenant.hasMailbox workspaceId input.emailAddress = false → s.HasRoom workspaceId) :
    Capped (s.create workspaceId input fresh).1 := by
  obtain ⟨hone, hfree⟩ := countMailboxes_createMailbox s.tenant fresh.admin workspaceId fresh.id
    input fresh.generated
  exact h.write hone fun hmore => hroom (hfree hmore)

/-- **What a statement leaves**, when it is admissible: the guarantee, a call that has found
room if it has counted, and the other calls. -/
theorem run_spec {c : ℕ} {fresh : Fresh} {call' : Call} (h : Capped s)
    (hcounted : (s.calls c).HasCounted) (hadm : Admissible s (.next c fresh))
    (hrun : run s fresh (s.calls c) = some (s', call')) :
    Capped s' ∧ call'.HasCounted ∧ s'.calls = s.calls := by
  have hstays : ∀ {t : State} {call : Call}, some (t, call) = some (s', call') →
      t.growths = s.growths → t.calls = s.calls → call.HasCounted →
      Capped s' ∧ call'.HasCounted ∧ s'.calls = s.calls := by
    intro t call hsome hgrowths hcalls hcall
    obtain ⟨rfl, rfl⟩ := Prod.mk.inj (Option.some.inj hsome)
    refine ⟨?_, hcall, hcalls⟩
    intro g hg
    rw [hgrowths] at hg
    exact h g hg
  cases hcall : s.calls c with
  | idle | ended =>
    rw [hcall] at hrun
    cases hrun
  | limiting workspaceId input =>
    rw [hcall] at hrun
    simp only [run] at hrun
    split at hrun
    · exact hstays hrun rfl rfl trivial
    · exact hstays hrun rfl rfl trivial
  | counting workspaceId input max =>
    rw [hcall] at hrun
    simp only [run] at hrun
    split at hrun
    · exact hstays hrun rfl rfl trivial
    · next hroom => exact hstays hrun rfl rfl (Nat.lt_of_not_le hroom)
  | creating workspaceId input counted =>
    rw [hcall] at hrun hcounted
    simp only [Admissible, hcall] at hadm
    obtain ⟨rfl, rfl⟩ := Prod.mk.inj (Option.some.inj hrun)
    refine ⟨h.create fun hfree => (hadm hfree).hasRoom fun r hr => ?_, trivial, rfl⟩
    obtain rfl := Option.mem_def.mp hr
    exact hcounted
  | provisioning workspaceId input =>
    rw [hcall] at hrun
    simp only [Admissible, hcall] at hadm
    obtain ⟨rfl, rfl⟩ := Prod.mk.inj (Option.some.inj hrun)
    exact ⟨h.create hadm, trivial, rfl⟩
  | filing workspaceId payload =>
    rw [hcall] at hrun
    exact hstays hrun rfl rfl trivial
  | approving workspaceId requestId | rejecting workspaceId requestId =>
    rw [hcall] at hrun
    simp only [run] at hrun
    split at hrun
    · exact hstays hrun rfl rfl trivial
    · exact hstays hrun rfl rfl trivial
  | claimed workspaceId requestId =>
    rw [hcall] at hrun
    simp only [run] at hrun
    split at hrun
    · exact hstays hrun rfl rfl trivial
    · exact hstays hrun rfl rfl trivial
  | replaying workspaceId request =>
    rw [hcall] at hrun
    obtain ⟨id, workspaceId', payload, state⟩ := request
    cases payload with
    | create input =>
      simp only [Admissible, hcall] at hadm
      obtain ⟨rfl, rfl⟩ := Prod.mk.inj (Option.some.inj hrun)
      exact ⟨h.create hadm, trivial, rfl⟩
    | other fails => exact hstays hrun rfl rfl trivial
  | stamping requestId state =>
    rw [hcall] at hrun
    exact hstays hrun rfl rfl trivial
  | connecting workspaceId ucUid body address =>
    rw [hcall] at hrun
    simp only [Admissible, hcall] at hadm
    obtain ⟨rfl, rfl⟩ := Prod.mk.inj (Option.some.inj hrun)
    obtain ⟨hone, hfree⟩ := countMailboxes_connectExternalMailbox s.tenant workspaceId
      (some ucUid) fresh.id body.provider address body.displayName
    exact ⟨h.write hone fun hmore => hadm (hfree hmore), trivial, rfl⟩

variable [CaseMapping]

theorem hasCounted_first (r : Request) : (first s r).HasCounted := by
  cases r <;> simp only [first] <;> (repeat' split) <;> trivial

/-- **The invariant.** -/
structure CapInv (s : State) : Prop where
  counted : ∀ c, (s.calls c).HasCounted
  capped : Capped s

/-- **A step keeps the invariant.** -/
theorem CapInv.step (h : CapInv s) (hadm : Admissible s l) (hstep : system.step s l = some s') :
    CapInv s' := by
  change Mailboxes.step s l = some s' at hstep
  cases l with
  | call c r =>
    simp only [Mailboxes.step] at hstep
    split at hstep
    · obtain rfl := Option.some.inj hstep
      exact ⟨forall_update (hasCounted_first r) h.counted, h.capped⟩
    · cases hstep
  | next c fresh =>
    obtain ⟨⟨t, call'⟩, hrun, rfl⟩ := Option.map_eq_some_iff.mp hstep
    obtain ⟨hcapped, hcall, hcalls⟩ := run_spec h.capped (h.counted c) hadm hrun
    refine ⟨?_, hcapped⟩
    change ∀ c', (Function.update t.calls c call' c').HasCounted
    rw [hcalls]
    exact forall_update hcall h.counted
  | crash c =>
    obtain rfl := Option.some.inj hstep
    have hended : Call.ended.HasCounted := trivial
    exact ⟨forall_update hended h.counted, h.capped⟩
  | setPolicy workspaceId patch =>
    obtain rfl := Option.some.inj hstep
    exact ⟨h.counted, h.capped⟩

/-- **Where what does not count finds room, and what has counted is right still, no workspace
grows past its limit.** -/
theorem capped_of_admissible (h : system.ReachableUnder Admissible s) : Capped s := by
  have hinv : CapInv s := by
    refine System.ReachableUnder.invariant ?_ (fun s l s' _ hs hc hstep => hs.step hc hstep) h
    rintro s ⟨hidle, hgrowths⟩
    refine ⟨fun c => ?_, fun g hg => ?_⟩
    · rw [hidle c]
      trivial
    · rw [hgrowths] at hg
      cases hg
  exact hinv.capped

end Run

/-! ### One mailbox is allowed -/

/-- Acme may have one mailbox, and any member may create it. -/
def oneMailbox : State where
  tenant := ⟨[], [], [], []⟩
  policies _ := some ⟨.anyMember, .anyMember, .admin, false, some 1⟩
  requests := []
  calls _ := .idle
  growths := []

theorem oneMailbox_init : system.init oneMailbox := ⟨fun _ => rfl, rfl⟩

/-- The input for a shared mailbox. -/
def shared (address : String) : CreateMailboxInput where
  emailAddress := address.toList
  displayName := none
  ownerKind := none
  ownerKey := none
  postmarkLane := none

/-- An id, where there is no engine. -/
def unminted (id : String) : Fresh where
  id := id
  admin := ⟨false, fun _ => none⟩
  generated := []

/-- A call of the REST endpoint, up to its write. -/
def restUpToWrite (c : ℕ) (address : String) : List Label :=
  [.call c (.create "acme" "ada" .member (shared address)), .next c (unminted ""),
    .next c (unminted "")]

/-- The second mailbox is refused. -/
theorem capped_of_admissible_second : ∃ s, Capped s ∧ countMailboxes s.tenant "acme" = 1 := by
  let run : List Label :=
    restUpToWrite 0 "a@acme.test" ++ [.next 0 (unminted "m1")] ++ restUpToWrite 1 "b@acme.test"
  have hrun : (system.execUnder Admissible oneMailbox run).isSome = true := rfl
  exact ⟨_, capped_of_admissible (System.execUnder_reachable (.init oneMailbox_init)
    (Option.some_get hrun).symm), rfl⟩

/-- The agent's tool creates a second mailbox. -/
def toolRun : List Label :=
  restUpToWrite 0 "a@acme.test" ++ [.next 0 (unminted "m1"),
    .call 1 (.provisionMailbox "acme" "ada" .member (shared "b@acme.test")),
    .next 1 (unminted "m2")]

/-- Two calls of the REST endpoint count before either writes. -/
def raceRun : List Label :=
  restUpToWrite 0 "a@acme.test" ++ restUpToWrite 1 "b@acme.test" ++
    [.next 0 (unminted "m1"), .next 1 (unminted "m2")]

/-- **Two mailboxes where one is allowed.** -/
theorem overgrown :
    (∃ s, system.exec oneMailbox toolRun = some s ∧ system.Reachable s ∧ ¬ Capped s) ∧
      ∃ s, system.exec oneMailbox raceRun = some s ∧ system.Reachable s ∧ ¬ Capped s := by
  have hmany : ∀ {run : List Label} {s : State}, system.exec oneMailbox run = some s →
      ⟨"acme", 2, some 1⟩ ∈ s.growths → system.Reachable s ∧ ¬ Capped s := by
    intro run s hexec hg
    exact ⟨System.exec_reachable oneMailbox_init hexec,
      fun hcapped => absurd (hcapped _ hg 1 rfl) (by decide)⟩
  have htool : (system.exec oneMailbox toolRun).isSome = true := rfl
  have hrace : (system.exec oneMailbox raceRun).isSome = true := rfl
  constructor
  · exact ⟨_, (Option.some_get htool).symm,
      hmany (Option.some_get htool).symm (List.mem_cons_of_mem _ List.mem_cons_self)⟩
  · exact ⟨_, (Option.some_get hrace).symm,
      hmany (Option.some_get hrace).symm (List.mem_cons_of_mem _ List.mem_cons_self)⟩

end Mailboxes
end EmailOps
