import EmailOps.Auth.SignIn
import EmailOps.Framework.Table

/-!
# Accounts and identities

A row of `users` belongs to the `sub` that it is linked to. The link is written by a statement of
its own, after the row was read: a call that has found the row unlinked writes over the link
that another call has made in between.

* `Inv` holds of every run: the columns stay unique, and nobody is let in as a row that was never
  linked to the `sub`.
* `oneOwner_iff_unlinked`: rows keep their owner in exactly the runs whose links find the row as it
  was read. `grant_iff`: in these, two tokens are let in as the same row if and only if they have
  the same `sub`.
* `accounts_of_run`: who gets a row is on the access list.
-/

namespace EmailOps
namespace Auth

open Framework Framework.Text
open Workspaces (WorkspaceRole resolveUserAccess)

/-! ### Rows -/

section Rows

variable {s : State} {id : Text} {f : Account → Account}

theorem mem_rewrite {a : Account} :
    a ∈ s.rewrite id f ↔
      (∃ a₀ ∈ s.accounts, a₀.id = id ∧ a = f a₀) ∨ a ∈ s.accounts ∧ a.id ≠ id :=
  Table.mem_update

theorem exists_rewrite (id : Text) (f : Account → Account) {a : Account} (ha : a ∈ s.accounts) :
    ∃ a' ∈ s.rewrite id f, (a.id = id ∧ a' = f a) ∨ (a.id ≠ id ∧ a' = a) :=
  Table.exists_update ha

/-- Rows that agree under no unique column still do not when the `sub` of one becomes another one
that no other row has. -/
theorem distinct_rewrite (h : Distinct s.accounts) (hid : ∀ a, (f a).id = a.id)
    (hemail : ∀ a, (f a).email = a.email) (husername : ∀ a, (f a).username = a.username)
    (hsub : ∀ a ∈ s.accounts, a.id = id → ∀ b ∈ s.accounts, (f a).keycloakId ≠ none →
      (f a).keycloakId = b.keycloakId → b.id = id) : Distinct (s.rewrite id f) where
  ids := by
    rw [State.rewrite, Table.keys_update hid]
    exact h.ids
  emails := by
    rw [State.rewrite, Table.keys_update hemail]
    exact h.emails
  usernames := by
    rw [State.rewrite, Table.keys_update husername]
    exact h.usernames
  subs a ha b hb hne heq := by
    have hone : ∀ x ∈ s.accounts, ∀ y ∈ s.accounts, x.id = id → y.id = id → x = y :=
      fun x hx y hy hxid hyid => List.inj_on_of_nodup_map h.ids hx hy (hxid.trans hyid.symm)
    rcases mem_rewrite.mp ha with ⟨a₀, ha₀, haid, rfl⟩ | ⟨ha, haid⟩
    · rcases mem_rewrite.mp hb with ⟨b₀, hb₀, hbid, rfl⟩ | ⟨hb, hbid⟩
      · rw [hone a₀ ha₀ b₀ hb₀ haid hbid]
      · exact absurd (hsub a₀ ha₀ haid b hb hne heq) hbid
    · rcases mem_rewrite.mp hb with ⟨b₀, hb₀, hbid, rfl⟩ | ⟨hb, -⟩
      · exact absurd (hsub b₀ hb₀ hbid a ha (heq ▸ hne) heq.symm) haid
      · exact h.subs a ha b hb hne heq

theorem distinct_keepsKeys (h : Distinct s.accounts) (hf : KeepsKeys f) :
    Distinct (s.rewrite id f) :=
  distinct_rewrite h hf.id hf.email hf.username fun a ha haid b hb hne heq => by
    rw [hf.keycloakId] at hne heq
    rw [← h.subs a ha b hb hne heq, haid]

theorem distinct_append {account : Account} (h : Distinct s.accounts)
    (hnew : ∀ a ∈ s.accounts, State.clash account a = false) :
    Distinct (s.accounts ++ [account]) := by
  have hfresh : ∀ a ∈ s.accounts, account.id ≠ a.id ∧ account.email ≠ a.email ∧
      account.username ≠ a.username ∧ account.keycloakId ≠ a.keycloakId := by
    intro a ha
    have hclash := hnew a ha
    simp only [State.clash, Bool.or_eq_false_iff, decide_eq_false_iff_not] at hclash
    exact ⟨hclash.1.1.1, hclash.1.1.2, hclash.1.2, hclash.2⟩
  refine ⟨Table.nodup_insert h.ids fun a ha => (hfresh a ha).1.symm,
    Table.nodup_insert h.emails fun a ha => (hfresh a ha).2.1.symm,
    Table.nodup_insert h.usernames fun a ha => (hfresh a ha).2.2.1.symm, ?_⟩
  intro a ha b hb hne heq
  rcases List.mem_append.mp ha with ha | ha <;> rcases List.mem_append.mp hb with hb | hb
  · exact h.subs a ha b hb hne heq
  · rw [List.mem_singleton.mp hb] at heq
    exact absurd heq.symm (hfresh a ha).2.2.2
  · rw [List.mem_singleton.mp ha] at heq
    exact absurd heq (hfresh b hb).2.2.2
  · rw [List.mem_singleton.mp ha, List.mem_singleton.mp hb]

/-- Two states of a row. -/
structure SameRow (a b : Account) : Prop where
  id : b.id = a.id
  email : b.email = a.email
  username : b.username = a.username

theorem KeepsKeys.sameRow {f : Account → Account} (hf : KeepsKeys f) (a : Account) :
    SameRow a (f a) :=
  ⟨hf.id a, hf.email a, hf.username a⟩

theorem SameRow.refl (a : Account) : SameRow a a :=
  ⟨rfl, rfl, rfl⟩

theorem SameRow.trans {a b c : Account} (h : SameRow a b) (h' : SameRow b c) : SameRow a c :=
  ⟨h'.id.trans h.id, h'.email.trans h.email, h'.username.trans h.username⟩

end Rows

/-! ### What every run keeps -/

/-- What holds of every run. -/
structure Inv (s : State) : Prop where
  distinct : Distinct s.accounts
  /-- What a row is linked to is remembered. -/
  linked : ∀ a ∈ s.accounts, ∀ sub, a.keycloakId = some sub → (a.id, sub) ∈ s.bindings
  /-- The row of a call was linked to its `sub`. -/
  found : ∀ c sub profile account, s.calls c = .found sub profile account →
    (account.id, sub) ∈ s.bindings
  /-- So was the row that somebody was let in as. -/
  granted : ∀ sub a, .account sub a ∈ s.grants → (a.id, sub) ∈ s.bindings

theorem Inv.of_starts {s : State} (h : Starts s) : Inv s where
  distinct := h.1
  linked a ha sub hsub := by
    rw [h.2.2.1]
    exact List.mem_filterMap.mpr ⟨a, ha, by rw [hsub, Option.map_some]⟩
  found c sub profile account hc := by
    rw [h.2.1] at hc
    cases hc
  granted sub a ha := by
    rw [h.2.2.2] at ha
    cases ha

section Step

variable [CaseMapping] {env : Env} {s s' : State} {l : Label}

/-- **A step keeps the invariant.** -/
theorem Inv.step (h : Inv s) (hstep : step env s l = some s') : Inv s' := by
  cases effect_of_step hstep with
  | stays id hf haccounts hbindings hgrants hcalls =>
    refine ⟨haccounts ▸ distinct_keepsKeys h.distinct hf, ?_, ?_, ?_⟩
    · intro a ha sub hsub
      rw [hbindings]
      rw [haccounts] at ha
      rcases mem_rewrite.mp ha with ⟨a₀, ha₀, -, rfl⟩ | ⟨ha, -⟩
      · rw [hf.keycloakId] at hsub
        rw [hf.id]
        exact h.linked a₀ ha₀ sub hsub
      · exact h.linked a ha sub hsub
    · intro c sub profile account hc
      rw [hbindings]
      rcases hcalls c sub profile account hc with hc | hfind
      · exact h.found c sub profile account hc
      · obtain ⟨hmem, hsub⟩ := bySub_eq_some hfind
        exact h.linked account hmem sub hsub
    · intro sub a ha
      rw [hbindings]
      rcases hgrants sub a ha with ha | ⟨c, profile, account, hc, hid⟩
      · exact h.granted sub a ha
      · rw [hid]
        exact h.found c sub profile account hc
  | @linked c fresh sub profile account hlabel hcall hfind hfree heq =>
    subst heq
    refine ⟨distinct_rewrite h.distinct (fun _ => rfl) (fun _ => rfl) (fun _ => rfl) ?_, ?_, ?_, ?_⟩
    · exact fun a _ _ b hb _ heq => hfree b hb heq.symm
    · intro a ha x hx
      rcases mem_rewrite.mp ha with ⟨a₀, -, hid, rfl⟩ | ⟨ha, -⟩
      · obtain rfl := Option.some.inj hx
        exact List.mem_append_right _ (by rw [← hid]; exact List.mem_singleton_self _)
      · exact List.mem_append_left _ (h.linked a ha x hx)
    · intro c' sub' profile' account' hc
      rcases update_eq_cases hc with ⟨-, heq⟩ | ⟨-, hc⟩
      · obtain ⟨rfl, -, rfl⟩ := Call.found.inj heq
        exact List.mem_append_right _ (List.mem_singleton_self _)
      · exact List.mem_append_left _ (h.found c' sub' profile' account' hc)
    · exact fun sub' a ha => List.mem_append_left _ (h.granted sub' a ha)
  | @created c sub profile account role hresolve hsub hnew heq =>
    subst heq
    refine ⟨distinct_append h.distinct hnew, ?_, ?_, ?_⟩
    · intro a ha x hx
      rcases List.mem_append.mp ha with ha | ha
      · exact List.mem_append_left _ (h.linked a ha x hx)
      · obtain rfl := List.mem_singleton.mp ha
        rw [hsub] at hx
        obtain rfl := Option.some.inj hx
        exact List.mem_append_right _ (List.mem_singleton_self _)
    · intro c' sub' profile' account' hc
      rcases update_eq_cases hc with ⟨-, heq⟩ | ⟨-, hc⟩
      · obtain ⟨rfl, -, rfl⟩ := Call.found.inj heq
        exact List.mem_append_right _ (List.mem_singleton_self _)
      · exact List.mem_append_left _ (h.found c' sub' profile' account' hc)
    · exact fun sub' a ha => List.mem_append_left _ (h.granted sub' a ha)

/-! ### Owners -/

/-- No row has been linked to two. -/
def OneOwner (s : State) : Prop :=
  ∀ id sub sub', (id, sub) ∈ s.bindings → (id, sub') ∈ s.bindings → sub = sub'

/-- No other row has the `sub`, so that a link to it goes through. -/
def State.Free (s : State) (id sub : Text) : Prop :=
  ∀ a ∈ s.accounts, a.keycloakId = some sub → a.id = id

/-- A link that goes through finds its row without a `sub`, or with its own. -/
def Unlinked (s : State) (l : Label) : Prop :=
  ∀ c fresh sub profile id account, l = .next c fresh → s.calls c = .linking sub profile id →
    s.byId id = some account → s.Free id sub →
      account.keycloakId = none ∨ account.keycloakId = some sub

/-- Every link that was ever made still stands. -/
structure Steady (s : State) : Prop where
  inv : Inv s
  stands : ∀ id sub, (id, sub) ∈ s.bindings → ∃ a ∈ s.accounts, a.id = id ∧ a.keycloakId = some sub

omit [CaseMapping] in
theorem Steady.of_starts (h : Starts s) : Steady s where
  inv := .of_starts h
  stands id sub hmem := by
    rw [h.2.2.1] at hmem
    obtain ⟨a, ha, hlink⟩ := List.mem_filterMap.mp hmem
    obtain ⟨x, hx, heq⟩ := Option.map_eq_some_iff.mp hlink
    obtain ⟨rfl, rfl⟩ := Prod.mk.inj heq
    exact ⟨a, ha, rfl, hx⟩

omit [CaseMapping] in
theorem Steady.oneOwner (h : Steady s) : OneOwner s := by
  intro id sub sub' hmem hmem'
  obtain ⟨a, ha, rfl, hsub⟩ := h.stands id sub hmem
  obtain ⟨b, hb, hid, hsub'⟩ := h.stands a.id sub' hmem'
  obtain rfl := List.inj_on_of_nodup_map h.inv.distinct.ids ha hb hid.symm
  exact Option.some.inj (hsub.symm.trans hsub')

/-- **A link that finds its row unlinked keeps every link.** -/
theorem Steady.step (h : Steady s) (hc : Unlinked s l) (hstep : step env s l = some s') :
    Steady s' := by
  refine ⟨h.inv.step hstep, fun id sub hmem => ?_⟩
  cases effect_of_step hstep with
  | stays id₀ hf haccounts hbindings =>
    rw [hbindings] at hmem
    obtain ⟨a, ha, rfl, hsub⟩ := h.stands id sub hmem
    rw [haccounts]
    obtain ⟨a', ha', ⟨-, rfl⟩ | ⟨-, rfl⟩⟩ := exists_rewrite _ _ ha
    · exact ⟨_, ha', hf.id a, by rw [hf.keycloakId, hsub]⟩
    · exact ⟨_, ha', rfl, hsub⟩
  | @linked c fresh sub₀ profile account hlabel hcall hfind hfree heq =>
    subst heq
    have hrow := byId_eq_some hfind
    have hunlinked := hc c fresh sub₀ profile account.id account hlabel hcall hfind hfree
    rcases List.mem_append.mp hmem with hmem | hmem
    · obtain ⟨a, ha, rfl, hsub⟩ := h.stands id sub hmem
      obtain ⟨a', ha', ⟨hid, rfl⟩ | ⟨-, rfl⟩⟩ := exists_rewrite account.id
        (fun a => { a with keycloakId := some sub₀ }) ha
      · -- The row has a link, which can only be this one.
        obtain rfl := List.inj_on_of_nodup_map h.inv.distinct.ids ha hrow.1 hid
        rcases hunlinked with hnone | hsame
        · rw [hnone] at hsub
          cases hsub
        · exact ⟨_, ha', rfl, hsame.symm.trans hsub⟩
      · exact ⟨_, ha', rfl, hsub⟩
    · obtain ⟨rfl, rfl⟩ := Prod.mk.inj (List.mem_singleton.mp hmem)
      exact ⟨_, mem_rewrite.mpr (.inl ⟨account, hrow.1, rfl, rfl⟩), rfl, rfl⟩
  | @created c sub₀ profile account role hresolve hsub₀ hnew heq =>
    subst heq
    rcases List.mem_append.mp hmem with hmem | hmem
    · obtain ⟨a, ha, rfl, hsub⟩ := h.stands id sub hmem
      exact ⟨a, List.mem_append_left _ ha, rfl, hsub⟩
    · obtain ⟨rfl, rfl⟩ := Prod.mk.inj (List.mem_singleton.mp hmem)
      exact ⟨account, List.mem_append_right _ (List.mem_singleton_self _), rfl, hsub₀⟩

/-- **A link that finds its row linked to another one takes the row away.** -/
theorem not_oneOwner_of_link (h : Steady s) (hc : ¬ Unlinked s l)
    (hstep : step env s l = some s') : ¬ OneOwner s' := by
  simp only [Unlinked, not_forall, not_or] at hc
  obtain ⟨c, fresh, sub, profile, id, account, rfl, hcall, hfind, hfree, hnone, hother⟩ := hc
  obtain ⟨hmem, rfl⟩ := byId_eq_some hfind
  have hany : ¬ (s.accounts.any fun a => a.id ≠ account.id && a.keycloakId = some sub) = true := by
    intro hany
    obtain ⟨a, ha, htaken⟩ := List.any_eq_true.mp hany
    simp only [ne_eq, decide_not, Bool.and_eq_true, Bool.not_eq_eq_eq_not, Bool.not_true,
      decide_eq_false_iff_not, decide_eq_true_eq] at htaken
    exact htaken.1 (hfree a ha htaken.2)
  have hnext : Auth.step env s (.next c fresh) = some (s.link c sub profile account.id) := by
    rw [Auth.step, State.next, hcall]
  rw [hnext, State.link, hfind] at hstep
  simp only [if_neg hany] at hstep
  obtain rfl := Option.some.inj hstep
  obtain ⟨owner, howner⟩ := Option.ne_none_iff_exists'.mp hnone
  intro hone
  have heq := hone account.id owner sub
    (List.mem_append_left _ (h.inv.linked account hmem owner howner))
    (List.mem_append_right _ (List.mem_singleton_self _))
  exact hother (heq ▸ howner)

/-- **Rows keep their owner exactly where links find what was read.** In a run from a state
where nobody signs in, no row is ever linked to two, if and only if every link that goes
through finds its row without a `sub` or with its own. -/
theorem oneOwner_iff_unlinked {ls : List Label} (h : Starts s)
    (hrun : (system env).exec s ls = some s') :
    (system env).Always OneOwner s ls ↔ (system env).Along Unlinked s ls :=
  System.always_iff_along Steady (fun _ => Steady.oneOwner)
    (fun _ _ _ hs hc hstep => hs.step hc hstep)
    (fun _ _ _ hs hc hstep => not_oneOwner_of_link hs hc hstep) (.of_starts h) hrun

end Step

/-- A row without a `sub`. -/
def unlinkedRow : Account :=
  ⟨"1".toList, "a@b.c".toList, "a".toList, [], [], none, none, true, none⟩

/-- Nobody signs in yet. -/
def quiet (accounts : List Account) : State :=
  ⟨accounts, false, 0, fun _ => .idle, links accounts, []⟩

/-- The address of the row, in a token. -/
def rowProfile : Profile :=
  ⟨some "a@b.c".toList, none, none, none, none, none, none, none⟩

/-- Two tokens of the address are resolved in turns, and both find the row unlinked. -/
def race : List Label :=
  [.callback 0 "k".toList rowProfile, .callback 1 "l".toList rowProfile, .next 0 [], .next 1 [],
    .next 0 [], .next 1 [], .next 0 [], .next 1 []]

/-- Settings that let the domain in. -/
def domainEnv : Env :=
  ⟨some "*@b.c:MEMBER".toList, none, [], none, fun t => t.map Char.toUpper⟩

theorem starts_unlinkedRow : Starts (quiet [unlinkedRow]) :=
  ⟨⟨List.nodup_singleton _, List.nodup_singleton _, List.nodup_singleton _,
    fun _ ha _ hb _ _ => (List.mem_singleton.mp ha).trans (List.mem_singleton.mp hb).symm⟩,
    fun _ => rfl, rfl, rfl⟩

theorem oneOwner_iff_unlinked_race :
    ((system domainEnv).exec (quiet [unlinkedRow]) race).isSome = true ∧
      ∀ s', (system domainEnv).exec (quiet [unlinkedRow]) race = some s' →
        ((system domainEnv).Always OneOwner (quiet [unlinkedRow]) race ↔
          (system domainEnv).Along Unlinked (quiet [unlinkedRow]) race) :=
  ⟨rfl, fun _ hrun => oneOwner_iff_unlinked starts_unlinkedRow hrun⟩

/-- The row of the race is linked to both, though no rebinding is allowed. -/
example : ((system domainEnv).exec (quiet [unlinkedRow]) race).map (·.bindings) =
    some [("1".toList, "k".toList), ("1".toList, "l".toList)] :=
  rfl

section Grants

variable [CaseMapping] {env : Env} {s : State}

theorem steady_of_reachable (h : (system env).ReachableUnder Unlinked s) : Steady s :=
  h.invariant (fun _ => Steady.of_starts) fun _ _ _ _ hs hc hstep => hs.step hc hstep

/-- **One row for one identity.** In a run whose links find their rows unlinked, two tokens were
let in as the same row if and only if they have the same `sub`, and the row still has it. -/
theorem grant_iff (h : (system env).ReachableUnder Unlinked s) :
    (∀ sub a sub' a', .account sub a ∈ s.grants → .account sub' a' ∈ s.grants →
      (a.id = a'.id ↔ sub = sub')) ∧
    ∀ sub a, .account sub a ∈ s.grants → ∃ row ∈ s.accounts, row.id = a.id ∧
      row.keycloakId = some sub := by
  have hsteady := steady_of_reachable h
  refine ⟨fun sub a sub' a' ha ha' => ?_, fun sub a ha => ?_⟩
  · have hmem := hsteady.inv.granted sub a ha
    have hmem' := hsteady.inv.granted sub' a' ha'
    constructor
    · intro hid
      exact hsteady.oneOwner a.id sub sub' hmem (hid ▸ hmem')
    · rintro rfl
      obtain ⟨row, hrow, hid, hsub⟩ := hsteady.stands a.id sub hmem
      obtain ⟨row', hrow', hid', hsub'⟩ := hsteady.stands a'.id sub hmem'
      have hne : row.keycloakId ≠ none := hsub ▸ Option.some_ne_none sub
      rw [← hid, ← hid', hsteady.inv.distinct.subs row hrow row' hrow' hne (hsub.trans hsub'.symm)]
  · exact hsteady.stands a.id sub (hsteady.inv.granted sub a ha)

end Grants

theorem unlinked_next {s : State} {c : ℕ} {fresh : Text} (h : (s.calls c).isLinking = false) :
    Unlinked s (.next c fresh) := by
  intro c' fresh' sub profile id account hlabel hcall
  obtain ⟨rfl, rfl⟩ := Label.next.inj hlabel
  rw [hcall] at h
  cases h

theorem unlinked_callback {s : State} {c : ℕ} {sub : Text} {profile : Profile} :
    Unlinked s (.callback c sub profile) :=
  fun _ _ _ _ _ _ h => Label.noConfusion h

/-- Two tokens of one `sub`, one after the other; the first one creates the row. -/
theorem reachable_twice : ∃ s, (system domainEnv).ReachableUnder Unlinked s ∧ s.grants.length = 2 := by
  have h₀ : (system domainEnv).ReachableUnder Unlinked (quiet []) :=
    .init ⟨⟨List.nodup_nil, List.nodup_nil, List.nodup_nil, fun _ ha => absurd ha List.not_mem_nil⟩,
      fun _ => rfl, rfl, rfl⟩
  have h₁ := h₀.next (.callback 0 "k".toList rowProfile) unlinked_callback rfl
  have h₂ := h₁.next (.next 0 []) (unlinked_next rfl) rfl
  have h₃ := h₂.next (.next 0 []) (unlinked_next rfl) rfl
  have h₄ := h₃.next (.next 0 "1".toList) (unlinked_next rfl) rfl
  have h₅ := h₄.next (.next 0 []) (unlinked_next rfl) rfl
  have h₆ := h₅.next (.callback 1 "k".toList rowProfile) unlinked_callback rfl
  have h₇ := h₆.next (.next 1 []) (unlinked_next rfl) rfl
  have h₈ := h₇.next (.next 1 []) (unlinked_next rfl) rfl
  exact ⟨_, h₈, rfl⟩

theorem grant_iff_twice : ∃ s, (system domainEnv).ReachableUnder Unlinked s ∧
    s.grants.length = 2 ∧
    (∀ sub a sub' a', .account sub a ∈ s.grants → .account sub' a' ∈ s.grants →
      (a.id = a'.id ↔ sub = sub')) ∧
    ∀ sub a, .account sub a ∈ s.grants → ∃ row ∈ s.accounts, row.id = a.id ∧
      row.keycloakId = some sub := by
  obtain ⟨s, hs, hlength⟩ := reachable_twice
  exact ⟨s, hs, hlength, grant_iff hs⟩

/-! ### Who gets a row -/

/-- The row is that of somebody who is listed. -/
def Listed [CaseMapping] (env : Env) (a : Account) : Prop :=
  ∃ role, resolveUserAccess (getRules env.toUpperCase env.accessList) a.email = some role

/-- Rows stay, and a row that was not there is that of somebody who is listed. -/
structure Grows [CaseMapping] (env : Env) (s s' : State) : Prop where
  stays : ∀ a ∈ s.accounts, ∃ a' ∈ s'.accounts, SameRow a a'
  listed : ∀ a' ∈ s'.accounts, (∃ a ∈ s.accounts, SameRow a a') ∨ Listed env a'

section Growth

variable [CaseMapping] {env : Env} {s s' : State} {l : Label}

theorem Grows.refl (env : Env) (s : State) : Grows env s s :=
  ⟨fun a ha => ⟨a, ha, .refl a⟩, fun a ha => .inl ⟨a, ha, .refl a⟩⟩

omit [CaseMapping] in
theorem grows_rewrite_stays (id : Text) {f : Account → Account} (hf : ∀ a, SameRow a (f a)) :
    (∀ a ∈ s.accounts, ∃ a' ∈ s.rewrite id f, SameRow a a') ∧
      ∀ a' ∈ s.rewrite id f, ∃ a ∈ s.accounts, SameRow a a' := by
  refine ⟨fun a ha => ?_, fun a' ha' => ?_⟩
  · obtain ⟨a', ha', ⟨-, rfl⟩ | ⟨-, rfl⟩⟩ := exists_rewrite id f ha
    · exact ⟨_, ha', hf a⟩
    · exact ⟨_, ha', .refl _⟩
  · rcases mem_rewrite.mp ha' with ⟨a, ha, -, rfl⟩ | ⟨ha, -⟩
    · exact ⟨a, ha, hf a⟩
    · exact ⟨a', ha, .refl a'⟩

theorem grows_step (hstep : step env s l = some s') : Grows env s s' := by
  cases effect_of_step hstep with
  | stays id hf haccounts =>
    obtain ⟨hstays, hback⟩ := grows_rewrite_stays id hf.sameRow
    rw [← haccounts] at hstays hback
    exact ⟨hstays, fun a ha => .inl (hback a ha)⟩
  | @linked c fresh sub profile account hlabel hcall hfind hfree heq =>
    subst heq
    obtain ⟨hstays, hback⟩ := grows_rewrite_stays (s := s) account.id
      (f := fun a => { a with keycloakId := some sub }) fun _ => ⟨rfl, rfl, rfl⟩
    exact ⟨hstays, fun a ha => .inl (hback a ha)⟩
  | @created c sub profile account role hresolve hsub hnew heq =>
    subst heq
    refine ⟨fun a ha => ⟨a, List.mem_append_left _ ha, .refl a⟩, fun a ha => ?_⟩
    rcases List.mem_append.mp ha with ha | ha
    · exact .inl ⟨a, ha, .refl a⟩
    · obtain rfl := List.mem_singleton.mp ha
      exact .inr ⟨role, hresolve⟩

theorem Grows.trans {s₁ : State} (h : Grows env s s₁) (h' : Grows env s₁ s') : Grows env s s' where
  stays a ha := by
    obtain ⟨a₁, ha₁, hsame⟩ := h.stays a ha
    obtain ⟨a', ha', hsame'⟩ := h'.stays a₁ ha₁
    exact ⟨a', ha', hsame.trans hsame'⟩
  listed a' ha' := by
    rcases h'.listed a' ha' with ⟨a₁, ha₁, hsame'⟩ | hlisted
    · rcases h.listed a₁ ha₁ with ⟨a, ha, hsame⟩ | ⟨role, hrole⟩
      · exact .inl ⟨a, ha, hsame.trans hsame'⟩
      · exact .inr ⟨role, hsame'.email ▸ hrole⟩
    · exact .inr hlisted

/-- **Who gets a row is on the access list.** In every run, each row that was there stays, with its
address, and a row that was not there has an entry in the variable, for its address or its
domain. -/
theorem accounts_of_run {raw : Text} (hraw : env.accessList = some raw) {ls : List Label}
    (hrun : (system env).exec s ls = some s') :
    (∀ a ∈ s.accounts, ∃ a' ∈ s'.accounts, SameRow a a') ∧
      ∀ a' ∈ s'.accounts, (∃ a ∈ s.accounts, SameRow a a') ∨
        ∃ entry ∈ (trim raw).splitOn ',', ∃ role, Admits env.toUpperCase entry a'.email role := by
  have hgrows : Grows env s s' := System.exec_invariant (P := Grows env s)
    (fun _ _ _ hs hstep => hs.trans (grows_step hstep)) (.refl env s) hrun
  refine ⟨hgrows.stays, fun a' ha' => (hgrows.listed a' ha').imp_right fun ⟨role, hrole⟩ => ?_⟩
  rw [hraw, getRules] at hrole
  split at hrole
  · -- nobody is on an empty list
    obtain ⟨-, rule, hrule, -⟩ := exists_rule_of_resolves hrole
    cases hrule
  · obtain ⟨entry, hentry, hadmits⟩ := exists_entry_of_resolves hrole
    exact ⟨entry, hentry, role, hadmits⟩

end Growth

/-- A token of a listed domain. -/
theorem accounts_of_run_domain :
    let ls : List Label := [.callback 0 "k".toList rowProfile, .next 0 [], .next 0 [],
      .next 0 "2".toList]
    ((system domainEnv).exec (quiet []) ls).isSome = true ∧
      ∀ s', (system domainEnv).exec (quiet []) ls = some s' →
        (∀ a ∈ (quiet []).accounts, ∃ a' ∈ s'.accounts, SameRow a a') ∧
          ∀ a' ∈ s'.accounts, (∃ a ∈ (quiet []).accounts, SameRow a a') ∨
            ∃ entry ∈ (trim "*@b.c:MEMBER".toList).splitOn ',', ∃ role,
              Admits domainEnv.toUpperCase entry a'.email role :=
  ⟨rfl, fun _ hrun => accounts_of_run rfl hrun⟩

end Auth
end EmailOps
