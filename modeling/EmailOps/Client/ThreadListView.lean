import EmailOps.Client.ThreadList
import EmailOps.Framework.Table

/-!
# What the thread list shows

* `distinct_of_reachable`: no thread is in the list twice, whatever pages, refreshes, actions and
  rollbacks come in which order.
* `settles_iff`: a list that is loading has its request under way in exactly the runs in which no
  silent fetch takes over a list that is loading and fails.
* `shows_view`: a list that is ready is that of the view, in the runs whose actions end in the view
  that they began in. An action that ends in another one puts back, or fetches, what it has
  captured.
-/

namespace EmailOps
namespace ThreadList

open Framework

variable {home : Text} {s s' : State} {l : Label}

/-! ### No thread twice -/

/-- The identifiers of rows. -/
def ids (rows : List Row) : List Text :=
  rows.map (·.id)

/-- No page has a thread twice. -/
def Pages (_ : State) (l : Label) : Prop :=
  ∀ n page, l = .answer n page → (page.map (·.id)).Nodup

/-- No list has a thread twice, and none that may be put back has. -/
structure Distinct (s : State) : Prop where
  threads : (ids s.threads).Nodup
  before : ∀ c action rows, s.actions c = some action → action.capture.before = some rows →
    (ids rows).Nodup

theorem Shrinks.nodup {rows rows' : List Row} (h : Shrinks rows rows') (hrows : (ids rows).Nodup) :
    (ids rows').Nodup := by
  have hids : ∀ rs : List Row, ids rs = (rs.map Row.key).map Prod.fst := fun rs => by
    rw [List.map_map]
    rfl
  rw [hids] at hrows ⊢
  exact hrows.sublist (h.map Prod.fst)

theorem Known.before (h : Distinct s) (hknown : Known s l s') :
    ∀ c action rows, s'.actions c = some action → action.capture.before = some rows →
      (ids rows).Nodup := by
  intro c action rows hc hrows
  rcases hknown c action hc with hc | ⟨-, hlist, -⟩
  · exact h.before c action rows hc hrows
  · rw [(hlist rows hrows).1]
    exact h.threads

/-- A page is put behind the list without what is there already. -/
theorem nodup_merge (h : (ids s.threads).Nodup) (r : Request) {page : List Thread}
    (hpage : (page.map (·.id)).Nodup) : (ids (s.merge r page)).Nodup := by
  have hrows : (ids (page.map fun t => { t with source := r.source })).Nodup := by
    rw [ids, List.map_map]
    exact hpage
  rw [State.merge]
  split
  · rw [ids, List.map_append, List.nodup_append]
    refine ⟨h, hrows.sublist (List.filter_sublist.map _), ?_⟩
    rintro _ hold _ hnew rfl
    obtain ⟨t, ht, heq⟩ := List.mem_map.mp hnew
    have hfresh := (List.mem_filter.mp ht).2
    rw [decide_eq_true_eq, heq] at hfresh
    exact hfresh hold
  · exact hrows

theorem Distinct.step (h : Distinct s) (hpages : Pages s l) (hstep : step home s l = some s') :
    Distinct s' := by
  cases effect_of_step hstep with
  | stays _ _ _ _ hthreads hknown => exact ⟨hthreads.nodup h.threads, hknown.before h⟩
  | restores c _ action _ hc hbefore _ _ _ _ hknown =>
    exact ⟨h.before c action _ hc hbefore, hknown.before h⟩
  | fetches _ _ _ _ _ _ _ hthreads hknown => exact ⟨hthreads.nodup h.threads, hknown.before h⟩
  | displays _ _ _ _ _ _ _ _ hthreads hknown => exact ⟨hthreads ▸ h.threads, hknown.before h⟩
  | lands _ _ _ _ _ _ hthreads hknown => exact ⟨hthreads ▸ h.threads, hknown.before h⟩
  | answers r page hl _ _ _ _ _ _ hthreads hknown =>
    exact ⟨hthreads ▸ nodup_merge h.threads r (hpages r.n page hl), hknown.before h⟩
  | fails _ _ _ _ _ _ _ _ _ _ _ hthreads hknown => exact ⟨hthreads ▸ h.threads, hknown.before h⟩
  | strays _ _ _ _ _ _ _ _ _ hthreads hknown => exact ⟨hthreads ▸ h.threads, hknown.before h⟩

/-- **No thread is in the list twice**, in any run in which no page has one twice. -/
theorem distinct_of_reachable (h : (system home).ReachableUnder Pages s) :
    (s.threads.map (·.id)).Nodup := by
  have hdistinct : Distinct s := by
    refine h.invariant ?_ fun _ _ _ _ hs hc hstep => hs.step hc hstep
    rintro _ ⟨view, rfl⟩
    exact ⟨List.nodup_nil, nofun⟩
  exact hdistinct.threads

/-- The inbox of a mailbox. -/
def inboxView : View :=
  ⟨"m".toList, .inbox, none, []⟩

/-- A thread that is unread. -/
def unreadThread (id : Char) : Thread :=
  ⟨[id], none, true, false⟩

theorem distinct_of_reachable_more :
    ∃ s, (system "m".toList).ReachableUnder Pages s ∧
      s.threads.map (·.id) = ["a".toList, "b".toList, "c".toList] ∧
        (s.threads.map (·.id)).Nodup := by
  -- The second page begins with a thread of the first: mail has come in between.
  have h₀ : (system "m".toList).ReachableUnder Pages (opened inboxView) := .init ⟨_, rfl⟩
  have h₁ := h₀.next (.answer 1 [unreadThread 'a', unreadThread 'b'])
    (fun _ _ h => by cases h; decide) rfl
  have h₂ := h₁.next .loadMore (fun _ _ h => Label.noConfusion h) rfl
  have h₃ := h₂.next (.answer 2 [unreadThread 'b', unreadThread 'c'])
    (fun _ _ h => by cases h; decide) rfl
  exact ⟨_, h₃, rfl, distinct_of_reachable h₃⟩

/-! ### A list that is loading -/

/-- Requests are numbered, and only the unified view asks for the unified list. -/
structure Counted (s : State) : Prop where
  le : ∀ r ∈ s.flying, r.n ≤ s.req
  nodup : (s.flying.map (·.n)).Nodup
  unified : ∀ r ∈ s.flying, r.n = s.req → r.mailbox = allInboxes → s.view.mailbox = allInboxes
  emptied : ∀ c action target, s.actions c = some action → action.capture = .empty target →
    action.since.mailbox ≠ allInboxes

theorem Known.emptied (h : Counted s) (hknown : Known s l s') :
    ∀ c action target, s'.actions c = some action → action.capture = .empty target →
      action.since.mailbox ≠ allInboxes := by
  intro c action target hc htarget
  rcases hknown c action hc with hc | ⟨hsince, -, hempty⟩
  · exact h.emptied c action target hc htarget
  · rw [hsince]
    exact (hempty target htarget).1

/-- A request with the next number is added. -/
theorem Counted.fetch (h : Counted s) {r : Request} {flying : List Request} (hn : r.n = s.req + 1)
    (hflying : flying.Sublist s.flying) (hreq : s'.req = s.req + 1)
    (hadded : s'.flying = flying ++ [r])
    (hmailbox : r.mailbox = allInboxes → s'.view.mailbox = allInboxes) (hknown : Known s l s') :
    Counted s' := by
  have hold : ∀ x ∈ flying, x.n ≤ s.req := fun x hx => h.le x (hflying.subset hx)
  refine ⟨fun x hx => ?_, ?_, fun x hx hlast => ?_, hknown.emptied h⟩
  · rw [hadded] at hx
    rw [hreq]
    rcases List.mem_append.mp hx with hx | hx
    · exact Nat.le_succ_of_le (hold x hx)
    · rw [List.mem_singleton.mp hx, hn]
  · rw [hadded]
    refine Table.nodup_insert (h.nodup.sublist (hflying.map _)) fun x hx heq => ?_
    have hle := hold x hx
    omega
  · rw [hadded] at hx
    rcases List.mem_append.mp hx with hx | hx
    · have hle := hold x hx
      omega
    · rw [List.mem_singleton.mp hx]
      exact hmailbox

/-- Requests land, if anything. -/
theorem Counted.land (h : Counted s) (hflying : s'.flying.Sublist s.flying)
    (hview : s'.view = s.view) (hreq : s'.req = s.req) (hknown : Known s l s') : Counted s' where
  le r hr := hreq ▸ h.le r (hflying.subset hr)
  nodup := h.nodup.sublist (hflying.map _)
  unified r hr hn := by
    rw [hreq] at hn
    rw [hview]
    exact h.unified r (hflying.subset hr) hn
  emptied := hknown.emptied h

theorem Counted.step (h : Counted s) (hstep : step home s l = some s') : Counted s' := by
  cases effect_of_step hstep with
  | stays hview hreq hflying _ _ hknown => exact h.land (hflying ▸ .refl _) hview hreq hknown
  | restores _ _ _ _ _ _ hview hreq hflying _ hknown =>
    exact h.land (hflying ▸ .refl _) hview hreq hknown
  | fetches r hn hreason hview hreq hflying _ _ hknown =>
    refine h.fetch hn (.refl _) hreq hflying (fun hall => ?_) hknown
    rw [hview]
    cases hreason with
    | view _ hmailbox => rw [← hmailbox, hall]
    | action c _ action _ hc _ _ hmailbox =>
      rcases hmailbox with hmailbox | ⟨hmailbox, target, htarget⟩
      · rw [← hmailbox, hall]
      · exact absurd (hmailbox.symm.trans hall) (h.emptied c action target hc htarget)
  | displays r hn _ _ hmailbox hreq hflying _ _ hknown =>
    obtain ⟨flying, hsub, hadded⟩ := hflying
    exact h.fetch hn hsub hreq hadded (fun hall => hmailbox ▸ hall) hknown
  | lands _ _ hview hreq hflying _ _ hknown =>
    exact h.land (hflying ▸ List.filter_sublist) hview hreq hknown
  | answers _ _ _ _ _ hview hreq hflying _ _ hknown =>
    exact h.land (hflying ▸ List.filter_sublist) hview hreq hknown
  | fails _ _ _ _ _ hview hreq hflying _ _ _ _ hknown =>
    exact h.land (hflying ▸ List.filter_sublist) hview hreq hknown
  | strays _ _ _ _ _ hview hreq hflying _ _ hknown =>
    exact h.land (hflying ▸ List.filter_sublist) hview hreq hknown

theorem counted_opened (view : View) : Counted (opened view) := by
  refine ⟨fun r hr => ?_, List.nodup_singleton _, fun r hr _ hall => ?_, nofun⟩
  · rw [List.mem_singleton.mp hr]
    exact le_rfl
  · rw [List.mem_singleton.mp hr] at hall
    exact hall

/-- A list that is loading has its request under way, unless the session has lapsed. -/
def Settles (s : State) : Prop :=
  s.load = .loading → s.left = true ∨ ∃ r ∈ s.flying, r.n = s.req

/-- The request that counts is silent and fails, and the list is loading. -/
def Stalls (s : State) (l : Label) : Prop :=
  ∃ r ∈ s.flying, ∃ fault, l = .failure r.n fault ∧ r.n = s.req ∧ r.silent = true ∧
    s.load = .loading ∧ fault ≠ .unauthorized ∧ (fault = .missing → r.mailbox ≠ allInboxes)

theorem left_of_step (h : step home s l = some s') : s.left = false := by
  unfold step at h
  split at h
  · cases h
  · next hleft => exact Bool.eq_false_iff.mpr hleft

theorem Settles.step (h : Settles s) (hcounted : Counted s) (hhome : home ≠ allInboxes)
    (hc : ¬ Stalls s l) (hstep : step home s l = some s') : Settles s' := by
  have hunder : s.load = .loading → ∃ r ∈ s.flying, r.n = s.req := fun hload =>
    (h hload).resolve_left (left_of_step hstep ▸ Bool.false_ne_true)
  intro hloading
  cases effect_of_step hstep with
  | stays _ hreq hflying hload =>
    rw [hreq, hflying]
    exact .inr (hunder (hload ▸ hloading))
  | restores _ _ _ _ _ _ _ hreq hflying hload =>
    rw [hreq, hflying]
    exact .inr (hunder (hload ▸ hloading))
  | fetches r hn _ _ hreq hflying =>
    rw [hreq, hflying]
    exact .inr ⟨r, List.mem_append_right _ (List.mem_singleton_self r), hn⟩
  | displays r hn _ _ _ hreq hflying =>
    obtain ⟨flying, -, hadded⟩ := hflying
    rw [hreq, hadded]
    exact .inr ⟨r, List.mem_append_right _ (List.mem_singleton_self r), hn⟩
  | lands n hn _ hreq hflying hload =>
    obtain ⟨r, hr, hlast⟩ := hunder (hload ▸ hloading)
    rw [hreq, hflying]
    exact .inr ⟨r, List.mem_filter.mpr ⟨hr, decide_eq_true fun heq => hn (heq ▸ hlast)⟩, hlast⟩
  | answers _ _ _ _ _ _ _ _ hload =>
    rw [hload] at hloading
    cases hloading
  | fails r fault hl hr hn _ _ _ hload hleft hfault =>
    rw [hload] at hloading
    by_cases hlapsed : s'.left = true
    · exact .inl hlapsed
    · -- Nothing is said of a silent failure, so that the list must not be loading.
      rw [Bool.eq_false_iff.mpr hlapsed, Bool.false_or] at hloading
      split at hloading
      · next hsilent =>
        refine absurd ⟨r, hr, fault, hl, hn, hsilent, hloading, ?_, hfault⟩ hc
        exact fun hunauthorized => hlapsed (hleft.mpr hunauthorized)
      · cases hloading
  | strays r hr hn hmailbox hshown =>
    exact absurd (hshown.symm.trans (hcounted.unified r hr hn hmailbox)) hhome

/-- A silent failure leaves the list loading, and nothing is under way. -/
theorem not_settles_of_stalls (hcounted : Counted s) (hc : Stalls s l)
    (hstep : step home s l = some s') : ¬ Settles s' := by
  obtain ⟨r, hr, fault, rfl, hn, hsilent, hload, hfault, hmissing⟩ := hc
  have hleft := left_of_step hstep
  have hfind : s.flying.find? (·.n = r.n) = some r :=
    (Table.find_eq_some hcounted.nodup).mpr ⟨hr, rfl⟩
  have hfailure : s.failure home r fault = s' := by
    unfold step at hstep
    rw [if_neg (hleft ▸ Bool.false_ne_true)] at hstep
    simpa only [hfind, Option.map_some, Option.some.injEq] using hstep
  have hend : s' = { s.land r.n with loadingMore := if r.append then false else s.loadingMore } := by
    rw [← hfailure, State.failure, if_pos hn]
    cases fault with
    | unauthorized => exact absurd rfl hfault
    | missing => simp only [if_neg (hmissing rfl), hsilent, if_true]
    | other => simp only [hsilent, if_true]
  intro hsettles
  rcases hsettles (by rw [hend]; exact hload) with hlapsed | ⟨x, hx, hlast⟩
  · rw [hend] at hlapsed
    exact absurd (hleft.symm.trans hlapsed) Bool.false_ne_true
  · rw [hend] at hx hlast
    have hgone := (List.mem_filter.mp hx).2
    rw [decide_eq_true_eq, hn] at hgone
    exact hgone hlast

/-- **A list does not stay loading, exactly where no silent fetch fails in its place.** From a view
that has just been opened, the request of a list that is loading is under way in every state of a
run, if and only if no refresh that has taken over a list that was loading fails. -/
theorem settles_iff (hhome : home ≠ allInboxes) {view : View} {ls : List Label}
    (hrun : (system home).exec (opened view) ls = some s') :
    (system home).Always Settles (opened view) ls ↔
      (system home).Along (fun s l => ¬ Stalls s l) (opened view) ls := by
  refine System.always_iff_along (fun s => Counted s ∧ Settles s) (fun _ h => h.2) ?_ ?_ ?_ hrun
  · exact fun s l s₁ h hc hstep => ⟨h.1.step hstep, h.2.step h.1 hhome hc hstep⟩
  · exact fun s l s₁ h hc hstep => not_settles_of_stalls h.1 (not_not.mp hc) hstep
  · refine ⟨counted_opened view, fun _ => .inr ?_⟩
    exact ⟨_, List.mem_singleton_self _, rfl⟩

/-- A refresh takes over the first list, and fails. -/
def stalling : List Label :=
  [.refresh, .answer 1 [unreadThread 'a'], .failure 2 .other]

theorem settles_iff_stalling :
    ((system "m".toList).exec (opened inboxView) stalling).isSome = true ∧
      ∀ s', (system "m".toList).exec (opened inboxView) stalling = some s' →
        ((system "m".toList).Always Settles (opened inboxView) stalling ↔
          (system "m".toList).Along (fun s l => ¬ Stalls s l) (opened inboxView) stalling) :=
  ⟨rfl, fun _ hrun => settles_iff (by decide) hrun⟩

/-- The answer to the first request is there, and the list is loading for good. -/
example : ((system "m".toList).exec (opened inboxView) stalling).map (fun s => (s.load, s.flying.length)) =
    some (.loading, 0) :=
  rfl

/-! ### The list of the view -/

/-- The rows are of the list of a view. -/
def Mine (view : View) (rows : List Row) : Prop :=
  ∀ r ∈ rows, r.source = view.source

/-- An action ends in the view that it began in, and empties the folder that is shown; threads are
taken out of a list that is ready, and pages are put behind one. -/
structure Calm (s : State) (l : Label) : Prop where
  finish : ∀ c outcome action, l = .finish c outcome → s.actions c = some action →
    action.since = s.view
  empty : ∀ c target, l = .beginEmpty c target → target = s.view.folder
  ready : l = .loadMore ∨ l.takesOut = true → s.load = .ready

/-- A list that is ready is that of the view, and so is one that an answer or an action may make. -/
structure Shown (s : State) : Prop where
  threads : s.load = .ready → Mine s.view s.threads
  latest : ∀ r ∈ s.flying, r.n = s.req →
    r.source = s.view.source ∧ (r.append = true → s.load = .ready)
  before : ∀ c action rows, s.actions c = some action → action.capture.before = some rows →
    Mine action.since rows
  emptied : ∀ c action target, s.actions c = some action → action.capture = .empty target →
    target = action.since.folder

theorem Mine.shrinks {view : View} {rows rows' : List Row} (hrows : Mine view rows)
    (h : Shrinks rows rows') : Mine view rows' := by
  intro r' hr'
  obtain ⟨r, hr, hkey⟩ := List.mem_map.mp (h.subset (List.mem_map_of_mem hr'))
  have hsource : r.source = r'.source := congrArg Prod.snd hkey
  exact hsource.symm.trans (hrows r hr)

theorem Mine.merge {r : Request} {page : List Thread} (hsource : r.source = s.view.source)
    (h : r.append = true → Mine s.view s.threads) : Mine s.view (s.merge r page) := by
  have hpage : Mine s.view (page.map fun t => { t with source := r.source }) := by
    intro row hrow
    obtain ⟨t, -, rfl⟩ := List.mem_map.mp hrow
    exact hsource
  rw [State.merge]
  split
  · next happend =>
    intro row hrow
    rcases List.mem_append.mp hrow with hold | hnew
    · exact h happend row hold
    · exact hpage row (List.mem_of_mem_filter hnew)
  · exact hpage

theorem Known.shown (h : Shown s) (hc : Calm s l) (hknown : Known s l s') :
    (∀ c action rows, s'.actions c = some action → action.capture.before = some rows →
      Mine action.since rows) ∧
    ∀ c action target, s'.actions c = some action → action.capture = .empty target →
      target = action.since.folder := by
  refine ⟨fun c action rows hat hrows => ?_, fun c action target hat htarget => ?_⟩
  · rcases hknown c action hat with hold | ⟨hsince, hlist, -⟩
    · exact h.before c action rows hold hrows
    · obtain ⟨rfl, htakes⟩ := hlist rows hrows
      exact hsince ▸ h.threads (hc.ready (.inr htakes))
  · rcases hknown c action hat with hold | ⟨hsince, -, hempty⟩
    · exact h.emptied c action target hold htarget
    · rw [hsince]
      exact hc.empty c target (hempty target htarget).2

/-- The list that a calm step asks for is that of the view. -/
theorem Reason.source_eq (h : Shown s) (hc : Calm s l) {r : Request} (hreason : Reason s l r) :
    r.source = s.view.source ∧ (r.append = true → s.load = .ready) := by
  cases hreason with
  | view hsource _ happend => exact ⟨hsource, fun hmore => hc.ready (.inl (happend hmore))⟩
  | action c outcome action hl hat happend _ _ hsource =>
    refine ⟨?_, fun hmore => absurd (happend.symm.trans hmore) Bool.false_ne_true⟩
    have hsince := hc.finish c outcome action hl hat
    rcases hsource hsince with hsource | ⟨target, htarget, hsource⟩
    · exact hsource
    · rw [hsource, h.emptied c action target hat htarget, hsince]
      rfl

/-- Requests land, if anything. -/
theorem Shown.land (h : Shown s) (hc : Calm s l) (hview : s'.view = s.view) (hreq : s'.req = s.req)
    (hflying : s'.flying.Sublist s.flying)
    (hload : ∀ r ∈ s'.flying, r.n = s'.req → s'.load = s.load)
    (hthreads : s'.load = .ready → Mine s.view s'.threads) (hknown : Known s l s') : Shown s' where
  threads hready := hview ▸ hthreads hready
  latest r hr hn := by
    obtain ⟨hsource, happend⟩ := h.latest r (hflying.subset hr) (hreq ▸ hn)
    rw [hview, hload r hr hn]
    exact ⟨hsource, happend⟩
  before := (hknown.shown h hc).1
  emptied := (hknown.shown h hc).2

theorem not_flying {n : ℕ} (hreq : s'.req = s.req) (hn : n = s.req)
    (hflying : s'.flying = s.flying.filter (·.n ≠ n)) : ∀ r ∈ s'.flying, r.n ≠ s'.req := by
  intro r hr heq
  rw [hflying] at hr
  have hgone := (List.mem_filter.mp hr).2
  rw [decide_eq_true_eq, hn, ← hreq] at hgone
  exact hgone heq

/-- The request that counts is a new one. -/
theorem Shown.fetch (h : Shown s) (hc : Calm s l) (hcounted : Counted s) {r : Request}
    {flying : List Request} (hsub : flying.Sublist s.flying) (hreq : s'.req = s.req + 1)
    (hadded : s'.flying = flying ++ [r])
    (hr : r.source = s'.view.source ∧ (r.append = true → s'.load = .ready))
    (hthreads : s'.load = .ready → Mine s'.view s'.threads) (hknown : Known s l s') : Shown s' where
  threads := hthreads
  latest x hx hn := by
    rw [hadded] at hx
    rcases List.mem_append.mp hx with hx | hx
    · have hle := hcounted.le x (hsub.subset hx)
      omega
    · rw [List.mem_singleton.mp hx]
      exact hr
  before := (hknown.shown h hc).1
  emptied := (hknown.shown h hc).2

theorem Shown.step (h : Shown s) (hcounted : Counted s) (hc : Calm s l)
    (hstep : step home s l = some s') : Shown s' := by
  cases effect_of_step hstep with
  | stays hview hreq hflying hload hthreads hknown =>
    refine h.land hc hview hreq (hflying ▸ .refl _) (fun _ _ _ => hload) (fun hready => ?_) hknown
    exact (h.threads (hload ▸ hready)).shrinks hthreads
  | restores c outcome action hl hat hbefore hview hreq hflying hload hknown =>
    refine h.land hc hview hreq (hflying ▸ .refl _) (fun _ _ _ => hload) (fun _ => ?_) hknown
    -- What is put back is from the view that the action began in, which is shown.
    rw [← hc.finish c outcome action hl hat]
    exact h.before c action _ hat hbefore
  | fetches r hn hreason hview hreq hflying hload hthreads hknown =>
    obtain ⟨hsource, happend⟩ := hreason.source_eq h hc
    have hkept : s'.load = .ready → s.load = .ready := fun hready => by
      rw [hload] at hready
      split at hready
      · exact hready
      · cases hready
    refine h.fetch hc hcounted (.refl _) hreq hflying ⟨hview ▸ hsource, fun hmore => ?_⟩
      (fun hready => ?_) hknown
    · rw [hload, hmore, Bool.true_or, if_pos rfl]
      exact happend hmore
    · rw [hview]
      exact (h.threads (hkept hready)).shrinks hthreads
  | displays r hn happend hsource _ hreq hflying hload hthreads hknown =>
    obtain ⟨flying, hsub, hadded⟩ := hflying
    refine h.fetch hc hcounted hsub hreq hadded ⟨hsource, fun hmore => ?_⟩ (fun hready => ?_) hknown
    · exact absurd (happend.symm.trans hmore) Bool.false_ne_true
    · rw [hload] at hready
      cases hready
  | lands n hn hview hreq hflying hload hthreads hknown =>
    refine h.land hc hview hreq (hflying ▸ List.filter_sublist) (fun _ _ _ => hload)
      (fun hready => ?_) hknown
    rw [hthreads]
    exact h.threads (hload ▸ hready)
  | answers r page hl hr hn hview hreq hflying hload hthreads hknown =>
    obtain ⟨hsource, happend⟩ := h.latest r hr hn
    refine h.land hc hview hreq (hflying ▸ List.filter_sublist) (fun x hx hlast => ?_)
      (fun _ => ?_) hknown
    · exact absurd hlast (not_flying hreq hn hflying x hx)
    · rw [hthreads]
      exact .merge hsource fun hmore => h.threads (happend hmore)
  | fails r fault hl hr hn hview hreq hflying hload _ _ hthreads hknown =>
    refine h.land hc hview hreq (hflying ▸ List.filter_sublist) (fun x hx hlast => ?_)
      (fun hready => ?_) hknown
    · exact absurd hlast (not_flying hreq hn hflying x hx)
    · rw [hload] at hready
      split at hready
      · rw [hthreads]
        exact h.threads hready
      · cases hready
  | strays r hr hn _ _ hview hreq hflying hload hthreads hknown =>
    refine h.land hc hview hreq (hflying ▸ List.filter_sublist) (fun _ _ _ => hload)
      (fun hready => ?_) hknown
    rw [hthreads]
    exact h.threads (hload ▸ hready)

/-- **A list that is ready is that of the view**, with every thread from the mailbox, the folder and
the query that are selected, in any run whose actions end in the view that they began in. -/
theorem shows_view (h : (system home).ReachableUnder Calm s) (hready : s.load = .ready) :
    ∀ r ∈ s.threads, r.source = s.view.source := by
  have hinv : Counted s ∧ Shown s := by
    refine h.invariant (P := fun s => Counted s ∧ Shown s) ?_
      fun _ _ _ _ hs hc hstep => ⟨hs.1.step hstep, hs.2.step hs.1 hc hstep⟩
    rintro _ ⟨view, rfl⟩
    refine ⟨counted_opened view, nofun, fun r hr _ => ?_, nofun, nofun⟩
    rw [List.mem_singleton.mp hr]
    exact ⟨rfl, fun hmore => absurd hmore Bool.false_ne_true⟩
  exact hinv.2.threads hready

theorem shows_view_more :
    ∃ s, (system "m".toList).ReachableUnder Calm s ∧ s.load = .ready ∧
      s.threads.map (·.id) = ["b".toList] ∧
        ∀ r ∈ s.threads, r.source = .folder "m".toList .inbox [] := by
  have h₀ : (system "m".toList).ReachableUnder Calm (opened inboxView) := .init ⟨_, rfl⟩
  have h₁ := h₀.next (.answer 1 [unreadThread 'a', unreadThread 'b'])
    ⟨fun _ _ _ h => Label.noConfusion h, fun _ _ h => Label.noConfusion h, by rintro (h | h) <;> cases h⟩ rfl
  have h₂ := h₁.next (.beginMove 0 "a".toList)
    ⟨fun _ _ _ h => Label.noConfusion h, fun _ _ h => Label.noConfusion h, fun _ => rfl⟩ rfl
  have h₃ := h₂.next (.finish 0 .done) ⟨fun _ _ _ h hc => by cases h; cases hc; rfl,
    fun _ _ h => Label.noConfusion h, by rintro (h | h) <;> cases h⟩ rfl
  exact ⟨_, h₃, rfl, rfl, shows_view h₃ rfl⟩

/-- A reply that is sorted while another search begins ends with the list of the old search. -/
example : ((system "m".toList).exec (opened inboxView)
    [.answer 1 [unreadThread 'a'], .beginTriage 0 "a".toList, .setQuery "q".toList, .finish 0 .done,
      .answer 2 [], .answer 3 [unreadThread 'b']]).map
      (fun s => (s.load, s.view.query, s.threads.map (·.source))) =
    some (.ready, "q".toList, [.folder "m".toList .inbox []]) :=
  rfl

end ThreadList
end EmailOps
