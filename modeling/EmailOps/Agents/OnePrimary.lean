import EmailOps.Agents.Bindings

/-!
# One primary mailbox

* `Touches` is the frame of the writes: they leave the other agents and their bindings alone.
* `reconcile_settles` and `setPrimary_settles`: what the two write paths end with. The first
  establishes the invariant of the agent from any state, the second does unless the mailbox
  is given as the empty text.
* `always_bound_iff`: the agents are bound throughout a sequence of operations if and only if
  none of them updates an agent to the empty mailbox.
-/

namespace EmailOps
namespace Agents

open Framework

variable {db db' db'' : Db} {workspaceId agentId : String}

/-! ### The frame -/

/-- Each binding is of an agent, in the workspace of the agent. -/
def Home (db : Db) : Prop :=
  ∀ b ∈ db.bindings.rows, ∃ a ∈ db.agents.rows, a.id = b.agentId ∧ a.workspaceId = b.workspaceId

/-- Only the agent and its bindings in the workspace change. -/
structure Touches (workspaceId agentId : String) (db db' : Db) : Prop where
  agents : ∀ a ∈ db'.agents.rows, a.id ≠ agentId → a ∈ db.agents.rows
  kept : ∀ a ∈ db.agents.rows, ∃ a' ∈ db'.agents.rows,
    a'.id = a.id ∧ a'.workspaceId = a.workspaceId
  others : ∀ b, b.agentId ≠ agentId → (b ∈ db'.bindings.rows ↔ b ∈ db.bindings.rows)
  own : ∀ b ∈ db'.bindings.rows, b.agentId = agentId → b.workspaceId = workspaceId ∨
    ∃ b₀ ∈ db.bindings.rows, b₀.agentId = agentId ∧ b₀.workspaceId = b.workspaceId

theorem Touches.refl (db : Db) : Touches workspaceId agentId db db where
  agents _ ha _ := ha
  kept a ha := ⟨a, ha, rfl, rfl⟩
  others _ _ := Iff.rfl
  own b hb hid := .inr ⟨b, hb, hid, rfl⟩

theorem Touches.trans (h : Touches workspaceId agentId db db')
    (h' : Touches workspaceId agentId db' db'') : Touches workspaceId agentId db db'' where
  agents a ha hid := h.agents a (h'.agents a ha hid) hid
  kept a ha := by
    obtain ⟨a', ha', hid, hws⟩ := h.kept a ha
    obtain ⟨a'', ha'', hid', hws'⟩ := h'.kept a' ha'
    exact ⟨a'', ha'', hid'.trans hid, hws'.trans hws⟩
  others b hb := (h'.others b hb).trans (h.others b hb)
  own b hb hid := by
    rcases h'.own b hb hid with hws | ⟨b', hb', hid', hws'⟩
    · exact .inl hws
    · rw [← hws']
      exact h.own b' hb' hid'

/-- A write to the bindings of the agent. -/
theorem Touches.bindings {bindings : Table.Unique AgentMailbox.id AgentMailbox.pair}
    (hothers : ∀ b, b.agentId ≠ agentId → (b ∈ bindings.rows ↔ b ∈ db.bindings.rows))
    (hown : ∀ b ∈ bindings.rows, b.agentId = agentId → b.workspaceId = workspaceId ∨
      ∃ b₀ ∈ db.bindings.rows, b₀.agentId = agentId ∧ b₀.workspaceId = b.workspaceId) :
    Touches workspaceId agentId db { db with bindings := bindings } where
  agents _ ha _ := ha
  kept a ha := ⟨a, ha, rfl, rfl⟩
  others := hothers
  own := hown

/-- A rewrite of bindings of the agent, in their flags and access. -/
theorem Touches.rewrite {bindings : Table.Unique AgentMailbox.id AgentMailbox.pair}
    {f : AgentMailbox → AgentMailbox} (hrows : bindings.rows = db.bindings.rows.map f)
    (hpair : ∀ b, (f b).agentId = b.agentId ∧ (f b).workspaceId = b.workspaceId)
    (hothers : ∀ b ∈ db.bindings.rows, b.agentId ≠ agentId → f b = b) :
    Touches workspaceId agentId db { db with bindings := bindings } := by
  refine .bindings (fun b hb => ?_) fun b hb hid => ?_
  · rw [hrows, List.mem_map]
    constructor
    · rintro ⟨b₀, hb₀, rfl⟩
      rw [(hpair b₀).1] at hb
      rwa [hothers b₀ hb₀ hb]
    · exact fun hmem => ⟨b, hmem, hothers b hmem hb⟩
  · rw [hrows, List.mem_map] at hb
    obtain ⟨b₀, hb₀, rfl⟩ := hb
    exact .inr ⟨b₀, hb₀, (hpair b₀).1.symm.trans hid, (hpair b₀).2.symm⟩

/-- A write to the row of the agent. -/
theorem Touches.agent {f : Agent → Agent} {hid : ∀ a, (f a).id = a.id}
    {hname : ∀ a, (f a).name = a.name} :
    Touches workspaceId agentId db { db with agents := db.agents.update agentId f hid hname } where
  agents a ha hne := by
    rcases Table.mem_update.mp ha with ⟨a₀, _, hid₀, rfl⟩ | ⟨ha, -⟩
    · exact absurd ((hid a₀).trans hid₀) hne
    · exact ha
  kept a ha := by
    by_cases hagent : a.id = agentId
    · refine ⟨f a, List.mem_map.mpr ⟨a, ha, if_pos hagent⟩, hid a, ?_⟩
      exact (Prod.mk.inj (hname a)).1
    · exact ⟨a, List.mem_map.mpr ⟨a, ha, if_neg hagent⟩, rfl, rfl⟩
  others _ _ := Iff.rfl
  own b hb hid := .inr ⟨b, hb, hid, rfl⟩

/-- The bindings stay with their agents. -/
theorem Touches.home (h : Touches workspaceId agentId db db') (hhome : Home db)
    (hagent : ∃ a ∈ db.agents.rows, a.id = agentId ∧ a.workspaceId = workspaceId) : Home db' := by
  -- The agent of a binding of before is still there.
  have hold : ∀ b₀ ∈ db.bindings.rows, ∀ b : AgentMailbox, b₀.agentId = b.agentId →
      b₀.workspaceId = b.workspaceId →
      ∃ a ∈ db'.agents.rows, a.id = b.agentId ∧ a.workspaceId = b.workspaceId := by
    intro b₀ hb₀ b hid hws
    obtain ⟨a, ha, haid, haws⟩ := hhome b₀ hb₀
    obtain ⟨a', ha', hid', hws'⟩ := h.kept a ha
    exact ⟨a', ha', hid'.trans (haid.trans hid), hws'.trans (haws.trans hws)⟩
  intro b hb
  by_cases hid : b.agentId = agentId
  · rcases h.own b hb hid with hws | ⟨b₀, hb₀, hid₀, hws₀⟩
    · obtain ⟨a, ha, haid, haws⟩ := hagent
      obtain ⟨a', ha', hid', hws'⟩ := h.kept a ha
      exact ⟨a', ha', hid'.trans (haid.trans hid.symm), hws'.trans (haws.trans hws.symm)⟩
    · exact hold b₀ hb₀ b (hid₀.trans hid.symm) hws₀
  · exact hold b ((h.others b hid).mp hb) b rfl rfl

/-- The invariant of another agent depends on its own bindings. -/
theorem Bound.of_touches {id : String} {m : Option String} (hbound : Bound db id m)
    (h : Touches workspaceId agentId db db') (hne : id ≠ agentId) : Bound db' id m := by
  have hmem : ∀ b, b.agentId = id → (b ∈ db'.bindings.rows ↔ b ∈ db.bindings.rows) :=
    fun b hb => h.others b (hb ▸ hne)
  constructor
  · intro b hb b' hb' hid hid'
    exact hbound.one b ((hmem b hid).mp hb) b' ((hmem b' hid').mp hb') hid hid'
  · intro m'
    rw [hbound.cache]
    constructor
    · rintro ⟨b, hb, hid, hrest⟩
      exact ⟨b, (hmem b hid).mpr hb, hid, hrest⟩
    · rintro ⟨b, hb, hid, hrest⟩
      exact ⟨b, (hmem b hid).mp hb, hid, hrest⟩
  · intro b hb hid
    exact hbound.sendable b ((hmem b hid).mp hb) hid

theorem Home.isOf_iff (h : Home db) {a : Agent} (ha : a ∈ db.agents.rows) {b : AgentMailbox}
    (hb : b ∈ db.bindings.rows) : b.isOf a.workspaceId a.id = true ↔ b.agentId = a.id := by
  simp only [AgentMailbox.isOf, Bool.and_eq_true, decide_eq_true_eq, and_iff_right_iff_imp]
  intro hid
  obtain ⟨a', ha', hid', hws'⟩ := h b hb
  obtain rfl := Table.Unique.eq_of_key₁ ha' ha (hid'.trans hid)
  exact hws'.symm

/-! ### The bindings of an agent -/

/-- No binding of the agent is primary. -/
def NonePrimary (db : Db) (agentId : String) : Prop :=
  ∀ b ∈ db.bindings.rows, b.agentId = agentId → b.isPrimary = false

theorem Bound.of_none (h : NonePrimary db agentId) : Bound db agentId none where
  one b hb _ _ hid _ hprimary := by
    rw [h b hb hid] at hprimary
    cases hprimary
  cache m := by
    refine iff_of_false nofun ?_
    rintro ⟨b, hb, hid, hprimary, -⟩
    rw [h b hb hid] at hprimary
    cases hprimary
  sendable b hb hid hprimary := by
    rw [h b hb hid] at hprimary
    cases hprimary

theorem Bound.of_one {e : AgentMailbox} (he : e ∈ db.bindings.rows) (hid : e.agentId = agentId)
    (hprimary : e.isPrimary = true) (hsendable : e.access.isSendable = true)
    (honly : ∀ b ∈ db.bindings.rows, b.agentId = agentId → b.isPrimary = true → b = e) :
    Bound db agentId (some e.mailboxAccountId) where
  one b hb b' hb' hid hid' hprimary hprimary' :=
    (honly b hb hid hprimary).trans (honly b' hb' hid' hprimary').symm
  cache m := by
    constructor
    · intro hm
      exact ⟨e, he, hid, hprimary, Option.some.inj hm⟩
    · rintro ⟨b, hb, hbid, hbprimary, rfl⟩
      rw [honly b hb hbid hbprimary]
  sendable b hb hid hprimary := by
    rw [honly b hb hid hprimary]
    exact hsendable

/-! ### Flags -/

theorem demote_rows (l : List AgentMailbox) :
    (db.demote l).bindings.rows = db.bindings.rows.map fun b =>
      if l.any (·.id = b.id) then { b with isPrimary := false } else b := by
  induction l generalizing db with
  | nil => simp [Db.demote]
  | cons e l ih =>
    change ((db.flag e.id false).demote l).bindings.rows = _
    rw [ih]
    change (db.bindings.rows.map _).map _ = _
    rw [List.map_map]
    refine List.map_congr_left fun b _ => ?_
    by_cases he : b.id = e.id
    · simp [he]
    · simp [he, Ne.symm he]

theorem demote_eq (l : List AgentMailbox) :
    db.demote l = { db with bindings := (db.demote l).bindings } := by
  induction l generalizing db with
  | nil => rfl
  | cons e l ih => exact ih

theorem demote_append (l : List AgentMailbox) (e : AgentMailbox) :
    (db.demote l).flag e.id false = db.demote (l ++ [e]) := by
  simp [Db.demote]

/-- Flags of the agent's bindings are cleared. -/
theorem Touches.demote {l : List AgentMailbox}
    (h : ∀ e ∈ l, e ∈ db.bindings.rows ∧ e.agentId = agentId) :
    Touches workspaceId agentId db (db.demote l) := by
  rw [demote_eq]
  refine .rewrite (demote_rows l) (fun b => by split <;> exact ⟨rfl, rfl⟩) fun b hb hne => ?_
  refine if_neg fun hany => ?_
  obtain ⟨e, he, hid⟩ := List.any_eq_true.mp hany
  obtain ⟨hmem, hagent⟩ := h e he
  have heq := Table.Unique.eq_of_key₁ hmem hb (by simpa using hid)
  exact hne (heq ▸ hagent)

/-- The flags are clear where all that were set are cleared. -/
theorem nonePrimary_demote {l : List AgentMailbox}
    (h : ∀ b ∈ db.bindings.rows, b.agentId = agentId → b.isPrimary = true → b ∈ l) :
    NonePrimary (db.demote l) agentId := by
  intro b hb hid
  rw [demote_rows, List.mem_map] at hb
  obtain ⟨b₀, hb₀, rfl⟩ := hb
  split
  · rfl
  · next hany =>
    rw [if_neg hany] at hid
    cases hprimary : b₀.isPrimary with
    | false => rfl
    | true => exact absurd (List.any_eq_true.mpr ⟨b₀, h b₀ hb₀ hid hprimary, by simp⟩) hany

/-! ### What the writes end with -/

/-- The writes end with the mailbox that the row of the agent keeps, and by then its bindings
are as they have to be for it. -/
def Settles (workspaceId agentId : String) (db db' : Db) : Prop :=
  ∃ db₁ m, db' = db₁.setCache agentId m ∧ Touches workspaceId agentId db db₁ ∧ Bound db₁ agentId m

theorem Touches.settles (h : Touches workspaceId agentId db db')
    (hsettles : Settles workspaceId agentId db' db'') : Settles workspaceId agentId db db'' := by
  obtain ⟨db₁, m, rfl, htouches, hbound⟩ := hsettles
  exact ⟨db₁, m, rfl, h.trans htouches, hbound⟩

theorem Settles.touches (h : Settles workspaceId agentId db db') :
    Touches workspaceId agentId db db' := by
  obtain ⟨db₁, m, rfl, htouches, -⟩ := h
  exact htouches.trans .agent

/-- Then every agent is bound. -/
theorem Settles.allBound (h : Settles workspaceId agentId db db')
    (hothers : ∀ a ∈ db.agents.rows, a.id ≠ agentId → Bound db a.id a.mailboxAccountId) :
    AllBound db' := by
  obtain ⟨db₁, m, rfl, htouches, hbound⟩ := h
  intro a ha
  have hsame : ∀ id m', Bound db₁ id m' → Bound (db₁.setCache agentId m) id m' :=
    fun _ _ hb => ⟨hb.one, hb.cache, hb.sendable⟩
  rcases Table.mem_update.mp ha with ⟨a₀, -, rfl, rfl⟩ | ⟨ha, hne⟩
  · exact hsame _ _ hbound
  · refine hsame _ _ ((hothers a (htouches.agents a ha hne) hne).of_touches htouches hne)

/-- Bindings of the agent as they were read, and the rows that stand for them. -/
def Stand (agentId : String) (bindings : List AgentMailbox) (db : Db) : Prop :=
  ∀ n ∈ bindings, ∃ b ∈ db.bindings.rows,
    b.id = n.id ∧ b.agentId = agentId ∧ b.mailboxAccountId = n.mailboxAccountId ∧
      b.access = n.access

theorem promote_settles {bindings : List AgentMailbox} (hnone : NonePrimary db agentId)
    (hstand : Stand agentId bindings db) :
    Settles workspaceId agentId db (db.promote agentId bindings) := by
  unfold Db.promote
  split
  · next n hfind =>
    obtain ⟨b, hb, hid, hagent, hmailbox, haccess⟩ := hstand n (List.mem_of_find?_eq_some hfind)
    have hsendable : n.access.isSendable = true := by simpa using List.find?_some hfind
    have hrow : { b with isPrimary := true } ∈ (db.flag n.id true).bindings.rows :=
      List.mem_map.mpr ⟨b, hb, if_pos hid⟩
    refine ⟨db.flag n.id true, _, rfl, ?_, ?_⟩
    · refine .rewrite rfl (fun b => by split <;> exact ⟨rfl, rfl⟩) fun b' hb' hne => ?_
      refine if_neg fun hid' => hne ?_
      rw [Table.Unique.eq_of_key₁ hb' hb (hid'.trans hid.symm)]
      exact hagent
    · rw [← hmailbox]
      refine @Bound.of_one _ _ { b with isPrimary := true } hrow hagent rfl (haccess ▸ hsendable) ?_
      intro b' hb' hid' hprimary
      rcases Table.mem_update.mp hb' with ⟨b₀, hb₀, hid₀, rfl⟩ | ⟨hb', -⟩
      · rw [Table.Unique.eq_of_key₁ hb₀ hb (hid₀.trans hid.symm)]
      · rw [hnone b' hb' hid'] at hprimary
        cases hprimary
  · exact ⟨db, none, rfl, .refl db, .of_none hnone⟩

/-- Rows whose flags are cleared still stand for the bindings. -/
theorem stand_demote {bindings l : List AgentMailbox}
    (h : ∀ n ∈ bindings, n ∈ db.bindings.rows ∧ n.agentId = agentId) :
    Stand agentId bindings (db.demote l) := by
  intro n hn
  obtain ⟨hmem, hagent⟩ := h n hn
  have hrow : (if l.any (·.id = n.id) then { n with isPrimary := false } else n) ∈
      (db.demote l).bindings.rows := by
    rw [demote_rows]
    exact List.mem_map.mpr ⟨n, hmem, rfl⟩
  refine ⟨_, hrow, ?_⟩
  split <;> exact ⟨rfl, hagent, rfl, rfl⟩

/-- **From any state, `reconcilePrimary` binds the agent.** -/
theorem reconcile_settles (hhome : Home db) {a : Agent} (ha : a ∈ db.agents.rows) :
    Settles a.workspaceId a.id db (reconcilePrimary db a.workspaceId a.id) := by
  unfold reconcilePrimary
  dsimp only
  generalize hbindings : (db.bindings.rows.filter (·.isOf a.workspaceId a.id)).insertionSort
    (bindingBefore · ·) = bindings
  have hmem : ∀ b, b ∈ bindings ↔ b ∈ db.bindings.rows ∧ b.agentId = a.id := by
    intro b
    rw [← hbindings, List.mem_insertionSort, List.mem_filter]
    exact and_congr_right fun hb => hhome.isOf_iff ha hb
  have hnodup : bindings.Nodup := by
    rw [← hbindings, (List.perm_insertionSort _ _).nodup_iff]
    exact (List.Nodup.of_map _ db.bindings.keys₁).filter _
  have hprimaries : ∀ b ∈ db.bindings.rows, b.agentId = a.id → b.isPrimary = true →
      b ∈ bindings.filter (·.isPrimary) :=
    fun b hb hid hprimary => List.mem_filter.mpr ⟨(hmem b).mpr ⟨hb, hid⟩, hprimary⟩
  have hown : ∀ b ∈ bindings.filter (·.isPrimary), b ∈ db.bindings.rows ∧ b.agentId = a.id :=
    fun b hb => (hmem b).mp (List.mem_of_mem_filter hb)
  have hflags := hnodup.filter (·.isPrimary)
  cases hlist : bindings.filter (·.isPrimary) with
  | nil =>
    -- No binding is primary: the oldest sendable one becomes it.
    rw [hlist] at hprimaries
    have hnone : NonePrimary (db.demote []) a.id := nonePrimary_demote hprimaries
    have hstand : Stand a.id bindings (db.demote []) := stand_demote fun n hn => (hmem n).mp hn
    exact promote_settles hnone hstand
  | cons p extras =>
    rw [hlist] at hprimaries hown hflags
    simp only [List.head?_cons, List.tail_cons]
    have hextras : Touches a.workspaceId a.id db (db.demote extras) :=
      .demote fun e he => hown e (List.mem_cons_of_mem p he)
    split
    · next hsendable =>
      -- The first primary binding stays, and the others are no longer primary.
      obtain ⟨hp, hpid⟩ := hown p List.mem_cons_self
      have hpprimary : p.isPrimary = true := by
        have hpmem : p ∈ bindings.filter (·.isPrimary) := by simp [hlist]
        exact List.of_mem_filter hpmem
      have hpextras : p ∉ extras := (List.nodup_cons.mp hflags).1
      have hprow : p ∈ (db.demote extras).bindings.rows := by
        rw [demote_rows]
        refine List.mem_map.mpr ⟨p, hp, if_neg fun hany => hpextras ?_⟩
        obtain ⟨e, he, heid⟩ := List.any_eq_true.mp hany
        have hemem := (hown e (List.mem_cons_of_mem p he)).1
        rwa [← Table.Unique.eq_of_key₁ hemem hp (by simpa using heid)]
      refine ⟨_, _, rfl, hextras, .of_one hprow hpid hpprimary hsendable ?_⟩
      intro b hb hid hprimary
      rw [demote_rows, List.mem_map] at hb
      obtain ⟨b₀, hb₀, rfl⟩ := hb
      split at hprimary
      · cases hprimary
      · next hany =>
        rw [if_neg hany] at hid ⊢
        rcases List.mem_cons.mp (hprimaries b₀ hb₀ hid hprimary) with heq | he
        · exact heq
        · exact absurd (List.any_eq_true.mpr ⟨b₀, he, by simp⟩) hany
    · rw [demote_append]
      have hall : Touches a.workspaceId a.id db (db.demote (extras ++ [p])) := by
        refine .demote fun e he => hown e ?_
        simpa [or_comm] using he
      refine hall.settles (promote_settles (nonePrimary_demote fun b hb hid hprimary => ?_) ?_)
      · have hb := hprimaries b hb hid hprimary
        simpa [or_comm] using hb
      · exact stand_demote fun n hn => (hmem n).mp hn

/-! ### The other writes -/

theorem findBinding_some {mailboxAccountId : String} {b : AgentMailbox}
    (h : db.findBinding workspaceId agentId mailboxAccountId = some b) :
    b ∈ db.bindings.rows ∧ b.agentId = agentId ∧ b.mailboxAccountId = mailboxAccountId := by
  have hb := List.find?_some h
  simp only [AgentMailbox.isOf, Bool.and_eq_true, decide_eq_true_eq] at hb
  exact ⟨List.mem_of_find?_eq_some h, hb.1.2, hb.2⟩

theorem Touches.upsert {fresh : Fresh} {mailboxAccountId : String} {access : MailboxAccessLevel}
    {isPrimary : Bool} :
    Touches workspaceId agentId db
      (upsertBinding db fresh workspaceId agentId mailboxAccountId access isPrimary) := by
  unfold upsertBinding
  split
  · next existing hfind =>
    obtain ⟨hmem, hagent, -⟩ := findBinding_some hfind
    refine .rewrite rfl (fun b => by split <;> exact ⟨rfl, rfl⟩) fun b hb hne => ?_
    refine if_neg fun hid => hne ?_
    rwa [Table.Unique.eq_of_key₁ hb hmem hid]
  · refine .bindings (fun b hb => ?_) fun b hb hid => ?_
    · constructor
      · intro hmem
        rcases Table.Unique.mem_of_mem_insert hmem with hmem | rfl
        · exact hmem
        · exact absurd rfl hb
      · exact Table.Unique.mem_insert_of_mem
    · rcases Table.Unique.mem_of_mem_insert hb with hmem | rfl
      · exact .inr ⟨b, hmem, hid, rfl⟩
      · exact .inl rfl

theorem Touches.clear : Touches workspaceId agentId db (db.clearPrimaries workspaceId agentId) := by
  refine .rewrite rfl (fun b => by split <;> exact ⟨rfl, rfl⟩) fun b _ hne => ?_
  refine if_neg fun hof => hne ?_
  simp only [AgentMailbox.isOf, Bool.and_eq_true, decide_eq_true_eq] at hof
  exact hof.1.2

theorem nonePrimary_clear (hhome : Home db) {a : Agent} (ha : a ∈ db.agents.rows) :
    NonePrimary (db.clearPrimaries a.workspaceId a.id) a.id := by
  intro b hb hid
  obtain ⟨b₀, hb₀, rfl⟩ := List.mem_map.mp hb
  split
  · rfl
  · next hnot =>
    rw [if_neg hnot] at hid
    have hof := (hhome.isOf_iff ha hb₀).mpr hid
    simpa [hof] using hnot

/-- The binding that an upsert leaves, and the others. -/
theorem upsert_spec (hhome : Home db) {a : Agent} (ha : a ∈ db.agents.rows) {fresh : Fresh}
    (hfresh : db.isFresh fresh = true) (mailboxAccountId : String) (access : MailboxAccessLevel)
    (isPrimary : Bool) :
    ∃ e, e.agentId = a.id ∧ e.mailboxAccountId = mailboxAccountId ∧ e.access = access ∧
      e.isPrimary = isPrimary ∧
      ∀ b, b ∈ (upsertBinding db fresh a.workspaceId a.id mailboxAccountId access
          isPrimary).bindings.rows ↔ b = e ∨ (b ∈ db.bindings.rows ∧ b.pair ≠ e.pair) := by
  unfold upsertBinding
  split
  · next existing hfind =>
    obtain ⟨hmem, hagent, hmailbox⟩ := findBinding_some hfind
    refine ⟨{ existing with access := access, isPrimary := isPrimary }, hagent, hmailbox, rfl, rfl,
      fun b => ?_⟩
    refine Table.mem_update.trans (or_congr ?_ ?_)
    · constructor
      · rintro ⟨b₀, hb₀, hid, rfl⟩
        rw [Table.Unique.eq_of_key₁ hb₀ hmem hid]
      · rintro rfl
        exact ⟨existing, hmem, rfl, rfl⟩
    · refine and_congr_right fun hb => not_congr ⟨fun hid => ?_, fun hpair => ?_⟩
      · rw [Table.Unique.eq_of_key₁ hb hmem hid]
        rfl
      · rw [Table.Unique.eq_of_key₂ hb hmem hpair]
  · next hfind =>
    refine ⟨newBinding fresh a.workspaceId a.id mailboxAccountId access isPrimary, rfl, rfl, rfl,
      rfl, fun b => ?_⟩
    have hnew : ∀ b ∈ db.bindings.rows, b.pair ≠ (a.id, mailboxAccountId) := by
      intro b hb hpair
      obtain ⟨hid, hmailbox⟩ := Prod.mk.inj hpair
      have hnot := List.find?_eq_none.mp hfind b hb
      simp [(hhome.isOf_iff ha hb).mpr hid, hmailbox] at hnot
    have hrefuses : db.bindings.refuses
        (newBinding fresh a.workspaceId a.id mailboxAccountId access isPrimary) = false := by
      rw [Table.Unique.refuses_eq_false]
      intro b hb
      rw [Table.Unique.clash_eq_false]
      have hid : b.id ≠ fresh.id := by simpa using List.all_eq_true.mp hfresh b hb
      exact ⟨hid.symm, (hnew b hb).symm⟩
    rw [Table.Unique.mem_insert hrefuses, or_comm]
    exact or_congr_right ⟨fun hb => ⟨hb, hnew b hb⟩, fun hb => hb.1⟩

theorem primaryAccess_sendable (existing : Option AgentMailbox) :
    (primaryAccess existing).isSendable = true := by
  cases existing with
  | none => rfl
  | some b =>
    simp only [primaryAccess]
    cases b.access <;> rfl

theorem Touches.setPrimary {fresh : Fresh} {mailboxAccountId : Option String} :
    Touches workspaceId agentId db
      (setPrimaryMailbox db fresh workspaceId agentId mailboxAccountId) := by
  unfold setPrimaryMailbox
  refine Touches.trans ?_ Touches.agent
  split
  · split
    · exact .clear
    · exact Touches.clear.trans .upsert
  · exact .clear

/-- **`setPrimaryMailbox` binds the agent**, unless it is given the empty text. -/
theorem setPrimary_settles (hhome : Home db) {a : Agent} (ha : a ∈ db.agents.rows) {fresh : Fresh}
    (hfresh : db.isFresh fresh = true) {mailboxAccountId : Option String}
    (hmailbox : mailboxAccountId ≠ some "") :
    Settles a.workspaceId a.id db
      (setPrimaryMailbox db fresh a.workspaceId a.id mailboxAccountId) := by
  have hnone := nonePrimary_clear hhome ha
  have hclear : Touches a.workspaceId a.id db (db.clearPrimaries a.workspaceId a.id) := .clear
  have hhome' := hclear.home hhome ⟨a, ha, rfl, rfl⟩
  unfold setPrimaryMailbox
  cases mailboxAccountId with
  | none => exact ⟨_, _, rfl, hclear, .of_none hnone⟩
  | some m =>
    have hm : m ≠ "" := fun heq => hmailbox (congrArg some heq)
    dsimp only
    rw [if_neg hm]
    have hfresh' : (db.clearPrimaries a.workspaceId a.id).isFresh fresh = true := by
      refine List.all_eq_true.mpr fun b hb => ?_
      obtain ⟨b₀, hb₀, rfl⟩ := List.mem_map.mp hb
      have hne := List.all_eq_true.mp hfresh b₀ hb₀
      split <;> exact hne
    obtain ⟨e, hid, rfl, haccess, hprimary, hrows⟩ := upsert_spec hhome' ha hfresh' m
      (primaryAccess ((db.clearPrimaries a.workspaceId a.id).findBinding a.workspaceId a.id m)) true
    refine ⟨_, _, rfl, hclear.trans .upsert, ?_⟩
    refine .of_one ((hrows e).mpr (.inl rfl)) hid hprimary ?_ fun b hb hbid hbprimary => ?_
    · rw [haccess]
      exact primaryAccess_sendable _
    · rcases (hrows b).mp hb with heq | ⟨hb, -⟩
      · exact heq
      · rw [hnone b hb hbid] at hbprimary
        cases hbprimary

/-- With the empty text, the agent keeps a mailbox that no binding is to. -/
theorem not_bound_setPrimary_empty (hhome : Home db) {a : Agent} (ha : a ∈ db.agents.rows)
    {fresh : Fresh} :
    ¬AllBound (setPrimaryMailbox db fresh a.workspaceId a.id (some "")) := by
  intro hall
  have hnone := nonePrimary_clear hhome ha
  have hrow : { a with mailboxAccountId := some "" } ∈
      (setPrimaryMailbox db fresh a.workspaceId a.id (some "")).agents.rows :=
    List.mem_map.mpr ⟨a, ha, if_pos rfl⟩
  obtain ⟨b, hb, hid, hprimary, -⟩ := ((hall _ hrow).cache "").mp rfl
  rw [hnone b hb hid] at hprimary
  cases hprimary

/-! ### The operations -/

variable {l : Label}

/-- What an operation has to end with. -/
def Keeps (db db' : Db) : Prop :=
  Home db → AllBound db → Home db' ∧ AllBound db'

theorem Settles.keeps {a : Agent} (ha : a ∈ db.agents.rows)
    (h : Settles a.workspaceId a.id db db') : Keeps db db' := by
  intro hhome hall
  exact ⟨h.touches.home hhome ⟨a, ha, rfl, rfl⟩, h.allBound fun a' ha' _ => hall a' ha'⟩

theorem findAgent_some {id : String} {a : Agent} (h : db.findAgent workspaceId id = some a) :
    a ∈ db.agents.rows ∧ a.id = id ∧ a.workspaceId = workspaceId := by
  have ha := List.find?_some h
  simp only [Bool.and_eq_true, decide_eq_true_eq] at ha
  exact ⟨List.mem_of_find?_eq_some h, ha.1, ha.2⟩

theorem Touches.reconcile {a : Agent} (ha : a ∈ db.agents.rows) (hhome : Home db)
    (h : Touches a.workspaceId a.id db db') :
    Settles a.workspaceId a.id db (reconcilePrimary db' a.workspaceId a.id) := by
  obtain ⟨a', ha', hid, hws⟩ := h.kept a ha
  have hsettles := reconcile_settles (h.home hhome ⟨a, ha, rfl, rfl⟩) ha'
  rw [hid, hws] at hsettles
  exact h.settles hsettles

theorem keeps_bind {fresh : Fresh} {input : BindMailboxInput}
    (h : bindMailbox db fresh workspaceId agentId input = .ok (some db')) : Keeps db db' := by
  unfold bindMailbox at h
  split at h
  · cases h
  · next a hfind =>
    obtain ⟨ha, rfl, rfl⟩ := findAgent_some hfind
    split at h
    · cases h
    · cases h
      intro hhome
      refine Settles.keeps ha (Touches.reconcile ha hhome ?_) hhome
      split
      · exact Touches.upsert.trans .setPrimary
      · exact .upsert

theorem keeps_unbind {mailboxAccountId : String}
    (h : unbindMailbox db workspaceId agentId mailboxAccountId = some db') : Keeps db db' := by
  unfold unbindMailbox at h
  split at h
  · cases h
  · next a hfind =>
    obtain ⟨ha, rfl, rfl⟩ := findAgent_some hfind
    split at h
    · next b hbinding =>
      obtain ⟨hb, hbid, -⟩ := findBinding_some hbinding
      cases h
      intro hhome
      refine Settles.keeps ha (Touches.reconcile ha hhome ?_) hhome
      refine .bindings (fun b' hne => ?_) fun b' hb' hid => ?_
      · refine List.mem_filter.trans (and_iff_left_of_imp fun hb' => ?_)
        have hids : b'.id ≠ b.id := fun hid => hne (by rw [Table.Unique.eq_of_key₁ hb' hb hid, hbid])
        simpa using hids
      · exact .inr ⟨b', List.mem_of_mem_filter hb', hid, rfl⟩
    · cases h
      exact fun hhome hall => ⟨hhome, hall⟩

theorem keeps_create {fresh : Fresh} {id : String} {input : CreateAgentInput}
    (hfresh : db.isFresh fresh = true) (hnew : ∀ a ∈ db.agents.rows, a.id ≠ id)
    (h : createAgent db fresh id workspaceId input = .ok db') : Keeps db db' := by
  intro hhome hall
  unfold createAgent at h
  split at h
  · cases h
  · dsimp only at h
    split at h
    · cases h
    · next hrefuses =>
      have hrows : ∀ a, a ∈ (db.agents.insert (input.agent workspaceId id)).rows ↔
          a ∈ db.agents.rows ∨ a = input.agent workspaceId id :=
        fun a => Table.Unique.mem_insert (Bool.eq_false_iff.mpr hrefuses)
      have hhome' : Home { db with agents := db.agents.insert (input.agent workspaceId id) } := by
        intro b hb
        obtain ⟨a, ha, hab⟩ := hhome b hb
        exact ⟨a, (hrows a).mpr (.inl ha), hab⟩
      have hall' :
          AllBound { db with agents := db.agents.insert (input.agent workspaceId id) } := by
        intro a ha
        rcases (hrows a).mp ha with ha | rfl
        · exact ⟨(hall a ha).one, (hall a ha).cache, (hall a ha).sendable⟩
        · -- There are no bindings of the new agent.
          refine .of_none fun b hb hid => ?_
          obtain ⟨a, ha, haid, -⟩ := hhome b hb
          exact absurd (haid.trans hid) (hnew a ha)
      split at h
      · next hmailbox =>
        cases h
        have hmem := (hrows (input.agent workspaceId id)).mpr (.inr rfl)
        have hne : input.mailboxAccountId ≠ some "" := by
          intro heq
          rw [heq] at hmailbox
          cases hmailbox
        exact Settles.keeps hmem (setPrimary_settles hhome' hmem hfresh hne) hhome' hall'
      · cases h
        exact ⟨hhome', hall'⟩

/-- The other columns of an agent are patched. -/
theorem Keeps.patch {existing : Agent} (hexisting : existing ∈ db.agents.rows)
    (patch : UpdateAgentInput) :
    Keeps db { db with
      agents := db.agents.update existing.id patch.apply (fun _ => rfl) fun _ => rfl } := by
  intro hhome hall
  have htouches : Touches existing.workspaceId existing.id db { db with
      agents := db.agents.update existing.id patch.apply (fun _ => rfl) fun _ => rfl } := .agent
  refine ⟨htouches.home hhome ⟨existing, hexisting, rfl, rfl⟩, fun a ha => ?_⟩
  rcases Table.mem_update.mp ha with ⟨a₀, ha₀, -, rfl⟩ | ⟨ha, -⟩
  · exact ⟨(hall a₀ ha₀).one, (hall a₀ ha₀).cache, (hall a₀ ha₀).sendable⟩
  · exact ⟨(hall a ha).one, (hall a ha).cache, (hall a ha).sendable⟩

/-- An update keeps the agents bound if and only if it does not give the empty mailbox. -/
theorem bound_update {fresh : Fresh} {id : String} {patch : UpdateAgentInput}
    (hfresh : db.isFresh fresh = true) (hhome : Home db) (hall : AllBound db)
    (h : updateAgent db fresh workspaceId id patch = .ok (some db')) :
    if patch.mailboxAccountId = some (some "") then ¬AllBound db' else Home db' ∧ AllBound db' := by
  unfold updateAgent at h
  split at h
  · cases h
  · next existing hfind =>
    obtain ⟨hexisting, hid, rfl⟩ := findAgent_some hfind
    obtain ⟨hhome', hall'⟩ := Keeps.patch hexisting patch hhome hall
    have hrow : patch.apply existing ∈ (db.agents.update existing.id patch.apply (fun _ => rfl)
        fun _ => rfl).rows := List.mem_map.mpr ⟨existing, hexisting, if_pos rfl⟩
    split at h
    · cases h
    · dsimp only at h
      split at h
      · next mailbox hmailbox =>
        cases h
        rw [hmailbox]
        split
        · next hempty =>
          obtain rfl := Option.some.inj hempty
          exact not_bound_setPrimary_empty hhome' hrow
        · next hne =>
          have hne' : mailbox ≠ some "" := fun heq => hne (congrArg some heq)
          exact Settles.keeps hrow (setPrimary_settles hhome' hrow hfresh hne') hhome' hall'
      · next hnone =>
        cases h
        rw [hnone, if_neg nofun]
        exact ⟨hhome', hall'⟩

/-- The empty mailbox passes the check, and is written where there is an agent. -/
theorem updateAgent_empty {fresh : Fresh} {id : String} {patch : UpdateAgentInput}
    (h : patch.mailboxAccountId = some (some "")) :
    (∃ db', updateAgent db fresh workspaceId id patch = .ok (some db')) ↔
      (db.findAgent workspaceId id).isSome = true := by
  have hcheck : checkMailbox db workspaceId (some "") = .ok () := rfl
  unfold updateAgent
  cases db.findAgent workspaceId id with
  | none => simp
  | some existing => simp [hcheck, h]

/-! ### Sequences of operations -/

/-- An operation keeps the agents bound if and only if it does not empty one. -/
theorem bound_step (hhome : Home db) (hall : AllBound db) (h : system.step db l = some db') :
    if emptied db l then ¬AllBound db' else Home db' ∧ AllBound db' := by
  change step db l = some db' at h
  cases l with
  | create fresh id workspaceId input =>
    simp only [step] at h
    split at h
    · next hnew =>
      simp only [Bool.and_eq_true, List.all_eq_true, decide_eq_true_eq] at hnew
      split at h
      · next hok =>
        cases h
        exact keeps_create hnew.1 hnew.2 hok hhome hall
      · cases h
        exact ⟨hhome, hall⟩
    · cases h
  | update fresh workspaceId id patch =>
    simp only [step] at h
    split at h
    · next hfresh =>
      by_cases hempty : patch.mailboxAccountId = some (some "")
      · have hwritten := @updateAgent_empty db workspaceId fresh id patch hempty
        have hemptied : emptied db (.update fresh workspaceId id patch) =
            (db.findAgent workspaceId id).isSome := by
          simp [emptied, hempty]
        -- A patch to the empty id is written unless it does not find its agent.
        have hmissing : (∀ db', updateAgent db fresh workspaceId id patch ≠ .ok (some db')) →
            ¬(db.findAgent workspaceId id).isSome = true :=
          fun hrefused hsome => (hwritten.mpr hsome).elim hrefused
        rw [hemptied]
        split at h
        · next hok =>
          cases h
          rw [if_pos (hwritten.mp ⟨_, hok⟩)]
          have hbound := bound_update hfresh hhome hall hok
          rwa [if_pos hempty] at hbound
        · next hok =>
          cases h
          rw [if_neg (hmissing fun _ => by rw [hok]; nofun)]
          exact ⟨hhome, hall⟩
        · next hok =>
          cases h
          rw [if_neg (hmissing fun _ => by rw [hok]; nofun)]
          exact ⟨hhome, hall⟩
      · rw [if_neg (by simp [emptied, hempty])]
        split at h
        · next hok =>
          cases h
          have hbound := bound_update hfresh hhome hall hok
          rwa [if_neg hempty] at hbound
        · cases h
          exact ⟨hhome, hall⟩
        · cases h
          exact ⟨hhome, hall⟩
    · cases h
  | bind fresh workspaceId agentId input =>
    simp only [step] at h
    split at h
    · split at h
      · next hok =>
        cases h
        exact keeps_bind hok hhome hall
      · cases h
        exact ⟨hhome, hall⟩
      · cases h
        exact ⟨hhome, hall⟩
    · cases h
  | unbind workspaceId agentId mailboxAccountId =>
    simp only [step] at h
    cases hunbind : unbindMailbox db workspaceId agentId mailboxAccountId with
    | none =>
      rw [hunbind] at h
      cases h
      exact ⟨hhome, hall⟩
    | some db₁ =>
      rw [hunbind] at h
      cases h
      exact keeps_unbind hunbind hhome hall
  | mailbox m =>
    cases h
    exact ⟨hhome, fun a ha => ⟨(hall a ha).one, (hall a ha).cache, (hall a ha).sendable⟩⟩

/-- **The agents are bound throughout a sequence of operations if and only if none of them
empties one.** -/
theorem always_bound_iff {ls : List Label} (h : system.init db)
    (hrun : system.exec db ls = some db') :
    system.Always AllBound db ls ↔
      system.execUnder (fun db l => emptied db l = false) db ls = some db' := by
  rw [← System.along_iff_execUnder hrun]
  refine System.always_iff_along (fun db => Home db ∧ AllBound db) (fun _ hs => hs.2) ?_ ?_ ?_ hrun
  · intro db l db' ⟨hhome, hall⟩ hl hstep
    have hbound := bound_step hhome hall hstep
    rwa [if_neg (by simp [hl])] at hbound
  · intro db l db' ⟨hhome, hall⟩ hl hstep
    have hbound := bound_step hhome hall hstep
    rwa [if_pos (by simpa using hl)] at hbound
  · obtain ⟨hagents, hbindings⟩ := h
    refine ⟨fun b hb => ?_, fun a ha => ?_⟩
    · rw [hbindings] at hb
      cases hb
    · rw [hagents] at ha
      cases ha

/-! ### An agent that is patched -/

def emptyDb : Db where
  mailboxes := []
  agents := ⟨[], List.nodup_nil, List.nodup_nil⟩
  bindings := ⟨[], List.nodup_nil, List.nodup_nil⟩

/-- An agent is created with a mailbox, and bound to another one to read. -/
def sampleStart : List Label :=
  [.mailbox ⟨"m1", "w1"⟩, .mailbox ⟨"m2", "w1"⟩,
    .create ⟨"b1", 1⟩ "a1" "w1"
      { key := "customer-ops", displayName := "Customer Ops", mailboxAccountId := some "m1" },
    .bind ⟨"b2", 2⟩ "w1" "a1" { mailboxAccountId := "m2", access := some .read }]

/-- The patch with an empty mailbox. -/
def emptyPatch : List Label :=
  [.update ⟨"b3", 3⟩ "w1" "a1" { mailboxAccountId := some (some "") }]

/-- The agent keeps the empty mailbox, and has no primary binding. -/
theorem patched_to_empty :
    ∃ db', system.init emptyDb ∧ system.exec emptyDb (sampleStart ++ emptyPatch) = some db' ∧
      ¬AllBound db' ∧ db'.agents.rows.map (·.mailboxAccountId) = [some ""] ∧
      db'.bindings.rows.map (·.isPrimary) = [false, false] := by
  refine ⟨_, ⟨rfl, rfl⟩, rfl, fun hall => ?_, rfl, rfl⟩
  obtain ⟨b, hb, -, hprimary, -⟩ := ((hall _ List.mem_cons_self).cache "").mp rfl
  revert b
  decide

/-- The primary mailbox is unbound, and the agent raised on the other one. -/
def sampleRest : List Label :=
  [.bind ⟨"b3", 3⟩ "w1" "a1" { mailboxAccountId := "m2", isPrimary := true },
    .unbind "w1" "a1" "m1", .update ⟨"b4", 4⟩ "w1" "a1" { mailboxAccountId := some (some "m1") },
    .unbind "w1" "a1" "m1"]

theorem always_bound_sample :
    ∃ db', system.exec emptyDb (sampleStart ++ sampleRest) = some db' ∧
      system.Always AllBound emptyDb (sampleStart ++ sampleRest) ∧
      db'.agents.rows.map (·.mailboxAccountId) = [some "m2"] := by
  have hrun : system.exec emptyDb (sampleStart ++ sampleRest) = some _ := rfl
  exact ⟨_, hrun, (always_bound_iff ⟨rfl, rfl⟩ hrun).mpr rfl, rfl⟩

end Agents
end EmailOps
