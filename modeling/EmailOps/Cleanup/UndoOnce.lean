import EmailOps.Cleanup.Runs
import EmailOps.Cleanup.Undo

/-!
# Undo imports a message once

An undo that fails part-way leaves the archive live for another attempt, and nothing is
recorded about the messages that did come back. So the next attempt imports them again,
and so does an attempt that runs beside another one.

* `undo_at_most_once`: in a run where a restore starts only when none for its batch is
  under way or has imported anything, and only of an archive that lists no message twice,
  every message is imported at most once, and a batch is UNDONE only when all its messages
  were imported.
* `retry_imports_again`: a second attempt after a partial one imports a message twice.
* `UndoneInv` carries the second half; it holds of every run.
-/

namespace EmailOps
namespace Cleanup

open Framework

variable {lib : Library} {bucket : String} {s s' : UndoState} {l : UndoLabel}

/-- No restore for the batch is under way, and none has imported anything. -/
def Unrestored (s : UndoState) (batchId : String) : Prop :=
  (∀ u, (s.restores u).running = true → (s.restores u).batch? ≠ some batchId) ∧
    ∀ id, UndoEvent.imported batchId id ∉ s.events

/-- A restore starts on an unrestored batch, and the archive it downloads lists no message
twice. -/
def RestoresOnce (s : UndoState) : UndoLabel → Prop
  | .undo _ _ _ batchId linked =>
    linked = true → archiveLive s.now (s.archives batchId) = true → Unrestored s batchId
  | .download u => ∀ batchId key zip m, s.restores u = .called batchId key →
      s.base.store key = some zip → zip.manifest = some m → (m.messages.map (·.id)).Nodup
  | _ => True

/-! ### What a step does to the restores -/

/-- Is the step one of a restore? -/
def UndoLabel.restores : UndoLabel → Bool
  | .undo _ _ _ _ _ | .download _ | .importNext _ _ => true
  | _ => false

/-- Any other step leaves the restores alone, and imports nothing. -/
theorem quiet_of_undoStep (h : undoStep lib bucket s l = some s') (hl : l.restores = false) :
    s'.restores = s.restores ∧ ∃ more, s'.events = s.events ++ more ∧
      ∀ batchId id, UndoEvent.imported batchId id ∉ more := by
  have hsame : ∀ {s' : UndoState}, s'.restores = s.restores → s'.events = s.events →
      s'.restores = s.restores ∧ ∃ more, s'.events = s.events ++ more ∧
        ∀ batchId id, UndoEvent.imported batchId id ∉ more := by
    intro s' hrestores hevents
    refine ⟨hrestores, [], ?_, fun _ _ => List.not_mem_nil⟩
    rw [hevents, List.append_nil]
  cases undoMoves_of_step h with
  | tick _ => exact hsame rfl rfl
  | plain _ _ => exact hsame rfl rfl
  | execute _ => exact hsame rfl rfl
  | approve _ => exact hsame rfl rfl
  | ended _ => exact hsame rfl rfl
  | restored _ _ _ => exact hsame rfl rfl
  | mark _ _ => exact hsame rfl rfl
  | finish _ _ =>
    split
    · exact hsame rfl rfl
    · exact hsame rfl rfl
  | purge _ _ _ =>
    -- Messages are deleted, none is imported.
    refine ⟨rfl, _, rfl, fun batchId id hmem => ?_⟩
    cases List.mem_singleton.mp hmem
  | undo | download | missing | importNext | through => cases hl

/-! ### Each message once -/

/-- One restore for a batch runs at a time, and what it has still to import was never
imported. -/
structure OnceInv (s : UndoState) : Prop where
  one : ∀ u u' batchId, (s.restores u).running = true → (s.restores u).batch? = some batchId →
    (s.restores u').running = true → (s.restores u').batch? = some batchId → u = u'
  called : ∀ u batchId key, s.restores u = .called batchId key →
    ∀ id, UndoEvent.imported batchId id ∉ s.events
  ahead : ∀ u batchId zip entries result, s.restores u = .looping batchId zip entries result →
    (entries.map (·.id)).Nodup ∧ ∀ e ∈ entries, UndoEvent.imported batchId e.id ∉ s.events
  once : ∀ batchId id, s.events.count (.imported batchId id) ≤ 1

theorem OnceInv.initial (h : (undoSystem lib bucket).init s) : OnceInv s := by
  obtain ⟨-, -, -, -, hrestores, hevents⟩ := h
  constructor
  · intro u u' batchId hrunning
    rw [hrestores] at hrunning
    cases hrunning
  · intro u batchId key hu
    rw [hrestores] at hu
    cases hu
  · intro u batchId zip entries result hu
    rw [hrestores] at hu
    cases hu
  · intro batchId id
    rw [hevents]
    exact Nat.zero_le 1

/-- Nothing is restored, whatever else happens. -/
theorem OnceInv.quiet (h : OnceInv s) (hrestores : s'.restores = s.restores)
    {more : List UndoEvent} (hevents : s'.events = s.events ++ more)
    (hmore : ∀ batchId id, UndoEvent.imported batchId id ∉ more) : OnceInv s' := by
  have hmem : ∀ {batchId id}, UndoEvent.imported batchId id ∉ s.events →
      UndoEvent.imported batchId id ∉ s'.events := by
    intro batchId id hold hnew
    rw [hevents] at hnew
    cases List.mem_append.mp hnew with
    | inl hin => exact hold hin
    | inr hin => exact hmore batchId id hin
  constructor
  · rw [hrestores]
    exact h.one
  · intro u batchId key hu id
    rw [hrestores] at hu
    exact hmem (h.called u batchId key hu id)
  · intro u batchId zip entries result hu
    rw [hrestores] at hu
    obtain ⟨hnodup, hahead⟩ := h.ahead u batchId zip entries result hu
    exact ⟨hnodup, fun e he => hmem (hahead e he)⟩
  · intro batchId id
    rw [hevents, List.count_append, List.count_eq_zero_of_not_mem (hmore batchId id)]
    exact h.once batchId id

/-- A restore moves on: it stays with its batch, or stops. -/
theorem OnceInv.setRestore (h : OnceInv s) {u : ℕ} {call : RestoreCall}
    (hone : ∀ u' batchId, call.running = true → call.batch? = some batchId →
      (s.restores u').running = true → (s.restores u').batch? = some batchId → u = u')
    (hcalled : ∀ batchId key, call = .called batchId key →
      ∀ id, UndoEvent.imported batchId id ∉ s.events)
    (hahead : ∀ batchId zip entries result, call = .looping batchId zip entries result →
      (entries.map (·.id)).Nodup ∧ ∀ e ∈ entries, UndoEvent.imported batchId e.id ∉ s.events) :
    OnceInv (s.setRestore u call) := by
  have hself : (s.setRestore u call).restores u = call := Function.update_self ..
  have hother : ∀ v, v ≠ u → (s.setRestore u call).restores v = s.restores v :=
    fun v hv => Function.update_of_ne hv ..
  constructor
  · -- Two restores of one batch: neither or both are the one that moves.
    intro v v' batchId hrunning hbatch hrunning' hbatch'
    by_cases hv : v = u
    · subst hv
      rw [hself] at hrunning hbatch
      by_cases hv' : v' = v
      · exact hv'.symm
      · rw [hother v' hv'] at hrunning' hbatch'
        exact hone v' batchId hrunning hbatch hrunning' hbatch'
    · rw [hother v hv] at hrunning hbatch
      by_cases hv' : v' = u
      · subst hv'
        rw [hself] at hrunning' hbatch'
        exact (hone v batchId hrunning' hbatch' hrunning hbatch).symm
      · rw [hother v' hv'] at hrunning' hbatch'
        exact h.one v v' batchId hrunning hbatch hrunning' hbatch'
  · -- A restore that is only called has imported nothing.
    intro v batchId key hcall
    by_cases hv : v = u
    · subst hv
      rw [hself] at hcall
      exact hcalled batchId key hcall
    · rw [hother v hv] at hcall
      exact h.called v batchId key hcall
  · -- What is ahead was not imported.
    intro v batchId zip entries result hcall
    by_cases hv : v = u
    · subst hv
      rw [hself] at hcall
      exact hahead batchId zip entries result hcall
    · rw [hother v hv] at hcall
      exact h.ahead v batchId zip entries result hcall
  · exact h.once

/-- A restore imports a message that is not ahead of it, and was not imported before. -/
theorem OnceInv.noteImport (h : OnceInv s) {u : ℕ} {batchId : String} {zip : Zip}
    {entries : List ManifestEntry} {result : RestoreResult} {id : Text}
    (hcall : s.restores u = .looping batchId zip entries result)
    (hbehind : id ∉ entries.map (·.id)) (hnew : UndoEvent.imported batchId id ∉ s.events) :
    OnceInv (s.note [.imported batchId id]) := by
  have hkeep : ∀ {batchId' id'}, UndoEvent.imported batchId' id' ∉ s.events →
      ¬(batchId' = batchId ∧ id' = id) →
      UndoEvent.imported batchId' id' ∉ s.events ++ [UndoEvent.imported batchId id] := by
    intro batchId' id' hold hne hin
    cases List.mem_append.mp hin with
    | inl hin => exact hold hin
    | inr hin =>
      have heq := List.mem_singleton.mp hin
      injection heq with hbatch hid
      exact hne ⟨hbatch, hid⟩
  -- Another restore is not one of this batch.
  have honly : ∀ v, (s.restores v).running = true → (s.restores v).batch? = some batchId →
      u = v := by
    intro v hrunning hbatch
    exact h.one u v batchId (by rw [hcall]; rfl) (by rw [hcall]; rfl) hrunning hbatch
  constructor
  · exact h.one
  · -- A restore that is called is of another batch.
    intro v batchId' key hv id'
    change s.restores v = .called batchId' key at hv
    refine hkeep (h.called v batchId' key hv id') ?_
    rintro ⟨rfl, -⟩
    obtain rfl := honly v (by rw [hv]; rfl) (by rw [hv]; rfl)
    rw [hcall] at hv
    cases hv
  · -- A restore of another batch has other messages ahead.
    intro v batchId' zip' entries' result' hv
    change s.restores v = .looping batchId' zip' entries' result' at hv
    obtain ⟨hnodup, hahead⟩ := h.ahead v batchId' zip' entries' result' hv
    refine ⟨hnodup, fun e he => hkeep (hahead e he) ?_⟩
    rintro ⟨rfl, hid⟩
    obtain rfl := honly v (by rw [hv]; rfl) (by rw [hv]; rfl)
    rw [hcall] at hv
    cases hv
    exact hbehind (hid ▸ List.mem_map_of_mem he)
  · -- The message is counted once, as it was not there before.
    intro batchId' id'
    change (s.events ++ [UndoEvent.imported batchId id]).count _ ≤ 1
    rw [List.count_append]
    by_cases hthis : batchId' = batchId ∧ id' = id
    · obtain ⟨rfl, rfl⟩ := hthis
      rw [List.count_eq_zero_of_not_mem hnew, List.count_singleton_self]
    · have hne : UndoEvent.imported batchId' id' ∉ [UndoEvent.imported batchId id] := by
        intro hin
        have heq := List.mem_singleton.mp hin
        injection heq with hbatch hid
        exact hthis ⟨hbatch, hid⟩
      rw [List.count_eq_zero_of_not_mem hne]
      exact h.once batchId' id'

/-- A round imports one message, or none. -/
theorem length_restoreRound (lib : Library) (zip : Zip) (entry : ManifestEntry) (answer : ImportAnswer)
    (result : RestoreResult) : (restoreRound lib zip entry answer result).1.length ≤ 1 := by
  unfold restoreRound
  split
  · exact Nat.zero_le 1
  · dsimp only
    split
    · exact Nat.le_refl 1
    · exact Nat.zero_le 1

/-- The next message of a restore is imported, or is not. -/
theorem OnceInv.importNext (h : OnceInv s) {u : ℕ} {batchId : String} {zip : Zip}
    {entry : ManifestEntry} {entries : List ManifestEntry} {result : RestoreResult}
    (hcall : s.restores u = .looping batchId zip (entry :: entries) result) (answer : ImportAnswer) :
    OnceInv ((s.setRestore u (.looping batchId zip entries
      (restoreRound lib zip entry answer result).2)).note
        ((restoreRound lib zip entry answer result).1.map fun _ => .imported batchId entry.id)) := by
  obtain ⟨hnodup, hahead⟩ := h.ahead u batchId zip _ result hcall
  rw [List.map_cons, List.nodup_cons] at hnodup
  have hset : OnceInv (s.setRestore u (.looping batchId zip entries
      (restoreRound lib zip entry answer result).2)) := by
    refine h.setRestore (fun u' id' hrunning hbatch hrunning' hbatch' => ?_)
      (fun _ _ heq => by cases heq) (fun batchId' zip' entries' result' heq => ?_)
    · refine h.one u u' id' ?_ ?_ hrunning' hbatch'
      · rw [hcall]
        rfl
      · rw [hcall]
        exact hbatch
    · cases heq
      exact ⟨hnodup.2, fun e he => hahead e (List.mem_cons_of_mem entry he)⟩
  have hlength := length_restoreRound lib zip entry answer result
  cases himports : (restoreRound lib zip entry answer result).1 with
  | nil => exact hset.quiet rfl rfl fun _ _ => List.not_mem_nil
  | cons message rest =>
    rw [himports, List.length_cons] at hlength
    obtain rfl : rest = [] := List.length_eq_zero_iff.mp (by omega)
    -- The archive lists the message once, so it is not ahead again.
    exact hset.noteImport (u := u) (Function.update_self ..) hnodup.1
      (hahead entry List.mem_cons_self)

theorem OnceInv.step (h : OnceInv s) (hc : RestoresOnce s l)
    (hs : undoStep lib bucket s l = some s') : OnceInv s' := by
  cases hl : l.restores with
  | false =>
    obtain ⟨hrestores, more, hevents, hmore⟩ := quiet_of_undoStep hs hl
    exact h.quiet hrestores hevents hmore
  | true =>
    cases undoMoves_of_step hs with
    | plain _ _ => exact ⟨h.one, h.called, h.ahead, h.once⟩
    | ended _ => exact ⟨h.one, h.called, h.ahead, h.once⟩
    | @undo u _ batchId _ _ _ _ _ hlive hlinked =>
      obtain ⟨hnone, hclean⟩ := hc hlinked hlive
      have hundo : OnceInv (s.setUndo u (.restoring batchId)) :=
        ⟨h.one, h.called, h.ahead, h.once⟩
      refine hundo.setRestore (fun u' id' _ hbatch hrunning' hbatch' => ?_)
        (fun id' key' heq => ?_) (fun _ _ _ _ heq => by cases heq)
      · -- No other restore of the batch is under way.
        obtain rfl : batchId = id' := Option.some.inj hbatch
        exact absurd hbatch' (hnone u' hrunning')
      · cases heq
        exact hclean
    | @download u batchId key zip m hcall hstore hm =>
      refine h.setRestore (fun u' id' _ hbatch => ?_)
        (fun _ _ heq => by cases heq) (fun batchId' zip' entries' result' heq => ?_)
      · -- The restore stays the only one of its batch.
        exact h.one u u' id' (by rw [hcall]; rfl) (by rw [hcall]; exact hbatch)
      · cases heq
        exact ⟨hc batchId key zip m hcall hstore hm, fun e _ => h.called u batchId key hcall e.id⟩
    | importNext hcall _ => exact h.importNext hcall _
    | missing _ =>
      exact h.setRestore (fun _ _ hrunning => by cases hrunning) (fun _ _ heq => by cases heq)
        (fun _ _ _ _ heq => by cases heq)
    | through _ =>
      exact h.setRestore (fun _ _ hrunning => by cases hrunning) (fun _ _ heq => by cases heq)
        (fun _ _ _ _ heq => by cases heq)
    | tick | execute | approve | purge | finish | restored | mark => cases hl

/-! ### Everything came back -/

/-- All messages that a run of the batch has archived were imported. -/
def AllImported (s : UndoState) (batchId : String) : Prop :=
  ∃ j ∈ s.base.jobs, j.key.batchId = batchId ∧
    ∀ id ∈ j.requested, UndoEvent.imported batchId id ∈ s.events

/-- As long as a restore has no failure to report, every message is ahead of it or was
imported, and a batch is marked when nothing is ahead. -/
structure UndoneInv (s : UndoState) : Prop where
  keyed : ∀ id key, (s.archives id).archiveKey = some key →
    key.batchId = id ∧ ∃ j ∈ s.base.jobs, j.key = key
  called : ∀ u batchId key, s.restores u = .called batchId key →
    key.batchId = batchId ∧ ∃ j ∈ s.base.jobs, j.key = key
  looping : ∀ u batchId zip entries result, s.restores u = .looping batchId zip entries result →
    result.failed = [] → ∃ j ∈ s.base.jobs, j.key.batchId = batchId ∧
      ∀ id ∈ j.requested, id ∈ entries.map (·.id) ∨ UndoEvent.imported batchId id ∈ s.events
  answered : ∀ u batchId result, s.restores u = .answered batchId (some result) →
    result.failed = [] → AllImported s batchId
  coupled : ∀ u batchId, s.undos u = .restoring batchId → (s.restores u).batch? = some batchId
  marking : ∀ u batchId, s.undos u = .marking batchId → AllImported s batchId
  restoredAt : ∀ id, (s.archives id).restoredAt.isSome = true → AllImported s id
  undone : ∀ b ∈ s.base.batches, b.state = .undone → (s.archives b.id).restoredAt.isSome = true

theorem AllImported.mono {batchId : String} (h : AllImported s batchId)
    (hjobs : s.base.jobs ⊆ s'.base.jobs) (hevents : s.events ⊆ s'.events) :
    AllImported s' batchId := by
  obtain ⟨j, hj, hid, hall⟩ := h
  exact ⟨j, hjobs hj, hid, fun id hmem => hevents (hall id hmem)⟩

theorem UndoneInv.initial (h : (undoSystem lib bucket).init s) : UndoneInv s := by
  obtain ⟨⟨hbatches, -⟩, harchives, -, hundos, hrestores, -⟩ := h
  constructor
  · intro id key hkey
    rw [harchives] at hkey
    cases hkey
  · intro u batchId key hu
    rw [hrestores] at hu
    cases hu
  · intro u batchId zip entries result hu
    rw [hrestores] at hu
    cases hu
  · intro u batchId result hu
    rw [hrestores] at hu
    cases hu
  · intro u batchId hu
    rw [hundos] at hu
    cases hu
  · intro u batchId hu
    rw [hundos] at hu
    cases hu
  · intro id hid
    rw [harchives] at hid
    cases hid
  · intro b hb
    rw [hbatches] at hb
    cases hb

/-- Jobs and events are added, and a row that is UNDONE is restored. -/
theorem UndoneInv.frame (h : UndoneInv s) (hjobs : s.base.jobs ⊆ s'.base.jobs)
    (hevents : s.events ⊆ s'.events)
    (hundone : ∀ b ∈ s'.base.batches, b.state = .undone →
      (s.archives b.id).restoredAt.isSome = true)
    (harchives : s'.archives = s.archives) (hundos : s'.undos = s.undos)
    (hrestores : s'.restores = s.restores) : UndoneInv s' := by
  constructor
  · intro id key hkey
    rw [harchives] at hkey
    obtain ⟨hid, j, hj, heq⟩ := h.keyed id key hkey
    exact ⟨hid, j, hjobs hj, heq⟩
  · intro u batchId key hu
    rw [hrestores] at hu
    obtain ⟨hid, j, hj, heq⟩ := h.called u batchId key hu
    exact ⟨hid, j, hjobs hj, heq⟩
  · -- What is ahead stays ahead, and what was imported stays imported.
    intro u batchId zip entries result hu hfailed
    rw [hrestores] at hu
    obtain ⟨j, hj, hid, hall⟩ := h.looping u batchId zip entries result hu hfailed
    exact ⟨j, hjobs hj, hid, fun id hmem => (hall id hmem).imp_right fun hin => hevents hin⟩
  · intro u batchId result hu hfailed
    rw [hrestores] at hu
    exact (h.answered u batchId result hu hfailed).mono hjobs hevents
  · rw [hundos, hrestores]
    exact h.coupled
  · intro u batchId hu
    rw [hundos] at hu
    exact (h.marking u batchId hu).mono hjobs hevents
  · intro id hid
    rw [harchives] at hid
    exact (h.restoredAt id hid).mono hjobs hevents
  · rw [harchives]
    exact hundone

theorem UndoneInv.lift (h : UndoneInv s) {k : Label} (hk : ∀ id, k ≠ .settle id .undone)
    (hs : s.lift lib bucket k = some s') : UndoneInv s' := by
  obtain ⟨base, hbase, rfl⟩ := lift_eq_some hs
  have hmoves := moves_of_step hbase
  refine h.frame (moves_grow hmoves).jobs (List.Subset.refl _) (fun b hb hstate => ?_) rfl rfl rfl
  exact h.undone b ((moves_undone hmoves hb hstate).resolve_right (hk b.id)) hstate

/-- An attempt moves on, and is not one that waits for a restore. -/
theorem UndoneInv.setUndo (h : UndoneInv s) {u : ℕ} {call : UndoCall}
    (hcall : ∀ batchId, call = .restoring batchId → (s.restores u).batch? = some batchId)
    (hmarking : ∀ batchId, call = .marking batchId → AllImported s batchId) :
    UndoneInv (s.setUndo u call) := by
  have hself : (s.setUndo u call).undos u = call := Function.update_self ..
  have hother : ∀ v, v ≠ u → (s.setUndo u call).undos v = s.undos v :=
    fun v hv => Function.update_of_ne hv ..
  constructor
  · exact h.keyed
  · exact h.called
  · exact h.looping
  · exact h.answered
  · -- Only the attempt that moves has to be coupled anew.
    intro v batchId hv
    by_cases hvu : v = u
    · subst hvu
      rw [hself] at hv
      exact hcall batchId hv
    · rw [hother v hvu] at hv
      exact h.coupled v batchId hv
  · intro v batchId hv
    by_cases hvu : v = u
    · subst hvu
      rw [hself] at hv
      exact hmarking batchId hv
    · rw [hother v hvu] at hv
      exact h.marking v batchId hv
  · exact h.restoredAt
  · exact h.undone

/-- A restore moves on, for the same batch. -/
theorem UndoneInv.setRestore (h : UndoneInv s) {u : ℕ} {call : RestoreCall}
    (hcalled : ∀ batchId key, call = .called batchId key →
      key.batchId = batchId ∧ ∃ j ∈ s.base.jobs, j.key = key)
    (hlooping : ∀ batchId zip entries result, call = .looping batchId zip entries result →
      result.failed = [] → ∃ j ∈ s.base.jobs, j.key.batchId = batchId ∧
        ∀ id ∈ j.requested, id ∈ entries.map (·.id) ∨ UndoEvent.imported batchId id ∈ s.events)
    (hanswered : ∀ batchId result, call = .answered batchId (some result) →
      result.failed = [] → AllImported s batchId)
    (hcoupled : ∀ batchId, s.undos u = .restoring batchId → call.batch? = some batchId) :
    UndoneInv (s.setRestore u call) := by
  have hself : (s.setRestore u call).restores u = call := Function.update_self ..
  have hother : ∀ v, v ≠ u → (s.setRestore u call).restores v = s.restores v :=
    fun v hv => Function.update_of_ne hv ..
  constructor
  · exact h.keyed
  · intro v batchId key hv
    by_cases hvu : v = u
    · subst hvu
      rw [hself] at hv
      exact hcalled batchId key hv
    · rw [hother v hvu] at hv
      exact h.called v batchId key hv
  · intro v batchId zip entries result hv
    by_cases hvu : v = u
    · subst hvu
      rw [hself] at hv
      exact hlooping batchId zip entries result hv
    · rw [hother v hvu] at hv
      exact h.looping v batchId zip entries result hv
  · intro v batchId result hv
    by_cases hvu : v = u
    · subst hvu
      rw [hself] at hv
      exact hanswered batchId result hv
    · rw [hother v hvu] at hv
      exact h.answered v batchId result hv
  · -- The restore stays with the batch of its attempt.
    intro v batchId hv
    change s.undos v = .restoring batchId at hv
    by_cases hvu : v = u
    · subst hvu
      rw [hself]
      exact hcoupled batchId hv
    · rw [hother v hvu]
      exact h.coupled v batchId hv
  · exact h.marking
  · exact h.restoredAt
  · exact h.undone

/-- The columns of a batch are written. -/
theorem UndoneInv.setArchive (h : UndoneInv s) {id : String} {columns : ArchiveColumns}
    (hkeyed : ∀ key, columns.archiveKey = some key →
      key.batchId = id ∧ ∃ j ∈ s.base.jobs, j.key = key)
    (hrestored : columns.restoredAt.isSome = true → AllImported s id)
    (hundone : (∃ b ∈ s.base.batches, b.id = id ∧ b.state = .undone) →
      columns.restoredAt.isSome = true) :
    UndoneInv (s.setArchive id columns) := by
  have hself : (s.setArchive id columns).archives id = columns := Function.update_self ..
  have hother : ∀ id', id' ≠ id → (s.setArchive id columns).archives id' = s.archives id' :=
    fun id' hne => Function.update_of_ne hne ..
  constructor
  · intro id' key hkey
    by_cases hid : id' = id
    · subst hid
      rw [hself] at hkey
      exact hkeyed key hkey
    · rw [hother id' hid] at hkey
      exact h.keyed id' key hkey
  · exact h.called
  · exact h.looping
  · exact h.answered
  · exact h.coupled
  · exact h.marking
  · intro id' hsome
    by_cases hid : id' = id
    · subst hid
      rw [hself] at hsome
      exact hrestored hsome
    · rw [hother id' hid] at hsome
      exact h.restoredAt id' hsome
  · -- A row that is UNDONE has its date in the new columns too.
    intro b hb hstate
    by_cases hid : b.id = id
    · rw [hid, hself]
      exact hundone ⟨b, hb, hid, hstate⟩
    · rw [hother b.id hid]
      exact h.undone b hb hstate

/-- A round without a failure has imported its message. -/
theorem imported_of_restoreRound {zip : Zip} {entry : ManifestEntry} {answer : ImportAnswer}
    {result : RestoreResult} (hanswer : answer.raised = none → answer.imported = true)
    (h : (restoreRound lib zip entry answer result).2.failed = []) :
    result.failed = [] ∧ (restoreRound lib zip entry answer result).1 ≠ [] := by
  unfold restoreRound at h ⊢
  split at h
  · cases List.append_eq_nil_iff.mp h with
    | intro _ hnil => cases hnil
  · next message heq =>
    dsimp only at h ⊢
    split at h
    · next hraised =>
      rw [if_pos (hanswer hraised)]
      exact ⟨h, List.cons_ne_nil _ _⟩
    · cases List.append_eq_nil_iff.mp h with
      | intro _ hnil => cases hnil

/-- The archive that is downloaded lists the messages of a job of the batch. -/
theorem UndoneInv.download (h : UndoneInv s) (hbase : Inv lib s.base) {u : ℕ} {batchId : String}
    {key : ArchiveKey} {zip : Zip} {m : Manifest} (hcall : s.restores u = .called batchId key)
    (hstore : s.base.store key = some zip) (hm : zip.manifest = some m) :
    UndoneInv (s.setRestore u (.looping batchId zip m.messages ⟨0, []⟩)) := by
  refine h.setRestore (fun _ _ heq => by cases heq) (fun batchId' zip' entries' result' heq _ => ?_)
    (fun _ _ heq => by cases heq) (fun batchId' hu => ?_)
  · cases heq
    obtain ⟨hid, -⟩ := h.called u batchId key hcall
    obtain ⟨j, hj, rfl, hcovers⟩ := hbase.stored key zip hstore
    refine ⟨j, hj, hid, fun id hmem => .inl ?_⟩
    obtain ⟨raw, -, m', entry, hm', hentry, rfl, -⟩ := hcovers id hmem
    obtain rfl : m' = m := Option.some.inj (hm'.symm.trans hm)
    exact List.mem_map_of_mem hentry
  · have hbatch := h.coupled u batchId' hu
    rwa [hcall] at hbatch

/-- The next message of the archive is imported, or its failure is noted. -/
theorem UndoneInv.importNext (h : UndoneInv s) {u : ℕ} {batchId : String} {zip : Zip}
    {entry : ManifestEntry} {entries : List ManifestEntry} {result : RestoreResult}
    {answer : ImportAnswer}
    (hcall : s.restores u = .looping batchId zip (entry :: entries) result)
    (hanswer : answer.raised = none → answer.imported = true) :
    UndoneInv ((s.setRestore u (.looping batchId zip entries
      (restoreRound lib zip entry answer result).2)).note
        ((restoreRound lib zip entry answer result).1.map fun _ => .imported batchId entry.id)) := by
  -- Note the import before the restore moves on.
  change UndoneInv ((s.note ((restoreRound lib zip entry answer result).1.map fun _ =>
    .imported batchId entry.id)).setRestore u (.looping batchId zip entries
      (restoreRound lib zip entry answer result).2))
  have hnoted : UndoneInv (s.note ((restoreRound lib zip entry answer result).1.map fun _ =>
      .imported batchId entry.id)) :=
    h.frame (List.Subset.refl _) (List.subset_append_left _ _) h.undone rfl rfl rfl
  refine hnoted.setRestore (fun _ _ heq => by cases heq)
    (fun batchId' zip' entries' result' heq hfailed => ?_) (fun _ _ heq => by cases heq)
    (fun batchId' hu => ?_)
  · cases heq
    obtain ⟨hsofar, himported⟩ := imported_of_restoreRound hanswer hfailed
    obtain ⟨j, hj, hid, hall⟩ := h.looping u batchId zip _ result hcall hsofar
    refine ⟨j, hj, hid, fun id hmem => ?_⟩
    -- The message is behind, still ahead, or the one imported now.
    cases hall id hmem with
    | inr hold => exact .inr (List.mem_append_left _ hold)
    | inl hahead =>
      cases List.mem_cons.mp hahead with
      | inr hrest => exact .inl hrest
      | inl hthis =>
        obtain ⟨message, rest, hround⟩ := List.exists_cons_of_ne_nil himported
        refine .inr (List.mem_append_right _ ?_)
        rw [hround, hthis]
        exact List.mem_cons_self
  · -- The restore stays with its batch.
    have hbatch := hnoted.coupled u batchId' hu
    change (s.restores u).batch? = some batchId' at hbatch
    rwa [hcall] at hbatch

/-- The row of a cleanup is written, with its archive. -/
theorem UndoneInv.finish (h : UndoneInv s) (hruns : RunsInv lib s.base)
    {c count : ℕ} {job : Job} {backup : Option BackupRef} {base : State}
    (hrun : s.base.runs c = .applying job backup)
    (hstep : Cleanup.step lib bucket s.base (.finish c count) = some base) :
    UndoneInv (if job.entry = .executeCleanup && s.base.batches.any (·.id = job.key.batchId) then
        { s with base := base }
      else ({ s with base := base } : UndoState).setArchive job.key.batchId
        (recordColumns bucket job backup (s.kept c) (s.archives job.key.batchId))) := by
  have hmoves := moves_of_step hstep
  have hgrows := moves_grow hmoves
  have hback : ∀ b ∈ base.batches, b.state = .undone → b ∈ s.base.batches := by
    intro b hb hstate
    exact (moves_undone hmoves hb hstate).resolve_right fun heq => by cases heq
  have hlift : UndoneInv { s with base := base } :=
    h.frame hgrows.jobs (List.Subset.refl _)
      (fun b hb hstate => h.undone b (hback b hb hstate) hstate) rfl rfl rfl
  have hjob : job ∈ base.jobs := hgrows.jobs (hruns.mem c job (by rw [hrun]; rfl))
  split
  · exact hlift
  · refine hlift.setArchive (fun key hkey => ?_) (fun hrestored => ?_) (fun hundone => ?_)
    · -- The key is that of the job, or the row had it before.
      unfold recordColumns at hkey
      split at hkey
      · obtain ⟨-, -, rfl⟩ := Option.map_eq_some_iff.mp hkey
        exact ⟨rfl, job, hjob, rfl⟩
      · obtain rfl := Option.some.inj hkey
        exact ⟨rfl, job, hjob, rfl⟩
      · exact hlift.keyed _ key hkey
    · unfold recordColumns at hrestored
      split at hrestored
      · cases hrestored
      · exact hlift.restoredAt _ hrestored
      · exact hlift.restoredAt _ hrestored
    · obtain ⟨b, hb, hid, hstate⟩ := hundone
      have hold := h.undone b (hback b hb hstate) hstate
      rw [hid] at hold
      unfold recordColumns
      split
      · next hentry =>
        -- An immediate cleanup has had no row.
        obtain ⟨hrow, -⟩ := hruns.alone c job (by rw [hrun]; rfl) hentry
        exact absurd (hid ▸ List.mem_map_of_mem (hback b hb hstate)) hrow
      · exact hold
      · exact hold

theorem UndoneInv.mark (h : UndoneInv s) {u : ℕ} {batchId : String} {base : State}
    (hcall : s.undos u = .marking batchId)
    (hstep : Cleanup.step lib bucket s.base (.settle batchId .undone) = some base) :
    UndoneInv (({ s with base := base } : UndoState).markUndone u batchId) := by
  have hmoves := moves_of_step hstep
  -- The archive is written first, so that the row may become UNDONE.
  have hset : UndoneInv (s.setArchive batchId { s.archives batchId with restoredAt := some s.now }) :=
    h.setArchive (h.keyed batchId) (fun _ => h.marking u batchId hcall) (fun _ => rfl)
  have hself : (s.setArchive batchId { s.archives batchId with restoredAt := some s.now }).archives
      batchId = { s.archives batchId with restoredAt := some s.now } := Function.update_self ..
  have hlift : UndoneInv (({ s with base := base } : UndoState).setArchive batchId
      { s.archives batchId with restoredAt := some s.now }) := by
    refine hset.frame (moves_grow hmoves).jobs (List.Subset.refl _) (fun b hb hstate => ?_)
      rfl rfl rfl
    cases moves_undone hmoves hb hstate with
    | inl hold => exact hset.undone b hold hstate
    | inr heq =>
      injection heq with hid
      rw [← hid, hself]
      rfl
  exact hlift.setUndo (fun _ heq => by cases heq) (fun _ heq => by cases heq)

/-- **Every step keeps it.** -/
theorem UndoneInv.step (h : UndoneInv s) (hbase : Inv lib s.base) (hruns : RunsInv lib s.base)
    (hs : undoStep lib bucket s l = some s') : UndoneInv s' := by
  -- A step of the protocol below marks no batch UNDONE, except where an attempt does.
  have hlift : ∀ {k base}, Cleanup.step lib bucket s.base k = some base →
      (∀ id, k ≠ .settle id .undone) → UndoneInv { s with base := base } := by
    intro k base hstep hk
    exact h.lift hk (by rw [UndoState.lift, hstep]; rfl)
  cases undoMoves_of_step hs with
  | tick _ =>
    exact ⟨h.keyed, h.called, h.looping, h.answered, h.coupled, h.marking, h.restoredAt, h.undone⟩
  | plain hplain hstep =>
    refine hlift hstep fun id heq => ?_
    subst heq
    cases l <;> cases hplain
  | execute hstep =>
    have hbelow := hlift hstep fun _ heq => by cases heq
    exact hbelow.frame (List.Subset.refl _) (List.Subset.refl _) hbelow.undone rfl rfl rfl
  | approve hstep =>
    have hbelow := hlift hstep fun _ heq => by cases heq
    exact hbelow.frame (List.Subset.refl _) (List.Subset.refl _) hbelow.undone rfl rfl rfl
  | purge _ _ hstep =>
    have hbelow := hlift hstep fun _ heq => by cases heq
    exact hbelow.frame (List.Subset.refl _) (List.subset_append_left _ _) hbelow.undone rfl rfl rfl
  | finish hrun hstep => exact h.finish hruns hrun hstep
  | mark hcall hstep => exact h.mark hcall hstep
  | ended _ => exact h.setUndo (fun _ heq => by cases heq) (fun _ heq => by cases heq)
  | @undo u _ batchId _ _ key hidle hkey _ _ =>
    -- The engine is called before the attempt waits for it.
    change UndoneInv ((s.setRestore u (.called batchId key)).setUndo u (.restoring batchId))
    have hself : (s.setRestore u (.called batchId key)).restores u = .called batchId key :=
      Function.update_self ..
    have hcalled : UndoneInv (s.setRestore u (.called batchId key)) := by
      refine h.setRestore (fun batchId' key' heq => ?_) (fun _ _ _ _ heq => by cases heq)
        (fun _ _ heq => by cases heq) (fun batchId' hu => ?_)
      · cases heq
        exact h.keyed batchId key hkey
      · rw [hidle] at hu
        cases hu
    refine hcalled.setUndo (fun batchId' heq => ?_) (fun _ heq => by cases heq)
    cases heq
    rw [hself]
    rfl
  | download hcall hstore hm => exact h.download hbase hcall hstore hm
  | importNext hcall hanswer => exact h.importNext hcall hanswer
  | @missing u _ _ hcall =>
    refine h.setRestore (fun _ _ heq => by cases heq) (fun _ _ _ _ heq => by cases heq)
      (fun _ _ heq => by cases heq) (fun batchId' hu => ?_)
    have hbatch := h.coupled u batchId' hu
    rwa [hcall] at hbatch
  | @through u _ batchId zip result hcall =>
    refine h.setRestore (fun _ _ heq => by cases heq) (fun _ _ _ _ heq => by cases heq)
      (fun batchId' result' heq hfailed => ?_) (fun batchId' hu => ?_)
    · cases heq
      -- Nothing is ahead of a restore that is through.
      obtain ⟨j, hj, hid, hall⟩ := h.looping u batchId zip [] result hcall hfailed
      exact ⟨j, hj, hid, fun id hmem => (hall id hmem).resolve_left List.not_mem_nil⟩
    · have hbatch := h.coupled u batchId' hu
      rwa [hcall] at hbatch
  | @restored u batchId batchId' result hundo hcall hfailed =>
    refine h.setUndo (fun _ heq => by cases heq) (fun id heq => ?_)
    cases heq
    -- The answer is that of the batch the attempt waits for.
    have hbatch := h.coupled u batchId hundo
    rw [hcall] at hbatch
    obtain rfl : batchId' = batchId := Option.some.inj hbatch
    exact h.answered u batchId' result hcall hfailed

theorem undoneInv_of_reachable (h : (undoSystem lib bucket).Reachable s) : UndoneInv s := by
  refine h.invariant (fun s => UndoneInv.initial) ?_
  intro s l s' hreach hinv hstep
  have hbase := (archivesOf lib bucket).reachable hreach
  exact hinv.step (inv_of_reachable hbase) (runsInv_of_reachable hbase) hstep

/-! ### The result -/

/-- **Undo imports at most once, and undoes wholly.** When a restore starts only on a batch
that none has touched, every message of a batch is imported at most once, and a batch is
UNDONE only when all the messages its runs have archived were imported. -/
theorem undo_at_most_once (h : (undoSystem lib bucket).ReachableUnder RestoresOnce s) :
    (∀ batchId id, s.events.count (.imported batchId id) ≤ 1) ∧
      ∀ b ∈ s.base.batches, b.state = .undone → ∀ j ∈ s.base.jobs, j.key.batchId = b.id →
        ∀ id ∈ j.requested, .imported b.id id ∈ s.events := by
  have honce : OnceInv s := by
    refine h.invariant (fun s => OnceInv.initial) ?_
    intro s l s' _ hinv hc hstep
    exact hinv.step hc hstep
  have hundone := undoneInv_of_reachable h.reachable
  refine ⟨honce.once, ?_⟩
  intro b hb hstate j hj hid id hmem
  obtain ⟨j', hj', hid', hall⟩ := hundone.restoredAt b.id (hundone.undone b hb hstate)
  -- All jobs of a batch have archived the same messages.
  have hsame := (inv_base h.reachable).same j hj j' hj' (hid.trans hid'.symm)
  exact hall id (hsame ▸ hmem)

/-- A batch of two messages is deleted and undone. -/
theorem undo_at_most_once_run : ∃ s,
    (undoSystem sampleLibrary "archives").ReachableUnder RestoresOnce s ∧
    (∃ b ∈ s.base.batches, b.id = "b" ∧ b.state = .undone) ∧
    ((∀ batchId id, s.events.count (.imported batchId id) ≤ 1) ∧
      ∀ b ∈ s.base.batches, b.state = .undone → ∀ j ∈ s.base.jobs, j.key.batchId = b.id →
        ∀ id ∈ j.requested, .imported b.id id ∈ s.events) := by
  have hfirst : ∀ s : UndoState, (∀ u, s.restores u = .idle) →
      s.events = [UndoEvent.deleted 0 ["m1".toList, "m2".toList]] → Unrestored s "b" := by
    intro s hrestores hevents
    constructor
    · intro u hrunning
      rw [hrestores] at hrunning
      cases hrunning
    · intro id hmem
      rw [hevents] at hmem
      cases List.mem_singleton.mp hmem
  have r0 : (undoSystem sampleLibrary "archives").ReachableUnder RestoresOnce noUndo :=
    .init noUndo_init
  have r1 := r0.next (.stage ⟨"b", "ws", .gmail, .delete, .pending, sampleRows,
    "category:promotions".toList, none, none⟩) trivial rfl
  have r2 := r1.next (.approve 0 "ws" "b" true false "2026-01-01T00-00-00-000Z") trivial rfl
  have r3 := r2.next (.exportMessages 0 "2026-01-01T00:00:00Z".toList fun n =>
    if n = 0 then .gmail (some "aGk=".toList) [] else .gmail (some "eW8=".toList) []) trivial rfl
  have r4 := r3.next (.answer 0) trivial rfl
  have r5 := r4.next (.verify 0) trivial rfl
  have r6 := r5.next (.delete 0) trivial rfl
  have r7 := r6.next (.purge 0 false ["m1".toList, "m2".toList]) trivial rfl
  have r8 := r7.next (.finish 0 2) trivial rfl
  have r9 := r8.next (.undo 0 "ws" .gmail "b" true) (fun _ _ => hfirst _ (fun _ => rfl) rfl) rfl
  have r10 := r9.next (.download 0) (fun batchId key zip m hcall hstore hm => by
    cases hcall
    obtain rfl := Option.some.inj hstore
    obtain rfl := Option.some.inj hm
    decide) rfl
  have r11 := r10.next (.importNext 0 .accepted) trivial rfl
  have r12 := r11.next (.importNext 0 .accepted) trivial rfl
  have r13 := r12.next (.importNext 0 .accepted) trivial rfl
  have r14 := r13.next (.restored 0) trivial rfl
  have r15 := r14.next (.mark 0) trivial rfl
  obtain ⟨s, hreach, hundone⟩ : ∃ s,
      (undoSystem sampleLibrary "archives").ReachableUnder RestoresOnce s ∧
      ∃ b ∈ s.base.batches, b.id = "b" ∧ b.state = .undone :=
    ⟨_, r15, _, List.mem_singleton_self _, rfl, rfl⟩
  exact ⟨s, hreach, hundone, undo_at_most_once hreach⟩

/-- The second message of an archive cannot be imported at first. The next attempt imports
the first one again. -/
theorem retry_imports_again : ∃ s, (undoSystem sampleLibrary "archives").Reachable s ∧
    s.events.count (.imported "b" "m1".toList) = 2 := by
  let run : List UndoLabel := deletedSteps ++
    [.undo 0 "ws" .gmail "b" true, .download 0, .importNext 0 .accepted,
      .importNext 0 refusedImport, .importNext 0 .accepted, .restored 0,
      .undo 1 "ws" .gmail "b" true, .download 1, .importNext 1 .accepted]
  have hrun : ((undoSystem sampleLibrary "archives").exec noUndo run).isSome = true := rfl
  exact ⟨_, System.exec_reachable noUndo_init (Option.some_get hrun).symm, rfl⟩

end Cleanup
end EmailOps
