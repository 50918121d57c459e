import EmailOps.Framework.Recency
import EmailOps.Framework.System
import EmailOps.Framework.Text

/-!
# Desktop notifications

A poller lists the inbox of a mailbox and tells of the unread threads that it has not seen. It
begins anew when the mailbox, the preference or the permission changes; an answer to a poller that
has ended is dropped. What it has seen is bounded, so that it may forget a thread.

* `State.tick`, `State.receive` and `State.activate` are the poller's effect and its timer.
* `listed` is what a poller has listed in a run, and `Tracks` what its memory has to do with it.
* `shown_step`: an answer tells of the unread threads that are not among the last 500 listed ones;
  the first answer of a poller tells of none, and nothing else ever does.
-/

namespace EmailOps
namespace DesktopNotifications

open Framework Framework.Text Framework.Recency

/-- `MAX_INDIVIDUAL` -/
def maxIndividual : ℕ := 3

/-- `SEEN_CAP` -/
def seenCap : ℕ := 500

/-- `AGGREGATE_TAG` -/
def aggregateTag : Text := "emailops-aggregate".toList

structure Participant where
  name : Option Text
  address : Text

structure ThreadView where
  id : Text
  unread : Bool
  subject : Option Text
  participants : List Participant

/-- A notification. -/
structure Notice where
  title : Text
  body : Option Text
  tag : Text
  deriving DecidableEq

/-! ### What is shown -/

section Notices

variable [CaseMapping]

/-- The first participant that is not the mailbox itself, by name or else by address. -/
def senderOf (thread : ThreadView) (selfLabel : Option Text) : Text :=
  let self := (selfLabel.map fun label => toLowerCase (trim label)).filter (· ≠ [])
  let other := (thread.participants.find? fun p =>
    p.address ≠ [] && some (toLowerCase p.address) ≠ self) <|> thread.participants.head?
  match other with
  | none => "New message".toList
  | some p =>
    match (p.name.map trim).getD [], p.address with
    | [], [] => "New message".toList
    | [], address => address
    | name, _ => name

/-- `showNotifications`: the first three threads, and one notice for all when there are more. -/
def notices (label : Option Text) (fresh : List ThreadView) : List Notice :=
  let individual := (fresh.take maxIndividual).map fun t =>
    let subject := trim (t.subject.getD [])
    ⟨senderOf t label, some (if subject = [] then "(no subject)".toList else subject), t.id⟩
  if maxIndividual < fresh.length then
    individual ++ [⟨(toString fresh.length ++ " new messages").toList, label, aggregateTag⟩]
  else individual

end Notices

/-! ### The poller -/

inductive Permission where
  | default | granted | denied
  deriving DecidableEq

/-- A run of the effect: a poller, with its number. -/
structure Activation where
  n : ℕ
  inFlight : Bool
  stopped : Bool
  baselined : Bool
  seen : List Text

structure State where
  /-- The stored preference. -/
  pref : Bool
  enabled : Bool
  permission : Permission
  /-- `Notification.permission` -/
  browser : Permission
  /-- The workspace and the mailbox. -/
  target : Option (Text × Text)
  /-- The number of pollers so far. -/
  count : ℕ
  live : Option Activation
  /-- The requests under way, by their pollers. -/
  flying : List ℕ
  shown : List Notice

inductive Label where
  /-- The preference is flipped; the user replies to the prompt, if there is one. -/
  | setEnabled (on : Bool) (reply : Permission)
  /-- The permission is changed in the browser. -/
  | permit (permission : Permission)
  | select (target : Option (Text × Text))
  /-- The timer. -/
  | poll
  | answer (n : ℕ) (rows : List ThreadView) (focused : Bool) (label : Option Text)
  | failure (n : ℕ) (unauthorized : Bool)

namespace State

variable (s : State)

/-- `tick`, up to its request. -/
def tick : State :=
  match s.live with
  | none => s
  | some a =>
    if a.stopped || a.inFlight then s
    else if s.browser ≠ .granted then
      -- the permission is one of the effect's dependencies
      { s with permission := s.browser, live := none }
    else { s with live := some { a with inFlight := true }, flying := s.flying ++ [a.n] }

/-- The effect, after its dependencies have changed. -/
def activate : State :=
  if s.enabled && s.permission = .granted && s.target.isSome then
    tick { s with count := s.count + 1, live := some ⟨s.count, false, false, false, []⟩ }
  else { s with live := none }

/-- The dependencies of the effect are set. -/
def depend (enabled : Bool) (permission : Permission) (target : Option (Text × Text)) : State :=
  if enabled = s.enabled ∧ permission = s.permission ∧ target = s.target then s
  else activate { s with enabled, permission, target }

def setEnabled (on : Bool) (reply : Permission) : State :=
  if on then
    let permission := if s.browser = .default then reply else s.browser
    let asked := { s with browser := permission }
    if permission = .granted then
      depend { asked with pref := true } true permission s.target
    else asked.depend s.enabled permission s.target
  else depend { s with pref := false } false s.permission s.target

/-- `tick`, after its answer. -/
def receive [CaseMapping] (a : Activation) (rows : List ThreadView) (focused : Bool)
    (label : Option Text) : State :=
  let a' := { a with inFlight := false }
  if a.stopped then { s with live := some a' }
  else
    let seen := (rows.map (·.id)).foldl (remember seenCap) a.seen
    if a.baselined then
      let fresh := rows.filter fun t => t.unread && t.id ∉ a.seen
      { s with
        live := some { a' with seen }
        shown := if fresh ≠ [] && !focused then s.shown ++ notices label fresh else s.shown }
    else { s with live := some { a' with seen, baselined := true } }

end State

def step [CaseMapping] (s : State) : Label → Option State
  | .setEnabled on reply => some (s.setEnabled on reply)
  | .permit permission => some { s with browser := permission }
  | .select target => some (s.depend s.enabled s.permission target)
  | .poll => some s.tick
  | .answer n rows focused label =>
    if n ∈ s.flying then
      let s₁ := { s with flying := s.flying.erase n }
      match s.live with
      | some a => some (if a.n = n then s₁.receive a rows focused label else s₁)
      | none => some s₁
    else none
  | .failure n unauthorized =>
    if n ∈ s.flying then
      let s₁ := { s with flying := s.flying.erase n }
      match s.live with
      | some a =>
        some (if a.n = n then
          { s₁ with live := some { a with inFlight := false, stopped := a.stopped || unauthorized } }
        else s₁)
      | none => some s₁
    else none

/-- The page is there, and the effect runs for the first time. -/
def mounted (pref : Bool) (browser : Permission) (target : Option (Text × Text)) : State :=
  State.activate ⟨pref, pref, browser, browser, target, 0, none, [], []⟩

def system [CaseMapping] : System State Label where
  init s := ∃ pref browser target, s = mounted pref browser target
  step := step

/-! ### What a poller has listed -/

/-- What an answer lists for a poller. -/
def Label.lists (n : ℕ) : Label → List Text
  | .answer n' rows _ _ => if n' = n then rows.map (·.id) else []
  | _ => []

def Label.answers (n : ℕ) : Label → Bool
  | .answer n' _ _ _ => n' = n
  | _ => false

/-- What a poller has listed in a run. -/
def listed (n : ℕ) (ls : List Label) : List Text :=
  ls.flatMap (·.lists n)

/-- Has a poller had an answer? -/
def answered (n : ℕ) (ls : List Label) : Bool :=
  ls.any (·.answers n)

theorem listed_snoc (n : ℕ) (ls : List Label) (l : Label) :
    listed n (ls ++ [l]) = listed n ls ++ l.lists n := by
  rw [listed, List.flatMap_append, List.flatMap_singleton]
  rfl

theorem answered_snoc (n : ℕ) (ls : List Label) (l : Label) :
    answered n (ls ++ [l]) = (answered n ls || l.answers n) := by
  rw [answered, List.any_append, List.any_cons, List.any_nil, Bool.or_false]
  rfl

/-- What a poller has seen is what is remembered of its lists, and it waits for one answer at
most. -/
structure Follows (ls : List Label) (s : State) (a : Activation) : Prop where
  lt : a.n < s.count
  seen : a.seen = recent seenCap (listed a.n ls)
  baselined : a.baselined = answered a.n ls
  waits : s.flying.count a.n = if a.inFlight then 1 else 0
  stopped : a.stopped = true → a.inFlight = false

/-- The poller that is live follows the run, and nothing has been listed for later ones. -/
structure Tracks (ls : List Label) (s : State) : Prop where
  later : ∀ n, s.count ≤ n → listed n ls = [] ∧ answered n ls = false ∧ n ∉ s.flying
  live : ∀ a, s.live = some a → Follows ls s a

variable {ls : List Label} {s s' : State} {l : Label}

/-- A label that is no answer. -/
theorem Tracks.quiet (h : Tracks ls s) (hl : ∀ n, l.lists n = [] ∧ l.answers n = false) :
    Tracks (ls ++ [l]) s := by
  have hlisted : ∀ n, listed n (ls ++ [l]) = listed n ls := fun n => by
    rw [listed_snoc, (hl n).1, List.append_nil]
  have hanswered : ∀ n, answered n (ls ++ [l]) = answered n ls := fun n => by
    rw [answered_snoc, (hl n).2, Bool.or_false]
  refine ⟨fun n hn => ?_, fun a ha => ?_⟩
  · rw [hlisted, hanswered]
    exact h.later n hn
  · obtain ⟨hlt, hseen, hbase, hwaits, hstopped⟩ := h.live a ha
    exact ⟨hlt, by rw [hlisted, hseen], by rw [hanswered, hbase], hwaits, hstopped⟩

theorem Tracks.same (h : Tracks ls s) (hcount : s'.count = s.count) (hlive : s'.live = s.live)
    (hflying : s'.flying = s.flying) : Tracks ls s' := by
  refine ⟨fun n hn => ?_, fun a ha => ?_⟩
  · rw [hflying]
    exact h.later n (hcount ▸ hn)
  · obtain ⟨hlt, hseen, hbase, hwaits, hstopped⟩ := h.live a (hlive ▸ ha)
    exact ⟨hcount ▸ hlt, hseen, hbase, hflying ▸ hwaits, hstopped⟩

theorem Tracks.ended (h : Tracks ls s) (hcount : s'.count = s.count) (hlive : s'.live = none)
    (hflying : s'.flying = s.flying) : Tracks ls s' := by
  refine ⟨fun n hn => ?_, fun a ha => ?_⟩
  · rw [hflying]
    exact h.later n (hcount ▸ hn)
  · cases hlive.symm.trans ha

theorem Tracks.tick (h : Tracks ls s) : Tracks ls s.tick ∧ s.tick.shown = s.shown := by
  rw [State.tick]
  split
  · exact ⟨h, rfl⟩
  · next a ha =>
    obtain ⟨hlt, hseen, hbase, hwaits, hstopped⟩ := h.live a ha
    split
    · exact ⟨h, rfl⟩
    · next hidle =>
      rw [Bool.or_eq_true, not_or, Bool.not_eq_true, Bool.not_eq_true] at hidle
      split
      · exact ⟨h.ended rfl rfl rfl, rfl⟩
      · refine ⟨⟨fun n hn => ?_, fun a' ha' => ?_⟩, rfl⟩
        · obtain ⟨hlisted, hanswered, hflying⟩ := h.later n hn
          refine ⟨hlisted, hanswered, fun hmem => ?_⟩
          rcases List.mem_append.mp hmem with hmem | hmem
          · exact hflying hmem
          · rw [List.mem_singleton.mp hmem] at hn
            exact absurd hlt (Nat.not_lt.mpr hn)
        · obtain rfl := Option.some.inj ha'
          refine ⟨hlt, hseen, hbase, ?_, fun hstop => ?_⟩
          · change (s.flying ++ [a.n]).count a.n = 1
            rw [List.count_append, hwaits, hidle.2, List.count_singleton_self]
            rfl
          · exact absurd (hidle.1.symm.trans hstop) Bool.false_ne_true

theorem Tracks.activate (h : Tracks ls s) : Tracks ls s.activate ∧ s.activate.shown = s.shown := by
  rw [State.activate]
  split
  · have hnew : Tracks ls { s with
        count := s.count + 1, live := some ⟨s.count, false, false, false, []⟩ } := by
      refine ⟨fun n hn => h.later n (Nat.le_of_succ_le hn), fun a ha => ?_⟩
      obtain rfl := Option.some.inj ha
      obtain ⟨hlisted, hanswered, hflying⟩ := h.later s.count le_rfl
      refine ⟨Nat.lt_succ_self _, ?_, hanswered.symm, List.count_eq_zero.mpr hflying, nofun⟩
      rw [hlisted]
      rfl
    exact hnew.tick
  · exact ⟨h.ended rfl rfl rfl, rfl⟩

theorem Tracks.depend (h : Tracks ls s) (enabled : Bool) (permission : Permission)
    (target : Option (Text × Text)) : Tracks ls (s.depend enabled permission target) ∧
      (s.depend enabled permission target).shown = s.shown := by
  rw [State.depend]
  split
  · exact ⟨h, rfl⟩
  · have hset : Tracks ls { s with enabled, permission, target } := h.same rfl rfl rfl
    exact hset.activate

theorem Tracks.setEnabled (h : Tracks ls s) (on : Bool) (reply : Permission) :
    Tracks ls (s.setEnabled on reply) ∧ (s.setEnabled on reply).shown = s.shown := by
  rw [State.setEnabled]
  split
  · dsimp only
    generalize (if s.browser = .default then reply else s.browser) = permission
    split
    · have hset : Tracks ls { s with browser := permission, pref := true } := h.same rfl rfl rfl
      exact hset.depend true permission s.target
    · have hset : Tracks ls { s with browser := permission } := h.same rfl rfl rfl
      exact hset.depend s.enabled permission s.target
  · have hset : Tracks ls { s with pref := false } := h.same rfl rfl rfl
    exact hset.depend false s.permission s.target

theorem tracks_mounted (pref : Bool) (browser : Permission) (target : Option (Text × Text)) :
    Tracks [] (mounted pref browser target) := by
  have hblank : Tracks [] ⟨pref, pref, browser, browser, target, 0, none, [], []⟩ :=
    ⟨fun _ _ => ⟨rfl, rfl, List.not_mem_nil⟩, nofun⟩
  exact hblank.activate.1

/-! ### Answers -/

theorem Follows.erase {a : Activation} (h : Follows ls s a) {n : ℕ} (hn : a.n ≠ n)
    (hcount : s'.count = s.count) (hflying : s'.flying = s.flying.erase n) : Follows ls s' a where
  lt := hcount ▸ h.lt
  seen := h.seen
  baselined := h.baselined
  waits := by rw [hflying, List.count_erase_of_ne hn, h.waits]
  stopped := h.stopped

/-- The poller's request is done. -/
theorem Follows.waits_erase {a : Activation} (h : Follows ls s a) (ha : a.n ∈ s.flying) :
    a.stopped = false ∧ (s.flying.erase a.n).count a.n = 0 := by
  have hpos : 0 < s.flying.count a.n := List.count_pos_iff.mpr ha
  have hwaits := h.waits
  have hflight : a.inFlight = true := by
    by_contra hidle
    rw [if_neg hidle] at hwaits
    omega
  rw [if_pos hflight] at hwaits
  refine ⟨Bool.eq_false_iff.mpr fun hstop => ?_, ?_⟩
  · exact Bool.false_ne_true ((h.stopped hstop).symm.trans hflight)
  · rw [List.count_erase_self, hwaits]

theorem Tracks.later_erase (h : Tracks ls s) {n : ℕ} (hn : n ∈ s.flying)
    (hl : ∀ m, m ≠ n → l.lists m = [] ∧ l.answers m = false) (hcount : s'.count = s.count)
    (hflying : s'.flying = s.flying.erase n) (m : ℕ) (hm : s'.count ≤ m) :
    listed m (ls ++ [l]) = [] ∧ answered m (ls ++ [l]) = false ∧ m ∉ s'.flying := by
  obtain ⟨hlisted, hanswered, hout⟩ := h.later m (hcount ▸ hm)
  obtain ⟨hlists, hanswers⟩ := hl m fun heq => hout (heq ▸ hn)
  rw [listed_snoc, answered_snoc, hlisted, hanswered, hlists, hanswers, hflying]
  exact ⟨rfl, rfl, fun hmem => hout (List.mem_of_mem_erase hmem)⟩

section Steps

variable [CaseMapping]

/-- What an answer shows. -/
def told (s : State) (ls : List Label) (n : ℕ) (rows : List ThreadView) (focused : Bool)
    (label : Option Text) : List Notice :=
  if s.live.map (·.n) = some n ∧ answered n ls = true ∧ focused = false then
    notices label (rows.filter fun t =>
      t.unread && decide (Forgotten seenCap (listed n ls) t.id))
  else []

theorem notices_nil (label : Option Text) : notices label [] = [] :=
  rfl

theorem Tracks.answer (h : Tracks ls s) {n : ℕ} {rows : List ThreadView} {focused : Bool}
    {label : Option Text} (hstep : step s (.answer n rows focused label) = some s') :
    Tracks (ls ++ [.answer n rows focused label]) s' ∧
      s'.shown = s.shown ++ told s ls n rows focused label := by
  obtain ⟨hn, hstep⟩ := Option.ite_none_right_eq_some.mp hstep
  have hother : ∀ m, m ≠ n → (Label.answer n rows focused label).lists m = [] ∧
      (Label.answer n rows focused label).answers m = false :=
    fun m hm => ⟨if_neg hm.symm, decide_eq_false hm.symm⟩
  rw [told]
  cases hlive : s.live with
  | none =>
    rw [hlive] at hstep
    obtain rfl := Option.some.inj hstep
    refine ⟨⟨h.later_erase hn hother rfl rfl, fun a ha => ?_⟩, ?_⟩
    · cases ha
    · rw [if_neg (fun hmine => by cases hmine.1), List.append_nil]
  | some a =>
    rw [hlive] at hstep
    obtain rfl := Option.some.inj hstep
    have hfollows := h.live a hlive
    by_cases hmine : a.n = n
    · subst hmine
      obtain ⟨hstopped, hcount⟩ := hfollows.waits_erase hn
      have hseen : (rows.map (·.id)).foldl (remember seenCap) a.seen =
          recent seenCap (listed a.n (ls ++ [.answer a.n rows focused label])) := by
        rw [hfollows.seen, foldl_remember, listed_snoc, Label.lists, if_pos rfl]
      have hanswered : answered a.n (ls ++ [.answer a.n rows focused label]) = true := by
        rw [answered_snoc, Label.answers, decide_eq_true rfl, Bool.or_true]
      rw [if_pos rfl, State.receive, if_neg (hstopped ▸ Bool.false_ne_true)]
      dsimp only
      split
      · next hbase =>
        refine ⟨⟨h.later_erase hn hother rfl rfl, fun a' ha' => ?_⟩, ?_⟩
        · obtain rfl := Option.some.inj ha'
          exact ⟨hfollows.lt, hseen, hbase.trans hanswered.symm, hcount, fun _ => rfl⟩
        · -- What is fresh is what has been forgotten, or was never listed.
          have hfresh : (rows.filter fun t => t.unread && decide (t.id ∉ a.seen)) =
              rows.filter fun t =>
                t.unread && decide (Forgotten seenCap (listed a.n ls) t.id) := by
            refine List.filter_congr fun t _ => ?_
            rw [hfollows.seen]
            exact congrArg _ (decide_eq_decide.mpr forgotten_iff.symm)
          have hanswers : answered a.n ls = true := hfollows.baselined.symm.trans hbase
          rw [hfresh]
          cases focused with
          | true => simp
          | false =>
            refine Eq.trans ?_ (congrArg (s.shown ++ ·) (if_pos ⟨rfl, hanswers, rfl⟩).symm)
            dsimp only
            split
            · rfl
            · next hnone =>
              rw [Bool.not_false, Bool.and_true, decide_eq_true_eq, not_not] at hnone
              rw [hnone, notices_nil, List.append_nil]
      · next hbase =>
        refine ⟨⟨h.later_erase hn hother rfl rfl, fun a' ha' => ?_⟩, ?_⟩
        · obtain rfl := Option.some.inj ha'
          exact ⟨hfollows.lt, hseen, hanswered.symm, hcount, fun _ => rfl⟩
        · rw [if_neg fun hall => hbase (hfollows.baselined.trans hall.2.1), List.append_nil]
    · rw [if_neg hmine]
      refine ⟨⟨h.later_erase hn hother rfl rfl, fun a' ha' => ?_⟩, ?_⟩
      · obtain rfl := Option.some.inj ha'
        have hkept : Follows ls { s with flying := s.flying.erase n } a :=
          hfollows.erase hmine rfl rfl
        obtain ⟨hlt, hseen, hbase, hwaits, hstopped⟩ := hkept
        refine ⟨hlt, ?_, ?_, hwaits, hstopped⟩
        · rw [listed_snoc, (hother a.n hmine).1, List.append_nil, hseen]
        · rw [answered_snoc, (hother a.n hmine).2, Bool.or_false, hbase]
      · rw [if_neg fun hall => hmine (Option.some.inj hall.1), List.append_nil]

theorem Tracks.failure (h : Tracks ls s) {n : ℕ} {unauthorized : Bool}
    (hstep : step s (.failure n unauthorized) = some s') :
    Tracks (ls ++ [.failure n unauthorized]) s' ∧ s'.shown = s.shown := by
  obtain ⟨hn, hstep⟩ := Option.ite_none_right_eq_some.mp hstep
  have hquiet : ∀ m, (Label.failure n unauthorized).lists m = [] ∧
      (Label.failure n unauthorized).answers m = false := fun _ => ⟨rfl, rfl⟩
  have hlater : ∀ {s'' : State}, s''.count = s.count → s''.flying = s.flying.erase n →
      ∀ m, s''.count ≤ m → listed m ls = [] ∧ answered m ls = false ∧ m ∉ s''.flying := by
    intro s'' hcount hflying m hm
    obtain ⟨hlisted, hanswered, hout⟩ := h.later m (hcount ▸ hm)
    exact ⟨hlisted, hanswered, fun hmem => hout (List.mem_of_mem_erase (hflying ▸ hmem))⟩
  cases hlive : s.live with
  | none =>
    rw [hlive] at hstep
    obtain rfl := Option.some.inj hstep
    refine ⟨Tracks.quiet ⟨hlater rfl rfl, fun a ha => ?_⟩ hquiet, rfl⟩
    cases ha
  | some a =>
    rw [hlive] at hstep
    obtain rfl := Option.some.inj hstep
    have hfollows := h.live a hlive
    split
    · next hmine =>
      subst hmine
      obtain ⟨hstopped, hcount⟩ := hfollows.waits_erase hn
      refine ⟨Tracks.quiet ⟨hlater rfl rfl, fun a' ha' => ?_⟩ hquiet, rfl⟩
      obtain rfl := Option.some.inj ha'
      exact ⟨hfollows.lt, hfollows.seen, hfollows.baselined, hcount, fun _ => rfl⟩
    · next hmine =>
      refine ⟨Tracks.quiet ⟨hlater rfl rfl, fun a' ha' => ?_⟩ hquiet, rfl⟩
      obtain rfl := Option.some.inj ha'
      exact hfollows.erase hmine rfl rfl

/-- What a step shows, after a run. -/
def toldBy (s : State) (ls : List Label) : Label → List Notice
  | .answer n rows focused label => told s ls n rows focused label
  | _ => []

theorem Tracks.step (h : Tracks ls s) (hstep : step s l = some s') :
    Tracks (ls ++ [l]) s' ∧ s'.shown = s.shown ++ toldBy s ls l := by
  cases l with
  | answer n rows focused label => exact h.answer hstep
  | failure n unauthorized =>
    rw [show toldBy s ls _ = [] from rfl, List.append_nil]
    exact h.failure hstep
  | setEnabled on reply =>
    obtain rfl := Option.some.inj hstep
    rw [show toldBy s ls _ = [] from rfl, List.append_nil]
    exact ⟨(h.setEnabled on reply).1.quiet fun _ => ⟨rfl, rfl⟩, (h.setEnabled on reply).2⟩
  | permit permission =>
    obtain rfl := Option.some.inj hstep
    rw [show toldBy s ls _ = [] from rfl, List.append_nil]
    exact ⟨Tracks.quiet (h.same rfl rfl rfl) fun _ => ⟨rfl, rfl⟩, rfl⟩
  | select target =>
    obtain rfl := Option.some.inj hstep
    rw [show toldBy s ls _ = [] from rfl, List.append_nil]
    exact ⟨(h.depend _ _ target).1.quiet fun _ => ⟨rfl, rfl⟩, (h.depend _ _ target).2⟩
  | poll =>
    obtain rfl := Option.some.inj hstep
    rw [show toldBy s ls _ = [] from rfl, List.append_nil]
    exact ⟨h.tick.1.quiet fun _ => ⟨rfl, rfl⟩, h.tick.2⟩

/-- **What is shown.** After any run, an answer shows notices exactly if it is to the poller that is
live, not that poller's first, and the window has no focus; they are of the unread threads that were
never listed to that poller, or 500 others after them. No other step shows anything. -/
theorem shown_step {s₀ : State} (hinit : system.init s₀) (hrun : system.exec s₀ ls = some s)
    (hstep : step s l = some s') : s'.shown = s.shown ++ toldBy s ls l := by
  obtain ⟨pref, browser, target, rfl⟩ := hinit
  have htracks : Tracks ls s := System.exec_trace (S := system)
    (tracks_mounted pref browser target) (fun _ _ _ _ hs hnext => (hs.step hnext).1) hrun
  exact (htracks.step hstep).2

end Steps

/-- An unread thread of a colleague. -/
def unreadThread (id : Text) : ThreadView :=
  ⟨id, true, some "Report".toList, [⟨some "Ann".toList, "ann@acme.com".toList⟩]⟩

/-- A first answer, a second one that has a new thread, and one after a switch. -/
def switching : List Label :=
  [.answer 0 [unreadThread "a".toList] false none, .poll,
    .answer 0 [unreadThread "b".toList, unreadThread "a".toList] false none,
    .select (some ("w".toList, "n".toList)),
    .answer 1 [unreadThread "c".toList] false none, .poll]

/-- The poller of the other mailbox lists a thread of the first. -/
def lastAnswer : Label :=
  .answer 1 [unreadThread "b".toList, unreadThread "c".toList] false none

theorem shown_step_switching :
    let s₀ := mounted true .granted (some ("w".toList, "m".toList))
    (system.exec s₀ (switching ++ [lastAnswer])).isSome = true ∧
      ∀ s s', system.exec s₀ switching = some s → step s lastAnswer = some s' →
        s'.shown = s.shown ++ toldBy s switching lastAnswer :=
  ⟨by decide +kernel, fun _ _ hrun hstep => shown_step ⟨_, _, _, rfl⟩ hrun hstep⟩

/-- The thread is told of again. -/
example : ((system.exec (mounted true .granted (some ("w".toList, "m".toList)))
    (switching ++ [lastAnswer])).map fun s => s.shown.map (·.tag)) =
      some ["b".toList, "b".toList] := by
  decide +kernel

end DesktopNotifications
end EmailOps
