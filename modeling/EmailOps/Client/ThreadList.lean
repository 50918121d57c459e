import EmailOps.Framework.System
import EmailOps.Framework.Text

/-!
# The thread list of the mail client

The client shows the threads of a view: a mailbox or all inboxes, a folder or a custom folder,
and a query. Lists are fetched when the view changes, when the user pages or refreshes, by a
poll, and after most actions; an answer counts only if no fetch has begun after it. Actions take
their threads out of the list at once, and put the list back when they fail.

* `State.fetch` is `fetchThreads` up to its request, `State.answer` and `State.failure` what
  comes after it. `State.display` is the effect that follows a change of the view.
* `Action` is an action that awaits its answer, with what it has captured.
* `Effect` says what a step does to the list, and `effect_of_step` that it does no more.
-/

namespace EmailOps
namespace ThreadList

open Framework

/-! ### Views -/

inductive MailFolder where
  | inbox | archive | spam | trash | sent | drafts
  deriving DecidableEq

inductive BulkAction where
  | archive | trash | spam | inbox | read | unread
  deriving DecidableEq

/-- The folder that an action moves to. -/
def BulkAction.folder : BulkAction → Option MailFolder
  | .archive => some .archive
  | .trash => some .trash
  | .spam => some .spam
  | .inbox => some .inbox
  | .read | .unread => none

/-- `ALL_INBOXES` -/
def allInboxes : Text := "__all_inboxes__".toList

/-- `PAGE_SIZE` -/
def pageSize : ℕ := 50

/-- What is selected. -/
structure View where
  mailbox : Text
  folder : MailFolder
  custom : Option Text
  query : Text
  deriving DecidableEq

/-- Where threads come from: the arguments of a list request. -/
inductive Source where
  | aggregate (folder : MailFolder) (query : Text)
  | custom (mailbox id : Text) (query : Text)
  | folder (mailbox : Text) (folder : MailFolder) (query : Text)
  deriving DecidableEq

/-- The list that a fetch asks for; a live custom folder overrides the folder. -/
def sourceOf (mailbox : Text) (folder : MailFolder) (custom : Option Text) (query : Text) : Source :=
  if mailbox = allInboxes then .aggregate folder query
  else
    match custom with
    | some id => .custom mailbox id query
    | none => .folder mailbox folder query

/-- The list that a view is of. -/
def View.source (v : View) : Source :=
  sourceOf v.mailbox v.folder v.custom v.query

/-- A thread of a list. -/
structure Thread where
  id : Text
  mailbox_id : Option Text
  unread : Bool
  flagged : Bool

/-- A thread that is shown, with the list that it came in. -/
structure Row extends Thread where
  source : Source

/-! ### Requests and actions -/

/-- A list request that is under way. -/
structure Request where
  n : ℕ
  mailbox : Text
  source : Source
  offset : ℕ
  append : Bool
  silent : Bool

inductive Load where
  | loading | ready | error
  deriving DecidableEq

/-- What an action has captured. -/
inductive Capture where
  /-- `moveThreadToFolder` and `snoozeThreadUntil`. -/
  | move (id : Text) (before : List Row) (prevOpen : Option Text)
  /-- `moveThreadsToFolder`, whose requests each have their own answer. -/
  | moveAll
  /-- `bulk`; the list from before, if threads were taken out. -/
  | bulk (before : Option (List Row))
  | triage (id : Text)
  | compose
  /-- `emptyFolder` -/
  | empty (target : MailFolder)

/-- The list that is put back. -/
def Capture.before : Capture → Option (List Row)
  | .move _ before _ => some before
  | .bulk before => before
  | _ => none

/-- An action that awaits its answer, and the view that it began in. Its query is the one of that
view, and the mailbox that is emptied too. -/
structure Action where
  capture : Capture
  since : View

/-- How a request fails. -/
inductive Fault where
  | unauthorized
  | missing
  | other
  deriving DecidableEq

/-- How an action ends. -/
inductive Outcome where
  | done
  /-- Not everything was done. -/
  | partly
  | failed
  deriving DecidableEq

structure State where
  view : View
  /-- `threadReqRef` -/
  req : ℕ
  flying : List Request
  threads : List Row
  load : Load
  hasMore : Bool
  loadingMore : Bool
  /-- The request of a manual refresh, and that of a poll. -/
  refreshing : Option ℕ
  polling : Option ℕ
  /-- `features.aggregate` -/
  aggregate : Bool
  openThread : Option Text
  actions : ℕ → Option Action
  /-- The session has lapsed: the client goes to the login page. -/
  left : Bool

/-- A step; the numbers of actions are those of their calls. -/
inductive Label where
  | selectMailbox (id : Text)
  | selectFolder (folder : MailFolder)
  | selectCustomFolder (id : Text)
  | setQuery (query : Text)
  | refreshThreads
  | loadMore
  | refresh
  | poll
  | selectThread (id : Option Text)
  | markRead (ids : List Text) (read : Bool)
  | toggleFlag (id : Text) (flagged : Bool)
  | beginMove (c : ℕ) (id : Text)
  | beginMoveAll (c : ℕ) (ids : List Text)
  | beginBulk (c : ℕ) (ids : List Text) (action : BulkAction)
  | beginTriage (c : ℕ) (id : Text)
  | beginCompose (c : ℕ)
  | beginEmpty (c : ℕ) (target : MailFolder)
  | finish (c : ℕ) (outcome : Outcome)
  /-- The answer to a list request. -/
  | answer (n : ℕ) (page : List Thread)
  | failure (n : ℕ) (fault : Fault)

namespace State

variable (s : State)

/-- `fetchThreads`, up to its request. -/
def fetch (mailbox : Text) (folder : MailFolder) (query : Text) (offset : ℕ)
    (append silent : Bool) : State :=
  let request : Request :=
    ⟨s.req + 1, mailbox, sourceOf mailbox folder s.view.custom query, offset, append, silent⟩
  { s with
    req := s.req + 1
    flying := s.flying ++ [request]
    load := if append || silent then s.load else .loading
    -- a fresh list supersedes a page that is under way
    loadingMore := append }

/-- A fetch of the view, with a query. -/
def fetchView (query : Text) (offset : ℕ) (append silent : Bool) : State :=
  s.fetch s.view.mailbox s.view.folder query offset append silent

/-- The effect that follows a change of the view. -/
def display (view : View) : State :=
  if view = s.view then s
  else { s with view, openThread := none }.fetchView view.query 0 false false

/-- Threads that are shown, changed where they are. -/
def mark (f : Thread → Thread) : State :=
  { s with threads := s.threads.map fun r => { r with toThread := f r.toThread } }

/-- Threads that are taken out, and the reader closed on them. -/
def drop (ids : List Text) : State :=
  { s with
    threads := s.threads.filter fun r => r.id ∉ ids
    openThread := s.openThread.filter (· ∉ ids) }

def begin (c : ℕ) (capture : Capture) (s' : State) : State :=
  { s' with actions := Function.update s.actions c (some ⟨capture, s.view⟩) }

def setRead (ids : List Text) (read : Bool) : State :=
  s.mark fun t => if t.id ∈ ids then { t with unread := !read } else t

/-- Does a bulk action move threads out of the list? -/
def movesOutOfFolder (action : BulkAction) : Bool :=
  action.folder.any (· ≠ s.view.folder)

/-- `bulk`, up to its request. -/
def beginBulk (c : ℕ) (ids : List Text) (action : BulkAction) : State :=
  let s₁ := match action.folder with
    | none => s.setRead ids (action = .read)
    | some _ => s
  if s.movesOutOfFolder action then
    s.begin c (.bulk (some s.threads)) (s₁.drop ids)
  else s.begin c (.bulk none) s₁

/-- The request is answered or has failed. -/
def land (n : ℕ) : State :=
  { s with
    flying := s.flying.filter (·.n ≠ n)
    refreshing := s.refreshing.filter (· ≠ n)
    polling := s.polling.filter (· ≠ n) }

/-- The list after an answer. -/
def merge (r : Request) (page : List Thread) : List Row :=
  let rows : List Row := page.map fun t => { t with source := r.source }
  if r.append then s.threads ++ rows.filter fun t => t.id ∉ s.threads.map (·.id) else rows

/-- `fetchThreads`, after its answer. -/
def answer (r : Request) (page : List Thread) : State :=
  let landed := s.land r.n
  if r.n = s.req then
    { landed with
      threads := s.merge r page
      hasMore := pageSize ≤ page.length
      load := .ready
      loadingMore := if r.append then false else s.loadingMore }
  else landed

/-- `fetchThreads`, after a failure. -/
def failure (home : Text) (r : Request) (fault : Fault) : State :=
  let landed := s.land r.n
  if r.n = s.req then
    let settled := { landed with loadingMore := if r.append then false else s.loadingMore }
    match fault with
    | .unauthorized => { settled with left := true }
    | .missing =>
      if r.mailbox = allInboxes then
        -- the unified list is not there
        { settled with aggregate := false }.display { s.view with mailbox := home }
      else if r.silent then settled
      else { settled with load := .error }
    | .other => if r.silent then settled else { settled with load := .error }
  else landed

/-- The rest of an action, after its answer. -/
def finish (c : ℕ) (action : Action) (outcome : Outcome) : State :=
  let s₁ := { s with actions := Function.update s.actions c none }
  match action.capture with
  | .move id before prevOpen =>
    if outcome = .done then s₁
    else { s₁ with
      threads := before
      openThread := if prevOpen = some id then prevOpen else s₁.openThread }
  | .moveAll => if outcome = .done then s₁ else s₁.fetchView s₁.view.query 0 false true
  | .bulk before =>
    if outcome = .failed then { s₁ with threads := before.getD s₁.threads }
    else if before.isSome then s₁.fetchView action.since.query 0 false false
    else s₁
  | .triage id =>
    if outcome = .failed then s₁
    else
      { s₁ with openThread := s₁.openThread.filter (· ≠ id) }.fetchView action.since.query 0 false
        false
  | .compose => if outcome = .failed then s₁ else s₁.fetchView action.since.query 0 false false
  | .empty target =>
    if outcome = .failed then s₁
    else
      { s₁ with threads := [], openThread := none }.fetch action.since.mailbox target
        action.since.query 0 false false

end State

/-- One step. `home` is the first mailbox of the workspace. -/
def step (home : Text) (s : State) (l : Label) : Option State :=
  if s.left then none
  else
    match l with
    | .selectMailbox id => some (s.display { s.view with mailbox := id, custom := none })
    | .selectFolder folder => some (s.display { s.view with folder, custom := none })
    | .selectCustomFolder id => some (s.display { s.view with custom := some id })
    | .setQuery query => some (s.display { s.view with query := Text.trim query })
    | .refreshThreads => some (s.fetchView s.view.query 0 false false)
    | .loadMore =>
      if s.loadingMore then none else some (s.fetchView s.view.query s.threads.length true false)
    | .refresh =>
      if s.refreshing.isSome then none
      else some { s.fetchView s.view.query 0 false true with refreshing := some (s.req + 1) }
    | .poll =>
      -- nothing else may be under way
      if s.polling.isSome || s.load = .loading || s.loadingMore then none
      else some { s.fetchView s.view.query 0 false true with polling := some (s.req + 1) }
    | .selectThread id =>
      let opened := { s with openThread := id }
      some (match id with
        | some id => if s.threads.any fun r => r.id = id && r.unread then opened.setRead [id] true
          else opened
        | none => opened)
    | .markRead ids read => some (s.setRead ids read)
    | .toggleFlag id flagged =>
      some (s.mark fun t => if t.id = id then { t with flagged } else t)
    | .beginMove c id =>
      if (s.actions c).isSome then none
      else some (s.begin c (.move id s.threads s.openThread) (s.drop [id]))
    | .beginMoveAll c ids =>
      if (s.actions c).isSome then none else some (s.begin c .moveAll (s.drop ids))
    | .beginBulk c ids action =>
      if (s.actions c).isSome then none else some (s.beginBulk c ids action)
    | .beginTriage c id =>
      if (s.actions c).isSome then none else some (s.begin c (.triage id) s)
    | .beginCompose c =>
      if (s.actions c).isSome then none else some (s.begin c .compose s)
    | .beginEmpty c target =>
      if (s.actions c).isSome || s.view.mailbox = allInboxes then none
      else some (s.begin c (.empty target) s)
    | .finish c outcome => (s.actions c).map fun action => s.finish c action outcome
    | .answer n page => (s.flying.find? (·.n = n)).map fun r => s.answer r page
    | .failure n fault => (s.flying.find? (·.n = n)).map fun r => s.failure home r fault

/-- Nothing is shown yet. -/
def blank (view : View) : State :=
  ⟨view, 0, [], [], .loading, false, false, none, none, true, none, fun _ => none, false⟩

/-- A view is shown, and its list is on its way. -/
def opened (view : View) : State :=
  (blank view).fetchView view.query 0 false false

def system (home : Text) : System State Label where
  init s := ∃ view, s = opened view
  step := step home

/-! ### What a step does -/

/-- What a row is shown as. -/
def Row.key (r : Row) : Text × Source :=
  (r.id, r.source)

/-- Rows of the list, in their order. -/
def Shrinks (rows rows' : List Row) : Prop :=
  (rows'.map Row.key).Sublist (rows.map Row.key)

/-- Does the step take threads out of the list, until its action ends? -/
def Label.takesOut : Label → Bool
  | .beginMove _ _ | .beginMoveAll _ _ | .beginBulk _ _ _ => true
  | _ => false

/-- An action was under way, or begins with the list as it is. -/
def Known (s : State) (l : Label) (s' : State) : Prop :=
  ∀ c action, s'.actions c = some action → s.actions c = some action ∨
    action.since = s.view ∧
      (∀ rows, action.capture.before = some rows → rows = s.threads ∧ l.takesOut = true) ∧
      ∀ target, action.capture = .empty target → s.view.mailbox ≠ allInboxes ∧
        l = .beginEmpty c target

/-- Why a list is fetched: for the view, or as an action ends. -/
inductive Reason (s : State) (l : Label) (r : Request) : Prop where
  | view (h : r.source = s.view.source) (hmailbox : r.mailbox = s.view.mailbox)
      (happend : r.append = true → l = .loadMore)
  | action (c : ℕ) (outcome : Outcome) (action : Action) (hl : l = .finish c outcome)
      (hc : s.actions c = some action) (happend : r.append = false) (hsilent : r.silent = false)
      (hmailbox : r.mailbox = s.view.mailbox ∨
        r.mailbox = action.since.mailbox ∧ ∃ target, action.capture = .empty target)
      (h : action.since = s.view → r.source = s.view.source ∨
        ∃ target, action.capture = .empty target ∧
          r.source = sourceOf s.view.mailbox target s.view.custom s.view.query)

/-- What a step does to the list. -/
inductive Effect (home : Text) (s : State) (l : Label) (s' : State) : Prop where
  /-- Rows are marked or taken out. -/
  | stays (hview : s'.view = s.view) (hreq : s'.req = s.req) (hflying : s'.flying = s.flying)
      (hload : s'.load = s.load) (hthreads : Shrinks s.threads s'.threads) (hknown : Known s l s')
  /-- The list is put back. -/
  | restores (c : ℕ) (outcome : Outcome) (action : Action) (hl : l = .finish c outcome)
      (hc : s.actions c = some action) (hbefore : action.capture.before = some s'.threads)
      (hview : s'.view = s.view) (hreq : s'.req = s.req) (hflying : s'.flying = s.flying)
      (hload : s'.load = s.load) (hknown : Known s l s')
  | fetches (r : Request) (hn : r.n = s.req + 1) (hreason : Reason s l r)
      (hview : s'.view = s.view) (hreq : s'.req = s.req + 1) (hflying : s'.flying = s.flying ++ [r])
      (hload : s'.load = if r.append || r.silent then s.load else .loading)
      (hthreads : Shrinks s.threads s'.threads) (hknown : Known s l s')
  /-- Another view is shown; a request may have failed. -/
  | displays (r : Request) (hn : r.n = s.req + 1) (happend : r.append = false)
      (hsource : r.source = s'.view.source) (hmailbox : r.mailbox = s'.view.mailbox)
      (hreq : s'.req = s.req + 1)
      (hflying : ∃ flying, flying.Sublist s.flying ∧ s'.flying = flying ++ [r])
      (hload : s'.load = .loading) (hthreads : s'.threads = s.threads) (hknown : Known s l s')
  /-- A request lands that does not count any more. -/
  | lands (n : ℕ) (hn : n ≠ s.req) (hview : s'.view = s.view) (hreq : s'.req = s.req)
      (hflying : s'.flying = s.flying.filter (·.n ≠ n)) (hload : s'.load = s.load)
      (hthreads : s'.threads = s.threads) (hknown : Known s l s')
  | answers (r : Request) (page : List Thread) (hl : l = .answer r.n page) (hr : r ∈ s.flying)
      (hn : r.n = s.req) (hview : s'.view = s.view) (hreq : s'.req = s.req)
      (hflying : s'.flying = s.flying.filter (·.n ≠ r.n)) (hload : s'.load = .ready)
      (hthreads : s'.threads = s.merge r page) (hknown : Known s l s')
  | fails (r : Request) (fault : Fault) (hl : l = .failure r.n fault) (hr : r ∈ s.flying)
      (hn : r.n = s.req) (hview : s'.view = s.view) (hreq : s'.req = s.req)
      (hflying : s'.flying = s.flying.filter (·.n ≠ r.n))
      (hload : s'.load = if s'.left || r.silent then s.load else .error)
      (hleft : s'.left = true ↔ fault = .unauthorized)
      (hfault : fault = .missing → r.mailbox ≠ allInboxes)
      (hthreads : s'.threads = s.threads) (hknown : Known s l s')
  /-- The unified list is not there, but the first mailbox is shown already. -/
  | strays (r : Request) (hr : r ∈ s.flying) (hn : r.n = s.req) (hmailbox : r.mailbox = allInboxes)
      (hhome : s.view.mailbox = home) (hview : s'.view = s.view) (hreq : s'.req = s.req)
      (hflying : s'.flying = s.flying.filter (·.n ≠ r.n)) (hload : s'.load = s.load)
      (hthreads : s'.threads = s.threads) (hknown : Known s l s')

theorem Shrinks.refl (rows : List Row) : Shrinks rows rows :=
  List.Sublist.refl _

theorem Shrinks.nil (rows : List Row) : Shrinks rows [] :=
  List.nil_sublist _

theorem Shrinks.mark (rows : List Row) {f : Thread → Thread} (hf : ∀ t, (f t).id = t.id) :
    Shrinks rows (rows.map fun r => { r with toThread := f r.toThread }) := by
  have hkeys : (rows.map fun r => { r with toThread := f r.toThread : Row }).map Row.key =
      rows.map Row.key := by
    rw [List.map_map]
    exact List.map_congr_left fun r _ => Prod.ext (hf r.toThread) rfl
  rw [Shrinks, hkeys]

theorem Shrinks.filter {rows rows' : List Row} (h : Shrinks rows rows') (p : Row → Bool) :
    Shrinks rows (rows'.filter p) :=
  (List.filter_sublist.map _).trans h

theorem Known.of_eq {s s' : State} {l : Label} (h : s'.actions = s.actions) : Known s l s' :=
  fun c action hc => .inl (by rw [← h, hc])

theorem Known.ended {s s' : State} {l : Label} {c : ℕ}
    (h : s'.actions = Function.update s.actions c none) : Known s l s' := by
  intro c' action hc
  rw [h] at hc
  rcases update_eq_cases hc with ⟨-, hnew⟩ | ⟨-, hold⟩
  · cases hnew
  · exact .inl hold

theorem Known.begun {s s' : State} {l : Label} {c : ℕ} {capture : Capture}
    (h : s'.actions = Function.update s.actions c (some ⟨capture, s.view⟩))
    (hbefore : ∀ rows, capture.before = some rows → rows = s.threads ∧ l.takesOut = true)
    (hempty : ∀ target, capture = .empty target →
      s.view.mailbox ≠ allInboxes ∧ l = .beginEmpty c target) : Known s l s' := by
  intro c' action hc
  rw [h] at hc
  rcases update_eq_cases hc with ⟨rfl, hnew⟩ | ⟨-, hold⟩
  · obtain rfl := Option.some.inj hnew
    exact .inr ⟨rfl, hbefore, hempty⟩
  · exact .inl hold

section Effects

variable {home : Text} {s s' : State} {l : Label}

/-- A fetch, after a change that keeps the rest. -/
theorem effect_fetch {mailbox : Text} {folder : MailFolder} {query : Text} {offset : ℕ}
    {append silent : Bool} (hview : s'.view = s.view) (hreq : s'.req = s.req)
    (hflying : s'.flying = s.flying) (hload : s'.load = s.load)
    (hthreads : Shrinks s.threads s'.threads) (hknown : Known s l s')
    (hreason : Reason s l ⟨s.req + 1, mailbox, sourceOf mailbox folder s.view.custom query, offset,
      append, silent⟩) :
    Effect home s l (s'.fetch mailbox folder query offset append silent) :=
  .fetches ⟨s.req + 1, mailbox, sourceOf mailbox folder s.view.custom query, offset, append, silent⟩
    rfl hreason hview (by rw [State.fetch, hreq]) (by rw [State.fetch, hflying, hview, hreq])
    (by rw [State.fetch, hload]) hthreads hknown

theorem effect_fetchView {offset : ℕ} {append silent : Bool}
    (happend : append = true → l = .loadMore) :
    Effect home s l (s.fetchView s.view.query offset append silent) :=
  effect_fetch rfl rfl rfl rfl (.refl _) (.of_eq rfl) (.view rfl rfl happend)

/-- A view is shown after a change that keeps the rest, and may let a request land. -/
theorem effect_display {view : View} (hview : s'.view = s.view) (hreq : s'.req = s.req)
    (hflying : s'.flying.Sublist s.flying) (hthreads : s'.threads = s.threads)
    (hactions : s'.actions = s.actions) (hsame : view = s.view → Effect home s l s') :
    Effect home s l (s'.display view) := by
  rw [State.display]
  split
  · next heq =>
    rw [hview] at heq
    exact hsame heq
  · exact .displays ⟨s.req + 1, view.mailbox, view.source, 0, false, false⟩ rfl rfl rfl rfl
      (by rw [State.fetchView, State.fetch, hreq])
      ⟨s'.flying, hflying, by rw [State.fetchView, State.fetch, hreq]; rfl⟩ rfl hthreads
      (.of_eq hactions)

theorem effect_select {view : View} : Effect home s l (s.display view) :=
  effect_display rfl rfl (List.Sublist.refl _) rfl rfl
    fun _ => .stays rfl rfl rfl rfl (.refl _) (.of_eq rfl)

theorem effect_mark {f : Thread → Thread} (hf : ∀ t, (f t).id = t.id) :
    Effect home s l (s.mark f) :=
  .stays rfl rfl rfl rfl (.mark _ hf) (.of_eq rfl)

theorem setRead_id (ids : List Text) (read : Bool) (t : Thread) :
    (if t.id ∈ ids then { t with unread := !read } else t).id = t.id := by
  split <;> rfl

theorem effect_begin {c : ℕ} {capture : Capture} {s₁ : State} (hview : s₁.view = s.view)
    (hreq : s₁.req = s.req) (hflying : s₁.flying = s.flying) (hload : s₁.load = s.load)
    (hthreads : Shrinks s.threads s₁.threads)
    (hbefore : ∀ rows, capture.before = some rows → rows = s.threads ∧ l.takesOut = true)
    (hempty : ∀ target, capture = .empty target →
      s.view.mailbox ≠ allInboxes ∧ l = .beginEmpty c target) :
    Effect home s l (s.begin c capture s₁) :=
  .stays hview hreq hflying hload hthreads (.begun rfl hbefore hempty)

theorem effect_beginBulk {c : ℕ} {ids : List Text} {action : BulkAction} :
    Effect home s (.beginBulk c ids action) (s.beginBulk c ids action) := by
  have hmarked : Shrinks s.threads (s.setRead ids (action = .read)).threads :=
    .mark _ (setRead_id ids _)
  rw [State.beginBulk]
  cases action.folder with
  | none =>
    dsimp only
    split
    · exact effect_begin rfl rfl rfl rfl (hmarked.filter _)
        (fun _ h => ⟨(Option.some.inj h).symm, rfl⟩) nofun
    · exact effect_begin rfl rfl rfl rfl hmarked nofun nofun
  | some folder =>
    dsimp only
    split
    · exact effect_begin rfl rfl rfl rfl (.filter (.refl _) _)
        (fun _ h => ⟨(Option.some.inj h).symm, rfl⟩) nofun
    · exact effect_begin rfl rfl rfl rfl (.refl _) nofun nofun

/-- An action ends, and its list is fetched with the query that it has captured. -/
theorem effect_finish {c : ℕ} {action : Action} {outcome : Outcome}
    (hc : s.actions c = some action) :
    Effect home s (.finish c outcome) (s.finish c action outcome) := by
  have hended : ∀ {s₁ : State}, s₁.actions = Function.update s.actions c none →
      Known s (.finish c outcome) s₁ := fun h => .ended h
  have hreason : ∀ offset, Reason s (.finish c outcome) ⟨s.req + 1, s.view.mailbox,
      sourceOf s.view.mailbox s.view.folder s.view.custom action.since.query, offset, false,
      false⟩ := fun offset =>
    .action c outcome action rfl hc rfl rfl (.inl rfl) fun heq => .inl (by rw [heq]; rfl)
  rw [State.finish]
  split
  · next id before prevOpen hcapture =>
    split
    · exact .stays rfl rfl rfl rfl (.refl _) (hended rfl)
    · exact .restores c outcome action rfl hc (by rw [hcapture]; rfl) rfl rfl rfl rfl (hended rfl)
  · split
    · exact .stays rfl rfl rfl rfl (.refl _) (hended rfl)
    · exact effect_fetch rfl rfl rfl rfl (.refl _) (hended rfl) (.view rfl rfl nofun)
  · next before hcapture =>
    split
    · cases before with
      | none => exact .stays rfl rfl rfl rfl (.refl _) (hended rfl)
      | some rows =>
        exact .restores c outcome action rfl hc (by rw [hcapture]; rfl) rfl rfl rfl rfl (hended rfl)
    · split
      · exact effect_fetch rfl rfl rfl rfl (.refl _) (hended rfl) (hreason 0)
      · exact .stays rfl rfl rfl rfl (.refl _) (hended rfl)
  · split
    · exact .stays rfl rfl rfl rfl (.refl _) (hended rfl)
    · exact effect_fetch rfl rfl rfl rfl (.refl _) (hended rfl) (hreason 0)
  · split
    · exact .stays rfl rfl rfl rfl (.refl _) (hended rfl)
    · exact effect_fetch rfl rfl rfl rfl (.refl _) (hended rfl) (hreason 0)
  · next target hcapture =>
    split
    · exact .stays rfl rfl rfl rfl (.refl _) (hended rfl)
    · refine effect_fetch rfl rfl rfl rfl (.nil _) (hended rfl) ?_
      exact .action c outcome action rfl hc rfl rfl (.inr ⟨rfl, target, hcapture⟩)
        fun heq => .inr ⟨target, hcapture, by rw [heq]⟩

theorem effect_answer {r : Request} {page : List Thread} (hr : r ∈ s.flying) :
    Effect home s (.answer r.n page) (s.answer r page) := by
  rw [State.answer]
  split
  · next hn => exact .answers r page rfl hr hn rfl rfl rfl rfl rfl (.of_eq rfl)
  · next hn => exact .lands r.n hn rfl rfl rfl rfl rfl (.of_eq rfl)

/-- A request that counts has failed, and the session lasts. -/
theorem effect_settled {r : Request} {fault : Fault} {more : Bool} (hr : r ∈ s.flying)
    (hn : r.n = s.req) (hfault : fault ≠ .unauthorized)
    (hmissing : fault = .missing → r.mailbox ≠ allInboxes) (hstays : s.left = false) :
    Effect home s (.failure r.n fault)
      (if r.silent then { s.land r.n with loadingMore := more }
        else { s.land r.n with loadingMore := more, load := .error }) := by
  have hleft : ¬ s.left = true := hstays ▸ Bool.false_ne_true
  split
  · next hsilent =>
    refine .fails r fault rfl hr hn rfl rfl rfl ?_ (iff_of_false hleft hfault) hmissing rfl
      (.of_eq rfl)
    rw [hsilent, Bool.or_true, if_pos rfl]
    rfl
  · next hsilent =>
    refine .fails r fault rfl hr hn rfl rfl rfl ?_ (iff_of_false hleft hfault) hmissing rfl
      (.of_eq rfl)
    rw [Bool.eq_false_iff.mpr hsilent, Bool.or_false]
    exact (if_neg hleft).symm

theorem effect_failure {r : Request} {fault : Fault} (hr : r ∈ s.flying)
    (hstays : s.left = false) : Effect home s (.failure r.n fault) (s.failure home r fault) := by
  rw [State.failure]
  split
  · next hn =>
    cases fault with
    | unauthorized =>
      exact .fails r _ rfl hr hn rfl rfl rfl rfl (iff_of_true rfl rfl) nofun rfl (.of_eq rfl)
    | missing =>
      dsimp only
      split
      · next hmailbox =>
        refine effect_display rfl rfl List.filter_sublist rfl rfl fun heq => ?_
        exact .strays r hr hn hmailbox (by rw [← heq]) rfl rfl rfl rfl rfl (.of_eq rfl)
      · next hmailbox => exact effect_settled hr hn nofun (fun _ => hmailbox) hstays
    | other => exact effect_settled hr hn nofun nofun hstays
  · next hn => exact .lands r.n hn rfl rfl rfl rfl rfl (.of_eq rfl)

theorem mem_of_find {n : ℕ} {r : Request} (h : s.flying.find? (·.n = n) = some r) :
    r ∈ s.flying ∧ r.n = n :=
  ⟨List.mem_of_find?_eq_some h, by simpa using List.find?_some h⟩

/-- **What a step does to the list.** -/
theorem effect_of_step (h : step home s l = some s') : Effect home s l s' := by
  unfold step at h
  split at h
  · cases h
  · next hstays =>
    cases l with
    | selectMailbox id | selectFolder folder | selectCustomFolder id | setQuery query =>
      obtain rfl := Option.some.inj h
      exact effect_select
    | refreshThreads =>
      obtain rfl := Option.some.inj h
      exact effect_fetchView nofun
    | loadMore =>
      obtain ⟨-, h⟩ := Option.ite_none_left_eq_some.mp h
      obtain rfl := Option.some.inj h
      exact effect_fetchView fun _ => rfl
    | refresh | poll =>
      obtain ⟨-, h⟩ := Option.ite_none_left_eq_some.mp h
      obtain rfl := Option.some.inj h
      exact .fetches ⟨s.req + 1, s.view.mailbox, s.view.source, 0, false, true⟩ rfl
        (.view rfl rfl nofun) rfl rfl rfl rfl (.refl _) (.of_eq rfl)
    | selectThread id =>
      obtain rfl := Option.some.inj h
      split
      · split
        · exact .stays rfl rfl rfl rfl (.mark _ (setRead_id _ _)) (.of_eq rfl)
        · exact .stays rfl rfl rfl rfl (.refl _) (.of_eq rfl)
      · exact .stays rfl rfl rfl rfl (.refl _) (.of_eq rfl)
    | markRead ids read =>
      obtain rfl := Option.some.inj h
      exact effect_mark (setRead_id ids read)
    | toggleFlag id flagged =>
      obtain rfl := Option.some.inj h
      exact effect_mark fun t => by split <;> rfl
    | beginMove c id =>
      obtain ⟨-, h⟩ := Option.ite_none_left_eq_some.mp h
      obtain rfl := Option.some.inj h
      exact effect_begin rfl rfl rfl rfl (.filter (.refl _) _) (fun _ h => ⟨(Option.some.inj h).symm, rfl⟩)
        nofun
    | beginMoveAll c ids =>
      obtain ⟨-, h⟩ := Option.ite_none_left_eq_some.mp h
      obtain rfl := Option.some.inj h
      exact effect_begin rfl rfl rfl rfl (.filter (.refl _) _) nofun nofun
    | beginBulk c ids action =>
      obtain ⟨-, h⟩ := Option.ite_none_left_eq_some.mp h
      obtain rfl := Option.some.inj h
      exact effect_beginBulk
    | beginTriage c id | beginCompose c =>
      obtain ⟨-, h⟩ := Option.ite_none_left_eq_some.mp h
      obtain rfl := Option.some.inj h
      exact effect_begin rfl rfl rfl rfl (.refl _) nofun nofun
    | beginEmpty c target =>
      obtain ⟨hguard, h⟩ := Option.ite_none_left_eq_some.mp h
      obtain rfl := Option.some.inj h
      refine effect_begin rfl rfl rfl rfl (.refl _) nofun fun target' htarget => ⟨fun hall => ?_, ?_⟩
      · exact hguard (by rw [hall, decide_eq_true rfl, Bool.or_true])
      · rw [Capture.empty.inj htarget]
    | finish c outcome =>
      obtain ⟨action, hc, rfl⟩ := Option.map_eq_some_iff.mp h
      exact effect_finish hc
    | answer n page =>
      obtain ⟨r, hfind, rfl⟩ := Option.map_eq_some_iff.mp h
      obtain ⟨hr, rfl⟩ := mem_of_find hfind
      exact effect_answer hr
    | failure n fault =>
      obtain ⟨r, hfind, rfl⟩ := Option.map_eq_some_iff.mp h
      obtain ⟨hr, rfl⟩ := mem_of_find hfind
      exact effect_failure hr (Bool.eq_false_iff.mpr hstays)

end Effects

end ThreadList
end EmailOps
