import EmailOps.Assistant.ChatStream
import EmailOps.Assistant.Wire
import EmailOps.Framework.Frames
import EmailOps.Framework.Utf8

/-!
# A reply on its way to the chat

The engine answers a turn as a stream of server-sent events. The backend reads the stream, stages
the actions in it, and writes a stream of its own, which the browser reads into the chat. The
network hands either stream on in pieces that may end in the middle of a character.

* `generate` is the stream of the engine, `relay` that of the backend, and `send` what the chat
  makes of it. Both readers take their frames off a buffer, as in `Framework.Frames`.
* `parseFrame_frame`: a frame is read as the event it was made from.
* `frames_of_wire` and `frames_of_prefix` are a hop: the frames that are read are those that were
  sent, or the first of them when the stream breaks off.
* `send_generate` is the turn as the user sees it, and `send_broken` the turn that breaks off on
  either hop.
-/

namespace EmailOps
namespace StreamRelay

open Framework Framework.Text Framework.Utf8 Framework.Frames
open Framework.HoldBack (before after?)
open Assistant (StreamEvent ACTION_MARKER chatStream parseActions)
open Wire (dumps stringify parse Proper ProperItems)

/-- An event: its name, and its data. -/
abbrev Event := Text × Json

/-- What ends a frame. -/
def blankLine : Text := ['\n', '\n']

/-- The lines of a frame. -/
def frame (event payload : Text) : Text :=
  "event: ".toList ++ (event ++ '\n' :: ("data: ".toList ++ payload))

/-- A response as it comes: its pieces, and whether it breaks off after them. -/
structure Body where
  pieces : List (List ℕ)
  broken : Bool

/-- What is read off the buffer: `buf += decoder.decode(value, { stream: true })`, and the frames
that are ended. -/
def Body.frames (body : Body) : List Text :=
  (feedAll blankLine [] (Decoder.fresh.pieces body.pieces)).1

/-! ### A frame -/

/-- The variables of `parseFrame`. -/
structure Lines where
  event : Text := "message".toList
  dataLines : List Text := []

/-- A line of a frame. -/
def Lines.read (s : Lines) (line : Text) : Lines :=
  if "event:".toList.isPrefixOf line then { s with event := trim (line.drop 6) }
  else if "data:".toList.isPrefixOf line then
    let value := line.drop 5
    -- `replace(/^ /, '')`
    { s with dataLines := s.dataLines ++ [if value.head? = some ' ' then value.tail else value] }
  else s

/-- `parseFrame`, and in the browser `parseSseFrame`. -/
def parseFrame (text : Text) : Option Event :=
  let s := (text.splitOn '\n').foldl Lines.read {}
  if s.dataLines = [] then none
  else (parse (join ['\n'] s.dataLines)).map (s.event, ·)

/-- `data.name`; it is none when that throws, and `undefined` within. -/
def member (data : Json) (name : Text) : Option (Option Json) :=
  match data with
  | .null => none
  | .obj fields => some (Json.get fields name)
  | _ => some none

/-! ### The engine -/

/-- `_sse_event` -/
def sseEvent (event : Text) (data : Json) : Text :=
  frame event (dumps data) ++ blankLine

def token (delta : Text) : Event := ("token".toList, .obj [("delta".toList, .str delta)])

def actions (items : List Json) : Event := ("actions".toList, .obj [("actions".toList, .arr items)])

def done : Event := ("done".toList, .obj [])

/-- What the engine makes of a step of `chat_stream`. -/
def engineEvent : StreamEvent → Event
  | .token text => token text
  | .actions items => actions items

/-- `generate`, of what `chat_stream` yields, and the exception that ends it if one does. -/
def generate (configured : Bool) (steps : List StreamEvent) (raised : Option Text) : List Event :=
  if configured then
    steps.map engineEvent ++
      (match raised with
        | some exc => [token ("\n\n_(The assistant hit an error: ".toList ++ exc ++ ")_".toList),
            actions []]
        | none => []) ++ [done]
  else
    [token "ai_unavailable: LITELLM_BASE_URL is not configured".toList, actions [], done]

/-! ### The backend -/

/-- `sse` -/
def sse (event : Text) (data : Json) : Text :=
  frame event (stringify data) ++ blankLine

/-- What the frames come to, one after the other, up to one that throws. A frame that does not
parse is passed over. -/
def untilThrow {β : Type} (act : Event → Option (List β)) : List Text → List β × Bool
  | [] => ([], false)
  | text :: texts =>
    match parseFrame text with
    | none => untilThrow act texts
    | some e =>
      match act e with
      | none => ([], true)
      | some out => (out ++ (untilThrow act texts).1, (untilThrow act texts).2)

/-- What the relay says when the stream of the engine breaks off. -/
def interrupted : Text := "\n\n_(The assistant stream was interrupted.)_".toList

/-- What the relay writes for an event; it is none when that throws. `stage` is `stageActions`. -/
def relayEvent (stage : List Json → List Json) (e : Event) : Option (List Event) :=
  if e.1 = "token".toList then some [("token".toList, e.2)]
  else if e.1 = "actions".toList then
    (member e.2 "actions".toList).map fun found =>
      let raw := match found with
        | some (.arr items) => items
        | _ => []
      let staged := stage raw
      if staged.isEmpty then [] else [actions staged]
  -- `done` is written at the end regardless
  else some []

/-- `chatStream`, the route: the message, and the response of the engine if there is one. -/
def relay (stage : List Json → List Json) (message : Text) (engine : Option Body) : List Event :=
  if trim message = [] then [token "Ask me something about your inbox.".toList, done]
  else
    match engine with
    | none =>
      [token ("The assistant is offline right now — the inference engine is unavailable. " ++
          "Try again shortly.").toList,
        ("error".toList, .obj [("ok".toList, .bool false)]), done]
    | some body =>
      let r := untilThrow (relayEvent stage) body.frames
      r.1 ++ (if r.2 || body.broken then [token interrupted] else []) ++ [done]

/-! ### The browser -/

/-- A call of a handler. -/
inductive Call where
  | onToken (delta : Text)
  | onActions (items : List Json)
  | onError

/-- What an event comes to; it is none when that throws. An error is reported at the end. -/
def browserEvent (e : Event) : Option (List Call) :=
  if e.1 = "token".toList then
    (member e.2 "delta".toList).map fun found =>
      match found with
      | some (.str delta) => if delta = [] then [] else [.onToken delta]
      | _ => []
  else if e.1 = "actions".toList then
    (member e.2 "actions".toList).map fun found =>
      match found with
      | some (.arr items) => [.onActions items]
      | _ => [.onActions []]
  else if e.1 = "error".toList then some [.onError]
  else some []

def Call.isError : Call → Bool
  | .onError => true
  | _ => false

/-- `assistantChatStream`: the calls it makes, and whether it throws. -/
def assistantChatStream (res : Option Body) : List Call × Bool :=
  match res with
  | none => ([.onError], true)
  | some body =>
    let r := untilThrow browserEvent body.frames
    let calls := r.1.filter fun c => !c.isError
    if r.2 || body.broken then (calls, true)
    else (calls ++ (if r.1.any Call.isError then [.onError] else []), false)

/-- The bubble of the reply, and the cards under it. -/
structure Chat where
  acc : Text := []
  text : Text := []
  pending : Bool := true
  error : Bool := false
  cards : List Json := []

/-- A card that the chat shows. -/
def isCard (a : Json) : Bool :=
  match a with
  | .obj fields =>
    match Json.get fields "kind".toList with
    | some (.str kind) => kind = "draft".toList || kind = "cleanup".toList
    | _ => false
  | _ => false

/-- The handlers of the chat. -/
def Chat.hear (s : Chat) : Call → Chat
  | .onToken delta => { s with acc := s.acc ++ delta, text := s.acc ++ delta, pending := false }
  | .onActions items => { s with cards := s.cards ++ items.filter isCard }
  | .onError => { s with pending := false, error := true }

/-- `send`, once there is a message and a workspace. -/
def send (res : Option Body) : Chat :=
  let r := assistantChatStream res
  let s := r.1.foldl Chat.hear {}
  if r.2 then
    { s with
      text := if s.text = [] then "Something went wrong reaching the assistant. Try again.".toList
        else s.text
      pending := false, error := true }
  else if s.error then { s with pending := false }
  else
    { s with pending := false, text := if s.text = [] then "(No response.)".toList else s.text }

/-! ### A frame is read back -/

/-- The names of the events. -/
def names : List Text := ["token".toList, "actions".toList, "done".toList, "error".toList]

theorem name_spec {event : Text} (h : event ∈ names) :
    '\n' ∉ event ∧ trim (' ' :: event) = event := by
  have hall : names.all (fun e => !e.contains '\n' && trim (' ' :: e) == e) = true := rfl
  have hevent := List.all_eq_true.mp hall event h
  simpa using hevent

/-- An event that reaches the other side as it is. -/
def Sendable (e : Event) : Prop :=
  e.1 ∈ names ∧ Proper e.2

theorem read_event (s : Lines) (value : Text) :
    s.read ("event: ".toList ++ value) = { s with event := trim (' ' :: value) } :=
  rfl

theorem read_data (s : Lines) (value : Text) :
    s.read ("data: ".toList ++ value) = { s with dataLines := s.dataLines ++ [value] } :=
  rfl

theorem frame_eq (event payload : Text) :
    frame event payload = ("event: ".toList ++ event) ++ '\n' :: ("data: ".toList ++ payload) :=
  (List.append_assoc _ _ _).symm

/-- A line without line breaks is all that is between two blank lines. -/
theorem blankLine_not_infix {a b : Text} (ha : '\n' ∉ a) (hb : '\n' ∉ b) (hne : b ≠ []) :
    ¬ blankLine <:+: a ++ '\n' :: b ++ blankLine.dropLast := by
  -- no two line breaks come behind each other
  let R : Char → Char → Prop := fun c d => c ≠ '\n' ∨ d ≠ '\n'
  have hplain : ∀ t : Text, '\n' ∉ t → t.IsChain R := by
    intro t ht
    induction t with
    | nil => exact .nil
    | cons c t ih =>
      have hc : c ≠ '\n' := fun h => ht (h ▸ List.mem_cons_self)
      cases t with
      | nil => exact .singleton c
      | cons d t => exact .cons_cons (.inl hc) (ih fun h => ht (List.mem_cons_of_mem c h))
  have hchain : (a ++ '\n' :: b ++ blankLine.dropLast).IsChain R := by
    refine List.isChain_append.mpr ⟨List.isChain_append.mpr ⟨hplain a ha, ?_, ?_⟩, .singleton _, ?_⟩
    · obtain ⟨c, t, rfl⟩ := List.exists_cons_of_ne_nil hne
      exact .cons_cons (.inr fun h => hb (h ▸ List.mem_cons_self)) (hplain _ hb)
    · intro c hc d _
      exact .inl fun h => ha (h ▸ List.mem_of_mem_getLast? hc)
    · intro c hc d _
      refine .inl fun h => hb (h ▸ List.mem_of_mem_getLast? ?_)
      rwa [List.getLast?_append_of_ne_nil _ (List.cons_ne_nil _ _), List.getLast?_cons_of_ne_nil hne]
        at hc
  intro hinfix
  have hpair := hchain.infix hinfix
  rcases List.isChain_pair.mp hpair with h | h
  · exact h rfl
  · exact h rfl

/-- What goes over the network. -/
def wire (gap : Text) (events : List Event) : Text :=
  events.flatMap fun e => frame e.1 (Wire.write gap e.2) ++ blankLine

section Hop

variable {gap : Text} (hgap : ∀ c ∈ gap, JsonText.isGap c = true) (hline : '\n' ∉ gap)

include hline

theorem notMem_payload {v : Json} (hv : Proper v) : '\n' ∉ "data: ".toList ++ Wire.write gap v := by
  rw [List.mem_append, not_or]
  exact ⟨by decide, Wire.notMem_write hline v hv⟩

include hgap

/-- **A frame is read as the event it was made from.** -/
theorem parseFrame_frame {e : Event} (he : Sendable e) :
    parseFrame (frame e.1 (Wire.write gap e.2)) = some e := by
  obtain ⟨hnobreak, htrim⟩ := name_spec he.1
  have hevent : '\n' ∉ "event: ".toList ++ e.1 := by
    rw [List.mem_append, not_or]
    exact ⟨by decide, hnobreak⟩
  have hlines : (frame e.1 (Wire.write gap e.2)).splitOn '\n' =
      ["event: ".toList ++ e.1, "data: ".toList ++ Wire.write gap e.2] := by
    rw [frame_eq, List.splitOn_append_cons_self_of_not_mem hevent,
      List.splitOn_eq_singleton (notMem_payload hline he.2)]
  have hread : ["event: ".toList ++ e.1, "data: ".toList ++ Wire.write gap e.2].foldl Lines.read {} =
      ⟨e.1, [Wire.write gap e.2]⟩ := by
    rw [List.foldl_cons, List.foldl_cons, List.foldl_nil, read_event, read_data, htrim]
    rfl
  rw [parseFrame, hlines, hread]
  simp only [List.cons_ne_nil, if_false, join_singleton]
  rw [parse, Wire.read_write Wire.standard_parse hgap he.2]
  rfl

/-- The frames come to what their events do. -/
theorem untilThrow_frames {β : Type} {act : Event → Option (List β)} {out : Event → List β}
    {events : List Event} (h : ∀ e ∈ events, Sendable e ∧ act e = some (out e)) :
    untilThrow act (events.map fun e => frame e.1 (Wire.write gap e.2)) =
      (events.flatMap out, false) := by
  induction events with
  | nil => rfl
  | cons e events ih =>
    obtain ⟨he, hact⟩ := h e List.mem_cons_self
    rw [List.map_cons, untilThrow, parseFrame_frame hgap hline he]
    simp only [hact, ih fun f hf => h f (List.mem_cons_of_mem e hf), List.flatMap_cons]

omit hgap in
theorem frame_not_infix {e : Event} (he : Sendable e) :
    ¬ blankLine <:+: frame e.1 (Wire.write gap e.2) ++ blankLine.dropLast := by
  have hevent : '\n' ∉ "event: ".toList ++ e.1 := by
    rw [List.mem_append, not_or]
    exact ⟨by decide, (name_spec he.1).1⟩
  rw [frame_eq]
  refine blankLine_not_infix hevent (notMem_payload hline he.2) ?_
  exact List.append_ne_nil_of_left_ne_nil (by decide) _

omit hgap in
/-- **A hop**: however the octets are cut, the frames that were sent are read. -/
theorem frames_of_wire {events : List Event} (h : ∀ e ∈ events, Sendable e) {body : Body}
    (hbody : body.pieces.flatten = encode (wire gap events)) :
    body.frames = events.map fun e => frame e.1 (Wire.write gap e.2) := by
  have htexts := flatten_pieces_of_encode hbody
  have hread : feedAll blankLine [] (Decoder.fresh.pieces body.pieces) =
      (events.map fun e => frame e.1 (Wire.write gap e.2), []) := by
    refine feedAll_eq (List.cons_ne_nil _ _) ?_ ?_
    · intro f hf
      obtain ⟨e, he, rfl⟩ := List.mem_map.mp hf
      exact frame_not_infix hline (h e he)
    · rw [htexts, wire, List.flatMap_map]
      rfl
  exact congrArg Prod.fst hread

omit hgap in
/-- **A hop that breaks off**: the frames that are read are the first of those that were sent. -/
theorem frames_of_prefix {events : List Event} (h : ∀ e ∈ events, Sendable e) {body : Body}
    (hbody : body.pieces.flatten <+: encode (wire gap events)) :
    ∃ first, first <+: events ∧ body.frames = first.map fun e => frame e.1 (Wire.write gap e.2) := by
  obtain ⟨more, hmore⟩ := hbody
  have htexts : (Decoder.fresh.pieces body.pieces).flatten <+: wire gap events := by
    have hall := congrArg Prod.snd (decode_encode (wire gap events))
    rw [← hmore, decode_append] at hall
    rw [flatten_pieces]
    exact ⟨_, hall⟩
  have hread : (feedAll blankLine [] (Decoder.fresh.pieces body.pieces)).1 <+:
      events.map fun e => frame e.1 (Wire.write gap e.2) := by
    refine feedAll_prefix (List.cons_ne_nil _ _) ?_ ?_
    · intro f hf
      obtain ⟨e, he, rfl⟩ := List.mem_map.mp hf
      exact frame_not_infix hline (h e he)
    · rw [List.flatMap_map]
      exact htexts
  obtain ⟨first, hfirst, heq⟩ := List.prefix_map_iff.mp hread
  exact ⟨first, hfirst, heq⟩

end Hop

/-! ### The turn -/

/-- What the engine sends. -/
def engineWire (events : List Event) : Text :=
  events.flatMap fun e => sseEvent e.1 e.2

/-- What the backend sends. -/
def relayWire (events : List Event) : Text :=
  events.flatMap fun e => sse e.1 e.2

/-- The text that a step adds to the bubble. -/
def said : StreamEvent → Text
  | .token text => text
  | .actions _ => []

/-- The cards that a step adds. -/
def shown : StreamEvent → List Json
  | .token _ => []
  | .actions items => items.filter isCard

/-- What the backend makes of a step. -/
def staged (stage : List Json → List Json) : StreamEvent → List StreamEvent
  | .token text => [.token text]
  | .actions items => if (stage items).isEmpty then [] else [.actions (stage items)]

/-- A step whose actions JSON has a text for. -/
def ProperStep : StreamEvent → Prop
  | .token _ => True
  | .actions items => Proper (.arr items)

theorem sendable_engineEvent {step : StreamEvent} (h : ProperStep step) :
    Sendable (engineEvent step) := by
  cases step with
  | token text => exact ⟨List.mem_cons_self, List.nodup_singleton _, trivial, trivial⟩
  | actions items =>
    exact ⟨List.mem_cons_of_mem _ List.mem_cons_self, List.nodup_singleton _, h, trivial⟩

theorem sendable_done : Sendable done :=
  ⟨List.mem_cons_of_mem _ (List.mem_cons_of_mem _ List.mem_cons_self), List.nodup_nil, trivial⟩

/-- Steps, and the end of them. -/
def script (steps : List StreamEvent) : List Event :=
  steps.map engineEvent ++ [done]

theorem generate_eq (steps : List StreamEvent) : generate true steps none = script steps := by
  rw [generate, if_pos rfl, List.append_nil, script]

theorem sendable_script {steps : List StreamEvent} (h : ∀ step ∈ steps, ProperStep step) :
    ∀ e ∈ script steps, Sendable e := by
  intro e he
  rcases List.mem_append.mp he with he | he
  · obtain ⟨step, hstep, rfl⟩ := List.mem_map.mp he
    exact sendable_engineEvent (h step hstep)
  · rw [List.mem_singleton.mp he]
    exact sendable_done

theorem prefix_script {steps : List StreamEvent} {events : List Event}
    (h : events <+: script steps) :
    ∃ first, first <+: steps ∧ (events = first.map engineEvent ∨ events = script first) := by
  rcases List.prefix_concat_iff.mp h with heq | hprefix
  · exact ⟨steps, List.prefix_rfl, .inr heq⟩
  · obtain ⟨first, hfirst, heq⟩ := List.prefix_map_iff.mp hprefix
    exact ⟨first, hfirst, .inl heq⟩

theorem flatMap_script {β : Type} {out : Event → List β} (hdone : out done = [])
    (steps : List StreamEvent) :
    (script steps).flatMap out = steps.flatMap fun step => out (engineEvent step) := by
  rw [script, List.flatMap_append, List.flatMap_map, List.flatMap_singleton, hdone, List.append_nil]

/-- **What a reader makes of the frames** that have reached it of a script. -/
theorem untilThrow_script {β : Type} {act : Event → Option (List β)} {out : StreamEvent → List β}
    {gap : Text} (hgap : ∀ c ∈ gap, JsonText.isGap c = true) (hline : '\n' ∉ gap)
    (hact : ∀ step, act (engineEvent step) = some (out step)) (hdone : act done = some [])
    {first : List StreamEvent} (hfirst : ∀ step ∈ first, ProperStep step) {events : List Event}
    (hevents : events = first.map engineEvent ∨ events = script first) :
    untilThrow act (events.map fun e => frame e.1 (Wire.write gap e.2)) =
      (first.flatMap out, false) := by
  have hall : ∀ e ∈ script first, Sendable e ∧ act e = some ((act e).getD []) := by
    intro e he
    refine ⟨sendable_script hfirst e he, ?_⟩
    rcases List.mem_append.mp he with he | he
    · obtain ⟨step, -, rfl⟩ := List.mem_map.mp he
      rw [hact]
      rfl
    · rw [List.mem_singleton.mp he, hdone]
      rfl
  have hout : (fun step => (act (engineEvent step)).getD []) = out :=
    funext fun step => by rw [hact, Option.getD_some]
  rcases hevents with rfl | rfl
  · rw [untilThrow_frames hgap hline fun e he => hall e (List.mem_append_left _ he),
      List.flatMap_map, hout]
  · rw [untilThrow_frames hgap hline hall, flatMap_script (by rw [hdone, Option.getD_some]), hout]

theorem relayEvent_step (stage : List Json → List Json) (step : StreamEvent) :
    relayEvent stage (engineEvent step) = some ((staged stage step).map engineEvent) := by
  cases step with
  | token text => rfl
  | actions items =>
    have hrelay : relayEvent stage (actions items) =
        some (if (stage items).isEmpty then [] else [actions (stage items)]) := rfl
    rw [engineEvent, hrelay, staged]
    split <;> rfl

/-- What the backend says when its own stream has broken off. -/
def note (broken : Bool) : List StreamEvent :=
  if broken then [.token interrupted] else []

/-- **The backend passes the steps on**, with the actions staged. -/
theorem relay_script (stage : List Json → List Json) {message : Text} (hmessage : trim message ≠ [])
    {body : Body} {first : List StreamEvent} (hfirst : ∀ step ∈ first, ProperStep step)
    {events : List Event} (hevents : events = first.map engineEvent ∨ events = script first)
    (hbody : body.frames = events.map fun e => frame e.1 (dumps e.2)) :
    relay stage message (some body) =
      script (first.flatMap (staged stage) ++ note body.broken) := by
  have hread := untilThrow_script
    (show ∀ c ∈ [' '], JsonText.isGap c = true from forall_mem_of_all rfl) (by decide)
    (relayEvent_step stage) rfl hfirst hevents
  have hbody' : body.frames = events.map fun e => frame e.1 (Wire.write [' '] e.2) := hbody
  rw [relay, if_neg hmessage]
  simp only [hbody', hread, Bool.false_or, script, List.map_append, List.map_flatMap]
  cases body.broken <;> rfl

/-- The calls that a step makes. -/
def calls : StreamEvent → List Call
  | .token text => if text = [] then [] else [.onToken text]
  | .actions items => [.onActions items]

theorem browserEvent_step (step : StreamEvent) :
    browserEvent (engineEvent step) = some (calls step) := by
  cases step <;> rfl

theorem not_isError_calls {step : StreamEvent} {c : Call} (h : c ∈ calls step) :
    c.isError = false := by
  cases step with
  | token text =>
    rw [calls] at h
    split at h
    · cases h
    · rw [List.mem_singleton.mp h]
      rfl
  | actions items =>
    rw [List.mem_singleton.mp h]
    rfl

/-- The handlers gather what is said and shown. -/
theorem hear_calls (steps : List StreamEvent) (s : Chat) (htext : s.text = s.acc)
    (herror : s.error = false) :
    let s' := (steps.flatMap calls).foldl Chat.hear s
    s'.acc = s.acc ++ steps.flatMap said ∧ s'.text = s'.acc ∧ s'.error = false ∧
      s'.cards = s.cards ++ steps.flatMap shown := by
  induction steps generalizing s with
  | nil => simp [htext, herror]
  | cons step steps ih =>
    rw [List.flatMap_cons, List.foldl_append]
    -- what the step itself does
    have hstep : let t := (calls step).foldl Chat.hear s
        t.acc = s.acc ++ said step ∧ t.text = t.acc ∧ t.error = false ∧
          t.cards = s.cards ++ shown step := by
      cases step with
      | token text =>
        rw [calls]
        split
        · next hempty => simp [said, shown, hempty, htext, herror]
        · simp [said, shown, Chat.hear, herror]
      | actions items => simp [said, shown, calls, Chat.hear, htext, herror]
    obtain ⟨hacc, htext', herror', hcards⟩ := hstep
    have hrest := ih ((calls step).foldl Chat.hear s) htext' herror'
    simpa only [hacc, hcards, List.flatMap_cons, List.append_assoc] using hrest

/-- The text of the bubble in the end. -/
def settled (broken : Bool) (acc : Text) : Text :=
  if acc ≠ [] then acc
  else if broken then "Something went wrong reaching the assistant. Try again.".toList
  else "(No response.)".toList

theorem send_eq {res : Option Body} {made : List Call} {broken : Bool}
    (hcalls : assistantChatStream res = (made, broken)) {s : Chat}
    (hs : made.foldl Chat.hear {} = s) (herror : s.error = false) :
    send res = { s with text := settled broken s.text, pending := false, error := broken } := by
  rw [send, hcalls]
  simp only [hs, herror, settled]
  cases broken with
  | true => by_cases htext : s.text = [] <;> simp only [htext, if_true, if_false, ne_eq,
      not_true_eq_false, not_false_eq_true]
  | false => by_cases htext : s.text = [] <;> simp only [htext, if_true, if_false, ne_eq,
      not_true_eq_false, not_false_eq_true, Bool.false_eq_true]

/-- The calls that the frames make. -/
theorem assistantChatStream_script {body : Body} {first : List StreamEvent}
    (hfirst : ∀ step ∈ first, ProperStep step) {events : List Event}
    (hevents : events = first.map engineEvent ∨ events = script first)
    (hbody : body.frames = events.map fun e => frame e.1 (stringify e.2)) :
    assistantChatStream (some body) = (first.flatMap calls, body.broken) := by
  have hread := untilThrow_script
    (show ∀ c ∈ [], JsonText.isGap c = true from fun _ hc => absurd hc List.not_mem_nil)
    List.not_mem_nil browserEvent_step rfl hfirst hevents
  have hbody' : body.frames = events.map fun e => frame e.1 (Wire.write [] e.2) := hbody
  have hnone : ∀ c ∈ first.flatMap calls, c.isError = false := by
    intro c hc
    obtain ⟨step, -, hc⟩ := List.mem_flatMap.mp hc
    exact not_isError_calls hc
  have hfilter : (first.flatMap calls).filter (fun c => !c.isError) = first.flatMap calls :=
    List.filter_eq_self.mpr fun c hc => by rw [hnone c hc, Bool.not_false]
  have hany : (first.flatMap calls).any Call.isError = false := by
    rw [List.any_eq_false]
    intro c hc
    rw [hnone c hc]
    exact Bool.false_ne_true
  simp only [assistantChatStream, hbody', hread, hfilter, hany, Bool.false_or, Bool.false_eq_true,
    if_false, List.append_nil]
  cases body.broken <;> rfl

/-- **What the chat makes of the steps** that have reached it. -/
theorem send_script {body : Body} {first : List StreamEvent}
    (hfirst : ∀ step ∈ first, ProperStep step) {events : List Event}
    (hevents : events = first.map engineEvent ∨ events = script first)
    (hbody : body.frames = events.map fun e => frame e.1 (stringify e.2)) :
    send (some body) =
      { acc := first.flatMap said, text := settled body.broken (first.flatMap said),
        pending := false, error := body.broken, cards := first.flatMap shown } := by
  obtain ⟨hacc, htext, herror, hcards⟩ := hear_calls first {} rfl rfl
  rw [send_eq (assistantChatStream_script hfirst hevents hbody) rfl herror, htext, hacc, hcards]
  rfl

/-! ### A reply of the model -/

section Reply

variable (loads : Text → Option Json) (deltas : List Text)

/-- The prose of a reply. -/
def reply : Text :=
  before ACTION_MARKER deltas.flatten

/-- The actions that it proposes. -/
def proposed : List Json :=
  match after? ACTION_MARKER deltas.flatten with
  | some raw => parseActions loads raw
  | none => []

theorem chatStream_steps : ∃ tokens : List Text, tokens.flatten = reply deltas ∧
    chatStream loads deltas none = tokens.map .token ++ [.actions (proposed loads deltas)] := by
  obtain ⟨hbefore, hafter⟩ := Assistant.deltas_fresh deltas
  refine ⟨_, hbefore, ?_⟩
  rw [chatStream, proposed, ← hafter]
  split <;> rfl

variable {loads deltas} {stage : List Json → List Json} {message : Text}

theorem proper_steps (hproposed : Proper (.arr (proposed loads deltas))) :
    ∀ step ∈ chatStream loads deltas none, ProperStep step := by
  obtain ⟨tokens, -, hsteps⟩ := chatStream_steps loads deltas
  rw [hsteps]
  intro step hstep
  rcases List.mem_append.mp hstep with hstep | hstep
  · obtain ⟨text, -, rfl⟩ := List.mem_map.mp hstep
    trivial
  · rw [List.mem_singleton.mp hstep]
    exact hproposed

theorem proper_staged (hstage : ∀ items, Proper (.arr (stage items))) (steps : List StreamEvent)
    (broken : Bool) :
    ∀ step ∈ steps.flatMap (staged stage) ++ note broken, ProperStep step := by
  intro step hstep
  rcases List.mem_append.mp hstep with hstep | hstep
  · obtain ⟨source, -, hstep⟩ := List.mem_flatMap.mp hstep
    cases source with
    | token text =>
      rw [List.mem_singleton.mp hstep]
      trivial
    | actions items =>
      rw [staged] at hstep
      split at hstep
      · cases hstep
      · rw [List.mem_singleton.mp hstep]
        exact hstage items
  · cases broken with
    | true =>
      rw [List.mem_singleton.mp hstep]
      trivial
    | false => cases hstep

theorem said_staged (steps : List StreamEvent) :
    (steps.flatMap (staged stage)).flatMap said = steps.flatMap said := by
  rw [List.flatMap_assoc]
  congr 1
  funext step
  cases step with
  | token text => exact List.flatMap_singleton said _
  | actions items =>
    rw [staged]
    split <;> rfl

theorem shown_staged_actions (items : List Json) :
    (staged stage (.actions items)).flatMap shown = (stage items).filter isCard := by
  rw [staged]
  split
  · next hempty => rw [List.isEmpty_iff.mp hempty]; rfl
  · exact List.flatMap_singleton shown _

theorem flatMap_said_tokens (tokens : List Text) :
    (tokens.map StreamEvent.token).flatMap said = tokens.flatten := by
  rw [List.flatMap_map]
  exact List.flatMap_id

theorem flatMap_shown_tokens (stage : List Json → List Json) (tokens : List Text) :
    ((tokens.map StreamEvent.token).flatMap (staged stage)).flatMap shown = [] := by
  refine List.flatMap_eq_nil_iff.mpr fun step hstep => ?_
  obtain ⟨source, hsource, hstep⟩ := List.mem_flatMap.mp hstep
  obtain ⟨text, -, rfl⟩ := List.mem_map.mp hsource
  rw [List.mem_singleton.mp hstep]
  rfl

/-- **The user sees the reply.** However the network cuts the two streams, the bubble holds
the prose of the reply, without the marker and what is after it, and under it are the cards of
the actions that the backend has staged. -/
theorem send_generate (hmessage : trim message ≠ [])
    (hproposed : Proper (.arr (proposed loads deltas)))
    (hstage : ∀ items, Proper (.arr (stage items))) {engine backend : Body}
    (hengine : engine.pieces.flatten =
      encode (engineWire (generate true (chatStream loads deltas none) none)))
    (hwhole : engine.broken = false)
    (hbackend : backend.pieces.flatten = encode (relayWire (relay stage message (some engine))))
    (hwhole' : backend.broken = false) :
    send (some backend) =
      { acc := reply deltas,
        text := if reply deltas = [] then "(No response.)".toList else reply deltas,
        pending := false, error := false,
        cards := (stage (proposed loads deltas)).filter isCard } := by
  have hproper := proper_steps hproposed
  rw [generate_eq] at hengine
  have hframes := frames_of_wire (show '\n' ∉ [' '] by decide) (sendable_script hproper) hengine
  have hrelay := relay_script stage hmessage hproper (.inr rfl) hframes
  have hproper' := proper_staged hstage (chatStream loads deltas none) engine.broken
  rw [hrelay] at hbackend
  have hframes' := frames_of_wire (show '\n' ∉ [] from List.not_mem_nil) (sendable_script hproper') hbackend
  obtain ⟨tokens, htokens, hsteps⟩ := chatStream_steps loads deltas
  rw [send_script hproper' (.inr rfl) hframes', hwhole, hwhole', note, if_neg Bool.false_ne_true,
    List.append_nil, said_staged, hsteps, List.flatMap_append, List.flatMap_append,
    List.flatMap_append, flatMap_said_tokens, flatMap_shown_tokens, htokens,
    List.flatMap_singleton, List.flatMap_singleton, shown_staged_actions]
  simp only [said, List.append_nil, List.nil_append, settled, ne_eq, ite_not, Bool.false_eq_true,
    if_false]

/-- The first steps of a reply: they say a beginning of it, and show the cards only when they
have said it all. -/
theorem prefix_steps {first : List StreamEvent}
    (h : first <+: (chatStream loads deltas none).flatMap (staged stage)) :
    first.flatMap said <+: reply deltas ∧
      (first.flatMap shown = [] ∨ first.flatMap said = reply deltas ∧
        first.flatMap shown = (stage (proposed loads deltas)).filter isCard) := by
  obtain ⟨tokens, htokens, hsteps⟩ := chatStream_steps loads deltas
  have hsaid : ((chatStream loads deltas none).flatMap (staged stage)).flatMap said =
      reply deltas := by
    rw [said_staged, hsteps, List.flatMap_append, flatMap_said_tokens, htokens]
    exact List.append_nil _
  refine ⟨hsaid ▸ h.flatMap said, ?_⟩
  have hbefore : ∀ part, part <+: (tokens.map StreamEvent.token).flatMap (staged stage) →
      part.flatMap shown = [] := by
    intro part hpart
    exact List.prefix_nil.mp (flatMap_shown_tokens stage tokens ▸ hpart.flatMap shown)
  rw [hsteps, List.flatMap_append, List.flatMap_singleton] at h
  by_cases hempty : (stage (proposed loads deltas)).isEmpty
  · rw [staged, if_pos hempty, List.append_nil] at h
    exact .inl (hbefore first h)
  · rw [staged, if_neg hempty] at h
    rcases List.prefix_concat_iff.mp h with heq | hprefix
    · -- all has come
      have hall : first = (chatStream loads deltas none).flatMap (staged stage) := by
        rw [heq, hsteps, List.flatMap_append, List.flatMap_singleton, staged, if_neg hempty]
      refine .inr ⟨by rw [hall, hsaid], ?_⟩
      rw [heq, List.flatMap_append, flatMap_shown_tokens, List.nil_append, List.flatMap_singleton,
        shown]
    · exact .inl (hbefore first hprefix)

end Reply

/-! ### A turn with an action -/

/-- A reply that is cut within its marker. -/
def draftDeltas : List Text :=
  ["Done <<".toList, "<<<ACT".toList, "IONS>>>[\x7b\"type\": \"compose\"\x7d]".toList]

/-- A draft for what is proposed. -/
def draftStage (items : List Json) : List Json :=
  if items.isEmpty then [] else [.obj [("kind".toList, .str "draft".toList)]]

theorem proper_draftStage (items : List Json) : Proper (.arr (draftStage items)) := by
  unfold draftStage
  split
  · trivial
  · exact ⟨⟨List.nodup_singleton _, trivial, trivial⟩, trivial⟩

theorem proposed_draftDeltas : proposed JsonResponse.loads draftDeltas =
    [.obj [("type".toList, .str "compose".toList)]] :=
  rfl

theorem proper_draftDeltas : Proper (.arr (proposed JsonResponse.loads draftDeltas)) := by
  rw [proposed_draftDeltas]
  exact ⟨⟨List.nodup_singleton _, trivial, trivial⟩, trivial⟩

theorem trim_hello : trim "Hello".toList ≠ [] := by
  decide

/-- The octets that the engine sends. -/
def draftOctets : List ℕ :=
  encode (engineWire (generate true (chatStream JsonResponse.loads draftDeltas none) none))

/-- The octets that the backend sends. -/
def draftRelayed (engine : Body) : List ℕ :=
  encode (relayWire (relay draftStage "Hello".toList (some engine)))

/-- The stream of the engine, and that of the backend, in one piece. -/
theorem send_generate_draft :
    send (some ⟨[draftRelayed ⟨[draftOctets], false⟩], false⟩) =
      { acc := reply draftDeltas,
        text := if reply draftDeltas = [] then "(No response.)".toList else reply draftDeltas,
        pending := false, error := false,
        cards := (draftStage (proposed JsonResponse.loads draftDeltas)).filter isCard } :=
  send_generate trim_hello proper_draftDeltas proper_draftStage
    (show (Body.mk [draftOctets] false).pieces.flatten = _ from List.flatten_singleton) rfl
    List.flatten_singleton rfl

end StreamRelay
end EmailOps
