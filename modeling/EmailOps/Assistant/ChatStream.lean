import EmailOps.Cleanup.QueryTranslation
import EmailOps.Framework.HoldBack

/-!
# A chat turn that ends in actions

The model answers in prose and appends its actions after a marker. The answer is streamed to
the user as it comes, in pieces that may cut the marker anywhere, and the actions are parsed when
it has ended.

* `chatStream` is the generator: `Loop.delta` is a pass of its loop, `parseActions` reads the
  actions. The JSON parser of the library is a parameter, `loads`.
* `Loop.reader` sees the loop as the reader of `Framework.HoldBack`, and `reader_delta` says that
  a pass of the loop is a step of the reader.
* `chatStream_spec`: the user sees what is before the first marker, and nothing of the marker;
  the actions are parsed from what is after it.
-/

namespace EmailOps
namespace Assistant

open Framework.HoldBack
open Cleanup (isSpace)
open Framework.Words (strip)

/-! ### The actions -/

/-- `.*c`: a text up to the last place of a character. -/
def upToLast (c : Char) (text : Text) : Option Text :=
  if c ∈ text then some (text.rdropWhile (· ≠ c)) else none

/-- The outermost array or object, `(\[.*\]|\x7b.*\x7d)`: from the first bracket that closes later. -/
def bracketed : Text → Option Text
  | [] => none
  | c :: rest =>
    -- The first bracket that has a partner later on begins the match.
    let body :=
      if c = '[' then upToLast ']' rest
      else if c = '\x7b' then upToLast '\x7d' rest
      else none
    match body with
    | some body => some (c :: body)
    | none => bracketed rest

/-- The outermost array, `\[.*\]`. -/
def listed (text : Text) : Option Text :=
  match text.dropWhile (· ≠ '[') with
  | [] => none
  | c :: rest => (upToLast ']' rest).map (c :: ·)

/-- Drop the commas before a closing bracket. -/
def dropTrailingCommas : Text → Text
  | [] => []
  | c :: rest =>
    let closes := (rest.dropWhile isSpace).head?.any fun d => d = ']' || d = '\x7d'
    if c = ',' && closes then dropTrailingCommas rest else c :: dropTrailingCommas rest

/-- Drop a leading fence, and the closing one. -/
def stripFence (text : Text) : Text :=
  let fence := "```".toList
  if fence.isPrefixOf text then
    let inner := if '\n' ∈ text then (text.dropWhile (· ≠ '\n')).drop 1 else text.drop 3
    let right := inner.rdropWhile isSpace
    strip isSpace (if fence.isSuffixOf right then right.take (right.length - 3) else inner)
  else text

/-- `_parse_json_response`; it is none when that raises. -/
def parseJsonResponse (loads : Text → Option Json) (response : Text) : Option Json :=
  let text := stripFence (strip isSpace response)
  match loads text with
  | some data => some data
  | none => (bracketed text).bind fun candidate => loads (dropTrailingCommas candidate)

/-- The truth value of what JSON is read as. -/
def truth : Json → Bool
  | .null => false
  | .bool b => b
  | .num text => text ≠ "0".toList
  | .str s => s ≠ []
  | .arr items => !items.isEmpty
  | .obj fields => !fields.isEmpty

/-- An object that has a type. -/
def isAction : Json → Bool
  | .obj fields => (Json.get fields "type".toList).any truth
  | _ => false

/-- `_parse_actions`. -/
def parseActions (loads : Text → Option Json) (raw : Text) : List Json :=
  let text := strip isSpace raw
  if text = [] then []
  else
    -- What does not parse as a whole may have a list in it.
    match (parseJsonResponse loads text).or ((listed text).bind loads) with
    | some (.obj fields) => [Json.obj fields].filter isAction
    | some (.arr items) => items.filter isAction
    | _ => []

/-! ### The stream -/

/-- What the model emits between its prose reply and the actions. -/
def ACTION_MARKER : Text := "<<<ACTIONS>>>".toList

/-- What is held back to catch a marker that is split. -/
def keep : ℕ := ACTION_MARKER.length - 1

/-- The variables of the loop. -/
structure Loop where
  /-- Prose that is not flushed. -/
  buf : Text := []
  /-- The text after the marker. -/
  action_raw : Text := []
  in_actions : Bool := false

/-- `if text: yield ("token", text)`. -/
def yieldToken (text : Text) : List Text :=
  if text = [] then [] else [text]

/-- A pass of the loop, and the tokens that it yields. -/
def Loop.delta (s : Loop) (delta : Text) : Loop × List Text :=
  if s.in_actions then ({ s with action_raw := s.action_raw ++ delta }, [])
  else
    let buf := s.buf ++ delta
    match find ACTION_MARKER buf with
    | some idx =>
      ({ buf := [], action_raw := buf.drop (idx + ACTION_MARKER.length), in_actions := true },
        yieldToken (buf.take idx))
    | none =>
      -- The end of the buffer may be the beginning of a marker.
      if buf.length > keep then
        ({ s with buf := buf.drop (buf.length - keep) }, yieldToken (buf.take (buf.length - keep)))
      else ({ s with buf := buf }, [])

/-- The passes of the loop. -/
def Loop.deltas : Loop → List Text → Loop × List Text
  | s, [] => (s, [])
  | s, delta :: deltas =>
    ((s.delta delta).1.deltas deltas).map id ((s.delta delta).2 ++ ·)

inductive StreamEvent where
  | token (text : Text)
  | actions (actions : List Json)

/-- `chat_stream`, of the deltas that arrive and the error that ends them, if one does. -/
def chatStream (loads : Text → Option Json) (deltas : List Text) (error : Option Text) :
    List StreamEvent :=
  let run := ({} : Loop).deltas deltas
  match error with
  | some e =>
    -- What was held back is lost, and no action is proposed.
    run.2.map .token ++
      [.token ("\n\n_(The assistant hit an error: ".toList ++ e ++ ")_".toList), .actions []]
  | none =>
    (run.2 ++ if run.1.in_actions then [] else yieldToken run.1.buf).map .token ++
      [.actions (if run.1.in_actions then parseActions loads run.1.action_raw else [])]

/-! ### The loop as a reader -/

/-- What the loop holds back, and what has come after the marker. -/
def Loop.reader (s : Loop) : Reader Char :=
  if s.in_actions then ⟨[], some s.action_raw⟩ else ⟨s.buf, none⟩

@[simp] theorem flatten_yieldToken (text : Text) : (yieldToken text).flatten = text := by
  unfold yieldToken
  split
  · next h => rw [h, List.flatten_nil]
  · exact List.append_nil text

/-- **A pass of the loop is a step of the reader.** -/
theorem reader_delta (s : Loop) (delta : Text) :
    feed ACTION_MARKER s.reader delta = ((s.delta delta).1.reader, (s.delta delta).2.flatten) := by
  obtain ⟨buf, action_raw, in_actions⟩ := s
  cases in_actions with
  | true => rfl
  | false =>
    have hreader : Loop.reader ⟨buf, action_raw, false⟩ = ⟨buf, none⟩ := rfl
    rw [hreader]
    cases hfind : find ACTION_MARKER (buf ++ delta) with
    | some idx =>
      simp only [feed, Loop.delta, Loop.reader, hfind, Bool.false_eq_true, if_false, if_true,
        flatten_yieldToken]
    | none =>
      simp only [feed, Loop.delta, hfind, Bool.false_eq_true, if_false]
      split
      · simp only [Loop.reader, flatten_yieldToken, keep, Bool.false_eq_true, if_false]
      · next hshort =>
        -- all is held back
        have hn : (buf ++ delta).length - (ACTION_MARKER.length - 1) = 0 :=
          Nat.sub_eq_zero_of_le (Nat.not_lt.mp hshort)
        rw [hn]
        rfl

theorem reader_deltas (s : Loop) (deltas : List Text) :
    feedAll ACTION_MARKER s.reader deltas =
      ((s.deltas deltas).1.reader, (s.deltas deltas).2.flatten) := by
  induction deltas generalizing s with
  | nil => rfl
  | cons delta deltas ih =>
    rw [feedAll, reader_delta, ih]
    simp [Loop.deltas]

/-! ### What is streamed -/

theorem marker_ne_nil : ACTION_MARKER ≠ [] := by
  decide

/-- What the loop comes to: what it has passed on and holds back is what is before the marker,
and it parses what is after. -/
theorem deltas_fresh (deltas : List Text) :
    let run := ({} : Loop).deltas deltas
    (run.2 ++ if run.1.in_actions then [] else yieldToken run.1.buf).flatten =
        before ACTION_MARKER deltas.flatten ∧
      (if run.1.in_actions then some run.1.action_raw else none) =
        after? ACTION_MARKER deltas.flatten := by
  intro run
  have hrun : feedAll ACTION_MARKER Reader.fresh deltas = (run.1.reader, run.2.flatten) :=
    reader_deltas {} deltas
  obtain ⟨hwithout, hwith, hafter⟩ := feedAll_fresh marker_ne_nil deltas
  rw [hrun] at hwithout hwith hafter
  cases hin : run.1.in_actions with
  | true =>
    -- the marker has come, so that nothing is held back
    have hreader : run.1.reader = ⟨[], some run.1.action_raw⟩ := by rw [Loop.reader, hin, if_pos rfl]
    rw [hreader] at hwith hafter
    refine ⟨?_, hafter⟩
    rw [if_pos rfl, List.append_nil]
    exact hwith rfl
  | false =>
    -- what is held back is passed on at the end
    have hreader : run.1.reader = ⟨run.1.buf, none⟩ := by
      rw [Loop.reader, hin, if_neg Bool.false_ne_true]
    rw [hreader] at hwithout hafter
    refine ⟨?_, hafter⟩
    rw [if_neg Bool.false_ne_true, List.flatten_append, flatten_yieldToken]
    exact hwithout rfl

theorem flatten_take_prefix {pieces : List Text} {text : Text} (h : pieces.flatten = text) (n : ℕ) :
    (pieces.take n).flatten <+: text := by
  refine ⟨(pieces.drop n).flatten, ?_⟩
  rw [← List.flatten_append, List.take_append_drop, h]

/-- **The marker splits the stream, however it is cut.** The tokens are the answer when it has no
marker, and there are no actions then. Otherwise they are what is before the first marker, at no
time more than that, and the actions are parsed from exactly what is after it. -/
theorem chatStream_spec (loads : Text → Option Json) (deltas : List Text) :
    ∃ (tokens : List Text) (actions : List Json),
      chatStream loads deltas none = tokens.map .token ++ [.actions actions] ∧
      (¬ ACTION_MARKER <:+: deltas.flatten → tokens.flatten = deltas.flatten ∧ actions = []) ∧
      ∀ pre post, Parts ACTION_MARKER pre post deltas.flatten →
        tokens.flatten = pre ∧ (∀ n, (tokens.take n).flatten <+: pre) ∧
          actions = parseActions loads post := by
  obtain ⟨hbefore, hafter⟩ := deltas_fresh deltas
  refine ⟨_, _, rfl, fun hnone => ?_, fun pre post hparts => ?_⟩
  · obtain ⟨hall, hnothing⟩ := before_of_not_infix marker_ne_nil hnone
    rw [hall] at hbefore
    rw [hnothing] at hafter
    refine ⟨hbefore, ?_⟩
    split at hafter
    · cases hafter
    · next hin => rw [if_neg hin]
  · obtain ⟨hpre, hpost⟩ := before_of_parts marker_ne_nil hparts
    rw [hpre] at hbefore
    rw [hpost] at hafter
    refine ⟨hbefore, flatten_take_prefix hbefore, ?_⟩
    split at hafter
    · next hin => rw [if_pos hin, Option.some.inj hafter]
    · cases hafter

/-- A marker in three pieces, after the beginning of another. -/
def splitMarker : List Text :=
  ["Done <<".toList, "<<<ACT".toList, "IONS".toList, ">>>[]".toList]

theorem chatStream_spec_splitMarker :
    ∃ (tokens : List Text) (actions : List Json),
      chatStream (fun _ => none) splitMarker none = tokens.map .token ++ [.actions actions] ∧
        tokens.flatten = "Done <<".toList ∧ actions = parseActions (fun _ => none) "[]".toList := by
  obtain ⟨tokens, actions, hstream, -, hsplit⟩ := chatStream_spec (fun _ => none) splitMarker
  have hparts : Parts ACTION_MARKER "Done <<".toList "[]".toList splitMarker.flatten :=
    ⟨by decide, by decide⟩
  obtain ⟨hprose, -, hactions⟩ := hsplit _ _ hparts
  exact ⟨tokens, actions, hstream, hprose, hactions⟩

end Assistant
end EmailOps
