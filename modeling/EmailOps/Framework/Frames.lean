import EmailOps.Framework.HoldBack

/-!
# A stream of frames

A stream carries frames, each ended by a marker. A reader puts the pieces that come behind each
other in a buffer, and takes off what is ended.

* `drain` is the loop that empties the buffer, and `feedAll` the reader.
* `Splits` says how a text falls apart. `splits_append` puts two parts together where the first
  one has not ended, and `Splits.unique` says that there is only one way.
* `feedAll_eq`: however the stream is cut, the frames that were sent are read.
  `feedAll_prefix`: of a stream that breaks off, frames that were sent are read, in their order.
-/

namespace Framework
namespace Frames

open HoldBack

variable {α : Type*} [DecidableEq α]

/-! ### The reader -/

/-- `while ((sep = buf.indexOf(marker)) !== -1) { … }`; every turn takes the marker off, so no
more turns are taken than the buffer is long. -/
def turns (marker : List α) : ℕ → List α → List (List α) × List α
  | 0, buf => ([], buf)
  | n + 1, buf =>
    match find marker buf with
    | none => ([], buf)
    | some i =>
      let r := turns marker n (buf.drop (i + marker.length))
      (buf.take i :: r.1, r.2)

/-- The frames in a buffer, and what is left in it. -/
def drain (marker buf : List α) : List (List α) × List α :=
  turns marker buf.length buf

/-- The frames in the pieces, and what is left in the buffer. -/
def feedAll (marker : List α) : List α → List (List α) → List (List α) × List α
  | buf, [] => ([], buf)
  | buf, piece :: pieces =>
    let r := drain marker (buf ++ piece)
    let rs := feedAll marker r.2 pieces
    (r.1 ++ rs.1, rs.2)

/-! ### How a text falls apart -/

/-- A text is these frames, and this rest in which no frame is ended. -/
inductive Splits (marker : List α) : List α → List (List α) → List α → Prop where
  | rest {text} : ¬ marker <:+: text → Splits marker text [] text
  | frame {text frame after frames rest} :
      Parts marker frame after text → Splits marker after frames rest →
      Splits marker text (frame :: frames) rest

variable {marker : List α}

omit [DecidableEq α] in
/-- **Parts are put together** where no frame has ended. -/
theorem splits_append {text more rest rest' : List α} {frames frames' : List (List α)}
    (h : Splits marker text frames rest) (hmore : Splits marker (rest ++ more) frames' rest') :
    Splits marker (text ++ more) (frames ++ frames') rest' := by
  induction h with
  | rest => exact hmore
  | frame hparts _ ih =>
    refine .frame ⟨?_, hparts.first⟩ (ih hmore)
    rw [hparts.text, List.append_assoc]

theorem splits_turns (hne : marker ≠ []) (n : ℕ) (buf : List α) (hn : buf.length ≤ n) :
    Splits marker buf (turns marker n buf).1 (turns marker n buf).2 := by
  induction n generalizing buf with
  | zero =>
    obtain rfl := List.length_eq_zero_iff.mp (Nat.le_zero.mp hn)
    exact .rest (by simpa using hne)
  | succ n ih =>
    rw [turns]
    cases hfind : find marker buf with
    | none => exact .rest ((find_eq_none_iff hne).mp hfind)
    | some i =>
      have hpos := List.length_pos_iff.mpr hne
      refine .frame (parts_of_find hne hfind).2 (ih _ ?_)
      rw [List.length_drop]
      omega

theorem splits_drain (hne : marker ≠ []) (buf : List α) :
    Splits marker buf (drain marker buf).1 (drain marker buf).2 :=
  splits_turns hne _ buf le_rfl

/-- **A text falls apart in one way.** -/
theorem Splits.unique (hne : marker ≠ []) {text rest rest' : List α}
    {frames frames' : List (List α)} (h : Splits marker text frames rest)
    (h' : Splits marker text frames' rest') : frames = frames' ∧ rest = rest' := by
  induction h generalizing frames' with
  | @rest text hnot =>
    cases h' with
    | rest => exact ⟨rfl, rfl⟩
    | frame hparts =>
      refine absurd ?_ hnot
      rw [hparts.text]
      exact List.infix_append _ _ _
  | @frame text frame after frames rest hparts _ ih =>
    cases h' with
    | rest hnot =>
      refine absurd ?_ hnot
      rw [hparts.text]
      exact List.infix_append _ _ _
    | @frame _ frame' after' _ _ hparts' hafter' =>
      have hlength := Option.some.inj
        ((find_of_parts hne hparts).symm.trans (find_of_parts hne hparts'))
      have htext := hparts.text.symm.trans hparts'.text
      rw [List.append_assoc, List.append_assoc] at htext
      obtain ⟨rfl, hrest⟩ := List.append_inj htext hlength
      obtain rfl := List.append_cancel_left hrest
      obtain ⟨rfl, rfl⟩ := ih hafter'
      exact ⟨rfl, rfl⟩

omit [DecidableEq α] in
theorem Splits.not_infix {text rest : List α} {frames : List (List α)}
    (h : Splits marker text frames rest) : ¬ marker <:+: rest := by
  induction h with
  | rest hnot => exact hnot
  | frame _ _ ih => exact ih

/-- **What the reader has read is how the text falls apart.** -/
theorem splits_feedAll (hne : marker ≠ []) (pieces : List (List α)) {buf : List α}
    (hbuf : ¬ marker <:+: buf) :
    Splits marker (buf ++ pieces.flatten) (feedAll marker buf pieces).1
      (feedAll marker buf pieces).2 := by
  induction pieces generalizing buf with
  | nil =>
    rw [List.flatten_nil, List.append_nil]
    exact .rest hbuf
  | cons piece pieces ih =>
    have hdrain := splits_drain hne (buf ++ piece)
    rw [List.flatten_cons, ← List.append_assoc]
    exact splits_append hdrain (ih hdrain.not_infix)

/-! ### What was sent -/

omit [DecidableEq α] in
/-- Frames that do not end early are the frames of the stream. -/
theorem splits_of_sent (hne : marker ≠ []) {frames : List (List α)}
    (h : ∀ f ∈ frames, ¬ marker <:+: f ++ marker.dropLast) :
    Splits marker (frames.flatMap (· ++ marker)) frames [] := by
  induction frames with
  | nil => exact .rest (by simpa using hne)
  | cons f frames ih =>
    rw [List.flatMap_cons]
    exact .frame ⟨rfl, h f List.mem_cons_self⟩ (ih fun g hg => h g (List.mem_cons_of_mem f hg))

/-- **The frames that were sent are read**, however the stream is cut. -/
theorem feedAll_eq (hne : marker ≠ []) {frames pieces : List (List α)}
    (h : ∀ f ∈ frames, ¬ marker <:+: f ++ marker.dropLast)
    (hpieces : pieces.flatten = frames.flatMap (· ++ marker)) :
    feedAll marker [] pieces = (frames, []) := by
  have hread := splits_feedAll hne pieces (show ¬ marker <:+: [] by simpa using hne)
  rw [List.nil_append, hpieces] at hread
  obtain ⟨hframes, hrest⟩ := hread.unique hne (splits_of_sent hne h)
  exact Prod.ext hframes hrest

/-- **Where the stream breaks off, frames that were sent are read**, in their order. -/
theorem feedAll_prefix (hne : marker ≠ []) {frames pieces : List (List α)}
    (h : ∀ f ∈ frames, ¬ marker <:+: f ++ marker.dropLast)
    (hpieces : pieces.flatten <+: frames.flatMap (· ++ marker)) :
    (feedAll marker [] pieces).1 <+: frames := by
  obtain ⟨more, hmore⟩ := hpieces
  have hread := splits_feedAll hne pieces (show ¬ marker <:+: [] by simpa using hne)
  rw [List.nil_append] at hread
  have hall := splits_append hread (splits_drain hne ((feedAll marker [] pieces).2 ++ more))
  rw [hmore] at hall
  obtain ⟨hframes, -⟩ := hall.unique hne (splits_of_sent hne h)
  exact ⟨_, hframes⟩

end Frames
end Framework
