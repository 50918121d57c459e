import Mathlib.Algebra.BigOperators.Ring.Finset
import Mathlib.Data.List.Lex
import Mathlib.Data.Prod.Lex
import EmailOps.Common.Concurrency
import EmailOps.Framework.Ranking
import EmailOps.Framework.Text

/-!
# What a cleanup would touch

A staged cleanup carries a bounded preview of its targets: the senders with the most messages,
how many messages each has, and the total. The backend makes the preview from the plan and
stores it. The client reads the stored preview, or makes one of its own from the plan.

* `cleanupTargetsFromPlan` is the preview of the backend, `coerceCleanupTargets` and `fromPlan`
  are the two readings of the client.
* `bySender_spec` says what the groups of a plan are.
* `coerce_preview`: reading a stored preview loses nothing of it.
* `previewLaw_iff` says when the client makes the preview that the backend has made. Both
  order senders of equal counts by the collation of their own default locale.
-/

namespace EmailOps
namespace Targets

open Framework Framework.Text Framework.Ranking

/-- Cap on the rows persisted / rendered for a cleanup preview. -/
def MAX_TARGET_ROWS : ℕ := 8

/-- The sort key of a text in the default locale of a runtime. -/
abbrev Collation := Text → List ℕ

/-! ### Previews -/

inductive Scope
  | messages
  | threads
  deriving DecidableEq

/-- One readable line in a cleanup preview. -/
@[ext]
structure CleanupTargetRow where
  subject : Option Text := none
  sender : Option Text
  count : Option ℚ
  deriving DecidableEq

/-- A bounded, human-readable preview of a staged cleanup batch's targets. -/
@[ext]
structure CleanupTargets where
  verb : Text
  scope : Scope
  provider : Option Text
  total : ℚ
  rows : List CleanupTargetRow
  protected_count : Option ℚ
  frees_bytes : Option ℚ
  truncated : Bool

/-- `cleanupVerb`, the same in both packages. -/
def cleanupVerb (toUpperCase : Text → Text) (action : Text) : Text :=
  let a := toUpperCase (trim action)
  if a = "DELETE".toList ∨ a = "ARCHIVE_PURGE".toList then "Permanently delete".toList
  else if a = "ARCHIVE".toList ∨ a = "ORGANIZE".toList ∨ a = "LABEL".toList then "Archive".toList
  else "Move to Trash".toList

/-- `<[^>]+>\s*$`, in a text without white space at its end. -/
def addressed : Text → Bool
  | '<' :: t => 2 ≤ t.length && t.getLast? = some '>' && t.dropLast.all (· ≠ '>')
  | _ => false

/-- The name that `^\s*"?([^"<]+?)"?\s*<[^>]+>\s*$` captures, up to white space at its end. -/
def captured (s : Text) : Option Text :=
  let s := if s.head? = some '"' then s.tail else s
  let name := s.takeWhile fun c => c ≠ '"' && c ≠ '<'
  let rest := s.dropWhile fun c => c ≠ '"' && c ≠ '<'
  let rest := if rest.head? = some '"' then rest.tail.dropWhile isWhite else rest
  if name ≠ [] && addressed rest then some name else none

/-- `displaySender`, the same in both packages: "Jane Doe <jane@acme.com>" → "Jane Doe"; a bare
address stays as-is. -/
def displaySender (raw : Text) : Text :=
  let s := trim raw
  if s = [] then "(unknown sender)".toList
  else
    match captured s with
    | some name => if trim name = [] then s else trim name
    | none => s

example : displaySender "\"Ops, Team\" <ops@x.io>".toList = "Ops, Team".toList := by
  decide +kernel

/-! ### Groups -/

/-- One more message of a sender. -/
def bump (groups : List (Text × ℕ)) (key : Text) : List (Text × ℕ) :=
  if key ∈ groups.map Prod.fst then
    groups.map fun g => if g.1 = key then (g.1, g.2 + 1) else g
  else groups ++ [(key, 1)]

/-- The messages of each sender, in the order of their first messages. -/
def bySender (senders : List Text) : List (Text × ℕ) :=
  senders.foldl (fun groups raw => bump groups (displaySender raw)) []

/-- `b[1] - a[1] || a[0].localeCompare(b[0])` -/
def groupKey (collate : Collation) (g : Text × ℕ) : ℕᵒᵈ ×ₗ List ℕ :=
  toLex (OrderDual.toDual g.2, collate g.1)

/-- The groups in the order of the preview. -/
def sorted (collate : Collation) (groups : List (Text × ℕ)) : List (Text × ℕ) :=
  groups.insertionSort fun a b => groupKey collate a ≤ groupKey collate b

def groupRow (g : Text × ℕ) : CleanupTargetRow where
  sender := some g.1
  count := some g.2

/-- The rows of the groups that are shown. -/
def topRows (collate : Collation) (groups : List (Text × ℕ)) : List CleanupTargetRow :=
  ((sorted collate groups).take MAX_TARGET_ROWS).map groupRow

/-! ### The backend -/

structure PlanCounts where
  safe : Option ℚ
  protected_ : Option ℚ

/-- What the preview reads of a plan: of its messages the senders. -/
structure PlanLike where
  counts : Option PlanCounts
  safe : Option (List (Option Text))
  freesBytes : Option ℚ

/-- `cleanupTargetsFromPlan` -/
def cleanupTargetsFromPlan (collate : Collation) (toUpperCase : Text → Text)
    (action provider : Option Text) (plan : Option PlanLike) : CleanupTargets :=
  let safe := (plan.bind (·.safe)).getD []
  let counts := plan.bind (·.counts)
  let groups := bySender (safe.map (·.getD []))
  let rows := topRows collate groups
  { verb := cleanupVerb toUpperCase (action.getD [])
    scope := .messages
    provider
    total := (counts.bind (·.safe)).getD safe.length
    rows
    protected_count := (counts.bind (·.protected_)).getD 0
    frees_bytes := (plan.bind (·.freesBytes)).getD 0
    truncated := rows.length < groups.length }

/-! ### JSON -/

/-- A JSON value as it is parsed, numbers by their values. -/
inductive Value
  | null
  | bool (b : Bool)
  | num (q : ℚ)
  | str (t : Text)
  | arr (items : List Value)
  | obj (fields : List (Text × Value))

/-- A text, or `null`. -/
def textValue : Option Text → Value
  | some t => .str t
  | none => .null

/-- The fields of a number that may be `undefined`. -/
def numField (key : String) : Option ℚ → List (Text × Value)
  | some q => [(key.toList, .num q)]
  | none => []

/-- A row as the backend stores it. -/
def CleanupTargetRow.toJson (row : CleanupTargetRow) : Value :=
  .obj (("sender".toList, textValue row.sender) :: numField "count" row.count)

def Scope.toText : Scope → Text
  | .messages => "messages".toList
  | .threads => "threads".toList

def CleanupTargets.toJson (t : CleanupTargets) : Value :=
  .obj ([("verb".toList, .str t.verb), ("scope".toList, .str t.scope.toText),
    ("provider".toList, textValue t.provider), ("total".toList, .num t.total),
    ("rows".toList, .arr (t.rows.map (·.toJson)))] ++ numField "protected_count" t.protected_count ++
    numField "frees_bytes" t.frees_bytes ++ [("truncated".toList, .bool t.truncated)])

/-! ### The client -/

/-- What the client's runtime has built in: the collation of its default locale, `Number` of a
text or an array, and `String` of what is no text. -/
structure Client where
  collate : Collation
  number : Value → Option ℚ
  text : Value → Text

abbrev Fields := List (Text × Value)

/-- A property of a record; `undefined` is `none`. -/
def field (fields : Fields) (key : String) : Option Value :=
  fields.lookup key.toList

def asRecord : Option Value → Option Fields
  | some (.obj fields) => some fields
  | _ => none

def asArray : Option Value → List Value
  | some (.arr items) => items
  | _ => []

def cleanStr : Option Value → Option Text
  | some (.str t) => if trim t = [] then none else some (trim t)
  | _ => none

/-- `Number(value)`, where it is finite. -/
def Client.toNumber (c : Client) : Option Value → Option ℚ
  | none => none
  | some .null => some 0
  | some (.bool b) => some (if b then 1 else 0)
  | some (.num q) => some q
  | some (.obj _) => none
  | some v => c.number v

/-- `String(value ?? '')` -/
def Client.toText (c : Client) : Option Value → Text
  | none | some .null => []
  | some (.str t) => t
  | some v => c.text v

/-- `Boolean(value)` -/
def truthy : Option Value → Bool
  | none | some .null => false
  | some (.bool b) => b
  | some (.num q) => q ≠ 0
  | some (.str t) => t ≠ []
  | some (.arr _) | some (.obj _) => true

/-- `Math.max(0, Math.trunc(total))` -/
def wholeTotal (total : ℚ) : ℚ :=
  max 0 (Common.trunc total : ℤ)

def coerceRow (c : Client) (r : Fields) : CleanupTargetRow where
  subject := cleanStr (field r "subject")
  sender := cleanStr (field r "sender")
  count := c.toNumber (field r "count")

/-- `coerceCleanupTargets` -/
def coerceCleanupTargets (c : Client) (raw : Option Value) : Option CleanupTargets := do
  let rec_ ← asRecord raw
  let total ← c.toNumber (field rec_ "total")
  return {
    verb := (cleanStr (field rec_ "verb")).getD "Clean up".toList
    scope :=
      match field rec_ "scope" with
      | some (.str t) => if t = "threads".toList then .threads else .messages
      | _ => .messages
    provider := cleanStr (field rec_ "provider")
    total := wholeTotal total
    rows := (((asArray (field rec_ "rows")).filterMap fun r => asRecord (some r)).take
      MAX_TARGET_ROWS).map (coerceRow c)
    protected_count := c.toNumber (field rec_ "protected_count")
    frees_bytes := c.toNumber (field rec_ "frees_bytes")
    truncated := truthy (field rec_ "truncated") }

/-- `fromPlan` -/
def fromPlan (c : Client) (toUpperCase : Text → Text) (payload : Fields) :
    Option CleanupTargets := do
  let plan ← asRecord (field payload "plan")
  let safe := asArray (field plan "safe")
  let counts := (asRecord (field plan "counts")).getD []
  let total :=
    match field counts "safe" with
    | none | some .null => some (safe.length : ℚ)
    | some v => c.toNumber (some v)
  let groups := bySender (safe.map fun row =>
    c.toText (field ((asRecord (some row)).getD []) "sender"))
  let rows := topRows c.collate groups
  return {
    verb := cleanupVerb toUpperCase (c.toText (field payload "action"))
    scope := .messages
    provider := cleanStr (field payload "provider")
    total := match total with
      | some total => wholeTotal total
      | none => safe.length
    rows
    protected_count := c.toNumber (field counts "protected")
    frees_bytes := c.toNumber (field plan "freesBytes")
    truncated := rows.length < groups.length }

/-- `remainingCount` -/
def remainingCount (targets : CleanupTargets) : ℚ :=
  match targets.scope with
  | .messages => max 0 (targets.total - (targets.rows.map fun r => r.count.getD 0).sum)
  | .threads => max 0 (targets.total - targets.rows.length)

/-! ### Senders -/

/-- A sender is shown without white space around it, and never as nothing. -/
theorem displaySender_clean (raw : Text) :
    trim (displaySender raw) = displaySender raw ∧ displaySender raw ≠ [] := by
  have hunknown : trim "(unknown sender)".toList = "(unknown sender)".toList := by decide +kernel
  unfold displaySender
  dsimp only
  split
  · exact ⟨hunknown, by decide⟩
  · next hne =>
    split
    · split
      · exact ⟨trim_trim raw, hne⟩
      · next hname => exact ⟨trim_trim _, hname⟩
    · exact ⟨trim_trim raw, hne⟩

theorem cleanStr_displaySender (raw : Text) :
    cleanStr (some (.str (displaySender raw))) = some (displaySender raw) := by
  obtain ⟨htrim, hne⟩ := displaySender_clean raw
  simp [cleanStr, htrim, hne]

theorem cleanStr_cleanupVerb (toUpperCase : Text → Text) (action : Text) :
    cleanStr (some (.str (cleanupVerb toUpperCase action))) =
      some (cleanupVerb toUpperCase action) := by
  unfold cleanupVerb
  dsimp only
  split
  · decide +kernel
  · split <;> decide +kernel

/-! ### What the groups are -/

theorem keys_bump (groups : List (Text × ℕ)) (key : Text) :
    (bump groups key).map Prod.fst =
      if key ∈ groups.map Prod.fst then groups.map Prod.fst else groups.map Prod.fst ++ [key] := by
  unfold bump
  split
  · rw [List.map_map]
    refine List.map_congr_left fun g _ => ?_
    change (if g.1 = key then (g.1, g.2 + 1) else g).1 = g.1
    split <;> rfl
  · rw [List.map_append, List.map_singleton]

/-- One message more, of a sender that has one group. -/
theorem sum_bump {groups : List (Text × ℕ)} (h : (groups.map Prod.fst).Nodup) (key : Text) :
    ((bump groups key).map Prod.snd).sum = (groups.map Prod.snd).sum + 1 := by
  unfold bump
  split
  · next hmem =>
    induction groups with
    | nil => exact absurd hmem List.not_mem_nil
    | cons g groups ih =>
      obtain ⟨hg, hrest⟩ := List.nodup_cons.mp h
      by_cases hkey : g.1 = key
      · -- the other groups are of other senders
        have hother : (groups.map fun g => if g.1 = key then (g.1, g.2 + 1) else g) = groups := by
          refine (List.map_congr_left fun g' hg' => if_neg fun h' => ?_).trans (List.map_id groups)
          exact hg (hkey.trans h'.symm ▸ List.mem_map_of_mem hg')
        rw [List.map_cons, hother, if_pos hkey]
        simp only [List.map_cons, List.sum_cons]
        omega
      · have hmem' : key ∈ groups.map Prod.fst :=
          (List.mem_cons.mp hmem).resolve_left (Ne.symm hkey)
        rw [List.map_cons, if_neg hkey]
        simp only [List.map_cons, List.sum_cons, ih hrest hmem']
        omega
  · simp

/-- **What the groups of a plan are**: one for each sender, all of its messages in them. -/
theorem bySender_spec (senders : List Text) :
    ((bySender senders).map Prod.fst).Nodup ∧
      ((bySender senders).map Prod.snd).sum = senders.length ∧
      ∀ g ∈ bySender senders, ∃ raw, g.1 = displaySender raw := by
  induction senders using List.reverseRecOn with
  | nil => simp [bySender]
  | append_singleton senders raw ih =>
    obtain ⟨hnodup, hsum, hsender⟩ := ih
    have hstep : bySender (senders ++ [raw]) = bump (bySender senders) (displaySender raw) := by
      simp [bySender, List.foldl_append]
    rw [hstep]
    refine ⟨?_, ?_, fun g hg => ?_⟩
    · rw [keys_bump]
      split
      · exact hnodup
      · next hnew =>
        rw [List.nodup_append]
        refine ⟨hnodup, List.nodup_singleton _, fun a ha b hb => ?_⟩
        rw [List.mem_singleton.mp hb]
        rintro rfl
        exact hnew ha
    · rw [sum_bump hnodup, hsum, List.length_append, List.length_singleton]
    · have hkey : g.1 ∈ (bump (bySender senders) (displaySender raw)).map Prod.fst :=
        List.mem_map_of_mem hg
      rw [keys_bump] at hkey
      have hold : g.1 ∈ (bySender senders).map Prod.fst → ∃ raw, g.1 = displaySender raw := by
        intro hmem
        obtain ⟨g', hg', heq⟩ := List.mem_map.mp hmem
        rw [← heq]
        exact hsender g' hg'
      split at hkey
      · exact hold hkey
      · rcases List.mem_append.mp hkey with hkey | hkey
        · exact hold hkey
        · exact ⟨raw, List.mem_singleton.mp hkey⟩

theorem nodup_bySender (senders : List Text) : (bySender senders).Nodup :=
  (bySender_spec senders).1.of_map

/-! ### The rows -/

theorem perm_sorted (collate : Collation) (groups : List (Text × ℕ)) :
    (sorted collate groups).Perm groups :=
  List.perm_insertionSort _ groups

theorem pairwise_sorted (collate : Collation) (groups : List (Text × ℕ)) :
    (sorted collate groups).Pairwise fun a b => b.2 ≤ a.2 := by
  refine (List.pairwise_insertionSort
    (fun a b => groupKey collate a ≤ groupKey collate b) groups).imp fun {a b} hab => ?_
  rcases Prod.Lex.le_iff.mp hab with hlt | ⟨heq, -⟩
  · exact (OrderDual.toDual_lt_toDual.mp hlt).le
  · exact (OrderDual.toDual.injective heq).symm.le

theorem length_topRows (collate : Collation) (groups : List (Text × ℕ)) :
    (topRows collate groups).length = min MAX_TARGET_ROWS groups.length := by
  rw [topRows, List.length_map, List.length_take, (perm_sorted collate groups).length_eq]

theorem pairwise_ahead_sorted (collate : Collation) (groups : List (Text × ℕ)) :
    (sorted collate groups).Pairwise (Ahead (groupKey collate) groups) :=
  pairwise_ahead_insertionSort groups

theorem groupRow_injective : Function.Injective groupRow := by
  rintro ⟨sender, count⟩ ⟨sender', count'⟩ h
  simpa [groupRow] using h

/-! ### A plan, stored and read -/

/-- A plan of the cleaner engine, as far as a preview reads it. -/
structure CleanupPlanResult where
  safeCount : ℚ
  protectedCount : ℚ
  freesBytes : ℚ
  /-- The senders of the messages that are safe to touch. -/
  safe : List (Option Text)

def CleanupPlanResult.planLike (plan : CleanupPlanResult) : PlanLike where
  counts := some ⟨some plan.safeCount, some plan.protectedCount⟩
  safe := some plan.safe
  freesBytes := some plan.freesBytes

def CleanupPlanResult.toJson (plan : CleanupPlanResult) : Value :=
  .obj [("counts".toList, .obj [("safe".toList, .num plan.safeCount),
      ("protected".toList, .num plan.protectedCount)]),
    ("freesBytes".toList, .num plan.freesBytes),
    ("safe".toList, .arr (plan.safe.map fun sender =>
      .obj [("sender".toList, textValue sender)]))]

/-- What is staged of a plan, besides the preview. -/
def payloadOf (action provider : Option Text) (plan : CleanupPlanResult) : Fields :=
  [("provider".toList, textValue provider), ("action".toList, textValue action),
    ("plan".toList, plan.toJson)]

/-- The groups of a plan. -/
def groups (plan : CleanupPlanResult) : List (Text × ℕ) :=
  bySender (plan.safe.map (·.getD []))

/-- The preview of the backend. -/
def preview (B : Collation) (toUpperCase : Text → Text) (action provider : Option Text)
    (plan : CleanupPlanResult) : CleanupTargets :=
  cleanupTargetsFromPlan B toUpperCase action provider (some plan.planLike)

section Readings

variable (B : Collation) (c : Client) (toUpperCase : Text → Text) (action provider : Option Text)
  (plan : CleanupPlanResult)

theorem toText_textValue (t : Option Text) : c.toText (some (textValue t)) = t.getD [] := by
  cases t <;> rfl

/-- The record of a row. -/
def rowFields (g : Text × ℕ) : Fields :=
  [("sender".toList, .str g.1), ("count".toList, .num g.2)]

theorem coerceRow_rowFields {g : Text × ℕ} (h : ∃ raw, g.1 = displaySender raw) :
    coerceRow c (rowFields g) = groupRow g := by
  obtain ⟨raw, hraw⟩ := h
  have hsender : field (rowFields g) "sender" = some (.str g.1) := rfl
  have hcount : field (rowFields g) "count" = some (.num g.2) := rfl
  have hsubject : field (rowFields g) "subject" = none := rfl
  unfold coerceRow groupRow
  rw [hsender, hcount, hsubject, hraw, cleanStr_displaySender]
  rfl

/-- What the client makes of rows the backend has stored. -/
theorem coerce_rows {shown : List (Text × ℕ)} (hlen : shown.length ≤ MAX_TARGET_ROWS)
    (h : ∀ g ∈ shown, ∃ raw, g.1 = displaySender raw) :
    ((((shown.map groupRow).map (·.toJson)).filterMap fun r => asRecord (some r)).take
      MAX_TARGET_ROWS).map (coerceRow c) = shown.map groupRow := by
  have hrecords : ((shown.map groupRow).map (·.toJson)).filterMap (fun r => asRecord (some r)) =
      shown.map rowFields := by
    rw [List.map_map, List.filterMap_map]
    exact congrFun List.filterMap_eq_map shown
  rw [hrecords, List.take_of_length_le (by rwa [List.length_map]), List.map_map]
  exact List.map_congr_left fun g hg => coerceRow_rowFields c (h g hg)

/-- **A stored preview is read as it was made**, up to white space around the provider. -/
theorem coerce_preview :
    coerceCleanupTargets c (some (preview B toUpperCase action provider plan).toJson) =
      some { preview B toUpperCase action provider plan with
        provider := cleanStr (some (textValue provider))
        total := wholeTotal plan.safeCount } := by
  set t := preview B toUpperCase action provider plan with ht
  have hjson : t.toJson = .obj [("verb".toList, .str t.verb), ("scope".toList, .str "messages".toList),
      ("provider".toList, textValue provider), ("total".toList, .num plan.safeCount),
      ("rows".toList, .arr (t.rows.map (·.toJson))),
      ("protected_count".toList, .num plan.protectedCount),
      ("frees_bytes".toList, .num plan.freesBytes), ("truncated".toList, .bool t.truncated)] := rfl
  have hrows : t.rows = ((sorted B (groups plan)).take MAX_TARGET_ROWS).map groupRow := rfl
  have hshown : ∀ g ∈ (sorted B (groups plan)).take MAX_TARGET_ROWS,
      ∃ raw, g.1 = displaySender raw := fun g hg =>
    (bySender_spec _).2.2 g ((perm_sorted B _).mem_iff.mp (List.mem_of_mem_take hg))
  have hread := coerce_rows c (List.length_take_le _ _) hshown
  rw [← hrows] at hread
  rw [hjson]
  refine congrArg some (CleanupTargets.ext ?_ rfl rfl rfl hread rfl rfl rfl)
  change (cleanStr (some (.str (cleanupVerb toUpperCase (action.getD []))))).getD _ = _
  rw [cleanStr_cleanupVerb]
  rfl

/-- The client's own preview of a plan. -/
theorem fromPlan_payload :
    fromPlan c toUpperCase (payloadOf action provider plan) =
      some { preview c.collate toUpperCase action provider plan with
        provider := cleanStr (some (textValue provider))
        total := wholeTotal plan.safeCount } := by
  have hsenders : (plan.safe.map fun sender => Value.obj [("sender".toList, textValue sender)]).map
      (fun row => c.toText (field ((asRecord (some row)).getD []) "sender")) =
      plan.safe.map (·.getD []) := by
    rw [List.map_map]
    exact List.map_congr_left fun sender _ => toText_textValue c sender
  have haction : c.toText (field (payloadOf action provider plan) "action") = action.getD [] :=
    toText_textValue c action
  have hplan : asRecord (field (payloadOf action provider plan) "plan") =
      asRecord (some plan.toJson) := rfl
  unfold fromPlan
  rw [hplan, haction]
  refine congrArg some (CleanupTargets.ext rfl rfl rfl rfl ?_ rfl rfl ?_)
  · change topRows c.collate (bySender (List.map _ (List.map _ plan.safe))) = _
    rw [hsenders]
    rfl
  · change decide ((topRows c.collate (bySender (List.map _ (List.map _ plan.safe)))).length <
      (bySender (List.map _ (List.map _ plan.safe))).length) = _
    rw [hsenders]
    rfl

end Readings

/-! ### Ties -/

/-- Between groups of different counts the collation has no say. -/
theorem ahead_of_count_ne {collate : Collation} {gs : List (Text × ℕ)} {a b : Text × ℕ}
    (h : b.2 ≠ a.2) : Ahead (groupKey collate) gs a b ↔ b.2 < a.2 := by
  have hkey : groupKey collate a ≠ groupKey collate b := fun heq =>
    h (OrderDual.toDual.injective (Prod.ext_iff.mp (toLex.injective heq)).1).symm
  unfold Ahead
  rw [or_iff_left fun h' => hkey h'.1, groupKey, groupKey, Prod.Lex.toLex_lt_toLex]
  constructor
  · rintro (hlt | ⟨heq, -⟩)
    · exact OrderDual.toDual_lt_toDual.mp hlt
    · exact absurd (OrderDual.toDual.injective heq).symm h
  · exact fun hlt => .inl (OrderDual.toDual_lt_toDual.mpr hlt)

/-- Two collations order the groups of equal counts alike, as far as rows are shown: a group
with fewer than `MAX_TARGET_ROWS` ahead of it is ahead of the same ones. -/
def TiesAlike (B F : Collation) (gs : List (Text × ℕ)) : Prop :=
  ∀ a ∈ gs, rank (Ahead (groupKey B) gs) gs a < MAX_TARGET_ROWS → ∀ b ∈ gs, b.2 = a.2 →
    (Ahead (groupKey B) gs a b ↔ Ahead (groupKey F) gs a b)

instance (B F : Collation) (gs : List (Text × ℕ)) : Decidable (TiesAlike B F gs) :=
  inferInstanceAs (Decidable (∀ a ∈ gs, _ → ∀ b ∈ gs, _))

/-- **When two collations show the same rows.** -/
theorem topRows_eq_iff (B F : Collation) {gs : List (Text × ℕ)} (h : gs.Nodup) :
    topRows B gs = topRows F gs ↔ TiesAlike B F gs := by
  have hperm := (perm_sorted B gs).trans (perm_sorted F gs).symm
  have hrank : ∀ a, rank (Ahead (groupKey B) gs) (sorted B gs) a =
      rank (Ahead (groupKey B) gs) gs a := rank_perm (perm_sorted B gs)
  unfold topRows
  rw [(List.map_injective_iff.mpr groupRow_injective).eq_iff,
    take_eq_take_iff (ahead_asymm h) (ahead_asymm h) (pairwise_ahead_sorted B gs)
      (pairwise_ahead_sorted F gs) hperm]
  change (∀ a ∈ sorted B gs, rank _ (sorted B gs) a < _ → ∀ b ∈ sorted B gs, _) ↔ _
  simp only [hrank, (perm_sorted B gs).mem_iff]
  refine forall₂_congr fun a _ => forall_congr' fun _ => forall₂_congr fun b _ => ?_
  by_cases hcount : b.2 = a.2
  · exact ⟨fun h _ => h, fun h => h hcount⟩
  · rw [ahead_of_count_ne hcount, ahead_of_count_ne hcount]
    exact iff_of_true Iff.rfl fun heq => absurd heq hcount

/-! ### The law of the preview -/

/-- What is expected of the preview of a plan. -/
structure PreviewLaw (B : Collation) (c : Client) (toUpperCase : Text → Text)
    (action provider : Option Text) (plan : CleanupPlanResult) : Prop where
  /-- The rows are the groups with the most messages, in the order of their counts, and the
  flag says whether there are more. -/
  top : ∃ shown omitted, (shown ++ omitted).Perm (groups plan) ∧
    shown.length ≤ MAX_TARGET_ROWS ∧ (shown ++ omitted).Pairwise (fun a b => b.2 ≤ a.2) ∧
    (preview B toUpperCase action provider plan).rows = shown.map groupRow ∧
    ((preview B toUpperCase action provider plan).truncated = true ↔ omitted ≠ [])
  /-- The client reads what was stored, and accounts for every message. -/
  read : ∃ t, coerceCleanupTargets c (some (preview B toUpperCase action provider plan).toJson) =
      some t ∧
    t.verb = (preview B toUpperCase action provider plan).verb ∧
    t.scope = (preview B toUpperCase action provider plan).scope ∧
    t.total = (preview B toUpperCase action provider plan).total ∧
    t.truncated = (preview B toUpperCase action provider plan).truncated ∧
    t.rows = (preview B toUpperCase action provider plan).rows ∧
    (t.rows.map fun r => r.count.getD 0).sum + remainingCount t = plan.safeCount
  /-- It makes the same preview of the plan. -/
  agrees : coerceCleanupTargets c (some (preview B toUpperCase action provider plan).toJson) =
    fromPlan c toUpperCase (payloadOf action provider plan)

section Law

variable (B : Collation) (c : Client) (toUpperCase : Text → Text) (action provider : Option Text)
  (plan : CleanupPlanResult)

theorem preview_top : ∃ shown omitted, (shown ++ omitted).Perm (groups plan) ∧
    shown.length ≤ MAX_TARGET_ROWS ∧ (shown ++ omitted).Pairwise (fun a b => b.2 ≤ a.2) ∧
    (preview B toUpperCase action provider plan).rows = shown.map groupRow ∧
    ((preview B toUpperCase action provider plan).truncated = true ↔ omitted ≠ []) := by
  refine ⟨(sorted B (groups plan)).take MAX_TARGET_ROWS,
    (sorted B (groups plan)).drop MAX_TARGET_ROWS, ?_, List.length_take_le _ _, ?_, rfl, ?_⟩
  · rw [List.take_append_drop]
    exact perm_sorted B _
  · rw [List.take_append_drop]
    exact pairwise_sorted B _
  · change decide ((topRows B (groups plan)).length < (groups plan).length) = true ↔ _
    rw [decide_eq_true_eq, length_topRows, ne_eq, List.drop_eq_nil_iff,
      (perm_sorted B _).length_eq]
    omega

theorem wholeTotal_natCast (n : ℕ) : wholeTotal n = n := by
  have htrunc : Common.trunc (n : ℚ) = n := by
    rw [Common.trunc, if_pos (Nat.cast_nonneg n), Int.floor_natCast]
  rw [wholeTotal, htrunc, Int.cast_natCast]
  exact max_eq_right (Nat.cast_nonneg n)

/-- The messages of the rows are among those of the plan. -/
theorem shown_le : ((topRows B (groups plan)).map fun r => r.count.getD 0).sum ≤
    (plan.safe.length : ℚ) := by
  have hcounts : (topRows B (groups plan)).map (fun r => r.count.getD 0) =
      (((sorted B (groups plan)).take MAX_TARGET_ROWS).map Prod.snd).map (Nat.cast : ℕ → ℚ) := by
    rw [topRows, List.map_map, List.map_map]
    rfl
  have hsum : ((sorted B (groups plan)).map Prod.snd).sum = plan.safe.length := by
    rw [((perm_sorted B (groups plan)).map Prod.snd).sum_eq, groups, (bySender_spec _).2.1,
      List.length_map]
  have hle : (((sorted B (groups plan)).take MAX_TARGET_ROWS).map Prod.snd).sum ≤
      ((sorted B (groups plan)).map Prod.snd).sum :=
    ((List.take_sublist _ _).map _).sum_le_sum fun _ _ => Nat.zero_le _
  rw [hcounts, ← Nat.cast_list_sum, ← hsum]
  exact_mod_cast hle

/-- **When the preview is as it should be**: when the collations of the two runtimes order the
senders of equal counts alike, as far as rows are shown. -/
theorem previewLaw_iff (h : plan.safeCount = plan.safe.length) :
    PreviewLaw B c toUpperCase action provider plan ↔ TiesAlike B c.collate (groups plan) := by
  have hnodup : (groups plan).Nodup := nodup_bySender _
  rw [← topRows_eq_iff B c.collate hnodup]
  have hread := coerce_preview B c toUpperCase action provider plan
  have hown := fromPlan_payload c toUpperCase action provider plan
  constructor
  · intro hlaw
    have hsame := hlaw.agrees
    rw [hread, hown] at hsame
    exact congrArg CleanupTargets.rows (Option.some.inj hsame)
  · intro hrows
    refine ⟨preview_top B toUpperCase action provider plan, ⟨_, hread, rfl, rfl, ?_, rfl, rfl, ?_⟩, ?_⟩
    · change wholeTotal plan.safeCount = plan.safeCount
      rw [h, wholeTotal_natCast]
    · -- the messages that are not shown are the rest of the total
      have hle := shown_le B plan
      change ((topRows B (groups plan)).map fun r => r.count.getD 0).sum +
        max 0 (wholeTotal plan.safeCount -
          ((topRows B (groups plan)).map fun r => r.count.getD 0).sum) = plan.safeCount
      rw [h, wholeTotal_natCast, max_eq_right (sub_nonneg.mpr hle), add_sub_cancel]
    · rw [hread, hown]
      have htruncated : (preview B toUpperCase action provider plan).truncated =
          (preview c.collate toUpperCase action provider plan).truncated := by
        change decide ((topRows B (groups plan)).length < _) =
          decide ((topRows c.collate (groups plan)).length < _)
        rw [hrows]
      exact congrArg some (CleanupTargets.ext rfl rfl rfl rfl hrows rfl rfl htruncated)

end Law

/-! ### Two locales -/

/-- The place of a letter when `Ä` has its place right after another one. -/
def weight (after c : Char) : ℕ :=
  if c = 'Ä' then 2 * after.toNat + 1 else 2 * c.toNat

/-- English sorts `Ä` with `A`. -/
def english : Collation := fun t => t.map (weight 'A')

/-- Swedish sorts `Ä` after `Z`. -/
def swedish : Collation := fun t => t.map (weight 'Z')

/-- A browser in Swedish. -/
def swedishClient : Client where
  collate := swedish
  number _ := none
  text _ := []

/-- A plan of two senders. -/
def twoSenders (more : List (Option Text)) : CleanupPlanResult where
  safeCount := (more.length + 2 : ℕ)
  protectedCount := 0
  freesBytes := 2048
  safe := some "Zoe <zoe@x.test>".toList :: some "Ärla <arla@x.test>".toList :: more

/-- Senders of different counts are in one order everywhere. -/
theorem previewLaw_more : PreviewLaw english swedishClient id (some "TRASH".toList)
    (some "gmail".toList) (twoSenders [some "Zoe <zoe@x.test>".toList]) := by
  have hcount : (twoSenders [some "Zoe <zoe@x.test>".toList]).safeCount =
      (twoSenders [some "Zoe <zoe@x.test>".toList]).safe.length := rfl
  exact (previewLaw_iff english swedishClient id _ _ _ hcount).mpr (by decide +kernel)

/-- **Senders of equal counts are not**: the backend, in English, shows Ärla first, and the
browser makes a preview that shows Zoe first. -/
theorem not_previewLaw_tie : ¬ PreviewLaw english swedishClient id (some "TRASH".toList)
    (some "gmail".toList) (twoSenders []) := by
  intro h
  have hsame := h.agrees
  rw [coerce_preview, fromPlan_payload] at hsame
  have hrows : topRows english (groups (twoSenders [])) = topRows swedish (groups (twoSenders [])) :=
    congrArg CleanupTargets.rows (Option.some.inj hsame)
  exact absurd hrows (by decide +kernel)

end Targets
end EmailOps
