import EmailOps.Framework.Separated

/-!
# Address lists

The value of a `To`, `Cc` or `Bcc` header as RFC 5322 reads it: mailboxes separated by
commas, where a comma inside a quoted string, a comment or a domain literal is text.

* `mailboxList` is the scanner; its `elements` are the mailboxes as written.
* `addressOf` is the address of one mailbox: what stands in its angle brackets, or
  else all of it, without comments.
-/

namespace Framework
namespace AddressList

open Text

/-- Where the reader of a header stands. Comments nest. -/
inductive Quoting where
  | outside
  | quoted
  | quotedPair
  | comment (depth : ℕ)
  | commentPair (depth : ℕ)
  | literal
  | literalPair
  deriving DecidableEq

/-- Read one character. A backslash in quotes takes the next character as it is. -/
def Quoting.next : Quoting → Char → Quoting
  | .outside, c =>
    if c = '"' then .quoted else if c = '(' then .comment 0 else if c = '[' then .literal
    else .outside
  | .quoted, c => if c = '"' then .outside else if c = '\\' then .quotedPair else .quoted
  | .quotedPair, _ => .quoted
  | .comment depth, c =>
    if c = '(' then .comment (depth + 1)
    else if c = ')' then
      match depth with
      | 0 => .outside
      | depth + 1 => .comment depth
    else if c = '\\' then .commentPair depth
    else .comment depth
  | .commentPair depth, _ => .comment depth
  | .literal, c => if c = ']' then .outside else if c = '\\' then .literalPair else .literal
  | .literalPair, _ => .literal

private theorem next_outside_of_white {c : Char} (h : isWhite c = true) :
    Quoting.outside.next c = .outside := by
  have hne : ∀ d : Char, isWhite d = false → c ≠ d := by
    rintro d hd rfl
    rw [h] at hd
    cases hd
  show (if c = '"' then Quoting.quoted else if c = '(' then .comment 0
    else if c = '[' then .literal else .outside) = .outside
  rw [if_neg (hne '"' (by decide)), if_neg (hne '(' (by decide)), if_neg (hne '[' (by decide))]

/-- The scanner of a mailbox list. -/
def mailboxList : Scanner Quoting where
  sep := ','
  start := .outside
  next := Quoting.next
  sep_visible := by decide
  next_sep := by decide
  next_white _ := next_outside_of_white

/-- The mailboxes of a header value, as written. -/
def mailboxes (t : Text) : List Text :=
  mailboxList.elements t

/-- Is this the state of a comment? -/
def Quoting.inComment : Quoting → Bool
  | .comment _ | .commentPair _ => true
  | _ => false

/-- A text without its comments. -/
def visible : Quoting → Text → Text
  | _, [] => []
  | s, c :: t =>
    if s.inComment || (s.next c).inComment then visible (s.next c) t
    else c :: visible (s.next c) t

/-- What stands behind the first opening bracket outside quotes, up to the closing
one. -/
def bracketed : Quoting → Text → Option Text
  | _, [] => none
  | s, c :: t =>
    if s = .outside ∧ c = '<' then some (t.takeWhile (· ≠ '>')) else bracketed (s.next c) t

/-- The address of a mailbox. -/
def addressOf (mailbox : Text) : Text :=
  let text := visible .outside mailbox
  trim ((bracketed .outside text).getD text)

example : (mailboxes "\"Lovelace, Ada\" <ada@x.org>, bob@y.org (Bob, at y)".toList).map addressOf =
    ["ada@x.org".toList, "bob@y.org".toList] := by decide

end AddressList
end Framework
