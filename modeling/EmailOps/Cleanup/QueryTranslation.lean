import EmailOps.Cleanup.Protection
import EmailOps.Framework.Words

/-!
# Queries for Outlook

A query is a list of terms in Gmail's syntax. `translateQuery` makes an OData filter of it for
Microsoft Graph: of the terms it knows, of an age with at most one of them, and of a sender. It
drops the rest of a query with an age, takes all that follows `from:` for one address, and has
the empty text for everything else. `list_messages` sends what it gets as the filter, and the
plan takes what is listed for a query as what the query selects.

* `GraphFilter` is a filter, and `GraphFilter.text` its text. `text_injective` says that Graph
  can read the one out of the other, whatever the address in it is.
* `Term` is a term of a query, and `Term.holds` when a message satisfies it.
* `Translated` says of which queries nothing is lost.
* `translateQuery_sound_iff`: for these, and no others, every message that the filter selects
  satisfies every term, and so does every message that a plan finds safe.
-/

namespace EmailOps
namespace Cleanup

open Framework Framework.Text Framework.Words

/-! ### Messages and filters -/

/-- What Graph has of a message. The time is in seconds, and `answers` are the terms that the
rest of the message satisfies. -/
structure GraphMessage where
  inferenceClassification : Text
  categories : List Text
  isRead : Bool
  importance : Text
  hasAttachments : Bool
  receivedDateTime : ℤ
  sender : Option Text
  answers : Text → Bool

/-- What `translations` has a filter for. -/
inductive Canonical where
  | promotions | social | unread | read | starred | attachment
  deriving DecidableEq

namespace Canonical

/-- The filter of a term. -/
def text : Canonical → Text
  | promotions => "inferenceClassification eq 'other'".toList
  | social => "categories/any(c: c eq 'Social')".toList
  | unread => "isRead eq false".toList
  | read => "isRead eq true".toList
  | starred => "importance eq 'high'".toList
  | attachment => "hasAttachments eq true".toList

def selects (message : GraphMessage) : Canonical → Bool
  | promotions => message.inferenceClassification = "other".toList
  | social => message.categories.contains "Social".toList
  | unread => !message.isRead
  | read => message.isRead
  | starred => message.importance = "high".toList
  | attachment => message.hasAttachments

end Canonical

def translations : List (Text × Canonical) :=
  [("category:promotions", Canonical.promotions), ("category:social", .social),
    ("is:unread", .unread), ("is:read", .read), ("is:starred", .starred),
    ("has:attachment", .attachment)].map fun (term, filter) => (term.toList, filter)

/-- A filter, with the latest time or the address that it names. -/
inductive GraphFilter where
  | canonical (filter : Canonical)
  | received (cutoff : ℤ)
  | canonicalReceived (filter : Canonical) (cutoff : ℤ)
  | sender (address : Text)
  deriving DecidableEq

/-- In a literal, quotes are doubled. -/
def escapeQuotes (value : Text) : Text :=
  value.flatMap fun c => if c = '\'' then ['\'', '\''] else [c]

/-- A literal from behind its first quote, and what follows its last one. -/
def readLiteral : Text → Option (Text × Text)
  | [] => none
  | '\'' :: '\'' :: rest => (readLiteral rest).map fun (value, rest) => ('\'' :: value, rest)
  | '\'' :: rest => some ([], rest)
  | c :: rest => (readLiteral rest).map fun (value, rest) => (c :: value, rest)

namespace GraphFilter

/-- The text of a filter. -/
def text (strftime : ℤ → Text) : GraphFilter → Text
  | canonical filter => filter.text
  | received cutoff => "receivedDateTime le ".toList ++ strftime cutoff
  | canonicalReceived filter cutoff =>
    filter.text ++ (" and ".toList ++ ("receivedDateTime le ".toList ++ strftime cutoff))
  | sender address =>
    "from/emailAddress/address eq '".toList ++ (escapeQuotes address ++ ['\''])

/-- Does a filter select a message? Addresses are the same when their letters are. -/
def selects (fold : Char → Char) (message : GraphMessage) : GraphFilter → Bool
  | canonical filter => filter.selects message
  | received cutoff => message.receivedDateTime ≤ cutoff
  | canonicalReceived filter cutoff =>
    filter.selects message && decide (message.receivedDateTime ≤ cutoff)
  | sender address => message.sender.any fun sender => sender.map fold = address.map fold

end GraphFilter

/-! ### The translation -/

/-- `str.isspace`, of a character. -/
def isSpace (c : Char) : Bool :=
  (9 ≤ c.toNat && c.toNat ≤ 13) || (0x1c ≤ c.toNat && c.toNat ≤ 0x20) || c.toNat = 0x85 ||
    c.toNat = 0xa0 || c.toNat = 0x1680 || (0x2000 ≤ c.toNat && c.toNat ≤ 0x200a) ||
    c.toNat = 0x2028 || c.toNat = 0x2029 || c.toNat = 0x202f || c.toNat = 0x205f ||
    c.toNat = 0x3000

/-- The seconds of a day. -/
def daySeconds : ℤ := 86400

/-- `q.replace(part, '')`: the characters of an occurrence that are still to go, and the text. -/
def removeFrom (part : Text) : ℕ → Text → Text
  | _, [] => []
  | skipped + 1, _ :: rest => removeFrom part skipped rest
  | 0, c :: rest =>
    if part.isPrefixOf (c :: rest) then removeFrom part (part.length - 1) rest
    else c :: removeFrom part 0 rest

section

variable (digit : Char → Option ℕ) (fold : Char → Char) (now : ℤ)

/-- `older_than:(\d+)d` at the start of a text: the digits. -/
def olderThanAt (q : Text) : Option Text :=
  if "older_than:".toList.isPrefixOf q then
    let rest := q.drop "older_than:".length
    let digits := rest.takeWhile fun c => (digit c).isSome
    if digits ≠ [] ∧ (rest.drop digits.length).head? = some 'd' then some digits else none
  else none

/-- The text that the digits were found in. -/
def olderThanText (digits : Text) : Text :=
  "older_than:".toList ++ digits ++ ['d']

/-- `re.search`: the digits of the first place where the pattern matches. -/
def searchFrom : Text → Option Text
  | [] => none
  | c :: rest => (olderThanAt digit (c :: rest)).or (searchFrom rest)

def searchOlderThan (q : Text) : Option Text :=
  if "older_than:".toList <:+: q then searchFrom digit q else none

/-- The number that digits stand for. -/
def decimal (digits : Text) : ℕ :=
  digits.foldl (fun n c => 10 * n + (digit c).getD 0) 0

/-- So many days before now. `int`, `timedelta` and `datetime` raise when there are too many. -/
def cutoffOf (digits : Text) : Option ℤ :=
  if 4300 < digits.length then none
  else
    let days := decimal digit digits
    let cutoff := now - daySeconds * days
    if 999999999 < days ∨ cutoff < 0 then none else some cutoff

/-- The filter of a query: `none` when the translation raises, and no filter for the empty
text. -/
def translateQuery (canonicalQuery : Text) : Option (Option GraphFilter) :=
  let q := strip isSpace canonicalQuery
  match List.lookup q translations with
  | some filter => some (some (.canonical filter))
  | none =>
    match searchOlderThan digit q with
    | some digits =>
      (cutoffOf digit now digits).map fun cutoff =>
        let remaining := strip isSpace (removeFrom (olderThanText digits) 0 q)
        match List.lookup remaining translations with
        | some filter => some (.canonicalReceived filter cutoff)
        | none => some (.received cutoff)
    | none =>
      if "from:".toList.isPrefixOf q then
        some (some (.sender (strip isSpace (q.drop "from:".length))))
      else some none

/-- Does `list_messages` get a message for a query? Of the empty filter, `unfiltered` says
whether Graph takes it for none at all, or refuses it. -/
def listed (unfiltered : Bool) (query : Text) (message : GraphMessage) : Bool :=
  if query = [] then true
  else
    match translateQuery digit now query with
    | none => false
    | some none => unfiltered
    | some (some filter) => filter.selects fold message

/-! ### The terms of a query -/

/-- A term of a query. -/
inductive Term where
  | canonical (filter : Canonical)
  | olderThan (days : ℕ)
  | sender (value : Text)
  | other (word : Text)
  deriving DecidableEq

/-- The days of a word that is an age and nothing else. -/
def olderThanDays (word : Text) : Option ℕ :=
  ((olderThanAt digit word).filter (olderThanText · = word)).map (decimal digit)

/-- A word of a query, as a term. -/
def readTerm (word : Text) : Term :=
  match List.lookup word translations with
  | some filter => .canonical filter
  | none =>
    match olderThanDays digit word with
    | some days => .olderThan days
    | none =>
      if "from:".toList.isPrefixOf word then .sender (word.drop "from:".length) else .other word

/-- The terms of a query. -/
def terms (query : Text) : List Term :=
  (words isSpace query).map (readTerm digit)

/-- Has the sender of a message a text in it? -/
def senderHas (value : Text) (message : GraphMessage) : Prop :=
  ∃ sender ∈ message.sender, value.map fold <:+: sender.map fold

/-- Does a message satisfy a term? A word without an operator may stand in its sender, too. -/
def Term.holds (message : GraphMessage) : Term → Prop
  | canonical filter => filter.selects message = true
  | olderThan days => message.receivedDateTime ≤ now - daySeconds * days
  | sender value => senderHas fold value message
  | other word => message.answers word = true ∨ ':' ∉ word ∧ senderHas fold word message

/-! ### Soundness -/

variable (unfiltered : Bool) (IsAddress : Text → Prop)

/-- **Soundness of the translation**: every message that Graph lists for a query satisfies every
term of it. -/
def SelectsOnly (query : Text) : Prop :=
  ∀ message : GraphMessage, (∀ sender ∈ message.sender, IsAddress sender) →
    listed digit fold now unfiltered query message = true →
    ∀ term ∈ terms digit query, term.holds fold now message

/-- **Soundness of the plans**: when Graph answers the listing of an Outlook account, so does
every message that a plan for the query finds safe. -/
def PlansOnly [CaseMapping] (query : Text) : Prop :=
  ∀ (env : CleanerEnv) (toUpperCase : Text → Text) (account : Account) (mailbox : Mailbox)
    (answers : Answers) (criteria : CleanupCriteria) (messages : Text → GraphMessage),
    account.provider = .microsoft → criteria.hasQuery = true → backupQueryFor criteria = query →
    (∀ id, ∀ sender ∈ (messages id).sender, IsAddress sender) →
    (∀ perPage token ids next, answers.listMessages query perPage token = some (ids, next) →
      ∀ id ∈ ids, listed digit fold now unfiltered query (messages id) = true) →
    ∀ id ∈ (planCleanup env toUpperCase account mailbox answers criteria).safe.map (·.id),
      ∀ term ∈ terms digit query, term.holds fold now (messages id)

/-- Is nothing of a query lost? Of one with an age, which is not out of range, the words are
ages that are not higher, and the term that is left when there is no other one. Of one that
begins with `from:`, the rest is not an address, or there are senders and words without an
operator only. Anything else is refused by Graph, or has no words. -/
def Translated (query : Text) : Prop :=
  let q := strip isSpace query
  match List.lookup q translations with
  | some _ => True
  | none =>
    match searchOlderThan digit q with
    | some digits =>
      let remaining := strip isSpace (removeFrom (olderThanText digits) 0 q)
      cutoffOf digit now digits = none ∨ ∀ word ∈ words isSpace query,
        (∃ days ∈ olderThanDays digit word, days ≤ decimal digit digits) ∨
          (List.lookup remaining translations).isSome ∧ word = remaining
    | none =>
      if "from:".toList.isPrefixOf q then
        (∀ address, IsAddress address →
          address.map fold ≠ (strip isSpace (q.drop "from:".length)).map fold) ∨
          ∀ word ∈ words isSpace query, "from:".toList.isPrefixOf word ∨ ':' ∉ word
      else unfiltered = false ∨ words isSpace query = []

end

/-! ### Reading a filter -/

/-- A literal is read as the value that was written, up to its last quote. -/
theorem readLiteral_escapeQuotes (value : Text) {rest : Text} (h : rest.head? ≠ some '\'') :
    readLiteral (escapeQuotes value ++ '\'' :: rest) = some (value, rest) := by
  induction value with
  | nil =>
    cases rest with
    | nil => rfl
    | cons d rest =>
      have hd : d ≠ '\'' := fun heq => h (congrArg some heq)
      change readLiteral ('\'' :: d :: rest) = _
      unfold readLiteral
      simp [hd]
  | cons c value ih =>
    by_cases hc : c = '\''
    · subst hc
      change (readLiteral (escapeQuotes value ++ '\'' :: rest)).map _ = _
      rw [ih]
      rfl
    · have hescape : escapeQuotes (c :: value) = c :: escapeQuotes value := by
        rw [escapeQuotes, List.flatMap_cons, if_neg hc]
        rfl
      rw [hescape, List.cons_append, readLiteral]
      · rw [ih]
        rfl
      · exact fun _ heq _ => hc heq
      · exact hc

theorem escapeQuotes_injective : Function.Injective escapeQuotes := by
  intro value other h
  have hend : ([] : Text).head? ≠ some '\'' := by simp
  have hread := readLiteral_escapeQuotes value hend
  rw [h, readLiteral_escapeQuotes other hend] at hread
  exact (congrArg Prod.fst (Option.some.inj hread)).symm

namespace GraphFilter

theorem text_received (strftime : ℤ → Text) (cutoff : ℤ) :
    text strftime (received cutoff) = "receivedDateTime le ".toList ++ strftime cutoff := rfl

theorem text_canonicalReceived (strftime : ℤ → Text) (filter : Canonical) (cutoff : ℤ) :
    text strftime (canonicalReceived filter cutoff) =
      filter.text ++ (" and ".toList ++ ("receivedDateTime le ".toList ++ strftime cutoff)) := rfl

theorem text_sender (strftime : ℤ → Text) (address : Text) :
    text strftime (sender address) =
      "from/emailAddress/address eq '".toList ++ (escapeQuotes address ++ ['\'']) := rfl

/-- The first characters of a filter's text, which say of what kind it is. -/
def key : GraphFilter → Text
  | canonical filter | canonicalReceived filter _ => filter.text.take 11
  | received _ => "receivedDat".toList
  | sender _ => "from/emailA".toList

theorem take_text (strftime : ℤ → Text) (filter : GraphFilter) :
    (filter.text strftime).take 11 = filter.key := by
  have hlong : ∀ {s : Text} (t : Text), 11 ≤ s.length → (s ++ t).take 11 = s.take 11 :=
    fun t h => List.take_append_of_le_length h
  have hcanonical : ∀ c : Canonical, 11 ≤ c.text.length := fun c => by cases c <;> decide
  cases filter with
  | canonical c => rfl
  | received cutoff => exact hlong _ (by decide)
  | canonicalReceived c cutoff => exact hlong _ (hcanonical c)
  | sender address => exact hlong _ (by decide)

/-- **The text of a filter says which filter it is**, as that of a time says which time. -/
theorem text_injective {strftime : ℤ → Text} (h : Function.Injective strftime) :
    Function.Injective (text strftime) := by
  intro filter other heq
  have hkey : filter.key = other.key := by
    rw [← take_text strftime, ← take_text strftime, heq]
  have hcanonical : ∀ {c d : Canonical}, c.text.take 11 = d.text.take 11 → c = d := by
    intro c d
    cases c <;> cases d <;> decide
  have hnever : ∀ (c : Canonical), c.text.take 11 ≠ "receivedDat".toList ∧
      c.text.take 11 ≠ "from/emailA".toList := by
    intro c
    cases c <;> decide
  have hkinds : "receivedDat".toList ≠ "from/emailA".toList := by decide
  -- The text of a term is never that of the term with a time behind it.
  have hlonger : ∀ {c : Canonical} {x : Text}, c.text ≠ c.text ++ (" and ".toList ++ x) := by
    intro c x hx
    cases List.append_cancel_left ((List.append_nil c.text).trans hx)
  cases filter with
  | canonical c =>
    cases other with
    | canonical d => rw [hcanonical hkey]
    | received cutoff => exact absurd hkey (hnever c).1
    | canonicalReceived d cutoff =>
      obtain rfl := hcanonical hkey
      exact absurd heq hlonger
    | sender address => exact absurd hkey (hnever c).2
  | received cutoff =>
    cases other with
    | canonical d => exact absurd hkey.symm (hnever d).1
    | received cutoff' =>
      rw [text_received, text_received, List.append_cancel_left_eq] at heq
      rw [h heq]
    | canonicalReceived d cutoff' => exact absurd hkey.symm (hnever d).1
    | sender address => exact absurd hkey hkinds
  | canonicalReceived c cutoff =>
    cases other with
    | canonical d =>
      obtain rfl := hcanonical hkey
      exact absurd heq.symm hlonger
    | received cutoff' => exact absurd hkey (hnever c).1
    | canonicalReceived d cutoff' =>
      obtain rfl := hcanonical hkey
      simp only [text_canonicalReceived, List.append_cancel_left_eq] at heq
      rw [h heq]
    | sender address => exact absurd hkey (hnever c).2
  | sender address =>
    cases other with
    | canonical d => exact absurd hkey.symm (hnever d).2
    | received cutoff => exact absurd hkey.symm hkinds
    | canonicalReceived d cutoff => exact absurd hkey.symm (hnever d).2
    | sender address' =>
      simp only [text_sender, List.append_cancel_left_eq, List.append_cancel_right_eq] at heq
      rw [escapeQuotes_injective heq]

end GraphFilter

/-! ### Reading a query -/

section

variable {digit : Char → Option ℕ} {fold : Char → Char} {now : ℤ} {unfiltered : Bool}
  {IsAddress : Text → Prop}

theorem mem_of_lookup_translations {word : Text} {filter : Canonical}
    (h : List.lookup word translations = some filter) : (word, filter) ∈ translations := by
  obtain ⟨before, after, heq, -⟩ := List.lookup_eq_some_iff.mp h
  rw [heq]
  exact List.mem_append_right before List.mem_cons_self

theorem terms_of_lookup {query : Text} {filter : Canonical}
    (h : List.lookup (strip isSpace query) translations = some filter) :
    terms digit query = [.canonical filter] := by
  have hwords : ∀ entry ∈ translations, words isSpace entry.1 = [entry.1] := by decide
  have hquery : words isSpace query = [strip isSpace query] := by
    rw [← words_strip query]
    exact hwords _ (mem_of_lookup_translations h)
  rw [terms, hquery, List.map_singleton, readTerm, h]

theorem readTerm_sender (value : Text) :
    readTerm digit ("from:".toList ++ value) = .sender value := rfl

/-- A word without an operator stands for itself. -/
theorem readTerm_plain {word : Text} (h : ':' ∉ word) : readTerm digit word = .other word := by
  have hoperators : ∀ entry ∈ translations, ':' ∈ entry.1 := by decide
  have hlookup : List.lookup word translations = none := by
    rw [Option.eq_none_iff_forall_ne_some]
    intro filter hfilter
    exact h (hoperators _ (mem_of_lookup_translations hfilter))
  have hprefix : ∀ {operator : Text}, ':' ∈ operator → operator.isPrefixOf word = false := by
    intro operator hcolon
    rw [Bool.eq_false_iff]
    intro hpre
    exact h ((List.isPrefixOf_iff_prefix.mp hpre).subset hcolon)
  have hdays : olderThanDays digit word = none := by
    rw [olderThanDays, olderThanAt, hprefix (by decide)]
    rfl
  rw [readTerm, hlookup, hdays, hprefix (by decide)]
  rfl

/-- The words behind `from:` stand in the address. -/
theorem infix_of_mem_words_from {q word : Text} (hfrom : "from:".toList.isPrefixOf q = true)
    (h : word ∈ words isSpace q) :
    word <:+: strip isSpace (q.drop "from:".length) ∨
      ∃ value, word = "from:".toList ++ value ∧
        value <:+: strip isSpace (q.drop "from:".length) := by
  obtain ⟨rest, rfl⟩ := List.isPrefixOf_iff_prefix.mp hfrom
  have hstands : ∀ {w}, w ∈ words isSpace rest → w <:+: strip isSpace rest := by
    intro w hw
    rw [← words_strip rest] at hw
    exact (mem_words hw).2.2
  have hbare : ("from:".toList.all fun c => !isSpace c) = true := by decide
  rw [words_append_word (by decide) (by simpa using hbare)] at h
  change _ <:+: strip isSpace rest ∨ ∃ value, _ ∧ value <:+: strip isSpace rest
  split at h
  · next hbegins =>
    obtain ⟨first, more, hwords, -⟩ := words_of_begins hbegins
    rw [hwords, List.modifyHead_cons] at h
    rcases List.mem_cons.mp h with rfl | hmore
    · exact .inr ⟨first, rfl, hstands (hwords ▸ List.mem_cons_self)⟩
    · exact .inl (hstands (hwords ▸ List.mem_cons_of_mem first hmore))
  · rcases List.mem_cons.mp h with rfl | hmore
    · exact .inr ⟨[], (List.append_nil _).symm, List.nil_infix⟩
    · exact .inl (hstands hmore)

/-! ### A message that fails a term -/

/-- A message that one filter at most selects, and that fails a term. -/
def failing (filter : Option Canonical) (term : Term) (time : ℤ) (sender : Option Text) :
    GraphMessage where
  inferenceClassification := if filter = some .promotions then "other".toList else []
  categories := if filter = some .social then ["Social".toList] else []
  isRead := filter = some .read || match term with | .canonical .unread => true | _ => false
  importance := if filter = some .starred then "high".toList else []
  hasAttachments := filter = some .attachment
  receivedDateTime := time
  sender := sender
  answers := fun _ => false

theorem selects_failing {filter : Canonical} {term : Term} {time : ℤ} {sender : Option Text}
    (h : term ≠ .canonical filter) :
    filter.selects (failing (some filter) term time sender) = true := by
  cases filter with
  | unread =>
    cases term with
    | canonical other =>
      cases other with
      | unread => exact absurd rfl h
      | promotions | social | read | starred | attachment => rfl
    | olderThan days => rfl
    | sender value => rfl
    | other word => rfl
  | promotions | social | read | starred | attachment => rfl

/-- It fails a term of another filter, an age that it does not have, a sender when it has none,
and a word that does not stand in one. -/
theorem not_holds_failing {filter : Option Canonical} {term : Term} {time : ℤ}
    {sender : Option Text}
    (h : match term with
      | .canonical other => filter ≠ some other
      | .olderThan days => now - daySeconds * days < time
      | .sender _ => sender = none
      | .other word => ':' ∈ word ∨ sender = none) :
    ¬ term.holds fold now (failing filter term time sender) := by
  cases term with
  | canonical other =>
    dsimp only at h
    apply Bool.eq_false_iff.mp
    -- The field that the other filter asks about has nothing in it.
    cases other with
    | promotions | social | starred =>
      dsimp only [Canonical.selects, failing]
      rw [if_neg h]
      rfl
    | attachment => exact decide_eq_false h
    | read =>
      dsimp only [Canonical.selects, failing]
      rw [decide_eq_false h]
      rfl
    | unread =>
      dsimp only [Canonical.selects, failing]
      rw [Bool.or_true]
      rfl
  | olderThan days => exact not_le.mpr h
  | sender value =>
    rintro ⟨a, ha, -⟩
    dsimp only at h
    subst h
    cases ha
  | other word =>
    rintro (hanswers | ⟨hplain, a, ha, -⟩)
    · cases hanswers
    · rcases h with hcolon | rfl
      · exact hplain hcolon
      · cases ha

/-! ### When the translation is sound -/

theorem readTerm_olderThan {word : Text} {days : ℕ} (h : olderThanDays digit word = some days) :
    readTerm digit word = .olderThan days := by
  obtain ⟨digits, hdigits, -⟩ := Option.map_eq_some_iff.mp h
  have hword : olderThanText digits = word :=
    of_decide_eq_true (Option.filter_eq_some_iff.mp hdigits).2
  have hlookup : List.lookup word translations = none := by
    rw [← hword]
    rfl
  rw [readTerm, hlookup, h]

variable (digit) in
/-- What a word is, by the term that it is read as. -/
theorem readTerm_spec (word : Text) :
    match readTerm digit word with
    | .canonical filter => List.lookup word translations = some filter
    | .olderThan days => olderThanDays digit word = some days
    | .sender _ => "from:".toList.isPrefixOf word = true
    | .other plain => plain = word := by
  unfold readTerm
  cases hlookup : List.lookup word translations with
  | some filter => rfl
  | none =>
    dsimp only
    cases hdays : olderThanDays digit word with
    | some days => rfl
    | none =>
      dsimp only
      by_cases hfrom : "from:".toList.isPrefixOf word = true
      · rw [if_pos hfrom]
        exact hfrom
      · rw [if_neg hfrom]

theorem cutoffOf_eq_some {digits : Text} {cutoff : ℤ}
    (h : cutoffOf digit now digits = some cutoff) :
    cutoff = now - daySeconds * decimal digit digits := by
  unfold cutoffOf at h
  split at h
  · cases h
  · dsimp only at h
    split at h
    · cases h
    · exact (Option.some.inj h).symm

variable (fold IsAddress) in
/-- The filter of a query with an age is sound, when its words are ages that are not higher and
the one term that is left. -/
theorem aged_iff {query digits : Text} {cutoff : ℤ} {filter : Option Canonical}
    (hcutoff : cutoff = now - daySeconds * decimal digit digits) {remaining : Text}
    (hfilter : List.lookup remaining translations = filter) :
    (∀ message : GraphMessage, (∀ sender ∈ message.sender, IsAddress sender) →
      (∀ c ∈ filter, c.selects message = true) → message.receivedDateTime ≤ cutoff →
      ∀ term ∈ terms digit query, term.holds fold now message) ↔
    ∀ word ∈ words isSpace query,
      (∃ days ∈ olderThanDays digit word, days ≤ decimal digit digits) ∨
        (List.lookup remaining translations).isSome ∧ word = remaining := by
  constructor
  · intro h word hword
    by_contra hnot
    obtain ⟨hage, hrest⟩ := not_or.mp hnot
    have hterm : ∀ c ∈ filter, readTerm digit word ≠ .canonical c := by
      rintro c rfl hc
      -- Two words with the same filter are the same word.
      have hsame : ∀ entry ∈ translations, ∀ other ∈ translations, entry.2 = other.2 →
          entry.1 = other.1 := by decide
      have hlookup := readTerm_spec digit word
      rw [hc] at hlookup
      have heq := hsame _ (mem_of_lookup_translations hlookup) _
        (mem_of_lookup_translations hfilter) rfl
      exact hrest ⟨hfilter ▸ rfl, heq⟩
    have hfails : ¬ (readTerm digit word).holds fold now
        (failing filter (readTerm digit word) cutoff none) := by
      apply not_holds_failing
      have hspec := readTerm_spec digit word
      cases hread : readTerm digit word with
      | canonical other => exact fun heq => hterm other heq hread
      | olderThan days =>
        rw [hread] at hspec
        have hdays : decimal digit digits < days := not_le.mp fun hle => hage ⟨days, hspec, hle⟩
        rw [hcutoff, daySeconds]
        omega
      | sender value => rfl
      | other word => exact .inr rfl
    refine hfails (h _ (fun _ hs => by cases hs) ?_ le_rfl _ (List.mem_map_of_mem hword))
    rintro c rfl
    exact selects_failing (hterm c rfl)
  · intro h message _ hselects hreceived term hterm
    obtain ⟨word, hword, rfl⟩ := List.mem_map.mp hterm
    rcases h word hword with ⟨days, hdays, hle⟩ | ⟨hsome, rfl⟩
    · rw [readTerm_olderThan hdays]
      change message.receivedDateTime ≤ now - daySeconds * days
      rw [hcutoff] at hreceived
      unfold daySeconds at hreceived ⊢
      omega
    · obtain ⟨c, hc⟩ := Option.isSome_iff_exists.mp hsome
      rw [readTerm, hc]
      exact hselects c (hfilter.symm.trans hc)

/-- The filter of a query for a sender is sound, when nothing has it for an address, or there are
senders and words without an operator only. -/
theorem sender_iff {query : Text} (hfrom : "from:".toList.isPrefixOf (strip isSpace query) = true) :
    (∀ message : GraphMessage, (∀ sender ∈ message.sender, IsAddress sender) →
      (GraphFilter.sender (strip isSpace ((strip isSpace query).drop "from:".length))).selects fold
        message = true →
      ∀ term ∈ terms digit query, term.holds fold now message) ↔
    (∀ address, IsAddress address →
      address.map fold ≠ (strip isSpace ((strip isSpace query).drop "from:".length)).map fold) ∨
      ∀ word ∈ words isSpace query, "from:".toList.isPrefixOf word ∨ ':' ∉ word := by
  generalize hrest : strip isSpace ((strip isSpace query).drop "from:".length) = rest
  constructor
  · intro h
    by_contra hnot
    simp only [not_or, not_forall, not_not] at hnot
    obtain ⟨⟨address, haddress, heq⟩, word, hword, hoperator, hcolon⟩ := hnot
    -- A message from the address, too late for any age, has no other operator.
    let message := failing none (readTerm digit word) (now + 1) (some address)
    have hselects : (GraphFilter.sender rest).selects fold message = true := decide_eq_true heq
    refine not_holds_failing ?_ (h message ?_ hselects _ (List.mem_map_of_mem hword))
    · have hspec := readTerm_spec digit word
      cases hread : readTerm digit word with
      | canonical other => exact fun heq => nomatch heq
      | olderThan days =>
        rw [daySeconds]
        omega
      | sender value =>
        rw [hread] at hspec
        exact absurd hspec hoperator
      | other plain =>
        rw [hread] at hspec
        obtain rfl := hspec
        exact .inl hcolon
    · intro sender hsender
      cases hsender
      exact haddress
  · rintro (hnone | hwords) message hsenders hselects term hterm
    · obtain ⟨address, hsender, heq⟩ := (Option.any_eq_true _ _).mp hselects
      exact absurd (of_decide_eq_true heq) (hnone address (hsenders address hsender))
    · obtain ⟨word, hword, rfl⟩ := List.mem_map.mp hterm
      obtain ⟨address, hsender, heq⟩ := (Option.any_eq_true _ _).mp hselects
      have hhas : ∀ {part}, part <:+: rest → senderHas fold part message := by
        rintro part hpart
        refine ⟨address, hsender, ?_⟩
        rw [of_decide_eq_true heq]
        exact hpart.map fold
      have hstands := infix_of_mem_words_from hfrom ((words_strip query).symm ▸ hword)
      rw [hrest] at hstands
      rcases hwords word hword with hprefix | hplain
      · obtain ⟨value, rfl⟩ := List.isPrefixOf_iff_prefix.mp hprefix
        rw [readTerm_sender]
        rcases hstands with hinfix | ⟨other, hother, hinfix⟩
        · exact hhas ((List.suffix_append _ value).isInfix.trans hinfix)
        · rw [List.append_cancel_left_eq] at hother
          exact hhas (hother ▸ hinfix)
      · rw [readTerm_plain hplain]
        rcases hstands with hinfix | ⟨other, rfl, hinfix⟩
        · exact .inr ⟨hplain, hhas hinfix⟩
        · exact absurd (List.mem_append_left other (by decide)) hplain

/-- Some message satisfies no word of a query. -/
theorem exists_not_holds (word : Text) : ∃ message : GraphMessage,
    message.sender = none ∧ ¬ (readTerm digit word).holds fold now message := by
  refine ⟨failing none (readTerm digit word) (now + 1) none, rfl, ?_⟩
  apply not_holds_failing
  cases readTerm digit word with
  | canonical other => exact fun heq => nomatch heq
  | olderThan days =>
    rw [daySeconds]
    omega
  | sender value => rfl
  | other plain => exact .inr rfl

/-- A filter is sound exactly when nothing of the query is lost. -/
theorem selectsOnly_iff (query : Text) :
    SelectsOnly digit fold now unfiltered IsAddress query ↔
      Translated digit fold now unfiltered IsAddress query := by
  by_cases hempty : query = []
  · subst hempty
    constructor
    · intro _
      exact .inr rfl
    · intro _ message _ _ term hterm
      cases hterm
  unfold SelectsOnly listed
  simp only [if_neg hempty]
  unfold Translated translateQuery
  dsimp only
  cases hlookup : List.lookup (strip isSpace query) translations with
  | some filter =>
    refine iff_of_true (fun message _ hselects term hterm => ?_) trivial
    rw [terms_of_lookup hlookup] at hterm
    obtain rfl := List.mem_singleton.mp hterm
    exact hselects
  | none =>
    dsimp only
    cases hsearch : searchOlderThan digit (strip isSpace query) with
    | some digits =>
      dsimp only
      cases hcutoff : cutoffOf digit now digits with
      | none => exact iff_of_true (fun message _ hselects => nomatch hselects) (.inl rfl)
      | some cutoff =>
        rw [Option.map_some, or_iff_right (Option.some_ne_none cutoff)]
        refine Iff.trans ?_ (aged_iff fold IsAddress (cutoffOf_eq_some hcutoff) rfl)
        refine forall_congr' fun message => forall_congr' fun hsenders => ?_
        cases List.lookup (strip isSpace (removeFrom (olderThanText digits) 0
            (strip isSpace query))) translations with
        | none =>
          refine ⟨fun h _ hreceived => h (decide_eq_true hreceived),
            fun h hselects => h (fun _ hc => by cases hc) (of_decide_eq_true hselects)⟩
        | some filter =>
          constructor
          · intro h hfilter hreceived
            apply h
            change (filter.selects message && decide _) = true
            rw [hfilter filter rfl, decide_eq_true hreceived]
            rfl
          · intro h hselects
            obtain ⟨hfilter, hreceived⟩ := (Bool.and_eq_true _ _).mp hselects
            refine h (fun c hc => ?_) (of_decide_eq_true hreceived)
            cases hc
            exact hfilter
    | none =>
      dsimp only
      by_cases hfrom : "from:".toList.isPrefixOf (strip isSpace query) = true
      · rw [if_pos hfrom, if_pos hfrom]
        exact sender_iff hfrom
      · rw [if_neg hfrom, if_neg hfrom]
        constructor
        · intro h
          by_contra hnot
          obtain ⟨hlisted, hwords⟩ := not_or.mp hnot
          obtain ⟨word, hword⟩ := List.exists_mem_of_ne_nil _ hwords
          obtain ⟨message, hsender, hfails⟩ := exists_not_holds word
          refine hfails (h message (fun sender hs => ?_) ((Bool.not_eq_false _).mp hlisted) _
            (List.mem_map_of_mem hword))
          rw [hsender] at hs
          cases hs
        · rintro (hrefused | hwords) message _ hlisted term hterm
          · cases hrefused.symm.trans hlisted
          · rw [terms, hwords] at hterm
            cases hterm

/-- A sound filter makes the plans sound: what is safe was listed. -/
theorem plansOnly_of_selectsOnly [CaseMapping] {query : Text}
    (h : SelectsOnly digit fold now unfiltered IsAddress query) :
    PlansOnly digit fold now unfiltered IsAddress query := by
  intro env toUpperCase account mailbox answers criteria messages _ _ hquery hsenders hgraph id hid
  apply h (messages id) (hsenders id)
  obtain ⟨row, hrow, rfl⟩ := List.mem_map.mp hid
  obtain ⟨message, hmessage, rfl⟩ := List.mem_map.mp (List.mem_filter.mp hrow).1
  obtain ⟨summary, hsummary, rfl⟩ := List.mem_map.mp hmessage
  have hlisted : listed digit fold now unfiltered query (messages summary.id) = true := by
    refine forall_mem_listPages (p := fun m => listed digit fold now unfiltered query
      (messages m.id) = true) (fun _ hm => by cases hm) ?_ summary (List.mem_of_mem_take hsummary)
    intro token ids next hanswer listedId hlistedId _
    rw [listMessage_id]
    exact hgraph _ token ids next (hquery ▸ hanswer) listedId hlistedId
  have hid : (classifyMessage env (enrich account mailbox answers summary)).id = summary.id :=
    enrich_id summary
  rw [hid]
  exact hlisted

end

/-! ### Queries that are widened -/

/-- The digits of ASCII. -/
def asciiDigit (c : Char) : Option ℕ :=
  if c.isDigit then some (c.toNat - '0'.toNat) else none

example : translateQuery asciiDigit 63900000000 "older_than:30d is:unread".toList =
    some (some (.canonicalReceived .unread 63897408000)) := by decide

example : (translateQuery asciiDigit 0 "from:a' or x eq 'b".toList).map
      (·.map (GraphFilter.text fun _ => [])) =
    some (some "from/emailAddress/address eq 'a'' or x eq ''b'".toList) := by decide

end Cleanup
end EmailOps
