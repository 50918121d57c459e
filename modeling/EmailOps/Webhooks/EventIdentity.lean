import EmailOps.Email.Engagement
import EmailOps.Framework.IsoDate

/-!
# The identity of a webhook's event

The mail provider posts one record for each event, and again until it is acknowledged. An
event is recorded under an id that `deriveEventId` makes of its record: of the provider's
number when there is one, and otherwise of the message's id and the time of the event.

* `eventOf` is the event that a record describes: its type, its message, its recipient, and
  which occurrence of it.
* `eventId_of_eventOf`: every delivery of one event has one id.
* `Confused` lists the records of different events that have one id: neither the recipient nor
  the link of a click is part of it, and times are to the millisecond.
  `eventId_eq_iff_unless_confused`: for all others, the id tells the events apart.
-/

namespace EmailOps
namespace Webhooks

open Framework Framework.Text

/-! ### Records -/

/-- The body of a webhook call. -/
abbrev PostmarkWebhookBody := List (Text × Json)

/-- The record types that are handled. -/
def handledRecordTypes : List Text :=
  ["Delivery".toList, "Open".toList, "Click".toList, "Bounce".toList, "SpamComplaint".toList,
    "SubscriptionChange".toList]

def isHandledRecordType (t : Text) : Bool :=
  handledRecordTypes.contains t

/-- A property, when it is a text. -/
def textField (body : PostmarkWebhookBody) (key : String) : Option Text :=
  match Json.get body key.toList with
  | some (.str t) => some t
  | _ => none

/-- The record type of a record that is handled. -/
def recordTypeOf (body : PostmarkWebhookBody) : Option Text :=
  (textField body "RecordType").filter isHandledRecordType

/-- The first of the texts that is a date, and its time. -/
def firstDate (parseDate : Text → Option ℤ) : List (Option Text) → Option (Text × ℤ)
  | [] => none
  | none :: candidates => firstDate parseDate candidates
  | some c :: candidates =>
    if trim c = [] then firstDate parseDate candidates
    else
      match parseDate c with
      | some time => some (c, time)
      | none => firstDate parseDate candidates

/-- The timestamp of a record, and its time. -/
def timestampOf (parseDate : Text → Option ℤ) (body : PostmarkWebhookBody) : Option (Text × ℤ) :=
  firstDate parseDate
    [textField body "DeliveredAt", textField body "BouncedAt", textField body "ChangedAt",
      textField body "ReceivedAt"]

/-- `parseTs` of the provider's timestamps, in the order in which they are tried. -/
def occurredAt (parseDate : Text → Option ℤ) (body : PostmarkWebhookBody) : Option ℤ :=
  (timestampOf parseDate body).map (·.2)

/-- The provider's own number of the record. -/
def providerId (body : PostmarkWebhookBody) : Option Text :=
  match Json.get body "ID".toList with
  | none | some .null => none
  | some id => if trim (Json.toText id) = [] then none else some (Json.toText id)

def tsText (occurredAt : Option ℤ) : Text :=
  (occurredAt.map toISOString).getD "no-ts".toList

/-- What the id holds after the record type. -/
def keyText (body : PostmarkWebhookBody) (occurredAt : Option ℤ) : Text :=
  match providerId body with
  | some id => id
  | none => (textField body "MessageID").getD "no-mid".toList ++ ':' :: tsText occurredAt

def deriveEventId (body : PostmarkWebhookBody) (recordType : Text) (occurredAt : Option ℤ) :
    Text :=
  "postmark:".toList ++ (recordType ++ ':' :: keyText body occurredAt)

/-! ### The normalized signal -/

structure PostmarkMapping where
  recordType : Text
  normalizedKind : Option EmailEngagementKind
  statusTarget : Option EmailMessageStatus
  providerMessageId : Option Text
  providerEventId : Text
  occurredAt : Option ℤ

/-- Is the record one that suppresses sending? -/
def isUnsub (body : PostmarkWebhookBody) : Bool :=
  match Json.get body "SuppressSending".toList with
  | some (.bool b) => b
  | _ => true

def kindOf (body : PostmarkWebhookBody) (recordType : Text) : Option EmailEngagementKind :=
  if recordType = "Open".toList then some .opened
  else if recordType = "Click".toList then some .clicked
  else if recordType = "Bounce".toList then some .bounced
  else if recordType = "SpamComplaint".toList then some .unsubscribed
  else if recordType = "SubscriptionChange".toList && isUnsub body then some .unsubscribed
  else none

def statusOf (recordType : Text) : Option EmailMessageStatus :=
  if recordType = "Delivery".toList then some .delivered
  else if recordType = "Bounce".toList then some .bounced
  else none

def mapPostmarkRecord (parseDate : Text → Option ℤ) (body : PostmarkWebhookBody) :
    Option PostmarkMapping :=
  (recordTypeOf body).map fun recordType =>
    { recordType := recordType
      normalizedKind := kindOf body recordType
      statusTarget := statusOf recordType
      providerMessageId := textField body "MessageID"
      providerEventId := deriveEventId body recordType (occurredAt parseDate body)
      occurredAt := occurredAt parseDate body }

/-! ### Events -/

/-- Whom the record is about. Bounces and complaints name him in a field of another name. -/
structure Addressee where
  recipient : Option Text
  email : Option Text
  deriving DecidableEq

def addresseeOf (body : PostmarkWebhookBody) : Addressee :=
  ⟨textField body "Recipient", textField body "Email"⟩

/-- Which of the like events of a message and a recipient it is. -/
inductive Occurrence where
  | numbered (id : Text)
  /-- The timestamp, and the link that was clicked. -/
  | timed (timestamp : Option Text) (link : Option Text)
  deriving DecidableEq

/-- The event that a record describes. -/
structure Event where
  recordType : Text
  message : Option Text
  addressee : Addressee
  occurrence : Occurrence
  deriving DecidableEq

/-- The timestamp as it is given. -/
def timestampText (parseDate : Text → Option ℤ) (body : PostmarkWebhookBody) : Option Text :=
  (timestampOf parseDate body).map (·.1)

def occurrenceOf (parseDate : Text → Option ℤ) (body : PostmarkWebhookBody) : Occurrence :=
  match providerId body with
  | some id => .numbered id
  | none => .timed (timestampText parseDate body) (textField body "OriginalLink")

def eventOf (parseDate : Text → Option ℤ) (body : PostmarkWebhookBody) (recordType : Text) :
    Event where
  recordType := recordType
  message := textField body "MessageID"
  addressee := addresseeOf body
  occurrence := occurrenceOf parseDate body

/-- The id that an event is recorded under. -/
def eventId (parseDate : Text → Option ℤ) (body : PostmarkWebhookBody) (recordType : Text) :
    Text :=
  deriveEventId body recordType (occurredAt parseDate body)

/-- The records of one type that have one id and describe different events. -/
inductive Confused (parseDate : Text → Option ℤ) (p q : PostmarkWebhookBody) : Prop
  /-- The provider's number is that of another message or recipient. -/
  | sameNumber (id : Text) (hp : providerId p = some id) (hq : providerId q = some id)
      (hdiff : textField p "MessageID" ≠ textField q "MessageID" ∨ addresseeOf p ≠ addresseeOf q)
  /-- Two events of one message at one time, or of unknown times: those of two recipients, of
  two links, or of two instants of a millisecond. -/
  | sameTime (hp : providerId p = none) (hq : providerId q = none)
      (hmessage : (textField p "MessageID").getD "no-mid".toList =
        (textField q "MessageID").getD "no-mid".toList)
      (htime : occurredAt parseDate p = occurredAt parseDate q)
      (hdiff : textField p "MessageID" ≠ textField q "MessageID" ∨
        addresseeOf p ≠ addresseeOf q ∨
        timestampText parseDate p ≠ timestampText parseDate q ∨
        textField p "OriginalLink" ≠ textField q "OriginalLink")
  /-- The number of one reads as the message and the time of the other. -/
  | readsAs (id : Text) (hp : providerId p = some id) (hq : providerId q = none)
      (hid : id = keyText q (occurredAt parseDate q))
  | isReadAs (id : Text) (hp : providerId p = none) (hq : providerId q = some id)
      (hid : id = keyText p (occurredAt parseDate p))

/-! ### What the id holds -/

variable {parseDate : Text → Option ℤ} {p q : PostmarkWebhookBody} {recordType recordType' : Text}

theorem colon_notMem_recordType (h : recordTypeOf p = some recordType) : ':' ∉ recordType := by
  have hhandled : isHandledRecordType recordType = true :=
    (Option.filter_eq_some_iff.mp h).2
  have hall : ∀ t ∈ handledRecordTypes, ':' ∉ t := by decide
  exact hall recordType (List.contains_iff_mem.mp hhandled)

theorem getLast_append_tsText (t : Text) (time : Option ℤ) :
    (t ++ ':' :: tsText time).getLast? = some (if time.isSome then 'Z' else 's') := by
  cases time with
  | none => simp [tsText, List.getLast?_append, List.getLast?_cons]
  | some time => simp [tsText, List.getLast?_append, List.getLast?_cons, getLast_toISOString]

/-- **Message and time can be read back** from what the id holds of them. -/
theorem append_tsText_inj {m m' : Text} {time time' : Option ℤ} :
    m ++ ':' :: tsText time = m' ++ ':' :: tsText time' ↔ m = m' ∧ time = time' := by
  constructor
  · intro h
    have hlast := congrArg List.getLast? h
    rw [getLast_append_tsText, getLast_append_tsText] at hlast
    cases time with
    | none =>
      cases time' with
      | none => exact ⟨List.append_cancel_right h, rfl⟩
      | some _ => simp at hlast
    | some time =>
      cases time' with
      | none => simp at hlast
      | some time' =>
        have hcount : (tsText (some time)).count ':' = (tsText (some time')).count ':' :=
          (count_colon_toISOString time).trans (count_colon_toISOString time').symm
        obtain ⟨hm, hts⟩ := append_cons_inj_of_count hcount h
        exact ⟨hm, congrArg some (toISOString_injective hts)⟩
  · rintro ⟨rfl, rfl⟩
    rfl

/-- Ids are equal when the record types and the rest of them are. -/
theorem eventId_eq_iff (hp : recordTypeOf p = some recordType)
    (hq : recordTypeOf q = some recordType') :
    eventId parseDate p recordType = eventId parseDate q recordType' ↔
      recordType = recordType' ∧
        keyText p (occurredAt parseDate p) = keyText q (occurredAt parseDate q) := by
  unfold eventId deriveEventId
  rw [List.append_cancel_left_eq]
  constructor
  · intro h
    exact append_cons_inj_of_notMem (colon_notMem_recordType hp) (colon_notMem_recordType hq) h
  · rintro ⟨rfl, hkey⟩
    rw [hkey]

theorem firstDate_eq_some {candidates : List (Option Text)} {c : Text} {time : ℤ}
    (h : firstDate parseDate candidates = some (c, time)) : parseDate c = some time := by
  induction candidates with
  | nil => cases h
  | cons candidate candidates ih =>
    cases candidate with
    | none => exact ih h
    | some t =>
      unfold firstDate at h
      split at h
      · exact ih h
      · split at h
        · next hdate =>
          cases h
          exact hdate
        · exact ih h

theorem occurredAt_eq (parseDate : Text → Option ℤ) (p : PostmarkWebhookBody) :
    occurredAt parseDate p = (timestampText parseDate p).bind parseDate := by
  unfold occurredAt timestampText
  cases h : timestampOf parseDate p with
  | none => rfl
  | some date => exact (firstDate_eq_some h).symm

/-- What the id holds, by the occurrence. -/
theorem keyText_eq_of_eventOf
    (h : eventOf parseDate p recordType = eventOf parseDate q recordType') :
    keyText p (occurredAt parseDate p) = keyText q (occurredAt parseDate q) := by
  obtain ⟨-, hmessage, -, hoccurrence⟩ := Event.mk.inj h
  unfold occurrenceOf at hoccurrence
  unfold keyText
  cases hp : providerId p with
  | some id =>
    cases hq : providerId q with
    | some id' =>
      rw [hp, hq] at hoccurrence
      exact (Occurrence.numbered.inj hoccurrence)
    | none =>
      rw [hp, hq] at hoccurrence
      cases hoccurrence
  | none =>
    cases hq : providerId q with
    | some id' =>
      rw [hp, hq] at hoccurrence
      cases hoccurrence
    | none =>
      rw [hp, hq] at hoccurrence
      have htime := (Occurrence.timed.inj hoccurrence).1
      simp only [hmessage, occurredAt_eq, htime]

/-- **A redelivery is known again**: every record of an event has one id. -/
theorem eventId_of_eventOf
    (h : eventOf parseDate p recordType = eventOf parseDate q recordType') :
    eventId parseDate p recordType = eventId parseDate q recordType' := by
  have htype : recordType = recordType' := congrArg Event.recordType h
  unfold eventId deriveEventId
  rw [htype, keyText_eq_of_eventOf h]

/-! ### Confused records -/

theorem keyText_of_numbered {id : Text} {time : Option ℤ} (h : providerId p = some id) :
    keyText p time = id := by
  unfold keyText
  rw [h]

theorem keyText_of_timed {time : Option ℤ} (h : providerId p = none) :
    keyText p time = (textField p "MessageID").getD "no-mid".toList ++ ':' :: tsText time := by
  unfold keyText
  rw [h]

theorem Confused.keyText_eq (h : Confused parseDate p q) :
    keyText p (occurredAt parseDate p) = keyText q (occurredAt parseDate q) := by
  cases h with
  | sameNumber id hp hq _ => rw [keyText_of_numbered hp, keyText_of_numbered hq]
  | sameTime hp hq hmessage htime _ =>
    rw [keyText_of_timed hp, keyText_of_timed hq, hmessage, htime]
  | readsAs id hp hq hid => exact (keyText_of_numbered hp).trans hid
  | isReadAs id hp hq hid => exact hid.symm.trans (keyText_of_numbered hq).symm

/-- Confused records describe different events. -/
theorem Confused.eventOf_ne (h : Confused parseDate p q) :
    eventOf parseDate p recordType ≠ eventOf parseDate q recordType' := by
  intro hevent
  obtain ⟨-, hmessage, haddressee, hoccurrence⟩ := Event.mk.inj hevent
  unfold occurrenceOf at hoccurrence
  cases h with
  | sameNumber id hp hq hdiff =>
    rcases hdiff with hdiff | hdiff
    · exact hdiff hmessage
    · exact hdiff haddressee
  | sameTime hp hq _ _ hdiff =>
    rw [hp, hq] at hoccurrence
    obtain ⟨htime, hlink⟩ := Occurrence.timed.inj hoccurrence
    rcases hdiff with hdiff | hdiff | hdiff | hdiff
    · exact hdiff hmessage
    · exact hdiff haddressee
    · exact hdiff htime
    · exact hdiff hlink
  | readsAs id hp hq _ =>
    rw [hp, hq] at hoccurrence
    cases hoccurrence
  | isReadAs id hp hq _ =>
    rw [hp, hq] at hoccurrence
    cases hoccurrence

/-- **Nothing else is confused**: records of different events have one id only so. -/
theorem confused_of_keyText_eq (hne : eventOf parseDate p recordType ≠ eventOf parseDate q recordType)
    (hkey : keyText p (occurredAt parseDate p) = keyText q (occurredAt parseDate q)) :
    Confused parseDate p q := by
  cases hp : providerId p with
  | some id =>
    rw [keyText_of_numbered hp] at hkey
    cases hq : providerId q with
    | none => exact .readsAs id hp hq hkey
    | some id' =>
      rw [keyText_of_numbered hq] at hkey
      subst hkey
      refine .sameNumber id hp hq ?_
      -- Else the events agree.
      by_contra hsame
      push Not at hsame
      refine hne ?_
      unfold eventOf occurrenceOf
      rw [hp, hq, hsame.1, hsame.2]
  | none =>
    cases hq : providerId q with
    | some id' =>
      rw [keyText_of_numbered hq] at hkey
      exact .isReadAs id' hp hq hkey.symm
    | none =>
      rw [keyText_of_timed hp, keyText_of_timed hq] at hkey
      obtain ⟨hmessage, htime⟩ := append_tsText_inj.mp hkey
      refine .sameTime hp hq hmessage htime ?_
      by_contra hsame
      push Not at hsame
      obtain ⟨hmid, haddressee, htimestamp, hlink⟩ := hsame
      refine hne ?_
      unfold eventOf occurrenceOf
      rw [hp, hq, hmid, haddressee, htimestamp, hlink]

/-- **The id tells events apart**: two records have one id if and only if they describe one
event, unless they are of one type and confused. -/
theorem eventId_eq_iff_unless_confused (hp : recordTypeOf p = some recordType)
    (hq : recordTypeOf q = some recordType') :
    (eventId parseDate p recordType = eventId parseDate q recordType' ↔
        eventOf parseDate p recordType = eventOf parseDate q recordType') ↔
      ¬(recordType = recordType' ∧ Confused parseDate p q) := by
  constructor
  · rintro htells ⟨rfl, hconfused⟩
    have hid := (eventId_eq_iff hp hq).mpr ⟨rfl, hconfused.keyText_eq⟩
    exact hconfused.eventOf_ne (htells.mp hid)
  · intro hclear
    refine ⟨fun hid => ?_, eventId_of_eventOf⟩
    obtain ⟨rfl, hkey⟩ := (eventId_eq_iff hp hq).mp hid
    by_contra hne
    exact hclear ⟨rfl, confused_of_keyText_eq hne hkey⟩

/-- A delivery of one message, to this recipient. -/
def deliveryTo (recipient : String) : PostmarkWebhookBody :=
  [("RecordType".toList, .str "Delivery".toList), ("MessageID".toList, .str "m9".toList),
    ("Recipient".toList, .str recipient.toList),
    ("DeliveredAt".toList, .str "2026-06-03T10:00:00Z".toList)]

/-- A parser of the one timestamp of the samples. -/
def sampleDate (t : Text) : Option ℤ :=
  if t = "2026-06-03T10:00:00Z".toList then some 1780480800000 else none

theorem eventId_eq_iff_deliveries :
    (eventId sampleDate (deliveryTo "a@b.c") "Delivery".toList =
          eventId sampleDate (deliveryTo "d@b.c") "Delivery".toList ↔
        eventOf sampleDate (deliveryTo "a@b.c") "Delivery".toList =
          eventOf sampleDate (deliveryTo "d@b.c") "Delivery".toList) ↔
      ¬("Delivery".toList = "Delivery".toList ∧
        Confused sampleDate (deliveryTo "a@b.c") (deliveryTo "d@b.c")) :=
  eventId_eq_iff_unless_confused (by decide) (by decide)

/-- A message reaches two recipients at one time, and the second delivery is taken for the
first one delivered again. -/
theorem two_deliveries_one_id :
    recordTypeOf (deliveryTo "a@b.c") = some "Delivery".toList ∧
      recordTypeOf (deliveryTo "d@b.c") = some "Delivery".toList ∧
      eventId sampleDate (deliveryTo "a@b.c") "Delivery".toList =
        eventId sampleDate (deliveryTo "d@b.c") "Delivery".toList ∧
      eventId sampleDate (deliveryTo "a@b.c") "Delivery".toList =
        "postmark:Delivery:m9:2026-06-03T10:00:00.000Z".toList ∧
      addresseeOf (deliveryTo "a@b.c") ≠ addresseeOf (deliveryTo "d@b.c") ∧
      eventOf sampleDate (deliveryTo "a@b.c") "Delivery".toList ≠
        eventOf sampleDate (deliveryTo "d@b.c") "Delivery".toList := by
  refine ⟨by decide, by decide, by decide +kernel, by decide +kernel, by decide, fun h => ?_⟩
  exact absurd (congrArg Event.addressee h) (by decide)

end Webhooks
end EmailOps
