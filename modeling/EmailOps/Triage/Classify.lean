import EmailOps.Triage.Surfacing

/-!
# What classifying answers

`classifyInbound` in full, with the score of the spam engine and the stamps on the messages of
a thread. What it answers is a disposition, and where a sender policy or a verdict of spam
decides, that is the one it writes. On the other branches it answers the Inbox and writes no
disposition, whatever the thread's is.

* `classifyInbound_cases`: the disposition is written and answered, or the overlay stays.
* `classifyInbound_effective_iff`: the answer is the effective disposition after the call when
  it is written, or when the effective disposition was the Inbox before.
* `desk_classifyInbound`: the overlay is that of the model without scores.
-/

namespace EmailOps
namespace Triage
namespace MailTriage

open Framework Framework.Text

/-- The answer of the spam engine. -/
structure SpamAnswer (Score : Type*) where
  score : Option Score
  verdict : Option SpamVerdict

/-- The columns of a message that are stamped. -/
structure MessageStamp (Score : Type*) where
  workspaceId : String
  threadId : String
  spamScore : Option Score
  spamVerdict : Option SpamVerdict

/-- The overlay, with the stamps. -/
structure TriageDb (Score : Type*) where
  desk : Desk
  messages : List (MessageStamp Score)

structure Result (Score : Type*) extends ClassifyResult where
  spamScore : Option Score

variable {Score : Type*} (workspaceId threadId : String)

/-- `emailMessage.updateMany`, on the messages of the thread. -/
def stamp (score : Option Score) (verdict : Option SpamVerdict) (messages : List (MessageStamp Score)) :
    List (MessageStamp Score) :=
  messages.map fun m =>
    if m.workspaceId = workspaceId && m.threadId = threadId then
      { m with spamScore := score, spamVerdict := verdict }
    else m

def applyDisposition (disposition : MessageDisposition) (score : Option Score)
    (verdict : Option SpamVerdict) (db : TriageDb Score) : TriageDb Score where
  desk := db.desk.applyDisposition workspaceId threadId disposition
  messages :=
    if score.isSome || verdict.isSome then stamp workspaceId threadId score verdict db.messages
    else db.messages

def stampScore (score : Option Score) (verdict : Option SpamVerdict) (db : TriageDb Score) :
    TriageDb Score :=
  { db with messages := stamp workspaceId threadId score verdict db.messages }

/-- `classifyInbound`. The spam engine has no answer when its call throws, and the call throws
then, as when the write fails that it comes to. -/
def classifyInbound [CaseMapping] (policies : List SenderPolicy) (fromAddress : Option Text)
    (isConfigured : Bool) (answer : Option (SpamAnswer Score)) (stored : Bool)
    (db : TriageDb Score) : TriageDb Score × Option (Result Score) :=
  let decided (disposition : MessageDisposition) (score : Option Score) (verdict : SpamVerdict)
      (reason : ClassifyReason) :=
    if stored then
      (applyDisposition workspaceId threadId disposition score (some verdict) db,
        some ⟨⟨threadId, disposition, some verdict, reason⟩, score⟩)
    else (db, none)
  match evaluate policies workspaceId fromAddress with
  | some .allow => decided .inbox none .clean .senderAllowed
  | some .block => decided .spam none .spam .senderBlocked
  | none =>
    match answer with
    | none => (db, none)
    | some answer =>
      if answer.verdict = some .spam then decided .spam answer.score .spam .engineVerdict
      else
        let result : Result Score :=
          ⟨⟨threadId, .inbox, answer.verdict,
            if isConfigured then .engineClean else .engineDormant⟩, answer.score⟩
        if answer.score.isSome || answer.verdict.isSome then
          if stored then (stampScore workspaceId threadId answer.score answer.verdict db, some result)
          else (db, none)
        else (db, some result)

/-! ### The answer and the overlay -/

section

variable [CaseMapping] {workspaceId threadId} {policies : List SenderPolicy}
  {fromAddress : Option Text} {isConfigured stored : Bool} {answer : Option (SpamAnswer Score)}
  {db db' : TriageDb Score} {result : Result Score}

/-- Does a policy or a verdict of spam decide? -/
def decides (policies : List SenderPolicy) (workspaceId : String) (fromAddress : Option Text)
    (answer : Option (SpamAnswer Score)) : Prop :=
  evaluate policies workspaceId fromAddress ≠ none ∨ answer.bind (·.verdict) = some .spam

/-- **What a call does that returns**: where something decides, the disposition is written that
is answered; elsewhere the overlay stays, and the answer is the Inbox. -/
theorem classifyInbound_cases
    (h : classifyInbound workspaceId threadId policies fromAddress isConfigured answer stored db =
      (db', some result)) :
    (decides policies workspaceId fromAddress answer ∧
      db'.desk = db.desk.applyDisposition workspaceId threadId result.disposition) ∨
    (¬ decides policies workspaceId fromAddress answer ∧ db'.desk = db.desk ∧
      result.disposition = .inbox) := by
  unfold classifyInbound at h
  unfold decides
  cases hpolicy : evaluate policies workspaceId fromAddress with
  | some kind =>
    left
    refine ⟨.inl nofun, ?_⟩
    rw [hpolicy] at h
    -- A row that is not written leaves no result.
    cases kind with
    | allow =>
      cases stored with
      | false => cases h
      | true =>
        cases h
        rfl
    | block =>
      cases stored with
      | false => cases h
      | true =>
        cases h
        rfl
  | none =>
    rw [hpolicy] at h
    cases answer with
    | none => cases h
    | some answer =>
      dsimp only at h
      by_cases hspam : answer.verdict = some .spam
      · left
        rw [if_pos hspam] at h
        refine ⟨.inr hspam, ?_⟩
        cases stored with
        | false => cases h
        | true =>
          cases h
          rfl
      · right
        rw [if_neg hspam] at h
        refine ⟨?_, ?_⟩
        · rintro (hpolicy | hverdict)
          · exact hpolicy rfl
          · exact hspam hverdict
        · split at h
          · split at h
            · cases h
              exact ⟨rfl, rfl⟩
            · cases h
          · cases h
            exact ⟨rfl, rfl⟩

omit [CaseMapping] in
theorem dispositionOf_applyDisposition (desk : Desk) (disposition : MessageDisposition) :
    (desk.applyDisposition workspaceId threadId disposition).dispositionOf workspaceId threadId =
      disposition := by
  unfold Desk.applyDisposition
  rw [dispositionOf_upsert, if_pos ⟨rfl, rfl⟩]

/-- **When the answer is the effective disposition**: when something decides, or the thread's
disposition was the Inbox before the call. -/
theorem classifyInbound_effective_iff
    (h : classifyInbound workspaceId threadId policies fromAddress isConfigured answer stored db =
      (db', some result)) :
    result.disposition = db'.desk.dispositionOf workspaceId threadId ↔
      decides policies workspaceId fromAddress answer ∨
        db.desk.dispositionOf workspaceId threadId = .inbox := by
  obtain ⟨hdecides, hwritten⟩ | ⟨hnot, hsame, hinbox⟩ := classifyInbound_cases h
  · rw [hwritten, dispositionOf_applyDisposition]
    exact iff_of_true rfl (.inl hdecides)
  · rw [hsame, hinbox, eq_comm]
    exact ⟨.inr, fun hbefore => hbefore.resolve_left hnot⟩

/-- The overlay is that of the model without scores. -/
theorem desk_classifyInbound (policies : List SenderPolicy) (fromAddress : Option Text)
    (isConfigured : Bool) (answer : SpamAnswer Score) (stored : Bool) (db : TriageDb Score) :
    (classifyInbound workspaceId threadId policies fromAddress isConfigured (some answer) stored
        db).1.desk =
      (Triage.classifyInbound (evaluate policies workspaceId fromAddress) workspaceId threadId
        isConfigured answer.verdict stored db.desk).1 := by
  unfold classifyInbound Triage.classifyInbound
  cases evaluate policies workspaceId fromAddress with
  | some kind => cases kind <;> cases stored <;> rfl
  | none =>
    obtain ⟨score, verdict⟩ := answer
    rcases verdict with _ | _ | _ | _
    · cases score <;> cases stored <;> rfl
    · cases score <;> cases stored <;> rfl
    · cases score <;> cases stored <;> rfl
    · cases score <;> cases stored <;> rfl

end

/-! ### A thread that was put away -/

/-- A thread with a row in the overlay. -/
def filed (disposition : MessageDisposition) : TriageDb ℤ where
  desk := ⟨arrivedDesk.mail, [⟨⟨"acme", "t1", disposition⟩, some "ada", none⟩]⟩
  messages := []

/-- The answer is the Inbox, and the thread stays in the Archive. -/
theorem classifyInbound_archived :
    ¬ ∀ (workspaceId threadId : String) (policies : List SenderPolicy) (fromAddress : Option Text)
      (isConfigured : Bool) (answer : Option (SpamAnswer ℤ)) (stored : Bool) (db db' : TriageDb ℤ)
      (result : Result ℤ),
      classifyInbound workspaceId threadId policies fromAddress isConfigured answer stored db =
          (db', some result) →
        result.disposition = db'.desk.dispositionOf workspaceId threadId := by
  intro h
  have heq := h "acme" "t1" [] none false (some ⟨none, none⟩) true (filed .archive) _ _ rfl
  revert heq
  decide

/-- A thread in the Inbox stays there, as is answered. -/
theorem classifyInbound_effective_inbox : ∃ db' result,
    classifyInbound "acme" "t1" [] none false (some ⟨none, none⟩) true (filed .inbox) =
        (db', some result) ∧
      result.disposition = db'.desk.dispositionOf "acme" "t1" := by
  have hrun : classifyInbound "acme" "t1" [] none false (some ⟨none, none⟩) true (filed .inbox) =
      (filed .inbox, some ⟨⟨"t1", .inbox, none, .engineDormant⟩, none⟩) := rfl
  exact ⟨_, _, hrun, (classifyInbound_effective_iff hrun).mpr (.inr (by decide))⟩

end MailTriage
end Triage
end EmailOps
