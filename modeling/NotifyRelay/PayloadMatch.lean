import NotifyRelay.JsonValue
import NotifyRelay.Serializers
import NotifyRelay.System

/-! What `_payload_matches` compares when an idempotency key is used again, beside what makes
two requests the same. -/
namespace NotifyRelay

open Services Serializers Json

/-- An absent context counts as the empty object. -/
def contextValue : Option JsonObject → Json
  | none => .obj []
  | some context => .obj context.members

theorem contextValue_wellFormed (context : Option JsonObject) :
    (contextValue context).wellFormed = true := by
  cases context with
  | none => rfl
  | some context => exact context.wellFormed

theorem obj_orEmpty (context : Option JsonObject) :
    .obj (JsonObject.orEmpty context).members = contextValue context := by
  cases context with
  | none => rfl
  | some context =>
      dsimp only [JsonObject.orEmpty]
      split
      next hempty =>
        rw [contextValue, List.isEmpty_iff.mp hempty]
        rfl
      next => rfl

/-- The contexts are equal once `true` counts as 1 and `false` as 0. -/
def EqualAsNumbers (new stored : Option JsonObject) : Prop :=
  Same (contextValue new).numeric (contextValue stored).numeric

theorem EqualAsNumbers.of_same {new stored : Option JsonObject}
    (h : Same (contextValue new) (contextValue stored)) : EqualAsNumbers new stored :=
  h.numeric (contextValue_wellFormed new)

theorem pyEq_context {new stored : Option JsonObject} :
    (JsonObject.orEmpty new).pyEq (JsonObject.orEmpty stored) = true ↔
      EqualAsNumbers new stored := by
  rw [JsonObject.pyEq, pyEq_iff (JsonObject.wellFormed _) (JsonObject.wellFormed _), obj_orEmpty,
    obj_orEmpty]
  rfl

/-- All that is compared. -/
structure Matches (existing : Message) (new : MessageData) : Prop where
  channel : existing.channel = new.channel
  recipient : existing.recipient = new.recipient
  context : EqualAsNumbers new.context (some existing.context)
  scheduledAt : new.scheduledAt = existing.scheduledAt
  priority : existing.priority = new.priority.getD .default

theorem payloadMatches_iff {existing : Message} {new : MessageData} :
    payloadMatches existing new = true ↔ Matches existing new := by
  unfold payloadMatches payloadMatchesWith
  constructor
  · intro h
    split at h
    next => contradiction
    next hchannel =>
      split at h
      next => contradiction
      next hrecipient =>
        split at h
        next => contradiction
        next hcontext =>
          split at h
          next => contradiction
          next hscheduledAt =>
            exact ⟨not_not.mp hchannel, not_not.mp hrecipient,
              pyEq_context.mp (by simpa [pristine, PyContext.pyEq] using hcontext),
              not_not.mp hscheduledAt,
              beq_iff_eq.mp h⟩
  · intro h
    have hcontext := pyEq_context.mpr h.context
    rw [JsonObject.orEmpty_some] at hcontext
    simp [pristine, PyContext.pyEq, h.channel, h.recipient, hcontext, h.scheduledAt, h.priority]

/-- Two requests that agree on every other field: their contexts are compared as JSON values
unless only the reading of booleans as numbers makes them equal. -/
theorem payloadMatches_compares_json {existing : Message} {new : MessageData}
    (hchannel : existing.channel = new.channel) (hrecipient : existing.recipient = new.recipient)
    (hscheduledAt : new.scheduledAt = existing.scheduledAt)
    (hpriority : existing.priority = new.priority.getD .default) :
    (payloadMatches existing new = true ↔
        Same (contextValue new.context) (contextValue (some existing.context))) ↔
      (EqualAsNumbers new.context (some existing.context) →
        Same (contextValue new.context) (contextValue (some existing.context))) := by
  have hmatches : payloadMatches existing new = true ↔
      EqualAsNumbers new.context (some existing.context) :=
    payloadMatches_iff.trans ⟨Matches.context, fun h =>
      ⟨hchannel, hrecipient, h, hscheduledAt, hpriority⟩⟩
  rw [hmatches]
  exact ⟨Iff.mp, fun h => ⟨h, EqualAsNumbers.of_same⟩⟩

section Contexts

def flagContext (flag : Json) (h : flag.wellFormed = true) : JsonObject :=
  ⟨[("user", .str "ann"), ("flag", flag)], by simp [wellFormed, membersWellFormed, h]⟩

def reordered : JsonObject := ⟨[("flag", .num 1), ("user", .str "ann")], rfl⟩

def contextData (context : JsonObject) : MessageData :=
  { System.plainData none with context := some context }

def contextMessage (context : JsonObject) : Message :=
  newMessage "M1" (some 1) "key" (contextData context) ⟨1, 1, 1, "Hi", "Hello"⟩ ⟨"Hi", "Hello"⟩
    context 0 0

theorem payloadMatches_compares_json_reordered :
    payloadMatches (contextMessage (flagContext (.num 1) rfl)) (contextData reordered) = true ↔
      Same (contextValue (some reordered))
        (contextValue (some (flagContext (.num 1) rfl))) := by
  refine (payloadMatches_compares_json rfl rfl rfl rfl).mpr fun _ => ?_
  exact .obj (.swap _ _ _) (.cons "flag" (.num 1) (.cons "user" (.str "ann") .nil))

/-- `true` is taken for 1. -/
theorem payloadMatches_bool_num :
    payloadMatches (contextMessage (flagContext (.num 1) rfl))
        (contextData (flagContext (.bool true) rfl)) = true ∧
      ¬Same (contextValue (some (flagContext (.bool true) rfl)))
        (contextValue (some (flagContext (.num 1) rfl))) := by
  refine ⟨by decide, fun h => ?_⟩
  obtain ⟨_, hcovers⟩ := (same_obj_iff (by decide)).mp h
  obtain ⟨b, hb, hsame⟩ := hcovers "flag" (.bool true) (by simp [flagContext])
  have hnum : b = .num 1 := by simpa [flagContext] using hb
  subst hnum
  cases hsame

end Contexts

/-- The payload asks for what the message is: the fields of the row, and the template and the
version it was rendered from. -/
structure Agrees (db : Database) (message : Message) (data : MessageData) : Prop where
  channel : message.channel = data.channel
  recipient : message.recipient = data.recipient
  template : data.template = (readMessage db message).templateName
  version : ∀ n, data.templateVersion = some n → (readMessage db message).templateVersion = some n
  context : Same (contextValue data.context) (contextValue (some message.context))
  scheduledAt : data.scheduledAt = message.scheduledAt
  priority : message.priority = data.priority.getD .default

/-- The key of `message` is used again with `data`: the stored message is returned if and only
if the payload agrees with it, anything else is a conflict, and nothing is done. -/
def ReuseChecked (db : Database) (message : Message) (data : MessageData)
    (outcome : CreateOutcome) : Prop :=
  (outcome.result = .ok (message, false) ↔ Agrees db message data) ∧
    (¬Agrees db message data → outcome.result =
      .error (.idempotencyConflict "Idempotency-Key reused with different payload")) ∧
    outcome.db = db ∧ outcome.published = []

/-- What is compared tells the payload from the message, or there is nothing to tell. -/
def Told (db : Database) (message : Message) (data : MessageData) : Prop :=
  message.channel ≠ data.channel ∨ message.recipient ≠ data.recipient ∨
    data.scheduledAt ≠ message.scheduledAt ∨ message.priority ≠ data.priority.getD .default ∨
    ¬EqualAsNumbers data.context (some message.context) ∨
    data.template = (readMessage db message).templateName ∧
      (∀ n, data.templateVersion = some n →
        (readMessage db message).templateVersion = some n) ∧
      Same (contextValue data.context) (contextValue (some message.context))

theorem Agrees.matches {db : Database} {message : Message} {data : MessageData}
    (h : Agrees db message data) : Matches message data :=
  ⟨h.channel, h.recipient, .of_same h.context, h.scheduledAt, h.priority⟩

theorem told_iff {db : Database} {message : Message} {data : MessageData} :
    Told db message data ↔ (Matches message data → Agrees db message data) := by
  constructor
  · rintro (h | h | h | h | h | ⟨htemplate, hversion, hcontext⟩) hmatches
    · exact absurd hmatches.channel h
    · exact absurd hmatches.recipient h
    · exact absurd hmatches.scheduledAt h
    · exact absurd hmatches.priority h
    · exact absurd hmatches.context h
    · exact ⟨hmatches.channel, hmatches.recipient, htemplate, hversion, hcontext,
        hmatches.scheduledAt, hmatches.priority⟩
  · intro h
    by_cases hmatches : Matches message data
    · have hagrees := h hmatches
      exact .inr (.inr (.inr (.inr (.inr
        ⟨hagrees.template, hagrees.version, hagrees.context⟩))))
    · unfold Told
      by_contra hnone
      simp only [not_or, ne_eq, not_not] at hnone
      obtain ⟨hchannel, hrecipient, hscheduledAt, hpriority, hcontext, _⟩ := hnone
      exact hmatches ⟨hchannel, hrecipient, hcontext, hscheduledAt, hpriority⟩

/-- What is compared leaves out the template and the version, and reads booleans as numbers:
a reused key is checked if and only if that does not matter. -/
theorem reused_key_checked {db : Database} {message : Message} {apiKey : ApiKeyId}
    (hrow : message ∈ db.messages.rows) (hkey : message.apiKey = some apiKey) (engine : Engine)
    (now : Time) (id : MessageId) (brokerUp : Bool) (data : MessageData) :
    ReuseChecked db message data
        (createMessage engine now id brokerUp db (some apiKey) message.idempotencyKey data) ↔
      Told db message data := by
  have hpair : message.idempotencyPair = some (apiKey, message.idempotencyKey) := by
    rw [Message.idempotencyPair, hkey]
    rfl
  rw [createMessage_of_row hrow hpair, told_iff, ReuseChecked]
  by_cases hmatches : Matches message data
  · rw [replay_eq_ok.mpr ⟨payloadMatches_iff.mpr hmatches, rfl⟩]
    constructor
    · exact fun h _ => h.1.mp rfl
    · intro h
      have hagrees := h hmatches
      exact ⟨iff_of_true rfl hagrees, fun hnot => absurd hagrees hnot, rfl, rfl⟩
  · have hnot : ¬payloadMatches message data = true := fun h => hmatches (payloadMatches_iff.mp h)
    rw [replay_of_not_matches (Bool.eq_false_of_not_eq_true hnot)]
    constructor
    · exact fun _ h => absurd h hmatches
    · intro _
      refine ⟨⟨fun h => ?_, fun h => absurd h.matches hmatches⟩, fun _ => rfl, rfl, rfl⟩
      contradiction

section Scenario

/-- Two templates of one channel and a message made from the first of them. -/
def reuseStore : Option Database := do
  let db ← Templates.upsert .empty System.plainTemplate 1 1
  let db ← Templates.upsert db ⟨"goodbye", .email, "Bye", "Goodbye"⟩ 2 2
  pure (createMessage System.plainEngine 0 "M1" true db (some 1) "key" (System.plainData none)).db

def otherTemplate : MessageData := { System.plainData none with template := some "goodbye" }

def otherRecipient : MessageData := { System.plainData none with recipient := "eve@example.com" }

/-- Another recipient is told from the first one. -/
theorem reused_key_checked_recipient :
    ∃ db message, reuseStore = some db ∧ message ∈ db.messages.rows ∧
      ReuseChecked db message otherRecipient
        (createMessage System.plainEngine 1 "M2" true db (some 1) message.idempotencyKey
          otherRecipient) := by
  refine ⟨_, _, rfl, List.mem_cons_self, ?_⟩
  exact (reused_key_checked List.mem_cons_self rfl System.plainEngine 1 "M2" true
    otherRecipient).mpr (.inr (.inl (by decide)))

/-- Another template is not: the request is answered with the old message. -/
theorem reused_key_other_template :
    ∃ db message, reuseStore = some db ∧ message ∈ db.messages.rows ∧
      message.apiKey = some 1 ∧ ¬Agrees db message otherTemplate ∧
      (createMessage System.plainEngine 1 "M2" true db (some 1) message.idempotencyKey
        otherTemplate).result = .ok (message, false) := by
  refine ⟨_, _, rfl, List.mem_cons_self, rfl, fun h => ?_, rfl⟩
  have htemplate := h.template
  revert htemplate
  decide

end Scenario

end NotifyRelay
