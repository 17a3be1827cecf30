import NotifyRelay.Json
import NotifyRelay.Library.Table

/-! The rows the relay stores, with the constraints the database enforces on
them. Columns that no modelled operation reads are left out. -/
namespace NotifyRelay

/-- Microseconds since the epoch, the resolution of a stored `datetime`. -/
abbrev Time := Int

def seconds (n : Int) : Time := n * 1000000
def minutes (n : Int) : Time := seconds (n * 60)
def hours (n : Int) : Time := minutes (n * 60)
def days (n : Int) : Time := hours (n * 24)

abbrev ApiKeyId := Nat
abbrev TemplateId := Nat
abbrev TemplateVersionId := Nat
/-- A ULID. -/
abbrev MessageId := String
/-- A Celery task id. -/
abbrev TaskId := String

inductive Channel where
  | email
  | webhook
  deriving DecidableEq, Repr

def Channel.value : Channel → String
  | .email => "email"
  | .webhook => "webhook"

inductive Priority where
  | high
  | default
  | low
  deriving DecidableEq, Repr

inductive MessageStatus where
  | queued
  | sending
  | sent
  | failed
  | dead
  deriving DecidableEq, Repr

/-- `{SENT, FAILED, DEAD}`, the statuses `_dispatch` and the clean-up job look for. -/
def MessageStatus.terminal : MessageStatus → Bool
  | .sent | .failed | .dead => true
  | .queued | .sending => false

inductive AttemptResult where
  | success
  | transientError
  | permanentError
  deriving DecidableEq, Repr

structure Template where
  id : TemplateId
  name : String
  channel : Channel
  deletedAt : Option Time

def Template.alive (template : Template) : Bool :=
  template.deletedAt.isNone

/-- `template_name_unique_alive`: names are unique among the alive templates. -/
def Template.aliveName (template : Template) : Option String :=
  if template.alive then some template.name else none

structure TemplateVersion where
  id : TemplateVersionId
  template : TemplateId
  version : Nat
  subjectTemplate : String
  bodyTemplate : String

/-- `template_version_unique`. -/
def TemplateVersion.number (version : TemplateVersion) : Option (TemplateId × Nat) :=
  some (version.template, version.version)

structure Message where
  id : MessageId
  idempotencyKey : String
  apiKey : Option ApiKeyId
  channel : Channel
  recipient : String
  templateVersion : Option TemplateVersionId
  renderedSubject : String
  renderedBody : String
  context : JsonObject
  priority : Priority
  status : MessageStatus
  scheduledAt : Option Time
  enqueuedAt : Option Time
  claimedBy : String
  createdAt : Time
  updatedAt : Time

/-- `message_idempotency_unique`; rows without an API key are not constrained,
as NULLs are distinct in a unique index. -/
def Message.idempotencyPair (message : Message) : Option (ApiKeyId × String) :=
  message.apiKey.map fun apiKey => (apiKey, message.idempotencyKey)

structure DeliveryAttempt where
  message : MessageId
  attemptNo : Nat
  startedAt : Time
  finishedAt : Time
  result : AttemptResult
  httpStatus : Option Int
  smtpCode : Option Int
  errorMessage : String

/-- `delivery_attempt_unique`. -/
def DeliveryAttempt.number (attempt : DeliveryAttempt) : MessageId × Nat :=
  (attempt.message, attempt.attemptNo)

/-- The values of a `PositiveIntegerField`: an `integer` with the check `>= 0`. -/
def storableInteger (n : Int) : Bool := decide (0 ≤ n) && decide (n ≤ 2147483647)

/-- A text of PostgreSQL has no NUL in it. -/
def storableText (text : String) : Bool := !text.toList.contains '\x00'

/-- What the columns take. -/
def DeliveryAttempt.checks (attempt : DeliveryAttempt) : Bool :=
  attempt.httpStatus.all storableInteger && attempt.smtpCode.all storableInteger &&
    storableText attempt.errorMessage

/-- The dict `_snapshot` builds. -/
structure Snapshot where
  id : MessageId
  channel : Channel
  recipient : String
  renderedSubject : String
  renderedBody : String
  context : JsonObject
  priority : Priority

structure DeadLetter where
  message : MessageId
  reason : String
  payloadSnapshot : Snapshot
  createdAt : Time

def unindexed {ρ : Type} (_ : ρ) : Option Empty := none

abbrev TemplateTable := Table Template.id Template.aliveName
abbrev TemplateVersionTable := Table TemplateVersion.id TemplateVersion.number
abbrev MessageTable := Table Message.id Message.idempotencyPair
abbrev AttemptTable := Table DeliveryAttempt.number (unindexed (ρ := DeliveryAttempt))
abbrev DeadLetterTable := Table DeadLetter.message (unindexed (ρ := DeadLetter))

structure Database where
  templates : TemplateTable
  templateVersions : TemplateVersionTable
  messages : MessageTable
  attempts : AttemptTable
  deadLetters : DeadLetterTable

def Database.empty : Database := ⟨.empty, .empty, .empty, .empty, .empty⟩

end NotifyRelay
