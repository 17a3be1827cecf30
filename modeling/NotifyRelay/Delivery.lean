import NotifyRelay.Models

/-! `tasks/delivery.py`: what each transaction of `_dispatch` decides and writes. -/
namespace NotifyRelay

structure ChannelResult where
  success : Bool
  transient : Bool
  errorMessage : String := ""
  httpStatus : Option Int := none
  smtpCode : Option Int := none
  deriving DecidableEq, Repr

/-- A delivery task as the broker holds it. `channel` tells `send_email` from
`send_webhook`; a retry keeps the id and counts up `retries`. -/
structure Task where
  id : TaskId
  message : MessageId
  channel : Channel
  queue : Priority
  retries : Nat
  deriving DecidableEq, Repr

abbrev MessageUpdate := Table.Update Message.id Message.idempotencyPair

namespace Delivery

def maxRetries : Nat := 6

/-- `enqueue_for`. -/
def enqueueFor (message : Message) (id : TaskId) : Task where
  id := id
  message := message.id
  channel := if message.channel = .email then .email else .webhook
  queue := message.priority
  retries := 0

def claimUpdate (owner : TaskId) (now : Time) : MessageUpdate where
  apply := fun m => { m with status := .sending, claimedBy := owner, updatedAt := now }
  key_apply := fun _ => rfl
  index_apply := fun _ => .inl rfl

/-- `msg.save(update_fields=["status", "updated_at"])`. -/
def statusUpdate (status : MessageStatus) (now : Time) : MessageUpdate where
  apply := fun m => { m with status := status, updatedAt := now }
  key_apply := fun _ => rfl
  index_apply := fun _ => .inl rfl

/-- UPDATE of the one row with this primary key. -/
def save (messages : MessageTable) (id : MessageId) (u : MessageUpdate) : MessageTable :=
  messages.update (fun m => m.id == id) u

inductive Claim where
  | noop
  | duplicate
  | claimed
  deriving DecidableEq, Repr

/-- The checks under the row lock. -/
def claim (message : Message) (owner : TaskId) : Claim :=
  if message.status.terminal then .noop
  else if message.status = .sending ∧ message.claimedBy ≠ owner then .duplicate
  else .claimed

/-- What `channel.send` does. -/
inductive SendOutcome where
  | returned (result : ChannelResult)
  | raised (repr : String)
  deriving DecidableEq, Repr

/-- An unexpected exception counts as a transient failure. -/
def SendOutcome.result : SendOutcome → ChannelResult
  | .returned result => result
  | .raised repr => { success := false, transient := true, errorMessage := repr }

/-- `_map_result`. -/
def mapResult (result : ChannelResult) : AttemptResult :=
  if result.success then .success
  else if result.transient then .transientError
  else .permanentError

/-- `msg.attempts.count() + 1`. -/
def nextAttemptNo (attempts : AttemptTable) (message : MessageId) : Nat :=
  (attempts.rows.filter fun a => a.message == message).length + 1

def newAttempt (message : MessageId) (attemptNo : Nat) (started finished : Time)
    (result : ChannelResult) : DeliveryAttempt where
  message := message
  attemptNo := attemptNo
  startedAt := started
  finishedAt := finished
  result := mapResult result
  httpStatus := result.httpStatus
  smtpCode := result.smtpCode
  errorMessage := result.errorMessage

/-- `DeliveryAttempt.objects.create`; `none` is an `IntegrityError`, from the
foreign key, the checks or the unique attempt number, or the `DataError` of a value that
its column does not take. -/
def insertAttempt (db : Database) (attempt : DeliveryAttempt) : Option Database :=
  if (db.messages.find? attempt.message).isSome ∧ attempt.checks then
    (db.attempts.insert? attempt).map fun attempts => { db with attempts := attempts }
  else none

/-- `_snapshot`. -/
def snapshot (message : Message) : Snapshot where
  id := message.id
  channel := message.channel
  recipient := message.recipient
  renderedSubject := message.renderedSubject
  renderedBody := message.renderedBody
  context := message.context
  priority := message.priority

/-- The last branch of `_dispatch`, once the attempt is recorded. -/
inductive Verdict where
  | sent
  | deadLetter (status : MessageStatus) (reason : String)
  | transientError (text : String)
  deriving DecidableEq, Repr

def verdict (result : ChannelResult) (retriesDone : Nat) : Verdict :=
  if result.success then .sent
  else if !result.transient then .deadLetter .failed ("permanent: " ++ result.errorMessage)
  else if maxRetries ≤ retriesDone then .deadLetter .dead ("exhausted: " ++ result.errorMessage)
  else .transientError
    (if result.errorMessage = "" then "transient failure" else result.errorMessage)

/-- The SENT save; `none` is the `DatabaseError` of a save that matches no row. -/
def saveSent (db : Database) (message : Message) (now : Time) : Option Database :=
  if (db.messages.find? message.id).isSome then
    some { db with messages := save db.messages message.id (statusUpdate .sent now) }
  else none

/-- `_move_to_dead_letter`, one transaction: the save and `get_or_create`. -/
def moveToDeadLetter (db : Database) (message : Message) (status : MessageStatus)
    (reason : String) (now : Time) : Option Database :=
  if (db.messages.find? message.id).isSome then
    let messages := save db.messages message.id (statusUpdate status now)
    match db.deadLetters.find? message.id with
    | some _ => some { db with messages := messages }
    | none =>
        (db.deadLetters.insert? ⟨message.id, reason, snapshot message, now⟩).map fun letters =>
          { db with messages := messages, deadLetters := letters }
  else none

/-- The task `autoretry_for` publishes for a `TransientError`. -/
def retryOf (task : Task) : Task :=
  { task with retries := task.retries + 1 }

@[simp] theorem claimUpdate_apply (owner : TaskId) (now : Time) (m : Message) :
    (claimUpdate owner now).apply m =
      { m with status := .sending, claimedBy := owner, updatedAt := now } := rfl

@[simp] theorem statusUpdate_apply (status : MessageStatus) (now : Time) (m : Message) :
    (statusUpdate status now).apply m = { m with status := status, updatedAt := now } := rfl

theorem claim_eq_claimed {message : Message} {owner : TaskId} :
    claim message owner = .claimed ↔
      message.status = .queued ∨ message.status = .sending ∧ message.claimedBy = owner := by
  unfold claim
  cases message.status <;> simp [MessageStatus.terminal]

theorem claim_of_terminal {message : Message} {owner : TaskId}
    (h : message.status.terminal = true) : claim message owner = .noop :=
  if_pos h

theorem verdict_deadLetter {result : ChannelResult} {retriesDone : Nat} {status : MessageStatus}
    {reason : String} (h : verdict result retriesDone = .deadLetter status reason) :
    result.success = false ∧ (status = .failed ∨ status = .dead) := by
  unfold verdict at h
  split at h
  · contradiction
  · rename_i hsuccess
    refine ⟨by simpa using hsuccess, ?_⟩
    split at h
    · cases h
      exact .inl rfl
    · split at h
      · cases h
        exact .inr rfl
      · contradiction

theorem verdict_sent {result : ChannelResult} {retriesDone : Nat} :
    verdict result retriesDone = .sent ↔ result.success = true := by
  unfold verdict
  repeat' split
  all_goals simp_all

theorem mapResult_success {result : ChannelResult} :
    mapResult result = .success ↔ result.success = true := by
  unfold mapResult
  repeat' split
  all_goals simp_all

theorem insertAttempt_eq_some {db db' : Database} {attempt : DeliveryAttempt}
    (h : insertAttempt db attempt = some db') :
    ∃ attempts, db.attempts.insert? attempt = some attempts ∧
      db' = { db with attempts := attempts } ∧
      (db.messages.find? attempt.message).isSome ∧ attempt.checks = true := by
  unfold insertAttempt at h
  split at h
  next hguard =>
    obtain ⟨attempts, hattempts, rfl⟩ := Option.map_eq_some_iff.mp h
    exact ⟨attempts, hattempts, rfl, hguard⟩
  next => contradiction

/-- Both terminal transactions write the status of the one row and keep the rest
of the table; the dead letters only grow, by one for this message. -/
theorem moveToDeadLetter_eq_some {db db' : Database} {message : Message}
    {status : MessageStatus} {reason : String} {now : Time}
    (h : moveToDeadLetter db message status reason now = some db') :
    (db.messages.find? message.id).isSome ∧
      db'.messages = save db.messages message.id (statusUpdate status now) ∧
      db'.attempts = db.attempts ∧ db'.templates = db.templates ∧
      db'.templateVersions = db.templateVersions ∧
      ∀ letter, letter ∈ db'.deadLetters.rows →
        letter ∈ db.deadLetters.rows ∨
          letter = ⟨message.id, reason, snapshot message, now⟩ := by
  unfold moveToDeadLetter at h
  split at h
  next hrow =>
    refine ⟨hrow, ?_⟩
    split at h
    next =>
      cases h
      exact ⟨rfl, rfl, rfl, rfl, fun _ hl => .inl hl⟩
    next =>
      obtain ⟨letters, hletters, rfl⟩ := Option.map_eq_some_iff.mp h
      exact ⟨rfl, rfl, rfl, rfl, fun _ hl => (db.deadLetters.mem_insert hletters).mp hl⟩
  next => contradiction

theorem saveSent_eq_some {db db' : Database} {message : Message} {now : Time}
    (h : saveSent db message now = some db') :
    (db.messages.find? message.id).isSome ∧
      db' = { db with messages := save db.messages message.id (statusUpdate .sent now) } := by
  unfold saveSent at h
  split at h
  next hrow =>
    cases h
    exact ⟨hrow, rfl⟩
  next => contradiction

theorem saveSent_eq_none {db : Database} {message : Message} {now : Time} :
    saveSent db message now = none ↔ db.messages.find? message.id = none := by
  simp [saveSent]

/-- `get_or_create` inserts only what it did not find, so nothing can clash. -/
theorem moveToDeadLetter_eq_none {db : Database} {message : Message} {status : MessageStatus}
    {reason : String} {now : Time} :
    moveToDeadLetter db message status reason now = none ↔
      db.messages.find? message.id = none := by
  unfold moveToDeadLetter
  split
  next hrow =>
    refine iff_of_false ?_ fun hnone => by simp [hnone] at hrow
    split
    next => exact Option.some_ne_none _
    next hfind =>
      rw [Option.map_eq_none_iff]
      intro hinsert
      obtain ⟨letter, hletter, hkey | ⟨i, _, hi⟩⟩ := db.deadLetters.insert?_eq_none hinsert
      · exact db.deadLetters.find?_eq_none.mp hfind letter hletter hkey
      · exact i.elim
  next hrow => simpa using hrow

end Delivery
end NotifyRelay
