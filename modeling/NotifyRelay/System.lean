import NotifyRelay.Library.Pool
import NotifyRelay.Library.Transition
import NotifyRelay.Scheduler
import NotifyRelay.Services
import NotifyRelay.Templates

/-! The relay as one transition system. API calls, Beat's jobs and delivery runs
are processes; a step is one database transaction, one message to the broker, one
reading of the clock or one call of a channel. Whatever is decided outside the
program (the order of the steps, the texts Jinja2 gives, what PostgreSQL takes, results of channels,
crashes, what the broker keeps and delivers) is part of the action. -/
namespace NotifyRelay

open Services Delivery Scheduler

/-- Who publishes a new delivery task. -/
inductive Source where
  | call (c : Nat)
  | beat (b : Nat)
  deriving DecidableEq, Repr

inductive Declined where
  | missing
  | noop
  | duplicate
  deriving DecidableEq, Repr

/-- The observable history of a run. -/
inductive Event where
  /-- A call committed a new row. -/
  | inserted (c : Nat) (row : Message)
  /-- A `dispatch_scheduled` run put a row back to `queued` with this `enqueued_at`. -/
  | released (b : Nat) (message : MessageId) (stamp : Time)
  | published (source : Source) (task : Task) (stamp time : Time)
  | refused (source : Source) (message : MessageId)
  | retried (r : Nat) (task : Task) (time : Time)
  | declined (task : Task) (outcome : Declined)
  | sendInvoked (r : Nat) (message : Message) (time : Time)

inductive CreatePc where
  | begun
  | missed
  | rendered (version : TemplateVersion) (rendered : RenderOutcome)
  | timed (version : TemplateVersion) (rendered : RenderOutcome) (now : Time)
  /-- The insert has lost; `context` is what the payload has for one by now. -/
  | raced (context : PyContext)
  /-- The row is committed and its task not yet published. -/
  | committed (message : Message) (now : Time)
  | returned (message : Message) (created : Bool)
  | raised (error : CreateError)
  | crashed

def CreatePc.running : CreatePc → Bool
  | .returned .. | .raised _ | .crashed => false
  | _ => true

/-- A call of `create_message`. -/
structure CreateCall where
  apiKey : Option ApiKeyId
  idempotencyKey : String
  data : MessageData
  now : Option Time
  pc : CreatePc

inductive BeatPc where
  | selecting (now : Time)
  | enqueueing (now : Time) (count : Nat) (remaining : List Message)
  | returned (count : Nat)
  | failed
  | crashed

def BeatPc.running : BeatPc → Bool
  | .selecting _ | .enqueueing .. => true
  | _ => false

inductive DeliveryEnd where
  | sent
  | deadLetter (status : MessageStatus)
  | retried
  | aborted
  | crashed
  deriving DecidableEq, Repr

inductive DeliveryPc where
  | claimed
  | sending (started : Time)
  | sent (started finished : Time) (result : ChannelResult)
  | counted (started finished : Time) (result : ChannelResult) (attemptNo : Nat)
  | recorded (result : ChannelResult)
  | ended (how : DeliveryEnd)
  deriving DecidableEq, Repr

def DeliveryPc.live : DeliveryPc → Bool
  | .ended _ => false
  | _ => true

/-- A run of `_dispatch` that claimed its message. `message` is the object in
memory, as saved by the claim. -/
structure DeliveryRun where
  task : Task
  message : Message
  pc : DeliveryPc

def DeliveryRun.live (run : DeliveryRun) : Bool := run.pc.live

inductive CleanupPc where
  | looping (cutoff : Time)
  | deleting (cutoff : Time) (ids : List MessageId)
  | returned
  | crashed

structure System where
  clock : Time
  db : Database
  /-- Tasks the broker holds. A delivered task stays until it is acknowledged or
  lost, so it may be delivered again. -/
  broker : List Task
  calls : List CreateCall
  beats : List BeatPc
  runs : List DeliveryRun
  cleanups : List CleanupPc
  /-- Newest first. -/
  log : List Event

namespace System

def init (clock : Time) : System := ⟨clock, .empty, [], [], [], [], [], []⟩

inductive CallAction where
  | lookup
  | render (engine : Engine)
  | readClock
  | insert (id : MessageId) (postgres : Postgres)
  | lookupAgain
  | publish (id : TaskId) (accepted : Bool)
  | crash

inductive BeatAction where
  | select (locked : List MessageId)
  | publish (id : TaskId) (accepted : Bool)
  | finish
  | crash

inductive RunAction where
  | sendStart
  | sendEnd (outcome : SendOutcome)
  | count
  | record
  /-- `accepted` tells whether the broker takes a retry, if there is one. -/
  | finish (accepted : Bool)
  | crash

inductive CleanupAction where
  | select
  | delete
  | crash

inductive Action where
  | tick (elapsed : Nat)
  | begin (apiKey : Option ApiKeyId) (idempotencyKey : String) (data : MessageData)
  | call (c : Nat) (action : CallAction)
  | beginBeat
  | beat (b : Nat) (action : BeatAction)
  | deliver (task : Task)
  | run (r : Nat) (action : RunAction)
  /-- The broker forgets a task: acknowledged or lost. -/
  | drop (task : Task)
  | beginCleanup
  | cleanup (k : Nat) (action : CleanupAction)
  | upsertTemplate (request : Templates.UpsertRequest) (templateId : TemplateId)
      (versionId : TemplateVersionId)
  | destroyTemplate (template : TemplateId)

/-- ULIDs are never generated twice. -/
def freshMessage (log : List Event) (id : MessageId) : Bool :=
  log.all fun
    | .inserted _ row => row.id != id
    | _ => true

/-- Nor are task ids; a retry is not a new task. -/
def freshTask (log : List Event) (id : TaskId) : Bool :=
  id != "" && log.all fun
    | .published _ task _ _ => task.id != id
    | _ => true

def replayed (context : PyContext) (existing : Message) (data : MessageData) : CreatePc :=
  match replayWith context existing data with
  | .ok message => .returned message false
  | .error error => .raised error

/-- The `on_commit` hook is only there when the message is to be sent now. -/
def afterInsert (data : MessageData) (message : Message) (now : Time) : CreatePc :=
  if sendNow data now then .committed message now else .returned message true

def setCall (s : System) (c : Nat) (call : CreateCall) (pc : CreatePc) : System :=
  { s with calls := s.calls.set c { call with pc := pc } }

def setBeat (s : System) (b : Nat) (pc : BeatPc) : System :=
  { s with beats := s.beats.set b pc }

def setRun (s : System) (r : Nat) (run : DeliveryRun) (pc : DeliveryPc) : System :=
  { s with runs := s.runs.set r { run with pc := pc } }

def setCleanup (s : System) (k : Nat) (pc : CleanupPc) : System :=
  { s with cleanups := s.cleanups.set k pc }

def setMessages (s : System) (messages : MessageTable) : System :=
  { s with db := { s.db with messages := messages } }

def setDb (s : System) (db : Database) : System :=
  { s with db := db }

def record (s : System) (events : List Event) : System :=
  { s with log := events ++ s.log }

/-- The broker takes a task that `source` publishes. -/
def accept (s : System) (task : Task) : System :=
  { s with broker := task :: s.broker }

/-- One step of `create_message`. -/
def stepCall (s : System) (c : Nat) (call : CreateCall) : CallAction → CreatePc → Option System
  | .lookup, .begun =>
      match findExisting s.db call.apiKey call.idempotencyKey with
      | some existing => some (s.setCall c call (replayed (pristine call.data) existing call.data))
      | none => some (s.setCall c call .missed)
  | .render engine, .missed =>
      match resolveAndRender engine s.db call.data with
      | .error error => some (s.setCall c call (.raised error))
      | .ok (version, rendered) => some (s.setCall c call (.rendered version rendered))
  | .readClock, .rendered version rendered =>
      some (s.setCall c { call with now := some s.clock } (.timed version rendered s.clock))
  | .insert id postgres, .timed version rendered now =>
      if freshMessage s.log id then
        match postgres.store (messageValues call.idempotencyKey call.data rendered) with
        | .error exception => some (s.setCall c call (.raised (.notStored exception)))
        | .ok context =>
            let message := newMessage id call.apiKey call.idempotencyKey call.data version
              rendered.toRenderedMessage context now s.clock
            match s.db.messages.insert? message with
            | some messages =>
                some (((s.setCall c call (afterInsert call.data message now)).setMessages
                  messages).record [.inserted c message])
            | none => some (s.setCall c call (.raced (keptContext call.data rendered)))
      else none
  | .lookupAgain, .raced context =>
      match findExisting s.db call.apiKey call.idempotencyKey with
      | some existing => some (s.setCall c call (replayed context existing call.data))
      | none => some (s.setCall c call (.raised .integrityError))
  | .publish id accepted, .committed message now =>
      let t := s.setCall c call (.returned message true)
      if accepted then
        if freshTask s.log id then
          let task := enqueueFor message id
          some ((t.accept task).record [.published (.call c) task now s.clock])
        else none
      else some (t.record [.refused (.call c) message.id])
  | .crash, pc => if pc.running then some (s.setCall c call .crashed) else none
  | _, _ => none

/-- One step of `dispatch_scheduled`. A `BrokerError` in `_enqueue_all` ends the run. -/
def stepBeat (s : System) (b : Nat) : BeatAction → BeatPc → Option System
  | .select locked, .selecting now =>
      let batch := dispatchBatch s.db.messages now locked
      some (((s.setBeat b (.enqueueing now batch.length batch)).setMessages
        (release s.db.messages batch now)).record (batch.map fun m => .released b m.id now))
  | .publish id accepted, .enqueueing now count (message :: rest) =>
      if accepted then
        if freshTask s.log id then
          let task := enqueueFor message id
          some (((s.setBeat b (.enqueueing now count rest)).accept task).record
            [.published (.beat b) task now s.clock])
        else none
      else some ((s.setBeat b .failed).record [.refused (.beat b) message.id])
  | .finish, .enqueueing _ count [] => some (s.setBeat b (.returned count))
  | .crash, pc => if pc.running then some (s.setBeat b .crashed) else none
  | _, _ => none

/-- The claim transaction of `_dispatch`, at the start of a run. -/
def stepDeliver (s : System) (task : Task) : Option System :=
  if task ∈ s.broker then
    match s.db.messages.find? task.message with
    | none => some (s.record [.declined task .missing])
    | some message =>
        match claim message task.id with
        | .noop => some (s.record [.declined task .noop])
        | .duplicate => some (s.record [.declined task .duplicate])
        | .claimed =>
            let u := claimUpdate task.id s.clock
            some { s.setMessages (save s.db.messages message.id u) with
              runs := Pool.spawn s.runs ⟨task, u.apply message, .claimed⟩ }
  else none

/-- One step of a `_dispatch` run after its claim. -/
def stepRun (s : System) (r : Nat) (run : DeliveryRun) : RunAction → DeliveryPc → Option System
  | .sendStart, .claimed =>
      some ((s.setRun r run (.sending s.clock)).record [.sendInvoked r run.message s.clock])
  | .sendEnd outcome, .sending started =>
      some (s.setRun r run (.sent started s.clock outcome.result))
  | .count, .sent started finished result =>
      some (s.setRun r run (.counted started finished result
        (nextAttemptNo s.db.attempts run.message.id)))
  | .record, .counted started finished result attemptNo =>
      match insertAttempt s.db (newAttempt run.message.id attemptNo started finished result) with
      | some db => some ((s.setRun r run (.recorded result)).setDb db)
      | none => some (s.setRun r run (.ended .aborted))
  | .finish accepted, .recorded result =>
      match verdict result run.task.retries with
      | .sent =>
          match saveSent s.db run.message s.clock with
          | some db => some ((s.setRun r run (.ended .sent)).setDb db)
          | none => some (s.setRun r run (.ended .aborted))
      | .deadLetter status reason =>
          match moveToDeadLetter s.db run.message status reason s.clock with
          | some db => some ((s.setRun r run (.ended (.deadLetter status))).setDb db)
          | none => some (s.setRun r run (.ended .aborted))
      | .transientError _ =>
          let t := s.setRun r run (.ended .retried)
          if accepted then
            some ((t.accept (retryOf run.task)).record [.retried r (retryOf run.task) s.clock])
          else some t
  | .crash, pc => if pc.live then some (s.setRun r run (.ended .crashed)) else none
  | _, _ => none

/-- One step of `cleanup_old_messages`. -/
def stepCleanup (s : System) (k : Nat) : CleanupAction → CleanupPc → Option System
  | .select, .looping cutoff =>
      match cleanupBatch s.db.messages cutoff with
      | [] => some (s.setCleanup k .returned)
      | ids => some (s.setCleanup k (.deleting cutoff ids))
  | .delete, .deleting cutoff ids =>
      let t := s.setDb (deleteMessages s.db ids)
      if ids.length < cleanupBatchSize then some (t.setCleanup k .returned)
      else some (t.setCleanup k (.looping cutoff))
  | .crash, .looping _ => some (s.setCleanup k .crashed)
  | .crash, .deleting .. => some (s.setCleanup k .crashed)
  | _, _ => none

def step (s : System) : Action → Option System
  | .tick elapsed => some { s with clock := s.clock + elapsed }
  | .begin apiKey idempotencyKey data =>
      some { s with calls := Pool.spawn s.calls ⟨apiKey, idempotencyKey, data, none, .begun⟩ }
  | .call c action => s.calls[c]?.bind fun call => s.stepCall c call action call.pc
  | .beginBeat => some { s with beats := Pool.spawn s.beats (.selecting s.clock) }
  | .beat b action => s.beats[b]?.bind fun pc => s.stepBeat b action pc
  | .deliver task => s.stepDeliver task
  | .run r action => s.runs[r]?.bind fun run => s.stepRun r run action run.pc
  | .drop task => if task ∈ s.broker then some { s with broker := s.broker.erase task } else none
  | .beginCleanup =>
      some { s with cleanups := Pool.spawn s.cleanups (.looping (s.clock - cleanupAge)) }
  | .cleanup k action => s.cleanups[k]?.bind fun pc => s.stepCleanup k action pc
  | .upsertTemplate request templateId versionId =>
      some (match Templates.upsert s.db request templateId versionId with
        | some db => s.setDb db
        | none => s)
  | .destroyTemplate template => some (s.setDb (Templates.destroy s.db template s.clock))

abbrev Reaches (allowed : System → Action → Prop) : System → System → Prop :=
  Transition.Reaches (Transition.graph step) allowed

/-- The states some run reaches from an empty store under `allowed`. -/
def Reachable (allowed : System → Action → Prop) (s : System) : Prop :=
  ∃ clock, Reaches allowed (init clock) s

section Scenario

/-- It takes what is storable and no template has changed, and keeps all numbers. -/
def plainPostgres : Postgres where
  store values :=
    match values.context with
    | .parsed context =>
        if values.storable then .ok context
        else .error ⟨"DataError", "PostgreSQL text fields cannot contain NUL (0x00) bytes"⟩
    | .changed _ _ => .error ⟨"TypeError", "Object of type function is not JSON serializable"⟩
  refused values h := by
    cases values.context
    · exact ⟨_, if_neg (by simp [h])⟩
    · exact ⟨_, rfl⟩
  kept values context stored hcontext hsmall h := by
    simp only [hcontext] at h
    split at h <;> cases h
    exact JsonObject.pyEq_refl context

/-- An engine for which every template is its own text. -/
def plainEngine : Engine where
  jinja _ source _ := .ok source
  leaves _ _ context := context
  jsonLoads _ := .value
  postgres := plainPostgres

def plainTemplate : Templates.UpsertRequest := ⟨"welcome", .email, "Hi", "Hello"⟩

def plainData (scheduledAt : Option Time) : MessageData where
  channel := .email
  recipient := "user@example.com"
  template := some "welcome"
  templateVersion := none
  context := none
  priority := none
  scheduledAt := scheduledAt

/-- The steps by which call `c` commits a row. -/
def creating (c : Nat) (scheduledAt : Option Time) (id : MessageId) : List Action :=
  [.begin (some 1) "key" (plainData scheduledAt), .call c .lookup, .call c (.render plainEngine),
    .call c .readClock, .call c (.insert id plainPostgres)]

/-- A first message, handed to the broker as task `T1`. -/
def opening : List Action :=
  .upsertTemplate plainTemplate 1 1 :: creating 0 none "M1" ++ [.call 0 (.publish "T1" true)]

def firstTask : Task := ⟨"T1", "M1", .email, .default, 0⟩

end Scenario

end System
end NotifyRelay
