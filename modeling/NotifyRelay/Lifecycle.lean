import NotifyRelay.System

/-! What a message goes through, without the processes that drive it. An abstract
step names every way rows, runs, the broker and the history can change; the
steps of the relay refine it. -/
namespace NotifyRelay

open Services Delivery Scheduler

structure Lifecycle where
  clock : Time
  messages : MessageTable
  attempts : AttemptTable
  deadLetters : DeadLetterTable
  runs : List DeliveryRun
  broker : List Task
  /-- The messages a source has stamped and not yet published. -/
  pending : Source → List (MessageId × Time)
  /-- The sources that will not stamp any more. -/
  spent : Source → Bool
  /-- The messages a clean-up job is about to delete. -/
  doomed : List MessageId
  log : List Event

/-- The process that takes the step, where it is one that publishes. -/
def System.Action.source : System.Action → Option Source
  | .call c _ => some (.call c)
  | .beat b _ => some (.beat b)
  | _ => none

def System.Action.delivered : System.Action → Option Task
  | .deliver task => some task
  | _ => none

namespace Lifecycle

def setRun (v : Lifecycle) (r : Nat) (run : DeliveryRun) (pc : DeliveryPc) : Lifecycle :=
  { v with runs := v.runs.set r { run with pc := pc } }

def settled (v : Lifecycle) (source : Source) (rest : List (MessageId × Time)) : Lifecycle :=
  { v with
    pending := Function.update v.pending source rest
    spent := Function.update v.spent source true }

def setMessages (v : Lifecycle) (messages : MessageTable) : Lifecycle :=
  { v with messages := messages }

def accept (v : Lifecycle) (task : Task) : Lifecycle :=
  { v with broker := task :: v.broker }

def record (v : Lifecycle) (events : List Event) : Lifecycle :=
  { v with log := events ++ v.log }

theorem pending_settled (v : Lifecycle) (source : Source) (rest : List (MessageId × Time))
    (other : Source) :
    (v.settled source rest).pending other = if other = source then rest else v.pending other :=
  Function.update_apply ..

theorem spent_settled (v : Lifecycle) (source : Source) (rest : List (MessageId × Time))
    (other : Source) :
    (v.settled source rest).spent other = if other = source then true else v.spent other :=
  Function.update_apply ..

/-- `insert` and `release` stamp messages, `publish` hands them to the broker. -/
inductive Step : Lifecycle → System.Action → Lifecycle → Prop
  | tick (v : Lifecycle) (elapsed : Nat) :
      Step v (.tick elapsed) { v with clock := v.clock + elapsed }
  | settle (v : Lifecycle) (a : System.Action) (source : Source)
      (hsource : a.source = some source) : Step v a (v.settled source [])
  | refuse (v : Lifecycle) (a : System.Action) (source : Source) (id : MessageId)
      (hsource : a.source = some source) :
      Step v a ((v.settled source []).record [.refused source id])
  | insert (v : Lifecycle) (c : Nat) (id : MessageId) (apiKey : Option ApiKeyId) (key : String)
      (data : MessageData) (version : TemplateVersion) (rendered : RenderedMessage)
      (context : JsonObject) (now : Time) (postgres : Postgres) (messages : MessageTable)
      (hspent : v.spent (.call c) = false) (hfresh : System.freshMessage v.log id = true)
      (hnow : now ≤ v.clock)
      (hinsert : v.messages.insert?
        (newMessage id apiKey key data version rendered context now v.clock) = some messages) :
      Step v (.call c (.insert id postgres))
        (((v.settled (.call c) (if sendNow data now then [(id, now)] else [])).setMessages
          messages).record
            [.inserted c (newMessage id apiKey key data version rendered context now v.clock)])
  | release (v : Lifecycle) (b : Nat) (now : Time) (locked : List MessageId)
      (hspent : v.spent (.beat b) = false) (hnow : now ≤ v.clock) :
      Step v (.beat b (.select locked))
        (((v.settled (.beat b)
          ((dispatchBatch v.messages now locked).map fun m => (m.id, now))).setMessages
            (Scheduler.release v.messages (dispatchBatch v.messages now locked) now)).record
              ((dispatchBatch v.messages now locked).map fun m => .released b m.id now))
  | publish (v : Lifecycle) (a : System.Action) (source : Source) (message : Message)
      (stamp : Time) (rest : List (MessageId × Time)) (id : TaskId)
      (hsource : a.source = some source)
      (hpending : v.pending source = (message.id, stamp) :: rest)
      (hfresh : System.freshTask v.log id = true) :
      Step v a (((v.settled source rest).accept (enqueueFor message id)).record
        [.published source (enqueueFor message id) stamp v.clock])
  | decline (v : Lifecycle) (task : Task) (outcome : Declined) :
      Step v (.deliver task) (v.record [.declined task outcome])
  | claim (v : Lifecycle) (task : Task) (message : Message) (hbroker : task ∈ v.broker)
      (hrow : v.messages.find? task.message = some message)
      (hclaim : Delivery.claim message task.id = .claimed) :
      Step v (.deliver task)
        { v with
          messages := save v.messages message.id (claimUpdate task.id v.clock)
          runs := Pool.spawn v.runs
            ⟨task, (claimUpdate task.id v.clock).apply message, .claimed⟩ }
  | sendStart (v : Lifecycle) (r : Nat) (run : DeliveryRun) (hrun : v.runs[r]? = some run)
      (hpc : run.pc = .claimed) :
      Step v (.run r .sendStart)
        ((v.setRun r run (.sending v.clock)).record [.sendInvoked r run.message v.clock])
  | sendEnd (v : Lifecycle) (r : Nat) (run : DeliveryRun) (started : Time)
      (outcome : SendOutcome) (hrun : v.runs[r]? = some run) (hpc : run.pc = .sending started) :
      Step v (.run r (.sendEnd outcome)) (v.setRun r run (.sent started v.clock outcome.result))
  | count (v : Lifecycle) (r : Nat) (run : DeliveryRun) (started finished : Time)
      (result : ChannelResult) (hrun : v.runs[r]? = some run)
      (hpc : run.pc = .sent started finished result) :
      Step v (.run r .count)
        (v.setRun r run (.counted started finished result
          (nextAttemptNo v.attempts run.message.id)))
  | attempt (v : Lifecycle) (r : Nat) (run : DeliveryRun) (started finished : Time)
      (result : ChannelResult) (attemptNo : Nat) (attempts : AttemptTable)
      (hrun : v.runs[r]? = some run) (hpc : run.pc = .counted started finished result attemptNo)
      (hrow : (v.messages.find? run.message.id).isSome)
      (hchecks : (newAttempt run.message.id attemptNo started finished result).checks = true)
      (hinsert : v.attempts.insert?
        (newAttempt run.message.id attemptNo started finished result) = some attempts) :
      Step v (.run r .record) { v.setRun r run (.recorded result) with attempts := attempts }
  | abort (v : Lifecycle) (r : Nat) (run : DeliveryRun) (started finished : Time)
      (result : ChannelResult) (attemptNo : Nat) (hrun : v.runs[r]? = some run)
      (hpc : run.pc = .counted started finished result attemptNo) :
      Step v (.run r .record) (v.setRun r run (.ended .aborted))
  | orphan (v : Lifecycle) (r : Nat) (run : DeliveryRun) (result : ChannelResult)
      (accepted : Bool) (hrun : v.runs[r]? = some run) (hpc : run.pc = .recorded result)
      (hrow : v.messages.find? run.message.id = none) :
      Step v (.run r (.finish accepted)) (v.setRun r run (.ended .aborted))
  | sent (v : Lifecycle) (r : Nat) (run : DeliveryRun) (result : ChannelResult)
      (accepted : Bool) (hrun : v.runs[r]? = some run) (hpc : run.pc = .recorded result)
      (hverdict : verdict result run.task.retries = .sent) :
      Step v (.run r (.finish accepted))
        { v.setRun r run (.ended .sent) with
          messages := save v.messages run.message.id (statusUpdate .sent v.clock) }
  | bury (v : Lifecycle) (r : Nat) (run : DeliveryRun) (result : ChannelResult)
      (accepted : Bool) (status : MessageStatus) (reason : String) (letters : DeadLetterTable)
      (hrun : v.runs[r]? = some run) (hpc : run.pc = .recorded result)
      (hverdict : verdict result run.task.retries = .deadLetter status reason)
      (hrow : (v.messages.find? run.message.id).isSome)
      (hletters : ∀ letter, letter ∈ letters.rows → letter ∈ v.deadLetters.rows ∨
        letter = ⟨run.message.id, reason, snapshot run.message, v.clock⟩) :
      Step v (.run r (.finish accepted))
        { v.setRun r run (.ended (.deadLetter status)) with
          messages := save v.messages run.message.id (statusUpdate status v.clock)
          deadLetters := letters }
  | retry (v : Lifecycle) (r : Nat) (run : DeliveryRun) (result : ChannelResult) (text : String)
      (accepted : Bool) (hrun : v.runs[r]? = some run) (hpc : run.pc = .recorded result)
      (hverdict : verdict result run.task.retries = .transientError text) :
      Step v (.run r (.finish accepted))
        { v.setRun r run (.ended .retried) with
          broker := if accepted then retryOf run.task :: v.broker else v.broker
          log := if accepted then .retried r (retryOf run.task) v.clock :: v.log else v.log }
  | crash (v : Lifecycle) (r : Nat) (run : DeliveryRun) (hrun : v.runs[r]? = some run)
      (hlive : run.live = true) :
      Step v (.run r .crash) (v.setRun r run (.ended .crashed))
  | forget (v : Lifecycle) (task : Task) :
      Step v (.drop task) { v with broker := v.broker.erase task }
  | doom (v : Lifecycle) (k : Nat) (action : System.CleanupAction) (doomed : List MessageId)
      (hdoomed : ∀ id ∈ doomed, id ∈ v.doomed ∨
        ∃ m ∈ v.messages.rows, m.id = id ∧ m.status.terminal = true) :
      Step v (.cleanup k action) { v with doomed := doomed }
  | delete (v : Lifecycle) (k : Nat) (ids doomed : List MessageId)
      (hids : ∀ id ∈ ids, id ∈ v.doomed) (hdoomed : ∀ id ∈ doomed, id ∈ v.doomed) :
      Step v (.cleanup k .delete)
        { v with
          messages := v.messages.delete fun m => ids.contains m.id
          attempts := v.attempts.delete fun a => ids.contains a.message
          deadLetters := v.deadLetters.delete fun l => ids.contains l.message
          doomed := doomed }

abbrev Reaches (allowed : Lifecycle → System.Action → Prop) : Lifecycle → Lifecycle → Prop :=
  Transition.Reaches Step allowed

def init (clock : Time) : Lifecycle :=
  ⟨clock, .empty, .empty, .empty, [], [], fun _ => [], fun _ => false, [], []⟩

end Lifecycle
end NotifyRelay
