import NotifyRelay.Finality
import NotifyRelay.Ownership

/-! The relay with its broker and its workers in time. Redis keeps a message that a worker has
taken until the worker acknowledges it, and gives it out again when that takes longer than the
visibility timeout; workers hold a message until its `eta`, acknowledge it when the task has
ended (`CELERY_TASK_ACKS_LATE`) and stop a task at the time limit. -/
namespace NotifyRelay

open Services Delivery Scheduler

namespace Delivery

def retryBackoffBaseS : Nat := 30
def retryBackoffMaxS : Nat := 3600

/-- The longest countdown of Celery's backoff; with jitter it is any number of seconds up to
this one. -/
def retryCountdown (retries : Nat) : Nat :=
  min retryBackoffMaxS (retryBackoffBaseS * 2 ^ retries)

end Delivery

def celeryTaskTimeLimit : Time := seconds 60

/-- `CELERY_BROKER_TRANSPORT_OPTIONS["visibility_timeout"]`. -/
def visibilityTimeout : Time := seconds (3600 + 300)

inductive TaskMessagePc where
  | queued (since : Time)
  /-- With a worker since then, for its `eta` or a free process. -/
  | waiting (since : Time)
  | running (since : Time) (r : Nat)
  | abandoned (since : Time)
  | closed
  deriving DecidableEq, Repr

/-- A message of the broker that carries a task. `restored` tells that Redis has put a copy
back in the queue. -/
structure TaskMessage where
  task : Task
  eta : Time
  pc : TaskMessagePc
  restored : Bool
  deriving DecidableEq, Repr

def TaskMessage.current (m : TaskMessage) : Bool := !m.restored && m.pc != .closed

def TaskMessagePc.taken : TaskMessagePc → Option Time
  | .waiting since | .running since _ | .abandoned since => some since
  | .queued _ | .closed => none

structure Deployment where
  system : System
  messages : List TaskMessage

namespace Deployment

def init (clock : Time) : Deployment := ⟨.init clock, []⟩

inductive Action where
  | relay (action : System.Action)
  | reserve (k : Nat)
  | start (k : Nat)
  | run (k : Nat) (action : System.RunAction) (countdown : Nat)
  | abandon (k : Nat)
  /-- `CELERY_TASK_REJECT_ON_WORKER_LOST`: the worker has lost the process and returns the
  message. -/
  | requeue (k : Nat)
  | discard (k : Nat)
  | restore (k : Nat)
  | lose (k : Nat)

def internal : System.Action → Bool
  | .deliver _ | .run .. | .drop _ => false
  | _ => true

def arrived (s t : System) : Option Task :=
  if t.broker.length = s.broker.length + 1 then t.broker.head? else none

def enqueue (messages : List TaskMessage) (now eta : Time) : Option Task → List TaskMessage
  | some task => Pool.spawn messages ⟨task, eta, .queued now, false⟩
  | none => messages

def setMessage (d : Deployment) (k : Nat) (m : TaskMessage) (pc : TaskMessagePc) : Deployment :=
  { d with messages := d.messages.set k { m with pc := pc } }

/-- A message that Redis has restored is not its to remove. -/
def acknowledge (s : System) (m : TaskMessage) : System :=
  if m.restored then s else (s.step (.drop m.task)).getD s

def copy (d : Deployment) (m : TaskMessage) : Deployment :=
  { d with
    messages := Pool.spawn d.messages ⟨m.task, m.eta, .queued d.system.clock, false⟩ }

def started (d : Deployment) (k : Nat) (m : TaskMessage) (since : Time) (s : System) :
    Deployment :=
  match s.runs[Pool.next d.system.runs]? with
  | some _ => ⟨s, d.messages.set k { m with pc := .running since (Pool.next d.system.runs) }⟩
  | none => ⟨acknowledge s m, d.messages.set k { m with pc := .closed }⟩

/-- A step of the run. At its end the worker acknowledges the message, unless its process is
gone. A retry and the acknowledgement of its parent are one step: no process is lost between
them. -/
def advanced (d : Deployment) (k : Nat) (m : TaskMessage) (since : Time) (r : Nat)
    (countdown : Nat) (s : System) : Deployment :=
  match s.runs[r]?.map DeliveryRun.pc with
  | some (.ended .crashed) => ⟨s, d.messages.set k { m with pc := .abandoned since }⟩
  | some (.ended _) =>
      ⟨acknowledge s m, enqueue (d.messages.set k { m with pc := .closed }) s.clock
        (s.clock + seconds countdown) (arrived d.system s)⟩
  | _ => ⟨s, d.messages⟩

def stepMessage (d : Deployment) (k : Nat) (m : TaskMessage) : Action → Option Deployment
  | .reserve _ =>
      match m.pc with
      | .queued _ => some (d.setMessage k m (.waiting d.system.clock))
      | _ => none
  | .start _ =>
      match m.pc with
      | .waiting since =>
          if m.eta ≤ d.system.clock then
            (d.system.step (.deliver m.task)).map (d.started k m since)
          else none
      | _ => none
  | .run _ action countdown =>
      match m.pc with
      | .running since r =>
          if countdown ≤ retryCountdown m.task.retries then
            (d.system.step (.run r action)).map (d.advanced k m since r countdown)
          else none
      | _ => none
  | .abandon _ =>
      match m.pc with
      | .waiting since => some (d.setMessage k m (.abandoned since))
      | _ => none
  | .requeue _ =>
      match m.pc with
      | .abandoned _ =>
          if m.restored then none else some ((d.setMessage k m .closed).copy m)
      | _ => none
  | .discard _ =>
      match m.pc with
      | .abandoned _ =>
          some ⟨acknowledge d.system m, d.messages.set k { m with pc := .closed }⟩
      | _ => none
  | .restore _ =>
      if m.restored then none
      else
        match m.pc.taken with
        | some _ =>
            some (copy { d with messages := d.messages.set k { m with restored := true } } m)
        | none => none
  | .lose _ =>
      match m.pc with
      | .queued _ => some ⟨acknowledge d.system m, d.messages.set k { m with pc := .closed }⟩
      | _ => none
  | .relay _ => none

def Action.message : Action → Option Nat
  | .relay _ => none
  | .reserve k | .start k | .run k _ _ | .abandon k | .requeue k | .discard k | .restore k
  | .lose k => some k

def step (d : Deployment) : Action → Option Deployment
  | .relay action =>
      if internal action then
        (d.system.step action).map fun s =>
          ⟨s, enqueue d.messages s.clock s.clock (arrived d.system s)⟩
      else none
  | a => a.message.bind fun k => d.messages[k]?.bind fun m => d.stepMessage k m a

/-- The times of a deployment. A worker starts a task within `slack` of the moment from which
it may, or not at all. -/
structure Timeouts where
  timeLimit : Time
  visibility : Time
  slack : Time

/-- What the settings say about themselves: the visibility timeout "must exceed the longest
retry countdown, or a waiting retry runs twice", and `STALE_SENDING_AFTER` "must exceed it in
turn". -/
structure Timeouts.Ordered (o : Timeouts) : Prop where
  timeLimit : 0 ≤ o.timeLimit
  slack : 0 ≤ o.slack
  visibility : seconds retryBackoffMaxS + o.slack + o.timeLimit < o.visibility
  stale : o.visibility ≤ staleSendingAfter

def configured (slack : Time) : Timeouts := ⟨celeryTaskTimeLimit, visibilityTimeout, slack⟩

/-- Workers stop tasks at the time limit and start them in time, and Redis restores nothing
before the visibility timeout. -/
def Punctual (o : Timeouts) (d : Deployment) : Action → Prop
  | .relay (.tick elapsed) => ∀ run ∈ d.system.runs, run.live = true →
      d.system.clock + elapsed ≤ run.claimedAt + o.timeLimit
  | .start k => ∀ m ∈ d.messages[k]?, ∀ since ∈ m.pc.taken,
      d.system.clock ≤ max m.eta since + o.slack
  | .restore k => ∀ m ∈ d.messages[k]?, ∀ since ∈ m.pc.taken,
      since + o.visibility ≤ d.system.clock
  | _ => True

instance (o : Timeouts) (d : Deployment) (a : Action) : Decidable (Punctual o d a) := by
  unfold Punctual
  split <;> infer_instance

end Deployment

/-- The moment by which the message moves on, where the queue is worked off within `wait`. -/
def TaskMessage.deadline (o : Deployment.Timeouts) (wait : Time) (m : TaskMessage) : Option Time :=
  match m.pc with
  | .queued since => some (since + wait)
  | .waiting since => some (max m.eta since + o.slack)
  | .abandoned since => some (since + o.visibility + o.slack)
  | .running .. | .closed => none

namespace Deployment

/-- Nothing misses its deadline, and no worker dies with a message it has not started. -/
def Prompt (o : Timeouts) (wait : Time) (d : Deployment) (a : Action) : Prop :=
  Punctual o d a ∧
    match a with
    | .relay (.tick elapsed) => ∀ m ∈ d.messages, m.current = true →
        ∀ time ∈ m.deadline o wait, d.system.clock + elapsed ≤ time
    | .abandon _ => False
    | _ => True

instance (o : Timeouts) (wait : Time) (d : Deployment) (a : Action) :
    Decidable (Prompt o wait d a) := by
  unfold Prompt
  split <;> infer_instance

abbrev Reaches (allowed : Deployment → Action → Prop) : Deployment → Deployment → Prop :=
  Transition.Reaches (Transition.graph step) allowed

def Reachable (allowed : Deployment → Action → Prop) (d : Deployment) : Prop :=
  ∃ clock, Reaches allowed (init clock) d

end Deployment
end NotifyRelay
