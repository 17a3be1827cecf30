import NotifyRelay.Broker
import NotifyRelay.SingleRun

/-! What one step of a deployment can do: to the relay, and to the messages of the broker. -/
namespace NotifyRelay

open Services Delivery Scheduler

/-- The task goes back to one that a source has published. -/
def Issued (log : List Event) (task : Task) : Prop :=
  ∃ source first stamp time, Event.published source first stamp time ∈ log ∧
    first.id = task.id ∧ first.message = task.message

theorem Issued.mono {log later : List Event} (hsub : log ⊆ later) {task : Task}
    (h : Issued log task) : Issued later task := by
  obtain ⟨source, first, stamp, time, hmem, hsame⟩ := h
  exact ⟨source, first, stamp, time, hsub hmem, hsame⟩

theorem Issued.ne_of_fresh {log : List Event} {task : Task} (h : Issued log task) {id : TaskId}
    (hfresh : System.freshTask log id = true) : task.id ≠ id := by
  obtain ⟨source, first, stamp, time, hmem, hid, -⟩ := h
  have hne := List.all_eq_true.mp (Bool.and_eq_true_iff.mp hfresh).2 _ hmem
  simp only [bne_iff_ne] at hne
  exact fun heq => hne (hid.trans heq)

namespace Lifecycle

variable {v w : Lifecycle} {a : System.Action}

/-- What a step does to the tasks of the broker. -/
inductive BrokerStep (v w : Lifecycle) : System.Action → Prop
  | same {a : System.Action} (hbroker : w.broker = v.broker) : BrokerStep v w a
  | published {a : System.Action} {source : Source} {message : Message} {stamp : Time}
      {id : TaskId} (hsource : a.source = some source)
      (hfresh : System.freshTask v.log id = true)
      (hbroker : w.broker = enqueueFor message id :: v.broker)
      (hlog : .published source (enqueueFor message id) stamp v.clock ∈ w.log) :
      BrokerStep v w a
  | retried {r : Nat} {run : DeliveryRun} {accepted : Bool} (hrun : v.runs[r]? = some run)
      (hbroker : w.broker = retryOf run.task :: v.broker) :
      BrokerStep v w (.run r (.finish accepted))
  | erased {task : Task} (hbroker : w.broker = v.broker.erase task) : BrokerStep v w (.drop task)

theorem Step.brokers (h : Step v a w) : BrokerStep v w a := by
  cases h with
  | publish _ source message stamp rest id hsource hpending hfresh =>
      exact .published hsource hfresh rfl List.mem_cons_self
  | retry r run result text accepted hrun hpc hverdict =>
      cases accepted
      · exact .same rfl
      · exact .retried hrun rfl
  | forget => exact .erased rfl
  | _ => exact .same rfl

theorem Step.published (h : Step v a w) {source : Source} {task : Task} {stamp time : Time}
    (hmem : Event.published source task stamp time ∈ w.log) :
    Event.published source task stamp time ∈ v.log ∨
      System.freshTask v.log task.id = true ∧
        w.log = .published source task stamp time :: v.log := by
  cases h with
  | publish _ source message stamp rest id hsource hpending hfresh =>
      rcases List.mem_cons.mp hmem with heq | hold
      · cases heq
        exact .inr ⟨hfresh, rfl⟩
      · exact .inl hold
  | retry r run result text accepted =>
      cases accepted
      · exact .inl hmem
      · exact .inl ((List.mem_cons.mp hmem).resolve_left nofun)
  | release =>
      rcases List.mem_append.mp hmem with hnew | hold
      · obtain ⟨m, -, heq⟩ := List.mem_map.mp hnew
        cases heq
      · exact .inl hold
  | refuse => exact .inl ((List.mem_cons.mp hmem).resolve_left nofun)
  | insert => exact .inl ((List.mem_cons.mp hmem).resolve_left nofun)
  | decline => exact .inl ((List.mem_cons.mp hmem).resolve_left nofun)
  | sendStart => exact .inl ((List.mem_cons.mp hmem).resolve_left nofun)
  | _ => exact .inl hmem

structure Traced (v : Lifecycle) : Prop where
  broker : ∀ task ∈ v.broker, Issued v.log task
  runs : ∀ (r : Nat) (run : DeliveryRun), v.runs[r]? = some run → Issued v.log run.task
  rows : ∀ m ∈ v.messages.rows, m.status = .sending →
    ∃ task, Issued v.log task ∧ task.id = m.claimedBy ∧ task.message = m.id
  unique : ∀ source first stamp time source' first' stamp' time',
    Event.published source first stamp time ∈ v.log →
    Event.published source' first' stamp' time' ∈ v.log → first.id = first'.id →
      first.message = first'.message

/-- One task id is about one message. -/
theorem Traced.message_eq (h : Traced v) {task task' : Task} (htask : Issued v.log task)
    (htask' : Issued v.log task') (hid : task.id = task'.id) : task.message = task'.message := by
  obtain ⟨source, first, stamp, time, hmem, hfirst, hmessage⟩ := htask
  obtain ⟨source', first', stamp', time', hmem', hfirst', hmessage'⟩ := htask'
  have hsame := h.unique source first stamp time source' first' stamp' time' hmem hmem'
    (hfirst.trans (hid.trans hfirst'.symm))
  exact hmessage.symm.trans (hsame.trans hmessage')

theorem traced_init (clock : Time) : Traced (init clock) := by
  constructor <;> simp [init, Table.empty]

theorem Traced.step (h : Traced v) (hstep : Step v a w) : Traced w := by
  have hlater : ∀ {task : Task}, Issued v.log task → Issued w.log task :=
    fun htask => htask.mono hstep.log_subset
  constructor
  case broker =>
    intro task htask
    cases hstep.brokers with
    | same hbroker => exact hlater (h.broker task (hbroker ▸ htask))
    | published _ _ hbroker hlog =>
        rw [hbroker] at htask
        rcases List.mem_cons.mp htask with rfl | hold
        · exact ⟨_, _, _, _, hlog, rfl, rfl⟩
        · exact hlater (h.broker task hold)
    | retried hrun hbroker =>
        rw [hbroker] at htask
        rcases List.mem_cons.mp htask with rfl | hold
        · exact hlater (h.runs _ _ hrun)
        · exact hlater (h.broker task hold)
    | erased hbroker => exact hlater (h.broker task (List.mem_of_mem_erase (hbroker ▸ htask)))
  case runs =>
    intro r run hrun
    cases hstep.run hrun with
    | kept hold => exact hlater (h.runs r run hold)
    | claimed hbroker => exact hlater (h.broker _ hbroker)
    | @moved _ old _ _ hold => exact hlater (h.runs r old hold)
  case rows =>
    intro m hm hsending
    have hkept : ∀ old ∈ v.messages.rows, old = m →
        ∃ task, Issued w.log task ∧ task.id = m.claimedBy ∧ task.message = m.id := by
      rintro old hold rfl
      obtain ⟨task, htask, hsame⟩ := h.rows old hold hsending
      exact ⟨task, hlater htask, hsame⟩
    cases hstep.row hm with
    | kept hold => exact hkept m hold rfl
    | inserted => cases hsending
    | released => cases hsending
    | @claimed task _ hbroker _ hid => exact ⟨task, hlater (h.broker task hbroker), rfl, hid.symm⟩
    | finished _ _ _ _ hverdict =>
        have hterminal := terminal_of_verdict hverdict
        cases hsending
        cases hterminal
  case unique =>
    intro source first stamp time source' first' stamp' time' hmem hmem' hid
    rcases hstep.published hmem with hold | ⟨hfresh, hlog⟩
    · rcases hstep.published hmem' with hold' | ⟨hfresh, hlog⟩
      · exact h.unique _ _ _ _ _ _ _ _ hold hold' hid
      · exact absurd hid (Issued.ne_of_fresh ⟨_, _, _, _, hold, rfl, rfl⟩ hfresh)
    · rw [hlog] at hmem'
      rcases List.mem_cons.mp hmem' with heq | hold'
      · cases heq
        rfl
      · exact absurd hid.symm (Issued.ne_of_fresh ⟨_, _, _, _, hold', rfl, rfl⟩ hfresh)

end Lifecycle

namespace System

variable {s t : System} {allowed : System → Action → Prop}

theorem traced (h : Reachable allowed s) : Lifecycle.Traced s.view :=
  invariant_of_lifecycle Transition.anyStep Lifecycle.Traced (fun _ _ _ => trivial)
    Lifecycle.traced_init (fun _ _ _ hinv _ hstep => hinv.step hstep) h

/-- Only the clock moves the clock. -/
theorem clock_cases (h : Reachable allowed s) {a : Action} (hstep : s.step a = some t) :
    t.clock = s.clock ∨ ∃ elapsed : Nat, a = .tick elapsed ∧ t.clock = s.clock + elapsed := by
  obtain ⟨clock, h⟩ := h
  rcases refined ⟨clock, h.any⟩ hstep with heq | hstep
  · exact .inl (congrArg Lifecycle.clock heq).symm
  · generalize hview : t.view = w at hstep
    have hclock : t.clock = w.clock := congrArg Lifecycle.clock hview
    rw [hclock]
    cases hstep with
    | tick elapsed => exact .inr ⟨elapsed, rfl, rfl⟩
    | _ => exact .inl rfl

/-- A step that delivers nothing and moves no run. -/
theorem internal_cases (h : Reachable allowed s) {a : Action}
    (ha : Deployment.internal a = true) (hstep : s.step a = some t) :
    t.runs = s.runs ∧ (t.broker = s.broker ∨
      ∃ task, t.broker = task :: s.broker ∧ System.freshTask s.log task.id = true) := by
  obtain ⟨clock, h⟩ := h
  rcases refined ⟨clock, h.any⟩ hstep with heq | hstep
  · exact ⟨(congrArg Lifecycle.runs heq).symm, .inl (congrArg Lifecycle.broker heq).symm⟩
  · constructor
    · generalize hruns : t.runs = runs
      have hrunsStep := hstep.runs
      rw [show t.view.runs = runs from hruns] at hrunsStep
      cases hrunsStep with
      | same => rfl
      | claimed => cases ha
      | moved => cases ha
    · cases hstep.brokers with
      | same hbroker => exact .inl hbroker
      | published _ hfresh hbroker => exact .inr ⟨_, hbroker, hfresh⟩
      | retried => cases ha
      | erased => cases ha

theorem deliver_cases {task : Task} (hstep : s.step (.deliver task) = some t) :
    t.broker = s.broker ∧ t.clock = s.clock ∧ (t.runs = s.runs ∨
      ∃ message, t.runs = Pool.spawn s.runs
        ⟨task, (claimUpdate task.id s.clock).apply message, .claimed⟩) := by
  obtain ⟨-, hstep⟩ := Option.ite_none_right_eq_some.mp hstep
  split at hstep
  next =>
    cases hstep
    exact ⟨rfl, rfl, .inl rfl⟩
  next message _ =>
    split at hstep
    next =>
      cases hstep
      exact ⟨rfl, rfl, .inl rfl⟩
    next =>
      cases hstep
      exact ⟨rfl, rfl, .inl rfl⟩
    next =>
      cases hstep
      exact ⟨rfl, rfl, .inr ⟨message, rfl⟩⟩

theorem run_cases {r : Nat} {action : RunAction} (hstep : s.step (.run r action) = some t) :
    ∃ run pc, s.runs[r]? = some run ∧ run.live = true ∧
      t.runs = s.runs.set r { run with pc := pc } ∧ t.clock = s.clock ∧
      (t.broker = s.broker ∨ pc = .ended .retried ∧ t.broker = retryOf run.task :: s.broker) := by
  obtain ⟨run, hrun, hstep⟩ := Option.bind_eq_some_iff.mp hstep
  generalize hpc : run.pc = pc at hstep
  have hlive : run.live = pc.live := congrArg DeliveryPc.live hpc
  clear hpc
  unfold stepRun at hstep
  split at hstep
  case h_1 =>
    cases hstep
    exact ⟨run, _, hrun, hlive, rfl, rfl, .inl rfl⟩
  case h_2 =>
    cases hstep
    exact ⟨run, _, hrun, hlive, rfl, rfl, .inl rfl⟩
  case h_3 =>
    cases hstep
    exact ⟨run, _, hrun, hlive, rfl, rfl, .inl rfl⟩
  case h_4 =>
    split at hstep <;> cases hstep <;> exact ⟨run, _, hrun, hlive, rfl, rfl, .inl rfl⟩
  case h_5 =>
    split at hstep
    next => split at hstep <;> cases hstep <;> exact ⟨run, _, hrun, hlive, rfl, rfl, .inl rfl⟩
    next => split at hstep <;> cases hstep <;> exact ⟨run, _, hrun, hlive, rfl, rfl, .inl rfl⟩
    next =>
      split at hstep
      next =>
        cases hstep
        exact ⟨run, _, hrun, hlive, rfl, rfl, .inr ⟨rfl, rfl⟩⟩
      next =>
        cases hstep
        exact ⟨run, _, hrun, hlive, rfl, rfl, .inl rfl⟩
  case h_6 =>
    obtain ⟨hpc, hstep⟩ := Option.ite_none_right_eq_some.mp hstep
    cases hstep
    exact ⟨run, _, hrun, hlive.trans hpc, rfl, rfl, .inl rfl⟩
  case h_7 => contradiction

end System
/-- A step of run `r`, which leaves it at `pc`. -/
structure RunMoved (s : System) (r : Nat) (action : System.RunAction) (run : DeliveryRun)
    (pc : DeliveryPc) (t : System) : Prop where
  step : s.step (.run r action) = some t
  found : s.runs[r]? = some run
  live : run.live = true
  runs : t.runs = s.runs.set r { run with pc := pc }
  clock : t.clock = s.clock
  broker : t.broker = s.broker ∨ pc = .ended .retried ∧ t.broker = retryOf run.task :: s.broker

theorem RunMoved.get {s t : System} {r : Nat} {action : System.RunAction} {run : DeliveryRun}
    {pc : DeliveryPc} (h : RunMoved s r action run pc t) :
    t.runs[r]? = some { run with pc := pc } :=
  h.runs ▸ Pool.get_set_self h.found _

theorem RunMoved.subset {s t : System} {r : Nat} {action : System.RunAction} {run : DeliveryRun}
    {pc : DeliveryPc} (h : RunMoved s r action run pc t) : s.broker ⊆ t.broker := by
  rcases h.broker with heq | ⟨-, heq⟩
  · rw [heq]
    exact List.Subset.refl _
  · rw [heq]
    exact List.subset_cons_self _ _

namespace Deployment

variable {d e : Deployment} {a : Action}

theorem acknowledge_cases (s : System) (m : TaskMessage) :
    (acknowledge s m).clock = s.clock ∧ (acknowledge s m).runs = s.runs ∧
      (acknowledge s m = s ∨ m.restored = false ∧ s.step (.drop m.task) = some (acknowledge s m) ∧
        (acknowledge s m).broker = s.broker.erase m.task) := by
  have hdrop : s.step (.drop m.task) =
      if m.task ∈ s.broker then some { s with broker := s.broker.erase m.task } else none := rfl
  unfold acknowledge
  split
  next => exact ⟨rfl, rfl, .inl rfl⟩
  next hrestored =>
    rw [hdrop]
    split
    next => exact ⟨rfl, rfl, .inr ⟨Bool.eq_false_of_not_eq_true hrestored, rfl, rfl⟩⟩
    next => exact ⟨rfl, rfl, .inl rfl⟩

theorem arrived_of_eq {s t : System} (h : t.broker = s.broker) : arrived s t = none := by
  unfold arrived
  rw [h, if_neg (by omega)]

theorem arrived_of_cons {s t : System} {task : Task} (h : t.broker = task :: s.broker) :
    arrived s t = some task := by
  unfold arrived
  rw [h, if_pos (List.length_cons), List.head?_cons]

/-- The steps of a deployment. -/
inductive Move (d : Deployment) : Action → Deployment → Prop
  | relayed {action : System.Action} {s : System} (hinternal : internal action = true)
      (hs : d.system.step action = some s) :
      Move d (.relay action) ⟨s, enqueue d.messages s.clock s.clock (arrived d.system s)⟩
  | reserved {k : Nat} {m : TaskMessage} {since : Time} (hm : d.messages[k]? = some m)
      (hpc : m.pc = .queued since) :
      Move d (.reserve k)
        ⟨d.system, d.messages.set k { m with pc := .waiting d.system.clock }⟩
  | declined {k : Nat} {m : TaskMessage} {since : Time} {s : System}
      (hm : d.messages[k]? = some m) (hpc : m.pc = .waiting since)
      (hs : d.system.step (.deliver m.task) = some s) (hclock : s.clock = d.system.clock)
      (hruns : s.runs = d.system.runs) (hbroker : s.broker = d.system.broker) :
      Move d (.start k) ⟨acknowledge s m, d.messages.set k { m with pc := .closed }⟩
  | begun {k : Nat} {m : TaskMessage} {since : Time} {s : System} {message : Message}
      (hm : d.messages[k]? = some m) (hpc : m.pc = .waiting since)
      (heta : m.eta ≤ d.system.clock) (hs : d.system.step (.deliver m.task) = some s)
      (hclock : s.clock = d.system.clock)
      (hruns : s.runs = Pool.spawn d.system.runs
        ⟨m.task, (claimUpdate m.task.id d.system.clock).apply message, .claimed⟩)
      (hbroker : s.broker = d.system.broker) :
      Move d (.start k)
        ⟨s, d.messages.set k { m with pc := .running since (Pool.next d.system.runs) }⟩
  | going {k r countdown : Nat} {m : TaskMessage} {since : Time} {action : System.RunAction}
      {run : DeliveryRun} {pc : DeliveryPc} {s : System} (hm : d.messages[k]? = some m)
      (hpc : m.pc = .running since r) (hmoved : RunMoved d.system r action run pc s)
      (hgoing : pc.live = true) : Move d (.run k action countdown) ⟨s, d.messages⟩
  | crashed {k r countdown : Nat} {m : TaskMessage} {since : Time} {action : System.RunAction}
      {run : DeliveryRun} {s : System} (hm : d.messages[k]? = some m)
      (hpc : m.pc = .running since r)
      (hmoved : RunMoved d.system r action run (.ended .crashed) s) :
      Move d (.run k action countdown)
        ⟨s, d.messages.set k { m with pc := .abandoned since }⟩
  | ended {k r countdown : Nat} {m : TaskMessage} {since : Time} {action : System.RunAction}
      {run : DeliveryRun} {how : DeliveryEnd} {s : System} (hm : d.messages[k]? = some m)
      (hpc : m.pc = .running since r) (hcountdown : countdown ≤ retryCountdown m.task.retries)
      (hmoved : RunMoved d.system r action run (.ended how) s) (hhow : how ≠ .crashed) :
      Move d (.run k action countdown)
        ⟨acknowledge s m, enqueue (d.messages.set k { m with pc := .closed }) s.clock
          (s.clock + seconds countdown) (arrived d.system s)⟩
  | abandoned {k : Nat} {m : TaskMessage} {since : Time} (hm : d.messages[k]? = some m)
      (hpc : m.pc = .waiting since) :
      Move d (.abandon k) ⟨d.system, d.messages.set k { m with pc := .abandoned since }⟩
  | requeued {k : Nat} {m : TaskMessage} {since : Time} (hm : d.messages[k]? = some m)
      (hpc : m.pc = .abandoned since) (hrestored : m.restored = false) :
      Move d (.requeue k)
        (copy ⟨d.system, d.messages.set k { m with pc := .closed }⟩ m)
  | discarded {k : Nat} {m : TaskMessage} {since : Time} (hm : d.messages[k]? = some m)
      (hpc : m.pc = .abandoned since) :
      Move d (.discard k)
        ⟨acknowledge d.system m, d.messages.set k { m with pc := .closed }⟩
  | restored {k : Nat} {m : TaskMessage} {since : Time} (hm : d.messages[k]? = some m)
      (htaken : m.pc.taken = some since) (hrestored : m.restored = false) :
      Move d (.restore k)
        (copy ⟨d.system, d.messages.set k { m with restored := true }⟩ m)
  | lost {k : Nat} {m : TaskMessage} {since : Time} (hm : d.messages[k]? = some m)
      (hpc : m.pc = .queued since) :
      Move d (.lose k) ⟨acknowledge d.system m, d.messages.set k { m with pc := .closed }⟩

theorem move_of_start {k : Nat} {m : TaskMessage} {since : Time} {s : System}
    (hm : d.messages[k]? = some m) (hpc : m.pc = .waiting since)
    (heta : m.eta ≤ d.system.clock) (hs : d.system.step (.deliver m.task) = some s) :
    Move d (.start k) (d.started k m since s) := by
  obtain ⟨hbroker, hclock, hruns | ⟨message, hruns⟩⟩ := System.deliver_cases hs
  · unfold started
    rw [hruns, Pool.get_next_eq_none]
    exact .declined hm hpc hs hclock hruns hbroker
  · unfold started
    rw [hruns, Pool.get_spawn, if_pos rfl]
    exact .begun hm hpc heta hs hclock hruns hbroker

theorem move_of_run {k r countdown : Nat} {m : TaskMessage} {since : Time}
    {action : System.RunAction} {s : System} (hm : d.messages[k]? = some m)
    (hpc : m.pc = .running since r) (hcountdown : countdown ≤ retryCountdown m.task.retries)
    (hs : d.system.step (.run r action) = some s) :
    Move d (.run k action countdown) (d.advanced k m since r countdown s) := by
  obtain ⟨run, pc, hrun, hlive, hruns, hclock, hbroker⟩ := System.run_cases hs
  have hmoved : RunMoved d.system r action run pc s := ⟨hs, hrun, hlive, hruns, hclock, hbroker⟩
  unfold advanced
  rw [hmoved.get, Option.map_some]
  cases pc with
  | ended how =>
      cases how with
      | crashed => exact .crashed hm hpc hmoved
      | _ => exact .ended hm hpc hcountdown hmoved (by simp)
  | _ => exact .going hm hpc hmoved rfl

theorem step_move (hstep : d.step a = some e) : Move d a e := by
  cases a with
  | relay action =>
      obtain ⟨hinternal, hstep⟩ := Option.ite_none_right_eq_some.mp hstep
      obtain ⟨s, hs, rfl⟩ := Option.map_eq_some_iff.mp hstep
      exact .relayed hinternal hs
  | reserve k =>
      obtain ⟨m, hm, hstep⟩ := Option.bind_eq_some_iff.mp hstep
      cases hpc : m.pc with
      | queued since =>
          simp only [stepMessage, hpc, Option.some.injEq] at hstep
          exact hstep ▸ .reserved hm hpc
      | _ => simp [stepMessage, hpc] at hstep
  | start k =>
      obtain ⟨m, hm, hstep⟩ := Option.bind_eq_some_iff.mp hstep
      cases hpc : m.pc with
      | waiting since =>
          simp only [stepMessage, hpc] at hstep
          obtain ⟨heta, hstep⟩ := Option.ite_none_right_eq_some.mp hstep
          obtain ⟨s, hs, rfl⟩ := Option.map_eq_some_iff.mp hstep
          exact move_of_start hm hpc heta hs
      | _ => simp [stepMessage, hpc] at hstep
  | run k action countdown =>
      obtain ⟨m, hm, hstep⟩ := Option.bind_eq_some_iff.mp hstep
      cases hpc : m.pc with
      | running since r =>
          simp only [stepMessage, hpc] at hstep
          obtain ⟨hcountdown, hstep⟩ := Option.ite_none_right_eq_some.mp hstep
          obtain ⟨s, hs, rfl⟩ := Option.map_eq_some_iff.mp hstep
          exact move_of_run hm hpc hcountdown hs
      | _ => simp [stepMessage, hpc] at hstep
  | abandon k =>
      obtain ⟨m, hm, hstep⟩ := Option.bind_eq_some_iff.mp hstep
      cases hpc : m.pc with
      | waiting since =>
          simp only [stepMessage, hpc, Option.some.injEq] at hstep
          exact hstep ▸ .abandoned hm hpc
      | _ => simp [stepMessage, hpc] at hstep
  | requeue k =>
      obtain ⟨m, hm, hstep⟩ := Option.bind_eq_some_iff.mp hstep
      cases hpc : m.pc with
      | abandoned since =>
          simp only [stepMessage, hpc] at hstep
          obtain ⟨hrestored, hstep⟩ := Option.ite_none_left_eq_some.mp hstep
          cases hstep
          exact .requeued hm hpc (Bool.eq_false_of_not_eq_true hrestored)
      | _ => simp [stepMessage, hpc] at hstep
  | discard k =>
      obtain ⟨m, hm, hstep⟩ := Option.bind_eq_some_iff.mp hstep
      cases hpc : m.pc with
      | abandoned since =>
          simp only [stepMessage, hpc, Option.some.injEq] at hstep
          exact hstep ▸ .discarded hm hpc
      | _ => simp [stepMessage, hpc] at hstep
  | restore k =>
      obtain ⟨m, hm, hstep⟩ := Option.bind_eq_some_iff.mp hstep
      obtain ⟨hrestored, hstep⟩ := Option.ite_none_left_eq_some.mp hstep
      cases htaken : m.pc.taken with
      | none => simp [htaken] at hstep
      | some since =>
          simp only [htaken, Option.some.injEq] at hstep
          exact hstep ▸ .restored hm htaken (Bool.eq_false_of_not_eq_true hrestored)
  | lose k =>
      obtain ⟨m, hm, hstep⟩ := Option.bind_eq_some_iff.mp hstep
      cases hpc : m.pc with
      | queued since =>
          simp only [stepMessage, hpc, Option.some.injEq] at hstep
          exact hstep ▸ .lost hm hpc
      | _ => simp [stepMessage, hpc] at hstep

end Deployment
end NotifyRelay
