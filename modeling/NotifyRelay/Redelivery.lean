import NotifyRelay.BrokerSteps
import Mathlib.Tactic.Linarith

/-! What the timeouts are for. With the configured ones no task is delivered while it runs, and
Beat takes no message from a run. -/
namespace NotifyRelay

open Services Delivery Scheduler

/-- Since when it is where it is. -/
def TaskMessagePc.since : TaskMessagePc → Option Time
  | .queued since => some since
  | pc => pc.taken

theorem TaskMessagePc.since_of_taken {pc : TaskMessagePc} {since : Time}
    (h : pc.taken = some since) : pc.since = some since := by
  cases pc <;> first | exact h | cases h

namespace TaskMessage

variable {o : Deployment.Timeouts} {clock now : Time} {m n : TaskMessage}

structure Timed (o : Deployment.Timeouts) (clock : Time) (m : TaskMessage) : Prop where
  past : ∀ since, m.pc.since = some since → since ≤ clock
  eta : ∀ since, m.pc.since = some since → m.eta ≤ since + seconds retryBackoffMaxS
  queued : ∀ since, m.pc = .queued since → m.restored = false
  restored : ∀ since, m.pc.taken = some since → m.restored = true →
    since + o.visibility ≤ clock

/-- A message in execution belongs to a run that goes on. -/
def Attends (o : Deployment.Timeouts) (runs : List DeliveryRun) (m : TaskMessage) : Prop :=
  ∀ since r, m.pc = .running since r → ∃ run, runs[r]? = some run ∧ run.task = m.task ∧
    run.live = true ∧ run.claimedAt ≤ max m.eta since + o.slack

/-- No two messages that the broker answers for carry one task. -/
def Apart (m n : TaskMessage) : Prop :=
  m.current = true → n.current = true → m.task.id ≠ n.task.id

theorem Apart.symm (h : Apart m n) : Apart n m :=
  fun hn hm heq => h hm hn heq.symm

theorem Timed.later (h : Timed o clock m) (hle : clock ≤ now) : Timed o now m where
  past := fun since hsince => Int.le_trans (h.past since hsince) hle
  eta := h.eta
  queued := h.queued
  restored := fun since htaken hrestored =>
    Int.le_trans (h.restored since htaken hrestored) hle

/-- With a worker, whatever happens to it there. -/
theorem Timed.placed (h : Timed o clock m) {since : Time} (hold : m.pc.taken = some since)
    {pc : TaskMessagePc} (hpc : pc.taken = some since) : Timed o clock { m with pc := pc } := by
  have hsame : ∀ {since'}, pc.since = some since' → m.pc.since = some since' := by
    intro since' hsince
    rw [TaskMessagePc.since_of_taken hpc] at hsince
    rw [TaskMessagePc.since_of_taken hold, hsince]
  refine ⟨fun _ hsince => h.past _ (hsame hsince), fun _ hsince => h.eta _ (hsame hsince),
    fun _ hqueued => ?_, fun _ htaken => h.restored _ (hold.trans (hpc.symm.trans htaken))⟩
  rw [show pc = _ from hqueued] at hpc
  cases hpc

/-- What is put in the queue now. -/
theorem timed_queued (o : Deployment.Timeouts) (task : Task) {eta now : Time}
    (heta : eta ≤ now + seconds retryBackoffMaxS) :
    Timed o now ⟨task, eta, .queued now, false⟩ where
  past := fun since hsince => Int.le_of_eq (Option.some.inj hsince).symm
  eta := fun since hsince => Option.some.inj hsince ▸ heta
  queued := fun _ _ => rfl
  restored := fun _ htaken => by cases htaken

theorem current_iff : m.current = true ↔ m.restored = false ∧ m.pc ≠ .closed := by
  simp [current]

end TaskMessage

namespace Deployment

variable {o : Timeouts} {d e : Deployment} {a : Action}

structure Sound (o : Timeouts) (d : Deployment) : Prop where
  orderly : System.Reachable (fun s a => Lifecycle.Orderly s.view a) d.system
  unique : ∀ (j k : Nat) (m n : TaskMessage), d.messages[j]? = some m →
    d.messages[k]? = some n → j ≠ k → m.Apart n
  held : ∀ (k : Nat) (m : TaskMessage), d.messages[k]? = some m → m.current = true →
    m.task ∈ d.system.broker
  timed : ∀ (k : Nat) (m : TaskMessage), d.messages[k]? = some m → m.Timed o d.system.clock
  attends : ∀ (k : Nat) (m : TaskMessage), d.messages[k]? = some m → m.Attends o d.system.runs
  attended : ∀ (r : Nat) (run : DeliveryRun), d.system.runs[r]? = some run → run.live = true →
    ∃ (k : Nat) (m : TaskMessage) (since : Time), d.messages[k]? = some m ∧ m.pc = .running since r
  timely : ∀ run ∈ d.system.runs, run.live = true →
    d.system.clock ≤ run.claimedAt + o.timeLimit

theorem sound_init (o : Timeouts) (clock : Time) : Sound o (init clock) := by
  constructor <;> simp [init, System.init]
  exact ⟨clock, .refl⟩

/-- The arithmetic of the settings: what may start has not been restored. -/
theorem Timeouts.Ordered.not_restored (ho : o.Ordered) {eta since claimed : Time}
    (heta : eta ≤ since + seconds retryBackoffMaxS) (hclaimed : claimed ≤ max eta since + o.slack) :
    claimed + o.timeLimit < since + o.visibility := by
  have hbackoff : (0 : Time) ≤ seconds retryBackoffMaxS := by decide
  have hmax : max eta since ≤ since + seconds retryBackoffMaxS :=
    max_le heta (le_add_of_nonneg_right hbackoff)
  have hvisibility := ho.visibility
  linarith

/-- A message that is in execution has not been given out again. -/
theorem Sound.not_restored (h : Sound o d) (ho : o.Ordered) {k r : Nat} {m : TaskMessage}
    {since : Time} (hm : d.messages[k]? = some m) (hpc : m.pc = .running since r) :
    m.restored = false := by
  by_contra hrestored
  obtain ⟨run, hrun, -, hlive, hclaimed⟩ := h.attends k m hm since r hpc
  have htaken : m.pc.taken = some since := by rw [hpc]; rfl
  have htimed := h.timed k m hm
  have hsince := htimed.restored since htaken (Bool.eq_true_of_not_eq_false hrestored)
  have hclock := h.timely run (List.mem_of_getElem? hrun) hlive
  have hlate := ho.not_restored
    (htimed.eta since (TaskMessagePc.since_of_taken htaken)) hclaimed
  linarith

/-- Nor has one that starts in time. -/
theorem Sound.not_restored_of_start (h : Sound o d) (ho : o.Ordered) {k : Nat}
    (ha : Punctual o d (.start k)) {m : TaskMessage} {since : Time}
    (hm : d.messages[k]? = some m) (hpc : m.pc = .waiting since) : m.restored = false := by
  by_contra hrestored
  have htaken : m.pc.taken = some since := by rw [hpc]; rfl
  have htimed := h.timed k m hm
  have hsince := htimed.restored since htaken (Bool.eq_true_of_not_eq_false hrestored)
  have hlate := ho.not_restored (htimed.eta since (TaskMessagePc.since_of_taken htaken))
    (ha m hm since htaken)
  have hlimit := ho.timeLimit
  linarith

/-- Redis gives out no message again that is in execution. -/
theorem Sound.not_running_of_restore (h : Sound o d) (ho : o.Ordered) {k r : Nat}
    (ha : Punctual o d (.restore k)) {m : TaskMessage} {since : Time}
    (hm : d.messages[k]? = some m) : m.pc ≠ .running since r := by
  intro hpc
  have htaken : m.pc.taken = some since := by rw [hpc]; rfl
  obtain ⟨run, hrun, -, hlive, hclaimed⟩ := h.attends k m hm since r hpc
  have hclock := h.timely run (List.mem_of_getElem? hrun) hlive
  have hlate := ho.not_restored
    ((h.timed k m hm).eta since (TaskMessagePc.since_of_taken htaken)) hclaimed
  have hsince : since + o.visibility ≤ d.system.clock := ha m hm since htaken
  linarith

/-- The message of a run that goes on. -/
theorem Sound.current_of_live (h : Sound o d) (ho : o.Ordered) {r : Nat} {run : DeliveryRun}
    (hrun : d.system.runs[r]? = some run) (hlive : run.live = true) :
    ∃ (k : Nat) (m : TaskMessage) (since : Time), d.messages[k]? = some m ∧
      m.pc = .running since r ∧ m.current = true ∧
      run.task = m.task := by
  obtain ⟨k, m, since, hm, hpc⟩ := h.attended r run hrun hlive
  obtain ⟨run', hrun', htask, -⟩ := h.attends k m hm since r hpc
  cases Option.some.inj (hrun'.symm.trans hrun)
  refine ⟨k, m, since, hm, hpc, TaskMessage.current_iff.mpr ⟨h.not_restored ho hm hpc, ?_⟩, htask⟩
  rw [hpc]
  simp

/-- No task starts that is being run. -/
theorem Sound.not_live_of_start (h : Sound o d) (ho : o.Ordered) {k : Nat}
    (ha : Punctual o d (.start k)) {m : TaskMessage} {since : Time}
    (hm : d.messages[k]? = some m) (hpc : m.pc = .waiting since) {r : Nat} {run : DeliveryRun}
    (hrun : d.system.runs[r]? = some run) (hlive : run.live = true) :
    m.task.id ≠ run.task.id := by
  obtain ⟨j, n, since', hn, hpc', hcurrent, htask⟩ := h.current_of_live ho hrun hlive
  have hm' : m.current = true :=
    TaskMessage.current_iff.mpr ⟨h.not_restored_of_start ho ha hm hpc, by rw [hpc]; simp⟩
  have hne : k ≠ j := by
    rintro rfl
    cases Option.some.inj (hm.symm.trans hn)
    rw [hpc] at hpc'
    cases hpc'
  rw [htask]
  exact h.unique k j m n hm hn hne hm' hcurrent

theorem Sound.young (h : Sound o d) (ho : o.Ordered) {run : DeliveryRun}
    (hrun : run ∈ d.system.runs) (hlive : run.live = true) :
    d.system.clock - run.claimedAt < staleSendingAfter := by
  have hbackoff : (0 : Time) ≤ seconds retryBackoffMaxS := by decide
  have htimely := h.timely run hrun hlive
  have hslack := ho.slack
  have hvisibility := ho.visibility
  have hstale := ho.stale
  linarith

/-- The relay takes a step as `Orderly` wants it. -/
theorem Sound.orderly_step (h : Sound o d) (ho : o.Ordered) {action : System.Action} {t : System}
    (hdelivered : ∀ task ∈ action.delivered, ∀ run ∈ d.system.runs, run.live = true →
      task.id ≠ run.task.id)
    (hstep : d.system.step action = some t) :
    System.Reachable (fun s a => Lifecycle.Orderly s.view a) t := by
  obtain ⟨clock, hreach⟩ := h.orderly
  exact ⟨clock, hreach.tail ⟨action, fun run hrun hlive => ⟨h.young ho hrun hlive,
    fun task htask => hdelivered task htask run hrun hlive⟩, hstep⟩⟩

theorem Sound.orderly_start (h : Sound o d) (ho : o.Ordered) {k : Nat}
    (ha : Punctual o d (.start k)) {m : TaskMessage} {since : Time}
    (hm : d.messages[k]? = some m) (hpc : m.pc = .waiting since) {t : System}
    (hstep : d.system.step (.deliver m.task) = some t) :
    System.Reachable (fun s a => Lifecycle.Orderly s.view a) t := by
  refine h.orderly_step ho (fun task htask run hrun hlive => ?_) hstep
  cases htask
  obtain ⟨r, hrun⟩ := List.mem_iff_getElem?.mp hrun
  exact h.not_live_of_start ho ha hm hpc hrun hlive

/-- One message changes, and the relay with it. -/
theorem Sound.change (h : Sound o d) {t : System} {k : Nat} {m m' : TaskMessage}
    (hm : d.messages[k]? = some m)
    (horderly : System.Reachable (fun s a => Lifecycle.Orderly s.view a) t)
    (hclock : d.system.clock ≤ t.clock)
    (hself : m'.current = true → m.current = true ∧ m'.task = m.task ∧ m.task ∈ t.broker)
    (hbroker : ∀ (j : Nat) (n : TaskMessage), d.messages[j]? = some n → j ≠ k →
      n.current = true → n.task ∈ t.broker)
    (htimed : m'.Timed o t.clock) (hattends : m'.Attends o t.runs)
    (hothers : ∀ (j : Nat) (n : TaskMessage), d.messages[j]? = some n → j ≠ k →
      n.Attends o t.runs)
    (hattended : ∀ (r : Nat) (run : DeliveryRun), t.runs[r]? = some run → run.live = true →
      (∃ since, m'.pc = .running since r) ∨ ∃ (j : Nat) (n : TaskMessage) (since : Time),
        j ≠ k ∧ d.messages[j]? = some n ∧ n.pc = .running since r)
    (htimely : ∀ run ∈ t.runs, run.live = true → t.clock ≤ run.claimedAt + o.timeLimit) :
    Sound o ⟨t, d.messages.set k m'⟩ where
  orderly := horderly
  unique := by
    refine Pool.forall_pairs_set (fun _ _ => TaskMessage.Apart.symm) hm h.unique
      fun j n hn hne => ?_
    intro hcurrent hcurrent'
    obtain ⟨hold, htask, -⟩ := hself hcurrent
    rw [htask]
    exact h.unique k j m n hm hn (Ne.symm hne) hold hcurrent'
  held := Pool.forall_set hm (fun hcurrent => (hself hcurrent).2.1 ▸ (hself hcurrent).2.2) hbroker
  timed := Pool.forall_set hm htimed fun j n hn _ => (h.timed j n hn).later hclock
  attends := Pool.forall_set hm hattends hothers
  attended := by
    intro r run hrun hlive
    rcases hattended r run hrun hlive with ⟨since, hpc⟩ | ⟨j, n, since, hne, hn, hpc⟩
    · exact ⟨k, m', since, Pool.get_set_self hm m', hpc⟩
    · exact ⟨j, n, since, (Pool.get_set_of_ne hm m' hne).trans hn, hpc⟩
  timely := htimely

/-- A message comes into the queue. -/
theorem Sound.spawn (h : Sound o d) {task : Task} {eta : Time}
    (hapart : ∀ (j : Nat) (m : TaskMessage), d.messages[j]? = some m → m.current = true →
      m.task.id ≠ task.id)
    (hheld : task ∈ d.system.broker) (heta : eta ≤ d.system.clock + seconds retryBackoffMaxS) :
    Sound o { d with
      messages := Pool.spawn d.messages ⟨task, eta, .queued d.system.clock, false⟩ } where
  orderly := h.orderly
  unique := Pool.forall_pairs_spawn (fun _ _ => TaskMessage.Apart.symm) h.unique
    fun j m hm _ hcurrent heq => hapart j m hm hcurrent heq.symm
  held := Pool.forall_spawn (fun _ => hheld) h.held
  timed := Pool.forall_spawn (TaskMessage.timed_queued o task heta) h.timed
  attends := Pool.forall_spawn (fun _ _ hpc => by cases hpc) h.attends
  attended := by
    intro r run hrun hlive
    obtain ⟨k, m, since, hm, hpc⟩ := h.attended r run hrun hlive
    exact ⟨k, m, since, Pool.get_spawn_of_some hm _, hpc⟩
  timely := h.timely

/-- The relay goes on without a message. -/
theorem Sound.carry (h : Sound o d) {t : System}
    (horderly : System.Reachable (fun s a => Lifecycle.Orderly s.view a) t)
    (hclock : d.system.clock ≤ t.clock) (hbroker : d.system.broker ⊆ t.broker)
    (hruns : t.runs = d.system.runs)
    (htimely : ∀ run ∈ d.system.runs, run.live = true →
      t.clock ≤ run.claimedAt + o.timeLimit) :
    Sound o ⟨t, d.messages⟩ where
  orderly := horderly
  unique := h.unique
  held := fun k m hm hcurrent => hbroker (h.held k m hm hcurrent)
  timed := fun k m hm => (h.timed k m hm).later hclock
  attends := hruns ▸ h.attends
  attended := hruns ▸ h.attended
  timely := hruns ▸ htimely

/-- A message that is not in execution moves on. -/
theorem Sound.move (h : Sound o d) {k : Nat} {m m' : TaskMessage} (hm : d.messages[k]? = some m)
    (hpc : ∀ since r, m.pc ≠ .running since r) (hpc' : ∀ since r, m'.pc ≠ .running since r)
    (hself : m'.current = true → m.current = true ∧ m'.task = m.task)
    (htimed : m'.Timed o d.system.clock) :
    Sound o { d with messages := d.messages.set k m' } := by
  refine h.change hm h.orderly (Int.le_refl _) (fun hcurrent => ?_)
    (fun j n hn _ => h.held j n hn) htimed (fun since r heq => absurd heq (hpc' since r))
    (fun j n hn _ => h.attends j n hn) (fun r run hrun hlive => ?_) h.timely
  · obtain ⟨hold, htask⟩ := hself hcurrent
    exact ⟨hold, htask, h.held k m hm hold⟩
  · obtain ⟨j, n, since, hn, hrunning⟩ := h.attended r run hrun hlive
    refine .inr ⟨j, n, since, ?_, hn, hrunning⟩
    rintro rfl
    cases Option.some.inj (hm.symm.trans hn)
    exact hpc since r hrunning

theorem mem_acknowledge {s : System} {m : TaskMessage} {task : Task} (hmem : task ∈ s.broker)
    (hne : m.restored = false → task ≠ m.task) : task ∈ (acknowledge s m).broker := by
  obtain ⟨-, -, heq | ⟨hrestored, -, hbroker⟩⟩ := acknowledge_cases s m
  · rw [heq]
    exact hmem
  · rw [hbroker]
    exact (List.mem_erase_of_ne (hne hrestored)).mpr hmem

/-- The relay after an acknowledgement. -/
theorem reachable_acknowledge {s : System} {m : TaskMessage}
    (hs : System.Reachable (fun s a => Lifecycle.Orderly s.view a) s)
    (hyoung : ∀ run ∈ s.runs, run.live = true → s.clock - run.claimedAt < staleSendingAfter) :
    System.Reachable (fun s a => Lifecycle.Orderly s.view a) (acknowledge s m) := by
  obtain ⟨-, -, heq | ⟨-, hdrop, -⟩⟩ := acknowledge_cases s m
  · rw [heq]
    exact hs
  · obtain ⟨clock, hs⟩ := hs
    exact ⟨clock, hs.tail ⟨_, fun run hrun hlive => ⟨hyoung run hrun hlive, by
      simp [System.Action.delivered]⟩, hdrop⟩⟩

/-- The other messages keep their tasks when one is acknowledged. -/
theorem Sound.others_held (h : Sound o d) {k : Nat} {m : TaskMessage}
    (hm : d.messages[k]? = some m) (hopen : m.pc ≠ .closed) {s : System}
    (hbroker : d.system.broker ⊆ s.broker) {j : Nat} {n : TaskMessage}
    (hn : d.messages[j]? = some n) (hne : j ≠ k) (hcurrent : n.current = true) :
    n.task ∈ (acknowledge s m).broker := by
  refine mem_acknowledge (hbroker (h.held j n hn hcurrent)) fun hrestored heq => ?_
  exact h.unique j k n m hn hm hne hcurrent (TaskMessage.current_iff.mpr ⟨hrestored, hopen⟩)
    (congrArg Task.id heq)

theorem timed_closed (o : Timeouts) (clock : Time) (task : Task) (eta : Time) (restored : Bool) :
    TaskMessage.Timed o clock ⟨task, eta, .closed, restored⟩ := by
  constructor <;> simp [TaskMessagePc.since, TaskMessagePc.taken]

/-- A message that is not in execution leaves the broker. -/
theorem Sound.close (h : Sound o d) (ho : o.Ordered) {k : Nat} {m : TaskMessage}
    (hm : d.messages[k]? = some m) (hopen : m.pc ≠ .closed)
    (hpc : ∀ since r, m.pc ≠ .running since r) {s : System}
    (hs : System.Reachable (fun s a => Lifecycle.Orderly s.view a) s)
    (hclock : s.clock = d.system.clock) (hruns : s.runs = d.system.runs)
    (hbroker : s.broker = d.system.broker) :
    Sound o ⟨acknowledge s m, d.messages.set k { m with pc := .closed }⟩ := by
  obtain ⟨hclock', hruns', -⟩ := acknowledge_cases s m
  rw [hclock] at hclock'
  rw [hruns] at hruns'
  refine h.change hm (reachable_acknowledge hs ?_) (Int.le_of_eq hclock'.symm) ?_ ?_
    (timed_closed ..) (fun since r heq => by cases heq) ?_ ?_ ?_
  · intro run hrun hlive
    rw [hclock]
    exact h.young ho (hruns ▸ hrun) hlive
  · simp [TaskMessage.current]
  · intro j n hn hne hcurrent
    exact h.others_held hm hopen (hbroker ▸ List.Subset.refl _) hn hne hcurrent
  · rw [hruns']
    exact fun j n hn _ => h.attends j n hn
  · rw [hruns']
    intro r run hrun hlive
    obtain ⟨j, n, since, hn, hrunning⟩ := h.attended r run hrun hlive
    refine .inr ⟨j, n, since, ?_, hn, hrunning⟩
    rintro rfl
    cases Option.some.inj (hm.symm.trans hn)
    exact hpc since r hrunning
  · rw [hruns', hclock']
    exact h.timely

theorem Sound.begun (h : Sound o d) (ho : o.Ordered) {k : Nat} (ha : Punctual o d (.start k))
    {m : TaskMessage} {since : Time} {s : System} {message : Message}
    (hm : d.messages[k]? = some m) (hpc : m.pc = .waiting since)
    (hs : System.Reachable (fun s a => Lifecycle.Orderly s.view a) s)
    (hclock : s.clock = d.system.clock)
    (hruns : s.runs = Pool.spawn d.system.runs
      ⟨m.task, (claimUpdate m.task.id d.system.clock).apply message, .claimed⟩)
    (hbroker : s.broker = d.system.broker) :
    Sound o ⟨s, d.messages.set k { m with pc := .running since (Pool.next d.system.runs) }⟩ := by
  have htaken : m.pc.taken = some since := by rw [hpc]; rfl
  have hold := h.timed k m hm
  have hcurrent : m.current = true := TaskMessage.current_iff.mpr
    ⟨h.not_restored_of_start ho ha hm hpc, by rw [hpc]; simp⟩
  refine h.change hm hs (Int.le_of_eq hclock.symm)
    (fun _ => ⟨hcurrent, rfl, hbroker ▸ h.held k m hm hcurrent⟩)
    (fun j n hn _ hother => hbroker ▸ h.held j n hn hother) ?_ ?_ ?_ ?_ ?_
  · rw [hclock]
    exact hold.placed htaken rfl
  · rintro _ _ ⟨⟩
    refine ⟨_, by rw [hruns, Pool.get_spawn, if_pos rfl], rfl, rfl, ?_⟩
    exact ha m hm since htaken
  · intro j n hn _ since' r hrunning
    obtain ⟨run, hrun, hrest⟩ := h.attends j n hn since' r hrunning
    exact ⟨run, hruns ▸ Pool.get_spawn_of_some hrun _, hrest⟩
  · rw [hruns]
    intro r run hrun hlive
    rw [Pool.get_spawn] at hrun
    split at hrun
    next heq => exact .inl ⟨since, by rw [heq]⟩
    next =>
      obtain ⟨j, n, since', hn, hrunning⟩ := h.attended r run hrun hlive
      refine .inr ⟨j, n, since', ?_, hn, hrunning⟩
      rintro rfl
      cases Option.some.inj (hm.symm.trans hn)
      rw [hpc] at hrunning
      cases hrunning
  · rw [hruns, hclock]
    intro run hrun hlive
    rcases List.mem_append.mp hrun with hold | hnew
    · exact h.timely run hold hlive
    · cases List.mem_singleton.mp hnew
      exact Int.le_add_of_nonneg_right ho.timeLimit

/-- Two messages in execution are in different runs. -/
theorem Sound.running_inj (h : Sound o d) (ho : o.Ordered) {j k r : Nat} {m n : TaskMessage}
    {since since' : Time} (hm : d.messages[j]? = some m) (hpc : m.pc = .running since r)
    (hn : d.messages[k]? = some n) (hpc' : n.pc = .running since' r) : j = k := by
  obtain ⟨run, hrun, htask, -⟩ := h.attends j m hm since r hpc
  obtain ⟨run', hrun', htask', -⟩ := h.attends k n hn since' r hpc'
  cases Option.some.inj (hrun.symm.trans hrun')
  by_contra hne
  refine h.unique j k m n hm hn hne ?_ ?_ (congrArg Task.id (htask.symm.trans htask'))
  · exact TaskMessage.current_iff.mpr ⟨h.not_restored ho hm hpc, by rw [hpc]; simp⟩
  · exact TaskMessage.current_iff.mpr ⟨h.not_restored ho hn hpc', by rw [hpc']; simp⟩

/-- A run goes on, or it ends and its message with it. -/
theorem Sound.ran (h : Sound o d) (ho : o.Ordered) {k r : Nat} {m m' : TaskMessage} {since : Time}
    {action : System.RunAction} {run : DeliveryRun} {pc : DeliveryPc} {s t : System}
    (hm : d.messages[k]? = some m) (hpc : m.pc = .running since r)
    (hmoved : RunMoved d.system r action run pc s)
    (horderly : System.Reachable (fun s a => Lifecycle.Orderly s.view a) t)
    (hclock : t.clock = s.clock) (hruns : t.runs = s.runs)
    (hself : m'.current = true → m'.task = m.task ∧ m.task ∈ t.broker)
    (hbroker : ∀ (j : Nat) (n : TaskMessage), d.messages[j]? = some n → j ≠ k →
      n.current = true → n.task ∈ t.broker)
    (htimed : m'.Timed o t.clock)
    (hcases : m' = m ∧ pc.live = true ∨
      (∀ since' r', m'.pc ≠ .running since' r') ∧ pc.live = false) :
    Sound o ⟨t, d.messages.set k m'⟩ := by
  have hcurrent : m.current = true :=
    TaskMessage.current_iff.mpr ⟨h.not_restored ho hm hpc, by rw [hpc]; simp⟩
  have hclock := hclock.trans hmoved.clock
  have hruns := hruns.trans hmoved.runs
  refine h.change hm horderly (Int.le_of_eq hclock.symm) (fun hyes => ⟨hcurrent, hself hyes⟩)
    hbroker htimed ?_ ?_ ?_ ?_
  · intro since' r' hrunning
    rcases hcases with ⟨rfl, hgoing⟩ | ⟨hnot, -⟩
    · obtain ⟨old, hold, htask, -, hclaimed⟩ := h.attends k m' hm since' r' hrunning
      rw [hpc] at hrunning
      cases hrunning
      cases Option.some.inj (hmoved.found.symm.trans hold)
      exact ⟨{ run with pc := pc }, hruns ▸ Pool.get_set_self hold _, htask, hgoing, hclaimed⟩
    · exact absurd hrunning (hnot since' r')
  · intro j n hn hne since' r' hrunning
    obtain ⟨other, hother, hrest⟩ := h.attends j n hn since' r' hrunning
    refine ⟨other, ?_, hrest⟩
    rw [hruns, Pool.get_set_of_ne hmoved.found _ ?_]
    · exact hother
    · rintro rfl
      exact hne (h.running_inj ho hn hrunning hm hpc)
  · rw [hruns]
    intro r' other hother hlive
    by_cases hr : r' = r
    · subst hr
      rcases hcases with ⟨rfl, -⟩ | ⟨-, hended⟩
      · exact .inl ⟨since, hpc⟩
      · cases Option.some.inj ((Pool.get_set_self hmoved.found _).symm.trans hother)
        rw [DeliveryRun.live, hended] at hlive
        contradiction
    · rw [Pool.get_set_of_ne hmoved.found _ hr] at hother
      obtain ⟨j, n, since', hn, hrunning⟩ := h.attended r' other hother hlive
      refine .inr ⟨j, n, since', ?_, hn, hrunning⟩
      rintro rfl
      cases Option.some.inj (hm.symm.trans hn)
      rw [hpc] at hrunning
      cases hrunning
      exact hr rfl
  · rw [hruns, hclock]
    intro other hother hlive
    rcases List.mem_or_eq_of_mem_set hother with hmem | rfl
    · exact h.timely other hmem hlive
    · exact h.timely run (List.mem_of_getElem? hmoved.found) hmoved.live

/-- The task of the message is the one that runs. -/
theorem Sound.task_eq (h : Sound o d) {k r : Nat} {m : TaskMessage} {since : Time}
    {run : DeliveryRun} (hm : d.messages[k]? = some m) (hpc : m.pc = .running since r)
    (hrun : d.system.runs[r]? = some run) : run.task = m.task := by
  obtain ⟨other, hother, htask, -⟩ := h.attends k m hm since r hpc
  cases Option.some.inj (hother.symm.trans hrun)
  exact htask

theorem seconds_le {countdown : Nat} {retries : Nat} (h : countdown ≤ retryCountdown retries) :
    seconds countdown ≤ seconds retryBackoffMaxS := by
  have hle : countdown ≤ retryBackoffMaxS := Nat.le_trans h (Nat.min_le_left _ _)
  exact Int.mul_le_mul_of_nonneg_right (Int.ofNat_le.mpr hle) (by decide)

/-- A run has ended, and its retry is in the queue if there is one. -/
theorem Sound.ended (h : Sound o d) (ho : o.Ordered) {k r countdown : Nat} {m : TaskMessage}
    {since : Time} {action : System.RunAction} {run : DeliveryRun} {how : DeliveryEnd} {s : System}
    (hm : d.messages[k]? = some m) (hpc : m.pc = .running since r)
    (hcountdown : countdown ≤ retryCountdown m.task.retries)
    (hmoved : RunMoved d.system r action run (.ended how) s) :
    Sound o ⟨acknowledge s m, enqueue (d.messages.set k { m with pc := .closed }) s.clock
      (s.clock + seconds countdown) (arrived d.system s)⟩ := by
  have htask := h.task_eq hm hpc hmoved.found
  have hopen : m.pc ≠ .closed := by rw [hpc]; simp
  have hcurrent : m.current = true :=
    TaskMessage.current_iff.mpr ⟨h.not_restored ho hm hpc, hopen⟩
  obtain ⟨hclock, hruns, -⟩ := acknowledge_cases s m
  have hs := h.orderly_step ho (by simp [System.Action.delivered]) hmoved.step
  have hclosed : Sound o ⟨acknowledge s m, d.messages.set k { m with pc := .closed }⟩ := by
    refine h.ran ho hm hpc hmoved (reachable_acknowledge hs ?_) hclock hruns
      (by simp [TaskMessage.current]) ?_ (timed_closed ..) (.inr ⟨by simp, rfl⟩)
    · intro other hother hlive
      rw [hmoved.runs] at hother
      rw [hmoved.clock]
      rcases List.mem_or_eq_of_mem_set hother with hmem | rfl
      · exact h.young ho hmem hlive
      · cases hlive
    · exact fun j n hn hne hother => h.others_held hm hopen hmoved.subset hn hne hother
  rcases hmoved.broker with hsame | ⟨-, hretry⟩
  · rw [arrived_of_eq hsame]
    exact hclosed
  · rw [arrived_of_cons hretry, ← hclock]
    have hnew : retryOf run.task ≠ m.task := fun heq =>
      absurd (congrArg Task.retries (heq.trans htask.symm)) (Nat.succ_ne_self _)
    refine hclosed.spawn (fun j n hn hother => ?_) ?_ ?_
    · have hne : j ≠ k := by
        rintro rfl
        cases Option.some.inj ((Pool.get_set_self hm _).symm.trans hn)
        simp [TaskMessage.current] at hother
      rw [Pool.get_set_of_ne hm _ hne] at hn
      have hid := h.unique j k n m hn hm hne hother hcurrent
      have hsame : run.task.id = m.task.id := congrArg Task.id htask
      exact fun heq => hid (heq.trans hsame)
    · exact mem_acknowledge (hretry ▸ List.mem_cons_self) fun _ => hnew
    · exact Int.add_le_add_left (seconds_le hcountdown) _

/-- A message goes back in the queue. -/
theorem Sound.copy (h : Sound o d) {k : Nat} {m m' : TaskMessage} {since : Time}
    (hm : d.messages[k]? = some m) (hcurrent : m.current = true)
    (hpc : ∀ since r, m.pc ≠ .running since r) (htaken : m.pc.taken = some since)
    (hpc' : ∀ since r, m'.pc ≠ .running since r) (hdone : m'.current = false)
    (htimed : m'.Timed o d.system.clock) :
    Sound o (copy { d with messages := d.messages.set k m' } m) := by
  have hmoved := h.move hm hpc hpc' (fun hyes => by simp [hdone] at hyes) htimed
  refine hmoved.spawn (fun j n hn hother => ?_) (h.held k m hm hcurrent) ?_
  · have hne : j ≠ k := by
      rintro rfl
      cases Option.some.inj ((Pool.get_set_self hm _).symm.trans hn)
      rw [hdone] at hother
      contradiction
    rw [Pool.get_set_of_ne hm _ hne] at hn
    exact h.unique j k n m hn hm hne hother hcurrent
  · have hold := h.timed k m hm
    have hsince := TaskMessagePc.since_of_taken htaken
    exact Int.le_trans (hold.eta since hsince) (Int.add_le_add_right (hold.past since hsince) _)

theorem Sound.relay (h : Sound o d) (ho : o.Ordered) {action : System.Action}
    (ha : Punctual o d (.relay action)) (hinternal : internal action = true) {s : System}
    (hstep : d.system.step action = some s) :
    Sound o ⟨s, enqueue d.messages s.clock s.clock (arrived d.system s)⟩ := by
  have hs := h.orderly_step ho (fun task htask => by
    cases action <;> contradiction) hstep
  obtain ⟨hruns, hbroker⟩ := System.internal_cases h.orderly hinternal hstep
  have hsubset : d.system.broker ⊆ s.broker := by
    rcases hbroker with heq | ⟨task, heq, -⟩
    · rw [heq]
      exact List.Subset.refl _
    · rw [heq]
      exact List.subset_cons_self _ _
  have hclock : d.system.clock ≤ s.clock ∧ ∀ run ∈ d.system.runs, run.live = true →
      s.clock ≤ run.claimedAt + o.timeLimit := by
    rcases System.clock_cases h.orderly hstep with heq | ⟨elapsed, rfl, heq⟩
    · rw [heq]
      exact ⟨Int.le_refl _, h.timely⟩
    · rw [heq]
      exact ⟨Int.le_add_of_nonneg_right (Int.natCast_nonneg _), ha⟩
  have hcarried := h.carry hs hclock.1 hsubset hruns hclock.2
  rcases hbroker with hsame | ⟨task, hnew, hfresh⟩
  · rw [arrived_of_eq hsame]
    exact hcarried
  · rw [arrived_of_cons hnew]
    refine hcarried.spawn (fun j m hm hcurrent => ?_) (hnew ▸ List.mem_cons_self)
      (Int.le_add_of_nonneg_right (by decide))
    have hissued := (System.traced h.orderly).broker _ (h.held j m hm hcurrent)
    exact hissued.ne_of_fresh hfresh

theorem Sound.step (h : Sound o d) (ho : o.Ordered) (ha : Punctual o d a)
    (hstep : d.step a = some e) : Sound o e := by
  cases step_move hstep with
  | relayed hinternal hs => exact h.relay ho ha hinternal hs
  | @reserved k m since hm hpc =>
      have htimed := h.timed k m hm
      have hsince : m.pc.since = some since := by rw [hpc]; rfl
      have hfresh := htimed.queued since hpc
      refine h.move hm (by rw [hpc]; simp) (by simp)
        (fun _ => ⟨TaskMessage.current_iff.mpr ⟨hfresh, by rw [hpc]; simp⟩, rfl⟩) ?_
      refine ⟨fun _ hnow => ?_, fun _ hnow => ?_, nofun, fun _ _ hyes => ?_⟩
      · exact Int.le_of_eq (Option.some.inj hnow).symm
      · have hle := Int.add_le_add_right (htimed.past since hsince) (seconds retryBackoffMaxS)
        exact Option.some.inj hnow ▸ Int.le_trans (htimed.eta since hsince) hle
      · rw [hfresh] at hyes
        contradiction
  | declined hm hpc hs hclock hruns hbroker =>
      exact h.close ho hm (by rw [hpc]; simp) (by rw [hpc]; simp) (h.orderly_start ho ha hm hpc hs)
        hclock hruns hbroker
  | begun hm hpc heta hs hclock hruns hbroker =>
      exact h.begun ho ha hm hpc (h.orderly_start ho ha hm hpc hs) hclock hruns hbroker
  | @going k r countdown m since action run pc s hm hpc hmoved hgoing =>
      have hcurrent : m.current = true :=
        TaskMessage.current_iff.mpr ⟨h.not_restored ho hm hpc, by rw [hpc]; simp⟩
      have hran := h.ran ho hm hpc hmoved
        (h.orderly_step ho (by simp [System.Action.delivered]) hmoved.step) rfl rfl
        (fun _ => ⟨rfl, hmoved.subset (h.held k m hm hcurrent)⟩)
        (fun j n hn _ hother => hmoved.subset (h.held j n hn hother))
        ((h.timed k m hm).later (Int.le_of_eq hmoved.clock.symm)) (.inl ⟨rfl, hgoing⟩)
      obtain ⟨hk, rfl⟩ := List.getElem?_eq_some_iff.mp hm
      rw [List.set_getElem_self] at hran
      exact hran
  | @crashed k r countdown m since action run s hm hpc hmoved =>
      have hcurrent : m.current = true :=
        TaskMessage.current_iff.mpr ⟨h.not_restored ho hm hpc, by rw [hpc]; simp⟩
      have htimed := (h.timed k m hm).later (Int.le_of_eq hmoved.clock.symm)
      exact h.ran ho hm hpc hmoved
        (h.orderly_step ho (by simp [System.Action.delivered]) hmoved.step) rfl rfl
        (fun _ => ⟨rfl, hmoved.subset (h.held k m hm hcurrent)⟩)
        (fun j n hn _ hother => hmoved.subset (h.held j n hn hother))
        (htimed.placed (by rw [hpc]; rfl) rfl) (.inr ⟨by simp, rfl⟩)
  | ended hm hpc hcountdown hmoved => exact h.ended ho hm hpc hcountdown hmoved
  | @abandoned k m since hm hpc =>
      exact h.move hm (by rw [hpc]; simp) (by simp)
        (fun hcurrent => ⟨by simpa [TaskMessage.current, hpc] using hcurrent, rfl⟩)
        ((h.timed k m hm).placed (by rw [hpc]; rfl) rfl)
  | requeued hm hpc hrestored =>
      exact h.copy hm (TaskMessage.current_iff.mpr ⟨hrestored, by rw [hpc]; simp⟩)
        (by rw [hpc]; simp) (by rw [hpc]; rfl) (by simp) (by simp [TaskMessage.current])
        (timed_closed ..)
  | discarded hm hpc =>
      exact h.close ho hm (by rw [hpc]; simp) (by rw [hpc]; simp) h.orderly rfl rfl rfl
  | @restored k m since hm htaken hrestored =>
      have hpc : ∀ since' r, m.pc ≠ .running since' r :=
        fun since' r => h.not_running_of_restore ho ha hm
      have hold := h.timed k m hm
      refine h.copy hm (TaskMessage.current_iff.mpr ⟨hrestored, ?_⟩) hpc htaken hpc
        (by simp [TaskMessage.current]) ⟨hold.past, hold.eta, fun since' heq => ?_, ?_⟩
      · intro heq
        rw [heq] at htaken
        cases htaken
      · rw [show m.pc = _ from heq] at htaken
        cases htaken
      · exact fun since' heq _ => ha m hm since' heq
  | lost hm hpc =>
      exact h.close ho hm (by rw [hpc]; simp) (by rw [hpc]; simp) h.orderly rfl rfl rfl

theorem sound_of_reachable (ho : o.Ordered) (h : Reachable (Punctual o) d) : Sound o d := by
  obtain ⟨clock, h⟩ := h
  exact Transition.Reaches.invariant h (Sound o) (sound_init o clock)
    fun _ _ _ hinv ha hstep => hinv.step ho ha hstep

theorem ordered_configured {slack : Time} (hslack : 0 ≤ slack ∧ slack < seconds 240) :
    (configured slack).Ordered where
  timeLimit := show 0 ≤ celeryTaskTimeLimit by decide
  slack := hslack.1
  visibility := by
    have hsum : seconds retryBackoffMaxS + seconds 240 + celeryTaskTimeLimit ≤
        visibilityTimeout := by decide
    show seconds retryBackoffMaxS + slack + celeryTaskTimeLimit < visibilityTimeout
    linarith [hslack.2]
  stale := show visibilityTimeout ≤ staleSendingAfter by decide

end Deployment

/-- A run that owns its message keeps the deliveries of other tasks out. -/
theorem Lifecycle.Owned.exclusive {v : Lifecycle} {a : System.Action} (h : Owned v)
    (hhistory : History v) (ha : Orderly v a) : Exclusive v a := by
  intro task htask m hfind hclaim run hrun hlive hmessage
  obtain ⟨r, hrun⟩ := List.mem_iff_getElem?.mp hrun
  obtain ⟨owned, howned, hid, hsending, hclaimed, -⟩ := h.held r run hrun hlive
  obtain ⟨hm, hkey⟩ := v.messages.find?_eq_some.mp hfind
  have hsame : m.id = owned.id :=
    (hkey.trans hmessage.symm).trans ((hhistory.runs r run hrun).1.trans hid.symm)
  cases v.messages.eq_of_key hm howned hsame
  have hne := (ha run (List.mem_of_getElem? hrun) hlive).2 task htask
  rcases claim_eq_claimed.mp hclaim with hqueued | ⟨-, howner⟩
  · rw [hsending] at hqueued
    contradiction
  · exact hne (howner.symm.trans hclaimed)

theorem System.exclusive_of_orderly {s : System}
    (h : System.Reachable (fun s a => Lifecycle.Orderly s.view a) s) :
    System.Reachable (fun s a => Lifecycle.Exclusive s.view a) s := by
  obtain ⟨clock, h⟩ := h
  refine ⟨clock, ?_⟩
  induction h with
  | refl => exact .refl
  | tail hbefore hlast ih =>
      obtain ⟨a, ha, hstep⟩ := hlast
      have hexclusive := (System.owned ⟨clock, hbefore⟩).exclusive
        (System.history ⟨clock, hbefore⟩) ha
      exact ih.tail ⟨a, hexclusive, hstep⟩

namespace Deployment

variable {o : Timeouts} {d e : Deployment} {a : Action}

/-- What the relay's guarantees assume of the broker and the workers, the configured timeouts
bring about. -/
theorem assumptions_met {slack : Time} (hslack : 0 ≤ slack ∧ slack < seconds 240)
    (h : Reachable (Punctual (configured slack)) d) :
    System.Reachable (fun s a => Lifecycle.Orderly s.view a) d.system ∧
      System.Reachable (fun s a => Lifecycle.Exclusive s.view a) d.system := by
  have hsound := sound_of_reachable (ordered_configured hslack) h
  exact ⟨hsound.orderly, System.exclusive_of_orderly hsound.orderly⟩

/-- Under the configured timeouts a run that goes on is alone with its message, and Beat does
not take the message for stale. -/
theorem one_run_each {slack : Time} (hslack : 0 ≤ slack ∧ slack < seconds 240)
    (h : Reachable (Punctual (configured slack)) d) {r : Nat} {run : DeliveryRun}
    (hrun : d.system.runs[r]? = some run) (hlive : run.live = true) :
    (∀ (r' : Nat) (run' : DeliveryRun), d.system.runs[r']? = some run' → run'.live = true →
      run'.task.message = run.task.message → r' = r) ∧
    ∃ m ∈ d.system.db.messages.rows, m.id = run.task.message ∧ m.status = .sending ∧
      m.claimedBy = run.task.id ∧ stale d.system.clock m = false := by
  have hsound := sound_of_reachable (ordered_configured hslack) h
  have howned := System.owned hsound.orderly
  have hmessage := fun i other (hother : d.system.runs[i]? = some other) =>
    ((System.history hsound.orderly).runs i other hother).1
  obtain ⟨m, hm, hid, hsending, hclaimed, hupdated⟩ := howned.held r run hrun hlive
  refine ⟨fun r' run' hrun' hlive' hsame => ?_, m, hm, hid.trans (hmessage r run hrun).symm,
    hsending, hclaimed, ?_⟩
  · rw [hmessage r' run' hrun', hmessage r run hrun] at hsame
    exact howned.eq_of_message hrun' hlive' hrun hlive hsame
  · have hyoung := hsound.young (ordered_configured hslack) (List.mem_of_getElem? hrun) hlive
    rw [← hupdated] at hyoung
    simp only [stale, hsending, beq_self_eq_true, Bool.true_and, decide_eq_false_iff_not]
    exact fun hless => absurd hyoung (by linarith)

section Scenario

/-- A first message in the hands of a worker, which has begun to run it. -/
def beginning : List Action := System.opening.map .relay ++ [.reserve 0, .start 0]

def unavailable : ChannelResult := ⟨false, true, "HTTP 503", some 503, none⟩

/-- The first run fails, and its retry begins half a minute later. -/
def retrying : List Action :=
  beginning ++ [.run 0 .sendStart 0, .relay (.tick 2000000),
    .run 0 (.sendEnd (.returned unavailable)) 0, .run 0 .count 0, .run 0 .record 0,
    .run 0 (.finish true) 30, .reserve 1, .relay (.tick 30000000), .start 1]

end Scenario

theorem assumptions_met_retried :
    ∃ d, Reachable (Punctual (configured (seconds 10))) d ∧ d.system.runs.length = 2 ∧
      System.Reachable (fun s a => Lifecycle.Orderly s.view a) d.system ∧
      System.Reachable (fun s a => Lifecycle.Exclusive s.view a) d.system := by
  obtain ⟨d, hd, hlength⟩ := Transition.exists_of_runAll step
    (Punctual (configured (seconds 10))) (init 0) retrying
    (fun d => d.system.runs.length = 2) (by decide +kernel)
  exact ⟨d, ⟨0, hd⟩, hlength, assumptions_met (by decide) ⟨0, hd⟩⟩

theorem one_run_each_retried :
    ∃ d run, Reachable (Punctual (configured (seconds 10))) d ∧
      d.system.runs[1]? = some run ∧ run.live = true ∧
      ∃ m ∈ d.system.db.messages.rows, m.id = run.task.message ∧ m.status = .sending ∧
        m.claimedBy = run.task.id ∧ stale d.system.clock m = false := by
  obtain ⟨d, hd, run, hrun, hlive⟩ := Transition.exists_of_runAll step
    (Punctual (configured (seconds 10))) (init 0) retrying
    (fun d => ∃ run ∈ d.system.runs[1]?, run.live = true) (by decide +kernel)
  exact ⟨d, run, ⟨0, hd⟩, hrun, hlive, (one_run_each (by decide) ⟨0, hd⟩ hrun hlive).2⟩

end Deployment
end NotifyRelay
