import NotifyRelay.History

/-! Nothing is sent early. `_dispatch` never looks at `scheduled_at`: that the time has
come is a property of everything that can lead to it. -/
namespace NotifyRelay

open Services Delivery Scheduler

/-- The message an event gives to the broker or to its channel, and when. -/
def Event.handover : Event → Option (MessageId × Time)
  | .published _ task _ time => some (task.message, time)
  | .retried _ task time => some (task.message, time)
  | .sendInvoked _ message time => some (message.id, time)
  | _ => none

/-- At `time` the message `id` may be sent. -/
def DueBy (log : List Event) (time : Time) (id : MessageId) : Prop :=
  ∃ row, Accepted log row ∧ row.id = id ∧
    ∀ scheduledAt, row.scheduledAt = some scheduledAt → scheduledAt ≤ time

theorem DueBy.mono {log later : List Event} {time time' : Time} {id : MessageId}
    (h : DueBy log time id) (hsub : log ⊆ later) (htime : time ≤ time') :
    DueBy later time' id := by
  obtain ⟨row, hrow, hid, hscheduled⟩ := h
  exact ⟨row, hrow.mono hsub, hid, fun t ht => Int.le_trans (hscheduled t ht) htime⟩

namespace Lifecycle

structure OnTime (v : Lifecycle) : Prop where
  rows : ∀ m ∈ v.messages.rows,
    m.status = .queued ∧ m.enqueuedAt = none ∨ DueBy v.log v.clock m.id
  pending : ∀ source, ∀ entry ∈ v.pending source, DueBy v.log v.clock entry.1
  broker : ∀ task ∈ v.broker, DueBy v.log v.clock task.message
  runs : ∀ (r : Nat) (run : DeliveryRun), v.runs[r]? = some run →
    DueBy v.log v.clock run.message.id
  events : ∀ event ∈ v.log, ∀ id time, event.handover = some (id, time) → DueBy v.log time id

variable {v w : Lifecycle} {a : System.Action}

theorem onTime_init (clock : Time) : OnTime (init clock) := by
  constructor <;> simp [init, Table.empty]

/-- Each branch of the dispatcher's filter shows that the message is due: `due` by
itself, the others because the row was due before. -/
theorem OnTime.dueBy_of_filter (h : OnTime v) (hhistory : History v) {now : Time} {m : Message}
    (hm : m ∈ v.messages.rows) (hfilter : dispatchFilter now m = true) (hnow : now ≤ v.clock) :
    DueBy v.log v.clock m.id := by
  rcases h.rows m hm with ⟨hqueued, henqueued⟩ | hdue
  · obtain ⟨row, hrow, hfrozen⟩ := hhistory.rows m hm
    have hscheduled : m.scheduledAt.any (· ≤ now) = true := by
      simpa [dispatchFilter, due, stranded, stale, hqueued, henqueued] using hfilter
    refine ⟨row, hrow, id_eq_of_frozen hfrozen, fun t ht => ?_⟩
    rw [scheduledAt_eq_of_frozen hfrozen] at ht
    rw [ht, Option.any_some, decide_eq_true_eq] at hscheduled
    exact Int.le_trans hscheduled hnow
  · exact hdue

theorem OnTime.row_step (h : OnTime v) (hhistory : History v) (hstep : Step v a w) {m : Message}
    (hm : m ∈ w.messages.rows) :
    m.status = .queued ∧ m.enqueuedAt = none ∨ DueBy w.log w.clock m.id := by
  have hlater : ∀ {id : MessageId}, DueBy v.log v.clock id → DueBy w.log w.clock id :=
    fun hdue => hdue.mono hstep.log_subset hstep.clock_le
  cases hstep.row hm with
  | kept hold => exact (h.rows m hold).imp_right hlater
  | inserted hfresh hnow hlog =>
      rename_i c id apiKey key data version rendered context now postgres
      cases hsend : sendNow data now with
      | true =>
          refine .inr ⟨_, ⟨c, hlog⟩, rfl, fun t ht => ?_⟩
          exact Int.le_trans (le_of_sendNow hsend ht) (Int.le_trans hnow hstep.clock_le)
      | false => exact .inl ⟨rfl, by simp [newMessage, hsend]⟩
  | released hold hfilter hnow =>
      have hdue := h.dueBy_of_filter hhistory hold hfilter hnow
      exact .inr (hlater hdue)
  | claimed hbroker _ hid => exact .inr (hlater (hid ▸ h.broker _ hbroker))
  | finished hrun _ _ hid => exact .inr (hlater (hid ▸ h.runs _ _ hrun))

theorem OnTime.step (h : OnTime v) (hhistory : History v) (hstep : Step v a w) : OnTime w := by
  have hsub := hstep.log_subset
  have hlater : ∀ {id : MessageId}, DueBy v.log v.clock id → DueBy w.log w.clock id :=
    fun hdue => hdue.mono hsub hstep.clock_le
  have htask : ∀ (r : Nat) (run : DeliveryRun), v.runs[r]? = some run →
      DueBy v.log v.clock run.task.message := by
    intro r run hrun
    rw [(hhistory.runs r run hrun).1]
    exact h.runs r run hrun
  have hbroker : ∀ task ∈ w.broker, DueBy v.log v.clock task.message := by
    intro task hmem
    rcases hstep.broker hmem with hold | ⟨source, stamp, hpending⟩ | ⟨r, run, hrun, rfl⟩
    · exact h.broker task hold
    · exact h.pending source _ hpending
    · exact htask r run hrun
  constructor
  case rows => exact fun m hm => h.row_step hhistory hstep hm
  case broker => exact fun task hmem => hlater (hbroker task hmem)
  case pending =>
    intro source entry hentry
    rcases hstep.pending hentry with hold | ⟨m, hm, hid, henqueued⟩
    · exact hlater (h.pending source entry hold)
    · rcases h.row_step hhistory hstep hm with ⟨_, hnone⟩ | hdue
      · rw [hnone] at henqueued
        contradiction
      · exact hid ▸ hdue
  case runs =>
    intro r run hrun
    cases hstep.run hrun with
    | kept hold => exact hlater (h.runs r run hold)
    | claimed hmem hfind =>
        have hid := (v.messages.find?_eq_some.mp hfind).2
        exact hlater (hid ▸ h.broker _ hmem)
    | moved hold =>
        have hdue := h.runs r _ hold
        exact hlater hdue
  case events =>
    intro event hevent id time hhandover
    rcases hstep.event hevent with hold | hnew
    · exact (h.events event hold id time hhandover).mono hsub (Int.le_refl _)
    · cases hnew with
      | published _ hmem =>
          cases hhandover
          exact (hbroker _ hmem).mono hsub (Int.le_refl _)
      | retried _ hmem =>
          cases hhandover
          exact (hbroker _ hmem).mono hsub (Int.le_refl _)
      | sendInvoked hrun =>
          cases hhandover
          exact (h.runs _ _ hrun).mono hsub (Int.le_refl _)
      | _ => contradiction

end Lifecycle

theorem System.onTime {allowed : System → System.Action → Prop} {s : System}
    (h : System.Reachable allowed s) : Lifecycle.OnTime s.view :=
  (System.invariant_of_lifecycle Transition.anyStep
    (fun v => Lifecycle.History v ∧ Lifecycle.OnTime v) (fun _ _ _ => trivial)
    (fun clock => ⟨Lifecycle.history_init clock, Lifecycle.onTime_init clock⟩)
    (fun _ _ _ hinv _ hstep => ⟨hinv.1.step hstep, hinv.2.step hinv.1 hstep⟩) h).2

/-- Every publication of a task, every retry and every call of a channel for a message
that was accepted with a `scheduled_at` comes at that time or later. -/
theorem handover_not_before_scheduledAt {s : System}
    (h : System.Reachable Transition.anyStep s) {c : Nat} {row : Message} {scheduledAt : Time}
    (hrow : Event.inserted c row ∈ s.log) (hscheduled : row.scheduledAt = some scheduledAt)
    {event : Event} (hevent : event ∈ s.log) {time : Time}
    (hhandover : event.handover = some (row.id, time)) : scheduledAt ≤ time := by
  obtain ⟨row', ⟨c', hrow'⟩, hid, hdue⟩ := (System.onTime h).events event hevent _ _ hhandover
  obtain ⟨_, heq⟩ := (System.history h).unique c' row' c row hrow' hrow hid
  exact hdue scheduledAt (heq ▸ hscheduled)

/-- A message for time 100 that Beat releases and publishes at time 200. -/
theorem handover_not_before_scheduledAt_released :
    ∃ s c row event, System.Reachable Transition.anyStep s ∧ Event.inserted c row ∈ s.log ∧
      row.scheduledAt = some 100 ∧ event ∈ s.log ∧ event.handover = some (row.id, 200) ∧
      (100 : Time) ≤ 200 := by
  have hs : System.Reachable Transition.anyStep _ := ⟨0, Transition.reaches_of_runAll
    (.upsertTemplate System.plainTemplate 1 1 :: System.creating 0 (some 100) "M1" ++
      [.tick 200, .beginBeat, .beat 0 (.select []), .beat 0 (.publish "T1" true)]) rfl⟩
  refine ⟨_, _, _, _, hs, .tail _ (.tail _ (.head _)), rfl, .head _, rfl, ?_⟩
  exact handover_not_before_scheduledAt hs (.tail _ (.tail _ (.head _))) rfl (.head _) rfl

end NotifyRelay
