import NotifyRelay.History

/-! Who owns a message. While a run goes on, its row says so and nobody else takes it:
the claim check keeps other tasks out, and the time limit keeps Beat out. -/
namespace NotifyRelay

open Services Delivery Scheduler

/-- The claim saved `updated_at`. -/
def DeliveryRun.claimedAt (run : DeliveryRun) : Time := run.message.updatedAt

namespace Lifecycle

/-- No run lasts `STALE_SENDING_AFTER`, and no task is delivered while a run of the same
task id goes on. -/
def Orderly (v : Lifecycle) (a : System.Action) : Prop :=
  ∀ run ∈ v.runs, run.live = true →
    v.clock - run.claimedAt < staleSendingAfter ∧ ∀ task ∈ a.delivered, task.id ≠ run.task.id

instance (v : Lifecycle) (a : System.Action) : Decidable (Orderly v a) :=
  inferInstanceAs (Decidable (∀ run ∈ v.runs, _ → _ ∧ _))

/-- The row of a run that goes on. -/
def HeldBy (m : Message) (run : DeliveryRun) : Prop :=
  m.id = run.message.id ∧ m.status = .sending ∧ m.claimedBy = run.task.id ∧
    m.updatedAt = run.claimedAt

structure Owned (v : Lifecycle) : Prop where
  held : ∀ (r : Nat) (run : DeliveryRun), v.runs[r]? = some run → run.live = true →
    ∃ m ∈ v.messages.rows, HeldBy m run
  alone : ∀ (r r' : Nat) (run run' : DeliveryRun), v.runs[r]? = some run → run.live = true →
    v.runs[r']? = some run' → run'.live = true → run.task.id = run'.task.id → r = r'

variable {v w : Lifecycle} {a : System.Action}

theorem owned_init (clock : Time) : Owned (init clock) := by
  constructor <;> simp [init]

/-- Two runs that hold one row have the same task. -/
theorem Owned.eq_of_message (h : Owned v) {r r' : Nat} {run run' : DeliveryRun}
    (hrun : v.runs[r]? = some run) (hlive : run.live = true) (hrun' : v.runs[r']? = some run')
    (hlive' : run'.live = true) (hid : run.message.id = run'.message.id) : r = r' := by
  obtain ⟨m, hm, hkey, _, hclaimed, _⟩ := h.held r run hrun hlive
  obtain ⟨m', hm', hkey', _, hclaimed', _⟩ := h.held r' run' hrun' hlive'
  have heq := v.messages.eq_of_key hm hm' (hkey.trans (hid.trans hkey'.symm))
  subst heq
  exact h.alone r r' run run' hrun hlive hrun' hlive' (hclaimed.symm.trans hclaimed')

/-- A run keeps its row through a step of anybody else. -/
theorem Owned.held_step (h : Owned v) (hhistory : History v) (ha : Orderly v a)
    (hstep : Step v a w) {r : Nat} {run : DeliveryRun} (hrun : v.runs[r]? = some run)
    (hlive : run.live = true) (hfinish : ∀ accepted, a ≠ .run r (.finish accepted)) :
    ∃ m ∈ w.messages.rows, HeldBy m run := by
  obtain ⟨m, hm, hheld⟩ := h.held r run hrun hlive
  obtain ⟨hid, hsending, hclaimed, hupdated⟩ := hheld
  obtain ⟨htimely, hexclusive⟩ := ha run (List.mem_of_getElem? hrun) hlive
  rcases hstep.survives hm with ⟨hdoomed, _⟩ | ⟨m', hm', hid'⟩
  · have hterminal := hhistory.terminal m hm hdoomed
    rw [hsending] at hterminal
    contradiction
  -- `old` is the row of the run in every case in which some row with its key was written
  have hsame : ∀ {old : Message}, old ∈ v.messages.rows → old.id = m'.id → old = m :=
    fun hold hkey => v.messages.eq_of_key hold hm (hkey.trans hid')
  cases hstep.row hm' with
  | kept hold =>
      cases hsame hold rfl
      exact ⟨m, hm', hid, hsending, hclaimed, hupdated⟩
  | inserted hfresh =>
      have hknown := hhistory.known_row hm
      rw [← hid'] at hknown
      exact absurd hknown (not_known_of_fresh hfresh)
  | released hold hfilter hnow =>
      cases hsame hold rfl
      simp only [dispatchFilter, stale, hsending, hupdated, Bool.or_eq_true, Bool.and_eq_true,
        beq_iff_eq, reduceCtorEq, and_false, false_or, true_and, decide_eq_true_eq] at hfilter
      have hlate := Int.lt_of_lt_of_le hfilter (Int.sub_le_sub_right hnow _)
      exact absurd (Int.sub_lt_of_sub_lt htimely) (Int.not_lt.mpr (Int.le_of_lt hlate))
  | claimed _ hold _ hclaim =>
      cases hsame hold rfl
      rcases claim_eq_claimed.mp hclaim with hqueued | ⟨_, howner⟩
      · rw [hsending] at hqueued
        contradiction
      · exact absurd (howner.symm.trans hclaimed) (hexclusive _ rfl)
  | finished hrun' hpc hold hkey =>
      cases hsame hold rfl
      have heq := h.eq_of_message hrun' (live_of_recorded hpc) hrun hlive (hkey.symm.trans hid)
      subst heq
      exact absurd rfl (hfinish _)

theorem Owned.step (h : Owned v) (hhistory : History v) (ha : Orderly v a)
    (hstep : Step v a w) : Owned w := by
  constructor
  case held =>
    intro r run hrun hlive
    cases hstep.run hrun with
    | kept hold hother =>
        exact h.held_step hhistory ha hstep hold hlive fun _ => hother _
    | claimed _ hfind _ hsaved => exact ⟨_, hsaved, rfl, rfl, rfl, rfl⟩
    | moved hold hpc =>
        obtain ⟨m, hm, hheld⟩ := h.held_step hhistory ha hstep hold hpc.live
          fun accepted heq => by
            cases heq
            rw [DeliveryRun.live, hpc.ended_of_finish] at hlive
            contradiction
        exact ⟨m, hm, hheld⟩
  case alone =>
    intro r r' run run' hrun hlive hrun' hlive' hid
    have hdelivered : ∀ {i : Nat} {other : DeliveryRun} {task : Task}, a = .deliver task →
        v.runs[i]? = some other → other.live = true → task.id ≠ other.task.id :=
      fun heq hother hlive => (ha _ (List.mem_of_getElem? hother) hlive).2 _ (heq ▸ rfl)
    cases hstep.run hrun with
    | kept hold =>
        cases hstep.run hrun' with
        | kept hold' => exact h.alone r r' run run' hold hlive hold' hlive' hid
        | claimed => exact absurd hid.symm (hdelivered rfl hold hlive)
        | moved hold' hpc' => exact h.alone r r' run _ hold hlive hold' hpc'.live hid
    | claimed =>
        cases hstep.run hrun' with
        | kept hold' => exact absurd hid (hdelivered rfl hold' hlive')
        | claimed => rfl
    | moved hold hpc =>
        cases hstep.run hrun' with
        | kept hold' => exact h.alone r r' _ run' hold hpc.live hold' hlive' hid
        | moved => rfl

end Lifecycle

theorem System.owned {s : System}
    (h : System.Reachable (fun s a => Lifecycle.Orderly s.view a) s) : Lifecycle.Owned s.view :=
  (System.invariant_of_lifecycle Lifecycle.Orderly
    (fun v => Lifecycle.History v ∧ Lifecycle.Owned v) (fun _ _ ha => ha)
    (fun clock => ⟨Lifecycle.history_init clock, Lifecycle.owned_init clock⟩)
    (fun _ _ _ hinv ha hstep => ⟨hinv.1.step hstep, hinv.2.step hinv.1 ha hstep⟩) h).2

/-- At most one run of a message is between its claim and its end, and during that time
the row is `sending` and claimed by the run's task. -/
theorem at_most_one_owner {s : System}
    (h : System.Reachable (fun s a => Lifecycle.Orderly s.view a) s) {r : Nat}
    {run : DeliveryRun} (hrun : s.runs[r]? = some run) (hlive : run.live = true) :
    (∀ r' run', s.runs[r']? = some run' → run'.live = true →
      run'.task.message = run.task.message → r' = r) ∧
    ∃ m ∈ s.db.messages.rows, m.id = run.task.message ∧ m.status = .sending ∧
      m.claimedBy = run.task.id := by
  have howned := System.owned h
  have hmessage := fun i other (hother : s.runs[i]? = some other) =>
    ((System.history h).runs i other hother).1
  constructor
  · intro r' run' hrun' hlive' hid
    rw [hmessage r' run' hrun', hmessage r run hrun] at hid
    exact howned.eq_of_message hrun' hlive' hrun hlive hid
  · obtain ⟨m, hm, hid, hsending, hclaimed, _⟩ := howned.held r run hrun hlive
    exact ⟨m, hm, hid.trans (hmessage r run hrun).symm, hsending, hclaimed⟩

/-- A run that follows one that crashed, with the task delivered again, and a second
task, published sixteen minutes later, that is turned away. -/
theorem at_most_one_owner_redelivered :
    ∃ s run, System.Reachable (fun s a => Lifecycle.Orderly s.view a) s ∧
      s.runs[1]? = some run ∧ run.live = true ∧
      ∃ m ∈ s.db.messages.rows, m.id = run.task.message ∧ m.status = .sending ∧
        m.claimedBy = run.task.id := by
  obtain ⟨s, hs, run, hrun, hlive⟩ := Transition.exists_of_runAll System.step
    (fun s a => Lifecycle.Orderly s.view a) (System.init 0)
    (System.opening ++
      [.tick 960000001, .beginBeat, .beat 0 (.select []), .beat 0 (.publish "T2" true),
        .deliver System.firstTask, .run 0 .sendStart, .run 0 .crash, .deliver System.firstTask,
        .deliver ⟨"T2", "M1", .email, .default, 0⟩, .run 1 .sendStart])
    (fun s => ∃ run ∈ s.runs[1]?, run.live = true) (by decide +kernel)
  exact ⟨s, run, ⟨0, hs⟩, hrun, hlive, (at_most_one_owner ⟨0, hs⟩ hrun hlive).2⟩

end NotifyRelay
