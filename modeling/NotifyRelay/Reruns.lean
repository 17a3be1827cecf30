import NotifyRelay.Redelivery

/-! A task is run once for each of its retries: only a run that has crashed is followed by
another one of the same task with the same count of retries. -/
namespace NotifyRelay

open Services Delivery Scheduler

namespace Deployment

variable {o : Timeouts} {d e : Deployment} {a : Action}

/-- The broker still answers for a message with this task. -/
def Carried (d : Deployment) (task : Task) : Prop :=
  ∃ (k : Nat) (m : TaskMessage), d.messages[k]? = some m ∧ m.current = true ∧ m.task = task

/-- What a step does to the runs and to the tasks the broker answers for. -/
inductive Effect (d e : Deployment) : Prop
  | quiet (hruns : e.system.runs = d.system.runs)
      (htasks : ∀ task, Carried e task → Carried d task ∨
        System.freshTask d.system.log task.id = true)
  | begun {task : Task} {message : Message} (hcarried : Carried d task)
      (hruns : e.system.runs = Pool.spawn d.system.runs ⟨task, message, .claimed⟩)
      (hidle : ∀ run ∈ d.system.runs, run.live = true → task.id ≠ run.task.id)
      (htasks : ∀ task, Carried e task → Carried d task)
  | moved {r : Nat} {run : DeliveryRun} {pc : DeliveryPc} (hrun : d.system.runs[r]? = some run)
      (hlive : run.live = true) (hruns : e.system.runs = d.system.runs.set r { run with pc := pc })
      (hpc : pc.live = true ∨ pc = .ended .crashed)
      (htasks : ∀ task, Carried e task → Carried d task)
  | ended {r : Nat} {run : DeliveryRun} {pc : DeliveryPc} (hrun : d.system.runs[r]? = some run)
      (hlive : run.live = true) (hcarried : Carried d run.task)
      (hruns : e.system.runs = d.system.runs.set r { run with pc := pc })
      (htasks : ∀ task, Carried e task →
        Carried d task ∧ task.id ≠ run.task.id ∨ task = retryOf run.task)

/-- Where one message changes, the tasks of the others are as they were. -/
theorem carried_set {t : System} {k : Nat} {m m' : TaskMessage} (hm : d.messages[k]? = some m)
    {task : Task} (h : Carried ⟨t, d.messages.set k m'⟩ task)
    (hself : m'.current = true → m.current = true ∧ m'.task = m.task) : Carried d task := by
  obtain ⟨j, n, hn, hcurrent, htask⟩ := h
  rw [Pool.get_set hm] at hn
  split at hn
  next =>
    cases hn
    exact ⟨k, m, hm, (hself hcurrent).1, (hself hcurrent).2.symm.trans htask⟩
  next => exact ⟨j, n, hn, hcurrent, htask⟩

theorem carried_spawn {t : System} {messages : List TaskMessage} {n : TaskMessage} {task : Task}
    (h : Carried ⟨t, Pool.spawn messages n⟩ task) :
    Carried ⟨t, messages⟩ task ∨ task = n.task := by
  obtain ⟨j, m, hm, hcurrent, htask⟩ := h
  rw [Pool.get_spawn] at hm
  split at hm
  next =>
    cases hm
    exact .inr htask.symm
  next => exact .inl ⟨j, m, hm, hcurrent, htask⟩

theorem carried_enqueue {t : System} {messages : List TaskMessage} {now eta : Time}
    {new : Option Task} {task : Task} (h : Carried ⟨t, enqueue messages now eta new⟩ task) :
    Carried ⟨t, messages⟩ task ∨ new = some task := by
  cases new with
  | none => exact .inl h
  | some first =>
      rcases carried_spawn h with hold | rfl
      · exact .inl hold
      · exact .inr rfl

/-- A message goes back in the queue with its task. -/
theorem copied {k : Nat} {m m' : TaskMessage} (hm : d.messages[k]? = some m)
    (hcurrent : m.current = true) (hdone : m'.current = false) :
    Effect d (copy { d with messages := d.messages.set k m' } m) := by
  refine .quiet rfl fun task htask => .inl ?_
  rcases carried_spawn htask with hold | rfl
  · exact carried_set hm hold fun hyes => by simp [hdone] at hyes
  · exact ⟨k, m, hm, hcurrent, rfl⟩

theorem Sound.effect (h : Sound o d) (ho : o.Ordered) (ha : Punctual o d a)
    (hstep : d.step a = some e) : Effect d e := by
  cases step_move hstep with
  | relayed hinternal hs =>
      obtain ⟨hruns, hbroker⟩ := System.internal_cases h.orderly hinternal hs
      refine .quiet hruns fun task htask => ?_
      rcases carried_enqueue htask with hold | hnew
      · exact .inl hold
      · rcases hbroker with hsame | ⟨first, hcons, hfresh⟩
        · rw [arrived_of_eq hsame] at hnew
          cases hnew
        · rw [arrived_of_cons hcons] at hnew
          cases hnew
          exact .inr hfresh
  | @reserved k m since hm hpc =>
      have hfresh := (h.timed k m hm).queued since hpc
      exact .quiet rfl fun task htask => .inl (carried_set hm htask fun _ =>
        ⟨TaskMessage.current_iff.mpr ⟨hfresh, by rw [hpc]; simp⟩, rfl⟩)
  | declined hm hpc hs hclock hruns hbroker =>
      exact .quiet ((acknowledge_cases ..).2.1.trans hruns) fun task htask => .inl
        (carried_set hm htask fun hyes => by simp [TaskMessage.current] at hyes)
  | @begun k m since s message hm hpc heta hs hclock hruns hbroker =>
      have hcurrent : m.current = true := TaskMessage.current_iff.mpr
        ⟨h.not_restored_of_start ho ha hm hpc, by rw [hpc]; simp⟩
      refine .begun ⟨k, m, hm, hcurrent, rfl⟩ hruns (fun run hrun hlive => ?_) fun task htask =>
        carried_set hm htask fun _ => ⟨hcurrent, rfl⟩
      obtain ⟨r, hrun⟩ := List.mem_iff_getElem?.mp hrun
      exact h.not_live_of_start ho ha hm hpc hrun hlive
  | going hm hpc hmoved hgoing =>
      exact .moved hmoved.found hmoved.live hmoved.runs (.inl hgoing) fun task htask => htask
  | crashed hm hpc hmoved =>
      have hfresh := h.not_restored ho hm hpc
      exact .moved hmoved.found hmoved.live hmoved.runs (.inr rfl) fun task htask =>
        carried_set hm htask fun _ =>
          ⟨TaskMessage.current_iff.mpr ⟨hfresh, by rw [hpc]; simp⟩, rfl⟩
  | @ended k r countdown m since action run how s hm hpc hcountdown hmoved =>
      have htask := h.task_eq hm hpc hmoved.found
      have hcurrent : m.current = true := TaskMessage.current_iff.mpr
        ⟨h.not_restored ho hm hpc, by rw [hpc]; simp⟩
      refine .ended hmoved.found hmoved.live ⟨k, m, hm, hcurrent, htask.symm⟩
        ((acknowledge_cases s m).2.1.trans hmoved.runs) fun task hcarried => ?_
      rcases carried_enqueue hcarried with ⟨j, n, hn, hother, rfl⟩ | hnew
      · have hne : j ≠ k := by
          rintro rfl
          cases Option.some.inj ((Pool.get_set_self hm _).symm.trans hn)
          simp [TaskMessage.current] at hother
        rw [Pool.get_set_of_ne hm _ hne] at hn
        have hid := h.unique j k n m hn hm hne hother hcurrent
        rw [← htask] at hid
        exact .inl ⟨⟨j, n, hn, hother, rfl⟩, hid⟩
      · rcases hmoved.broker with hsame | ⟨-, hretry⟩
        · rw [arrived_of_eq hsame] at hnew
          cases hnew
        · rw [arrived_of_cons hretry] at hnew
          exact .inr (Option.some.inj hnew).symm
  | abandoned hm hpc =>
      exact .quiet rfl fun task htask => .inl (carried_set hm htask fun hcurrent => ⟨by
        simpa [TaskMessage.current, hpc] using hcurrent, rfl⟩)
  | requeued hm hpc hrestored =>
      exact copied hm (TaskMessage.current_iff.mpr ⟨hrestored, by rw [hpc]; simp⟩)
        (by simp [TaskMessage.current])
  | discarded hm hpc =>
      exact .quiet (acknowledge_cases ..).2.1 fun task htask => .inl
        (carried_set hm htask fun hyes => by simp [TaskMessage.current] at hyes)
  | restored hm htaken hrestored =>
      refine copied hm (TaskMessage.current_iff.mpr ⟨hrestored, ?_⟩) (by simp [TaskMessage.current])
      intro heq
      rw [heq] at htaken
      cases htaken
  | lost hm hpc =>
      exact .quiet (acknowledge_cases ..).2.1 fun task htask => .inl
        (carried_set hm htask fun hyes => by simp [TaskMessage.current] at hyes)

/-- Which runs a task may still have. -/
structure Rerun (d : Deployment) : Prop where
  /-- A run that came to its own end has left behind at most a retry. -/
  spent : ∀ (r : Nat) (run : DeliveryRun), d.system.runs[r]? = some run → run.live = false →
    run.pc ≠ .ended .crashed → ∀ task, Carried d task → task.id = run.task.id →
      run.task.retries < task.retries
  crashed : ∀ (r r' : Nat) (run run' : DeliveryRun), r < r' → d.system.runs[r]? = some run →
    d.system.runs[r']? = some run' → run.task = run'.task → run.pc = .ended .crashed

theorem rerun_init (clock : Time) : Rerun (init clock) := by
  constructor <;> simp [init, System.init]

theorem live_of_set {runs : List DeliveryRun} {r i : Nat} {run other : DeliveryRun}
    {pc : DeliveryPc} (hrun : runs[r]? = some run)
    (hother : (runs.set r { run with pc := pc })[i]? = some other) :
    ∃ old, runs[i]? = some old ∧ old.task = other.task ∧
      (i ≠ r ∧ other = old ∨ i = r ∧ other.pc = pc) := by
  rw [Pool.get_set hrun] at hother
  split at hother
  next heq =>
    cases hother
    exact ⟨run, heq ▸ hrun, rfl, .inr ⟨heq, rfl⟩⟩
  next hne => exact ⟨other, hother, rfl, .inl ⟨hne, rfl⟩⟩

theorem Rerun.crashed_set (h : Rerun d) {r : Nat} {run : DeliveryRun} {pc : DeliveryPc}
    (hrun : d.system.runs[r]? = some run) (hlive : run.live = true)
    (hruns : e.system.runs = d.system.runs.set r { run with pc := pc }) :
    ∀ (i j : Nat) (one other : DeliveryRun), i < j → e.system.runs[i]? = some one →
      e.system.runs[j]? = some other → one.task = other.task → one.pc = .ended .crashed := by
  intro i j one other hlt hone hother hsame
  rw [hruns] at hone hother
  obtain ⟨old, hold, htask, hcases⟩ := live_of_set hrun hone
  obtain ⟨old', hold', htask', -⟩ := live_of_set hrun hother
  have hpc := h.crashed i j old old' hlt hold hold' (htask.trans (hsame.trans htask'.symm))
  rcases hcases with ⟨-, rfl⟩ | ⟨rfl, -⟩
  · exact hpc
  -- the run that moves has not crashed
  · cases Option.some.inj (hold.symm.trans hrun)
    rw [DeliveryRun.live, hpc] at hlive
    contradiction

theorem Rerun.step (h : Rerun d) (hsound : Sound o d) (heffect : Effect d e) : Rerun e := by
  cases heffect with
  | quiet hruns htasks =>
      refine ⟨fun r run hrun hended hpc task hcarried hid => ?_, hruns ▸ h.crashed⟩
      rw [hruns] at hrun
      rcases htasks task hcarried with hold | hfresh
      · exact h.spent r run hrun hended hpc task hold hid
      · have hissued := (System.traced hsound.orderly).runs r run hrun
        exact absurd hid.symm (hissued.ne_of_fresh hfresh)
  | begun hcarried hruns hidle htasks =>
      constructor
      · rw [hruns]
        refine Pool.forall_get_spawn (q := fun _ run => run.live = false →
          run.pc ≠ .ended .crashed → ∀ task, Carried e task → task.id = run.task.id →
            run.task.retries < task.retries) (fun hended => ?_)
              fun r run hrun hended hpc task hnew =>
                h.spent r run hrun hended hpc task (htasks task hnew)
        cases hended
      · intro r r' run run' hlt hrun hrun' hsame
        rw [hruns, Pool.get_spawn] at hrun hrun'
        split at hrun'
        next heq =>
          cases hrun'
          rw [if_neg (Nat.ne_of_lt (heq ▸ hlt))] at hrun
          by_contra hpc
          cases hlive : run.live with
          | true =>
              exact hidle run (List.mem_of_getElem? hrun) hlive (congrArg Task.id hsame.symm)
          | false =>
              have hless := h.spent r run hrun hlive hpc _ hcarried (congrArg Task.id hsame.symm)
              rw [hsame] at hless
              exact Nat.lt_irrefl _ hless
        next =>
          split at hrun
          next heq =>
            have hle := (List.getElem?_eq_some_iff.mp hrun').1
            unfold Pool.next at heq
            omega
          next => exact h.crashed r r' run run' hlt hrun hrun' hsame
  | moved hrun hlive hruns hpc htasks =>
      refine ⟨fun i other hother hended hnot task hcarried hid => ?_,
        h.crashed_set hrun hlive hruns⟩
      rw [hruns] at hother
      obtain ⟨old, hold, -, ⟨-, rfl⟩ | ⟨-, hsame⟩⟩ := live_of_set hrun hother
      · exact h.spent i other hold hended hnot task (htasks task hcarried) hid
      · rcases hpc with hgoing | hcrash
        · rw [DeliveryRun.live, hsame, hgoing] at hended
          contradiction
        · exact absurd (hsame.trans hcrash) hnot
  | @ended r run pc hrun hlive hcarried hruns htasks =>
      refine ⟨fun i other hother hended hnot task hnew hid => ?_, h.crashed_set hrun hlive hruns⟩
      rw [hruns] at hother
      obtain ⟨old, hold, htask, ⟨-, rfl⟩ | ⟨rfl, -⟩⟩ := live_of_set hrun hother
      · rcases htasks task hnew with ⟨hbefore, -⟩ | rfl
        · exact h.spent i other hold hended hnot task hbefore hid
        · have hless := h.spent i other hold hended hnot run.task hcarried hid
          exact Nat.lt_succ_of_lt hless
      · cases Option.some.inj (hold.symm.trans hrun)
        rw [← htask] at hid ⊢
        rcases htasks task hnew with ⟨-, hne⟩ | rfl
        · exact absurd hid hne
        · exact Nat.lt_succ_self _

/-- Under the configured timeouts a task runs again with the same count of retries only after
a crash of its run. -/
theorem rerun_after_crash {slack : Time} (hslack : 0 ≤ slack ∧ slack < seconds 240)
    (h : Reachable (Punctual (configured slack)) d) {r r' : Nat} {run run' : DeliveryRun}
    (hlt : r < r') (hrun : d.system.runs[r]? = some run) (hrun' : d.system.runs[r']? = some run')
    (htask : run.task = run'.task) : run.pc = .ended .crashed := by
  have ho := ordered_configured hslack
  obtain ⟨clock, h⟩ := h
  have hrerun := Transition.Reaches.invariant_of h (Sound (configured slack)) Rerun
    (sound_init _ clock) (fun _ _ _ hinv ha hstep => hinv.step ho ha hstep) (rerun_init clock)
    fun _ _ _ hsound hinv ha hstep => hinv.step hsound (hsound.effect ho ha hstep)
  exact hrerun.crashed r r' run run' hlt hrun hrun' htask

/-- The process of the first run is lost, and its message goes back in the queue. -/
theorem rerun_after_crash_requeued :
    ∃ d run run', Reachable (Punctual (configured (seconds 10))) d ∧
      d.system.runs[0]? = some run ∧ d.system.runs[1]? = some run' ∧ run.task = run'.task ∧
      run.pc = .ended .crashed := by
  obtain ⟨d, hd, run, hrun, run', hrun', htask⟩ := Transition.exists_of_runAll step
    (Punctual (configured (seconds 10))) (init 0)
    (beginning ++ [.run 0 .sendStart 0, .run 0 .crash 0, .requeue 0, .reserve 1, .start 1])
    (fun d => ∃ run ∈ d.system.runs[0]?, ∃ run' ∈ d.system.runs[1]?, run.task = run'.task)
    (by decide +kernel)
  exact ⟨d, run, run', ⟨0, hd⟩, hrun, hrun', htask,
    rerun_after_crash (by decide) ⟨0, hd⟩ (Nat.zero_lt_one) hrun hrun' htask⟩

end Deployment
end NotifyRelay
