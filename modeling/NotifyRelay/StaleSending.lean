import NotifyRelay.Redelivery

/-! `STALE_SENDING_AFTER` is "longer than any wait between two runs of one task": when Beat takes
a `sending` message for stale, the task that claimed it is gone from the broker. -/
namespace NotifyRelay

open Services Delivery Scheduler

/-- How far a message can have got by the time the row of its task was last claimed at `u`. -/
def TaskMessage.Within (o : Deployment.Timeouts) (wait u : Time) (m : TaskMessage) : Prop :=
  match m.pc with
  | .queued since => since ≤ u + o.visibility + o.slack ∧ m.eta ≤ u + o.visibility
  | .waiting since => since ≤ u + o.visibility + o.slack + wait ∧ m.eta ≤ u + o.visibility
  | .running since _ | .abandoned since => since ≤ u ∧ m.eta ≤ u
  | .closed => True

namespace System

variable {s t : System} {allowed : System → Action → Prop}

/-- A row comes to be `sending` by a claim. -/
theorem sending_cases (h : Reachable allowed s) {a : Action} (hstep : s.step a = some t)
    {row : Message} (hrow : row ∈ t.db.messages.rows) (hsending : row.status = .sending) :
    row ∈ s.db.messages.rows ∨ ∃ task, a = .deliver task ∧ row.claimedBy = task.id := by
  obtain ⟨clock, h⟩ := h
  rcases refined ⟨clock, h.any⟩ hstep with heq | hstep
  · have hmessages : s.db.messages = t.db.messages := congrArg Lifecycle.messages heq
    rw [hmessages]
    exact .inl hrow
  · cases hstep.row hrow with
    | kept hold => exact .inl hold
    | inserted => cases hsending
    | released => cases hsending
    | @claimed task => exact .inr ⟨task, rfl, rfl⟩
    | finished _ _ _ _ hverdict =>
        have hterminal := Lifecycle.terminal_of_verdict hverdict
        cases hsending
        cases hterminal

end System

namespace Deployment

variable {o : Timeouts} {wait : Time} {d e : Deployment} {a : Action}

theorem acknowledge_db (s : System) (m : TaskMessage) : (acknowledge s m).db = s.db := by
  obtain ⟨-, -, heq | ⟨-, hdrop, -⟩⟩ := acknowledge_cases s m
  · rw [heq]
  · obtain ⟨-, hdrop⟩ := Option.ite_none_right_eq_some.mp hdrop
    rw [← Option.some.inj hdrop]

/-- The row that a task has claimed is the one its run holds. -/
theorem Sound.claimedAt_eq (h : Sound o d) {r : Nat} {run : DeliveryRun}
    (hrun : d.system.runs[r]? = some run) (hlive : run.live = true) {row : Message}
    (hrow : row ∈ d.system.db.messages.rows) (hsending : row.status = .sending)
    (hclaimed : row.claimedBy = run.task.id) : row.updatedAt = run.claimedAt := by
  have htraced := System.traced h.orderly
  obtain ⟨m, hm, hid, -, -, hupdated⟩ := (System.owned h.orderly).held r run hrun hlive
  obtain ⟨task, htask, htaskId, hmessage⟩ := htraced.rows row hrow hsending
  have hsame := htraced.message_eq htask (htraced.runs r run hrun) (htaskId.trans hclaimed)
  have hrunMessage := ((System.history h.orderly).runs r run hrun).1
  have hkey : row.id = m.id := hmessage.symm.trans (hsame.trans (hrunMessage.trans hid.symm))
  rw [d.system.db.messages.eq_of_key hrow hm hkey]
  exact hupdated

structure Awaited (o : Timeouts) (wait : Time) (d : Deployment) : Prop where
  urgent : ∀ (k : Nat) (m : TaskMessage), d.messages[k]? = some m → m.current = true →
    ∀ time ∈ m.deadline o wait, d.system.clock ≤ time
  within : ∀ (k : Nat) (m : TaskMessage), d.messages[k]? = some m → m.current = true →
    ∀ row ∈ d.system.db.messages.rows, row.status = .sending → row.claimedBy = m.task.id →
      m.Within o wait row.updatedAt

theorem awaited_init (o : Timeouts) (wait clock : Time) : Awaited o wait (init clock) := by
  constructor <;> simp [init]

/-- One message changes, and the relay with it. -/
theorem Awaited.change (h : Awaited o wait d) (hsound : Sound o d) {t : System} {k : Nat}
    {m m' : TaskMessage} (hm : d.messages[k]? = some m) (hclock : t.clock = d.system.clock)
    (hrows : ∀ row ∈ t.db.messages.rows, row.status = .sending →
      row ∈ d.system.db.messages.rows ∨ m.current = true ∧ row.claimedBy = m.task.id)
    (hself : m'.current = true → (∀ time ∈ m'.deadline o wait, d.system.clock ≤ time) ∧
      ∀ row ∈ t.db.messages.rows, row.status = .sending → row.claimedBy = m'.task.id →
        m'.Within o wait row.updatedAt) :
    Awaited o wait ⟨t, d.messages.set k m'⟩ where
  urgent := by
    rw [hclock]
    exact Pool.forall_set hm (fun hcurrent => (hself hcurrent).1) fun j n hn _ => h.urgent j n hn
  within := by
    refine Pool.forall_set hm (fun hcurrent => (hself hcurrent).2) fun j n hn hne hcurrent row hrow
      hsending hclaimed => ?_
    rcases hrows row hrow hsending with hold | ⟨hcurrent', hclaimed'⟩
    · exact h.within j n hn hcurrent row hold hsending hclaimed
    · exact absurd (hclaimed.symm.trans hclaimed')
        (hsound.unique j k n m hn hm hne hcurrent hcurrent')

/-- A message comes into the queue. -/
theorem Awaited.spawn (h : Awaited o wait d) (hwait : 0 ≤ wait) {task : Task} {eta : Time}
    (hwithin : ∀ row ∈ d.system.db.messages.rows, row.status = .sending →
      row.claimedBy = task.id →
        d.system.clock ≤ row.updatedAt + o.visibility + o.slack ∧
          eta ≤ row.updatedAt + o.visibility) :
    Awaited o wait { d with
      messages := Pool.spawn d.messages ⟨task, eta, .queued d.system.clock, false⟩ } where
  urgent := by
    refine Pool.forall_spawn (fun _ time htime => ?_) h.urgent
    cases htime
    exact Int.le_add_of_nonneg_right hwait
  within := Pool.forall_spawn (fun _ => hwithin) h.within

section Steps

variable (hsound : Sound o d) (ho : o.Ordered)
include hsound

/-- A message that leaves the broker. -/
theorem Awaited.close (h : Awaited o wait d) {k : Nat} {m : TaskMessage}
    (hm : d.messages[k]? = some m) {s : System} (hclock : s.clock = d.system.clock)
    (hrows : ∀ row ∈ s.db.messages.rows, row.status = .sending →
      row ∈ d.system.db.messages.rows ∨ m.current = true ∧ row.claimedBy = m.task.id) :
    Awaited o wait ⟨acknowledge s m, d.messages.set k { m with pc := .closed }⟩ :=
  h.change hsound hm ((acknowledge_cases s m).1.trans hclock)
    (fun row hrow => hrows row (acknowledge_db s m ▸ hrow)) (by simp [TaskMessage.current])

/-- What a run that goes on says about the age of its row. -/
theorem Sound.row_age {k r : Nat} {m : TaskMessage} {since : Time}
    (hm : d.messages[k]? = some m) (hpc : m.pc = .running since r) {row : Message}
    (hrow : row ∈ d.system.db.messages.rows) (hsending : row.status = .sending)
    (hclaimed : row.claimedBy = m.task.id) : d.system.clock ≤ row.updatedAt + o.timeLimit := by
  obtain ⟨run, hrun, htask, hlive, -⟩ := hsound.attends k m hm since r hpc
  rw [hsound.claimedAt_eq hrun hlive hrow hsending (htask ▸ hclaimed)]
  exact hsound.timely run (List.mem_of_getElem? hrun) hlive

include ho

/-- A message goes back in the queue from where a run has left it. -/
theorem Awaited.copy (h : Awaited o wait d) (hwait : 0 ≤ wait) {k : Nat} {m m' : TaskMessage}
    {since : Time} (hm : d.messages[k]? = some m) (hpc : m.pc = .abandoned since)
    (hcurrent : m.current = true) (hdone : m'.current = false) :
    Awaited o wait (copy ⟨d.system, d.messages.set k m'⟩ m) := by
  have hmoved : Awaited o wait ⟨d.system, d.messages.set k m'⟩ :=
    h.change hsound hm rfl (fun row hrow _ => .inl hrow) fun hyes => by simp [hdone] at hyes
  refine hmoved.spawn hwait fun row hrow hsending hclaimed => ?_
  have hwithin := h.within k m hm hcurrent row hrow hsending hclaimed
  have hurgent := h.urgent k m hm hcurrent (since + o.visibility + o.slack)
    (by simp [TaskMessage.deadline, hpc])
  simp only [TaskMessage.Within, hpc] at hwithin
  have hvisibility := ho.visibility
  have hslack := ho.slack
  have hlimit := ho.timeLimit
  have hbackoff : (0 : Time) ≤ seconds retryBackoffMaxS := by decide
  constructor <;> linarith

theorem Awaited.step (h : Awaited o wait d) (hwait : 0 ≤ wait) (ha : Prompt o wait d a)
    (hstep : d.step a = some e) : Awaited o wait e := by
  have hsound' := hsound.step ho ha.1 hstep
  have hvisibility := ho.visibility
  have hslack := ho.slack
  have hlimit := ho.timeLimit
  have hbackoff : (0 : Time) ≤ seconds retryBackoffMaxS := by decide
  cases step_move hstep with
  | @relayed action s hinternal hs =>
      have hrows : ∀ row ∈ s.db.messages.rows, row.status = .sending →
          row ∈ d.system.db.messages.rows := by
        intro row hrow hsending
        rcases System.sending_cases hsound.orderly hs hrow hsending with hold | ⟨task, rfl, -⟩
        · exact hold
        · cases hinternal
      have hcarried : Awaited o wait ⟨s, d.messages⟩ := by
        refine ⟨?_, fun j n hn hcurrent row hrow hsending =>
          h.within j n hn hcurrent row (hrows row hrow hsending) hsending⟩
        rcases System.clock_cases hsound.orderly hs with heq | ⟨elapsed, rfl, heq⟩
        · rw [heq]
          exact h.urgent
        · rw [heq]
          exact fun j n hn hcurrent => ha.2 n (List.mem_of_getElem? hn) hcurrent
      rcases (System.internal_cases hsound.orderly hinternal hs).2 with hsame | ⟨task, hnew, hfresh⟩
      · rw [arrived_of_eq hsame]
        exact hcarried
      · rw [arrived_of_cons hnew]
        refine hcarried.spawn hwait fun row hrow hsending hclaimed => ?_
        obtain ⟨first, hissued, hid, -⟩ :=
          (System.traced hsound.orderly).rows row (hrows row hrow hsending) hsending
        exact absurd (hid.trans hclaimed) (hissued.ne_of_fresh hfresh)
  | @reserved k m since hm hpc =>
      have hfresh := (hsound.timed k m hm).queued since hpc
      have hcurrent : m.current = true :=
        TaskMessage.current_iff.mpr ⟨hfresh, by rw [hpc]; simp⟩
      have hurgent := h.urgent k m hm hcurrent (since + wait) (by simp [TaskMessage.deadline, hpc])
      refine h.change hsound hm rfl (fun row hrow _ => .inl hrow) fun _ => ⟨?_, ?_⟩
      · rintro time ⟨⟩
        have hmax := le_max_right m.eta d.system.clock
        linarith
      · intro row hrow hsending hclaimed
        have hwithin := h.within k m hm hcurrent row hrow hsending hclaimed
        simp only [TaskMessage.Within, hpc] at hwithin
        exact ⟨by linarith, hwithin.2⟩
  | @declined k m since s hm hpc hs hclock hruns hbroker =>
      have hcurrent : m.current = true := TaskMessage.current_iff.mpr
        ⟨hsound.not_restored_of_start ho ha.1 hm hpc, by rw [hpc]; simp⟩
      refine h.close hsound hm hclock fun row hrow hsending => ?_
      refine (System.sending_cases hsound.orderly hs hrow hsending).imp_right ?_
      rintro ⟨task, htask, hclaimed⟩
      cases htask
      exact ⟨hcurrent, hclaimed⟩
  | @begun k m since s message hm hpc heta hs hclock hruns hbroker =>
      have hcurrent : m.current = true := TaskMessage.current_iff.mpr
        ⟨hsound.not_restored_of_start ho ha.1 hm hpc, by rw [hpc]; simp⟩
      refine h.change hsound hm hclock (fun row hrow hsending => ?_) fun _ => ⟨nofun, ?_⟩
      · refine (System.sending_cases hsound.orderly hs hrow hsending).imp_right ?_
        rintro ⟨task, htask, hclaimed⟩
        cases htask
        exact ⟨hcurrent, hclaimed⟩
      · intro row hrow hsending hclaimed
        have hage := hsound'.claimedAt_eq (r := Pool.next d.system.runs)
          (by rw [hruns, Pool.get_spawn, if_pos rfl]) rfl hrow hsending hclaimed
        have hpast := (hsound.timed k m hm).past since (by rw [hpc]; rfl)
        have hclaimedAt : row.updatedAt = d.system.clock := hage
        rw [hclaimedAt]
        exact ⟨hpast, heta⟩
  | @going k r countdown m since action run pc s hm hpc hmoved hgoing =>
      constructor
      · rw [hmoved.clock]
        exact h.urgent
      · intro j n hn hcurrent row hrow hsending hclaimed
        rcases System.sending_cases hsound.orderly hmoved.step hrow hsending with
          hold | ⟨task, htask, -⟩
        · exact h.within j n hn hcurrent row hold hsending hclaimed
        · cases htask
  | @crashed k r countdown m since action run s hm hpc hmoved =>
      have hcurrent : m.current = true :=
        TaskMessage.current_iff.mpr ⟨hsound.not_restored ho hm hpc, by rw [hpc]; simp⟩
      have hrows : ∀ row ∈ s.db.messages.rows, row.status = .sending →
          row ∈ d.system.db.messages.rows := by
        intro row hrow hsending
        rcases System.sending_cases hsound.orderly hmoved.step hrow hsending with
          hold | ⟨task, htask, -⟩
        · exact hold
        · cases htask
      refine h.change hsound hm hmoved.clock
        (fun row hrow hsending => .inl (hrows row hrow hsending)) fun _ => ⟨?_, ?_⟩
      · rintro time ⟨⟩
        obtain ⟨run', hrun', -, hlive, hclaimed⟩ := hsound.attends k m hm since r hpc
        have htimely := hsound.timely run' (List.mem_of_getElem? hrun') hlive
        have hlate := ho.not_restored ((hsound.timed k m hm).eta since (by rw [hpc]; rfl)) hclaimed
        linarith
      · intro row hrow hsending hclaimed
        have hwithin := h.within k m hm hcurrent row (hrows row hrow hsending) hsending hclaimed
        simp only [TaskMessage.Within, hpc] at hwithin
        exact hwithin
  | @ended k r countdown m since action run how s hm hpc hcountdown hmoved hhow =>
      have hrows : ∀ row ∈ s.db.messages.rows, row.status = .sending →
          row ∈ d.system.db.messages.rows := by
        intro row hrow hsending
        rcases System.sending_cases hsound.orderly hmoved.step hrow hsending with
          hold | ⟨task, htask, -⟩
        · exact hold
        · cases htask
      have hclosed := h.close hsound hm hmoved.clock
        fun row hrow hsending => .inl (hrows row hrow hsending)
      rcases hmoved.broker with hsame | ⟨-, hretry⟩
      · rw [arrived_of_eq hsame]
        exact hclosed
      · rw [arrived_of_cons hretry, ← (acknowledge_cases s m).1]
        refine hclosed.spawn hwait fun row hrow hsending hclaimed => ?_
        have htask := congrArg Task.id (hsound.task_eq hm hpc hmoved.found)
        have hrow' := hrows row (acknowledge_db s m ▸ hrow) hsending
        have hage := hsound.row_age hm hpc hrow' hsending (hclaimed.trans htask)
        have hcount := seconds_le hcountdown
        simp only [(acknowledge_cases s m).1, hmoved.clock]
        constructor <;> linarith
  | abandoned => exact absurd ha.2 id
  | @requeued k m since hm hpc hrestored =>
      exact h.copy hsound ho hwait hm hpc
        (TaskMessage.current_iff.mpr ⟨hrestored, by rw [hpc]; simp⟩) (by simp [TaskMessage.current])
  | discarded hm hpc => exact h.close hsound hm rfl fun row hrow _ => .inl hrow
  | @restored k m since hm htaken hrestored =>
      have hcurrent : m.current = true := TaskMessage.current_iff.mpr ⟨hrestored, fun heq => by
        rw [heq] at htaken
        cases htaken⟩
      cases hpc : m.pc with
      | queued since' => rw [hpc] at htaken; cases htaken
      | closed => rw [hpc] at htaken; cases htaken
      | running since' r => exact absurd hpc (hsound.not_running_of_restore ho ha.1 hm)
      | abandoned since' =>
          exact h.copy hsound ho hwait hm hpc hcurrent (by simp [TaskMessage.current])
      | waiting since' =>
          -- a message in the hands of its worker starts before that
          have hsince : since' + o.visibility ≤ d.system.clock :=
            ha.1 m hm since' (by rw [hpc]; rfl)
          have hurgent := h.urgent k m hm hcurrent (max m.eta since' + o.slack)
            (by simp [TaskMessage.deadline, hpc])
          have heta := (hsound.timed k m hm).eta since' (by rw [hpc]; rfl)
          have hmax : max m.eta since' ≤ since' + seconds retryBackoffMaxS :=
            max_le heta (le_add_of_nonneg_right hbackoff)
          linarith
  | lost hm hpc => exact h.close hsound hm rfl fun row hrow _ => .inl hrow

end Steps

theorem stale_of_filter {now : Time} {row : Message} (h : dispatchFilter now row = true)
    (hsending : row.status = .sending) : row.updatedAt < now - staleSendingAfter := by
  simpa [dispatchFilter, stale, hsending] using h

/-- No task is left that has claimed a row two hours ago. -/
theorem Awaited.task_gone {slack : Time} (h : Awaited (configured slack) wait d)
    (hsound : Sound (configured slack) d) (hslack : 0 ≤ slack) (hwait : 0 ≤ wait)
    (hsum : visibilityTimeout + wait + 2 * slack ≤ staleSendingAfter) {row : Message}
    (hrow : row ∈ d.system.db.messages.rows) (hsending : row.status = .sending)
    (hold : row.updatedAt < d.system.clock - staleSendingAfter) {m : TaskMessage}
    (hmem : m ∈ d.messages) (hcurrent : m.current = true) : m.task.id ≠ row.claimedBy := by
  intro hid
  obtain ⟨k, hm⟩ := List.mem_iff_getElem?.mp hmem
  have hwithin := h.within k m hm hcurrent row hrow hsending hid.symm
  have hurgent := h.urgent k m hm hcurrent
  have hlimit : celeryTaskTimeLimit ≤ staleSendingAfter := by decide
  have hnonneg : (0 : Time) ≤ visibilityTimeout := by decide
  cases hpc : m.pc with
  | queued since =>
      have htime := hurgent (since + wait) (by simp [TaskMessage.deadline, hpc])
      simp only [TaskMessage.Within, hpc, configured] at hwithin
      linarith
  | waiting since =>
      have htime := hurgent (max m.eta since + slack)
        (by simp [TaskMessage.deadline, hpc, configured])
      simp only [TaskMessage.Within, hpc, configured] at hwithin
      have hmax : max m.eta since ≤ row.updatedAt + visibilityTimeout + slack + wait :=
        max_le (by linarith) hwithin.1
      linarith
  | running since r =>
      have hage := hsound.row_age hm hpc hrow hsending hid.symm
      have hconfigured : (configured slack).timeLimit = celeryTaskTimeLimit := rfl
      linarith
  | abandoned since =>
      have htime := hurgent (since + visibilityTimeout + slack)
        (by simp [TaskMessage.deadline, hpc, configured])
      simp only [TaskMessage.Within, hpc] at hwithin
      linarith
  | closed => simp [TaskMessage.current, hpc] at hcurrent

/-- Where the queue is worked off within `wait`, `dispatch_scheduled` puts a `sending` message
back only when no run of it goes on and the task that claimed it is gone from the broker. -/
theorem stale_task_gone {slack wait : Time} (hslack : 0 ≤ slack ∧ slack < seconds 240)
    (hwait : 0 ≤ wait) (hsum : visibilityTimeout + wait + 2 * slack ≤ staleSendingAfter)
    (h : Reachable (Prompt (configured slack) wait) d) {b : Nat} {now : Time}
    {locked : List MessageId} (hbeat : d.system.beats[b]? = some (.selecting now)) {row : Message}
    (hrow : row ∈ dispatchBatch d.system.db.messages now locked)
    (hsending : row.status = .sending) :
    (∀ m ∈ d.messages, m.current = true → m.task.id ≠ row.claimedBy) ∧
      ∀ run ∈ d.system.runs, run.live = true → run.task.message ≠ row.id := by
  have ho := ordered_configured hslack
  obtain ⟨clock, h⟩ := h
  obtain ⟨hsound, hawaited⟩ := Transition.Reaches.invariant h
    (fun d => Sound (configured slack) d ∧ Awaited (configured slack) wait d)
    ⟨sound_init _ clock, awaited_init _ _ clock⟩ fun _ _ _ hinv ha hstep =>
      ⟨hinv.1.step ho ha.1 hstep, hinv.2.step hinv.1 ho hwait ha hstep⟩
  obtain ⟨hmem, hfilter⟩ := mem_dispatchBatch hrow
  have hpast : now ≤ d.system.clock := by
    obtain ⟨start, hreach⟩ := hsound.orderly
    exact (System.readingsPast_of_reachable ⟨start, hreach.any⟩).beats now
      (List.mem_of_getElem? hbeat)
  have hstale := stale_of_filter hfilter hsending
  have hold : row.updatedAt < d.system.clock - staleSendingAfter := by linarith
  refine ⟨fun m hm hcurrent =>
    hawaited.task_gone hsound hslack.1 hwait hsum hmem hsending hold hm hcurrent, ?_⟩
  intro run hrun hlive hmessage
  obtain ⟨r, hget⟩ := List.mem_iff_getElem?.mp hrun
  obtain ⟨held, hheld, hid, -, -, hupdated⟩ := (System.owned hsound.orderly).held r run hget hlive
  have hkey := ((System.history hsound.orderly).runs r run hget).1
  have hsame : held.id = row.id := hid.trans (hkey.symm.trans hmessage)
  cases d.system.db.messages.eq_of_key hheld hmem hsame
  have hyoung := hsound.young ho hrun hlive
  linarith

/-- The reading of a Beat run that has not selected yet. -/
def reading : BeatPc → Option Time
  | .selecting now => some now
  | _ => none

/-- The time limit has stopped a run, and two hours later Beat looks at its message. -/
theorem stale_task_gone_stopped :
    ∃ d row, Reachable (Prompt (configured (seconds 10)) (minutes 50)) d ∧
      row ∈ dispatchBatch d.system.db.messages d.system.clock [] ∧ row.status = .sending ∧
      ∀ m ∈ d.messages, m.current = true → m.task.id ≠ row.claimedBy := by
  obtain ⟨d, hd, hbeat, row, hrow, hsending⟩ := Transition.exists_of_runAll step
    (Prompt (configured (seconds 10)) (minutes 50)) (init 0)
    (beginning ++ [.run 0 .sendStart 0, .relay (.tick 50000000), .run 0 .crash 0, .discard 0,
      .relay (.tick 7200000000), .relay .beginBeat])
    (fun d => d.system.beats[0]?.bind reading = some d.system.clock ∧
      ∃ row ∈ dispatchBatch d.system.db.messages d.system.clock [], row.status = .sending)
    (by decide +kernel)
  obtain ⟨pc, hbeat, hreading⟩ := Option.bind_eq_some_iff.mp hbeat
  cases pc <;> cases hreading
  exact ⟨d, row, ⟨0, hd⟩, hrow, hsending,
    (stale_task_gone (by decide) (by decide) (by decide) ⟨0, hd⟩ hbeat hrow hsending).1⟩

end Deployment
end NotifyRelay
