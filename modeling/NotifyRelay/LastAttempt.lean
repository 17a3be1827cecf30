import NotifyRelay.AuditTrail

/-! The audit trail while runs of one message do not overlap: the newest attempt of a message is
the one its status and its dead letter are about. -/
namespace NotifyRelay

open Services Delivery Scheduler

/-- The newest attempt of a message. -/
def lastAttempt (attempts : AttemptTable) (id : MessageId) : Option DeliveryAttempt :=
  (attemptsOf attempts id).getLast?

theorem lastAttempt_insert {attempts attempts' : AttemptTable} {attempt : DeliveryAttempt}
    (h : attempts.insert? attempt = some attempts') :
    lastAttempt attempts' attempt.message = some attempt := by
  unfold lastAttempt
  rw [attemptsOf_insert h, if_pos rfl, List.getLast?_concat]

namespace Lifecycle

variable {v w : Lifecycle} {a : System.Action}

/-- While runs of one message do not overlap, the newest attempt is the one a run, a status or
a dead letter is about. -/
structure Conclusive (v : Lifecycle) : Prop where
  recorded : ∀ (r : Nat) (run : DeliveryRun) (result : ChannelResult), v.runs[r]? = some run →
    run.pc = .recorded result → Stored v run.message.id →
    ∃ attemptNo started finished, lastAttempt v.attempts run.message.id =
      some (newAttempt run.message.id attemptNo started finished result)
  rows : ∀ m ∈ v.messages.rows, ∀ need ∈ m.status.evidence,
    ∃ attempt, lastAttempt v.attempts m.id = some attempt ∧ attempt.result = need.1
  letters : ∀ letter ∈ v.deadLetters.rows, Stored v letter.message →
    ∃ attempt, lastAttempt v.attempts letter.message = some attempt ∧
      attempt.reason = some letter.reason

theorem conclusive_init (clock : Time) : Conclusive (init clock) := by
  constructor <;> simp [init, Table.empty]

/-- Only a run of the message adds to its attempts. -/
theorem Step.lastAttempt_eq (h : Step v a w) {id : MessageId} (hstored : Stored w id)
    (hother : ∀ (r : Nat) (run : DeliveryRun), v.runs[r]? = some run → run.live = true →
      a = .run r .record → run.message.id ≠ id) :
    lastAttempt w.attempts id = lastAttempt v.attempts id := by
  obtain ⟨m, hm, rfl⟩ := hstored
  generalize hattempts : w.attempts = attempts
  have hstep := h.attempts
  rw [hattempts] at hstep
  cases hstep with
  | same => rfl
  | @inserted r run started finished result attemptNo _ hrun hpc _ hinsert =>
      have hne : (newAttempt run.message.id attemptNo started finished result).message ≠ m.id :=
        hother r run hrun (by simp [DeliveryRun.live, hpc, DeliveryPc.live]) rfl
      unfold lastAttempt
      rw [attemptsOf_insert hinsert, if_neg hne, List.append_nil]
  | deleted hgone =>
      unfold lastAttempt
      rw [attemptsOf_delete _ (hgone m hm)]

/-- Nothing is recorded for a message at its end. -/
theorem Final.lastAttempt_eq (h : Final v) (hstep : Step v a w) {m : Message}
    (hm : m ∈ v.messages.rows) (hterminal : m.status.terminal = true) (hstored : Stored w m.id) :
    lastAttempt w.attempts m.id = lastAttempt v.attempts m.id := by
  refine hstep.lastAttempt_eq hstored fun r run hrun hlive _ hid => ?_
  rw [h.unfinished r run hrun hlive m hm hid.symm] at hterminal
  contradiction

theorem terminal_of_evidence {status : MessageStatus} {need : AttemptResult × Nat}
    (h : need ∈ status.evidence) : status.terminal = true := by
  cases status <;> first | rfl | cases h

theorem Conclusive.recorded_step (h : Conclusive v) (hfinal : Final v) (hhistory : History v)
    (hstep : Step v a w) {r : Nat} {run : DeliveryRun} {result : ChannelResult}
    (hrun : w.runs[r]? = some run) (hpc : run.pc = .recorded result)
    (hstored : Stored w run.message.id) :
    ∃ attemptNo started finished, lastAttempt w.attempts run.message.id =
      some (newAttempt run.message.id attemptNo started finished result) := by
  cases hstep.run hrun with
  | kept hmem hothers =>
      have hbefore := hstep.stored_old (hhistory.known_run hmem) hstored
      rw [hstep.lastAttempt_eq hstored fun i other hother hlive heq hid => ?_]
      · exact h.recorded r run result hmem hpc hbefore
      · have hsame := hfinal.alone i r other run hother hlive hmem (live_of_recorded hpc) hid
        exact hothers _ (hsame ▸ heq)
  | claimed => cases hpc
  | @moved r old action pc hmem hmoved =>
      change pc = .recorded result at hpc
      subst hpc
      generalize old.pc = place at hmoved
      cases hmoved
      obtain ⟨_, started, finished, attemptNo, -, -, -, -, -, hinsert⟩ := hstep.recorded hrun rfl
      exact ⟨attemptNo, started, finished, lastAttempt_insert hinsert⟩

theorem Conclusive.step (h : Conclusive v) (hreferential : Referential v) (hfinal : Final v)
    (hhistory : History v) (hstep : Step v a w) : Conclusive w := by
  -- the last transaction of a run adds no attempt
  have hfinish : ∀ {r : Nat} {accepted : Bool} {id : MessageId},
      a = .run r (.finish accepted) → Stored w id →
      lastAttempt w.attempts id = lastAttempt v.attempts id := by
    intro r accepted id heq hstored
    refine hstep.lastAttempt_eq hstored fun _ _ _ _ hrecord => ?_
    cases heq.symm.trans hrecord
  constructor
  case recorded =>
    exact fun r run result hrun hpc hstored =>
      h.recorded_step hfinal hhistory hstep hrun hpc hstored
  case rows =>
    intro m hm need hneed
    cases hstep.row hm with
    | kept hold =>
        rw [hfinal.lastAttempt_eq hstep hold (terminal_of_evidence hneed) ⟨m, hm, rfl⟩]
        exact h.rows m hold need hneed
    | @finished r run result accepted status old hrun hpc hold hid hverdict =>
        obtain ⟨hevidence, -⟩ := verdict_evidence hverdict
        obtain ⟨attemptNo, started, finished, hlast⟩ :=
          h.recorded r run result hrun hpc ⟨old, hold, hid⟩
        rw [hfinish rfl ⟨_, hm, rfl⟩]
        dsimp only [statusUpdate_apply]
        rw [hid]
        cases hevidence.symm.trans hneed
        exact ⟨_, hlast, rfl⟩
    | _ => cases hneed
  case letters =>
    intro letter hletter hstored
    rcases hstep.letter_reason hletter with
      hold | ⟨r, run, result, status, hrun, hpc, hverdict, hid, hrow, accepted, heq⟩
    · obtain ⟨m, hm, hid⟩ := hreferential.letters letter hold
      have hterminal : m.status.terminal = true := by
        rcases hfinal.letters letter hold m hm hid with hstatus | hstatus <;> rw [hstatus] <;> rfl
      rw [← hid, hfinal.lastAttempt_eq hstep hm hterminal (hid ▸ hstored), hid]
      exact h.letters letter hold ⟨m, hm, hid⟩
    · obtain ⟨attemptNo, started, finished, hlast⟩ := h.recorded r run result hrun hpc hrow
      rw [hfinish heq hstored, hid]
      exact ⟨_, hlast, verdict_reason hverdict run.message.id attemptNo started finished⟩

end Lifecycle

theorem System.conclusive {allowed : System → System.Action → Prop}
    (hallowed : ∀ s a, allowed s a → Lifecycle.Exclusive s.view a) {s : System}
    (h : System.Reachable allowed s) : Lifecycle.Conclusive s.view := by
  obtain ⟨_, _, _, hconclusive⟩ := System.invariant_of_lifecycle Lifecycle.Exclusive
    (fun v => Lifecycle.History v ∧ Lifecycle.Referential v ∧ Lifecycle.Final v ∧
      Lifecycle.Conclusive v) hallowed
    (fun clock => ⟨Lifecycle.history_init clock, Lifecycle.referential_init clock,
      Lifecycle.final_init clock, Lifecycle.conclusive_init clock⟩)
    (fun _ _ _ ⟨hhistory, hreferential, hfinal, hinv⟩ ha hstep =>
      ⟨hhistory.step hstep, hreferential.step hstep, hfinal.step hhistory ha hstep,
        hinv.step hreferential hfinal hhistory hstep⟩) h
  exact hconclusive

/-- As long as runs of one message do not overlap, the newest attempt decides: its result is that
of the status, and a message has a dead letter, with the error of that attempt, if and only if it
failed or is dead. -/
theorem last_attempt_decides {s : System}
    (h : System.Reachable (fun s a => Lifecycle.Exclusive s.view a) s) {m : Message}
    (hm : m ∈ s.db.messages.rows) :
    (m.status.terminal = true → ∃ attempt, lastAttempt s.db.attempts m.id = some attempt ∧
      (m.status = .sent ↔ attempt.result = .success) ∧
      (m.status = .failed ↔ attempt.result = .permanentError) ∧
      (m.status = .dead ↔ attempt.result = .transientError)) ∧
    ((m.status = .failed ∨ m.status = .dead) ↔
      ∃ letter ∈ s.db.deadLetters.rows, letter.message = m.id) ∧
    ∀ letter ∈ s.db.deadLetters.rows, letter.message = m.id →
      ∃ attempt, lastAttempt s.db.attempts m.id = some attempt ∧
        attempt.reason = some letter.reason := by
  have hconclusive := System.conclusive (fun _ _ ha => ha) h
  have hfinal := System.final (fun _ _ ha => ha) h
  refine ⟨fun hterminal => ?_, ⟨fun hburied => ?_, ?_⟩, fun letter hletter hid => ?_⟩
  · cases hstatus : m.status with
    | queued | sending => rw [hstatus] at hterminal; contradiction
    | sent | failed | dead =>
        have hrow := hconclusive.rows m hm
        rw [hstatus] at hrow
        obtain ⟨attempt, hlast, hresult⟩ := hrow _ rfl
        exact ⟨attempt, hlast, by simp [hresult]⟩
  · refine (System.audited h).lettered m hm ?_
    rcases hburied with heq | heq <;> rw [heq] <;> rfl
  · rintro ⟨letter, hletter, hid⟩
    exact hfinal.letters letter hletter m hm hid.symm
  · obtain ⟨attempt, hlast, hreason⟩ := hconclusive.letters letter hletter ⟨m, hm, hid.symm⟩
    exact ⟨attempt, hid ▸ hlast, hreason⟩

/-- A dead message: seven attempts, and the last one is a transient error. -/
theorem last_attempt_decides_exhausted :
    ∃ s m, System.Reachable (fun s a => Lifecycle.Exclusive s.view a) s ∧
      m ∈ s.db.messages.rows ∧ m.status = .dead ∧
      (∃ attempt, lastAttempt s.db.attempts m.id = some attempt ∧
        attempt.result = .transientError) ∧
      ∃ letter ∈ s.db.deadLetters.rows, letter.message = m.id := by
  obtain ⟨s, hs, m, hm, hdead⟩ := Transition.exists_of_runAll System.step
    (fun s a => Lifecycle.Exclusive s.view a) (System.init 0) System.exhausting
    (fun s => ∃ m ∈ s.db.messages.rows, m.status = .dead) (by decide +kernel)
  obtain ⟨hlast, hburied, -⟩ := last_attempt_decides ⟨0, hs⟩ hm
  obtain ⟨attempt, hattempt, -, -, hresult⟩ := hlast (by rw [hdead]; rfl)
  exact ⟨s, m, ⟨0, hs⟩, hm, hdead, ⟨attempt, hattempt, hresult.mp hdead⟩,
    hburied.mp (.inr hdead)⟩

end NotifyRelay
