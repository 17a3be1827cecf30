import NotifyRelay.Finality

/-! When a recorded success is the last word. The attempt and the status are written by
separate statements: between the two the row still says `sending`. -/
namespace NotifyRelay

open Services Delivery Scheduler

/-- The success is recorded and the status not yet saved. -/
def DeliveryPc.succeeded : DeliveryPc → Bool
  | .recorded result => result.success
  | _ => false

def Event.sends (id : MessageId) : Event → Bool
  | .sendInvoked _ message _ => message.id == id
  | _ => false

def System.Action.crashed : System.Action → Option Nat
  | .run r .crash => some r
  | _ => none

namespace Lifecycle

/-- How often the channel was called for a message. -/
def sends (v : Lifecycle) (id : MessageId) : Nat := v.log.countP (Event.sends id)

/-- Runs of one message do not overlap, and none crashes between the commit of a
successful attempt and the save of the status. -/
def Unbroken (v : Lifecycle) (a : System.Action) : Prop :=
  Exclusive v a ∧ ∀ r ∈ a.crashed, ∀ run ∈ v.runs[r]?, run.pc.succeeded = false

instance (v : Lifecycle) (a : System.Action) : Decidable (Unbroken v a) :=
  inferInstanceAs (Decidable (_ ∧ ∀ r ∈ a.crashed, ∀ run ∈ v.runs[r]?, _))

/-- A message with a recorded success: a run is about to save it, or it is saved. -/
structure Closed (v : Lifecycle) (id : MessageId) : Prop where
  known : Known v.log id
  runs : ∀ (r : Nat) (run : DeliveryRun), v.runs[r]? = some run → run.live = true →
    run.message.id = id → run.pc.succeeded = true
  held : (∃ (r : Nat) (run : DeliveryRun), v.runs[r]? = some run ∧ run.live = true ∧
      run.message.id = id) ∨
    ∀ m ∈ v.messages.rows, m.id = id → m.status.terminal = true

variable {v w : Lifecycle} {a : System.Action}

private theorem recorded_of_succeeded {pc : DeliveryPc} (h : pc.succeeded = true) :
    ∃ result, pc = .recorded result ∧ result.success = true := by
  unfold DeliveryPc.succeeded at h
  split at h
  next result => exact ⟨result, rfl, h⟩
  next => contradiction

/-- The last transaction after a success leaves no row that is not terminal. -/
theorem Step.finish_of_success {r : Nat} {run : DeliveryRun} {result : ChannelResult}
    {accepted : Bool} (h : Step v (.run r (.finish accepted)) w) (hrun : v.runs[r]? = some run)
    (hpc : run.pc = .recorded result) (hsuccess : result.success = true) {m : Message}
    (hm : m ∈ w.messages.rows) (hid : m.id = run.message.id) : m.status.terminal = true := by
  have hsent : verdict result run.task.retries = .sent := verdict_sent.mpr hsuccess
  have hsame : ∀ {other : DeliveryRun} {result' : ChannelResult}, v.runs[r]? = some other →
      other.pc = .recorded result' → other = run ∧ result' = result := by
    intro other result' hother hpc'
    cases Option.some.inj (hother.symm.trans hrun)
    exact ⟨rfl, DeliveryPc.recorded.inj (hpc'.symm.trans hpc)⟩
  cases h with
  | settle _ source hsource => cases hsource
  | refuse _ source id hsource => cases hsource
  | publish _ source message stamp rest id hsource => cases hsource
  | orphan _ other result' _ hother hpc' hnone =>
      obtain ⟨rfl, rfl⟩ := hsame hother hpc'
      exact absurd hid (v.messages.find?_eq_none.mp hnone m hm)
  | sent _ other result' _ hother hpc' hverdict =>
      obtain ⟨rfl, rfl⟩ := hsame hother hpc'
      rcases mem_save hm with ⟨_, hne⟩ | ⟨old, _, _, rfl⟩
      · exact absurd hid hne
      · rfl
  | bury _ other result' _ status reason letters hother hpc' hverdict =>
      obtain ⟨rfl, rfl⟩ := hsame hother hpc'
      rw [hsent] at hverdict
      contradiction
  | retry _ other result' text _ hother hpc' hverdict =>
      obtain ⟨rfl, rfl⟩ := hsame hother hpc'
      rw [hsent] at hverdict
      contradiction

theorem Closed.step {id : MessageId} (h : Closed v id) (hhistory : History v)
    (ha : Unbroken v a) (hstep : Step v a w) : Closed w id := by
  constructor
  case known => exact h.known.mono hstep.log_subset
  case runs =>
    intro r run hrun hlive hid
    cases hstep.run hrun with
    | kept hold => exact h.runs r run hold hlive hid
    | claimed _ hfind hclaim =>
        obtain ⟨hmem, _⟩ := v.messages.find?_eq_some.mp hfind
        rcases h.held with ⟨i, other, hother, hlive', hid'⟩ | hterminal
        · exact absurd hlive'
            (not_live_of_claimed hhistory ha.1 hfind hclaim hother (hid'.trans hid.symm))
        · rw [claim_of_terminal (hterminal _ hmem hid)] at hclaim
          contradiction
    | moved hold hpc =>
        obtain ⟨result, hrecorded, _⟩ := recorded_of_succeeded (h.runs r _ hold hpc.live hid)
        rw [hrecorded] at hpc
        cases hpc <;> contradiction
  case held =>
    rcases h.held with ⟨r, run, hrun, hlive, hid⟩ | hterminal
    · rcases hstep.run_survives hrun with hkept | ⟨action, pc, rfl, hpc⟩
      · exact .inl ⟨r, run, hkept, hlive, hid⟩
      · -- the run's own step: after a success only the last transaction is left
        have hsucceeded := h.runs r run hrun hlive hid
        obtain ⟨result, hrecorded, hsuccess⟩ := recorded_of_succeeded hsucceeded
        rw [hrecorded] at hpc
        cases hpc with
        | finish =>
            exact .inr fun m hm hkey =>
              hstep.finish_of_success hrun hrecorded hsuccess hm (hkey.trans hid.symm)
        | crash =>
            have hfailed := ha.2 r rfl run hrun
            rw [hsucceeded] at hfailed
            contradiction
    · refine .inr fun m hm hid => ?_
      obtain ⟨old, hmem, hsame⟩ := hstep.old_row hm (hid ▸ h.known)
      rcases terminal_row_step hstep hmem hhistory (hterminal old hmem (hsame.trans hid)) hm
        hsame.symm with rfl | ⟨hended, _⟩
      · exact hterminal m hmem hid
      · exact hended

/-- Runs of a closed message call no channel. -/
theorem Closed.sends_step {id : MessageId} (h : Closed v id) (hstep : Step v a w) :
    w.sends id = v.sends id := by
  cases hstep with
  | release b now locked hspent hnow =>
      simp [sends, record, setMessages, settled, List.countP_append, List.countP_map,
        Function.comp_def, Event.sends]
  | sendStart r run hrun hpc =>
      refine List.countP_cons_of_neg fun hsends => ?_
      have hsucceeded := h.runs r run hrun (by simp [DeliveryRun.live, hpc, DeliveryPc.live])
        (by simpa [Event.sends] using hsends)
      rw [hpc] at hsucceeded
      contradiction
  | retry r run result text accepted hrun hpc hverdict => cases accepted <;> rfl
  | _ => rfl

/-- Every recorded success belongs to a closed message. -/
def SuccessesClosed (v : Lifecycle) : Prop :=
  ∀ attempt ∈ v.attempts.rows, attempt.result = .success → Closed v attempt.message

theorem SuccessesClosed.step (h : SuccessesClosed v) (hhistory : History v) (hfinal : Final v)
    (ha : Unbroken v a) (hstep : Step v a w) : SuccessesClosed w := by
  intro attempt hattempt hresult
  rcases hstep.attempt_row hattempt with
    hold | ⟨r, run, started, finished, result, attemptNo, rfl, hrun, hpc, rfl, hafter⟩
  · exact (h attempt hold hresult).step hhistory ha hstep
  · have hlive : run.live = true := by simp [DeliveryRun.live, hpc, DeliveryPc.live]
    have hsuccess : result.success = true := mapResult_success.mp hresult
    refine ⟨(hhistory.known_run hrun).mono hstep.log_subset, ?_, .inl ⟨r, _, hafter, rfl, rfl⟩⟩
    intro i other hother hlive' hid
    cases hstep.run hother with
    | kept hold hothers =>
        have heq := hfinal.alone i r other run hold hlive' hrun hlive hid
        subst heq
        exact absurd rfl (hothers _)
    | moved =>
        rw [Option.some.inj (hother.symm.trans hafter)]
        exact hsuccess

/-- What holds in every state of an unbroken run. -/
structure Settled (v : Lifecycle) : Prop where
  history : History v
  final : Final v
  closed : SuccessesClosed v

theorem settled_init (clock : Time) : Settled (init clock) :=
  ⟨history_init clock, final_init clock, fun _ h => by cases h⟩

theorem Settled.step (h : Settled v) (ha : Unbroken v a) (hstep : Step v a w) : Settled w :=
  ⟨h.history.step hstep, h.final.step h.history ha.1 hstep,
    h.closed.step h.history h.final ha hstep⟩

theorem Closed.sends_reaches {id : MessageId} (hclosed : Closed v id) (hv : Settled v)
    (h : Lifecycle.Reaches Unbroken v w) : w.sends id = v.sends id := by
  refine (h.invariant_of (fun u => Settled u ∧ Closed u id)
    (fun u => u.sends id = v.sends id) ⟨hv, hclosed⟩ ?_ rfl ?_)
  · intro u a u' hknown ha hstep
    exact ⟨hknown.1.step ha hstep, hknown.2.step hknown.1.history ha hstep⟩
  · intro u a u' hknown hsends _ hstep
    rw [hknown.2.sends_step hstep]
    exact hsends

end Lifecycle

/-- If runs of one message do not overlap and none crashes between the commit of a
successful attempt and the save of `sent`, then after such a commit the channel is never
called again for that message. -/
theorem success_not_repeated_of_unbroken {s t : System}
    (hs : System.Reachable (fun s a => Lifecycle.Unbroken s.view a) s)
    (hst : System.Reaches (fun s a => Lifecycle.Unbroken s.view a) s t)
    {attempt : DeliveryAttempt} (hattempt : attempt ∈ s.db.attempts.rows)
    (hresult : attempt.result = .success) :
    t.log.countP (Event.sends attempt.message) = s.log.countP (Event.sends attempt.message) := by
  have hsettled : Lifecycle.Settled s.view :=
    System.invariant_of_lifecycle Lifecycle.Unbroken Lifecycle.Settled (fun _ _ ha => ha)
      Lifecycle.settled_init
      (fun _ _ _ hinv ha hstep => hinv.step ha hstep) hs
  exact (hsettled.closed attempt hattempt hresult).sends_reaches hsettled
    (System.reaches_view (fun _ _ ha => ha) hs hst)

/-- A success that is recorded and saved, and a task that comes again afterwards. -/
theorem success_not_repeated_of_unbroken_redelivered :
    ∃ s t, System.Reachable (fun s a => Lifecycle.Unbroken s.view a) s ∧
      System.Reaches (fun s a => Lifecycle.Unbroken s.view a) s t ∧
      ∃ attempt ∈ s.db.attempts.rows, attempt.result = .success ∧
        t.log.countP (Event.sends attempt.message) =
          s.log.countP (Event.sends attempt.message) := by
  obtain ⟨s, t, hs, hst, attempt, hattempt, hresult⟩ := Transition.exists_pair_of_runAll
    System.step (fun s a => Lifecycle.Unbroken s.view a) (System.init 0)
    (System.opening ++ .deliver System.firstTask :: System.performing 0 delivered)
    ([.deliver System.firstTask])
    (fun s _ => ∃ attempt ∈ s.db.attempts.rows, attempt.result = .success)
    (by decide +kernel)
  exact ⟨s, t, ⟨0, hs⟩, hst, attempt, hattempt, hresult,
    success_not_repeated_of_unbroken ⟨0, hs⟩ hst hattempt hresult⟩

/-- A worker dies after it committed the successful attempt. The row still says `sending`
with the task's own id, so the redelivered task claims it and sends once more. -/
theorem success_repeated_after_crash :
    ∃ s t, System.Reachable Transition.anyStep s ∧ System.Reaches Transition.anyStep s t ∧
      ∃ attempt ∈ s.db.attempts.rows, attempt.result = .success ∧
        s.log.countP (Event.sends attempt.message) = 1 ∧
        t.log.countP (Event.sends attempt.message) = 2 := by
  obtain ⟨s, t, hs, hst, hp⟩ := Transition.exists_pair_of_runAll
    System.step Transition.anyStep (System.init 0)
    (System.opening ++ [.deliver System.firstTask, .run 0 .sendStart,
      .run 0 (.sendEnd (.returned delivered)), .run 0 .count, .run 0 .record])
    ([.run 0 .crash, .deliver System.firstTask, .run 1 .sendStart])
    (fun s t => ∃ attempt ∈ s.db.attempts.rows, attempt.result = .success ∧
      s.log.countP (Event.sends attempt.message) = 1 ∧
      t.log.countP (Event.sends attempt.message) = 2) (by decide +kernel)
  exact ⟨s, t, ⟨0, hs⟩, hst, hp⟩

end NotifyRelay
