import NotifyRelay.AttemptRecords

/-! The chain of runs of one delivery task: Celery runs it again after each `TransientError`,
and what the message comes to is decided by what the channel gives the runs. -/
namespace NotifyRelay

open Services Delivery Scheduler

namespace Delivery

/-- What `Task.retry` publishes; it gives up when `request.retries + 1` exceeds `max_retries`. -/
def celeryRetry (task : Task) : Option Task :=
  if maxRetries < task.retries + 1 then none else some (retryOf task)

def transientFailure (result : ChannelResult) : Bool := !result.success && result.transient

/-- The first run whose result is not a transient failure, or the last one there may be. -/
def lastRun (outcomes : Nat → SendOutcome) : Nat :=
  ((List.range maxRetries).find? fun n => !transientFailure (outcomes n).result).getD maxRetries

/-- The status a chain ends with. -/
def finalStatus (result : ChannelResult) : MessageStatus :=
  if result.success then .sent else if result.transient then .dead else .failed

/-- The code's own limit lies within Celery's. -/
theorem celeryRetry_of_retried {result : ChannelResult} {task : Task}
    (h : (verdict result task.retries).ending = .retried) :
    celeryRetry task = some (retryOf task) := by
  unfold verdict at h
  split at h
  next => cases h
  next =>
    split at h
    next => cases h
    next =>
      split at h
      next => cases h
      next hlimit => exact if_neg (by omega)

theorem Verdict.status_of_retried {verdict : Verdict} (h : verdict.ending = .retried) :
    verdict.status = .sending := by
  cases verdict <;> cases h
  rfl

theorem ending_retried_iff {result : ChannelResult} {retriesDone : Nat} :
    (verdict result retriesDone).ending = .retried ↔
      transientFailure result = true ∧ retriesDone < maxRetries := by
  unfold verdict transientFailure
  by_cases hlimit : maxRetries ≤ retriesDone
  · cases result.success <;> cases result.transient <;>
      simp [Verdict.ending, hlimit, Nat.not_lt.mpr hlimit]
  · cases result.success <;> cases result.transient <;>
      simp [Verdict.ending, hlimit, Nat.lt_of_not_le hlimit]

section LastRun

variable (outcomes : Nat → SendOutcome)

theorem lastRun_cases :
    lastRun outcomes = maxRetries ∧
        (∀ n < maxRetries, transientFailure (outcomes n).result = true) ∨
      lastRun outcomes < maxRetries ∧
        transientFailure (outcomes (lastRun outcomes)).result = false ∧
        ∀ n < lastRun outcomes, transientFailure (outcomes n).result = true := by
  unfold lastRun
  cases hfind : (List.range maxRetries).find? fun n =>
      !transientFailure (outcomes n).result with
  | none =>
      refine .inl ⟨rfl, fun n hn => ?_⟩
      simpa using List.find?_range_eq_none.mp hfind n hn
  | some k =>
      obtain ⟨hk, hrange, hbefore⟩ := List.find?_range_eq_some.mp hfind
      refine .inr ⟨List.mem_range.mp hrange, by simpa using hk, fun n hn => ?_⟩
      simpa using hbefore n hn

theorem lastRun_le : lastRun outcomes ≤ maxRetries := by
  rcases lastRun_cases outcomes with ⟨heq, -⟩ | ⟨hlt, -⟩
  · exact heq.le
  · exact hlt.le

theorem transient_of_lt_lastRun {n : Nat} (h : n < lastRun outcomes) :
    transientFailure (outcomes n).result = true := by
  rcases lastRun_cases outcomes with ⟨heq, hall⟩ | ⟨-, -, hbefore⟩
  · exact hall n (heq ▸ h)
  · exact hbefore n h

/-- The chain does not go on after its last run, and goes on before. -/
theorem ending_retried_iff_lt {n : Nat} (hn : n ≤ lastRun outcomes) :
    (verdict (outcomes n).result n).ending = .retried ↔ n < lastRun outcomes := by
  rw [ending_retried_iff]
  constructor
  · rintro ⟨htransient, hlimit⟩
    refine lt_of_le_of_ne hn ?_
    rintro rfl
    rcases lastRun_cases outcomes with ⟨heq, -⟩ | ⟨-, hnot, -⟩
    · omega
    · rw [hnot] at htransient
      contradiction
  · exact fun hlt => ⟨transient_of_lt_lastRun outcomes hlt, hlt.trans_le (lastRun_le outcomes)⟩

end LastRun

end Delivery

namespace Lifecycle

variable {v w : Lifecycle} {a : System.Action} {id : MessageId} {status : MessageStatus}

/-- The message has come to its end and none of its runs is under way. -/
structure AtRest (v : Lifecycle) (id : MessageId) (status : MessageStatus) : Prop
    extends EndedAs v id status where
  idle : ∀ (r : Nat) (run : DeliveryRun), v.runs[r]? = some run → run.message.id = id →
    run.live = false

theorem AtRest.step (h : AtRest v id status) (hterminal : status.terminal = true)
    (hhistory : History v) (hstep : Step v a w) : AtRest w id status := by
  have hrows : ∀ m ∈ w.messages.rows, m.id = id → m.status = status := by
    intro m hm hid
    obtain ⟨old, hmem, hsame⟩ := hstep.old_row hm (hid ▸ h.known)
    have hstatus := h.rows old hmem (hsame.trans hid)
    rcases terminal_row_step hstep hmem hhistory (hstatus ▸ hterminal) hm hsame.symm with
      rfl | ⟨-, r, run, -, -, hrun, hlive, hkey⟩
    · exact hstatus
    · rw [h.idle r run hrun (hkey.trans (hsame.trans hid))] at hlive
      contradiction
  refine ⟨⟨h.known.mono hstep.log_subset, hrows⟩, fun r run hrun hid => ?_⟩
  cases hstep.run hrun with
  | kept hold => exact h.idle r run hold hid
  | claimed _ hfind hclaim =>
      have hstatus := h.rows _ (v.messages.find?_eq_some.mp hfind).1 hid
      rw [claim_of_terminal (hstatus ▸ hterminal)] at hclaim
      contradiction
  | @moved _ old _ _ hold hpc =>
      have hlive := hpc.live
      rw [← DeliveryRun.live, h.idle r old hold hid] at hlive
      contradiction

/-- No channel is called for it any more. -/
theorem AtRest.sends_step (h : AtRest v id status) (hstep : Step v a w) {r : Nat}
    {message : Message} {time : Time} (hmem : Event.sendInvoked r message time ∈ w.log)
    (hid : message.id = id) : Event.sendInvoked r message time ∈ v.log := by
  rcases hstep.event hmem with hold | hnew
  · exact hold
  · cases hnew with
    | sendInvoked hrun hpc =>
        have hdead := h.idle _ _ hrun hid
        rw [DeliveryRun.live, hpc] at hdead
        contradiction

theorem AtRest.reaches (h : AtRest v id status) (hterminal : status.terminal = true)
    (hhistory : History v) (hreaches : Lifecycle.Reaches Transition.anyStep v w) :
    AtRest w id status ∧ ∀ r (message : Message) time, message.id = id →
      Event.sendInvoked r message time ∈ w.log → Event.sendInvoked r message time ∈ v.log := by
  refine hreaches.invariant_of History (fun u => AtRest u id status ∧
      ∀ r (message : Message) time, message.id = id →
        Event.sendInvoked r message time ∈ u.log → Event.sendInvoked r message time ∈ v.log)
    hhistory (fun _ _ _ hknown _ hstep => hknown.step hstep) ⟨h, fun _ _ _ _ hmem => hmem⟩ ?_
  intro u a u' hknown hinv _ hstep
  exact ⟨hinv.1.step hterminal hknown hstep, fun r message time hid hmem =>
    hinv.2 r message time hid (hinv.1.sends_step hstep hmem hid)⟩

end Lifecycle

namespace System

/-- The runs of `first` and of the tasks Celery publishes for it, where the channel gives
`outcomes n` to run `n`. `Chain outcomes first s n task how t`: run `n` was one of `task` and
ended `how` in `t`. -/
inductive Chain (outcomes : Nat → SendOutcome) (first : Task) (s : System) :
    Nat → Task → DeliveryEnd → System → Prop
  | first {how : DeliveryEnd} {t : System} (hrun : RunOf first (outcomes 0) true s how t) :
      Chain outcomes first s 0 first how t
  | again {n : Nat} {task next : Task} {how : DeliveryEnd} {t u : System}
      (h : Chain outcomes first s n task .retried t) (hretry : celeryRetry task = some next)
      (hrun : RunOf next (outcomes (n + 1)) true t how u) :
      Chain outcomes first s (n + 1) next how u

/-- Nothing is published after such a run. -/
def Stops (task : Task) (how : DeliveryEnd) : Prop := how ≠ .retried ∨ celeryRetry task = none

/-- A queued message whose task is about to be run for the first time, with no other run of
the message under way. -/
structure Ready (first : Task) (m : Message) (s : System) : Prop where
  reachable : Reachable Transition.anyStep s
  row : m ∈ s.db.messages.rows
  id : m.id = first.message
  queued : m.status = .queued
  broker : first ∈ s.broker
  retries : first.retries = 0
  idle : ∀ (r : Nat) (run : DeliveryRun), s.runs[r]? = some run → run.message.id = m.id →
    run.live = false

/-- The attempts of the first runs, in order, numbered after the ones before. -/
def Images (outcomes : Nat → SendOutcome) (id : MessageId) (before count : Nat)
    (attempts : List DeliveryAttempt) : Prop :=
  attempts.length = count ∧ ∀ n < count, ∃ started finished,
    attempts[n]? = some (newAttempt id (before + n + 1) started finished (outcomes n).result)

theorem images_nil (outcomes : Nat → SendOutcome) (id : MessageId) (before : Nat) :
    Images outcomes id before 0 [] :=
  ⟨rfl, fun n hn => absurd hn (Nat.not_lt_zero n)⟩

theorem Images.concat {outcomes : Nat → SendOutcome} {id : MessageId} {before count : Nat}
    {attempts : List DeliveryAttempt} (h : Images outcomes id before count attempts)
    (started finished : Time) :
    Images outcomes id before (count + 1) (attempts ++
      [newAttempt id (before + count + 1) started finished (outcomes count).result]) := by
  obtain ⟨hlength, himages⟩ := h
  refine ⟨by rw [List.length_append, hlength, List.length_singleton], fun n hn => ?_⟩
  rcases Nat.lt_succ_iff_lt_or_eq.mp hn with hlt | rfl
  · rw [List.getElem?_append_left (hlength ▸ hlt)]
    exact himages n hlt
  · rw [← hlength, List.getElem?_concat_length]
    exact ⟨started, finished, rfl⟩

/-- What has become of the message when run `n` of its chain has ended. -/
structure ChainState (outcomes : Nat → SendOutcome) (first : Task) (m : Message) (s : System)
    (n : Nat) (task : Task) (how : DeliveryEnd) (t : System) : Prop where
  task_eq : task = { first with retries := n }
  reachable : Reachable Transition.anyStep t
  before : ∀ i < n, transientFailure (outcomes i).result = true ∧
    (outcomes i).result.storable = true ∧ i < maxRetries
  idle : ∀ (r : Nat) (run : DeliveryRun), t.runs[r]? = some run → run.message.id = m.id →
    run.live = false
  ended : ((outcomes n).result.storable = false ∧ how = .aborted ∧
      ∃ new, Images outcomes m.id (attemptsOf s.db.attempts m.id).length n new ∧
        attemptsOf t.db.attempts m.id = attemptsOf s.db.attempts m.id ++ new) ∨
    ((outcomes n).result.storable = true ∧ how = (verdict (outcomes n).result n).ending ∧
      (∃ new, Images outcomes m.id (attemptsOf s.db.attempts m.id).length (n + 1) new ∧
        attemptsOf t.db.attempts m.id = attemptsOf s.db.attempts m.id ++ new) ∧
      (∃ row ∈ t.db.messages.rows, row.id = m.id ∧ row.claimedBy = first.id ∧
        row.status = (verdict (outcomes n).result n).status) ∧
      ((∃ letter ∈ t.db.deadLetters.rows, letter.message = m.id) ↔
        (verdict (outcomes n).result n).buries = true) ∧
      (how = .retried → retryOf task ∈ t.broker))

variable {outcomes : Nat → SendOutcome} {first : Task} {m : Message} {s t u : System} {n : Nat}
  {task : Task} {how : DeliveryEnd}

private theorem Midway.idle {row message : Message} {attempts : List DeliveryAttempt} {r : Nat}
    (h : Midway s row attempts r ⟨task, message, .ended how⟩ t)
    (hidle : ∀ (i : Nat) (run : DeliveryRun), s.runs[i]? = some run →
      run.message.id = row.id → run.live = false)
    (i : Nat) (run : DeliveryRun) (hrun : t.runs[i]? = some run)
    (hid : run.message.id = row.id) : run.live = false := by
  by_cases hr : i = r
  · subst hr
    cases Option.some.inj (hrun.symm.trans h.run)
    rfl
  · exact hidle i run (h.others i run hrun hid hr) hid

/-- One more run of the chain, from a state `u` in which the message may be claimed. -/
theorem chainState_of_run {m' : Message} (hu : Reachable Transition.anyStep u)
    (hm' : m' ∈ u.db.messages.rows) (hid : m'.id = m.id) (hfirst : m.id = first.message)
    (hclaim : claim m' first.id = .claimed)
    (hidle : ∀ (r : Nat) (run : DeliveryRun), u.runs[r]? = some run → run.message.id = m.id →
      run.live = false)
    (hbefore : ∀ i < n, transientFailure (outcomes i).result = true ∧
      (outcomes i).result.storable = true ∧ i < maxRetries)
    {new : List DeliveryAttempt}
    (himages : Images outcomes m.id (attemptsOf s.db.attempts m.id).length n new)
    (hnew : attemptsOf u.db.attempts m.id = attemptsOf s.db.attempts m.id ++ new)
    (htask : task = { first with retries := n })
    (hrun : RunOf task (outcomes n) true u how t) :
    ChainState outcomes first m s n task how t := by
  have howned : task.id = first.id := by rw [htask]
  have hmessage : first.message = task.message := by rw [htask]
  have hretries : task.retries = n := by rw [htask]
  obtain ⟨r, now, hend⟩ :=
    hrun.concluded hu hm' (hid.trans (hfirst.trans hmessage)) (howned ▸ hclaim)
  have hkey : ((claimUpdate task.id now).apply m').id = m.id := hid
  cases hend with
  | aborted hstorable hstate =>
      refine ⟨htask, hstate.reachable, hbefore, fun i run hi hmessage => ?_, .inl ⟨hstorable, rfl,
        new, himages, ?_⟩⟩
      · exact hstate.idle (fun i run hi hsame => hidle i run hi (hsame.trans hkey)) i run hi
          (hmessage.trans hkey.symm)
      · have hattempts := hstate.attempts
        rw [hkey, hid] at hattempts
        exact hattempts.trans hnew
  | @finished _ row started finished hstorable hstate hrow howner hstatus hletter hretry =>
      rw [hkey] at hrow hletter
      rw [hretries] at hstatus hletter
      refine ⟨htask, hstate.reachable, hbefore, fun i run hi hmessage => ?_, .inr ⟨hstorable,
        by rw [hretries], ⟨_, himages.concat started finished, ?_⟩,
        ⟨row, hstate.row, hrow, howner.trans howned, hstatus⟩, hletter,
        fun hretried => hretry hretried rfl⟩⟩
      · exact hstate.idle (fun i run hi hsame => hidle i run hi (hsame.trans hrow)) i run hi
          (hmessage.trans hrow.symm)
      · have hattempts := hstate.attempts
        rw [hrow, hkey, hid, hnew, List.length_append, himages.1] at hattempts
        rw [hattempts, List.append_assoc]

theorem Chain.state (hready : Ready first m s) (h : Chain outcomes first s n task how t) :
    ChainState outcomes first m s n task how t := by
  induction h with
  | first hrun =>
      exact chainState_of_run hready.reachable hready.row rfl hready.id
        (claim_eq_claimed.mpr (.inl hready.queued)) hready.idle
        (fun i hi => absurd hi (Nat.not_lt_zero i)) (images_nil _ _ _) (List.append_nil _).symm
        (by rw [← hready.retries]) hrun
  | @again n task next how t u _ hretry hrun ih =>
      obtain ⟨htask, hreachable, hbefore, hidle, hended⟩ := ih
      rcases hended with ⟨-, haborted, -⟩ | ⟨hstorable, hending, ⟨new, himages, hnew⟩,
        ⟨row, hrow, hid, howner, hstatus⟩, -, -⟩
      · cases haborted
      · obtain ⟨htransient, hlimit⟩ := ending_retried_iff.mp hending.symm
        subst htask
        have hnext : next = { first with retries := n + 1 } :=
          Option.some.inj (hretry.symm.trans (celeryRetry_of_retried hending.symm))
        have hsending := hstatus.trans (Verdict.status_of_retried hending.symm)
        refine chainState_of_run hreachable hrow hid hready.id
          (claim_eq_claimed.mpr (.inr ⟨hsending, howner⟩)) hidle (fun i hi => ?_) himages hnew
          hnext hrun
        rcases Nat.lt_succ_iff_lt_or_eq.mp hi with hlt | rfl
        · exact hbefore i hlt
        · exact ⟨htransient, hstorable, hlimit⟩

/-- As long as nothing fails to be recorded, the chain gets to its last run. -/
theorem exists_chain (hready : Ready first m s) (hn : n ≤ lastRun outcomes)
    (hstorable : ∀ i < n, (outcomes i).result.storable = true) :
    ∃ task how t, Chain outcomes first s n task how t := by
  induction n with
  | zero =>
      obtain ⟨how, t, hrun⟩ := exists_runOf hready.reachable hready.row hready.id
        (claim_eq_claimed.mpr (.inl hready.queued)) hready.broker (outcomes 0) true
      exact ⟨first, how, t, .first hrun⟩
  | succ n ih =>
      obtain ⟨task, how, t, hchain⟩ :=
        ih (Nat.le_of_succ_le hn) fun i hi => hstorable i (Nat.lt_succ_of_lt hi)
      have hstate := hchain.state hready
      rcases hstate.ended with ⟨hlost, -⟩ | ⟨-, hending, -, ⟨row, hrow, hid, howner, hstatus⟩, -,
        hbroker⟩
      · rw [hstorable n (Nat.lt_succ_self n)] at hlost
        contradiction
      · have hretried := (ending_retried_iff_lt outcomes (Nat.le_of_succ_le hn)).mpr hn
        obtain rfl : how = .retried := hending.trans hretried
        have hmessage : row.id = (retryOf task).message := by
          rw [hid, hready.id, hstate.task_eq]
          rfl
        have hclaim : claim row (retryOf task).id = .claimed := by
          have hsending := hstatus.trans (Verdict.status_of_retried hretried)
          refine claim_eq_claimed.mpr (.inr ⟨hsending, ?_⟩)
          rw [howner, hstate.task_eq]
          rfl
        have hverdict : (verdict (outcomes n).result task.retries).ending = .retried := by
          rw [hstate.task_eq]
          exact hretried
        obtain ⟨how, u, hrun⟩ := exists_runOf hstate.reachable hrow hmessage hclaim
          (hbroker rfl) (outcomes (n + 1)) true
        exact ⟨_, how, u, .again hchain (celeryRetry_of_retried hverdict) hrun⟩

/-- What the results make of the message once the chain has stopped, for good. -/
structure AsResults (outcomes : Nat → SendOutcome) (m : Message) (s t : System) : Prop where
  attempts : ∃ new, Images outcomes m.id (attemptsOf s.db.attempts m.id).length
      (lastRun outcomes + 1) new ∧
    attemptsOf t.db.attempts m.id = attemptsOf s.db.attempts m.id ++ new
  row : ∃ row ∈ t.db.messages.rows, row.id = m.id ∧
    row.status = finalStatus (outcomes (lastRun outcomes)).result
  letter : (∃ letter ∈ t.db.deadLetters.rows, letter.message = m.id) ↔
    (outcomes (lastRun outcomes)).result.success = false
  later : ∀ u, Reaches Transition.anyStep t u →
    (∀ r (message : Message) time, message.id = m.id →
      Event.sendInvoked r message time ∈ u.log → Event.sendInvoked r message time ∈ t.log) ∧
    ∀ row ∈ u.db.messages.rows, row.id = m.id →
      row.status = finalStatus (outcomes (lastRun outcomes)).result ∧
      ∀ task ∈ u.broker, task.message = m.id →
        step u (.deliver task) = some (u.record [.declined task .noop])

/-- The chain has run as its results say: it can come to an end, and wherever it does, that is
after the last run, with the message as the results make it. -/
def RunsAsResults (outcomes : Nat → SendOutcome) (first : Task) (m : Message) (s : System) :
    Prop :=
  (∃ n task how t, Chain outcomes first s n task how t ∧ Stops task how) ∧
  ∀ n task how t, Chain outcomes first s n task how t → Stops task how →
    n = lastRun outcomes ∧ AsResults outcomes m s t

theorem stops_of_not_lt (hn : n = lastRun outcomes) (task : Task) :
    Stops task (verdict (outcomes n).result n).ending := by
  refine .inl fun hretried => ?_
  have hlt := (ending_retried_iff_lt outcomes hn.le).mp hretried
  omega

theorem ChainState.le_lastRun (h : ChainState outcomes first m s n task how t) :
    n ≤ lastRun outcomes := by
  by_contra hlt
  have hbefore := h.before (lastRun outcomes) (not_le.mp hlt)
  have hgoes := ending_retried_iff.mpr ⟨hbefore.1, hbefore.2.2⟩
  exact Nat.lt_irrefl _ ((ending_retried_iff_lt outcomes le_rfl).mp hgoes)

/-- A recorded run that is followed by no other is the last one. -/
theorem ChainState.eq_lastRun (h : ChainState outcomes first m s n task how t)
    (hstorable : (outcomes n).result.storable = true) (hstops : Stops task how) :
    n = lastRun outcomes := by
  have hle := h.le_lastRun
  refine hle.eq_or_lt.resolve_right fun hlt => ?_
  have hretried := (ending_retried_iff_lt outcomes hle).mpr hlt
  rcases h.ended with ⟨hlost, -⟩ | ⟨-, hending, -⟩
  · rw [hstorable] at hlost
    contradiction
  · have hverdict : (verdict (outcomes n).result task.retries).ending = .retried := by
      rw [h.task_eq]
      exact hretried
    rcases hstops with hnot | hnone
    · exact hnot (hending.trans hretried)
    · rw [celeryRetry_of_retried hverdict] at hnone
      contradiction

theorem status_lastRun (outcomes : Nat → SendOutcome) :
    (verdict (outcomes (lastRun outcomes)).result (lastRun outcomes)).status =
        finalStatus (outcomes (lastRun outcomes)).result ∧
      (verdict (outcomes (lastRun outcomes)).result (lastRun outcomes)).buries =
        !(outcomes (lastRun outcomes)).result.success := by
  have hstop := mt (ending_retried_iff_lt outcomes le_rfl).mp (Nat.lt_irrefl _)
  revert hstop
  unfold verdict finalStatus
  split
  next hsuccess => simp [Verdict.status, Verdict.buries, hsuccess]
  next hsuccess =>
    split
    next htransient => simp_all [Verdict.status, Verdict.buries]
    next htransient =>
      split
      next => simp_all [Verdict.status, Verdict.buries]
      next => simp [Verdict.ending]

theorem terminal_finalStatus (result : ChannelResult) :
    (finalStatus result).terminal = true := by
  unfold finalStatus
  split
  · rfl
  · split <;> rfl

theorem deliver_of_terminal {row : Message} (hrow : row ∈ t.db.messages.rows)
    (hid : task.message = row.id) (hbroker : task ∈ t.broker)
    (hterminal : row.status.terminal = true) :
    step t (.deliver task) = some (t.record [.declined task .noop]) := by
  rw [step, stepDeliver, if_pos hbroker, t.db.messages.find?_eq_some.mpr ⟨hrow, hid.symm⟩]
  dsimp only
  rw [claim_of_terminal hterminal]

theorem ChainState.asResults
    (h : ChainState outcomes first m s (lastRun outcomes) task how t)
    (hstorable : (outcomes (lastRun outcomes)).result.storable = true) :
    AsResults outcomes m s t := by
  obtain ⟨hstatusEq, hburies⟩ := status_lastRun outcomes
  rcases h.ended with ⟨hlost, -⟩ | ⟨-, -, hattempts, ⟨row, hrow, hid, -, hstatus⟩, hletter, -⟩
  · rw [hstorable] at hlost
    contradiction
  · rw [hstatusEq] at hstatus
    have hterminal := terminal_finalStatus (outcomes (lastRun outcomes)).result
    have hhistory := System.history h.reachable
    have hrest : Lifecycle.AtRest t.view m.id
        (finalStatus (outcomes (lastRun outcomes)).result) :=
      { known := hid ▸ hhistory.known_row hrow
        rows := fun other hother hsame =>
          t.db.messages.eq_of_key hrow hother (hid.trans hsame.symm) ▸ hstatus
        idle := h.idle }
    refine ⟨hattempts, ⟨row, hrow, hid, hstatus⟩, ?_, fun u hu => ?_⟩
    · rw [hletter, hburies, Bool.not_eq_true']
    · obtain ⟨hlater, hsends⟩ := hrest.reaches hterminal hhistory
        (System.reaches_view (fun _ _ _ => trivial) h.reachable hu)
      refine ⟨hsends, fun row hrow hid => ⟨hlater.rows row hrow hid, fun task htask hmessage => ?_⟩⟩
      exact deliver_of_terminal hrow (hmessage.trans hid.symm) htask
        (hlater.rows row hrow hid ▸ hterminal)

theorem runsAsResults_of_storable (hready : Ready first m s)
    (hstorable : ∀ n ≤ lastRun outcomes, (outcomes n).result.storable = true) :
    RunsAsResults outcomes first m s := by
  constructor
  · obtain ⟨task, how, t, hchain⟩ :=
      exists_chain hready le_rfl fun i hi => hstorable i hi.le
    refine ⟨_, task, how, t, hchain, ?_⟩
    rcases (hchain.state hready).ended with ⟨hlost, -⟩ | ⟨-, hending, -⟩
    · rw [hstorable _ le_rfl] at hlost
      contradiction
    · exact hending ▸ stops_of_not_lt rfl task
  · intro n task how t hchain hstops
    have hstate := hchain.state hready
    obtain rfl := hstate.eq_lastRun (hstorable n hstate.le_lastRun) hstops
    exact ⟨rfl, hstate.asResults (hstorable _ le_rfl)⟩

/-- The first result that cannot be stored ends the chain without an attempt. -/
theorem storable_of_runsAsResults (hready : Ready first m s)
    (h : RunsAsResults outcomes first m s) :
    ∀ n ≤ lastRun outcomes, (outcomes n).result.storable = true := by
  intro n
  induction n using Nat.strong_induction_on with
  | _ n ih =>
      intro hn
      obtain ⟨task, how, t, hchain⟩ :=
        exists_chain hready hn fun i hi => ih i hi (hi.le.trans hn)
      rcases (hchain.state hready).ended with ⟨-, rfl, new, himages, hnew⟩ | ⟨hstorable, -⟩
      · have hstops : Stops task .aborted := .inl fun hretried => DeliveryEnd.noConfusion hretried
        obtain ⟨rfl, hresults⟩ := h.2 n task .aborted t hchain hstops
        obtain ⟨new', himages', hnew'⟩ := hresults.attempts
        have hsame := List.append_cancel_left (hnew.symm.trans hnew')
        have hlength := himages'.1
        rw [← hsame, himages.1] at hlength
        omega
      · exact hstorable

end System

/-- The chain of a delivery task runs, ends and leaves its message as the channel's results say
if and only if each result up to the last run can be stored. -/
theorem retry_chain_as_results {first : Task} {m : Message} {s : System}
    (hready : System.Ready first m s) (outcomes : Nat → SendOutcome) :
    System.RunsAsResults outcomes first m s ↔
      ∀ n ≤ lastRun outcomes, (outcomes n).result.storable = true :=
  ⟨System.storable_of_runsAsResults hready, System.runsAsResults_of_storable hready⟩

section Scenario

theorem ready_opened : ∃ s m, System.Ready System.firstTask m s ∧
    m.recipient = "user@example.com" := by
  obtain ⟨s, m, hs, hm, hid, hrecipient, hqueued, hbroker, hruns, -⟩ := opened
  exact ⟨s, m,
    { reachable := hs, row := hm, id := hid, queued := hqueued, broker := hbroker, retries := rfl
      idle := fun r run hrun => by simp [hruns] at hrun }, hrecipient⟩

/-- A channel that times out twice. -/
def recovering (n : Nat) : SendOutcome :=
  if n < 2 then .raised "TimeoutError()" else .returned delivered

theorem retry_chain_as_results_recovering :
    ∃ s task how t, System.Chain recovering System.firstTask s 2 task how t ∧
      ∃ row ∈ t.db.messages.rows, row.id = System.firstTask.message ∧ row.status = .sent := by
  obtain ⟨s, m, hready, -⟩ := ready_opened
  obtain ⟨⟨n, task, how, t, hchain, hstops⟩, hall⟩ :=
    (retry_chain_as_results hready recovering).mpr (by decide)
  obtain ⟨rfl, hresults⟩ := hall n task how t hchain hstops
  exact ⟨s, task, how, t, hchain, hready.id ▸ hresults.row⟩

/-- The first run meets a greeting without a code and aborts: the chain stops with no attempt,
no final status and no dead letter. -/
theorem retry_chain_lost :
    ∃ s m, System.Ready System.firstTask m s ∧
      ¬System.RunsAsResults (fun _ => (answering .connectError (-1)).send m) System.firstTask m
        s := by
  obtain ⟨s, m, hready, hrecipient⟩ := ready_opened
  refine ⟨s, m, hready, fun hruns => ?_⟩
  have hstorable := System.storable_of_runsAsResults hready hruns 0 (Nat.zero_le _)
  rw [not_storable_of_negative hrecipient] at hstorable
  contradiction

end Scenario

end NotifyRelay
