import NotifyRelay.Lifecycle

/-! What one step of the lifecycle can do to a row, a run, the broker, the dead
letters and the history. Invariants are proved from these and not from the steps. -/
namespace NotifyRelay

open Services Delivery Scheduler

theorem Delivery.mem_save {messages : MessageTable} {id : MessageId} {u : MessageUpdate}
    {m : Message} (h : m ∈ (save messages id u).rows) :
    m ∈ messages.rows ∧ m.id ≠ id ∨ ∃ old ∈ messages.rows, old.id = id ∧ m = u.apply old := by
  obtain ⟨old, hold, heq⟩ := (messages.mem_update).mp h
  split at heq
  next hid => exact .inr ⟨old, hold, by simpa using hid, heq.symm⟩
  next hid =>
    subst heq
    exact .inl ⟨hold, by simpa using hid⟩

theorem Scheduler.mem_release {messages : MessageTable} {batch : List Message} {now : Time}
    {m : Message} (h : m ∈ (release messages batch now).rows) :
    m ∈ messages.rows ∨
      ∃ old ∈ messages.rows, old.id ∈ batch.map Message.id ∧ m = (releaseUpdate now).apply old := by
  obtain ⟨old, hold, heq⟩ := (messages.mem_update).mp h
  split at heq
  next hid => exact .inr ⟨old, hold, by simpa using hid, heq.symm⟩
  next =>
    subst heq
    exact .inl hold

namespace Lifecycle

variable {v w : Lifecycle} {a : System.Action}

/-- How a row of the table after a step comes about. -/
inductive RowStep (v w : Lifecycle) : System.Action → Message → Prop
  | kept {a : System.Action} {m : Message} (hm : m ∈ v.messages.rows) : RowStep v w a m
  | inserted {c : Nat} {id : MessageId} {apiKey : Option ApiKeyId} {key : String}
      {data : MessageData} {version : TemplateVersion} {rendered : RenderedMessage}
      {context : JsonObject} {now : Time} {postgres : Postgres}
      (hfresh : System.freshMessage v.log id = true) (hnow : now ≤ v.clock)
      (hlog : Event.inserted c
        (newMessage id apiKey key data version rendered context now v.clock) ∈ w.log) :
      RowStep v w (.call c (.insert id postgres))
        (newMessage id apiKey key data version rendered context now v.clock)
  | released {b : Nat} {locked : List MessageId} {now : Time} {old : Message}
      (hold : old ∈ v.messages.rows) (hfilter : dispatchFilter now old = true)
      (hnow : now ≤ v.clock) :
      RowStep v w (.beat b (.select locked)) ((releaseUpdate now).apply old)
  | claimed {task : Task} {old : Message} (hbroker : task ∈ v.broker)
      (hold : old ∈ v.messages.rows) (hid : old.id = task.message)
      (hclaim : Delivery.claim old task.id = .claimed) :
      RowStep v w (.deliver task) ((claimUpdate task.id v.clock).apply old)
  | finished {r : Nat} {run : DeliveryRun} {result : ChannelResult} {accepted : Bool}
      {status : MessageStatus} {old : Message} (hrun : v.runs[r]? = some run)
      (hpc : run.pc = .recorded result) (hold : old ∈ v.messages.rows)
      (hid : old.id = run.message.id)
      (hverdict : verdict result run.task.retries = .sent ∧ status = .sent ∨
        ∃ reason, verdict result run.task.retries = .deadLetter status reason) :
      RowStep v w (.run r (.finish accepted)) ((statusUpdate status v.clock).apply old)

theorem terminal_of_verdict {result : ChannelResult} {retriesDone : Nat} {status : MessageStatus}
    (h : verdict result retriesDone = .sent ∧ status = .sent ∨
      ∃ reason, verdict result retriesDone = .deadLetter status reason) :
    status.terminal = true := by
  rcases h with ⟨_, rfl⟩ | ⟨reason, hreason⟩
  · rfl
  · rcases (verdict_deadLetter hreason).2 with rfl | rfl <;> rfl

theorem Step.row (h : Step v a w) {m : Message} (hm : m ∈ w.messages.rows) : RowStep v w a m := by
  cases h with
  | insert c id apiKey key data version rendered context now postgres messages hspent hfresh hnow
      hinsert =>
      rcases (v.messages.mem_insert hinsert).mp hm with hold | rfl
      · exact .kept hold
      · exact .inserted hfresh hnow List.mem_cons_self
  | release b now locked hspent hnow =>
      rcases mem_release hm with hold | ⟨old, hold, hid, rfl⟩
      · exact .kept hold
      · obtain ⟨member, hmember, hkey⟩ := List.mem_map.mp hid
        obtain ⟨hrow, hfilter⟩ := mem_dispatchBatch hmember
        rw [v.messages.eq_of_key hrow hold hkey] at hfilter
        exact .released hold hfilter hnow
  | claim task message hbroker hrow hclaim =>
      obtain ⟨hmessage, hkey⟩ := v.messages.find?_eq_some.mp hrow
      rcases mem_save hm with ⟨hold, _⟩ | ⟨old, hold, hid, rfl⟩
      · exact .kept hold
      · rw [v.messages.eq_of_key hold hmessage hid]
        exact .claimed hbroker hmessage hkey hclaim
  | sent r run result accepted hrun hpc hverdict =>
      rcases mem_save hm with ⟨hold, _⟩ | ⟨old, hold, hid, rfl⟩
      · exact .kept hold
      · exact .finished hrun hpc hold hid (.inl ⟨hverdict, rfl⟩)
  | bury r run result accepted status reason letters hrun hpc hverdict hrow hletters =>
      rcases mem_save hm with ⟨hold, _⟩ | ⟨old, hold, hid, rfl⟩
      · exact .kept hold
      · exact .finished hrun hpc hold hid (.inr ⟨reason, hverdict⟩)
  | delete k ids doomed hids hdoomed => exact .kept ((v.messages.mem_delete).mp hm).1
  | _ => exact .kept hm

/-- Only a clean-up job removes rows. -/
theorem Step.survives (h : Step v a w) {m : Message} (hm : m ∈ v.messages.rows) :
    (m.id ∈ v.doomed ∧ ∃ k, a = .cleanup k .delete) ∨ ∃ m' ∈ w.messages.rows, m'.id = m.id := by
  have hupdate : ∀ (p : Message → Bool) (u : MessageUpdate),
      ∃ m' ∈ (v.messages.update p u).rows, m'.id = m.id := by
    intro p u
    refine ⟨_, (v.messages.mem_update).mpr ⟨m, hm, rfl⟩, ?_⟩
    split
    · exact u.key_apply m
    · rfl
  cases h with
  | insert c id apiKey key data version rendered context now postgres messages hspent hfresh hnow
      hinsert =>
      exact .inr ⟨m, (v.messages.mem_insert hinsert).mpr (.inl hm), rfl⟩
  | release => exact .inr (hupdate _ _)
  | claim => exact .inr (hupdate _ _)
  | sent => exact .inr (hupdate _ _)
  | bury => exact .inr (hupdate _ _)
  | delete k ids doomed hids hdoomed =>
      by_cases hdeleted : m.id ∈ ids
      · exact .inl ⟨hids _ hdeleted, k, rfl⟩
      · exact .inr ⟨m, (v.messages.mem_delete).mpr ⟨hm, by simpa using hdeleted⟩, rfl⟩
  | _ => exact .inr ⟨m, hm, rfl⟩

/-- The order of the places in a run. -/
inductive PcStep : System.RunAction → DeliveryPc → DeliveryPc → Prop
  | sendStart (clock : Time) : PcStep .sendStart .claimed (.sending clock)
  | sendEnd (started clock : Time) (outcome : SendOutcome) :
      PcStep (.sendEnd outcome) (.sending started) (.sent started clock outcome.result)
  | count (started finished : Time) (result : ChannelResult) (attemptNo : Nat) :
      PcStep .count (.sent started finished result) (.counted started finished result attemptNo)
  | record (started finished : Time) (result : ChannelResult) (attemptNo : Nat) :
      PcStep .record (.counted started finished result attemptNo) (.recorded result)
  | finish (accepted : Bool) (result : ChannelResult) (how : DeliveryEnd) :
      PcStep (.finish accepted) (.recorded result) (.ended how)
  | abort (started finished : Time) (result : ChannelResult) (attemptNo : Nat) :
      PcStep .record (.counted started finished result attemptNo) (.ended .aborted)
  | crash (pc : DeliveryPc) (hlive : pc.live = true) : PcStep .crash pc (.ended .crashed)

theorem PcStep.live {action : System.RunAction} {pc next : DeliveryPc}
    (h : PcStep action pc next) : pc.live = true := by
  cases h with
  | crash pc hlive => exact hlive
  | _ => rfl

theorem live_of_recorded {run : DeliveryRun} {result : ChannelResult}
    (hpc : run.pc = .recorded result) : run.live = true := by
  simp [DeliveryRun.live, hpc, DeliveryPc.live]

theorem PcStep.ended_of_finish {accepted : Bool} {pc next : DeliveryPc}
    (h : PcStep (.finish accepted) pc next) : next.live = false := by
  cases h
  rfl

/-- The pool of runs after a step. -/
inductive RunsStep (v w : Lifecycle) : System.Action → List DeliveryRun → Prop
  | same {a : System.Action} (hother : ∀ r action, a ≠ .run r action) : RunsStep v w a v.runs
  | claimed {task : Task} {message : Message} (hbroker : task ∈ v.broker)
      (hrow : v.messages.find? task.message = some message)
      (hclaim : Delivery.claim message task.id = .claimed)
      (hsaved : (claimUpdate task.id v.clock).apply message ∈ w.messages.rows) :
      RunsStep v w (.deliver task)
        (Pool.spawn v.runs ⟨task, (claimUpdate task.id v.clock).apply message, .claimed⟩)
  | moved {r : Nat} {run : DeliveryRun} {action : System.RunAction} {pc : DeliveryPc}
      (hrun : v.runs[r]? = some run) (hpc : PcStep action run.pc pc) :
      RunsStep v w (.run r action) (v.runs.set r { run with pc := pc })

private theorem not_run_of_source {source : Source} (h : a.source = some source) (r : Nat)
    (action : System.RunAction) : a ≠ .run r action := by
  rintro rfl
  cases h

theorem Step.runs (h : Step v a w) : RunsStep v w a w.runs := by
  cases h with
  | claim task message hbroker hrow hclaim =>
      obtain ⟨hmessage, _⟩ := v.messages.find?_eq_some.mp hrow
      exact .claimed hbroker hrow hclaim ((v.messages.mem_update).mpr ⟨message, hmessage, by simp⟩)
  | sendStart r run hrun hpc => exact .moved hrun (hpc ▸ .sendStart _)
  | sendEnd r run started outcome hrun hpc => exact .moved hrun (hpc ▸ .sendEnd _ _ _)
  | count r run started finished result hrun hpc => exact .moved hrun (hpc ▸ .count _ _ _ _)
  | attempt r run started finished result attemptNo attempts hrun hpc =>
      exact .moved hrun (hpc ▸ .record _ _ _ _)
  | abort r run started finished result attemptNo hrun hpc =>
      exact .moved hrun (hpc ▸ .abort _ _ _ _)
  | orphan r run result accepted hrun hpc => exact .moved hrun (hpc ▸ .finish _ _ _)
  | sent r run result accepted hrun hpc => exact .moved hrun (hpc ▸ .finish _ _ _)
  | bury r run result accepted status reason letters hrun hpc =>
      exact .moved hrun (hpc ▸ .finish _ _ _)
  | retry r run result text accepted hrun hpc => exact .moved hrun (hpc ▸ .finish _ _ _)
  | crash r run hrun hlive => exact .moved hrun (.crash _ hlive)
  | settle _ source hsource => exact .same (not_run_of_source hsource)
  | refuse _ source id hsource => exact .same (not_run_of_source hsource)
  | publish _ source message stamp rest id hsource => exact .same (not_run_of_source hsource)
  | _ => exact .same (by simp)

/-- How one run of the pool comes about. -/
inductive RunStep (v w : Lifecycle) : System.Action → Nat → DeliveryRun → Prop
  | kept {a : System.Action} {r : Nat} {run : DeliveryRun} (hrun : v.runs[r]? = some run)
      (hother : ∀ action, a ≠ .run r action) : RunStep v w a r run
  | claimed {task : Task} {message : Message} (hbroker : task ∈ v.broker)
      (hrow : v.messages.find? task.message = some message)
      (hclaim : Delivery.claim message task.id = .claimed)
      (hsaved : (claimUpdate task.id v.clock).apply message ∈ w.messages.rows) :
      RunStep v w (.deliver task) (Pool.next v.runs)
        ⟨task, (claimUpdate task.id v.clock).apply message, .claimed⟩
  | moved {r : Nat} {run : DeliveryRun} {action : System.RunAction} {pc : DeliveryPc}
      (hrun : v.runs[r]? = some run) (hpc : PcStep action run.pc pc) :
      RunStep v w (.run r action) r { run with pc := pc }

theorem Step.run (h : Step v a w) {i : Nat} {other : DeliveryRun}
    (hother : w.runs[i]? = some other) : RunStep v w a i other := by
  generalize hruns : w.runs = runs at hother
  have hstep := h.runs
  rw [hruns] at hstep
  cases hstep with
  | same hquiet => exact .kept hother (hquiet i)
  | claimed hbroker hrow hclaim hsaved =>
      rw [Pool.get_spawn] at hother
      split at hother
      next heq =>
        cases hother
        subst heq
        exact .claimed hbroker hrow hclaim hsaved
      next => exact .kept hother (by simp)
  | moved hrun hpc =>
      rw [Pool.get_set hrun] at hother
      split at hother
      next heq =>
        cases hother
        subst heq
        exact .moved hrun hpc
      next hne => exact .kept hother fun _ heq => hne (System.Action.run.inj heq).1.symm

/-- A run moves by its own steps only. -/
theorem Step.run_survives (h : Step v a w) {r : Nat} {run : DeliveryRun}
    (hrun : v.runs[r]? = some run) :
    w.runs[r]? = some run ∨ ∃ action pc, a = .run r action ∧ PcStep action run.pc pc := by
  generalize hruns : w.runs = runs
  have hstep := h.runs
  rw [hruns] at hstep
  cases hstep with
  | same => exact .inl hrun
  | claimed => exact .inl (Pool.get_spawn_of_some hrun _)
  | moved hother hpc =>
      rw [Pool.get_set hother]
      split
      next heq =>
        subst heq
        cases Option.some.inj (hother.symm.trans hrun)
        exact .inr ⟨_, _, rfl, hpc⟩
      next => exact .inl hrun

theorem Step.clock_le (h : Step v a w) : v.clock ≤ w.clock := by
  cases h with
  | tick elapsed => exact Int.le_add_of_nonneg_right (Int.natCast_nonneg _)
  | _ => exact Int.le_refl _

theorem Step.log_subset (h : Step v a w) : v.log ⊆ w.log := by
  cases h with
  | retry r run result text accepted hrun hpc hverdict =>
      cases accepted
      · exact List.Subset.refl _
      · exact List.subset_cons_self _ _
  | refuse => exact List.subset_append_right _ _
  | insert => exact List.subset_append_right _ _
  | release => exact List.subset_append_right _ _
  | publish => exact List.subset_append_right _ _
  | decline => exact List.subset_append_right _ _
  | sendStart => exact List.subset_append_right _ _
  | _ => exact List.Subset.refl _

/-- What a source is about to publish was written to the row it belongs to. -/
theorem Step.pending (h : Step v a w) {source : Source} {entry : MessageId × Time}
    (hentry : entry ∈ w.pending source) :
    entry ∈ v.pending source ∨
      ∃ m ∈ w.messages.rows, m.id = entry.1 ∧ m.enqueuedAt = some entry.2 := by
  have hsettled : ∀ {other : Source} {rest : List (MessageId × Time)},
      entry ∈ (v.settled other rest).pending source → entry ∈ v.pending source ∨ entry ∈ rest := by
    intro other rest hmem
    rw [pending_settled] at hmem
    split at hmem
    · exact .inr hmem
    · exact .inl hmem
  cases h with
  | settle => exact .inl ((hsettled hentry).resolve_right List.not_mem_nil)
  | refuse => exact .inl ((hsettled hentry).resolve_right List.not_mem_nil)
  | insert c id apiKey key data version rendered context now postgres messages hspent hfresh hnow
      hinsert =>
      refine (hsettled hentry).imp_right fun hnew => ?_
      split at hnew
      next hsend =>
        rw [List.mem_singleton.mp hnew]
        exact ⟨_, (v.messages.mem_insert hinsert).mpr (.inr rfl), rfl, if_pos hsend⟩
      next => contradiction
  | release b now locked hspent hnow =>
      refine (hsettled hentry).imp_right fun hnew => ?_
      obtain ⟨m, hm, rfl⟩ := List.mem_map.mp hnew
      refine ⟨_, (v.messages.mem_update).mpr ⟨m, (mem_dispatchBatch hm).1, rfl⟩, ?_⟩
      rw [if_pos (by simpa using ⟨m, hm, rfl⟩)]
      exact ⟨rfl, rfl⟩
  | publish _ other message stamp rest id hsource hpending hfresh =>
      have hmem : entry ∈ (v.settled other rest).pending source := hentry
      rw [pending_settled] at hmem
      split at hmem
      next heq =>
        subst heq
        exact .inl (hpending ▸ List.mem_cons_of_mem _ hmem)
      next => exact .inl hmem
  | _ => exact .inl hentry

theorem Step.broker (h : Step v a w) {task : Task} (htask : task ∈ w.broker) :
    task ∈ v.broker ∨ (∃ source stamp, (task.message, stamp) ∈ v.pending source) ∨
      ∃ (r : Nat) (run : DeliveryRun), v.runs[r]? = some run ∧ task = retryOf run.task := by
  cases h with
  | publish _ source message stamp rest id hsource hpending hfresh =>
      rcases List.mem_cons.mp htask with rfl | hold
      · exact .inr (.inl ⟨source, stamp, hpending ▸ List.mem_cons_self⟩)
      · exact .inl hold
  | retry r run result text accepted hrun hpc hverdict =>
      cases accepted
      · exact .inl htask
      · rcases List.mem_cons.mp htask with rfl | hold
        · exact .inr (.inr ⟨r, run, hrun, rfl⟩)
        · exact .inl hold
  | forget => exact .inl (List.mem_of_mem_erase htask)
  | _ => exact .inl htask

theorem Step.letter (h : Step v a w) {letter : DeadLetter} (hletter : letter ∈ w.deadLetters.rows) :
    letter ∈ v.deadLetters.rows ∨
      ∃ (r : Nat) (run : DeliveryRun) (status : MessageStatus),
        v.runs[r]? = some run ∧ run.live = true ∧ (status = .failed ∨ status = .dead) ∧
        w.messages = save v.messages run.message.id (statusUpdate status v.clock) ∧
        letter.message = run.message.id ∧ letter.payloadSnapshot = snapshot run.message := by
  cases h with
  | bury r run result accepted status reason letters hrun hpc hverdict hrow hletters =>
      refine (hletters letter hletter).imp_right fun hnew => ?_
      subst hnew
      exact ⟨r, run, status, hrun, live_of_recorded hpc,
        (verdict_deadLetter hverdict).2, rfl, rfl, rfl⟩
  | delete k ids doomed hids hdoomed =>
      exact .inl ((v.deadLetters.mem_delete).mp hletter).1
  | _ => exact .inl hletter

theorem Step.attempt_row (h : Step v a w) {entry : DeliveryAttempt}
    (hentry : entry ∈ w.attempts.rows) :
    entry ∈ v.attempts.rows ∨
      ∃ (r : Nat) (run : DeliveryRun) (started finished : Time) (result : ChannelResult)
        (attemptNo : Nat), a = .run r .record ∧ v.runs[r]? = some run ∧
        run.pc = .counted started finished result attemptNo ∧
        entry = newAttempt run.message.id attemptNo started finished result ∧
        w.runs[r]? = some { run with pc := .recorded result } := by
  cases h with
  | attempt r run started finished result attemptNo attempts hrun hpc hrow hchecks hinsert =>
      refine ((v.attempts.mem_insert hinsert).mp hentry).imp_right fun hnew => ?_
      refine ⟨r, run, started, finished, result, attemptNo, rfl, hrun, hpc, hnew, ?_⟩
      exact Pool.get_set_self hrun _
  | delete k ids doomed hids hdoomed => exact .inl ((v.attempts.mem_delete).mp hentry).1
  | _ => exact .inl hentry

/-- The attempts after a step. -/
inductive AttemptsStep (v w : Lifecycle) : System.Action → AttemptTable → Prop
  | same {a : System.Action} : AttemptsStep v w a v.attempts
  | inserted {r : Nat} {run : DeliveryRun} {started finished : Time} {result : ChannelResult}
      {attemptNo : Nat} {attempts : AttemptTable} (hrun : v.runs[r]? = some run)
      (hpc : run.pc = .counted started finished result attemptNo)
      (hrow : (v.messages.find? run.message.id).isSome)
      (hinsert : v.attempts.insert?
        (newAttempt run.message.id attemptNo started finished result) = some attempts) :
      AttemptsStep v w (.run r .record) attempts
  | deleted {k : Nat} {ids : List MessageId} (hgone : ∀ m ∈ w.messages.rows, m.id ∉ ids) :
      AttemptsStep v w (.cleanup k .delete) (v.attempts.delete fun a => ids.contains a.message)

theorem Step.attempts (h : Step v a w) : AttemptsStep v w a w.attempts := by
  cases h with
  | attempt r run started finished result attemptNo attempts hrun hpc hrow hchecks hinsert =>
      exact .inserted hrun hpc hrow hinsert
  | delete k ids doomed hids hdoomed =>
      refine .deleted fun m hm hid => ?_
      have hkept := ((v.messages.mem_delete).mp hm).2
      simp [hid] at hkept
  | _ => exact .same

/-- The number a run writes down is one more than the attempts it counted. -/
theorem Step.counted {r : Nat} (h : Step v (.run r .count) w) {run : DeliveryRun}
    {started finished : Time} {result : ChannelResult} {attemptNo : Nat}
    (hrun : w.runs[r]? = some run) (hpc : run.pc = .counted started finished result attemptNo) :
    attemptNo = nextAttemptNo v.attempts run.message.id ∧ w.attempts = v.attempts := by
  cases h with
  | settle _ source hsource => cases hsource
  | refuse _ source id hsource => cases hsource
  | publish _ source message stamp rest id hsource => cases hsource
  | count r old started' finished' result' hold hpc' =>
      have hset := (Pool.get_set hold _ r).symm.trans hrun
      rw [if_pos rfl] at hset
      cases hset
      cases hpc
      exact ⟨rfl, rfl⟩

theorem Step.doomed (h : Step v a w) {id : MessageId} (hid : id ∈ w.doomed) :
    id ∈ v.doomed ∨ w.messages = v.messages ∧
      ∃ m ∈ v.messages.rows, m.id = id ∧ m.status.terminal = true := by
  cases h with
  | doom k action doomed hdoomed => exact (hdoomed id hid).imp_right fun hnew => ⟨rfl, hnew⟩
  | delete k ids doomed hids hdoomed => exact .inl (hdoomed id hid)
  | _ => exact .inl hid

/-- What a step adds to the history. -/
inductive NewEvent (v w : Lifecycle) : Event → Prop
  | inserted {c : Nat} {row : Message} (hspent : v.spent (.call c) = false)
      (hfresh : System.freshMessage v.log row.id = true) (hrow : row ∈ w.messages.rows)
      (hlog : w.log = .inserted c row :: v.log) :
      NewEvent v w (.inserted c row)
  | released {b : Nat} {m : Message} {now : Time} (hspent : v.spent (.beat b) = false)
      (hm : m ∈ v.messages.rows) (hfilter : dispatchFilter now m = true) (hnow : now ≤ v.clock) :
      NewEvent v w (.released b m.id now)
  | published {source : Source} {task : Task} {stamp : Time}
      (hpending : (task.message, stamp) ∈ v.pending source) (hbroker : task ∈ w.broker) :
      NewEvent v w (.published source task stamp v.clock)
  | refused {source : Source} {id : MessageId} : NewEvent v w (.refused source id)
  | retried {r : Nat} {run : DeliveryRun} (hrun : v.runs[r]? = some run)
      (hbroker : retryOf run.task ∈ w.broker) :
      NewEvent v w (.retried r (retryOf run.task) v.clock)
  | declined {task : Task} {outcome : Declined} : NewEvent v w (.declined task outcome)
  | sendInvoked {r : Nat} {run : DeliveryRun} (hrun : v.runs[r]? = some run)
      (hpc : run.pc = .claimed) : NewEvent v w (.sendInvoked r run.message v.clock)

theorem Step.event (h : Step v a w) {event : Event} (hevent : event ∈ w.log) :
    event ∈ v.log ∨ NewEvent v w event := by
  have hrecord : ∀ {one : Event}, event ∈ [one] ++ v.log → NewEvent v w one →
      event ∈ v.log ∨ NewEvent v w event := by
    intro one hmem hnew
    rcases List.mem_cons.mp hmem with rfl | hold
    · exact .inr hnew
    · exact .inl hold
  cases h with
  | refuse => exact hrecord hevent .refused
  | decline => exact hrecord hevent .declined
  | insert c id apiKey key data version rendered context now postgres messages hspent hfresh hnow
      hinsert =>
      exact hrecord hevent (.inserted hspent hfresh
        ((v.messages.mem_insert hinsert).mpr (.inr rfl)) rfl)
  | release b now locked hspent hnow =>
      rcases List.mem_append.mp hevent with hnew | hold
      · obtain ⟨m, hm, rfl⟩ := List.mem_map.mp hnew
        obtain ⟨hrow, hfilter⟩ := mem_dispatchBatch hm
        exact .inr (.released hspent hrow hfilter hnow)
      · exact .inl hold
  | publish _ source message stamp rest id hsource hpending hfresh =>
      exact hrecord hevent (.published (hpending ▸ List.mem_cons_self) List.mem_cons_self)
  | sendStart r run hrun hpc => exact hrecord hevent (.sendInvoked hrun hpc)
  | retry r run result text accepted hrun hpc hverdict =>
      cases accepted
      · exact .inl hevent
      · exact hrecord hevent (.retried hrun List.mem_cons_self)
  | _ => exact .inl hevent

end Lifecycle
end NotifyRelay
