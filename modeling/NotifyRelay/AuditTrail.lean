import NotifyRelay.Acceptance
import NotifyRelay.Retention

/-! What the attempts and dead letters of a message say about its status. Attempt, status and
dead letter are written by different transactions, and any number of runs may write them. -/
namespace NotifyRelay

open Services Delivery Scheduler

/-- How many attempts of a message have this result. -/
def tally (attempts : AttemptTable) (id : MessageId) (result : AttemptResult) : Nat :=
  attempts.rows.countP fun a => a.message == id && a.result == result

/-- The attempts without which a message does not get this status. -/
def MessageStatus.evidence : MessageStatus → Option (AttemptResult × Nat)
  | .sent => some (.success, 1)
  | .failed => some (.permanentError, 1)
  | .dead => some (.transientError, maxRetries + 1)
  | .queued | .sending => none

/-- What `_dispatch` makes of an attempt that is the last one. -/
def DeliveryAttempt.reason (attempt : DeliveryAttempt) : Option String :=
  match attempt.result with
  | .success => none
  | .transientError => some ("exhausted: " ++ attempt.errorMessage)
  | .permanentError => some ("permanent: " ++ attempt.errorMessage)

/-- The transient failures behind a run: one for each retry, and its own once it is recorded. -/
def DeliveryRun.transients (run : DeliveryRun) : Nat :=
  run.task.retries +
    match run.pc with
    | .recorded result => if mapResult result = .transientError then 1 else 0
    | _ => 0

theorem tally_insert {attempts attempts' : AttemptTable} {attempt : DeliveryAttempt}
    (h : attempts.insert? attempt = some attempts') (id : MessageId) (result : AttemptResult) :
    tally attempts' id result =
      tally attempts id result +
        if attempt.message = id ∧ attempt.result = result then 1 else 0 := by
  unfold tally
  rw [((attempts.insert?_eq_some).mp h).2, List.countP_append, List.countP_singleton]
  simp

theorem tally_delete (attempts : AttemptTable) {ids : List MessageId} {id : MessageId}
    (h : id ∉ ids) (result : AttemptResult) :
    tally (attempts.delete fun a => ids.contains a.message) id result =
      tally attempts id result := by
  unfold tally Table.delete
  rw [List.countP_filter]
  refine List.countP_congr fun a _ => ?_
  by_cases hmessage : a.message = id <;> simp [hmessage, h]

theorem tally_pos {attempts : AttemptTable} {id : MessageId} {result : AttemptResult} :
    1 ≤ tally attempts id result ↔
      ∃ attempt ∈ attempts.rows, attempt.message = id ∧ attempt.result = result := by
  unfold tally
  rw [Nat.one_le_iff_ne_zero, ← Nat.pos_iff_ne_zero, List.countP_pos_iff]
  simp

/-- The verdict is about the attempt that has just been recorded. -/
theorem Delivery.verdict_evidence {result : ChannelResult} {retriesDone : Nat}
    {status : MessageStatus}
    (h : verdict result retriesDone = .sent ∧ status = .sent ∨
      ∃ reason, verdict result retriesDone = .deadLetter status reason) :
    status.evidence = some (mapResult result,
      if mapResult result = .transientError then maxRetries + 1 else 1) ∧
    (mapResult result = .transientError → maxRetries ≤ retriesDone) := by
  unfold verdict mapResult at *
  rcases h with ⟨h, rfl⟩ | ⟨reason, h⟩
  · repeat' split at h
    all_goals simp_all [MessageStatus.evidence]
  · repeat' split at h
    all_goals simp_all
    all_goals obtain ⟨rfl, _⟩ := h; simp_all [MessageStatus.evidence]

theorem Delivery.verdict_reason {result : ChannelResult} {retriesDone : Nat}
    {status : MessageStatus} {reason : String}
    (h : verdict result retriesDone = .deadLetter status reason) (message : MessageId)
    (attemptNo : Nat) (started finished : Time) :
    (newAttempt message attemptNo started finished result).reason = some reason := by
  unfold verdict at h
  unfold DeliveryAttempt.reason newAttempt mapResult
  repeat' split at h
  all_goals simp_all

theorem Delivery.mapResult_of_transientError {result : ChannelResult} {retriesDone : Nat}
    {text : String} (h : verdict result retriesDone = .transientError text) :
    mapResult result = .transientError := by
  unfold verdict at h
  unfold mapResult
  repeat' split at h
  all_goals simp_all

namespace Lifecycle

/-- The message is in its table. -/
def Stored (v : Lifecycle) (id : MessageId) : Prop := ∃ m ∈ v.messages.rows, m.id = id

/-- The foreign keys of attempts and dead letters. -/
structure Referential (v : Lifecycle) : Prop where
  attempts : ∀ attempt ∈ v.attempts.rows, Stored v attempt.message
  letters : ∀ letter ∈ v.deadLetters.rows, Stored v letter.message

/-- A recorded attempt with this outcome. -/
def Attested (v : Lifecycle) (id : MessageId) (result : ChannelResult) : Prop :=
  ∃ attemptNo started finished, newAttempt id attemptNo started finished result ∈ v.attempts.rows

structure Trail (v : Lifecycle) : Prop where
  broker : ∀ task ∈ v.broker, Stored v task.message →
    task.retries ≤ tally v.attempts task.message .transientError
  runs : ∀ (r : Nat) (run : DeliveryRun), v.runs[r]? = some run → Stored v run.message.id →
    run.transients ≤ tally v.attempts run.message.id .transientError
  recorded : ∀ (r : Nat) (run : DeliveryRun) (result : ChannelResult), v.runs[r]? = some run →
    run.pc = .recorded result → Stored v run.message.id → Attested v run.message.id result
  rows : ∀ m ∈ v.messages.rows, ∀ need ∈ m.status.evidence,
    need.2 ≤ tally v.attempts m.id need.1
  letters : ∀ letter ∈ v.deadLetters.rows, Stored v letter.message →
    ∃ attempt ∈ v.attempts.rows, attempt.message = letter.message ∧
      attempt.reason = some letter.reason

variable {v w : Lifecycle} {a : System.Action}

theorem stored_of_find {id : MessageId} (h : (v.messages.find? id).isSome) : Stored v id := by
  obtain ⟨m, hm⟩ := Option.isSome_iff_exists.mp h
  exact ⟨m, v.messages.find?_eq_some.mp hm⟩

/-- A message on record that is there was there before. -/
theorem Step.stored_old (h : Step v a w) {id : MessageId} (hknown : Known v.log id)
    (hstored : Stored w id) : Stored v id := by
  obtain ⟨m, hm, rfl⟩ := hstored
  exact h.old_row hm hknown

/-- A new dead letter has the reason its run gave. -/
theorem Step.letter_reason (h : Step v a w) {letter : DeadLetter}
    (hletter : letter ∈ w.deadLetters.rows) :
    letter ∈ v.deadLetters.rows ∨
      ∃ (r : Nat) (run : DeliveryRun) (result : ChannelResult) (status : MessageStatus),
        v.runs[r]? = some run ∧ run.pc = .recorded result ∧
        verdict result run.task.retries = .deadLetter status letter.reason ∧
        letter.message = run.message.id ∧ Stored v run.message.id ∧
        ∃ accepted, a = .run r (.finish accepted) := by
  cases h with
  | bury r run result accepted status reason letters hrun hpc hverdict hrow hletters =>
      refine (hletters letter hletter).imp_right fun hnew => ?_
      subst hnew
      exact ⟨r, run, result, status, hrun, hpc, hverdict, rfl, stored_of_find hrow, accepted, rfl⟩
  | delete k ids doomed hids hdoomed =>
      exact .inl ((v.deadLetters.mem_delete).mp hletter).1
  | _ => exact .inl hletter

theorem Step.retries (h : Step v a w) {task : Task} (htask : task ∈ w.broker) :
    task ∈ v.broker ∨ task.retries = 0 ∨
      ∃ (r : Nat) (run : DeliveryRun) (result : ChannelResult) (text : String),
        v.runs[r]? = some run ∧ run.pc = .recorded result ∧
        verdict result run.task.retries = .transientError text ∧ task = retryOf run.task := by
  cases h with
  | publish _ source message stamp rest id hsource hpending hfresh =>
      rcases List.mem_cons.mp htask with rfl | hold
      · exact .inr (.inl rfl)
      · exact .inl hold
  | retry r run result text accepted hrun hpc hverdict =>
      cases accepted
      · exact .inl htask
      · rcases List.mem_cons.mp htask with rfl | hold
        · exact .inr (.inr ⟨r, run, result, text, hrun, hpc, hverdict, rfl⟩)
        · exact .inl hold
  | forget => exact .inl (List.mem_of_mem_erase htask)
  | _ => exact .inl htask

/-- A run that gets past its record has inserted its attempt. -/
theorem Step.recorded {r : Nat} (h : Step v (.run r .record) w) {run : DeliveryRun}
    {result : ChannelResult} (hrun : w.runs[r]? = some run) (hpc : run.pc = .recorded result) :
    ∃ (old : DeliveryRun) (started finished : Time) (attemptNo : Nat),
      v.runs[r]? = some old ∧ old.task = run.task ∧ old.message = run.message ∧
      old.pc = .counted started finished result attemptNo ∧ Stored v run.message.id ∧
      v.attempts.insert? (newAttempt run.message.id attemptNo started finished result) =
        some w.attempts := by
  cases h with
  | settle _ source hsource => cases hsource
  | refuse _ source id hsource => cases hsource
  | publish _ source message stamp rest id hsource => cases hsource
  | attempt r old started finished result' attemptNo attempts hold hpc' hrow hchecks hinsert =>
      cases (Pool.get_set_self hold _).symm.trans hrun
      cases hpc
      exact ⟨old, started, finished, attemptNo, hold, rfl, rfl, hpc', stored_of_find hrow, hinsert⟩
  | abort r old started finished result' attemptNo hold hpc' =>
      cases (Pool.get_set_self hold _).symm.trans hrun
      cases hpc

/-- The attempts of a message that is there are only ever added to. -/
theorem Step.tally_le (h : Step v a w) {id : MessageId} (hstored : Stored w id)
    (result : AttemptResult) : tally v.attempts id result ≤ tally w.attempts id result := by
  obtain ⟨m, hm, rfl⟩ := hstored
  generalize hattempts : w.attempts = attempts
  have hstep := h.attempts
  rw [hattempts] at hstep
  cases hstep with
  | same => exact Nat.le_refl _
  | inserted _ _ _ hinsert =>
      rw [tally_insert hinsert]
      exact Nat.le_add_right _ _
  | deleted hgone => exact Nat.le_of_eq (tally_delete _ (hgone m hm) result).symm

theorem Step.attempt_kept (h : Step v a w) {attempt : DeliveryAttempt}
    (hattempt : attempt ∈ v.attempts.rows) (hstored : Stored w attempt.message) :
    attempt ∈ w.attempts.rows := by
  obtain ⟨m, hm, hid⟩ := hstored
  generalize hattempts : w.attempts = attempts
  have hstep := h.attempts
  rw [hattempts] at hstep
  cases hstep with
  | same => exact hattempt
  | inserted _ _ _ hinsert => exact (v.attempts.mem_insert hinsert).mpr (.inl hattempt)
  | deleted hgone =>
      refine (v.attempts.mem_delete).mpr ⟨hattempt, ?_⟩
      simpa using hid ▸ hgone m hm

/-- A message goes together with its attempts and dead letters. -/
theorem Step.stored (h : Step v a w) {id : MessageId} (hstored : Stored v id) :
    Stored w id ∨ ∃ (k : Nat) (ids : List MessageId), a = .cleanup k .delete ∧ id ∈ ids ∧
      w.attempts = v.attempts.delete (fun a => ids.contains a.message) ∧
      w.deadLetters = v.deadLetters.delete (fun l => ids.contains l.message) := by
  obtain ⟨m, hm, rfl⟩ := hstored
  rcases h.survives hm with ⟨-, k, rfl⟩ | hkept
  · cases h with
    | settle _ source hsource => cases hsource
    | refuse _ source id hsource => cases hsource
    | publish _ source message stamp rest id hsource => cases hsource
    | doom => exact .inl ⟨m, hm, rfl⟩
    | delete k ids doomed hids hdoomed =>
        by_cases hid : m.id ∈ ids
        · exact .inr ⟨k, ids, rfl, hid, rfl, rfl⟩
        · exact .inl ⟨m, (v.messages.mem_delete).mpr ⟨hm, by simpa using hid⟩, rfl⟩
  · exact .inl hkept

theorem referential_init (clock : Time) : Referential (init clock) := by
  constructor <;> simp [init, Table.empty]

theorem Referential.step (h : Referential v) (hstep : Step v a w) : Referential w := by
  constructor
  case attempts =>
    intro attempt hattempt
    rcases hstep.attempt_row hattempt with
      hold | ⟨r, run, started, finished, result, attemptNo, rfl, -, -, rfl, hafter⟩
    · rcases hstep.stored (h.attempts attempt hold) with hkept | ⟨k, ids, -, hid, hdelete, -⟩
      · exact hkept
      · rw [hdelete] at hattempt
        have hgone := ((v.attempts.mem_delete).mp hattempt).2
        simp [hid] at hgone
    · obtain ⟨_, _, _, _, _, -, -, -, hrow, -⟩ := hstep.recorded hafter rfl
      exact (hstep.stored hrow).resolve_right fun ⟨_, _, heq, _⟩ => by cases heq
  case letters =>
    intro letter hletter
    rcases hstep.letter_reason hletter with hold | ⟨r, run, result, status, -, -, -, hid, hrow, ha⟩
    · rcases hstep.stored (h.letters letter hold) with hkept | ⟨k, ids, -, hid, -, hdelete⟩
      · exact hkept
      · rw [hdelete] at hletter
        have hgone := ((v.deadLetters.mem_delete).mp hletter).2
        simp [hid] at hgone
    · rw [hid]
      exact (hstep.stored hrow).resolve_right fun ⟨_, _, heq, _⟩ => by
        obtain ⟨accepted, ha⟩ := ha
        cases ha.symm.trans heq

theorem trail_init (clock : Time) : Trail (init clock) := by
  constructor <;> simp [init, Table.empty]

/-- What a run knows of the attempts once it has recorded its own. -/
theorem Trail.transients_step (h : Trail v) (hhistory : History v) (hstep : Step v a w) {r : Nat}
    {run : DeliveryRun} (hrun : w.runs[r]? = some run) (hstored : Stored w run.message.id) :
    run.transients ≤ tally w.attempts run.message.id .transientError ∧
      ∀ result, run.pc = .recorded result → Attested w run.message.id result := by
  have hgrow := hstep.tally_le hstored .transientError
  have hold : ∀ {old : DeliveryRun}, v.runs[r]? = some old → old.message = run.message →
      Stored v run.message.id := fun hmem hmessage =>
    hstep.stored_old (hmessage ▸ hhistory.known_run hmem) hstored
  cases hstep.run hrun with
  | kept hmem =>
      have hbefore := hold hmem rfl
      refine ⟨Nat.le_trans (h.runs r run hmem hbefore) hgrow, fun result hpc => ?_⟩
      obtain ⟨attemptNo, started, finished, hattempt⟩ := h.recorded r run result hmem hpc hbefore
      exact ⟨attemptNo, started, finished, hstep.attempt_kept hattempt hstored⟩
  | @claimed task message hbroker hrow _ _ =>
      obtain ⟨hm, hid⟩ := v.messages.find?_eq_some.mp hrow
      have hretries := h.broker task hbroker ⟨message, hm, hid⟩
      rw [← hid] at hretries
      exact ⟨Nat.le_trans hretries hgrow, fun _ hpc => by cases hpc⟩
  | @moved r old action pc hmem hpc =>
      have hbefore := h.runs r old hmem (hold hmem rfl)
      have hretries : old.task.retries ≤
          tally v.attempts old.message.id .transientError :=
        Nat.le_trans (Nat.le_add_right _ _) hbefore
      generalize old.pc = place at hpc
      cases hpc with
      | record started finished result attemptNo =>
          obtain ⟨_, started, finished, attemptNo, -, -, -, -, -, hinsert⟩ :=
            hstep.recorded hrun rfl
          refine ⟨?_, fun result' hresult => ?_⟩
          · rw [tally_insert hinsert]
            exact Nat.add_le_add hretries (by simp [newAttempt])
          · cases hresult
            exact ⟨attemptNo, started, finished, (v.attempts.mem_insert hinsert).mpr (.inr rfl)⟩
      | _ => exact ⟨Nat.le_trans hretries hgrow, fun _ hpc => by cases hpc⟩

theorem Trail.step (h : Trail v) (hreferential : Referential v) (hhistory : History v)
    (hstep : Step v a w) : Trail w := by
  have hgrow : ∀ {id : MessageId} {n : Nat} {result : AttemptResult},
      n ≤ tally v.attempts id result → Stored w id → n ≤ tally w.attempts id result :=
    fun hle hstored => Nat.le_trans hle (hstep.tally_le hstored _)
  constructor
  case broker =>
    intro task htask hstored
    rcases hstep.retries htask with hold | hzero | ⟨r, run, result, text, hrun, hpc, hverdict, rfl⟩
    · have hbefore := hstep.stored_old (hhistory.broker task hold) hstored
      exact hgrow (h.broker task hold hbefore) hstored
    · exact hzero ▸ Nat.zero_le _
    · -- the retry counts the failure that its run has recorded
      have hmessage := (hhistory.runs r run hrun).1
      have hbefore := h.runs r run hrun (hstep.stored_old (hhistory.known_run hrun)
        (hmessage ▸ hstored))
      rw [DeliveryRun.transients, hpc, ← hmessage] at hbefore
      dsimp only at hbefore
      rw [if_pos (mapResult_of_transientError hverdict)] at hbefore
      exact hgrow hbefore hstored
  case runs => exact fun r run hrun hstored => (h.transients_step hhistory hstep hrun hstored).1
  case recorded =>
    exact fun r run result hrun hpc hstored =>
      (h.transients_step hhistory hstep hrun hstored).2 result hpc
  case rows =>
    intro m hm need hneed
    cases hstep.row hm with
    | kept hold => exact hgrow (h.rows m hold need hneed) ⟨m, hm, rfl⟩
    | @finished r run result _ status old hrun hpc hold hid hverdict =>
        obtain ⟨hevidence, hexhausted⟩ := verdict_evidence hverdict
        have hstored : Stored v run.message.id := ⟨old, hold, hid⟩
        have hbefore := h.runs r run hrun hstored
        obtain ⟨attemptNo, started, finished, hattempt⟩ := h.recorded r run result hrun hpc hstored
        cases hevidence.symm.trans hneed
        refine hgrow ?_ ⟨_, hm, rfl⟩
        dsimp only [statusUpdate_apply]
        rw [hid]
        split
        next htransient =>
          rw [DeliveryRun.transients, hpc] at hbefore
          dsimp only at hbefore
          rw [if_pos htransient] at hbefore
          rw [htransient]
          exact Nat.le_trans (Nat.add_le_add_right (hexhausted htransient) 1) hbefore
        next => exact tally_pos.mpr ⟨_, hattempt, rfl, rfl⟩
    | _ => cases hneed
  case letters =>
    intro letter hletter hstored
    rcases hstep.letter_reason hletter with
      hold | ⟨r, run, result, status, hrun, hpc, hverdict, hid, hrow, -⟩
    · obtain ⟨attempt, hattempt, hmessage, hreason⟩ :=
        h.letters letter hold (hreferential.letters letter hold)
      exact ⟨attempt, hstep.attempt_kept hattempt (hmessage ▸ hstored), hmessage, hreason⟩
    · obtain ⟨attemptNo, started, finished, hattempt⟩ := h.recorded r run result hrun hpc hrow
      exact ⟨_, hstep.attempt_kept hattempt (hid ▸ hstored), hid.symm,
        verdict_reason hverdict run.message.id attemptNo started finished⟩

end Lifecycle

/-- The statuses that come with a dead letter. -/
def MessageStatus.buried : MessageStatus → Bool
  | .failed | .dead => true
  | .queued | .sending | .sent => false

/-- Every message that failed or is dead has a dead letter. -/
def Database.Lettered (db : Database) : Prop :=
  ∀ m ∈ db.messages.rows, m.status.buried = true →
    ∃ letter ∈ db.deadLetters.rows, letter.message = m.id

theorem Database.Lettered.of_kept {db db' : Database} (h : db.Lettered)
    (hletters : db'.deadLetters = db.deadLetters)
    (hrows : ∀ m ∈ db'.messages.rows, m.status.buried = true → m ∈ db.messages.rows) :
    db'.Lettered :=
  fun m hm hburied => hletters ▸ h m (hrows m hm hburied) hburied

theorem Database.Lettered.save {db : Database} (h : db.Lettered) (id : MessageId)
    (u : MessageUpdate) (hu : ∀ m, (u.apply m).status.buried = false) :
    Database.Lettered { db with messages := Delivery.save db.messages id u } := by
  refine h.of_kept rfl fun m hm hburied => ?_
  rcases mem_save hm with ⟨hold, -⟩ | ⟨old, -, -, rfl⟩
  · exact hold
  · rw [hu] at hburied
    contradiction

/-- The status and the dead letter are one transaction. -/
theorem Database.Lettered.moveToDeadLetter {db db' : Database} (h : db.Lettered)
    {message : Message} {status : MessageStatus} {reason : String} {now : Time}
    (hmove : Delivery.moveToDeadLetter db message status reason now = some db') : db'.Lettered := by
  unfold Delivery.moveToDeadLetter at hmove
  split at hmove
  next =>
    have hold : ∀ letters : DeadLetterTable, db.deadLetters.rows ⊆ letters.rows →
        (∃ letter ∈ letters.rows, letter.message = message.id) →
        Database.Lettered { db with
          messages := Delivery.save db.messages message.id (statusUpdate status now)
          deadLetters := letters } := by
      intro letters hsub hown m hm hburied
      rcases mem_save hm with ⟨hmem, -⟩ | ⟨old, -, hid, rfl⟩
      · obtain ⟨letter, hletter, hkey⟩ := h m hmem hburied
        exact ⟨letter, hsub hletter, hkey⟩
      · exact hid ▸ hown
    split at hmove
    next letter hfind =>
      cases hmove
      exact hold db.deadLetters (List.Subset.refl _) ⟨letter, db.deadLetters.find?_eq_some.mp hfind⟩
    next =>
      obtain ⟨letters, hinsert, rfl⟩ := Option.map_eq_some_iff.mp hmove
      have hmem := @Table.mem_insert _ _ _ _ _ db.deadLetters _ _ _ _ hinsert
      exact hold letters (fun letter hletter => hmem.mpr (.inl hletter))
        ⟨_, hmem.mpr (.inr rfl), rfl⟩
  next => contradiction

theorem Database.Lettered.delete {db : Database} (h : db.Lettered) (ids : List MessageId) :
    (deleteMessages db ids).Lettered := by
  intro m hm hburied
  obtain ⟨hrow, hkept⟩ := (db.messages.mem_delete).mp hm
  obtain ⟨letter, hletter, hkey⟩ := h m hrow hburied
  exact ⟨letter, (db.deadLetters.mem_delete).mpr ⟨hletter, hkey ▸ hkept⟩, hkey⟩

namespace System

variable {s t : System} {a : Action}

theorem lettered_call {c : Nat} {call : CreateCall} {action : CallAction}
    (h : s.db.Lettered) (hstep : CallStep s c call action t) : t.db.Lettered := by
  cases hstep with
  | inserted hpc _ hmessage hinsert =>
      refine h.of_kept rfl fun m hm hburied => ?_
      rcases (s.db.messages.mem_insert hinsert).mp hm with hold | rfl
      · exact hold
      · subst hmessage
        cases hburied
  | _ => exact h

theorem lettered_beat {b : Nat} {pc : BeatPc} {action : BeatAction} (h : s.db.Lettered)
    (hstep : s.stepBeat b action pc = some t) : t.db.Lettered := by
  unfold stepBeat at hstep
  split at hstep
  case h_1 locked now =>
    cases hstep
    refine h.of_kept rfl fun m hm hburied => ?_
    rcases mem_release hm with hold | ⟨old, -, -, rfl⟩
    · exact hold
    · cases hburied
  case h_2 =>
    split at hstep
    · split at hstep <;> cases hstep
      exact h
    · cases hstep
      exact h
  case h_3 =>
    cases hstep
    exact h
  case h_4 =>
    split at hstep <;> cases hstep
    exact h
  case h_5 => contradiction

theorem lettered_deliver {task : Task} (h : s.db.Lettered)
    (hstep : s.stepDeliver task = some t) : t.db.Lettered := by
  unfold stepDeliver at hstep
  split at hstep
  next =>
    split at hstep
    next =>
      cases hstep
      exact h
    next =>
      split at hstep <;> cases hstep
      · exact h
      · exact h
      · exact h.save _ _ fun _ => rfl
  next => contradiction

theorem lettered_run {r : Nat} {run : DeliveryRun} {action : RunAction} (h : s.db.Lettered)
    (hstep : s.stepRun r run action run.pc = some t) : t.db.Lettered := by
  unfold stepRun at hstep
  split at hstep
  case h_4 =>
    split at hstep <;> cases hstep
    next hinsert =>
      obtain ⟨_, -, rfl, -⟩ := insertAttempt_eq_some hinsert
      exact h
    next => exact h
  case h_5 =>
    split at hstep
    next =>
      split at hstep <;> cases hstep
      next hsaved =>
        obtain ⟨-, rfl⟩ := saveSent_eq_some hsaved
        exact h.save _ _ fun _ => rfl
      next => exact h
    next =>
      split at hstep <;> cases hstep
      next hmove => exact h.moveToDeadLetter hmove
      next => exact h
    next =>
      dsimp only at hstep
      split at hstep <;> cases hstep <;> exact h
  case h_6 =>
    split at hstep <;> cases hstep
    exact h
  case h_7 => contradiction
  all_goals
    cases hstep
    exact h

theorem lettered_step (h : s.db.Lettered) (hstep : step s a = some t) : t.db.Lettered := by
  unfold step at hstep
  split at hstep
  case h_3 =>
    obtain ⟨_, _, hcall⟩ := Option.bind_eq_some_iff.mp hstep
    exact lettered_call h (callStep_of_step hcall)
  case h_5 =>
    obtain ⟨_, _, hbeat⟩ := Option.bind_eq_some_iff.mp hstep
    exact lettered_beat h hbeat
  case h_6 => exact lettered_deliver h hstep
  case h_7 =>
    obtain ⟨_, _, hrun⟩ := Option.bind_eq_some_iff.mp hstep
    exact lettered_run h hrun
  case h_8 =>
    split at hstep <;> cases hstep
    exact h
  case h_10 k action =>
    have hstep : s.step (.cleanup k action) = some t := hstep
    obtain ⟨_, -, hown⟩ := cleanupStep_of_step hstep
    cases hown with
    | deletedLast _ ids => exact h.delete ids
    | deleted _ ids => exact h.delete ids
    | _ => exact h
  case h_11 =>
    cases hstep
    split
    next hdb =>
      obtain ⟨hmessages, -, hletters⟩ := Templates.upsert_eq_some hdb
      exact h.of_kept hletters fun _ hm _ => hmessages ▸ hm
    next => exact h
  all_goals
    cases hstep
    exact h

end System

structure System.Audited (s : System) : Prop where
  referential : Lifecycle.Referential s.view
  trail : Lifecycle.Trail s.view
  lettered : s.db.Lettered

theorem System.audited {allowed : System → System.Action → Prop} {s : System}
    (h : System.Reachable allowed s) : System.Audited s := by
  obtain ⟨_, hreferential, htrail⟩ := System.invariant_of_lifecycle Transition.anyStep
    (fun v => Lifecycle.History v ∧ Lifecycle.Referential v ∧ Lifecycle.Trail v)
    (fun _ _ _ => trivial)
    (fun clock => ⟨Lifecycle.history_init clock, Lifecycle.referential_init clock,
      Lifecycle.trail_init clock⟩)
    (fun _ _ _ hinv _ hstep => ⟨hinv.1.step hstep, hinv.2.1.step hstep,
      hinv.2.2.step hinv.2.1 hinv.1 hstep⟩) h
  refine ⟨hreferential, htrail, ?_⟩
  obtain ⟨clock, hreaches⟩ := h
  exact hreaches.invariant (fun s => s.db.Lettered) (fun _ hm => by cases hm)
    fun _ _ _ hinv _ hstep => System.lettered_step hinv hstep

/-- Whatever runs overlap and crash, a status has its attempts: a message that was sent a
success, one that failed a permanent error, and a dead one more transient errors than it has
retries. -/
theorem status_attested {s : System} (h : System.Reachable Transition.anyStep s) {m : Message}
    (hm : m ∈ s.db.messages.rows) :
    (m.status = .sent → ∃ attempt ∈ s.db.attempts.rows,
      attempt.message = m.id ∧ attempt.result = .success) ∧
    (m.status = .failed → ∃ attempt ∈ s.db.attempts.rows,
      attempt.message = m.id ∧ attempt.result = .permanentError) ∧
    (m.status = .dead → maxRetries < tally s.db.attempts m.id .transientError) := by
  have hrows := (System.audited h).trail.rows m hm
  refine ⟨fun hsent => ?_, fun hfailed => ?_, fun hdead => ?_⟩
  · rw [hsent] at hrows
    exact tally_pos.mp (hrows _ rfl)
  · rw [hfailed] at hrows
    exact tally_pos.mp (hrows _ rfl)
  · rw [hdead] at hrows
    exact hrows _ rfl

def unanswered : ChannelResult :=
  { success := false, transient := true, errorMessage := "timeout" }

/-- A task whose channel never answers, delivered until its retries are used up. -/
def System.exhausting : List System.Action :=
  System.opening ++ (List.range 7).flatMap fun n =>
    .deliver { System.firstTask with retries := n } :: System.performing n unanswered

theorem status_attested_exhausted :
    ∃ s m, System.Reachable Transition.anyStep s ∧ m ∈ s.db.messages.rows ∧ m.status = .dead ∧
      maxRetries < tally s.db.attempts m.id .transientError := by
  obtain ⟨s, hs, m, hm, hdead⟩ := Transition.exists_of_runAll System.step Transition.anyStep
    (System.init 0) System.exhausting
    (fun s => ∃ m ∈ s.db.messages.rows, m.status = .dead) (by decide +kernel)
  exact ⟨s, m, ⟨0, hs⟩, hm, hdead, (status_attested ⟨0, hs⟩ hm).2.2 hdead⟩

end NotifyRelay
