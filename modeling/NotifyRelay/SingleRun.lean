import NotifyRelay.AttemptNumbers
import NotifyRelay.Finality

/-! One run of a delivery task from its claim to its end, among the steps of other messages:
what it writes follows from what the channel gave it. -/
namespace NotifyRelay

open Services Delivery Scheduler

/-- The attempts of a message, in order of insertion. -/
def attemptsOf (attempts : AttemptTable) (message : MessageId) : List DeliveryAttempt :=
  attempts.rows.filter fun a => a.message == message

/-- The columns of an attempt take it. -/
def ChannelResult.storable (result : ChannelResult) : Bool :=
  result.httpStatus.all storableInteger && result.smtpCode.all storableInteger &&
    storableText result.errorMessage

theorem checks_newAttempt (message : MessageId) (attemptNo : Nat) (started finished : Time)
    (result : ChannelResult) :
    (newAttempt message attemptNo started finished result).checks = result.storable := rfl

theorem attemptsOf_insert {attempts attempts' : AttemptTable} {attempt : DeliveryAttempt}
    (h : attempts.insert? attempt = some attempts') (message : MessageId) :
    attemptsOf attempts' message =
      attemptsOf attempts message ++ if attempt.message = message then [attempt] else [] := by
  unfold attemptsOf
  rw [((attempts.insert?_eq_some).mp h).2, List.filter_append]
  by_cases hmessage : attempt.message = message <;> simp [hmessage]

theorem attemptsOf_delete (attempts : AttemptTable) {ids : List MessageId} {message : MessageId}
    (h : message ∉ ids) :
    attemptsOf (attempts.delete fun a => ids.contains a.message) message =
      attemptsOf attempts message := by
  unfold attemptsOf Table.delete
  rw [List.filter_filter]
  refine List.filter_congr fun a _ => ?_
  by_cases hmessage : a.message = message <;> simp [hmessage, h]

/-- The next number is free, whichever attempts were recorded before. -/
theorem exists_insert_next {v : Lifecycle} (h : Lifecycle.Numbered v) (message : MessageId)
    (started finished : Time) (result : ChannelResult) :
    ∃ attempts, v.attempts.insert? (newAttempt message
      ((attemptsOf v.attempts message).length + 1) started finished result) = some attempts := by
  refine v.attempts.exists_insert fun a ha => ⟨fun hkey => ?_, .inl rfl⟩
  have hmessage : a.message = message := congrArg Prod.fst hkey
  have hnumber : a.attemptNo = (attemptsOf v.attempts message).length + 1 :=
    congrArg Prod.snd hkey
  have hmem : a.attemptNo ∈ attemptNumbers v.attempts message :=
    List.mem_map.mpr ⟨a, List.mem_filter.mpr ⟨ha, by simp [hmessage]⟩, rfl⟩
  rw [h.rows message, List.mem_range'_1] at hmem
  have hlength : (attemptNumbers v.attempts message).length =
      (attemptsOf v.attempts message).length := List.length_map _
  omega

namespace Delivery

/-- How a run ends that gets as far as its verdict. -/
def Verdict.ending : Verdict → DeliveryEnd
  | .sent => .sent
  | .deadLetter status _ => .deadLetter status
  | .transientError _ => .retried

/-- The status such a run leaves. -/
def Verdict.status : Verdict → MessageStatus
  | .sent => .sent
  | .deadLetter status _ => status
  | .transientError _ => .sending

def Verdict.buries : Verdict → Bool
  | .deadLetter .. => true
  | _ => false

end Delivery

namespace Lifecycle

/-- A message with a dead letter is at its end. -/
def Buried (v : Lifecycle) : Prop :=
  ∀ letter ∈ v.deadLetters.rows, ∀ m ∈ v.messages.rows, m.id = letter.message →
    m.status.terminal = true

theorem Buried.step {v w : Lifecycle} {a : System.Action} (h : Buried v) (hhistory : History v)
    (hstep : Step v a w) : Buried w := by
  intro letter hletter m hm hid
  rcases hstep.letter hletter with hold | ⟨r, run, status, -, -, hstatus, hsaved, hkey, -⟩
  · obtain ⟨old, hmem, hsame⟩ := hstep.old_row hm (hid ▸ hhistory.letters letter hold)
    have hterminal := h letter hold old hmem (hsame.trans hid)
    rcases terminal_row_step hstep hmem hhistory hterminal hm hsame.symm with rfl | ⟨hend, -⟩
    · exact hterminal
    · exact hend
  · rw [hsaved] at hm
    rcases mem_save hm with ⟨-, hne⟩ | ⟨old, -, -, rfl⟩
    · exact absurd (hid.trans hkey) hne
    · rcases hstatus with rfl | rfl <;> rfl

end Lifecycle

theorem System.buried {allowed : System → System.Action → Prop} {s : System}
    (h : System.Reachable allowed s) : Lifecycle.Buried s.view :=
  (System.invariant_of_lifecycle Transition.anyStep
    (fun v => Lifecycle.History v ∧ Lifecycle.Buried v) (fun _ _ _ => trivial)
    (fun clock => ⟨Lifecycle.history_init clock, by simp [Lifecycle.Buried, Lifecycle.init,
      Table.empty]⟩)
    (fun _ _ _ hinv _ hstep => ⟨hinv.1.step hstep, hinv.2.step hinv.1 hstep⟩) h).2

namespace System

variable {s t u : System} {a : Action} {id : MessageId}

/-- A step that is none of the message's own: it delivers no task of it, moves no run of it,
and does not put its row back in the queue. -/
def Elsewhere (id : MessageId) (s : System) : Action → Prop
  | .deliver task => task.message ≠ id
  | .run r _ => ∀ run, s.runs[r]? = some run → run.message.id ≠ id
  | .beat b (.select locked) => ∀ now, s.beats[b]? = some (.selecting now) →
      ∀ m ∈ dispatchBatch s.db.messages now locked, m.id ≠ id
  | _ => True

theorem refined (hs : Reachable Transition.anyStep s) (hstep : step s a = some t) :
    s.view = t.view ∨ Lifecycle.Step s.view a t.view :=
  (step_refines (readingsPast_of_reachable hs) hstep).2

theorem Reachable.next (hs : Reachable Transition.anyStep s) (hstep : step s a = some t) :
    Reachable Transition.anyStep t := by
  obtain ⟨clock, hs⟩ := hs
  exact ⟨clock, hs.tail ⟨a, trivial, hstep⟩⟩

private theorem mem_of_not_released {b : Nat} {locked : List MessageId}
    (ha : Elsewhere id s (.beat b (.select locked)))
    (hstep : step s (.beat b (.select locked)) = some t) {m : Message}
    (hm : m ∈ s.db.messages.rows) (hid : m.id = id) : m ∈ t.db.messages.rows := by
  obtain ⟨pc, hpc, hselect⟩ := Option.bind_eq_some_iff.mp hstep
  cases pc with
  | selecting now =>
      cases hselect
      refine (s.db.messages.mem_update).mpr ⟨m, hm, if_neg ?_⟩
      intro hmem
      rw [List.contains_iff_mem] at hmem
      obtain ⟨member, hmember, hkey⟩ := List.mem_map.mp hmem
      exact ha now hpc member hmember (hkey.trans hid)
  | _ => cases hselect

theorem Elsewhere.row (hs : Reachable Transition.anyStep s) (ha : Elsewhere id s a)
    (hstep : step s a = some t) {m : Message} (hm : m ∈ s.db.messages.rows) (hid : m.id = id)
    (hlive : m.status.terminal = false) : m ∈ t.db.messages.rows := by
  have hhistory := System.history hs
  rcases refined hs hstep with heq | hview
  · have hmessages : s.db.messages = t.db.messages := congrArg Lifecycle.messages heq
    exact hmessages ▸ hm
  · rcases hview.survives hm with ⟨hdoomed, -⟩ | ⟨m', hm', hkey⟩
    · rw [hhistory.terminal m hm hdoomed] at hlive
      contradiction
    · have hsame : ∀ {old : Message}, old ∈ s.db.messages.rows → old.id = m'.id → old = m :=
        fun hold hid' => s.db.messages.eq_of_key hold hm (hid'.trans hkey)
      cases hview.row hm' with
      | kept hold => exact hsame hold rfl ▸ hm'
      | inserted hfresh =>
          have hknown := hhistory.known_row hm
          rw [← hkey] at hknown
          exact absurd hknown (not_known_of_fresh hfresh)
      | released => exact mem_of_not_released ha hstep hm hid
      | claimed _ hold htask =>
          exact absurd (htask.symm.trans (hkey.trans hid)) ha
      | finished hrun _ hold hmessage =>
          exact absurd (hmessage.symm.trans (hkey.trans hid)) (ha _ hrun)

theorem Elsewhere.attempts (hs : Reachable Transition.anyStep s) (ha : Elsewhere id s a)
    (hstep : step s a = some t) {m : Message} (hm : m ∈ t.db.messages.rows) (hid : m.id = id) :
    attemptsOf t.db.attempts id = attemptsOf s.db.attempts id := by
  rcases refined hs hstep with heq | hview
  · have hattempts : s.db.attempts = t.db.attempts := congrArg Lifecycle.attempts heq
    rw [hattempts]
  · generalize hattempts : t.db.attempts = attempts
    have hchange := hview.attempts
    rw [show t.view.attempts = attempts from hattempts] at hchange
    cases hchange with
    | same => rfl
    | inserted hrun _ _ hinsert =>
        refine (attemptsOf_insert hinsert id).trans ?_
        exact (congrArg _ (if_neg (ha _ hrun))).trans (List.append_nil _)
    | deleted hgone => exact attemptsOf_delete _ (hid ▸ hgone m hm)

theorem Elsewhere.run_kept (hs : Reachable Transition.anyStep s) (ha : Elsewhere id s a)
    (hstep : step s a = some t) {r : Nat} {run : DeliveryRun} (hrun : s.runs[r]? = some run)
    (hid : run.message.id = id) : t.runs[r]? = some run := by
  rcases refined hs hstep with heq | hview
  · have hruns : s.runs = t.runs := congrArg Lifecycle.runs heq
    exact hruns ▸ hrun
  · rcases hview.run_survives hrun with hkept | ⟨_, _, rfl, -⟩
    · exact hkept
    · exact absurd hid (ha run hrun)

theorem Elsewhere.run_old (hs : Reachable Transition.anyStep s) (ha : Elsewhere id s a)
    (hstep : step s a = some t) {r : Nat} {run : DeliveryRun} (hrun : t.runs[r]? = some run)
    (hid : run.message.id = id) : s.runs[r]? = some run := by
  rcases refined hs hstep with heq | hview
  · have hruns : s.runs = t.runs := congrArg Lifecycle.runs heq
    exact hruns ▸ hrun
  · cases hview.run hrun with
    | kept hold => exact hold
    | claimed _ hfind =>
        exact absurd ((s.db.messages.find?_eq_some.mp hfind).2.symm.trans hid) ha
    | @moved _ old _ _ hold _ => exact absurd hid (ha old hold)

/-- What a run `r` that started after `s` sees of its message: the row as it saved it, the
attempts, and no other run of the message that was not there in `s`. -/
structure Midway (s : System) (m : Message) (attempts : List DeliveryAttempt) (r : Nat)
    (run : DeliveryRun) (t : System) : Prop where
  reachable : Reachable Transition.anyStep t
  row : m ∈ t.db.messages.rows
  attempts : attemptsOf t.db.attempts m.id = attempts
  run : t.runs[r]? = some run
  others : ∀ i other, t.runs[i]? = some other → other.message.id = m.id → i ≠ r →
    s.runs[i]? = some other

variable {m m' : Message} {attempts : List DeliveryAttempt} {r : Nat} {run run' : DeliveryRun}
  {task : Task} {result : ChannelResult}

theorem Midway.elsewhere (h : Midway s m attempts r run t) (hid : run.message.id = m.id)
    (hlive : m.status.terminal = false) (ha : Elsewhere m.id t a) (hstep : step t a = some u) :
    Midway s m attempts r run u := by
  have hrow := ha.row h.reachable hstep h.row rfl hlive
  exact
    { reachable := h.reachable.next hstep
      row := hrow
      attempts := (ha.attempts h.reachable hstep hrow rfl).trans h.attempts
      run := ha.run_kept h.reachable hstep h.run hid
      others := fun i other hother hsame hne =>
        h.others i other (ha.run_old h.reachable hstep hother hsame) hsame hne }

theorem Midway.moved (h : Midway s m attempts r run t) {action : RunAction}
    (hstep : step t (.run r action) = some u) (hruns : u.runs = t.runs.set r run')
    (hrow : m' ∈ u.db.messages.rows) (hid : m'.id = m.id) {attempts' : List DeliveryAttempt}
    (hattempts : attemptsOf u.db.attempts m.id = attempts') :
    Midway s m' attempts' r run' u where
  reachable := h.reachable.next hstep
  row := hrow
  attempts := hid ▸ hattempts
  run := by rw [hruns, Pool.get_set_self h.run]
  others i other hother hsame hne := by
    rw [hruns, Pool.get_set_of_ne h.run _ hne] at hother
    exact h.others i other hother (hsame.trans hid) hne

/-- The places of a run before its end, with the attempts its message then has. -/
inductive Phase (id : MessageId) (result : ChannelResult) (before : List DeliveryAttempt) :
    DeliveryPc → List DeliveryAttempt → Prop
  | claimed : Phase id result before .claimed before
  | sending (started : Time) : Phase id result before (.sending started) before
  | sent (started finished : Time) : Phase id result before (.sent started finished result) before
  | counted (started finished : Time) :
      Phase id result before (.counted started finished result (before.length + 1)) before
  | recorded (started finished : Time) (hstorable : result.storable = true) :
      Phase id result before (.recorded result)
        (before ++ [newAttempt id (before.length + 1) started finished result])

/-- The steps of a run, where the channel gives `outcome` and `accepted` tells whether the
broker takes a retry. -/
inductive Own (outcome : SendOutcome) (accepted : Bool) : RunAction → Prop
  | sendStart : Own outcome accepted .sendStart
  | sendEnd : Own outcome accepted (.sendEnd outcome)
  | count : Own outcome accepted .count
  | record : Own outcome accepted .record
  | finish : Own outcome accepted (.finish accepted)

/-- How a run ends and what it leaves of its message. -/
inductive Concluded (s : System) (task : Task) (message : Message) (before : List DeliveryAttempt)
    (r : Nat) (result : ChannelResult) (accepted : Bool) : DeliveryEnd → System → Prop
  | aborted {t : System} (hstorable : result.storable = false)
      (hstate : Midway s message before r ⟨task, message, .ended .aborted⟩ t) :
      Concluded s task message before r result accepted .aborted t
  | finished {t : System} {row : Message} {started finished : Time}
      (hstorable : result.storable = true)
      (hstate : Midway s row
        (before ++ [newAttempt message.id (before.length + 1) started finished result]) r
        ⟨task, message, .ended (verdict result task.retries).ending⟩ t)
      (hid : row.id = message.id) (howner : row.claimedBy = message.claimedBy)
      (hstatus : row.status = (verdict result task.retries).status)
      (hletter : (∃ letter ∈ t.db.deadLetters.rows, letter.message = message.id) ↔
        (verdict result task.retries).buries = true)
      (hretry : (verdict result task.retries).ending = .retried → accepted = true →
        retryOf task ∈ t.broker) :
      Concluded s task message before r result accepted (verdict result task.retries).ending t

variable {before : List DeliveryAttempt} {outcome : SendOutcome} {accepted : Bool}

theorem step_run_eq (hrun : t.runs[r]? = some run) (action : RunAction) :
    step t (.run r action) = t.stepRun r run action run.pc := by
  rw [step, hrun]
  rfl

theorem insertAttempt_of_not_storable (h : result.storable = false) (db : Database)
    (message : MessageId) (attemptNo : Nat) (started finished : Time) :
    insertAttempt db (newAttempt message attemptNo started finished result) = none := by
  refine if_neg fun hguard => ?_
  rw [checks_newAttempt, h] at hguard
  exact Bool.false_ne_true hguard.2

/-- The row is there and its next number is free, so only the checks can refuse an attempt. -/
theorem exists_insertAttempt (ht : Reachable Transition.anyStep t) (hm : m ∈ t.db.messages.rows)
    (hattempts : attemptsOf t.db.attempts m.id = before) (hstorable : result.storable = true)
    (started finished : Time) :
    ∃ db, insertAttempt t.db
        (newAttempt m.id (before.length + 1) started finished result) = some db ∧
      db.messages = t.db.messages ∧ attemptsOf db.attempts m.id =
        before ++ [newAttempt m.id (before.length + 1) started finished result] := by
  have hfind : t.db.messages.find? m.id = some m := t.db.messages.find?_eq_some.mpr ⟨hm, rfl⟩
  obtain ⟨attempts, hinsert⟩ :=
    exists_insert_next (System.numbered ht) m.id started finished result
  subst hattempts
  refine ⟨{ t.db with attempts := attempts }, ?_, rfl, ?_⟩
  · unfold insertAttempt
    rw [if_pos ⟨by rw [show (newAttempt m.id _ _ _ _).message = m.id from rfl, hfind]; rfl,
      hstorable⟩]
    exact congrArg (Option.map _) hinsert
  · refine (attemptsOf_insert hinsert m.id).trans ?_
    exact congrArg _ (if_pos rfl)

theorem Midway.recordStep {started finished : Time}
    (h : Midway s m before r ⟨task, m, .counted started finished result (before.length + 1)⟩ t)
    (hstep : step t (.run r .record) = some u) :
    (result.storable = true ∧ Midway s m
      (before ++ [newAttempt m.id (before.length + 1) started finished result]) r
      ⟨task, m, .recorded result⟩ u) ∨
    (result.storable = false ∧ Midway s m before r ⟨task, m, .ended .aborted⟩ u) := by
  have hrun := hstep
  rw [step_run_eq h.run] at hrun
  unfold stepRun at hrun
  dsimp only at hrun
  cases hstorable : result.storable with
  | false =>
      rw [insertAttempt_of_not_storable hstorable] at hrun
      cases hrun
      exact .inr ⟨rfl, h.moved hstep rfl h.row rfl h.attempts⟩
  | true =>
      obtain ⟨db, hinsert, hmessages, hattempts⟩ :=
        exists_insertAttempt h.reachable h.row h.attempts hstorable started finished
      rw [hinsert] at hrun
      cases hrun
      exact .inl ⟨rfl, h.moved hstep rfl (hmessages.symm ▸ h.row) rfl hattempts⟩

/-- The row after a save is the one that was there. -/
theorem mem_save_own {messages : MessageTable} (hm : m ∈ messages.rows) (update : MessageUpdate) :
    update.apply m ∈ (save messages m.id update).rows :=
  (messages.mem_update).mpr ⟨m, hm, if_pos (beq_self_eq_true m.id)⟩

theorem not_letter_of_live (ht : Reachable Transition.anyStep t) (hm : m ∈ t.db.messages.rows)
    (hlive : m.status.terminal = false) :
    ¬∃ letter ∈ t.db.deadLetters.rows, letter.message = m.id := by
  rintro ⟨letter, hletter, hid⟩
  rw [System.buried ht letter hletter m hm hid.symm] at hlive
  contradiction

/-- Nobody buried the message before, so `get_or_create` creates. -/
theorem exists_moveToDeadLetter (ht : Reachable Transition.anyStep t)
    (hm : m ∈ t.db.messages.rows) (hlive : m.status.terminal = false) (status : MessageStatus)
    (reason : String) (now : Time) :
    ∃ db, moveToDeadLetter t.db m status reason now = some db ∧
      db.messages = save t.db.messages m.id (statusUpdate status now) ∧
      db.attempts = t.db.attempts ∧ ∃ letter ∈ db.deadLetters.rows, letter.message = m.id := by
  have hfind : t.db.messages.find? m.id = some m := t.db.messages.find?_eq_some.mpr ⟨hm, rfl⟩
  have hnone : t.db.deadLetters.find? m.id = none :=
    t.db.deadLetters.find?_eq_none.mpr fun letter hletter hid =>
      not_letter_of_live ht hm hlive ⟨letter, hletter, hid⟩
  obtain ⟨letters, hletters⟩ := t.db.deadLetters.exists_insert
    (r := ⟨m.id, reason, snapshot m, now⟩) fun letter hletter =>
      ⟨t.db.deadLetters.find?_eq_none.mp hnone letter hletter, .inl rfl⟩
  refine ⟨{ t.db with
    messages := save t.db.messages m.id (statusUpdate status now)
    deadLetters := letters }, ?_, rfl, rfl, _, (t.db.deadLetters.mem_insert hletters).mpr
      (.inr rfl), rfl⟩
  unfold moveToDeadLetter
  rw [hfind, hnone]
  dsimp only [Option.isSome_some]
  rw [if_pos rfl, hletters]
  rfl

theorem Midway.finishStep
    (h : Midway s m attempts r ⟨task, m, .recorded result⟩ t) (hsending : m.status = .sending)
    (hstep : step t (.run r (.finish accepted)) = some u) :
    ∃ row, Midway s row attempts r ⟨task, m, .ended (verdict result task.retries).ending⟩ u ∧
      row.id = m.id ∧ row.claimedBy = m.claimedBy ∧
      row.status = (verdict result task.retries).status ∧
      ((∃ letter ∈ u.db.deadLetters.rows, letter.message = m.id) ↔
        (verdict result task.retries).buries = true) ∧
      ((verdict result task.retries).ending = .retried → accepted = true →
        retryOf task ∈ u.broker) := by
  have hlive : m.status.terminal = false := by rw [hsending]; rfl
  have hletter := not_letter_of_live h.reachable h.row hlive
  have hrun := hstep
  rw [step_run_eq h.run] at hrun
  unfold stepRun at hrun
  dsimp only at hrun
  cases hverdict : verdict result task.retries with
  | sent =>
      have hsave : saveSent t.db m t.clock =
          some { t.db with messages := save t.db.messages m.id (statusUpdate .sent t.clock) } :=
        if_pos (by rw [t.db.messages.find?_eq_some.mpr ⟨h.row, rfl⟩]; rfl)
      rw [hverdict] at hrun
      dsimp only at hrun
      rw [hsave] at hrun
      cases hrun
      refine ⟨_, h.moved hstep rfl (mem_save_own h.row _) rfl h.attempts, rfl, rfl, rfl, ?_, ?_⟩
      · exact iff_of_false hletter Bool.false_ne_true
      · exact fun hretried => DeliveryEnd.noConfusion hretried
  | deadLetter status reason =>
      obtain ⟨db, hmove, hmessages, hattempts, hburied⟩ :=
        exists_moveToDeadLetter h.reachable h.row hlive status reason t.clock
      rw [hverdict] at hrun
      dsimp only at hrun
      rw [hmove] at hrun
      cases hrun
      have hrow : (statusUpdate status t.clock).apply m ∈ db.messages.rows :=
        hmessages.symm ▸ mem_save_own h.row _
      refine ⟨_, h.moved hstep rfl hrow rfl (hattempts.symm ▸ h.attempts), rfl, rfl, rfl, ?_, ?_⟩
      · exact iff_of_true hburied rfl
      · exact fun hretried => DeliveryEnd.noConfusion hretried
  | transientError text =>
      rw [hverdict] at hrun
      dsimp only at hrun
      cases accepted with
      | false =>
          cases hrun
          exact ⟨m, h.moved hstep rfl h.row rfl h.attempts, rfl, rfl, hsending,
            iff_of_false hletter Bool.false_ne_true, fun _ hfalse => Bool.noConfusion hfalse⟩
      | true =>
          cases hrun
          exact ⟨m, h.moved hstep rfl h.row rfl h.attempts, rfl, rfl, hsending,
            iff_of_false hletter Bool.false_ne_true, fun _ _ => List.mem_cons_self⟩

/-- An own step leads on to the next place, or ends the run. -/
theorem Midway.own {pc : DeliveryPc} (h : Midway s m attempts r ⟨task, m, pc⟩ t)
    (hphase : Phase m.id outcome.result before pc attempts) (hsending : m.status = .sending)
    {action : RunAction} (haction : Own outcome accepted action)
    (hstep : step t (.run r action) = some u) :
    (∃ pc' attempts', Phase m.id outcome.result before pc' attempts' ∧
      Midway s m attempts' r ⟨task, m, pc'⟩ u) ∨
    ∃ how, Concluded s task m before r outcome.result accepted how u := by
  have hrun := hstep
  rw [step_run_eq h.run] at hrun
  cases haction with
  | sendStart =>
      cases hphase with
      | claimed =>
          cases hrun
          exact .inl ⟨_, _, .sending t.clock, h.moved hstep rfl h.row rfl h.attempts⟩
      | _ => cases hrun
  | sendEnd =>
      cases hphase with
      | sending started =>
          cases hrun
          exact .inl ⟨_, _, .sent started t.clock, h.moved hstep rfl h.row rfl h.attempts⟩
      | _ => cases hrun
  | count =>
      cases hphase with
      | sent started finished =>
          cases hrun
          refine .inl ⟨_, _, .counted started finished, h.moved hstep ?_ h.row rfl h.attempts⟩
          rw [← h.attempts]
          rfl
      | _ => cases hrun
  | record =>
      cases hphase with
      | counted started finished =>
          rcases h.recordStep hstep with ⟨hstorable, hnext⟩ | ⟨hstorable, hnext⟩
          · exact .inl ⟨_, _, .recorded started finished hstorable, hnext⟩
          · exact .inr ⟨_, .aborted hstorable hnext⟩
      | _ => cases hrun
  | finish =>
      cases hphase with
      | recorded started finished hstorable =>
          obtain ⟨row, hstate, hid, howner, hstatus, hletter, hretry⟩ := h.finishStep hsending hstep
          exact .inr ⟨_, .finished hstorable hstate hid howner hstatus hletter hretry⟩
      | _ => cases hrun

/-- The message of `m` is as it was in `s`. -/
structure Untouched (s : System) (m : Message) (t : System) : Prop where
  reachable : Reachable Transition.anyStep t
  row : m ∈ t.db.messages.rows
  attempts : attemptsOf t.db.attempts m.id = attemptsOf s.db.attempts m.id
  runs : ∀ (i : Nat) (run : DeliveryRun), t.runs[i]? = some run → run.message.id = m.id →
    s.runs[i]? = some run

theorem untouched_of_elsewhere (hs : Reachable Transition.anyStep s) (hm : m ∈ s.db.messages.rows)
    (hlive : m.status.terminal = false) (h : Reaches (Elsewhere m.id) s t) : Untouched s m t := by
  refine h.invariant (Untouched s m) ⟨hs, hm, rfl, fun _ _ hrun _ => hrun⟩ ?_
  intro t a u hinv ha hstep
  have hrow := ha.row hinv.reachable hstep hinv.row rfl hlive
  exact
    { reachable := hinv.reachable.next hstep
      row := hrow
      attempts := (ha.attempts hinv.reachable hstep hrow rfl).trans hinv.attempts
      runs := fun i run hrun hid =>
        hinv.runs i run (ha.run_old hinv.reachable hstep hrun hid) hid }

/-- The steps between the claim of run `r` and its end: its own and those of other messages. -/
def Around (id : MessageId) (r : Nat) (outcome : SendOutcome) (accepted : Bool) (s : System)
    (a : Action) : Prop :=
  Elsewhere id s a ∨ ∃ action, Own outcome accepted action ∧ a = .run r action

/-- From `s`, `task` is delivered and claims its message, and its run goes on to its end `how`
without a crash; all other steps belong to other messages. -/
inductive RunOf (task : Task) (outcome : SendOutcome) (accepted : Bool) (s : System)
    (how : DeliveryEnd) (t : System) : Prop
  | intro {u v w : System} {message : Message} {action : RunAction}
      (hquiet : Reaches (Elsewhere task.message) s u)
      (hdeliver : step u (.deliver task) = some v)
      (hclaimed : v.runs = Pool.spawn u.runs ⟨task, message, .claimed⟩)
      (hsteps : Reaches (Around task.message (Pool.next u.runs) outcome accepted) v w)
      (haction : Own outcome accepted action)
      (hlast : step w (.run (Pool.next u.runs) action) = some t)
      (hended : t.runs[Pool.next u.runs]? = some ⟨task, message, .ended how⟩) :
      RunOf task outcome accepted s how t

/-- The claim writes the row and starts the run. -/
theorem Untouched.deliver {message : Message} (h : Untouched s m t) (hid : m.id = task.message)
    (hclaim : claim m task.id = .claimed) (hstep : step t (.deliver task) = some u)
    (hclaimed : u.runs = Pool.spawn t.runs ⟨task, message, .claimed⟩) :
    message = (claimUpdate task.id t.clock).apply m ∧
      Midway s message (attemptsOf s.db.attempts m.id) (Pool.next t.runs)
        ⟨task, message, .claimed⟩ u := by
  have hfind : t.db.messages.find? task.message = some m :=
    t.db.messages.find?_eq_some.mpr ⟨h.row, hid⟩
  have hrun := hstep
  rw [step, stepDeliver, hfind] at hrun
  split at hrun
  next =>
    dsimp only at hrun
    rw [hclaim] at hrun
    cases hrun
    cases List.append_cancel_left hclaimed
    refine ⟨rfl, ?_⟩
    exact
      { reachable := h.reachable.next hstep
        row := mem_save_own h.row _
        attempts := h.attempts
        run := by rw [Pool.get_spawn, if_pos rfl]
        others := fun i other hother hsame hne => by
          rw [Pool.get_spawn, if_neg hne] at hother
          exact h.runs i other hother hsame }
  next => cases hrun

/-- A run is on its way, or it has ended and takes no more steps. -/
inductive OnItsWay (s : System) (task : Task) (message : Message)
    (before : List DeliveryAttempt) (r : Nat) (result : ChannelResult) (t : System) : Prop
  | live {pc : DeliveryPc} {attempts : List DeliveryAttempt}
      (hphase : Phase message.id result before pc attempts)
      (hstate : Midway s message attempts r ⟨task, message, pc⟩ t)
  | ended {how : DeliveryEnd} (hreachable : Reachable Transition.anyStep t)
      (hrun : t.runs[r]? = some ⟨task, message, .ended how⟩)

private theorem not_own_of_ended {how : DeliveryEnd} {action : RunAction}
    (hrun : t.runs[r]? = some ⟨task, m, .ended how⟩) (haction : Own outcome accepted action) :
    step t (.run r action) = none := by
  rw [step_run_eq hrun]
  cases haction <;> rfl

theorem OnItsWay.step (h : OnItsWay s task m before r outcome.result t)
    (hsending : m.status = .sending) (ha : Around m.id r outcome accepted t a)
    (hstep : System.step t a = some u) : OnItsWay s task m before r outcome.result u := by
  have hlive : m.status.terminal = false := by rw [hsending]; rfl
  rcases ha with ha | ⟨action, haction, rfl⟩
  · cases h with
    | live hphase hstate => exact .live hphase (hstate.elsewhere rfl hlive ha hstep)
    | ended hreachable hrun =>
        exact .ended (hreachable.next hstep) (ha.run_kept hreachable hstep hrun rfl)
  · cases h with
    | live hphase hstate =>
        rcases hstate.own hphase hsending haction hstep with ⟨_, _, hphase', hstate'⟩ | ⟨_, hend⟩
        · exact .live hphase' hstate'
        · cases hend with
          | aborted _ hstate' => exact .ended hstate'.reachable hstate'.run
          | finished _ hstate' => exact .ended hstate'.reachable hstate'.run
    | ended _ hrun =>
        rw [not_own_of_ended hrun haction] at hstep
        contradiction

/-- What a run does to its message follows from what the channel gave it. -/
theorem RunOf.concluded {how : DeliveryEnd} (hs : Reachable Transition.anyStep s)
    (hm : m ∈ s.db.messages.rows) (hid : m.id = task.message)
    (hclaim : claim m task.id = .claimed) (h : RunOf task outcome accepted s how t) :
    ∃ r now, Concluded s task ((claimUpdate task.id now).apply m)
      (attemptsOf s.db.attempts m.id) r outcome.result accepted how t := by
  obtain ⟨hquiet, hdeliver, hclaimed, hsteps, haction, hlast, hended⟩ := h
  rename_i u v w message action
  have hlive : m.status.terminal = false := by
    cases hterminal : m.status.terminal with
    | false => rfl
    | true =>
        rw [claim_of_terminal hterminal] at hclaim
        contradiction
  rw [← hid] at hquiet hsteps
  have huntouched := untouched_of_elsewhere hs hm hlive hquiet
  obtain ⟨rfl, hstart⟩ := huntouched.deliver hid hclaim hdeliver hclaimed
  have hway : OnItsWay s task ((claimUpdate task.id u.clock).apply m)
      (attemptsOf s.db.attempts m.id) (Pool.next u.runs) outcome.result w :=
    hsteps.invariant _ (.live .claimed hstart) fun _ _ _ hinv ha hstep => hinv.step rfl ha hstep
  refine ⟨Pool.next u.runs, u.clock, ?_⟩
  cases hway with
  | live hphase hstate =>
      rcases hstate.own hphase rfl haction hlast with ⟨_, _, hphase', hstate'⟩ | ⟨how', hend⟩
      · cases Option.some.inj (hended.symm.trans hstate'.run)
        cases hphase'
      · cases hend with
        | aborted hstorable hstate' =>
            cases Option.some.inj (hended.symm.trans hstate'.run)
            exact .aborted hstorable hstate'
        | finished hstorable hstate' hid' howner hstatus hletter hretry =>
            cases Option.some.inj (hended.symm.trans hstate'.run)
            exact .finished hstorable hstate' hid' howner hstatus hletter hretry
  | ended _ hrun =>
      rw [not_own_of_ended hrun haction] at hlast
      contradiction

/-- Left to itself, the run comes to its end. -/
def Finishes (task : Task) (message : Message) (r : Nat) (outcome : SendOutcome) (accepted : Bool)
    (t : System) : Prop :=
  ∃ w action u how, Reaches (Around message.id r outcome accepted) t w ∧
    Own outcome accepted action ∧ step w (.run r action) = some u ∧
    u.runs[r]? = some ⟨task, message, .ended how⟩

theorem Finishes.head (h : Finishes task m r outcome accepted u) {action : RunAction}
    (haction : Own outcome accepted action) (hstep : step t (.run r action) = some u) :
    Finishes task m r outcome accepted t := by
  obtain ⟨w, last, v, how, hreach, hown, hlast, hended⟩ := h
  exact ⟨w, last, v, how, hreach.head ⟨_, .inr ⟨action, haction, rfl⟩, hstep⟩, hown, hlast, hended⟩

private theorem exists_finish (hrun : t.runs[r]? = some ⟨task, m, .recorded result⟩)
    (accepted : Bool) : ∃ u, step t (.run r (.finish accepted)) = some u := by
  rw [step_run_eq hrun]
  unfold stepRun
  dsimp only
  split
  next => split <;> exact ⟨_, rfl⟩
  next => split <;> exact ⟨_, rfl⟩
  next => split <;> exact ⟨_, rfl⟩

private theorem exists_record {started finished : Time} {attemptNo : Nat}
    (hrun : t.runs[r]? = some ⟨task, m, .counted started finished result attemptNo⟩) :
    ∃ u, step t (.run r .record) = some u := by
  rw [step_run_eq hrun]
  unfold stepRun
  dsimp only
  split <;> exact ⟨_, rfl⟩

theorem Midway.finishes {pc : DeliveryPc} (h : Midway s m attempts r ⟨task, m, pc⟩ t)
    (hphase : Phase m.id outcome.result before pc attempts) (hsending : m.status = .sending)
    (accepted : Bool) : Finishes task m r outcome accepted t := by
  have hrecorded : ∀ {attempts : List DeliveryAttempt} {t : System},
      Midway s m attempts r ⟨task, m, .recorded outcome.result⟩ t →
      Finishes task m r outcome accepted t := by
    intro attempts t h
    obtain ⟨u, hstep⟩ := exists_finish h.run accepted
    obtain ⟨row, hstate, -⟩ := h.finishStep hsending hstep
    exact ⟨t, _, u, _, .refl, .finish, hstep, hstate.run⟩
  have hcounted : ∀ {started finished : Time} {t : System},
      Midway s m before r
        ⟨task, m, .counted started finished outcome.result (before.length + 1)⟩ t →
      Finishes task m r outcome accepted t := by
    intro started finished t h
    obtain ⟨u, hstep⟩ := exists_record h.run
    rcases h.recordStep hstep with ⟨-, hstate⟩ | ⟨-, hstate⟩
    · exact (hrecorded hstate).head .record hstep
    · exact ⟨t, _, u, _, .refl, .record, hstep, hstate.run⟩
  have hsent : ∀ {started finished : Time} {t : System},
      Midway s m before r ⟨task, m, .sent started finished outcome.result⟩ t →
      Finishes task m r outcome accepted t := by
    intro started finished t h
    have hstep := step_run_eq h.run .count
    have hnumber : nextAttemptNo t.db.attempts m.id = before.length + 1 := by
      rw [← h.attempts]
      rfl
    exact (hcounted (h.moved hstep (by rw [hnumber]; rfl) h.row rfl h.attempts)).head .count hstep
  have hstarted : ∀ {started : Time} {t : System},
      Midway s m before r ⟨task, m, .sending started⟩ t →
      Finishes task m r outcome accepted t := by
    intro started t h
    have hstep := step_run_eq h.run (.sendEnd outcome)
    exact (hsent (h.moved hstep rfl h.row rfl h.attempts)).head .sendEnd hstep
  cases hphase with
  | claimed =>
      have hstep := step_run_eq h.run .sendStart
      exact (hstarted (h.moved hstep rfl h.row rfl h.attempts)).head .sendStart hstep
  | sending => exact hstarted h
  | sent => exact hsent h
  | counted => exact hcounted h
  | recorded => exact hrecorded h

/-- A task that the broker has and whose message it may claim can be run. -/
theorem exists_runOf (hs : Reachable Transition.anyStep s) (hm : m ∈ s.db.messages.rows)
    (hid : m.id = task.message) (hclaim : claim m task.id = .claimed) (hbroker : task ∈ s.broker)
    (outcome : SendOutcome) (accepted : Bool) :
    ∃ how t, RunOf task outcome accepted s how t := by
  have hdeliver : ∃ v, step s (.deliver task) = some v ∧ v.runs = Pool.spawn s.runs
      ⟨task, (claimUpdate task.id s.clock).apply m, .claimed⟩ := by
    rw [step, stepDeliver, if_pos hbroker, s.db.messages.find?_eq_some.mpr ⟨hm, hid⟩]
    dsimp only
    rw [hclaim]
    exact ⟨_, rfl, rfl⟩
  obtain ⟨v, hstep, hclaimed⟩ := hdeliver
  have huntouched : Untouched s m s := ⟨hs, hm, rfl, fun _ _ hrun _ => hrun⟩
  obtain ⟨-, hstart⟩ := huntouched.deliver hid hclaim hstep hclaimed
  obtain ⟨w, action, t, how, hsteps, haction, hlast, hended⟩ :=
    hstart.finishes .claimed rfl accepted
  have hmessage : ((claimUpdate task.id s.clock).apply m).id = task.message := hid
  rw [hmessage] at hsteps
  exact ⟨how, t, .refl, hstep, hclaimed, hsteps, haction, hlast, hended⟩

end System

end NotifyRelay
