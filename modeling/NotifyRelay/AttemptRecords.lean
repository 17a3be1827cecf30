import NotifyRelay.Email
import NotifyRelay.SingleRun

/-! Whether what `EmailChannel.send` returns can be recorded. The code of a reply is whatever
`smtplib` made of three bytes from the server, the text is the rest of its line, and only the
database looks at the sign of the one and for a NUL in the other. -/
namespace NotifyRelay

open Services Delivery Scheduler

namespace EmailChannel

/-- The backend reports no code that is negative or no `integer`, and no text with a NUL. -/
def recordable : BackendOutcome → Bool
  | .smtpException (.response _ code error) =>
      storableInteger code && storableText (errorText error)
  | .smtpException (.recipientsRefused _ text) | .smtpException (.other text) => storableText text
  | .raised repr => storableText repr
  | .sent _ => true

theorem storable_outcomeOf (outcome : BackendOutcome) :
    (outcomeOf outcome).result.storable = recordable outcome := by
  cases outcome with
  | sent count =>
      unfold outcomeOf
      dsimp only
      split <;> rfl
  | smtpException exception => cases exception <;> rfl
  | raised repr => rfl

end EmailChannel

/-- `sent`, `failed`, `dead` or a `TransientError`. -/
def DeliveryEnd.regular : DeliveryEnd → Bool
  | .sent | .deadLetter _ | .retried => true
  | .aborted | .crashed => false

theorem Delivery.Verdict.regular_ending (verdict : Verdict) : verdict.ending.regular = true := by
  cases verdict <;> rfl

namespace System

/-- From `s` to `t` the message gains one attempt that the table takes, and the run ends as
`_dispatch` means it to. -/
def Records (s : System) (id : MessageId) (how : DeliveryEnd) (t : System) : Prop :=
  (∃ attempt, attempt.checks = true ∧
    attemptsOf t.db.attempts id = attemptsOf s.db.attempts id ++ [attempt]) ∧
  how.regular = true

theorem Concluded.records_iff {s t : System} {task : Task} {m : Message} {r : Nat}
    {result : ChannelResult} {accepted : Bool} {how : DeliveryEnd}
    (h : Concluded s task m (attemptsOf s.db.attempts m.id) r result accepted how t) :
    Records s m.id how t ↔ result.storable = true := by
  cases h with
  | aborted hstorable =>
      refine iff_of_false (fun hrecords => Bool.false_ne_true hrecords.2) ?_
      rw [hstorable]
      exact Bool.false_ne_true
  | @finished _ _ started finished hstorable hstate hid =>
      have hattempts := hstate.attempts
      rw [hid] at hattempts
      exact iff_of_true ⟨⟨_, (checks_newAttempt _ _ started finished result).trans hstorable,
        hattempts⟩, Verdict.regular_ending _⟩ hstorable

end System

/-- A run of an e-mail task records its attempt and comes to a regular end if and only if the
table takes the code and the text that are reported. -/
theorem email_attempt_recorded {s : System} {m : Message} {task : Task}
    (hs : System.Reachable Transition.anyStep s) (hm : m ∈ s.db.messages.rows)
    (hid : m.id = task.message) (hclaim : claim m task.id = .claimed) (hbroker : task ∈ s.broker)
    (channel : EmailChannel) (accepted : Bool) :
    (∀ how t, System.RunOf task (channel.send m) accepted s how t → System.Records s m.id how t) ↔
      EmailChannel.recordable ((channel.newEmail m).send channel.backend) = true := by
  have hstorable : (channel.send m).result.storable =
      EmailChannel.recordable ((channel.newEmail m).send channel.backend) :=
    EmailChannel.storable_outcomeOf _
  rw [← hstorable]
  constructor
  · intro h
    obtain ⟨how, t, hrun⟩ :=
      System.exists_runOf hs hm hid hclaim hbroker (channel.send m) accepted
    obtain ⟨r, now, hend⟩ := hrun.concluded hs hm hid hclaim
    exact hend.records_iff.mp (h how t hrun)
  · intro h how t hrun
    obtain ⟨r, now, hend⟩ := hrun.concluded hs hm hid hclaim
    exact hend.records_iff.mpr h

section Scenario

/-- A backend whose server answers one thing. -/
def answering (type : ResponseException) (code : Int) : EmailChannel where
  defaultFromEmail := some "relay@example.com"
  backend _ := .smtpException (.response type code (.bytes []))

/-- The first message is queued and its task waits in the broker. -/
theorem opened : ∃ s m, System.Reachable Transition.anyStep s ∧ m ∈ s.db.messages.rows ∧
    m.id = System.firstTask.message ∧ m.recipient = "user@example.com" ∧ m.status = .queued ∧
    System.firstTask ∈ s.broker ∧ s.runs = [] ∧ attemptsOf s.db.attempts m.id = [] := by
  obtain ⟨s, hs, m, hm, hid, hrecipient, hstatus, hbroker, hruns, hattempts⟩ :=
    Transition.exists_of_runAll System.step Transition.anyStep (System.init 0) System.opening
      (fun s => ∃ m ∈ s.db.messages.rows, m.id = System.firstTask.message ∧
        m.recipient = "user@example.com" ∧ m.status = .queued ∧ System.firstTask ∈ s.broker ∧
        s.runs.length = 0 ∧ (attemptsOf s.db.attempts m.id).length = 0) (by decide +kernel)
  exact ⟨s, m, ⟨0, hs⟩, hm, hid, hrecipient, hstatus, hbroker,
    List.length_eq_zero_iff.mp hruns, List.length_eq_zero_iff.mp hattempts⟩

theorem backend_answering {m : Message} (hrecipient : m.recipient = "user@example.com")
    (type : ResponseException) (code : Int) :
    (((answering type code).newEmail m).send (answering type code).backend) =
      .smtpException (.response type code (.bytes [])) := by
  refine if_neg ?_
  simp [EmailMessage.recipients, EmailChannel.newEmail, hrecipient]

theorem not_storable_of_negative {m : Message} (hrecipient : m.recipient = "user@example.com") :
    ((answering .connectError (-1)).send m).result.storable = false := by
  unfold EmailChannel.send
  rw [EmailChannel.storable_outcomeOf, backend_answering hrecipient]
  rfl

theorem email_attempt_recorded_greylisted :
    ∃ s m how t,
      System.RunOf System.firstTask ((answering .connectError 421).send m) true s how t ∧
        System.Records s m.id how t := by
  obtain ⟨s, m, hs, hm, hid, hrecipient, hqueued, hbroker, -⟩ := opened
  have hclaim : claim m System.firstTask.id = .claimed := claim_eq_claimed.mpr (.inl hqueued)
  obtain ⟨how, t, hrun⟩ := System.exists_runOf hs hm hid hclaim hbroker
    ((answering .connectError 421).send m) true
  refine ⟨s, m, how, t, hrun,
    (email_attempt_recorded hs hm hid hclaim hbroker (answering .connectError 421) true).mpr ?_
      how t hrun⟩
  rw [backend_answering hrecipient]
  rfl

/-- The server's greeting has no code: `SMTPConnectError(-1, b"")`. Nothing is recorded, and
the message stays in `sending`. -/
theorem email_attempt_lost :
    ∃ s m t, System.Reachable Transition.anyStep s ∧ m ∈ s.db.messages.rows ∧
      System.RunOf System.firstTask ((answering .connectError (-1)).send m) true s .aborted t ∧
      attemptsOf t.db.attempts m.id = [] ∧
      ∃ row ∈ t.db.messages.rows, row.id = m.id ∧ row.status = .sending := by
  obtain ⟨s, m, hs, hm, hid, hrecipient, hqueued, hbroker, -, hnone⟩ := opened
  have hclaim : claim m System.firstTask.id = .claimed := claim_eq_claimed.mpr (.inl hqueued)
  obtain ⟨how, t, hrun⟩ := System.exists_runOf hs hm hid hclaim hbroker
    ((answering .connectError (-1)).send m) true
  obtain ⟨r, now, hend⟩ := hrun.concluded hs hm hid hclaim
  have hlost := not_storable_of_negative hrecipient
  cases hend with
  | aborted _ hstate =>
      exact ⟨s, m, t, hs, hm, hrun, hstate.attempts.trans hnone, _, hstate.row, rfl, rfl⟩
  | finished hstorable =>
      rw [hlost] at hstorable
      contradiction

end Scenario

end NotifyRelay
