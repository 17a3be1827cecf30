import NotifyRelay.AttemptRecords

/-! What becomes of a message the SMTP server refuses, at each point of the conversation: how
`EmailChannel.send` classifies it, and where the run that has sent it ends. -/
namespace NotifyRelay

open Delivery

inductive SmtpPhase where
  | greeting
  | helo
  | mailFrom
  | rcptTo
  | data
  deriving DecidableEq, Repr

namespace SmtpPhase

/-- What `smtplib` raises when the server refuses a message to one recipient in this phase.
`text` is what `str` makes of it. -/
def refusal (phase : SmtpPhase) (code : Int) (reply : List UInt8) (text : String)
    (email : EmailMessage) : SmtpException :=
  match phase with
  | .greeting => .response .connectError code (.bytes reply)
  | .helo => .response .heloError code (.bytes reply)
  | .mailFrom => .response (.senderRefused email.fromEmail) code (.bytes reply)
  | .rcptTo => .recipientsRefused (email.recipients.map fun address => (address, code, reply)) text
  | .data => .response .dataError code (.bytes reply)

def refusing (phase : SmtpPhase) (code : Int) (reply : List UInt8) (text : String) :
    EmailBackend := fun email => .smtpException (phase.refusal code reply text email)

end SmtpPhase

namespace System

/-- From `s` to `t` the message gains one attempt and fails. -/
def FailsAtOnce (s : System) (id : MessageId) (how : DeliveryEnd) (t : System) : Prop :=
  how = .deadLetter .failed ∧
  (∃ attempt, attemptsOf t.db.attempts id = attemptsOf s.db.attempts id ++ [attempt]) ∧
  ∃ row ∈ t.db.messages.rows, row.id = id ∧ row.status = .failed

/-- Once the channel has given a permanent failure, the table has the last word. -/
theorem Concluded.failsAtOnce_iff {s t : System} {task : Task} {m : Message} {r : Nat}
    {result : ChannelResult} {accepted : Bool} {how : DeliveryEnd}
    (h : Concluded s task m (attemptsOf s.db.attempts m.id) r result accepted how t)
    (hsuccess : result.success = false) (hpermanent : result.transient = false) :
    FailsAtOnce s m.id how t ↔ result.storable = true := by
  have hverdict : verdict result task.retries =
      .deadLetter .failed ("permanent: " ++ result.errorMessage) := by
    simp [verdict, hsuccess, hpermanent]
  cases h with
  | aborted hstorable =>
      refine iff_of_false (fun hfails => DeliveryEnd.noConfusion hfails.1) ?_
      rw [hstorable]
      exact Bool.false_ne_true
  | @finished _ row started finished hstorable hstate hid howner hstatus =>
      have hattempts := hstate.attempts
      rw [hid] at hattempts
      rw [hverdict] at hstatus ⊢
      exact iff_of_true ⟨rfl, ⟨_, hattempts⟩, row, hstate.row, hid, hstatus⟩ hstorable

end System

/-- A refusal with this code is classified by it, and if it is a permanent one, every run that
meets it fails the message. -/
def Classified (s : System) (task : Task) (m : Message) (code : Int) (outcome : SendOutcome) :
    Prop :=
  ∃ result, outcome = .returned result ∧ result.success = false ∧ result.smtpCode = some code ∧
    (result.transient = true ↔ 400 ≤ code ∧ code < 500) ∧
    (500 ≤ code → ∀ accepted how t, System.RunOf task outcome accepted s how t →
      System.FailsAtOnce s m.id how t)

theorem send_refused (channel : EmailChannel) {message : Message} (h : message.recipient ≠ "")
    {phase : SmtpPhase} {code : Int} {reply : List UInt8} {text : String}
    (hbackend : channel.backend = phase.refusing code reply text) :
    channel.send message = .returned (EmailChannel.exceptionResult
      (phase.refusal code reply text (channel.newEmail message))) := by
  have hrecipients : (channel.newEmail message).recipients ≠ [] := by
    simp [EmailMessage.recipients, EmailChannel.newEmail, h]
  unfold EmailChannel.send EmailMessage.send
  rw [if_neg hrecipients, hbackend]
  rfl

theorem storableInteger_of_code {code : Int} (h : 400 ≤ code ∧ code < 600) :
    storableInteger code = true := by
  simp only [storableInteger, Bool.and_eq_true, decide_eq_true_eq]
  omega

/-- What the channel makes of a refusal that carries its code, in every run of the task. -/
theorem classified_response_iff {s : System} {m : Message} {task : Task}
    (hs : System.Reachable Transition.anyStep s) (hm : m ∈ s.db.messages.rows)
    (hid : m.id = task.message) (hclaim : claim m task.id = .claimed) (hbroker : task ∈ s.broker)
    (type : ResponseException) {code : Int} (hcode : 400 ≤ code ∧ code < 600) (error : SmtpError) :
    Classified s task m code
        (.returned (EmailChannel.exceptionResult (.response type code error))) ↔
      (500 ≤ code → storableText (EmailChannel.errorText error) = true) := by
  have hstorable : (EmailChannel.exceptionResult (.response type code error)).storable =
      storableText (EmailChannel.errorText error) := by
    simp [ChannelResult.storable, EmailChannel.exceptionResult, storableInteger_of_code hcode]
  have hpermanent : 500 ≤ code →
      (EmailChannel.exceptionResult (.response type code error)).transient = false := by
    intro h500
    simp only [EmailChannel.exceptionResult, decide_eq_false_iff_not, not_and, not_lt]
    exact fun _ => h500
  rw [← hstorable]
  constructor
  · rintro ⟨result, ⟨⟩, -, -, -, hfails⟩ h500
    obtain ⟨how, t, hrun⟩ := System.exists_runOf hs hm hid hclaim hbroker
      (.returned (EmailChannel.exceptionResult (.response type code error))) true
    obtain ⟨r, now, hend⟩ := hrun.concluded hs hm hid hclaim
    exact (hend.failsAtOnce_iff rfl (hpermanent h500)).mp (hfails h500 true how t hrun)
  · intro htext
    refine ⟨_, rfl, rfl, rfl, by simp [EmailChannel.exceptionResult], ?_⟩
    intro h500 accepted how t hrun
    obtain ⟨r, now, hend⟩ := hrun.concluded hs hm hid hclaim
    exact (hend.failsAtOnce_iff rfl (hpermanent h500)).mpr (htext h500)

/-- A refused message is classified by the reply code, unless it is the recipient that is
refused, or the text of a permanent refusal is none for the database. -/
theorem smtp_refusal_classified {s : System} {m : Message} {task : Task}
    (hs : System.Reachable Transition.anyStep s) (hm : m ∈ s.db.messages.rows)
    (hid : m.id = task.message) (hclaim : claim m task.id = .claimed) (hbroker : task ∈ s.broker)
    (channel : EmailChannel) (hrecipient : m.recipient ≠ "") {phase : SmtpPhase} {code : Int}
    (hcode : 400 ≤ code ∧ code < 600) {reply : List UInt8} {text : String}
    (hbackend : channel.backend = phase.refusing code reply text) :
    Classified s task m code (channel.send m) ↔
      phase ≠ .rcptTo ∧ (500 ≤ code → storableText (Text.decodeReplace reply) = true) := by
  rw [send_refused channel hrecipient hbackend]
  by_cases hphase : phase = .rcptTo
  · subst hphase
    refine iff_of_false ?_ fun h => h.1 rfl
    rintro ⟨_, ⟨⟩, _, hsmtp, _⟩
    contradiction
  · obtain ⟨type, hrefusal⟩ : ∃ type, phase.refusal code reply text (channel.newEmail m) =
        .response type code (.bytes reply) := by
      cases phase with
      | rcptTo => contradiction
      | _ => exact ⟨_, rfl⟩
    rw [hrefusal, and_iff_right hphase]
    exact classified_response_iff hs hm hid hclaim hbroker type hcode (.bytes reply)

section Scenario

def refusedText : String := "\x7b'user@example.com': (550, b'no')\x7d"

/-- A channel whose server refuses with code 550 and this reply in this phase. -/
def refusingChannel (phase : SmtpPhase) (reply : List UInt8) : EmailChannel where
  defaultFromEmail := some "relay@example.com"
  backend := phase.refusing 550 reply refusedText

theorem smtp_refusal_classified_data : ∃ s m,
    Classified s System.firstTask m 550 ((refusingChannel .data [0x6e, 0x6f]).send m) := by
  obtain ⟨s, m, hs, hm, hid, hrecipient, hqueued, hbroker, -⟩ := opened
  have hclaim : claim m System.firstTask.id = .claimed := claim_eq_claimed.mpr (.inl hqueued)
  have hnonempty : m.recipient ≠ "" := by
    rw [hrecipient]
    decide
  refine ⟨s, m, (smtp_refusal_classified hs hm hid hclaim hbroker
    (refusingChannel .data [0x6e, 0x6f]) hnonempty (by decide) rfl).mpr ⟨by decide, fun _ => ?_⟩⟩
  decide

/-- A mailbox that does not exist is tried again. -/
theorem refused_recipient_retried : ∃ s m how t,
    System.Reachable Transition.anyStep s ∧ m ∈ s.db.messages.rows ∧
      m.recipient = "user@example.com" ∧
      System.RunOf System.firstTask ((refusingChannel .rcptTo [0x6e, 0x6f]).send m) true s how t ∧
      how = .retried ∧
      ¬Classified s System.firstTask m 550 ((refusingChannel .rcptTo [0x6e, 0x6f]).send m) := by
  obtain ⟨s, m, hs, hm, hid, hrecipient, hqueued, hbroker, -⟩ := opened
  have hclaim : claim m System.firstTask.id = .claimed := claim_eq_claimed.mpr (.inl hqueued)
  have hnonempty : m.recipient ≠ "" := by
    rw [hrecipient]
    decide
  have hsend : (refusingChannel .rcptTo [0x6e, 0x6f]).send m =
      .returned { success := false, transient := true, errorMessage := refusedText } :=
    send_refused (refusingChannel .rcptTo [0x6e, 0x6f]) hnonempty rfl
  obtain ⟨how, t, hrun⟩ := System.exists_runOf hs hm hid hclaim hbroker
    ((refusingChannel .rcptTo [0x6e, 0x6f]).send m) true
  obtain ⟨r, now, hend⟩ := hrun.concluded hs hm hid hclaim
  refine ⟨s, m, how, t, hs, hm, hrecipient, hrun, ?_, ?_⟩
  · rw [hsend] at hend
    cases hend with
    | aborted hstorable => exact absurd hstorable (by decide)
    | finished => rfl
  · rw [hsend]
    rintro ⟨_, ⟨⟩, _, hsmtp, _⟩
    contradiction

end Scenario

end NotifyRelay
