import NotifyRelay.Effects
import NotifyRelay.Refinement

/-! Everything in a reachable state belongs to a message whose insert is on record,
and what the insert accepted is never written again. -/
namespace NotifyRelay

open Services Delivery Scheduler

/-- The columns no operation writes after the insert. -/
def Message.frozen (m : Message) : Message :=
  { m with status := .queued, enqueuedAt := none, claimedBy := "", updatedAt := 0 }

/-- `row` is what some call committed. -/
def Accepted (log : List Event) (row : Message) : Prop :=
  ∃ c, Event.inserted c row ∈ log

def Known (log : List Event) (id : MessageId) : Prop :=
  ∃ row, Accepted log row ∧ row.id = id

theorem Accepted.mono {log later : List Event} (hsub : log ⊆ later) {row : Message}
    (h : Accepted log row) : Accepted later row :=
  h.imp fun _ hmem => hsub hmem

theorem Known.mono {log later : List Event} (hsub : log ⊆ later) {id : MessageId}
    (h : Known log id) : Known later id :=
  h.imp fun _ hrow => ⟨hrow.1.mono hsub, hrow.2⟩

theorem not_known_of_fresh {log : List Event} {id : MessageId}
    (h : System.freshMessage log id = true) : ¬Known log id := by
  rintro ⟨row, ⟨c, hmem⟩, rfl⟩
  have hne := List.all_eq_true.mp h _ hmem
  simp at hne

theorem id_eq_of_frozen {a b : Message} (h : a.frozen = b.frozen) : a.id = b.id :=
  congrArg (fun m => m.id) h

theorem scheduledAt_eq_of_frozen {a b : Message} (h : a.frozen = b.frozen) :
    a.scheduledAt = b.scheduledAt :=
  congrArg (fun m => m.scheduledAt) h

theorem idempotencyPair_eq_of_frozen {a b : Message} (h : a.frozen = b.frozen) :
    a.idempotencyPair = b.idempotencyPair :=
  congrArg (fun m => m.idempotencyPair) h

namespace Lifecycle

structure History (v : Lifecycle) : Prop where
  unique : ∀ c row c' row', Event.inserted c row ∈ v.log → Event.inserted c' row' ∈ v.log →
    row.id = row'.id → c = c' ∧ row = row'
  rows : ∀ m ∈ v.messages.rows, ∃ row, Accepted v.log row ∧ row.frozen = m.frozen
  pending : ∀ source, ∀ entry ∈ v.pending source, Known v.log entry.1
  broker : ∀ task ∈ v.broker, Known v.log task.message
  runs : ∀ (r : Nat) (run : DeliveryRun), v.runs[r]? = some run →
    run.task.message = run.message.id ∧ ∃ row, Accepted v.log row ∧ row.frozen = run.message.frozen
  letters : ∀ letter ∈ v.deadLetters.rows, Known v.log letter.message
  attempts : ∀ entry ∈ v.attempts.rows, Known v.log entry.message
  doomed : ∀ id ∈ v.doomed, Known v.log id
  terminal : ∀ m ∈ v.messages.rows, m.id ∈ v.doomed → m.status.terminal = true
  released : ∀ b id stamp, Event.released b id stamp ∈ v.log → Known v.log id

variable {v w : Lifecycle} {a : System.Action}

theorem History.known_row (h : History v) {m : Message} (hm : m ∈ v.messages.rows) :
    Known v.log m.id := by
  obtain ⟨row, hrow, hfrozen⟩ := h.rows m hm
  exact ⟨row, hrow, id_eq_of_frozen hfrozen⟩

theorem History.known_run (h : History v) {r : Nat} {run : DeliveryRun}
    (hrun : v.runs[r]? = some run) : Known v.log run.message.id := by
  obtain ⟨_, row, hrow, hfrozen⟩ := h.runs r run hrun
  exact ⟨row, hrow, id_eq_of_frozen hfrozen⟩

/-- Two states of one row agree on what was accepted. -/
theorem History.frozen_eq (h : History v) {m : Message} (hm : m ∈ v.messages.rows)
    {log : List Event} (hsub : log ⊆ v.log) {old row : Message} (hrow : Accepted log row)
    (hold : row.frozen = old.frozen) (hid : m.id = old.id) : m.frozen = old.frozen := by
  obtain ⟨c, hrow⟩ := hrow
  obtain ⟨row', ⟨c', hrow'⟩, hfrozen⟩ := h.rows m hm
  have hids : row'.id = row.id :=
    (id_eq_of_frozen hfrozen).trans (hid.trans (id_eq_of_frozen hold).symm)
  obtain ⟨_, heq⟩ := h.unique c' row' c row hrow' (hsub hrow) hids
  rw [← hfrozen, heq, hold]

theorem history_init (clock : Time) : History (init clock) := by
  constructor <;> simp [init, Table.empty]

/-- A message that is on record is not inserted again. -/
theorem Step.old_row (h : Step v a w) {m : Message} (hm : m ∈ w.messages.rows)
    (hknown : Known v.log m.id) : ∃ old ∈ v.messages.rows, old.id = m.id := by
  cases h.row hm with
  | kept hold => exact ⟨m, hold, rfl⟩
  | inserted hfresh => exact absurd hknown (not_known_of_fresh hfresh)
  | released hold => exact ⟨_, hold, rfl⟩
  | claimed _ hold => exact ⟨_, hold, rfl⟩
  | finished _ _ hold => exact ⟨_, hold, rfl⟩

/-- The row of a terminal message: nobody takes it up again. -/
theorem History.terminal_step (h : History v) (hstep : Step v a w) {m : Message}
    (hm : m ∈ w.messages.rows) (hdoomed : m.id ∈ v.doomed) : m.status.terminal = true := by
  cases hstep.row hm with
  | kept hold => exact h.terminal m hold hdoomed
  | inserted hfresh => exact absurd (h.doomed _ hdoomed) (not_known_of_fresh hfresh)
  | released hold hfilter =>
      have hterminal := h.terminal _ hold hdoomed
      rw [not_dispatchFilter_of_terminal hterminal] at hfilter
      contradiction
  | claimed _ hold _ hclaim =>
      have hterminal := h.terminal _ hold hdoomed
      rw [claim_of_terminal hterminal] at hclaim
      contradiction
  | finished _ _ _ _ hverdict => exact terminal_of_verdict hverdict

theorem History.step (h : History v) (hstep : Step v a w) : History w := by
  have hsub := hstep.log_subset
  have hrows : ∀ m ∈ w.messages.rows, ∃ row, Accepted w.log row ∧ row.frozen = m.frozen := by
    intro m hm
    have hold : ∀ old ∈ v.messages.rows, old.frozen = m.frozen →
        ∃ row, Accepted w.log row ∧ row.frozen = m.frozen := by
      intro old hmem hfrozen
      obtain ⟨row, hrow, heq⟩ := h.rows old hmem
      exact ⟨row, hrow.mono hsub, heq.trans hfrozen⟩
    cases hstep.row hm with
    | kept hm => exact hold m hm rfl
    | inserted _ _ hlog => exact ⟨_, ⟨_, hlog⟩, rfl⟩
    | released hmem => exact hold _ hmem rfl
    | claimed _ hmem => exact hold _ hmem rfl
    | finished _ _ hmem => exact hold _ hmem rfl
  have hrow : ∀ m ∈ w.messages.rows, Known w.log m.id := by
    intro m hm
    obtain ⟨row, haccepted, hfrozen⟩ := hrows m hm
    exact ⟨row, haccepted, id_eq_of_frozen hfrozen⟩
  constructor
  case rows => exact hrows
  case unique =>
    intro c row c' row' hmem hmem' hid
    rcases hstep.event hmem with hold | hnew
    · rcases hstep.event hmem' with hold' | hnew'
      · exact h.unique c row c' row' hold hold' hid
      · cases hnew' with
        | inserted _ hfresh => exact absurd ⟨row, ⟨c, hold⟩, hid⟩ (not_known_of_fresh hfresh)
    · cases hnew with
      | inserted _ hfresh _ hlog =>
          rw [hlog] at hmem'
          rcases List.mem_cons.mp hmem' with heq | hold'
          · cases heq
            exact ⟨rfl, rfl⟩
          · exact absurd ⟨row', ⟨c', hold'⟩, hid.symm⟩ (not_known_of_fresh hfresh)
  case pending =>
    intro source entry hentry
    rcases hstep.pending hentry with hold | ⟨m, hm, hid, _⟩
    · exact (h.pending source entry hold).mono hsub
    · exact hid ▸ hrow m hm
  case broker =>
    intro task htask
    rcases hstep.broker htask with hold | ⟨source, stamp, hpending⟩ | ⟨r, run, hrun, rfl⟩
    · exact (h.broker task hold).mono hsub
    · exact (h.pending source _ hpending).mono hsub
    · exact ((h.runs r run hrun).1 ▸ h.known_run hrun).mono hsub
  case runs =>
    intro r run hrun
    cases hstep.run hrun with
    | kept hold =>
        obtain ⟨htask, row, hrow, hfrozen⟩ := h.runs r run hold
        exact ⟨htask, row, hrow.mono hsub, hfrozen⟩
    | claimed _ hfind =>
        obtain ⟨hmem, hid⟩ := v.messages.find?_eq_some.mp hfind
        obtain ⟨row, hrow, hfrozen⟩ := h.rows _ hmem
        exact ⟨hid.symm, row, hrow.mono hsub, hfrozen⟩
    | moved hold =>
        obtain ⟨htask, row, hrow, hfrozen⟩ := h.runs r _ hold
        exact ⟨htask, row, hrow.mono hsub, hfrozen⟩
  case letters =>
    intro letter hletter
    rcases hstep.letter hletter with hold | ⟨r, run, status, hrun, _, _, _, hid, _⟩
    · exact (h.letters letter hold).mono hsub
    · exact hid ▸ (h.known_run hrun).mono hsub
  case attempts =>
    intro entry hentry
    rcases hstep.attempt_row hentry with hold | ⟨r, run, _, _, _, _, _, hrun, _, rfl, _⟩
    · exact (h.attempts entry hold).mono hsub
    · exact (h.known_run hrun).mono hsub
  case doomed =>
    intro id hid
    rcases hstep.doomed hid with hold | ⟨_, m, hm, rfl, _⟩
    · exact (h.doomed id hold).mono hsub
    · exact (h.known_row hm).mono hsub
  case terminal =>
    intro m hm hid
    rcases hstep.doomed hid with hold | ⟨hsame, m', hm', hkey, hterminal⟩
    · exact h.terminal_step hstep hm hold
    · rw [hsame] at hm
      exact v.messages.eq_of_key hm' hm hkey ▸ hterminal
  case released =>
    intro b id stamp hmem
    rcases hstep.event hmem with hold | hnew
    · exact (h.released b id stamp hold).mono hsub
    · cases hnew with
      | released _ hm => exact (h.known_row hm).mono hsub

end Lifecycle

theorem System.history {allowed : System → System.Action → Prop} {s : System}
    (h : System.Reachable allowed s) : Lifecycle.History s.view :=
  System.invariant_of_lifecycle Transition.anyStep Lifecycle.History (fun _ _ _ => trivial)
    Lifecycle.history_init (fun _ _ _ hinv _ hstep => hinv.step hstep) h

end NotifyRelay
