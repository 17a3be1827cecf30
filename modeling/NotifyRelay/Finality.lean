import NotifyRelay.History

/-! When the end of a message is final. The terminal writes of `_dispatch` come after the
channel, outside the row lock, so they are final only if runs of one message do not
overlap. -/
namespace NotifyRelay

open Services Delivery Scheduler

namespace Lifecycle

/-- No delivery gets through the claim check while another run of the same message is
between its claim and its end. -/
def Exclusive (v : Lifecycle) (a : System.Action) : Prop :=
  ∀ task ∈ a.delivered, ∀ m ∈ v.messages.find? task.message,
    Delivery.claim m task.id = .claimed →
      ∀ run ∈ v.runs, run.live = true → run.task.message ≠ task.message

instance (v : Lifecycle) (a : System.Action) : Decidable (Exclusive v a) :=
  inferInstanceAs (Decidable (∀ task ∈ a.delivered, ∀ m ∈ v.messages.find? task.message, _ →
    ∀ run ∈ v.runs, _ → _))

structure Final (v : Lifecycle) : Prop where
  alone : ∀ (r r' : Nat) (run run' : DeliveryRun), v.runs[r]? = some run → run.live = true →
    v.runs[r']? = some run' → run'.live = true → run.message.id = run'.message.id → r = r'
  unfinished : ∀ (r : Nat) (run : DeliveryRun), v.runs[r]? = some run → run.live = true →
    ∀ m ∈ v.messages.rows, m.id = run.message.id → m.status.terminal = false
  letters : ∀ letter ∈ v.deadLetters.rows, ∀ m ∈ v.messages.rows, m.id = letter.message →
    m.status = .failed ∨ m.status = .dead

variable {v w : Lifecycle} {a : System.Action}

theorem final_init (clock : Time) : Final (init clock) := by
  constructor <;> simp [init, Table.empty]

/-- A terminal row only changes when a run of its message ends. -/
theorem terminal_row_step (hstep : Step v a w) {m m' : Message} (hm : m ∈ v.messages.rows)
    (hhistory : History v) (hterminal : m.status.terminal = true) (hm' : m' ∈ w.messages.rows)
    (hid : m'.id = m.id) :
    m' = m ∨ m'.status.terminal = true ∧ ∃ (r : Nat) (run : DeliveryRun) (accepted : Bool),
      a = .run r (.finish accepted) ∧ v.runs[r]? = some run ∧ run.live = true ∧
        run.message.id = m.id := by
  have hsame : ∀ {old : Message}, old ∈ v.messages.rows → old.id = m'.id → old = m :=
    fun hold hkey => v.messages.eq_of_key hold hm (hkey.trans hid)
  cases hstep.row hm' with
  | kept hold => exact .inl (hsame hold rfl)
  | inserted hfresh =>
      have hknown := hhistory.known_row hm
      rw [← hid] at hknown
      exact absurd hknown (not_known_of_fresh hfresh)
  | released hold hfilter =>
      cases hsame hold rfl
      rw [not_dispatchFilter_of_terminal hterminal] at hfilter
      contradiction
  | claimed _ hold _ hclaim =>
      cases hsame hold rfl
      rw [claim_of_terminal hterminal] at hclaim
      contradiction
  | finished hrun hpc hold hkey hverdict =>
      cases hsame hold rfl
      exact .inr ⟨terminal_of_verdict hverdict, _, _, _, rfl, hrun, live_of_recorded hpc,
        hkey.symm⟩

theorem Final.status_step (h : Final v) (hhistory : History v) (hstep : Step v a w)
    {m m' : Message} (hm : m ∈ v.messages.rows) (hterminal : m.status.terminal = true)
    (hm' : m' ∈ w.messages.rows) (hid : m'.id = m.id) : m'.status = m.status := by
  rcases terminal_row_step hstep hm hhistory hterminal hm' hid with
    rfl | ⟨_, r, run, _, _, hrun, hlive, hkey⟩
  · rfl
  · rw [h.unfinished r run hrun hlive m hm hkey.symm] at hterminal
    contradiction

/-- A claimed run is the only one of its message. -/
theorem not_live_of_claimed (hhistory : History v) {task : Task} (ha : Exclusive v (.deliver task))
    {message : Message} (hfind : v.messages.find? task.message = some message)
    (hclaim : Delivery.claim message task.id = .claimed) {r : Nat} {run : DeliveryRun}
    (hrun : v.runs[r]? = some run) (hid : run.message.id = message.id) : run.live ≠ true := by
  intro hlive
  have hne := ha task rfl message hfind hclaim run (List.mem_of_getElem? hrun) hlive
  exact hne ((hhistory.runs r run hrun).1.trans
    (hid.trans (v.messages.find?_eq_some.mp hfind).2))

theorem Final.step (h : Final v) (hhistory : History v) (ha : Exclusive v a)
    (hstep : Step v a w) : Final w := by
  constructor
  case alone =>
    intro r r' run run' hrun hlive hrun' hlive' hid
    cases hstep.run hrun with
    | kept hold =>
        cases hstep.run hrun' with
        | kept hold' => exact h.alone r r' run run' hold hlive hold' hlive' hid
        | claimed _ hfind hclaim =>
            exact absurd hlive (not_live_of_claimed hhistory ha hfind hclaim hold hid)
        | moved hold' hpc' => exact h.alone r r' run _ hold hlive hold' hpc'.live hid
    | claimed _ hfind hclaim =>
        cases hstep.run hrun' with
        | kept hold' =>
            exact absurd hlive' (not_live_of_claimed hhistory ha hfind hclaim hold' hid.symm)
        | claimed => rfl
    | moved hold hpc =>
        cases hstep.run hrun' with
        | kept hold' => exact h.alone r r' _ run' hold hpc.live hold' hlive' hid
        | moved => rfl
  case unfinished =>
    intro r run hrun hlive m hm hid
    -- the run went on before the step, and the step is not its last one
    have hbefore : ∀ {old : DeliveryRun}, v.runs[r]? = some old → old.live = true →
        old.message.id = m.id → (∀ accepted, a ≠ .run r (.finish accepted)) →
        m.status.terminal = false := by
      intro old hold hlive hkey hfinish
      cases hstep.row hm with
      | kept hmem => exact h.unfinished r old hold hlive m hmem hkey.symm
      | inserted => rfl
      | released => rfl
      | claimed => rfl
      | finished hrun' hpc _ hid' =>
          have heq := h.alone _ r _ old hrun' (live_of_recorded hpc) hold hlive
            (hid'.symm.trans hkey.symm)
          subst heq
          exact absurd rfl (hfinish _)
    cases hstep.run hrun with
    | kept hold hother => exact hbefore hold hlive hid.symm fun _ => hother _
    | claimed _ _ _ hsaved =>
        cases w.messages.eq_of_key hm hsaved hid
        rfl
    | moved hold hpc =>
        refine hbefore hold hpc.live hid.symm fun accepted heq => ?_
        cases heq
        rw [DeliveryRun.live, hpc.ended_of_finish] at hlive
        contradiction
  case letters =>
    intro letter hletter m hm hid
    rcases hstep.letter hletter with hold | ⟨r, run, status, _, _, hstatus, hsaved, hkey, _⟩
    · obtain ⟨old, hmem, hsame⟩ := hstep.old_row hm (hid ▸ hhistory.letters letter hold)
      have hburied := h.letters letter hold old hmem (hsame.trans hid)
      have hterminal : old.status.terminal = true := by
        rcases hburied with heq | heq <;> rw [heq] <;> rfl
      rw [h.status_step hhistory hstep hmem hterminal hm hsame.symm]
      exact hburied
    · rw [hsaved] at hm
      rcases mem_save hm with ⟨_, hne⟩ | ⟨old, _, _, rfl⟩
      · exact absurd (hid.trans hkey) hne
      · exact hstatus

/-- What is known of a message that has reached its end. -/
structure EndedAs (v : Lifecycle) (id : MessageId) (status : MessageStatus) : Prop where
  known : Known v.log id
  rows : ∀ m ∈ v.messages.rows, m.id = id → m.status = status

theorem EndedAs.step {id : MessageId} {status : MessageStatus} (h : EndedAs v id status)
    (hterminal : status.terminal = true) (hfinal : Final v) (hhistory : History v)
    (hstep : Step v a w) : EndedAs w id status := by
  refine ⟨h.known.mono hstep.log_subset, fun m hm hid => ?_⟩
  obtain ⟨old, hmem, hsame⟩ := hstep.old_row hm (hid ▸ h.known)
  have hstatus := h.rows old hmem (hsame.trans hid)
  rw [hfinal.status_step hhistory hstep hmem (hstatus ▸ hterminal) hm hsame.symm]
  exact hstatus

theorem EndedAs.reaches {allowed : Lifecycle → System.Action → Prop}
    (hallowed : ∀ v a, allowed v a → Exclusive v a) {id : MessageId} {status : MessageStatus}
    (h : EndedAs v id status) (hterminal : status.terminal = true) (hhistory : History v)
    (hfinal : Final v) (hreaches : Lifecycle.Reaches allowed v w) : EndedAs w id status := by
  refine hreaches.invariant_of (fun u => History u ∧ Final u) (fun u => EndedAs u id status)
    ⟨hhistory, hfinal⟩
    (fun u a u' hknown ha hstep =>
      ⟨hknown.1.step hstep, hknown.2.step hknown.1 (hallowed u a ha) hstep⟩)
    h ?_
  intro u a u' hknown hinv _ hstep
  exact hinv.step hterminal hknown.2 hknown.1 hstep

end Lifecycle

theorem System.final {allowed : System → System.Action → Prop}
    (hallowed : ∀ s a, allowed s a → Lifecycle.Exclusive s.view a) {s : System}
    (h : System.Reachable allowed s) : Lifecycle.Final s.view :=
  (System.invariant_of_lifecycle Lifecycle.Exclusive
    (fun v => Lifecycle.History v ∧ Lifecycle.Final v) hallowed
    (fun clock => ⟨Lifecycle.history_init clock, Lifecycle.final_init clock⟩)
    (fun _ _ _ hinv ha hstep => ⟨hinv.1.step hstep, hinv.2.step hinv.1 ha hstep⟩) h).2

/-- As long as runs of one message do not overlap, `sent`, `failed` and `dead` are final
and no message that was sent has a dead letter. -/
theorem terminal_final_of_exclusive {s t : System}
    (hs : System.Reachable (fun s a => Lifecycle.Exclusive s.view a) s)
    (hst : System.Reaches (fun s a => Lifecycle.Exclusive s.view a) s t) :
    (∀ m ∈ s.db.messages.rows, m.status.terminal = true →
      ∀ m' ∈ t.db.messages.rows, m'.id = m.id → m'.status = m.status) ∧
    ∀ letter ∈ t.db.deadLetters.rows, ∀ m ∈ t.db.messages.rows,
      m.id = letter.message → m.status ≠ .sent := by
  have hhistory := System.history hs
  constructor
  · intro m hm hterminal m' hm' hid
    have hended : Lifecycle.EndedAs s.view m.id m.status :=
      ⟨hhistory.known_row hm, fun other hother heq =>
        congrArg Message.status (s.db.messages.eq_of_key hother hm heq)⟩
    exact (hended.reaches (fun _ _ ha => ha) hterminal hhistory (System.final (fun _ _ ha => ha) hs)
      (System.reaches_view (fun _ _ ha => ha) hs hst)).rows m' hm' hid
  · intro letter hletter m hm hid hsent
    obtain ⟨clock, hs⟩ := hs
    have hfinal := System.final (fun _ _ ha => ha) ⟨clock, hs.trans hst⟩
    rcases hfinal.letters letter hletter m hm hid with hstatus | hstatus
    · rw [hsent] at hstatus
      contradiction
    · rw [hsent] at hstatus
      contradiction

/-- Run `r` sends, records the attempt and ends. -/
def System.performing (r : Nat) (result : ChannelResult) : List System.Action :=
  [.run r .sendStart, .run r (.sendEnd (.returned result)), .run r .count, .run r .record,
    .run r (.finish true)]

def delivered : ChannelResult := { success := true, transient := false, smtpCode := some 250 }

def rejected : ChannelResult := { success := false, transient := false, smtpCode := some 550 }

/-- A message that was rejected, and whose task is delivered once more. -/
theorem terminal_final_of_exclusive_rejected :
    ∃ s t, System.Reachable (fun s a => Lifecycle.Exclusive s.view a) s ∧
      System.Reaches (fun s a => Lifecycle.Exclusive s.view a) s t ∧
      ∃ m ∈ s.db.messages.rows, m.status = .failed ∧
        ∃ m' ∈ t.db.messages.rows, m'.id = m.id ∧ m'.status = m.status := by
  obtain ⟨s, t, hs, hst, m, hm, hstatus, m', hm', hid⟩ := Transition.exists_pair_of_runAll
    System.step (fun s a => Lifecycle.Exclusive s.view a) (System.init 0)
    (System.opening ++ .deliver System.firstTask :: System.performing 0 rejected)
    ([.deliver System.firstTask])
    (fun s t => ∃ m ∈ s.db.messages.rows, m.status = .failed ∧
      ∃ m' ∈ t.db.messages.rows, m'.id = m.id) (by decide +kernel)
  have hfinal := (terminal_final_of_exclusive ⟨0, hs⟩ hst).1 m hm (by rw [hstatus]; rfl) m' hm' hid
  exact ⟨s, t, ⟨0, hs⟩, hst, m, hm, hstatus, m', hm', hid, hfinal⟩

/-- The broker delivers one task to two workers. The second passes the claim check, as
it has the owner's task id, and overwrites what the first one wrote: `sent` becomes
`failed`, or a message that failed and has its dead letter becomes `sent`. -/
theorem terminal_overwritten_by_second_run :
    (∃ s t, System.Reachable Transition.anyStep s ∧ System.Reaches Transition.anyStep s t ∧
      ∃ m ∈ s.db.messages.rows, m.status = .sent ∧
        ∃ m' ∈ t.db.messages.rows, m'.id = m.id ∧ m'.status = .failed) ∧
    ∃ t, System.Reachable Transition.anyStep t ∧
      ∃ letter ∈ t.db.deadLetters.rows, ∃ m ∈ t.db.messages.rows,
        m.id = letter.message ∧ m.status = .sent := by
  constructor
  · obtain ⟨s, t, hs, hst, hp⟩ := Transition.exists_pair_of_runAll
      System.step Transition.anyStep (System.init 0)
      (System.opening ++ [.deliver System.firstTask, .deliver System.firstTask] ++
        System.performing 0 delivered)
      (System.performing 1 rejected)
      (fun s t => ∃ m ∈ s.db.messages.rows, m.status = .sent ∧
        ∃ m' ∈ t.db.messages.rows, m'.id = m.id ∧ m'.status = .failed) (by decide +kernel)
    exact ⟨s, t, ⟨0, hs⟩, hst, hp⟩
  · obtain ⟨t, ht, hp⟩ := Transition.exists_of_runAll
      System.step Transition.anyStep (System.init 0)
      (System.opening ++ [.deliver System.firstTask, .deliver System.firstTask] ++
        System.performing 0 rejected ++ System.performing 1 delivered)
      (fun t => ∃ letter ∈ t.db.deadLetters.rows, ∃ m ∈ t.db.messages.rows,
        m.id = letter.message ∧ m.status = .sent) (by decide +kernel)
    exact ⟨t, ⟨0, ht⟩, hp⟩

end NotifyRelay
