import NotifyRelay.Lifecycle

/-! The relay refines the message lifecycle: every step of a process is a step of
the lifecycle or leaves no trace in it. -/
namespace NotifyRelay

open Services Delivery Scheduler

def CreatePc.pending : CreatePc → List (MessageId × Time)
  | .committed message now => [(message.id, now)]
  | _ => []

def CreatePc.spent : CreatePc → Bool
  | .committed .. | .returned .. | .raised _ | .crashed => true
  | _ => false

def BeatPc.pending : BeatPc → List (MessageId × Time)
  | .enqueueing now _ remaining => remaining.map fun m => (m.id, now)
  | _ => []

def BeatPc.spent : BeatPc → Bool
  | .selecting _ => false
  | _ => true

def CleanupPc.doomed : CleanupPc → List MessageId
  | .deleting _ ids => ids
  | _ => []

namespace System

def pending (s : System) : Source → List (MessageId × Time)
  | .call c => (s.calls[c]?.map fun call => call.pc.pending).getD []
  | .beat b => (s.beats[b]?.map BeatPc.pending).getD []

def spent (s : System) : Source → Bool
  | .call c => (s.calls[c]?.map fun call => call.pc.spent).getD false
  | .beat b => (s.beats[b]?.map BeatPc.spent).getD false

def view (s : System) : Lifecycle where
  clock := s.clock
  messages := s.db.messages
  attempts := s.db.attempts
  deadLetters := s.db.deadLetters
  runs := s.runs
  broker := s.broker
  pending := s.pending
  spent := s.spent
  doomed := s.cleanups.flatMap CleanupPc.doomed
  log := s.log

@[simp] theorem view_init (clock : Time) : (init clock).view = Lifecycle.init clock := by
  unfold view Lifecycle.init init
  congr 1 <;> funext source <;> cases source <;> rfl

theorem pending_setCall {s : System} {c : Nat} {call : CreateCall} (h : s.calls[c]? = some call)
    (call' : CreateCall) (pc : CreatePc) :
    (s.setCall c call' pc).pending = Function.update s.pending (.call c) pc.pending := by
  funext source
  cases source with
  | beat b => rfl
  | call d =>
      by_cases hd : d = c
      · subst hd
        simp [pending, setCall, Pool.get_set h]
      · simp [pending, setCall, Pool.get_set h, hd]

theorem spent_setCall {s : System} {c : Nat} {call : CreateCall} (h : s.calls[c]? = some call)
    (call' : CreateCall) (pc : CreatePc) :
    (s.setCall c call' pc).spent = Function.update s.spent (.call c) pc.spent := by
  funext source
  cases source with
  | beat b => rfl
  | call d =>
      by_cases hd : d = c
      · subst hd
        simp [spent, setCall, Pool.get_set h]
      · simp [spent, setCall, Pool.get_set h, hd]

theorem pending_setBeat {s : System} {b : Nat} {old : BeatPc} (h : s.beats[b]? = some old)
    (pc : BeatPc) :
    (s.setBeat b pc).pending = Function.update s.pending (.beat b) pc.pending := by
  funext source
  cases source with
  | call c => rfl
  | beat d =>
      by_cases hd : d = b
      · subst hd
        simp [pending, setBeat, Pool.get_set h]
      · simp [pending, setBeat, Pool.get_set h, hd]

theorem spent_setBeat {s : System} {b : Nat} {old : BeatPc} (h : s.beats[b]? = some old)
    (pc : BeatPc) :
    (s.setBeat b pc).spent = Function.update s.spent (.beat b) pc.spent := by
  funext source
  cases source with
  | call c => rfl
  | beat d =>
      by_cases hd : d = b
      · subst hd
        simp [spent, setBeat, Pool.get_set h]
      · simp [spent, setBeat, Pool.get_set h, hd]

/-- A call that stamps nothing any more. -/
theorem view_setCall_settled {s : System} {c : Nat} {call : CreateCall}
    (h : s.calls[c]? = some call) (call' : CreateCall) (pc : CreatePc) (hpc : pc.spent = true) :
    (s.setCall c call' pc).view = s.view.settled (.call c) pc.pending := by
  unfold view Lifecycle.settled
  rw [pending_setCall h, spent_setCall h, hpc]
  rfl

/-- A call that is still on its way to the insert. -/
theorem view_setCall_running {s : System} {c : Nat} {call : CreateCall}
    (h : s.calls[c]? = some call) (call' : CreateCall) {pc : CreatePc}
    (hold : call.pc.spent = false) (hpc : pc.spent = false) :
    (s.setCall c call' pc).view = s.view := by
  have hquiet : ∀ pc : CreatePc, pc.spent = false → pc.pending = [] := by
    intro pc hspent
    cases pc <;> simp_all [CreatePc.spent, CreatePc.pending]
  unfold view
  rw [pending_setCall h, spent_setCall h, hpc, hquiet pc hpc,
    Function.update_eq_self_iff.mpr (by simp [pending, h, hquiet _ hold]),
    Function.update_eq_self_iff.mpr (by simp [spent, h, hold])]
  rfl

theorem view_setBeat_settled {s : System} {b : Nat} {old : BeatPc} (h : s.beats[b]? = some old)
    {pc : BeatPc} (hpc : pc.spent = true) :
    (s.setBeat b pc).view = s.view.settled (.beat b) pc.pending := by
  unfold view Lifecycle.settled
  rw [pending_setBeat h, spent_setBeat h, hpc]
  rfl

/-- A process that has only just begun has no trace yet. -/
theorem view_spawn_call (s : System) (call : CreateCall) (hcall : call.pc = .begun) :
    ({ s with calls := Pool.spawn s.calls call } : System).view = s.view := by
  unfold view
  congr 1 <;> funext source <;> cases source with
  | beat b => rfl
  | call d =>
      by_cases hd : d = Pool.next s.calls
      · subst hd
        simp [pending, spent, Pool.get_spawn, Pool.get_next_eq_none, hcall, CreatePc.pending,
          CreatePc.spent]
      · simp [pending, spent, Pool.get_spawn, hd]

theorem view_spawn_beat (s : System) (now : Time) :
    ({ s with beats := Pool.spawn s.beats (.selecting now) } : System).view = s.view := by
  unfold view
  congr 1 <;> funext source <;> cases source with
  | call c => rfl
  | beat d =>
      by_cases hd : d = Pool.next s.beats
      · subst hd
        simp [pending, spent, Pool.get_spawn, Pool.get_next_eq_none, BeatPc.pending,
          BeatPc.spent]
      · simp [pending, spent, Pool.get_spawn, hd]

/-- The readings of the clock that are still to be used are not from the future. -/
structure ReadingsPast (s : System) : Prop where
  calls : ∀ call ∈ s.calls, ∀ version rendered now,
    call.pc = .timed version rendered now → now ≤ s.clock
  beats : ∀ now, BeatPc.selecting now ∈ s.beats → now ≤ s.clock

theorem ReadingsPast.setCall {s : System} (h : ReadingsPast s) (c : Nat) (call : CreateCall)
    (pc : CreatePc)
    (hpc : ∀ version rendered now, pc = .timed version rendered now → now ≤ s.clock) :
    ReadingsPast (s.setCall c call pc) := by
  refine ⟨fun other hother version rendered now heq => ?_, h.beats⟩
  rcases List.mem_or_eq_of_mem_set hother with hold | rfl
  · exact h.calls other hold version rendered now heq
  · exact hpc version rendered now heq

theorem ReadingsPast.setBeat {s : System} (h : ReadingsPast s) (b : Nat) (pc : BeatPc)
    (hpc : ∀ now, pc ≠ .selecting now) : ReadingsPast (s.setBeat b pc) := by
  refine ⟨h.calls, fun now hmem => ?_⟩
  rcases List.mem_or_eq_of_mem_set hmem with hold | heq
  · exact h.beats now hold
  · exact absurd heq.symm (hpc now)

private theorem replayed_spent (context : PyContext) (existing : Message) (data : MessageData) :
    (replayed context existing data).spent = true ∧
      (replayed context existing data).pending = [] := by
  unfold replayed
  split <;> exact ⟨rfl, rfl⟩

private theorem afterInsert_spent (data : MessageData) (message : Message) (now : Time) :
    (afterInsert data message now).spent = true := by
  unfold afterInsert
  split <;> rfl

private theorem afterInsert_pending (data : MessageData) (message : Message) (now : Time) :
    (afterInsert data message now).pending =
      if sendNow data now then [(message.id, now)] else [] := by
  unfold afterInsert
  split <;> rfl

private theorem not_timed_of_spent {pc : CreatePc} (hspent : pc.spent = true)
    (version : TemplateVersion) (rendered : RenderOutcome) (now : Time) :
    pc ≠ .timed version rendered now := by
  rintro rfl
  cases hspent

/-- One process step and the trace it leaves. -/
def Refines (s : System) (a : Action) (t : System) : Prop :=
  ReadingsPast t ∧ (s.view = t.view ∨ Lifecycle.Step s.view a t.view)

/-- A call that ends without an insert. -/
private theorem refines_settle {s : System} {c : Nat} {call : CreateCall} {action : CallAction}
    (hcall : s.calls[c]? = some call) (hpast : ReadingsPast s) {pc : CreatePc}
    (hspent : pc.spent = true) (hpending : pc.pending = []) :
    Refines s (.call c action) (s.setCall c call pc) := by
  refine ⟨hpast.setCall c call _ fun version rendered now heq =>
    absurd heq (not_timed_of_spent hspent version rendered now), .inr ?_⟩
  rw [view_setCall_settled hcall call _ hspent, hpending]
  exact .settle _ _ _ rfl

private theorem refines_running {s : System} {c : Nat} {call : CreateCall} {a : Action}
    (hcall : s.calls[c]? = some call) (hpast : ReadingsPast s) (call' : CreateCall)
    {pc : CreatePc} (hold : call.pc.spent = false) (hpc : pc.spent = false)
    (htimed : ∀ version rendered now, pc = .timed version rendered now → now ≤ s.clock) :
    Refines s a (s.setCall c call' pc) :=
  ⟨hpast.setCall c call' _ htimed, .inl (view_setCall_running hcall call' hold hpc).symm⟩

private theorem refines_insert {s : System} {c : Nat} {call : CreateCall}
    {version : TemplateVersion} {rendered : RenderOutcome} {context : JsonObject} {now : Time}
    {id : MessageId} {message : Message} {messages : MessageTable} (postgres : Postgres)
    (hcall : s.calls[c]? = some call) (hpast : ReadingsPast s)
    (hpc : call.pc = .timed version rendered now) (hfresh : freshMessage s.log id = true)
    (hmessage : message = newMessage id call.apiKey call.idempotencyKey call.data version
      rendered.toRenderedMessage context now s.clock)
    (hinsert : s.db.messages.insert? message = some messages) :
    Refines s (.call c (.insert id postgres))
      (((s.setCall c call (afterInsert call.data message now)).setMessages messages).record
        [.inserted c message]) := by
  subst hmessage
  have hnow : now ≤ s.clock :=
    hpast.calls call (List.mem_of_getElem? hcall) version rendered now hpc
  have hspent : s.view.spent (.call c) = false := by
    simp [view, spent, hcall, hpc, CreatePc.spent]
  have hafter := afterInsert_spent call.data (newMessage id call.apiKey call.idempotencyKey
    call.data version rendered.toRenderedMessage context now s.clock) now
  have hcalls := hpast.setCall c call _ fun version rendered now heq =>
    absurd heq (not_timed_of_spent hafter version rendered now)
  refine ⟨⟨hcalls.calls, hcalls.beats⟩, .inr ?_⟩
  have hstep := Lifecycle.Step.insert s.view c id call.apiKey call.idempotencyKey call.data
    version rendered.toRenderedMessage context now postgres messages hspent hfresh hnow hinsert
  have hview := view_setCall_settled hcall call _ hafter
  rw [afterInsert_pending] at hview
  change Lifecycle.Step s.view _ (((System.view (s.setCall c call _)).setMessages
    messages).record [.inserted c _])
  rw [hview]
  exact hstep

private theorem refines_publish {s : System} {c : Nat} {call : CreateCall} {message : Message}
    {now : Time} {id : TaskId} (hcall : s.calls[c]? = some call) (hpast : ReadingsPast s)
    (hpc : call.pc = .committed message now) (hfresh : freshTask s.log id = true) :
    Refines s (.call c (.publish id true))
      (((s.setCall c call (.returned message true)).accept (enqueueFor message id)).record
        [.published (.call c) (enqueueFor message id) now s.clock]) := by
  have hcalls := hpast.setCall c call (.returned message true) (by simp)
  refine ⟨⟨hcalls.calls, hcalls.beats⟩, .inr ?_⟩
  have hpending : s.view.pending (.call c) = (message.id, now) :: [] := by
    simp [view, pending, hcall, hpc, CreatePc.pending]
  have hview := view_setCall_settled hcall call (.returned message true) rfl
  change Lifecycle.Step s.view _ (((System.view (s.setCall c call _)).accept _).record _)
  rw [hview]
  exact .publish _ _ _ message now [] id rfl hpending hfresh

theorem stepCall_refines {s t : System} {c : Nat} {call : CreateCall} {action : CallAction}
    (hcall : s.calls[c]? = some call) (hpast : ReadingsPast s)
    (h : s.stepCall c call action call.pc = some t) : Refines s (.call c action) t := by
  unfold stepCall at h
  split at h
  case h_1 hpc =>
    -- the first lookup
    split at h <;> cases h
    · exact refines_settle hcall hpast (replayed_spent _ _ _).1 (replayed_spent _ _ _).2
    · exact refines_running hcall hpast call (by rw [hpc]; rfl) rfl (by simp)
  case h_2 engine hpc =>
    split at h <;> cases h
    · exact refines_settle hcall hpast rfl rfl
    · exact refines_running hcall hpast call (by rw [hpc]; rfl) rfl (by simp)
  case h_3 version rendered hpc =>
    cases h
    refine refines_running hcall hpast _ (by rw [hpc]; rfl) rfl ?_
    intro _ _ now heq
    cases heq
    exact Int.le_refl _
  case h_4 id postgres version rendered now hpc =>
    split at h
    next hfresh =>
      split at h
      next =>
        cases h
        exact refines_settle hcall hpast rfl rfl
      next =>
        dsimp only at h
        split at h <;> cases h
        next messages hinsert => exact refines_insert postgres hcall hpast hpc hfresh rfl hinsert
        next => exact refines_running hcall hpast call (by rw [hpc]; rfl) rfl (by simp)
    next => contradiction
  case h_5 hpc =>
    -- the lookup after the lost race
    split at h <;> cases h
    · exact refines_settle hcall hpast (replayed_spent _ _ _).1 (replayed_spent _ _ _).2
    · exact refines_settle hcall hpast rfl rfl
  case h_6 id accepted message now hpc =>
    dsimp only at h
    split at h
    next haccepted =>
      split at h <;> cases h
      next hfresh =>
        subst haccepted
        exact refines_publish hcall hpast hpc hfresh
    next =>
      cases h
      have hcalls := hpast.setCall c call (.returned message true) (by simp)
      refine ⟨⟨hcalls.calls, hcalls.beats⟩, .inr ?_⟩
      have hview := view_setCall_settled hcall call (.returned message true) rfl
      change Lifecycle.Step s.view _ ((System.view (s.setCall c call _)).record _)
      rw [hview]
      exact .refuse _ _ _ _ rfl
  case h_7 pc =>
    split at h <;> cases h
    exact refines_settle hcall hpast rfl rfl
  case h_8 => contradiction

theorem stepBeat_refines {s t : System} {b : Nat} {pc : BeatPc} {action : BeatAction}
    (hbeat : s.beats[b]? = some pc) (hpast : ReadingsPast s)
    (h : s.stepBeat b action pc = some t) : Refines s (.beat b action) t := by
  unfold stepBeat at h
  split at h
  case h_1 locked now =>
    -- lock, update and commit
    cases h
    have hnow : now ≤ s.clock := hpast.beats now (List.mem_of_getElem? hbeat)
    have hspent : s.view.spent (.beat b) = false := by
      simp [view, spent, hbeat, BeatPc.spent]
    have hbeats := hpast.setBeat b (.enqueueing now
      (dispatchBatch s.db.messages now locked).length
      (dispatchBatch s.db.messages now locked)) (by simp)
    refine ⟨⟨hbeats.calls, hbeats.beats⟩, .inr ?_⟩
    have hstep := Lifecycle.Step.release s.view b now locked hspent hnow
    change Lifecycle.Step s.view _ (((System.view (s.setBeat b _)).setMessages _).record _)
    rw [view_setBeat_settled hbeat rfl]
    exact hstep
  case h_2 id accepted now count message rest =>
    split at h
    next =>
      split at h
      next hfresh =>
        cases h
        have hbeats := hpast.setBeat b (.enqueueing now count rest) (by simp)
        refine ⟨⟨hbeats.calls, hbeats.beats⟩, .inr ?_⟩
        have hpending : s.view.pending (.beat b) =
            (message.id, now) :: rest.map fun m => (m.id, now) := by
          simp [view, pending, hbeat, BeatPc.pending]
        change Lifecycle.Step s.view _ (((System.view (s.setBeat b _)).accept _).record _)
        rw [view_setBeat_settled hbeat rfl]
        exact .publish _ _ _ message now _ id rfl hpending hfresh
      next => contradiction
    next =>
      cases h
      have hbeats := hpast.setBeat b (.failed) (by simp)
      refine ⟨⟨hbeats.calls, hbeats.beats⟩, .inr ?_⟩
      change Lifecycle.Step s.view _ ((System.view (s.setBeat b _)).record _)
      rw [view_setBeat_settled hbeat rfl]
      exact .refuse _ _ _ _ rfl
  case h_3 now count =>
    cases h
    refine ⟨hpast.setBeat b _ (by simp), .inr ?_⟩
    rw [view_setBeat_settled hbeat rfl]
    exact .settle _ _ _ rfl
  case h_4 pc =>
    split at h
    next =>
      cases h
      refine ⟨hpast.setBeat b _ (by simp), .inr ?_⟩
      rw [view_setBeat_settled hbeat rfl]
      exact .settle _ _ _ rfl
    next => contradiction
  case h_5 => contradiction

/-- A step that moves neither the clock nor a call or a Beat job. -/
private theorem ReadingsPast.of_eq {s t : System} (h : ReadingsPast s) (hclock : t.clock = s.clock)
    (hcalls : t.calls = s.calls) (hbeats : t.beats = s.beats) : ReadingsPast t := by
  refine ⟨?_, ?_⟩
  · rw [hcalls, hclock]
    exact h.calls
  · rw [hbeats, hclock]
    exact h.beats

theorem stepDeliver_refines {s t : System} {task : Task} (hpast : ReadingsPast s)
    (h : s.stepDeliver task = some t) : Refines s (.deliver task) t := by
  unfold stepDeliver at h
  split at h
  next hbroker =>
    split at h
    next =>
      cases h
      exact ⟨hpast.of_eq rfl rfl rfl, .inr (.decline s.view task .missing)⟩
    next message hrow =>
      split at h <;> cases h
      next => exact ⟨hpast.of_eq rfl rfl rfl, .inr (.decline s.view task .noop)⟩
      next => exact ⟨hpast.of_eq rfl rfl rfl, .inr (.decline s.view task .duplicate)⟩
      next hclaim =>
        exact ⟨hpast.of_eq rfl rfl rfl, .inr (.claim s.view task message hbroker hrow hclaim)⟩
  next => contradiction

theorem stepRun_refines {s t : System} {r : Nat} {run : DeliveryRun} {action : RunAction}
    (hrun : s.runs[r]? = some run) (hpast : ReadingsPast s)
    (h : s.stepRun r run action run.pc = some t) : Refines s (.run r action) t := by
  unfold stepRun at h
  split at h
  case h_1 hpc =>
    cases h
    exact ⟨hpast.of_eq rfl rfl rfl, .inr (.sendStart s.view r run hrun hpc)⟩
  case h_2 outcome started hpc =>
    cases h
    exact ⟨hpast.of_eq rfl rfl rfl, .inr (.sendEnd s.view r run started outcome hrun hpc)⟩
  case h_3 started finished result hpc =>
    cases h
    exact ⟨hpast.of_eq rfl rfl rfl, .inr (.count s.view r run started finished result hrun hpc)⟩
  case h_4 started finished result attemptNo hpc =>
    split at h <;> cases h
    next db hdb =>
      obtain ⟨attempts, hinsert, rfl, hrow, hchecks⟩ := insertAttempt_eq_some hdb
      exact ⟨hpast.of_eq rfl rfl rfl, .inr (.attempt s.view r run started finished result
        attemptNo attempts hrun hpc hrow hchecks hinsert)⟩
    next =>
      exact ⟨hpast.of_eq rfl rfl rfl, .inr (.abort s.view r run started finished result
        attemptNo hrun hpc)⟩
  case h_5 accepted result hpc =>
    split at h
    next hverdict =>
      split at h <;> cases h
      next db hdb =>
        obtain ⟨_, rfl⟩ := saveSent_eq_some hdb
        exact ⟨hpast.of_eq rfl rfl rfl, .inr (.sent s.view r run result accepted hrun hpc
          hverdict)⟩
      next hdb =>
        exact ⟨hpast.of_eq rfl rfl rfl, .inr (.orphan s.view r run result accepted hrun hpc
          (saveSent_eq_none.mp hdb))⟩
    next status reason hverdict =>
      split at h <;> cases h
      next db hdb =>
        obtain ⟨hrow, hmessages, hattempts, _, _, hletters⟩ := moveToDeadLetter_eq_some hdb
        refine ⟨hpast.of_eq rfl rfl rfl, .inr ?_⟩
        have hstep := Lifecycle.Step.bury s.view r run result accepted status reason
          db.deadLetters hrun hpc hverdict hrow hletters
        change Lifecycle.Step s.view _ { s.view.setRun r run _ with
          messages := db.messages, attempts := db.attempts, deadLetters := db.deadLetters }
        rw [hmessages, hattempts]
        exact hstep
      next hdb =>
        exact ⟨hpast.of_eq rfl rfl rfl, .inr (.orphan s.view r run result accepted hrun hpc
          (moveToDeadLetter_eq_none.mp hdb))⟩
    next text hverdict =>
      have hstep := Lifecycle.Step.retry s.view r run result text accepted hrun hpc hverdict
      dsimp only at h
      split at h <;> cases h
      next haccepted =>
        subst haccepted
        exact ⟨hpast.of_eq rfl rfl rfl, .inr hstep⟩
      next haccepted =>
        rw [Bool.not_eq_true] at haccepted
        subst haccepted
        exact ⟨hpast.of_eq rfl rfl rfl, .inr hstep⟩
  case h_6 pc hpc =>
    split at h <;> cases h
    next hlive => exact ⟨hpast.of_eq rfl rfl rfl, .inr (.crash s.view r run hrun hlive)⟩
  case h_7 => contradiction

private theorem mem_doomed_setCleanup {s : System} {k : Nat} {pc : CleanupPc} {id : MessageId}
    (h : id ∈ (s.setCleanup k pc).view.doomed) : id ∈ s.view.doomed ∨ id ∈ pc.doomed := by
  obtain ⟨other, hother, hid⟩ := List.mem_flatMap.mp h
  rcases List.mem_or_eq_of_mem_set hother with hold | rfl
  · exact .inl (List.mem_flatMap.mpr ⟨other, hold, hid⟩)
  · exact .inr hid

theorem stepCleanup_refines {s t : System} {k : Nat} {pc : CleanupPc} {action : CleanupAction}
    (hcleanup : s.cleanups[k]? = some pc) (hpast : ReadingsPast s)
    (h : s.stepCleanup k action pc = some t) : Refines s (.cleanup k action) t := by
  -- a job that dooms nothing new
  have hquiet : ∀ pc : CleanupPc, pc.doomed = [] → Refines s (.cleanup k action)
      (s.setCleanup k pc) := by
    intro pc hpc
    refine ⟨hpast.of_eq rfl rfl rfl, .inr ?_⟩
    refine Lifecycle.Step.doom s.view k action (s.setCleanup k pc).view.doomed fun id hid => ?_
    rcases mem_doomed_setCleanup hid with hold | hnew
    · exact .inl hold
    · rw [hpc] at hnew
      contradiction
  unfold stepCleanup at h
  split at h
  case h_1 cutoff =>
    split at h <;> cases h
    next => exact hquiet _ rfl
    next hids =>
      refine ⟨hpast.of_eq rfl rfl rfl, .inr ?_⟩
      refine Lifecycle.Step.doom s.view k _ (s.setCleanup k (.deleting cutoff _)).view.doomed
        fun id hid => ?_
      rcases mem_doomed_setCleanup hid with hold | hnew
      · exact .inl hold
      · obtain ⟨m, hm, hkey, hfilter⟩ := mem_cleanupBatch hnew
        rw [cleanupFilter, Bool.and_eq_true] at hfilter
        exact .inr ⟨m, hm, hkey, hfilter.1⟩
  case h_2 cutoff ids =>
    have hids : ∀ id ∈ ids, id ∈ s.view.doomed := fun id hid =>
      List.mem_flatMap.mpr ⟨_, List.mem_of_getElem? hcleanup, hid⟩
    have hdelete : ∀ pc : CleanupPc, pc.doomed = [] → Refines s (.cleanup k .delete)
        ((s.setDb (deleteMessages s.db ids)).setCleanup k pc) := by
      intro pc hpc
      refine ⟨hpast.of_eq rfl rfl rfl, .inr ?_⟩
      refine Lifecycle.Step.delete s.view k ids (s.setCleanup k pc).view.doomed hids
        fun id hid => ?_
      rcases mem_doomed_setCleanup hid with hold | hnew
      · exact hold
      · rw [hpc] at hnew
        contradiction
    dsimp only at h
    split at h <;> cases h
    · exact hdelete _ rfl
    · exact hdelete _ rfl
  case h_3 =>
    cases h
    exact hquiet _ rfl
  case h_4 =>
    cases h
    exact hquiet _ rfl
  case h_5 => contradiction

theorem ReadingsPast.tick {s : System} (h : ReadingsPast s) (elapsed : Nat) :
    ReadingsPast { s with clock := s.clock + elapsed } := by
  have hlater : s.clock ≤ s.clock + elapsed := Int.le_add_of_nonneg_right (Int.natCast_nonneg _)
  exact ⟨fun call hcall version rendered now hpc =>
      Int.le_trans (h.calls call hcall version rendered now hpc) hlater,
    fun now hnow => Int.le_trans (h.beats now hnow) hlater⟩

theorem ReadingsPast.begin {s : System} (h : ReadingsPast s) {call : CreateCall}
    (hcall : call.pc = .begun) :
    ReadingsPast { s with calls := Pool.spawn s.calls call } := by
  refine ⟨fun other hother version rendered now hpc => ?_, h.beats⟩
  rcases List.mem_append.mp hother with hold | hnew
  · exact h.calls other hold version rendered now hpc
  · rw [List.mem_singleton.mp hnew, hcall] at hpc
    contradiction

theorem ReadingsPast.beginBeat {s : System} (h : ReadingsPast s) :
    ReadingsPast { s with beats := Pool.spawn s.beats (.selecting s.clock) } := by
  refine ⟨h.calls, fun now hnow => ?_⟩
  rcases List.mem_append.mp hnow with hold | hnew
  · exact h.beats now hold
  · cases List.mem_singleton.mp hnew
    exact Int.le_refl _

private theorem view_setDb_templates {s : System} {db : Database}
    (hmessages : db.messages = s.db.messages) (hattempts : db.attempts = s.db.attempts)
    (hletters : db.deadLetters = s.db.deadLetters) : (s.setDb db).view = s.view := by
  unfold view setDb
  simp only [hmessages, hattempts, hletters]
  rfl

/-- Every step of the relay is a step of the lifecycle, or none. -/
theorem step_refines {s t : System} {a : Action} (hpast : ReadingsPast s)
    (h : step s a = some t) : Refines s a t := by
  unfold step at h
  split at h
  case h_1 elapsed =>
    cases h
    exact ⟨hpast.tick elapsed, .inr (.tick s.view elapsed)⟩
  case h_2 apiKey key data =>
    cases h
    exact ⟨hpast.begin rfl, .inl (view_spawn_call s _ rfl).symm⟩
  case h_3 c action =>
    obtain ⟨call, hcall, hstep⟩ := Option.bind_eq_some_iff.mp h
    exact stepCall_refines hcall hpast hstep
  case h_4 =>
    cases h
    exact ⟨hpast.beginBeat, .inl (view_spawn_beat s s.clock).symm⟩
  case h_5 b action =>
    obtain ⟨pc, hbeat, hstep⟩ := Option.bind_eq_some_iff.mp h
    exact stepBeat_refines hbeat hpast hstep
  case h_6 task => exact stepDeliver_refines hpast h
  case h_7 r action =>
    obtain ⟨run, hrun, hstep⟩ := Option.bind_eq_some_iff.mp h
    exact stepRun_refines hrun hpast hstep
  case h_8 task =>
    split at h <;> cases h
    exact ⟨hpast.of_eq rfl rfl rfl, .inr (.forget s.view task)⟩
  case h_9 =>
    cases h
    refine ⟨hpast.of_eq rfl rfl rfl, .inl ?_⟩
    have hdoomed : (Pool.spawn s.cleanups (.looping (s.clock - Scheduler.cleanupAge))).flatMap
        CleanupPc.doomed = s.cleanups.flatMap CleanupPc.doomed := by
      simp [Pool.spawn, CleanupPc.doomed]
    unfold view
    rw [hdoomed]
    rfl
  case h_10 k action =>
    obtain ⟨pc, hcleanup, hstep⟩ := Option.bind_eq_some_iff.mp h
    exact stepCleanup_refines hcleanup hpast hstep
  case h_11 request templateId versionId =>
    cases h
    split
    next db hdb =>
      obtain ⟨hmessages, hattempts, hletters⟩ := Templates.upsert_eq_some hdb
      exact ⟨hpast.of_eq rfl rfl rfl,
        .inl (view_setDb_templates hmessages hattempts hletters).symm⟩
    next => exact ⟨hpast, .inl rfl⟩
  case h_12 template =>
    cases h
    exact ⟨hpast.of_eq rfl rfl rfl, .inl (view_setDb_templates rfl rfl rfl).symm⟩

theorem readingsPast_init (clock : Time) : ReadingsPast (init clock) :=
  ⟨by simp [init], by simp [init]⟩

theorem readingsPast_of_reachable {allowed : System → Action → Prop} {s : System}
    (h : Reachable allowed s) : ReadingsPast s := by
  obtain ⟨clock, h⟩ := h
  refine h.invariant ReadingsPast (readingsPast_init clock) ?_
  intro s a t hpast _ hstep
  exact (step_refines hpast hstep).1

/-- Runs of the relay are runs of the lifecycle. -/
theorem reaches_view {allowed : System → Action → Prop}
    {absAllowed : Lifecycle → Action → Prop}
    (hallowed : ∀ s a, allowed s a → absAllowed s.view a) {s t : System}
    (hs : Reachable allowed s) (h : Reaches allowed s t) :
    Lifecycle.Reaches absAllowed s.view t.view := by
  refine h.simulates view ReadingsPast ?_ ?_ (readingsPast_of_reachable hs)
  · intro s a t hpast _ hstep
    exact (step_refines hpast hstep).1
  · intro s a t hpast ha hstep
    exact (step_refines hpast hstep).2.imp_right fun habs => ⟨hallowed s a ha, habs⟩

/-- An invariant of the lifecycle holds in every reachable state of the relay. -/
theorem invariant_of_lifecycle {allowed : System → Action → Prop}
    (absAllowed : Lifecycle → Action → Prop) (inv : Lifecycle → Prop)
    (hallowed : ∀ s a, allowed s a → absAllowed s.view a)
    (hinit : ∀ clock, inv (Lifecycle.init clock))
    (hstep : ∀ v a w, inv v → absAllowed v a → Lifecycle.Step v a w → inv w) {s : System}
    (h : Reachable allowed s) : inv s.view := by
  obtain ⟨clock, h⟩ := h
  have hview := reaches_view hallowed ⟨clock, .refl⟩ h
  rw [view_init] at hview
  exact hview.invariant inv (hinit clock) hstep

end System
end NotifyRelay
