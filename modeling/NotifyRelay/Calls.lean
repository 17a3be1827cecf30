import NotifyRelay.History

/-! What a call of `create_message` has done, read off the history, and what its answer
says about the rows. -/
namespace NotifyRelay

open Services Delivery Scheduler

/-- The call whose deed an event is. -/
def Event.caller : Event → Option Nat
  | .inserted c _ => some c
  | .published (.call c) _ _ _ => some c
  | .refused (.call c) _ => some c
  | _ => none

namespace System

/-- What call `c` has done, newest first. -/
def deeds (s : System) (c : Nat) : List Event := s.log.filter fun event => event.caller == some c

/-- The steps of `create_message`, each with its result. -/
inductive CallStep (s : System) (c : Nat) (call : CreateCall) : CallAction → System → Prop
  | replayed {action : CallAction} {context : PyContext} {existing : Message}
      (hpc : call.pc = .begun ∧ context = pristine call.data ∨ call.pc = .raced context)
      (hfind : findExisting s.db call.apiKey call.idempotencyKey = some existing) :
      CallStep s c call action (s.setCall c call (replayed context existing call.data))
  | missed (hpc : call.pc = .begun) : CallStep s c call .lookup (s.setCall c call .missed)
  | failed {engine : Engine} {error : CreateError} (hpc : call.pc = .missed)
      (herror : resolveAndRender engine s.db call.data = .error error) :
      CallStep s c call (.render engine) (s.setCall c call (.raised error))
  | rendered {engine : Engine} {version : TemplateVersion} {rendered : RenderOutcome}
      (hpc : call.pc = .missed) :
      CallStep s c call (.render engine) (s.setCall c call (.rendered version rendered))
  | timed {version : TemplateVersion} {rendered : RenderOutcome}
      (hpc : call.pc = .rendered version rendered) :
      CallStep s c call .readClock
        (s.setCall c { call with now := some s.clock } (.timed version rendered s.clock))
  | unstored {id : MessageId} {postgres : Postgres} {version : TemplateVersion}
      {rendered : RenderOutcome} {now : Time} {exception : PyException}
      (hpc : call.pc = .timed version rendered now)
      (hstore : postgres.store (messageValues call.idempotencyKey call.data rendered) =
        .error exception) :
      CallStep s c call (.insert id postgres) (s.setCall c call (.raised (.notStored exception)))
  | inserted {id : MessageId} {postgres : Postgres} {version : TemplateVersion}
      {rendered : RenderOutcome} {context : JsonObject} {now : Time} {message : Message}
      {messages : MessageTable} (hpc : call.pc = .timed version rendered now)
      (hstore : postgres.store (messageValues call.idempotencyKey call.data rendered) = .ok context)
      (hmessage : message = newMessage id call.apiKey call.idempotencyKey call.data version
        rendered.toRenderedMessage context now s.clock)
      (hinsert : s.db.messages.insert? message = some messages) :
      CallStep s c call (.insert id postgres)
        (((s.setCall c call (afterInsert call.data message now)).setMessages messages).record
          [.inserted c message])
  | raced {id : MessageId} {postgres : Postgres} {version : TemplateVersion}
      {rendered : RenderOutcome} {context : JsonObject} {now : Time}
      (hpc : call.pc = .timed version rendered now) (hfresh : freshMessage s.log id = true)
      (hinsert : s.db.messages.insert? (newMessage id call.apiKey call.idempotencyKey call.data
        version rendered.toRenderedMessage context now s.clock) = none) :
      CallStep s c call (.insert id postgres)
        (s.setCall c call (.raced (keptContext call.data rendered)))
  | unresolved {context : PyContext} (hpc : call.pc = .raced context)
      (hfind : findExisting s.db call.apiKey call.idempotencyKey = none) :
      CallStep s c call .lookupAgain (s.setCall c call (.raised .integrityError))
  | published {id : TaskId} {message : Message} {now : Time}
      (hpc : call.pc = .committed message now) :
      CallStep s c call (.publish id true)
        (((s.setCall c call (.returned message true)).accept (enqueueFor message id)).record
          [.published (.call c) (enqueueFor message id) now s.clock])
  | refused {id : TaskId} {message : Message} {now : Time}
      (hpc : call.pc = .committed message now) :
      CallStep s c call (.publish id false)
        ((s.setCall c call (.returned message true)).record [.refused (.call c) message.id])
  | crashed (hpc : call.pc.running = true) : CallStep s c call .crash (s.setCall c call .crashed)

theorem callStep_of_step {s t : System} {c : Nat} {call : CreateCall} {action : CallAction}
    (h : s.stepCall c call action call.pc = some t) : CallStep s c call action t := by
  unfold stepCall at h
  split at h
  case h_1 hpc =>
    split at h <;> cases h
    next hfind => exact .replayed (.inl ⟨hpc, rfl⟩) hfind
    next => exact .missed hpc
  case h_2 hpc =>
    split at h <;> cases h
    next herror => exact .failed hpc herror
    next => exact .rendered hpc
  case h_3 hpc =>
    cases h
    exact .timed hpc
  case h_4 hpc =>
    split at h
    next hfresh =>
      split at h
      next hstore =>
        cases h
        exact .unstored hpc hstore
      next hstore =>
        dsimp only at h
        split at h <;> cases h
        next hinsert => exact .inserted hpc hstore rfl hinsert
        next hinsert => exact .raced hpc hfresh hinsert
    next => contradiction
  case h_5 hpc =>
    split at h <;> cases h
    next hfind => exact .replayed (.inr hpc) hfind
    next hfind => exact .unresolved hpc hfind
  case h_6 hpc =>
    dsimp only at h
    split at h
    next haccepted =>
      split at h <;> cases h
      subst haccepted
      exact .published hpc
    next haccepted =>
      cases h
      rw [Bool.not_eq_true] at haccepted
      subst haccepted
      exact .refused hpc
  case h_7 =>
    split at h <;> cases h
    next hrunning => exact .crashed hrunning
  case h_8 => contradiction

theorem step_render_error {s : System} {c : Nat} {call : CreateCall} {engine : Engine}
    {error : CreateError} (hcall : s.calls[c]? = some call) (hpc : call.pc = .missed)
    (herror : resolveAndRender engine s.db call.data = .error error) :
    step s (.call c (.render engine)) = some (s.setCall c call (.raised error)) := by
  simp [step, hcall, stepCall, hpc, herror]

theorem deeds_of_other {s t : System} {c : Nat} {event : Event} (hcaller : event.caller ≠ some c)
    (hlog : t.log = event :: s.log) : t.deeds c = s.deeds c := by
  unfold deeds
  rw [hlog, List.filter_cons_of_neg (by simpa using hcaller)]

theorem deeds_of_own {s t : System} {c : Nat} {event : Event} (hcaller : event.caller = some c)
    (hlog : t.log = event :: s.log) : t.deeds c = event :: s.deeds c := by
  unfold deeds
  rw [hlog, List.filter_cons_of_pos (by simpa using hcaller)]

/-- A step of one call leaves the others alone. -/
theorem CallStep.other {s t : System} {c d : Nat} {call : CreateCall} {action : CallAction}
    (h : CallStep s d call action t) (hcall : s.calls[d]? = some call) (hd : c ≠ d) :
    t.calls[c]? = s.calls[c]? ∧ t.deeds c = s.deeds c := by
  have hcalls : ∀ call' : CreateCall, (s.calls.set d call')[c]? = s.calls[c]? := fun call' => by
    rw [Pool.get_set_of_ne hcall _ hd]
  cases h with
  | inserted => exact ⟨hcalls _, deeds_of_other (by simpa [Event.caller] using Ne.symm hd) rfl⟩
  | published => exact ⟨hcalls _, deeds_of_other (by simpa [Event.caller] using Ne.symm hd) rfl⟩
  | refused => exact ⟨hcalls _, deeds_of_other (by simpa [Event.caller] using Ne.symm hd) rfl⟩
  | _ => exact ⟨hcalls _, rfl⟩

theorem CallStep.own {s t : System} {c : Nat} {call : CreateCall} {action : CallAction}
    (h : CallStep s c call action t) (hcall : s.calls[c]? = some call) :
    ∃ call', t.calls[c]? = some call' := by
  have hcalls : ∀ call' : CreateCall, (s.calls.set c call')[c]? = some call' := fun call' => by
    rw [Pool.get_set_self hcall]
  cases h <;> exact ⟨_, hcalls _⟩

/-- A call that adds nothing to the history touches no row and gives the broker nothing. -/
theorem quiet_of_log_eq {s t : System} {c : Nat} {action : CallAction}
    (h : step s (.call c action) = some t) (hlog : t.log = s.log) :
    t.db = s.db ∧ t.broker = s.broker := by
  obtain ⟨call, _, hstep⟩ := Option.bind_eq_some_iff.mp h
  cases callStep_of_step hstep with
  | inserted => exact absurd hlog (List.cons_ne_self _ _)
  | published => exact absurd hlog (List.cons_ne_self _ _)
  | refused => exact absurd hlog (List.cons_ne_self _ _)
  | _ => exact ⟨rfl, rfl⟩

/-- No call moved and none has done anything. -/
def Quiet (s t : System) : Prop :=
  t.calls = s.calls ∧ ∀ c, t.deeds c = s.deeds c

private theorem quiet_of_eq {s t : System} (hcalls : t.calls = s.calls) (hlog : t.log = s.log) :
    Quiet s t :=
  ⟨hcalls, fun c => by rw [deeds, hlog]; rfl⟩

private theorem quiet_of_event {s t : System} {event : Event} (hcaller : event.caller = none)
    (hcalls : t.calls = s.calls) (hlog : t.log = event :: s.log) : Quiet s t :=
  ⟨hcalls, fun c => deeds_of_other (by simp [hcaller]) hlog⟩

/-- A Beat job leaves the calls and the clean-up jobs alone, as deliveries and runs do. -/
theorem stepBeat_frame {s t : System} {b : Nat} {pc : BeatPc} {action : BeatAction}
    (h : s.stepBeat b action pc = some t) : Quiet s t ∧ t.cleanups = s.cleanups := by
  unfold stepBeat at h
  split at h
  case h_1 locked now =>
    cases h
    refine ⟨⟨rfl, fun c => ?_⟩, rfl⟩
    simp [deeds, record, setMessages, setBeat, List.filter_append, List.filter_map,
      Function.comp_def, Event.caller]
  case h_2 =>
    dsimp only at h
    split at h
    next =>
      split at h <;> cases h
      exact ⟨quiet_of_event rfl rfl rfl, rfl⟩
    next =>
      cases h
      exact ⟨quiet_of_event rfl rfl rfl, rfl⟩
  case h_3 =>
    cases h
    exact ⟨quiet_of_eq rfl rfl, rfl⟩
  case h_4 =>
    split at h <;> cases h
    exact ⟨quiet_of_eq rfl rfl, rfl⟩
  case h_5 => contradiction

theorem stepDeliver_frame {s t : System} {task : Task} (h : s.stepDeliver task = some t) :
    Quiet s t ∧ t.cleanups = s.cleanups := by
  unfold stepDeliver at h
  split at h
  next =>
    split at h
    next =>
      cases h
      exact ⟨quiet_of_event rfl rfl rfl, rfl⟩
    next =>
      split at h <;> cases h
      · exact ⟨quiet_of_event rfl rfl rfl, rfl⟩
      · exact ⟨quiet_of_event rfl rfl rfl, rfl⟩
      · exact ⟨quiet_of_eq rfl rfl, rfl⟩
  next => contradiction

theorem stepRun_frame {s t : System} {r : Nat} {run : DeliveryRun} {action : RunAction}
    {pc : DeliveryPc} (h : s.stepRun r run action pc = some t) :
    Quiet s t ∧ t.cleanups = s.cleanups := by
  unfold stepRun at h
  split at h
  case h_1 =>
    cases h
    exact ⟨quiet_of_event rfl rfl rfl, rfl⟩
  case h_4 => split at h <;> cases h <;> exact ⟨quiet_of_eq rfl rfl, rfl⟩
  case h_5 =>
    split at h
    · split at h <;> cases h <;> exact ⟨quiet_of_eq rfl rfl, rfl⟩
    · split at h <;> cases h <;> exact ⟨quiet_of_eq rfl rfl, rfl⟩
    · dsimp only at h
      split at h <;> cases h
      · exact ⟨quiet_of_event rfl rfl rfl, rfl⟩
      · exact ⟨quiet_of_eq rfl rfl, rfl⟩
  case h_6 =>
    split at h <;> cases h
    exact ⟨quiet_of_eq rfl rfl, rfl⟩
  case h_7 => contradiction
  all_goals
    cases h
    exact ⟨quiet_of_eq rfl rfl, rfl⟩

private theorem stepCleanup_quiet {s t : System} {k : Nat} {pc : CleanupPc}
    {action : CleanupAction} (h : s.stepCleanup k action pc = some t) : Quiet s t := by
  unfold stepCleanup at h
  split at h
  case h_1 => split at h <;> cases h <;> exact quiet_of_eq rfl rfl
  case h_2 =>
    dsimp only at h
    split at h <;> cases h <;> exact quiet_of_eq rfl rfl
  case h_5 => contradiction
  all_goals
    cases h
    exact quiet_of_eq rfl rfl

theorem quiet_of_not_call {s t : System} {a : Action} (h : step s a = some t)
    (hcall : ∀ c action, a ≠ .call c action)
    (hbegin : ∀ apiKey key data, a ≠ .begin apiKey key data) : Quiet s t := by
  unfold step at h
  split at h
  case h_2 apiKey key data => exact absurd rfl (hbegin apiKey key data)
  case h_3 c action => exact absurd rfl (hcall c action)
  case h_5 =>
    obtain ⟨_, _, hstep⟩ := Option.bind_eq_some_iff.mp h
    exact (stepBeat_frame hstep).1
  case h_6 => exact (stepDeliver_frame h).1
  case h_7 =>
    obtain ⟨_, _, hstep⟩ := Option.bind_eq_some_iff.mp h
    exact (stepRun_frame hstep).1
  case h_8 =>
    split at h <;> cases h
    exact quiet_of_eq rfl rfl
  case h_10 =>
    obtain ⟨_, _, hstep⟩ := Option.bind_eq_some_iff.mp h
    exact stepCleanup_quiet hstep
  case h_11 =>
    cases h
    split <;> exact quiet_of_eq rfl rfl
  all_goals
    cases h
    exact quiet_of_eq rfl rfl

/-- A place of the pool is as it was, is that of a call that has just begun, or is
that of the call that took the step. -/
theorem call_cases {s t : System} {a : Action} (h : step s a = some t) (c : Nat) :
    t.calls[c]? = s.calls[c]? ∧ t.deeds c = s.deeds c ∨
    (s.calls[c]? = none ∧ t.deeds c = s.deeds c ∧
      ∃ call, t.calls[c]? = some call ∧ call.pc = .begun) ∨
    ∃ old action, s.calls[c]? = some old ∧ a = .call c action ∧ CallStep s c old action t := by
  by_cases hbegin : ∃ apiKey key data, a = .begin apiKey key data
  · obtain ⟨apiKey, key, data, rfl⟩ := hbegin
    cases h
    have hspawn := Pool.get_spawn s.calls ⟨apiKey, key, data, none, .begun⟩ c
    split at hspawn
    next heq => exact .inr (.inl ⟨heq ▸ Pool.get_next_eq_none _, rfl, _, hspawn, rfl⟩)
    next => exact .inl ⟨hspawn, rfl⟩
  by_cases hown : ∃ d action, a = .call d action
  · obtain ⟨d, action, rfl⟩ := hown
    obtain ⟨old, hold, hstep⟩ := Option.bind_eq_some_iff.mp h
    have hcallStep := callStep_of_step hstep
    by_cases hd : c = d
    · subst hd
      exact .inr (.inr ⟨old, action, hold, rfl, hcallStep⟩)
    · exact .inl (hcallStep.other hold hd)
  · have hquiet := quiet_of_not_call h (fun d action heq => hown ⟨d, action, heq⟩)
      (fun apiKey key data heq => hbegin ⟨apiKey, key, data, heq⟩)
    exact .inl ⟨by rw [hquiet.1], hquiet.2 c⟩

end System

/-- What a call that returns `(m, True)` has done: the insert and, if the message is to
be sent now, one publication, which the broker may have refused. -/
def CreateCall.Created (call : CreateCall) (c : Nat) (m : Message) (deeds : List Event) : Prop :=
  ∃ now, call.now = some now ∧
    if sendNow call.data now then
      (∃ task time, task.message = m.id ∧
        deeds = [.published (.call c) task now time, .inserted c m]) ∨
      deeds = [.refused (.call c) m.id, .inserted c m]
    else deeds = [.inserted c m]

/-- The deeds of a call at each place. -/
def CreateCall.Did (call : CreateCall) (c : Nat) (deeds : List Event) : Prop :=
  match call.pc with
  | .timed _ _ now => call.now = some now ∧ deeds = []
  | .committed m now =>
      call.now = some now ∧ sendNow call.data now = true ∧ deeds = [.inserted c m]
  | .returned m true => call.Created c m deeds
  | .crashed => deeds = [] ∨ ∃ m, deeds = [.inserted c m]
  | _ => deeds = []

/-- The message a call has in hand. -/
def CreateCall.message (call : CreateCall) : Option Message :=
  match call.pc with
  | .committed m _ => some m
  | .returned m _ => some m
  | _ => none

namespace System

variable {s t : System} {a : Action} {c : Nat} {call : CreateCall} {action : CallAction}

structure Traced (s : System) : Prop where
  unborn : ∀ c, s.calls[c]? = none → s.deeds c = []
  did : ∀ (c : Nat) (call : CreateCall), s.calls[c]? = some call → call.Did c (s.deeds c)

theorem traced_init (clock : Time) : Traced (init clock) := by
  constructor <;> simp [init, deeds]

private theorem did_replayed (call : CreateCall) (c : Nat) (context : PyContext)
    (existing : Message) :
    CreateCall.Did { call with pc := replayed context existing call.data } c [] := by
  unfold replayed
  split <;> rfl

private theorem did_afterInsert {call : CreateCall} {now : Time} (hnow : call.now = some now)
    (c : Nat) (m : Message) :
    CreateCall.Did { call with pc := afterInsert call.data m now } c [.inserted c m] := by
  unfold afterInsert
  split
  next hsend => exact ⟨hnow, hsend, rfl⟩
  next hsend => exact ⟨now, hnow, by rw [if_neg hsend]⟩

/-- A call that crashes has at most inserted its row. -/
private theorem did_of_running {call : CreateCall} {c : Nat} {deeds : List Event}
    (hrunning : call.pc.running = true) (h : call.Did c deeds) :
    deeds = [] ∨ ∃ m, deeds = [.inserted c m] := by
  unfold CreateCall.Did at h
  split at h
  · exact .inl h.2
  · exact .inr ⟨_, h.2.2⟩
  · rename_i hpc
    rw [hpc] at hrunning
    contradiction
  · exact h
  · exact .inl h

theorem CallStep.did (h : CallStep s c call action t) (hcall : s.calls[c]? = some call)
    (hdid : call.Did c (s.deeds c)) :
    ∃ call', t.calls[c]? = some call' ∧ call'.Did c (t.deeds c) := by
  have hcalls : ∀ call' : CreateCall, (s.calls.set c call')[c]? = some call' := fun call' => by
    rw [Pool.get_set_self hcall]
  cases h with
  | replayed hpc =>
      have hnone : s.deeds c = [] := by
        rcases hpc with ⟨hpc, _⟩ | hpc <;> simpa only [CreateCall.Did, hpc] using hdid
      exact ⟨_, hcalls _, hnone ▸ did_replayed call c _ _⟩
  | missed hpc =>
      simp only [CreateCall.Did, hpc] at hdid
      exact ⟨_, hcalls _, hdid⟩
  | failed hpc =>
      simp only [CreateCall.Did, hpc] at hdid
      exact ⟨_, hcalls _, hdid⟩
  | rendered hpc =>
      simp only [CreateCall.Did, hpc] at hdid
      exact ⟨_, hcalls _, hdid⟩
  | timed hpc =>
      simp only [CreateCall.Did, hpc] at hdid
      exact ⟨_, hcalls _, rfl, hdid⟩
  | unstored hpc =>
      simp only [CreateCall.Did, hpc] at hdid
      exact ⟨_, hcalls _, hdid.2⟩
  | inserted hpc =>
      simp only [CreateCall.Did, hpc] at hdid
      refine ⟨_, hcalls _, ?_⟩
      rw [deeds_of_own (s := s) rfl rfl, hdid.2]
      exact did_afterInsert hdid.1 c _
  | raced hpc =>
      simp only [CreateCall.Did, hpc] at hdid
      exact ⟨_, hcalls _, hdid.2⟩
  | unresolved hpc =>
      simp only [CreateCall.Did, hpc] at hdid
      exact ⟨_, hcalls _, hdid⟩
  | published hpc =>
      simp only [CreateCall.Did, hpc] at hdid
      obtain ⟨hnow, hsend, hdeeds⟩ := hdid
      refine ⟨_, hcalls _, _, hnow, ?_⟩
      rw [if_pos hsend, deeds_of_own (s := s) rfl rfl, hdeeds]
      exact .inl ⟨_, _, rfl, rfl⟩
  | refused hpc =>
      simp only [CreateCall.Did, hpc] at hdid
      obtain ⟨hnow, hsend, hdeeds⟩ := hdid
      refine ⟨_, hcalls _, _, hnow, ?_⟩
      rw [if_pos hsend, deeds_of_own (s := s) rfl rfl, hdeeds]
      exact .inr rfl
  | crashed hrunning => exact ⟨_, hcalls _, did_of_running hrunning hdid⟩

theorem Traced.step (h : Traced s) (hstep : step s a = some t) : Traced t := by
  constructor
  case unborn =>
    intro c hnone
    rcases call_cases hstep c with ⟨hcall, hdeeds⟩ | ⟨_, _, call, hcall, _⟩ |
      ⟨old, action, hold, rfl, hmoved⟩
    · rw [hdeeds]
      exact h.unborn c (hcall ▸ hnone)
    · rw [hnone] at hcall
      contradiction
    · obtain ⟨call, hcall, _⟩ := hmoved.did hold (h.did c old hold)
      rw [hnone] at hcall
      contradiction
  case did =>
    intro c call hsome
    rcases call_cases hstep c with ⟨hcall, hdeeds⟩ | ⟨hnone, hdeeds, call', hcall, hbegun⟩ |
      ⟨old, action, hold, rfl, hmoved⟩
    · rw [hdeeds]
      exact h.did c call (hcall ▸ hsome)
    · cases Option.some.inj (hcall.symm.trans hsome)
      rw [hdeeds, h.unborn c hnone]
      simp only [CreateCall.Did, hbegun]
    · obtain ⟨call', hcall, hdid⟩ := hmoved.did hold (h.did c old hold)
      cases Option.some.inj (hcall.symm.trans hsome)
      exact hdid

/-- A message in hand is a row that was inserted, with the call's pair and, for the context the
call had then, its payload. -/
structure Answers (s : System) (call : CreateCall) (m : Message) : Prop where
  apiKey : m.apiKey = call.apiKey
  idempotencyKey : m.idempotencyKey = call.idempotencyKey
  payload : ∃ context, payloadMatchesWith context m call.data = true
  accepted : ∃ row, Accepted s.log row ∧ row.frozen = m.frozen

def Answered (s : System) : Prop :=
  ∀ (c : Nat) (call : CreateCall), s.calls[c]? = some call → ∀ m ∈ call.message, s.Answers call m

theorem Answers.mono {m : Message} (h : Answers s call m) (hsub : s.log ⊆ t.log) :
    Answers t call m :=
  ⟨h.apiKey, h.idempotencyKey, h.payload, h.accepted.imp fun _ hrow => ⟨hrow.1.mono hsub, hrow.2⟩⟩

private theorem answers_replayed (hhistory : Lifecycle.History s.view) {context : PyContext}
    {existing : Message}
    (hfind : findExisting s.db call.apiKey call.idempotencyKey = some existing) {m : Message}
    (hm : m ∈ CreateCall.message { call with pc := replayed context existing call.data }) :
    s.Answers call m := by
  obtain ⟨hrow, hapiKey, hkey⟩ := findExisting_some hfind
  unfold replayed replayWith at hm
  split at hm
  next found hreplay =>
    split at hreplay <;> cases hreplay
    next hpayload =>
      cases hm
      exact ⟨hapiKey, hkey, ⟨context, hpayload⟩, hhistory.rows _ hrow⟩
  next => cases hm

private theorem message_afterInsert (call : CreateCall) (m : Message) (now : Time) :
    CreateCall.message { call with pc := afterInsert call.data m now } = some m := by
  unfold afterInsert
  split <;> rfl

theorem Answers.moved {m : Message} (h : Answers s call m) (pc : CreatePc) :
    Answers s { call with pc := pc } m :=
  ⟨h.apiKey, h.idempotencyKey, h.payload, h.accepted⟩

theorem CallStep.answers (h : CallStep s c call action t) (hcall : s.calls[c]? = some call)
    (hhistory : Lifecycle.History s.view)
    (hold : ∀ m ∈ call.message, s.Answers call m) {call' : CreateCall}
    (hcall' : t.calls[c]? = some call') : ∀ m ∈ call'.message, t.Answers call' m := by
  have hcalls : ∀ call' : CreateCall, (s.calls.set c call')[c]? = some call' := fun call' => by
    rw [Pool.get_set_self hcall]
  intro m hm
  cases h with
  | replayed hpc hfind =>
      cases Option.some.inj ((hcalls _).symm.trans hcall')
      exact ((answers_replayed hhistory hfind hm).moved _).mono (List.Subset.refl _)
  | inserted hpc _ hmessage =>
      cases Option.some.inj ((hcalls _).symm.trans hcall')
      cases (message_afterInsert call _ _).symm.trans hm
      subst hmessage
      exact ⟨rfl, rfl, ⟨_, payloadMatches_newMessage _ _ _ _ _ _ _ _ _⟩, _,
        ⟨c, List.mem_cons_self⟩, rfl⟩
  | published hpc =>
      cases Option.some.inj ((hcalls _).symm.trans hcall')
      cases hm
      have hanswers := hold _ (by rw [CreateCall.message, hpc]; rfl)
      exact (hanswers.moved _).mono fun _ hmem => List.mem_cons_of_mem _ hmem
  | refused hpc =>
      cases Option.some.inj ((hcalls _).symm.trans hcall')
      cases hm
      have hanswers := hold _ (by rw [CreateCall.message, hpc]; rfl)
      exact (hanswers.moved _).mono fun _ hmem => List.mem_cons_of_mem _ hmem
  | _ =>
      cases Option.some.inj ((hcalls _).symm.trans hcall')
      cases hm

theorem log_subset_of_step (hpast : ReadingsPast s) (hstep : step s a = some t) :
    s.log ⊆ t.log := by
  rcases (step_refines hpast hstep).2 with heq | hview
  · have hlog : s.log = t.log := congrArg Lifecycle.log heq
    rw [hlog]
    exact List.Subset.refl _
  · exact hview.log_subset

theorem Answered.step (h : Answered s) (hpast : ReadingsPast s)
    (hhistory : Lifecycle.History s.view) (hstep : step s a = some t) : Answered t := by
  intro c call hsome m hm
  rcases call_cases hstep c with ⟨hcall, _⟩ | ⟨_, _, call', hcall, hbegun⟩ |
    ⟨old, action, hold, rfl, hmoved⟩
  · exact (h c call (hcall ▸ hsome) m hm).mono (log_subset_of_step hpast hstep)
  · cases Option.some.inj (hcall.symm.trans hsome)
    rw [CreateCall.message, hbegun] at hm
    cases hm
  · exact hmoved.answers hold hhistory (h c old hold) hsome m hm

/-- What holds of the calls in every reachable state. -/
structure CallsOk (s : System) : Prop where
  past : ReadingsPast s
  history : Lifecycle.History s.view
  traced : Traced s
  answered : Answered s

theorem CallsOk.step (h : CallsOk s) (hstep : step s a = some t) : CallsOk t where
  past := (step_refines h.past hstep).1
  history := by
    rcases (step_refines h.past hstep).2 with heq | hview
    · exact heq ▸ h.history
    · exact h.history.step hview
  traced := h.traced.step hstep
  answered := h.answered.step h.past h.history hstep

theorem callsOk_init (clock : Time) : CallsOk (init clock) where
  past := readingsPast_init clock
  history := view_init clock ▸ Lifecycle.history_init clock
  traced := traced_init clock
  answered := by simp [Answered, init]

theorem callsOk_of_reachable {allowed : System → Action → Prop} (h : Reachable allowed s) :
    CallsOk s := by
  obtain ⟨clock, h⟩ := h
  exact h.invariant CallsOk (callsOk_init clock) fun _ _ _ hinv _ hstep => hinv.step hstep

theorem CallsOk.log_subset {allowed : System → Action → Prop} (h : CallsOk s)
    (hreaches : Reaches allowed s t) : CallsOk t ∧ s.log ⊆ t.log :=
  hreaches.invariant (fun u => CallsOk u ∧ s.log ⊆ u.log) ⟨h, List.Subset.refl _⟩
    fun _ _ _ hinv _ hstep =>
      ⟨hinv.1.step hstep, List.Subset.trans hinv.2 (log_subset_of_step hinv.1.past hstep)⟩

/-- The rows a step of a clean-up job deletes. -/
def deletes (s : System) : Action → List MessageId
  | .cleanup k .delete =>
      match s.cleanups[k]? with
      | some (.deleting _ ids) => ids
      | _ => []
  | _ => []

/-- A row that is not deleted keeps what was accepted. -/
theorem CallsOk.row_survives (h : CallsOk s) (hstep : System.step s a = some t) {m : Message}
    (hm : m ∈ s.db.messages.rows) (hkept : m.id ∉ s.deletes a) :
    ∃ m' ∈ t.db.messages.rows, m'.id = m.id ∧ m'.frozen = m.frozen := by
  suffices ∃ m' ∈ t.db.messages.rows, m'.id = m.id by
    obtain ⟨m', hm', hid⟩ := this
    obtain ⟨row, hrow, hfrozen⟩ := h.history.rows m hm
    exact ⟨m', hm', hid, (h.step hstep).history.frozen_eq hm' (log_subset_of_step h.past hstep)
      hrow hfrozen hid⟩
  rcases (step_refines h.past hstep).2 with heq | hview
  · have hmessages : s.db.messages = t.db.messages := congrArg Lifecycle.messages heq
    exact ⟨m, hmessages ▸ hm, rfl⟩
  · rcases hview.survives hm with ⟨_, k, rfl⟩ | hm'
    · obtain ⟨pc, hpc, hdelete⟩ := Option.bind_eq_some_iff.mp hstep
      cases pc with
      | deleting cutoff ids =>
          have hnot : ids.contains m.id = false := by
            simpa [deletes, hpc] using hkept
          have hmem : m ∈ (deleteMessages s.db ids).messages.rows :=
            (s.db.messages.mem_delete).mpr ⟨hm, hnot⟩
          unfold stepCleanup at hdelete
          dsimp only at hdelete
          split at hdelete <;> cases hdelete
          · exact ⟨m, hmem, rfl⟩
          · exact ⟨m, hmem, rfl⟩
      | _ => cases hdelete
    · exact hm'

end System
end NotifyRelay
