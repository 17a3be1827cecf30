import NotifyRelay.Calls

/-! Concurrent calls with one API key and one idempotency key. Any number of them can sit
between the lookup and the insert; the unique constraint picks one, and the others find
its row. -/
namespace NotifyRelay

open Services Delivery Scheduler

/-- The pair a call looks for; a call without an API key has none. -/
def CreateCall.pair (call : CreateCall) : Option (ApiKeyId × String) :=
  call.apiKey.map fun apiKey => (apiKey, call.idempotencyKey)

namespace System

variable {s t : System} {a : System.Action} {pair : ApiKeyId × String}

/-- The call that renders in a step, with the engine it meets. -/
def rendering (s : System) : Action → Option (Engine × CreateCall)
  | .call c (.render engine) => s.calls[c]?.map fun call => (engine, call)
  | _ => none

/-- The call that inserts in a step, with what becomes of its values. -/
def inserting (s : System) : Action → Option (Except PyException JsonObject × CreateCall)
  | .call c (.insert _ postgres) => s.calls[c]?.bind fun call =>
      match call.pc with
      | .timed _ rendered _ =>
          some (postgres.store (messageValues call.idempotencyKey call.data rendered), call)
      | _ => none
  | _ => none

/-- No clean-up job deletes the row of the pair, no call of the pair renders a webhook body that
is nested too deeply for `json.loads`, and none inserts a value that is refused. -/
def Undisturbed (pair : ApiKeyId × String) (s : System) (a : Action) : Prop :=
  (∀ m ∈ s.db.messages.rows, m.idempotencyPair = some pair → m.id ∉ s.deletes a) ∧
    (∀ rendering ∈ s.rendering a, rendering.2.pair = some pair →
      overflows rendering.1 s.db rendering.2.data = false) ∧
    ∀ inserting ∈ s.inserting a, inserting.2.pair = some pair → inserting.1.isOk = true

instance (pair : ApiKeyId × String) (s : System) (a : Action) : Decidable (Undisturbed pair s a) :=
  inferInstanceAs (Decidable ((∀ m ∈ s.db.messages.rows, _ → _) ∧ (∀ r ∈ s.rendering a, _ → _) ∧
    ∀ i ∈ s.inserting a, _ → _))

/-- What a call of the pair leaves when it has ended. -/
def Outcome (s : System) (pair : ApiKeyId × String) (c : Nat) (call : CreateCall) : Prop :=
  match call.pc with
  | .returned m created =>
      (∃ row ∈ s.db.messages.rows, row.idempotencyPair = some pair ∧ row.id = m.id) ∧
        if created then call.Created c m (s.deeds c) else s.deeds c = []
  | .raised error => documented error = true ∧ s.deeds c = []
  | .crashed => s.deeds c = [] ∨ ∃ m, s.deeds c = [.inserted c m]
  | _ => True

structure Idempotent (pair : ApiKeyId × String) (s : System) : Prop where
  kept : ∀ c row, Event.inserted c row ∈ s.log → row.idempotencyPair = some pair →
    ∃ m ∈ s.db.messages.rows, m.idempotencyPair = some pair ∧ m.id = row.id
  raced : ∀ (c : Nat) (call : CreateCall), s.calls[c]? = some call → call.pair = some pair →
    ∀ context, call.pc = .raced context → ∃ m ∈ s.db.messages.rows, m.idempotencyPair = some pair
  raised : ∀ (c : Nat) (call : CreateCall) (error : CreateError), s.calls[c]? = some call →
    call.pair = some pair → call.pc = .raised error → documented error = true

theorem idempotent_init (pair : ApiKeyId × String) (clock : Time) :
    Idempotent pair (init clock) := by
  constructor <;> simp [init]

/-- The row of the pair is there to stay. -/
theorem pair_survives (h : CallsOk s) (ha : Undisturbed pair s a) (hstep : step s a = some t)
    {m : Message} (hm : m ∈ s.db.messages.rows) (hpair : m.idempotencyPair = some pair) :
    ∃ m' ∈ t.db.messages.rows, m'.idempotencyPair = some pair ∧ m'.id = m.id := by
  obtain ⟨m', hm', hid, hfrozen⟩ := h.row_survives hstep hm (ha.1 m hm hpair)
  exact ⟨m', hm', (idempotencyPair_eq_of_frozen hfrozen).trans hpair, hid⟩

private theorem pair_of_columns {m : Message} {call : CreateCall} (hapiKey : m.apiKey = call.apiKey)
    (hkey : m.idempotencyKey = call.idempotencyKey) : m.idempotencyPair = call.pair := by
  unfold Message.idempotencyPair CreateCall.pair
  rw [hapiKey, hkey]

/-- The insert loses only against a row of the same pair: its primary key is fresh. -/
private theorem pair_of_raced (h : CallsOk s) {call : CreateCall} (hpair : call.pair = some pair)
    {id : MessageId} (hfresh : freshMessage s.log id = true) {message : Message}
    (hid : message.id = id) (hcolumns : message.idempotencyPair = call.pair)
    (hinsert : s.db.messages.insert? message = none) :
    ∃ m ∈ s.db.messages.rows, m.idempotencyPair = some pair := by
  obtain ⟨m, hm, hkey | ⟨index, hindex, hindex'⟩⟩ := s.db.messages.insert?_eq_none hinsert
  · have hknown := h.history.known_row hm
    rw [hkey, hid] at hknown
    exact absurd hknown (not_known_of_fresh hfresh)
  · refine ⟨m, hm, ?_⟩
    rw [hindex, ← hindex', hcolumns, hpair]

private theorem replayed_cases (context : PyContext) (existing : Message) (data : MessageData) :
    replayed context existing data = .returned existing false ∨
      ∃ detail, replayed context existing data = .raised (.idempotencyConflict detail) := by
  unfold replayed replayWith
  split
  next found hreplay =>
    split at hreplay <;> cases hreplay
    exact .inl rfl
  next error hreplay =>
    split at hreplay <;> cases hreplay
    exact .inr ⟨_, rfl⟩

private theorem afterInsert_cases (data : MessageData) (message : Message) (now : Time) :
    afterInsert data message now = .committed message now ∨
      afterInsert data message now = .returned message true := by
  unfold afterInsert
  split
  · exact .inl rfl
  · exact .inr rfl

/-- The call that has just lost the insert race. -/
private theorem raced_of_callStep {c : Nat} {old call : CreateCall} {action : CallAction}
    (h : CallStep s c old action t) (hold : s.calls[c]? = some old)
    (hcall : t.calls[c]? = some call) {context : PyContext} (hpc : call.pc = .raced context)
    (hok : CallsOk s) (hpair : call.pair = some pair) :
    ∃ m ∈ s.db.messages.rows, m.idempotencyPair = some pair := by
  have hcalls : ∀ call' : CreateCall, (s.calls.set c call')[c]? = some call' := fun call' => by
    rw [Pool.get_set_self hold]
  cases h with
  | raced _ hfresh hinsert =>
      cases Option.some.inj ((hcalls _).symm.trans hcall)
      exact pair_of_raced hok hpair hfresh rfl (pair_of_columns rfl rfl) hinsert
  | replayed =>
      cases Option.some.inj ((hcalls _).symm.trans hcall)
      rcases replayed_cases _ _ old.data with heq | ⟨detail, heq⟩ <;> cases heq.symm.trans hpc
  | inserted =>
      cases Option.some.inj ((hcalls _).symm.trans hcall)
      rcases afterInsert_cases old.data _ _ with heq | heq <;> cases heq.symm.trans hpc
  | _ =>
      cases Option.some.inj ((hcalls _).symm.trans hcall)
      cases hpc

/-- The exceptions of a step: a conflict, a failed render, or the `IntegrityError` of an
insert whose rival cannot be found, which does not happen. -/
private theorem raised_of_callStep {c : Nat} {old call : CreateCall} {action : CallAction}
    {error : CreateError} (h : CallStep s c old action t) (hold : s.calls[c]? = some old)
    (hcall : t.calls[c]? = some call) (hpc : call.pc = .raised error)
    (ha : Undisturbed pair s (.call c action)) (hpair : call.pair = some pair)
    (hraced : old.pair = some pair → ∀ context, old.pc = .raced context →
      ∃ m ∈ s.db.messages.rows, m.idempotencyPair = some pair) :
    documented error = true := by
  have hcalls : ∀ call' : CreateCall, (s.calls.set c call')[c]? = some call' := fun call' => by
    rw [Pool.get_set_self hold]
  cases h with
  | failed _ herror =>
      cases Option.some.inj ((hcalls _).symm.trans hcall)
      cases hpc
      refine resolveAndRender_error herror (ha.2.1 (_, old) ?_ hpair)
      simp [rendering, hold]
  | @unstored id postgres version rendered now exception htimed hstore =>
      cases Option.some.inj ((hcalls _).symm.trans hcall)
      have hstored := ha.2.2 (.error exception, old)
        (by simp [inserting, hold, htimed, hstore]) hpair
      contradiction
  | unresolved hracedPc hfind =>
      cases Option.some.inj ((hcalls _).symm.trans hcall)
      obtain ⟨m, hm, hpair'⟩ := hraced hpair _ hracedPc
      obtain ⟨apiKey, hapiKey, rfl⟩ := Option.map_eq_some_iff.mp hpair
      rw [hapiKey, findExisting_eq hm hpair'] at hfind
      contradiction
  | replayed =>
      cases Option.some.inj ((hcalls _).symm.trans hcall)
      rcases replayed_cases _ _ old.data with heq | ⟨detail, heq⟩
      · cases heq.symm.trans hpc
      · cases heq.symm.trans hpc
        rfl
  | inserted =>
      cases Option.some.inj ((hcalls _).symm.trans hcall)
      rcases afterInsert_cases old.data _ _ with heq | heq <;> cases heq.symm.trans hpc
  | _ =>
      cases Option.some.inj ((hcalls _).symm.trans hcall)
      cases hpc

theorem Idempotent.step (h : Idempotent pair s) (hok : CallsOk s) (ha : Undisturbed pair s a)
    (hstep : System.step s a = some t) : Idempotent pair t := by
  have hok' := hok.step hstep
  constructor
  case kept =>
    intro c row hrow hpair
    have hold : Event.inserted c row ∈ s.log →
        ∃ m ∈ t.db.messages.rows, m.idempotencyPair = some pair ∧ m.id = row.id := by
      intro hmem
      obtain ⟨m, hm, hpair', hid⟩ := h.kept c row hmem hpair
      obtain ⟨m', hm', hpair'', hid'⟩ := pair_survives hok ha hstep hm hpair'
      exact ⟨m', hm', hpair'', hid'.trans hid⟩
    rcases (step_refines hok.past hstep).2 with heq | hview
    · have hlog : s.log = t.log := congrArg Lifecycle.log heq
      exact hold (hlog ▸ hrow)
    · rcases hview.event hrow with hmem | hnew
      · exact hold hmem
      · cases hnew with
        | inserted _ _ hmem => exact ⟨row, hmem, hpair, rfl⟩
  case raced =>
    intro c call hcall hpair context hpc
    rcases call_cases hstep c with ⟨hsame, _⟩ | ⟨_, _, call', hcall', hbegun⟩ |
      ⟨old, action, hold, rfl, hmoved⟩
    · obtain ⟨m, hm, hpair'⟩ := h.raced c call (hsame ▸ hcall) hpair context hpc
      obtain ⟨m', hm', hpair'', _⟩ := pair_survives hok ha hstep hm hpair'
      exact ⟨m', hm', hpair''⟩
    · cases Option.some.inj (hcall'.symm.trans hcall)
      rw [hbegun] at hpc
      contradiction
    · obtain ⟨m, hm, hpair'⟩ := raced_of_callStep hmoved hold hcall hpc hok hpair
      obtain ⟨m', hm', hpair'', _⟩ := pair_survives hok ha hstep hm hpair'
      exact ⟨m', hm', hpair''⟩
  case raised =>
    intro c call error hcall hpair hpc
    rcases call_cases hstep c with ⟨hsame, _⟩ | ⟨_, _, call', hcall', hbegun⟩ |
      ⟨old, action, hold, rfl, hmoved⟩
    · exact h.raised c call error (hsame ▸ hcall) hpair hpc
    · cases Option.some.inj (hcall'.symm.trans hcall)
      rw [hbegun] at hpc
      contradiction
    · exact raised_of_callStep hmoved hold hcall hpc ha hpair (h.raced c old hold)

theorem idempotent_of_reachable (h : Reachable (Undisturbed pair) s) :
    CallsOk s ∧ Idempotent pair s := by
  obtain ⟨clock, h⟩ := h
  exact h.invariant (fun u => CallsOk u ∧ Idempotent pair u)
    ⟨callsOk_init clock, idempotent_init pair clock⟩ fun _ _ _ hinv ha hstep =>
      ⟨hinv.1.step hstep, hinv.2.step hinv.1 ha hstep⟩

private theorem inserted_of_created {call : CreateCall} {c : Nat} {m : Message}
    {deeds : List Event} (h : call.Created c m deeds) : Event.inserted c m ∈ deeds := by
  obtain ⟨now, _, hdeeds⟩ := h
  split at hdeeds
  · rcases hdeeds with ⟨task, time, _, rfl⟩ | rfl <;> simp
  · simp [hdeeds]

private theorem mem_log_of_deeds {c : Nat} {event : Event} (h : event ∈ s.deeds c) :
    event ∈ s.log :=
  (List.mem_filter.mp h).1

/-- A call publishes only what it has inserted. -/
theorem Traced.inserted_of_published (h : Traced s) {c : Nat} {task : Task} {stamp time : Time}
    (hpublished : Event.published (.call c) task stamp time ∈ s.log) :
    ∃ m, Event.inserted c m ∈ s.log ∧ task.message = m.id := by
  have hmem : Event.published (.call c) task stamp time ∈ s.deeds c :=
    List.mem_filter.mpr ⟨hpublished, by simp [Event.caller]⟩
  cases hcall : s.calls[c]? with
  | none =>
      rw [h.unborn c hcall] at hmem
      contradiction
  | some call =>
      have hdid := h.did c call hcall
      unfold CreateCall.Did at hdid
      split at hdid
      next => simp [hdid.2] at hmem
      next => simp [hdid.2.2] at hmem
      next m _ =>
        refine ⟨m, mem_log_of_deeds (inserted_of_created hdid), ?_⟩
        obtain ⟨now, _, hdeeds⟩ := hdid
        split at hdeeds
        · rcases hdeeds with ⟨task', time', hid, heq⟩ | heq
          · rw [heq] at hmem
            rcases List.mem_cons.mp hmem with hsame | hinserted
            · cases hsame
              exact hid
            · simp at hinserted
          · simp [heq] at hmem
        · simp [hdeeds] at hmem
      next => rcases hdid with hdid | ⟨m, hdid⟩ <;> simp [hdid] at hmem
      next => simp [hdid] at hmem

theorem Idempotent.row_of_answer (h : Idempotent pair s) (hok : CallsOk s) {c : Nat}
    {call : CreateCall} (hcall : s.calls[c]? = some call) (hpair : call.pair = some pair)
    {m : Message} (hm : m ∈ call.message) :
    ∃ row ∈ s.db.messages.rows, row.idempotencyPair = some pair ∧ row.id = m.id := by
  have hanswers := hok.answered c call hcall m hm
  obtain ⟨row, ⟨d, hrow⟩, hfrozen⟩ := hanswers.accepted
  have hrowPair : row.idempotencyPair = some pair := by
    rw [idempotencyPair_eq_of_frozen hfrozen,
      pair_of_columns hanswers.apiKey hanswers.idempotencyKey, hpair]
  obtain ⟨kept, hkept, hkeptPair, hid⟩ := h.kept d row hrow hrowPair
  exact ⟨kept, hkept, hkeptPair, hid.trans (id_eq_of_frozen hfrozen)⟩

theorem Idempotent.outcome (h : Idempotent pair s) (hok : CallsOk s) {c : Nat}
    {call : CreateCall} (hcall : s.calls[c]? = some call) (hpair : call.pair = some pair) :
    Outcome s pair c call := by
  have hdid := hok.traced.did c call hcall
  unfold Outcome
  split
  next m created hpc =>
    refine ⟨h.row_of_answer hok hcall hpair (by rw [CreateCall.message, hpc]; rfl), ?_⟩
    cases created <;> simpa [CreateCall.Did, hpc] using hdid
  next error hpc =>
    refine ⟨h.raised c call error hcall hpair hpc, ?_⟩
    simpa only [CreateCall.Did, hpc] using hdid
  next hpc => simpa only [CreateCall.Did, hpc] using hdid
  next => trivial

end System

/-- However calls with one pair interleave, there is one row, one call that creates it and
publishes its task, and every other call is a replay or fails in one of the documented
ways and does nothing. -/
theorem create_message_idempotent {pair : ApiKeyId × String} {s : System}
    (h : System.Reachable (System.Undisturbed pair) s) :
    (∀ m ∈ s.db.messages.rows, ∀ m' ∈ s.db.messages.rows, m.idempotencyPair = some pair →
      m'.idempotencyPair = some pair → m = m') ∧
    (∀ (c c' : Nat) (call call' : CreateCall) (m m' : Message), s.calls[c]? = some call →
      call.pair = some pair → call.pc = .returned m true → s.calls[c']? = some call' →
      call'.pair = some pair → call'.pc = .returned m' true → c = c') ∧
    (∀ (c : Nat) (call : CreateCall), s.calls[c]? = some call → call.pair = some pair →
      s.Outcome pair c call) ∧
    (∀ c c' task task' stamp stamp' time time',
      Event.published (.call c) task stamp time ∈ s.log →
      Event.published (.call c') task' stamp' time' ∈ s.log →
      task.message = task'.message → c = c') ∧
    ∀ c action t, System.step s (.call c action) = some t → t.log = s.log →
      t.db = s.db ∧ t.broker = s.broker := by
  obtain ⟨hok, hinv⟩ := System.idempotent_of_reachable h
  have hunique : ∀ c c' m m', Event.inserted c m ∈ s.log → Event.inserted c' m' ∈ s.log →
      m.id = m'.id → c = c' := fun c c' m m' hm hm' hid =>
    (hok.history.unique c m c' m' hm hm' hid).1
  refine ⟨?_, ?_, ?_, ?_, ?_⟩
  · intro m hm m' hm' hpair hpair'
    exact s.db.messages.eq_of_index hm hm' hpair hpair'
  · intro c c' call call' m m' hcall hpair hpc hcall' hpair' hpc'
    have houtcome := hinv.outcome hok hcall hpair
    have houtcome' := hinv.outcome hok hcall' hpair'
    simp only [System.Outcome, hpc, hpc', if_true] at houtcome houtcome'
    obtain ⟨⟨row, hrow, hrowPair, hid⟩, hcreated⟩ := houtcome
    obtain ⟨⟨row', hrow', hrowPair', hid'⟩, hcreated'⟩ := houtcome'
    have heq := s.db.messages.eq_of_index hrow hrow' hrowPair hrowPair'
    exact hunique c c' m m' (System.mem_log_of_deeds (System.inserted_of_created hcreated))
      (System.mem_log_of_deeds (System.inserted_of_created hcreated'))
      (hid.symm.trans (heq ▸ hid'))
  · exact fun c call hcall hpair => hinv.outcome hok hcall hpair
  · intro c c' task task' stamp stamp' time time' hpublished hpublished' hid
    obtain ⟨m, hm, hkey⟩ := hok.traced.inserted_of_published hpublished
    obtain ⟨m', hm', hkey'⟩ := hok.traced.inserted_of_published hpublished'
    exact hunique c c' m m' hm hm' (hkey.symm.trans (hid.trans hkey'))
  · exact fun c action t hstep hlog => System.quiet_of_log_eq hstep hlog

/-- Two calls read the same empty table; the second loses the race and replays. -/
theorem create_message_idempotent_race :
    ∃ s call, System.Reachable (System.Undisturbed (1, "key")) s ∧ s.calls[1]? = some call ∧
      (∃ m, call.pc = .returned m false) ∧ s.Outcome (1, "key") 1 call := by
  have hs : System.Reachable (System.Undisturbed (1, "key")) _ := ⟨0,
    Transition.reaches_of_runAll (.upsertTemplate System.plainTemplate 1 1 ::
      [.begin (some 1) "key" (System.plainData none), .begin (some 1) "key" (System.plainData none),
        .call 0 .lookup, .call 1 .lookup, .call 0 (.render System.plainEngine),
        .call 1 (.render System.plainEngine), .call 0 .readClock, .call 1 .readClock,
        .call 0 (.insert "M1" System.plainPostgres), .call 1 (.insert "M2" System.plainPostgres),
        .call 1 .lookupAgain,
        .call 0 (.publish "T1" true)]) rfl⟩
  exact ⟨_, _, hs, rfl, ⟨_, rfl⟩, (create_message_idempotent hs).2.2.1 1 _ rfl rfl⟩

def brackets (depth : Nat) : String := String.ofList (List.replicate depth '[')

/-- How deep the arrays a text begins with are nested. -/
def nesting (text : String) : Nat := (text.toList.takeWhile (· == '[')).length

theorem length_brackets (depth : Nat) : (brackets depth).length = depth := by simp [brackets]

theorem nesting_brackets (depth : Nat) : nesting (brackets depth) = depth := by
  simp [nesting, brackets]

def deepTemplate : Templates.UpsertRequest :=
  ⟨"deep", .webhook, "", "\x7b\x7b '[' * 100000 \x7d\x7d"⟩

def deepVersion : TemplateVersion := ⟨1, 1, 1, "", deepTemplate.bodyTemplate⟩

def deepData : MessageData :=
  { System.plainData none with
    channel := .webhook, recipient := "https://example.com/hook", template := some "deep" }

/-- An interpreter that stops at a nesting of `limit`; the body of `deepTemplate` is
evaluated to `depth` brackets. -/
def deepEngine (limit depth : Nat) : Engine where
  jinja := fun _ source _ =>
    .ok (if source = deepTemplate.bodyTemplate then brackets depth else source)
  leaves := fun _ _ context => context
  jsonLoads := fun text => if limit < nesting text then .recursionError else .value
  postgres := System.plainPostgres

theorem overflows_deepVersion {limit depth : Nat} (hlimit : limit < depth)
    (hfits : depth ≤ Renderer.maxRenderedChars) (context : JsonObject) :
    Renderer.overflows (deepEngine limit depth) deepVersion context .webhook = true := by
  have htexts : Renderer.renderTexts (deepEngine limit depth) deepVersion context .webhook =
      .ok ⟨⟨"", brackets depth⟩, context⟩ := by
    simp only [Renderer.renderTexts, deepEngine, deepVersion, if_true]
    rfl
  have hloads : (deepEngine limit depth).jsonLoads (brackets depth) = .recursionError := by
    simp only [deepEngine, nesting_brackets, if_pos hlimit]
  simp [Renderer.overflows, htexts, hloads, length_brackets, hfits]

/-- The template asks for 100000 brackets where the interpreter allows 10000: the
`RecursionError` of `json.loads` leaves `render` and `create_message`. -/
theorem create_message_recursionError :
    ∃ s call, System.Reachable Transition.anyStep s ∧ s.calls[0]? = some call ∧
      call.pair = some (1, "key") ∧ call.pc = .raised .recursionError := by
  obtain ⟨s, hs, hcall, hresolve⟩ : ∃ s, System.Reaches Transition.anyStep (System.init 0) s ∧
      s.calls[0]? = some ⟨some 1, "key", deepData, none, .missed⟩ ∧
      resolveTemplate s.db deepData = .ok deepVersion :=
    ⟨_, Transition.reaches_of_runAll ([.upsertTemplate deepTemplate 1 1,
      .begin (some 1) "key" deepData, .call 0 .lookup]) rfl, rfl, rfl⟩
  have hoverflows : overflows (deepEngine 10000 100000) s.db deepData = true := by
    simp only [overflows, hresolve]
    exact overflows_deepVersion (by decide) (by decide) _
  have hstep := System.step_render_error hcall rfl (resolveAndRender_recursionError hoverflows)
  refine ⟨_, ⟨some 1, "key", deepData, none, .raised .recursionError⟩,
    ⟨0, hs.tail ⟨_, trivial, hstep⟩⟩, ?_, rfl, rfl⟩
  exact Pool.get_set_self hcall _

end NotifyRelay
