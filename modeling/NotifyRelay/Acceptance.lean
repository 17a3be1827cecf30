import NotifyRelay.Calls

/-! What was accepted is what is sent. Every row goes back to one insert, the insert to one
rendering, and whatever a worker sends or buries is the row as it was inserted. -/
namespace NotifyRelay

open Services Delivery Scheduler

theorem snapshot_of_frozen {a b : Message} (h : a.frozen = b.frozen) : snapshot a = snapshot b := by
  change snapshot a.frozen = snapshot b.frozen
  rw [h]

namespace Lifecycle

/-- What left the table, to a channel or as a dead letter, was inserted as it is. -/
structure Faithful (v : Lifecycle) : Prop where
  sends : ∀ r m time, Event.sendInvoked r m time ∈ v.log →
    ∃ row, Accepted v.log row ∧ row.frozen = m.frozen
  letters : ∀ letter ∈ v.deadLetters.rows,
    ∃ row, Accepted v.log row ∧ row.id = letter.message ∧ letter.payloadSnapshot = snapshot row

variable {v w : Lifecycle} {a : System.Action}

theorem faithful_init (clock : Time) : Faithful (init clock) := by
  constructor <;> simp [init, Table.empty]

theorem Faithful.step (h : Faithful v) (hhistory : History v) (hstep : Step v a w) :
    Faithful w := by
  have hsub := hstep.log_subset
  constructor
  case sends =>
    intro r m time hmem
    have hrow : ∃ row, Accepted v.log row ∧ row.frozen = m.frozen := by
      rcases hstep.event hmem with hold | hnew
      · exact h.sends r m time hold
      · cases hnew with
        | sendInvoked hrun => exact (hhistory.runs r _ hrun).2
    exact hrow.imp fun _ hrow => ⟨hrow.1.mono hsub, hrow.2⟩
  case letters =>
    intro letter hletter
    rcases hstep.letter hletter with hold | ⟨r, run, status, hrun, _, _, _, hid, hsnapshot⟩
    · obtain ⟨row, hrow, hkey, hsame⟩ := h.letters letter hold
      exact ⟨row, hrow.mono hsub, hkey, hsame⟩
    · obtain ⟨_, row, hrow, hfrozen⟩ := hhistory.runs r run hrun
      refine ⟨row, hrow.mono hsub, (id_eq_of_frozen hfrozen).trans hid.symm, ?_⟩
      rw [hsnapshot, snapshot_of_frozen hfrozen]

end Lifecycle

/-- What a call has rendered and not yet inserted. -/
def CreatePc.rendering : CreatePc → Option (TemplateVersion × RenderOutcome)
  | .rendered version message => some (version, message)
  | .timed version message _ => some (version, message)
  | _ => none

namespace System

variable {allowed : System → Action → Prop} {s t : System} {a : Action} {c : Nat}
  {call call' : CreateCall} {version : TemplateVersion} {rendered : RenderOutcome}

/-- In some earlier state call `c` found this version for its payload and rendered it. -/
def RenderedBefore (allowed : System → Action → Prop) (s : System) (c : Nat)
    (data : MessageData) (version : TemplateVersion) (rendered : RenderOutcome) : Prop :=
  ∃ u engine call, Reachable allowed u ∧ Reaches allowed u s ∧
    allowed u (.call c (.render engine)) ∧ u.calls[c]? = some call ∧ call.data = data ∧
    Resolved u.db data version ∧
    Renderer.render engine version (JsonObject.orEmpty data.context) data.channel = .ok rendered

theorem RenderedBefore.step {data : MessageData}
    (h : RenderedBefore allowed s c data version rendered) (ha : allowed s a)
    (hstep : step s a = some t) : RenderedBefore allowed t c data version rendered := by
  obtain ⟨u, engine, call, hu, hreaches, hallowed, hresult⟩ := h
  exact ⟨u, engine, call, hu, hreaches.tail ⟨a, ha, hstep⟩, hallowed, hresult⟩

/-- The row is what its call made of what it had rendered, and its context what was stored of the
one the templates had left. -/
def Origin (allowed : System → Action → Prop) (s : System) (c : Nat) (row : Message) : Prop :=
  ∃ call version rendered postgres context id now clock, s.calls[c]? = some call ∧
    RenderedBefore allowed s c call.data version rendered ∧
    Postgres.store postgres (messageValues call.idempotencyKey call.data rendered) = .ok context ∧
    row = newMessage id call.apiKey call.idempotencyKey call.data version
      rendered.toRenderedMessage context now clock

structure Rendering (allowed : System → Action → Prop) (s : System) : Prop where
  calls : ∀ (c : Nat) (call : CreateCall) (version : TemplateVersion)
    (rendered : RenderOutcome), s.calls[c]? = some call →
    call.pc.rendering = some (version, rendered) →
    RenderedBefore allowed s c call.data version rendered
  log : ∀ c row, .inserted c row ∈ s.log → Origin allowed s c row

theorem rendering_init (clock : Time) : Rendering allowed (init clock) := by
  constructor <;> simp [init]

private theorem eq_of_set {old new : CreateCall} (hold : s.calls[c]? = some old)
    (hcall : t.calls[c]? = some call) (hset : t.calls = s.calls.set c new) : new = call := by
  have hget := Pool.get_set_self hold new
  rw [← hset, hcall] at hget
  exact (Option.some.inj hget).symm

theorem rendered_of_step {engine : Engine} (h : step s (.call c (.render engine)) = some t)
    (hcall : t.calls[c]? = some call) (hpc : call.pc.rendering = some (version, rendered)) :
    resolveAndRender engine s.db call.data = .ok (version, rendered) := by
  obtain ⟨old, hold, hstep⟩ := Option.bind_eq_some_iff.mp h
  generalize hplace : old.pc = pc at hstep
  cases pc with
  | missed =>
      dsimp only [stepCall] at hstep
      split at hstep <;> cases hstep
      next =>
        cases eq_of_set hold hcall rfl
        cases hpc
      next hrender =>
        cases eq_of_set hold hcall rfl
        cases hpc
        exact hrender
  | _ => cases hstep

/-- A call keeps what it was asked. -/
theorem CallStep.kept {action : CallAction} (h : CallStep s c call action t)
    (hcall : s.calls[c]? = some call) :
    ∃ call', t.calls[c]? = some call' ∧ call'.apiKey = call.apiKey ∧
      call'.idempotencyKey = call.idempotencyKey ∧ call'.data = call.data := by
  have hcalls : ∀ call' : CreateCall, (s.calls.set c call')[c]? = some call' := fun call' => by
    rw [Pool.get_set_self hcall]
  cases h <;> exact ⟨_, hcalls _, rfl, rfl, rfl⟩

theorem kept_of_step (hstep : step s a = some t) (hcall : s.calls[c]? = some call) :
    ∃ call', t.calls[c]? = some call' ∧ call'.apiKey = call.apiKey ∧
      call'.idempotencyKey = call.idempotencyKey ∧ call'.data = call.data := by
  rcases call_cases hstep c with ⟨hsame, _⟩ | ⟨hnone, _⟩ | ⟨old, action, hold, rfl, hmoved⟩
  · exact ⟨call, hsame.trans hcall, rfl, rfl, rfl⟩
  · rw [hcall] at hnone
    contradiction
  · cases Option.some.inj (hold.symm.trans hcall)
    exact hmoved.kept hold

theorem Origin.step {row : Message} (h : Origin allowed s c row) (ha : allowed s a)
    (hstep : step s a = some t) : Origin allowed t c row := by
  obtain ⟨call, version, rendered, postgres, context, id, now, clock, hcall, hbefore, hstore,
    rfl⟩ := h
  obtain ⟨call', hcall', hapiKey, hkey, hdata⟩ := kept_of_step hstep hcall
  refine ⟨call', version, rendered, postgres, context, id, now, clock, hcall', ?_, ?_, ?_⟩
  · exact hdata ▸ hbefore.step ha hstep
  · rw [hkey, hdata, hstore]
  · rw [hapiKey, hkey, hdata]

theorem Rendering.step (h : Rendering allowed s) (hs : Reachable allowed s) (ha : allowed s a)
    (hstep : step s a = some t) : Rendering allowed t := by
  constructor
  case calls =>
    intro c call version rendered hcall hpc
    rcases call_cases hstep c with ⟨hsame, _⟩ | ⟨_, _, new, hnew, hbegun⟩ |
      ⟨old, action, hold, rfl, hmoved⟩
    · exact (h.calls c call version rendered (hsame ▸ hcall) hpc).step ha hstep
    · cases Option.some.inj (hnew.symm.trans hcall)
      rw [hbegun] at hpc
      cases hpc
    · cases hmoved with
      | rendered =>
          obtain ⟨hresolved, hrender⟩ := resolveAndRender_ok (rendered_of_step hstep hcall hpc)
          have hdata : old.data = call.data := by
            cases eq_of_set hold hcall rfl
            rfl
          exact ⟨s, _, old, hs, .single ⟨_, ha, hstep⟩, ha, hold, hdata, hresolved, hrender⟩
      | timed hrendered =>
          cases eq_of_set hold hcall rfl
          have hbefore := h.calls c old version rendered hold (by rw [hrendered]; exact hpc)
          exact hbefore.step ha hstep
      | replayed =>
          cases eq_of_set hold hcall rfl
          unfold replayed at hpc
          split at hpc <;> cases hpc
      | inserted =>
          cases eq_of_set hold hcall rfl
          unfold afterInsert at hpc
          split at hpc <;> cases hpc
      | _ =>
          cases eq_of_set hold hcall rfl
          cases hpc
  case log =>
    intro c row hmem
    by_cases hold : .inserted c row ∈ s.log
    · exact (h.log c row hold).step ha hstep
    have hdeeds : ∀ u : System, Event.inserted c row ∈ u.log ↔
        Event.inserted c row ∈ u.deeds c := fun u => by simp [deeds, Event.caller]
    rcases call_cases hstep c with ⟨_, hsame⟩ | ⟨_, hsame, _⟩ | ⟨old, action, hcall, rfl, hmoved⟩
    · rw [hdeeds, hsame, ← hdeeds] at hmem
      contradiction
    · rw [hdeeds, hsame, ← hdeeds] at hmem
      contradiction
    · obtain ⟨call', hcall', hapiKey, hkey, hdata⟩ := hmoved.kept hcall
      cases hmoved with
      | @inserted id postgres version rendered context now message messages htimed hstore
          hmessage =>
          rcases List.mem_cons.mp hmem with heq | hmem
          · cases heq
            have hbefore := h.calls c old version rendered hcall (by rw [htimed]; rfl)
            refine ⟨call', version, rendered, postgres, context, id, now, s.clock, hcall', ?_, ?_,
              ?_⟩
            · exact hdata ▸ hbefore.step ha hstep
            · rw [hkey, hdata, hstore]
            · rw [hapiKey, hkey, hdata, hmessage]
          · contradiction
      | published => exact absurd ((List.mem_cons.mp hmem).resolve_left (by simp)) hold
      | refused => exact absurd ((List.mem_cons.mp hmem).resolve_left (by simp)) hold
      | _ => exact absurd hmem hold

theorem rendering_of_reachable (h : Reachable allowed s) : Rendering allowed s := by
  obtain ⟨clock, h⟩ := h
  refine (h.invariant (fun u => Reachable allowed u ∧ Rendering allowed u)
    ⟨⟨clock, .refl⟩, rendering_init clock⟩ ?_).2
  intro u a w hinv ha hstep
  obtain ⟨⟨start, hu⟩, hrendering⟩ := hinv
  exact ⟨⟨start, hu.tail ⟨a, ha, hstep⟩⟩, hrendering.step ⟨start, hu⟩ ha hstep⟩

/-- No text with a NUL gets into a row. -/
theorem storable_of_inserted (h : Reachable allowed s) {row : Message}
    (hrow : .inserted c row ∈ s.log) :
    storableText row.idempotencyKey = true ∧ storableText row.recipient = true ∧
      storableText row.renderedSubject = true ∧ storableText row.renderedBody = true := by
  obtain ⟨call, version, rendered, postgres, context, id, now, clock, _, _, hstore, rfl⟩ :=
    (rendering_of_reachable h).log c row hrow
  cases hstorable : (messageValues call.idempotencyKey call.data rendered).storable with
  | false =>
      obtain ⟨exception, hrefused⟩ := postgres.refused _ hstorable
      rw [hstore] at hrefused
      contradiction
  | true =>
      simp only [MessageValues.storable, Bool.and_eq_true] at hstorable
      obtain ⟨⟨⟨⟨hkey, hrecipient⟩, hsubject⟩, hbody⟩, _⟩ := hstorable
      exact ⟨hkey, hrecipient, hsubject, hbody⟩

/-- The templates leave the contexts they are given as they are. -/
def leavesContexts (_ : System) : Action → Prop
  | .call _ (.render engine) =>
      ∀ escape source context, engine.leaves escape source context = context
  | _ => True

/-- Then a context of small numbers is stored as it was sent. -/
theorem context_of_inserted (h : Reachable leavesContexts s) {row : Message}
    (hrow : .inserted c row ∈ s.log) :
    ∃ call, s.calls[c]? = some call ∧ ((JsonObject.orEmpty call.data.context).small = true →
      (JsonObject.orEmpty call.data.context).pyEq row.context = true) := by
  obtain ⟨call, version, rendered, postgres, context, id, now, clock, hcall, hbefore, hstore,
    rfl⟩ := (rendering_of_reachable h).log c row hrow
  obtain ⟨u, engine, early, _, _, hleaves, _, _, _, hrender⟩ := hbefore
  refine ⟨call, hcall, fun hsmall => postgres.kept _ _ _ ?_ hsmall hstore⟩
  exact keptContext_of_eq (Renderer.render_context hleaves hrender)

theorem faithful_of_reachable (h : Reachable allowed s) : Lifecycle.Faithful s.view :=
  (invariant_of_lifecycle Transition.anyStep
    (fun v => Lifecycle.History v ∧ Lifecycle.Faithful v) (fun _ _ _ => trivial)
    (fun clock => ⟨Lifecycle.history_init clock, Lifecycle.faithful_init clock⟩)
    (fun _ _ _ hinv _ hstep => ⟨hinv.1.step hstep, hinv.2.step hinv.1 hstep⟩) h).2

/-- What is stored, sent and buried of a message is what `row` says. -/
structure Keeps (s : System) (row : Message) : Prop where
  rows : ∀ m ∈ s.db.messages.rows, m.id = row.id → m.frozen = row.frozen
  sends : ∀ r m time, .sendInvoked r m time ∈ s.log → m.id = row.id → m.frozen = row.frozen
  letters : ∀ letter ∈ s.db.deadLetters.rows, letter.message = row.id →
    letter.payloadSnapshot = snapshot row

end System

section Scenario

end Scenario

end NotifyRelay
