import NotifyRelay.Limiter

/-! What becomes of a call of `consume`: how often it is charged, how many commands it sends, and
when Redis cannot fail it. -/
namespace NotifyRelay

open TokenBucket

/-- It has caught `NoScriptError` and loaded the script. -/
def ConsumePc.retrying : ConsumePc → Bool
  | .evaluating true => true
  | _ => false

/-- The script has not run for it. -/
def ConsumePc.uncharged : ConsumePc → Bool
  | .answered _ | .failed => false
  | _ => true

/-- How many commands a call has left, at most. -/
def ConsumePc.commandsLeft : ConsumePc → Nat
  | .begun | .loading false => 4
  | .evaluating false => 3
  | .loading true => 2
  | .evaluating true => 1
  | .answered _ | .failed | .invalid => 0

/-- `consume` takes these limits. -/
def Derived.Valid (derived : Derived) : Prop := 0 < derived.ratePerMin ∧ 0 < derived.burst

/-- How many steps a call has left, at most. -/
def ConsumePc.stepsLeft : ConsumePc → Nat
  | .begun => 5
  | .loading false => 4
  | .evaluating false => 3
  | .loading true => 2
  | .evaluating true => 1
  | .answered _ | .failed | .invalid => 0

/-- What the executions for a call owe to its place. -/
structure Consumption.Charged (call : Consumption) (own : List Execution) : Prop where
  once : own.length ≤ 1
  uncharged : call.pc.uncharged = true → own = []
  answered : ∀ result, call.pc = .answered result →
    ∃ e, own = [e] ∧ e.derived = call.derived ∧ e.result = result

namespace Limiter

/-- A command of call `c`, unless the client library sends it once more. -/
def sends (c : Nat) : Action → Bool
  | .call d (.load reply) | .call d (.eval reply) => d == c && reply != .resent
  | _ => false

def executionsFor (s : Limiter) (c : Nat) : List Execution := s.log.filter fun e => e.call == c

/-- The client library sends no `EVALSHA` twice. -/
def Unrepeated (_ : Limiter) : Action → Prop
  | .call _ (.eval .resent) => False
  | _ => True

instance (s : Limiter) : (a : Action) → Decidable (Unrepeated s a)
  | .call _ (.eval .resent) => .isFalse id
  | .call _ (.eval .answers) | .call _ (.eval .lost) | .call _ (.eval .fails) => .isTrue trivial
  | .call _ .start | .call _ (.load _) => .isTrue trivial
  | .tick _ | .boot | .arrive _ _ | .flush | .wipe => .isTrue trivial

/-- Redis answers, and forgets its scripts only while no call relies on having just loaded it. -/
def Calm (s : Limiter) : Action → Prop
  | .call _ (.load reply) | .call _ (.eval reply) => reply = .answers
  | .flush | .wipe => ∀ call ∈ s.calls, call.pc.retrying = false
  | _ => True

instance (s : Limiter) : (a : Action) → Decidable (Calm s a)
  | .call _ (.load reply) | .call _ (.eval reply) => inferInstanceAs (Decidable (reply = .answers))
  | .flush | .wipe => inferInstanceAs (Decidable (∀ call ∈ s.calls, call.pc.retrying = false))
  | .call _ .start | .tick _ | .boot | .arrive _ _ => .isTrue trivial

section Commands

variable {s t : Limiter} {c : Nat} {call : Consumption} {action : CallAction}

theorem after_commandsLeft_le {reply : RedisReply} {pc next : ConsumePc}
    (hnext : next.commandsLeft + 1 ≤ pc.commandsLeft) :
    (if reply != .resent then 1 else 0) + (reply.after pc next).commandsLeft ≤
      pc.commandsLeft := by
  cases reply with
  | answers => simpa [RedisReply.after, Nat.add_comm] using hnext
  | resent => simp [RedisReply.after]
  | lost | fails => exact (Nat.le_add_left 1 _).trans hnext

/-- Where a step leads, in commands. -/
theorem CallStep.commandsLeft_le (h : CallStep s c call action t) :
    ∃ pc, t.calls = s.calls.set c { call with pc := pc } ∧
      (if sends c (.call c action) then 1 else 0) + pc.commandsLeft ≤ call.pc.commandsLeft := by
  cases h with
  | @started known hpc hknown =>
      refine ⟨_, rfl, ?_⟩
      rw [hpc]
      cases known <;> simp [sends, ConsumePc.commandsLeft]
  | @loadFailed again hpc =>
      refine ⟨_, rfl, ?_⟩
      rw [hpc]
      cases again <;> simp [sends, ConsumePc.commandsLeft]
  | @loaded again reply hpc hreply =>
      refine ⟨reply.after (.loading again) (.evaluating again), ?_, ?_⟩
      · cases reply <;> rfl
      · rw [hpc]
        simp only [sends, beq_self_eq_true, Bool.true_and]
        exact after_commandsLeft_le (by cases again <;> exact Nat.le_refl _)
  | @evalFailed again hpc =>
      refine ⟨_, rfl, ?_⟩
      rw [hpc]
      cases again <;> simp [sends, ConsumePc.commandsLeft]
  | @executed again reply result store hpc hreply hscript heval =>
      refine ⟨_, rfl, ?_⟩
      rw [hpc]
      simp only [sends, beq_self_eq_true, Bool.true_and]
      exact after_commandsLeft_le (by cases again <;> simp [ConsumePc.commandsLeft])
  | @missed again reply hpc hreply hscript =>
      refine ⟨_, rfl, ?_⟩
      rw [hpc]
      simp only [sends, beq_self_eq_true, Bool.true_and]
      exact after_commandsLeft_le (by cases again <;> simp [ConsumePc.commandsLeft])

/-- The commands that call `c` has left, also before it has come. -/
def left (s : Limiter) (c : Nat) : Nat := (s.calls[c]?.map (·.pc.commandsLeft)).getD 4

theorem commandsLeft_le_four (pc : ConsumePc) : pc.commandsLeft ≤ 4 := by
  unfold ConsumePc.commandsLeft
  split <;> decide

theorem left_of_get (hcall : s.calls[c]? = some call) : s.left c = call.pc.commandsLeft := by
  unfold left
  rw [hcall]
  rfl

theorem left_congr (h : t.calls[c]? = s.calls[c]?) : t.left c = s.left c := by
  unfold left
  rw [h]

theorem left_le_four (s : Limiter) (c : Nat) : s.left c ≤ 4 := by
  cases hcall : s.calls[c]? with
  | none =>
      unfold left
      rw [hcall]
      exact Nat.le_refl 4
  | some call =>
      rw [left_of_get hcall]
      exact commandsLeft_le_four call.pc

/-- A step costs its call a command, and the other calls nothing. -/
theorem left_step {a : Action} (hstep : step s a = some t) :
    (if sends c a then 1 else 0) + t.left c ≤ s.left c := by
  cases a with
  | call d action =>
      obtain ⟨moving, hmoving, hmoved⟩ := callStep_of_step hstep
      obtain ⟨pc, hcalls, hle⟩ := hmoved.commandsLeft_le
      by_cases hd : c = d
      · subst hd
        have hnew : t.calls[c]? = some { moving with pc := pc } := by
          rw [hcalls, Pool.get_set_self hmoving]
        rw [left_of_get hmoving, left_of_get hnew]
        exact hle
      · have hsame : t.calls[c]? = s.calls[c]? := by
          rw [hcalls, Pool.get_set_of_ne hmoving _ hd]
        have hsends : sends c (.call d action) = false := by
          cases action <;> simp [sends, Ne.symm hd]
        rw [left_congr hsame, hsends]
        exact (Nat.zero_add _).le
  | arrive process derived =>
      obtain ⟨-, ⟨⟩⟩ := Option.ite_none_right_eq_some.mp hstep
      refine (Nat.zero_add _).trans_le ?_
      cases hcall : s.calls[c]? with
      | none =>
          have hleft : s.left c = 4 := by
            unfold left
            rw [hcall]
            rfl
          rw [hleft]
          exact left_le_four _ c
      | some call =>
          refine (left_congr ?_).le
          rw [hcall]
          exact Pool.get_spawn_of_some hcall _
  | tick time =>
      obtain ⟨-, ⟨⟩⟩ := Option.ite_none_right_eq_some.mp hstep
      exact (Nat.zero_add _).le
  | boot | flush | wipe =>
      cases hstep
      exact (Nat.zero_add _).le

/-- Whatever Redis and the other calls do, a call sends at most four commands. -/
theorem commands_le_four {actions : List Action}
    (hpath : Transition.Path (Transition.graph step) s actions t) (c : Nat) :
    actions.countP (sends c) ≤ 4 := by
  have hle := hpath.countP_le (sends c) (left · c) (fun _ => True) trivial
    fun _ _ _ _ hstep => ⟨trivial, left_step hstep⟩
  exact (Nat.le_add_right _ _).trans (hle.trans (left_le_four s c))

/-- Redis forgets the script twice, and the call gives up. -/
def forgottenTwice : List Action :=
  [.boot, .arrive 0 ⟨"ip:unknown", 60, 1⟩, .call 0 .start, .call 0 (.load .resent),
    .call 0 (.load .answers), .flush, .call 0 (.eval .answers), .call 0 (.load .answers), .flush,
    .call 0 (.eval .answers)]

theorem commands_le_four_forgottenTwice : ∃ s call,
    Transition.Path (Transition.graph step) (init ⟨0, 0⟩) forgottenTwice s ∧
      s.calls[0]? = some call ∧ call.pc = .failed ∧ forgottenTwice.countP (sends 0) ≤ 4 := by
  obtain ⟨s, hs⟩ : ∃ s, Transition.runAll step Transition.anyStep (init ⟨0, 0⟩) forgottenTwice =
      some s := ⟨_, rfl⟩
  have hpath := Transition.path_of_runAll hs
  refine ⟨s, ⟨0, ⟨"ip:unknown", 60, 1⟩, .failed⟩, hpath, ?_, rfl, commands_le_four hpath 0⟩
  cases hs
  rfl

end Commands

section Charges

variable {s t : Limiter} {a : Action} {c : Nat} {call : Consumption} {action : CallAction}

/-- Every call and every execution have each other. -/
structure Accounted (s : Limiter) : Prop where
  calls : ∀ (c : Nat) (call : Consumption), s.calls[c]? = some call →
    call.Charged (s.executionsFor c)
  log : ∀ e ∈ s.log, e.call < s.calls.length

theorem CallStep.uncharged (h : CallStep s c call action t) : call.pc.uncharged = true := by
  cases h with
  | started hpc _ | loadFailed hpc | loaded hpc _ | evalFailed hpc | executed hpc _ _ _
  | missed hpc _ _ => rw [hpc]; rfl

theorem after_ne_answered {reply : RedisReply} {pc next : ConsumePc}
    (hpc : ∀ result, pc ≠ .answered result) (hnext : ∀ result, next ≠ .answered result)
    (result : BucketResult) : reply.after pc next ≠ .answered result := by
  cases reply with
  | answers => exact hnext result
  | resent => exact hpc result
  | lost | fails => exact nofun

/-- The log grows with an execution for the call, or the call gets no answer. -/
theorem CallStep.charge (h : CallStep s c call action t) :
    ∃ pc, t.calls = s.calls.set c { call with pc := pc } ∧
      ((t.log = s.log ∧ ∀ result, pc ≠ .answered result) ∨
        ∃ e, t.log = e :: s.log ∧ e.call = c ∧ e.derived = call.derived ∧
          (pc = .answered e.result ∨ pc = .failed ∨ pc = call.pc ∧ action = .eval .resent)) := by
  cases h with
  | @started known hpc hknown =>
      refine ⟨_, rfl, .inl ⟨rfl, fun result => ?_⟩⟩
      cases known <;> exact nofun
  | loadFailed hpc => exact ⟨_, rfl, .inl ⟨rfl, fun _ => nofun⟩⟩
  | @loaded again reply hpc hreply =>
      refine ⟨reply.after (.loading again) (.evaluating again), ?_, .inl ⟨?_, ?_⟩⟩
      · cases reply <;> rfl
      · cases reply <;> rfl
      · exact after_ne_answered (fun _ => nofun) fun _ => nofun
  | evalFailed hpc => exact ⟨_, rfl, .inl ⟨rfl, fun _ => nofun⟩⟩
  | @executed again reply result store hpc hreply hscript heval =>
      refine ⟨_, rfl, .inr ⟨_, rfl, rfl, rfl, ?_⟩⟩
      cases reply with
      | answers => exact .inl rfl
      | resent => exact .inr (.inr ⟨hpc.symm, rfl⟩)
      | lost => exact .inr (.inl rfl)
      | fails => exact absurd rfl hreply
  | @missed again reply hpc hreply hscript =>
      refine ⟨_, rfl, .inl ⟨rfl, after_ne_answered (fun _ => nofun) fun _ => ?_⟩⟩
      cases again <;> exact nofun

/-- An answer is that of an execution for the call, and an execution is for a call. -/
structure Logged (s : Limiter) : Prop where
  answers : ∀ (c : Nat) (call : Consumption), s.calls[c]? = some call → ∀ result,
    call.pc = .answered result →
      ∃ e ∈ s.log, e.call = c ∧ e.derived = call.derived ∧ e.result = result
  calls : ∀ e ∈ s.log, ∃ call, s.calls[e.call]? = some call ∧ call.derived = e.derived

theorem Logged.call_step (h : Logged s) (hcall : s.calls[c]? = some call)
    (hstep : CallStep s c call action t) : Logged t := by
  obtain ⟨pc, hcalls, hcharge⟩ := hstep.charge
  have hnew : t.calls[c]? = some { call with pc := pc } := by
    rw [hcalls, Pool.get_set_self hcall]
  have hold : ∀ e ∈ s.log, ∃ call, t.calls[e.call]? = some call ∧ call.derived = e.derived := by
    intro e hmem
    obtain ⟨own, hown, hderived⟩ := h.calls e hmem
    by_cases hc : e.call = c
    · rw [hc] at hown ⊢
      cases hcall.symm.trans hown
      exact ⟨_, hnew, hderived⟩
    · exact ⟨own, by rw [hcalls, Pool.get_set_of_ne hcall _ hc, hown], hderived⟩
  have hlogged : ∀ e ∈ s.log, e ∈ t.log := by
    rcases hcharge with ⟨hlog, -⟩ | ⟨new, hlog, -⟩ <;> rw [hlog]
    · exact fun _ hmem => hmem
    · exact fun _ hmem => List.mem_cons_of_mem _ hmem
  constructor
  case answers =>
    rw [hcalls]
    refine Pool.forall_get_set hcall (fun result hpc => ?_) fun d other hother _ result hpc => ?_
    · rcases hcharge with ⟨-, hnone⟩ | ⟨e, hlog, he, hderived, hpc' | hpc' | ⟨hpc', -⟩⟩
      · exact absurd hpc (hnone result)
      · cases hpc'.symm.trans hpc
        exact ⟨e, hlog ▸ List.mem_cons_self, he, hderived, rfl⟩
      · cases hpc'.symm.trans hpc
      · have huncharged := hstep.uncharged
        rw [← hpc', show pc = _ from hpc] at huncharged
        cases huncharged
    · obtain ⟨e, hmem, he⟩ := h.answers d other hother result hpc
      exact ⟨e, hlogged e hmem, he⟩
  case calls =>
    rcases hcharge with ⟨hlog, -⟩ | ⟨e, hlog, he, hderived, -⟩ <;> rw [hlog]
    · exact hold
    · exact List.forall_mem_cons.mpr
        ⟨⟨{ call with pc := pc }, by rw [he, hnew], hderived.symm⟩, hold⟩

theorem Logged.step (h : Logged s) (hstep : step s a = some t) : Logged t := by
  cases a with
  | call d action =>
      obtain ⟨moving, hmoving, hmoved⟩ := callStep_of_step hstep
      exact h.call_step hmoving hmoved
  | arrive process derived =>
      obtain ⟨-, ⟨⟩⟩ := Option.ite_none_right_eq_some.mp hstep
      constructor
      case answers =>
        refine Pool.forall_get_spawn (fun result hpc => ?_) h.answers
        dsimp only at hpc
        split at hpc <;> cases hpc
      case calls =>
        intro e hmem
        obtain ⟨call, hcall, hderived⟩ := h.calls e hmem
        exact ⟨call, Pool.get_spawn_of_some hcall _, hderived⟩
  | tick time =>
      obtain ⟨-, ⟨⟩⟩ := Option.ite_none_right_eq_some.mp hstep
      exact ⟨h.answers, h.calls⟩
  | boot | flush | wipe =>
      cases hstep
      exact ⟨h.answers, h.calls⟩

theorem logged_of_reaches {time : RedisTime} (h : Reaches Transition.anyStep (init time) s) :
    Logged s :=
  h.invariant Logged ⟨fun _ _ hcall => by simp [init] at hcall, fun _ hmem => nomatch hmem⟩
    fun _ _ _ hinv _ hstep => hinv.step hstep

theorem executionsFor_same (hlog : t.log = s.log) : t.executionsFor c = s.executionsFor c := by
  unfold executionsFor
  rw [hlog]

theorem executionsFor_own {e : Execution} (hlog : t.log = e :: s.log) (he : e.call = c) :
    t.executionsFor c = e :: s.executionsFor c := by
  unfold executionsFor
  rw [hlog, List.filter_cons_of_pos (by simpa using he)]

theorem executionsFor_other {e : Execution} (hlog : t.log = e :: s.log) (he : e.call ≠ c) :
    t.executionsFor c = s.executionsFor c := by
  unfold executionsFor
  rw [hlog, List.filter_cons_of_neg (by simpa using he)]

theorem Accounted.call_step (h : Accounted s) (hcall : s.calls[c]? = some call)
    (hstep : CallStep s c call action t) (hallowed : Unrepeated s (.call c action)) :
    Accounted t := by
  obtain ⟨pc, hcalls, hcharge⟩ := hstep.charge
  have hc := (List.getElem?_eq_some_iff.mp hcall).1
  have hnone := (h.calls c call hcall).uncharged hstep.uncharged
  constructor
  case calls =>
    rw [hcalls]
    refine Pool.forall_get_set hcall ?_ fun d other hother hne => ?_
    · rcases hcharge with ⟨hlog, hpc⟩ | ⟨e, hlog, he, hderived, hpc⟩
      · rw [executionsFor_same hlog, hnone]
        exact ⟨Nat.zero_le 1, fun _ => rfl, fun result heq => absurd heq (hpc result)⟩
      · rw [executionsFor_own hlog he, hnone]
        refine ⟨Nat.le_refl 1, fun huncharged => ?_, fun result heq => ?_⟩
        · rcases hpc with rfl | rfl | ⟨-, rfl⟩
          · cases huncharged
          · cases huncharged
          · exact absurd hallowed id
        · rcases hpc with rfl | rfl | ⟨-, rfl⟩
          · cases heq
            exact ⟨e, rfl, hderived, rfl⟩
          · cases heq
          · exact absurd hallowed id
    · rcases hcharge with ⟨hlog, -⟩ | ⟨e, hlog, he, -, -⟩
      · exact executionsFor_same hlog ▸ h.calls d other hother
      · exact executionsFor_other hlog (he ▸ hne.symm) ▸ h.calls d other hother
  case log =>
    rw [hcalls, List.length_set]
    rcases hcharge with ⟨hlog, -⟩ | ⟨e, hlog, he, -, -⟩
    · exact hlog ▸ h.log
    · rw [hlog]
      exact List.forall_mem_cons.mpr ⟨he ▸ hc, h.log⟩

theorem Accounted.step (h : Accounted s) (hallowed : Unrepeated s a)
    (hstep : step s a = some t) : Accounted t := by
  cases a with
  | call d action =>
      obtain ⟨moving, hmoving, hmoved⟩ := callStep_of_step hstep
      exact h.call_step hmoving hmoved hallowed
  | arrive process derived =>
      obtain ⟨-, ⟨⟩⟩ := Option.ite_none_right_eq_some.mp hstep
      constructor
      case calls =>
        refine Pool.forall_get_spawn ?_ h.calls
        have hnone : s.executionsFor s.calls.length = [] := by
          rw [executionsFor, List.filter_eq_nil_iff]
          intro e hmem
          simpa using (h.log e hmem).ne
        change Consumption.Charged _ (s.executionsFor s.calls.length)
        rw [hnone]
        refine ⟨Nat.zero_le 1, fun _ => rfl, fun result heq => ?_⟩
        split at heq <;> cases heq
      case log =>
        intro e hmem
        rw [Pool.spawn, List.length_append]
        exact Nat.lt_add_right _ (h.log e hmem)
  | tick time =>
      obtain ⟨-, ⟨⟩⟩ := Option.ite_none_right_eq_some.mp hstep
      exact ⟨h.calls, h.log⟩
  | boot | flush | wipe =>
      cases hstep
      exact ⟨h.calls, h.log⟩

/-- Unless the client library repeats an `EVALSHA`, a call is charged at most once, one that is
answered is charged once with the limits it came with, and its answer is that of the script for
it; one that raises `ValueError` is never charged. -/
theorem charged_once {time : RedisTime} (h : Reaches Unrepeated (init time) s)
    (hcall : s.calls[c]? = some call) :
    (s.executionsFor c).length ≤ 1 ∧
    (call.pc = .invalid → s.executionsFor c = []) ∧
    ∀ result, call.pc = .answered result →
      ∃ e, s.executionsFor c = [e] ∧ e.derived = call.derived ∧ e.result = result := by
  have haccounted : Accounted s := by
    refine h.invariant Accounted ⟨fun _ _ hcall => ?_, fun _ hmem => nomatch hmem⟩
      fun _ _ _ hinv hallowed hstep => hinv.step hallowed hstep
    simp [init] at hcall
  have hcharged := haccounted.calls c call hcall
  exact ⟨hcharged.once, fun hpc => hcharged.uncharged (hpc ▸ rfl), hcharged.answered⟩

/-- A call whose answer is lost, and one that is answered. -/
def twoCalls : List Action :=
  [.boot, .arrive 0 ⟨"ip:unknown", 60, 1⟩, .arrive 0 ⟨"ip:unknown", 60, 1⟩, .call 0 .start,
    .call 0 (.load .answers), .call 0 (.eval .lost), .call 1 .start, .call 1 (.eval .answers)]

theorem charged_once_twoCalls : ∃ (s : Limiter) (call : Consumption), s.calls[1]? = some call ∧
    (s.executionsFor 1).length = 1 := by
  obtain ⟨s, hs⟩ : ∃ s, Transition.runAll step Unrepeated (init ⟨0, 0⟩) twoCalls = some s :=
    ⟨_, rfl⟩
  have hreach := Transition.reaches_of_runAll _ hs
  cases hs
  obtain ⟨e, he, -, -⟩ := (charged_once hreach (c := 1) rfl).2.2 _ rfl
  exact ⟨_, _, rfl, congrArg List.length he⟩

end Charges

section Calm

variable {s t : Limiter} {a : Action} {c : Nat} {call : Consumption} {action : CallAction}

/-- What a call can rely on in a calm run. -/
structure Serviced (s : Limiter) (call : Consumption) : Prop where
  process : call.process < s.shas.length
  valid : call.pc = .invalid ↔ ¬call.derived.Valid
  not_failed : call.pc ≠ .failed
  script : call.pc.retrying = true → s.redis.scriptLoaded = true

theorem evaluate_isSome {derived : Derived} (h : derived.Valid) (s : Limiter) :
    ∃ result store, s.evaluate derived = some (result, store) := by
  obtain ⟨hrate, hburst⟩ := h
  unfold evaluate consume
  rw [if_neg (by omega)]
  exact ⟨_, _, rfl⟩

/-- A calm step of a call keeps it and the others serviced. -/
theorem CallStep.serviced (h : CallStep s c call action t) (hcalm : Calm s (.call c action))
    (hcall : Serviced s call) :
    ∃ pc, t.calls = s.calls.set c { call with pc := pc } ∧ Serviced t { call with pc := pc } ∧
      t.shas.length = s.shas.length ∧
      (s.redis.scriptLoaded = true → t.redis.scriptLoaded = true) := by
  cases h with
  | @started known hpc hknown =>
      refine ⟨_, rfl, ?_, rfl, id⟩
      have hvalid := hcall.valid
      rw [hpc] at hvalid
      cases known <;>
        exact ⟨hcall.process, by simpa using hvalid, nofun, nofun⟩
  | loadFailed hpc => cases hcalm
  | evalFailed hpc => cases hcalm
  | @loaded again reply hpc hreply =>
      cases hcalm
      have hvalid := hcall.valid
      rw [hpc] at hvalid
      have hlength : (s.shas.set call.process true).length = s.shas.length := List.length_set
      refine ⟨_, rfl, ⟨?_, ?_, nofun, fun _ => rfl⟩, hlength, fun _ => rfl⟩
      · exact hlength ▸ hcall.process
      · simpa [RedisReply.after] using hvalid
  | @executed again reply result store hpc hreply hscript heval =>
      cases hcalm
      have hvalid := hcall.valid
      rw [hpc] at hvalid
      exact ⟨_, rfl, ⟨hcall.process, by simpa [RedisReply.after] using hvalid, nofun, nofun⟩,
        rfl, id⟩
  | @missed again reply hpc hreply hscript =>
      cases hcalm
      cases again with
      | true =>
          have hloaded := hcall.script (hpc ▸ rfl)
          rw [hscript] at hloaded
          cases hloaded
      | false =>
          have hvalid := hcall.valid
          rw [hpc] at hvalid
          exact ⟨_, rfl, ⟨hcall.process, by simpa [RedisReply.after] using hvalid, nofun, nofun⟩,
            rfl, id⟩

/-- Every call on record is serviced. -/
def Serving (s : Limiter) : Prop :=
  ∀ (c : Nat) (call : Consumption), s.calls[c]? = some call → Serviced s call

theorem Serviced.mono (h : Serviced s call) (hshas : s.shas.length ≤ t.shas.length)
    (hscript : call.pc.retrying = true → s.redis.scriptLoaded = true →
      t.redis.scriptLoaded = true) : Serviced t call :=
  ⟨h.process.trans_le hshas, h.valid, h.not_failed, fun hpc => hscript hpc (h.script hpc)⟩

theorem Serving.step (h : Serving s) (hcalm : Calm s a) (hstep : step s a = some t) :
    Serving t := by
  cases a with
  | call d action =>
      obtain ⟨moving, hmoving, hmoved⟩ := callStep_of_step hstep
      obtain ⟨pc, hcalls, hself, hshas, hscript⟩ := hmoved.serviced hcalm (h d moving hmoving)
      unfold Serving
      rw [hcalls]
      exact Pool.forall_set hmoving hself fun c other hother _ =>
        (h c other hother).mono hshas.ge fun _ => hscript
  | arrive process derived =>
      obtain ⟨hprocess, ⟨⟩⟩ := Option.ite_none_right_eq_some.mp hstep
      refine Pool.forall_spawn ?_ fun c other hother =>
        (h c other hother).mono (Nat.le_refl _) fun _ => id
      refine ⟨hprocess, ?_, ?_, ?_⟩
      · unfold Derived.Valid
        dsimp only
        split
        next hinvalid => exact iff_of_true rfl (by omega)
        next hvalid => exact iff_of_false nofun (by omega)
      · dsimp only
        split <;> exact nofun
      · dsimp only
        split <;> exact nofun
  | tick time =>
      obtain ⟨-, ⟨⟩⟩ := Option.ite_none_right_eq_some.mp hstep
      exact fun c other hother => (h c other hother).mono (Nat.le_refl _) fun _ => id
  | boot =>
      cases hstep
      intro c other hother
      refine (h c other hother).mono ?_ fun _ => id
      rw [Pool.spawn, List.length_append]
      exact Nat.le_add_right _ _
  | flush | wipe =>
      cases hstep
      intro c other hother
      refine (h c other hother).mono (Nat.le_refl _) fun hpc => ?_
      rw [hcalm other (List.mem_of_getElem? hother)] at hpc
      cases hpc

/-- A call that has no answer yet can go on, whatever the other calls have done. -/
theorem Serviced.progress (h : Serviced s call) (hcall : s.calls[c]? = some call)
    (hleft : 0 < call.pc.stepsLeft) :
    ∃ action t pc, Calm s (.call c action) ∧ step s (.call c action) = some t ∧
      t.calls[c]? = some { call with pc := pc } ∧ pc.stepsLeft < call.pc.stepsLeft := by
  have hset : ∀ pc, (s.calls.set c { call with pc := pc })[c]? = some { call with pc := pc } :=
    fun pc => Pool.get_set_self hcall _
  have hstep : ∀ action, step s (.call c action) = s.stepCall c call action call.pc := by
    intro action
    change s.calls[c]?.bind _ = _
    rw [hcall]
    rfl
  cases hpc : call.pc with
  | begun =>
      obtain ⟨known, hknown⟩ : ∃ known, s.shas[call.process]? = some known :=
        ⟨_, List.getElem?_eq_getElem h.process⟩
      refine ⟨.start, s.setCall c call (if known then .evaluating false else .loading false), _,
        trivial, ?_, hset _, ?_⟩
      · rw [hstep, hpc, stepCall, hknown]
        rfl
      · cases known <;> simp [ConsumePc.stepsLeft]
  | loading again =>
      refine ⟨.load .answers, (s.loaded.remember call.process).setCall c call (.evaluating again),
        _, rfl, ?_, hset _, ?_⟩
      · rw [hstep, hpc]
        rfl
      · cases again <;> simp [ConsumePc.stepsLeft]
  | evaluating again =>
      cases hscript : s.redis.scriptLoaded with
      | true =>
          have hvalid : call.derived.Valid := by
            have hiff := h.valid
            rw [hpc] at hiff
            simpa using hiff
          obtain ⟨result, store, heval⟩ := evaluate_isSome hvalid s
          refine ⟨.eval .answers,
            (s.executed c call.derived result store).setCall c call (.answered result), _, rfl, ?_,
            hset _, ?_⟩
          · rw [hstep, hpc, stepCall, if_pos hscript, heval]
            rfl
            exact nofun
          · cases again <;> simp [ConsumePc.stepsLeft]
      | false =>
          cases again with
          | true =>
              have hloaded := h.script (hpc ▸ rfl)
              rw [hscript] at hloaded
              cases hloaded
          | false =>
              refine ⟨.eval .answers, s.setCall c call (.loading true), _, rfl, ?_, hset _,
                by simp [ConsumePc.stepsLeft]⟩
              rw [hstep, hpc, stepCall, if_neg (hscript ▸ Bool.false_ne_true)]
              rfl
              exact nofun
  | answered _ | failed | invalid =>
      rw [hpc] at hleft
      cases hleft

theorem Serving.finish (h : Serving s) (hcall : s.calls[c]? = some call) :
    ∃ actions t final, Transition.Path (fun s a t => Calm s a ∧ Limiter.step s a = some t) s
        actions t ∧
      (∀ a ∈ actions, ∃ action, a = .call c action) ∧ t.calls[c]? = some final ∧
      final.derived = call.derived ∧ final.pc.stepsLeft = 0 ∧ Serviced t final := by
  induction hn : call.pc.stepsLeft using Nat.strong_induction_on generalizing s call with
  | _ n ih =>
      rcases Nat.eq_zero_or_pos n with hzero | hpos
      · exact ⟨[], s, call, .nil s, List.forall_mem_nil _, hcall, rfl, hn.trans hzero,
          h c call hcall⟩
      · obtain ⟨action, u, pc, hcalm, hstep, hnext, hlt⟩ :=
          (h c call hcall).progress hcall (hn ▸ hpos)
        obtain ⟨actions, t, final, hpath, hown, hfinal, hderived, hdone, hserviced⟩ :=
          ih _ (hn ▸ hlt) (h.step hcalm hstep) hnext rfl
        exact ⟨_, t, final, .cons ⟨hcalm, hstep⟩ hpath,
          List.forall_mem_cons.mpr ⟨⟨action, rfl⟩, hown⟩, hfinal, hderived, hdone, hserviced⟩

/-- As long as Redis answers and forgets its scripts only while no call has just loaded them, no
call fails, and each can finish on its own, whatever the others do. -/
theorem consume_answers {time : RedisTime} (h : Reaches Calm (init time) s)
    (hcall : s.calls[c]? = some call) :
    call.pc ≠ .failed ∧
    ∃ actions t final, Transition.Path (fun s a t => Calm s a ∧ step s a = some t) s actions t ∧
      (∀ a ∈ actions, ∃ action, a = .call c action) ∧ t.calls[c]? = some final ∧
      (call.derived.Valid → ∃ result, final.pc = .answered result) ∧
      (¬call.derived.Valid → final.pc = .invalid) := by
  have hserving : Serving s := by
    refine h.invariant Serving (fun _ _ hcall => ?_) fun _ _ _ hinv hcalm hstep =>
      hinv.step hcalm hstep
    simp [init] at hcall
  obtain ⟨actions, t, final, hpath, hown, hfinal, hderived, hdone, hserviced⟩ :=
    hserving.finish hcall
  refine ⟨(hserving c call hcall).not_failed, actions, t, final, hpath, hown, hfinal, ?_, ?_⟩
  · intro hvalid
    have hinvalid := hserviced.valid
    have hfailed := hserviced.not_failed
    rw [hderived] at hinvalid
    cases hpc : final.pc with
    | answered result => exact ⟨result, rfl⟩
    | invalid => exact absurd hvalid (hinvalid.mp hpc)
    | failed => exact absurd hpc hfailed
    | begun => simp [hpc, ConsumePc.stepsLeft] at hdone
    | loading again | evaluating again => cases again <;> simp [hpc, ConsumePc.stepsLeft] at hdone
  · intro hinvalid
    exact hserviced.valid.mpr (hderived ▸ hinvalid)

/-- Redis forgets the script after the process has remembered it. -/
def forgotten : List Action :=
  [.boot, .arrive 0 ⟨"ip:unknown", 60, 1⟩, .arrive 0 ⟨"ip:unknown", 60, 1⟩, .call 0 .start,
    .call 0 (.load .answers), .call 0 (.eval .answers), .flush, .call 1 .start,
    .call 1 (.eval .answers)]

theorem consume_answers_forgotten : ∃ (s : Limiter) (call : Consumption),
    s.calls[1]? = some call ∧ call.pc = .loading true ∧
      ∃ actions t final result, Transition.Path (fun s a t => Calm s a ∧ step s a = some t) s
        actions t ∧ t.calls[1]? = some final ∧ final.pc = .answered result := by
  obtain ⟨s, hs⟩ : ∃ s, Transition.runAll step Calm (init ⟨0, 0⟩) forgotten = some s := ⟨_, rfl⟩
  have hreach := Transition.reaches_of_runAll _ hs
  cases hs
  obtain ⟨actions, t, final, hpath, -, hfinal, hanswered, -⟩ :=
    (consume_answers hreach (c := 1) rfl).2
  obtain ⟨result, hpc⟩ := hanswered ⟨by decide, by decide⟩
  exact ⟨_, _, rfl, rfl, actions, t, final, result, hpath, hfinal, hpc⟩

end Calm

end Limiter
end NotifyRelay
