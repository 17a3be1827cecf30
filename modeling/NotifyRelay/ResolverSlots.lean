import NotifyRelay.Validators
import NotifyRelay.Library.Pool
import NotifyRelay.Library.Transition
import Mathlib.Algebra.Order.BigOperators.Group.List
import Mathlib.Algebra.Order.Ring.Nat

/-! The resolver pool that the API's requests share: `_getaddrinfo` takes a slot before it submits
a lookup, and the lookup gives it back, whether or not its caller still waits. -/
namespace NotifyRelay

open Validators

/-- `_RESOLVER_THREADS`. -/
def resolverThreads : ℕ := 4

/-- Where `lookup` is. -/
inductive LookupPc where
  | queued
  /-- In `socket.getaddrinfo`. -/
  | running
  /-- The `finally` is to come. -/
  | looked (answer : ResolverAnswer)
  | released (answer : ResolverAnswer)
  /-- The future has its result, and the thread is free. -/
  | done (answer : ResolverAnswer)

inductive CallerPc where
  | acquired
  | waiting
  | returned (result : Except ResolverError (Option (List String)))

/-- A call of `_getaddrinfo` with a timeout. -/
structure ResolverCall where
  host : String
  port : Option Nat
  timeout : Rat
  caller : CallerPc
  lookup : Option LookupPc

structure ResolverPool where
  /-- The value of `_resolver_slots`. -/
  slots : ℕ
  calls : List ResolverCall

/-- The slots that a lookup has in hand. -/
def LookupPc.slots : LookupPc → ℕ
  | .queued | .running | .looked _ => 1
  | .released _ | .done _ => 0

/-- The threads that it is on. -/
def LookupPc.threads : LookupPc → ℕ
  | .running | .looked _ | .released _ => 1
  | .queued | .done _ => 0

def LookupPc.answer : LookupPc → Option ResolverAnswer
  | .queued | .running => none
  | .looked answer | .released answer | .done answer => some answer

namespace ResolverCall

def slots (call : ResolverCall) : ℕ :=
  match call.lookup, call.caller with
  | some pc, _ => pc.slots
  | none, .acquired => 1
  | none, _ => 0

def threads (call : ResolverCall) : ℕ := (call.lookup.map LookupPc.threads).getD 0

variable {call : ResolverCall} {pc : LookupPc}

theorem slots_of_lookup (h : call.lookup = some pc) : call.slots = pc.slots := by
  unfold slots
  rw [h]

theorem threads_of_lookup (h : call.lookup = some pc) : call.threads = pc.threads := by
  unfold threads
  rw [h]
  rfl

end ResolverCall

namespace ResolverPool

def init : ResolverPool := ⟨resolverThreads, []⟩

/-- The slots in hand. -/
def held (s : ResolverPool) : ℕ := (s.calls.map ResolverCall.slots).sum

/-- The threads that are on a lookup. -/
def busy (s : ResolverPool) : ℕ := (s.calls.map ResolverCall.threads).sum

inductive Action where
  | call (host : String) (port : Option Nat) (timeout : Rat)
  | submit (k : ℕ)
  | start (k : ℕ)
  | look (k : ℕ) (answer : ResolverAnswer)
  | release (k : ℕ)
  | finish (k : ℕ)
  | result (k : ℕ)
  /-- The `FutureTimeoutError`. -/
  | timeOut (k : ℕ)

def Action.target : Action → Option ℕ
  | .call .. => none
  | .submit k | .start k | .look k _ | .release k | .finish k | .result k | .timeOut k => some k

/-- `_resolver_slots.acquire(blocking=False)`. -/
def arrive (s : ResolverPool) (host : String) (port : Option Nat) (timeout : Rat) :
    ResolverPool :=
  if s.slots = 0 then
    ⟨s.slots, Pool.spawn s.calls ⟨host, port, timeout, .returned (.ok none), none⟩⟩
  else ⟨s.slots - 1, Pool.spawn s.calls ⟨host, port, timeout, .acquired, none⟩⟩

/-- What `BoundedSemaphore.release` raises when nobody holds a slot. -/
def overReleased : ResolverError :=
  .other ⟨"ValueError", "Semaphore released too many times"⟩

def setLookup (s : ResolverPool) (k : ℕ) (call : ResolverCall) (pc : LookupPc) : ResolverPool :=
  { s with calls := s.calls.set k { call with lookup := some pc } }

def setReturned (s : ResolverPool) (k : ℕ) (call : ResolverCall)
    (result : Except ResolverError (Option (List String))) : ResolverPool :=
  { s with calls := s.calls.set k { call with caller := .returned result } }

def stepCall (s : ResolverPool) (k : ℕ) (call : ResolverCall) :
    Action → CallerPc → Option LookupPc → Option ResolverPool
  | .submit _, .acquired, none =>
      some { s with
        calls := s.calls.set k { call with caller := .waiting, lookup := some .queued } }
  | .start _, _, some .queued =>
      if s.busy < resolverThreads then some (s.setLookup k call .running) else none
  | .look _ answer, _, some .running => some (s.setLookup k call (.looked answer))
  | .release _, _, some (.looked answer) =>
      some (if s.slots < resolverThreads then
          { s.setLookup k call (.released answer) with slots := s.slots + 1 }
        else s.setLookup k call (.released (.error overReleased)))
  | .finish _, _, some (.released answer) => some (s.setLookup k call (.done answer))
  | .result _, .waiting, some (.done answer) =>
      some (s.setReturned k call (awaited (some answer)))
  | .timeOut _, .waiting, some (.done _) => none
  | .timeOut _, .waiting, some _ => some (s.setReturned k call (awaited none))
  | _, _, _ => none

def step (s : ResolverPool) (a : Action) : Option ResolverPool :=
  match a with
  | .call host port timeout => some (s.arrive host port timeout)
  | a => a.target.bind fun k => s.calls[k]?.bind fun call =>
      s.stepCall k call a call.caller call.lookup

/-- What the name servers answer, by `resolve`. -/
def Resolved (resolve : String → Option Nat → ResolverAnswer → Prop) (s : ResolverPool) :
    Action → Prop
  | .look k answer => ∀ call ∈ s.calls[k]?, resolve call.host call.port answer
  | _ => True

instance {resolve : String → Option Nat → ResolverAnswer → Prop}
    [∀ host port answer, Decidable (resolve host port answer)] (s : ResolverPool) :
    (a : Action) → Decidable (Resolved resolve s a)
  | .look k answer =>
      inferInstanceAs (Decidable (∀ call ∈ s.calls[k]?, resolve call.host call.port answer))
  | .call .. | .submit _ | .start _ | .release _ | .finish _ | .result _ | .timeOut _ =>
      .isTrue trivial

/-- The same for the exchanges of one call. -/
def Possible (resolve : String → Option Nat → ResolverAnswer → Prop) :
    Exchange Question Question.Reply → Prop
  | ⟨.submit host port _, some answer⟩ => resolve host port answer
  | _ => True

abbrev Reaches (allowed : ResolverPool → Action → Prop) : ResolverPool → ResolverPool → Prop :=
  Transition.Reaches (Transition.graph step) allowed

variable {resolve : String → Option Nat → ResolverAnswer → Prop} {s t : ResolverPool}

/-- What is known of one call: a lookup has an answer of its name server, and who has returned
has run `_getaddrinfo`. -/
structure Traced (resolve : String → Option Nat → ResolverAnswer → Prop) (call : ResolverCall) :
    Prop where
  answer : ∀ pc ∈ call.lookup, ∀ answer ∈ pc.answer, resolve call.host call.port answer
  returned : ∀ result, call.caller = .returned result → ∃ trace, Runs (Possible resolve)
    (getaddrinfo call.host call.port (some call.timeout)) trace result

/-- Every slot is free or in the hands of one call, and no thread is on two lookups. -/
structure Sound (resolve : String → Option Nat → ResolverAnswer → Prop) (s : ResolverPool) :
    Prop where
  slots : s.slots + s.held = resolverThreads
  threads : s.busy ≤ resolverThreads
  calls : ∀ (k : ℕ) (call : ResolverCall), s.calls[k]? = some call → Traced resolve call

theorem sound_init : Sound resolve init where
  slots := rfl
  threads := Nat.zero_le _
  calls _ _ hcall := by cases hcall

theorem runs_refused (host : String) (port : Option Nat) (timeout : Rat) :
    Runs (Possible resolve) (getaddrinfo host port (some timeout)) [⟨.acquireSlot, false⟩]
      (.ok none) := by
  refine .ask trivial ?_
  exact .done _

theorem runs_submitted {host : String} {port : Option Nat} {timeout : Rat}
    {reply : Option ResolverAnswer} (hreply : ∀ answer ∈ reply, resolve host port answer) :
    Runs (Possible resolve) (getaddrinfo host port (some timeout))
      [⟨.acquireSlot, true⟩, ⟨.submit host port timeout, reply⟩] (awaited reply) := by
  refine .ask trivial (.ask ?_ (.done _))
  cases reply with
  | none => trivial
  | some answer => exact hreply answer rfl

theorem traced_refused (host : String) (port : Option Nat) (timeout : Rat) :
    Traced resolve ⟨host, port, timeout, .returned (.ok none), none⟩ where
  answer _ hpc := by cases hpc
  returned result heq := by
    cases heq
    exact ⟨_, runs_refused host port timeout⟩

theorem traced_acquired (host : String) (port : Option Nat) (timeout : Rat) :
    Traced resolve ⟨host, port, timeout, .acquired, none⟩ where
  answer _ hpc := by cases hpc
  returned _ heq := by cases heq

namespace Traced

variable {call : ResolverCall}

theorem setLookup (h : Traced resolve call) {pc : LookupPc}
    (hpc : ∀ answer ∈ pc.answer, resolve call.host call.port answer) :
    Traced resolve { call with lookup := some pc } where
  answer _ heq := by
    cases heq
    exact hpc
  returned := h.returned

theorem submitted (call : ResolverCall) :
    Traced resolve { call with caller := .waiting, lookup := some .queued } where
  answer pc hpc answer hanswer := by
    cases hpc
    cases hanswer
  returned _ heq := by cases heq

/-- The caller has the lookup's answer, or no longer waits for it. -/
theorem setReturned (h : Traced resolve call) {reply : Option ResolverAnswer}
    (hreply : ∀ answer ∈ reply, resolve call.host call.port answer) :
    Traced resolve { call with caller := .returned (awaited reply) } where
  answer := h.answer
  returned result heq := by
    cases heq
    exact ⟨_, runs_submitted hreply⟩

end Traced

/-- One call moves, and takes its slot and its thread along. -/
theorem Sound.set (h : Sound resolve s) {k : ℕ} {call call' : ResolverCall}
    (hcall : s.calls[k]? = some call) {slots : ℕ}
    (hslots : slots + call'.slots = s.slots + call.slots)
    (hthreads : s.busy + call'.threads ≤ resolverThreads + call.threads)
    (htraced : Traced resolve call') : Sound resolve ⟨slots, s.calls.set k call'⟩ where
  slots := by
    have hheld := Pool.sum_map_set ResolverCall.slots hcall call'
    have hsound := h.slots
    unfold held at hsound ⊢
    dsimp only
    omega
  threads := by
    have hbusy := Pool.sum_map_set ResolverCall.threads hcall call'
    unfold busy at hthreads ⊢
    dsimp only
    omega
  calls := Pool.forall_set hcall htraced fun j other hother _ => h.calls j other hother

theorem Sound.spawn (h : Sound resolve s) {call : ResolverCall} {slots : ℕ}
    (hslots : slots + call.slots = s.slots) (hthreads : call.threads = 0)
    (htraced : Traced resolve call) : Sound resolve ⟨slots, Pool.spawn s.calls call⟩ where
  slots := by
    have hsound := h.slots
    unfold held at hsound ⊢
    simp only [Pool.spawn, List.map_append, List.sum_append, List.map_cons, List.map_nil,
      List.sum_singleton]
    omega
  threads := by
    have hsound := h.threads
    unfold busy at hsound ⊢
    simp only [Pool.spawn, List.map_append, List.sum_append, List.map_cons, List.map_nil,
      List.sum_singleton]
    omega
  calls := Pool.forall_spawn htraced h.calls

theorem Sound.arrive (h : Sound resolve s) (host : String) (port : Option Nat) (timeout : Rat) :
    Sound resolve (s.arrive host port timeout) := by
  unfold ResolverPool.arrive
  split
  next => exact h.spawn rfl rfl (traced_refused host port timeout)
  next hfree =>
    refine h.spawn ?_ rfl (traced_acquired host port timeout)
    exact Nat.sub_add_cancel (Nat.pos_of_ne_zero hfree)

/-- Whoever is about to give a slot back has one. -/
theorem Sound.slots_lt (h : Sound resolve s) {k : ℕ} {call : ResolverCall}
    (hcall : s.calls[k]? = some call) (hheld : call.slots = 1) : s.slots < resolverThreads := by
  have hle : call.slots ≤ s.held :=
    List.single_le_sum (by simp) _ (List.mem_map_of_mem (List.mem_of_getElem? hcall))
  have hslots := h.slots
  omega

/-- A lookup goes on. -/
theorem Sound.setLookup (h : Sound resolve s) {k : ℕ} {call : ResolverCall}
    (hcall : s.calls[k]? = some call) {pc pc' : LookupPc} (hpc : call.lookup = some pc)
    {slots : ℕ} (hslots : slots + pc'.slots = s.slots + pc.slots)
    (hthreads : s.busy + pc'.threads ≤ resolverThreads + pc.threads)
    (hanswer : ∀ answer ∈ pc'.answer, resolve call.host call.port answer) :
    Sound resolve { s.setLookup k call pc' with slots := slots } := by
  refine h.set hcall ?_ ?_ ((h.calls k call hcall).setLookup hanswer)
  · rw [ResolverCall.slots_of_lookup hpc]
    exact hslots
  · rw [ResolverCall.threads_of_lookup hpc]
    exact hthreads

/-- A caller goes on; its lookup stays where it is. -/
theorem Sound.setReturned (h : Sound resolve s) {k : ℕ} {call : ResolverCall}
    (hcall : s.calls[k]? = some call) {pc : LookupPc} (hpc : call.lookup = some pc)
    {reply : Option ResolverAnswer}
    (hreply : ∀ answer ∈ reply, resolve call.host call.port answer) :
    Sound resolve (s.setReturned k call (awaited reply)) := by
  refine h.set hcall ?_ ?_ ((h.calls k call hcall).setReturned hreply)
  · rw [ResolverCall.slots_of_lookup hpc]
    exact congrArg _ (ResolverCall.slots_of_lookup hpc)
  · exact Nat.add_le_add_right h.threads call.threads

theorem Sound.stepCall (h : Sound resolve s) {k : ℕ} {call : ResolverCall}
    (hcall : s.calls[k]? = some call) {a : Action} (htarget : a.target = some k)
    (hallowed : Resolved resolve s a)
    (hstep : s.stepCall k call a call.caller call.lookup = some t) : Sound resolve t := by
  have hthreads := h.threads
  unfold ResolverPool.stepCall at hstep
  split at hstep
  next _ hcaller hlookup =>
    cases hstep
    refine h.set hcall ?_ ?_ (.submitted call)
    · simp [ResolverCall.slots, hcaller, hlookup, LookupPc.slots]
    · simp [ResolverCall.threads, hlookup, LookupPc.threads, hthreads]
  next _ hlookup =>
    obtain ⟨hbusy, hstep⟩ := Option.ite_none_right_eq_some.mp hstep
    cases hstep
    exact h.setLookup hcall hlookup rfl hbusy fun _ hanswer => by cases hanswer
  next answer _ hlookup =>
    cases hstep
    cases htarget
    refine h.setLookup hcall hlookup rfl (Nat.add_le_add_right hthreads 1) fun _ hanswer => ?_
    cases hanswer
    exact hallowed call hcall
  next _ answer hlookup =>
    have hlt : s.slots < resolverThreads :=
      h.slots_lt hcall (ResolverCall.slots_of_lookup hlookup)
    rw [if_pos hlt] at hstep
    cases hstep
    refine h.setLookup hcall hlookup rfl (Nat.add_le_add_right hthreads 1) fun _ hanswer => ?_
    cases hanswer
    exact (h.calls k call hcall).answer _ hlookup answer rfl
  next _ answer hlookup =>
    cases hstep
    refine h.setLookup hcall hlookup rfl (Nat.le_succ_of_le hthreads) fun _ hanswer => ?_
    cases hanswer
    exact (h.calls k call hcall).answer _ hlookup answer rfl
  next answer hcaller hlookup =>
    cases hstep
    refine h.setReturned hcall hlookup fun _ hanswer => ?_
    cases hanswer
    exact (h.calls k call hcall).answer _ hlookup answer rfl
  next => cases hstep
  next pc _ hcaller hlookup =>
    cases hstep
    exact h.setReturned hcall hlookup fun _ hanswer => by cases hanswer
  next => cases hstep

theorem Sound.step (h : Sound resolve s) {a : Action} (hallowed : Resolved resolve s a)
    (hstep : s.step a = some t) : Sound resolve t := by
  cases a with
  | call host port timeout =>
      cases hstep
      exact h.arrive host port timeout
  | _ =>
      obtain ⟨call, hcall, hstep⟩ := Option.bind_eq_some_iff.mp hstep
      exact h.stepCall hcall rfl hallowed hstep

theorem sound_of_reaches (h : Reaches (Resolved resolve) init s) : Sound resolve s :=
  h.invariant (Sound resolve) sound_init fun _ _ _ hsound hallowed hstep =>
    hsound.step hallowed hstep

/-- Where every thread is on a lookup and yet another one is queued, one of the threads has only
to hand its answer over. -/
theorem exists_released (h : Sound resolve s) {k : ℕ} {call : ResolverCall}
    (hcall : s.calls[k]? = some call) (hqueued : call.lookup = some .queued)
    (hbusy : ¬ s.busy < resolverThreads) :
    ∃ (j : ℕ) (other : ResolverCall) (answer : ResolverAnswer),
      s.calls[j]? = some other ∧ other.lookup = some (.released answer) := by
  by_contra hnone
  -- then each thread is on a lookup with a slot in hand, and the queued one has the fifth
  have hle : ∀ other ∈ s.calls, other.threads ≤ other.slots := by
    intro other hother
    obtain ⟨j, hj⟩ := List.getElem?_of_mem hother
    cases hlookup : other.lookup with
    | none =>
        unfold ResolverCall.threads
        rw [hlookup]
        exact Nat.zero_le _
    | some pc =>
        rw [ResolverCall.threads_of_lookup hlookup, ResolverCall.slots_of_lookup hlookup]
        cases pc with
        | released answer => exact absurd ⟨j, other, answer, hj, hlookup⟩ hnone
        | _ => simp [LookupPc.threads, LookupPc.slots]
  have hlt : s.busy < s.held := by
    refine List.sum_lt_sum _ _ hle ⟨call, List.mem_of_getElem? hcall, ?_⟩
    rw [ResolverCall.threads_of_lookup hqueued, ResolverCall.slots_of_lookup hqueued]
    decide
  have hslots := h.slots
  omega

theorem step_start {k : ℕ} {call : ResolverCall} (hcall : s.calls[k]? = some call)
    (hqueued : call.lookup = some .queued) (hbusy : s.busy < resolverThreads) :
    s.step (.start k) = some (s.setLookup k call .running) := by
  simp [step, Action.target, hcall, hqueued, ResolverPool.stepCall, hbusy]

theorem step_finish {k : ℕ} {call : ResolverCall} {answer : ResolverAnswer}
    (hcall : s.calls[k]? = some call) (hreleased : call.lookup = some (.released answer)) :
    s.step (.finish k) = some (s.setLookup k call (.done answer)) := by
  simp [step, Action.target, hcall, hreleased, ResolverPool.stepCall]

theorem sound_of_any (h : Reaches Transition.anyStep init s) :
    Sound (fun _ _ _ => True) s :=
  sound_of_reaches (h.weaken fun _ a _ => by
    cases a with
    | look k answer => exact fun _ _ => trivial
    | _ => trivial)

/-- `_getaddrinfo` "never queues": a lookup that was submitted starts without another one having
to come back from its name server. -/
theorem never_queues (h : Reaches Transition.anyStep init s) {k : ℕ} {call : ResolverCall}
    (hcall : s.calls[k]? = some call) (hqueued : call.lookup = some .queued) :
    ∃ (actions : List Action) (t : ResolverPool),
      Transition.Path (Transition.graph step) s actions t ∧
      (∀ a ∈ actions, a = .start k ∨ ∃ j, a = .finish j) ∧
      t.calls[k]? = some { call with lookup := some .running } := by
  have hsound := sound_of_any h
  by_cases hbusy : s.busy < resolverThreads
  · refine ⟨[.start k], _, .cons (step_start hcall hqueued hbusy) (.nil _), ?_, ?_⟩
    · simp
    · exact Pool.get_set_self hcall _
  · obtain ⟨j, other, answer, hother, hreleased⟩ := exists_released hsound hcall hqueued hbusy
    have hne : k ≠ j := by
      rintro rfl
      rw [hcall] at hother
      cases hother
      rw [hqueued] at hreleased
      cases hreleased
    have hkept : (s.setLookup j other (.done answer)).calls[k]? = some call := by
      rw [← hcall]
      exact Pool.get_set_of_ne hother _ hne
    have hfree : (s.setLookup j other (.done answer)).busy < resolverThreads := by
      have hmoved := Pool.sum_map_set ResolverCall.threads hother
        { other with lookup := some (.done answer) }
      have hone : other.threads = 1 := ResolverCall.threads_of_lookup hreleased
      have hzero : ResolverCall.threads { other with lookup := some (.done answer) } = 0 := rfl
      have hthreads := hsound.threads
      unfold busy ResolverPool.setLookup at *
      dsimp only
      omega
    refine ⟨[.finish j, .start k], _, .cons (step_finish hother hreleased)
      (.cons (step_start hkept hqueued hfree) (.nil _)), ?_, ?_⟩
    · simp
    · exact Pool.get_set_self hkept _

/-- Five requests at once: the last one finds no slot. One lookup comes back, and a sixth request
takes its slot before the thread is free. -/
def crowded : List Action :=
  ["a.example", "b.example", "c.example", "d.example", "e.example"].map arrival ++
    [.submit 0, .submit 1, .submit 2, .submit 3, .start 3, .start 2, .start 1, .start 0,
      .timeOut 1, .look 0 (.ok ["203.0.113.7"]), .release 0, arrival "f.example", .submit 5]
where
  arrival (host : String) : Action := .call host (some 443) apiResolveTimeoutS

def isQueued (call : ResolverCall) : Bool := call.lookup matches some .queued

theorem never_queues_crowded : ∃ (s t : ResolverPool) (actions : List Action),
    s.busy = resolverThreads ∧ Transition.Path (Transition.graph step) s actions t ∧
      (∀ a ∈ actions, a = .start 5 ∨ ∃ j, a = .finish j) := by
  obtain ⟨s, hs, hbusy, hqueued⟩ := Transition.exists_of_runAll step Transition.anyStep init crowded
    (fun s => s.busy = resolverThreads ∧ s.calls[5]?.any isQueued) (by decide +kernel)
  obtain ⟨call, hcall, hqueued⟩ := (Option.any_eq_true _ _).mp hqueued
  have hlookup : call.lookup = some .queued := by
    unfold isQueued at hqueued
    split at hqueued
    next heq => exact heq
    next => cases hqueued
  obtain ⟨actions, t, hpath, hactions, -⟩ := never_queues hs hcall hlookup
  exact ⟨s, t, actions, hbusy, hpath, hactions⟩

/-- `BoundedSemaphore.release` has nothing to raise. -/
theorem Sound.release_slots (h : Sound resolve s) {k : ℕ} (hstep : s.step (.release k) = some t) :
    t.slots = s.slots + 1 := by
  obtain ⟨call, hcall, hstep⟩ := Option.bind_eq_some_iff.mp hstep
  unfold ResolverPool.stepCall at hstep
  split at hstep <;> try contradiction
  next hlookup =>
    rw [if_pos (h.slots_lt hcall (ResolverCall.slots_of_lookup hlookup))] at hstep
    cases hstep
    rfl

theorem Sound.held_of_refused (h : Sound resolve s) {host : String} {port : Option Nat}
    {timeout : Rat} (hsame : (s.arrive host port timeout).slots = s.slots) :
    s.held = resolverThreads := by
  have hslots := h.slots
  unfold ResolverPool.arrive at hsame
  split at hsame
  next hnone => omega
  next hfree =>
    dsimp only at hsame
    omega

/-- No slot is lost and none is given back twice, however many callers stop waiting, and whoever
is refused one finds all of them in hand. -/
theorem slots_conserved (h : Reaches Transition.anyStep init s) :
    s.slots + s.held = resolverThreads ∧
      (∀ k t, s.step (.release k) = some t → t.slots = s.slots + 1) ∧
      ∀ host port timeout, (s.arrive host port timeout).slots = s.slots →
        s.held = resolverThreads := by
  have hsound := sound_of_any h
  exact ⟨hsound.slots, fun k t hstep => hsound.release_slots hstep,
    fun host port timeout hsame => hsound.held_of_refused hsame⟩

theorem slots_conserved_crowded : ∃ s : ResolverPool, s.calls.length = 6 ∧
    s.slots + s.held = resolverThreads := by
  obtain ⟨s, hs, hcalls⟩ := Transition.exists_of_runAll step Transition.anyStep init crowded
    (fun s => s.calls.length = 6) (by decide +kernel)
  exact ⟨s, hcalls, (slots_conserved hs).1⟩

/-- Whoever returns from `_getaddrinfo` returns what one run of it returns, by itself, with the
answers of the name servers. -/
theorem returned_getaddrinfo (h : Reaches (Resolved resolve) init s) {k : ℕ} {call : ResolverCall}
    (hcall : s.calls[k]? = some call) {result : Except ResolverError (Option (List String))}
    (hreturned : call.caller = .returned result) :
    ∃ trace, Runs (Possible resolve)
      (getaddrinfo call.host call.port (some call.timeout)) trace result :=
  ((sound_of_reaches h).calls k call hcall).returned result hreturned

/-- Every name has this address. -/
def sampleResolve (_ : String) (_ : Option Nat) (answer : ResolverAnswer) : Prop :=
  answer matches .ok ["203.0.113.7"]

instance (host : String) (port : Option Nat) (answer : ResolverAnswer) :
    Decidable (sampleResolve host port answer) :=
  inferInstanceAs (Decidable (_ = true))

def hasAnswer (call : ResolverCall) : Bool :=
  call.caller matches .returned (.ok (some ["203.0.113.7"]))

/-- The first of them gets its answer. -/
theorem returned_getaddrinfo_crowded : ∃ (call : ResolverCall) (trace : NetTrace),
    Runs (Possible sampleResolve) (getaddrinfo call.host call.port (some call.timeout)) trace
      (.ok (some ["203.0.113.7"])) := by
  obtain ⟨s, hs, hreturned⟩ := Transition.exists_of_runAll step (Resolved sampleResolve) init
    (crowded ++ [.finish 0, .result 0]) (fun s => s.calls[0]?.any hasAnswer) (by decide +kernel)
  obtain ⟨call, hcall, hreturned⟩ := (Option.any_eq_true _ _).mp hreturned
  unfold hasAnswer at hreturned
  split at hreturned
  next hcaller =>
    obtain ⟨trace, hruns⟩ := returned_getaddrinfo hs hcall hcaller
    exact ⟨call, trace, hruns⟩
  next => cases hreturned

end ResolverPool
end NotifyRelay
