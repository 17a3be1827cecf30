import NotifyRelay.BucketExpiry
import NotifyRelay.RateLimitIdentity
import NotifyRelay.Library.Pool
import NotifyRelay.Library.Transition

/-! `TokenBucket.consume` in many processes against one Redis. The Lua script runs in one step,
but the script has to be there: it is loaded lazily, each process remembers that it has loaded
it, and Redis may forget it at any moment. -/
namespace NotifyRelay

open TokenBucket

inductive RedisReply where
  | answers
  /-- The command is carried out, its answer does not arrive, and the client library sends it
  again. -/
  | resent
  | lost
  | fails
  deriving DecidableEq, Repr

structure RedisServer where
  time : RedisTime
  store : String → Option Bucket
  scriptLoaded : Bool

structure Execution where
  call : Nat
  derived : Derived
  time : RedisTime
  result : BucketResult

/-- Where a call of `consume` is. `again` tells that `NoScriptError` has been caught. -/
inductive ConsumePc where
  | begun
  | loading (again : Bool)
  | evaluating (again : Bool)
  | answered (result : BucketResult)
  | failed
  | invalid

def RedisReply.after (reply : RedisReply) (pc next : ConsumePc) : ConsumePc :=
  match reply with
  | .answers => next
  | .resent => pc
  | .lost | .fails => .failed

structure Consumption where
  process : Nat
  derived : Derived
  pc : ConsumePc

structure Limiter where
  redis : RedisServer
  /-- Whether `_script_sha` of the process is set. -/
  shas : List Bool
  calls : List Consumption
  /-- Newest first, as the times at which Redis lost its data. -/
  log : List Execution
  wipes : List ℤ

/-- `key_prefix` of the middleware's bucket. -/
def limiterPrefix : String := "rl:"

namespace Limiter

def init (time : RedisTime) : Limiter := ⟨⟨time, fun _ => none, false⟩, [], [], [], []⟩

inductive CallAction where
  | start
  | load (reply : RedisReply)
  | eval (reply : RedisReply)

inductive Action where
  | tick (time : RedisTime)
  | boot
  | arrive (process : Nat) (derived : Derived)
  | call (c : Nat) (action : CallAction)
  | flush
  | wipe

abbrev now (s : Limiter) : ℤ := s.redis.time.nowMs

def setCall (s : Limiter) (c : Nat) (call : Consumption) (pc : ConsumePc) : Limiter :=
  { s with calls := s.calls.set c { call with pc := pc } }

def loaded (s : Limiter) : Limiter :=
  { s with redis := { s.redis with scriptLoaded := true } }

def remember (s : Limiter) (process : Nat) : Limiter :=
  { s with shas := s.shas.set process true }

/-- The script for this call at this moment, with its numbers as exact rationals. -/
def evaluate (s : Limiter) (derived : Derived) :
    Option (BucketResult × (String → Option Bucket)) :=
  consume s.redis.store limiterPrefix derived.identity derived.ratePerMin derived.burst 1
    s.redis.time

def executed (s : Limiter) (c : Nat) (derived : Derived) (result : BucketResult)
    (store : String → Option Bucket) : Limiter :=
  { s with
    redis := { s.redis with store := store }
    log := ⟨c, derived, s.redis.time, result⟩ :: s.log }

def stepCall (s : Limiter) (c : Nat) (call : Consumption) :
    CallAction → ConsumePc → Option Limiter
  | .start, .begun =>
      s.shas[call.process]?.map fun known =>
        s.setCall c call (if known then .evaluating false else .loading false)
  | .load .fails, .loading _ => some (s.setCall c call .failed)
  | .load reply, .loading again =>
      let s := if reply = .answers then s.loaded.remember call.process else s.loaded
      some (s.setCall c call (reply.after (.loading again) (.evaluating again)))
  | .eval .fails, .evaluating _ => some (s.setCall c call .failed)
  | .eval reply, .evaluating again =>
      if s.redis.scriptLoaded then
        (s.evaluate call.derived).map fun (result, store) =>
          (s.executed c call.derived result store).setCall c call
            (reply.after (.evaluating again) (.answered result))
      else
        -- a second `NoScriptError` is a `RedisError` like any other
        some (s.setCall c call
          (reply.after (.evaluating again) (if again then .failed else .loading true)))
  | _, _ => none

def step (s : Limiter) : Action → Option Limiter
  | .tick time =>
      if s.redis.time.total ≤ time.total then
        some { s with redis := { s.redis with time := time } }
      else none
  | .boot => some { s with shas := Pool.spawn s.shas false }
  | .arrive process derived =>
      if process < s.shas.length then
        some { s with calls := Pool.spawn s.calls ⟨process, derived,
          if derived.ratePerMin ≤ 0 ∨ derived.burst ≤ 0 then .invalid else .begun⟩ }
      else none
  | .call c action => s.calls[c]?.bind fun call => s.stepCall c call action call.pc
  | .flush => some { s with redis := { s.redis with scriptLoaded := false } }
  | .wipe =>
      some { s with
        redis := { s.redis with store := fun _ => none, scriptLoaded := false }
        wipes := s.now :: s.wipes }

abbrev Reaches (allowed : Limiter → Action → Prop) : Limiter → Limiter → Prop :=
  Transition.Reaches (Transition.graph step) allowed

inductive CallStep (s : Limiter) (c : Nat) (call : Consumption) : CallAction → Limiter → Prop
  | started {known : Bool} (hpc : call.pc = .begun) (hknown : s.shas[call.process]? = some known) :
      CallStep s c call .start
        (s.setCall c call (if known then .evaluating false else .loading false))
  | loadFailed {again : Bool} (hpc : call.pc = .loading again) :
      CallStep s c call (.load .fails) (s.setCall c call .failed)
  | loaded {again : Bool} {reply : RedisReply} (hpc : call.pc = .loading again)
      (hreply : reply ≠ .fails) :
      CallStep s c call (.load reply)
        ((if reply = .answers then s.loaded.remember call.process else s.loaded).setCall c call
          (reply.after (.loading again) (.evaluating again)))
  | evalFailed {again : Bool} (hpc : call.pc = .evaluating again) :
      CallStep s c call (.eval .fails) (s.setCall c call .failed)
  | executed {again : Bool} {reply : RedisReply} {result : BucketResult}
      {store : String → Option Bucket} (hpc : call.pc = .evaluating again)
      (hreply : reply ≠ .fails) (hscript : s.redis.scriptLoaded = true)
      (heval : s.evaluate call.derived = some (result, store)) :
      CallStep s c call (.eval reply)
        ((s.executed c call.derived result store).setCall c call
          (reply.after (.evaluating again) (.answered result)))
  | missed {again : Bool} {reply : RedisReply} (hpc : call.pc = .evaluating again)
      (hreply : reply ≠ .fails) (hscript : s.redis.scriptLoaded = false) :
      CallStep s c call (.eval reply)
        (s.setCall c call
          (reply.after (.evaluating again) (if again then .failed else .loading true)))

theorem callStep_of_step {s t : Limiter} {c : Nat} {action : CallAction}
    (h : step s (.call c action) = some t) :
    ∃ call, s.calls[c]? = some call ∧ CallStep s c call action t := by
  obtain ⟨call, hcall, hstep⟩ := Option.bind_eq_some_iff.mp h
  refine ⟨call, hcall, ?_⟩
  unfold stepCall at hstep
  split at hstep
  case h_1 hpc =>
    obtain ⟨known, hknown, rfl⟩ := Option.map_eq_some_iff.mp hstep
    exact .started hpc hknown
  case h_2 hpc =>
    cases hstep
    exact .loadFailed hpc
  case h_3 hreply hpc =>
    cases hstep
    exact .loaded hpc fun heq => hreply heq
  case h_4 hpc =>
    cases hstep
    exact .evalFailed hpc
  case h_5 hreply hpc =>
    split at hstep
    next hscript =>
      obtain ⟨⟨result, store⟩, heval, rfl⟩ := Option.map_eq_some_iff.mp hstep
      exact .executed hpc (fun heq => hreply heq) hscript heval
    next hscript =>
      cases hstep
      exact .missed hpc (fun heq => hreply heq) (Bool.not_eq_true _ ▸ hscript)
  case h_6 => cases hstep

/-- A step of a call moves that call only. -/
theorem CallStep.moved {s t : Limiter} {c : Nat} {call : Consumption} {action : CallAction}
    (h : CallStep s c call action t) : ∃ pc, t.calls = s.calls.set c { call with pc := pc } := by
  cases h with
  | @loaded again reply hpc hreply => cases reply <;> exact ⟨_, rfl⟩
  | _ => exact ⟨_, rfl⟩

theorem old_call {s t : Limiter} {a : Action} (hstep : step s a = some t) {c : Nat}
    {call : Consumption} (hcall : t.calls[c]? = some call) :
    (∃ old, s.calls[c]? = some old ∧ call.derived = old.derived) ∨
      ∃ process, a = .arrive process call.derived := by
  cases a with
  | arrive process derived =>
      obtain ⟨-, ⟨⟩⟩ := Option.ite_none_right_eq_some.mp hstep
      dsimp only at hcall
      rw [Pool.get_spawn] at hcall
      split at hcall
      next =>
        cases hcall
        exact .inr ⟨process, rfl⟩
      next => exact .inl ⟨call, hcall, rfl⟩
  | call c' action =>
      obtain ⟨old, hold, hmoved⟩ := callStep_of_step hstep
      obtain ⟨pc, hcalls⟩ := hmoved.moved
      rw [hcalls, Pool.get_set hold] at hcall
      split at hcall
      next heq =>
        cases hcall
        exact .inl ⟨old, heq ▸ hold, rfl⟩
      next => exact .inl ⟨call, hcall, rfl⟩
  | tick time =>
      obtain ⟨-, ⟨⟩⟩ := Option.ite_none_right_eq_some.mp hstep
      exact .inl ⟨call, hcall, rfl⟩
  | boot | flush | wipe =>
      cases hstep
      exact .inl ⟨call, hcall, rfl⟩

theorem kept_call {s t : Limiter} {a : Action} (hstep : step s a = some t) {c : Nat}
    {call : Consumption} (hcall : s.calls[c]? = some call) :
    ∃ new, t.calls[c]? = some new ∧ new.derived = call.derived := by
  cases a with
  | arrive process derived =>
      obtain ⟨-, ⟨⟩⟩ := Option.ite_none_right_eq_some.mp hstep
      exact ⟨call, Pool.get_spawn_of_some hcall _, rfl⟩
  | call c' action =>
      obtain ⟨old, hold, hmoved⟩ := callStep_of_step hstep
      obtain ⟨pc, hcalls⟩ := hmoved.moved
      rw [hcalls, Pool.get_set hold]
      split
      next heq =>
        subst heq
        cases hcall.symm.trans hold
        exact ⟨_, rfl, rfl⟩
      next => exact ⟨call, hcall, rfl⟩
  | tick time =>
      obtain ⟨-, ⟨⟩⟩ := Option.ite_none_right_eq_some.mp hstep
      exact ⟨call, hcall, rfl⟩
  | boot | flush | wipe =>
      cases hstep
      exact ⟨call, hcall, rfl⟩

end Limiter
end NotifyRelay
