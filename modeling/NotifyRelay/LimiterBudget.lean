import NotifyRelay.Limiter
import NotifyRelay.Library.Reservoir

/-! What the processes together let through. Whatever order their commands arrive in and whatever
fails on the way, the bucket of one identity is a reservoir that is filled up only when Redis
loses its data. -/
namespace NotifyRelay

open TokenBucket Reservoir

/-- An identity and the limits it is used with. -/
structure Quota where
  identity : String
  ratePerMin : Int
  burst : Int
  ratePerMin_pos : 0 < ratePerMin
  burst_pos : 0 < burst

namespace Quota

variable (q : Quota)

def derived : Derived := ⟨q.identity, q.ratePerMin, q.burst⟩

/-- `rate_per_sec`. -/
def rate : ℚ := q.ratePerMin / 60

theorem rate_pos : 0 < q.rate := div_pos (Int.cast_pos.mpr q.ratePerMin_pos) (by norm_num)

theorem rate_div_nonneg : 0 ≤ q.rate / 1000 := (div_pos q.rate_pos (by norm_num)).le

/-- The bucket, in milliseconds. -/
def tank : Tank ℚ where
  capacity := q.burst
  rate := q.rate / 1000
  capacity_nonneg := Int.cast_nonneg q.burst_pos.le
  rate_nonneg := q.rate_div_nonneg

end Quota

namespace Execution

/-- The demand that an execution is to the bucket. -/
def demand (e : Execution) : Demand ℚ :=
  ⟨e.time.nowMs, 1, if e.result.allowed then e.result.remaining + 1 else e.result.remaining⟩

/-- The script gave this result, and found so much after its refill. -/
structure Found (q : Quota) (e : Execution) (level : ℚ) : Prop where
  derived : e.derived = q.derived
  allowed : e.result.allowed = decide (1 ≤ level)
  remaining : e.result.remaining = if 1 ≤ level then level - 1 else level
  retryAfterMs : ¬1 ≤ level → e.result.retryAfterMs = ⌈(1 - level) * 1000 / q.rate⌉

variable {q : Quota} {e : Execution} {level : ℚ}

theorem Found.demand (h : e.Found q level) : e.demand = ⟨e.time.nowMs, 1, level⟩ := by
  unfold Execution.demand
  rw [h.allowed, h.remaining]
  by_cases hlevel : 1 ≤ level <;> simp [hlevel]

theorem Found.granted (h : e.Found q level) : e.demand.Granted ↔ e.result.allowed = true := by
  rw [h.demand, h.allowed, decide_eq_true_eq]
  exact Iff.rfl

theorem Found.left (h : e.Found q level) : e.demand.left = e.result.remaining := by
  rw [h.demand, h.remaining]
  unfold Demand.left Demand.taken Demand.Granted
  by_cases hlevel : 1 ≤ level <;> simp [hlevel]

theorem Found.taken (h : e.Found q level) :
    e.demand.taken = if e.result.allowed then 1 else 0 := by
  rw [Demand.taken]
  simp only [h.granted]
  rfl

/-- The header's seconds are at least the script's milliseconds. -/
theorem retryAfterMs_le_of_waited {later : RedisTime} (hrefused : e.result.allowed = false)
    (hwaited : e.result.retryAfterSeconds * 1000000 ≤ later.total - e.time.total) :
    e.result.retryAfterMs ≤ later.nowMs - e.time.nowMs := by
  have he := e.time.microseconds.isLt
  have hlater := later.microseconds.isLt
  unfold BucketResult.retryAfterSeconds at hwaited
  rw [hrefused, if_neg Bool.false_ne_true] at hwaited
  unfold RedisTime.total at hwaited
  unfold RedisTime.nowMs
  omega

end Execution

namespace Limiter

def slot (s : Limiter) (q : Quota) : Option Bucket := s.redis.store (limiterPrefix ++ q.identity)

def executionsOf (s : Limiter) (q : Quota) : List Execution :=
  s.log.filter fun e => e.derived.identity == q.identity

/-- The tokens the script would find now. -/
def level (s : Limiter) (q : Quota) : ℚ := refilled q.rate q.burst (s.slot q) s.now

/-- What one identity sees of the limiter. -/
def reservoir (s : Limiter) (q : Quota) : State ℚ where
  level := s.level q
  clock := s.now
  demands := (s.executionsOf q).map Execution.demand
  refills := s.wipes.map Int.cast

/-- Whoever has arrived under the identity has its limits. -/
def Uniform (s : Limiter) (q : Quota) : Prop :=
  ∀ (c : Nat) (call : Consumption), s.calls[c]? = some call →
    call.derived.identity = q.identity → call.derived = q.derived

/-- What a step is to one identity. -/
inductive QuotaStep (q : Quota) (s t : Limiter) : Prop
  | quiet (hnow : s.now ≤ t.now) (hslot : t.slot q = s.slot q) (hlog : t.log = s.log)
      (hwipes : t.wipes = s.wipes)
  | other (e : Execution) (he : e.derived.identity ≠ q.identity) (hnow : t.now = s.now)
      (hslot : t.slot q = s.slot q) (hlog : t.log = e :: s.log) (hwipes : t.wipes = s.wipes)
  | executed (e : Execution) (bucket : Bucket) (he : e.Found q (s.level q))
      (htime : e.time = s.redis.time) (hnow : t.now = s.now) (hslot : t.slot q = some bucket)
      (hbucket : bucket = ⟨e.result.remaining, s.now, s.now + ttlS q.rate q.burst * 1000⟩)
      (hlog : t.log = e :: s.log) (hwipes : t.wipes = s.wipes)
  | wiped (hnow : t.now = s.now) (hslot : t.slot q = none) (hlog : t.log = s.log)
      (hwipes : t.wipes = s.now :: s.wipes)

/-- What holds in every run, besides the reservoir. -/
structure Budgeted (q : Quota) (s : Limiter) : Prop where
  calls : s.Uniform q
  slot : ∀ bucket, s.slot q = some bucket → bucket.Stamped q.rate q.burst s.now
  log : ∀ e ∈ s.executionsOf q, ∃ level, e.Found q level

section Script

variable {q : Quota} {s : Limiter} {result : BucketResult} {store : String → Option Bucket}

/-- The script in terms of what it finds after its refill. -/
theorem evaluate_eq (s : Limiter) (q : Quota) :
    s.evaluate q.derived = some
      (⟨decide (1 ≤ s.level q), if 1 ≤ s.level q then s.level q - 1 else s.level q,
          if 1 ≤ s.level q then 0 else ⌈(1 - s.level q) * 1000 / q.rate⌉⟩,
        Function.update s.redis.store (limiterPrefix ++ q.identity)
          (some ⟨if 1 ≤ s.level q then s.level q - 1 else s.level q, s.now,
            s.now + ttlS q.rate q.burst * 1000⟩)) := by
  have hrate := q.ratePerMin_pos
  have hburst := q.burst_pos
  have hscript : script (q.ratePerMin / 60) q.burst 1 s.redis.time
        (s.redis.store (limiterPrefix ++ q.identity)) =
      (⟨decide (1 ≤ s.level q), if 1 ≤ s.level q then s.level q - 1 else s.level q,
          if 1 ≤ s.level q then 0 else ⌈(1 - s.level q) * 1000 / q.rate⌉⟩,
        ⟨if 1 ≤ s.level q then s.level q - 1 else s.level q, s.now,
          s.now + ttlS q.rate q.burst * 1000⟩) := by
    by_cases hlevel : 1 ≤ s.level q
    · refine (script_of_le hlevel).trans ?_
      simp only [hlevel, if_true, decide_true]
      rfl
    · refine (script_of_not_le hlevel).trans ?_
      simp only [hlevel, if_false, decide_false]
      rfl
  unfold evaluate consume Quota.derived
  dsimp only
  rw [if_neg (by omega), Int.cast_one, hscript]

theorem evaluate_other {derived : Derived} (h : derived.identity ≠ q.identity)
    (heval : s.evaluate derived = some (result, store)) :
    store (limiterPrefix ++ q.identity) = s.slot q := by
  unfold evaluate consume at heval
  split at heval
  next => cases heval
  next =>
    cases heval
    refine Function.update_of_ne (fun heq => h ?_) _ _
    rw [← String.toList_inj, String.toList_append, String.toList_append] at heq
    exact String.toList_inj.mp (List.append_cancel_left heq).symm

/-- A hash that is removed would have been full, so the refill goes on as it would have. -/
theorem refilled_later {rate burst : ℚ} (hrate : 0 < rate) {stored : Option Bucket}
    {nowMs later : ℤ} (hle : nowMs ≤ later)
    (h : ∀ bucket, stored = some bucket → bucket.Stamped rate burst nowMs) :
    refilled rate burst stored later =
      min burst (refilled rate burst stored nowMs + rate / 1000 * (later - nowMs)) := by
  have helapsed : (0 : ℚ) ≤ later - nowMs := sub_nonneg.mpr (Int.cast_le.mpr hle)
  have hflow : 0 ≤ rate / 1000 * ((later : ℚ) - nowMs) := by positivity
  cases stored with
  | none =>
      rw [Stream.refilled_missing rate burst rfl, Stream.refilled_missing rate burst rfl]
      exact (min_eq_left (le_add_of_nonneg_right hflow)).symm
  | some bucket =>
      have hstamped := h bucket rfl
      have hlater : bucket.Stamped rate burst later :=
        ⟨hstamped.tokens_nonneg, hstamped.lastRefill_le.trans hle, hstamped.expireAt_eq⟩
      rw [← Expiry.refilled_keep_redis rate burst _ later, Expiry.redis.refilled_keep hrate hlater,
        ← Expiry.refilled_keep_redis rate burst _ nowMs, Expiry.redis.refilled_keep hrate hstamped,
        ← min_add_add_right, ← min_assoc, min_eq_left (le_add_of_nonneg_right hflow)]
      congr 1
      ring

theorem Budgeted.level_nonneg (h : Budgeted q s) : 0 ≤ s.level q := by
  have hburst : (0 : ℚ) < q.burst := Int.cast_pos.mpr q.burst_pos
  unfold level
  cases hslot : s.slot q with
  | none =>
      rw [Stream.refilled_missing q.rate q.burst rfl]
      exact hburst.le
  | some bucket =>
      have hstamped := h.slot bucket hslot
      have helapsed : (0 : ℚ) ≤ s.now - bucket.lastRefill :=
        sub_nonneg.mpr (Int.cast_le.mpr hstamped.lastRefill_le)
      have hrate := q.rate_pos
      rw [← Expiry.refilled_keep_redis, Expiry.redis.refilled_keep hrate hstamped]
      refine le_min hburst.le (add_nonneg hstamped.tokens_nonneg ?_)
      positivity

end Script

section Steps

variable {q : Quota} {s t : Limiter} {a : Action}

theorem Budgeted.quotaStep (h : Budgeted q s) (hstep : step s a = some t) : QuotaStep q s t := by
  cases a with
  | tick time =>
      obtain ⟨hlater, ⟨⟩⟩ := Option.ite_none_right_eq_some.mp hstep
      exact .quiet (RedisTime.nowMs_mono hlater) rfl rfl rfl
  | arrive process derived =>
      obtain ⟨-, ⟨⟩⟩ := Option.ite_none_right_eq_some.mp hstep
      exact .quiet le_rfl rfl rfl rfl
  | boot | flush =>
      cases hstep
      exact .quiet le_rfl rfl rfl rfl
  | wipe =>
      cases hstep
      exact .wiped rfl rfl rfl rfl
  | call c action =>
      obtain ⟨call, hcall, hmoved⟩ := callStep_of_step hstep
      cases hmoved with
      | @executed again reply result store hpc hreply hscript heval =>
          by_cases hid : call.derived.identity = q.identity
          · have hderived := h.calls c call hcall hid
            rw [hderived, evaluate_eq] at heval
            cases heval
            refine .executed _ _ ?_ rfl rfl (Function.update_self _ _ _) rfl rfl rfl
            exact ⟨hderived, rfl, rfl, fun hlevel => if_neg hlevel⟩
          · exact .other _ hid rfl (evaluate_other hid heval) rfl rfl
      | @loaded again reply hpc hreply => cases reply <;> exact .quiet le_rfl rfl rfl rfl
      | _ => exact .quiet le_rfl rfl rfl rfl

theorem executionsOf_other {e : Execution} (he : e.derived.identity ≠ q.identity)
    (hlog : t.log = e :: s.log) : t.executionsOf q = s.executionsOf q := by
  unfold executionsOf
  rw [hlog, List.filter_cons_of_neg (by simpa using he)]

theorem executionsOf_executed {e : Execution} {level : ℚ} (he : e.Found q level)
    (hlog : t.log = e :: s.log) : t.executionsOf q = e :: s.executionsOf q := by
  unfold executionsOf
  rw [hlog, List.filter_cons_of_pos (by simp [he.derived, Quota.derived])]

theorem executionsOf_same (hlog : t.log = s.log) : t.executionsOf q = s.executionsOf q := by
  unfold executionsOf
  rw [hlog]

theorem Budgeted.slot_step (h : Budgeted q s) (hstep : QuotaStep q s t) :
    ∀ bucket, t.slot q = some bucket → bucket.Stamped q.rate q.burst t.now := by
  intro bucket hbucket
  cases hstep with
  | quiet hnow hslot hlog hwipes =>
      have hstamped := h.slot bucket (hslot ▸ hbucket)
      exact ⟨hstamped.tokens_nonneg, hstamped.lastRefill_le.trans hnow, hstamped.expireAt_eq⟩
  | other e he hnow hslot hlog hwipes =>
      rw [hnow]
      exact h.slot bucket (hslot ▸ hbucket)
  | executed e left he htime hnow hslot hleft hlog hwipes =>
      cases hslot.symm.trans hbucket
      subst hleft
      refine ⟨?_, hnow.ge, rfl⟩
      dsimp only
      rw [he.remaining]
      split
      next hlevel => exact sub_nonneg.mpr hlevel
      next => exact h.level_nonneg
  | wiped hnow hslot hlog hwipes => cases hslot.symm.trans hbucket

theorem Uniform.before (h : t.Uniform q) (hstep : step s a = some t) : s.Uniform q := by
  intro c call hcall hid
  obtain ⟨new, hnew, hsame⟩ := kept_call hstep hcall
  rw [← hsame] at hid ⊢
  exact h c new hnew hid

theorem Budgeted.step (h : Budgeted q s) (hcalls : t.Uniform q) (hstep : step s a = some t) :
    Budgeted q t := by
  have hquota := h.quotaStep hstep
  constructor
  case calls => exact hcalls
  case slot => exact h.slot_step hquota
  case log =>
    cases hquota with
    | quiet hnow hslot hlog hwipes => exact (executionsOf_same hlog).symm ▸ h.log
    | other e he hnow hslot hlog hwipes => exact (executionsOf_other he hlog).symm ▸ h.log
    | executed e left he htime hnow hslot hleft hlog hwipes =>
        rw [executionsOf_executed he hlog]
        exact List.forall_mem_cons.mpr ⟨⟨_, he⟩, h.log⟩
    | wiped hnow hslot hlog hwipes => exact (executionsOf_same hlog).symm ▸ h.log

/-- To one identity, a step of the limiter is a step of its reservoir or none. -/
theorem Budgeted.reservoir_step (h : Budgeted q s) (hstep : QuotaStep q s t) :
    t.reservoir q = s.reservoir q ∨ q.tank.Step (s.reservoir q) (t.reservoir q) := by
  have hburst : (0 : ℚ) < q.burst := Int.cast_pos.mpr q.burst_pos
  cases hstep with
  | quiet hnow hslot hlog hwipes =>
      have hspan : (0 : ℚ) ≤ t.now - s.now := sub_nonneg.mpr (Int.cast_le.mpr hnow)
      have hlevel : t.level q = min (q.burst : ℚ)
          (s.level q + q.rate / 1000 * (t.now - s.now)) := by
        unfold level
        rw [hslot]
        exact refilled_later q.rate_pos hnow h.slot
      have hview : t.reservoir q =
          { s.reservoir q with
            level := min q.tank.capacity
              ((s.reservoir q).level + q.tank.rate * ((t.now : ℚ) - s.now))
            clock := (s.reservoir q).clock + ((t.now : ℚ) - s.now) } := by
        unfold reservoir
        rw [hlevel, executionsOf_same hlog, hwipes]
        simp [Quota.tank]
      right
      rw [hview]
      exact .wait _ hspan
  | other e he hnow hslot hlog hwipes =>
      left
      unfold reservoir level
      rw [hslot, hnow, executionsOf_other he hlog, hwipes]
  | executed e left he htime hnow hslot hleft hlog hwipes =>
      have hfits : e.result.remaining ≤ q.burst := by
        have hfull := refilled_le_burst q.rate q.burst (s.slot q) s.now
        rw [he.remaining]
        split
        next => exact (sub_le_self _ zero_le_one).trans hfull
        next => exact hfull
      have hlevel : t.level q = e.demand.left := by
        have hceil : 0 ≤ ⌈(q.burst : ℚ) / q.rate⌉ :=
          Int.ceil_nonneg (div_nonneg hburst.le q.rate_pos.le)
        have hlive : s.now ≤ s.now + ttlS q.rate q.burst * 1000 := by
          unfold ttlS
          omega
        unfold level
        rw [hslot, hleft, hnow, he.left, Stream.refilled_live _ _ le_rfl hlive]
        simpa using hfits
      have hview : t.reservoir q =
          { s.reservoir q with
            level := (Demand.mk (s.reservoir q).clock 1 (s.reservoir q).level).left
            demands := ⟨(s.reservoir q).clock, 1, (s.reservoir q).level⟩ ::
              (s.reservoir q).demands } := by
        unfold reservoir
        rw [hlevel, executionsOf_executed he hlog, hwipes, hnow, List.map_cons, he.demand, htime]
      right
      rw [hview]
      exact .ask 1 zero_le_one
  | wiped hnow hslot hlog hwipes =>
      have hlevel : t.level q = q.burst := by
        unfold level
        rw [hslot]
        exact Stream.refilled_missing q.rate q.burst rfl
      have hview : t.reservoir q =
          { s.reservoir q with
            level := q.tank.capacity
            refills := (s.reservoir q).clock :: (s.reservoir q).refills } := by
        unfold reservoir
        rw [hlevel, executionsOf_same hlog, hwipes, hnow]
        rfl
      right
      rw [hview]
      exact .refill

theorem budgeted_init (q : Quota) (time : RedisTime) : Budgeted q (init time) where
  calls := fun _ _ hcall => by simp [init] at hcall
  slot := fun _ hslot => by cases hslot
  log := fun _ hmem => by cases hmem

/-- Every run of the limiter is a run of the reservoir of each identity. -/
theorem run_reservoir {time : RedisTime} (h : Reaches Transition.anyStep (init time) t)
    (hcalls : t.Uniform q) : Budgeted q t ∧ q.tank.Run time.nowMs (t.reservoir q) := by
  refine h.invariant
    (fun s => s.Uniform q → Budgeted q s ∧ q.tank.Run time.nowMs (s.reservoir q)) ?_ ?_ hcalls
  · intro _
    refine ⟨budgeted_init q time, ?_⟩
    have hview : (init time).reservoir q = q.tank.full time.nowMs := by
      have hlevel : (init time).level q = q.burst := Stream.refilled_missing q.rate q.burst rfl
      unfold reservoir
      rw [hlevel]
      rfl
    exact hview ▸ .refl
  · intro s a t ih _ hstep hcalls
    obtain ⟨hbudgeted, hrun⟩ := ih (hcalls.before hstep)
    refine ⟨hbudgeted.step hcalls hstep, ?_⟩
    rcases hbudgeted.reservoir_step (hbudgeted.quotaStep hstep) with heq | hnext
    · exact heq.symm ▸ hrun
    · exact hrun.tail hnext

end Steps

/-- How many calls under the identity the script admits in a window. -/
def admittedIn (s : Limiter) (q : Quota) (u d : ℚ) : ℕ :=
  (s.executionsOf q).countP fun e =>
    e.result.allowed && decide (u ≤ e.time.nowMs ∧ (e.time.nowMs : ℚ) ≤ u + d)

/-- How often Redis loses its data in a window. -/
def wipesIn (s : Limiter) (u d : ℚ) : ℕ :=
  s.wipes.countP fun ms : ℤ => u ≤ ms ∧ (ms : ℚ) ≤ u + d

section Results

/-- One token at first and one a second. -/
def visitor : Quota := ⟨"ip:192.0.2.1", 60, 1, by decide, by decide⟩

/-- A call in each of two processes; the second one comes when the bucket is empty. -/
def visits : List Action :=
  [.boot, .boot, .arrive 0 visitor.derived, .arrive 1 visitor.derived, .call 0 .start,
    .call 0 (.load .answers), .call 0 (.eval .answers), .call 1 .start, .call 1 (.load .lost),
    .arrive 1 visitor.derived, .call 2 .start, .call 2 (.load .answers), .call 2 (.eval .answers)]

variable {q : Quota} {s : Limiter}

/-- Each admission takes one token. -/
theorem Budgeted.takenIn_eq (h : Budgeted q s) (u d : ℚ) :
    (s.reservoir q).takenIn (fun time => u ≤ time ∧ time ≤ u + d) = s.admittedIn q u d := by
  have hlog := h.log
  unfold State.takenIn admittedIn reservoir
  dsimp only
  generalize s.executionsOf q = log at hlog ⊢
  induction log with
  | nil => rfl
  | cons e rest ih =>
      obtain ⟨level, he⟩ := hlog e List.mem_cons_self
      have hrest := ih fun other hmem => hlog other (List.mem_cons_of_mem _ hmem)
      have htime : e.demand.time = e.time.nowMs := rfl
      rw [List.map_cons, List.map_cons, List.sum_cons, hrest, he.taken, htime, List.countP_cons]
      by_cases hin : u ≤ e.time.nowMs ∧ (e.time.nowMs : ℚ) ≤ u + d <;>
        cases e.result.allowed <;> simp [hin, add_comm]

theorem refillsIn_eq (s : Limiter) (q : Quota) (u d : ℚ) :
    (s.reservoir q).refillsIn (fun time => u ≤ time ∧ time ≤ u + d) = s.wipesIn u d := by
  unfold State.refillsIn reservoir wipesIn
  rw [List.countP_map]
  rfl

theorem Budgeted.admittedIn_le (h : Budgeted q s) {clock : ℚ}
    (hrun : q.tank.Run clock (s.reservoir q)) (u : ℚ) {d : ℚ} (hd : 0 ≤ d) :
    (s.admittedIn q u d : ℚ) ≤ q.burst * (1 + s.wipesIn u d) + q.ratePerMin * d / 60000 := by
  have hbound := hrun.takenIn_le u hd
  rw [h.takenIn_eq, refillsIn_eq] at hbound
  refine hbound.trans_eq ?_
  unfold Quota.tank Quota.rate
  ring

/-- Whatever the processes do, in any window an identity is admitted no more often than its
burst, once more for each loss of Redis's data in the window, and what its rate allows. -/
theorem limit_enforced {time : RedisTime} (h : Reaches Transition.anyStep (init time) s)
    (hcalls : s.Uniform q) (u : ℚ) {d : ℚ} (hd : 0 ≤ d) :
    (s.admittedIn q u d : ℚ) ≤ q.burst * (1 + s.wipesIn u d) + q.ratePerMin * d / 60000 := by
  obtain ⟨hbudgeted, hrun⟩ := run_reservoir h hcalls
  exact hbudgeted.admittedIn_le hrun u hd

theorem limit_enforced_visits : ∃ s : Limiter, s.admittedIn visitor 0 5000 = 1 ∧
    (s.admittedIn visitor 0 5000 : ℚ) ≤ 1 * (1 + s.wipesIn 0 5000) + 60 * 5000 / 60000 := by
  obtain ⟨s, hs, hcalls, hadmitted⟩ := Transition.exists_of_runAll step Transition.anyStep
    (init ⟨0, 0⟩) visits
    (fun s => (∀ call ∈ s.calls, call.derived = visitor.derived) ∧
      s.admittedIn visitor 0 5000 = 1) (by decide +kernel)
  have hbound := limit_enforced hs
    (fun _ call hcall _ => hcalls call (List.mem_of_getElem? hcall)) 0 (d := 5000) (by norm_num)
  refine ⟨s, hadmitted, ?_⟩
  simpa [visitor] using hbound

/-- A refusal names the wait: while nothing else is admitted under the identity, in whichever
process, the script admits a call from that millisecond on, and until then only if Redis has
lost its data. -/
theorem retry_after_honoured {time : RedisTime} (h : Reaches Transition.anyStep (init time) s)
    (hcalls : s.Uniform q)
    {later earlier : List Execution} {e : Execution}
    (hlog : s.executionsOf q = later ++ e :: earlier) (hrefused : e.result.allowed = false)
    (hnone : ∀ other ∈ later, other.result.allowed = false)
    {result : BucketResult} {store : String → Option Bucket}
    (heval : s.evaluate q.derived = some (result, store)) :
    (e.result.retryAfterMs ≤ s.now - e.time.nowMs → result.allowed = true) ∧
    ((∀ ms ∈ s.wipes, ms < e.time.nowMs) →
      (result.allowed = true ↔ e.result.retryAfterMs ≤ s.now - e.time.nowMs)) ∧
    (e.result.retryAfterSeconds * 1000000 ≤ s.redis.time.total - e.time.total →
      result.allowed = true) := by
  obtain ⟨hbudgeted, hrun⟩ := run_reservoir h hcalls
  have hmem : ∀ other ∈ e :: later, other ∈ s.executionsOf q := by
    intro other hother
    rw [hlog]
    rcases List.mem_cons.mp hother with rfl | hlater
    · simp
    · exact List.mem_append_left _ hlater
  obtain ⟨level, he⟩ := hbudgeted.log e (hmem e List.mem_cons_self)
  have hlevel : ¬1 ≤ level := by simpa [he.allowed] using hrefused
  have hdemands : (s.reservoir q).demands =
      later.map Execution.demand ++ e.demand :: earlier.map Execution.demand := by
    unfold reservoir
    rw [hlog, List.map_append, List.map_cons]
  have hquiet : ∀ demand ∈ later.map Execution.demand, ¬demand.Granted := by
    intro demand hdemand
    obtain ⟨other, hother, rfl⟩ := List.mem_map.mp hdemand
    obtain ⟨_, hfound⟩ := hbudgeted.log other (hmem other (List.mem_cons_of_mem _ hother))
    rw [hfound.granted, hnone other hother]
    exact Bool.false_ne_true
  obtain ⟨hle, heq⟩ := hrun.level_since hdemands hquiet
  have hallowed : result.allowed = true ↔ 1 ≤ s.level q := by
    rw [evaluate_eq] at heval
    cases heval
    exact decide_eq_true_iff
  have hburst : 1 ≤ q.tank.capacity := by
    change (1 : ℚ) ≤ q.burst
    exact_mod_cast q.burst_pos
  have hwait : (1 : ℚ) ≤ min q.tank.capacity
        (e.demand.left + q.tank.rate * ((s.reservoir q).clock - e.demand.time)) ↔
      e.result.retryAfterMs ≤ s.now - e.time.nowMs := by
    rw [he.retryAfterMs hlevel, Usage.ceil_wait_le_iff q.rate_pos, he.left, he.remaining,
      if_neg hlevel, le_min_iff, and_iff_right hburst]
    have hflow : q.rate / 1000 * ((s.now : ℚ) - e.time.nowMs) =
        q.rate * (s.now - e.time.nowMs : ℤ) / 1000 := by
      push_cast
      ring
    rw [← hflow]
    rfl
  have hwaited : e.result.retryAfterMs ≤ s.now - e.time.nowMs → result.allowed = true :=
    fun hms => hallowed.mpr ((hwait.mpr hms).trans hle)
  refine ⟨hwaited, fun hwipes => ?_, fun hseconds =>
    hwaited (Execution.retryAfterMs_le_of_waited hrefused hseconds)⟩
  have hkept : ∀ time ∈ (s.reservoir q).refills, time < e.demand.time := by
    intro time htime
    obtain ⟨ms, hms, rfl⟩ := List.mem_map.mp htime
    exact Int.cast_lt.mpr (hwipes ms hms)
  rw [hallowed, ← hwait, ← heq hkept]
  rfl

/-- The last call is refused, and a second later the next one is not. -/
theorem retry_after_honoured_visits : ∃ (s : Limiter) (result : BucketResult)
    (store : String → Option Bucket),
      s.evaluate visitor.derived = some (result, store) ∧ result.allowed = true := by
  obtain ⟨s, hs, hcalls, hlast⟩ := Transition.exists_of_runAll step Transition.anyStep
    (init ⟨0, 0⟩) (visits ++ [.tick ⟨1, 0⟩])
    (fun s => (∀ call ∈ s.calls, call.derived = visitor.derived) ∧
      (s.executionsOf visitor).head?.any fun e =>
        !e.result.allowed && decide (e.result.retryAfterMs ≤ s.now - e.time.nowMs))
    (by decide +kernel)
  obtain ⟨e, hhead, hlast⟩ := (Option.any_eq_true _ _).mp hlast
  rw [Bool.and_eq_true, Bool.not_eq_true', decide_eq_true_eq] at hlast
  obtain ⟨earlier, hlog⟩ := List.head?_eq_some_iff.mp hhead
  have hlog : s.executionsOf visitor = [] ++ e :: earlier := hlog
  have heval := evaluate_eq s visitor
  exact ⟨s, _, _, heval, (retry_after_honoured hs
    (fun _ call hcall _ => hcalls call (List.mem_of_getElem? hcall)) hlog hlast.1
    (fun _ hmem => nomatch hmem) heval).1 hlast.2⟩

end Results

end Limiter
end NotifyRelay
