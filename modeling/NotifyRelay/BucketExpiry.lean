import NotifyRelay.TokenBucket

/-! A key used with one rate and burst, by calls of any sizes. What Redis removes is never
missed, and a refusal names the millisecond from which the same call is admitted. -/
namespace NotifyRelay.TokenBucket

theorem refilled_le_burst (rate burst : ℚ) (stored : Option Bucket) (nowMs : ℤ) :
    refilled rate burst stored nowMs ≤ burst := by
  unfold refilled
  dsimp only
  rw [← min_def_lt]
  exact min_le_left _ _

/-- The script reads the hash through the refill alone. -/
theorem script_congr {rate burst : ℚ} {time : RedisTime} {stored stored' : Option Bucket}
    (h : refilled rate burst stored time.nowMs = refilled rate burst stored' time.nowMs)
    (request : ℚ) :
    script rate burst request time stored = script rate burst request time stored' := by
  simp only [script, h]

/-- A hash as a call before `nowMs` leaves it. -/
structure Bucket.Stamped (rate burst : ℚ) (nowMs : ℤ) (bucket : Bucket) : Prop where
  tokens_nonneg : 0 ≤ bucket.tokens
  lastRefill_le : bucket.lastRefill ≤ nowMs
  expireAt_eq : bucket.expireAt = bucket.lastRefill + ttlS rate burst * 1000

theorem script_stamped {rate burst : ℚ} (request : ℚ) {time : RedisTime}
    {stored : Option Bucket} {nowMs : ℤ} (hlevel : 0 ≤ refilled rate burst stored time.nowMs)
    (hlater : time.nowMs ≤ nowMs) :
    (script rate burst request time stored).2.Stamped rate burst nowMs := by
  by_cases henough : request ≤ refilled rate burst stored time.nowMs
  · rw [script_of_le henough]
    exact ⟨sub_nonneg.mpr henough, hlater, rfl⟩
  · rw [script_of_not_le henough]
    exact ⟨hlevel, hlater, rfl⟩

/-- When a hash is gone: not before its time. -/
structure Expiry where
  live : Bucket → ℤ → Bool
  live_of_lt : ∀ bucket nowMs, nowMs < bucket.expireAt → live bucket nowMs = true

namespace Expiry

/-- `EXPIRE` as `found` reads it. -/
def redis : Expiry where
  live bucket nowMs := nowMs ≤ bucket.expireAt
  live_of_lt _ _ h := decide_eq_true h.le

def never : Expiry where
  live _ _ := true
  live_of_lt _ _ _ := rfl

/-- The hash a call finds: removed by now, or safe from removal now. -/
def keep (e : Expiry) (stored : Option Bucket) (nowMs : ℤ) : Option Bucket :=
  (stored.filter (e.live · nowMs)).map fun bucket => { bucket with expireAt := nowMs }

theorem refilled_keep_redis (rate burst : ℚ) (stored : Option Bucket) (nowMs : ℤ) :
    refilled rate burst (redis.keep stored nowMs) nowMs = refilled rate burst stored nowMs := by
  have hfound : found (redis.keep stored nowMs) nowMs = redis.keep stored nowMs := by
    unfold found keep
    cases stored.filter (redis.live · nowMs) with
    | none => rfl
    | some bucket => exact if_pos (decide_eq_true le_rfl)
  unfold refilled
  rw [hfound]
  simp only [keep, Option.map_map, Function.comp_def]
  rfl

/-- The refill is the same whether a hash past its time is still there or not. -/
theorem refilled_keep (e : Expiry) {rate burst : ℚ} (hrate : 0 < rate) {bucket : Bucket}
    {nowMs : ℤ} (h : bucket.Stamped rate burst nowMs) :
    refilled rate burst (e.keep (some bucket) nowMs) nowMs =
      min burst (bucket.tokens + rate * (nowMs - bucket.lastRefill) / 1000) := by
  cases hlive : e.live bucket nowMs with
  | true =>
      have hkeep : e.keep (some bucket) nowMs = some { bucket with expireAt := nowMs } := by
        simp [keep, hlive]
      rw [hkeep]
      exact Stream.refilled_live rate burst h.lastRefill_le le_rfl
  | false =>
      have hkeep : e.keep (some bucket) nowMs = none := by simp [keep, hlive]
      have hgone : bucket.expireAt ≤ nowMs := by
        refine not_lt.mp fun hlt => ?_
        rw [e.live_of_lt bucket nowMs hlt] at hlive
        exact Bool.noConfusion hlive
      have helapsed : ttlS rate burst * 1000 ≤ nowMs - bucket.lastRefill := by
        have hexpire := h.expireAt_eq
        omega
      have hfull := Stream.burst_le_refill hrate burst _ helapsed
      push_cast at hfull
      rw [hkeep, Stream.refilled_missing rate burst rfl, min_eq_left]
      exact le_add_of_nonneg_of_le h.tokens_nonneg hfull

end Expiry

/-- Calls of any sizes on a key that does not exist at the start. -/
structure Usage where
  rate : ℚ
  burst : ℚ
  time : ℕ → RedisTime
  request : ℕ → ℚ
  rate_pos : 0 < rate
  one_le_burst : 1 ≤ burst
  total_le_total : ∀ n, (time n).total ≤ (time (n + 1)).total

namespace Usage

variable (u : Usage) (e : Expiry)

abbrev ms (n : ℕ) : ℤ := (u.time n).nowMs

/-- What is stored before the `n`-th call. -/
def stored : ℕ → Option Bucket
  | 0 => none
  | n + 1 => some (script u.rate u.burst (u.request n) (u.time n) (stored n)).2

def reply (n : ℕ) : Reply := (script u.rate u.burst (u.request n) (u.time n) (u.stored n)).1

def allowed (n : ℕ) : Prop := (u.reply n).allowed = true

/-- The same calls where a hash is removed as `e` says. -/
def storedUnder : ℕ → Option Bucket
  | 0 => none
  | n + 1 => some (script u.rate u.burst (u.request n) (u.time n)
      (e.keep (storedUnder n) (u.ms n))).2

def replyUnder (n : ℕ) : Reply :=
  (script u.rate u.burst (u.request n) (u.time n) (e.keep (u.storedUnder e n) (u.ms n))).1

/-- What `consume` makes of the `n`-th reply. -/
def result (n : ℕ) : BucketResult :=
  ⟨(u.reply n).allowed, (u.reply n).tokens, (u.reply n).retryAfterMs⟩

theorem total_mono {j n : ℕ} (h : j ≤ n) : (u.time j).total ≤ (u.time n).total :=
  monotone_nat_of_le_succ u.total_le_total h

theorem ms_mono {j n : ℕ} (h : j ≤ n) : u.ms j ≤ u.ms n := RedisTime.nowMs_mono (u.total_mono h)

theorem burst_pos : 0 < u.burst := lt_of_lt_of_le one_pos u.one_le_burst

theorem storedUnder_redis (n : ℕ) : u.storedUnder .redis n = u.stored n := by
  induction n with
  | zero => rfl
  | succ n ih =>
      rw [storedUnder, stored, ih]
      rw [script_congr (Expiry.refilled_keep_redis u.rate u.burst (u.stored n) (u.ms n))]

theorem replyUnder_redis (n : ℕ) : u.replyUnder .redis n = u.reply n := by
  rw [replyUnder, reply, storedUnder_redis]
  rw [script_congr (Expiry.refilled_keep_redis u.rate u.burst (u.stored n) (u.ms n))]

theorem refilled_keep_nonneg {stored : Option Bucket} {nowMs : ℤ}
    (h : ∀ bucket, stored = some bucket → bucket.Stamped u.rate u.burst nowMs) :
    0 ≤ refilled u.rate u.burst (e.keep stored nowMs) nowMs := by
  cases stored with
  | none =>
      have hfull : refilled u.rate u.burst (e.keep none nowMs) nowMs = u.burst :=
        Stream.refilled_missing u.rate u.burst rfl
      exact hfull.symm ▸ u.burst_pos.le
  | some bucket =>
      have hstamped := h bucket rfl
      have helapsed : (0 : ℚ) ≤ nowMs - bucket.lastRefill :=
        sub_nonneg.mpr (Int.cast_le.mpr hstamped.lastRefill_le)
      have hrate := u.rate_pos
      rw [e.refilled_keep u.rate_pos hstamped]
      refine le_min u.burst_pos.le (add_nonneg hstamped.tokens_nonneg ?_)
      positivity

theorem storedUnder_stamped (n : ℕ) : ∀ bucket, u.storedUnder e n = some bucket →
    bucket.Stamped u.rate u.burst (u.ms n) := by
  induction n with
  | zero => rintro _ ⟨⟩
  | succ n ih =>
      rintro _ ⟨⟩
      exact script_stamped _ (u.refilled_keep_nonneg e ih) (u.ms_mono (Nat.le_succ n))

/-- A call finds the same tokens after its refill under any two expiries. -/
theorem refilled_expiry {e e' : Expiry} {n : ℕ} (h : u.storedUnder e n = u.storedUnder e' n) :
    refilled u.rate u.burst (e.keep (u.storedUnder e n) (u.ms n)) (u.ms n) =
      refilled u.rate u.burst (e'.keep (u.storedUnder e' n) (u.ms n)) (u.ms n) := by
  rw [← h]
  cases hstored : u.storedUnder e n with
  | none => rfl
  | some bucket =>
      have hstamped := u.storedUnder_stamped e n bucket hstored
      rw [e.refilled_keep u.rate_pos hstamped, e'.refilled_keep u.rate_pos hstamped]

theorem storedUnder_eq (e e' : Expiry) (n : ℕ) : u.storedUnder e n = u.storedUnder e' n := by
  induction n with
  | zero => rfl
  | succ n ih => rw [storedUnder, storedUnder, script_congr (u.refilled_expiry ih)]

theorem replyUnder_eq (e e' : Expiry) (n : ℕ) : u.replyUnder e n = u.replyUnder e' n := by
  rw [replyUnder, replyUnder, script_congr (u.refilled_expiry (u.storedUnder_eq e e' n))]

/-- The tokens the `n`-th call finds after its refill. -/
def level (n : ℕ) : ℚ := refilled u.rate u.burst (u.stored n) (u.ms n)

theorem allowed_iff (n : ℕ) : u.allowed n ↔ u.request n ≤ u.level n := script_allowed

theorem retryAfterMs_of_refused {n : ℕ} (h : ¬u.allowed n) :
    (u.reply n).retryAfterMs = ⌈(u.request n - u.level n) * 1000 / u.rate⌉ := by
  rw [reply, script_of_not_le (mt (u.allowed_iff n).mpr h)]
  rfl

/-- A refused call takes nothing, so the next one finds what it found and the refill. -/
theorem level_succ_of_refused {n : ℕ} (h : ¬u.allowed n) :
    u.level (n + 1) =
      min u.burst (u.level n + u.rate * (u.ms (n + 1) - u.ms n) / 1000) := by
  have hstored : u.stored (n + 1) =
      some ⟨u.level n, u.ms n, u.ms n + ttlS u.rate u.burst * 1000⟩ := by
    rw [stored, script_of_not_le (mt (u.allowed_iff n).mpr h)]
    rfl
  have hstamped := u.storedUnder_stamped .redis (n + 1) _ (u.storedUnder_redis (n + 1) ▸ hstored)
  rw [level, ← Expiry.refilled_keep_redis, hstored]
  exact Expiry.redis.refilled_keep u.rate_pos hstamped

theorem level_of_refused {n m : ℕ} (hnm : n ≤ m) (h : ∀ k, n ≤ k → k < m → ¬u.allowed k) :
    u.level m = min u.burst (u.level n + u.rate * (u.ms m - u.ms n) / 1000) := by
  induction m, hnm using Nat.le_induction with
  | base =>
      rw [sub_self, mul_zero, zero_div, add_zero]
      exact (min_eq_right (refilled_le_burst _ _ _ _)).symm
  | succ m hnm ih =>
      have hlevel := ih fun k hnk hkm => h k hnk (Nat.lt_succ_of_lt hkm)
      have hrefill : 0 ≤ u.rate * ((u.ms (m + 1) : ℚ) - u.ms m) / 1000 := by
        have hrate := u.rate_pos
        have helapsed : (0 : ℚ) ≤ u.ms (m + 1) - u.ms m :=
          sub_nonneg.mpr (Int.cast_le.mpr (u.ms_mono (Nat.le_succ m)))
        positivity
      calc u.level (m + 1)
          = min u.burst (min u.burst (u.level n + u.rate * (u.ms m - u.ms n) / 1000) +
              u.rate * (u.ms (m + 1) - u.ms m) / 1000) := by
            rw [u.level_succ_of_refused (h m hnm (Nat.lt_succ_self m)), hlevel]
        _ = min u.burst (u.level n + u.rate * (u.ms m - u.ms n) / 1000 +
              u.rate * (u.ms (m + 1) - u.ms m) / 1000) := by
            rw [← min_add_add_right, ← min_assoc, min_eq_left (le_add_of_nonneg_right hrefill)]
        _ = min u.burst (u.level n + u.rate * (u.ms (m + 1) - u.ms n) / 1000) := by
            congr 1
            ring

/-- The wait a refusal names, in exact milliseconds. -/
theorem ceil_wait_le_iff {rate : ℚ} (hrate : 0 < rate) (request level : ℚ) (elapsedMs : ℤ) :
    ⌈(request - level) * 1000 / rate⌉ ≤ elapsedMs ↔
      request ≤ level + rate * elapsedMs / 1000 := by
  rw [Int.ceil_le, div_le_iff₀ hrate, ← sub_le_iff_le_add', le_div_iff₀ (by norm_num),
    mul_comm rate]

theorem allowed_iff_waited {n m : ℕ} (hnm : n < m) (h : ∀ k, n ≤ k → k < m → ¬u.allowed k)
    (hsame : u.request m = u.request n) (hburst : u.request n ≤ u.burst) :
    u.allowed m ↔ (u.reply n).retryAfterMs ≤ u.ms m - u.ms n := by
  rw [u.allowed_iff, u.retryAfterMs_of_refused (h n le_rfl hnm), ceil_wait_le_iff u.rate_pos,
    u.level_of_refused hnm.le h, hsame, le_min_iff, and_iff_right hburst]
  push_cast
  rfl

/-- The header's seconds are at least the script's milliseconds. -/
theorem retryAfterMs_le_of_waited {n m : ℕ} (hrefused : ¬u.allowed n)
    (hwaited : (u.result n).retryAfterSeconds * 1000000 ≤ (u.time m).total - (u.time n).total) :
    (u.reply n).retryAfterMs ≤ u.ms m - u.ms n := by
  have hrefused' : (u.result n).allowed = false := Bool.eq_false_iff.mpr hrefused
  have hn := (u.time n).microseconds.isLt
  have hm := (u.time m).microseconds.isLt
  unfold BucketResult.retryAfterSeconds at hwaited
  rw [hrefused', if_neg Bool.false_ne_true] at hwaited
  unfold RedisTime.total at hwaited
  unfold ms RedisTime.nowMs
  simp only [result] at hwaited
  omega

end Usage

/-- Expiry is unobservable, whether Redis removes a hash at or after its time. -/
theorem expiry_unobservable (u : Usage) (n : ℕ) :
    u.reply n = u.replyUnder .never n ∧ ∀ e, u.replyUnder e n = u.replyUnder .never n :=
  ⟨u.replyUnder_redis n ▸ u.replyUnder_eq .redis .never n, fun e => u.replyUnder_eq e .never n⟩

/-- `Retry-After` is exact: a refused call is admitted from the millisecond on that its
refusal names, and so after the seconds of the header. -/
theorem retry_after_exact (u : Usage) {n m : ℕ} (hnm : n < m)
    (hrefused : ∀ k, n ≤ k → k < m → ¬u.allowed k) (hsame : u.request m = u.request n)
    (hburst : u.request n ≤ u.burst) :
    (u.allowed m ↔ (u.reply n).retryAfterMs ≤ u.ms m - u.ms n) ∧
    ((u.result n).retryAfterSeconds * 1000000 ≤ (u.time m).total - (u.time n).total →
      u.allowed m) := by
  have hexact := u.allowed_iff_waited hnm hrefused hsame hburst
  exact ⟨hexact, fun hwaited =>
    hexact.mpr (u.retryAfterMs_le_of_waited (hrefused n le_rfl hnm) hwaited)⟩

/-- One token every three seconds, and a call each second. -/
def patient : Usage where
  rate := 1 / 3
  burst := 1
  time n := ⟨n, ⟨0, by decide⟩⟩
  request _ := 1
  rate_pos := by norm_num
  one_le_burst := by norm_num
  total_le_total n := by simp [RedisTime.total]

/-- The second call is told to wait two seconds, and the fourth comes after two. -/
theorem retry_after_exact_patient : patient.allowed 3 := by
  have hrefused : ∀ k, 1 ≤ k → k < 3 → ¬patient.allowed k := by
    unfold Usage.allowed
    decide +kernel
  exact (retry_after_exact patient (by decide) hrefused rfl le_rfl).2 (by decide +kernel)

end NotifyRelay.TokenBucket
