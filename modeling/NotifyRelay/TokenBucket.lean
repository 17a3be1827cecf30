import NotifyRelay.Library.Envelope
import Mathlib.Algebra.Order.Floor.Ring
import Mathlib.Data.Rat.Floor
import Mathlib.Tactic.FieldSimp
import Mathlib.Tactic.Positivity

/-! `apps/ratelimit`: the Lua script, with its numbers read as exact rationals, and
`TokenBucket.consume`. A stream of calls on one key is a reservoir. -/
namespace NotifyRelay.TokenBucket

open Finset

/-- The reply of Redis `TIME`. -/
structure RedisTime where
  seconds : ℕ
  microseconds : Fin 1000000

namespace RedisTime

def total (time : RedisTime) : ℕ := time.seconds * 1000000 + time.microseconds

/-- `tonumber(t[1]) * 1000 + math.floor(tonumber(t[2]) / 1000)`. -/
def nowMs (time : RedisTime) : ℤ := time.seconds * 1000 + time.microseconds.val / 1000

theorem nowMs_mono {a b : RedisTime} (h : a.total ≤ b.total) : a.nowMs ≤ b.nowMs := by
  have ha := a.microseconds.isLt
  have hb := b.microseconds.isLt
  unfold total at h
  unfold nowMs
  omega

end RedisTime

/-- The hash at a key, and the last millisecond before Redis removes it. -/
structure Bucket where
  tokens : ℚ
  lastRefill : ℤ
  expireAt : ℤ

structure Reply where
  allowed : Bool
  tokens : ℚ
  retryAfterMs : ℤ

/-- `EXPIRE key ttl_s`. -/
def ttlS (rate burst : ℚ) : ℤ := ⌈burst / rate⌉ + 1

/-- What the script finds at its key: an expired hash is a missing one. -/
def found (stored : Option Bucket) (nowMs : ℤ) : Option Bucket :=
  stored.filter fun bucket => nowMs ≤ bucket.expireAt

/-- The tokens after the refill and the cap. -/
def refilled (rate burst : ℚ) (stored : Option Bucket) (nowMs : ℤ) : ℚ :=
  let data := found stored nowMs
  let tokens := (data.map Bucket.tokens).getD burst
  let last := (data.map Bucket.lastRefill).getD nowMs
  let elapsedMs := if nowMs - last < 0 then 0 else nowMs - last
  let refill := elapsedMs * rate / 1000
  if burst < tokens + refill then burst else tokens + refill

/-- `token_bucket.lua`. -/
def script (rate burst request : ℚ) (time : RedisTime) (stored : Option Bucket) :
    Reply × Bucket :=
  let nowMs := time.nowMs
  let tokens := refilled rate burst stored nowMs
  let expireAt := nowMs + ttlS rate burst * 1000
  if request ≤ tokens then
    (⟨true, tokens - request, 0⟩, ⟨tokens - request, nowMs, expireAt⟩)
  else
    (⟨false, tokens, ⌈(request - tokens) * 1000 / rate⌉⟩, ⟨tokens, nowMs, expireAt⟩)

section

variable {rate burst request : ℚ} {time : RedisTime} {stored : Option Bucket}

theorem script_of_le (h : request ≤ refilled rate burst stored time.nowMs) :
    script rate burst request time stored =
      (⟨true, refilled rate burst stored time.nowMs - request, 0⟩,
        ⟨refilled rate burst stored time.nowMs - request, time.nowMs,
          time.nowMs + ttlS rate burst * 1000⟩) :=
  if_pos h

theorem script_of_not_le (h : ¬request ≤ refilled rate burst stored time.nowMs) :
    script rate burst request time stored =
      (⟨false, refilled rate burst stored time.nowMs,
          ⌈(request - refilled rate burst stored time.nowMs) * 1000 / rate⌉⟩,
        ⟨refilled rate burst stored time.nowMs, time.nowMs,
          time.nowMs + ttlS rate burst * 1000⟩) :=
  if_neg h

theorem script_allowed :
    (script rate burst request time stored).1.allowed = true ↔
      request ≤ refilled rate burst stored time.nowMs := by
  by_cases h : request ≤ refilled rate burst stored time.nowMs
  · rw [script_of_le h]
    exact iff_of_true rfl h
  · rw [script_of_not_le h]
    exact iff_of_false Bool.false_ne_true h

end

structure BucketResult where
  allowed : Bool
  remaining : ℚ
  retryAfterMs : ℤ

def BucketResult.retryAfterSeconds (result : BucketResult) : ℤ :=
  if result.allowed then 0 else max 1 ((result.retryAfterMs + 999) / 1000)

/-- `TokenBucket.consume` on the keys of Redis; `none` is the `ValueError`. A script that
is not loaded yet leaves no trace and is loaded. -/
def consume (store : String → Option Bucket) (keyPrefix identity : String)
    (ratePerMin burst tokens : ℤ) (time : RedisTime) :
    Option (BucketResult × (String → Option Bucket)) :=
  if ratePerMin ≤ 0 ∨ burst ≤ 0 ∨ tokens ≤ 0 then none
  else
    let key := keyPrefix ++ identity
    let (reply, bucket) := script (ratePerMin / 60) burst tokens time (store key)
    some (⟨reply.allowed, reply.tokens, reply.retryAfterMs⟩,
      Function.update store key (some bucket))

/-- Calls with one rate and burst on a key that does not exist at the start. -/
structure Stream where
  rate : ℚ
  burst : ℚ
  time : ℕ → RedisTime
  request : ℕ → ℚ
  rate_pos : 0 < rate
  one_le_burst : 1 ≤ burst
  total_le_total : ∀ n, (time n).total ≤ (time (n + 1)).total
  one_le_request : ∀ n, 1 ≤ request n

namespace Stream

variable (c : Stream)

/-- What is stored before the `n`-th call. -/
def stored : ℕ → Option Bucket
  | 0 => none
  | n + 1 => some (script c.rate c.burst (c.request n) (c.time n) (stored n)).2

def reply (n : ℕ) : Reply := (script c.rate c.burst (c.request n) (c.time n) (c.stored n)).1

def allowed (n : ℕ) : Prop := (c.reply n).allowed = true

instance : DecidablePred c.allowed := fun _ => inferInstanceAs (Decidable (_ = true))

/-- The tokens the `n`-th call takes. -/
def taken (n : ℕ) : ℚ := if c.allowed n then c.request n else 0

/-- The time of the `n`-th call in milliseconds. -/
abbrev ms (n : ℕ) : ℤ := (c.time n).nowMs

/-- What has flowed in up to the `n`-th call. -/
def supply (n : ℕ) : ℚ := c.rate * c.ms n / 1000

/-- The level the script sees at the `n`-th call. -/
def available (n : ℕ) : ℚ := refilled c.rate c.burst (c.stored n) (c.ms n)

theorem allowed_iff (n : ℕ) : c.allowed n ↔ c.request n ≤ c.available n := script_allowed

theorem stored_succ (n : ℕ) :
    c.stored (n + 1) = some ⟨c.available n - c.taken n, c.ms n,
      c.ms n + ttlS c.rate c.burst * 1000⟩ := by
  rw [stored, taken]
  by_cases hallowed : c.allowed n
  · rw [if_pos hallowed, script_of_le ((c.allowed_iff n).mp hallowed)]
    rfl
  · rw [if_neg hallowed, sub_zero, script_of_not_le (mt (c.allowed_iff n).mpr hallowed)]
    rfl

theorem ms_le_ms {j n : ℕ} (h : j ≤ n) : c.ms j ≤ c.ms n := by
  induction h with
  | refl => exact Int.le_refl _
  | @step n _ ih => exact Int.le_trans ih (RedisTime.nowMs_mono (c.total_le_total n))

theorem burst_pos : 0 < c.burst := lt_of_lt_of_le one_pos c.one_le_burst

theorem request_pos (n : ℕ) : 0 < c.request n := lt_of_lt_of_le one_pos (c.one_le_request n)

theorem supply_sub (j n : ℕ) :
    c.supply n - c.supply j = c.rate * (c.ms n - c.ms j) / 1000 := by
  unfold supply
  ring

theorem supply_mono : Monotone c.supply := by
  intro j n hjn
  have hms : (c.ms j : ℚ) ≤ c.ms n := Int.cast_le.mpr (c.ms_le_ms hjn)
  rw [← sub_nonneg, supply_sub]
  have hrate := c.rate_pos
  have hdiff := sub_nonneg.mpr hms
  positivity

/-- A hash that is removed would have been full. -/
theorem burst_le_refill {rate : ℚ} (hrate : 0 < rate) (burst : ℚ) (elapsedMs : ℤ)
    (h : ttlS rate burst * 1000 ≤ elapsedMs) : burst ≤ rate * elapsedMs / 1000 := by
  have hceil : burst / rate ≤ (⌈burst / rate⌉ : ℚ) := Int.le_ceil _
  have hms : ((ttlS rate burst * 1000 : ℤ) : ℚ) ≤ elapsedMs := Int.cast_le.mpr h
  rw [ttlS] at hms
  push_cast at hms
  rw [div_le_iff₀ hrate] at hceil
  have hlonger : rate * ((⌈burst / rate⌉ + 1) * 1000) ≤ rate * elapsedMs :=
    mul_le_mul_of_nonneg_left hms hrate.le
  linarith

theorem refilled_live (rate burst : ℚ) {bucket : Bucket} {nowMs : ℤ}
    (hlast : bucket.lastRefill ≤ nowMs) (hlive : nowMs ≤ bucket.expireAt) :
    refilled rate burst (some bucket) nowMs =
      min burst (bucket.tokens + rate * (nowMs - bucket.lastRefill) / 1000) := by
  have helapsed : ¬nowMs - bucket.lastRefill < 0 := by omega
  unfold refilled found
  simp only [Option.filter_some, hlive, decide_true, if_true, Option.map_some,
    Option.getD_some, helapsed, if_false]
  push_cast
  rw [mul_comm _ rate, min_def_lt]

theorem refilled_missing (rate burst : ℚ) {stored : Option Bucket} {nowMs : ℤ}
    (h : found stored nowMs = none) : refilled rate burst stored nowMs = burst := by
  unfold refilled
  simp [h]

theorem available_succ (n : ℕ) :
    c.available (n + 1) =
      if c.ms (n + 1) ≤ c.ms n + ttlS c.rate c.burst * 1000 then
        min c.burst (c.available n - c.taken n + (c.supply (n + 1) - c.supply n))
      else c.burst := by
  have hmono := c.ms_le_ms (Nat.le_succ n)
  rw [available, stored_succ, supply_sub]
  split
  next hlive => rw [refilled_live _ _ hmono hlive]
  next hgone =>
    refine refilled_missing _ _ ?_
    simp [found, Option.filter_some, hgone]

theorem taken_le_available (n : ℕ) (h : 0 ≤ c.available n) : c.taken n ≤ c.available n := by
  unfold taken
  split
  next hallowed => exact (c.allowed_iff n).mp hallowed
  next => exact h

/-- The script holds the reservoir's level. Removing the hash changes nothing, since the
reservoir is full by then. -/
theorem available_eq_level (n : ℕ) :
    c.available n = Envelope.level c.burst c.supply c.taken n ∧ 0 ≤ c.available n := by
  induction n with
  | zero =>
      have hfull : c.available 0 = c.burst := refilled_missing _ _ rfl
      exact ⟨hfull, hfull.symm ▸ c.burst_pos.le⟩
  | succ n ih =>
      obtain ⟨hlevel, hnonneg⟩ := ih
      have hleft : 0 ≤ c.available n - c.taken n :=
        sub_nonneg.mpr (c.taken_le_available n hnonneg)
      have hflow : 0 ≤ c.supply (n + 1) - c.supply n :=
        sub_nonneg.mpr (c.supply_mono (Nat.le_succ n))
      rw [available_succ, Envelope.level, ← hlevel]
      split
      next => exact ⟨rfl, le_min c.burst_pos.le (add_nonneg hleft hflow)⟩
      next hgone =>
        have hfull : c.burst ≤ c.supply (n + 1) - c.supply n := by
          rw [supply_sub]
          have hrefill := burst_le_refill c.rate_pos c.burst (c.ms (n + 1) - c.ms n) (by omega)
          push_cast at hrefill
          exact hrefill
        refine ⟨(min_eq_left ?_).symm, c.burst_pos.le⟩
        exact le_add_of_nonneg_of_le hleft hfull

theorem greedy : Envelope.Greedy c.burst c.supply c.taken c.request c.allowed where
  grants n := by rw [allowed_iff, (c.available_eq_level n).1]
  spends n h := if_pos h
  keeps n h := if_neg h

theorem taken_nonneg (n : ℕ) : 0 ≤ c.taken n := by
  unfold taken
  split
  next => exact (c.request_pos n).le
  next => exact le_rfl

theorem allowed_iff_within (i : ℕ) :
    c.allowed i ↔ ∀ j ≤ i, c.request i + ∑ k ∈ (Ico j i).filter c.allowed, c.request k ≤
      c.burst + c.rate * (c.ms i - c.ms j) / 1000 := by
  rw [c.greedy.grants, Envelope.le_level_iff]
  simp only [Envelope.Within, supply_sub, taken, sum_filter]

/-- The calls before the `n`-th that are admitted from `u` to `u + d`. -/
def admitted (n : ℕ) (u d : ℚ) : Finset ℕ :=
  (range n).filter fun k => u ≤ c.ms k ∧ c.ms k ≤ u + d ∧ c.allowed k

private theorem sum_admitted (n : ℕ) (u d : ℚ) :
    ∑ k ∈ c.admitted n u d, c.request k = ∑ k ∈ c.admitted n u d, c.taken k :=
  sum_congr rfl fun _ hk => (if_pos (mem_filter.mp hk).2.2.2).symm

/-- The first and the last admitted call of a window bound what is admitted in it. -/
theorem sum_admitted_le (n : ℕ) (u : ℚ) {d : ℚ} (hd : 0 ≤ d) :
    ∑ k ∈ c.admitted n u d, c.request k ≤ c.burst + c.rate * d / 1000 := by
  have hrate := c.rate_pos
  rw [sum_admitted]
  rcases (c.admitted n u d).eq_empty_or_nonempty with hempty | hsome
  · rw [hempty, sum_empty]
    have hburst := c.burst_pos
    positivity
  · have hfirst := mem_filter.mp ((c.admitted n u d).min'_mem hsome)
    have hlast := mem_filter.mp ((c.admitted n u d).max'_mem hsome)
    set j := (c.admitted n u d).min' hsome
    set i := (c.admitted n u d).max' hsome
    have hji : j ≤ i := min'_le_max' _ hsome
    have hspan : (c.ms i : ℚ) - c.ms j ≤ d := by linarith [hfirst.2.1, hlast.2.2.1]
    calc ∑ k ∈ c.admitted n u d, c.taken k
        ≤ ∑ k ∈ Ico j (i + 1), c.taken k := by
          refine sum_le_sum_of_subset_of_nonneg (fun k hk => ?_) fun k _ _ => c.taken_nonneg k
          exact mem_Ico.mpr ⟨min'_le _ k hk, Nat.lt_succ_of_le (le_max' _ k hk)⟩
      _ ≤ c.burst + (c.supply i - c.supply j) :=
          Envelope.sum_le_of_covered (c.greedy.covered c.burst_pos.le c.supply_mono) hji
      _ = c.burst + c.rate * (c.ms i - c.ms j) / 1000 := by rw [supply_sub]
      _ ≤ c.burst + c.rate * d / 1000 := by gcongr

theorem allowed_of_keeps {i : ℕ}
    (h : ∀ j ≤ i, ∑ k ∈ Ico j (i + 1), c.request k ≤
      c.burst + c.rate * (c.ms i - c.ms j) / 1000) : c.allowed i := by
  refine c.greedy.granted_of_within (fun n => (c.request_pos n).le) fun j hj => ?_
  rw [supply_sub]
  exact h j hj

theorem tokens_mem {n : ℕ} {bucket : Bucket} (h : c.stored n = some bucket) :
    0 ≤ bucket.tokens ∧ bucket.tokens ≤ c.burst := by
  cases n with
  | zero => cases h
  | succ n =>
      rw [stored_succ] at h
      cases h
      obtain ⟨hlevel, hnonneg⟩ := c.available_eq_level n
      refine ⟨sub_nonneg.mpr (c.taken_le_available n hnonneg), ?_⟩
      calc c.available n - c.taken n ≤ c.available n := sub_le_self _ (c.taken_nonneg n)
        _ ≤ c.burst := hlevel ▸ Envelope.level_le_burst n

/-- A call of `consume` on the stream's key answers as the stream does, and leaves the
other keys alone. -/
theorem consume_eq {store : String → Option Bucket} {keyPrefix identity : String}
    {ratePerMin burst tokens : ℤ} {n : ℕ} (hrate : c.rate = ratePerMin / 60)
    (hburst : c.burst = burst) (htokens : c.request n = tokens)
    (hstored : store (keyPrefix ++ identity) = c.stored n) :
    consume store keyPrefix identity ratePerMin burst tokens (c.time n) =
      some (⟨(c.reply n).allowed, (c.reply n).tokens, (c.reply n).retryAfterMs⟩,
        Function.update store (keyPrefix ++ identity) (c.stored (n + 1))) := by
  have hratePos := c.rate_pos
  have hburstPos := c.burst_pos
  have htokensPos := c.request_pos n
  rw [hrate] at hratePos
  rw [hburst, Int.cast_pos] at hburstPos
  rw [htokens, Int.cast_pos] at htokensPos
  have hratePos' : 0 < ratePerMin := by
    have hcast : (0 : ℚ) < ratePerMin := by linarith
    exact Int.cast_pos.mp hcast
  unfold consume
  rw [if_neg (by omega)]
  simp only [reply, stored, hrate, hburst, htokens, hstored]

end Stream

/-- The bucket admits exactly its envelope. -/
theorem admits_envelope (c : Stream) :
    (∀ i, c.allowed i ↔
      ∀ j ≤ i, c.request i + ∑ k ∈ (Ico j i).filter c.allowed, c.request k ≤
        c.burst + c.rate * (c.ms i - c.ms j) / 1000) ∧
    (∀ n u d, 0 ≤ d →
      ∑ k ∈ (range n).filter (fun k => u ≤ (c.ms k : ℚ) ∧ (c.ms k : ℚ) ≤ u + d ∧ c.allowed k),
        c.request k ≤ c.burst + c.rate * d / 1000) ∧
    (∀ i, (∀ j ≤ i, ∑ k ∈ Ico j (i + 1), c.request k ≤
        c.burst + c.rate * (c.ms i - c.ms j) / 1000) → c.allowed i) ∧
    ∀ n bucket, c.stored n = some bucket → 0 ≤ bucket.tokens ∧ bucket.tokens ≤ c.burst :=
  ⟨c.allowed_iff_within, fun n u _ hd => c.sum_admitted_le n u hd,
    fun _ h => c.allowed_of_keeps h, fun _ _ h => c.tokens_mem h⟩

/-- Two tokens at first, one more each second, and two calls each second. -/
def hasty : Stream where
  rate := 1
  burst := 2
  time n := ⟨n / 2, 0⟩
  request _ := 1
  rate_pos := by norm_num
  one_le_burst := by norm_num
  total_le_total n := by
    have hsecond : n / 2 ≤ (n + 1) / 2 := Nat.div_le_div_right (Nat.le_succ n)
    simp only [RedisTime.total]
    omega
  one_le_request _ := le_rfl

/-- The third call takes what the first second brought, and the fourth is refused. -/
theorem admits_envelope_hasty : hasty.allowed 2 ∧ ¬hasty.allowed 3 := by
  obtain ⟨hexact, -, hkeeps, -⟩ := admits_envelope hasty
  have hthird : hasty.allowed 2 := hkeeps 2 (by decide +kernel)
  refine ⟨hthird, fun hfourth => ?_⟩
  have hover := (hexact 3).mp hfourth 0 (Nat.zero_le 3)
  revert hover
  decide +kernel

end NotifyRelay.TokenBucket
