import Mathlib.Algebra.Order.BigOperators.Group.List
import Mathlib.Algebra.Order.Field.Basic
import Mathlib.Logic.Relation
import Mathlib.Tactic.Linarith
import Mathlib.Tactic.Ring

/-! A reservoir that fills at a steady rate up to its capacity, grants what it is asked for when
it holds that much, and may be filled up at once by something outside. What is left in it bounds
what can still be taken. -/
namespace NotifyRelay.Reservoir

variable {K : Type*} [Field K] [LinearOrder K] [IsStrictOrderedRing K]

structure Tank (K : Type*) [Field K] [LinearOrder K] where
  capacity : K
  rate : K
  capacity_nonneg : 0 ≤ capacity
  rate_nonneg : 0 ≤ rate

/-- A demand, and what the reservoir held when it came. -/
structure Demand (K : Type*) where
  time : K
  amount : K
  found : K

def Demand.Granted (demand : Demand K) : Prop := demand.amount ≤ demand.found

instance : DecidablePred (Demand.Granted (K := K)) :=
  fun demand => inferInstanceAs (Decidable (demand.amount ≤ demand.found))

def Demand.taken (demand : Demand K) : K := if demand.Granted then demand.amount else 0

def Demand.left (demand : Demand K) : K := demand.found - demand.taken

/-- The lists are newest first. -/
structure State (K : Type*) where
  level : K
  clock : K
  demands : List (Demand K)
  refills : List K

def Tank.full (tank : Tank K) (clock : K) : State K := ⟨tank.capacity, clock, [], []⟩

inductive Tank.Step (tank : Tank K) (s : State K) : State K → Prop
  | wait (span : K) (hspan : 0 ≤ span) :
      tank.Step s
        { s with
          level := min tank.capacity (s.level + tank.rate * span)
          clock := s.clock + span }
  | ask (amount : K) (hamount : 0 ≤ amount) :
      tank.Step s
        { s with
          level := (Demand.mk s.clock amount s.level).left
          demands := ⟨s.clock, amount, s.level⟩ :: s.demands }
  | refill : tank.Step s { s with level := tank.capacity, refills := s.clock :: s.refills }

def Tank.Run (tank : Tank K) (clock : K) : State K → Prop :=
  Relation.ReflTransGen tank.Step (tank.full clock)

/-- What is taken at the times that satisfy `p`. -/
def State.takenIn (s : State K) (p : K → Prop) [DecidablePred p] : K :=
  (s.demands.map fun demand => if p demand.time then demand.taken else 0).sum

def State.refillsIn (s : State K) (p : K → Prop) [DecidablePred p] : ℕ :=
  s.refills.countP (p ·)

variable {tank : Tank K} {clock : K} {s t : State K}

omit [IsStrictOrderedRing K] in
theorem Demand.taken_nonneg {demand : Demand K} (h : 0 ≤ demand.amount) : 0 ≤ demand.taken := by
  unfold Demand.taken
  split
  next => exact h
  next => exact le_rfl

omit [IsStrictOrderedRing K] in
theorem Demand.left_of_not_granted {demand : Demand K} (h : ¬demand.Granted) :
    demand.left = demand.found := by
  rw [Demand.left, Demand.taken, if_neg h, sub_zero]

theorem Demand.left_nonneg {demand : Demand K} (h : 0 ≤ demand.found) : 0 ≤ demand.left := by
  unfold Demand.left Demand.taken
  split
  next hgranted => exact sub_nonneg.mpr hgranted
  next => rwa [sub_zero]

/-- What holds of every state of a run. -/
structure Sound (tank : Tank K) (s : State K) : Prop where
  level_nonneg : 0 ≤ s.level
  level_le : s.level ≤ tank.capacity
  demand_le : ∀ demand ∈ s.demands, demand.time ≤ s.clock
  refill_le : ∀ time ∈ s.refills, time ≤ s.clock

theorem Sound.step (h : Sound tank s) (hstep : tank.Step s t) : Sound tank t := by
  cases hstep with
  | wait span hspan =>
      have hflow : 0 ≤ tank.rate * span := mul_nonneg tank.rate_nonneg hspan
      have hlater : s.clock ≤ s.clock + span := le_add_of_nonneg_right hspan
      constructor
      case level_nonneg => exact le_min tank.capacity_nonneg (add_nonneg h.level_nonneg hflow)
      case level_le => exact min_le_left _ _
      case demand_le => exact fun demand hmem => (h.demand_le demand hmem).trans hlater
      case refill_le => exact fun time hmem => (h.refill_le time hmem).trans hlater
  | ask amount hamount =>
      constructor
      case level_nonneg => exact Demand.left_nonneg h.level_nonneg
      case level_le => exact (sub_le_self _ (Demand.taken_nonneg hamount)).trans h.level_le
      case demand_le => exact List.forall_mem_cons.mpr ⟨le_rfl, h.demand_le⟩
      case refill_le => exact h.refill_le
  | refill =>
      constructor
      case level_nonneg => exact tank.capacity_nonneg
      case level_le => exact le_rfl
      case demand_le => exact h.demand_le
      case refill_le => exact List.forall_mem_cons.mpr ⟨le_rfl, h.refill_le⟩

theorem Tank.Run.sound (h : tank.Run clock s) : Sound tank s := by
  induction h with
  | refl =>
      exact ⟨tank.capacity_nonneg, le_rfl, fun _ hmem => absurd hmem List.not_mem_nil,
        fun _ hmem => absurd hmem List.not_mem_nil⟩
  | tail _ hlast ih => exact ih.step hlast

/-- A run keeps what every step from a sound state keeps. -/
theorem Tank.Run.invariant (h : tank.Run clock s) (inv : State K → Prop)
    (hfull : inv (tank.full clock))
    (hstep : ∀ s t, Sound tank s → inv s → tank.Step s t → inv t) : inv s := by
  induction h with
  | refl => exact hfull
  | tail hinit hlast ih => exact hstep _ _ (Tank.Run.sound hinit) ih hlast

section Windows

variable {p q : K → Prop} [DecidablePred p] [DecidablePred q]

omit [IsStrictOrderedRing K] in
theorem State.takenIn_congr (h : ∀ demand ∈ s.demands, p demand.time ↔ q demand.time) :
    s.takenIn p = s.takenIn q :=
  congrArg List.sum (List.map_congr_left fun demand hmem => if_congr (h demand hmem) rfl rfl)

omit [Field K] [LinearOrder K] [IsStrictOrderedRing K] in
theorem State.refillsIn_congr (h : ∀ time ∈ s.refills, p time ↔ q time) :
    s.refillsIn p = s.refillsIn q :=
  List.countP_congr fun time hmem => by simpa using h time hmem

omit [IsStrictOrderedRing K] in
theorem State.takenIn_eq_zero (h : ∀ demand ∈ s.demands, ¬p demand.time) : s.takenIn p = 0 := by
  refine List.sum_eq_zero fun amount hmem => ?_
  obtain ⟨demand, hdemand, rfl⟩ := List.mem_map.mp hmem
  exact if_neg (h demand hdemand)

/-- From `u` on, what was taken and what is still there came in since. -/
theorem Tank.Run.taken_add_level_le (h : tank.Run clock s) (u : K) (hu : u ≤ s.clock) :
    s.takenIn (u ≤ ·) + s.level ≤
      tank.capacity * (1 + s.refillsIn (u ≤ ·)) + tank.rate * (s.clock - u) := by
  refine h.invariant (fun s => u ≤ s.clock → s.takenIn (u ≤ ·) + s.level ≤
    tank.capacity * (1 + s.refillsIn (u ≤ ·)) + tank.rate * (s.clock - u)) ?_ ?_ hu
  · intro hu
    have hflow : 0 ≤ tank.rate * (clock - u) := mul_nonneg tank.rate_nonneg (sub_nonneg.mpr hu)
    simpa [State.takenIn, State.refillsIn, Tank.full] using hflow
  · intro s t hsound ih hstep hu
    cases hstep with
    | wait span hspan =>
        change s.takenIn (u ≤ ·) + min tank.capacity (s.level + tank.rate * span) ≤
          tank.capacity * (1 + s.refillsIn (u ≤ ·)) + tank.rate * (s.clock + span - u)
        dsimp only at hu
        by_cases hbefore : u ≤ s.clock
        · have hle := min_le_right tank.capacity (s.level + tank.rate * span)
          linarith [ih hbefore]
        · -- the window opens while the clock moves
          have hnone : s.takenIn (u ≤ ·) = 0 := State.takenIn_eq_zero fun demand hmem hle =>
            hbefore (hle.trans (hsound.demand_le demand hmem))
          have hle := min_le_left tank.capacity (s.level + tank.rate * span)
          have hrefills : 0 ≤ tank.capacity * (s.refillsIn (u ≤ ·) : K) :=
            mul_nonneg tank.capacity_nonneg (Nat.cast_nonneg _)
          have hflow : 0 ≤ tank.rate * (s.clock + span - u) :=
            mul_nonneg tank.rate_nonneg (sub_nonneg.mpr hu)
          linarith
    | ask amount _ =>
        have hnew : (State.takenIn
            { s with
              level := (Demand.mk s.clock amount s.level).left
              demands := ⟨s.clock, amount, s.level⟩ :: s.demands } (u ≤ ·)) =
            (Demand.mk s.clock amount s.level).taken + s.takenIn (u ≤ ·) := by
          rw [State.takenIn, List.map_cons, List.sum_cons, if_pos hu]
          rfl
        rw [hnew]
        have hbound := ih hu
        change _ + s.takenIn (u ≤ ·) + (s.level - _) ≤
          tank.capacity * (1 + s.refillsIn (u ≤ ·)) + tank.rate * (s.clock - u)
        linarith
    | refill =>
        have hnew : (State.refillsIn
            { s with level := tank.capacity, refills := s.clock :: s.refills } (u ≤ ·)) =
            s.refillsIn (u ≤ ·) + 1 :=
          List.countP_cons_of_pos (decide_eq_true hu)
        rw [hnew]
        have hbound := ih hu
        change s.takenIn (u ≤ ·) + tank.capacity ≤ _ + tank.rate * (s.clock - u)
        push_cast
        linarith [hsound.level_nonneg]

/-- Any window of length `d` grants no more than the capacity, once more for each refill in it,
and what flows in. -/
theorem Tank.Run.takenIn_le (h : tank.Run clock s) (u : K) {d : K} (hd : 0 ≤ d) :
    s.takenIn (fun time => u ≤ time ∧ time ≤ u + d) ≤
      tank.capacity * (1 + s.refillsIn (fun time => u ≤ time ∧ time ≤ u + d)) +
        tank.rate * d := by
  have hflow : 0 ≤ tank.rate * d := mul_nonneg tank.rate_nonneg hd
  -- while the window is open the level tells; afterwards nothing counts any more
  have hopen : ∀ s, tank.Run clock s → u ≤ s.clock → s.clock ≤ u + d →
      s.takenIn (fun time => u ≤ time ∧ time ≤ u + d) ≤
        tank.capacity * (1 + s.refillsIn (fun time => u ≤ time ∧ time ≤ u + d)) +
          tank.rate * d := by
    intro s hrun hu hclock
    have hsound := hrun.sound
    rw [State.takenIn_congr (q := (u ≤ ·)) fun demand hmem =>
        and_iff_left ((hsound.demand_le demand hmem).trans hclock),
      State.refillsIn_congr (q := (u ≤ ·)) fun time hmem =>
        and_iff_left ((hsound.refill_le time hmem).trans hclock)]
    have hspan : tank.rate * (s.clock - u) ≤ tank.rate * d :=
      mul_le_mul_of_nonneg_left (by linarith) tank.rate_nonneg
    linarith [hrun.taken_add_level_le u hu, hsound.level_nonneg]
  induction h with
  | refl =>
      have hcapacity := tank.capacity_nonneg
      simpa [State.takenIn, State.refillsIn, Tank.full] using add_nonneg hcapacity hflow
  | @tail s t hinit hlast ih =>
      have hrun : tank.Run clock t := hinit.tail hlast
      cases hlast with
      | wait span hspan => exact ih
      | ask amount hamount =>
          by_cases hin : u ≤ s.clock ∧ s.clock ≤ u + d
          · exact hopen _ hrun hin.1 hin.2
          · refine le_of_eq_of_le ?_ ih
            rw [State.takenIn, List.map_cons, List.sum_cons, if_neg hin, zero_add]
            rfl
      | refill =>
          by_cases hin : u ≤ s.clock ∧ s.clock ≤ u + d
          · exact hopen _ hrun hin.1 hin.2
          · refine ih.trans_eq ?_
            rw [State.refillsIn, State.refillsIn, List.countP_cons_of_neg (by simpa using hin)]

end Windows

/-- While nothing is granted the level follows from the last demand: it has risen at the rate
since, and is higher only if the reservoir was filled up. -/
theorem Tank.Run.level_since (h : tank.Run clock s) {later earlier : List (Demand K)}
    {demand : Demand K} (hdemands : s.demands = later ++ demand :: earlier)
    (hnone : ∀ other ∈ later, ¬other.Granted) :
    min tank.capacity (demand.left + tank.rate * (s.clock - demand.time)) ≤ s.level ∧
      ((∀ time ∈ s.refills, time < demand.time) →
        s.level = min tank.capacity (demand.left + tank.rate * (s.clock - demand.time))) := by
  induction h generalizing later with
  | refl => cases later <;> cases hdemands
  | @tail s t hinit hlast ih =>
      have hsound := Tank.Run.sound hinit
      cases hlast with
      | wait span hspan =>
          obtain ⟨hle, heq⟩ := ih hdemands hnone
          have hflow : 0 ≤ tank.rate * span := mul_nonneg tank.rate_nonneg hspan
          have hsplit : min tank.capacity
                (demand.left + tank.rate * (s.clock + span - demand.time)) =
              min tank.capacity (min tank.capacity
                (demand.left + tank.rate * (s.clock - demand.time)) + tank.rate * span) := by
            rw [← min_add_add_right, ← min_assoc, min_eq_left (le_add_of_nonneg_right hflow)]
            congr 1
            ring
          dsimp only
          rw [hsplit]
          refine ⟨min_le_min_left _ (add_le_add_left hle _), fun hrefills => ?_⟩
          rw [heq hrefills]
      | ask amount hamount =>
          cases later with
          | nil =>
              cases hdemands
              have hleft : (Demand.mk s.clock amount s.level).left ≤ tank.capacity :=
                (sub_le_self _ (Demand.taken_nonneg hamount)).trans hsound.level_le
              dsimp only
              rw [sub_self, mul_zero, add_zero, min_eq_right hleft]
              exact ⟨le_rfl, fun _ => rfl⟩
          | cons other rest =>
              obtain ⟨hother, hrest⟩ := List.cons.inj hdemands
              subst hother
              have hkept := Demand.left_of_not_granted (hnone _ List.mem_cons_self)
              dsimp only at hkept ⊢
              rw [hkept]
              exact ih hrest fun other hmem => hnone other (List.mem_cons_of_mem _ hmem)
      | refill =>
          refine ⟨min_le_left _ _, fun hrefills => ?_⟩
          have hmem : demand ∈ s.demands := by
            rw [show s.demands = later ++ demand :: earlier from hdemands]
            simp
          have hlt := hrefills s.clock List.mem_cons_self
          exact absurd (hsound.demand_le demand hmem) (not_le.mpr hlt)

end NotifyRelay.Reservoir
