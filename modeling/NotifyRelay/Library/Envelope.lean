import Mathlib.Algebra.BigOperators.Intervals
import Mathlib.Algebra.Order.BigOperators.Group.Finset
import Mathlib.Algebra.Order.Group.MinMax
import Mathlib.Tactic.Abel
import Mathlib.Tactic.Linarith

/-! A reservoir of bounded size with a steady inflow. `supply n` is the inflow up to the
`n`-th withdrawal and `spent n` what that withdrawal takes. The level is the least of all
the bounds that earlier moments impose, which is what makes a bucket of two numbers
admit exactly the streams under its envelope. -/
namespace NotifyRelay.Envelope

open Finset

variable {K : Type*} [AddCommGroup K] [LinearOrder K] [IsOrderedAddMonoid K]

/-- The level before the `n`-th withdrawal. What overflows is lost. -/
def level (burst : K) (supply spent : ℕ → K) : ℕ → K
  | 0 => burst
  | n + 1 => min burst (level burst supply spent n - spent n + (supply (n + 1) - supply n))

/-- The envelope of the moment `j`, as it is seen by a withdrawal of `x` at `n`. -/
def Within (burst : K) (supply spent : ℕ → K) (x : K) (j n : ℕ) : Prop :=
  x + ∑ k ∈ Ico j n, spent k ≤ burst + (supply n - supply j)

variable {burst : K} {supply spent : ℕ → K}

omit [IsOrderedAddMonoid K] in
theorem level_le_burst (n : ℕ) : level burst supply spent n ≤ burst := by
  cases n with
  | zero => exact le_refl _
  | succ n => exact min_le_left _ _

omit [IsOrderedAddMonoid K] in
theorem within_self {x : K} {n : ℕ} : Within burst supply spent x n n ↔ x ≤ burst := by
  simp [Within]

theorem within_succ {x : K} {j n : ℕ} (hj : j ≤ n) :
    Within burst supply spent x j (n + 1) ↔
      Within burst supply spent (x + spent n - (supply (n + 1) - supply n)) j n := by
  unfold Within
  rw [sum_Ico_succ_top hj, ← sub_nonneg, ← sub_nonneg (b := _ + ∑ k ∈ Ico j n, spent k)]
  refine iff_of_eq (congrArg (0 ≤ ·) ?_)
  abel

/-- A withdrawal is covered by the level if and only if it is within the envelope of
every moment so far. -/
theorem le_level_iff {x : K} {n : ℕ} :
    x ≤ level burst supply spent n ↔ ∀ j ≤ n, Within burst supply spent x j n := by
  induction n generalizing x with
  | zero =>
      simp only [level, Nat.le_zero, forall_eq]
      exact within_self.symm
  | succ n ih =>
      have hshift : x ≤ level burst supply spent n - spent n + (supply (n + 1) - supply n) ↔
          x + spent n - (supply (n + 1) - supply n) ≤ level burst supply spent n := by
        rw [← sub_nonneg, ← sub_nonneg (b := x + spent n - _)]
        refine iff_of_eq (congrArg (0 ≤ ·) ?_)
        abel
      rw [level, le_min_iff, hshift, ih]
      constructor
      · rintro ⟨hburst, hbefore⟩ j hj
        rcases Nat.le_succ_iff.mp hj with hle | rfl
        · exact (within_succ hle).mpr (hbefore j hle)
        · exact within_self.mpr hburst
      · intro h
        exact ⟨within_self.mp (h (n + 1) le_rfl), fun j hj =>
          (within_succ hj).mp (h j (Nat.le_succ_of_le hj))⟩

/-- If the level covers every withdrawal, what is taken from `j` to `n` fits the envelope. -/
theorem sum_le_of_covered (hcovered : ∀ n, spent n ≤ level burst supply spent n) {j n : ℕ}
    (hj : j ≤ n) : ∑ k ∈ Ico j (n + 1), spent k ≤ burst + (supply n - supply j) := by
  have hwithin := le_level_iff.mp (hcovered n) j hj
  rwa [sum_Ico_succ_top hj, add_comm]

/-- Every request the level covers is granted in full, and the others take nothing. -/
structure Greedy (burst : K) (supply spent request : ℕ → K) (granted : ℕ → Prop) : Prop where
  grants : ∀ n, granted n ↔ request n ≤ level burst supply spent n
  spends : ∀ n, granted n → spent n = request n
  keeps : ∀ n, ¬granted n → spent n = 0

variable {request : ℕ → K} {granted : ℕ → Prop}

theorem Greedy.level_nonneg (h : Greedy burst supply spent request granted) (hburst : 0 ≤ burst)
    (hsupply : Monotone supply) (n : ℕ) : 0 ≤ level burst supply spent n := by
  induction n with
  | zero => exact hburst
  | succ n ih =>
      refine le_min hburst (add_nonneg ?_ (sub_nonneg.mpr (hsupply (Nat.le_succ n))))
      rw [sub_nonneg]
      by_cases hn : granted n
      · rw [h.spends n hn]
        exact (h.grants n).mp hn
      · rw [h.keeps n hn]
        exact ih

theorem Greedy.covered (h : Greedy burst supply spent request granted) (hburst : 0 ≤ burst)
    (hsupply : Monotone supply) (n : ℕ) : spent n ≤ level burst supply spent n := by
  by_cases hn : granted n
  · rw [h.spends n hn]
    exact (h.grants n).mp hn
  · rw [h.keeps n hn]
    exact h.level_nonneg hburst hsupply n

/-- Requests that keep to the envelope are granted, whatever else was refused. -/
theorem Greedy.granted_of_within (h : Greedy burst supply spent request granted)
    (hrequest : ∀ n, 0 ≤ request n) {n : ℕ}
    (hwithin : ∀ j ≤ n, ∑ k ∈ Ico j (n + 1), request k ≤ burst + (supply n - supply j)) :
    granted n := by
  refine (h.grants n).mpr (le_level_iff.mpr fun j hj => ?_)
  have hle : ∀ k, spent k ≤ request k := by
    intro k
    by_cases hk : granted k
    · rw [h.spends k hk]
    · rw [h.keeps k hk]
      exact hrequest k
  calc request n + ∑ k ∈ Ico j n, spent k ≤ request n + ∑ k ∈ Ico j n, request k :=
        add_le_add_right (sum_le_sum fun k _ => hle k) _
    _ = ∑ k ∈ Ico j (n + 1), request k := by rw [sum_Ico_succ_top hj, add_comm]
    _ ≤ burst + (supply n - supply j) := hwithin j hj

end NotifyRelay.Envelope
