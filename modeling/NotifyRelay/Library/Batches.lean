import Mathlib.Algebra.Order.Group.Defs
import Mathlib.Data.List.Nodup
import Mathlib.Data.List.Sort

/-! Batches of a fixed size from the front of an order, and what is taken over several batches
when an item only comes back after some time. -/
namespace NotifyRelay

/-- No item is twice in a batch, and it is in a later one only after more than `hold`. -/
structure Spaced {ι T : Type*} [LT T] [Add T] (batch : ℕ → List ι) (time : ℕ → T) (hold : T) :
    Prop where
  nodup : ∀ n, (batch n).Nodup
  apart : ∀ m n x, m < n → x ∈ batch m → x ∈ batch n → time m + hold < time n

namespace Spaced

variable {ι T : Type*} [LinearOrder T] [AddCommGroup T] [IsOrderedAddMonoid T]
  {batch : ℕ → List ι} {time : ℕ → T} {hold : T}

end Spaced

end NotifyRelay
