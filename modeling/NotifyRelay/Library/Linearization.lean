import NotifyRelay.Library.Transition
import Mathlib.Data.List.Nodup
import Mathlib.Logic.Function.Basic

/-! Operations that run beside each other and are answered one at a time. They are
linearizable when some order of them gives the same answers one after the other. `law` tells
what an operation does alone and how it is answered. -/
namespace NotifyRelay.Linearization

open Transition

variable {σ α κ ω S : Type*} {law : S → ω → S → Prop} {answered answered' : κ → Option ω}
  {start store store' : S} {order : List κ}

/-- An order in which the answered operations could have run alone. -/
structure Linearized (law : S → ω → S → Prop) (answered : κ → Option ω) (start store : S)
    (order : List κ) : Prop where
  nodup : order.Nodup
  mem : ∀ c, c ∈ order ↔ (answered c).isSome = true
  path : Path law start (order.filterMap answered) store

/-- What a step shows of the operations: nothing, or the answer of one that has had none, which
is the answer it gets alone at that moment. -/
inductive Point [DecidableEq κ] (law : S → ω → S → Prop) (answered answered' : κ → Option ω)
    (store store' : S) : Prop where
  | quiet (same : answered' = answered) (kept : store' = store)
  | answer (c : κ) (op : ω) (pending : answered c = none) (alone : law store op store')
      (shown : answered' = Function.update answered c (some op))

theorem linearized_nil (hnone : ∀ c, answered c = none) :
    Linearized law answered start start ([] : List κ) where
  nodup := .nil
  mem c := by simp [hnone c]
  path := .nil start

variable [DecidableEq κ]

/-- The operation that is answered comes last. -/
theorem Linearized.point (h : Linearized law answered start store order)
    (hpoint : Point law answered answered' store store') :
    ∃ later, Linearized law answered' start store' (order ++ later) := by
  cases hpoint with
  | quiet hsame hkept =>
      refine ⟨[], ?_⟩
      rw [List.append_nil, hsame, hkept]
      exact h
  | answer c op hpending halone hshown =>
      have hnew : c ∉ order := fun hmem => by
        have hsome := (h.mem c).mp hmem
        rw [hpending] at hsome
        contradiction
      have hold : ∀ d ∈ order, answered' d = answered d := fun d hd => by
        rw [hshown, Function.update_of_ne (ne_of_mem_of_not_mem hd hnew)]
      refine ⟨[c], ?_⟩
      constructor
      case nodup => exact List.concat_eq_append ▸ h.nodup.concat hnew
      case mem =>
        intro d
        rw [List.mem_append, List.mem_singleton, h.mem, hshown, Function.update_apply]
        split
        next heq => simp [heq]
        next hne => simp [hne]
      case path =>
        rw [List.filterMap_append, List.filterMap_congr hold, hshown]
        simpa using h.path.concat halone

/-- Where every step shows at most one answer, a run extends the order: what was answered before
it comes before what is answered in it. -/
theorem exists_linearized {step : σ → α → σ → Prop} {allowed : σ → α → Prop} {s t : σ}
    (hreach : Reaches step allowed s t) (known : σ → Prop) (hs : known s)
    (hknown : ∀ s a t, known s → allowed s a → step s a t → known t)
    (answered : σ → κ → Option ω) (store : σ → S)
    (hpoint : ∀ s a t, known s → allowed s a → step s a t →
      Point law (answered s) (answered t) (store s) (store t))
    (h : Linearized law (answered s) start (store s) order) :
    ∃ later, Linearized law (answered t) start (store t) (order ++ later) := by
  refine hreach.invariant_of known
    (fun u => ∃ later, Linearized law (answered u) start (store u) (order ++ later)) hs hknown
    ⟨[], by rwa [List.append_nil]⟩ ?_
  rintro u a w hu ⟨later, hlater⟩ hallowed hstep
  obtain ⟨last, hlast⟩ := hlater.point (hpoint u a w hu hallowed hstep)
  exact ⟨later ++ last, by rwa [← List.append_assoc]⟩

end NotifyRelay.Linearization
