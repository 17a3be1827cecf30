import Mathlib.Logic.Relation

/-! Runs of labelled transition systems. Every choice the environment makes is
part of the action. A side condition on the steps (`allowed`) is kept apart from
the steps themselves: the same system is then studied under different
assumptions. -/
namespace NotifyRelay.Transition

variable {σ τ α : Type*} {step : σ → α → σ → Prop} {allowed : σ → α → Prop}

/-- One allowed step. -/
def Next (step : σ → α → σ → Prop) (allowed : σ → α → Prop) (s t : σ) : Prop :=
  ∃ a, allowed s a ∧ step s a t

/-- Zero or more allowed steps. -/
abbrev Reaches (step : σ → α → σ → Prop) (allowed : σ → α → Prop) : σ → σ → Prop :=
  Relation.ReflTransGen (Next step allowed)

/-- The steps of a partial function. -/
def graph (f : σ → α → Option σ) (s : σ) (a : α) (t : σ) : Prop := f s a = some t

/-- The side condition that rules nothing out. -/
def anyStep (_ : σ) (_ : α) : Prop := True

instance (s : σ) (a : α) : Decidable (anyStep s a) := .isTrue trivial

/-- Take the actions one after the other; `none` once one of them is not allowed
or not enabled. Concrete runs are checked by evaluating it. -/
def runAll (f : σ → α → Option σ) (allowed : σ → α → Prop)
    [∀ s a, Decidable (allowed s a)] : σ → List α → Option σ
  | s, [] => some s
  | s, a :: rest => if allowed s a then (f s a).bind fun t => runAll f allowed t rest else none

theorem Reaches.weaken {strict : σ → α → Prop} (himp : ∀ s a, strict s a → allowed s a)
    {s t : σ} (h : Reaches step strict s t) : Reaches step allowed s t :=
  Relation.ReflTransGen.mono (fun s _ ⟨a, ha, hstep⟩ => ⟨a, himp s a ha, hstep⟩) _ _ h

theorem Reaches.any {s t : σ} (h : Reaches step allowed s t) : Reaches step anyStep s t :=
  h.weaken fun _ _ _ => trivial

/-- A predicate that every allowed step preserves holds along a run. -/
theorem Reaches.invariant {s t : σ} (h : Reaches step allowed s t) (inv : σ → Prop)
    (hs : inv s) (hstep : ∀ s a t, inv s → allowed s a → step s a t → inv t) : inv t := by
  induction h with
  | refl => exact hs
  | tail _ hlast ih =>
      obtain ⟨a, ha, hnext⟩ := hlast
      exact hstep _ a _ ih ha hnext

/-- The same next to an invariant that is already known to be inductive. -/
theorem Reaches.invariant_of {s t : σ} (h : Reaches step allowed s t)
    (known inv : σ → Prop) (hs : known s)
    (hknown : ∀ s a t, known s → allowed s a → step s a t → known t)
    (hs' : inv s)
    (hstep : ∀ s a t, known s → inv s → allowed s a → step s a t → inv t) : inv t :=
  (h.invariant (fun u => known u ∧ inv u) ⟨hs, hs'⟩ fun s a t hinv ha hnext =>
    ⟨hknown s a t hinv.1 ha hnext, hstep s a t hinv.1 hinv.2 ha hnext⟩).2

/-- A run with the actions it took. -/
inductive Path (step : σ → α → σ → Prop) : σ → List α → σ → Prop where
  | nil (s : σ) : Path step s [] s
  | cons {s t u : σ} {a : α} {actions : List α} (hstep : step s a t)
      (hrest : Path step t actions u) : Path step s (a :: actions) u

theorem Path.concat {s t u : σ} {actions : List α} {a : α} (h : Path step s actions t)
    (hlast : step t a u) : Path step s (actions ++ [a]) u := by
  induction h with
  | nil s => exact .cons hlast (.nil u)
  | cons hfirst _ ih => exact .cons hfirst (ih hlast)

/-- Where each counted action costs one of a rank that no step raises, the rank bounds how
often it happens. -/
theorem Path.countP_le {s t : σ} {actions : List α} (h : Path step s actions t)
    (counted : α → Bool) (rank : σ → Nat) (inv : σ → Prop) (hs : inv s)
    (hstep : ∀ s a t, inv s → step s a t →
      inv t ∧ (if counted a then 1 else 0) + rank t ≤ rank s) :
    actions.countP counted + rank t ≤ rank s := by
  induction h with
  | nil => simp
  | @cons s t u a actions hfirst _ ih =>
      obtain ⟨ht, hrank⟩ := hstep s a t hs hfirst
      have hrest := ih ht
      rw [List.countP_cons]
      omega

/-- A forward simulation, with steps of the concrete system that the abstract one
does not see, carries runs over. `inv` is an invariant of the concrete system. -/
theorem Reaches.simulates {absStep : τ → α → τ → Prop} {absAllowed : τ → α → Prop}
    (view : σ → τ) (inv : σ → Prop)
    (hinv : ∀ s a t, inv s → allowed s a → step s a t → inv t)
    (hsim : ∀ s a t, inv s → allowed s a → step s a t →
      view s = view t ∨ absAllowed (view s) a ∧ absStep (view s) a (view t))
    {s t : σ} (hs : inv s) (h : Reaches step allowed s t) :
    Reaches absStep absAllowed (view s) (view t) := by
  suffices inv t ∧ Reaches absStep absAllowed (view s) (view t) from this.2
  induction h with
  | refl => exact ⟨hs, .refl⟩
  | tail _ hlast ih =>
      obtain ⟨a, ha, hnext⟩ := hlast
      refine ⟨hinv _ a _ ih.1 ha hnext, ?_⟩
      rcases hsim _ a _ ih.1 ha hnext with heq | ⟨hallowed, habs⟩
      · rw [← heq]
        exact ih.2
      · exact ih.2.tail ⟨a, hallowed, habs⟩

theorem reaches_of_runAll {f : σ → α → Option σ} [∀ s a, Decidable (allowed s a)] {s t : σ}
    (actions : List α) (h : runAll f allowed s actions = some t) :
    Reaches (graph f) allowed s t := by
  induction actions generalizing s with
  | nil =>
      cases h
      exact .refl
  | cons a rest ih =>
      unfold runAll at h
      split at h
      next ha =>
        obtain ⟨u, hu, hrest⟩ := Option.bind_eq_some_iff.mp h
        exact .head ⟨a, ha, hu⟩ (ih hrest)
      next => contradiction

theorem path_of_runAll {f : σ → α → Option σ} [∀ s a, Decidable (allowed s a)] {s t : σ}
    {actions : List α} (h : runAll f allowed s actions = some t) : Path (graph f) s actions t := by
  induction actions generalizing s with
  | nil =>
      cases h
      exact .nil _
  | cons a rest ih =>
      unfold runAll at h
      split at h
      next =>
        obtain ⟨u, hu, hrest⟩ := Option.bind_eq_some_iff.mp h
        exact .cons hu (ih hrest)
      next => contradiction

/-- A concrete run that ends in a state with the property `p`. -/
theorem exists_of_runAll (f : σ → α → Option σ) (allowed : σ → α → Prop)
    [∀ s a, Decidable (allowed s a)] (s : σ) (actions : List α) (p : σ → Prop) [DecidablePred p]
    (h : (runAll f allowed s actions).any (fun t => decide (p t)) = true) :
    ∃ t, Reaches (graph f) allowed s t ∧ p t := by
  obtain ⟨t, ht, hp⟩ := (Option.any_eq_true _ _).mp h
  exact ⟨t, reaches_of_runAll actions ht, of_decide_eq_true hp⟩

/-- A concrete run seen at two moments. -/
theorem exists_pair_of_runAll (f : σ → α → Option σ) (allowed : σ → α → Prop)
    [∀ s a, Decidable (allowed s a)] (s : σ) (actions later : List α) (p : σ → σ → Prop)
    [∀ t u, Decidable (p t u)]
    (h : (runAll f allowed s actions).any (fun t =>
      (runAll f allowed t later).any fun u => decide (p t u)) = true) :
    ∃ t u, Reaches (graph f) allowed s t ∧ Reaches (graph f) allowed t u ∧ p t u := by
  obtain ⟨t, ht, hlater⟩ := (Option.any_eq_true _ _).mp h
  obtain ⟨u, hu, hp⟩ := exists_of_runAll f allowed t later (p t) hlater
  exact ⟨t, u, reaches_of_runAll actions ht, hu, hp⟩

end NotifyRelay.Transition
