import Mathlib.Data.List.Basic
import Mathlib.Data.List.Perm.Basic
import Mathlib.Algebra.GroupWithZero.Nat

/-! A pool of processes. A process is named by its position and the pool only
grows, so a name is never used twice and a finished process stays on record. -/
namespace NotifyRelay.Pool

variable {π : Type*}

/-- The name the next process gets. -/
def next (pool : List π) : Nat := pool.length

def spawn (pool : List π) (process : π) : List π := pool ++ [process]

theorem get_spawn (pool : List π) (process : π) (i : Nat) :
    (spawn pool process)[i]? = if i = next pool then some process else pool[i]? := by
  unfold spawn next
  rcases Nat.lt_trichotomy i pool.length with h | h | h
  · rw [List.getElem?_append_left h, if_neg (Nat.ne_of_lt h)]
  · subst h
    simp
  · rw [if_neg (Nat.ne_of_gt h), List.getElem?_eq_none (by simp; omega),
      List.getElem?_eq_none (by omega)]

theorem get_set {pool : List π} {old : π} {i : Nat} (h : pool[i]? = some old) (process : π)
    (j : Nat) : (pool.set i process)[j]? = if j = i then some process else pool[j]? := by
  obtain ⟨hi, _⟩ := List.getElem?_eq_some_iff.mp h
  by_cases hj : j = i
  · subst hj
    simp [hi]
  · rw [if_neg hj, List.getElem?_set_ne (Ne.symm hj)]

theorem get_next_eq_none (pool : List π) : pool[next pool]? = none := by
  simp [next]

theorem ne_next {pool : List π} {process : π} {i : Nat} (h : pool[i]? = some process) :
    i ≠ next pool := by
  rintro rfl
  rw [get_next_eq_none] at h
  contradiction

/-- A process on record stays there. -/
theorem get_spawn_of_some {pool : List π} {old : π} {i : Nat} (h : pool[i]? = some old)
    (process : π) : (spawn pool process)[i]? = some old := by
  rw [get_spawn, if_neg (ne_next h)]
  exact h

theorem get_set_self {pool : List π} {old : π} {i : Nat} (h : pool[i]? = some old)
    (process : π) : (pool.set i process)[i]? = some process :=
  (get_set h process i).trans (if_pos rfl)

theorem get_set_of_ne {pool : List π} {old : π} {i : Nat} (h : pool[i]? = some old)
    (process : π) {j : Nat} (hne : j ≠ i) : (pool.set i process)[j]? = pool[j]? :=
  (get_set h process j).trans (if_neg hne)

section Invariants

variable {pool : List π} {p : π → Prop} {r : π → π → Prop}

/-- What holds of every process holds on when one of them moves. -/
theorem forall_set {old process : π} {i : Nat} (h : pool[i]? = some old) (hself : p process)
    (hothers : ∀ (j : Nat) (other : π), pool[j]? = some other → j ≠ i → p other) :
    ∀ (j : Nat) (other : π), (pool.set i process)[j]? = some other → p other := by
  intro j other hother
  rw [get_set h] at hother
  split at hother
  next =>
    cases hother
    exact hself
  next hne => exact hothers j other hother hne

/-- The same of every two processes. -/
theorem forall_pairs_set (hsymm : ∀ a b, r a b → r b a) {old process : π} {i : Nat}
    (h : pool[i]? = some old)
    (hpairs : ∀ (j k : Nat) (a b : π), pool[j]? = some a → pool[k]? = some b → j ≠ k → r a b)
    (hself : ∀ (j : Nat) (other : π), pool[j]? = some other → j ≠ i → r process other) :
    ∀ (j k : Nat) (a b : π), (pool.set i process)[j]? = some a →
      (pool.set i process)[k]? = some b → j ≠ k → r a b := by
  intro j k a b ha hb hne
  rw [get_set h] at ha hb
  split at ha
  next heq =>
    cases ha
    rw [if_neg fun heq' => hne (heq.trans heq'.symm)] at hb
    exact hself k b hb fun heq' => hne (heq.trans heq'.symm)
  next hj =>
    split at hb
    next =>
      cases hb
      exact hsymm _ _ (hself j a ha hj)
    next => exact hpairs j k a b ha hb hne

theorem forall_spawn {process : π} (hself : p process)
    (hothers : ∀ (j : Nat) (other : π), pool[j]? = some other → p other) :
    ∀ (j : Nat) (other : π), (spawn pool process)[j]? = some other → p other := by
  intro j other hother
  rw [get_spawn] at hother
  split at hother
  next =>
    cases hother
    exact hself
  next => exact hothers j other hother

theorem forall_pairs_spawn (hsymm : ∀ a b, r a b → r b a) {process : π}
    (hpairs : ∀ (j k : Nat) (a b : π), pool[j]? = some a → pool[k]? = some b → j ≠ k → r a b)
    (hself : ∀ (j : Nat) (other : π), pool[j]? = some other → r process other) :
    ∀ (j k : Nat) (a b : π), (spawn pool process)[j]? = some a →
      (spawn pool process)[k]? = some b → j ≠ k → r a b := by
  intro j k a b ha hb hne
  rw [get_spawn] at ha hb
  split at ha
  next heq =>
    cases ha
    rw [if_neg fun heq' => hne (heq.trans heq'.symm)] at hb
    exact hself k b hb
  next =>
    split at hb
    next =>
      cases hb
      exact hsymm _ _ (hself j a ha)
    next => exact hpairs j k a b ha hb hne

variable {q : Nat → π → Prop}

/-- What holds of every process under its name. -/
theorem forall_get_set {old process : π} {i : Nat} (h : pool[i]? = some old) (hself : q i process)
    (hothers : ∀ (j : Nat) (other : π), pool[j]? = some other → j ≠ i → q j other) :
    ∀ (j : Nat) (other : π), (pool.set i process)[j]? = some other → q j other := by
  intro j other hother
  rw [get_set h] at hother
  split at hother
  next heq =>
    cases hother
    exact heq ▸ hself
  next hne => exact hothers j other hother hne

theorem forall_get_spawn {process : π} (hself : q (next pool) process)
    (hothers : ∀ (j : Nat) (other : π), pool[j]? = some other → q j other) :
    ∀ (j : Nat) (other : π), (spawn pool process)[j]? = some other → q j other := by
  intro j other hother
  rw [get_spawn] at hother
  split at hother
  next heq =>
    cases hother
    exact heq ▸ hself
  next => exact hothers j other hother

end Invariants

variable {β : Type*}

/-- What the processes have to show, when one of them moves. -/
theorem filterMap_set_perm (f : π → Option β) {pool : List π} {old : π} {i : Nat}
    (h : pool[i]? = some old) (hold : f old = none) (process : π) :
    ((pool.set i process).filterMap f).Perm ((f process).toList ++ pool.filterMap f) := by
  induction pool generalizing i with
  | nil => simp at h
  | cons first rest ih =>
      cases i with
      | zero =>
          cases h
          rw [List.set_cons_zero, List.filterMap_cons_none hold]
          cases hf : f process with
          | none => rw [List.filterMap_cons_none hf]; simp
          | some shown => rw [List.filterMap_cons_some hf]; simp
      | succ i =>
          have hrest := ih h
          rw [List.set_cons_succ]
          cases hf : f first with
          | none =>
              rw [List.filterMap_cons_none hf, List.filterMap_cons_none hf]
              exact hrest
          | some shown =>
              rw [List.filterMap_cons_some hf, List.filterMap_cons_some hf]
              exact (hrest.cons shown).trans List.perm_middle.symm

/-- What the processes still have to do, when one of them moves. -/
theorem sum_map_set (f : π → Nat) {pool : List π} {old : π} {i : Nat}
    (h : pool[i]? = some old) (process : π) :
    ((pool.set i process).map f).sum + f old = (pool.map f).sum + f process := by
  induction pool generalizing i with
  | nil => simp at h
  | cons first rest ih =>
      cases i with
      | zero =>
          cases h
          simp only [List.set_cons_zero, List.map_cons, List.sum_cons]
          omega
      | succ i =>
          have hrest := ih h
          simp only [List.set_cons_succ, List.map_cons, List.sum_cons]
          omega

/-- A part of the processes that the move leaves as it is. -/
theorem map_set_eq {γ : Type*} (f : π → γ) {pool : List π} {old : π} {i : Nat}
    (h : pool[i]? = some old) {process : π} (hsame : f process = f old) :
    (pool.set i process).map f = pool.map f := by
  obtain ⟨hi, rfl⟩ := List.getElem?_eq_some_iff.mp h
  have hi' : i < (pool.map f).length := by rwa [List.length_map]
  rw [List.map_set, hsame, ← List.getElem_map f (h := hi'), List.set_getElem_self]

theorem filterMap_spawn (f : π → Option β) (pool : List π) (process : π) :
    (spawn pool process).filterMap f = pool.filterMap f ++ (f process).toList := by
  rw [spawn, List.filterMap_append]
  cases h : f process <;> simp [h]

end NotifyRelay.Pool
