import Mathlib.Data.List.Pairwise
import Mathlib.Logic.Basic

/-! Tables of a relational store: rows with a primary key and one partial unique
index. `index r = none` leaves `r` out of the index, as a NULL column or a false
index condition does. A table whose constraints are violated cannot be built. -/
namespace NotifyRelay

variable {ρ κ ι : Type*}

/-- Two rows one table may hold together. -/
def Compatible (key : ρ → κ) (index : ρ → Option ι) (a b : ρ) : Prop :=
  key a ≠ key b ∧ (index a = none ∨ index a ≠ index b)

instance [DecidableEq κ] [DecidableEq ι] (key : ρ → κ) (index : ρ → Option ι) (a b : ρ) :
    Decidable (Compatible key index a b) :=
  inferInstanceAs (Decidable (_ ∧ _))

@[ext] structure Table (key : ρ → κ) (index : ρ → Option ι) where
  rows : List ρ
  compatible : rows.Pairwise (Compatible key index)

variable {key : ρ → κ} {index : ρ → Option ι}

theorem Compatible.symm {key : ρ → κ} {index : ρ → Option ι} {a b : ρ}
    (h : Compatible key index a b) : Compatible key index b a := by
  refine ⟨Ne.symm h.1, ?_⟩
  by_cases hb : index b = none
  · exact .inl hb
  · refine .inr fun heq => ?_
    rcases h.2 with ha | hne
    · exact hb (heq.trans ha)
    · exact hne heq.symm

/-- What becomes of an INSERT next to rows that other transactions have not committed. -/
inductive Reservation where
  | granted
  | waits
  | violates
  deriving DecidableEq, Repr

namespace Table

def empty : Table key index := ⟨[], .nil⟩

/-- The row with this primary key. -/
def find? [DecidableEq κ] (t : Table key index) (k : κ) : Option ρ :=
  t.rows.find? fun r => decide (key r = k)

/-- INSERT; `none` is a violated constraint. -/
def insert? [DecidableEq κ] [DecidableEq ι] (t : Table key index) (r : ρ) :
    Option (Table key index) :=
  if h : ∀ a ∈ t.rows, Compatible key index a r then
    some ⟨t.rows ++ [r], List.pairwise_append.mpr
      ⟨t.compatible, List.pairwise_singleton _ _, fun a ha b hb => by
        cases List.mem_singleton.mp hb
        exact h a ha⟩⟩
  else none

/-- An update that touches neither the primary key nor, unless it takes the row
out of the index, the indexed columns. -/
structure Update (key : ρ → κ) (index : ρ → Option ι) where
  apply : ρ → ρ
  key_apply : ∀ r, key (apply r) = key r
  index_apply : ∀ r, index (apply r) = index r ∨ index (apply r) = none

/-- UPDATE of the rows `p` selects. -/
def update (t : Table key index) (p : ρ → Bool) (u : Update key index) : Table key index where
  rows := t.rows.map fun r => if p r then u.apply r else r
  compatible := by
    refine t.compatible.map _ fun a b hab => ?_
    have hkey : ∀ r, key (if p r then u.apply r else r) = key r := by
      intro r
      split
      · exact u.key_apply r
      · rfl
    have hindex : ∀ r, index (if p r then u.apply r else r) = index r ∨
        index (if p r then u.apply r else r) = none := by
      intro r
      split
      · exact u.index_apply r
      · exact .inl rfl
    refine ⟨by rw [hkey, hkey]; exact hab.1, ?_⟩
    rcases hindex a with ha | ha
    · rcases hindex b with hb | hb
      · rw [ha, hb]
        exact hab.2
      · rw [hb]
        exact or_iff_not_imp_left.mpr id
    · exact .inl ha

/-- DELETE of the rows `p` selects. -/
def delete (t : Table key index) (p : ρ → Bool) : Table key index where
  rows := t.rows.filter fun r => !p r
  compatible := t.compatible.filter _

/-- An INSERT waits for the transaction whose row is in its way. -/
def reserve [DecidableEq κ] [DecidableEq ι] (t : Table key index) (pending : List ρ) (r : ρ) :
    Reservation :=
  if ∀ p ∈ pending, Compatible key index p r then
    if ∀ a ∈ t.rows, Compatible key index a r then .granted else .violates
  else .waits

variable (t : Table key index)

theorem reserve_granted [DecidableEq κ] [DecidableEq ι] {pending : List ρ} {r : ρ} :
    t.reserve pending r = .granted ↔
      (∀ p ∈ pending, Compatible key index p r) ∧ ∀ a ∈ t.rows, Compatible key index a r := by
  unfold reserve
  split
  next hpending =>
    split
    next hrows => exact iff_of_true rfl ⟨hpending, hrows⟩
    next hrows => exact iff_of_false (by simp) fun h => hrows h.2
  next hpending => exact iff_of_false (by simp) fun h => hpending h.1

theorem not_compatible_of_violates [DecidableEq κ] [DecidableEq ι] {pending : List ρ} {r : ρ}
    (h : t.reserve pending r = .violates) : ¬∀ a ∈ t.rows, Compatible key index a r := by
  unfold reserve at h
  split at h
  next =>
    split at h
    next => contradiction
    next hrows => exact hrows
  next => contradiction

theorem eq_or_compatible {a b : ρ} (ha : a ∈ t.rows) (hb : b ∈ t.rows) :
    a = b ∨ Compatible key index a b ∨ Compatible key index b a := by
  obtain ⟨i, hi, rfl⟩ := List.mem_iff_getElem.mp ha
  obtain ⟨j, hj, rfl⟩ := List.mem_iff_getElem.mp hb
  rcases Nat.lt_trichotomy i j with h | h | h
  · exact .inr (.inl (List.pairwise_iff_getElem.mp t.compatible i j hi hj h))
  · subst h
    exact .inl rfl
  · exact .inr (.inr (List.pairwise_iff_getElem.mp t.compatible j i hj hi h))

theorem eq_of_key {a b : ρ} (ha : a ∈ t.rows) (hb : b ∈ t.rows) (h : key a = key b) : a = b := by
  rcases t.eq_or_compatible ha hb with heq | hab | hba
  · exact heq
  · exact absurd h hab.1
  · exact absurd h.symm hba.1

theorem not_compatible_of_index {a b : ρ} {i : ι} (ha : index a = some i)
    (hb : index b = some i) : ¬Compatible key index a b := by
  rintro ⟨_, hnone | hne⟩
  · rw [ha] at hnone
    contradiction
  · exact hne (ha.trans hb.symm)

theorem eq_of_index {a b : ρ} {i : ι} (ha : a ∈ t.rows) (hb : b ∈ t.rows)
    (hai : index a = some i) (hbi : index b = some i) : a = b := by
  rcases t.eq_or_compatible ha hb with heq | hab | hba
  · exact heq
  · exact absurd hab (not_compatible_of_index hai hbi)
  · exact absurd hba (not_compatible_of_index hbi hai)

theorem mem_update {p : ρ → Bool} {u : Update key index} {r : ρ} :
    r ∈ (t.update p u).rows ↔ ∃ old ∈ t.rows, (if p old then u.apply old else old) = r :=
  List.mem_map

/-- A row that fits still fits after an update of the others. -/
theorem compatible_update {p : ρ → Bool} {u : Update key index} {r : ρ}
    (h : ∀ a ∈ t.rows, Compatible key index a r) :
    ∀ a ∈ (t.update p u).rows, Compatible key index a r := by
  intro a ha
  obtain ⟨old, hold, rfl⟩ := t.mem_update.mp ha
  have hfits := h old hold
  split
  next =>
    refine ⟨by rw [u.key_apply]; exact hfits.1, ?_⟩
    rcases u.index_apply old with hsame | hout
    · rw [hsame]
      exact hfits.2
    · exact .inl hout
  next => exact hfits

theorem mem_delete {p : ρ → Bool} {r : ρ} :
    r ∈ (t.delete p).rows ↔ r ∈ t.rows ∧ p r = false := by
  simp [delete]

theorem delete_delete (p q : ρ → Bool) : (t.delete p).delete q = t.delete fun r => p r || q r := by
  apply Table.ext
  simp only [delete, List.filter_filter, Bool.not_or, Bool.and_comm]

section Keyed

variable [DecidableEq κ]

theorem find?_eq_some {k : κ} {r : ρ} : t.find? k = some r ↔ r ∈ t.rows ∧ key r = k := by
  constructor
  · intro h
    exact ⟨List.mem_of_find?_eq_some h, by simpa using List.find?_some h⟩
  · rintro ⟨hr, rfl⟩
    obtain ⟨found, hfound⟩ : ∃ found, t.find? (key r) = some found :=
      Option.isSome_iff_exists.mp (List.find?_isSome.mpr ⟨r, hr, by simp⟩)
    have hkey : key found = key r := by simpa using List.find?_some hfound
    rw [hfound, t.eq_of_key (List.mem_of_find?_eq_some hfound) hr hkey]

theorem find?_eq_none {k : κ} : t.find? k = none ↔ ∀ r ∈ t.rows, key r ≠ k := by
  simp [find?]

variable [DecidableEq ι]

theorem insert?_eq_some {r : ρ} {t' : Table key index} :
    t.insert? r = some t' ↔
      (∀ a ∈ t.rows, Compatible key index a r) ∧ t'.rows = t.rows ++ [r] := by
  unfold insert?
  split
  next h =>
    rw [Option.some.injEq, Table.ext_iff]
    exact ⟨fun heq => ⟨h, heq.symm⟩, fun heq => heq.2.symm⟩
  next h => simp [h]

theorem exists_insert {r : ρ} (h : ∀ a ∈ t.rows, Compatible key index a r) :
    ∃ t', t.insert? r = some t' := by
  unfold insert?
  rw [dif_pos h]
  exact ⟨_, rfl⟩

theorem mem_insert {r : ρ} {t' : Table key index} (h : t.insert? r = some t') {a : ρ} :
    a ∈ t'.rows ↔ a ∈ t.rows ∨ a = r := by
  rw [((t.insert?_eq_some).mp h).2]
  simp

/-- A violated constraint names the row that is in the way. -/
theorem insert?_eq_none {r : ρ} (h : t.insert? r = none) :
    ∃ a ∈ t.rows, key a = key r ∨ ∃ i, index a = some i ∧ index r = some i := by
  unfold insert? at h
  split at h
  next => contradiction
  next hclash =>
    simp only [not_forall] at hclash
    obtain ⟨a, ha, hnot⟩ := hclash
    refine ⟨a, ha, ?_⟩
    by_cases hkey : key a = key r
    · exact .inl hkey
    · have hindex : ¬(index a = none ∨ index a ≠ index r) := fun hor => hnot ⟨hkey, hor⟩
      simp only [not_or, ne_eq, not_not] at hindex
      obtain ⟨i, hi⟩ := Option.ne_none_iff_exists'.mp hindex.1
      exact .inr ⟨i, hi, hindex.2 ▸ hi⟩

end Keyed

end Table
end NotifyRelay
