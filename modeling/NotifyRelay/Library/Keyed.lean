import Mathlib.Data.List.Forall2
import Mathlib.Data.List.Nodup
import Mathlib.Data.List.Perm.Basic

/-! Association lists in which no key is bound twice: to agree key by key is to agree
entry by entry after a reordering. -/
namespace NotifyRelay.Keyed

variable {κ α β : Type*} {R : α → β → Prop}

/-- Two entries with one key and related values. -/
def Alike (R : α → β → Prop) (p : κ × α) (q : κ × β) : Prop :=
  p.1 = q.1 ∧ R p.2 q.2

/-- Every key of the left list is bound to a related value in the right one. -/
def Covers (R : α → β → Prop) (as : List (κ × α)) (bs : List (κ × β)) : Prop :=
  ∀ k a, (k, a) ∈ as → ∃ b, (k, b) ∈ bs ∧ R a b

theorem covers_of_forall₂ {as : List (κ × α)} {bs : List (κ × β)}
    (h : List.Forall₂ (Alike R) as bs) : Covers R as bs := by
  induction h with
  | nil => nofun
  | @cons p q as bs hpq _ ih =>
      intro k a hmem
      rcases List.mem_cons.mp hmem with rfl | hrest
      · exact ⟨q.2, List.mem_cons.mpr (.inl (Prod.ext hpq.1 rfl)), hpq.2⟩
      · obtain ⟨b, hb, hab⟩ := ih k a hrest
        exact ⟨b, List.mem_cons_of_mem _ hb, hab⟩

/-- Without repeated keys on the left, lists of one length that agree key by key are
reorderings of each other. -/
theorem forall₂_of_covers {as : List (κ × α)} {bs : List (κ × β)}
    (hkeys : (as.map Prod.fst).Nodup) (hlength : as.length = bs.length)
    (hcovers : Covers R as bs) : ∃ bs', bs.Perm bs' ∧ List.Forall₂ (Alike R) as bs' := by
  induction as generalizing bs with
  | nil =>
      cases List.length_eq_zero_iff.mp hlength.symm
      exact ⟨[], .nil, .nil⟩
  | cons p rest ih =>
      rw [List.map_cons, List.nodup_cons] at hkeys
      obtain ⟨b, hb, hab⟩ := hcovers p.1 p.2 List.mem_cons_self
      obtain ⟨before, after, rfl⟩ := List.append_of_mem hb
      have hperm : (before ++ (p.1, b) :: after).Perm ((p.1, b) :: (before ++ after)) :=
        List.perm_middle
      have hrest : Covers R rest (before ++ after) := by
        intro k a hmem
        obtain ⟨c, hc, hac⟩ := hcovers k a (List.mem_cons_of_mem _ hmem)
        rcases List.mem_cons.mp (hperm.mem_iff.mp hc) with heq | hother
        · cases heq
          exact absurd (List.mem_map_of_mem hmem) hkeys.1
        · exact ⟨c, hother, hac⟩
      have hlength' : rest.length = (before ++ after).length := by
        have h := hlength.trans hperm.length_eq
        simpa using h
      obtain ⟨bs', hperm', hforall⟩ := ih hkeys.2 hlength' hrest
      exact ⟨(p.1, b) :: bs', hperm.trans (hperm'.cons _), .cons ⟨rfl, hab⟩ hforall⟩

theorem covers_iff {as : List (κ × α)} {bs : List (κ × β)} (hkeys : (as.map Prod.fst).Nodup) :
    as.length = bs.length ∧ Covers R as bs ↔
      ∃ bs', bs.Perm bs' ∧ List.Forall₂ (Alike R) as bs' := by
  constructor
  · rintro ⟨hlength, hcovers⟩
    exact forall₂_of_covers hkeys hlength hcovers
  · rintro ⟨bs', hperm, hforall⟩
    refine ⟨hforall.length_eq.trans hperm.length_eq.symm, fun k a hmem => ?_⟩
    obtain ⟨b, hb, hab⟩ := covers_of_forall₂ hforall k a hmem
    exact ⟨b, hperm.mem_iff.mpr hb, hab⟩

end NotifyRelay.Keyed
