import NotifyRelay.TemplateOrder
import NotifyRelay.Library.Linearization
import Mathlib.Data.Fintype.EquivFin

/-! Linearizability of `TemplateViewSet.create`: the answers of a run are those of the requests
one after the other, and no request waits for ever. -/
namespace NotifyRelay

open Templates Transition Linearization

/-- A transaction that has locked its template or is about to insert it. -/
def UpsertPc.busy : UpsertPc → Bool
  | .absent | .holding _ | .numbered _ _ _ | .versioned _ _ _ => true
  | _ => false

/-- The constraint violation that nothing catches. -/
def UpsertPc.failed : UpsertPc → Bool
  | .aborted => true
  | _ => false

/-- How many statements a request has left, at most. -/
def UpsertPc.rank : UpsertPc → Nat
  | .begun => 6
  | .waiting _ => 5
  | .absent => 4
  | .holding _ => 3
  | .numbered _ _ _ => 2
  | .versioned _ _ _ => 1
  | .created _ | .conflict _ | .aborted => 0

namespace TemplateStore

/-- The requests that have their answer. -/
def answered (s : TemplateStore) (c : Nat) : Option (UpsertRequest × UpsertPc) :=
  s.upserts[c]?.bind fun tx => if tx.pc.running then none else some (tx.request, tx.pc)

variable {s t : TemplateStore} {tx tx' : UpsertTx} {pc : UpsertPc} {c : Nat} {db : Database}

theorem answered_begin (s : TemplateStore) (request : UpsertRequest) :
    answered { s with upserts := Pool.spawn s.upserts ⟨request, .begun⟩ } = s.answered := by
  funext c
  rw [answered, Pool.get_spawn]
  split
  next hnext => rw [answered, hnext, Pool.get_next_eq_none]; rfl
  next => rfl

theorem answered_of_running (htx : s.upserts[c]? = some tx) (hrunning : tx.pc.running = true) :
    s.answered c = none := by
  rw [answered, htx]
  exact if_pos hrunning

theorem answered_setUpsert (htx : s.upserts[c]? = some tx) (db : Database) :
    ((s.setUpsert c tx pc).setDb db).answered =
      Function.update s.answered c (if pc.running then none else some (tx.request, pc)) := by
  funext d
  rw [answered, setDb, setUpsert, Pool.get_set htx, Function.update_apply]
  split <;> rfl

/-- An answer that is given is the one the request gets alone at that moment. -/
theorem Orderly.alone (h : Orderly s) (htx : s.upserts[c]? = some tx) {action : UpsertAction}
    (hcreates : Creates s (.upsert c action)) (hstep : UpsertStep s tx action pc db) :
    pc.running = true ∧ db = s.db ∨ pc.running = false ∧ Alone s.db (tx.request, pc) db := by
  have hne := h.ne_aborted htx hcreates hstep
  have hfound : ∀ {template}, aliveNamed s.db tx.request.name = some template →
      (found tx.request template).running = true ∧ s.db = s.db ∨
        (found tx.request template).running = false ∧
          Alone s.db (tx.request, found tx.request template) s.db := by
    intro template hrow
    by_cases hchannel : template.channel = tx.request.channel
    · rw [found, if_neg (not_not.mpr hchannel)]
      exact .inl ⟨rfl, rfl⟩
    · refine .inr ⟨?_, alone_of_channel_ne hrow hchannel⟩
      rw [found, if_pos hchannel]
      rfl
  cases hstep with
  | absent _ _ => exact .inl ⟨rfl, rfl⟩
  | blocked _ _ _ _ => exact .inl ⟨rfl, rfl⟩
  | read template _ hrow _ => exact hfound hrow
  | woken template _ hrow _ => exact hfound hrow
  | lost _ _ _ _ => exact .inl ⟨rfl, rfl⟩
  | inserted _ _ _ => exact .inl ⟨rfl, rfl⟩
  | taken _ _ _ => exact absurd rfl hne
  | numbered _ _ => exact .inl ⟨rfl, rfl⟩
  | versioned _ _ _ _ _ _ => exact .inl ⟨rfl, rfl⟩
  | clashed _ _ _ _ _ _ => exact absurd rfl hne
  | committed template own version db hpc hcommit =>
      exact .inr ⟨rfl, alone_of_committed (h.inFlight.sound c tx htx) hpc hcommit⟩
  | aborted _ => exact absurd rfl hne

theorem Orderly.point (h : Orderly s) {a : Action} (hcalm : Calm s a)
    (hstep : step s a = some t) : Point Alone s.answered t.answered s.db t.db := by
  rcases step_creates hcalm.1 hstep with ⟨request, rfl⟩ | ⟨c, tx, action, pc, db, rfl, htx, hmoved,
    rfl⟩
  · exact .quiet (answered_begin s request) rfl
  · have hpending := answered_of_running htx hmoved.running
    rcases h.alone htx hcalm.1 hmoved with ⟨hrunning, rfl⟩ | ⟨hended, halone⟩
    · refine .quiet ?_ rfl
      rw [answered_setUpsert htx, if_pos hrunning, ← hpending, Function.update_eq_self]
    · refine .answer c (tx.request, pc) hpending halone ?_
      rw [answered_setUpsert htx, hended, if_neg Bool.false_ne_true]

theorem found_rank_le (request : UpsertRequest) (template : Template) :
    (found request template).rank ≤ 3 := by
  unfold found
  split <;> simp [UpsertPc.rank]

theorem UpsertStep.rank_lt {action : UpsertAction} (h : UpsertStep s tx action pc db) :
    pc.rank < tx.pc.rank := by
  cases h with
  | read template hpc _ _ =>
      rw [hpc]
      exact Nat.lt_of_le_of_lt (found_rank_le _ _) (by simp [UpsertPc.rank])
  | woken template hpc _ _ =>
      rw [hpc]
      exact Nat.lt_of_le_of_lt (found_rank_le _ _) (by simp [UpsertPc.rank])
  | aborted hrunning =>
      cases hpc : tx.pc <;> rw [hpc] at hrunning <;> first | contradiction | exact Nat.succ_pos _
  | absent hpc _ | blocked _ hpc _ _ | lost _ hpc _ _ | inserted _ hpc _ | taken _ hpc _
  | numbered _ hpc | versioned _ _ _ _ hpc _ | clashed _ _ _ _ hpc _
  | committed _ _ _ _ hpc _ => simp [hpc, UpsertPc.rank]

/-- How many steps the requests have left, at most. -/
def remaining (s : TemplateStore) : Nat := (s.upserts.map fun tx => tx.pc.rank).sum

theorem UpsertStep.remaining_lt {action : UpsertAction} (h : UpsertStep s tx action pc db)
    (htx : s.upserts[c]? = some tx) :
    ((s.setUpsert c tx pc).setDb db).remaining < s.remaining := by
  have hsum := Pool.sum_map_set (fun tx : UpsertTx => tx.pc.rank) htx { tx with pc := pc }
  have hrank := h.rank_lt
  change ((s.upserts.set c { tx with pc := pc }).map fun tx => tx.pc.rank).sum <
    (s.upserts.map fun tx => tx.pc.rank).sum
  dsimp only at hsum
  omega

theorem exists_fresh (ids : List Nat) : ∃ id, ∀ used ∈ ids, used ≠ id := by
  obtain ⟨id, hid⟩ := Infinite.exists_notMem_finset ids.toFinset
  exact ⟨id, fun used hused heq => hid (List.mem_toFinset.mpr (heq ▸ hused))⟩

theorem newTemplate_of_next {template : Template} {number : Nat}
    (h : pc.next = some (template, true, number)) : pc.newTemplate = some template := by
  cases pc with
  | numbered _ own _ =>
      cases h
      rfl
  | versioned _ own _ =>
      cases h
      rfl
  | _ => cases h

theorem creating_of_newTemplate {template : Template} (h : pc.newTemplate = some template) :
    pc.creating = true := by
  cases pc with
  | numbered _ own _ => cases own <;> first | rfl | cases h
  | versioned _ own _ => cases own <;> first | rfl | cases h
  | _ => cases h

/-- Two transactions never number the versions of one template at the same time. -/
theorem InFlight.target_ne (h : InFlight s) {c' : Nat} (htx : s.upserts[c]? = some tx)
    (htx' : s.upserts[c']? = some tx') (hne : c ≠ c') {a a' : Template} {own own' : Bool}
    {number number' : Nat} (hnext : tx.pc.next = some (a, own, number))
    (hnext' : tx'.pc.next = some (a', own', number')) : a.id ≠ a'.id := by
  have hapart := h.apart c c' tx tx' htx htx' hne
  cases own with
  | true =>
      have hnew := newTemplate_of_next hnext
      cases own' with
      | true => exact (hapart.newTemplate a a' hnew (newTemplate_of_next hnext')).1
      | false =>
          have hrow := ((h.sound c' tx' htx').held a' (held_of_next hnext')).1
          exact (((h.sound c tx htx).newTemplate a hnew).2 a' hrow).1.symm
  | false =>
      have hheld := held_of_next hnext
      cases own' with
      | true =>
          have hrow := ((h.sound c tx htx).held a hheld).1
          exact (((h.sound c' tx' htx').newTemplate a' (newTemplate_of_next hnext')).2 a hrow).1
      | false => exact hapart.held a a' hheld (held_of_next hnext')

/-- The INSERT of a new name is not held up. -/
theorem Orderly.insertTemplate_granted (h : Orderly s) (htx : s.upserts[c]? = some tx)
    (hpc : tx.pc = .absent) {id : TemplateId}
    (hcreates : Creates s (.upsert c (.insertTemplate id))) :
    s.db.templates.reserve s.newTemplates (newTemplate tx.request id) = .granted := by
  have hnone := (h.placed c tx htx).creating (by rw [hpc]; rfl)
  refine (Table.reserve_granted _).mpr ⟨fun a ha => ⟨hcreates.2 a ha, .inr fun hsame => ?_⟩,
    newTemplate_compatible hcreates.1 hnone⟩
  obtain ⟨tx', hmem, hnew⟩ := List.mem_filterMap.mp ha
  obtain ⟨c', htx'⟩ := List.mem_iff_getElem?.mp hmem
  have hne : c ≠ c' := by
    rintro rfl
    rw [htx] at htx'
    cases htx'
    rw [hpc] at hnew
    contradiction
  refine (h.distinct c c' tx tx' htx htx' hne).name (by rw [hpc]; rfl)
    (creating_of_newTemplate hnew) ?_
  rw [((h.inFlight.sound c' tx' htx').newTemplate a hnew).1] at hsame
  exact (Option.some.inj hsame).symm

/-- Nor is the INSERT of a version. -/
theorem Orderly.insertVersion_granted (h : Orderly s) (htx : s.upserts[c]? = some tx)
    {template : Template} {own : Bool} {number : Nat} (hpc : tx.pc = .numbered template own number)
    {id : TemplateVersionId} (hcreates : Creates s (.upsert c (.insertVersion id))) :
    s.db.templateVersions.reserve s.newVersions (newVersion tx.request template id number) =
      .granted := by
  refine (Table.reserve_granted _).mpr ⟨fun v hv => ⟨hcreates.2 v hv, .inr fun hsame => ?_⟩,
    h.inFlight.newVersion_compatible h.owner htx hpc hcreates.1⟩
  obtain ⟨tx', hmem, hnew⟩ := List.mem_filterMap.mp hv
  obtain ⟨c', htx'⟩ := List.mem_iff_getElem?.mp hmem
  cases hpc' : tx'.pc with
  | versioned template' own' version =>
      rw [hpc'] at hnew
      cases hnew
      have hne : c ≠ c' := by
        rintro rfl
        rw [htx] at htx'
        cases htx'
        rw [hpc] at hpc'
        contradiction
      have hid := h.inFlight.target_ne htx htx' hne (by rw [hpc]; rfl) (by rw [hpc']; rfl)
      have htext := (h.inFlight.sound c' tx' htx').text _ _ _ hpc'
      rw [htext] at hsame
      exact hid (Prod.mk.inj (Option.some.inj hsame)).1.symm
  | _ =>
      rw [hpc'] at hnew
      contradiction

theorem busy_of_creating (h : pc.creating = true) : pc.busy = true := by
  cases pc <;> first | rfl | contradiction

theorem busy_of_held {template : Template} (h : pc.held = some template) : pc.busy = true := by
  cases pc <;> first | rfl | contradiction

/-- A transaction that is under way is never held up. -/
theorem Orderly.exists_busy_step (h : Orderly s) (htx : s.upserts[c]? = some tx)
    (hbusy : tx.pc.busy = true) :
    ∃ action pc db, Calm s (.upsert c action) ∧ UpsertStep s tx action pc db := by
  cases hpc : tx.pc with
  | absent =>
      obtain ⟨id, hid⟩ := exists_fresh ((s.db.templates.rows ++ s.newTemplates).map Template.id)
      have hcreates : Creates s (.upsert c (.insertTemplate id)) :=
        ⟨fun a ha => hid _ (List.mem_map_of_mem (List.mem_append_left _ ha)),
          fun a ha => hid _ (List.mem_map_of_mem (List.mem_append_right _ ha))⟩
      exact ⟨_, _, _, ⟨hcreates, trivial⟩,
        .inserted id hpc (h.insertTemplate_granted htx hpc hcreates)⟩
  | holding template => exact ⟨.number, _, _, ⟨trivial, trivial⟩, .numbered template hpc⟩
  | numbered template own number =>
      obtain ⟨id, hid⟩ := exists_fresh
        ((s.db.templateVersions.rows ++ s.newVersions).map TemplateVersion.id)
      have hcreates : Creates s (.upsert c (.insertVersion id)) :=
        ⟨fun v hv => hid _ (List.mem_map_of_mem (List.mem_append_left _ hv)),
          fun v hv => hid _ (List.mem_map_of_mem (List.mem_append_right _ hv))⟩
      exact ⟨_, _, _, ⟨hcreates, trivial⟩, .versioned template own number id hpc
        (h.insertVersion_granted htx hpc hcreates)⟩
  | versioned template own version =>
      obtain ⟨db, hcommit⟩ := (h.inFlight.sound c tx htx).exists_committed hpc
      exact ⟨.commit, _, _, ⟨trivial, trivial⟩, .committed template own version db hpc hcommit⟩
  | _ =>
      rw [hpc] at hbusy
      contradiction

/-- Where none is under way, no row is locked. -/
theorem Orderly.exists_idle_step (h : Orderly s) (htx : s.upserts[c]? = some tx)
    (hrunning : tx.pc.running = true) (hidle : ∀ tx ∈ s.upserts, tx.pc.busy = false) :
    ∃ action pc db, Calm s (.upsert c action) ∧ UpsertStep s tx action pc db := by
  have hunlocked : ∀ id, s.locked id = false := by
    intro id
    refine List.any_eq_false.mpr fun tx' htx' hlocked => ?_
    obtain ⟨template, hheld, _⟩ := (Option.any_eq_true _ _).mp hlocked
    have hbusy := busy_of_held hheld
    rw [hidle tx' htx'] at hbusy
    contradiction
  cases hpc : tx.pc with
  | begun =>
      cases hrow : aliveNamed s.db tx.request.name with
      | none =>
          refine ⟨.select, _, _, ⟨trivial, ?_⟩, .absent hpc hrow⟩
          intro _ _ _ tx' htx' hcreating
          have hbusy := busy_of_creating hcreating
          rw [hidle tx' htx'] at hbusy
          contradiction
      | some template =>
          refine ⟨.select, _, _, ⟨trivial, ?_⟩, .read template hpc hrow (hunlocked _)⟩
          intro tx' htx' hnone
          rw [htx] at htx'
          cases htx'
          rw [hrow] at hnone
          contradiction
  | waiting id =>
      obtain ⟨template, hrow, rfl⟩ := (h.placed c tx htx).waiting id hpc
      exact ⟨.wake, _, _, ⟨trivial, trivial⟩, .woken template hpc hrow (hunlocked _)⟩
  | created _ | conflict _ | aborted =>
      rw [hpc] at hrunning
      contradiction
  | absent | holding _ | numbered _ _ _ | versioned _ _ _ =>
      have hbusy := hidle tx (List.mem_of_getElem? htx)
      rw [hpc] at hbusy
      contradiction

theorem Orderly.exists_step (h : Orderly s) (htx : s.upserts[c]? = some tx)
    (hrunning : tx.pc.running = true) :
    ∃ c tx action pc db, s.upserts[c]? = some tx ∧ Calm s (.upsert c action) ∧
      UpsertStep s tx action pc db := by
  by_cases hbusy : ∃ tx ∈ s.upserts, tx.pc.busy = true
  · obtain ⟨tx', hmem, hbusy⟩ := hbusy
    obtain ⟨c', htx'⟩ := List.mem_iff_getElem?.mp hmem
    obtain ⟨action, pc, db, hstep⟩ := h.exists_busy_step htx' hbusy
    exact ⟨c', tx', action, pc, db, htx', hstep⟩
  · obtain ⟨action, pc, db, hstep⟩ := h.exists_idle_step htx hrunning fun tx' htx' =>
      Bool.eq_false_iff.mpr fun htrue => hbusy ⟨tx', htx', htrue⟩
    exact ⟨c, tx, action, pc, db, htx, hstep⟩

/-- Every request can get its answer. -/
theorem Orderly.exists_complete (h : Orderly s) :
    ∃ u, CalmReaches s u ∧
      u.upserts.map UpsertTx.request = s.upserts.map UpsertTx.request ∧
      ∀ tx ∈ u.upserts, tx.pc.running = false := by
  induction hn : s.remaining using Nat.strong_induction_on generalizing s with
  | _ n ih =>
      by_cases hopen : ∃ tx ∈ s.upserts, tx.pc.running = true
      · obtain ⟨tx, hmem, hrunning⟩ := hopen
        obtain ⟨c, htx⟩ := List.mem_iff_getElem?.mp hmem
        obtain ⟨c', tx', action, pc, db, htx', hcalm, hstep⟩ := h.exists_step htx hrunning
        obtain ⟨u, hreach, hrequests, hanswered⟩ := ih _ (hn ▸ hstep.remaining_lt htx')
          (h.upsert htx' hcalm hstep) rfl
        refine ⟨u, .head ⟨_, hcalm, hstep.step htx'⟩ hreach, hrequests.trans ?_, hanswered⟩
        exact Pool.map_set_eq UpsertTx.request htx' rfl
      · exact ⟨s, .refl, rfl, fun tx hmem => Bool.eq_false_iff.mpr fun hrunning =>
          hopen ⟨tx, hmem, hrunning⟩⟩

theorem orderly_of_reaches (howner : VersionsOwned db) (h : CalmReaches (opened db) s) :
    Orderly s :=
  Transition.Reaches.invariant h Orderly (orderly_opened howner) fun _ _ _ hinv hcalm hstep =>
    hinv.next hcalm hstep

/-- Where no two requests race for a name, the answers of any run are those of the requests one
after the other, in an order that a longer run extends; a request is answered 201 with a
version of its own or 409 by its channel; and every request can be answered. -/
theorem upserts_linearizable (howner : VersionsOwned db)
    (hs : CalmReaches (opened db) s) (ht : CalmReaches s t) :
    (∃ before later, Linearized Alone s.answered db s.db before ∧
      Linearized Alone t.answered db t.db (before ++ later)) ∧
    (∀ tx ∈ t.upserts, tx.pc.running = false → Answered t.db tx) ∧
    (∀ (c c' : Nat) (tx tx' : UpsertTx) (v : TemplateVersion), t.upserts[c]? = some tx →
      t.upserts[c']? = some tx' → tx.pc.answer = some v → tx'.pc.answer = some v → c = c') ∧
    ∃ u, CalmReaches t u ∧
      u.upserts.map UpsertTx.request = t.upserts.map UpsertTx.request ∧
      ∀ tx ∈ u.upserts, tx.pc.running = false := by
  have hopened : Orderly (opened db) := orderly_opened howner
  have horderly := orderly_of_reaches howner (hs.trans ht)
  have hnext : ∀ s a t, Orderly s → Calm s a → graph step s a t → Orderly t :=
    fun _ _ _ h hcalm hstep => h.next hcalm hstep
  have hpoint : ∀ s a t, Orderly s → Calm s a → graph step s a t →
      Point Alone s.answered t.answered s.db t.db := fun _ _ _ h hcalm hstep => h.point hcalm hstep
  obtain ⟨before, hbefore⟩ := exists_linearized hs Orderly hopened hnext answered
    TemplateStore.db hpoint (linearized_nil fun _ => rfl)
  obtain ⟨later, hlater⟩ := exists_linearized ht Orderly (orderly_of_reaches howner hs) hnext
    answered TemplateStore.db hpoint hbefore
  refine ⟨⟨_, later, hbefore, hlater⟩, ?_, ?_, horderly.exists_complete⟩
  · intro tx hmem hended
    obtain ⟨c, htx⟩ := List.mem_iff_getElem?.mp hmem
    exact (horderly.placed c tx htx).answered hended
  · intro c c' tx tx' v htx htx' hv hv'
    by_contra hne
    exact (horderly.distinct c c' tx tx' htx htx' hne).answer v hv hv'

section Race

/-- Request `c` finds that its name is free while request `c'` is about to use it. -/
structure Races (s : TemplateStore) (a : Action) (c c' : Nat) : Prop where
  action : a = .upsert c .select
  pair : ∃ tx tx', s.upserts[c]? = some tx ∧ s.upserts[c']? = some tx' ∧
    aliveNamed s.db tx.request.name = none ∧ tx'.pc.creating = true ∧
    tx'.request.name = tx.request.name

abbrev CreatesReaches : TemplateStore → TemplateStore → Prop :=
  Transition.Reaches (graph step) Creates

/-- On the way from `s` to `t` the INSERT of request `c` fails, as its name is taken. -/
def NameTaken (c : Nat) (s t : TemplateStore) : Prop :=
  ∃ u v tx id a, CreatesReaches s u ∧ u.upserts[c]? = some tx ∧ tx.pc = .absent ∧
    aliveNamed u.db tx.request.name = some a ∧
    step u (.upsert c (.insertTemplate id)) = some v ∧
    v.upserts[c]? = some { tx with pc := .aborted } ∧ CreatesReaches v t

/-- Of `c` and `c'` one has failed or is bound to: its name is taken, or the other one is about to
take it. -/
inductive Doomed (owned : Prop) (c c' : Nat) (start s : TemplateStore) : Prop where
  | failed (d : Nat) (tx : UpsertTx) (pair : d = c ∨ d = c') (mem : s.upserts[d]? = some tx)
      (pc : tx.pc.failed = true) (taken : owned → NameTaken d start s)
  | late (d : Nat) (tx : UpsertTx) (a : Template) (pair : d = c ∨ d = c')
      (mem : s.upserts[d]? = some tx) (pc : tx.pc = .absent)
      (row : aliveNamed s.db tx.request.name = some a)
  | racing (tx tx' : UpsertTx) (mem : s.upserts[c]? = some tx) (mem' : s.upserts[c']? = some tx')
      (ne : c ≠ c') (pc : tx.pc.creating = true) (pc' : tx'.pc.creating = true)
      (name : tx.request.name = tx'.request.name)

/-- What becomes of a request that is about to insert its template. -/
theorem UpsertStep.of_creating {action : UpsertAction} (h : UpsertStep s tx action pc db)
    (hcreating : tx.pc.creating = true) :
    pc.failed = true ∨
      (pc.creating = true ∧ db = s.db ∧
        (tx.pc = .absent → aliveNamed s.db tx.request.name = none)) ∨
      ∃ template version, tx.pc = .versioned template true version ∧
        TemplateStore.committed s.db template true version = some db ∧ pc = .created version := by
  cases h with
  | taken _ _ _ => exact .inl rfl
  | clashed _ _ _ _ _ _ => exact .inl rfl
  | aborted _ => exact .inl rfl
  | inserted id hpc hgranted =>
      refine .inr (.inl ⟨rfl, rfl, fun _ => aliveNamed_eq_none.mpr fun a ha hname => ?_⟩)
      exact Table.not_compatible_of_index hname rfl (((Table.reserve_granted _).mp hgranted).2 a ha)
  | versioned template own number id hpc _ =>
      refine .inr (.inl ⟨?_, rfl, fun habsent => by rw [hpc] at habsent; contradiction⟩)
      rw [hpc] at hcreating
      cases own <;> exact hcreating
  | committed template own version db hpc hcommit =>
      rw [hpc] at hcreating
      cases own with
      | true => exact .inr (.inr ⟨template, version, hpc, hcommit, rfl⟩)
      | false => contradiction
  | absent hpc _ | blocked _ hpc _ _ | read _ hpc _ _ | woken _ hpc _ _ | lost _ hpc _ _
  | numbered _ hpc =>
      rw [hpc] at hcreating
      contradiction

theorem get_setUpsert_of_ne (htx : s.upserts[c]? = some tx) {d : Nat} {other : UpsertTx}
    (hother : s.upserts[d]? = some other) (hne : d ≠ c) :
    ((s.setUpsert c tx pc).setDb db).upserts[d]? = some other := by
  rw [setDb, setUpsert, Pool.get_set_of_ne htx _ hne]
  exact hother

theorem get_setUpsert_self (htx : s.upserts[c]? = some tx) :
    ((s.setUpsert c tx pc).setDb db).upserts[c]? = some { tx with pc := pc } := by
  rw [setDb, setUpsert, Pool.get_set_self htx]

/-- An alive row stays alive, as nothing is deleted. -/
theorem UpsertStep.aliveNamed {action : UpsertAction} (h : UpsertStep s tx action pc db)
    {name : String} {a : Template} (hrow : TemplateStore.aliveNamed s.db name = some a) :
    TemplateStore.aliveNamed db name = some a := by
  cases h with
  | committed template own version db _ hcommit => exact aliveNamed_of_committed hcommit hrow
  | _ => exact hrow

/-- Such a request fails only because its name is taken. -/
theorem UpsertStep.taken_of_creating {action : UpsertAction} (h : UpsertStep s tx action pc db)
    (htx : s.upserts[c]? = some tx) (hinFlight : InFlight s) (howner : VersionsOwned s.db)
    (hcreates : Creates s (.upsert c action)) (hcreating : tx.pc.creating = true)
    (hfailed : pc.failed = true) :
    ∃ id a, action = .insertTemplate id ∧ tx.pc = .absent ∧ pc = .aborted ∧
      TemplateStore.aliveNamed s.db tx.request.name = some a := by
  cases h with
  | taken id hpc hviolates =>
      cases hrow : TemplateStore.aliveNamed s.db tx.request.name with
      | none =>
          exact absurd (newTemplate_compatible hcreates.1 hrow)
            (Table.not_compatible_of_violates _ hviolates)
      | some a => exact ⟨id, a, rfl, hpc, rfl, rfl⟩
  | clashed template own number id hpc hviolates =>
      exact absurd (hinFlight.newVersion_compatible howner htx hpc hcreates.1)
        (Table.not_compatible_of_violates _ hviolates)
  | aborted _ => exact hcreates.elim
  | read _ hpc _ _ | woken _ hpc _ _ =>
      rw [hpc] at hcreating
      contradiction
  | _ => contradiction

theorem NameTaken.trans (h : NameTaken c s t) {u : TemplateStore} (hu : CreatesReaches t u) :
    NameTaken c s u := by
  obtain ⟨v, w, tx, id, a, hv, htx, hpc, hrow, hstep, hfailed, hw⟩ := h
  exact ⟨v, w, tx, id, a, hv, htx, hpc, hrow, hstep, hfailed, hw.trans hu⟩

variable {owned : Prop} {c' : Nat} {start : TemplateStore}

theorem Doomed.symm (h : Doomed owned c c' start s) : Doomed owned c' c start s := by
  cases h with
  | failed d tx hpair htx hpc htaken => exact .failed d tx hpair.symm htx hpc htaken
  | late d tx a hpair htx hpc hrow => exact .late d tx a hpair.symm htx hpc hrow
  | racing tx tx' htx htx' hne hpc hpc' hname =>
      exact .racing tx' tx htx' htx hne.symm hpc' hpc hname.symm

/-- What a run that starts in `start` knows of its state. -/
structure Tracked (owned : Prop) (start s : TemplateStore) : Prop where
  inFlight : InFlight s
  owner : owned → VersionsOwned s.db
  reaches : CreatesReaches start s

theorem Tracked.next (h : Tracked owned start s) {a : Action} (hcreates : Creates s a)
    (hstep : step s a = some t) : Tracked owned start t where
  inFlight := h.inFlight.move (step_move hstep)
  owner howned := by
    rcases step_creates hcreates hstep with
      ⟨_, rfl⟩ | ⟨c, tx, action, pc, db, rfl, htx, hmoved, rfl⟩
    · exact h.owner howned
    · cases hmoved with
      | committed template own version db hpc hcommit =>
          exact (h.owner howned).of_committed (h.inFlight.sound c tx htx) hpc hcommit
      | _ => exact h.owner howned
  reaches := h.reaches.tail ⟨a, hcreates, hstep⟩

/-- One of the two fails. -/
theorem Doomed.of_failed (h : Tracked owned start s) {d : Nat} (hpair : d = c ∨ d = c')
    (htx : s.upserts[d]? = some tx) (hcreating : tx.pc.creating = true) {action : UpsertAction}
    (hcreates : Creates s (.upsert d action)) (hstep : UpsertStep s tx action pc db)
    (hfailed : pc.failed = true) :
    Doomed owned c c' start ((s.setUpsert d tx pc).setDb db) := by
  refine .failed d _ hpair (get_setUpsert_self htx) hfailed fun howned => ?_
  have hmoved := hstep.step htx
  obtain ⟨id, a, rfl, hpc, rfl, hrow⟩ :=
    hstep.taken_of_creating htx h.inFlight (h.owner howned) hcreates hcreating hfailed
  exact ⟨s, _, tx, id, a, h.reaches, htx, hpc, hrow, hmoved, get_setUpsert_self htx, .refl⟩

/-- Of two requests that race for a name, the one that moves leaves the other one too late. -/
theorem Doomed.of_race (h : Tracked owned start s) (htx : s.upserts[c]? = some tx)
    (htx' : s.upserts[c']? = some tx') (hne : c ≠ c') (hpc : tx.pc.creating = true)
    (hpc' : tx'.pc.creating = true) (hname : tx.request.name = tx'.request.name)
    {action : UpsertAction} (hcreates : Creates s (.upsert c action))
    (hstep : UpsertStep s tx action pc db) :
    Doomed owned c c' start ((s.setUpsert c tx pc).setDb db) := by
  have hself : ((s.setUpsert c tx pc).setDb db).upserts[c]? = some { tx with pc := pc } :=
    get_setUpsert_self htx
  have hother : ((s.setUpsert c tx pc).setDb db).upserts[c']? = some tx' :=
    get_setUpsert_of_ne htx htx' hne.symm
  rcases hstep.of_creating hpc with hfailed | ⟨hcreating, _, _⟩ |
    ⟨template, version, hversioned, hcommit, _⟩
  · exact .of_failed h (.inl rfl) htx hpc hcreates hstep hfailed
  · exact .racing _ _ hself hother hne hcreating hpc' hname
  · have hsound := h.inFlight.sound c tx htx
    have hrow := (hsound.aliveNamed_of_committed hversioned hcommit).1
    refine .late c' tx' template (.inr rfl) hother ?_ (by rw [← hname]; exact hrow)
    -- two templates of one name are never pending at once
    have hpending : ∀ t', tx'.pc.newTemplate = some t' → False := by
      intro t' hnew
      have hfits := (h.inFlight.apart c c' tx tx' htx htx' hne).newTemplate template t'
        (by rw [hversioned]; rfl) hnew
      refine Table.not_compatible_of_index (aliveNamed_eq_some.mp hrow).2 ?_ hfits
      rw [((h.inFlight.sound c' tx' htx').newTemplate t' hnew).1, hname]
      rfl
    cases hcase : tx'.pc with
    | absent => rfl
    | numbered a own _ =>
        rw [hcase] at hpc' hpending
        cases own with
        | true => exact (hpending a rfl).elim
        | false => contradiction
    | versioned a own _ =>
        rw [hcase] at hpc' hpending
        cases own with
        | true => exact (hpending a rfl).elim
        | false => contradiction
    | _ =>
        rw [hcase] at hpc'
        contradiction

theorem Doomed.upsert (h : Doomed owned c c' start s) (htracked : Tracked owned start s) {d : Nat}
    (htx : s.upserts[d]? = some tx) {action : UpsertAction}
    (hcreates : Creates s (.upsert d action)) (hstep : UpsertStep s tx action pc db) :
    Doomed owned c c' start ((s.setUpsert d tx pc).setDb db) := by
  cases h with
  | failed e other hpair hother hpc htaken =>
      refine .failed e other hpair (get_setUpsert_of_ne htx hother ?_) hpc fun howned =>
        (htaken howned).trans (.single ⟨_, hcreates, hstep.step htx⟩)
      rintro rfl
      rw [htx] at hother
      cases hother
      have hrunning := hstep.running
      cases hcase : tx.pc <;> rw [hcase] at hpc hrunning <;> contradiction
  | late e other a hpair hother hpc hrow =>
      by_cases hne : e = d
      · subst hne
        rw [htx] at hother
        cases hother
        have hcreating : tx.pc.creating = true := by
          rw [hpc]
          rfl
        rcases hstep.of_creating hcreating with hfailed | ⟨_, _, hnone⟩ |
          ⟨template, version, hversioned, _, _⟩
        · exact .of_failed htracked hpair htx hcreating hcreates hstep hfailed
        · rw [hnone hpc] at hrow
          contradiction
        · rw [hpc] at hversioned
          contradiction
      · exact .late e other a hpair (get_setUpsert_of_ne htx hother hne) hpc
          (hstep.aliveNamed hrow)
  | racing other other' hother hother' hne hpc hpc' hname =>
      by_cases heq : c = d
      · subst heq
        rw [htx] at hother
        cases hother
        exact .of_race htracked htx hother' hne hpc hpc' hname hcreates hstep
      · by_cases heq' : c' = d
        · subst heq'
          rw [htx] at hother'
          cases hother'
          exact (of_race htracked htx hother hne.symm hpc' hpc hname.symm hcreates hstep).symm
        · exact .racing other other' (get_setUpsert_of_ne htx hother heq)
            (get_setUpsert_of_ne htx hother' heq') hne hpc hpc' hname

theorem Doomed.begin (h : Doomed owned c c' start s) (request : UpsertRequest) :
    Doomed owned c c' start { s with upserts := Pool.spawn s.upserts ⟨request, .begun⟩ } := by
  cases h with
  | failed d other hpair hother hpc htaken =>
      exact .failed d other hpair (Pool.get_spawn_of_some hother _) hpc fun howned =>
        (htaken howned).trans (.single ⟨.begin request, trivial, rfl⟩)
  | late d other a hpair hother hpc hrow =>
      exact .late d other a hpair (Pool.get_spawn_of_some hother _) hpc hrow
  | racing other other' hother hother' hne hpc hpc' hname =>
      exact .racing other other' (Pool.get_spawn_of_some hother _)
        (Pool.get_spawn_of_some hother' _) hne hpc hpc' hname

theorem Doomed.next (h : Doomed owned c c' start s) (htracked : Tracked owned start s)
    {a : Action} (hcreates : Creates s a) (hstep : step s a = some t) :
    Doomed owned c c' start t := by
  rcases step_creates hcreates hstep with ⟨request, rfl⟩ | ⟨d, tx, action, pc, db, rfl, htx,
    hmoved, rfl⟩
  · exact h.begin request
  · exact h.upsert htracked htx hcreates hmoved

theorem Doomed.of_races {a : Action} (hraces : Races s a c c') (hstep : step s a = some t) :
    Doomed owned c c' t t := by
  obtain ⟨rfl, tx, tx', htx, htx', hnone, hcreating, hname⟩ := hraces
  obtain ⟨found, hfound, hstep⟩ := Option.bind_eq_some_iff.mp hstep
  cases htx.symm.trans hfound
  obtain ⟨pc, db, hmoved, rfl⟩ := upsertStep_of_stepUpsert hstep
  cases hmoved with
  | absent hpc _ =>
      have hne : c ≠ c' := by
        rintro rfl
        rw [htx] at htx'
        cases htx'
        rw [hpc] at hcreating
        contradiction
      exact .racing _ tx' (get_setUpsert_self htx) (get_setUpsert_of_ne htx htx' hne.symm) hne rfl
        hcreating hname.symm
  | blocked _ _ hrow _ | read _ _ hrow _ =>
      rw [hnone] at hrow
      contradiction

/-- What a run in which nobody races rules out. -/
theorem exists_races {a : Action} (h : ¬Unraced s a) : ∃ c c', Races s a c c' := by
  cases a with
  | begin _ | beginDestroy _ | destroy _ _ => exact (h trivial).elim
  | upsert c action =>
      cases action with
      | select =>
          simp only [Unraced, not_forall, not_not] at h
          obtain ⟨tx, htx, hnone, tx', hmem, hcreating, hname⟩ := h
          obtain ⟨c', htx'⟩ := List.mem_iff_getElem?.mp hmem
          exact ⟨c, c', rfl, tx, tx', htx, htx', hnone, hcreating, hname⟩
      | _ => exact (h trivial).elim

/-- Once two requests race for a name, no run answers them both: when both have ended, one of the
two has failed, and where every version has its template, its INSERT found the name taken. -/
theorem exists_failed_of_raced (hs : CreatesReaches (opened db) s) {a : Action}
    (hraces : Races s a c c') (hstep : step s a = some t)
    {u : TemplateStore} (hu : CreatesReaches t u)
    (hended : ∀ d tx, d = c ∨ d = c' → u.upserts[d]? = some tx → tx.pc.running = false) :
    ∃ d tx, (d = c ∨ d = c') ∧ u.upserts[d]? = some tx ∧ tx.pc.failed = true ∧
      (VersionsOwned db → NameTaken d t u) := by
  have hcreates : Creates s a := hraces.action ▸ trivial
  have hopened : Tracked (VersionsOwned db) (opened db) (opened db) :=
    ⟨inFlight_opened db, id, .refl⟩
  have hracing : Tracked (VersionsOwned db) (opened db) t :=
    Tracked.next (hs.invariant (Tracked (VersionsOwned db) (opened db)) hopened
      fun _ _ _ h hcreates hstep => h.next hcreates hstep) hcreates hstep
  have hdoomed := hu.invariant_of (Tracked (VersionsOwned db) t)
    (Doomed (VersionsOwned db) c c' t) ⟨hracing.inFlight, hracing.owner, .refl⟩
    (fun _ _ _ h hcreates hstep => h.next hcreates hstep) (.of_races hraces hstep)
    fun _ _ _ htracked h hcreates hstep => h.next htracked hcreates hstep
  have hnot : ∀ {d : Nat} {tx : UpsertTx}, d = c ∨ d = c' → u.upserts[d]? = some tx →
      tx.pc.creating = true → False := by
    intro d tx hpair htx hcreating
    have hstopped := hended d tx hpair htx
    cases hcase : tx.pc <;> rw [hcase] at hcreating hstopped <;> contradiction
  cases hdoomed with
  | failed d tx hpair htx hpc htaken => exact ⟨d, tx, hpair, htx, hpc, htaken⟩
  | late d tx a hpair htx hpc _ => exact (hnot hpair htx (by rw [hpc]; rfl)).elim
  | racing tx tx' htx _ _ hpc _ _ => exact (hnot (.inl rfl) htx hpc).elim

end Race

section Scenario

instance (s : TemplateStore) (a : Action) : Decidable (Creates s a) :=
  match a with
  | .begin _ => .isTrue trivial
  | .upsert _ (.insertTemplate id) => inferInstanceAs (Decidable
      ((∀ a ∈ s.db.templates.rows, a.id ≠ id) ∧ ∀ a ∈ s.newTemplates, a.id ≠ id))
  | .upsert _ (.insertVersion id) => inferInstanceAs (Decidable
      ((∀ v ∈ s.db.templateVersions.rows, v.id ≠ id) ∧ ∀ v ∈ s.newVersions, v.id ≠ id))
  | .upsert _ .abort => .isFalse fun h => h
  | .upsert _ .select => .isTrue trivial
  | .upsert _ .wake => .isTrue trivial
  | .upsert _ .number => .isTrue trivial
  | .upsert _ .commit => .isTrue trivial
  | .beginDestroy _ => .isFalse fun h => h
  | .destroy _ _ => .isFalse fun h => h

instance (s : TemplateStore) (a : Action) : Decidable (Unraced s a) :=
  match a with
  | .upsert c .select => inferInstanceAs (Decidable (∀ tx ∈ s.upserts[c]?,
      aliveNamed s.db tx.request.name = none → ∀ tx' ∈ s.upserts, tx'.pc.creating = true →
        tx'.request.name ≠ tx.request.name))
  | .begin _ => .isTrue trivial
  | .upsert _ .wake => .isTrue trivial
  | .upsert _ (.insertTemplate _) => .isTrue trivial
  | .upsert _ .number => .isTrue trivial
  | .upsert _ (.insertVersion _) => .isTrue trivial
  | .upsert _ .commit => .isTrue trivial
  | .upsert _ .abort => .isTrue trivial
  | .beginDestroy _ => .isTrue trivial
  | .destroy _ _ => .isTrue trivial

instance (s : TemplateStore) (a : Action) : Decidable (Calm s a) :=
  inferInstanceAs (Decidable (_ ∧ _))

/-- A request for a new name commits; of the two that come next one is blocked by the other and
has another channel. -/
def firstUpsert : List Action :=
  [.begin ⟨"welcome", .email, "Hi", "Hello"⟩, .begin ⟨"welcome", .email, "Hi", "Hello again"⟩,
    .upsert 0 .select, .upsert 0 (.insertTemplate 1), .upsert 0 (.insertVersion 10),
    .upsert 0 .commit]

def laterUpserts : List Action :=
  [.begin ⟨"welcome", .webhook, "", "[]"⟩, .upsert 1 .select, .upsert 2 .select,
    .upsert 1 .number, .upsert 1 (.insertVersion 11), .upsert 1 .commit, .upsert 2 .wake]

theorem upserts_linearizable_blocked :
    ∃ s t, CalmReaches (opened .empty) s ∧ CalmReaches s t ∧
      t.answers.map TemplateVersion.version = [1, 2] ∧
      t.upserts.map (fun tx => tx.pc.running) = [false, false, false] ∧
      (∃ before later, Linearized Alone s.answered .empty s.db before ∧
        Linearized Alone t.answered .empty t.db (before ++ later)) ∧
      ∀ tx ∈ t.upserts, tx.pc.running = false → Answered t.db tx := by
  obtain ⟨s, t, hs, ht, hversions, hended⟩ := exists_pair_of_runAll step Calm (opened .empty)
    firstUpsert laterUpserts (fun _ t => t.answers.map TemplateVersion.version = [1, 2] ∧
      t.upserts.map (fun tx => tx.pc.running) = [false, false, false]) (by decide +kernel)
  have h := upserts_linearizable (fun _ hv => absurd hv List.not_mem_nil) hs ht
  exact ⟨s, t, hs, ht, hversions, hended, h.1, h.2.1⟩

/-- Both requests find that the name is free. -/
def racingUpserts : List Action :=
  [.begin ⟨"welcome", .email, "Hi", "Hello"⟩, .begin ⟨"welcome", .email, "Hi", "Hello again"⟩,
    .upsert 0 .select, .upsert 1 .select, .upsert 0 (.insertTemplate 1),
    .upsert 0 (.insertVersion 10), .upsert 0 .commit, .upsert 1 (.insertTemplate 2)]

theorem upserts_race : ∃ t, Transition.Reaches (graph step) Creates (opened .empty) t ∧
    t.upserts.map (fun tx => (tx.request.name, tx.request.channel)) =
      [("welcome", .email), ("welcome", .email)] ∧
    ∃ tx ∈ t.upserts, tx.pc.failed = true :=
  exists_of_runAll step Creates (opened .empty) racingUpserts _ (by decide +kernel)

theorem exists_failed_of_raced_upserts : ∃ d t u, CreatesReaches (opened .empty) t ∧
    NameTaken d t u ∧ ∃ tx, u.upserts[d]? = some tx ∧ tx.pc.failed = true := by
  obtain ⟨s, hs, hraced, hrest⟩ := exists_of_runAll step Creates (opened .empty)
    (racingUpserts.take 3) (fun s => ¬Unraced s (.upsert 1 .select) ∧
      (step s (.upsert 1 .select)).any (fun t =>
        (runAll step Creates t (racingUpserts.drop 4)).any fun u =>
          u.upserts.all fun tx => !tx.pc.running) = true) (by decide +kernel)
  obtain ⟨c, c', hraces⟩ := exists_races hraced
  obtain ⟨t, ht, hrest⟩ := (Option.any_eq_true _ _).mp hrest
  obtain ⟨u, hu, hended⟩ := (Option.any_eq_true _ _).mp hrest
  have hreaches := reaches_of_runAll (racingUpserts.drop 4) hu
  obtain ⟨d, tx, -, htx, hfailed, htaken⟩ := exists_failed_of_raced hs hraces ht hreaches
    fun d tx _ htx => by simpa using List.all_eq_true.mp hended tx (List.mem_of_getElem? htx)
  exact ⟨d, t, u, hs.tail ⟨.upsert 1 .select, trivial, ht⟩,
    htaken fun v hv => absurd hv List.not_mem_nil, tx, htx, hfailed⟩

end Scenario

end TemplateStore

end NotifyRelay
