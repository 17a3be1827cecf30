import NotifyRelay.TemplateStore

/-! Why locks and unique constraints make the template API atomic: what an open transaction
has read and written stays true until it commits, so its commit is the `create` that runs
alone. -/
namespace NotifyRelay

open Templates

theorem Templates.latestNumber_insert {db : Database} {version : TemplateVersion}
    {versions : TemplateVersionTable} (h : db.templateVersions.insert? version = some versions)
    (templates : TemplateTable) {id : TemplateId} (hid : version.template ≠ id) :
    latestNumber { db with templates := templates, templateVersions := versions } id =
      latestNumber db id := by
  simp [latestNumber, ((db.templateVersions.insert?_eq_some).mp h).2, hid]

theorem Templates.le_latestNumber {db : Database} {v : TemplateVersion}
    (hv : v ∈ db.templateVersions.rows) : v.version ≤ latestNumber db v.template := by
  unfold latestNumber
  let numbers := (db.templateVersions.rows.filter fun w => w.template == v.template).map
    TemplateVersion.version
  have hmem : v.version ∈ numbers.insertionSort (· ≥ ·) := by
    refine (List.perm_insertionSort _ _).mem_iff.mpr (List.mem_map_of_mem ?_)
    simp [hv]
  have hsorted := List.pairwise_insertionSort (r := (· ≥ · : Nat → Nat → Prop)) numbers
  change v.version ≤ (numbers.insertionSort (· ≥ ·)).headD 0
  cases hsort : numbers.insertionSort (· ≥ ·) with
  | nil =>
      rw [hsort] at hmem
      contradiction
  | cons first rest =>
      rw [hsort] at hmem hsorted
      rcases List.mem_cons.mp hmem with heq | hrest
      · exact Nat.le_of_eq heq
      · exact (List.pairwise_cons.mp hsorted).1 _ hrest

theorem Template.eq_of_aliveName {t : Template} {name : String}
    (h : t.aliveName = some name) : t.alive = true ∧ t.name = name := by
  unfold aliveName at h
  split at h
  next halive =>
    cases h
    exact ⟨halive, rfl⟩
  next => contradiction

theorem Template.aliveName_of_alive {t : Template} {name : String} (halive : t.alive = true)
    (hname : t.name = name) : t.aliveName = some name := by
  rw [aliveName, if_pos halive, hname]

namespace TemplateStore

theorem aliveNamed_eq_some {db : Database} {name : String} {t : Template} :
    aliveNamed db name = some t ↔ t ∈ db.templates.rows ∧ t.aliveName = some name := by
  constructor
  · intro h
    have hmatches := List.find?_some h
    rw [Bool.and_eq_true, beq_iff_eq] at hmatches
    exact ⟨List.mem_of_find?_eq_some h, Template.aliveName_of_alive hmatches.1 hmatches.2⟩
  · rintro ⟨hmem, hname⟩
    obtain ⟨halive, hsame⟩ := Template.eq_of_aliveName hname
    cases hfind : aliveNamed db name with
    | none =>
        have hmissed := List.find?_eq_none.mp hfind t hmem
        simp [halive, hsame] at hmissed
    | some found =>
        have hmatches := List.find?_some hfind
        rw [Bool.and_eq_true, beq_iff_eq] at hmatches
        rw [db.templates.eq_of_index (List.mem_of_find?_eq_some hfind) hmem
          (Template.aliveName_of_alive hmatches.1 hmatches.2) hname]

theorem aliveNamed_eq_none {db : Database} {name : String} :
    aliveNamed db name = none ↔ ∀ t ∈ db.templates.rows, t.aliveName ≠ some name := by
  rw [Option.eq_none_iff_forall_ne_some]
  exact ⟨fun h t hmem hname => h t (aliveNamed_eq_some.mpr ⟨hmem, hname⟩),
    fun h t hfind => h t (aliveNamed_eq_some.mp hfind).1 (aliveNamed_eq_some.mp hfind).2⟩

/-- What a transaction relies on in the committed tables. -/
structure Sound (db : Database) (tx : UpsertTx) : Prop where
  held : ∀ t, tx.pc.held = some t → t ∈ db.templates.rows ∧
    t.aliveName = some tx.request.name ∧ t.channel = tx.request.channel
  newTemplate : ∀ t, tx.pc.newTemplate = some t → t = TemplateStore.newTemplate tx.request t.id ∧
    ∀ a ∈ db.templates.rows, Compatible Template.id Template.aliveName a t
  next : ∀ t own number, tx.pc.next = some (t, own, number) →
    number = if own then 1 else latestNumber db t.id + 1
  newVersion : ∀ v, tx.pc.newVersion = some v →
    ∀ a ∈ db.templateVersions.rows, Compatible TemplateVersion.id TemplateVersion.number a v
  text : ∀ t own v, tx.pc = .versioned t own v →
    v = TemplateStore.newVersion tx.request t v.id v.version

/-- Two transactions that are not in each other's way. -/
structure Apart (tx tx' : UpsertTx) : Prop where
  held : ∀ t t', tx.pc.held = some t → tx'.pc.held = some t' → t.id ≠ t'.id
  newTemplate : ∀ t t', tx.pc.newTemplate = some t → tx'.pc.newTemplate = some t' →
    Compatible Template.id Template.aliveName t t'
  newVersion : ∀ v v', tx.pc.newVersion = some v → tx'.pc.newVersion = some v' →
    Compatible TemplateVersion.id TemplateVersion.number v v'

structure InFlight (s : TemplateStore) : Prop where
  sound : ∀ (c : Nat) (tx : UpsertTx), s.upserts[c]? = some tx → Sound s.db tx
  apart : ∀ (c c' : Nat) (tx tx' : UpsertTx), s.upserts[c]? = some tx →
    s.upserts[c']? = some tx' → c ≠ c' → Apart tx tx'

/-- A transaction that holds no lock and has written nothing. -/
structure Idle (pc : UpsertPc) : Prop where
  held : pc.held = none
  newTemplate : pc.newTemplate = none
  newVersion : pc.newVersion = none
  next : pc.next = none

variable {s t : TemplateStore} {tx tx' : UpsertTx} {pc : UpsertPc} {c : Nat} {db : Database}

theorem Apart.symm (h : Apart tx tx') : Apart tx' tx where
  held t t' ht ht' := (h.held t' t ht' ht).symm
  newTemplate t t' ht ht' := (h.newTemplate t' t ht' ht).symm
  newVersion v v' hv hv' := (h.newVersion v' v hv' hv).symm

theorem Idle.sound (h : Idle tx.pc) : Sound db tx where
  held t ht := by simp [h.held] at ht
  newTemplate t ht := by simp [h.newTemplate] at ht
  next t own number ht := by simp [h.next] at ht
  newVersion v hv := by simp [h.newVersion] at hv
  text t own v hpc := by
    have hnone := h.newVersion
    rw [hpc] at hnone
    cases hnone

theorem Idle.apart (h : Idle tx.pc) : Apart tx tx' where
  held t t' ht := by simp [h.held] at ht
  newTemplate t t' ht := by simp [h.newTemplate] at ht
  newVersion v v' hv := by simp [h.newVersion] at hv

theorem not_held_of_unlocked {id : TemplateId} (h : s.locked id = false)
    (htx : s.upserts[c]? = some tx) {t : Template} (ht : tx.pc.held = some t) : t.id ≠ id := by
  rintro rfl
  have hfree := List.any_eq_false.mp h tx (List.mem_of_getElem? htx)
  simp [ht] at hfree

theorem mem_newTemplates {t : Template} (htx : s.upserts[c]? = some tx)
    (ht : tx.pc.newTemplate = some t) : t ∈ s.newTemplates :=
  List.mem_filterMap.mpr ⟨tx, List.mem_of_getElem? htx, ht⟩

theorem mem_newVersions {v : TemplateVersion} (htx : s.upserts[c]? = some tx)
    (hv : tx.pc.newVersion = some v) : v ∈ s.newVersions :=
  List.mem_filterMap.mpr ⟨tx, List.mem_of_getElem? htx, hv⟩

/-- One transaction moves and the committed tables stay. -/
theorem InFlight.setUpsert (h : InFlight s) (htx : s.upserts[c]? = some tx)
    (hsound : Sound s.db { tx with pc := pc })
    (hapart : ∀ (c' : Nat) (tx' : UpsertTx), s.upserts[c']? = some tx' → c ≠ c' →
      Apart { tx with pc := pc } tx') : InFlight (s.setUpsert c tx pc) where
  sound := Pool.forall_set htx hsound fun d other hother _ => h.sound d other hother
  apart := Pool.forall_pairs_set (fun _ _ => Apart.symm) htx h.apart
    fun d other hother hne => hapart d other hother hne.symm

theorem InFlight.setIdle (h : InFlight s) (htx : s.upserts[c]? = some tx) (hidle : Idle pc) :
    InFlight (s.setUpsert c tx pc) :=
  h.setUpsert htx (Idle.sound hidle) fun _ _ _ _ => Idle.apart hidle

/-- The committed tables change and every open transaction can live with it. -/
theorem InFlight.setDb (h : InFlight s)
    (hsound : ∀ (c : Nat) (tx : UpsertTx), s.upserts[c]? = some tx → Sound db tx) :
    InFlight (s.setDb db) :=
  ⟨hsound, h.apart⟩

/-- The row in hand is alive and not locked by another transaction. -/
theorem InFlight.found (h : InFlight s) (htx : s.upserts[c]? = some tx) {template : Template}
    (hmem : template ∈ s.db.templates.rows) (hname : template.aliveName = some tx.request.name)
    (hunlocked : s.locked template.id = false) :
    InFlight (s.setUpsert c tx (found tx.request template)) := by
  unfold TemplateStore.found
  split
  next => exact h.setIdle htx ⟨rfl, rfl, rfl, rfl⟩
  next hchannel =>
    refine h.setUpsert htx ?_ fun c' tx' htx' _ => ?_
    · constructor
      case held =>
        rintro t ⟨⟩
        exact ⟨hmem, hname, not_not.mp hchannel⟩
      all_goals nofun
    · constructor
      case held =>
        rintro t t' ⟨⟩ ht'
        exact (not_held_of_unlocked hunlocked htx' ht').symm
      all_goals nofun

/-- The name of a template that is not committed yet has no alive row. -/
theorem Sound.aliveNamed_eq_none (h : Sound db tx) {template : Template}
    (hnew : tx.pc.newTemplate = some template) : aliveNamed db tx.request.name = none := by
  obtain ⟨htemplate, hfits⟩ := h.newTemplate template hnew
  refine TemplateStore.aliveNamed_eq_none.mpr fun a ha hname => ?_
  refine Table.not_compatible_of_index hname ?_ (hfits a ha)
  rw [htemplate]
  rfl

/-- The commit of an open transaction is the `create` that runs alone on what is committed
by then. -/
theorem committed_eq_upsert {template : Template} {own : Bool} {version : TemplateVersion}
    (h : Sound db tx) (hpc : tx.pc = .versioned template own version) :
    committed db template own version =
      Templates.upsert db tx.request template.id version.id := by
  have hnext := h.next template own version.version (by rw [hpc]; rfl)
  have hversion := h.text _ _ _ hpc
  rw [hnext] at hversion
  unfold newVersion at hversion
  cases own
  case true =>
    have htemplate := (h.newTemplate template (by rw [hpc]; rfl)).1
    have habsent := h.aliveNamed_eq_none (by rw [hpc]; rfl)
    unfold newTemplate at htemplate
    unfold aliveNamed at habsent
    rw [if_pos rfl] at hversion
    rw [Templates.upsert, habsent, committed, if_pos rfl, ← htemplate, ← hversion]
    simp only [Option.map_eq_bind]
    rfl
  case false =>
    obtain ⟨hmem, hname, hchannel⟩ := h.held template (by rw [hpc]; rfl)
    have halive := aliveNamed_eq_some.mpr ⟨hmem, hname⟩
    unfold aliveNamed at halive
    rw [if_neg Bool.false_ne_true] at hversion
    rw [Templates.upsert, halive]
    simp only [hchannel, ne_eq, not_true_eq_false, if_false]
    rw [← hversion, committed, if_neg Bool.false_ne_true]
    cases db.templateVersions.insert? version <;> rfl

/-- What a commit adds. -/
theorem committed_eq_some {template : Template} {own : Bool} {version : TemplateVersion}
    {db' : Database} (h : committed db template own version = some db') :
    (∀ a, a ∈ db'.templates.rows ↔ a ∈ db.templates.rows ∨ own = true ∧ a = template) ∧
      (∀ v, v ∈ db'.templateVersions.rows ↔ v ∈ db.templateVersions.rows ∨ v = version) ∧
      ∀ id, version.template ≠ id → latestNumber db' id = latestNumber db id := by
  unfold committed at h
  obtain ⟨templates, htemplates, h⟩ := Option.bind_eq_some_iff.mp h
  obtain ⟨versions, hversions, rfl⟩ := Option.map_eq_some_iff.mp h
  refine ⟨fun a => ?_, fun v => db.templateVersions.mem_insert hversions,
    fun id hid => Templates.latestNumber_insert hversions templates hid⟩
  cases own
  case true =>
    rw [if_pos rfl] at htemplates
    simp [db.templates.mem_insert htemplates]
  case false =>
    cases htemplates
    simp

theorem held_of_next {template : Template} {number : Nat}
    (h : pc.next = some (template, false, number)) : pc.held = some template := by
  cases pc with
  | numbered _ own _ =>
      cases h
      rfl
  | versioned _ own _ =>
      cases h
      rfl
  | _ => cases h

/-- An open transaction can live with the commit of another one. -/
theorem Sound.of_commit {template : Template} {own : Bool} {version : TemplateVersion}
    {db' : Database} (h : Sound db tx) (hpc : tx.pc = .versioned template own version)
    (hcommit : committed db template own version = some db') (h' : Sound db tx')
    (hapart : Apart tx tx') : Sound db' tx' := by
  obtain ⟨htemplates, hversions, hlatest⟩ := committed_eq_some hcommit
  constructor
  case held =>
    intro t ht
    exact ⟨(htemplates t).mpr (.inl (h'.held t ht).1), (h'.held t ht).2⟩
  case newTemplate =>
    refine fun t ht => ⟨(h'.newTemplate t ht).1, fun a ha => ?_⟩
    rcases (htemplates a).mp ha with hold | ⟨rfl, rfl⟩
    · exact (h'.newTemplate t ht).2 a hold
    · exact hapart.newTemplate _ t (by rw [hpc]; rfl) ht
  case next =>
    intro t own' number hnext
    rw [h'.next t own' number hnext]
    cases own'
    case true => rfl
    case false =>
      -- the row of the number is locked, so the commit is one for another template
      have hheld := held_of_next hnext
      have hversion := h.text _ _ _ hpc
      rw [hlatest]
      rw [hversion]
      cases own
      case true =>
        exact (((h.newTemplate template (by rw [hpc]; rfl)).2 t (h'.held t hheld).1).1).symm
      case false => exact hapart.held template t (by rw [hpc]; rfl) hheld
  case newVersion =>
    intro v hv a ha
    rcases (hversions a).mp ha with hold | rfl
    · exact h'.newVersion v hv a hold
    · exact hapart.newVersion _ v (by rw [hpc]; rfl) hv
  case text => exact h'.text

theorem Sound.of_destroy {id : TemplateId} {now : Time} (h : Sound db tx)
    (hunlocked : ∀ t, tx.pc.held = some t → t.id ≠ id) :
    Sound (Templates.destroy db id now) tx where
  held t ht := by
    obtain ⟨hmem, hrest⟩ := h.held t ht
    refine ⟨db.templates.mem_update.mpr ⟨t, hmem, ?_⟩, hrest⟩
    rw [if_neg (by simpa using hunlocked t ht)]
  newTemplate t ht := by
    obtain ⟨hnew, hfits⟩ := h.newTemplate t ht
    exact ⟨hnew, db.templates.compatible_update hfits⟩
  next := h.next
  newVersion := h.newVersion
  text := h.text

/-- What a step of a `create` can do: how it leaves the transaction, and what is committed. -/
inductive UpsertStep (s : TemplateStore) (tx : UpsertTx) :
    UpsertAction → UpsertPc → Database → Prop where
  | absent (pc : tx.pc = .begun) (missing : aliveNamed s.db tx.request.name = none) :
      UpsertStep s tx .select .absent s.db
  | blocked (template : Template) (pc : tx.pc = .begun)
      (row : aliveNamed s.db tx.request.name = some template)
      (locked : s.locked template.id = true) :
      UpsertStep s tx .select (.waiting template.id) s.db
  | read (template : Template) (pc : tx.pc = .begun)
      (row : aliveNamed s.db tx.request.name = some template)
      (unlocked : s.locked template.id = false) :
      UpsertStep s tx .select (found tx.request template) s.db
  | woken (template : Template) (pc : tx.pc = .waiting template.id)
      (row : aliveNamed s.db tx.request.name = some template)
      (unlocked : s.locked template.id = false) :
      UpsertStep s tx .wake (found tx.request template) s.db
  | lost (id : TemplateId) (pc : tx.pc = .waiting id)
      (missing : ∀ a, aliveNamed s.db tx.request.name = some a → a.id ≠ id)
      (unlocked : s.locked id = false) : UpsertStep s tx .wake .absent s.db
  | inserted (id : TemplateId) (pc : tx.pc = .absent)
      (granted : s.db.templates.reserve s.newTemplates (newTemplate tx.request id) = .granted) :
      UpsertStep s tx (.insertTemplate id) (.numbered (newTemplate tx.request id) true 1) s.db
  | taken (id : TemplateId) (pc : tx.pc = .absent)
      (violates : s.db.templates.reserve s.newTemplates (newTemplate tx.request id) = .violates) :
      UpsertStep s tx (.insertTemplate id) .aborted s.db
  | numbered (template : Template) (pc : tx.pc = .holding template) :
      UpsertStep s tx .number (.numbered template false (latestNumber s.db template.id + 1)) s.db
  | versioned (template : Template) (own : Bool) (number : Nat) (id : TemplateVersionId)
      (pc : tx.pc = .numbered template own number)
      (granted : s.db.templateVersions.reserve s.newVersions
        (newVersion tx.request template id number) = .granted) :
      UpsertStep s tx (.insertVersion id)
        (.versioned template own (newVersion tx.request template id number)) s.db
  | clashed (template : Template) (own : Bool) (number : Nat) (id : TemplateVersionId)
      (pc : tx.pc = .numbered template own number)
      (violates : s.db.templateVersions.reserve s.newVersions
        (newVersion tx.request template id number) = .violates) :
      UpsertStep s tx (.insertVersion id) .aborted s.db
  | committed (template : Template) (own : Bool) (version : TemplateVersion) (db : Database)
      (pc : tx.pc = .versioned template own version)
      (commit : TemplateStore.committed s.db template own version = some db) :
      UpsertStep s tx .commit (.created version) db
  | aborted (running : tx.pc.running = true) : UpsertStep s tx .abort .aborted s.db

theorem aliveNamed_of_find? {id : TemplateId} {template : Template}
    (hfind : db.templates.find? id = some template) {name : String}
    (hmatch : (template.alive && template.name == name) = true) :
    aliveNamed db name = some template := by
  rw [Bool.and_eq_true, beq_iff_eq] at hmatch
  exact aliveNamed_eq_some.mpr ⟨((db.templates.find?_eq_some).mp hfind).1,
    Template.aliveName_of_alive hmatch.1 hmatch.2⟩

theorem find?_of_aliveNamed {name : String} {template : Template}
    (h : aliveNamed db name = some template) :
    db.templates.find? template.id = some template ∧
      (template.alive && template.name == name) = true := by
  have hmatch := List.find?_some h
  exact ⟨(db.templates.find?_eq_some).mpr ⟨(aliveNamed_eq_some.mp h).1, rfl⟩, hmatch⟩

theorem upsertStep_of_stepUpsert {action : UpsertAction}
    (h : s.stepUpsert c tx action tx.pc = some t) :
    ∃ pc db, UpsertStep s tx action pc db ∧ t = (s.setUpsert c tx pc).setDb db := by
  cases action with
  | select =>
      cases hpc : tx.pc with
      | begun =>
          rw [hpc] at h
          dsimp only [stepUpsert] at h
          split at h
          next hmissing => exact ⟨_, _, .absent hpc hmissing, (Option.some.inj h).symm⟩
          next template hrow =>
            split at h
            next hlocked =>
              exact ⟨_, _, .blocked template hpc hrow hlocked, (Option.some.inj h).symm⟩
            next hlocked =>
              exact ⟨_, _, .read template hpc hrow (by simpa using hlocked),
                (Option.some.inj h).symm⟩
      | _ => simp [hpc, stepUpsert] at h
  | wake =>
      cases hpc : tx.pc with
      | waiting id =>
          rw [hpc] at h
          dsimp only [stepUpsert] at h
          split at h
          next => contradiction
          next hlocked =>
            rw [Bool.not_eq_true] at hlocked
            split at h
            next hnone =>
              refine ⟨_, _, .lost id hpc (fun a ha hid => ?_) hlocked, (Option.some.inj h).symm⟩
              exact (s.db.templates.find?_eq_none).mp hnone a (aliveNamed_eq_some.mp ha).1 hid
            next template hfind =>
              split at h
              next hmatch =>
                obtain rfl := ((s.db.templates.find?_eq_some).mp hfind).2
                exact ⟨_, _, .woken template hpc (aliveNamed_of_find? hfind hmatch) hlocked,
                  (Option.some.inj h).symm⟩
              next hmatch =>
                refine ⟨_, _, .lost id hpc (fun a ha hid => hmatch ?_) hlocked,
                  (Option.some.inj h).symm⟩
                obtain ⟨hfind', hmatch'⟩ := find?_of_aliveNamed ha
                rw [hid, hfind] at hfind'
                rw [Option.some.inj hfind']
                exact hmatch'
      | _ => simp [hpc, stepUpsert] at h
  | insertTemplate id =>
      cases hpc : tx.pc with
      | absent =>
          rw [hpc] at h
          dsimp only [stepUpsert] at h
          split at h
          next hgranted => exact ⟨_, _, .inserted id hpc hgranted, (Option.some.inj h).symm⟩
          next => contradiction
          next hviolates => exact ⟨_, _, .taken id hpc hviolates, (Option.some.inj h).symm⟩
      | _ => simp [hpc, stepUpsert] at h
  | number =>
      cases hpc : tx.pc with
      | holding template =>
          rw [hpc] at h
          exact ⟨_, _, .numbered template hpc, (Option.some.inj h).symm⟩
      | _ => simp [hpc, stepUpsert] at h
  | insertVersion id =>
      cases hpc : tx.pc with
      | numbered template own number =>
          rw [hpc] at h
          dsimp only [stepUpsert] at h
          split at h
          next hgranted =>
            exact ⟨_, _, .versioned template own number id hpc hgranted, (Option.some.inj h).symm⟩
          next => contradiction
          next hviolates =>
            exact ⟨_, _, .clashed template own number id hpc hviolates, (Option.some.inj h).symm⟩
      | _ => simp [hpc, stepUpsert] at h
  | commit =>
      cases hpc : tx.pc with
      | versioned template own version =>
          rw [hpc] at h
          obtain ⟨db, hcommit, heq⟩ := Option.map_eq_some_iff.mp h
          exact ⟨_, _, .committed template own version db hpc hcommit, heq.symm⟩
      | _ => simp [hpc, stepUpsert] at h
  | abort =>
      dsimp only [stepUpsert] at h
      split at h
      next hrunning => exact ⟨_, _, .aborted hrunning, (Option.some.inj h).symm⟩
      next => contradiction

theorem UpsertStep.stepUpsert {action : UpsertAction} {pc : UpsertPc} {db : Database}
    (h : UpsertStep s tx action pc db) (c : Nat) :
    s.stepUpsert c tx action tx.pc = some ((s.setUpsert c tx pc).setDb db) := by
  cases h with
  | absent hpc hmissing =>
      simp [TemplateStore.stepUpsert, hpc, hmissing]
      rfl
  | blocked template hpc hrow hlocked =>
      simp [TemplateStore.stepUpsert, hpc, hrow, hlocked]
      rfl
  | read template hpc hrow hunlocked =>
      simp [TemplateStore.stepUpsert, hpc, hrow, hunlocked]
      rfl
  | woken template hpc hrow hunlocked =>
      obtain ⟨hfind, hmatch⟩ := find?_of_aliveNamed hrow
      simp only [TemplateStore.stepUpsert, hpc, hunlocked, hfind, hmatch]
      rfl
  | lost id hpc hmissing hunlocked =>
      rw [hpc]
      dsimp only [TemplateStore.stepUpsert]
      rw [if_neg (by simp [hunlocked])]
      split
      next => rfl
      next template hfind =>
        refine if_neg fun hmatch => ?_
        exact hmissing template (aliveNamed_of_find? hfind hmatch)
          ((s.db.templates.find?_eq_some).mp hfind).2
  | inserted id hpc hgranted =>
      simp [TemplateStore.stepUpsert, hpc, hgranted]
      rfl
  | taken id hpc hviolates =>
      simp [TemplateStore.stepUpsert, hpc, hviolates]
      rfl
  | numbered template hpc =>
      simp [TemplateStore.stepUpsert, hpc]
      rfl
  | versioned template own number id hpc hgranted =>
      simp [TemplateStore.stepUpsert, hpc, hgranted]
      rfl
  | clashed template own number id hpc hviolates =>
      simp [TemplateStore.stepUpsert, hpc, hviolates]
      rfl
  | committed template own version db hpc hcommit =>
      simp [TemplateStore.stepUpsert, hpc, hcommit]
  | aborted hrunning =>
      simp [TemplateStore.stepUpsert, hrunning]
      rfl

/-- Everything a step can do. -/
inductive Move (s t : TemplateStore) : Prop where
  | opened (tx : UpsertTx) (idle : Idle tx.pc) (answer : tx.pc.answer = none)
      (eq : t = { s with upserts := Pool.spawn s.upserts tx })
  | idled (c : Nat) (tx : UpsertTx) (pc : UpsertPc) (mem : s.upserts[c]? = some tx)
      (running : tx.pc.running = true) (idle : Idle pc) (answer : pc.answer = none)
      (eq : t = s.setUpsert c tx pc)
  | looked (c : Nat) (tx : UpsertTx) (template : Template) (mem : s.upserts[c]? = some tx)
      (running : tx.pc.running = true) (row : template ∈ s.db.templates.rows)
      (name : template.aliveName = some tx.request.name)
      (unlocked : s.locked template.id = false)
      (eq : t = s.setUpsert c tx (TemplateStore.found tx.request template))
  | inserted (c : Nat) (tx : UpsertTx) (id : TemplateId) (mem : s.upserts[c]? = some tx)
      (running : tx.pc.running = true)
      (granted : s.db.templates.reserve s.newTemplates (newTemplate tx.request id) = .granted)
      (eq : t = s.setUpsert c tx (.numbered (newTemplate tx.request id) true 1))
  | numbered (c : Nat) (tx : UpsertTx) (template : Template) (mem : s.upserts[c]? = some tx)
      (pc : tx.pc = .holding template)
      (eq : t = s.setUpsert c tx (.numbered template false (latestNumber s.db template.id + 1)))
  | versioned (c : Nat) (tx : UpsertTx) (template : Template) (own : Bool) (number : Nat)
      (id : TemplateVersionId) (mem : s.upserts[c]? = some tx)
      (pc : tx.pc = .numbered template own number)
      (granted : s.db.templateVersions.reserve s.newVersions
        (newVersion tx.request template id number) = .granted)
      (eq : t = s.setUpsert c tx
        (.versioned template own (newVersion tx.request template id number)))
  | committed (c : Nat) (tx : UpsertTx) (template : Template) (own : Bool)
      (version : TemplateVersion) (db : Database) (mem : s.upserts[c]? = some tx)
      (pc : tx.pc = .versioned template own version)
      (commit : TemplateStore.committed s.db template own version = some db)
      (eq : t = (s.setUpsert c tx (.created version)).setDb db)
  | elsewhere (upserts : t.upserts = s.upserts) (db : t.db = s.db)
  | destroyed (id : TemplateId) (now : Time) (unlocked : s.locked id = false)
      (upserts : t.upserts = s.upserts) (db : t.db = Templates.destroy s.db id now)

theorem UpsertStep.running {action : UpsertAction} (h : UpsertStep s tx action pc db) :
    tx.pc.running = true := by
  cases h with
  | aborted hrunning => exact hrunning
  | absent hpc _ | blocked _ hpc _ _ | read _ hpc _ _ | woken _ hpc _ _ | lost _ hpc _ _
  | inserted _ hpc _ | taken _ hpc _ | numbered _ hpc | versioned _ _ _ _ hpc _
  | clashed _ _ _ _ hpc _ | committed _ _ _ _ hpc _ => rw [hpc]; rfl

theorem stepUpsert_move {action : UpsertAction} (htx : s.upserts[c]? = some tx)
    (h : s.stepUpsert c tx action tx.pc = some t) : Move s t := by
  obtain ⟨pc, db, hstep, rfl⟩ := upsertStep_of_stepUpsert h
  have hrunning := hstep.running
  cases hstep with
  | absent _ _ => exact .idled c tx _ htx hrunning ⟨rfl, rfl, rfl, rfl⟩ rfl rfl
  | blocked _ _ _ _ => exact .idled c tx _ htx hrunning ⟨rfl, rfl, rfl, rfl⟩ rfl rfl
  | read template _ hrow hunlocked =>
      obtain ⟨hmem, hname⟩ := aliveNamed_eq_some.mp hrow
      exact .looked c tx template htx hrunning hmem hname hunlocked rfl
  | woken template _ hrow hunlocked =>
      obtain ⟨hmem, hname⟩ := aliveNamed_eq_some.mp hrow
      exact .looked c tx template htx hrunning hmem hname hunlocked rfl
  | lost _ _ _ _ => exact .idled c tx _ htx hrunning ⟨rfl, rfl, rfl, rfl⟩ rfl rfl
  | inserted id _ hgranted => exact .inserted c tx id htx hrunning hgranted rfl
  | taken _ _ _ => exact .idled c tx _ htx hrunning ⟨rfl, rfl, rfl, rfl⟩ rfl rfl
  | numbered template hpc => exact .numbered c tx template htx hpc rfl
  | versioned template own number id hpc hgranted =>
      exact .versioned c tx template own number id htx hpc hgranted rfl
  | clashed _ _ _ _ _ _ => exact .idled c tx _ htx hrunning ⟨rfl, rfl, rfl, rfl⟩ rfl rfl
  | committed template own version db hpc hcommit =>
      exact .committed c tx template own version db htx hpc hcommit rfl
  | aborted _ => exact .idled c tx _ htx hrunning ⟨rfl, rfl, rfl, rfl⟩ rfl rfl

theorem stepDestroy_move {d : Nat} {tx : DestroyTx} {action : DestroyAction}
    (h : s.stepDestroy d tx action tx.pc = some t) : Move s t := by
  unfold stepDestroy at h
  split at h
  next =>
    split at h <;> exact .elsewhere (by cases h; rfl) (by cases h; rfl)
  next now template _ =>
    split at h
    next => contradiction
    next hlocked =>
      cases h
      exact .destroyed template.id now (by simpa using hlocked) rfl rfl
  next => exact .elsewhere (by cases h; rfl) (by cases h; rfl)
  next => exact .elsewhere (by cases h; rfl) (by cases h; rfl)
  next => contradiction

theorem step_move {a : Action} (h : step s a = some t) : Move s t := by
  cases a with
  | begin request =>
      exact .opened ⟨request, .begun⟩ ⟨rfl, rfl, rfl, rfl⟩ rfl (Option.some.inj h).symm
  | upsert c action =>
      obtain ⟨tx, htx, h⟩ := Option.bind_eq_some_iff.mp h
      exact stepUpsert_move htx h
  | beginDestroy name =>
      cases h
      exact .elsewhere rfl rfl
  | destroy d action =>
      obtain ⟨tx, _, h⟩ := Option.bind_eq_some_iff.mp h
      exact stepDestroy_move h

theorem InFlight.spawn (h : InFlight s) (hidle : Idle tx.pc) :
    InFlight { s with upserts := Pool.spawn s.upserts tx } where
  sound := Pool.forall_spawn hidle.sound h.sound
  apart := Pool.forall_pairs_spawn (fun _ _ => Apart.symm) h.apart fun _ _ _ => hidle.apart

/-- The unique name is free among the committed rows and the pending ones. -/
theorem InFlight.insertTemplate (h : InFlight s) (htx : s.upserts[c]? = some tx)
    {id : TemplateId}
    (hgranted : s.db.templates.reserve s.newTemplates (newTemplate tx.request id) = .granted) :
    InFlight (s.setUpsert c tx (.numbered (newTemplate tx.request id) true 1)) := by
  obtain ⟨hpending, hrows⟩ := (Table.reserve_granted _).mp hgranted
  refine h.setUpsert htx ?_ fun c' tx' htx' _ => ?_
  · constructor
    case newTemplate =>
      rintro t ⟨⟩
      exact ⟨rfl, hrows⟩
    case next =>
      rintro t own number ⟨⟩
      rfl
    all_goals nofun
  · constructor
    case newTemplate =>
      rintro t t' ⟨⟩ ht'
      exact (hpending t' (mem_newTemplates htx' ht')).symm
    all_goals nofun

/-- The number is read under the lock. -/
theorem InFlight.number (h : InFlight s) (htx : s.upserts[c]? = some tx) {template : Template}
    (hpc : tx.pc = .holding template) :
    InFlight (s.setUpsert c tx (.numbered template false (latestNumber s.db template.id + 1))) := by
  refine h.setUpsert htx ?_ fun c' tx' htx' hne => ?_
  · constructor
    case held =>
      rintro t ⟨⟩
      exact (h.sound c tx htx).held template (by rw [hpc]; rfl)
    case next =>
      rintro t own number ⟨⟩
      rfl
    all_goals nofun
  · constructor
    case held =>
      rintro t t' ⟨⟩ ht'
      exact (h.apart c c' tx tx' htx htx' hne).held template t' (by rw [hpc]; rfl) ht'
    all_goals nofun

theorem held_versioned {template : Template} {own : Bool} {number : Nat}
    (hpc : tx.pc = .numbered template own number) (version : TemplateVersion) :
    (UpsertPc.versioned template own version).held = tx.pc.held := by
  rw [hpc]
  cases own <;> rfl

theorem newTemplate_versioned {template : Template} {own : Bool} {number : Nat}
    (hpc : tx.pc = .numbered template own number) (version : TemplateVersion) :
    (UpsertPc.versioned template own version).newTemplate = tx.pc.newTemplate := by
  rw [hpc]
  cases own <;> rfl

/-- What was true of the number is true of the row that carries it. -/
theorem InFlight.insertVersion (h : InFlight s) (htx : s.upserts[c]? = some tx)
    {template : Template} {own : Bool} {number : Nat} {id : TemplateVersionId}
    (hpc : tx.pc = .numbered template own number)
    (hgranted : s.db.templateVersions.reserve s.newVersions
      (newVersion tx.request template id number) = .granted) :
    InFlight (s.setUpsert c tx
      (.versioned template own (newVersion tx.request template id number))) := by
  obtain ⟨hpending, hrows⟩ := (Table.reserve_granted _).mp hgranted
  have hsound := h.sound c tx htx
  have hheld := held_versioned hpc (newVersion tx.request template id number)
  have hnew := newTemplate_versioned hpc (newVersion tx.request template id number)
  refine h.setUpsert htx ?_ fun c' tx' htx' hne => ?_
  · constructor
    case held => exact fun t ht => hsound.held t (hheld ▸ ht)
    case newTemplate => exact fun t ht => hsound.newTemplate t (hnew ▸ ht)
    case next =>
      rintro t own' number' ⟨⟩
      exact hsound.next template own number (by rw [hpc]; rfl)
    case newVersion =>
      rintro v ⟨⟩
      exact hrows
    case text =>
      rintro t own' v ⟨⟩
      rfl
  · have hapart := h.apart c c' tx tx' htx htx' hne
    constructor
    case held => exact fun t t' ht ht' => hapart.held t t' (hheld ▸ ht) ht'
    case newTemplate => exact fun t t' ht ht' => hapart.newTemplate t t' (hnew ▸ ht) ht'
    case newVersion =>
      rintro v v' ⟨⟩ hv'
      exact (hpending v' (mem_newVersions htx' hv')).symm

theorem InFlight.commit (h : InFlight s) (htx : s.upserts[c]? = some tx) {template : Template}
    {own : Bool} {version : TemplateVersion} (hpc : tx.pc = .versioned template own version)
    (hcommit : committed s.db template own version = some db) :
    InFlight ((s.setUpsert c tx (.created version)).setDb db) := by
  refine (h.setIdle htx ⟨rfl, rfl, rfl, rfl⟩).setDb fun c' tx' htx' => ?_
  rw [TemplateStore.setUpsert, Pool.get_set htx] at htx'
  split at htx'
  next =>
    cases htx'
    exact Idle.sound ⟨rfl, rfl, rfl, rfl⟩
  next hne =>
    exact (h.sound c tx htx).of_commit hpc hcommit (h.sound c' tx' htx')
      (h.apart c c' tx tx' htx htx' (Ne.symm hne))

theorem InFlight.move (h : InFlight s) (hmove : Move s t) : InFlight t := by
  cases hmove with
  | opened tx hidle _ heq => exact heq ▸ h.spawn hidle
  | idled c tx pc htx _ hidle _ heq => exact heq ▸ h.setIdle htx hidle
  | looked c tx template htx _ hmem hname hunlocked heq =>
      exact heq ▸ h.found htx hmem hname hunlocked
  | inserted c tx id htx _ hgranted heq => exact heq ▸ h.insertTemplate htx hgranted
  | numbered c tx template htx hpc heq => exact heq ▸ h.number htx hpc
  | versioned c tx template own number id htx hpc hgranted heq =>
      exact heq ▸ h.insertVersion htx hpc hgranted
  | committed c tx template own version db htx hpc hcommit heq =>
      exact heq ▸ h.commit htx hpc hcommit
  | elsewhere hupserts hdb =>
      constructor
      · rw [hupserts, hdb]
        exact h.sound
      · rw [hupserts]
        exact h.apart
  | destroyed id now hunlocked hupserts hdb =>
      constructor
      · rw [hupserts, hdb]
        exact fun c tx htx => (h.sound c tx htx).of_destroy fun t ht =>
          not_held_of_unlocked hunlocked htx ht
      · rw [hupserts]
        exact h.apart

theorem inFlight_init : InFlight init where
  sound c tx htx := by simp [init] at htx
  apart c c' tx tx' htx := by simp [init] at htx

theorem inFlight_of_reachable (h : Reachable s) : InFlight s :=
  Transition.Reaches.invariant h InFlight inFlight_init fun _ _ _ hinv _ hstep =>
    hinv.move (step_move hstep)

theorem UpsertStep.step {action : UpsertAction} (h : UpsertStep s tx action pc db)
    (htx : s.upserts[c]? = some tx) :
    TemplateStore.step s (.upsert c action) = some ((s.setUpsert c tx pc).setDb db) := by
  rw [TemplateStore.step, htx]
  exact h.stepUpsert c

theorem Sound.exists_committed {template : Template} {own : Bool} {version : TemplateVersion}
    (h : Sound db tx) (hpc : tx.pc = .versioned template own version) :
    ∃ db', committed db template own version = some db' := by
  obtain ⟨versions, hversions⟩ := db.templateVersions.exists_insert
    (h.newVersion version (by rw [hpc]; rfl))
  obtain ⟨templates, htemplates⟩ : ∃ templates,
      (if own then db.templates.insert? template else some db.templates) = some templates := by
    cases own
    case true =>
      exact db.templates.exists_insert (h.newTemplate template (by rw [hpc]; rfl)).2
    case false => exact ⟨_, rfl⟩
  simp [committed, htemplates, hversions]

/-- A transaction that has made its inserts can commit: no constraint is left to fail. -/
theorem commit_enabled (h : Reachable s) (htx : s.upserts[c]? = some tx) {template : Template}
    {own : Bool} {version : TemplateVersion} (hpc : tx.pc = .versioned template own version) :
    ∃ t, step s (.upsert c .commit) = some t := by
  obtain ⟨db, hcommit⟩ := ((inFlight_of_reachable h).sound c tx htx).exists_committed hpc
  exact ⟨_, (UpsertStep.committed template own version db hpc hcommit).step htx⟩

end TemplateStore

end NotifyRelay
