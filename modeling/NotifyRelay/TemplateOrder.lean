import NotifyRelay.TemplateHistory

/-! Runs of `TemplateViewSet.create` in which no two requests insert a template of one name. A
request is answered by its commit or when it reads a template of another channel, and that is
the moment at which it could have run alone. -/
namespace NotifyRelay

open Templates

def UpsertPc.creating : UpsertPc → Bool
  | .absent | .numbered _ true _ | .versioned _ true _ => true
  | _ => false

namespace TemplateStore

/-- The writes of a `create` and its answer. -/
def append (db : Database) (request : UpsertRequest) (template : Template) (own : Bool)
    (number : Nat) (versionId : TemplateVersionId) : UpsertPc × Database :=
  let version := newVersion request template versionId number
  match committed db template own version with
  | none => (.aborted, db)
  | some db => (.created version, db)

/-- `TemplateViewSet.create` with no other request beside it: its answer, and what it leaves. -/
def create (db : Database) (request : UpsertRequest) (templateId : TemplateId)
    (versionId : TemplateVersionId) : UpsertPc × Database :=
  match aliveNamed db request.name with
  | none => append db request (newTemplate request templateId) true 1 versionId
  | some template =>
      if template.channel ≠ request.channel then (found request template, db)
      else append db request template false (latestNumber db template.id + 1) versionId

/-- What one request does alone, with the primary keys the database gives it. -/
def Alone (db : Database) (op : UpsertRequest × UpsertPc) (db' : Database) : Prop :=
  ∃ templateId versionId, create db op.1 templateId versionId = (op.2, db')

/-- The foreign key of the versions. -/
def VersionsOwned (db : Database) : Prop :=
  ∀ v ∈ db.templateVersions.rows, ∃ a ∈ db.templates.rows, a.id = v.template

/-- No request has come yet. -/
def opened (db : Database) : TemplateStore := ⟨db, [], []⟩

/-- Steps of `create` requests alone. The database gives every new row a key of its own. -/
def Creates (s : TemplateStore) : Action → Prop
  | .begin _ => True
  | .upsert _ (.insertTemplate id) =>
      (∀ a ∈ s.db.templates.rows, a.id ≠ id) ∧ ∀ a ∈ s.newTemplates, a.id ≠ id
  | .upsert _ (.insertVersion id) =>
      (∀ v ∈ s.db.templateVersions.rows, v.id ≠ id) ∧ ∀ v ∈ s.newVersions, v.id ≠ id
  | .upsert _ .abort => False
  | .upsert _ _ => True
  | .beginDestroy _ => False
  | .destroy _ _ => False

/-- No request finds that its name is free while another one is about to use it. -/
def Unraced (s : TemplateStore) : Action → Prop
  | .upsert c .select => ∀ tx ∈ s.upserts[c]?, aliveNamed s.db tx.request.name = none →
      ∀ tx' ∈ s.upserts, tx'.pc.creating = true → tx'.request.name ≠ tx.request.name
  | _ => True

def Calm (s : TemplateStore) (a : Action) : Prop := Creates s a ∧ Unraced s a

abbrev CalmReaches : TemplateStore → TemplateStore → Prop :=
  Transition.Reaches (Transition.graph step) Calm

/-- The answer a request gets: 201 with a version of its own where its channel is the channel
of the template of its name, and 409 where it is not. The `latest_version` in the body of a 201
is read after the commit, and is left out. -/
def Answered (db : Database) (tx : UpsertTx) : Prop :=
  ∃ a, aliveNamed db tx.request.name = some a ∧
    if a.channel = tx.request.channel then
      ∃ v ∈ db.templateVersions.rows, tx.pc = .created v ∧
        v = newVersion tx.request a v.id v.version
    else tx.pc = .conflict
      s!"template '{a.name}' already exists for channel {a.channel.value}"

variable {s t : TemplateStore} {tx tx' : UpsertTx} {pc : UpsertPc} {c : Nat} {db db' : Database}

theorem append_snd (db : Database) (request : UpsertRequest) (template : Template) (own : Bool)
    (number : Nat) (versionId : TemplateVersionId) :
    (append db request template own number versionId).2 =
      (committed db template own (newVersion request template versionId number)).getD db := by
  unfold append
  dsimp only
  cases committed db template own (newVersion request template versionId number) <;> rfl

/-- What `create` leaves is what the transaction as a whole leaves. -/
theorem create_snd (db : Database) (request : UpsertRequest) (templateId : TemplateId)
    (versionId : TemplateVersionId) :
    (create db request templateId versionId).2 =
      (Templates.upsert db request templateId versionId).getD db := by
  cases hrow : aliveNamed db request.name with
  | none =>
      have hfind := hrow
      unfold aliveNamed at hfind
      rw [create, hrow, Templates.upsert, hfind]
      refine (append_snd ..).trans ?_
      rw [committed, if_pos rfl]
      simp only [Option.map_eq_bind]
      rfl
  | some template =>
      have hfind := hrow
      unfold aliveNamed at hfind
      rw [create, hrow, Templates.upsert, hfind]
      dsimp only
      split
      next => rfl
      next =>
        rw [append_snd, committed, if_neg Bool.false_ne_true]
        rfl

theorem alone_of_channel_ne {request : UpsertRequest} {template : Template}
    (hrow : aliveNamed db request.name = some template)
    (hchannel : template.channel ≠ request.channel) :
    Alone db (request, found request template) db := by
  refine ⟨0, 0, ?_⟩
  rw [create, hrow]
  exact if_pos hchannel

/-- The commit of a transaction is the request alone, on what is committed by then. -/
theorem alone_of_committed {template : Template} {own : Bool} {version : TemplateVersion}
    (h : Sound db tx) (hpc : tx.pc = .versioned template own version)
    (hcommit : committed db template own version = some db') :
    Alone db (tx.request, .created version) db' := by
  have hnumber := h.next template own version.version (by rw [hpc]; rfl)
  have happend : append db tx.request template own version.version version.id =
      (.created version, db') := by
    rw [append, ← h.text _ _ _ hpc, hcommit]
  refine ⟨template.id, version.id, ?_⟩
  rw [hnumber] at happend
  cases own with
  | true =>
      rw [create, h.aliveNamed_eq_none (by rw [hpc]; rfl),
        ← (h.newTemplate template (by rw [hpc]; rfl)).1]
      exact happend
  | false =>
      obtain ⟨hmem, hname, hchannel⟩ := h.held template (by rw [hpc]; rfl)
      rw [create, aliveNamed_eq_some.mpr ⟨hmem, hname⟩]
      exact (if_neg (not_not.mpr hchannel)).trans happend

/-- Where a request stands towards the alive template of its name. -/
structure Placed (db : Database) (tx : UpsertTx) : Prop where
  waiting : ∀ id, tx.pc = .waiting id → ∃ a, aliveNamed db tx.request.name = some a ∧ a.id = id
  creating : tx.pc.creating = true → aliveNamed db tx.request.name = none
  answered : tx.pc.running = false → Answered db tx

/-- Two requests that do not race for a name and do not share a version. -/
structure Distinct (tx tx' : UpsertTx) : Prop where
  name : tx.pc.creating = true → tx'.pc.creating = true → tx.request.name ≠ tx'.request.name
  answer : ∀ v, tx.pc.answer = some v → tx'.pc.answer ≠ some v

/-- What holds of every state in which nobody races for a name. -/
structure Orderly (s : TemplateStore) : Prop where
  inFlight : InFlight s
  owner : VersionsOwned s.db
  placed : ∀ (c : Nat) (tx : UpsertTx), s.upserts[c]? = some tx → Placed s.db tx
  distinct : ∀ (c c' : Nat) (tx tx' : UpsertTx), s.upserts[c]? = some tx →
    s.upserts[c']? = some tx' → c ≠ c' → Distinct tx tx'

theorem Distinct.symm (h : Distinct tx tx') : Distinct tx' tx where
  name hpc hpc' := (h.name hpc' hpc).symm
  answer v hv hv' := h.answer v hv' hv

theorem inFlight_opened (db : Database) : InFlight (opened db) where
  sound c tx htx := by simp [opened] at htx
  apart c c' tx tx' htx := by simp [opened] at htx

theorem orderly_opened (howner : VersionsOwned db) : Orderly (opened db) where
  inFlight := inFlight_opened db
  owner := howner
  placed c tx htx := by simp [opened] at htx
  distinct c c' tx tx' htx := by simp [opened] at htx

theorem found_not_creating (request : UpsertRequest) (template : Template) :
    (found request template).creating = false := by
  unfold found
  split <;> rfl

theorem found_ne_aborted (request : UpsertRequest) (template : Template) :
    found request template ≠ .aborted := by
  unfold found
  split <;> nofun

theorem placed_found {request : UpsertRequest} {template : Template}
    (hrow : aliveNamed db request.name = some template) :
    Placed db ⟨request, found request template⟩ := by
  unfold found
  split
  next hchannel =>
    refine ⟨nofun, nofun, fun _ => ⟨template, hrow, ?_⟩⟩
    rw [if_neg hchannel]
  next => exact ⟨nofun, nofun, nofun⟩

theorem aliveNamed_of_committed {template : Template} {own : Bool} {version : TemplateVersion}
    (hcommit : committed db template own version = some db') {name : String} {a : Template}
    (h : aliveNamed db name = some a) : aliveNamed db' name = some a := by
  obtain ⟨hmem, hname⟩ := aliveNamed_eq_some.mp h
  exact aliveNamed_eq_some.mpr ⟨((committed_eq_some hcommit).1 a).mpr (.inl hmem), hname⟩

/-- What was answered stays true of the tables, and another name stays free. -/
theorem Placed.of_committed {template : Template} {own : Bool} {version : TemplateVersion}
    (h : Placed db tx) (hcommit : committed db template own version = some db')
    (hname : own = true → tx.pc.creating = true → template.name ≠ tx.request.name) :
    Placed db' tx := by
  constructor
  case waiting =>
    intro id hpc
    obtain ⟨a, hrow, hid⟩ := h.waiting id hpc
    exact ⟨a, aliveNamed_of_committed hcommit hrow, hid⟩
  case creating =>
    intro hcreating
    refine aliveNamed_eq_none.mpr fun a ha hrow => ?_
    rcases ((committed_eq_some hcommit).1 a).mp ha with hold | ⟨hown, rfl⟩
    · exact aliveNamed_eq_none.mp (h.creating hcreating) a hold hrow
    · exact hname hown hcreating (Template.eq_of_aliveName hrow).2
  case answered =>
    intro hanswered
    obtain ⟨a, hrow, hanswer⟩ := h.answered hanswered
    refine ⟨a, aliveNamed_of_committed hcommit hrow, ?_⟩
    split at hanswer
    next hchannel =>
      obtain ⟨v, hv, hpc, htext⟩ := hanswer
      rw [if_pos hchannel]
      exact ⟨v, ((committed_eq_some hcommit).2.1 v).mpr (.inl hv), hpc, htext⟩
    next hchannel =>
      rw [if_neg hchannel]
      exact hanswer

/-- One transaction moves. -/
theorem Orderly.set (h : Orderly s) (htx : s.upserts[c]? = some tx)
    (hinFlight : InFlight ((s.setUpsert c tx pc).setDb db))
    (howner : VersionsOwned db)
    (hself : Placed db ⟨tx.request, pc⟩)
    (hothers : ∀ (c' : Nat) (tx' : UpsertTx), s.upserts[c']? = some tx' → c' ≠ c → Placed db tx')
    (hdistinct : ∀ (c' : Nat) (tx' : UpsertTx), s.upserts[c']? = some tx' → c' ≠ c →
      Distinct ⟨tx.request, pc⟩ tx') :
    Orderly ((s.setUpsert c tx pc).setDb db) where
  inFlight := hinFlight
  owner := howner
  placed := Pool.forall_set htx hself hothers
  distinct := Pool.forall_pairs_set (fun _ _ => Distinct.symm) htx h.distinct hdistinct

/-- One transaction looks at the template of its name. -/
theorem Orderly.look (h : Orderly s) (htx : s.upserts[c]? = some tx) {template : Template}
    (hinFlight : InFlight ((s.setUpsert c tx (found tx.request template)).setDb s.db))
    (hrow : aliveNamed s.db tx.request.name = some template) :
    Orderly ((s.setUpsert c tx (found tx.request template)).setDb s.db) := by
  refine h.set htx hinFlight h.owner (placed_found hrow)
    (fun c' tx' htx' _ => h.placed c' tx' htx') fun c' tx' htx' _ => ⟨?_, ?_⟩
  · exact fun hcreating => absurd hcreating (by rw [found_not_creating]; nofun)
  · exact fun v hv => absurd hv (by rw [found_answer]; nofun)

theorem newTemplate_compatible {request : UpsertRequest} {id : TemplateId}
    (hfresh : ∀ a ∈ db.templates.rows, a.id ≠ id) (hnone : aliveNamed db request.name = none) :
    ∀ a ∈ db.templates.rows, Compatible Template.id Template.aliveName a (newTemplate request id) :=
  fun a ha => ⟨hfresh a ha, .inr (aliveNamed_eq_none.mp hnone a ha)⟩

/-- A number that was read under the lock, or for a template no one else knows, is free. -/
theorem InFlight.newVersion_compatible (h : InFlight s) (howner : VersionsOwned s.db)
    (htx : s.upserts[c]? = some tx) {template : Template} {own : Bool} {number : Nat}
    (hpc : tx.pc = .numbered template own number) {id : TemplateVersionId}
    (hfresh : ∀ v ∈ s.db.templateVersions.rows, v.id ≠ id) :
    ∀ v ∈ s.db.templateVersions.rows, Compatible TemplateVersion.id TemplateVersion.number v
      (newVersion tx.request template id number) := by
  intro v hv
  have hsound := h.sound c tx htx
  have hnumber := hsound.next template own number (by rw [hpc]; rfl)
  refine ⟨hfresh v hv, .inr fun hsame => ?_⟩
  obtain ⟨htemplate, hversion⟩ := Prod.mk.inj (Option.some.inj hsame)
  change v.template = template.id at htemplate
  change v.version = number at hversion
  cases own with
  | true =>
      obtain ⟨a, ha, hid⟩ := howner v hv
      exact ((hsound.newTemplate template (by rw [hpc]; rfl)).2 a ha).1 (hid.trans htemplate)
  | false =>
      have hlatest := le_latestNumber hv
      rw [htemplate, hversion, hnumber, if_neg Bool.false_ne_true] at hlatest
      exact Nat.not_succ_le_self _ hlatest

/-- No constraint is left to fail. -/
theorem Orderly.ne_aborted (h : Orderly s) (htx : s.upserts[c]? = some tx) {action : UpsertAction}
    (hcreates : Creates s (.upsert c action)) (hstep : UpsertStep s tx action pc db) :
    pc ≠ .aborted := by
  cases hstep with
  | taken id hpc hviolates =>
      have hnone := (h.placed c tx htx).creating (by rw [hpc]; rfl)
      exact absurd (newTemplate_compatible hcreates.1 hnone)
        (Table.not_compatible_of_violates _ hviolates)
  | clashed template own number id hpc hviolates =>
      exact absurd (h.inFlight.newVersion_compatible h.owner htx hpc hcreates.1)
        (Table.not_compatible_of_violates _ hviolates)
  | aborted _ => exact hcreates.elim
  | read template _ _ _ => exact found_ne_aborted _ _
  | woken template _ _ _ => exact found_ne_aborted _ _
  | _ => nofun

/-- The template a request has committed a version of. -/
theorem Sound.aliveNamed_of_committed {template : Template} {own : Bool}
    {version : TemplateVersion} (h : Sound db tx) (hpc : tx.pc = .versioned template own version)
    (hcommit : committed db template own version = some db') :
    aliveNamed db' tx.request.name = some template ∧ template.channel = tx.request.channel := by
  cases own with
  | true =>
      have htemplate := (h.newTemplate template (by rw [hpc]; rfl)).1
      have hmem := ((committed_eq_some hcommit).1 template).mpr (.inr ⟨rfl, rfl⟩)
      exact ⟨aliveNamed_eq_some.mpr ⟨hmem, by rw [htemplate]; rfl⟩, by rw [htemplate]; rfl⟩
  | false =>
      obtain ⟨hmem, hname, hchannel⟩ := h.held template (by rw [hpc]; rfl)
      exact ⟨TemplateStore.aliveNamed_of_committed hcommit (aliveNamed_eq_some.mpr ⟨hmem, hname⟩),
        hchannel⟩

theorem VersionsOwned.of_committed (howner : VersionsOwned db) {template : Template} {own : Bool}
    {version : TemplateVersion} (h : Sound db tx) (hpc : tx.pc = .versioned template own version)
    (hcommit : committed db template own version = some db') : VersionsOwned db' := by
  obtain ⟨htemplates, hversions, _⟩ := committed_eq_some hcommit
  intro v hv
  rcases (hversions v).mp hv with hold | rfl
  · obtain ⟨a, ha, hid⟩ := howner v hold
    exact ⟨a, (htemplates a).mpr (.inl ha), hid⟩
  · have hrow := (h.aliveNamed_of_committed hpc hcommit).1
    exact ⟨template, (aliveNamed_eq_some.mp hrow).1, by rw [h.text _ _ _ hpc]; rfl⟩

theorem Answered.mem {v : TemplateVersion} (h : Answered db tx) (hv : tx.pc.answer = some v) :
    v ∈ db.templateVersions.rows := by
  obtain ⟨a, _, hanswer⟩ := h
  split at hanswer
  next =>
    obtain ⟨w, hw, hpc, _⟩ := hanswer
    rw [hpc] at hv
    cases hv
    exact hw
  next =>
    rw [hanswer] at hv
    contradiction

theorem Placed.mem {v : TemplateVersion} (h : Placed db tx) (hv : tx.pc.answer = some v) :
    v ∈ db.templateVersions.rows := by
  refine (h.answered ?_).mem hv
  cases hpc : tx.pc <;> rw [hpc] at hv <;> first | rfl | contradiction

theorem Orderly.commit (h : Orderly s) (htx : s.upserts[c]? = some tx) {template : Template}
    {own : Bool} {version : TemplateVersion} (hpc : tx.pc = .versioned template own version)
    (hcommit : committed s.db template own version = some db) :
    Orderly ((s.setUpsert c tx (.created version)).setDb db) := by
  have hsound := h.inFlight.sound c tx htx
  obtain ⟨-, hversions, -⟩ := committed_eq_some hcommit
  obtain ⟨hrow, hchannel⟩ := hsound.aliveNamed_of_committed hpc hcommit
  have hversion := hsound.text _ _ _ hpc
  refine h.set htx (h.inFlight.commit htx hpc hcommit) (h.owner.of_committed hsound hpc hcommit)
    ?_ ?_ ?_
  · refine ⟨nofun, nofun, fun _ => ⟨template, hrow, ?_⟩⟩
    rw [if_pos hchannel]
    exact ⟨version, (hversions version).mpr (.inr rfl), rfl, hversion⟩
  · intro c' tx' htx' hne
    refine (h.placed c' tx' htx').of_committed hcommit fun hown hcreating => ?_
    subst hown
    rw [(Template.eq_of_aliveName (aliveNamed_eq_some.mp hrow).2).2]
    exact (h.distinct c c' tx tx' htx htx' hne.symm).name (by rw [hpc]; rfl) hcreating
  · refine fun c' tx' htx' _ => ⟨nofun, ?_⟩
    rintro v ⟨⟩ hanswer
    exact (hsound.newVersion version (by rw [hpc]; rfl) version
      ((h.placed c' tx' htx').mem hanswer)).1 rfl

theorem Orderly.upsert (h : Orderly s) (htx : s.upserts[c]? = some tx) {action : UpsertAction}
    (hcalm : Calm s (.upsert c action)) (hstep : UpsertStep s tx action pc db) :
    Orderly ((s.setUpsert c tx pc).setDb db) := by
  have hinFlight := h.inFlight.move (step_move (hstep.step htx))
  have hplaced := h.placed c tx htx
  have hothers : ∀ (c' : Nat) (tx' : UpsertTx), s.upserts[c']? = some tx' → c' ≠ c →
      Placed s.db tx' := fun c' tx' htx' _ => h.placed c' tx' htx'
  -- a request that goes on to create was alone before
  have hkept : ∀ {pc : UpsertPc}, (pc.creating = true → tx.pc.creating = true) →
      (∀ v, pc.answer ≠ some v) → ∀ (c' : Nat) (tx' : UpsertTx), s.upserts[c']? = some tx' →
        c' ≠ c → Distinct ⟨tx.request, pc⟩ tx' := by
    refine fun hcreating hanswer c' tx' htx' hne => ⟨fun hpc hpc' => ?_, fun v hv => ?_⟩
    · exact (h.distinct c c' tx tx' htx htx' hne.symm).name (hcreating hpc) hpc'
    · exact absurd hv (hanswer v)
  have hne := h.ne_aborted htx hcalm.1 hstep
  cases hstep with
  | absent hpc hmissing =>
      refine h.set htx hinFlight h.owner ⟨nofun, fun _ => hmissing, nofun⟩ hothers ?_
      refine fun c' tx' htx' _ => ⟨fun _ hpc' => ?_, nofun⟩
      exact (hcalm.2 tx htx hmissing tx' (List.mem_of_getElem? htx') hpc').symm
  | blocked template hpc hrow _ =>
      refine h.set htx hinFlight h.owner ⟨?_, nofun, nofun⟩ hothers (hkept nofun nofun)
      rintro id ⟨⟩
      exact ⟨template, hrow, rfl⟩
  | read template _ hrow _ => exact h.look htx hinFlight hrow
  | woken template _ hrow _ => exact h.look htx hinFlight hrow
  | lost id hpc hmissing _ =>
      obtain ⟨a, hrow, hid⟩ := hplaced.waiting id hpc
      exact absurd hid (hmissing a hrow)
  | inserted id hpc _ =>
      have hcreating : tx.pc.creating = true := by rw [hpc]; rfl
      exact h.set htx hinFlight h.owner ⟨nofun, fun _ => hplaced.creating hcreating, nofun⟩
        hothers (hkept (fun _ => hcreating) nofun)
  | taken _ _ _ => exact absurd rfl hne
  | numbered template hpc =>
      exact h.set htx hinFlight h.owner ⟨nofun, nofun, nofun⟩ hothers (hkept nofun nofun)
  | versioned template own number id hpc _ =>
      have hcreating : (UpsertPc.versioned template own
          (newVersion tx.request template id number)).creating = true → tx.pc.creating = true := by
        rw [hpc]
        cases own <;> exact fun hown => hown
      exact h.set htx hinFlight h.owner
        ⟨nofun, fun hown => hplaced.creating (hcreating hown), nofun⟩ hothers
        (hkept hcreating nofun)
  | clashed _ _ _ _ _ _ => exact absurd rfl hne
  | committed template own version db hpc hcommit => exact h.commit htx hpc hcommit
  | aborted _ => exact absurd rfl hne

theorem Orderly.begin (h : Orderly s) (request : UpsertRequest) :
    Orderly { s with upserts := Pool.spawn s.upserts ⟨request, .begun⟩ } where
  inFlight := h.inFlight.spawn ⟨rfl, rfl, rfl, rfl⟩
  owner := h.owner
  placed := Pool.forall_spawn ⟨nofun, nofun, nofun⟩ h.placed
  distinct := Pool.forall_pairs_spawn (fun _ _ => Distinct.symm) h.distinct
    fun _ _ _ => ⟨nofun, nofun⟩

/-- A step of `create` requests alone opens one or moves one. -/
theorem step_creates {a : Action} (hcreates : Creates s a) (hstep : step s a = some t) :
    (∃ request, t = { s with upserts := Pool.spawn s.upserts ⟨request, .begun⟩ }) ∨
      ∃ c tx action pc db, a = .upsert c action ∧ s.upserts[c]? = some tx ∧
        UpsertStep s tx action pc db ∧ t = (s.setUpsert c tx pc).setDb db := by
  cases a with
  | begin request => exact .inl ⟨request, (Option.some.inj hstep).symm⟩
  | upsert c action =>
      obtain ⟨tx, htx, hstep⟩ := Option.bind_eq_some_iff.mp hstep
      obtain ⟨pc, db, hmoved, heq⟩ := upsertStep_of_stepUpsert hstep
      exact .inr ⟨c, tx, action, pc, db, rfl, htx, hmoved, heq⟩
  | beginDestroy name => exact hcreates.elim
  | destroy d action => exact hcreates.elim

theorem Orderly.next (h : Orderly s) {a : Action} (hcalm : Calm s a)
    (hstep : step s a = some t) : Orderly t := by
  rcases step_creates hcalm.1 hstep with ⟨request, rfl⟩ | ⟨c, tx, action, pc, db, rfl, htx, hmoved,
    rfl⟩
  · exact h.begin request
  · exact h.upsert htx hcalm hmoved

end TemplateStore

end NotifyRelay
