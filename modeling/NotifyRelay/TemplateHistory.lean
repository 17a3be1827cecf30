import NotifyRelay.TemplateLocks

/-! The history of the templates under concurrent requests. -/
namespace NotifyRelay

open Templates

namespace Templates

def versionsOf (db : Database) (id : TemplateId) : List TemplateVersion :=
  db.templateVersions.rows.filter fun v => v.template == id

def versionNumbers (db : Database) (id : TemplateId) : List Nat :=
  (versionsOf db id).map TemplateVersion.version

/-- Every version has its template, and the versions of a template are numbered 1, 2, 3 and
so on. -/
structure Consistent (db : Database) : Prop where
  owner : ∀ v ∈ db.templateVersions.rows, ∃ t ∈ db.templates.rows, t.id = v.template
  numbers : ∀ t ∈ db.templates.rows,
    (versionsOf db t.id) ≠ [] ∧ ∃ n, versionNumbers db t.id = List.range' 1 n

/-- A `create` that went through. -/
structure Appended (db db' : Database) (request : UpsertRequest) (v : TemplateVersion) : Prop where
  versions : db'.templateVersions.rows = db.templateVersions.rows ++ [v]
  number : v.version = (versionsOf db v.template).length + 1
  text : v.subjectTemplate = request.subjectTemplate ∧ v.bodyTemplate = request.bodyTemplate
  template : ∃ t ∈ db'.templates.rows, t.id = v.template ∧
    t.aliveName = some request.name ∧ t.channel = request.channel
  templates : ∀ t, t ∈ db'.templates.rows ↔ t ∈ db.templates.rows ∨
    t ∈ db'.templates.rows ∧ t.id = v.template

variable {db db' : Database} {request : UpsertRequest}

theorem headD_insertionSort_range' {numbers : List Nat} {n : Nat}
    (h : numbers = List.range' 1 n) : (numbers.insertionSort (· ≥ ·)).headD 0 = n := by
  have hperm := List.perm_insertionSort (· ≥ ·) numbers
  have hsorted := List.pairwise_insertionSort (r := (· ≥ · : Nat → Nat → Prop)) numbers
  have hmem : ∀ k, k ∈ numbers.insertionSort (· ≥ ·) ↔ 1 ≤ k ∧ k ≤ n := by
    intro k
    rw [hperm.mem_iff, h, List.mem_range'_1]
    omega
  cases hsort : numbers.insertionSort (· ≥ ·) with
  | nil =>
      have hlength := hperm.length_eq
      rw [hsort, h, List.length_range', List.length_nil] at hlength
      exact hlength
  | cons first rest =>
      rw [hsort] at hsorted hmem
      have hfirst := (hmem first).mp (List.mem_cons_self ..)
      have hlast := (hmem n).mpr ⟨by omega, Nat.le_refl n⟩
      rcases List.mem_cons.mp hlast with heq | hrest
      · exact heq.symm
      · exact Nat.le_antisymm hfirst.2 ((List.pairwise_cons.mp hsorted).1 n hrest)

theorem latestNumber_eq {id : TemplateId} {n : Nat}
    (h : versionNumbers db id = List.range' 1 n) :
    latestNumber db id = (versionsOf db id).length := by
  have hlength := congrArg List.length h
  rw [versionNumbers, List.length_map, List.length_range'] at hlength
  rw [hlength]
  exact headD_insertionSort_range' h

theorem Consistent.versionsOf_absent (h : Consistent db) {id : TemplateId}
    (habsent : ∀ t ∈ db.templates.rows, t.id ≠ id) : versionsOf db id = [] := by
  refine List.filter_eq_nil_iff.mpr fun v hv hid => ?_
  obtain ⟨t, ht, howner⟩ := h.owner v hv
  exact habsent t ht (howner.trans (by simpa using hid))

theorem versionsOf_append {v : TemplateVersion} {id : TemplateId}
    (h : db'.templateVersions.rows = db.templateVersions.rows ++ [v]) :
    versionsOf db' id = versionsOf db id ++ if v.template = id then [v] else [] := by
  rw [versionsOf, h, List.filter_append, versionsOf]
  by_cases hid : v.template = id <;> simp [hid]

/-- What a successful `create` does. -/
theorem Consistent.appended (h : Consistent db) {templateId : TemplateId}
    {versionId : TemplateVersionId} (hupsert : upsert db request templateId versionId = some db') :
    ∃ v, v.id = versionId ∧ Appended db db' request v := by
  unfold upsert at hupsert
  split at hupsert
  next template hfind =>
    split at hupsert
    next => contradiction
    next hchannel =>
      obtain ⟨versions, hversions, rfl⟩ := Option.map_eq_some_iff.mp hupsert
      obtain ⟨hmem, hname⟩ := TemplateStore.aliveNamed_eq_some.mp hfind
      obtain ⟨_, n, hnumbers⟩ := h.numbers template hmem
      refine ⟨_, rfl, ((db.templateVersions.insert?_eq_some).mp hversions).2, ?_, ⟨rfl, rfl⟩,
        ⟨template, hmem, rfl, hname, not_not.mp hchannel⟩, fun t => ?_⟩
      · exact congrArg (· + 1) (latestNumber_eq hnumbers)
      · exact ⟨.inl, fun hor => hor.elim id And.left⟩
  next hfind =>
    obtain ⟨templates, htemplates, hupsert⟩ := Option.bind_eq_some_iff.mp hupsert
    obtain ⟨versions, hversions, hupsert⟩ := Option.bind_eq_some_iff.mp hupsert
    cases hupsert
    have hfresh := ((db.templates.insert?_eq_some).mp htemplates).1
    have hmem := fun t => db.templates.mem_insert htemplates (a := t)
    refine ⟨_, rfl, ((db.templateVersions.insert?_eq_some).mp hversions).2, ?_, ⟨rfl, rfl⟩,
      ⟨_, (hmem _).mpr (.inr rfl), rfl, rfl, rfl⟩, fun t => ?_⟩
    · rw [h.versionsOf_absent fun t ht => (hfresh t ht).1]
      rfl
    · constructor
      · intro ht
        rcases (hmem t).mp ht with hold | rfl
        · exact .inl hold
        · exact .inr ⟨ht, rfl⟩
      · rintro (hold | ⟨ht, _⟩)
        · exact (hmem t).mpr (.inl hold)
        · exact ht

theorem Consistent.of_appended (h : Consistent db) {v : TemplateVersion}
    (hadd : Appended db db' request v) : Consistent db' := by
  constructor
  case owner =>
    intro w hw
    rw [hadd.versions, List.mem_append, List.mem_singleton] at hw
    rcases hw with hold | rfl
    · obtain ⟨t, ht, howner⟩ := h.owner w hold
      exact ⟨t, (hadd.templates t).mpr (.inl ht), howner⟩
    · obtain ⟨t, ht, hid, _⟩ := hadd.template
      exact ⟨t, ht, hid⟩
  case numbers =>
    intro t ht
    have happend : versionsOf db' t.id =
        versionsOf db t.id ++ if v.template = t.id then [v] else [] :=
      versionsOf_append hadd.versions
    have hbefore : ∃ n, versionNumbers db t.id = List.range' 1 n := by
      by_cases hold : ∃ a ∈ db.templates.rows, a.id = t.id
      · obtain ⟨a, ha, hid⟩ := hold
        exact hid ▸ (h.numbers a ha).2
      · refine ⟨0, ?_⟩
        rw [versionNumbers, h.versionsOf_absent fun a ha hid => hold ⟨a, ha, hid⟩]
        rfl
    obtain ⟨n, hn⟩ := hbefore
    by_cases hid : v.template = t.id
    · rw [if_pos hid] at happend
      have hlength := congrArg List.length hn
      rw [versionNumbers, List.length_map, List.length_range'] at hlength
      refine ⟨by simp [happend], n + 1, ?_⟩
      rw [versionNumbers, happend, List.map_append, ← versionNumbers, hn, List.range'_concat,
        List.map_singleton, hadd.number, hid, hlength]
      simp [Nat.add_comm]
    · rw [if_neg hid, List.append_nil] at happend
      rcases (hadd.templates t).mp ht with hold | ⟨_, hnew⟩
      · rw [versionNumbers, happend]
        exact h.numbers t hold
      · exact absurd hnew.symm hid

theorem Consistent.destroy (h : Consistent db) (id : TemplateId) (now : Time) :
    Consistent (destroy db id now) where
  owner v hv := by
    obtain ⟨t, ht, howner⟩ := h.owner v hv
    refine ⟨_, db.templates.mem_update.mpr ⟨t, ht, rfl⟩, ?_⟩
    split <;> exact howner
  numbers t ht := by
    obtain ⟨old, hold, rfl⟩ := db.templates.mem_update.mp ht
    have hid : (if old.id == id then (deleteUpdate now).apply old else old).id = old.id := by
      split <;> rfl
    rw [hid]
    exact h.numbers old hold

end Templates

namespace TemplateStore

/-- The versions that the 201 answers showed. -/
def answers (s : TemplateStore) : List TemplateVersion :=
  s.upserts.filterMap fun tx : UpsertTx => tx.pc.answer

/-- What one step does to the committed tables, and which answers it gives. -/
inductive Effect (s t : TemplateStore) : Prop where
  | quiet (db : t.db = s.db) (answers : t.answers.Perm s.answers)
      (answered : ∀ (c : Nat) (tx : UpsertTx) (v : TemplateVersion), t.upserts[c]? = some tx →
        tx.pc.answer = some v → s.upserts[c]? = some tx)
  | appended (c : Nat) (request : UpsertRequest) (v : TemplateVersion)
      (added : Appended s.db t.db request v) (answers : t.answers.Perm (v :: s.answers))
      (answered : ∀ (c' : Nat) (tx : UpsertTx) (v' : TemplateVersion),
        t.upserts[c']? = some tx → tx.pc.answer = some v' →
          c' = c ∧ tx.request = request ∧ v' = v ∨ s.upserts[c']? = some tx)
  | destroyed (id : TemplateId) (now : Time) (db : t.db = Templates.destroy s.db id now)
      (upserts : t.upserts = s.upserts)

variable {s t : TemplateStore} {tx : UpsertTx} {pc : UpsertPc} {c : Nat}

theorem unanswered_of_running (h : pc.running = true) : pc.answer = none := by
  cases pc <;> first | rfl | contradiction

theorem Effect.of_setUpsert (htx : s.upserts[c]? = some tx) (hrunning : tx.pc.running = true)
    (hpc : pc.answer = none) : Effect s (s.setUpsert c tx pc) := by
  refine .quiet rfl ?_ fun c' other v hother hv => ?_
  · have hperm := Pool.filterMap_set_perm (fun tx : UpsertTx => tx.pc.answer) htx
      (unanswered_of_running hrunning) { tx with pc := pc }
    simpa [answers, setUpsert, hpc] using hperm
  · rw [setUpsert, Pool.get_set htx] at hother
    split at hother
    next =>
      cases hother
      rw [hpc] at hv
      contradiction
    next => exact hother

theorem found_answer (request : UpsertRequest) (template : Template) :
    (found request template).answer = none := by
  unfold found
  split <;> rfl

/-- A commit is the only step that adds a version. -/
theorem Move.effect (hmove : Move s t) (h : InFlight s) (hdb : Consistent s.db) : Effect s t := by
  cases hmove with
  | opened tx _ hanswer heq =>
      subst heq
      refine .quiet rfl ?_ fun c other v hother hv => ?_
      · rw [answers, Pool.filterMap_spawn, hanswer]
        simp [answers]
      · rw [Pool.get_spawn] at hother
        split at hother
        next =>
          cases hother
          rw [hanswer] at hv
          contradiction
        next => exact hother
  | idled c tx pc htx hrunning _ hanswer heq => exact heq ▸ .of_setUpsert htx hrunning hanswer
  | looked c tx template htx hrunning _ _ _ heq =>
      exact heq ▸ .of_setUpsert htx hrunning (found_answer _ _)
  | inserted c tx id htx hrunning _ heq => exact heq ▸ .of_setUpsert htx hrunning rfl
  | numbered c tx template htx hpc heq =>
      exact heq ▸ .of_setUpsert htx (by rw [hpc]; rfl) rfl
  | versioned c tx template own number id htx hpc _ heq =>
      exact heq ▸ .of_setUpsert htx (by rw [hpc]; rfl) rfl
  | committed c tx template own version db htx hpc hcommit heq =>
      have hsound := h.sound c tx htx
      have hupsert := (committed_eq_upsert hsound hpc) ▸ hcommit
      obtain ⟨v, hid, hadd⟩ := hdb.appended hupsert
      have hv : v = version := by
        have hmem : v ∈ db.templateVersions.rows := by simp [hadd.versions]
        have hversion : version ∈ db.templateVersions.rows :=
          ((committed_eq_some hcommit).2.1 version).mpr (.inr rfl)
        exact db.templateVersions.eq_of_key hmem hversion hid
      subst hv heq
      refine .appended c tx.request v hadd ?_ fun c' other v' hother hv' => ?_
      · exact Pool.filterMap_set_perm (fun tx : UpsertTx => tx.pc.answer) htx (by rw [hpc]; rfl)
          { tx with pc := .created v }
      · rw [setDb, setUpsert, Pool.get_set htx] at hother
        split at hother
        next heq =>
          cases hother
          cases hv'
          exact .inl ⟨heq, rfl, rfl⟩
        next => exact .inr hother
  | elsewhere hupserts hdb =>
      refine .quiet hdb ?_ fun c tx v htx _ => hupserts ▸ htx
      rw [answers, hupserts, answers]
  | destroyed id now _ hupserts hdb => exact .destroyed id now hdb hupserts

/-- What holds of the committed tables in every reachable state. -/
structure Recorded (s : TemplateStore) : Prop where
  inFlight : InFlight s
  consistent : Consistent s.db
  answers : s.answers.Perm s.db.templateVersions.rows

theorem recorded_init : Recorded init where
  inFlight := inFlight_init
  consistent :=
    { owner := fun _ hv => absurd hv List.not_mem_nil
      numbers := fun _ ht => absurd ht List.not_mem_nil }
  answers := .refl _

theorem Recorded.effect (h : Recorded s) {a : Action} (hstep : step s a = some t) : Effect s t :=
  (step_move hstep).effect h.inFlight h.consistent

theorem Recorded.step (h : Recorded s) {a : Action} (hstep : step s a = some t) :
    Recorded t where
  inFlight := h.inFlight.move (step_move hstep)
  consistent := by
    cases h.effect hstep with
    | quiet hdb _ _ => exact hdb ▸ h.consistent
    | appended _ _ _ hadd _ _ => exact h.consistent.of_appended hadd
    | destroyed id now hdb _ => exact hdb ▸ h.consistent.destroy id now
  answers := by
    cases h.effect hstep with
    | quiet hdb hanswers _ =>
        rw [hdb]
        exact hanswers.trans h.answers
    | appended _ _ v hadd hanswers _ =>
        rw [hadd.versions]
        exact (hanswers.trans (h.answers.cons v)).trans (List.perm_append_singleton v _).symm
    | destroyed id now hdb hupserts =>
        rw [hdb, TemplateStore.answers, hupserts]
        exact h.answers

theorem recorded_of_reachable (h : Reachable s) : Recorded s :=
  Transition.Reaches.invariant h Recorded recorded_init fun _ _ _ hinv _ hstep => hinv.step hstep

/-- What a step keeps of the committed rows. -/
structure Keeps (db db' : Database) : Prop where
  version : ∀ (id : TemplateVersionId) (v : TemplateVersion),
    db.templateVersions.find? id = some v → db'.templateVersions.find? id = some v
  template : ∀ (id : TemplateId) (a : Template), db.templates.find? id = some a →
    ∃ b, db'.templates.find? id = some b ∧ b.name = a.name ∧ b.channel = a.channel

theorem Keeps.refl (db : Database) : Keeps db db :=
  ⟨fun _ _ => id, fun _ a h => ⟨a, h, rfl, rfl⟩⟩

theorem Keeps.trans {a b c : Database} (h : Keeps a b) (h' : Keeps b c) : Keeps a c where
  version id v hv := h'.version id v (h.version id v hv)
  template id x hx := by
    obtain ⟨y, hy, hname, hchannel⟩ := h.template id x hx
    obtain ⟨z, hz, hname', hchannel'⟩ := h'.template id y hy
    exact ⟨z, hz, hname'.trans hname, hchannel'.trans hchannel⟩

theorem Effect.keeps (h : Effect s t) : Keeps s.db t.db := by
  cases h with
  | quiet hdb _ _ => exact hdb ▸ .refl _
  | appended _ _ v hadd _ _ =>
      constructor
      case version =>
        intro id w hw
        obtain ⟨hmem, hid⟩ := (s.db.templateVersions.find?_eq_some).mp hw
        refine (t.db.templateVersions.find?_eq_some).mpr ⟨?_, hid⟩
        rw [hadd.versions]
        exact List.mem_append_left _ hmem
      case template =>
        intro id a ha
        obtain ⟨hmem, hid⟩ := (s.db.templates.find?_eq_some).mp ha
        have hkept := (hadd.templates a).mpr (.inl hmem)
        exact ⟨a, (t.db.templates.find?_eq_some).mpr ⟨hkept, hid⟩, rfl, rfl⟩
  | destroyed id now hdb _ =>
      rw [hdb]
      constructor
      case version => exact fun _ _ hv => hv
      case template =>
        intro id' a ha
        obtain ⟨hmem, rfl⟩ := (s.db.templates.find?_eq_some).mp ha
        refine ⟨_, (Table.find?_eq_some _).mpr
          ⟨s.db.templates.mem_update.mpr ⟨a, hmem, rfl⟩, ?_⟩, ?_, ?_⟩ <;> split <;> rfl

theorem Reaches.keeps (hs : Reachable s) (h : Reaches s t) : Keeps s.db t.db := by
  refine (Transition.Reaches.invariant_of h Recorded (fun u => Keeps s.db u.db)
    (recorded_of_reachable hs) (fun _ _ _ hinv _ hstep => hinv.step hstep) (Keeps.refl _) ?_)
  intro u a w hrecorded hkeeps _ hstep
  exact hkeeps.trans (hrecorded.effect hstep).keeps

/-- Every answer was given by one step of the run, which added the version it shows. -/
theorem exists_appended (h : Reachable t) {v : TemplateVersion} (htx : t.upserts[c]? = some tx)
    (hv : tx.pc.answer = some v) :
    ∃ before after a, Reachable before ∧ step before a = some after ∧ Reaches after t ∧
      Appended before.db after.db tx.request v := by
  induction h with
  | refl => simp [init] at htx
  | @tail u w hreach hlast ih =>
      obtain ⟨a, _, hstep⟩ := hlast
      have hlater : u.upserts[c]? = some tx → ∃ before after a, Reachable before ∧
          step before a = some after ∧ Reaches after w ∧
            Appended before.db after.db tx.request v := by
        intro hold
        obtain ⟨before, after, a', hbefore, hstep', hafter, hadd⟩ := ih hold
        exact ⟨before, after, a', hbefore, hstep', hafter.tail ⟨a, trivial, hstep⟩, hadd⟩
      cases (recorded_of_reachable hreach).effect hstep with
      | quiet _ _ hanswered => exact hlater (hanswered c tx v htx hv)
      | appended c' request v' hadd _ hanswered =>
          rcases hanswered c tx v htx hv with ⟨_, rfl, rfl⟩ | hold
          · exact ⟨u, w, a, hreach, hstep, .refl, hadd⟩
          · exact hlater hold
      | destroyed _ _ _ hupserts => exact hlater (hupserts ▸ htx)

theorem alive_names_nodup (templates : TemplateTable) :
    ((templates.rows.filter Template.alive).map Template.name).Nodup := by
  refine List.pairwise_map.mpr (List.Pairwise.imp_of_mem ?_ (templates.compatible.filter _))
  intro a b ha hb hcompatible hname
  have hindex := Template.aliveName_of_alive (List.mem_filter.mp ha).2 hname
  have hindex' := Template.aliveName_of_alive (List.mem_filter.mp hb).2 rfl
  exact Table.not_compatible_of_index hindex hindex' hcompatible

/-- Alive names are unique, versions are numbered without gaps, nothing that was committed is
rewritten, and every 201 answer stands for one committed version, the next of its template. -/
theorem template_history {s t : TemplateStore} (hs : Reachable s) (ht : Reaches s t) :
    ((t.db.templates.rows.filter Template.alive).map Template.name).Nodup ∧
      (∀ a ∈ t.db.templates.rows, ∃ n, n ≠ 0 ∧ versionNumbers t.db a.id = List.range' 1 n) ∧
      (∀ id v, s.db.templateVersions.find? id = some v →
        t.db.templateVersions.find? id = some v) ∧
      (∀ id a, s.db.templates.find? id = some a →
        ∃ b, t.db.templates.find? id = some b ∧ b.name = a.name ∧ b.channel = a.channel) ∧
      t.answers.Perm t.db.templateVersions.rows ∧
      ∀ (c : Nat) (tx : UpsertTx) (v : TemplateVersion), t.upserts[c]? = some tx →
        tx.pc.answer = some v → ∃ before after a, Reachable before ∧
          step before a = some after ∧ Reaches after t ∧
            Appended before.db after.db tx.request v := by
  have hreach : Reachable t := Relation.ReflTransGen.trans hs ht
  have hrecorded := recorded_of_reachable hreach
  have hkeeps := Reaches.keeps hs ht
  refine ⟨alive_names_nodup _, fun a ha => ?_, hkeeps.version, hkeeps.template,
    hrecorded.answers, fun c tx v htx hv => exists_appended hreach htx hv⟩
  obtain ⟨hne, n, hn⟩ := hrecorded.consistent.numbers a ha
  refine ⟨n, ?_, hn⟩
  rintro rfl
  exact hne (List.map_eq_nil_iff.mp hn)

section Scenario

/-- The loser of a race for a new name aborts; a destroy that has read the row waits for the
next append; the name is then used for another template. -/
def racingForName : List Action :=
  let request : UpsertRequest := ⟨"welcome", .email, "Hi", "Hello"⟩
  [.begin request, .begin request, .upsert 0 .select, .upsert 1 .select,
    .upsert 0 (.insertTemplate 1), .upsert 0 (.insertVersion 10), .upsert 0 .commit,
    .upsert 1 (.insertTemplate 2), .begin request, .upsert 2 .select, .beginDestroy "welcome",
    .destroy 0 .get, .upsert 2 .number, .upsert 2 (.insertVersion 11), .upsert 2 .commit]

def nameReused : List Action :=
  [.destroy 0 (.save 5), .begin ⟨"welcome", .webhook, "", "[]"⟩, .upsert 3 .select,
    .upsert 3 (.insertTemplate 3), .upsert 3 (.insertVersion 12), .upsert 3 .commit]

theorem template_history_recreated :
    ∃ s t, Reachable s ∧ Reaches s t ∧ versionNumbers t.db 1 = [1, 2] ∧
      versionNumbers t.db 3 = [1] ∧
      ((t.db.templates.rows.filter Template.alive).map Template.name).Nodup ∧
      (∀ a ∈ t.db.templates.rows, ∃ n, n ≠ 0 ∧ versionNumbers t.db a.id = List.range' 1 n) ∧
      t.answers.Perm t.db.templateVersions.rows := by
  obtain ⟨s, t, hs, ht, hold, hnew⟩ := Transition.exists_pair_of_runAll step Transition.anyStep
    init racingForName nameReused
    (fun _ t => versionNumbers t.db 1 = [1, 2] ∧ versionNumbers t.db 3 = [1]) (by decide +kernel)
  have h := template_history hs ht
  exact ⟨s, t, hs, ht, hold, hnew, h.1, h.2.1, h.2.2.2.2.1⟩

end Scenario

end TemplateStore

end NotifyRelay
