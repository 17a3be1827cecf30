import NotifyRelay.Templates
import NotifyRelay.Library.Pool
import NotifyRelay.Library.Transition

/-! The template API on a database with row locks. A `create` is one transaction of several
statements: it reads the alive row under a lock that it keeps, and its inserts are seen by
the unique constraints before they are committed. A `destroy` reads without a lock and saves
in a statement of its own. -/
namespace NotifyRelay

open Templates

inductive UpsertPc where
  | begun
  /-- The alive row is locked by another transaction. -/
  | waiting (template : TemplateId)
  | absent
  /-- The alive row, under a lock. -/
  | holding (template : Template)
  /-- `own` tells whether the transaction inserted the template itself. -/
  | numbered (template : Template) (own : Bool) (next : Nat)
  | versioned (template : Template) (own : Bool) (version : TemplateVersion)
  | created (version : TemplateVersion)
  | conflict (detail : String)
  | aborted

namespace UpsertPc

def running : UpsertPc → Bool
  | .created _ | .conflict _ | .aborted => false
  | _ => true

/-- The template whose row the transaction has locked. -/
def held : UpsertPc → Option Template
  | .holding template | .numbered template false _ | .versioned template false _ => some template
  | _ => none

/-- The template the transaction has inserted and not committed. -/
def newTemplate : UpsertPc → Option Template
  | .numbered template true _ | .versioned template true _ => some template
  | _ => none

def newVersion : UpsertPc → Option TemplateVersion
  | .versioned _ _ version => some version
  | _ => none

/-- The version a 201 answer shows. -/
def answer : UpsertPc → Option TemplateVersion
  | .created version => some version
  | _ => none

/-- The number of the new version, and the template it is for. -/
def next : UpsertPc → Option (Template × Bool × Nat)
  | .numbered template own number => some (template, own, number)
  | .versioned template own version => some (template, own, version.version)
  | _ => none

end UpsertPc

structure UpsertTx where
  request : UpsertRequest
  pc : UpsertPc

inductive DestroyPc where
  | begun
  | found (template : Template)
  | notFound
  | destroyed
  | crashed

structure DestroyTx where
  name : String
  pc : DestroyPc

structure TemplateStore where
  /-- What is committed. -/
  db : Database
  upserts : List UpsertTx
  destroys : List DestroyTx

namespace TemplateStore

inductive UpsertAction where
  | select
  | wake
  | insertTemplate (id : TemplateId)
  | number
  | insertVersion (id : TemplateVersionId)
  | commit
  | abort

inductive DestroyAction where
  | get
  | save (now : Time)
  | crash

inductive Action where
  | begin (request : UpsertRequest)
  | upsert (c : Nat) (action : UpsertAction)
  | beginDestroy (name : String)
  | destroy (d : Nat) (action : DestroyAction)

def init : TemplateStore := ⟨.empty, [], []⟩

/-- `Template.objects.alive().filter(name=name).first()`. -/
def aliveNamed (db : Database) (name : String) : Option Template :=
  db.templates.rows.find? fun t => t.alive && t.name == name

def locked (s : TemplateStore) (id : TemplateId) : Bool :=
  s.upserts.any fun tx => tx.pc.held.any fun t => t.id == id

def newTemplates (s : TemplateStore) : List Template :=
  s.upserts.filterMap fun tx => tx.pc.newTemplate

def newVersions (s : TemplateStore) : List TemplateVersion :=
  s.upserts.filterMap fun tx => tx.pc.newVersion

def setUpsert (s : TemplateStore) (c : Nat) (tx : UpsertTx) (pc : UpsertPc) : TemplateStore :=
  { s with upserts := s.upserts.set c { tx with pc := pc } }

def setDestroy (s : TemplateStore) (d : Nat) (tx : DestroyTx) (pc : DestroyPc) : TemplateStore :=
  { s with destroys := s.destroys.set d { tx with pc := pc } }

def setDb (s : TemplateStore) (db : Database) : TemplateStore := { s with db := db }

/-- The check of the channel, with the row in hand. -/
def found (request : UpsertRequest) (template : Template) : UpsertPc :=
  if template.channel ≠ request.channel then
    .conflict s!"template '{template.name}' already exists for channel {template.channel.value}"
  else .holding template

def newTemplate (request : UpsertRequest) (id : TemplateId) : Template :=
  ⟨id, request.name, request.channel, none⟩

def newVersion (request : UpsertRequest) (template : Template) (id : TemplateVersionId)
    (number : Nat) : TemplateVersion :=
  ⟨id, template.id, number, request.subjectTemplate, request.bodyTemplate⟩

/-- The writes of a transaction become visible. -/
def committed (db : Database) (template : Template) (own : Bool) (version : TemplateVersion) :
    Option Database :=
  (if own then db.templates.insert? template else some db.templates).bind fun templates =>
    (db.templateVersions.insert? version).map fun versions =>
      { db with templates := templates, templateVersions := versions }

/-- One step of `TemplateViewSet.create`. A row that is waited for is looked at again once
its lock is free. -/
def stepUpsert (s : TemplateStore) (c : Nat) (tx : UpsertTx) :
    UpsertAction → UpsertPc → Option TemplateStore
  | .select, .begun =>
      match aliveNamed s.db tx.request.name with
      | none => some (s.setUpsert c tx .absent)
      | some template =>
          if s.locked template.id then some (s.setUpsert c tx (.waiting template.id))
          else some (s.setUpsert c tx (found tx.request template))
  | .wake, .waiting id =>
      if s.locked id then none
      else
        match s.db.templates.find? id with
        | none => some (s.setUpsert c tx .absent)
        | some template =>
            if template.alive && template.name == tx.request.name then
              some (s.setUpsert c tx (found tx.request template))
            else some (s.setUpsert c tx .absent)
  | .insertTemplate id, .absent =>
      let template := newTemplate tx.request id
      match s.db.templates.reserve s.newTemplates template with
      | .granted => some (s.setUpsert c tx (.numbered template true 1))
      | .waits => none
      | .violates => some (s.setUpsert c tx .aborted)
  | .number, .holding template =>
      some (s.setUpsert c tx (.numbered template false (latestNumber s.db template.id + 1)))
  | .insertVersion id, .numbered template own number =>
      let version := newVersion tx.request template id number
      match s.db.templateVersions.reserve s.newVersions version with
      | .granted => some (s.setUpsert c tx (.versioned template own version))
      | .waits => none
      | .violates => some (s.setUpsert c tx .aborted)
  | .commit, .versioned template own version =>
      (committed s.db template own version).map fun db =>
        (s.setUpsert c tx (.created version)).setDb db
  | .abort, pc => if pc.running then some (s.setUpsert c tx .aborted) else none
  | _, _ => none

/-- One step of `TemplateViewSet.destroy`. The UPDATE waits for the row lock. -/
def stepDestroy (s : TemplateStore) (d : Nat) (tx : DestroyTx) :
    DestroyAction → DestroyPc → Option TemplateStore
  | .get, .begun =>
      match aliveNamed s.db tx.name with
      | none => some (s.setDestroy d tx .notFound)
      | some template => some (s.setDestroy d tx (.found template))
  | .save now, .found template =>
      if s.locked template.id then none
      else some ((s.setDestroy d tx .destroyed).setDb (Templates.destroy s.db template.id now))
  | .crash, .begun => some (s.setDestroy d tx .crashed)
  | .crash, .found _ => some (s.setDestroy d tx .crashed)
  | _, _ => none

def step (s : TemplateStore) : Action → Option TemplateStore
  | .begin request => some { s with upserts := Pool.spawn s.upserts ⟨request, .begun⟩ }
  | .upsert c action => s.upserts[c]?.bind fun tx => s.stepUpsert c tx action tx.pc
  | .beginDestroy name => some { s with destroys := Pool.spawn s.destroys ⟨name, .begun⟩ }
  | .destroy d action => s.destroys[d]?.bind fun tx => s.stepDestroy d tx action tx.pc

abbrev Reaches : TemplateStore → TemplateStore → Prop :=
  Transition.Reaches (Transition.graph step) Transition.anyStep

def Reachable (s : TemplateStore) : Prop := Reaches init s

end TemplateStore

end NotifyRelay
