import NotifyRelay.Models
import Mathlib.Data.List.Sort

/-! `apps/templating/views.py`: what a committed `create` or `destroy` leaves in
the template tables. -/
namespace NotifyRelay.Templates

structure UpsertRequest where
  name : String
  channel : Channel
  subjectTemplate : String
  bodyTemplate : String

def latestNumber (db : Database) (template : TemplateId) : Nat :=
  (((db.templateVersions.rows.filter fun v => v.template == template).map
    TemplateVersion.version).insertionSort (· ≥ ·)).headD 0

/-- `TemplateViewSet.create` as one transaction; `none` when it answers 409 or a
constraint stops it. -/
def upsert (db : Database) (request : UpsertRequest) (templateId : TemplateId)
    (versionId : TemplateVersionId) : Option Database :=
  match db.templates.rows.find? fun t => t.alive && t.name == request.name with
  | some template =>
      if template.channel ≠ request.channel then none
      else
        (db.templateVersions.insert? ⟨versionId, template.id, latestNumber db template.id + 1,
          request.subjectTemplate, request.bodyTemplate⟩).map fun versions =>
            { db with templateVersions := versions }
  | none => do
      let templates ← db.templates.insert? ⟨templateId, request.name, request.channel, none⟩
      let versions ← db.templateVersions.insert? ⟨versionId, templateId, 1,
        request.subjectTemplate, request.bodyTemplate⟩
      pure { db with templates := templates, templateVersions := versions }

def deleteUpdate (now : Time) : Table.Update Template.id Template.aliveName where
  apply := fun t => { t with deletedAt := some now }
  key_apply := fun _ => rfl
  index_apply := fun _ => .inr rfl

/-- The save of `TemplateViewSet.destroy`, by primary key. -/
def destroy (db : Database) (template : TemplateId) (now : Time) : Database :=
  { db with templates := db.templates.update (fun t => t.id == template) (deleteUpdate now) }

/-- The template operations leave the other tables alone. -/
theorem upsert_eq_some {db db' : Database} {request : UpsertRequest} {templateId : TemplateId}
    {versionId : TemplateVersionId} (h : upsert db request templateId versionId = some db') :
    db'.messages = db.messages ∧ db'.attempts = db.attempts ∧
      db'.deadLetters = db.deadLetters := by
  unfold upsert at h
  split at h
  next =>
    split at h
    next => contradiction
    next =>
      obtain ⟨versions, _, rfl⟩ := Option.map_eq_some_iff.mp h
      exact ⟨rfl, rfl, rfl⟩
  next =>
    obtain ⟨templates, _, h⟩ := Option.bind_eq_some_iff.mp h
    obtain ⟨versions, _, h⟩ := Option.bind_eq_some_iff.mp h
    cases h
    exact ⟨rfl, rfl, rfl⟩

end NotifyRelay.Templates
