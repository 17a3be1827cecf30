import NotifyRelay.Services
import NotifyRelay.Validators

/-! `MessageCreateSerializer` and `MessageReadSerializer`. What the fields of the REST
framework make of a request body is a parameter. -/
namespace NotifyRelay

abbrev FieldErrors := List (String × List String)

abbrev DecodedJson := { json : Json // json.wellFormed = true }

/-- What each declared field makes of the body, its default included. -/
structure RawFields where
  channel : Except (List String) Channel
  recipient : Except (List String) String
  template : Except (List String) (Option String)
  templateVersion : Except (List String) (Option Nat)
  context : Except (List String) DecodedJson
  priority : Except (List String) Priority
  scheduledAt : Except (List String) (Option Time)

namespace Serializers

def validateContext : DecodedJson → Except (List String) JsonObject
  | ⟨.obj members, h⟩ => .ok ⟨members, h⟩
  | _ => .error ["context must be a JSON object"]

def fieldErrors {α : Type} (field : String) : Except (List String) α → FieldErrors
  | .ok _ => []
  | .error messages => [(field, messages)]

def toInternalValue (raw : RawFields) : Except FieldErrors MessageData :=
  let context := raw.context.bind validateContext
  match raw.channel, raw.recipient, raw.template, raw.templateVersion, context, raw.priority,
    raw.scheduledAt with
  | .ok channel, .ok recipient, .ok template, .ok templateVersion, .ok context, .ok priority,
    .ok scheduledAt =>
      .ok ⟨channel, recipient, template, templateVersion, some context, some priority, scheduledAt⟩
  | _, _, _, _, _, _, _ =>
      .error (fieldErrors "channel" raw.channel ++ fieldErrors "recipient" raw.recipient ++
        fieldErrors "template" raw.template ++
        fieldErrors "template_version" raw.templateVersion ++ fieldErrors "context" context ++
        fieldErrors "priority" raw.priority ++ fieldErrors "scheduled_at" raw.scheduledAt)

end Serializers

/-- The API and what it stands on. `rawFields` fails as a whole on a body that is not an
object. -/
structure Api (Body : Type) where
  rawFields : Body → Except FieldErrors RawFields
  emailValidator : String → Except (List String) Unit
  httpx : Httpx
  blockedNetworks : NetworksSetting

/-- Why `is_valid` is not true: it is false, or the guard raised something else. -/
inductive Invalid where
  | errors (errors : FieldErrors)
  | raised (error : GuardError)

namespace Serializers

variable {Body : Type}

def validatedFields (api : Api Body) (body : Body) : Except FieldErrors MessageData :=
  (api.rawFields body).bind toInternalValue

/-- `validate` turns the guard's refusal into an error of `recipient`. -/
def validated (data : MessageData) : Except GuardError Unit → Except Invalid MessageData
  | .ok () => .ok data
  | .error (.validationError messages) => .error (.errors [("recipient", messages)])
  | .error error => .error (.raised error)

def isValid (api : Api Body) (body : Body) : Net (Except Invalid MessageData) :=
  match validatedFields api body with
  | .error errors => .done (.error (.errors errors))
  | .ok data =>
      (Validators.validateRecipient api.emailValidator api.httpx api.blockedNetworks data.channel
        data.recipient).bind fun verdict => .done (validated data verdict)

end Serializers

structure MessageRead where
  id : MessageId
  idempotencyKey : String
  channel : Channel
  recipient : String
  templateName : Option String
  templateVersion : Option Nat
  renderedSubject : String
  renderedBody : String
  context : PyContext
  priority : Priority
  status : MessageStatus
  scheduledAt : Option Time
  createdAt : Time
  updatedAt : Time

namespace Serializers

def readMessage (db : Database) (message : Message) : MessageRead :=
  let version := message.templateVersion.bind fun id =>
    db.templateVersions.rows.find? fun v => v.id == id
  let template := version.bind fun v => db.templates.rows.find? fun t => t.id == v.template
  { id := message.id
    idempotencyKey := message.idempotencyKey
    channel := message.channel
    recipient := message.recipient
    templateName := template.map Template.name
    templateVersion := version.map TemplateVersion.version
    renderedSubject := message.renderedSubject
    renderedBody := message.renderedBody
    context := message.context
    priority := message.priority
    status := message.status
    scheduledAt := message.scheduledAt
    createdAt := message.createdAt
    updatedAt := message.updatedAt }

end Serializers

end NotifyRelay
