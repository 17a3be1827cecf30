import NotifyRelay.Serializers

/-! `MessageViewSet.create`: what a POST answers, and what it does to the database and the
broker when nothing else runs in between. `MessageViewSet.retrieve`: what a GET answers. -/
namespace NotifyRelay

inductive ResponseBody where
  | error (code detail : String)
  | fieldErrors (code : String) (errors : FieldErrors)
  | message (message : MessageRead)

structure Response where
  status : Nat
  body : ResponseBody

/-- The exceptions that leave `create`. -/
inductive ViewError where
  | guard (error : GuardError)
  | create (error : CreateError)

abbrev Answer := Except ViewError Response

/-- `auth` is the API key that authenticated the request, `idempotencyHeader` what `META`
has for it. -/
structure ApiRequest (Body : Type) where
  auth : Option ApiKeyId
  idempotencyHeader : Option String
  data : Body

/-- The arguments of `create_message`. -/
structure CreateArgs where
  apiKey : ApiKeyId
  idempotencyKey : String
  data : MessageData

/-- Who sends a request: an API key or a user of the site. -/
inductive Requester where
  | apiKey (id : ApiKeyId)
  | user (isAuthenticated isStaff : Bool)

/-- What `get_object_or_404` raises. -/
structure Http404 where
  message : String

structure CreateResult where
  answer : Answer
  db : Database
  published : List MessageId

namespace MessageViewSet

open Services Serializers

variable {Body : Type}

def idempotencyHeaderName : String := "Idempotency-Key"
def idempotencyKeyMaxLength : Nat := 128

/-- `_error`. -/
def error (code message : String) (status : Nat) : Response := ⟨status, .error code message⟩

/-- The checks of the key and the header. -/
def identify (request : ApiRequest Body) : Except Response (ApiKeyId × String) :=
  match request.auth with
  | none =>
      .error (error "api_key_required" "messages can only be created with an X-API-Key" 403)
  | some apiKey =>
      let idempotencyKey := Text.strip (request.idempotencyHeader.getD "").toList
      if idempotencyKey = [] then
        .error (error "idempotency_key_missing" s!"{idempotencyHeaderName} header is required" 400)
      else if idempotencyKeyMaxLength < idempotencyKey.length then
        .error (error "idempotency_key_too_long"
          s!"{idempotencyHeaderName} is longer than {idempotencyKeyMaxLength} characters" 400)
      else .ok (apiKey, String.ofList idempotencyKey)

/-- The answer to a body the serializer does not accept. -/
def invalidAnswer : Invalid → Answer
  | .errors errors => .ok ⟨422, .fieldErrors "validation_error" errors⟩
  | .raised error => .error (.guard error)

/-- What `create` does before it calls `create_message`. -/
def screen (api : Api Body) (request : ApiRequest Body) : Net (Except Answer CreateArgs) :=
  match identify request with
  | .error response => .done (.error (.ok response))
  | .ok (apiKey, idempotencyKey) =>
      (isValid api request.data).bind fun
        | .error invalid => .done (.error (invalidAnswer invalid))
        | .ok data => .done (.ok ⟨apiKey, idempotencyKey, data⟩)

/-- The object `create_message` returned, read. -/
def readReturned (outcome : CreateOutcome) (message : Message) : MessageRead :=
  { readMessage outcome.db message with context := outcome.memory.getD message.context }

/-- The answer to what `create_message` returned or raised. -/
def respond (outcome : CreateOutcome) : Answer :=
  match outcome.result with
  | .ok (message, _) => .ok ⟨202, .message (readReturned outcome message)⟩
  | .error (.idempotencyConflict detail) => .ok (error "idempotency_conflict" detail 409)
  | .error (.templateNotFound detail) => .ok (error "template_not_found" detail 422)
  | .error (.renderError detail) =>
      .ok (error "template_render_failed" s!"template render failed: {detail}" 422)
  | .error raised => .error (.create raised)

/-- `MessageViewSet.create`. -/
def create (api : Api Body) (engine : Engine) (now : Time) (id : MessageId) (brokerUp : Bool)
    (db : Database) (request : ApiRequest Body) : Net CreateResult :=
  (screen api request).bind fun
    | .error answer => .done ⟨answer, db, []⟩
    | .ok args =>
        let outcome := createMessage engine now id brokerUp db (some args.apiKey)
          args.idempotencyKey args.data
        .done ⟨respond outcome, outcome.db, outcome.published⟩

/-- `get_queryset`. -/
def getQueryset (db : Database) : Requester → List Message
  | .apiKey id => db.messages.rows.filter fun m => m.apiKey == some id
  | .user isAuthenticated isStaff =>
      if isAuthenticated && isStaff then db.messages.rows else []

/-- `MessageViewSet.retrieve`. -/
def retrieve (db : Database) (requester : Requester) (pk : MessageId) :
    Except Http404 Response :=
  match (getQueryset db requester).find? fun m => m.id == pk with
  | none => .error ⟨"No Message matches the given query."⟩
  | some message => .ok ⟨200, .message (readMessage db message)⟩

end MessageViewSet

end NotifyRelay
