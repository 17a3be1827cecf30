import NotifyRelay.Models

/-! `render`, and what `create_message` stores of it. Jinja2, `json.loads` and the database
driver are outside the program: a call meets them as an `Engine`, any functions of what they
are given that keep the laws written there. -/
namespace NotifyRelay

/-- A `context` in memory. A template may call the methods of the lists and dicts in it, and may
put there what JSON has no form for: `object` tells what came of it, and `equals` is `==` with
a decoded object. -/
inductive PyContext where
  | parsed (context : JsonObject)
  | changed (object : Nat) (equals : JsonObject → Bool)

instance : Coe JsonObject PyContext := ⟨.parsed⟩

namespace JsonObject

def storable (context : JsonObject) : Bool :=
  (Json.obj context.members).every (fun _ => true) storableText

/-- The numbers below 10^16. The encoder writes them without an exponent, and `jsonb` keeps
their fraction; a larger `float` comes back as the `int` of its digits. -/
def smallNumber (value : Rat) : Bool :=
  decide (value.num.natAbs < 10000000000000000 * value.den)

def small (context : JsonObject) : Bool :=
  (Json.obj context.members).every smallNumber fun _ => true

end JsonObject

namespace PyContext

def pyEq : PyContext → JsonObject → Bool
  | .parsed context, other => context.pyEq other
  | .changed _ equals, other => equals other

/-- Nothing is said of what a template has changed. -/
def storable : PyContext → Bool
  | .parsed context => context.storable
  | .changed _ _ => true

end PyContext

structure PyException where
  typeName : String
  text : String
  deriving DecidableEq, Repr

/-- What `json.loads` does with a text. `recursionError` is the interpreter's
answer to arrays and objects nested beyond its recursion limit. -/
inductive JsonLoads where
  | value
  | valueError (text : String)
  | recursionError
  deriving DecidableEq, Repr

/-- What an INSERT into `messages` is given that came with the request. -/
structure MessageValues where
  idempotencyKey : String
  recipient : String
  renderedSubject : String
  renderedBody : String
  context : PyContext

def MessageValues.storable (values : MessageValues) : Bool :=
  storableText values.idempotencyKey && storableText values.recipient &&
    storableText values.renderedSubject && storableText values.renderedBody &&
    values.context.storable

/-- The JSON encoder, psycopg and PostgreSQL refuse an INSERT for one of its values, or take it;
`store` is the context that is read back. What is not storable is always refused, and small
numbers stay what they are. -/
structure Postgres where
  store : MessageValues → Except PyException JsonObject
  refused : ∀ values, values.storable = false → ∃ exception, store values = .error exception
  kept : ∀ values context stored, values.context = .parsed context → context.small = true →
    store values = .ok stored → context.pyEq stored = true

/-- `jinja autoescape source context` is `from_string(source).render(context)` in
the environment with that `autoescape`, and `leaves` the context when it is over. -/
structure Engine where
  jinja : Bool → String → PyContext → Except PyException String
  leaves : Bool → String → PyContext → PyContext
  jsonLoads : String → JsonLoads
  postgres : Postgres

/-- The exceptions that leave `render`. -/
inductive RenderFailure where
  | renderError (detail : String)
  | recursionError
  deriving DecidableEq, Repr

structure RenderedMessage where
  subject : String
  body : String
  deriving DecidableEq, Repr

/-- The result of `render`, and the context it leaves to its caller. -/
structure RenderOutcome extends RenderedMessage where
  context : PyContext

namespace Renderer

def maxRenderedChars : Nat := 256 * 1024

def wrapped (exception : PyException) : RenderFailure :=
  .renderError (exception.typeName ++ ": " ++ exception.text)

/-- The texts the two templates of a version give, before any check. -/
def renderTexts (engine : Engine) (version : TemplateVersion) (context : JsonObject)
    (channel : Channel) : Except PyException RenderOutcome := do
  let body ← engine.jinja (channel == .email) version.bodyTemplate context
  let left := engine.leaves (channel == .email) version.bodyTemplate context
  if version.subjectTemplate = "" then pure ⟨⟨"", body⟩, left⟩
  else
    let subject ← engine.jinja false version.subjectTemplate left
    pure ⟨⟨subject, body⟩, engine.leaves false version.subjectTemplate left⟩

/-- Only `ValueError` is caught around `json.loads`. -/
def checkJson (engine : Engine) (channel : Channel) (body : String) :
    Except RenderFailure Unit :=
  if channel = .webhook then
    match engine.jsonLoads body with
    | .value => .ok ()
    | .valueError text => .error (.renderError ("webhook body is not valid JSON: " ++ text))
    | .recursionError => .error .recursionError
  else .ok ()

def render (engine : Engine) (version : TemplateVersion) (context : JsonObject)
    (channel : Channel) : Except RenderFailure RenderOutcome :=
  match renderTexts engine version context channel with
  | .error exception => .error (wrapped exception)
  | .ok rendered =>
      if maxRenderedChars < rendered.body.length + rendered.subject.length then
        .error (.renderError s!"rendered message exceeds {maxRenderedChars} characters")
      else
        match checkJson engine channel rendered.body with
        | .error failure => .error failure
        | .ok () => .ok rendered

theorem renderTexts_ok {engine : Engine} {version : TemplateVersion} {context : JsonObject}
    {channel : Channel} {rendered : RenderOutcome}
    (h : renderTexts engine version context channel = .ok rendered) :
    engine.jinja (channel == .email) version.bodyTemplate context = .ok rendered.body ∧
      (rendered.context = engine.leaves (channel == .email) version.bodyTemplate context ∨
        rendered.context = engine.leaves false version.subjectTemplate
          (engine.leaves (channel == .email) version.bodyTemplate context)) := by
  unfold renderTexts at h
  cases hbody : engine.jinja (channel == .email) version.bodyTemplate context with
  | error exception =>
      rw [hbody] at h
      contradiction
  | ok body =>
      rw [hbody] at h
      simp only [bind, Except.bind, pure, Except.pure] at h
      split at h
      next =>
        cases h
        exact ⟨rfl, .inl rfl⟩
      next =>
        split at h <;> cases h
        exact ⟨rfl, .inr rfl⟩

/-- What `render` returns has passed both checks. -/
theorem render_ok {engine : Engine} {version : TemplateVersion} {context : JsonObject}
    {channel : Channel} {rendered : RenderOutcome}
    (h : render engine version context channel = .ok rendered) :
    renderTexts engine version context channel = .ok rendered ∧
      rendered.body.length + rendered.subject.length ≤ maxRenderedChars ∧
      checkJson engine channel rendered.body = .ok () := by
  unfold render at h
  split at h
  next => contradiction
  next htexts =>
    split at h
    next => contradiction
    next hsize =>
      split at h <;> cases h
      next hcheck => exact ⟨htexts, Nat.not_lt.mp hsize, hcheck⟩

/-- Where no template changes its context, `render` leaves it as it was. -/
theorem render_context {engine : Engine} {version : TemplateVersion} {context : JsonObject}
    {channel : Channel} {rendered : RenderOutcome}
    (hleaves : ∀ escape source context, engine.leaves escape source context = context)
    (h : render engine version context channel = .ok rendered) : rendered.context = context := by
  rcases (renderTexts_ok (render_ok h).1).2 with hcontext | hcontext
  · rw [hcontext, hleaves]
  · rw [hcontext, hleaves, hleaves]

/-- Jinja2 gives a webhook body that is nested too deeply for `json.loads`. -/
def overflows (engine : Engine) (version : TemplateVersion) (context : JsonObject)
    (channel : Channel) : Bool :=
  match renderTexts engine version context channel with
  | .error _ => false
  | .ok rendered =>
      decide (rendered.body.length + rendered.subject.length ≤ maxRenderedChars) &&
        channel == .webhook && engine.jsonLoads rendered.body == .recursionError

/-- `json.loads` is the only way an exception other than `RenderError` gets out. -/
theorem render_recursionError {engine : Engine} {version : TemplateVersion}
    {context : JsonObject} {channel : Channel} :
    render engine version context channel = .error .recursionError ↔
      overflows engine version context channel = true := by
  unfold render overflows
  cases renderTexts engine version context channel with
  | error exception => simp [wrapped]
  | ok rendered =>
      by_cases hlarge : maxRenderedChars < rendered.body.length + rendered.subject.length
      · simp [hlarge, Nat.not_le.mpr hlarge]
      · have hfits := Nat.not_lt.mp hlarge
        simp only [hlarge, hfits, if_false, decide_true, Bool.true_and]
        cases channel with
        | email => simp [checkJson]
        | webhook => cases hloads : engine.jsonLoads rendered.body <;> simp [checkJson, hloads]

end Renderer
end NotifyRelay
