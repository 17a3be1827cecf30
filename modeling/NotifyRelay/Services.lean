import NotifyRelay.Renderer
import Mathlib.Data.List.Sort

/-! `apps/messages_api/services.py`: the pieces `create_message` is made of and,
from them, a call that nothing interrupts. The same pieces are the steps of a
call that runs among others. -/
namespace NotifyRelay

/-- `validated_data`, what the serializer hands over. -/
structure MessageData where
  channel : Channel
  recipient : String
  template : Option String
  templateVersion : Option Nat
  context : Option JsonObject
  priority : Option Priority
  scheduledAt : Option Time

/-- The exceptions that leave `create_message`. -/
inductive CreateError where
  | idempotencyConflict (detail : String)
  | templateNotFound (detail : String)
  | renderError (detail : String)
  | recursionError
  | integrityError
  /-- The `DataError`, `TypeError` or other exception of an INSERT that is refused for a value. -/
  | notStored (exception : PyException)
  deriving DecidableEq, Repr

namespace Services

/-- `_find_existing`: `.first()` takes the newest row, as the model orders by
`-created_at`. -/
def findExisting (db : Database) (apiKey : Option ApiKeyId) (idempotencyKey : String) :
    Option Message :=
  ((db.messages.rows.filter fun m =>
      m.apiKey == apiKey && m.idempotencyKey == idempotencyKey).insertionSort
    fun a b => b.createdAt ≤ a.createdAt).head?

/-- `_payload_matches`. `context` is what `new` has for a context by then, or the empty dict. -/
def payloadMatchesWith (context : PyContext) (existing : Message) (new : MessageData) : Bool :=
  if existing.channel ≠ new.channel then false
  else if existing.recipient ≠ new.recipient then false
  else if !context.pyEq (JsonObject.orEmpty (some existing.context)) then false
  else if new.scheduledAt ≠ existing.scheduledAt then false
  else existing.priority == new.priority.getD .default

/-- The context of a payload that no template was given yet. -/
def pristine (data : MessageData) : PyContext := .parsed (JsonObject.orEmpty data.context)

def payloadMatches (existing : Message) (new : MessageData) : Bool :=
  payloadMatchesWith (pristine new) existing new

/-- `_replay`. -/
def replayWith (context : PyContext) (existing : Message) (data : MessageData) :
    Except CreateError Message :=
  if payloadMatchesWith context existing data then .ok existing
  else .error (.idempotencyConflict "Idempotency-Key reused with different payload")

def replay (existing : Message) (data : MessageData) : Except CreateError Message :=
  replayWith (pristine data) existing data

/-- `Template.latest_version`. -/
def latestVersion (db : Database) (template : Template) : Option TemplateVersion :=
  ((db.templateVersions.rows.filter fun v => v.template == template.id).insertionSort
    fun a b => b.version ≤ a.version).head?

/-- `_resolve_template`. A missing or zero `template_version` asks for the latest. -/
def resolveTemplate (db : Database) (data : MessageData) : Except CreateError TemplateVersion :=
  let name := data.template.getD ""
  if name = "" then .error (.templateNotFound "template name is required")
  else
    let channel := data.channel.value
    let missing := s!"template '{name}' not found for channel '{channel}'"
    match db.templates.rows.find? fun t => t.alive && t.name == name with
    | none => .error (.templateNotFound missing)
    | some template =>
        if template.channel ≠ data.channel then .error (.templateNotFound missing)
        else
          let requested := data.templateVersion.getD 0
          if requested ≠ 0 then
            match db.templateVersions.rows.find? fun v =>
                v.template == template.id && v.version == requested with
            | some version => .ok version
            | none => .error (.templateNotFound
                s!"version {requested} not found for template '{name}'")
          else
            match latestVersion db template with
            | some version => .ok version
            | none => .error (.templateNotFound s!"template '{name}' has no versions")

def renderFailed : RenderFailure → CreateError
  | .renderError detail => .renderError detail
  | .recursionError => .recursionError

/-- Template resolution and rendering, everything between the first lookup and
the reading of the clock. -/
def resolveAndRender (engine : Engine) (db : Database) (data : MessageData) :
    Except CreateError (TemplateVersion × RenderOutcome) := do
  let version ← resolveTemplate db data
  let rendered ←
    (Renderer.render engine version (JsonObject.orEmpty data.context) data.channel).mapError
      renderFailed
  pure (version, rendered)

/-- The exceptions `MessageViewSet.create` knows. -/
def documented : CreateError → Bool
  | .idempotencyConflict _ | .templateNotFound _ | .renderError _ => true
  | .recursionError | .integrityError | .notStored _ => false

/-- The version that is asked for renders to a body `json.loads` gives up on. -/
def overflows (engine : Engine) (db : Database) (data : MessageData) : Bool :=
  match resolveTemplate db data with
  | .error _ => false
  | .ok version =>
      Renderer.overflows engine version (JsonObject.orEmpty data.context) data.channel

def sendNow (data : MessageData) (now : Time) : Bool :=
  match data.scheduledAt with
  | none => true
  | some scheduledAt => decide (scheduledAt ≤ now)

/-- `validated_data.get("context") or {}` after the templates. `render` was given the dict of the
request, but a dict of its own in the place of an empty one. -/
def keptContext (data : MessageData) (rendered : RenderOutcome) : PyContext :=
  if (JsonObject.orEmpty data.context).members.isEmpty then JsonObject.empty
  else rendered.context

theorem keptContext_of_eq {data : MessageData} {rendered : RenderOutcome}
    (h : rendered.context = JsonObject.orEmpty data.context) :
    keptContext data rendered = JsonObject.orEmpty data.context := by
  unfold keptContext
  split
  next hempty => rw [JsonObject.eq_empty hempty]
  next => exact h

def messageValues (idempotencyKey : String) (data : MessageData) (rendered : RenderOutcome) :
    MessageValues where
  idempotencyKey := idempotencyKey
  recipient := data.recipient
  renderedSubject := rendered.subject
  renderedBody := rendered.body
  context := keptContext data rendered

/-- The row `Message.objects.create` inserts: `context` is what is stored of the context, `now` was
read before the insert, `clock` is the time of the insert itself. -/
def newMessage (id : MessageId) (apiKey : Option ApiKeyId) (idempotencyKey : String)
    (data : MessageData) (version : TemplateVersion) (rendered : RenderedMessage)
    (context : JsonObject) (now clock : Time) : Message where
  id := id
  idempotencyKey := idempotencyKey
  apiKey := apiKey
  channel := data.channel
  recipient := data.recipient
  templateVersion := some version.id
  renderedSubject := rendered.subject
  renderedBody := rendered.body
  context := context
  priority := data.priority.getD .default
  status := .queued
  scheduledAt := data.scheduledAt
  enqueuedAt := if sendNow data now then some now else none
  claimedBy := ""
  createdAt := clock
  updatedAt := clock

theorem resolveTemplate_error {db : Database} {data : MessageData} {error : CreateError}
    (h : resolveTemplate db data = .error error) : ∃ detail, error = .templateNotFound detail := by
  unfold resolveTemplate at h
  dsimp only at h
  repeat' split at h
  all_goals first
    | contradiction
    | (cases h; exact ⟨_, rfl⟩)

/-- The version a payload asks for: of the alive template it names, the pinned one or else
the latest. -/
structure Resolved (db : Database) (data : MessageData) (version : TemplateVersion) : Prop where
  row : version ∈ db.templateVersions.rows
  template : ∃ template ∈ db.templates.rows, template.id = version.template ∧
    template.alive = true ∧ data.template = some template.name ∧ template.channel = data.channel
  pinned : ∀ n, data.templateVersion = some n → n ≠ 0 → version.version = n
  latest : data.templateVersion.getD 0 = 0 → ∀ other ∈ db.templateVersions.rows,
    other.template = version.template → other.version ≤ version.version

theorem latestVersion_some {db : Database} {template : Template} {version : TemplateVersion}
    (h : latestVersion db template = some version) :
    version ∈ db.templateVersions.rows ∧ version.template = template.id ∧
      ∀ other ∈ db.templateVersions.rows, other.template = template.id →
        other.version ≤ version.version := by
  have hmem : ∀ v : TemplateVersion, v ∈ (db.templateVersions.rows.filter fun v =>
      v.template == template.id) ↔ v ∈ db.templateVersions.rows ∧ v.template = template.id := by
    simp
  obtain ⟨rest, hsorted⟩ := List.head?_eq_some_iff.mp h
  have hhead : version ∈ version :: rest := List.mem_cons_self
  rw [← hsorted, List.mem_insertionSort, hmem] at hhead
  refine ⟨hhead.1, hhead.2, fun other hother htemplate => ?_⟩
  have horder : (version :: rest).Pairwise fun a b => b.version ≤ a.version := by
    rw [← hsorted]
    have : Std.Total fun a b : TemplateVersion => b.version ≤ a.version :=
      ⟨fun a b => Nat.le_total _ _⟩
    have : IsTrans TemplateVersion fun a b => b.version ≤ a.version :=
      ⟨fun a b c hab hbc => Nat.le_trans hbc hab⟩
    exact List.pairwise_insertionSort _ _
  have hin : other ∈ version :: rest := by
    rw [← hsorted, List.mem_insertionSort, hmem]
    exact ⟨hother, htemplate⟩
  rcases List.mem_cons.mp hin with rfl | hrest
  · exact Nat.le_refl _
  · exact (List.pairwise_cons.mp horder).1 other hrest

theorem resolveTemplate_ok {db : Database} {data : MessageData} {version : TemplateVersion}
    (h : resolveTemplate db data = .ok version) : Resolved db data version := by
  unfold resolveTemplate at h
  dsimp only at h
  split at h
  next => contradiction
  next hname =>
    have hgiven : data.template = some (data.template.getD "") := by
      cases htemplate : data.template with
      | none =>
          rw [htemplate] at hname
          exact absurd rfl hname
      | some name => rfl
    split at h
    next => contradiction
    next template hfind =>
      have hmatches := List.find?_some hfind
      rw [Bool.and_eq_true, beq_iff_eq] at hmatches
      split at h
      next => contradiction
      next hchannel =>
        have htemplate : ∀ id, template.id = id → ∃ t ∈ db.templates.rows, t.id = id ∧
            t.alive = true ∧ data.template = some t.name ∧ t.channel = data.channel :=
          fun id hid => ⟨template, List.mem_of_find?_eq_some hfind, hid, hmatches.1,
            hmatches.2 ▸ hgiven, not_not.mp hchannel⟩
        split at h
        next hrequested =>
          split at h <;> cases h
          next hversion =>
            have hnumber := List.find?_some hversion
            rw [Bool.and_eq_true, beq_iff_eq, beq_iff_eq] at hnumber
            exact
              { row := List.mem_of_find?_eq_some hversion
                template := htemplate _ hnumber.1.symm
                pinned := fun n hpinned _ => by rw [hnumber.2, hpinned, Option.getD_some]
                latest := fun hzero => absurd hzero hrequested }
        next hzero =>
          split at h <;> cases h
          next hlatest =>
            obtain ⟨hrow, hown, hmax⟩ := latestVersion_some hlatest
            exact
              { row := hrow
                template := htemplate _ hown.symm
                pinned := fun n hpinned hn => absurd (by rw [hpinned]; exact hn) hzero
                latest := fun _ other hother hsame => hmax other hother (hsame.trans hown) }

theorem resolveAndRender_of_resolved {engine : Engine} {db : Database} {data : MessageData}
    {version : TemplateVersion} (h : resolveTemplate db data = .ok version) :
    resolveAndRender engine db data =
      match Renderer.render engine version (JsonObject.orEmpty data.context) data.channel with
      | .error failure => .error (renderFailed failure)
      | .ok rendered => .ok (version, rendered) := by
  unfold resolveAndRender
  rw [h]
  change (Except.mapError renderFailed _ >>= _) = _
  cases Renderer.render engine version (JsonObject.orEmpty data.context) data.channel <;> rfl

theorem resolveAndRender_ok {engine : Engine} {db : Database} {data : MessageData}
    {version : TemplateVersion} {rendered : RenderOutcome}
    (h : resolveAndRender engine db data = .ok (version, rendered)) :
    Resolved db data version ∧
      Renderer.render engine version (JsonObject.orEmpty data.context) data.channel =
        .ok rendered := by
  cases hresolve : resolveTemplate db data with
  | error error =>
      unfold resolveAndRender at h
      rw [hresolve] at h
      contradiction
  | ok found =>
      rw [resolveAndRender_of_resolved hresolve] at h
      split at h <;> cases h
      next hrender => exact ⟨resolveTemplate_ok hresolve, hrender⟩

theorem resolveAndRender_error {engine : Engine} {db : Database} {data : MessageData}
    {error : CreateError} (h : resolveAndRender engine db data = .error error)
    (hfits : overflows engine db data = false) : documented error = true := by
  cases hresolve : resolveTemplate db data with
  | error other =>
      obtain ⟨detail, rfl⟩ := resolveTemplate_error hresolve
      unfold resolveAndRender at h
      rw [hresolve] at h
      cases h
      rfl
  | ok version =>
      rw [resolveAndRender_of_resolved hresolve] at h
      simp only [overflows, hresolve] at hfits
      cases hrender : Renderer.render engine version (JsonObject.orEmpty data.context)
          data.channel with
      | ok rendered =>
          rw [hrender] at h
          contradiction
      | error failure =>
          rw [hrender] at h
          cases h
          cases failure with
          | renderError detail => rfl
          | recursionError =>
              rw [Renderer.render_recursionError.mp hrender] at hfits
              contradiction

theorem resolveAndRender_recursionError {engine : Engine} {db : Database} {data : MessageData}
    (h : overflows engine db data = true) :
    resolveAndRender engine db data = .error .recursionError := by
  unfold overflows at h
  split at h
  next => contradiction
  next version hresolve =>
    rw [resolveAndRender_of_resolved hresolve, Renderer.render_recursionError.mpr h]
    rfl

theorem sendNow_of_not_scheduled {data : MessageData} {now : Time}
    (h : sendNow data now = false) : ∃ t, data.scheduledAt = some t ∧ now < t := by
  unfold sendNow at h
  split at h
  · contradiction
  · rename_i t ht
    exact ⟨t, ht, by simpa using h⟩

theorem le_of_sendNow {data : MessageData} {now t : Time} (h : sendNow data now = true)
    (ht : data.scheduledAt = some t) : t ≤ now := by
  simpa [sendNow, ht] using h

theorem findExisting_some {db : Database} {apiKey : Option ApiKeyId} {key : String}
    {m : Message} (h : findExisting db apiKey key = some m) :
    m ∈ db.messages.rows ∧ m.apiKey = apiKey ∧ m.idempotencyKey = key := by
  have hmem := List.mem_of_mem_head? (Option.mem_def.mpr h)
  rw [List.mem_insertionSort, List.mem_filter] at hmem
  simpa using hmem

theorem findExisting_isSome {db : Database} {apiKey : Option ApiKeyId} {key : String}
    {m : Message} (hm : m ∈ db.messages.rows) (hkey : m.apiKey = apiKey)
    (hidem : m.idempotencyKey = key) : ∃ found, findExisting db apiKey key = some found := by
  apply Option.isSome_iff_exists.mp
  rw [findExisting, List.isSome_head?]
  apply List.ne_nil_of_mem (a := m)
  rw [List.mem_insertionSort, List.mem_filter]
  simp [hm, hkey, hidem]

/-- With an API key the lookup finds the one row that has the pair. -/
theorem findExisting_eq {db : Database} {apiKey : ApiKeyId} {key : String} {m : Message}
    (hm : m ∈ db.messages.rows) (hpair : m.idempotencyPair = some (apiKey, key)) :
    findExisting db (some apiKey) key = some m := by
  have hcolumns : m.apiKey = some apiKey ∧ m.idempotencyKey = key := by
    simpa [Message.idempotencyPair] using hpair
  obtain ⟨found, hfound⟩ := findExisting_isSome hm hcolumns.1 hcolumns.2
  obtain ⟨hmem, hkey, hidem⟩ := findExisting_some hfound
  have hpair' : found.idempotencyPair = some (apiKey, key) := by
    simp [Message.idempotencyPair, hkey, hidem]
  rw [hfound, db.messages.eq_of_index hmem hm hpair' hpair]

/-- The row made from a payload matches that payload, up to the context. -/
theorem payloadMatches_newMessage (id : MessageId) (apiKey : Option ApiKeyId) (key : String)
    (data : MessageData) (version : TemplateVersion) (rendered : RenderedMessage)
    (context : JsonObject) (now clock : Time) :
    payloadMatchesWith context (newMessage id apiKey key data version rendered context now clock)
      data = true := by
  have hcontext : JsonObject.orEmpty (some context) = context := JsonObject.orEmpty_some context
  simp [payloadMatchesWith, newMessage, hcontext, PyContext.pyEq]

/-- Where a payload matches with one context, it is the other context that decides. -/
theorem payloadMatchesWith_of_matches {context other : PyContext} {existing : Message}
    {data : MessageData} (h : payloadMatchesWith context existing data = true) :
    payloadMatchesWith other existing data = true ↔ other.pyEq existing.context = true := by
  have hcontext : JsonObject.orEmpty (some existing.context) = existing.context :=
    JsonObject.orEmpty_some _
  unfold payloadMatchesWith at h ⊢
  rw [hcontext] at h ⊢
  grind

theorem replayWith_eq_ok {context : PyContext} {existing found : Message} {data : MessageData} :
    replayWith context existing data = .ok found ↔
      payloadMatchesWith context existing data = true ∧ existing = found := by
  unfold replayWith
  split <;> simp_all

theorem replay_of_not_matches {existing : Message} {data : MessageData}
    (h : payloadMatches existing data = false) : replay existing data =
      .error (.idempotencyConflict "Idempotency-Key reused with different payload") := by
  rw [payloadMatches] at h
  simp only [replay, replayWith, h, Bool.false_eq_true, if_false]

theorem replay_eq_ok {existing found : Message} {data : MessageData} :
    replay existing data = .ok found ↔ payloadMatches existing data = true ∧ existing = found :=
  replayWith_eq_ok

/-- What a call returns and does, when nothing else runs in between. `memory` is the context of
a message it has created, as the object it returns has it. -/
structure CreateOutcome where
  result : Except CreateError (Message × Bool)
  memory : Option PyContext
  db : Database
  published : List MessageId

/-- `create_message` without interruption. `brokerUp` tells whether the broker
takes the task; if it does not, the error is only logged. -/
def createMessage (engine : Engine) (now : Time) (id : MessageId) (brokerUp : Bool)
    (db : Database) (apiKey : Option ApiKeyId) (idempotencyKey : String) (data : MessageData) :
    CreateOutcome :=
  match findExisting db apiKey idempotencyKey with
  | some existing => ⟨(replay existing data).map fun m => (m, false), none, db, []⟩
  | none =>
      match resolveAndRender engine db data with
      | .error error => ⟨.error error, none, db, []⟩
      | .ok (version, rendered) =>
          match engine.postgres.store (messageValues idempotencyKey data rendered) with
          | .error exception => ⟨.error (.notStored exception), none, db, []⟩
          | .ok context =>
              let kept := keptContext data rendered
              let message := newMessage id apiKey idempotencyKey data version
                rendered.toRenderedMessage context now now
              match db.messages.insert? message with
              | some messages =>
                  ⟨.ok (message, true), some kept, { db with messages := messages },
                    if sendNow data now && brokerUp then [id] else []⟩
              | none =>
                  match findExisting db apiKey idempotencyKey with
                  | none => ⟨.error .integrityError, none, db, []⟩
                  | some existing =>
                      ⟨(replayWith kept existing data).map fun m => (m, false), none, db, []⟩

/-- A call that finds a row answers with it or with the conflict, and does nothing. -/
theorem createMessage_of_row {db : Database} {row : Message} {apiKey : ApiKeyId} {key : String}
    (hrow : row ∈ db.messages.rows) (hpair : row.idempotencyPair = some (apiKey, key))
    (engine : Engine) (now : Time) (id : MessageId) (brokerUp : Bool) (data : MessageData) :
    createMessage engine now id brokerUp db (some apiKey) key data =
      ⟨(replay row data).map fun m => (m, false), none, db, []⟩ := by
  unfold createMessage
  rw [findExisting_eq hrow hpair]

end Services
end NotifyRelay
