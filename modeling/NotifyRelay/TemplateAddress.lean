import NotifyRelay.TemplateOrder
import NotifyRelay.Text

/-! Whether a template can be addressed by its name: what `TemplateUpsertSerializer` takes for a
name, and the URLs of `TemplateViewSet`. -/
namespace NotifyRelay

open Templates TemplateStore

/-- A body for `POST /templates/` whose fields are texts. -/
structure UpsertBody where
  name : String
  channel : String
  subjectTemplate : Option String
  bodyTemplate : String

namespace TemplateUpsertSerializer

/-- `CharField`, which trims its text; `none` is a validation error. -/
def charField (allowBlank : Bool) (maxLength : Nat) (raw : String) : Option String :=
  let text := Text.strip raw.toList
  if (text.isEmpty && !allowBlank) || maxLength < text.length || text.contains '\x00' then none
  else some (String.ofList text)

/-- `ChoiceField` over `Channel.choices`. -/
def choiceField (raw : String) : Option Channel :=
  [Channel.email, Channel.webhook].find? fun channel => channel.value == raw

/-- `is_valid` and `validated_data`. -/
def validate (body : UpsertBody) : Option UpsertRequest := do
  let name ← charField false 128 body.name
  let channel ← choiceField body.channel
  let subjectTemplate ← charField true 998 (body.subjectTemplate.getD "")
  let bodyTemplate ← charField false (64 * 1024) body.bodyTemplate
  pure ⟨name, channel, subjectTemplate, bodyTemplate⟩

theorem charField_ne_nil {maxLength : Nat} {raw text : String}
    (h : charField false maxLength raw = some text) : text.toList ≠ [] := by
  unfold charField at h
  dsimp only at h
  split at h
  next => contradiction
  next hguard =>
    cases h
    rintro hempty
    rw [String.toList_ofList] at hempty
    simp [hempty] at hguard

theorem validate_name {body : UpsertBody} {request : UpsertRequest}
    (h : validate body = some request) : charField false 128 body.name = some request.name := by
  obtain ⟨name, hname, h⟩ := Option.bind_eq_some_iff.mp h
  obtain ⟨channel, _, h⟩ := Option.bind_eq_some_iff.mp h
  obtain ⟨subjectTemplate, _, h⟩ := Option.bind_eq_some_iff.mp h
  obtain ⟨bodyTemplate, _, h⟩ := Option.bind_eq_some_iff.mp h
  cases h
  exact hname

end TemplateUpsertSerializer

namespace TemplateViewSet

/-- A character of `[\w.-]`. -/
def lookupChar (isAlnum : Char → Bool) (c : Char) : Bool :=
  isAlnum c || c == '_' || c == '.' || c == '-'

/-- The whole of a text in the language of `lookup_value_regex`. -/
def lookupValue (isAlnum : Char → Bool) (text : List Char) : Bool :=
  !text.isEmpty && text.all (lookupChar isAlnum)

/-- The actions on one template, with the arguments in their URLs. -/
inductive Route where
  | detail (name : String)
  | versions (name : String)
  | versionDetail (name : String) (version : Nat)

def Route.name : Route → String
  | .detail name | .versions name | .versionDetail name _ => name

def detailPath (name : String) : String := "templates/" ++ name ++ "/"

def versionsPath (name : String) : String := "templates/" ++ name ++ "/versions/"

/-- The router: which action a path below `api/v1/` is for, if it is one of these. `isAlnum` is
`str.isalnum`, which says what `\w` matches. -/
structure Router where
  isAlnum : Char → Bool
  resolve : String → Option Route
  detail : ∀ name, lookupValue isAlnum name.toList = true →
    resolve (detailPath name) = some (.detail name)
  versions : ∀ name, lookupValue isAlnum name.toList = true →
    resolve (versionsPath name) = some (.versions name)
  /-- The name in a URL is matched by `lookup_value_regex`. -/
  lookup : ∀ path route, resolve path = some route → lookupValue isAlnum route.name.toList = true

inductive Method where
  | get
  | delete

inductive Answer where
  /-- No action on one template is at that URL. -/
  | elsewhere
  | notFound
  | methodNotAllowed
  | detail (template : Template) (latest : Option TemplateVersion)
  | deleted (db : Database)
  | versions (rows : List TemplateVersion)
  | version (row : TemplateVersion)

/-- `tmpl.versions.order_by("-version")`. -/
def orderedVersions (db : Database) (id : TemplateId) : List TemplateVersion :=
  (versionsOf db id).insertionSort fun v w => v.version ≥ w.version

/-- `Template.latest_version`. -/
def latestVersion (db : Database) (id : TemplateId) : Option TemplateVersion :=
  (orderedVersions db id).head?

/-- `get_object_or_404(self.queryset, name=name)`. -/
def getObjectOr404 (db : Database) (name : String) (answer : Template → Answer) : Answer :=
  match aliveNamed db name with
  | none => .notFound
  | some template => answer template

def retrieve (db : Database) (name : String) : Answer :=
  getObjectOr404 db name fun template => .detail template (latestVersion db template.id)

def destroy (db : Database) (name : String) (now : Time) : Answer :=
  getObjectOr404 db name fun template => .deleted (Templates.destroy db template.id now)

def versions (db : Database) (name : String) : Answer :=
  getObjectOr404 db name fun template => .versions (orderedVersions db template.id)

def versionDetail (db : Database) (name : String) (version : Nat) : Answer :=
  getObjectOr404 db name fun template =>
    match (versionsOf db template.id).find? fun v => v.version == version with
    | none => .notFound
    | some row => .version row

/-- A request for the URL of one template. -/
def dispatch (router : Router) (db : Database) (now : Time) (method : Method) (path : String) :
    Answer :=
  match router.resolve path, method with
  | none, _ => .elsewhere
  | some (.detail name), .get => retrieve db name
  | some (.detail name), .delete => destroy db name now
  | some (.versions name), .get => versions db name
  | some (.versionDetail name version), .get => versionDetail db name version
  | some _, .delete => .methodNotAllowed

variable {db db' : Database} {request : UpsertRequest} {name : String} {template : Template}

theorem getObjectOr404_of_aliveNamed (h : aliveNamed db name = some template)
    (answer : Template → Answer) : getObjectOr404 db name answer = answer template := by
  rw [getObjectOr404, h]

theorem exists_of_getObjectOr404 {answer : Template → Answer} {given : Answer}
    (h : getObjectOr404 db name answer = given) (hgiven : given ≠ .notFound) :
    ∃ template, aliveNamed db name = some template ∧ answer template = given := by
  unfold getObjectOr404 at h
  split at h
  next => exact absurd h.symm hgiven
  next template hrow => exact ⟨template, hrow, h⟩

/-- Only the URL of its own name shows a template. -/
theorem resolve_of_detail {router : Router} {now : Time} {path : String}
    {latest : Option TemplateVersion}
    (h : dispatch router db now .get path = .detail template latest) :
    router.resolve path = some (.detail template.name) := by
  unfold dispatch at h
  split at h
  next => contradiction
  next name hresolve _ =>
    obtain ⟨found, hrow, hfound⟩ := exists_of_getObjectOr404 h nofun
    cases hfound
    rw [hresolve, (Template.eq_of_aliveName (aliveNamed_eq_some.mp hrow).2).2]
  next => contradiction
  next =>
    obtain ⟨found, _, hfound⟩ := exists_of_getObjectOr404 h nofun
    contradiction
  next =>
    obtain ⟨found, _, hfound⟩ := exists_of_getObjectOr404 h nofun
    split at hfound <;> contradiction
  next => contradiction

/-- A template whose name is not in the language of `lookup_value_regex` is shown at no URL. -/
theorem lookupValue_of_detail {router : Router} {now : Time} {path : String}
    {latest : Option TemplateVersion}
    (h : dispatch router db now .get path = .detail template latest) :
    lookupValue router.isAlnum template.name.toList = true := by
  have hroute := router.lookup _ _ (resolve_of_detail h)
  rwa [Route.name] at hroute

theorem committed_of_append {own : Bool} {number : Nat} {versionId : TemplateVersionId}
    {v : TemplateVersion}
    (h : append db request template own number versionId = (.created v, db')) :
    committed db template own v = some db' ∧ v.template = template.id := by
  unfold append at h
  dsimp only at h
  split at h
  next => cases (Prod.mk.inj h).1
  next hcommit =>
    cases h
    exact ⟨hcommit, rfl⟩

/-- After a `create` that is answered 201 the template is alive. -/
theorem exists_aliveNamed_of_create {templateId : TemplateId} {versionId : TemplateVersionId}
    {v : TemplateVersion} (h : create db request templateId versionId = (.created v, db')) :
    ∃ a, aliveNamed db' request.name = some a ∧ v.template = a.id := by
  unfold create at h
  split at h
  next =>
    obtain ⟨hcommit, htemplate⟩ := committed_of_append h
    have hmem := ((committed_eq_some hcommit).1 _).mpr (.inr ⟨rfl, rfl⟩)
    exact ⟨_, aliveNamed_eq_some.mpr ⟨hmem, rfl⟩, htemplate⟩
  next a hrow =>
    split at h
    next =>
      have hanswer := found_answer request a
      rw [(Prod.mk.inj h).1] at hanswer
      contradiction
    next =>
      obtain ⟨hcommit, htemplate⟩ := committed_of_append h
      exact ⟨a, aliveNamed_of_committed hcommit hrow, htemplate⟩

end TemplateViewSet

open TemplateViewSet

/-- The URLs of a new template reach it if and only if its name has no other characters than
`\w`, `.` and `-`. -/
theorem template_addressed_iff (router : Router) {body : UpsertBody} {request : UpsertRequest}
    (hvalid : TemplateUpsertSerializer.validate body = some request) {db db' : Database}
    {templateId : TemplateId} {versionId : TemplateVersionId} {v : TemplateVersion}
    (hcreate : create db request templateId versionId = (.created v, db')) (now : Time) :
    (∃ a, aliveNamed db' request.name = some a ∧ v.template = a.id ∧
      dispatch router db' now .get (detailPath request.name) =
        .detail a (latestVersion db' a.id) ∧
      dispatch router db' now .delete (detailPath request.name) =
        .deleted (Templates.destroy db' a.id now) ∧
      dispatch router db' now .get (versionsPath request.name) =
        .versions (orderedVersions db' a.id)) ↔
      request.name.toList.all (lookupChar router.isAlnum) = true := by
  have hname := TemplateUpsertSerializer.charField_ne_nil
    (TemplateUpsertSerializer.validate_name hvalid)
  have hlookup : lookupValue router.isAlnum request.name.toList =
      request.name.toList.all (lookupChar router.isAlnum) := by
    rw [lookupValue, List.isEmpty_eq_false_iff.mpr hname, Bool.not_false, Bool.true_and]
  obtain ⟨a, hrow, hversion⟩ := exists_aliveNamed_of_create hcreate
  rw [← hlookup]
  constructor
  · rintro ⟨b, hb, -, hdetail, -, -⟩
    have hreached := lookupValue_of_detail hdetail
    rwa [(Template.eq_of_aliveName (aliveNamed_eq_some.mp hb).2).2] at hreached
  · intro h
    refine ⟨a, hrow, hversion, ?_, ?_, ?_⟩
    · unfold dispatch
      rw [router.detail _ h]
      exact getObjectOr404_of_aliveNamed hrow _
    · unfold dispatch
      rw [router.detail _ h]
      exact getObjectOr404_of_aliveNamed hrow _
    · unfold dispatch
      rw [router.versions _ h]
      exact getObjectOr404_of_aliveNamed hrow _

section Scenario

/-- A path is cut at its slashes. -/
def resolveSegments (isAlnum : Char → Bool) (path : String) : Option Route :=
  match path.toList.splitOn '/' with
  | [collection, name, []] =>
      if collection = "templates".toList ∧ lookupValue isAlnum name = true then
        some (.detail (String.ofList name))
      else none
  | [collection, name, action, []] =>
      if collection = "templates".toList ∧ lookupValue isAlnum name = true ∧
          action = "versions".toList then
        some (.versions (String.ofList name))
      else none
  | [collection, name, action, version, []] =>
      if collection = "templates".toList ∧ lookupValue isAlnum name = true ∧
          action = "versions".toList ∧ Text.isDecimal version = true then
        some (.versionDetail (String.ofList name) (Text.toInt 10 version))
      else none
  | _ => none

variable {isAlnum : Char → Bool}

theorem slash_not_mem (hslash : isAlnum '/' = false) {name : List Char}
    (h : lookupValue isAlnum name = true) : '/' ∉ name := by
  intro hmem
  have hchar := List.all_eq_true.mp (Bool.and_eq_true _ _ ▸ h).2 _ hmem
  rw [lookupChar, hslash] at hchar
  contradiction

theorem splitOn_path (hslash : isAlnum '/' = false) {name : List Char}
    (h : lookupValue isAlnum name = true) {rest : List (List Char)}
    (hrest : ∀ segment ∈ rest, '/' ∉ segment) :
    (['/'].intercalate ("templates".toList :: name :: rest)).splitOn '/' =
      "templates".toList :: name :: rest := by
  refine List.splitOn_intercalate '/' ?_ (List.cons_ne_nil _ _)
  rw [List.forall_mem_cons, List.forall_mem_cons]
  exact ⟨by decide, slash_not_mem hslash h, hrest⟩

theorem resolveSegments_detail (hslash : isAlnum '/' = false) (name : String)
    (h : lookupValue isAlnum name.toList = true) :
    resolveSegments isAlnum (detailPath name) = some (.detail name) := by
  have hpath : (detailPath name).toList =
      ['/'].intercalate ["templates".toList, name.toList, []] := by
    simp [detailPath, String.toList_append, List.intercalate]
  unfold resolveSegments
  rw [hpath, splitOn_path hslash h (by decide)]
  exact (if_pos ⟨rfl, h⟩).trans (by rw [String.ofList_toList])

theorem resolveSegments_versions (hslash : isAlnum '/' = false) (name : String)
    (h : lookupValue isAlnum name.toList = true) :
    resolveSegments isAlnum (versionsPath name) = some (.versions name) := by
  have hpath : (versionsPath name).toList =
      ['/'].intercalate ["templates".toList, name.toList, "versions".toList, []] := by
    simp [versionsPath, String.toList_append, List.intercalate]
  unfold resolveSegments
  rw [hpath, splitOn_path hslash h (by decide)]
  exact (if_pos ⟨rfl, h, rfl⟩).trans (by rw [String.ofList_toList])

theorem resolveSegments_lookup (path : String) (route : Route)
    (h : resolveSegments isAlnum path = some route) :
    lookupValue isAlnum route.name.toList = true := by
  unfold resolveSegments at h
  split at h
  next =>
    split at h
    next hguard =>
      cases h
      rw [Route.name, String.toList_ofList]
      exact hguard.2
    next => contradiction
  next =>
    split at h
    next hguard =>
      cases h
      rw [Route.name, String.toList_ofList]
      exact hguard.2.1
    next => contradiction
  next =>
    split at h
    next hguard =>
      cases h
      rw [Route.name, String.toList_ofList]
      exact hguard.2.1
    next => contradiction
  next => contradiction

def segmentRouter (isAlnum : Char → Bool) (hslash : isAlnum '/' = false) : Router where
  isAlnum := isAlnum
  resolve := resolveSegments isAlnum
  detail := resolveSegments_detail hslash
  versions := resolveSegments_versions hslash
  lookup := resolveSegments_lookup

/-- On texts of ASCII. -/
def asciiRouter : Router := segmentRouter Char.isAlphanum rfl

def orderReady : UpsertRequest := ⟨"order-ready", .email, "", "Hello"⟩

theorem template_addressed_order_ready :
    ∃ a, aliveNamed (create .empty orderReady 1 10).2 "order-ready" = some a ∧ 1 = a.id ∧
      dispatch asciiRouter (create .empty orderReady 1 10).2 5 .get "templates/order-ready/" =
        .detail a (latestVersion (create .empty orderReady 1 10).2 a.id) ∧
      dispatch asciiRouter (create .empty orderReady 1 10).2 5 .delete "templates/order-ready/" =
        .deleted (Templates.destroy (create .empty orderReady 1 10).2 a.id 5) ∧
      dispatch asciiRouter (create .empty orderReady 1 10).2 5 .get
          "templates/order-ready/versions/" =
        .versions (orderedVersions (create .empty orderReady 1 10).2 a.id) := by
  have hvalid : TemplateUpsertSerializer.validate ⟨" order-ready ", "email", none, "Hello"⟩ =
      some orderReady := rfl
  have hcreate : create .empty orderReady 1 10 =
      (.created ⟨10, 1, 1, "", "Hello"⟩, (create .empty orderReady 1 10).2) := rfl
  exact (template_addressed_iff asciiRouter hvalid hcreate 5).mpr (by decide)

/-- A name with a blank is accepted, and no URL leads to the template. -/
theorem template_unaddressed :
    TemplateUpsertSerializer.validate ⟨"order ready", "email", none, "Hello"⟩ =
      some { orderReady with name := "order ready" } ∧
    ∃ v db, create .empty { orderReady with name := "order ready" } 1 10 = (.created v, db) ∧
      (aliveNamed db "order ready").isSome = true ∧
      dispatch asciiRouter db 5 .get "templates/order ready/" = .elsewhere ∧
      dispatch asciiRouter db 5 .delete "templates/order ready/" = .elsewhere ∧
      dispatch asciiRouter db 5 .get "templates/order ready/versions/" = .elsewhere :=
  ⟨rfl, _, _, rfl, rfl, rfl, rfl, rfl⟩

end Scenario

end NotifyRelay
