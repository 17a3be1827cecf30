import NotifyRelay.Replay
import NotifyRelay.Library.Unwinding

/-! API keys do not notice each other: the requests of one key are answered alike whether
the other keys send theirs or not. -/
namespace NotifyRelay

open Services Serializers MessageViewSet

/-- What the world contributes to a POST. -/
structure Surroundings where
  engine : Engine
  world : (question : Question) → question.Reply
  now : Time
  id : MessageId
  brokerUp : Bool

inductive MessageRequest (Body : Type) where
  | post (idempotencyHeader : Option String) (data : Body) (surroundings : Surroundings)
  | get (pk : MessageId)

/-- A request that an API key has authenticated. -/
structure Arrival (Body : Type) where
  key : ApiKeyId
  request : MessageRequest Body

inductive ApiAnswer where
  | created (answer : Answer)
  | retrieved (answer : Except Http404 Response)

variable {Body : Type} {api : Api Body}

/-- The API answers one request. -/
def handle (api : Api Body) (db : Database) (arrival : Arrival Body) : ApiAnswer × Database :=
  match arrival.request with
  | .post header data around =>
      let result := ((create api around.engine around.now around.id around.brokerUp db
        ⟨some arrival.key, header, data⟩).run around.world).2
      (.created result.answer, result.db)
  | .get pk => (.retrieved (retrieve db (.apiKey arrival.key) pk), db)

def Arrival.generated (arrival : Arrival Body) : Option MessageId :=
  match arrival.request with
  | .post _ _ around => some around.id
  | .get _ => none

/-- The ids the API draws, in order. -/
def generatedIds (arrivals : List (Arrival Body)) : List MessageId :=
  arrivals.filterMap Arrival.generated

/-- The same request, where the ids are spelled differently and the clock and the broker are
others. The templates render and the names resolve as before. -/
inductive SameRequest (rename : MessageId → MessageId) :
    MessageRequest Body → MessageRequest Body → Prop where
  | post (header : Option String) (data : Body) (around : Surroundings) (now : Time)
      (brokerUp : Bool) :
      SameRequest rename (.post header data around) (.post header data
        { around with now := now, id := rename around.id, brokerUp := brokerUp })
  | get (pk : MessageId) : SameRequest rename (.get pk) (.get (rename pk))

def SameArrival (rename : MessageId → MessageId) (a a' : Arrival Body) : Prop :=
  a'.key = a.key ∧ SameRequest rename a.request a'.request

/-- Responses that differ in ids and timestamps at most. -/
inductive SameResponse (rename : MessageId → MessageId) : Response → Response → Prop where
  | equal (response : Response) : SameResponse rename response response
  | message (status : Nat) (read : MessageRead) (createdAt updatedAt : Time) :
      SameResponse rename ⟨status, .message read⟩ ⟨status, .message
        { read with id := rename read.id, createdAt := createdAt, updatedAt := updatedAt }⟩

inductive SameAnswer (rename : MessageId → MessageId) : ApiAnswer → ApiAnswer → Prop where
  | created {response response' : Response} (h : SameResponse rename response response') :
      SameAnswer rename (.created (.ok response)) (.created (.ok response'))
  | raised (error : ViewError) :
      SameAnswer rename (.created (.error error)) (.created (.error error))
  | retrieved {response response' : Response} (h : SameResponse rename response response') :
      SameAnswer rename (.retrieved (.ok response)) (.retrieved (.ok response'))
  | notFound (error : Http404) :
      SameAnswer rename (.retrieved (.error error)) (.retrieved (.error error))

/-- The row of one run and the row of the other. -/
def Twin (rename : MessageId → MessageId) (m m' : Message) : Prop :=
  m' = { m with
    id := rename m.id, enqueuedAt := m'.enqueuedAt, createdAt := m'.createdAt,
    updatedAt := m'.updatedAt }

/-- The same template store, and the rows of `key` are twins. -/
structure Twins (rename : MessageId → MessageId) (key : ApiKeyId) (db db' : Database) : Prop where
  templates : db'.templates = db.templates
  versions : db'.templateVersions = db.templateVersions
  row : ∀ m ∈ db.messages.rows, m.apiKey = some key →
    ∃ m' ∈ db'.messages.rows, Twin rename m m'
  origin : ∀ m' ∈ db'.messages.rows, m'.apiKey = some key →
    ∃ m ∈ db.messages.rows, m.apiKey = some key ∧ Twin rename m m'
  known : ∀ m' ∈ db'.messages.rows, ∃ m ∈ db.messages.rows, m'.id = rename m.id

variable {rename : MessageId → MessageId} {key : ApiKeyId} {db db' : Database} {m m' : Message}

theorem Twin.id (h : Twin rename m m') : m'.id = rename m.id := by
  rw [h]

theorem Twin.apiKey (h : Twin rename m m') : m'.apiKey = m.apiKey := by
  rw [h]

theorem Twin.idempotencyPair (h : Twin rename m m') : m'.idempotencyPair = m.idempotencyPair := by
  rw [h]
  rfl

theorem Twin.context (h : Twin rename m m') : m'.context = m.context := by
  rw [h]

theorem Twin.payloadMatches (h : Twin rename m m') (data : MessageData) :
    payloadMatches m' data = Services.payloadMatches m data := by
  rw [h]
  rfl

theorem Twin.readMessage (h : Twin rename m m') (htwins : Twins rename key db db') :
    readMessage db' m' = { Serializers.readMessage db m with
      id := rename m.id, createdAt := m'.createdAt, updatedAt := m'.updatedAt } := by
  rw [h]
  simp only [Serializers.readMessage, htwins.templates, htwins.versions]

theorem resolveAndRender_congr (htemplates : db'.templates = db.templates)
    (hversions : db'.templateVersions = db.templateVersions) (engine : Engine)
    (data : MessageData) : resolveAndRender engine db' data = resolveAndRender engine db data := by
  cases db
  cases db'
  subst htemplates hversions
  rfl

namespace Services

/-- What a call that finds no row comes to before its insert meets the constraints. -/
def prepared (engine : Engine) (db : Database) (idempotencyKey : String) (data : MessageData) :
    Except CreateError (TemplateVersion × RenderOutcome × JsonObject) :=
  match resolveAndRender engine db data with
  | .error error => .error error
  | .ok (version, rendered) =>
      match engine.postgres.store (messageValues idempotencyKey data rendered) with
      | .error exception => .error (.notStored exception)
      | .ok context => .ok (version, rendered, context)

theorem prepared_congr (htemplates : db'.templates = db.templates)
    (hversions : db'.templateVersions = db.templateVersions) (engine : Engine) (key : String)
    (data : MessageData) : prepared engine db' key data = prepared engine db key data := by
  unfold prepared
  rw [resolveAndRender_congr htemplates hversions]

/-- The three ways through `create_message` when the id is new. -/
inductive Created (engine : Engine) (now : Time) (id : MessageId) (brokerUp : Bool)
    (db : Database) (apiKey : ApiKeyId) (idempotencyKey : String) (data : MessageData) :
    CreateOutcome → Prop
  | replayed (row : Message) (mem : row ∈ db.messages.rows)
      (pair : row.idempotencyPair = some (apiKey, idempotencyKey)) :
      Created engine now id brokerUp db apiKey idempotencyKey data
        ⟨(replay row data).map fun m => (m, false), .none, db, []⟩
  | failed (error : CreateError)
      (none : ∀ m ∈ db.messages.rows, m.idempotencyPair ≠ some (apiKey, idempotencyKey))
      (failed : prepared engine db idempotencyKey data = .error error) :
      Created engine now id brokerUp db apiKey idempotencyKey data ⟨.error error, .none, db, []⟩
  | inserted (version : TemplateVersion) (rendered : RenderOutcome) (context : JsonObject)
      (messages : MessageTable)
      (none : ∀ m ∈ db.messages.rows, m.idempotencyPair ≠ some (apiKey, idempotencyKey))
      (prepared_ok : prepared engine db idempotencyKey data = .ok (version, rendered, context))
      (insert : db.messages.insert? (newMessage id (some apiKey) idempotencyKey data version
        rendered.toRenderedMessage context now now) = some messages) :
      Created engine now id brokerUp db apiKey idempotencyKey data
        ⟨.ok (newMessage id (some apiKey) idempotencyKey data version rendered.toRenderedMessage
          context now now, true), some (keptContext data rendered),
          { db with messages := messages }, if sendNow data now && brokerUp then [id] else []⟩

theorem idempotencyPair_eq {m : Message} {apiKey : ApiKeyId} {key : String} :
    m.idempotencyPair = some (apiKey, key) ↔ m.apiKey = some apiKey ∧ m.idempotencyKey = key := by
  simp [Message.idempotencyPair]

theorem createMessage_created (engine : Engine) (now : Time) {id : MessageId} (brokerUp : Bool)
    (apiKey : ApiKeyId) (idempotencyKey : String) (data : MessageData)
    (hfresh : ∀ m ∈ db.messages.rows, m.id ≠ id) :
    Created engine now id brokerUp db apiKey idempotencyKey data
      (createMessage engine now id brokerUp db (some apiKey) idempotencyKey data) := by
  unfold createMessage
  cases hfind : findExisting db (some apiKey) idempotencyKey with
  | some existing =>
      obtain ⟨hmem, hpair⟩ := findExisting_some hfind
      exact .replayed existing hmem (idempotencyPair_eq.mpr hpair)
  | none =>
      have hnone : ∀ m ∈ db.messages.rows,
          m.idempotencyPair ≠ some (apiKey, idempotencyKey) := by
        intro m hm hpair
        rw [findExisting_eq hm hpair] at hfind
        contradiction
      cases hrender : resolveAndRender engine db data with
      | error error => exact .failed error hnone (by rw [prepared, hrender])
      | ok result =>
          obtain ⟨version, rendered⟩ := result
          dsimp only
          cases hstore : engine.postgres.store (messageValues idempotencyKey data rendered) with
          | error exception =>
              exact .failed (.notStored exception) hnone (by simp only [prepared, hrender, hstore])
          | ok context =>
              dsimp only
              cases hinsert : db.messages.insert? (newMessage id (some apiKey) idempotencyKey data
                  version rendered.toRenderedMessage context now now) with
              | some messages =>
                  exact .inserted version rendered context messages hnone
                    (by simp only [prepared, hrender, hstore]) hinsert
              | none =>
                  obtain ⟨a, ha, hid | ⟨pair, hpair, hnew⟩⟩ := db.messages.insert?_eq_none hinsert
                  · exact absurd hid (hfresh a ha)
                  · cases hnew
                    exact absurd hpair (hnone a ha)

end Services

/-- A GET answers with the row of that id, if it is one of the key. -/
theorem retrieve_cases (db : Database) (key : ApiKeyId) (pk : MessageId) :
    (∃ row ∈ db.messages.rows, row.apiKey = some key ∧ row.id = pk ∧
      retrieve db (.apiKey key) pk = .ok ⟨200, .message (readMessage db row)⟩) ∨
    (∀ row ∈ db.messages.rows, row.apiKey = some key → row.id ≠ pk) ∧
      retrieve db (.apiKey key) pk = .error ⟨"No Message matches the given query."⟩ := by
  unfold retrieve getQueryset
  split
  next hfind =>
    refine .inr ⟨fun row hrow hkey hid => ?_, rfl⟩
    have hmissed := List.find?_eq_none.mp hfind row (List.mem_filter.mpr ⟨hrow, by simp [hkey]⟩)
    simp [hid] at hmissed
  next row hfind =>
    have hmem := List.mem_filter.mp (List.mem_of_find?_eq_some hfind)
    have hid := List.find?_some hfind
    exact .inl ⟨row, hmem.1, by simpa using hmem.2, by simpa using hid, rfl⟩

namespace Twins

variable {k : String} {row row' : Message} {messages messages' : MessageTable}

theorem pair_none (h : Twins rename key db db')
    (hnone : ∀ m ∈ db.messages.rows, m.idempotencyPair ≠ some (key, k)) :
    ∀ m' ∈ db'.messages.rows, m'.idempotencyPair ≠ some (key, k) := by
  intro m' hm' hpair
  obtain ⟨m, hm, _, htwin⟩ := h.origin m' hm' (idempotencyPair_eq.mp hpair).1
  exact hnone m hm (htwin.idempotencyPair ▸ hpair)

/-- Two rows with one pair are twins. -/
theorem twin_of_pair (h : Twins rename key db db') (hrow : row ∈ db.messages.rows)
    (hpair : row.idempotencyPair = some (key, k)) (hrow' : row' ∈ db'.messages.rows)
    (hpair' : row'.idempotencyPair = some (key, k)) : Twin rename row row' := by
  obtain ⟨other, hother, htwin⟩ := h.row row hrow (idempotencyPair_eq.mp hpair).1
  have hsame := db'.messages.eq_of_index hother hrow' (htwin.idempotencyPair.trans hpair) hpair'
  exact hsame ▸ htwin

/-- Both runs insert a row. -/
theorem insert (h : Twins rename key db db') (htwin : Twin rename row row')
    (hinsert : db.messages.insert? row = some messages)
    (hinsert' : db'.messages.insert? row' = some messages') :
    Twins rename key { db with messages := messages } { db' with messages := messages' } where
  templates := h.templates
  versions := h.versions
  row m hm hkey := by
    rcases (db.messages.mem_insert hinsert).mp hm with hold | rfl
    · obtain ⟨m', hm', htwin'⟩ := h.row m hold hkey
      exact ⟨m', (db'.messages.mem_insert hinsert').mpr (.inl hm'), htwin'⟩
    · exact ⟨row', (db'.messages.mem_insert hinsert').mpr (.inr rfl), htwin⟩
  origin m' hm' hkey := by
    rcases (db'.messages.mem_insert hinsert').mp hm' with hold | rfl
    · obtain ⟨m, hm, hmine, htwin'⟩ := h.origin m' hold hkey
      exact ⟨m, (db.messages.mem_insert hinsert).mpr (.inl hm), hmine, htwin'⟩
    · exact ⟨row, (db.messages.mem_insert hinsert).mpr (.inr rfl), htwin.apiKey ▸ hkey, htwin⟩
  known m' hm' := by
    rcases (db'.messages.mem_insert hinsert').mp hm' with hold | rfl
    · obtain ⟨m, hm, hid⟩ := h.known m' hold
      exact ⟨m, (db.messages.mem_insert hinsert).mpr (.inl hm), hid⟩
    · exact ⟨row, (db.messages.mem_insert hinsert).mpr (.inr rfl), htwin.id⟩

/-- A row of another key is inserted in one run only. -/
theorem insert_other (h : Twins rename key db db') (hother : row.apiKey ≠ some key)
    (hinsert : db.messages.insert? row = some messages) :
    Twins rename key { db with messages := messages } db' where
  templates := h.templates
  versions := h.versions
  row m hm hkey := by
    rcases (db.messages.mem_insert hinsert).mp hm with hold | rfl
    · exact h.row m hold hkey
    · exact absurd hkey hother
  origin m' hm' hkey := by
    obtain ⟨m, hm, hrest⟩ := h.origin m' hm' hkey
    exact ⟨m, (db.messages.mem_insert hinsert).mpr (.inl hm), hrest⟩
  known m' hm' := by
    obtain ⟨m, hm, hid⟩ := h.known m' hm'
    exact ⟨m, (db.messages.mem_insert hinsert).mpr (.inl hm), hid⟩

theorem sameResponse (h : Twins rename key db db') (htwin : Twin rename row row')
    (status : Nat) (context : PyContext) :
    SameResponse rename ⟨status, .message { readMessage db row with context := context }⟩
      ⟨status, .message { readMessage db' row' with context := context }⟩ := by
  rw [htwin.readMessage h]
  exact .message status { readMessage db row with context := context } _ _

/-- Both runs return a row that was there. -/
theorem sameReplay (h : Twins rename key db db') (htwin : Twin rename row row') :
    SameAnswer rename (.created (respond ⟨.ok (row, false), none, db, []⟩))
      (.created (respond ⟨.ok (row', false), none, db', []⟩)) := by
  have hsame := h.sameResponse htwin 202 row.context
  have hcontext : row'.context = row.context := htwin.context
  simp only [respond, readReturned, Option.getD_none, hcontext]
  exact .created hsame

theorem newMessage_twin (id : MessageId) (apiKey : Option ApiKeyId) (data : MessageData)
    (version : TemplateVersion) (rendered : RenderedMessage) (context : JsonObject)
    (now now' : Time) :
    Twin rename (newMessage id apiKey k data version rendered context now now)
      (newMessage (rename id) apiKey k data version rendered context now' now') :=
  rfl

/-- The key calls `create_message` in both runs. -/
theorem created (h : Twins rename key db db') {engine : Engine} {now now' : Time} {id : MessageId}
    {up up' : Bool} {data : MessageData} {outcome outcome' : CreateOutcome}
    (hcreated : Created engine now id up db key k data outcome)
    (hcreated' : Created engine now' (rename id) up' db' key k data outcome') :
    SameAnswer rename (.created (respond outcome)) (.created (respond outcome')) ∧
      Twins rename key outcome.db outcome'.db := by
  have hprepared := prepared_congr h.templates h.versions engine k data
  cases hcreated with
  | replayed row hrow hpair =>
      cases hcreated' with
      | replayed row' hrow' hpair' =>
          have htwin := h.twin_of_pair hrow hpair hrow' hpair'
          have hmatches := htwin.payloadMatches data
          cases hpayload : payloadMatches row data with
          | true =>
              rw [hpayload] at hmatches
              rw [replay_eq_ok.mpr ⟨hpayload, rfl⟩, replay_eq_ok.mpr ⟨hmatches, rfl⟩]
              exact ⟨h.sameReplay htwin, h⟩
          | false =>
              rw [hpayload] at hmatches
              rw [replay_of_not_matches hpayload, replay_of_not_matches hmatches]
              exact ⟨.created (.equal _), h⟩
      | failed _ hnone _ =>
          obtain ⟨row', hrow', htwin⟩ := h.row row hrow (idempotencyPair_eq.mp hpair).1
          exact absurd (htwin.idempotencyPair.trans hpair) (hnone row' hrow')
      | inserted _ _ _ _ hnone _ _ =>
          obtain ⟨row', hrow', htwin⟩ := h.row row hrow (idempotencyPair_eq.mp hpair).1
          exact absurd (htwin.idempotencyPair.trans hpair) (hnone row' hrow')
  | failed error hnone hfailed =>
      cases hcreated' with
      | replayed row' hrow' hpair' => exact absurd hpair' (h.pair_none hnone row' hrow')
      | failed error' _ hfailed' =>
          rw [hprepared, hfailed] at hfailed'
          cases hfailed'
          refine ⟨?_, h⟩
          cases error with
          | idempotencyConflict | templateNotFound | renderError => exact .created (.equal _)
          | recursionError | integrityError | notStored => exact .raised _
      | inserted _ _ _ _ _ hok _ =>
          rw [hprepared, hfailed] at hok
          contradiction
  | inserted version rendered context messages hnone hok hinsert =>
      cases hcreated' with
      | replayed row' hrow' hpair' => exact absurd hpair' (h.pair_none hnone row' hrow')
      | failed _ _ hfailed' =>
          rw [hprepared, hok] at hfailed'
          contradiction
      | inserted version' rendered' context' messages' _ hok' hinsert' =>
          rw [hprepared, hok] at hok'
          cases hok'
          have htwin : Twin rename _ _ := newMessage_twin (k := k) id (some key) data version
            rendered.toRenderedMessage context now now'
          have htwins := h.insert htwin hinsert hinsert'
          exact ⟨.created (htwins.sameResponse htwin 202 (keptContext data rendered)), htwins⟩

/-- Another key calls it in one of the runs. -/
theorem created_other (h : Twins rename key db db') {engine : Engine} {now : Time}
    {id : MessageId} {up : Bool} {other : ApiKeyId} {data : MessageData} {outcome : CreateOutcome}
    (hother : other ≠ key) (hcreated : Created engine now id up db other k data outcome) :
    Twins rename key outcome.db db' := by
  cases hcreated with
  | replayed => exact h
  | failed => exact h
  | inserted version rendered context messages _ _ hinsert =>
      exact h.insert_other (fun heq => hother (Option.some.inj heq)) hinsert

/-- The key asks for a message in both runs. -/
theorem retrieved (h : Twins rename key db db') (hrename : rename.Injective) (pk : MessageId) :
    SameAnswer rename (.retrieved (retrieve db (.apiKey key) pk))
      (.retrieved (retrieve db' (.apiKey key) (rename pk))) := by
  rcases retrieve_cases db key pk with ⟨row, hrow, hkey, hid, hanswer⟩ | ⟨hnone, hanswer⟩
  · obtain ⟨row', hrow', htwin⟩ := h.row row hrow hkey
    rcases retrieve_cases db' key (rename pk) with
      ⟨found, hfound, _, hid', hanswer'⟩ | ⟨hnone', _⟩
    · have hsame : found = row' := by
        refine db'.messages.eq_of_key hfound hrow' ?_
        rw [hid', htwin.id, hid]
      have hread : readMessage db' row' = { readMessage db' row' with context := row.context } := by
        rw [← htwin.context]
        rfl
      rw [hanswer, hanswer', hsame, hread]
      exact .retrieved (h.sameResponse htwin 200 row.context)
    · refine absurd ?_ (hnone' row' hrow' (htwin.apiKey.trans hkey))
      rw [htwin.id, hid]
  · rcases retrieve_cases db' key (rename pk) with
      ⟨found, hfound, hkey', hid', _⟩ | ⟨_, hanswer'⟩
    · obtain ⟨row, hrow, hkey, htwin⟩ := h.origin found hfound hkey'
      exact absurd (hrename (htwin.id.symm.trans hid')) (hnone row hrow hkey)
    · rw [hanswer, hanswer']
      exact .notFound _

end Twins

section Runs

variable {header : Option String} {data : Body} {around : Surroundings}

theorem identify_apiKey {key apiKey : ApiKeyId} {k : String}
    (h : identify (⟨some key, header, data⟩ : ApiRequest Body) = .ok (apiKey, k)) :
    apiKey = key := by
  unfold identify at h
  split at h
  next => contradiction
  next heq =>
    cases heq
    dsimp only at h
    split at h
    next => contradiction
    next =>
      split at h
      next => contradiction
      next =>
        cases h
        rfl

/-- `create_message` is called for the key that sent the request. -/
theorem screen_apiKey {key : ApiKeyId} {world : (question : Question) → question.Reply}
    {args : CreateArgs}
    (h : ((screen api ⟨some key, header, data⟩).run world).2 = .ok args) : args.apiKey = key := by
  unfold screen at h
  split at h
  next => cases h
  next apiKey k hidentified =>
    rw [Program.run_bind] at h
    split at h <;> cases h
    exact identify_apiKey hidentified

/-- What a POST does: it is turned away before the database is read, or `create_message` is
called for the key that sent it. -/
theorem handle_post (key : ApiKeyId) (header : Option String) (data : Body) (api : Api Body)
    (world : (question : Question) → question.Reply) :
    (∃ answer, ∀ (around : Surroundings) (db : Database), around.world = world →
      handle api db ⟨key, .post header data around⟩ = (.created answer, db)) ∨
    ∃ (k : String) (fields : MessageData), ∀ (around : Surroundings) (db : Database),
      around.world = world →
        let outcome := createMessage around.engine around.now around.id around.brokerUp db
          (some key) k fields
        handle api db ⟨key, .post header data around⟩ =
          (.created (respond outcome), outcome.db) := by
  cases hscreen : ((screen api ⟨some key, header, data⟩).run world).2 with
  | error answer =>
      refine .inl ⟨answer, fun around db hworld => ?_⟩
      simp only [handle, create, Program.run_bind, hworld, hscreen]
      rfl
  | ok args =>
      have hkey := screen_apiKey hscreen
      refine .inr ⟨args.idempotencyKey, args.data, fun around db hworld => ?_⟩
      simp only [handle, create, Program.run_bind, hworld, hscreen, hkey]
      rfl

/-- The invariant of the two runs. -/
structure Paired (rename : MessageId → MessageId) (key : ApiKeyId)
    (rest : List (Arrival Body)) (db db' : Database) : Prop where
  twins : Twins rename key db db'
  fresh : ∀ m ∈ db.messages.rows, m.id ∉ generatedIds rest
  nodup : (generatedIds rest).Nodup

theorem generatedIds_cons (arrival : Arrival Body) (rest : List (Arrival Body)) :
    generatedIds (arrival :: rest) = arrival.generated.toList ++ generatedIds rest := by
  unfold generatedIds
  cases h : arrival.generated <;> simp [h]

theorem created_rows {engine : Engine} {now : Time} {id : MessageId} {up : Bool} {k : String}
    {fields : MessageData} {outcome : CreateOutcome}
    (h : Created engine now id up db key k fields outcome) :
    ∀ m ∈ outcome.db.messages.rows, m ∈ db.messages.rows ∨ m.id = id := by
  intro m hm
  cases h with
  | replayed => exact .inl hm
  | failed => exact .inl hm
  | inserted version rendered context messages _ _ hinsert =>
      refine ((db.messages.mem_insert hinsert).mp hm).imp_right fun heq => ?_
      rw [heq]
      rfl

variable {arrival arrival' : Arrival Body} {rest : List (Arrival Body)}

theorem Paired.fresh_id (h : Paired rename key (arrival :: rest) db db') {id : MessageId}
    (hid : arrival.generated = some id) : ∀ m ∈ db.messages.rows, m.id ≠ id := by
  rintro m hm rfl
  refine h.fresh m hm ?_
  rw [generatedIds_cons, hid]
  exact List.mem_cons_self

/-- The other run does not have the id either. -/
theorem Paired.fresh_renamed (h : Paired rename key (arrival :: rest) db db')
    (hrename : rename.Injective) {id : MessageId} (hid : arrival.generated = some id) :
    ∀ m' ∈ db'.messages.rows, m'.id ≠ rename id := by
  intro m' hm' heq
  obtain ⟨m, hm, hknown⟩ := h.twins.known m' hm'
  exact h.fresh_id hid m hm (hrename (hknown.symm.trans heq))

theorem Paired.next {after after' : Database} (h : Paired rename key (arrival :: rest) db db')
    (htwins : Twins rename key after after')
    (hrows : ∀ m ∈ after.messages.rows, m ∈ db.messages.rows ∨ arrival.generated = some m.id) :
    Paired rename key rest after after' := by
  have hnodup := h.nodup
  rw [generatedIds_cons, List.nodup_append] at hnodup
  refine ⟨htwins, fun m hm hmem => ?_, hnodup.2.1⟩
  rcases hrows m hm with hold | hnew
  · refine h.fresh m hold ?_
    rw [generatedIds_cons]
    exact List.mem_append_right _ hmem
  · exact hnodup.2.2 m.id (by simp [hnew]) m.id hmem rfl

theorem Paired.mine (h : Paired rename key (arrival :: rest) db db') (hrename : rename.Injective)
    (hkey : arrival.key = key) (hsame : SameArrival rename arrival arrival') :
    SameAnswer rename (handle api db arrival).1 (handle api db' arrival').1 ∧
      Paired rename key rest (handle api db arrival).2 (handle api db' arrival').2 := by
  obtain ⟨own, request⟩ := arrival
  obtain ⟨own', request'⟩ := arrival'
  obtain ⟨hkey', hrequest⟩ := hsame
  dsimp only at hkey hkey'
  subst hkey' hkey
  cases hrequest with
  | get pk => exact ⟨h.twins.retrieved hrename pk, h.next h.twins fun m hm => .inl hm⟩
  | post header data around now' up' =>
      let again : Surroundings :=
        { around with now := now', id := rename around.id, brokerUp := up' }
      rcases handle_post _ header data api around.world with ⟨answer, heq⟩ | ⟨k, fields, heq⟩
      · rw [heq around db rfl, heq again db' rfl]
        refine ⟨?_, h.next h.twins fun m hm => .inl hm⟩
        cases answer with
        | ok response => exact .created (.equal response)
        | error error => exact .raised error
      · rw [heq around db rfl, heq again db' rfl]
        have hcreated := createMessage_created around.engine around.now around.brokerUp own' k
          fields (h.fresh_id rfl)
        have hcreated' := createMessage_created around.engine now' up' own' k fields
          (h.fresh_renamed hrename rfl)
        obtain ⟨hagree, htwins⟩ := h.twins.created hcreated hcreated'
        exact ⟨hagree, h.next htwins fun m hm =>
          (created_rows hcreated m hm).imp_right fun hid => congrArg some hid.symm⟩

theorem Paired.other (h : Paired rename key (arrival :: rest) db db') (hkey : arrival.key ≠ key) :
    Paired rename key rest (handle api db arrival).2 db' := by
  obtain ⟨other, request⟩ := arrival
  cases request with
  | get pk => exact h.next h.twins fun m hm => .inl hm
  | post header data around =>
      rcases handle_post other header data api around.world with ⟨answer, heq⟩ | ⟨k, fields, heq⟩
      · rw [heq _ _ rfl]
        exact h.next h.twins fun m hm => .inl hm
      · rw [heq _ _ rfl]
        have hcreated := createMessage_created around.engine around.now around.brokerUp other k
          fields (h.fresh_id rfl)
        exact h.next (h.twins.created_other hkey hcreated) fun m hm =>
          (created_rows hcreated m hm).imp_right fun hid => congrArg some hid.symm

/-- Leave out what the other keys send: the answers to `key` are the same up to the ids the API
draws and the timestamps. -/
theorem api_keys_isolated (hrename : rename.Injective) (api : Api Body) (key : ApiKeyId)
    {db : Database} (hknown : ∀ m ∈ db.messages.rows, rename m.id = m.id)
    {arrivals arrivals' : List (Arrival Body)}
    (hfresh : (db.messages.rows.map Message.id ++ generatedIds arrivals).Nodup)
    (hsame : List.Forall₂ (SameArrival rename) (arrivals.filter fun a => a.key == key) arrivals') :
    List.Forall₂ (SameAnswer rename)
      (Unwinding.answersTo (fun a => a.key == key) (handle api) db arrivals)
      ((Unwinding.serve (handle api) db arrivals').map Prod.snd) := by
  refine Unwinding.answers_agree (Paired rename key) ?_ ?_ ?_ hsame
  · intro arrival rest arrival' s t h hmine hrequest
    exact h.mine hrename (by simpa using hmine) hrequest
  · intro arrival rest s t h hother
    exact h.other (by simpa using hother)
  · have hself : ∀ m ∈ db.messages.rows, Twin rename m m := by
      intro m hm
      unfold Twin
      rw [hknown m hm]
    have hparts := List.nodup_append.mp hfresh
    refine ⟨⟨rfl, rfl, fun m hm _ => ⟨m, hm, hself m hm⟩,
      fun m hm hkey => ⟨m, hm, hkey, hself m hm⟩,
      fun m hm => ⟨m, hm, (hknown m hm).symm⟩⟩, fun m hm hmem => ?_, hparts.2.1⟩
    exact hparts.2.2 m.id (List.mem_map_of_mem hm) m.id hmem rfl

end Runs

section Scenario

def hookStore : Option Database := Templates.upsert .empty hookTemplate 1 1

def hookPost (key : ApiKeyId) (id : MessageId) (now : Time) : Arrival RawFields :=
  ⟨key, .post (some "key") hookFields
    ⟨System.plainEngine, resolving (some (.ok ["1.1.1.1"])), now, id, true⟩⟩

/-- Two keys use one idempotency key, and the first one asks for the message of the other. -/
def crossing : List (Arrival RawFields) :=
  [hookPost 2 "M1" 5, hookPost 1 "M2" 6, ⟨1, .get "M1"⟩, ⟨1, .get "M2"⟩, ⟨2, .get "M2"⟩]

def renamed (id : MessageId) : MessageId := "N" ++ id

/-- The requests of the first key alone, on another day. -/
def alone : List (Arrival RawFields) :=
  [hookPost 1 (renamed "M2") 9, ⟨1, .get (renamed "M1")⟩, ⟨1, .get (renamed "M2")⟩]

def ApiAnswer.status : ApiAnswer → Option Nat
  | .created answer => answer.toOption.map Response.status
  | .retrieved answer => answer.toOption.map Response.status

theorem api_keys_isolated_crossing :
    ∃ db, hookStore = some db ∧
      (Unwinding.answersTo (fun a => a.key == 1) (handle hookApi) db crossing).map
        ApiAnswer.status = [some 202, none, some 200] ∧
      List.Forall₂ (SameAnswer renamed)
        (Unwinding.answersTo (fun a => a.key == 1) (handle hookApi) db crossing)
        ((Unwinding.serve (handle hookApi) db alone).map Prod.snd) := by
  have hrename : renamed.Injective := fun a b h => (String.append_right_inj "N").mp h
  refine ⟨_, rfl, rfl, api_keys_isolated hrename hookApi 1 ?_ ?_ ?_⟩
  · intro m hm
    cases hm
  · decide
  · exact .cons ⟨rfl, .post (some "key") hookFields _ 9 true⟩
      (.cons ⟨rfl, .get "M1"⟩ (.cons ⟨rfl, .get "M2"⟩ .nil))

end Scenario

end NotifyRelay
