import NotifyRelay.Calls
import NotifyRelay.Views

/-! A request that was accepted and is sent again. The serializer vets the recipient once
more before `create_message` can find the row, so the answer depends on the resolver; and the
context is compared with the stored one, which the templates and `jsonb` have had in between. -/
namespace NotifyRelay

open Validators Services

/-- Every lookup that was answered in time had an answer that passes. -/
def LookupsPass (setting : NetworksSetting) (trace : NetTrace) : Prop :=
  ∀ host port timeout answer, ⟨.submit host port timeout, some answer⟩ ∈ trace →
    passes setting answer

variable {possible : Exchange Question Question.Reply → Prop} {setting : NetworksSetting}
  {trace : NetTrace}

namespace Validators

/-- A lookup of the API passes if and only if its answer does, if there is one. -/
theorem vetAnswer_of_getaddrinfo {host : String} {port : Option Nat} {timeout : Rat}
    {answer : Except ResolverError (Option (List String))}
    (h : Runs possible (getaddrinfo host port (some timeout)) trace answer) :
    (vetAnswer setting answer).isOk = true ↔ LookupsPass setting trace := by
  unfold LookupsPass
  rcases getaddrinfo_runs h with ⟨rfl, rfl⟩ | ⟨reply, rfl, rfl⟩
  · simp [vetAnswer]
  · cases reply with
    | none => simp [awaited, vetAnswer]
    | some given =>
        rw [vetAnswer_isOk]
        constructor
        · intro hpass host' port' timeout' answer hmem
          obtain ⟨-, rfl⟩ : (host' = host ∧ port' = port ∧ timeout' = timeout) ∧
            answer = given := by simpa using hmem
          exact hpass
        · intro hall
          exact hall _ _ _ _ (List.mem_cons_of_mem _ List.mem_cons_self)

/-- A recipient that passed once passes again if and only if the lookups do. -/
theorem validateRecipient_again {possible' : Exchange Question Question.Reply → Prop}
    {emailValidator : String → Except (List String) Unit} {httpx : Httpx} {channel : Channel}
    {recipient : String} {first : NetTrace} {verdict : Except GuardError Unit}
    (hfirst : Runs possible (validateRecipient emailValidator httpx setting channel recipient)
      first (.ok ()))
    (h : Runs possible' (validateRecipient emailValidator httpx setting channel recipient)
      trace verdict) :
    verdict.isOk = true ↔ LookupsPass setting trace := by
  cases channel with
  | email =>
      obtain ⟨-, hok⟩ := Runs.done_iff.mp hfirst
      obtain ⟨rfl, rfl⟩ := Runs.done_iff.mp h
      rw [← hok]
      simp [LookupsPass]
  | webhook =>
      obtain ⟨_, addresses, _, rfl, hguard, hok⟩ := Runs.bind_iff.mp hfirst
      obtain ⟨-, hok⟩ := Runs.done_iff.mp hok
      obtain ⟨before, found, after, rfl, hagain, hverdict⟩ := Runs.bind_iff.mp h
      obtain ⟨rfl, rfl⟩ := Runs.done_iff.mp hverdict
      have hsame : (found.map fun _ => ()).isOk = found.isOk := by cases found <;> rfl
      rw [List.append_nil, hsame]
      rcases validateWebhookUrl_cases httpx setting recipient with
        ⟨error, heq⟩ | ⟨parsed, -, heq | heq⟩ <;> rw [heq] at hguard hagain
      · obtain ⟨-, rfl⟩ := Runs.done_iff.mp hguard
        cases hok
      · obtain ⟨-, rfl⟩ := Runs.done_iff.mp hguard
        obtain ⟨rfl, rfl⟩ := Runs.done_iff.mp hagain
        cases hvet : vetLiteral setting parsed.rawHost with
        | error error =>
            rw [hvet] at hok
            cases hok
        | ok addresses => simp [LookupsPass]
      · obtain ⟨lookup, answer, _, rfl, hlookup, hvet⟩ := Runs.bind_iff.mp hagain
        obtain ⟨rfl, rfl⟩ := Runs.done_iff.mp hvet
        rw [List.append_nil]
        exact vetAnswer_of_getaddrinfo hlookup

end Validators

section Replay

open Serializers MessageViewSet

variable {Body : Type} {api : Api Body} {request : ApiRequest Body}

/-- What is fixed about a request that gets to `create_message`: only the guard asks the
outside world. -/
structure Fixed (api : Api Body) (request : ApiRequest Body) (args : CreateArgs) : Prop where
  identified : identify request = .ok (args.apiKey, args.idempotencyKey)
  fields : validatedFields api request.data = .ok args.data

/-- The guard's part of a request. -/
def recipientCheck (api : Api Body) (data : MessageData) : Net (Except GuardError Unit) :=
  validateRecipient api.emailValidator api.httpx api.blockedNetworks data.channel data.recipient

/-- The answer to a verdict of the guard, if it is final. -/
def screenVerdict (args : CreateArgs) : Except GuardError Unit → Except Answer CreateArgs
  | .ok () => .ok args
  | .error (.validationError messages) =>
      .error (invalidAnswer (.errors [("recipient", messages)]))
  | .error error => .error (invalidAnswer (.raised error))

theorem Fixed.screen_eq {args : CreateArgs} (h : Fixed api request args) :
    screen api request = ((recipientCheck api args.data).bind fun verdict =>
      .done (validated args.data verdict)).bind fun
        | .error invalid => .done (.error (invalidAnswer invalid))
        | .ok data => .done (.ok ⟨args.apiKey, args.idempotencyKey, data⟩) := by
  unfold screen isValid
  rw [h.identified, h.fields]
  rfl

theorem Fixed.screen_runs {args : CreateArgs} (h : Fixed api request args)
    {result : Except Answer CreateArgs} (hrun : Runs possible (screen api request) trace result) :
    ∃ verdict, Runs possible (recipientCheck api args.data) trace verdict ∧
      result = screenVerdict args verdict := by
  rw [h.screen_eq] at hrun
  obtain ⟨_, checked, _, rfl, hchecked, hdone⟩ := Runs.bind_iff.mp hrun
  obtain ⟨before, verdict, _, rfl, hguard, hvalid⟩ := Runs.bind_iff.mp hchecked
  obtain ⟨rfl, rfl⟩ := Runs.done_iff.mp hvalid
  rcases verdict with (_ | _ | _) | _ <;>
    (obtain ⟨rfl, rfl⟩ := Runs.done_iff.mp hdone
     simp only [List.append_nil]
     exact ⟨_, hguard, rfl⟩)

theorem fixed_of_screen {args : CreateArgs}
    (h : Runs possible (screen api request) trace (.ok args)) :
    Fixed api request args ∧ Runs possible (recipientCheck api args.data) trace (.ok ()) := by
  unfold screen at h
  split at h
  next => cases h
  next apiKey idempotencyKey hidentified =>
    obtain ⟨before, checked, after, rfl, hchecked, hdone⟩ := Runs.bind_iff.mp h
    cases checked with
    | error invalid => cases hdone
    | ok data =>
        obtain ⟨rfl, hscreened⟩ := Runs.done_iff.mp hdone
        cases hscreened
        unfold isValid at hchecked
        split at hchecked
        next => cases hchecked
        next fields hfields =>
          obtain ⟨_, verdict, _, rfl, hguard, hvalid⟩ := Runs.bind_iff.mp hchecked
          obtain ⟨rfl, hverdict⟩ := Runs.done_iff.mp hvalid
          rcases verdict with (_ | _ | _) | _ <;> cases hverdict
          simp only [List.append_nil]
          exact ⟨⟨hidentified, hfields⟩, hguard⟩

/-- The request was answered 202 with `m`: it passed every check, and its call of `create_message`
has returned. -/
def Posted (possible : Exchange Question Question.Reply → Prop) (api : Api Body) (s : System)
    (request : ApiRequest Body) (m : Message) : Prop :=
  ∃ (args : CreateArgs) (trace : NetTrace) (c : Nat) (call : CreateCall) (created : Bool),
    Runs possible (screen api request) trace (.ok args) ∧
    s.calls[c]? = some call ∧ call.apiKey = some args.apiKey ∧
    call.idempotencyKey = args.idempotencyKey ∧ call.data = args.data ∧
    call.pc = .returned m created

/-- Python finds the context that is stored with the message equal to the one of the request. -/
def ContextKept (api : Api Body) (request : ApiRequest Body) (row : Message) : Prop :=
  ∀ data, validatedFields api request.data = .ok data →
    (JsonObject.orEmpty data.context).pyEq row.context = true

theorem Fixed.contextKept_iff {args : CreateArgs} (h : Fixed api request args) {row : Message} :
    ContextKept api request row ↔
      (JsonObject.orEmpty args.data.context).pyEq row.context = true := by
  unfold ContextKept
  rw [h.fields]
  simp

theorem payloadMatchesWith_of_frozen {a b : Message} (h : a.frozen = b.frozen)
    (context : PyContext) (data : MessageData) :
    payloadMatchesWith context a data = payloadMatchesWith context b data := by
  change payloadMatchesWith context a.frozen data = payloadMatchesWith context b.frozen data
  rw [h]

/-- The row of a message that was answered, at any later time, still belongs to the pair and
matches the payload if its context does. -/
theorem Posted.row {s t : System} {m row : Message}
    (hs : System.Reachable Transition.anyStep s)
    (ht : Transition.Reaches (Transition.graph System.step) Transition.anyStep s t)
    (h : Posted possible api s request m) (hrow : row ∈ t.db.messages.rows)
    (hid : row.id = m.id) :
    ∃ args trace, Fixed api request args ∧
      Runs possible (recipientCheck api args.data) trace (.ok ()) ∧
      row.idempotencyPair = some (args.apiKey, args.idempotencyKey) ∧
      (payloadMatches row args.data = true ↔ ContextKept api request row) := by
  obtain ⟨args, trace, c, call, created, hscreen, hcall, hapiKey, hkey, hdata, hpc⟩ := h
  obtain ⟨hfixed, hcheck⟩ := fixed_of_screen hscreen
  obtain ⟨hok, hsub⟩ := (System.callsOk_of_reachable hs).log_subset ht
  obtain ⟨hcallKey, hcallIdem, ⟨context, hpayload⟩, accepted, hlog, hfrozen⟩ :=
    (System.callsOk_of_reachable hs).answered c call hcall m (by rw [CreateCall.message, hpc]; rfl)
  have hsame : row.frozen = m.frozen := hok.history.frozen_eq hrow hsub hlog hfrozen hid
  refine ⟨args, trace, hfixed, hcheck, ?_, ?_⟩
  · rw [idempotencyPair_eq_of_frozen hsame, Message.idempotencyPair, hcallKey, hcallIdem, hapiKey,
      hkey]
    rfl
  · rw [hfixed.contextKept_iff, payloadMatches]
    rw [hdata, ← payloadMatchesWith_of_frozen hsame] at hpayload
    exact payloadMatchesWith_of_matches hpayload

/-- Repeating an accepted request answers 202 with the same message and changes nothing if
and only if every answer the resolver gives in time passes again and the stored context still
equals the one of the request. -/
theorem accepted_request_repeats {possible' : Exchange Question Question.Reply → Prop}
    {s t : System} {m row : Message} (hs : System.Reachable Transition.anyStep s)
    (ht : System.Reaches Transition.anyStep s t) (hposted : Posted possible api s request m)
    (hrow : row ∈ t.db.messages.rows) (hid : row.id = m.id) {engine : Engine} {now : Time}
    {id : MessageId} {brokerUp : Bool} {result : CreateResult}
    (hrun : Runs possible' (create api engine now id brokerUp t.db request) trace result) :
    ((∃ read, result.answer = .ok ⟨202, .message read⟩ ∧ read.id = m.id) ∧
      result.db = t.db ∧ result.published = []) ↔
      LookupsPass api.blockedNetworks trace ∧ ContextKept api request row := by
  obtain ⟨args, first, hfixed, hcheck, hpair, hpayload⟩ := hposted.row hs ht hrow hid
  obtain ⟨_, outcome, _, rfl, hscreen, hdone⟩ := Runs.bind_iff.mp hrun
  obtain ⟨verdict, hagain, rfl⟩ := hfixed.screen_runs hscreen
  have hpass := validateRecipient_again hcheck hagain
  rcases verdict with error | ⟨⟩
  · have hfails : ¬LookupsPass api.blockedNetworks _ := fun h => nomatch hpass.mpr h
    cases error <;> obtain ⟨rfl, rfl⟩ := Runs.done_iff.mp hdone <;>
      simp [invalidAnswer, hfails]
  · obtain ⟨rfl, rfl⟩ := Runs.done_iff.mp hdone
    rw [List.append_nil, createMessage_of_row hrow hpair]
    by_cases hkept : ContextKept api request row
    · rw [replay_eq_ok.mpr ⟨hpayload.mpr hkept, rfl⟩]
      exact iff_of_true ⟨⟨_, rfl, hid⟩, rfl, rfl⟩ ⟨hpass.mp rfl, hkept⟩
    · have hconflict := Bool.eq_false_of_not_eq_true fun h => hkept (hpayload.mp h)
      rw [replay_of_not_matches hconflict]
      refine iff_of_false ?_ fun h => hkept h.2
      rintro ⟨⟨read, hanswer, -⟩, -⟩
      cases hanswer

end Replay

section Scenario

open MessageViewSet

def hookTemplate : Templates.UpsertRequest := ⟨"alert", .webhook, "", "null"⟩

def hookFields : RawFields where
  channel := .ok .webhook
  recipient := .ok "https://hooks.example.org/x"
  template := .ok (some "alert")
  templateVersion := .ok none
  context := .ok ⟨_, JsonObject.empty.wellFormed⟩
  priority := .ok .default
  scheduledAt := .ok none

def hookData : MessageData where
  channel := .webhook
  recipient := "https://hooks.example.org/x"
  template := some "alert"
  templateVersion := none
  context := some .empty
  priority := some .default
  scheduledAt := none

def hookApi : Api RawFields where
  rawFields := .ok
  emailValidator _ := .ok ()
  httpx := plainHttpx
  blockedNetworks := .list []

def hookRequest : ApiRequest RawFields := ⟨some 1, some "key", hookFields⟩

/-- The API has a free slot, and this is what the lookup gives in time. -/
def resolving (answer : Option ResolverAnswer) : (question : Question) → question.Reply
  | .getaddrinfo _ _ => .ok []
  | .acquireSlot => true
  | .submit _ _ _ => answer
  | .time => 0
  | .post _ _ => ⟨[], [], .ok 204⟩

def hookSteps (engine : Engine) (data : MessageData) : List System.Action :=
  [.upsertTemplate hookTemplate 1 1, .begin (some 1) "key" data, .call 0 .lookup,
    .call 0 (.render engine), .call 0 .readClock, .call 0 (.insert "M1" System.plainPostgres),
    .call 0 (.publish "T1" true)]

/-- The first request is answered while the host has a public address. -/
theorem posted_of_call {fields : RawFields} {data : MessageData} {s : System} {m : Message}
    {now : Option Time}
    (hscreened : ((screen hookApi ⟨some 1, some "key", fields⟩).run
      (resolving (some (.ok ["1.1.1.1"])))).2 = .ok ⟨1, "key", data⟩)
    (hcall : s.calls[0]? = some ⟨some 1, "key", data, now, .returned m true⟩) :
    Posted (fun _ => True) hookApi s ⟨some 1, some "key", fields⟩ m := by
  have hruns : Runs (fun _ => True) (screen hookApi ⟨some 1, some "key", fields⟩) _ _ :=
    Runs.run (resolving (some (.ok ["1.1.1.1"]))) (fun _ => trivial) _
  rw [hscreened] at hruns
  exact ⟨_, _, 0, _, true, hruns, hcall, rfl, rfl, rfl, rfl⟩

theorem hook_posted :
    ∃ s m, System.Reachable Transition.anyStep s ∧
      Posted (fun _ => True) hookApi s hookRequest m ∧ m ∈ s.db.messages.rows ∧
      ContextKept hookApi hookRequest m := by
  have hs : System.Reachable Transition.anyStep _ := ⟨0,
    Transition.reaches_of_runAll (hookSteps System.plainEngine hookData) rfl⟩
  refine ⟨_, _, hs, posted_of_call rfl rfl, List.mem_cons_self, ?_⟩
  rintro _ ⟨⟩
  rfl

/-- A name server that is slow this time defers the second check. -/
theorem accepted_request_repeats_deferred :
    ∃ s m read, System.Reachable Transition.anyStep s ∧ m ∈ s.db.messages.rows ∧
      ((create hookApi System.plainEngine 1 "M2" true s.db hookRequest).run
        (resolving none)).2.answer = .ok ⟨202, .message read⟩ ∧ read.id = m.id := by
  obtain ⟨s, m, hs, hposted, hrow, hkept⟩ := hook_posted
  have hrun : Runs (fun _ => True)
      (create hookApi System.plainEngine 1 "M2" true s.db hookRequest) _ _ :=
    Runs.run (resolving none) (fun _ => trivial) _
  have htrace : ((create hookApi System.plainEngine 1 "M2" true s.db hookRequest).run
      (resolving none)).1 =
        [⟨.acquireSlot, true⟩, ⟨.submit "hooks.example.org" none 2, none⟩] := rfl
  obtain ⟨⟨read, hanswer, hid⟩, -⟩ :=
    (accepted_request_repeats hs .refl hposted hrow rfl hrun).mpr
      ⟨by simp [htrace, LookupsPass], hkept⟩
  exact ⟨s, m, read, hs, hrow, hanswer, hid⟩

/-- The host now has a private address: the message is there, but its request is refused. -/
theorem accepted_request_refused :
    ∃ s m trace result, System.Reachable Transition.anyStep s ∧
      Posted (fun _ => True) hookApi s hookRequest m ∧ m ∈ s.db.messages.rows ∧
      Runs (fun _ => True) (create hookApi System.plainEngine 1 "M2" true s.db hookRequest)
        trace result ∧
      result.answer = .ok ⟨422, .fieldErrors "validation_error"
        [("recipient", ["webhook URL resolves to a blocked address range"])]⟩ := by
  obtain ⟨s, m, hs, hposted, hrow, -⟩ := hook_posted
  exact ⟨s, m, _, _, hs, hposted, hrow,
    Runs.run (resolving (some (.ok ["10.0.0.5"]))) (fun _ => trivial) _, rfl⟩

def twoItems : JsonObject := ⟨[("items", .arr [.str "a", .str "b"])], rfl⟩
def oneItem : JsonObject := ⟨[("items", .arr [.str "a"])], rfl⟩

/-- The template has `items.pop()` in it. -/
def poppingEngine : Engine := { System.plainEngine with leaves := fun _ _ _ => oneItem }

def popFields : RawFields :=
  { hookFields with context := .ok ⟨.obj twoItems.members, twoItems.wellFormed⟩ }

/-- The context was stored as the template had left it: the identical request is a conflict. -/
theorem accepted_request_conflicts :
    ∃ s m trace result, System.Reachable Transition.anyStep s ∧
      Posted (fun _ => True) hookApi s ⟨some 1, some "key", popFields⟩ m ∧
      m ∈ s.db.messages.rows ∧
      Runs (fun _ => True)
        (create hookApi poppingEngine 1 "M2" true s.db ⟨some 1, some "key", popFields⟩)
        trace result ∧
      result.answer = .ok (error "idempotency_conflict"
        "Idempotency-Key reused with different payload" 409) := by
  have hs : System.Reachable Transition.anyStep _ := ⟨0,
    Transition.reaches_of_runAll
      (hookSteps poppingEngine { hookData with context := some twoItems }) rfl⟩
  exact ⟨_, _, _, _, hs, posted_of_call rfl rfl, List.mem_cons_self,
    Runs.run (resolving (some (.ok ["1.1.1.1"]))) (fun _ => trivial) _, rfl⟩

end Scenario

end NotifyRelay
