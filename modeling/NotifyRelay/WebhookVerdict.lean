import NotifyRelay.WebhookTarget

/-! On which side of the retry policy a webhook delivery ends, for every answer of the resolver
and of the other server. Which codes of `gaierror` are temporary is a parameter. -/
namespace NotifyRelay

open Validators

/-- What the resolver answered in this trace. -/
def answers (trace : NetTrace) : List ResolverAnswer :=
  trace.filterMap fun
    | ⟨.getaddrinfo _ _, answer⟩ => some answer
    | _ => none

/-- How the requests of this trace ended. -/
def outcomes (trace : NetTrace) : List (Except TransportError Int) :=
  trace.filterMap fun
    | ⟨.post _ _, reply⟩ => some reply.outcome
    | _ => none

@[simp] theorem answers_append (before after : NetTrace) :
    answers (before ++ after) = answers before ++ answers after := List.filterMap_append ..

@[simp] theorem outcomes_append (before after : NetTrace) :
    outcomes (before ++ after) = outcomes before ++ outcomes after := List.filterMap_append ..

/-- A status that asks to try again later. -/
def RetryStatus (statusCode : Int) : Prop :=
  statusCode = 408 ∨ statusCode = 425 ∨ statusCode = 429 ∨ 500 ≤ statusCode ∧ statusCode < 600

instance (statusCode : Int) : Decidable (RetryStatus statusCode) :=
  inferInstanceAs (Decidable (_ ∨ _))

def SuccessStatus (statusCode : Int) : Prop := 200 ≤ statusCode ∧ statusCode < 300

section Causes

variable (temporary : Int → Prop) (setting : NetworksSetting)

def TemporaryAnswer : ResolverAnswer → Prop
  | .error (.gaierror code _) => temporary code
  | .error (.timeoutError _) => True
  | _ => False

/-- The name does not exist, cannot be a name, or leads to a blocked address. -/
def PermanentAnswer : ResolverAnswer → Prop
  | .error (.gaierror code _) => ¬temporary code
  | .error (.unicodeError _) => True
  | .error _ => False
  | .ok infos => infos = [] ∨ ∃ addr ∈ infos, isBlockedIp setting addr = .ok true

def TemporaryOutcome : Except TransportError Int → Prop
  | .ok statusCode => RetryStatus statusCode
  | .error (.timeoutException _) => True
  | .error (.requestError _) => True
  | .error (.other _) => False

/-- Something went wrong that may pass. -/
def TemporaryCause (trace : NetTrace) : Prop :=
  (∃ answer ∈ answers trace, TemporaryAnswer temporary answer) ∨
    ∃ outcome ∈ outcomes trace, TemporaryOutcome outcome

/-- The URL is malformed, or its host is a literal address that is blocked. -/
def RefusedUrl (httpx : Httpx) (url : String) : Prop :=
  ∀ parsed, WellFormed httpx url parsed → '%' ∈ parsed.rawHost.toList ∨
    looksLikeIp parsed.rawHost = true ∧ isBlockedIp setting parsed.rawHost = .ok true

def PermanentCause (httpx : Httpx) (url : String) (trace : NetTrace) : Prop :=
  RefusedUrl setting httpx url ∨
    (∃ answer ∈ answers trace, PermanentAnswer temporary setting answer) ∨
    ∃ statusCode, .ok statusCode ∈ outcomes trace ∧ ¬SuccessStatus statusCode ∧
      ¬RetryStatus statusCode

end Causes

/-- What `_dispatch` sees of a webhook delivery; `repr` is that of an exception. -/
def seenResult (repr : SendError → String) : Except SendError ChannelResult → ChannelResult
  | .ok result => (Delivery.SendOutcome.returned result).result
  | .error error => (Delivery.SendOutcome.raised (repr error)).result

/-- The delivery is on the right side of the retry policy. -/
structure RetriedRightly (temporary : Int → Prop) (channel : WebhookChannel) (message : Message)
    (trace : NetTrace) (result : ChannelResult) : Prop where
  success_iff : result.success = true ↔
    ∃ statusCode, .ok statusCode ∈ outcomes trace ∧ SuccessStatus statusCode
  transient : TemporaryCause temporary trace → result.success = false ∧ result.transient = true
  permanent : result.success = false → result.transient = false →
    PermanentCause temporary channel.blockedNetworks channel.httpx message.recipient trace
  failed : ∀ retriesDone reason,
    Delivery.verdict result retriesDone = .deadLetter .failed reason →
      PermanentCause temporary channel.blockedNetworks channel.httpx message.recipient trace

theorem Delivery.verdict_failed {result : ChannelResult} {retriesDone : Nat} {reason : String}
    (h : verdict result retriesDone = .deadLetter .failed reason) :
    result.success = false ∧ result.transient = false := by
  unfold verdict at h
  split at h
  next => contradiction
  next hsuccess =>
    split at h
    next htransient => exact ⟨by simpa using hsuccess, by simpa using htransient⟩
    next =>
      split at h
      next => cases h
      next => cases h

namespace Validators

variable {setting : NetworksSetting} {httpx : Httpx} {url : String}

theorem exists_of_mapM_error {ε α β : Type} {f : α → Except ε β} {xs : List α} {error : ε}
    (h : xs.mapM f = .error error) : ∃ x ∈ xs, f x = .error error := by
  induction xs with
  | nil => cases h
  | cons x xs ih =>
      rw [List.mapM_cons] at h
      cases hx : f x with
      | error error' =>
          rw [hx] at h
          cases h
          exact ⟨x, List.mem_cons_self, hx⟩
      | ok y =>
          cases hxs : xs.mapM f with
          | error error' =>
              rw [hx, hxs] at h
              cases h
              obtain ⟨found, hfound, herror⟩ := ih hxs
              exact ⟨found, List.mem_cons_of_mem _ hfound, herror⟩
          | ok ys =>
              rw [hx, hxs] at h
              cases h

/-- Only an entry of the setting can make the check of an address raise. -/
theorem blockedNetworks_error {error : GuardError} (h : blockedNetworks setting = .error error) :
    ∃ network, error = .valueError network := by
  obtain ⟨entry, -, hentry⟩ := exists_of_mapM_error h
  split at hentry
  next => cases hentry
  next =>
    cases hentry
    exact ⟨_, rfl⟩

theorem isBlockedIp_error {addr : String} {error : GuardError}
    (h : isBlockedIp setting addr = .error error) : ∃ network, error = .valueError network := by
  unfold isBlockedIp at h
  split at h
  next => cases h
  next =>
    unfold blockedAddress at h
    split at h
    next => cases h
    next =>
      split at h
      next => cases h
      next =>
        cases hnetworks : blockedNetworks setting with
        | ok networks =>
            rw [hnetworks] at h
            cases h
        | error error' =>
            rw [hnetworks] at h
            cases h
            exact blockedNetworks_error hnetworks

/-- The loop refuses an answer without an entry, or with a blocked one. -/
theorem vetInfos_refusal {seen infos messages : List String}
    (h : vetInfos setting seen infos = .error (.validationError messages)) :
    (seen = [] ∧ infos = []) ∨ ∃ addr ∈ infos, isBlockedIp setting addr = .ok true := by
  induction infos generalizing seen with
  | nil =>
      unfold vetInfos at h
      split at h
      next hseen => exact .inl ⟨hseen, rfl⟩
      next => cases h
  | cons addr infos ih =>
      unfold vetInfos at h
      split at h
      next error herror =>
        obtain ⟨network, rfl⟩ := isBlockedIp_error herror
        cases h
      next hblocked => exact .inr ⟨addr, List.mem_cons_self, hblocked⟩
      next =>
        rcases ih h with ⟨hseen, -⟩ | ⟨found, hfound, hblocked⟩
        · split at hseen
          next hmem =>
            rw [hseen] at hmem
            contradiction
          next => exact absurd hseen (by simp)
        · exact .inr ⟨found, List.mem_cons_of_mem _ hfound, hblocked⟩

/-- A refusal that is not a temporary failure of the lookup has a permanent cause. -/
theorem vetAnswer_refusal {temporary : Int → Prop} {answer : ResolverAnswer}
    {messages : List String}
    (h : vetAnswer setting (answer.map some) = .error (.validationError messages))
    (hpermanent : ∀ code text, answer = .error (.gaierror code text) → ¬temporary code) :
    PermanentAnswer temporary setting answer ∧ ¬TemporaryAnswer temporary answer := by
  rcases answer with (⟨code, text⟩ | text | text | exception) | infos
  · exact ⟨hpermanent code text rfl, hpermanent code text rfl⟩
  · exact ⟨trivial, not_false⟩
  · cases h
  · cases h
  · exact ⟨(vetInfos_refusal h).imp_left And.right, not_false⟩

theorem vetLiteral_refusal {host : String} {messages : List String}
    (h : vetLiteral setting host = .error (.validationError messages)) :
    isBlockedIp setting host = .ok true := by
  unfold vetLiteral at h
  split at h
  next error herror =>
    obtain ⟨network, rfl⟩ := isBlockedIp_error herror
    cases h
  next hblocked => exact hblocked
  next => cases h

theorem validateWebhookUrl_of_wellFormed {parsed : Url} (h : WellFormed httpx url parsed)
    (timeout : Option Rat) :
    validateWebhookUrl httpx setting url timeout =
      if '%' ∈ parsed.rawHost.toList then
        .done (refuse "webhook URL must not carry an IPv6 zone id")
      else if looksLikeIp parsed.rawHost then .done (vetLiteral setting parsed.rawHost)
      else
        (getaddrinfo parsed.rawHost parsed.port timeout).bind fun answer =>
          .done (vetAnswer setting answer) := by
  have hscheme : ¬(parsed.scheme ≠ "http" ∧ parsed.scheme ≠ "https") := fun hother =>
    h.scheme.elim hother.1 hother.2
  have hport : ¬(parsed.port.any fun port => !(0 < port && port < 65536)) = true := by
    intro hany
    obtain ⟨port, hsome, hrange⟩ := (Option.any_eq_true _ _).mp hany
    simp [h.port port hsome] at hrange
  unfold validateWebhookUrl
  rw [h.parses]
  dsimp only
  rw [if_neg hscheme, if_neg h.host, if_neg hport]

variable {possible : Exchange Question Question.Reply → Prop} {trace : NetTrace}

/-- The guard asks the resolver once or not at all. -/
theorem validateWebhookUrl_runs {verdict : Except GuardError (List String)}
    (h : Runs possible (validateWebhookUrl httpx setting url none) trace verdict) :
    (trace = [] ∧ ∀ messages, verdict = .error (.validationError messages) →
      RefusedUrl setting httpx url) ∨
    ∃ host port answer, trace = [⟨.getaddrinfo host port, answer⟩] ∧
      verdict = vetAnswer setting (answer.map some) := by
  by_cases hwell : ∃ parsed, WellFormed httpx url parsed
  · obtain ⟨parsed, hwell⟩ := hwell
    have hsame : ∀ other, WellFormed httpx url other → other = parsed := fun other hother =>
      Except.ok.inj (hother.parses.symm.trans hwell.parses)
    rw [validateWebhookUrl_of_wellFormed hwell] at h
    split at h
    next hzone =>
      refine .inl ⟨(Runs.done_iff.mp h).1, fun _ _ other hother => .inl ?_⟩
      rwa [hsame other hother]
    next =>
      split at h
      next hliteral =>
        obtain ⟨rfl, rfl⟩ := Runs.done_iff.mp h
        refine .inl ⟨rfl, fun messages hmessages other hother => .inr ?_⟩
        rw [hsame other hother]
        exact ⟨hliteral, vetLiteral_refusal hmessages⟩
      next =>
        obtain ⟨before, found, after, rfl, hlookup, hafter⟩ := Runs.bind_iff.mp h
        obtain ⟨rfl, rfl⟩ := Runs.done_iff.mp hafter
        obtain ⟨answer, rest, -, rfl, hdone⟩ := Runs.ask_iff.mp hlookup
        obtain ⟨rfl, rfl⟩ := Runs.done_iff.mp hdone
        exact .inr ⟨_, _, answer, rfl, rfl⟩
  · have hrefused : RefusedUrl setting httpx url := fun parsed hparsed =>
      absurd ⟨parsed, hparsed⟩ hwell
    rcases validateWebhookUrl_cases httpx setting url with
      ⟨error, heq⟩ | ⟨parsed, hparsed, -⟩
    · rw [heq] at h
      exact .inl ⟨(Runs.done_iff.mp h).1, fun _ _ => hrefused⟩
    · exact absurd ⟨parsed, hparsed⟩ hwell

end Validators

namespace WebhookChannel

variable {possible : Exchange Question Question.Reply → Prop} {trace : NetTrace}
  {channel : WebhookChannel} {message : Message} {result : Except SendError ChannelResult}

/-- Past the guard a delivery raises, or one request decides. -/
theorem deliver_cases {addresses : List String}
    (h : Runs possible (channel.deliver message addresses) trace result) :
    answers trace = [] ∧
      ((outcomes trace = [] ∧ ∃ error, result = .error error) ∨
        ∃ outcome, outcomes trace = [outcome] ∧ result = transportResult outcome) := by
  unfold deliver at h
  split at h
  next =>
    obtain ⟨rfl, rfl⟩ := Runs.done_iff.mp h
    exact ⟨rfl, .inl ⟨rfl, _, rfl⟩⟩
  next url hurl =>
    obtain ⟨now, rest, -, rfl, hrest⟩ := Runs.ask_iff.mp h
    dsimp only at hrest
    split at hrest
    next =>
      obtain ⟨rfl, rfl⟩ := Runs.done_iff.mp hrest
      exact ⟨rfl, .inl ⟨rfl, _, rfl⟩⟩
    next signature hsignature =>
      split at hrest
      next =>
        obtain ⟨rfl, rfl⟩ := Runs.done_iff.mp hrest
        exact ⟨rfl, .inl ⟨rfl, _, rfl⟩⟩
      next address others =>
        split at hrest
        next =>
          obtain ⟨rfl, rfl⟩ := Runs.done_iff.mp hrest
          exact ⟨rfl, .inl ⟨rfl, _, rfl⟩⟩
        next target htarget =>
          obtain ⟨reply, last, -, rfl, hlast⟩ := Runs.ask_iff.mp hrest
          obtain ⟨rfl, rfl⟩ := Runs.done_iff.mp hlast
          exact ⟨rfl, .inr ⟨reply.outcome, rfl, rfl⟩⟩

/-- What a refusal by the guard becomes. -/
def refusal (messages : List String) : ChannelResult :=
  { success := false, transient := false, errorMessage := String.intercalate "; " messages }

/-- How a delivery ends: the URL is refused, the answer of the resolver is refused, something
raises, or one request decides. -/
inductive Ends (channel : WebhookChannel) (message : Message) (trace : NetTrace) :
    Except SendError ChannelResult → Prop where
  | refusedUrl (messages : List String) (hanswers : answers trace = [])
      (houtcomes : outcomes trace = [])
      (hurl : RefusedUrl channel.blockedNetworks channel.httpx message.recipient) :
      Ends channel message trace (.ok (refusal messages))
  | refusedAnswer (answer : ResolverAnswer) (messages : List String)
      (hanswers : answers trace = [answer]) (houtcomes : outcomes trace = [])
      (hvet : vetAnswer channel.blockedNetworks (answer.map some) =
        .error (.validationError messages)) :
      Ends channel message trace (.ok (refusal messages))
  | raised (error : SendError)
      (hanswers : ∀ code text, .error (.gaierror code text) ∉ answers trace)
      (houtcomes : outcomes trace = []) : Ends channel message trace (.error error)
  | decided (outcome : Except TransportError Int)
      (hanswers : ∀ error, .error error ∉ answers trace) (houtcomes : outcomes trace = [outcome]) :
      Ends channel message trace (transportResult outcome)

theorem deliver_ends {before after : NetTrace} {addresses : List String}
    (hbefore : ∀ error, .error error ∉ answers before) (hquiet : outcomes before = [])
    (h : Runs possible (channel.deliver message addresses) after result) :
    Ends channel message (before ++ after) result := by
  obtain ⟨hanswers, hcases⟩ := deliver_cases h
  have hall : ∀ error, .error error ∉ answers (before ++ after) := by
    simpa [hanswers] using hbefore
  rcases hcases with ⟨houtcomes, error, rfl⟩ | ⟨outcome, houtcomes, rfl⟩
  · exact .raised error (fun _ _ => hall _) (by rw [outcomes_append, hquiet, houtcomes]; rfl)
  · exact .decided outcome hall (by rw [outcomes_append, hquiet, houtcomes]; rfl)

theorem send_ends (h : Runs possible (channel.send message) trace result) :
    Ends channel message trace result := by
  obtain ⟨before, verdict, after, rfl, hguard, hafter⟩ := Runs.bind_iff.mp h
  rcases validateWebhookUrl_runs hguard with ⟨rfl, hrefused⟩ | ⟨host, port, answer, rfl, hvet⟩
  · rcases verdict with (messages | network | error) | addresses
    · obtain ⟨rfl, rfl⟩ := Runs.done_iff.mp hafter
      exact .refusedUrl messages rfl rfl (hrefused messages rfl)
    · obtain ⟨rfl, rfl⟩ := Runs.done_iff.mp hafter
      exact .raised _ (fun _ _ => List.not_mem_nil) rfl
    · obtain ⟨rfl, rfl⟩ := Runs.done_iff.mp hafter
      exact .raised _ (fun _ _ => List.not_mem_nil) rfl
    · exact deliver_ends (fun _ => List.not_mem_nil) rfl hafter
  · -- an error of the resolver never leads to a request, and `gaierror` never leaves `send`
    have hgai : ∀ code text, (∀ messages, verdict ≠ .error (.validationError messages)) →
        .error (.gaierror code text) ∉ answers [⟨.getaddrinfo host port, answer⟩] := by
      intro code text hother hmem
      cases List.mem_singleton.mp hmem
      exact hother _ hvet
    rcases verdict with (messages | network | error) | addresses
    · obtain ⟨rfl, rfl⟩ := Runs.done_iff.mp hafter
      exact .refusedAnswer answer messages rfl rfl hvet.symm
    · obtain ⟨rfl, rfl⟩ := Runs.done_iff.mp hafter
      exact .raised _ (fun code text => hgai code text nofun) rfl
    · obtain ⟨rfl, rfl⟩ := Runs.done_iff.mp hafter
      exact .raised _ (fun code text => hgai code text nofun) rfl
    · refine deliver_ends (fun error hmem => ?_) rfl hafter
      cases List.mem_singleton.mp hmem
      cases error <;> cases hvet

end WebhookChannel

section Verdicts

open WebhookChannel

variable {temporary : Int → Prop} {channel : WebhookChannel} {message : Message}
  {trace : NetTrace}

theorem RetriedRightly.of_results {result : ChannelResult}
    (hsuccess : result.success = true ↔
      ∃ statusCode, .ok statusCode ∈ outcomes trace ∧ SuccessStatus statusCode)
    (htransient : TemporaryCause temporary trace →
      result.success = false ∧ result.transient = true)
    (hpermanent : result.success = false → result.transient = false →
      PermanentCause temporary channel.blockedNetworks channel.httpx message.recipient trace) :
    RetriedRightly temporary channel message trace result where
  success_iff := hsuccess
  transient := htransient
  permanent := hpermanent
  failed _ _ h := hpermanent (Delivery.verdict_failed h).1 (Delivery.verdict_failed h).2

theorem retriedRightly_status {statusCode : Int} (houtcomes : outcomes trace = [.ok statusCode])
    (hcause : TemporaryCause temporary trace → RetryStatus statusCode) :
    RetriedRightly temporary channel message trace (statusResult statusCode) := by
  have hone : (∃ code, .ok code ∈ outcomes trace ∧ SuccessStatus code) ↔
      SuccessStatus statusCode := by simp [houtcomes]
  unfold statusResult
  split
  next hsuccess =>
    refine .of_results (iff_of_true rfl (hone.mpr hsuccess)) (fun hmay => ?_) (by simp)
    have hretry := hcause hmay
    unfold RetryStatus at hretry
    omega
  next hsuccess =>
    refine .of_results (iff_of_false Bool.false_ne_true (mt hone.mp hsuccess))
      (fun hmay => ⟨rfl, decide_eq_true (hcause hmay)⟩) fun _ htransient => ?_
    have hmem : .ok statusCode ∈ outcomes trace := by simp [houtcomes]
    exact .inr (.inr ⟨statusCode, hmem, hsuccess, of_decide_eq_false htransient⟩)

/-- Whatever the failure, there was no answer with a status, and it is tried again. -/
theorem retriedRightly_transient {text : String} (hnone : ∀ code, .ok code ∉ outcomes trace) :
    RetriedRightly temporary channel message trace
      { success := false, transient := true, errorMessage := text } := by
  refine .of_results ?_ (fun _ => ⟨rfl, rfl⟩) (by simp)
  simp [hnone]

/-- One request decides, and no lookup failed. -/
theorem retriedRightly_decided {repr : SendError → String} {outcome : Except TransportError Int}
    (hanswers : ∀ error, .error error ∉ answers trace) (houtcomes : outcomes trace = [outcome]) :
    RetriedRightly temporary channel message trace (seenResult repr (transportResult outcome)) := by
  have hcause : TemporaryCause temporary trace → TemporaryOutcome outcome := by
    rintro (⟨answer, hmem, htemporary⟩ | ⟨found, hmem, htemporary⟩)
    · cases answer with
      | ok infos => contradiction
      | error error => exact absurd hmem (hanswers error)
    · rw [houtcomes, List.mem_singleton] at hmem
      rwa [← hmem]
  rcases outcome with (text | text | exception) | statusCode
  case ok => exact retriedRightly_status houtcomes hcause
  all_goals exact retriedRightly_transient (by simp [houtcomes])

/-- A webhook delivery is on the right side of the retry policy exactly when no lookup failed
temporarily: everything else that may pass is retried, and a message fails at once only for a
permanent cause. -/
theorem retriedRightly_iff (temporary : Int → Prop) (repr : SendError → String)
    {possible : Exchange Question Question.Reply → Prop} {result : Except SendError ChannelResult}
    (h : Runs possible (channel.send message) trace result) :
    RetriedRightly temporary channel message trace (seenResult repr result) ↔
      ∀ code text, .error (.gaierror code text) ∈ answers trace → ¬temporary code := by
  cases send_ends h with
  | refusedUrl messages hanswers houtcomes hurl =>
      refine iff_of_true (.of_results ?_ ?_ fun _ _ => .inl hurl) (by simp [hanswers])
      · simp [houtcomes, seenResult, Delivery.SendOutcome.result, refusal]
      · rintro (⟨_, hmem, -⟩ | ⟨_, hmem, -⟩)
        · simp [hanswers] at hmem
        · simp [houtcomes] at hmem
  | refusedAnswer answer messages hanswers houtcomes hvet =>
      constructor
      · intro hrightly code text hmem htemporary
        have htransient := (hrightly.transient (.inl ⟨_, hmem, htemporary⟩)).2
        contradiction
      · intro hcodes
        have hmem : answer ∈ answers trace := by simp [hanswers]
        obtain ⟨hpermanent, hnot⟩ := vetAnswer_refusal hvet fun code text heq =>
          hcodes code text (heq ▸ hmem)
        refine .of_results ?_ ?_ fun _ _ => .inr (.inl ⟨answer, hmem, hpermanent⟩)
        · simp [houtcomes, seenResult, Delivery.SendOutcome.result, refusal]
        · rintro (⟨found, hfound, htemporary⟩ | ⟨_, hfound, -⟩)
          · rw [hanswers, List.mem_singleton] at hfound
            exact absurd (hfound ▸ htemporary) hnot
          · simp [houtcomes] at hfound
  | raised error hanswers houtcomes =>
      exact iff_of_true (retriedRightly_transient (by simp [houtcomes]))
        fun code text hmem => absurd hmem (hanswers code text)
  | decided outcome hanswers houtcomes =>
      exact iff_of_true (retriedRightly_decided hanswers houtcomes)
        fun code text hmem => absurd hmem (hanswers _)

end Verdicts

section Scenario

/-- glibc's `EAI_AGAIN`. -/
def eaiAgain : Int := -3

def temporaryFailure : String := "[Errno -3] Temporary failure in name resolution"

/-- The name server is there for no one, or the other server asks to come back. -/
def troubled (answer : ResolverAnswer) (statusCode : Int) : (question : Question) → question.Reply
  | .getaddrinfo _ _ => answer
  | .acquireSlot => true
  | .submit _ _ _ => none
  | .time => 1700000000
  | .post _ request => ⟨[], [⟨request.url.scheme, request.url.rawHost⟩], .ok statusCode⟩

theorem retriedRightly_iff_busy :
    ∃ trace result, Runs (fun _ => True) (plainChannel.send plainWebhook) trace result ∧
      outcomes trace = [.ok 429] ∧
      RetriedRightly (· = eaiAgain) plainChannel plainWebhook trace
        (seenResult (fun _ => "") result) := by
  have hrun : Runs (fun _ => True) (plainChannel.send plainWebhook) _ _ :=
    Runs.run (troubled (.ok ["1.1.1.1"]) 429) (fun _ => trivial) _
  have hanswers : answers ((plainChannel.send plainWebhook).run
      (troubled (.ok ["1.1.1.1"]) 429)).1 = [.ok ["1.1.1.1"]] := by decide +kernel
  refine ⟨_, _, hrun, by decide +kernel, ?_⟩
  refine (retriedRightly_iff (· = eaiAgain) (fun _ => "") hrun).mpr fun code text hmem => ?_
  rw [hanswers, List.mem_singleton] at hmem
  cases hmem

theorem lookup_trouble_fails :
    ∃ trace result, Runs (fun _ => True) (plainChannel.send plainWebhook) trace result ∧
      answers trace = [.error (.gaierror eaiAgain temporaryFailure)] ∧
      Delivery.verdict (seenResult (fun _ => "") result) 0 = .deadLetter .failed
        ("permanent: webhook URL hostname does not resolve: " ++ temporaryFailure) ∧
      ¬RetriedRightly (· = eaiAgain) plainChannel plainWebhook trace
        (seenResult (fun _ => "") result) := by
  have hrun : Runs (fun _ => True) (plainChannel.send plainWebhook) _ _ :=
    Runs.run (troubled (.error (.gaierror eaiAgain temporaryFailure)) 200) (fun _ => trivial) _
  refine ⟨_, _, hrun, by decide +kernel, by decide +kernel, fun hrightly => ?_⟩
  have htransient := (hrightly.transient (.inl ⟨_, List.mem_singleton_self _, rfl⟩)).2
  exact absurd htransient (by decide +kernel)

end Scenario

end NotifyRelay
