import NotifyRelay.Webhook

/-! Whatever the resolver answers, and whenever, a webhook goes to an address that the same
delivery has vetted. The check at acceptance has no say in it. -/
namespace NotifyRelay

open Validators

variable {possible : Exchange Question Question.Reply → Prop}

/-- The address comes from the URL itself, or from the one lookup of this trace, and
everything the lookup gave passed. -/
def Vetted (setting : NetworksSetting) (url : Url) (trace : NetTrace) (address : String) : Prop :=
  (address = url.rawHost ∧ lookups trace = [] ∧ Acceptable setting url.rawHost) ∨
    ∃ infos, lookups trace = [⟨.getaddrinfo url.rawHost url.port, .ok infos⟩] ∧
      infos.head? = some address ∧ ∀ addr ∈ infos, Acceptable setting addr

theorem Vetted.acceptable {setting : NetworksSetting} {url : Url} {trace : NetTrace}
    {address : String} (h : Vetted setting url trace address) : Acceptable setting address := by
  rcases h with ⟨rfl, -, hpass⟩ | ⟨infos, -, hhead, hall⟩
  · exact hpass
  · exact hall _ (List.mem_of_mem_head? hhead)

namespace WebhookChannel

variable {channel : WebhookChannel} {message : Message} {trace : NetTrace}

theorem deliver_runs {addresses : List String} {result : Except SendError ChannelResult}
    (h : Runs possible (channel.deliver message addresses) trace result) :
    lookups trace = [] ∧ (posts trace = [] ∨
      ∃ url address rest request reply, channel.httpx.url message.recipient = .ok url ∧
        addresses = address :: rest ∧ channel.httpx.copyWithHost url address = .ok request.url ∧
        possible ⟨.post channel.clientOptions request, reply⟩ ∧
        posts trace = [⟨.post channel.clientOptions request, reply⟩]) := by
  unfold deliver at h
  split at h
  next =>
    obtain ⟨rfl, -⟩ := Runs.done_iff.mp h
    exact ⟨rfl, .inl rfl⟩
  next url hurl =>
    obtain ⟨now, rest, -, rfl, hrest⟩ := Runs.ask_iff.mp h
    dsimp only at hrest
    split at hrest
    next =>
      obtain ⟨rfl, -⟩ := Runs.done_iff.mp hrest
      exact ⟨rfl, .inl rfl⟩
    next signature hsignature =>
      split at hrest
      next =>
        obtain ⟨rfl, -⟩ := Runs.done_iff.mp hrest
        exact ⟨rfl, .inl rfl⟩
      next address others =>
        split at hrest
        next =>
          obtain ⟨rfl, -⟩ := Runs.done_iff.mp hrest
          exact ⟨rfl, .inl rfl⟩
        next target htarget =>
          obtain ⟨reply, last, hreply, rfl, hlast⟩ := Runs.ask_iff.mp hrest
          obtain ⟨rfl, -⟩ := Runs.done_iff.mp hlast
          exact ⟨rfl, .inr ⟨url, address, others, _, reply, hurl, rfl, htarget, hreply, rfl⟩⟩

/-- A delivery posts at most once, and only after its own lookup was vetted. -/
theorem send_runs {result : Except SendError ChannelResult}
    (h : Runs possible (channel.send message) trace result) :
    posts trace = [] ∨
      ∃ url address request reply, WellFormed channel.httpx message.recipient url ∧
        Vetted channel.blockedNetworks url trace address ∧
        channel.httpx.copyWithHost url address = .ok request.url ∧
        possible ⟨.post channel.clientOptions request, reply⟩ ∧
        posts trace = [⟨.post channel.clientOptions request, reply⟩] := by
  obtain ⟨before, verdict, after, rfl, hguard, hafter⟩ := Runs.bind_iff.mp h
  have hquiet : posts before = [] := posts_eq_nil
    (hguard.allowed_of_asks (validateWebhookUrl_asks ..))
  rw [posts_append, hquiet, List.nil_append]
  cases verdict with
  | error error =>
      left
      cases error <;> (obtain ⟨rfl, -⟩ := Runs.done_iff.mp hafter; rfl)
  | ok addresses =>
      obtain ⟨hlookups, hnone | ⟨url, address, rest, request, reply, hurl, haddresses, htarget,
        hreply, hposts⟩⟩ := deliver_runs hafter
      · exact .inl hnone
      · obtain ⟨parsed, hwell, hvetted⟩ := validateWebhookUrl_ok hguard
        have hsame : parsed = url := Except.ok.inj (hwell.parses.symm.trans hurl)
        subst hsame haddresses
        refine .inr ⟨parsed, address, request, reply, hwell, ?_, htarget, hreply, hposts⟩
        unfold Vetted
        rw [lookups_append, hlookups, List.append_nil]
        rcases hvetted with ⟨rfl, hliteral, hpass⟩ | ⟨infos, rfl, -, hhead, hall⟩
        · exact .inl ⟨(List.cons.inj hliteral).1, rfl, hpass⟩
        · exact .inr ⟨infos, rfl, hhead.symm, hall⟩

end WebhookChannel

/-- The check at acceptance, however it ends, and a delivery later on. -/
def acceptThenSend (emailValidator : String → Except (List String) Unit)
    (channel : WebhookChannel) (message : Message) :
    Net (Except GuardError Unit × Except SendError ChannelResult) :=
  (validateRecipient emailValidator channel.httpx channel.blockedNetworks message.channel
    message.recipient).bind fun verdict =>
      (channel.send message).bind fun result => .done (verdict, result)

/-- DNS cannot redirect a webhook: every connection of a delivery goes to an address that
was vetted in the same delivery. -/
theorem connection_vetted (emailValidator : String → Except (List String) Unit)
    (channel : WebhookChannel) (message : Message)
    (hdials : DialsHost channel.httpx possible) :
    (∀ {trace verdict result},
      Runs possible (acceptThenSend emailValidator channel message) trace (verdict, result) →
      ∃ apiTrace sendTrace, trace = apiTrace ++ sendTrace ∧ posts apiTrace = [] ∧
        Runs possible (channel.send message) sendTrace result ∧
        (posts sendTrace).length ≤ 1 ∧
        (∀ options request reply, ⟨.post options request, reply⟩ ∈ posts sendTrace →
          reply.resolved = []) ∧
        ∀ target ∈ connections trace, ∃ url, WellFormed channel.httpx message.recipient url ∧
          target.scheme = url.scheme ∧
          Vetted channel.blockedNetworks url sendTrace target.address) ∧
    ∀ {setting url trace addresses},
      Runs possible (validateWebhookUrl channel.httpx setting url none) trace (.ok addresses) →
      addresses ≠ [] := by
  refine ⟨fun {trace verdict result} hrun => ?_, fun {setting url trace addresses} hrun => ?_⟩
  · obtain ⟨apiTrace, _, after, rfl, hapi, hafter⟩ := Runs.bind_iff.mp hrun
    obtain ⟨sendTrace, _, last, rfl, hsend, hlast⟩ := Runs.bind_iff.mp hafter
    obtain ⟨rfl, hresult⟩ := Runs.done_iff.mp hlast
    cases hresult
    have hquiet : posts apiTrace = [] := posts_eq_nil
      (hapi.allowed_of_asks (validateRecipient_asks ..))
    rw [List.append_nil]
    refine ⟨apiTrace, sendTrace, rfl, hquiet, hsend, ?_⟩
    simp only [mem_connections, posts_append, hquiet, List.nil_append]
    rcases channel.send_runs hsend with hnone | ⟨url, address, request, reply, hwell, hvetted,
      htarget, hreply, hposts⟩
    · simp [hnone]
    · obtain ⟨hresolved, hdialled⟩ :=
        hdials _ _ _ _ _ hreply rfl rfl hvetted.acceptable.isSome htarget
      rw [hposts]
      refine ⟨le_rfl, fun _ _ _ hmem => ?_, ?_⟩
      · cases List.mem_singleton.mp hmem
        exact hresolved
      · rintro target ⟨_, _, _, hmem, hopened⟩
        cases List.mem_singleton.mp hmem
        rw [hdialled target hopened]
        exact ⟨url, hwell, rfl, hvetted⟩
  · obtain ⟨parsed, hwell, ⟨-, rfl, -⟩ | ⟨infos, -, hne, -⟩⟩ := validateWebhookUrl_ok hrun
    · exact List.cons_ne_nil _ _
    · exact hne

section Scenario

/-- A client that does what its options say: it follows a redirect, or uses a proxy, only if
it may. -/
def plainClient : Exchange Question Question.Reply → Prop
  | ⟨.post options request, reply⟩ =>
      options.trustEnv = false → options.followRedirects = false →
        reply.resolved = [] ∧ reply.dialled = [⟨request.url.scheme, request.url.rawHost⟩]
  | _ => True

theorem plainClient_dialsHost : DialsHost plainHttpx plainClient := by
  intro options request reply url address hreply htrust hredirects _ htarget
  obtain ⟨hresolved, hdialled⟩ := hreply htrust hredirects
  refine ⟨hresolved, fun target hmem => ?_⟩
  rw [hdialled, ← Except.ok.inj htarget] at hmem
  exact List.mem_singleton.mp hmem

/-- The name server is too slow for the API, and answers the worker. -/
def slowResolver : (question : Question) → question.Reply
  | .getaddrinfo _ _ => .ok ["1.1.1.1", "8.8.8.8"]
  | .acquireSlot => true
  | .submit _ _ _ => none
  | .time => 1700000000
  | .post _ request => ⟨[], [⟨request.url.scheme, request.url.rawHost⟩], .ok 204⟩

def plainChannel : WebhookChannel where
  httpx := plainHttpx
  hexdigest _ _ := "00"
  secretProvider _ := "secret"
  blockedNetworks := .list ["9.9.9.0/24"]
  timeoutS := 10

def plainWebhook : Message where
  id := "M1"
  idempotencyKey := "key"
  apiKey := some 1
  channel := .webhook
  recipient := "https://hooks.example.org/x"
  templateVersion := some 1
  renderedSubject := ""
  renderedBody := "{}"
  context := .empty
  priority := .default
  status := .sending
  scheduledAt := none
  enqueuedAt := some 0
  claimedBy := "T1"
  createdAt := 0
  updatedAt := 0

/-- The API defers its check, and the worker connects to the first address it vetted. -/
theorem connection_vetted_deferred :
    ∃ url sendTrace, WellFormed plainHttpx "https://hooks.example.org/x" url ∧
      Vetted (.list ["9.9.9.0/24"]) url sendTrace "1.1.1.1" := by
  have hclient : ∀ question, plainClient ⟨question, slowResolver question⟩ := by
    intro question
    cases question with
    | post options request => exact fun _ _ => ⟨rfl, rfl⟩
    | _ => trivial
  obtain ⟨hsend, -⟩ := connection_vetted (fun _ => .ok ()) plainChannel plainWebhook
    plainClient_dialsHost
  obtain ⟨apiTrace, sendTrace, -, -, -, -, -, hconnections⟩ :=
    hsend (Runs.run slowResolver hclient _)
  obtain ⟨url, hwell, -, hvetted⟩ := hconnections ⟨"https", "1.1.1.1"⟩ (by decide +kernel)
  exact ⟨url, sendTrace, hwell, hvetted⟩

end Scenario

end NotifyRelay
