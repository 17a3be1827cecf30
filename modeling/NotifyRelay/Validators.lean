import NotifyRelay.Network

/-! `apps/messages_api/validators.py`. Django's e-mail validator is a parameter. -/
namespace NotifyRelay

open Text IpNetwork

/-- `settings.WEBHOOK_BLOCKED_NETWORKS`. -/
inductive NetworksSetting where
  | list (entries : List String)
  | text (entries : String)
  deriving DecidableEq, Repr

/-- The exceptions that leave the guard. `valueError` is an entry of the setting that is
not a network. -/
inductive GuardError where
  | validationError (messages : List String)
  | valueError (network : String)
  | resolverError (error : ResolverError)
  deriving DecidableEq, Repr

namespace Validators

def apiResolveTimeoutS : Rat := 2

def tunnelNetworks : List IpNetwork :=
  constants ["64:ff9b::/96", "64:ff9b:1::/48", "2002::/16", "2001::/32", "::/96",
    "::ffff:0:0:0/96", "fec0::/10"]

def entries : NetworksSetting → List (List Char)
  | .list entries => entries.map String.toList
  | .text entries => entries.toList.splitOn ','

/-- `_blocked_networks`. -/
def blockedNetworks (setting : NetworksSetting) : Except GuardError (List IpNetwork) :=
  (((entries setting).map strip).filter (· ≠ [])).mapM fun entry =>
    match IpNetwork.parse false entry with
    | some network => .ok network
    | none => .error (.valueError (String.ofList entry))

/-- `_is_blocked_ip` of an address that parsed. -/
def blockedAddress (setting : NetworksSetting) (ip : IpAddress) : Except GuardError Bool :=
  if !ip.isGlobal || ip.isMulticast then .ok true
  else if contained tunnelNetworks ip then .ok true
  else (blockedNetworks setting).map fun networks => contained networks ip

/-- `_is_blocked_ip`. -/
def isBlockedIp (setting : NetworksSetting) (addr : String) : Except GuardError Bool :=
  match IpAddress.parse addr.toList with
  | none => .ok true
  | some ip => blockedAddress setting ip

/-- An address that passes every rule: it is one, it is globally routable and not multicast,
and neither a tunnel network nor a network of the setting has it. -/
def Acceptable (setting : NetworksSetting) (addr : String) : Prop :=
  ∃ ip networks, IpAddress.parse addr.toList = some ip ∧ ip.isGlobal = true ∧
    ip.isMulticast = false ∧ contained tunnelNetworks ip = false ∧
    blockedNetworks setting = .ok networks ∧ contained networks ip = false

theorem Acceptable.isSome {setting : NetworksSetting} {addr : String}
    (h : Acceptable setting addr) : (IpAddress.parse addr.toList).isSome = true := by
  obtain ⟨ip, -, hparse, -⟩ := h
  rw [hparse]
  rfl

theorem isBlockedIp_false {setting : NetworksSetting} {addr : String} :
    isBlockedIp setting addr = .ok false ↔ Acceptable setting addr := by
  unfold isBlockedIp Acceptable
  cases IpAddress.parse addr.toList with
  | none => simp
  | some ip =>
      dsimp only
      unfold blockedAddress
      split
      next hrange => grind
      next hrange =>
        split
        next htunnel => grind
        next htunnel => cases blockedNetworks setting <;> simp_all [Except.map]

/-- `_looks_like_ip`. -/
def looksLikeIp (host : String) : Bool :=
  (IpAddress.parse (stripBy (fun c => c == '[' || c == ']') host.toList)).isSome

/-- `future.result(timeout)`. A `TimeoutError` of the lookup itself looks the same. -/
def awaited : Option ResolverAnswer → Except ResolverError (Option (List String))
  | none => .ok none
  | some (.error (.timeoutError _)) => .ok none
  | some answer => answer.map some

/-- `_getaddrinfo`; `none` means no answer in time. -/
def getaddrinfo (host : String) (port : Option Nat) :
    Option Rat → Net (Except ResolverError (Option (List String)))
  | none => .ask (.getaddrinfo host port) fun answer => .done (answer.map some)
  | some timeout =>
      .ask .acquireSlot fun acquired =>
        if acquired then .ask (.submit host port timeout) fun answer => .done (awaited answer)
        else .done (.ok none)

def refuse (text : String) {α : Type} : Except GuardError α := .error (.validationError [text])

/-- The loop over the entries of an answer. -/
def vetInfos (setting : NetworksSetting) (addresses : List String) :
    List String → Except GuardError (List String)
  | [] =>
      if addresses = [] then refuse "webhook URL hostname does not resolve" else .ok addresses
  | addr :: infos =>
      match isBlockedIp setting addr with
      | .error error => .error error
      | .ok true => refuse "webhook URL resolves to a blocked address range"
      | .ok false =>
          vetInfos setting (if addr ∈ addresses then addresses else addresses ++ [addr]) infos

/-- What the loop returns passed, and its first address is the first one it saw. -/
theorem vetInfos_ok {setting : NetworksSetting} {seen infos addresses : List String}
    (h : vetInfos setting seen infos = .ok addresses) :
    addresses ≠ [] ∧ addresses.head? = (seen ++ infos).head? ∧
      ∀ addr ∈ infos, Acceptable setting addr := by
  induction infos generalizing seen with
  | nil =>
      unfold vetInfos at h
      split at h
      next => cases h
      next hseen =>
        cases h
        exact ⟨hseen, by rw [List.append_nil], fun _ ha => nomatch ha⟩
  | cons addr infos ih =>
      unfold vetInfos at h
      split at h
      next => cases h
      next => cases h
      next hpass =>
        obtain ⟨hne, hhead, hall⟩ := ih h
        refine ⟨hne, hhead.trans ?_, List.forall_mem_cons.mpr ⟨isBlockedIp_false.mp hpass, hall⟩⟩
        cases seen with
        | nil => rfl
        | cons first rest => split <;> rfl

@[simp] theorem isOk_ok {ε α : Type} (value : α) : (Except.ok value : Except ε α).isOk = true :=
  rfl

@[simp] theorem isOk_error {ε α : Type} (error : ε) :
    (Except.error error : Except ε α).isOk = false := rfl

theorem vetInfos_isOk {setting : NetworksSetting} {seen infos : List String} :
    (vetInfos setting seen infos).isOk = true ↔
      (seen ≠ [] ∨ infos ≠ []) ∧ ∀ addr ∈ infos, isBlockedIp setting addr = .ok false := by
  induction infos generalizing seen with
  | nil =>
      unfold vetInfos
      split <;> simp_all [refuse]
  | cons addr infos ih =>
      unfold vetInfos
      split
      next hblocked => simp [hblocked]
      next hblocked => simp [hblocked, refuse]
      next hpass =>
        rw [ih]
        have hseen : (if addr ∈ seen then seen else seen ++ [addr]) ≠ [] := by
          split
          next hmem => exact List.ne_nil_of_mem hmem
          next => exact List.append_ne_nil_of_right_ne_nil _ (List.cons_ne_nil _ _)
        simp [hseen, hpass]

def vetAnswer (setting : NetworksSetting) :
    Except ResolverError (Option (List String)) → Except GuardError (List String)
  | .error (.gaierror _ text) => refuse s!"webhook URL hostname does not resolve: {text}"
  | .error (.unicodeError text) => refuse s!"webhook URL hostname does not resolve: {text}"
  | .error error => .error (.resolverError error)
  | .ok none => .ok []
  | .ok (some infos) => vetInfos setting [] infos

/-- An answer of the resolver the guard lets through. A lookup that runs late defers the
check. -/
def passes (setting : NetworksSetting) : ResolverAnswer → Prop
  | .ok infos => infos ≠ [] ∧ ∀ addr ∈ infos, isBlockedIp setting addr = .ok false
  | .error (.timeoutError _) => True
  | .error _ => False

theorem vetAnswer_isOk {setting : NetworksSetting} (answer : ResolverAnswer) :
    (vetAnswer setting (awaited (some answer))).isOk = true ↔ passes setting answer := by
  rcases answer with (_ | _ | _ | _) | infos
  case ok => exact vetInfos_isOk.trans (by simp [passes])
  all_goals simp [awaited, vetAnswer, refuse, passes, Except.map]

def vetLiteral (setting : NetworksSetting) (host : String) : Except GuardError (List String) :=
  match isBlockedIp setting host with
  | .error error => .error error
  | .ok true => refuse "webhook URL points to a blocked address range"
  | .ok false => .ok [host]

theorem vetLiteral_ok {setting : NetworksSetting} {host : String} {addresses : List String}
    (h : vetLiteral setting host = .ok addresses) :
    addresses = [host] ∧ Acceptable setting host := by
  unfold vetLiteral at h
  split at h
  next => cases h
  next => cases h
  next hpass =>
    cases h
    exact ⟨rfl, isBlockedIp_false.mp hpass⟩

/-- `validate_webhook_url`. -/
def validateWebhookUrl (httpx : Httpx) (setting : NetworksSetting) (url : String)
    (resolveTimeout : Option Rat) : Net (Except GuardError (List String)) :=
  match httpx.url url with
  | .error text => .done (refuse s!"webhook URL is malformed: {text}")
  | .ok parsed =>
      if parsed.scheme ≠ "http" ∧ parsed.scheme ≠ "https" then
        .done (refuse "webhook URL must use http(s)")
      else if parsed.rawHost = "" then .done (refuse "webhook URL must include a hostname")
      else if parsed.port.any fun port => !(0 < port && port < 65536) then
        .done (refuse "webhook URL port is out of range")
      else if '%' ∈ parsed.rawHost.toList then
        .done (refuse "webhook URL must not carry an IPv6 zone id")
      else if looksLikeIp parsed.rawHost then .done (vetLiteral setting parsed.rawHost)
      else
        (getaddrinfo parsed.rawHost parsed.port resolveTimeout).bind fun answer =>
          .done (vetAnswer setting answer)

theorem getaddrinfo_asks (host : String) (port : Option Nat) (timeout : Option Rat) :
    (getaddrinfo host port timeout).Asks fun question => question.isPost = false := by
  cases timeout with
  | none => exact ⟨rfl, fun _ => trivial⟩
  | some timeout =>
      refine ⟨rfl, fun acquired => ?_⟩
      cases acquired with
      | false => trivial
      | true => exact ⟨rfl, fun _ => trivial⟩

/-- The API has no free slot, or waits for one lookup. -/
theorem getaddrinfo_runs {possible : Exchange Question Question.Reply → Prop}
    {trace : NetTrace} {host : String} {port : Option Nat} {timeout : Rat}
    {answer : Except ResolverError (Option (List String))}
    (h : Runs possible (getaddrinfo host port (some timeout)) trace answer) :
    (trace = [⟨.acquireSlot, false⟩] ∧ answer = .ok none) ∨
      ∃ reply, trace = [⟨.acquireSlot, true⟩, ⟨.submit host port timeout, reply⟩] ∧
        answer = awaited reply := by
  obtain ⟨acquired, rest, -, rfl, hrest⟩ := Runs.ask_iff.mp h
  cases acquired with
  | false =>
      obtain ⟨rfl, rfl⟩ := Runs.done_iff.mp hrest
      exact .inl ⟨rfl, rfl⟩
  | true =>
      obtain ⟨reply, last, -, rfl, hlast⟩ := Runs.ask_iff.mp hrest
      obtain ⟨rfl, rfl⟩ := Runs.done_iff.mp hlast
      exact .inr ⟨reply, rfl, rfl⟩

/-- A URL that passed everything that is checked before its host. -/
structure WellFormed (httpx : Httpx) (url : String) (parsed : Url) : Prop where
  parses : httpx.url url = .ok parsed
  scheme : parsed.scheme = "http" ∨ parsed.scheme = "https"
  host : parsed.rawHost ≠ ""
  port : ∀ port, parsed.port = some port → 0 < port ∧ port < 65536

/-- The URL alone decides whether the guard refuses, vets a literal or asks the resolver. -/
theorem validateWebhookUrl_cases (httpx : Httpx) (setting : NetworksSetting) (url : String) :
    (∃ error, ∀ timeout, validateWebhookUrl httpx setting url timeout = .done (.error error)) ∨
      ∃ parsed, WellFormed httpx url parsed ∧
        ((∀ timeout, validateWebhookUrl httpx setting url timeout =
            .done (vetLiteral setting parsed.rawHost)) ∨
          ∀ timeout, validateWebhookUrl httpx setting url timeout =
            (getaddrinfo parsed.rawHost parsed.port timeout).bind fun answer =>
              .done (vetAnswer setting answer)) := by
  unfold validateWebhookUrl
  split
  next => exact .inl ⟨_, fun _ => rfl⟩
  next parsed hparsed =>
    split
    next => exact .inl ⟨_, fun _ => rfl⟩
    next hscheme =>
      split
      next => exact .inl ⟨_, fun _ => rfl⟩
      next hhost =>
        split
        next => exact .inl ⟨_, fun _ => rfl⟩
        next hport =>
          split
          next => exact .inl ⟨_, fun _ => rfl⟩
          next =>
            have hwell : WellFormed httpx url parsed := by
              refine ⟨hparsed, ?_, hhost, ?_⟩
              · by_contra hother
                exact hscheme (not_or.mp hother)
              · intro port hsome
                simpa [hsome, Nat.pos_iff_ne_zero] using hport
            split
            next => exact .inr ⟨parsed, hwell, .inl fun _ => rfl⟩
            next => exact .inr ⟨parsed, hwell, .inr fun _ => rfl⟩

/-- The guard opens no connection. -/
theorem validateWebhookUrl_asks (httpx : Httpx) (setting : NetworksSetting) (url : String)
    (timeout : Option Rat) :
    (validateWebhookUrl httpx setting url timeout).Asks
      fun question => question.isPost = false := by
  rcases validateWebhookUrl_cases httpx setting url with
    ⟨error, h⟩ | ⟨parsed, -, h | h⟩ <;> rw [h]
  · trivial
  · trivial
  · exact (getaddrinfo_asks ..).bind fun _ => trivial

/-- Without a timeout the guard vets the literal host, or every address of one lookup. -/
theorem validateWebhookUrl_ok {possible : Exchange Question Question.Reply → Prop}
    {httpx : Httpx} {setting : NetworksSetting} {url : String} {trace : NetTrace}
    {addresses : List String}
    (h : Runs possible (validateWebhookUrl httpx setting url none) trace (.ok addresses)) :
    ∃ parsed, WellFormed httpx url parsed ∧
      ((trace = [] ∧ addresses = [parsed.rawHost] ∧ Acceptable setting parsed.rawHost) ∨
        ∃ infos, trace = [⟨.getaddrinfo parsed.rawHost parsed.port, .ok infos⟩] ∧
          addresses ≠ [] ∧ addresses.head? = infos.head? ∧
          ∀ addr ∈ infos, Acceptable setting addr) := by
  rcases validateWebhookUrl_cases httpx setting url with
    ⟨error, heq⟩ | ⟨parsed, hwell, heq | heq⟩ <;> rw [heq] at h
  · cases h
  · obtain ⟨rfl, hvet⟩ := Runs.done_iff.mp h
    exact ⟨parsed, hwell, .inl ⟨rfl, vetLiteral_ok hvet.symm⟩⟩
  · obtain ⟨before, answer, after, rfl, hlookup, hafter⟩ := Runs.bind_iff.mp h
    obtain ⟨rfl, hvet⟩ := Runs.done_iff.mp hafter
    obtain ⟨reply, rest, -, rfl, hdone⟩ := Runs.ask_iff.mp hlookup
    obtain ⟨rfl, rfl⟩ := Runs.done_iff.mp hdone
    cases reply with
    | error error => cases error <;> cases hvet
    | ok infos =>
        obtain ⟨hne, hhead, hall⟩ := vetInfos_ok hvet.symm
        exact ⟨parsed, hwell, .inr ⟨infos, rfl, hne, hhead, hall⟩⟩

/-- `validate_recipient`. -/
def validateRecipient (emailValidator : String → Except (List String) Unit) (httpx : Httpx)
    (setting : NetworksSetting) (channel : Channel) (recipient : String) :
    Net (Except GuardError Unit) :=
  match channel with
  | .email => .done ((emailValidator recipient).mapError .validationError)
  | .webhook =>
      (validateWebhookUrl httpx setting recipient (some apiResolveTimeoutS)).bind fun addresses =>
        .done (addresses.map fun _ => ())

theorem validateRecipient_asks (emailValidator : String → Except (List String) Unit)
    (httpx : Httpx) (setting : NetworksSetting) (channel : Channel) (recipient : String) :
    (validateRecipient emailValidator httpx setting channel recipient).Asks
      fun question => question.isPost = false := by
  cases channel with
  | email => trivial
  | webhook => exact (validateWebhookUrl_asks ..).bind fun _ => trivial

end Validators

end NotifyRelay
