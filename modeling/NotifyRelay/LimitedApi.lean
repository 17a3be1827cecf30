import NotifyRelay.KeyManagement
import NotifyRelay.LimiterBudget

/-! Requests on their way through `RateLimitMiddleware` to a view that authenticates them, while
keys are created and revoked and Redis comes and goes. -/
namespace NotifyRelay

open TokenBucket

structure MiddlewareSettings extends RateLimitSettings where
  enabled : Bool := true

/-- What DRF authentication makes of a request. -/
inductive Principal where
  | anonymous
  | apiKey (key : ApiKey)
  | failed (detail : String)

def ApiKeyAuthentication.authenticate (hashing : KeyHashing) (keys : ApiKeyTable)
    (request : KeyRequest) : Except KeyError (Principal × KeyRequest) :=
  if request.header.getD "" = "" then .ok (.anonymous, request)
  else
    (resolveApiKey hashing keys request).map fun (apiKey, request) =>
      match apiKey with
      | none => (.failed "invalid api key", request)
      | some key => (.apiKey key, request)

namespace RateLimitMiddleware

def keyIdentity (id : ApiKeyId) : String := "key:" ++ Nat.repr id

/-- `_derive`, with the memo it leaves on the request. -/
def deriveRequest (settings : RateLimitSettings) (hashing : KeyHashing) (keys : ApiKeyTable)
    (request : ClientRequest) : Except KeyError (Option Derived × KeyRequest) :=
  let arriving := KeyRequest.arriving request.apiKey
  let ip := String.ofList (clientIp settings request)
  if authPaths.any (·.isPrefixOf request.path) then
    .ok (some ⟨"auth-ip:" ++ ip, settings.authPerMin, settings.authBurst⟩, arriving)
  else if !"/api/v1/".toList.isPrefixOf request.path then .ok (none, arriving)
  else
    (resolveApiKey hashing keys arriving).map fun (apiKey, memo) =>
      match apiKey with
      | some key => (some ⟨keyIdentity key.id, key.rateLimitPerMin, key.burst⟩, memo)
      | none => (some ⟨"ip:" ++ ip, settings.defaultPerMin, settings.defaultBurst⟩, memo)

theorem deriveRequest_fst (settings : RateLimitSettings) (hashing : KeyHashing)
    (keys : ApiKeyTable) (request : ClientRequest) :
    (deriveRequest settings hashing keys request).map Prod.fst =
      derive settings hashing keys request := by
  unfold deriveRequest derive
  dsimp only
  split
  next => rfl
  next =>
    split
    next => rfl
    next =>
      cases resolveApiKey hashing keys (.arriving request.apiKey) with
      | error error => rfl
      | ok found =>
          obtain ⟨apiKey, memo⟩ := found
          cases apiKey <;> rfl

theorem deriveRequest_memo {settings : RateLimitSettings} {hashing : KeyHashing}
    {keys : ApiKeyTable} {request : ClientRequest} {derived : Option Derived} {memo : KeyRequest}
    (h : deriveRequest settings hashing keys request = .ok (derived, memo)) :
    memo = .arriving request.apiKey ∨ derived.isSome = true ∧
      ∃ found, authenticateKey hashing keys (request.apiKey.getD "") = .ok found ∧
        memo = ⟨request.apiKey, some found⟩ := by
  unfold deriveRequest at h
  dsimp only at h
  split at h
  next =>
    cases h
    exact .inl rfl
  next =>
    split at h
    next =>
      cases h
      exact .inl rfl
    next =>
      unfold resolveApiKey KeyRequest.arriving at h
      dsimp only at h
      cases hfound : authenticateKey hashing keys (request.apiKey.getD "") with
      | error error =>
          rw [hfound] at h
          cases h
      | ok found =>
          rw [hfound] at h
          cases found <;> cases h <;> exact .inr ⟨rfl, _, rfl, rfl⟩

theorem deriveRequest_header {settings : RateLimitSettings} {hashing : KeyHashing}
    {keys : ApiKeyTable} {request : ClientRequest} {derived : Option Derived} {memo : KeyRequest}
    (h : deriveRequest settings hashing keys request = .ok (derived, memo)) :
    memo.header = request.apiKey := by
  rcases deriveRequest_memo h with rfl | ⟨-, found, -, rfl⟩ <;> rfl

end RateLimitMiddleware

open RateLimitMiddleware

inductive Passage where
  | exempt
  | limited (c : Nat)
  | raised (error : KeyError)

inductive Disposition where
  /-- The request goes on, and its answer gets this `X-RateLimit-Remaining`. -/
  | through (remaining : Option Int)
  /-- The answer 429, with its `Retry-After` and `X-RateLimit-Remaining`. -/
  | refused (retryAfter remaining : Int)
  | error
  deriving DecidableEq

def truncated (x : ℚ) : Int := if x < 0 then ⌈x⌉ else ⌊x⌋

structure Visit where
  request : ClientRequest
  /-- The request as `resolve_api_key` has left it. -/
  memo : KeyRequest
  passage : Passage
  principal : Option (Except KeyError Principal)

def Visit.authenticated (visit : Visit) (outcome : Except KeyError (Principal × KeyRequest)) :
    Visit :=
  { visit with
    memo := (outcome.toOption.map Prod.snd).getD visit.memo
    principal := some (outcome.map Prod.fst) }

structure LimitedApi where
  keys : KeyService
  limiter : Limiter
  visits : List Visit

namespace LimitedApi

inductive Action where
  | keys (action : KeyService.Action)
  | limiter (action : Limiter.Action)
  | visit (process : Nat) (request : ClientRequest)
  | authenticate (v : Nat)

def init (legacy : Table ApiKey.id (unindexed (ρ := ApiKey))) (now : ApiKeyId → Time)
    (time : RedisTime) : LimitedApi :=
  ⟨KeyService.init legacy now, Limiter.init time, []⟩

/-- Calls of `consume` come from requests only. -/
def arrives : Limiter.Action → Bool
  | .arrive _ _ => true
  | _ => false

def disposed : ConsumePc → Option Disposition
  | .answered result =>
      if result.allowed then some (.through (some (max 0 (truncated result.remaining))))
      else some (.refused result.retryAfterSeconds 0)
  | .failed => some (.through none)
  | .invalid => some .error
  | .begun | .loading _ | .evaluating _ => none

def disposition (s : LimitedApi) (visit : Visit) : Option Disposition :=
  match visit.passage with
  | .exempt => some (.through none)
  | .raised _ => some .error
  | .limited c => s.limiter.calls[c]?.bind fun call => disposed call.pc

def arrived (s : LimitedApi) (request : ClientRequest) (memo : KeyRequest)
    (passage : Passage) : LimitedApi :=
  { s with visits := Pool.spawn s.visits ⟨request, memo, passage, none⟩ }

def step (settings : MiddlewareSettings) (hashing : KeyHashing) (s : LimitedApi) :
    Action → Option LimitedApi
  | .keys action => (s.keys.step hashing action).map fun keys => { s with keys := keys }
  | .limiter action =>
      if arrives action then none
      else (s.limiter.step action).map fun limiter => { s with limiter := limiter }
  | .visit process request =>
      let arriving := KeyRequest.arriving request.apiKey
      if !settings.enabled then some (s.arrived request arriving .exempt)
      else
        match deriveRequest settings.toRateLimitSettings hashing s.keys.store.keys request with
        | .error error => some (s.arrived request arriving (.raised error))
        | .ok (none, memo) => some (s.arrived request memo .exempt)
        | .ok (some derived, memo) =>
            (s.limiter.step (.arrive process derived)).map fun limiter =>
              { s with limiter := limiter }.arrived request memo
                (.limited (Pool.next s.limiter.calls))
  | .authenticate v =>
      s.visits[v]?.bind fun visit =>
        match s.disposition visit, visit.principal with
        | some (.through _), none =>
            let outcome := ApiKeyAuthentication.authenticate hashing s.keys.store.keys visit.memo
            some { s with visits := s.visits.set v (visit.authenticated outcome) }
        | _, _ => none

abbrev Reaches (settings : MiddlewareSettings) (hashing : KeyHashing) :
    LimitedApi → LimitedApi → Prop :=
  Transition.Reaches (Transition.graph (step settings hashing)) Transition.anyStep

inductive Step (settings : MiddlewareSettings) (hashing : KeyHashing) (s : LimitedApi) :
    LimitedApi → Prop
  | keys (keys : KeyService) (hkeys : KeyService.Step hashing s.keys keys) :
      Step settings hashing s { s with keys := keys }
  | limiter (action : Limiter.Action) (limiter : Limiter)
      (harrive : arrives action = false)
      (hstep : s.limiter.step action = some limiter) :
      Step settings hashing s { s with limiter := limiter }
  | passed (request : ClientRequest) (passage : Passage) (hpassage : ∀ c, passage ≠ .limited c) :
      Step settings hashing s (s.arrived request (.arriving request.apiKey) passage)
  | limited (process : Nat) (request : ClientRequest) (memo : KeyRequest) (derived : Derived)
      (limiter : Limiter)
      (hderived : deriveRequest settings.toRateLimitSettings hashing s.keys.store.keys request =
        .ok (some derived, memo))
      (hstep : s.limiter.step (.arrive process derived) = some limiter) :
      Step settings hashing s ({ s with limiter := limiter }.arrived request memo
        (.limited (Pool.next s.limiter.calls)))
  | authenticated (v : Nat) (visit : Visit) (remaining : Option Int)
      (hget : s.visits[v]? = some visit)
      (hthrough : s.disposition visit = some (.through remaining))
      (hfirst : visit.principal = none) :
      Step settings hashing s
        { s with visits := s.visits.set v (visit.authenticated
          (ApiKeyAuthentication.authenticate hashing s.keys.store.keys visit.memo)) }

variable {settings : MiddlewareSettings} {hashing : KeyHashing} {s t : LimitedApi} {a : Action}

theorem step_cases (hstep : step settings hashing s a = some t) : Step settings hashing s t := by
  cases a with
  | keys action =>
      obtain ⟨keys, hkeys, rfl⟩ := Option.map_eq_some_iff.mp hstep
      exact .keys keys (KeyService.step_cases hkeys)
  | limiter action =>
      obtain ⟨harrive, hmap⟩ := Option.ite_none_left_eq_some.mp hstep
      obtain ⟨limiter, hlimiter, rfl⟩ := Option.map_eq_some_iff.mp hmap
      exact .limiter action limiter (Bool.not_eq_true _ ▸ harrive) hlimiter
  | visit process request =>
      unfold step at hstep
      dsimp only at hstep
      split at hstep
      next =>
        cases hstep
        exact .passed _ _ fun _ => nofun
      next =>
        split at hstep
        next =>
          cases hstep
          exact .passed _ _ fun _ => nofun
        next memo hderived =>
          cases hstep
          rcases deriveRequest_memo hderived with rfl | ⟨hsome, -⟩
          · exact .passed _ _ fun _ => nofun
          · cases hsome
        next derived memo hderived =>
          obtain ⟨limiter, hlimiter, rfl⟩ := Option.map_eq_some_iff.mp hstep
          exact .limited process request memo derived limiter hderived hlimiter
  | authenticate v =>
      obtain ⟨visit, hget, hauth⟩ := Option.bind_eq_some_iff.mp hstep
      dsimp only at hauth
      split at hauth
      next remaining hthrough hfirst =>
        cases hauth
        exact .authenticated v visit remaining hget hthrough hfirst
      next => cases hauth

/-- Whose bucket a request takes from: as a login, by its client, or as a key that it verified
for. The memo tells which. -/
inductive Charge (settings : RateLimitSettings) (hashing : KeyHashing) (keys : ApiKeyTable)
    (request : ClientRequest) (memo : KeyRequest) : Derived → Prop
  | login (hpath : authPaths.any (·.isPrefixOf request.path) = true) :
      Charge settings hashing keys request memo
        ⟨"auth-ip:" ++ String.ofList (clientIp settings request), settings.authPerMin,
          settings.authBurst⟩
  | client (hmemo : memo.resolved = some none) :
      Charge settings hashing keys request memo
        ⟨"ip:" ++ String.ofList (clientIp settings request), settings.defaultPerMin,
          settings.defaultBurst⟩
  | key (found row : ApiKey) (hmemo : memo.resolved = some (some found)) (hrow : row ∈ keys.rows)
      (hkept : KeyService.Kept found row) (hhanded : Handed hashing row (request.apiKey.getD "")) :
      Charge settings hashing keys request memo
        ⟨keyIdentity row.id, row.rateLimitPerMin, row.burst⟩

section Identities

theorem keyIdentity_inj {a b : ApiKeyId} (h : keyIdentity a = keyIdentity b) : a = b :=
  Text.append_repr_inj h

theorem keyIdentity_ne_client (id : ApiKeyId) (ip : String) : keyIdentity id ≠ "ip:" ++ ip := by
  intro h
  have hhead := congrArg (fun text : String => text.toList.head?) h
  simp [keyIdentity, String.toList_append] at hhead

theorem keyIdentity_ne_login (id : ApiKeyId) (ip : String) :
    keyIdentity id ≠ "auth-ip:" ++ ip := by
  intro h
  have hhead := congrArg (fun text : String => text.toList.head?) h
  simp [keyIdentity, String.toList_append] at hhead

theorem client_ne_login (ip ip' : String) : "ip:" ++ ip ≠ "auth-ip:" ++ ip' := by
  intro h
  have hhead := congrArg (fun text : String => text.toList.head?) h
  simp [String.toList_append] at hhead

end Identities

section Charges

variable {limits : RateLimitSettings} {keys keys' : ApiKeyTable} {request request' : ClientRequest}
  {memo memo' : KeyRequest} {derived derived' : Derived}

theorem Charge.unique (h : Charge limits hashing keys request memo derived)
    (h' : Charge limits hashing keys request' memo' derived')
    (hid : derived.identity = derived'.identity) : derived = derived' := by
  cases h with
  | login _ =>
      cases h' with
      | login _ => exact congrArg (Derived.mk · _ _) hid
      | client _ => exact absurd hid.symm (client_ne_login _ _)
      | key => exact absurd hid.symm (keyIdentity_ne_login _ _)
  | client _ =>
      cases h' with
      | login _ => exact absurd hid (client_ne_login _ _)
      | client _ => exact congrArg (Derived.mk · _ _) hid
      | key => exact absurd hid.symm (keyIdentity_ne_client _ _)
  | key found row _ hrow _ _ =>
      cases h' with
      | login _ => exact absurd hid (keyIdentity_ne_login _ _)
      | client _ => exact absurd hid (keyIdentity_ne_client _ _)
      | key found' row' _ hrow' _ _ => rw [keys.eq_of_key hrow hrow' (keyIdentity_inj hid)]

theorem Charge.kept (h : Charge limits hashing keys request memo derived)
    (hkept : ∀ row ∈ keys.rows, ∃ new ∈ keys'.rows, KeyService.Kept row new) :
    Charge limits hashing keys' request memo derived := by
  cases h with
  | login hpath => exact .login hpath
  | client hmemo => exact .client hmemo
  | key found row hmemo hrow hsame hhanded =>
      obtain ⟨new, hnew, hrest⟩ := hkept row hrow
      rw [← hrest.id, ← hrest.ratePerMin, ← hrest.burst]
      exact .key found new hmemo hnew (hsame.trans hrest) (hrest.handed hhanded)

/-- Authentication after the middleware leaves the memo that tells. -/
theorem Charge.memoised (h : Charge limits hashing keys request memo derived)
    (hmemo : ∀ resolved, memo.resolved = some resolved → memo'.resolved = some resolved) :
    Charge limits hashing keys request memo' derived := by
  cases h with
  | login hpath => exact .login hpath
  | client hnone => exact .client (hmemo _ hnone)
  | key found row hfound hrow hsame hhanded =>
      exact .key found row (hmemo _ hfound) hrow hsame hhanded

theorem deriveRequest_charge
    (h : deriveRequest limits hashing keys request = .ok (some derived, memo)) :
    Charge limits hashing keys request memo derived ∧
      ∀ id, derived.identity = keyIdentity id → ∃ row ∈ keys.rows, row.id = id ∧
        row.active = true := by
  unfold deriveRequest at h
  dsimp only at h
  split at h
  next hpath =>
    cases h
    exact ⟨.login hpath, fun id hid => absurd hid.symm (keyIdentity_ne_login _ _)⟩
  next =>
    split at h
    next => cases h
    next =>
      cases hfound : authenticateKey hashing keys (request.apiKey.getD "") with
      | error error =>
          simp only [resolveApiKey, KeyRequest.arriving, hfound] at h
          cases h
      | ok found =>
          simp only [resolveApiKey, KeyRequest.arriving, hfound] at h
          cases found with
          | none =>
              cases h
              exact ⟨.client rfl, fun id hid => absurd hid.symm (keyIdentity_ne_client _ _)⟩
          | some row =>
              cases h
              obtain ⟨hrow, hactive, hhanded⟩ := authenticateKey_some hfound
              exact ⟨.key row row rfl hrow (.refl row) hhanded,
                fun id hid => ⟨row, hrow, keyIdentity_inj hid, hactive⟩⟩

end Charges

section Principals

variable {keys : ApiKeyTable} {request memo : KeyRequest} {principal : Principal}

/-- Who a request is once its key has been looked up. -/
def principalOf (header : Option String) (resolved : Option ApiKey) : Principal :=
  if header.getD "" = "" then .anonymous
  else
    match resolved with
    | none => .failed "invalid api key"
    | some key => .apiKey key

/-- Authentication goes by the memo if there is one, whatever has become of the keys. -/
theorem authenticate_resolved {resolved : Option ApiKey}
    (h : request.resolved = some resolved) :
    ApiKeyAuthentication.authenticate hashing keys request =
      .ok (principalOf request.header resolved, request) := by
  unfold ApiKeyAuthentication.authenticate principalOf
  split
  next => rfl
  next =>
    rw [resolveApiKey, h]
    cases resolved <;> rfl

theorem authenticate_ok
    (h : ApiKeyAuthentication.authenticate hashing keys request = .ok (principal, memo)) :
    memo.header = request.header ∧
      (∀ resolved, memo.resolved = some resolved →
        principal = principalOf request.header resolved) ∧
      ∀ key, principal = .apiKey key → memo.resolved = some (some key) := by
  cases hmemo : request.resolved with
  | some resolved =>
      rw [authenticate_resolved hmemo] at h
      cases h
      refine ⟨rfl, fun other hother => by rw [Option.some.inj (hmemo.symm.trans hother)],
        fun key hkey => ?_⟩
      unfold principalOf at hkey
      split at hkey
      next => cases hkey
      next =>
        cases resolved with
        | none => cases hkey
        | some own =>
            cases hkey
            exact hmemo
  | none =>
      unfold ApiKeyAuthentication.authenticate at h
      unfold principalOf
      split at h
      next hempty =>
        cases h
        exact ⟨rfl, fun _ _ => (if_pos hempty).symm, nofun⟩
      next hheader =>
        rw [resolveApiKey, hmemo] at h
        cases hfound : authenticateKey hashing keys (request.header.getD "") with
        | error error =>
            simp only [hfound] at h
            cases h
        | ok found =>
            simp only [hfound] at h
            cases found with
            | none =>
                cases h
                exact ⟨rfl, fun _ hresolved => by cases hresolved; exact (if_neg hheader).symm,
                  nofun⟩
            | some key =>
                cases h
                exact ⟨rfl, fun _ hresolved => by cases hresolved; exact (if_neg hheader).symm,
                  fun _ hkey => by cases hkey; rfl⟩

/-- A key that authentication finds was in the memo or is found now. -/
theorem authenticate_found
    (h : ApiKeyAuthentication.authenticate hashing keys request = .ok (principal, memo))
    {key : ApiKey} (hkey : memo.resolved = some (some key)) :
    request.resolved = some (some key) ∨
      authenticateKey hashing keys (request.header.getD "") = .ok (some key) := by
  cases hmemo : request.resolved with
  | some resolved =>
      rw [authenticate_resolved hmemo] at h
      cases h
      exact .inl (hmemo ▸ hkey)
  | none =>
      right
      unfold ApiKeyAuthentication.authenticate at h
      split at h
      next =>
        cases h
        cases hmemo.symm.trans hkey
      next =>
        rw [resolveApiKey, hmemo] at h
        cases hfound : authenticateKey hashing keys (request.header.getD "") with
        | error error =>
            simp only [hfound] at h
            cases h
        | ok found =>
            simp only [hfound] at h
            cases found with
            | none =>
                cases h
                cases hkey
            | some own =>
                cases h
                cases hkey
                rfl

end Principals

structure Accompanied (limits : RateLimitSettings) (hashing : KeyHashing) (s : LimitedApi)
    (visit : Visit) : Prop where
  header : visit.memo.header = visit.request.apiKey
  charge : ∀ c, visit.passage = .limited c → ∃ call, s.limiter.calls[c]? = some call ∧
    Charge limits hashing s.keys.store.keys visit.request visit.memo call.derived
  principal : ∀ outcome, visit.principal = some outcome → ∀ resolved,
    visit.memo.resolved = some resolved → outcome = .ok (principalOf visit.request.apiKey resolved)
  served : ∀ key, visit.principal = some (.ok (.apiKey key)) →
    visit.memo.resolved = some (some key)

structure Tracked (settings : MiddlewareSettings) (hashing : KeyHashing) (s : LimitedApi) :
    Prop where
  managed : KeyService.Managed hashing s.keys
  calls : ∀ (c : Nat) (call : Consumption), s.limiter.calls[c]? = some call →
    ∃ (v : Nat) (visit : Visit), s.visits[v]? = some visit ∧ visit.passage = .limited c
  visits : ∀ (v : Nat) (visit : Visit), s.visits[v]? = some visit →
    Accompanied settings.toRateLimitSettings hashing s visit

theorem Accompanied.kept {limits : RateLimitSettings} {visit : Visit}
    (h : Accompanied limits hashing s visit)
    (hcalls : ∀ (c : Nat) (call : Consumption), s.limiter.calls[c]? = some call →
      ∃ new, t.limiter.calls[c]? = some new ∧ new.derived = call.derived)
    (hkeys : ∀ row ∈ s.keys.store.keys.rows,
      ∃ new ∈ t.keys.store.keys.rows, KeyService.Kept row new) :
    Accompanied limits hashing t visit := by
  refine ⟨h.header, fun c hpassage => ?_, h.principal, h.served⟩
  obtain ⟨call, hcall, hcharge⟩ := h.charge c hpassage
  obtain ⟨new, hnew, hsame⟩ := hcalls c call hcall
  exact ⟨new, hnew, hsame ▸ hcharge.kept hkeys⟩

theorem Accompanied.authenticated {limits : RateLimitSettings} {visit : Visit}
    (h : Accompanied limits hashing s visit) (keys : ApiKeyTable) :
    Accompanied limits hashing s
      (visit.authenticated (ApiKeyAuthentication.authenticate hashing keys visit.memo)) := by
  cases hresult : ApiKeyAuthentication.authenticate hashing keys visit.memo with
  | error error =>
      refine ⟨h.header, h.charge, fun outcome houtcome resolved hresolved => ?_, nofun⟩
      have hmemo : visit.memo.resolved = some resolved := hresolved
      rw [authenticate_resolved hmemo] at hresult
      cases hresult
  | ok answer =>
      obtain ⟨principal, memo⟩ := answer
      obtain ⟨hheader, hprincipal, hserved⟩ := authenticate_ok hresult
      refine ⟨hheader.trans h.header, fun c hpassage => ?_,
        fun outcome houtcome resolved hmemo => ?_, fun key hkey => ?_⟩
      · obtain ⟨call, hcall, hcharge⟩ := h.charge c hpassage
        refine ⟨call, hcall, hcharge.memoised fun resolved hresolved => ?_⟩
        rw [authenticate_resolved hresolved] at hresult
        cases hresult
        exact hresolved
      · cases houtcome
        have hsame := hprincipal resolved hmemo
        rw [h.header] at hsame
        exact congrArg Except.ok hsame
      · cases hkey
        exact hserved key rfl

theorem Step.kept_row (h : Step settings hashing s t) :
    ∀ row ∈ s.keys.store.keys.rows,
      ∃ new ∈ t.keys.store.keys.rows, KeyService.Kept row new := by
  intro row hrow
  cases h with
  | keys keys hkeys => exact hkeys.kept hrow
  | limiter | passed | limited | authenticated => exact ⟨row, hrow, .refl row⟩

theorem Step.kept_call (h : Step settings hashing s t) :
    ∀ (c : Nat) (call : Consumption), s.limiter.calls[c]? = some call →
      ∃ new, t.limiter.calls[c]? = some new ∧ new.derived = call.derived := by
  intro c call hcall
  cases h with
  | limiter action limiter _ hstep => exact Limiter.kept_call hstep hcall
  | limited process request memo derived limiter _ hstep => exact Limiter.kept_call hstep hcall
  | keys | passed | authenticated => exact ⟨call, hcall, rfl⟩

theorem Step.kept_visit (h : Step settings hashing s t) :
    ∀ (v : Nat) (visit : Visit), s.visits[v]? = some visit →
      ∃ new, t.visits[v]? = some new ∧ new.passage = visit.passage := by
  intro v visit hvisit
  cases h with
  | passed request passage _ => exact ⟨visit, Pool.get_spawn_of_some hvisit _, rfl⟩
  | limited process request memo derived limiter _ _ =>
      exact ⟨visit, Pool.get_spawn_of_some hvisit _, rfl⟩
  | authenticated w other remaining hget _ _ =>
      dsimp only
      rw [Pool.get_set hget]
      split
      next heq =>
        subst heq
        cases hvisit.symm.trans hget
        exact ⟨_, rfl, rfl⟩
      next => exact ⟨visit, hvisit, rfl⟩
  | keys | limiter => exact ⟨visit, hvisit, rfl⟩

theorem Step.old_call (h : Step settings hashing s t) {c : Nat} {call : Consumption}
    (hcall : t.limiter.calls[c]? = some call) :
    (∃ old, s.limiter.calls[c]? = some old ∧ call.derived = old.derived) ∨
      ∃ (v : Nat) (visit : Visit), t.visits[v]? = some visit ∧ visit.passage = .limited c ∧
        deriveRequest settings.toRateLimitSettings hashing s.keys.store.keys visit.request =
          .ok (some call.derived, visit.memo) := by
  cases h with
  | limiter action limiter harrive hstep =>
      rcases Limiter.old_call hstep hcall with hold | ⟨process, rfl⟩
      · exact .inl hold
      · cases harrive
  | limited process request memo derived limiter hderived hstep =>
      obtain ⟨-, ⟨⟩⟩ := Option.ite_none_right_eq_some.mp hstep
      change (Pool.spawn s.limiter.calls _)[c]? = some call at hcall
      rw [Pool.get_spawn] at hcall
      split at hcall
      next hnext =>
        cases hcall
        refine .inr ⟨Pool.next s.visits,
          ⟨request, memo, .limited (Pool.next s.limiter.calls), none⟩,
          ?_, congrArg Passage.limited hnext.symm, hderived⟩
        exact (Pool.get_spawn s.visits _ _).trans (if_pos rfl)
      next => exact .inl ⟨call, hcall, rfl⟩
  | keys | passed | authenticated => exact .inl ⟨call, hcall, rfl⟩

theorem Tracked.step (h : Tracked settings hashing s) (hstep : Step settings hashing s t) :
    Tracked settings hashing t := by
  have hold : ∀ (v : Nat) (visit : Visit), s.visits[v]? = some visit →
      Accompanied settings.toRateLimitSettings hashing t visit := fun v visit hvisit =>
    (h.visits v visit hvisit).kept hstep.kept_call hstep.kept_row
  constructor
  case managed =>
    cases hstep with
    | keys keys hkeys => exact h.managed.step hkeys
    | limiter | passed | limited | authenticated => exact h.managed
  case calls =>
    intro c call hcall
    rcases hstep.old_call hcall with ⟨old, hget, -⟩ | ⟨v, visit, hvisit, hpassage, -⟩
    · obtain ⟨v, visit, hvisit, hpassage⟩ := h.calls c old hget
      obtain ⟨new, hnew, hsame⟩ := hstep.kept_visit v visit hvisit
      exact ⟨v, new, hnew, hsame.trans hpassage⟩
    · exact ⟨v, visit, hvisit, hpassage⟩
  case visits =>
    cases hstep with
    | keys | limiter => exact hold
    | passed request passage hpassage =>
        refine Pool.forall_spawn ⟨rfl, ?_, nofun, nofun⟩ hold
        exact fun c heq => absurd heq (hpassage c)
    | limited process request memo derived limiter hderived hstep =>
        refine Pool.forall_spawn
          ⟨deriveRequest_header hderived, fun c heq => ?_, nofun, nofun⟩ hold
        cases heq
        obtain ⟨-, ⟨⟩⟩ := Option.ite_none_right_eq_some.mp hstep
        refine ⟨_, (Pool.get_spawn s.limiter.calls _ _).trans (if_pos rfl), ?_⟩
        exact (deriveRequest_charge hderived).1
    | authenticated v visit remaining hget hthrough hfirst =>
        exact Pool.forall_set hget ((hold v visit hget).authenticated _)
          fun w other hother _ => hold w other hother

theorem tracked_of_reaches {legacy : Table ApiKey.id (unindexed (ρ := ApiKey))}
    {now : ApiKeyId → Time} {time : RedisTime}
    (h : Reaches settings hashing (init legacy now time) s) : Tracked settings hashing s := by
  refine h.invariant (Tracked settings hashing) ?_ fun _ _ _ hinv _ hstep =>
    hinv.step (step_cases hstep)
  constructor
  case managed => exact KeyService.managed_init legacy now
  case calls => exact fun _ _ hcall => by simp [init, Limiter.init] at hcall
  case visits => exact fun _ _ hvisit => by simp [init] at hvisit

/-- The limiter behind the API runs as one. -/
theorem limiter_reaches {legacy : Table ApiKey.id (unindexed (ρ := ApiKey))}
    {now : ApiKeyId → Time} {time : RedisTime}
    (h : Reaches settings hashing (init legacy now time) s) :
    Limiter.Reaches Transition.anyStep (Limiter.init time) s.limiter := by
  refine h.invariant (fun s => Limiter.Reaches Transition.anyStep (Limiter.init time) s.limiter)
    .refl fun s a t hinv _ hstep => ?_
  cases step_cases hstep with
  | limiter action limiter _ hlimiter => exact hinv.tail ⟨action, trivial, hlimiter⟩
  | limited process request memo derived limiter _ hlimiter =>
      exact hinv.tail ⟨_, trivial, hlimiter⟩
  | keys | passed | authenticated => exact hinv

end LimitedApi

end NotifyRelay
