import NotifyRelay.LimitedApi
import NotifyRelay.LimiterCalls

/-! What the middleware and the key lookup guarantee together: how much each bucket lets in, who
takes from it, and whom a request is served as. -/
namespace NotifyRelay.LimitedApi

open TokenBucket RateLimitMiddleware

variable {settings : MiddlewareSettings} {hashing : KeyHashing} {s t : LimitedApi}
  {legacy : Table ApiKey.id (unindexed (ρ := ApiKey))} {now : ApiKeyId → Time} {time : RedisTime}

/-- An identity is used with one pair of limits, as long as the service lives. -/
theorem Tracked.uniform (h : Tracked settings hashing s) {c : Nat} {call : Consumption}
    (hcall : s.limiter.calls[c]? = some call) {q : Quota} (hq : call.derived = q.derived) :
    s.limiter.Uniform q := by
  have hcharge : ∀ (c : Nat) (call : Consumption), s.limiter.calls[c]? = some call →
      ∃ request memo, Charge settings.toRateLimitSettings hashing s.keys.store.keys request memo
        call.derived := by
    intro c call hcall
    obtain ⟨v, visit, hvisit, hpassage⟩ := h.calls c call hcall
    obtain ⟨same, hsame, hcharge⟩ := (h.visits v visit hvisit).charge c hpassage
    cases hcall.symm.trans hsame
    exact ⟨_, _, hcharge⟩
  intro d other hother hid
  obtain ⟨_, _, hfirst⟩ := hcharge c call hcall
  obtain ⟨_, _, hsecond⟩ := hcharge d other hother
  rw [hq] at hfirst
  exact hsecond.unique hfirst hid

/-- A request with the sample key. -/
def keyedRequest : ClientRequest :=
  ⟨"/api/v1/messages/".toList, none, some "192.0.2.1".toList,
    some "nr_0123456789ab_a_b-C0123456789abcdefghijklmnopq"⟩

/-- The key is revoked between the middleware and the view. -/
def session : List Action :=
  [.keys (.create ⟨"billing", 100, 200⟩ 2 5 sampleToken sampleSecret "whsec"), .limiter .boot,
    .visit 0 keyedRequest, .limiter (.call 0 .start), .limiter (.call 0 (.load .answers)),
    .limiter (.call 0 (.eval .answers)), .keys (.revoke 2), .keys (.read 0), .keys (.save 0 9),
    .authenticate 0]

def sampleStart (time : RedisTime) : LimitedApi := init sampleLegacy (fun _ => 3) time

theorem logged_of_reaches (h : Reaches settings hashing (init legacy now time) s) :
    s.limiter.Logged :=
  Limiter.logged_of_reaches (limiter_reaches h)

theorem through_some {pc : ConsumePc} {remaining : Int}
    (h : disposed pc = some (.through (some remaining))) :
    ∃ result, pc = .answered result ∧ result.allowed = true := by
  cases pc with
  | answered result =>
      cases hallowed : result.allowed with
      | true => exact ⟨result, rfl, hallowed⟩
      | false => simp [disposed, hallowed] at h
  | _ => cases h

/-- Whatever requests come, keys are created and revoked and Redis does: each bucket that is in
use admits in any window no more than its burst, once more for each loss of Redis's data, and
what its rate allows; and a request that is let through with a remainder was admitted so. -/
theorem api_limit_enforced (h : Reaches settings hashing (init legacy now time) s) :
    (∀ (c : Nat) (call : Consumption), s.limiter.calls[c]? = some call →
      ∀ q : Quota, call.derived = q.derived → ∀ u d : ℚ, 0 ≤ d →
        (s.limiter.admittedIn q u d : ℚ) ≤
          q.burst * (1 + s.limiter.wipesIn u d) + q.ratePerMin * d / 60000) ∧
    ∀ visit ∈ s.visits, ∀ remaining, s.disposition visit = some (.through (some remaining)) →
      ∃ e ∈ s.limiter.log, visit.passage = .limited e.call ∧ e.result.allowed = true ∧
        Charge settings.toRateLimitSettings hashing s.keys.store.keys visit.request visit.memo
          e.derived := by
  have htracked := tracked_of_reaches h
  refine ⟨fun c call hcall q hq u d hd => ?_, fun visit hmem remaining hthrough => ?_⟩
  · obtain ⟨hbudgeted, hrun⟩ :=
      Limiter.run_reservoir (limiter_reaches h) (htracked.uniform hcall hq)
    exact hbudgeted.admittedIn_le hrun u hd
  · obtain ⟨v, hvisit⟩ := List.getElem?_of_mem hmem
    unfold disposition at hthrough
    cases hpassage : visit.passage with
    | exempt =>
        rw [hpassage] at hthrough
        cases hthrough
    | raised error =>
        rw [hpassage] at hthrough
        cases hthrough
    | limited c =>
        rw [hpassage] at hthrough
        obtain ⟨call, hcall, hdisposed⟩ := Option.bind_eq_some_iff.mp hthrough
        obtain ⟨result, hpc, hallowed⟩ := through_some hdisposed
        obtain ⟨e, he, rfl, hderived, rfl⟩ := (logged_of_reaches h).answers c call hcall result hpc
        obtain ⟨same, hsame, hcharge⟩ := (htracked.visits v visit hvisit).charge _ hpassage
        cases hcall.symm.trans hsame
        exact ⟨e, he, rfl, hallowed, hderived ▸ hcharge⟩

theorem api_limit_enforced_session : ∃ (s : LimitedApi) (q : Quota),
    s.limiter.admittedIn q 0 1000 = 1 ∧
      (s.limiter.admittedIn q 0 1000 : ℚ) ≤
        200 * (1 + s.limiter.wipesIn 0 1000) + 100 * 1000 / 60000 := by
  let q : Quota := ⟨"key:2", 100, 200, by decide, by decide⟩
  obtain ⟨s, hs, hcall, hadmitted⟩ := Transition.exists_of_runAll (step {} sampleHashing)
    Transition.anyStep (sampleStart ⟨0, 0⟩) session
    (fun s => (s.limiter.calls[0]?.any fun call => call.derived = q.derived) ∧
      s.limiter.admittedIn q 0 1000 = 1) (by decide +kernel)
  obtain ⟨call, hcall, hq⟩ := (Option.any_eq_true _ _).mp hcall
  have hbound := (api_limit_enforced hs).1 0 call hcall q (of_decide_eq_true hq) 0 1000
    (by norm_num)
  exact ⟨s, q, hadmitted, hbound⟩

/-- From a key's bucket only those take who present the key that was handed out for it. -/
theorem bucket_owned (hdistinct : SecretsDistinct hashing)
    (h : Reaches settings hashing (init legacy now time) s) {row : ApiKey}
    (hrow : row ∈ s.keys.store.keys.rows) {key : String}
    (hcreated : .created row.id key ∈ s.keys.store.log) {e : Execution} (he : e ∈ s.limiter.log)
    (hid : e.derived.identity = keyIdentity row.id) :
    ∃ visit ∈ s.visits, visit.passage = .limited e.call ∧ visit.request.apiKey = some key := by
  have htracked := tracked_of_reaches h
  obtain ⟨call, hcall, hderived⟩ := (logged_of_reaches h).calls e he
  obtain ⟨v, visit, hvisit, hpassage⟩ := htracked.calls e.call call hcall
  obtain ⟨same, hsame, hcharge⟩ := (htracked.visits v visit hvisit).charge e.call hpassage
  cases hcall.symm.trans hsame
  refine ⟨visit, List.mem_of_getElem? hvisit, hpassage, ?_⟩
  rw [← hderived] at hid
  generalize call.derived = derived at hcharge hid
  cases hcharge with
  | login hpath => exact absurd hid.symm (keyIdentity_ne_login _ _)
  | client hmemo => exact absurd hid.symm (keyIdentity_ne_client _ _)
  | key found own hmemo hown hkept hhanded =>
      rw [s.keys.store.keys.eq_of_key hown hrow (keyIdentity_inj hid)] at hhanded
      have hkey := hhanded.unique hdistinct (htracked.managed.issued.handed hrow hcreated)
      cases hheader : visit.request.apiKey with
      | some header =>
          rw [hheader] at hkey
          exact congrArg some hkey
      | none =>
          rw [hheader] at hhanded
          obtain ⟨_, _, hsplit, -⟩ := hhanded
          cases hsplit

theorem bucket_owned_session : ∃ s : LimitedApi, ∃ visit ∈ s.visits,
    visit.request.apiKey = some "nr_0123456789ab_a_b-C0123456789abcdefghijklmnopq" := by
  obtain ⟨s, hs, hrow, hcreated, hlog⟩ := Transition.exists_of_runAll (step {} sampleHashing)
    Transition.anyStep (sampleStart ⟨0, 0⟩) session
    (fun s => (s.keys.store.keys.rows.any fun row => row.id == 2) ∧
      .created 2 "nr_0123456789ab_a_b-C0123456789abcdefghijklmnopq" ∈ s.keys.store.log ∧
      s.limiter.log.any fun e => e.derived.identity == keyIdentity 2) (by decide +kernel)
  obtain ⟨row, hmem, hid⟩ := List.any_eq_true.mp hrow
  obtain ⟨e, he, hidentity⟩ := List.any_eq_true.mp hlog
  rw [beq_iff_eq] at hid hidentity
  have hdistinct : SecretsDistinct sampleHashing := fun _ _ h =>
    String.toByteArray_inj.mp (sampleDigest_injective h)
  obtain ⟨visit, hvisit, -, hkey⟩ := bucket_owned hdistinct hs hmem (hid ▸ hcreated) he
    (hid ▸ hidentity)
  exact ⟨s, visit, hvisit, hkey⟩

/-- A request under `/api/v1/` is served as the key whose bucket it has taken from, and as none
if that was its client's, whatever has become of the keys in between. -/
theorem principal_charged (h : Reaches settings hashing (init legacy now time) s) {visit : Visit}
    (hvisit : visit ∈ s.visits) {c : Nat} (hpassage : visit.passage = .limited c)
    (hpath : ¬authPaths.any (·.isPrefixOf visit.request.path) = true)
    {outcome : Except KeyError Principal} (houtcome : visit.principal = some outcome) :
    ∃ call, s.limiter.calls[c]? = some call ∧
      ((∃ key, outcome = .ok (.apiKey key) ∧ call.derived.identity = keyIdentity key.id) ∨
        ((outcome = .ok .anonymous ∨ outcome = .ok (.failed "invalid api key")) ∧
          call.derived.identity = "ip:" ++ String.ofList
            (clientIp settings.toRateLimitSettings visit.request))) := by
  obtain ⟨v, hget⟩ := List.getElem?_of_mem hvisit
  have haccompanied := (tracked_of_reaches h).visits v visit hget
  obtain ⟨call, hcall, hcharge⟩ := haccompanied.charge c hpassage
  refine ⟨call, hcall, ?_⟩
  have hprincipal := haccompanied.principal outcome houtcome
  generalize call.derived = derived at hcharge
  cases hcharge with
  | login hlogin => exact absurd hlogin hpath
  | client hmemo =>
      have hsame := hprincipal none hmemo
      unfold principalOf at hsame
      right
      split at hsame
      next => exact ⟨.inl hsame, rfl⟩
      next => exact ⟨.inr hsame, rfl⟩
  | key found row hmemo hrow hkept hhanded =>
      have hsame := hprincipal (some found) hmemo
      have hheader : visit.request.apiKey.getD "" ≠ "" := by
        intro hempty
        rw [hempty] at hhanded
        obtain ⟨_, _, hsplit, -⟩ := hhanded
        cases hsplit
      rw [principalOf, if_neg hheader] at hsame
      exact .inl ⟨found, hsame, congrArg keyIdentity hkept.id⟩

/-- The visit has taken from a bucket and been authenticated. -/
def served (visit : Visit) : Bool :=
  match visit.passage with
  | .limited 0 => visit.principal.isSome && !authPaths.any (·.isPrefixOf visit.request.path)
  | _ => false

theorem principal_charged_session : ∃ (s : LimitedApi) (visit : Visit) (call : Consumption),
    visit ∈ s.visits ∧ s.limiter.calls[0]? = some call ∧
      ((∃ key, visit.principal = some (.ok (.apiKey key)) ∧
          call.derived.identity = keyIdentity key.id) ∨
        call.derived.identity = "ip:" ++ String.ofList (clientIp {} visit.request)) := by
  obtain ⟨s, hs, hserved⟩ := Transition.exists_of_runAll (step {} sampleHashing)
    Transition.anyStep (sampleStart ⟨0, 0⟩) session (fun s => s.visits.any served)
    (by decide +kernel)
  obtain ⟨visit, hvisit, hserved⟩ := List.any_eq_true.mp hserved
  unfold served at hserved
  split at hserved
  next hpassage =>
    rw [Bool.and_eq_true, Bool.not_eq_true'] at hserved
    obtain ⟨outcome, houtcome⟩ := Option.isSome_iff_exists.mp hserved.1
    obtain ⟨call, hcall, hcharged⟩ := principal_charged hs hvisit hpassage
      (hserved.2 ▸ Bool.false_ne_true) houtcome
    refine ⟨s, visit, call, hvisit, hcall, hcharged.imp ?_ And.right⟩
    rintro ⟨key, rfl, hid⟩
    exact ⟨key, houtcome, hid⟩
  next => cases hserved

/-- The key is on record and not active. -/
def Retired (s : LimitedApi) (pk : ApiKeyId) : Prop :=
  ∃ row ∈ s.keys.store.keys.rows, row.id = pk ∧ row.active = false

theorem Retired.step {pk : ApiKeyId} (h : Retired s pk) (hstep : Step settings hashing s t) :
    Retired t pk := by
  obtain ⟨row, hrow, hid, hinactive⟩ := h
  obtain ⟨new, hnew, hkept⟩ := hstep.kept_row row hrow
  exact ⟨new, hnew, hkept.id.trans hid, hkept.inactive hinactive⟩

theorem Retired.not_authenticated {pk : ApiKeyId} (h : Retired s pk) {header : String}
    {row : ApiKey} (hrow : authenticateKey hashing s.keys.store.keys header = .ok (some row)) :
    row.id ≠ pk := by
  intro hid
  obtain ⟨hmem, hactive, -⟩ := authenticateKey_some hrow
  obtain ⟨other, hother, hpk, hinactive⟩ := h
  rw [s.keys.store.keys.eq_of_key hother hmem (hpk.trans hid.symm), hactive] at hinactive
  cases hinactive

/-- The lookup has not found the key. -/
def Without (visit : Visit) (pk : ApiKeyId) : Prop :=
  ∀ key, visit.memo.resolved = some (some key) → key.id ≠ pk

/-- What a revocation that was answered in `s` means for the later state `t`. -/
structure LockedOut (s t : LimitedApi) (pk : ApiKeyId) : Prop where
  retired : Retired t pk
  calls : ∀ (c : Nat) (call : Consumption), t.limiter.calls[c]? = some call →
    call.derived.identity = keyIdentity pk → c < s.limiter.calls.length
  visits : ∀ (v : Nat) (visit : Visit), t.visits[v]? = some visit → s.visits.length ≤ v →
    Without visit pk

theorem LockedOut.visits_step {u : LimitedApi} {pk : ApiKeyId} (h : LockedOut s t pk)
    (hstep : Step settings hashing t u) :
    ∀ (v : Nat) (visit : Visit), u.visits[v]? = some visit → s.visits.length ≤ v →
      Without visit pk := by
  cases hstep with
  | keys | limiter => exact h.visits
  | passed request passage hpassage => exact Pool.forall_get_spawn (fun _ _ => nofun) h.visits
  | limited process request memo derived limiter hderived hstep =>
      refine Pool.forall_get_spawn (fun _ key hkey => ?_) h.visits
      rcases deriveRequest_memo hderived with rfl | ⟨-, found, hfound, rfl⟩
      · cases hkey
      · cases hkey
        exact h.retired.not_authenticated hfound
  | authenticated v visit remaining hget hthrough hfirst =>
      refine Pool.forall_get_set hget (fun hlater key hkey => ?_) fun w other hother _ =>
        h.visits w other hother
      cases hresult : ApiKeyAuthentication.authenticate hashing t.keys.store.keys visit.memo with
      | error error =>
          rw [hresult] at hkey
          exact h.visits v visit hget hlater key hkey
      | ok answer =>
          obtain ⟨principal, memo⟩ := answer
          rw [hresult] at hkey
          rcases authenticate_found hresult hkey with hmemo | hfound
          · exact h.visits v visit hget hlater key hmemo
          · exact h.retired.not_authenticated hfound

theorem LockedOut.step {u : LimitedApi} {pk : ApiKeyId} (h : LockedOut s t pk)
    (hstep : Step settings hashing t u) : LockedOut s u pk := by
  refine ⟨h.retired.step hstep, fun c call hcall hid => ?_, h.visits_step hstep⟩
  rcases hstep.old_call hcall with ⟨old, hold, hsame⟩ | ⟨v, visit, -, -, hderived⟩
  · exact h.calls c old hold (hsame ▸ hid)
  · obtain ⟨row, hrow, hpk, hactive⟩ := (deriveRequest_charge hderived).2 _ hid
    obtain ⟨other, hother, hpk', hinactive⟩ := h.retired
    rw [t.keys.store.keys.eq_of_key hother hrow (hpk'.trans hpk.symm), hactive] at hinactive
    cases hinactive

/-- Once a revocation of a key has been answered as done or as a conflict, no request that comes
later takes from the key's bucket or is served as the key. -/
theorem revoked_locked_out (h : Reaches settings hashing (init legacy now time) s) {r : Nat}
    {revocation : Revocation} (hget : s.keys.revocations[r]? = some revocation)
    (hsettled : revocation.pc.settled = true) (hafter : Reaches settings hashing s t) :
    (∀ (c : Nat) (call : Consumption), t.limiter.calls[c]? = some call →
      call.derived.identity = keyIdentity revocation.pk → c < s.limiter.calls.length) ∧
    ∀ (v : Nat) (visit : Visit), t.visits[v]? = some visit → s.visits.length ≤ v →
      ∀ key, visit.principal = some (.ok (.apiKey key)) → key.id ≠ revocation.pk := by
  have hlocked : LockedOut s t revocation.pk := by
    refine hafter.invariant (LockedOut s · revocation.pk) ⟨?_, ?_, ?_⟩ fun _ _ _ hinv _ hstep =>
      hinv.step (step_cases hstep)
    · exact ((tracked_of_reaches h).managed.revocations r revocation hget).2 hsettled
    · exact fun c call hcall _ => (List.getElem?_eq_some_iff.mp hcall).1
    · exact fun v visit hvisit hle =>
        absurd (List.getElem?_eq_some_iff.mp hvisit).1 (Nat.not_lt.mpr hle)
  refine ⟨hlocked.calls, fun v visit hvisit hlater key hkey => ?_⟩
  have htracked := tracked_of_reaches (h.trans hafter)
  exact hlocked.visits v visit hvisit hlater key ((htracked.visits v visit hvisit).served key hkey)

/-- The same request once more. -/
theorem revoked_locked_out_session : ∃ t : LimitedApi, t.limiter.calls.length = 2 ∧
    ∀ call, t.limiter.calls[1]? = some call → call.derived.identity ≠ keyIdentity 2 := by
  obtain ⟨s, t, hs, ht, hrevoked, hbefore, hafter⟩ := Transition.exists_pair_of_runAll
    (step {} sampleHashing) Transition.anyStep (sampleStart ⟨0, 0⟩) session [.visit 0 keyedRequest]
    (fun s t => (s.keys.revocations[0]?.any fun revocation =>
        revocation.pk == 2 && revocation.pc.settled) ∧
      s.limiter.calls.length = 1 ∧ t.limiter.calls.length = 2) (by decide +kernel)
  obtain ⟨revocation, hget, hrevoked⟩ := (Option.any_eq_true _ _).mp hrevoked
  rw [Bool.and_eq_true, beq_iff_eq] at hrevoked
  refine ⟨t, hafter, fun call hcall hid => ?_⟩
  have hlt := (revoked_locked_out hs hget hrevoked.2 ht).1 1 call hcall (hrevoked.1.symm ▸ hid)
  rw [hbefore] at hlt
  exact absurd hlt (Nat.lt_irrefl 1)

end NotifyRelay.LimitedApi
