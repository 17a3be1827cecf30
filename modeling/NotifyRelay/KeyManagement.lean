import NotifyRelay.Authentication
import NotifyRelay.Library.Pool

/-! Requests that create and revoke keys, running beside each other. A revocation reads the row in
one statement and saves it in another, so two of them may both find the key in use. -/
namespace NotifyRelay

open KeySecurity

/-- Where `ApiKeyViewSet.revoke` is. -/
inductive RevokePc where
  | begun
  /-- The row is there and not revoked. -/
  | found
  | revoked
  /-- The answer 409. -/
  | conflict
  /-- The answer 404. -/
  | missing
  deriving DecidableEq, Repr

/-- The answers that tell that the key is revoked. -/
def RevokePc.settled : RevokePc → Bool
  | .revoked | .conflict => true
  | _ => false

structure Revocation where
  pk : ApiKeyId
  pc : RevokePc

structure KeyService where
  store : KeyStore
  revocations : List Revocation

namespace KeyService

inductive Action where
  | create (data : ApiKeyData) (id : ApiKeyId) (now : Time) (keyToken : KeyToken)
      (secretToken : SecretToken) (webhookSecret : String)
  | revoke (pk : ApiKeyId)
  | read (r : Nat)
  | save (r : Nat) (now : Time)

/-- The table as the migration leaves it. -/
def init (legacy : Table ApiKey.id (unindexed (ρ := ApiKey))) (now : ApiKeyId → Time) :
    KeyService :=
  ⟨KeyStore.migrated legacy now, []⟩

def setPc (s : KeyService) (r : Nat) (revocation : Revocation) (pc : RevokePc) : KeyService :=
  { s with revocations := s.revocations.set r { revocation with pc := pc } }

/-- `get_object_or_404`, and the check after it. -/
def look (keys : ApiKeyTable) (pk : ApiKeyId) : RevokePc :=
  match keys.find? pk with
  | none => .missing
  | some key => if key.isRevoked then .conflict else .found

/-- `save(update_fields=["is_active", "revoked_at"])`. -/
def saved (store : KeyStore) (pk : ApiKeyId) (now : Time) : KeyStore :=
  ⟨store.keys.update (fun k => k.id == pk) (ApiKeyViewSet.revokeUpdate now),
    .revoked pk :: store.log⟩

def step (hashing : KeyHashing) (s : KeyService) : Action → Option KeyService
  | .create data id now keyToken secretToken webhookSecret =>
      (s.store.step hashing (.create data id now keyToken secretToken webhookSecret)).map
        fun store => { s with store := store }
  | .revoke pk => some { s with revocations := Pool.spawn s.revocations ⟨pk, .begun⟩ }
  | .read r =>
      s.revocations[r]?.bind fun revocation =>
        if revocation.pc = .begun then
          some (s.setPc r revocation (look s.store.keys revocation.pk))
        else none
  | .save r now =>
      s.revocations[r]?.bind fun revocation =>
        if revocation.pc = .found then
          some { s.setPc r revocation .revoked with store := saved s.store revocation.pk now }
        else none

abbrev Reaches (hashing : KeyHashing) : KeyService → KeyService → Prop :=
  Transition.Reaches (Transition.graph (step hashing)) Transition.anyStep

variable {hashing : KeyHashing} {s t : KeyService} {a : Action}

/-- What a step does. -/
inductive Step (hashing : KeyHashing) (s : KeyService) : KeyService → Prop
  | created (row : ApiKey) (keys : ApiKeyTable) (key : String)
      (hinsert : s.store.keys.insert? row = some keys) (hactive : row.active = true)
      (hstamp : row.isActive = row.revokedAt.isNone) (hhanded : Handed hashing row key) :
      Step hashing s { s with store := ⟨keys, .created row.id key :: s.store.log⟩ }
  | refused : Step hashing s s
  | begun (pk : ApiKeyId) :
      Step hashing s { s with revocations := Pool.spawn s.revocations ⟨pk, .begun⟩ }
  | read (r : Nat) (revocation : Revocation) (hget : s.revocations[r]? = some revocation)
      (hpc : revocation.pc = .begun) :
      Step hashing s (s.setPc r revocation (look s.store.keys revocation.pk))
  | saved (r : Nat) (revocation : Revocation) (now : Time)
      (hget : s.revocations[r]? = some revocation) (hpc : revocation.pc = .found) :
      Step hashing s
        { s.setPc r revocation .revoked with store := saved s.store revocation.pk now }

theorem step_cases (hstep : step hashing s a = some t) : Step hashing s t := by
  cases a with
  | create data id now keyToken secretToken webhookSecret =>
      obtain ⟨store, hstore, rfl⟩ := Option.map_eq_some_iff.mp hstep
      dsimp only [KeyStore.step] at hstore
      split at hstore
      next made hmade =>
        cases hstore
        obtain ⟨hinsert, hactive, hhanded⟩ := ApiKeyViewSet.create_ok hmade
        refine .created made.row made.keys made.key hinsert hactive ?_ hhanded
        unfold ApiKey.active at hactive
        rw [Bool.and_eq_true] at hactive
        rw [hactive.1, hactive.2]
      next =>
        cases hstore
        exact .refused
  | revoke pk =>
      cases hstep
      exact .begun pk
  | read r =>
      obtain ⟨revocation, hget, hread⟩ := Option.bind_eq_some_iff.mp hstep
      obtain ⟨hpc, ⟨⟩⟩ := Option.ite_none_right_eq_some.mp hread
      exact .read r revocation hget hpc
  | save r now =>
      obtain ⟨revocation, hget, hsave⟩ := Option.bind_eq_some_iff.mp hstep
      obtain ⟨hpc, ⟨⟩⟩ := Option.ite_none_right_eq_some.mp hsave
      exact .saved r revocation now hget hpc

/-- What is left of a row. -/
structure Kept (old new : ApiKey) : Prop where
  id : new.id = old.id
  inactive : old.active = false → new.active = false
  keyId : new.keyId = old.keyId
  hashedSecret : new.hashedSecret = old.hashedSecret
  ratePerMin : new.rateLimitPerMin = old.rateLimitPerMin
  burst : new.burst = old.burst
  stamp : old.isActive = old.revokedAt.isNone → new.isActive = new.revokedAt.isNone

theorem Kept.refl (row : ApiKey) : Kept row row :=
  ⟨rfl, fun h => h, rfl, rfl, rfl, rfl, fun h => h⟩

theorem Kept.trans {a b c : ApiKey} (h : Kept a b) (h' : Kept b c) : Kept a c :=
  ⟨h'.id.trans h.id, fun ha => h'.inactive (h.inactive ha), h'.keyId.trans h.keyId,
    h'.hashedSecret.trans h.hashedSecret, h'.ratePerMin.trans h.ratePerMin, h'.burst.trans h.burst,
    fun ha => h'.stamp (h.stamp ha)⟩

theorem kept_revokeUpdate (row : ApiKey) (now : Time) :
    Kept row ((ApiKeyViewSet.revokeUpdate now).apply row) :=
  ⟨rfl, fun _ => rfl, rfl, rfl, rfl, rfl, fun _ => rfl⟩

theorem Kept.handed {old new : ApiKey} (h : Kept old new) {key : String}
    (hhanded : Handed hashing old key) : Handed hashing new key := by
  obtain ⟨keyId, secret, hsplit, hkeyId, hhash⟩ := hhanded
  exact ⟨keyId, secret, hsplit, h.keyId.trans hkeyId, h.hashedSecret ▸ hhash⟩

/-- No row is lost. -/
theorem Step.kept (h : Step hashing s t) {row : ApiKey} (hrow : row ∈ s.store.keys.rows) :
    ∃ new ∈ t.store.keys.rows, Kept row new := by
  cases h with
  | created fresh keys key hinsert _ _ _ =>
      exact ⟨row, (s.store.keys.mem_insert hinsert).mpr (.inl hrow), .refl row⟩
  | refused | begun pk | read r revocation hget hpc => exact ⟨row, hrow, .refl row⟩
  | saved r revocation now hget hpc =>
      refine ⟨_, (s.store.keys.mem_update).mpr ⟨row, hrow, rfl⟩, ?_⟩
      split
      next => exact kept_revokeUpdate row now
      next => exact .refl row

/-- A row is an old one or has just been created. -/
theorem Step.old_row (h : Step hashing s t) {new : ApiKey} (hnew : new ∈ t.store.keys.rows) :
    (∃ row ∈ s.store.keys.rows, Kept row new) ∨ new.isActive = new.revokedAt.isNone := by
  cases h with
  | created fresh keys key hinsert hactive hstamp _ =>
      rcases (s.store.keys.mem_insert hinsert).mp hnew with hold | rfl
      · exact .inl ⟨new, hold, .refl new⟩
      · exact .inr hstamp
  | refused | begun pk | read r revocation hget hpc => exact .inl ⟨new, hnew, .refl new⟩
  | saved r revocation now hget hpc =>
      obtain ⟨row, hrow, heq⟩ := (s.store.keys.mem_update).mp hnew
      refine .inl ⟨row, hrow, ?_⟩
      split at heq
      next => exact heq ▸ kept_revokeUpdate row now
      next => exact heq ▸ .refl row

/-- What a request knows of its key. -/
def Revocation.Sound (keys : ApiKeyTable) (revocation : Revocation) : Prop :=
  (revocation.pc = .found → ∃ row ∈ keys.rows, row.id = revocation.pk) ∧
  (revocation.pc.settled = true → ∃ row ∈ keys.rows, row.id = revocation.pk ∧ row.active = false)

/-- What holds in every run. -/
structure Managed (hashing : KeyHashing) (s : KeyService) : Prop where
  issued : KeyStore.Issued hashing s.store
  stamped : ∀ row ∈ s.store.keys.rows, row.isActive = row.revokedAt.isNone
  revocations : ∀ (r : Nat) (revocation : Revocation), s.revocations[r]? = some revocation →
    Revocation.Sound s.store.keys revocation

theorem Revocation.Sound.kept {keys keys' : ApiKeyTable} {revocation : Revocation}
    (h : Revocation.Sound keys revocation)
    (hkept : ∀ row ∈ keys.rows, ∃ new ∈ keys'.rows, Kept row new) :
    Revocation.Sound keys' revocation := by
  refine ⟨fun hpc => ?_, fun hpc => ?_⟩
  · obtain ⟨row, hrow, hid⟩ := h.1 hpc
    obtain ⟨new, hnew, hsame⟩ := hkept row hrow
    exact ⟨new, hnew, hsame.id.trans hid⟩
  · obtain ⟨row, hrow, hid, hinactive⟩ := h.2 hpc
    obtain ⟨new, hnew, hsame⟩ := hkept row hrow
    exact ⟨new, hnew, hsame.id.trans hid, hsame.inactive hinactive⟩

theorem sound_look (keys : ApiKeyTable) (pk : ApiKeyId) :
    Revocation.Sound keys ⟨pk, look keys pk⟩ := by
  unfold look
  split
  next hnone => exact ⟨(fun heq => by cases heq), fun heq => by cases heq⟩
  next key hfind =>
    obtain ⟨hrow, hid⟩ := keys.find?_eq_some.mp hfind
    split
    next hrevoked =>
      refine ⟨(fun heq => by cases heq), fun _ => ⟨key, hrow, hid, ?_⟩⟩
      unfold ApiKey.isRevoked at hrevoked
      rw [ApiKey.active, Option.isNone_eq_false_iff.mpr hrevoked, Bool.and_false]
    next => exact ⟨fun _ => ⟨key, hrow, hid⟩, fun heq => by cases heq⟩

theorem Managed.step (h : Managed hashing s) (hstep : Step hashing s t) : Managed hashing t := by
  have hkept : ∀ row ∈ s.store.keys.rows, ∃ new ∈ t.store.keys.rows, Kept row new :=
    fun row hrow => hstep.kept hrow
  have hold : ∀ (r : Nat) (revocation : Revocation), s.revocations[r]? = some revocation →
      Revocation.Sound t.store.keys revocation :=
    fun r revocation hget => (h.revocations r revocation hget).kept hkept
  constructor
  case stamped =>
    intro new hnew
    rcases hstep.old_row hnew with ⟨row, hrow, hsame⟩ | hstamp
    · exact hsame.stamp (h.stamped row hrow)
    · exact hstamp
  case issued =>
    cases hstep with
    | created row keys key hinsert hactive _ hhanded =>
        exact h.issued.create hinsert hactive hhanded
    | refused | begun pk | read r revocation hget hpc => exact h.issued
    | saved r revocation now hget hpc =>
        exact h.issued.revoke ((h.revocations r revocation hget).1 hpc)
  case revocations =>
    cases hstep with
    | created row keys key _ _ _ _ | refused => exact hold
    | begun pk => exact Pool.forall_spawn ⟨nofun, nofun⟩ hold
    | read r revocation hget hpc =>
        exact Pool.forall_set hget (sound_look s.store.keys revocation.pk)
          fun j other hother _ => hold j other hother
    | saved r revocation now hget hpc =>
        refine Pool.forall_set hget ⟨nofun, fun _ => ?_⟩ fun j other hother _ => hold j other hother
        obtain ⟨row, hrow, hid⟩ := (h.revocations r revocation hget).1 hpc
        refine ⟨_, (s.store.keys.mem_update).mpr ⟨row, hrow, rfl⟩, ?_⟩
        rw [if_pos (beq_iff_eq.mpr hid)]
        exact ⟨hid, rfl⟩

theorem managed_init (legacy : Table ApiKey.id (unindexed (ρ := ApiKey)))
    (now : ApiKeyId → Time) : Managed hashing (init legacy now) where
  issued := KeyStore.issued_migrated legacy now
  stamped := fun row hrow => by
    obtain ⟨key, _, rfl⟩ := List.mem_map.mp hrow
    rfl
  revocations := fun _ _ hget => by simp [init] at hget

theorem managed_of_reaches {legacy : Table ApiKey.id (unindexed (ρ := ApiKey))}
    {now : ApiKeyId → Time} (h : Reaches hashing (init legacy now) s) : Managed hashing s :=
  h.invariant (Managed hashing) (managed_init legacy now)
    fun _ _ _ hinv _ hstep => hinv.step (step_cases hstep)

end KeyService

/-- A key that authenticates is an active row, and the header verifies for it. -/
theorem authenticateKey_some {hashing : KeyHashing} {keys : ApiKeyTable} {header : String}
    {row : ApiKey} (h : authenticateKey hashing keys header = .ok (some row)) :
    row ∈ keys.rows ∧ row.active = true ∧ Handed hashing row header := by
  unfold authenticateKey at h
  split at h
  next => cases h
  next keyId secret hsplit =>
    split at h
    next => cases h
    next candidate hfind =>
      have hmatches := List.find?_some hfind
      rw [Bool.and_eq_true, beq_iff_eq] at hmatches
      unfold verifySecret at h
      cases hhash : hashSecret hashing secret with
      | error error =>
          rw [hhash] at h
          cases h
      | ok digest =>
          rw [hhash] at h
          change (compareDigest digest candidate.hashedSecret).map _ = _ at h
          unfold compareDigest at h
          split at h
          next =>
            cases hsame : digest == candidate.hashedSecret with
            | false =>
                rw [hsame] at h
                cases h
            | true =>
                rw [hsame] at h
                cases h
                exact ⟨List.mem_of_find?_eq_some hfind, hmatches.1, keyId, secret, hsplit,
                  hmatches.2, (beq_iff_eq.mp hsame) ▸ hhash⟩
          next => cases h

namespace KeyService

/-- However creations and revocations interleave, a row is switched off exactly when it has the
time of a revocation, and a header authenticates as a key if and only if it is the full key handed
out for it and no revocation of it has been saved. Once any revocation of a key has been answered
as done or as a conflict, no header authenticates as that key. -/
theorem resolve_interleaved {hashing : KeyHashing} (hdistinct : SecretsDistinct hashing)
    (hascii : DigestsAscii hashing) {legacy : Table ApiKey.id (unindexed (ρ := ApiKey))}
    {now : ApiKeyId → Time} {s : KeyService} (h : Reaches hashing (init legacy now) s)
    (header : String) :
    (∀ row ∈ s.store.keys.rows, row.isActive = row.revokedAt.isNone) ∧
    ∃ found memo,
      resolveApiKey hashing s.store.keys (.arriving (some header)) = .ok (found, memo) ∧
      (∀ row, found = some row ↔ row ∈ s.store.keys.rows ∧
        .created row.id header ∈ s.store.log ∧ .revoked row.id ∉ s.store.log) ∧
      ∀ (r : Nat) (revocation : Revocation), s.revocations[r]? = some revocation →
        revocation.pc.settled = true → ∀ row, found = some row → row.id ≠ revocation.pk := by
  have hmanaged := managed_of_reaches h
  obtain ⟨found, hfound, hiff⟩ := authenticateKey_issued hdistinct hascii hmanaged.issued header
  refine ⟨hmanaged.stamped, found, ⟨some header, some found⟩, ?_, hiff, ?_⟩
  · change (authenticateKey hashing s.store.keys header).map _ = _
    rw [hfound]
    rfl
  · rintro r revocation hget hsettled row rfl hid
    obtain ⟨hrow, hactive, -⟩ := authenticateKey_some hfound
    obtain ⟨other, hother, hpk, hinactive⟩ := (hmanaged.revocations r revocation hget).2 hsettled
    rw [s.store.keys.eq_of_key hother hrow (hpk.trans hid.symm), hactive] at hinactive
    cases hinactive

/-- Two revocations that both find the key in use. -/
def raced : List Action :=
  [.create ⟨"billing", 100, 200⟩ 2 5 sampleToken sampleSecret "whsec", .revoke 2, .revoke 2,
    .read 0, .read 1, .save 1 8, .save 0 9]

theorem resolve_interleaved_raced : ∃ (s : KeyService) (revocations : List Revocation)
    (found : Option ApiKey) (memo : KeyRequest), s.revocations = revocations ∧
      revocations.map Revocation.pc = [.revoked, .revoked] ∧
      resolveApiKey sampleHashing s.store.keys
        (.arriving (some "nr_0123456789ab_a_b-C0123456789abcdefghijklmnopq")) =
          .ok (found, memo) ∧
      ∀ row, found = some row → row.id ≠ 2 := by
  obtain ⟨s, hs⟩ : ∃ s, Transition.runAll (step sampleHashing) Transition.anyStep
    (init sampleLegacy fun _ => 3) raced = some s := ⟨_, rfl⟩
  have hdistinct : SecretsDistinct sampleHashing := fun _ _ h =>
    String.toByteArray_inj.mp (sampleDigest_injective h)
  obtain ⟨-, found, memo, hresolve, -, hsettled⟩ := resolve_interleaved hdistinct
    (fun _ text => sampleDigest_ascii text) (Transition.reaches_of_runAll raced hs)
    "nr_0123456789ab_a_b-C0123456789abcdefghijklmnopq"
  cases hs
  exact ⟨_, _, found, memo, rfl, rfl, hresolve, hsettled 0 _ rfl rfl⟩

end KeyService

end NotifyRelay
