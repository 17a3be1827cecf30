import NotifyRelay.ApiKeys
import NotifyRelay.Library.Transition
import Mathlib.Logic.Equiv.List

/-! Which header authenticates as which key, over whole lifetimes of keys. -/
namespace NotifyRelay

open KeySecurity

/-- What the API answered: a full key it handed out, or a revocation. -/
inductive KeyEvent where
  | created (id : ApiKeyId) (key : String)
  | revoked (id : ApiKeyId)
  deriving DecidableEq, Repr

structure KeyStore where
  keys : ApiKeyTable
  /-- Newest first. -/
  log : List KeyEvent

inductive KeyAction where
  | create (data : ApiKeyData) (id : ApiKeyId) (now : Time) (keyToken : KeyToken)
      (secretToken : SecretToken) (webhookSecret : String)
  | revoke (pk : ApiKeyId) (now : Time)

namespace KeyStore

/-- The table as the migration leaves it. -/
def migrated (legacy : Table ApiKey.id (unindexed (ρ := ApiKey))) (now : ApiKeyId → Time) :
    KeyStore :=
  ⟨LegacyKeys.revokeLegacyKeys now legacy, []⟩

/-- A request of the key API; one that fails changes nothing. -/
def step (hashing : KeyHashing) (s : KeyStore) : KeyAction → Option KeyStore
  | .create data id now keyToken secretToken webhookSecret =>
      match ApiKeyViewSet.create hashing s.keys data id now keyToken secretToken
        webhookSecret with
      | .ok made => some ⟨made.keys, .created made.row.id made.key :: s.log⟩
      | .error _ => some s
  | .revoke pk now =>
      match ApiKeyViewSet.revoke s.keys pk now with
      | .ok keys => some ⟨keys, .revoked pk :: s.log⟩
      | .error _ => some s

end KeyStore

/-- `key` is what was handed out for this row. -/
def Handed (hashing : KeyHashing) (row : ApiKey) (key : String) : Prop :=
  ∃ keyId secret, splitFullKey key.toList = some (keyId, secret) ∧
    row.keyId = String.ofList keyId ∧ hashSecret hashing secret = .ok row.hashedSecret

variable {hashing : KeyHashing}

namespace ApiKeyViewSet

theorem create_ok {keys : ApiKeyTable} {data : ApiKeyData} {id : ApiKeyId} {now : Time}
    {keyToken : KeyToken} {secretToken : SecretToken} {webhookSecret : String} {made : CreatedKey}
    (h : create hashing keys data id now keyToken secretToken webhookSecret = .ok made) :
    keys.insert? made.row = some made.keys ∧ made.row.active = true ∧
      Handed hashing made.row made.key := by
  unfold create at h
  dsimp only [generateApiKey] at h
  cases hhash : hashSecret hashing secretToken.text with
  | error error =>
      rw [hhash] at h
      contradiction
  | ok hashed =>
      rw [hhash] at h
      dsimp only [bind, Except.bind] at h
      split at h
      next hinsert =>
        cases h
        refine ⟨hinsert, rfl, _, _, ?_, rfl, hhash⟩
        rw [fullKey, String.toList_ofList]
        exact splitFullKey_fullKey keyToken secretToken
      next => contradiction

theorem revoke_ok {keys keys' : ApiKeyTable} {pk : ApiKeyId} {now : Time}
    (h : revoke keys pk now = .ok keys') :
    (∃ row ∈ keys.rows, row.id = pk) ∧
      keys' = keys.update (fun k => k.id == pk) (revokeUpdate now) := by
  unfold revoke at h
  split at h
  next => contradiction
  next row hfind =>
    split at h
    next => contradiction
    next =>
      cases h
      exact ⟨⟨row, keys.find?_eq_some.mp hfind⟩, rfl⟩

end ApiKeyViewSet

namespace KeyStore

/-- What the rows owe to the answers that were given. -/
structure Issued (hashing : KeyHashing) (s : KeyStore) : Prop where
  created : ∀ id key, .created id key ∈ s.log →
    ∃ row ∈ s.keys.rows, row.id = id ∧ Handed hashing row key
  revoked : ∀ id, .revoked id ∈ s.log → ∃ row ∈ s.keys.rows, row.id = id
  active : ∀ row ∈ s.keys.rows, row.active = true ↔
    (∃ key, .created row.id key ∈ s.log) ∧ .revoked row.id ∉ s.log

theorem issued_migrated (legacy : Table ApiKey.id (unindexed (ρ := ApiKey)))
    (now : ApiKeyId → Time) : Issued hashing (migrated legacy now) := by
  constructor
  case created => exact fun _ _ hmem => nomatch hmem
  case revoked => exact fun _ hmem => nomatch hmem
  case active =>
    intro row hrow
    obtain ⟨key, _, rfl⟩ := List.mem_map.mp hrow
    simp [LegacyKeys.retire, ApiKey.active, migrated]

theorem Issued.create {s : KeyStore} (h : Issued hashing s) {keys : ApiKeyTable} {row : ApiKey}
    {key : String} (hinsert : s.keys.insert? row = some keys) (hactive : row.active = true)
    (hhanded : Handed hashing row key) :
    Issued hashing ⟨keys, .created row.id key :: s.log⟩ := by
  have hfresh : ∀ old ∈ s.keys.rows, old.id ≠ row.id := fun old hold =>
    (((s.keys.insert?_eq_some).mp hinsert).1 old hold).1
  have hmem : ∀ other, other ∈ keys.rows ↔ other ∈ s.keys.rows ∨ other = row := fun _ =>
    s.keys.mem_insert hinsert
  constructor
  case created =>
    intro id other hlog
    rcases List.mem_cons.mp hlog with heq | hold
    · cases heq
      exact ⟨row, (hmem row).mpr (.inr rfl), rfl, hhanded⟩
    · obtain ⟨old, hrow, hid, hother⟩ := h.created id other hold
      exact ⟨old, (hmem old).mpr (.inl hrow), hid, hother⟩
  case revoked =>
    intro id hlog
    obtain ⟨old, hrow, hid⟩ := h.revoked id (by simpa using hlog)
    exact ⟨old, (hmem old).mpr (.inl hrow), hid⟩
  case active =>
    intro other hother
    rcases (hmem other).mp hother with hold | rfl
    · rw [h.active other hold]
      simp [hfresh other hold]
    · have hunrevoked : .revoked other.id ∉ s.log := fun hlog => by
        obtain ⟨old, hrow, hid⟩ := h.revoked _ hlog
        exact hfresh old hrow hid
      simp [hactive, hunrevoked]

theorem Issued.revoke {s : KeyStore} (h : Issued hashing s) {pk : ApiKeyId} {now : Time}
    (hpk : ∃ row ∈ s.keys.rows, row.id = pk) :
    Issued hashing ⟨s.keys.update (fun k => k.id == pk) (ApiKeyViewSet.revokeUpdate now),
      .revoked pk :: s.log⟩ := by
  have hkept : ∀ row ∈ s.keys.rows,
      ∃ new ∈ (s.keys.update (fun k => k.id == pk) (ApiKeyViewSet.revokeUpdate now)).rows,
        new.id = row.id ∧ new.keyId = row.keyId ∧ new.hashedSecret = row.hashedSecret := by
    intro row hrow
    refine ⟨_, (s.keys.mem_update).mpr ⟨row, hrow, rfl⟩, ?_⟩
    split <;> exact ⟨rfl, rfl, rfl⟩
  constructor
  case created =>
    intro id key hlog
    obtain ⟨row, hrow, hid, keyId, secret, hsplit, hkeyId, hhash⟩ :=
      h.created id key (by simpa using hlog)
    obtain ⟨new, hnew, hsame, hkey, hhashed⟩ := hkept row hrow
    exact ⟨new, hnew, hsame.trans hid, keyId, secret, hsplit, hkey.trans hkeyId,
      hhashed ▸ hhash⟩
  case revoked =>
    intro id hlog
    have hold : ∃ row ∈ s.keys.rows, row.id = id := by
      rcases List.mem_cons.mp hlog with heq | hold
      · cases heq
        exact hpk
      · exact h.revoked id hold
    obtain ⟨row, hrow, hid⟩ := hold
    obtain ⟨new, hnew, hsame, -⟩ := hkept row hrow
    exact ⟨new, hnew, hsame.trans hid⟩
  case active =>
    intro row hrow
    obtain ⟨old, hold, heq⟩ := (s.keys.mem_update).mp hrow
    split at heq
    next hid =>
      subst heq
      rw [beq_iff_eq] at hid
      simp [ApiKeyViewSet.revokeUpdate, ApiKey.active, hid]
    next hid =>
      subst heq
      rw [h.active old hold]
      simp_all

theorem Issued.step {s t : KeyStore} {a : KeyAction} (h : Issued hashing s)
    (hstep : step hashing s a = some t) : Issued hashing t := by
  cases a with
  | create data id now keyToken secretToken webhookSecret =>
      dsimp only [KeyStore.step] at hstep
      split at hstep <;> cases hstep
      next made hmade =>
        obtain ⟨hinsert, hactive, hhanded⟩ := ApiKeyViewSet.create_ok hmade
        exact h.create hinsert hactive hhanded
      next => exact h
  | revoke pk now =>
      dsimp only [KeyStore.step] at hstep
      split at hstep <;> cases hstep
      next keys hrevoke =>
        obtain ⟨hpk, rfl⟩ := ApiKeyViewSet.revoke_ok hrevoke
        exact h.revoke hpk
      next => exact h

theorem issued_of_reaches {legacy : Table ApiKey.id (unindexed (ρ := ApiKey))}
    {now : ApiKeyId → Time} {s : KeyStore}
    (h : Transition.Reaches (Transition.graph (step hashing)) Transition.anyStep
      (migrated legacy now) s) : Issued hashing s :=
  h.invariant (Issued hashing) (issued_migrated legacy now)
    fun _ _ _ hinv _ hstep => hinv.step hstep

/-- A row and the key handed out for it are found by each other. -/
theorem Issued.handed {s : KeyStore} (h : Issued hashing s) {row : ApiKey} {key : String}
    (hrow : row ∈ s.keys.rows) (hcreated : .created row.id key ∈ s.log) :
    Handed hashing row key := by
  obtain ⟨other, hother, hid, hhanded⟩ := h.created _ _ hcreated
  rwa [s.keys.eq_of_key hother hrow hid] at hhanded

end KeyStore

/-- HMAC under the fixed pepper tells secrets apart. -/
def SecretsDistinct (hashing : KeyHashing) : Prop :=
  Function.Injective fun secret : String =>
    hashing.hexdigest hashing.pepper.toUTF8 secret.toUTF8

/-- A digest in hex is ASCII. -/
def DigestsAscii (hashing : KeyHashing) : Prop :=
  ∀ key text, isAscii (hashing.hexdigest key text) = true

theorem verifySecret_eq (hdistinct : SecretsDistinct hashing) (hascii : DigestsAscii hashing)
    {secret owner : List Char} {hashed : String}
    (h : hashSecret hashing owner = .ok hashed) :
    verifySecret hashing secret hashed = .ok (secret == owner) := by
  unfold hashSecret pepperBytes at h
  split at h
  next => contradiction
  next hpepper =>
    cases h
    have hhash : hashSecret hashing secret =
        .ok (hashing.hexdigest hashing.pepper.toUTF8 (String.ofList secret).toUTF8) := by
      rw [hashSecret, pepperBytes, if_neg hpepper]
      rfl
    unfold verifySecret
    rw [hhash]
    change compareDigest _ _ = _
    rw [compareDigest, if_pos (by rw [hascii, hascii]; rfl)]
    have hsame := hdistinct.eq_iff (a := String.ofList secret) (b := String.ofList owner)
    rw [String.ofList_inj] at hsame
    congr 1
    rw [Bool.eq_iff_iff, beq_iff_eq, beq_iff_eq]
    exact hsame

theorem hashSecret_inj (hdistinct : SecretsDistinct hashing) {secret owner : List Char}
    {hashed : String} (h : hashSecret hashing secret = .ok hashed)
    (howner : hashSecret hashing owner = .ok hashed) : secret = owner := by
  unfold hashSecret pepperBytes at h howner
  split at h
  next => contradiction
  next hpepper =>
    rw [if_neg hpepper] at howner
    cases h
    exact String.ofList_inj.mp (hdistinct (Except.ok.inj howner).symm)

/-- A row was handed out with one key only. -/
theorem Handed.unique (hdistinct : SecretsDistinct hashing) {row : ApiKey} {key key' : String}
    (h : Handed hashing row key) (h' : Handed hashing row key') : key = key' := by
  obtain ⟨keyId, secret, hsplit, hkeyId, hhash⟩ := h
  obtain ⟨keyId', secret', hsplit', hkeyId', hhash'⟩ := h'
  have hid : keyId = keyId' := String.ofList_inj.mp (hkeyId.symm.trans hkeyId')
  have hsecret : secret = secret' := hashSecret_inj hdistinct hhash hhash'
  rw [← String.toList_inj, (splitFullKey_eq_some.mp hsplit).1,
    (splitFullKey_eq_some.mp hsplit').1, hid, hsecret]

/-- With the key id of the row, only the key that was handed out for it verifies. -/
theorem Handed.verify (hdistinct : SecretsDistinct hashing) (hascii : DigestsAscii hashing)
    {row : ApiKey} {key header : String} (h : Handed hashing row key)
    {keyId secret : List Char} (hsplit : splitFullKey header.toList = some (keyId, secret))
    (hkeyId : row.keyId = String.ofList keyId) :
    verifySecret hashing secret row.hashedSecret = .ok (decide (header = key)) := by
  obtain ⟨ownId, owner, hown, hownId, hhash⟩ := h
  have hid : keyId = ownId := String.ofList_inj.mp (hkeyId.symm.trans hownId)
  rw [verifySecret_eq hdistinct hascii hhash]
  congr 1
  rw [Bool.eq_iff_iff, beq_iff_eq, decide_eq_true_iff]
  constructor
  · intro hsecret
    rw [← String.toList_inj, (splitFullKey_eq_some.mp hsplit).1,
      (splitFullKey_eq_some.mp hown).1, hid, hsecret]
  · rintro rfl
    exact (Prod.mk.inj (Option.some.inj (hsplit.symm.trans hown))).2

theorem authenticateKey_issued (hdistinct : SecretsDistinct hashing)
    (hascii : DigestsAscii hashing) {s : KeyStore} (h : KeyStore.Issued hashing s)
    (header : String) :
    ∃ found, authenticateKey hashing s.keys header = .ok found ∧
      ∀ row, found = some row ↔
        row ∈ s.keys.rows ∧ .created row.id header ∈ s.log ∧ .revoked row.id ∉ s.log := by
  unfold authenticateKey
  cases hsplit : splitFullKey header.toList with
  | none =>
      refine ⟨none, rfl, fun row => ⟨(nomatch ·), ?_⟩⟩
      rintro ⟨hrow, hcreated, -⟩
      obtain ⟨keyId, secret, hparts, -⟩ := h.handed hrow hcreated
      rw [hsplit] at hparts
      contradiction
  | some parts =>
      obtain ⟨keyId, secret⟩ := parts
      have hheader : ∀ row, row ∈ s.keys.rows → .created row.id header ∈ s.log →
          row.keyId = String.ofList keyId := by
        intro row hrow hcreated
        obtain ⟨_, _, hparts, hkeyId, _⟩ := h.handed hrow hcreated
        cases hsplit.symm.trans hparts
        exact hkeyId
      dsimp only
      cases hfind : s.keys.rows.find? fun k => k.active && k.keyId == String.ofList keyId with
      | none =>
          refine ⟨none, rfl, fun row => ⟨(nomatch ·), ?_⟩⟩
          rintro ⟨hrow, hcreated, hunrevoked⟩
          have hactive := (h.active row hrow).mpr ⟨⟨header, hcreated⟩, hunrevoked⟩
          have hmissed := List.find?_eq_none.mp hfind row hrow
          simp [hactive, hheader row hrow hcreated] at hmissed
      | some candidate =>
          have hcandidate := List.mem_of_find?_eq_some hfind
          have hmatches := List.find?_some hfind
          rw [Bool.and_eq_true, beq_iff_eq] at hmatches
          obtain ⟨⟨key, hcreated⟩, hunrevoked⟩ := (h.active candidate hcandidate).mp hmatches.1
          have hhanded := h.handed hcandidate hcreated
          dsimp only
          rw [hhanded.verify hdistinct hascii hsplit hmatches.2]
          refine ⟨if decide (header = key) then some candidate else none, rfl,
            fun row => ⟨fun hfound => ?_, ?_⟩⟩
          · split at hfound
            next hkey =>
              cases hfound
              rw [of_decide_eq_true hkey]
              exact ⟨hcandidate, hcreated, hunrevoked⟩
            next => contradiction
          · rintro ⟨hrow, hlog, -⟩
            have hsame : row = candidate := s.keys.eq_of_index hrow hcandidate
              (congrArg some (hheader row hrow hlog)) (congrArg some hmatches.2)
            subst hsame
            have hkey : header = key := (h.handed hrow hlog).unique hdistinct hhanded
            rw [if_pos (decide_eq_true hkey)]

/-- In every lifetime of keys, a header authenticates as a key if and only if it is the full
key that was handed out when the key was created, and the key has not been revoked since. -/
theorem resolveApiKey_issued (hdistinct : SecretsDistinct hashing)
    (hascii : DigestsAscii hashing) {legacy : Table ApiKey.id (unindexed (ρ := ApiKey))}
    {now : ApiKeyId → Time} {s : KeyStore}
    (h : Transition.Reaches (Transition.graph (KeyStore.step hashing)) Transition.anyStep
      (KeyStore.migrated legacy now) s) (header : String) :
    ∃ found memo, resolveApiKey hashing s.keys (.arriving (some header)) = .ok (found, memo) ∧
      ∀ row, found = some row ↔
        row ∈ s.keys.rows ∧ .created row.id header ∈ s.log ∧ .revoked row.id ∉ s.log := by
  obtain ⟨found, hfound, hiff⟩ :=
    authenticateKey_issued hdistinct hascii (KeyStore.issued_of_reaches h) header
  refine ⟨found, ⟨some header, some found⟩, ?_, hiff⟩
  change (authenticateKey hashing s.keys header).map _ = _
  rw [hfound]
  rfl

section Scenario

def sampleSecret : SecretToken where
  text := "a_b-C0123456789abcdefghijklmnopq".toList
  length_text := by decide
  alphabet_text := List.all_eq_true.mp (by decide)

def sampleToken : KeyToken where
  text := "0123456789ab".toList
  length_text := by decide
  alphabet_text := List.all_eq_true.mp (by decide)

/-- A digest that is the one of HMAC-SHA256 for the sample secret, under this pepper. -/
def sampleDigest (text : ByteArray) : String :=
  if text.data.toList = (String.ofList sampleSecret.text).toUTF8.data.toList then
    "b5c88697b9a931c76de9b1e4f90c25b04700e3fb82fb25c091d0f267652f69f6"
  else "x" ++ Nat.repr (Encodable.encode (text.data.toList.map UInt8.toNat))

theorem sampleDigest_injective : Function.Injective sampleDigest := by
  intro a b h
  unfold sampleDigest at h
  split at h
  next ha =>
    split at h
    next hb => exact ByteArray.ext (Array.toList_inj.mp (ha.trans hb.symm))
    next =>
      rw [← String.toList_inj, String.toList_append] at h
      simp at h
  next =>
    split at h
    next =>
      rw [← String.toList_inj, String.toList_append] at h
      simp at h
    next =>
      have hencode := Encodable.encode_injective (Text.append_repr_inj h)
      have hbytes := List.map_injective_iff.mpr (fun _ _ => UInt8.toNat_inj.mp) hencode
      exact ByteArray.ext (Array.toList_inj.mp hbytes)

theorem sampleDigest_ascii (text : ByteArray) : isAscii (sampleDigest text) = true := by
  unfold sampleDigest
  split
  next => decide
  next =>
    rw [isAscii, String.toList_append, Nat.toList_repr, List.all_append, Bool.and_eq_true]
    refine ⟨by decide, List.all_eq_true.mpr fun c hc => ?_⟩
    have hdigit := Nat.isDigit_of_mem_toDigits (by decide) (by decide) hc
    rw [Char.isDigit, Bool.and_eq_true, decide_eq_true_eq, decide_eq_true_eq] at hdigit
    have hle : c.toNat ≤ 57 := hdigit.2
    exact decide_eq_true (Nat.lt_of_le_of_lt hle (by decide))

def sampleHashing : KeyHashing := ⟨"pepper", fun _ text => sampleDigest text⟩

/-- A key of the old format, and after the migration a new one. -/
def sampleLegacy : Table ApiKey.id (unindexed (ρ := ApiKey)) where
  rows := [⟨1, "old", "nr_", "argon2", "", 100, 200, true, 0, none⟩]
  compatible := List.pairwise_singleton _ _

def sampleKeySteps : List KeyAction :=
  [.create ⟨"billing", 100, 200⟩ 2 5 sampleToken sampleSecret "whsec"]

theorem resolveApiKey_issued_sample :
    ∃ (s : KeyStore) (found : Option ApiKey) (memo : KeyRequest) (row : ApiKey),
      resolveApiKey sampleHashing s.keys
        (.arriving (some "nr_0123456789ab_a_b-C0123456789abcdefghijklmnopq")) =
          .ok (found, memo) ∧
      s.keys.rows.length = 2 ∧ row.id = 2 ∧ found = some row := by
  obtain ⟨s, hs⟩ : ∃ s, Transition.runAll (KeyStore.step sampleHashing) Transition.anyStep
    (KeyStore.migrated sampleLegacy fun _ => 3) sampleKeySteps = some s := ⟨_, rfl⟩
  have hdistinct : SecretsDistinct sampleHashing := fun _ _ h =>
    String.toByteArray_inj.mp (sampleDigest_injective h)
  obtain ⟨found, memo, hresolve, hiff⟩ := resolveApiKey_issued hdistinct
    (fun _ text => sampleDigest_ascii text) (Transition.reaches_of_runAll sampleKeySteps hs)
    "nr_0123456789ab_a_b-C0123456789abcdefghijklmnopq"
  cases hs
  refine ⟨_, found, memo, _, hresolve, rfl, rfl, (hiff _).mpr ⟨List.mem_cons_of_mem _
    List.mem_cons_self, List.mem_cons_self, ?_⟩⟩
  decide

end Scenario

end NotifyRelay
