import NotifyRelay.Models
import NotifyRelay.Text
import Mathlib.Data.List.TakeDrop
import Mathlib.Data.List.TakeWhile

/-! API keys: `apps/core/security.py`, `authentication.py` and `views.py`, and the migration
that retired the keys of the old format. HMAC-SHA256 is a parameter. -/
namespace NotifyRelay

structure ApiKey where
  id : ApiKeyId
  name : String
  keyId : String
  hashedSecret : String
  webhookSecret : String
  rateLimitPerMin : Nat
  burst : Nat
  isActive : Bool
  createdAt : Time
  revokedAt : Option Time

namespace ApiKey

/-- `key_id` is unique. -/
def uniqueKeyId (key : ApiKey) : Option String := some key.keyId

/-- `ApiKeyQuerySet.active`. -/
def active (key : ApiKey) : Bool := key.isActive && key.revokedAt.isNone

def isRevoked (key : ApiKey) : Bool := key.revokedAt.isSome

end ApiKey

abbrev ApiKeyTable := Table ApiKey.id ApiKey.uniqueKeyId

/-- A text of this many characters of an alphabet, as `secrets` generates them. -/
structure Token (alphabet : Char → Bool) (length : Nat) where
  text : List Char
  length_text : text.length = length
  alphabet_text : ∀ c ∈ text, alphabet c = true

/-- `settings.API_KEY_HASH_PEPPER`, and HMAC-SHA256 of a key and a text in hex. -/
structure KeyHashing where
  pepper : String
  hexdigest : ByteArray → ByteArray → String

/-- The exceptions of key handling, and the answers 404 and 409. -/
inductive KeyError where
  | runtimeError (text : String)
  | typeError (text : String)
  | integrityError
  | notFound
  | conflict (detail : String)
  deriving DecidableEq, Repr

namespace KeySecurity

def keyPrefix : List Char := "nr_".toList
def keyIdNbytes : Nat := 6
def secretNbytes : Nat := 24

def isLowerHex (c : Char) : Bool := c.isDigit || ('a' ≤ c && c ≤ 'f')

def isUrlSafe (c : Char) : Bool := c.isAlphanum || c == '-' || c == '_'

/-- `secrets.token_hex(_KEY_ID_NBYTES)`. -/
abbrev KeyToken := Token isLowerHex (keyIdNbytes * 2)

/-- `secrets.token_urlsafe(_SECRET_NBYTES)`, base64 without padding. -/
abbrev SecretToken := Token isUrlSafe ((secretNbytes * 8 + 5) / 6)

def fullKey (keyId secret : List Char) : String := String.ofList (keyId ++ '_' :: secret)

/-- `generate_api_key`, with the two tokens it draws. -/
def generateApiKey (keyToken : KeyToken) (secretToken : SecretToken) :
    List Char × List Char × String :=
  let keyId := keyPrefix ++ keyToken.text
  (keyId, secretToken.text, fullKey keyId secretToken.text)

def isKeyId (text : List Char) : Bool :=
  keyPrefix.isPrefixOf text &&
    let token := text.drop keyPrefix.length
    token.length == keyIdNbytes * 2 && token.all isLowerHex

/-- `_KEY_ID_RE.match`; `$` also matches before a line feed that ends the text. -/
def matchesKeyId (text : List Char) : Bool :=
  isKeyId text || (text.getLast? == some '\n' && isKeyId text.dropLast)

/-- `split_full_key`. -/
def splitFullKey (text : List Char) : Option (List Char × List Char) :=
  if !keyPrefix.isPrefixOf text then none
  else
    match (text.drop keyPrefix.length).span (· != '_') with
    | (_, []) => none
    | (token, _ :: secret) =>
        let keyId := keyPrefix ++ token
        if secret.isEmpty || !matchesKeyId keyId then none else some (keyId, secret)

theorem splitFullKey_eq_some {text keyId secret : List Char} :
    splitFullKey text = some (keyId, secret) ↔
      text = keyId ++ '_' :: secret ∧ secret ≠ [] ∧ matchesKeyId keyId = true ∧
        ∃ token, keyId = keyPrefix ++ token ∧ '_' ∉ token := by
  unfold splitFullKey
  constructor
  · intro h
    split at h
    next => contradiction
    next hcommon =>
      rw [Bool.not_eq_true', Bool.not_eq_false, List.isPrefixOf_iff_prefix] at hcommon
      obtain ⟨rest, rfl⟩ := hcommon
      rw [List.drop_left, List.span_eq_takeWhile_dropWhile] at h
      split at h
      next => contradiction
      next token c after hspan =>
        obtain ⟨htoken, hafter⟩ := Prod.mk.inj hspan
        have hc : c = '_' := by
          have hhead := List.head?_dropWhile_not (· != '_') rest
          rw [hafter] at hhead
          simpa using hhead
        have hfree : '_' ∉ token := fun hmem => by
          have hall := List.mem_takeWhile_imp (htoken ▸ hmem)
          simp at hall
        dsimp only at h
        split at h
        next => contradiction
        next hguard =>
          obtain ⟨rfl, rfl⟩ := Prod.mk.inj (Option.some.inj h)
          rw [Bool.not_eq_true, Bool.or_eq_false_iff, Bool.not_eq_false'] at hguard
          refine ⟨?_, List.isEmpty_eq_false_iff.mp hguard.1, hguard.2, token, rfl, hfree⟩
          rw [List.append_assoc, ← hc, ← htoken, ← hafter, List.takeWhile_append_dropWhile]
  · rintro ⟨rfl, hsecret, hmatches, token, rfl, hfree⟩
    have hall : ∀ c ∈ token, (c != '_') = true := by
      intro c hc
      rw [bne_iff_ne]
      rintro rfl
      exact hfree hc
    rw [List.append_assoc, if_neg (by simp), List.drop_left, List.span_eq_takeWhile_dropWhile,
      List.takeWhile_append_of_pos hall, List.dropWhile_append_of_pos hall]
    simp [hsecret, hmatches]

theorem isKeyId_keyToken (keyToken : KeyToken) : isKeyId (keyPrefix ++ keyToken.text) = true := by
  simpa [isKeyId, keyToken.length_text] using keyToken.alphabet_text

theorem separator_not_mem_keyToken (token : KeyToken) : '_' ∉ token.text := by
  intro hmem
  have hunderscore := token.alphabet_text _ hmem
  contradiction

/-- A generated key splits into its two parts, whatever separators the secret has. -/
theorem splitFullKey_fullKey (keyToken : KeyToken) (secretToken : SecretToken) :
    splitFullKey (keyPrefix ++ keyToken.text ++ '_' :: secretToken.text) =
      some (keyPrefix ++ keyToken.text, secretToken.text) := by
  refine splitFullKey_eq_some.mpr
    ⟨rfl, ?_, ?_, keyToken.text, rfl, separator_not_mem_keyToken keyToken⟩
  · intro hempty
    have hlength := secretToken.length_text
    rw [hempty] at hlength
    contradiction
  · rw [matchesKeyId, isKeyId_keyToken, Bool.true_or]

/-- The documented shape `nr_<key_id>_<secret>` of a full key. -/
structure IsFullKey (text keyId secret : List Char) : Prop where
  parts : text = keyId ++ '_' :: secret
  keyId_eq : ∃ token : KeyToken, keyId = keyPrefix ++ token.text
  secret_ne : secret ≠ []

theorem isKeyId_iff {text : List Char} :
    isKeyId text = true ↔ ∃ token : KeyToken, text = keyPrefix ++ token.text := by
  constructor
  · intro h
    rw [isKeyId, Bool.and_eq_true, List.isPrefixOf_iff_prefix] at h
    obtain ⟨⟨rest, rfl⟩, hrest⟩ := h
    dsimp only at hrest
    rw [List.drop_left, Bool.and_eq_true, beq_iff_eq, List.all_eq_true] at hrest
    exact ⟨⟨rest, hrest.1, hrest.2⟩, rfl⟩
  · rintro ⟨token, rfl⟩
    exact isKeyId_keyToken token

theorem matchesKeyId_iff {text : List Char} :
    matchesKeyId text = true ↔
      ∃ token : KeyToken, text = keyPrefix ++ token.text ∨
        text = keyPrefix ++ token.text ++ ['\n'] := by
  rw [matchesKeyId, Bool.or_eq_true, Bool.and_eq_true, beq_iff_eq, isKeyId_iff, isKeyId_iff]
  constructor
  · rintro (⟨token, htext⟩ | ⟨hlast, token, htext⟩)
    · exact ⟨token, .inl htext⟩
    · exact ⟨token, .inr (by rw [← htext, List.dropLast_append_getLast? _ hlast])⟩
  · rintro ⟨token, htext | rfl⟩
    · exact .inl ⟨token, htext⟩
    · exact .inr ⟨List.getLast?_concat, token, List.dropLast_concat⟩

/-- A text with a line feed between the key id and the separator. -/
structure HasLineFeed (text keyId secret : List Char) : Prop where
  parts : text = keyId ++ '_' :: secret
  keyId_eq : ∃ token : KeyToken, keyId = keyPrefix ++ token.text ++ ['\n']
  secret_ne : secret ≠ []

theorem splitFullKey_eq_some_iff {text keyId secret : List Char} :
    splitFullKey text = some (keyId, secret) ↔
      IsFullKey text keyId secret ∨ HasLineFeed text keyId secret := by
  rw [splitFullKey_eq_some, matchesKeyId_iff]
  constructor
  · rintro ⟨hparts, hsecret, ⟨token, hkeyId | hkeyId⟩, -⟩
    · exact .inl ⟨hparts, ⟨token, hkeyId⟩, hsecret⟩
    · exact .inr ⟨hparts, ⟨token, hkeyId⟩, hsecret⟩
  · rintro (⟨hparts, ⟨token, hkeyId⟩, hsecret⟩ | ⟨hparts, ⟨token, hkeyId⟩, hsecret⟩)
    · exact ⟨hparts, hsecret, ⟨token, .inl hkeyId⟩, _, hkeyId, separator_not_mem_keyToken token⟩
    · refine ⟨hparts, hsecret, ⟨token, .inr hkeyId⟩, token.text ++ ['\n'], ?_, ?_⟩
      · rw [hkeyId, List.append_assoc]
      · rw [List.mem_append, List.mem_singleton]
        rintro (hmem | hmem)
        · exact separator_not_mem_keyToken token hmem
        · contradiction

theorem HasLineFeed.not_isFullKey {text keyId secret : List Char}
    (h : HasLineFeed text keyId secret) : ¬IsFullKey text keyId secret := by
  rintro ⟨-, ⟨token, hkeyId⟩, -⟩
  obtain ⟨token', hkeyId'⟩ := h.keyId_eq
  have hlength := congrArg List.length (hkeyId.symm.trans hkeyId')
  simp only [List.length_append, token.length_text, token'.length_text, List.length_cons,
    List.length_nil] at hlength
  omega

/-- A text splits exactly as its documented shape says if and only if no line feed stands
between a key id and its separator; and every generated key splits into its parts. -/
theorem splitFullKey_documented_iff (text : List Char) :
    ((∀ keyId secret, splitFullKey text = some (keyId, secret) ↔
        IsFullKey text keyId secret) ↔
      ¬∃ keyId secret, HasLineFeed text keyId secret) ∧
    ∀ (keyToken : KeyToken) (secretToken : SecretToken),
      splitFullKey (generateApiKey keyToken secretToken).2.2.toList =
        some ((generateApiKey keyToken secretToken).1,
          (generateApiKey keyToken secretToken).2.1) := by
  refine ⟨⟨?_, ?_⟩, ?_⟩
  · rintro h ⟨keyId, secret, hfeed⟩
    exact hfeed.not_isFullKey ((h keyId secret).mp (splitFullKey_eq_some_iff.mpr (.inr hfeed)))
  · intro h keyId secret
    rw [splitFullKey_eq_some_iff]
    exact or_iff_left fun hfeed => h ⟨keyId, secret, hfeed⟩
  · intro keyToken secretToken
    rw [generateApiKey, fullKey, String.toList_ofList]
    exact splitFullKey_fullKey keyToken secretToken

/-- A key id that a line feed follows is split off with the line feed. -/
theorem splitFullKey_line_feed :
    splitFullKey "nr_0123456789ab\n_s".toList = some ("nr_0123456789ab\n".toList, ['s']) ∧
    ¬IsFullKey "nr_0123456789ab\n_s".toList "nr_0123456789ab\n".toList ['s'] := by
  refine ⟨by decide, fun h => ?_⟩
  obtain ⟨token, htoken⟩ := h.keyId_eq
  have hlength := congrArg List.length htoken
  rw [List.length_append, token.length_text] at hlength
  contradiction

/-- `_pepper`. -/
def pepperBytes (hashing : KeyHashing) : Except KeyError ByteArray :=
  if hashing.pepper = "" then .error (.runtimeError "API_KEY_HASH_PEPPER is not configured")
  else .ok hashing.pepper.toUTF8

/-- `hash_secret`. -/
def hashSecret (hashing : KeyHashing) (secret : List Char) : Except KeyError String :=
  (pepperBytes hashing).map fun key => hashing.hexdigest key (String.ofList secret).toUTF8

def isAscii (text : String) : Bool := text.toList.all fun c => c.toNat < 128

/-- `hmac.compare_digest` of two strings. -/
def compareDigest (a b : String) : Except KeyError Bool :=
  if isAscii a && isAscii b then .ok (a == b)
  else .error (.typeError "comparing strings with non-ASCII characters is not supported")

/-- `verify_secret`. -/
def verifySecret (hashing : KeyHashing) (secret : List Char) (hashed : String) :
    Except KeyError Bool := do
  let digest ← hashSecret hashing secret
  compareDigest digest hashed

end KeySecurity

open KeySecurity

/-- What `resolve_api_key` reads of a request, and the memo it leaves there. -/
structure KeyRequest where
  header : Option String
  resolved : Option (Option ApiKey)

/-- A request that has not been looked at. -/
def KeyRequest.arriving (header : Option String) : KeyRequest := ⟨header, none⟩

def authenticateKey (hashing : KeyHashing) (keys : ApiKeyTable) (header : String) :
    Except KeyError (Option ApiKey) :=
  match splitFullKey header.toList with
  | none => .ok none
  | some (keyId, secret) =>
      match keys.rows.find? fun k => k.active && k.keyId == String.ofList keyId with
      | none => .ok none
      | some candidate =>
          (verifySecret hashing secret candidate.hashedSecret).map fun verified =>
            if verified then some candidate else none

/-- `resolve_api_key`. -/
def resolveApiKey (hashing : KeyHashing) (keys : ApiKeyTable) (request : KeyRequest) :
    Except KeyError (Option ApiKey × KeyRequest) :=
  match request.resolved with
  | some cached => .ok (cached, request)
  | none =>
      (authenticateKey hashing keys (request.header.getD "")).map fun apiKey =>
        (apiKey, { request with resolved := some apiKey })

/-- `validated_data` of a request for a new key. -/
structure ApiKeyData where
  name : String
  rateLimitPerMin : Nat
  burst : Nat

/-- The new row, and the full key that is shown once. -/
structure CreatedKey where
  keys : ApiKeyTable
  row : ApiKey
  key : String

namespace ApiKeyViewSet

/-- `ApiKeyViewSet.create`, with the primary key the database gives and the tokens drawn. -/
def create (hashing : KeyHashing) (keys : ApiKeyTable) (data : ApiKeyData) (id : ApiKeyId)
    (now : Time) (keyToken : KeyToken) (secretToken : SecretToken) (webhookSecret : String) :
    Except KeyError CreatedKey := do
  let (keyId, secret, full) := generateApiKey keyToken secretToken
  let hashedSecret ← hashSecret hashing secret
  let row : ApiKey :=
    { id := id
      name := data.name
      keyId := String.ofList keyId
      hashedSecret := hashedSecret
      webhookSecret := webhookSecret
      rateLimitPerMin := data.rateLimitPerMin
      burst := data.burst
      isActive := true
      createdAt := now
      revokedAt := none }
  match keys.insert? row with
  | some keys => .ok ⟨keys, row, full⟩
  | none => .error .integrityError

def revokeUpdate (now : Time) : Table.Update ApiKey.id ApiKey.uniqueKeyId where
  apply := fun k => { k with isActive := false, revokedAt := some now }
  key_apply := fun _ => rfl
  index_apply := fun _ => .inl rfl

/-- `ApiKeyViewSet.revoke`. -/
def revoke (keys : ApiKeyTable) (pk : ApiKeyId) (now : Time) : Except KeyError ApiKeyTable :=
  match keys.find? pk with
  | none => .error .notFound
  | some key =>
      if key.isRevoked then .error (.conflict "already revoked")
      else .ok (keys.update (fun k => k.id == pk) (revokeUpdate now))

end ApiKeyViewSet

namespace LegacyKeys

def placeholder (pk : ApiKeyId) : String := "legacy_" ++ Nat.repr pk

/-- What the migration leaves of one key; `prefix` was renamed to `key_id` before, and the
new column is empty. -/
def retire (now : ApiKeyId → Time) (key : ApiKey) : ApiKey :=
  { key with
    keyId := placeholder key.id
    isActive := false
    revokedAt := some (key.revokedAt.getD (now key.id))
    webhookSecret := "" }

/-- `revoke_legacy_keys`. Only the primary key was unique before. -/
def revokeLegacyKeys (now : ApiKeyId → Time) (keys : Table ApiKey.id (unindexed (ρ := ApiKey))) :
    ApiKeyTable where
  rows := keys.rows.map (retire now)
  compatible := by
    refine keys.compatible.map _ fun a b hab => ⟨hab.1, .inr fun hsame => hab.1 ?_⟩
    exact Text.append_repr_inj (Option.some.inj hsame)

end LegacyKeys

end NotifyRelay
