import Syouyu.Api.Handlers
import Syouyu.Lib.Machine

/-!
# The two authenticators

A provider request carries a signed token, a principal request three signed headers.  Both bind
the request to a lifetime chosen by the signer, in 64-bit seconds; the checks use saturating,
checked and plain arithmetic.  Decoding and signatures are other crates' and are parameters.

* `ProviderAuthenticator.verifyTokenForAction`   reads a clock twice: once in the decoder, once
                       for the check of `iat`;
* `PrincipalAuthenticator.authenticate`   `none` is the panic of an overflowing subtraction;
* `ProviderAuthenticator.verified`, `PrincipalAuthenticator.authenticated`   what acceptance says
                       over the unbounded integers;
* `authenticators_bounded`   an accepted token or header is accepted in a bounded window only.
-/

set_option linter.unusedSectionVars false

namespace Syouyu
open Lib Lib.Machine

def ensureUuid (field : String) (value : Uuid) : Except ValidationError Unit :=
  if value.isNil then .error (.invalidField field "UUID must not be nil") else .ok ()

def ServiceScope.validate (scope : ServiceScope) : Except ValidationError Unit := do
  ensureUuid "organization_id" scope.organizationId
  ensureUuid "project_id" scope.projectId
  ensureUuid "service_instance_id" scope.serviceInstanceId

/-! ## the provider's tokens -/

def providerMaxTokenTtlSeconds : Int64 := 60
def providerNotBeforeOffsetSeconds : Int64 := 5

deriving instance DecidableEq for ProviderClaims, ServiceScope, Principal

/-- the claims of a token; the handlers read the part `ProviderClaims` -/
structure TokenClaims extends ProviderClaims where
  issuer : String
  audience : String
  action : String
  issuedAt : Int64
  notBefore : Int64
  expiresAt : Int64
  deriving DecidableEq

def TokenClaims.scope (claims : TokenClaims) : ServiceScope :=
  ⟨claims.organizationId, claims.projectId, claims.serviceInstanceId⟩

inductive Algorithm where
  | hs256 | hs384 | hs512 | es256 | es384 | rs256 | rs384 | rs512 | ps256 | ps384 | ps512 | edDsa
  deriving DecidableEq

structure TokenHeader where
  alg : Algorithm
  kid : Option String

/-- what the decoder is asked to check -/
structure Validation where
  algorithm : Algorithm
  issuer : List String
  audience : List String
  requiredSpecClaims : List String
  leeway : UInt64
  validateExp : Bool
  validateNbf : Bool

/-- the token decoder; `decode` also gets the seconds its own clock shows -/
structure Jsonwebtoken (Key : Type) where
  decodeHeader : String → Option TokenHeader
  decode : String → Key → Validation → Int → Option TokenClaims

/-- what the decoder's documentation promises -/
structure Jsonwebtoken.Documented {Key : Type} (jwt : Jsonwebtoken Key) : Prop where
  /-- the claims are those written in the token -/
  payload : ∀ {token key validation now claims key' validation' now' claims'},
    jwt.decode token key validation now = some claims →
    jwt.decode token key' validation' now' = some claims' → claims = claims'
  notBefore : ∀ {token key validation now claims},
    jwt.decode token key validation now = some claims → validation.validateNbf = true →
      claims.notBefore.toInt - validation.leeway.toNat ≤ now
  expires : ∀ {token key validation now claims},
    jwt.decode token key validation now = some claims → validation.validateExp = true →
      now ≤ claims.expiresAt.toInt + validation.leeway.toNat

structure ProviderAuthenticator (Key : Type) where
  issuer : String
  audience : String
  keys : List (String × Key)
  clockSkewSeconds : UInt64

def validateKeyId (value : String) : Except AuthError Unit :=
  if value.isEmpty || decide (128 < len value) ||
      !(asBytes value).all (fun b => isAsciiAlphanumeric b || b == 45 || b == 95 || b == 46) then
    .error (.invalidConfiguration "provider key ID is invalid")
  else .ok ()

section
variable {Key : Type}

/-- `parse` reads the JSON object of the keys, `fromEdPem` one key -/
def ProviderAuthenticator.fromPublicKeysJson (parse : String → Option (List (String × String)))
    (fromEdPem : String → Option Key) (issuer audience publicKeysJson : String) :
    Except AuthError (ProviderAuthenticator Key) := do
  if issuer.isEmpty || audience.isEmpty then
    .error (.invalidConfiguration "provider issuer and audience are required")
  else
    let encodedKeys ← okOr (parse publicKeysJson)
      (.invalidConfiguration "provider public key JSON is invalid")
    if encodedKeys.isEmpty then
      .error (.invalidConfiguration "at least one provider public key is required")
    else
      let keys ← encodedKeys.mapM fun entry => do
        validateKeyId entry.1
        let key ← okOr (fromEdPem entry.2)
          (AuthError.invalidConfiguration "provider public key is invalid")
        pure (entry.1, key)
      pure { issuer, audience, keys, clockSkewSeconds := 5 }

namespace ProviderAuthenticator
variable (jwt : Jsonwebtoken Key) (self : ProviderAuthenticator Key)

def validation : Validation where
  algorithm := .edDsa
  issuer := [self.issuer]
  audience := [self.audience]
  requiredSpecClaims := ["exp", "iat", "nbf", "iss", "aud", "sub", "jti"]
  leeway := self.clockSkewSeconds
  validateExp := true
  validateNbf := true

/-- the checks of the decoded claims; `now` is the clock read after the decoding -/
def checkClaims (claims : TokenClaims) (expectedAction : String) (now : Int64) :
    Except AuthError TokenClaims :=
  if claims.action ≠ expectedAction ∨ claims.generation ≤ 0 then
    .error .invalidProviderCommand
  else if claims.subject.isNil || claims.jwtId.isNil || !claims.scope.validate.isOk then
    .error .invalidProviderScope
  else if claims.expiresAt ≤ claims.issuedAt ∨
      providerMaxTokenTtlSeconds < saturatingSubI64 claims.expiresAt claims.issuedAt ∨
      checkedSubI64 claims.issuedAt providerNotBeforeOffsetSeconds ≠ some claims.notBefore then
    .error .tokenLifetimeExceeded
  -- the conversion of the skew to `i64`
  else if ¬self.clockSkewSeconds.toNat < 2 ^ 63 then
    .error (.invalidConfiguration "provider clock skew is invalid")
  else if saturatingAddI64 now self.clockSkewSeconds.toInt64 < claims.issuedAt then
    .error .invalidToken
  else .ok claims

/-- `decodedAt` is what the decoder's clock shows, `now` what `Utc::now` shows after it -/
def verifyTokenForAction (token expectedAction : String) (decodedAt : Int) (now : Int64) :
    Except AuthError TokenClaims := do
  if expectedAction.isEmpty then
    .error (.invalidConfiguration "expected provider action is required")
  else
    let header ← okOr (jwt.decodeHeader token) .invalidToken
    if header.alg ≠ .edDsa then .error .invalidToken
    else
      let keyId ← okOr header.kid .missingKeyId
      let key ← okOr (self.keys.lookup keyId) .unknownKeyId
      let claims ← okOr (jwt.decode token key self.validation decodedAt) .invalidToken
      self.checkClaims claims expectedAction now

end ProviderAuthenticator
end

/-! ## the principal's headers -/

/-- `std::time::Duration` -/
structure Duration where
  secs : UInt64
  nanos : Fin 1000000000
  deriving DecidableEq

def Duration.isZero (d : Duration) : Bool := d.secs == 0 && d.nanos == 0
def Duration.fromSecs (secs : UInt64) : Duration := ⟨secs, 0⟩
def Duration.fromMins (mins : UInt64) : Duration := ⟨mins * 60, 0⟩
def Duration.asSecs (d : Duration) : UInt64 := d.secs

/-- the length in nanoseconds -/
def Duration.toNanos (d : Duration) : Nat := d.secs.toNat * 1000000000 + d.nanos

/-- the derived order: seconds first -/
def Duration.lt (a b : Duration) : Bool := a.secs < b.secs || (a.secs == b.secs && a.nanos < b.nanos)

structure SignedPrincipal where
  issuer : String
  audience : String
  scope : ServiceScope
  principalId : Uuid
  permissions : List String
  credentialLimits : CredentialLimits
  issuedAt : UInt64
  expiresAt : UInt64
  contextId : Uuid

/-- the principal of a request with the lifetime of its context -/
structure AuthenticatedPrincipal extends Principal where
  issuedAt : Timestamp
  expiresAt : Timestamp
  deriving DecidableEq

/-- the headers the authenticator reads; a value that is not visible ASCII has no text -/
structure PrincipalHeaders where
  principal : Option (Option String)
  timestamp : Option (Option String)
  signature : Option (Option String)

/-- the crates the authenticator uses -/
structure PrincipalCrates where
  /-- the HMAC-SHA256 of a message; `none` if the secret is refused -/
  hmac : List UInt8 → List UInt8 → Option (List UInt8)
  /-- `URL_SAFE_NO_PAD.decode` -/
  base64Decode : String → Option (List UInt8)
  /-- `serde_json::from_slice` -/
  fromSlice : List UInt8 → Option SignedPrincipal
  /-- `Utc.timestamp_opt(seconds, 0).single()` -/
  timestampOpt : Int64 → Option Timestamp

structure PrincipalAuthenticator where
  issuer : String
  audience : String
  secret : List UInt8
  maxTtl : Duration
  clockSkew : Duration

/-- `str::parse::<u64>` -/
def parseU64 (text : String) : Option UInt64 :=
  let digits := match text.toList with
    | '+' :: rest => rest
    | chars => chars
  if digits.isEmpty || !digits.all (fun c => '0' ≤ c && c ≤ '9') then none
  else
    let value := digits.foldl (fun n c => n * 10 + (c.toNat - '0'.toNat)) 0
    if value < 2 ^ 64 then some (UInt64.ofNat value) else none

def requiredHeader : Option (Option String) → Except PrincipalAuthError String
  | none => .error .missingCredentials
  | some none => .error .invalidHeader
  | some (some text) => .ok text

/-- the conversion of seconds since the epoch -/
def principalTimestamp (crates : PrincipalCrates) (value : UInt64) :
    Except PrincipalAuthError Timestamp :=
  if value.toNat < 2 ^ 63 then okOr (crates.timestampOpt value.toInt64) .invalidPrincipal
  else .error .invalidPrincipal

namespace PrincipalAuthenticator

def new (issuer audience : String) (secret : List UInt8) (maxTtl : Duration) :
    Except PrincipalAuthError PrincipalAuthenticator :=
  if issuer.isEmpty || audience.isEmpty then
    .error (.invalidConfiguration "principal issuer and audience are required")
  else if secret.length < 32 then
    .error (.invalidConfiguration "principal HMAC secret must contain at least 32 bytes")
  else if maxTtl.isZero || (Duration.fromMins 5).lt maxTtl then
    .error (.invalidConfiguration "principal maximum TTL must be between one and 300 seconds")
  else .ok { issuer, audience, secret, maxTtl, clockSkew := .fromSecs 15 }

variable (crates : PrincipalCrates) (self : PrincipalAuthenticator)

/-- the signed context of the headers, once its signature and its names have been checked -/
def signedPrincipal (headers : PrincipalHeaders) : Except PrincipalAuthError SignedPrincipal := do
  let encoded ← requiredHeader headers.principal
  let timestampText ← requiredHeader headers.timestamp
  let signatureText ← requiredHeader headers.signature
  let signedAt ← okOr (parseU64 timestampText) .invalidHeader
  let mac ← okOr (crates.hmac self.secret (asBytes timestampText ++ asBytes "." ++ asBytes encoded))
    (.invalidConfiguration "HMAC secret is invalid")
  let signature ← okOr (crates.base64Decode signatureText) .invalidSignature
  if signature ≠ mac then .error .invalidSignature
  else
    let serialized ← okOr (crates.base64Decode encoded) .invalidPrincipal
    let signed ← okOr (crates.fromSlice serialized) .invalidPrincipal
    if signedAt ≠ signed.issuedAt ∨ signed.issuer ≠ self.issuer ∨ signed.audience ≠ self.audience
    then .error .invalidPrincipal
    else pure signed

/-- whether the lifetime of the context is refused; the plain subtraction stands behind the
comparison, and `none` is its overflow -/
def lifetimeRefused (signed : SignedPrincipal) : Option Bool :=
  if signed.expiresAt ≤ signed.issuedAt then some true
  else do
    let lifetime ← checkedSubU64 signed.expiresAt signed.issuedAt
    return decide (self.maxTtl.asSecs < lifetime)

/-- the checks against the clock and the ids -/
def acceptContext (signed : SignedPrincipal) (now : Int64) :
    Except PrincipalAuthError AuthenticatedPrincipal := do
  if now < 0 then .error .invalidPrincipal
  else
    let now := now.toUInt64
    if saturatingAdd now self.clockSkew.asSecs < signed.issuedAt ∨
        saturatingAdd signed.expiresAt self.clockSkew.asSecs ≤ now then
      .error .expired
    else
      signed.scope.validate.mapError fun _ => PrincipalAuthError.invalidPrincipal
      if signed.principalId.isNil || signed.contextId.isNil then .error .invalidPrincipal
      else
        let issuedAt ← principalTimestamp crates signed.issuedAt
        let expiresAt ← principalTimestamp crates signed.expiresAt
        pure
          { scope := signed.scope
            principalId := signed.principalId
            permissions := signed.permissions
            credentialLimits := signed.credentialLimits
            contextId := signed.contextId
            issuedAt
            expiresAt }

def authenticate (headers : PrincipalHeaders) (now : Int64) :
    Option (Except PrincipalAuthError AuthenticatedPrincipal) :=
  match self.signedPrincipal crates headers with
  | .error error => some (.error error)
  | .ok signed => do
    if ← self.lifetimeRefused signed then return .error .invalidLifetime
    return self.acceptContext crates signed now

end PrincipalAuthenticator

/-! ## what acceptance says -/

section
variable {Key : Type} {jwt : Jsonwebtoken Key} {provider : ProviderAuthenticator Key}

/-- the lifetime of an accepted token, over the unbounded integers -/
structure TokenClaims.Bounded (claims : TokenClaims) (now : Int) : Prop where
  positive : 0 < claims.expiresAt.toInt - claims.issuedAt.toInt
  short : claims.expiresAt.toInt - claims.issuedAt.toInt ≤ 60
  notBefore : claims.notBefore.toInt = claims.issuedAt.toInt - 5
  issued : claims.issuedAt.toInt ≤ now + 5

theorem ProviderAuthenticator.fromPublicKeysJson_skew
    {parse : String → Option (List (String × String))} {fromEdPem : String → Option Key}
    {issuer audience json : String}
    (h : fromPublicKeysJson parse fromEdPem issuer audience json = .ok provider) :
    provider.clockSkewSeconds = 5 := by
  unfold fromPublicKeysJson at h
  split at h
  · cases h
  · obtain ⟨keys, -, h⟩ := except_bind_eq_ok.mp h
    split at h
    · cases h
    · obtain ⟨_, -, h⟩ := except_bind_eq_ok.mp h
      exact (Except.ok.inj h) ▸ rfl

theorem ProviderAuthenticator.checkClaims_eq_ok {claims claims' : TokenClaims} {action : String}
    {now : Int64} (hskew : provider.clockSkewSeconds = 5)
    (h : provider.checkClaims claims action now = .ok claims') :
    claims' = claims ∧ claims.Bounded now.toInt := by
  unfold checkClaims at h
  split_ifs at h with _ _ hlife _ hissued
  obtain rfl := Except.ok.inj h
  simp only [not_or, Int64.not_le, Int64.not_lt, not_not] at hlife hissued
  obtain ⟨hpos, hshort, hnbf⟩ := hlife
  rw [hskew] at hissued
  refine ⟨rfl, ?_, ?_, checkedSubI64_eq_some hnbf, le_of_le_saturatingAddI64 hissued (by decide)⟩
  · have := Int64.lt_iff_toInt_lt.mp hpos
    omega
  · exact sub_le_of_saturatingSubI64_le hshort (by decide)

/-- **an accepted token** was decoded from itself and has a bounded lifetime -/
theorem ProviderAuthenticator.verified {token action : String} {decodedAt : Int} {now : Int64}
    {claims : TokenClaims} (hskew : provider.clockSkewSeconds = 5)
    (h : provider.verifyTokenForAction jwt token action decodedAt now = .ok claims) :
    claims.Bounded now.toInt ∧
      ∃ key, jwt.decode token key provider.validation decodedAt = some claims := by
  unfold verifyTokenForAction at h
  split at h
  · cases h
  · obtain ⟨header, -, h⟩ := except_bind_eq_ok.mp h
    split at h
    · cases h
    · obtain ⟨keyId, -, h⟩ := except_bind_eq_ok.mp h
      obtain ⟨key, -, h⟩ := except_bind_eq_ok.mp h
      obtain ⟨claims', hdecode, h⟩ := except_bind_eq_ok.mp h
      obtain ⟨rfl, hbounded⟩ := checkClaims_eq_ok hskew h
      exact ⟨hbounded, key, okOr_eq_ok.mp hdecode⟩

/-- the decoding of one acceptance is at most 70 seconds after the check of another -/
theorem ProviderAuthenticator.verified_window (hjwt : jwt.Documented) {token action action' : String}
    {decodedAt decodedAt' : Int} {now now' : Int64} {claims claims' : TokenClaims}
    (hskew : provider.clockSkewSeconds = 5)
    (h : provider.verifyTokenForAction jwt token action decodedAt now = .ok claims)
    (h' : provider.verifyTokenForAction jwt token action' decodedAt' now' = .ok claims') :
    decodedAt' - now.toInt ≤ 70 := by
  obtain ⟨hbounded, key, hdecode⟩ := verified hskew h
  obtain ⟨-, key', hdecode'⟩ := verified hskew h'
  obtain rfl := hjwt.payload hdecode hdecode'
  have hexp := hjwt.expires hdecode' rfl
  have hleeway : provider.validation.leeway.toNat = 5 := congrArg UInt64.toNat hskew
  have hshort := hbounded.short
  have hissued := hbounded.issued
  omega

end

section
variable {crates : PrincipalCrates} {self : PrincipalAuthenticator}

/-- the lifetime of an accepted context, over the unbounded integers -/
structure SignedPrincipal.Bounded (signed : SignedPrincipal) (maxTtl : Duration) (now : Int) :
    Prop where
  positive : 0 < (signed.expiresAt.toNat : Int) - signed.issuedAt.toNat
  short : ((signed.expiresAt.toNat : Int) - signed.issuedAt.toNat) * 1000000000 ≤ maxTtl.toNanos
  issued : (signed.issuedAt.toNat : Int) - 15 ≤ now
  unexpired : now < (signed.expiresAt.toNat : Int) + 15

theorem saturatingAdd_le (a b : UInt64) : (saturatingAdd a b).toNat ≤ a.toNat + b.toNat := by
  unfold saturatingAdd
  split
  · rw [UInt64.toNat_add]
    exact Nat.mod_le _ _
  · rename_i hlarge
    exact Nat.le_of_lt_succ (lt_of_lt_of_le (by decide) (Nat.succ_le_succ (Nat.not_lt.mp hlarge)))

theorem PrincipalAuthenticator.new_eq_ok {issuer audience : String} {secret : List UInt8}
    {maxTtl : Duration} (h : new issuer audience secret maxTtl = .ok self) :
    self.maxTtl = maxTtl ∧ self.clockSkew.asSecs = 15 := by
  unfold new at h
  split_ifs at h
  obtain rfl := Except.ok.inj h
  exact ⟨rfl, rfl⟩

/-- the subtraction is only reached when it fits -/
theorem PrincipalAuthenticator.lifetimeRefused_total (self : PrincipalAuthenticator)
    (signed : SignedPrincipal) :
    ∃ refused, self.lifetimeRefused signed = some refused ∧
      (refused = false → signed.issuedAt < signed.expiresAt ∧
        signed.expiresAt.toNat - signed.issuedAt.toNat ≤ self.maxTtl.asSecs.toNat) := by
  unfold lifetimeRefused
  split
  · exact ⟨true, rfl, nofun⟩
  · rename_i hlt
    have hlt : signed.issuedAt < signed.expiresAt := UInt64.not_le.mp hlt
    obtain ⟨lifetime, hsub, heq⟩ := checkedSubU64_of_le (UInt64.le_of_lt hlt)
    refine ⟨_, by rw [hsub]; rfl, fun hok => ⟨hlt, ?_⟩⟩
    have hle : ¬self.maxTtl.asSecs < lifetime := by simpa using hok
    rw [← heq]
    exact UInt64.le_iff_toNat_le.mp (UInt64.not_lt.mp hle)

theorem PrincipalAuthenticator.authenticate_ne_none (crates : PrincipalCrates)
    (self : PrincipalAuthenticator) (headers : PrincipalHeaders) (now : Int64) :
    self.authenticate crates headers now ≠ none := by
  unfold authenticate
  split
  · exact Option.some_ne_none _
  · rename_i signed _
    obtain ⟨refused, hrefused, -⟩ := self.lifetimeRefused_total signed
    rw [hrefused]
    cases refused <;> exact Option.some_ne_none _

theorem PrincipalAuthenticator.acceptContext_eq_ok {signed : SignedPrincipal} {now : Int64}
    {principal : AuthenticatedPrincipal} (hskew : self.clockSkew.asSecs = 15)
    (h : self.acceptContext crates signed now = .ok principal) :
    (signed.issuedAt.toNat : Int) - 15 ≤ now.toInt ∧
      now.toInt < (signed.expiresAt.toNat : Int) + 15 := by
  unfold acceptContext at h
  by_cases hneg : now < 0
  · rw [if_pos hneg] at h
    cases h
  rw [if_neg hneg] at h
  by_cases hexpired : saturatingAdd now.toUInt64 self.clockSkew.asSecs < signed.issuedAt ∨
      saturatingAdd signed.expiresAt self.clockSkew.asSecs ≤ now.toUInt64
  · dsimp only at h
    rw [if_pos hexpired] at h
    cases h
  simp only [not_or, UInt64.not_lt, UInt64.not_le, hskew] at hexpired
  obtain ⟨hissued, hunexpired⟩ := hexpired
  have hnow : (now.toUInt64.toNat : Int) = now.toInt := toNat_toUInt64 (Int64.not_lt.mp hneg)
  have h1 := (UInt64.le_iff_toNat_le.mp hissued).trans (saturatingAdd_le _ _)
  have h2 := lt_of_lt_of_le (UInt64.lt_iff_toNat_lt.mp hunexpired) (saturatingAdd_le _ _)
  have h15 : (15 : UInt64).toNat = 15 := rfl
  rw [h15] at h1 h2
  omega

/-- **accepted headers** carry a context whose lifetime is bounded and includes the clock -/
theorem PrincipalAuthenticator.authenticated {headers : PrincipalHeaders} {now : Int64}
    {principal : AuthenticatedPrincipal} (hskew : self.clockSkew.asSecs = 15)
    (h : self.authenticate crates headers now = some (.ok principal)) :
    ∃ signed, self.signedPrincipal crates headers = .ok signed ∧
      signed.Bounded self.maxTtl now.toInt := by
  unfold authenticate at h
  split at h
  · cases h
  · rename_i signed hsigned
    obtain ⟨refused, hrefused, hlife⟩ := self.lifetimeRefused_total signed
    rw [hrefused] at h
    cases refused with
    | true => cases h
    | false =>
      obtain ⟨hlt, hle⟩ := hlife rfl
      have hlt := UInt64.lt_iff_toNat_lt.mp hlt
      obtain ⟨hissued, hunexpired⟩ := acceptContext_eq_ok hskew (Option.some.inj h)
      refine ⟨signed, hsigned, by omega, ?_, hissued, hunexpired⟩
      simp only [Duration.toNanos, Duration.asSecs] at hle ⊢
      omega

end

/-! ## the windows -/

/-- **both authenticators admit only inside a bounded window.**  The readings of the decoder's
clock and of `Utc::now` of one verification are kept apart; the last part of each half is about
two acceptances of the same token, or of the same headers. -/
theorem authenticators_bounded {Key : Type} {jwt : Jsonwebtoken Key} (hjwt : jwt.Documented)
    {parse : String → Option (List (String × String))} {fromEdPem : String → Option Key}
    {issuer audience json : String} {provider : ProviderAuthenticator Key}
    (hprovider : ProviderAuthenticator.fromPublicKeysJson parse fromEdPem issuer audience json =
      .ok provider)
    (crates : PrincipalCrates) {issuer' audience' : String} {secret : List UInt8}
    {maxTtl : Duration} {principals : PrincipalAuthenticator}
    (hprincipals : PrincipalAuthenticator.new issuer' audience' secret maxTtl = .ok principals) :
    (∀ token action decodedAt now claims,
      provider.verifyTokenForAction jwt token action decodedAt now = .ok claims →
        claims.Bounded now.toInt ∧
        ∀ action' decodedAt' now' claims',
          provider.verifyTokenForAction jwt token action' decodedAt' now' = .ok claims' →
          decodedAt' - now.toInt ≤ 70 ∧
          (decodedAt = now.toInt → decodedAt' = now'.toInt → |now.toInt - now'.toInt| ≤ 70)) ∧
    ∀ headers now, principals.authenticate crates headers now ≠ none ∧
      ∀ principal, principals.authenticate crates headers now = some (.ok principal) →
        (∃ signed, principals.signedPrincipal crates headers = .ok signed ∧
          signed.Bounded maxTtl now.toInt) ∧
        ∀ now' principal', principals.authenticate crates headers now' = some (.ok principal') →
          |now.toInt - now'.toInt| * 1000000000 < maxTtl.toNanos + 30 * 1000000000 := by
  have hskew := ProviderAuthenticator.fromPublicKeysJson_skew hprovider
  obtain ⟨rfl, hskew'⟩ := PrincipalAuthenticator.new_eq_ok hprincipals
  constructor
  · intro token action decodedAt now claims h
    refine ⟨(ProviderAuthenticator.verified hskew h).1, ?_⟩
    intro action' decodedAt' now' claims' h'
    have hlate := ProviderAuthenticator.verified_window hjwt hskew h h'
    have hearly := ProviderAuthenticator.verified_window hjwt hskew h' h
    refine ⟨hlate, ?_⟩
    rintro rfl rfl
    rw [abs_le]
    omega
  · intro headers now
    refine ⟨principals.authenticate_ne_none crates headers now, ?_⟩
    intro principal h
    obtain ⟨signed, hsigned, hbounded⟩ := PrincipalAuthenticator.authenticated hskew' h
    refine ⟨⟨signed, hsigned, hbounded⟩, ?_⟩
    intro now' principal' h'
    obtain ⟨signed', hsigned', hbounded'⟩ := PrincipalAuthenticator.authenticated hskew' h'
    obtain rfl : signed = signed' := Except.ok.inj (hsigned ▸ hsigned')
    obtain ⟨-, hshort, hissued, hunexpired⟩ := hbounded
    obtain ⟨-, -, hissued', hunexpired'⟩ := hbounded'
    have hdiff : |now.toInt - now'.toInt| <
        (signed.expiresAt.toNat : Int) - signed.issuedAt.toNat + 30 := by
      rw [abs_lt]
      omega
    omega

/-- a decoder for which every token carries the same claims -/
def Jsonwebtoken.carrying (claims : TokenClaims) : Jsonwebtoken Unit where
  decodeHeader _ := some ⟨.edDsa, some "provider-1"⟩
  decode _ _ validation now :=
    if claims.notBefore.toInt - validation.leeway.toNat ≤ now ∧
        now ≤ claims.expiresAt.toInt + validation.leeway.toNat then some claims
    else none

theorem Jsonwebtoken.carrying_documented (claims : TokenClaims) :
    (Jsonwebtoken.carrying claims).Documented where
  payload h h' := by
    simp only [carrying, Option.ite_none_right_eq_some] at h h'
    exact (Option.some.inj h.2).symm.trans (Option.some.inj h'.2)
  notBefore h _ := by
    simp only [carrying, Option.ite_none_right_eq_some] at h
    rw [← Option.some.inj h.2]
    exact h.1.1
  expires h _ := by
    simp only [carrying, Option.ite_none_right_eq_some] at h
    rw [← Option.some.inj h.2]
    exact h.1.2

/-- crates that accept every signature and read the same context out of every text -/
def PrincipalCrates.carrying (signed : SignedPrincipal) : PrincipalCrates where
  hmac _ _ := some []
  base64Decode _ := some []
  fromSlice _ := some signed
  timestampOpt value := some (seconds value.toInt)

/-- a token of 60 seconds issued at 1000 and a context of 300 seconds issued at 1000, both used at
1020 -/
theorem authenticators_bounded_used :
    let claims : TokenClaims :=
      { subject := 1, organizationId := 1, projectId := 1, serviceInstanceId := 1, generation := 1,
        jwtId := 1, issuer := "issuer", audience := "audience", action := "a", issuedAt := 1000,
        notBefore := 995, expiresAt := 1060 }
    let signed : SignedPrincipal :=
      { issuer := "issuer", audience := "audience", scope := ⟨1, 1, 1⟩, principalId := 1,
        permissions := [], credentialLimits := ⟨1, 1⟩, issuedAt := 1000, expiresAt := 1300,
        contextId := 1 }
    (∃ provider, ProviderAuthenticator.fromPublicKeysJson (fun _ => some [("provider-1", "")])
        (fun _ => some ()) "issuer" "audience" "" = .ok provider ∧
      provider.verifyTokenForAction (.carrying claims) "t" "a" 1020 1020 = .ok claims ∧
      claims.Bounded 1020) ∧
    ∃ principals, PrincipalAuthenticator.new "issuer" "audience" (List.replicate 32 0) ⟨300, 0⟩ =
        .ok principals ∧
      (∃ principal, principals.authenticate (.carrying signed)
        ⟨some (some ""), some (some "1000"), some (some "")⟩ 1020 = some (.ok principal)) ∧
      signed.Bounded ⟨300, 0⟩ 1020 := by
  intro claims signed
  have hprovider : ProviderAuthenticator.fromPublicKeysJson
      (fun _ => some [("provider-1", "")]) (fun _ => some ()) "issuer" "audience" "" =
        .ok ⟨"issuer", "audience", [("provider-1", ())], 5⟩ := rfl
  have hprincipals : PrincipalAuthenticator.new "issuer" "audience" (List.replicate 32 0)
      ⟨300, 0⟩ = .ok ⟨"issuer", "audience", List.replicate 32 0, ⟨300, 0⟩, ⟨15, 0⟩⟩ := rfl
  have hbounded := authenticators_bounded (Jsonwebtoken.carrying_documented claims) hprovider
    (.carrying signed) hprincipals
  have hverified : ProviderAuthenticator.verifyTokenForAction (.carrying claims)
      ⟨"issuer", "audience", [("provider-1", ())], 5⟩ "t" "a" 1020 1020 = .ok claims := by
    decide +kernel
  have hauthenticated : PrincipalAuthenticator.authenticate (.carrying signed)
      ⟨"issuer", "audience", List.replicate 32 0, ⟨300, 0⟩, ⟨15, 0⟩⟩
      ⟨some (some ""), some (some "1000"), some (some "")⟩ 1020 =
        some (.ok
          { scope := ⟨1, 1, 1⟩, principalId := 1, permissions := [], credentialLimits := ⟨1, 1⟩,
            contextId := 1, issuedAt := seconds 1000, expiresAt := seconds 1300 }) := by
    decide +kernel
  refine ⟨⟨_, hprovider, hverified, (hbounded.1 "t" "a" 1020 1020 claims hverified).1⟩, _,
    hprincipals, ⟨_, hauthenticated⟩, ?_⟩
  obtain ⟨signed', hsigned, h⟩ := ((hbounded.2 _ 1020).2 _ hauthenticated).1
  obtain rfl : signed = signed' := Except.ok.inj hsigned
  exact h

end Syouyu
