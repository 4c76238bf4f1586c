import Syouyu.Base
import Syouyu.Lib.Tx

/-!
# The domain crate: specs, permissions and their validation

`SyouyuSpec` is the desired state of one service instance (one bucket), `CredentialSpec` that of
one access key.  The validators return the first rule that fails, with its field and text.

* `SyouyuSpec.toValue`, `SyouyuSpec.fromValue`   the serde encoding kept in `desired_spec`,
                       `SyouyuSpec.fromValue_toValue`;
* `BucketPermissions.toValue`, `BucketPermissions.fromValue`   likewise for `permissions`;
* `SyouyuSpec.validate_eq_ok`   what a valid spec promises about its region and quotas.
-/

namespace Syouyu
open Lib

def maxRegionLength : Nat := 63
def minBucketNameLength : Nat := 3
def maxBucketNameLength : Nat := 63
def maxCredentialNameLength : Nat := 128
/-- `i64::MAX as u64` -/
def maxGarageQuota : UInt64 := 9223372036854775807

def reservedBucketPrefixes : List String := ["xn--", "sthree-", "amzn-s3-demo-"]
def reservedBucketSuffixes : List String :=
  ["-s3alias", "--ol-s3", ".mrap", "--x-s3", "--table-s3", "-an"]

inductive ValidationError where
  | invalidLength (field : String) (minimum maximum actual : Nat)
  | outOfRange (field : String) (minimum maximum actual : UInt64)
  | invalidField (field reason : String)
  | invalidState (reason : String)
  deriving DecidableEq, Repr

/-! ## data -/

structure BucketQuota where
  bytes : UInt64
  objects : UInt64
  deriving DecidableEq, Repr

structure SyouyuSpec where
  region : String
  bucketName : String
  quotaBytes : UInt64
  quotaObjects : UInt64
  deriving DecidableEq, Repr

def SyouyuSpec.quota (spec : SyouyuSpec) : BucketQuota := ⟨spec.quotaBytes, spec.quotaObjects⟩

structure BucketPermissions where
  read : Bool
  write : Bool
  deriving DecidableEq, Repr

structure CredentialSpec where
  name : String
  permissions : BucketPermissions
  deriving DecidableEq, Repr

inductive BucketPhase where
  | provisioning
  | ready
  | degraded
  | error
  | deleting
  | deleted
  deriving DecidableEq, Repr

def BucketPhase.toString : BucketPhase → String
  | .provisioning => "provisioning"
  | .ready => "ready"
  | .degraded => "degraded"
  | .error => "error"
  | .deleting => "deleting"
  | .deleted => "deleted"

structure BucketUsage where
  bytes : UInt64
  objects : UInt64
  unfinishedUploadBytes : UInt64
  unfinishedUploads : UInt64
  deriving DecidableEq, Repr

/-- `BucketUsage::default` -/
def BucketUsage.default : BucketUsage := ⟨0, 0, 0, 0⟩

/-! ## validation -/

def ensureQuota (field : String) (value : UInt64) : Except ValidationError Unit :=
  if 1 ≤ value ∧ value ≤ maxGarageQuota then .ok ()
  else .error (.outOfRange field 1 maxGarageQuota value)

def validateIdentifier (field value : String) (maximum : Nat) : Except ValidationError Unit :=
  if value.isEmpty || decide (maximum < len value) then
    .error (.invalidLength field 1 maximum (len value))
  else if value.toList.any isControl then
    .error (.invalidField field "control characters are not allowed")
  else .ok ()

def validateHumanName (field value : String) (maximum : Nat) : Except ValidationError Unit := do
  validateIdentifier field value maximum
  if trim value ≠ value then
    .error (.invalidField field "leading or trailing whitespace is not allowed")
  else .ok ()

/-- lower-case letters, digits and the listed extra bytes, alphanumeric at both ends -/
def wellFormedLabel (extra : UInt8 → Bool) (bytes : List UInt8) : Bool :=
  (bytes.head?.any isAsciiAlphanumeric) && (bytes.getLast?.any isAsciiAlphanumeric) &&
    bytes.all fun b => isAsciiLowercase b || isAsciiDigit b || extra b

def validateRegion (value : String) : Except ValidationError Unit := do
  validateIdentifier "region" value maxRegionLength
  if !wellFormedLabel (fun b => b == 45) (asBytes value) then
    .error (.invalidField "region"
      "region must use lowercase letters, digits, and internal hyphens")
  else .ok ()

/-- one octet of a dotted address: one to three digits, no leading zero, at most 255 -/
def isIpv4Octet (part : List Char) : Bool :=
  (part.length == 1 || (part.length ≤ 3 && part.head? != some '0')) && !part.isEmpty &&
    part.all (fun c => '0' ≤ c && c ≤ '9') &&
    decide (part.foldl (fun n c => n * 10 + (c.toNat - '0'.toNat)) 0 ≤ 255)

/-- `value.parse::<Ipv4Addr>().is_ok()` -/
def parsesAsIpv4 (value : String) : Bool :=
  let parts := value.toList.splitOn '.'
  parts.length == 4 && parts.all isIpv4Octet

def validateBucketName (value : String) : Except ValidationError Unit :=
  let length := len value
  if ¬(minBucketNameLength ≤ length ∧ length ≤ maxBucketNameLength) then
    .error (.invalidLength "bucket_name" minBucketNameLength maxBucketNameLength length)
  else if !wellFormedLabel (fun b => b == 46 || b == 45) (asBytes value) ||
      decide (['.', '.'] <:+: value.toList) || parsesAsIpv4 value then
    .error (.invalidField "bucket_name"
      "bucket name is not a valid S3 general-purpose bucket name")
  else if reservedBucketPrefixes.any (fun p => p.toList.isPrefixOf value.toList) ||
      reservedBucketSuffixes.any (fun s => s.toList.isSuffixOf value.toList) then
    .error (.invalidField "bucket_name" "bucket name uses an S3-reserved prefix or suffix")
  else .ok ()

def BucketQuota.validate (quota : BucketQuota) : Except ValidationError Unit := do
  ensureQuota "quota_bytes" quota.bytes
  ensureQuota "quota_objects" quota.objects

def SyouyuSpec.validate (spec : SyouyuSpec) : Except ValidationError Unit := do
  validateRegion spec.region
  validateBucketName spec.bucketName
  spec.quota.validate

def BucketPermissions.validate (p : BucketPermissions) : Except ValidationError Unit :=
  if p.read || p.write then .ok ()
  else .error (.invalidField "permissions" "at least one bucket permission is required")

def CredentialSpec.validate (spec : CredentialSpec) : Except ValidationError Unit := do
  validateHumanName "credential_name" spec.name maxCredentialNameLength
  spec.permissions.validate

/-! ## what validation promises -/

theorem validateIdentifier_eq_ok {field value : String} {maximum : Nat}
    (h : validateIdentifier field value maximum = .ok ()) :
    value.isEmpty = false ∧ len value ≤ maximum := by
  unfold validateIdentifier at h
  split at h
  · cases h
  · rename_i hlen
    simpa using hlen

/-- a valid identifier can be stored: U+0000 is a control character -/
theorem validateIdentifier_storable {field value : String} {maximum : Nat}
    (h : validateIdentifier field value maximum = .ok ()) : textStorable value = true := by
  unfold validateIdentifier at h
  split at h
  · cases h
  · split at h
    · cases h
    · rename_i hcontrol
      have hmem : '\x00' ∉ value.toList := fun hc =>
        hcontrol (List.any_eq_true.mpr ⟨_, hc, by decide⟩)
      simpa [textStorable] using hmem

theorem CredentialSpec.validate_storable {spec : CredentialSpec} (h : spec.validate = .ok ()) :
    textStorable spec.name = true := by
  obtain ⟨_, hname, -⟩ := except_bind_eq_ok.mp h
  obtain ⟨_, hid, -⟩ := except_bind_eq_ok.mp hname
  exact validateIdentifier_storable hid

/-- a byte that is neither allowed by itself nor alphanumeric is in no well-formed label -/
theorem wellFormedLabel_zero {extra : UInt8 → Bool} {bytes : List UInt8}
    (h : wellFormedLabel extra bytes = true) (hextra : extra 0 = false) : (0 : UInt8) ∉ bytes := by
  intro hmem
  simp only [wellFormedLabel, Bool.and_eq_true, List.all_eq_true] at h
  have hzero := h.2 0 hmem
  rw [hextra] at hzero
  exact absurd hzero (by decide)

/-- a valid region fits its column -/
theorem validateRegion_stores {region : String} (h : validateRegion region = .ok ()) :
    textBetween 1 64 region = true := by
  obtain ⟨_, hid, h⟩ := except_bind_eq_ok.mp h
  obtain ⟨hempty, hlen⟩ := validateIdentifier_eq_ok hid
  split at h
  · cases h
  · rename_i hlabel
    have hstore : textStorable region = true :=
      textStorable_of_bytes (wellFormedLabel_zero (by simpa using hlabel) rfl)
    have hle : region.length ≤ 64 :=
      (length_le_len region).trans (hlen.trans (by decide))
    simp only [textBetween, hstore, nonempty_length hempty, hle, decide_true, Bool.and_self]

/-- a well-formed label is ASCII if its extra bytes are -/
theorem wellFormedLabel_ascii {extra : UInt8 → Bool} {bytes : List UInt8}
    (h : wellFormedLabel extra bytes = true) (hextra : ∀ b, extra b = true → b.toNat < 128) :
    ∀ b ∈ bytes, b.toNat < 128 := by
  intro b hb
  simp only [wellFormedLabel, Bool.and_eq_true, List.all_eq_true] at h
  have hbyte := h.2 b hb
  simp only [isAsciiLowercase, isAsciiDigit, Bool.or_eq_true, Bool.and_eq_true,
    decide_eq_true_eq, UInt8.le_iff_toNat_le] at hbyte
  rcases hbyte with (⟨-, hle⟩ | ⟨-, hle⟩) | hmore
  · exact lt_of_le_of_lt hle (by decide)
  · exact lt_of_le_of_lt hle (by decide)
  · exact hextra b hmore

/-- a valid bucket name fits its columns: it is ASCII, so it has as many characters as bytes -/
theorem validateBucketName_stores {name : String} (h : validateBucketName name = .ok ()) :
    textBetween 3 63 name = true := by
  simp only [validateBucketName] at h
  split at h
  · cases h
  rename_i hlen
  split at h
  · cases h
  rename_i hform
  simp only [Bool.or_eq_true, not_or, Bool.not_eq_true', Bool.not_eq_false] at hform
  push Not at hlen
  obtain ⟨⟨hlabel, -⟩, -⟩ := hform
  have hstore : textStorable name = true :=
    textStorable_of_bytes (wellFormedLabel_zero hlabel rfl)
  have hascii : ∀ b ∈ asBytes name, b.toNat < 128 := by
    refine wellFormedLabel_ascii hlabel fun b hb => ?_
    simp only [Bool.or_eq_true, beq_iff_eq] at hb
    rcases hb with rfl | rfl
    · decide
    · decide
  have hlength : name.length = len name := by
    rw [← length_asBytes, (asBytes_ascii hascii).2, List.length_map]
    rfl
  have hlo : 3 ≤ name.length := hlength ▸ hlen.1
  have hhi : name.length ≤ 63 := hlength ▸ hlen.2
  simp only [textBetween, hstore, hlo, hhi, decide_true, Bool.and_self]

theorem ensureQuota_eq_ok {field : String} {value : UInt64}
    (h : ensureQuota field value = .ok ()) : 1 ≤ value ∧ value ≤ maxGarageQuota := by
  unfold ensureQuota at h
  split at h
  · assumption
  · cases h

/-- **a valid spec** has a region that fits its column and positive quotas up to `i64::MAX` -/
theorem SyouyuSpec.validate_eq_ok {spec : SyouyuSpec} (h : spec.validate = .ok ()) :
    textBetween 1 64 spec.region = true ∧
      (1 ≤ spec.quotaBytes ∧ spec.quotaBytes ≤ maxGarageQuota) ∧
      1 ≤ spec.quotaObjects ∧ spec.quotaObjects ≤ maxGarageQuota := by
  obtain ⟨_, hregion, h⟩ := except_bind_eq_ok.mp h
  obtain ⟨_, -, h⟩ := except_bind_eq_ok.mp h
  obtain ⟨_, hbytes, hobjects⟩ := except_bind_eq_ok.mp h
  exact ⟨validateRegion_stores hregion, ensureQuota_eq_ok hbytes, ensureQuota_eq_ok hobjects⟩

/-! ## encodings -/

/-- the fields of a JSON object are exactly `names` (`deny_unknown_fields`) -/
def hasExactly (names : List String) : Value → Bool
  | .object fields => fields.length == names.length && names.all fun n => fields.any (·.1 == n)
  | _ => false

/-- the fields of a JSON object are among `names` (`deny_unknown_fields` with defaults) -/
def hasAtMost (names : List String) : Value → Bool
  | .object fields => fields.all fun f => names.contains f.1
  | _ => false

/-- `serde_json::to_value`: a map sorts its keys -/
def SyouyuSpec.toValue (spec : SyouyuSpec) : Value :=
  .object [("bucket_name", .string spec.bucketName), ("quota_bytes", .ofU64 spec.quotaBytes),
    ("quota_objects", .ofU64 spec.quotaObjects), ("region", .string spec.region)]

def SyouyuSpec.fromValue (v : Value) : Option SyouyuSpec :=
  if hasExactly ["region", "bucket_name", "quota_bytes", "quota_objects"] v then do
    let region ← (← v.field? "region").asStr?
    let bucketName ← (← v.field? "bucket_name").asStr?
    let quotaBytes ← (← v.field? "quota_bytes").asU64?
    let quotaObjects ← (← v.field? "quota_objects").asU64?
    some ⟨region, bucketName, quotaBytes, quotaObjects⟩
  else none

def BucketPermissions.toValue (p : BucketPermissions) : Value :=
  .object [("read", .bool p.read), ("write", .bool p.write)]

/-- a flag that is left out is `false` (`serde(default)`) -/
def flagOf (v : Value) (name : String) : Option Bool :=
  match v.field? name with
  | none => some false
  | some x => x.asBool?

def BucketPermissions.fromValue (v : Value) : Option BucketPermissions :=
  if hasAtMost ["read", "write"] v then do
    let read ← flagOf v "read"
    let write ← flagOf v "write"
    some ⟨read, write⟩
  else none

theorem SyouyuSpec.fromValue_toValue (spec : SyouyuSpec) :
    SyouyuSpec.fromValue spec.toValue = some spec := by
  simp [fromValue, toValue, hasExactly, Value.field?, Value.asStr?, Value.asU64?, Value.ofU64]

theorem BucketPermissions.fromValue_toValue (p : BucketPermissions) :
    BucketPermissions.fromValue p.toValue = some p := by
  simp [fromValue, toValue, hasAtMost, flagOf, Value.field?, Value.asBool?]

theorem BucketPermissions.storable_toValue (permissions : BucketPermissions) :
    permissions.toValue.storable = true := by
  obtain ⟨read, write⟩ := permissions
  cases read <;> cases write <;> decide

/-- what `JSONB` asks of an encoded spec -/
theorem SyouyuSpec.storable_toValue (spec : SyouyuSpec) :
    spec.toValue.storable = (textStorable spec.bucketName && textStorable spec.region) := by
  have hkeys : ∀ k ∈ ["bucket_name", "quota_bytes", "quota_objects", "region"],
      textStorable k = true := by decide +kernel
  simp only [List.mem_cons, List.not_mem_nil, or_false, forall_eq_or_imp, forall_eq] at hkeys
  simp only [toValue, Value.storable, Value.storableFields, Value.storableField, Value.ofU64,
    hkeys, Bool.true_and, Bool.and_true]

end Syouyu
