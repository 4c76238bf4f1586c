import Syouyu.Domain
import Syouyu.Lib.Prog

/-!
# The client of Garage's administration API

The crate `syouyu-garage`: what the client checks before it sends a request, and the requests it
sends.  The transport is the environment: a `GarageCall` is answered with a decoded result or with
an error, and nothing is said yet about what a call does.

* `GarageCall`                the endpoints the service uses, with the type of each result;
* `GarageError.isNotFound`    the only error the callers tell apart, besides the status 409;
* `validateInput`             every id, alias and key name is checked before a request is sent;
* `setBucketKeyPermissions`   deny everything, then allow what is asked for.
-/

namespace Syouyu
open Lib

/-! ## data -/

structure BucketKeyPermissions where
  read : Bool
  write : Bool
  owner : Bool
  deriving DecidableEq, Repr

namespace BucketKeyPermissions

/-- `BucketKeyPermissions::default` -/
def none : BucketKeyPermissions := ⟨false, false, false⟩

def all : BucketKeyPermissions := ⟨true, true, true⟩

def isEmpty (p : BucketKeyPermissions) : Bool := !p.read && !p.write && !p.owner

theorem eq_none_of_isEmpty {p : BucketKeyPermissions} (h : p.isEmpty = true) : p = none := by
  obtain ⟨r, w, o⟩ := p
  cases r <;> cases w <;> cases o <;> first | rfl | cases h

/-- `From<DomainPermissions>` -/
def ofDomain (p : BucketPermissions) : BucketKeyPermissions := ⟨p.read, p.write, false⟩

end BucketKeyPermissions

structure BucketQuotas where
  maxSize : Option UInt64
  maxObjects : Option UInt64
  deriving DecidableEq, Repr

def BucketQuotas.limited (maxSize maxObjects : UInt64) : BucketQuotas :=
  ⟨some maxSize, some maxObjects⟩

def BucketQuotas.unlimited : BucketQuotas := ⟨none, none⟩

/-- the fields of `Bucket` that are read -/
structure Bucket where
  id : String
  globalAliases : List String
  objects : UInt64
  bytes : UInt64
  unfinishedUploads : UInt64
  unfinishedMultipartUploads : UInt64
  unfinishedMultipartUploadBytes : UInt64
  deriving DecidableEq, Repr

structure AccessKeySummary where
  id : String
  name : String
  deriving DecidableEq, Repr

structure AccessKey where
  accessKeyId : String
  secretAccessKey : Option String
  deriving DecidableEq, Repr

structure CreateKeyRequest where
  name : String
  expiration : Option Timestamp
  neverExpires : Bool
  deriving DecidableEq, Repr

def CreateKeyRequest.new (name : String) (expiration : Option Timestamp) : CreateKeyRequest :=
  ⟨name, expiration, expiration.isNone⟩

inductive ClusterHealthStatus where
  | healthy
  | degraded
  | unavailable
  deriving DecidableEq, Repr

structure ClusterHealth where
  status : ClusterHealthStatus
  storageNodesUp : UInt64
  partitions : UInt64
  partitionsQuorum : UInt64
  deriving DecidableEq, Repr

/-! ## errors -/

structure StatusCode where
  code : UInt16
  reason : String
  deriving DecidableEq, Repr

def StatusCode.toString (status : StatusCode) : String :=
  ToString.toString status.code.toNat ++ " " ++ status.reason

inductive GarageError where
  | invalidInput (field reason : String)
  | transport (operation source : String)
  | api (operation : String) (status : StatusCode) (message : String)
  | responseTooLarge (operation : String) (status : StatusCode) (limit : Nat)
  | decode (operation : String) (status : StatusCode) (source : String)
  deriving DecidableEq, Repr

namespace GarageError

def statusCode : GarageError → Option UInt16
  | api _ status _ => some status.code
  | responseTooLarge _ status _ => some status.code
  | decode _ status _ => some status.code
  | invalidInput _ _ => none
  | transport _ _ => none

def isNotFound (error : GarageError) : Bool := decide (error.statusCode = some 404)

def toString : GarageError → String
  | invalidInput field reason => "invalid " ++ field ++ ": " ++ reason
  | transport operation source => "Garage " ++ operation ++ " transport failed: " ++ source
  | api operation status message =>
    "Garage " ++ operation ++ " returned HTTP " ++ status.toString ++ ": " ++ message
  | responseTooLarge operation _ limit =>
    "Garage " ++ operation ++ " response exceeded " ++ ToString.toString limit ++ " bytes"
  | decode operation status source =>
    "Garage " ++ operation ++ " returned invalid JSON with HTTP " ++ status.toString ++ ": " ++ source

end GarageError

def validateInput (field value : String) : Except GarageError Unit :=
  if value.isEmpty || decide (256 < len value) || value.toList.any isControl then
    .error (.invalidInput field "value must contain 1 to 256 non-control characters")
  else .ok ()

/-- the checks of an input never say that something is not found -/
theorem validateInput_error {field value : String} {e : GarageError}
    (h : validateInput field value = .error e) : e.isNotFound = false := by
  unfold validateInput at h
  split at h
  · obtain rfl := Except.error.inj h
    rfl
  · cases h

def BucketQuotas.validate : BucketQuotas → Except GarageError Unit
  | ⟨some size, some objects⟩ =>
    if 0 < size ∧ 0 < objects then .ok ()
    else .error (.invalidInput "quotas" "limited quotas must be non-zero")
  | ⟨none, none⟩ => .ok ()
  | _ => .error (.invalidInput "quotas" "Garage requires max_size and max_objects together")

def CreateKeyRequest.validate (request : CreateKeyRequest) : Except GarageError Unit := do
  validateInput "key_name" request.name
  if request.neverExpires = request.expiration.isSome then
    .error (.invalidInput "expiration" "set either expiration or never_expires")
  else .ok ()

/-! ## requests -/

inductive GarageCall where
  | createBucket (globalAlias : String)
  | getBucketInfo (bucketId : String)
  | getBucketInfoByAlias (globalAlias : String)
  | updateBucket (bucketId : String) (quotas : BucketQuotas)
  | deleteBucket (bucketId : String)
  | listKeys
  | createKey (request : CreateKeyRequest)
  | deleteKey (accessKeyId : String)
  | allowBucketKey (bucketId accessKeyId : String) (permissions : BucketKeyPermissions)
  | denyBucketKey (bucketId accessKeyId : String) (permissions : BucketKeyPermissions)
  deriving DecidableEq, Repr

def GarageCall.Result : GarageCall → Type
  | createBucket _ => Bucket
  | getBucketInfo _ => Bucket
  | getBucketInfoByAlias _ => Bucket
  | updateBucket _ _ => Bucket
  | deleteBucket _ => Unit
  | listKeys => List AccessKeySummary
  | createKey _ => AccessKey
  | deleteKey _ => Unit
  | allowBucketKey _ _ _ => Bucket
  | denyBucketKey _ _ _ => Bucket

def GarageCall.Answer (call : GarageCall) : Type := Except GarageError call.Result

abbrev GarageM (ε α : Type) := Prog GarageCall GarageCall.Answer ε α

/-! ## the client -/

namespace GarageAdminClient

/-- `execute_json`, `execute_empty` -/
def execute (call : GarageCall) : GarageM GarageError call.Result := do
  let answer ← Prog.request call
  Prog.ofExcept id answer

/-- the checks of a request, then the request -/
def checked (checks : Except GarageError Unit) (call : GarageCall) :
    GarageM GarageError call.Result := do
  Prog.ofExcept id checks
  execute call

def createBucket (globalAlias : String) : GarageM GarageError Bucket :=
  checked (validateInput "global_alias" globalAlias) (.createBucket globalAlias)

def getBucket (bucketId : String) : GarageM GarageError Bucket :=
  checked (validateInput "bucket_id" bucketId) (.getBucketInfo bucketId)

def getBucketByAlias (globalAlias : String) : GarageM GarageError Bucket :=
  checked (validateInput "global_alias" globalAlias) (.getBucketInfoByAlias globalAlias)

def updateBucketQuotas (bucketId : String) (quotas : BucketQuotas) : GarageM GarageError Bucket :=
  checked (do validateInput "bucket_id" bucketId; quotas.validate) (.updateBucket bucketId quotas)

def deleteBucket (bucketId : String) : GarageM GarageError Unit :=
  checked (validateInput "bucket_id" bucketId) (.deleteBucket bucketId)

def listKeys : GarageM GarageError (List AccessKeySummary) := execute .listKeys

def createKey (request : CreateKeyRequest) : GarageM GarageError AccessKey :=
  checked request.validate (.createKey request)

def deleteKey (accessKeyId : String) : GarageM GarageError Unit :=
  checked (validateInput "access_key_id" accessKeyId) (.deleteKey accessKeyId)

/-- the checks of `change_bucket_key_permissions` -/
def validateBucketKey (bucketId accessKeyId : String) : Except GarageError Unit := do
  validateInput "bucket_id" bucketId
  validateInput "access_key_id" accessKeyId

def allowBucketKey (bucketId accessKeyId : String) (permissions : BucketKeyPermissions) :
    GarageM GarageError Bucket :=
  checked (validateBucketKey bucketId accessKeyId)
    (.allowBucketKey bucketId accessKeyId permissions)

def denyBucketKey (bucketId accessKeyId : String) (permissions : BucketKeyPermissions) :
    GarageM GarageError Bucket :=
  checked (validateBucketKey bucketId accessKeyId)
    (.denyBucketKey bucketId accessKeyId permissions)

/-- revocation happens first, so a partial failure cannot retain broader access -/
def setBucketKeyPermissions (bucketId accessKeyId : String) (permissions : BucketKeyPermissions) :
    GarageM GarageError Bucket := do
  let revoked ← denyBucketKey bucketId accessKeyId .all
  if permissions.isEmpty then pure revoked
  else allowBucketKey bucketId accessKeyId permissions

end GarageAdminClient

end Syouyu
