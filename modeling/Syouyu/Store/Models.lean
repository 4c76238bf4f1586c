import Syouyu.Domain
import Syouyu.Lib.Table

/-!
# The store crate: requests, answers and errors

What callers hand to the store and what they get back (`models.rs`, and the error type of
`lib.rs`).  `OperationRequest` is the identity of one mutating request; the four commands carry
one each.  A `Prepare` answer tells the caller to execute the operation under a fresh operation
id, to replay a stored response, or that another execution holds the lease.
-/

namespace Syouyu
open Lib

/-! ## errors -/

/-- an error of the database driver: a broken constraint -/
inductive DatabaseError where
  | checkViolation
  | uniqueViolation
  | foreignKeyViolation
  deriving DecidableEq, Repr

def DatabaseError.ofViolation : Violation → DatabaseError
  | .check => .checkViolation
  | .unique => .uniqueViolation

inductive StoreError where
  | database (error : DatabaseError)
  | configuration (message : String)
  | validation (message : String)
  | domainValidation (error : ValidationError)
  | notFound
  | conflict (message : String)
  | idempotencyConflict
  | bucketNameUnavailable
  | staleGeneration (current requested : Int64)
  | operationInProgress (operationId : Uuid)
  | operationLeaseLost (currentOperationId : Uuid)
  | serviceNotReady
  | credentialLimitExceeded (scope : String) (limit : UInt32)
  | invalidNumericValue (field : String)
  | corruptData (what : String)
  | encryption (message : String)
  deriving DecidableEq, Repr

/-- a uniqueness violation is a conflict for the caller, anything else an internal error -/
def mapDatabaseError : DatabaseError → StoreError
  | .uniqueViolation => .conflict "resource already exists"
  | e => .database e

/-! ## numbers -/

/-- `i64::try_from` on a `u64` -/
def toI64 (value : UInt64) (field : String) : Except StoreError Int64 :=
  if value ≤ maxGarageQuota then .ok value.toInt64 else .error (.invalidNumericValue field)

/-- `u64::try_from` on an `i64` -/
def fromI64 (value : Int64) (field : String) : Except StoreError UInt64 :=
  if 0 ≤ value then .ok value.toUInt64 else .error (.corruptData field)

/-- `i64::checked_add(1)` -/
def checkedSucc (value : Int64) : Option Int64 :=
  if value = Int64.maxValue then none else some (value + 1)

theorem checkedSucc_toInt {a b : Int64} (h : checkedSucc a = some b) : b.toInt = a.toInt + 1 := by
  unfold checkedSucc at h
  split at h
  · cases h
  · rename_i hmax
    obtain rfl := Option.some.inj h
    have hle : a.toInt ≤ 9223372036854775807 := Int64.toInt_le a
    have hge : -9223372036854775808 ≤ a.toInt := Int64.le_toInt a
    have hne : a.toInt ≠ 9223372036854775807 := fun he => hmax (Int64.toInt_inj.mp he)
    rw [Int64.toInt_add]
    show (a.toInt + 1).bmod (2 ^ 64) = a.toInt + 1
    exact Int.bmod_eq_of_le (by omega) (by omega)

/-! ## requests -/

structure CredentialLimits where
  maxCredentialsPerBucket : UInt32
  maxTotalCredentials : UInt32
  deriving DecidableEq, Repr

def CredentialLimits.validate (limits : CredentialLimits) : Except StoreError CredentialLimits :=
  if limits.maxCredentialsPerBucket = 0 ∨ limits.maxTotalCredentials = 0 then
    .error (.configuration "credential limits must both be positive")
  else .ok limits

/-- `CredentialLimits::default` -/
def CredentialLimits.default : CredentialLimits := ⟨10000, 1000000⟩

structure OperationRequest where
  idempotencyKey : Uuid
  organizationId : Uuid
  projectId : Uuid
  serviceInstanceId : Uuid
  principalId : Uuid
  action : String
  generation : Option Int64
  requestHash : Hash
  deriving DecidableEq, Repr

def OperationRequest.validate (operation : OperationRequest) : Except StoreError Unit :=
  if operation.action.isEmpty ∨ 128 < len operation.action then
    .error (.validation "operation action must contain between 1 and 128 bytes")
  else if operation.generation.any (fun g => decide (g ≤ 0)) then
    .error (.validation "operation generation must be positive")
  else .ok ()

structure ReconcileCommand where
  operation : OperationRequest
  name : String
  generation : Int64
  spec : SyouyuSpec
  deriving DecidableEq, Repr

def ReconcileCommand.validate (command : ReconcileCommand) : Except StoreError Unit := do
  command.operation.validate
  if command.operation.generation ≠ some command.generation then
    .error (.validation "operation and reconcile generations do not match")
  else if command.name.isEmpty ∨ 120 < len command.name then
    .error (.validation "service name must contain between 1 and 120 bytes")
  else command.spec.validate.mapError .domainValidation

structure DeleteCommand where
  operation : OperationRequest
  generation : Int64
  deriving DecidableEq, Repr

def DeleteCommand.validate (command : DeleteCommand) : Except StoreError Unit := do
  command.operation.validate
  if command.operation.generation ≠ some command.generation then
    .error (.validation "operation and delete generations do not match")
  else .ok ()

structure CreateCredentialCommand where
  operation : OperationRequest
  name : String
  permissions : BucketPermissions
  credentialLimits : CredentialLimits
  deriving DecidableEq, Repr

def CreateCredentialCommand.validate (command : CreateCredentialCommand) :
    Except StoreError Unit := do
  command.operation.validate
  let _ ← command.credentialLimits.validate
  (CredentialSpec.mk command.name command.permissions).validate.mapError .domainValidation

structure RevokeCredentialCommand where
  operation : OperationRequest
  credentialId : Uuid
  deriving DecidableEq, Repr

/-- `prepare_revoke_credential` validates the operation alone -/
def RevokeCredentialCommand.validate (command : RevokeCredentialCommand) :
    Except StoreError Unit := command.operation.validate

structure StoredHttpResponse where
  status : UInt16
  body : Value
  failed : Bool
  deriving DecidableEq, Repr

structure NewCredential where
  id : Uuid
  garageKeyId : String
  accessKeyId : String
  secretKeyFingerprint : Hash
  name : String
  permissions : BucketPermissions
  deriving DecidableEq, Repr

structure AuditEvent where
  organizationId : Uuid
  projectId : Uuid
  serviceInstanceId : Uuid
  principalId : Uuid
  principalContextId : Option Uuid
  requestId : String
  action : String
  resourceType : String
  resourceId : Option String
  outcome : String
  details : Value
  deriving DecidableEq, Repr

/-! ## answers -/

inductive Prepare (α : Type) where
  | execute (operationId : Uuid) (context : α)
  | replay (response : StoredHttpResponse)
  | inProgress (operationId : Uuid)
  deriving DecidableEq, Repr

/-- An answer taken from an existing receipt never asks for execution: its context type is
empty, so it can stand for an answer with any context. -/
def Prepare.mapContext {α : Type} : Prepare Empty → Prepare α
  | .replay response => .replay response
  | .inProgress operationId => .inProgress operationId

structure BucketRecord where
  serviceInstanceId : Uuid
  organizationId : Uuid
  projectId : Uuid
  physicalBucketId : Option String
  bucketName : String
  region : String
  quotaBytes : UInt64
  quotaObjects : UInt64
  usedBytes : UInt64
  usedObjects : UInt64
  usageMeasuredAt : Option Timestamp
  deriving DecidableEq, Repr

structure ServiceRecord where
  id : Uuid
  organizationId : Uuid
  projectId : Uuid
  name : String
  desiredGeneration : Int64
  observedGeneration : Int64
  phase : BucketPhase
  operationId : Uuid
  spec : SyouyuSpec
  bucket : BucketRecord
  deriving DecidableEq, Repr

structure ReconcileContext where
  bucket : BucketRecord
  previouslyApplied : Bool
  deriving DecidableEq, Repr

structure DeleteContext where
  bucket : BucketRecord
  garageKeyIds : List String
  deriving DecidableEq, Repr

structure CreateCredentialContext where
  bucket : BucketRecord
  credentialId : Uuid
  deriving DecidableEq, Repr

structure RevokeCredentialContext where
  garageKeyId : String
  alreadyRevoked : Bool
  deriving DecidableEq, Repr

inductive CredentialStatus where
  | active
  | revoked
  deriving DecidableEq, Repr

structure CredentialRecord where
  id : Uuid
  serviceInstanceId : Uuid
  name : String
  accessKeyId : String
  permissions : BucketPermissions
  status : CredentialStatus
  createdAt : Timestamp
  revokedAt : Option Timestamp
  deriving DecidableEq, Repr

structure UsageRecord where
  serviceInstanceId : Uuid
  bytesUsed : UInt64
  objectsUsed : UInt64
  quotaBytes : UInt64
  quotaObjects : UInt64
  measuredAt : Timestamp
  deriving DecidableEq, Repr

end Syouyu
