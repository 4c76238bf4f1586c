import Syouyu.Api.Handlers

/-!
# The handlers that read

`routes.rs` of the crate `syouyu-api`: the overview of a service, its usage and the list of its
credentials.  Each takes a principal with the permission to read, asks for the service in the scope
of that principal, and leaves an audit event before it answers.

* `Read`                what tells the three apart: the permission, and the audit event;
* `recordReadAudit`     the audit event of a read;
* `serviceOverview`, `serviceUsage`, `listCredentials`   the handlers;
* `handleRead`          the handler of each request.
-/

namespace Syouyu
open Lib

/-! ## encodings -/

def credentialReadPermission : String := "syouyu.credential.read"
def overviewReadPermission : String := "syouyu.overview.read"
def usageReadPermission : String := "syouyu.usage.read"

/-- `BucketPhase::from_str` -/
def BucketPhase.fromStr : String → Except ValidationError BucketPhase
  | "provisioning" => .ok .provisioning
  | "ready" => .ok .ready
  | "degraded" => .ok .degraded
  | "error" => .ok .error
  | "deleting" => .ok .deleting
  | "deleted" => .ok .deleted
  | _ => .error (.invalidField "phase" "unknown bucket phase")

theorem BucketPhase.fromStr_toString (phase : BucketPhase) : fromStr phase.toString = .ok phase := by
  cases phase <;> rfl

/-- `Json(body)` as a response -/
def jsonResponse (body : Value) : Response := ⟨200, body, [("content-type", "application/json")]⟩

def CredentialStatus.toString : CredentialStatus → String
  | .active => "active"
  | .revoked => "revoked"

/-- `ServiceOverviewResponse` -/
def serviceOverviewResponse (state : AppState) (record : ServiceRecord) (phase : BucketPhase)
    (activeCredentials : UInt64) (measuredAt : Timestamp) : Value :=
  .object [("service_instance_id", .ofUuid record.id), ("name", .string record.name),
    ("region", .string record.bucket.region), ("bucket_name", .string record.bucket.bucketName),
    ("phase", .string phase.toString), ("endpoint", .string state.s3Endpoint),
    ("quota", .object [("bytes", .ofU64 record.bucket.quotaBytes),
      ("objects", .ofU64 record.bucket.quotaObjects)]),
    ("usage", BucketUsage.toValue
      { BucketUsage.default with
        bytes := record.bucket.usedBytes
        objects := record.bucket.usedObjects }),
    ("active_credentials", .ofU64 activeCredentials),
    ("measured_at", .string (state.formatTime measuredAt))]

/-- `UsageResponse` -/
def usageResponse (state : AppState) (stored : UsageRecord) (usage : BucketUsage) : Value :=
  .object [("service_instance_id", .ofUuid stored.serviceInstanceId),
    ("bytes_used", .ofU64 stored.bytesUsed), ("objects_used", .ofU64 stored.objectsUsed),
    ("unfinished_upload_bytes", .ofU64 usage.unfinishedUploadBytes),
    ("unfinished_uploads", .ofU64 usage.unfinishedUploads),
    ("quota_bytes", .ofU64 stored.quotaBytes), ("quota_objects", .ofU64 stored.quotaObjects),
    ("measured_at", .string (state.formatTime stored.measuredAt))]

/-- `CredentialResponse` -/
def credentialResponse (state : AppState) (record : CredentialRecord) : Value :=
  .object [("id", .ofUuid record.id), ("name", .string record.name),
    ("access_key_id", .string record.accessKeyId), ("permissions", record.permissions.toValue),
    ("status", .string record.status.toString),
    ("created_at", .string (state.formatTime record.createdAt)),
    ("revoked_at", optionToValue (record.revokedAt.map state.formatTime))]

/-- `CredentialListResponse` -/
def credentialListResponse (state : AppState) (records : List CredentialRecord) : Value :=
  .object [("credentials", .array (records.map (credentialResponse state)))]

/-- `u64::try_from` on a `usize` count, or the largest value -/
def countU64 (n : Nat) : UInt64 := if n < 2 ^ 64 then UInt64.ofNat n else 18446744073709551615

def activeCount (records : List CredentialRecord) : Nat :=
  (records.filter fun record => decide (record.status = .active)).length

/-! ## the handlers -/

/-- what each handler of a read hands to `authorize` and to `record_read_audit` -/
inductive Read where
  | overview
  | usage
  | credentials
  deriving DecidableEq, Repr

namespace Read

def permission : Read → String
  | overview => overviewReadPermission
  | usage => usageReadPermission
  | credentials => credentialReadPermission

def action : Read → String
  | overview => "service.overview.read"
  | usage => "usage.read"
  | credentials => "credential.list"

def resourceType : Read → String
  | overview => "service_instance"
  | usage => "bucket"
  | credentials => "credential"

end Read

/-- the event of `record_read_audit` -/
def readAudit (principal : Principal) (requestId : String) (read : Read) : AuditEvent where
  organizationId := principal.scope.organizationId
  projectId := principal.scope.projectId
  serviceInstanceId := principal.scope.serviceInstanceId
  principalId := principal.principalId
  principalContextId := some principal.contextId
  requestId := requestId
  action := read.action
  resourceType := read.resourceType
  resourceId := some principal.scope.serviceInstanceId.toString
  outcome := "allowed"
  details := .object []

def recordReadAudit (principal : Principal) (headers : Headers) (read : Read) :
    HandlerM ApiError Unit := do
  let requestId ← requestId headers
  callStore (.recordAudit (readAudit principal requestId read))

namespace ServiceScope

/-- the calls of the store for the service of a scope -/
def overview (scope : ServiceScope) : SelectM ServiceRecord :=
  PgStore.serviceOverview scope.organizationId scope.projectId scope.serviceInstanceId

def credentials (scope : ServiceScope) : SelectM (List CredentialRecord) :=
  PgStore.listCredentials scope.organizationId scope.projectId scope.serviceInstanceId

def usageCall (scope : ServiceScope) (bytes objects : UInt64) (measuredAt : Timestamp) : StoreCall :=
  .recordUsage scope.organizationId scope.projectId scope.serviceInstanceId bytes objects measuredAt

end ServiceScope

/-- a call of the store that only reads: its statements, one after the other -/
def readStore {α : Type} (program : SelectM α) : HandlerM ApiError α :=
  (Prog.inject (fun statement => Call.query (.select statement)) program).mapError ApiError.ofStore

def serviceOverview (state : AppState) (principal : Except PrincipalAuthError Principal)
    (headers : Headers) : HandlerM ApiError Response := do
  let principal ← Prog.ofExcept id (authorize principal overviewReadPermission)
  let record ← readStore principal.scope.overview
  let credentials ← readStore principal.scope.credentials
  let phase ← Prog.ofExcept (fun _ => ApiError.internal) (BucketPhase.fromStr record.phase.toString)
  recordReadAudit principal headers .overview
  let measuredAt ← match record.bucket.usageMeasuredAt with
    | some measuredAt => pure measuredAt
    | none => utcNow
  pure (jsonResponse (serviceOverviewResponse state record phase
    (countU64 (activeCount credentials)) measuredAt))

def serviceUsage (state : AppState) (principal : Except PrincipalAuthError Principal)
    (headers : Headers) : HandlerM ApiError Response := do
  let principal ← Prog.ofExcept id (authorize principal usageReadPermission)
  let service ← readStore principal.scope.overview
  match service.bucket.physicalBucketId with
  | none => Prog.throw .internal
  | some physicalBucketId => do
    let usage ← (onGarage (GarageAdapter.bucketUsage physicalBucketId)).mapError ApiError.ofBackend
    let measuredAt ← utcNow
    let stored : UsageRecord ← callStore
      (principal.scope.usageCall usage.bytes usage.objects measuredAt)
    recordReadAudit principal headers .usage
    pure (jsonResponse (usageResponse state stored usage))

def listCredentials (state : AppState) (principal : Except PrincipalAuthError Principal)
    (headers : Headers) : HandlerM ApiError Response := do
  let principal ← Prog.ofExcept id (authorize principal credentialReadPermission)
  let credentials ← readStore principal.scope.credentials
  recordReadAudit principal headers .credentials
  pure (jsonResponse (credentialListResponse state credentials))

/-- a request to one of the three handlers, with the result of its authentication -/
structure ReadRequest where
  read : Read
  principal : Except PrincipalAuthError Principal
  headers : Headers

def handleRead (state : AppState) (r : ReadRequest) : HandlerM ApiError Response :=
  match r.read with
  | .overview => serviceOverview state r.principal r.headers
  | .usage => serviceUsage state r.principal r.headers
  | .credentials => listCredentials state r.principal r.headers

end Syouyu
