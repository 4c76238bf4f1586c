import Syouyu.Api.Adapter
import Syouyu.Store.Calls

/-!
# The handlers that change something

`routes.rs` of the crate `syouyu-api`: reconcile and delete of a service instance, creation and
revocation of a credential.  A handler is a program that calls the store and Garage, reads the
clock and draws request ids; it may be interrupted between any two of these.

* `Call`                what a handler asks for, with the type of each answer;
* `Request`             the four requests, with what authentication made of their credentials;
* `reconcileCommand`, `deleteCommand`, `createCredentialCommand`, `revokeCredentialCommand`
                        what a handler checks before its first call, and the command it builds;
* `preparing`           the common beginning: only an `Execute` answer leads further;
* `garageOrFail`        the common use of Garage: a failure is recorded in the receipt;
* `handle`              the handler of each request.
-/

namespace Syouyu
open Lib

/-! ## what a handler asks for -/

/-- what changes nothing: the clock, a new id, a statement that reads, and the probes of `ready`,
`PgStore::health` and the endpoint `GetClusterHealth` -/
inductive Query where
  | utcNow
  | newUuid
  | select (statement : Select)
  | storeHealth
  | clusterHealth

def Query.Answer : Query → Type
  | utcNow => Timestamp
  | newUuid => Uuid
  | select statement => statement.Answer
  | storeHealth => Except StoreError Unit
  | clusterHealth => Except GarageError ClusterHealth

inductive Call where
  | store (call : StoreCall)
  | garage (call : GarageCall)
  | query (q : Query)

def Call.Answer : Call → Type
  | store call => Except StoreError call.Result
  | garage call => call.Answer
  | query q => q.Answer

abbrev HandlerM (ε α : Type) := Prog Call Call.Answer ε α

/-- the part of `AppState` that is not the store or Garage, and the crates the handlers use -/
structure AppState where
  storageRegion : String
  s3Endpoint : String
  /-- `Sha256::digest` -/
  sha256 : List UInt8 → Hash
  /-- `serde_json::to_vec` -/
  toVec : Value → List UInt8
  /-- how serde writes a `DateTime<Utc>` -/
  formatTime : Timestamp → String
  /-- `Uuid::parse_str` -/
  parseUuid : String → Option Uuid

/-! ## requests -/

/-- the headers that are read; a value that is not visible ASCII is there but has no text -/
structure Headers where
  idempotencyKey : Option (Option String)
  requestId : Option (Option String)

structure ProviderClaims where
  subject : Uuid
  organizationId : Uuid
  projectId : Uuid
  serviceInstanceId : Uuid
  generation : Int64
  jwtId : Uuid

structure ServiceScope where
  organizationId : Uuid
  projectId : Uuid
  serviceInstanceId : Uuid

structure Principal where
  scope : ServiceScope
  principalId : Uuid
  permissions : List String
  credentialLimits : CredentialLimits
  contextId : Uuid

structure ReconcileRequest where
  generation : Int64
  name : String
  spec : SyouyuSpec

structure DeleteQuery where
  generation : Int64

structure CreateCredentialRequest where
  name : String
  permissions : BucketPermissions

/-- a request to one of the four handlers, with the result of its authentication -/
inductive Request where
  | reconcile (claims : Except AuthError ProviderClaims) (serviceInstanceId : Uuid)
      (headers : Headers) (request : ReconcileRequest)
  | delete (claims : Except AuthError ProviderClaims) (serviceInstanceId : Uuid)
      (query : DeleteQuery) (headers : Headers)
  | createCredential (principal : Except PrincipalAuthError Principal) (headers : Headers)
      (request : CreateCredentialRequest)
  | revokeCredential (principal : Except PrincipalAuthError Principal) (credentialId : Uuid)
      (headers : Headers)

/-! ## encodings -/

def providerReconcileAction : String := "service-instance.reconcile"
def providerDeleteAction : String := "service-instance.delete"
def credentialCreateAction : String := "credential.create"
def credentialRevokeAction : String := "credential.revoke"
def credentialCreatePermission : String := "syouyu.credential.create"
def credentialRevokePermission : String := "syouyu.credential.revoke"

/-- a struct that is written directly keeps the order of its fields -/
def ReconcileRequest.serialize (request : ReconcileRequest) : Value :=
  .object [("generation", .ofI64 request.generation), ("name", .string request.name),
    ("spec", .object [("region", .string request.spec.region),
      ("bucket_name", .string request.spec.bucketName),
      ("quota_bytes", .ofU64 request.spec.quotaBytes),
      ("quota_objects", .ofU64 request.spec.quotaObjects)])]

def CreateCredentialRequest.toValue (request : CreateCredentialRequest) : Value :=
  .object [("name", .string request.name), ("permissions", request.permissions.toValue)]

def CredentialLimits.toValue (limits : CredentialLimits) : Value :=
  .object [("max_credentials_per_bucket", .ofU64 limits.maxCredentialsPerBucket.toUInt64),
    ("max_total_credentials", .ofU64 limits.maxTotalCredentials.toUInt64)]

/-- `request_hash` of the store crate -/
def requestHash (state : AppState) (action : String) (request : Value) : Hash :=
  state.sha256 (asBytes "syouyu-operation-v1" ++ [0] ++ asBytes action ++ [0] ++
    state.toVec request)

def BucketUsage.toValue (usage : BucketUsage) : Value :=
  .object [("bytes", .ofU64 usage.bytes), ("objects", .ofU64 usage.objects),
    ("unfinished_upload_bytes", .ofU64 usage.unfinishedUploadBytes),
    ("unfinished_uploads", .ofU64 usage.unfinishedUploads)]

def optionToValue : Option String → Value
  | some s => .string s
  | none => .null

/-- `ProviderOperationResponse` with its `BucketStatus` -/
def providerOperationResponse (state : AppState) (operationId : Uuid) (observedGeneration : UInt64)
    (phase : BucketPhase) (backendBucketId endpoint : Option String) (updatedAt : Timestamp) :
    Value :=
  .object [("operation_id", .ofUuid operationId),
    ("status", .object [("backend_bucket_id", optionToValue backendBucketId),
      ("endpoint", optionToValue endpoint), ("message", .null),
      ("observed_generation", .ofU64 observedGeneration), ("phase", .string phase.toString),
      ("updated_at", .string (state.formatTime updatedAt)),
      ("usage", BucketUsage.default.toValue)])]

/-- `IssuedCredentialResponse` with its `CredentialResponse` -/
def issuedCredentialResponse (state : AppState) (command : CreateCredentialCommand)
    (context : CreateCredentialContext) (issued : IssuedCredential) (createdAt : Timestamp) :
    Value :=
  .object [("bucket_name", .string context.bucket.bucketName),
    ("credential", .object [("access_key_id", .string issued.accessKeyId),
      ("created_at", .string (state.formatTime createdAt)),
      ("id", .ofUuid context.credentialId), ("name", .string command.name),
      ("permissions", command.permissions.toValue), ("revoked_at", .null),
      ("status", .string "active")]),
    ("endpoint", .string state.s3Endpoint),
    ("secret_access_key", .string issued.secretAccessKey)]

def revokedCredentialResponse (credentialId : Uuid) : Value :=
  .object [("credential_id", .ofUuid credentialId), ("status", .string "revoked")]

/-! ## the commands -/

/-- the header must repeat the id of the token -/
def requireIdempotencyKey (headers : Headers) (jwtId : Uuid) : Except AuthError Unit :=
  match headers.idempotencyKey with
  | none => .error .missingIdempotencyKey
  | some none => .error .invalidIdempotencyKey
  | some (some value) =>
    if value = jwtId.toString then .ok () else .error .idempotencyKeyMismatch

def publicIdempotencyKey (state : AppState) (headers : Headers) : Except ApiError Uuid :=
  match headers.idempotencyKey with
  | none => .error (.badRequest "Idempotency-Key is required")
  | some none => .error (.badRequest "Idempotency-Key is invalid")
  | some (some value) =>
    match state.parseUuid value with
    | none => .error (.badRequest "Idempotency-Key must be a canonical UUID")
    | some parsed =>
      if parsed.toString ≠ value then
        .error (.badRequest "Idempotency-Key must use canonical lowercase UUID encoding")
      else .ok parsed

def authorize (principal : Except PrincipalAuthError Principal) (permission : String) :
    Except ApiError Principal := do
  let principal ← principal.mapError .ofPrincipalAuth
  if principal.permissions.contains permission then pure principal
  else .error (.ofPrincipalAuth .permissionDenied)

def principalOperation (principal : Principal) (idempotencyKey : Uuid) (action : String)
    (hash : Hash) : OperationRequest where
  idempotencyKey := idempotencyKey
  organizationId := principal.scope.organizationId
  projectId := principal.scope.projectId
  serviceInstanceId := principal.scope.serviceInstanceId
  principalId := principal.principalId
  action := action
  generation := none
  requestHash := hash

def providerOperation (claims : ProviderClaims) (serviceInstanceId : Uuid) (action : String)
    (generation : Int64) (hash : Hash) : OperationRequest where
  idempotencyKey := claims.jwtId
  organizationId := claims.organizationId
  projectId := claims.projectId
  serviceInstanceId := serviceInstanceId
  principalId := claims.subject
  action := action
  generation := some generation
  requestHash := hash

/-- the claims of a provider request, for the service and the generation it names -/
def providerClaims (claims : Except AuthError ProviderClaims) (serviceInstanceId : Uuid)
    (generation : Int64) (headers : Headers) : Except ApiError ProviderClaims := do
  let claims ← claims.mapError .ofAuth
  (requireIdempotencyKey headers claims.jwtId).mapError .ofAuth
  if claims.serviceInstanceId ≠ serviceInstanceId ∨ claims.generation ≠ generation then
    .error .forbidden
  else pure claims

def reconcileCommand (state : AppState) (claims : Except AuthError ProviderClaims)
    (serviceInstanceId : Uuid) (headers : Headers) (request : ReconcileRequest) :
    Except ApiError ReconcileCommand := do
  let claims ← providerClaims claims serviceInstanceId request.generation headers
  request.spec.validate.mapError fun error => ApiError.badRequest error.toString
  if request.spec.region ≠ state.storageRegion then
    .error (.badRequest
      ("region must match the configured storage region " ++ state.storageRegion))
  else
    pure
      { operation := providerOperation claims serviceInstanceId providerReconcileAction
          request.generation (requestHash state providerReconcileAction request.serialize)
        name := request.name
        generation := request.generation
        spec := request.spec }

def deleteCommand (state : AppState) (claims : Except AuthError ProviderClaims)
    (serviceInstanceId : Uuid) (query : DeleteQuery) (headers : Headers) :
    Except ApiError DeleteCommand := do
  let claims ← providerClaims claims serviceInstanceId query.generation headers
  pure
    { operation := providerOperation claims serviceInstanceId providerDeleteAction query.generation
        (requestHash state providerDeleteAction (.object [("generation", .ofI64 query.generation),
          ("service_instance_id", .ofUuid serviceInstanceId)]))
      generation := query.generation }

def createCredentialCommand (state : AppState) (principal : Principal) (headers : Headers)
    (request : CreateCredentialRequest) : Except ApiError CreateCredentialCommand := do
  (CredentialSpec.mk request.name request.permissions).validate.mapError fun error =>
    ApiError.badRequest error.toString
  let idempotencyKey ← publicIdempotencyKey state headers
  pure
    { operation := principalOperation principal idempotencyKey credentialCreateAction
        (requestHash state credentialCreateAction (.object
          [("credential_limits", principal.credentialLimits.toValue),
            ("request", request.toValue)]))
      name := request.name
      permissions := request.permissions
      credentialLimits := principal.credentialLimits }

def revokeCredentialCommand (state : AppState) (principal : Principal) (credentialId : Uuid)
    (headers : Headers) : Except ApiError RevokeCredentialCommand := do
  let idempotencyKey ← publicIdempotencyKey state headers
  pure
    { operation := principalOperation principal idempotencyKey credentialRevokeAction
        (requestHash state credentialRevokeAction
          (.object [("credential_id", .ofUuid credentialId)]))
      credentialId := credentialId }

/-! ## parts of handlers -/

/-- a call of the store, with `?` -/
def callStore (call : StoreCall) : HandlerM ApiError call.Result := do
  let answer ← Prog.request (Call.store call)
  Prog.ofExcept ApiError.ofStore answer

def onGarage {ε α : Type} (program : GarageM ε α) : HandlerM ε α :=
  Prog.inject Call.garage program

def utcNow : HandlerM ApiError Timestamp := Prog.request (Call.query .utcNow)

def renewOperation (operation : OperationRequest) (operationId : Uuid) : HandlerM ApiError Unit :=
  callStore (.renewOperation operation operationId)

def successResponse (status : UInt16) (body : Value) : StoredHttpResponse := ⟨status, body, false⟩

/-- `StatusCode::from_u16` accepts three digits -/
def storedIntoResponse (stored : StoredHttpResponse) : Except ApiError Response :=
  if 100 ≤ stored.status ∧ stored.status ≤ 999 then
    .ok ⟨stored.status, stored.body, [("content-type", "application/json"),
      ("cache-control", "no-store, private"), ("pragma", "no-cache")]⟩
  else .error .internal

def preparedResponse {α : Type} : Prepare α → Except ApiError Response
  | .replay response => storedIntoResponse response
  | .inProgress operationId => .error (.operationInProgress operationId)
  | .execute _ _ => .error .internal

/-- the operation is prepared; an answer that is not `Execute` ends the handler -/
def preparing (call : PrepareCall) (execute : Uuid → call.Context → HandlerM ApiError Response) :
    HandlerM ApiError Response := do
  let prepared : Prepare call.Context ← callStore (.prepare call)
  match prepared with
  | .execute operationId context => execute operationId context
  | other => Prog.ofExcept id (preparedResponse other)

/-- the header, if it is usable, else a new id -/
def requestId (headers : Headers) : HandlerM ApiError String :=
  match (headers.requestId.bind id).filter fun value => !value.isEmpty && decide (len value ≤ 256)
  with
  | some value => pure value
  | none => do
    let drawn : Uuid ← Prog.request (Call.query .newUuid)
    pure drawn.toString

def requestGeneration (generation : Int64) : Except ApiError UInt64 :=
  if 0 ≤ generation then .ok generation.toUInt64 else .error .internal

def auditForOperation (operation : OperationRequest) (principalContextId : Option Uuid)
    (requestId resourceType : String) (resourceId : Option String) (details : Value) :
    AuditEvent where
  organizationId := operation.organizationId
  projectId := operation.projectId
  serviceInstanceId := operation.serviceInstanceId
  principalId := operation.principalId
  principalContextId := principalContextId
  requestId := requestId
  action := operation.action
  resourceType := resourceType
  resourceId := resourceId
  outcome := "allowed"
  details := details

/-- what an audit event says about the resource of an operation -/
structure Resource where
  principalContextId : Option Uuid
  resourceType : String
  resourceId : String

/-- `audit_for_operation` with a request id from the headers -/
def audit (headers : Headers) (operation : OperationRequest) (resource : Resource)
    (details : Value) : HandlerM ApiError AuditEvent := do
  let requestId ← requestId headers
  pure (auditForOperation operation resource.principalContextId requestId resource.resourceType
    (some resource.resourceId) details)

/-- the failure is recorded; what is returned is the failure, or why it could not be recorded -/
def persistBackendFailure (operation : OperationRequest) (operationId : Uuid)
    (backendError : GarageBackendError) (event : AuditEvent) : HandlerM ApiError ApiError := do
  let apiError := ApiError.ofBackend backendError
  let answer : Except StoreError Unit ← Prog.request (Call.store (.finish
    ⟨.fail operation, operationId, apiError.storedResponse, { event with outcome := "failed" }⟩))
  match answer with
  | .error error => pure (.ofStore error)
  | .ok () => pure apiError

def persistFailure (operation : OperationRequest) (operationId : Uuid) (apiError : ApiError)
    (event : AuditEvent) : HandlerM ApiError Unit :=
  callStore (.finish
    ⟨.fail operation, operationId, apiError.storedResponse, { event with outcome := "failed" }⟩)

/-- the arguments of `persist_backend_failure` that are the same all over a handler -/
structure Execution where
  headers : Headers
  operation : OperationRequest
  operationId : Uuid
  resource : Resource

/-- the audit event is built, the failure is recorded, and the handler returns it -/
def failWith {α : Type} (x : Execution) (details : Value) (error : GarageBackendError) :
    HandlerM ApiError α := do
  let event ← audit x.headers x.operation x.resource details
  let apiError ← persistBackendFailure x.operation x.operationId error event
  Prog.throw apiError

/-- a program on Garage whose failure is recorded -/
def garageOrFail {α : Type} (x : Execution) (details : Value)
    (program : GarageM GarageBackendError α) : HandlerM ApiError α := do
  match ← (onGarage program).attempt with
  | .ok a => pure a
  | .error error => failWith x details error

/-- the operation is completed and its response answered -/
def completing (call : FinishCall) : HandlerM ApiError Response := do
  let _ ← callStore (.finish call)
  Prog.ofExcept id (storedIntoResponse call.response)

/-! ## the handlers -/

def serviceExecution (headers : Headers) (operation : OperationRequest) (operationId : Uuid) :
    Execution :=
  ⟨headers, operation, operationId,
    ⟨none, "service_instance", operation.serviceInstanceId.toString⟩⟩

/-- the id of the bucket of a reconcile: the recorded one if the generation was applied before,
else that of the bucket that was brought to the spec -/
def reconciledBucketId (x : Execution) (command : ReconcileCommand) (context : ReconcileContext) :
    HandlerM ApiError String :=
  if context.previouslyApplied then
    match context.bucket.physicalBucketId with
    | some physicalBucketId => pure physicalBucketId
    | none => Prog.throw .internal
  else do
    renewOperation x.operation x.operationId
    let bucket ← garageOrFail x (.object [("generation", .ofI64 command.generation)])
      (GarageAdapter.reconcileBucket context.bucket.physicalBucketId command.spec)
    pure bucket.physicalBucketId

def executeReconcile (state : AppState) (headers : Headers) (command : ReconcileCommand)
    (operationId : Uuid) (context : ReconcileContext) : HandlerM ApiError Response := do
  let x := serviceExecution headers command.operation operationId
  let physicalBucketId ← reconciledBucketId x command context
  let observedGeneration ← Prog.ofExcept id (requestGeneration command.generation)
  let updatedAt ← utcNow
  let stored := successResponse (if context.previouslyApplied then 200 else 202)
    (providerOperationResponse state operationId observedGeneration .ready (some physicalBucketId)
      (some state.s3Endpoint) updatedAt)
  let event ← audit headers command.operation x.resource (.object
    [("bucket_name", .string command.spec.bucketName), ("generation", .ofI64 command.generation),
      ("quota_bytes", .ofU64 command.spec.quotaBytes),
      ("quota_objects", .ofU64 command.spec.quotaObjects)])
  completing ⟨.reconcile command physicalBucketId, operationId, stored, event⟩

def reconcileServiceInstance (state : AppState) (claims : Except AuthError ProviderClaims)
    (serviceInstanceId : Uuid) (headers : Headers) (request : ReconcileRequest) :
    HandlerM ApiError Response := do
  let command ← Prog.ofExcept id (reconcileCommand state claims serviceInstanceId headers request)
  preparing (.reconcile command) fun operationId context =>
    executeReconcile state headers command operationId context

/-- the details of a failure in a phase of the deletion -/
def deletionPhase (command : DeleteCommand) (phase : String) : Value :=
  .object [("generation", .ofI64 command.generation), ("phase", .string phase)]

/-- the usage of the bucket; one that is not found is empty -/
def usageForDeletion (x : Execution) (command : DeleteCommand) (physicalBucketId : String) :
    HandlerM ApiError BucketUsage := do
  match ← (onGarage (GarageAdapter.bucketUsage physicalBucketId)).attempt with
  | .ok usage => pure usage
  | .error (.notFound _) => pure .default
  | .error error => failWith x (deletionPhase command "usage_check") error

def bucketNotEmpty : ApiError :=
  .conflict "bucket_not_empty"
    "service bucket must contain no objects or unfinished uploads before deletion"

/-- a bucket in use is not deleted -/
def requireEmpty (x : Execution) (command : DeleteCommand) (usage : BucketUsage) :
    HandlerM ApiError Unit :=
  if bucketIsEmpty usage then pure ()
  else do
    let event ← audit x.headers x.operation x.resource (.object
      [("bytes", .ofU64 usage.bytes), ("generation", .ofI64 command.generation),
        ("objects", .ofU64 usage.objects),
        ("unfinished_upload_bytes", .ofU64 usage.unfinishedUploadBytes),
        ("unfinished_uploads", .ofU64 usage.unfinishedUploads)])
    persistFailure x.operation x.operationId bucketNotEmpty event
    Prog.throw bucketNotEmpty

/-- the loop over the keys of the service -/
def revokeKeys (x : Execution) (command : DeleteCommand) : List String → HandlerM ApiError Unit
  | [] => pure ()
  | garageKeyId :: rest => do
    renewOperation x.operation x.operationId
    garageOrFail x (deletionPhase command "key_revocation")
      (GarageAdapter.revokeCredential garageKeyId)
    revokeKeys x command rest

def executeDelete (state : AppState) (headers : Headers) (command : DeleteCommand)
    (operationId : Uuid) (context : DeleteContext) : HandlerM ApiError Response :=
  let x := serviceExecution headers command.operation operationId
  match context.bucket.physicalBucketId with
  | none => Prog.throw .internal
  | some physicalBucketId => do
    renewOperation x.operation x.operationId
    let usage ← usageForDeletion x command physicalBucketId
    requireEmpty x command usage
    revokeKeys x command context.garageKeyIds
    renewOperation x.operation x.operationId
    garageOrFail x (deletionPhase command "bucket_deletion")
      (GarageAdapter.deleteBucket physicalBucketId)
    let observedGeneration ← Prog.ofExcept id (requestGeneration command.generation)
    let updatedAt ← utcNow
    let stored := successResponse 200
      (providerOperationResponse state operationId observedGeneration .deleted none none updatedAt)
    let event ← audit headers command.operation x.resource
      (.object [("generation", .ofI64 command.generation)])
    completing ⟨.delete command, operationId, stored, event⟩

def deleteServiceInstance (state : AppState) (claims : Except AuthError ProviderClaims)
    (serviceInstanceId : Uuid) (query : DeleteQuery) (headers : Headers) :
    HandlerM ApiError Response := do
  let command ← Prog.ofExcept id (deleteCommand state claims serviceInstanceId query headers)
  preparing (.delete command) fun operationId context =>
    executeDelete state headers command operationId context

def credentialExecution (headers : Headers) (operation : OperationRequest) (operationId : Uuid)
    (contextId credentialId : Uuid) : Execution :=
  ⟨headers, operation, operationId, ⟨some contextId, "credential", credentialId.toString⟩⟩

/-- `syouyu-{service}-{credential_id}` -/
def deterministicName (serviceInstanceId credentialId : Uuid) : String :=
  "syouyu-" ++ serviceInstanceId.toString ++ "-" ++ credentialId.toString

def newCredential (state : AppState) (command : CreateCredentialCommand)
    (context : CreateCredentialContext) (issued : IssuedCredential) : NewCredential where
  id := context.credentialId
  garageKeyId := issued.garageKeyId
  accessKeyId := issued.accessKeyId
  secretKeyFingerprint := state.sha256 (asBytes issued.secretAccessKey)
  name := command.name
  permissions := command.permissions

/-- completion of a create: an execution that has lost its lease removes the key it made -/
def completingCreate (call : FinishCall) (garageKeyId : String) : HandlerM ApiError Response := do
  let answer : Except StoreError Unit ← Prog.request (Call.store (.finish call))
  match answer with
  | .ok () => Prog.ofExcept id (storedIntoResponse call.response)
  | .error (.operationLeaseLost current) => do
    let _ ← (onGarage (GarageAdapter.revokeCredential garageKeyId)).attempt
    Prog.throw (.ofStore (.operationLeaseLost current))
  | .error error => Prog.throw (.ofStore error)

def executeCreate (state : AppState) (headers : Headers) (principal : Principal)
    (command : CreateCredentialCommand) (operationId : Uuid) (context : CreateCredentialContext) :
    HandlerM ApiError Response :=
  let x := credentialExecution headers command.operation operationId principal.contextId
    context.credentialId
  match context.bucket.physicalBucketId with
  | none => Prog.throw .internal
  | some physicalBucketId => do
    let name := deterministicName principal.scope.serviceInstanceId context.credentialId
    renewOperation x.operation x.operationId
    let issued ← garageOrFail x (.object [("name", .string command.name)])
      (GarageAdapter.createCredential physicalBucketId name command.permissions)
    let createdAt ← utcNow
    let stored := successResponse 201
      (issuedCredentialResponse state command context issued createdAt)
    let credential := newCredential state command context issued
    let event ← audit headers command.operation x.resource (.object
      [("access_key_id", .string credential.accessKeyId), ("name", .string command.name),
        ("permissions", command.permissions.toValue)])
    completingCreate ⟨.createCredential command credential, operationId, stored, event⟩
      credential.garageKeyId

def createCredential (state : AppState) (principal : Except PrincipalAuthError Principal)
    (headers : Headers) (request : CreateCredentialRequest) : HandlerM ApiError Response := do
  let principal ← Prog.ofExcept id (authorize principal credentialCreatePermission)
  let command ← Prog.ofExcept id (createCredentialCommand state principal headers request)
  preparing (.createCredential command) fun operationId context =>
    executeCreate state headers principal command operationId context

/-- the key of a credential that was revoked before is not asked for again -/
def revokeKey (x : Execution) (context : RevokeCredentialContext) : HandlerM ApiError Unit :=
  if context.alreadyRevoked then pure ()
  else garageOrFail x (.object []) (GarageAdapter.revokeCredential context.garageKeyId)

def executeRevoke (headers : Headers) (principal : Principal) (command : RevokeCredentialCommand)
    (operationId : Uuid) (context : RevokeCredentialContext) : HandlerM ApiError Response := do
  let x := credentialExecution headers command.operation operationId principal.contextId
    command.credentialId
  renewOperation x.operation x.operationId
  revokeKey x context
  let stored := successResponse 200 (revokedCredentialResponse command.credentialId)
  let event ← audit headers command.operation x.resource
    (.object [("already_revoked", .bool context.alreadyRevoked)])
  completing ⟨.revokeCredential command, operationId, stored, event⟩

def revokeCredential (state : AppState) (principal : Except PrincipalAuthError Principal)
    (credentialId : Uuid) (headers : Headers) : HandlerM ApiError Response := do
  let principal ← Prog.ofExcept id (authorize principal credentialRevokePermission)
  let command ← Prog.ofExcept id (revokeCredentialCommand state principal credentialId headers)
  preparing (.revokeCredential command) fun operationId context =>
    executeRevoke headers principal command operationId context

/-- the handler of a request -/
def handle (state : AppState) : Request → HandlerM ApiError Response
  | .reconcile claims serviceInstanceId headers request =>
    reconcileServiceInstance state claims serviceInstanceId headers request
  | .delete claims serviceInstanceId query headers =>
    deleteServiceInstance state claims serviceInstanceId query headers
  | .createCredential principal headers request => createCredential state principal headers request
  | .revokeCredential principal credentialId headers =>
    revokeCredential state principal credentialId headers

end Syouyu
