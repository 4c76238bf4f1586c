import Syouyu.Store.Receipts

/-!
# The calls of the store

The public methods of `PgStore` (`lib.rs`), each as one transaction.  The advisory locks are not
written out: a call is one atomic step.  The two that only read take no locks: they are programs of
statements, and one atomic step only if nothing comes between these.

* `prepare_*`      validate the command, claim the receipt (`withClaim`), check the service;
* `complete_*`, `fail_operation`   `finishing`: the fence, the writes, the sealed receipt, the audit;
* `renewOperation`, `recordUsage`, `recordAudit`;
* `Select`, `serviceOverview`, `listCredentials`   statements that read, and what is made of them.

`StoreCall` names every call with its arguments; `StoreCall.run` performs one on a database.
-/

set_option linter.unusedSectionVars false

namespace Syouyu
open Lib

/-! ## reading services and buckets -/

def BucketRow.tryIntoRecord (row : BucketRow) : Except StoreError BucketRecord := do
  let quotaBytes ← fromI64 row.quotaBytes "bucket quota_bytes"
  let quotaObjects ← fromI64 row.quotaObjects "bucket quota_objects"
  let usedBytes ← fromI64 row.usedBytes "bucket used_bytes"
  let usedObjects ← fromI64 row.usedObjects "bucket used_objects"
  pure
    { serviceInstanceId := row.serviceInstanceId
      organizationId := row.organizationId
      projectId := row.projectId
      physicalBucketId := row.physicalBucketId
      bucketName := row.bucketName
      region := row.region
      quotaBytes, quotaObjects, usedBytes, usedObjects
      usageMeasuredAt := row.usageMeasuredAt }

/-- `fetch_bucket_row`, then the error `missing` if there is none -/
def fetchBucketRow (serviceInstanceId : Uuid) (missing : String) : StoreTx BucketRecord := do
  let row ← Tx.read fun db => db.buckets.lookup serviceInstanceId
  let row ← Tx.require row (.corruptData missing)
  Tx.ofExcept row.tryIntoRecord

def fetchServiceRow (serviceInstanceId : Uuid) : StoreTx (Option ServiceRow) :=
  Tx.read fun db => db.services.lookup serviceInstanceId

def ensureScope (operation : OperationRequest) (organizationId projectId : Uuid) : StoreTx Unit :=
  Tx.ensure (decide (operation.organizationId = organizationId) &&
      decide (operation.projectId = projectId))
    (.conflict "service instance scope does not match authenticated principal")

def readyBucketInTransaction (operation : OperationRequest) : StoreTx BucketRecord := do
  let service ← fetchServiceRow operation.serviceInstanceId
  let service ← Tx.require service .notFound
  ensureScope operation service.organizationId service.projectId
  Tx.ensure (decide (service.phase = .ready) &&
    decide (service.observedGeneration = service.desiredGeneration)) .serviceNotReady
  let bucket ← fetchBucketRow operation.serviceInstanceId "ready service bucket"
  Tx.ensure bucket.physicalBucketId.isSome (.corruptData "physical bucket ID")
  pure bucket

def reserveBucketName (env : CallEnv) (bucketName : String) (serviceInstanceId : Uuid) :
    StoreTx Unit := do
  let affected ← upsertRow nameReservationsPart .database ⟨bucketName, serviceInstanceId, env.now⟩
    (fun r => decide (r.serviceInstanceId = serviceInstanceId))
    (fun r => { r with bucketName := bucketName })
  Tx.ensure (decide (affected = 1)) .bucketNameUnavailable

/-- the checks of `insert_audit` -/
def AuditEvent.valid (audit : AuditEvent) : Bool :=
  !audit.requestId.isEmpty && decide (len audit.requestId ≤ 256) &&
  !audit.action.isEmpty && decide (len audit.action ≤ 128) &&
  !audit.resourceType.isEmpty && decide (len audit.resourceType ≤ 64) &&
  (decide (audit.outcome = "allowed") || decide (audit.outcome = "denied") ||
    decide (audit.outcome = "failed")) && audit.details.isObject

def insertAudit (env : CallEnv) (audit : AuditEvent) : StoreTx Unit := do
  Tx.ensure audit.valid (.validation "audit event is invalid")
  insertRow auditsPart .database ⟨env.auditId, audit, env.now⟩

/-! ## preparing -/

namespace PgStore
variable (store : PgStore) (env : CallEnv)

/-- a reconcile at the current generation must repeat the applied state -/
def sameGeneration (command : ReconcileCommand) (existing : ServiceRow) : StoreTx Bool := do
  let currentSpec ← Tx.require (SyouyuSpec.fromValue existing.desiredSpec)
    (.corruptData "service desired_spec")
  Tx.ensure (decide (existing.name = command.name) && decide (currentSpec = command.spec))
    (.conflict "generation was reused with different desired state")
  Tx.ensure (decide (existing.phase = .ready) &&
    decide (existing.observedGeneration = command.generation))
    (.operationInProgress existing.currentOperationId)
  pure true

/-- whether the command's generation is the applied one -/
def previouslyApplied (command : ReconcileCommand) (existing : ServiceRow) : StoreTx Bool :=
  if command.generation = existing.desiredGeneration then sameGeneration command existing
  else pure false

/-- what `prepare_reconcile` asks of an existing service; answers its physical bucket id and
whether the generation was applied before -/
def reconcileExisting (command : ReconcileCommand) (existing : ServiceRow) :
    StoreTx (Option String × Bool) := do
  ensureScope command.operation existing.organizationId existing.projectId
  Tx.ensure (decide (existing.phase ≠ .deleted))
    (.conflict "service instance has already been deleted")
  Tx.ensure (decide (existing.desiredGeneration ≤ command.generation))
    (.staleGeneration existing.desiredGeneration command.generation)
  let existingBucket ← fetchBucketRow command.operation.serviceInstanceId "service bucket"
  Tx.ensure (decide (existingBucket.bucketName = command.spec.bucketName))
    (.conflict "bucket_name is immutable after service creation")
  let applied ← previouslyApplied command existing
  pure (existingBucket.physicalBucketId, applied)

/-- the checks of `prepare_reconcile` on the service, if there is one -/
def reconcileTarget (command : ReconcileCommand) : StoreTx (Option String × Bool) := do
  let existing ← fetchServiceRow command.operation.serviceInstanceId
  match existing with
  | none => pure (none, false)
  | some existing => reconcileExisting command existing

def prepareReconcileBody (command : ReconcileCommand) (claimed : Option Uuid) :
    StoreTx (Uuid × ReconcileContext) := do
  rejectParallelOperation command.operation.serviceInstanceId command.operation.idempotencyKey
  let target ← reconcileTarget command
  reserveBucketName env command.spec.bucketName command.operation.serviceInstanceId
  let operationId ← grantReceipt env command.operation claimed
  pure (operationId,
    { bucket :=
        { serviceInstanceId := command.operation.serviceInstanceId
          organizationId := command.operation.organizationId
          projectId := command.operation.projectId
          physicalBucketId := target.1
          bucketName := command.spec.bucketName
          region := command.spec.region
          quotaBytes := command.spec.quotaBytes
          quotaObjects := command.spec.quotaObjects
          usedBytes := 0
          usedObjects := 0
          usageMeasuredAt := none }
      previouslyApplied := target.2 })

def prepareReconcile (command : ReconcileCommand) : StoreTx (Prepare ReconcileContext) := do
  Tx.ofExcept command.validate
  withClaim store env command.operation (prepareReconcileBody env command)

/-- a delete must carry the generation right after the current one -/
def checkDeleteGeneration (command : DeleteCommand) (service : ServiceRow) : StoreTx Unit := do
  let expectedGeneration ← Tx.require (checkedSucc service.desiredGeneration)
    (.configuration "service generation overflow")
  Tx.ensure (decide (expectedGeneration ≤ command.generation))
    (.staleGeneration service.desiredGeneration command.generation)
  Tx.ensure (decide (command.generation = expectedGeneration))
    (.conflict "delete generation must immediately follow desired generation")

/-- `ORDER BY created_at, id` -/
def credentialOrder (a b : CredentialRow) : Bool :=
  decide (a.createdAt < b.createdAt) ||
    (decide (a.createdAt = b.createdAt) && decide (a.id ≤ b.id))

def activeGarageKeyIds (serviceInstanceId : Uuid) : StoreTx (List String) :=
  Tx.read fun db => (orderBy credentialOrder (db.credentials.select fun r =>
    decide (r.serviceInstanceId = serviceInstanceId) && decide (r.status = .active))).map
      CredentialRow.garageKeyId

def prepareDeleteBody (command : DeleteCommand) (claimed : Option Uuid) :
    StoreTx (Uuid × DeleteContext) := do
  rejectParallelOperation command.operation.serviceInstanceId command.operation.idempotencyKey
  let service ← fetchServiceRow command.operation.serviceInstanceId
  let service ← Tx.require service .notFound
  ensureScope command.operation service.organizationId service.projectId
  Tx.ensure (decide (service.phase ≠ .deleted)) .notFound
  checkDeleteGeneration command service
  let bucket ← fetchBucketRow command.operation.serviceInstanceId "service bucket"
  Tx.ensure bucket.physicalBucketId.isSome (.corruptData "physical bucket ID")
  let garageKeyIds ← activeGarageKeyIds command.operation.serviceInstanceId
  let operationId ← grantReceipt env command.operation claimed
  pure (operationId, ⟨bucket, garageKeyIds⟩)

def prepareDelete (command : DeleteCommand) : StoreTx (Prepare DeleteContext) := do
  Tx.ofExcept command.validate
  withClaim store env command.operation (prepareDeleteBody env command)

end PgStore

/-! ## statements that read -/

/-- the `SELECT EXISTS` of `list_credentials` -/
def Database.serviceExists (db : Database) (organizationId projectId serviceInstanceId : Uuid) :
    Bool :=
  (db.services.lookup serviceInstanceId).any fun r =>
    decide (r.organizationId = organizationId) && decide (r.projectId = projectId) &&
    decide (r.phase ≠ .deleted)

/-- `ORDER BY created_at DESC, id DESC` is the reverse of the ascending order -/
def Database.credentialRows (db : Database) (serviceInstanceId : Uuid) : List CredentialRow :=
  orderBy (fun a b => PgStore.credentialOrder b a)
    (db.credentials.select fun r => decide (r.serviceInstanceId = serviceInstanceId))

/-- the statements of the calls that only read: each has a snapshot of its own, so that others may
commit in between -/
inductive Select where
  | service (serviceInstanceId : Uuid)
  | bucket (serviceInstanceId : Uuid)
  | serviceExists (organizationId projectId serviceInstanceId : Uuid)
  | credentials (serviceInstanceId : Uuid)

namespace Select

def Answer : Select → Type
  | service _ => Option ServiceRow
  | bucket _ => Option BucketRow
  | serviceExists .. => Bool
  | credentials _ => List CredentialRow

/-- what a statement answers on a snapshot -/
def eval (db : Database) : (q : Select) → q.Answer
  | service s => db.services.lookup s
  | bucket s => db.buckets.lookup s
  | serviceExists o p s => db.serviceExists o p s
  | credentials s => db.credentialRows s

/-- a statement in a transaction that nothing comes between -/
def perform (q : Select) : StoreTx q.Answer := Tx.read fun db => q.eval db

end Select

abbrev SelectM := Prog Select Select.Answer StoreError

def CredentialReservationRow.matches (row : CredentialReservationRow)
    (command : CreateCredentialCommand) : Bool :=
  decide (row.serviceInstanceId = command.operation.serviceInstanceId) &&
  decide (row.organizationId = command.operation.organizationId) &&
  decide (row.projectId = command.operation.projectId) &&
  decide (row.name = command.name) &&
  decide (BucketPermissions.fromValue row.permissions = some command.permissions)

/-- active credentials plus pending reservations of a service -/
def Database.perBucket (db : Database) (serviceInstanceId : Uuid) : Nat :=
  db.credentials.count (fun r => decide (r.serviceInstanceId = serviceInstanceId) &&
    decide (r.status = .active)) +
  db.credentialReservations.count (fun r => decide (r.serviceInstanceId = serviceInstanceId))

/-- active credentials plus pending reservations of an organization -/
def Database.perOrganization (db : Database) (organizationId : Uuid) : Nat :=
  db.credentials.count (fun r => decide (r.organizationId = organizationId) &&
    decide (r.status = .active)) +
  db.credentialReservations.count (fun r => decide (r.organizationId = organizationId))

namespace PgStore
variable (store : PgStore) (env : CallEnv)

/-- a text bound as a query parameter -/
def bindText (text : String) : StoreTx Unit :=
  Tx.ensure (textStorable text) (.database .checkViolation)

/-- the branch of a takeover: the reservation of the first attempt is used again -/
def takeOverReservation (command : CreateCredentialCommand) (bucket : BucketRecord)
    (operationId : Uuid) : StoreTx (Uuid × CreateCredentialContext) := do
  rejectParallelOperation command.operation.serviceInstanceId command.operation.idempotencyKey
  let reservation ← Tx.read fun db =>
    (db.credentialReservations.select fun r => decide (r.operationId = operationId)).head?
  let reservation ← Tx.require reservation (.corruptData "credential reservation")
  Tx.ensure (reservation.matches command) (.corruptData "credential reservation")
  pure (operationId, ⟨bucket, reservation.credentialId⟩)

/-- the command's limit or the store's, whichever is smaller -/
def maxCredentialsPerBucket (command : CreateCredentialCommand) : UInt32 :=
  min command.credentialLimits.maxCredentialsPerBucket
    store.credentialLimits.maxCredentialsPerBucket

def maxTotalCredentials (command : CreateCredentialCommand) : UInt32 :=
  min command.credentialLimits.maxTotalCredentials store.credentialLimits.maxTotalCredentials

/-- the three checks a new reservation has to pass -/
def admitReservation (command : CreateCredentialCommand) : StoreTx Unit := do
  bindText command.name
  let duplicate ← Tx.read fun db =>
    db.credentials.exists? (fun r =>
      decide (r.serviceInstanceId = command.operation.serviceInstanceId) &&
      decide (r.name = command.name)) ||
    db.credentialReservations.exists? (fun r =>
      decide (r.serviceInstanceId = command.operation.serviceInstanceId) &&
      decide (r.name = command.name))
  Tx.ensure (!duplicate) (.conflict "credential name already exists for this service")
  let perBucket ← Tx.read fun db => db.perBucket command.operation.serviceInstanceId
  Tx.ensure (decide (perBucket < (maxCredentialsPerBucket store command).toNat))
    (.credentialLimitExceeded "bucket" (maxCredentialsPerBucket store command))
  let total ← Tx.read fun db => db.perOrganization command.operation.organizationId
  Tx.ensure (decide (total < (maxTotalCredentials store command).toNat))
    (.credentialLimitExceeded "organization" (maxTotalCredentials store command))

/-- the row a new reservation is written as -/
def reservationRow (command : CreateCredentialCommand) (operationId : Uuid) :
    CredentialReservationRow where
  credentialId := env.credentialId
  operationId := operationId
  serviceInstanceId := command.operation.serviceInstanceId
  organizationId := command.operation.organizationId
  projectId := command.operation.projectId
  name := command.name
  permissions := command.permissions.toValue
  createdAt := env.now

/-- the branch of a new key: check the limits, write receipt and reservation -/
def newReservation (command : CreateCredentialCommand) (bucket : BucketRecord) :
    StoreTx (Uuid × CreateCredentialContext) := do
  admitReservation store command
  rejectParallelOperation command.operation.serviceInstanceId command.operation.idempotencyKey
  let operationId ← reserveReceipt env command.operation
  insertRow credentialReservationsPart mapDatabaseError (reservationRow env command operationId)
  pure (operationId, ⟨bucket, env.credentialId⟩)

def prepareCreateCredentialBody (command : CreateCredentialCommand) (claimed : Option Uuid) :
    StoreTx (Uuid × CreateCredentialContext) := do
  let bucket ← readyBucketInTransaction command.operation
  match claimed with
  | some operationId => takeOverReservation command bucket operationId
  | none => newReservation store env command bucket

def prepareCreateCredential (command : CreateCredentialCommand) :
    StoreTx (Prepare CreateCredentialContext) := do
  Tx.ofExcept command.validate
  withClaim store env command.operation (prepareCreateCredentialBody store env command)

def prepareRevokeCredentialBody (command : RevokeCredentialCommand) (claimed : Option Uuid) :
    StoreTx (Uuid × RevokeCredentialContext) := do
  rejectParallelOperation command.operation.serviceInstanceId command.operation.idempotencyKey
  let _ ← readyBucketInTransaction command.operation
  let row ← Tx.read fun db => (db.credentials.lookup command.credentialId).filter
    fun r => decide (r.serviceInstanceId = command.operation.serviceInstanceId)
  let row ← Tx.require row .notFound
  let operationId ← grantReceipt env command.operation claimed
  pure (operationId, ⟨row.garageKeyId, decide (row.status = .revoked)⟩)

def prepareRevokeCredential (command : RevokeCredentialCommand) :
    StoreTx (Prepare RevokeCredentialContext) := do
  Tx.ofExcept command.validate
  withClaim store env command.operation (prepareRevokeCredentialBody env command)

/-! ## finishing -/

/-- The frame of every finishing call: the fence first, then what the call writes before and
after the response is sealed, and the audit event. -/
def finishing (operation : OperationRequest) (operationId : Uuid) (response : StoredHttpResponse)
    (audit : AuditEvent) (before after : StoreTx Unit) : StoreTx Unit := do
  requireInProgressReceipt operation operationId
  before
  finishReceipt store env operation operationId response
  after
  insertAudit env audit

/-- the service row of a completed reconcile -/
def reconciledService (command : ReconcileCommand) (operationId : Uuid) : ServiceRow where
  id := command.operation.serviceInstanceId
  organizationId := command.operation.organizationId
  projectId := command.operation.projectId
  name := command.name
  desiredGeneration := command.generation
  desiredSpec := command.spec.toValue
  observedGeneration := command.generation
  phase := .ready
  currentOperationId := operationId
  createdAt := env.now
  updatedAt := env.now
  deletedAt := none

/-- what a reconcile makes of an existing service row -/
def reconcileService (command : ReconcileCommand) (operationId : Uuid) (row : ServiceRow) :
    ServiceRow :=
  { row with
    name := command.name
    desiredGeneration := command.generation
    desiredSpec := command.spec.toValue
    observedGeneration := command.generation
    phase := .ready
    currentOperationId := operationId
    updatedAt := env.now
    deletedAt := none }

def upsertService (command : ReconcileCommand) (operationId : Uuid) : StoreTx Unit := do
  let affected ← upsertRow servicesPart mapDatabaseError
    (reconciledService env command operationId)
    (fun r => decide (r.organizationId = command.operation.organizationId) &&
      decide (r.projectId = command.operation.projectId) &&
      decide (r.desiredGeneration ≤ command.generation) && decide (r.phase ≠ .deleted))
    (reconcileService env command operationId)
  Tx.ensure (decide (affected = 1))
    (.conflict "service changed while reconciliation was in progress")

/-- the bucket row of a first reconcile -/
def reconciledBucket (command : ReconcileCommand) (physicalBucketId : String)
    (quotaBytes quotaObjects : Int64) : BucketRow where
  serviceInstanceId := command.operation.serviceInstanceId
  organizationId := command.operation.organizationId
  projectId := command.operation.projectId
  physicalBucketId := some physicalBucketId
  bucketName := command.spec.bucketName
  region := command.spec.region
  quotaBytes := quotaBytes
  quotaObjects := quotaObjects
  usedBytes := 0
  usedObjects := 0
  usageMeasuredAt := none
  createdAt := env.now
  updatedAt := env.now

/-- what a reconcile makes of an existing bucket row -/
def reconcileBucket (command : ReconcileCommand) (physicalBucketId : String)
    (quotaBytes quotaObjects : Int64) (row : BucketRow) : BucketRow :=
  { row with
    physicalBucketId := some physicalBucketId
    bucketName := command.spec.bucketName
    region := command.spec.region
    quotaBytes := quotaBytes
    quotaObjects := quotaObjects
    updatedAt := env.now }

def upsertBucket (command : ReconcileCommand) (physicalBucketId : String)
    (quotaBytes quotaObjects : Int64) : StoreTx Unit := do
  let _ ← upsertRow bucketsPart mapDatabaseError
    (reconciledBucket env command physicalBucketId quotaBytes quotaObjects)
    (fun _ => true) (reconcileBucket env command physicalBucketId quotaBytes quotaObjects)
  pure ()

/-- what `complete_reconcile` writes before it finishes the receipt -/
def applyReconcile (command : ReconcileCommand) (operationId : Uuid) (physicalBucketId : String)
    (quotaBytes quotaObjects : Int64) : StoreTx Unit := do
  upsertService env command operationId
  upsertBucket env command physicalBucketId quotaBytes quotaObjects
  deleteRows nameReservationsPart fun r =>
    decide (r.serviceInstanceId = command.operation.serviceInstanceId) &&
    decide (r.bucketName ≠ command.spec.bucketName)

def completeReconcile (command : ReconcileCommand) (operationId : Uuid)
    (physicalBucketId : String) (response : StoredHttpResponse) (audit : AuditEvent) :
    StoreTx Unit := do
  Tx.ensure (!physicalBucketId.isEmpty && decide (len physicalBucketId ≤ 256))
    (.validation "physical bucket ID is invalid")
  let quotaBytes ← Tx.ofExcept (toI64 command.spec.quotaBytes "quota_bytes")
  let quotaObjects ← Tx.ofExcept (toI64 command.spec.quotaObjects "quota_objects")
  finishing store env command.operation operationId response audit
    (applyReconcile env command operationId physicalBucketId quotaBytes quotaObjects) (pure ())

/-- a credential row after its revocation; the first revocation is kept -/
def revokedCredential (principalId : Uuid) (row : CredentialRow) : CredentialRow :=
  { row with
    status := .revoked
    revokedAt := some (row.revokedAt.getD env.now)
    revokedBy := some (row.revokedBy.getD principalId) }

/-- the service row of a completed delete -/
def deletedService (command : DeleteCommand) (operationId : Uuid) (row : ServiceRow) :
    ServiceRow :=
  { row with
    desiredGeneration := command.generation
    observedGeneration := command.generation
    phase := .deleted
    currentOperationId := operationId
    deletedAt := some env.now
    updatedAt := env.now }

/-- what `complete_delete` writes before it finishes the receipt -/
def applyDelete (command : DeleteCommand) (operationId : Uuid) : StoreTx Unit := do
  let _ ← updateRows credentialsPart .database
    (fun r => decide (r.serviceInstanceId = command.operation.serviceInstanceId) &&
      decide (r.status = .active))
    (revokedCredential env command.operation.principalId)
  let updated ← updateRows servicesPart .database
    (fun r => serviceSchema.hasKey command.operation.serviceInstanceId r &&
      decide (r.organizationId = command.operation.organizationId) &&
      decide (r.projectId = command.operation.projectId) && decide (r.phase ≠ .deleted))
    (deletedService env command operationId)
  Tx.ensure (decide (updated = 1)) (.conflict "service changed while deletion was in progress")
  deleteRows nameReservationsPart fun r =>
    decide (r.serviceInstanceId = command.operation.serviceInstanceId)

def completeDelete (command : DeleteCommand) (operationId : Uuid) (response : StoredHttpResponse)
    (audit : AuditEvent) : StoreTx Unit :=
  finishing store env command.operation operationId response audit
    (applyDelete env command operationId) (pure ())

/-- the credential row of a completed create -/
def createdCredential (command : CreateCredentialCommand) (credential : NewCredential) :
    CredentialRow where
  id := credential.id
  serviceInstanceId := command.operation.serviceInstanceId
  organizationId := command.operation.organizationId
  projectId := command.operation.projectId
  principalId := command.operation.principalId
  name := credential.name
  garageKeyId := credential.garageKeyId
  accessKeyId := credential.accessKeyId
  permissions := credential.permissions.toValue
  secretKeyFingerprint := credential.secretKeyFingerprint
  status := .active
  createdAt := env.now
  revokedAt := none
  revokedBy := none

/-- what `complete_create_credential` writes before it finishes the receipt -/
def applyCreateCredential (command : CreateCredentialCommand) (operationId : Uuid)
    (credential : NewCredential) : StoreTx Unit := do
  bindText command.name
  let reserved ← Tx.read fun db => db.credentialReservations.exists? fun r =>
    credentialReservationSchema.hasKey credential.id r && decide (r.operationId = operationId) &&
    decide (r.serviceInstanceId = command.operation.serviceInstanceId) &&
    decide (r.name = command.name)
  Tx.ensure reserved (.corruptData "credential reservation")
  insertRow credentialsPart mapDatabaseError (createdCredential env command credential)
  deleteRows credentialReservationsPart fun r =>
    credentialReservationSchema.hasKey credential.id r && decide (r.operationId = operationId)

def completeCreateCredential (command : CreateCredentialCommand) (operationId : Uuid)
    (credential : NewCredential) (response : StoredHttpResponse) (audit : AuditEvent) :
    StoreTx Unit := do
  Tx.ensure (!credential.id.isNil && !credential.garageKeyId.isEmpty &&
    !credential.accessKeyId.isEmpty && decide (credential.name = command.name) &&
    decide (credential.permissions = command.permissions))
    (.validation "created credential metadata is invalid")
  finishing store env command.operation operationId response audit
    (applyCreateCredential env command operationId credential) (pure ())

/-- what `complete_revoke_credential` writes before it finishes the receipt -/
def applyRevokeCredential (command : RevokeCredentialCommand) : StoreTx Unit := do
  let updated ← updateRows credentialsPart .database
    (fun r => credentialSchema.hasKey command.credentialId r &&
      decide (r.serviceInstanceId = command.operation.serviceInstanceId))
    (revokedCredential env command.operation.principalId)
  Tx.ensure (decide (updated = 1)) .notFound

def completeRevokeCredential (command : RevokeCredentialCommand) (operationId : Uuid)
    (response : StoredHttpResponse) (audit : AuditEvent) : StoreTx Unit :=
  finishing store env command.operation operationId response audit
    (applyRevokeCredential env command) (pure ())

def renewOperation (operation : OperationRequest) (operationId : Uuid) : StoreTx Unit := do
  Tx.ofExcept operation.validate
  requireInProgressReceipt operation operationId
  let renewed ← updateRows receiptsPart .database (heldWhere operation operationId)
    (ReceiptRow.renewed env)
  Tx.ensure (decide (renewed = 1)) (.operationLeaseLost operationId)

/-- what `fail_operation` releases after it finished the receipt -/
def releaseReservations (operation : OperationRequest) (operationId : Uuid) : StoreTx Unit := do
  deleteRows credentialReservationsPart fun r => decide (r.operationId = operationId)
  let buckets ← Tx.read Database.buckets
  deleteRows nameReservationsPart fun r =>
    decide (r.serviceInstanceId = operation.serviceInstanceId) &&
    !buckets.exists? fun b =>
      decide (b.serviceInstanceId = r.serviceInstanceId) && decide (b.bucketName = r.bucketName)

def failOperation (operation : OperationRequest) (operationId : Uuid)
    (response : StoredHttpResponse) (audit : AuditEvent) : StoreTx Unit := do
  Tx.ensure response.failed (.validation "failed operation response must be marked failed")
  finishing store env operation operationId response audit (pure ())
    (releaseReservations operation operationId)

/-! ## reading and recording -/

/-- the service of a row, if it is in the scope and has not been deleted -/
def visibleService (organizationId projectId : Uuid) (row : Option ServiceRow) :
    Except StoreError ServiceRow := do
  let service ← okOr row .notFound
  if service.organizationId ≠ organizationId ∨ service.projectId ≠ projectId then
    .error .notFound
  else if service.phase = .deleted then .error .notFound
  else pure service

/-- `ServiceRow::try_into_record` -/
def serviceRecord (service : ServiceRow) (bucket : BucketRecord) :
    Except StoreError ServiceRecord := do
  let spec ← okOr (SyouyuSpec.fromValue service.desiredSpec) (.corruptData "service desired_spec")
  pure
    { id := service.id
      organizationId := service.organizationId
      projectId := service.projectId
      name := service.name
      desiredGeneration := service.desiredGeneration
      observedGeneration := service.observedGeneration
      phase := service.phase
      operationId := service.currentOperationId
      spec
      bucket }

/-- the two rows of an overview together -/
def overviewRecord (service : ServiceRow) (row : Option BucketRow) :
    Except StoreError ServiceRecord := do
  let row ← okOr row (.corruptData "service bucket")
  let bucket ← row.tryIntoRecord
  serviceRecord service bucket

def serviceOverview (organizationId projectId serviceInstanceId : Uuid) :
    SelectM ServiceRecord := do
  let row ← Prog.request (Select.service serviceInstanceId)
  let service ← Prog.ofExcept id (visibleService organizationId projectId row)
  let row ← Prog.request (Select.bucket serviceInstanceId)
  Prog.ofExcept id (overviewRecord service row)

def credentialRecord (row : CredentialRow) : Except StoreError CredentialRecord := do
  let permissions ← okOr (BucketPermissions.fromValue row.permissions)
    (.corruptData "credential permissions")
  pure
    { id := row.id
      serviceInstanceId := row.serviceInstanceId
      name := row.name
      accessKeyId := row.accessKeyId
      permissions
      status := row.status
      createdAt := row.createdAt
      revokedAt := row.revokedAt }

/-- `if !exists` -/
def ensureListed (exists_ : Bool) : Except StoreError Unit :=
  if exists_ then .ok () else .error .notFound

def listCredentials (organizationId projectId serviceInstanceId : Uuid) :
    SelectM (List CredentialRecord) := do
  let exists_ ← Prog.request
    (Select.serviceExists organizationId projectId serviceInstanceId)
  Prog.ofExcept id (ensureListed exists_)
  let rows ← Prog.request (Select.credentials serviceInstanceId)
  Prog.ofExcept id (rows.mapM credentialRecord)

/-- a bucket row after a usage measurement -/
def measuredBucket (bytes objects : Int64) (measuredAt : Timestamp) (row : BucketRow) : BucketRow :=
  { row with
    usedBytes := bytes
    usedObjects := objects
    usageMeasuredAt := some measuredAt
    updatedAt := env.now }

def recordUsage (organizationId projectId serviceInstanceId : Uuid) (bytesUsed objectsUsed : UInt64)
    (measuredAt : Timestamp) : StoreTx UsageRecord := do
  let bytes ← Tx.ofExcept (toI64 bytesUsed "bytes_used")
  let objects ← Tx.ofExcept (toI64 objectsUsed "objects_used")
  let bucket ← Tx.read fun db => (db.buckets.lookup serviceInstanceId).filter fun r =>
    decide (r.organizationId = organizationId) && decide (r.projectId = projectId)
  let bucket ← Tx.require bucket .notFound
  let _ ← updateRows bucketsPart .database (bucketSchema.hasKey serviceInstanceId)
    (measuredBucket env bytes objects measuredAt)
  let _ ← upsertRow usageSnapshotsPart .database
    ⟨serviceInstanceId, organizationId, projectId, bytes, objects, measuredAt, env.now⟩
    (fun r => decide (r.measuredAt ≤ measuredAt))
    (fun r => { r with
      bytesUsed := bytes
      objectsUsed := objects
      measuredAt := measuredAt
      recordedAt := env.now })
  let quotaBytes ← Tx.ofExcept (fromI64 bucket.quotaBytes "bucket quota_bytes")
  let quotaObjects ← Tx.ofExcept (fromI64 bucket.quotaObjects "bucket quota_objects")
  pure ⟨serviceInstanceId, bytesUsed, objectsUsed, quotaBytes, quotaObjects, measuredAt⟩

def recordAudit (audit : AuditEvent) : StoreTx Unit := insertAudit env audit

end PgStore

/-! ## calls as data -/

inductive PrepareCall where
  | reconcile (command : ReconcileCommand)
  | delete (command : DeleteCommand)
  | createCredential (command : CreateCredentialCommand)
  | revokeCredential (command : RevokeCredentialCommand)
  deriving DecidableEq

namespace PrepareCall

def operation : PrepareCall → OperationRequest
  | reconcile command => command.operation
  | delete command => command.operation
  | createCredential command => command.operation
  | revokeCredential command => command.operation

def Context : PrepareCall → Type
  | reconcile _ => ReconcileContext
  | delete _ => DeleteContext
  | createCredential _ => CreateCredentialContext
  | revokeCredential _ => RevokeCredentialContext

instance : (call : PrepareCall) → DecidableEq call.Context
  | reconcile _ => inferInstanceAs (DecidableEq ReconcileContext)
  | delete _ => inferInstanceAs (DecidableEq DeleteContext)
  | createCredential _ => inferInstanceAs (DecidableEq CreateCredentialContext)
  | revokeCredential _ => inferInstanceAs (DecidableEq RevokeCredentialContext)

def validate : PrepareCall → Except StoreError Unit
  | reconcile command => command.validate
  | delete command => command.validate
  | createCredential command => command.validate
  | revokeCredential command => command.validate

def body (store : PgStore) (env : CallEnv) :
    (call : PrepareCall) → Option Uuid → StoreTx (Uuid × call.Context)
  | reconcile command => PgStore.prepareReconcileBody env command
  | delete command => PgStore.prepareDeleteBody env command
  | createCredential command => store.prepareCreateCredentialBody env command
  | revokeCredential command => PgStore.prepareRevokeCredentialBody env command

def exec (store : PgStore) (env : CallEnv) : (call : PrepareCall) → StoreTx (Prepare call.Context)
  | reconcile command => store.prepareReconcile env command
  | delete command => store.prepareDelete env command
  | createCredential command => store.prepareCreateCredential env command
  | revokeCredential command => store.prepareRevokeCredential env command

/-- all four prepare calls have one shape -/
theorem exec_eq (store : PgStore) (env : CallEnv) (call : PrepareCall) :
    call.exec store env = (do
      Tx.ofExcept call.validate
      withClaim store env call.operation (call.body store env)) := by
  cases call <;> rfl

end PrepareCall

/-- what a finishing call records: the outcome of one of the four operations, or a failure -/
inductive Completion where
  | reconcile (command : ReconcileCommand) (physicalBucketId : String)
  | delete (command : DeleteCommand)
  | createCredential (command : CreateCredentialCommand) (credential : NewCredential)
  | revokeCredential (command : RevokeCredentialCommand)
  | fail (operation : OperationRequest)

structure FinishCall where
  completion : Completion
  operationId : Uuid
  response : StoredHttpResponse
  audit : AuditEvent

namespace Completion

def operation : Completion → OperationRequest
  | reconcile command _ => command.operation
  | delete command => command.operation
  | createCredential command _ => command.operation
  | revokeCredential command => command.operation
  | fail operation => operation

/-- what a finishing call checks before it opens its transaction -/
def precheck (response : StoredHttpResponse) : Completion → Bool
  | reconcile command physicalBucketId =>
    (!physicalBucketId.isEmpty && decide (len physicalBucketId ≤ 256)) &&
    decide (command.spec.quotaBytes ≤ maxGarageQuota) &&
    decide (command.spec.quotaObjects ≤ maxGarageQuota)
  | delete _ => true
  | createCredential command credential =>
    !credential.id.isNil && !credential.garageKeyId.isEmpty && !credential.accessKeyId.isEmpty &&
    decide (credential.name = command.name) &&
    decide (credential.permissions = command.permissions)
  | revokeCredential _ => true
  | fail _ => response.failed

/-- what it writes before the receipt is sealed -/
def before (env : CallEnv) (operationId : Uuid) : Completion → StoreTx Unit
  | reconcile command physicalBucketId =>
    PgStore.applyReconcile env command operationId physicalBucketId
      command.spec.quotaBytes.toInt64 command.spec.quotaObjects.toInt64
  | delete command => PgStore.applyDelete env command operationId
  | createCredential command credential =>
    PgStore.applyCreateCredential env command operationId credential
  | revokeCredential command => PgStore.applyRevokeCredential env command
  | fail _ => pure ()

/-- what it writes after the receipt is sealed -/
def after (operationId : Uuid) : Completion → StoreTx Unit
  | fail operation => PgStore.releaseReservations operation operationId
  | _ => pure ()

end Completion

namespace FinishCall

def operation (call : FinishCall) : OperationRequest := call.completion.operation

def exec (store : PgStore) (env : CallEnv) (call : FinishCall) : StoreTx Unit :=
  match call.completion with
  | .reconcile command physicalBucketId =>
    store.completeReconcile env command call.operationId physicalBucketId call.response call.audit
  | .delete command =>
    store.completeDelete env command call.operationId call.response call.audit
  | .createCredential command credential =>
    store.completeCreateCredential env command call.operationId credential call.response call.audit
  | .revokeCredential command =>
    store.completeRevokeCredential env command call.operationId call.response call.audit
  | .fail operation =>
    store.failOperation env operation call.operationId call.response call.audit

end FinishCall

theorem toI64_eq_ok {value : UInt64} {field : String} {n : Int64} :
    toI64 value field = .ok n ↔ value ≤ maxGarageQuota ∧ n = value.toInt64 := by
  unfold toI64
  split
  · rename_i h
    simpa [h] using eq_comm
  · rename_i h
    simp [h]

/-- all five finishing calls have one shape -/
theorem FinishCall.exec_eq_ok {store : PgStore} {env : CallEnv} {call : FinishCall}
    {db db' : Database} {u : Unit} :
    call.exec store env db = .ok (u, db') ↔
      call.completion.precheck call.response = true ∧
      store.finishing env call.operation call.operationId call.response call.audit
        (call.completion.before env call.operationId) (call.completion.after call.operationId) db =
        .ok (u, db') := by
  obtain ⟨completion, operationId, response, audit⟩ := call
  cases completion with
  | reconcile command physicalBucketId =>
    simp only [exec, PgStore.completeReconcile, Tx.bind_eq_ok, Tx.ensure_eq_ok, Tx.ofExcept_eq_ok,
      toI64_eq_ok, Completion.precheck, Bool.and_eq_true, decide_eq_true_eq]
    constructor
    · rintro ⟨_, _, ⟨hp, rfl⟩, _, _, ⟨⟨hb, rfl⟩, rfl⟩, _, _, ⟨⟨ho, rfl⟩, rfl⟩, h⟩
      exact ⟨⟨⟨hp, hb⟩, ho⟩, h⟩
    · rintro ⟨⟨⟨hp, hb⟩, ho⟩, h⟩
      exact ⟨(), _, ⟨hp, rfl⟩, _, _, ⟨⟨hb, rfl⟩, rfl⟩, _, _, ⟨⟨ho, rfl⟩, rfl⟩, h⟩
  | delete command => exact (and_iff_right rfl).symm
  | createCredential command credential =>
    simp only [exec, PgStore.completeCreateCredential, Tx.bind_eq_ok, Tx.ensure_eq_ok]
    constructor
    · rintro ⟨_, _, ⟨hp, rfl⟩, h⟩
      exact ⟨hp, h⟩
    · rintro ⟨hp, h⟩
      exact ⟨(), _, ⟨hp, rfl⟩, h⟩
  | revokeCredential command => exact (and_iff_right rfl).symm
  | fail operation =>
    simp only [exec, PgStore.failOperation, Tx.bind_eq_ok, Tx.ensure_eq_ok]
    constructor
    · rintro ⟨_, _, ⟨hp, rfl⟩, h⟩
      exact ⟨hp, h⟩
    · rintro ⟨hp, h⟩
      exact ⟨(), _, ⟨hp, rfl⟩, h⟩

/-- a call of the store with its arguments -/
inductive StoreCall where
  | prepare (call : PrepareCall)
  | finish (call : FinishCall)
  | renewOperation (operation : OperationRequest) (operationId : Uuid)
  | serviceOverview (organizationId projectId serviceInstanceId : Uuid)
  | listCredentials (organizationId projectId serviceInstanceId : Uuid)
  | recordUsage (organizationId projectId serviceInstanceId : Uuid)
      (bytesUsed objectsUsed : UInt64) (measuredAt : Timestamp)
  | recordAudit (audit : AuditEvent)

namespace StoreCall

def Result : StoreCall → Type
  | prepare call => Prepare call.Context
  | serviceOverview .. => ServiceRecord
  | listCredentials .. => List CredentialRecord
  | recordUsage .. => UsageRecord
  | finish _ => Unit
  | renewOperation .. => Unit
  | recordAudit _ => Unit

instance : (call : StoreCall) → DecidableEq call.Result
  | prepare call => inferInstanceAs (DecidableEq (Prepare call.Context))
  | serviceOverview .. => inferInstanceAs (DecidableEq ServiceRecord)
  | listCredentials .. => inferInstanceAs (DecidableEq (List CredentialRecord))
  | recordUsage .. => inferInstanceAs (DecidableEq UsageRecord)
  | finish _ => inferInstanceAs (DecidableEq Unit)
  | renewOperation .. => inferInstanceAs (DecidableEq Unit)
  | recordAudit _ => inferInstanceAs (DecidableEq Unit)

def exec (store : PgStore) (env : CallEnv) : (call : StoreCall) → StoreTx call.Result
  | prepare call => call.exec store env
  | finish call => call.exec store env
  | renewOperation operation operationId => PgStore.renewOperation env operation operationId
  | serviceOverview o p s => (PgStore.serviceOverview o p s).within Select.perform
  | listCredentials o p s => (PgStore.listCredentials o p s).within Select.perform
  | recordUsage o p s bytes objects at_ => PgStore.recordUsage env o p s bytes objects at_
  | recordAudit audit => PgStore.recordAudit env audit

/-- one call as an atomic step: a failed one leaves the database as it was -/
def run (store : PgStore) (env : CallEnv) (call : StoreCall) (db : Database) :
    Except StoreError call.Result × Database :=
  (call.exec store env).atomically db

end StoreCall

end Syouyu
