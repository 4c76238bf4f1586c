import Syouyu.Store.Models
import Syouyu.Lib.Tx

/-!
# The tables of the store

One row type per table of `migrations/`, with the `CHECK` and `UNIQUE` constraints of the table
as its `Schema`; a text column also refuses U+0000.  Foreign keys are checked by the statements
that insert (`Database.scopeExists`, `Part.fk`).

* `Database`             the eight tables;
* `Database.ofService`   everything the database holds about one service instance;
* statements             `insertRow`, `updateRows`, `deleteRows`, `upsertRow` over any table, as
                         transactions, each with the equivalence `.._eq_ok` that says when it
                         goes through and what it leaves behind.
-/

set_option linter.unusedSectionVars false

namespace Syouyu
open Lib

/-! ## rows -/

/-- `syouyu_service_instances` -/
structure ServiceRow where
  id : Uuid
  organizationId : Uuid
  projectId : Uuid
  name : String
  desiredGeneration : Int64
  desiredSpec : Value
  observedGeneration : Int64
  phase : BucketPhase
  currentOperationId : Uuid
  createdAt : Timestamp
  updatedAt : Timestamp
  deletedAt : Option Timestamp
  deriving DecidableEq, Repr

/-- `syouyu_bucket_name_reservations` -/
structure NameReservationRow where
  bucketName : String
  serviceInstanceId : Uuid
  createdAt : Timestamp
  deriving DecidableEq, Repr

/-- `syouyu_buckets` -/
structure BucketRow where
  serviceInstanceId : Uuid
  organizationId : Uuid
  projectId : Uuid
  physicalBucketId : Option String
  bucketName : String
  region : String
  quotaBytes : Int64
  quotaObjects : Int64
  usedBytes : Int64
  usedObjects : Int64
  usageMeasuredAt : Option Timestamp
  createdAt : Timestamp
  updatedAt : Timestamp
  deriving DecidableEq, Repr

/-- `syouyu_credentials` -/
structure CredentialRow where
  id : Uuid
  serviceInstanceId : Uuid
  organizationId : Uuid
  projectId : Uuid
  principalId : Uuid
  name : String
  garageKeyId : String
  accessKeyId : String
  permissions : Value
  secretKeyFingerprint : Hash
  status : CredentialStatus
  createdAt : Timestamp
  revokedAt : Option Timestamp
  revokedBy : Option Uuid
  deriving DecidableEq, Repr

/-- `syouyu_credential_reservations` -/
structure CredentialReservationRow where
  credentialId : Uuid
  operationId : Uuid
  serviceInstanceId : Uuid
  organizationId : Uuid
  projectId : Uuid
  name : String
  permissions : Value
  createdAt : Timestamp
  deriving DecidableEq, Repr

inductive ReceiptState where
  | inProgress
  | succeeded
  | failed
  deriving DecidableEq, Repr

/-- `syouyu_operation_receipts` -/
structure ReceiptRow where
  idempotencyKey : Uuid
  operationId : Uuid
  organizationId : Uuid
  projectId : Uuid
  serviceInstanceId : Uuid
  principalId : Uuid
  action : String
  generation : Option Int64
  requestHash : Hash
  state : ReceiptState
  leaseAttempt : Nat
  leaseExpiresAt : Option Timestamp
  responseStatus : Option Int32
  responseNonce : Option (List UInt8)
  responseCiphertext : Option (List UInt8)
  createdAt : Timestamp
  completedAt : Option Timestamp
  updatedAt : Timestamp
  deriving DecidableEq, Repr

/-- `syouyu_audit_events` -/
structure AuditRow where
  id : Uuid
  event : AuditEvent
  createdAt : Timestamp
  deriving DecidableEq, Repr

/-- `syouyu_usage_snapshots` -/
structure UsageSnapshotRow where
  serviceInstanceId : Uuid
  organizationId : Uuid
  projectId : Uuid
  bytesUsed : Int64
  objectsUsed : Int64
  measuredAt : Timestamp
  recordedAt : Timestamp
  deriving DecidableEq, Repr

/-! ## constraints -/

def serviceSchema : Schema Uuid ServiceRow where
  key := ServiceRow.id
  check r := textBetween 1 120 r.name && decide (0 < r.desiredGeneration) &&
    r.desiredSpec.isObject && r.desiredSpec.storable && decide (0 ≤ r.observedGeneration) &&
    (decide (r.phase = .deleted) == r.deletedAt.isSome)
  unique a b := decide (a.projectId = b.projectId) && decide (a.name = b.name)
  unique_symm a b := by
    simp only [eq_comm (a := a.projectId), eq_comm (a := a.name)]

def nameReservationSchema : Schema String NameReservationRow where
  key := NameReservationRow.bucketName
  check r := textBetween 3 63 r.bucketName
  unique a b := decide (a.serviceInstanceId = b.serviceInstanceId)
  unique_symm a b := by simp only [eq_comm (a := a.serviceInstanceId)]

def bucketSchema : Schema Uuid BucketRow where
  key := BucketRow.serviceInstanceId
  check r := r.physicalBucketId.all (textBetween 1 256) && textBetween 3 63 r.bucketName &&
    textBetween 1 64 r.region && decide (0 < r.quotaBytes) && decide (0 < r.quotaObjects) &&
    decide (0 ≤ r.usedBytes) && decide (0 ≤ r.usedObjects)
  -- two `NULL`s never collide
  unique a b := (a.physicalBucketId.isSome && decide (a.physicalBucketId = b.physicalBucketId)) ||
    decide (a.bucketName = b.bucketName)
  unique_symm a b := by
    by_cases h : a.physicalBucketId = b.physicalBucketId
    · simp only [h, decide_true, Bool.and_true, eq_comm (a := a.bucketName)]
    · have h' : ¬ b.physicalBucketId = a.physicalBucketId := fun e => h e.symm
      simp only [h, h', decide_false, Bool.and_false, eq_comm (a := a.bucketName)]

def credentialSchema : Schema Uuid CredentialRow where
  key := CredentialRow.id
  check r := textBetween 1 128 r.name && textBetween 1 256 r.garageKeyId &&
    textBetween 1 256 r.accessKeyId && r.permissions.isObject && r.permissions.storable &&
    match r.status with
    | .active => r.revokedAt.isNone && r.revokedBy.isNone
    | .revoked => r.revokedAt.isSome && r.revokedBy.isSome
  unique a b := decide (a.garageKeyId = b.garageKeyId) || decide (a.accessKeyId = b.accessKeyId) ||
    (decide (a.serviceInstanceId = b.serviceInstanceId) && decide (a.name = b.name))
  unique_symm a b := by
    simp only [eq_comm (a := a.garageKeyId), eq_comm (a := a.accessKeyId),
      eq_comm (a := a.serviceInstanceId), eq_comm (a := a.name)]

def credentialReservationSchema : Schema Uuid CredentialReservationRow where
  key := CredentialReservationRow.credentialId
  check r := textBetween 1 128 r.name && r.permissions.isObject && r.permissions.storable
  unique a b := decide (a.operationId = b.operationId) ||
    (decide (a.serviceInstanceId = b.serviceInstanceId) && decide (a.name = b.name))
  unique_symm a b := by
    simp only [eq_comm (a := a.operationId), eq_comm (a := a.serviceInstanceId),
      eq_comm (a := a.name)]

def receiptSchema : Schema Uuid ReceiptRow where
  key := ReceiptRow.idempotencyKey
  check r := textBetween 1 128 r.action && r.generation.all (fun g => decide (0 < g)) &&
    r.responseStatus.all (fun s => decide (100 ≤ s) && decide (s ≤ 599)) &&
    r.responseNonce.all (fun n => decide (n.length = 12)) && decide (0 < r.leaseAttempt) &&
    match r.state with
    | .inProgress => r.responseStatus.isNone && r.responseNonce.isNone &&
        r.responseCiphertext.isNone && r.completedAt.isNone && r.leaseExpiresAt.isSome
    | _ => r.responseStatus.isSome && r.responseNonce.isSome &&
        r.responseCiphertext.isSome && r.completedAt.isSome && r.leaseExpiresAt.isNone
  unique a b := decide (a.operationId = b.operationId)
  unique_symm a b := by simp only [eq_comm (a := a.operationId)]

def auditSchema : Schema Uuid AuditRow where
  key := AuditRow.id
  check r := textBetween 1 256 r.event.requestId && textBetween 1 128 r.event.action &&
    textBetween 1 64 r.event.resourceType && r.event.resourceId.all textStorable &&
    (decide (r.event.outcome = "allowed") || decide (r.event.outcome = "denied") ||
      decide (r.event.outcome = "failed")) && r.event.details.isObject && r.event.details.storable
  unique _ _ := false
  unique_symm _ _ := rfl

def usageSnapshotSchema : Schema Uuid UsageSnapshotRow where
  key := UsageSnapshotRow.serviceInstanceId
  check r := decide (0 ≤ r.bytesUsed) && decide (0 ≤ r.objectsUsed)
  unique _ _ := false
  unique_symm _ _ := rfl

/-! ## the database -/

structure Database where
  services : Table serviceSchema
  nameReservations : Table nameReservationSchema
  buckets : Table bucketSchema
  credentials : Table credentialSchema
  credentialReservations : Table credentialReservationSchema
  receipts : Table receiptSchema
  audits : Table auditSchema
  usageSnapshots : Table usageSnapshotSchema

def Database.empty : Database where
  services := .empty _
  nameReservations := .empty _
  buckets := .empty _
  credentials := .empty _
  credentialReservations := .empty _
  receipts := .empty _
  audits := .empty _
  usageSnapshots := .empty _

/-- a service row with exactly this scope exists (the target of every foreign key) -/
def Database.scopeExists (db : Database) (serviceInstanceId organizationId projectId : Uuid) :
    Bool :=
  (db.services.lookup serviceInstanceId).any fun s =>
    decide (s.organizationId = organizationId) && decide (s.projectId = projectId)

/-- the database transactions of the store -/
abbrev StoreTx (α : Type) := Tx Database StoreError α

/-- The rows of one service instance, table by table. -/
structure ServiceView where
  service : List ServiceRow
  nameReservation : List NameReservationRow
  bucket : List BucketRow
  credentials : List CredentialRow
  credentialReservations : List CredentialReservationRow
  receipts : List ReceiptRow
  usageSnapshot : List UsageSnapshotRow

def Database.ofService (db : Database) (s : Uuid) : ServiceView where
  service := db.services.select fun r => decide (r.id = s)
  nameReservation := db.nameReservations.select fun r => decide (r.serviceInstanceId = s)
  bucket := db.buckets.select fun r => decide (r.serviceInstanceId = s)
  credentials := db.credentials.select fun r => decide (r.serviceInstanceId = s)
  credentialReservations :=
    db.credentialReservations.select fun r => decide (r.serviceInstanceId = s)
  receipts := db.receipts.select fun r => decide (r.serviceInstanceId = s)
  usageSnapshot := db.usageSnapshots.select fun r => decide (r.serviceInstanceId = s)

/-! ## statements over one table of the database -/

/-- One table as a part of the database; `fk` is the foreign key check of a new row. -/
structure Part {κ ρ : Type} [DecidableEq κ] (S : Schema κ ρ) where
  get : Database → Table S
  put : Database → Table S → Database
  fk : Database → ρ → Bool := fun _ _ => true

def servicesPart : Part serviceSchema where
  get := Database.services
  put db t := { db with services := t }

def nameReservationsPart : Part nameReservationSchema where
  get := Database.nameReservations
  put db t := { db with nameReservations := t }

def bucketsPart : Part bucketSchema where
  get := Database.buckets
  put db t := { db with buckets := t }
  fk db r := db.scopeExists r.serviceInstanceId r.organizationId r.projectId

def credentialsPart : Part credentialSchema where
  get := Database.credentials
  put db t := { db with credentials := t }
  fk db r := db.scopeExists r.serviceInstanceId r.organizationId r.projectId

def credentialReservationsPart : Part credentialReservationSchema where
  get := Database.credentialReservations
  put db t := { db with credentialReservations := t }
  fk db r := db.scopeExists r.serviceInstanceId r.organizationId r.projectId

def receiptsPart : Part receiptSchema where
  get := Database.receipts
  put db t := { db with receipts := t }

def auditsPart : Part auditSchema where
  get := Database.audits
  put db t := { db with audits := t }

def usageSnapshotsPart : Part usageSnapshotSchema where
  get := Database.usageSnapshots
  put db t := { db with usageSnapshots := t }
  fk db r := db.scopeExists r.serviceInstanceId r.organizationId r.projectId

section
variable {κ ρ : Type} [DecidableEq κ] {S : Schema κ ρ}

/-- `INSERT`; `onError` is what the call site makes of a database error -/
def insertRow (T : Part S) (onError : DatabaseError → StoreError) (row : ρ) : StoreTx Unit :=
  Tx.statement fun db =>
    match (T.get db).insert row with
    | .error v => .error (onError (.ofViolation v))
    | .ok t =>
      if T.fk db row then .ok ((), T.put db t) else .error (onError .foreignKeyViolation)

/-- `UPDATE .. SET f WHERE p`; answers the number of affected rows -/
def updateRows (T : Part S) (onError : DatabaseError → StoreError) (p : ρ → Bool) (f : ρ → ρ) :
    StoreTx Nat :=
  Tx.statement fun db =>
    match (T.get db).updateWhere p f with
    | .error v => .error (onError (.ofViolation v))
    | .ok t => .ok ((T.get db).count p, T.put db t)

/-- `DELETE .. WHERE p` -/
def deleteRows (T : Part S) (p : ρ → Bool) : StoreTx Unit :=
  Tx.statement fun db => .ok ((), T.put db ((T.get db).deleteWhere p))

/-- `INSERT .. ON CONFLICT (key) DO UPDATE SET f WHERE guard`; answers the number of affected
rows.  The proposed row is checked before the conflict is looked for. -/
def upsertRow (T : Part S) (onError : DatabaseError → StoreError) (row : ρ) (guard : ρ → Bool)
    (f : ρ → ρ) : StoreTx Nat := do
  Tx.ensure (S.check row) (onError .checkViolation)
  let existing ← Tx.read fun db => (T.get db).lookup (S.key row)
  match existing with
  | some _ => updateRows T onError (fun r => decide (S.key r = S.key row) && guard r) f
  | none => do
    insertRow T onError row
    pure 1

theorem insertRow_eq_ok {T : Part S} {onError : DatabaseError → StoreError} {row : ρ}
    {db db' : Database} {u : Unit} :
    insertRow T onError row db = .ok (u, db') ↔
      ∃ t, (T.get db).insert row = .ok t ∧ T.fk db row = true ∧ db' = T.put db t := by
  unfold insertRow
  rw [Tx.statement_apply]
  cases (T.get db).insert row with
  | error v => simp
  | ok t =>
    by_cases hf : T.fk db row = true
    · simpa [hf] using eq_comm
    · simp [hf]

theorem updateRows_eq_ok {T : Part S} {onError : DatabaseError → StoreError} {p : ρ → Bool}
    {f : ρ → ρ} {db db' : Database} {n : Nat} :
    updateRows T onError p f db = .ok (n, db') ↔
      ∃ t, (T.get db).updateWhere p f = .ok t ∧ n = (T.get db).count p ∧ db' = T.put db t := by
  unfold updateRows
  rw [Tx.statement_apply]
  cases (T.get db).updateWhere p f with
  | error v => simp
  | ok t =>
    simp only [Except.ok.injEq, Prod.mk.injEq, exists_eq_left']
    exact and_congr eq_comm eq_comm

theorem deleteRows_eq_ok {T : Part S} {p : ρ → Bool} {db db' : Database} {u : Unit} :
    deleteRows T p db = .ok (u, db') ↔ db' = T.put db ((T.get db).deleteWhere p) := by
  unfold deleteRows
  rw [Tx.statement_apply]
  simpa using eq_comm

/-- **an upsert that affects a row inserts a new one or updates the one with its key** -/
theorem upsertRow_eq_ok {T : Part S} {onError : DatabaseError → StoreError} {row : ρ}
    {guard : ρ → Bool} {f : ρ → ρ} {db db' : Database} {n : Nat} :
    upsertRow T onError row guard f db = .ok (n, db') ↔
      S.check row = true ∧
      (((T.get db).lookup (S.key row) = none ∧ n = 1 ∧
          ∃ t, (T.get db).insert row = .ok t ∧ T.fk db row = true ∧ db' = T.put db t) ∨
        (∃ old, (T.get db).lookup (S.key row) = some old) ∧
          ∃ t, (T.get db).updateWhere (fun r => decide (S.key r = S.key row) && guard r) f = .ok t ∧
            n = (T.get db).count (fun r => decide (S.key r = S.key row) && guard r) ∧
            db' = T.put db t) := by
  unfold upsertRow
  simp only [Tx.bind_eq_ok, Tx.ensure_eq_ok, Tx.read_eq_ok]
  cases hl : (T.get db).lookup (S.key row) with
  | none =>
    constructor
    · rintro ⟨_, _, ⟨hc, rfl⟩, _, _, ⟨rfl, rfl⟩, h⟩
      simp only [hl, Tx.bind_eq_ok, insertRow_eq_ok, Tx.pure_eq_ok] at h
      obtain ⟨_, _, ⟨t, hi, hf, rfl⟩, rfl, rfl⟩ := h
      exact ⟨hc, .inl ⟨rfl, rfl, t, hi, hf, rfl⟩⟩
    · rintro ⟨hc, ⟨-, rfl, t, hi, hf, rfl⟩ | ⟨⟨old, ho⟩, -⟩⟩
      · refine ⟨(), db, ⟨hc, rfl⟩, none, db, ⟨hl.symm, rfl⟩, ?_⟩
        simp only [Tx.bind_eq_ok, insertRow_eq_ok, Tx.pure_eq_ok]
        exact ⟨(), _, ⟨t, hi, hf, rfl⟩, trivial, rfl⟩
      · cases ho
  | some old =>
    constructor
    · rintro ⟨_, _, ⟨hc, rfl⟩, _, _, ⟨rfl, rfl⟩, h⟩
      simp only [hl, updateRows_eq_ok] at h
      exact ⟨hc, .inr ⟨⟨old, rfl⟩, h⟩⟩
    · rintro ⟨hc, ⟨h, -⟩ | ⟨-, h⟩⟩
      · cases h
      · refine ⟨(), db, ⟨hc, rfl⟩, some old, db, ⟨hl.symm, rfl⟩, ?_⟩
        simpa only [updateRows_eq_ok] using h

/-- the one affected row: a new one, or the old row of the key where the guard holds -/
theorem upsertRow_eq_one {T : Part S} {onError : DatabaseError → StoreError} {row : ρ}
    {guard : ρ → Bool} {f : ρ → ρ} {db db' : Database} :
    upsertRow T onError row guard f db = .ok (1, db') ↔
      S.check row = true ∧
      (((T.get db).lookup (S.key row) = none ∧
          ∃ t, (T.get db).insert row = .ok t ∧ T.fk db row = true ∧ db' = T.put db t) ∨
        ∃ old, (T.get db).lookup (S.key row) = some old ∧ guard old = true ∧
          ∃ t, (T.get db).updateWhere (S.hasKey (S.key row)) f = .ok t ∧ db' = T.put db t) := by
  have haim : ∀ r, (decide (S.key r = S.key row) && guard r) = true → S.key r = S.key row := by
    intro r hr
    simp only [Bool.and_eq_true, decide_eq_true_eq] at hr
    exact hr.1
  rw [upsertRow_eq_ok]
  refine and_congr_right fun _ => or_congr (by simp) ?_
  constructor
  · rintro ⟨⟨old, hl⟩, t, ht, hn, rfl⟩
    rw [Table.count_aimed haim, hl] at hn
    simp only [Option.any_some, Table.lookup_key hl, decide_true, Bool.true_and] at hn
    have hg : guard old = true := by
      by_contra hg
      simp [hg] at hn
    rw [Table.updateWhere_aimed haim hl (by simp [Table.lookup_key hl, hg])] at ht
    exact ⟨old, hl, hg, t, ht, rfl⟩
  · rintro ⟨old, hl, hg, t, ht, rfl⟩
    refine ⟨⟨old, hl⟩, t, ?_, ?_, rfl⟩
    · rw [Table.updateWhere_aimed haim hl (by simp [Table.lookup_key hl, hg])]
      exact ht
    · rw [Table.count_aimed haim, hl]
      simp [Table.lookup_key hl, hg]

/-! ## with which errors statements fail -/

section
variable {T : Part S} {onError : DatabaseError → StoreError} {Q : StoreError → Prop}
  {db : Database}

theorem insertRow_failsOnly {row : ρ}
    (hv : ∀ v, (T.get db).insert row = .error v → Q (onError (.ofViolation v)))
    (hf : T.fk db row = false → Q (onError .foreignKeyViolation)) :
    (insertRow T onError row).FailsOnly Q db := by
  intro e he
  unfold insertRow at he
  rw [Tx.statement_apply] at he
  split at he
  · rename_i v hi
    exact Except.error.inj he ▸ hv v hi
  · split at he
    · cases he
    · rename_i hfk
      exact Except.error.inj he ▸ hf (Bool.eq_false_iff.mpr hfk)

theorem updateRows_failsOnly {p : ρ → Bool} {f : ρ → ρ}
    (hv : ∀ v, (T.get db).updateWhere p f = .error v → Q (onError (.ofViolation v))) :
    (updateRows T onError p f).FailsOnly Q db := by
  intro e he
  unfold updateRows at he
  rw [Tx.statement_apply] at he
  split at he
  · rename_i v hu
    exact Except.error.inj he ▸ hv v hu
  · cases he

theorem upsertRow_failsOnly {row : ρ} {guard : ρ → Bool} {f : ρ → ρ}
    (hc : S.check row = false → Q (onError .checkViolation))
    (hi : S.check row = true → (T.get db).lookup (S.key row) = none →
      (insertRow T onError row).FailsOnly Q db)
    (hu : ∀ old, (T.get db).lookup (S.key row) = some old →
      (updateRows T onError (fun r => decide (S.key r = S.key row) && guard r) f).FailsOnly Q db) :
    (upsertRow T onError row guard f).FailsOnly Q db := by
  refine .ensure_bind hc fun hcheck => .read_bind ?_
  cases hl : (T.get db).lookup (S.key row) with
  | none => exact .bind (hi hcheck hl) fun _ _ _ => Tx.failsOnly_pure
  | some old => exact hu old hl

end

end

end Syouyu
