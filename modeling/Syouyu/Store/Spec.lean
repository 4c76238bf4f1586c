import Syouyu.Store.Calls

/-!
# What a committed call has checked and written

One lemma per call: from `.ok` of its transaction to the checks it passed and to the tables it
leaves behind, as updates of the tables it found.  Every later proof about the store starts from
these and never unfolds a call.

* `Database.Granted`          receipts and reservations after a request got its receipt;
* `reconcile_prepared`, `delete_prepared`, `create_prepared`, `revoke_prepared`;
* `finish_eq_ok`              all five finishing calls, with `applyReconcile_eq_ok`,
                              `applyDelete_eq_ok`, `applyCreateCredential_eq_ok`,
                              `applyRevokeCredential_eq_ok` for what each of them writes;
* `renewOperation_eq_ok`, `recordUsage_ok`, `insertAudit_eq_ok`, `overview_unchanged`,
  `credentials_unchanged`.
-/

set_option linter.unusedSectionVars false

namespace Syouyu
open Lib

/-! ## buckets and services -/

/-- the record of a bucket row whose counters are not negative -/
def BucketRow.record (row : BucketRow) : BucketRecord where
  serviceInstanceId := row.serviceInstanceId
  organizationId := row.organizationId
  projectId := row.projectId
  physicalBucketId := row.physicalBucketId
  bucketName := row.bucketName
  region := row.region
  quotaBytes := row.quotaBytes.toUInt64
  quotaObjects := row.quotaObjects.toUInt64
  usedBytes := row.usedBytes.toUInt64
  usedObjects := row.usedObjects.toUInt64
  usageMeasuredAt := row.usageMeasuredAt

theorem fromI64_of_nonneg {value : Int64} (h : 0 ≤ value) (field : String) :
    fromI64 value field = .ok value.toUInt64 := if_pos h

theorem tryIntoRecord_of_check {row : BucketRow} (h : bucketSchema.check row = true) :
    row.tryIntoRecord = .ok row.record := by
  simp only [bucketSchema, Bool.and_eq_true, decide_eq_true_eq] at h
  obtain ⟨⟨⟨⟨-, hqb⟩, hqo⟩, hub⟩, huo⟩ := h
  unfold BucketRow.tryIntoRecord
  rw [fromI64_of_nonneg (Int64.le_of_lt hqb), fromI64_of_nonneg (Int64.le_of_lt hqo),
    fromI64_of_nonneg hub, fromI64_of_nonneg huo]
  rfl

theorem fetchBucketRow_eq_ok {s : Uuid} {missing : String} {db db' : Database} {b : BucketRecord} :
    fetchBucketRow s missing db = .ok (b, db') ↔
      db' = db ∧ ∃ row, db.buckets.lookup s = some row ∧ b = row.record := by
  simp only [fetchBucketRow, Tx.bind_eq_ok, Tx.read_eq_ok, Tx.require_eq_ok, Tx.ofExcept_eq_ok]
  constructor
  · rintro ⟨_, _, ⟨rfl, rfl⟩, row, _, ⟨hl, rfl⟩, hr, rfl⟩
    rw [tryIntoRecord_of_check (Table.lookup_check hl)] at hr
    exact ⟨rfl, row, hl, (Except.ok.inj hr).symm⟩
  · rintro ⟨rfl, row, hl, rfl⟩
    exact ⟨_, _, ⟨rfl, rfl⟩, row, _, ⟨hl, rfl⟩, tryIntoRecord_of_check (Table.lookup_check hl), rfl⟩

theorem ensureScope_eq_ok {operation : OperationRequest} {o p : Uuid} {db db' : Database}
    {u : Unit} :
    ensureScope operation o p db = .ok (u, db') ↔
      (operation.organizationId = o ∧ operation.projectId = p) ∧ db' = db := by
  simp [ensureScope, Tx.ensure_eq_ok]

/-- the service is ready and `b` is its bucket -/
def Database.Ready (db : Database) (operation : OperationRequest) (service : ServiceRow)
    (row : BucketRow) : Prop :=
  db.services.lookup operation.serviceInstanceId = some service ∧
  operation.organizationId = service.organizationId ∧ operation.projectId = service.projectId ∧
  service.phase = .ready ∧ service.observedGeneration = service.desiredGeneration ∧
  db.buckets.lookup operation.serviceInstanceId = some row ∧ row.physicalBucketId.isSome = true

theorem readyBucketInTransaction_eq_ok {operation : OperationRequest} {db db' : Database}
    {b : BucketRecord} :
    readyBucketInTransaction operation db = .ok (b, db') ↔
      db' = db ∧ ∃ service row, db.Ready operation service row ∧ b = row.record := by
  simp only [readyBucketInTransaction, fetchServiceRow, Tx.bind_eq_ok, Tx.read_eq_ok,
    Tx.require_eq_ok, ensureScope_eq_ok, Tx.ensure_eq_ok, fetchBucketRow_eq_ok, Tx.pure_eq_ok,
    Bool.and_eq_true, decide_eq_true_eq, Database.Ready]
  constructor
  · rintro ⟨_, _, ⟨rfl, rfl⟩, service, _, ⟨hl, rfl⟩, _, _, ⟨⟨ho, hp⟩, rfl⟩, _, _, ⟨⟨hr, hg⟩, rfl⟩,
      _, _, ⟨rfl, row, hb, rfl⟩, _, _, ⟨hi, rfl⟩, rfl, rfl⟩
    exact ⟨rfl, service, row, ⟨hl, ho, hp, hr, hg, hb, hi⟩, rfl⟩
  · rintro ⟨rfl, service, row, ⟨hl, ho, hp, hr, hg, hb, hi⟩, rfl⟩
    exact ⟨_, _, ⟨rfl, rfl⟩, service, _, ⟨hl, rfl⟩, (), _, ⟨⟨ho, hp⟩, rfl⟩, (), _, ⟨⟨hr, hg⟩, rfl⟩,
      _, _, ⟨rfl, row, hb, rfl⟩, (), _, ⟨hi, rfl⟩, rfl, rfl⟩

/-! ## granting a receipt -/

/-- Receipts and credential reservations after the request was granted its receipt: a new one,
or its own expired one under a new operation id. -/
inductive Database.Granted (db : Database) (env : CallEnv) (operation : OperationRequest) :
    Database → Prop
  | new {t : Table receiptSchema} :
      db.receipts.lookup operation.idempotencyKey = none →
      db.receipts.insert (.reserved env operation) = .ok t →
      Granted db env operation { db with receipts := t }
  | takeover {row : ReceiptRow} {db₁ : Database} :
      db.receipts.lookup operation.idempotencyKey = some row → row.request = operation →
      row.state = .inProgress → row.expired env = true → db.TakenOver env row db₁ →
      Granted db env operation db₁

theorem grantReceipt_eq_ok {env : CallEnv} {operation : OperationRequest} {claimed : Option Uuid}
    {db db' : Database} {operationId : Uuid} :
    grantReceipt env operation claimed db = .ok (operationId, db') ↔
      (claimed = some operationId ∧ db' = db) ∨
      (claimed = none ∧ operationId = env.operationId ∧
        ∃ t, db.receipts.insert (.reserved env operation) = .ok t ∧
          db' = { db with receipts := t }) := by
  cases claimed with
  | none => simp [grantReceipt, reserveReceipt_eq_ok]
  | some o =>
    simp only [grantReceipt, Tx.pure_eq_ok, Option.some.injEq, reduceCtorEq, false_and, or_false]
    exact and_congr_left fun _ => eq_comm

/-- granting a receipt and reserving a name write different tables -/
theorem grantReceipt_names {env : CallEnv} {operation : OperationRequest} {claimed : Option Uuid}
    {db db' : Database} {operationId : Uuid} {v : Table nameReservationSchema}
    (hg : grantReceipt env operation claimed { db with nameReservations := v } =
      .ok (operationId, db')) :
    ∃ db₂, grantReceipt env operation claimed db = .ok (operationId, db₂) ∧
      db' = { db₂ with nameReservations := v } := by
  rcases grantReceipt_eq_ok.mp hg with ⟨h, rfl⟩ | ⟨h1, h2, t, hi, rfl⟩
  · exact ⟨db, grantReceipt_eq_ok.mpr (.inl ⟨h, rfl⟩), rfl⟩
  · exact ⟨{ db with receipts := t }, grantReceipt_eq_ok.mpr (.inr ⟨h1, h2, t, hi, rfl⟩), rfl⟩

/-- the operation id of a granted receipt is the fresh one -/
theorem Database.Claimed.granted {db db₁ db₂ : Database} {env : CallEnv}
    {operation : OperationRequest} {claimed : Option Uuid} {operationId : Uuid}
    (hc : db.Claimed env operation claimed db₁)
    (hg : grantReceipt env operation claimed db₁ = .ok (operationId, db₂)) :
    operationId = env.operationId ∧ db.Granted env operation db₂ := by
  rcases hc with ⟨hl, rfl, rfl⟩ | ⟨row, hl, hq, hs, he, rfl, ht⟩
  · rcases grantReceipt_eq_ok.mp hg with ⟨h, -⟩ | ⟨-, rfl, t, hi, rfl⟩
    · cases h
    · exact ⟨rfl, .new hl hi⟩
  · rcases grantReceipt_eq_ok.mp hg with ⟨h, rfl⟩ | ⟨h, -⟩
    · exact ⟨(Option.some.inj h).symm, .takeover hl hq hs he ht⟩
    · cases h

/-- a claim writes receipts and credential reservations only -/
theorem Database.Claimed.frame {db db₁ : Database} {env : CallEnv} {operation : OperationRequest}
    {claimed : Option Uuid} (hc : db.Claimed env operation claimed db₁) :
    db₁ = { db with receipts := db₁.receipts,
                    credentialReservations := db₁.credentialReservations } := by
  rcases hc with ⟨-, -, rfl⟩ | ⟨row, -, -, -, -, -, t, u, -, -, rfl⟩ <;> rfl

/-- a grant writes receipts and credential reservations only -/
theorem Database.Granted.frame {db db₁ : Database} {env : CallEnv} {operation : OperationRequest}
    (hg : db.Granted env operation db₁) :
    db₁ = { db with receipts := db₁.receipts,
                    credentialReservations := db₁.credentialReservations } := by
  cases hg with
  | new => rfl
  | takeover _ _ _ _ ht =>
    obtain ⟨t, u, -, -, rfl⟩ := ht
    rfl

/-- a takeover holds what was held before -/
theorem Database.Claimed.onlyHeld {db db₁ : Database} {env : CallEnv}
    {operation : OperationRequest} {claimed : Option Uuid}
    (hc : db.Claimed env operation claimed db₁) {s k : Uuid} :
    db₁.OnlyHeld s k ↔ db.OnlyHeld s k := by
  rcases hc with ⟨-, -, rfl⟩ | ⟨row, -, -, -, -, -, t, u, ht, -, rfl⟩
  · rfl
  · have htouch : ∀ r : ReceiptRow,
        (Table.touch (receiptSchema.hasKey row.idempotencyKey) (.takenOver env) r).serviceInstanceId
          = r.serviceInstanceId ∧
        (Table.touch (receiptSchema.hasKey row.idempotencyKey) (.takenOver env) r).state = r.state ∧
        (Table.touch (receiptSchema.hasKey row.idempotencyKey) (.takenOver env) r).idempotencyKey
          = r.idempotencyKey := by
      intro r
      unfold Table.touch
      split <;> exact ⟨rfl, rfl, rfl⟩
    have hrows := (Table.updateWhere_eq_ok.mp ht).2.2
    simp only [Database.OnlyHeld, hrows, List.forall_mem_map]
    constructor
    · intro h r hr hs hp
      obtain ⟨h1, h2, h3⟩ := htouch r
      exact h3 ▸ h r hr (h1.trans hs) (h2.trans hp)
    · intro h r hr hs hp
      obtain ⟨h1, h2, h3⟩ := htouch r
      exact h3.trans (h r hr (h1.symm.trans hs) (h2.symm.trans hp))

/-! ## the four prepare calls -/

/-- What `prepare_reconcile` found of the service: nothing yet, or a live service of the same
scope and bucket name, at an earlier generation or at this one with the same desired state. -/
def Database.ReconcileTarget (db : Database) (command : ReconcileCommand)
    (physicalBucketId : Option String) (previouslyApplied : Bool) : Prop :=
  (db.services.lookup command.operation.serviceInstanceId = none ∧ physicalBucketId = none ∧
    previouslyApplied = false) ∨
  ∃ service row, db.services.lookup command.operation.serviceInstanceId = some service ∧
    command.operation.organizationId = service.organizationId ∧
    command.operation.projectId = service.projectId ∧ service.phase ≠ .deleted ∧
    service.desiredGeneration ≤ command.generation ∧
    db.buckets.lookup command.operation.serviceInstanceId = some row ∧
    row.bucketName = command.spec.bucketName ∧ physicalBucketId = row.physicalBucketId ∧
    ((command.generation = service.desiredGeneration ∧
        SyouyuSpec.fromValue service.desiredSpec = some command.spec ∧
        service.name = command.name ∧ service.phase = .ready ∧
        service.observedGeneration = command.generation ∧ previouslyApplied = true) ∨
      (command.generation ≠ service.desiredGeneration ∧ previouslyApplied = false))

theorem previouslyApplied_eq_ok {command : ReconcileCommand} {service : ServiceRow}
    {db db' : Database} {applied : Bool} :
    PgStore.previouslyApplied command service db = .ok (applied, db') ↔
      db' = db ∧
      ((command.generation = service.desiredGeneration ∧
        SyouyuSpec.fromValue service.desiredSpec = some command.spec ∧
        service.name = command.name ∧ service.phase = .ready ∧
        service.observedGeneration = command.generation ∧ applied = true) ∨
      (command.generation ≠ service.desiredGeneration ∧ applied = false)) := by
  unfold PgStore.previouslyApplied
  by_cases hgen : command.generation = service.desiredGeneration
  · simp only [if_pos hgen, PgStore.sameGeneration, Tx.bind_eq_ok, Tx.require_eq_ok,
      Tx.ensure_eq_ok, Tx.pure_eq_ok, Bool.and_eq_true, decide_eq_true_eq, hgen, ne_eq,
      not_true_eq_false, false_and, or_false, true_and]
    constructor
    · rintro ⟨_, _, ⟨hf, rfl⟩, _, _, ⟨⟨hname, rfl⟩, rfl⟩, _, _, ⟨⟨hr, hobs⟩, rfl⟩, rfl, rfl⟩
      exact ⟨rfl, hf, hname, hr, hobs, rfl⟩
    · rintro ⟨rfl, hf, hname, hr, hobs, rfl⟩
      exact ⟨_, _, ⟨hf, rfl⟩, (), _, ⟨⟨hname, rfl⟩, rfl⟩, (), _, ⟨⟨hr, hobs⟩, rfl⟩, rfl, rfl⟩
  · rw [if_neg hgen, Tx.pure_eq_ok]
    simp only [hgen, false_and, false_or, ne_eq, not_false_eq_true, true_and]
    exact and_comm

theorem reconcileTarget_eq_ok {command : ReconcileCommand} {db db' : Database}
    {target : Option String × Bool} :
    PgStore.reconcileTarget command db = .ok (target, db') ↔
      db' = db ∧ db.ReconcileTarget command target.1 target.2 := by
  obtain ⟨physicalBucketId, applied⟩ := target
  unfold PgStore.reconcileTarget Database.ReconcileTarget
  rw [fetchServiceRow, Tx.read_bind]
  cases hl : db.services.lookup command.operation.serviceInstanceId with
  | none =>
    simp only [Tx.pure_eq_ok, Prod.mk.injEq, true_and, reduceCtorEq, false_and, exists_false,
      or_false]
    exact and_comm
  | some service =>
    simp only [PgStore.reconcileExisting, Tx.bind_eq_ok, ensureScope_eq_ok, Tx.ensure_eq_ok,
      fetchBucketRow_eq_ok, previouslyApplied_eq_ok, Tx.pure_eq_ok, Prod.mk.injEq,
      decide_eq_true_eq, reduceCtorEq, false_and, false_or, Option.some.injEq]
    constructor
    · rintro ⟨_, _, ⟨⟨ho, hp⟩, rfl⟩, _, _, ⟨hd, rfl⟩, _, _, ⟨hg, rfl⟩, _, _, ⟨rfl, row, hb, rfl⟩,
        _, _, ⟨hn, rfl⟩, _, _, ⟨rfl, happ⟩, ⟨rfl, rfl⟩, rfl⟩
      exact ⟨rfl, service, row, rfl, ho, hp, hd, hg, hb, hn, rfl, happ⟩
    · rintro ⟨rfl, _, row, rfl, ho, hp, hd, hg, hb, hn, rfl, happ⟩
      exact ⟨(), db', ⟨⟨ho, hp⟩, rfl⟩, (), db', ⟨hd, rfl⟩, (), db', ⟨hg, rfl⟩, _, db',
        ⟨rfl, row, hb, rfl⟩, (), db', ⟨hn, rfl⟩, _, db', ⟨rfl, happ⟩, ⟨rfl, rfl⟩, rfl⟩

/-- the name reservations after `name` was reserved for the service: it already was, or it was
free and a row was written -/
def Database.NameReserved (db : Database) (env : CallEnv) (name : String) (s : Uuid)
    (v : Table nameReservationSchema) : Prop :=
  (db.nameReservations.lookup name = none ∧
    db.nameReservations.insert ⟨name, s, env.now⟩ = .ok v) ∨
  ∃ old, db.nameReservations.lookup name = some old ∧ old.serviceInstanceId = s ∧
    v = db.nameReservations

theorem reserveBucketName_eq_ok {env : CallEnv} {name : String} {s : Uuid} {db db' : Database}
    {u : Unit} :
    reserveBucketName env name s db = .ok (u, db') ↔
      textBetween 3 63 name = true ∧
      ∃ v, db.NameReserved env name s v ∧ db' = { db with nameReservations := v } := by
  have hset : ∀ r ∈ db.nameReservations.rows, Table.touch (nameReservationSchema.hasKey name)
      (fun r => { r with bucketName := name }) r = r := by
    intro r _
    unfold Table.touch
    split
    · rename_i h
      rw [show name = r.bucketName from (Schema.hasKey_iff.mp h).symm]
    · rfl
  have hmap : db.nameReservations.rows.map (Table.touch (nameReservationSchema.hasKey name)
      (fun r => { r with bucketName := name })) = db.nameReservations.rows := by
    conv_rhs => rw [← List.map_id db.nameReservations.rows]
    exact List.map_congr_left hset
  have hupd : db.nameReservations.updateWhere (nameReservationSchema.hasKey name)
      (fun r => { r with bucketName := name }) = .ok db.nameReservations := by
    rw [Table.updateWhere_eq_ok, hmap]
    exact ⟨fun r hr => by rw [hset r hr]; exact db.nameReservations.checked r hr,
      db.nameReservations.distinct, rfl⟩
  simp only [reserveBucketName, Tx.bind_eq_ok, Tx.ensure_eq_ok, decide_eq_true_eq]
  constructor
  · rintro ⟨n, _, h, rfl, rfl⟩
    obtain ⟨hc, ⟨hl, v, hi, -, rfl⟩ | ⟨old, hl, hg, v, hu, rfl⟩⟩ := upsertRow_eq_one.mp h
    · exact ⟨hc, v, .inl ⟨hl, hi⟩, rfl⟩
    · have hv : v = db.nameReservations := Except.ok.inj (hu.symm.trans hupd)
      exact ⟨hc, v, .inr ⟨old, hl, of_decide_eq_true hg, hv⟩, rfl⟩
  · rintro ⟨hc, v, ⟨hl, hi⟩ | ⟨old, hl, hs, rfl⟩, rfl⟩
    · exact ⟨1, _, upsertRow_eq_one.mpr ⟨hc, .inl ⟨hl, v, hi, rfl, rfl⟩⟩, rfl, rfl⟩
    · exact ⟨1, _, upsertRow_eq_one.mpr
        ⟨hc, .inr ⟨old, hl, decide_eq_true hs, _, hupd, rfl⟩⟩, rfl, rfl⟩

/-- the bucket a reconcile is to bring about -/
def ReconcileCommand.desiredBucket (command : ReconcileCommand) (physicalBucketId : Option String) :
    BucketRecord where
  serviceInstanceId := command.operation.serviceInstanceId
  organizationId := command.operation.organizationId
  projectId := command.operation.projectId
  physicalBucketId := physicalBucketId
  bucketName := command.spec.bucketName
  region := command.spec.region
  quotaBytes := command.spec.quotaBytes
  quotaObjects := command.spec.quotaObjects
  usedBytes := 0
  usedObjects := 0
  usageMeasuredAt := none

section Prepared
variable {store : PgStore} {env : CallEnv} {db db₁ db' : Database} {claimed : Option Uuid}

theorem reconcile_prepared {command : ReconcileCommand} {granted : Uuid × ReconcileContext}
    (hc : db.Claimed env command.operation claimed db₁)
    (h : PgStore.prepareReconcileBody env command claimed db₁ = .ok (granted, db')) :
    granted.1 = env.operationId ∧
    db.OnlyHeld command.operation.serviceInstanceId command.operation.idempotencyKey ∧
    (∃ physicalBucketId applied, db.ReconcileTarget command physicalBucketId applied ∧
      granted.2 = ⟨command.desiredBucket physicalBucketId, applied⟩) ∧
    textBetween 3 63 command.spec.bucketName = true ∧
    ∃ db₂ v, db.Granted env command.operation db₂ ∧
      db.NameReserved env command.spec.bucketName command.operation.serviceInstanceId v ∧
      db' = { db₂ with nameReservations := v } := by
  simp only [PgStore.prepareReconcileBody, Tx.bind_eq_ok, rejectParallelOperation_eq_ok,
    reconcileTarget_eq_ok, reserveBucketName_eq_ok, Tx.pure_eq_ok] at h
  obtain ⟨_, _, ⟨hheld, rfl⟩, target, _, ⟨rfl, htarget⟩, _, _, ⟨htext, v, hname, rfl⟩, o, _, hg,
    rfl, rfl⟩ := h
  have hframe := hc.frame
  rw [hframe] at htarget hname
  obtain ⟨db₂, hg₂, rfl⟩ := grantReceipt_names hg
  obtain ⟨rfl, hgranted⟩ := hc.granted hg₂
  exact ⟨rfl, hc.onlyHeld.mp hheld, ⟨target.1, target.2, htarget, rfl⟩, htext, db₂, v, hgranted,
    hname, rfl⟩

/-- the Garage keys of the active credentials of a service, oldest first -/
def Database.activeGarageKeys (db : Database) (s : Uuid) : List String :=
  (orderBy PgStore.credentialOrder (db.credentials.select fun r =>
    decide (r.serviceInstanceId = s) && decide (r.status = .active))).map CredentialRow.garageKeyId

theorem mem_activeGarageKeys {s : Uuid} {key : String} :
    key ∈ db.activeGarageKeys s ↔ ∃ r ∈ db.credentials.rows,
      r.serviceInstanceId = s ∧ r.status = .active ∧ r.garageKeyId = key := by
  simp only [Database.activeGarageKeys, orderBy, List.mem_map, List.mem_insertionSort,
    Table.mem_select, Bool.and_eq_true, decide_eq_true_eq, and_assoc]

theorem delete_prepared {command : DeleteCommand} {granted : Uuid × DeleteContext}
    (hc : db.Claimed env command.operation claimed db₁)
    (h : PgStore.prepareDeleteBody env command claimed db₁ = .ok (granted, db')) :
    granted.1 = env.operationId ∧
    db.OnlyHeld command.operation.serviceInstanceId command.operation.idempotencyKey ∧
    (∃ service row, db.services.lookup command.operation.serviceInstanceId = some service ∧
      command.operation.organizationId = service.organizationId ∧
      command.operation.projectId = service.projectId ∧ service.phase ≠ .deleted ∧
      checkedSucc service.desiredGeneration = some command.generation ∧
      db.buckets.lookup command.operation.serviceInstanceId = some row ∧
      row.physicalBucketId.isSome = true ∧ granted.2.bucket = row.record) ∧
    granted.2.garageKeyIds = db.activeGarageKeys command.operation.serviceInstanceId ∧
    db.Granted env command.operation db' := by
  simp only [PgStore.prepareDeleteBody, fetchServiceRow, PgStore.checkDeleteGeneration,
    PgStore.activeGarageKeyIds, Tx.bind_eq_ok, rejectParallelOperation_eq_ok, Tx.read_eq_ok,
    Tx.require_eq_ok, ensureScope_eq_ok, Tx.ensure_eq_ok, fetchBucketRow_eq_ok, Tx.pure_eq_ok,
    decide_eq_true_eq] at h
  obtain ⟨_, _, ⟨hheld, rfl⟩, _, _, ⟨rfl, rfl⟩, service, _, ⟨hl, rfl⟩, _, _, ⟨⟨ho, hp⟩, rfl⟩, _, _,
    ⟨hd, rfl⟩, _, _, ⟨expected, _, ⟨hsucc, rfl⟩, _, _, ⟨-, rfl⟩, rfl, rfl⟩, _, _,
    ⟨rfl, row, hb, rfl⟩, _, _, ⟨hphys, rfl⟩, _, _, ⟨rfl, rfl⟩, o, _, hg, rfl, rfl⟩ := h
  obtain ⟨rfl, hgranted⟩ := hc.granted hg
  have hframe := hc.frame
  rw [hframe] at hl hb
  refine ⟨rfl, hc.onlyHeld.mp hheld, ⟨service, row, hl, ho, hp, hd, hsucc, hb, hphys, rfl⟩, ?_,
    hgranted⟩
  rw [hframe]
  rfl

theorem revoke_prepared {command : RevokeCredentialCommand}
    {granted : Uuid × RevokeCredentialContext}
    (hc : db.Claimed env command.operation claimed db₁)
    (h : PgStore.prepareRevokeCredentialBody env command claimed db₁ = .ok (granted, db')) :
    granted.1 = env.operationId ∧
    db.OnlyHeld command.operation.serviceInstanceId command.operation.idempotencyKey ∧
    (∃ service row, db.Ready command.operation service row) ∧
    (∃ credential, db.credentials.lookup command.credentialId = some credential ∧
      credential.serviceInstanceId = command.operation.serviceInstanceId ∧
      granted.2 = ⟨credential.garageKeyId, decide (credential.status = .revoked)⟩) ∧
    db.Granted env command.operation db' := by
  simp only [PgStore.prepareRevokeCredentialBody, Tx.bind_eq_ok, rejectParallelOperation_eq_ok,
    readyBucketInTransaction_eq_ok, Tx.read_eq_ok, Tx.require_eq_ok, Tx.pure_eq_ok] at h
  obtain ⟨_, _, ⟨hheld, rfl⟩, _, _, ⟨rfl, service, row, hready, rfl⟩, _, _, ⟨rfl, rfl⟩, credential,
    _, ⟨hcred, rfl⟩, o, _, hg, rfl, rfl⟩ := h
  obtain ⟨rfl, hgranted⟩ := hc.granted hg
  have hframe := hc.frame
  rw [hframe] at hready hcred
  rw [Option.filter_eq_some_iff] at hcred
  exact ⟨rfl, hc.onlyHeld.mp hheld, ⟨service, row, hready⟩,
    ⟨credential, hcred.1, of_decide_eq_true hcred.2, rfl⟩, hgranted⟩

/-- a new reservation was free and within the limits -/
def Database.Admitted (db : Database) (store : PgStore) (command : CreateCredentialCommand) :
    Prop :=
  (∀ r ∈ db.credentials.rows, r.serviceInstanceId = command.operation.serviceInstanceId →
    r.name ≠ command.name) ∧
  (∀ r ∈ db.credentialReservations.rows,
    r.serviceInstanceId = command.operation.serviceInstanceId → r.name ≠ command.name) ∧
  db.perBucket command.operation.serviceInstanceId <
    (store.maxCredentialsPerBucket command).toNat ∧
  db.perOrganization command.operation.organizationId < (store.maxTotalCredentials command).toNat

theorem admitReservation_eq_ok {command : CreateCredentialCommand} {u : Unit} :
    store.admitReservation command db = .ok (u, db') ↔
      textStorable command.name = true ∧ db.Admitted store command ∧ db' = db := by
  simp only [PgStore.admitReservation, PgStore.bindText, Tx.bind_eq_ok, Tx.ensure_eq_ok,
    Tx.read_eq_ok, decide_eq_true_eq, Database.Admitted]
  constructor
  · rintro ⟨_, _, ⟨htext, rfl⟩, _, _, ⟨rfl, rfl⟩, _, _, ⟨hdup, rfl⟩, _, _, ⟨rfl, rfl⟩, _, _,
      ⟨hb, rfl⟩, _, _, ⟨rfl, rfl⟩, ht, rfl⟩
    simp only [Bool.not_eq_true', Bool.or_eq_false_iff, Table.exists?_eq_false,
      Bool.and_eq_false_imp, decide_eq_true_eq, decide_eq_false_iff_not] at hdup
    exact ⟨htext, ⟨hdup.1, hdup.2, hb, ht⟩, rfl⟩
  · rintro ⟨htext, ⟨hc, hr, hb, ht⟩, rfl⟩
    refine ⟨(), _, ⟨htext, rfl⟩, _, _, ⟨rfl, rfl⟩, (), _, ⟨?_, rfl⟩, _, _, ⟨rfl, rfl⟩, (), _,
      ⟨hb, rfl⟩, _, _, ⟨rfl, rfl⟩, ht, rfl⟩
    simp only [Bool.not_eq_true', Bool.or_eq_false_iff, Table.exists?_eq_false,
      Bool.and_eq_false_imp, decide_eq_true_eq, decide_eq_false_iff_not]
    exact ⟨hc, hr⟩

theorem create_prepared {command : CreateCredentialCommand}
    {granted : Uuid × CreateCredentialContext}
    (hc : db.Claimed env command.operation claimed db₁)
    (h : store.prepareCreateCredentialBody env command claimed db₁ = .ok (granted, db')) :
    granted.1 = env.operationId ∧
    db.OnlyHeld command.operation.serviceInstanceId command.operation.idempotencyKey ∧
    (∃ service row, db.Ready command.operation service row ∧ granted.2.bucket = row.record) ∧
    ((∃ row, db.receipts.lookup command.operation.idempotencyKey = some row ∧
        row.request = command.operation ∧ row.state = .inProgress ∧ row.expired env = true ∧
        db.TakenOver env row db' ∧
        ∃ reservation ∈ db'.credentialReservations.rows,
          reservation.operationId = env.operationId ∧ reservation.matches command = true ∧
          granted.2.credentialId = reservation.credentialId) ∨
      (db.receipts.lookup command.operation.idempotencyKey = none ∧ db.Admitted store command ∧
        granted.2.credentialId = env.credentialId ∧
        ∃ t u, db.receipts.insert (.reserved env command.operation) = .ok t ∧
          db.credentialReservations.insert
            (PgStore.reservationRow env command env.operationId) = .ok u ∧
          db.scopeExists command.operation.serviceInstanceId command.operation.organizationId
            command.operation.projectId = true ∧
          db' = { db with receipts := t, credentialReservations := u })) := by
  have hframe := hc.frame
  obtain ⟨b, db₂, hb, h⟩ := Tx.bind_eq_ok.mp h
  obtain ⟨rfl, service, row, hready, rfl⟩ := readyBucketInTransaction_eq_ok.mp hb
  rw [hframe] at hready
  rcases hc with ⟨hl, rfl, rfl⟩ | ⟨held, hl, hq, hs, he, rfl, ht⟩
  · simp only [PgStore.newReservation, Tx.bind_eq_ok, admitReservation_eq_ok,
      rejectParallelOperation_eq_ok, reserveReceipt_eq_ok, insertRow_eq_ok, Tx.pure_eq_ok] at h
    obtain ⟨_, _, ⟨-, hadm, rfl⟩, _, _, ⟨hheld, rfl⟩, _, _, ⟨rfl, t, hi, rfl⟩, _, _,
      ⟨u, hu, hfk, rfl⟩, rfl, rfl⟩ := h
    exact ⟨rfl, hheld, ⟨service, row, hready, rfl⟩, .inr ⟨hl, hadm, rfl, t, u, hi, hu, hfk, rfl⟩⟩
  · have hclaimed : db.Claimed env command.operation (some env.operationId) db₂ :=
      .inr ⟨held, hl, hq, hs, he, rfl, ht⟩
    simp only [PgStore.takeOverReservation, Tx.bind_eq_ok, rejectParallelOperation_eq_ok,
      Tx.read_eq_ok, Tx.require_eq_ok, Tx.ensure_eq_ok, Tx.pure_eq_ok] at h
    obtain ⟨_, _, ⟨hheld, rfl⟩, _, _, ⟨rfl, rfl⟩, reservation, _, ⟨hres, rfl⟩, _, _, ⟨hm, rfl⟩,
      rfl, rfl⟩ := h
    have hmem := Table.mem_select.mp (List.mem_of_mem_head? hres)
    exact ⟨rfl, hclaimed.onlyHeld.mp hheld, ⟨service, row, hready, rfl⟩,
      .inl ⟨held, hl, hq, hs, he, ht, reservation, hmem.1, of_decide_eq_true hmem.2, hm, rfl⟩⟩

end Prepared

/-! ## the finishing calls -/

section Finishing
variable {store : PgStore} {env : CallEnv} {db db' : Database}

/-- the reservations a finishing call releases after the receipt is sealed -/
def Completion.settle (operationId : Uuid) : Completion → Database → Database
  | .fail operation, db =>
    { db with
      credentialReservations := db.credentialReservations.deleteWhere
        fun r => decide (r.operationId = operationId)
      nameReservations := db.nameReservations.deleteWhere fun r =>
        decide (r.serviceInstanceId = operation.serviceInstanceId) &&
        !db.buckets.exists? fun b => decide (b.serviceInstanceId = r.serviceInstanceId) &&
          decide (b.bucketName = r.bucketName) }
  | _, db => db

theorem after_eq_ok {completion : Completion} {operationId : Uuid} {u : Unit} :
    completion.after operationId db = .ok (u, db') ↔ db' = completion.settle operationId db := by
  cases completion with
  | fail operation =>
    simp only [Completion.after, PgStore.releaseReservations, Tx.bind_eq_ok, deleteRows_eq_ok,
      Tx.read_eq_ok]
    constructor
    · rintro ⟨_, _, rfl, _, _, ⟨rfl, rfl⟩, rfl⟩
      rfl
    · rintro rfl
      exact ⟨(), _, rfl, _, _, ⟨rfl, rfl⟩, rfl⟩
  | _ => exact Tx.pure_eq_ok.trans (and_iff_right rfl)

theorem insertAudit_eq_ok {audit : AuditEvent} {u : Unit} :
    insertAudit env audit db = .ok (u, db') ↔
      audit.valid = true ∧ ∃ a, db.audits.insert ⟨env.auditId, audit, env.now⟩ = .ok a ∧
        db' = { db with audits := a } := by
  simp only [insertAudit, Tx.bind_eq_ok, Tx.ensure_eq_ok, insertRow_eq_ok]
  constructor
  · rintro ⟨_, _, ⟨hv, rfl⟩, a, ha, -, rfl⟩
    exact ⟨hv, a, ha, rfl⟩
  · rintro ⟨hv, a, ha, rfl⟩
    exact ⟨(), _, ⟨hv, rfl⟩, a, ha, rfl, rfl⟩

theorem upsertService_eq_ok {command : ReconcileCommand} {operationId : Uuid} {u : Unit} :
    PgStore.upsertService env command operationId db = .ok (u, db') ↔
      serviceSchema.check (PgStore.reconciledService env command operationId) = true ∧
      ∃ a, db' = { db with services := a } ∧
        ((db.services.lookup command.operation.serviceInstanceId = none ∧
            db.services.insert (PgStore.reconciledService env command operationId) = .ok a) ∨
          ∃ old, db.services.lookup command.operation.serviceInstanceId = some old ∧
            (old.organizationId = command.operation.organizationId ∧
              old.projectId = command.operation.projectId ∧
              old.desiredGeneration ≤ command.generation ∧ old.phase ≠ .deleted) ∧
            db.services.updateWhere (serviceSchema.hasKey command.operation.serviceInstanceId)
              (PgStore.reconcileService env command operationId) = .ok a) := by
  simp only [PgStore.upsertService, Tx.bind_eq_ok, Tx.ensure_eq_ok, decide_eq_true_eq]
  constructor
  · rintro ⟨_, _, h, rfl, rfl⟩
    obtain ⟨hc, ⟨hl, a, hi, -, rfl⟩ | ⟨old, hl, hg, a, hu, rfl⟩⟩ := upsertRow_eq_one.mp h
    · exact ⟨hc, a, rfl, .inl ⟨hl, hi⟩⟩
    · simp only [Bool.and_eq_true, decide_eq_true_eq, and_assoc] at hg
      exact ⟨hc, a, rfl, .inr ⟨old, hl, hg, hu⟩⟩
  · rintro ⟨hc, a, rfl, ⟨hl, hi⟩ | ⟨old, hl, hg, hu⟩⟩
    · exact ⟨1, _, upsertRow_eq_one.mpr ⟨hc, .inl ⟨hl, a, hi, rfl, rfl⟩⟩, rfl, rfl⟩
    · refine ⟨1, _, upsertRow_eq_one.mpr ⟨hc, .inr ⟨old, hl, ?_, a, hu, rfl⟩⟩, rfl, rfl⟩
      simp only [Bool.and_eq_true, decide_eq_true_eq, and_assoc]
      exact hg

theorem upsertBucket_eq_ok {command : ReconcileCommand} {physicalBucketId : String}
    {quotaBytes quotaObjects : Int64} {u : Unit} :
    PgStore.upsertBucket env command physicalBucketId quotaBytes quotaObjects db = .ok (u, db') ↔
      bucketSchema.check
        (PgStore.reconciledBucket env command physicalBucketId quotaBytes quotaObjects) = true ∧
      ∃ b, db' = { db with buckets := b } ∧
        ((db.buckets.lookup command.operation.serviceInstanceId = none ∧
            db.scopeExists command.operation.serviceInstanceId command.operation.organizationId
              command.operation.projectId = true ∧
            db.buckets.insert (PgStore.reconciledBucket env command physicalBucketId quotaBytes
              quotaObjects) = .ok b) ∨
          (∃ old, db.buckets.lookup command.operation.serviceInstanceId = some old) ∧
            db.buckets.updateWhere (bucketSchema.hasKey command.operation.serviceInstanceId)
              (PgStore.reconcileBucket env command physicalBucketId quotaBytes quotaObjects)
                = .ok b) := by
  simp only [PgStore.upsertBucket, Tx.bind_eq_ok, Tx.pure_eq_ok, upsertRow_eq_ok, Bool.and_true]
  constructor
  · rintro ⟨_, _, ⟨hc, ⟨hl, -, b, hi, hfk, rfl⟩ | ⟨hl, b, hu, -, rfl⟩⟩, -, rfl⟩
    · exact ⟨hc, b, rfl, .inl ⟨hl, hfk, hi⟩⟩
    · exact ⟨hc, b, rfl, .inr ⟨hl, hu⟩⟩
  · rintro ⟨hc, b, rfl, ⟨hl, hfk, hi⟩ | ⟨hl, hu⟩⟩
    · exact ⟨1, _, ⟨hc, .inl ⟨hl, rfl, b, hi, hfk, rfl⟩⟩, trivial, rfl⟩
    · exact ⟨_, _, ⟨hc, .inr ⟨hl, b, hu, rfl, rfl⟩⟩, trivial, rfl⟩

theorem applyReconcile_eq_ok {command : ReconcileCommand} {operationId : Uuid}
    {physicalBucketId : String} {quotaBytes quotaObjects : Int64} {u : Unit} :
    PgStore.applyReconcile env command operationId physicalBucketId quotaBytes quotaObjects db =
      .ok (u, db') ↔
      ∃ db₁ db₂, PgStore.upsertService env command operationId db = .ok ((), db₁) ∧
        PgStore.upsertBucket env command physicalBucketId quotaBytes quotaObjects db₁ =
          .ok ((), db₂) ∧
        db' = { db₂ with
          nameReservations := db.nameReservations.deleteWhere fun r =>
            decide (r.serviceInstanceId = command.operation.serviceInstanceId) &&
            decide (r.bucketName ≠ command.spec.bucketName) } := by
  have hnames : ∀ {db₁ db₂ : Database},
      PgStore.upsertService env command operationId db = .ok ((), db₁) →
      PgStore.upsertBucket env command physicalBucketId quotaBytes quotaObjects db₁ =
        .ok ((), db₂) → db₂.nameReservations = db.nameReservations := by
    intro db₁ db₂ h1 h2
    obtain ⟨-, a, rfl, -⟩ := upsertService_eq_ok.mp h1
    obtain ⟨-, b, rfl, -⟩ := upsertBucket_eq_ok.mp h2
    rfl
  simp only [PgStore.applyReconcile, Tx.bind_eq_ok, deleteRows_eq_ok]
  constructor
  · rintro ⟨_, db₁, h1, _, db₂, h2, rfl⟩
    rw [← hnames h1 h2]
    exact ⟨db₁, db₂, h1, h2, rfl⟩
  · rintro ⟨db₁, db₂, h1, h2, rfl⟩
    rw [← hnames h1 h2]
    exact ⟨(), db₁, h1, (), db₂, h2, rfl⟩

theorem applyDelete_eq_ok {command : DeleteCommand} {operationId : Uuid} {u : Unit} :
    PgStore.applyDelete env command operationId db = .ok (u, db') ↔
      ∃ c a old, db.credentials.updateWhere
          (fun r => decide (r.serviceInstanceId = command.operation.serviceInstanceId) &&
            decide (r.status = .active))
          (PgStore.revokedCredential env command.operation.principalId) = .ok c ∧
        db.services.lookup command.operation.serviceInstanceId = some old ∧
        (old.organizationId = command.operation.organizationId ∧
          old.projectId = command.operation.projectId ∧ old.phase ≠ .deleted) ∧
        db.services.updateWhere (serviceSchema.hasKey command.operation.serviceInstanceId)
          (PgStore.deletedService env command operationId) = .ok a ∧
        db' = { db with
          credentials := c
          services := a
          nameReservations := db.nameReservations.deleteWhere fun r =>
            decide (r.serviceInstanceId = command.operation.serviceInstanceId) } := by
  have haim : ∀ r : ServiceRow,
      (serviceSchema.hasKey command.operation.serviceInstanceId r &&
        decide (r.organizationId = command.operation.organizationId) &&
        decide (r.projectId = command.operation.projectId) && decide (r.phase ≠ .deleted)) = true →
      serviceSchema.key r = command.operation.serviceInstanceId := by
    intro r hr
    simp only [Bool.and_eq_true, Schema.hasKey_iff] at hr
    exact hr.1.1.1
  simp only [PgStore.applyDelete, Tx.bind_eq_ok, updateRows_eq_ok, Tx.ensure_eq_ok,
    deleteRows_eq_ok, decide_eq_true_eq]
  constructor
  · rintro ⟨_, _, ⟨c, hc, -, rfl⟩, n, _, ⟨a, ha, hn, rfl⟩, _, _, ⟨rfl, rfl⟩, rfl⟩
    rw [show (servicesPart.get _).count _ = _ from Table.count_aimed haim] at hn
    split at hn
    · rename_i hany
      obtain ⟨old, hl, hg⟩ := (Option.any_eq_true _ _).mp hany
      rw [show (servicesPart.get _).updateWhere _ _ = _ from
        Table.updateWhere_aimed haim hl hg] at ha
      simp only [Bool.and_eq_true, decide_eq_true_eq, and_assoc] at hg
      exact ⟨c, a, old, hc, hl, hg.2, ha, rfl⟩
    · cases hn
  · rintro ⟨c, a, old, hc, hl, ⟨ho, hp, hd⟩, ha, rfl⟩
    have hg : (serviceSchema.hasKey command.operation.serviceInstanceId old &&
        decide (old.organizationId = command.operation.organizationId) &&
        decide (old.projectId = command.operation.projectId) &&
        decide (old.phase ≠ .deleted)) = true := by
      simp only [Bool.and_eq_true, Schema.hasKey_iff, decide_eq_true_eq]
      exact ⟨⟨⟨Table.lookup_key hl, ho⟩, hp⟩, hd⟩
    refine ⟨_, _, ⟨c, hc, rfl, rfl⟩, 1, _, ⟨a, ?_, ?_, rfl⟩, (), _, ⟨rfl, rfl⟩, rfl⟩
    · exact (Table.updateWhere_aimed haim hl hg).trans ha
    · refine Eq.symm ((Table.count_aimed haim).trans ?_)
      simp only [credentialsPart, servicesPart, hl, Option.any_some, hg, if_true]

theorem applyCreateCredential_eq_ok {command : CreateCredentialCommand} {operationId : Uuid}
    {credential : NewCredential} {u : Unit} :
    PgStore.applyCreateCredential env command operationId credential db = .ok (u, db') ↔
      textStorable command.name = true ∧
      ∃ reservation c, db.credentialReservations.lookup credential.id = some reservation ∧
        (reservation.operationId = operationId ∧
          reservation.serviceInstanceId = command.operation.serviceInstanceId ∧
          reservation.name = command.name) ∧
        db.scopeExists command.operation.serviceInstanceId command.operation.organizationId
          command.operation.projectId = true ∧
        db.credentials.insert (PgStore.createdCredential env command credential) = .ok c ∧
        db' = { db with
          credentials := c
          credentialReservations := db.credentialReservations.deleteWhere fun r =>
            credentialReservationSchema.hasKey credential.id r &&
            decide (r.operationId = operationId) } := by
  have hreserved : (db.credentialReservations.exists? fun r =>
      credentialReservationSchema.hasKey credential.id r && decide (r.operationId = operationId) &&
      decide (r.serviceInstanceId = command.operation.serviceInstanceId) &&
      decide (r.name = command.name)) = true ↔
      ∃ reservation, db.credentialReservations.lookup credential.id = some reservation ∧
        reservation.operationId = operationId ∧
        reservation.serviceInstanceId = command.operation.serviceInstanceId ∧
        reservation.name = command.name := by
    simp only [Table.exists?_eq_true, Bool.and_eq_true, Schema.hasKey_iff, decide_eq_true_eq,
      Table.lookup_eq_some, and_assoc]
  simp only [PgStore.applyCreateCredential, PgStore.bindText, Tx.bind_eq_ok, Tx.ensure_eq_ok,
    Tx.read_eq_ok, insertRow_eq_ok, deleteRows_eq_ok]
  constructor
  · rintro ⟨_, _, ⟨ht, rfl⟩, _, _, ⟨rfl, rfl⟩, _, _, ⟨hr, rfl⟩, _, _, ⟨c, hi, hfk, rfl⟩, rfl⟩
    obtain ⟨reservation, hl, hg⟩ := hreserved.mp hr
    exact ⟨ht, reservation, c, hl, hg, hfk, hi, rfl⟩
  · rintro ⟨ht, reservation, c, hl, hg, hfk, hi, rfl⟩
    exact ⟨(), _, ⟨ht, rfl⟩, _, _, ⟨rfl, rfl⟩, (), _, ⟨hreserved.mpr ⟨reservation, hl, hg⟩, rfl⟩,
      (), _, ⟨c, hi, hfk, rfl⟩, rfl⟩

theorem applyRevokeCredential_eq_ok {command : RevokeCredentialCommand} {u : Unit} :
    PgStore.applyRevokeCredential env command db = .ok (u, db') ↔
      ∃ c old, db.credentials.lookup command.credentialId = some old ∧
        old.serviceInstanceId = command.operation.serviceInstanceId ∧
        db.credentials.updateWhere (credentialSchema.hasKey command.credentialId)
          (PgStore.revokedCredential env command.operation.principalId) = .ok c ∧
        db' = { db with credentials := c } := by
  have haim : ∀ r : CredentialRow, (credentialSchema.hasKey command.credentialId r &&
      decide (r.serviceInstanceId = command.operation.serviceInstanceId)) = true →
      credentialSchema.key r = command.credentialId := by
    intro r hr
    simp only [Bool.and_eq_true, Schema.hasKey_iff] at hr
    exact hr.1
  simp only [PgStore.applyRevokeCredential, Tx.bind_eq_ok, updateRows_eq_ok, Tx.ensure_eq_ok,
    decide_eq_true_eq]
  constructor
  · rintro ⟨n, _, ⟨c, hc, hn, rfl⟩, rfl, rfl⟩
    rw [show (credentialsPart.get _).count _ = _ from Table.count_aimed haim] at hn
    split at hn
    · rename_i hany
      obtain ⟨old, hl, hg⟩ := (Option.any_eq_true _ _).mp hany
      rw [show (credentialsPart.get _).updateWhere _ _ = _ from
        Table.updateWhere_aimed haim hl hg] at hc
      simp only [Bool.and_eq_true, decide_eq_true_eq] at hg
      exact ⟨c, old, hl, hg.2, hc, rfl⟩
    · cases hn
  · rintro ⟨c, old, hl, hs, hc, rfl⟩
    have hg : (credentialSchema.hasKey command.credentialId old &&
        decide (old.serviceInstanceId = command.operation.serviceInstanceId)) = true := by
      simp only [Bool.and_eq_true, Schema.hasKey_iff, decide_eq_true_eq]
      exact ⟨Table.lookup_key hl, hs⟩
    refine ⟨1, _, ⟨c, (Table.updateWhere_aimed haim hl hg).trans hc, ?_, rfl⟩, rfl, rfl⟩
    refine Eq.symm ((Table.count_aimed haim).trans ?_)
    simp only [credentialsPart, hl, Option.any_some, hg, if_true]

/-- what is written before the receipt is sealed touches neither receipts nor audits -/
theorem before_frame {completion : Completion} {operationId : Uuid} {u : Unit} {db₁ : Database}
    (h : completion.before env operationId db = .ok (u, db₁)) :
    db₁.receipts = db.receipts ∧ db₁.audits = db.audits := by
  cases completion with
  | reconcile command physicalBucketId =>
    obtain ⟨_, _, h1, h2, rfl⟩ := applyReconcile_eq_ok.mp h
    obtain ⟨-, _, rfl, -⟩ := upsertService_eq_ok.mp h1
    obtain ⟨-, _, rfl, -⟩ := upsertBucket_eq_ok.mp h2
    exact ⟨rfl, rfl⟩
  | delete command =>
    obtain ⟨_, _, _, -, -, -, -, rfl⟩ := applyDelete_eq_ok.mp h
    exact ⟨rfl, rfl⟩
  | createCredential command credential =>
    obtain ⟨-, _, _, -, -, -, -, rfl⟩ := applyCreateCredential_eq_ok.mp h
    exact ⟨rfl, rfl⟩
  | revokeCredential command =>
    obtain ⟨_, _, -, -, -, rfl⟩ := applyRevokeCredential_eq_ok.mp h
    exact ⟨rfl, rfl⟩
  | fail operation =>
    obtain ⟨-, rfl⟩ := Tx.pure_eq_ok.mp h
    exact ⟨rfl, rfl⟩

theorem settle_receipts (completion : Completion) (operationId : Uuid) (db : Database)
    (t : Table receiptSchema) :
    completion.settle operationId { db with receipts := t } =
      { completion.settle operationId db with receipts := t } := by
  cases completion <;> rfl

theorem settle_audits (completion : Completion) (operationId : Uuid) :
    (completion.settle operationId db).audits = db.audits := by
  cases completion <;> rfl

/-- **a finishing call goes through iff its caller holds the receipt, its writes go through, the
response can be sealed and the audit event stored** -/
theorem finish_eq_ok {call : FinishCall} {u : Unit} :
    call.exec store env db = .ok (u, db') ↔
      call.completion.precheck call.response = true ∧
      db.HeldBy call.operation call.operationId ∧
      ∃ db₁ sealed t a, call.completion.before env call.operationId db = .ok ((), db₁) ∧
        store.receiptCipher.encrypt env.nonce call.operation.idempotencyKey call.operationId
          (store.json.toVec call.response.body) = .ok sealed ∧
        db.receipts.updateWhere (receiptSchema.hasKey call.operation.idempotencyKey)
          (ReceiptRow.finished env call.response sealed) = .ok t ∧
        call.audit.valid = true ∧
        db.audits.insert ⟨env.auditId, call.audit, env.now⟩ = .ok a ∧
        db' = { call.completion.settle call.operationId db₁ with receipts := t, audits := a } := by
  rw [FinishCall.exec_eq_ok]
  refine and_congr_right fun _ => ?_
  simp only [PgStore.finishing, Tx.bind_eq_ok, requireInProgressReceipt_eq_ok, after_eq_ok,
    insertAudit_eq_ok]
  constructor
  · rintro ⟨_, _, ⟨hh, rfl⟩, _, db₁, hb, _, db₂, hf, _, _, rfl, hv, a, ha, rfl⟩
    obtain ⟨hr, hau⟩ := before_frame hb
    have hh₁ : db₁.HeldBy call.operation call.operationId := by
      simpa only [Database.HeldBy, hr] using hh
    obtain ⟨sealed, t, he, ht, rfl⟩ := (finishReceipt_eq_ok hh₁).mp hf
    rw [settle_audits] at ha
    rw [settle_receipts]
    exact ⟨hh, db₁, sealed, t, a, hb, he, hr ▸ ht, hv, hau ▸ ha, rfl⟩
  · rintro ⟨hh, db₁, sealed, t, a, hb, he, ht, hv, ha, rfl⟩
    obtain ⟨hr, hau⟩ := before_frame hb
    have hh₁ : db₁.HeldBy call.operation call.operationId := by
      simpa only [Database.HeldBy, hr] using hh
    refine ⟨(), db, ⟨hh, rfl⟩, (), db₁, hb, (), { db₁ with receipts := t },
      (finishReceipt_eq_ok hh₁).mpr ⟨sealed, t, he, hr ▸ ht, rfl⟩, (), _, rfl, hv, a, ?_, ?_⟩
    · rw [settle_audits]
      exact hau.symm ▸ ha
    · rw [settle_receipts _ _ db₁ t]

end Finishing

/-! ## the other calls -/

section Other
variable {store : PgStore} {env : CallEnv} {db db' : Database}

theorem renewOperation_eq_ok {operation : OperationRequest} {operationId : Uuid} {u : Unit} :
    PgStore.renewOperation env operation operationId db = .ok (u, db') ↔
      operation.validate = .ok () ∧ db.HeldBy operation operationId ∧
      ∃ t, db.receipts.updateWhere (receiptSchema.hasKey operation.idempotencyKey)
          (ReceiptRow.renewed env) = .ok t ∧ db' = { db with receipts := t } := by
  unfold PgStore.renewOperation
  rw [Tx.bind_eq_ok]
  simp only [Tx.ofExcept_eq_ok]
  constructor
  · rintro ⟨_, _, ⟨hv, rfl⟩, h⟩
    obtain ⟨_, _, h1, h2⟩ := Tx.bind_eq_ok.mp h
    obtain ⟨hh, rfl⟩ := requireInProgressReceipt_eq_ok.mp h1
    exact ⟨hv, hh, hh.update_eq_ok.mp h2⟩
  · rintro ⟨hv, hh, h⟩
    exact ⟨(), db, ⟨hv, rfl⟩, Tx.bind_eq_ok.mpr
      ⟨(), db, requireInProgressReceipt_eq_ok.mpr ⟨hh, rfl⟩, hh.update_eq_ok.mpr h⟩⟩

theorem recordUsage_ok {o p s : Uuid} {bytesUsed objectsUsed : UInt64} {measuredAt : Timestamp}
    {record : UsageRecord}
    (h : PgStore.recordUsage env o p s bytesUsed objectsUsed measuredAt db = .ok (record, db')) :
    ∃ bytes objects row b v, db.buckets.lookup s = some row ∧ row.organizationId = o ∧
      row.projectId = p ∧
      db.buckets.updateWhere (bucketSchema.hasKey s)
        (PgStore.measuredBucket env bytes objects measuredAt) = .ok b ∧
      (∀ q, q ≠ s → v.select (fun r => decide (r.serviceInstanceId = q)) =
        db.usageSnapshots.select (fun r => decide (r.serviceInstanceId = q))) ∧
      db' = { db with buckets := b, usageSnapshots := v } := by
  simp only [PgStore.recordUsage, Tx.bind_eq_ok, Tx.ofExcept_eq_ok, Tx.read_eq_ok,
    Tx.require_eq_ok, updateRows_eq_ok, Tx.pure_eq_ok] at h
  obtain ⟨bytes, _, ⟨-, rfl⟩, objects, _, ⟨-, rfl⟩, _, _, ⟨rfl, rfl⟩, row, _, ⟨hrow, rfl⟩, _, _,
    ⟨b, hb, -, rfl⟩, _, _, hv, _, _, ⟨-, rfl⟩, _, _, ⟨-, rfl⟩, -, rfl⟩ := h
  rw [Option.filter_eq_some_iff, Bool.and_eq_true, decide_eq_true_eq, decide_eq_true_eq] at hrow
  obtain ⟨-, ⟨-, -, v, hi, -, rfl⟩ | ⟨-, v, hu, -, rfl⟩⟩ := upsertRow_eq_ok.mp hv
  · refine ⟨bytes, objects, row, b, v, hrow.1, hrow.2.1, hrow.2.2, hb, fun q hq => ?_, rfl⟩
    exact Table.select_insert hi (decide_eq_false fun h => hq h.symm)
  · refine ⟨bytes, objects, row, b, v, hrow.1, hrow.2.1, hrow.2.2, hb, fun q hq => ?_, rfl⟩
    refine Table.select_updateWhere hu fun r _ hr => ?_
    have hs : r.serviceInstanceId = s := by
      rw [Bool.and_eq_true, decide_eq_true_eq] at hr
      exact hr.1
    have hne : decide (r.serviceInstanceId = q) = false := decide_eq_false (hs ▸ fun h => hq h.symm)
    exact ⟨hne, hne⟩

/-- statements that read change nothing -/
theorem select_unchanged {α : Type} {program : SelectM α} {a : α}
    (h : program.within Select.perform db = .ok (a, db')) : db' = db := by
  induction program with
  | done r => exact (Tx.ofExcept_eq_ok.mp h).2
  | ask q next ih =>
    obtain ⟨_, _, hread, h⟩ := Tx.bind_eq_ok.mp h
    obtain ⟨rfl, rfl⟩ := Tx.read_eq_ok.mp hread
    exact ih _ h

section
variable {o p s : Uuid}

theorem visibleService_eq_ok {row : Option ServiceRow} {service : ServiceRow} :
    PgStore.visibleService o p row = .ok service ↔
      row = some service ∧ service.organizationId = o ∧ service.projectId = p ∧
        service.phase ≠ .deleted := by
  rw [PgStore.visibleService, except_bind_eq_ok]
  simp only [okOr_eq_ok]
  constructor
  · rintro ⟨service', rfl, h⟩
    split_ifs at h with hscope hphase
    obtain rfl := Except.ok.inj h
    rw [not_or, not_not, not_not] at hscope
    exact ⟨rfl, hscope.1, hscope.2, hphase⟩
  · rintro ⟨rfl, rfl, rfl, hphase⟩
    exact ⟨service, rfl, by simp [hphase, pure, Except.pure]⟩

theorem visibleService_eq_error {row : Option ServiceRow} {e : StoreError}
    (h : PgStore.visibleService o p row = .error e) :
    e = .notFound ∧ ∀ service, row = some service → service.organizationId = o →
      service.projectId = p → service.phase = .deleted := by
  cases row with
  | none => exact ⟨(Except.error.inj h).symm, fun service hs => by cases hs⟩
  | some service =>
    have hnot : ∀ service', some service = some service' → service'.organizationId = o →
        service'.projectId = p → service'.phase = .deleted := by
      rintro _ ⟨⟩ ho hp
      by_contra hphase
      exact absurd_ok_error (visibleService_eq_ok.mpr ⟨rfl, ho, hp, hphase⟩) h
    refine ⟨?_, hnot⟩
    simp only [PgStore.visibleService, okOr, bind, Except.bind] at h
    split_ifs at h
    · exact (Except.error.inj h).symm
    · exact (Except.error.inj h).symm
    · cases h

/-- an overview that nothing comes between -/
theorem serviceOverview_within :
    (PgStore.serviceOverview o p s).within Select.perform =
      (Tx.read fun db => db.services.lookup s) >>= fun row =>
        Tx.ofExcept (PgStore.visibleService o p row) >>= fun service =>
          (Tx.read fun db => db.buckets.lookup s) >>= fun row =>
            Tx.ofExcept (PgStore.overviewRecord service row) := by
  simp only [PgStore.serviceOverview, Prog.within_bind, Prog.within_request, Prog.within_ofExcept]
  rfl

/-- and a list of credentials -/
theorem listCredentials_within :
    (PgStore.listCredentials o p s).within Select.perform =
      (Tx.read fun db => db.serviceExists o p s) >>= fun exists_ =>
        Tx.ofExcept (PgStore.ensureListed exists_) >>= fun _ =>
          (Tx.read fun db => db.credentialRows s) >>= fun rows =>
            Tx.ofExcept (rows.mapM PgStore.credentialRecord) := by
  simp only [PgStore.listCredentials, Prog.within_bind, Prog.within_request, Prog.within_ofExcept]
  rfl

end

end Other

end Syouyu
