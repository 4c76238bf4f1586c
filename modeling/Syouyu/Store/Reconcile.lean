import Syouyu.Store.Lifecycle

/-!
# When a prepared reconcile can be completed

`prepare_reconcile` writes a receipt and a bucket name reservation; `complete_reconcile` writes the
service and the bucket against all constraints of the schema.

* `complete_reconcile_iff`   what `complete_reconcile` needs beyond what was checked at prepare
                             time: a storable name, free in the project, and a bucket name and
                             physical id that no other bucket row holds;
* `released_name_completes`  a name without reservation can be acquired iff no bucket row, be it of
                             a deleted service, still holds it;
* `prepared_reconcile_completes`   a prepared reconcile can be completed iff its service name is
                             storable and still free in its project.
-/

set_option linter.unusedSectionVars false

namespace Syouyu
open Lib

section
variable {store : PgStore} {env : CallEnv} {db db' : Database} {command : ReconcileCommand}
  {physicalBucketId : String} {o : Uuid}

/-! ## the rows pass their checks -/

/-- what every accepted request carries: an action of 1 to 128 characters, and no generation that
is not positive -/
theorem OperationRequest.validate_eq_ok {operation : OperationRequest}
    (h : operation.validate = .ok ()) :
    1 ≤ operation.action.length ∧ operation.action.length ≤ 128 ∧
      ∀ g, operation.generation = some g → 0 < g := by
  unfold OperationRequest.validate at h
  split at h
  · cases h
  rename_i haction
  split at h
  · cases h
  rename_i hany
  push Not at haction
  refine ⟨nonempty_length (by simpa using haction.1), (length_le_len _).trans haction.2, ?_⟩
  intro g hg
  rw [hg] at hany
  simpa using hany

theorem ReconcileCommand.validate_eq_ok (h : command.validate = .ok ()) :
    0 < command.generation ∧ 1 ≤ command.name.length ∧ command.name.length ≤ 120 ∧
      command.spec.validate = .ok () := by
  obtain ⟨_, hop, h⟩ := except_bind_eq_ok.mp h
  split at h
  · cases h
  rename_i hgen
  split at h
  · cases h
  rename_i hname
  push Not at hgen hname
  obtain ⟨-, -, hpos⟩ := OperationRequest.validate_eq_ok hop
  exact ⟨hpos _ hgen, nonempty_length (by simpa using hname.1),
    (length_le_len _).trans hname.2, mapError_eq_ok.mp h⟩

/-- all the service row of a valid command needs is a storable name -/
theorem reconciledService_check (hv : command.validate = .ok ())
    (hname : textBetween 3 63 command.spec.bucketName = true) :
    serviceSchema.check (PgStore.reconciledService env command o) = textStorable command.name := by
  obtain ⟨hgen, hlo, hhi, hspec⟩ := ReconcileCommand.validate_eq_ok hv
  obtain ⟨hregion, -⟩ := SyouyuSpec.validate_eq_ok hspec
  simp only [textBetween, Bool.and_eq_true] at hname hregion
  have hobserved : (0 : Int64) ≤ command.generation := Int64.le_of_lt hgen
  have hstore : command.spec.toValue.storable = true := by
    rw [SyouyuSpec.storable_toValue, hname.1.1, hregion.1.1]
    rfl
  show (textBetween 1 120 command.name && decide (0 < command.generation) && true &&
    command.spec.toValue.storable && decide (0 ≤ command.generation) && true) = _
  simp only [textBetween, hlo, hhi, hgen, hobserved, hstore, decide_true, Bool.and_true]

theorem toInt64_pos {q : UInt64} (h : 1 ≤ q ∧ q ≤ maxGarageQuota) : 0 < q.toInt64 := by
  have hlo : 1 ≤ q.toNat := UInt64.le_iff_toNat_le.mp h.1
  have hhi : q.toNat ≤ 9223372036854775807 := UInt64.le_iff_toNat_le.mp h.2
  have hint : q.toInt64.toInt = q.toNat := by
    show q.toBitVec.toInt = q.toNat
    rw [BitVec.toInt_eq_toNat_of_lt]
    · rfl
    · show 2 * q.toNat < 2 ^ 64
      omega
  rw [Int64.lt_iff_toInt_lt, hint]
  show (0 : Int) < q.toNat
  omega

theorem reconciledBucket_check (hv : command.validate = .ok ())
    (hname : textBetween 3 63 command.spec.bucketName = true)
    (hpid : textBetween 1 256 physicalBucketId = true) :
    bucketSchema.check (PgStore.reconciledBucket env command physicalBucketId
      command.spec.quotaBytes.toInt64 command.spec.quotaObjects.toInt64) = true := by
  obtain ⟨-, -, -, hspec⟩ := ReconcileCommand.validate_eq_ok hv
  obtain ⟨hregion, hbytes, hobjects⟩ := SyouyuSpec.validate_eq_ok hspec
  have hzero : (0 : Int64) ≤ 0 := Int64.le_refl 0
  simp only [bucketSchema, PgStore.reconciledBucket, Option.all_some, hpid, hname, hregion,
    toInt64_pos hbytes, toInt64_pos hobjects, hzero, decide_true, Bool.and_self]

/-- a row written over keeps its usage counters, which were checked before -/
theorem reconcileBucket_check {quotaBytes quotaObjects : Int64} {row : BucketRow}
    (hnew : bucketSchema.check (PgStore.reconciledBucket env command physicalBucketId
      quotaBytes quotaObjects) = true) (hrow : bucketSchema.check row = true) :
    bucketSchema.check (PgStore.reconcileBucket env command physicalBucketId quotaBytes
      quotaObjects row) = true := by
  simp only [bucketSchema, Bool.and_eq_true, PgStore.reconciledBucket,
    PgStore.reconcileBucket] at hrow hnew ⊢
  exact ⟨⟨hnew.1.1, hrow.1.2⟩, hrow.2⟩

/-! ## the writes -/

/-- no other service of the project has the name -/
def Database.ServiceNameFree (db : Database) (command : ReconcileCommand) : Prop :=
  ∀ q ∈ db.services.rows, q.id ≠ command.operation.serviceInstanceId →
    q.projectId = command.operation.projectId → q.name ≠ command.name

/-- no bucket row of another service has the bucket name -/
def Database.BucketNameFree (db : Database) (command : ReconcileCommand) : Prop :=
  ∀ q ∈ db.buckets.rows, q.serviceInstanceId ≠ command.operation.serviceInstanceId →
    q.bucketName ≠ command.spec.bucketName

/-- no bucket row of another service has the physical id -/
def Database.PhysicalIdFree (db : Database) (command : ReconcileCommand)
    (physicalBucketId : String) : Prop :=
  ∀ q ∈ db.buckets.rows, q.serviceInstanceId ≠ command.operation.serviceInstanceId →
    q.physicalBucketId ≠ some physicalBucketId

theorem service_unique_iff {a b : ServiceRow} :
    serviceSchema.unique a b = false ↔ (a.projectId = b.projectId → a.name ≠ b.name) := by
  simp [serviceSchema]

theorem bucket_unique_iff {a b : BucketRow} {p : String} (hp : a.physicalBucketId = some p) :
    bucketSchema.unique a b = false ↔ b.bucketName ≠ a.bucketName ∧ b.physicalBucketId ≠ some p := by
  simp only [bucketSchema, hp, Option.isSome_some, Bool.true_and, Bool.or_eq_false_iff,
    decide_eq_false_iff_not, ne_eq, eq_comm (a := some p), eq_comm (a := a.bucketName)]
  exact and_comm

/-- the service row can be written iff its name can be stored and is free -/
theorem upsertService_ok_iff (env : CallEnv) (o : Uuid) (hv : command.validate = .ok ())
    (hname : textBetween 3 63 command.spec.bucketName = true)
    (hfacts : (PrepareCall.reconcile command).Facts db) :
    (∃ db₁, PgStore.upsertService env command o db = .ok ((), db₁)) ↔
      textStorable command.name = true ∧ db.ServiceNameFree command := by
  have hcheck : serviceSchema.check (PgStore.reconciledService env command o) =
    textStorable command.name := reconciledService_check hv hname
  simp only [upsertService_eq_ok, hcheck]
  obtain ⟨pid, applied, ⟨hl, -⟩ | ⟨service, _, hl, ho, hp, hd, hg, -⟩⟩ := hfacts
  · -- a new row
    have hiff := Table.insert_ok_iff (t := db.services)
      (r := PgStore.reconciledService env command o)
    rw [hcheck] at hiff
    constructor
    · rintro ⟨_, hstore, a, -, ⟨-, hi⟩ | ⟨old, hl', -⟩⟩
      · obtain ⟨-, -, hu⟩ := hiff.mp ⟨a, hi⟩
        exact ⟨hstore, fun q hq _ => service_unique_iff.mp (hu q hq)⟩
      · exact absurd_none_some hl hl'
    · rintro ⟨hstore, hfree⟩
      obtain ⟨a, hi⟩ := hiff.mpr ⟨hstore, hl, fun q hq =>
        service_unique_iff.mpr (hfree q hq (Table.lookup_eq_none.mp hl q hq))⟩
      exact ⟨_, hstore, a, rfl, .inl ⟨hl, hi⟩⟩
  · -- a row of the same scope is brought forward
    have hiff := Table.update_key_ok_iff (f := PgStore.reconcileService env command o) hl
      (fun _ => rfl)
    have hsame : serviceSchema.check (PgStore.reconcileService env command o service) =
      textStorable command.name := hcheck
    rw [hsame] at hiff
    constructor
    · rintro ⟨_, hstore, a, -, ⟨hnone, -⟩ | ⟨old, hl', -, hu⟩⟩
      · exact absurd_none_some hnone hl
      · obtain ⟨-, hfree⟩ := hiff.mp ⟨a, hu⟩
        refine ⟨hstore, fun q hq hne hproject => ?_⟩
        exact (service_unique_iff.mp (hfree q hq hne) (hp.symm.trans hproject.symm)).symm
    · rintro ⟨hstore, hfree⟩
      obtain ⟨a, hu⟩ := hiff.mpr ⟨hstore, fun q hq hne => service_unique_iff.mpr fun hproject =>
        (hfree q hq hne (hproject.symm.trans hp.symm)).symm⟩
      exact ⟨_, hstore, a, rfl, .inr ⟨service, hl, ⟨ho.symm, hp.symm, hg, hd⟩, hu⟩⟩

/-- after it the scope of the command exists, and nothing but services changed -/
theorem upsertService_scope (h : PgStore.upsertService env command o db = .ok ((), db')) :
    db'.scopeExists command.operation.serviceInstanceId command.operation.organizationId
      command.operation.projectId = true ∧ db'.buckets = db.buckets := by
  obtain ⟨-, a, rfl, ⟨-, hi⟩ | ⟨old, hl, ⟨ho, hp, -⟩, hu⟩⟩ := upsertService_eq_ok.mp h
  · exact ⟨scopeExists_iff.mpr ⟨_, Table.lookup_inserted hi, rfl, rfl⟩, rfl⟩
  · exact ⟨scopeExists_iff.mpr ⟨_, Table.lookup_updated hu (fun _ => rfl) hl, ho, hp⟩, rfl⟩

/-- the bucket row can be written iff its name and its physical id are free -/
theorem upsertBucket_ok_iff (env : CallEnv) (hv : command.validate = .ok ())
    (hname : textBetween 3 63 command.spec.bucketName = true)
    (hpid : textBetween 1 256 physicalBucketId = true)
    (hscope : db.scopeExists command.operation.serviceInstanceId command.operation.organizationId
      command.operation.projectId = true) :
    (∃ db₁, PgStore.upsertBucket env command physicalBucketId command.spec.quotaBytes.toInt64
      command.spec.quotaObjects.toInt64 db = .ok ((), db₁)) ↔
      db.BucketNameFree command ∧ db.PhysicalIdFree command physicalBucketId := by
  have hcheck : bucketSchema.check (PgStore.reconciledBucket env command physicalBucketId
    command.spec.quotaBytes.toInt64 command.spec.quotaObjects.toInt64) = true :=
    reconciledBucket_check hv hname hpid
  simp only [upsertBucket_eq_ok, hcheck, hscope, true_and]
  cases hl : db.buckets.lookup command.operation.serviceInstanceId with
  | none =>
    have hiff := Table.insert_ok_iff (t := db.buckets) (r := PgStore.reconciledBucket env command
      physicalBucketId command.spec.quotaBytes.toInt64 command.spec.quotaObjects.toInt64)
    constructor
    · rintro ⟨_, b, -, hi | ⟨⟨old, hl'⟩, -⟩⟩
      · obtain ⟨-, -, hu⟩ := hiff.mp ⟨b, hi.2⟩
        have hfree := fun q hq => (bucket_unique_iff rfl).mp
          ((bucketSchema.unique_symm _ _).trans (hu q hq))
        exact ⟨fun q hq _ => (hfree q hq).1, fun q hq _ => (hfree q hq).2⟩
      · cases hl'
    · rintro ⟨hn, hp⟩
      obtain ⟨b, hi⟩ := hiff.mpr ⟨hcheck, hl, fun q hq => by
        have hne := Table.lookup_eq_none.mp hl q hq
        rw [bucketSchema.unique_symm]
        exact (bucket_unique_iff rfl).mpr ⟨hn q hq hne, hp q hq hne⟩⟩
      exact ⟨_, b, rfl, .inl ⟨rfl, hi⟩⟩
  | some old =>
    have hiff := Table.update_key_ok_iff (f := PgStore.reconcileBucket env command
      physicalBucketId command.spec.quotaBytes.toInt64 command.spec.quotaObjects.toInt64) hl
      (fun _ => rfl)
    constructor
    · rintro ⟨_, b, -, ⟨hnone, -⟩ | ⟨-, hu⟩⟩
      · cases hnone
      · obtain ⟨-, hfree⟩ := hiff.mp ⟨b, hu⟩
        have hfree' := fun q hq hne => (bucket_unique_iff rfl).mp (hfree q hq hne)
        exact ⟨fun q hq hne => (hfree' q hq hne).1, fun q hq hne => (hfree' q hq hne).2⟩
    · rintro ⟨hn, hp⟩
      obtain ⟨b, hu⟩ := hiff.mpr ⟨reconcileBucket_check hcheck (Table.lookup_check hl),
        fun q hq hne => (bucket_unique_iff rfl).mpr ⟨hn q hq hne, hp q hq hne⟩⟩
      exact ⟨_, b, rfl, .inr ⟨⟨old, rfl⟩, hu⟩⟩

/-! ## finishing -/

/-- the response can be sealed, and response and audit event fit their columns -/
structure FinishCall.Recordable (store : PgStore) (env : CallEnv) (db : Database)
    (call : FinishCall) : Prop where
  sealable : ∃ sealed, store.receiptCipher.encrypt env.nonce call.operation.idempotencyKey
    call.operationId (store.json.toVec call.response.body) = .ok sealed
  status : 100 ≤ call.response.status ∧ call.response.status ≤ 599
  valid : call.audit.valid = true
  fits : auditSchema.check ⟨env.auditId, call.audit, env.now⟩ = true
  fresh : db.audits.lookup env.auditId = none

theorem statusToI32_range {status : UInt16} (h : 100 ≤ status ∧ status ≤ 599) :
    100 ≤ statusToI32 status ∧ statusToI32 status ≤ 599 := by
  have hlo : 100 ≤ status.toNat := UInt16.le_iff_toNat_le.mp h.1
  have hhi : status.toNat ≤ 599 := UInt16.le_iff_toNat_le.mp h.2
  have hint : (statusToI32 status).toInt = status.toNat := by
    rw [statusToI32, Int32.toInt_ofNat_of_lt (by omega)]
  rw [Int32.le_iff_toInt_le, Int32.le_iff_toInt_le, hint]
  exact ⟨by show (100 : Int) ≤ status.toNat; omega, by show (status.toNat : Int) ≤ 599; omega⟩

/-- a response in range keeps a receipt well formed -/
theorem finished_check (env : CallEnv) {row : ReceiptRow} {response : StoredHttpResponse}
    (sealed : Nonce × List UInt8) (hrow : receiptSchema.check row = true)
    (h : 100 ≤ response.status ∧ response.status ≤ 599) :
    receiptSchema.check (row.finished env response sealed) = true := by
  simp only [receiptSchema, Bool.and_eq_true] at hrow
  obtain ⟨⟨⟨⟨⟨haction, hgen⟩, -⟩, -⟩, hattempt⟩, -⟩ := hrow
  have hstatus := statusToI32_range h
  have hnonce : sealed.1.1.length = 12 := sealed.1.2
  cases hf : response.failed <;>
    simp [receiptSchema, ReceiptRow.finished, haction, hgen, hattempt, hstatus, hnonce, hf]

/-- a held receipt can be finished with any response in range -/
theorem finished_ok (env : CallEnv) {row : ReceiptRow} {k : Uuid} {response : StoredHttpResponse}
    (hl : db.receipts.lookup k = some row) (sealed : Nonce × List UInt8)
    (h : 100 ≤ response.status ∧ response.status ≤ 599) :
    ∃ t, db.receipts.updateWhere (receiptSchema.hasKey k)
      (ReceiptRow.finished env response sealed) = .ok t := by
  refine (Table.update_key_ok_iff (f := ReceiptRow.finished env response sealed) hl
    (fun _ => rfl)).mpr ⟨finished_check env sealed (Table.lookup_check hl) h, fun q hq hne => ?_⟩
  cases hu : receiptSchema.unique (ReceiptRow.finished env response sealed row) q with
  | false => rfl
  | true =>
    have heq := db.receipts.eq_of_unique (Table.lookup_mem hl) hq hu
    exact absurd (heq ▸ Table.lookup_key hl) hne

/-- **a call that holds its receipt and can be recorded goes through iff its writes do** -/
theorem finish_ok_iff {call : FinishCall} (hheld : db.HeldBy call.operation call.operationId)
    (hrec : call.Recordable store env db)
    (hpre : call.completion.precheck call.response = true) :
    (∃ db', call.exec store env db = .ok ((), db')) ↔
      ∃ db₁, call.completion.before env call.operationId db = .ok ((), db₁) := by
  constructor
  · rintro ⟨db', h⟩
    obtain ⟨-, -, db₁, _, _, _, hb, -⟩ := finish_eq_ok.mp h
    exact ⟨db₁, hb⟩
  · rintro ⟨db₁, hb⟩
    obtain ⟨row, hl, -⟩ := id hheld
    obtain ⟨sealed, hs⟩ := hrec.sealable
    obtain ⟨t, ht⟩ := finished_ok env hl sealed hrec.status
    obtain ⟨a, ha⟩ := Table.insert_ok_iff.mpr ⟨hrec.fits, hrec.fresh, fun _ _ => rfl⟩
    exact ⟨_, finish_eq_ok.mpr ⟨hpre, hheld, db₁, sealed, t, a, hb, hs, ht, hrec.valid, ha, rfl⟩⟩

/-- **what completing a prepared reconcile takes** -/
theorem complete_reconcile_iff {call : FinishCall} (hv : command.validate = .ok ())
    (hname : textBetween 3 63 command.spec.bucketName = true)
    (hfacts : (PrepareCall.reconcile command).Facts db)
    (hcall : call.completion = .reconcile command physicalBucketId)
    (hheld : db.HeldBy call.operation call.operationId)
    (hrec : call.Recordable store env db)
    (hpid : textBetween 1 256 physicalBucketId = true ∧ len physicalBucketId ≤ 256) :
    (∃ db', call.exec store env db = .ok ((), db')) ↔
      (textStorable command.name = true ∧ db.ServiceNameFree command) ∧
      db.BucketNameFree command ∧ db.PhysicalIdFree command physicalBucketId := by
  obtain ⟨-, -, -, hspec⟩ := ReconcileCommand.validate_eq_ok hv
  obtain ⟨-, hbytes, hobjects⟩ := SyouyuSpec.validate_eq_ok hspec
  have hpre : call.completion.precheck call.response = true := by
    have hne : physicalBucketId.isEmpty = false := by
      cases he : physicalBucketId.isEmpty with
      | false => rfl
      | true =>
        rw [String.isEmpty_iff.mp he] at hpid
        exact absurd hpid.1 (by decide)
    rw [hcall]
    simp [Completion.precheck, hne, hpid.2, hbytes.2, hobjects.2]
  rw [finish_ok_iff hheld hrec hpre, hcall]
  show (∃ db₁, PgStore.applyReconcile env command call.operationId physicalBucketId
    command.spec.quotaBytes.toInt64 command.spec.quotaObjects.toInt64 db = .ok ((), db₁)) ↔ _
  rw [← upsertService_ok_iff env call.operationId hv hname hfacts]
  constructor
  · rintro ⟨_, h⟩
    obtain ⟨db₁, db₂, h1, h2, -⟩ := applyReconcile_eq_ok.mp h
    obtain ⟨hscope, hsame⟩ := upsertService_scope h1
    have hfree := (upsertBucket_ok_iff env hv hname hpid.1 hscope).mp ⟨db₂, h2⟩
    simp only [Database.BucketNameFree, Database.PhysicalIdFree, hsame] at hfree
    exact ⟨⟨db₁, h1⟩, hfree⟩
  · rintro ⟨⟨db₁, h1⟩, hfree⟩
    obtain ⟨hscope, hsame⟩ := upsertService_scope h1
    have hfree₁ : db₁.BucketNameFree command ∧ db₁.PhysicalIdFree command physicalBucketId := by
      simpa only [Database.BucketNameFree, Database.PhysicalIdFree, hsame] using hfree
    obtain ⟨db₂, h2⟩ := (upsertBucket_ok_iff env hv hname hpid.1 hscope).mpr hfree₁
    exact ⟨_, applyReconcile_eq_ok.mpr ⟨db₁, db₂, h1, h2, rfl⟩⟩

/-! ## after a prepare call -/

/-- what a reconcile that is to be executed leaves behind -/
theorem reconcile_executed {context : ReconcileContext}
    (h : StoreStep store db ⟨env, .prepare (.reconcile command), .ok (.execute o context)⟩ db') :
    command.validate = .ok () ∧ textBetween 3 63 command.spec.bucketName = true ∧
      db'.HeldBy command.operation o ∧ (PrepareCall.reconcile command).Facts db' ∧
      db'.services = db.services ∧ db'.buckets = db.buckets := by
  have hexec : (PrepareCall.reconcile command).exec store env db =
    .ok (.execute o context, db') := step_ok h
  obtain ⟨hv, claimed, db₁, hc, hb⟩ := prepare_body hexec
  obtain ⟨-, -, -, hname, -⟩ := reconcile_prepared hc hb
  obtain ⟨hservices, hbuckets, -⟩ := prepare_names hexec
  exact ⟨hv, hname, executed_receipt hexec, prepare_facts hexec, hservices, hbuckets⟩

/-- **Acquiring a bucket name.**  A reconcile of a new service under an unused service name that
was prepared can be completed with a fresh physical bucket id iff its name can be stored and no
bucket row, also of a deleted service, still holds the bucket name. -/
theorem released_name_completes {db₀ db₁ : Database} {env₀ : CallEnv} {context : ReconcileContext}
    {call : FinishCall} (hreach : Reachable store db₀)
    (hnew : db₀.services.lookup command.operation.serviceInstanceId = none)
    (hunused : ∀ q ∈ db₀.services.rows, q.projectId = command.operation.projectId →
      q.name ≠ command.name)
    (hprep : StoreStep store db₀
      ⟨env₀, .prepare (.reconcile command), .ok (.execute o context)⟩ db₁)
    (hcall : call.completion = .reconcile command physicalBucketId) (ho : call.operationId = o)
    (hrec : call.Recordable store env db₁)
    (hpid : textBetween 1 256 physicalBucketId = true ∧ len physicalBucketId ≤ 256)
    (hfree : ∀ q ∈ db₀.buckets.rows, q.physicalBucketId ≠ some physicalBucketId) :
    (∃ db₂, StoreStep store db₁ ⟨env, .finish call, .ok ()⟩ db₂) ↔
      textStorable command.name = true ∧
      ∀ q ∈ db₀.buckets.rows, q.bucketName ≠ command.spec.bucketName := by
  obtain ⟨hv, hname, hheld, hfacts, hservices, hbuckets⟩ := reconcile_executed hprep
  have hoperation : call.operation = command.operation := by
    rw [FinishCall.operation, hcall]
    rfl
  rw [← hoperation, ← ho] at hheld
  -- a service without a row has no bucket row either
  have hother : ∀ q ∈ db₀.buckets.rows,
      q.serviceInstanceId ≠ command.operation.serviceInstanceId := by
    intro q hq heq
    obtain ⟨tr, hrun⟩ := hreach
    have hscoped : db₀.Scoped :=
      hrun.invariant Database.Scoped (fun _ _ _ hd hs => hd.step hs) .empty
    obtain ⟨row, hl, -⟩ := scopeExists_iff.mp (hscoped.buckets q hq)
    rw [heq, hnew] at hl
    cases hl
  have hiff : (∃ db₂, call.exec store env db₁ = .ok ((), db₂)) ↔ _ :=
    complete_reconcile_iff hv hname hfacts hcall hheld hrec hpid
  simp only [Database.ServiceNameFree, Database.BucketNameFree, Database.PhysicalIdFree, hservices,
    hbuckets] at hiff
  constructor
  · rintro ⟨db₂, hstep⟩
    obtain ⟨⟨hstore, -⟩, hnames, -⟩ := hiff.mp ⟨db₂, step_finished hstep⟩
    exact ⟨hstore, fun q hq => hnames q hq (hother q hq)⟩
  · rintro ⟨hstore, hnames⟩
    obtain ⟨db₂, h⟩ := hiff.mpr ⟨⟨hstore, fun q hq _ => hunused q hq⟩,
      fun q hq _ => hnames q hq, fun q hq _ => hfree q hq⟩
    exact ⟨db₂, step_of_ok h⟩

namespace Sample

/-- beside service 10, service 12 reserves the name `bucket-c` -/
def reserving : List (CallEnv × StoreCall) :=
  serviceA ++ [(Sample.env 2 2, .prepare (.reconcile (reconcile 103 12 "c" "bucket-c" 1)))]

/-- and fails -/
def releasing : List (CallEnv × StoreCall) :=
  let operation := (reconcile 103 12 "c" "bucket-c" 1).operation
  reserving ++
  [(Sample.env 3 3, .finish ⟨.fail operation, 1002, ⟨503, .object [], true⟩, audit operation⟩)]

end Sample

/-- service B takes the name that the failure of service 12 released -/
theorem released_name_completes_failed :
    let db := (PgStore.reference.play Sample.reserving Database.empty).2
    let db₀ := (PgStore.reference.play Sample.releasing Database.empty).2
    let command := Sample.reconcile 102 11 "b" "bucket-c" 1
    let db₁ := ((StoreCall.prepare (.reconcile command)).run PgStore.reference (Sample.env 4 4)
      db₀).2
    (db.nameReservations.lookup "bucket-c").isSome = true ∧
      db₀.nameReservations.lookup "bucket-c" = none ∧ db₀.buckets.rows ≠ [] ∧
      ∃ db₂, StoreStep PgStore.reference db₁
        ⟨Sample.env 5 5, Sample.finish (.reconcile command "garage-b") 1004, .ok ()⟩ db₂ := by
  intro db db₀ command db₁
  have hrows : (db.nameReservations.lookup "bucket-c").isSome = true ∧
      db₀.nameReservations.lookup "bucket-c" = none ∧ db₀.buckets.rows ≠ [] ∧
      db₀.services.lookup 11 = none ∧
      (∀ q ∈ db₀.services.rows, q.projectId = command.operation.projectId → q.name ≠ "b") ∧
      (∀ q ∈ db₀.buckets.rows, q.physicalBucketId ≠ some "garage-b") ∧
      (∀ q ∈ db₀.buckets.rows, q.bucketName ≠ "bucket-c") := by
    decide +kernel
  obtain ⟨hreserved, hreleased, hothers, hnew, hunused, hfree, hname⟩ := hrows
  have hprep : StoreStep PgStore.reference db₀ ⟨Sample.env 4 4,
      .prepare (.reconcile command), .ok (.execute 1004 ⟨command.desiredBucket none, false⟩)⟩
      db₁ := step_of_answer (by decide +kernel)
  have hreach : Reachable PgStore.reference db₀ := ⟨_, play_run _ Sample.releasing _⟩
  have hrec : FinishCall.Recordable PgStore.reference (Sample.env 5 5) db₁
      ⟨.reconcile command "garage-b", 1004, ⟨200, .object [], false⟩,
        Sample.audit command.operation⟩ :=
    ⟨⟨_, rfl⟩, by decide, by decide +kernel, by decide +kernel, by decide +kernel⟩
  exact ⟨hreserved, hreleased, hothers, (released_name_completes hreach hnew hunused hprep rfl rfl
    hrec (by decide +kernel) hfree).mpr ⟨by decide +kernel, hname⟩⟩

/-- **A released bucket name that cannot be acquired.**  Service A was deleted and its name
reservation released, so the reconcile of service B under that name is prepared; but the bucket row
of service A still holds the name and completing service B is refused. -/
theorem released_name_refused :
    let db₀ := (PgStore.reference.play Sample.lifetime Database.empty).2
    let command := Sample.reconcile 102 11 "b" "bucket-a" 1
    let db₁ := ((StoreCall.prepare (.reconcile command)).run PgStore.reference (Sample.env 4 4)
      db₀).2
    Reachable PgStore.reference db₀ ∧ db₀.nameReservations.lookup "bucket-a" = none ∧
      db₀.services.lookup 11 = none ∧
      (∀ q ∈ db₀.services.rows, q.projectId = command.operation.projectId → q.name ≠ "b") ∧
      StoreStep PgStore.reference db₀ ⟨Sample.env 4 4, .prepare (.reconcile command),
        .ok (.execute 1004 ⟨command.desiredBucket none, false⟩)⟩ db₁ ∧
      (∀ q ∈ db₁.buckets.rows, q.physicalBucketId ≠ some "garage-b") ∧
      (Sample.finish (.reconcile command "garage-b") 1004).run PgStore.reference
        (Sample.env 5 5) db₁ = (.error (.conflict "resource already exists"), db₁) := by
  intro db₀ command db₁
  have hrows : db₀.nameReservations.lookup "bucket-a" = none ∧ db₀.services.lookup 11 = none ∧
      (∀ q ∈ db₀.services.rows, q.projectId = command.operation.projectId → q.name ≠ "b") ∧
      (∀ q ∈ db₁.buckets.rows, q.physicalBucketId ≠ some "garage-b") := by
    decide +kernel
  obtain ⟨hname, hnew, hunused, hfree⟩ := hrows
  exact ⟨⟨_, play_run _ Sample.lifetime _⟩, hname, hnew, hunused,
    step_of_answer (by decide +kernel), hfree, run_refused (by decide +kernel)⟩

/-- **Completing a prepared reconcile.**  Whatever calls follow, as long as the operation still
holds its receipt and no other bucket row has the bucket name or the physical id, the reconcile can
be completed iff its service name can be stored and no other service of its project has it. -/
theorem prepared_reconcile_completes {db₀ db₁ db₂ : Database} {env₀ : CallEnv}
    {context : ReconcileContext} {call : FinishCall} {tr : List CallRecord}
    (hreach : Reachable store db₀)
    (hprep : StoreStep store db₀
      ⟨env₀, .prepare (.reconcile command), .ok (.execute o context)⟩ db₁)
    (hrun : Run (StoreStep store) db₁ tr db₂) (hheld : db₂.HeldBy command.operation o)
    (hcall : call.completion = .reconcile command physicalBucketId) (ho : call.operationId = o)
    (hrec : call.Recordable store env db₂)
    (hpid : textBetween 1 256 physicalBucketId = true ∧ len physicalBucketId ≤ 256)
    (hname : db₂.BucketNameFree command) (hfree : db₂.PhysicalIdFree command physicalBucketId) :
    (∃ db₃, StoreStep store db₂ ⟨env, .finish call, .ok ()⟩ db₃) ↔
      textStorable command.name = true ∧ db₂.ServiceNameFree command := by
  obtain ⟨hv, htext, ⟨row, hl, hreq, -⟩, hfacts, -⟩ := reconcile_executed hprep
  obtain ⟨row', hl', -, -, hs'⟩ := id hheld
  have hx : db₁.Exclusive := (reachable_exclusive hreach).step hprep
  have hfacts₂ : (PrepareCall.reconcile command).Facts db₂ :=
    hfacts.run hx hrun hl hreq hl' hs'
  have hoperation : call.operation = command.operation := by
    rw [FinishCall.operation, hcall]
    rfl
  rw [← hoperation, ← ho] at hheld
  have hiff : (∃ db₃, call.exec store env db₂ = .ok ((), db₃)) ↔ _ :=
    complete_reconcile_iff hv htext hfacts₂ hcall hheld hrec hpid
  constructor
  · rintro ⟨db₃, hstep⟩
    exact (hiff.mp ⟨db₃, step_finished hstep⟩).1
  · intro hok
    obtain ⟨db₃, h⟩ := hiff.mpr ⟨hok, hname, hfree⟩
    exact ⟨db₃, step_of_ok h⟩

/-- service A is completed after service B, which has another name -/
theorem prepared_reconcile_completes_serviceA :
    let command := Sample.reconcile 100 10 "a" "bucket-a" 1
    let db₁ := ((StoreCall.prepare (.reconcile command)).run PgStore.reference (Sample.env 0 0)
      Database.empty).2
    let db₂ := (PgStore.reference.play (Sample.serviceB "b" "bucket-b") db₁).2
    ∃ db₃, StoreStep PgStore.reference db₂
      ⟨Sample.env 6 6, Sample.finish (.reconcile command "garage-a") 1000, .ok ()⟩ db₃ := by
  intro command db₁ db₂
  have hprep : StoreStep PgStore.reference Database.empty ⟨Sample.env 0 0,
      .prepare (.reconcile command), .ok (.execute 1000 ⟨command.desiredBucket none, false⟩)⟩
      db₁ := step_of_answer (by decide +kernel)
  have hrun : Run (StoreStep PgStore.reference) db₁ _ db₂ :=
    play_run PgStore.reference (Sample.serviceB "b" "bucket-b") db₁
  obtain ⟨row, hl, hrow⟩ := (Option.any_eq_true _ _).mp (show
    (db₂.receipts.lookup 100).any (fun row => decide (row.request = command.operation ∧
      row.operationId = 1000 ∧ row.state = .inProgress)) = true by decide +kernel)
  have hrows : (∀ q ∈ db₂.buckets.rows, q.bucketName ≠ "bucket-a" ∧
      q.physicalBucketId ≠ some "garage-a") ∧ (∀ q ∈ db₂.services.rows, q.name ≠ "a") ∧
      db₂.audits.lookup (Sample.env 6 6).auditId = none := by decide +kernel
  obtain ⟨hbuckets, hnames, hfresh⟩ := hrows
  have hrec : FinishCall.Recordable PgStore.reference (Sample.env 6 6) db₂
      ⟨.reconcile command "garage-a", 1000, ⟨200, .object [], false⟩,
        Sample.audit command.operation⟩ :=
    ⟨⟨_, rfl⟩, by decide, by decide +kernel, by decide +kernel, hfresh⟩
  exact (prepared_reconcile_completes ⟨[], .nil _⟩ hprep hrun ⟨row, hl, of_decide_eq_true hrow⟩
    rfl rfl hrec (by decide +kernel) (fun q hq _ => (hbuckets q hq).1)
    fun q hq _ => (hbuckets q hq).2).mpr ⟨by decide +kernel, fun q hq _ _ => hnames q hq⟩

/-- **A prepared reconcile that cannot be completed.**  Services A and B of one project are
prepared under one name, B is completed first; A still holds its receipt, but completing it is
refused. -/
theorem prepared_reconcile_refused :
    let command := Sample.reconcile 100 10 "a" "bucket-a" 1
    let db₁ := ((StoreCall.prepare (.reconcile command)).run PgStore.reference (Sample.env 0 0)
      Database.empty).2
    let db₂ := (PgStore.reference.play (Sample.serviceB "a" "bucket-b") db₁).2
    StoreStep PgStore.reference Database.empty ⟨Sample.env 0 0, .prepare (.reconcile command),
        .ok (.execute 1000 ⟨command.desiredBucket none, false⟩)⟩ db₁ ∧
      Run (StoreStep PgStore.reference) db₁
        (PgStore.reference.play (Sample.serviceB "a" "bucket-b") db₁).1 db₂ ∧
      db₂.HeldBy command.operation 1000 ∧ db₂.BucketNameFree command ∧
      db₂.PhysicalIdFree command "garage-a" ∧
      (Sample.finish (.reconcile command "garage-a") 1000).run PgStore.reference
        (Sample.env 6 6) db₂ = (.error (.conflict "resource already exists"), db₂) := by
  intro command db₁ db₂
  obtain ⟨row, hl, hrow⟩ := (Option.any_eq_true _ _).mp (show
    (db₂.receipts.lookup 100).any (fun row => decide (row.request = command.operation ∧
      row.operationId = 1000 ∧ row.state = .inProgress)) = true by decide +kernel)
  have hbuckets : ∀ q ∈ db₂.buckets.rows, q.bucketName ≠ "bucket-a" ∧
      q.physicalBucketId ≠ some "garage-a" := by decide +kernel
  exact ⟨step_of_answer (by decide +kernel), play_run _ _ _, ⟨row, hl, of_decide_eq_true hrow⟩,
    fun q hq _ => (hbuckets q hq).1, fun q hq _ => (hbuckets q hq).2,
    run_refused (by decide +kernel)⟩

end

end Syouyu
