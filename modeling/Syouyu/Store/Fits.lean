import Syouyu.Store.Completable

/-!
# Validated commands against the schema

A command is validated in Rust, by bytes, before anything is written; the schema checks the same
fields again, by characters, when the rows are written.  Between the two lies what Garage was told
to do.

* `OperationRequest.Fits`, `ReconcileCommand.Fits`, `CreateCredentialCommand.Fits`
                                  every row the calls write for a command passes its checks;
* `validated_commands_fit`        an accepted command fits, unless its action or the name of its
                                  service contains U+0000;
* `nul_name_stranded`             such a name is accepted, prepared, and refused when the service
                                  row is written, with the receipt left in progress.
-/

set_option linter.unusedSectionVars false

namespace Syouyu
open Lib

/-! ## what is written for a command -/

/-- the receipt of the request passes its checks in every state the calls bring it to -/
structure OperationRequest.Fits (operation : OperationRequest) : Prop where
  reserved : ∀ env, receiptSchema.check (.reserved env operation) = true
  takenOver : ∀ env row, row.request = operation → row.state = .inProgress →
    receiptSchema.check row = true → receiptSchema.check (row.takenOver env) = true
  finished : ∀ env (row : ReceiptRow) response sealed, row.request = operation →
    100 ≤ response.status ∧ response.status ≤ 599 →
    receiptSchema.check row = true → receiptSchema.check (row.finished env response sealed) = true

/-- what `reserve_receipt`, `reserve_bucket_name` and `complete_reconcile` write, be the row new or
written over an old one -/
structure ReconcileCommand.Fits (command : ReconcileCommand) (physicalBucketId : String) :
    Prop where
  receipt : command.operation.Fits
  bucketName : ∀ now, nameReservationSchema.check
    ⟨command.spec.bucketName, command.operation.serviceInstanceId, now⟩ = true
  newService : ∀ env o, serviceSchema.check (PgStore.reconciledService env command o) = true
  oldService : ∀ env o row, serviceSchema.check row = true →
    serviceSchema.check (PgStore.reconcileService env command o row) = true
  quotas : ∃ quotaBytes quotaObjects,
    toI64 command.spec.quotaBytes "quota_bytes" = .ok quotaBytes ∧
    toI64 command.spec.quotaObjects "quota_objects" = .ok quotaObjects ∧
    (∀ env, bucketSchema.check (PgStore.reconciledBucket env command physicalBucketId
      quotaBytes quotaObjects) = true) ∧
    ∀ env row, bucketSchema.check row = true → bucketSchema.check (PgStore.reconcileBucket env
      command physicalBucketId quotaBytes quotaObjects row) = true

/-- what `reserve_receipt`, `prepare_create_credential` and `complete_create_credential` write -/
structure CreateCredentialCommand.Fits (command : CreateCredentialCommand)
    (credential : NewCredential) : Prop where
  receipt : command.operation.Fits
  reservation : ∀ env o,
    credentialReservationSchema.check (PgStore.reservationRow env command o) = true
  credential : ∀ env,
    credentialSchema.check (PgStore.createdCredential env command credential) = true

/-! ## receipts -/

theorem takenOver_check (env : CallEnv) {row : ReceiptRow} (hstate : row.state = .inProgress)
    (h : receiptSchema.check row = true) : receiptSchema.check (row.takenOver env) = true := by
  simp only [receiptSchema, Bool.and_eq_true, hstate] at h
  obtain ⟨⟨⟨⟨⟨haction, hgen⟩, hstatus⟩, hnonce⟩, -⟩, ⟨⟨⟨hs, hn⟩, hc⟩, hd⟩, -⟩ := h
  have hattempt : 0 < row.leaseAttempt + 1 := Nat.succ_pos _
  simp only [receiptSchema, ReceiptRow.takenOver, haction, hgen, hstatus, hnonce, hstate, hs, hn,
    hc, hd, hattempt, Option.isSome_some, decide_true, Bool.and_self]

theorem reserved_check {operation : OperationRequest} (hv : operation.validate = .ok ())
    (env : CallEnv) :
    receiptSchema.check (.reserved env operation) = textStorable operation.action := by
  obtain ⟨hlo, hhi, hpos⟩ := OperationRequest.validate_eq_ok hv
  have hgen : operation.generation.all (fun g => decide (0 < g)) = true := by
    rw [Option.all_eq_true]
    exact fun g hg => decide_eq_true (hpos g hg)
  show (textBetween 1 128 operation.action && operation.generation.all (fun g => decide (0 < g)) &&
    true && true && true && (true && true && true && true && true)) = _
  simp only [textBetween, hlo, hhi, hgen, decide_true, Bool.and_true]

/-- the receipt of an accepted request needs nothing but an action that can be stored -/
theorem OperationRequest.fits_iff {operation : OperationRequest}
    (hv : operation.validate = .ok ()) :
    operation.Fits ↔ textStorable operation.action = true := by
  constructor
  · intro h
    have hnew := h.reserved ⟨0, 0, 0, 0, 0, none⟩
    rwa [reserved_check hv] at hnew
  · intro h
    exact ⟨fun env => (reserved_check hv env).trans h,
      fun env row _ hstate hrow => takenOver_check env hstate hrow,
      fun env row response sealed _ hstatus hrow => finished_check env sealed hrow hstatus⟩

/-! ## commands -/

theorem CreateCredentialCommand.validate_eq_ok {command : CreateCredentialCommand}
    (h : command.validate = .ok ()) :
    command.operation.validate = .ok () ∧ textBetween 1 128 command.name = true := by
  obtain ⟨⟨⟩, hop, h⟩ := except_bind_eq_ok.mp h
  obtain ⟨_, -, h⟩ := except_bind_eq_ok.mp h
  obtain ⟨_, hname, -⟩ := except_bind_eq_ok.mp (mapError_eq_ok.mp h)
  obtain ⟨_, hid, -⟩ := except_bind_eq_ok.mp hname
  obtain ⟨hempty, hlen⟩ := validateIdentifier_eq_ok hid
  have hstore : textStorable command.name = true := validateIdentifier_storable hid
  have hhi : command.name.length ≤ 128 := (length_le_len _).trans hlen
  refine ⟨hop, ?_⟩
  simp only [textBetween, hstore, nonempty_length hempty, hhi, decide_true, Bool.and_self]

theorem ReconcileCommand.fits_iff {command : ReconcileCommand} (hv : command.validate = .ok ())
    {physicalBucketId : String} (hpid : textBetween 1 256 physicalBucketId = true) :
    command.Fits physicalBucketId ↔
      textStorable command.operation.action = true ∧ textStorable command.name = true := by
  obtain ⟨⟨⟩, hop, -⟩ := except_bind_eq_ok.mp (id hv)
  obtain ⟨-, -, -, hspec⟩ := ReconcileCommand.validate_eq_ok hv
  obtain ⟨-, hbytes, hobjects⟩ := SyouyuSpec.validate_eq_ok hspec
  have hname : textBetween 3 63 command.spec.bucketName = true := by
    obtain ⟨_, -, hrest⟩ := except_bind_eq_ok.mp hspec
    obtain ⟨⟨⟩, hbucket, -⟩ := except_bind_eq_ok.mp hrest
    exact validateBucketName_stores hbucket
  constructor
  · intro h
    have hservice := h.newService ⟨0, 0, 0, 0, 0, none⟩ 0
    rw [reconciledService_check hv hname] at hservice
    exact ⟨(OperationRequest.fits_iff hop).mp h.receipt, hservice⟩
  · rintro ⟨haction, hstore⟩
    have hnew : ∀ env, bucketSchema.check (PgStore.reconciledBucket env command physicalBucketId
        command.spec.quotaBytes.toInt64 command.spec.quotaObjects.toInt64) = true :=
      fun env => reconciledBucket_check hv hname hpid
    exact
      { receipt := (OperationRequest.fits_iff hop).mpr haction
        bucketName := fun now => hname
        newService := fun env o => (reconciledService_check hv hname).trans hstore
        -- every checked column is overwritten
        oldService := fun env o row _ =>
          show serviceSchema.check (PgStore.reconciledService env command o) = true from
            (reconciledService_check hv hname).trans hstore
        quotas := ⟨_, _, toI64_eq_ok.mpr ⟨hbytes.2, rfl⟩, toI64_eq_ok.mpr ⟨hobjects.2, rfl⟩, hnew,
          fun env row hrow => reconcileBucket_check (hnew env) hrow⟩ }

theorem CreateCredentialCommand.fits_iff {command : CreateCredentialCommand}
    (hv : command.validate = .ok ()) {credential : NewCredential}
    (hname : credential.name = command.name)
    (hgarage : textBetween 1 256 credential.garageKeyId = true)
    (haccess : textBetween 1 256 credential.accessKeyId = true) :
    command.Fits credential ↔ textStorable command.operation.action = true := by
  obtain ⟨hop, htext⟩ := CreateCredentialCommand.validate_eq_ok hv
  rw [← OperationRequest.fits_iff hop]
  constructor
  · exact CreateCredentialCommand.Fits.receipt
  · intro hreceipt
    refine ⟨hreceipt, fun env o => ?_, fun env => ?_⟩
    · show (textBetween 1 128 command.name && true && command.permissions.toValue.storable) = true
      rw [htext, BucketPermissions.storable_toValue]
      rfl
    · exact createdCredential_check (hname ▸ htext) hgarage haccess

/-! ## the two layers compared -/

/-- **Validation and schema.**  Of the rows written for an accepted command all pass their checks,
whatever its texts, quotas and generation, if neither its action nor the name of its service
contains U+0000; and only then. -/
theorem validated_commands_fit (reconcile : ReconcileCommand) (physicalBucketId : String)
    (create : CreateCredentialCommand) (credential : NewCredential) :
    (reconcile.validate = .ok () → textBetween 1 256 physicalBucketId = true →
      (reconcile.Fits physicalBucketId ↔
        textStorable reconcile.operation.action = true ∧ textStorable reconcile.name = true)) ∧
    (create.validate = .ok () → credential.name = create.name →
      credential.permissions = create.permissions →
      textBetween 1 256 credential.garageKeyId = true →
      textBetween 1 256 credential.accessKeyId = true →
      (create.Fits credential ↔ textStorable create.operation.action = true)) :=
  ⟨fun hv hpid => ReconcileCommand.fits_iff hv hpid,
    fun hv hname _ hgarage haccess =>
      CreateCredentialCommand.fits_iff hv hname hgarage haccess⟩

/-- the commands of the samples fit -/
theorem validated_commands_fit_sample :
    (Sample.reconcile 100 10 "a" "bucket-a" 1).Fits "garage-a" ∧
      (Sample.create 101 10 "key").Fits ⟨2002, "GK1", "GK1", 0, "key", ⟨true, false⟩⟩ := by
  obtain ⟨hreconcile, hcreate⟩ := validated_commands_fit (Sample.reconcile 100 10 "a" "bucket-a" 1)
    "garage-a" (Sample.create 101 10 "key") ⟨2002, "GK1", "GK1", 0, "key", ⟨true, false⟩⟩
  exact ⟨(hreconcile (by decide +kernel) (by decide)).mpr (by decide +kernel),
    (hcreate (by decide +kernel) rfl rfl (by decide) (by decide)).mpr (by decide +kernel)⟩

/-- **A command that is accepted and cannot be written.**  The name of the service is the single
character U+0000.  The reconcile is validated and prepared; the service row is refused, after
Garage has done its part, and the operation keeps its receipt. -/
theorem nul_name_stranded :
    let command := Sample.reconcile 100 10 "\x00" "bucket-a" 1
    let db := ((StoreCall.prepare (.reconcile command)).run PgStore.reference (Sample.env 1 0)
      Database.empty).2
    command.validate = .ok () ∧ ¬ command.Fits "garage-a" ∧
      StoreStep PgStore.reference Database.empty ⟨Sample.env 1 0, .prepare (.reconcile command),
        .ok (.execute 1000 ⟨command.desiredBucket none, false⟩)⟩ db ∧
      (Sample.finish (.reconcile command "garage-a") 1000).run PgStore.reference (Sample.env 2 1)
        db = (.error (.database .checkViolation), db) ∧
      db.HeldBy command.operation 1000 := by
  intro command db
  have hv : command.validate = .ok () := by decide +kernel
  have hprep : StoreStep PgStore.reference Database.empty ⟨Sample.env 1 0,
      .prepare (.reconcile command), .ok (.execute 1000 ⟨command.desiredBucket none, false⟩)⟩ db :=
    step_of_answer (by decide +kernel)
  have hexec : (PrepareCall.reconcile command).exec PgStore.reference _ Database.empty = _ :=
    step_ok hprep
  refine ⟨hv, fun h => ?_, hprep, run_refused (by decide +kernel), executed_receipt hexec⟩
  exact absurd ((ReconcileCommand.fits_iff hv (by decide)).mp h).2 (by decide)

end Syouyu
