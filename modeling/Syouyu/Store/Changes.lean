import Syouyu.Store.Run

/-!
# What a step does to each group of tables

For every step of the store, whatever the call and the answer, the change it makes

* to credentials and their reservations (`CredentialChange`, `credential_change`);
* to services and buckets (`ServiceChange`, `service_change`);
* to bucket name reservations (`NameChange`, `name_change`);
* to receipts and the reservations their operation ids point to (`OperationChange`,
  `operation_change`).

An invariant of one group of tables is a case analysis over its change.
-/

set_option linter.unusedSectionVars false

namespace Syouyu
open Lib

section
variable (store : PgStore) (env : CallEnv) (db db' : Database)

/-- how the credentials and credential reservations of the database may change in one call -/
inductive CredentialChange : StoreCall → Prop
  | same {call : StoreCall} :
      db'.credentials = db.credentials →
      db'.credentialReservations = db.credentialReservations → CredentialChange call
  /-- a takeover moves the reservations of the old operation id to the new one -/
  | moved {call : PrepareCall} {row : ReceiptRow} :
      db.receipts.lookup call.operation.idempotencyKey = some row → row.request = call.operation →
      row.state = .inProgress → db'.credentials = db.credentials →
      db.credentialReservations.updateWhere (fun r => decide (r.operationId = row.operationId))
        (fun r => { r with operationId := env.operationId }) = .ok db'.credentialReservations →
      CredentialChange (.prepare call)
  | reserved {command : CreateCredentialCommand} :
      db.receipts.lookup command.operation.idempotencyKey = none → db.Admitted store command →
      db.scopeExists command.operation.serviceInstanceId command.operation.organizationId
        command.operation.projectId = true →
      db'.credentials = db.credentials →
      db.credentialReservations.insert (PgStore.reservationRow env command env.operationId) =
        .ok db'.credentialReservations →
      CredentialChange (.prepare (.createCredential command))
  | created {call : FinishCall} {command : CreateCredentialCommand} {credential : NewCredential}
      {reservation : CredentialReservationRow} :
      call.completion = .createCredential command credential →
      db.credentialReservations.lookup credential.id = some reservation →
      reservation.operationId = call.operationId →
      reservation.serviceInstanceId = command.operation.serviceInstanceId →
      reservation.name = command.name →
      db.scopeExists command.operation.serviceInstanceId command.operation.organizationId
        command.operation.projectId = true →
      db.credentials.insert (PgStore.createdCredential env command credential) =
        .ok db'.credentials →
      db'.credentialReservations = db.credentialReservations.deleteWhere (fun r =>
        credentialReservationSchema.hasKey credential.id r &&
        decide (r.operationId = call.operationId)) →
      CredentialChange (.finish call)
  | revokedAll {call : FinishCall} {command : DeleteCommand} :
      call.completion = .delete command →
      db.credentials.updateWhere
        (fun r => decide (r.serviceInstanceId = command.operation.serviceInstanceId) &&
          decide (r.status = .active))
        (PgStore.revokedCredential env command.operation.principalId) = .ok db'.credentials →
      db'.credentialReservations = db.credentialReservations →
      CredentialChange (.finish call)
  | revoked {call : FinishCall} {command : RevokeCredentialCommand} {old : CredentialRow} :
      call.completion = .revokeCredential command →
      db.credentials.lookup command.credentialId = some old →
      old.serviceInstanceId = command.operation.serviceInstanceId →
      db.credentials.updateWhere (credentialSchema.hasKey command.credentialId)
        (PgStore.revokedCredential env command.operation.principalId) = .ok db'.credentials →
      db'.credentialReservations = db.credentialReservations →
      CredentialChange (.finish call)
  | released {call : FinishCall} {operation : OperationRequest} :
      call.completion = .fail operation → db'.credentials = db.credentials →
      db'.credentialReservations = db.credentialReservations.deleteWhere
        (fun r => decide (r.operationId = call.operationId)) →
      CredentialChange (.finish call)

end

section
variable {store : PgStore} {env : CallEnv} {db db' : Database}

theorem granted_credentials {call : PrepareCall} (hg : db.Granted env call.operation db') :
    CredentialChange store env db db' (.prepare call) := by
  cases hg with
  | new hl hi => exact .same rfl rfl
  | takeover hl hq hs he ht =>
    obtain ⟨t, u, -, hu, rfl⟩ := ht
    exact .moved hl hq hs rfl hu

/-- a change is one of the two tables it is about -/
theorem CredentialChange.congr {db'' : Database} {call : StoreCall}
    (h : CredentialChange store env db db' call) (hc : db''.credentials = db'.credentials)
    (hr : db''.credentialReservations = db'.credentialReservations) :
    CredentialChange store env db db'' call := by
  cases h with
  | same h1 h2 => exact .same (hc.trans h1) (hr.trans h2)
  | moved hl hq hs h1 h2 => exact .moved hl hq hs (hc.trans h1) (hr ▸ h2)
  | reserved hl ha hs h1 h2 => exact .reserved hl ha hs (hc.trans h1) (hr ▸ h2)
  | created he hl ho hs hn hf h1 h2 => exact .created he hl ho hs hn hf (hc ▸ h1) (hr.trans h2)
  | revokedAll he h1 h2 => exact .revokedAll he (hc ▸ h1) (hr.trans h2)
  | revoked he hl hs h1 h2 => exact .revoked he hl hs (hc ▸ h1) (hr.trans h2)
  | released he h1 h2 => exact .released he (hc.trans h1) (hr.trans h2)

theorem finish_credentials {call : FinishCall} {u : Unit}
    (h : call.exec store env db = .ok (u, db')) :
    CredentialChange store env db db' (.finish call) := by
  obtain ⟨-, -, db₁, _, t, a, hb, -, -, -, -, rfl⟩ := finish_eq_ok.mp h
  obtain ⟨completion, o, response, audit⟩ := call
  cases completion with
  | reconcile command physicalBucketId =>
    obtain ⟨_, _, h1, h2, rfl⟩ := applyReconcile_eq_ok.mp hb
    obtain ⟨-, _, rfl, -⟩ := upsertService_eq_ok.mp h1
    obtain ⟨-, _, rfl, -⟩ := upsertBucket_eq_ok.mp h2
    exact .same rfl rfl
  | delete command =>
    obtain ⟨c, _, _, hc, -, -, -, rfl⟩ := applyDelete_eq_ok.mp hb
    exact .revokedAll rfl hc rfl
  | createCredential command credential =>
    obtain ⟨-, reservation, c, hl, ⟨ho, hs, hn⟩, hf, hi, rfl⟩ := applyCreateCredential_eq_ok.mp hb
    exact .created rfl hl ho hs hn hf hi rfl
  | revokeCredential command =>
    obtain ⟨c, old, hl, hs, hc, rfl⟩ := applyRevokeCredential_eq_ok.mp hb
    exact .revoked rfl hl hs hc rfl
  | fail operation =>
    obtain ⟨-, rfl⟩ := Tx.pure_eq_ok.mp hb
    exact .released rfl rfl rfl

theorem prepare_credentials {call : PrepareCall} {o : Uuid} {context : call.Context}
    (h : call.exec store env db = .ok (.execute o context, db')) :
    CredentialChange store env db db' (.prepare call) := by
  obtain ⟨-, claimed, db₁, hc, hb⟩ := prepare_body h
  cases call with
  | reconcile command =>
    obtain ⟨-, -, -, -, db₂, v, hg, -, rfl⟩ := reconcile_prepared hc hb
    have hsame : CredentialChange store env db db₂ (.prepare (.reconcile command)) :=
      granted_credentials hg
    exact hsame.congr rfl rfl
  | delete command =>
    obtain ⟨-, -, -, -, hg⟩ := delete_prepared hc hb
    exact granted_credentials hg
  | createCredential command =>
    obtain ⟨-, -, -, ⟨row, hl, hq, hs, he, ht, -⟩ | ⟨hl, hadm, -, t, u, -, hu, hf, rfl⟩⟩ :=
      create_prepared hc hb
    · exact granted_credentials (.takeover hl hq hs he ht)
    · exact .reserved hl hadm hf rfl hu
  | revokeCredential command =>
    obtain ⟨-, -, -, -, hg⟩ := revoke_prepared hc hb
    exact granted_credentials hg

/-- a prepare call writes no credential -/
theorem prepare_keeps_credentials {call : PrepareCall} {o : Uuid} {context : call.Context}
    (h : call.exec store env db = .ok (.execute o context, db')) :
    db'.credentials = db.credentials := by
  cases prepare_credentials h with
  | same hc _ => exact hc
  | moved _ _ _ hc _ => exact hc
  | reserved _ _ _ hc _ => exact hc

/-- **what any step does to credentials and their reservations** -/
theorem credential_change {r : CallRecord} (h : StoreStep store db r db') :
    CredentialChange store r.env db db' r.call := by
  cases step_cases h with
  | quiet _ => exact .same rfl rfl
  | executed h => exact prepare_credentials h
  | finished h => exact finish_credentials h
  | renewed h =>
    obtain ⟨-, -, t, -, rfl⟩ := renewOperation_eq_ok.mp h
    exact .same rfl rfl
  | measured h =>
    obtain ⟨_, _, _, _, _, -, -, -, -, -, rfl⟩ := recordUsage_ok h
    exact .same rfl rfl
  | audited h =>
    obtain ⟨-, _, -, rfl⟩ := insertAudit_eq_ok.mp h
    exact .same rfl rfl

end

/-! ## services and buckets -/

section
variable (env : CallEnv) (db db' : Database)

/-- the service row a reconcile leaves: a new one, or a live one of the same scope brought to the
generation of the command -/
def Database.ServiceReconciled (command : ReconcileCommand) (operationId : Uuid) : Prop :=
  (db.services.lookup command.operation.serviceInstanceId = none ∧
    db.services.insert (PgStore.reconciledService env command operationId) = .ok db'.services) ∨
  ∃ old, db.services.lookup command.operation.serviceInstanceId = some old ∧
    (old.organizationId = command.operation.organizationId ∧
      old.projectId = command.operation.projectId ∧
      old.desiredGeneration ≤ command.generation ∧ old.phase ≠ .deleted) ∧
    db.services.updateWhere (serviceSchema.hasKey command.operation.serviceInstanceId)
      (PgStore.reconcileService env command operationId) = .ok db'.services

/-- the bucket row a reconcile leaves -/
def Database.BucketReconciled (command : ReconcileCommand) (physicalBucketId : String) : Prop :=
  (db.buckets.lookup command.operation.serviceInstanceId = none ∧
    db.buckets.insert (PgStore.reconciledBucket env command physicalBucketId
      command.spec.quotaBytes.toInt64 command.spec.quotaObjects.toInt64) = .ok db'.buckets) ∨
  (∃ old, db.buckets.lookup command.operation.serviceInstanceId = some old) ∧
    db.buckets.updateWhere (bucketSchema.hasKey command.operation.serviceInstanceId)
      (PgStore.reconcileBucket env command physicalBucketId command.spec.quotaBytes.toInt64
        command.spec.quotaObjects.toInt64) = .ok db'.buckets

/-- how services and buckets may change in one call -/
inductive ServiceChange : StoreCall → Prop
  | same {call : StoreCall} :
      db'.services = db.services → db'.buckets = db.buckets → ServiceChange call
  | reconciled {call : FinishCall} {command : ReconcileCommand} {physicalBucketId : String} :
      call.completion = .reconcile command physicalBucketId →
      db.ServiceReconciled env db' command call.operationId →
      db.BucketReconciled env db' command physicalBucketId → ServiceChange (.finish call)
  | deleted {call : FinishCall} {command : DeleteCommand} {old : ServiceRow} :
      call.completion = .delete command →
      db.services.lookup command.operation.serviceInstanceId = some old →
      old.organizationId = command.operation.organizationId →
      old.projectId = command.operation.projectId → old.phase ≠ .deleted →
      db.services.updateWhere (serviceSchema.hasKey command.operation.serviceInstanceId)
        (PgStore.deletedService env command call.operationId) = .ok db'.services →
      db'.buckets = db.buckets → ServiceChange (.finish call)
  | measured {o p s : Uuid} {bytesUsed objectsUsed : UInt64} {measuredAt : Timestamp}
      {bytes objects : Int64} :
      db'.services = db.services →
      db.buckets.updateWhere (bucketSchema.hasKey s)
        (PgStore.measuredBucket env bytes objects measuredAt) = .ok db'.buckets →
      ServiceChange (.recordUsage o p s bytesUsed objectsUsed measuredAt)

/-- how the bucket name reservations may change in one call -/
inductive NameChange : StoreCall → Prop
  | same {call : StoreCall} : db'.nameReservations = db.nameReservations → NameChange call
  | reserved {command : ReconcileCommand} :
      db.NameReserved env command.spec.bucketName command.operation.serviceInstanceId
        db'.nameReservations →
      NameChange (.prepare (.reconcile command))
  | reconciled {call : FinishCall} {command : ReconcileCommand} {physicalBucketId : String} :
      call.completion = .reconcile command physicalBucketId →
      db'.nameReservations = db.nameReservations.deleteWhere (fun r =>
        decide (r.serviceInstanceId = command.operation.serviceInstanceId) &&
        decide (r.bucketName ≠ command.spec.bucketName)) →
      NameChange (.finish call)
  | deleted {call : FinishCall} {command : DeleteCommand} :
      call.completion = .delete command →
      db'.nameReservations = db.nameReservations.deleteWhere (fun r =>
        decide (r.serviceInstanceId = command.operation.serviceInstanceId)) →
      NameChange (.finish call)
  | released {call : FinishCall} {operation : OperationRequest} :
      call.completion = .fail operation →
      db'.nameReservations = db.nameReservations.deleteWhere (fun r =>
        decide (r.serviceInstanceId = operation.serviceInstanceId) &&
        !db.buckets.exists? fun b => decide (b.serviceInstanceId = r.serviceInstanceId) &&
          decide (b.bucketName = r.bucketName)) →
      NameChange (.finish call)

end

section
variable {store : PgStore} {env : CallEnv} {db db' : Database}

/-- a completed reconcile writes the row of the service and that of its bucket -/
theorem reconcile_applied {call : FinishCall} {u : Unit}
    (h : call.exec store env db = .ok (u, db')) {command : ReconcileCommand} {pid : String}
    (hcomp : call.completion = .reconcile command pid) :
    db.ServiceReconciled env db' command call.operationId ∧
      db.BucketReconciled env db' command pid := by
  obtain ⟨-, -, db₁, _, t, a, hb, -, -, -, -, rfl⟩ := finish_eq_ok.mp h
  rw [hcomp] at hb ⊢
  obtain ⟨_, _, h1, h2, rfl⟩ := applyReconcile_eq_ok.mp hb
  obtain ⟨-, s, rfl, hs⟩ := upsertService_eq_ok.mp h1
  obtain ⟨-, b, rfl, hbucket⟩ := upsertBucket_eq_ok.mp h2
  refine ⟨hs, ?_⟩
  rcases hbucket with ⟨hl, -, hi⟩ | hu
  · exact .inl ⟨hl, hi⟩
  · exact .inr hu

/-- a completed deletion marks a live service -/
theorem delete_applied {call : FinishCall} {u : Unit}
    (h : call.exec store env db = .ok (u, db')) {command : DeleteCommand}
    (hcomp : call.completion = .delete command) :
    ∃ old, db.services.lookup command.operation.serviceInstanceId = some old ∧
      (old.organizationId = command.operation.organizationId ∧
        old.projectId = command.operation.projectId ∧ old.phase ≠ .deleted) ∧
      db.services.updateWhere (serviceSchema.hasKey command.operation.serviceInstanceId)
        (PgStore.deletedService env command call.operationId) = .ok db'.services ∧
      db'.buckets = db.buckets := by
  obtain ⟨-, -, db₁, _, t, a, hb, -, -, -, -, rfl⟩ := finish_eq_ok.mp h
  rw [hcomp] at hb ⊢
  obtain ⟨_, s, old, -, hl, hold, hs, rfl⟩ := applyDelete_eq_ok.mp hb
  exact ⟨old, hl, hold, hs, rfl⟩

/-- the other finishing calls write neither services nor buckets -/
theorem finish_keeps_services {call : FinishCall} {u : Unit}
    (h : call.exec store env db = .ok (u, db'))
    (hr : ∀ command pid, call.completion ≠ .reconcile command pid)
    (hd : ∀ command, call.completion ≠ .delete command) :
    db'.services = db.services ∧ db'.buckets = db.buckets := by
  obtain ⟨-, -, db₁, _, t, a, hb, -, -, -, -, rfl⟩ := finish_eq_ok.mp h
  obtain ⟨completion, o, response, audit⟩ := call
  cases completion with
  | reconcile command pid => exact absurd rfl (hr command pid)
  | delete command => exact absurd rfl (hd command)
  | createCredential command credential =>
    obtain ⟨-, _, _, -, -, -, -, rfl⟩ := applyCreateCredential_eq_ok.mp hb
    exact ⟨rfl, rfl⟩
  | revokeCredential command =>
    obtain ⟨_, _, -, -, -, rfl⟩ := applyRevokeCredential_eq_ok.mp hb
    exact ⟨rfl, rfl⟩
  | fail operation =>
    obtain ⟨-, rfl⟩ := Tx.pure_eq_ok.mp hb
    exact ⟨rfl, rfl⟩

theorem finish_services {call : FinishCall} {u : Unit}
    (h : call.exec store env db = .ok (u, db')) : ServiceChange env db db' (.finish call) := by
  cases hcomp : call.completion with
  | reconcile command pid =>
    obtain ⟨hs, hb⟩ := reconcile_applied h hcomp
    exact .reconciled hcomp hs hb
  | delete command =>
    obtain ⟨old, hl, ⟨ho, hp, hd⟩, hs, hb⟩ := delete_applied h hcomp
    exact .deleted hcomp hl ho hp hd hs hb
  | _ =>
    obtain ⟨hs, hb⟩ := finish_keeps_services h (by simp [hcomp]) (by simp [hcomp])
    exact .same hs hb

theorem finish_names {call : FinishCall} {u : Unit}
    (h : call.exec store env db = .ok (u, db')) : NameChange env db db' (.finish call) := by
  obtain ⟨-, -, db₁, _, t, a, hb, -, -, -, -, rfl⟩ := finish_eq_ok.mp h
  obtain ⟨completion, o, response, audit⟩ := call
  cases completion with
  | reconcile command physicalBucketId =>
    obtain ⟨_, _, -, -, rfl⟩ := applyReconcile_eq_ok.mp hb
    exact .reconciled rfl rfl
  | delete command =>
    obtain ⟨_, _, _, -, -, -, -, rfl⟩ := applyDelete_eq_ok.mp hb
    exact .deleted rfl rfl
  | createCredential command credential =>
    obtain ⟨-, _, _, -, -, -, -, rfl⟩ := applyCreateCredential_eq_ok.mp hb
    exact .same rfl
  | revokeCredential command =>
    obtain ⟨_, _, -, -, -, rfl⟩ := applyRevokeCredential_eq_ok.mp hb
    exact .same rfl
  | fail operation =>
    obtain ⟨-, rfl⟩ := Tx.pure_eq_ok.mp hb
    exact .released rfl rfl

/-- a prepare call writes neither services nor buckets, and names only for a reconcile -/
theorem prepare_names {call : PrepareCall} {o : Uuid} {context : call.Context}
    (h : call.exec store env db = .ok (.execute o context, db')) :
    db'.services = db.services ∧ db'.buckets = db.buckets ∧
      NameChange env db db' (.prepare call) := by
  obtain ⟨-, claimed, db₁, hc, hb⟩ := prepare_body h
  cases call with
  | reconcile command =>
    obtain ⟨-, -, -, -, db₂, v, hg, hv, rfl⟩ := reconcile_prepared hc hb
    rw [hg.frame]
    exact ⟨rfl, rfl, .reserved hv⟩
  | delete command =>
    obtain ⟨-, -, -, -, hg⟩ := delete_prepared hc hb
    rw [hg.frame]
    exact ⟨rfl, rfl, .same rfl⟩
  | createCredential command =>
    obtain ⟨-, -, -, ⟨row, -, -, -, -, ⟨t, u, -, -, rfl⟩, -⟩ | ⟨-, -, -, t, u, -, -, -, rfl⟩⟩ :=
      create_prepared hc hb
    · exact ⟨rfl, rfl, .same rfl⟩
    · exact ⟨rfl, rfl, .same rfl⟩
  | revokeCredential command =>
    obtain ⟨-, -, -, -, hg⟩ := revoke_prepared hc hb
    rw [hg.frame]
    exact ⟨rfl, rfl, .same rfl⟩

/-- a prepare call writes no usage -/
theorem prepare_keeps_usage {call : PrepareCall} {o : Uuid} {context : call.Context}
    (h : call.exec store env db = .ok (.execute o context, db')) :
    db'.usageSnapshots = db.usageSnapshots := by
  obtain ⟨-, claimed, db₁, hc, hb⟩ := prepare_body h
  cases call with
  | reconcile command =>
    obtain ⟨-, -, -, -, db₂, v, hg, -, rfl⟩ := reconcile_prepared hc hb
    rw [hg.frame]
  | delete command =>
    obtain ⟨-, -, -, -, hg⟩ := delete_prepared hc hb
    rw [hg.frame]
  | createCredential command =>
    obtain ⟨-, -, -, ⟨row, -, -, -, -, ⟨t, u, -, -, rfl⟩, -⟩ | ⟨-, -, -, t, u, -, -, -, rfl⟩⟩ :=
      create_prepared hc hb
    · rfl
    · rfl
  | revokeCredential command =>
    obtain ⟨-, -, -, -, hg⟩ := revoke_prepared hc hb
    rw [hg.frame]

/-- a finishing call writes no usage -/
theorem finish_keeps_usage {call : FinishCall} {u : Unit}
    (h : call.exec store env db = .ok (u, db')) : db'.usageSnapshots = db.usageSnapshots := by
  obtain ⟨-, -, db₁, _, t, a, hb, -, -, -, -, rfl⟩ := finish_eq_ok.mp h
  obtain ⟨completion, o, response, audit⟩ := call
  cases completion with
  | reconcile command physicalBucketId =>
    obtain ⟨_, _, h1, h2, rfl⟩ := applyReconcile_eq_ok.mp hb
    obtain ⟨-, _, rfl, -⟩ := upsertService_eq_ok.mp h1
    obtain ⟨-, _, rfl, -⟩ := upsertBucket_eq_ok.mp h2
    rfl
  | delete command =>
    obtain ⟨_, _, _, -, -, -, -, rfl⟩ := applyDelete_eq_ok.mp hb
    rfl
  | createCredential command credential =>
    obtain ⟨-, _, _, -, -, -, -, rfl⟩ := applyCreateCredential_eq_ok.mp hb
    rfl
  | revokeCredential command =>
    obtain ⟨_, _, -, -, -, rfl⟩ := applyRevokeCredential_eq_ok.mp hb
    rfl
  | fail operation =>
    obtain ⟨-, rfl⟩ := Tx.pure_eq_ok.mp hb
    rfl

/-- **what any step does to services and buckets** -/
theorem service_change {r : CallRecord} (h : StoreStep store db r db') :
    ServiceChange r.env db db' r.call := by
  cases step_cases h with
  | quiet _ => exact .same rfl rfl
  | executed h => exact .same (prepare_names h).1 (prepare_names h).2.1
  | finished h => exact finish_services h
  | renewed h =>
    obtain ⟨-, -, t, -, rfl⟩ := renewOperation_eq_ok.mp h
    exact .same rfl rfl
  | measured h =>
    obtain ⟨_, _, _, _, _, -, -, -, hb, -, rfl⟩ := recordUsage_ok h
    exact .measured rfl hb
  | audited h =>
    obtain ⟨-, _, -, rfl⟩ := insertAudit_eq_ok.mp h
    exact .same rfl rfl

/-- the calls that write no service, bucket or credential -/
def StoreCall.clerical : StoreCall → Bool
  | .prepare _ => true
  | .renewOperation _ _ => true
  | .finish ⟨.fail _, _, _, _⟩ => true
  | _ => false

theorem clerical_keeps {r : CallRecord} (h : StoreStep store db r db')
    (hr : r.call.clerical = true) :
    db'.services = db.services ∧ db'.buckets = db.buckets ∧ db'.credentials = db.credentials := by
  obtain ⟨env, call, answer⟩ := r
  have hfail : ∀ {call : FinishCall} {completion : Completion}, call.completion = completion →
      (StoreCall.finish call).clerical = true → ∃ operation, completion = .fail operation := by
    rintro ⟨completion, o, response, event⟩ _ rfl hcall
    cases completion with
    | fail operation => exact ⟨operation, rfl⟩
    | _ => cases hcall
  have hcredentials : db'.credentials = db.credentials := by
    cases credential_change h with
    | same hc _ => exact hc
    | moved _ _ _ hc _ => exact hc
    | reserved _ _ _ hc _ => exact hc
    | released _ hc _ => exact hc
    | created hcomp => cases (hfail hcomp hr).choose_spec
    | revokedAll hcomp => cases (hfail hcomp hr).choose_spec
    | revoked hcomp => cases (hfail hcomp hr).choose_spec
  cases service_change h with
  | same hs hb => exact ⟨hs, hb, hcredentials⟩
  | reconciled hcomp => cases (hfail hcomp hr).choose_spec
  | deleted hcomp => cases (hfail hcomp hr).choose_spec
  | measured => cases hr

/-- **what any step does to bucket name reservations** -/
theorem name_change {r : CallRecord} (h : StoreStep store db r db') :
    NameChange r.env db db' r.call := by
  cases step_cases h with
  | quiet _ => exact .same rfl
  | executed h => exact (prepare_names h).2.2
  | finished h => exact finish_names h
  | renewed h =>
    obtain ⟨-, -, t, -, rfl⟩ := renewOperation_eq_ok.mp h
    exact .same rfl
  | measured h =>
    obtain ⟨_, _, _, _, _, -, -, -, -, -, rfl⟩ := recordUsage_ok h
    exact .same rfl
  | audited h =>
    obtain ⟨-, _, -, rfl⟩ := insertAudit_eq_ok.mp h
    exact .same rfl

end

/-! ## receipts and what their operation ids point to -/

/-- the credential reservations a finishing call deletes -/
def Completion.spends (operationId : Uuid) : Completion → CredentialReservationRow → Bool
  | .createCredential _ credential, r =>
    credentialReservationSchema.hasKey credential.id r && decide (r.operationId = operationId)
  | .fail _, r => decide (r.operationId = operationId)
  | _, _ => false

section
variable (env : CallEnv) (db db' : Database)

/-- how receipts and credential reservations change together in one call -/
inductive OperationChange : StoreCall → Prop
  | same {call : StoreCall} :
      db'.receipts = db.receipts → db'.credentialReservations = db.credentialReservations →
      OperationChange call
  | granted {call : PrepareCall} :
      db.receipts.lookup call.operation.idempotencyKey = none →
      db.receipts.insert (.reserved env call.operation) = .ok db'.receipts →
      db'.credentialReservations = db.credentialReservations →
      (∀ command, call ≠ .createCredential command) → OperationChange (.prepare call)
  | reserved {command : CreateCredentialCommand} :
      db.receipts.lookup command.operation.idempotencyKey = none →
      db.receipts.insert (.reserved env command.operation) = .ok db'.receipts →
      db.credentialReservations.insert (PgStore.reservationRow env command env.operationId) =
        .ok db'.credentialReservations →
      OperationChange (.prepare (.createCredential command))
  | takenOver {call : PrepareCall} {row : ReceiptRow} :
      db.receipts.lookup call.operation.idempotencyKey = some row → row.request = call.operation →
      row.state = .inProgress → row.expired env = true →
      db.receipts.updateWhere (receiptSchema.hasKey call.operation.idempotencyKey)
        (ReceiptRow.takenOver env) = .ok db'.receipts →
      db.credentialReservations.updateWhere (fun r => decide (r.operationId = row.operationId))
        (fun r => { r with operationId := env.operationId }) = .ok db'.credentialReservations →
      OperationChange (.prepare call)
  | finished {call : FinishCall} {row : ReceiptRow} {sealed : Nonce × List UInt8} :
      db.receipts.lookup call.operation.idempotencyKey = some row → row.request = call.operation →
      row.operationId = call.operationId → row.state = .inProgress →
      db.receipts.updateWhere (receiptSchema.hasKey call.operation.idempotencyKey)
        (ReceiptRow.finished env call.response sealed) = .ok db'.receipts →
      db'.credentialReservations = db.credentialReservations.deleteWhere
        (call.completion.spends call.operationId) →
      OperationChange (.finish call)
  | renewed {operation : OperationRequest} {operationId : Uuid} {row : ReceiptRow} :
      db.receipts.lookup operation.idempotencyKey = some row → row.request = operation →
      row.operationId = operationId → row.state = .inProgress →
      db.receipts.updateWhere (receiptSchema.hasKey operation.idempotencyKey)
        (ReceiptRow.renewed env) = .ok db'.receipts →
      db'.credentialReservations = db.credentialReservations →
      OperationChange (.renewOperation operation operationId)

end

section
variable {store : PgStore} {env : CallEnv} {db db' : Database}

theorem granted_operation {call : PrepareCall} (hg : db.Granted env call.operation db')
    (hne : db.receipts.lookup call.operation.idempotencyKey = none →
      ∀ command, call ≠ .createCredential command) :
    OperationChange env db db' (.prepare call) := by
  cases hg with
  | new hl hi => exact .granted hl hi rfl (hne hl)
  | @takeover row _ hl hq hs he ht =>
    obtain ⟨t, u, ht, hu, rfl⟩ := ht
    have hkey : row.idempotencyKey = call.operation.idempotencyKey := Table.lookup_key hl
    rw [hkey] at ht
    exact .takenOver hl hq hs he ht hu

/-- a change is one of the two tables it is about -/
theorem OperationChange.congr {db'' : Database} {call : StoreCall}
    (h : OperationChange env db db' call) (ht : db''.receipts = db'.receipts)
    (hr : db''.credentialReservations = db'.credentialReservations) :
    OperationChange env db db'' call := by
  cases h with
  | same h1 h2 => exact .same (ht.trans h1) (hr.trans h2)
  | granted hl h1 h2 hne => exact .granted hl (ht ▸ h1) (hr.trans h2) hne
  | reserved hl h1 h2 => exact .reserved hl (ht ▸ h1) (hr ▸ h2)
  | takenOver hl hq hs he h1 h2 => exact .takenOver hl hq hs he (ht ▸ h1) (hr ▸ h2)
  | finished hl hq ho hs h1 h2 => exact .finished hl hq ho hs (ht ▸ h1) (hr.trans h2)
  | renewed hl hq ho hs h1 h2 => exact .renewed hl hq ho hs (ht ▸ h1) (hr.trans h2)

theorem prepare_operation {call : PrepareCall} {o : Uuid} {context : call.Context}
    (h : call.exec store env db = .ok (.execute o context, db')) :
    OperationChange env db db' (.prepare call) := by
  obtain ⟨-, claimed, db₁, hc, hb⟩ := prepare_body h
  cases call with
  | reconcile command =>
    obtain ⟨-, -, -, -, db₂, v, hg, -, rfl⟩ := reconcile_prepared hc hb
    have hop : OperationChange env db db₂ (.prepare (.reconcile command)) :=
      granted_operation hg (fun _ _ => nofun)
    exact hop.congr rfl rfl
  | delete command =>
    obtain ⟨-, -, -, -, hg⟩ := delete_prepared hc hb
    exact granted_operation hg (fun _ _ => nofun)
  | createCredential command =>
    obtain ⟨-, -, -, ⟨row, hl, hq, hs, he, ht, -⟩ | ⟨hl, -, -, t, u, hi, hu, -, rfl⟩⟩ :=
      create_prepared hc hb
    · exact granted_operation (.takeover hl hq hs he ht)
        (fun hnone => absurd_none_some hnone hl)
    · exact .reserved hl hi hu
  | revokeCredential command =>
    obtain ⟨-, -, -, -, hg⟩ := revoke_prepared hc hb
    exact granted_operation hg (fun _ _ => nofun)

/-- which credential reservations a finishing call deletes -/
theorem finish_spends {call : FinishCall} {u : Unit}
    (h : call.exec store env db = .ok (u, db')) :
    db'.credentialReservations =
      db.credentialReservations.deleteWhere (call.completion.spends call.operationId) := by
  obtain ⟨-, -, db₁, _, t, a, hb, -, -, -, -, rfl⟩ := finish_eq_ok.mp h
  obtain ⟨completion, o, response, audit⟩ := call
  cases completion with
  | reconcile command physicalBucketId =>
    obtain ⟨_, _, h1, h2, rfl⟩ := applyReconcile_eq_ok.mp hb
    obtain ⟨-, _, rfl, -⟩ := upsertService_eq_ok.mp h1
    obtain ⟨-, _, rfl, -⟩ := upsertBucket_eq_ok.mp h2
    exact (Table.deleteWhere_none _ fun _ _ => rfl).symm
  | delete command =>
    obtain ⟨_, _, _, -, -, -, -, rfl⟩ := applyDelete_eq_ok.mp hb
    exact (Table.deleteWhere_none _ fun _ _ => rfl).symm
  | createCredential command credential =>
    obtain ⟨-, _, _, -, -, -, -, rfl⟩ := applyCreateCredential_eq_ok.mp hb
    rfl
  | revokeCredential command =>
    obtain ⟨_, _, -, -, -, rfl⟩ := applyRevokeCredential_eq_ok.mp hb
    exact (Table.deleteWhere_none _ fun _ _ => rfl).symm
  | fail operation =>
    obtain ⟨-, rfl⟩ := Tx.pure_eq_ok.mp hb
    rfl

/-- **all finishing calls**: the receipt is sealed and the reservations of a create are deleted -/
theorem finish_operation {call : FinishCall} {u : Unit}
    (h : call.exec store env db = .ok (u, db')) : OperationChange env db db' (.finish call) := by
  have hspends := finish_spends h
  obtain ⟨-, ⟨row, hl, hq, ho, hs⟩, db₁, sealed, t, a, -, -, ht, -, -, rfl⟩ := finish_eq_ok.mp h
  exact .finished hl hq ho hs ht hspends

/-- **what any step does to receipts and credential reservations** -/
theorem operation_change {r : CallRecord} (h : StoreStep store db r db') :
    OperationChange r.env db db' r.call := by
  cases step_cases h with
  | quiet _ => exact .same rfl rfl
  | executed h => exact prepare_operation h
  | finished h => exact finish_operation h
  | renewed h =>
    obtain ⟨-, ⟨row, hl, hq, ho, hs⟩, t, ht, rfl⟩ := renewOperation_eq_ok.mp h
    exact .renewed hl hq ho hs ht rfl
  | measured h =>
    obtain ⟨_, _, _, _, _, -, -, -, -, -, rfl⟩ := recordUsage_ok h
    exact .same rfl rfl
  | audited h =>
    obtain ⟨-, _, -, rfl⟩ := insertAudit_eq_ok.mp h
    exact .same rfl rfl

end

end Syouyu
