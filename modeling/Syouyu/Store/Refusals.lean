import Syouyu.Store.Completable
import Syouyu.Store.Integrity

/-!
# Which completions are refused

An error of the store is a refusal, which blames the request, or an internal error.  A caller that
holds its receipt and completes what it was told to execute is refused for two reasons only: what
Garage gave it is no id, or a row with one of the unique values is there already.

* `Completion.Clashes`      the two reasons, as a condition on the database;
* `finish_refused_iff`      **a completing call is refused iff it clashes**.
-/

set_option linter.unusedSectionVars false

namespace Syouyu
open Lib

/-- the errors that blame the request -/
def StoreError.refusal : StoreError → Bool
  | .database _ => false
  | .configuration _ => false
  | .operationInProgress _ => false
  | .operationLeaseLost _ => false
  | .corruptData _ => false
  | .encryption _ => false
  | _ => true

abbrev Refused {α : Type} (x : StoreTx α) (db : Database) : Prop :=
  x.FailsWith (fun e => e.refusal = true) db

/-- no row has the id, the key ids or the name of the credential -/
def Database.CredentialFree (db : Database) (command : CreateCredentialCommand)
    (credential : NewCredential) : Prop :=
  ∀ d ∈ db.credentials.rows, d.id ≠ credential.id ∧ d.garageKeyId ≠ credential.garageKeyId ∧
    d.accessKeyId ≠ credential.accessKeyId ∧
    (d.serviceInstanceId = command.operation.serviceInstanceId → d.name ≠ credential.name)

/-- Garage gave no usable id, or a row that can be stored has a unique value of another row -/
def Completion.Clashes (db : Database) : Completion → Prop
  | .reconcile command physicalBucketId =>
    (!physicalBucketId.isEmpty && decide (len physicalBucketId ≤ 256)) = false ∨
    textStorable command.name = true ∧ (¬ db.ServiceNameFree command ∨
      textBetween 1 256 physicalBucketId = true ∧
        ¬ (db.BucketNameFree command ∧ db.PhysicalIdFree command physicalBucketId))
  | .createCredential command credential =>
    (!credential.id.isNil && !credential.garageKeyId.isEmpty && !credential.accessKeyId.isEmpty) =
      false ∨
    (textBetween 1 256 credential.garageKeyId = true ∧
      textBetween 1 256 credential.accessKeyId = true) ∧ ¬ db.CredentialFree command credential
  | _ => False

section
variable {store : PgStore} {env : CallEnv} {db db' : Database} {o : Uuid}
  {command : ReconcileCommand} {physicalBucketId : String}

/-! ## the rows of a reconcile -/

/-- a service row that passes its check is written or refused -/
theorem upsertService_refuses
    (hcheck : serviceSchema.check (PgStore.reconciledService env command o) = true) :
    (PgStore.upsertService env command o).FailsOnly (fun e => e.refusal = true) db := by
  refine .bind (upsertRow_failsOnly (fun h => absurd_true_false hcheck h)
    (fun _ _ => insertRow_failsOnly (fun v hv => ?_) fun h => absurd h nofun)
    fun old _ => updateRows_failsOnly fun v hv => ?_) fun _ _ _ => Tx.failsOnly_ensure fun _ => rfl
  · cases v with
    | check => exact absurd_true_false hcheck (Table.check_of_insert hv)
    | unique => rfl
  · cases v with
    | check =>
      -- a row that is written over has the checked fields of a new one
      obtain ⟨row, -, -, hbad⟩ := Table.check_of_updateWhere hv
      exact absurd_true_false hcheck hbad
    | unique => rfl

theorem upsertService_refused_iff (env : CallEnv) (o : Uuid) (hv : command.validate = .ok ())
    (hname : textBetween 3 63 command.spec.bucketName = true)
    (hfacts : (PrepareCall.reconcile command).Facts db) :
    Refused (PgStore.upsertService env command o) db ↔
      textStorable command.name = true ∧ ¬ db.ServiceNameFree command := by
  have hcheck : serviceSchema.check (PgStore.reconciledService env command o) =
    textStorable command.name := reconciledService_check hv hname
  have hok := upsertService_ok_iff env o hv hname hfacts
  constructor
  · intro h
    have hstore : textStorable command.name = true := by
      by_contra hne
      refine Tx.FailsOnly.not_failsWith (.bind (.ensure_bind
        (fun _ => by exact Bool.false_ne_true) fun htrue =>
        absurd (hcheck.symm.trans htrue) hne) fun _ _ hdone => ?_) h
      exact absurd (hcheck.symm.trans (upsertRow_eq_ok.mp hdone).1) hne
    refine ⟨hstore, fun hfree => ?_⟩
    obtain ⟨db₁, h₁⟩ := hok.mpr ⟨hstore, hfree⟩
    obtain ⟨e, he, -⟩ := h
    exact absurd_ok_error h₁ he
  · rintro ⟨hstore, htaken⟩
    exact (upsertService_refuses (hcheck.trans hstore)).failsWith fun _ db₁ h₁ =>
      htaken (hok.mp ⟨db₁, h₁⟩).2

/-- a bucket row that passes its check is written or refused -/
theorem upsertBucket_refuses {quotaBytes quotaObjects : Int64}
    (hcheck : bucketSchema.check (PgStore.reconciledBucket env command physicalBucketId quotaBytes
      quotaObjects) = true)
    (hscope : db.scopeExists command.operation.serviceInstanceId command.operation.organizationId
      command.operation.projectId = true) :
    (PgStore.upsertBucket env command physicalBucketId quotaBytes quotaObjects).FailsOnly
      (fun e => e.refusal = true) db := by
  refine .bind (upsertRow_failsOnly (fun h => absurd_true_false hcheck h)
    (fun _ _ => insertRow_failsOnly (fun v hv => ?_) fun h => absurd_true_false hscope h)
    fun old _ => updateRows_failsOnly fun v hv => ?_) fun _ _ _ => Tx.failsOnly_pure
  · cases v with
    | check => exact absurd_true_false hcheck (Table.check_of_insert hv)
    | unique => rfl
  · cases v with
    | check =>
      obtain ⟨row, hrow, -, hbad⟩ := Table.check_of_updateWhere hv
      have hgood := reconcileBucket_check hcheck (db.buckets.checked row hrow)
      exact absurd_true_false hgood hbad
    | unique => rfl

theorem upsertBucket_refused_iff (env : CallEnv) (hv : command.validate = .ok ())
    (hname : textBetween 3 63 command.spec.bucketName = true)
    (hscope : db.scopeExists command.operation.serviceInstanceId command.operation.organizationId
      command.operation.projectId = true) :
    Refused (PgStore.upsertBucket env command physicalBucketId command.spec.quotaBytes.toInt64
      command.spec.quotaObjects.toInt64) db ↔ textBetween 1 256 physicalBucketId = true ∧
      ¬ (db.BucketNameFree command ∧ db.PhysicalIdFree command physicalBucketId) := by
  constructor
  · intro h
    have hpid : textBetween 1 256 physicalBucketId = true := by
      by_contra hne
      have hcheck : ¬ bucketSchema.check (PgStore.reconciledBucket env command physicalBucketId
          command.spec.quotaBytes.toInt64 command.spec.quotaObjects.toInt64) = true := by
        intro hcheck
        simp only [bucketSchema, PgStore.reconciledBucket, Option.all_some,
          Bool.and_eq_true] at hcheck
        exact hne hcheck.1.1.1.1.1.1
      refine Tx.FailsOnly.not_failsWith (.bind (.ensure_bind
        (fun _ => by exact Bool.false_ne_true) fun htrue =>
        absurd htrue hcheck) fun _ _ hdone => absurd (upsertRow_eq_ok.mp hdone).1 hcheck) h
    refine ⟨hpid, fun hfree => ?_⟩
    obtain ⟨db₁, h₁⟩ := (upsertBucket_ok_iff env hv hname hpid hscope).mpr hfree
    obtain ⟨e, he, -⟩ := h
    exact absurd_ok_error h₁ he
  · rintro ⟨hpid, htaken⟩
    exact (upsertBucket_refuses (reconciledBucket_check hv hname hpid) hscope).failsWith
      fun _ db₁ h₁ => htaken ((upsertBucket_ok_iff env hv hname hpid hscope).mp ⟨db₁, h₁⟩)

theorem applyReconcile_refused_iff (env : CallEnv) (o : Uuid) (hv : command.validate = .ok ())
    (hname : textBetween 3 63 command.spec.bucketName = true)
    (hfacts : (PrepareCall.reconcile command).Facts db) :
    Refused (PgStore.applyReconcile env command o physicalBucketId
      command.spec.quotaBytes.toInt64 command.spec.quotaObjects.toInt64) db ↔
      textStorable command.name = true ∧ (¬ db.ServiceNameFree command ∨
        textBetween 1 256 physicalBucketId = true ∧
          ¬ (db.BucketNameFree command ∧ db.PhysicalIdFree command physicalBucketId)) := by
  have hservice := upsertService_refused_iff env o hv hname hfacts
  have hok := upsertService_ok_iff env o hv hname hfacts
  -- the buckets are those before the service row was written
  have hbucket : ∀ {db₁ : Database}, PgStore.upsertService env command o db = .ok ((), db₁) →
      (Refused (PgStore.upsertBucket env command physicalBucketId command.spec.quotaBytes.toInt64
        command.spec.quotaObjects.toInt64) db₁ ↔ textBetween 1 256 physicalBucketId = true ∧
        ¬ (db.BucketNameFree command ∧ db.PhysicalIdFree command physicalBucketId)) := by
    intro db₁ h₁
    obtain ⟨hscope, hsame⟩ := upsertService_scope h₁
    rw [upsertBucket_refused_iff env hv hname hscope]
    simp only [Database.BucketNameFree, Database.PhysicalIdFree, hsame]
  unfold PgStore.applyReconcile
  rw [Refused, Tx.failsWith_bind]
  constructor
  · rintro (h | ⟨_, db₁, h₁, h⟩)
    · obtain ⟨hstore, htaken⟩ := hservice.mp h
      exact ⟨hstore, .inl htaken⟩
    · refine ⟨(hok.mp ⟨db₁, h₁⟩).1, .inr ?_⟩
      rcases Tx.failsWith_bind.mp h with h | ⟨_, _, -, h⟩
      · exact (hbucket h₁).mp h
      · exact absurd h (deleteRows_fails (Q := fun e => ¬ e.refusal = true)).not_failsWith
  · rintro ⟨hstore, htaken⟩
    by_cases hfree : db.ServiceNameFree command
    · obtain ⟨db₁, h₁⟩ := hok.mpr ⟨hstore, hfree⟩
      exact .inr ⟨(), db₁, h₁, Tx.failsWith_bind.mpr
        (.inl ((hbucket h₁).mpr (htaken.resolve_left (not_not.mpr hfree))))⟩
    · exact .inl (hservice.mpr ⟨hstore, hfree⟩)

/-! ## the row of a credential -/

theorem insertCredential_refused_iff (env : CallEnv) {command : CreateCredentialCommand}
    {credential : NewCredential} (hname : textBetween 1 128 credential.name = true)
    (hscope : db.scopeExists command.operation.serviceInstanceId command.operation.organizationId
      command.operation.projectId = true) :
    Refused (insertRow credentialsPart mapDatabaseError
      (PgStore.createdCredential env command credential)) db ↔
      (textBetween 1 256 credential.garageKeyId = true ∧
        textBetween 1 256 credential.accessKeyId = true) ∧
      ¬ db.CredentialFree command credential := by
  have hcheck : credentialSchema.check (PgStore.createdCredential env command credential) = true ↔
      textBetween 1 256 credential.garageKeyId = true ∧
        textBetween 1 256 credential.accessKeyId = true := by
    constructor
    · intro h
      simp only [credentialSchema, PgStore.createdCredential, Bool.and_eq_true] at h
      exact ⟨h.1.1.1.1.2, h.1.1.1.2⟩
    · rintro ⟨hgarage, haccess⟩
      exact createdCredential_check hname hgarage haccess
  have hok : (∃ t, db.credentials.insert (PgStore.createdCredential env command credential) =
      .ok t) ↔ credentialSchema.check (PgStore.createdCredential env command credential) = true ∧
        db.CredentialFree command credential := by
    rw [Table.insert_ok_iff]
    refine and_congr_right fun _ => ?_
    simp only [credentialSchema, PgStore.createdCredential, Database.CredentialFree,
      Bool.or_eq_false_iff, Bool.and_eq_false_iff, decide_eq_false_iff_not]
    constructor
    · rintro ⟨hid, hunique⟩ d hd
      obtain ⟨⟨hgarage, haccess⟩, hservice⟩ := hunique d hd
      exact ⟨Table.lookup_eq_none.mp hid d hd, hgarage, haccess,
        fun hs => hservice.resolve_left (not_not.mpr hs)⟩
    · intro hfree
      refine ⟨Table.lookup_eq_none.mpr fun d hd => (hfree d hd).1, fun d hd => ?_⟩
      obtain ⟨-, hgarage, haccess, hservice⟩ := hfree d hd
      exact ⟨⟨hgarage, haccess⟩, not_or_of_imp hservice⟩
  rw [← hcheck]
  constructor
  · intro h
    have hpass : credentialSchema.check (PgStore.createdCredential env command credential) =
        true := by
      by_contra hne
      have hinternal : (insertRow credentialsPart mapDatabaseError
          (PgStore.createdCredential env command credential)).FailsOnly
          (fun e => ¬ e.refusal = true) db := by
        refine insertRow_failsOnly (fun v hv => ?_) fun _ => Bool.false_ne_true
        cases v with
        | check => exact Bool.false_ne_true
        | unique =>
          unfold Table.insert at hv
          rw [dif_neg hne] at hv
          cases hv
      exact hinternal.not_failsWith h
    obtain ⟨e, he, -⟩ := h
    refine ⟨hpass, fun hfree => ?_⟩
    obtain ⟨t, ht⟩ := hok.mpr ⟨hpass, hfree⟩
    have hdone : insertRow credentialsPart mapDatabaseError
        (PgStore.createdCredential env command credential) db = .ok ((), _) :=
      insertRow_eq_ok.mpr ⟨t, ht, hscope, rfl⟩
    exact absurd_ok_error hdone he
  · rintro ⟨hpass, htaken⟩
    refine Tx.FailsOnly.failsWith (insertRow_failsOnly (fun v hv => ?_)
      fun h => absurd_true_false hscope h) fun _ db₁ h₁ => ?_
    · cases v with
      | check => exact absurd_true_false hpass (Table.check_of_insert hv)
      | unique => rfl
    · obtain ⟨t, ht, -⟩ := insertRow_eq_ok.mp h₁
      exact htaken (hok.mp ⟨t, ht⟩).2

theorem applyCreateCredential_refused_iff {command : CreateCredentialCommand}
    {context : CreateCredentialContext} {credential : NewCredential}
    (hobs : (PrepareCall.createCredential command).Observed db context)
    (hheld : db.HeldBy command.operation o) (hid : credential.id = context.credentialId)
    (hname : credential.name = command.name) :
    Refused (PgStore.applyCreateCredential env command o credential) db ↔
      (textBetween 1 256 credential.garageKeyId = true ∧
        textBetween 1 256 credential.accessKeyId = true) ∧
      ¬ db.CredentialFree command credential := by
  obtain ⟨⟨service, row, ⟨hservice, horg, hproj, -⟩, -⟩, receipt, hreceipt, c, hc, hco, hm, hcid⟩ :=
    hobs
  obtain ⟨held, hl, -, ho, -⟩ := hheld
  obtain rfl : receipt = held := Option.some.inj (hreceipt.symm.trans hl)
  simp only [CredentialReservationRow.matches, Bool.and_eq_true, decide_eq_true_eq] at hm
  have htext : textBetween 1 128 command.name = true := by
    have hcheck := db.credentialReservations.checked c hc
    simp only [credentialReservationSchema, Bool.and_eq_true] at hcheck
    exact hm.1.2 ▸ hcheck.1.1
  have hstore : textStorable command.name = true := by
    simp only [textBetween, Bool.and_eq_true] at htext
    exact htext.1.1
  have hreserved : (db.credentialReservations.exists? fun r =>
      credentialReservationSchema.hasKey credential.id r && decide (r.operationId = o) &&
      decide (r.serviceInstanceId = command.operation.serviceInstanceId) &&
      decide (r.name = command.name)) = true := by
    have hkey : credentialReservationSchema.key c = credential.id := hcid.trans hid.symm
    exact Table.exists?_eq_true.mpr ⟨c, hc, by simp [hkey, hco.trans ho, hm]⟩
  have hscope : db.scopeExists command.operation.serviceInstanceId
      command.operation.organizationId command.operation.projectId = true :=
    scopeExists_iff.mpr ⟨service, hservice, horg.symm, hproj.symm⟩
  rw [← insertCredential_refused_iff env (hname ▸ htext) hscope]
  have hsame : PgStore.applyCreateCredential env command o credential db = (do
      insertRow credentialsPart mapDatabaseError (PgStore.createdCredential env command credential)
      deleteRows credentialReservationsPart fun r =>
        credentialReservationSchema.hasKey credential.id r && decide (r.operationId = o) :
          StoreTx Unit) db := by
    refine (Tx.ensure_bind hstore _ _ _).trans ((Tx.read_bind _ _ _).trans ?_)
    exact Tx.ensure_bind hreserved _ _ _
  rw [Refused, Tx.FailsWith, hsame]
  refine Tx.failsWith_bind.trans (or_iff_left ?_)
  rintro ⟨_, _, -, h⟩
  exact (deleteRows_fails (Q := fun e => ¬ e.refusal = true)).not_failsWith h

/-! ## finishing -/

/-- the holder of a receipt is not refused when it seals it -/
theorem finishReceipt_internal {operation : OperationRequest} {response : StoredHttpResponse}
    (hheld : db.HeldBy operation o) :
    (finishReceipt store env operation o response).FailsOnly (fun e => ¬ e.refusal = true) db := by
  obtain ⟨row, hl, hreq, ho, hs⟩ := hheld
  refine .read_bind <| .require_bind (fun hnone => absurd_none_some hnone hl)
    fun row' hl' => ?_
  obtain rfl := Option.some.inj (hl'.symm.trans hl)
  refine .ensure_bind (fun h => absurd_true_false ((matches_of_lookup hl).mpr hreq) h)
    fun _ => .ensure_bind (fun _ => Bool.false_ne_true) fun _ => ?_
  rw [if_neg (not_not.mpr hs)]
  refine .ofExcept_bind (fun e he => ?_) fun _ _ =>
    .bind (updateRows_failsOnly fun _ _ => Bool.false_ne_true) fun _ _ _ =>
      Tx.failsOnly_ensure fun _ => Bool.false_ne_true
  unfold ReceiptCipher.encrypt at he
  split at he
  · exact Except.error.inj he ▸ Bool.false_ne_true
  · split at he
    · exact Except.error.inj he ▸ Bool.false_ne_true
    · cases he

theorem insertAudit_internal {event : AuditEvent} (hvalid : event.valid = true) :
    (insertAudit env event).FailsOnly (fun e => ¬ e.refusal = true) db :=
  .ensure_bind (fun hnot => absurd_true_false hvalid hnot) fun _ =>
    insertRow_failsOnly (fun _ _ => Bool.false_ne_true) fun _ => Bool.false_ne_true

/-- past the fence a finishing call is refused iff its writes are -/
theorem finishing_refused_iff {operation : OperationRequest} {response : StoredHttpResponse}
    {event : AuditEvent} {before after : StoreTx Unit} (hheld : db.HeldBy operation o)
    (hvalid : event.valid = true)
    (hkeep : ∀ u db₁, before db = .ok (u, db₁) → db₁.receipts = db.receipts)
    (hafter : ∀ db₁, after.FailsOnly (fun e => ¬ e.refusal = true) db₁) :
    Refused (store.finishing env operation o response event before after) db ↔
      Refused before db := by
  have hfence : store.finishing env operation o response event before after db = (do
      before
      finishReceipt store env operation o response
      after
      insertAudit env event : StoreTx Unit) db :=
    Tx.bind_apply_ok (a := ()) (requireInProgressReceipt_eq_ok.mpr ⟨hheld, rfl⟩)
  rw [Refused, Tx.FailsWith, hfence]
  refine Tx.failsWith_bind.trans (or_iff_left ?_)
  rintro ⟨u, db₁, hwritten, h⟩
  have hheld₁ : db₁.HeldBy operation o := by
    unfold Database.HeldBy
    rw [hkeep u db₁ hwritten]
    exact hheld
  exact Tx.FailsOnly.not_failsWith (.bind (finishReceipt_internal hheld₁) fun _ _ _ =>
    .bind (hafter _) fun _ _ _ => insertAudit_internal hvalid) h

theorem applyDelete_internal {command : DeleteCommand} {context : DeleteContext}
    (hobs : (PrepareCall.delete command).Observed db context) :
    ¬ Refused (PgStore.applyDelete env command o) db := by
  rintro ⟨e, he, -⟩
  have hok : ∃ db₁, PgStore.applyDelete env command o db = .ok ((), db₁) := delete_ok hobs
  obtain ⟨db₁, hok⟩ := hok
  exact absurd_ok_error hok he

theorem applyRevokeCredential_internal {command : RevokeCredentialCommand}
    {context : RevokeCredentialContext}
    (hobs : (PrepareCall.revokeCredential command).Observed db context) :
    ¬ Refused (PgStore.applyRevokeCredential env command) db := by
  rintro ⟨e, he, -⟩
  have hok : ∃ db₁, PgStore.applyRevokeCredential env command db = .ok ((), db₁) := revoke_ok hobs
  obtain ⟨db₁, hok⟩ := hok
  exact absurd_ok_error hok he

/-- what a handler puts into a finishing call: the name and the permissions of the command, a
failed response for a failure, and an audit event that can be recorded -/
structure FinishCall.Made (finish : FinishCall) : Prop where
  audit : finish.audit.valid = true
  credential : ∀ command credential, finish.completion = .createCredential command credential →
    credential.name = command.name ∧ credential.permissions = command.permissions
  failed : ∀ operation, finish.completion = .fail operation → finish.response.failed = true

/-- the checks before the transaction, and then the transaction -/
theorem FinishCall.exec_refused_iff {finish : FinishCall} {b : Bool}
    (hexec : ∃ e : StoreError, e.refusal = true ∧ finish.exec store env db =
      (Tx.ensure b e >>= fun _ => store.finishing env finish.operation finish.operationId
        finish.response finish.audit (finish.completion.before env finish.operationId)
        (finish.completion.after finish.operationId) : StoreTx Unit) db)
    (hheld : db.HeldBy finish.operation finish.operationId) (hvalid : finish.audit.valid = true) :
    Refused (finish.exec store env) db ↔
      b = false ∨ Refused (finish.completion.before env finish.operationId) db := by
  obtain ⟨e, he, hexec⟩ := hexec
  have hafter : ∀ db₁, (finish.completion.after finish.operationId).FailsOnly
      (fun e => ¬ e.refusal = true) db₁ := by
    intro db₁
    cases finish.completion with
    | fail operation => exact .bind deleteRows_fails fun _ _ _ => .read_bind deleteRows_fails
    | _ => exact Tx.failsOnly_pure
  rw [Refused, Tx.FailsWith, hexec]
  cases b with
  | false => exact iff_of_true ⟨e, rfl, he⟩ (.inl rfl)
  | true =>
    rw [Tx.ensure_bind rfl, or_iff_right Bool.false_ne_true.symm]
    exact finishing_refused_iff hheld hvalid (fun _ _ h => (before_frame h).1) hafter

/-- **a completing call is refused iff it clashes** -/
theorem finish_refused_iff {finish : FinishCall} {call : PrepareCall} {context : call.Context}
    (hvalidate : call.validate = .ok ()) (hobs : call.Observed db context)
    (hanswers : finish.completion.Answers call context)
    (hheld : db.HeldBy call.operation finish.operationId) (hmade : finish.Made) :
    Refused (finish.exec store env) db ↔ finish.completion.Clashes db := by
  obtain ⟨completion, o, response, event⟩ := finish
  have hop : completion.operation = call.operation := hanswers.operation
  have hheld' : db.HeldBy completion.operation o := hop ▸ hheld
  cases hanswers with
  | @reconcile command pid context =>
    obtain ⟨-, -, -, hspec⟩ := ReconcileCommand.validate_eq_ok hvalidate
    obtain ⟨-, hbytes, hobjects⟩ := SyouyuSpec.validate_eq_ok hspec
    obtain ⟨htarget, -, hname, -⟩ := hobs
    have hfacts : (PrepareCall.reconcile command).Facts db := ⟨_, _, htarget⟩
    rw [FinishCall.exec_refused_iff (b := !pid.isEmpty && decide (len pid ≤ 256))
      ⟨.validation "physical bucket ID is invalid", rfl, ?_⟩ hheld' hmade.audit]
    · exact or_congr_right (applyReconcile_refused_iff env o hvalidate hname hfacts)
    · have hb : toI64 command.spec.quotaBytes "quota_bytes" = .ok _ :=
        toI64_eq_ok.mpr ⟨hbytes.2, rfl⟩
      have ho : toI64 command.spec.quotaObjects "quota_objects" = .ok _ :=
        toI64_eq_ok.mpr ⟨hobjects.2, rfl⟩
      simp only [FinishCall.exec, PgStore.completeReconcile, hb, ho]
      rfl
  | @delete command context =>
    rw [FinishCall.exec_refused_iff (b := true) ⟨.notFound, rfl, rfl⟩ hheld' hmade.audit]
    exact iff_of_false (fun h => h.elim Bool.false_ne_true.symm (applyDelete_internal hobs)) id
  | @createCredential command credential context hid =>
    obtain ⟨hname, hpermissions⟩ := hmade.credential command credential rfl
    rw [FinishCall.exec_refused_iff (b := !credential.id.isNil && !credential.garageKeyId.isEmpty &&
      !credential.accessKeyId.isEmpty) ⟨.validation "created credential metadata is invalid", rfl, ?_⟩
      hheld' hmade.audit]
    · exact or_congr_right (applyCreateCredential_refused_iff hobs hheld hid hname)
    · simp only [FinishCall.exec, PgStore.completeCreateCredential, hname, hpermissions,
        decide_true, Bool.and_true]
      rfl
  | @revokeCredential command context =>
    rw [FinishCall.exec_refused_iff (b := true) ⟨.notFound, rfl, rfl⟩ hheld' hmade.audit]
    exact iff_of_false (fun h => h.elim Bool.false_ne_true.symm (applyRevokeCredential_internal hobs)) id
  | @fail call context =>
    rw [FinishCall.exec_refused_iff (b := response.failed)
      ⟨.validation "failed operation response must be marked failed", rfl, rfl⟩ hheld' hmade.audit]
    refine iff_of_false ?_ id
    rintro (h | ⟨e, he, -⟩)
    · exact absurd_true_false (hmade.failed call.operation rfl) h
    · cases he

end

end Syouyu
