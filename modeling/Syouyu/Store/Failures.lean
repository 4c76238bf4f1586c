import Syouyu.Store.Run

/-!
# With which errors the parts of calls fail

Two errors say something about the database: `CorruptData`, that it is not as the store left it, and
`OperationInProgress`, that somebody else is at work.  All other errors are `plain`.  Every part of a
call gets one lemma `.._fails`: its errors satisfy `Q`, if `Q` holds for plain errors and, where the
part can end with one of the two, for that error or else the branch cannot be taken.

* `Database.Furnished`       what the store relies on when it reads a service: its spec can be
                             decoded and it has a bucket with a physical id;
* `PrepareCall.body_fails`   the four prepare calls behind the claim of their receipt;
* `FinishCall.exec_fails`    the five finishing calls.
-/

set_option linter.unusedSectionVars false

namespace Syouyu
open Lib

/-- neither `CorruptData` nor `OperationInProgress` -/
def StoreError.plain : StoreError → Bool
  | .corruptData _ => false
  | .operationInProgress _ => false
  | _ => true

/-- the desired generation is the observed one, and the service is ready or deleted -/
def ServiceRow.Settled (row : ServiceRow) : Prop :=
  row.observedGeneration = row.desiredGeneration ∧ (row.phase = .ready ∨ row.phase = .deleted)

/-- the spec of the service, if there is one, can be decoded, and it has a bucket with a physical
id -/
def Database.Furnished (db : Database) (s : Uuid) : Prop :=
  ∀ service, db.services.lookup s = some service →
    (SyouyuSpec.fromValue service.desiredSpec).isSome = true ∧
    ∃ bucket, db.buckets.lookup s = some bucket ∧ bucket.physicalBucketId.isSome = true

/-! ## validation -/

theorem OperationRequest.validate_plain {operation : OperationRequest} {e : StoreError}
    (h : operation.validate = .error e) : e.plain = true := by
  unfold OperationRequest.validate at h
  split at h
  · exact Except.error.inj h ▸ rfl
  · split at h
    · exact Except.error.inj h ▸ rfl
    · cases h

theorem PrepareCall.validate_plain {call : PrepareCall} {e : StoreError}
    (h : call.validate = .error e) : e.plain = true := by
  have hdomain : ∀ {α : Type} {x : Except ValidationError α} {e : StoreError},
      x.mapError StoreError.domainValidation = .error e → e.plain = true := by
    intro α x e h
    cases x with
    | ok a => cases h
    | error v => exact Except.error.inj h ▸ rfl
  cases call with
  | reconcile command =>
    rcases except_bind_eq_error.mp h with h | ⟨_, -, h⟩
    · exact OperationRequest.validate_plain h
    · split at h
      · exact Except.error.inj h ▸ rfl
      · split at h
        · exact Except.error.inj h ▸ rfl
        · exact hdomain h
  | delete command =>
    rcases except_bind_eq_error.mp h with h | ⟨_, -, h⟩
    · exact OperationRequest.validate_plain h
    · split at h
      · exact Except.error.inj h ▸ rfl
      · cases h
  | createCredential command =>
    rcases except_bind_eq_error.mp h with h | ⟨_, -, h⟩
    · exact OperationRequest.validate_plain h
    · rcases except_bind_eq_error.mp h with h | ⟨_, -, h⟩
      · change CredentialLimits.validate _ = _ at h
        unfold CredentialLimits.validate at h
        split at h
        · exact Except.error.inj h ▸ rfl
        · cases h
      · exact hdomain h
  | revokeCredential command => exact OperationRequest.validate_plain h

theorem mapDatabaseError_plain (e : DatabaseError) : (mapDatabaseError e).plain = true := by
  cases e <;> rfl

theorem toI64_plain {value : UInt64} {field : String} {e : StoreError}
    (h : toI64 value field = .error e) : e.plain = true := by
  unfold toI64 at h
  split at h
  · cases h
  · exact Except.error.inj h ▸ rfl

theorem encrypt_plain {cipher : ReceiptCipher} {nonce : Option Nonce} {k o : Uuid}
    {plaintext : List UInt8} {e : StoreError}
    (h : cipher.encrypt nonce k o plaintext = .error e) : e.plain = true := by
  unfold ReceiptCipher.encrypt at h
  split at h
  · exact Except.error.inj h ▸ rfl
  · split at h
    · exact Except.error.inj h ▸ rfl
    · cases h

section
variable {store : PgStore} {env : CallEnv} {db : Database} {Q : StoreError → Prop}
  (hplain : ∀ e, e.plain = true → Q e)
include hplain

/-! ## statements -/

section
variable {κ ρ : Type} [DecidableEq κ] {S : Schema κ ρ} {T : Part S}
  {onError : DatabaseError → StoreError} (hon : ∀ e, (onError e).plain = true)
include hon

theorem insertRow_fails {row : ρ} : (insertRow T onError row).FailsOnly Q db :=
  insertRow_failsOnly (fun _ _ => hplain _ (hon _)) fun _ => hplain _ (hon _)

theorem updateRows_fails {p : ρ → Bool} {f : ρ → ρ} :
    (updateRows T onError p f).FailsOnly Q db :=
  updateRows_failsOnly fun _ _ => hplain _ (hon _)

theorem upsertRow_fails {row : ρ} {guard : ρ → Bool} {f : ρ → ρ} :
    (upsertRow T onError row guard f).FailsOnly Q db :=
  upsertRow_failsOnly (fun _ => hplain _ (hon _)) (fun _ _ => insertRow_fails hplain hon)
    fun _ _ => updateRows_fails hplain hon

end

/-! ## receipts -/

theorem reserveReceipt_fails {operation : OperationRequest} :
    (reserveReceipt env operation).FailsOnly Q db :=
  .bind (insertRow_fails hplain mapDatabaseError_plain) fun _ _ _ => Tx.failsOnly_pure

theorem grantReceipt_fails {operation : OperationRequest} {claimed : Option Uuid} :
    (grantReceipt env operation claimed).FailsOnly Q db := by
  cases claimed with
  | none => exact reserveReceipt_fails hplain
  | some o => exact Tx.failsOnly_pure

omit hplain in
theorem rejectParallelOperation_fails {s k : Uuid}
    (hbusy : db.OnlyHeld s k ∨ ∀ o, Q (.operationInProgress o)) :
    (rejectParallelOperation s k).FailsOnly Q db := by
  rcases hbusy with honly | hbusy
  · intro e he
    have hok : rejectParallelOperation s k db = .ok ((), db) :=
      rejectParallelOperation_eq_ok.mpr ⟨honly, rfl⟩
    exact absurd_ok_error hok he
  · refine .read_bind (Tx.failsOnly_refuse fun e he => ?_)
    obtain ⟨row, -, rfl⟩ := Option.map_eq_some_iff.mp he
    exact hbusy _

theorem takeOverReceipt_fails {operation : OperationRequest} {row : ReceiptRow} :
    (takeOverReceipt env operation row).FailsOnly Q db := by
  refine .bind (updateRows_fails hplain fun _ => rfl) fun claimed _ _ => ?_
  split
  · exact Tx.failsOnly_pure
  · exact .bind (updateRows_fails hplain fun _ => rfl) fun _ _ _ => Tx.failsOnly_pure

/-! ## services and buckets -/

omit hplain in
/-- the numbers of a bucket row were checked when it was written -/
theorem fetchBucketRow_fails {s : Uuid} {missing : String}
    (h : db.buckets.lookup s = none → Q (.corruptData missing)) :
    (fetchBucketRow s missing).FailsOnly Q db := by
  refine .read_bind (.require_bind h fun row hl => Tx.failsOnly_ofExcept fun e he => ?_)
  rw [tryIntoRecord_of_check (Table.lookup_check hl)] at he
  cases he

omit hplain in
/-- the bucket of a service that is there, and its physical id -/
theorem physicalBucket_fails {s : Uuid} {missing unnamed : String} {service : ServiceRow}
    (hl : db.services.lookup s = some service)
    (hc : db.Furnished s ∨ ∀ what, Q (.corruptData what)) {α : Type}
    {f : BucketRecord → StoreTx α} (hf : ∀ bucket, (f bucket).FailsOnly Q db) :
    (do
      let bucket ← fetchBucketRow s missing
      Tx.ensure bucket.physicalBucketId.isSome (.corruptData unnamed)
      f bucket : StoreTx α).FailsOnly Q db := by
  rcases hc with hc | hc
  · obtain ⟨-, bucket, hb, hphys⟩ := hc service hl
    refine .bind (fetchBucketRow_fails fun hnone => absurd_none_some hnone hb)
      fun record db₁ hrecord => ?_
    obtain ⟨rfl, row, hrow, rfl⟩ := fetchBucketRow_eq_ok.mp hrecord
    obtain rfl := Option.some.inj (hrow.symm.trans hb)
    exact .ensure_bind (fun hnone => absurd (hphys.symm.trans hnone) nofun) fun _ => hf _
  · refine .bind (fetchBucketRow_fails fun _ => hc _) fun record db₁ hrecord => ?_
    obtain ⟨rfl, -⟩ := fetchBucketRow_eq_ok.mp hrecord
    exact .ensure_bind (fun _ => hc _) fun _ => hf _

theorem readyBucketInTransaction_fails {operation : OperationRequest}
    (hc : db.Furnished operation.serviceInstanceId ∨ ∀ what, Q (.corruptData what)) :
    (readyBucketInTransaction operation).FailsOnly Q db :=
  .read_bind <| .require_bind (fun _ => hplain _ rfl) fun _ hl =>
    .ensure_bind (fun _ => hplain _ rfl) fun _ => .ensure_bind (fun _ => hplain _ rfl) fun _ =>
    physicalBucket_fails hl hc fun _ => Tx.failsOnly_pure

theorem reserveBucketName_fails {name : String} {s : Uuid} :
    (reserveBucketName env name s).FailsOnly Q db :=
  .bind (upsertRow_fails hplain fun _ => rfl) fun _ _ _ => Tx.failsOnly_ensure fun _ => hplain _ rfl

theorem insertAudit_fails {audit : AuditEvent} : (insertAudit env audit).FailsOnly Q db :=
  .ensure_bind (fun _ => hplain _ rfl) fun _ => insertRow_fails hplain fun _ => rfl

/-! ## preparing -/

/-- a live service at the command's generation has applied it -/
theorem sameGeneration_fails {command : ReconcileCommand} {row : ServiceRow}
    (hc : (SyouyuSpec.fromValue row.desiredSpec).isSome = true ∨ ∀ what, Q (.corruptData what))
    (hbusy : row.Settled ∨ ∀ o, Q (.operationInProgress o)) (hlive : row.phase ≠ .deleted)
    (hgen : command.generation = row.desiredGeneration) :
    (PgStore.sameGeneration command row).FailsOnly Q db := by
  refine .require_bind (fun hnone => ?_) fun spec _ => .ensure_bind (fun _ => hplain _ rfl)
    fun _ => .ensure_bind (fun hfalse => ?_) fun _ => Tx.failsOnly_pure
  · rcases hc with hc | hc
    · rw [hnone] at hc
      cases hc
    · exact hc _
  · -- a settled service is ready at its generation
    rcases hbusy with ⟨hobserved, hphase⟩ | hbusy
    · rw [hobserved, ← hgen, hphase.resolve_right hlive] at hfalse
      simp at hfalse
    · exact hbusy _

theorem reconcileTarget_fails {command : ReconcileCommand}
    (hc : db.Furnished command.operation.serviceInstanceId ∨ ∀ what, Q (.corruptData what))
    (hbusy : (∀ row ∈ db.services.rows, row.Settled) ∨ ∀ o, Q (.operationInProgress o)) :
    (PgStore.reconcileTarget command).FailsOnly Q db := by
  refine .read_bind ?_
  cases hl : db.services.lookup command.operation.serviceInstanceId with
  | none => exact Tx.failsOnly_pure
  | some row =>
    refine .ensure_bind (fun _ => hplain _ rfl) fun _ => .ensure_bind (fun _ => hplain _ rfl)
      fun hlive => .ensure_bind (fun _ => hplain _ rfl) fun _ => .bind ?_ fun _ db₁ hrecord => ?_
    · refine fetchBucketRow_fails fun hnone => ?_
      rcases hc with hc | hc
      · obtain ⟨-, bucket, hb, -⟩ := hc row hl
        exact absurd_none_some hnone hb
      · exact hc _
    · obtain ⟨rfl, -⟩ := fetchBucketRow_eq_ok.mp hrecord
      refine .ensure_bind (fun _ => hplain _ rfl) fun _ => .bind ?_ fun _ _ _ => Tx.failsOnly_pure
      unfold PgStore.previouslyApplied
      split
      · rename_i hgen
        exact sameGeneration_fails hplain (hc.imp_left fun hc => (hc row hl).1)
          (hbusy.imp_left fun h => h row (Table.lookup_mem hl)) (of_decide_eq_true hlive) hgen
      · exact Tx.failsOnly_pure

omit hplain in
theorem checkDeleteGeneration_unchanged {command : DeleteCommand} {service : ServiceRow}
    {u : Unit} {db' : Database}
    (h : PgStore.checkDeleteGeneration command service db = .ok (u, db')) : db' = db := by
  simp only [PgStore.checkDeleteGeneration, Tx.bind_eq_ok, Tx.require_eq_ok, Tx.ensure_eq_ok] at h
  obtain ⟨_, _, ⟨-, rfl⟩, _, _, ⟨-, rfl⟩, -, rfl⟩ := h
  rfl

theorem checkDeleteGeneration_fails {command : DeleteCommand} {service : ServiceRow} :
    (PgStore.checkDeleteGeneration command service).FailsOnly Q db :=
  .require_bind (fun _ => hplain _ rfl) fun _ _ => .ensure_bind (fun _ => hplain _ rfl) fun _ =>
    Tx.failsOnly_ensure fun _ => hplain _ rfl

theorem admitReservation_fails {command : CreateCredentialCommand} :
    (store.admitReservation command).FailsOnly Q db :=
  .ensure_bind (fun _ => hplain _ rfl) fun _ => .read_bind <|
    .ensure_bind (fun _ => hplain _ rfl) fun _ => .read_bind <|
    .ensure_bind (fun _ => hplain _ rfl) fun _ => .read_bind <|
    Tx.failsOnly_ensure fun _ => hplain _ rfl

omit hplain in
theorem takeOverReservation_fails {command : CreateCredentialCommand} {bucket : BucketRecord}
    {o : Uuid}
    (hbusy : db.OnlyHeld command.operation.serviceInstanceId command.operation.idempotencyKey ∨
      ∀ o, Q (.operationInProgress o))
    (hc : (∃ c, (db.credentialReservations.select fun r => decide (r.operationId = o)).head? =
      some c ∧ c.matches command = true) ∨ ∀ what, Q (.corruptData what)) :
    (PgStore.takeOverReservation command bucket o).FailsOnly Q db := by
  refine .bind (rejectParallelOperation_fails hbusy) fun _ db₁ hok => ?_
  obtain ⟨-, rfl⟩ := rejectParallelOperation_eq_ok.mp hok
  refine .read_bind (.require_bind (fun hnone => ?_) fun c hsome =>
    .ensure_bind (fun hmatch => ?_) fun _ => Tx.failsOnly_pure)
  · rcases hc with ⟨c, hc, -⟩ | hc
    · exact absurd_none_some hnone hc
    · exact hc _
  · rcases hc with ⟨d, hd, hm⟩ | hc
    · obtain rfl := Option.some.inj (hsome.symm.trans hd)
      exact absurd_true_false hm hmatch
    · exact hc _

theorem newReservation_fails {command : CreateCredentialCommand} {bucket : BucketRecord}
    (hbusy : db.OnlyHeld command.operation.serviceInstanceId command.operation.idempotencyKey ∨
      ∀ o, Q (.operationInProgress o)) :
    (store.newReservation env command bucket).FailsOnly Q db := by
  refine .bind (admitReservation_fails hplain) fun _ db₁ hok => ?_
  obtain ⟨-, -, rfl⟩ := admitReservation_eq_ok.mp hok
  exact .bind (rejectParallelOperation_fails hbusy) fun _ _ _ =>
    .bind (reserveReceipt_fails hplain) fun _ _ _ =>
    .bind (insertRow_fails hplain mapDatabaseError_plain) fun _ _ _ => Tx.failsOnly_pure

/-- **the part of a prepare call behind the claim** -/
theorem PrepareCall.body_fails {call : PrepareCall} {claimed : Option Uuid}
    (hc : db.Furnished call.operation.serviceInstanceId ∨ ∀ what, Q (.corruptData what))
    (hsettled : (∀ row ∈ db.services.rows, row.Settled) ∨ ∀ o, Q (.operationInProgress o))
    (hbusy : db.OnlyHeld call.operation.serviceInstanceId call.operation.idempotencyKey ∨
      ∀ o, Q (.operationInProgress o))
    (hres : ∀ command, call = .createCredential command → ∀ o, claimed = some o →
      (∃ c, (db.credentialReservations.select fun r => decide (r.operationId = o)).head? =
        some c ∧ c.matches command = true) ∨ ∀ what, Q (.corruptData what)) :
    (call.body store env claimed).FailsOnly Q db := by
  -- three of the four look at other operations first
  have hfirst : ∀ {α : Type} {f : Unit → StoreTx α}, (f ()).FailsOnly Q db →
      (rejectParallelOperation call.operation.serviceInstanceId call.operation.idempotencyKey >>=
        f).FailsOnly Q db := by
    intro α f hf
    refine .bind (rejectParallelOperation_fails hbusy) fun _ db₁ hok => ?_
    obtain ⟨-, rfl⟩ := rejectParallelOperation_eq_ok.mp hok
    exact hf
  cases call with
  | reconcile command =>
    exact hfirst <| .bind (reconcileTarget_fails hplain hc hsettled) fun _ _ _ =>
      .bind (reserveBucketName_fails hplain) fun _ _ _ =>
      .bind (grantReceipt_fails hplain) fun _ _ _ => Tx.failsOnly_pure
  | delete command =>
    refine hfirst <| .read_bind <| .require_bind (fun _ => hplain _ rfl) fun service hl =>
      .ensure_bind (fun _ => hplain _ rfl) fun _ => .ensure_bind (fun _ => hplain _ rfl) fun _ =>
      .bind (checkDeleteGeneration_fails hplain) fun _ db₁ hok => ?_
    obtain rfl := checkDeleteGeneration_unchanged hok
    exact physicalBucket_fails hl hc fun _ => .read_bind <|
      .bind (grantReceipt_fails hplain) fun _ _ _ => Tx.failsOnly_pure
  | createCredential command =>
    refine .bind (readyBucketInTransaction_fails hplain hc) fun bucket db₁ hok => ?_
    obtain ⟨rfl, -⟩ := readyBucketInTransaction_eq_ok.mp hok
    cases claimed with
    | none => exact newReservation_fails hplain hbusy
    | some o => exact takeOverReservation_fails hbusy (hres command rfl o rfl)
  | revokeCredential command =>
    exact hfirst <| .bind (readyBucketInTransaction_fails hplain hc) fun _ _ _ => .read_bind <|
      .require_bind (fun _ => hplain _ rfl) fun _ _ =>
      .bind (grantReceipt_fails hplain) fun _ _ _ => Tx.failsOnly_pure

/-- the claim of a receipt: one that is held has its lease, a finished one must decode -/
theorem claimExistingReceipt_fails {operation : OperationRequest}
    (hdecode : ∀ row, db.receipts.lookup operation.idempotencyKey = some row →
      row.state ≠ .inProgress → ∀ e, store.decodeReceipt row = .error e → Q e) :
    (claimExistingReceipt store env operation).FailsOnly Q db := by
  refine .read_bind ?_
  cases hl : db.receipts.lookup operation.idempotencyKey with
  | none => exact Tx.failsOnly_pure
  | some row =>
    refine .ensure_bind (fun _ => hplain _ rfl) fun _ => ?_
    split
    · rename_i hs
      have hlease := lease_of_inProgress hl hs
      exact .ensure_bind (fun hnone => absurd (hlease.symm.trans hnone) nofun) fun _ =>
        takeOverReceipt_fails hplain
    · rename_i hs
      exact .bind (Tx.failsOnly_ofExcept (hdecode row hl hs)) fun _ _ _ => Tx.failsOnly_pure

/-! ## finishing -/

omit hplain in
theorem deleteRows_fails {κ ρ : Type} [DecidableEq κ] {S : Schema κ ρ} {T : Part S}
    {p : ρ → Bool} : (deleteRows T p).FailsOnly Q db := nofun

theorem requireInProgressReceipt_fails {operation : OperationRequest} {o : Uuid}
    (hc : ∃ row, db.receipts.lookup operation.idempotencyKey = some row) :
    (requireInProgressReceipt operation o).FailsOnly Q db := by
  obtain ⟨row, hl⟩ := hc
  exact .read_bind <| .require_bind (fun hnone => absurd_none_some hnone hl) fun _ _ =>
    .ensure_bind (fun _ => hplain _ rfl) fun _ => .ensure_bind (fun _ => hplain _ rfl) fun _ =>
    Tx.failsOnly_ensure fun _ => hplain _ rfl

/-- whoever holds the receipt seals it -/
theorem finishReceipt_fails {operation : OperationRequest} {o : Uuid}
    {response : StoredHttpResponse} (hheld : db.HeldBy operation o) :
    (finishReceipt store env operation o response).FailsOnly Q db := by
  obtain ⟨row, hl, -, -, hs⟩ := hheld
  refine .read_bind <| .require_bind (fun hnone => absurd_none_some hnone hl)
    fun row' hl' => .ensure_bind (fun _ => hplain _ rfl) fun _ =>
    .ensure_bind (fun _ => hplain _ rfl) fun _ => ?_
  obtain rfl := Option.some.inj (hl'.symm.trans hl)
  rw [if_neg (not_not.mpr hs)]
  exact .ofExcept_bind (fun _ he => hplain _ (encrypt_plain he)) fun _ _ =>
    .bind (updateRows_fails hplain fun _ => rfl) fun _ _ _ =>
    Tx.failsOnly_ensure fun _ => hplain _ rfl

theorem finishing_fails {operation : OperationRequest} {o : Uuid} {response : StoredHttpResponse}
    {audit : AuditEvent} {before after : StoreTx Unit}
    (hc : ∃ row, db.receipts.lookup operation.idempotencyKey = some row)
    (hbefore : db.HeldBy operation o → before.FailsOnly Q db)
    (hkeep : ∀ u db₁, before db = .ok (u, db₁) → db₁.receipts = db.receipts)
    (hafter : ∀ db₁, after.FailsOnly Q db₁) :
    (store.finishing env operation o response audit before after).FailsOnly Q db := by
  refine .bind (requireInProgressReceipt_fails hplain hc) fun _ _ hok => ?_
  obtain ⟨hheld, rfl⟩ := requireInProgressReceipt_eq_ok.mp hok
  refine .bind (hbefore hheld) fun u db₁ hwritten => ?_
  have hheld₁ : db₁.HeldBy operation o := by
    unfold Database.HeldBy
    rw [hkeep u db₁ hwritten]
    exact hheld
  exact .bind (finishReceipt_fails hplain hheld₁) fun _ _ _ => .bind (hafter _) fun _ _ _ =>
    insertAudit_fails hplain

theorem applyReconcile_fails {command : ReconcileCommand} {o : Uuid} {pid : String}
    {quotaBytes quotaObjects : Int64} :
    (PgStore.applyReconcile env command o pid quotaBytes quotaObjects).FailsOnly Q db :=
  .bind (.bind (upsertRow_fails hplain mapDatabaseError_plain) fun _ _ _ =>
      Tx.failsOnly_ensure fun _ => hplain _ rfl) fun _ _ _ =>
    .bind (.bind (upsertRow_fails hplain mapDatabaseError_plain) fun _ _ _ => Tx.failsOnly_pure)
      fun _ _ _ => deleteRows_fails

theorem applyDelete_fails {command : DeleteCommand} {o : Uuid} :
    (PgStore.applyDelete env command o).FailsOnly Q db :=
  .bind (updateRows_fails hplain fun _ => rfl) fun _ _ _ =>
    .bind (updateRows_fails hplain fun _ => rfl) fun _ _ _ =>
    .ensure_bind (fun _ => hplain _ rfl) fun _ => deleteRows_fails

theorem applyCreateCredential_fails {command : CreateCredentialCommand} {o : Uuid}
    {credential : NewCredential}
    (hc : ∃ c ∈ db.credentialReservations.rows, c.credentialId = credential.id ∧
      c.operationId = o ∧ c.matches command = true) :
    (PgStore.applyCreateCredential env command o credential).FailsOnly Q db := by
  obtain ⟨c, hmem, hid, ho, hm⟩ := hc
  refine .ensure_bind (fun _ => hplain _ rfl) fun _ => .read_bind <|
    .ensure_bind (fun hnone => ?_) fun _ =>
    .bind (insertRow_fails hplain mapDatabaseError_plain) fun _ _ _ => deleteRows_fails
  simp only [CredentialReservationRow.matches, Bool.and_eq_true, decide_eq_true_eq] at hm
  refine absurd (Table.exists?_eq_false.mp hnone c hmem) ?_
  have hkey : credentialReservationSchema.key c = credential.id := hid
  simp [hkey, ho, hm]

theorem applyRevokeCredential_fails {command : RevokeCredentialCommand} :
    (PgStore.applyRevokeCredential env command).FailsOnly Q db :=
  .bind (updateRows_fails hplain fun _ => rfl) fun _ _ _ =>
    Tx.failsOnly_ensure fun _ => hplain _ rfl

/-- **the finishing calls**: the receipt must be there, and to complete a create its holder must
find the reservation -/
theorem FinishCall.exec_fails {call : FinishCall}
    (hc : ∃ row, db.receipts.lookup call.operation.idempotencyKey = some row)
    (hres : ∀ command credential, call.completion = .createCredential command credential →
      db.HeldBy command.operation call.operationId →
      ∃ c ∈ db.credentialReservations.rows, c.credentialId = credential.id ∧
        c.operationId = call.operationId ∧ c.matches command = true) :
    (call.exec store env).FailsOnly Q db := by
  obtain ⟨completion, o, response, audit⟩ := call
  have hfin : (store.finishing env completion.operation o response audit
      (completion.before env o) (completion.after o)).FailsOnly Q db := by
    refine finishing_fails hplain hc (fun hheld => ?_) (fun _ _ h => (before_frame h).1) ?_
    · cases completion with
      | reconcile command pid => exact applyReconcile_fails hplain
      | delete command => exact applyDelete_fails hplain
      | createCredential command credential =>
        exact applyCreateCredential_fails hplain (hres command credential rfl hheld)
      | revokeCredential command => exact applyRevokeCredential_fails hplain
      | fail operation => exact Tx.failsOnly_pure
    · intro db₁
      cases completion with
      | fail operation => exact .bind deleteRows_fails fun _ _ _ => .read_bind deleteRows_fails
      | _ => exact Tx.failsOnly_pure
  cases completion with
  | reconcile command pid =>
    refine .ensure_bind (fun _ => hplain _ rfl) fun _ =>
      .ofExcept_bind (fun _ he => hplain _ (toI64_plain he)) fun bytes hbytes =>
      .ofExcept_bind (fun _ he => hplain _ (toI64_plain he)) fun objects hobjects => ?_
    obtain ⟨-, rfl⟩ := toI64_eq_ok.mp hbytes
    obtain ⟨-, rfl⟩ := toI64_eq_ok.mp hobjects
    exact hfin
  | delete command => exact hfin
  | createCredential command credential =>
    exact .ensure_bind (fun _ => hplain _ rfl) fun _ => hfin
  | revokeCredential command => exact hfin
  | fail operation => exact .ensure_bind (fun _ => hplain _ rfl) fun _ => hfin

theorem renewOperation_fails {operation : OperationRequest} {o : Uuid}
    (hc : ∃ row, db.receipts.lookup operation.idempotencyKey = some row) :
    (PgStore.renewOperation env operation o).FailsOnly Q db :=
  .ofExcept_bind (fun _ he => hplain _ (OperationRequest.validate_plain he)) fun _ _ =>
    .bind (requireInProgressReceipt_fails hplain hc) fun _ _ _ =>
    .bind (updateRows_fails hplain fun _ => rfl) fun _ _ _ =>
    Tx.failsOnly_ensure fun _ => hplain _ rfl

end

end Syouyu
