import Syouyu.Store.Links
import Syouyu.Store.Names

/-!
# What a caller was told stays true while it holds its receipt

The context of an `Execute` answer describes the service, its bucket, its credentials and, for a
create, the reservation of the call.  None of it moves while the receipt is held, so a takeover
reads it again.

* `PrepareCall.Observed`     the context describes the database, up to the usage of the bucket;
* `prepare_observed`         true of the answer of a prepare call;
* `PrepareCall.Observed.step`, `.run`   and kept while the receipt is held;
* `prepare_again`            what is observed, a takeover reads again;
* `takeover_reproduces`      **a takeover succeeds and answers the context of the first call**.
-/

set_option linter.unusedSectionVars false

namespace Syouyu
open Lib

/-! ## contexts up to usage -/

def BucketRecord.unmeasured (bucket : BucketRecord) : BucketRecord :=
  { bucket with usedBytes := 0, usedObjects := 0, usageMeasuredAt := none }

/-- a context without the usage of its bucket -/
def PrepareCall.unmeasured : (call : PrepareCall) → call.Context → call.Context
  | .reconcile _, (context : ReconcileContext) =>
    { context with bucket := context.bucket.unmeasured }
  | .delete _, (context : DeleteContext) => { context with bucket := context.bucket.unmeasured }
  | .createCredential _, (context : CreateCredentialContext) =>
    { context with bucket := context.bucket.unmeasured }
  | .revokeCredential _, context => context

theorem unmeasured_record {a b : BucketRow} (h : a.unmeasured = b.unmeasured) :
    a.record.unmeasured = b.record.unmeasured := by
  have hrecord : ∀ row : BucketRow, row.record.unmeasured = row.unmeasured.record := fun _ => rfl
  rw [hrecord, hrecord, h]

/-- the context describes the database, up to the usage of the bucket -/
def PrepareCall.Observed (db : Database) : (call : PrepareCall) → call.Context → Prop
  | .reconcile command, (context : ReconcileContext) =>
    db.ReconcileTarget command context.bucket.physicalBucketId context.previouslyApplied ∧
    context.bucket = command.desiredBucket context.bucket.physicalBucketId ∧
    textBetween 3 63 command.spec.bucketName = true ∧
    ∃ name, db.nameReservations.lookup command.spec.bucketName = some name ∧
      name.serviceInstanceId = command.operation.serviceInstanceId
  | .delete command, (context : DeleteContext) =>
    ∃ service row, db.services.lookup command.operation.serviceInstanceId = some service ∧
      command.operation.organizationId = service.organizationId ∧
      command.operation.projectId = service.projectId ∧ service.phase ≠ .deleted ∧
      checkedSucc service.desiredGeneration = some command.generation ∧
      db.buckets.lookup command.operation.serviceInstanceId = some row ∧
      row.physicalBucketId.isSome = true ∧
      context.bucket.unmeasured = row.record.unmeasured ∧
      context.garageKeyIds = db.activeGarageKeys command.operation.serviceInstanceId
  | .createCredential command, (context : CreateCredentialContext) =>
    (∃ service row, db.Ready command.operation service row ∧
      context.bucket.unmeasured = row.record.unmeasured) ∧
    ∃ receipt, db.receipts.lookup command.operation.idempotencyKey = some receipt ∧
      ∃ c ∈ db.credentialReservations.rows, c.operationId = receipt.operationId ∧
        c.matches command = true ∧ c.credentialId = context.credentialId
  | .revokeCredential command, (context : RevokeCredentialContext) =>
    (∃ service row, db.Ready command.operation service row) ∧
    ∃ credential, db.credentials.lookup command.credentialId = some credential ∧
      credential.serviceInstanceId = command.operation.serviceInstanceId ∧
      context = ⟨credential.garageKeyId, decide (credential.status = .revoked)⟩

section
variable {store : PgStore} {env : CallEnv} {db db' : Database} {r : CallRecord}

/-! ## given by the answer -/

/-- the row of a new reservation is one of its command -/
theorem reservationRow_matches (command : CreateCredentialCommand) (o : Uuid) :
    (PgStore.reservationRow env command o).matches command = true := by
  simp [CredentialReservationRow.matches, PgStore.reservationRow,
    BucketPermissions.fromValue_toValue]

theorem create_observed {command : CreateCredentialCommand} {o : Uuid}
    {context : CreateCredentialContext}
    (h : (PrepareCall.createCredential command).exec store env db = .ok (.execute o context, db')) :
    (PrepareCall.createCredential command).Observed db' context := by
  obtain ⟨-, claimed, db₁, hc, hb⟩ := prepare_body h
  obtain ⟨-, -, ⟨service, row, hready, hbucket⟩, hres⟩ := create_prepared hc hb
  have hready' : db'.Ready command.operation service row := by
    rcases hres with ⟨_, -, -, -, -, ⟨t, u, -, -, rfl⟩, -⟩ | ⟨-, -, -, t, u, -, -, -, rfl⟩
    · exact hready
    · exact hready
  have hbucket' : context.bucket = row.record := hbucket
  refine ⟨⟨service, row, hready', by rw [hbucket']⟩, ?_⟩
  rcases hres with ⟨held, hl, -, -, -, ⟨t, u, ht, -, rfl⟩, c, hmem, ho, hm, hid⟩ |
    ⟨-, -, hid, t, u, hi, hu, -, rfl⟩
  · -- a takeover: the receipt and its reservation carry the new operation id
    have hkey : held.idempotencyKey = command.operation.idempotencyKey := Table.lookup_key hl
    rw [hkey] at ht
    exact ⟨held.takenOver env, Table.lookup_updated ht (fun _ => rfl) hl, c, hmem, ho, hm, hid.symm⟩
  · exact ⟨.reserved env command.operation, Table.lookup_inserted hi, _,
      (Table.mem_insert hu).mpr (.inr rfl), rfl, reservationRow_matches command env.operationId,
      hid.symm⟩

/-- **the context of an answer describes the database it leaves** -/
theorem prepare_observed {call : PrepareCall} {o : Uuid} {context : call.Context}
    (h : call.exec store env db = .ok (.execute o context, db')) : call.Observed db' context := by
  obtain ⟨-, claimed, db₁, hc, hb⟩ := prepare_body h
  cases call with
  | reconcile command =>
    obtain ⟨-, -, ⟨pid, applied, ht, hcontext⟩, htext, db₂, v, hg, hv, rfl⟩ :=
      reconcile_prepared hc hb
    obtain rfl : context = ⟨command.desiredBucket pid, applied⟩ := hcontext
    rw [hg.frame]
    exact ⟨ht, rfl, htext, name_reserved hv⟩
  | delete command =>
    obtain ⟨-, -, ⟨service, row, hl, ho, hp, hd, hsucc, hbucket, hphys, hrec⟩, hkeys, hg⟩ :=
      delete_prepared hc hb
    have hrec' : DeleteContext.bucket context = row.record := hrec
    rw [hg.frame]
    exact ⟨service, row, hl, ho, hp, hd, hsucc, hbucket, hphys, by rw [hrec'], hkeys⟩
  | createCredential command => exact create_observed h
  | revokeCredential command =>
    obtain ⟨-, -, hready, hcred, hg⟩ := revoke_prepared hc hb
    rw [hg.frame]
    exact ⟨hready, hcred⟩

/-! ## kept while the receipt is held -/

/-- a receipt that is held at the end of a run was held all along -/
theorem held_all_along {k : Uuid} {tr : List CallRecord} {row row' : ReceiptRow}
    (h : Run (StoreStep store) db tr db') (hl : db.receipts.lookup k = some row)
    (hl' : db'.receipts.lookup k = some row') (hs' : row'.state = .inProgress) :
    row.state = .inProgress := by
  obtain ⟨q, hq, -, hdone⟩ := receipt_kept h hl
  by_contra hne
  obtain rfl : q = row' := Option.some.inj (hq.symm.trans hl')
  exact hne (hdone hne ▸ hs')

theorem Database.Untouched.activeGarageKeys {s : Uuid} (hu : db.Untouched db' s) :
    db'.activeGarageKeys s = db.activeGarageKeys s := by
  have hselect : ∀ d : Database, (d.credentials.select fun c =>
      decide (c.serviceInstanceId = s) && decide (c.status = .active)) =
      (d.credentials.select fun c => decide (c.serviceInstanceId = s)).filter
        fun c => decide (c.status = .active) := by
    intro d
    simp only [Table.select, List.filter_filter, Bool.and_comm]
  unfold Database.activeGarageKeys
  rw [hselect db', hu.credentials, ← hselect db]

/-- the bucket of a service that is not touched, up to its usage -/
theorem Database.Untouched.bucket_record {s : Uuid} (hu : db.Untouched db' s) {row : BucketRow}
    (hl : db.buckets.lookup s = some row) :
    ∃ row', db'.buckets.lookup s = some row' ∧ row'.bucketName = row.bucketName ∧
      row'.physicalBucketId = row.physicalBucketId ∧
      row'.record.unmeasured = row.record.unmeasured := by
  obtain ⟨row', hl', hsame⟩ := bucket_untouched hu.bucket hl
  obtain ⟨hname, hphys⟩ := unmeasured_fields hsame
  exact ⟨row', hl', hname, hphys, unmeasured_record hsame⟩

theorem Database.Untouched.credential {s : Uuid} (hu : db.Untouched db' s) {c : CredentialRow}
    {id : Uuid} (hl : db.credentials.lookup id = some c) (hs : c.serviceInstanceId = s) :
    db'.credentials.lookup id = some c := by
  have hmem : c ∈ db'.credentials.select (fun c => decide (c.serviceInstanceId = s)) := by
    rw [hu.credentials]
    exact Table.mem_select.mpr ⟨Table.lookup_mem hl, decide_eq_true hs⟩
  rw [← Table.lookup_key hl]
  exact Table.lookup_of_mem (Table.mem_select.mp hmem).1

/-- **one step keeps what was observed, as long as the receipt is held** -/
theorem PrepareCall.Observed.step {call : PrepareCall} {context : call.Context}
    (hx : db.Exclusive) (h : StoreStep store db r db') {row row' : ReceiptRow}
    (hl : db.receipts.lookup call.operation.idempotencyKey = some row)
    (hreq : row.request = call.operation) (hs : row.state = .inProgress)
    (hl' : db'.receipts.lookup call.operation.idempotencyKey = some row')
    (hreq' : row'.request = call.operation) (hs' : row'.state = .inProgress)
    (hobs : call.Observed db context) : call.Observed db' context := by
  have hb : db.Busy call.operation.idempotencyKey call.operation.serviceInstanceId :=
    ⟨row, hl, hs, congrArg OperationRequest.serviceInstanceId hreq⟩
  have hb' : db'.Busy call.operation.idempotencyKey call.operation.serviceInstanceId :=
    ⟨row', hl', hs', congrArg OperationRequest.serviceInstanceId hreq'⟩
  have hu := held_untouched hx h hb hb'
  -- the bucket of a ready service
  have hready : ∀ {operation : OperationRequest} {service : ServiceRow} {b : BucketRow},
      db.Untouched db' operation.serviceInstanceId → db.Ready operation service b →
      ∃ b', db'.Ready operation service b' ∧ b'.record.unmeasured = b.record.unmeasured := by
    intro operation service b hu hready
    obtain ⟨hservice, ho, hp, hphase, hgen, hbucket, hphys⟩ := hready
    obtain ⟨b', hbucket', -, hphys', hrecord⟩ := hu.bucket_record hbucket
    exact ⟨b', ⟨hu.service.trans hservice, ho, hp, hphase, hgen, hbucket', hphys'.symm ▸ hphys⟩,
      hrecord⟩
  cases call with
  | reconcile command =>
    obtain ⟨htarget, hdesired, htext, name, hname, hservice⟩ := hobs
    refine ⟨?_, hdesired, htext, name, name_kept hx h hb hb' hname hservice, hservice⟩
    rcases htarget with ⟨hnone, hp, ha⟩ | ⟨service, b, hser, ho, hp, hd, hg, hbk, hn, hpid, happ⟩
    · exact .inl ⟨hu.service.trans hnone, hp, ha⟩
    · obtain ⟨b', hbk', hname', hphys', -⟩ := hu.bucket_record hbk
      exact .inr ⟨service, b', hu.service.trans hser, ho, hp, hd, hg, hbk', hname'.trans hn,
        hpid.trans hphys'.symm, happ⟩
  | delete command =>
    obtain ⟨service, b, hser, ho, hp, hd, hsucc, hbk, hphys, hrec, hkeys⟩ := hobs
    obtain ⟨b', hbk', -, hphys', hrec'⟩ := hu.bucket_record hbk
    exact ⟨service, b', hu.service.trans hser, ho, hp, hd, hsucc, hbk', hphys'.symm ▸ hphys,
      hrec.trans hrec'.symm, hkeys.trans hu.activeGarageKeys.symm⟩
  | createCredential command =>
    obtain ⟨⟨service, b, hrdy, hrec⟩, receipt, hreceipt, c, hc, ho, hm, hid⟩ := hobs
    obtain ⟨b', hrdy', hrec'⟩ := hready hu hrdy
    refine ⟨⟨service, b', hrdy', hrec.trans hrec'.symm⟩, row', hl', _,
      reservation_kept h hc hreceipt ho.symm hl' hs', rfl, hm, hid⟩
  | revokeCredential command =>
    obtain ⟨⟨service, b, hrdy⟩, c, hc, hcs, hcontext⟩ := hobs
    obtain ⟨b', hrdy', -⟩ := hready hu hrdy
    exact ⟨⟨service, b', hrdy'⟩, c, hu.credential hc hcs, hcs, hcontext⟩

/-- **a whole run keeps it, as long as the receipt is held at the end** -/
theorem PrepareCall.Observed.run {call : PrepareCall} {context : call.Context}
    {tr : List CallRecord} {row row' : ReceiptRow} (hx : db.Exclusive)
    (h : Run (StoreStep store) db tr db')
    (hl : db.receipts.lookup call.operation.idempotencyKey = some row)
    (hreq : row.request = call.operation)
    (hl' : db'.receipts.lookup call.operation.idempotencyKey = some row')
    (hs' : row'.state = .inProgress) (hobs : call.Observed db context) :
    call.Observed db' context := by
  induction h generalizing row with
  | nil => exact hobs
  | cons hstep hrun ih =>
    obtain ⟨row₁, hl₁, hreq₁, -⟩ := receipt_kept (.single hstep) hl
    refine ih (hx.step hstep) hl₁ (hreq₁.trans hreq) hl' ?_
    refine hobs.step hx hstep hl hreq ?_ hl₁ (hreq₁.trans hreq) ?_
    · exact held_all_along (.cons hstep hrun) hl hl' hs'
    · exact held_all_along hrun hl₁ hl' hs'

/-! ## and read again by a takeover -/

/-- no receipt has the operation id a call would hand out -/
def Database.FreshOperation (db : Database) (env : CallEnv) : Prop :=
  ∀ q ∈ db.receipts.rows, q.operationId ≠ env.operationId

/-- a takeover of a held receipt under a fresh operation id goes through -/
theorem takeover_goes_through (hlink : db.Linked) (hfresh : db.FreshOperation env) {k : Uuid}
    {row : ReceiptRow} (hl : db.receipts.lookup k = some row) (hs : row.state = .inProgress) :
    ∃ db₁, db.TakenOver env row db₁ := by
  have hkey : row.idempotencyKey = k := Table.lookup_key hl
  -- the receipt stays well formed and its new operation id is unique
  have hreceipts : ∃ t, db.receipts.updateWhere (receiptSchema.hasKey row.idempotencyKey)
      (ReceiptRow.takenOver env) = .ok t := by
    refine (Table.update_key_ok_iff (f := ReceiptRow.takenOver env) (hkey ▸ hl)
      fun _ => rfl).mpr ⟨?_, fun q hq _ => ?_⟩
    · have hcheck := Table.lookup_check hl
      simp only [receiptSchema, ReceiptRow.takenOver, hs, Bool.and_eq_true] at hcheck ⊢
      refine ⟨⟨hcheck.1.1, by simp⟩, hcheck.2.1, rfl⟩
    · exact decide_eq_false fun h => hfresh q hq h.symm
  -- the reservation of the old operation id, if there is one, moves
  have hreservations : ∃ u, db.credentialReservations.updateWhere
      (fun c => decide (c.operationId = row.operationId))
      (fun c => { c with operationId := env.operationId }) = .ok u := by
    by_cases hnone : ∃ c ∈ db.credentialReservations.rows, c.operationId = row.operationId
    · obtain ⟨c, hc, ho⟩ := hnone
      refine Table.updateWhere_ok_of_key _ (k := c.credentialId) (fun d hd hdo => ?_)
        (fun _ => rfl) (fun d hd _ => db.credentialReservations.checked d hd)
        fun d hd hdo q hq hne => ?_
      · rw [reservation_unique hd hc ((of_decide_eq_true hdo).trans ho.symm)]
        rfl
      · have hqo : q.operationId ≠ env.operationId := by
          obtain ⟨receipt, hmem, hback⟩ := hlink q hq
          rw [← hback.operationId]
          exact hfresh receipt hmem
        have hdq : credentialReservationSchema.clash d q = false := by
          refine Bool.eq_false_iff.mpr fun hclash => hne ?_
          rw [← db.credentialReservations.eq_of_clash hd hq hclash,
            reservation_unique hd hc ((of_decide_eq_true hdo).trans ho.symm)]
          rfl
        have hunique := (Schema.clash_eq_false.mp hdq).2
        simp only [credentialReservationSchema, Bool.or_eq_false_iff] at hunique ⊢
        exact ⟨decide_eq_false (Ne.symm hqo), hunique.2⟩
    · refine ⟨_, Table.updateWhere_none fun c hc => decide_eq_false fun ho => hnone ⟨c, hc, ho⟩⟩
  obtain ⟨t, ht⟩ := hreceipts
  obtain ⟨u, hu⟩ := hreservations
  exact ⟨_, t, u, ht, hu, rfl⟩

theorem head?_of_unique {α : Type} {l : List α} {a : α} (ha : a ∈ l) (h : ∀ b ∈ l, b = a) :
    l.head? = some a := by
  cases l with
  | nil => cases ha
  | cons b l => rw [List.head?_cons, h b List.mem_cons_self]

/-- the reservation of a create, found again under the new operation id -/
theorem reservation_found {row : ReceiptRow} {db₁ : Database} (ht : db.TakenOver env row db₁)
    {c : CredentialReservationRow} (hc : c ∈ db.credentialReservations.rows)
    (ho : c.operationId = row.operationId) :
    (db₁.credentialReservations.select fun d => decide (d.operationId = env.operationId)).head? =
      some { c with operationId := env.operationId } := by
  obtain ⟨t, u, -, hu, rfl⟩ := ht
  have hmem : { c with operationId := env.operationId } ∈ u.rows :=
    (Table.mem_updateWhere hu).mpr ⟨c, hc, if_pos (decide_eq_true ho)⟩
  refine head?_of_unique (Table.mem_select.mpr ⟨hmem, decide_eq_true rfl⟩) fun d hd => ?_
  obtain ⟨hd, hdo⟩ := Table.mem_select.mp hd
  exact reservation_unique hd hmem (of_decide_eq_true hdo)

section
variable {db₁ : Database} {o : Uuid}

theorem reconcile_again {command : ReconcileCommand} {context : ReconcileContext}
    (hc : db.Claimed env command.operation (some o) db₁)
    (hheld : db.OnlyHeld command.operation.serviceInstanceId command.operation.idempotencyKey)
    (hobs : (PrepareCall.reconcile command).Observed db context) :
    ∃ db', PgStore.prepareReconcileBody env command (some o) db₁ = .ok ((o, context), db') := by
  obtain ⟨htarget, hdesired, htext, name, hname, hservice⟩ := hobs
  have hframe := hc.frame
  have htarget₁ : db₁.ReconcileTarget command context.bucket.physicalBucketId
      context.previouslyApplied := by
    rw [hframe]
    exact htarget
  have hname₁ : db₁.nameReservations.lookup command.spec.bucketName = some name := by
    rw [hframe]
    exact hname
  simp only [PgStore.prepareReconcileBody, Tx.bind_eq_ok, rejectParallelOperation_eq_ok,
    reconcileTarget_eq_ok, reserveBucketName_eq_ok, grantReceipt_eq_ok, Tx.pure_eq_ok]
  refine ⟨db₁, (), db₁, ⟨hc.onlyHeld.mpr hheld, rfl⟩,
    (context.bucket.physicalBucketId, context.previouslyApplied), db₁, ⟨rfl, htarget₁⟩, (), db₁,
    ⟨htext, db₁.nameReservations, .inr ⟨name, hname₁, hservice, rfl⟩, rfl⟩, o, db₁,
    .inl ⟨rfl, rfl⟩, ?_, rfl⟩
  obtain ⟨bucket, applied⟩ := context
  exact congrArg (fun b => (o, (⟨b, applied⟩ : ReconcileContext))) hdesired

theorem delete_again {command : DeleteCommand} {context : DeleteContext}
    (hc : db.Claimed env command.operation (some o) db₁)
    (hheld : db.OnlyHeld command.operation.serviceInstanceId command.operation.idempotencyKey)
    (hobs : (PrepareCall.delete command).Observed db context) :
    ∃ context' db', PgStore.prepareDeleteBody env command (some o) db₁ =
        .ok ((o, context'), db') ∧
      context'.bucket.unmeasured = context.bucket.unmeasured ∧
      context'.garageKeyIds = context.garageKeyIds := by
  obtain ⟨service, row, hl, horg, hp, hd, hsucc, hb, hphys, hrec, hkeys⟩ := hobs
  have hframe := hc.frame
  refine ⟨⟨row.record, context.garageKeyIds⟩, db₁, ?_, hrec.symm, rfl⟩
  simp only [PgStore.prepareDeleteBody, fetchServiceRow, PgStore.checkDeleteGeneration,
    PgStore.activeGarageKeyIds, Tx.bind_eq_ok, rejectParallelOperation_eq_ok, Tx.read_eq_ok,
    Tx.require_eq_ok, ensureScope_eq_ok, Tx.ensure_eq_ok, fetchBucketRow_eq_ok,
    grantReceipt_eq_ok, Tx.pure_eq_ok, decide_eq_true_eq]
  refine ⟨(), db₁, ⟨hc.onlyHeld.mpr hheld, rfl⟩, some service, db₁, ⟨?_, rfl⟩, service, db₁,
    ⟨rfl, rfl⟩, (), db₁, ⟨⟨horg, hp⟩, rfl⟩, (), db₁, ⟨hd, rfl⟩, (), db₁,
    ⟨command.generation, db₁, ⟨hsucc, rfl⟩, (), db₁, ⟨Int64.le_refl _, rfl⟩, rfl, rfl⟩,
    row.record, db₁, ⟨rfl, row, ?_, rfl⟩, (), db₁, ⟨hphys, rfl⟩, context.garageKeyIds, db₁,
    ⟨?_, rfl⟩, o, db₁, .inl ⟨rfl, rfl⟩, rfl, rfl⟩
  · rw [hframe]
    exact hl.symm
  · rw [hframe]
    exact hb
  · rw [hframe]
    exact hkeys

theorem revoke_again {command : RevokeCredentialCommand} {context : RevokeCredentialContext}
    (hc : db.Claimed env command.operation (some o) db₁)
    (hheld : db.OnlyHeld command.operation.serviceInstanceId command.operation.idempotencyKey)
    (hobs : (PrepareCall.revokeCredential command).Observed db context) :
    ∃ db', PgStore.prepareRevokeCredentialBody env command (some o) db₁ =
      .ok ((o, context), db') := by
  obtain ⟨⟨service, row, hready⟩, credential, hcred, hs, rfl⟩ := hobs
  have hframe := hc.frame
  simp only [PgStore.prepareRevokeCredentialBody, Tx.bind_eq_ok, rejectParallelOperation_eq_ok,
    readyBucketInTransaction_eq_ok, Tx.read_eq_ok, Tx.require_eq_ok, grantReceipt_eq_ok,
    Tx.pure_eq_ok]
  refine ⟨db₁, (), db₁, ⟨hc.onlyHeld.mpr hheld, rfl⟩, row.record, db₁,
    ⟨rfl, service, row, ?_, rfl⟩, some credential, db₁, ⟨?_, rfl⟩, credential, db₁, ⟨rfl, rfl⟩, o,
    db₁, .inl ⟨rfl, rfl⟩, rfl, rfl⟩
  · rw [hframe]
    exact hready
  · rw [hframe]
    refine ((Option.filter_eq_some_iff).mpr ⟨hcred, decide_eq_true hs⟩).symm

theorem create_again (store : PgStore) {command : CreateCredentialCommand}
    {context : CreateCredentialContext} {row : ReceiptRow} (hl : db.receipts.lookup command.operation.idempotencyKey = some row)
    (hc : db.Claimed env command.operation (some env.operationId) db₁)
    (ht : db.TakenOver env row db₁)
    (hheld : db.OnlyHeld command.operation.serviceInstanceId command.operation.idempotencyKey)
    (hobs : (PrepareCall.createCredential command).Observed db context) :
    ∃ context' db', store.prepareCreateCredentialBody env command (some env.operationId) db₁ =
        .ok ((env.operationId, context'), db') ∧
      context'.bucket.unmeasured = context.bucket.unmeasured ∧
      context'.credentialId = context.credentialId := by
  obtain ⟨⟨service, b, hready, hrec⟩, receipt, hreceipt, c, hmem, hco, hm, hid⟩ := hobs
  obtain rfl : receipt = row := Option.some.inj (hreceipt.symm.trans hl)
  have hframe := hc.frame
  refine ⟨⟨b.record, c.credentialId⟩, db₁, ?_, hrec.symm, hid⟩
  refine Tx.bind_eq_ok.mpr ⟨b.record, db₁, readyBucketInTransaction_eq_ok.mpr
    ⟨rfl, service, b, ?_, rfl⟩, ?_⟩
  · rw [hframe]
    exact hready
  · simp only [PgStore.takeOverReservation, Tx.bind_eq_ok, rejectParallelOperation_eq_ok,
      Tx.read_eq_ok, Tx.require_eq_ok, Tx.ensure_eq_ok, Tx.pure_eq_ok]
    exact ⟨(), db₁, ⟨hc.onlyHeld.mpr hheld, rfl⟩, some { c with operationId := env.operationId },
      db₁, ⟨(reservation_found ht hmem hco).symm, rfl⟩, _, db₁, ⟨rfl, rfl⟩, (), db₁, ⟨hm, rfl⟩,
      rfl, rfl⟩

end

/-- **what was observed, the same call reads again when it takes its receipt over** -/
theorem prepare_again (store : PgStore) {call : PrepareCall} {context : call.Context}
    {row : ReceiptRow} (hv : call.validate = .ok ()) (hx : db.Exclusive) (hlink : db.Linked)
    (hfresh : db.FreshOperation env)
    (hl : db.receipts.lookup call.operation.idempotencyKey = some row)
    (hreq : row.request = call.operation) (hs : row.state = .inProgress)
    (he : row.expired env = true) (hobs : call.Observed db context) :
    ∃ context' db', call.exec store env db = .ok (.execute env.operationId context', db') ∧
      call.unmeasured context' = call.unmeasured context := by
  obtain ⟨db₁, ht⟩ := takeover_goes_through hlink hfresh hl hs
  have hc : db.Claimed env call.operation (some env.operationId) db₁ :=
    .inr ⟨row, hl, hreq, hs, he, rfl, ht⟩
  have hheld : db.OnlyHeld call.operation.serviceInstanceId call.operation.idempotencyKey := by
    intro q hq hqs hstate
    have hsame : q = row := hx q hq row (Table.lookup_mem hl)
      (hqs.trans (congrArg OperationRequest.serviceInstanceId hreq).symm) hstate hs
    rw [hsame]
    exact Table.lookup_key hl
  -- it remains to run the body of the call
  have hbody : ∀ {context' : call.Context} {db' : Database},
      call.body store env (some env.operationId) db₁ = .ok ((env.operationId, context'), db') →
      call.exec store env db = .ok (.execute env.operationId context', db') := by
    intro context' db' h
    exact prepare_eq_ok.mpr ⟨hv, .inr ⟨_, db₁, (env.operationId, context'), hc, h, rfl⟩⟩
  cases call with
  | reconcile command =>
    obtain ⟨db', h⟩ := reconcile_again hc hheld hobs
    exact ⟨context, db', hbody h, rfl⟩
  | delete command =>
    obtain ⟨context', db', h, hbucket, hkeys⟩ := delete_again hc hheld hobs
    exact ⟨context', db', hbody h, congrArg₂ DeleteContext.mk hbucket hkeys⟩
  | createCredential command =>
    obtain ⟨context', db', h, hbucket, hid⟩ := create_again store hl hc ht hheld hobs
    exact ⟨context', db', hbody h, congrArg₂ CreateCredentialContext.mk hbucket hid⟩
  | revokeCredential command =>
    obtain ⟨db', h⟩ := revoke_again hc hheld hobs
    exact ⟨context, db', hbody h, rfl⟩

/-- **A takeover succeeds and reproduces the context.**  A prepare call was answered `Execute`, and
after any further calls its receipt is still in progress with a lease that has run out.  Then the
same call is answered `Execute` again, under the operation id it has just drawn and with the same
context up to the usage of the bucket. -/
theorem takeover_reproduces {call : PrepareCall} {context : call.Context} {o : Uuid}
    {db₀ db₁ db₂ : Database} {env₀ : CallEnv} {tr : List CallRecord} {row : ReceiptRow}
    (hreach : Reachable store db₀)
    (hprep : StoreStep store db₀ ⟨env₀, .prepare call, .ok (.execute o context)⟩ db₁)
    (hrun : Run (StoreStep store) db₁ tr db₂)
    (hl : db₂.receipts.lookup call.operation.idempotencyKey = some row)
    (hs : row.state = .inProgress) (he : row.expired env = true)
    (hfresh : db₂.FreshOperation env) :
    ∃ context' db₃,
      StoreStep store db₂ ⟨env, .prepare call, .ok (.execute env.operationId context')⟩ db₃ ∧
      env.operationId ≠ row.operationId ∧ call.unmeasured context' = call.unmeasured context := by
  have hexec : call.exec store env₀ db₀ = .ok (.execute o context, db₁) := step_ok hprep
  have hv := (prepare_body hexec).1
  have hx : db₁.Exclusive := (reachable_exclusive hreach).step hprep
  have hlink : db₁.Linked := (reachable_linked hreach).step hprep
  obtain ⟨row₁, hl₁, hreq₁, -, -⟩ := executed_receipt hexec
  obtain ⟨row₂, hl₂, hreq₂, -⟩ := receipt_kept hrun hl₁
  obtain rfl : row₂ = row := Option.some.inj (hl₂.symm.trans hl)
  have hobs := (prepare_observed hexec).run hx hrun hl₁ hreq₁ hl hs
  obtain ⟨context', db₃, hagain, hsame⟩ := prepare_again store hv
    (hrun.invariant Database.Exclusive (fun _ _ _ hx hstep => hx.step hstep) hx)
    (hrun.invariant Database.Linked (fun _ _ _ hl hstep => hl.step hstep) hlink) hfresh hl
    (hreq₂.trans hreq₁) hs he hobs
  exact ⟨context', db₃, step_of_ok hagain, fun h => hfresh row₂ (Table.lookup_mem hl) h.symm, hsame⟩

/-- the create of service 10 is taken over 198 seconds after it was prepared, with a measurement of
the bucket in between -/
theorem takeover_reproduces_retrying :
    let call : PrepareCall := .createCredential (Sample.create 101 10 "key")
    let db₀ := (PgStore.reference.play Sample.serviceA Database.empty).2
    let db₁ := ((StoreCall.prepare call).run PgStore.reference (Sample.env 2 2) db₀).2
    let measure := [(Sample.env 3 3, StoreCall.recordUsage 1 2 10 7 1 (seconds 3))]
    let db₂ := (PgStore.reference.play measure db₁).2
    let context : CreateCredentialContext :=
      ⟨(Sample.reconcile 100 10 "a" "bucket-a" 1).desiredBucket (some "garage-a"), 2002⟩
    ∃ context' db₃, StoreStep PgStore.reference db₂
      ⟨Sample.env 200 4, .prepare call, .ok (.execute 1004 context')⟩ db₃ ∧
      call.unmeasured context' = call.unmeasured context := by
  intro call db₀ db₁ measure db₂ context
  have hprep : StoreStep PgStore.reference db₀
      ⟨Sample.env 2 2, .prepare call, .ok (.execute 1002 context)⟩ db₁ :=
    step_of_answer (by decide +kernel)
  have hrun : Run (StoreStep PgStore.reference) db₁ _ db₂ :=
    play_run PgStore.reference measure db₁
  obtain ⟨row, hl, hrow⟩ := (Option.any_eq_true _ _).mp (show
    (db₂.receipts.lookup 101).any (fun row => decide (row.state = .inProgress) &&
      row.expired (Sample.env 200 4)) = true by decide +kernel)
  rw [Bool.and_eq_true, decide_eq_true_eq] at hrow
  have hfresh : ∀ q ∈ db₂.receipts.rows, q.operationId ≠ (Sample.env 200 4).operationId := by
    decide +kernel
  obtain ⟨context', db₃, hstep, -, hsame⟩ := takeover_reproduces
    ⟨_, play_run _ Sample.serviceA _⟩ hprep hrun hl hrow.1 hrow.2 hfresh
  exact ⟨context', db₃, hstep, hsame⟩

end

end Syouyu
