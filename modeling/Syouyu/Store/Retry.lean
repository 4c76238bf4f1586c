import Syouyu.Store.Contexts

/-!
# Operations that are tried again

An operation is prepared, perhaps several times, and completed at most once.  Beside its receipt it
leaves what one attempt leaves that is not interrupted.

* `Fresh`                  the ids and times that an operation is given on its way;
* `PrepareCall.reserves`   what a prepare call writes beside the receipt;
* `PrepareCall.writes`     what the operation writes in all;
* `Ongoing`                the database while the operation is in progress, `ongoing_first`,
                           `Ongoing.again`, `Ongoing.renewed`;
* `Ongoing.completed`     **what is there after the completion, however often the operation was
                           prepared**.
-/

set_option linter.unusedSectionVars false

namespace Syouyu
open Lib

/-- ids and times that are not determined by the request: those of the first prepare call, those of
the completing call, the operation id it was completed under, and what Garage has named -/
structure Fresh where
  prepared : CallEnv
  completed : CallEnv
  operationId : Uuid
  physicalBucketId : String
  credential : NewCredential
  requestId : String

namespace PrepareCall

/-- what a prepare call writes beside the receipt -/
def reserves (env : CallEnv) (operationId : Uuid) : PrepareCall → StoreTx Unit
  | .reconcile command =>
    reserveBucketName env command.spec.bucketName command.operation.serviceInstanceId
  | .createCredential command =>
    insertRow credentialReservationsPart mapDatabaseError
      (PgStore.reservationRow env command operationId)
  | _ => pure ()

/-- how the operation is completed -/
def completion (v : Fresh) : PrepareCall → Completion
  | .reconcile command => .reconcile command v.physicalBucketId
  | .delete command => .delete command
  | .createCredential command =>
    .createCredential command
      { v.credential with name := command.name, permissions := command.permissions }
  | .revokeCredential command => .revokeCredential command

/-- what the operation writes beside its receipt, attempted once -/
def writes (v : Fresh) (event : AuditEvent) (call : PrepareCall) : StoreTx Unit := do
  call.reserves v.prepared v.operationId
  (call.completion v).before v.completed v.operationId
  insertAudit v.completed event

end PrepareCall

/-- **the operation is in progress**, under the operation id `o`; it was first prepared on `db₀` -/
structure Ongoing (call : PrepareCall) (db₀ : Database) (env₀ : CallEnv) (o : Uuid)
    (db : Database) : Prop where
  linked : db.Linked
  held : db.HeldBy call.operation o
  reserved : call.reserves env₀ o db₀ = .ok ((), { db with receipts := db₀.receipts })
  /-- only the creation of a credential has a reservation -/
  spare : (∀ command, call ≠ .createCredential command) →
    ∀ c ∈ db.credentialReservations.rows, c.operationId ≠ o

section
variable {store : PgStore} {env env₀ : CallEnv} {db₀ db db' : Database} {call : PrepareCall}
  {o o' : Uuid}

theorem reserves_frame {u : Unit} (h : call.reserves env o db = .ok (u, db')) :
    db'.services = db.services ∧ db'.buckets = db.buckets ∧ db'.credentials = db.credentials := by
  cases call with
  | reconcile command =>
    obtain ⟨-, v, -, rfl⟩ := reserveBucketName_eq_ok.mp h
    exact ⟨rfl, rfl, rfl⟩
  | createCredential command =>
    obtain ⟨t, -, -, rfl⟩ := insertRow_eq_ok.mp h
    exact ⟨rfl, rfl, rfl⟩
  | delete command =>
    obtain ⟨-, rfl⟩ := Tx.pure_eq_ok.mp h
    exact ⟨rfl, rfl, rfl⟩
  | revokeCredential command =>
    obtain ⟨-, rfl⟩ := Tx.pure_eq_ok.mp h
    exact ⟨rfl, rfl, rfl⟩

/-- services, buckets and credentials are those of the first prepare call -/
theorem Ongoing.frame (h : Ongoing call db₀ env₀ o db) :
    db.services = db₀.services ∧ db.buckets = db₀.buckets ∧ db.credentials = db₀.credentials := by
  obtain ⟨hservices, hbuckets, hcredentials⟩ := reserves_frame h.reserved
  exact ⟨hservices, hbuckets, hcredentials⟩

/-! ## the first prepare call -/

/-- a new receipt does not have the operation id of a reservation -/
theorem new_operation_spare (hlink : db.Linked)
    (hl : db.receipts.lookup call.operation.idempotencyKey = none)
    (hi : db.receipts.insert (.reserved env call.operation) = .ok db'.receipts)
    {c : CredentialReservationRow} (hc : c ∈ db.credentialReservations.rows) :
    c.operationId ≠ env.operationId := by
  intro heq
  obtain ⟨q, hq, hbacks⟩ := hlink c hc
  have hnew : ReceiptRow.reserved env call.operation ∈ db'.receipts.rows :=
    (Table.mem_insert hi).mpr (.inr rfl)
  have hold : q ∈ db'.receipts.rows := (Table.mem_insert hi).mpr (.inl hq)
  have hsame : q = .reserved env call.operation :=
    receipt_unique hold hnew (hbacks.operationId.trans heq)
  refine Table.lookup_eq_none.mp hl q hq ?_
  rw [hsame]
  rfl

theorem ongoing_first {context : call.Context} (hlink : db.Linked)
    (hl : db.receipts.lookup call.operation.idempotencyKey = none)
    (h : call.exec store env db = .ok (.execute o context, db')) : Ongoing call db env o db' := by
  obtain ⟨-, claimed, db₁, hclaimed, hbody⟩ := prepare_body h
  obtain ⟨rfl, -⟩ := prepare_executed h
  have hstep : StoreStep store db ⟨env, .prepare call, .ok (.execute env.operationId context)⟩ db' :=
    step_of_ok h
  refine ⟨hlink.step hstep, ?_, ?_, fun hne c hc => ?_⟩
  · obtain ⟨row, hrow⟩ := executed_receipt h
    exact ⟨row, hrow⟩
  · cases call with
    | reconcile command =>
      obtain ⟨-, -, -, htext, db₂, v, hgranted, hname, rfl⟩ := reconcile_prepared hclaimed hbody
      refine reserveBucketName_eq_ok.mpr ⟨htext, v, hname, ?_⟩
      cases hgranted with
      | new => rfl
      | takeover hl' => exact absurd_none_some hl hl'
    | delete command =>
      obtain ⟨-, -, -, -, hgranted⟩ := delete_prepared hclaimed hbody
      cases hgranted with
      | new => rfl
      | takeover hl' => exact absurd_none_some hl hl'
    | revokeCredential command =>
      obtain ⟨-, -, -, -, hgranted⟩ := revoke_prepared hclaimed hbody
      cases hgranted with
      | new => rfl
      | takeover hl' => exact absurd_none_some hl hl'
    | createCredential command =>
      obtain ⟨-, -, -, ⟨row, hl', -⟩ | ⟨-, -, -, t, u, -, hu, hfk, rfl⟩⟩ :=
        create_prepared hclaimed hbody
      · exact absurd_none_some hl hl'
      · exact insertRow_eq_ok.mpr ⟨u, hu, hfk, rfl⟩
  · have hchange := prepare_operation h
    generalize hstore : StoreCall.prepare call = storeCall at hchange
    cases hchange with
    | same hreceipts _ =>
      obtain ⟨row, hrow, -⟩ := executed_receipt h
      rw [hreceipts] at hrow
      exact absurd_none_some hl hrow
    | granted _ hi hsame _ =>
      cases hstore
      rw [hsame] at hc
      exact new_operation_spare hlink hl hi hc
    | reserved _ _ _ =>
      cases hstore
      exact absurd rfl (hne _)
    | takenOver hl' =>
      cases hstore
      exact absurd_none_some hl hl'
    | finished => cases hstore
    | renewed => cases hstore

/-! ## another prepare call -/

/-- a receipt that is taken over does not get the operation id of a reservation of another -/
theorem taken_operation_spare {row : ReceiptRow} (hlink : db.Linked)
    (hl : db.receipts.lookup call.operation.idempotencyKey = some row)
    (ht : db.TakenOver env row db') {c : CredentialReservationRow}
    (hc : c ∈ db.credentialReservations.rows) (hne : c.operationId ≠ row.operationId) :
    c.operationId ≠ env.operationId := by
  intro heq
  obtain ⟨t, u, ht, -, rfl⟩ := ht
  have hkey : row.idempotencyKey = call.operation.idempotencyKey := Table.lookup_key hl
  rw [hkey] at ht
  obtain ⟨q, hq, hbacks⟩ := hlink c hc
  have hnew : row.takenOver env ∈ t.rows := Table.mem_update_key ht hl
  have hother : receiptSchema.key q ≠ call.operation.idempotencyKey := by
    intro hsame
    have hq' := Table.lookup_of_mem hq
    rw [hsame, hl] at hq'
    exact hne (Option.some.inj hq' ▸ hbacks.operationId.symm)
  have hold : q ∈ t.rows := Table.mem_update_other ht hq hother
  have hsame : q = row.takenOver env := receipt_unique hold hnew (hbacks.operationId.trans heq)
  exact hother (hsame ▸ hkey)

/-- a takeover that finds no reservation writes the receipt only -/
theorem TakenOver.spared {row : ReceiptRow} (ht : db.TakenOver env row db')
    (hspare : ∀ c ∈ db.credentialReservations.rows, c.operationId ≠ row.operationId) :
    db' = { db with receipts := db'.receipts } := by
  obtain ⟨t, u, -, hu, rfl⟩ := ht
  rw [Table.updateWhere_none fun c hc => decide_eq_false (hspare c hc)] at hu
  rw [← Except.ok.inj hu]

/-- the name that the operation has reserved -/
theorem NameReserved.again {name : String} {s : Uuid} {v v' : Table nameReservationSchema}
    (h : db₀.NameReserved env₀ name s v) (hdb : db.nameReservations = v)
    (h' : db.NameReserved env name s v') : v' = v := by
  obtain ⟨hnone, -⟩ | ⟨-, -, -, rfl⟩ := h'
  · obtain ⟨-, hi⟩ | ⟨old, hold, -, rfl⟩ := h
    · rw [hdb] at hnone
      exact absurd_none_some hnone (Table.lookup_inserted hi)
    · rw [hdb] at hnone
      exact absurd_none_some hnone hold
  · exact hdb

/-- what another prepare call has written -/
theorem Granted.taken {operation : OperationRequest} {row : ReceiptRow}
    (h : db.Granted env operation db')
    (hl : db.receipts.lookup operation.idempotencyKey = some row) : db.TakenOver env row db' := by
  cases h with
  | new hnone => exact absurd_none_some hnone hl
  | takeover hl' _ _ _ ht =>
    obtain rfl := Option.some.inj (hl.symm.trans hl')
    exact ht

/-- without a reservation, another prepare call writes the receipt only -/
theorem Ongoing.again_spared {row : ReceiptRow} {context : call.Context}
    (hu : Ongoing call db₀ env₀ row.operationId db)
    (hl : db.receipts.lookup call.operation.idempotencyKey = some row)
    (h : call.exec store env db = .ok (.execute o' context, db'))
    (hne : ∀ command, call ≠ .createCredential command) :
    (∃ db₂, db.TakenOver env row db₂) ∧ db' = { db with receipts := db'.receipts } := by
  obtain ⟨-, claimed, db₁, hclaimed, hbody⟩ := prepare_body h
  have hspare := hu.spare hne
  cases call with
  | reconcile command =>
    obtain ⟨-, -, -, -, db₂, v, hgranted, hname, rfl⟩ := reconcile_prepared hclaimed hbody
    have htaken := Granted.taken hgranted hl
    have hdb₂ := TakenOver.spared htaken hspare
    obtain ⟨-, v₀, hname₀, heq⟩ := reserveBucketName_eq_ok.mp hu.reserved
    have hv : v = db.nameReservations :=
      (NameReserved.again hname₀ (congrArg Database.nameReservations heq) hname).trans
        (congrArg Database.nameReservations heq).symm
    refine ⟨⟨db₂, htaken⟩, ?_⟩
    rw [hv, hdb₂]
  | delete command =>
    obtain ⟨-, -, -, -, hgranted⟩ := delete_prepared hclaimed hbody
    have htaken := Granted.taken hgranted hl
    exact ⟨⟨db', htaken⟩, TakenOver.spared htaken hspare⟩
  | revokeCredential command =>
    obtain ⟨-, -, -, -, hgranted⟩ := revoke_prepared hclaimed hbody
    have htaken := Granted.taken hgranted hl
    exact ⟨⟨db', htaken⟩, TakenOver.spared htaken hspare⟩
  | createCredential command => exact absurd rfl (hne command)

/-- the reservation of a credential moves to the new operation id -/
theorem reservation_again {command : CreateCredentialCommand} {row : ReceiptRow}
    {context : CreateCredentialContext}
    (hreserved : (PrepareCall.createCredential command).reserves env₀ row.operationId db₀ =
      .ok ((), { db with receipts := db₀.receipts }))
    (hl : db.receipts.lookup command.operation.idempotencyKey = some row)
    (h : (PrepareCall.createCredential command).exec store env db = .ok (.execute o' context, db')) :
    (PrepareCall.createCredential command).reserves env₀ env.operationId db₀ =
      .ok ((), { db' with receipts := db₀.receipts }) := by
  obtain ⟨-, claimed, db₁, hclaimed, hbody⟩ := prepare_body h
  obtain ⟨-, -, -, ⟨row', hl', -, -, -, ⟨t, u, -, hu, rfl⟩, -⟩ | ⟨hnone, -⟩⟩ :=
    create_prepared hclaimed hbody
  · obtain rfl := Option.some.inj (hl.symm.trans hl')
    obtain ⟨v, hi, hfk, heq⟩ := insertRow_eq_ok.mp hreserved
    have hv : db.credentialReservations = v := congrArg Database.credentialReservations heq
    -- the reservation is the only row with the operation id
    have hother : ∀ q ∈ db₀.credentialReservations.rows,
        decide (q.operationId = row.operationId) = false := by
      intro q hq
      have hclash := (Table.insert_eq_ok.mp hi).2.1 q hq
      have hunique := (Schema.clash_eq_false.mp hclash).2
      exact (Bool.or_eq_false_iff.mp hunique).1
    rw [hv] at hu
    have hmoved := Table.insert_update hi hu (decide_eq_true rfl) hother
    exact insertRow_eq_ok.mpr ⟨u, hmoved, hfk,
      congrArg (fun d : Database => { d with credentialReservations := u }) heq⟩
  · exact absurd_none_some hnone hl

/-- **the operation is taken over**: only receipt and operation id are new -/
theorem Ongoing.again {context : call.Context} (hu : Ongoing call db₀ env₀ o db)
    (h : call.exec store env db = .ok (.execute o' context, db')) :
    Ongoing call db₀ env₀ o' db' := by
  obtain ⟨row, hl, -, rfl, -⟩ := hu.held
  obtain ⟨rfl, -⟩ := prepare_executed h
  have hstep : StoreStep store db ⟨env, .prepare call, .ok (.execute env.operationId context)⟩ db' :=
    step_of_ok h
  obtain ⟨row', hheld⟩ := executed_receipt h
  by_cases hcreate : ∃ command, call = .createCredential command
  · obtain ⟨command, rfl⟩ := hcreate
    exact ⟨hu.linked.step hstep, ⟨row', hheld⟩, reservation_again hu.reserved hl h,
      fun hne => absurd rfl (hne command)⟩
  · have hne : ∀ command, call ≠ .createCredential command :=
      fun command heq => hcreate ⟨command, heq⟩
    obtain ⟨⟨db₂, htaken⟩, hdb'⟩ := hu.again_spared hl h hne
    refine ⟨hu.linked.step hstep, ⟨row', hheld⟩, ?_, fun _ c hc => ?_⟩
    · have hsame : call.reserves env₀ env.operationId = call.reserves env₀ row.operationId := by
        cases call with
        | createCredential command => exact absurd rfl (hne command)
        | _ => rfl
      rw [hsame, hu.reserved, hdb']
    · rw [hdb'] at hc
      exact taken_operation_spare hu.linked hl htaken hc (hu.spare hne c hc)

/-! ## the other calls -/

theorem Ongoing.renewed {u : Unit} (hu : Ongoing call db₀ env₀ o db)
    (h : StoreStep store db ⟨env, .renewOperation call.operation o, .ok u⟩ db') :
    Ongoing call db₀ env₀ o db' := by
  obtain ⟨-, ⟨row, hl, hrequest, ho, hstate⟩, t, ht, rfl⟩ := renewOperation_eq_ok.mp (step_ok h)
  refine ⟨hu.linked.step h, ⟨row.renewed env, ?_, hrequest, ho, hstate⟩, hu.reserved, hu.spare⟩
  exact Table.lookup_updated ht (fun _ => rfl) hl

/-- what a completing call writes first does not read the receipts -/
theorem before_receipts {completion : Completion} {u : Unit} (t : Table receiptSchema)
    (h : completion.before env o db = .ok (u, db')) :
    completion.before env o { db with receipts := t } = .ok (u, { db' with receipts := t }) := by
  cases completion with
  | reconcile command id =>
    obtain ⟨db₁, db₂, hservice, hbucket, rfl⟩ := applyReconcile_eq_ok.mp h
    obtain ⟨hcheck, a, rfl, hcase⟩ := upsertService_eq_ok.mp hservice
    obtain ⟨hcheck', b, rfl, hcase'⟩ := upsertBucket_eq_ok.mp hbucket
    exact applyReconcile_eq_ok.mpr ⟨{ db with services := a, receipts := t },
      { db with services := a, buckets := b, receipts := t },
      upsertService_eq_ok.mpr ⟨hcheck, a, rfl, hcase⟩,
      upsertBucket_eq_ok.mpr ⟨hcheck', b, rfl, hcase'⟩, rfl⟩
  | delete command =>
    obtain ⟨c, a, old, hc, hl, hscope, ha, rfl⟩ := applyDelete_eq_ok.mp h
    exact applyDelete_eq_ok.mpr ⟨c, a, old, hc, hl, hscope, ha, rfl⟩
  | createCredential command credential =>
    obtain ⟨htext, reservation, c, hl, hr, hscope, hc, rfl⟩ := applyCreateCredential_eq_ok.mp h
    exact applyCreateCredential_eq_ok.mpr ⟨htext, reservation, c, hl, hr, hscope, hc, rfl⟩
  | revokeCredential command =>
    obtain ⟨c, old, hl, hs, hc, rfl⟩ := applyRevokeCredential_eq_ok.mp h
    exact applyRevokeCredential_eq_ok.mpr ⟨c, old, hl, hs, hc, rfl⟩
  | fail operation =>
    obtain ⟨-, rfl⟩ := Tx.pure_eq_ok.mp h
    exact Tx.pure_eq_ok.mpr ⟨rfl, rfl⟩

/-- **what a completed operation has written**, however often it was prepared -/
theorem Ongoing.completed {finish : FinishCall} {u : Unit} {v : Fresh}
    (hu : Ongoing call db₀ v.prepared v.operationId db)
    (h : finish.exec store v.completed db = .ok (u, db'))
    (ho : finish.operationId = v.operationId) (hcomp : finish.completion = call.completion v) :
    call.writes v finish.audit db₀ = .ok ((), { db' with receipts := db₀.receipts }) := by
  obtain ⟨-, -, db₁, sealed, t, a, hbefore, -, -, hvalid, ha, rfl⟩ := finish_eq_ok.mp h
  rw [ho, hcomp] at hbefore
  have hsettle : finish.completion.settle finish.operationId db₁ = db₁ := by
    rw [hcomp]
    cases call <;> rfl
  have haudits : db₁.audits = db.audits := (before_frame hbefore).2
  refine Tx.bind_eq_ok.mpr ⟨(), _, hu.reserved, Tx.bind_eq_ok.mpr ⟨(), _,
    before_receipts _ hbefore, insertAudit_eq_ok.mpr ⟨hvalid, a, ?_, ?_⟩⟩⟩
  · exact haudits ▸ ha
  · rw [hsettle]

end

end Syouyu
