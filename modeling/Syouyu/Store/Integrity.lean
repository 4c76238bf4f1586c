import Syouyu.Store.Contexts
import Syouyu.Store.Parallel

/-!
# Nothing the store wrote is corrupt to the store

Every row of a reachable database is one that the store can read back.  The answer `CorruptData` is
left for callers that make calls out of turn; callers that finish and renew only what they were
told to execute never see it.

* `Database.Intact`       each service has its one bucket and they agree, receipts have the fields
                          of their state, all numbers and values convert back;
* `reachable_intact`      **true of every reachable database**;
* `CallerStep`            one call of callers that keep to what they were told;
* `History.Kept`          what holds between the calls made so far and the database;
* `never_corrupt`         **no call of such a run is answered `CorruptData`**.
-/

set_option linter.unusedSectionVars false

namespace Syouyu
open Lib

/-! ## rows that can be read back -/

/-- the part of a spec that is recorded with the bucket -/
def BucketRecord.spec (bucket : BucketRecord) : SyouyuSpec where
  region := bucket.region
  bucketName := bucket.bucketName
  quotaBytes := bucket.quotaBytes
  quotaObjects := bucket.quotaObjects

/-- the bucket is there in Garage, belongs to the scope of the service and has its spec -/
structure ServiceRow.Describes (service : ServiceRow) (bucket : BucketRow) : Prop where
  organization : bucket.organizationId = service.organizationId
  project : bucket.projectId = service.projectId
  physical : bucket.physicalBucketId.isSome = true
  spec : ∃ record, bucket.tryIntoRecord = .ok record ∧
    SyouyuSpec.fromValue service.desiredSpec = some record.spec

/-- the store can read back every row -/
structure Database.Intact (store : PgStore) (db : Database) : Prop where
  /-- each service has exactly one bucket, which is as the service says -/
  buckets : ∀ service ∈ db.services.rows, ∃ bucket, service.Describes bucket ∧
    ∀ b, (b ∈ db.buckets.rows ∧ b.serviceInstanceId = service.id) ↔ b = bucket
  settled : ∀ service ∈ db.services.rows, service.Settled
  held : ∀ q ∈ db.receipts.rows, q.state = .inProgress → q.leaseExpiresAt.isSome = true ∧
    q.responseStatus = none ∧ q.responseNonce = none ∧ q.responseCiphertext = none
  finished : ∀ q ∈ db.receipts.rows, q.state ≠ .inProgress → q.leaseExpiresAt = none ∧
    ∃ response, store.decodeReceipt q = .ok response
  counters : ∀ b ∈ db.buckets.rows, ∃ record, b.tryIntoRecord = .ok record
  usage : ∀ u ∈ db.usageSnapshots.rows, ∀ field, (∃ n, fromI64 u.bytesUsed field = .ok n) ∧
    ∃ n, fromI64 u.objectsUsed field = .ok n
  permissions : ∀ c ∈ db.credentials.rows, (BucketPermissions.fromValue c.permissions).isSome = true

/-- the part that is no constraint of a table: buckets agree with their services -/
def Database.Matched (db : Database) : Prop :=
  ∀ s service, db.services.lookup s = some service →
    ∃ bucket, db.buckets.lookup s = some bucket ∧ bucket.physicalBucketId.isSome = true ∧
      SyouyuSpec.fromValue service.desiredSpec = some bucket.record.spec

section
variable {store : PgStore} {env : CallEnv} {db db' : Database} {r : CallRecord}

theorem Database.ServiceReconciled.lookup {command : ReconcileCommand} {o : Uuid}
    (h : db.ServiceReconciled env db' command o) {s : Uuid} {service : ServiceRow}
    (hl : db'.services.lookup s = some service) :
    (s = command.operation.serviceInstanceId ∧ service.desiredSpec = command.spec.toValue) ∨
    (s ≠ command.operation.serviceInstanceId ∧ db.services.lookup s = some service) := by
  rcases h with ⟨-, hi⟩ | ⟨old, hold, -, hu⟩
  · rw [Table.lookup_insert hi] at hl
    split at hl
    · rename_i hs
      exact .inl ⟨hs.symm, by rw [← Option.some.inj hl]; rfl⟩
    · rename_i hs
      exact .inr ⟨fun h => hs h.symm, hl⟩
  · by_cases hs : s = command.operation.serviceInstanceId
    · subst hs
      obtain rfl := Option.some.inj ((Table.lookup_updated hu (fun _ => rfl) hold).symm.trans hl)
      exact .inl ⟨rfl, rfl⟩
    · exact .inr ⟨hs, by rwa [Table.lookup_update_key hu fun _ => rfl, if_neg hs] at hl⟩

theorem Database.BucketReconciled.lookup {command : ReconcileCommand} {pid : String}
    (h : db.BucketReconciled env db' command pid) :
    (∃ bucket, db'.buckets.lookup command.operation.serviceInstanceId = some bucket ∧
      bucket.physicalBucketId = some pid ∧ bucket.record.spec = command.spec) ∧
    ∀ s, s ≠ command.operation.serviceInstanceId → db'.buckets.lookup s = db.buckets.lookup s := by
  rcases h with ⟨-, hi⟩ | ⟨⟨old, hold⟩, hu⟩
  · refine ⟨⟨_, Table.lookup_inserted hi, rfl, ?_⟩, fun s hs => ?_⟩
    · simp [BucketRecord.spec, BucketRow.record, PgStore.reconciledBucket]
    · rw [Table.lookup_insert hi, if_neg fun h => hs h.symm]
  · refine ⟨⟨_, Table.lookup_updated hu (fun _ => rfl) hold, rfl, ?_⟩, fun s hs => ?_⟩
    · simp [BucketRecord.spec, BucketRow.record, PgStore.reconcileBucket]
    · rw [Table.lookup_update_key hu fun _ => rfl, if_neg hs]

theorem Database.Matched.empty : Database.empty.Matched :=
  fun s _ hl => by cases (Table.lookup_empty s).symm.trans hl

theorem Database.Matched.step (hm : db.Matched) (h : StoreStep store db r db') : db'.Matched := by
  obtain ⟨env, call, answer⟩ := r
  intro s service hl
  cases service_change h with
  | same hs hb =>
    rw [hs] at hl
    rw [hb]
    exact hm s service hl
  | reconciled _ hs hb =>
    obtain ⟨⟨bucket, hbucket, hpid, hspec⟩, helse⟩ := hb.lookup
    rcases hs.lookup hl with ⟨rfl, hdesired⟩ | ⟨hne, hold⟩
    · exact ⟨bucket, hbucket, by rw [hpid]; rfl,
        by rw [hdesired, hspec, SyouyuSpec.fromValue_toValue]⟩
    · rw [helse s hne]
      exact hm s service hold
  | deleted _ hold _ _ _ hu hb =>
    rw [Table.lookup_update_key hu fun _ => rfl] at hl
    rw [hb]
    split at hl
    · -- a deletion leaves the spec
      rename_i heq
      obtain ⟨row, hrow, rfl⟩ := Option.map_eq_some_iff.mp hl
      exact hm s row (heq ▸ hrow)
    · exact hm s service hl
  | measured hs hu =>
    rw [hs] at hl
    obtain ⟨bucket, hbucket, hpid, hspec⟩ := hm s service hl
    rw [Table.lookup_update_key hu fun _ => rfl]
    split
    · rename_i heq
      rw [← heq, hbucket]
      exact ⟨_, rfl, hpid, hspec⟩
    · exact ⟨bucket, hbucket, hpid, hspec⟩

/-- a receipt that is no longer held is an old one, or has just been sealed -/
theorem finished_decodes (h : StoreStep store db r db')
    (hall : ∀ q ∈ db.receipts.rows, q.state ≠ .inProgress →
      ∃ response, store.decodeReceipt q = .ok response) :
    ∀ q ∈ db'.receipts.rows, q.state ≠ .inProgress →
      ∃ response, store.decodeReceipt q = .ok response := by
  intro q hq hdone
  by_cases hold : q ∈ db.receipts.rows
  · exact hall q hold hdone
  have hupdate : ∀ {k : Uuid} {f : ReceiptRow → ReceiptRow},
      db.receipts.updateWhere (receiptSchema.hasKey k) f = .ok db'.receipts →
      (∀ row, (f row).idempotencyKey = row.idempotencyKey) →
      ∃ row, db.receipts.lookup k = some row ∧ q = f row := by
    intro k f hu hkey
    obtain ⟨row, hrow, rfl⟩ := (Table.mem_updateWhere hu).mp hq
    unfold Table.touch at hold hdone ⊢
    split at hold
    · rename_i hk
      exact ⟨row, Table.lookup_eq_some.mpr ⟨hrow, Schema.hasKey_iff.mp hk⟩, if_pos hk⟩
    · exact absurd hrow hold
  have hinsert : ∀ {operation : OperationRequest},
      db.receipts.insert (.reserved r.env operation) = .ok db'.receipts → False := by
    intro operation hi
    rcases (Table.mem_insert hi).mp hq with hq | rfl
    · exact hold hq
    · exact hdone rfl
  obtain ⟨env, call, answer⟩ := r
  cases answer with
  | error e =>
    obtain rfl := step_error h
    exact absurd hq hold
  | ok a => ?_
  cases operation_change h with
  | same heq _ => exact absurd (heq ▸ hq) hold
  | granted _ hi _ _ => exact (hinsert hi).elim
  | reserved _ hi _ => exact (hinsert hi).elim
  | takenOver hl _ hs _ hu _ =>
    obtain ⟨row, hl', rfl⟩ := hupdate hu fun _ => rfl
    obtain rfl := Option.some.inj (hl'.symm.trans hl)
    exact absurd hs hdone
  | finished hl _ _ _ hu _ =>
    obtain ⟨row, hsealed, -, -, hdecode⟩ := finish_receipt (step_finished h)
    obtain ⟨row', hl', rfl⟩ := hupdate hu fun _ => rfl
    obtain rfl := Option.some.inj ((Table.lookup_updated hu (fun _ => rfl) hl').symm.trans hsealed)
    exact ⟨_, hdecode⟩
  | renewed hl _ _ hs hu _ =>
    obtain ⟨row, hl', rfl⟩ := hupdate hu fun _ => rfl
    obtain rfl := Option.some.inj (hl'.symm.trans hl)
    exact absurd hs hdone

/-- permissions are written by their encoder -/
theorem permissions_decode (h : StoreStep store db r db')
    (hall : ∀ c ∈ db.credentials.rows, (BucketPermissions.fromValue c.permissions).isSome = true) :
    ∀ c ∈ db'.credentials.rows, (BucketPermissions.fromValue c.permissions).isSome = true := by
  obtain ⟨env, call, answer⟩ := r
  cases credential_change h with
  | same hc _ => exact hc ▸ hall
  | moved _ _ _ hc _ => exact hc ▸ hall
  | reserved _ _ _ hc _ => exact hc ▸ hall
  | released _ hc _ => exact hc ▸ hall
  | created _ _ _ _ _ _ hi _ =>
    intro c hc
    rcases (Table.mem_insert hi).mp hc with hc | rfl
    · exact hall c hc
    · simp [PgStore.createdCredential, BucketPermissions.fromValue_toValue]
  | revokedAll _ hu _ =>
    intro c hc
    obtain ⟨old, hold, rfl⟩ := (Table.mem_updateWhere hu).mp hc
    unfold Table.touch
    split <;> exact hall old hold
  | revoked _ _ _ hu _ =>
    intro c hc
    obtain ⟨old, hold, rfl⟩ := (Table.mem_updateWhere hu).mp hc
    unfold Table.touch
    split <;> exact hall old hold

/-- **every reachable database is intact** -/
theorem reachable_intact (h : Reachable store db) : db.Intact store := by
  have hscoped := reachable_scoped h
  have hsettled := reachable_settled h
  obtain ⟨tr, hrun⟩ := h
  have hmatched := hrun.invariant Database.Matched (fun _ _ _ hm hs => hm.step hs) .empty
  have hdone := hrun.invariant _ (fun _ _ _ hd hs => finished_decodes hs hd)
    fun _ h => by cases h
  have hpermissions := hrun.invariant _ (fun _ _ _ hp hs => permissions_decode hs hp)
    fun _ h => by cases h
  refine ⟨fun service hservice => ?_, hsettled, fun q hq hs => ?_, fun q hq hs => ?_,
    fun b hb => ⟨_, tryIntoRecord_of_check (db.buckets.checked b hb)⟩, fun u hu field => ?_,
    hpermissions⟩
  · obtain ⟨bucket, hbucket, hpid, hspec⟩ :=
      hmatched service.id service (Table.lookup_of_mem hservice)
    have hmem := Table.lookup_mem hbucket
    have hid : bucket.serviceInstanceId = service.id := Table.lookup_key hbucket
    -- the foreign key of the bucket is the scope of the service
    obtain ⟨row, hrow, horg, hproj⟩ := scopeExists_iff.mp (hscoped.buckets bucket hmem)
    rw [hid] at hrow
    obtain rfl := Option.some.inj (hrow.symm.trans (Table.lookup_of_mem hservice))
    refine ⟨bucket, ⟨horg.symm, hproj.symm, hpid, bucket.record,
      tryIntoRecord_of_check (db.buckets.checked bucket hmem), hspec⟩, fun b => ⟨?_, ?_⟩⟩
    · rintro ⟨hb, hbid⟩
      exact db.buckets.eq_of_key hb hmem (hbid.trans hid.symm)
    · rintro rfl
      exact ⟨hmem, hid⟩
  · have hcheck := db.receipts.checked q hq
    simp only [receiptSchema, hs, Bool.and_eq_true, Option.isNone_iff_eq_none] at hcheck
    exact ⟨hcheck.2.2, hcheck.2.1.1.1.1, hcheck.2.1.1.1.2, hcheck.2.1.1.2⟩
  · refine ⟨?_, hdone q hq hs⟩
    have hcheck := db.receipts.checked q hq
    cases hstate : q.state with
    | inProgress => exact absurd hstate hs
    | _ =>
      simp only [receiptSchema, hstate, Bool.and_eq_true, Option.isNone_iff_eq_none] at hcheck
      exact hcheck.2.2
  · have hcheck := db.usageSnapshots.checked u hu
    simp only [usageSnapshotSchema, Bool.and_eq_true, decide_eq_true_eq] at hcheck
    exact ⟨⟨_, fromI64_of_nonneg hcheck.1 field⟩, _, fromI64_of_nonneg hcheck.2 field⟩

/-- what the store relies on when it reads a service -/
theorem Database.Intact.furnished (hi : db.Intact store) (s : Uuid) : db.Furnished s := by
  intro service hl
  obtain ⟨bucket, hdesc, hiff⟩ := hi.buckets service (Table.lookup_mem hl)
  obtain ⟨hmem, hid⟩ := (hiff bucket).mpr rfl
  obtain ⟨record, -, hspec⟩ := hdesc.spec
  have hservice : service.id = s := Table.lookup_key hl
  exact ⟨by rw [hspec]; rfl, bucket, Table.lookup_eq_some.mpr ⟨hmem, hid.trans hservice⟩,
    hdesc.physical⟩

end

/-! ## callers that keep to what they were told -/

/-- the database and the calls made so far -/
structure History where
  db : Database
  log : List CallRecord

def History.start : History := ⟨Database.empty, []⟩

/-- the call was answered that it is to be executed, with this operation id and context -/
def Handed (log : List CallRecord) (call : PrepareCall) (o : Uuid) (context : call.Context) :
    Prop :=
  ∃ env, ⟨env, .prepare call, Except.ok (Prepare.execute o context)⟩ ∈ log

/-- the completion is one for a call that was answered with this context -/
inductive Completion.Answers : Completion → (call : PrepareCall) → call.Context → Prop
  | reconcile {command : ReconcileCommand} {pid : String} {context : ReconcileContext} :
      Answers (.reconcile command pid) (.reconcile command) context
  | delete {command : DeleteCommand} {context : DeleteContext} :
      Answers (.delete command) (.delete command) context
  | createCredential {command : CreateCredentialCommand} {credential : NewCredential}
      {context : CreateCredentialContext} : credential.id = context.credentialId →
      Answers (.createCredential command credential) (.createCredential command) context
  | revokeCredential {command : RevokeCredentialCommand} {context : RevokeCredentialContext} :
      Answers (.revokeCredential command) (.revokeCredential command) context
  | fail {call : PrepareCall} {context : call.Context} :
      Answers (.fail call.operation) call context

/-- One call as the handlers make it: the request of a prepare call determines the call, an
operation is finished or renewed with an operation id that was handed out for it, and a created
credential has the id that was handed out.  All other calls may be made any time. -/
structure CallerStep (store : PgStore) (callOf : OperationRequest → PrepareCall) (h : History)
    (r : CallRecord) (h' : History) : Prop where
  step : StoreStep store h.db r h'.db
  log : h'.log = h.log ++ [r]
  bound : ∀ call, r.call = .prepare call → callOf call.operation = call
  finishes : ∀ finish, r.call = .finish finish → ∃ call context,
    Handed h.log call finish.operationId context ∧ finish.completion.Answers call context
  renews : ∀ operation o, r.call = .renewOperation operation o → ∃ call context,
    Handed h.log call o context ∧ call.operation = operation

/-- what holds between the calls made so far and the database -/
structure History.Kept (store : PgStore) (callOf : OperationRequest → PrepareCall) (h : History) :
    Prop where
  reachable : Reachable store h.db
  bound : ∀ call o context, Handed h.log call o context → callOf call.operation = call
  /-- what was handed out has its receipt, and describes the database while that is held -/
  attested : ∀ call o context, Handed h.log call o context → ∃ row,
    h.db.receipts.lookup call.operation.idempotencyKey = some row ∧
    row.request = call.operation ∧ (row.state = .inProgress → call.Observed h.db context)
  /-- every held receipt was handed out -/
  held : ∀ q ∈ h.db.receipts.rows, q.state = .inProgress → ∃ call o context,
    Handed h.log call o context ∧ call.operation = q.request

section
variable {store : PgStore} {callOf : OperationRequest → PrepareCall} {h h' : History}
  {r : CallRecord}

theorem Completion.Answers.operation {completion : Completion} {call : PrepareCall}
    {context : call.Context} (h : completion.Answers call context) :
    completion.operation = call.operation := by
  cases h <;> rfl

theorem Handed.mono {log log' : List CallRecord} {call : PrepareCall} {o : Uuid}
    {context : call.Context} (hh : Handed log call o context) (hsub : log ⊆ log') :
    Handed log' call o context :=
  hh.imp fun _ hmem => hsub hmem

/-- what was handed out before, or in this very step -/
theorem CallerStep.handed (hs : CallerStep store callOf h r h') {call : PrepareCall} {o : Uuid}
    {context : call.Context} (hh : Handed h'.log call o context) :
    Handed h.log call o context ∨
      ∃ env, r = ⟨env, .prepare call, .ok (.execute o context)⟩ := by
  obtain ⟨env, hmem⟩ := hh
  rw [hs.log, List.mem_append, List.mem_singleton] at hmem
  exact hmem.imp (fun hmem => ⟨env, hmem⟩) fun heq => ⟨env, heq.symm⟩

theorem History.Kept.start : History.start.Kept store callOf where
  reachable := ⟨[], .nil _⟩
  bound := by rintro _ _ _ ⟨_, hmem⟩; cases hmem
  attested := by rintro _ _ _ ⟨_, hmem⟩; cases hmem
  held := fun _ h => by cases h

theorem History.Kept.attested_step (hk : h.Kept store callOf)
    (hs : CallerStep store callOf h r h') {call : PrepareCall} {o : Uuid} {context : call.Context}
    (hh : Handed h'.log call o context) :
    ∃ row, h'.db.receipts.lookup call.operation.idempotencyKey = some row ∧
      row.request = call.operation ∧ (row.state = .inProgress → call.Observed h'.db context) := by
  rcases hs.handed hh with hold | ⟨env, rfl⟩
  · obtain ⟨row, hl, hreq, hobs⟩ := hk.attested call o context hold
    obtain ⟨row', hl', hreq', -⟩ := receipt_kept (.single hs.step) hl
    refine ⟨row', hl', hreq'.trans hreq, fun hstate' => ?_⟩
    have hstate := held_all_along (.single hs.step) hl hl' hstate'
    exact (hobs hstate).step (reachable_exclusive hk.reachable) hs.step hl hreq hstate hl'
      (hreq'.trans hreq) hstate'
  · have hexec : call.exec store env h.db = .ok (.execute o context, h'.db) := step_ok hs.step
    obtain ⟨row, hl, hreq, -, -⟩ := executed_receipt hexec
    exact ⟨row, hl, hreq, fun _ => prepare_observed hexec⟩

theorem History.Kept.step (hk : h.Kept store callOf) (hs : CallerStep store callOf h r h') :
    h'.Kept store callOf where
  reachable := by
    obtain ⟨tr, hrun⟩ := hk.reachable
    exact ⟨tr ++ [r], hrun.append (.single hs.step)⟩
  bound := by
    intro call o context hh
    rcases hs.handed hh with hold | ⟨env, rfl⟩
    · exact hk.bound call o context hold
    · exact hs.bound call rfl
  attested := fun _ _ _ hh => hk.attested_step hs hh
  held := by
    intro q hq hstate
    have hsub : h.log ⊆ h'.log := by
      rw [hs.log]
      exact List.subset_append_left _ _
    rcases receipt_origin hs.step hq hstate with ⟨q₀, hq₀, hreq, hstate₀⟩ | ⟨call, hg, hop, -⟩
    · obtain ⟨call, o, context, hh, hop⟩ := hk.held q₀ hq₀ hstate₀
      exact ⟨call, o, context, hh.mono hsub, hop.trans hreq⟩
    · obtain ⟨env, context, rfl⟩ := grant_executed hg
      refine ⟨call, q.operationId, context, ⟨env, ?_⟩, hop⟩
      rw [hs.log]
      exact List.mem_append_right _ List.mem_cons_self

/-! ## no call is answered `CorruptData` -/

def StoreError.corrupt : StoreError → Bool
  | .corruptData _ => true
  | _ => false

/-- plain errors and those about parallel operations are not `CorruptData` -/
theorem plain_not_corrupt (e : StoreError) (h : e.plain = true) : e.corrupt = false := by
  cases e <;> first | rfl | cases h

/-- **prepare calls**: the receipt can be read, and a takeover finds the reservation of the call
that was handed out before, which is the same call -/
theorem History.Kept.prepare_fails (hk : h.Kept store callOf) {env : CallEnv} {call : PrepareCall}
    (hbound : callOf call.operation = call) :
    (call.exec store env).FailsOnly (fun e => e.corrupt = false) h.db := by
  have hintact := reachable_intact hk.reachable
  rw [PrepareCall.exec_eq]
  refine .ofExcept_bind (fun e he => plain_not_corrupt e (PrepareCall.validate_plain he)) fun _ _ =>
    .bind (claimExistingReceipt_fails plain_not_corrupt fun row hl hdone e he => ?_)
    fun claim db₁ hclaim => ?_
  · obtain ⟨-, response, hdecode⟩ := hintact.finished row (Table.lookup_mem hl) hdone
    exact absurd_ok_error hdecode he
  rcases claimExistingReceipt_eq_ok.mp hclaim with ⟨-, -, -, -, answer, -, rfl⟩ |
    ⟨claimed, hclaimed, rfl⟩
  · exact Tx.failsOnly_pure
  have hbody : (call.body store env claimed).FailsOnly (fun e => e.corrupt = false) db₁ := by
    refine PrepareCall.body_fails plain_not_corrupt (.inl ?_) (.inr fun _ => rfl)
      (.inr fun _ => rfl) fun command hcommand o ho => .inl ?_
    · rw [hclaimed.frame]
      exact hintact.furnished _
    · subst hcommand
      rcases hclaimed with ⟨-, rfl, -⟩ | ⟨row, hl, hreq, hstate, -, rfl, htaken⟩
      · cases ho
      obtain rfl := Option.some.inj ho
      obtain ⟨call', o', context, hh, hop⟩ := hk.held row (Table.lookup_mem hl) hstate
      have hsame : call' = .createCredential command := by
        rw [← hk.bound call' o' context hh, hop, hreq, hbound]
      subst hsame
      obtain ⟨row', hl', -, hobs⟩ := hk.attested _ o' context hh
      obtain rfl := Option.some.inj (hl'.symm.trans hl)
      obtain ⟨-, receipt, hreceipt, c, hc, hco, hmatch, -⟩ := hobs hstate
      obtain rfl := Option.some.inj (hreceipt.symm.trans hl)
      exact ⟨_, reservation_found htaken hc hco, hmatch⟩
  cases claimed with
  | none => exact .bind hbody fun _ _ _ => Tx.failsOnly_pure
  | some o => exact .bind hbody fun _ _ _ => Tx.failsOnly_pure

/-- **finishing calls**: what was handed out has a receipt and, for a create, its reservation -/
theorem History.Kept.finish_fails (hk : h.Kept store callOf) {env : CallEnv} {finish : FinishCall}
    {call : PrepareCall} {context : call.Context}
    (hh : Handed h.log call finish.operationId context)
    (hanswers : finish.completion.Answers call context) :
    (finish.exec store env).FailsOnly (fun e => e.corrupt = false) h.db := by
  obtain ⟨row, hl, -, hobs⟩ := hk.attested call _ context hh
  have hop : finish.operation = call.operation := hanswers.operation
  refine FinishCall.exec_fails plain_not_corrupt ⟨row, by rw [hop]; exact hl⟩
    fun command credential hcompletion hheld => ?_
  rw [hcompletion] at hanswers
  cases hanswers with
  | createCredential hid =>
    obtain ⟨row', hl', -, ho, hstate⟩ := hheld
    obtain rfl := Option.some.inj (hl'.symm.trans hl)
    obtain ⟨-, receipt, hreceipt, c, hc, hco, hmatch, hcid⟩ := hobs hstate
    obtain rfl := Option.some.inj (hreceipt.symm.trans hl)
    exact ⟨c, hc, hcid.trans hid.symm, hco.trans ho, hmatch⟩

theorem mapM_ok {α β ε : Type} {f : α → Except ε β} {l : List α}
    (hf : ∀ a ∈ l, ∃ b, f a = .ok b) : ∃ bs, l.mapM f = .ok bs := by
  induction l with
  | nil => exact ⟨[], rfl⟩
  | cons a l ih =>
    obtain ⟨b, hb⟩ := hf a List.mem_cons_self
    obtain ⟨bs, hbs⟩ := ih fun a ha => hf a (List.mem_cons_of_mem _ ha)
    exact ⟨b :: bs, by rw [List.mapM_cons, hb, hbs]; rfl⟩

end

section
variable {store : PgStore} {env : CallEnv} {db : Database}

/-! the calls that read and record -/

theorem Database.Intact.serviceOverview_fails (hi : db.Intact store) {o p s : Uuid} :
    ((PgStore.serviceOverview o p s).within Select.perform).FailsOnly
      (fun e => e.corrupt = false) db := by
  rw [serviceOverview_within]
  refine .read_bind <| .ofExcept_bind (fun e he => ?_) fun service hservice =>
    .read_bind <| Tx.failsOnly_ofExcept fun e he => ?_
  · rw [(visibleService_eq_error he).1]
    rfl
  · -- the row has a bucket, and its specification can be read
    obtain ⟨hspec, bucket, hbucket, -⟩ := hi.furnished s service (visibleService_eq_ok.mp hservice).1
    obtain ⟨spec, hspec⟩ := Option.isSome_iff_exists.mp hspec
    rw [PgStore.overviewRecord, hbucket] at he
    rcases except_bind_eq_error.mp he with he | ⟨_, hrow, he⟩
    · cases he
    obtain rfl := Option.some.inj (okOr_eq_ok.mp hrow)
    rw [tryIntoRecord_of_check (Table.lookup_check hbucket)] at he
    rcases except_bind_eq_error.mp he with he | ⟨_, -, he⟩
    · cases he
    · rw [PgStore.serviceRecord, hspec] at he
      cases he

theorem Database.Intact.listCredentials_fails (hi : db.Intact store) {o p s : Uuid} :
    ((PgStore.listCredentials o p s).within Select.perform).FailsOnly
      (fun e => e.corrupt = false) db := by
  rw [listCredentials_within]
  refine .read_bind <| .ofExcept_bind (fun e he => ?_) fun _ _ => .read_bind <|
    Tx.failsOnly_ofExcept fun e he => ?_
  · unfold PgStore.ensureListed at he
    split at he
    · cases he
    · rw [← Except.error.inj he]
      rfl
  have hrows : ∀ row ∈ db.credentialRows s,
      ∃ record, PgStore.credentialRecord row = .ok record := by
    intro row hrow
    have hmem := (Table.mem_select.mp ((List.mem_insertionSort _).mp hrow)).1
    obtain ⟨permissions, hp⟩ := Option.isSome_iff_exists.mp (hi.permissions row hmem)
    exact ⟨_, by rw [PgStore.credentialRecord, hp]; rfl⟩
  obtain ⟨records, hok⟩ := mapM_ok hrows
  exact absurd_ok_error hok he

theorem recordUsage_fails {o p s : Uuid} {bytesUsed objectsUsed : UInt64}
    {measuredAt : Timestamp} :
    (PgStore.recordUsage env o p s bytesUsed objectsUsed measuredAt).FailsOnly
      (fun e => e.corrupt = false) db := by
  refine .ofExcept_bind (fun e he => plain_not_corrupt e (toI64_plain he)) fun _ _ =>
    .ofExcept_bind (fun e he => plain_not_corrupt e (toI64_plain he)) fun _ _ =>
    .read_bind <| .require_bind (fun _ => rfl) fun bucket hbucket =>
    .bind (updateRows_fails plain_not_corrupt fun _ => rfl) fun _ _ _ =>
    .bind (upsertRow_fails plain_not_corrupt fun _ => rfl) fun _ _ _ => ?_
  -- the quotas of the row were checked when it was written
  have hcheck := Table.lookup_check (Option.filter_eq_some_iff.mp hbucket).1
  simp only [bucketSchema, Bool.and_eq_true, decide_eq_true_eq] at hcheck
  obtain ⟨⟨⟨⟨-, hqb⟩, hqo⟩, -⟩, -⟩ := hcheck
  rw [fromI64_of_nonneg (Int64.le_of_lt hqb), fromI64_of_nonneg (Int64.le_of_lt hqo)]
  intro e he
  cases he

end

section
variable {store : PgStore} {callOf : OperationRequest → PrepareCall} {h h' : History}
  {r : CallRecord}

/-- **one call** -/
theorem History.Kept.not_corrupt (hk : h.Kept store callOf)
    (hs : CallerStep store callOf h r h') (what : String) :
    r.answer ≠ .error (.corruptData what) := by
  obtain ⟨env, call, answer⟩ := r
  have hintact := reachable_intact hk.reachable
  have hfails : (call.exec store env).FailsOnly (fun e => e.corrupt = false) h.db := by
    cases call with
    | prepare call => exact hk.prepare_fails (hs.bound call rfl)
    | finish finish =>
      obtain ⟨call, context, hh, hanswers⟩ := hs.finishes finish rfl
      exact hk.finish_fails hh hanswers
    | renewOperation operation o =>
      obtain ⟨call, context, hh, rfl⟩ := hs.renews operation o rfl
      obtain ⟨row, hl, -⟩ := hk.attested call o context hh
      exact renewOperation_fails plain_not_corrupt ⟨row, hl⟩
    | serviceOverview o p s => exact hintact.serviceOverview_fails
    | listCredentials o p s => exact hintact.listCredentials_fails
    | recordUsage o p s bytes objects measuredAt => exact recordUsage_fails
    | recordAudit audit => exact insertAudit_fails plain_not_corrupt
  intro hanswer
  change answer = .error (.corruptData what) at hanswer
  subst hanswer
  exact absurd (hfails _ (Tx.atomically_error.mp hs.step).1) nofun

/-- **a run of calls** -/
theorem History.Kept.run {tr : List CallRecord} (hk : h.Kept store callOf)
    (hrun : Run (CallerStep store callOf) h tr h') :
    h'.Kept store callOf ∧ ∀ r ∈ tr, ∀ what, r.answer ≠ .error (.corruptData what) := by
  induction hrun with
  | nil => exact ⟨hk, fun r hr => by cases hr⟩
  | cons hstep _ ih =>
    obtain ⟨hk', hanswers⟩ := ih (hk.step hstep)
    refine ⟨hk', fun r hr what => ?_⟩
    rcases List.mem_cons.mp hr with rfl | hr
    · exact hk.not_corrupt hstep what
    · exact hanswers r hr what

/-! ## scripts -/

/-- an answer to execute of which `p` is true -/
def CallRecord.hands (p : (call : PrepareCall) → Uuid → call.Context → Bool) : CallRecord → Bool
  | ⟨_, .prepare call, .ok (.execute o context)⟩ => p call o context
  | _ => false

/-- whether the completion is one for the call -/
def Completion.answers : Completion → (call : PrepareCall) → call.Context → Bool
  | .reconcile command _, .reconcile command', _ => decide (command = command')
  | .delete command, .delete command', _ => decide (command = command')
  | .createCredential command credential, .createCredential command',
      (context : CreateCredentialContext) =>
    decide (command = command') && decide (credential.id = context.credentialId)
  | .revokeCredential command, .revokeCredential command', _ => decide (command = command')
  | .fail operation, call, _ => decide (operation = call.operation)
  | _, _, _ => false

/-- whether the call is in turn after these -/
def mayCall (callOf : OperationRequest → PrepareCall) (log : List CallRecord) : StoreCall → Bool
  | .prepare call => decide (callOf call.operation = call)
  | .finish finish => log.any fun r => r.hands fun call o context =>
      decide (o = finish.operationId) && finish.completion.answers call context
  | .renewOperation operation o => log.any fun r => r.hands fun call o' _ =>
      decide (o' = o) && decide (call.operation = operation)
  | _ => true

/-- the calls of a script, as long as they are in turn -/
def History.play (store : PgStore) (callOf : OperationRequest → PrepareCall) :
    List (CallEnv × StoreCall) → History → Option History
  | [], h => some h
  | (env, call) :: script, h =>
    let after := call.run store env h.db
    if mayCall callOf h.log call then
      History.play store callOf script ⟨after.2, h.log ++ [⟨env, call, after.1⟩]⟩
    else none

theorem answers_sound {completion : Completion} {call : PrepareCall} {context : call.Context}
    (ha : completion.answers call context = true) : completion.Answers call context := by
  unfold Completion.answers at ha
  split at ha
  · exact of_decide_eq_true ha ▸ .reconcile
  · exact of_decide_eq_true ha ▸ .delete
  · obtain ⟨rfl, hid⟩ := by simpa using ha
    exact .createCredential hid
  · exact of_decide_eq_true ha ▸ .revokeCredential
  · exact of_decide_eq_true ha ▸ .fail
  · cases ha

theorem hands_handed {log : List CallRecord}
    {p : (call : PrepareCall) → Uuid → call.Context → Bool}
    (hany : log.any (CallRecord.hands p) = true) :
    ∃ call o context, Handed log call o context ∧ p call o context = true := by
  obtain ⟨r, hmem, hr⟩ := List.any_eq_true.mp hany
  unfold CallRecord.hands at hr
  split at hr
  · exact ⟨_, _, _, ⟨_, hmem⟩, hr⟩
  · cases hr

/-- **a script that is in turn is a run of callers** -/
theorem History.play_run {script : List (CallEnv × StoreCall)}
    (hplay : History.play store callOf script h = some h') :
    ∃ tr, h'.log = h.log ++ tr ∧ Run (CallerStep store callOf) h tr h' := by
  induction script generalizing h with
  | nil =>
    obtain rfl := Option.some.inj hplay
    exact ⟨[], (List.append_nil _).symm, .nil _⟩
  | cons c script ih =>
    obtain ⟨env, call⟩ := c
    unfold History.play at hplay
    split at hplay
    · rename_i hmay
      obtain ⟨tr, hlog, hrun⟩ := ih hplay
      refine ⟨⟨env, call, (call.run store env h.db).1⟩ :: tr, by simpa using hlog, .cons ?_ hrun⟩
      refine ⟨rfl, rfl, ?_, ?_, ?_⟩
      · rintro prepare rfl
        exact of_decide_eq_true hmay
      · rintro finish rfl
        obtain ⟨prepare, o, context, hh, hp⟩ := hands_handed hmay
        obtain ⟨rfl, ha⟩ := by simpa using hp
        exact ⟨prepare, context, hh, answers_sound ha⟩
      · rintro operation o rfl
        obtain ⟨prepare, o', context, hh, hp⟩ := hands_handed hmay
        obtain ⟨rfl, hop⟩ := by simpa using hp
        exact ⟨prepare, context, hh, hop⟩
    · cases hplay

/-- **Stored data never becomes corrupt in the store's own eyes.**  Any number of callers make any
calls, as long as they finish and renew only what they were told to execute.  Then the database is
intact after every call, and no call is answered `CorruptData`. -/
theorem never_corrupt {tr : List CallRecord} (hrun : Run (CallerStep store callOf) .start tr h) :
    h.db.Intact store ∧ ∀ r ∈ tr, ∀ what, r.answer ≠ .error (.corruptData what) := by
  obtain ⟨hk, hanswers⟩ := History.Kept.start.run hrun
  exact ⟨reachable_intact hk.reachable, hanswers⟩

end

/-- a create is taken over, renewed and completed, and the credentials of the service are listed -/
theorem never_corrupt_taken_over :
    let credential : NewCredential := ⟨2002, "GK1", "GK1", 0, "key", ⟨true, false⟩⟩
    let script := Sample.creating ++ Sample.retrying ++
      [(Sample.env 201 4, .renewOperation (Sample.create 101 10 "key").operation 1003),
       (Sample.env 202 5,
         Sample.finish (.createCredential (Sample.create 101 10 "key") credential) 1003),
       (Sample.env 203 6, .listCredentials 1 2 10)]
    ∃ h, History.play PgStore.reference (Sample.callOf script) script .start = some h ∧
      h.db.credentials.rows.length = 1 ∧ h.db.Intact PgStore.reference ∧
      ∀ r ∈ h.log, ∀ what, r.answer ≠ .error (.corruptData what) := by
  intro credential script
  have hcount : (History.play PgStore.reference (Sample.callOf script) script .start).map
      (fun h => h.db.credentials.rows.length) = some 1 := by decide +kernel
  obtain ⟨h, hplay, hone⟩ := Option.map_eq_some_iff.mp hcount
  obtain ⟨tr, hlog, hrun⟩ := History.play_run hplay
  obtain ⟨hintact, hanswers⟩ := never_corrupt hrun
  refine ⟨h, hplay, hone, hintact, ?_⟩
  rw [hlog]
  exact hanswers

end Syouyu
