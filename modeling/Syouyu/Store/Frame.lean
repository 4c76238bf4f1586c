import Syouyu.Store.Lifecycle
import Syouyu.Store.Links
import Mathlib.Data.UInt

/-!
# One service's calls leave the rows of every other service alone

* `StoreCall.serviceInstanceId`   the service a call is for;
* `services_frame` .. `usage_frame`   table by table: the rows of another service stay;
* `foreign_prepare`, `foreign_overview`, `foreign_credentials`, `foreign_usage`
                                  what a caller of another scope is answered;
* `tenant_frame`                  both, for every reachable database and every call.

Reservations are updated and deleted by operation id and names by bucket name; that these
statements stay within the service is `Database.Linked` and the guard of the name upsert.
-/

set_option linter.unusedSectionVars false

namespace Syouyu
open Lib

/-- the service a call carries -/
def StoreCall.serviceInstanceId : StoreCall → Uuid
  | .prepare call => call.operation.serviceInstanceId
  | .finish call => call.operation.serviceInstanceId
  | .renewOperation operation _ => operation.serviceInstanceId
  | .serviceOverview _ _ s => s
  | .listCredentials _ _ s => s
  | .recordUsage _ _ s _ _ _ => s
  | .recordAudit audit => audit.serviceInstanceId

theorem finish_service {call : FinishCall} {completion : Completion}
    (h : call.completion = completion) :
    (StoreCall.finish call).serviceInstanceId = completion.operation.serviceInstanceId := by
  rw [← h]
  rfl

section
variable {store : PgStore} {env : CallEnv} {db db' : Database} {call : StoreCall} {s : Uuid}

/-! ## table by table -/

/-- an update aimed at a row of another service -/
theorem select_update_key {ρ : Type} {S : Schema Uuid ρ} {t t' : Table S} {k : Uuid}
    {f : ρ → ρ} {service : ρ → Uuid} (h : t.updateWhere (S.hasKey k) f = .ok t')
    (hf : ∀ q, service (f q) = service q)
    (hne : ∀ q ∈ t.rows, S.key q = k → service q ≠ s) :
    t'.select (fun q => decide (service q = s)) = t.select (fun q => decide (service q = s)) := by
  refine Table.select_updateWhere h fun q hq hk => ?_
  have hother := hne q hq (Schema.hasKey_iff.mp hk)
  rw [hf q]
  exact ⟨decide_eq_false hother, decide_eq_false hother⟩

theorem services_frame (h : ServiceChange env db db' call) (hne : call.serviceInstanceId ≠ s) :
    db'.services.select (fun r => decide (r.id = s)) =
      db.services.select (fun r => decide (r.id = s)) := by
  cases h with
  | same hs _ => rw [hs]
  | @reconciled call command pid hcomp hs _ =>
    rw [finish_service hcomp] at hne
    rcases hs with ⟨-, hi⟩ | ⟨_, -, -, hu⟩
    · exact Table.select_insert hi (decide_eq_false hne)
    · exact select_update_key hu (fun _ => rfl) (fun _ _ hk => hk.trans_ne hne)
  | @deleted call command old hcomp _ _ _ _ hu _ =>
    rw [finish_service hcomp] at hne
    exact select_update_key hu (fun _ => rfl) (fun _ _ hk => hk.trans_ne hne)
  | measured hs _ => rw [hs]

theorem buckets_frame (h : ServiceChange env db db' call) (hne : call.serviceInstanceId ≠ s) :
    db'.buckets.select (fun r => decide (r.serviceInstanceId = s)) =
      db.buckets.select (fun r => decide (r.serviceInstanceId = s)) := by
  cases h with
  | same _ hb => rw [hb]
  | @reconciled call command pid hcomp _ hb =>
    rw [finish_service hcomp] at hne
    rcases hb with ⟨-, hi⟩ | ⟨-, hu⟩
    · exact Table.select_insert hi (decide_eq_false hne)
    · exact select_update_key hu (fun _ => rfl) (fun _ _ hk => hk.trans_ne hne)
  | deleted _ _ _ _ _ _ hb => rw [hb]
  | measured _ hu => exact select_update_key hu (fun _ => rfl) (fun _ _ hk => hk.trans_ne hne)

theorem names_frame (h : NameChange env db db' call) (hne : call.serviceInstanceId ≠ s) :
    db'.nameReservations.select (fun r => decide (r.serviceInstanceId = s)) =
      db.nameReservations.select (fun r => decide (r.serviceInstanceId = s)) := by
  -- each of the three deletions is confined to the service of its call
  have hdelete : ∀ {p : NameReservationRow → Bool} {s' : Uuid}, s' ≠ s →
      (∀ q, p q = true → q.serviceInstanceId = s') →
      (db.nameReservations.deleteWhere p).select (fun r => decide (r.serviceInstanceId = s)) =
        db.nameReservations.select (fun r => decide (r.serviceInstanceId = s)) := by
    intro p s' hs hp
    refine Table.select_deleteWhere _ fun q _ hq => decide_eq_false ?_
    rw [hp q hq]
    exact hs
  cases h with
  | same hn => rw [hn]
  | reserved hn =>
    rcases hn with ⟨-, hi⟩ | ⟨_, -, -, hv⟩
    · exact Table.select_insert hi (decide_eq_false hne)
    · rw [hv]
  | @reconciled call command pid hcomp hn =>
    rw [finish_service hcomp] at hne
    rw [hn]
    refine hdelete hne fun q hq => ?_
    rw [Bool.and_eq_true, decide_eq_true_eq] at hq
    exact hq.1
  | @deleted call command hcomp hn =>
    rw [finish_service hcomp] at hne
    rw [hn]
    exact hdelete hne fun q hq => of_decide_eq_true hq
  | @released call operation hcomp hn =>
    rw [finish_service hcomp] at hne
    rw [hn]
    refine hdelete hne fun q hq => ?_
    rw [Bool.and_eq_true, decide_eq_true_eq] at hq
    exact hq.1

theorem receipts_frame (h : OperationChange env db db' call) (hne : call.serviceInstanceId ≠ s) :
    db'.receipts.select (fun r => decide (r.serviceInstanceId = s)) =
      db.receipts.select (fun r => decide (r.serviceInstanceId = s)) := by
  -- the receipt found under the key of an operation is one of its service
  have hupdate : ∀ {operation : OperationRequest} {row : ReceiptRow}
      {f : ReceiptRow → ReceiptRow} {t : Table receiptSchema},
      operation.serviceInstanceId ≠ s →
      db.receipts.lookup operation.idempotencyKey = some row → row.request = operation →
      db.receipts.updateWhere (receiptSchema.hasKey operation.idempotencyKey) f = .ok t →
      (∀ q, (f q).serviceInstanceId = q.serviceInstanceId) →
      t.select (fun r => decide (r.serviceInstanceId = s)) =
        db.receipts.select (fun r => decide (r.serviceInstanceId = s)) := by
    intro operation row f t hs hl hq hu hf
    refine select_update_key hu hf fun q hmem hk => ?_
    rw [db.receipts.eq_of_key hmem (Table.lookup_mem hl) (hk.trans (Table.lookup_key hl).symm),
      show row.serviceInstanceId = operation.serviceInstanceId from
        congrArg OperationRequest.serviceInstanceId hq]
    exact hs
  cases h with
  | same ht _ => rw [ht]
  | granted _ hi _ _ => exact Table.select_insert hi (decide_eq_false hne)
  | reserved _ hi _ => exact Table.select_insert hi (decide_eq_false hne)
  | takenOver hl hq _ _ ht _ => exact hupdate hne hl hq ht (fun _ => rfl)
  | finished hl hq _ _ ht _ => exact hupdate hne hl hq ht (fun _ => rfl)
  | renewed hl hq _ _ ht _ => exact hupdate hne hl hq ht (fun _ => rfl)

theorem reservations_frame (hlink : db.Linked) (h : OperationChange env db db' call)
    (hne : call.serviceInstanceId ≠ s) :
    db'.credentialReservations.select (fun r => decide (r.serviceInstanceId = s)) =
      db.credentialReservations.select (fun r => decide (r.serviceInstanceId = s)) := by
  -- a reservation with the operation id of the call's receipt is one of the call's service
  have hother : ∀ {operation : OperationRequest} {row : ReceiptRow},
      operation.serviceInstanceId ≠ s →
      db.receipts.lookup operation.idempotencyKey = some row → row.request = operation →
      ∀ c ∈ db.credentialReservations.rows, c.operationId = row.operationId →
        c.serviceInstanceId ≠ s := by
    intro operation row hs hl hq c hc ho
    rw [← (linked_service hlink (Table.lookup_mem hl) hc ho).service,
      show row.serviceInstanceId = operation.serviceInstanceId from
        congrArg OperationRequest.serviceInstanceId hq]
    exact hs
  cases h with
  | same _ hr => rw [hr]
  | granted _ _ hr _ => rw [hr]
  | reserved _ _ hu => exact Table.select_insert hu (decide_eq_false hne)
  | takenOver hl hq _ _ _ hu =>
    refine Table.select_updateWhere hu fun c hc ho => ?_
    have hcs := hother hne hl hq c hc (of_decide_eq_true ho)
    exact ⟨decide_eq_false hcs, decide_eq_false hcs⟩
  | finished hl hq ho _ _ hr =>
    rw [hr]
    refine Table.select_deleteWhere _ fun c hc hsp => decide_eq_false ?_
    exact hother hne hl hq c hc ((spends_operationId hsp).trans ho.symm)
  | renewed _ _ _ _ _ hr => rw [hr]

theorem credentials_frame (h : CredentialChange store env db db' call)
    (hne : call.serviceInstanceId ≠ s) :
    db'.credentials.select (fun c => decide (c.serviceInstanceId = s)) =
      db.credentials.select (fun c => decide (c.serviceInstanceId = s)) := by
  refine credentials_elsewhere h ?_
  rintro finish rfl
  exact hne

/-- usage is written by `record_usage` alone -/
theorem usage_frame {r : CallRecord} (h : StoreStep store db r db')
    (hne : r.call.serviceInstanceId ≠ s) :
    db'.usageSnapshots.select (fun u => decide (u.serviceInstanceId = s)) =
      db.usageSnapshots.select (fun u => decide (u.serviceInstanceId = s)) := by
  cases step_cases h with
  | quiet _ => rfl
  | executed h => rw [prepare_keeps_usage h]
  | finished h => rw [finish_keeps_usage h]
  | renewed h =>
    obtain ⟨-, -, t, -, rfl⟩ := renewOperation_eq_ok.mp h
    rfl
  | measured h =>
    obtain ⟨_, _, _, _, v, -, -, -, -, hv, rfl⟩ := recordUsage_ok h
    exact hv s (Ne.symm hne)
  | audited h =>
    obtain ⟨-, _, -, rfl⟩ := insertAudit_eq_ok.mp h
    rfl

/-- **a call leaves the rows of every other service alone** -/
theorem service_frame (hlink : db.Linked) {r : CallRecord} (h : StoreStep store db r db')
    (hne : r.call.serviceInstanceId ≠ s) : db'.ofService s = db.ofService s := by
  unfold Database.ofService
  rw [services_frame (service_change h) hne, buckets_frame (service_change h) hne,
    names_frame (name_change h) hne, receipts_frame (operation_change h) hne,
    reservations_frame hlink (operation_change h) hne, credentials_frame (credential_change h) hne,
    usage_frame h hne]

/-! ## callers of another scope -/

/-- what a prepare call has checked includes the scope of an existing service -/
theorem PrepareCall.Facts.scope {call : PrepareCall} (h : call.Facts db) {row : ServiceRow}
    (hl : db.services.lookup call.operation.serviceInstanceId = some row) :
    call.operation.organizationId = row.organizationId ∧
      call.operation.projectId = row.projectId := by
  have hready : ∀ {operation : OperationRequest},
      db.services.lookup operation.serviceInstanceId = some row →
      (∃ service b, db.Ready operation service b) →
      operation.organizationId = row.organizationId ∧ operation.projectId = row.projectId := by
    rintro operation hl ⟨service, b, hl', ho, hp, -⟩
    obtain rfl : service = row := Option.some.inj (hl'.symm.trans hl)
    exact ⟨ho, hp⟩
  cases call with
  | reconcile command =>
    obtain ⟨pid, applied, ⟨hnone, -⟩ | ⟨service, b, hl', ho, hp, -⟩⟩ := h
    · exact absurd_none_some hnone hl
    · obtain rfl : service = row := Option.some.inj (hl'.symm.trans hl)
      exact ⟨ho, hp⟩
  | delete command =>
    obtain ⟨service, hl', ho, hp, -⟩ := h
    obtain rfl : service = row := Option.some.inj (hl'.symm.trans hl)
    exact ⟨ho, hp⟩
  | createCredential command => exact hready hl h
  | revokeCredential command => exact hready hl h.1

/-- the scope of a caller that is to execute is that of the service -/
theorem foreign_prepare {call : PrepareCall} {o : Uuid} {context : call.Context}
    {row : ServiceRow} (hl : db.services.lookup call.operation.serviceInstanceId = some row)
    (h : StoreStep store db ⟨env, .prepare call, .ok (.execute o context)⟩ db') :
    call.operation.organizationId = row.organizationId ∧
      call.operation.projectId = row.projectId := by
  have hexec : call.exec store env db = .ok (.execute o context, db') := step_ok h
  exact (prepare_facts hexec).scope ((prepare_names hexec).1 ▸ hl)

/-- the two ids of a scope that is not the service's -/
def ServiceRow.foreign (row : ServiceRow) (organizationId projectId : Uuid) : Prop :=
  organizationId ≠ row.organizationId ∨ projectId ≠ row.projectId

theorem foreign_overview {o p : Uuid} {row : ServiceRow} (hl : db.services.lookup s = some row)
    (hf : row.foreign o p) :
    (StoreCall.serviceOverview o p s).run store env db = (.error .notFound, db) := by
  have hinvisible : PgStore.visibleService o p (some row) = .error .notFound := by
    cases hv : PgStore.visibleService o p (some row) with
    | error e => rw [(visibleService_eq_error hv).1]
    | ok service =>
      obtain ⟨heq, ho, hp, -⟩ := visibleService_eq_ok.mp hv
      obtain rfl := Option.some.inj heq
      exact hf.elim (absurd ho.symm) (absurd hp.symm)
  refine Tx.atomically_error.mpr ⟨?_, rfl⟩
  show (PgStore.serviceOverview o p s).within Select.perform db = _
  rw [serviceOverview_within, Tx.read_bind, hl]
  exact Tx.bind_apply_error (Tx.ofExcept_eq_error.mpr hinvisible)

theorem foreign_credentials {o p : Uuid} {row : ServiceRow}
    (hl : db.services.lookup s = some row) (hf : row.foreign o p) :
    (StoreCall.listCredentials o p s).run store env db = (.error .notFound, db) := by
  have hnone : db.serviceExists o p s = false := by
    rw [Database.serviceExists, hl, Option.any_some]
    rcases hf with h | h
    · rw [decide_eq_false (Ne.symm h), Bool.false_and, Bool.false_and]
    · rw [decide_eq_false (Ne.symm h), Bool.and_false, Bool.false_and]
  refine Tx.atomically_error.mpr ⟨?_, rfl⟩
  show (PgStore.listCredentials o p s).within Select.perform db = _
  rw [listCredentials_within, Tx.read_bind, hnone]
  exact Tx.bind_apply_error (Tx.ofExcept_eq_error.mpr rfl)

/-- counters that fit are looked up and not found -/
theorem foreign_usage (hscoped : db.Scoped) {o p : Uuid} {row : ServiceRow}
    (hl : db.services.lookup s = some row) (hf : row.foreign o p) {bytes objects : UInt64}
    (hb : bytes ≤ maxGarageQuota) (ho : objects ≤ maxGarageQuota) (measuredAt : Timestamp) :
    (StoreCall.recordUsage o p s bytes objects measuredAt).run store env db =
      (.error .notFound, db) := by
  have hnone : (db.buckets.lookup s).filter (fun r => decide (r.organizationId = o) &&
      decide (r.projectId = p)) = none := by
    rw [Option.filter_eq_none_iff]
    intro b hbucket hscope
    rw [Bool.and_eq_true, decide_eq_true_eq, decide_eq_true_eq] at hscope
    -- the bucket row has the scope of its service
    have hexists := hscoped.buckets b (Table.lookup_mem hbucket)
    obtain ⟨service, hservice, horg, hproject⟩ := scopeExists_iff.mp hexists
    rw [show b.serviceInstanceId = s from Table.lookup_key hbucket, hl] at hservice
    obtain rfl : row = service := Option.some.inj hservice
    rcases hf with h | h
    · exact h (hscope.1.symm.trans horg.symm)
    · exact h (hscope.2.symm.trans hproject.symm)
  refine Tx.atomically_error.mpr ⟨?_, rfl⟩
  show PgStore.recordUsage env o p s bytes objects measuredAt db = _
  unfold PgStore.recordUsage
  rw [Tx.bind_apply_ok (Tx.ofExcept_eq_ok.mpr ⟨toI64_eq_ok.mpr ⟨hb, rfl⟩, rfl⟩),
    Tx.bind_apply_ok (Tx.ofExcept_eq_ok.mpr ⟨toI64_eq_ok.mpr ⟨ho, rfl⟩, rfl⟩), Tx.read_bind]
  exact Tx.bind_apply_error (Tx.require_eq_error.mpr ⟨hnone, rfl⟩)

/-- a counter that does not fit is refused before anything is looked up -/
theorem usage_overflow {o p : Uuid} {bytes objects : UInt64}
    (h : ¬ (bytes ≤ maxGarageQuota ∧ objects ≤ maxGarageQuota)) (measuredAt : Timestamp) :
    ∃ field, (StoreCall.recordUsage o p s bytes objects measuredAt).run store env db =
      (.error (.invalidNumericValue field), db) := by
  have htoI64 : ∀ {value : UInt64} {field : String}, ¬ value ≤ maxGarageQuota →
      toI64 value field = .error (.invalidNumericValue field) := fun hv => if_neg hv
  by_cases hb : bytes ≤ maxGarageQuota
  · have ho : ¬ objects ≤ maxGarageQuota := fun ho => h ⟨hb, ho⟩
    refine ⟨"objects_used", Tx.atomically_error.mpr ⟨?_, rfl⟩⟩
    show PgStore.recordUsage env o p s bytes objects measuredAt db = _
    unfold PgStore.recordUsage
    rw [Tx.bind_apply_ok (Tx.ofExcept_eq_ok.mpr ⟨toI64_eq_ok.mpr ⟨hb, rfl⟩, rfl⟩)]
    exact Tx.bind_apply_error (Tx.ofExcept_eq_error.mpr (htoI64 ho))
  · refine ⟨"bytes_used", Tx.atomically_error.mpr ⟨?_, rfl⟩⟩
    show PgStore.recordUsage env o p s bytes objects measuredAt db = _
    unfold PgStore.recordUsage
    exact Tx.bind_apply_error (Tx.ofExcept_eq_error.mpr (htoI64 hb))

end

/-! ## the frame -/

/-- **Tenant frame.**  In every reachable database a call for one service leaves the rows of every
other service as they are; and to a caller whose organization or project is not that of the service
no prepare call answers `Execute`, and the reads and the usage record answer `NotFound`.  Only
counters beyond `i64` are refused before the service is looked up. -/
theorem tenant_frame (store : PgStore) (db : Database) (h : Reachable store db) :
    (∀ r db', StoreStep store db r db' → ∀ s, s ≠ r.call.serviceInstanceId →
      db'.ofService s = db.ofService s) ∧
    ∀ s row, db.services.lookup s = some row → ∀ organizationId projectId,
      row.foreign organizationId projectId →
      (∀ call : PrepareCall, call.operation.serviceInstanceId = s →
        call.operation.organizationId = organizationId → call.operation.projectId = projectId →
        ∀ env o context db', ¬ StoreStep store db
          ⟨env, .prepare call, .ok (.execute o context)⟩ db') ∧
      ∀ env, (StoreCall.serviceOverview organizationId projectId s).run store env db =
          (.error .notFound, db) ∧
        (StoreCall.listCredentials organizationId projectId s).run store env db =
          (.error .notFound, db) ∧
        ∀ bytes objects measuredAt,
          if bytes ≤ maxGarageQuota ∧ objects ≤ maxGarageQuota then
            (StoreCall.recordUsage organizationId projectId s bytes objects measuredAt).run
              store env db = (.error .notFound, db)
          else ∃ field,
            (StoreCall.recordUsage organizationId projectId s bytes objects measuredAt).run
              store env db = (.error (.invalidNumericValue field), db) := by
  refine ⟨fun r db' hstep s hne => service_frame (reachable_linked h) hstep (Ne.symm hne),
    fun s row hl o p hf => ⟨?_, fun env => ⟨foreign_overview hl hf, foreign_credentials hl hf, ?_⟩⟩⟩
  · rintro call rfl rfl rfl env o context db' hstep
    obtain ⟨horg, hproject⟩ := foreign_prepare hl hstep
    rcases hf with h | h
    · exact h horg
    · exact h hproject
  · intro bytes objects measuredAt
    split
    · rename_i hfits
      exact foreign_usage (reachable_scoped h) hl hf hfits.1 hfits.2 measuredAt
    · rename_i hbig
      exact usage_overflow hbig measuredAt

/-- while service 10 has a credential reserved, service 11 is prepared, and a stranger asks for
service 10 -/
theorem tenant_frame_creating :
    let db := (PgStore.reference.play Sample.creating Database.empty).2
    let reconcile : StoreCall := .prepare (.reconcile (Sample.reconcile 102 11 "b" "bucket-b" 1))
    ((db.ofService 10).credentialReservations ≠ [] ∧
      ((reconcile.run PgStore.reference (Sample.env 4 4) db).2).receipts.lookup 102 ≠ none) ∧
    (reconcile.run PgStore.reference (Sample.env 4 4) db).2.ofService 10 = db.ofService 10 ∧
    (StoreCall.serviceOverview 9 2 10).run PgStore.reference (Sample.env 4 4) db =
      (.error .notFound, db) := by
  intro db reconcile
  obtain ⟨row, hl, hrow⟩ := (Option.any_eq_true _ _).mp (show
    (db.services.lookup 10).any (fun row => decide (row.organizationId = 1)) = true by
      decide +kernel)
  have hforeign : row.foreign 9 2 := by
    refine .inl ?_
    rw [of_decide_eq_true hrow]
    decide
  obtain ⟨hframe, hrefused⟩ := tenant_frame PgStore.reference db ⟨_, play_run _ Sample.creating _⟩
  refine ⟨by decide +kernel, ?_, ((hrefused 10 row hl 9 2 hforeign).2 (Sample.env 4 4)).1⟩
  have hstep : StoreStep PgStore.reference db
      ⟨Sample.env 4 4, reconcile, (reconcile.run PgStore.reference (Sample.env 4 4) db).1⟩
      (reconcile.run PgStore.reference (Sample.env 4 4) db).2 := step_of_answer rfl
  exact hframe _ _ hstep 10 (show (10 : Uuid) ≠ 11 by decide)

/-- **A stranger who is not answered `NotFound`.**  Service 10 belongs to organization 1;
organization 9 records a usage of `2^63` bytes for it. -/
theorem foreign_usage_refused :
    let db := (PgStore.reference.play Sample.serviceA Database.empty).2
    Reachable PgStore.reference db ∧
      (db.services.lookup 10).any (fun row => decide (row.organizationId = 1)) = true ∧
      (StoreCall.recordUsage 9 2 10 (2 ^ 63) 0 0).run PgStore.reference (Sample.env 4 4) db =
        (.error (.invalidNumericValue "bytes_used"), db) := by
  intro db
  exact ⟨⟨_, play_run _ Sample.serviceA _⟩, by decide +kernel, run_refused (by decide +kernel)⟩

end Syouyu
