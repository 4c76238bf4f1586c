import Syouyu.System.Discipline
import Syouyu.System.Script
import Syouyu.Store.Changes

/-!
# Every finished mutation is audited once

A completing call seals a receipt and writes an audit row in one transaction; the audit row is
about the operation of the receipt, and its outcome is that of the response.

* `Database.Balanced`    as many audit rows as finished receipts, by service, action and outcome;
* `finish_balanced`      a completing call with such an audit event keeps it;
* `balanced_step`        so does every call a handler may make;
* `mutations_audited`    so it holds in every state the handlers reach.
-/

set_option linter.unusedSectionVars false

namespace Syouyu
open Lib

/-! ## counting -/

/-- the audit row is about the service and the action, with this outcome -/
def AuditRow.about (s : Uuid) (action outcome : String) (r : AuditRow) : Bool :=
  decide (r.event.serviceInstanceId = s) && decide (r.event.action = action) &&
    decide (r.event.outcome = outcome)

/-- the receipt is one of the service and the action, in this state -/
def ReceiptRow.about (s : Uuid) (action : String) (state : ReceiptState) (r : ReceiptRow) : Bool :=
  decide (r.serviceInstanceId = s) && decide (r.action = action) && decide (r.state = state)

def ReceiptState.outcome : ReceiptState → String
  | .inProgress => ""
  | .succeeded => "allowed"
  | .failed => "failed"

/-- for every service and action, as many audit rows as receipts that ended this way -/
def Database.Balanced (db : Database) : Prop :=
  ∀ s action state, state ≠ .inProgress →
    db.audits.count (AuditRow.about s action state.outcome) =
      db.receipts.count (ReceiptRow.about s action state)

section
variable {store : PgStore} {env : CallEnv} {db db' : Database}

/-- a change of receipts that leaves alone which are finished -/
theorem Database.Balanced.congr (h : db.Balanced) (ha : db'.audits = db.audits)
    (hr : ∀ s action state, state ≠ .inProgress →
      db'.receipts.count (ReceiptRow.about s action state) =
        db.receipts.count (ReceiptRow.about s action state)) : db'.Balanced := by
  intro s action state hstate
  rw [ha, hr s action state hstate]
  exact h s action state hstate

/-- an update of one receipt that keeps what it is about -/
theorem count_about_kept {k : Uuid} {row : ReceiptRow} {f : ReceiptRow → ReceiptRow}
    (hl : db.receipts.lookup k = some row)
    (hu : db.receipts.updateWhere (receiptSchema.hasKey k) f = .ok db'.receipts)
    (hf : (f row).serviceInstanceId = row.serviceInstanceId ∧ (f row).action = row.action ∧
      (f row).state = row.state) (s : Uuid) (action : String) (state : ReceiptState) :
    db'.receipts.count (ReceiptRow.about s action state) =
      db.receipts.count (ReceiptRow.about s action state) := by
  have hcount := Table.count_replaced hu hl (ReceiptRow.about s action state)
  have hsame : (f row).about s action state = row.about s action state := by
    simp only [ReceiptRow.about, hf]
  rw [hsame] at hcount
  omega

/-- a new receipt is not finished -/
theorem count_about_reserved {operation : OperationRequest}
    (hi : db.receipts.insert (.reserved env operation) = .ok db'.receipts) (s : Uuid)
    (action : String) {state : ReceiptState} (hstate : state ≠ .inProgress) :
    db'.receipts.count (ReceiptRow.about s action state) =
      db.receipts.count (ReceiptRow.about s action state) := by
  have hnot : (ReceiptRow.reserved env operation).about s action state = false := by
    simp [ReceiptRow.about, ReceiptRow.reserved, hstate.symm]
  rw [Table.count_insert hi, hnot]
  rfl

/-! ## steps -/

/-- **a completing call adds one of each**, if its audit event says how the operation ended -/
theorem finish_balanced {call : FinishCall} (h : call.exec store env db = .ok ((), db'))
    (hreports : call.audit.Reports call.operation
      (if call.response.failed then "failed" else "allowed")) (hdb : db.Balanced) :
    db'.Balanced := by
  obtain ⟨-, ⟨row, hl, hq, -, hs⟩, db₁, sealed, t, a, -, -, ht, -, ha, rfl⟩ := finish_eq_ok.mp h
  intro s action state hstate
  have hreceipt := Table.count_replaced ht hl (ReceiptRow.about s action state)
  have haudit := Table.count_insert ha (AuditRow.about s action state.outcome)
  have hbefore : row.about s action state = false := by
    simp [ReceiptRow.about, hs, hstate.symm]
  -- the sealed receipt and the new audit row are about the same
  have hafter : (row.finished env call.response sealed).about s action state =
      AuditRow.about s action state.outcome ⟨env.auditId, call.audit, env.now⟩ := by
    have hservice : row.serviceInstanceId = call.audit.serviceInstanceId :=
      (congrArg OperationRequest.serviceInstanceId hq).trans hreports.service.symm
    have haction : row.action = call.audit.action :=
      (congrArg OperationRequest.action hq).trans hreports.action.symm
    simp only [ReceiptRow.about, AuditRow.about, ReceiptRow.finished, hservice, haction,
      hreports.outcome]
    cases call.response.failed <;> cases state <;> rfl
  rw [hbefore, hafter] at hreceipt
  have hold := hdb s action state hstate
  show a.count _ = t.count _
  split at hreceipt <;> simp_all

theorem Database.Granted.audits {operation : OperationRequest}
    (hg : db.Granted env operation db') : db'.audits = db.audits := by
  have hframe := congrArg Database.audits hg.frame
  exact hframe

theorem prepare_audits {call : PrepareCall} {o : Uuid} {context : call.Context}
    (h : call.exec store env db = .ok (.execute o context, db')) : db'.audits = db.audits := by
  obtain ⟨-, claimed, db₁, hc, hb⟩ := prepare_body h
  cases call with
  | reconcile command =>
    obtain ⟨-, -, -, -, db₂, v, hg, -, rfl⟩ := reconcile_prepared hc hb
    exact hg.audits
  | delete command =>
    obtain ⟨-, -, -, -, hg⟩ := delete_prepared hc hb
    exact hg.audits
  | createCredential command =>
    obtain ⟨-, -, -, ⟨row, hl, hq, hs, he, ht, -⟩ | ⟨hl, hadm, -, t, u, -, hu, hf, rfl⟩⟩ :=
      create_prepared hc hb
    · exact (Database.Granted.takeover hl hq hs he ht).audits
    · rfl
  | revokeCredential command =>
    obtain ⟨-, -, -, -, hg⟩ := revoke_prepared hc hb
    exact hg.audits

theorem prepare_balanced {call : PrepareCall} {o : Uuid} {context : call.Context}
    (h : call.exec store env db = .ok (.execute o context, db')) (hdb : db.Balanced) :
    db'.Balanced := by
  refine hdb.congr (prepare_audits h) fun s action state hstate => ?_
  cases prepare_operation h with
  | same hr _ => rw [hr]
  | granted _ hi _ _ => exact count_about_reserved hi s action hstate
  | reserved _ hi _ => exact count_about_reserved hi s action hstate
  | takenOver hl _ _ _ hu _ => exact count_about_kept hl hu ⟨rfl, rfl, rfl⟩ s action state

/-- **every call a handler may make keeps the balance** -/
theorem balanced_step {r : Request} {log : CallLog} {call : StoreCall}
    {answer : Except StoreError call.Result} (hmay : May r log (.store call))
    (h : StoreStep store db ⟨env, call, answer⟩ db') (hdb : db.Balanced) : db'.Balanced := by
  cases step_cases h with
  | quiet _ => exact hdb
  | executed h => exact prepare_balanced h hdb
  | finished h => exact finish_balanced h hmay.completes.reports hdb
  | renewed h =>
    obtain ⟨-, ⟨row, hl, -⟩, t, ht, rfl⟩ := renewOperation_eq_ok.mp h
    refine hdb.congr rfl fun s action state _ => ?_
    exact @count_about_kept db { db with receipts := t } _ _ _ hl ht ⟨rfl, rfl, rfl⟩ s action state
  | measured _ => cases hmay
  | audited _ => cases hmay

end

/-! ## runs -/

/-- **every finished mutation is audited exactly once**, whatever the interleaving of handlers, and
whatever Garage does -/
theorem mutations_audited {store : PgStore} {behaviour : GarageBehaviour} {state : AppState}
    {garage : Garage} {tr : List SystemEvent} {s : System}
    (h : Run (SystemStep store behaviour state) (System.start garage) tr s) (service : Uuid)
    (action : String) :
    s.world.db.audits.count (AuditRow.about service action "allowed") =
        s.world.db.receipts.count (ReceiptRow.about service action .succeeded) ∧
      s.world.db.audits.count (AuditRow.about service action "failed") =
        s.world.db.receipts.count (ReceiptRow.about service action .failed) := by
  have hsound : s.Sound May (fun w => w.db.Balanced) (fun _ _ => True) := by
    have hstart : (System.start garage).Sound May (fun w => w.db.Balanced) (fun _ _ => True) :=
      ⟨fun _ _ _ _ => rfl, fun _ ht => absurd ht List.not_mem_nil⟩
    refine Pool.run_sound h hstart (handle_obeys state) ?_
    intro w w' e a r log hinv _ hmay heff
    refine ⟨?_, trivial, fun _ _ => trivial⟩
    cases e with
    | store call =>
      obtain ⟨⟨env, hstep⟩, -⟩ := heff
      exact balanced_step hmay hstep hinv
    | garage call => exact heff.2 ▸ hinv
    | query q => exact heff.2 ▸ hinv
  exact ⟨hsound.inv service action .succeeded (by decide),
    hsound.inv service action .failed (by decide)⟩

/-- the reconcile that opens a service leaves one receipt and one audit row -/
theorem mutations_audited_opened :
    (Sample.after Sample.opened).world.db.receipts.count
        (ReceiptRow.about 10 providerReconcileAction .succeeded) = 1 ∧
      (Sample.after Sample.opened).world.db.audits.count
        (AuditRow.about 10 providerReconcileAction "allowed") = 1 := by
  have hone : (Sample.after Sample.opened).world.db.receipts.count
      (ReceiptRow.about 10 providerReconcileAction .succeeded) = 1 := by decide +kernel
  have hrun : Run (SystemStep PgStore.reference Garage.Documented AppState.reference)
      (System.start Garage.empty) _ (Sample.after Sample.opened) := System.play_run _ _
  refine ⟨hone, ?_⟩
  rw [(mutations_audited hrun 10 providerReconcileAction).1]
  exact hone

end Syouyu
