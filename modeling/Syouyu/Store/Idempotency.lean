import Syouyu.Store.Ledger
import Syouyu.Store.Reference

/-!
# Idempotency, exclusion and fencing

What the ledger gives for whole runs of the store, by any number of callers with any arguments:

* `receipt_exactly_once`   a receipt keeps its request, is finished at most once, and then answers
                           every later prepare call with the sealed response;
* `one_operation_per_service`   at most one held receipt per service instance;
* `superseded_fenced`      an operation id that lost its receipt never gets it back, and every call
                           that carries it fails without a trace.
-/

set_option linter.unusedSectionVars false

namespace Syouyu
open Lib

section
variable {store : PgStore} {env : CallEnv} {db db' : Database} {tr : List CallRecord}

/-! ## finished receipts -/

/-- the call finished the receipt of the key -/
def CallRecord.finishes (k : Uuid) : CallRecord → Bool
  | ⟨_, .finish call, answer⟩ =>
    decide (call.operation.idempotencyKey = k) && Except.isOk (ε := StoreError) (α := Unit) answer
  | _ => false

theorem finishes_eq_closes (k : Uuid) (r : CallRecord) :
    r.finishes k = Lease.closes k (eventOf r) := by
  obtain ⟨env, call, answer⟩ := r
  cases call with
  | finish call =>
    cases answer with
    | ok u => simp [CallRecord.finishes, eventOf, finishEvent, Lease.closes, Except.isOk, Except.toBool]
    | error e => simp [CallRecord.finishes, eventOf, finishEvent, Lease.closes, Except.isOk, Except.toBool]
  | prepare call =>
    change Except StoreError (Prepare call.Context) at answer
    cases answer with
    | error e => rfl
    | ok a => cases a <;> rfl
  | renewOperation operation operationId =>
    cases answer <;> rfl
  | _ => rfl

/-- a receipt keeps its request, and a finished one everything -/
theorem receipt_kept (h : Run (StoreStep store) db tr db') {k : Uuid} {row : ReceiptRow}
    (hl : db.receipts.lookup k = some row) :
    ∃ row', db'.receipts.lookup k = some row' ∧ row'.request = row.request ∧
      (row.state ≠ .inProgress → row' = row) := by
  obtain ⟨e, he, hi, hc⟩ := Lease.run_kept (run_ledger h) (ledger_eq_some.mpr ⟨row, hl, rfl⟩)
  obtain ⟨row', hl', rfl⟩ := ledger_eq_some.mp he
  refine ⟨row', hl', hi, fun hs => ?_⟩
  have hsame : row'.entry = row.entry := hc (mt (entry_held hl).mp hs)
  have hs' : row'.state ≠ .inProgress := by
    intro h'
    have hheld := (entry_held hl').mpr h'
    rw [hsame] at hheld
    exact hs ((entry_held hl).mp hheld)
  rw [entry_done hs, entry_done hs'] at hsame
  exact Lease.Phase.closed.inj (Lease.Entry.mk.inj hsame).2.2

/-- a finishing call leaves a receipt that decodes to its response -/
theorem finish_receipt {call : FinishCall} {u : Unit}
    (h : call.exec store env db = .ok (u, db')) :
    ∃ row, db'.receipts.lookup call.operation.idempotencyKey = some row ∧
      row.state ≠ .inProgress ∧ row.request = call.operation ∧
      store.decodeReceipt row = .ok call.response := by
  obtain ⟨-, ⟨row, hl, hq, ho, hs⟩, db₁, sealed, t, a, -, he, ht, -, -, rfl⟩ := finish_eq_ok.mp h
  refine ⟨row.finished env call.response sealed, ?_, finished_done _ _ _ _, hq, ?_⟩
  · show t.lookup _ = _
    exact Table.lookup_updated ht (fun _ => rfl) hl
  · apply PgStore.decodeReceipt_finished
    rw [show row.idempotencyKey = call.operation.idempotencyKey from Table.lookup_key hl, ho]
    exact he

/-- a finished receipt answers its own request with the sealed response -/
theorem prepare_replays {call : PrepareCall} {row : ReceiptRow} {response : StoredHttpResponse}
    (hv : call.validate = .ok ()) (hl : db.receipts.lookup call.operation.idempotencyKey = some row)
    (hs : row.state ≠ .inProgress) (hd : store.decodeReceipt row = .ok response)
    (hm : row.matches call.operation = true) :
    (StoreCall.prepare call).run store env db = (.ok (.replay response), db) :=
  Tx.atomically_ok.mpr (prepare_eq_ok.mpr ⟨hv, .inl ⟨rfl, row, hl, (matches_of_lookup hl).mp hm,
    .inr ⟨hs, response, hd, rfl⟩⟩⟩)

/-- a receipt refuses every other request under its key -/
theorem prepare_conflicts {call : PrepareCall} {row : ReceiptRow}
    (hv : call.validate = .ok ()) (hl : db.receipts.lookup call.operation.idempotencyKey = some row)
    (hm : row.matches call.operation = false) :
    (StoreCall.prepare call).run store env db = (.error .idempotencyConflict, db) := by
  refine Tx.atomically_error.mpr ⟨?_, rfl⟩
  show call.exec store env db = _
  have hclaim : claimExistingReceipt store env call.operation db = .error .idempotencyConflict := by
    rw [claimExistingReceipt, Tx.read_bind, hl]
    exact Tx.bind_apply_error (by simp [Tx.ensure, hm])
  rw [PrepareCall.exec_eq, Tx.bind_apply_ok (Tx.ofExcept_eq_ok.mpr ⟨hv, rfl⟩), withClaim]
  exact Tx.bind_apply_error hclaim

/-- **Exactly-once effect and faithful replay.**  In every run from any database, a receipt keeps
the request it was written for; its key is finished at most once; and once a finishing call has
gone through with a response, the receipt never changes again, replays exactly that response to
its own request and refuses every other request under the key. -/
theorem receipt_exactly_once (store : PgStore) :
    (∀ db tr db', Run (StoreStep store) db tr db' → ∀ k row, db.receipts.lookup k = some row →
      ∃ row', db'.receipts.lookup k = some row' ∧ row'.request = row.request) ∧
    (∀ db tr db', Run (StoreStep store) db tr db' → ∀ k,
      (tr.filter (CallRecord.finishes k)).length ≤ 1) ∧
    (∀ db env call db₁, StoreStep store db ⟨env, .finish call, .ok ()⟩ db₁ →
      ∀ tr db₂, Run (StoreStep store) db₁ tr db₂ →
      ∃ row, db₁.receipts.lookup call.operation.idempotencyKey = some row ∧
        db₂.receipts.lookup call.operation.idempotencyKey = some row ∧
        ∀ env' (prepare : PrepareCall), prepare.validate = .ok () →
          prepare.operation.idempotencyKey = call.operation.idempotencyKey →
          (row.matches prepare.operation = true →
            (StoreCall.prepare prepare).run store env' db₂ =
              (.ok (.replay call.response), db₂)) ∧
          (row.matches prepare.operation = false →
            (StoreCall.prepare prepare).run store env' db₂ =
              (.error .idempotencyConflict, db₂))) := by
  refine ⟨fun db tr db' h k row hl => ?_, fun db tr db' h k => ?_,
    fun db env call db₁ hf tr db₂ h => ?_⟩
  · obtain ⟨row', hl', hq, -⟩ := receipt_kept h hl
    exact ⟨row', hl', hq⟩
  · have honce := Lease.run_close_once (run_ledger h) k
    rw [List.filter_map, List.length_map] at honce
    rwa [show CallRecord.finishes k = Lease.closes k ∘ eventOf from
      funext (finishes_eq_closes k)]
  · obtain ⟨row, hl, hs, -, hd⟩ := finish_receipt (step_ok hf)
    obtain ⟨row', hl', -, hsame⟩ := receipt_kept h hl
    obtain rfl := hsame hs
    refine ⟨row', hl, hl', fun env' prepare hv hk => ?_⟩
    rw [← hk] at hl'
    exact ⟨prepare_replays hv hl' hs hd, prepare_conflicts hv hl'⟩

/-- service A is reconciled once; its request is answered from the receipt from then on -/
theorem receipt_exactly_once_serviceA :
    let db := (PgStore.reference.play Sample.serviceA Database.empty).2
    (StoreCall.prepare (.reconcile (Sample.reconcile 100 10 "a" "bucket-a" 1))).run
      PgStore.reference (Sample.env 9 9) db = (.ok (.replay ⟨200, .object [], false⟩), db) := by
  intro db
  obtain ⟨-, -, hreplay⟩ := receipt_exactly_once PgStore.reference
  obtain ⟨row, hl, -, hrow⟩ := hreplay
    (PgStore.reference.play (Sample.serviceA.take 1) Database.empty).2 (Sample.env 1 1)
    ⟨.reconcile (Sample.reconcile 100 10 "a" "bucket-a" 1) "garage-a", 1000,
      ⟨200, .object [], false⟩, Sample.audit (Sample.reconcile 100 10 "a" "bucket-a" 1).operation⟩
    db (Prod.ext (by decide +kernel) rfl) [] db (.nil _)
  refine (hrow (Sample.env 9 9) (.reconcile (Sample.reconcile 100 10 "a" "bucket-a" 1))
    (by decide +kernel) rfl).1 ?_
  have hm : (db.receipts.lookup 100).any
      (·.matches (Sample.reconcile 100 10 "a" "bucket-a" 1).operation) = true := by
    decide +kernel
  obtain ⟨row', hl', hmatch⟩ := (Option.any_eq_true _ _).mp hm
  exact Option.some.inj (hl'.symm.trans hl) ▸ hmatch

/-! ## one operation per service -/

/-- any two held receipts of one service are one -/
def Database.Exclusive (db : Database) : Prop :=
  ∀ a ∈ db.receipts.rows, ∀ b ∈ db.receipts.rows, a.serviceInstanceId = b.serviceInstanceId →
    a.state = .inProgress → b.state = .inProgress → a = b

theorem exclusive_of_ledger
    (h : Lease.Exclusive OperationRequest.serviceInstanceId (ledger db.receipts)) :
    db.Exclusive := by
  intro a ha b hb hs hpa hpb
  have hla := Table.lookup_of_mem ha
  have hlb := Table.lookup_of_mem hb
  have hkey : receiptSchema.key a = receiptSchema.key b :=
    h _ b.entry (ledger_eq_some.mpr ⟨b, hlb, rfl⟩) ((entry_held hlb).mpr hpb) _ a.entry
      (ledger_eq_some.mpr ⟨a, hla, rfl⟩) ((entry_held hla).mpr hpa) hs
  exact db.receipts.eq_of_key ha hb hkey

theorem reachable_exclusive (h : Reachable store db) : db.Exclusive := by
  obtain ⟨tr, h⟩ := h
  have hrun := run_ledger h
  rw [ledger_empty] at hrun
  exact exclusive_of_ledger (Lease.run_exclusive hrun Lease.exclusive_empty)

/-- the receipt of a caller that is to execute -/
theorem executed_receipt {call : PrepareCall} {o : Uuid} {context : call.Context}
    (h : call.exec store env db = .ok (.execute o context, db')) :
    ∃ row, db'.receipts.lookup call.operation.idempotencyKey = some row ∧
      row.request = call.operation ∧ row.operationId = o ∧ row.state = .inProgress := by
  obtain ⟨rfl, -, db₁, hg, hr⟩ := prepare_executed h
  rw [hr]
  cases hg with
  | new hl hi =>
    refine ⟨.reserved env call.operation, ?_, rfl, rfl, rfl⟩
    rw [Table.lookup_insert hi]
    exact if_pos rfl
  | @takeover row _ hl hq hs he ht =>
    obtain ⟨t, u, ht, -, rfl⟩ := ht
    refine ⟨row.takenOver env, ?_, hq, rfl, hs⟩
    show t.lookup _ = _
    rw [Table.lookup_update_key ht (fun _ => rfl)]
    rw [show row.idempotencyKey = call.operation.idempotencyKey from Table.lookup_key hl,
      if_pos rfl, hl]
    rfl

/-- **Per-service mutual exclusion.**  After every run from the empty database each service
instance has at most one receipt in progress, and the receipt of a prepare call that answers
`Execute` is the only one of its service. -/
theorem one_operation_per_service (store : PgStore) (tr : List CallRecord) (db : Database)
    (h : Run (StoreStep store) Database.empty tr db) :
    (∀ a ∈ db.receipts.rows, ∀ b ∈ db.receipts.rows,
      a.serviceInstanceId = b.serviceInstanceId →
      a.state = .inProgress → b.state = .inProgress → a = b) ∧
    ∀ env call o context db',
      StoreStep store db ⟨env, .prepare call, .ok (.execute o context)⟩ db' →
      ∃ a ∈ db'.receipts.rows, a.request = call.operation ∧ a.operationId = o ∧
        a.state = .inProgress ∧
        ∀ b ∈ db'.receipts.rows, b.serviceInstanceId = call.operation.serviceInstanceId →
          b.state = .inProgress → b = a := by
  refine ⟨reachable_exclusive ⟨tr, h⟩, fun env call o context db' hstep => ?_⟩
  obtain ⟨a, hl, hq, ho, hs⟩ := executed_receipt (step_ok hstep)
  have hx : db'.Exclusive := reachable_exclusive ⟨_, h.append (.single hstep)⟩
  have ha := Table.lookup_mem hl
  refine ⟨a, ha, hq, ho, hs, fun b hb hsb hpb => ?_⟩
  exact hx b hb a ha (hsb.trans (congrArg OperationRequest.serviceInstanceId hq).symm) hpb hs

/-- while the credential is being created, its receipt is the one held receipt -/
theorem one_operation_per_service_creating :
    let db := (PgStore.reference.play Sample.creating Database.empty).2
    (∃ a ∈ db.receipts.rows, a.state = .inProgress) ∧
      ∀ a ∈ db.receipts.rows, ∀ b ∈ db.receipts.rows,
        a.serviceInstanceId = b.serviceInstanceId →
        a.state = .inProgress → b.state = .inProgress → a = b :=
  ⟨by decide +kernel, (one_operation_per_service _ _ _ (play_run _ Sample.creating _)).1⟩

/-! ## fencing -/

/-- the operation id of an answer that asks for execution -/
def executedId {α : Type} : Except StoreError (Prepare α) → Option Uuid
  | .ok (.execute operationId _) => some operationId
  | _ => none

/-- the operation id a call handed out -/
def CallRecord.handedOut : CallRecord → Option Uuid
  | ⟨_, .prepare call, answer⟩ => executedId (α := call.Context) answer
  | _ => none

theorem handedOut_eq (r : CallRecord) :
    (Lease.acquisition (eventOf r)).map Prod.snd = r.handedOut := by
  obtain ⟨env, call, answer⟩ := r
  cases call with
  | prepare call =>
    change Except StoreError (Prepare call.Context) at answer
    cases answer with
    | error e => rfl
    | ok a => cases a <;> rfl
  | finish call => cases answer <;> rfl
  | renewOperation operation operationId => cases answer <;> rfl
  | _ => rfl

/-- what is handed out is the fresh id of the call -/
theorem handedOut_fresh {r : CallRecord} (h : StoreStep store db r db') {o : Uuid}
    (ho : r.handedOut = some o) : o = r.env.operationId := by
  obtain ⟨env, call, answer⟩ := r
  cases call with
  | prepare call =>
    change Except StoreError (Prepare call.Context) at answer
    cases answer with
    | error e => cases ho
    | ok a =>
      cases a with
      | execute o' context =>
        obtain rfl : o' = o := Option.some.inj ho
        exact (prepare_executed (step_ok h)).1
      | replay response => cases ho
      | inProgress o' => cases ho
  | _ => cases ho

theorem handedOut_sublist (h : Run (StoreStep store) db tr db') :
    (tr.filterMap CallRecord.handedOut).Sublist (tr.map fun r => r.env.operationId) := by
  induction h with
  | nil db => exact List.Sublist.slnil
  | @cons _ _ _ r tr hs _ ih =>
    rw [List.filterMap_cons, List.map_cons]
    cases hr : r.handedOut with
    | none => exact ih.cons _
    | some o =>
      obtain rfl := handedOut_fresh hs hr
      exact ih.cons_cons _

theorem acquisitions_eq (tr : List CallRecord) :
    ((tr.map eventOf).filterMap Lease.acquisition).map Prod.snd =
      tr.filterMap CallRecord.handedOut := by
  rw [List.filterMap_map, List.map_filterMap]
  exact congrArg (fun f => tr.filterMap f) (funext handedOut_eq)

/-- without the receipt nothing can be finished or renewed -/
theorem finish_refused {call : FinishCall} (h : ¬ db.HeldBy call.operation call.operationId) :
    ∃ e, (StoreCall.finish call).run store env db = (.error e, db) := by
  cases hx : call.exec store env db with
  | error e => exact ⟨e, Tx.atomically_error.mpr ⟨hx, rfl⟩⟩
  | ok p => exact absurd (finish_eq_ok.mp hx).2.1 h

theorem renew_refused {operation : OperationRequest} {o : Uuid} (h : ¬ db.HeldBy operation o) :
    ∃ e, (StoreCall.renewOperation operation o).run store env db = (.error e, db) := by
  cases hx : PgStore.renewOperation env operation o db with
  | error e => exact ⟨e, Tx.atomically_error.mpr ⟨hx, rfl⟩⟩
  | ok p => exact absurd (renewOperation_eq_ok.mp hx).2.1 h

/-- **Fencing.**  Over every run in which `Uuid::now_v7` gives each call an unused id: no
operation id is handed out twice; a receipt changes its operation id only when its lease is not
later than the clock; and an operation id that a receipt has lost is no receipt's operation id
again, so that every finishing or renewing call that carries it answers an error and leaves the
database exactly as it was. -/
theorem superseded_fenced (store : PgStore) (tr₁ tr₂ tr₃ : List CallRecord)
    (db₁ db₂ db₃ : Database) (h₁ : Run (StoreStep store) Database.empty tr₁ db₁)
    (h₂ : Run (StoreStep store) db₁ tr₂ db₂) (h₃ : Run (StoreStep store) db₂ tr₃ db₃)
    (hfresh : ((tr₁ ++ tr₂ ++ tr₃).map fun r => r.env.operationId).Nodup) :
    ((tr₁ ++ tr₂ ++ tr₃).filterMap CallRecord.handedOut).Nodup ∧
    (∀ r db', StoreStep store db₁ r db' → ∀ k row row', db₁.receipts.lookup k = some row →
      db'.receipts.lookup k = some row' → row'.operationId ≠ row.operationId →
      ∃ t, row.leaseExpiresAt = some t ∧ t ≤ r.env.clock) ∧
    ∀ k row₁ row₂, db₁.receipts.lookup k = some row₁ → db₂.receipts.lookup k = some row₂ →
      row₂.operationId ≠ row₁.operationId →
      (∀ row ∈ db₃.receipts.rows, row.operationId ≠ row₁.operationId) ∧
      (∀ env call, call.operationId = row₁.operationId →
        ∃ e, (StoreCall.finish call).run store env db₃ = (.error e, db₃)) ∧
      (∀ env operation,
        ∃ e, (StoreCall.renewOperation operation row₁.operationId).run store env db₃ =
          (.error e, db₃)) := by
  have hnodup : ((tr₁ ++ tr₂ ++ tr₃).filterMap CallRecord.handedOut).Nodup :=
    hfresh.sublist (handedOut_sublist ((h₁.append h₂).append h₃))
  refine ⟨hnodup, fun r db' hs k row row' hl hl' hne => ?_, fun k row₁ row₂ hl₁ hl₂ hne => ?_⟩
  · obtain ⟨t, ht, hle, -⟩ := (step_ledger hs).holder_changed
      (ledger_eq_some.mpr ⟨row, hl, rfl⟩) (ledger_eq_some.mpr ⟨row', hl', rfl⟩) hne
    refine ⟨t, ?_, ?_⟩
    · have hp := (entry_held hl).mp ⟨t, ht⟩
      obtain ⟨u, hu⟩ := Option.isSome_iff_exists.mp (lease_of_inProgress hl hp)
      rw [entry_inProgress row hp hu] at ht
      rw [hu, Lease.Phase.held.inj ht]
    · obtain ⟨env, call, answer⟩ := r
      cases call <;> exact hle
  · have hgone : ∀ row ∈ db₃.receipts.rows, row.operationId ≠ row₁.operationId := by
      have hrun₁ := run_ledger h₁
      rw [ledger_empty] at hrun₁
      have hheld : (ledger db₁.receipts k).map Lease.Entry.holder = some row₁.operationId := by
        simp [ledger, hl₁, ReceiptRow.entry]
      have hlost : (ledger db₂.receipts k).map Lease.Entry.holder ≠ some row₁.operationId := by
        simpa [ledger, hl₂, ReceiptRow.entry] using hne
      intro row hr
      refine Lease.run_superseded hrun₁ (run_ledger h₂) (run_ledger h₃) ?_ hheld hlost _ row.entry
        (ledger_eq_some.mpr ⟨row, Table.lookup_of_mem hr, rfl⟩)
      rw [← List.map_append, ← List.map_append, acquisitions_eq]
      exact hnodup
    have hfree : ∀ operation, ¬ db₃.HeldBy operation row₁.operationId := by
      rintro operation ⟨row, hl, -, ho, -⟩
      exact hgone row (Table.lookup_mem hl) ho
    exact ⟨hgone, fun env call hc => finish_refused (hc ▸ hfree _),
      fun env operation => renew_refused (hfree operation)⟩

/-- the first attempt at the credential, superseded, can no longer be completed -/
theorem superseded_fenced_retrying :
    let first := (PgStore.reference.play Sample.creating Database.empty).2
    let db := (PgStore.reference.play Sample.retrying first).2
    ∃ e, (Sample.finish (.fail (Sample.create 101 10 "key").operation) 1002).run
      PgStore.reference (Sample.env 201 9) db = (.error e, db) := by
  intro first db
  have h₁ : Run _ _ _ first := play_run PgStore.reference Sample.creating Database.empty
  have h₂ : Run _ _ _ db := play_run PgStore.reference Sample.retrying first
  obtain ⟨-, -, hfenced⟩ := superseded_fenced _ _ _ [] _ _ _ h₁ h₂ (.nil _) (by decide +kernel)
  obtain ⟨row₁, hl₁, ho₁⟩ := (Option.any_eq_true _ _).mp (show
    (first.receipts.lookup 101).any (fun row => decide (row.operationId = 1002)) = true by
      decide +kernel)
  obtain ⟨row₂, hl₂, ho₂⟩ := (Option.any_eq_true _ _).mp (show
    (db.receipts.lookup 101).any (fun row => decide (row.operationId = 1003)) = true by
      decide +kernel)
  rw [decide_eq_true_eq] at ho₁ ho₂
  obtain ⟨-, hfinish, -⟩ := hfenced 101 row₁ row₂ hl₁ hl₂ (by rw [ho₁, ho₂]; decide)
  exact hfinish _ _ ho₁.symm

end

end Syouyu
