import Syouyu.Store.Spec
import Syouyu.Lib.Lease

/-!
# Runs of the store

Any number of callers issue calls in any order; each call is one step.  A `CallRecord` is a call
with its surroundings and its answer, `StoreStep` performs it, and `Reachable` are the databases
that runs from the empty one lead to.

* `step_error`, `step_ok`   the two outcomes of a step;
* `prepare_eq_ok`           the two ways a prepare call is answered;
* `prepare_executed`        what is common to all four prepare calls that ask for execution;
* `step_cases`              the kinds of steps that may change the database.
-/

set_option linter.unusedSectionVars false

namespace Syouyu
open Lib

/-- a call that was made and what it answered -/
structure CallRecord where
  env : CallEnv
  call : StoreCall
  answer : Except StoreError call.Result

def StoreStep (store : PgStore) (db : Database) (r : CallRecord) (db' : Database) : Prop :=
  r.call.run store r.env db = (r.answer, db')

/-- reachable from the empty database by any run of calls -/
def Reachable (store : PgStore) (db : Database) : Prop :=
  ∃ tr, Run (StoreStep store) Database.empty tr db

section
variable {store : PgStore} {db db' : Database} {env : CallEnv}

/-- a call that answers an error changes nothing -/
theorem step_error {call : StoreCall} {e : StoreError}
    (h : StoreStep store db ⟨env, call, .error e⟩ db') : db' = db :=
  (Tx.atomically_error.mp h).2

theorem step_ok {call : StoreCall} {a : call.Result}
    (h : StoreStep store db ⟨env, call, .ok a⟩ db') : call.exec store env db = .ok (a, db') :=
  Tx.atomically_ok.mp h

/-- a completing call that succeeded -/
theorem step_finished {call : FinishCall} {u : Unit}
    (h : StoreStep store db ⟨env, .finish call, .ok u⟩ db') :
    call.exec store env db = .ok (u, db') :=
  step_ok h

theorem step_of_ok {call : StoreCall} {a : call.Result}
    (h : call.exec store env db = .ok (a, db')) : StoreStep store db ⟨env, call, .ok a⟩ db' :=
  Tx.atomically_ok.mpr h

/-- the step a call makes is known by its answer -/
theorem step_of_answer {call : StoreCall} {answer : Except StoreError call.Result}
    (h : (call.run store env db).1 = answer) :
    StoreStep store db ⟨env, call, answer⟩ (call.run store env db).2 :=
  Prod.ext h rfl

theorem run_refused {call : StoreCall} {e : StoreError}
    (h : (call.run store env db).1 = .error e) : call.run store env db = (.error e, db) :=
  Prod.ext h (step_error (step_of_answer h))

/-! ## prepare calls -/

theorem prepare_eq_ok {call : PrepareCall} {answer : Prepare call.Context} :
    call.exec store env db = .ok (answer, db') ↔
      call.validate = .ok () ∧
      ((db' = db ∧ ∃ row, db.receipts.lookup call.operation.idempotencyKey = some row ∧
          row.request = call.operation ∧ store.Settled env row call.Context answer) ∨
        ∃ claimed db₁ granted, db.Claimed env call.operation claimed db₁ ∧
          call.body store env claimed db₁ = .ok (granted, db') ∧
          answer = .execute granted.1 granted.2) := by
  rw [PrepareCall.exec_eq, Tx.bind_eq_ok]
  simp only [Tx.ofExcept_eq_ok, withClaim_eq_ok]
  constructor
  · rintro ⟨_, _, ⟨hv, rfl⟩, h⟩
    exact ⟨hv, h⟩
  · rintro ⟨hv, h⟩
    exact ⟨(), db, ⟨hv, rfl⟩, h⟩

/-- an answer of an existing receipt is not a request to execute -/
theorem not_settled_execute {row : ReceiptRow} {α : Type} {o : Uuid} {c : α} :
    ¬ store.Settled env row α (.execute o c) := by
  rintro (⟨-, -, h⟩ | ⟨-, _, -, h⟩) <;> cases h

/-- a prepare call that does not ask for execution changes nothing -/
theorem prepare_unchanged {call : PrepareCall} {answer : Prepare call.Context}
    (h : call.exec store env db = .ok (answer, db'))
    (hne : ∀ o c, answer ≠ .execute o c) : db' = db := by
  obtain ⟨-, ⟨rfl, -⟩ | ⟨_, _, granted, -, -, rfl⟩⟩ := prepare_eq_ok.mp h
  · rfl
  · exact absurd rfl (hne granted.1 granted.2)

/-- the claim and the body behind a request to execute -/
theorem prepare_body {call : PrepareCall} {o : Uuid} {context : call.Context}
    (h : call.exec store env db = .ok (.execute o context, db')) :
    call.validate = .ok () ∧ ∃ claimed db₁, db.Claimed env call.operation claimed db₁ ∧
      call.body store env claimed db₁ = .ok ((o, context), db') := by
  obtain ⟨hv, ⟨rfl, row, -, -, hset⟩ | ⟨claimed, db₁, granted, hc, hb, hans⟩⟩ := prepare_eq_ok.mp h
  · exact absurd hset not_settled_execute
  · cases hans
    exact ⟨hv, claimed, db₁, hc, hb⟩

/-- **a caller that is to execute holds a receipt under a fresh operation id, and no other
receipt of its service is held** -/
theorem prepare_executed {call : PrepareCall} {o : Uuid} {context : call.Context}
    (h : call.exec store env db = .ok (.execute o context, db')) :
    o = env.operationId ∧
    db.OnlyHeld call.operation.serviceInstanceId call.operation.idempotencyKey ∧
    ∃ db₁, db.Granted env call.operation db₁ ∧ db'.receipts = db₁.receipts := by
  obtain ⟨-, claimed, db₁, hc, hb⟩ := prepare_body h
  cases call with
  | reconcile command =>
    obtain ⟨ho, hheld, -, -, db₂, v, hg, -, rfl⟩ := reconcile_prepared hc hb
    exact ⟨ho, hheld, db₂, hg, rfl⟩
  | delete command =>
    obtain ⟨ho, hheld, -, -, hg⟩ := delete_prepared hc hb
    exact ⟨ho, hheld, db', hg, rfl⟩
  | createCredential command =>
    obtain ⟨ho, hheld, -, ⟨row, hl, hq, hs, he, ht, -⟩ | ⟨hl, -, -, t, u, hi, -, -, rfl⟩⟩ :=
      create_prepared hc hb
    · exact ⟨ho, hheld, db', .takeover hl hq hs he ht, rfl⟩
    · exact ⟨ho, hheld, _, .new hl hi, rfl⟩
  | revokeCredential command =>
    obtain ⟨ho, hheld, -, -, hg⟩ := revoke_prepared hc hb
    exact ⟨ho, hheld, db', hg, rfl⟩

end

/-! ## the kinds of steps -/

abbrev ReceiptEvent := Lease.Event Uuid OperationRequest Uuid Timestamp

/-- the event of a prepare answer -/
def prepareEvent (env : CallEnv) (call : PrepareCall) :
    Except StoreError (Prepare call.Context) → ReceiptEvent
  | .ok (.execute operationId _) =>
    .acquire call.operation.idempotencyKey call.operation operationId env.leaseEnd
  | _ => .idle

/-- the event of a finishing call -/
def finishEvent (call : FinishCall) : Except StoreError Unit → ReceiptEvent
  | .ok _ => .close call.operation.idempotencyKey call.operationId
  | .error _ => .idle

/-- the event of `renew_operation` -/
def renewEvent (env : CallEnv) (operation : OperationRequest) (operationId : Uuid) :
    Except StoreError Unit → ReceiptEvent
  | .ok _ => .extend operation.idempotencyKey operationId env.leaseEnd
  | .error _ => .idle

/-- what a call and its answer mean for the ledger -/
def eventOf : CallRecord → Timestamp × ReceiptEvent
  | ⟨env, .prepare call, answer⟩ => (env.clock, prepareEvent env call answer)
  | ⟨env, .finish call, answer⟩ => (env.clock, finishEvent call answer)
  | ⟨env, .renewOperation operation operationId, answer⟩ =>
    (env.clock, renewEvent env operation operationId answer)
  | ⟨env, _, _⟩ => (env.clock, .idle)

/-- A step that touches no receipt and no other table (a failed call, a replay, a lookup), or one
of the five kinds of steps that may write. -/
inductive StepCases (store : PgStore) (db : Database) : CallRecord → Database → Prop
  | quiet {r : CallRecord} : (eventOf r).2 = .idle → StepCases store db r db
  | executed {env : CallEnv} {call : PrepareCall} {o : Uuid} {context : call.Context}
      {db' : Database} : call.exec store env db = .ok (.execute o context, db') →
      StepCases store db ⟨env, .prepare call, .ok (.execute o context)⟩ db'
  | finished {env : CallEnv} {call : FinishCall} {db' : Database} :
      call.exec store env db = .ok ((), db') →
      StepCases store db ⟨env, .finish call, .ok ()⟩ db'
  | renewed {env : CallEnv} {operation : OperationRequest} {operationId : Uuid} {db' : Database} :
      PgStore.renewOperation env operation operationId db = .ok ((), db') →
      StepCases store db ⟨env, .renewOperation operation operationId, .ok ()⟩ db'
  | measured {env : CallEnv} {o p s : Uuid} {bytes objects : UInt64} {measuredAt : Timestamp}
      {record : UsageRecord} {db' : Database} :
      PgStore.recordUsage env o p s bytes objects measuredAt db = .ok (record, db') →
      StepCases store db ⟨env, .recordUsage o p s bytes objects measuredAt, .ok record⟩ db'
  | audited {env : CallEnv} {audit : AuditEvent} {db' : Database} :
      insertAudit env audit db = .ok ((), db') →
      StepCases store db ⟨env, .recordAudit audit, .ok ()⟩ db'

/-- **what a step can be** -/
theorem step_cases {store : PgStore} {db db' : Database} {r : CallRecord}
    (h : StoreStep store db r db') : StepCases store db r db' := by
  obtain ⟨env, call, answer⟩ := r
  cases answer with
  | error e =>
    obtain rfl := step_error h
    cases call <;> exact .quiet rfl
  | ok a =>
    have h := step_ok h
    cases call with
    | prepare call =>
      change Prepare call.Context at a
      cases a with
      | execute o context => exact .executed h
      | replay response =>
        obtain rfl := prepare_unchanged h (fun _ _ => nofun)
        exact .quiet rfl
      | inProgress o =>
        obtain rfl := prepare_unchanged h (fun _ _ => nofun)
        exact .quiet rfl
    | finish call => exact .finished h
    | renewOperation operation operationId => exact .renewed h
    | serviceOverview o p s =>
      obtain rfl := select_unchanged h
      exact .quiet rfl
    | listCredentials o p s =>
      obtain rfl := select_unchanged h
      exact .quiet rfl
    | recordUsage o p s bytes objects measuredAt => exact .measured h
    | recordAudit audit => exact .audited h

end Syouyu
