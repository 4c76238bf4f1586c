import Syouyu.System.Discipline
import Syouyu.Store.Contexts
import Syouyu.Lib.Exec

/-!
# What an `Execute` answer is worth

A handler that was told to execute an operation may lose its receipt at any time.  What it was told
is true of the database as long as the receipt is in progress, whoever holds it now.

* `Database.Vouches`        the receipt is on record, and while it is in progress the context
                            describes the database;
* `vouches_of_executed`     true of an `Execute` answer, and `Database.Vouches.step` of every
                            database after it;
* `Database.Vouches.observed`   so a call that gets through to its receipt can rely on the context;
* `credential_written`, `bucket_written`   where a credential row and the bucket id of a service come
                            from: only a call that holds its receipt writes them.
-/

set_option linter.unusedSectionVars false

namespace Syouyu
open Lib

section
variable {store : PgStore} {env : CallEnv} {db db' : Database} {r : CallRecord}

theorem Reachable.empty : Reachable store Database.empty := ⟨[], .nil _⟩

theorem Reachable.run {tr : List CallRecord} (hreach : Reachable store db)
    (h : Run (StoreStep store) db tr db') : Reachable store db' := by
  obtain ⟨tr₀, hrun⟩ := hreach
  exact ⟨tr₀ ++ tr, hrun.append h⟩

theorem Reachable.step (hreach : Reachable store db) (h : StoreStep store db r db') :
    Reachable store db' := hreach.run (.single h)

theorem Reachable.effect {behaviour : GarageBehaviour} {w w' : World} {e : Call} {a : e.Answer}
    (hreach : Reachable store w.db) (h : World.Effect store behaviour w e a w') :
    Reachable store w'.db := by
  cases e with
  | store call =>
    obtain ⟨⟨env, hstep⟩, -⟩ := h
    exact hreach.step hstep
  | garage call => exact h.2 ▸ hreach
  | query q => exact congrArg World.db h.2 ▸ hreach

/-- one handler after another keeps to the reachable databases -/
theorem Reachable.runs {behaviour : GarageBehaviour} {w w' : World} {ε α : Type}
    {p q : HandlerM ε α} {log : CallLog} (hreach : Reachable store w.db)
    (h : Prog.Runs (World.Effect store behaviour) w p log w' q) : Reachable store w'.db := by
  induction h with
  | stop => exact hreach
  | step he _ ih => exact ih (hreach.effect he)

/-- the receipt of the call is on record, and while it is in progress the context describes the
database -/
def Database.Vouches (db : Database) (call : PrepareCall) (context : call.Context) : Prop :=
  ∃ row, db.receipts.lookup call.operation.idempotencyKey = some row ∧
    row.request = call.operation ∧ (row.state = .inProgress → call.Observed db context)

theorem vouches_of_executed {call : PrepareCall} {o : Uuid} {context : call.Context}
    (h : call.exec store env db = .ok (.execute o context, db')) : db'.Vouches call context := by
  obtain ⟨row, hl, hreq, -, -⟩ := executed_receipt h
  exact ⟨row, hl, hreq, fun _ => prepare_observed h⟩

/-- **a step keeps what was vouched for** -/
theorem Database.Vouches.step {call : PrepareCall} {context : call.Context}
    (hv : db.Vouches call context) (hx : db.Exclusive) (h : StoreStep store db r db') :
    db'.Vouches call context := by
  obtain ⟨row, hl, hreq, hobs⟩ := hv
  obtain ⟨row', hl', hreq', -⟩ := receipt_kept (.single h) hl
  refine ⟨row', hl', hreq'.trans hreq, fun hs' => ?_⟩
  have hs := held_all_along (.single h) hl hl' hs'
  exact (hobs hs).step hx h hl hreq hs hl' (hreq'.trans hreq) hs'

/-- a caller that holds the receipt can rely on the context -/
theorem Database.Vouches.observed {call : PrepareCall} {context : call.Context} {o : Uuid}
    (hv : db.Vouches call context) (hheld : db.HeldBy call.operation o) :
    call.Observed db context := by
  obtain ⟨row, hl, -, hobs⟩ := hv
  obtain ⟨held, hl', -, -, hs⟩ := hheld
  obtain rfl : held = row := Option.some.inj (hl'.symm.trans hl)
  exact hobs hs

theorem PrepareCall.Observed.facts {call : PrepareCall} {context : call.Context}
    (h : call.Observed db context) : call.Facts db := by
  cases call with
  | reconcile command => exact ⟨_, _, h.1⟩
  | delete command =>
    obtain ⟨service, row, hl, ho, hp, hd, hsucc, -⟩ := h
    exact ⟨service, hl, ho, hp, hd, hsucc⟩
  | createCredential command =>
    obtain ⟨⟨service, row, hready, -⟩, -⟩ := h
    exact ⟨service, row, hready⟩
  | revokeCredential command =>
    obtain ⟨hready, credential, hl, hs, -⟩ := h
    exact ⟨hready, credential, hl, hs⟩

/-! ## where the rows come from -/

/-- where a credential row comes from in one call -/
inductive CredentialWritten (env : CallEnv) (db : Database) : StoreCall → CredentialRow → Prop
  | kept {call : StoreCall} {c : CredentialRow} : c ∈ db.credentials.rows →
      CredentialWritten env db call c
  | created {call : FinishCall} {command : CreateCredentialCommand} {credential : NewCredential} :
      db.HeldBy call.operation call.operationId →
      call.completion = .createCredential command credential →
      CredentialWritten env db (.finish call) (PgStore.createdCredential env command credential)
  | dropped {call : FinishCall} {command : DeleteCommand} {old : CredentialRow} :
      db.HeldBy call.operation call.operationId → call.completion = .delete command →
      old ∈ db.credentials.rows → old.serviceInstanceId = command.operation.serviceInstanceId →
      old.status = .active → CredentialWritten env db (.finish call)
        (PgStore.revokedCredential env command.operation.principalId old)
  | revoked {call : FinishCall} {command : RevokeCredentialCommand} {old : CredentialRow} :
      db.HeldBy call.operation call.operationId → call.completion = .revokeCredential command →
      db.credentials.lookup command.credentialId = some old →
      CredentialWritten env db (.finish call)
        (PgStore.revokedCredential env command.operation.principalId old)

/-- **where a credential row comes from** -/
theorem credential_written {call : StoreCall} {answer : Except StoreError call.Result}
    (h : StoreStep store db ⟨env, call, answer⟩ db') {c : CredentialRow}
    (hc : c ∈ db'.credentials.rows) : CredentialWritten env db call c := by
  cases answer with
  | error e =>
    obtain rfl := step_error h
    exact .kept hc
  | ok a =>
    have hsame : db'.credentials = db.credentials → CredentialWritten env db call c :=
      fun heq => .kept (heq ▸ hc)
    cases credential_change h with
    | same heq _ => exact hsame heq
    | moved _ _ _ heq _ => exact hsame heq
    | reserved _ _ _ heq _ => exact hsame heq
    | released _ heq _ => exact hsame heq
    | created hcomp _ _ _ _ _ hi _ =>
      rcases (Table.mem_insert hi).mp hc with hold | rfl
      · exact .kept hold
      · exact .created (finish_eq_ok.mp (step_finished h)).2.1 hcomp
    | @revokedAll finish command hcomp hu _ =>
      obtain ⟨old, hold, rfl⟩ := (Table.mem_updateWhere hu).mp hc
      by_cases hp : old.serviceInstanceId = command.operation.serviceInstanceId ∧
        old.status = .active
      · rw [Table.touch, if_pos (by simpa using hp)]
        exact .dropped (finish_eq_ok.mp (step_finished h)).2.1 hcomp hold hp.1 hp.2
      · rw [Table.touch, if_neg (by simpa using hp)]
        exact .kept hold
    | @revoked finish command found hcomp hl _ hu _ =>
      obtain ⟨old, hold, rfl⟩ := (Table.mem_updateWhere hu).mp hc
      by_cases hk : credentialSchema.hasKey command.credentialId old = true
      · have hl' := Table.lookup_of_mem hold
        rw [Schema.hasKey_iff.mp hk, hl] at hl'
        obtain rfl := Option.some.inj hl'
        rw [Table.touch, if_pos hk]
        exact .revoked (finish_eq_ok.mp (step_finished h)).2.1 hcomp hl
      · rw [Table.touch, if_neg hk]
        exact .kept hold

/-- a completed deletion leaves no active credential -/
theorem delete_revokes {call : FinishCall} {u : Unit} (h : call.exec store env db = .ok (u, db'))
    {command : DeleteCommand} (hcomp : call.completion = .delete command) {c : CredentialRow}
    (hc : c ∈ db'.credentials.rows)
    (hs : c.serviceInstanceId = command.operation.serviceInstanceId) : c.status ≠ .active := by
  obtain ⟨-, -, db₁, _, t, a, hb, -, -, -, -, rfl⟩ := finish_eq_ok.mp h
  rw [hcomp] at hb hc
  obtain ⟨credentials, _, _, hu, -, -, -, rfl⟩ := applyDelete_eq_ok.mp hb
  obtain ⟨old, -, rfl⟩ := (Table.mem_updateWhere hu).mp hc
  unfold Table.touch at hs ⊢
  split
  · nofun
  · rename_i hp
    rw [if_neg hp] at hs
    simpa [hs] using hp

/-- **where the bucket id of a service comes from** -/
theorem bucket_written {call : StoreCall} {answer : Except StoreError call.Result}
    (h : StoreStep store db ⟨env, call, answer⟩ db') {row : BucketRow}
    (hrow : row ∈ db'.buckets.rows) :
    (∃ old ∈ db.buckets.rows, old.serviceInstanceId = row.serviceInstanceId ∧
      old.physicalBucketId = row.physicalBucketId) ∨
    ∃ finish command physicalBucketId, call = .finish finish ∧
      db.HeldBy finish.operation finish.operationId ∧
      finish.completion = .reconcile command physicalBucketId ∧
      row.serviceInstanceId = command.operation.serviceInstanceId ∧
      row.physicalBucketId = some physicalBucketId := by
  cases answer with
  | error e =>
    obtain rfl := step_error h
    exact .inl ⟨row, hrow, rfl, rfl⟩
  | ok a =>
    have hsame : db'.buckets = db.buckets → ∃ old ∈ db.buckets.rows,
        old.serviceInstanceId = row.serviceInstanceId ∧
        old.physicalBucketId = row.physicalBucketId :=
      fun heq => ⟨row, heq ▸ hrow, rfl, rfl⟩
    cases service_change h with
    | same _ heq => exact .inl (hsame heq)
    | deleted _ _ _ _ _ _ heq => exact .inl (hsame heq)
    | measured _ hu =>
      obtain ⟨old, hold, rfl⟩ := (Table.mem_updateWhere hu).mp hrow
      exact .inl ⟨old, hold, by unfold Table.touch; split <;> rfl,
        by unfold Table.touch; split <;> rfl⟩
    | @reconciled finish command pid hcomp _ hb =>
      have hheld := (finish_eq_ok.mp (step_finished h)).2.1
      rcases hb with ⟨-, hi⟩ | ⟨-, hu⟩
      · rcases (Table.mem_insert hi).mp hrow with hold | rfl
        · exact .inl ⟨row, hold, rfl, rfl⟩
        · exact .inr ⟨finish, command, pid, rfl, hheld, hcomp, rfl, rfl⟩
      · obtain ⟨old, hold, rfl⟩ := (Table.mem_updateWhere hu).mp hrow
        by_cases hk : bucketSchema.hasKey command.operation.serviceInstanceId old = true
        · rw [Table.touch, if_pos hk]
          exact .inr ⟨finish, command, pid, rfl, hheld, hcomp, Schema.hasKey_iff.mp hk, rfl⟩
        · rw [Table.touch, if_neg hk]
          exact .inl ⟨old, hold, rfl, rfl⟩

end

end Syouyu
