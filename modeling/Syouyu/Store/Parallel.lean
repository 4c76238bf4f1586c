import Syouyu.Store.Contexts
import Syouyu.Store.Failures

/-!
# Who is refused because of another operation

`reject_parallel_operation` refuses a prepare call while another receipt of the service is in
progress.  It is the only check that answers `OperationInProgress` in a reachable database, and it
does not look at the lease of the receipt it finds.

* `ServiceRow.Settled`       every service is ready or deleted, at the generation it desires;
* `rejectParallelOperation_busy`   when the check refuses;
* `PrepareCall.Arrives`      the call passes what is checked before;
* `new_request_refused`      **a new request is refused iff it arrives at the check and any receipt
                             of its service is in progress, expired or not**.
-/

set_option linter.unusedSectionVars false

namespace Syouyu
open Lib

/-- the error is `OperationInProgress` -/
def StoreError.busy : StoreError → Bool
  | .operationInProgress _ => true
  | _ => false

section
variable {store : PgStore} {env : CallEnv} {db db' : Database} {r : CallRecord}

theorem reachable_settled (h : Reachable store db) : ∀ row ∈ db.services.rows, row.Settled := by
  obtain ⟨tr, hrun⟩ := h
  refine hrun.invariant (fun db => ∀ row ∈ db.services.rows, row.Settled) ?_ (fun _ h => by cases h)
  intro db r db' hall hstep
  exact services_step (fun _ _ _ => ⟨rfl, .inl rfl⟩) (fun _ _ _ _ => ⟨rfl, .inl rfl⟩)
    (fun _ _ _ _ => ⟨rfl, .inr rfl⟩) hstep hall

/-! ## the check -/

/-- **the check refuses iff another receipt of the service is in progress** -/
theorem rejectParallelOperation_busy {s k : Uuid} :
    (∃ o, rejectParallelOperation s k db = .error (.operationInProgress o)) ↔
      ¬ db.OnlyHeld s k := by
  constructor
  · rintro ⟨o, h⟩ honly
    have hok : rejectParallelOperation s k db = .ok ((), db) :=
      rejectParallelOperation_eq_ok.mpr ⟨honly, rfl⟩
    exact absurd_ok_error hok h
  · intro honly
    cases h : rejectParallelOperation s k db with
    | ok p => exact absurd (rejectParallelOperation_eq_ok.mp h).1 honly
    | error e =>
      rw [rejectParallelOperation, Tx.read_bind, Tx.refuse_eq_error, Option.map_eq_some_iff] at h
      obtain ⟨row, -, rfl⟩ := h
      exact ⟨row.operationId, rfl⟩

/-! ## what else can refuse a call -/

abbrev NotBusy {α : Type} (x : StoreTx α) (db : Database) : Prop :=
  x.FailsOnly (fun e => e.busy = false) db

theorem plain_notBusy (e : StoreError) (h : e.plain = true) : e.busy = false := by
  cases e with
  | operationInProgress o => cases h
  | _ => rfl

/-! ## new requests -/

/-- the call passes every check made before that on other operations; only a create makes any -/
def PrepareCall.Arrives (store : PgStore) (db : Database) : PrepareCall → Prop
  | .createCredential command =>
    (∃ service row, db.Ready command.operation service row) ∧ db.Admitted store command
  | _ => True

section
variable {α β : Type} {x : StoreTx α} {f : α → StoreTx β} {o : Uuid}

/-- where the first part cannot be busy, the rest is -/
theorem busy_after (hx : NotBusy x db) :
    (x >>= f) db = .error (.operationInProgress o) ↔
      ∃ a db', x db = .ok (a, db') ∧ f a db' = .error (.operationInProgress o) := by
  rw [Tx.bind_eq_error]
  exact or_iff_right fun h => Bool.noConfusion (hx _ h)

/-- where the rest cannot be busy, the first part is -/
theorem busy_first (hf : ∀ a db', x db = .ok (a, db') → NotBusy (f a) db') :
    (x >>= f) db = .error (.operationInProgress o) ↔ x db = .error (.operationInProgress o) := by
  rw [Tx.bind_eq_error]
  exact or_iff_left fun ⟨a, db', hok, h⟩ => Bool.noConfusion (hf a db' hok _ h)

end

theorem create_busy {command : CreateCredentialCommand} (hv : command.validate = .ok ())
    {o : Uuid} :
    store.prepareCreateCredentialBody env command none db = .error (.operationInProgress o) ↔
      (PrepareCall.createCredential command).Arrives store db ∧
      rejectParallelOperation command.operation.serviceInstanceId
        command.operation.idempotencyKey db = .error (.operationInProgress o) := by
  have hstorable : textStorable command.name = true := by
    obtain ⟨_, -, h⟩ := except_bind_eq_ok.mp hv
    obtain ⟨_, -, h⟩ := except_bind_eq_ok.mp h
    exact CredentialSpec.validate_storable (mapError_eq_ok.mp h)
  have hcheck : ∀ bucket, store.newReservation env command bucket db =
      .error (.operationInProgress o) ↔ db.Admitted store command ∧
        rejectParallelOperation command.operation.serviceInstanceId
          command.operation.idempotencyKey db = .error (.operationInProgress o) := by
    intro bucket
    unfold PgStore.newReservation
    rw [busy_after (admitReservation_fails plain_notBusy)]
    simp only [admitReservation_eq_ok, hstorable, true_and]
    constructor
    · rintro ⟨_, _, ⟨hadmitted, rfl⟩, h⟩
      refine ⟨hadmitted, (busy_first ?_).mp h⟩
      exact fun _ _ _ => .bind (reserveReceipt_fails plain_notBusy) fun _ _ _ =>
        .bind (insertRow_fails plain_notBusy mapDatabaseError_plain) fun _ _ _ =>
        Tx.failsOnly_pure
    · rintro ⟨hadmitted, h⟩
      exact ⟨(), db, ⟨hadmitted, rfl⟩, Tx.bind_apply_error h⟩
  unfold PgStore.prepareCreateCredentialBody
  rw [busy_after (readyBucketInTransaction_fails plain_notBusy (.inr fun _ => rfl))]
  simp only [readyBucketInTransaction_eq_ok, PrepareCall.Arrives]
  constructor
  · rintro ⟨_, _, ⟨rfl, service, row, hready, rfl⟩, h⟩
    obtain ⟨hadmitted, h⟩ := (hcheck _).mp h
    exact ⟨⟨⟨service, row, hready⟩, hadmitted⟩, h⟩
  · rintro ⟨⟨⟨service, row, hready⟩, hadmitted⟩, h⟩
    exact ⟨row.record, db, ⟨rfl, service, row, hready, rfl⟩, (hcheck _).mpr ⟨hadmitted, h⟩⟩

/-- **only the check on other operations answers a new request `OperationInProgress`** -/
theorem body_busy {call : PrepareCall} (hv : call.validate = .ok ())
    (hsettled : ∀ row ∈ db.services.rows, row.Settled) {o : Uuid} :
    call.body store env none db = .error (.operationInProgress o) ↔
      call.Arrives store db ∧
      rejectParallelOperation call.operation.serviceInstanceId call.operation.idempotencyKey db =
        .error (.operationInProgress o) := by
  -- a call that looks at other operations first is refused by that check or not at all
  have hfirst : (∀ e, rejectParallelOperation call.operation.serviceInstanceId
        call.operation.idempotencyKey db = .error e → call.body store env none db = .error e) →
      (call.body store env none db = .error (.operationInProgress o) ↔
        rejectParallelOperation call.operation.serviceInstanceId call.operation.idempotencyKey
          db = .error (.operationInProgress o)) := by
    refine fun hbody => ⟨fun h => ?_, hbody _⟩
    by_cases honly : db.OnlyHeld call.operation.serviceInstanceId call.operation.idempotencyKey
    · have hquiet : NotBusy (call.body store env none) db :=
        PrepareCall.body_fails plain_notBusy (.inr fun _ => rfl) (.inl hsettled) (.inl honly) nofun
      exact Bool.noConfusion (hquiet _ h)
    · obtain ⟨o', ho'⟩ := rejectParallelOperation_busy.mpr honly
      have herror := (hbody _ ho').symm.trans h
      obtain rfl := StoreError.operationInProgress.inj (Except.error.inj herror)
      exact ho'
  cases call with
  | createCredential command => exact create_busy hv
  | reconcile command =>
    exact (hfirst fun _ => Tx.bind_apply_error).trans (and_iff_right trivial).symm
  | delete command =>
    exact (hfirst fun _ => Tx.bind_apply_error).trans (and_iff_right trivial).symm
  | revokeCredential command =>
    exact (hfirst fun _ => Tx.bind_apply_error).trans (and_iff_right trivial).symm

/-- the whole call under a new key is its body -/
theorem new_request_busy {call : PrepareCall}
    (hnew : db.receipts.lookup call.operation.idempotencyKey = none) {o : Uuid} :
    call.exec store env db = .error (.operationInProgress o) ↔
      call.validate = .ok () ∧ call.body store env none db = .error (.operationInProgress o) := by
  have hclaim : claimExistingReceipt store env call.operation db = .ok (.new, db) :=
    claimExistingReceipt_eq_ok.mpr (.inr ⟨none, .inl ⟨hnew, rfl, rfl⟩, rfl⟩)
  have hrest : withClaim store env call.operation (call.body store env) db =
      .error (.operationInProgress o) ↔
      call.body store env none db = .error (.operationInProgress o) := by
    unfold withClaim
    rw [Tx.bind_apply_ok hclaim]
    exact busy_first fun _ _ _ => Tx.failsOnly_pure
  rw [PrepareCall.exec_eq, busy_after (Tx.failsOnly_ofExcept fun e he =>
    plain_notBusy e (PrepareCall.validate_plain he))]
  simp only [Tx.ofExcept_eq_ok]
  constructor
  · rintro ⟨_, _, ⟨hv, rfl⟩, h⟩
    exact ⟨hv, hrest.mp h⟩
  · rintro ⟨hv, h⟩
    exact ⟨(), db, ⟨hv, rfl⟩, hrest.mpr h⟩

/-- **A new request while another operation is recorded.**  In every reachable database a prepare
call under a new idempotency key is refused with `OperationInProgress` iff it is valid, passes what
a create checks first, and any receipt of its service is in progress, whatever its lease. -/
theorem new_request_refused {call : PrepareCall} (hreach : Reachable store db)
    (hnew : db.receipts.lookup call.operation.idempotencyKey = none) :
    (∃ o, StoreStep store db ⟨env, .prepare call, .error (.operationInProgress o)⟩ db) ↔
      (call.validate = .ok () ∧ call.Arrives store db) ∧
      ∃ q ∈ db.receipts.rows, q.serviceInstanceId = call.operation.serviceInstanceId ∧
        q.state = .inProgress := by
  have hstep : ∀ o, StoreStep store db ⟨env, .prepare call, .error (.operationInProgress o)⟩ db ↔
      call.exec store env db = .error (.operationInProgress o) :=
    fun o => Tx.atomically_error.trans (and_iff_left rfl)
  have hother : ¬ db.OnlyHeld call.operation.serviceInstanceId call.operation.idempotencyKey ↔
      ∃ q ∈ db.receipts.rows, q.serviceInstanceId = call.operation.serviceInstanceId ∧
        q.state = .inProgress := by
    unfold Database.OnlyHeld
    push Not
    refine exists_congr fun q => and_congr_right fun hq => and_congr_right fun _ =>
      and_iff_left fun hk => ?_
    rw [← hk] at hnew
    exact absurd ((Table.lookup_of_mem hq).symm.trans hnew) nofun
  simp only [hstep, new_request_busy hnew]
  rw [← hother, ← rejectParallelOperation_busy]
  constructor
  · rintro ⟨o, hv, h⟩
    obtain ⟨ha, h⟩ := (body_busy hv (reachable_settled hreach)).mp h
    exact ⟨⟨hv, ha⟩, o, h⟩
  · rintro ⟨⟨hv, ha⟩, o, h⟩
    exact ⟨o, hv, (body_busy hv (reachable_settled hreach)).mpr ⟨ha, h⟩⟩

/-- service 10 has no operation in progress: its deletion is not refused so -/
theorem new_request_refused_serviceA :
    let db := (PgStore.reference.play Sample.serviceA Database.empty).2
    let call : PrepareCall := .delete (Sample.delete 103 10 2)
    db.receipts.lookup 103 = none ∧ ¬ ∃ o, StoreStep PgStore.reference db
      ⟨Sample.env 200 4, .prepare call, .error (.operationInProgress o)⟩ db := by
  intro db call
  have hnew : db.receipts.lookup 103 = none := by decide +kernel
  refine ⟨hnew, fun hrefused => ?_⟩
  have hidle : ¬ ∃ q ∈ db.receipts.rows, q.serviceInstanceId = 10 ∧ q.state = .inProgress := by
    decide +kernel
  exact hidle ((new_request_refused ⟨_, play_run _ Sample.serviceA _⟩ hnew).mp hrefused).2

/-- **An abandoned operation that blocks its service.**  The create of service 10 was prepared and
given up; 198 seconds later its lease has run out, and a deletion under a new key is refused. -/
theorem abandoned_create_blocks :
    let db := (PgStore.reference.play Sample.creating Database.empty).2
    Reachable PgStore.reference db ∧
      (∀ q ∈ db.receipts.rows, q.serviceInstanceId = 10 → q.state = .inProgress →
        q.expired (Sample.env 200 4) = true) ∧
      db.receipts.lookup 103 = none ∧
      StoreStep PgStore.reference db ⟨Sample.env 200 4, .prepare (.delete (Sample.delete 103 10 2)),
        .error (.operationInProgress 1002)⟩ db := by
  intro db
  exact ⟨⟨_, play_run _ Sample.creating _⟩, by decide +kernel, by decide +kernel,
    run_refused (by decide +kernel)⟩

end

end Syouyu
