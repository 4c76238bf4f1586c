import Syouyu.Registry.System
import Syouyu.System.Callers
import Syouyu.System.Retry

/-!
# What an answer says about the registry

A handler answers with what it has just completed, or with what its receipt holds.  A receipt that
holds a failure holds the status of an error, so a status below 400 stands for an entry of the
registry, and there is no entry that no request asked for.

* `Honest`             only the operation of the request is prepared, and a failure is recorded with
                       the status of an error;
* `Based`              what a response goes back to;
* `handle_based`       **every handler is honest, and every response is based on its log**;
* `PrepareCall.Asks`   the entry is what the call asks for;
* `answers_registered` **a request that was answered with a status below 400 has its entry, and an
                       entry has a request that asked for it**.
-/

set_option linter.unusedSectionVars false

namespace Syouyu
open Lib Lib.Prog

/-! ## what the handlers answer -/

/-- only the operation of the request is prepared, and a failure is recorded with the status of an
error -/
structure Honest (state : AppState) (r : Request) (_ : CallLog) (e : Call) : Prop where
  asked : ∀ call, e = .store (.prepare call) → r.prepareCall state = .ok call
  failed : ∀ finish, e = .store (.finish finish) → finish.response.failed = true →
    400 ≤ finish.response.status

/-- the calls that prepare or finish an operation -/
def Call.decisive : Call → Bool
  | .store (.prepare _) => true
  | .store (.finish _) => true
  | _ => false

/-- what a response to `call` goes back to: the receipt it was answered from, or a completion -/
inductive Based (call : PrepareCall) (log : CallLog) (response : Response) : Prop
  | replayed {stored : StoredHttpResponse} :
      ⟨.store (.prepare call), Except.ok (Prepare.replay stored)⟩ ∈ log →
      response.status = stored.status → Based call log response
  | completed {finish : FinishCall} : ⟨.store (.finish finish), Except.ok ()⟩ ∈ log →
      finish.completion.prepared = some call → finish.response.failed = false →
      Based call log response

section
variable {ε α : Type} {state : AppState} {r : Request} {log : CallLog}

theorem Honest.other {e : Call} (h : e.decisive = false) : Honest state r log e where
  asked call heq := by
    rw [heq] at h
    cases h
  failed finish heq := by
    rw [heq] at h
    cases h

theorem garage_honest (p : GarageM ε α) :
    (onGarage p).Yields (Honest state r) (fun _ _ => True) log := by
  induction p generalizing log with
  | done r => exact ⟨fun _ _ => trivial⟩
  | ask e next ih => exact ⟨⟨.other rfl, fun a => (ih a).obeys⟩⟩

/-- a recorded failure of Garage has the status of an error -/
theorem fail_honest {operation : OperationRequest} {o : Uuid} {error : ApiError}
    {event : AuditEvent} (h : 400 ≤ error.storedResponse.status) :
    Honest state r log (.store (.finish ⟨.fail operation, o, error.storedResponse, event⟩)) := by
  refine ⟨(fun _ heq => by cases heq), fun finish heq _ => ?_⟩
  obtain rfl := StoreCall.finish.inj (Call.store.inj heq)
  exact h

theorem failWith_honest {x : Execution} {details : Value} {error : GarageBackendError}
    {P : CallLog → α → Prop} :
    (failWith x details error : HandlerM ApiError α).Yields (Honest state r) P log :=
  failWith_yields (.other rfl) fun _ _ _ _ => fail_honest (backend_status error)

theorem garageOrFail_honest {x : Execution} {details : Value}
    {program : GarageM GarageBackendError α} :
    (garageOrFail x details program).Yields (Honest state r) (fun _ _ => True) log :=
  garageOrFail_yields (garage_honest program) fun _ _ _ => failWith_honest

theorem reconciledBucketId_honest {x : Execution} {command : ReconcileCommand}
    {context : ReconcileContext} :
    (reconciledBucketId x command context).Yields (Honest state r) (fun _ _ => True) log := by
  unfold reconciledBucketId
  split
  · split
    · exact yields_pure trivial
    · exact yields_throw
  · refine yields_bind (renewOperation_yields (.other rfl)) fun _ _ _ _ => ?_
    exact yields_bind garageOrFail_honest fun _ _ _ _ => yields_pure trivial

theorem usageForDeletion_honest {x : Execution} {command : DeleteCommand}
    {physicalBucketId : String} :
    (usageForDeletion x command physicalBucketId).Yields (Honest state r) (fun _ _ => True) log := by
  refine yields_bind (yields_attempt (garage_honest _).obeys) fun l answer _ _ => ?_
  cases answer with
  | ok usage => exact yields_pure trivial
  | error e =>
    cases e with
    | notFound message => exact yields_pure trivial
    | _ => exact failWith_honest

theorem requireEmpty_honest {x : Execution} {command : DeleteCommand} {usage : BucketUsage} :
    (requireEmpty x command usage).Yields (Honest state r) (fun _ _ => True) log := by
  unfold requireEmpty
  split
  · exact yields_pure trivial
  · refine yields_bind (audit_yields (.other rfl)) fun _ _ _ _ => ?_
    refine yields_bind (callStore_recorded (fail_honest ?_)) fun _ _ _ _ => yields_throw
    decide

theorem revokeKeys_honest {x : Execution} {command : DeleteCommand} (ids : List String) :
    (revokeKeys x command ids).Yields (Honest state r) (fun _ _ => True) log := by
  induction ids generalizing log with
  | nil => exact yields_pure trivial
  | cons id rest ih =>
    refine yields_bind (renewOperation_yields (.other rfl)) fun _ _ _ _ => ?_
    exact yields_bind garageOrFail_honest fun _ _ _ _ => ih

theorem revokeKey_honest {x : Execution} {context : RevokeCredentialContext} :
    (revokeKey x context).Yields (Honest state r) (fun _ _ => True) log := by
  unfold revokeKey
  split
  · exact yields_pure trivial
  · exact garageOrFail_honest

/-! ### what a response goes back to -/

section
variable {call : PrepareCall} {finish : FinishCall}

theorem success_honest (hok : finish.response.failed = false) :
    Honest state r log (.store (.finish finish)) := by
  refine ⟨(fun _ heq => by cases heq), fun finish' heq hfailed => ?_⟩
  obtain rfl := StoreCall.finish.inj (Call.store.inj heq)
  rw [hok] at hfailed
  cases hfailed

theorem completing_based (hp : finish.completion.prepared = some call)
    (hok : finish.response.failed = false) :
    (completing finish).Yields (Honest state r) (Based call) log := by
  refine yields_bind (callStore_recorded (success_honest hok)) fun l _ _ hmem => ?_
  exact yields_ofExcept fun _ _ => .completed hmem hp hok

theorem completingCreate_based {garageKeyId : String}
    (hp : finish.completion.prepared = some call) (hok : finish.response.failed = false) :
    (completingCreate finish garageKeyId).Yields (Honest state r) (Based call) log := by
  refine yields_bind (P := fun l answer => ⟨.store (.finish finish), answer⟩ ∈ l) ?_
    fun l answer _ hmem => ?_
  · exact yields_request (success_honest hok) fun a => List.mem_append_right _ List.mem_cons_self
  · cases answer with
    | ok u => exact yields_ofExcept fun _ _ => .completed hmem hp hok
    | error e =>
      cases e with
      | operationLeaseLost current =>
        exact yields_bind (yields_attempt (garage_honest _).obeys) fun _ _ _ _ => yields_throw
      | _ => exact yields_throw

/-- **an execution answers what it has completed** -/
theorem Executes.based {execute : Uuid → call.Context → HandlerM ApiError Response}
    (h : Executes state r call execute) (o : Uuid) (context : call.Context) :
    (execute o context).Yields (Honest state r) (Based call) log := by
  cases h with
  | reconcile _ =>
    refine yields_bind reconciledBucketId_honest fun _ _ _ _ => ?_
    refine yields_ofExcept_bind fun _ _ => ?_
    refine yields_bind (utcNow_yields (.other rfl)) fun _ _ _ _ => ?_
    exact yields_bind (audit_yields (.other rfl)) fun _ _ _ _ => completing_based rfl rfl
  | delete _ =>
    unfold executeDelete
    split
    · exact yields_throw
    · refine yields_bind (renewOperation_yields (.other rfl)) fun _ _ _ _ => ?_
      refine yields_bind usageForDeletion_honest fun _ _ _ _ => ?_
      refine yields_bind requireEmpty_honest fun _ _ _ _ => ?_
      refine yields_bind (revokeKeys_honest _) fun _ _ _ _ => ?_
      refine yields_bind (renewOperation_yields (.other rfl)) fun _ _ _ _ => ?_
      refine yields_bind garageOrFail_honest fun _ _ _ _ => ?_
      refine yields_ofExcept_bind fun _ _ => ?_
      refine yields_bind (utcNow_yields (.other rfl)) fun _ _ _ _ => ?_
      exact yields_bind (audit_yields (.other rfl)) fun _ _ _ _ => completing_based rfl rfl
  | createCredential _ =>
    unfold executeCreate
    split
    · exact yields_throw
    · refine yields_bind (renewOperation_yields (.other rfl)) fun _ _ _ _ => ?_
      refine yields_bind garageOrFail_honest fun _ _ _ _ => ?_
      refine yields_bind (utcNow_yields (.other rfl)) fun _ _ _ _ => ?_
      exact yields_bind (audit_yields (.other rfl)) fun _ _ _ _ => completingCreate_based rfl rfl
  | revokeCredential _ =>
    refine yields_bind (renewOperation_yields (.other rfl)) fun _ _ _ _ => ?_
    refine yields_bind revokeKey_honest fun _ _ _ _ => ?_
    exact yields_bind (audit_yields (.other rfl)) fun _ _ _ _ => completing_based rfl rfl

theorem preparing_based {execute : Uuid → call.Context → HandlerM ApiError Response}
    (hcall : r.prepareCall state = .ok call) (h : Executes state r call execute) :
    (preparing call execute).Yields (Honest state r) (Based call) [] := by
  have hmay : Honest state r [] (.store (.prepare call)) := by
    refine ⟨fun call' heq => ?_, fun _ heq => by cases heq⟩
    rw [← StoreCall.prepare.inj (Call.store.inj heq)]
    exact hcall
  refine yields_bind (callStore_recorded hmay) fun l answer _ hmem => ?_
  cases answer with
  | execute o context => exact h.based o context
  | replay stored =>
    exact yields_ofExcept fun _ hresponse => .replayed hmem (storedIntoResponse_status hresponse)
  | inProgress o => exact yields_throw

/-- **every handler is honest, and every response is based on its log** -/
theorem handle_based (state : AppState) (r : Request) :
    (handle state r).Yields (Honest state r)
      (fun log response => ∃ call, r.prepareCall state = .ok call ∧ Based call log response) [] := by
  cases hcall : r.prepareCall state with
  | error e =>
    rw [handle_refused hcall]
    exact yields_throw
  | ok call =>
    obtain ⟨execute, heq, hexecutes⟩ := handle_executes hcall
    rw [heq]
    exact (preparing_based hcall hexecutes).mono fun _ _ _ h => ⟨call, rfl, h⟩

end

end

/-! ## what the receipts say -/

section
variable {store : PgStore} {behaviour : GarageBehaviour} {state : AppState} {w w' : World}
  {db db' : Database}

/-- a finished receipt was there before, or the call has just finished it -/
theorem finished_origin {c : CallRecord} (h : StoreStep store db c db') {k : Uuid} {q : ReceiptRow}
    (hl : db'.receipts.lookup k = some q) (hs : q.state ≠ .inProgress) :
    db.receipts.lookup k = some q ∨
      ∃ env finish u, c = ⟨env, .finish finish, .ok u⟩ ∧ finish.operation.idempotencyKey = k := by
  have hheld : ∀ {j : Uuid} {f : ReceiptRow → ReceiptRow} {row : ReceiptRow},
      db.receipts.updateWhere (receiptSchema.hasKey j) f = .ok db'.receipts →
      db.receipts.lookup j = some row → (f row).state = .inProgress →
      (∀ r, (f r).idempotencyKey = r.idempotencyKey) → db.receipts.lookup k = some q := by
    intro j f row hu hrow hstate hkey
    rw [Table.lookup_update_key hu hkey, hrow] at hl
    split at hl
    · exact absurd (Option.some.inj hl ▸ hstate) hs
    · exact hl
  have hnew : ∀ {operation : OperationRequest},
      db.receipts.insert (.reserved c.env operation) = .ok db'.receipts →
      db.receipts.lookup k = some q := by
    intro operation hi
    rw [Table.lookup_insert hi] at hl
    split at hl
    · exact absurd (Option.some.inj hl ▸ rfl) hs
    · exact hl
  obtain ⟨env, call, answer⟩ := c
  cases answer with
  | error e => exact .inl (step_error h ▸ hl)
  | ok a =>
    cases operation_change h with
    | same heq _ => exact .inl (heq ▸ hl)
    | granted _ hi _ _ => exact .inl (hnew hi)
    | reserved _ hi _ => exact .inl (hnew hi)
    | takenOver hrow _ hstate _ hu _ => exact .inl (hheld hu hrow hstate fun _ => rfl)
    | renewed hrow _ _ hstate hu _ => exact .inl (hheld hu hrow hstate fun _ => rfl)
    | @finished finish _ _ _ _ _ _ hu _ =>
      rw [Table.lookup_update_key hu fun _ => rfl] at hl
      split at hl
      · rename_i heq
        exact .inr ⟨env, finish, a, rfl, heq.symm⟩
      · exact .inl hl

/-- a receipt that holds a failure holds the status of an error -/
def Database.Frank (store : PgStore) (db : Database) : Prop :=
  ∀ k row stored, db.receipts.lookup k = some row → row.state ≠ .inProgress →
    store.decodeReceipt row = .ok stored → stored.failed = true → 400 ≤ stored.status

theorem Database.Frank.step {c : CallRecord} (hf : db.Frank store)
    (hc : ∀ finish, c.call = .finish finish → finish.response.failed = true →
      400 ≤ finish.response.status) (h : StoreStep store db c db') : db'.Frank store := by
  intro k row stored hl hs hdecode hfailed
  rcases finished_origin h hl hs with hold | ⟨env, finish, u, rfl, rfl⟩
  · exact hf k row stored hold hs hdecode hfailed
  · obtain ⟨row', hl', -, -, hdecode'⟩ := finish_receipt (step_finished h)
    obtain rfl := Option.some.inj (hl.symm.trans hl')
    obtain rfl := Except.ok.inj (hdecode.symm.trans hdecode')
    exact hc finish rfl hfailed

/-- what a finished receipt holds tells whether it has succeeded -/
theorem decoded_succeeded {row : ReceiptRow} {stored : StoredHttpResponse}
    (hs : row.state ≠ .inProgress) (hdecode : store.decodeReceipt row = .ok stored)
    (hok : stored.failed = false) : row.state = .succeeded := by
  unfold PgStore.decodeReceipt at hdecode
  simp only [except_bind_eq_ok, okOr_eq_ok] at hdecode
  obtain ⟨_, -, _, -, _, -, _, -, _, -, hstored⟩ := hdecode
  obtain rfl := Except.ok.inj hstored
  cases hstate : row.state with
  | inProgress => exact absurd hstate hs
  | succeeded => rfl
  | failed => exact absurd hstate (of_decide_eq_false hok)

/-- what an entry of a log says about a receipt -/
structure Receipted (store : PgStore) (w : World) (x : (e : Call) × e.Answer) : Prop where
  replayed : ∀ (call : PrepareCall) (stored : StoredHttpResponse),
    x = ⟨.store (.prepare call), Except.ok (Prepare.replay stored)⟩ →
    ∃ row, w.db.receipts.lookup call.operation.idempotencyKey = some row ∧
      row.request = call.operation ∧ row.state ≠ .inProgress ∧
      store.decodeReceipt row = .ok stored
  completed : ∀ finish, x = ⟨.store (.finish finish), Except.ok ()⟩ →
    ∃ row, w.db.receipts.lookup finish.operation.idempotencyKey = some row ∧
      row.request = finish.operation ∧ row.state ≠ .inProgress ∧
      store.decodeReceipt row = .ok finish.response

/-- a finished receipt stays as it is -/
theorem finished_stays {e : Call} {a : e.Answer} (h : World.Effect store behaviour w e a w')
    {k : Uuid} {row : ReceiptRow} (hl : w.db.receipts.lookup k = some row)
    (hs : row.state ≠ .inProgress) : w'.db.receipts.lookup k = some row := by
  cases e with
  | store call =>
    obtain ⟨⟨env, hstep⟩, -⟩ := h
    obtain ⟨row', hl', -, hsame⟩ := receipt_kept (.single hstep) hl
    rwa [← hsame hs]
  | garage call => exact h.2 ▸ hl
  | query q => exact congrArg World.db h.2 ▸ hl

theorem receipted_effect {r : Request} {log : CallLog} {e : Call} {a : e.Answer}
    (hf : w.db.Frank store) (hmay : Honest state r log e)
    (h : World.Effect store behaviour w e a w') :
    Pool.Keeps (fun w => w.db.Frank store) (Receipted store) w w' ⟨e, a⟩ where
  inv := by
    cases e with
    | store call =>
      obtain ⟨⟨env, hstep⟩, -⟩ := h
      exact hf.step (fun finish heq => hmay.failed finish (congrArg Call.store heq)) hstep
    | garage call => exact h.2 ▸ hf
    | query q => exact congrArg World.db h.2 ▸ hf
  holds := by
    constructor
    · intro call stored heq
      cases heq
      obtain ⟨⟨env, hstep⟩, -⟩ := h
      rcases (prepare_eq_ok.mp (step_ok hstep)).2 with ⟨hdb, row, hl, hreq, hsettled⟩ | ⟨_, _, _, -, -, h⟩
      · rcases hsettled with ⟨-, -, h⟩ | ⟨hs, response, hdecode, h⟩
        · cases h
        · cases h
          exact ⟨row, hdb ▸ hl, hreq, hs, hdecode⟩
      · cases h
    · intro finish heq
      cases heq
      obtain ⟨⟨env, hstep⟩, -⟩ := h
      obtain ⟨row, hl, hs, hreq, hdecode⟩ := finish_receipt (step_finished hstep)
      exact ⟨row, hl, hreq, hs, hdecode⟩
  stable y hy := by
    constructor
    · intro call stored heq
      obtain ⟨row, hl, hreq, hs, hdecode⟩ := hy.replayed call stored heq
      exact ⟨row, finished_stays h hl hs, hreq, hs, hdecode⟩
    · intro finish heq
      obtain ⟨row, hl, hreq, hs, hdecode⟩ := hy.completed finish heq
      exact ⟨row, finished_stays h hl hs, hreq, hs, hdecode⟩

theorem run_receipted {garage : Garage} {tr : List SystemEvent} {s : System}
    (h : Run (SystemStep store behaviour state) (System.start garage) tr s) :
    Pool.Sound (Honest state) (fun w => w.db.Frank store) (Receipted store) s := by
  refine Pool.run_sound h ⟨?_, fun t ht => by cases ht⟩ ?_ ?_
  · intro k row stored hl
    cases hl
  · exact fun r => (handle_based state r).obeys.mono fun _ _ _ => trivial
  · exact fun _ _ _ _ _ _ hf _ hmay heffect => receipted_effect hf hmay heffect

/-! ## answers and entries -/

/-- the operation is what the call asks for -/
def PrepareCall.Asks : PrepareCall → Registry.Op → Prop
  | .reconcile command, op => ∃ bucketId,
      op = .reconcile command.operation.serviceInstanceId (command.service bucketId)
  | .delete command, op => op = .delete command.operation.serviceInstanceId
  | .createCredential command, op => ∃ id garageKeyId,
      op = .issue id (command.credential garageKeyId)
  | .revokeCredential command, op =>
      op = .revoke command.operation.serviceInstanceId command.credentialId

/-- a completion makes the entry that its call asks for -/
theorem entry_asks {finish : FinishCall} {entry : Registry.Entry}
    (hentry : finish.entryOf = some entry) :
    ∃ call, finish.completion.prepared = some call ∧
      entry.key = call.operation.idempotencyKey ∧ call.Asks entry.op := by
  obtain ⟨completion, o, response, event⟩ := finish
  cases completion with
  | reconcile command pid =>
    obtain rfl := Option.some.inj hentry
    exact ⟨_, rfl, rfl, pid, rfl⟩
  | delete command =>
    obtain rfl := Option.some.inj hentry
    exact ⟨_, rfl, rfl, rfl⟩
  | createCredential command credential =>
    obtain rfl := Option.some.inj hentry
    exact ⟨_, rfl, rfl, _, _, rfl⟩
  | revokeCredential command =>
    obtain rfl := Option.some.inj hentry
    exact ⟨_, rfl, rfl, rfl⟩
  | fail operation => cases hentry

/-- a completion that is no failure was granted -/
theorem Completes.prepared {log : CallLog} {finish : FinishCall} (h : Completes log finish)
    {call : PrepareCall} (hp : finish.completion.prepared = some call) :
    ∃ context : call.Context, Granted log call finish.operationId context := by
  cases h with
  | reconcile hg =>
    cases hp
    exact ⟨_, hg⟩
  | delete hg =>
    cases hp
    exact ⟨_, hg⟩
  | create hg =>
    cases hp
    exact ⟨_, hg⟩
  | revoke hg =>
    cases hp
    exact ⟨_, hg⟩
  | fail => cases hp

/-- an entry is made by the completion of an operation -/
theorem entry_event {ρ : Type} {tr : List (Event ρ Call Call.Answer)} {entry : Registry.Entry}
    (hentry : entry ∈ tr.filterMap entryOf) :
    ∃ i finish, .act i (.store (.finish finish)) (Except.ok ()) ∈ tr ∧
      finish.entryOf = some entry := by
  obtain ⟨ev, hev, hsome⟩ := List.mem_filterMap.mp hentry
  unfold entryOf at hsome
  split at hsome
  · exact ⟨_, _, hev, hsome⟩
  · cases hsome

section
variable {garage : Garage} {tr : List SystemEvent} {s : System}
  (h : Run (SystemStep store behaviour state) (System.start garage) tr s)
include h

/-- **an entry comes from a request that asked for it**, and its key has a receipt for that -/
theorem entry_asked {entry : Registry.Entry} (hentry : entry ∈ tr.filterMap entryOf) :
    ∃ request call row, .spawn request ∈ tr ∧ request.prepareCall state = .ok call ∧
      entry.key = call.operation.idempotencyKey ∧ call.Asks entry.op ∧
      (∃ i answer, .act i (.store (.prepare call)) answer ∈ tr) ∧
      s.world.db.receipts.lookup entry.key = some row ∧ row.request = call.operation := by
  obtain ⟨i, finish, hev, hsome⟩ := entry_event hentry
  obtain ⟨t, ht, hlog⟩ := Pool.run_recorded h i _ _ hev
  have hmem := List.mem_of_getElem? ht
  obtain ⟨l, hl, hmay⟩ := Pool.run_allowed h rfl (handle_obeys state) t hmem _ hlog
  obtain ⟨call, hprepared, hkey, hasks⟩ := entry_asks hsome
  obtain ⟨context, hgranted⟩ := hmay.completes.prepared hprepared
  have hgrant := hl.subset hgranted
  obtain ⟨l', -, hhonest⟩ := Pool.run_allowed h rfl (fun r => (handle_based state r).obeys) t hmem
    _ hgrant
  obtain ⟨hspawn, hlogged⟩ := Pool.run_logged h rfl t hmem
  obtain ⟨row, hrow, hreq, -⟩ := ((run_receipted h).threads t hmem).truthful _ hlog |>.completed _ rfl
  have hop : call.operation = finish.operation := prepared_operation hprepared
  obtain ⟨j, hj⟩ := hlogged _ hgrant
  refine ⟨t.request, call, row, hspawn, hhonest.asked call rfl, hkey, hasks, ⟨j, _, hj⟩, ?_,
    hreq.trans hop.symm⟩
  rw [hkey, hop]
  exact hrow

/-- **a response below 400 stands for a receipt that has succeeded** -/
theorem answer_succeeded {t : HandlerThread} (ht : t ∈ s.threads) {response : Response}
    (hdone : t.rest = some (.done (.ok response))) (hok : response.status < 400) :
    ∃ call row, t.request.prepareCall state = .ok call ∧
      (∃ i answer, .act i (.store (.prepare call)) answer ∈ tr) ∧
      s.world.db.receipts.lookup call.operation.idempotencyKey = some row ∧
      row.request = call.operation ∧ row.state = .succeeded := by
  obtain ⟨call, hcall, hbased⟩ :=
    Pool.run_answer h rfl (fun r => (handle_based state r).obeys) ht hdone response rfl
  have hlogged := (Pool.run_logged h rfl t ht).2
  have htruth := ((run_receipted h).threads t ht).truthful
  cases hbased with
  | @replayed stored hmem hstatus =>
    obtain ⟨row, hl, hreq, hs, hdecode⟩ := (htruth _ hmem).replayed call stored rfl
    obtain ⟨i, hi⟩ := hlogged _ hmem
    have hfrank := (run_receipted h).inv _ row stored hl hs hdecode
    have hsucceeded : stored.failed = false := by
      refine Bool.eq_false_iff.mpr fun hfailed => ?_
      rw [hstatus] at hok
      exact absurd (hfrank hfailed) (UInt16.not_le.mpr hok)
    exact ⟨call, row, hcall, ⟨i, _, hi⟩, hl, hreq, decoded_succeeded hs hdecode hsucceeded⟩
  | @completed finish hmem hprepared hsucceeded =>
    obtain ⟨row, hl, hreq, hs, hdecode⟩ := (htruth _ hmem).completed finish rfl
    obtain ⟨l, hsub, hmay⟩ := Pool.run_allowed h rfl (handle_obeys state) t ht _ hmem
    have hop : call.operation = finish.operation := prepared_operation hprepared
    obtain ⟨context, hgranted⟩ := hmay.completes.prepared hprepared
    obtain ⟨i, hi⟩ := hlogged _ (hsub.subset hgranted)
    exact ⟨call, row, hcall, ⟨i, _, hi⟩, hop ▸ hl, hreq.trans hop.symm,
      decoded_succeeded hs hdecode hsucceeded⟩

/-- **answers and entries belong together**: a request that was answered with a status below 400 has
its entry in the registry, and every entry has a request that asked for it.  The binding of a call
to its operation stands for a request hash without collisions. -/
theorem answers_registered {callOf : OperationRequest → PrepareCall}
    (hbound : ∀ ev ∈ tr, EventBound callOf ev) :
    (∀ t ∈ s.threads, ∀ response, t.rest = some (.done (.ok response)) → response.status < 400 →
      ∃ call op, t.request.prepareCall state = .ok call ∧ call.Asks op ∧
        ⟨call.operation.idempotencyKey, op⟩ ∈ tr.filterMap entryOf) ∧
    ∀ entry ∈ tr.filterMap entryOf, ∃ request call, .spawn request ∈ tr ∧
      request.prepareCall state = .ok call ∧ entry.key = call.operation.idempotencyKey ∧
      call.Asks entry.op := by
  constructor
  · intro t ht response hdone hok
    obtain ⟨call, row, hcall, ⟨i, answer, hi⟩, hl, hreq, hs⟩ := answer_succeeded h ht hdone hok
    -- the key of the receipt is used up, so it has an entry
    have hkey : call.operation.idempotencyKey ∈ s.world.db.registry.done := ⟨row, hl, hs⟩
    rw [(Registry.run_keyed (system_registers h)).done] at hkey
    obtain ⟨entry, hentry, hk⟩ := List.mem_map.mp hkey
    -- the entry was asked for by a call of the same operation, which is the same call
    obtain ⟨_, call', row', -, -, -, hasks, ⟨j, answer', hj⟩, hl', hreq'⟩ := entry_asked h hentry
    rw [hk] at hl'
    obtain rfl := Option.some.inj (hl.symm.trans hl')
    have hsame : call' = call := by
      rw [← hbound _ hj j call' answer' rfl, ← hbound _ hi i call answer rfl, ← hreq, ← hreq']
    subst hsame
    refine ⟨call', entry.op, hcall, hasks, ?_⟩
    rw [← hk]
    exact hentry
  · intro entry hentry
    obtain ⟨request, call, _, hspawn, hcall, hkey, hasks, -⟩ := entry_asked h hentry
    exact ⟨request, call, hspawn, hcall, hkey, hasks⟩

end

end

namespace Sample

/-- the calls of some requests, by their operation -/
def callsOf (requests : List Request) (operation : OperationRequest) : PrepareCall :=
  ((requests.filterMap fun r => (r.prepareCall AppState.reference).toOption).find? fun call =>
    decide (call.operation = operation)).getD (.delete ⟨operation, 0⟩)

/-- the calls of an event are bound -/
def bound (callOf : OperationRequest → PrepareCall) : SystemEvent → Bool
  | .act _ (.store (.prepare call)) _ => decide (callOf call.operation = call)
  | _ => true

theorem bound_event {callOf : OperationRequest → PrepareCall} {ev : SystemEvent}
    (h : bound callOf ev = true) : EventBound callOf ev := by
  rintro i call answer rfl
  exact of_decide_eq_true h

end Sample

/-- two requests, answered with 202 and 201 -/
theorem answers_registered_keyed :
    let played := System.play PgStore.reference AppState.reference Sample.keyed
      (System.start Garage.empty)
    (played.2.threads.map fun t => (t.rest.bind Prog.result?).bind fun r => r.toOption.map
      Response.status) = [some 202, some 201] ∧
    ∀ entry ∈ played.1.filterMap entryOf, ∃ request call, .spawn request ∈ played.1 ∧
      request.prepareCall AppState.reference = .ok call ∧
      entry.key = call.operation.idempotencyKey ∧ call.Asks entry.op := by
  have hbound : ∀ ev ∈ (System.play PgStore.reference AppState.reference Sample.keyed
      (System.start Garage.empty)).1, EventBound (Sample.callsOf
        [Sample.reconcileRequest 100 10 "bucket-a" 1 1000 10, Sample.createRequest 101 10 "key"]) ev :=
    fun ev hev => Sample.bound_event (List.all_eq_true.mp (by decide +kernel) ev hev)
  exact ⟨by decide +kernel, (answers_registered (System.play_run Sample.keyed _) hbound).2⟩

end Syouyu
