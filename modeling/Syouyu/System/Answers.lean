import Syouyu.Store.Refusals
import Syouyu.Api.Binding
import Syouyu.System.Script
import Syouyu.System.Grants
import Syouyu.Lib.Exec

/-!
# Final answers

A handler that was told to execute its operation, amid the calls of others.  Nobody takes the
operation over; what the store held at each call of the handler is kept.

* `Scene.Effect`     a call of the handler, after any calls of others that spare its operation;
* `Ending`           how the handler can end: its response is in the receipt, or the receipt is
                     still in progress and the answer is an internal error or a refusal;
* `handle_ending`    every handler ends in one of these ways;
* `final_answers`    **an answer below 500 is final iff no completing call clashed**.
-/

set_option linter.unusedSectionVars false

namespace Syouyu
open Lib Lib.Prog

/-! ## what is answered -/

/-- the response that leaves the service -/
def httpResponse : Except ApiError Response → Response
  | .ok response => response
  | .error error => error.intoResponse

/-- an error of the store is answered with a status below 500 iff it is a refusal -/
theorem ofStore_status (e : StoreError) :
    (ApiError.ofStore e).status < 500 ↔ e.refusal = true := by
  cases e <;> simp [ApiError.ofStore, ApiError.notFound, ApiError.badRequest, ApiError.conflict,
    ApiError.internal, ApiError.operationInProgress, ApiError.new, StoreError.refusal]

/-- the receipt is finished and holds the response -/
def Database.Sealed (store : PgStore) (operation : OperationRequest) (status : UInt16)
    (body : Value) (db : Database) : Prop :=
  ∃ row failed, db.receipts.lookup operation.idempotencyKey = some row ∧ row.request = operation ∧
    row.state ≠ .inProgress ∧ store.decodeReceipt row = .ok ⟨status, body, failed⟩

/-- a status that was stored is a status -/
theorem decoded_status {store : PgStore} {db : Database} {k : Uuid} {row : ReceiptRow}
    {response : StoredHttpResponse} (hl : db.receipts.lookup k = some row)
    (hd : store.decodeReceipt row = .ok response) :
    100 ≤ response.status ∧ response.status ≤ 999 := by
  have hc := Table.lookup_check hl
  simp only [receiptSchema, Bool.and_eq_true] at hc
  obtain ⟨⟨⟨⟨-, hstatus⟩, -⟩, -⟩, -⟩ := hc
  unfold PgStore.decodeReceipt at hd
  obtain ⟨status, hs, nonce, -, ciphertext, -, plaintext, -, body, -, hd⟩ := by
    simpa only [except_bind_eq_ok, okOr_eq_ok] using hd
  obtain rfl := Except.ok.inj hd
  obtain ⟨value, hvalue, hs⟩ := Option.bind_eq_some_iff.mp hs
  rw [hvalue] at hstatus
  simp only [Option.all_some, Bool.and_eq_true, decide_eq_true_eq] at hstatus
  obtain ⟨hlo, hhi⟩ := hstatus
  rw [Int32.le_iff_toInt_le] at hlo hhi
  have hlo' : (100 : Int) ≤ value.toInt := hlo
  have hhi' : value.toInt ≤ (599 : Int) := hhi
  unfold u16TryFrom at hs
  split at hs
  · obtain rfl := Option.some.inj hs
    have hn : (UInt16.ofNat value.toInt.toNat).toNat = value.toInt.toNat := by
      rw [UInt16.toNat_ofNat']
      omega
    rw [UInt16.le_iff_toNat_le, UInt16.le_iff_toNat_le, hn]
    exact ⟨by show 100 ≤ _; omega, by show _ ≤ 999; omega⟩
  · cases hs

theorem OperationRequest.action_fits {operation : OperationRequest}
    (h : operation.validate = .ok ()) :
    operation.action.isEmpty = false ∧ len operation.action ≤ 128 := by
  unfold OperationRequest.validate at h
  split at h
  · cases h
  · rename_i haction
    push Not at haction
    exact ⟨by simpa using haction.1, haction.2⟩

theorem PrepareCall.operation_valid {call : PrepareCall} (h : call.validate = .ok ()) :
    call.operation.validate = .ok () := by
  cases call with
  | revokeCredential command => exact h
  | _ =>
    obtain ⟨⟨⟩, hop, -⟩ := except_bind_eq_ok.mp h
    exact hop

/-- the type of a resource fits the audit table -/
def Resource.Valid (resource : Resource) : Prop :=
  resource.resourceType.isEmpty = false ∧ len resource.resourceType ≤ 64

/-- renewing fails for internal reasons only while the receipt is held -/
theorem renewOperation_internal {env : CallEnv} {db : Database} {operation : OperationRequest}
    {o : Uuid} (hv : operation.validate = .ok ()) (hheld : db.HeldBy operation o) :
    (PgStore.renewOperation env operation o).FailsOnly (fun e => ¬ e.refusal = true) db := by
  refine .ofExcept_bind (fun e he => absurd_ok_error hv he) fun _ _ => ?_
  refine .bind (fun e he => ?_) fun _ _ _ =>
    .bind (updateRows_failsOnly fun _ _ => nofun) fun _ _ _ => Tx.failsOnly_ensure fun _ => nofun
  have hok : requireInProgressReceipt operation o db = .ok ((), db) :=
    requireInProgressReceipt_eq_ok.mpr ⟨hheld, rfl⟩
  rw [hok] at he
  cases he

/-! ## a handler amid others -/

/-- the call neither takes the operation over nor finishes it under the operation id -/
def CallRecord.Spares (operation : OperationRequest) (o : Uuid) (r : CallRecord) : Prop :=
  Lease.Spares operation.idempotencyKey o (eventOf r)

/-- the world, and what the database held at each call of the handler to the store -/
structure Scene where
  world : World
  found : List (StoreCall × Database)

def Call.found (db : Database) : Call → List (StoreCall × Database)
  | .store call => [(call, db)]
  | _ => []

/-- a call of the handler, after any calls of others that spare its operation -/
def Scene.Effect (store : PgStore) (behaviour : GarageBehaviour) (operation : OperationRequest)
    (o : Uuid) (x : Scene) (e : Call) (a : e.Answer) (x' : Scene) : Prop :=
  ∃ tr w, Run (StoreStep store) x.world.db tr w.db ∧
    (∀ r ∈ tr, CallRecord.Spares operation o r) ∧ World.Effect store behaviour w e a x'.world ∧
    x'.found = x.found ++ e.found w.db

/-- no completing call of the handler clashed with what it found -/
def Scene.Clear (x : Scene) : Prop :=
  ∀ finish db, (StoreCall.finish finish, db) ∈ x.found → ¬ finish.completion.Clashes db

section
variable (store : PgStore) (call : PrepareCall) (o : Uuid) (context : call.Context)

/-- the operation is in progress under the operation id, and its context is up to date -/
structure Underway (db : Database) : Prop where
  reachable : Reachable store db
  held : db.HeldBy call.operation o
  observed : call.Observed db context

/-- the operation is in progress and nothing clashed so far -/
structure Pending (x : Scene) : Prop where
  underway : Underway store call o context x.world.db
  clear : x.Clear

/-- how a handler ends -/
inductive Ending (x : Scene) (response : Response) : Prop
  /-- the receipt is finished with the response -/
  | final : x.world.db.Sealed store call.operation response.status response.body → x.Clear →
      Ending x response
  /-- an internal error, and the receipt is still in progress -/
  | open_ : Pending store call o context x → 500 ≤ response.status → Ending x response
  /-- the store has refused the completion, and the receipt is still in progress -/
  | refused : Underway store call o context x.world.db → response.status < 500 → ¬ x.Clear →
      Ending x response

end

section
variable {store : PgStore} {behaviour : GarageBehaviour} {call : PrepareCall} {o : Uuid}
  {context : call.Context} {db db' : Database} {x x' : Scene} {ε α : Type}

theorem Underway.run {tr : List CallRecord} (h : Underway store call o context db)
    (hrun : Run (StoreStep store) db tr db')
    (hspared : ∀ r ∈ tr, CallRecord.Spares call.operation o r) :
    Underway store call o context db' := by
  obtain ⟨row, hl, hreq, rfl, hs, hheld⟩ := heldBy_entry h.held
  have hevents : ∀ l ∈ tr.map eventOf,
      Lease.Spares call.operation.idempotencyKey row.entry.holder l := by
    intro l hl
    obtain ⟨r, hr, rfl⟩ := List.mem_map.mp hl
    exact hspared r hr
  obtain ⟨e, he, hident, hholder, hheld'⟩ :=
    Lease.run_still_held (run_ledger hrun) hevents (ledger_eq_some.mpr ⟨row, hl, rfl⟩) hheld
  obtain ⟨row', hl', rfl⟩ := ledger_eq_some.mp he
  have hs' := (entry_held hl').mp hheld'
  exact ⟨h.reachable.run hrun, ⟨row', hl', Eq.trans hident hreq, hholder, hs'⟩,
    h.observed.run (reachable_exclusive h.reachable) hrun hl hreq hl' hs'⟩

/-- what a call of the handler finds, and what it leaves -/
theorem Pending.effect {e : Call} {a : e.Answer} (h : Pending store call o context x)
    (he : Scene.Effect store behaviour call.operation o x e a x') :
    ∃ w, Underway store call o context w.db ∧ World.Effect store behaviour w e a x'.world ∧
      x'.found = x.found ++ e.found w.db := by
  obtain ⟨tr, w, hrun, hspared, heffect, hfound⟩ := he
  exact ⟨w, h.underway.run hrun hspared, heffect, hfound⟩

/-- a call that is not one of the store leaves the operation pending -/
theorem Pending.elsewhere {e : Call} {a : e.Answer} (h : Pending store call o context x)
    (he : Scene.Effect store behaviour call.operation o x e a x')
    (hother : ∀ db, e.found db = []) : Pending store call o context x' := by
  obtain ⟨w, hw, heffect, hfound⟩ := h.effect he
  have hdb : x'.world.db = w.db := by
    cases e with
    | store c => exact absurd (hother w.db) (List.cons_ne_nil _ _)
    | garage c => exact heffect.2
    | query q => exact congrArg World.db heffect.2
  refine ⟨hdb ▸ hw, ?_⟩
  unfold Scene.Clear
  rw [hfound, hother, List.append_nil]
  exact h.clear

/-- a call that completes nothing leaves nothing to clash -/
theorem Scene.Clear.other {c : StoreCall} (h : x.Clear) (hfound : x'.found = x.found ++ [(c, db)])
    (hother : ∀ finish, c ≠ .finish finish) : x'.Clear := by
  intro finish db₁ hmem
  rw [hfound] at hmem
  obtain hmem | hmem := List.mem_append.mp hmem
  · exact h finish db₁ hmem
  · exact absurd (Prod.mk.inj (List.mem_singleton.mp hmem)).1.symm (hother finish)

theorem Scene.Clear.finish_iff {finish : FinishCall} (h : x.Clear)
    (hfound : x'.found = x.found ++ [(.finish finish, db)]) :
    x'.Clear ↔ ¬ finish.completion.Clashes db := by
  constructor
  · intro h'
    exact h' finish db (hfound ▸ List.mem_append_right _ List.mem_cons_self)
  · intro hclash finish' db₁ hmem
    rw [hfound] at hmem
    obtain hmem | hmem := List.mem_append.mp hmem
    · exact h finish' db₁ hmem
    · obtain ⟨hf, rfl⟩ := Prod.mk.inj (List.mem_singleton.mp hmem)
      obtain rfl := StoreCall.finish.inj hf
      exact hclash

/-! ## parts of handlers -/

section
variable {F : Scene → ApiError → Prop}

/-- programs on Garage leave the operation pending, whatever is answered -/
theorem onGarage_pending (p : GarageM ε α) (h : Pending store call o context x) :
    (onGarage p).Ensures (Scene.Effect store behaviour call.operation o) (fun _ => True)
      (fun x _ => Pending store call o context x) (fun x _ => Pending store call o context x) x := by
  refine ensures_inject ⟨?_⟩
  induction p generalizing x with
  | done r => cases r <;> exact h
  | ask e next ih => exact fun a x' he => ⟨trivial, ih a (h.elsewhere he fun _ => rfl)⟩

theorem utcNow_pending (h : Pending store call o context x) :
    utcNow.Ensures (Scene.Effect store behaviour call.operation o) (fun _ => True)
      (fun x _ => Pending store call o context x) F x :=
  ensures_request (e := Call.query .utcNow) fun _ _ he => ⟨trivial, h.elsewhere he fun _ => rfl⟩

/-- a request id fits the audit table -/
theorem requestId_pending (headers : Headers) (h : Pending store call o context x) :
    (requestId headers).Ensures (Scene.Effect store behaviour call.operation o) (fun _ => True)
      (fun x id => Pending store call o context x ∧ id.isEmpty = false ∧ len id ≤ 256) F x := by
  unfold requestId
  split
  · rename_i value hvalue
    have hok := (Option.filter_eq_some_iff.mp hvalue).2
    simp only [Bool.and_eq_true, Bool.not_eq_true', decide_eq_true_eq] at hok
    exact ensures_pure ⟨h, hok⟩
  · refine ensures_bind (P := fun x _ => Pending store call o context x)
      (ensures_request (e := Call.query .newUuid) fun drawn x' he =>
        ⟨trivial, h.elsewhere he fun _ => rfl⟩) fun x' drawn hx' => ensures_pure ⟨hx', ?_⟩
    have hlen : drawn.toString.length = 36 := Uuid.length_toString drawn
    refine ⟨?_, (len_le_length _).trans (by omega)⟩
    rw [Bool.eq_false_iff, ne_eq, String.isEmpty_iff]
    intro hempty
    rw [hempty] at hlen
    cases hlen

/-- an audit event that the handler builds can be recorded -/
theorem audit_pending {headers : Headers} {resource : Resource} {details : Value}
    (hv : call.validate = .ok ()) (hresource : resource.Valid) (hdetails : details.isObject = true)
    (h : Pending store call o context x) :
    (audit headers call.operation resource details).Ensures
      (Scene.Effect store behaviour call.operation o) (fun _ => True)
      (fun x event => Pending store call o context x ∧ event.valid = true ∧
        AuditEvent.valid { event with outcome := "failed" } = true) F x := by
  refine ensures_bind (requestId_pending headers h) fun x' id hid => ensures_pure ⟨hid.1, ?_⟩
  obtain ⟨-, hempty, hlen⟩ := hid
  obtain ⟨haction, hlong⟩ := OperationRequest.action_fits (PrepareCall.operation_valid hv)
  simp [AuditEvent.valid, auditForOperation, hempty, hlen, haction, hlong, hresource.1,
    hresource.2, hdetails]

/-- a lease is renewed, or the answer is an internal error -/
theorem renewOperation_pending (hv : call.validate = .ok ())
    (h : Pending store call o context x) :
    (renewOperation call.operation o).Ensures (Scene.Effect store behaviour call.operation o)
      (fun _ => True) (fun x _ => Pending store call o context x)
      (fun x e => Ending store call o context x e.intoResponse) x := by
  refine ensures_bind (P := fun x (answer : Except StoreError Unit) =>
      Pending store call o context x ∧ ∀ e, answer = .error e → ¬ e.refusal = true)
    (ensures_request (e := Call.store (.renewOperation call.operation o)) fun answer x' he =>
      ⟨trivial, ?_⟩) fun x' answer hx' => ?_
  · obtain ⟨w, hw, ⟨⟨env, hstep⟩, -⟩, hfound⟩ := h.effect he
    refine ⟨⟨hw.run (.single hstep) ?_, h.clear.other hfound fun _ h => by cases h⟩, ?_⟩
    · intro r hr
      obtain rfl := List.mem_singleton.mp hr
      cases answer <;> exact trivial
    · rintro e rfl
      exact renewOperation_internal (PrepareCall.operation_valid hv) hw.held _
        (Tx.atomically_error.mp hstep).1
  · refine ensures_ofExcept (fun _ _ => hx'.1) fun e he => .open_ hx'.1 ?_
    exact UInt16.not_lt.mp (mt (ofStore_status e).mp (hx'.2 e he))

/-- what a completing call leaves, with its answer -/
def Completed (store : PgStore) (call : PrepareCall) (o : Uuid) (context : call.Context)
    (response : StoredHttpResponse) (x : Scene) : Except StoreError Unit → Prop
  | .ok _ => x.world.db.Sealed store call.operation response.status response.body ∧ x.Clear
  | .error e => Underway store call o context x.world.db ∧ (x.Clear ↔ ¬ e.refusal = true)

/-- **a completing call seals its response, or is refused because it clashed, or fails** -/
theorem finish_completed {finish : FinishCall} (hv : call.validate = .ok ())
    (hanswers : finish.completion.Answers call context) (ho : finish.operationId = o)
    (hmade : finish.Made) (h : Pending store call o context x) :
    (request (Call.store (.finish finish)) : HandlerM ApiError _).Ensures
      (Scene.Effect store behaviour call.operation o) (fun _ => True)
      (fun x answer => Completed store call o context finish.response x answer) F x := by
  refine ensures_request (e := Call.store (.finish finish)) fun answer x' he => ⟨trivial, ?_⟩
  obtain ⟨w, hw, ⟨⟨env, hstep⟩, -⟩, hfound⟩ := h.effect he
  have hclear := h.clear.finish_iff hfound
  have hrefused : Refused (finish.exec store env) w.db ↔ finish.completion.Clashes w.db :=
    finish_refused_iff hv hw.observed hanswers (ho ▸ hw.held) hmade
  cases answer with
  | ok u =>
    have hexec : finish.exec store env w.db = .ok (u, x'.world.db) := step_ok hstep
    obtain ⟨row, hl, hs, hreq, hd⟩ := finish_receipt hexec
    have hop : finish.operation = call.operation := hanswers.operation
    rw [hop] at hl hreq
    refine ⟨⟨row, finish.response.failed, hl, hreq, hs, hd⟩, hclear.mpr fun hclash => ?_⟩
    obtain ⟨e, he, -⟩ := hrefused.mpr hclash
    rw [hexec] at he
    cases he
  | error e =>
    have hexec : finish.exec store env w.db = .error e := (Tx.atomically_error.mp hstep).1
    have hsame : x'.world.db = w.db := step_error hstep
    refine ⟨hsame ▸ hw, hclear.trans (not_congr (hrefused.symm.trans ⟨?_, fun hr => ⟨e, hexec, hr⟩⟩))⟩
    rintro ⟨e', he', hr⟩
    obtain rfl : e' = e := Except.error.inj (he'.symm.trans hexec)
    exact hr

/-- the answer to a completion that failed -/
theorem Completed.ending {response : StoredHttpResponse} {e : StoreError}
    (h : Completed store call o context response x (.error e)) :
    Ending store call o context x (ApiError.ofStore e).intoResponse := by
  obtain ⟨hw, hclear⟩ := h
  by_cases hr : e.refusal = true
  · exact .refused hw ((ofStore_status e).mpr hr) fun hc => hclear.mp hc hr
  · exact .open_ ⟨hw, hclear.mpr hr⟩ (UInt16.not_lt.mp (mt (ofStore_status e).mp hr))

/-- the operation is completed, and the stored response answered -/
theorem completing_ending {finish : FinishCall} (hv : call.validate = .ok ())
    (hanswers : finish.completion.Answers call context) (ho : finish.operationId = o)
    (hmade : finish.Made) (hstatus : 100 ≤ finish.response.status ∧ finish.response.status ≤ 999)
    (h : Pending store call o context x) :
    (completing finish).Ensures (Scene.Effect store behaviour call.operation o) (fun _ => True)
      (fun x response => Ending store call o context x response)
      (fun x e => Ending store call o context x e.intoResponse) x := by
  refine ensures_bind (P := fun x _ => Completed store call o context finish.response x (.ok ()))
    (ensures_bind (finish_completed hv hanswers ho hmade h) fun x' answer hx' => ?_)
    fun x' _ hx' => ?_
  · refine ensures_ofExcept (fun _ ha => ?_) fun e he => ?_
    · exact ha ▸ hx'
    · exact Completed.ending (he ▸ hx')
  · simp only [storedIntoResponse, hstatus, and_self, if_true]
    exact ensures_pure (.final hx'.1 hx'.2)

/-- the same where a key is removed after the lease was lost -/
theorem completingCreate_ending {finish : FinishCall} {garageKeyId : String}
    (hv : call.validate = .ok ()) (hanswers : finish.completion.Answers call context)
    (ho : finish.operationId = o) (hmade : finish.Made)
    (hstatus : 100 ≤ finish.response.status ∧ finish.response.status ≤ 999)
    (h : Pending store call o context x) :
    (completingCreate finish garageKeyId).Ensures (Scene.Effect store behaviour call.operation o)
      (fun _ => True) (fun x response => Ending store call o context x response)
      (fun x e => Ending store call o context x e.intoResponse) x := by
  refine ensures_bind (finish_completed hv hanswers ho hmade h) fun x' answer hx' => ?_
  split
  · simp only [storedIntoResponse, hstatus, and_self, if_true]
    exact ensures_pure (.final hx'.1 hx'.2)
  · have hpending : Pending store call o context x' := ⟨hx'.1, hx'.2.mpr nofun⟩
    refine ensures_bind (P := fun x _ => Pending store call o context x)
      (ensures_attempt (onGarage_pending _ hpending)) fun x'' _ hx'' => ensures_throw ?_
    exact .open_ hx'' (UInt16.not_lt.mp (mt (ofStore_status _).mp nofun))
  · exact ensures_throw hx'.ending

/-! ## failures of Garage -/

/-- the execution is that of the operation -/
structure Execution.Serves (y : Execution) (call : PrepareCall) (o : Uuid) : Prop where
  operation : y.operation = call.operation
  operationId : y.operationId = o
  resource : y.resource.Valid

/-- a failure that is recorded is the answer -/
theorem failWith_ending {y : Execution} {details : Value} {error : GarageBackendError}
    {P : Scene → α → Prop} (hv : call.validate = .ok ()) (hy : y.Serves call o)
    (hdetails : details.isObject = true) (h : Pending store call o context x) :
    (failWith y details error).Ensures (Scene.Effect store behaviour call.operation o)
      (fun _ => True) P (fun x e => Ending store call o context x e.intoResponse) x := by
  rw [failWith, hy.operation, hy.operationId]
  refine ensures_bind (audit_pending hv hy.resource hdetails h) fun x₁ event hx₁ => ?_
  refine ensures_bind (P := fun x (e : ApiError) => Ending store call o context x e.intoResponse)
    (ensures_bind (finish_completed hv .fail rfl ⟨hx₁.2.2, nofun, fun _ _ => rfl⟩ hx₁.1)
      fun x₂ answer hx₂ => ?_) fun x₂ e hx₂ => ensures_throw hx₂
  split
  · exact ensures_pure hx₂.ending
  · exact ensures_pure (.final hx₂.1 hx₂.2)

theorem persistFailure_ending {error : ApiError} {event : AuditEvent} (hv : call.validate = .ok ())
    (hevent : AuditEvent.valid { event with outcome := "failed" } = true)
    (h : Pending store call o context x) :
    (persistFailure call.operation o error event).Ensures
      (Scene.Effect store behaviour call.operation o) (fun _ => True)
      (fun x _ => Ending store call o context x error.intoResponse)
      (fun x e => Ending store call o context x e.intoResponse) x := by
  refine ensures_bind (finish_completed hv .fail rfl ⟨hevent, nofun, fun _ _ => rfl⟩ h)
    fun x' answer hx' => ensures_ofExcept (fun _ ha => ?_) fun e he => ?_
  · subst ha
    exact .final hx'.1 hx'.2
  · subst he
    exact hx'.ending

theorem garageOrFail_ending {y : Execution} {details : Value}
    {program : GarageM GarageBackendError α} (hv : call.validate = .ok ()) (hy : y.Serves call o)
    (hdetails : details.isObject = true) (h : Pending store call o context x) :
    (garageOrFail y details program).Ensures (Scene.Effect store behaviour call.operation o)
      (fun _ => True) (fun x _ => Pending store call o context x)
      (fun x e => Ending store call o context x e.intoResponse) x := by
  refine ensures_bind (P := fun x _ => Pending store call o context x)
    (ensures_attempt (onGarage_pending program h)) fun x' r hx' => ?_
  cases r with
  | ok a => exact ensures_pure hx'
  | error error => exact failWith_ending hv hy hdetails hx'

/-! ## the four handlers -/

theorem serviceExecution_serves (call : PrepareCall) {headers : Headers} {o : Uuid} :
    (serviceExecution headers call.operation o).Serves call o :=
  ⟨rfl, rfl, rfl, show len "service_instance" ≤ 64 by decide⟩

theorem credentialExecution_serves (call : PrepareCall) {headers : Headers}
    {o contextId credentialId : Uuid} :
    (credentialExecution headers call.operation o contextId credentialId).Serves call o :=
  ⟨rfl, rfl, rfl, show len "credential" ≤ 64 by decide⟩

theorem internal_ending (h : Pending store call o context x) :
    Ending store call o context x ApiError.internal.intoResponse := .open_ h (by decide)

theorem requestGeneration_pending (generation : Int64) (h : Pending store call o context x) :
    (ofExcept id (requestGeneration generation) : HandlerM ApiError UInt64).Ensures
      (Scene.Effect store behaviour call.operation o) (fun _ => True)
      (fun x _ => Pending store call o context x)
      (fun x e => Ending store call o context x e.intoResponse) x := by
  refine ensures_ofExcept (fun _ _ => h) fun e he => ?_
  unfold requestGeneration at he
  split at he
  · cases he
  · obtain rfl := Except.error.inj he
    exact internal_ending h

end

variable {state : AppState} {headers : Headers}

theorem executeReconcile_ending {command : ReconcileCommand} {context : ReconcileContext}
    (hv : (PrepareCall.reconcile command).validate = .ok ()) (h : Pending store (.reconcile command) o context x) :
    (executeReconcile state headers command o context).Ensures
      (Scene.Effect store behaviour command.operation o) (fun _ => True)
      (fun x response => Ending store (.reconcile command) o context x response)
      (fun x e => Ending store (.reconcile command) o context x e.intoResponse) x := by
  have hy : (serviceExecution headers command.operation o).Serves (.reconcile command) o :=
    serviceExecution_serves (.reconcile command)
  refine ensures_bind (P := fun x _ => Pending store (.reconcile command) o context x) ?_
    fun x₁ pid h₁ => ?_
  · unfold reconciledBucketId
    split
    · split
      · exact ensures_pure h
      · exact ensures_throw (internal_ending h)
    · refine ensures_bind (renewOperation_pending hv h) fun x₁ _ h₁ => ?_
      exact ensures_bind (garageOrFail_ending hv hy rfl h₁) fun x₂ _ h₂ => ensures_pure h₂
  · refine ensures_bind (requestGeneration_pending _ h₁) fun x₂ _ h₂ => ?_
    refine ensures_bind (utcNow_pending h₂) fun x₃ _ h₃ => ?_
    refine ensures_bind (audit_pending hv hy.resource rfl h₃) fun x₄ event h₄ => ?_
    refine completing_ending hv .reconcile rfl ⟨h₄.2.1, nofun, nofun⟩ ?_ h₄.1
    simp only [successResponse]
    split <;> decide

/-- the keys are revoked one after the other, each under a renewed lease -/
theorem revokeKeys_ending {command : DeleteCommand} {context : DeleteContext} {y : Execution}
    (hv : (PrepareCall.delete command).validate = .ok ()) (hy : y.Serves (.delete command) o) (keys : List String)
    (h : Pending store (.delete command) o context x) :
    (revokeKeys y command keys).Ensures (Scene.Effect store behaviour command.operation o)
      (fun _ => True) (fun x _ => Pending store (.delete command) o context x)
      (fun x e => Ending store (.delete command) o context x e.intoResponse) x := by
  induction keys generalizing x with
  | nil => exact ensures_pure h
  | cons k keys ih =>
    rw [revokeKeys, hy.operation, hy.operationId]
    refine ensures_bind (renewOperation_pending hv h) fun x₁ _ h₁ => ?_
    exact ensures_bind (garageOrFail_ending hv hy rfl h₁) fun x₂ _ h₂ => ih h₂

theorem executeDelete_ending {command : DeleteCommand} {context : DeleteContext}
    (hv : (PrepareCall.delete command).validate = .ok ()) (h : Pending store (.delete command) o context x) :
    (executeDelete state headers command o context).Ensures
      (Scene.Effect store behaviour command.operation o) (fun _ => True)
      (fun x response => Ending store (.delete command) o context x response)
      (fun x e => Ending store (.delete command) o context x e.intoResponse) x := by
  have hy : (serviceExecution headers command.operation o).Serves (.delete command) o :=
    serviceExecution_serves (.delete command)
  unfold executeDelete
  split
  · exact ensures_throw (internal_ending h)
  · refine ensures_bind (renewOperation_pending hv h) fun x₁ _ h₁ => ?_
    refine ensures_bind (P := fun x _ => Pending store (.delete command) o context x) ?_
      fun x₂ usage h₂ => ?_
    · refine ensures_bind (P := fun x _ => Pending store (.delete command) o context x)
        (ensures_attempt (onGarage_pending _ h₁)) fun x₂ r h₂ => ?_
      split
      · exact ensures_pure h₂
      · exact ensures_pure h₂
      · exact failWith_ending hv hy rfl h₂
    refine ensures_bind (P := fun x _ => Pending store (.delete command) o context x) ?_
      fun x₃ _ h₃ => ?_
    · unfold requireEmpty
      split
      · exact ensures_pure h₂
      · -- the answer is the failure that was recorded
        refine ensures_bind (audit_pending hv hy.resource rfl h₂) fun x₃ event h₃ => ?_
        exact ensures_bind (persistFailure_ending hv h₃.2.2 h₃.1) fun x₄ _ h₄ => ensures_throw h₄
    refine ensures_bind (revokeKeys_ending hv hy _ h₃) fun x₄ _ h₄ => ?_
    refine ensures_bind (renewOperation_pending hv h₄) fun x₅ _ h₅ => ?_
    refine ensures_bind (garageOrFail_ending hv hy rfl h₅) fun x₆ _ h₆ => ?_
    refine ensures_bind (requestGeneration_pending _ h₆) fun x₇ _ h₇ => ?_
    refine ensures_bind (utcNow_pending h₇) fun x₈ _ h₈ => ?_
    refine ensures_bind (audit_pending hv hy.resource rfl h₈) fun x₉ event h₉ => ?_
    exact completing_ending hv .delete rfl ⟨h₉.2.1, nofun, nofun⟩
      (show 100 ≤ (200 : UInt16) ∧ (200 : UInt16) ≤ 999 by decide) h₉.1

theorem executeCreate_ending {principal : Principal} {command : CreateCredentialCommand}
    {context : CreateCredentialContext} (hv : (PrepareCall.createCredential command).validate = .ok ())
    (h : Pending store (.createCredential command) o context x) :
    (executeCreate state headers principal command o context).Ensures
      (Scene.Effect store behaviour command.operation o) (fun _ => True)
      (fun x response => Ending store (.createCredential command) o context x response)
      (fun x e => Ending store (.createCredential command) o context x e.intoResponse) x := by
  have hy : (credentialExecution headers command.operation o principal.contextId
      context.credentialId).Serves (.createCredential command) o :=
    credentialExecution_serves (.createCredential command)
  unfold executeCreate
  split
  · exact ensures_throw (internal_ending h)
  · refine ensures_bind (renewOperation_pending hv h) fun x₁ _ h₁ => ?_
    refine ensures_bind (garageOrFail_ending hv hy rfl h₁) fun x₂ issued h₂ => ?_
    refine ensures_bind (utcNow_pending h₂) fun x₃ _ h₃ => ?_
    refine ensures_bind (audit_pending hv hy.resource rfl h₃) fun x₄ event h₄ => ?_
    refine completingCreate_ending hv (.createCredential rfl) rfl
      ⟨h₄.2.1, fun _ _ he => ?_, nofun⟩
      (show 100 ≤ (201 : UInt16) ∧ (201 : UInt16) ≤ 999 by decide) h₄.1
    obtain ⟨rfl, rfl⟩ := Completion.createCredential.inj he
    exact ⟨rfl, rfl⟩

theorem executeRevoke_ending {principal : Principal} {command : RevokeCredentialCommand}
    {context : RevokeCredentialContext} (hv : (PrepareCall.revokeCredential command).validate = .ok ())
    (h : Pending store (.revokeCredential command) o context x) :
    (executeRevoke headers principal command o context).Ensures
      (Scene.Effect store behaviour command.operation o) (fun _ => True)
      (fun x response => Ending store (.revokeCredential command) o context x response)
      (fun x e => Ending store (.revokeCredential command) o context x e.intoResponse) x := by
  have hy : (credentialExecution headers command.operation o principal.contextId
      command.credentialId).Serves (.revokeCredential command) o :=
    credentialExecution_serves (.revokeCredential command)
  refine ensures_bind (renewOperation_pending hv h) fun x₁ _ h₁ => ?_
  refine ensures_bind (P := fun x _ => Pending store (.revokeCredential command) o context x) ?_
    fun x₂ _ h₂ => ?_
  · unfold revokeKey
    split
    · exact ensures_pure h₁
    · exact garageOrFail_ending hv hy rfl h₁
  · refine ensures_bind (audit_pending hv hy.resource rfl h₂) fun x₃ event h₃ => ?_
    exact completing_ending hv .revokeCredential rfl ⟨h₃.2.1, nofun, nofun⟩
      (show 100 ≤ (200 : UInt16) ∧ (200 : UInt16) ≤ 999 by decide) h₃.1

/-- an operation that is executed ends in one of the three ways -/
theorem Executes.ending {r : Request} {execute : Uuid → call.Context → HandlerM ApiError Response}
    (hexecutes : Executes state r call execute) (hv : call.validate = .ok ())
    (h : Pending store call o context x) :
    (execute o context).Ensures (Scene.Effect store behaviour call.operation o) (fun _ => True)
      (fun x response => Ending store call o context x response)
      (fun x e => Ending store call o context x e.intoResponse) x := by
  cases hexecutes with
  | reconcile _ => exact executeReconcile_ending hv h
  | delete _ => exact executeDelete_ending hv h
  | createCredential _ => exact executeCreate_ending hv h
  | revokeCredential _ => exact executeRevoke_ending hv h

/-! ## the whole handler -/

/-- **every handler that is told to execute its operation ends in one of the three ways** -/
theorem handle_ending {r : Request} {log : CallLog} {result : Except ApiError Response}
    (hcall : r.prepareCall state = .ok call) (hreach : Reachable store x.world.db)
    (hempty : x.found = [])
    (hrun : Runs (Scene.Effect store behaviour call.operation o) x (handle state r)
      (⟨.store (.prepare call), Except.ok (.execute o context)⟩ :: log) x' (.done result)) :
    call.validate = .ok () ∧ Ending store call o context x' (httpResponse result) := by
  obtain ⟨execute, hhandle, hexecutes⟩ := handle_executes hcall
  rw [hhandle] at hrun
  obtain _ | ⟨he, hrest⟩ := hrun
  obtain ⟨tr, w, hothers, -, ⟨⟨env, hstep⟩, -⟩, hfound⟩ := he
  rename_i x₁
  have hexec : call.exec store env w.db = .ok (.execute o context, x₁.world.db) := step_ok hstep
  obtain ⟨hv, -⟩ := prepare_body hexec
  have hunder : Underway store call o context x₁.world.db :=
    ⟨(hreach.run hothers).step hstep, executed_receipt hexec, prepare_observed hexec⟩
  have hclear : x.Clear := by
    intro finish db hmem
    rw [hempty] at hmem
    cases hmem
  have hpending : Pending store call o context x₁ :=
    ⟨hunder, hclear.other hfound fun _ h => by cases h⟩
  refine ⟨hv, ?_⟩
  have hend := ((hexecutes.ending hv hpending).runs trivial hrest).2 result rfl
  cases result with
  | ok response => exact hend
  | error e => exact hend

/-- a handler that finds its response in the receipt answers it, after one call -/
theorem replaying {r : Request} {row : ReceiptRow} {response : StoredHttpResponse}
    (hcall : r.prepareCall state = .ok call) (hv : call.validate = .ok ())
    (hl : db.receipts.lookup call.operation.idempotencyKey = some row)
    (hreq : row.request = call.operation) (hs : row.state ≠ .inProgress)
    (hd : store.decodeReceipt row = .ok response) :
    ∃ next final, handle state r = .ask (.store (.prepare call)) next ∧
      (∀ env, (StoreCall.prepare call).run store env db = (.ok (.replay response), db)) ∧
      next (.ok (.replay response)) = .done (.ok final) ∧ final.status = response.status ∧
      final.body = response.body := by
  obtain ⟨execute, hhandle, -⟩ := handle_executes hcall
  obtain ⟨final, hreturn, hstatus, hbody⟩ : ∃ final, storedIntoResponse response = .ok final ∧
      final.status = response.status ∧ final.body = response.body :=
    ⟨_, if_pos (decoded_status hl hd), rfl, rfl⟩
  refine ⟨_, final, hhandle, fun env => ?_, ?_, hstatus, hbody⟩
  · exact prepare_replays hv hl hs hd ((matches_of_lookup hl).mpr hreq)
  · show ofExcept id (storedIntoResponse response) = _
    rw [hreturn]
    rfl

section
variable (store behaviour state)

/-- whenever the request is repeated, it returns, and with the status and the body of the response -/
def Repeats (r : Request) (response : Response) (db : Database) : Prop :=
  ∀ tr w, Run (StoreStep store) db tr w.db →
    (∃ log w' result, Runs (World.Effect store behaviour) w (handle state r) log w' (.done result)) ∧
    ∀ log w' result, Runs (World.Effect store behaviour) w (handle state r) log w' (.done result) →
      (httpResponse result).status = response.status ∧ (httpResponse result).body = response.body

end

/-- a response that is in the receipt is answered ever after -/
theorem Database.Sealed.repeats {r : Request} {response : Response}
    (hcall : r.prepareCall state = .ok call) (hv : call.validate = .ok ())
    (hsealed : db.Sealed store call.operation response.status response.body) :
    Repeats store behaviour state r response db := by
  obtain ⟨row, failed, hl, hreq, hs, hd⟩ := hsealed
  intro tr w hlater
  obtain ⟨row', hl', hreq', hkept⟩ := receipt_kept hlater hl
  obtain rfl := hkept hs
  obtain ⟨next, final, hhandle, hreplay, hnext, hstatus, hbody⟩ := replaying hcall hv hl' hreq hs hd
  rw [hhandle]
  constructor
  · have hstop : Runs (World.Effect store behaviour) w
        (next (.ok (.replay ⟨response.status, response.body, failed⟩))) [] w
        (.done (.ok final)) := by
      rw [hnext]
      exact .stop
    exact ⟨_, w, .ok final, .step ⟨⟨⟨0, 0, 0, 0, 0, none⟩, hreplay _⟩, rfl⟩ hstop⟩
  · intro log w' result hrun
    cases hrun with
    | step he hrest =>
      obtain ⟨⟨env, hstep⟩, -⟩ := he
      obtain ⟨ha, -⟩ := Prod.mk.inj (hstep.symm.trans (hreplay env))
      change _ = _ at ha
      subst ha
      rw [hnext] at hrest
      cases hrest
      exact ⟨hstatus, hbody⟩

/-- **An answer below 500 is final iff no completing call clashed.**  A handler is told to execute
its operation, nobody takes the operation over, and Garage answers anything.  Its answer, if it is
below 500, is in a finished receipt and is repeated ever after iff its completing call did not find
an id that Garage cannot have given or a row with one of its unique values. -/
theorem final_answers {r : Request} {log : CallLog} {result : Except ApiError Response}
    (hcall : r.prepareCall state = .ok call) (hreach : Reachable store x.world.db)
    (hempty : x.found = [])
    (hrun : Runs (Scene.Effect store behaviour call.operation o) x (handle state r)
      (⟨.store (.prepare call), Except.ok (.execute o context)⟩ :: log) x' (.done result)) :
    ((httpResponse result).status < 500 →
      (∃ row, x'.world.db.receipts.lookup call.operation.idempotencyKey = some row ∧
        row.request = call.operation ∧ row.state ≠ .inProgress) ∧
      Repeats store behaviour state r (httpResponse result) x'.world.db) ↔
    ∀ finish db₁, (StoreCall.finish finish, db₁) ∈ x'.found →
      ¬ finish.completion.Clashes db₁ := by
  obtain ⟨hv, hend⟩ := handle_ending hcall hreach hempty hrun
  cases hend with
  | final hsealed hclear =>
    refine iff_of_true (fun _ => ⟨?_, hsealed.repeats hcall hv⟩) hclear
    obtain ⟨row, failed, hl, hreq, hs, -⟩ := hsealed
    exact ⟨row, hl, hreq, hs⟩
  | open_ hpending hstatus =>
    exact iff_of_true (fun hlow => absurd hlow (UInt16.not_lt.mpr hstatus)) hpending.clear
  | refused hunder hstatus hclash =>
    refine iff_of_false (fun h => ?_) hclash
    obtain ⟨⟨row, hl, -, hs⟩, -⟩ := h hstatus
    obtain ⟨row', hl', -, -, hs'⟩ := hunder.held
    obtain rfl := Option.some.inj (hl'.symm.trans hl)
    exact hs hs'

end

/-! ## a first service, and a second one of the same name -/

/-- a call of the handler with nobody beside it -/
def Scene.perform (store : PgStore) (choice : Choice) (x : Scene) (e : Call) : e.Answer × Scene :=
  let after := x.world.perform store choice e
  (after.1, ⟨after.2, x.found ++ e.found x.world.db⟩)

theorem Scene.perform_effect (store : PgStore) (operation : OperationRequest) (o : Uuid)
    (choice : Choice) (x : Scene) (e : Call) :
    Scene.Effect store Garage.Documented operation o x e (x.perform store choice e).1
      (x.perform store choice e).2 :=
  ⟨[], x.world, .nil _, (fun _ h => by cases h), Syouyu.perform_effect store choice x.world e, rfl⟩

theorem executes_first {state : AppState} {r : Request} {call : PrepareCall} {W : Type}
    {effect : W → (e : Call) → e.Answer → W → Prop} {x x' : W} {log : CallLog}
    {q : HandlerM ApiError Response} (hcall : r.prepareCall state = .ok call)
    (hrun : Runs effect x (handle state r) log x' q) (hfirst : log.head?.any executes = true) :
    ∃ o context rest, log = ⟨.store (.prepare call), Except.ok (.execute o context)⟩ :: rest := by
  obtain ⟨execute, hhandle, -⟩ := handle_executes hcall
  rw [hhandle] at hrun
  cases hrun with
  | stop => cases hfirst
  | @step _ _ _ _ a _ rest _ _ _ =>
    change Except StoreError (Prepare call.Context) at a
    cases a with
    | error e => cases hfirst
    | ok prepared =>
      cases prepared with
      | execute o context => exact ⟨o, context, rest, rfl⟩
      | _ => cases hfirst

namespace Sample

/-- service 10 gets the bucket `b` -/
def first : Request := reconcileRequest 100 10 "bucket-a" 1 1000 10

/-- service 11 has the name of service 10 and is to get a bucket of its own -/
def second : Request := reconcileRequest 101 11 "bucket-b" 1 1000 10

/-- the same, and what it finds -/
def watched (r : Request) (choices : List Choice) (w : World) :
    CallLog × Scene × HandlerM ApiError Response :=
  play (Scene.perform PgStore.reference) choices (handle AppState.reference r) ⟨w, []⟩

end Sample

/-- the first service is reconciled, and its answer is final -/
theorem final_answers_first :
    let w := Sample.watched Sample.first (Sample.choices 1 1 7 "b") ⟨.empty, .empty⟩
    ∃ result, w.2.2 = .done result ∧ (httpResponse result).status = 202 ∧
      Repeats PgStore.reference Garage.Documented AppState.reference Sample.first
        (httpResponse result) w.2.1.world.db := by
  intro w
  have hfacts : (Sample.first.prepareCall AppState.reference).toOption.any
        (fun call => decide (call.operation.idempotencyKey = 100)) = true ∧
      w.1.head?.any executes = true ∧
      (w.2.2.result?.any fun result => decide ((httpResponse result).status = 202)) = true ∧
      (w.2.1.world.db.receipts.lookup 100).any (fun row => decide (row.state ≠ .inProgress)) =
        true := by
    decide +kernel
  obtain ⟨hcall, hfirst, hresult, hstate⟩ := hfacts
  obtain ⟨call, hcall, hkey⟩ := (Option.any_eq_true _ _).mp hcall
  obtain ⟨result, hresult, hstatus⟩ := (Option.any_eq_true _ _).mp hresult
  obtain ⟨row, hrow, hstate⟩ := (Option.any_eq_true _ _).mp hstate
  have hcall := toOption_eq_some hcall
  have hstatus : (httpResponse result).status = 202 := of_decide_eq_true hstatus
  have hrun : ∀ o, Runs (Scene.Effect PgStore.reference Garage.Documented call.operation o)
      ⟨⟨.empty, .empty⟩, []⟩ (handle AppState.reference Sample.first) w.1 w.2.1 (.done result) := by
    intro o
    rw [← eq_done_of_result hresult]
    exact play_runs (Scene.perform_effect _ _ _) _ _ _
  obtain ⟨o, context, rest, hlog⟩ := executes_first hcall (hrun 0) hfirst
  have hrun := hrun o
  rw [hlog] at hrun
  refine ⟨result, eq_done_of_result hresult, hstatus, ?_⟩
  have hclear : w.2.1.Clear := by
    obtain ⟨-, hend⟩ := handle_ending hcall .empty rfl hrun
    cases hend with
    | final _ hclear => exact hclear
    | open_ hpending _ => exact hpending.clear
    | refused hunder _ _ =>
      -- the receipt is finished
      obtain ⟨row', hl, -, -, hs⟩ := hunder.held
      rw [of_decide_eq_true hkey] at hl
      obtain rfl := Option.some.inj (hl.symm.trans hrow)
      exact absurd hs (of_decide_eq_true hstate)
  exact ((final_answers hcall .empty rfl hrun).mpr hclear (hstatus ▸ by decide)).2

/-- the second service is refused when its operation completes, with its bucket made; the receipt
stays in progress, and the same request is answered otherwise a moment later -/
theorem final_answers_second :
    let w₁ := (Sample.played Sample.first (Sample.choices 1 1 7 "b") ⟨.empty, .empty⟩).2.1
    let w₂ := Sample.watched Sample.second (Sample.choices 2 10 8 "c") w₁
    let w₃ := Sample.played Sample.second (Sample.choices 3 20 8 "d") w₂.2.1.world
    ∃ call o context log result repeated,
      Reachable PgStore.reference w₁.db ∧
      Sample.second.prepareCall AppState.reference = .ok call ∧
      Runs (Scene.Effect PgStore.reference Garage.Documented call.operation o) ⟨w₁, []⟩
        (handle AppState.reference Sample.second)
        (⟨.store (.prepare call), Except.ok (.execute o context)⟩ :: log) w₂.2.1 (.done result) ∧
      (httpResponse result).status = 409 ∧
      (w₂.2.1.world.db.receipts.lookup call.operation.idempotencyKey).any
        (fun row => decide (row.state = .inProgress)) = true ∧
      Runs (World.Effect PgStore.reference Garage.Documented) w₂.2.1.world
        (handle AppState.reference Sample.second) w₃.1 w₃.2.1 (.done repeated) ∧
      (httpResponse repeated).status = 503 := by
  intro w₁ w₂ w₃
  have hfacts : (Sample.second.prepareCall AppState.reference).toOption.any
        (fun call => decide (call.operation.idempotencyKey = 101)) = true ∧
      w₂.1.head?.any executes = true ∧
      (w₂.2.2.result?.any fun result => decide ((httpResponse result).status = 409)) = true ∧
      (w₂.2.1.world.db.receipts.lookup 101).any (fun row => decide (row.state = .inProgress)) =
        true ∧
      (w₃.2.2.result?.any fun result => decide ((httpResponse result).status = 503)) = true := by
    decide +kernel
  obtain ⟨hcall, hfirst, hresult, hstate, hrepeated⟩ := hfacts
  obtain ⟨call, hcall, hkey⟩ := (Option.any_eq_true _ _).mp hcall
  obtain ⟨result, hresult, hstatus⟩ := (Option.any_eq_true _ _).mp hresult
  obtain ⟨repeated, hrepeated, hstatus'⟩ := (Option.any_eq_true _ _).mp hrepeated
  have hcall := toOption_eq_some hcall
  have hrun : ∀ o, Runs (Scene.Effect PgStore.reference Garage.Documented call.operation o)
      ⟨w₁, []⟩ (handle AppState.reference Sample.second) w₂.1 w₂.2.1 (.done result) := by
    intro o
    rw [← eq_done_of_result hresult]
    exact play_runs (Scene.perform_effect _ _ _) _ _ _
  obtain ⟨o, context, rest, hlog⟩ := executes_first hcall (hrun 0) hfirst
  have hreach : Reachable PgStore.reference w₁.db :=
    Reachable.empty.runs (w := ⟨.empty, .empty⟩) (play_runs (perform_effect _) _ _ _)
  refine ⟨call, o, context, rest, result, repeated, hreach, hcall, hlog ▸ hrun o,
    of_decide_eq_true hstatus, ?_, ?_, of_decide_eq_true hstatus'⟩
  · rw [of_decide_eq_true hkey]
    exact hstate
  · rw [← eq_done_of_result hrepeated]
    exact play_runs (perform_effect _) _ _ _

end Syouyu
