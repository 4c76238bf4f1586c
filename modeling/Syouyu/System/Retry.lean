import Syouyu.System.Alone
import Syouyu.System.Grants
import Syouyu.System.Script
import Syouyu.Api.Issue
import Syouyu.Api.Provision
import Syouyu.Store.Integrity
import Syouyu.Store.Retry

/-!
# Requests that are tried again

One request is executed again and again, one execution after the other.  Each may stop after any
call, or fail; a later one takes the operation over.

* `PrepareCall.event`       the audit event of a completed operation;
* `PrepareCall.Converged`   what Garage has to hold afterwards;
* `Phase`                   where the request stands: untouched, in progress, finished or refused;
* `handle_phases`           **an execution keeps to the phases, and succeeds only when finished**;
* `retries_converge`        **executions that end with success leave what one uninterrupted execution
                            leaves**.
-/

set_option linter.unusedSectionVars false

namespace Syouyu
open Lib Lib.Prog

/-! ## what is left in the end -/

def Database.alreadyRevoked (db : Database) (credentialId : Uuid) : Bool :=
  (db.credentials.lookup credentialId).any fun c => decide (c.status = .revoked)

/-- the principal context that a request names -/
def Request.principalContextId : Request → Option Uuid
  | .createCredential (.ok principal) _ _ => some principal.contextId
  | .revokeCredential (.ok principal) _ _ => some principal.contextId
  | _ => none

/-- the audit event of the completed operation -/
def PrepareCall.event (db₀ : Database) (principalContextId : Option Uuid) (v : Fresh) :
    PrepareCall → AuditEvent
  | .reconcile command =>
    auditForOperation command.operation none v.requestId "service_instance"
      (some command.operation.serviceInstanceId.toString) (.object
        [("bucket_name", .string command.spec.bucketName),
          ("generation", .ofI64 command.generation),
          ("quota_bytes", .ofU64 command.spec.quotaBytes),
          ("quota_objects", .ofU64 command.spec.quotaObjects)])
  | .delete command =>
    auditForOperation command.operation none v.requestId "service_instance"
      (some command.operation.serviceInstanceId.toString)
      (.object [("generation", .ofI64 command.generation)])
  | .createCredential command =>
    auditForOperation command.operation principalContextId v.requestId "credential"
      (some v.credential.id.toString) (.object
        [("access_key_id", .string v.credential.accessKeyId), ("name", .string command.name),
          ("permissions", command.permissions.toValue)])
  | .revokeCredential command =>
    auditForOperation command.operation principalContextId v.requestId "credential"
      (some command.credentialId.toString)
      (.object [("already_revoked", .bool (db₀.alreadyRevoked command.credentialId))])

/-- what Garage holds after the operation, begun in `w₀`, is completed -/
def PrepareCall.Converged (w₀ : World) (v : Fresh) (w : World) : PrepareCall → Prop
  /- at most one bucket was made for a new service; it is the recorded one, and has the quotas -/
  | .reconcile command => w₀.db.services.lookup command.operation.serviceInstanceId = none →
    (∃ row, w.db.buckets.lookup command.operation.serviceInstanceId = some row ∧
      row.physicalBucketId = some v.physicalBucketId) ∧
    (w.garage.bucketIds = w₀.garage.bucketIds ∨
      w.garage.bucketIds = v.physicalBucketId :: w₀.garage.bucketIds) ∧
    w.garage.HasQuotas v.physicalBucketId command.spec
  /- the active keys and the bucket of the service are gone -/
  | .delete command =>
    (∀ k ∈ w₀.db.activeGarageKeys command.operation.serviceInstanceId,
      w.garage.keys.lookup k = none) ∧
    ∃ row id, w₀.db.buckets.lookup command.operation.serviceInstanceId = some row ∧
      row.physicalBucketId = some id ∧ w.garage.buckets.lookup id = none
  /- one key has the name; it is the recorded one, and has the permissions -/
  | .createCredential command =>
    ∃ row id credential, w₀.db.buckets.lookup command.operation.serviceInstanceId = some row ∧
      row.physicalBucketId = some id ∧ w.db.credentials.lookup v.credential.id = some credential ∧
      Sole id (deterministicName command.operation.serviceInstanceId credential.id)
        credential.garageKeyId (.ofDomain command.permissions) w.garage
  /- the key is gone, if it was not before -/
  | .revokeCredential command =>
    ∃ credential, w₀.db.credentials.lookup command.credentialId = some credential ∧
      (credential.status = .revoked ∨ w.garage.keys.lookup credential.garageKeyId = none)

/-- **the operation is completed**: tables and Garage are as one execution leaves them -/
def Finished (w₀ : World) (call : PrepareCall) (principalContextId : Option Uuid) (w : World) :
    Prop :=
  ∃ v, call.writes v (call.event w₀.db principalContextId v) w₀.db =
      .ok ((), { w.db with receipts := w₀.db.receipts }) ∧ call.Converged w₀ v w

/-! ## where a request stands -/

/-- what attempts may leave in Garage -/
def PrepareCall.Leaves (g₀ g : Garage) : PrepareCall → Prop
  | .reconcile command => Provided g₀ command.spec.bucketName g
  | _ => True

structure Attempting (w₀ : World) (call : PrepareCall) (env₀ : CallEnv) (o : Uuid) (w : World) :
    Prop where
  ongoing : Ongoing call w₀.db env₀ o w.db
  leaves : call.Leaves w₀.garage w.garage

/-- a request that was first made in `w₀` -/
inductive Phase (store : PgStore) (w₀ : World) (call : PrepareCall)
    (principalContextId : Option Uuid) : World → Prop
  | untouched : Phase store w₀ call principalContextId w₀
  | attempting {env₀ : CallEnv} {o : Uuid} {w : World} : Attempting w₀ call env₀ o w →
      Phase store w₀ call principalContextId w
  | finished {w : World} {row : ReceiptRow} :
      w.db.receipts.lookup call.operation.idempotencyKey = some row → row.state ≠ .inProgress →
      Finished w₀ call principalContextId w → Phase store w₀ call principalContextId w
  | refused {w : World} {row : ReceiptRow} :
      w.db.receipts.lookup call.operation.idempotencyKey = some row → row.state ≠ .inProgress →
      (∀ stored, store.decodeReceipt row = .ok stored → 400 ≤ stored.status) →
      Phase store w₀ call principalContextId w

section
variable {store : PgStore} {state : AppState} {w₀ w w' : World} {call : PrepareCall}
  {ctx : Option Uuid} {env₀ : CallEnv} {o : Uuid}

theorem Attempting.same (h : Attempting w₀ call env₀ o w) (hdb : w'.db = w.db)
    (hgarage : w'.garage = w.garage) : Attempting w₀ call env₀ o w' :=
  ⟨hdb ▸ h.ongoing, hgarage ▸ h.leaves⟩

/-- an `Execute` answer begins or continues the operation -/
theorem Phase.executed {env : CallEnv} {context : call.Context}
    (h : Phase store w₀ call ctx w) (hlink : w₀.db.Linked) (hleaves : call.Leaves w₀.garage w₀.garage)
    (hnew : w₀.db.receipts.lookup call.operation.idempotencyKey = none)
    (hexec : call.exec store env w.db = .ok (.execute o context, w'.db))
    (hgarage : w'.garage = w.garage) : ∃ env₀, Attempting w₀ call env₀ o w' := by
  obtain ⟨-, hcase⟩ := prepare_eq_ok.mp hexec
  have hheld : ∀ {row : ReceiptRow}, w.db.receipts.lookup call.operation.idempotencyKey = some row →
      row.state = .inProgress := by
    intro row hl
    obtain ⟨-, row', hl', -, hsettled⟩ | ⟨_, _, _, hclaimed, -⟩ := hcase
    · exact absurd hsettled not_settled_execute
    · obtain ⟨hnone, -⟩ | ⟨row', hl', -, hstate, -⟩ := hclaimed
      · exact absurd_none_some hnone hl
      · obtain rfl := Option.some.inj (hl.symm.trans hl')
        exact hstate
  cases h with
  | untouched => exact ⟨env, ongoing_first hlink hnew hexec, hgarage ▸ hleaves⟩
  | @attempting env₀ _ _ hw => exact ⟨env₀, hw.ongoing.again hexec, hgarage ▸ hw.leaves⟩
  | finished hl hstate _ => exact absurd (hheld hl) hstate
  | refused hl hstate _ => exact absurd (hheld hl) hstate

/-- a response is replayed with success only when the operation is finished -/
theorem Phase.replayed {env : CallEnv} {stored : StoredHttpResponse}
    (h : Phase store w₀ call ctx w)
    (hnew : w₀.db.receipts.lookup call.operation.idempotencyKey = none)
    (hexec : call.exec store env w.db = .ok (.replay stored, w'.db)) (hok : stored.status < 400) :
    Finished w₀ call ctx w := by
  obtain ⟨-, ⟨-, row, hl, -, hsettled⟩ | ⟨_, _, _, -, -, hanswer⟩⟩ := prepare_eq_ok.mp hexec
  · obtain ⟨-, -, hanswer⟩ | ⟨hstate, stored', hdecode, hanswer⟩ := hsettled
    · cases hanswer
    · cases hanswer
      cases h with
      | untouched => exact absurd_none_some hnew hl
      | attempting hw =>
        obtain ⟨row', hl', -, -, hstate'⟩ := hw.ongoing.held
        obtain rfl := Option.some.inj (hl.symm.trans hl')
        exact absurd hstate' hstate
      | finished _ _ hfinished => exact hfinished
      | refused hl' _ hrefused =>
        obtain rfl := Option.some.inj (hl.symm.trans hl')
        exact absurd hok (UInt16.not_lt.mpr (hrefused stored hdecode))
  · cases hanswer

/-! ## the calls of an execution -/

/-- the effect of a call beside a documented Garage -/
abbrev World.DocumentedEffect (store : PgStore) : World → (e : Call) → e.Answer → World → Prop :=
  World.Effect store Garage.Documented

theorem renew_attempting (h : Attempting w₀ call env₀ o w) :
    (renewOperation call.operation o).Ensures (World.DocumentedEffect store)
      (Phase store w₀ call ctx)
      (fun w' _ => Attempting w₀ call env₀ o w' ∧ w'.garage = w.garage) (fun _ _ => True) w := by
  refine renewOperation_ensures fun answer w' he => ?_
  obtain ⟨⟨env, hstep⟩, hgarage⟩ := he
  cases answer with
  | error e => exact ⟨.attempting (h.same (step_error hstep) hgarage), trivial⟩
  | ok u =>
    have h' : Attempting w₀ call env₀ o w' := ⟨h.ongoing.renewed hstep, hgarage ▸ h.leaves⟩
    exact ⟨.attempting h', h', hgarage⟩

/-- what is a fact of the world is kept while only clock and ids are asked for -/
theorem still_attempting {Q : World → Prop} (hQ : ∀ w, Q w → Attempting w₀ call env₀ o w) :
    Still (World.DocumentedEffect store) (Phase store w₀ call ctx) Q := by
  rintro w q a _ ⟨-, rfl⟩ h
  exact ⟨.attempting (hQ _ h), h⟩

/-- a failure is recorded, or the operation stays in progress -/
theorem fail_phase {response : StoredHttpResponse} {event : AuditEvent}
    {answer : Except StoreError Unit} (h : Attempting w₀ call env₀ o w)
    (hstatus : 400 ≤ response.status)
    (he : World.DocumentedEffect store w
      (.store (.finish ⟨.fail call.operation, o, response, event⟩)) answer w') :
    Phase store w₀ call ctx w' := by
  obtain ⟨⟨env, hstep⟩, hgarage⟩ := he
  cases answer with
  | error e => exact .attempting (h.same (step_error hstep) hgarage)
  | ok u =>
    obtain ⟨row, hl, hstate, -, hdecode⟩ := finish_receipt (step_finished hstep)
    refine .refused hl hstate fun stored hstored => ?_
    obtain rfl := Except.ok.inj (hdecode.symm.trans hstored)
    exact hstatus

theorem backend_status (error : GarageBackendError) :
    400 ≤ (ApiError.ofBackend error).storedResponse.status := by
  cases error with
  | conflict message => exact (by decide : (400 : UInt16) ≤ 409)
  | _ => exact (by decide : (400 : UInt16) ≤ 502)

/-- a program on Garage, and the record of its failure -/
theorem garageOrFail_attempting {α : Type} {x : Execution} {details : Value}
    {program : GarageM GarageBackendError α} {G : Garage → α → Prop}
    (h : Attempting w₀ call env₀ o w) (hx : x.operation = call.operation ∧ x.operationId = o)
    (hprogram : program.Ensures Garage.Documented (call.Leaves w₀.garage)
      (fun g a => call.Leaves w₀.garage g ∧ G g a) (fun g _ => call.Leaves w₀.garage g) w.garage) :
    (garageOrFail x details program).Ensures (World.DocumentedEffect store)
      (Phase store w₀ call ctx) (fun w' a => Attempting w₀ call env₀ o w' ∧ G w'.garage a)
      (fun _ _ => True) w := by
  obtain ⟨hoperation, rfl⟩ := hx
  refine garageOrFail_ensures (Q := Attempting w₀ call env₀ x.operationId) ?_
    (still_attempting fun _ h => h) ?_
  · refine (onWorld_ensures id (fun _ _ _ _ he => he) hprogram).mono (fun w' hw => ?_)
      (fun w' a hw => ?_) fun w' _ hw => ?_
    · exact .attempting ⟨hw.1 ▸ h.ongoing, hw.2⟩
    · exact ⟨⟨hw.1 ▸ h.ongoing, hw.2.1⟩, hw.2.2⟩
    · exact ⟨hw.1 ▸ h.ongoing, hw.2⟩
  · intro w' error event answer w'' hw' _ he
    rw [hoperation] at he
    exact ⟨fail_phase hw' (backend_status error) he, fun _ => trivial⟩

/-- the operation is completed -/
theorem finish_phase {finish : FinishCall} {answer : Except StoreError Unit} {v : Fresh}
    (h : Attempting w₀ call v.prepared v.operationId w) (ho : finish.operationId = v.operationId)
    (hcomp : finish.completion = call.completion v)
    (hevent : finish.audit = call.event w₀.db ctx v)
    (hconverged : ∀ env, finish.exec store env w.db = .ok ((), w'.db) → w'.garage = w.garage →
      call.Converged w₀ { v with completed := env } w')
    (he : World.DocumentedEffect store w (.store (.finish finish)) answer w') :
    Phase store w₀ call ctx w' ∧ ∀ u, answer = .ok u → Finished w₀ call ctx w' := by
  obtain ⟨⟨env, hstep⟩, hgarage⟩ := he
  cases answer with
  | error e =>
    exact ⟨.attempting (h.same (step_error hstep) hgarage), fun _ h => by cases h⟩
  | ok u =>
    have hexec := step_finished hstep
    have hcomp' : finish.completion = call.completion { v with completed := env } := by
      rw [hcomp]
      cases call <;> rfl
    have hevent' : finish.audit = call.event w₀.db ctx { v with completed := env } := by
      rw [hevent]
      cases call <;> rfl
    have hfinished : Finished w₀ call ctx w' := by
      refine ⟨{ v with completed := env }, ?_, hconverged env hexec hgarage⟩
      rw [← hevent']
      exact Ongoing.completed (v := { v with completed := env }) h.ongoing hexec ho hcomp'
    obtain ⟨row, hl, hstate, -⟩ := finish_receipt hexec
    have hoperation : finish.operation = call.operation := by
      rw [FinishCall.operation, hcomp]
      cases call <;> rfl
    rw [hoperation] at hl
    exact ⟨.finished hl hstate hfinished, fun _ _ => hfinished⟩

/-- what a handler ends with -/
abbrev Succeeds (w₀ : World) (call : PrepareCall) (ctx : Option Uuid) (w : World)
    (response : Response) : Prop :=
  response.status < 400 → Finished w₀ call ctx w

theorem completing_finished {finish : FinishCall} {v : Fresh}
    (h : Attempting w₀ call v.prepared v.operationId w) (ho : finish.operationId = v.operationId)
    (hcomp : finish.completion = call.completion v)
    (hevent : finish.audit = call.event w₀.db ctx v)
    (hresponse : ∃ response, storedIntoResponse finish.response = .ok response)
    (hconverged : ∀ env w', finish.exec store env w.db = .ok ((), w'.db) → w'.garage = w.garage →
      call.Converged w₀ { v with completed := env } w') :
    (completing finish).Ensures (World.DocumentedEffect store) (Phase store w₀ call ctx)
      (Succeeds w₀ call ctx) (fun _ _ => True) w := by
  obtain ⟨response, hresponse⟩ := hresponse
  refine completing_ensures hresponse fun answer w' he => ?_
  obtain ⟨hphase, hfinished⟩ := finish_phase h ho hcomp hevent (fun env => hconverged env w') he
  refine ⟨hphase, ?_⟩
  cases answer with
  | error e => trivial
  | ok u => exact fun _ => hfinished u rfl

/-! ## reconcile -/

/-- the ids and times of an operation that names nothing in Garage -/
def Fresh.of (prepared : CallEnv) (operationId : Uuid) (requestId : String) : Fresh where
  prepared := prepared
  completed := prepared
  operationId := operationId
  physicalBucketId := ""
  credential := ⟨0, "", "", 0, "", ⟨false, false⟩⟩
  requestId := requestId

section
variable {command : ReconcileCommand}

/-- the bucket of a new service -/
def NewBucket (w₀ : World) (command : ReconcileCommand) (id : String) (g : Garage) : Prop :=
  w₀.db.services.lookup command.operation.serviceInstanceId = none →
    g.HasQuotas id command.spec ∧ g.Names command.spec.bucketName id

theorem reconciledBucketId_attempting {x : Execution} {context : ReconcileContext}
    (h : Attempting w₀ (.reconcile command) env₀ o w)
    (hx : x.operation = command.operation ∧ x.operationId = o)
    (hobserved : (PrepareCall.reconcile command).Observed w.db context) :
    (reconciledBucketId x command context).Ensures (World.DocumentedEffect store)
      (Phase store w₀ (.reconcile command) ctx)
      (fun w id => Attempting w₀ (.reconcile command) env₀ o w ∧ NewBucket w₀ command id w.garage)
      (fun _ _ => True) w := by
  -- a service that is not recorded was not applied before, and has no bucket
  have hfirst : w₀.db.services.lookup command.operation.serviceInstanceId = none →
      context.previouslyApplied = false ∧ context.bucket.physicalBucketId = none := by
    intro hnone
    rw [← h.ongoing.frame.1] at hnone
    obtain ⟨-, hid, happlied⟩ | ⟨service, _, hservice, -⟩ := hobserved.1
    · exact ⟨happlied, hid⟩
    · exact absurd_none_some hnone hservice
  unfold reconciledBucketId
  split
  · rename_i happlied
    split
    · exact ensures_pure ⟨h, fun hnone => absurd_true_false happlied (hfirst hnone).1⟩
    · exact ensures_throw trivial
  · rw [hx.1, hx.2]
    refine ensures_bind (renew_attempting h) fun w₁ _ h₁ => ?_
    replace h₁ := h₁.1
    refine ensures_bind (garageOrFail_attempting h₁ hx
      (G := fun g bucket => NewBucket w₀ command bucket.physicalBucketId g) ?_)
      fun w₂ bucket h₂ => ensures_pure h₂
    refine (reconcileBucket_ensures context.bucket.physicalBucketId h₁.leaves).mono (fun _ h => h)
      (fun g bucket hg => ⟨hg.1, fun hnone => ⟨hg.2.1, hg.2.2 (hfirst hnone).2⟩⟩) fun _ _ h => h

/-- at most one bucket was made, and it is the one of the alias -/
theorem Provided.named {g₀ g : Garage} {name id : String} (h : Provided g₀ name g)
    (hnames : g.Names name id) : g.bucketIds = g₀.bucketIds ∨ g.bucketIds = id :: g₀.bucketIds := by
  obtain hsame | ⟨b, hb, hids⟩ := h
  · exact .inl hsame
  · obtain ⟨b', hb', rfl⟩ := hnames
    obtain rfl := Option.some.inj (hb.symm.trans hb')
    exact .inr hids

theorem executeReconcile_phases {headers : Headers} {context : ReconcileContext}
    (h : Attempting w₀ (.reconcile command) env₀ o w)
    (hobserved : (PrepareCall.reconcile command).Observed w.db context) :
    (executeReconcile state headers command o context).Ensures (World.DocumentedEffect store)
      (Phase store w₀ (.reconcile command) ctx) (Succeeds w₀ (.reconcile command) ctx)
      (fun _ _ => True) w := by
  refine ensures_bind (reconciledBucketId_attempting h ⟨rfl, rfl⟩ hobserved) fun w₁ id h₁ => ?_
  refine ensures_bind (P := fun w _ => Attempting w₀ (.reconcile command) env₀ o w ∧
      NewBucket w₀ command id w.garage)
    (ensures_ofExcept (fun _ _ => h₁) fun _ _ => trivial) fun w₂ generation h₂ => ?_
  have hstill : Still (World.DocumentedEffect store) (Phase store w₀ (.reconcile command) ctx)
      (fun w => Attempting w₀ (.reconcile command) env₀ o w ∧ NewBucket w₀ command id w.garage) :=
    still_attempting fun _ h => h.1
  refine ensures_bind (utcNow_ensures hstill h₂) fun w₃ updatedAt h₃ => ?_
  refine ensures_bind (audit_ensures hstill h₃) fun w₄ event h₄ => ?_
  obtain ⟨⟨h₄, hbucket⟩, requestId, rfl⟩ := h₄
  refine completing_finished (v := { Fresh.of env₀ o requestId with physicalBucketId := id })
    h₄ rfl rfl rfl ?_ fun env w' hexec hgarage hnone => ?_
  · cases context.previouslyApplied <;> exact ⟨_, rfl⟩
  · obtain ⟨hquotas, hnames⟩ := hbucket hnone
    obtain ⟨-, hbuckets⟩ := reconcile_applied hexec rfl
    obtain ⟨⟨row, hrow, hid, -⟩, -⟩ := hbuckets.lookup
    rw [hgarage]
    exact ⟨⟨row, hrow, hid⟩, Provided.named h₄.leaves hnames, hquotas⟩

end

/-! ## delete and revoke -/

/-- the keys are gone -/
def Garage.Without (g : Garage) (keys : List String) : Prop := ∀ k ∈ keys, g.keys.lookup k = none

theorem Garage.without_nil (g : Garage) : g.Without [] := fun _ hk => absurd hk List.not_mem_nil

/-- a request that makes no key brings none back -/
theorem Garage.Change.without {g g' : Garage} {call : GarageCall} {keys : List String}
    (h : g.Change call g') (hcall : ∀ request, call ≠ .createKey request) (hg : g.Without keys) :
    g'.Without keys := by
  intro k hk
  refine Table.lookup_eq_none.mpr fun row hrow hkey => ?_
  obtain ⟨old, hold, hid, -⟩ | ⟨-, -, request, heq, -⟩ := h.key_origin hrow
  · exact Table.lookup_eq_none.mp (hg k hk) old hold (hid.trans hkey)
  · exact hcall request heq

/-- a delete of which only the answer matters that the object is gone -/
theorem delete_documented {g : Garage} (call : GarageCall) {checks : Except GarageError Unit}
    {L Q : Garage → Prop} (hchecks : ∀ e, checks = .error e → e.isNotFound = false)
    (hL : ∀ g, L g)
    (hgone : ∀ (a : call.Answer) g', g.Documented call a g' → GarageCall.removed a = true → Q g') :
    (GarageAdminClient.checked checks call).Ensures Garage.Documented L (fun g _ => L g ∧ Q g)
      (fun g e => if e.isNotFound then L g ∧ Q g else L g) g := by
  refine checked_ensures (fun e he => ?_) fun a g' hdoc => ⟨hL g', ?_⟩
  · rw [hchecks e he]
    exact hL g
  · cases a with
    | ok r => exact ⟨hL g', hgone _ g' hdoc rfl⟩
    | error e =>
      show if _ then _ else _
      split
      · rename_i hnot
        exact ⟨hL g', hgone _ g' hdoc hnot⟩
      · exact hL g'

theorem revokeCredential_without {g : Garage} {k : String} {keys : List String} {L : Garage → Prop}
    (hL : ∀ g, L g) (h : g.Without keys) :
    (GarageAdapter.revokeCredential k).Ensures Garage.Documented L
      (fun g _ => L g ∧ g.Without (keys ++ [k])) (fun g _ => L g) g := by
  refine gone_ensures (delete_documented (.deleteKey k) (fun e he => validateInput_error he) hL
    fun a g' hdoc hremoved k' hk' => ?_)
  obtain hk' | hk' := List.mem_append.mp hk'
  · exact hdoc.change.without (fun _ h => by cases h) h k' hk'
  · rw [List.mem_singleton.mp hk']
    exact hdoc.deleteKey hremoved

theorem deleteBucket_without {g : Garage} {b : String} {keys : List String} {L : Garage → Prop}
    (hL : ∀ g, L g) (h : g.Without keys) :
    (GarageAdapter.deleteBucket b).Ensures Garage.Documented L
      (fun g _ => L g ∧ g.Without keys ∧ g.buckets.lookup b = none) (fun g _ => L g) g :=
  gone_ensures (delete_documented (.deleteBucket b) (fun e he => validateInput_error he) hL
    fun a g' hdoc hremoved => ⟨hdoc.change.without (fun _ h => by cases h) h,
      hdoc.deleteBucket hremoved⟩)

section
variable {command : DeleteCommand}

theorem revokeKeys_attempting {x : Execution} {done rest : List String}
    (h : Attempting w₀ (.delete command) env₀ o w)
    (hx : x.operation = command.operation ∧ x.operationId = o) (hdone : w.garage.Without done) :
    (revokeKeys x command rest).Ensures (World.DocumentedEffect store)
      (Phase store w₀ (.delete command) ctx)
      (fun w _ => Attempting w₀ (.delete command) env₀ o w ∧ w.garage.Without (done ++ rest))
      (fun _ _ => True) w := by
  induction rest generalizing done w with
  | nil =>
    rw [List.append_nil]
    exact ensures_pure ⟨h, hdone⟩
  | cons k rest ih =>
    unfold revokeKeys
    rw [hx.1, hx.2]
    refine ensures_bind (renew_attempting h) fun w₁ _ h₁ => ?_
    refine ensures_bind (garageOrFail_attempting h₁.1 hx
      (revokeCredential_without (fun _ => trivial) (h₁.2 ▸ hdone))) fun w₂ _ h₂ => ?_
    have hrest := ih h₂.1 h₂.2
    rwa [List.append_assoc, List.singleton_append] at hrest

theorem usageForDeletion_attempting {x : Execution} {b : String}
    (h : Attempting w₀ (.delete command) env₀ o w)
    (hx : x.operation = command.operation ∧ x.operationId = o) :
    (usageForDeletion x command b).Ensures (World.DocumentedEffect store)
      (Phase store w₀ (.delete command) ctx)
      (fun w _ => Attempting w₀ (.delete command) env₀ o w) (fun _ _ => True) w := by
  have husage : (GarageAdapter.bucketUsage b).Ensures Garage.Documented (fun _ => True)
      (fun _ _ => True) (fun _ _ => True) w.garage := by
    refine ensures_bind (P := fun _ _ => True) (ensures_mapError ?_)
      fun g bucket _ => ensures_pure trivial
    refine @checked_ensures Garage Garage.Documented _ w.garage _ (.getBucketInfo b) _ _
      (fun _ _ => trivial) fun a g' _ => ⟨trivial, ?_⟩
    cases a <;> trivial
  have hworld := @onWorld_ensures World id (World.DocumentedEffect store) store _
    (fun _ _ _ _ he => he) _ _ _ _ _ _ w husage
  refine ensures_bind (P := fun w _ => Attempting w₀ (.delete command) env₀ o w)
    (ensures_attempt (onGarage_ensures (hworld.mono (fun w' hw => ?_) (fun w' _ hw => ?_)
      fun w' _ hw => ?_))) fun w₁ answer h₁ => ?_
  · exact .attempting ⟨hw.1 ▸ h.ongoing, trivial⟩
  · exact ⟨hw.1 ▸ h.ongoing, trivial⟩
  · exact ⟨hw.1 ▸ h.ongoing, trivial⟩
  · split
    · exact ensures_pure h₁
    · exact ensures_pure h₁
    · obtain ⟨hoperation, rfl⟩ := hx
      refine failWith_ensures (still_attempting fun _ h => h) (fun w₂ event answer w₃ h₂ _ he => ?_) h₁
      rw [hoperation] at he
      exact ⟨fail_phase h₂ (backend_status _) he, fun _ => trivial⟩

theorem requireEmpty_attempting {x : Execution} {usage : BucketUsage}
    (h : Attempting w₀ (.delete command) env₀ o w)
    (hx : x.operation = command.operation ∧ x.operationId = o) :
    (requireEmpty x command usage).Ensures (World.DocumentedEffect store)
      (Phase store w₀ (.delete command) ctx)
      (fun w _ => Attempting w₀ (.delete command) env₀ o w) (fun _ _ => True) w := by
  unfold requireEmpty
  split
  · exact ensures_pure h
  · obtain ⟨hoperation, rfl⟩ := hx
    refine ensures_bind (audit_ensures (still_attempting fun _ h => h) h) fun w₁ event h₁ => ?_
    refine ensures_bind (P := fun _ _ => True) ?_ fun w₂ _ _ => ensures_throw trivial
    refine @callStore_ensures World _ _ w₁ (.finish _) _ _ fun answer w₂ he => ?_
    rw [hoperation] at he
    refine ⟨fail_phase h₁.1 (by decide : (400 : UInt16) ≤ 409) he, ?_⟩
    cases answer <;> trivial

theorem executeDelete_phases {headers : Headers} {context : DeleteContext}
    (h : Attempting w₀ (.delete command) env₀ o w)
    (hobserved : (PrepareCall.delete command).Observed w.db context) :
    (executeDelete state headers command o context).Ensures (World.DocumentedEffect store)
      (Phase store w₀ (.delete command) ctx) (Succeeds w₀ (.delete command) ctx)
      (fun _ _ => True) w := by
  obtain ⟨-, row, -, -, -, -, -, hrow, -, hbucket, hkeys⟩ := hobserved
  obtain ⟨-, hbuckets, hcredentials⟩ := h.ongoing.frame
  unfold executeDelete
  split
  · exact ensures_throw trivial
  rename_i b hb
  refine ensures_bind (renew_attempting h) fun w₁ _ h₁ => ?_
  refine ensures_bind (usageForDeletion_attempting h₁.1 ⟨rfl, rfl⟩) fun w₂ usage h₂ => ?_
  refine ensures_bind (requireEmpty_attempting h₂ ⟨rfl, rfl⟩) fun w₃ _ h₃ => ?_
  refine ensures_bind (revokeKeys_attempting h₃ ⟨rfl, rfl⟩ (Garage.without_nil _)) fun w₄ _ h₄ => ?_
  refine ensures_bind (renew_attempting h₄.1) fun w₅ _ h₅ => ?_
  refine ensures_bind (garageOrFail_attempting h₅.1 ⟨rfl, rfl⟩
    (deleteBucket_without (fun _ => trivial) (h₅.2 ▸ h₄.2))) fun w₆ _ h₆ => ?_
  refine ensures_bind (P := fun w _ => Attempting w₀ (.delete command) env₀ o w ∧
      w.garage.Without ([] ++ context.garageKeyIds) ∧ w.garage.buckets.lookup b = none)
    (ensures_ofExcept (fun _ _ => h₆) fun _ _ => trivial) fun w₇ generation h₇ => ?_
  have hstill : Still (World.DocumentedEffect store) (Phase store w₀ (.delete command) ctx)
      (fun w => Attempting w₀ (.delete command) env₀ o w ∧
        w.garage.Without ([] ++ context.garageKeyIds) ∧ w.garage.buckets.lookup b = none) :=
    still_attempting fun _ h => h.1
  refine ensures_bind (utcNow_ensures hstill h₇) fun w₈ updatedAt h₈ => ?_
  refine ensures_bind (audit_ensures hstill h₈) fun w₉ event h₉ => ?_
  obtain ⟨⟨h₉, hgone, hempty⟩, requestId, rfl⟩ := h₉
  refine completing_finished (v := Fresh.of env₀ o requestId) h₉ rfl rfl rfl ⟨_, rfl⟩
    fun env w' hexec hgarage => ?_
  have hid : row.physicalBucketId = some b :=
    (congrArg BucketRecord.physicalBucketId hbucket).symm.trans hb
  rw [hkeys, List.nil_append, Database.activeGarageKeys, hcredentials] at hgone
  exact ⟨hgarage ▸ hgone, row, b, hbuckets ▸ hrow, hid, hgarage ▸ hempty⟩

end

section
variable {command : RevokeCredentialCommand}

theorem revokeKey_attempting {x : Execution} {context : RevokeCredentialContext}
    (h : Attempting w₀ (.revokeCredential command) env₀ o w)
    (hx : x.operation = command.operation ∧ x.operationId = o) :
    (revokeKey x context).Ensures (World.DocumentedEffect store)
      (Phase store w₀ (.revokeCredential command) ctx)
      (fun w _ => Attempting w₀ (.revokeCredential command) env₀ o w ∧
        (context.alreadyRevoked = true ∨ w.garage.Without [context.garageKeyId]))
      (fun _ _ => True) w := by
  unfold revokeKey
  split
  · rename_i hrevoked
    exact ensures_pure ⟨h, .inl hrevoked⟩
  · refine (garageOrFail_attempting h hx (revokeCredential_without (fun _ => trivial)
      (Garage.without_nil _))).mono (fun _ h => h) (fun _ _ h => ?_) fun _ _ h => h
    exact ⟨h.1, .inr h.2⟩

theorem executeRevoke_phases {headers : Headers} {principal : Principal}
    {context : RevokeCredentialContext} (h : Attempting w₀ (.revokeCredential command) env₀ o w)
    (hobserved : (PrepareCall.revokeCredential command).Observed w.db context)
    (hctx : ctx = some principal.contextId) :
    (executeRevoke headers principal command o context).Ensures (World.DocumentedEffect store)
      (Phase store w₀ (.revokeCredential command) ctx)
      (Succeeds w₀ (.revokeCredential command) ctx) (fun _ _ => True) w := by
  obtain ⟨-, credential, hcredential, -, rfl⟩ := hobserved
  rw [h.ongoing.frame.2.2] at hcredential
  subst hctx
  refine ensures_bind (renew_attempting h) fun w₁ _ h₁ => ?_
  refine ensures_bind (revokeKey_attempting h₁.1 ⟨rfl, rfl⟩) fun w₂ _ h₂ => ?_
  have hstill : Still (World.DocumentedEffect store)
      (Phase store w₀ (.revokeCredential command) (some principal.contextId))
      (fun w => Attempting w₀ (.revokeCredential command) env₀ o w ∧
        (decide (credential.status = .revoked) = true ∨
          w.garage.Without [credential.garageKeyId])) :=
    still_attempting fun _ h => h.1
  refine ensures_bind (audit_ensures hstill h₂) fun w₃ event h₃ => ?_
  obtain ⟨⟨h₃, hgone⟩, requestId, rfl⟩ := h₃
  refine completing_finished (v := Fresh.of env₀ o requestId) h₃ rfl rfl ?_ ⟨_, rfl⟩
    fun env w' hexec hgarage => ⟨credential, hcredential, ?_⟩
  · simp only [PrepareCall.event, Database.alreadyRevoked, hcredential, Option.any_some]
    rfl
  · rw [hgarage]
    exact hgone.imp of_decide_eq_true fun hwithout => hwithout _ List.mem_cons_self

end

/-! ## create -/

section
variable {command : CreateCredentialCommand}

/-- completion; a key whose lease is lost is deleted again -/
theorem completingCreate_finished {finish : FinishCall} {key : String} {v : Fresh}
    (h : Attempting w₀ (.createCredential command) v.prepared v.operationId w)
    (ho : finish.operationId = v.operationId)
    (hcomp : finish.completion = (PrepareCall.createCredential command).completion v)
    (hevent : finish.audit = (PrepareCall.createCredential command).event w₀.db ctx v)
    (hconverged : ∀ env w', finish.exec store env w.db = .ok ((), w'.db) → w'.garage = w.garage →
      (PrepareCall.createCredential command).Converged w₀ { v with completed := env } w') :
    (completingCreate finish key).Ensures (World.DocumentedEffect store)
      (Phase store w₀ (.createCredential command) ctx)
      (Succeeds w₀ (.createCredential command) ctx) (fun _ _ => True) w := by
  refine ensures_bind (P := fun w' (answer : Except StoreError Unit) =>
      (∀ u, answer = .ok u → Finished w₀ (.createCredential command) ctx w') ∧
      ∀ e, answer = .error e →
        Attempting w₀ (.createCredential command) v.prepared v.operationId w')
    (ensures_request (e := Call.store (.finish finish)) fun answer w' he => ?_) fun w' answer h' => ?_
  · obtain ⟨hphase, hfinished⟩ := finish_phase h ho hcomp hevent (fun env => hconverged env w') he
    refine ⟨hphase, hfinished, fun e herror => ?_⟩
    obtain ⟨⟨env, hstep⟩, hgarage⟩ := he
    rw [herror] at hstep
    exact h.same (step_error hstep) hgarage
  · obtain ⟨hfinished, hattempting⟩ := h'
    split
    · exact ensures_ofExcept (fun _ _ _ => hfinished () rfl) fun _ _ => trivial
    · have h' := hattempting _ rfl
      have hrevoke := @onWorld_ensures World id (World.DocumentedEffect store) store _
        (fun _ _ _ _ he => he) _ _ _ _ _ _ w' (revokeCredential_without (k := key)
          (L := fun _ => True) (fun _ => trivial) (Garage.without_nil w'.garage))
      refine ensures_bind (P := fun _ _ => True) (ensures_attempt (onGarage_ensures
        (hrevoke.mono (fun w'' hw => ?_) (fun _ _ _ => trivial) fun _ _ _ => trivial)))
        fun _ _ _ => ensures_throw trivial
      exact .attempting ⟨hw.1 ▸ h'.ongoing, trivial⟩
    · exact ensures_throw trivial

theorem executeCreate_phases {headers : Headers} {principal : Principal}
    {context : CreateCredentialContext} (h : Attempting w₀ (.createCredential command) env₀ o w)
    (hobserved : (PrepareCall.createCredential command).Observed w.db context)
    (hctx : ctx = some principal.contextId)
    (hs : principal.scope.serviceInstanceId = command.operation.serviceInstanceId) :
    (executeCreate state headers principal command o context).Ensures
      (World.DocumentedEffect store) (Phase store w₀ (.createCredential command) ctx)
      (Succeeds w₀ (.createCredential command) ctx) (fun _ _ => True) w := by
  obtain ⟨⟨service, row, hready, hbucket⟩, -⟩ := hobserved
  subst hctx
  unfold executeCreate
  split
  · exact ensures_throw trivial
  rename_i b hb
  have hid : row.physicalBucketId = some b :=
    (congrArg BucketRecord.physicalBucketId hbucket).symm.trans hb
  refine ensures_bind (renew_attempting h) fun w₁ _ h₁ => ?_
  refine ensures_bind (garageOrFail_attempting h₁.1 ⟨rfl, rfl⟩
    (createCredential_ensures.mono (fun _ _ => trivial) (fun _ _ h => ⟨trivial, h⟩)
      fun _ _ _ => trivial)) fun w₂ issued h₂ => ?_
  have hstill : Still (World.DocumentedEffect store)
      (Phase store w₀ (.createCredential command) (some principal.contextId))
      (fun w => Attempting w₀ (.createCredential command) env₀ o w ∧
        IssuedExactly b (deterministicName principal.scope.serviceInstanceId context.credentialId)
          command.permissions w.garage issued) :=
    still_attempting fun _ h => h.1
  refine ensures_bind (utcNow_ensures hstill h₂) fun w₃ createdAt h₃ => ?_
  refine ensures_bind (audit_ensures hstill h₃) fun w₄ event h₄ => ?_
  obtain ⟨⟨h₄, -, hsole⟩, requestId, rfl⟩ := h₄
  refine completingCreate_finished
    (v := { Fresh.of env₀ o requestId with credential := newCredential state command context issued })
    h₄ rfl rfl rfl fun env w' hexec hgarage => ?_
  obtain ⟨-, -, db₁, sealed, t, a, hbefore, -, -, -, -, hdb⟩ := finish_eq_ok.mp hexec
  obtain ⟨-, -, credentials, -, -, -, hinsert, rfl⟩ := applyCreateCredential_eq_ok.mp hbefore
  have hcredentials : w'.db.credentials = credentials := congrArg Database.credentials hdb
  refine ⟨row, b, PgStore.createdCredential env command (newCredential state command context issued),
    h.ongoing.frame.2.1 ▸ hready.2.2.2.2.2.1, hid, ?_, ?_⟩
  · rw [hcredentials]
    exact Table.lookup_inserted hinsert
  · rw [hgarage, ← hs]
    exact hsole

end

/-! ## the handler -/

/-- a stored response is answered with its status -/
theorem storedIntoResponse_status {stored : StoredHttpResponse} {response : Response}
    (h : storedIntoResponse stored = .ok response) : response.status = stored.status := by
  unfold storedIntoResponse at h
  split at h
  · rw [← Except.ok.inj h]
  · cases h

/-- a handler that is told to execute its operation -/
theorem execution_phases {r : Request} (hcall : r.prepareCall state = .ok call) :
    ∃ execute, handle state r = preparing call execute ∧
      ∀ {w env₀ o context}, Attempting w₀ call env₀ o w → call.Observed w.db context →
        (execute o context).Ensures (World.DocumentedEffect store)
          (Phase store w₀ call r.principalContextId) (Succeeds w₀ call r.principalContextId)
          (fun _ _ => True) w := by
  cases r with
  | reconcile claims s headers request =>
    obtain ⟨command, hcommand, rfl⟩ := except_map_eq_ok.mp hcall
    refine ⟨executeReconcile state headers command, ?_, executeReconcile_phases⟩
    simp only [handle, reconcileServiceInstance, hcommand]
    rfl
  | delete claims s query headers =>
    obtain ⟨command, hcommand, rfl⟩ := except_map_eq_ok.mp hcall
    refine ⟨executeDelete state headers command, ?_, executeDelete_phases⟩
    simp only [handle, deleteServiceInstance, hcommand]
    rfl
  | createCredential principal headers request =>
    obtain ⟨authorized, hauth, hcall⟩ := except_bind_eq_ok.mp hcall
    obtain ⟨command, hcommand, rfl⟩ := except_map_eq_ok.mp hcall
    obtain rfl := authorize_eq_ok hauth
    exact ⟨_, handle_create hauth hcommand, fun h hobserved =>
      executeCreate_phases h hobserved rfl (createCredentialCommand_service hcommand).symm⟩
  | revokeCredential principal credentialId headers =>
    obtain ⟨authorized, hauth, hcall⟩ := except_bind_eq_ok.mp hcall
    obtain ⟨command, hcommand, rfl⟩ := except_map_eq_ok.mp hcall
    obtain rfl := authorize_eq_ok hauth
    exact ⟨_, handle_revoke hauth hcommand, fun h hobserved =>
      executeRevoke_phases h hobserved rfl⟩

/-- **an execution keeps to the phases, and succeeds only when the operation is finished** -/
theorem handle_phases {r : Request} (hcall : r.prepareCall state = .ok call)
    (hlink : w₀.db.Linked)
    (hnew : w₀.db.receipts.lookup call.operation.idempotencyKey = none)
    (h : Phase store w₀ call r.principalContextId w) :
    (handle state r).Ensures (World.DocumentedEffect store)
      (Phase store w₀ call r.principalContextId) (Succeeds w₀ call r.principalContextId)
      (fun _ _ => True) w := by
  obtain ⟨execute, hhandle, hexecute⟩ := @execution_phases store state w₀ call r hcall
  have hleaves : call.Leaves w₀.garage w₀.garage := by
    cases call with
    | reconcile command => exact .inl rfl
    | _ => trivial
  rw [hhandle]
  refine preparing_ensures fun answer w' he => ?_
  obtain ⟨⟨env, hstep⟩, hgarage⟩ := he
  by_cases hanswer : ∃ o context, answer = .ok (.execute o context)
  · obtain ⟨o, context, rfl⟩ := hanswer
    have hexec : call.exec store env w.db = .ok (.execute o context, w'.db) := step_ok hstep
    obtain ⟨env₀, h'⟩ := h.executed hlink hleaves hnew hexec hgarage
    refine ⟨.attempting h', fun o' context' heq => ?_, (fun _ _ heq => by cases heq),
      fun hne => absurd rfl (hne o context)⟩
    obtain ⟨rfl, rfl⟩ := Prepare.execute.inj (Except.ok.inj heq)
    exact hexecute h' (prepare_observed hexec)
  · -- nothing was written
    have hdb : w'.db = w.db := by
      cases answer with
      | error e => exact step_error hstep
      | ok prepared =>
        exact prepare_unchanged (step_ok hstep) fun o context heq =>
          hanswer ⟨o, context, congrArg Except.ok heq⟩
    obtain rfl : w' = w := by
      cases w
      cases w'
      exact congrArg₂ World.mk hdb hgarage
    refine ⟨h, fun o context heq => absurd ⟨o, context, heq⟩ hanswer,
      fun stored response hreplay hresponse hok => ?_, fun _ _ => trivial⟩
    subst hreplay
    have hexec : call.exec store env w'.db = .ok (.replay stored, w'.db) := step_ok hstep
    exact h.replayed hnew hexec (storedIntoResponse_status hresponse ▸ hok)

/-- what executions of the request keep, one after the other -/
theorem attempts_phase {r : Request} {attempts : List Attempt}
    (hcall : r.prepareCall state = .ok call) (hlink : w₀.db.Linked)
    (hnew : w₀.db.receipts.lookup call.operation.idempotencyKey = none)
    (h : Run (fun w a w' => AttemptStep store Garage.Documented state w a w' ∧ a.request = r) w₀
      attempts w) : Phase store w₀ call r.principalContextId w := by
  refine h.invariant (Phase store w₀ call r.principalContextId) (fun w a w' hw hstep => ?_)
    .untouched
  obtain ⟨hstep, hr⟩ := hstep
  rw [AttemptStep, hr] at hstep
  exact ((handle_phases hcall hlink hnew hw).runs hw hstep).1

/-- **Retries converge.**  One request is executed again and again, one execution after the other,
beside a Garage as documented; every execution may stop after any call.  If the last one answers with
success, Garage holds what the request asks for and nothing is left of the other attempts, and the
tables other than the receipts are those of an execution that was not interrupted, up to the ids
and times that are drawn on the way. -/
theorem retries_converge {store : PgStore} {behaviour : GarageBehaviour} {state : AppState}
    {r : Request} {call : PrepareCall} {w w₁ w₂ : World} {attempts : List Attempt} {log : CallLog}
    {response : Response} (hdocumented : behaviour.Refines Garage.Documented)
    (hreach : Reachable store w.db) (hcall : r.prepareCall state = .ok call)
    (hnew : w.db.receipts.lookup call.operation.idempotencyKey = none)
    (hrun : Run (fun w a w' => AttemptStep store behaviour state w a w' ∧ a.request = r) w
      attempts w₁)
    (hlast : Runs (World.Effect store behaviour) w₁ (handle state r) log w₂
      (.done (.ok response))) (hok : response.status < 400) :
    (∃ v, call.Converged w v w₂ ∧ call.writes v (call.event w.db r.principalContextId v) w.db =
      .ok ((), { w₂.db with receipts := w.db.receipts })) ∧
    ∀ log' w' response', Runs (World.Effect store Garage.Documented) w (handle state r) log' w'
        (.done (.ok response')) → response'.status < 400 →
      ∃ v, call.writes v (call.event w.db r.principalContextId v) w.db =
        .ok ((), { w'.db with receipts := w.db.receipts }) := by
  have hlink := reachable_linked hreach
  have hend : ∀ {attempts w₁ log w₂ response},
      Run (fun w a w' => AttemptStep store Garage.Documented state w a w' ∧ a.request = r) w
        attempts w₁ →
      Runs (World.Effect store Garage.Documented) w₁ (handle state r) log w₂
        (.done (.ok response)) → response.status < 400 →
      Finished w call r.principalContextId w₂ := by
    intro attempts w₁ log w₂ response hrun hlast
    have hphase := attempts_phase hcall hlink hnew hrun
    exact ((handle_phases hcall hlink hnew hphase).runs hphase hlast).2 _ rfl
  constructor
  · have hstep : ∀ w a w', AttemptStep store behaviour state w a w' ∧ a.request = r →
        AttemptStep store Garage.Documented state w a w' ∧ a.request = r :=
      fun _ _ _ h => ⟨h.1.mono hdocumented, h.2⟩
    have hlast := hlast.mono fun _ _ _ _ => World.Effect.mono hdocumented
    obtain ⟨v, hwrites, hconverged⟩ := hend (hrun.mono hstep) hlast hok
    exact ⟨v, hconverged, hwrites⟩
  · intro log' w' response' hsingle hok'
    obtain ⟨v, hwrites, -⟩ := hend (.nil w) hsingle hok'
    exact ⟨v, hwrites⟩

end

/-- the creation of a credential stops once Garage has made the key `k`; the next execution deletes
it, makes `l` and succeeds -/
theorem retries_converge_create :
    let request := Sample.createRequest 101 10 "key"
    let w₁ := Sample.left request (Sample.choices 2 10 4 "k") Sample.reconciled
    let w₂ := Sample.left request (Sample.choices 200 20 9 "l") w₁
    (w₁.garage.keys.lookup "k").isSome = true ∧
    ∃ call v, request.prepareCall AppState.reference = .ok call ∧
      call.Converged Sample.reconciled v w₂ ∧
      call.writes v (call.event Sample.reconciled.db request.principalContextId v)
          Sample.reconciled.db =
        .ok ((), { w₂.db with receipts := Sample.reconciled.db.receipts }) := by
  intro request w₁ w₂
  have hfacts : (w₁.garage.keys.lookup "k").isSome = true ∧
      (request.prepareCall AppState.reference).toOption.any (fun call =>
        decide (call.operation.idempotencyKey = 101)) = true ∧
      (Sample.reconciled.db.receipts.lookup 101).isNone = true ∧
      (Sample.attempt request (Sample.choices 200 20 9 "l") w₁).response?.any
        (fun response => decide (response.status < 400)) = true := by
    decide +kernel
  obtain ⟨hkey, hcall, hnew, hresponse⟩ := hfacts
  obtain ⟨call, hcall, hcallKey⟩ := (Option.any_eq_true _ _).mp hcall
  obtain ⟨response, hresponse, hok⟩ := (Option.any_eq_true _ _).mp hresponse
  have hcall := toOption_eq_some hcall
  have hreach : Reachable PgStore.reference Sample.reconciled.db :=
    Reachable.empty.runs (Sample.attempt_step _ _ _)
  have hnew : Sample.reconciled.db.receipts.lookup call.operation.idempotencyKey = none := by
    rw [of_decide_eq_true hcallKey]
    exact Option.isNone_iff_eq_none.mp hnew
  have hlast : Runs _ _ _ _ w₂ (Sample.attempt request (Sample.choices 200 20 9 "l") w₁).rest :=
    Sample.attempt_step _ _ _
  rw [eq_done_ok_of_result hresponse] at hlast
  have hrun : Run (fun w a w' => AttemptStep PgStore.reference Garage.Documented
        AppState.reference w a w' ∧ a.request = request) Sample.reconciled [_] w₁ :=
    .single ⟨Sample.attempt_step _ _ _, rfl⟩
  obtain ⟨⟨v, hconverged, hwrites⟩, -⟩ :=
    retries_converge .refl hreach hcall hnew hrun hlast (of_decide_eq_true hok)
  exact ⟨hkey, call, v, hcall, hconverged, hwrites⟩

end Syouyu
