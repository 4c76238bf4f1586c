import Syouyu.System.World

/-!
# What the handlers may do

Whatever the store and Garage answer, a handler makes a call only after certain others: it completes
an operation it was told to execute, after Garage has done its part; it deletes keys it was told of,
keys it found under its own name, and keys it has made itself.

* `Completes`     what must precede a call that completes an operation;
* `Touches`       what must precede a call that changes something in Garage;
* `May`           both, and the calls that can be made any time;
* `handle_obeys`  **every handler keeps to it**, by one lemma for each part of a handler.
-/

set_option linter.unusedSectionVars false

namespace Syouyu
open Lib Lib.Prog

/-! ## the discipline -/

/-- the audit event is about the operation -/
structure AuditEvent.Reports (event : AuditEvent) (operation : OperationRequest)
    (outcome : String) : Prop where
  service : event.serviceInstanceId = operation.serviceInstanceId
  action : event.action = operation.action
  outcome : event.outcome = outcome

/-- the service a request with good credentials is about -/
def Request.serviceInstanceId? : Request → Option Uuid
  | .reconcile _ serviceInstanceId _ _ => some serviceInstanceId
  | .delete _ serviceInstanceId _ _ => some serviceInstanceId
  | .createCredential (.ok principal) _ _ => some principal.scope.serviceInstanceId
  | .revokeCredential (.ok principal) _ _ => some principal.scope.serviceInstanceId
  | _ => none

/-- Garage has answered with the bucket that a reconcile is to change -/
def Found (log : CallLog) (existing : Option String) (spec : SyouyuSpec) (bucket : Bucket) : Prop :=
  match existing with
  | some bucketId => Answered log (.getBucketInfo bucketId) bucket
  | none => Answered log (.getBucketInfoByAlias spec.bucketName) bucket ∨
      Answered log (.createBucket spec.bucketName) bucket

def SyouyuSpec.quotas (spec : SyouyuSpec) : BucketQuotas :=
  .limited spec.quotaBytes spec.quotaObjects

/-- the bucket id a reconcile may record: the one on record if the generation was applied before,
else that of the bucket whose quotas were set -/
def Reconciled (log : CallLog) (command : ReconcileCommand) (context : ReconcileContext)
    (physicalBucketId : String) : Prop :=
  context.previouslyApplied = true ∧ context.bucket.physicalBucketId = some physicalBucketId ∨
  context.previouslyApplied = false ∧ ∃ found bucket,
    Found log context.bucket.physicalBucketId command.spec found ∧
    Answered log (.updateBucket found.id command.spec.quotas) bucket ∧
    bucket.id = physicalBucketId

/-- the request for the key of a credential -/
def keyRequest (command : CreateCredentialCommand) (context : CreateCredentialContext) :
    CreateKeyRequest :=
  .new (deterministicName command.operation.serviceInstanceId context.credentialId) none

/-- the key was made for the credential and has its permissions -/
structure Issued (log : CallLog) (command : CreateCredentialCommand)
    (context : CreateCredentialContext) (garageKeyId : String) : Prop where
  created : ∃ key, Answered log (.createKey (keyRequest command context)) key ∧
    key.accessKeyId = garageKeyId
  granted : ∃ physicalBucketId, context.bucket.physicalBucketId = some physicalBucketId ∧
    (∃ bucket, Answered log (.denyBucketKey physicalBucketId garageKeyId .all) bucket) ∧
    ((BucketKeyPermissions.ofDomain command.permissions).isEmpty = true ∨ ∃ bucket, Answered log
      (.allowBucketKey physicalBucketId garageKeyId (.ofDomain command.permissions)) bucket)

/-- what must precede a call that completes an operation -/
inductive Completes (log : CallLog) : FinishCall → Prop
  | reconcile {command : ReconcileCommand} {o : Uuid} {context : ReconcileContext}
      {physicalBucketId : String} {response : StoredHttpResponse} {event : AuditEvent} :
      Granted log (.reconcile command) o context →
      Reconciled log command context physicalBucketId →
      response.failed = false → event.Reports command.operation "allowed" →
      Completes log ⟨.reconcile command physicalBucketId, o, response, event⟩
  | delete {command : DeleteCommand} {o : Uuid} {context : DeleteContext}
      {physicalBucketId : String} {response : StoredHttpResponse} {event : AuditEvent} :
      Granted log (.delete command) o context →
      context.bucket.physicalBucketId = some physicalBucketId →
      (∀ k ∈ context.garageKeyIds, Removed log (.deleteKey k)) →
      Removed log (.deleteBucket physicalBucketId) →
      response.failed = false → event.Reports command.operation "allowed" →
      Completes log ⟨.delete command, o, response, event⟩
  | create {command : CreateCredentialCommand} {o : Uuid} {context : CreateCredentialContext}
      {credential : NewCredential} {response : StoredHttpResponse} {event : AuditEvent} :
      Granted log (.createCredential command) o context →
      credential.id = context.credentialId → Issued log command context credential.garageKeyId →
      response.failed = false → event.Reports command.operation "allowed" →
      Completes log ⟨.createCredential command credential, o, response, event⟩
  | revoke {command : RevokeCredentialCommand} {o : Uuid} {context : RevokeCredentialContext}
      {response : StoredHttpResponse} {event : AuditEvent} :
      Granted log (.revokeCredential command) o context →
      (context.alreadyRevoked = true ∨ Removed log (.deleteKey context.garageKeyId)) →
      response.failed = false → event.Reports command.operation "allowed" →
      Completes log ⟨.revokeCredential command, o, response, event⟩
  | fail {call : PrepareCall} {o : Uuid} {context : call.Context} {response : StoredHttpResponse}
      {event : AuditEvent} :
      Granted log call o context → response.failed = true →
      event.Reports call.operation "failed" →
      Completes log ⟨.fail call.operation, o, response, event⟩

/-- what must precede a call that changes something in Garage, or lists its keys -/
inductive Touches (r : Request) (log : CallLog) : GarageCall → Prop
  | createBucket {command : ReconcileCommand} {o : Uuid} {context : ReconcileContext} :
      Granted log (.reconcile command) o context → context.bucket.physicalBucketId = none →
      Touches r log (.createBucket command.spec.bucketName)
  | updateBucket {command : ReconcileCommand} {o : Uuid} {context : ReconcileContext}
      {found : Bucket} :
      Granted log (.reconcile command) o context → context.previouslyApplied = false →
      Found log context.bucket.physicalBucketId command.spec found →
      Touches r log (.updateBucket found.id command.spec.quotas)
  | deleteBucket {command : DeleteCommand} {o : Uuid} {context : DeleteContext}
      {physicalBucketId : String} :
      Granted log (.delete command) o context →
      context.bucket.physicalBucketId = some physicalBucketId →
      Touches r log (.deleteBucket physicalBucketId)
  | listKeys {command : CreateCredentialCommand} {o : Uuid} {context : CreateCredentialContext} :
      Granted log (.createCredential command) o context →
      (∀ request answer, ⟨.garage (.createKey request), answer⟩ ∉ log) → Touches r log .listKeys
  | createKey {command : CreateCredentialCommand} {o : Uuid} {context : CreateCredentialContext} :
      Granted log (.createCredential command) o context →
      r.serviceInstanceId? = some command.operation.serviceInstanceId →
      Touches r log (.createKey (keyRequest command context))
  | deny {command : CreateCredentialCommand} {o : Uuid} {context : CreateCredentialContext}
      {physicalBucketId : String} {key : AccessKey} :
      Granted log (.createCredential command) o context →
      context.bucket.physicalBucketId = some physicalBucketId →
      Answered log (.createKey (keyRequest command context)) key →
      Touches r log (.denyBucketKey physicalBucketId key.accessKeyId .all)
  | allow {command : CreateCredentialCommand} {o : Uuid} {context : CreateCredentialContext}
      {physicalBucketId : String} {key : AccessKey} :
      Granted log (.createCredential command) o context →
      context.bucket.physicalBucketId = some physicalBucketId →
      Answered log (.createKey (keyRequest command context)) key →
      Touches r log
        (.allowBucketKey physicalBucketId key.accessKeyId (.ofDomain command.permissions))
  | deleteListed {command : CreateCredentialCommand} {o : Uuid}
      {context : CreateCredentialContext} {keys : List AccessKeySummary} {key : AccessKeySummary} :
      Granted log (.createCredential command) o context → Answered log .listKeys keys →
      key ∈ keys → key.name = (keyRequest command context).name →
      Touches r log (.deleteKey key.id)
  | deleteOwn {command : CreateCredentialCommand} {o : Uuid} {context : CreateCredentialContext}
      {key : AccessKey} :
      Granted log (.createCredential command) o context →
      Answered log (.createKey (keyRequest command context)) key →
      Touches r log (.deleteKey key.accessKeyId)
  | deleteOfService {command : DeleteCommand} {o : Uuid} {context : DeleteContext} {k : String} :
      Granted log (.delete command) o context → k ∈ context.garageKeyIds →
      Touches r log (.deleteKey k)
  | deleteRevoked {command : RevokeCredentialCommand} {o : Uuid}
      {context : RevokeCredentialContext} :
      Granted log (.revokeCredential command) o context → context.alreadyRevoked = false →
      Touches r log (.deleteKey context.garageKeyId)

/-- the calls a handler may make after its log -/
inductive May (r : Request) (log : CallLog) : Call → Prop
  | prepare {call : PrepareCall} : May r log (.store (.prepare call))
  | renew {call : PrepareCall} {o : Uuid} {context : call.Context} :
      Granted log call o context → May r log (.store (.renewOperation call.operation o))
  | finish {call : FinishCall} : Completes log call → May r log (.store (.finish call))
  | getBucketInfo {bucketId : String} : May r log (.garage (.getBucketInfo bucketId))
  | getBucketInfoByAlias {name : String} : May r log (.garage (.getBucketInfoByAlias name))
  | touch {call : GarageCall} : Touches r log call → May r log (.garage call)
  | utcNow : May r log (.query .utcNow)
  | newUuid : May r log (.query .newUuid)

section
variable {log : CallLog} {call : FinishCall}

theorem Completes.reconciled (h : Completes log call) {command : ReconcileCommand}
    {physicalBucketId : String} (hcomp : call.completion = .reconcile command physicalBucketId) :
    ∃ context : ReconcileContext, Granted log (.reconcile command) call.operationId context ∧
      Reconciled log command context physicalBucketId := by
  cases h with
  | reconcile hg hr _ _ =>
    cases hcomp
    exact ⟨_, hg, hr⟩
  | _ => cases hcomp

theorem Completes.deleted (h : Completes log call) {command : DeleteCommand}
    (hcomp : call.completion = .delete command) :
    ∃ (context : DeleteContext) (physicalBucketId : String),
      Granted log (.delete command) call.operationId context ∧
      context.bucket.physicalBucketId = some physicalBucketId ∧
      (∀ k ∈ context.garageKeyIds, Removed log (.deleteKey k)) ∧
      Removed log (.deleteBucket physicalBucketId) := by
  cases h with
  | delete hg hpid hkeys hbucket _ _ =>
    cases hcomp
    exact ⟨_, _, hg, hpid, hkeys, hbucket⟩
  | _ => cases hcomp

theorem Completes.created (h : Completes log call) {command : CreateCredentialCommand}
    {credential : NewCredential} (hcomp : call.completion = .createCredential command credential) :
    ∃ context : CreateCredentialContext,
      Granted log (.createCredential command) call.operationId context ∧
      credential.id = context.credentialId ∧
      Issued log command context credential.garageKeyId := by
  cases h with
  | create hg hid hissued _ _ =>
    cases hcomp
    exact ⟨_, hg, hid, hissued⟩
  | _ => cases hcomp

theorem Completes.revoked (h : Completes log call) {command : RevokeCredentialCommand}
    (hcomp : call.completion = .revokeCredential command) :
    ∃ context : RevokeCredentialContext,
      Granted log (.revokeCredential command) call.operationId context ∧
      (context.alreadyRevoked = true ∨ Removed log (.deleteKey context.garageKeyId)) := by
  cases h with
  | revoke hg hr _ _ =>
    cases hcomp
    exact ⟨_, hg, hr⟩
  | _ => cases hcomp

/-- whatever is completed was granted -/
theorem Completes.granted (h : Completes log call) :
    ∃ (prepare : PrepareCall) (context : prepare.Context),
      Granted log prepare call.operationId context ∧ prepare.operation = call.operation := by
  cases h with
  | reconcile hg _ _ _ => exact ⟨_, _, hg, rfl⟩
  | delete hg _ _ _ _ _ => exact ⟨_, _, hg, rfl⟩
  | create hg _ _ _ _ => exact ⟨_, _, hg, rfl⟩
  | revoke hg _ _ _ => exact ⟨_, _, hg, rfl⟩
  | fail hg _ _ => exact ⟨_, _, hg, rfl⟩

/-- the audit event says how the operation ended -/
theorem Completes.reports (h : Completes log call) :
    call.audit.Reports call.operation (if call.response.failed then "failed" else "allowed") := by
  cases h with
  | reconcile _ _ hf hr => exact hf ▸ hr
  | delete _ _ _ _ hf hr => exact hf ▸ hr
  | create _ _ _ hf hr => exact hf ▸ hr
  | revoke _ _ hf hr => exact hf ▸ hr
  | fail _ hf hr => exact (if_pos hf).symm ▸ hr

theorem May.completes {r : Request} (h : May r log (.store (.finish call))) :
    Completes log call := by
  cases h with
  | finish h => exact h

end

theorem Found.mono {log log' : CallLog} {existing : Option String} {spec : SyouyuSpec}
    {bucket : Bucket} (h : Found log existing spec bucket) (hsub : log ⊆ log') :
    Found log' existing spec bucket := by
  cases existing with
  | some bucketId => exact Answered.mono h hsub
  | none => exact h.imp (·.mono hsub) (·.mono hsub)

/-! ## programs on Garage -/

section
variable {ε ε' α β : Type} {may : CallLog → Call → Prop} {log : CallLog} {P : CallLog → α → Prop}

theorem garage_bind {Q : CallLog → β → Prop} {p : GarageM ε α} {f : α → GarageM ε β}
    (h : (onGarage p).Yields may P log)
    (hf : ∀ l a, log <+: l → P l a → (onGarage (f a)).Yields may Q l) :
    (onGarage (p >>= f)).Yields may Q log := by
  have hinj : onGarage (p >>= f) = onGarage p >>= fun a => onGarage (f a) :=
    @inject_bind GarageCall Call Call.Answer ε α β Call.garage p f
  rw [hinj]
  exact yields_bind h hf

theorem garage_mapError {g : ε' → ε} {p : GarageM ε' α} (h : (onGarage p).Yields may P log) :
    (onGarage (p.mapError g)).Yields may P log := by
  have hinj : onGarage (p.mapError g) = (onGarage p).mapError g :=
    @inject_mapError GarageCall Call Call.Answer ε ε' α Call.garage g p
  rw [hinj]
  exact yields_mapError h

theorem garage_attempt {Q : CallLog → Except ε' α → Prop} {p : GarageM ε' α}
    (h : (onGarage p).Obeys may Q log) :
    (onGarage (p.attempt : GarageM ε (Except ε' α))).Yields may Q log := by
  have hinj : onGarage (p.attempt : GarageM ε (Except ε' α)) = (onGarage p).attempt :=
    @inject_attempt GarageCall Call Call.Answer ε ε' α Call.garage p
  rw [hinj]
  exact yields_attempt h

/-! ## parts of handlers, whatever they may ask for -/

/-- a call of the store that succeeds is the last entry -/
theorem callStore_yields {call : StoreCall} (hmay : may log (.store call)) :
    (callStore call).Yields may (fun l a => l = log ++ [⟨.store call, Except.ok a⟩]) log := by
  refine yields_bind (P := fun l a => l = log ++ [⟨.store call, a⟩])
    (yields_request hmay fun _ => rfl) fun l answer _ hl => ?_
  refine yields_ofExcept fun a ha => ?_
  rw [hl, ha]

theorem callStore_recorded {call : StoreCall} (hmay : may log (.store call)) :
    (callStore call).Yields may (fun l a => ⟨.store call, Except.ok a⟩ ∈ l) log :=
  (callStore_yields hmay).mono fun _ _ _ hl => hl ▸ List.mem_append_right _ List.mem_cons_self

theorem renewOperation_yields {operation : OperationRequest} {o : Uuid}
    (hmay : may log (.store (.renewOperation operation o))) :
    (renewOperation operation o).Yields may
      (fun l a => l = log ++ [⟨.store (.renewOperation operation o), Except.ok a⟩]) log :=
  callStore_yields hmay

theorem utcNow_yields (hmay : may log (.query .utcNow)) :
    utcNow.Yields may (fun _ _ => True) log :=
  yields_request hmay fun _ => trivial

theorem requestId_yields {headers : Headers} (hmay : may log (.query .newUuid)) :
    (requestId headers).Yields may (fun _ _ => True) log := by
  unfold requestId
  split
  · exact yields_pure trivial
  · exact yields_bind (P := fun _ _ => True) (yields_request hmay fun _ => trivial)
      fun _ _ _ _ => yields_pure trivial

theorem audit_yields {headers : Headers} {operation : OperationRequest} {resource : Resource}
    {details : Value} (hmay : may log (.query .newUuid)) :
    (audit headers operation resource details).Yields may
      (fun _ event => event.Reports operation "allowed") log :=
  yields_bind (requestId_yields hmay) fun _ _ _ _ => yields_pure ⟨rfl, rfl, rfl⟩

theorem failWith_yields {x : Execution} {details : Value} {error : GarageBackendError}
    (hmay : may log (.query .newUuid))
    (hfail : ∀ l event, log <+: l → event.Reports x.operation "failed" →
      may l (.store (.finish
        ⟨.fail x.operation, x.operationId, (ApiError.ofBackend error).storedResponse, event⟩))) :
    (failWith x details error : HandlerM ApiError α).Yields may P log := by
  refine yields_bind (audit_yields hmay) fun l event hl hevent => ?_
  refine yields_bind (P := fun _ _ => True) ?_ fun _ _ _ _ => yields_throw
  have hfailed : ({ event with outcome := "failed" } : AuditEvent).Reports x.operation "failed" :=
    ⟨hevent.service, hevent.action, rfl⟩
  refine yields_bind (P := fun _ _ => True)
    (yields_request (hfail l _ hl hfailed) fun _ => trivial) fun l' answer _ _ => ?_
  cases answer <;> exact yields_pure trivial

/-- **a failure of Garage ends in the receipt, a success goes on** -/
theorem garageOrFail_yields {x : Execution} {details : Value}
    {program : GarageM GarageBackendError α} (h : (onGarage program).Yields may P log)
    (hfail : ∀ l error, log <+: l →
      (failWith x details error : HandlerM ApiError α).Yields may P l) :
    (garageOrFail x details program).Yields may P log := by
  refine yields_bind (yields_attempt h.obeys) fun l answer hl hanswer => ?_
  cases answer with
  | ok a => exact yields_pure (hanswer a rfl)
  | error e => exact hfail l e hl

end

section
variable {r : Request} {log : CallLog}

/-- a request of the client: refused by its own checks, or made and answered -/
theorem checked_obeys {checks : Except GarageError Unit} {call : GarageCall}
    (hmay : May r log (.garage call)) :
    (onGarage (GarageAdminClient.checked checks call)).Obeys (May r)
      (fun l answer => (∃ e, checks = .error e ∧ answer = .error e) ∨
        ⟨.garage call, answer⟩ ∈ l) log := by
  cases checks with
  | error e => exact .inl ⟨e, rfl, rfl⟩
  | ok u =>
    refine ⟨hmay, fun answer => ?_⟩
    cases answer <;> exact .inr (List.mem_append_right _ List.mem_cons_self)

theorem checked_yields {checks : Except GarageError Unit} {call : GarageCall}
    (hmay : May r log (.garage call)) :
    (onGarage (GarageAdminClient.checked checks call)).Yields (May r)
      (fun l result => Answered l call result) log := by
  refine ⟨(checked_obeys hmay).mono fun l answer h result hok => ?_⟩
  subst hok
  rcases h with ⟨e, -, he⟩ | h
  · cases he
  · exact h

theorem execute_yields {call : GarageCall} (hmay : May r log (.garage call)) :
    (onGarage (GarageAdminClient.execute call)).Yields (May r)
      (fun l result => Answered l call result) log :=
  @checked_yields r log (.ok ()) call hmay

/-- a client request that is checked by its input alone -/
theorem removing_obeys {field value : String} {call : GarageCall}
    (hmay : May r log (.garage call)) :
    (onGarage (GarageAdminClient.checked (validateInput field value) call)).Obeys (May r)
      (fun l answer => GarageCall.removed answer = true → Removed l call) log := by
  refine (checked_obeys hmay).mono fun l answer h hremoved => ?_
  rcases h with ⟨e, he, rfl⟩ | h
  · exact absurd ((validateInput_error he).symm.trans hremoved) (by decide)
  · exact ⟨answer, hremoved, h⟩

/-- **a delete that succeeds, or finds nothing, has reported its object gone** -/
theorem gone_yields {p : GarageM GarageError Unit} {call : GarageCall}
    (h : (onGarage p).Obeys (May r)
      (fun l answer => GarageCall.removed answer = true → Removed l call) log) :
    (onGarage (GarageAdapter.gone p)).Yields (May r) (fun l _ => Removed l call) log := by
  refine garage_bind (garage_attempt h) fun l answer _ hanswer => ?_
  cases answer with
  | ok u => exact yields_pure (hanswer rfl)
  | error e =>
    by_cases he : e.isNotFound = true
    · simp only [he, if_true]
      exact yields_pure (hanswer he)
    · simp only [he]
      exact yields_throw

theorem revokeCredential_yields {k : String} (hmay : May r log (.garage (.deleteKey k))) :
    (onGarage (GarageAdapter.revokeCredential k)).Yields (May r)
      (fun l _ => Removed l (.deleteKey k)) log :=
  gone_yields (removing_obeys hmay)

theorem deleteBucket_yields {id : String} (hmay : May r log (.garage (.deleteBucket id))) :
    (onGarage (GarageAdapter.deleteBucket id)).Yields (May r)
      (fun l _ => Removed l (.deleteBucket id)) log :=
  gone_yields (removing_obeys hmay)

/-- the bucket of a reconcile -/
theorem findBucket_yields {existing : Option String} {spec : SyouyuSpec}
    (hcreate : existing = none → ∀ l, log <+: l → May r l (.garage (.createBucket spec.bucketName))) :
    (onGarage (GarageAdapter.findBucket existing spec)).Yields (May r)
      (fun l bucket => Found l existing spec bucket) log := by
  cases existing with
  | some bucketId =>
    refine garage_bind (garage_mapError (checked_yields .getBucketInfo)) fun l bucket _ hb => ?_
    split
    · exact yields_pure hb
    · exact yields_throw
  | none =>
    refine garage_bind (garage_attempt (checked_yields .getBucketInfoByAlias).obeys)
      fun l answer hl hanswer => ?_
    cases answer with
    | ok bucket => exact yields_pure (.inl (hanswer bucket rfl))
    | error e =>
      by_cases he : e.isNotFound = true
      · simp only [he, if_true]
        exact garage_mapError ((checked_yields (hcreate rfl l hl)).mono fun _ _ _ hb => .inr hb)
      · simp only [he]
        exact yields_throw

/-- the bucket was found and its quotas were set -/
theorem reconcileBucket_yields {existing : Option String} {spec : SyouyuSpec}
    (hcreate : existing = none → ∀ l, log <+: l → May r l (.garage (.createBucket spec.bucketName)))
    (hupdate : ∀ l found, log <+: l → Found l existing spec found →
      May r l (.garage (.updateBucket found.id spec.quotas))) :
    (onGarage (GarageAdapter.reconcileBucket existing spec)).Yields (May r)
      (fun l reconciled => ∃ found bucket, Found l existing spec found ∧
        Answered l (.updateBucket found.id spec.quotas) bucket ∧
        bucket.id = reconciled.physicalBucketId) log := by
  refine garage_bind (findBucket_yields hcreate) fun l found hl hfound => ?_
  refine garage_bind (garage_mapError (checked_yields (hupdate l found hl hfound)))
    fun l' bucket hl' hb => ?_
  exact yields_pure ⟨found, bucket, hfound.mono hl'.subset, hb, rfl⟩

theorem bucketUsage_yields {physicalBucketId : String} :
    (onGarage (GarageAdapter.bucketUsage physicalBucketId)).Yields (May r) (fun _ _ => True) log :=
  garage_bind (garage_mapError (checked_yields .getBucketInfo)) fun _ _ _ _ => yields_pure trivial

/-- the loop deletes nothing but the listed keys -/
theorem deleteKeys_yields {ids : List String}
    (hmay : ∀ k ∈ ids, ∀ l, log <+: l → May r l (.garage (.deleteKey k))) :
    (onGarage (GarageAdapter.deleteKeys ids)).Yields (May r) (fun _ _ => True) log := by
  induction ids generalizing log with
  | nil => exact yields_pure trivial
  | cons k ids ih =>
    refine garage_bind
      (gone_yields (removing_obeys (hmay k List.mem_cons_self log (List.prefix_refl _))))
      fun l _ hl _ => ?_
    exact ih fun k' hk' l' hl' => hmay k' (List.mem_cons_of_mem _ hk') l' (hl.trans hl')

theorem abandonKey_yields {α : Type} {k : String} {error : GarageBackendError}
    {P : CallLog → α → Prop} (hmay : May r log (.garage (.deleteKey k))) :
    (onGarage (GarageAdapter.abandonKey k error : GarageM GarageBackendError α)).Yields
      (May r) P log :=
  garage_bind (garage_attempt (checked_yields hmay).obeys) fun _ _ _ _ => yields_throw

/-- both calls of `set_bucket_key_permissions` were answered -/
theorem setBucketKeyPermissions_yields {b k : String} {permissions : BucketKeyPermissions}
    (hdeny : May r log (.garage (.denyBucketKey b k .all)))
    (hallow : ∀ l, log <+: l → May r l (.garage (.allowBucketKey b k permissions))) :
    (onGarage (GarageAdminClient.setBucketKeyPermissions b k permissions)).Yields (May r)
      (fun l _ => (∃ bucket, Answered l (.denyBucketKey b k .all) bucket) ∧
        (permissions.isEmpty = true ∨
          ∃ bucket, Answered l (.allowBucketKey b k permissions) bucket)) log := by
  refine garage_bind (checked_yields hdeny) fun l denied hl hdenied => ?_
  by_cases hempty : permissions.isEmpty = true
  · simp only [hempty, if_true]
    exact yields_pure ⟨⟨denied, hdenied⟩, .inl trivial⟩
  · simp only [hempty]
    refine (checked_yields (hallow l hl)).mono fun l' allowed hl' hallowed => ?_
    exact ⟨⟨denied, hdenied.mono hl'.subset⟩, .inr ⟨allowed, hallowed⟩⟩

section
variable {command : CreateCredentialCommand} {o : Uuid} {context : CreateCredentialContext}
  {physicalBucketId : String}

/-- what follows the creation of the key -/
theorem permitKey_yields (hgranted : Granted log (.createCredential command) o context)
    (hpid : context.bucket.physicalBucketId = some physicalBucketId) {key : AccessKey}
    (hkey : Answered log (.createKey (keyRequest command context)) key) :
    (onGarage (GarageAdapter.permitKey physicalBucketId command.permissions key)).Yields (May r)
      (fun l issued => Issued l command context issued.garageKeyId) log := by
  unfold GarageAdapter.permitKey
  split
  · exact abandonKey_yields (.touch (.deleteOwn hgranted hkey))
  · have hset := setBucketKeyPermissions_yields (r := r) (.touch (.deny hgranted hpid hkey))
      fun l hl => .touch (.allow (hgranted.mono hl.subset) hpid (hkey.mono hl.subset))
    refine garage_bind (garage_attempt hset.obeys) fun l answer hl hanswer => ?_
    cases answer with
    | ok bucket =>
      obtain ⟨hdeny, hallow⟩ := hanswer bucket rfl
      exact yields_pure ⟨⟨key, hkey.mono hl.subset, rfl⟩, physicalBucketId, hpid, hdeny, hallow⟩
    | error e =>
      exact abandonKey_yields
        (.touch (.deleteOwn (hgranted.mono hl.subset) (hkey.mono hl.subset)))

theorem mem_sameName {keys : List AccessKeySummary} {name k : String}
    (h : k ∈ (keys.filter fun key => key.name == name).map AccessKeySummary.id) :
    ∃ key ∈ keys, key.name = name ∧ key.id = k := by
  obtain ⟨key, hkey, rfl⟩ := List.mem_map.mp h
  obtain ⟨hmem, hsame⟩ := List.mem_filter.mp hkey
  exact ⟨key, hmem, eq_of_beq hsame, rfl⟩

/-- **the key of a credential** -/
theorem createCredential_yields (hgranted : Granted log (.createCredential command) o context)
    (hpid : context.bucket.physicalBucketId = some physicalBucketId)
    (hservice : r.serviceInstanceId? = some command.operation.serviceInstanceId)
    (hfirst : ∀ request answer, ⟨.garage (.createKey request), answer⟩ ∉ log) {name : String}
    (hname : CreateKeyRequest.new name none = keyRequest command context) :
    (onGarage (GarageAdapter.createCredential physicalBucketId name command.permissions)).Yields
      (May r) (fun l issued => Issued l command context issued.garageKeyId) log := by
  rw [GarageAdapter.createCredential, hname]
  refine garage_bind (garage_mapError (execute_yields (.touch (.listKeys hgranted hfirst))))
    fun l₁ keys h₁ hkeys => ?_
  refine garage_bind (deleteKeys_yields ?_) ?_
  · intro k hk l hl
    obtain ⟨key, hmem, hsame, rfl⟩ := mem_sameName hk
    exact .touch (.deleteListed (hgranted.mono (h₁.trans hl).subset) (hkeys.mono hl.subset) hmem
      (hsame.trans (congrArg CreateKeyRequest.name hname)))
  intro l₂ _ h₂ _
  have hgranted₂ := hgranted.mono (h₁.trans h₂).subset
  refine garage_bind (garage_mapError (checked_yields (.touch (.createKey hgranted₂ hservice)))) ?_
  intro l₃ key h₃ hkey
  exact permitKey_yields (hgranted₂.mono h₃.subset) hpid hkey

end

/-! ## parts of handlers -/

/-- the execution of an operation that was granted -/
def Execution.Of (x : Execution) (log : CallLog) : Prop :=
  ∃ call, ∃ context : PrepareCall.Context call, Granted log call x.operationId context ∧
    x.operation = call.operation

variable {x : Execution}

theorem Execution.Of.mono (h : x.Of log) {log' : CallLog} (hsub : log ⊆ log') : x.Of log' := by
  obtain ⟨call, context, hgranted, hop⟩ := h
  exact ⟨call, context, hgranted.mono hsub, hop⟩

theorem Execution.Of.renew (h : x.Of log) :
    May r log (.store (.renewOperation x.operation x.operationId)) := by
  obtain ⟨call, context, hgranted, hop⟩ := h
  rw [hop]
  exact .renew hgranted

/-- a failure may be recorded -/
theorem Execution.Of.fail (h : x.Of log) {response : StoredHttpResponse} {event : AuditEvent}
    (hfailed : response.failed = true) (hevent : event.Reports x.operation "failed") :
    May r log (.store (.finish ⟨.fail x.operation, x.operationId, response, event⟩)) := by
  obtain ⟨call, context, hgranted, hop⟩ := h
  rw [hop] at hevent ⊢
  exact .finish (.fail hgranted hfailed hevent)

/-- a failure is recorded for an operation that was granted -/
theorem Execution.Of.failWith (hx : x.Of log) {α : Type} {P : CallLog → α → Prop} {details : Value}
    {error : GarageBackendError} :
    (failWith x details error : HandlerM ApiError α).Yields (May r) P log :=
  failWith_yields .newUuid fun _ _ hl hevent => (hx.mono hl.subset).fail rfl hevent

theorem Execution.Of.garageOrFail (hx : x.Of log) {α : Type} {P : CallLog → α → Prop}
    {details : Value} {program : GarageM GarageBackendError α}
    (h : (onGarage program).Yields (May r) P log) :
    (garageOrFail x details program).Yields (May r) P log :=
  garageOrFail_yields h fun _ _ hl => (hx.mono hl.subset).failWith

/-- nothing is asked of the result of a handler -/
abbrev Handles (r : Request) (log : CallLog) (p : HandlerM ApiError Response) : Prop :=
  p.Yields (May r) (fun _ _ => True) log

theorem completing_yields {call : FinishCall} (h : Completes log call) :
    Handles r log (completing call) :=
  yields_bind (callStore_yields (.finish h)) fun _ _ _ _ => yields_ofExcept fun _ _ => trivial

/-- only an execution that was granted goes on -/
theorem preparing_yields {call : PrepareCall}
    {execute : Uuid → call.Context → HandlerM ApiError Response}
    (h : ∀ o context, Handles r [⟨.store (.prepare call), Except.ok (Prepare.execute o context)⟩]
      (execute o context)) : Handles r [] (preparing call execute) := by
  refine yields_bind (callStore_yields May.prepare) fun l answer _ hl => ?_
  subst hl
  cases answer with
  | execute o context => exact h o context
  | replay response => exact yields_ofExcept fun _ _ => trivial
  | inProgress o => exact yields_ofExcept fun _ _ => trivial

/-! ## the handlers -/

theorem reconciledBucketId_yields {command : ReconcileCommand} {o : Uuid}
    {context : ReconcileContext} (hgranted : Granted log (.reconcile command) o context)
    (hx : x.Of log) :
    (reconciledBucketId x command context).Yields (May r)
      (fun l physicalBucketId => Reconciled l command context physicalBucketId) log := by
  unfold reconciledBucketId
  split
  · rename_i happlied
    split
    · rename_i physicalBucketId hpid
      exact yields_pure (.inl ⟨happlied, hpid⟩)
    · exact yields_throw
  · rename_i happlied
    have happlied : context.previouslyApplied = false := Bool.eq_false_iff.mpr happlied
    refine yields_bind (renewOperation_yields hx.renew) fun l₁ _ h₁ _ => ?_
    refine yields_bind ((hx.mono h₁.subset).garageOrFail (reconcileBucket_yields ?_ ?_)) ?_
    · intro hnone l hl
      exact .touch (.createBucket (hgranted.mono (h₁.trans hl).subset) hnone)
    · intro l found hl hfound
      exact .touch (.updateBucket (hgranted.mono (h₁.trans hl).subset) happlied hfound)
    · rintro l₂ bucket - ⟨found, answered, hfound, hanswered, hid⟩
      exact yields_pure (.inr ⟨happlied, found, answered, hfound, hanswered, hid⟩)

theorem Reconciled.mono {log' : CallLog} {command : ReconcileCommand} {context : ReconcileContext}
    {physicalBucketId : String} (h : Reconciled log command context physicalBucketId)
    (hsub : log ⊆ log') : Reconciled log' command context physicalBucketId := by
  obtain h | ⟨happlied, found, bucket, hfound, hbucket, hid⟩ := h
  · exact .inl h
  · exact .inr ⟨happlied, found, bucket, hfound.mono hsub, hbucket.mono hsub, hid⟩

theorem executeReconcile_yields {state : AppState} {headers : Headers}
    {command : ReconcileCommand} {o : Uuid} {context : ReconcileContext}
    (hgranted : Granted log (.reconcile command) o context) :
    Handles r log (executeReconcile state headers command o context) := by
  have hx : (serviceExecution headers command.operation o).Of log :=
    ⟨.reconcile command, context, hgranted, rfl⟩
  refine yields_bind (reconciledBucketId_yields hgranted hx) fun l₁ physicalBucketId h₁ hpid => ?_
  refine yields_bind (P := fun _ _ => True) (yields_ofExcept fun _ _ => trivial)
    fun l₂ _ h₂ _ => ?_
  refine yields_bind (utcNow_yields .utcNow) fun l₃ _ h₃ _ => ?_
  refine yields_bind (audit_yields .newUuid) fun l₄ event h₄ hevent => ?_
  have hl := (h₂.trans h₃).trans h₄
  exact completing_yields (.reconcile (hgranted.mono (h₁.trans hl).subset) (hpid.mono hl.subset)
    rfl hevent)

/-- **the loop over the keys of a service** ends with all of them reported gone -/
theorem revokeKeys_yields {command : DeleteCommand} {o : Uuid} {context : DeleteContext}
    (hgranted : Granted log (.delete command) o context) (hx : x.Of log) {ids : List String}
    (hids : ids ⊆ context.garageKeyIds) :
    (revokeKeys x command ids).Yields (May r)
      (fun l _ => ∀ k ∈ ids, Removed l (.deleteKey k)) log := by
  induction ids generalizing log with
  | nil => exact yields_pure fun _ h => by cases h
  | cons k ids ih =>
    refine yields_bind (renewOperation_yields hx.renew) fun l₁ _ h₁ _ => ?_
    have hgranted₁ := hgranted.mono h₁.subset
    refine yields_bind ((hx.mono h₁.subset).garageOrFail (revokeCredential_yields
      (.touch (.deleteOfService hgranted₁ (hids List.mem_cons_self))))) fun l₂ _ h₂ hk => ?_
    refine (ih (hgranted₁.mono h₂.subset) (hx.mono (h₁.trans h₂).subset)
      fun k' hk' => hids (List.mem_cons_of_mem _ hk')).mono fun l₃ _ h₃ hrest k' hk' => ?_
    rcases List.mem_cons.mp hk' with rfl | hk'
    · exact hk.mono h₃.subset
    · exact hrest k' hk'

theorem usageForDeletion_yields {command : DeleteCommand} {physicalBucketId : String}
    (hx : x.Of log) :
    (usageForDeletion x command physicalBucketId).Yields (May r) (fun _ _ => True) log := by
  refine yields_bind (yields_attempt bucketUsage_yields.obeys) fun l answer hl _ => ?_
  cases answer with
  | ok usage => exact yields_pure trivial
  | error e =>
    cases e with
    | notFound message => exact yields_pure trivial
    | _ => exact (hx.mono hl.subset).failWith

theorem requireEmpty_yields {command : DeleteCommand} {usage : BucketUsage} (hx : x.Of log) :
    (requireEmpty x command usage).Yields (May r) (fun _ _ => True) log := by
  unfold requireEmpty
  split
  · exact yields_pure trivial
  · refine yields_bind (audit_yields .newUuid) fun l event hl hevent => ?_
    have hfailed : ({ event with outcome := "failed" } : AuditEvent).Reports x.operation "failed" :=
      ⟨hevent.service, hevent.action, rfl⟩
    exact yields_bind (callStore_yields ((hx.mono hl.subset).fail rfl hfailed))
      fun _ _ _ _ => yields_throw

theorem executeDelete_yields {state : AppState} {headers : Headers} {command : DeleteCommand}
    {o : Uuid} {context : DeleteContext} (hgranted : Granted log (.delete command) o context) :
    Handles r log (executeDelete state headers command o context) := by
  have hx : (serviceExecution headers command.operation o).Of log :=
    ⟨.delete command, context, hgranted, rfl⟩
  unfold executeDelete
  split
  · exact yields_throw
  rename_i physicalBucketId hpid
  refine yields_bind (renewOperation_yields hx.renew) fun l₁ _ h₁ _ => ?_
  refine yields_bind (usageForDeletion_yields (hx.mono h₁.subset)) fun l₂ usage h₂ _ => ?_
  have h₂ := h₁.trans h₂
  refine yields_bind (requireEmpty_yields (hx.mono h₂.subset)) fun l₃ _ h₃ _ => ?_
  have h₃ := h₂.trans h₃
  refine yields_bind (revokeKeys_yields (hgranted.mono h₃.subset) (hx.mono h₃.subset)
    (List.Subset.refl _)) fun l₄ _ h₄ hkeys => ?_
  have h₄ := h₃.trans h₄
  refine yields_bind (renewOperation_yields (hx.mono h₄.subset).renew) fun l₅ _ h₅ _ => ?_
  have h₆ := h₄.trans h₅
  refine yields_bind ((hx.mono h₆.subset).garageOrFail (deleteBucket_yields
    (.touch (.deleteBucket (hgranted.mono h₆.subset) hpid)))) fun l₆ _ h₇ hbucket => ?_
  refine yields_bind (P := fun _ _ => True) (yields_ofExcept fun _ _ => trivial)
    fun l₇ _ h₈ _ => ?_
  refine yields_bind (utcNow_yields .utcNow) fun l₈ _ h₉ _ => ?_
  refine yields_bind (audit_yields .newUuid) fun l₉ event h₁₀ hevent => ?_
  have hl := (h₈.trans h₉).trans h₁₀
  have hall := h₇.trans hl
  exact completing_yields (.delete (hgranted.mono (h₆.trans hall).subset) hpid
    (fun k hk => (hkeys k hk).mono (h₅.trans hall).subset) (hbucket.mono hl.subset) rfl hevent)

section
variable {command : CreateCredentialCommand} {o : Uuid} {context : CreateCredentialContext}

theorem Issued.mono {log' : CallLog} {k : String} (h : Issued log command context k)
    (hsub : log ⊆ log') : Issued log' command context k := by
  obtain ⟨⟨key, hkey, hid⟩, pid, hpid, ⟨denied, hdeny⟩, hallow⟩ := h
  refine ⟨⟨key, hkey.mono hsub, hid⟩, pid, hpid, ⟨denied, hdeny.mono hsub⟩, hallow.imp_right ?_⟩
  rintro ⟨allowed, hallow⟩
  exact ⟨allowed, hallow.mono hsub⟩

/-- an execution that has lost its lease deletes the key it has made, and no other -/
theorem completingCreate_yields (hgranted : Granted log (.createCredential command) o context)
    {credential : NewCredential} {response : StoredHttpResponse} {event : AuditEvent}
    (hid : credential.id = context.credentialId)
    (hissued : Issued log command context credential.garageKeyId)
    (hresponse : response.failed = false) (hevent : event.Reports command.operation "allowed") :
    Handles r log (completingCreate
      ⟨.createCredential command credential, o, response, event⟩ credential.garageKeyId) := by
  refine yields_bind (P := fun _ _ => True) (yields_request
    (May.finish (.create hgranted hid hissued hresponse hevent)) fun _ => trivial)
    fun l answer hl _ => ?_
  cases answer with
  | ok u => exact yields_ofExcept fun _ _ => trivial
  | error e =>
    cases e with
    | operationLeaseLost current =>
      obtain ⟨key, hkey, hk⟩ := hissued.created
      rw [← hk]
      exact yields_bind (yields_attempt (revokeCredential_yields (.touch
        (.deleteOwn (hgranted.mono hl.subset) (hkey.mono hl.subset)))).obeys)
        fun _ _ _ _ => yields_throw
    | _ => exact yields_throw

theorem executeCreate_yields {state : AppState} {headers : Headers} {principal : Principal}
    (hgranted : Granted log (.createCredential command) o context)
    (hservice : command.operation.serviceInstanceId = principal.scope.serviceInstanceId)
    (hrequest : r.serviceInstanceId? = some command.operation.serviceInstanceId)
    (hfirst : ∀ request answer, ⟨.garage (.createKey request), answer⟩ ∉ log) :
    Handles r log (executeCreate state headers principal command o context) := by
  have hx : (credentialExecution headers command.operation o principal.contextId
      context.credentialId).Of log := ⟨.createCredential command, context, hgranted, rfl⟩
  have hname : CreateKeyRequest.new (deterministicName principal.scope.serviceInstanceId
      context.credentialId) none = keyRequest command context := by
    rw [keyRequest, hservice]
  unfold executeCreate
  split
  · exact yields_throw
  rename_i physicalBucketId hpid
  refine yields_bind (renewOperation_yields hx.renew) fun l₁ _ h₁ hl₁ => ?_
  have hfirst₁ : ∀ request answer, ⟨.garage (.createKey request), answer⟩ ∉ l₁ := by
    intro request answer hmem
    rw [hl₁] at hmem
    rcases List.mem_append.mp hmem with hmem | hmem
    · exact hfirst request answer hmem
    · cases List.mem_singleton.mp hmem
  refine yields_bind ((hx.mono h₁.subset).garageOrFail (createCredential_yields
    (hgranted.mono h₁.subset) hpid hrequest hfirst₁ hname)) fun l₂ issued h₂ hissued => ?_
  refine yields_bind (utcNow_yields .utcNow) fun l₃ _ h₃ _ => ?_
  refine yields_bind (audit_yields .newUuid) fun l₄ event h₄ hevent => ?_
  exact completingCreate_yields (hgranted.mono (((h₁.trans h₂).trans h₃).trans h₄).subset) rfl
    (hissued.mono (h₃.trans h₄).subset) rfl hevent

end

theorem revokeKey_yields {command : RevokeCredentialCommand} {o : Uuid}
    {context : RevokeCredentialContext} (hgranted : Granted log (.revokeCredential command) o context)
    (hx : x.Of log) :
    (revokeKey x context).Yields (May r) (fun l _ => context.alreadyRevoked = true ∨
      Removed l (.deleteKey context.garageKeyId)) log := by
  unfold revokeKey
  split
  · rename_i hrevoked
    exact yields_pure (.inl hrevoked)
  · rename_i hrevoked
    exact (hx.garageOrFail (revokeCredential_yields (.touch
      (.deleteRevoked hgranted (Bool.eq_false_iff.mpr hrevoked))))).mono fun _ _ _ h => .inr h

theorem executeRevoke_yields {headers : Headers} {principal : Principal}
    {command : RevokeCredentialCommand} {o : Uuid} {context : RevokeCredentialContext}
    (hgranted : Granted log (.revokeCredential command) o context) :
    Handles r log (executeRevoke headers principal command o context) := by
  have hx : (credentialExecution headers command.operation o principal.contextId
      command.credentialId).Of log := ⟨.revokeCredential command, context, hgranted, rfl⟩
  refine yields_bind (renewOperation_yields hx.renew) fun l₁ _ h₁ _ => ?_
  refine yields_bind (revokeKey_yields (hgranted.mono h₁.subset) (hx.mono h₁.subset))
    fun l₂ _ h₂ hdone => ?_
  refine yields_bind (audit_yields .newUuid) fun l₃ event h₃ hevent => ?_
  exact completing_yields (.revoke (hgranted.mono ((h₁.trans h₂).trans h₃).subset)
    (hdone.imp_right (·.mono h₃.subset)) rfl hevent)

theorem authorize_eq_ok {principal : Except PrincipalAuthError Principal} {permission : String}
    {p : Principal} (h : authorize principal permission = .ok p) : principal = .ok p := by
  obtain ⟨q, hq, h⟩ := except_bind_eq_ok.mp h
  split at h
  · obtain rfl := Except.ok.inj h
    cases principal with
    | ok a => exact congrArg _ (Except.ok.inj hq)
    | error e => cases hq
  · cases h

theorem createCredentialCommand_service {state : AppState} {principal : Principal}
    {headers : Headers} {request : CreateCredentialRequest} {command : CreateCredentialCommand}
    (h : createCredentialCommand state principal headers request = .ok command) :
    command.operation.serviceInstanceId = principal.scope.serviceInstanceId := by
  obtain ⟨_, -, h⟩ := except_bind_eq_ok.mp h
  obtain ⟨_, -, h⟩ := except_bind_eq_ok.mp h
  obtain rfl := Except.ok.inj h
  rfl

end

/-- **every handler keeps to the discipline** -/
theorem handle_obeys (state : AppState) (r : Request) :
    (handle state r).Obeys (May r) (fun _ _ => True) [] := by
  suffices h : Handles r [] (handle state r) from h.obeys.mono fun _ _ _ => trivial
  cases r with
  | reconcile claims s headers request =>
    refine yields_ofExcept_bind fun command _ => ?_
    exact preparing_yields fun o context => executeReconcile_yields List.mem_cons_self
  | delete claims s query headers =>
    refine yields_ofExcept_bind fun command _ => ?_
    exact preparing_yields fun o context => executeDelete_yields List.mem_cons_self
  | createCredential principal headers request =>
    refine yields_ofExcept_bind fun p hp => yields_ofExcept_bind fun command hcommand => ?_
    have hservice := createCredentialCommand_service hcommand
    refine preparing_yields fun o context => executeCreate_yields List.mem_cons_self hservice ?_ ?_
    · rw [authorize_eq_ok hp, hservice]
      rfl
    · intro request answer hmem
      cases List.mem_singleton.mp hmem
  | revokeCredential principal credentialId headers =>
    refine yields_ofExcept_bind fun p _ => yields_ofExcept_bind fun command _ => ?_
    exact preparing_yields fun o context => executeRevoke_yields List.mem_cons_self

end Syouyu
