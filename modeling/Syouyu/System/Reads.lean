import Syouyu.Api.Reads
import Syouyu.System.Discipline

/-!
# What the handlers that read ask for

Whatever the store and Garage answer, a read asks for nothing but the service in the scope of its
principal, and what it answers was answered to it.

* `Consults`            the calls one may make for a principal, and after what;
* `Shows`               the response that a log of such calls gives;
* `handleRead_yields`   **a read makes these calls only, for a principal that has its permission, and
                        answers with what they gave**;
* `handleRead_raises`   **it is not found only if the store has not found it**.
-/

set_option linter.unusedSectionVars false

namespace Syouyu
open Lib Lib.Prog

/-- the statement was answered -/
abbrev Selected (log : CallLog) (statement : Select) (answer : statement.Answer) : Prop :=
  ⟨.query (.select statement), answer⟩ ∈ log

namespace ServiceScope

/-- the row is the one of a service in the scope -/
structure Sees (scope : ServiceScope) (log : CallLog) (service : ServiceRow) : Prop where
  row : ∃ row, Selected log (.service scope.serviceInstanceId) row ∧
    PgStore.visibleService scope.organizationId scope.projectId row = .ok service

/-- the record is the one that the answers to the two statements give -/
structure Overviews (scope : ServiceScope) (log : CallLog) (record : ServiceRecord) : Prop where
  rows : ∃ service row, scope.Sees log service ∧
    Selected log (.bucket scope.serviceInstanceId) row ∧
    PgStore.overviewRecord service row = .ok record

/-- and the list is -/
structure Listed (scope : ServiceScope) (log : CallLog) (records : List CredentialRecord) :
    Prop where
  found : Selected log (.serviceExists scope.organizationId scope.projectId
    scope.serviceInstanceId) true
  rows : ∃ rows, Selected log (.credentials scope.serviceInstanceId) rows ∧
    rows.mapM PgStore.credentialRecord = .ok records

section
variable {scope : ServiceScope} {log log' : CallLog}

theorem Sees.mono {service : ServiceRow} (h : scope.Sees log service) (hsub : log ⊆ log') :
    scope.Sees log' service := by
  obtain ⟨row, hrow, hvisible⟩ := h.row
  exact ⟨row, hsub hrow, hvisible⟩

theorem Overviews.mono {record : ServiceRecord} (h : scope.Overviews log record)
    (hsub : log ⊆ log') : scope.Overviews log' record := by
  obtain ⟨service, row, hsees, hrow, hrecord⟩ := h.rows
  exact ⟨service, row, hsees.mono hsub, hsub hrow, hrecord⟩

theorem Listed.mono {records : List CredentialRecord} (h : scope.Listed log records)
    (hsub : log ⊆ log') : scope.Listed log' records := by
  obtain ⟨rows, hrows, hrecords⟩ := h.rows
  exact ⟨hsub h.found, rows, hsub hrows, hrecords⟩

end

end ServiceScope

/-- the calls a read may make for a principal after its log -/
inductive Consults (principal : Principal) (read : Read) (log : CallLog) : Call → Prop
  | service : Consults principal read log
      (.query (.select (.service principal.scope.serviceInstanceId)))
  | bucketRow {service : ServiceRow} : principal.scope.Sees log service →
      Consults principal read log
        (.query (.select (.bucket principal.scope.serviceInstanceId)))
  | found : Consults principal read log (.query (.select (.serviceExists
      principal.scope.organizationId principal.scope.projectId principal.scope.serviceInstanceId)))
  | rows : Consults principal read log
      (.query (.select (.credentials principal.scope.serviceInstanceId)))
  | bucket {record : ServiceRecord} {b : String} : principal.scope.Overviews log record →
      record.bucket.physicalBucketId = some b →
      Consults principal read log (.garage (.getBucketInfo b))
  | usage {b : String} {bucket : Bucket} {measuredAt : Timestamp} :
      Answered log (.getBucketInfo b) bucket → Consults principal read log
        (.store (principal.scope.usageCall bucket.bytes bucket.objects measuredAt))
  | audit {requestId : String} :
      Consults principal read log (.store (.recordAudit (readAudit principal requestId read)))
  | utcNow : Consults principal read log (.query .utcNow)
  | newUuid : Consults principal read log (.query .newUuid)

/-- the read is on record -/
def ReadAudited (principal : Principal) (read : Read) (log : CallLog) : Prop :=
  ∃ requestId,
    ⟨.store (.recordAudit (readAudit principal requestId read)), Except.ok ()⟩ ∈ log

/-- what a bucket is said to hold -/
def Bucket.usage (bucket : Bucket) : BucketUsage where
  bytes := bucket.bytes
  objects := bucket.objects
  unfinishedUploadBytes := bucket.unfinishedMultipartUploadBytes
  unfinishedUploads := saturatingAdd bucket.unfinishedUploads bucket.unfinishedMultipartUploads

/-- the response that the answers of a log give -/
inductive Shows (state : AppState) (principal : Principal) (log : CallLog) :
    Read → Response → Prop
  | overview {record : ServiceRecord} {credentials : List CredentialRecord}
      {measuredAt : Timestamp} :
      principal.scope.Overviews log record → principal.scope.Listed log credentials →
      (∀ t, record.bucket.usageMeasuredAt = some t → measuredAt = t) →
      Shows state principal log .overview (jsonResponse (serviceOverviewResponse state record
        record.phase (countU64 (activeCount credentials)) measuredAt))
  | usage {record : ServiceRecord} {b : String} {bucket : Bucket} {measuredAt : Timestamp}
      {stored : UsageRecord} :
      principal.scope.Overviews log record →
      record.bucket.physicalBucketId = some b → Answered log (.getBucketInfo b) bucket →
      ⟨.store (principal.scope.usageCall bucket.bytes bucket.objects measuredAt),
        Except.ok stored⟩ ∈ log →
      Shows state principal log .usage (jsonResponse (usageResponse state stored bucket.usage))
  | credentials {records : List CredentialRecord} :
      principal.scope.Listed log records →
      Shows state principal log .credentials (jsonResponse (credentialListResponse state records))

/-- what a read may do: nothing, unless its principal is authorized -/
def Reading (r : ReadRequest) (log : CallLog) (e : Call) : Prop :=
  ∃ principal, authorize r.principal r.read.permission = .ok principal ∧
    Consults principal r.read log e

/-- what a read answers: what it was told, and that is on record -/
def ReadRequest.Answers (state : AppState) (r : ReadRequest) (log : CallLog)
    (response : Response) : Prop :=
  ∃ principal, authorize r.principal r.read.permission = .ok principal ∧
    Shows state principal log r.read response ∧ ReadAudited principal r.read log

/-- an answer by which nothing is found in the scope -/
inductive Missing (scope : ServiceScope) : (e : Call) × e.Answer → Prop
  | store {call : StoreCall} : Missing scope ⟨.store call, Except.error .notFound⟩
  | service {row : Option ServiceRow} {e : StoreError} :
      PgStore.visibleService scope.organizationId scope.projectId row = .error e →
      Missing scope ⟨.query (.select (.service scope.serviceInstanceId)), row⟩
  | found : Missing scope ⟨.query (.select (.serviceExists scope.organizationId scope.projectId
      scope.serviceInstanceId)), false⟩

/-- a 404 comes from the store, for a principal that is authorized -/
def Unfound (r : ReadRequest) (log : CallLog) (e : ApiError) : Prop :=
  e.status = 404 → ∃ principal, authorize r.principal r.read.permission = .ok principal ∧
    ∃ x ∈ log, Missing principal.scope x

/-! ## the statements of a call -/

theorem readStore_bind {α β : Type} (program : SelectM α) (next : α → SelectM β) :
    readStore (program >>= next) = readStore program >>= fun a => readStore (next a) := by
  have hinj := @inject_bind Select Call Call.Answer StoreError α β
    (fun statement => .query (.select statement)) program next
  exact (congrArg (mapError ApiError.ofStore) hinj).trans (mapError_bind _ _ _)

theorem readStore_request (statement : Select) :
    readStore (request statement) = request (Call.query (.select statement)) := rfl

theorem readStore_ofExcept {α : Type} (r : Except StoreError α) :
    readStore (ofExcept id r) = ofExcept ApiError.ofStore r := by
  cases r <;> rfl

/-! ## parts of the handlers -/

section
variable {state : AppState} {r : ReadRequest} {log : CallLog} {principal : Principal}

theorem select_yields {may : CallLog → Call → Prop} {statement : Select}
    (hmay : may log (.query (.select statement))) :
    (Prog.request (Call.query (.select statement)) :
      HandlerM ApiError statement.Answer).Yields may
        (fun l answer => Selected l statement answer) log :=
  yields_request hmay fun _ => List.mem_append_right _ List.mem_cons_self

variable (hauth : authorize r.principal r.read.permission = .ok principal)
include hauth

theorem Consults.reading {e : Call} (h : Consults principal r.read log e) : Reading r log e :=
  ⟨principal, hauth, h⟩

theorem overview_yields :
    (readStore principal.scope.overview).Yields (Reading r)
      (fun l record => principal.scope.Overviews l record) log := by
  simp only [ServiceScope.overview, PgStore.serviceOverview, readStore_bind, readStore_request,
    readStore_ofExcept]
  refine yields_bind (select_yields (Consults.service.reading hauth)) fun l₁ row _ hrow => ?_
  refine yields_ofExcept_bind fun service hvisible => ?_
  have hsees : principal.scope.Sees l₁ service := ⟨row, hrow, hvisible⟩
  refine yields_bind (select_yields ((Consults.bucketRow hsees).reading hauth))
    fun l₂ bucket hsub hbucket => ?_
  exact yields_ofExcept fun record hrecord =>
    ⟨service, bucket, hsees.mono hsub.subset, hbucket, hrecord⟩

theorem credentials_yields :
    (readStore principal.scope.credentials).Yields (Reading r)
      (fun l records => principal.scope.Listed l records) log := by
  simp only [ServiceScope.credentials, PgStore.listCredentials, readStore_bind, readStore_request,
    readStore_ofExcept]
  refine yields_bind (select_yields (Consults.found.reading hauth)) fun l₁ found _ hfound => ?_
  refine yields_ofExcept_bind fun _ hlisted => ?_
  refine yields_bind (select_yields (Consults.rows.reading hauth)) fun l₂ rows hsub hrows => ?_
  refine yields_ofExcept fun records hrecords => ⟨hsub.subset ?_, rows, hrows, hrecords⟩
  cases found with
  | true => exact hfound
  | false => cases hlisted

theorem recordReadAudit_yields :
    (recordReadAudit principal r.headers r.read).Yields (Reading r)
      (fun l _ => ReadAudited principal r.read l) log := by
  refine yields_bind (requestId_yields (Consults.newUuid.reading hauth)) fun l requestId _ _ => ?_
  exact (callStore_recorded (Consults.audit.reading hauth)).mono
    fun _ _ _ hmem => ⟨requestId, hmem⟩

theorem bucketUsage_reading {b : String}
    (hmay : Consults principal r.read log (.garage (.getBucketInfo b))) :
    (onGarage (GarageAdapter.bucketUsage b)).Yields (Reading r)
      (fun l usage => ∃ bucket, Answered l (.getBucketInfo b) bucket ∧ usage = bucket.usage) log := by
  have hget : (onGarage (GarageAdminClient.getBucket b)).Yields (Reading r)
      (fun l bucket => Answered l (.getBucketInfo b) bucket) log := by
    unfold GarageAdminClient.getBucket GarageAdminClient.checked
    cases validateInput "bucket_id" b with
    | error e => exact yields_throw
    | ok u =>
      refine ⟨⟨hmay.reading hauth, fun answer => ?_⟩⟩
      cases answer with
      | error e => exact fun _ h => by cases h
      | ok bucket =>
        intro a ha
        obtain rfl := Except.ok.inj ha
        exact List.mem_append_right _ List.mem_cons_self
  exact garage_bind (garage_mapError hget) fun _ bucket _ hb => yields_pure ⟨bucket, hb, rfl⟩

end

/-! ## the handlers -/

section
variable {state : AppState} {principal : Except PrincipalAuthError Principal} {headers : Headers}

theorem serviceOverview_yields :
    (serviceOverview state principal headers).Yields (Reading ⟨.overview, principal, headers⟩)
      (ReadRequest.Answers state ⟨.overview, principal, headers⟩) [] := by
  refine yields_ofExcept_bind fun authorized hauth => ?_
  refine yields_bind (overview_yields hauth) fun l₁ record _ h₁ => ?_
  refine yields_bind (credentials_yields hauth) fun l₂ credentials hsub₂ h₂ => ?_
  refine yields_ofExcept_bind fun phase hphase => ?_
  rw [BucketPhase.fromStr_toString] at hphase
  obtain rfl := Except.ok.inj hphase
  refine yields_bind (recordReadAudit_yields hauth) fun l₃ _ hsub₃ haudit => ?_
  have hrecord := h₁.mono (hsub₂.trans hsub₃).subset
  have hcredentials := h₂.mono hsub₃.subset
  cases hmeasured : record.bucket.usageMeasuredAt with
  | some measuredAt =>
    refine yields_pure ⟨authorized, hauth, .overview hrecord hcredentials fun t ht => ?_, haudit⟩
    exact Option.some.inj (hmeasured.symm.trans ht)
  | none =>
    refine yields_bind (utcNow_yields (Consults.utcNow.reading hauth)) fun l₄ measuredAt hsub₄ _ => ?_
    obtain ⟨requestId, haudit⟩ := haudit
    refine yields_pure ⟨authorized, hauth, .overview (hrecord.mono hsub₄.subset)
      (hcredentials.mono hsub₄.subset) fun t ht => ?_, requestId, hsub₄.subset haudit⟩
    rw [hmeasured] at ht
    cases ht

theorem serviceUsage_yields :
    (serviceUsage state principal headers).Yields (Reading ⟨.usage, principal, headers⟩)
      (ReadRequest.Answers state ⟨.usage, principal, headers⟩) [] := by
  refine yields_ofExcept_bind fun authorized hauth => ?_
  refine yields_bind (overview_yields hauth) fun l₁ record _ h₁ => ?_
  cases hb : ServiceRecord.bucket record |>.physicalBucketId with
  | none => exact yields_throw
  | some b =>
    refine yields_bind (yields_mapError (bucketUsage_reading hauth (.bucket h₁ hb)))
      fun l₂ usage hsub₂ h₂ => ?_
    obtain ⟨bucket, h₂, rfl⟩ := h₂
    refine yields_bind (utcNow_yields (Consults.utcNow.reading hauth)) fun l₃ measuredAt hsub₃ _ => ?_
    have hbucket := hsub₃.subset h₂
    refine yields_bind (callStore_recorded ((Consults.usage hbucket).reading hauth))
      fun l₄ stored hsub₄ h₄ => ?_
    refine yields_bind (recordReadAudit_yields hauth) fun l₅ _ hsub₅ haudit => ?_
    exact yields_pure ⟨authorized, hauth, .usage
      (h₁.mono (((hsub₂.trans hsub₃).trans hsub₄).trans hsub₅).subset) hb
      (hsub₅.subset (hsub₄.subset hbucket)) (hsub₅.subset h₄), haudit⟩

theorem listCredentials_yields :
    (listCredentials state principal headers).Yields (Reading ⟨.credentials, principal, headers⟩)
      (ReadRequest.Answers state ⟨.credentials, principal, headers⟩) [] := by
  refine yields_ofExcept_bind fun authorized hauth => ?_
  refine yields_bind (credentials_yields hauth) fun l₁ credentials _ h₁ => ?_
  refine yields_bind (recordReadAudit_yields hauth) fun l₂ _ hsub haudit => ?_
  exact yields_pure ⟨authorized, hauth, .credentials (h₁.mono hsub.subset), haudit⟩

/-- **a read asks for its own service only, and answers with what it was told** -/
theorem handleRead_yields (state : AppState) (r : ReadRequest) :
    (handleRead state r).Yields (Reading r) (ReadRequest.Answers state r) [] := by
  obtain ⟨read, principal, headers⟩ := r
  cases read with
  | overview => exact serviceOverview_yields
  | usage => exact serviceUsage_yields
  | credentials => exact listCredentials_yields

/-! ## what is not found -/

theorem fromI64_found (value : Int64) (field : String) : fromI64 value field ≠ .error .notFound := by
  unfold fromI64
  split <;> exact fun h => by cases h

theorem tryIntoRecord_found (row : BucketRow) : row.tryIntoRecord ≠ .error .notFound := by
  intro h
  rcases except_bind_eq_error.mp h with h | ⟨_, -, h⟩
  · exact fromI64_found _ _ h
  rcases except_bind_eq_error.mp h with h | ⟨_, -, h⟩
  · exact fromI64_found _ _ h
  rcases except_bind_eq_error.mp h with h | ⟨_, -, h⟩
  · exact fromI64_found _ _ h
  rcases except_bind_eq_error.mp h with h | ⟨_, -, h⟩
  · exact fromI64_found _ _ h
  · cases h

theorem overviewRecord_found (service : ServiceRow) (row : Option BucketRow) :
    PgStore.overviewRecord service row ≠ .error .notFound := by
  intro h
  rcases except_bind_eq_error.mp h with h | ⟨row, -, h⟩
  · cases row <;> cases h
  rcases except_bind_eq_error.mp h with h | ⟨bucket, -, h⟩
  · exact tryIntoRecord_found row h
  rcases except_bind_eq_error.mp h with h | ⟨spec, -, h⟩
  · cases hspec : SyouyuSpec.fromValue service.desiredSpec <;> rw [hspec] at h <;> cases h
  · cases h

theorem credentialRecord_found (row : CredentialRow) :
    PgStore.credentialRecord row ≠ .error .notFound := by
  intro h
  rcases except_bind_eq_error.mp h with h | ⟨permissions, -, h⟩
  · cases hp : BucketPermissions.fromValue row.permissions <;> rw [hp] at h <;> cases h
  · cases h

theorem ofStore_notFound {e : StoreError} (h : (ApiError.ofStore e).status = 404) :
    e = .notFound := by
  cases e with
  | notFound => rfl
  | _ =>
    simp [ApiError.ofStore, ApiError.badRequest, ApiError.conflict, ApiError.internal,
      ApiError.operationInProgress, ApiError.new] at h

section
variable {r : ReadRequest} {log : CallLog} {authorized : Principal}

theorem authorize_found {permission : String} {e : ApiError}
    (h : authorize principal permission = .error e) :
    e.status ≠ 404 := by
  have hauth : ∀ e : PrincipalAuthError, (ApiError.ofPrincipalAuth e).status ≠ 404 := by
    intro e
    cases e <;>
      simp [ApiError.ofPrincipalAuth, ApiError.unauthorized, ApiError.forbidden, ApiError.new]
  rcases except_bind_eq_error.mp h with h | ⟨authorized, -, h⟩
  · cases principal with
    | ok p => cases h
    | error e' => exact Except.error.inj h ▸ hauth e'
  · split at h
    · cases h
    · exact Except.error.inj h ▸ hauth _

theorem utcNow_raises : utcNow.Raises (Unfound r) log := raises_request

variable (hauth : authorize r.principal r.read.permission = .ok authorized)
include hauth

theorem callStore_raises {call : StoreCall} : (callStore call).Raises (Unfound r) log := by
  refine raises_request_bind fun answer => raises_ofExcept fun e he hstatus => ?_
  rw [he, ofStore_notFound hstatus]
  exact ⟨authorized, hauth, _, List.mem_append_right _ List.mem_cons_self, .store⟩

theorem overview_raises : (readStore authorized.scope.overview).Raises (Unfound r) log := by
  simp only [ServiceScope.overview, PgStore.serviceOverview, readStore_bind, readStore_request,
    readStore_ofExcept]
  refine raises_request_bind fun row => raises_ofExcept_bind (fun e he _ => ?_) fun service _ =>
    raises_request_bind fun bucket => raises_ofExcept fun e he hstatus => ?_
  · exact ⟨authorized, hauth, _, List.mem_append_right _ List.mem_cons_self, .service he⟩
  · rw [ofStore_notFound hstatus] at he
    exact absurd he (overviewRecord_found _ _)

theorem credentials_raises : (readStore authorized.scope.credentials).Raises (Unfound r) log := by
  simp only [ServiceScope.credentials, PgStore.listCredentials, readStore_bind, readStore_request,
    readStore_ofExcept]
  refine raises_request_bind fun found => raises_ofExcept_bind (fun e he _ => ?_) fun _ _ =>
    raises_request_bind fun rows => raises_ofExcept fun e he hstatus => ?_
  · cases found with
    | true => cases he
    | false =>
      exact ⟨authorized, hauth, _, List.mem_append_right _ List.mem_cons_self, .found⟩
  · rw [ofStore_notFound hstatus] at he
    obtain ⟨row, -, hrow⟩ := except_mapM_eq_error he
    exact absurd hrow (credentialRecord_found row)

theorem recordReadAudit_raises {read : Read} :
    (recordReadAudit authorized headers read).Raises (Unfound r) log := by
  refine raises_bind ?_ fun _ _ => callStore_raises hauth
  unfold requestId
  split
  · exact raises_pure
  · exact raises_bind raises_request fun _ _ => raises_pure

end

/-- **a read that is not found is one the store did not find** -/
theorem handleRead_raises (state : AppState) (r : ReadRequest) :
    (handleRead state r).Raises (Unfound r) [] := by
  obtain ⟨read, principal, headers⟩ := r
  have hrefused : ∀ {log : CallLog} (x : ApiError),
      authorize principal read.permission = .error x →
      Unfound ⟨read, principal, headers⟩ log (id x) :=
    fun x hx hstatus => absurd hstatus (authorize_found hx)
  cases read with
  | overview =>
    refine raises_ofExcept_bind hrefused fun authorized hauth =>
      raises_bind (overview_raises hauth) fun _ record =>
      raises_bind (credentials_raises hauth) fun _ _ =>
      raises_bind (raises_ofExcept fun e _ hstatus => by cases hstatus) fun _ _ =>
      raises_bind (recordReadAudit_raises hauth) fun _ _ => ?_
    cases record.bucket.usageMeasuredAt with
    | some measuredAt => exact raises_pure
    | none => exact raises_bind utcNow_raises fun _ _ => raises_pure
  | usage =>
    refine raises_ofExcept_bind hrefused fun authorized hauth =>
      raises_bind (overview_raises hauth) fun _ record => ?_
    split
    · exact raises_throw fun h => by cases h
    · refine raises_bind (raises_mapError fun _ e hstatus => ?_) fun _ _ =>
        raises_bind utcNow_raises fun _ _ => raises_bind (callStore_raises hauth) fun _ _ =>
        raises_bind (recordReadAudit_raises hauth) fun _ _ => raises_pure
      cases e <;> cases hstatus
  | credentials =>
    exact raises_ofExcept_bind hrefused fun authorized hauth =>
      raises_bind (credentials_raises hauth) fun _ _ =>
      raises_bind (recordReadAudit_raises hauth) fun _ _ => raises_pure

/-- **what a read asks for, what it answers, and why it is refused** -/
theorem handleRead_obeys (state : AppState) (r : ReadRequest) :
    (handleRead state r).Obeys (Reading r) (fun log result =>
      (∀ response, result = .ok response → r.Answers state log response) ∧
        ∀ e, result = .error e → Unfound r log e) [] :=
  (handleRead_yields state r).obeys.and (handleRead_raises state r).obeys

end

end Syouyu
