import Syouyu.Api.Reads
import Syouyu.Registry.System

/-!
# What the registry shows

The statements of the store that read, answered from the tables, answer as the registry would.

* `Registry.Serves`      the live service of a scope;
* `Registry.Lists`       a list of records is that of the credentials of a service;
* `overview_named`, `overview_placed`, `credentials_listed`, `usage_shown`   **an answer shows what
                         the registry holds**;
* `overview_refused`, `credentials_refused`, `usage_refused`   **and what is not found is not
                         served**.
-/

set_option linter.unusedSectionVars false

namespace Syouyu
open Lib

namespace Registry

/-- the service is the one of the scope -/
structure Holds (r : Registry) (scope : ServiceScope) (service : Service) : Prop where
  found : r.services scope.serviceInstanceId = some service
  organization : service.organizationId = scope.organizationId
  project : service.projectId = scope.projectId

/-- and it has not been deleted -/
structure Serves (r : Registry) (scope : ServiceScope) (service : Service) : Prop
    extends r.Holds scope service where
  live : service.live = true

/-- what the record says of the service, which is ready -/
structure Service.Named (service : Service) (record : ServiceRecord) : Prop where
  phase : record.phase = .ready
  name : record.name = service.name
  generation : record.desiredGeneration.toInt = service.generation

/-- and of its bucket, which the source reads in a statement of its own -/
structure Service.Placed (service : Service) (record : ServiceRecord) : Prop where
  spec : record.bucket.spec = service.spec
  bucketId : record.bucket.physicalBucketId = some service.bucketId

/-- the record is that of the credential -/
structure Credential.Recorded (credential : Credential) (record : CredentialRecord) : Prop where
  name : record.name = credential.name
  permissions : record.permissions = credential.permissions
  active : record.status = .active ↔ credential.active = true

/-- the records are those of the credentials of a service, each of them once -/
structure Lists (r : Registry) (s : Uuid) (records : List CredentialRecord) : Prop where
  nodup : (records.map CredentialRecord.id).Nodup
  sound : ∀ record ∈ records, ∃ credential, r.credentials record.id = some credential ∧
    credential.serviceInstanceId = s ∧ credential.Recorded record
  complete : ∀ id credential, r.credentials id = some credential →
    credential.serviceInstanceId = s → ∃ record ∈ records, record.id = id

/-- the active records are the active credentials -/
theorem Lists.active {r : Registry} {s : Uuid} {records : List CredentialRecord}
    (h : r.Lists s records) :
    (r.active fun c => c.serviceInstanceId = s).encard = activeCount records := by
  have hset : r.active (fun c => c.serviceInstanceId = s) =
      (((records.filter fun record => decide (record.status = .active)).map
        CredentialRecord.id).toFinset : Set Uuid) := by
    ext id
    simp only [Registry.active, Set.mem_ofPred_eq, List.coe_toFinset, List.mem_map, List.mem_filter,
      decide_eq_true_eq]
    constructor
    · rintro ⟨credential, hid, hactive, hs⟩
      obtain ⟨record, hrecord, rfl⟩ := h.complete id credential hid hs
      obtain ⟨credential', hid', -, hrecorded⟩ := h.sound record hrecord
      obtain rfl := Option.some.inj (hid.symm.trans hid')
      exact ⟨record, ⟨hrecord, hrecorded.active.mpr hactive⟩, rfl⟩
    · rintro ⟨record, ⟨hrecord, hactive⟩, rfl⟩
      obtain ⟨credential, hid, hs, hrecorded⟩ := h.sound record hrecord
      exact ⟨credential, hid, hrecorded.active.mp hactive, hs⟩
  have hnodup := h.nodup.sublist ((List.filter_sublist (p := fun record =>
    decide (CredentialRecord.status record = .active)) (l := records)).map CredentialRecord.id)
  rw [hset, Set.encard_coe_eq_coe_finsetCard, List.toFinset_card_of_nodup hnodup, List.length_map,
    activeCount]

end Registry

/-! ## answers -/

section
variable {store : PgStore} {env : CallEnv} {db db' : Database}

/-- the service of a row is in the registry -/
theorem Database.Matched.holds (hm : db.Matched) (scope : ServiceScope) {row : ServiceRow}
    (hl : db.services.lookup scope.serviceInstanceId = some row)
    (horganization : row.organizationId = scope.organizationId)
    (hproject : row.projectId = scope.projectId) :
    ∃ bucket service, db.buckets.lookup scope.serviceInstanceId = some bucket ∧
      db.registry.Holds scope service ∧ service.name = row.name ∧
      service.generation = row.desiredGeneration.toInt ∧ service.spec = bucket.record.spec ∧
      bucket.physicalBucketId = some service.bucketId ∧
      service.live = decide (row.phase ≠ .deleted) := by
  obtain ⟨bucket, b, hbucket, hb, -, hservice⟩ := hm.registry_service hl
  exact ⟨bucket, _, hbucket, ⟨hservice, horganization, hproject⟩, rfl, rfl, rfl, hb, rfl⟩

section
variable {o p s : Uuid}

/-- the record of two rows -/
theorem overviewRecord_eq_ok {service : ServiceRow} {row : Option BucketRow}
    {record : ServiceRecord} (h : PgStore.overviewRecord service row = .ok record) :
    ∃ bucketRow bucket spec, row = some bucketRow ∧ bucketRow.tryIntoRecord = .ok bucket ∧
      record = ⟨service.id, service.organizationId, service.projectId, service.name,
        service.desiredGeneration, service.observedGeneration, service.phase,
        service.currentOperationId, spec, bucket⟩ := by
  obtain ⟨bucketRow, hrow, h⟩ := except_bind_eq_ok.mp h
  obtain ⟨bucket, hbucket, h⟩ := except_bind_eq_ok.mp h
  obtain ⟨spec, -, h⟩ := except_bind_eq_ok.mp h
  exact ⟨bucketRow, bucket, spec, okOr_eq_ok.mp hrow, hbucket, (Except.ok.inj h).symm⟩

/-- **an overview shows the live service of the scope** -/
theorem overview_named (hreach : Reachable store db) {row : Option BucketRow}
    {service : ServiceRow} {record : ServiceRecord}
    (hservice : PgStore.visibleService o p (db.services.lookup s) = .ok service)
    (hrecord : PgStore.overviewRecord service row = .ok record) :
    record.id = s ∧ ∃ held, db.registry.Serves ⟨o, p, s⟩ held ∧ held.Named record := by
  obtain ⟨hl, horganization, hproject, hlive⟩ := visibleService_eq_ok.mp hservice
  obtain ⟨_, _, _, -, -, rfl⟩ := overviewRecord_eq_ok hrecord
  obtain ⟨_, held, -, hholds, hname, hgeneration, -, -, hphase⟩ :=
    (reachable_orderly hreach).matched.holds ⟨o, p, s⟩ hl horganization hproject
  have hready : service.phase = .ready :=
    (reachable_settled hreach service (Table.lookup_mem hl)).2.resolve_right hlive
  refine ⟨Table.lookup_key hl, held, ⟨hholds, ?_⟩, hready, hname.symm, hgeneration.symm⟩
  rw [hphase]
  exact decide_eq_true hlive

/-- **and the bucket of the service**, which may be that of a later moment -/
theorem overview_placed (hreach : Reachable store db) {service : ServiceRow}
    {record : ServiceRecord} (hscope : db.scopeExists s o p = true)
    (hrecord : PgStore.overviewRecord service (db.buckets.lookup s) = .ok record) :
    ∃ held, db.registry.Holds ⟨o, p, s⟩ held ∧ held.Placed record := by
  obtain ⟨bucketRow, bucket, spec, hbucket, hinto, rfl⟩ := overviewRecord_eq_ok hrecord
  obtain ⟨row, hl, horganization, hproject⟩ := scopeExists_iff.mp hscope
  obtain ⟨bucketRow', held, hbucket', hholds, -, -, hspec, hb, -⟩ :=
    (reachable_orderly hreach).matched.holds ⟨o, p, s⟩ hl horganization hproject
  obtain rfl := Option.some.inj (hbucket.symm.trans hbucket')
  rw [tryIntoRecord_of_check (Table.lookup_check hbucket)] at hinto
  obtain rfl := Except.ok.inj hinto
  exact ⟨held, hholds, hspec.symm, hb⟩

/-- the record of a credential row -/
theorem credentialRecord_eq_ok {row : CredentialRow} {record : CredentialRecord} :
    PgStore.credentialRecord row = .ok record ↔
      ∃ permissions, BucketPermissions.fromValue row.permissions = some permissions ∧
        record = ⟨row.id, row.serviceInstanceId, row.name, row.accessKeyId, permissions, row.status,
          row.createdAt, row.revokedAt⟩ := by
  rw [PgStore.credentialRecord, except_bind_eq_ok]
  simp only [okOr_eq_ok]
  constructor
  · rintro ⟨permissions, hp, hrecord⟩
    exact ⟨permissions, hp, (Except.ok.inj hrecord).symm⟩
  · rintro ⟨permissions, hp, rfl⟩
    exact ⟨permissions, hp, rfl⟩

/-- the rows of a service, in any order, are its credentials in the registry -/
theorem Database.rows_listed (db : Database) {rows : List CredentialRow}
    (hrows : rows.Perm (db.credentials.select fun r => decide (r.serviceInstanceId = s)))
    {records : List CredentialRecord}
    (h : rows.map PgStore.credentialRecord = records.map .ok) : db.registry.Lists s records := by
  have hmem : ∀ row, row ∈ rows ↔ row ∈ db.credentials.rows ∧ row.serviceInstanceId = s := by
    intro row
    rw [hrows.mem_iff, Table.mem_select, decide_eq_true_eq]
  have hrow : ∀ row ∈ rows, ∃ record ∈ records, PgStore.credentialRecord row = .ok record := by
    intro row hrow
    have hmap := List.mem_map_of_mem (f := PgStore.credentialRecord) hrow
    rw [h, List.mem_map] at hmap
    obtain ⟨record, hrecord, heq⟩ := hmap
    exact ⟨record, hrecord, heq.symm⟩
  refine ⟨?_, fun record hrecord => ?_, fun id credential hid hs => ?_⟩
  · -- the ids of the records are the keys of the rows
    have hids : (records.map CredentialRecord.id).map some =
        (rows.map credentialSchema.key).map some := by
      have hmap := congrArg (List.map fun x : Except StoreError CredentialRecord =>
        x.toOption.map CredentialRecord.id) h
      rw [List.map_map, List.map_map] at hmap
      rw [List.map_map, List.map_map]
      refine hmap.symm.trans (List.map_congr_left fun row hin => ?_)
      obtain ⟨record, -, hrec⟩ := hrow row hin
      obtain ⟨permissions, -, heq⟩ := credentialRecord_eq_ok.mp hrec
      rw [Function.comp_apply, hrec, heq]
      rfl
    rw [List.map_injective_iff.mpr (Option.some_injective _) hids,
      (hrows.map credentialSchema.key).nodup_iff]
    exact db.credentials.select_nodup _
  · have hmap := List.mem_map_of_mem (f := fun x => (.ok x : Except StoreError CredentialRecord)) hrecord
    rw [← h, List.mem_map] at hmap
    obtain ⟨row, hin, hrec⟩ := hmap
    obtain ⟨permissions, hp, rfl⟩ := credentialRecord_eq_ok.mp hrec
    obtain ⟨htable, hs⟩ := (hmem row).mp hin
    exact ⟨_, registry_credential.mpr ⟨row, permissions, Table.lookup_of_mem htable, hp, rfl⟩, hs,
      rfl, rfl, decide_eq_true_iff.symm⟩
  · obtain ⟨row, permissions, hl, hp, rfl⟩ := registry_credential.mp hid
    obtain ⟨record, hrecord, hrec⟩ := hrow row ((hmem row).mpr ⟨Table.lookup_mem hl, hs⟩)
    obtain ⟨permissions', -, heq⟩ := credentialRecord_eq_ok.mp hrec
    exact ⟨record, hrecord, by rw [heq]; exact Table.lookup_key hl⟩

/-- **a list of credentials is that of the service** -/
theorem credentials_listed {records : List CredentialRecord}
    (h : (db.credentialRows s).mapM PgStore.credentialRecord = .ok records) :
    db.registry.Lists s records :=
  db.rows_listed (List.perm_insertionSort _ _) (except_mapM_eq_ok.mp h)

/-- which is there before they are looked up -/
theorem service_served (hm : db.Matched) (h : db.serviceExists o p s = true) :
    ∃ held, db.registry.Serves ⟨o, p, s⟩ held := by
  obtain ⟨row, hl, hscope⟩ := (Option.any_eq_true _ _).mp h
  simp only [Bool.and_eq_true, decide_eq_true_eq] at hscope
  obtain ⟨_, held, -, hholds, -, -, -, -, hphase⟩ :=
    hm.holds ⟨o, p, s⟩ hl hscope.1.1 hscope.1.2
  refine ⟨held, hholds, ?_⟩
  rw [hphase]
  exact decide_eq_true hscope.2

/-- the quotas of a row were checked when it was written -/
theorem quotas_nonneg {row : BucketRow} (h : db.buckets.lookup s = some row) :
    0 ≤ row.quotaBytes ∧ 0 ≤ row.quotaObjects := by
  have hcheck := Table.lookup_check h
  simp only [bucketSchema, Bool.and_eq_true, decide_eq_true_eq] at hcheck
  obtain ⟨⟨⟨⟨-, hbytes⟩, hobjects⟩, -⟩, -⟩ := hcheck
  exact ⟨Int64.le_of_lt hbytes, Int64.le_of_lt hobjects⟩

/-- **a usage record is that of the service of the scope, with its quotas** -/
theorem usage_shown (hreach : Reachable store db) {bytes objects : UInt64} {measuredAt : Timestamp}
    {record : UsageRecord}
    (h : PgStore.recordUsage env o p s bytes objects measuredAt db = .ok (record, db')) :
    ∃ service, db.registry.Holds ⟨o, p, s⟩ service ∧
      record = ⟨s, bytes, objects, service.spec.quotaBytes, service.spec.quotaObjects,
        measuredAt⟩ := by
  simp only [PgStore.recordUsage, Tx.bind_eq_ok, Tx.ofExcept_eq_ok, Tx.read_eq_ok,
    Tx.require_eq_ok, updateRows_eq_ok, Tx.pure_eq_ok] at h
  obtain ⟨_, _, ⟨-, rfl⟩, _, _, ⟨-, rfl⟩, _, _, ⟨rfl, rfl⟩, row, _, ⟨hrow, rfl⟩, _, _,
    ⟨_, _, -, rfl⟩, _, _, _, quotaBytes, _, ⟨hquotaBytes, rfl⟩, quotaObjects, _,
    ⟨hquotaObjects, rfl⟩, rfl, rfl⟩ := h
  rw [Option.filter_eq_some_iff, Bool.and_eq_true, decide_eq_true_eq, decide_eq_true_eq] at hrow
  obtain ⟨hbucket, horganization, hproject⟩ := hrow
  -- the row is that of a service in its scope
  obtain ⟨service, hl, horg, hproj⟩ :=
    scopeExists_iff.mp ((reachable_scoped hreach).buckets row (Table.lookup_mem hbucket))
  rw [show row.serviceInstanceId = s from Table.lookup_key hbucket] at hl
  obtain ⟨bucket, held, hbucket', hholds, -, -, hspec, -, -⟩ :=
    (reachable_orderly hreach).matched.holds ⟨o, p, s⟩ hl (horg.trans horganization)
      (hproj.trans hproject)
  obtain rfl := Option.some.inj (hbucket.symm.trans hbucket')
  obtain ⟨hqb, hqo⟩ := quotas_nonneg hbucket
  rw [fromI64_of_nonneg hqb] at hquotaBytes
  rw [fromI64_of_nonneg hqo] at hquotaObjects
  refine ⟨held, hholds, ?_⟩
  rw [hspec, ← Except.ok.inj hquotaBytes, ← Except.ok.inj hquotaObjects]
  rfl

end

/-! ## refusals -/

/-- nothing is served in the scope -/
def Registry.Unserved (r : Registry) (scope : ServiceScope) : Prop :=
  ∀ service, ¬ r.Serves scope service

theorem Database.Matched.unserved (hm : db.Matched) {scope : ServiceScope}
    (h : ∀ row, db.services.lookup scope.serviceInstanceId = some row →
      row.organizationId = scope.organizationId → row.projectId = scope.projectId →
      row.phase = .deleted) : db.registry.Unserved scope := by
  intro service hserves
  obtain ⟨row, bucket, b, hl, -, -, -, rfl⟩ := hm.service_rows hserves.found
  have hlive := hserves.live
  rw [decide_eq_true_eq] at hlive
  exact hlive (h row hl hserves.organization hserves.project)

section
variable {o p s : Uuid}

theorem overview_refused (hm : db.Matched) {e : StoreError}
    (h : PgStore.visibleService o p (db.services.lookup s) = .error e) :
    db.registry.Unserved ⟨o, p, s⟩ :=
  hm.unserved (visibleService_eq_error h).2

theorem credentials_refused (hm : db.Matched) (h : db.serviceExists o p s = false) :
    db.registry.Unserved ⟨o, p, s⟩ := by
  refine hm.unserved fun row hl horganization hproject => ?_
  rw [Database.serviceExists, hl, Option.any_some, decide_eq_true horganization,
    decide_eq_true hproject, Bool.true_and, Bool.true_and] at h
  simpa using h

theorem usage_refused (hreach : Reachable store db) {bytes objects : UInt64}
    {measuredAt : Timestamp} :
    (PgStore.recordUsage env o p s bytes objects measuredAt).FailsOnly
      (fun e => e = .notFound → db.registry.Unserved ⟨o, p, s⟩) db := by
  have hother : ∀ {value : UInt64} {field : String} {e : StoreError},
      toI64 value field = .error e → e ≠ .notFound := by
    intro value field e he heq
    rw [heq, toI64] at he
    split at he <;> cases he
  refine .ofExcept_bind (fun e he heq => absurd heq (hother he)) fun _ _ =>
    .ofExcept_bind (fun e he heq => absurd heq (hother he)) fun _ _ =>
    .read_bind <| .require_bind (fun hnone _ => ?_) fun bucket hbucket =>
    .bind (updateRows_failsOnly fun _ _ h => by cases h) fun _ _ _ =>
    .bind (upsertRow_failsOnly (fun _ h => by cases h)
      (fun _ _ => insertRow_failsOnly (fun _ _ h => by cases h) fun _ h => by cases h)
      fun _ _ => updateRows_failsOnly fun _ _ h => by cases h) fun _ _ _ => ?_
  · intro service hserves
    obtain ⟨row, bucket, b, hl, hbucket, -, -, rfl⟩ :=
      (reachable_orderly hreach).matched.service_rows hserves.found
    -- the bucket is in the scope of its service
    obtain ⟨row', hl', horg, hproj⟩ :=
      scopeExists_iff.mp ((reachable_scoped hreach).buckets bucket (Table.lookup_mem hbucket))
    rw [show bucket.serviceInstanceId = s from Table.lookup_key hbucket] at hl'
    obtain rfl := Option.some.inj (hl.symm.trans hl')
    refine Option.filter_eq_none_iff.mp hnone bucket hbucket ?_
    rw [Bool.and_eq_true, decide_eq_true_eq, decide_eq_true_eq]
    exact ⟨horg.symm.trans hserves.organization, hproj.symm.trans hserves.project⟩
  · obtain ⟨hqb, hqo⟩ := quotas_nonneg (Option.filter_eq_some_iff.mp hbucket).1
    rw [fromI64_of_nonneg hqb, fromI64_of_nonneg hqo]
    intro e he
    cases he

end

end

end Syouyu
