import Syouyu.Registry.Model
import Syouyu.Store.Integrity
import Syouyu.Store.Lifecycle

/-!
# The database as a registry

* `Database.registry`       the registry the tables hold;
* `FinishCall.entryOf`       the entry a completed call makes in it;
* `registry_reconciled`, `registry_deleted`, `registry_issued`, `registry_revoked`
                            **a completion is that entry's step of the registry**;
* `registry_failed`, `registry_unfinished`   every other call leaves the registry alone.
-/

set_option linter.unusedSectionVars false

namespace Syouyu
open Lib

/-! ## the abstraction -/

/-- the service of a row and its bucket -/
def ServiceRow.listed (row : ServiceRow) (bucket : BucketRow) : Option Registry.Service := do
  let spec ← SyouyuSpec.fromValue row.desiredSpec
  let bucketId ← bucket.physicalBucketId
  pure
    { organizationId := row.organizationId
      projectId := row.projectId
      name := row.name
      generation := row.desiredGeneration.toInt
      spec
      bucketId
      live := decide (row.phase ≠ .deleted) }

def CredentialRow.listed (row : CredentialRow) : Option Registry.Credential := do
  let permissions ← BucketPermissions.fromValue row.permissions
  pure
    { serviceInstanceId := row.serviceInstanceId
      organizationId := row.organizationId
      name := row.name
      garageKeyId := row.garageKeyId
      permissions
      active := decide (row.status = .active) }

/-- the keys whose operation has succeeded -/
def succeededKeys (receipts : Table receiptSchema) : Set Uuid :=
  {k | ∃ row, receipts.lookup k = some row ∧ row.state = .succeeded}

/-- the registry the tables hold -/
def Database.registry (db : Database) : Registry where
  services s := do (← db.services.lookup s).listed (← db.buckets.lookup s)
  credentials id := do (← db.credentials.lookup id).listed
  done := succeededKeys db.receipts

/-- the service a reconciliation asks for, in the bucket it was given -/
def ReconcileCommand.service (command : ReconcileCommand) (bucketId : String) :
    Registry.Service where
  organizationId := command.operation.organizationId
  projectId := command.operation.projectId
  name := command.name
  generation := command.generation.toInt
  spec := command.spec
  bucketId := bucketId
  live := true

/-- the credential a creation asks for, with the key it was given -/
def CreateCredentialCommand.credential (command : CreateCredentialCommand) (garageKeyId : String) :
    Registry.Credential where
  serviceInstanceId := command.operation.serviceInstanceId
  organizationId := command.operation.organizationId
  name := command.name
  garageKeyId := garageKeyId
  permissions := command.permissions
  active := true

def Completion.op? : Completion → Option Registry.Op
  | .reconcile command physicalBucketId =>
    some (.reconcile command.operation.serviceInstanceId (command.service physicalBucketId))
  | .delete command => some (.delete command.operation.serviceInstanceId)
  | .createCredential command credential =>
    some (.issue credential.id (command.credential credential.garageKeyId))
  | .revokeCredential command =>
    some (.revoke command.operation.serviceInstanceId command.credentialId)
  | .fail _ => none

/-- the entry a completed call makes in the registry -/
def FinishCall.entryOf (call : FinishCall) : Option Registry.Entry :=
  call.completion.op?.map fun op => ⟨call.operation.idempotencyKey, op⟩

section
variable {store : PgStore} {env : CallEnv} {db db' : Database} {call : FinishCall}

theorem registry_empty : Database.empty.registry = .empty := by
  ext1
  · rfl
  · rfl
  · exact Set.eq_empty_of_forall_notMem fun k ⟨row, hl, _⟩ => by cases hl

/-! ## what the registry shows of the rows -/

theorem listed_service {row : ServiceRow} {bucket : BucketRow} {spec : SyouyuSpec} {b : String}
    (hspec : SyouyuSpec.fromValue row.desiredSpec = some spec)
    (hb : bucket.physicalBucketId = some b) :
    row.listed bucket = some ⟨row.organizationId, row.projectId, row.name,
      row.desiredGeneration.toInt, spec, b, decide (row.phase ≠ .deleted)⟩ := by
  simp only [ServiceRow.listed, hspec, hb, Option.bind_eq_bind, Option.bind_some, Option.pure_def]

/-- in a matched database every service is in the registry, with the spec of its bucket -/
theorem Database.Matched.registry_service (hm : db.Matched) {s : Uuid} {row : ServiceRow}
    (hl : db.services.lookup s = some row) :
    ∃ bucket b, db.buckets.lookup s = some bucket ∧ bucket.physicalBucketId = some b ∧
      SyouyuSpec.fromValue row.desiredSpec = some bucket.record.spec ∧
      db.registry.services s = some ⟨row.organizationId, row.projectId, row.name,
        row.desiredGeneration.toInt, bucket.record.spec, b, decide (row.phase ≠ .deleted)⟩ := by
  obtain ⟨bucket, hbucket, hsome, hspec⟩ := hm s row hl
  obtain ⟨b, hb⟩ := Option.isSome_iff_exists.mp hsome
  refine ⟨bucket, b, hbucket, hb, hspec, ?_⟩
  simp only [Database.registry, hl, hbucket, Option.bind_eq_bind, Option.bind_some,
    listed_service hspec hb]

/-- and every service of the registry has its rows -/
theorem Database.Matched.service_rows (hm : db.Matched) {s : Uuid} {service : Registry.Service}
    (h : db.registry.services s = some service) :
    ∃ row bucket b, db.services.lookup s = some row ∧ db.buckets.lookup s = some bucket ∧
      bucket.physicalBucketId = some b ∧
      SyouyuSpec.fromValue row.desiredSpec = some bucket.record.spec ∧
      service = ⟨row.organizationId, row.projectId, row.name, row.desiredGeneration.toInt,
        bucket.record.spec, b, decide (row.phase ≠ .deleted)⟩ := by
  cases hl : db.services.lookup s with
  | none =>
    simp only [Database.registry, hl, Option.bind_eq_bind, Option.bind_none] at h
    cases h
  | some row =>
    obtain ⟨bucket, b, hbucket, hb, hspec, heq⟩ := hm.registry_service hl
    exact ⟨row, bucket, b, rfl, hbucket, hb, hspec, Option.some.inj (h.symm.trans heq)⟩

theorem registry_credential {id : Uuid} {credential : Registry.Credential} :
    db.registry.credentials id = some credential ↔
      ∃ row permissions, db.credentials.lookup id = some row ∧
        BucketPermissions.fromValue row.permissions = some permissions ∧
        credential = ⟨row.serviceInstanceId, row.organizationId, row.name, row.garageKeyId,
          permissions, decide (row.status = .active)⟩ := by
  simp only [Database.registry, CredentialRow.listed, Option.bind_eq_bind, Option.pure_def,
    Option.bind_eq_some_iff, Option.some.injEq, exists_and_left, eq_comm (a := credential)]

/-! ## the keys used up -/

theorem succeededKeys_update {t t' : Table receiptSchema} {k : Uuid} {f : ReceiptRow → ReceiptRow}
    (h : t.updateWhere (receiptSchema.hasKey k) f = .ok t')
    (hf : ∀ r, (f r).idempotencyKey = r.idempotencyKey) {row : ReceiptRow}
    (hl : t.lookup k = some row) (j : Uuid) :
    j ∈ succeededKeys t' ↔ if j = k then (f row).state = .succeeded else j ∈ succeededKeys t := by
  simp only [succeededKeys, Set.mem_ofPred_eq, Table.lookup_update_key h hf, hl, Option.map_some]
  split
  · simp
  · rfl

/-- an update that leaves a held receipt held -/
theorem succeededKeys_held {t t' : Table receiptSchema} {k : Uuid} {f : ReceiptRow → ReceiptRow}
    (h : t.updateWhere (receiptSchema.hasKey k) f = .ok t')
    (hf : ∀ r, (f r).idempotencyKey = r.idempotencyKey) {row : ReceiptRow}
    (hl : t.lookup k = some row) (hs : row.state ≠ .succeeded)
    (hs' : (f row).state ≠ .succeeded) : succeededKeys t' = succeededKeys t := by
  ext j
  rw [succeededKeys_update h hf hl]
  split
  · rename_i heq
    subst heq
    refine iff_of_false hs' ?_
    rintro ⟨row', hl', hdone⟩
    exact hs (Option.some.inj (hl.symm.trans hl') ▸ hdone)
  · rfl

/-- **a finished call uses up its key, unless it reports a failure** -/
theorem registry_done (h : call.exec store env db = .ok ((), db')) :
    call.operation.idempotencyKey ∉ db.registry.done ∧
    db'.registry.done = if call.response.failed then db.registry.done else
      insert call.operation.idempotencyKey db.registry.done := by
  obtain ⟨-, ⟨row, hl, -, -, hs⟩, _, sealed, t, a, -, -, hu, -, -, rfl⟩ := finish_eq_ok.mp h
  have hne : row.state ≠ .succeeded := by
    rw [hs]
    decide
  refine ⟨?_, ?_⟩
  · rintro ⟨row', hl', hs'⟩
    exact hne (Option.some.inj (hl.symm.trans hl') ▸ hs')
  · show succeededKeys t = _
    split
    · rename_i hfailed
      refine succeededKeys_held hu (fun _ => rfl) hl hne ?_
      simp [ReceiptRow.finished, hfailed]
    · rename_i hfailed
      ext j
      rw [succeededKeys_update hu (fun _ => rfl) hl, Set.mem_insert_iff]
      split
      · rename_i heq
        exact iff_of_true (by simp [ReceiptRow.finished, hfailed]) (.inl heq)
      · rename_i hne
        exact (or_iff_right hne).symm

theorem succeededKeys_insert {t t' : Table receiptSchema} {row : ReceiptRow}
    (h : t.insert row = .ok t') (hs : row.state ≠ .succeeded) :
    succeededKeys t' = succeededKeys t := by
  ext j
  simp only [succeededKeys, Set.mem_ofPred_eq, Table.lookup_insert h]
  split
  · rename_i hkey
    rw [← hkey, Table.lookup_fresh h]
    simp [hs]
  · rfl

/-! ## calls that complete nothing -/

theorem registry_services_measured {t : Table bucketSchema} {s : Uuid} {bytes objects : Int64}
    {measuredAt : Timestamp}
    (h : db.buckets.updateWhere (bucketSchema.hasKey s)
      (PgStore.measuredBucket env bytes objects measuredAt) = .ok t) :
    ({ db with buckets := t } : Database).registry.services = db.registry.services := by
  funext j
  simp only [Database.registry, Table.lookup_update_key h fun _ => rfl]
  split
  · rename_i heq
    subst heq
    cases db.services.lookup j with
    | none => rfl
    | some row =>
      cases db.buckets.lookup j with
      | none => rfl
      | some bucket => rfl
  · rfl

/-- **a call that is no completion leaves the registry alone** -/
theorem registry_unfinished {call : StoreCall} {answer : Except StoreError call.Result}
    (h : StoreStep store db ⟨env, call, answer⟩ db') (hne : ∀ finish, call ≠ .finish finish) :
    db'.registry = db.registry := by
  have hservices : db'.registry.services = db.registry.services := by
    cases service_change h with
    | same hs hb => simp only [Database.registry, hs, hb]
    | measured hs hu =>
      rw [← registry_services_measured hu]
      simp only [Database.registry, hs]
    | reconciled => exact absurd rfl (hne _)
    | deleted => exact absurd rfl (hne _)
  have hcredentials : db'.credentials = db.credentials := by
    cases credential_change h with
    | same heq _ => exact heq
    | moved _ _ _ heq _ => exact heq
    | reserved _ _ _ heq _ => exact heq
    | created => exact absurd rfl (hne _)
    | revokedAll => exact absurd rfl (hne _)
    | revoked => exact absurd rfl (hne _)
    | released => exact absurd rfl (hne _)
  have hdone : succeededKeys db'.receipts = succeededKeys db.receipts := by
    have hheld : ∀ {row : ReceiptRow}, row.state = .inProgress → row.state ≠ .succeeded := by
      intro row hs
      rw [hs]
      decide
    cases operation_change h with
    | same heq _ => rw [heq]
    | granted _ hi _ _ => exact succeededKeys_insert hi (hheld rfl)
    | reserved _ hi _ => exact succeededKeys_insert hi (hheld rfl)
    | takenOver hl _ hs _ hu _ => exact succeededKeys_held hu (fun _ => rfl) hl (hheld hs) (hheld hs)
    | renewed hl _ _ hs hu _ => exact succeededKeys_held hu (fun _ => rfl) hl (hheld hs) (hheld hs)
    | finished => exact absurd rfl (hne _)
  refine Registry.ext hservices ?_ hdone
  funext id
  simp only [Database.registry, hcredentials]

/-- **a recorded failure leaves the registry alone** -/
theorem registry_failed {operation : OperationRequest} (h : call.exec store env db = .ok ((), db'))
    (hcomp : call.completion = .fail operation) : db'.registry = db.registry := by
  have hfailed : call.response.failed = true := by
    have hpre := (finish_eq_ok.mp h).1
    rwa [hcomp] at hpre
  have hother : ∀ {completion : Completion}, call.completion = completion →
      completion = .fail operation := fun heq => heq ▸ hcomp
  obtain ⟨hservices, hbuckets⟩ := finish_keeps_services h
    (fun _ _ heq => by cases hother heq) (fun _ heq => by cases hother heq)
  have hcredentials : db'.credentials = db.credentials := by
    cases finish_credentials h with
    | same heq _ => exact heq
    | released _ heq _ => exact heq
    | created hc => cases hother hc
    | revokedAll hc => cases hother hc
    | revoked hc => cases hother hc
  refine Registry.ext ?_ ?_ ((registry_done h).2.trans (by rw [hfailed]; rfl))
  · simp only [Database.registry, hservices, hbuckets]
  · simp only [Database.registry, hcredentials]

/-! ## completions -/

theorem registry_step (h : call.exec store env db = .ok ((), db'))
    (hfailed : call.response.failed = false) {limits : CredentialLimits} {op : Registry.Op}
    (happly : Registry.Apply limits db.registry op { db'.registry with done := db.registry.done }) :
    Registry.Step limits db.registry ⟨call.operation.idempotencyKey, op⟩ db'.registry where
  fresh := (registry_done h).1
  done := by
    rw [(registry_done h).2, hfailed]
    rfl
  apply := happly

/-- a completed reconciliation leaves its service, and every other service as it was -/
theorem Database.ServiceReconciled.written {command : ReconcileCommand} {o : Uuid}
    (h : db.ServiceReconciled env db' command o) :
    (∃ row, db'.services.lookup command.operation.serviceInstanceId = some row ∧
      row.organizationId = command.operation.organizationId ∧
      row.projectId = command.operation.projectId ∧ row.name = command.name ∧
      row.desiredGeneration = command.generation ∧ row.desiredSpec = command.spec.toValue ∧
      row.phase = .ready) ∧
    ∀ s, s ≠ command.operation.serviceInstanceId →
      db'.services.lookup s = db.services.lookup s := by
  rcases h with ⟨-, hi⟩ | ⟨old, hl, ⟨ho, hp, -, -⟩, hu⟩
  · refine ⟨⟨_, Table.lookup_inserted hi, rfl, rfl, rfl, rfl, rfl, rfl⟩, fun s hs => ?_⟩
    rw [Table.lookup_insert hi, if_neg fun heq => hs heq.symm]
  · refine ⟨⟨_, Table.lookup_updated hu (fun _ => rfl) hl, ho, hp, rfl, rfl, rfl, rfl⟩,
      fun s hs => ?_⟩
    rw [Table.lookup_update_key hu fun _ => rfl, if_neg hs]

section Reconciled
variable {command : ReconcileCommand} {physicalBucketId : String}
  (hm : db.Matched) (h : call.exec store env db = .ok ((), db'))
  (hcomp : call.completion = .reconcile command physicalBucketId)

include h hcomp in
theorem registry_services_reconciled :
    db'.registry.services = Function.update db.registry.services
      command.operation.serviceInstanceId (some (command.service physicalBucketId)) := by
  obtain ⟨hs, hb⟩ := reconcile_applied h hcomp
  obtain ⟨⟨row, hl, ho, hp, hn, hg, hspec, hphase⟩, hother⟩ := hs.written
  obtain ⟨⟨bucket, hbucket, hpid, -⟩, hothers⟩ := hb.lookup
  funext s
  by_cases heq : s = command.operation.serviceInstanceId
  · subst heq
    rw [Function.update_self]
    have hdesired : SyouyuSpec.fromValue row.desiredSpec = some command.spec := by
      rw [hspec, SyouyuSpec.fromValue_toValue]
    simp only [Database.registry, hl, hbucket, Option.bind_eq_bind, Option.bind_some,
      listed_service hdesired hpid, ReconcileCommand.service, ho, hp, hn, hg, hphase]
    rfl
  · rw [Function.update_of_ne heq]
    simp only [Database.registry, hother s heq, hothers s heq]

include hm h hcomp in
/-- the constraints of the tables keep names and buckets of different services apart -/
theorem registry_free :
    db.registry.Free command.operation.serviceInstanceId (command.service physicalBucketId) := by
  obtain ⟨hs, hb⟩ := reconcile_applied h hcomp
  obtain ⟨⟨row, hl, -, hp, hn, -⟩, hother⟩ := hs.written
  obtain ⟨⟨bucket, hbucket, hpid, hspec⟩, hothers⟩ := hb.lookup
  have hrow : ∀ {s other}, s ≠ command.operation.serviceInstanceId →
      db.services.lookup s = some other →
      ¬ (other.projectId = row.projectId ∧ other.name = row.name) := by
    rintro s other hne hl' ⟨hproject, hname⟩
    rw [← hother s hne] at hl'
    have hsame := db'.services.eq_of_unique (Table.lookup_mem hl') (Table.lookup_mem hl)
      (by simp [serviceSchema, hproject, hname])
    exact hne ((Table.lookup_key hl').symm.trans (hsame ▸ Table.lookup_key hl))
  have hapart : ∀ {s other}, s ≠ command.operation.serviceInstanceId →
      db.buckets.lookup s = some other → bucketSchema.unique other bucket = false := by
    intro s other hne hl'
    rw [← hothers s hne] at hl'
    refine Bool.eq_false_iff.mpr fun hunique => hne ?_
    have hsame := db'.buckets.eq_of_unique (Table.lookup_mem hl') (Table.lookup_mem hbucket) hunique
    exact (Table.lookup_key hl').symm.trans (hsame ▸ Table.lookup_key hbucket)
  constructor
  · intro s other hne hother hproject hname
    obtain ⟨r, _, _, hl', -, -, -, rfl⟩ := hm.service_rows hother
    exact hrow hne hl' ⟨hproject.trans hp.symm, hname.trans hn.symm⟩
  · intro s other hne hother hname
    obtain ⟨_, b, _, -, hl', -, -, rfl⟩ := hm.service_rows hother
    have hunique := hapart hne hl'
    simp only [bucketSchema, Bool.or_eq_false_iff, decide_eq_false_iff_not] at hunique
    exact hunique.2 (hname.trans (congrArg SyouyuSpec.bucketName hspec).symm)
  · intro s other hne hother hid
    obtain ⟨_, b, _, -, hl', hb', -, rfl⟩ := hm.service_rows hother
    have hunique := hapart hne hl'
    rw [bucketSchema, Bool.or_eq_false_iff] at hunique
    obtain rfl : _ = physicalBucketId := hid
    simp [hb', hpid] at hunique

/-- what a reconciliation found is what it may replace -/
theorem Database.ReconcileTarget.precedes {existing : Option String} {applied : Bool}
    (hm : db.Matched) (htarget : db.ReconcileTarget command existing applied)
    (hpid : applied = true → existing = some physicalBucketId) {old : Registry.Service}
    (hold : db.registry.services command.operation.serviceInstanceId = some old) :
    old.Precedes (command.service physicalBucketId) := by
  obtain ⟨row, bucket, b, hl, hbucket, hb, hspec, rfl⟩ := hm.service_rows hold
  rcases htarget with ⟨hnone, -⟩ | ⟨row', bucket', hl', ho, hp, hlive, hle, hbucket', hname, hex, hgen⟩
  · rw [hl] at hnone
    cases hnone
  · obtain rfl := Option.some.inj (hl.symm.trans hl')
    obtain rfl := Option.some.inj (hbucket.symm.trans hbucket')
    refine ⟨decide_eq_true hlive, ho, hp, hname.symm, ?_⟩
    rcases hgen with ⟨hg, hsame, hn, -, -, happlied⟩ | ⟨hg, -⟩
    · -- the same generation is the same desired state, in the bucket it was given before
      left
      have hid : b = physicalBucketId := by
        rw [hpid happlied, hb] at hex
        exact (Option.some.inj hex).symm
      rw [hsame] at hspec
      simp only [ReconcileCommand.service, ho, hp, hn, hg, hid, Option.some.inj hspec,
        decide_eq_true hlive]
    · right
      refine lt_of_le_of_ne (Int64.le_iff_toInt_le.mp hle) fun heq => hg ?_
      exact (Int64.toInt_inj.mp heq).symm

include hm h hcomp in
/-- **a completed reconciliation registers the service, or its next generation** -/
theorem registry_reconciled {existing : Option String} {applied : Bool} {limits : CredentialLimits}
    (hfailed : call.response.failed = false)
    (htarget : db.ReconcileTarget command existing applied)
    (hpid : applied = true → existing = some physicalBucketId) :
    Registry.Step limits db.registry ⟨call.operation.idempotencyKey,
      .reconcile command.operation.serviceInstanceId (command.service physicalBucketId)⟩
      db'.registry := by
  have hcredentials : db'.credentials = db.credentials := by
    cases finish_credentials h with
    | same heq _ => exact heq
    | created hc => cases hcomp.symm.trans hc
    | revokedAll hc => cases hcomp.symm.trans hc
    | revoked hc => cases hcomp.symm.trans hc
    | released hc => cases hcomp.symm.trans hc
  refine registry_step h hfailed ?_
  have happly := @Registry.Apply.reconcile limits db.registry _
    (command.service physicalBucketId) rfl (registry_free hm h hcomp)
    fun old hold => htarget.precedes hm hpid hold
  convert happly using 1
  refine Registry.ext (registry_services_reconciled h hcomp) ?_ rfl
  funext id
  simp only [Database.registry, hcredentials]

end Reconciled

/-- what a deletion leaves of a credential -/
theorem listed_dropped {s principal : Uuid} {row : CredentialRow} :
    (Table.touch (fun r => decide (r.serviceInstanceId = s) && decide (r.status = .active))
      (PgStore.revokedCredential env principal) row).listed =
      row.listed.map (Registry.Credential.after s) := by
  simp only [Table.touch, CredentialRow.listed, Option.bind_eq_bind, Option.pure_def]
  by_cases hs : row.serviceInstanceId = s
  · by_cases hactive : row.status = .active
    · simp only [hs, hactive, decide_true, Bool.and_self, if_true, PgStore.revokedCredential,
        Option.map_bind, Function.comp_def, Option.map_some, Registry.Credential.after,
        Registry.Credential.dropped]
      rfl
    · simp [hs, hactive, Option.map_bind, Registry.Credential.after,
        Registry.Credential.dropped]
  · simp [hs, Option.map_bind, Registry.Credential.after]

/-- **a completed deletion retires the service and drops its credentials** -/
theorem registry_deleted {command : DeleteCommand} {limits : CredentialLimits} (hm : db.Matched)
    (h : call.exec store env db = .ok ((), db')) (hcomp : call.completion = .delete command)
    (hfailed : call.response.failed = false) (hfacts : (PrepareCall.delete command).Facts db) :
    Registry.Step limits db.registry
      ⟨call.operation.idempotencyKey, .delete command.operation.serviceInstanceId⟩
      db'.registry := by
  obtain ⟨row, hl, ⟨-, -, hlive⟩, hu, hbuckets⟩ := delete_applied h hcomp
  obtain ⟨bucket, b, hbucket, hb, hspec, hservice⟩ := hm.registry_service hl
  have hcredentials : db.credentials.updateWhere
      (fun r => decide (r.serviceInstanceId = command.operation.serviceInstanceId) &&
        decide (r.status = .active))
      (PgStore.revokedCredential env command.operation.principalId) = .ok db'.credentials := by
    obtain ⟨-, -, db₁, _, _, _, hbefore, -, -, -, -, rfl⟩ := finish_eq_ok.mp h
    rw [hcomp] at hbefore ⊢
    obtain ⟨_, _, _, hrevoked, -, -, -, rfl⟩ := applyDelete_eq_ok.mp hbefore
    exact hrevoked
  refine registry_step h hfailed ?_
  have happly := @Registry.Apply.delete limits _ _ _ hservice (decide_eq_true hlive)
  convert happly using 1
  refine Registry.ext (funext fun s => ?_) (funext fun id => ?_) rfl
  · dsimp only
    by_cases heq : s = command.operation.serviceInstanceId
    · subst heq
      rw [Function.update_self]
      simp only [Database.registry, Table.lookup_updated hu (fun _ => rfl) hl, hbuckets, hbucket,
        Option.bind_eq_bind, Option.bind_some]
      have hkept : SyouyuSpec.fromValue
          (PgStore.deletedService env command call.operationId row).desiredSpec =
            some bucket.record.spec := hspec
      rw [listed_service hkept hb]
      simp only [PgStore.deletedService, Registry.Service.retired, delete_raises hfacts hl]
      rfl
    · rw [Function.update_of_ne heq]
      simp only [Database.registry, hbuckets, Table.lookup_update_key hu fun _ => rfl, if_neg heq]
  · simp only [Database.registry, Table.lookup_updateWhere hcredentials fun _ => rfl]
    cases db.credentials.lookup id with
    | none => rfl
    | some row => exact listed_dropped

/-- the active credentials of the registry are counted by the rows -/
theorem registry_active_le {P : Registry.Credential → Prop} {q : CredentialRow → Bool}
    (hq : ∀ row permissions, P ⟨row.serviceInstanceId, row.organizationId, row.name,
      row.garageKeyId, permissions, true⟩ → row.status = .active → q row = true) :
    (db.registry.active P).encard ≤ db.credentials.count q := by
  rw [← Table.encard_lookup]
  refine Set.encard_le_encard fun id hid => ?_
  obtain ⟨credential, hlisted, hactive, hP⟩ := hid
  obtain ⟨row, permissions, hl, -, rfl⟩ := registry_credential.mp hlisted
  change decide (row.status = .active) = true at hactive
  have hstatus : row.status = .active := of_decide_eq_true hactive
  rw [hactive] at hP
  exact ⟨row, hl, hq row permissions hP hstatus⟩

/-- a reservation keeps room for the credential it was made for -/
theorem registry_room {command : CreateCredentialCommand} {garageKeyId : String}
    {limits : CredentialLimits} (hlimits : db.WithinLimits limits)
    {reservation : CredentialReservationRow} (hmem : reservation ∈ db.credentialReservations.rows)
    (hs : reservation.serviceInstanceId = command.operation.serviceInstanceId)
    (ho : reservation.organizationId = command.operation.organizationId) :
    db.registry.Room limits (command.credential garageKeyId) := by
  constructor
  · have hone : 0 < db.credentialReservations.count (fun r =>
        decide (r.serviceInstanceId = command.operation.serviceInstanceId)) :=
      Table.count_pos.mpr ⟨reservation, hmem, decide_eq_true hs⟩
    have hle := hlimits.bucket command.operation.serviceInstanceId
    unfold Database.perBucket at hle
    refine lt_of_le_of_lt (registry_active_le (q := fun r =>
      decide (r.serviceInstanceId = command.operation.serviceInstanceId) &&
        decide (r.status = .active)) fun row _ hP hstatus => ?_) (by exact_mod_cast by omega)
    rw [hstatus, show row.serviceInstanceId = command.operation.serviceInstanceId from hP]
    simp
  · have hone : 0 < db.credentialReservations.count (fun r =>
        decide (r.organizationId = command.operation.organizationId)) :=
      Table.count_pos.mpr ⟨reservation, hmem, decide_eq_true ho⟩
    have hle := hlimits.organization command.operation.organizationId
    unfold Database.perOrganization at hle
    refine lt_of_le_of_lt (registry_active_le (q := fun r =>
      decide (r.organizationId = command.operation.organizationId) &&
        decide (r.status = .active)) fun row _ hP hstatus => ?_) (by exact_mod_cast by omega)
    rw [hstatus, show row.organizationId = command.operation.organizationId from hP]
    simp

/-- **a completed creation issues the credential** -/
theorem registry_issued {command : CreateCredentialCommand} {credential : NewCredential}
    {limits : CredentialLimits} (hm : db.Matched) (hlimits : db.WithinLimits limits)
    (h : call.exec store env db = .ok ((), db'))
    (hcomp : call.completion = .createCredential command credential)
    (hfailed : call.response.failed = false)
    (hfacts : (PrepareCall.createCredential command).Facts db) :
    Registry.Step limits db.registry ⟨call.operation.idempotencyKey,
      .issue credential.id (command.credential credential.garageKeyId)⟩ db'.registry := by
  obtain ⟨service, row, hl, horg, -, hphase, -⟩ := hfacts
  obtain ⟨_, _, -, -, -, hservice⟩ := hm.registry_service hl
  have hlive : service.phase ≠ .deleted := by
    rw [hphase]
    decide
  obtain ⟨hpre, -, db₁, _, _, _, hbefore, -, -, -, -, rfl⟩ := finish_eq_ok.mp h
  rw [hcomp] at hpre hbefore
  obtain ⟨-, reservation, c, hreserved, ⟨-, hrs, -⟩, hscope, hi, rfl⟩ :=
    applyCreateCredential_eq_ok.mp hbefore
  simp only [Completion.precheck, Bool.and_eq_true, decide_eq_true_eq] at hpre
  obtain ⟨⟨-, hname⟩, hpermissions⟩ := hpre
  have hro : reservation.organizationId = command.operation.organizationId :=
    (scope_unique (hrs ▸ hlimits.rowScopes.reservations _ (Table.lookup_mem hreserved)) hscope).1
  have hapart : ∀ {id : Uuid} {row : CredentialRow}, db.credentials.lookup id = some row →
      credentialSchema.unique row (PgStore.createdCredential env command credential) = false := by
    intro id row hrow
    exact (Schema.clash_eq_false.mp
      ((Table.insert_eq_ok.mp hi).2.1 row (Table.lookup_mem hrow))).2
  have hunused : db.registry.Unused (command.credential credential.garageKeyId) := by
    constructor
    · intro id other hother hservice hname'
      obtain ⟨row, _, hrow, -, rfl⟩ := registry_credential.mp hother
      have hunique := hapart hrow
      simp only [credentialSchema, Bool.or_eq_false_iff] at hunique
      have hsame := hunique.2
      rw [show row.serviceInstanceId = _ from hservice, show row.name = command.name from hname',
        PgStore.createdCredential, hname] at hsame
      simp [CreateCredentialCommand.credential] at hsame
    · intro id other hother hkey
      obtain ⟨row, _, hrow, -, rfl⟩ := registry_credential.mp hother
      have hunique := hapart hrow
      simp only [credentialSchema, Bool.or_eq_false_iff, decide_eq_false_iff_not] at hunique
      exact hunique.1.1 hkey
  have hfresh : db.registry.credentials credential.id = none := by
    have hnone : db.credentials.lookup credential.id = none := Table.lookup_fresh hi
    simp only [Database.registry, hnone, Option.bind_eq_bind, Option.bind_none]
  refine registry_step h hfailed ?_
  have happly := @Registry.Apply.issue limits _ credential.id
    (command.credential credential.garageKeyId) _ hservice
    (decide_eq_true hlive) horg.symm rfl hfresh hunused
    (registry_room hlimits (Table.lookup_mem hreserved) hrs hro)
  convert happly using 1
  refine Registry.ext (by simp only [Database.registry, Completion.settle, hcomp])
    (funext fun id => ?_) rfl
  have hlookup : c.lookup id = if credential.id = id then
      some (PgStore.createdCredential env command credential) else db.credentials.lookup id :=
    Table.lookup_insert hi id
  simp only [Database.registry, Completion.settle, hcomp, hlookup]
  by_cases heq : id = credential.id
  · subst heq
    rw [Function.update_self, if_pos rfl]
    simp only [Option.bind_eq_bind, Option.bind_some, CredentialRow.listed,
      PgStore.createdCredential, BucketPermissions.fromValue_toValue, Option.pure_def, hname,
      hpermissions]
    rfl
  · rw [Function.update_of_ne heq, if_neg fun hkey => heq hkey.symm]

/-- **a completed revocation drops the credential** -/
theorem registry_revoked {command : RevokeCredentialCommand} {limits : CredentialLimits}
    (hm : db.Matched)
    (hdecode : ∀ c ∈ db.credentials.rows, (BucketPermissions.fromValue c.permissions).isSome = true)
    (h : call.exec store env db = .ok ((), db'))
    (hcomp : call.completion = .revokeCredential command)
    (hfailed : call.response.failed = false)
    (hfacts : (PrepareCall.revokeCredential command).Facts db) :
    Registry.Step limits db.registry ⟨call.operation.idempotencyKey,
      .revoke command.operation.serviceInstanceId command.credentialId⟩ db'.registry := by
  obtain ⟨⟨service, row, hl, -, -, hphase, -⟩, -⟩ := hfacts
  obtain ⟨_, _, -, -, -, hservice⟩ := hm.registry_service hl
  have hlive : service.phase ≠ .deleted := by
    rw [hphase]
    decide
  obtain ⟨-, -, db₁, _, _, _, hbefore, -, -, -, -, rfl⟩ := finish_eq_ok.mp h
  rw [hcomp] at hbefore
  obtain ⟨c, old, hold, hs, hu, rfl⟩ := applyRevokeCredential_eq_ok.mp hbefore
  obtain ⟨permissions, hpermissions⟩ :=
    Option.isSome_iff_exists.mp (hdecode old (Table.lookup_mem hold))
  refine registry_step h hfailed ?_
  have happly := @Registry.Apply.revoke limits _ _ _ _ _ hservice (decide_eq_true hlive)
    (registry_credential.mpr ⟨old, permissions, hold, hpermissions, rfl⟩) hs
  convert happly using 1
  refine Registry.ext (by simp only [Database.registry, Completion.settle, hcomp])
    (funext fun id => ?_) rfl
  simp only [Database.registry, Completion.settle, hcomp, Table.lookup_update_key hu fun _ => rfl]
  by_cases heq : id = command.credentialId
  · subst heq
    rw [Function.update_self, if_pos rfl, hold]
    simp only [Option.bind_eq_bind, Option.map_some, Option.bind_some, CredentialRow.listed,
      PgStore.revokedCredential, hpermissions, Option.pure_def]
    rfl
  · rw [Function.update_of_ne heq, if_neg heq]

end

end Syouyu
