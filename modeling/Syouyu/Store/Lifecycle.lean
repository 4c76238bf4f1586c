import Syouyu.Store.Idempotency
import Syouyu.Store.Limits

/-!
# The life of a service

* `held_untouched`      while a receipt of a service is held, no call changes the service row, the
                        credentials of the service, or its bucket row but for usage;
* `PrepareCall.Facts`   what a prepare call checked; so it still holds when the call completes;
* `HandlerStep`         a step made as the handlers make them: a completing call carries the
                        command and the operation id of an answer that asked for execution;
* `Session.Sound`       the invariant of such runs;
* `service_lifecycle`   scope and bucket name are fixed, generations only grow and determine the
                        desired state, deletion is final.
-/

set_option linter.unusedSectionVars false

namespace Syouyu
open Lib

section
variable {store : PgStore} {env : CallEnv} {db db' : Database} {r : CallRecord}

/-! ## exclusion, step by step -/

theorem exclusive_iff_ledger :
    db.Exclusive ↔ Lease.Exclusive OperationRequest.serviceInstanceId (ledger db.receipts) := by
  refine ⟨fun h j e he hheld j' e' he' hheld' hres => ?_, exclusive_of_ledger⟩
  obtain ⟨a, hla, rfl⟩ := ledger_eq_some.mp he
  obtain ⟨b, hlb, rfl⟩ := ledger_eq_some.mp he'
  have hab := h b (Table.lookup_mem hlb) a (Table.lookup_mem hla) hres
    ((entry_held hlb).mp hheld') ((entry_held hla).mp hheld)
  rw [← Table.lookup_key hla, ← Table.lookup_key hlb, hab]

theorem Database.Exclusive.step (hx : db.Exclusive) (h : StoreStep store db r db') :
    db'.Exclusive :=
  exclusive_iff_ledger.mpr ((step_ledger h).exclusive (exclusive_iff_ledger.mp hx))

theorem Database.Exclusive.empty : Database.empty.Exclusive := by
  intro a ha
  cases ha

/-! ## a held receipt protects its service -/

/-- the bucket row without its usage -/
def BucketRow.unmeasured (row : BucketRow) : BucketRow :=
  { row with usedBytes := 0, usedObjects := 0, usageMeasuredAt := none, updatedAt := 0 }

/-- service row, bucket row but for usage, and credentials of the service are the same -/
structure Database.Untouched (db db' : Database) (s : Uuid) : Prop where
  service : db'.services.lookup s = db.services.lookup s
  bucket : (db'.buckets.lookup s).map BucketRow.unmeasured =
    (db.buckets.lookup s).map BucketRow.unmeasured
  credentials : db'.credentials.select (fun c => decide (c.serviceInstanceId = s)) =
    db.credentials.select (fun c => decide (c.serviceInstanceId = s))

/-- the receipt of the key is held -/
def Database.Busy (db : Database) (k s : Uuid) : Prop :=
  ∃ row, db.receipts.lookup k = some row ∧ row.state = .inProgress ∧ row.serviceInstanceId = s

/-- a call that finishes while another receipt stays held is for another service -/
theorem finish_elsewhere {call : FinishCall} {u : Unit} {k s : Uuid} (hx : db.Exclusive)
    (h : call.exec store env db = .ok (u, db')) (hb : db.Busy k s) (hb' : db'.Busy k s) :
    call.operation.serviceInstanceId ≠ s := by
  rintro rfl
  obtain ⟨row, hl, hs, hrs⟩ := hb
  obtain ⟨-, ⟨held, hl', hq, -, hs'⟩, -⟩ := finish_eq_ok.mp h
  have hsame : held = row := hx held (Table.lookup_mem hl') row (Table.lookup_mem hl)
    ((congrArg OperationRequest.serviceInstanceId hq).trans hrs.symm) hs' hs
  have hk : call.operation.idempotencyKey = k := by
    rw [← Table.lookup_key hl', hsame, Table.lookup_key hl]
  obtain ⟨done, hdone, hstate, -⟩ := finish_receipt h
  obtain ⟨row', hrow', hstate', -⟩ := hb'
  rw [hk, hrow'] at hdone
  exact hstate (Option.some.inj hdone ▸ hstate')

/-- the operation of a call that prepares or finishes one -/
def StoreCall.operation? : StoreCall → Option OperationRequest
  | .prepare call => some call.operation
  | .finish call => some call.operation
  | _ => none

theorem service_elsewhere {call : StoreCall} {s : Uuid} (h : ServiceChange env db db' call)
    (hne : ∀ finish, call = .finish finish →
      finish.completion.operation.serviceInstanceId ≠ s) :
    db'.services.lookup s = db.services.lookup s ∧
      (call.operation?.isSome → db'.buckets.lookup s = db.buckets.lookup s) ∧
      (db'.buckets.lookup s).map BucketRow.unmeasured =
        (db.buckets.lookup s).map BucketRow.unmeasured := by
  cases h with
  | same hs hb =>
    rw [hs, hb]
    exact ⟨rfl, fun _ => rfl, rfl⟩
  | @reconciled call command pid hcomp hs hb =>
    have hne' : command.operation.serviceInstanceId ≠ s := by
      simpa only [hcomp, Completion.operation] using hne call rfl
    have hservice : db'.services.lookup s = db.services.lookup s := by
      rcases hs with ⟨-, hi⟩ | ⟨_, -, -, hu⟩
      · rw [Table.lookup_insert hi]
        exact if_neg hne'
      · rw [Table.lookup_update_key hu (fun _ => rfl), if_neg (Ne.symm hne')]
    have hbucket : db'.buckets.lookup s = db.buckets.lookup s := by
      rcases hb with ⟨-, hi⟩ | ⟨-, hu⟩
      · rw [Table.lookup_insert hi]
        exact if_neg hne'
      · rw [Table.lookup_update_key hu (fun _ => rfl), if_neg (Ne.symm hne')]
    exact ⟨hservice, fun _ => hbucket, congrArg _ hbucket⟩
  | @deleted call command old hcomp _ _ _ _ hu hb =>
    have hne' : command.operation.serviceInstanceId ≠ s := by
      simpa only [hcomp, Completion.operation] using hne call rfl
    rw [Table.lookup_update_key hu (fun _ => rfl), if_neg (Ne.symm hne'), hb]
    exact ⟨rfl, fun _ => rfl, rfl⟩
  | @measured o p s' _ _ _ _ _ hs hu =>
    refine ⟨by rw [hs], nofun, ?_⟩
    rw [Table.lookup_update_key hu (fun _ => rfl)]
    split
    · rename_i hk
      subst hk
      cases db.buckets.lookup s <;> rfl
    · rfl

theorem credentials_elsewhere {call : StoreCall} {s : Uuid}
    (h : CredentialChange store env db db' call)
    (hne : ∀ finish, call = .finish finish →
      finish.completion.operation.serviceInstanceId ≠ s) :
    db'.credentials.select (fun c => decide (c.serviceInstanceId = s)) =
      db.credentials.select (fun c => decide (c.serviceInstanceId = s)) := by
  cases h with
  | same hc _ => rw [hc]
  | moved _ _ _ hc _ => rw [hc]
  | reserved _ _ _ hc _ => rw [hc]
  | @created call command credential _ hcomp _ _ _ _ _ hi _ =>
    have hne' : command.operation.serviceInstanceId ≠ s := by
      simpa only [hcomp, Completion.operation] using hne call rfl
    exact Table.select_insert hi (decide_eq_false hne')
  | @revokedAll call command hcomp hu _ =>
    have hne' : command.operation.serviceInstanceId ≠ s := by
      simpa only [hcomp, Completion.operation] using hne call rfl
    refine Table.select_updateWhere hu fun c _ hc => ?_
    rw [Bool.and_eq_true, decide_eq_true_eq] at hc
    have hcs : decide (c.serviceInstanceId = s) = false := decide_eq_false (hc.1 ▸ hne')
    exact ⟨hcs, hcs⟩
  | @revoked call command old hcomp hl hold hu _ =>
    have hne' : command.operation.serviceInstanceId ≠ s := by
      simpa only [hcomp, Completion.operation] using hne call rfl
    refine Table.select_updateWhere hu fun c hc hk => ?_
    obtain rfl : c = old := db.credentials.eq_of_key hc (Table.lookup_mem hl)
      ((Schema.hasKey_iff.mp hk).trans (Table.lookup_key hl).symm)
    have hcs : decide (c.serviceInstanceId = s) = false := decide_eq_false (hold ▸ hne')
    exact ⟨hcs, hcs⟩
  | released _ hc _ => rw [hc]

/-- the call finished an operation on the service -/
def CallRecord.Settles (r : CallRecord) (s : Uuid) : Prop :=
  ∃ env finish u, r = ⟨env, .finish finish, .ok u⟩ ∧ finish.operation.serviceInstanceId = s

/-- **only a call that finishes an operation on the service touches it** -/
theorem untouched_unless_settled {s : Uuid} (h : StoreStep store db r db') (hr : ¬ r.Settles s) :
    db.Untouched db' s := by
  obtain ⟨env, call, answer⟩ := r
  cases answer with
  | error e =>
    obtain rfl := step_error h
    exact ⟨rfl, rfl, rfl⟩
  | ok a =>
    have hne : ∀ finish, call = .finish finish →
        finish.completion.operation.serviceInstanceId ≠ s := by
      rintro finish rfl hs
      exact hr ⟨env, finish, a, rfl, hs⟩
    obtain ⟨hs, -, hbk⟩ := service_elsewhere (service_change h) hne
    exact ⟨hs, hbk, credentials_elsewhere (credential_change h) hne⟩

/-- a step over which a receipt of the service stays held finishes no operation on it -/
theorem held_not_settled {k s : Uuid} (hx : db.Exclusive) (h : StoreStep store db r db')
    (hb : db.Busy k s) (hb' : db'.Busy k s) : ¬ r.Settles s := by
  rintro ⟨env, finish, u, rfl, hs⟩
  exact finish_elsewhere hx (step_finished h) hb hb' hs

/-- **while a receipt of the service is held, no step touches the service** -/
theorem held_untouched {k s : Uuid} (hx : db.Exclusive) (h : StoreStep store db r db')
    (hb : db.Busy k s) (hb' : db'.Busy k s) : db.Untouched db' s :=
  untouched_unless_settled h (held_not_settled hx h hb hb')

/-! ## what a prepare call has checked -/

/-- the checks of a prepare call on the service, its bucket and its credentials -/
def PrepareCall.Facts (db : Database) : PrepareCall → Prop
  | .reconcile command => ∃ physicalBucketId applied,
      db.ReconcileTarget command physicalBucketId applied
  | .delete command => ∃ service, db.services.lookup command.operation.serviceInstanceId =
      some service ∧ command.operation.organizationId = service.organizationId ∧
      command.operation.projectId = service.projectId ∧ service.phase ≠ .deleted ∧
      checkedSucc service.desiredGeneration = some command.generation
  | .createCredential command => ∃ service row, db.Ready command.operation service row
  | .revokeCredential command => (∃ service row, db.Ready command.operation service row) ∧
      ∃ credential, db.credentials.lookup command.credentialId = some credential ∧
        credential.serviceInstanceId = command.operation.serviceInstanceId

/-- the row of a service is looked up by its key and seen without usage -/
theorem bucket_untouched {s : Uuid} {row : BucketRow}
    (h : (db'.buckets.lookup s).map BucketRow.unmeasured =
      (db.buckets.lookup s).map BucketRow.unmeasured) (hl : db.buckets.lookup s = some row) :
    ∃ row', db'.buckets.lookup s = some row' ∧ row'.unmeasured = row.unmeasured := by
  rw [hl] at h
  cases hl' : db'.buckets.lookup s with
  | none => rw [hl'] at h; cases h
  | some row' =>
    rw [hl'] at h
    exact ⟨row', rfl, Option.some.inj h⟩

theorem unmeasured_fields {a b : BucketRow} (h : a.unmeasured = b.unmeasured) :
    a.bucketName = b.bucketName ∧ a.physicalBucketId = b.physicalBucketId := by
  have h1 := congrArg BucketRow.bucketName h
  have h2 := congrArg BucketRow.physicalBucketId h
  exact ⟨h1, h2⟩

theorem Database.Untouched.ready {operation : OperationRequest}
    (hu : db.Untouched db' operation.serviceInstanceId)
    (h : ∃ service row, db.Ready operation service row) :
    ∃ service row, db'.Ready operation service row := by
  obtain ⟨service, row, hl, ho, hp, hr, hg, hb, hphys⟩ := h
  obtain ⟨row', hb', hsame⟩ := bucket_untouched hu.bucket hb
  exact ⟨service, row', hu.service.trans hl, ho, hp, hr, hg, hb',
    (unmeasured_fields hsame).2 ▸ hphys⟩

/-- **what was checked holds as long as the service is untouched** -/
theorem PrepareCall.Facts.untouched {call : PrepareCall}
    (hu : db.Untouched db' call.operation.serviceInstanceId) (h : call.Facts db) :
    call.Facts db' := by
  cases call with
  | reconcile command =>
    obtain ⟨pid, applied, ⟨hl, hp, ha⟩ | ⟨service, row, hl, ho, hp, hd, hg, hb, hn, hpid, happ⟩⟩ := h
    · exact ⟨pid, applied, .inl ⟨hu.service.trans hl, hp, ha⟩⟩
    · obtain ⟨row', hb', hsame⟩ := bucket_untouched hu.bucket hb
      obtain ⟨hname, hphys⟩ := unmeasured_fields hsame
      exact ⟨pid, applied, .inr ⟨service, row', hu.service.trans hl, ho, hp, hd, hg, hb',
        hname.trans hn, hpid.trans hphys.symm, happ⟩⟩
  | delete command =>
    obtain ⟨service, hl, hrest⟩ := h
    exact ⟨service, hu.service.trans hl, hrest⟩
  | createCredential command => exact hu.ready h
  | revokeCredential command =>
    obtain ⟨hready, credential, hl, hs⟩ := h
    refine ⟨hu.ready hready, credential, ?_, hs⟩
    have hmem : credential ∈ db'.credentials.select
        (fun c => decide (c.serviceInstanceId = command.operation.serviceInstanceId)) := by
      have hsel := hu.credentials
      rw [show db'.credentials.select (fun c =>
        decide (c.serviceInstanceId = command.operation.serviceInstanceId)) = _ from hsel]
      exact Table.mem_select.mpr ⟨Table.lookup_mem hl, decide_eq_true hs⟩
    rw [← Table.lookup_key hl]
    exact Table.lookup_of_mem (Table.mem_select.mp hmem).1

/-- **what was checked holds as long as the receipt is held** -/
theorem PrepareCall.Facts.run {call : PrepareCall} {tr : List CallRecord} {row row' : ReceiptRow}
    (hx : db.Exclusive) (h : Run (StoreStep store) db tr db')
    (hl : db.receipts.lookup call.operation.idempotencyKey = some row)
    (hreq : row.request = call.operation) (hfacts : call.Facts db)
    (hl' : db'.receipts.lookup call.operation.idempotencyKey = some row')
    (hs' : row'.state = .inProgress) : call.Facts db' := by
  -- a receipt that is held at the end was held all along
  have hheld : ∀ {d : Database} {tr : List CallRecord} {q : ReceiptRow},
      Run (StoreStep store) d tr db' →
      d.receipts.lookup call.operation.idempotencyKey = some q → q.state = .inProgress := by
    intro d tr q hrun hq
    obtain ⟨q', hq', -, hdone⟩ := receipt_kept hrun hq
    by_contra hne
    rw [hl'] at hq'
    exact hne (hdone hne ▸ Option.some.inj hq' ▸ hs')
  induction h generalizing row with
  | nil => exact hfacts
  | cons hstep hrun ih =>
    obtain ⟨row₁, hl₁, hreq₁, -⟩ := receipt_kept (.single hstep) hl
    have hservice : row.serviceInstanceId = call.operation.serviceInstanceId :=
      congrArg OperationRequest.serviceInstanceId hreq
    have hservice₁ : row₁.serviceInstanceId = call.operation.serviceInstanceId :=
      congrArg OperationRequest.serviceInstanceId (hreq₁.trans hreq)
    have hu := held_untouched hx hstep ⟨row, hl, hheld (.cons hstep hrun) hl, hservice⟩
      ⟨row₁, hl₁, hheld hrun hl₁, hservice₁⟩
    exact ih (hx.step hstep) hl₁ (hreq₁.trans hreq) (hfacts.untouched hu) hl' hheld

/-- a call that is to be executed has checked its facts, and they hold after it -/
theorem prepare_facts {call : PrepareCall} {o : Uuid} {context : call.Context}
    (h : call.exec store env db = .ok (.execute o context, db')) : call.Facts db' := by
  have hfacts : call.Facts db := by
    obtain ⟨-, claimed, db₁, hc, hb⟩ := prepare_body h
    cases call with
    | reconcile command =>
      obtain ⟨-, -, ⟨pid, applied, ht, -⟩, -⟩ := reconcile_prepared hc hb
      exact ⟨pid, applied, ht⟩
    | delete command =>
      obtain ⟨-, -, ⟨service, row, hl, ho, hp, hd, hsucc, -⟩, -⟩ := delete_prepared hc hb
      exact ⟨service, hl, ho, hp, hd, hsucc⟩
    | createCredential command =>
      obtain ⟨-, -, ⟨service, row, hready, -⟩, -⟩ := create_prepared hc hb
      exact ⟨service, row, hready⟩
    | revokeCredential command =>
      obtain ⟨-, -, hready, ⟨credential, hl, hs, -⟩, -⟩ := revoke_prepared hc hb
      exact ⟨hready, credential, hl, hs⟩
  obtain ⟨hs, hb, -⟩ := prepare_names h
  refine hfacts.untouched ⟨by rw [hs], by rw [hb], ?_⟩
  rw [prepare_keeps_credentials h]

/-- the facts of a prepare call are about a service that is not deleted -/
theorem PrepareCall.Facts.live {call : PrepareCall} (h : call.Facts db) {service : ServiceRow}
    (hl : db.services.lookup call.operation.serviceInstanceId = some service) :
    service.phase ≠ .deleted := by
  have hready : ∀ {operation : OperationRequest},
      db.services.lookup operation.serviceInstanceId = some service →
      (∃ service row, db.Ready operation service row) → service.phase ≠ .deleted := by
    rintro operation hl ⟨service', row, hl', -, -, hr, -⟩
    obtain rfl : service' = service := Option.some.inj (hl'.symm.trans hl)
    rw [hr]
    nofun
  cases call with
  | reconcile command =>
    obtain ⟨pid, applied, ⟨hnone, -⟩ | ⟨service', row, hl', -, -, hd, -⟩⟩ := h
    · exact absurd_none_some hnone hl
    · exact Option.some.inj (hl'.symm.trans hl) ▸ hd
  | delete command =>
    obtain ⟨service', hl', -, -, hd, -⟩ := h
    exact Option.some.inj (hl'.symm.trans hl) ▸ hd
  | createCredential command => exact hready hl h
  | revokeCredential command => exact hready hl h.1

/-! ## where held receipts come from -/

/-- the command and operation id of an answer that asks for execution -/
def CallRecord.grant : CallRecord → Option (PrepareCall × Uuid)
  | ⟨_, .prepare call, answer⟩ => (executedId (α := call.Context) answer).map fun o => (call, o)
  | _ => none

/-- a grant is an answer of its prepare call -/
theorem grant_executed {call : PrepareCall} {o : Uuid} (hg : r.grant = some (call, o)) :
    ∃ env context, r = ⟨env, .prepare call, .ok (.execute o context)⟩ := by
  obtain ⟨env, rcall, answer⟩ := r
  cases rcall with
  | prepare prepare =>
    cases answer with
    | error e => cases hg
    | ok answer =>
      cases answer with
      | replay response => cases hg
      | inProgress => cases hg
      | execute operationId context =>
        cases hg
        exact ⟨env, context, rfl⟩
  | _ => cases hg

theorem grant_exec (h : StoreStep store db r db') {call : PrepareCall} {o : Uuid}
    (hg : r.grant = some (call, o)) :
    ∃ context, call.exec store r.env db = .ok (.execute o context, db') := by
  obtain ⟨env, context, rfl⟩ := grant_executed hg
  exact ⟨context, step_ok h⟩

/-- a held receipt was held before, or was granted in this very step to a call whose facts hold -/
theorem receipt_origin (h : StoreStep store db r db') {q : ReceiptRow}
    (hq : q ∈ db'.receipts.rows) (hs : q.state = .inProgress) :
    (∃ q₀ ∈ db.receipts.rows, q₀.request = q.request ∧ q₀.state = .inProgress) ∨
    ∃ call, r.grant = some (call, q.operationId) ∧ call.operation = q.request ∧
      call.Facts db' := by
  have htouch : ∀ {k : Uuid} {f : ReceiptRow → ReceiptRow} {t : Table receiptSchema},
      db.receipts.updateWhere (receiptSchema.hasKey k) f = .ok t → q ∈ t.rows →
      (∀ q₀, (f q₀).request = q₀.request ∧ ((f q₀).state = .inProgress → q₀.state = .inProgress)) →
      ∃ q₀ ∈ db.receipts.rows, q₀.request = q.request ∧ q₀.state = .inProgress := by
    intro k f t ht hq hf
    obtain ⟨q₀, hq₀, rfl⟩ := (Table.mem_updateWhere ht).mp hq
    refine ⟨q₀, hq₀, ?_⟩
    unfold Table.touch at hs ⊢
    split at hs
    · rename_i hk
      rw [if_pos hk]
      exact ⟨(hf q₀).1.symm, (hf q₀).2 hs⟩
    · rename_i hk
      rw [if_neg hk]
      exact ⟨rfl, hs⟩
  cases step_cases h with
  | quiet _ => exact .inl ⟨q, hq, rfl, hs⟩
  | @executed env call o context _ h =>
    obtain ⟨-, -, db₁, hg, hr⟩ := prepare_executed h
    rw [hr] at hq
    cases hg with
    | new hl hi =>
      rcases (Table.mem_insert hi).mp hq with hq | rfl
      · exact .inl ⟨q, hq, rfl, hs⟩
      · have ho : o = env.operationId := (prepare_executed h).1
        exact .inr ⟨call, ho ▸ rfl, rfl, prepare_facts h⟩
    | takeover _ _ _ _ ht =>
      obtain ⟨t, u, ht, -, rfl⟩ := ht
      exact .inl (htouch ht hq fun _ => ⟨rfl, fun hp => hp⟩)
  | finished h =>
    obtain ⟨-, -, db₁, sealed, t, a, -, -, ht, -, -, rfl⟩ := finish_eq_ok.mp h
    refine .inl (htouch ht hq fun _ => ⟨rfl, fun hp => ?_⟩)
    exact absurd hp (finished_done _ _ _ _)
  | renewed h =>
    obtain ⟨-, -, t, ht, rfl⟩ := renewOperation_eq_ok.mp h
    exact .inl (htouch ht hq fun _ => ⟨rfl, fun hp => hp⟩)
  | measured h =>
    obtain ⟨_, _, _, _, _, -, -, -, -, -, rfl⟩ := recordUsage_ok h
    exact .inl ⟨q, hq, rfl, hs⟩
  | audited h =>
    obtain ⟨-, _, -, rfl⟩ := insertAudit_eq_ok.mp h
    exact .inl ⟨q, hq, rfl, hs⟩

/-! ## buckets are kept -/

theorem bucket_kept (h : StoreStep store db r db') {s : Uuid} {row : BucketRow}
    (hl : db.buckets.lookup s = some row) (hp : row.physicalBucketId.isSome = true) :
    ∃ row', db'.buckets.lookup s = some row' ∧ row'.physicalBucketId.isSome = true := by
  obtain ⟨env, call, answer⟩ := r
  cases service_change h with
  | same _ hb => exact ⟨row, hb ▸ hl, hp⟩
  | reconciled _ _ hb =>
    rcases hb with ⟨hnone, hi⟩ | ⟨-, hu⟩
    · refine ⟨row, ?_, hp⟩
      rw [Table.lookup_insert hi, ← hl]
      refine if_neg fun hk => ?_
      subst hk
      exact absurd_none_some hnone hl
    · rw [Table.lookup_update_key hu (fun _ => rfl)]
      split
      · rename_i hk
        subst hk
        rw [hl]
        exact ⟨_, rfl, rfl⟩
      · exact ⟨row, hl, hp⟩
  | deleted _ _ _ _ _ _ hb => exact ⟨row, hb ▸ hl, hp⟩
  | measured _ hu =>
    rw [Table.lookup_update_key hu (fun _ => rfl)]
    split
    · rename_i hk
      subst hk
      rw [hl]
      exact ⟨_, rfl, hp⟩
    · exact ⟨row, hl, hp⟩

/-! ## runs made as the handlers make them -/

end

/-- the prepare call whose command a completing call carries -/
def Completion.prepared : Completion → Option PrepareCall
  | .reconcile command _ => some (.reconcile command)
  | .delete command => some (.delete command)
  | .createCredential command _ => some (.createCredential command)
  | .revokeCredential command => some (.revokeCredential command)
  | .fail _ => none

/-- the database and every grant handed out so far -/
structure Session where
  db : Database
  granted : List (PrepareCall × Uuid)

def Session.start : Session := ⟨Database.empty, []⟩

/-- a completing call carries the command and the operation id of an earlier grant -/
def Session.mayCall (σ : Session) : StoreCall → Bool
  | .finish call => call.completion.prepared.all fun prepare =>
      decide ((prepare, call.operationId) ∈ σ.granted)
  | _ => true

/-- a store call made as the handlers make it: a completing call carries the command and the
operation id of an earlier grant -/
structure HandlerStep (store : PgStore) (σ : Session) (r : CallRecord) (σ' : Session) : Prop where
  step : StoreStep store σ.db r σ'.db
  granted : σ'.granted = σ.granted ++ r.grant.toList
  prepared : ∀ finish, r.call = .finish finish →
    ∀ prepare, finish.completion.prepared = some prepare →
      (prepare, finish.operationId) ∈ σ.granted

/-- the calls of a script, as long as every completing call carries an earlier grant -/
def Session.play (store : PgStore) : List (CallEnv × StoreCall) → Session →
    Option (List CallRecord × Session)
  | [], σ => some ([], σ)
  | (env, call) :: script, σ =>
    let r : CallRecord := ⟨env, call, (call.run store env σ.db).1⟩
    if σ.mayCall call then
      (Session.play store script
        ⟨(call.run store env σ.db).2, σ.granted ++ r.grant.toList⟩).map fun p => (r :: p.1, p.2)
    else none

theorem Session.mayCall_iff {σ : Session} {call : StoreCall} :
    σ.mayCall call = true ↔ ∀ finish, call = .finish finish →
      ∀ prepare, finish.completion.prepared = some prepare →
        (prepare, finish.operationId) ∈ σ.granted := by
  cases call with
  | finish finish =>
    cases hp : finish.completion.prepared with
    | none => simp [Session.mayCall, hp]
    | some prepare => simp [Session.mayCall, hp]
  | _ => simp [Session.mayCall]

/-- a script played so is a run of handlers -/
theorem Session.play_run {store : PgStore} {script : List (CallEnv × StoreCall)} {σ σ' : Session}
    {tr : List CallRecord} (h : Session.play store script σ = some (tr, σ')) :
    Run (HandlerStep store) σ tr σ' := by
  induction script generalizing σ tr with
  | nil =>
    obtain ⟨rfl, rfl⟩ := Prod.mk.inj (Option.some.inj h)
    exact .nil _
  | cons c script ih =>
    unfold Session.play at h
    split at h
    · rename_i hmay
      obtain ⟨⟨tr', σ''⟩, hplay, heq⟩ := Option.map_eq_some_iff.mp h
      obtain ⟨rfl, rfl⟩ := Prod.mk.inj heq
      refine Run.cons ?_ (ih hplay)
      exact ⟨rfl, rfl, Session.mayCall_iff.mp hmay⟩
    · cases h

/-- what holds in every state of such a run -/
structure Session.Sound (σ : Session) : Prop where
  exclusive : σ.db.Exclusive
  rowScopes : σ.db.Scoped
  observed : ∀ row ∈ σ.db.services.rows, row.observedGeneration = row.desiredGeneration
  bucket : ∀ row ∈ σ.db.services.rows, ∃ b, σ.db.buckets.lookup row.id = some b
  /-- a deleted service has no operation in progress -/
  idle : ∀ row ∈ σ.db.services.rows, row.phase = .deleted →
    ∀ q ∈ σ.db.receipts.rows, q.serviceInstanceId = row.id → q.state ≠ .inProgress
  /-- what a grant was given for still holds while its receipt is held -/
  facts : ∀ g ∈ σ.granted, ∃ row, σ.db.receipts.lookup g.1.operation.idempotencyKey = some row ∧
    row.request = g.1.operation ∧ (row.state = .inProgress → g.1.Facts σ.db)

section
variable {store : PgStore} {σ σ' : Session} {r : CallRecord}

theorem Session.Sound.start : Session.start.Sound where
  exclusive := .empty
  rowScopes := .empty
  observed := fun _ h => by cases h
  bucket := fun _ h => by cases h
  idle := fun _ h => by cases h
  facts := fun _ h => by cases h

theorem prepared_operation {completion : Completion} {prepare : PrepareCall}
    (h : completion.prepared = some prepare) : prepare.operation = completion.operation := by
  cases completion <;> cases h <;> rfl

/-- **a completing call that succeeds finds what its prepare call checked** -/
theorem Session.Sound.finish_facts (hσ : σ.Sound) (h : HandlerStep store σ r σ')
    {call : FinishCall} {env : CallEnv} {u : Unit} (hr : r = ⟨env, .finish call, .ok u⟩)
    {prepare : PrepareCall} (hp : call.completion.prepared = some prepare) :
    prepare.Facts σ.db := by
  subst hr
  obtain ⟨row, hl, -, hfacts⟩ := hσ.facts _ (h.prepared call rfl prepare hp)
  obtain ⟨-, ⟨held, hl', -, -, hs⟩, -⟩ := finish_eq_ok.mp (step_ok h.step)
  have hk : prepare.operation.idempotencyKey = call.operation.idempotencyKey :=
    congrArg OperationRequest.idempotencyKey (prepared_operation hp)
  rw [show (prepare, call.operationId).1.operation.idempotencyKey = _ from hk, hl'] at hl
  exact hfacts (Option.some.inj hl ▸ hs)

/-- a grant keeps its receipt and, while that is held, its facts -/
theorem Session.Sound.facts_step (hσ : σ.Sound) (h : HandlerStep store σ r σ')
    {g : PrepareCall × Uuid} (hg : g ∈ σ.granted) :
    ∃ row, σ'.db.receipts.lookup g.1.operation.idempotencyKey = some row ∧
      row.request = g.1.operation ∧ (row.state = .inProgress → g.1.Facts σ'.db) := by
  obtain ⟨row, hl, hq, hfacts⟩ := hσ.facts g hg
  obtain ⟨row', hl', hq', hdone⟩ := receipt_kept (.single h.step) hl
  refine ⟨row', hl', hq'.trans hq, fun hs' => ?_⟩
  have hs : row.state = .inProgress := by
    by_contra hne
    rw [hdone hne] at hs'
    exact hne hs'
  have hsid : row.serviceInstanceId = g.1.operation.serviceInstanceId :=
    congrArg OperationRequest.serviceInstanceId hq
  have hsid' : row'.serviceInstanceId = g.1.operation.serviceInstanceId :=
    congrArg OperationRequest.serviceInstanceId (hq'.trans hq)
  exact (hfacts hs).untouched
    (held_untouched hσ.exclusive h.step ⟨row, hl, hs, hsid⟩ ⟨row', hl', hs', hsid'⟩)

/-- a new grant comes with a held receipt and its facts -/
theorem grant_facts (h : StoreStep store σ.db r σ'.db) {g : PrepareCall × Uuid}
    (hg : r.grant = some g) :
    ∃ row, σ'.db.receipts.lookup g.1.operation.idempotencyKey = some row ∧
      row.request = g.1.operation ∧ (row.state = .inProgress → g.1.Facts σ'.db) := by
  obtain ⟨context, hexec⟩ := grant_exec h hg
  obtain ⟨row, hl, hq, -⟩ := executed_receipt hexec
  exact ⟨row, hl, hq, fun _ => prepare_facts hexec⟩

/-! ## one step of a service -/

/-- how the row of a service may develop -/
structure ServiceRow.Evolves (row row' : ServiceRow) : Prop where
  organization : row'.organizationId = row.organizationId
  project : row'.projectId = row.projectId
  generation : row.desiredGeneration.toInt ≤ row'.desiredGeneration.toInt
  desired : row'.desiredGeneration = row.desiredGeneration →
    row'.name = row.name ∧
      SyouyuSpec.fromValue row'.desiredSpec = SyouyuSpec.fromValue row.desiredSpec

theorem ServiceRow.Evolves.refl (row : ServiceRow) : row.Evolves row :=
  ⟨rfl, rfl, le_refl _, fun _ => ⟨rfl, rfl⟩⟩

theorem ServiceRow.Evolves.trans {a b c : ServiceRow} (h : a.Evolves b) (h' : b.Evolves c) :
    a.Evolves c := by
  refine ⟨h'.organization.trans h.organization, h'.project.trans h.project,
    h.generation.trans h'.generation, fun hg => ?_⟩
  -- equal at both ends, so equal in between
  have hb : b.desiredGeneration = a.desiredGeneration :=
    Int64.toInt_inj.mp (le_antisymm (hg ▸ h'.generation) h.generation)
  obtain ⟨hn, hs⟩ := h.desired hb
  obtain ⟨hn', hs'⟩ := h'.desired (hg.trans hb.symm)
  exact ⟨hn'.trans hn, hs'.trans hs⟩

/-- a reconcile brings a live service of its facts forward -/
theorem reconcile_evolves {db : Database} {env : CallEnv} {command : ReconcileCommand} {o : Uuid}
    {row : ServiceRow} (hfacts : (PrepareCall.reconcile command).Facts db)
    (hl : db.services.lookup command.operation.serviceInstanceId = some row) :
    row.Evolves (PgStore.reconcileService env command o row) := by
  obtain ⟨pid, applied, ⟨hnone, -⟩ | ⟨service, _, hl', -, -, -, hg, -, -, -, happ⟩⟩ := hfacts
  · exact absurd_none_some hnone hl
  · obtain rfl : service = row := Option.some.inj (hl'.symm.trans hl)
    refine ⟨rfl, rfl, Int64.le_iff_toInt_le.mp hg, fun he => ?_⟩
    obtain ⟨-, hspec, hname, -⟩ | ⟨hne, -⟩ := happ
    · exact ⟨hname.symm, (SyouyuSpec.fromValue_toValue command.spec).trans hspec.symm⟩
    · exact absurd he hne

/-- a deletion raises the generation by one -/
theorem delete_raises {db : Database} {command : DeleteCommand} {row : ServiceRow}
    (hfacts : (PrepareCall.delete command).Facts db)
    (hl : db.services.lookup command.operation.serviceInstanceId = some row) :
    command.generation.toInt = row.desiredGeneration.toInt + 1 := by
  obtain ⟨service, hl', -, -, -, hsucc⟩ := hfacts
  obtain rfl : service = row := Option.some.inj (hl'.symm.trans hl)
  exact checkedSucc_toInt hsucc

theorem delete_evolves {db : Database} {env : CallEnv} {command : DeleteCommand} {o : Uuid}
    {row : ServiceRow} (hfacts : (PrepareCall.delete command).Facts db)
    (hl : db.services.lookup command.operation.serviceInstanceId = some row) :
    row.Evolves (PgStore.deletedService env command o row) := by
  have hint := delete_raises hfacts hl
  refine ⟨rfl, rfl, ?_, fun he => ?_⟩
  · show row.desiredGeneration.toInt ≤ command.generation.toInt
    omega
  · have := congrArg Int64.toInt (show command.generation = row.desiredGeneration from he)
    omega

/-- the name of the bucket survives a reconcile of its facts -/
theorem reconcile_names {db : Database} {command : ReconcileCommand} {row : ServiceRow}
    {b : BucketRow} (hfacts : (PrepareCall.reconcile command).Facts db)
    (hl : db.services.lookup command.operation.serviceInstanceId = some row)
    (hb : db.buckets.lookup command.operation.serviceInstanceId = some b) :
    command.spec.bucketName = b.bucketName := by
  obtain ⟨pid, applied, ⟨hnone, -⟩ | ⟨_, b', -, -, -, -, -, hb', hname, -⟩⟩ := hfacts
  · exact absurd_none_some hnone hl
  · exact Option.some.inj (hb'.symm.trans hb) ▸ hname.symm

/-- **the step for one service**: its row evolves and its bucket keeps its name -/
theorem Session.Sound.service_step (hσ : σ.Sound) (h : HandlerStep store σ r σ') {s : Uuid}
    {row : ServiceRow} {b : BucketRow} (hl : σ.db.services.lookup s = some row)
    (hb : σ.db.buckets.lookup s = some b) :
    ∃ row' b', σ'.db.services.lookup s = some row' ∧ σ'.db.buckets.lookup s = some b' ∧
      row.Evolves row' ∧ b'.bucketName = b.bucketName := by
  obtain ⟨env, call, answer⟩ := r
  by_cases hne : ∀ finish, call = .finish finish →
      finish.completion.operation.serviceInstanceId ≠ s
  · obtain ⟨hs, -, hbk⟩ := service_elsewhere (service_change h.step) hne
    obtain ⟨b', hb', hsame⟩ := bucket_untouched hbk hb
    exact ⟨row, b', hs.trans hl, hb', .refl _, (unmeasured_fields hsame).1⟩
  · push Not at hne
    obtain ⟨finish, rfl, rfl⟩ := hne
    cases answer with
    | error e => exact ⟨row, b, step_error h.step ▸ hl, step_error h.step ▸ hb, .refl _, rfl⟩
    | ok answer =>
      cases service_change h.step with
      | same hs hbk => exact ⟨row, b, hs ▸ hl, hbk ▸ hb, .refl _, rfl⟩
      | @reconciled call command pid hcomp hs hbk =>
        rw [hcomp] at hl hb
        have hfacts : (PrepareCall.reconcile command).Facts σ.db :=
          hσ.finish_facts h rfl (by rw [hcomp]; rfl)
        rcases hs with ⟨hnone, -⟩ | ⟨_, -, -, hu⟩
        · exact absurd_none_some hnone hl
        rcases hbk with ⟨hnone, -⟩ | ⟨-, hub⟩
        · exact absurd_none_some hnone hb
        refine ⟨PgStore.reconcileService env command finish.operationId row,
          PgStore.reconcileBucket env command pid command.spec.quotaBytes.toInt64
            command.spec.quotaObjects.toInt64 b, ?_, ?_, reconcile_evolves hfacts hl,
          reconcile_names hfacts hl hb⟩
        · rw [hcomp]
          exact Table.lookup_updated hu (fun _ => rfl) hl
        · rw [hcomp]
          exact Table.lookup_updated hub (fun _ => rfl) hb
      | @deleted call command old hcomp _ _ _ _ hu hbk =>
        rw [hcomp] at hl hb
        have hfacts : (PrepareCall.delete command).Facts σ.db :=
          hσ.finish_facts h rfl (by rw [hcomp]; rfl)
        refine ⟨PgStore.deletedService env command finish.operationId row, b, ?_, ?_,
          delete_evolves hfacts hl, rfl⟩
        · rw [hcomp]
          exact Table.lookup_updated hu (fun _ => rfl) hl
        · rw [hbk, hcomp, hb]

/-! ## the invariant is kept -/

/-- what the rows written for services have, every service row has after a step -/
theorem services_step {P : ServiceRow → Prop} {db db' : Database}
    (hnew : ∀ env command o, P (PgStore.reconciledService env command o))
    (hold : ∀ env command o row, P (PgStore.reconcileService env command o row))
    (hdead : ∀ env command o row, P (PgStore.deletedService env command o row))
    (h : StoreStep store db r db') (hP : ∀ row ∈ db.services.rows, P row) :
    ∀ row ∈ db'.services.rows, P row := by
  obtain ⟨env, call, answer⟩ := r
  cases service_change h with
  | same hs _ => exact hs ▸ hP
  | reconciled _ hs _ =>
    rcases hs with ⟨-, hi⟩ | ⟨_, -, -, hu⟩
    · intro row hrow
      rcases (Table.mem_insert hi).mp hrow with hrow | rfl
      · exact hP row hrow
      · exact hnew _ _ _
    · exact Table.forall_updateWhere hu (fun _ _ => hold _ _ _ _) hP
  | deleted _ _ _ _ _ hu _ => exact Table.forall_updateWhere hu (fun _ _ => hdead _ _ _ _) hP
  | measured hs _ => exact hs ▸ hP

theorem Session.Sound.observed_step (hσ : σ.Sound) (h : HandlerStep store σ r σ') :
    ∀ row ∈ σ'.db.services.rows, row.observedGeneration = row.desiredGeneration :=
  services_step (fun _ _ _ => rfl) (fun _ _ _ _ => rfl) (fun _ _ _ _ => rfl) h.step hσ.observed

/-- a service row that was not there comes from a reconcile, together with its bucket -/
theorem service_new {db db' : Database} (h : StoreStep store db r db') {s : Uuid}
    {row' : ServiceRow} (hnone : db.services.lookup s = none)
    (hl' : db'.services.lookup s = some row') :
    row'.phase = .ready ∧ ∃ b, db'.buckets.lookup s = some b := by
  obtain ⟨env, call, answer⟩ := r
  cases service_change h with
  | same hs _ => exact absurd_none_some (hs ▸ hnone) hl'
  | @reconciled call command pid _ hs hb =>
    rcases hs with ⟨-, hi⟩ | ⟨_, -, -, hu⟩
    · rw [Table.lookup_insert hi] at hl'
      split at hl'
      · rename_i hk
        subst hk
        obtain rfl := Option.some.inj hl'
        refine ⟨rfl, ?_⟩
        rcases hb with ⟨-, hi⟩ | ⟨⟨b, hb⟩, hu⟩
        · exact ⟨_, Table.lookup_inserted hi⟩
        · exact ⟨_, Table.lookup_updated hu (fun _ => rfl) hb⟩
      · exact absurd_none_some hnone hl'
    · rw [Table.lookup_updateWhere hu (fun _ => rfl), hnone] at hl'
      cases hl'
  | deleted _ _ _ _ _ hu _ =>
    rw [Table.lookup_updateWhere hu (fun _ => rfl), hnone] at hl'
    cases hl'
  | measured hs _ => exact absurd_none_some (hs ▸ hnone) hl'

theorem Session.Sound.bucket_step (hσ : σ.Sound) (h : HandlerStep store σ r σ') :
    ∀ row ∈ σ'.db.services.rows, ∃ b, σ'.db.buckets.lookup row.id = some b := by
  intro row' hrow'
  cases hl : σ.db.services.lookup row'.id with
  | none => exact (service_new h.step hl (Table.lookup_of_mem hrow')).2
  | some row =>
    obtain ⟨b, hb⟩ := hσ.bucket row (Table.lookup_mem hl)
    rw [show row.id = row'.id from Table.lookup_key hl] at hb
    obtain ⟨-, b', -, hb', -⟩ := hσ.service_step h hl hb
    exact ⟨b', hb'⟩

/-- only a deletion of the service makes a live row deleted -/
theorem newly_deleted {db db' : Database} (h : StoreStep store db r db') {s : Uuid}
    {row row' : ServiceRow} (hl : db.services.lookup s = some row)
    (hl' : db'.services.lookup s = some row') (hlive : row.phase ≠ .deleted)
    (hdead : row'.phase = .deleted) :
    ∃ env finish command u, r = ⟨env, .finish finish, .ok u⟩ ∧
      finish.completion = .delete command ∧ command.operation.serviceInstanceId = s := by
  obtain ⟨env, call, answer⟩ := r
  have hsame : db'.services.lookup s ≠ db.services.lookup s := by
    rw [hl, hl']
    rintro heq
    exact hlive (Option.some.inj heq ▸ hdead)
  cases answer with
  | error e => exact absurd (congrArg (fun d => d.services.lookup s) (step_error h)) hsame
  | ok u =>
    cases service_change h with
    | same hs _ => exact absurd (congrArg (Table.lookup · s) hs) hsame
    | @reconciled _ command _ _ hs _ =>
      rcases hs with ⟨hnone, hi⟩ | ⟨_, -, -, hu⟩
      · refine absurd ((Table.lookup_insert hi s).trans (if_neg fun hk => ?_)) hsame
        rw [show command.operation.serviceInstanceId = s from hk] at hnone
        exact absurd_none_some hnone hl
      · rw [Table.lookup_update_key hu (fun _ => rfl)] at hl'
        split at hl'
        · rename_i hk
          rw [← hk, hl] at hl'
          obtain rfl := Option.some.inj hl'
          cases hdead
        · exact absurd (Option.some.inj (hl.symm.trans hl') ▸ hdead) hlive
    | @deleted finish command old hcomp _ _ _ _ hu _ =>
      refine ⟨env, finish, command, u, rfl, hcomp, ?_⟩
      by_contra hk
      rw [Table.lookup_update_key hu (fun _ => rfl), if_neg (Ne.symm hk)] at hsame
      exact hsame rfl
    | measured hs _ => exact absurd (congrArg (Table.lookup · s) hs) hsame

/-- a deleted service has no operation in progress after the step either -/
theorem Session.Sound.idle_step (hσ : σ.Sound) (h : HandlerStep store σ r σ') :
    ∀ row ∈ σ'.db.services.rows, row.phase = .deleted →
      ∀ q ∈ σ'.db.receipts.rows, q.serviceInstanceId = row.id → q.state ≠ .inProgress := by
  intro row' hrow' hdead q hq hqs hs
  have hl' : σ'.db.services.lookup row'.id = some row' := Table.lookup_of_mem hrow'
  cases hl : σ.db.services.lookup row'.id with
  | none =>
    rw [(service_new h.step hl hl').1] at hdead
    cases hdead
  | some row =>
    rcases receipt_origin h.step hq hs with ⟨q₀, hq₀, hreq, hs₀⟩ | ⟨call, -, hop, hfacts⟩
    · have hqs₀ : q₀.serviceInstanceId = row'.id :=
        (congrArg OperationRequest.serviceInstanceId hreq).trans hqs
      by_cases hlive : row.phase = .deleted
      · have hid : row.id = row'.id := Table.lookup_key hl
        exact hσ.idle row (Table.lookup_mem hl) hlive q₀ hq₀ (hqs₀.trans hid.symm) hs₀
      · -- the step is the deletion itself: it finished the only held receipt of the service
        obtain ⟨env, finish, command, u, rfl, hcomp, hcs⟩ := newly_deleted h.step hl hl' hlive hdead
        refine finish_elsewhere hσ.exclusive (step_ok h.step) ⟨q₀, Table.lookup_of_mem hq₀, hs₀, hqs₀⟩
          ⟨q, ?_, hs, hqs⟩ ?_
        · rw [show receiptSchema.key q₀ = receiptSchema.key q from
            congrArg OperationRequest.idempotencyKey hreq]
          exact Table.lookup_of_mem hq
        · show finish.completion.operation.serviceInstanceId = row'.id
          rw [hcomp]
          exact hcs
    · have hcs : call.operation.serviceInstanceId = row'.id := by
        rw [hop]
        exact hqs
      exact hfacts.live (hcs ▸ hl') hdead

/-- **the invariant is kept by every step** -/
theorem Session.Sound.step (hσ : σ.Sound) (h : HandlerStep store σ r σ') : σ'.Sound where
  exclusive := hσ.exclusive.step h.step
  rowScopes := hσ.rowScopes.step h.step
  observed := hσ.observed_step h
  bucket := hσ.bucket_step h
  idle := hσ.idle_step h
  facts := by
    intro g hg
    rw [h.granted, List.mem_append, Option.mem_toList] at hg
    rcases hg with hg | hg
    · exact hσ.facts_step h hg
    · exact grant_facts h.step hg

theorem Session.Sound.run {tr : List CallRecord} (hσ : σ.Sound)
    (h : Run (HandlerStep store) σ tr σ') : σ'.Sound :=
  h.invariant Session.Sound (fun _ _ _ hσ h => hσ.step h) hσ

theorem reachable_sound {tr : List CallRecord} (h : Run (HandlerStep store) Session.start tr σ) :
    σ.Sound :=
  Session.Sound.start.run h

/-- **the run for one service** -/
theorem Session.Sound.service_run {tr : List CallRecord} (hσ : σ.Sound)
    (h : Run (HandlerStep store) σ tr σ') {s : Uuid} {row : ServiceRow} {b : BucketRow}
    (hl : σ.db.services.lookup s = some row) (hb : σ.db.buckets.lookup s = some b) :
    ∃ row' b', σ'.db.services.lookup s = some row' ∧ σ'.db.buckets.lookup s = some b' ∧
      row.Evolves row' ∧ b'.bucketName = b.bucketName := by
  induction h generalizing row b with
  | nil => exact ⟨row, b, hl, hb, .refl _, rfl⟩
  | cons hstep hrun ih =>
    obtain ⟨row₁, b₁, hl₁, hb₁, he₁, hn₁⟩ := hσ.service_step hstep hl hb
    obtain ⟨row₂, b₂, hl₂, hb₂, he₂, hn₂⟩ := ih (hσ.step hstep) hl₁ hb₁
    exact ⟨row₂, b₂, hl₂, hb₂, he₁.trans he₂, hn₂.trans hn₁⟩

/-! ## a deleted service is left alone -/

/-- service, bucket and credentials are the same, and no row was added for the service -/
structure Database.Frozen (db db' : Database) (s : Uuid) : Prop where
  service : db'.services.lookup s = db.services.lookup s
  bucket : db'.buckets.lookup s = db.buckets.lookup s
  credentials : db'.credentials.select (fun c => decide (c.serviceInstanceId = s)) =
    db.credentials.select (fun c => decide (c.serviceInstanceId = s))
  receipts : ∀ q ∈ db'.receipts.rows, q.serviceInstanceId = s → q ∈ db.receipts.rows
  reservations : ∀ q ∈ db'.credentialReservations.rows, q.serviceInstanceId = s →
    ∃ q₀ ∈ db.credentialReservations.rows, q₀.credentialId = q.credentialId ∧
      q₀.serviceInstanceId = s
  names : ∀ q ∈ db'.nameReservations.rows, q.serviceInstanceId = s →
    q ∈ db.nameReservations.rows

theorem Database.Frozen.refl (db : Database) (s : Uuid) : db.Frozen db s :=
  ⟨rfl, rfl, rfl, fun _ h _ => h, fun q h hs => ⟨q, h, rfl, hs⟩, fun _ h _ => h⟩

/-- a receipt is written by a call for its own service only -/
theorem receipts_elsewhere {db db' : Database} {s : Uuid} {operation : OperationRequest}
    (h : StoreStep store db r db') (hop : r.call.operation? = some operation)
    (hne : operation.serviceInstanceId ≠ s) :
    ∀ q ∈ db'.receipts.rows, q.serviceInstanceId = s → q ∈ db.receipts.rows := by
  intro q hq hqs
  -- an update of the receipt of the operation
  have hupdate : ∀ {k : Uuid} {f : ReceiptRow → ReceiptRow} {t : Table receiptSchema}
      {row : ReceiptRow}, db.receipts.updateWhere (receiptSchema.hasKey k) f = .ok t →
      (∀ q, (f q).serviceInstanceId = q.serviceInstanceId) →
      db.receipts.lookup k = some row → row.request = operation → q ∈ t.rows →
      q ∈ db.receipts.rows := by
    intro k f t row hu hf hl hreq hq
    obtain ⟨q₀, hq₀, rfl⟩ := (Table.mem_updateWhere hu).mp hq
    unfold Table.touch at hqs ⊢
    split at hqs
    · rename_i hk
      obtain rfl : q₀ = row := db.receipts.eq_of_key hq₀ (Table.lookup_mem hl)
        ((Schema.hasKey_iff.mp hk).trans (Table.lookup_key hl).symm)
      rw [hf] at hqs
      exact absurd ((congrArg OperationRequest.serviceInstanceId hreq).symm.trans hqs) hne
    · rename_i hk
      rwa [if_neg hk]
  cases step_cases h with
  | quiet _ => exact hq
  | executed h =>
    obtain rfl := Option.some.inj hop
    obtain ⟨-, -, db₁, hg, hr⟩ := prepare_executed h
    rw [hr] at hq
    cases hg with
    | new hl hi =>
      rcases (Table.mem_insert hi).mp hq with hq | rfl
      · exact hq
      · exact absurd hqs hne
    | takeover hl hreq _ _ ht =>
      obtain ⟨t, u, ht, -, rfl⟩ := ht
      exact hupdate ht (fun _ => rfl) (Table.lookup_of_mem (Table.lookup_mem hl)) hreq hq
  | finished h =>
    obtain rfl := Option.some.inj hop
    obtain ⟨-, ⟨row, hl, hreq, -⟩, db₁, sealed, t, a, -, -, ht, -, -, rfl⟩ := finish_eq_ok.mp h
    exact hupdate ht (fun _ => rfl) hl hreq hq
  | renewed h => cases hop
  | measured h => cases hop
  | audited h => cases hop

/-- a credential reservation is written for the service of the call only -/
theorem reservations_elsewhere {db db' : Database} {s : Uuid} {operation : OperationRequest}
    (h : StoreStep store db r db') (hop : r.call.operation? = some operation)
    (hne : operation.serviceInstanceId ≠ s) :
    ∀ q ∈ db'.credentialReservations.rows, q.serviceInstanceId = s →
      ∃ q₀ ∈ db.credentialReservations.rows, q₀.credentialId = q.credentialId ∧
        q₀.serviceInstanceId = s := by
  intro q hq hqs
  obtain ⟨env, call, answer⟩ := r
  cases credential_change h with
  | same _ hr => exact ⟨q, hr ▸ hq, rfl, hqs⟩
  | moved _ _ _ _ hu =>
    obtain ⟨q₀, hq₀, rfl⟩ := (Table.mem_updateWhere hu).mp hq
    refine ⟨q₀, hq₀, ?_⟩
    unfold Table.touch at hqs ⊢
    split at hqs
    · rename_i hk
      rw [if_pos hk]
      exact ⟨rfl, hqs⟩
    · rename_i hk
      rw [if_neg hk]
      exact ⟨rfl, hqs⟩
  | reserved _ _ _ _ hi =>
    obtain rfl := Option.some.inj hop
    rcases (Table.mem_insert hi).mp hq with hq | rfl
    · exact ⟨q, hq, rfl, hqs⟩
    · exact absurd hqs hne
  | created _ _ _ _ _ _ _ hr =>
    rw [hr] at hq
    exact ⟨q, (Table.mem_deleteWhere.mp hq).1, rfl, hqs⟩
  | revokedAll _ _ hr => exact ⟨q, hr ▸ hq, rfl, hqs⟩
  | revoked _ _ _ _ hr => exact ⟨q, hr ▸ hq, rfl, hqs⟩
  | released _ _ hr =>
    rw [hr] at hq
    exact ⟨q, (Table.mem_deleteWhere.mp hq).1, rfl, hqs⟩

/-- a bucket name is reserved for the service of the call only -/
theorem names_elsewhere {db db' : Database} {s : Uuid} {operation : OperationRequest}
    (h : StoreStep store db r db') (hop : r.call.operation? = some operation)
    (hne : operation.serviceInstanceId ≠ s) :
    ∀ q ∈ db'.nameReservations.rows, q.serviceInstanceId = s → q ∈ db.nameReservations.rows := by
  intro q hq hqs
  obtain ⟨env, call, answer⟩ := r
  cases name_change h with
  | same hn => exact hn ▸ hq
  | reserved hn =>
    obtain rfl := Option.some.inj hop
    rcases hn with ⟨-, hi⟩ | ⟨_, -, -, hv⟩
    · rcases (Table.mem_insert hi).mp hq with hq | rfl
      · exact hq
      · exact absurd hqs hne
    · exact hv ▸ hq
  | reconciled _ hn =>
    rw [hn] at hq
    exact (Table.mem_deleteWhere.mp hq).1
  | deleted _ hn =>
    rw [hn] at hq
    exact (Table.mem_deleteWhere.mp hq).1
  | released _ hn =>
    rw [hn] at hq
    exact (Table.mem_deleteWhere.mp hq).1

/-- a call for a deleted service changes nothing at all -/
theorem Session.Sound.deleted_refuses (hσ : σ.Sound) (h : HandlerStep store σ r σ')
    {operation : OperationRequest} {row : ServiceRow} (hop : r.call.operation? = some operation)
    (hl : σ.db.services.lookup operation.serviceInstanceId = some row)
    (hdead : row.phase = .deleted) : σ'.db = σ.db := by
  obtain ⟨env, call, answer⟩ := r
  cases answer with
  | error e => exact step_error h.step
  | ok answer =>
    cases call with
    | prepare call =>
      obtain rfl := Option.some.inj hop
      refine prepare_unchanged (step_ok h.step) ?_
      rintro o context rfl
      have hservices := (prepare_names (step_ok h.step)).1
      exact (prepare_facts (step_ok h.step)).live (hservices ▸ hl) hdead
    | finish call =>
      obtain rfl := Option.some.inj hop
      obtain ⟨-, ⟨held, hheld, hreq, -, hs⟩, -⟩ := finish_eq_ok.mp (step_ok h.step)
      have hservice : held.serviceInstanceId = row.id :=
        (congrArg OperationRequest.serviceInstanceId hreq).trans (Table.lookup_key hl).symm
      exact absurd hs
        (hσ.idle row (Table.lookup_mem hl) hdead held (Table.lookup_mem hheld) hservice)
    | _ => cases hop

/-- **a deleted service is left alone** by every call that prepares or finishes an operation -/
theorem Session.Sound.deleted_frozen (hσ : σ.Sound) (h : HandlerStep store σ r σ') {s : Uuid}
    {row : ServiceRow} (hl : σ.db.services.lookup s = some row) (hdead : row.phase = .deleted)
    (hcall : r.call.operation?.isSome) : σ.db.Frozen σ'.db s := by
  obtain ⟨operation, hop⟩ := Option.isSome_iff_exists.mp hcall
  by_cases hs : operation.serviceInstanceId = s
  · subst hs
    rw [hσ.deleted_refuses h hop hl hdead]
    exact .refl _ _
  · have hne : ∀ finish, r.call = .finish finish →
        finish.completion.operation.serviceInstanceId ≠ s := by
      intro finish hf
      rw [hf] at hop
      rw [show finish.completion.operation = operation from Option.some.inj hop]
      exact hs
    obtain ⟨hservice, hbucket, -⟩ := service_elsewhere (service_change h.step) hne
    exact ⟨hservice, hbucket hcall, credentials_elsewhere (credential_change h.step) hne,
      receipts_elsewhere h.step hop hs, reservations_elsewhere h.step hop hs,
      names_elsewhere h.step hop hs⟩

/-- a deleted service stays deleted -/
theorem deleted_stays {db db' : Database} {tr : List CallRecord}
    (h : Run (StoreStep store) db tr db') {s : Uuid} {row : ServiceRow}
    (hl : db.services.lookup s = some row) (hdead : row.phase = .deleted) :
    db'.services.lookup s = some row := by
  refine h.invariant (fun d => d.services.lookup s = some row) (fun _ _ _ hd hstep => ?_) hl
  obtain ⟨row', hl', -, -, hsame⟩ := service_kept hstep hd
  rw [hl', hsame hdead]

/-- the store calls behind a run of handlers -/
theorem HandlerStep.storeRun {tr : List CallRecord} (h : Run (HandlerStep store) σ tr σ') :
    Run (StoreStep store) σ.db tr σ'.db := by
  induction h with
  | nil => exact .nil _
  | cons hstep _ ih => exact .cons hstep.step ih

/-! ## the life of a service -/

/-- the command of a reconcile that was completed -/
def CallRecord.reconciles : CallRecord → Option ReconcileCommand
  | ⟨_, .finish ⟨.reconcile command _, _, _, _⟩, .ok _⟩ => some command
  | _ => none

/-- the command of a deletion that was completed -/
def CallRecord.deletes : CallRecord → Option DeleteCommand
  | ⟨_, .finish ⟨.delete command, _, _, _⟩, .ok _⟩ => some command
  | _ => none

theorem reconciles_eq {command : ReconcileCommand} (hr : r.reconciles = some command) :
    ∃ env call pid u, call.completion = .reconcile command pid ∧
      r = ⟨env, .finish call, .ok u⟩ := by
  obtain ⟨env, call, answer⟩ := r
  cases call with
  | finish call =>
    obtain ⟨completion, o, response, audit⟩ := call
    cases completion with
    | reconcile command' pid =>
      cases answer with
      | error e => cases hr
      | ok u =>
        obtain rfl : command' = command := Option.some.inj hr
        exact ⟨env, _, pid, u, rfl, rfl⟩
    | _ => cases hr
  | _ => cases hr

theorem deletes_eq {command : DeleteCommand} (hr : r.deletes = some command) :
    ∃ env call u, call.completion = .delete command ∧ r = ⟨env, .finish call, .ok u⟩ := by
  obtain ⟨env, call, answer⟩ := r
  cases call with
  | finish call =>
    obtain ⟨completion, o, response, audit⟩ := call
    cases completion with
    | delete command' =>
      cases answer with
      | error e => cases hr
      | ok u =>
        obtain rfl : command' = command := Option.some.inj hr
        exact ⟨env, _, u, rfl, rfl⟩
    | _ => cases hr
  | _ => cases hr

/-- a completed reconcile leaves its command in the row of the service -/
theorem reconciles_row {db db' : Database} {command : ReconcileCommand}
    (h : StoreStep store db r db') (hr : r.reconciles = some command) :
    ∃ row, db'.services.lookup command.operation.serviceInstanceId = some row ∧
      row.desiredGeneration = command.generation ∧ row.name = command.name ∧
      row.desiredSpec = command.spec.toValue := by
  obtain ⟨env, ⟨_, o, response, audit⟩, pid, u, rfl, rfl⟩ := reconciles_eq hr
  obtain ⟨-, -, db₁, _, t, a, hb, -, -, -, -, rfl⟩ := finish_eq_ok.mp (step_finished h)
  obtain ⟨_, _, h1, h2, rfl⟩ := applyReconcile_eq_ok.mp hb
  obtain ⟨-, s, rfl, hs⟩ := upsertService_eq_ok.mp h1
  obtain ⟨-, b, rfl, -⟩ := upsertBucket_eq_ok.mp h2
  rcases hs with ⟨-, hi⟩ | ⟨old, hl, -, hu⟩
  · exact ⟨_, Table.lookup_inserted hi, rfl, rfl, rfl⟩
  · exact ⟨_, Table.lookup_updated hu (fun _ => rfl) hl, rfl, rfl, rfl⟩

/-- a completed deletion finds a live row and raises its generation by one -/
theorem Session.Sound.deletes_row (hσ : σ.Sound) {command : DeleteCommand}
    (h : HandlerStep store σ r σ') (hr : r.deletes = some command) :
    ∃ row row', σ.db.services.lookup command.operation.serviceInstanceId = some row ∧
      σ'.db.services.lookup command.operation.serviceInstanceId = some row' ∧
      row'.desiredGeneration.toInt = row.desiredGeneration.toInt + 1 := by
  obtain ⟨env, ⟨_, o, response, audit⟩, u, rfl, rfl⟩ := deletes_eq hr
  have hfacts : (PrepareCall.delete command).Facts σ.db := hσ.finish_facts h rfl rfl
  obtain ⟨-, -, db₁, _, t, a, hb, -, -, -, -, hdb⟩ := finish_eq_ok.mp (step_finished h.step)
  obtain ⟨_, s, old, -, hl, -, hu, rfl⟩ := applyDelete_eq_ok.mp hb
  rw [hdb]
  exact ⟨old, PgStore.deletedService env command o old, hl,
    Table.lookup_updated hu (fun _ => rfl) hl, (delete_raises hfacts hl)⟩

/-- two completed reconciles of one service and generation asked for the same state -/
theorem Session.Sound.reconciles_agree {σ₁ σ₂ σ₃ : Session} {r₁ r₂ : CallRecord}
    {tr : List CallRecord} {c₁ c₂ : ReconcileCommand} (hσ : σ.Sound)
    (h₁ : HandlerStep store σ r₁ σ₁) (hrun : Run (HandlerStep store) σ₁ tr σ₂)
    (h₂ : HandlerStep store σ₂ r₂ σ₃) (hc₁ : r₁.reconciles = some c₁)
    (hc₂ : r₂.reconciles = some c₂)
    (hs : c₁.operation.serviceInstanceId = c₂.operation.serviceInstanceId)
    (hg : c₁.generation = c₂.generation) : c₁.name = c₂.name ∧ c₁.spec = c₂.spec := by
  have hσ₁ := hσ.step h₁
  obtain ⟨row₁, hl₁, hg₁, hn₁, hs₁⟩ := reconciles_row h₁.step hc₁
  obtain ⟨row₃, hl₃, hg₃, hn₃, hs₃⟩ := reconciles_row h₂.step hc₂
  obtain ⟨b₁, hb₁⟩ := hσ₁.bucket row₁ (Table.lookup_mem hl₁)
  rw [show row₁.id = _ from Table.lookup_key hl₁] at hb₁
  obtain ⟨row, b, hl, hb, hev, -⟩ := hσ₁.service_run (hrun.append (.single h₂)) hl₁ hb₁
  obtain rfl : row = row₃ := Option.some.inj (hl.symm.trans (hs ▸ hl₃))
  obtain ⟨hname, hspec⟩ := hev.desired (hg₃.trans (hg.symm.trans hg₁.symm))
  rw [hs₁, hs₃, SyouyuSpec.fromValue_toValue, SyouyuSpec.fromValue_toValue] at hspec
  exact ⟨hn₁.symm.trans (hname.symm.trans hn₃), (Option.some.inj hspec).symm⟩

/-- **the life of a service**: its scope and bucket name are fixed, its generation only grows, is
the observed one and determines name and spec, a deletion raises it by one, and a deleted service
is left alone -/
theorem service_lifecycle {tr : List CallRecord} (h : Run (HandlerStep store) Session.start tr σ)
    (s : Uuid) :
    (∀ row, σ.db.services.lookup s = some row →
      row.observedGeneration = row.desiredGeneration ∧
      ∃ b, σ.db.buckets.lookup s = some b ∧
        ∀ tr' σ', Run (HandlerStep store) σ tr' σ' →
          ∃ row' b', σ'.db.services.lookup s = some row' ∧ σ'.db.buckets.lookup s = some b' ∧
            row'.organizationId = row.organizationId ∧ row'.projectId = row.projectId ∧
            b'.bucketName = b.bucketName ∧ row.desiredGeneration ≤ row'.desiredGeneration) ∧
    (∀ r₁ σ₁ tr' σ₂ r₂ σ₃ c₁ c₂, HandlerStep store σ r₁ σ₁ → Run (HandlerStep store) σ₁ tr' σ₂ →
      HandlerStep store σ₂ r₂ σ₃ → r₁.reconciles = some c₁ → r₂.reconciles = some c₂ →
      c₁.operation.serviceInstanceId = s → c₂.operation.serviceInstanceId = s →
      c₁.generation = c₂.generation → c₁.name = c₂.name ∧ c₁.spec = c₂.spec) ∧
    (∀ r σ' command, HandlerStep store σ r σ' → r.deletes = some command →
      command.operation.serviceInstanceId = s →
      ∃ row row', σ.db.services.lookup s = some row ∧ σ'.db.services.lookup s = some row' ∧
        row'.desiredGeneration.toInt = row.desiredGeneration.toInt + 1) ∧
    ∀ row, σ.db.services.lookup s = some row → row.phase = .deleted →
      ∀ tr' σ₁ r σ₂, Run (HandlerStep store) σ tr' σ₁ → HandlerStep store σ₁ r σ₂ →
        r.call.operation?.isSome → σ₁.db.Frozen σ₂.db s := by
  have hσ := reachable_sound h
  refine ⟨fun row hl => ?_, ?_, ?_, ?_⟩
  · obtain ⟨b, hb⟩ := hσ.bucket row (Table.lookup_mem hl)
    rw [show row.id = s from Table.lookup_key hl] at hb
    refine ⟨hσ.observed row (Table.lookup_mem hl), b, hb, fun tr' σ' hrun => ?_⟩
    obtain ⟨row', b', hl', hb', hev, hname⟩ := hσ.service_run hrun hl hb
    exact ⟨row', b', hl', hb', hev.organization, hev.project, hname,
      Int64.le_iff_toInt_le.mpr hev.generation⟩
  · rintro r₁ σ₁ tr' σ₂ r₂ σ₃ c₁ c₂ h₁ hrun h₂ hc₁ hc₂ hs₁ hs₂ hg
    exact hσ.reconciles_agree h₁ hrun h₂ hc₁ hc₂ (hs₁.trans hs₂.symm) hg
  · rintro r σ' command hstep hr rfl
    exact hσ.deletes_row hstep hr
  · intro row hl hdead tr' σ₁ r σ₂ hrun hstep hcall
    exact (hσ.run hrun).deleted_frozen hstep (deleted_stays (HandlerStep.storeRun hrun) hl hdead)
      hdead hcall

/-- service A from its first reconcile to its deletion -/
theorem service_lifecycle_lifetime :
    ∃ tr σ row, Session.play PgStore.reference Sample.lifetime Session.start = some (tr, σ) ∧
      σ.db.services.lookup 10 = some row ∧ row.phase = .deleted ∧
      row.observedGeneration = row.desiredGeneration := by
  have hsome : (Session.play PgStore.reference Sample.lifetime Session.start).any (fun p =>
      (p.2.db.services.lookup 10).any fun row => decide (row.phase = .deleted)) = true := by
    decide +kernel
  obtain ⟨⟨tr, σ⟩, hplay, hrow⟩ := (Option.any_eq_true _ _).mp hsome
  obtain ⟨row, hl, hdead⟩ := (Option.any_eq_true _ _).mp hrow
  have hlife := service_lifecycle (Session.play_run hplay) 10
  exact ⟨tr, σ, row, hplay, hl, of_decide_eq_true hdead, (hlife.1 row hl).1⟩

end

end Syouyu
