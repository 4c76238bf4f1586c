import Syouyu.Store.Reconcile
import Syouyu.Store.Reservations

/-!
# A prepared create, delete or revoke can be completed

Everything a completing call asks for was secured when the operation was prepared, and stays so
while its receipt is held.

* `Draws`                     the credential ids of a run are new and not nil;
* `PrepareCall.CompletedBy`   the completions that match a prepared call and its context;
* `revoke_ok`, `delete_ok`, `create_ok`   the writes of each completion go through;
* `prepared_completes`        the main result.
-/

set_option linter.unusedSectionVars false

namespace Syouyu
open Lib

/-- `Uuid::now_v7` draws new credential ids, none of them nil -/
structure Draws (tr : List CallRecord) : Prop where
  nodup : (tr.map fun r => r.env.credentialId).Nodup
  notNil : ∀ r ∈ tr, r.env.credentialId.isNil = false

/-- the completion matches the prepared call and the context it was given -/
def PrepareCall.CompletedBy (db : Database) :
    (call : PrepareCall) → call.Context → Completion → Prop
  | .delete command, _, .delete done => done = command
  | .createCredential command, (context : CreateCredentialContext),
      .createCredential done credential =>
    done = command ∧ credential.id = context.credentialId ∧ credential.name = command.name ∧
    credential.permissions = command.permissions ∧
    textBetween 1 256 credential.garageKeyId = true ∧
    textBetween 1 256 credential.accessKeyId = true ∧
    ∀ d ∈ db.credentials.rows, d.garageKeyId ≠ credential.garageKeyId ∧
      d.accessKeyId ≠ credential.accessKeyId
  | .revokeCredential command, _, .revokeCredential done => done = command
  | _, _, _ => False

section
variable {store : PgStore} {env : CallEnv} {db : Database} {o : Uuid}

/-! ## the writes go through -/

/-- a revocation keeps a credential row well formed -/
theorem revokedCredential_check {row : CredentialRow} (principal : Uuid)
    (h : credentialSchema.check row = true) :
    credentialSchema.check (PgStore.revokedCredential env principal row) = true := by
  simp only [credentialSchema, Bool.and_eq_true] at h
  obtain ⟨h, -⟩ := h
  simp [credentialSchema, PgStore.revokedCredential, h]

/-- credentials can always be revoked -/
theorem revoked_ok (env : CallEnv) (db : Database) (principal : Uuid) (p : CredentialRow → Bool) :
    ∃ t, db.credentials.updateWhere p (PgStore.revokedCredential env principal) = .ok t :=
  Table.updateWhere_ok_of_clash _
    (fun _ hr _ => revokedCredential_check principal (db.credentials.checked _ hr))
    (fun _ _ => rfl)

theorem deletedService_check {command : DeleteCommand} {row : ServiceRow}
    (h : serviceSchema.check row = true)
    (hgen : checkedSucc row.desiredGeneration = some command.generation) :
    serviceSchema.check (PgStore.deletedService env command o row) = true := by
  simp only [serviceSchema, Bool.and_eq_true, decide_eq_true_eq] at h
  obtain ⟨⟨⟨⟨⟨hname, hpos⟩, hobject⟩, hstore⟩, -⟩, -⟩ := h
  have hnext : 0 < command.generation := by
    rw [Int64.lt_iff_toInt_lt] at hpos ⊢
    rw [checkedSucc_toInt hgen]
    show (0 : Int) < _
    have : (0 : Int) < row.desiredGeneration.toInt := hpos
    omega
  have hobserved : (0 : Int64) ≤ command.generation := Int64.le_of_lt hnext
  simp [serviceSchema, PgStore.deletedService, hname, hobject, hstore, hnext, hobserved]

theorem delete_ok {command : DeleteCommand} {context : DeleteContext}
    (hobs : (PrepareCall.delete command).Observed db context) :
    ∃ db₁, PgStore.applyDelete env command o db = .ok ((), db₁) := by
  obtain ⟨service, -, hl, ho, hp, hd, hgen, -⟩ := hobs
  obtain ⟨c, hc⟩ := revoked_ok env db command.operation.principalId fun r =>
    decide (r.serviceInstanceId = command.operation.serviceInstanceId) &&
      decide (r.status = .active)
  have hservices : ∃ a, db.services.updateWhere
      (serviceSchema.hasKey command.operation.serviceInstanceId)
      (PgStore.deletedService env command o) = .ok a := by
    refine Table.updateWhere_ok_of_clash _ (fun r hr hk => ?_) (fun _ _ => rfl)
    obtain rfl : r = service := Table.eq_of_key _ hr (Table.lookup_mem hl)
      ((Schema.hasKey_iff.mp hk).trans (Table.lookup_key hl).symm)
    exact deletedService_check (Table.lookup_check hl) hgen
  obtain ⟨a, ha⟩ := hservices
  exact ⟨_, applyDelete_eq_ok.mpr ⟨c, a, service, hc, hl, ⟨ho.symm, hp.symm, hd⟩, ha, rfl⟩⟩

theorem revoke_ok {command : RevokeCredentialCommand} {context : RevokeCredentialContext}
    (hobs : (PrepareCall.revokeCredential command).Observed db context) :
    ∃ db₁, PgStore.applyRevokeCredential env command db = .ok ((), db₁) := by
  obtain ⟨-, credential, hl, hs, -⟩ := hobs
  obtain ⟨t, ht⟩ := revoked_ok env db command.operation.principalId
    (credentialSchema.hasKey command.credentialId)
  exact ⟨_, applyRevokeCredential_eq_ok.mpr ⟨t, credential, hl, hs, ht, rfl⟩⟩

/-- the row of a new credential needs nothing but its name and its key ids -/
theorem createdCredential_check {command : CreateCredentialCommand} {credential : NewCredential}
    (hname : textBetween 1 128 credential.name = true)
    (hgarage : textBetween 1 256 credential.garageKeyId = true)
    (haccess : textBetween 1 256 credential.accessKeyId = true) :
    credentialSchema.check (PgStore.createdCredential env command credential) = true := by
  show (textBetween 1 128 credential.name && textBetween 1 256 credential.garageKeyId &&
    textBetween 1 256 credential.accessKeyId && true && credential.permissions.toValue.storable &&
    (true && true)) = true
  rw [hname, hgarage, haccess, BucketPermissions.storable_toValue]
  rfl

theorem create_ok {command : CreateCredentialCommand} {context : CreateCredentialContext}
    {credential : NewCredential} {ids : List Uuid} (hfresh : db.FreshIds ids)
    (hheld : db.HeldBy command.operation o)
    (hobs : (PrepareCall.createCredential command).Observed db context)
    (hdone : (PrepareCall.createCredential command).CompletedBy db context
      (.createCredential command credential)) :
    ∃ db₁, PgStore.applyCreateCredential env command o credential db = .ok ((), db₁) := by
  obtain ⟨⟨service, row, hready, -⟩, receipt, hreceipt, c, hc, hco, hm, hid⟩ := hobs
  obtain ⟨-, hcid, hname, -, hgarage, haccess, hnew⟩ := hdone
  obtain ⟨held, hl, -, hho, -⟩ := hheld
  obtain rfl : receipt = held := Option.some.inj (hreceipt.symm.trans hl)
  simp only [CredentialReservationRow.matches, Bool.and_eq_true, decide_eq_true_eq] at hm
  obtain ⟨⟨⟨⟨hservice, -⟩, -⟩, hcname⟩, -⟩ := hm
  have hkey : c.credentialId = credential.id := hid.trans hcid.symm
  have htext : textBetween 1 128 command.name = true := by
    have hcheck := db.credentialReservations.checked c hc
    simp only [credentialReservationSchema, Bool.and_eq_true] at hcheck
    exact hcname ▸ hcheck.1.1
  have hinsert : ∃ t, db.credentials.insert (PgStore.createdCredential env command credential) =
      .ok t := by
    refine Table.insert_ok_iff.mpr ⟨createdCredential_check (hname ▸ htext) hgarage haccess, ?_, ?_⟩
    · refine Table.lookup_eq_none.mpr fun d hd he => ?_
      exact (hfresh.free c hc d hd).1 (he.trans hkey.symm)
    · intro d hd
      obtain ⟨hg, ha⟩ := hnew d hd
      have hn := (hfresh.free c hc d hd).2
      rw [hservice, hcname, ← hname] at hn
      simp only [credentialSchema, PgStore.createdCredential, Bool.or_eq_false_iff,
        Bool.and_eq_false_iff, decide_eq_false_iff_not]
      exact ⟨⟨hg, ha⟩, Classical.or_iff_not_imp_left.mpr fun he => hn (not_not.mp he)⟩
  obtain ⟨t, ht⟩ := hinsert
  have hstore : textStorable command.name = true := by
    simp only [textBetween, Bool.and_eq_true] at htext
    exact htext.1.1
  refine ⟨_, applyCreateCredential_eq_ok.mpr ⟨hstore, c, t,
    hkey ▸ Table.lookup_of_mem hc, ⟨hco.trans hho, hservice, hcname⟩, ?_, ht, rfl⟩⟩
  obtain ⟨hser, horg, hproj, -⟩ := hready
  exact scopeExists_iff.mpr ⟨service, hser, horg.symm, hproj.symm⟩

/-- **what completes a call that was observed and holds its receipt goes through** -/
theorem completion_ok (env : CallEnv) {call : PrepareCall} {context : call.Context}
    {completion : Completion} {ids : List Uuid} (hfresh : db.FreshIds ids) (hheld : db.HeldBy call.operation o)
    (hobs : call.Observed db context) (hdone : call.CompletedBy db context completion) :
    completion.operation = call.operation ∧
      ∃ db₁, completion.before env o db = .ok ((), db₁) := by
  cases call with
  | reconcile command => cases completion <;> exact hdone.elim
  | delete command =>
    cases completion with
    | delete done =>
      obtain rfl : done = command := hdone
      exact ⟨rfl, delete_ok hobs⟩
    | _ => exact hdone.elim
  | createCredential command =>
    cases completion with
    | createCredential done credential =>
      obtain rfl : done = command := hdone.1
      exact ⟨rfl, create_ok hfresh hheld hobs hdone⟩
    | _ => exact hdone.elim
  | revokeCredential command =>
    cases completion with
    | revokeCredential done =>
      obtain rfl : done = command := hdone
      exact ⟨rfl, revoke_ok hobs⟩
    | _ => exact hdone.elim

theorem textBetween_nonempty {hi : Nat} {text : String} (h : textBetween 1 hi text = true) :
    text.isEmpty = false := by
  refine Bool.eq_false_iff.mpr fun he => ?_
  rw [String.isEmpty_iff.mp he] at h
  cases h

/-- the id a create was given is one that was drawn, so the check of the metadata passes -/
theorem completion_precheck {call : PrepareCall} {context : call.Context}
    {completion : Completion} {ids : List Uuid} (hfresh : db.FreshIds ids)
    (hids : ∀ id ∈ ids, id.isNil = false) (hobs : call.Observed db context)
    (hdone : call.CompletedBy db context completion) (response : StoredHttpResponse) :
    completion.precheck response = true := by
  cases call with
  | reconcile command => cases completion <;> exact hdone.elim
  | delete command =>
    cases completion with
    | delete done => rfl
    | _ => exact hdone.elim
  | createCredential command =>
    cases completion with
    | createCredential done credential =>
      obtain ⟨rfl, hid, hname, hpermissions, hgarage, haccess, -⟩ := hdone
      obtain ⟨-, -, -, c, hc, -, -, hcid⟩ := hobs
      have hnil : credential.id.isNil = false := by
        rw [hid, ← hcid]
        exact hids _ (hfresh.reservations c hc)
      simp [Completion.precheck, hnil, textBetween_nonempty hgarage,
        textBetween_nonempty haccess, hname, hpermissions]
    | _ => exact hdone.elim
  | revokeCredential command =>
    cases completion with
    | revokeCredential done => rfl
    | _ => exact hdone.elim

/-- **A prepared create, delete or revoke can be completed.**  In every run of store calls that
draws new credential ids, if such a call was answered `Execute` and, after any further calls, its
operation id still holds its receipt, then the matching completing call succeeds. -/
theorem prepared_completes {call : PrepareCall} {context : call.Context}
    {db₀ db₁ db₂ : Database} {env₀ : CallEnv} {tr₀ tr : List CallRecord} {finish : FinishCall}
    (hbefore : Run (StoreStep store) Database.empty tr₀ db₀)
    (hprep : StoreStep store db₀ ⟨env₀, .prepare call, .ok (.execute o context)⟩ db₁)
    (hrun : Run (StoreStep store) db₁ tr db₂)
    (hdraws : Draws (tr₀ ++ ⟨env₀, .prepare call, .ok (.execute o context)⟩ :: tr))
    (hheld : db₂.HeldBy call.operation o)
    (hdone : call.CompletedBy db₂ context finish.completion) (ho : finish.operationId = o)
    (hrec : finish.Recordable store env db₂) :
    ∃ db₃, StoreStep store db₂ ⟨env, .finish finish, .ok ()⟩ db₃ := by
  have hexec : call.exec store env₀ db₀ = .ok (.execute o context, db₁) := step_ok hprep
  have hx : db₁.Exclusive := (reachable_exclusive ⟨tr₀, hbefore⟩).step hprep
  obtain ⟨row₁, hl₁, hreq₁, -, -⟩ := executed_receipt hexec
  obtain ⟨row, hl, -, -, hs⟩ := id hheld
  have hobs := (prepare_observed hexec).run hx hrun hl₁ hreq₁ hl hs
  have hfresh := Database.FreshIds.run (hbefore.append (.cons hprep hrun)) hdraws.nodup
  have hids : ∀ id ∈ (tr₀ ++ ⟨env₀, .prepare call, .ok (.execute o context)⟩ :: tr).map
      (fun r => r.env.credentialId), id.isNil = false := by
    intro id hid
    obtain ⟨r, hr, rfl⟩ := List.mem_map.mp hid
    exact hdraws.notNil r hr
  obtain ⟨hoperation, db₃, hwrites⟩ := completion_ok env hfresh hheld hobs hdone
  have hpre := completion_precheck hfresh hids hobs hdone finish.response
  have hheld' : db₂.HeldBy finish.operation finish.operationId := by
    rw [ho, FinishCall.operation, hoperation]
    exact hheld
  obtain ⟨db₄, h⟩ := (finish_ok_iff hheld' hrec hpre).mpr ⟨db₃, ho ▸ hwrites⟩
  exact ⟨db₄, step_of_ok h⟩

/-- the create of service 10 is completed after service 11 was reconciled -/
theorem prepared_completes_creating :
    let command := Sample.create 101 10 "key"
    let db₀ := (PgStore.reference.play Sample.serviceA Database.empty).2
    let db₁ := ((StoreCall.prepare (.createCredential command)).run PgStore.reference
      (Sample.env 2 2) db₀).2
    let db₂ := (PgStore.reference.play (Sample.serviceB "b" "bucket-b") db₁).2
    ∃ db₃, StoreStep PgStore.reference db₂ ⟨Sample.env 6 6, Sample.finish (.createCredential command
      ⟨2002, "GK1", "GK1", 0, "key", ⟨true, false⟩⟩) 1002, .ok ()⟩ db₃ := by
  intro command db₀ db₁ db₂
  have hprep : StoreStep PgStore.reference db₀ ⟨Sample.env 2 2,
      .prepare (.createCredential command), .ok (.execute 1002
        ⟨(Sample.reconcile 100 10 "a" "bucket-a" 1).desiredBucket (some "garage-a"), 2002⟩)⟩ db₁ :=
    step_of_answer (by decide +kernel)
  have hrun : Run (StoreStep PgStore.reference) db₁ _ db₂ :=
    play_run PgStore.reference (Sample.serviceB "b" "bucket-b") db₁
  obtain ⟨row, hl, hrow⟩ := (Option.any_eq_true _ _).mp (show
    (db₂.receipts.lookup 101).any (fun row => decide (row.request = command.operation ∧
      row.operationId = 1002 ∧ row.state = .inProgress)) = true by decide +kernel)
  have hrows : (∀ d ∈ db₂.credentials.rows, d.garageKeyId ≠ "GK1" ∧ d.accessKeyId ≠ "GK1") ∧
      db₂.audits.lookup (Sample.env 6 6).auditId = none := by decide +kernel
  have hrec : FinishCall.Recordable PgStore.reference (Sample.env 6 6) db₂
      ⟨.createCredential command ⟨2002, "GK1", "GK1", 0, "key", ⟨true, false⟩⟩, 1002,
        ⟨200, .object [], false⟩, Sample.audit command.operation⟩ :=
    ⟨⟨_, rfl⟩, by decide, by decide +kernel, by decide +kernel, hrows.2⟩
  exact prepared_completes (play_run _ Sample.serviceA _) hprep hrun
    ⟨by decide +kernel, by decide +kernel⟩ ⟨row, hl, of_decide_eq_true hrow⟩
    ⟨rfl, rfl, rfl, rfl, by decide, by decide, hrows.1⟩ rfl hrec

/-- **A key id that cannot be stored.**  The key id has one character, U+0000, which no text column
takes. -/
theorem nul_key_refused :
    let command := Sample.create 101 10 "key"
    let db₀ := (PgStore.reference.play Sample.serviceA Database.empty).2
    let db₁ := ((StoreCall.prepare (.createCredential command)).run PgStore.reference
      (Sample.env 2 2) db₀).2
    StoreStep PgStore.reference db₀ ⟨Sample.env 2 2, .prepare (.createCredential command),
        .ok (.execute 1002 ⟨(Sample.reconcile 100 10 "a" "bucket-a" 1).desiredBucket
          (some "garage-a"), 2002⟩)⟩ db₁ ∧
      db₁.HeldBy command.operation 1002 ∧ "\x00".length = 1 ∧
      (∀ d ∈ db₁.credentials.rows, d.garageKeyId ≠ "\x00" ∧ d.accessKeyId ≠ "\x00") ∧
      (Sample.finish (.createCredential command
        ⟨2002, "\x00", "\x00", 0, "key", ⟨true, false⟩⟩) 1002).run PgStore.reference
        (Sample.env 3 3) db₁ = (.error (.database .checkViolation), db₁) := by
  intro command db₀ db₁
  have hprep : StoreStep PgStore.reference db₀ ⟨Sample.env 2 2,
      .prepare (.createCredential command), .ok (.execute 1002
        ⟨(Sample.reconcile 100 10 "a" "bucket-a" 1).desiredBucket (some "garage-a"), 2002⟩)⟩ db₁ :=
    step_of_answer (by decide +kernel)
  have hexec : (PrepareCall.createCredential command).exec PgStore.reference _ db₀ = _ :=
    step_ok hprep
  exact ⟨hprep, executed_receipt hexec, rfl, by decide +kernel, run_refused (by decide +kernel)⟩

end

end Syouyu
