import Syouyu.Store.Changes
import Syouyu.Store.Reference

/-!
# Scopes and credential limits

* `service_kept`        a service row is never removed, keeps its scope, and a deleted one keeps
                        everything;
* `Database.Scoped`     buckets, credentials and reservations belong to a service of their scope;
* `occupied_step`       what a step does to the number of active credentials and reservations of
                        any set of scopes: only a new reservation raises it, by one;
* `credential_limits_hold`   the limits hold in every state that any number of replicas reach.
-/

set_option linter.unusedSectionVars false

namespace Syouyu
open Lib

section
variable {store : PgStore} {db db' : Database} {r : CallRecord}

/-! ## services are kept -/

/-- the step for one row: its scope stays, and a deleted row stays -/
theorem service_kept (h : StoreStep store db r db') {s : Uuid} {row : ServiceRow}
    (hl : db.services.lookup s = some row) :
    ∃ row', db'.services.lookup s = some row' ∧ row'.organizationId = row.organizationId ∧
      row'.projectId = row.projectId ∧ (row.phase = .deleted → row' = row) := by
  -- an update of one live row that keeps its scope
  have hupdate : ∀ {k : Uuid} {f : ServiceRow → ServiceRow} {old : ServiceRow},
      db.services.updateWhere (serviceSchema.hasKey k) f = .ok db'.services →
      (∀ q, (f q).id = q.id ∧ (f q).organizationId = q.organizationId ∧
        (f q).projectId = q.projectId) →
      db.services.lookup k = some old → old.phase ≠ .deleted →
      ∃ row', db'.services.lookup s = some row' ∧ row'.organizationId = row.organizationId ∧
        row'.projectId = row.projectId ∧ (row.phase = .deleted → row' = row) := by
    intro k f old hu hf hold hlive
    rw [Table.lookup_update_key hu (fun q => (hf q).1)]
    by_cases hk : s = k
    · subst hk
      obtain rfl : old = row := Option.some.inj (hold.symm.trans hl)
      rw [if_pos rfl, hl]
      exact ⟨f old, rfl, (hf old).2.1, (hf old).2.2, fun hd => absurd hd hlive⟩
    · rw [if_neg hk]
      exact ⟨row, hl, rfl, rfl, fun _ => rfl⟩
  obtain ⟨env, call, answer⟩ := r
  cases service_change h with
  | same hs _ => exact ⟨row, hs ▸ hl, rfl, rfl, fun _ => rfl⟩
  | reconciled _ hs _ =>
    rcases hs with ⟨hnone, hi⟩ | ⟨old, hold, ⟨-, -, -, hlive⟩, hu⟩
    · refine ⟨row, ?_, rfl, rfl, fun _ => rfl⟩
      rw [Table.lookup_insert hi, ← hl]
      refine if_neg fun hk => ?_
      rw [← hk, show serviceSchema.key _ = _ from rfl] at hl
      exact absurd_none_some hnone hl
    · exact hupdate hu (fun _ => ⟨rfl, rfl, rfl⟩) hold hlive
  | deleted _ hold _ _ hlive hu _ => exact hupdate hu (fun _ => ⟨rfl, rfl, rfl⟩) hold hlive
  | measured hs _ => exact ⟨row, hs ▸ hl, rfl, rfl, fun _ => rfl⟩

theorem scopeExists_iff {s o p : Uuid} :
    db.scopeExists s o p = true ↔
      ∃ row, db.services.lookup s = some row ∧ row.organizationId = o ∧ row.projectId = p := by
  simp only [Database.scopeExists, Option.any_eq_true, Bool.and_eq_true, decide_eq_true_eq]

theorem scopeExists_step (h : StoreStep store db r db') {s o p : Uuid}
    (hs : db.scopeExists s o p = true) : db'.scopeExists s o p = true := by
  obtain ⟨row, hl, ho, hp⟩ := scopeExists_iff.mp hs
  obtain ⟨row', hl', ho', hp', -⟩ := service_kept h hl
  exact scopeExists_iff.mpr ⟨row', hl', ho'.trans ho, hp'.trans hp⟩

/-- a service has one scope -/
theorem scope_unique {s o p o' p' : Uuid} (h : db.scopeExists s o p = true)
    (h' : db.scopeExists s o' p' = true) : o = o' ∧ p = p' := by
  obtain ⟨row, hl, rfl, rfl⟩ := scopeExists_iff.mp h
  obtain ⟨row', hl', rfl, rfl⟩ := scopeExists_iff.mp h'
  obtain rfl : row = row' := Option.some.inj (hl.symm.trans hl')
  exact ⟨rfl, rfl⟩

/-! ## foreign keys -/

/-- buckets, credentials and reservations point to a service of their scope -/
structure Database.Scoped (db : Database) : Prop where
  buckets : ∀ b ∈ db.buckets.rows,
    db.scopeExists b.serviceInstanceId b.organizationId b.projectId = true
  credentials : ∀ c ∈ db.credentials.rows,
    db.scopeExists c.serviceInstanceId c.organizationId c.projectId = true
  reservations : ∀ c ∈ db.credentialReservations.rows,
    db.scopeExists c.serviceInstanceId c.organizationId c.projectId = true

theorem Database.Scoped.empty : Database.empty.Scoped :=
  ⟨by simp [Database.empty], by simp [Database.empty], by simp [Database.empty]⟩

theorem Database.Scoped.step (hdb : db.Scoped) (h : StoreStep store db r db') : db'.Scoped := by
  have hkeep : ∀ {s o p : Uuid}, db.scopeExists s o p = true → db'.scopeExists s o p = true :=
    scopeExists_step h
  obtain ⟨env, call, answer⟩ := r
  refine ⟨?_, ?_, ?_⟩
  · have hold : ∀ b ∈ db.buckets.rows,
        db'.scopeExists b.serviceInstanceId b.organizationId b.projectId = true :=
      fun b hb => hkeep (hdb.buckets b hb)
    cases service_change h with
    | same _ hb => exact hb ▸ hold
    | @reconciled call command pid _ hs hb =>
      rcases hb with ⟨-, hi⟩ | ⟨-, hu⟩
      · intro b hb
        rcases (Table.mem_insert hi).mp hb with hb | rfl
        · exact hold b hb
        · -- the service row of the command was written just before
          rcases hs with ⟨-, hi⟩ | ⟨old, hl, ⟨ho, hp, -⟩, hu⟩
          · refine scopeExists_iff.mpr ⟨PgStore.reconciledService env command call.operationId,
              ?_, rfl, rfl⟩
            rw [Table.lookup_insert hi]
            exact if_pos rfl
          · refine scopeExists_iff.mpr ⟨PgStore.reconcileService env command call.operationId old,
              ?_, ho, hp⟩
            show db'.services.lookup command.operation.serviceInstanceId = _
            exact Table.lookup_updated hu (fun _ => rfl) hl
      · exact Table.forall_updateWhere hu (fun _ hq => hq) hold
    | deleted _ _ _ _ _ _ hb => exact hb ▸ hold
    | measured _ hu => exact Table.forall_updateWhere hu (fun _ hq => hq) hold
  · have hold : ∀ c ∈ db.credentials.rows,
        db'.scopeExists c.serviceInstanceId c.organizationId c.projectId = true :=
      fun c hc => hkeep (hdb.credentials c hc)
    cases credential_change h with
    | same hc _ => exact hc ▸ hold
    | moved _ _ _ hc _ => exact hc ▸ hold
    | reserved _ _ _ hc _ => exact hc ▸ hold
    | created _ _ _ _ _ hf hi _ =>
      intro c hc
      rcases (Table.mem_insert hi).mp hc with hc | rfl
      · exact hold c hc
      · exact hkeep hf
    | revokedAll _ hu _ => exact Table.forall_updateWhere hu (fun _ hq => hq) hold
    | revoked _ _ _ hu _ => exact Table.forall_updateWhere hu (fun _ hq => hq) hold
    | released _ hc _ => exact hc ▸ hold
  · have hold : ∀ c ∈ db.credentialReservations.rows,
        db'.scopeExists c.serviceInstanceId c.organizationId c.projectId = true :=
      fun c hc => hkeep (hdb.reservations c hc)
    cases credential_change h with
    | same _ hc => exact hc ▸ hold
    | moved _ _ _ _ hu => exact Table.forall_updateWhere hu (fun _ hq => hq) hold
    | reserved _ _ hf _ hi =>
      intro c hc
      rcases (Table.mem_insert hi).mp hc with hc | rfl
      · exact hold c hc
      · exact hkeep hf
    | created _ _ _ _ _ _ _ hd =>
      rw [hd]
      exact fun c hc => hold c (Table.mem_deleteWhere.mp hc).1
    | revokedAll _ _ hc => exact hc ▸ hold
    | revoked _ _ _ _ hc => exact hc ▸ hold
    | released _ _ hd =>
      rw [hd]
      exact fun c hc => hold c (Table.mem_deleteWhere.mp hc).1

theorem reachable_scoped (h : Reachable store db) : db.Scoped := by
  obtain ⟨tr, h⟩ := h
  exact h.invariant Database.Scoped (fun _ _ _ hs hstep => hs.step hstep) .empty

/-! ## occupied slots -/

/-- active credentials plus pending reservations of the scopes in `P` -/
def Database.occupied (db : Database) (P : Uuid → Uuid → Bool) : Nat :=
  db.credentials.count (fun c => P c.serviceInstanceId c.organizationId &&
    decide (c.status = .active)) +
  db.credentialReservations.count (fun c => P c.serviceInstanceId c.organizationId)

theorem perBucket_eq (s : Uuid) : db.perBucket s = db.occupied (fun s' _ => decide (s' = s)) := rfl

theorem perOrganization_eq (o : Uuid) :
    db.perOrganization o = db.occupied (fun _ o' => decide (o' = o)) := rfl

/-- a revocation frees slots or leaves them -/
theorem occupied_revoke {env : CallEnv} {principal : Uuid} {p : CredentialRow → Bool}
    {P : Uuid → Uuid → Bool}
    (hu : db.credentials.updateWhere p (PgStore.revokedCredential env principal) =
      .ok db'.credentials)
    (hr : db'.credentialReservations = db.credentialReservations) :
    db'.occupied P ≤ db.occupied P := by
  unfold Database.occupied
  rw [hr]
  refine Nat.add_le_add_right (Table.count_updateWhere_le hu fun c _ _ hq => ?_) _
  simp [PgStore.revokedCredential] at hq

/-- a completed creation turns its reservation into a credential of the same scope -/
theorem occupied_create {row : CredentialRow} {reservation : CredentialReservationRow}
    {p : CredentialReservationRow → Bool} {P : Uuid → Uuid → Bool}
    (hi : db.credentials.insert row = .ok db'.credentials)
    (hd : db'.credentialReservations = db.credentialReservations.deleteWhere p)
    (hmem : reservation ∈ db.credentialReservations.rows) (hp : p reservation = true)
    (hs : reservation.serviceInstanceId = row.serviceInstanceId)
    (ho : reservation.organizationId = row.organizationId) :
    db'.occupied P ≤ db.occupied P := by
  unfold Database.occupied
  rw [hd, Table.count_insert hi]
  have hdel := Table.count_deleteWhere db.credentialReservations p
    (fun c => P c.serviceInstanceId c.organizationId)
  split
  · rename_i hrow
    rw [Bool.and_eq_true, ← hs, ← ho] at hrow
    have hpos : 0 < db.credentialReservations.count
        (fun c => p c && P c.serviceInstanceId c.organizationId) :=
      Table.count_pos.mpr ⟨reservation, hmem, by simp [hp, hrow.1]⟩
    omega
  · omega

/-- **only a new reservation takes a slot, and only of its own scope** -/
theorem occupied_step (hdb : db.Scoped) (h : StoreStep store db r db') (P : Uuid → Uuid → Bool) :
    db'.occupied P ≤ db.occupied P ∨
    ∃ command, r.call = .prepare (.createCredential command) ∧ db.Admitted store command ∧
      db'.occupied P = db.occupied P +
        if P command.operation.serviceInstanceId command.operation.organizationId then 1 else 0 := by
  obtain ⟨env, call, answer⟩ := r
  cases credential_change h with
  | same hc hr =>
    left
    unfold Database.occupied
    rw [hc, hr]
  | moved _ _ _ hc hu =>
    left
    unfold Database.occupied
    rw [hc]
    refine Nat.add_le_add_left (Table.count_updateWhere_le hu fun c _ _ hq => ?_) _
    exact hq
  | @reserved command _ hadm _ hc hi =>
    refine .inr ⟨command, rfl, hadm, ?_⟩
    unfold Database.occupied
    rw [hc, Table.count_insert hi, Nat.add_assoc]
    rfl
  | @created call command credential reservation _ hl ho hs _ hf hi hd =>
    left
    have hmem := Table.lookup_mem hl
    have hscope := hdb.reservations reservation hmem
    rw [hs] at hscope
    refine occupied_create hi hd hmem ?_ hs (scope_unique hscope hf).1
    simp only [Bool.and_eq_true, Schema.hasKey_iff, decide_eq_true_eq]
    exact ⟨Table.lookup_key hl, ho⟩
  | revokedAll _ hu hr => exact .inl (occupied_revoke hu hr)
  | revoked _ _ _ hu hr => exact .inl (occupied_revoke hu hr)
  | @released call _ _ hc hd =>
    left
    have hdel := Table.count_deleteWhere db.credentialReservations
      (fun c => decide (c.operationId = call.operationId))
      (fun c => P c.serviceInstanceId c.organizationId)
    unfold Database.occupied
    rw [hc, hd]
    omega

end

/-! ## the limits -/

/-- a call made by some replica that is configured with the limits -/
def ReplicaStep (limits : CredentialLimits) (db : Database) (r : CallRecord) (db' : Database) :
    Prop :=
  ∃ store : PgStore, store.credentialLimits = limits ∧ StoreStep store db r db'

/-- the counts are within the configured limits, and rows are scoped -/
structure Database.WithinLimits (db : Database) (limits : CredentialLimits) : Prop where
  rowScopes : db.Scoped
  bucket : ∀ s, db.perBucket s ≤ limits.maxCredentialsPerBucket.toNat
  organization : ∀ o, db.perOrganization o ≤ limits.maxTotalCredentials.toNat

section
variable {store : PgStore} {limits : CredentialLimits} {db db' : Database} {r : CallRecord}

theorem min_toNat_le (a b : UInt32) :
    (min a b).toNat ≤ a.toNat ∧ (min a b).toNat ≤ b.toNat := by
  show (if a ≤ b then a else b).toNat ≤ _ ∧ (if a ≤ b then a else b).toNat ≤ _
  split
  · rename_i h
    exact ⟨Nat.le_refl _, UInt32.le_iff_toNat_le.mp h⟩
  · rename_i h
    rw [UInt32.le_iff_toNat_le] at h
    exact ⟨by omega, Nat.le_refl _⟩

theorem Database.WithinLimits.empty : Database.empty.WithinLimits limits :=
  ⟨.empty, fun _ => Nat.zero_le _, fun _ => Nat.zero_le _⟩

theorem Database.WithinLimits.step (hdb : db.WithinLimits limits)
    (h : ReplicaStep limits db r db') : db'.WithinLimits limits := by
  obtain ⟨store, rfl, h⟩ := h
  refine ⟨hdb.rowScopes.step h, fun s => ?_, fun o => ?_⟩
  · rw [perBucket_eq]
    rcases occupied_step hdb.rowScopes h (fun s' _ => decide (s' = s)) with hle | ⟨command, -, hadm, he⟩
    · exact hle.trans (hdb.bucket s)
    · rw [he]
      split
      · rename_i hs
        obtain rfl := of_decide_eq_true hs
        exact (Nat.succ_le_of_lt hadm.2.2.1).trans (min_toNat_le _ _).2
      · exact hdb.bucket s
  · rw [perOrganization_eq]
    rcases occupied_step hdb.rowScopes h (fun _ o' => decide (o' = o)) with hle | ⟨command, -, hadm, he⟩
    · exact hle.trans (hdb.organization o)
    · rw [he]
      split
      · rename_i ho
        obtain rfl := of_decide_eq_true ho
        exact (Nat.succ_le_of_lt hadm.2.2.2).trans (min_toNat_le _ _).2
      · exact hdb.organization o

/-- a prepare call that wrote a new reservation was admitted -/
theorem reserved_admitted {env : CallEnv} {command : CreateCredentialCommand}
    {answer : Except StoreError (Prepare CreateCredentialContext)}
    (h : StoreStep store db ⟨env, .prepare (.createCredential command), answer⟩ db')
    (hnew : ∃ c ∈ db'.credentialReservations.rows, ∀ q ∈ db.credentialReservations.rows,
      q.credentialId ≠ c.credentialId) :
    db.Admitted store command ∧ ∀ P, db'.occupied P ≤ db.occupied P + 1 := by
  obtain ⟨c, hc, hnew⟩ := hnew
  cases credential_change h with
  | same _ hr => exact absurd rfl (hnew c (hr ▸ hc))
  | moved _ _ _ _ hu =>
    obtain ⟨q, hq, rfl⟩ := (Table.mem_updateWhere hu).mp hc
    refine absurd ?_ (hnew q hq)
    unfold Table.touch
    split <;> rfl
  | reserved _ hadm _ hcred hi =>
    refine ⟨hadm, fun P => ?_⟩
    unfold Database.occupied
    rw [hcred, Table.count_insert hi]
    split <;> omega

/-- the calls of one replica -/
theorem run_replica {tr : List CallRecord} (h : Run (StoreStep store) db tr db') :
    Run (ReplicaStep store.credentialLimits) db tr db' := by
  induction h with
  | nil s => exact .nil s
  | cons hs _ ih => exact .cons ⟨store, rfl, hs⟩ ih

/-- **Credential limits hold over every run.**  Whatever calls any number of replicas with the
same limits make, no service and no organization ever has more active credentials and pending
reservations than configured; and right after a call that created a reservation, the counts are
within the limits of its own command too. -/
theorem credential_limits_hold (limits : CredentialLimits) (tr : List CallRecord) (db : Database)
    (h : Run (ReplicaStep limits) Database.empty tr db) :
    (∀ s, db.perBucket s ≤ limits.maxCredentialsPerBucket.toNat) ∧
    (∀ o, db.perOrganization o ≤ limits.maxTotalCredentials.toNat) ∧
    ∀ env command answer db',
      ReplicaStep limits db ⟨env, .prepare (.createCredential command), answer⟩ db' →
      (∃ c ∈ db'.credentialReservations.rows, ∀ q ∈ db.credentialReservations.rows,
        q.credentialId ≠ c.credentialId) →
      db'.perBucket command.operation.serviceInstanceId ≤
        command.credentialLimits.maxCredentialsPerBucket.toNat ∧
      db'.perOrganization command.operation.organizationId ≤
        command.credentialLimits.maxTotalCredentials.toNat := by
  have hdb : db.WithinLimits limits :=
    h.invariant (fun db => db.WithinLimits limits)
      (fun _ _ _ hdb hs => Database.WithinLimits.step hdb hs) .empty
  refine ⟨hdb.bucket, hdb.organization, fun env command answer db' hstep hnew => ?_⟩
  obtain ⟨store, -, hstep⟩ := hstep
  obtain ⟨⟨-, -, hb, ho⟩, hone⟩ := reserved_admitted hstep hnew
  constructor
  · calc db'.perBucket command.operation.serviceInstanceId
        ≤ db.perBucket command.operation.serviceInstanceId + 1 := hone fun s _ => decide (s = _)
      _ ≤ (store.maxCredentialsPerBucket command).toNat := hb
      _ ≤ command.credentialLimits.maxCredentialsPerBucket.toNat := (min_toNat_le _ _).1
  · calc db'.perOrganization command.operation.organizationId
        ≤ db.perOrganization command.operation.organizationId + 1 := hone fun _ o => decide (o = _)
      _ ≤ (store.maxTotalCredentials command).toNat := ho
      _ ≤ command.credentialLimits.maxTotalCredentials.toNat := (min_toNat_le _ _).1

/-- the pending credential counts, and stays within the limits of the reference store -/
theorem credential_limits_hold_creating :
    let db := (PgStore.reference.play Sample.creating Database.empty).2
    db.perBucket 10 = 1 ∧ db.perOrganization 1 = 1 ∧ db.perBucket 10 ≤ 2 ∧
      db.perOrganization 1 ≤ 3 := by
  have h := credential_limits_hold _ _ _ (run_replica (play_run PgStore.reference Sample.creating _))
  exact ⟨by decide +kernel, by decide +kernel, h.1 10, h.2.1 1⟩

end

end Syouyu
