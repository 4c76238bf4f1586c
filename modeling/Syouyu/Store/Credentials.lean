import Syouyu.Store.Changes
import Syouyu.Store.Reference

/-!
# Credentials are revoked at most once and never removed

Two calls write the revocation of a credential, `complete_delete` for all active credentials of a
service and `complete_revoke_credential` for one, revoked or not.

* `revoked_again`         a revocation that is repeated changes nothing;
* `credential_step`       one call leaves a credential as it is, or revokes an active one;
* `credential_run`        over a run there is at most one such call, and its writes stay;
* `credential_lifecycle`  **identity, one-way status and uniqueness over any run of calls**.
-/

set_option linter.unusedSectionVars false

namespace Syouyu
open Lib

/-- the completing call aims at the credential -/
def FinishCall.Revokes (call : FinishCall) (c : CredentialRow) : Prop :=
  match call.completion with
  | .delete command => c.serviceInstanceId = command.operation.serviceInstanceId
  | .revokeCredential command => c.id = command.credentialId
  | _ => False

/-- the call has made the row of an active credential that of a revoked one -/
def CallRecord.Revokes (r : CallRecord) (c c' : CredentialRow) : Prop :=
  c.status = .active ∧ ∃ env finish u, r = ⟨env, .finish finish, .ok u⟩ ∧ finish.Revokes c ∧
    c' = PgStore.revokedCredential env finish.operation.principalId c

section
variable {store : PgStore} {env : CallEnv} {db db' : Database} {r : CallRecord}
  {c c' : CredentialRow}

/-- **a repeated revocation changes nothing** -/
theorem revoked_again (hc : c ∈ db.credentials.rows) (hs : c.status = .revoked) (principal : Uuid) :
    PgStore.revokedCredential env principal c = c := by
  have hcheck := db.credentials.checked c hc
  simp only [credentialSchema, hs, Bool.and_eq_true] at hcheck
  obtain ⟨-, hat, hby⟩ := hcheck
  obtain ⟨at_, hat⟩ := Option.isSome_iff_exists.mp hat
  obtain ⟨by_, hby⟩ := Option.isSome_iff_exists.mp hby
  obtain ⟨_, _, _, _, _, _, _, _, _, _, _, _, _, _⟩ := c
  subst hs hat hby
  rfl

theorem CallRecord.Revokes.revoked (h : r.Revokes c c') : c'.status = .revoked := by
  obtain ⟨-, env, finish, u, -, -, rfl⟩ := h
  rfl

/-- **one call leaves a credential as it is, or revokes an active one** -/
theorem credential_step (h : StoreStep store db r db') (hc : c ∈ db.credentials.rows) :
    c ∈ db'.credentials.rows ∨ ∃ c' ∈ db'.credentials.rows, r.Revokes c c' := by
  obtain ⟨env, call, answer⟩ := r
  cases answer with
  | error e =>
    obtain rfl := step_error h
    exact .inl hc
  | ok a =>
    cases credential_change h with
    | same heq _ => exact .inl (heq ▸ hc)
    | moved _ _ _ heq _ => exact .inl (heq ▸ hc)
    | reserved _ _ _ heq _ => exact .inl (heq ▸ hc)
    | released _ heq _ => exact .inl (heq ▸ hc)
    | created _ _ _ _ _ _ hi _ => exact .inl ((Table.mem_insert hi).mpr (.inl hc))
    | @revokedAll finish command hcomp hu _ =>
      have hop : finish.operation = command.operation := congrArg Completion.operation hcomp
      have hmem := (Table.mem_updateWhere hu).mpr ⟨c, hc, rfl⟩
      by_cases hp : c.serviceInstanceId = command.operation.serviceInstanceId ∧ c.status = .active
      · rw [Table.touch, if_pos (by simpa using hp)] at hmem
        refine .inr ⟨_, hmem, hp.2, env, finish, a, rfl, ?_, by rw [hop]⟩
        simpa only [FinishCall.Revokes, hcomp] using hp.1
      · rw [Table.touch, if_neg (by simpa using hp)] at hmem
        exact .inl hmem
    | @revoked finish command old hcomp hl _ hu _ =>
      have hop : finish.operation = command.operation := congrArg Completion.operation hcomp
      have hmem := (Table.mem_updateWhere hu).mpr ⟨c, hc, rfl⟩
      by_cases hk : credentialSchema.hasKey command.credentialId c = true
      · rw [Table.touch, if_pos hk] at hmem
        cases hs : c.status with
        | active =>
          have hid : c.id = command.credentialId := Schema.hasKey_iff.mp hk
          refine .inr ⟨_, hmem, hs, env, finish, a, rfl, ?_, by rw [hop]⟩
          simpa only [FinishCall.Revokes, hcomp] using hid
        | revoked =>
          -- revoked before: `COALESCE` keeps what is there
          rw [revoked_again hc hs] at hmem
          exact .inl hmem
      · rw [Table.touch, if_neg hk] at hmem
        exact .inl hmem

/-- **over a run at most one call changes a credential, and what it writes stays** -/
theorem credential_run {tr : List CallRecord} (h : Run (StoreStep store) db tr db')
    (hc : c ∈ db.credentials.rows) :
    c ∈ db'.credentials.rows ∨ ∃ c' ∈ db'.credentials.rows, ∃ tr₁ r tr₂ db₁ db₂,
      tr = tr₁ ++ r :: tr₂ ∧ Run (StoreStep store) db tr₁ db₁ ∧ c ∈ db₁.credentials.rows ∧
      StoreStep store db₁ r db₂ ∧ r.Revokes c c' ∧ c' ∈ db₂.credentials.rows := by
  induction h generalizing c with
  | nil db => exact .inl hc
  | @cons db db₁ db' r tr hstep hrun ih =>
    rcases credential_step hstep hc with hsame | ⟨c', hc', hrev⟩
    · rcases ih hsame with hend | ⟨c', hc', tr₁, r', tr₂, db₂, db₃, rfl, hrun₁, hmem, hstep', hrev⟩
      · exact .inl hend
      · exact .inr ⟨c', hc', r :: tr₁, r', tr₂, db₂, db₃, rfl, .cons hstep hrun₁, hmem, hstep', hrev⟩
    · refine .inr ⟨c', ?_, [], r, tr, db, db₁, rfl, .nil _, hc, hstep, hrev, hc'⟩
      -- a revoked credential is not changed again
      rcases ih hc' with hend | ⟨_, -, _, _, _, _, _, -, -, -, -, hagain, -⟩
      · exact hend
      · exact absurd (hagain.1.symm.trans hrev.revoked) nofun

/-- two rows of the table have different Garage keys, and different names in one service -/
theorem credentials_distinct {d : CredentialRow} (hc : c ∈ db.credentials.rows)
    (hd : d ∈ db.credentials.rows) (hne : d.id ≠ c.id) :
    (d.serviceInstanceId = c.serviceInstanceId → d.name ≠ c.name) ∧
      d.garageKeyId ≠ c.garageKeyId := by
  have hunique : credentialSchema.unique d c = false := by
    by_contra hclash
    have heq := db.credentials.eq_of_unique hd hc (Bool.eq_true_of_not_eq_false hclash)
    exact hne (congrArg CredentialRow.id heq)
  simp only [credentialSchema, Bool.or_eq_false_iff, Bool.and_eq_false_iff,
    decide_eq_false_iff_not] at hunique
  exact ⟨fun hs hname => hunique.2.elim (fun h => h hs) (fun h => h hname), hunique.1.1⟩

/-- **The lifecycle of a credential.**  Whatever calls are made after a credential row is there,
its row stays; all its columns but the status and the revocation are as they were; and it is as it
was, or was active and one call of the run has revoked it: until then it was as it was, and its
status, `revoked_at` and `revoked_by` are still those of that call.  No other row, made before or
later, has its Garage key, or its name in its service. -/
theorem credential_lifecycle (store : PgStore) (db db' : Database) (tr : List CallRecord)
    (h : Run (StoreStep store) db tr db') (c : CredentialRow) (hc : c ∈ db.credentials.rows) :
    ∃ c' ∈ db'.credentials.rows,
      c' = { c with status := c'.status, revokedAt := c'.revokedAt, revokedBy := c'.revokedBy } ∧
      (c' = c ∨ ∃ tr₁ r tr₂ db₁ db₂, tr = tr₁ ++ r :: tr₂ ∧ Run (StoreStep store) db tr₁ db₁ ∧
        c ∈ db₁.credentials.rows ∧ StoreStep store db₁ r db₂ ∧ r.Revokes c c' ∧
        c'.revokedAt = some r.env.now ∧ c' ∈ db₂.credentials.rows) ∧
      ∀ d ∈ db'.credentials.rows, d.id ≠ c.id →
        (d.serviceInstanceId = c.serviceInstanceId → d.name ≠ c.name) ∧
        d.garageKeyId ≠ c.garageKeyId := by
  rcases credential_run h hc with
    hsame | ⟨c', hc', tr₁, r, tr₂, db₁, db₂, htr, hrun, hmem, hstep, hrev, hwritten⟩
  · exact ⟨c, hsame, rfl, .inl rfl, fun d hd hne => credentials_distinct hsame hd hne⟩
  · have hcheck := db.credentials.checked c hc
    simp only [credentialSchema, hrev.1, Bool.and_eq_true, Option.isNone_iff_eq_none] at hcheck
    have hnow : c'.revokedAt = some r.env.now := by
      obtain ⟨-, env, finish, u, rfl, -, rfl⟩ := hrev
      simp [PgStore.revokedCredential, hcheck.2.1]
    obtain ⟨-, env, finish, u, rfl, -, rfl⟩ := id hrev
    exact ⟨_, hc', rfl,
      .inr ⟨tr₁, _, tr₂, db₁, db₂, htr, hrun, hmem, hstep, hrev, hnow, hwritten⟩,
      fun d hd hne => credentials_distinct (c := PgStore.revokedCredential env
        finish.operation.principalId c) hc' hd hne⟩

/-- a credential is issued; then it is revoked at second 5, and again at second 7 -/
theorem credential_lifecycle_twice :
    let issued := Sample.creating ++ [(Sample.env 3 3, Sample.finish
      (.createCredential (Sample.create 101 10 "key") ⟨2002, "k", "k", 7, "key", ⟨true, false⟩⟩)
      1002)]
    let revoking := [(Sample.env 4 4, .prepare (.revokeCredential (Sample.revoke 102 10 2002))),
      (Sample.env 5 5, Sample.finish (.revokeCredential (Sample.revoke 102 10 2002)) 1004),
      (Sample.env 6 6, .prepare (.revokeCredential (Sample.revoke 103 10 2002))),
      (Sample.env 7 7, Sample.finish (.revokeCredential (Sample.revoke 103 10 2002)) 1006)]
    let db := (PgStore.reference.play issued Database.empty).2
    let db' := (PgStore.reference.play revoking db).2
    ∃ c ∈ db.credentials.rows, c.status = .active ∧
      ∃ c' ∈ db'.credentials.rows,
        c' = { c with status := .revoked, revokedAt := some (seconds 5), revokedBy := some 3 } := by
  intro issued revoking db db'
  obtain ⟨c, hc, hs⟩ := (Option.any_eq_true _ _).mp (show (db.credentials.lookup 2002).any
    (fun c => decide (c.status = .active)) = true by decide +kernel)
  refine ⟨c, Table.lookup_mem hc, of_decide_eq_true hs, ?_⟩
  obtain ⟨c', hc', hsame, -⟩ := credential_lifecycle PgStore.reference db db' _
    (play_run PgStore.reference revoking db) c (Table.lookup_mem hc)
  have hid : c'.id = 2002 := by
    rw [hsame]
    exact Table.lookup_key hc
  have hend := (show (db'.credentials.lookup 2002).all (fun c => decide (c.status = .revoked ∧
    c.revokedAt = some (seconds 5) ∧ c.revokedBy = some 3)) = true by decide +kernel)
  rw [show db'.credentials.lookup 2002 = some c' from hid ▸ Table.lookup_of_mem hc'] at hend
  obtain ⟨h1, h2, h3⟩ := of_decide_eq_true hend
  rw [h1, h2, h3] at hsame
  exact ⟨c', hc', hsame⟩

end

end Syouyu
