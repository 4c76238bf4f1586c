import Syouyu.Store.Contexts

/-!
# Credential reservations

`prepare_create_credential` reserves the id and the name of the credential to come.  Over the calls
handlers make, the reservations are exactly the creates in progress.

* `Session.Reserved`        every reservation belongs to a create in progress, and the other way
                            round; `Session.Reserved.step`;
* `reservation_spent`       **a finished create takes its reservation with it**;
* `Database.FreshIds`       ids and names of reservations are not those of credentials, as long as
                            `Uuid::now_v7` draws new ids; `FreshIds.step`, `FreshIds.run`;
* `credential_reservations_exact`   the main result.
-/

set_option linter.unusedSectionVars false

namespace Syouyu
open Lib

/-! ## creates in progress -/

/-- the reservation belongs to a create in progress -/
def Database.Creating (db : Database) (callOf : OperationRequest → PrepareCall)
    (c : CredentialReservationRow) : Prop :=
  ∃ q ∈ db.receipts.rows, q.Backs c ∧ q.state = .inProgress ∧
    ∃ command, callOf q.request = .createCredential command

structure Session.Reserved (callOf : OperationRequest → PrepareCall) (σ : Session) : Prop where
  bound : σ.Bound callOf
  backed : ∀ c ∈ σ.db.credentialReservations.rows, σ.db.Creating callOf c
  reserved : ∀ q ∈ σ.db.receipts.rows, q.state = .inProgress →
    ∀ command, callOf q.request = .createCredential command →
      ∃ c ∈ σ.db.credentialReservations.rows, c.operationId = q.operationId

section
variable {store : PgStore} {callOf : OperationRequest → PrepareCall} {σ σ' : Session}
  {r : CallRecord}

theorem Session.Reserved.start : Session.start.Reserved callOf where
  bound := .start
  backed := fun _ h => by cases h
  reserved := fun _ h => by cases h

/-- a finishing call that may end a create deletes the reservation of its operation id -/
theorem finish_spent {env : CallEnv} {db db' : Database} {finish : FinishCall} {u : Unit}
    (h : finish.exec store env db = .ok (u, db')) {c : CredentialReservationRow}
    (hc : c ∈ db.credentialReservations.rows) (ho : c.operationId = finish.operationId)
    (hcomp : (∃ operation, finish.completion = .fail operation) ∨
      ∃ command credential, finish.completion = .createCredential command credential)
    {c' : CredentialReservationRow} (hc' : c' ∈ db'.credentialReservations.rows) :
    c'.credentialId ≠ c.credentialId := by
  intro hid
  rw [finish_spends h] at hc'
  obtain ⟨hmem, hspared⟩ := Table.mem_deleteWhere.mp hc'
  obtain rfl : c' = c := Table.eq_of_key _ hmem hc hid
  rcases hcomp with ⟨operation, hcomp⟩ | ⟨command, credential, hcomp⟩
  · rw [hcomp] at hspared
    exact of_decide_eq_false hspared ho
  · -- the reservation the call found is the one of its operation id
    obtain ⟨-, -, db₁, _, _, _, hb, -⟩ := finish_eq_ok.mp h
    rw [hcomp] at hb hspared
    obtain ⟨-, found, _, hl, ⟨hfo, -, -⟩, -⟩ := applyCreateCredential_eq_ok.mp hb
    obtain rfl : found = c' := reservation_unique (Table.lookup_mem hl) hc (hfo.trans ho.symm)
    have hspent : (credentialReservationSchema.hasKey credential.id found &&
        decide (found.operationId = finish.operationId)) = true := by
      rw [Bool.and_eq_true, decide_eq_true_eq]
      exact ⟨Schema.hasKey_iff.mpr (Table.lookup_key hl), ho⟩
    exact absurd_true_false hspent hspared

/-- **a create that is finished takes its reservation with it** -/
theorem Session.Reserved.reservation_spent (hσ : σ.Reserved callOf)
    (h : BoundStep store callOf σ r σ') {c : CredentialReservationRow}
    (hc : c ∈ σ.db.credentialReservations.rows) {k : Uuid} {q q' : ReceiptRow}
    (hq : σ.db.receipts.lookup k = some q) (ho : q.operationId = c.operationId)
    (hq' : σ'.db.receipts.lookup k = some q') (hs' : q'.state ≠ .inProgress) :
    ∀ c' ∈ σ'.db.credentialReservations.rows, c'.credentialId ≠ c.credentialId := by
  obtain ⟨q₀, hq₀, hback, hprog, command, hcall⟩ := hσ.backed c hc
  obtain rfl : q = q₀ := receipt_unique (Table.lookup_mem hq) hq₀ (ho.trans hback.operationId.symm)
  -- the receipt is no longer held, so this call finished it
  have hset : r.Settles q.serviceInstanceId := by
    by_contra hset
    obtain ⟨held, hheld, hreq, hprog'⟩ := held_unless_settled h.step (Table.lookup_mem hq) hprog hset
    have hkey : held.idempotencyKey = k :=
      (congrArg OperationRequest.idempotencyKey hreq).trans (Table.lookup_key hq)
    have hlk : σ'.db.receipts.lookup k = some held := hkey ▸ Table.lookup_of_mem hheld
    exact hs' (Option.some.inj (hlk.symm.trans hq') ▸ hprog')
  obtain ⟨env, finish, u, rfl, hservice⟩ := hset
  have hexec := step_finished h.step
  obtain ⟨p, hp, hreq, hpo, hpprog⟩ := finished_receipt hexec
  have hps : p.serviceInstanceId = q.serviceInstanceId :=
    (congrArg OperationRequest.serviceInstanceId hreq).trans hservice
  obtain rfl : p = q := hσ.bound.sound.exclusive p hp q (Table.lookup_mem hq) hps hpprog hprog
  have hcallf : callOf finish.operation = .createCredential command := hreq ▸ hcall
  intro c' hc'
  refine finish_spent hexec hc (ho.symm.trans hpo) ?_ hc'
  cases hcomp : finish.completion with
  | fail operation => exact .inl ⟨operation, rfl⟩
  | createCredential command credential => exact .inr ⟨command, credential, rfl⟩
  | reconcile command pid =>
    rw [hσ.bound.finish_call h rfl (by rw [hcomp]; rfl)] at hcallf
    cases hcallf
  | delete command =>
    rw [hσ.bound.finish_call h rfl (by rw [hcomp]; rfl)] at hcallf
    cases hcallf
  | revokeCredential command =>
    rw [hσ.bound.finish_call h rfl (by rw [hcomp]; rfl)] at hcallf
    cases hcallf

theorem Session.Reserved.backed_step (hσ : σ.Reserved callOf) (h : BoundStep store callOf σ r σ') :
    ∀ c ∈ σ'.db.credentialReservations.rows, σ'.db.Creating callOf c := by
  intro c hc
  rcases reservation_origin h.step hc with ⟨c₀, hc₀, hsame⟩ | ⟨command, hcall, -, hi, rfl⟩
  · obtain ⟨q, hq, hback, hprog, command, hcall⟩ := hσ.backed c₀ hc₀
    have hl := Table.lookup_of_mem hq
    obtain ⟨q', hl', hreq, -⟩ := receipt_kept (.single h.step) hl
    have hid : c.credentialId = c₀.credentialId := by rw [hsame]
    have hprog' : q'.state = .inProgress := by
      by_contra hs'
      exact hσ.reservation_spent h hc₀ hl hback.operationId hl' hs' c hc hid
    -- the reservation follows the operation id of its receipt
    have hkept := reservation_kept h.step hc₀ hl hback.operationId hl' hprog'
    have hc' : c = { c₀ with operationId := q'.operationId } := Table.eq_of_key _ hc hkept hid
    refine ⟨q', Table.lookup_mem hl', ?_, hprog', command, hreq ▸ hcall⟩
    rw [hc']
    exact ⟨rfl, (congrArg OperationRequest.serviceInstanceId hreq).trans hback.service,
      (congrArg OperationRequest.organizationId hreq).trans hback.organization,
      (congrArg OperationRequest.projectId hreq).trans hback.project⟩
  · refine ⟨_, (Table.mem_insert hi).mpr (.inr rfl), ⟨rfl, rfl, rfl, rfl⟩, rfl, command, ?_⟩
    exact h.bound _ hcall

theorem Session.Reserved.reserved_step (hσ : σ.Reserved callOf)
    (h : BoundStep store callOf σ r σ') :
    ∀ q ∈ σ'.db.receipts.rows, q.state = .inProgress →
      ∀ command, callOf q.request = .createCredential command →
        ∃ c ∈ σ'.db.credentialReservations.rows, c.operationId = q.operationId := by
  intro q hq hs command hcall
  rcases receipt_origin h.step hq hs with ⟨q₀, hq₀, hreq, hs₀⟩ | ⟨call, hg, hop, -⟩
  · obtain ⟨c, hc, ho⟩ := hσ.reserved q₀ hq₀ hs₀ command (hreq ▸ hcall)
    have hkey : q₀.idempotencyKey = q.idempotencyKey :=
      congrArg OperationRequest.idempotencyKey hreq
    have hl₀ : σ.db.receipts.lookup q.idempotencyKey = some q₀ :=
      hkey ▸ Table.lookup_of_mem hq₀
    exact ⟨_, reservation_kept h.step hc hl₀ ho.symm (Table.lookup_of_mem hq) hs, rfl⟩
  · obtain rfl : call = .createCredential command := by
      rw [← hcall, ← hop]
      exact (h.bound call (grant_call hg)).symm
    obtain ⟨context, hexec⟩ := grant_exec h.step hg
    obtain ⟨-, receipt, hl, c, hc, ho, -⟩ := create_observed hexec
    have hkey : command.operation.idempotencyKey = q.idempotencyKey :=
      congrArg OperationRequest.idempotencyKey hop
    rw [hkey] at hl
    obtain rfl : q = receipt := Option.some.inj ((Table.lookup_of_mem hq).symm.trans hl)
    exact ⟨c, hc, ho⟩

theorem Session.Reserved.step (hσ : σ.Reserved callOf) (h : BoundStep store callOf σ r σ') :
    σ'.Reserved callOf where
  bound := hσ.bound.step h
  backed := hσ.backed_step h
  reserved := hσ.reserved_step h

theorem reachable_reserved {tr : List CallRecord}
    (h : Run (BoundStep store callOf) Session.start tr σ) : σ.Reserved callOf :=
  h.invariant (Session.Reserved callOf) (fun _ _ _ hσ h => hσ.step h) .start

/-- the action of a held receipt is that of its call -/
theorem Session.Bound.held_action (hσ : σ.Bound callOf) {q : ReceiptRow}
    (hq : q ∈ σ.db.receipts.rows) (hs : q.state = .inProgress) :
    q.action = (callOf q.request).action := by
  obtain ⟨g, hg, hop⟩ := hσ.held q hq hs
  obtain ⟨hcall, haction⟩ := hσ.granted g hg
  rw [hop] at hcall haction
  rw [hcall, ← haction]
  rfl

/-- only creates name the action of a create -/
theorem action_create {call : PrepareCall} :
    call.action = "credential.create" ↔ ∃ command, call = .createCredential command := by
  cases call <;> simp [PrepareCall.action]

end

/-! ## ids and names of credentials -/

/-- All credential ids are drawn from `ids`, and no reservation has the id, or in its service the
name, of a credential. -/
structure Database.FreshIds (db : Database) (ids : List Uuid) : Prop where
  reservations : ∀ c ∈ db.credentialReservations.rows, c.credentialId ∈ ids
  credentials : ∀ d ∈ db.credentials.rows, d.id ∈ ids
  free : ∀ c ∈ db.credentialReservations.rows, ∀ d ∈ db.credentials.rows,
    d.id ≠ c.credentialId ∧ (d.serviceInstanceId = c.serviceInstanceId → d.name ≠ c.name)

section
variable {store : PgStore} {db db' : Database} {r : CallRecord} {ids : List Uuid}

/-- a credential was there before with its id, service and name, or is made from its reservation -/
theorem credential_origin (h : StoreStep store db r db') {d : CredentialRow}
    (hd : d ∈ db'.credentials.rows) :
    (∃ d₀ ∈ db.credentials.rows, d₀.id = d.id ∧ d₀.serviceInstanceId = d.serviceInstanceId ∧
      d₀.name = d.name) ∨
    ∃ c ∈ db.credentialReservations.rows, c.credentialId = d.id ∧
      c.serviceInstanceId = d.serviceInstanceId ∧ c.name = d.name ∧
      ∀ c' ∈ db'.credentialReservations.rows, c'.credentialId ≠ d.id := by
  -- a revocation keeps id, service and name
  have hrevoked : ∀ {env : CallEnv} {principal : Uuid} {p : CredentialRow → Bool},
      db.credentials.updateWhere p (PgStore.revokedCredential env principal) =
        .ok db'.credentials →
      ∃ d₀ ∈ db.credentials.rows, d₀.id = d.id ∧ d₀.serviceInstanceId = d.serviceInstanceId ∧
        d₀.name = d.name := by
    intro env principal p hu
    obtain ⟨d₀, hd₀, rfl⟩ := (Table.mem_updateWhere hu).mp hd
    refine ⟨d₀, hd₀, ?_⟩
    unfold Table.touch
    split
    · exact ⟨rfl, rfl, rfl⟩
    · exact ⟨rfl, rfl, rfl⟩
  obtain ⟨env, call, answer⟩ := r
  cases credential_change h with
  | same hc _ => exact .inl ⟨d, hc ▸ hd, rfl, rfl, rfl⟩
  | moved _ _ _ hc _ => exact .inl ⟨d, hc ▸ hd, rfl, rfl, rfl⟩
  | reserved _ _ _ hc _ => exact .inl ⟨d, hc ▸ hd, rfl, rfl, rfl⟩
  | revokedAll _ hu _ => exact .inl (hrevoked hu)
  | revoked _ _ _ hu _ => exact .inl (hrevoked hu)
  | released _ hc _ => exact .inl ⟨d, hc ▸ hd, rfl, rfl, rfl⟩
  | @created call command credential reservation hcomp hl ho hs hn _ hi hr =>
    cases answer with
    | error e => exact .inl ⟨d, step_error h ▸ hd, rfl, rfl, rfl⟩
    | ok u =>
      rcases (Table.mem_insert hi).mp hd with hd | rfl
      · exact .inl ⟨d, hd, rfl, rfl, rfl⟩
      · have hexec := step_finished h
        have hpre := (finish_eq_ok.mp hexec).1
        rw [hcomp] at hpre
        simp only [Completion.precheck, Bool.and_eq_true, decide_eq_true_eq] at hpre
        have hid : reservation.credentialId = credential.id := Table.lookup_key hl
        refine .inr ⟨reservation, Table.lookup_mem hl, hid, hs, hn.trans hpre.1.2.symm, ?_⟩
        intro c' hc'
        have hgone := finish_spent hexec (Table.lookup_mem hl) ho
          (.inr ⟨command, credential, hcomp⟩) hc'
        exact hgone.trans_eq hid

/-- **the step**: a call that draws a new credential id -/
theorem Database.FreshIds.step (hdb : db.FreshIds ids) (h : StoreStep store db r db')
    (hnew : r.env.credentialId ∉ ids) : db'.FreshIds (ids ++ [r.env.credentialId]) where
  reservations := by
    intro c hc
    rcases reservation_origin h hc with ⟨c₀, hc₀, hsame⟩ | ⟨command, -, -, -, rfl⟩
    · rw [hsame]
      exact List.mem_append_left _ (hdb.reservations c₀ hc₀)
    · exact List.mem_append_right _ List.mem_cons_self
  credentials := by
    intro d hd
    refine List.mem_append_left _ ?_
    rcases credential_origin h hd with ⟨d₀, hd₀, hid, -⟩ | ⟨c, hc, hid, -⟩
    · exact hid ▸ hdb.credentials d₀ hd₀
    · exact hid ▸ hdb.reservations c hc
  free := by
    intro c hc d hd
    -- a new reservation was admitted
    have hadmitted : ∀ command, r.call = .prepare (.createCredential command) →
        c.credentialId = r.env.credentialId → db.Admitted store command := by
      intro command hcall hid
      obtain ⟨env, call, answer⟩ := r
      obtain rfl : call = .prepare (.createCredential command) := hcall
      refine (reserved_admitted h ⟨c, hc, fun q hq he => hnew ?_⟩).1
      exact hid ▸ he ▸ hdb.reservations q hq
    rcases credential_origin h hd with ⟨d₀, hd₀, hid, hs, hn⟩ | ⟨c₁, hc₁, hid, hs, hn, hgone⟩
    · rw [← hid, ← hs, ← hn]
      rcases reservation_origin h hc with ⟨c₀, hc₀, hsame⟩ | ⟨command, hcall, -, -, hrow⟩
      · rw [hsame]
        exact hdb.free c₀ hc₀ d₀ hd₀
      · subst hrow
        refine ⟨fun he => hnew ?_, fun he => ?_⟩
        · have hmem := hdb.credentials d₀ hd₀
          rwa [he] at hmem
        · exact (hadmitted command hcall rfl).1 d₀ hd₀ he
    · -- a new credential takes the reservation of its id and of its name
      refine ⟨fun he => hgone c hc he.symm, fun he hname => ?_⟩
      rcases reservation_origin h hc with ⟨c₀, hc₀, hsame⟩ | ⟨command, hcall, -, -, hrow⟩
      · have hservice : c₀.serviceInstanceId = c₁.serviceInstanceId := by
          rw [hs, he, hsame]
        have hnames : c₀.name = c₁.name := by
          rw [hn, hname, hsame]
        obtain rfl : c₀ = c₁ := Table.eq_of_unique _ hc₀ hc₁
          (by simp [credentialReservationSchema, hservice, hnames])
        refine hgone c hc ?_
        rw [hsame]
        exact hid
      · subst hrow
        exact (hadmitted command hcall rfl).2.1 c₁ hc₁ (hs.trans he) (hn.trans hname)

theorem Database.FreshIds.empty : Database.empty.FreshIds [] where
  reservations := fun _ h => by cases h
  credentials := fun _ h => by cases h
  free := fun _ h => by cases h

/-- **the run**: as long as the credential ids drawn are different -/
theorem Database.FreshIds.run {tr : List CallRecord}
    (h : Run (StoreStep store) Database.empty tr db)
    (hfresh : (tr.map fun r => r.env.credentialId).Nodup) :
    db.FreshIds (tr.map fun r => r.env.credentialId) := by
  refine h.history (fun tr db => (tr.map fun r => r.env.credentialId).Nodup →
    db.FreshIds (tr.map fun r => r.env.credentialId)) ?_ (fun _ => .empty) hfresh
  intro tr db r db' ih hstep hnodup
  rw [List.map_append, List.map_singleton] at hnodup ⊢
  obtain ⟨htr, -, hdisjoint⟩ := List.nodup_append.mp hnodup
  refine (ih htr).step hstep fun hmem => ?_
  exact hdisjoint _ hmem _ List.mem_cons_self rfl

end

/-! ## the reservation table -/

/-- **Credential reservations are the creates in progress.**  After every run of calls of handlers
that draw different credential ids: reservations and receipts in progress of the action
`credential.create` correspond one to one by operation id, within one service and scope; in every
further step a reservation keeps everything but the operation id while its receipt is held, and is
gone when its receipt is finished; and no credential has the id, or in its service the name, of a
reservation. -/
theorem credential_reservations_exact (store : PgStore) (callOf : OperationRequest → PrepareCall)
    (tr : List CallRecord) (σ : Session) (h : Run (BoundStep store callOf) Session.start tr σ)
    (hfresh : (tr.map fun r => r.env.credentialId).Nodup) :
    (∀ c ∈ σ.db.credentialReservations.rows, ∃! q, q ∈ σ.db.receipts.rows ∧
      q.state = .inProgress ∧ q.action = "credential.create" ∧ q.operationId = c.operationId) ∧
    (∀ q ∈ σ.db.receipts.rows, q.state = .inProgress → q.action = "credential.create" →
      ∃! c, c ∈ σ.db.credentialReservations.rows ∧ c.operationId = q.operationId) ∧
    (∀ c ∈ σ.db.credentialReservations.rows, ∀ q ∈ σ.db.receipts.rows,
      q.operationId = c.operationId → q.Backs c) ∧
    (∀ r σ', BoundStep store callOf σ r σ' → ∀ c ∈ σ.db.credentialReservations.rows,
      ∀ k q q', σ.db.receipts.lookup k = some q → q.operationId = c.operationId →
      σ'.db.receipts.lookup k = some q' →
      if q'.state = .inProgress then
        { c with operationId := q'.operationId } ∈ σ'.db.credentialReservations.rows
      else ∀ c' ∈ σ'.db.credentialReservations.rows, c'.credentialId ≠ c.credentialId) ∧
    ∀ c ∈ σ.db.credentialReservations.rows, ∀ d ∈ σ.db.credentials.rows,
      d.id ≠ c.credentialId ∧ (d.serviceInstanceId = c.serviceInstanceId → d.name ≠ c.name) := by
  have hσ := reachable_reserved h
  refine ⟨fun c hc => ?_, fun q hq hs haction => ?_, fun c hc q hq ho => ?_, ?_, ?_⟩
  · obtain ⟨q, hq, hback, hs, hcreate⟩ := hσ.backed c hc
    refine ⟨q, ⟨hq, hs, ?_, hback.operationId⟩, fun p hp => ?_⟩
    · rw [hσ.bound.held_action hq hs]
      exact action_create.mpr hcreate
    · exact receipt_unique hp.1 hq (hp.2.2.2.trans hback.operationId.symm)
  · rw [hσ.bound.held_action hq hs] at haction
    obtain ⟨command, hcall⟩ := action_create.mp haction
    obtain ⟨c, hc, ho⟩ := hσ.reserved q hq hs command hcall
    exact ⟨c, ⟨hc, ho⟩, fun p hp => reservation_unique hp.1 hc (hp.2.trans ho.symm)⟩
  · obtain ⟨p, hp, hback, -⟩ := hσ.backed c hc
    obtain rfl : p = q := receipt_unique hp hq (hback.operationId.trans ho.symm)
    exact hback
  · intro r σ' hstep c hc k q q' hq ho hq'
    split
    · rename_i hs'
      exact reservation_kept hstep.step hc hq ho hq' hs'
    · rename_i hs'
      exact hσ.reservation_spent hstep hc hq ho hq' hs'
  · exact (Database.FreshIds.run (HandlerStep.storeRun (BoundStep.handlerRun h)) hfresh).free

/-- a credential of service 10 is being created, for the second time -/
theorem credential_reservations_exact_retrying :
    let script := Sample.creating ++ Sample.retrying
    ∃ tr σ, Session.play PgStore.reference script Session.start = some (tr, σ) ∧
      σ.db.credentialReservations.rows.map CredentialReservationRow.operationId = [1003] ∧
      ∀ c ∈ σ.db.credentialReservations.rows, ∃! q, q ∈ σ.db.receipts.rows ∧
        q.state = .inProgress ∧ q.action = "credential.create" ∧
        q.operationId = c.operationId := by
  intro script
  have hsome : (Session.play PgStore.reference script Session.start).any (fun p =>
      decide (p.2.db.credentialReservations.rows.map CredentialReservationRow.operationId =
        [1003]) && decide ((p.1.map fun r => r.env.credentialId).Nodup)) = true := by
    decide +kernel
  obtain ⟨⟨tr, σ⟩, hplay, hrow⟩ := (Option.any_eq_true _ _).mp hsome
  rw [Bool.and_eq_true, decide_eq_true_eq, decide_eq_true_eq] at hrow
  have hrun : Run (BoundStep PgStore.reference (Sample.callOf script)) Session.start tr σ :=
    Session.play_bound hplay (by decide +kernel)
  exact ⟨tr, σ, hplay, hrow.1, (credential_reservations_exact _ _ tr σ hrun hrow.2).1⟩

end Syouyu
