import Syouyu.Store.Lifecycle
import Syouyu.Store.Reference

/-!
# Bucket names

`prepare_reconcile` reserves the name of the bucket; `complete_reconcile`, `complete_delete` and
`fail_operation` drop reservations, each by a predicate of its own.  Over the calls handlers make,
the reservations are exactly the names in use.

* `name_dropped`          a reservation goes only when an operation on its service is finished;
* `BoundStep`             a handler's call: the request hash tells requests apart;
* `Session.Bound`         so the call of a held receipt is known;
* `Session.Named`         who holds which name, and why;
* `Session.Named.step`    **kept by every call of a handler**;
* `name_reservations_exact`   the main result.
-/

set_option linter.unusedSectionVars false

namespace Syouyu
open Lib

/-- the service holds the reservation of the name -/
def Database.Reserves (db : Database) (name : String) (s : Uuid) : Prop :=
  ∃ n, db.nameReservations.lookup name = some n ∧ n.serviceInstanceId = s

/-- a finishing call drops the reservation its service holds of the name -/
def Completion.Drops (db : Database) (name : String) : Completion → Prop
  | .reconcile command _ => command.spec.bucketName ≠ name
  | .delete _ => True
  | .fail operation => ∀ b, db.buckets.lookup operation.serviceInstanceId = some b →
      b.bucketName ≠ name
  | _ => False

section
variable {store : PgStore} {env : CallEnv} {db db' : Database} {r : CallRecord}

/-! ## where reservations go -/

/-- what is left of a row after a deletion -/
theorem lookup_left {p : NameReservationRow → Bool} {name : String} {n : NameReservationRow}
    (hl : db.nameReservations.lookup name = some n) :
    (db.nameReservations.deleteWhere p).lookup name = some n ↔ p n = false := by
  rw [Table.lookup_deleteWhere, hl, Option.filter_some]
  cases p n <;> simp

/-- the `EXISTS` of `fail_operation` asks for the bucket row of the service -/
theorem bucket_named {s : Uuid} {name : String} :
    (db.buckets.exists? fun b => decide (b.serviceInstanceId = s) &&
      decide (b.bucketName = name)) = true ↔
      ∃ b, db.buckets.lookup s = some b ∧ b.bucketName = name := by
  simp only [Table.exists?_eq_true, Bool.and_eq_true, decide_eq_true_eq]
  constructor
  · rintro ⟨b, hb, rfl, hname⟩
    exact ⟨b, Table.lookup_of_mem hb, hname⟩
  · rintro ⟨b, hb, hname⟩
    exact ⟨b, Table.lookup_mem hb, Table.lookup_key hb, hname⟩

/-- **which reservations a finishing call keeps** -/
theorem finish_name_kept {call : FinishCall} {u : Unit}
    (h : call.exec store env db = .ok (u, db')) {name : String} {n : NameReservationRow}
    (hl : db.nameReservations.lookup name = some n) :
    db'.nameReservations.lookup name = some n ↔
      ¬ (call.operation.serviceInstanceId = n.serviceInstanceId ∧
        call.completion.Drops db name) := by
  have hname : n.bucketName = name := Table.lookup_key hl
  obtain ⟨-, -, db₁, _, t, a, hb, -, -, -, -, rfl⟩ := finish_eq_ok.mp h
  obtain ⟨completion, o, response, audit⟩ := call
  cases completion with
  | reconcile command physicalBucketId =>
    obtain ⟨_, _, -, -, rfl⟩ := applyReconcile_eq_ok.mp hb
    refine (lookup_left hl).trans ?_
    rw [Bool.and_eq_false_iff, decide_eq_false_iff_not, decide_eq_false_iff_not, hname, not_and_or]
    exact or_congr (not_congr eq_comm) (not_congr ne_comm)
  | delete command =>
    obtain ⟨_, s, old, -, -, -, -, rfl⟩ := applyDelete_eq_ok.mp hb
    refine (lookup_left hl).trans ?_
    rw [decide_eq_false_iff_not]
    exact not_congr (eq_comm.trans (and_iff_left trivial).symm)
  | createCredential command credential =>
    obtain ⟨-, _, _, -, -, -, -, rfl⟩ := applyCreateCredential_eq_ok.mp hb
    exact iff_of_true hl fun h => h.2
  | revokeCredential command =>
    obtain ⟨_, _, -, -, -, rfl⟩ := applyRevokeCredential_eq_ok.mp hb
    exact iff_of_true hl fun h => h.2
  | fail operation =>
    obtain ⟨-, rfl⟩ := Tx.pure_eq_ok.mp hb
    refine (lookup_left hl).trans ?_
    rw [Bool.and_eq_false_iff, decide_eq_false_iff_not, Bool.not_eq_false', bucket_named, hname,
      not_and_or]
    by_cases hs : n.serviceInstanceId = operation.serviceInstanceId
    · rw [hs]
      simp [FinishCall.operation, Completion.operation, Completion.Drops]
    · exact iff_of_true (.inl hs) (.inl (Ne.symm hs))

/-- **a reservation goes only when an operation on its service is finished** -/
theorem name_dropped (h : StoreStep store db r db') {name : String} {n : NameReservationRow}
    (hl : db.nameReservations.lookup name = some n) :
    db'.nameReservations.lookup name = some n ∨
    ∃ env finish u, r = ⟨env, .finish finish, .ok u⟩ ∧
      finish.operation.serviceInstanceId = n.serviceInstanceId ∧
      finish.completion.Drops db name := by
  cases step_cases h with
  | quiet _ => exact .inl hl
  | executed h =>
    obtain ⟨-, -, hn⟩ := prepare_names h
    cases hn with
    | same hn => exact .inl (hn ▸ hl)
    | @reserved command hn =>
      rcases hn with ⟨hnone, hi⟩ | ⟨_, -, -, hv⟩
      · refine .inl ?_
        rw [Table.lookup_insert hi, ← hl]
        refine if_neg fun hk => ?_
        rw [← hk] at hl
        exact absurd_none_some hnone hl
      · exact .inl (hv ▸ hl)
  | @finished env call _ h =>
    refine or_iff_not_imp_left.mpr fun hgone => ?_
    obtain ⟨hs, hdrop⟩ := not_not.mp ((finish_name_kept h hl).not.mp hgone)
    exact ⟨env, call, (), rfl, hs, hdrop⟩
  | renewed h =>
    obtain ⟨-, -, t, -, rfl⟩ := renewOperation_eq_ok.mp h
    exact .inl hl
  | measured h =>
    obtain ⟨_, _, _, _, _, -, -, -, -, -, rfl⟩ := recordUsage_ok h
    exact .inl hl
  | audited h =>
    obtain ⟨-, _, -, rfl⟩ := insertAudit_eq_ok.mp h
    exact .inl hl

/-- **while a receipt of the service is held, its name reservations stay** -/
theorem name_kept {k s : Uuid} (hx : db.Exclusive) (h : StoreStep store db r db')
    (hb : db.Busy k s) (hb' : db'.Busy k s) {name : String} {n : NameReservationRow}
    (hl : db.nameReservations.lookup name = some n) (hs : n.serviceInstanceId = s) :
    db'.nameReservations.lookup name = some n := by
  rcases name_dropped h hl with hkept | ⟨env, finish, u, hr, hservice, -⟩
  · exact hkept
  · exact absurd ⟨env, finish, u, hr, hservice.trans hs⟩ (held_not_settled hx h hb hb')

/-- a reserved name can be looked up -/
theorem name_reserved {name : String} {s : Uuid} {v : Table nameReservationSchema}
    (h : db.NameReserved env name s v) :
    ∃ row, v.lookup name = some row ∧ row.serviceInstanceId = s := by
  rcases h with ⟨-, hi⟩ | ⟨old, hl, hs, rfl⟩
  · exact ⟨_, Table.lookup_inserted hi, rfl⟩
  · exact ⟨old, hl, hs⟩

/-- a reservation was there before, or is made by this reconcile -/
theorem name_origin (h : StoreStep store db r db') {n : NameReservationRow}
    (hn : n ∈ db'.nameReservations.rows) :
    n ∈ db.nameReservations.rows ∨
    ∃ command o, r.grant = some (.reconcile command, o) ∧
      n.bucketName = command.spec.bucketName ∧
      n.serviceInstanceId = command.operation.serviceInstanceId := by
  have hdelete : ∀ {p : NameReservationRow → Bool},
      n ∈ (db.nameReservations.deleteWhere p).rows → n ∈ db.nameReservations.rows :=
    fun hn => (Table.mem_deleteWhere.mp hn).1
  cases step_cases h with
  | quiet _ => exact .inl hn
  | @executed env call o context _ h =>
    obtain ⟨-, -, hc⟩ := prepare_names h
    cases hc with
    | same hc => exact .inl (hc ▸ hn)
    | @reserved command hc =>
      rcases hc with ⟨-, hi⟩ | ⟨_, -, -, hv⟩
      · rcases (Table.mem_insert hi).mp hn with hn | rfl
        · exact .inl hn
        · exact .inr ⟨command, o, rfl, rfl, rfl⟩
      · exact .inl (hv ▸ hn)
  | @finished env call _ h =>
    cases finish_names h with
    | same hc => exact .inl (hc ▸ hn)
    | reconciled _ hc => exact .inl (hdelete (hc ▸ hn))
    | deleted _ hc => exact .inl (hdelete (hc ▸ hn))
    | released _ hc => exact .inl (hdelete (hc ▸ hn))
  | renewed h =>
    obtain ⟨-, -, t, -, rfl⟩ := renewOperation_eq_ok.mp h
    exact .inl hn
  | measured h =>
    obtain ⟨_, _, _, _, _, -, -, -, -, -, rfl⟩ := recordUsage_ok h
    exact .inl hn
  | audited h =>
    obtain ⟨-, _, -, rfl⟩ := insertAudit_eq_ok.mp h
    exact .inl hn

/-- **a receipt stays held until an operation on its service is finished** -/
theorem held_unless_settled (h : StoreStep store db r db') {q : ReceiptRow}
    (hq : q ∈ db.receipts.rows) (hs : q.state = .inProgress)
    (hr : ¬ r.Settles q.serviceInstanceId) :
    ∃ q' ∈ db'.receipts.rows, q'.request = q.request ∧ q'.state = .inProgress := by
  -- an update of one receipt that keeps the request and the state
  have hupdate : ∀ {k : Uuid} {f : ReceiptRow → ReceiptRow} {t : Table receiptSchema},
      db.receipts.updateWhere (receiptSchema.hasKey k) f = .ok t →
      (f q).request = q.request → (f q).state = q.state →
      ∃ q' ∈ t.rows, q'.request = q.request ∧ q'.state = .inProgress := by
    intro k f t ht hreq hstate
    refine ⟨_, (Table.mem_updateWhere ht).mpr ⟨q, hq, rfl⟩, ?_⟩
    unfold Table.touch
    split
    · exact ⟨hreq, hstate.trans hs⟩
    · exact ⟨rfl, hs⟩
  obtain ⟨env, call, answer⟩ := r
  cases operation_change h with
  | same ht _ => exact ⟨q, ht ▸ hq, rfl, hs⟩
  | granted _ hi _ _ => exact ⟨q, (Table.mem_insert hi).mpr (.inl hq), rfl, hs⟩
  | reserved _ hi _ => exact ⟨q, (Table.mem_insert hi).mpr (.inl hq), rfl, hs⟩
  | takenOver _ _ _ _ ht _ => exact hupdate ht rfl rfl
  | renewed _ _ _ _ ht _ => exact hupdate ht rfl rfl
  | @finished call row sealed hl hreq _ _ ht _ =>
    cases answer with
    | error e => exact ⟨q, step_error h ▸ hq, rfl, hs⟩
    | ok u =>
      refine ⟨q, Table.mem_update_other ht hq fun hk => hr ⟨env, call, u, rfl, ?_⟩, rfl, hs⟩
      obtain rfl : q = row := Option.some.inj ((hk ▸ Table.lookup_of_mem hq).symm.trans hl)
      exact congrArg OperationRequest.serviceInstanceId hreq.symm

/-! ## the row of a service after its operation was finished -/

theorem reconcile_own {call : FinishCall} {u : Unit} (h : call.exec store env db = .ok (u, db'))
    {command : ReconcileCommand} {pid : String} (hcomp : call.completion = .reconcile command pid) :
    (∃ row, db'.services.lookup command.operation.serviceInstanceId = some row ∧
      row.phase ≠ .deleted) ∧
    ∃ b, db'.buckets.lookup command.operation.serviceInstanceId = some b ∧
      b.bucketName = command.spec.bucketName := by
  obtain ⟨hs, hb⟩ := reconcile_applied h hcomp
  constructor
  · rcases hs with ⟨-, hi⟩ | ⟨old, hl, -, hu⟩
    · have hrow := Table.lookup_inserted hi
      exact ⟨_, hrow, by simp [PgStore.reconciledService]⟩
    · have hrow := Table.lookup_updated hu (fun _ => rfl) hl
      exact ⟨_, hrow, by simp [PgStore.reconcileService]⟩
  · rcases hb with ⟨-, hi⟩ | ⟨⟨old, hl⟩, hu⟩
    · have hrow := Table.lookup_inserted hi
      exact ⟨_, hrow, rfl⟩
    · have hrow := Table.lookup_updated hu (fun _ => rfl) hl
      exact ⟨_, hrow, rfl⟩

end

/-! ## calls of handlers -/

/-- the action a handler names in its operation: `PROVIDER_RECONCILE_ACTION` and its siblings -/
def PrepareCall.action : PrepareCall → String
  | .reconcile _ => "service-instance.reconcile"
  | .delete _ => "service-instance.delete"
  | .createCredential _ => "credential.create"
  | .revokeCredential _ => "credential.revoke"

/-- A store call as the handlers make it.  The operation of a prepare call names the action of the
call, and its request hash tells requests apart, so that it determines the call. -/
structure BoundStep (store : PgStore) (callOf : OperationRequest → PrepareCall) (σ : Session)
    (r : CallRecord) (σ' : Session) : Prop extends HandlerStep store σ r σ' where
  bound : ∀ call, r.call = .prepare call → callOf call.operation = call
  action : ∀ call, r.call = .prepare call → call.operation.action = call.action

/-- the prepare calls of a script determine their operations and name their actions -/
def StoreCall.boundTo (callOf : OperationRequest → PrepareCall) : StoreCall → Bool
  | .prepare call => decide (callOf call.operation = call) &&
      decide (call.operation.action = call.action)
  | _ => true

/-- the calls behind the receipts that are held -/
structure Session.Bound (callOf : OperationRequest → PrepareCall) (σ : Session) : Prop where
  sound : σ.Sound
  granted : ∀ g ∈ σ.granted, callOf g.1.operation = g.1 ∧ g.1.operation.action = g.1.action
  held : ∀ q ∈ σ.db.receipts.rows, q.state = .inProgress →
    ∃ g ∈ σ.granted, g.1.operation = q.request

section
variable {store : PgStore} {callOf : OperationRequest → PrepareCall} {σ σ' : Session}
  {r : CallRecord}

theorem BoundStep.handlerRun {tr : List CallRecord} (h : Run (BoundStep store callOf) σ tr σ') :
    Run (HandlerStep store) σ tr σ' := by
  induction h with
  | nil => exact .nil _
  | cons hstep _ ih => exact .cons hstep.toHandlerStep ih

/-- a script whose calls are bound is a run of bound steps -/
theorem Session.play_bound {script : List (CallEnv × StoreCall)} {tr : List CallRecord}
    (h : Session.play store script σ = some (tr, σ'))
    (hbound : script.all (fun c => c.2.boundTo callOf) = true) :
    Run (BoundStep store callOf) σ tr σ' := by
  induction script generalizing σ tr with
  | nil =>
    obtain ⟨rfl, rfl⟩ := Prod.mk.inj (Option.some.inj h)
    exact .nil _
  | cons c script ih =>
    rw [List.all_cons, Bool.and_eq_true] at hbound
    unfold Session.play at h
    split at h
    · rename_i hmay
      obtain ⟨⟨tr', σ''⟩, hplay, heq⟩ := Option.map_eq_some_iff.mp h
      obtain ⟨rfl, rfl⟩ := Prod.mk.inj heq
      have hcall : ∀ call, c.2 = .prepare call →
          callOf call.operation = call ∧ call.operation.action = call.action := by
        intro call hc
        have hb := hbound.1
        rw [hc] at hb
        simpa [StoreCall.boundTo] using hb
      refine Run.cons ?_ (ih hplay hbound.2)
      exact ⟨⟨rfl, rfl, Session.mayCall_iff.mp hmay⟩, fun call hc => (hcall call hc).1,
        fun call hc => (hcall call hc).2⟩
    · cases h

theorem Session.Bound.start : Session.start.Bound callOf where
  sound := .start
  granted := fun _ h => by cases h
  held := fun _ h => by cases h

/-- the prepare call of a grant -/
theorem grant_call {g : PrepareCall × Uuid} (h : r.grant = some g) : r.call = .prepare g.1 := by
  obtain ⟨env, context, rfl⟩ := grant_executed h
  rfl

theorem Session.Bound.step (hσ : σ.Bound callOf) (h : BoundStep store callOf σ r σ') :
    σ'.Bound callOf where
  sound := hσ.sound.step h.toHandlerStep
  granted := by
    intro g hg
    rw [h.granted, List.mem_append, Option.mem_toList] at hg
    rcases hg with hg | hg
    · exact hσ.granted g hg
    · exact ⟨h.bound g.1 (grant_call hg), h.action g.1 (grant_call hg)⟩
  held := by
    intro q hq hs
    rw [h.granted]
    rcases receipt_origin h.step hq hs with ⟨q₀, hq₀, hreq, hs₀⟩ | ⟨call, hg, hop, -⟩
    · obtain ⟨g, hg, hop⟩ := hσ.held q₀ hq₀ hs₀
      exact ⟨g, List.mem_append_left _ hg, hop.trans hreq⟩
    · exact ⟨_, List.mem_append_right _ (Option.mem_toList.mpr hg), hop⟩

/-- **the call of a held receipt**: its operation is the request, and what it checked holds -/
theorem Session.Bound.held_call (hσ : σ.Bound callOf) {q : ReceiptRow}
    (hq : q ∈ σ.db.receipts.rows) (hs : q.state = .inProgress) :
    (callOf q.request).operation = q.request ∧ (callOf q.request).Facts σ.db := by
  obtain ⟨g, hg, hop⟩ := hσ.held q hq hs
  have hcall : callOf q.request = g.1 := hop ▸ (hσ.granted g hg).1
  obtain ⟨row, hl, -, hfacts⟩ := hσ.sound.facts g hg
  have hkey : g.1.operation.idempotencyKey = q.idempotencyKey :=
    congrArg OperationRequest.idempotencyKey hop
  rw [hkey] at hl
  obtain rfl : q = row := Option.some.inj ((Table.lookup_of_mem hq).symm.trans hl)
  rw [hcall]
  exact ⟨hop, hfacts hs⟩

/-- a completing call carries the command of the receipt it finishes -/
theorem Session.Bound.finish_call (hσ : σ.Bound callOf) (h : BoundStep store callOf σ r σ')
    {finish : FinishCall} (hr : r.call = .finish finish) {prepare : PrepareCall}
    (hp : finish.completion.prepared = some prepare) :
    callOf finish.operation = prepare := by
  have hg := (hσ.granted _ (h.prepared finish hr prepare hp)).1
  rwa [show (prepare, finish.operationId).1.operation = finish.operation from
    prepared_operation hp] at hg

/-- the receipt a finishing call finishes -/
theorem finished_receipt {env : CallEnv} {db db' : Database} {finish : FinishCall} {u : Unit}
    (h : finish.exec store env db = .ok (u, db')) :
    ∃ q ∈ db.receipts.rows, q.request = finish.operation ∧ q.operationId = finish.operationId ∧
      q.state = .inProgress := by
  obtain ⟨-, ⟨q, hl, hreq, ho, hs⟩, -⟩ := finish_eq_ok.mp h
  exact ⟨q, Table.lookup_mem hl, hreq, ho, hs⟩

end

/-! ## who holds which name -/

/-- the name is that of the bucket of a live service -/
def Database.NameOwned (db : Database) (n : NameReservationRow) : Prop :=
  ∃ row b, db.services.lookup n.serviceInstanceId = some row ∧ row.phase ≠ .deleted ∧
    db.buckets.lookup n.serviceInstanceId = some b ∧ b.bucketName = n.bucketName

/-- the name is that of a reconcile in progress -/
def Database.NamePending (db : Database) (callOf : OperationRequest → PrepareCall)
    (n : NameReservationRow) : Prop :=
  ∃ q ∈ db.receipts.rows, q.serviceInstanceId = n.serviceInstanceId ∧ q.state = .inProgress ∧
    ∃ command, callOf q.request = .reconcile command ∧ command.spec.bucketName = n.bucketName

structure Session.Named (callOf : OperationRequest → PrepareCall) (σ : Session) : Prop where
  bound : σ.Bound callOf
  live : ∀ row ∈ σ.db.services.rows, row.phase ≠ .deleted →
    ∀ b, σ.db.buckets.lookup row.id = some b → σ.db.Reserves b.bucketName row.id
  pending : ∀ q ∈ σ.db.receipts.rows, q.state = .inProgress →
    ∀ command, callOf q.request = .reconcile command →
      σ.db.Reserves command.spec.bucketName q.serviceInstanceId
  used : ∀ n ∈ σ.db.nameReservations.rows, σ.db.NameOwned n ∨ σ.db.NamePending callOf n

section
variable {store : PgStore} {callOf : OperationRequest → PrepareCall} {σ σ' : Session}
  {r : CallRecord}

theorem Session.Named.start : Session.start.Named callOf where
  bound := .start
  live := fun _ h => by cases h
  pending := fun _ h => by cases h
  used := fun _ h => by cases h

/-- **the name of a service's bucket stays reserved until the service is deleted** -/
theorem Session.Sound.own_name_kept (hσ : σ.Sound) (h : HandlerStep store σ r σ') {s : Uuid}
    {row : ServiceRow} {b : BucketRow} {n : NameReservationRow}
    (hl : σ.db.services.lookup s = some row) (hb : σ.db.buckets.lookup s = some b)
    (hn : σ.db.nameReservations.lookup b.bucketName = some n) (hs : n.serviceInstanceId = s) :
    σ'.db.nameReservations.lookup b.bucketName = some n ∨
      ∃ row', σ'.db.services.lookup s = some row' ∧ row'.phase = .deleted := by
  rcases name_dropped h.step hn with hkept | ⟨env, finish, u, rfl, hservice, hdrop⟩
  · exact .inl hkept
  rw [hs] at hservice
  cases hcomp : finish.completion with
  | reconcile command pid =>
    have hop : finish.operation = command.operation := congrArg Completion.operation hcomp
    rw [hop] at hservice
    have hfacts : (PrepareCall.reconcile command).Facts σ.db :=
      hσ.finish_facts h rfl (by rw [hcomp]; rfl)
    rw [hcomp] at hdrop
    exact absurd (reconcile_names hfacts (hservice ▸ hl) (hservice ▸ hb)) hdrop
  | delete command =>
    have hop : finish.operation = command.operation := congrArg Completion.operation hcomp
    rw [hop] at hservice
    obtain ⟨old, hold, -, hu, -⟩ := delete_applied (step_finished h.step) hcomp
    have hdead := Table.lookup_updated hu (fun _ => rfl) hold
    exact .inr ⟨_, hservice ▸ hdead, rfl⟩
  | createCredential command credential =>
    rw [hcomp] at hdrop
    exact hdrop.elim
  | revokeCredential command =>
    rw [hcomp] at hdrop
    exact hdrop.elim
  | fail operation =>
    have hop : finish.operation = operation := congrArg Completion.operation hcomp
    rw [hop] at hservice
    rw [hcomp] at hdrop
    exact absurd rfl (hdrop b (hservice ▸ hb))

/-- a completed reconcile finds its name reserved and leaves it so -/
theorem Session.Named.reconcile_reserves (hσ : σ.Named callOf)
    (h : BoundStep store callOf σ r σ') {env : CallEnv} {finish : FinishCall} {u : Unit}
    (hr : r = ⟨env, .finish finish, .ok u⟩) {command : ReconcileCommand} {pid : String}
    (hcomp : finish.completion = .reconcile command pid) :
    σ'.db.Reserves command.spec.bucketName command.operation.serviceInstanceId := by
  subst hr
  have hexec := step_finished h.step
  have hcall : callOf finish.operation = .reconcile command :=
    hσ.bound.finish_call h rfl (by rw [hcomp]; rfl)
  obtain ⟨q, hq, hreq, -, hs⟩ := finished_receipt hexec
  obtain ⟨n, hl, hservice⟩ := hσ.pending q hq hs command (hreq ▸ hcall)
  have hop : finish.operation = command.operation := congrArg Completion.operation hcomp
  have hqs : q.serviceInstanceId = command.operation.serviceInstanceId :=
    congrArg OperationRequest.serviceInstanceId (hreq.trans hop)
  refine ⟨n, (finish_name_kept hexec hl).mpr fun hdrop => ?_, hservice.trans hqs⟩
  rw [hcomp] at hdrop
  exact hdrop.2 rfl

theorem Session.Named.live_step (hσ : σ.Named callOf) (h : BoundStep store callOf σ r σ') :
    ∀ row ∈ σ'.db.services.rows, row.phase ≠ .deleted →
      ∀ b, σ'.db.buckets.lookup row.id = some b → σ'.db.Reserves b.bucketName row.id := by
  intro row hrow hlive b hb
  have hl : σ'.db.services.lookup row.id = some row := Table.lookup_of_mem hrow
  -- a service whose row and bucket name are what they were
  have hkept : ∀ b₀, σ.db.services.lookup row.id = some row →
      σ.db.buckets.lookup row.id = some b₀ → b.bucketName = b₀.bucketName →
      σ'.db.Reserves b.bucketName row.id := by
    intro b₀ hl₀ hb₀ hname
    obtain ⟨n, hn, hs⟩ := hσ.live row (Table.lookup_mem hl₀) hlive b₀ hb₀
    rw [hname]
    rcases hσ.bound.sound.own_name_kept h.toHandlerStep hl₀ hb₀ hn hs with hn' | ⟨dead, hdead, hp⟩
    · exact ⟨n, hn', hs⟩
    · exact absurd (Option.some.inj (hl.symm.trans hdead) ▸ hp) hlive
  by_cases hset : r.Settles row.id
  · obtain ⟨env, finish, u, rfl, hs⟩ := hset
    have hexec := step_finished h.step
    cases hcomp : finish.completion with
    | reconcile command pid =>
      have hid : command.operation.serviceInstanceId = row.id := by
        rw [← hs, show finish.operation = command.operation from
          congrArg Completion.operation hcomp]
      obtain ⟨-, b', hb', hname⟩ := reconcile_own hexec hcomp
      obtain rfl : b' = b := Option.some.inj ((hid ▸ hb').symm.trans hb)
      rw [hname, ← hid]
      exact hσ.reconcile_reserves h rfl hcomp
    | delete command =>
      have hid : command.operation.serviceInstanceId = row.id := by
        rw [← hs, show finish.operation = command.operation from
          congrArg Completion.operation hcomp]
      obtain ⟨old, hold, -, hu, -⟩ := delete_applied hexec hcomp
      have hdead := Table.lookup_updated hu (fun _ => rfl) hold
      rw [hid, hl] at hdead
      exact absurd (Option.some.inj hdead ▸ rfl) hlive
    | _ =>
      obtain ⟨hservices, hbuckets⟩ :=
        finish_keeps_services hexec (by simp [hcomp]) (by simp [hcomp])
      exact hkept b (hservices ▸ hl) (hbuckets ▸ hb) rfl
  · have hu := untouched_unless_settled h.step hset
    obtain ⟨b₀, hb₀, hsame⟩ := bucket_untouched hu.bucket.symm hb
    exact hkept b₀ (hu.service.symm.trans hl) hb₀ (unmeasured_fields hsame).1.symm

theorem Session.Named.pending_step (hσ : σ.Named callOf) (h : BoundStep store callOf σ r σ') :
    ∀ q ∈ σ'.db.receipts.rows, q.state = .inProgress →
      ∀ command, callOf q.request = .reconcile command →
        σ'.db.Reserves command.spec.bucketName q.serviceInstanceId := by
  intro q hq hs command hcall
  rcases receipt_origin h.step hq hs with ⟨q₀, hq₀, hreq, hs₀⟩ | ⟨call, hg, hop, -⟩
  · -- held before: the reservation was there, and stays
    have hservice : q₀.serviceInstanceId = q.serviceInstanceId :=
      congrArg OperationRequest.serviceInstanceId hreq
    have hkey : q₀.idempotencyKey = q.idempotencyKey :=
      congrArg OperationRequest.idempotencyKey hreq
    obtain ⟨n, hn, hns⟩ := hσ.pending q₀ hq₀ hs₀ command (hreq ▸ hcall)
    have hb : σ.db.Busy q.idempotencyKey q.serviceInstanceId :=
      ⟨q₀, hkey ▸ Table.lookup_of_mem hq₀, hs₀, hservice⟩
    have hb' : σ'.db.Busy q.idempotencyKey q.serviceInstanceId :=
      ⟨q, Table.lookup_of_mem hq, hs, rfl⟩
    have hns := hns.trans hservice
    exact ⟨n, name_kept hσ.bound.sound.exclusive h.step hb hb' hn hns, hns⟩
  · -- granted in this step, which reserved the name
    obtain rfl : call = .reconcile command := by
      rw [← hcall, ← hop]
      exact (h.bound call (grant_call hg)).symm
    obtain ⟨context, hexec⟩ := grant_exec h.step hg
    obtain ⟨-, claimed, db₁, hclaim, hbody⟩ := prepare_body hexec
    obtain ⟨-, -, -, -, db₂, v, -, hv, hdb⟩ := reconcile_prepared hclaim hbody
    have hservice : command.operation.serviceInstanceId = q.serviceInstanceId :=
      congrArg OperationRequest.serviceInstanceId hop
    rw [hdb, ← hservice]
    exact name_reserved hv

/-- a name in use before the step and still reserved is in use after it -/
theorem Session.Named.used_kept (hσ : σ.Named callOf) (h : BoundStep store callOf σ r σ')
    {n : NameReservationRow} (hn : n ∈ σ.db.nameReservations.rows)
    (hn' : n ∈ σ'.db.nameReservations.rows) :
    σ'.db.NameOwned n ∨ σ'.db.NamePending callOf n := by
  -- the rows of a service that stays live, under the bucket name of the reservation
  have howned : σ.db.NameOwned n →
      (∀ row, σ'.db.services.lookup n.serviceInstanceId = some row → row.phase ≠ .deleted) →
      σ'.db.NameOwned n := by
    rintro ⟨row, b, hl, -, hb, hname⟩ hlive
    obtain ⟨row', b', hl', hb', -, hname'⟩ :=
      hσ.bound.sound.service_step h.toHandlerStep hl hb
    exact ⟨row', b', hl', hlive row' hl', hb', hname'.trans hname⟩
  by_cases hset : r.Settles n.serviceInstanceId
  · obtain ⟨env, finish, u, rfl, hs⟩ := hset
    have hexec := step_finished h.step
    obtain ⟨q, hq, hreq, -, hqs⟩ := finished_receipt hexec
    have hqservice : q.serviceInstanceId = n.serviceInstanceId :=
      (congrArg OperationRequest.serviceInstanceId hreq).trans hs
    -- a reconcile of the service in progress is the one that is finished
    have hpending : σ.db.NamePending callOf n → ∃ command,
        callOf finish.operation = .reconcile command ∧ command.spec.bucketName = n.bucketName := by
      rintro ⟨q', hq', hs', hprog', command, hcall, hname⟩
      obtain rfl : q' = q := hσ.bound.sound.exclusive q' hq' q hq (hs'.trans hqservice.symm)
        hprog' hqs
      exact ⟨command, hreq ▸ hcall, hname⟩
    have hl := Table.lookup_of_mem hn
    have hl' := Table.lookup_of_mem hn'
    have hspared := (finish_name_kept hexec hl).mp hl'
    -- a call that writes no service leaves the owner in place
    have hstays : (∀ command pid, finish.completion ≠ .reconcile command pid) →
        (∀ command, finish.completion ≠ .delete command) → σ.db.NameOwned n →
        σ'.db.NameOwned n := by
      intro hr hd ho
      obtain ⟨hservices, hbuckets⟩ := finish_keeps_services hexec hr hd
      unfold Database.NameOwned
      rwa [hservices, hbuckets]
    cases hcomp : finish.completion with
    | reconcile command pid =>
      have hop : finish.operation = command.operation := congrArg Completion.operation hcomp
      obtain ⟨⟨row, hrow, hlive⟩, b, hb, hname⟩ := reconcile_own hexec hcomp
      rw [← hop, hs] at hrow hb
      have hkeeps : command.spec.bucketName = n.bucketName := by
        by_contra hne
        refine hspared ⟨hs, ?_⟩
        rw [hcomp]
        exact hne
      exact .inl ⟨row, b, hrow, hlive, hb, hname.trans hkeeps⟩
    | delete command => exact absurd ⟨hs, by rw [hcomp]; trivial⟩ hspared
    | createCredential command credential =>
      refine .inl (hstays (by simp [hcomp]) (by simp [hcomp])
        ((hσ.used n hn).resolve_right fun hp => ?_))
      obtain ⟨_, hcall, -⟩ := hpending hp
      rw [hσ.bound.finish_call h rfl (by rw [hcomp]; rfl)] at hcall
      cases hcall
    | revokeCredential command =>
      refine .inl (hstays (by simp [hcomp]) (by simp [hcomp])
        ((hσ.used n hn).resolve_right fun hp => ?_))
      obtain ⟨_, hcall, -⟩ := hpending hp
      rw [hσ.bound.finish_call h rfl (by rw [hcomp]; rfl)] at hcall
      cases hcall
    | fail operation =>
      refine .inl (hstays (by simp [hcomp]) (by simp [hcomp]) ?_)
      -- the name was spared because the bucket of the service has it
      have hop : finish.operation = operation := congrArg Completion.operation hcomp
      obtain ⟨b, hb, hname⟩ : ∃ b, σ.db.buckets.lookup n.serviceInstanceId = some b ∧
          b.bucketName = n.bucketName := by
        by_contra hnone
        refine hspared ⟨hs, ?_⟩
        rw [hcomp]
        intro b hb hbn
        rw [← hop, hs] at hb
        exact hnone ⟨b, hb, hbn⟩
      have hscope := hσ.bound.sound.rowScopes.buckets b (Table.lookup_mem hb)
      obtain ⟨row, hrow, -⟩ := scopeExists_iff.mp hscope
      have hbs : b.serviceInstanceId = n.serviceInstanceId := Table.lookup_key hb
      rw [hbs] at hrow
      obtain ⟨hcallop, hfacts⟩ := hσ.bound.held_call hq hqs
      refine ⟨row, b, hrow, hfacts.live ?_, hb, hname⟩
      rw [hcallop, show q.request.serviceInstanceId = n.serviceInstanceId from hqservice]
      exact hrow
  · have hu := untouched_unless_settled h.step hset
    rcases hσ.used n hn with ho | ⟨q, hq, hs, hprog, command, hcall, hname⟩
    · refine .inl (howned ho fun row' hl' => ?_)
      obtain ⟨row, b, hl, hlive, -, -⟩ := ho
      rw [hu.service, hl] at hl'
      exact Option.some.inj hl' ▸ hlive
    · obtain ⟨q', hq', hreq', hprog'⟩ := held_unless_settled h.step hq hprog (hs ▸ hset)
      exact .inr ⟨q', hq', (congrArg OperationRequest.serviceInstanceId hreq').trans hs, hprog',
        command, hreq' ▸ hcall, hname⟩

theorem Session.Named.used_step (hσ : σ.Named callOf) (h : BoundStep store callOf σ r σ') :
    ∀ n ∈ σ'.db.nameReservations.rows, σ'.db.NameOwned n ∨ σ'.db.NamePending callOf n := by
  intro n hn
  rcases name_origin h.step hn with hold | ⟨command, o, hg, hname, hs⟩
  · exact hσ.used_kept h hold hn
  · obtain ⟨context, hexec⟩ := grant_exec h.step hg
    obtain ⟨q, hl, hreq, -, hprog⟩ := executed_receipt hexec
    refine .inr ⟨q, Table.lookup_mem hl, ?_, hprog, command, ?_, hname.symm⟩
    · exact (congrArg OperationRequest.serviceInstanceId hreq).trans hs.symm
    · rw [hreq]
      exact h.bound _ (grant_call hg)

/-- **the names are in order after every call of a handler** -/
theorem Session.Named.step (hσ : σ.Named callOf) (h : BoundStep store callOf σ r σ') :
    σ'.Named callOf where
  bound := hσ.bound.step h
  live := hσ.live_step h
  pending := hσ.pending_step h
  used := hσ.used_step h

theorem reachable_named {tr : List CallRecord}
    (h : Run (BoundStep store callOf) Session.start tr σ) : σ.Named callOf :=
  h.invariant (Session.Named callOf) (fun _ _ _ hσ h => hσ.step h) .start

/-! ## reserving a name -/

/-- once its service has been checked, the only name a reconcile finds reserved by its service is
its own -/
theorem Session.Named.reserved_alone (hσ : σ.Named callOf) {env : CallEnv}
    {command : ReconcileCommand} (hcall : callOf command.operation = .reconcile command)
    {claimed : Option Uuid} {db₁ : Database}
    (hc : σ.db.Claimed env command.operation claimed db₁)
    (honly : db₁.OnlyHeld command.operation.serviceInstanceId command.operation.idempotencyKey)
    {pid : Option String} {applied : Bool} (ht : db₁.ReconcileTarget command pid applied)
    {n : NameReservationRow} (hn : n ∈ db₁.nameReservations.rows)
    (hs : n.serviceInstanceId = command.operation.serviceInstanceId) :
    n.bucketName = command.spec.bucketName := by
  have honly₀ := hc.onlyHeld.mp honly
  rw [hc.frame] at hn ht
  rcases hσ.used n hn with ⟨row, b, hl, -, hb, hname⟩ | ⟨q, hq, hqs, hprog, command', hcall', hname⟩
  · rw [hs] at hl hb
    rcases ht with ⟨hnone, -⟩ | ⟨_, b', -, -, -, -, -, hb', hname', -⟩
    · exact absurd_none_some hnone hl
    · obtain rfl : b' = b := Option.some.inj (hb'.symm.trans hb)
      exact hname.symm.trans hname'
  · -- the receipt in progress is that of the call itself
    have hk : q.idempotencyKey = command.operation.idempotencyKey :=
      honly₀ q hq (hqs.trans hs) hprog
    have hl : σ.db.receipts.lookup command.operation.idempotencyKey = some q := by
      rw [← hk]
      exact Table.lookup_of_mem hq
    rcases hc with ⟨hnone, -⟩ | ⟨row, hrow, hreq, -⟩
    · exact absurd_none_some hnone hl
    · obtain rfl : row = q := Option.some.inj (hrow.symm.trans hl)
      rw [hreq, hcall] at hcall'
      cases hcall'
      exact hname.symm

/-- a service that holds no other name does not run into the constraint -/
theorem reserveBucketName_unhindered {env : CallEnv} {db : Database} {name : String} {s : Uuid}
    (h : ∀ n ∈ db.nameReservations.rows, n.serviceInstanceId = s → n.bucketName = name) :
    (reserveBucketName env name s).FailsOnly (· ≠ .database .uniqueViolation) db := by
  refine Tx.FailsOnly.bind (upsertRow_failsOnly (fun _ => by simp) (fun hcheck hl => ?_)
    fun old hl => ?_) fun _ _ _ => Tx.failsOnly_ensure fun _ => by simp
  · -- a new row collides with no row
    have hi : ∃ v, db.nameReservations.insert ⟨name, s, env.now⟩ = .ok v := by
      refine Table.insert_ok_iff.mpr ⟨hcheck, hl, fun q hq => decide_eq_false fun hqs => ?_⟩
      have hqn : q.bucketName = name := h q hq hqs
      exact Table.lookup_eq_none.mp hl q hq hqn
    obtain ⟨v, hv⟩ := hi
    refine insertRow_failsOnly (fun e he => ?_) fun _ => by simp
    exact absurd_ok_error hv he
  · -- the row of the name is written as it is
    have hsame : db.nameReservations.updateWhere
        (fun r => decide (r.bucketName = name) && decide (r.serviceInstanceId = s))
        (fun r => { r with bucketName := name }) = .ok db.nameReservations := by
      refine Table.updateWhere_same fun r _ hr => ?_
      rw [Bool.and_eq_true, decide_eq_true_eq] at hr
      rw [← hr.1]
    exact updateRows_failsOnly fun e he => absurd_ok_error hsame he

/-! ## the reservation table -/

/-- **The reservation table is exact.**  After every run of calls of handlers: a name is reserved by
one service and a service reserves one name; a live service holds the name of its bucket, so no two
live services share one; a reserved name is that of the bucket of a live service or of a reconcile
in progress; and no reconcile that comes to reserve its name runs into the constraint that a service
has one. -/
theorem name_reservations_exact (store : PgStore) (callOf : OperationRequest → PrepareCall)
    (tr : List CallRecord) (σ : Session) (h : Run (BoundStep store callOf) Session.start tr σ) :
    (∀ a ∈ σ.db.nameReservations.rows, ∀ b ∈ σ.db.nameReservations.rows,
      a.bucketName = b.bucketName ∨ a.serviceInstanceId = b.serviceInstanceId → a = b) ∧
    (∀ row ∈ σ.db.services.rows, row.phase ≠ .deleted → ∃ b n,
      σ.db.buckets.lookup row.id = some b ∧ n ∈ σ.db.nameReservations.rows ∧
      n.bucketName = b.bucketName ∧ n.serviceInstanceId = row.id) ∧
    (∀ row ∈ σ.db.services.rows, row.phase ≠ .deleted →
      ∀ row' ∈ σ.db.services.rows, row'.phase ≠ .deleted →
      ∀ b b', σ.db.buckets.lookup row.id = some b → σ.db.buckets.lookup row'.id = some b' →
        b.bucketName = b'.bucketName → row = row') ∧
    (∀ n ∈ σ.db.nameReservations.rows, σ.db.NameOwned n ∨ σ.db.NamePending callOf n) ∧
    ∀ env command claimed db₁ target, callOf command.operation = .reconcile command →
      σ.db.Claimed env command.operation claimed db₁ →
      rejectParallelOperation command.operation.serviceInstanceId
        command.operation.idempotencyKey db₁ = .ok ((), db₁) →
      PgStore.reconcileTarget command db₁ = .ok (target, db₁) →
      reserveBucketName env command.spec.bucketName command.operation.serviceInstanceId db₁ ≠
        .error (.database .uniqueViolation) := by
  have hσ := reachable_named h
  have hown : ∀ row ∈ σ.db.services.rows, row.phase ≠ .deleted → ∃ b n,
      σ.db.buckets.lookup row.id = some b ∧ n ∈ σ.db.nameReservations.rows ∧
      n.bucketName = b.bucketName ∧ n.serviceInstanceId = row.id := by
    intro row hrow hlive
    obtain ⟨b, hb⟩ := hσ.bound.sound.bucket row hrow
    obtain ⟨n, hn, hs⟩ := hσ.live row hrow hlive b hb
    exact ⟨b, n, hb, Table.lookup_mem hn, Table.lookup_key hn, hs⟩
  refine ⟨fun a ha b hb heq => ?_, hown, ?_, hσ.used, ?_⟩
  · rcases heq with hname | hservice
    · exact Table.eq_of_key _ ha hb hname
    · exact Table.eq_of_unique _ ha hb (decide_eq_true hservice)
  · intro row hrow hlive row' hrow' hlive' b b' hb hb' hname
    obtain ⟨b₀, n, hb₀, hn, hbn, hs⟩ := hown row hrow hlive
    obtain ⟨b₁, n', hb₁, hn', hbn', hs'⟩ := hown row' hrow' hlive'
    obtain rfl : b₀ = b := Option.some.inj (hb₀.symm.trans hb)
    obtain rfl : b₁ = b' := Option.some.inj (hb₁.symm.trans hb')
    have hsame : n = n' := Table.eq_of_key _ hn hn' (hbn.trans (hname.trans hbn'.symm))
    exact Table.eq_of_key _ hrow hrow' (hs.symm.trans (hsame ▸ hs'))
  · intro env command claimed db₁ target hcall hc hreject htarget herr
    refine reserveBucketName_unhindered (fun n hn hs => ?_) _ herr rfl
    exact hσ.reserved_alone hcall hc (rejectParallelOperation_eq_ok.mp hreject).1
      (reconcileTarget_eq_ok.mp htarget).2 hn hs

/-- service 10 is live and service 11 is being reconciled -/
theorem name_reservations_exact_serviceB :
    let script := Sample.serviceA ++ [(Sample.env 4 4,
      .prepare (.reconcile (Sample.reconcile 102 11 "b" "bucket-b" 1)))]
    ∃ tr σ, Session.play PgStore.reference script Session.start = some (tr, σ) ∧
      σ.db.nameReservations.rows.map NameReservationRow.bucketName = ["bucket-a", "bucket-b"] ∧
      ∀ n ∈ σ.db.nameReservations.rows,
        σ.db.NameOwned n ∨ σ.db.NamePending (Sample.callOf script) n := by
  intro script
  have hsome : (Session.play PgStore.reference script Session.start).any (fun p =>
      decide (p.2.db.nameReservations.rows.map NameReservationRow.bucketName =
        ["bucket-a", "bucket-b"])) = true := by
    decide +kernel
  obtain ⟨⟨tr, σ⟩, hplay, hnames⟩ := (Option.any_eq_true _ _).mp hsome
  have hrun : Run (BoundStep PgStore.reference (Sample.callOf script)) Session.start tr σ :=
    Session.play_bound hplay (by decide +kernel)
  exact ⟨tr, σ, hplay, of_decide_eq_true hnames, (name_reservations_exact _ _ tr σ hrun).2.2.2.1⟩

end

end Syouyu
