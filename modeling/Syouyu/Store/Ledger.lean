import Syouyu.Store.Run

/-!
# The receipts are a lease ledger

`ledger` reads the receipt table as a ledger: the identity of an entry is the request, its holder
the operation id, its resource the service instance.  `step_ledger` is the refinement: **every
call of the store is one step of the ledger**, the one `eventOf` reads off the call and its
answer.  What the ledger guarantees for runs then holds of receipts.
-/

set_option linter.unusedSectionVars false

namespace Syouyu
open Lib

abbrev ReceiptEntry := Lease.Entry OperationRequest Uuid Timestamp ReceiptRow

/-! ## the abstraction -/

/-- a receipt as a ledger entry; a closed entry keeps the whole row -/
def ReceiptRow.entry (row : ReceiptRow) : ReceiptEntry where
  ident := row.request
  holder := row.operationId
  phase := match row.state, row.leaseExpiresAt with
    | .inProgress, some t => .held t
    | _, _ => .closed row

def ledger (t : Table receiptSchema) (k : Uuid) : Option ReceiptEntry :=
  (t.lookup k).map ReceiptRow.entry

section
variable {store : PgStore} {env : CallEnv} {db db' : Database} {t t' : Table receiptSchema}
  {k : Uuid} {row : ReceiptRow}

theorem entry_inProgress (row : ReceiptRow) (hs : row.state = .inProgress) {u : Timestamp}
    (hl : row.leaseExpiresAt = some u) : row.entry = ⟨row.request, row.operationId, .held u⟩ := by
  simp only [ReceiptRow.entry, hs, hl]

theorem entry_done (hs : row.state ≠ .inProgress) :
    row.entry = ⟨row.request, row.operationId, .closed row⟩ := by
  unfold ReceiptRow.entry
  cases h : row.state with
  | inProgress => exact absurd h hs
  | succeeded => rfl
  | failed => rfl

/-- a held entry is a receipt in progress -/
theorem entry_held (hl : t.lookup k = some row) : row.entry.Held ↔ row.state = .inProgress := by
  constructor
  · rintro ⟨u, hu⟩
    by_contra hs
    rw [entry_done hs] at hu
    cases hu
  · intro hs
    have hc := Table.lookup_check hl
    simp only [receiptSchema, hs, Bool.and_eq_true] at hc
    obtain ⟨u, hu⟩ := Option.isSome_iff_exists.mp hc.2.2
    exact ⟨u, by rw [entry_inProgress row hs hu]⟩

theorem ledger_eq_some {e : ReceiptEntry} :
    ledger t k = some e ↔ ∃ row, t.lookup k = some row ∧ row.entry = e :=
  Option.map_eq_some_iff

theorem ledger_insert (h : t.insert row = .ok t') :
    ledger t' = Function.update (ledger t) row.idempotencyKey (some row.entry) := by
  funext j
  unfold ledger
  rw [Table.lookup_insert h]
  by_cases hj : j = row.idempotencyKey
  · subst hj
    rw [Function.update_self]
    exact congrArg _ (if_pos rfl)
  · rw [Function.update_of_ne hj]
    exact congrArg _ (if_neg fun h => hj h.symm)

theorem ledger_update {f : ReceiptRow → ReceiptRow}
    (h : t.updateWhere (receiptSchema.hasKey k) f = .ok t') (hf : ∀ r, (f r).idempotencyKey =
      r.idempotencyKey) (hl : t.lookup k = some row) :
    ledger t' = Function.update (ledger t) k (some (f row).entry) := by
  funext j
  unfold ledger
  rw [Table.lookup_update_key h hf]
  by_cases hj : j = k
  · subst hj
    rw [Function.update_self, if_pos rfl, hl]
    rfl
  · rw [Function.update_of_ne hj, if_neg hj]

theorem ledger_onlyHeld {s : Uuid} :
    Lease.OnlyHeld OperationRequest.serviceInstanceId (ledger db.receipts) s k ↔
      db.OnlyHeld s k := by
  constructor
  · intro h row hr hs hp
    have hl := Table.lookup_of_mem hr
    exact h row.idempotencyKey row.entry (ledger_eq_some.mpr ⟨row, hl, rfl⟩)
      ((entry_held hl).mpr hp) hs
  · intro h j e he hheld hs
    obtain ⟨row, hl, rfl⟩ := ledger_eq_some.mp he
    exact (Table.lookup_key hl).symm.trans
      (h row (Table.lookup_mem hl) hs ((entry_held hl).mp hheld))

/-! ## every call is a step of the ledger -/

theorem granted_ledger {operation : OperationRequest} (hg : db.Granted env operation db')
    (honly : db.OnlyHeld operation.serviceInstanceId operation.idempotencyKey) :
    Lease.Step OperationRequest.serviceInstanceId (ledger db.receipts)
      (env.clock, .acquire operation.idempotencyKey operation env.operationId env.leaseEnd)
      (ledger db'.receipts) := by
  cases hg with
  | new hl hi =>
    rw [ledger_insert hi]
    exact .grant (by simp [ledger, hl]) (ledger_onlyHeld.mpr honly)
  | @takeover row _ hl hq hs he ht =>
    obtain ⟨t, u, ht, -, rfl⟩ := ht
    obtain rfl := hq
    obtain ⟨lease, hlease, hle⟩ := (Option.any_eq_true _ _).mp he
    have hnew : (row.takenOver env).entry = ⟨row.request, env.operationId, .held env.leaseEnd⟩ :=
      entry_inProgress (row.takenOver env) hs rfl
    rw [ledger_update ht (fun _ => rfl) hl, hnew]
    exact .takeover (ledger_eq_some.mpr ⟨row, hl, entry_inProgress row hs hlease⟩) rfl
      (of_decide_eq_true hle) (ledger_onlyHeld.mpr honly)

/-- the entry of a holder -/
theorem heldBy_entry {operation : OperationRequest} {operationId : Uuid}
    (hh : db.HeldBy operation operationId) :
    ∃ row, db.receipts.lookup operation.idempotencyKey = some row ∧ row.request = operation ∧
      row.operationId = operationId ∧ row.state = .inProgress ∧ row.entry.Held := by
  obtain ⟨row, hl, hq, ho, hs⟩ := hh
  exact ⟨row, hl, hq, ho, hs, (entry_held hl).mpr hs⟩

theorem finish_ledger {call : FinishCall} {u : Unit}
    (h : call.exec store env db = .ok (u, db')) :
    Lease.Step OperationRequest.serviceInstanceId (ledger db.receipts)
      (env.clock, .close call.operation.idempotencyKey call.operationId)
      (ledger db'.receipts) := by
  obtain ⟨-, hh, db₁, sealed, t, a, -, -, ht, -, -, rfl⟩ := finish_eq_ok.mp h
  obtain ⟨row, hl, hq, ho, hs, hheld⟩ := heldBy_entry hh
  show Lease.Step _ _ _ (ledger t)
  rw [ledger_update ht (fun _ => rfl) hl, entry_done (finished_done _ _ _ _), ← ho]
  exact .close (ledger_eq_some.mpr ⟨row, hl, rfl⟩) hheld

theorem renew_ledger {operation : OperationRequest} {operationId : Uuid} {u : Unit}
    (h : PgStore.renewOperation env operation operationId db = .ok (u, db')) :
    Lease.Step OperationRequest.serviceInstanceId (ledger db.receipts)
      (env.clock, .extend operation.idempotencyKey operationId env.leaseEnd)
      (ledger db'.receipts) := by
  obtain ⟨-, hh, t, ht, rfl⟩ := renewOperation_eq_ok.mp h
  obtain ⟨row, hl, hq, rfl, hs, hheld⟩ := heldBy_entry hh
  have hnew : (row.renewed env).entry = ⟨row.request, row.operationId, .held env.leaseEnd⟩ :=
    entry_inProgress (row.renewed env) hs rfl
  rw [ledger_update ht (fun _ => rfl) hl, hnew]
  exact .extend (ledger_eq_some.mpr ⟨row, hl, rfl⟩) hheld

/-- **every call of the store is one step of the ledger** -/
theorem step_ledger {r : CallRecord} (h : StoreStep store db r db') :
    Lease.Step OperationRequest.serviceInstanceId (ledger db.receipts) (eventOf r)
      (ledger db'.receipts) := by
  cases step_cases h with
  | quiet hidle =>
    rw [show eventOf r = ((eventOf r).1, .idle) from Prod.ext rfl hidle]
    exact .idle _
  | executed h =>
    obtain ⟨rfl, honly, db₁, hg, hr⟩ := prepare_executed h
    rw [hr]
    exact granted_ledger hg honly
  | finished h => exact finish_ledger h
  | renewed h => exact renew_ledger h
  | measured h =>
    obtain ⟨_, _, _, _, _, -, -, -, -, -, rfl⟩ := recordUsage_ok h
    exact .idle _
  | audited h =>
    obtain ⟨-, _, -, rfl⟩ := insertAudit_eq_ok.mp h
    exact .idle _

/-- **a run of the store is a run of the ledger** -/
theorem run_ledger {tr : List CallRecord} (h : Run (StoreStep store) db tr db') :
    Run (Lease.Step OperationRequest.serviceInstanceId) (ledger db.receipts) (tr.map eventOf)
      (ledger db'.receipts) :=
  h.map (f := fun db => ledger db.receipts) (fun _ _ _ hs => step_ledger hs)

theorem ledger_empty : ledger Database.empty.receipts = fun _ => none := rfl

end

end Syouyu
