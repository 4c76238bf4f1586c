import Syouyu.Store.Changes
import Syouyu.Store.Limits

/-!
# Operation ids link reservations to receipts

A credential reservation carries the operation id of the receipt it was made for; a takeover
rewrites the id in both tables.

* `Database.Linked`       every reservation has the receipt its operation id points to, of the
                          same service and scope;
* `linked_service`        so a statement aimed at an operation id stays within its service;
* `reservation_kept`      while its receipt is held, a reservation changes at most its operation
                          id, and follows that of the receipt;
* `reservation_origin`    a reservation was there before, or was made with its receipt.
-/

set_option linter.unusedSectionVars false

namespace Syouyu
open Lib

/-- the receipt a reservation points to, of the same service and scope -/
structure ReceiptRow.Backs (q : ReceiptRow) (r : CredentialReservationRow) : Prop where
  operationId : q.operationId = r.operationId
  service : q.serviceInstanceId = r.serviceInstanceId
  organization : q.organizationId = r.organizationId
  project : q.projectId = r.projectId

/-- every credential reservation has its receipt -/
def Database.Linked (db : Database) : Prop :=
  ∀ r ∈ db.credentialReservations.rows, ∃ q ∈ db.receipts.rows, q.Backs r

section
variable {store : PgStore} {env : CallEnv} {db db' : Database} {r : CallRecord}

/-- operation ids of receipts are unique -/
theorem receipt_unique {t : Table receiptSchema} {a b : ReceiptRow} (ha : a ∈ t.rows)
    (hb : b ∈ t.rows) (h : a.operationId = b.operationId) : a = b :=
  t.eq_of_unique ha hb (decide_eq_true h)

/-- operation ids of reservations are unique -/
theorem reservation_unique {t : Table credentialReservationSchema}
    {a b : CredentialReservationRow} (ha : a ∈ t.rows) (hb : b ∈ t.rows)
    (h : a.operationId = b.operationId) : a = b :=
  t.eq_of_unique ha hb (by simp [credentialReservationSchema, h])

/-- an update of one receipt that keeps ids and scope keeps every link -/
theorem backs_updated {t t' : Table receiptSchema} {k : Uuid} {f : ReceiptRow → ReceiptRow}
    (h : t.updateWhere (receiptSchema.hasKey k) f = .ok t')
    (hf : ∀ q c, q.Backs c → (f q).Backs c) {q : ReceiptRow} {c : CredentialReservationRow}
    (hq : q ∈ t.rows) (hc : q.Backs c) : ∃ q' ∈ t'.rows, q'.Backs c := by
  by_cases hk : receiptSchema.key q = k
  · exact ⟨f q, Table.mem_update_key h (hk ▸ Table.lookup_of_mem hq), hf q c hc⟩
  · exact ⟨q, Table.mem_update_other h hq hk, hc⟩

/-- a finishing call deletes reservations of its own operation id only -/
theorem spends_operationId {completion : Completion} {o : Uuid} {c : CredentialReservationRow}
    (h : completion.spends o c = true) : c.operationId = o := by
  cases completion with
  | createCredential command credential =>
    simp only [Completion.spends, Bool.and_eq_true, decide_eq_true_eq] at h
    exact h.2
  | fail operation => exact of_decide_eq_true h
  | reconcile _ _ => cases h
  | delete _ => cases h
  | revokeCredential _ => cases h

theorem Database.Linked.empty : Database.empty.Linked := by
  intro c hc
  cases hc

theorem Database.Linked.step (hlink : db.Linked) (h : StoreStep store db r db') : db'.Linked := by
  intro c hc
  obtain ⟨env, call, answer⟩ := r
  cases operation_change h with
  | same ht hr =>
    rw [hr] at hc
    rw [ht]
    exact hlink c hc
  | granted _ hi hr _ =>
    rw [hr] at hc
    obtain ⟨q, hq, hb⟩ := hlink c hc
    exact ⟨q, (Table.mem_insert hi).mpr (.inl hq), hb⟩
  | reserved _ hi hu =>
    rcases (Table.mem_insert hu).mp hc with hc | rfl
    · obtain ⟨q, hq, hb⟩ := hlink c hc
      exact ⟨q, (Table.mem_insert hi).mpr (.inl hq), hb⟩
    · exact ⟨_, (Table.mem_insert hi).mpr (.inr rfl), rfl, rfl, rfl, rfl⟩
  | @takenOver call row hl _ _ _ ht hu =>
    obtain ⟨c₀, hc₀, rfl⟩ := (Table.mem_updateWhere hu).mp hc
    obtain ⟨q, hq, hb⟩ := hlink c₀ hc₀
    unfold Table.touch
    by_cases ho : c₀.operationId = row.operationId
    · -- the reservation moves with its receipt
      obtain rfl : q = row :=
        receipt_unique hq (Table.lookup_mem hl) (hb.operationId.trans ho)
      rw [if_pos (decide_eq_true ho)]
      exact ⟨_, Table.mem_update_key ht hl, rfl, hb.service, hb.organization, hb.project⟩
    · have hne : receiptSchema.key q ≠ call.operation.idempotencyKey := by
        intro hk
        obtain rfl : q = row :=
          db.receipts.eq_of_key hq (Table.lookup_mem hl) (hk.trans (Table.lookup_key hl).symm)
        exact ho hb.operationId.symm
      rw [if_neg (fun hk => ho (of_decide_eq_true hk))]
      exact ⟨q, Table.mem_update_other ht hq hne, hb⟩
  | finished _ _ _ _ ht hr =>
    rw [hr] at hc
    obtain ⟨q, hq, hb⟩ := hlink c (Table.mem_deleteWhere.mp hc).1
    exact backs_updated ht (fun _ _ h => ⟨h.1, h.2, h.3, h.4⟩) hq hb
  | renewed _ _ _ _ ht hr =>
    rw [hr] at hc
    obtain ⟨q, hq, hb⟩ := hlink c hc
    exact backs_updated ht (fun _ _ h => ⟨h.1, h.2, h.3, h.4⟩) hq hb

theorem reachable_linked (h : Reachable store db) : db.Linked := by
  obtain ⟨tr, h⟩ := h
  exact h.invariant Database.Linked (fun _ _ _ hl hs => hl.step hs) .empty

/-- **a reservation with the operation id of a receipt is one of its service** -/
theorem linked_service (hlink : db.Linked) {q : ReceiptRow} (hq : q ∈ db.receipts.rows)
    {c : CredentialReservationRow} (hc : c ∈ db.credentialReservations.rows)
    (ho : c.operationId = q.operationId) : q.Backs c := by
  obtain ⟨q', hq', hb⟩ := hlink c hc
  rwa [receipt_unique hq hq' (ho.symm.trans hb.operationId.symm)]

/-! ## reservations over a step -/

theorem reservation_eta {c : CredentialReservationRow} {o : Uuid} (h : o = c.operationId) :
    { c with operationId := o } = c := by
  rw [h]

/-- the receipt of another key is not touched -/
theorem lookup_update_other {t t' : Table receiptSchema} {j k : Uuid} {f : ReceiptRow → ReceiptRow}
    (h : t.updateWhere (receiptSchema.hasKey j) f = .ok t')
    (hf : ∀ q, (f q).idempotencyKey = q.idempotencyKey) (hne : k ≠ j) :
    t'.lookup k = t.lookup k := by
  rw [Table.lookup_update_key h hf, if_neg hne]

/-- **while its receipt is held, a reservation stays and follows the operation id** -/
theorem reservation_kept (h : StoreStep store db r db') {c : CredentialReservationRow}
    (hc : c ∈ db.credentialReservations.rows) {k : Uuid} {q q' : ReceiptRow}
    (hq : db.receipts.lookup k = some q) (hb : q.operationId = c.operationId)
    (hq' : db'.receipts.lookup k = some q') (hs' : q'.state = .inProgress) :
    { c with operationId := q'.operationId } ∈ db'.credentialReservations.rows := by
  -- a receipt that does not change leaves the reservation as it is
  have hsame : db'.receipts.lookup k = db.receipts.lookup k →
      c ∈ db'.credentialReservations.rows →
      { c with operationId := q'.operationId } ∈ db'.credentialReservations.rows := by
    intro hl hc
    obtain rfl : q = q' := Option.some.inj (hq.symm.trans (hl.symm.trans hq'))
    rwa [reservation_eta hb]
  -- a new receipt has another key
  have hnew : ∀ {operation : OperationRequest} {t : Table receiptSchema} {env : CallEnv},
      db.receipts.lookup operation.idempotencyKey = none →
      db.receipts.insert (.reserved env operation) = .ok t → t.lookup k = db.receipts.lookup k := by
    intro operation t env hnone hi
    rw [Table.lookup_insert hi]
    refine if_neg fun hk => ?_
    rw [← hk] at hq
    exact absurd_none_some hnone hq
  obtain ⟨env, call, answer⟩ := r
  cases operation_change h with
  | same ht hr => exact hsame (by rw [ht]) (by rwa [hr])
  | granted hnone hi hr _ => exact hsame (hnew hnone hi) (by rwa [hr])
  | reserved hnone hi hu => exact hsame (hnew hnone hi) ((Table.mem_insert hu).mpr (.inl hc))
  | @takenOver call row hl _ _ _ ht hu =>
    by_cases hk : k = call.operation.idempotencyKey
    · subst hk
      obtain rfl : row = q := Option.some.inj (hl.symm.trans hq)
      have hlk := Table.lookup_updated ht (fun _ => rfl) hl
      obtain rfl : row.takenOver env = q' := Option.some.inj (hlk.symm.trans hq')
      refine (Table.mem_updateWhere hu).mpr ⟨c, hc, ?_⟩
      exact if_pos (decide_eq_true hb.symm)
    · refine hsame (lookup_update_other ht (fun _ => rfl) hk) ?_
      refine (Table.mem_updateWhere hu).mpr ⟨c, hc, if_neg fun ho => ?_⟩
      have hrow : q = row := receipt_unique (Table.lookup_mem hq) (Table.lookup_mem hl)
        (hb.trans (of_decide_eq_true ho))
      rw [← Table.lookup_key hq, hrow] at hk
      exact hk (Table.lookup_key hl)
  | @finished call row sealed hl _ ho _ ht hr =>
    by_cases hk : k = call.operation.idempotencyKey
    · subst hk
      have hlk := Table.lookup_updated ht (fun _ => rfl) hl
      obtain rfl : row.finished env call.response sealed = q' :=
        Option.some.inj (hlk.symm.trans hq')
      exact absurd hs' (finished_done _ _ _ _)
    · refine hsame (lookup_update_other ht (fun _ => rfl) hk) ?_
      rw [hr]
      refine Table.mem_deleteWhere.mpr ⟨hc, Bool.eq_false_iff.mpr fun hsp => ?_⟩
      have hco : c.operationId = call.operationId := spends_operationId hsp
      have hrow : q = row := receipt_unique (Table.lookup_mem hq) (Table.lookup_mem hl)
        (hb.trans (hco.trans ho.symm))
      rw [← Table.lookup_key hq, hrow] at hk
      exact hk (Table.lookup_key hl)
  | @renewed operation o row hl _ _ _ ht hr =>
    by_cases hk : k = operation.idempotencyKey
    · subst hk
      obtain rfl : row = q := Option.some.inj (hl.symm.trans hq)
      have hlk := Table.lookup_updated ht (fun _ => rfl) hl
      obtain rfl : row.renewed env = q' := Option.some.inj (hlk.symm.trans hq')
      rw [hr, reservation_eta (o := (row.renewed env).operationId) hb]
      exact hc
    · exact hsame (lookup_update_other ht (fun _ => rfl) hk) (by rwa [hr])

/-- a reservation was there before under some operation id, or is made by this create -/
theorem reservation_origin (h : StoreStep store db r db') {c : CredentialReservationRow}
    (hc : c ∈ db'.credentialReservations.rows) :
    (∃ c₀ ∈ db.credentialReservations.rows, c = { c₀ with operationId := c.operationId }) ∨
    ∃ command, r.call = .prepare (.createCredential command) ∧
      db.receipts.lookup command.operation.idempotencyKey = none ∧
      db.receipts.insert (.reserved r.env command.operation) = .ok db'.receipts ∧
      c = PgStore.reservationRow r.env command r.env.operationId := by
  obtain ⟨env, call, answer⟩ := r
  cases operation_change h with
  | same _ hr => exact .inl ⟨c, hr ▸ hc, rfl⟩
  | granted _ _ hr _ => exact .inl ⟨c, hr ▸ hc, rfl⟩
  | @reserved command hnone hi hu =>
    rcases (Table.mem_insert hu).mp hc with hc | rfl
    · exact .inl ⟨c, hc, rfl⟩
    · exact .inr ⟨command, rfl, hnone, hi, rfl⟩
  | takenOver _ _ _ _ _ hu =>
    obtain ⟨c₀, hc₀, rfl⟩ := (Table.mem_updateWhere hu).mp hc
    refine .inl ⟨c₀, hc₀, ?_⟩
    unfold Table.touch
    split <;> rfl
  | finished _ _ _ _ _ hr =>
    rw [hr] at hc
    exact .inl ⟨c, (Table.mem_deleteWhere.mp hc).1, rfl⟩
  | renewed _ _ _ _ _ hr => exact .inl ⟨c, hr ▸ hc, rfl⟩

end

end Syouyu
