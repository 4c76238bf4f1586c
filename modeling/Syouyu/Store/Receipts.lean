import Syouyu.Store.Schema

/-!
# Operation receipts

Every mutating request owns one receipt, keyed by its idempotency key (`lib.rs`, from
`claim_existing_receipt` on, and `cipher.rs`).

* `claimExistingReceipt`      replay a finished receipt, refuse a held one, take over an expired one;
* `reserveReceipt`            write the receipt of a new operation;
* `requireInProgressReceipt`  the fence: the caller's operation id must be the current one;
* `finishReceipt`             seal the response into the receipt;
* `rejectParallelOperation`   no second operation on a service.

Each has one inversion lemma, `.._eq_ok`, that lists its checks and the one row it writes
(`ReceiptRow.takenOver`, `ReceiptRow.reserved`, `ReceiptRow.finished`, `ReceiptRow.renewed`).
`decodeReceipt_finished` is the round trip of a sealed response.
-/

set_option linter.unusedSectionVars false

namespace Syouyu
open Lib

/-! ## the receipt cipher -/

def nonceBytes : Nat := 12

abbrev Nonce := { bytes : List UInt8 // bytes.length = nonceBytes }

/-- An authenticated cipher under a fixed key; the one law assumed of it is that decryption
under the same nonce and associated data inverts encryption. -/
structure ReceiptCipher where
  aeadSeal : Nonce → (msg aad : List UInt8) → Option (List UInt8)
  aeadOpen : Nonce → (msg aad : List UInt8) → Option (List UInt8)
  aeadOpen_aeadSeal : ∀ {nonce msg aad c}, aeadSeal nonce msg aad = some c →
    aeadOpen nonce c aad = some msg

/-- the associated data: both ids and a version tag -/
def aad (idempotencyKey operationId : Uuid) : List UInt8 :=
  idempotencyKey.asBytes ++ operationId.asBytes ++ asBytes "syouyu-receipt-1"

/-- `nonce` is what the system's random generator produced, if it did -/
def ReceiptCipher.encrypt (cipher : ReceiptCipher) (nonce : Option Nonce)
    (idempotencyKey operationId : Uuid) (plaintext : List UInt8) :
    Except StoreError (Nonce × List UInt8) :=
  match nonce with
  | none => .error (.encryption "cannot generate receipt nonce")
  | some nonce =>
    match cipher.aeadSeal nonce plaintext (aad idempotencyKey operationId) with
    | none => .error (.encryption "cannot encrypt operation receipt")
    | some ciphertext => .ok (nonce, ciphertext)

def ReceiptCipher.decrypt (cipher : ReceiptCipher) (idempotencyKey operationId : Uuid)
    (nonce ciphertext : List UInt8) : Except StoreError (List UInt8) :=
  if h : nonce.length = nonceBytes then
    match cipher.aeadOpen ⟨nonce, h⟩ ciphertext (aad idempotencyKey operationId) with
    | none => .error (.encryption "cannot decrypt operation receipt")
    | some plaintext => .ok plaintext
  else .error (.corruptData "operation receipt nonce")

/-- a ciphertext opens under the ids it was sealed for -/
theorem ReceiptCipher.decrypt_encrypt {cipher : ReceiptCipher} {nonce : Option Nonce}
    {k o : Uuid} {plaintext : List UInt8} {sealed : Nonce × List UInt8}
    (h : cipher.encrypt nonce k o plaintext = .ok sealed) :
    cipher.decrypt k o sealed.1.1 sealed.2 = .ok plaintext := by
  cases nonce with
  | none => cases h
  | some n =>
    simp only [ReceiptCipher.encrypt] at h
    cases hs : cipher.aeadSeal n plaintext (aad k o) with
    | none => rw [hs] at h; cases h
    | some c =>
      rw [hs] at h
      obtain rfl : (n, c) = sealed := Except.ok.inj h
      simp only [ReceiptCipher.decrypt, n.2, dif_pos]
      rw [cipher.aeadOpen_aeadSeal hs]

/-! ## the store and what a call finds in its surroundings -/

/-- a replica: the pool is the database of the model; `json` is the byte form of values -/
structure PgStore where
  receiptCipher : ReceiptCipher
  json : JsonCodec
  credentialLimits : CredentialLimits

/-- What one call reads from outside the database: the transaction's `now()`, the
`clock_timestamp()` of the statement that reads it, the results of `Uuid::now_v7` and the
random nonce. -/
structure CallEnv where
  now : Timestamp
  clock : Timestamp
  operationId : Uuid
  credentialId : Uuid
  auditId : Uuid
  nonce : Option Nonce

def operationLeaseSeconds : Nat := 120

/-- `clock_timestamp() + interval` -/
def CallEnv.leaseEnd (env : CallEnv) : Timestamp := env.clock + seconds operationLeaseSeconds

/-! ## rows a receipt goes through -/

/-- a receipt of another request under the same key does not match -/
def ReceiptRow.matches (row : ReceiptRow) (operation : OperationRequest) : Bool :=
  decide (row.organizationId = operation.organizationId) &&
  decide (row.projectId = operation.projectId) &&
  decide (row.serviceInstanceId = operation.serviceInstanceId) &&
  decide (row.principalId = operation.principalId) &&
  decide (row.action = operation.action) &&
  decide (row.generation = operation.generation) &&
  decide (row.requestHash = operation.requestHash)

/-- the request a receipt was written for -/
def ReceiptRow.request (row : ReceiptRow) : OperationRequest where
  idempotencyKey := row.idempotencyKey
  organizationId := row.organizationId
  projectId := row.projectId
  serviceInstanceId := row.serviceInstanceId
  principalId := row.principalId
  action := row.action
  generation := row.generation
  requestHash := row.requestHash

theorem ReceiptRow.matches_iff {row : ReceiptRow} {operation : OperationRequest}
    (hk : row.idempotencyKey = operation.idempotencyKey) :
    row.matches operation = true ↔ row.request = operation := by
  cases operation
  simp only [ReceiptRow.matches, ReceiptRow.request, OperationRequest.mk.injEq, Bool.and_eq_true,
    decide_eq_true_eq] at hk ⊢
  tauto

/-- the row `reserve_receipt` writes -/
def ReceiptRow.reserved (env : CallEnv) (operation : OperationRequest) : ReceiptRow where
  idempotencyKey := operation.idempotencyKey
  operationId := env.operationId
  organizationId := operation.organizationId
  projectId := operation.projectId
  serviceInstanceId := operation.serviceInstanceId
  principalId := operation.principalId
  action := operation.action
  generation := operation.generation
  requestHash := operation.requestHash
  state := .inProgress
  leaseAttempt := 1
  leaseExpiresAt := some env.leaseEnd
  responseStatus := none
  responseNonce := none
  responseCiphertext := none
  createdAt := env.now
  completedAt := none
  updatedAt := env.now

/-- the row after a takeover -/
def ReceiptRow.takenOver (env : CallEnv) (row : ReceiptRow) : ReceiptRow :=
  { row with
    operationId := env.operationId
    leaseAttempt := row.leaseAttempt + 1
    leaseExpiresAt := some env.leaseEnd
    updatedAt := env.now }

/-- the row after `renew_operation` -/
def ReceiptRow.renewed (env : CallEnv) (row : ReceiptRow) : ReceiptRow :=
  { row with leaseExpiresAt := some env.leaseEnd, updatedAt := env.now }

/-- `i32::from` on a `u16` -/
def statusToI32 (status : UInt16) : Int32 := Int32.ofNat status.toNat

/-- `u16::try_from` on an `i32` -/
def u16TryFrom (value : Int32) : Option UInt16 :=
  if 0 ≤ value ∧ value ≤ 65535 then some (UInt16.ofNat value.toInt.toNat) else none

theorem u16TryFrom_statusToI32 (status : UInt16) : u16TryFrom (statusToI32 status) = some status := by
  have hlt : status.toNat < 2 ^ 16 := status.toNat_lt
  have hInt : (statusToI32 status).toInt = status.toNat := by
    rw [statusToI32, Int32.toInt_ofNat_of_lt (by omega)]
  have hrange : 0 ≤ statusToI32 status ∧ statusToI32 status ≤ 65535 := by
    rw [Int32.le_iff_toInt_le, Int32.le_iff_toInt_le, hInt]
    exact ⟨by simp, by show (status.toNat : Int) ≤ 65535; omega⟩
  rw [u16TryFrom, if_pos hrange, hInt]
  simp

/-- the row after `finish_receipt` -/
def ReceiptRow.finished (env : CallEnv) (response : StoredHttpResponse)
    (sealed : Nonce × List UInt8) (row : ReceiptRow) : ReceiptRow :=
  { row with
    state := if response.failed then .failed else .succeeded
    responseStatus := some (statusToI32 response.status)
    responseNonce := some sealed.1.1
    responseCiphertext := some sealed.2
    completedAt := some env.now
    leaseExpiresAt := none
    updatedAt := env.now }

/-- a finished receipt is no longer in progress -/
theorem finished_done (env : CallEnv) (response : StoredHttpResponse)
    (sealed : Nonce × List UInt8) (row : ReceiptRow) :
    (row.finished env response sealed).state ≠ .inProgress := by
  show (if response.failed then ReceiptState.failed else .succeeded) ≠ .inProgress
  split <;> simp

/-! ## reading and writing receipts -/

def PgStore.decodeReceipt (store : PgStore) (row : ReceiptRow) :
    Except StoreError StoredHttpResponse := do
  let status ← okOr (row.responseStatus.bind u16TryFrom) (.corruptData "operation response status")
  let nonce ← okOr row.responseNonce (.corruptData "operation response nonce")
  let ciphertext ← okOr row.responseCiphertext (.corruptData "operation response ciphertext")
  let plaintext ←
    store.receiptCipher.decrypt row.idempotencyKey row.operationId nonce ciphertext
  let body ← okOr (store.json.fromSlice plaintext) (.corruptData "operation response JSON")
  pure ⟨status, body, decide (row.state = .failed)⟩

/-- **a sealed response decodes to itself**, whatever the receipt went through before -/
theorem PgStore.decodeReceipt_finished {store : PgStore} {env : CallEnv}
    {response : StoredHttpResponse} {sealed : Nonce × List UInt8} {row : ReceiptRow}
    (h : store.receiptCipher.encrypt env.nonce row.idempotencyKey row.operationId
      (store.json.toVec response.body) = .ok sealed) :
    store.decodeReceipt (row.finished env response sealed) = .ok response := by
  have hstate : decide ((row.finished env response sealed).state = .failed) = response.failed := by
    cases hf : response.failed <;> simp [ReceiptRow.finished, hf]
  unfold PgStore.decodeReceipt
  simp only [except_bind_eq_ok, okOr_eq_ok]
  refine ⟨response.status, ?_, sealed.1.1, rfl, sealed.2, rfl, store.json.toVec response.body,
    ReceiptCipher.decrypt_encrypt h, response.body, store.json.fromSlice_toVec _, ?_⟩
  · exact u16TryFrom_statusToI32 _
  · rw [hstate]
    rfl

inductive ReceiptClaim where
  | new
  | takenOver (operationId : Uuid)
  | prepared (answer : Prepare Empty)

/-- the lease of a held receipt has run out -/
def ReceiptRow.expired (env : CallEnv) (row : ReceiptRow) : Bool :=
  row.leaseExpiresAt.any fun t => decide (t ≤ env.clock)

/-- the `UPDATE` that claims an expired receipt, and the one that moves its credential
reservation to the new operation id -/
def takeOverReceipt (env : CallEnv) (operation : OperationRequest) (row : ReceiptRow) :
    StoreTx ReceiptClaim := do
  let claimed ← updateRows receiptsPart .database
    (fun r => receiptSchema.hasKey operation.idempotencyKey r &&
      decide (r.operationId = row.operationId) && decide (r.state = .inProgress) && r.expired env)
    (ReceiptRow.takenOver env)
  if claimed = 0 then pure (.prepared (.inProgress row.operationId))
  else do
    let _ ← updateRows credentialReservationsPart .database
      (fun r => decide (r.operationId = row.operationId))
      (fun r => { r with operationId := env.operationId })
    pure (.takenOver env.operationId)

def claimExistingReceipt (store : PgStore) (env : CallEnv) (operation : OperationRequest) :
    StoreTx ReceiptClaim := do
  let row ← Tx.read fun db => db.receipts.lookup operation.idempotencyKey
  match row with
  | none => pure .new
  | some row => do
    Tx.ensure (row.matches operation) .idempotencyConflict
    if row.state = .inProgress then do
      Tx.ensure row.leaseExpiresAt.isSome (.corruptData "operation receipt lease")
      takeOverReceipt env operation row
    else do
      let response ← Tx.ofExcept (store.decodeReceipt row)
      pure (.prepared (.replay response))

def reserveReceipt (env : CallEnv) (operation : OperationRequest) : StoreTx Uuid := do
  insertRow receiptsPart mapDatabaseError (.reserved env operation)
  pure env.operationId

/-- an operation id for the caller: the one a takeover gave, or that of a new receipt -/
def grantReceipt (env : CallEnv) (operation : OperationRequest) (claimed : Option Uuid) :
    StoreTx Uuid :=
  match claimed with
  | some operationId => pure operationId
  | none => reserveReceipt env operation

def requireInProgressReceipt (operation : OperationRequest) (operationId : Uuid) :
    StoreTx Unit := do
  let row ← Tx.read fun db => db.receipts.lookup operation.idempotencyKey
  let row ← Tx.require row (.corruptData "operation receipt")
  Tx.ensure (row.matches operation) .idempotencyConflict
  Tx.ensure (decide (row.operationId = operationId)) (.operationLeaseLost row.operationId)
  Tx.ensure (decide (row.state = .inProgress)) (.conflict "operation is already complete")

/-- the `WHERE` of a statement that only the holder of a receipt may perform -/
def heldWhere (operation : OperationRequest) (operationId : Uuid) (row : ReceiptRow) : Bool :=
  receiptSchema.hasKey operation.idempotencyKey row && decide (row.operationId = operationId) &&
  decide (row.state = .inProgress)

/-- the branch of `finish_receipt` that writes -/
def sealReceipt (store : PgStore) (env : CallEnv) (operation : OperationRequest)
    (operationId : Uuid) (response : StoredHttpResponse) : StoreTx Unit := do
  let sealed ← Tx.ofExcept (store.receiptCipher.encrypt env.nonce operation.idempotencyKey
    operationId (store.json.toVec response.body))
  let updated ← updateRows receiptsPart .database (heldWhere operation operationId)
    (ReceiptRow.finished env response sealed)
  Tx.ensure (decide (updated = 1)) (.operationLeaseLost operationId)

def finishReceipt (store : PgStore) (env : CallEnv) (operation : OperationRequest)
    (operationId : Uuid) (response : StoredHttpResponse) : StoreTx Unit := do
  let row ← Tx.read fun db => db.receipts.lookup operation.idempotencyKey
  let row ← Tx.require row (.corruptData "operation receipt")
  Tx.ensure (row.matches operation) .idempotencyConflict
  Tx.ensure (decide (row.operationId = operationId)) (.operationLeaseLost row.operationId)
  if row.state ≠ .inProgress then do
    let stored ← Tx.ofExcept (store.decodeReceipt row)
    Tx.ensure (decide (stored = response))
      (.conflict "operation receipt already has a different result")
  else sealReceipt store env operation operationId response

/-- Every `prepare_*` starts here: an existing receipt answers for itself, a new or taken over
one is passed on to `body`, whose operation id and context the caller is to execute. -/
def withClaim {α : Type} (store : PgStore) (env : CallEnv) (operation : OperationRequest)
    (body : Option Uuid → StoreTx (Uuid × α)) : StoreTx (Prepare α) := do
  let claim ← claimExistingReceipt store env operation
  match claim with
  | .prepared answer => pure answer.mapContext
  | .new => do
    let granted ← body none
    pure (.execute granted.1 granted.2)
  | .takenOver operationId => do
    let granted ← body (some operationId)
    pure (.execute granted.1 granted.2)

/-- `ORDER BY .. ASC`: rows in the order of `le` -/
def orderBy {ρ : Type} (le : ρ → ρ → Bool) (rows : List ρ) : List ρ :=
  rows.insertionSort fun a b => le a b = true

def rejectParallelOperation (serviceInstanceId idempotencyKey : Uuid) : StoreTx Unit := do
  let rows ← Tx.read fun db => orderBy (fun a b => decide (a.createdAt ≤ b.createdAt))
    (db.receipts.select fun r => decide (r.serviceInstanceId = serviceInstanceId) &&
      decide (r.state = .inProgress) && !receiptSchema.hasKey idempotencyKey r)
  Tx.refuse (rows.head?.map fun row => .operationInProgress row.operationId)

/-! ## when they go through -/

/-- the request holds its receipt under this operation id -/
def Database.HeldBy (db : Database) (operation : OperationRequest) (operationId : Uuid) : Prop :=
  ∃ row, db.receipts.lookup operation.idempotencyKey = some row ∧ row.request = operation ∧
    row.operationId = operationId ∧ row.state = .inProgress

/-- a receipt found under the key of a request matches it iff it was written for it -/
theorem matches_of_lookup {db : Database} {operation : OperationRequest} {row : ReceiptRow}
    (h : db.receipts.lookup operation.idempotencyKey = some row) :
    row.matches operation = true ↔ row.request = operation :=
  ReceiptRow.matches_iff (Table.lookup_key h)

theorem requireInProgressReceipt_eq_ok {operation : OperationRequest} {operationId : Uuid}
    {db db' : Database} {u : Unit} :
    requireInProgressReceipt operation operationId db = .ok (u, db') ↔
      db.HeldBy operation operationId ∧ db' = db := by
  simp only [requireInProgressReceipt, Tx.bind_eq_ok, Tx.read_eq_ok, Tx.require_eq_ok,
    Tx.ensure_eq_ok, decide_eq_true_eq]
  constructor
  · rintro ⟨_, _, ⟨rfl, rfl⟩, row, _, ⟨hl, rfl⟩, _, _, ⟨hm, rfl⟩, _, _, ⟨ho, rfl⟩, hs, rfl⟩
    exact ⟨⟨row, hl, (matches_of_lookup hl).mp hm, ho, hs⟩, rfl⟩
  · rintro ⟨⟨row, hl, hm, ho, hs⟩, rfl⟩
    exact ⟨_, _, ⟨rfl, rfl⟩, row, _, ⟨hl, rfl⟩, (), _, ⟨(matches_of_lookup hl).mpr hm, rfl⟩,
      (), _, ⟨ho, rfl⟩, hs, rfl⟩

theorem reserveReceipt_eq_ok {env : CallEnv} {operation : OperationRequest} {db db' : Database}
    {operationId : Uuid} :
    reserveReceipt env operation db = .ok (operationId, db') ↔
      operationId = env.operationId ∧
      ∃ t, db.receipts.insert (.reserved env operation) = .ok t ∧
        db' = { db with receipts := t } := by
  simp only [reserveReceipt, Tx.bind_eq_ok, insertRow_eq_ok, Tx.pure_eq_ok]
  constructor
  · rintro ⟨_, _, ⟨t, hi, -, rfl⟩, rfl, rfl⟩
    exact ⟨rfl, t, hi, rfl⟩
  · rintro ⟨rfl, t, hi, rfl⟩
    exact ⟨(), _, ⟨t, hi, rfl, rfl⟩, rfl, rfl⟩

/-- no receipt of the service is held, except perhaps that of the key -/
def Database.OnlyHeld (db : Database) (s k : Uuid) : Prop :=
  ∀ row ∈ db.receipts.rows, row.serviceInstanceId = s → row.state = .inProgress →
    row.idempotencyKey = k

theorem rejectParallelOperation_eq_ok {s k : Uuid} {db db' : Database} {u : Unit} :
    rejectParallelOperation s k db = .ok (u, db') ↔ db.OnlyHeld s k ∧ db' = db := by
  have hnil : ∀ rows : List ReceiptRow,
      (orderBy (fun a b => decide (a.createdAt ≤ b.createdAt)) rows).head? = none ↔ rows = [] := by
    intro rows
    rw [List.head?_eq_none_iff, ← List.length_eq_zero_iff, orderBy, List.length_insertionSort,
      List.length_eq_zero_iff]
  have hselect : (db.receipts.select fun r => decide (r.serviceInstanceId = s) &&
      decide (r.state = .inProgress) && !receiptSchema.hasKey k r) = [] ↔ db.OnlyHeld s k := by
    simp only [Database.OnlyHeld, Table.select, List.filter_eq_nil_iff, Bool.and_eq_true, decide_eq_true_eq,
      Bool.not_eq_true', Schema.hasKey_eq_false, not_and, not_not, and_imp]
    rfl
  simp only [rejectParallelOperation, Tx.bind_eq_ok, Tx.read_eq_ok, Tx.refuse_eq_ok,
    Option.map_eq_none_iff]
  constructor
  · rintro ⟨rows, _, ⟨rfl, rfl⟩, h, rfl⟩
    exact ⟨hselect.mp ((hnil _).mp h), rfl⟩
  · rintro ⟨h, rfl⟩
    exact ⟨_, _, ⟨rfl, rfl⟩, (hnil _).mpr (hselect.mpr h), rfl⟩

/-- the database after `env` took `row` over -/
def Database.TakenOver (db : Database) (env : CallEnv) (row : ReceiptRow) (db' : Database) : Prop :=
  ∃ t u, db.receipts.updateWhere (receiptSchema.hasKey row.idempotencyKey)
      (ReceiptRow.takenOver env) = .ok t ∧
    db.credentialReservations.updateWhere (fun r => decide (r.operationId = row.operationId))
      (fun r => { r with operationId := env.operationId }) = .ok u ∧
    db' = { db with receipts := t, credentialReservations := u }

theorem takeOverReceipt_eq_ok {env : CallEnv} {operation : OperationRequest} {row : ReceiptRow}
    {db db' : Database} {claim : ReceiptClaim}
    (hl : db.receipts.lookup operation.idempotencyKey = some row) (hs : row.state = .inProgress) :
    takeOverReceipt env operation row db = .ok (claim, db') ↔
      (row.expired env = false ∧ claim = .prepared (.inProgress row.operationId) ∧ db' = db) ∨
      (row.expired env = true ∧ claim = .takenOver env.operationId ∧ db.TakenOver env row db') := by
  have hkey : row.idempotencyKey = operation.idempotencyKey := Table.lookup_key hl
  have haim : ∀ r : ReceiptRow, (receiptSchema.hasKey operation.idempotencyKey r &&
      decide (r.operationId = row.operationId) && decide (r.state = .inProgress) &&
      r.expired env) = true → receiptSchema.key r = operation.idempotencyKey := by
    intro r hr
    simp only [Bool.and_eq_true, Schema.hasKey_iff] at hr
    exact hr.1.1.1
  have hcount := Table.count_aimed (t := db.receipts) haim
  have hself : receiptSchema.hasKey operation.idempotencyKey row = true :=
    Schema.hasKey_iff.mpr hkey
  simp only [hl, Option.any_some, hself, hs, decide_true, Bool.true_and] at hcount
  simp only [takeOverReceipt, Tx.bind_eq_ok, updateRows_eq_ok]
  cases he : row.expired env with
  | false =>
    have hnone : ∀ r ∈ db.receipts.rows, (receiptSchema.hasKey operation.idempotencyKey r &&
        decide (r.operationId = row.operationId) && decide (r.state = .inProgress) &&
        r.expired env) = false := by
      rw [he] at hcount
      simpa [Table.count] using hcount
    have hupd := Table.updateWhere_none (f := ReceiptRow.takenOver env) hnone
    rw [he] at hcount
    constructor
    · rintro ⟨n, _, ⟨t, ht, hn, rfl⟩, h⟩
      obtain rfl : t = db.receipts := Except.ok.inj (ht.symm.trans hupd)
      have hn0 : n = 0 := hn.trans hcount
      rw [if_pos hn0, Tx.pure_eq_ok] at h
      exact .inl ⟨rfl, h.1, h.2⟩
    · rintro (⟨-, rfl, rfl⟩ | ⟨h, -⟩)
      · refine ⟨0, db', ⟨_, hupd, hcount.symm, rfl⟩, ?_⟩
        rw [if_pos rfl, Tx.pure_eq_ok]
        exact ⟨rfl, rfl⟩
      · cases h
  | true =>
    have hupd := Table.updateWhere_aimed haim (f := ReceiptRow.takenOver env) hl
      (by simp only [hself, hs, he, decide_true, Bool.and_self])
    rw [he] at hcount
    conv_rhs at hupd => rw [← hkey]
    constructor
    · rintro ⟨n, _, ⟨t, ht, hn, rfl⟩, h⟩
      have hn1 : n ≠ 0 := by rw [hn]; exact hcount.trans_ne Nat.one_ne_zero
      rw [if_neg hn1, Tx.bind_eq_ok] at h
      obtain ⟨_, _, h, h'⟩ := h
      obtain ⟨u, hu, -, rfl⟩ := updateRows_eq_ok.mp h
      obtain ⟨rfl, rfl⟩ := Tx.pure_eq_ok.mp h'
      exact .inr ⟨rfl, rfl, t, u, hupd.symm.trans ht, hu, rfl⟩
    · rintro (⟨h, -⟩ | ⟨-, rfl, t, u, ht, hu, rfl⟩)
      · cases h
      · refine ⟨1, _, ⟨t, hupd.trans ht, hcount.symm, rfl⟩, ?_⟩
        rw [if_neg Nat.one_ne_zero, Tx.bind_eq_ok]
        exact ⟨_, _, updateRows_eq_ok.mpr ⟨u, hu, rfl, rfl⟩, Tx.pure_eq_ok.mpr ⟨rfl, rfl⟩⟩

/-- what an existing receipt answers without being written -/
def PgStore.Settled (store : PgStore) (env : CallEnv) (row : ReceiptRow) (α : Type)
    (answer : Prepare α) : Prop :=
  (row.state = .inProgress ∧ row.expired env = false ∧ answer = .inProgress row.operationId) ∨
  (row.state ≠ .inProgress ∧ ∃ response, store.decodeReceipt row = .ok response ∧
    answer = .replay response)

/-- What is claimed when an operation is to be executed: nothing yet for a new key, an expired
receipt for a key that has one. -/
def Database.Claimed (db : Database) (env : CallEnv) (operation : OperationRequest)
    (claimed : Option Uuid) (db' : Database) : Prop :=
  (db.receipts.lookup operation.idempotencyKey = none ∧ claimed = none ∧ db' = db) ∨
  ∃ row, db.receipts.lookup operation.idempotencyKey = some row ∧ row.request = operation ∧
    row.state = .inProgress ∧ row.expired env = true ∧ claimed = some env.operationId ∧
    db.TakenOver env row db'

theorem lease_of_inProgress {db : Database} {k : Uuid} {row : ReceiptRow}
    (hl : db.receipts.lookup k = some row) (hs : row.state = .inProgress) :
    row.leaseExpiresAt.isSome = true := by
  have hc := Table.lookup_check hl
  simp only [receiptSchema, hs, Bool.and_eq_true] at hc
  exact hc.2.2

/-- the claim with which the body of a prepare call goes on -/
def ReceiptClaim.ofClaimed : Option Uuid → ReceiptClaim
  | none => .new
  | some operationId => .takenOver operationId

theorem claimExistingReceipt_eq_ok {store : PgStore} {env : CallEnv}
    {operation : OperationRequest} {db db' : Database} {claim : ReceiptClaim} :
    claimExistingReceipt store env operation db = .ok (claim, db') ↔
      (db' = db ∧ ∃ row, db.receipts.lookup operation.idempotencyKey = some row ∧
        row.request = operation ∧ ∃ answer, store.Settled env row Empty answer ∧
          claim = .prepared answer) ∨
      ∃ claimed, db.Claimed env operation claimed db' ∧ claim = .ofClaimed claimed := by
  unfold claimExistingReceipt
  rw [Tx.read_bind]
  cases hl : db.receipts.lookup operation.idempotencyKey with
  | none =>
    simp only [Database.Claimed, hl, Tx.pure_eq_ok]
    constructor
    · rintro ⟨rfl, rfl⟩
      exact .inr ⟨none, .inl ⟨trivial, rfl, rfl⟩, rfl⟩
    · rintro (⟨-, row, h, -⟩ | ⟨claimed, ⟨-, rfl, rfl⟩ | ⟨row, h, -⟩, rfl⟩)
      · cases h
      · exact ⟨rfl, rfl⟩
      · cases h
  | some row =>
    have hm := matches_of_lookup hl
    simp only [Database.Claimed, hl, Tx.bind_eq_ok, Tx.ensure_eq_ok, PgStore.Settled,
      Option.some.injEq, exists_eq_left', reduceCtorEq, false_and, false_or]
    by_cases hs : row.state = .inProgress
    · simp only [hs, if_true, Tx.bind_eq_ok, Tx.ensure_eq_ok, lease_of_inProgress hl hs]
      constructor
      · rintro ⟨_, _, ⟨hq, rfl⟩, _, _, ⟨-, rfl⟩, h⟩
        rcases (takeOverReceipt_eq_ok hl hs).mp h with ⟨he, rfl, rfl⟩ | ⟨he, rfl, ht⟩
        · exact .inl ⟨rfl, hm.mp hq, _, .inl ⟨trivial, he, rfl⟩, rfl⟩
        · exact .inr ⟨_, ⟨hm.mp hq, trivial, he, rfl, ht⟩, rfl⟩
      · rintro (⟨rfl, hq, _, ⟨-, he, rfl⟩ | ⟨h, -⟩, rfl⟩ | ⟨_, ⟨hq, -, he, rfl, ht⟩, rfl⟩)
        · exact ⟨(), _, ⟨hm.mpr hq, rfl⟩, (), _, ⟨trivial, rfl⟩,
            (takeOverReceipt_eq_ok hl hs).mpr (.inl ⟨he, rfl, rfl⟩)⟩
        · exact absurd rfl h
        · exact ⟨(), _, ⟨hm.mpr hq, rfl⟩, (), _, ⟨trivial, rfl⟩,
            (takeOverReceipt_eq_ok hl hs).mpr (.inr ⟨he, rfl, ht⟩)⟩
    · simp only [hs, if_false, Tx.bind_eq_ok, Tx.ofExcept_eq_ok, Tx.pure_eq_ok]
      constructor
      · rintro ⟨_, _, ⟨hq, rfl⟩, response, _, ⟨hd, rfl⟩, rfl, rfl⟩
        exact .inl ⟨rfl, hm.mp hq, _, .inr ⟨hs, response, hd, rfl⟩, rfl⟩
      · rintro (⟨rfl, hq, _, ⟨h, -⟩ | ⟨-, response, hd, rfl⟩, rfl⟩ | ⟨_, ⟨-, h, -⟩, -⟩)
        · exact h.elim
        · exact ⟨(), _, ⟨hm.mpr hq, rfl⟩, response, _, ⟨hd, rfl⟩, rfl, rfl⟩
        · exact h.elim

/-- **a prepare call is answered by the receipt or executes its body on what it claimed** -/
theorem withClaim_eq_ok {α : Type} {store : PgStore} {env : CallEnv}
    {operation : OperationRequest} {body : Option Uuid → StoreTx (Uuid × α)} {db db' : Database}
    {answer : Prepare α} :
    withClaim store env operation body db = .ok (answer, db') ↔
      (db' = db ∧ ∃ row, db.receipts.lookup operation.idempotencyKey = some row ∧
        row.request = operation ∧ store.Settled env row α answer) ∨
      ∃ claimed db₁ granted, db.Claimed env operation claimed db₁ ∧
        body claimed db₁ = .ok (granted, db') ∧ answer = .execute granted.1 granted.2 := by
  simp only [withClaim, Tx.bind_eq_ok, claimExistingReceipt_eq_ok]
  constructor
  · rintro ⟨claim, db₁, ⟨rfl, row, hl, hq, settled, hset, rfl⟩ | ⟨claimed, hc, rfl⟩, h⟩
    · obtain ⟨rfl, rfl⟩ := Tx.pure_eq_ok.mp h
      refine .inl ⟨rfl, row, hl, hq, ?_⟩
      rcases hset with ⟨hs, he, rfl⟩ | ⟨hs, response, hd, rfl⟩
      · exact .inl ⟨hs, he, rfl⟩
      · exact .inr ⟨hs, response, hd, rfl⟩
    · refine .inr ⟨claimed, db₁, ?_⟩
      cases claimed with
      | none =>
        obtain ⟨granted, _, hb, hr⟩ := Tx.bind_eq_ok.mp h
        obtain ⟨rfl, rfl⟩ := Tx.pure_eq_ok.mp hr
        exact ⟨granted, hc, hb, rfl⟩
      | some o =>
        obtain ⟨granted, _, hb, hr⟩ := Tx.bind_eq_ok.mp h
        obtain ⟨rfl, rfl⟩ := Tx.pure_eq_ok.mp hr
        exact ⟨granted, hc, hb, rfl⟩
  · rintro (⟨rfl, row, hl, hq, ⟨hs, he, rfl⟩ | ⟨hs, response, hd, rfl⟩⟩ |
      ⟨claimed, db₁, granted, hc, hb, rfl⟩)
    · exact ⟨_, _, .inl ⟨rfl, row, hl, hq, .inProgress row.operationId, .inl ⟨hs, he, rfl⟩, rfl⟩,
        Tx.pure_eq_ok.mpr ⟨rfl, rfl⟩⟩
    · exact ⟨_, _, .inl ⟨rfl, row, hl, hq, .replay response, .inr ⟨hs, response, hd, rfl⟩, rfl⟩,
        Tx.pure_eq_ok.mpr ⟨rfl, rfl⟩⟩
    · refine ⟨_, db₁, .inr ⟨claimed, hc, rfl⟩, ?_⟩
      cases claimed with
      | none => exact Tx.bind_eq_ok.mpr ⟨granted, _, hb, Tx.pure_eq_ok.mpr ⟨rfl, rfl⟩⟩
      | some o => exact Tx.bind_eq_ok.mpr ⟨granted, _, hb, Tx.pure_eq_ok.mpr ⟨rfl, rfl⟩⟩

/-- the database after the receipt of `operation` was sealed with `response` -/
def Database.Finished (db : Database) (store : PgStore) (env : CallEnv)
    (operation : OperationRequest) (operationId : Uuid) (response : StoredHttpResponse)
    (db' : Database) : Prop :=
  ∃ sealed t, store.receiptCipher.encrypt env.nonce operation.idempotencyKey operationId
      (store.json.toVec response.body) = .ok sealed ∧
    db.receipts.updateWhere (receiptSchema.hasKey operation.idempotencyKey)
      (ReceiptRow.finished env response sealed) = .ok t ∧
    db' = { db with receipts := t }

/-- a holder's statement affects its receipt and nothing else -/
theorem Database.HeldBy.update_eq_ok {db db' : Database} {operation : OperationRequest}
    {operationId : Uuid} (hh : db.HeldBy operation operationId) {f : ReceiptRow → ReceiptRow}
    {e : StoreError} {u : Unit} :
    (do let n ← updateRows receiptsPart .database (heldWhere operation operationId) f
        Tx.ensure (decide (n = 1)) e : StoreTx Unit) db = .ok (u, db') ↔
      ∃ t, db.receipts.updateWhere (receiptSchema.hasKey operation.idempotencyKey) f = .ok t ∧
        db' = { db with receipts := t } := by
  obtain ⟨row, hl, hq, ho, hs⟩ := hh
  have haim : ∀ r : ReceiptRow, heldWhere operation operationId r = true →
      receiptSchema.key r = operation.idempotencyKey := by
    intro r hr
    simp only [heldWhere, Bool.and_eq_true, Schema.hasKey_iff] at hr
    exact hr.1.1
  have hself : heldWhere operation operationId row = true := by
    simp only [heldWhere, Bool.and_eq_true, Schema.hasKey_iff, decide_eq_true_eq]
    exact ⟨⟨Table.lookup_key hl, ho⟩, hs⟩
  have hcount : db.receipts.count (heldWhere operation operationId) = 1 := by
    rw [Table.count_aimed haim, hl]
    simp [hself]
  have hupd := Table.updateWhere_aimed haim (f := f) hl hself
  simp only [Tx.bind_eq_ok, updateRows_eq_ok, Tx.ensure_eq_ok, decide_eq_true_eq]
  constructor
  · rintro ⟨n, _, ⟨t, ht, -, rfl⟩, -, rfl⟩
    exact ⟨t, hupd.symm.trans ht, rfl⟩
  · rintro ⟨t, ht, rfl⟩
    exact ⟨1, _, ⟨t, hupd.trans ht, hcount.symm, rfl⟩, rfl, rfl⟩

/-- a holder's `finish_receipt` seals the response -/
theorem finishReceipt_eq_ok {store : PgStore} {env : CallEnv} {operation : OperationRequest}
    {operationId : Uuid} {response : StoredHttpResponse} {db db' : Database} {u : Unit}
    (hh : db.HeldBy operation operationId) :
    finishReceipt store env operation operationId response db = .ok (u, db') ↔
      db.Finished store env operation operationId response db' := by
  have hseal : finishReceipt store env operation operationId response db =
      sealReceipt store env operation operationId response db := by
    obtain ⟨row, hl, hq, ho, hs⟩ := hh
    unfold finishReceipt
    rw [Tx.read_bind, Tx.require_bind hl, Tx.ensure_bind ((matches_of_lookup hl).mpr hq),
      Tx.ensure_bind (decide_eq_true ho), if_neg (not_not.mpr hs)]
  rw [hseal, sealReceipt, Database.Finished, Tx.bind_eq_ok]
  simp only [Tx.ofExcept_eq_ok]
  constructor
  · rintro ⟨sealed, _, ⟨he, rfl⟩, h⟩
    obtain ⟨t, ht, rfl⟩ := hh.update_eq_ok.mp h
    exact ⟨sealed, t, he, ht, rfl⟩
  · rintro ⟨sealed, t, he, ht, rfl⟩
    exact ⟨sealed, db, ⟨he, rfl⟩, hh.update_eq_ok.mpr ⟨t, ht, rfl⟩⟩

end Syouyu
