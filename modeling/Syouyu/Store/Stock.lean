import Syouyu.Store.Fits
import Mathlib.Data.Bool.AllAny

/-!
# Stocking up on credentials

As long as the limits admit one, an idle database takes another credential: a create is prepared
and completed by two calls with nothing between them.

* `create_granted`     the prepare call goes through;
* `create_issued`      and then the completing call; what the two leave;
* `Database.Stocked`   a database whose ids are all below a number, so that there are fresh ones;
* `stock_one`, `stock_many`   one more credential, and any number up to the limits.
-/

set_option linter.unusedSectionVars false

namespace Syouyu
open Lib

/-- no operation is under way -/
structure Database.Idle (db : Database) : Prop where
  receipts : ∀ row ∈ db.receipts.rows, row.state ≠ .inProgress
  reservations : db.credentialReservations.rows = []

section
variable {store : PgStore} {env env' : CallEnv} {db : Database} {command : CreateCredentialCommand}
  {service : ServiceRow} {row : BucketRow}

/-! ## one create -/

/-- **an admitted create of a ready service is granted** -/
theorem create_granted (hidle : db.Idle) (hv : command.validate = .ok ())
    (haction : textStorable command.operation.action = true)
    (hready : db.Ready command.operation service row) (hadm : db.Admitted store command)
    (hnew : ∀ q ∈ db.receipts.rows,
      q.idempotencyKey ≠ command.operation.idempotencyKey ∧ q.operationId ≠ env.operationId) :
    ∃ t u, db.receipts.insert (.reserved env command.operation) = .ok t ∧
      db.credentialReservations.insert (PgStore.reservationRow env command env.operationId) =
        .ok u ∧
      (PrepareCall.createCredential command).exec store env db =
        .ok (.execute env.operationId ⟨row.record, env.credentialId⟩,
          { db with receipts := t, credentialReservations := u }) := by
  obtain ⟨hop, hname⟩ := CreateCredentialCommand.validate_eq_ok hv
  have hlookup : db.receipts.lookup command.operation.idempotencyKey = none :=
    Table.lookup_eq_none.mpr fun q hq => (hnew q hq).1
  obtain ⟨t, ht⟩ : ∃ t, db.receipts.insert (.reserved env command.operation) = .ok t := by
    refine Table.insert_ok_iff.mpr ⟨(reserved_check hop env).trans haction, hlookup, ?_⟩
    exact fun q hq => decide_eq_false (hnew q hq).2
  obtain ⟨u, hu⟩ : ∃ u, db.credentialReservations.insert
      (PgStore.reservationRow env command env.operationId) = .ok u := by
    refine Table.insert_ok_iff.mpr ⟨?_, Table.lookup_eq_none.mpr fun q hq => ?_, fun q hq => ?_⟩
    · show (textBetween 1 128 command.name && true && command.permissions.toValue.storable) = true
      rw [hname, BucketPermissions.storable_toValue]
      rfl
    all_goals
      rw [hidle.reservations] at hq
      cases hq
  have hheld : db.OnlyHeld command.operation.serviceInstanceId command.operation.idempotencyKey :=
    fun q hq _ hs => absurd hs (hidle.receipts q hq)
  have hscope : db.scopeExists command.operation.serviceInstanceId
      command.operation.organizationId command.operation.projectId = true :=
    scopeExists_iff.mpr ⟨service, hready.1, hready.2.1.symm, hready.2.2.1.symm⟩
  have hstore : textStorable command.name = true := by
    simp only [textBetween, Bool.and_eq_true] at hname
    exact hname.1.1
  have hreserve : store.newReservation env command row.record db =
      .ok ((env.operationId, ⟨row.record, env.credentialId⟩),
        { db with receipts := t, credentialReservations := u }) := by
    simp only [PgStore.newReservation, Tx.bind_eq_ok, admitReservation_eq_ok,
      rejectParallelOperation_eq_ok, reserveReceipt_eq_ok, insertRow_eq_ok, Tx.pure_eq_ok]
    exact ⟨(), db, ⟨hstore, hadm, rfl⟩, (), db, ⟨hheld, rfl⟩, _, _, ⟨rfl, t, ht, rfl⟩, (), _,
      ⟨u, hu, hscope, rfl⟩, rfl, rfl⟩
  refine ⟨t, u, ht, hu, prepare_eq_ok.mpr ⟨hv, .inr ⟨none, db, (env.operationId,
    ⟨row.record, env.credentialId⟩), .inl ⟨hlookup, rfl, rfl⟩, ?_, rfl⟩⟩⟩
  exact Tx.bind_eq_ok.mpr ⟨row.record, db,
    readyBucketInTransaction_eq_ok.mpr ⟨rfl, service, row, hready, rfl⟩, hreserve⟩

/-- the key ids can be stored and are new, and so is the id the create was given -/
structure NewCredential.Fresh (credential : NewCredential) (db : Database)
    (command : CreateCredentialCommand) (id : Uuid) : Prop where
  id_eq : credential.id = id
  notNil : credential.id.isNil = false
  name : credential.name = command.name
  permissions : credential.permissions = command.permissions
  garageKeyId : textBetween 1 256 credential.garageKeyId = true
  accessKeyId : textBetween 1 256 credential.accessKeyId = true
  new : ∀ d ∈ db.credentials.rows, d.id ≠ credential.id ∧
    d.garageKeyId ≠ credential.garageKeyId ∧ d.accessKeyId ≠ credential.accessKeyId

/-- the row of such a credential can be written -/
theorem NewCredential.Fresh.inserted {credential : NewCredential} {id : Uuid}
    (hfresh : credential.Fresh db command id) (hname : textBetween 1 128 command.name = true)
    (hfree : ∀ d ∈ db.credentials.rows,
      d.serviceInstanceId = command.operation.serviceInstanceId → d.name ≠ command.name) :
    ∃ c, db.credentials.insert (PgStore.createdCredential env command credential) = .ok c := by
  refine Table.insert_ok_iff.mpr ⟨createdCredential_check (hfresh.name ▸ hname)
    hfresh.garageKeyId hfresh.accessKeyId, ?_, fun d hd => ?_⟩
  · exact Table.lookup_eq_none.mpr fun d hd => (hfresh.new d hd).1
  · obtain ⟨-, hg, ha⟩ := hfresh.new d hd
    simp only [credentialSchema, PgStore.createdCredential, Bool.or_eq_false_iff,
      Bool.and_eq_false_iff, decide_eq_false_iff_not]
    refine ⟨⟨hg, ha⟩, Classical.or_iff_not_imp_left.mpr fun hs => ?_⟩
    rw [hfresh.name]
    exact hfree d hd (not_not.mp hs)

/-- a receipt that is reserved and finished leaves the others as they were -/
theorem receipts_settled {operation : OperationRequest} {response : StoredHttpResponse}
    {sealed : Nonce × List UInt8} {t t' : Table receiptSchema} {q : ReceiptRow}
    (hidle : ∀ row ∈ db.receipts.rows, row.state ≠ .inProgress)
    (ht : db.receipts.insert (.reserved env operation) = .ok t)
    (ht' : t.updateWhere (receiptSchema.hasKey operation.idempotencyKey)
      (ReceiptRow.finished env' response sealed) = .ok t') (hq : q ∈ t'.rows) :
    q.state ≠ .inProgress ∧ (q ∈ db.receipts.rows ∨
      q.idempotencyKey = operation.idempotencyKey ∧ q.operationId = env.operationId) := by
  obtain ⟨r, hr, rfl⟩ := (Table.mem_updateWhere ht').mp hq
  have hfresh : db.receipts.lookup operation.idempotencyKey = none := Table.lookup_fresh ht
  unfold Table.touch
  obtain hold | rfl := (Table.mem_insert ht).mp hr
  · rw [if_neg fun hk => Table.lookup_eq_none.mp hfresh r hold (Schema.hasKey_iff.mp hk)]
    exact ⟨hidle r hold, .inl hold⟩
  · have hkey : receiptSchema.hasKey operation.idempotencyKey (.reserved env operation) = true :=
      Schema.hasKey_iff.mpr rfl
    rw [if_pos hkey]
    exact ⟨finished_done _ _ _ _, .inr ⟨rfl, rfl⟩⟩

/-- **an admitted create goes through, from an idle database to an idle database** -/
theorem create_issued {credential : NewCredential} {response : StoredHttpResponse}
    {event : AuditEvent} (hidle : db.Idle) (hv : command.validate = .ok ())
    (haction : textStorable command.operation.action = true)
    (hready : db.Ready command.operation service row) (hadm : db.Admitted store command)
    (hnew : ∀ q ∈ db.receipts.rows,
      q.idempotencyKey ≠ command.operation.idempotencyKey ∧ q.operationId ≠ env.operationId)
    (hfresh : credential.Fresh db command env.credentialId)
    (hrec : ∀ db₁ : Database, db₁.audits = db.audits → FinishCall.Recordable store env' db₁
      ⟨.createCredential command credential, env.operationId, response, event⟩) :
    ∃ tr db', Run (StoreStep store) db tr db' ∧ db'.Idle ∧
      (db'.services = db.services ∧ db'.buckets = db.buckets) ∧
      db.credentials.insert (PgStore.createdCredential env' command credential) =
        .ok db'.credentials ∧
      (∀ q ∈ db'.receipts.rows, q ∈ db.receipts.rows ∨
        q.idempotencyKey = command.operation.idempotencyKey ∧ q.operationId = env.operationId) ∧
      db.audits.insert ⟨env'.auditId, event, env'.now⟩ = .ok db'.audits := by
  let finish : FinishCall :=
    ⟨.createCredential command credential, env.operationId, response, event⟩
  obtain ⟨t, u, ht, hu, hexec⟩ := create_granted hidle hv haction hready hadm hnew
  obtain ⟨-, hname⟩ := CreateCredentialCommand.validate_eq_ok hv
  let db₁ : Database := { db with receipts := t, credentialReservations := u }
  have hheld : db₁.HeldBy command.operation env.operationId := executed_receipt hexec
  obtain ⟨c, hc⟩ : ∃ c, db.credentials.insert
    (PgStore.createdCredential env' command credential) = .ok c := hfresh.inserted hname hadm.1
  -- the reservation is the one just made, and the credential takes its place
  have hbefore : ∃ db₂, PgStore.applyCreateCredential env' command env.operationId credential db₁ =
      .ok ((), db₂) := by
    have hreserved : u.lookup credential.id =
        some (PgStore.reservationRow env command env.operationId) := by
      rw [hfresh.id_eq]
      exact Table.lookup_inserted hu
    refine ⟨_, applyCreateCredential_eq_ok.mpr ⟨?_, _, c, hreserved, ⟨rfl, rfl, rfl⟩, ?_, hc, rfl⟩⟩
    · simp only [textBetween, Bool.and_eq_true] at hname
      exact hname.1.1
    · exact scopeExists_iff.mpr ⟨service, hready.1, hready.2.1.symm, hready.2.2.1.symm⟩
  have hpre : finish.completion.precheck response = true := by
    simp [finish, Completion.precheck, hfresh.notNil, textBetween_nonempty hfresh.garageKeyId,
      textBetween_nonempty hfresh.accessKeyId, hfresh.name, hfresh.permissions]
  obtain ⟨db₂, hfinish⟩ : ∃ db₂, finish.exec store env' db₁ = .ok ((), db₂) :=
    (finish_ok_iff hheld (hrec db₁ rfl) hpre).mpr hbefore
  obtain ⟨-, -, db₃, sealed, t', a, hbefore', -, ht', -, ha, rfl⟩ := finish_eq_ok.mp hfinish
  obtain ⟨-, reservation, c', -, -, -, hc', rfl⟩ := applyCreateCredential_eq_ok.mp hbefore'
  obtain rfl : c = c' := Except.ok.inj (hc.symm.trans hc')
  have hprepared : StoreStep store db
      ⟨env, .prepare (.createCredential command), .ok (.execute env.operationId _)⟩ db₁ :=
    Tx.atomically_ok.mpr hexec
  have hfinished : StoreStep store db₁ ⟨env', .finish finish, .ok ()⟩ _ :=
    Tx.atomically_ok.mpr hfinish
  have hreceipts := fun q => receipts_settled (q := q) hidle.receipts ht ht'
  refine ⟨_, _, .cons hprepared (.single hfinished), ⟨fun q hq => (hreceipts q hq).1, ?_⟩,
    ⟨rfl, rfl⟩, hc, fun q hq => (hreceipts q hq).2, ha⟩
  refine List.eq_nil_iff_forall_not_mem.mpr fun q hq => ?_
  obtain ⟨hq, hkept⟩ := Table.mem_deleteWhere.mp hq
  obtain hold | rfl := (Table.mem_insert hu).mp hq
  · rw [hidle.reservations] at hold
    cases hold
  · rw [Bool.and_eq_false_iff] at hkept
    obtain hkept | hkept := hkept
    · exact Schema.hasKey_eq_false.mp hkept hfresh.id_eq.symm
    · exact of_decide_eq_false hkept rfl

end

/-! ## numbered credentials -/

def Uuid.number (n : Nat) : Uuid := BitVec.ofNat 128 n

theorem Uuid.number_inj {m n : Nat} (hm : m < 2 ^ 96) (hn : n < 2 ^ 96)
    (h : Uuid.number m = Uuid.number n) : m = n := by
  have hval := congrArg BitVec.toNat h
  simp only [Uuid.number, BitVec.toNat_ofNat] at hval
  omega

/-- an id of Garage: `GK` and 24 hexadecimal digits -/
def garageId (n : Nat) : String := String.ofList ('G' :: 'K' :: Uuid.hexDigits 24 n)

theorem garageId_inj {m n : Nat} (hm : m < 2 ^ 96) (hn : n < 2 ^ 96)
    (h : garageId m = garageId n) : m = n := by
  have hdigits := Uuid.hexDigits_inj (List.cons.inj (List.cons.inj (String.ofList_injective h)).2).2
  norm_num at hdigits hm hn
  omega

/-- the texts of numbers consist of ordinary characters -/
theorem mem_garageId {n : Nat} {c : Char} (h : c ∈ (garageId n).toList) :
    c ∈ "GK0123456789abcdef".toList := by
  rw [garageId, String.toList_ofList] at h
  simp only [List.mem_cons] at h
  obtain rfl | rfl | h := h
  · decide
  · decide
  · exact List.mem_cons_of_mem _ (List.mem_cons_of_mem _ (Uuid.mem_hexDigits h))

theorem length_garageId (n : Nat) : (garageId n).length = 26 := by
  rw [garageId, String.length_ofList, List.length_cons, List.length_cons, Uuid.length_hexDigits]

theorem garageId_fits (n : Nat) : textBetween 1 256 (garageId n) = true := by
  have hstore : textStorable (garageId n) = true := by
    rw [textStorable, Bool.not_eq_true', Bool.eq_false_iff, ne_eq, List.contains_iff_mem]
    exact fun h => absurd (mem_garageId h) (by decide)
  simp only [textBetween, hstore, length_garageId]
  rfl

theorem mem_toString {u : Uuid} {c : Char} (h : c ∈ u.toString.toList) :
    c ∈ "-0123456789abcdef".toList := by
  rw [Uuid.toString, String.toList_ofList] at h
  exact Uuid.mem_chars h

/-- a text without whitespace is trimmed -/
theorem trim_of_plain {s : String} (h : ∀ c ∈ s.toList, isWhitespace c = false) : trim s = s := by
  have hdrop : ∀ cs : List Char, (∀ c ∈ cs, isWhitespace c = false) →
      cs.dropWhile isWhitespace = cs := by
    intro cs hcs
    cases cs with
    | nil => rfl
    | cons c cs => exact List.dropWhile_cons_of_neg (by simp [hcs c List.mem_cons_self])
  rw [trim, hdrop _ h, hdrop _ fun c hc => h c (List.mem_reverse.mp hc), List.reverse_reverse,
    String.ofList_toList]

/-- the text of an id is the name of a credential -/
theorem toString_name (u : Uuid) :
    validateHumanName "credential_name" u.toString maxCredentialNameLength = .ok () := by
  have hall : ∀ c ∈ u.toString.toList, c.toNat < 128 ∧ isControl c = false ∧
      isWhitespace c = false := by
    have hcheck : ∀ c ∈ "-0123456789abcdef".toList, c.toNat < 128 ∧ isControl c = false ∧
        isWhitespace c = false := List.all_iff_forall_prop.mp (by decide)
    exact fun c hc => hcheck c (mem_toString hc)
  have hlen : len u.toString = 36 := by
    rw [len_chars fun c hc => (hall c hc).1, Uuid.length_toString]
  have hid : validateIdentifier "credential_name" u.toString maxCredentialNameLength = .ok () := by
    have hempty : u.toString.isEmpty = false := by
      rw [Bool.eq_false_iff, ne_eq, String.isEmpty_iff]
      intro h
      have hzero : u.toString.length = 0 := congrArg String.length h
      rw [Uuid.length_toString] at hzero
      cases hzero
    have hcontrol : u.toString.toList.any isControl = false :=
      List.any_eq_false.mpr fun c hc => by simp [(hall c hc).2.1]
    simp only [validateIdentifier, hempty, hlen, hcontrol, maxCredentialNameLength]
    rfl
  have htrim : trim u.toString = u.toString := trim_of_plain fun c hc => (hall c hc).2.2
  exact except_bind_eq_ok.mpr ⟨(), hid, if_neg fun h => h htrim⟩

/-- the store under the default limits -/
def PgStore.standard : PgStore := { PgStore.reference with credentialLimits := .default }

namespace Stock

/-- the calls about credential `n` are made with the number for every id they draw -/
def env (n : Nat) : CallEnv :=
  { Sample.env 0 0 with operationId := .number n, credentialId := .number n, auditId := .number n }

def command (service : ServiceRow) (n : Nat) : CreateCredentialCommand where
  operation :=
    { idempotencyKey := .number n
      organizationId := service.organizationId
      projectId := service.projectId
      serviceInstanceId := service.id
      principalId := 3
      action := "credential.create"
      generation := none
      requestHash := 0 }
  name := (Uuid.number n).toString
  permissions := ⟨true, false⟩
  credentialLimits := .default

def credential (n : Nat) : NewCredential where
  id := .number n
  garageKeyId := garageId n
  accessKeyId := garageId n
  secretKeyFingerprint := 0
  name := (Uuid.number n).toString
  permissions := ⟨true, false⟩

theorem command_valid (service : ServiceRow) (n : Nat) : (command service n).validate = .ok () := by
  have hspec : (CredentialSpec.mk (Uuid.number n).toString ⟨true, false⟩).validate = .ok () :=
    except_bind_eq_ok.mpr ⟨(), toString_name _, rfl⟩
  have haction : ¬ ("credential.create".isEmpty = true ∨ 128 < len "credential.create") := by
    decide
  exact except_bind_eq_ok.mpr ⟨(), if_neg haction, except_bind_eq_ok.mpr ⟨_, rfl,
    mapError_eq_ok.mpr hspec⟩⟩

/-- the event of the completing call can be recorded -/
theorem audit_fits (service : ServiceRow) (n : Nat) :
    auditSchema.check ⟨.number n, Sample.audit (command service n).operation, 0⟩ = true := by
  have htexts : (textBetween 1 256 "request" && textBetween 1 128 "credential.create" &&
      textBetween 1 64 "bucket") = true := by decide
  simp only [auditSchema, Sample.audit, command, htexts, decide_true]
  rfl

end Stock

/-- the service is ready, with its bucket -/
structure Database.Serves (db : Database) (service : ServiceRow) (row : BucketRow) : Prop where
  found : db.services.lookup service.id = some service
  ready : service.phase = .ready
  observed : service.observedGeneration = service.desiredGeneration
  bucket : db.buckets.lookup service.id = some row
  made : row.physicalBucketId.isSome = true

/-- an idle database in which every id is below `n`; its credentials are numbered and active -/
structure Database.Stocked (db : Database) (n : Nat) : Prop where
  idle : db.Idle
  receipts : ∀ q ∈ db.receipts.rows, q.idempotencyKey.toNat < n ∧ q.operationId.toNat < n
  credentials : ∀ d ∈ db.credentials.rows, d.status = .active ∧ ∃ m < n, d.id = .number m ∧
    d.garageKeyId = garageId m ∧ d.accessKeyId = garageId m ∧ d.name = (Uuid.number m).toString
  audits : ∀ a ∈ db.audits.rows, a.id.toNat < n

section
variable {db : Database} {n : Nat} {service : ServiceRow} {row : BucketRow}

theorem Uuid.ne_number {u : Uuid} (hu : u.toNat < n) (hn : n < 2 ^ 96) : u ≠ .number n := by
  rintro rfl
  rw [Uuid.number, BitVec.toNat_ofNat] at hu
  omega

/-- the next credential is new -/
theorem Database.Stocked.fresh (h : db.Stocked n) (hpos : 0 < n) (hn : n < 2 ^ 96) :
    (Stock.credential n).Fresh db (Stock.command service n) (.number n) where
  id_eq := rfl
  notNil := by
    refine decide_eq_false fun hzero => ?_
    have hval := Uuid.number_inj hn (by norm_num : 0 < 2 ^ 96) hzero
    omega
  name := rfl
  permissions := rfl
  garageKeyId := garageId_fits n
  accessKeyId := garageId_fits n
  new := by
    intro d hd
    obtain ⟨-, m, hm, hid, hgarage, haccess, -⟩ := h.credentials d hd
    have hlt : m < 2 ^ 96 := by omega
    rw [hid, hgarage, haccess]
    exact ⟨fun he => by have := Uuid.number_inj hlt hn he; omega,
      fun he => by have := garageId_inj hlt hn he; omega,
      fun he => by have := garageId_inj hlt hn he; omega⟩

theorem Database.Serves.ready_for (hs : db.Serves service row) (n : Nat) :
    db.Ready (Stock.command service n).operation service row :=
  ⟨hs.found, rfl, rfl, hs.ready, hs.observed, hs.bucket, hs.made⟩

theorem Database.Stocked.admitted (h : db.Stocked n) (hn : n < 2 ^ 96)
    (hbucket : db.perBucket service.id < 10000)
    (horganization : db.perOrganization service.organizationId < 1000000) :
    db.Admitted PgStore.standard (Stock.command service n) := by
  refine ⟨fun d hd _ hname => ?_, fun c hc => ?_, hbucket, horganization⟩
  · obtain ⟨-, m, hm, -, -, -, hd⟩ := h.credentials d hd
    have hsame := Uuid.toString_injective (hd.symm.trans hname)
    have hval := Uuid.number_inj (by omega) hn hsame
    omega
  · rw [h.idle.reservations] at hc
    cases hc

theorem Database.Stocked.unused (h : db.Stocked n) (hn : n < 2 ^ 96) :
    ∀ q ∈ db.receipts.rows,
      q.idempotencyKey ≠ (Stock.command service n).operation.idempotencyKey ∧
        q.operationId ≠ (Stock.env n).operationId := fun q hq =>
  ⟨Uuid.ne_number (h.receipts q hq).1 hn, Uuid.ne_number (h.receipts q hq).2 hn⟩

/-- a create of a ready service within the limits is to be executed -/
theorem Database.Stocked.granted (h : db.Stocked n) (hn : n < 2 ^ 96) (hs : db.Serves service row)
    (hbucket : db.perBucket service.id < 10000)
    (horganization : db.perOrganization service.organizationId < 1000000) :
    ∃ context db', StoreStep PgStore.standard db ⟨Stock.env n,
      .prepare (.createCredential (Stock.command service n)),
      .ok (.execute (.number n) context)⟩ db' := by
  obtain ⟨t, u, -, -, hexec⟩ := create_granted h.idle
    (Stock.command_valid service n) (show textStorable "credential.create" = true by decide)
    (hs.ready_for n) (h.admitted hn hbucket horganization) (h.unused hn)
  exact ⟨_, _, Tx.atomically_ok.mpr hexec⟩

/-- **one more credential** -/
theorem stock_one (h : db.Stocked n) (hpos : 0 < n) (hn : n < 2 ^ 96) (hs : db.Serves service row)
    (hbucket : db.perBucket service.id < 10000)
    (horganization : db.perOrganization service.organizationId < 1000000) :
    ∃ tr db', Run (StoreStep PgStore.standard) db tr db' ∧ db'.Stocked (n + 1) ∧
      (db'.services = db.services ∧ db'.buckets = db.buckets) ∧
      db.credentials.insert (PgStore.createdCredential (Stock.env n) (Stock.command service n)
        (Stock.credential n)) = .ok db'.credentials := by
  have hrec : ∀ db₁ : Database, db₁.audits = db.audits →
      FinishCall.Recordable PgStore.standard (Stock.env n) db₁
        ⟨.createCredential (Stock.command service n) (Stock.credential n), .number n,
          ⟨201, .object [], false⟩, Sample.audit (Stock.command service n).operation⟩ := by
    intro db₁ hsame
    refine ⟨⟨_, rfl⟩, ?_, ?_, ?_, ?_⟩
    · show 100 ≤ (201 : UInt16) ∧ (201 : UInt16) ≤ 599
      decide
    · rfl
    · exact Stock.audit_fits service n
    · rw [hsame]
      exact Table.lookup_eq_none.mpr fun a ha => Uuid.ne_number (h.audits a ha) hn
  obtain ⟨tr, db', hrun, hidle, hsame, hinsert, hreceipts, haudits⟩ :=
    create_issued h.idle (Stock.command_valid service n)
      (show textStorable "credential.create" = true by decide) (hs.ready_for n)
      (h.admitted hn hbucket horganization) (h.unused hn) (h.fresh hpos hn) hrec
  have hval : (Uuid.number n).toNat = n := by
    rw [Uuid.number, BitVec.toNat_ofNat]
    exact Nat.mod_eq_of_lt (hn.trans (by norm_num))
  refine ⟨tr, db', hrun, ⟨hidle, fun q hq => ?_, fun d hd => ?_, fun a ha => ?_⟩, hsame, hinsert⟩
  · obtain hold | ⟨hkey, hop⟩ := hreceipts q hq
    · have := h.receipts q hold
      omega
    · rw [hkey, hop]
      show (Uuid.number n).toNat < n + 1 ∧ (Uuid.number n).toNat < n + 1
      omega
  · obtain hold | rfl := (Table.mem_insert hinsert).mp hd
    · obtain ⟨hactive, m, hm, hrest⟩ := h.credentials d hold
      exact ⟨hactive, m, by omega, hrest⟩
    · exact ⟨rfl, n, Nat.lt_succ_self n, rfl, rfl, rfl, rfl⟩
  · obtain hold | rfl := (Table.mem_insert haudits).mp ha
    · have := h.audits a hold
      omega
    · show (Uuid.number n).toNat < n + 1
      omega

/-- what is kept while credentials are added: services and buckets, and the counts of services
other than the one that gets them -/
structure Database.Grown (db db' : Database) (service : ServiceRow) (k : Nat) : Prop where
  services : db'.services = db.services
  buckets : db'.buckets = db.buckets
  perBucket : db'.perBucket service.id = db.perBucket service.id + k
  elsewhere : ∀ s, s ≠ service.id → db'.perBucket s = db.perBucket s
  perOrganization :
    db'.perOrganization service.organizationId = db.perOrganization service.organizationId + k
  length : db'.credentials.rows.length = db.credentials.rows.length + k

/-- **any number of credentials, up to the limits** -/
theorem stock_many (k : Nat) (h : db.Stocked n) (hpos : 0 < n) (hn : n + k ≤ 2 ^ 96)
    (hs : db.Serves service row) (hbucket : db.perBucket service.id + k ≤ 10000)
    (horganization : db.perOrganization service.organizationId + k ≤ 1000000) :
    ∃ tr db', Run (StoreStep PgStore.standard) db tr db' ∧ db'.Stocked (n + k) ∧
      db.Grown db' service k := by
  induction k with
  | zero => exact ⟨[], db, .nil db, h, rfl, rfl, rfl, fun _ _ => rfl, rfl, rfl⟩
  | succ k ih =>
    obtain ⟨tr, db₁, hrun, h₁, hgrown⟩ := ih (by omega) (by omega) (by omega)
    have hs₁ : db₁.Serves service row :=
      ⟨hgrown.services ▸ hs.found, hs.ready, hs.observed, hgrown.buckets ▸ hs.bucket, hs.made⟩
    obtain ⟨tr', db', hrun', h', ⟨hservices, hbuckets⟩, hinsert⟩ :=
      stock_one h₁ (by omega) (by omega) hs₁ (by rw [hgrown.perBucket]; omega)
        (by rw [hgrown.perOrganization]; omega)
    -- neither database has reservations, so only the new row counts
    have hcount : ∀ P, db'.occupied P = db₁.occupied P +
        if P service.id service.organizationId then 1 else 0 := by
      intro P
      simp only [Database.occupied, Table.count, h'.idle.reservations, h₁.idle.reservations,
        List.countP_nil, Nat.add_zero]
      refine (Table.count_insert hinsert _).trans (congrArg _ ?_)
      simp [PgStore.createdCredential, Stock.command]
    refine ⟨tr ++ tr', db', hrun.append hrun', h', hservices.trans hgrown.services,
      hbuckets.trans hgrown.buckets, ?_, fun s hne => ?_, ?_, ?_⟩
    · rw [perBucket_eq, hcount, ← perBucket_eq, hgrown.perBucket]
      simp
      omega
    · rw [perBucket_eq, hcount, ← perBucket_eq, hgrown.elsewhere s hne]
      simp [Ne.symm hne]
    · rw [perOrganization_eq, hcount, ← perOrganization_eq, hgrown.perOrganization]
      simp
      omega
    · rw [(Table.insert_eq_ok.mp hinsert).2.2, List.length_append, hgrown.length]
      rfl

/-- **services filled up one after the other**, with `c` credentials each -/
theorem stock_services {o : Uuid} {c : Nat} (hc : c ≤ 10000)
    (services : List (ServiceRow × BucketRow)) (h : db.Stocked n) (hpos : 0 < n)
    (hn : n + c * services.length ≤ 2 ^ 96)
    (hs : ∀ s ∈ services, db.Serves s.1 s.2 ∧ s.1.organizationId = o ∧ db.perBucket s.1.id = 0)
    (hdistinct : (services.map fun s => s.1.id).Nodup)
    (horganization : db.perOrganization o + c * services.length ≤ 1000000) :
    ∃ tr db', Run (StoreStep PgStore.standard) db tr db' ∧
      db'.Stocked (n + c * services.length) ∧
      (db'.services = db.services ∧ db'.buckets = db.buckets) ∧
      (∀ s, s ∉ services.map (fun s => s.1.id) → db'.perBucket s = db.perBucket s) ∧
      db'.perOrganization o = db.perOrganization o + c * services.length ∧
      db'.credentials.rows.length = db.credentials.rows.length + c * services.length := by
  induction services generalizing db n with
  | nil => exact ⟨[], db, .nil db, h, ⟨rfl, rfl⟩, fun _ _ => rfl, rfl, rfl⟩
  | cons s services ih =>
    rw [List.length_cons, Nat.mul_succ] at hn horganization ⊢
    obtain ⟨hserves, rfl, hempty⟩ := hs s List.mem_cons_self
    obtain ⟨hnot, hdistinct⟩ := List.nodup_cons.mp hdistinct
    obtain ⟨tr, db₁, hrun, h₁, hgrown⟩ :=
      stock_many c h hpos (by omega) hserves (by omega) (by omega)
    have hrest : ∀ q ∈ services, db₁.Serves q.1 q.2 ∧ q.1.organizationId = s.1.organizationId ∧
        db₁.perBucket q.1.id = 0 := by
      intro q hq
      obtain ⟨hq₁, hq₂, hq₃⟩ := hs q (List.mem_cons_of_mem _ hq)
      have hne : q.1.id ≠ s.1.id := fun he => hnot (List.mem_map.mpr ⟨q, hq, he⟩)
      exact ⟨⟨hgrown.services ▸ hq₁.found, hq₁.ready, hq₁.observed, hgrown.buckets ▸ hq₁.bucket,
        hq₁.made⟩, hq₂, (hgrown.elsewhere _ hne).trans hq₃⟩
    have horg₁ := hgrown.perOrganization
    obtain ⟨tr', db', hrun', h', hsame, helse, horg, hlength⟩ :=
      ih h₁ (by omega) (by omega) hrest hdistinct (by omega)
    refine ⟨tr ++ tr', db', hrun.append hrun', ?_, ⟨hsame.1.trans hgrown.services,
      hsame.2.trans hgrown.buckets⟩, fun q hq => ?_, ?_, ?_⟩
    · rw [show n + (c * services.length + c) = n + c + c * services.length by omega]
      exact h'
    · rw [List.map_cons, List.mem_cons, not_or] at hq
      exact (helse q hq.2).trans (hgrown.elsewhere q hq.1)
    · omega
    · rw [hlength, hgrown.length]
      omega

end

end Syouyu
