import Syouyu.Store.Run

/-!
# A reference store

The cipher and the JSON codec are parameters of the store, known by one law each.  Here is a store
that meets both laws and can be run.

* `Code.readValue_value`   a self-delimiting code of JSON values and its reader;
* `PgStore.reference`      the store with that code and the identity cipher;
* `PgStore.play`           a script of calls, made one after the other; `play_run`;
* `Sample`                 requests of one project to write scripts with.
-/

namespace Syouyu
open Lib

namespace Code

/-! ## numbers and texts -/

/-- the `w` low bytes of `n`, the lowest first -/
def bytes : Nat → Nat → List UInt8
  | 0, _ => []
  | w + 1, n => UInt8.ofNat (n % 256) :: bytes w (n / 256)

/-- the number of the first `w` bytes, and the rest -/
def readBytes : Nat → List UInt8 → Option (Nat × List UInt8)
  | 0, rest => some (0, rest)
  | _ + 1, [] => none
  | w + 1, b :: rest => (readBytes w rest).map fun p => (b.toNat + 256 * p.1, p.2)

theorem readBytes_bytes (w n : Nat) (h : n < 256 ^ w) (rest : List UInt8) :
    readBytes w (bytes w n ++ rest) = some (n, rest) := by
  induction w generalizing n with
  | zero =>
    obtain rfl : n = 0 := by omega
    rfl
  | succ w ih =>
    have hdiv : n / 256 < 256 ^ w := by
      rw [pow_succ] at h
      omega
    show (readBytes w (bytes w (n / 256) ++ rest)).map _ = _
    rw [ih _ hdiv]
    simp only [Option.map_some, Option.some.injEq, Prod.mk.injEq, and_true, UInt8.toNat_ofNat']
    omega

def chars : List Char → List UInt8
  | [] => [0]
  | c :: cs => 1 :: (bytes 4 c.toNat ++ chars cs)

def readChars : Nat → List UInt8 → Option (List Char × List UInt8)
  | 0, _ => none
  | _ + 1, 0 :: rest => some ([], rest)
  | fuel + 1, 1 :: rest => do
    let (n, rest) ← readBytes 4 rest
    let (cs, rest) ← readChars fuel rest
    some (Char.ofNat n :: cs, rest)
  | _ + 1, _ => none

theorem readChars_chars (cs : List Char) (fuel : Nat) (h : (chars cs).length ≤ fuel)
    (rest : List UInt8) : readChars fuel (chars cs ++ rest) = some (cs, rest) := by
  induction cs generalizing fuel with
  | nil =>
    cases fuel with
    | zero => simp [chars] at h
    | succ fuel => rfl
  | cons c cs ih =>
    cases fuel with
    | zero => simp [chars] at h
    | succ fuel =>
      have hc : c.toNat < 256 ^ 4 := lt_of_lt_of_le c.val.toNat_lt (by norm_num)
      have hlen : (chars cs).length ≤ fuel := by
        simp only [chars, List.length_cons, List.length_append] at h
        omega
      simp only [chars, List.cons_append, List.append_assoc, readChars, readBytes_bytes 4 _ hc,
        ih fuel hlen, Option.bind_eq_bind, Option.bind_some, Char.ofNat_toNat]

/-! ## values -/

def number : Number → List UInt8
  | .posInt n => 0 :: bytes 8 n.toNat
  | .negInt n => 1 :: bytes 8 n.toUInt64.toNat
  | .float bits => 2 :: bytes 8 bits.toNat

def readNumber : List UInt8 → Option (Number × List UInt8)
  | [] => none
  | tag :: rest => do
    let (n, rest) ← readBytes 8 rest
    match tag with
    | 0 => some (.posInt (UInt64.ofNat n), rest)
    | 1 => some (.negInt (UInt64.ofNat n).toInt64, rest)
    | 2 => some (.float (UInt64.ofNat n), rest)
    | _ => none

theorem readNumber_number (n : Number) (rest : List UInt8) :
    readNumber (number n ++ rest) = some (n, rest) := by
  have hread : ∀ u : UInt64, readBytes 8 (bytes 8 u.toNat ++ rest) = some (u.toNat, rest) :=
    fun u => readBytes_bytes 8 _ (lt_of_lt_of_le u.toNat_lt (by norm_num)) rest
  cases n with
  | posInt n => simp only [number, List.cons_append, readNumber, hread, Option.bind_eq_bind,
      Option.bind_some, UInt64.ofNat_toNat]
  | negInt n => simp only [number, List.cons_append, readNumber, hread, Option.bind_eq_bind,
      Option.bind_some, UInt64.ofNat_toNat, Int64.toInt64_toUInt64]
  | float bits => simp only [number, List.cons_append, readNumber, hread, Option.bind_eq_bind,
      Option.bind_some, UInt64.ofNat_toNat]

mutual
def value : Value → List UInt8
  | .null => [0]
  | .bool b => [1, if b then 1 else 0]
  | .number n => 2 :: number n
  | .string s => 3 :: chars s.toList
  | .array vs => 4 :: items vs
  | .object fs => 5 :: fields fs
def items : List Value → List UInt8
  | [] => [0]
  | v :: vs => 1 :: (value v ++ items vs)
def fields : List (String × Value) → List UInt8
  | [] => [0]
  | f :: fs => 1 :: (field f ++ fields fs)
def field : String × Value → List UInt8
  | (k, v) => chars k.toList ++ value v
end

mutual
/-- one value from the front of the input; `fuel` bounds the depth of the calls -/
def readValue : Nat → List UInt8 → Option (Value × List UInt8)
  | 0, _ => none
  | _ + 1, 0 :: rest => some (.null, rest)
  | _ + 1, 1 :: b :: rest => some (.bool (b == 1), rest)
  | _ + 1, 2 :: rest => (readNumber rest).map fun p => (.number p.1, p.2)
  | fuel + 1, 3 :: rest => (readChars fuel rest).map fun p => (.string (String.ofList p.1), p.2)
  | fuel + 1, 4 :: rest => (readItems fuel rest).map fun p => (.array p.1, p.2)
  | fuel + 1, 5 :: rest => (readFields fuel rest).map fun p => (.object p.1, p.2)
  | _ + 1, _ => none
def readItems : Nat → List UInt8 → Option (List Value × List UInt8)
  | 0, _ => none
  | _ + 1, 0 :: rest => some ([], rest)
  | fuel + 1, 1 :: rest => do
    let (v, rest) ← readValue fuel rest
    let (vs, rest) ← readItems fuel rest
    some (v :: vs, rest)
  | _ + 1, _ => none
def readFields : Nat → List UInt8 → Option (List (String × Value) × List UInt8)
  | 0, _ => none
  | _ + 1, 0 :: rest => some ([], rest)
  | fuel + 1, 1 :: rest => do
    let (k, rest) ← readChars fuel rest
    let (v, rest) ← readValue fuel rest
    let (fs, rest) ← readFields fuel rest
    some ((String.ofList k, v) :: fs, rest)
  | _ + 1, _ => none
end

mutual
theorem readValue_value : ∀ (v : Value) (fuel : Nat) (rest : List UInt8),
    (value v).length ≤ fuel → readValue fuel (value v ++ rest) = some (v, rest)
  | v, 0, _, h => by cases v <;> simp [value] at h
  | .null, fuel + 1, rest, _ => rfl
  | .bool b, fuel + 1, rest, _ => by cases b <;> rfl
  | .number n, fuel + 1, rest, _ => by
    simp only [value, List.cons_append, readValue, readNumber_number, Option.map_some]
  | .string s, fuel + 1, rest, h => by
    simp only [value, List.length_cons, Nat.add_le_add_iff_right] at h
    simp only [value, List.cons_append, readValue, readChars_chars _ _ h, Option.map_some,
      String.ofList_toList]
  | .array vs, fuel + 1, rest, h => by
    simp only [value, List.length_cons, Nat.add_le_add_iff_right] at h
    simp only [value, List.cons_append, readValue, readItems_items vs fuel rest h, Option.map_some]
  | .object fs, fuel + 1, rest, h => by
    simp only [value, List.length_cons, Nat.add_le_add_iff_right] at h
    simp only [value, List.cons_append, readValue, readFields_fields fs fuel rest h,
      Option.map_some]
theorem readItems_items : ∀ (vs : List Value) (fuel : Nat) (rest : List UInt8),
    (items vs).length ≤ fuel → readItems fuel (items vs ++ rest) = some (vs, rest)
  | vs, 0, _, h => by cases vs <;> simp [items] at h
  | [], fuel + 1, rest, _ => rfl
  | v :: vs, fuel + 1, rest, h => by
    simp only [items, List.length_cons, List.length_append] at h
    simp only [items, List.cons_append, List.append_assoc, readItems,
      readValue_value v fuel _ (by omega), readItems_items vs fuel rest (by omega),
      Option.bind_eq_bind, Option.bind_some]
theorem readFields_fields : ∀ (fs : List (String × Value)) (fuel : Nat) (rest : List UInt8),
    (fields fs).length ≤ fuel → readFields fuel (fields fs ++ rest) = some (fs, rest)
  | fs, 0, _, h => by cases fs <;> simp [fields] at h
  | [], fuel + 1, rest, _ => rfl
  | (k, v) :: fs, fuel + 1, rest, h => by
    simp only [fields, field, List.length_cons, List.length_append] at h
    simp only [fields, field, List.cons_append, List.append_assoc, readFields,
      readChars_chars k.toList fuel (by omega), readValue_value v fuel _ (by omega),
      readFields_fields fs fuel rest (by omega), Option.bind_eq_bind, Option.bind_some,
      String.ofList_toList]
end

end Code

/-! ## the store -/

def JsonCodec.reference : JsonCodec where
  toVec := Code.value
  fromSlice := fun bytes => (Code.readValue bytes.length bytes).map Prod.fst
  fromSlice_toVec := by
    intro v
    have h := Code.readValue_value v (Code.value v).length [] (le_refl _)
    rw [List.append_nil] at h
    rw [h]
    rfl

/-- the cipher that changes nothing -/
def ReceiptCipher.plain : ReceiptCipher where
  aeadSeal := fun _ msg _ => some msg
  aeadOpen := fun _ msg _ => some msg
  aeadOpen_aeadSeal := fun h => congrArg some (Option.some.inj h).symm

def PgStore.reference : PgStore where
  receiptCipher := .plain
  json := .reference
  credentialLimits := ⟨2, 3⟩

/-! ## scripts -/

/-- the calls of a script, made one after the other -/
def PgStore.play (store : PgStore) : List (CallEnv × StoreCall) → Database →
    List CallRecord × Database
  | [], db => ([], db)
  | (env, call) :: script, db =>
    let after := call.run store env db
    let rest := store.play script after.2
    (⟨env, call, after.1⟩ :: rest.1, rest.2)

/-- **a script is a run** -/
theorem play_run (store : PgStore) (script : List (CallEnv × StoreCall)) (db : Database) :
    Run (StoreStep store) db (store.play script db).1 (store.play script db).2 := by
  induction script generalizing db with
  | nil => exact .nil _
  | cons c script ih => exact .cons rfl (ih _)

/-! ## requests to write scripts with -/

namespace Sample

/-- a call made `at_` seconds in; `n` tells its fresh ids from those of other calls -/
def env (at_ n : Nat) : CallEnv where
  now := seconds at_
  clock := seconds at_
  operationId := BitVec.ofNat 128 (1000 + n)
  credentialId := BitVec.ofNat 128 (2000 + n)
  auditId := BitVec.ofNat 128 (3000 + n)
  nonce := some ⟨List.replicate 12 0, rfl⟩

def operation (key service : Uuid) (action : String) (generation : Option Int64) :
    OperationRequest where
  idempotencyKey := key
  organizationId := 1
  projectId := 2
  serviceInstanceId := service
  principalId := 3
  action := action
  generation := generation
  requestHash := 0

def reconcile (key service : Uuid) (name bucketName : String) (generation : Int64) :
    ReconcileCommand where
  operation := operation key service "service-instance.reconcile" (some generation)
  name := name
  generation := generation
  spec := ⟨"eu-1", bucketName, 1000, 10⟩

def delete (key service : Uuid) (generation : Int64) : DeleteCommand where
  operation := operation key service "service-instance.delete" (some generation)
  generation := generation

def create (key service : Uuid) (name : String) : CreateCredentialCommand where
  operation := operation key service "credential.create" none
  name := name
  permissions := ⟨true, false⟩
  credentialLimits := ⟨1, 2⟩

def revoke (key service credentialId : Uuid) : RevokeCredentialCommand where
  operation := operation key service "credential.revoke" none
  credentialId := credentialId

def audit (operation : OperationRequest) : AuditEvent where
  organizationId := operation.organizationId
  projectId := operation.projectId
  serviceInstanceId := operation.serviceInstanceId
  principalId := operation.principalId
  principalContextId := none
  requestId := "request"
  action := operation.action
  resourceType := "bucket"
  resourceId := none
  outcome := "allowed"
  details := .object []

/-- a completing call with the answer `200` and an empty body -/
def finish (completion : Completion) (operationId : Uuid) : StoreCall :=
  .finish ⟨completion, operationId, ⟨200, .object [], false⟩, audit completion.operation⟩

/-- service 10 with the bucket `bucket-a` -/
def serviceA : List (CallEnv × StoreCall) :=
  [(env 0 0, .prepare (.reconcile (reconcile 100 10 "a" "bucket-a" 1))),
   (env 1 1, finish (.reconcile (reconcile 100 10 "a" "bucket-a" 1) "garage-a") 1000)]

/-- then a credential is asked for -/
def creating : List (CallEnv × StoreCall) :=
  serviceA ++ [(env 2 2, .prepare (.createCredential (create 101 10 "key")))]

/-- and again, when the lease of the first attempt has run out -/
def retrying : List (CallEnv × StoreCall) :=
  [(env 200 3, .prepare (.createCredential (create 101 10 "key")))]

/-- service 10 from its first reconcile to its deletion -/
def lifetime : List (CallEnv × StoreCall) :=
  serviceA ++
  [(env 2 2, .prepare (.delete (delete 101 10 2))),
   (env 3 3, finish (.delete (delete 101 10 2)) 1002)]

/-- service 11 is prepared and completed under the given names -/
def serviceB (name bucketName : String) : List (CallEnv × StoreCall) :=
  [(env 4 4, .prepare (.reconcile (reconcile 102 11 name bucketName 1))),
   (env 5 5, finish (.reconcile (reconcile 102 11 name bucketName 1) "garage-b") 1004)]

/-- the prepare calls of a script, by their operation -/
def callOf (script : List (CallEnv × StoreCall)) (operation : OperationRequest) : PrepareCall :=
  let prepared := script.filterMap fun c => match c.2 with
    | .prepare call => some call
    | _ => none
  (prepared.find? fun call => decide (call.operation = operation)).getD (.delete ⟨operation, 0⟩)

end Sample

end Syouyu
