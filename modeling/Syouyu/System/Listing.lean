import Syouyu.Store.Stock
import Syouyu.Garage.Body
import Syouyu.Api.Handlers
import Syouyu.Json

/-!
# The listing of all keys

A create begins with a listing of every key of Garage, whose body the client reads up to a limit of
its own.  The store's limits say how many credentials there may be, the handler how long the names
of their keys are.

* `ListingFormat`          how Garage writes a listing; `ListingFormat.compact` is one way;
* `Admissible`             the keys of credentials that the default limits admit;
* `listing_read_iff`       **the listing is read iff its keys are few enough**;
* `listing_refused`        the limits admit more than that, and then no credential can be created.
-/

set_option linter.unusedSectionVars false

namespace Syouyu
open Lib Lib.Prog

/-! ## listings -/

/-- an entry of Garage's answer: the fields of `AccessKeySummary` -/
structure KeyEntry where
  id : String
  name : String
  expired : Bool
  created : Option String
  expiration : Option String
  deriving DecidableEq, Repr

namespace KeyEntry

def toValue (k : KeyEntry) : Value :=
  .object [("id", .string k.id), ("name", .string k.name), ("expired", .bool k.expired),
    ("created", optionToValue k.created), ("expiration", optionToValue k.expiration)]

/-- the bytes of a date, or of `null` -/
def dateWidth : Option String → Nat
  | some date => (Json.string date).length
  | none => 4

/-- the bytes of the values of an entry, without its name -/
def width (k : KeyEntry) : Nat :=
  (Json.string k.id).length + (if k.expired then 4 else 5) + dateWidth k.created +
    dateWidth k.expiration

end KeyEntry

/-- How Garage writes a listing: in any layout in which the number of entries determines the bytes
that are not those of the values. -/
structure ListingFormat where
  write : List KeyEntry → List UInt8
  frame : Nat → Nat
  length_write : ∀ entries, (write entries).length = frame entries.length +
    (entries.map fun k => (Json.string k.name).length + k.width).sum

section
variable (ryu : UInt64 → List UInt8)

theorem length_optionToValue (date : Option String) :
    (Json.write ryu (optionToValue date)).length = KeyEntry.dateWidth date := by
  cases date with
  | none => rfl
  | some date => simp only [optionToValue, Json.write, KeyEntry.dateWidth]

theorem length_entry (k : KeyEntry) :
    (Json.write ryu k.toValue).length = 51 + ((Json.string k.name).length + k.width) := by
  have hbool : (Json.write ryu (.bool k.expired)).length = if k.expired then 4 else 5 := by
    cases k.expired <;> simp only [Json.write] <;> rfl
  have hid : (Json.string "id").length = 4 := by decide
  have hname : (Json.string "name").length = 6 := by decide
  have hexpired : (Json.string "expired").length = 9 := by decide
  have hcreated : (Json.string "created").length = 9 := by decide
  have hexpiration : (Json.string "expiration").length = 12 := by decide
  have htext : ∀ s, Json.write ryu (.string s) = Json.string s := fun s => by rw [Json.write]
  have hobject : ∀ fs, Json.write ryu (.object fs) = 123 :: Json.fields ryu fs :=
    fun fs => by rw [Json.write]
  simp only [KeyEntry.toValue, hobject, Json.fields, Json.moreFields, Json.field, htext,
    List.length_cons, List.length_append, List.length_nil, hbool, length_optionToValue, hid,
    hname, hexpired, hcreated, hexpiration, KeyEntry.width]
  omega

theorem length_moreItems (entries : List KeyEntry) :
    (Json.moreItems ryu (entries.map KeyEntry.toValue)).length = 1 + 52 * entries.length +
      (entries.map fun k => (Json.string k.name).length + k.width).sum := by
  induction entries with
  | nil => rfl
  | cons k entries ih =>
    rw [List.map_cons, Json.moreItems, List.length_cons, List.length_append, ih, length_entry,
      List.map_cons, List.sum_cons, List.length_cons]
    omega

theorem length_entries (entries : List KeyEntry) :
    (Json.write ryu (.array (entries.map KeyEntry.toValue))).length =
      (if entries.length = 0 then 2 else 1 + 52 * entries.length) +
        (entries.map fun k => (Json.string k.name).length + k.width).sum := by
  rw [Json.write]
  cases entries with
  | nil => rfl
  | cons k entries =>
    rw [List.map_cons, Json.items, List.length_cons, List.length_append, length_entry,
      length_moreItems, List.map_cons, List.sum_cons, List.length_cons, if_neg (Nat.succ_ne_zero _)]
    omega

/-- the JSON of `serde_json` without whitespace -/
def ListingFormat.compact : ListingFormat where
  write entries := Json.write ryu (.array (entries.map KeyEntry.toValue))
  frame n := if n = 0 then 2 else 1 + 52 * n
  length_write := length_entries ryu

end

/-! ## names -/

/-- a text of ordinary ASCII characters stands for itself between quotes -/
theorem length_string {s : String} (h : ∀ c ∈ s.toList, c.toNat < 128 ∧
    Json.escapeByte (UInt8.ofNat c.toNat) = [UInt8.ofNat c.toNat]) :
    (Json.string s).length = 2 + s.length := by
  have hclosed : ∀ cs : List Char, (∀ c ∈ cs, Json.escapeByte (UInt8.ofNat c.toNat) =
      [UInt8.ofNat c.toNat]) → (Encoding.closed Json.escapeByte 34
        (cs.map fun c => UInt8.ofNat c.toNat)).length = 1 + cs.length := by
    intro cs hcs
    induction cs with
    | nil => rfl
    | cons c cs ih =>
      rw [List.map_cons, Encoding.closed, hcs c List.mem_cons_self, List.length_append,
        ih fun d hd => hcs d (List.mem_cons_of_mem _ hd), List.length_singleton,
        List.length_cons]
      omega
  rw [Json.string, asBytes_chars fun c hc => (h c hc).1, List.length_cons,
    hclosed _ fun c hc => (h c hc).2, String.length_toList]
  omega

/-- **the name of a key takes 82 bytes** -/
theorem length_deterministicName (service credential : Uuid) :
    (Json.string (deterministicName service credential)).length = 82 := by
  have hcheck : ∀ c ∈ "syouyu-0123456789abcdef".toList, c.toNat < 128 ∧
      Json.escapeByte (UInt8.ofNat c.toNat) = [UInt8.ofNat c.toNat] :=
    List.all_iff_forall_prop.mp (by decide)
  have hid : ∀ {u : Uuid} {c : Char}, c ∈ u.toString.toList →
      c ∈ "syouyu-0123456789abcdef".toList := fun hc =>
    List.mem_append_right "syouyu".toList (mem_toString hc)
  have hlength : (deterministicName service credential).length = 80 := by
    simp only [deterministicName, String.length_append, Uuid.length_toString]
    rfl
  rw [length_string, hlength]
  intro c hc
  refine hcheck c ?_
  simp only [deterministicName, String.toList_append, List.mem_append] at hc
  obtain ((hc | hc) | hc) | hc := hc
  · exact List.mem_append_left "0123456789abcdef".toList hc
  · exact hid hc
  · exact List.mem_singleton.mp hc ▸ by decide
  · exact hid hc

/-! ## the keys of credentials -/

/-- the active credentials and the creations under way, by service and credential id -/
def Database.slots (db : Database) : List (Uuid × Uuid) :=
  (db.credentials.select fun c => decide (c.status = .active)).map
      (fun c => (c.serviceInstanceId, c.id)) ++
    db.credentialReservations.rows.map fun c => (c.serviceInstanceId, c.credentialId)

/-- Keys that the default limits admit: each belongs to an active credential or a creation under
way in a database that replicas with these limits reach, no two to the same one, and is named as the
create handler names it. -/
def Admissible (entries : List KeyEntry) : Prop :=
  ∃ tr db slots, Run (ReplicaStep .default) Database.empty tr db ∧
    List.Subperm slots db.slots ∧
    entries.map KeyEntry.name = slots.map fun s => deterministicName s.1 s.2

/-- the names of such keys all take the same number of bytes -/
theorem Admissible.length_name {entries : List KeyEntry} (h : Admissible entries) :
    ∀ k ∈ entries, (Json.string k.name).length = 82 := by
  obtain ⟨tr, db, slots, -, -, hnames⟩ := h
  intro k hk
  have hmem : k.name ∈ slots.map fun s => deterministicName s.1 s.2 :=
    hnames ▸ List.mem_map_of_mem hk
  obtain ⟨s, -, hs⟩ := List.mem_map.mp hmem
  rw [← hs]
  exact length_deterministicName s.1 s.2

theorem sum_map_const {α : Type} {f : α → Nat} {c : Nat} {as : List α} (h : ∀ a ∈ as, f a = c) :
    (as.map f).sum = c * as.length := by
  rw [List.map_congr_left h, List.map_const', List.sum_replicate, smul_eq_mul, Nat.mul_comm]

/-- the size of a listing of such keys -/
theorem Admissible.length_write {entries : List KeyEntry} (h : Admissible entries)
    (format : ListingFormat) :
    (format.write entries).length = format.frame entries.length + 82 * entries.length +
      (entries.map KeyEntry.width).sum := by
  rw [format.length_write, List.sum_map_add, sum_map_const h.length_name, Nat.add_assoc]

/-- the keys of all active credentials, as Garage lists them -/
def Database.keyEntries (db : Database) : List KeyEntry :=
  (db.credentials.select fun c => decide (c.status = .active)).map fun c =>
    ⟨c.garageKeyId, deterministicName c.serviceInstanceId c.id, false,
      some "2026-01-01T00:00:00Z", none⟩

theorem keyEntries_admissible {tr : List CallRecord} {db : Database}
    (h : Run (StoreStep PgStore.standard) Database.empty tr db) : Admissible db.keyEntries := by
  refine ⟨tr, db, _, run_replica h, (List.sublist_append_left _ _).subperm, ?_⟩
  simp only [Database.keyEntries, List.map_map]
  rfl

/-! ## reading the listing -/

section
variable {α : Type} (texts : ErrorTexts) (fromSlice : List UInt8 → Except String α)

/-- the answer to `ListKeys` that says the body is too large -/
def tooLarge (status : StatusCode) : GarageError :=
  .responseTooLarge "ListKeys" status maxSuccessBodyBytes

/-- a body is too large iff it is longer than the limit -/
theorem executeJson_tooLarge_iff {status : StatusCode} (hstatus : status.isSuccess = true)
    {chunks : List (List UInt8)} :
    executeJson texts fromSlice "ListKeys" (.ok ⟨status, chunks.map .ok⟩) =
        some (.error (tooLarge status)) ↔ maxSuccessBodyBytes < chunks.flatten.length := by
  rw [executeJson_success hstatus]
  by_cases hlong : maxSuccessBodyBytes < chunks.flatten.length
  · rw [if_pos hlong]
    exact iff_of_true rfl hlong
  · rw [if_neg hlong]
    refine iff_of_false (fun h => ?_) hlong
    cases hdecode : fromSlice chunks.flatten with
    | ok a =>
      rw [hdecode] at h
      cases h
    | error e =>
      rw [hdecode] at h
      cases h

/-- **The listing is read iff its keys are few enough.**  Garage answers `ListKeys` with a listing
of keys that the default limits admit, in any layout and in any chunks.  The client does not find it
too large iff 82 bytes for each name, the values beside the names and the layout fit the limit. -/
theorem listing_read_iff (format : ListingFormat) {status : StatusCode}
    (hstatus : status.isSuccess = true) {entries : List KeyEntry} (hadm : Admissible entries)
    {chunks : List (List UInt8)} (hbody : chunks.flatten = format.write entries) :
    executeJson texts fromSlice "ListKeys" (.ok ⟨status, chunks.map .ok⟩) ≠
        some (.error (tooLarge status)) ↔
      format.frame entries.length + 82 * entries.length + (entries.map KeyEntry.width).sum ≤
        8 * 1024 * 1024 := by
  rw [ne_eq, executeJson_tooLarge_iff texts fromSlice hstatus, hbody, hadm.length_write format,
    Nat.not_lt]
  exact Iff.rfl

end

namespace Sample

/-- a credential is asked for and made -/
def made (n : Nat) (key service : Uuid) (garageKeyId : String) : List (CallEnv × StoreCall) :=
  let command := { create key service garageKeyId with credentialLimits := .default }
  [(env n n, .prepare (.createCredential command)),
   (env (n + 1) (n + 1), finish (.createCredential command
    ⟨BitVec.ofNat 128 (2000 + n), garageKeyId, garageKeyId, 0, garageKeyId, ⟨true, false⟩⟩)
    (BitVec.ofNat 128 (1000 + n)))]

/-- service 10 gets two credentials, and service 11 one -/
def several : List (CallEnv × StoreCall) :=
  serviceA ++ made 2 101 10 "GK0a1b" ++ serviceB "b" "bucket-b" ++ made 6 103 11 "GK2c3d" ++
    made 8 104 10 "GK4e5f"

/-- their keys -/
def severalKeys : List KeyEntry :=
  [(10, 2002, "GK0a1b"), (11, 2006, "GK2c3d"), (10, 2008, "GK4e5f")].map
    fun (service, credentialId, garageKeyId) => ⟨garageKeyId,
      deterministicName service credentialId, false, some "2026-01-01T00:00:00Z", none⟩

end Sample

/-- the keys of two services, listed in two chunks -/
theorem listing_read_iff_several :
    let body := (ListingFormat.compact fun _ => []).write Sample.severalKeys
    Admissible Sample.severalKeys ∧
      executeJson ⟨fun _ => none, fun _ => none⟩ (fun _ => .ok ()) "ListKeys"
          (.ok ⟨⟨200, "OK"⟩, [body.take 100, body.drop 100].map .ok⟩) ≠
        some (.error (tooLarge ⟨200, "OK"⟩)) := by
  intro body
  have hlisted : (PgStore.standard.play Sample.several Database.empty).2.keyEntries =
      Sample.severalKeys := by decide +kernel
  have hadm : Admissible Sample.severalKeys :=
    hlisted ▸ keyEntries_admissible (play_run PgStore.standard Sample.several Database.empty)
  have hbody : [body.take 100, body.drop 100].flatten = body := by simp
  exact ⟨hadm, (listing_read_iff _ _ (ListingFormat.compact fun _ => []) rfl hadm hbody).mpr
    (by decide +kernel)⟩

/-- a create whose listing is too large ends there -/
theorem createCredential_refused {status : StatusCode} (hstatus : status.isSuccess = true)
    (b name : String) (permissions : BucketPermissions) :
    ∃ next, GarageAdapter.createCredential b name permissions = .ask .listKeys next ∧
      next (.error (tooLarge status)) =
        .done (.error (.unavailable "Garage ListKeys response exceeded 8388608 bytes")) := by
  have hother : ∀ code : UInt16, 300 ≤ code → (tooLarge status).statusCode ≠ some code := by
    intro code hcode heq
    obtain rfl : status.code = code := Option.some.inj heq
    simp only [StatusCode.isSuccess, Bool.and_eq_true, decide_eq_true_eq] at hstatus
    exact absurd hstatus.2 (UInt16.not_lt.mpr hcode)
  have hfound : (tooLarge status).isNotFound = false :=
    decide_eq_false (hother 404 (by decide))
  have herror : GarageBackendError.ofGarage (tooLarge status) =
      .unavailable "Garage ListKeys response exceeded 8388608 bytes" := by
    rw [GarageBackendError.ofGarage, hfound, if_neg (hother 409 (by decide))]
    rfl
  refine ⟨_, rfl, ?_⟩
  show Prog.done (.error (GarageBackendError.ofGarage (tooLarge status))) = _
  rw [herror]

/-! ## more keys than can be listed -/

namespace Sample

/-- the reconcile of service `10 + i`, prepared and completed -/
def fleetService (i : Nat) : List (CallEnv × StoreCall) :=
  let key := BitVec.ofNat 128 (100 + i)
  let command := reconcile key (BitVec.ofNat 128 (10 + i)) ("service-" ++ toString i)
    ("bucket-" ++ toString i) 1
  [(env (2 * i) (2 * i), .prepare (.reconcile command)),
   (env (2 * i + 1) (2 * i + 1),
    finish (.reconcile command ("garage-" ++ toString i)) (BitVec.ofNat 128 (1000 + 2 * i)))]

/-- seven services -/
def fleet : Database :=
  (PgStore.standard.play ((List.range 7).flatMap fleetService) Database.empty).2

end Sample

/-- the services of a database, with their buckets -/
def Database.serviceRows (db : Database) : List (ServiceRow × BucketRow) :=
  db.services.rows.filterMap fun service =>
    (db.buckets.lookup service.id).map fun row => (service, row)

/-- seven services, all ready and of organization 1; nothing is under way, no credential was made
yet, and the ids are small -/
def Database.isFleet (db : Database) : Bool :=
  (db.receipts.rows.all fun q => decide (q.state ≠ .inProgress) &&
    decide (q.idempotencyKey.toNat < 10000) && decide (q.operationId.toNat < 10000)) &&
  db.credentialReservations.rows.isEmpty && db.credentials.rows.isEmpty &&
  (db.audits.rows.all fun a => decide (a.id.toNat < 10000)) &&
  (db.serviceRows.all fun s => decide (s.1.phase = .ready) &&
    decide (s.1.observedGeneration = s.1.desiredGeneration) && decide (s.1.organizationId = 1) &&
    s.2.physicalBucketId.isSome) &&
  decide (db.serviceRows.map fun s => s.1.id).Nodup && decide (db.serviceRows.length = 7)

theorem fleet_reached :
    ∃ tr, Run (StoreStep PgStore.standard) Database.empty tr Sample.fleet := by
  have hplayed := play_run PgStore.standard ((List.range 7).flatMap Sample.fleetService)
    Database.empty
  rw [← Sample.fleet] at hplayed
  exact ⟨_, hplayed⟩

theorem fleet_isFleet : Sample.fleet.isFleet = true := by decide +kernel

section
variable {db : Database}

theorem isFleet_stocked (h : db.isFleet = true) : db.Stocked 10000 := by
  simp only [Database.isFleet, Bool.and_eq_true, List.all_eq_true, List.isEmpty_iff,
    decide_eq_true_eq] at h
  obtain ⟨⟨⟨⟨⟨⟨hreceipts, hreservations⟩, hcredentials⟩, haudits⟩, -⟩, -⟩, -⟩ := h
  refine ⟨⟨fun q hq => (hreceipts q hq).1.1, hreservations⟩,
    fun q hq => ⟨(hreceipts q hq).1.2, (hreceipts q hq).2⟩, fun d hd => ?_, haudits⟩
  rw [hcredentials] at hd
  cases hd

theorem isFleet_unoccupied (h : db.isFleet = true) (P : Uuid → Uuid → Bool) :
    db.occupied P = 0 := by
  simp only [Database.isFleet, Bool.and_eq_true, List.isEmpty_iff] at h
  obtain ⟨⟨⟨⟨⟨⟨-, hreservations⟩, hcredentials⟩, -⟩, -⟩, -⟩, -⟩ := h
  simp only [Database.occupied, Table.count, hreservations, hcredentials, List.countP_nil]

theorem isFleet_serves (h : db.isFleet = true) {s : ServiceRow × BucketRow}
    (hs : s ∈ db.serviceRows) :
    db.Serves s.1 s.2 ∧ s.1.organizationId = 1 ∧ db.perBucket s.1.id = 0 := by
  have hnone : db.perBucket s.1.id = 0 := (perBucket_eq _).trans (isFleet_unoccupied h _)
  simp only [Database.isFleet, Bool.and_eq_true, List.all_eq_true, decide_eq_true_eq] at h
  obtain ⟨⟨⟨-, hall⟩, -⟩, -⟩ := h
  obtain ⟨⟨⟨hready, hobserved⟩, horganization⟩, hmade⟩ := hall s hs
  obtain ⟨service, hservice, hrow⟩ := List.mem_filterMap.mp hs
  obtain ⟨row, hbucket, rfl⟩ := Option.map_eq_some_iff.mp hrow
  exact ⟨⟨Table.lookup_of_mem hservice, hready, hobserved, hbucket, hmade⟩, horganization, hnone⟩

/-- six of the services are filled up, and there is room for a credential of the other -/
theorem fleet_filled (h : db.isFleet = true) :
    ∃ tr db' service row, Run (StoreStep PgStore.standard) db tr db' ∧ db'.Stocked 70000 ∧
      db'.credentials.rows.length = 60000 ∧ db'.Serves service row ∧
      db'.perBucket service.id < 10000 ∧ db'.perOrganization service.organizationId < 1000000 := by
  have hstocked := isFleet_stocked h
  have hserves := fun s => isFleet_serves (s := s) h
  have hnone : db.perOrganization 1 = 0 := (perOrganization_eq _).trans (isFleet_unoccupied h _)
  simp only [Database.isFleet, Bool.and_eq_true, decide_eq_true_eq, List.isEmpty_iff] at h
  obtain ⟨⟨⟨⟨⟨-, hcredentials⟩, -⟩, -⟩, hdistinct⟩, hlength⟩ := h
  obtain ⟨spare, services, hsplit⟩ := List.exists_cons_of_length_eq_add_one hlength
  rw [hsplit] at hlength hdistinct hserves
  have hsix : services.length = 6 := Nat.succ.inj hlength
  obtain ⟨hnot, hdistinct⟩ := List.nodup_cons.mp hdistinct
  have hids : 10000 + 10000 * services.length ≤ 2 ^ 96 := by
    rw [hsix]
    norm_num
  have hroom : db.perOrganization 1 + 10000 * services.length ≤ 1000000 := by
    rw [hsix, hnone]
    norm_num
  obtain ⟨tr, db', hrun, hstocked', ⟨hservices, hbuckets⟩, helse, horganization, hcount⟩ :=
    stock_services (Nat.le_refl 10000) services hstocked (Nat.succ_pos 9999) hids
      (fun s hs => hserves s (List.mem_cons_of_mem _ hs)) hdistinct hroom
  rw [hsix] at hstocked' horganization hcount
  rw [hnone] at horganization
  rw [hcredentials] at hcount
  obtain ⟨hspare, horg, hempty⟩ := hserves spare List.mem_cons_self
  refine ⟨tr, db', spare.1, spare.2, hrun, hstocked', hcount, ⟨hservices ▸ hspare.found,
    hspare.ready, hspare.observed, hbuckets ▸ hspare.bucket, hspare.made⟩, ?_, ?_⟩
  · rw [helse _ hnot, hempty]
    norm_num
  · rw [horg, horganization]
    norm_num

end

/-- an entry of a numbered credential has 59 bytes beside its name -/
theorem Database.Stocked.width {db : Database} {n : Nat} (h : db.Stocked n) :
    ∀ k ∈ db.keyEntries, k.width = 59 := by
  intro k hk
  obtain ⟨c, hc, rfl⟩ := List.mem_map.mp hk
  obtain ⟨-, m, -, -, hid, -⟩ := h.credentials c (Table.mem_select.mp hc).1
  have hcheck : ∀ c ∈ "GK0123456789abcdef".toList, c.toNat < 128 ∧
      Json.escapeByte (UInt8.ofNat c.toNat) = [UInt8.ofNat c.toNat] :=
    List.all_iff_forall_prop.mp (by decide)
  have hlength : (Json.string (garageId m)).length = 28 := by
    rw [length_string fun c hc => hcheck c (mem_garageId hc), length_garageId]
  have hdate : (Json.string "2026-01-01T00:00:00Z").length = 22 := by decide
  simp only [KeyEntry.width, KeyEntry.dateWidth, hid, hlength, hdate]
  rfl

theorem Database.Stocked.length_keyEntries {db : Database} {n : Nat} (h : db.Stocked n) :
    db.keyEntries.length = db.credentials.rows.length := by
  rw [Database.keyEntries, List.length_map, Table.select, List.filter_eq_self.mpr]
  exact fun c hc => decide_eq_true (h.credentials c hc).1

/-- **More credentials than can be listed.**  Six services hold 10000 credentials each, and the
store grants a create for the seventh.  However Garage writes the listing of the 60000 keys, the
client finds it too large, and the create ends there. -/
theorem listing_refused :
    ∃ tr db command env o context db',
      Run (StoreStep PgStore.standard) Database.empty tr db ∧
      PgStore.standard.credentialLimits = .default ∧
      StoreStep PgStore.standard db
        ⟨env, .prepare (.createCredential command), .ok (.execute o context)⟩ db' ∧
      Admissible db.keyEntries ∧
      ∀ (texts : ErrorTexts) (fromSlice : List UInt8 → Except String (List AccessKeySummary))
        (format : ListingFormat) (status : StatusCode) (chunks : List (List UInt8)),
        status.isSuccess = true → chunks.flatten = format.write db.keyEntries →
        executeJson texts fromSlice "ListKeys" (.ok ⟨status, chunks.map .ok⟩) =
            some (.error (tooLarge status)) ∧
          ∀ b name permissions, ∃ next,
            GarageAdapter.createCredential b name permissions = .ask .listKeys next ∧
            next (.error (tooLarge status)) =
              .done (.error (.unavailable "Garage ListKeys response exceeded 8388608 bytes")) := by
  obtain ⟨tr₀, hopened⟩ := fleet_reached
  obtain ⟨tr, db, service, row, hrun, hstocked, hcount, hserves, hbucket, horganization⟩ :=
    fleet_filled fleet_isFleet
  obtain ⟨context, db', hprepared⟩ :=
    hstocked.granted (by norm_num) hserves hbucket horganization
  have hreached := hopened.append hrun
  have hadm := keyEntries_admissible hreached
  refine ⟨_, db, _, _, _, context, db', hreached, rfl, hprepared, hadm, ?_⟩
  intro texts fromSlice format status chunks hstatus hbody
  refine ⟨(executeJson_tooLarge_iff texts fromSlice hstatus).mpr ?_,
    createCredential_refused hstatus⟩
  have hlength : db.keyEntries.length = 60000 := hstocked.length_keyEntries.trans hcount
  calc maxSuccessBodyBytes < 82 * 60000 + 59 * 60000 := by decide
    _ = 82 * db.keyEntries.length + (db.keyEntries.map KeyEntry.width).sum := by
        rw [sum_map_const hstocked.width, hlength]
    _ ≤ (format.write db.keyEntries).length := by
        rw [hadm.length_write format]
        omega
    _ = chunks.flatten.length := by rw [hbody]

end Syouyu
