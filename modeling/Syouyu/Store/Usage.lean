import Syouyu.Store.Changes
import Syouyu.Store.Reference

/-!
# Usage measurements

`record_usage` writes a measurement to the bucket row and to the snapshot row of a service.  The
snapshot is guarded by `measured_at`, the bucket row is not.

* `latest`              what a guarded column holds after a list of measurements;
* `usage_step`          one call: the bucket row takes the measurement, the snapshot if it is not
                        older than the one it has; nothing else writes usage;
* `run_tracked`         after a run the bucket row has the last measurement, the snapshot the latest;
* `usage_agrees_iff`    **the two agree after every call iff the measurements come in order**.
-/

set_option linter.unusedSectionVars false

namespace Syouyu
open Lib

structure Measurement where
  bytesUsed : UInt64
  objectsUsed : UInt64
  measuredAt : Timestamp
  deriving DecidableEq, Repr

/-- a measurement as the columns hold it -/
def Measurement.usage (m : Measurement) : Int64 × Int64 × Option Timestamp :=
  (m.bytesUsed.toInt64, m.objectsUsed.toInt64, some m.measuredAt)

def BucketRow.usage (row : BucketRow) : Int64 × Int64 × Option Timestamp :=
  (row.usedBytes, row.usedObjects, row.usageMeasuredAt)

def UsageSnapshotRow.usage (row : UsageSnapshotRow) : Int64 × Int64 × Option Timestamp :=
  (row.bytesUsed, row.objectsUsed, some row.measuredAt)

/-- the measurement a successful call has recorded for the service -/
def CallRecord.measurement (s : Uuid) : CallRecord → Option Measurement
  | ⟨_, .recordUsage _ _ s' bytesUsed objectsUsed measuredAt, .ok _⟩ =>
    if s' = s then some ⟨bytesUsed, objectsUsed, measuredAt⟩ else none
  | _ => none

/-- the measurements of the service, in the order of their calls -/
def measurements (s : Uuid) (tr : List CallRecord) : List Measurement :=
  tr.filterMap (CallRecord.measurement s)

/-! ## the latest of a list -/

/-- a measurement replaces one that is not later -/
def Measurement.replacing (m : Measurement) : Option Measurement → Measurement
  | some best => if best.measuredAt ≤ m.measuredAt then m else best
  | none => m

def latest (ms : List Measurement) : Option Measurement :=
  ms.foldl (fun best m => some (m.replacing best)) none

section
variable {ms : List Measurement} {m best : Measurement}

@[simp] theorem latest_append : latest (ms ++ [m]) = some (m.replacing (latest ms)) := by
  simp [latest, List.foldl_append]

theorem latest_spec (h : latest ms = some best) :
    best ∈ ms ∧ ∀ m ∈ ms, m.measuredAt ≤ best.measuredAt := by
  induction ms using List.reverseRecOn generalizing best with
  | nil => cases h
  | append_singleton ms m ih =>
    rw [latest_append] at h
    obtain rfl := Option.some.inj h
    cases hl : latest ms with
    | none =>
      obtain rfl : ms = [] := by
        cases ms using List.reverseRecOn with
        | nil => rfl
        | append_singleton ms m => simp at hl
      simp [Measurement.replacing]
    | some best =>
      obtain ⟨hmem, hmax⟩ := ih hl
      by_cases hle : best.measuredAt ≤ m.measuredAt
      · simp only [Measurement.replacing, if_pos hle]
        refine ⟨by simp, fun m' hm' => ?_⟩
        rcases List.mem_append.mp hm' with hm' | hm'
        · exact (hmax m' hm').trans hle
        · rw [List.mem_singleton.mp hm']
      · simp only [Measurement.replacing, if_neg hle]
        refine ⟨List.mem_append_left _ hmem, fun m' hm' => ?_⟩
        rcases List.mem_append.mp hm' with hm' | hm'
        · exact hmax m' hm'
        · rw [List.mem_singleton.mp hm']
          exact (not_le.mp hle).le

/-- the last measurement is the latest iff none before it was later -/
theorem replacing_latest_iff :
    (m.replacing (latest ms)).measuredAt = m.measuredAt ↔
      ∀ m' ∈ ms, m'.measuredAt ≤ m.measuredAt := by
  cases hl : latest ms with
  | none =>
    obtain rfl : ms = [] := by
      cases ms using List.reverseRecOn with
      | nil => rfl
      | append_singleton ms m => simp at hl
    simp [Measurement.replacing]
  | some best =>
    obtain ⟨hmem, hmax⟩ := latest_spec hl
    by_cases hle : best.measuredAt ≤ m.measuredAt
    · simp only [Measurement.replacing, if_pos hle, true_iff]
      exact fun m' hm' => (hmax m' hm').trans hle
    · simp only [Measurement.replacing, if_neg hle]
      exact ⟨fun heq => absurd heq.le hle, fun h => absurd (h best hmem) hle⟩

end

/-! ## one call -/

section
variable {store : PgStore} {env : CallEnv} {db db' : Database} {r : CallRecord} {s : Uuid}

/-- a successful call writes the bucket row, and the snapshot if that is not later -/
theorem recordUsage_writes {o p : Uuid} {bytesUsed objectsUsed : UInt64} {measuredAt : Timestamp}
    {record : UsageRecord}
    (h : PgStore.recordUsage env o p s bytesUsed objectsUsed measuredAt db = .ok (record, db')) :
    (∃ row, db'.buckets.lookup s = some row ∧
      row.usage = (⟨bytesUsed, objectsUsed, measuredAt⟩ : Measurement).usage) ∧
    ∃ new, db'.usageSnapshots.lookup s = some new ∧
      ((∀ old, db.usageSnapshots.lookup s = some old → old.measuredAt ≤ measuredAt) →
        new.usage = (⟨bytesUsed, objectsUsed, measuredAt⟩ : Measurement).usage) ∧
      ∀ old, db.usageSnapshots.lookup s = some old → ¬ old.measuredAt ≤ measuredAt → new = old := by
  simp only [PgStore.recordUsage, Tx.bind_eq_ok, Tx.ofExcept_eq_ok, Tx.read_eq_ok,
    Tx.require_eq_ok, updateRows_eq_ok, Tx.pure_eq_ok] at h
  obtain ⟨bytes, db₀, ⟨hbytes, rfl⟩, objects, db₀, ⟨hobjects, rfl⟩, _, db₀, ⟨rfl, rfl⟩, row, db₀,
    ⟨hrow, rfl⟩, _, _, ⟨b, hb, -, rfl⟩, _, _, hv, _, _, ⟨-, rfl⟩, _, _, ⟨-, rfl⟩, -, rfl⟩ := h
  obtain ⟨-, rfl⟩ := toI64_eq_ok.mp hbytes
  obtain ⟨-, rfl⟩ := toI64_eq_ok.mp hobjects
  rw [Option.filter_eq_some_iff] at hrow
  obtain ⟨-, ⟨hnone, -, v, hi, -, rfl⟩ | ⟨⟨old, hold⟩, v, hu, -, rfl⟩⟩ := upsertRow_eq_ok.mp hv
  · refine ⟨⟨_, Table.lookup_updated hb (fun _ => rfl) hrow.1, rfl⟩, _, Table.lookup_inserted hi,
      fun _ => rfl, fun old hold => ?_⟩
    exact absurd_none_some hnone hold
  · refine ⟨⟨_, Table.lookup_updated hb (fun _ => rfl) hrow.1, rfl⟩, ?_⟩
    have hold : db₀.usageSnapshots.lookup s = some old := hold
    have hkey : old.serviceInstanceId = s := Table.lookup_key hold
    have hnew : v.lookup s = _ := Table.lookup_updateWhere hu (fun _ => rfl) s
    rw [show (usageSnapshotsPart.get (bucketsPart.put db₀ b)).lookup s = some old from hold] at hnew
    refine ⟨_, hnew, fun hle => ?_, fun old' hold' hlate => ?_⟩
    · rw [Table.touch, if_pos]
      · rfl
      · simpa using ⟨hkey, hle old hold⟩
    · obtain rfl : old = old' := Option.some.inj (hold.symm.trans hold')
      rw [Table.touch, if_neg]
      simpa using fun _ => not_le.mp hlate

/-- the usage of a bucket row that is written by another call is kept -/
theorem bucket_usage_kept (h : StoreStep store db r db') (hr : r.measurement s = none)
    {row : BucketRow} (hl : db.buckets.lookup s = some row) :
    ∃ row', db'.buckets.lookup s = some row' ∧ row'.usage = row.usage := by
  obtain ⟨env, call, answer⟩ := r
  cases answer with
  | error e =>
    obtain rfl := step_error h
    exact ⟨row, hl, rfl⟩
  | ok a =>
    cases service_change h with
    | same _ heq => exact ⟨row, heq ▸ hl, rfl⟩
    | deleted _ _ _ _ _ _ heq => exact ⟨row, heq ▸ hl, rfl⟩
    | @reconciled finish command pid _ _ hb =>
      rcases hb with ⟨hnone, hi⟩ | ⟨-, hu⟩
      · refine ⟨row, ?_, rfl⟩
        rw [Table.lookup_insert hi, ← hl]
        refine if_neg fun hk => ?_
        rw [show command.operation.serviceInstanceId = s from hk] at hnone
        exact absurd_none_some hnone hl
      · rw [Table.lookup_update_key hu (fun _ => rfl)]
        split
        · rename_i hk
          rw [← hk, hl]
          exact ⟨_, rfl, rfl⟩
        · exact ⟨row, hl, rfl⟩
    | @measured o p s' _ _ _ _ _ _ hu =>
      have hne : s ≠ s' := by
        rintro rfl
        simp [CallRecord.measurement] at hr
      rw [Table.lookup_update_key hu (fun _ => rfl), if_neg hne]
      exact ⟨row, hl, rfl⟩

/-- a snapshot row is only written by a measurement of its service -/
theorem snapshot_kept (h : StoreStep store db r db') (hr : r.measurement s = none) :
    db'.usageSnapshots.lookup s = db.usageSnapshots.lookup s := by
  cases step_cases h with
  | quiet _ => rfl
  | executed h => rw [prepare_keeps_usage h]
  | finished h => rw [finish_keeps_usage h]
  | renewed h =>
    obtain ⟨-, -, t, -, rfl⟩ := renewOperation_eq_ok.mp h
    rfl
  | audited h =>
    obtain ⟨-, _, -, rfl⟩ := insertAudit_eq_ok.mp h
    rfl
  | @measured env o p s' _ _ _ record _ h =>
    have hne : s ≠ s' := by
      rintro rfl
      simp [CallRecord.measurement] at hr
    obtain ⟨_, _, _, _, v, -, -, -, -, hv, rfl⟩ := recordUsage_ok h
    rw [Table.lookup_eq_head_select, Table.lookup_eq_head_select]
    exact congrArg List.head? (hv s hne)

/-- **one call**: what is recorded for the service goes to both tables, as far as the guard of the
snapshot lets it; any other call leaves the usage of the service alone -/
theorem usage_step (h : StoreStep store db r db') {m : Measurement}
    (hr : r.measurement s = some m) :
    (∃ row, db'.buckets.lookup s = some row ∧ row.usage = m.usage) ∧
    ∃ new, db'.usageSnapshots.lookup s = some new ∧
      ((∀ old, db.usageSnapshots.lookup s = some old → old.measuredAt ≤ m.measuredAt) →
        new.usage = m.usage) ∧
      ∀ old, db.usageSnapshots.lookup s = some old → ¬ old.measuredAt ≤ m.measuredAt →
        new = old := by
  obtain ⟨env, call, answer⟩ := r
  cases answer with
  | error e => cases call <;> cases hr
  | ok a =>
    cases call with
    | recordUsage o p s' bytesUsed objectsUsed measuredAt =>
      simp only [CallRecord.measurement] at hr
      split at hr
      · rename_i hs
        subst hs
        obtain rfl := Option.some.inj hr
        exact recordUsage_writes (step_ok h)
      · cases hr
    | _ => cases hr

/-! ## runs -/

/-- the bucket row has the last measurement of the service, the snapshot the latest -/
structure Database.Tracks (db : Database) (s : Uuid) (ms : List Measurement) : Prop where
  bucket : ∀ m, ms.getLast? = some m → ∃ row, db.buckets.lookup s = some row ∧ row.usage = m.usage
  snapshot : (db.usageSnapshots.lookup s).map UsageSnapshotRow.usage =
    (latest ms).map Measurement.usage

theorem measurements_append (s : Uuid) (tr : List CallRecord) (r : CallRecord) :
    measurements s (tr ++ [r]) = measurements s tr ++ (r.measurement s).toList := by
  rw [measurements, List.filterMap_append, measurements]
  cases hr : r.measurement s <;> simp [hr]

theorem Database.Tracks.step {ms : List Measurement} (ht : db.Tracks s ms)
    (h : StoreStep store db r db') : db'.Tracks s (ms ++ (r.measurement s).toList) := by
  cases hr : r.measurement s with
  | none =>
    rw [Option.toList_none, List.append_nil]
    refine ⟨fun m hm => ?_, by rw [snapshot_kept h hr, ht.snapshot]⟩
    obtain ⟨row, hl, husage⟩ := ht.bucket m hm
    obtain ⟨row', hl', hsame⟩ := bucket_usage_kept h hr hl
    exact ⟨row', hl', hsame.trans husage⟩
  | some m =>
    obtain ⟨hbucket, new, hnew, hlate, hkeep⟩ := usage_step h hr
    refine ⟨fun m' hm' => ?_, ?_⟩
    · obtain rfl : m = m' := by simpa using hm'
      exact hbucket
    · have hsnap := ht.snapshot
      rw [Option.toList_some, latest_append, hnew, Option.map_some, Option.map_some]
      cases hold : db.usageSnapshots.lookup s with
      | none =>
        rw [hold] at hsnap
        rw [Option.map_eq_none_iff.mp hsnap.symm, hlate (by simp [hold])]
        rfl
      | some old =>
        rw [hold] at hsnap
        obtain ⟨best, hbest, hsame⟩ := Option.map_eq_some_iff.mp hsnap.symm
        have hat : best.measuredAt = old.measuredAt :=
          Option.some.inj (congrArg (fun u => u.2.2) hsame)
        rw [hbest, Measurement.replacing, hat]
        by_cases hle : old.measuredAt ≤ m.measuredAt
        · rw [if_pos hle, hlate fun old' hold' => Option.some.inj (hold.symm.trans hold') ▸ hle]
        · rw [if_neg hle, hkeep old hold hle, hsame]

/-- **what the tables hold after a run** -/
theorem run_tracked {tr : List CallRecord} (h : Run (StoreStep store) Database.empty tr db)
    (s : Uuid) : db.Tracks s (measurements s tr) := by
  refine h.history (fun tr db => db.Tracks s (measurements s tr)) (fun tr db r db' ht hstep => ?_)
    ⟨nofun, rfl⟩
  rw [measurements_append]
  exact ht.step hstep

/-- bucket row and snapshot agree on a measurement that no other is later than -/
def Database.UsageAgrees (db : Database) (s : Uuid) (ms : List Measurement) : Prop :=
  ∃ row snapshot m, db.buckets.lookup s = some row ∧ db.usageSnapshots.lookup s = some snapshot ∧
    row.usage = snapshot.usage ∧ m ∈ ms ∧ snapshot.usage = m.usage ∧
    ∀ m' ∈ ms, m'.measuredAt ≤ m.measuredAt

/-- after a measurement the tables agree iff none before it was later -/
theorem Database.Tracks.agrees_iff {ms : List Measurement} {m : Measurement}
    (ht : db.Tracks s (ms ++ [m])) :
    db.UsageAgrees s (ms ++ [m]) ↔ ∀ m' ∈ ms, m'.measuredAt ≤ m.measuredAt := by
  obtain ⟨row, hrow, husage⟩ := ht.bucket m (by simp)
  have hsnap := ht.snapshot
  rw [latest_append] at hsnap
  obtain ⟨snapshot, hsnapshot, hsame⟩ := Option.map_eq_some_iff.mp hsnap
  constructor
  · rintro ⟨row', snapshot', -, hrow', hsnapshot', hagree, -⟩
    obtain rfl := Option.some.inj (hrow'.symm.trans hrow)
    obtain rfl := Option.some.inj (hsnapshot'.symm.trans hsnapshot)
    refine replacing_latest_iff.mp ?_
    have heq := (hsame.symm.trans hagree.symm).trans husage
    exact Option.some.inj (congrArg (fun u => u.2.2) heq)
  · intro hle
    have hlast : m.replacing (latest ms) = m := by
      cases hl : latest ms with
      | none => rfl
      | some best => exact if_pos (hle best (latest_spec hl).1)
    rw [hlast] at hsame
    refine ⟨row, snapshot, m, hrow, hsnapshot, husage.trans hsame.symm, by simp, hsame, ?_⟩
    intro m' hm'
    rcases List.mem_append.mp hm' with hm' | hm'
    · exact hle m' hm'
    · rw [List.mem_singleton.mp hm']

/-- **Usage agrees iff the measurements come in order.**  For every run of calls from an empty
database and every service: bucket row and snapshot hold the same measurement, and one that none so
far is later than, after each successful `record_usage` for the service, iff no such call carries a
`measured_at` earlier than that of a call before it. -/
theorem usage_agrees_iff (store : PgStore) (tr : List CallRecord) (db : Database)
    (h : Run (StoreStep store) Database.empty tr db) (s : Uuid) :
    (∀ tr₁ r tr₂ db₁, tr = tr₁ ++ r :: tr₂ → (r.measurement s).isSome = true →
      Run (StoreStep store) Database.empty (tr₁ ++ [r]) db₁ →
      db₁.UsageAgrees s (measurements s (tr₁ ++ [r]))) ↔
    (measurements s tr).Pairwise fun m m' => m.measuredAt ≤ m'.measuredAt := by
  induction tr using List.reverseRecOn generalizing db with
  | nil => simp [measurements]
  | append_singleton tr r ih =>
    obtain ⟨db₀, h₀, -⟩ := h.split
    rw [measurements_append, List.pairwise_append, ← ih db₀ h₀]
    constructor
    · intro hall
      refine ⟨fun tr₁ r' tr₂ db₁ htr => hall tr₁ r' (tr₂ ++ [r]) db₁ (by simp [htr]), ?_, ?_⟩
      · cases r.measurement s <;> simp
      · intro m' hm' m hm
        have hr : r.measurement s = some m := Option.mem_toList.mp hm
        have hagrees := hall tr r [] db rfl (by rw [hr]; rfl) h
        have htracks := run_tracked h s
        rw [measurements_append, hr, Option.toList_some] at hagrees htracks
        exact htracks.agrees_iff.mp hagrees m' hm'
    · rintro ⟨hprev, -, hlast⟩ tr₁ r' tr₂ db₁ htr hsome hrun
      rcases List.eq_nil_or_concat tr₂ with rfl | ⟨tr₂, r₂, rfl⟩
      · -- the last call of the run
        obtain ⟨rfl, hr'⟩ := List.append_inj' htr rfl
        obtain rfl : r = r' := List.singleton_inj.mp hr'
        obtain ⟨m, hr⟩ := Option.isSome_iff_exists.mp hsome
        have htracks := run_tracked hrun s
        rw [measurements_append, hr, Option.toList_some] at htracks ⊢
        refine htracks.agrees_iff.mpr fun m' hm' => hlast m' hm' m ?_
        simp [hr]
      · have hsplit : tr = tr₁ ++ r' :: tr₂ := by
          rw [List.concat_eq_append, ← List.cons_append, ← List.append_assoc] at htr
          exact (List.append_inj' htr rfl).1
        exact hprev tr₁ r' tr₂ db₁ hsplit hsome hrun

/-- two measurements of service 10 that arrive in order -/
theorem usage_agrees_iff_in_order :
    let script := Sample.serviceA ++
      [(Sample.env 6 6, StoreCall.recordUsage 1 2 10 7 1 (seconds 5)),
       (Sample.env 7 7, StoreCall.recordUsage 1 2 10 9 2 (seconds 6))]
    let tr := (PgStore.reference.play script Database.empty).1
    (measurements 10 tr = [⟨7, 1, seconds 5⟩, ⟨9, 2, seconds 6⟩]) ∧
    ∀ tr₁ r tr₂ db₁, tr = tr₁ ++ r :: tr₂ → (r.measurement 10).isSome = true →
      Run (StoreStep PgStore.reference) Database.empty (tr₁ ++ [r]) db₁ →
      db₁.UsageAgrees 10 (measurements 10 (tr₁ ++ [r])) := by
  intro script tr
  have hms : measurements 10 tr = [⟨7, 1, seconds 5⟩, ⟨9, 2, seconds 6⟩] := by decide +kernel
  refine ⟨hms, (usage_agrees_iff PgStore.reference tr _ (play_run _ script _) 10).mpr ?_⟩
  rw [hms]
  decide +kernel

/-- a measurement of second 5 is recorded, then an older one of second 3 that was under way: the
bucket row has the older one, the snapshot the later one -/
theorem usage_out_of_order :
    let script := Sample.serviceA ++
      [(Sample.env 6 6, StoreCall.recordUsage 1 2 10 7 1 (seconds 5)),
       (Sample.env 7 7, StoreCall.recordUsage 1 2 10 9 2 (seconds 3))]
    let tr := (PgStore.reference.play script Database.empty).1
    let db := (PgStore.reference.play script Database.empty).2
    Run (StoreStep PgStore.reference) Database.empty tr db ∧
    (∃ tr₁ r, tr = tr₁ ++ [r] ∧ r.measurement 10 = some ⟨9, 2, seconds 3⟩) ∧
    (db.buckets.lookup 10).map BucketRow.usage = some (9, 2, some (seconds 3)) ∧
    (db.usageSnapshots.lookup 10).map UsageSnapshotRow.usage = some (7, 1, some (seconds 5)) ∧
    ¬ db.UsageAgrees 10 (measurements 10 tr) := by
  intro script tr db
  have hrun : Run (StoreStep PgStore.reference) Database.empty tr db := play_run _ script _
  have hlast : tr.getLast?.bind (CallRecord.measurement 10) = some ⟨9, 2, seconds 3⟩ := by
    decide +kernel
  have hbucket : (db.buckets.lookup 10).map BucketRow.usage = some (9, 2, some (seconds 3)) := by
    decide +kernel
  have hsnapshot : (db.usageSnapshots.lookup 10).map UsageSnapshotRow.usage =
      some (7, 1, some (seconds 5)) := by
    decide +kernel
  obtain ⟨r, hr, hm⟩ := Option.bind_eq_some_iff.mp hlast
  obtain ⟨tr₁, htr⟩ := List.getLast?_eq_some_iff.mp hr
  refine ⟨hrun, ⟨tr₁, r, htr, hm⟩, hbucket, hsnapshot, ?_⟩
  rintro ⟨row, snapshot, -, hrow, hsnap, hagree, -⟩
  rw [hrow, Option.map_some] at hbucket
  rw [hsnap, Option.map_some] at hsnapshot
  have heq := (Option.some.inj hbucket).symm.trans (hagree.trans (Option.some.inj hsnapshot))
  exact absurd heq (by decide)

end

end Syouyu
