import Syouyu.Api.Rules
import Syouyu.Garage.Server

/-!
# Providing a bucket

`GarageAdapter::reconcile_bucket` beside a documented Garage, where every request may fail before
or after it took effect.

* `Provided`             from one Garage to another at most one bucket was made, and the alias
                         names it;
* `Garage.HasQuotas`     the bucket exists, with the quotas of a spec;
* `reconcileBucket_ensures`   **the bucket that is returned has its quotas, and no bucket was made
                         beside it**, request by request.
-/

set_option linter.unusedSectionVars false

namespace Syouyu
open Lib Lib.Prog

/-- the bucket exists, with the quotas of the spec -/
def Garage.HasQuotas (g : Garage) (id : String) (spec : SyouyuSpec) : Prop :=
  ∃ b, g.buckets.lookup id = some b ∧ b.quotas = .limited spec.quotaBytes spec.quotaObjects

instance (g : Garage) (id : String) (spec : SyouyuSpec) : Decidable (g.HasQuotas id spec) :=
  decidable_of_iff ((g.buckets.lookup id).any fun b =>
    decide (b.quotas = .limited spec.quotaBytes spec.quotaObjects)) (by
      rw [Option.any_eq_true]
      exact exists_congr fun b => and_congr_right fun _ => decide_eq_true_iff)

/-- no bucket was made since `g₀`, or one, which the alias names -/
def Provided (g₀ : Garage) (name : String) (g : Garage) : Prop :=
  g.bucketIds = g₀.bucketIds ∨ ∃ b, g.bucketOf name = some b ∧ g.bucketIds = b.id :: g₀.bucketIds

/-- the alias names the bucket -/
def Garage.Names (g : Garage) (name id : String) : Prop := ∃ b, g.bucketOf name = some b ∧ b.id = id

section
variable {g₀ g g' : Garage} {name : String} {spec : SyouyuSpec}

/-! ## the requests -/

theorem Garage.Documented.notFound {call : GarageCall} {e : GarageError}
    (h : g.Documented call (.error e) g') (he : e.isNotFound = true) :
    g' = g ∧ ∃ d, g.serve d call = .error 404 := by
  cases h with
  | @refused d status _ hserve hstatus =>
    have hcode := of_decide_eq_true he
    rw [hstatus] at hcode
    obtain rfl := Option.some.inj hcode
    exact ⟨rfl, d, hserve⟩
  | lost _ hnot => exact absurd_true_false he hnot
  | failed hnot => exact absurd_true_false he hnot

/-- what `UpdateBucket` makes of a bucket -/
def GarageBucket.requota (id : String) (quotas : BucketQuotas) (b : GarageBucket) : GarageBucket :=
  if b.id = id then { b with quotas := quotas } else b

@[simp] theorem GarageBucket.requota_id (id : String) (quotas : BucketQuotas) (b : GarageBucket) :
    (b.requota id quotas).id = b.id := by
  unfold GarageBucket.requota
  split <;> rfl

theorem Garage.lookup_setQuotas (id b : String) (quotas : BucketQuotas) :
    (g.setQuotas id quotas).buckets.lookup b =
      (g.buckets.lookup b).map (GarageBucket.requota id quotas) :=
  Table.lookup_map rfl (GarageBucket.requota_id id quotas) b

theorem Garage.bucketOf_setQuotas (id name : String) (quotas : BucketQuotas) :
    (g.setQuotas id quotas).bucketOf name =
      (g.bucketOf name).map (GarageBucket.requota id quotas) := by
  unfold Garage.bucketOf Garage.setQuotas Table.mapRows
  rw [List.find?_map]
  congr 2
  funext row
  simp only [Function.comp]
  split <;> rfl

theorem Garage.Names.setQuotas {id' : String} (h : g.Names name id') (id : String)
    (quotas : BucketQuotas) : (g.setQuotas id quotas).Names name id' := by
  obtain ⟨b, hb, rfl⟩ := h
  refine ⟨b.requota id quotas, ?_, GarageBucket.requota_id id quotas b⟩
  rw [Garage.bucketOf_setQuotas, hb, Option.map_some]

/-- a bucket that was just made has the alias, if no other had it -/
theorem Garage.bucketOf_addBucket {id : String} {buckets : Table garageBucketSchema}
    (hnone : g.bucketOf name = none) (hi : g.buckets.insert ⟨id, [name], .unlimited⟩ = .ok buckets) :
    (g.addBucket _ buckets hi).bucketOf name = some ⟨id, [name], .unlimited⟩ := by
  obtain ⟨-, -, hrows⟩ := Table.insert_eq_ok.mp hi
  unfold Garage.bucketOf at hnone ⊢
  simp only [Garage.addBucket, hrows, List.find?_append, hnone]
  simp

/-- `UpdateBucket` sets the quotas -/
theorem Garage.hasQuotas_set {id : String} {row : GarageBucket} (h : g.buckets.lookup id = some row) :
    (g.setQuotas id (.limited spec.quotaBytes spec.quotaObjects)).HasQuotas id spec := by
  have hid : row.id = id := Table.lookup_key h
  refine ⟨_, (Garage.lookup_setQuotas id id _).trans (congrArg (Option.map _) h), ?_⟩
  rw [GarageBucket.requota, if_pos hid]

theorem Provided.setQuotas (h : Provided g₀ name g) (id : String) (quotas : BucketQuotas) :
    Provided g₀ name (g.setQuotas id quotas) := by
  obtain hsame | ⟨b, hb, hids⟩ := h
  · exact .inl hsame
  · obtain ⟨b', hb', hid⟩ := Garage.Names.setQuotas ⟨b, hb, rfl⟩ id quotas
    exact .inr ⟨b', hb', by rw [hid]; exact hids⟩

/-! ## the execution -/

/-- a request after which at most one bucket was made; only its success says more -/
theorem provided_checked (call : GarageCall) {checks : Except GarageError Unit}
    {P : Garage → call.Result → Prop} (h : Provided g₀ name g)
    (hcall : ∀ g', g.Change call g' → Provided g₀ name g')
    (hok : ∀ d (r : call.Result) g', Provided g₀ name g' → g.serve d call = .ok (r, g') → P g' r) :
    (GarageAdminClient.checked checks call).Ensures Garage.Documented (Provided g₀ name) P
      (fun g _ => Provided g₀ name g) g := by
  refine checked_ensures (fun _ _ => h) fun a g' ha => ?_
  have h' := hcall g' ha.change
  refine ⟨h', ?_⟩
  cases a with
  | ok r =>
    obtain ⟨d, hserve⟩ := ha.answered
    exact hok d r g' h' hserve
  | error e => exact h'

/-- a bucket that has to be there, with the alias -/
theorem findBucket_existing {id : String} (h : Provided g₀ name g) :
    (GarageAdapter.findBucket (some id) spec).Ensures Garage.Documented (Provided g₀ name)
      (fun g _ => Provided g₀ name g) (fun g _ => Provided g₀ name g) g := by
  refine ensures_bind (P := fun g _ => Provided g₀ name g) (ensures_mapError ?_)
    fun g' bucket h' => ?_
  · refine provided_checked (.getBucketInfo id) h (fun g' hc => ?_) fun _ _ _ h' _ => h'
    cases hc with
    | same => exact h
  · split
    · exact ensures_pure h'
    · exact ensures_throw h'

/-- a bucket found by its alias, or made -/
theorem findBucket_new (h : Provided g₀ spec.bucketName g) :
    (GarageAdapter.findBucket none spec).Ensures Garage.Documented (Provided g₀ spec.bucketName)
      (fun g bucket => Provided g₀ spec.bucketName g ∧ g.Names spec.bucketName bucket.id)
      (fun g _ => Provided g₀ spec.bucketName g) g := by
  refine ensures_bind (P := fun g answer => Provided g₀ spec.bucketName g ∧
    (∀ bucket : Bucket, answer = .ok bucket → g.Names spec.bucketName bucket.id) ∧
    ∀ e : GarageError, answer = .error e → e.isNotFound = true →
      g.bucketOf spec.bucketName = none) (ensures_attempt ?_) ?_
  · refine @checked_ensures Garage Garage.Documented _ g _ (.getBucketInfoByAlias spec.bucketName)
      _ _ (fun e he => ⟨h, (fun _ h => by cases h), fun e' he' hnot => ?_⟩) fun a g' ha => ?_
    · obtain rfl := Except.error.inj he'
      exact absurd_true_false hnot (validateInput_error he)
    · have hsame : g' = g := by
        cases ha.change with
        | same => rfl
      subst hsame
      refine ⟨h, ?_⟩
      cases a with
      | ok bucket =>
        obtain ⟨d, hserve⟩ := ha.answered
        refine ⟨h, ?_, fun _ h => by cases h⟩
        rintro _ ⟨⟩
        simp only [Garage.serve] at hserve
        split at hserve
        · rename_i b hb
          obtain ⟨rfl, -⟩ := Prod.mk.inj (Except.ok.inj hserve)
          exact ⟨b, hb, rfl⟩
        · cases hserve
      | error e =>
        refine ⟨h, (fun _ h => by cases h), ?_⟩
        rintro _ ⟨⟩ hnot
        obtain ⟨-, d, hserve⟩ := ha.notFound hnot
        simp only [Garage.serve] at hserve
        split at hserve
        · cases hserve
        · assumption
  · rintro g' answer ⟨h', hfound, hnone⟩
    cases answer with
    | ok bucket => exact ensures_pure ⟨h', hfound bucket rfl⟩
    | error e =>
      dsimp only
      split
      · rename_i hnot
        have hfree := hnone e rfl hnot
        -- nothing has the alias, so no bucket was made so far
        have hids : g'.bucketIds = g₀.bucketIds := by
          obtain hsame | ⟨b, hb, -⟩ := h'
          · exact hsame
          · exact absurd_none_some hfree hb
        refine ensures_mapError (provided_checked (.createBucket spec.bucketName) h'
          (fun g'' hc => ?_) fun d bucket g'' h'' hserve => ?_)
        · cases hc with
          | same => exact h'
          | bucketAdded hi _ =>
            refine .inr ⟨_, Garage.bucketOf_addBucket hfree hi, ?_⟩
            exact congrArg (List.cons _) hids
        · obtain ⟨-, rfl, buckets, hi, rfl⟩ := Garage.newBucket_eq_ok hserve
          exact ⟨h'', _, Garage.bucketOf_addBucket hfree hi, rfl⟩
      · exact ensures_throw h'

/-- **the execution**: the bucket is found or made, and its quotas are set -/
theorem reconcileBucket_ensures (existing : Option String) (h : Provided g₀ spec.bucketName g) :
    (GarageAdapter.reconcileBucket existing spec).Ensures Garage.Documented
      (Provided g₀ spec.bucketName)
      (fun g bucket => Provided g₀ spec.bucketName g ∧ g.HasQuotas bucket.physicalBucketId spec ∧
        (existing = none → g.Names spec.bucketName bucket.physicalBucketId))
      (fun g _ => Provided g₀ spec.bucketName g) g := by
  refine ensures_bind (P := fun g bucket => Provided g₀ spec.bucketName g ∧
    (existing = none → g.Names spec.bucketName bucket.id)) ?_ ?_
  · cases existing with
    | some id =>
      exact (findBucket_existing h).mono (fun _ h => h) (fun _ _ h => ⟨h, fun h => by cases h⟩)
        fun _ _ h => h
    | none =>
      exact (findBucket_new h).mono (fun _ h => h) (fun _ _ h => ⟨h.1, fun _ => h.2⟩)
        fun _ _ h => h
  · rintro g' found ⟨h', hnames⟩
    refine ensures_bind (P := fun g (bucket : Bucket) => Provided g₀ spec.bucketName g ∧
      g.HasQuotas bucket.id spec ∧ (existing = none → g.Names spec.bucketName bucket.id))
      (ensures_mapError ?_) fun g'' bucket h'' => ensures_pure h''
    refine provided_checked (.updateBucket found.id _) h' (fun g'' hc => ?_)
      fun d bucket g'' h'' hserve => ⟨h'', ?_⟩
    · cases hc with
      | same => exact h'
      | quotas => exact h'.setQuotas _ _
    · obtain ⟨row, hrow, rfl, rfl⟩ := Garage.serve_updateBucket hserve
      have hid : row.id = found.id := Table.lookup_key hrow
      refine ⟨?_, fun hnone => ?_⟩
      · exact hid ▸ Garage.hasQuotas_set (hid ▸ hrow)
      · have hset := (hnames hnone).setQuotas found.id
          (.limited spec.quotaBytes spec.quotaObjects)
        exact hid ▸ hset

end

end Syouyu
