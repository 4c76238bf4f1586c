import Syouyu.Garage.Client
import Syouyu.Lib.Table

/-!
# Garage

What the service relies on when it talks to Garage.  A `Garage` is its keys with their grants, its
buckets with aliases and quotas, and the ids it has issued so far.

* `GarageBehaviour.Lawful`    ids are never used again, and what a delete reports gone is gone;
* `GarageBehaviour.Confined`  moreover permissions come from `AllowBucketKey` only, and calls about
                              a bucket answer with that bucket;
* `GarageBehaviour.Refines`   it answers and does only what another may;
* `Garage.Documented`         the documented effect of each call, where every call may fail before
                              or after it took effect; `documented_confined`;
* `Garage.perform`            the same as a function of what is drawn and which answers are lost.
-/

set_option linter.unusedSectionVars false

namespace Syouyu
open Lib

/-! ## permissions -/

namespace BucketKeyPermissions

/-- the bits of either -/
def or (p q : BucketKeyPermissions) : BucketKeyPermissions :=
  ⟨p.read || q.read, p.write || q.write, p.owner || q.owner⟩

/-- the bits of `p` that are not in `q` -/
def without (p q : BucketKeyPermissions) : BucketKeyPermissions :=
  ⟨p.read && !q.read, p.write && !q.write, p.owner && !q.owner⟩

/-- every bit of `p` is one of `q` -/
def within (p q : BucketKeyPermissions) : Bool :=
  (!p.read || q.read) && (!p.write || q.write) && (!p.owner || q.owner)

@[simp] theorem within_refl (p : BucketKeyPermissions) : p.within p = true := by
  obtain ⟨r, w, o⟩ := p
  cases r <;> cases w <;> cases o <;> rfl

@[simp] theorem none_within (p : BucketKeyPermissions) : none.within p = true := rfl

@[simp] theorem without_within (p q : BucketKeyPermissions) : (p.without q).within p = true := by
  obtain ⟨r, w, o⟩ := p
  obtain ⟨r', w', o'⟩ := q
  cases r <;> cases w <;> cases o <;> simp [within, without]

theorem within_trans {p q r : BucketKeyPermissions} (hpq : p.within q = true)
    (hqr : q.within r = true) : p.within r = true := by
  simp only [within, Bool.and_eq_true, Bool.or_eq_true, Bool.not_eq_true'] at hpq hqr ⊢
  grind

theorem or_within {p q : BucketKeyPermissions} (h : p.within q = true) :
    (p.or q).within q = true := by
  simp only [within, or, Bool.and_eq_true, Bool.or_eq_true, Bool.not_eq_true'] at h ⊢
  grind

theorem owner_of_within {p q : BucketKeyPermissions} (h : p.within q = true)
    (hq : q.owner = false) : p.owner = false := by
  simp only [within, Bool.and_eq_true, Bool.or_eq_true, Bool.not_eq_true'] at h
  rcases h.2 with h | h
  · exact h
  · exact absurd (hq.symm.trans h) (by decide)

theorem within_none {p : BucketKeyPermissions} (h : p.within none = true) : p = none := by
  obtain ⟨r, w, o⟩ := p
  cases r <;> cases w <;> cases o <;> simp_all [within, none]

end BucketKeyPermissions

/-! ## state -/

structure GarageKey where
  id : String
  name : String
  /-- the permissions of the key, by bucket id -/
  grants : String → BucketKeyPermissions

structure GarageBucket where
  id : String
  globalAliases : List String
  quotas : BucketQuotas

def garageKeySchema : Schema String GarageKey where
  key := GarageKey.id
  check _ := true
  unique _ _ := false
  unique_symm _ _ := rfl

/-- a global alias names at most one bucket -/
def garageBucketSchema : Schema String GarageBucket where
  key := GarageBucket.id
  check _ := true
  unique a b := a.globalAliases.any fun name => decide (name ∈ b.globalAliases)
  unique_symm a b := by
    rw [Bool.eq_iff_iff, List.any_eq_true, List.any_eq_true]
    simp only [decide_eq_true_eq]
    exact ⟨fun ⟨n, ha, hb⟩ => ⟨n, hb, ha⟩, fun ⟨n, hb, ha⟩ => ⟨n, ha, hb⟩⟩

/-- the keys and buckets of a Garage and the ids issued for them so far -/
structure Garage where
  keys : Table garageKeySchema
  buckets : Table garageBucketSchema
  keyIds : List String
  bucketIds : List String
  keys_issued : ∀ k ∈ keys.rows, k.id ∈ keyIds
  buckets_issued : ∀ b ∈ buckets.rows, b.id ∈ bucketIds

def Garage.empty : Garage where
  keys := .empty _
  buckets := .empty _
  keyIds := []
  bucketIds := []
  keys_issued := fun _ h => by cases h
  buckets_issued := fun _ h => by cases h

/-- the key was issued and exists no more -/
def Garage.KeyGone (g : Garage) (id : String) : Prop :=
  id ∈ g.keyIds ∧ g.keys.lookup id = none

def Garage.BucketGone (g : Garage) (id : String) : Prop :=
  id ∈ g.bucketIds ∧ g.buckets.lookup id = none

/-! ## what the service relies on -/

/-- how a Garage may answer a call and change -/
abbrev GarageBehaviour := Garage → (call : GarageCall) → call.Answer → Garage → Prop

/-- a delete that answers success or 404 -/
def GarageCall.removed {α : Type} : Except GarageError α → Bool
  | .ok _ => true
  | .error e => e.isNotFound

/-- Ids are issued once, answers speak of issued ids, and what a delete reports gone is gone. -/
structure GarageBehaviour.Lawful (behaviour : GarageBehaviour) : Prop where
  keyIds : ∀ {g call a g'}, behaviour g call a g' → g.keyIds ⊆ g'.keyIds
  bucketIds : ∀ {g call a g'}, behaviour g call a g' → g.bucketIds ⊆ g'.bucketIds
  keys : ∀ {g call a g'}, behaviour g call a g' → ∀ k ∈ g'.keys.rows,
    (∃ old ∈ g.keys.rows, old.id = k.id) ∨ k.id ∉ g.keyIds
  buckets : ∀ {g call a g'}, behaviour g call a g' → ∀ b ∈ g'.buckets.rows,
    (∃ old ∈ g.buckets.rows, old.id = b.id) ∨ b.id ∉ g.bucketIds
  deleteKey : ∀ {g id a g'}, behaviour g (.deleteKey id) a g' → GarageCall.removed a = true →
    g'.keys.lookup id = none
  deleteBucket : ∀ {g id a g'}, behaviour g (.deleteBucket id) a g' →
    GarageCall.removed a = true → g'.buckets.lookup id = none
  listKeys : ∀ {g g'} {keys : List AccessKeySummary}, behaviour g .listKeys (.ok keys) g' →
    ∀ k ∈ keys, k.id ∈ g'.keyIds
  createKey : ∀ {g request g'} {key : AccessKey}, behaviour g (.createKey request) (.ok key) g' →
    key.accessKeyId ∈ g'.keyIds
  updateBucket : ∀ {g id quotas g'} {bucket : Bucket},
    behaviour g (.updateBucket id quotas) (.ok bucket) g' → bucket.id ∈ g'.bucketIds

/-- Calls about a bucket answer with that bucket; keys are made by `CreateKey` without permissions,
keep their names, and gain permissions by `AllowBucketKey` only. -/
structure GarageBehaviour.Confined (behaviour : GarageBehaviour) : Prop
    extends GarageBehaviour.Lawful behaviour where
  getBucket : ∀ {g id g'} {bucket : Bucket}, behaviour g (.getBucketInfo id) (.ok bucket) g' →
    bucket.id = id
  sameBucket : ∀ {g id quotas g'} {bucket : Bucket},
    behaviour g (.updateBucket id quotas) (.ok bucket) g' → bucket.id = id
  freshKey : ∀ {g request g'} {key : AccessKey}, behaviour g (.createKey request) (.ok key) g' →
    key.accessKeyId ∉ g.keyIds
  newKey : ∀ {g call a g'}, behaviour g call a g' → ∀ k ∈ g'.keys.rows, k.id ∉ g.keyIds →
    (∀ b, k.grants b = .none) ∧ ∃ request, call = .createKey request ∧ k.name = request.name
  oldKey : ∀ {g call a g'}, behaviour g call a g' → ∀ k ∈ g'.keys.rows, ∀ old ∈ g.keys.rows,
    old.id = k.id → k.name = old.name ∧ ∀ b, (k.grants b).within (old.grants b) = true ∨
      ∃ p, call = .allowBucketKey b k.id p ∧ (k.grants b).within ((old.grants b).or p) = true

/-- whatever the one may answer and do, the other may -/
def GarageBehaviour.Refines (behaviour other : GarageBehaviour) : Prop :=
  ∀ g call a g', behaviour g call a g' → other g call a g'

section
variable {behaviour : GarageBehaviour} {g g' : Garage} {call : GarageCall} {a : call.Answer}

theorem GarageBehaviour.Refines.refl : behaviour.Refines behaviour := fun _ _ _ _ h => h

/-- **what is gone stays gone** -/
theorem GarageBehaviour.Lawful.key_gone (law : behaviour.Lawful) (h : behaviour g call a g')
    {id : String} (hid : g.KeyGone id) : g'.KeyGone id := by
  refine ⟨law.keyIds h hid.1, Table.lookup_eq_none.mpr fun k hk hkey => ?_⟩
  have hkid : k.id = id := hkey
  rcases law.keys h k hk with ⟨old, hold, hsame⟩ | hnew
  · exact Table.lookup_eq_none.mp hid.2 old hold (hsame.trans hkid)
  · exact hnew (hkid ▸ hid.1)

theorem GarageBehaviour.Lawful.bucket_gone (law : behaviour.Lawful) (h : behaviour g call a g')
    {id : String} (hid : g.BucketGone id) : g'.BucketGone id := by
  refine ⟨law.bucketIds h hid.1, Table.lookup_eq_none.mpr fun b hb hkey => ?_⟩
  have hbid : b.id = id := hkey
  rcases law.buckets h b hb with ⟨old, hold, hsame⟩ | hnew
  · exact Table.lookup_eq_none.mp hid.2 old hold (hsame.trans hbid)
  · exact hnew (hbid ▸ hid.1)

end

/-! ## the documented server -/

/-- what a Garage makes up: ids and secrets of new objects, and what clients store meanwhile -/
structure Draw where
  id : String
  secret : Option String
  objects : UInt64
  bytes : UInt64
  unfinishedUploads : UInt64
  unfinishedMultipartUploads : UInt64
  unfinishedMultipartUploadBytes : UInt64

def GarageBucket.info (b : GarageBucket) (d : Draw) : Bucket where
  id := b.id
  globalAliases := b.globalAliases
  objects := d.objects
  bytes := d.bytes
  unfinishedUploads := d.unfinishedUploads
  unfinishedMultipartUploads := d.unfinishedMultipartUploads
  unfinishedMultipartUploadBytes := d.unfinishedMultipartUploadBytes

namespace Garage

/-- the bucket a global alias names -/
def bucketOf (g : Garage) (name : String) : Option GarageBucket :=
  g.buckets.rows.find? fun b => decide (name ∈ b.globalAliases)

/-- all keys, with other grants -/
def regrant (g : Garage) (f : GarageKey → String → BucketKeyPermissions) : Garage :=
  { g with
    keys := g.keys.mapRows (fun k => { k with grants := f k }) (fun _ h => h) (fun _ _ => rfl)
    keys_issued := by
      intro k hk
      obtain ⟨old, hold, rfl⟩ := List.mem_map.mp hk
      exact g.keys_issued old hold }

/-- the grant of one key on one bucket changes -/
def changeGrant (g : Garage) (bucketId keyId : String)
    (f : BucketKeyPermissions → BucketKeyPermissions) : Garage :=
  g.regrant fun k b => if k.id = keyId ∧ b = bucketId then f (k.grants b) else k.grants b

def dropKey (g : Garage) (id : String) : Garage :=
  { g with
    keys := g.keys.deleteWhere (garageKeySchema.hasKey id)
    keys_issued := fun k hk => g.keys_issued k (Table.mem_deleteWhere.mp hk).1 }

/-- a bucket is deleted with the permissions on it -/
def dropBucket (g : Garage) (id : String) : Garage :=
  let g := g.regrant fun k b => if b = id then .none else k.grants b
  { g with
    buckets := g.buckets.deleteWhere (garageBucketSchema.hasKey id)
    buckets_issued := fun b hb => g.buckets_issued b (Table.mem_deleteWhere.mp hb).1 }

def setQuotas (g : Garage) (id : String) (quotas : BucketQuotas) : Garage :=
  { g with
    buckets := g.buckets.mapRows (fun b => if b.id = id then { b with quotas := quotas } else b)
      (fun _ h => h) (by
        intro a b
        have hclash : ∀ x : GarageBucket, ∀ y : GarageBucket, garageBucketSchema.clash
            (if x.id = id then { x with quotas := quotas } else x) y =
            garageBucketSchema.clash x y := by
          intro x y
          split <;> rfl
        rw [hclash, Schema.clash_symm, hclash, Schema.clash_symm])
    buckets_issued := by
      intro b hb
      obtain ⟨old, hold, rfl⟩ := List.mem_map.mp hb
      have hissued := g.buckets_issued old hold
      split <;> exact hissued }

def addKey (g : Garage) (k : GarageKey) (keys : Table garageKeySchema)
    (h : g.keys.insert k = .ok keys) : Garage :=
  { g with
    keys := keys
    keyIds := k.id :: g.keyIds
    keys_issued := by
      intro q hq
      rcases (Table.mem_insert h).mp hq with hq | rfl
      · exact List.mem_cons_of_mem _ (g.keys_issued q hq)
      · exact List.mem_cons_self }

def addBucket (g : Garage) (b : GarageBucket) (buckets : Table garageBucketSchema)
    (h : g.buckets.insert b = .ok buckets) : Garage :=
  { g with
    buckets := buckets
    bucketIds := b.id :: g.bucketIds
    buckets_issued := by
      intro q hq
      rcases (Table.mem_insert h).mp hq with hq | rfl
      · exact List.mem_cons_of_mem _ (g.buckets_issued q hq)
      · exact List.mem_cons_self }

/-- a key under an id that was never issued; no other id is drawn -/
def newKey (g : Garage) (d : Draw) (name : String) : Except UInt16 (AccessKey × Garage) :=
  if d.id ∈ g.keyIds then .error 500
  else match h : g.keys.insert ⟨d.id, name, fun _ => .none⟩ with
    | .ok keys => .ok (⟨d.id, d.secret⟩, g.addKey _ keys h)
    | .error _ => .error 500

def newBucket (g : Garage) (d : Draw) (name : String) : Except UInt16 (Bucket × Garage) :=
  if d.id ∈ g.bucketIds then .error 500
  else match h : g.buckets.insert ⟨d.id, [name], .unlimited⟩ with
    | .ok buckets => .ok (GarageBucket.info ⟨d.id, [name], .unlimited⟩ d, g.addBucket _ buckets h)
    | .error _ => .error 409

/-- `AllowBucketKey` and `DenyBucketKey`: only the `true` bits are changed -/
def serveGrant (g : Garage) (d : Draw) (bucketId keyId : String)
    (f : BucketKeyPermissions → BucketKeyPermissions) : Except UInt16 (Bucket × Garage) :=
  match g.buckets.lookup bucketId, g.keys.lookup keyId with
  | some b, some _ => .ok (b.info d, g.changeGrant bucketId keyId f)
  | _, _ => .error 404

/-- the documented effect of a call and its result, or the status it is refused with -/
def serve (g : Garage) (d : Draw) : (call : GarageCall) → Except UInt16 (call.Result × Garage)
  | .createBucket name => g.newBucket d name
  | .getBucketInfo id =>
    match g.buckets.lookup id with
    | some b => .ok (b.info d, g)
    | none => .error 404
  | .getBucketInfoByAlias name =>
    match g.bucketOf name with
    | some b => .ok (b.info d, g)
    | none => .error 404
  | .updateBucket id quotas =>
    match g.buckets.lookup id with
    | some b => .ok (b.info d, g.setQuotas id quotas)
    | none => .error 404
  | .deleteBucket id =>
    if (g.buckets.lookup id).isSome then .ok ((), g.dropBucket id) else .error 404
  | .listKeys => .ok (g.keys.rows.map fun k => ⟨k.id, k.name⟩, g)
  | .createKey request => g.newKey d request.name
  | .deleteKey id =>
    if (g.keys.lookup id).isSome then .ok ((), g.dropKey id) else .error 404
  | .allowBucketKey bucketId keyId permissions =>
    g.serveGrant d bucketId keyId fun p => p.or permissions
  | .denyBucketKey bucketId keyId permissions =>
    g.serveGrant d bucketId keyId fun p => p.without permissions

/-- A call is served or refused as documented; or it takes effect and its answer is lost; or it
fails without effect.  Only a refusal says 404. -/
inductive Documented (g : Garage) : (call : GarageCall) → call.Answer → Garage → Prop
  | served {call : GarageCall} {d : Draw} {r : call.Result} {g' : Garage} :
      g.serve d call = .ok (r, g') → Documented g call (.ok r) g'
  | refused {call : GarageCall} {d : Draw} {status : UInt16} {e : GarageError} :
      g.serve d call = .error status → e.statusCode = some status →
      Documented g call (.error e) g
  | lost {call : GarageCall} {d : Draw} {r : call.Result} {g' : Garage} {e : GarageError} :
      g.serve d call = .ok (r, g') → e.isNotFound = false → Documented g call (.error e) g'
  | failed {call : GarageCall} {e : GarageError} : e.isNotFound = false →
      Documented g call (.error e) g

/-! ## what a call can change -/

/-- the effects of the calls -/
inductive Change (g : Garage) : GarageCall → Garage → Prop
  | same {call : GarageCall} : Change g call g
  | keyAdded {request : CreateKeyRequest} {id : String} {keys : Table garageKeySchema}
      (h : g.keys.insert ⟨id, request.name, fun _ => .none⟩ = .ok keys) : id ∉ g.keyIds →
      Change g (.createKey request) (g.addKey _ keys h)
  | bucketAdded {name id : String} {buckets : Table garageBucketSchema}
      (h : g.buckets.insert ⟨id, [name], .unlimited⟩ = .ok buckets) : id ∉ g.bucketIds →
      Change g (.createBucket name) (g.addBucket _ buckets h)
  | keyDropped {id : String} : Change g (.deleteKey id) (g.dropKey id)
  | bucketDropped {id : String} : Change g (.deleteBucket id) (g.dropBucket id)
  | quotas {id : String} {quotas : BucketQuotas} :
      Change g (.updateBucket id quotas) (g.setQuotas id quotas)
  | allowed {b k : String} {p : BucketKeyPermissions} :
      Change g (.allowBucketKey b k p) (g.changeGrant b k fun q => q.or p)
  | denied {b k : String} {p : BucketKeyPermissions} :
      Change g (.denyBucketKey b k p) (g.changeGrant b k fun q => q.without p)

section
variable {g g' : Garage} {d : Draw}

theorem newKey_eq_ok {name : String} {key : AccessKey}
    (h : g.newKey d name = .ok (key, g')) :
    d.id ∉ g.keyIds ∧ key = ⟨d.id, d.secret⟩ ∧
      ∃ keys, ∃ hi : g.keys.insert ⟨d.id, name, fun _ => .none⟩ = .ok keys,
        g' = g.addKey _ keys hi := by
  unfold newKey at h
  split at h
  · cases h
  rename_i hfresh
  split at h
  · rename_i keys hi
    obtain ⟨rfl, rfl⟩ := Prod.mk.inj (Except.ok.inj h)
    exact ⟨hfresh, rfl, keys, hi, rfl⟩
  · cases h

theorem newBucket_eq_ok {name : String} {bucket : Bucket}
    (h : g.newBucket d name = .ok (bucket, g')) :
    d.id ∉ g.bucketIds ∧ bucket = GarageBucket.info ⟨d.id, [name], .unlimited⟩ d ∧
      ∃ buckets, ∃ hi : g.buckets.insert ⟨d.id, [name], .unlimited⟩ = .ok buckets,
        g' = g.addBucket _ buckets hi := by
  unfold newBucket at h
  split at h
  · cases h
  rename_i hfresh
  split at h
  · rename_i buckets hi
    obtain ⟨rfl, rfl⟩ := Prod.mk.inj (Except.ok.inj h)
    exact ⟨hfresh, rfl, buckets, hi, rfl⟩
  · cases h

theorem serveGrant_eq_ok {b k : String} {f : BucketKeyPermissions → BucketKeyPermissions}
    {bucket : Bucket} (h : g.serveGrant d b k f = .ok (bucket, g')) :
    (∃ row, g.buckets.lookup b = some row ∧ bucket = row.info d) ∧
      (g.keys.lookup k).isSome = true ∧ g' = g.changeGrant b k f := by
  unfold serveGrant at h
  split at h
  · rename_i row key hb hk
    obtain ⟨rfl, rfl⟩ := Prod.mk.inj (Except.ok.inj h)
    exact ⟨⟨row, hb, rfl⟩, by rw [hk]; rfl, rfl⟩
  · cases h

/-- **what a served call can change** -/
theorem serve_change {call : GarageCall} {r : call.Result} (h : g.serve d call = .ok (r, g')) :
    g.Change call g' := by
  cases call with
  | createBucket name =>
    obtain ⟨hfresh, -, buckets, hi, rfl⟩ := newBucket_eq_ok h
    exact .bucketAdded hi hfresh
  | getBucketInfo id =>
    simp only [serve] at h
    split at h
    · obtain ⟨-, rfl⟩ := Prod.mk.inj (Except.ok.inj h)
      exact .same
    · cases h
  | getBucketInfoByAlias name =>
    simp only [serve] at h
    split at h
    · obtain ⟨-, rfl⟩ := Prod.mk.inj (Except.ok.inj h)
      exact .same
    · cases h
  | updateBucket id quotas =>
    simp only [serve] at h
    split at h
    · obtain ⟨-, rfl⟩ := Prod.mk.inj (Except.ok.inj h)
      exact .quotas
    · cases h
  | deleteBucket id =>
    simp only [serve] at h
    split at h
    · obtain ⟨-, rfl⟩ := Prod.mk.inj (Except.ok.inj h)
      exact .bucketDropped
    · cases h
  | listKeys =>
    obtain ⟨-, rfl⟩ := Prod.mk.inj (Except.ok.inj h)
    exact .same
  | createKey request =>
    obtain ⟨hfresh, -, keys, hi, rfl⟩ := newKey_eq_ok h
    exact .keyAdded hi hfresh
  | deleteKey id =>
    simp only [serve] at h
    split at h
    · obtain ⟨-, rfl⟩ := Prod.mk.inj (Except.ok.inj h)
      exact .keyDropped
    · cases h
  | allowBucketKey b k p =>
    obtain ⟨-, -, rfl⟩ := serveGrant_eq_ok h
    exact .allowed
  | denyBucketKey b k p =>
    obtain ⟨-, -, rfl⟩ := serveGrant_eq_ok h
    exact .denied

theorem Documented.change {call : GarageCall} {a : call.Answer} (h : g.Documented call a g') :
    g.Change call g' := by
  cases h with
  | served h => exact serve_change h
  | refused _ _ => exact .same
  | lost h _ => exact serve_change h
  | failed _ => exact .same

/-- a successful answer was served -/
theorem Documented.answered {call : GarageCall} {r : call.Result}
    (h : g.Documented call (.ok r) g') : ∃ d, g.serve d call = .ok (r, g') := by
  cases h with
  | served h => exact ⟨_, h⟩

theorem mem_regrant {f : GarageKey → String → BucketKeyPermissions} {k : GarageKey} :
    k ∈ (g.regrant f).keys.rows ↔ ∃ old ∈ g.keys.rows, { old with grants := f old } = k :=
  List.mem_map

theorem Change.keyIds {call : GarageCall} (h : g.Change call g') : g.keyIds ⊆ g'.keyIds := by
  cases h with
  | keyAdded => exact List.subset_cons_self _ _
  | _ => exact List.Subset.refl _

theorem Change.bucketIds {call : GarageCall} (h : g.Change call g') :
    g.bucketIds ⊆ g'.bucketIds := by
  cases h with
  | bucketAdded => exact List.subset_cons_self _ _
  | _ => exact List.Subset.refl _

/-- **where a key comes from**: it was there before, or `CreateKey` made it -/
theorem Change.key_origin {call : GarageCall} (h : g.Change call g') {k : GarageKey}
    (hk : k ∈ g'.keys.rows) :
    (∃ old ∈ g.keys.rows, old.id = k.id ∧ k.name = old.name ∧
      ∀ b, (k.grants b).within (old.grants b) = true ∨
        ∃ p, call = .allowBucketKey b k.id p ∧
          (k.grants b).within ((old.grants b).or p) = true) ∨
    k.id ∉ g.keyIds ∧ (∀ b, k.grants b = .none) ∧
      ∃ request, call = .createKey request ∧ k.name = request.name := by
  have hsame : k ∈ g.keys.rows → ∃ old ∈ g.keys.rows, old.id = k.id ∧ k.name = old.name ∧
      ∀ b, (k.grants b).within (old.grants b) = true ∨ ∃ p, call = .allowBucketKey b k.id p ∧
        (k.grants b).within ((old.grants b).or p) = true :=
    fun hk => ⟨k, hk, rfl, rfl, fun b => .inl (by simp)⟩
  cases h with
  | same => exact .inl (hsame hk)
  | @keyAdded request id keys hi hfresh =>
    rcases (Table.mem_insert hi).mp hk with hk | rfl
    · exact .inl (hsame hk)
    · exact .inr ⟨hfresh, fun _ => rfl, request, rfl, rfl⟩
  | bucketAdded => exact .inl (hsame hk)
  | keyDropped => exact .inl (hsame (Table.mem_deleteWhere.mp hk).1)
  | @bucketDropped id =>
    obtain ⟨old, hold, rfl⟩ := mem_regrant.mp hk
    refine .inl ⟨old, hold, rfl, rfl, fun b => .inl ?_⟩
    by_cases hb : b = id <;> simp [hb]
  | quotas => exact .inl (hsame hk)
  | @allowed b' id p =>
    obtain ⟨old, hold, rfl⟩ := mem_regrant.mp hk
    refine .inl ⟨old, hold, rfl, rfl, fun b => ?_⟩
    by_cases hb : old.id = id ∧ b = b'
    · obtain ⟨rfl, rfl⟩ := hb
      exact .inr ⟨p, rfl, by simp⟩
    · exact .inl (by simp [hb])
  | @denied b' id p =>
    obtain ⟨old, hold, rfl⟩ := mem_regrant.mp hk
    refine .inl ⟨old, hold, rfl, rfl, fun b => .inl ?_⟩
    by_cases hb : old.id = id ∧ b = b' <;> simp [hb]

/-- where a bucket comes from -/
theorem Change.bucket_origin {call : GarageCall} (h : g.Change call g') {b : GarageBucket}
    (hb : b ∈ g'.buckets.rows) :
    (∃ old ∈ g.buckets.rows, old.id = b.id) ∨ b.id ∉ g.bucketIds := by
  cases h with
  | @bucketAdded name id buckets hi hfresh =>
    rcases (Table.mem_insert hi).mp hb with hb | rfl
    · exact .inl ⟨b, hb, rfl⟩
    · exact .inr hfresh
  | bucketDropped => exact .inl ⟨b, (Table.mem_deleteWhere.mp hb).1, rfl⟩
  | quotas =>
    obtain ⟨old, hold, rfl⟩ := List.mem_map.mp hb
    refine .inl ⟨old, hold, ?_⟩
    split <;> rfl
  | _ => exact .inl ⟨b, hb, rfl⟩

/-! ## the laws -/

@[simp] theorem lookup_dropKey (id k : String) :
    (g.dropKey id).keys.lookup k = if k = id then none else g.keys.lookup k :=
  Table.lookup_deleteKey _ _ _

@[simp] theorem lookup_dropBucket (id b : String) :
    (g.dropBucket id).buckets.lookup b = if b = id then none else g.buckets.lookup b :=
  Table.lookup_deleteKey _ _ _

/-- a delete that reports its object gone has removed it or found nothing to remove -/
theorem Documented.removed {call : GarageCall} {a : call.Answer} (h : g.Documented call a g')
    (ha : GarageCall.removed a = true) :
    (∃ d r, g.serve d call = .ok (r, g')) ∨ ∃ d, g.serve d call = .error 404 ∧ g' = g := by
  cases h with
  | served h => exact .inl ⟨_, _, h⟩
  | @refused d _ _ h hstatus =>
    have hcode := of_decide_eq_true ha
    rw [hstatus] at hcode
    exact .inr ⟨d, Option.some.inj hcode ▸ h, rfl⟩
  | lost _ hnot => exact absurd (hnot.symm.trans ha) (by decide)
  | failed hnot => exact absurd (hnot.symm.trans ha) (by decide)

/-- what a delete reported gone is not there -/
theorem Documented.dropped {call : GarageCall} {a : call.Answer} {r : call.Result}
    {there : Garage → Bool} {drop : Garage → Garage}
    (hserve : ∀ d, g.serve d call = if there g then .ok (r, drop g) else .error 404)
    (hdrop : there (drop g) = false) (h : g.Documented call a g')
    (ha : GarageCall.removed a = true) : there g' = false := by
  obtain ⟨d, r', h⟩ | ⟨d, h, rfl⟩ := h.removed ha <;> rw [hserve] at h <;> split at h
  · obtain ⟨-, rfl⟩ := Prod.mk.inj (Except.ok.inj h)
    exact hdrop
  · cases h
  · cases h
  · rename_i hnone
    exact Bool.eq_false_iff.mpr hnone

theorem Documented.deleteKey {id : String} {a : (GarageCall.deleteKey id).Answer}
    (h : g.Documented (.deleteKey id) a g') (ha : GarageCall.removed a = true) :
    g'.keys.lookup id = none := by
  have hgone := @dropped g g' (.deleteKey id) a () (fun g => (g.keys.lookup id).isSome)
    (fun g => g.dropKey id) (fun _ => rfl) (by simp) h ha
  simpa using hgone

theorem Documented.deleteBucket {id : String} {a : (GarageCall.deleteBucket id).Answer}
    (h : g.Documented (.deleteBucket id) a g') (ha : GarageCall.removed a = true) :
    g'.buckets.lookup id = none := by
  have hgone := @dropped g g' (.deleteBucket id) a () (fun g => (g.buckets.lookup id).isSome)
    (fun g => g.dropBucket id) (fun _ => rfl) (by simp) h ha
  simpa using hgone

/-- an answer with a bucket found by its id -/
theorem serve_updateBucket {id : String} {quotas : BucketQuotas} {bucket : Bucket}
    (h : g.serve d (.updateBucket id quotas) = .ok (bucket, g')) :
    ∃ row, g.buckets.lookup id = some row ∧ bucket = row.info d ∧ g' = g.setQuotas id quotas := by
  simp only [serve] at h
  split at h
  · rename_i row hrow
    obtain ⟨rfl, rfl⟩ := Prod.mk.inj (Except.ok.inj h)
    exact ⟨row, hrow, rfl, rfl⟩
  · cases h

theorem serve_getBucketInfo {id : String} {bucket : Bucket}
    (h : g.serve d (.getBucketInfo id) = .ok (bucket, g')) :
    g' = g ∧ ∃ row, g.buckets.lookup id = some row ∧ bucket = row.info d := by
  simp only [serve] at h
  split at h
  · rename_i row hrow
    obtain ⟨rfl, rfl⟩ := Prod.mk.inj (Except.ok.inj h)
    exact ⟨rfl, row, hrow, rfl⟩
  · cases h

/-- **the documented server is lawful** -/
theorem documented_lawful : GarageBehaviour.Lawful Documented where
  keyIds h := h.change.keyIds
  bucketIds h := h.change.bucketIds
  keys h k hk := by
    obtain ⟨old, hold, hid, -⟩ | ⟨hnew, -⟩ := h.change.key_origin hk
    · exact .inl ⟨old, hold, hid⟩
    · exact .inr hnew
  buckets h b hb := h.change.bucket_origin hb
  deleteKey h ha := h.deleteKey ha
  deleteBucket h ha := h.deleteBucket ha
  listKeys h k hk := by
    obtain ⟨d, h⟩ := h.answered
    obtain ⟨rfl, rfl⟩ := Prod.mk.inj (Except.ok.inj h)
    obtain ⟨row, hrow, rfl⟩ := List.mem_map.mp hk
    exact Garage.keys_issued _ row hrow
  createKey h := by
    obtain ⟨d, h⟩ := h.answered
    obtain ⟨-, rfl, keys, hi, rfl⟩ := newKey_eq_ok h
    exact List.mem_cons_self
  updateBucket {g id quotas g' bucket} h := by
    obtain ⟨d, h⟩ := h.answered
    obtain ⟨row, hrow, rfl, rfl⟩ := serve_updateBucket h
    exact g.buckets_issued row (Table.lookup_eq_some.mp hrow).1

/-- **the documented server is confined** -/
theorem documented_confined : GarageBehaviour.Confined Documented where
  toLawful := documented_lawful
  getBucket h := by
    obtain ⟨d, h⟩ := h.answered
    obtain ⟨-, row, hrow, rfl⟩ := serve_getBucketInfo h
    exact Table.lookup_key hrow
  sameBucket h := by
    obtain ⟨d, h⟩ := h.answered
    obtain ⟨row, hrow, rfl, -⟩ := serve_updateBucket h
    exact Table.lookup_key hrow
  freshKey h := by
    obtain ⟨d, h⟩ := h.answered
    obtain ⟨hfresh, rfl, -⟩ := newKey_eq_ok h
    exact hfresh
  newKey {g call a g'} h k hk hnew := by
    obtain ⟨old, hold, hid, -⟩ | ⟨-, hgrants, hrequest⟩ := h.change.key_origin hk
    · exact absurd (g.keys_issued old hold) (hid ▸ hnew)
    · exact ⟨hgrants, hrequest⟩
  oldKey {g call a g'} h k hk old hold hid := by
    obtain ⟨q, hq, hqid, hname, hgrants⟩ | ⟨hnew, -⟩ := h.change.key_origin hk
    · obtain rfl := g.keys.eq_of_key hq hold (hqid.trans hid.symm)
      exact ⟨hname, hgrants⟩
    · exact absurd (g.keys_issued old hold) (hid ▸ hnew)

end

end Garage

/-! ## the server as a function -/

/-- a request is served; or served and its answer lost; or it never arrives -/
inductive Outcome where
  | served
  | lost
  | failed
  deriving DecidableEq, Repr

/-- an answer that does not arrive -/
def noAnswer : GarageError := .transport "request" "timed out"

/-- a refusal -/
def refusal (status : UInt16) : GarageError := .api "request" ⟨status, "refused"⟩ ""

def Garage.perform (g : Garage) (d : Draw) (outcome : Outcome) (call : GarageCall) :
    call.Answer × Garage :=
  match outcome, g.serve d call with
  | .failed, _ => (.error noAnswer, g)
  | _, .error status => (.error (refusal status), g)
  | .served, .ok (result, g') => (.ok result, g')
  | .lost, .ok (_, g') => (.error noAnswer, g')

theorem Garage.perform_documented (g : Garage) (d : Draw) (outcome : Outcome) (call : GarageCall) :
    g.Documented call (g.perform d outcome call).1 (g.perform d outcome call).2 := by
  have hnone : noAnswer.isNotFound = false := rfl
  unfold Garage.perform
  split
  · exact .failed hnone
  · rename_i h
    exact .refused h rfl
  · rename_i h
    exact .served h
  · rename_i h
    exact .lost h hnone

end Syouyu
