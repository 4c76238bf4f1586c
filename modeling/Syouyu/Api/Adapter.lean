import Syouyu.Api.Errors

/-!
# The Garage adapter

`garage.rs` of the crate `syouyu-api`: what the handlers ask of Garage, each a program over the
requests of the administration client.

* `GarageAdapter.reconcileBucket`    the bucket is found by id or by alias, or created; then its
                                     quotas are set;
* `GarageAdapter.createCredential`   keys of the same name are deleted, a new one is created and
                                     given its permissions; a key that cannot be is deleted again;
* `GarageAdapter.revokeCredential`, `GarageAdapter.deleteBucket`   an object that is not found is
                                     as good as deleted.
-/

namespace Syouyu
open Lib

structure ReconciledBucket where
  physicalBucketId : String
  deriving DecidableEq, Repr

structure IssuedCredential where
  garageKeyId : String
  accessKeyId : String
  secretAccessKey : String
  deriving DecidableEq, Repr

/-- `u64::saturating_add` -/
def saturatingAdd (a b : UInt64) : UInt64 :=
  if a.toNat + b.toNat < 2 ^ 64 then a + b else 18446744073709551615

def bucketIsEmpty (usage : BucketUsage) : Bool :=
  usage.bytes == 0 && usage.objects == 0 && usage.unfinishedUploadBytes == 0 &&
    usage.unfinishedUploads == 0

namespace GarageAdapter
open GarageAdminClient

/-- the bucket of `reconcile_bucket`: an existing one must still have its alias -/
def findBucket (existing : Option String) (spec : SyouyuSpec) :
    GarageM GarageBackendError Bucket :=
  match existing with
  | some bucketId => do
    let bucket ← (getBucket bucketId).mapError .ofGarage
    if bucket.globalAliases.any (fun name => name == spec.bucketName) then pure bucket
    else Prog.throw (.conflict "bucket_name is immutable after service creation")
  | none => do
    match ← (getBucketByAlias spec.bucketName).attempt with
    | .ok bucket => pure bucket
    | .error error =>
      if error.isNotFound then (createBucket spec.bucketName).mapError .ofGarage
      else Prog.throw (.ofGarage error)

def reconcileBucket (existing : Option String) (spec : SyouyuSpec) :
    GarageM GarageBackendError ReconciledBucket := do
  let bucket ← findBucket existing spec
  let bucket ← (updateBucketQuotas bucket.id
    (.limited spec.quotaBytes spec.quotaObjects)).mapError .ofGarage
  pure ⟨bucket.id⟩

def bucketUsage (physicalBucketId : String) : GarageM GarageBackendError BucketUsage := do
  let bucket ← (getBucket physicalBucketId).mapError .ofGarage
  pure
    { bytes := bucket.bytes
      objects := bucket.objects
      unfinishedUploadBytes := bucket.unfinishedMultipartUploadBytes
      unfinishedUploads :=
        saturatingAdd bucket.unfinishedUploads bucket.unfinishedMultipartUploads }

/-- success, or not found -/
def gone (request : GarageM GarageError Unit) : GarageM GarageBackendError Unit := do
  match ← request.attempt with
  | .ok () => pure ()
  | .error error => if error.isNotFound then pure () else Prog.throw (.ofGarage error)

def revokeCredential (garageKeyId : String) : GarageM GarageBackendError Unit :=
  gone (deleteKey garageKeyId)

def deleteBucket (physicalBucketId : String) : GarageM GarageBackendError Unit :=
  gone (GarageAdminClient.deleteBucket physicalBucketId)

/-- the loop over the keys left by earlier attempts -/
def deleteKeys : List String → GarageM GarageBackendError Unit
  | [] => pure ()
  | accessKeyId :: rest => do
    gone (deleteKey accessKeyId)
    deleteKeys rest

/-- the new key is deleted, whatever comes of it, and the error is returned -/
def abandonKey {α : Type} (accessKeyId : String) (error : GarageBackendError) :
    GarageM GarageBackendError α := do
  let _ ← (deleteKey accessKeyId).attempt
  Prog.throw error

/-- a new key is given its permissions; one that has no secret or cannot be permitted is deleted -/
def permitKey (physicalBucketId : String) (permissions : BucketPermissions) (key : AccessKey) :
    GarageM GarageBackendError IssuedCredential :=
  match key.secretAccessKey with
  | none =>
    abandonKey key.accessKeyId (.invalidResponse "Garage omitted secretAccessKey from CreateKey")
  | some secretAccessKey => do
    match ← (setBucketKeyPermissions physicalBucketId key.accessKeyId
      (.ofDomain permissions)).attempt with
    | .error error => abandonKey key.accessKeyId (.ofGarage error)
    | .ok _ => pure ⟨key.accessKeyId, key.accessKeyId, secretAccessKey⟩

def createCredential (physicalBucketId deterministicName : String)
    (permissions : BucketPermissions) : GarageM GarageBackendError IssuedCredential := do
  let keys ← listKeys.mapError .ofGarage
  deleteKeys ((keys.filter fun key => key.name == deterministicName).map AccessKeySummary.id)
  let key ← (createKey (.new deterministicName none)).mapError .ofGarage
  permitKey physicalBucketId permissions key

end GarageAdapter

end Syouyu
