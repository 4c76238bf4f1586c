import Mathlib.Data.Set.Card
import Syouyu.Lib.Run
import Syouyu.Store.Models

/-!
# The registry

What the service keeps for its tenants, with nothing of how: no receipts, reservations or leases,
no Garage, no requests.  An entry of the registry's history is an operation under the idempotency
key of the request that asked for it.

* `Registry`            services, credentials, and the keys that are used up;
* `Registry.Apply`      what an operation does, and when it may;
* `Registry.Step`       an operation under a key that has not been used;
* `Registry.Live`       an active credential belongs to a live service of its organization, kept by
                        every run (`Registry.Live.run`);
* `Registry.run_keyed`  no key occurs twice in a history.
-/

namespace Syouyu
open Lib

namespace Registry

structure Service where
  organizationId : Uuid
  projectId : Uuid
  name : String
  generation : ℤ
  spec : SyouyuSpec
  bucketId : String
  live : Bool

structure Credential where
  serviceInstanceId : Uuid
  organizationId : Uuid
  name : String
  garageKeyId : String
  permissions : BucketPermissions
  active : Bool

/-- what a tenant can have done -/
inductive Op where
  | reconcile (s : Uuid) (service : Service)
  | delete (s : Uuid)
  | issue (id : Uuid) (credential : Credential)
  | revoke (s id : Uuid)

structure Entry where
  key : Uuid
  op : Op

/-- `new` may take the place of `old`: the same state again, or a later generation of it -/
structure Service.Precedes (old new : Service) : Prop where
  live : old.live = true
  organization : new.organizationId = old.organizationId
  project : new.projectId = old.projectId
  bucketName : new.spec.bucketName = old.spec.bucketName
  generation : new = old ∨ old.generation < new.generation

/-- a service after its deletion -/
def Service.retired (service : Service) : Service :=
  { service with generation := service.generation + 1, live := false }

def Credential.dropped (credential : Credential) : Credential := { credential with active := false }

/-- a credential after the deletion of the service `s` -/
def Credential.after (s : Uuid) (credential : Credential) : Credential :=
  if credential.serviceInstanceId = s then credential.dropped else credential

end Registry

open Registry in
@[ext]
structure Registry where
  services : Uuid → Option Service
  credentials : Uuid → Option Credential
  /-- the idempotency keys of the operations done so far -/
  done : Set Uuid

namespace Registry

def empty : Registry := ⟨fun _ => none, fun _ => none, ∅⟩

/-- nothing another service has is taken by `service` -/
structure Free (r : Registry) (s : Uuid) (service : Service) : Prop where
  name : ∀ s' other, s' ≠ s → r.services s' = some other →
    other.projectId = service.projectId → other.name ≠ service.name
  bucketName : ∀ s' other, s' ≠ s → r.services s' = some other →
    other.spec.bucketName ≠ service.spec.bucketName
  bucketId : ∀ s' other, s' ≠ s → r.services s' = some other → other.bucketId ≠ service.bucketId

/-- nothing another credential has is taken by `credential` -/
structure Unused (r : Registry) (credential : Credential) : Prop where
  name : ∀ id other, r.credentials id = some other →
    other.serviceInstanceId = credential.serviceInstanceId → other.name ≠ credential.name
  key : ∀ id other, r.credentials id = some other → other.garageKeyId ≠ credential.garageKeyId

/-- the active credentials of a kind -/
def active (r : Registry) (P : Credential → Prop) : Set Uuid :=
  {id | ∃ credential, r.credentials id = some credential ∧ credential.active = true ∧ P credential}

/-- one more active credential stays within the limits -/
structure Room (r : Registry) (limits : CredentialLimits) (credential : Credential) : Prop where
  bucket : (r.active fun c => c.serviceInstanceId = credential.serviceInstanceId).encard <
    limits.maxCredentialsPerBucket.toNat
  organization : (r.active fun c => c.organizationId = credential.organizationId).encard <
    limits.maxTotalCredentials.toNat

/-- **what an operation does, and when it may** -/
inductive Apply (limits : CredentialLimits) (r : Registry) : Op → Registry → Prop
  | reconcile {s : Uuid} {service : Service} : service.live = true → r.Free s service →
      (∀ old, r.services s = some old → old.Precedes service) →
      Apply limits r (.reconcile s service)
        { r with services := Function.update r.services s (some service) }
  | delete {s : Uuid} {service : Service} : r.services s = some service → service.live = true →
      Apply limits r (.delete s)
        { r with
          services := Function.update r.services s (some service.retired)
          credentials := fun id => (r.credentials id).map (Credential.after s) }
  | issue {id : Uuid} {credential : Credential} {service : Service} :
      r.services credential.serviceInstanceId = some service → service.live = true →
      service.organizationId = credential.organizationId → credential.active = true →
      r.credentials id = none → r.Unused credential → r.Room limits credential →
      Apply limits r (.issue id credential)
        { r with credentials := Function.update r.credentials id (some credential) }
  | revoke {s id : Uuid} {credential : Credential} {service : Service} :
      r.services s = some service → service.live = true → r.credentials id = some credential →
      credential.serviceInstanceId = s →
      Apply limits r (.revoke s id)
        { r with credentials := Function.update r.credentials id (some credential.dropped) }

/-- **an operation under a key that has not been used**, which is used up by it -/
structure Step (limits : CredentialLimits) (r : Registry) (entry : Entry) (r' : Registry) :
    Prop where
  fresh : entry.key ∉ r.done
  done : r'.done = insert entry.key r.done
  apply : Apply limits r entry.op { r' with done := r.done }

section
variable {limits : CredentialLimits} {r r' : Registry} {entry : Entry} {tr : List Entry}

/-- an active credential belongs to a live service of its organization -/
def Live (r : Registry) : Prop :=
  ∀ id credential, r.credentials id = some credential → credential.active = true →
    ∃ service, r.services credential.serviceInstanceId = some service ∧ service.live = true ∧
      service.organizationId = credential.organizationId

theorem Live.empty : Registry.empty.Live := by
  intro id credential h
  cases h

/-- a service that takes the place of one in its organization keeps the credentials of both -/
theorem Live.replaced (hr : r.Live) {s : Uuid} {service : Service} (hlive : service.live = true)
    (hold : ∀ old, r.services s = some old → service.organizationId = old.organizationId) :
    Live { r with services := Function.update r.services s (some service) } := by
  intro id credential hid hactive
  obtain ⟨old, hs, holdlive, horg⟩ := hr id credential hid hactive
  by_cases heq : credential.serviceInstanceId = s
  · subst heq
    exact ⟨service, Function.update_self .., hlive, (hold old hs).trans horg⟩
  · exact ⟨old, (Function.update_of_ne heq ..).trans hs, holdlive, horg⟩

theorem Live.recorded (hr : r.Live) {id : Uuid} {credential : Credential}
    (hnew : credential.active = true → ∃ service,
      r.services credential.serviceInstanceId = some service ∧ service.live = true ∧
        service.organizationId = credential.organizationId) :
    Live { r with credentials := Function.update r.credentials id (some credential) } := by
  intro id' credential' hid' hactive'
  dsimp only at hid'
  by_cases heq : id' = id
  · rw [heq, Function.update_self] at hid'
    obtain rfl := Option.some.inj hid'
    exact hnew hactive'
  · rw [Function.update_of_ne heq] at hid'
    exact hr id' credential' hid' hactive'

theorem Live.apply (hr : r.Live) {op : Op} (h : Apply limits r op r') : r'.Live := by
  cases h with
  | reconcile hlive _ hold => exact hr.replaced hlive fun old hs => (hold old hs).organization
  | @delete s service hs _ =>
    intro id credential hid hactive
    obtain ⟨before, hbefore, rfl⟩ := Option.map_eq_some_iff.mp hid
    -- what is still active after the deletion is not of the deleted service
    have hne : before.serviceInstanceId ≠ s := by
      intro heq
      rw [Credential.after, if_pos heq] at hactive
      exact Bool.false_ne_true hactive
    rw [Credential.after, if_neg hne] at hactive ⊢
    obtain ⟨other, hother, hlive, horg⟩ := hr id before hbefore hactive
    exact ⟨other, (Function.update_of_ne hne ..).trans hother, hlive, horg⟩
  | @issue id credential service hs hlive horg _ _ _ _ =>
    exact hr.recorded fun _ => ⟨service, hs, hlive, horg⟩
  | revoke _ _ _ _ => exact hr.recorded fun hactive => absurd hactive Bool.false_ne_true

theorem Live.step (hr : r.Live) (h : Step limits r entry r') : r'.Live :=
  have hafter : Live { r' with done := r.done } := hr.apply h.apply
  hafter

theorem Live.run (hr : r.Live) (h : Run (Step limits) r tr r') : r'.Live :=
  h.invariant Live (fun _ _ _ hr h => hr.step h) hr

/-- the keys of the history are those used up, each once -/
structure Keyed (tr : List Entry) (r : Registry) : Prop where
  done : ∀ k, k ∈ r.done ↔ k ∈ tr.map Entry.key
  once : (tr.map Entry.key).Nodup

theorem Keyed.step (hk : Keyed tr r) (h : Step limits r entry r') : Keyed (tr ++ [entry]) r' where
  done k := by
    rw [h.done, Set.mem_insert_iff, hk.done, List.map_append, List.mem_append, or_comm,
      List.map_singleton, List.mem_singleton]
  once := by
    have hfresh : entry.key ∉ tr.map Entry.key := fun hmem => h.fresh ((hk.done _).mpr hmem)
    rw [List.map_append, List.nodup_append]
    refine ⟨hk.once, List.nodup_singleton _, fun a ha b hb heq => hfresh ?_⟩
    rwa [← List.mem_singleton.mp hb, ← heq]

theorem run_keyed (h : Run (Step limits) Registry.empty tr r) : Keyed tr r :=
  h.history Keyed (fun _ _ _ _ hk h => hk.step h)
    ⟨fun _ => by simp [Registry.empty], List.nodup_nil⟩

end

end Registry

end Syouyu
