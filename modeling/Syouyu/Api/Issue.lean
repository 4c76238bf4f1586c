import Syouyu.Api.Rules
import Syouyu.Garage.Server

/-!
# Issuing a key

`GarageAdapter::create_credential` beside a documented Garage, where every request may fail before
or after it took effect.

* `Issuing`      what holds after every request: other keys are as they were, and a key created
                 meanwhile has the name and at most the permissions asked for;
* `Sole`         one key of the name, with these permissions on the bucket and no others;
* `createCredential_ensures`   the execution, request by request;
* `issuance_confined`          what follows for executions.
-/

set_option linter.unusedSectionVars false

namespace Syouyu
open Lib Lib.Prog

/-! ## what every request keeps -/

/-- a Garage on the way from `g₀`, while a key of the name `name` is issued for the bucket `b` with
the permissions `p` -/
structure Issuing (g₀ : Garage) (b name : String) (p : BucketKeyPermissions) (g : Garage) :
    Prop where
  /-- keys of other names are there, with all their permissions -/
  kept : ∀ k ∈ g₀.keys.rows, k.name ≠ name → k ∈ g.keys.rows
  issued : g₀.keyIds ⊆ g.keyIds
  /-- a new key has the name, at most the permissions on the bucket, and none elsewhere -/
  fresh : ∀ k ∈ g.keys.rows, k.id ∉ g₀.keyIds → k.name = name ∧ (k.grants b).within p = true ∧
    ∀ b', b' ≠ b → k.grants b' = .none

/-- the requests that keep this: old keys of other names are not touched, and permissions are given
to new keys only -/
def GarageCall.Issues (g₀ : Garage) (b name : String) (p : BucketKeyPermissions) :
    GarageCall → Prop
  | .listKeys => True
  | .deleteKey id => ∀ k ∈ g₀.keys.rows, k.id = id → k.name = name
  | .createKey request => request.name = name
  | .allowBucketKey b' id p' => b' = b ∧ id ∉ g₀.keyIds ∧ p' = p
  | .denyBucketKey b' id _ => b' = b ∧ id ∉ g₀.keyIds
  | _ => False

section
variable {g₀ g g' : Garage} {b name : String} {p : BucketKeyPermissions}

theorem Issuing.refl : Issuing g₀ b name p g₀ :=
  ⟨fun _ hk _ => hk, List.Subset.refl _, fun k hk hnew => absurd (g₀.keys_issued k hk) hnew⟩

/-- the grants of one new key change on the bucket, within the permissions -/
theorem Issuing.changeGrant (h : Issuing g₀ b name p g) {id : String} (hid : id ∉ g₀.keyIds)
    {f : BucketKeyPermissions → BucketKeyPermissions}
    (hf : ∀ q : BucketKeyPermissions, q.within p = true → (f q).within p = true) :
    Issuing g₀ b name p (g.changeGrant b id f) := by
  refine ⟨fun k hk hname => ?_, h.issued, fun k hk hnew => ?_⟩
  · have hne : k.id ≠ id := fun he => hid (he ▸ g₀.keys_issued k hk)
    refine Garage.mem_regrant.mpr ⟨k, h.kept k hk hname, ?_⟩
    simp only [hne, false_and, if_false]
  · obtain ⟨old, hold, rfl⟩ := Garage.mem_regrant.mp hk
    obtain ⟨hname, hwithin, helse⟩ := h.fresh old hold hnew
    refine ⟨hname, ?_, fun b' hb' => ?_⟩
    · dsimp only
      split
      · exact hf _ hwithin
      · exact hwithin
    · simp only [hb', and_false, if_false]
      exact helse b' hb'

/-- **what every request keeps** -/
theorem Issuing.change (h : Issuing g₀ b name p g) {call : GarageCall}
    (hcall : call.Issues g₀ b name p) (hc : g.Change call g') : Issuing g₀ b name p g' := by
  cases hc with
  | same => exact h
  | @keyAdded request id keys hi hfresh =>
    refine ⟨fun k hk hname => (Table.mem_insert hi).mpr (.inl (h.kept k hk hname)),
      fun x hx => List.mem_cons_of_mem _ (h.issued hx), fun k hk hnew => ?_⟩
    rcases (Table.mem_insert hi).mp hk with hk | rfl
    · exact h.fresh k hk hnew
    · exact ⟨hcall, BucketKeyPermissions.none_within p, fun _ _ => rfl⟩
  | bucketAdded => exact hcall.elim
  | @keyDropped id =>
    refine ⟨fun k hk hname => Table.mem_deleteWhere.mpr ⟨h.kept k hk hname, ?_⟩, h.issued,
      fun k hk hnew => h.fresh k (Table.mem_deleteWhere.mp hk).1 hnew⟩
    have hne : k.id ≠ id := fun he => hname (hcall k hk he)
    exact decide_eq_false hne
  | bucketDropped => exact hcall.elim
  | quotas => exact hcall.elim
  | allowed =>
    obtain ⟨rfl, hid, rfl⟩ := hcall
    exact h.changeGrant hid fun q hq => BucketKeyPermissions.or_within hq
  | denied =>
    obtain ⟨rfl, hid⟩ := hcall
    exact h.changeGrant hid fun q hq => BucketKeyPermissions.within_trans (by simp) hq

/-! ## the key that is issued -/

/-- the only key of the name is `id`, with the permissions `q` on the bucket and none elsewhere -/
def Sole (b name id : String) (q : BucketKeyPermissions) (g : Garage) : Prop :=
  ∃ k ∈ g.keys.rows, k.id = id ∧ k.name = name ∧ (∀ k' ∈ g.keys.rows, k'.name = name → k' = k) ∧
    k.grants b = q ∧ ∀ b', b' ≠ b → k.grants b' = .none

theorem Sole.changeGrant {id : String} {q : BucketKeyPermissions} (h : Sole b name id q g)
    (f : BucketKeyPermissions → BucketKeyPermissions) :
    Sole b name id (f q) (g.changeGrant b id f) := by
  obtain ⟨k, hk, rfl, hname, hsole, rfl, helse⟩ := h
  refine ⟨_, Garage.mem_regrant.mpr ⟨k, hk, rfl⟩, rfl, hname, fun k' hk' hname' => ?_, ?_,
    fun b' hb' => ?_⟩
  · obtain ⟨old, hold, rfl⟩ := Garage.mem_regrant.mp hk'
    rw [hsole old hold hname']
  · simp only [and_self, if_true]
  · simp only [hb', and_false, if_false]
    exact helse b' hb'

/-- the key that `CreateKey` adds where there was none of the name -/
theorem Sole.added {id : String} {keys : Table garageKeySchema}
    (hnone : ∀ k ∈ g.keys.rows, k.name ≠ name)
    (hi : g.keys.insert ⟨id, name, fun _ => .none⟩ = .ok keys) :
    Sole b name id .none (g.addKey _ keys hi) := by
  refine ⟨_, (Table.mem_insert hi).mpr (.inr rfl), rfl, rfl, fun k' hk' hname => ?_, rfl,
    fun _ _ => rfl⟩
  rcases (Table.mem_insert hi).mp hk' with hk' | rfl
  · exact absurd hname (hnone k' hk')
  · rfl

theorem Garage.Change.deleteKey_subset {id : String} (h : g.Change (.deleteKey id) g') :
    g'.keys.rows ⊆ g.keys.rows := by
  cases h with
  | same => exact List.Subset.refl _
  | keyDropped => exact fun k hk => (Table.mem_deleteWhere.mp hk).1

/-! ## the execution -/

/-- a request that keeps what every request keeps; only its success says more -/
theorem issuing_checked (call : GarageCall) {checks : Except GarageError Unit}
    {P : Garage → call.Result → Prop} (h : Issuing g₀ b name p g)
    (hcall : call.Issues g₀ b name p)
    (hok : ∀ d (r : call.Result) g', Issuing g₀ b name p g' → g.serve d call = .ok (r, g') →
      P g' r) :
    (GarageAdminClient.checked checks call).Ensures Garage.Documented (Issuing g₀ b name p) P
      (fun g _ => Issuing g₀ b name p g) g := by
  refine checked_ensures (fun _ _ => h) fun a g' ha => ?_
  have h' := h.change hcall ha.change
  refine ⟨h', ?_⟩
  cases a with
  | ok r =>
    obtain ⟨d, hserve⟩ := ha.answered
    exact hok d r g' h' hserve
  | error e => exact h'

/-- while the stale keys are deleted, all keys of the name are among those still to be deleted -/
structure Clearing (g₀ : Garage) (b name : String) (p : BucketKeyPermissions)
    (rest : List String) (g : Garage) : Prop where
  issuing : Issuing g₀ b name p g
  stale : ∀ id ∈ rest, ∀ k ∈ g₀.keys.rows, k.id = id → k.name = name
  all : ∀ k ∈ g.keys.rows, k.name = name → k.id ∈ rest

/-- the list is complete, and what it names are keys of the name -/
theorem clearing_listed :
    Clearing g₀ b name p
      (((g₀.keys.rows.map fun k => AccessKeySummary.mk k.id k.name).filter
        fun key => key.name == name).map AccessKeySummary.id) g₀ := by
  refine ⟨.refl, fun id hid k hk hkid => ?_, fun k hk hname => ?_⟩
  · obtain ⟨key, hkey, rfl⟩ := List.mem_map.mp hid
    obtain ⟨hmem, hname⟩ := List.mem_filter.mp hkey
    obtain ⟨k', hk', rfl⟩ := List.mem_map.mp hmem
    obtain rfl := g₀.keys.eq_of_key hk hk' hkid
    exact beq_iff_eq.mp hname
  · exact List.mem_map.mpr ⟨⟨k.id, k.name⟩,
      List.mem_filter.mpr ⟨List.mem_map.mpr ⟨k, hk, rfl⟩, beq_iff_eq.mpr hname⟩, rfl⟩

theorem clearing_step {id : String} {rest : List String}
    (h : Clearing g₀ b name p (id :: rest) g) :
    (GarageAdminClient.deleteKey id).Ensures Garage.Documented (Issuing g₀ b name p)
      (fun g _ => Clearing g₀ b name p rest g)
      (fun g e => if e.isNotFound then Clearing g₀ b name p rest g else Issuing g₀ b name p g)
      g := by
  have hcall : (GarageCall.deleteKey id).Issues g₀ b name p := h.stale id List.mem_cons_self
  refine @checked_ensures Garage Garage.Documented (Issuing g₀ b name p) g
    (validateInput "access_key_id" id) (.deleteKey id) _ _ (fun e he => ?_) fun a g' ha => ?_
  · rw [if_neg (by rw [validateInput_error he]; exact Bool.false_ne_true)]
    exact h.issuing
  · have h' := h.issuing.change hcall ha.change
    have hgone : GarageCall.removed a = true → Clearing g₀ b name p rest g' := by
      intro hremoved
      refine ⟨h', fun i hi => h.stale i (List.mem_cons_of_mem _ hi), fun k hk hname => ?_⟩
      have hne : k.id ≠ id := by
        rintro rfl
        exact Table.lookup_eq_none.mp (ha.deleteKey hremoved) k hk rfl
      have hmem := h.all k (ha.change.deleteKey_subset hk) hname
      exact (List.mem_cons.mp hmem).resolve_left hne
    refine ⟨h', ?_⟩
    cases a with
    | ok u => exact hgone rfl
    | error e =>
      show if _ then _ else _
      split
      · rename_i he
        exact hgone he
      · exact h'

/-- the best-effort delete of the new key, and the error -/
theorem abandonKey_ensures {α : Type} {id : String} {error : GarageBackendError}
    {P : Garage → α → Prop} (h : Issuing g₀ b name p g) (hid : id ∉ g₀.keyIds) :
    (GarageAdapter.abandonKey id error).Ensures Garage.Documented (Issuing g₀ b name p) P
      (fun g _ => Issuing g₀ b name p g) g := by
  have hcall : (GarageCall.deleteKey id).Issues g₀ b name p :=
    fun k hk he => absurd (he ▸ g₀.keys_issued k hk) hid
  refine ensures_bind (P := fun g _ => Issuing g₀ b name p g) (ensures_attempt ?_)
    fun g' _ h' => ensures_throw h'
  exact issuing_checked (.deleteKey id) h hcall fun _ _ _ h' _ => h'

/-- denied everything, then allowed `p`: the new key has exactly `p` -/
theorem setBucketKeyPermissions_ensures {id : String} (h : Issuing g₀ b name p g)
    (hid : id ∉ g₀.keyIds) (hsole : Sole b name id .none g) :
    (GarageAdminClient.setBucketKeyPermissions b id p).Ensures Garage.Documented
      (Issuing g₀ b name p) (fun g _ => Issuing g₀ b name p g ∧ Sole b name id p g)
      (fun g _ => Issuing g₀ b name p g) g := by
  refine ensures_bind (P := fun g _ => Issuing g₀ b name p g ∧ Sole b name id .none g) ?_ ?_
  · refine issuing_checked (.denyBucketKey b id .all) h ⟨rfl, hid⟩ fun d r g' h' hserve => ?_
    obtain ⟨-, -, rfl⟩ := Garage.serveGrant_eq_ok hserve
    exact ⟨h', hsole.changeGrant _⟩
  · rintro g' revoked ⟨h', hsole'⟩
    split
    · rename_i hempty
      have hp : p = .none := BucketKeyPermissions.eq_none_of_isEmpty hempty
      exact ensures_pure ⟨h', hp ▸ hsole'⟩
    · refine issuing_checked (.allowBucketKey b id p) h' ⟨rfl, hid, rfl⟩
        fun d r g'' h'' hserve => ?_
      obtain ⟨-, -, rfl⟩ := Garage.serveGrant_eq_ok hserve
      exact ⟨h'', hsole'.changeGrant _⟩

end

section
variable {g₀ g : Garage} {b name : String} {permissions : BucketPermissions}

/-- an issued credential is the only key of the name, with exactly the permissions asked for -/
def IssuedExactly (b name : String) (permissions : BucketPermissions) (g : Garage)
    (issued : IssuedCredential) : Prop :=
  issued.accessKeyId = issued.garageKeyId ∧
    Sole b name issued.garageKeyId (.ofDomain permissions) g

theorem permitKey_ensures {key : AccessKey}
    (h : Issuing g₀ b name (.ofDomain permissions) g) (hid : key.accessKeyId ∉ g₀.keyIds)
    (hsole : Sole b name key.accessKeyId .none g) :
    (GarageAdapter.permitKey b permissions key).Ensures Garage.Documented
      (Issuing g₀ b name (.ofDomain permissions)) (IssuedExactly b name permissions)
      (fun g _ => Issuing g₀ b name (.ofDomain permissions) g) g := by
  unfold GarageAdapter.permitKey
  split
  · exact abandonKey_ensures h hid
  · refine ensures_bind
      (P := fun g answer => Issuing g₀ b name (.ofDomain permissions) g ∧
        ∀ r, answer = Except.ok r → Sole b name key.accessKeyId (.ofDomain permissions) g)
      (ensures_attempt ?_) ?_
    · refine (setBucketKeyPermissions_ensures h hid hsole).mono (fun _ h => h) ?_ ?_
      · exact fun g r hr => ⟨hr.1, fun _ _ => hr.2⟩
      · exact fun g e he => ⟨he, nofun⟩
    · rintro g' answer ⟨h', hset⟩
      cases answer with
      | error e => exact abandonKey_ensures h' hid
      | ok r => exact ensures_pure ⟨rfl, hset r rfl⟩

/-- **the execution**: stale keys are deleted, one is created and permitted -/
theorem createCredential_ensures :
    (GarageAdapter.createCredential b name permissions).Ensures Garage.Documented
      (Issuing g₀ b name (.ofDomain permissions)) (IssuedExactly b name permissions)
      (fun g _ => Issuing g₀ b name (.ofDomain permissions) g) g₀ := by
  let p := BucketKeyPermissions.ofDomain permissions
  refine ensures_bind (P := fun g (keys : List AccessKeySummary) => Clearing g₀ b name p
    ((keys.filter fun key => key.name == name).map AccessKeySummary.id) g) ?_ ?_
  · have hlist := @issuing_checked g₀ g₀ b name p .listKeys (.ok ())
      (fun g (keys : List AccessKeySummary) => Clearing g₀ b name p
        ((keys.filter fun key => key.name == name).map AccessKeySummary.id) g)
      .refl trivial fun d keys g h hserve => ?_
    · exact ensures_mapError hlist
    · obtain ⟨rfl, rfl⟩ := Prod.mk.inj (Except.ok.inj hserve)
      exact clearing_listed
  · intro g keys hclear
    refine ensures_bind (P := fun g _ => Clearing g₀ b name p [] g)
      (deleteKeys_ensures (fun _ _ _ h => clearing_step h) hclear) ?_
    intro g _ hclear
    refine ensures_bind (P := fun g (key : AccessKey) => Issuing g₀ b name p g ∧
      key.accessKeyId ∉ g₀.keyIds ∧ Sole b name key.accessKeyId .none g) (ensures_mapError ?_) ?_
    · refine issuing_checked (.createKey (.new name none)) hclear.issuing rfl
        fun d key g' h' hserve => ?_
      obtain ⟨hfresh, rfl, keys, hi, rfl⟩ := Garage.newKey_eq_ok hserve
      refine ⟨h', fun hold => hfresh (hclear.issuing.issued hold), Sole.added ?_ hi⟩
      exact fun k hk hname => absurd (hclear.all k hk hname) (List.not_mem_nil)
    · rintro g key ⟨h, hid, hsole⟩
      exact permitKey_ensures h hid hsole

/-- **the issuance of a key is confined and exact**, whichever requests fail before or after they
took effect and wherever the execution stops: keys of other names keep everything, an issued key is
the only one of its name with exactly its permissions, and what else was created holds no more -/
theorem issuance_confined {behaviour : GarageBehaviour} {g g' : Garage} {b name : String}
    {permissions : BucketPermissions} {log : Log GarageCall GarageCall.Answer}
    {rest : GarageM GarageBackendError IssuedCredential}
    (hdocumented : behaviour.Refines Garage.Documented)
    (h : Runs behaviour g (GarageAdapter.createCredential b name permissions) log g' rest) :
    (∀ k ∈ g.keys.rows, k.name ≠ name → k ∈ g'.keys.rows) ∧
      (∀ issued, rest = .done (.ok issued) → IssuedExactly b name permissions g' issued) ∧
      ∀ k ∈ g'.keys.rows, k.id ∉ g.keyIds →
        (k.grants b).within (.ofDomain permissions) = true ∧ (k.grants b).owner = false ∧
          ∀ b', b' ≠ b → k.grants b' = .none := by
  obtain ⟨hinv, hdone⟩ := createCredential_ensures.runs .refl (h.mono hdocumented)
  refine ⟨hinv.kept, fun issued hissued => hdone _ hissued, fun k hk hnew => ?_⟩
  obtain ⟨-, hwithin, helse⟩ := hinv.fresh k hk hnew
  exact ⟨hwithin, BucketKeyPermissions.owner_of_within hwithin rfl, helse⟩

/-- one bucket, and a stale key of the name beside a key of another name -/
def issuanceSample : Garage where
  keys := ⟨[⟨"old", "name", fun _ => .all⟩, ⟨"other", "other", fun _ => .all⟩], by decide, by decide⟩
  buckets := ⟨[⟨"b", ["alias"], .unlimited⟩], by decide, by decide⟩
  keyIds := ["old", "other"]
  bucketIds := ["b"]
  keys_issued := by decide
  buckets_issued := by decide

/-- the stale key is replaced; the other key keeps all its permissions -/
theorem issuance_confined_replaced :
    ∃ g' log, Runs Garage.Documented issuanceSample
        (GarageAdapter.createCredential "b" "name" ⟨true, false⟩) log g'
        (.done (.ok ⟨"new", "new", "secret"⟩)) ∧
      (∃ k ∈ g'.keys.rows, k.id = "other" ∧ k.grants "b" = .all) ∧
      IssuedExactly "b" "name" ⟨true, false⟩ g' ⟨"new", "new", "secret"⟩ := by
  let d : Draw := ⟨"new", some "secret", 0, 0, 0, 0, 0⟩
  have hrun := play_runs (fun (d : Draw) g call => g.perform_documented d .served call)
    (List.replicate 5 d) (GarageAdapter.createCredential "b" "name" ⟨true, false⟩) issuanceSample
  have hdone : (play (fun d g call => g.perform d .served call) (List.replicate 5 d)
      (GarageAdapter.createCredential "b" "name" ⟨true, false⟩) issuanceSample).2.2 =
        .done (.ok ⟨"new", "new", "secret"⟩) :=
    eq_done_of_result (by decide +kernel)
  rw [hdone] at hrun
  obtain ⟨hkept, hissued, -⟩ := issuance_confined .refl hrun
  refine ⟨_, _, hrun, ⟨_, hkept ⟨"other", "other", fun _ => .all⟩ ?_ (by decide), rfl, rfl⟩,
    hissued _ rfl⟩
  exact List.mem_cons_of_mem _ List.mem_cons_self

end

end Syouyu
