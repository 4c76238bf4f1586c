import Syouyu.System.Removal

/-!
# Keys reach the bucket of their service only

A key that a handler made for a service holds permissions on the bucket recorded for that service
and on no other, whatever happens to buckets and their names meanwhile.

* `deterministicName_inj`   the name of a key tells its service and its credential;
* `World.Isolated`          the invariant: a key made since the start has such a name, and where it
                            holds a permission, that bucket is recorded for the service of its name;
* `recorded_kept`           the bucket id of a service is never replaced by another one;
* `issued_keys_isolated`    **a key holds permissions on its own service's bucket only**.
-/

set_option linter.unusedSectionVars false

namespace Syouyu
open Lib

/-! ## names of keys -/

theorem deterministicName_inj {s s' c c' : Uuid}
    (h : deterministicName s c = deterministicName s' c') : s = s' ∧ c = c' := by
  have hlist := congrArg String.toList h
  simp only [deterministicName, String.toList_append, Uuid.toString, String.toList_ofList,
    List.append_assoc] at hlist
  obtain ⟨hs, hrest⟩ := List.append_inj (List.append_cancel_left hlist)
    (by rw [Uuid.length_chars, Uuid.length_chars])
  exact ⟨Uuid.chars_injective hs, Uuid.chars_injective (List.append_cancel_left hrest)⟩

namespace BucketKeyPermissions

theorem ne_none_of_within {p q : BucketKeyPermissions} (h : p.within q = true) (hp : p ≠ none) :
    q ≠ none := by
  rintro rfl
  exact hp (within_none h)

end BucketKeyPermissions

/-! ## bucket ids stay -/

/-- the bucket of the service is on record under this id -/
def Database.Recorded (db : Database) (s : Uuid) (b : String) : Prop :=
  ∃ row, db.buckets.lookup s = some row ∧ row.physicalBucketId = some b

/-- an id is recorded for one service -/
theorem Database.Recorded.unique {db : Database} {s : Uuid} {b : String} (h : db.Recorded s b)
    {row : BucketRow} (hrow : row ∈ db.buckets.rows) (hb : row.physicalBucketId = some b) :
    row.serviceInstanceId = s := by
  obtain ⟨own, hl, hown⟩ := h
  have hsame : row = own := by
    refine db.buckets.eq_of_unique hrow (Table.lookup_mem hl) ?_
    simp [bucketSchema, hb, hown]
  rw [hsame]
  exact Table.lookup_key hl

section
variable {store : PgStore} {db db' : Database} {c : CallRecord}

/-- every bucket row belongs to a service row -/
def Database.Housed (db : Database) : Prop :=
  ∀ row ∈ db.buckets.rows, ∃ service, db.services.lookup row.serviceInstanceId = some service

theorem service_stays (h : StoreStep store db c db') {s : Uuid} {service : ServiceRow}
    (hl : db.services.lookup s = some service) : ∃ service', db'.services.lookup s = some service' := by
  obtain ⟨service', hl', -⟩ :=
    scopeExists_iff.mp (scopeExists_step h (scopeExists_iff.mpr ⟨service, hl, rfl, rfl⟩))
  exact ⟨service', hl'⟩

theorem Database.Housed.step (hh : db.Housed) (h : StoreStep store db c db') : db'.Housed := by
  obtain ⟨env, call, answer⟩ := c
  intro row hrow
  obtain ⟨old, hold, hservice, -⟩ | ⟨finish, command, pid, rfl, -, hcomp, hservice, -⟩ :=
    bucket_written h hrow
  · obtain ⟨service, hl⟩ := hh old hold
    exact hservice ▸ service_stays h hl
  · cases answer with
    | error e =>
      obtain rfl := step_error h
      exact hh row hrow
    | ok u =>
      rw [hservice]
      obtain ⟨⟨-, hi⟩ | ⟨old, hl, -, hu⟩, -⟩ := reconcile_applied (step_finished h) hcomp
      · exact ⟨_, Table.lookup_inserted hi⟩
      · exact ⟨_, Table.lookup_updated hu (fun _ => rfl) hl⟩

theorem reachable_housed (h : Reachable store db) : db.Housed := by
  obtain ⟨tr, hrun⟩ := h
  exact hrun.invariant Database.Housed (fun _ _ _ hh hs => hh.step hs) (fun _ h => by cases h)

end

/-! ## the invariant -/

/-- a key made since the start is named after its service, and holds permissions on the bucket
recorded for that service only -/
structure World.Isolated (start : Garage) (w : World) : Prop where
  keyIds : start.keyIds ⊆ w.garage.keyIds
  keys : ∀ k ∈ w.garage.keys.rows, k.id ∉ start.keyIds → ∃ s credentialId,
    k.name = deterministicName s credentialId ∧
    ∀ b, k.grants b ≠ .none → (k.grants b).owner = false ∧ w.db.Recorded s b

/-- what an entry of a log says about bucket ids and the names of keys -/
structure World.Ties (start : Garage) (w : World) (x : (e : Call) × e.Answer) : Prop where
  granted : ∀ {command : CreateCredentialCommand} {o : Uuid} {context : CreateCredentialContext},
    x = ⟨.store (.prepare (.createCredential command)), Except.ok (Prepare.execute o context)⟩ →
    ∀ b, context.bucket.physicalBucketId = some b →
    w.db.Recorded command.operation.serviceInstanceId b
  created : ∀ {request : CreateKeyRequest} {key : AccessKey},
    x = ⟨.garage (.createKey request), Except.ok key⟩ → key.accessKeyId ∈ w.garage.keyIds ∧
    ∀ k ∈ w.garage.keys.rows, k.id = key.accessKeyId → k.name = request.name
  found : ∀ {id : String} {bucket : Bucket},
    x = ⟨.garage (.getBucketInfo id), Except.ok bucket⟩ → bucket.id = id
  updated : ∀ {id : String} {quotas : BucketQuotas} {bucket : Bucket},
    x = ⟨.garage (.updateBucket id quotas), Except.ok bucket⟩ → bucket.id = id

section
variable {store : PgStore} {behaviour : GarageBehaviour} {start : Garage} {w w' : World}
  {r : Request} {log : CallLog}

/-! ## calls of the store -/

/-- a reconcile records the bucket id that is on record already -/
theorem reconciled_same (hx : w.db.Housed) (hlog : ∀ x ∈ log, w.Ties start x)
    {command : ReconcileCommand} {context : ReconcileContext} {pid b : String}
    (hobs : (PrepareCall.reconcile command).Observed w.db context)
    (hr : Reconciled log command context pid)
    (hb : w.db.Recorded command.operation.serviceInstanceId b) : pid = b := by
  obtain ⟨row, hrow, hphys⟩ := hb
  have hcontext : context.bucket.physicalBucketId = some b := by
    obtain ⟨⟨hnone, -⟩ | ⟨service, row', -, -, -, -, -, hrow', -, hpid, -⟩, -⟩ := hobs
    · obtain ⟨service, hl⟩ := hx row (Table.lookup_mem hrow)
      rw [show row.serviceInstanceId = _ from Table.lookup_key hrow] at hl
      exact absurd_none_some hnone hl
    · obtain rfl : row' = row := Option.some.inj (hrow'.symm.trans hrow)
      exact hpid.trans hphys
  rcases hr with ⟨-, hpid⟩ | ⟨-, found, bucket, hfound, hupdated, rfl⟩
  · exact Option.some.inj (hpid.symm.trans hcontext)
  · rw [hcontext] at hfound
    exact ((hlog _ hupdated).updated rfl).trans ((hlog _ hfound).found rfl)

/-- **a call of the store by a handler keeps the bucket ids** -/
theorem recorded_kept (hw : w.Truthful store) (hatt : ∀ x ∈ log, w.Attests x)
    (hlog : ∀ x ∈ log, w.Ties start x) {env : CallEnv} {call : StoreCall}
    {answer : Except StoreError call.Result} (hmay : May r log (.store call))
    (h : StoreStep store w.db ⟨env, call, answer⟩ w'.db) {s : Uuid} {b : String}
    (hb : w.db.Recorded s b) : w'.db.Recorded s b := by
  obtain ⟨row, hrow, hphys⟩ := hb
  obtain ⟨row', hrow', -⟩ := bucket_kept h hrow (by rw [hphys]; rfl)
  refine ⟨row', hrow', ?_⟩
  have hkey' : row'.serviceInstanceId = s := Table.lookup_key hrow'
  obtain ⟨old, hold, hservice, hsame⟩ |
    ⟨finish, command, pid, rfl, hheld, hcomp, hservice, hpid⟩ :=
    bucket_written h (Table.lookup_mem hrow')
  · have heq : old = row := w.db.buckets.eq_of_key hold (Table.lookup_mem hrow)
      ((hservice.trans hkey').trans (Table.lookup_key hrow).symm)
    exact hsame.symm.trans (heq ▸ hphys)
  · obtain ⟨context, hg, hr⟩ := hmay.completes.reconciled hcomp
    rw [show finish.operation = command.operation from congrArg Completion.operation hcomp] at hheld
    have hs : command.operation.serviceInstanceId = s := hservice.symm.trans hkey'
    rw [hpid, reconciled_same (reachable_housed hw.reachable) hlog
      (completed_observed hatt (.reconcile command) hg hheld) hr ⟨row, hs ▸ hrow, hphys⟩]

/-! ## calls of Garage -/

/-- a handler permits a key of its own making on the bucket of its service -/
theorem allowed_recorded (hlog : ∀ x ∈ log, w.Ties start x) {b k : String}
    {p : BucketKeyPermissions} (hmay : May r log (.garage (.allowBucketKey b k p))) :
    p.owner = false ∧ ∃ s credentialId, w.db.Recorded s b ∧ ∀ key ∈ w.garage.keys.rows,
      key.id = k → key.name = deterministicName s credentialId := by
  cases hmay with
  | touch ht =>
    cases ht with
    | allow hg hpid hkey =>
      exact ⟨rfl, _, _, (hlog _ hg).granted rfl _ hpid, ((hlog _ hkey).created rfl).2⟩

/-- **a call of Garage by a handler leaves the keys isolated** -/
theorem World.Isolated.garage_step (law : behaviour.Confined) (hw : w.Isolated start)
    (hlog : ∀ x ∈ log, w.Ties start x) {call : GarageCall} {a : call.Answer}
    (hmay : May r log (.garage call)) (h : behaviour w.garage call a w'.garage)
    (hdb : w'.db = w.db) : w'.Isolated start := by
  refine ⟨fun id hid => law.keyIds h (hw.keyIds hid), fun k hk hnew => ?_⟩
  rw [hdb]
  rcases law.keys h k hk with ⟨old, hold, hid⟩ | hfresh
  · obtain ⟨s, credentialId, hname, hgrants⟩ := hw.keys old hold (hid ▸ hnew)
    obtain ⟨hsame, hgrew⟩ := law.oldKey h k hk old hold hid
    refine ⟨s, credentialId, hsame.trans hname, fun b hb => ?_⟩
    rcases hgrew b with hin | ⟨p, rfl, hin⟩
    · obtain ⟨howner, hrec⟩ := hgrants b (BucketKeyPermissions.ne_none_of_within hin hb)
      exact ⟨BucketKeyPermissions.owner_of_within hin howner, hrec⟩
    · -- the permission was allowed by this call
      obtain ⟨hp, s', credentialId', hrec, hnames⟩ := allowed_recorded hlog hmay
      obtain ⟨rfl, -⟩ := deterministicName_inj (hname.symm.trans (hnames old hold hid))
      refine ⟨BucketKeyPermissions.owner_of_within hin ?_, hrec⟩
      by_cases hnone : old.grants b = .none
      · rw [hnone]
        exact hp
      · show ((old.grants b).owner || p.owner) = false
        rw [(hgrants b hnone).1, hp]
        rfl
  · obtain ⟨hnone, request, rfl, hname⟩ := law.newKey h k hk hfresh
    cases hmay with
    | touch ht =>
      cases ht with
      | createKey _ _ => exact ⟨_, _, hname, fun b hb => absurd (hnone b) hb⟩

theorem World.Ties.garage_step (law : behaviour.Confined) {x : (e : Call) × e.Answer}
    (hx : w.Ties start x) {call : GarageCall} {a : call.Answer}
    (h : behaviour w.garage call a w'.garage) (hdb : w'.db = w.db) : w'.Ties start x where
  granted heq := hdb ▸ hx.granted heq
  created heq := by
    obtain ⟨hid, hnames⟩ := hx.created heq
    refine ⟨law.keyIds h hid, fun k hk hkid => ?_⟩
    rcases law.keys h k hk with ⟨old, hold, hsame⟩ | hfresh
    · exact (law.oldKey h k hk old hold hsame).1.trans (hnames old hold (hsame.trans hkid))
    · exact absurd (hkid ▸ hid) hfresh
  found heq := hx.found heq
  updated heq := hx.updated heq

/-- the entry of a call of Garage is true -/
theorem ties_of_answer (law : behaviour.Confined) {call : GarageCall} {a : call.Answer}
    (h : behaviour w.garage call a w'.garage) : w'.Ties start ⟨.garage call, a⟩ where
  granted := nofun
  created := by
    rintro request key ⟨⟩
    refine ⟨law.createKey h, fun k hk hkid => ?_⟩
    obtain ⟨-, request', hsame, hname⟩ := law.newKey h k hk (hkid ▸ law.freshKey h)
    cases hsame
    exact hname
  found := by
    rintro id bucket ⟨⟩
    exact law.getBucket h
  updated := by
    rintro id quotas bucket ⟨⟩
    exact law.sameBucket h

/-! ## runs -/

theorem World.Ties.store_step (hkept : ∀ s b, w.db.Recorded s b → w'.db.Recorded s b)
    {x : (e : Call) × e.Answer} (hx : w.Ties start x) (hg : w'.garage = w.garage) :
    w'.Ties start x where
  granted heq b hb := hkept _ b (hx.granted heq b hb)
  created heq := hg ▸ hx.created heq
  found heq := hx.found heq
  updated heq := hx.updated heq

theorem World.Isolated.store_step (hkept : ∀ s b, w.db.Recorded s b → w'.db.Recorded s b)
    (hw : w.Isolated start) (hg : w'.garage = w.garage) : w'.Isolated start := by
  refine ⟨hg ▸ hw.keyIds, fun k hk hnew => ?_⟩
  obtain ⟨s, credentialId, hname, hgrants⟩ := hw.keys k (hg ▸ hk) hnew
  refine ⟨s, credentialId, hname, fun b hb => ?_⟩
  obtain ⟨howner, hrec⟩ := hgrants b hb
  exact ⟨howner, hkept s b hrec⟩

/-- the bucket of a create context is on record -/
theorem create_recorded {command : CreateCredentialCommand} {context : CreateCredentialContext}
    {db : Database} (hobs : (PrepareCall.createCredential command).Observed db context) {b : String}
    (hb : context.bucket.physicalBucketId = some b) :
    db.Recorded command.operation.serviceInstanceId b := by
  obtain ⟨⟨service, row, ⟨-, -, -, -, -, hrow, -⟩, hrec⟩, -⟩ := hobs
  exact ⟨row, hrow, (congrArg BucketRecord.physicalBucketId hrec).symm.trans hb⟩

/-- **a call of a handler leaves the keys isolated** -/
theorem isolation_keeps (law : behaviour.Confined) (e : Call) (a : e.Answer)
    (hw : w.Truthful store ∧ w.Isolated start)
    (hlog : ∀ x ∈ log, w.Attests x ∧ w.Ties start x) (hmay : May r log e)
    (h : World.Effect store behaviour w e a w') :
    Pool.Keeps (fun w => w.Truthful store ∧ w.Isolated start)
      (fun w x => w.Attests x ∧ w.Ties start x) w w' ⟨e, a⟩ := by
  have hatt : ∀ x ∈ log, w.Attests x := fun x hx => (hlog x hx).1
  have hties : ∀ x ∈ log, w.Ties start x := fun x hx => (hlog x hx).2
  have hkeep := handler_keeps law.toLawful e a hw.1 hatt hmay h
  cases e with
  | store call =>
    obtain ⟨⟨env, hstep⟩, hg⟩ := h
    have hkept := fun s b => recorded_kept (s := s) (b := b) hw.1 hatt hties hmay hstep
    refine ⟨⟨hkeep.inv, hw.2.store_step hkept hg⟩, ⟨hkeep.holds, ?_, nofun, nofun, nofun⟩,
      fun x hx => ⟨hkeep.stable x hx.1, hx.2.store_step hkept hg⟩⟩
    rintro command o context ⟨⟩ b hb
    have hexec : (PrepareCall.createCredential command).exec store env w.db =
      .ok (.execute o context, w'.db) := step_ok hstep
    exact create_recorded (prepare_observed hexec) hb
  | garage call =>
    exact ⟨⟨hkeep.inv, hw.2.garage_step law hties hmay h.1 h.2⟩,
      ⟨hkeep.holds, ties_of_answer law h.1⟩,
      fun x hx => ⟨hkeep.stable x hx.1, hx.2.garage_step law h.1 h.2⟩⟩
  | query q =>
    obtain rfl : w' = w := h.2
    exact ⟨hw, ⟨hkeep.holds, nofun, nofun, nofun, nofun⟩, fun _ hx => hx⟩

theorem run_isolated (law : behaviour.Confined) {state : AppState} {tr : List SystemEvent}
    {s : System} (h : Run (SystemStep store behaviour state) (System.start start) tr s) :
    s.Sound May (fun w => w.Truthful store ∧ w.Isolated start)
      (fun w x => w.Attests x ∧ w.Ties start x) :=
  Pool.run_sound h
    ⟨⟨start_truthful start, List.Subset.refl _, fun k hk hnew => absurd (start.keys_issued k hk) hnew⟩,
      fun _ ht => by cases ht⟩
    (handle_obeys state) fun _ _ e a _ _ hw hlog hmay heff =>
      isolation_keeps law e a hw hlog hmay heff

/-- a key under an id issued before was there before, under the same name -/
theorem key_traced (law : behaviour.Confined) {state : AppState} {tr : List SystemEvent}
    {s s' : System} (h : Run (SystemStep store behaviour state) s tr s') {k : GarageKey}
    (hk : k ∈ s'.world.garage.keys.rows) (hid : k.id ∈ s.world.garage.keyIds) :
    ∃ old ∈ s.world.garage.keys.rows, old.id = k.id ∧ k.name = old.name := by
  have hinv := h.invariant (fun s' => s.world.garage.keyIds ⊆ s'.world.garage.keyIds ∧
    ∀ k ∈ s'.world.garage.keys.rows, k.id ∈ s.world.garage.keyIds →
      ∃ old ∈ s.world.garage.keys.rows, old.id = k.id ∧ k.name = old.name) ?_
    ⟨List.Subset.refl _, fun k hk _ => ⟨k, hk, rfl, rfl⟩⟩
  · exact hinv.2 k hk hid
  rintro s₁ event s₂ ⟨hsub, htraced⟩ hstep
  cases hstep with
  | spawn request => exact ⟨hsub, htraced⟩
  | crash hi => exact ⟨hsub, htraced⟩
  | @act i t e next a w hi hrest heff =>
    cases e with
    | store call => exact heff.2.symm ▸ ⟨hsub, htraced⟩
    | query q =>
      obtain rfl : w = s₁.world := heff.2
      exact ⟨hsub, htraced⟩
    | garage call =>
      refine ⟨fun id h => law.keyIds heff.1 (hsub h), fun k hk hid => ?_⟩
      rcases law.keys heff.1 k hk with ⟨old, hold, hsame⟩ | hfresh
      · obtain ⟨first, hfirst, hfid, hfname⟩ := htraced old hold (hsame ▸ hid)
        exact ⟨first, hfirst, hfid.trans hsame,
          (law.oldKey heff.1 k hk old hold hsame).1.trans hfname⟩
      · exact absurd (hsub hid) hfresh

/-- **Isolation of issued keys.**  Handlers for any services run in any interleaving beside a
confined Garage.  At some point the handler of a request for service `svc` calls `CreateKey`, and
the call issues the id of a key, whatever it answers.  Then at every later point, where that key
holds a permission: it is not the owner permission, the bucket is the one recorded for `svc`, and
no row of another service records it. -/
theorem issued_keys_isolated (store : PgStore) (behaviour : GarageBehaviour)
    (law : behaviour.Confined) (state : AppState) (start : Garage) (tr₁ tr₂ : List SystemEvent)
    (s₁ s₂ s₃ : System) (i : Nat) (t : HandlerThread) (svc : Uuid) (request : CreateKeyRequest)
    (a : (Call.garage (.createKey request)).Answer)
    (h₁ : Run (SystemStep store behaviour state) (System.start start) tr₁ s₁)
    (hi : s₁.threads[i]? = some t) (hsvc : t.request.serviceInstanceId? = some svc)
    (hcreate : SystemStep store behaviour state s₁ (.act i (.garage (.createKey request)) a) s₂)
    (h₂ : Run (SystemStep store behaviour state) s₂ tr₂ s₃) (k : GarageKey)
    (hold : k.id ∉ s₁.world.garage.keyIds) (hnew : k.id ∈ s₂.world.garage.keyIds)
    (hk : k ∈ s₃.world.garage.keys.rows) (b : String) (hb : k.grants b ≠ .none) :
    (k.grants b).owner = false ∧
    (∃ row, s₃.world.db.buckets.lookup svc = some row ∧ row.physicalBucketId = some b) ∧
    ∀ row ∈ s₃.world.db.buckets.rows, row.physicalBucketId = some b →
      row.serviceInstanceId = svc := by
  have hiso₁ := run_isolated law h₁
  have hiso₃ := run_isolated law ((h₁.append (.single hcreate)).append h₂)
  obtain ⟨s, credentialId, hname, hgrants⟩ :=
    hiso₃.inv.2.keys k hk fun hstart => hold (hiso₁.inv.2.keyIds hstart)
  obtain ⟨howner, hrec⟩ := hgrants b hb
  -- the key was named by the call that made it
  have hs : s = svc := by
    obtain ⟨made, hmade, hid, hsame⟩ := key_traced law h₂ hk hnew
    cases hcreate with
    | @act _ t' _ next _ w hi' hrest heff =>
      obtain rfl : t' = t := Option.some.inj (hi'.symm.trans hi)
      have hmay := ((hiso₁.threads t' (List.mem_of_getElem? hi)).obeys _ hrest).1
      obtain ⟨-, request', hreq, hmadeName⟩ := law.newKey heff.1 made hmade (hid ▸ hold)
      cases hreq
      cases hmay with
      | touch ht =>
        cases ht with
        | createKey _ hfor =>
          have heq := (hname.symm.trans hsame).trans hmadeName
          exact (deterministicName_inj heq).1.trans (Option.some.inj (hfor.symm.trans hsvc))
  subst hs
  exact ⟨howner, hrec, fun row hrow hphys => hrec.unique hrow hphys⟩

namespace Sample

/-- services 10 and 11 have the buckets `b` and `c`, and the handlers that make a key for each of
them are at work -/
def neighbours : List Move :=
  opened ++
  .spawn (.reconcile (.ok (claims 101 11 1)) 11 (headers 101)
    ⟨1, "other", ⟨"eu-1", "bucket-c", 1000, 10⟩⟩) :: go 1 1 10 7 "c" ++
  .spawn (createRequest 102 10 "key") :: go 2 2 20 3 "" ++
  .spawn (createRequest 103 11 "key") :: go 3 2 30 4 "l"

end Sample

/-- the key of service 10 holds read permission on the bucket of service 10, and none on the bucket
of service 11 -/
theorem issued_keys_isolated_neighbours :
    let s₁ := Sample.after Sample.neighbours
    let s₂ := (System.play PgStore.reference AppState.reference (Sample.go 2 3 40 1 "k") s₁).2
    let s₃ := (System.play PgStore.reference AppState.reference
      (Sample.go 2 3 50 4 "" ++ Sample.go 3 3 60 4 "") s₂).2
    ∃ k ∈ s₃.world.garage.keys.rows, k.id = "k" ∧ (k.grants "b").read = true ∧
      (k.grants "b").owner = false ∧ k.grants "c" = .none ∧
      (∃ row, s₃.world.db.buckets.lookup 10 = some row ∧ row.physicalBucketId = some "b") ∧
      ∃ row, s₃.world.db.buckets.lookup 11 = some row ∧ row.physicalBucketId = some "c" := by
  intro s₁ s₂ s₃
  have hfacts : s₁.nextGarage 2 = some (.createKey (.new (deterministicName 10 2020) none)) ∧
      (s₁.threads[2]?).any (fun t => decide (t.request.serviceInstanceId? = some 10)) = true ∧
      "k" ∉ s₁.world.garage.keyIds ∧ "k" ∈ s₂.world.garage.keyIds ∧
      (s₃.world.garage.keys.lookup "k").any (fun k => (k.grants "b").read) = true ∧
      (s₃.world.db.buckets.lookup 11).any
        (fun row => decide (row.physicalBucketId = some "c")) = true := by
    decide +kernel
  obtain ⟨hnext, hthread, hold, hnew, hkey, hother⟩ := hfacts
  obtain ⟨t, hi, ht⟩ := (Option.any_eq_true _ _).mp hthread
  obtain ⟨k, hk, hread⟩ := (Option.any_eq_true _ _).mp hkey
  obtain ⟨row, hrow, hphys⟩ := (Option.any_eq_true _ _).mp hother
  have hphys := of_decide_eq_true hphys
  have hid : k.id = "k" := Table.lookup_key hk
  have hisolated := issued_keys_isolated PgStore.reference Garage.Documented
    Garage.documented_confined AppState.reference Garage.empty _ _ s₁ s₂ s₃ 2 t 10 _ _
    (System.play_run _ _) hi (of_decide_eq_true ht)
    (System.garage_act hnext (Sample.choice 3 40 "k" .served)) (System.play_run _ _) k
    (hid ▸ hold) (hid ▸ hnew) (Table.lookup_mem hk)
  have hb : k.grants "b" ≠ .none := fun hnone => by
    rw [hnone] at hread
    cases hread
  have hc : k.grants "c" = .none := by
    by_contra hgrant
    -- else the row of service 11 would be one of service 10
    have hsame := (hisolated "c" hgrant).2.2 row (Table.lookup_mem hrow) hphys
    have heleven : row.serviceInstanceId = 11 := Table.lookup_key hrow
    exact absurd (heleven.symm.trans hsame) (by decide)
  obtain ⟨howner, hrecorded, -⟩ := hisolated "b" hb
  exact ⟨k, Table.lookup_mem hk, hid, hread, howner, hc, hrecorded, row, hrow, hphys⟩

end

end Syouyu
