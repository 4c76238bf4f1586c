import Syouyu.System.Grants
import Syouyu.System.Script

/-!
# Recorded removals are real

Whatever the interleaving of the handlers: a credential that the database calls revoked has no key
in Garage, and a service it calls deleted has no bucket there and no active credential.

* `World.Truthful`     the invariant: ids on record were issued, and what is recorded as removed
                       is gone for good;
* `World.Attests`      what an entry of a handler's log says about the world, from then on;
* `garage_keeps`, `store_keeps`   each call of a handler keeps both;
* `removals_real`      **in every run recorded removals are real**.
-/

set_option linter.unusedSectionVars false

namespace Syouyu
open Lib

/-! ## the invariant -/

/-- the service is gone: its bucket is, and it has no active credential -/
structure World.Dismantled (w : World) (s : Uuid) : Prop where
  bucket : ∃ row b, w.db.buckets.lookup s = some row ∧ row.physicalBucketId = some b ∧
    w.garage.BucketGone b
  credentials : ∀ c ∈ w.db.credentials.rows, c.serviceInstanceId = s → c.status ≠ .active

/-- ids on record were issued, and what is recorded as removed is gone -/
structure World.Truthful (store : PgStore) (w : World) : Prop where
  reachable : Reachable store w.db
  keys : ∀ c ∈ w.db.credentials.rows, c.garageKeyId ∈ w.garage.keyIds
  buckets : ∀ row ∈ w.db.buckets.rows, ∀ b, row.physicalBucketId = some b →
    b ∈ w.garage.bucketIds
  revoked : ∀ c ∈ w.db.credentials.rows, c.status = .revoked → w.garage.KeyGone c.garageKeyId
  deleted : ∀ service ∈ w.db.services.rows, service.phase = .deleted → w.Dismantled service.id

/-- the ids of a context were issued -/
def PrepareCall.ContextIssued (g : Garage) : (call : PrepareCall) → call.Context → Prop
  | .delete _, (context : DeleteContext) => context.garageKeyIds ⊆ g.keyIds ∧
      ∀ b, context.bucket.physicalBucketId = some b → b ∈ g.bucketIds
  | .revokeCredential _, (context : RevokeCredentialContext) => context.garageKeyId ∈ g.keyIds
  | _, _ => True

/-- what an entry of a log says about the world, then and later -/
structure World.Attests (w : World) (x : (e : Call) × e.Answer) : Prop where
  granted : ∀ {call : PrepareCall} {o : Uuid} {context : call.Context},
    x = ⟨.store (.prepare call), Except.ok (Prepare.execute o context)⟩ →
    w.db.Vouches call context ∧ call.ContextIssued w.garage context
  listed : ∀ {keys : List AccessKeySummary}, x = ⟨.garage .listKeys, Except.ok keys⟩ →
    ∀ key ∈ keys, key.id ∈ w.garage.keyIds
  created : ∀ {request : CreateKeyRequest} {key : AccessKey},
    x = ⟨.garage (.createKey request), Except.ok key⟩ → key.accessKeyId ∈ w.garage.keyIds
  updated : ∀ {id : String} {quotas : BucketQuotas} {bucket : Bucket},
    x = ⟨.garage (.updateBucket id quotas), Except.ok bucket⟩ → bucket.id ∈ w.garage.bucketIds
  keyRemoved : ∀ {id : String} {answer : (GarageCall.deleteKey id).Answer},
    x = ⟨.garage (.deleteKey id), answer⟩ → GarageCall.removed answer = true →
    w.garage.KeyGone id
  bucketRemoved : ∀ {id : String} {answer : (GarageCall.deleteBucket id).Answer},
    x = ⟨.garage (.deleteBucket id), answer⟩ → GarageCall.removed answer = true →
    w.garage.BucketGone id

section
variable {store : PgStore} {behaviour : GarageBehaviour} {w w' : World} {r : Request}
  {log : CallLog}

/-! ## calls of Garage -/

theorem PrepareCall.ContextIssued.mono {g g' : Garage} {call : PrepareCall}
    {context : call.Context} (h : call.ContextIssued g context) (hk : g.keyIds ⊆ g'.keyIds)
    (hb : g.bucketIds ⊆ g'.bucketIds) : call.ContextIssued g' context := by
  cases call with
  | delete command => exact ⟨fun k hm => hk (h.1 hm), fun b hm => hb (h.2 b hm)⟩
  | revokeCredential command => exact hk h
  | _ => trivial

/-- a call of Garage leaves the records as true as they were -/
theorem World.Truthful.garage_step (law : behaviour.Lawful) (hw : w.Truthful store)
    {call : GarageCall} {a : call.Answer} (h : behaviour w.garage call a w'.garage)
    (hdb : w'.db = w.db) : w'.Truthful store := by
  refine ⟨hdb ▸ hw.reachable, ?_, ?_, ?_, ?_⟩ <;> rw [hdb]
  · exact fun c hc => law.keyIds h (hw.keys c hc)
  · exact fun row hrow b hb => law.bucketIds h (hw.buckets row hrow b hb)
  · exact fun c hc hs => law.key_gone h (hw.revoked c hc hs)
  · intro service hservice hphase
    obtain ⟨⟨row, b, hrow, hb, hgone⟩, hcred⟩ := hw.deleted service hservice hphase
    exact ⟨⟨row, b, hdb ▸ hrow, hb, law.bucket_gone h hgone⟩, hdb ▸ hcred⟩

theorem World.Attests.garage_step (law : behaviour.Lawful) {x : (e : Call) × e.Answer}
    (hx : w.Attests x) {call : GarageCall} {a : call.Answer}
    (h : behaviour w.garage call a w'.garage) (hdb : w'.db = w.db) : w'.Attests x where
  granted heq := by
    obtain ⟨hv, hi⟩ := hx.granted heq
    exact ⟨hdb ▸ hv, hi.mono (law.keyIds h) (law.bucketIds h)⟩
  listed heq key hkey := law.keyIds h (hx.listed heq key hkey)
  created heq := law.keyIds h (hx.created heq)
  updated heq := law.bucketIds h (hx.updated heq)
  keyRemoved heq ha := law.key_gone h (hx.keyRemoved heq ha)
  bucketRemoved heq ha := law.bucket_gone h (hx.bucketRemoved heq ha)

/-- a handler deletes keys that were issued -/
theorem deleted_key_issued (hlog : ∀ x ∈ log, w.Attests x) {id : String}
    (h : May r log (.garage (.deleteKey id))) : id ∈ w.garage.keyIds := by
  cases h with
  | touch ht =>
    cases ht with
    | deleteListed _ hlisted hkey _ => exact (hlog _ hlisted).listed rfl _ hkey
    | deleteOwn _ hcreated => exact (hlog _ hcreated).created rfl
    | deleteOfService hg hk => exact ((hlog _ hg).granted rfl).2.1 hk
    | deleteRevoked hg _ => exact ((hlog _ hg).granted rfl).2

theorem deleted_bucket_issued (hlog : ∀ x ∈ log, w.Attests x) {id : String}
    (h : May r log (.garage (.deleteBucket id))) : id ∈ w.garage.bucketIds := by
  cases h with
  | touch ht =>
    cases ht with
    | deleteBucket hg hb => exact ((hlog _ hg).granted rfl).2.2 _ hb

/-- **a call of Garage by a handler** -/
theorem garage_keeps (law : behaviour.Lawful) (hw : w.Truthful store)
    (hlog : ∀ x ∈ log, w.Attests x) {call : GarageCall} {a : call.Answer}
    (hmay : May r log (.garage call)) (h : behaviour w.garage call a w'.garage)
    (hdb : w'.db = w.db) :
    Pool.Keeps (World.Truthful store) World.Attests w w' ⟨.garage call, a⟩ where
  inv := hw.garage_step law h hdb
  stable _ hx := hx.garage_step law h hdb
  holds :=
    { granted := nofun
      listed := by
        rintro keys ⟨⟩
        exact law.listKeys h
      created := by
        rintro request key ⟨⟩
        exact law.createKey h
      updated := by
        rintro id quotas bucket ⟨⟩
        exact law.updateBucket h
      keyRemoved := by
        rintro id answer ⟨⟩ ha
        exact ⟨law.keyIds h (deleted_key_issued hlog hmay), law.deleteKey h ha⟩
      bucketRemoved := by
        rintro id answer ⟨⟩ ha
        exact ⟨law.bucketIds h (deleted_bucket_issued hlog hmay), law.deleteBucket h ha⟩ }

/-! ## calls of the store -/

theorem World.Attests.store_step {x : (e : Call) × e.Answer} {c : CallRecord} (hx : w.Attests x)
    (hex : w.db.Exclusive) (h : StoreStep store w.db c w'.db) (hg : w'.garage = w.garage) :
    w'.Attests x where
  granted heq := by
    obtain ⟨hv, hi⟩ := hx.granted heq
    exact ⟨hv.step hex h, hg ▸ hi⟩
  listed heq := hg ▸ hx.listed heq
  created heq := hg ▸ hx.created heq
  updated heq := hg ▸ hx.updated heq
  keyRemoved heq ha := hg ▸ hx.keyRemoved heq ha
  bucketRemoved heq ha := hg ▸ hx.bucketRemoved heq ha

/-- a handler that completes an operation and holds its receipt sees the context it was given -/
theorem completed_observed (hlog : ∀ x ∈ log, w.Attests x) (prepare : PrepareCall) {o o' : Uuid}
    {context : prepare.Context} (hg : Granted log prepare o context)
    (hheld : w.db.HeldBy prepare.operation o') : prepare.Observed w.db context :=
  ((hlog _ hg).granted rfl).1.observed hheld

/-- nothing is completed on a deleted service -/
theorem settled_live (hlog : ∀ x ∈ log, w.Attests x) {c : CallRecord} {s : Uuid}
    (hmay : May r log (.store c.call)) (h : StoreStep store w.db c w'.db) (hset : c.Settles s)
    {service : ServiceRow} (hl : w.db.services.lookup s = some service) :
    service.phase ≠ .deleted := by
  obtain ⟨env, finish, u, rfl, rfl⟩ := hset
  obtain ⟨prepare, context, hg, hop⟩ := hmay.completes.granted
  have hheld := (finish_eq_ok.mp (step_finished h)).2.1
  rw [← hop] at hheld hl
  exact (completed_observed hlog prepare hg hheld).facts.live hl

theorem World.Dismantled.untouched {s : Uuid} (hd : w.Dismantled s)
    (hu : w.db.Untouched w'.db s) (hg : w'.garage = w.garage) : w'.Dismantled s := by
  obtain ⟨⟨row, b, hrow, hb, hgone⟩, hcred⟩ := hd
  obtain ⟨row', hrow', -, hphys, -⟩ := hu.bucket_record hrow
  refine ⟨⟨row', b, hrow', hphys.trans hb, hg ▸ hgone⟩, fun c hc hs => ?_⟩
  have hmem : c ∈ w'.db.credentials.select (fun c => decide (c.serviceInstanceId = s)) :=
    Table.mem_select.mpr ⟨hc, decide_eq_true hs⟩
  rw [hu.credentials] at hmem
  exact hcred c (Table.mem_select.mp hmem).1 hs

/-- the ids of a context that describes the database were issued -/
theorem World.Truthful.contextIssued (hw : w.Truthful store) {call : PrepareCall}
    {context : call.Context} (hobs : call.Observed w.db context) :
    call.ContextIssued w.garage context := by
  cases call with
  | delete command =>
    obtain ⟨service, row, -, -, -, -, -, hrow, -, hrec, hkeys⟩ := hobs
    refine ⟨fun k hk => ?_, fun b hb => ?_⟩
    · rw [hkeys] at hk
      obtain ⟨c, hc, -, -, rfl⟩ := mem_activeGarageKeys.mp hk
      exact hw.keys c hc
    · refine hw.buckets row (Table.lookup_mem hrow) b ?_
      exact (congrArg BucketRecord.physicalBucketId hrec).symm.trans hb
  | revokeCredential command =>
    obtain ⟨-, c, hl, -, rfl⟩ := hobs
    exact hw.keys c (Table.lookup_mem hl)
  | _ => trivial

/-- what a completed deletion leaves -/
theorem deletion_dismantles (hlog : ∀ x ∈ log, w.Attests x)
    {env : CallEnv} {finish : FinishCall} {u : Unit} {command : DeleteCommand}
    (hmay : May r log (.store (.finish finish)))
    (h : StoreStep store w.db ⟨env, .finish finish, .ok u⟩ w'.db) (hg : w'.garage = w.garage)
    (hcomp : finish.completion = .delete command) :
    w'.Dismantled command.operation.serviceInstanceId := by
  obtain ⟨context, pid, hgrant, hpid, -, ⟨answer, ha, hmem⟩⟩ := hmay.completes.deleted hcomp
  have hheld := (finish_eq_ok.mp (step_finished h)).2.1
  rw [show finish.operation = command.operation from congrArg Completion.operation hcomp] at hheld
  obtain ⟨service, row, -, -, -, -, -, hrow, -, hrec, -⟩ :=
    completed_observed hlog (.delete command) hgrant hheld
  obtain ⟨-, -, -, -, hbuckets⟩ := delete_applied (step_finished h) hcomp
  refine ⟨⟨row, pid, hbuckets ▸ hrow, ?_, hg ▸ (hlog _ hmem).bucketRemoved rfl ha⟩,
    fun c hc hs => delete_revokes (step_finished h) hcomp hc hs⟩
  exact (congrArg BucketRecord.physicalBucketId hrec).symm.trans hpid

/-- **a call of the store by a handler leaves the records true** -/
theorem World.Truthful.store_step (hw : w.Truthful store) (hlog : ∀ x ∈ log, w.Attests x)
    {env : CallEnv} {call : StoreCall} {answer : Except StoreError call.Result}
    (hmay : May r log (.store call)) (h : StoreStep store w.db ⟨env, call, answer⟩ w'.db)
    (hg : w'.garage = w.garage) : w'.Truthful store where
  reachable := hw.reachable.step h
  keys c hc := by
    rw [hg]
    cases credential_written h hc with
    | kept hold => exact hw.keys c hold
    | @dropped _ _ old _ _ hold _ _ => exact hw.keys old hold
    | @revoked _ _ old _ _ hl => exact hw.keys old (Table.lookup_mem hl)
    | created hheld hcomp =>
      obtain ⟨context, -, -, hissued⟩ := hmay.completes.created hcomp
      obtain ⟨key, hmem, hkey⟩ := hissued.created
      have hid := (hlog _ hmem).created rfl
      rwa [hkey] at hid
  buckets row hrow b hb := by
    rw [hg]
    obtain ⟨old, hold, -, hphys⟩ | ⟨finish, command, pid, rfl, hheld, hcomp, hservice, hphys⟩ :=
      bucket_written h hrow
    · exact hw.buckets old hold b (hphys.trans hb)
    · obtain rfl : pid = b := Option.some.inj (hphys.symm.trans hb)
      obtain ⟨context, hgrant, ⟨happlied, hpid⟩ | ⟨-, found, bucket, -, hmem, rfl⟩⟩ :=
        hmay.completes.reconciled hcomp
      · -- the generation was applied before: the id is the one on record
        rw [show finish.operation = command.operation from
          congrArg Completion.operation hcomp] at hheld
        obtain ⟨⟨-, -, hfalse⟩ | ⟨service, old, -, -, -, -, -, hold, -, hsame, -⟩, -⟩ :=
          completed_observed hlog (.reconcile command) hgrant hheld
        · exact absurd (hfalse.symm.trans happlied) nofun
        · exact hw.buckets old (Table.lookup_mem hold) pid (hsame.symm.trans hpid)
      · exact (hlog _ hmem).updated rfl
  revoked c hc hs := by
    rw [hg]
    cases credential_written h hc with
    | kept hold => exact hw.revoked c hold hs
    | created _ _ => cases hs
    | @dropped finish command old hheld hcomp hold hservice hactive =>
      obtain ⟨context, -, hgrant, -, hremoved, -⟩ := hmay.completes.deleted hcomp
      rw [show finish.operation = command.operation from
        congrArg Completion.operation hcomp] at hheld
      obtain ⟨_, _, -, -, -, -, -, -, -, -, hkeys⟩ :=
        completed_observed hlog (.delete command) hgrant hheld
      have hmem : old.garageKeyId ∈ context.garageKeyIds := by
        rw [hkeys]
        exact mem_activeGarageKeys.mpr ⟨old, hold, hservice, hactive, rfl⟩
      obtain ⟨answer, ha, hlogged⟩ := hremoved _ hmem
      exact (hlog _ hlogged).keyRemoved rfl ha
    | @revoked finish command old hheld hcomp hl =>
      obtain ⟨context, hgrant, hdone⟩ := hmay.completes.revoked hcomp
      rw [show finish.operation = command.operation from
        congrArg Completion.operation hcomp] at hheld
      obtain ⟨-, c, hl', -, rfl⟩ :=
        completed_observed hlog (.revokeCredential command) hgrant hheld
      obtain rfl : c = old := Option.some.inj (hl'.symm.trans hl)
      rcases hdone with hrevoked | ⟨answer, ha, hlogged⟩
      · -- the handler skipped Garage: the key was revoked before
        exact hw.revoked c (Table.lookup_mem hl) (of_decide_eq_true hrevoked)
      · exact (hlog _ hlogged).keyRemoved rfl ha
  deleted service hservice hphase := by
    have hl' := Table.lookup_of_mem hservice
    cases hl : w.db.services.lookup service.id with
    | none => exact absurd ((service_new h hl hl').1.symm.trans hphase) nofun
    | some old =>
      by_cases hold : old.phase = .deleted
      · have hset : ¬ CallRecord.Settles ⟨env, call, answer⟩ service.id :=
          fun hset => settled_live hlog hmay h hset hl hold
        have hd := hw.deleted old (Table.lookup_mem hl) hold
        rw [show old.id = service.id from Table.lookup_key hl] at hd
        exact hd.untouched (untouched_unless_settled h hset) hg
      · obtain ⟨env, finish, command, u, heq, hcomp, hs⟩ := newly_deleted h hl hl' hold hphase
        cases heq
        exact hs ▸ deletion_dismantles hlog hmay h hg hcomp

/-- **a call of the store by a handler** -/
theorem store_keeps (hw : w.Truthful store) (hlog : ∀ x ∈ log, w.Attests x) {env : CallEnv}
    {call : StoreCall} {answer : Except StoreError call.Result} (hmay : May r log (.store call))
    (h : StoreStep store w.db ⟨env, call, answer⟩ w'.db) (hg : w'.garage = w.garage) :
    Pool.Keeps (World.Truthful store) World.Attests w w' ⟨.store call, answer⟩ := by
  have hw' := hw.store_step hlog hmay h hg
  refine ⟨hw', ⟨?_, nofun, nofun, nofun, nofun, nofun⟩,
    fun x hx => hx.store_step (reachable_exclusive hw.reachable) h hg⟩
  rintro call o context ⟨⟩
  have hexec : call.exec store env w.db = .ok (.execute o context, w'.db) := step_ok h
  exact ⟨vouches_of_executed hexec, hw'.contextIssued (prepare_observed hexec)⟩

/-! ## runs -/

theorem handler_keeps (law : behaviour.Lawful) (e : Call) (a : e.Answer) (hw : w.Truthful store)
    (hlog : ∀ x ∈ log, w.Attests x) (hmay : May r log e)
    (h : World.Effect store behaviour w e a w') :
    Pool.Keeps (World.Truthful store) World.Attests w w' ⟨e, a⟩ := by
  cases e with
  | store call =>
    obtain ⟨⟨env, hstep⟩, hg⟩ := h
    exact store_keeps hw hlog hmay hstep hg
  | garage call => exact garage_keeps law hw hlog hmay h.1 h.2
  | query q =>
    obtain rfl : w' = w := h.2
    exact ⟨hw, ⟨nofun, nofun, nofun, nofun, nofun, nofun⟩, fun _ hx => hx⟩

theorem start_truthful (garage : Garage) : (System.start garage).world.Truthful store where
  reachable := .empty
  keys := fun _ h => by cases h
  buckets := fun _ h => by cases h
  revoked := fun _ h => by cases h
  deleted := fun _ h => by cases h

/-- the records are true, and the logs of all handlers, after any run -/
theorem run_truthful (law : behaviour.Lawful) {state : AppState} {garage : Garage}
    {tr : List SystemEvent} {s : System}
    (h : Run (SystemStep store behaviour state) (System.start garage) tr s) :
    s.Sound May (World.Truthful store) World.Attests :=
  Pool.run_sound h ⟨start_truthful garage, fun _ ht => by cases ht⟩ (handle_obeys state)
    fun _ _ e a _ _ hw hlog hmay heff => handler_keeps law e a hw hlog hmay heff

/-- **Recorded removals are real.**  Any number of handlers for any requests run beside any lawful
Garage, in any order, and may stop at any call; each call of the store is one transaction at any
time.  Then every credential on record as revoked has no key in Garage, and every service on record
as deleted has a bucket id that is not in Garage, and no active credential. -/
theorem removals_real (store : PgStore) (behaviour : GarageBehaviour) (law : behaviour.Lawful)
    (state : AppState) (garage : Garage) (tr : List SystemEvent) (s : System)
    (h : Run (SystemStep store behaviour state) (System.start garage) tr s) :
    (∀ c ∈ s.world.db.credentials.rows, c.status = .revoked →
      s.world.garage.keys.lookup c.garageKeyId = none) ∧
    ∀ service ∈ s.world.db.services.rows, service.phase = .deleted →
      (∃ row b, s.world.db.buckets.lookup service.id = some row ∧
        row.physicalBucketId = some b ∧ s.world.garage.buckets.lookup b = none) ∧
      ∀ c ∈ s.world.db.credentials.rows, c.serviceInstanceId = service.id →
        c.status ≠ .active := by
  have hw := (run_truthful law h).inv
  refine ⟨fun c hc hs => (hw.revoked c hc hs).2, fun service hservice hphase => ?_⟩
  obtain ⟨⟨row, b, hrow, hb, hgone⟩, hcred⟩ := hw.deleted service hservice hphase
  exact ⟨⟨row, b, hrow, hb, hgone.2⟩, hcred⟩

/-- a service with one credential is deleted -/
theorem removals_real_lifetime :
    let s := Sample.after
      (Sample.keyed ++ .spawn (Sample.deleteRequest 102 10 2) :: Sample.go 2 3 20 9 "")
    (s.world.db.credentials.lookup 2010).any
      (fun c => decide (c.status = .revoked) && decide (c.garageKeyId = "k")) = true ∧
    (s.world.db.services.lookup 10).any (fun row => decide (row.phase = .deleted)) = true ∧
    s.world.garage.keys.lookup "k" = none ∧
    ∃ row b, s.world.db.buckets.lookup 10 = some row ∧ row.physicalBucketId = some b ∧
      s.world.garage.buckets.lookup b = none := by
  intro s
  obtain ⟨hkeys, hservices⟩ := removals_real PgStore.reference Garage.Documented
    Garage.documented_lawful AppState.reference Garage.empty _ s (System.play_run _ _)
  have hfinal : (s.world.db.credentials.lookup 2010).any
      (fun c => decide (c.status = .revoked) && decide (c.garageKeyId = "k")) = true ∧
      (s.world.db.services.lookup 10).any (fun row => decide (row.phase = .deleted)) = true := by
    decide +kernel
  refine ⟨hfinal.1, hfinal.2, ?_, ?_⟩
  · obtain ⟨c, hc, hc'⟩ := (Option.any_eq_true _ _).mp hfinal.1
    rw [Bool.and_eq_true, decide_eq_true_eq, decide_eq_true_eq] at hc'
    exact hc'.2 ▸ hkeys c (Table.lookup_mem hc) hc'.1
  · obtain ⟨service, hservice, hphase⟩ := (Option.any_eq_true _ _).mp hfinal.2
    have hgone := (hservices service (Table.lookup_mem hservice) (of_decide_eq_true hphase)).1
    rwa [show service.id = 10 from Table.lookup_key hservice] at hgone

end

end Syouyu
