import Syouyu.System.Survival
import Syouyu.Store.Ledger

/-!
# Leases and the clock

Executions hold their receipts by leases, and a create renews its lease before it lists keys.  When
the calls are made at times that do not go back, and each create lists keys before the lease it has
renewed runs out, they are listed while the receipt is held.

* `World.EffectAt`       a call at a time, which is what the database reads off its clock;
* `ClockStep`            a step of the handlers at a time;
* `Timed.Leased`         the invariant: an execution that is within its lease holds its receipt;
* `credentials_survive`  **a credential that nobody was told to remove works**.
-/

set_option linter.unusedSectionVars false

namespace Syouyu
open Lib

/-! ## receipts within their lease -/

/-- the receipt is held by the operation id, until the time at least -/
def Database.HeldUntil (db : Database) (operation : OperationRequest) (o : Uuid) (t : Timestamp) :
    Prop :=
  Lease.HeldUntil (ledger db.receipts) operation.idempotencyKey operation o t

section
variable {store : PgStore} {env : CallEnv} {db db' : Database} {operation : OperationRequest}
  {o : Uuid} {t : Timestamp}

theorem Database.HeldUntil.heldBy (h : db.HeldUntil operation o t) : db.HeldBy operation o := by
  obtain ⟨u, hu, -⟩ := h
  obtain ⟨row, hl, hrow⟩ := ledger_eq_some.mp hu
  have hheld : row.entry.Held := ⟨u, by rw [hrow]⟩
  exact ⟨row, hl, congrArg Lease.Entry.ident hrow, congrArg Lease.Entry.holder hrow,
    (entry_held hl).mp hheld⟩

/-- a renewal that succeeds -/
theorem heldUntil_renewed {u : Unit}
    (h : StoreStep store db ⟨env, .renewOperation operation o, .ok u⟩ db') :
    db'.HeldUntil operation o env.leaseEnd := by
  obtain ⟨-, hh, t, ht, rfl⟩ := renewOperation_eq_ok.mp (step_ok h)
  obtain ⟨row, hl, rfl, rfl, hs, -⟩ := heldBy_entry hh
  have hnew : (row.renewed env).entry = ⟨row.request, row.operationId, .held env.leaseEnd⟩ :=
    entry_inProgress (row.renewed env) hs rfl
  refine ⟨env.leaseEnd, ?_, le_refl _⟩
  show ledger t _ = _
  rw [ledger_update ht (fun _ => rfl) hl, Function.update_self, hnew]

/-- what a call of the store can do to a receipt within its lease -/
theorem heldUntil_step {call : StoreCall} {answer : Except StoreError call.Result}
    (h : StoreStep store db ⟨env, call, answer⟩ db') (hheld : db.HeldUntil operation o t)
    (hclock : env.clock < t) (hend : t ≤ env.leaseEnd) :
    db'.HeldUntil operation o t ∨
    ∃ finish : FinishCall, (⟨.store call, answer⟩ : (e : Call) × e.Answer) =
      ⟨.store (.finish finish), Except.ok ()⟩ ∧ finish.operationId = o := by
  cases step_cases h with
  | quiet _ => exact .inl hheld
  | executed _ =>
    exact (Lease.Step.within (step_ledger h) hheld hclock fun _ _ _ he => by cases he).imp id
      fun he => by cases he
  | @finished _ finish _ _ =>
    refine (Lease.Step.within (step_ledger h) hheld hclock fun _ _ _ he => by cases he).imp id
      fun he => ?_
    exact ⟨finish, rfl, (Lease.Event.close.inj he).2⟩
  | renewed _ =>
    refine (Lease.Step.within (step_ledger h) hheld hclock fun _ _ _ he => ?_).imp id
      fun he => by cases he
    rw [← (Lease.Event.extend.inj he).2.2]
    exact hend
  | measured _ =>
    exact (Lease.Step.within (step_ledger h) hheld hclock fun _ _ _ he => by cases he).imp id
      fun he => by cases he
  | audited _ =>
    exact (Lease.Step.within (step_ledger h) hheld hclock fun _ _ _ he => by cases he).imp id
      fun he => by cases he

end

/-! ## steps at a time -/

/-- how the world answers a call at a time: the store finds it on the clock of the database -/
def World.EffectAt (store : PgStore) (behaviour : GarageBehaviour) (t : Timestamp) (w : World) :
    (e : Call) → e.Answer → World → Prop
  | .store call, answer, w' =>
    (∃ env, env.clock = t ∧ StoreStep store w.db ⟨env, call, answer⟩ w'.db) ∧ w'.garage = w.garage
  | .garage call, answer, w' => behaviour w.garage call answer w'.garage ∧ w'.db = w.db
  | .query q, answer, w' => q.Reads w.db answer ∧ w' = w

section
variable {store : PgStore} {behaviour : GarageBehaviour} {t : Timestamp} {w w' : World} {e : Call}
  {a : e.Answer}

theorem World.EffectAt.effect (h : World.EffectAt store behaviour t w e a w') :
    World.Effect store behaviour w e a w' := by
  cases e with
  | store call =>
    obtain ⟨⟨env, -, hstep⟩, hgarage⟩ := h
    exact ⟨⟨env, hstep⟩, hgarage⟩
  | garage call => exact h
  | query q => exact h

/-- what a call can do to a receipt within its lease -/
theorem heldUntil_effect (h : World.EffectAt store behaviour t w e a w')
    {operation : OperationRequest} {o : Uuid} {u : Timestamp}
    (hheld : w.db.HeldUntil operation o u) (ht : t < u) (hu : u ≤ t + seconds operationLeaseSeconds) :
    w'.db.HeldUntil operation o u ∨
    ∃ finish : FinishCall, (⟨e, a⟩ : (e : Call) × e.Answer) =
      ⟨.store (.finish finish), Except.ok ()⟩ ∧ finish.operationId = o := by
  cases e with
  | store call =>
    obtain ⟨⟨env, rfl, hstep⟩, -⟩ := h
    exact heldUntil_step hstep hheld ht hu
  | garage call => exact .inl (h.2 ▸ hheld)
  | query q =>
    obtain rfl : w' = w := h.2
    exact .inl hheld

end

/-- the handlers, the time, and when each of them renewed its lease last -/
structure Timed where
  system : System
  now : Timestamp
  renewed : Nat → Timestamp

def Timed.start (garage : Garage) (t : Timestamp) : Timed := ⟨.start garage, t, fun _ => t⟩

/-- the entry is a renewal that succeeded -/
def renews : (e : Call) × e.Answer → Bool
  | ⟨.store (.renewOperation _ _), .ok _⟩ => true
  | _ => false

/-- the times of renewal after an event -/
def renewedAt (t : Timestamp) (renewed : Nat → Timestamp) : SystemEvent → Nat → Timestamp
  | .act i e a => if renews ⟨e, a⟩ then Function.update renewed i t else renewed
  | _ => renewed

/-- A step of the handlers at a time.  Ids handed out are new ones, and keys are listed before the
lease that the handler renewed has run out. -/
structure ClockStep (store : PgStore) (behaviour : GarageBehaviour) (state : AppState) (σ : Timed)
    (ev : SystemEvent) (σ' : Timed) : Prop where
  forward : σ.now ≤ σ'.now
  step : Pool.Step (World.EffectAt store behaviour σ'.now) (handle state) σ.system ev σ'.system
  renewed : σ'.renewed = renewedAt σ'.now σ.renewed ev
  unused : ∀ i e a, ev = .act i e a → Unused σ.system.log ⟨e, a⟩
  promptly : ∀ i a, ev = .act i (.garage .listKeys) a →
    σ'.now < σ.renewed i + seconds operationLeaseSeconds

/-- an execution that has renewed its lease and is within it holds its receipt -/
structure Timed.Leased (σ : Timed) : Prop where
  past : ∀ i, σ.renewed i ≤ σ.now
  held : ∀ {i : Nat} {call : PrepareCall} {o : Uuid} {context : call.Context},
    Granted (σ.system.log i) call o context →
    ⟨.store (.renewOperation call.operation o), Except.ok ()⟩ ∈ σ.system.log i →
    Unfinished (σ.system.log i) → σ.now < σ.renewed i + seconds operationLeaseSeconds →
    σ.system.world.db.HeldUntil call.operation o (σ.renewed i + seconds operationLeaseSeconds)

section
variable {store : PgStore} {behaviour : GarageBehaviour} {state : AppState} {start : Garage}
  {σ σ' : Timed} {ev : SystemEvent}

theorem renews_iff {x : (e : Call) × e.Answer} : renews x = true ↔
    ∃ operation o, x = ⟨.store (.renewOperation operation o), Except.ok ()⟩ := by
  constructor
  · intro h
    unfold renews at h
    split at h
    · exact ⟨_, _, rfl⟩
    · cases h
  · rintro ⟨operation, o, rfl⟩
    rfl

theorem renewedAt_le {t : Timestamp} {renewed : Nat → Timestamp} (h : ∀ i, renewed i ≤ t) (i : Nat) :
    renewedAt t renewed ev i ≤ t := by
  unfold renewedAt
  split
  · split
    · rename_i j _ _ _
      by_cases hi : i = j
      · rw [hi, Function.update_self]
      · rw [Function.update_of_ne hi]
        exact h i
    · exact h i
  · exact h i

/-- only its own renewal changes the time of a handler -/
theorem renewedAt_other {t : Timestamp} {renewed : Nat → Timestamp} {i j : Nat} {e : Call}
    {a : e.Answer} (h : j = i → renews ⟨e, a⟩ = false) :
    renewedAt t renewed (.act i e a) j = renewed j := by
  show (if renews ⟨e, a⟩ then Function.update renewed i t else renewed) j = renewed j
  split
  · rename_i hrenews
    refine Function.update_of_ne (fun hj => ?_) _ _
    rw [h hj] at hrenews
    cases hrenews
  · rfl

theorem ClockStep.systemStep (hdocumented : behaviour.Refines Garage.Documented)
    (h : ClockStep store behaviour state σ ev σ') :
    SystemStep store Garage.Documented state σ.system ev σ'.system :=
  h.step.mono fun _ _ _ _ he => he.effect.mono hdocumented

/-- **within the lease keys are listed while the receipt is held** -/
theorem ClockStep.timely (hdocumented : behaviour.Refines Garage.Documented)
    (h : ClockStep store behaviour state σ ev σ') (hs : σ.system.Orderly store start)
    (hleased : σ.Leased) : TimelyStep store state σ.system ev σ'.system := by
  refine ⟨h.systemStep hdocumented, fun i e a hev => ⟨h.unused i e a hev, ?_⟩⟩
  rintro rfl call o context hg
  rcases h.step.logs with ⟨hno, -, -⟩ | ⟨i', t, e, next, a', hev', hi, hrest, -, -⟩
  · exact absurd hev (hno _ _ _)
  · obtain rfl := hev
    cases hev'
    have hcond := (hs.asks hi hrest).2
    have hnow := h.forward.trans_lt (h.promptly i a rfl)
    exact (hleased.held hg (hcond.listed rfl hg) hcond.unfinished hnow).heldBy

/-- what an execution has on record, unless its renewal is what was added -/
theorem record_before {log : CallLog} {x : (e : Call) × e.Answer} {call : PrepareCall} {o : Uuid}
    {context : call.Context} (hfirst : ∀ call, x.1 = .store (.prepare call) → log = [])
    (hg : Granted (log ++ [x]) call o context)
    (hrenew : ⟨.store (.renewOperation call.operation o), Except.ok ()⟩ ∈ log ++ [x])
    (hu : Unfinished (log ++ [x])) (hx : renews x = false) : Granted log call o context ∧
      ⟨.store (.renewOperation call.operation o), Except.ok ()⟩ ∈ log ∧ Unfinished log := by
  have hrenew : ⟨.store (.renewOperation call.operation o), Except.ok ()⟩ ∈ log := by
    refine (List.mem_append.mp hrenew).resolve_right fun hmem => ?_
    rw [renews_iff.mpr ⟨_, _, (List.mem_singleton.mp hmem).symm⟩] at hx
    cases hx
  exact ⟨granted_append hfirst hg hrenew, hrenew,
    fun finish hmem => hu finish (List.mem_append_left _ hmem)⟩

/-- **a step keeps the leases** -/
theorem Timed.Leased.step (hleased : σ.Leased) (hs : σ.system.Orderly store start)
    (h : ClockStep store behaviour state σ ev σ') : σ'.Leased := by
  have hpast : ∀ i, σ.renewed i ≤ σ'.now := fun i => (hleased.past i).trans h.forward
  refine ⟨fun i => h.renewed ▸ renewedAt_le hpast i, ?_⟩
  rcases h.step.logs with ⟨hno, hworld, hlog⟩ | ⟨i, t, e, next, a, rfl, hi, hrest, heff, hlog⟩
  · have hrenewed : σ'.renewed = σ.renewed := by
      rw [h.renewed]
      cases ev with
      | spawn request => rfl
      | act i e a => exact absurd rfl (hno i e a)
      | crash i => rfl
    intro i call o context hg hrenew hu hnow
    rw [hlog] at hg hrenew hu
    rw [hrenewed] at hnow ⊢
    rw [hworld]
    exact hleased.held hg hrenew hu (h.forward.trans_lt hnow)
  · obtain ⟨hmay, hcond⟩ := hs.asks hi hrest
    intro j call o context hg hrenew hu hnow
    rw [hlog] at hg hrenew hu
    by_cases hown : j = i ∧ renews ⟨e, a⟩ = true
    · -- the handler renews its lease now
      obtain ⟨rfl, hrenews⟩ := hown
      obtain ⟨operation, o', heq⟩ := renews_iff.mp hrenews
      cases heq
      rw [Function.update_self] at hg
      obtain ⟨⟨env, hclock, hstep⟩, -⟩ := heff
      cases hmay with
      | renew hg' =>
        have hg := granted_append hcond.prepare hg hg'
        cases hs.fenced.granted_once hg hg'
        have hnow : σ'.renewed j = σ'.now := by
          rw [h.renewed]
          exact Function.update_self ..
        rw [hnow, ← hclock]
        exact heldUntil_renewed hstep
    · have hother : j = i → renews ⟨e, a⟩ = false :=
        fun hj => Bool.eq_false_iff.mpr fun hr => hown ⟨hj, hr⟩
      have hsame : σ'.renewed j = σ.renewed j := by
        rw [h.renewed]
        exact renewedAt_other hother
      have hbefore : Granted (σ.system.log j) call o context ∧
          ⟨.store (.renewOperation call.operation o), Except.ok ()⟩ ∈ σ.system.log j ∧
          Unfinished (σ.system.log j) := by
        by_cases hj : j = i
        · subst hj
          rw [Function.update_self] at hg hrenew hu
          exact record_before hcond.prepare hg hrenew hu (hother rfl)
        · rw [Function.update_of_ne hj] at hg hrenew hu
          exact ⟨hg, hrenew, hu⟩
      obtain ⟨hg₀, hrenew₀, hu₀⟩ := hbefore
      rw [hsame] at hnow ⊢
      have hheld := hleased.held hg₀ hrenew₀ hu₀ (h.forward.trans_lt hnow)
      rcases heldUntil_effect heff hheld hnow (add_le_add_left (hpast j) _) with
        hheld | ⟨finish, heq, ho⟩
      · exact hheld
      · -- only the holder completes the operation, and it has not
        cases heq
        obtain ⟨prepare, context', hgranted, -⟩ := hmay.completes.granted
        obtain rfl := hs.fenced.given ⟨_, _, hg₀⟩ ⟨prepare, context', ho ▸ hgranted⟩
        rw [Function.update_self] at hu
        exact absurd (List.mem_append_right _ List.mem_cons_self) (hu finish)

theorem leased_start (t : Timestamp) : (Timed.start start t).Leased :=
  ⟨fun _ => le_refl t, fun hg => by cases hg⟩

theorem run_leased (hdocumented : behaviour.Refines Garage.Documented) {tr : List SystemEvent}
    {t : Timestamp} (h : Run (ClockStep store behaviour state) (.start start t) tr σ) :
    σ.system.Orderly store start ∧ σ.Leased :=
  h.invariant (fun σ => σ.system.Orderly store start ∧ σ.Leased)
    (fun _ _ _ hs h => ⟨hs.1.step (h.timely hdocumented hs.1 hs.2), hs.2.step hs.1 h⟩)
    ⟨orderly_start, leased_start t⟩

end

/-- **Credentials survive.**  Handlers run in any interleaving beside a Garage as documented: leases
run out and are taken over, executions go on after that, crash, or lose answers.  No id is handed
out to two operations, the clock of the database does not go back, and a create lists keys within
the 120 seconds after it has renewed its lease.  Then a credential on record that nobody was told to
remove is active, and its key is in Garage: with the permissions on record on the bucket of its
service, and with none on any other. -/
theorem credentials_survive (store : PgStore) (behaviour : GarageBehaviour)
    (hdocumented : behaviour.Refines Garage.Documented) (state : AppState) (start : Garage)
    (t : Timestamp) (tr : List SystemEvent) (σ : Timed)
    (h : Run (ClockStep store behaviour state) (.start start t) tr σ) (c : CredentialRow)
    (hc : c ∈ σ.system.world.db.credentials.rows)
    (hsafe : ∀ t ∈ σ.system.threads, ∀ call o context, Granted t.log call o context →
      ¬ call.Removes c.serviceInstanceId c.id) :
    c.status = .active ∧ ∃ key b p, σ.system.world.garage.keys.lookup c.garageKeyId = some key ∧
      σ.system.world.db.Recorded c.serviceInstanceId b ∧
      BucketPermissions.fromValue c.permissions = some p ∧
      ∀ b', key.grants b' = if b' = b then .ofDomain p else .none := by
  refine (run_leased hdocumented h).1.survives hc fun j call o context hg => ?_
  cases ht : σ.system.threads[j]? with
  | none =>
    rw [Pool.log, ht] at hg
    cases hg
  | some t =>
    rw [Pool.log_of_thread ht] at hg
    exact hsafe t (List.mem_of_getElem? ht) call o context hg

/-! ## scripts at a time -/

/-- the call and the operation id of an `Execute` answer -/
def grantOf : (e : Call) × e.Answer → Option (PrepareCall × Uuid)
  | ⟨.store (.prepare call), .ok (.execute o _)⟩ => some (call, o)
  | _ => none

/-- the credential id of an `Execute` answer, and the key of the operation it was drawn for -/
def drawnFor : (e : Call) × e.Answer → Option (Uuid × Uuid)
  | ⟨.store (.prepare (.createCredential command)), .ok (.execute _ context)⟩ =>
    some (CreateCredentialContext.credentialId context, command.operation.idempotencyKey)
  | _ => none

namespace System

/-- every entry of the logs passes -/
def allEntries (s : System) (p : (e : Call) × e.Answer → Bool) : Bool :=
  s.threads.all fun t => t.log.all p

/-- the ids of an entry are new -/
def unused (s : System) (x : (e : Call) × e.Answer) : Bool :=
  ((grantOf x).all fun grant => s.allEntries fun y =>
    (grantOf y).all fun other => decide (other.2 ≠ grant.2)) &&
  ((drawnFor x).all fun drawn => s.allEntries fun y =>
    (drawnFor y).all fun other => decide (other.1 = drawn.1 → other.2 = drawn.2))

theorem allEntries_log {s : System} {p : (e : Call) × e.Answer → Bool}
    (h : s.allEntries p = true) {j : Nat} {y : (e : Call) × e.Answer} (hy : y ∈ s.log j) :
    p y = true := by
  cases ht : s.threads[j]? with
  | none =>
    rw [Pool.log, ht] at hy
    cases hy
  | some t =>
    rw [Pool.log_of_thread ht] at hy
    exact List.all_eq_true.mp (List.all_eq_true.mp h t (List.mem_of_getElem? ht)) y hy

theorem unused_sound {s : System} {x : (e : Call) × e.Answer} (h : s.unused x = true) :
    Unused s.log x := by
  obtain ⟨hgrant, hdrawn⟩ := Bool.and_eq_true_iff.mp h
  refine ⟨?_, ?_⟩
  · rintro call o context rfl j ⟨call', context', hg⟩
    exact of_decide_eq_true (allEntries_log hgrant hg) rfl
  · rintro command command' o o' context context' j rfl hg hid
    exact of_decide_eq_true (allEntries_log hdrawn hg) hid

end System

namespace Timed
variable (store : PgStore) (state : AppState)

/-- the time of a move -/
def timeOf (σ : Timed) : Move → Timestamp
  | .act _ choice => choice.env.clock
  | _ => σ.now

/-- what is assumed of an event -/
def permits (σ : Timed) (now : Timestamp) : SystemEvent → Bool
  | .act i e a => σ.system.unused ⟨e, a⟩ &&
    (match e with
      | .garage .listKeys => decide (now < σ.renewed i + seconds operationLeaseSeconds)
      | _ => true)
  | _ => true

/-- the moves of a script, as long as they are permitted -/
def play : List Move → Timed → Option (List SystemEvent × Timed)
  | [], σ => some ([], σ)
  | m :: script, σ =>
    match σ.system.move store state m with
    | some (event, s') =>
      if decide (σ.now ≤ σ.timeOf m) && σ.permits (σ.timeOf m) event then
        (play script ⟨s', σ.timeOf m, renewedAt (σ.timeOf m) σ.renewed event⟩).map fun rest =>
          (event :: rest.1, rest.2)
      else none
    | none => play script σ

variable {store state}

theorem perform_effectAt (choice : Choice) (w : World) (e : Call) :
    World.EffectAt store Garage.Documented choice.env.clock w e (w.perform store choice e).1
      (w.perform store choice e).2 := by
  cases e with
  | store call => exact ⟨⟨choice.env, rfl, rfl⟩, rfl⟩
  | garage call => exact ⟨w.garage.perform_documented _ _ call, rfl⟩
  | query q => exact ⟨query_reads _ _ _, rfl⟩

theorem permits_act {σ : Timed} {now : Timestamp} {i : Nat} {e : Call} {a : e.Answer}
    (h : σ.permits now (.act i e a) = true) : Unused σ.system.log ⟨e, a⟩ ∧
      (e = .garage .listKeys → now < σ.renewed i + seconds operationLeaseSeconds) := by
  obtain ⟨hunused, hlist⟩ := Bool.and_eq_true_iff.mp h
  refine ⟨System.unused_sound hunused, ?_⟩
  rintro rfl
  exact of_decide_eq_true hlist

/-- **a script is a run** -/
theorem play_run (script : List Move) (σ : Timed) {tr : List SystemEvent} {σ' : Timed}
    (h : σ.play store state script = some (tr, σ')) :
    Run (ClockStep store Garage.Documented state) σ tr σ' := by
  induction script generalizing σ tr with
  | nil =>
    cases h
    exact .nil _
  | cons m script ih =>
    unfold play at h
    split at h
    · rename_i event s' hmove
      split at h
      · rename_i hpermits
        obtain ⟨hforward, hpermits⟩ := Bool.and_eq_true_iff.mp hpermits
        obtain ⟨⟨tr', σ''⟩, hrest, heq⟩ := Option.map_eq_some_iff.mp h
        cases heq
        have hstep : Pool.Step (World.EffectAt store Garage.Documented (σ.timeOf m)) (handle state)
            σ.system event s' :=
          Pool.take_step (fun i choice hm => hm ▸ perform_effectAt choice) hmove
        refine .cons ⟨of_decide_eq_true hforward, hstep, rfl, ?_, ?_⟩ (ih _ hrest)
        · rintro i e a rfl
          exact (permits_act hpermits).1
        · rintro i a rfl
          exact (permits_act hpermits).2 rfl
      · cases h
    · exact ih σ h

end Timed

/-- The first execution of a create is taken over after it has made the key `k`; the second deletes
`k`, makes `l` and completes; then the first goes on. -/
def Sample.contested : List Move :=
  Sample.opened ++ .spawn (Sample.createRequest 101 10 "key") :: Sample.go 1 2 10 4 "k" ++
    .spawn (Sample.createRequest 101 10 "key") :: Sample.go 2 1000 30 9 "l" ++
    Sample.go 1 1001 50 3 ""

/-- `l` is the key of the credential, and it works -/
theorem credentials_survive_contested :
    ∃ tr σ c, Timed.play PgStore.reference AppState.reference Sample.contested
        (.start .empty 0) = some (tr, σ) ∧
      σ.system.world.db.credentials.lookup 2010 = some c ∧ c.garageKeyId = "l" ∧
      c.status = .active ∧ ∃ key b p, σ.system.world.garage.keys.lookup c.garageKeyId = some key ∧
        σ.system.world.db.Recorded c.serviceInstanceId b ∧
        BucketPermissions.fromValue c.permissions = some p ∧
        ∀ b', key.grants b' = if b' = b then .ofDomain p else .none := by
  have hfacts : (Timed.play PgStore.reference AppState.reference Sample.contested
      (.start .empty 0)).any (fun after =>
        (after.2.system.world.db.credentials.lookup 2010).any
          (fun c => decide (c.serviceInstanceId = 10 ∧ c.garageKeyId = "l")) &&
        after.2.system.allEntries fun y =>
          (grantOf y).all fun g => decide (¬ g.1.Removes 10 2010)) = true := by
    decide +kernel
  obtain ⟨⟨tr, σ⟩, hplay, hafter⟩ := (Option.any_eq_true _ _).mp hfacts
  obtain ⟨hcredential, hkept⟩ := Bool.and_eq_true_iff.mp hafter
  obtain ⟨c, hc, hrow⟩ := (Option.any_eq_true _ _).mp hcredential
  obtain ⟨hservice, hkey⟩ := of_decide_eq_true hrow
  have hid : c.id = 2010 := Table.lookup_key hc
  refine ⟨tr, σ, c, hplay, hc, hkey, credentials_survive PgStore.reference Garage.Documented .refl
    AppState.reference Garage.empty 0 tr σ (Timed.play_run _ _ hplay) c (Table.lookup_mem hc) ?_⟩
  intro t ht call o context hg hremoves
  rw [hservice, hid] at hremoves
  have hentry := List.all_eq_true.mp (List.all_eq_true.mp hkept t ht) _ hg
  exact of_decide_eq_true hentry hremoves

end Syouyu
