import Syouyu.Lib.Locks
import Syouyu.Store.Reference

/-!
# Locks of the store calls

The advisory locks and the row locks on receipts that the calls of `lib.rs` take and keep until
they commit.

* `StoreCall.locks`        the locks of each call, branch by branch;
* `StoreCall.Discipline`   what a call holds when it asks for a lock; `locks_along`;
* `Apart`                  nobody finishes a receipt while somebody takes it over;
* `deadlock_free`          **without that, there is no cycle of waiting transactions**;
* `takeover_deadlocks`     with it, there is one: the takeover holds the receipt and waits for the
                           service, the late completion holds the service and waits for the receipt.
-/

set_option linter.unusedSectionVars false

namespace Syouyu
open Lib

/-- `operation:K`, `organization:credentials:O` and `service-instance:S` are advisory locks, the
last one is the row lock of a receipt -/
inductive Lock where
  | operation (idempotencyKey : Uuid)
  | organization (organizationId : Uuid)
  | service (serviceInstanceId : Uuid)
  | receipt (idempotencyKey : Uuid)
  deriving DecidableEq, Repr

/-! ## the locks of each call -/

/-- `lock_service` is the last lock of a prepare call -/
def lockService (serviceInstanceId : Uuid) : Locking Database Lock :=
  .acquire (.service serviceInstanceId) .done

/-- `SELECT .. FOR UPDATE` locks the receipt if there is one -/
def lockReceipt (idempotencyKey : Uuid) (missing found : Locking Database Lock) :
    Locking Database Lock :=
  .look fun db => match db.receipts.lookup idempotencyKey with
    | none => missing
    | some _ => .acquire (.receipt idempotencyKey) found

/-- what a prepare call locks after its claim -/
def PrepareCall.lockScope : PrepareCall → Locking Database Lock
  | .reconcile command => lockService command.operation.serviceInstanceId
  | .delete command => .acquire (.organization command.operation.organizationId)
      (lockService command.operation.serviceInstanceId)
  | .createCredential command => .acquire (.organization command.operation.organizationId)
      (lockService command.operation.serviceInstanceId)
  | .revokeCredential command => lockService command.operation.serviceInstanceId

/-- an existing receipt that is not taken over answers for itself, and the call commits -/
def PrepareCall.lockClaimed (store : PgStore) (env : CallEnv) (call : PrepareCall) :
    Locking Database Lock :=
  .look fun db => match claimExistingReceipt store env call.operation db with
    | .ok (.new, _) => call.lockScope
    | .ok (.takenOver _, _) => call.lockScope
    | .ok (.prepared _, _) => .done
    | .error _ => .done

def PrepareCall.locks (store : PgStore) (env : CallEnv) (call : PrepareCall) :
    Locking Database Lock :=
  match call.validate with
  | .error _ => .done
  | .ok _ => .acquire (.operation call.operation.idempotencyKey)
      (lockReceipt call.operation.idempotencyKey call.lockScope (call.lockClaimed store env))

/-- `complete_create_credential` and `fail_operation` lock the organization first -/
def Completion.lockScope (completion : Completion) (rest : Locking Database Lock) :
    Locking Database Lock :=
  match completion with
  | .reconcile command _ => .acquire (.service command.operation.serviceInstanceId) rest
  | .delete command => .acquire (.service command.operation.serviceInstanceId) rest
  | .revokeCredential command => .acquire (.service command.operation.serviceInstanceId) rest
  | .createCredential command _ => .acquire (.organization command.operation.organizationId)
      (.acquire (.service command.operation.serviceInstanceId) rest)
  | .fail operation => .acquire (.organization operation.organizationId)
      (.acquire (.service operation.serviceInstanceId) rest)

/-- a finishing call opens its transaction after its checks, and `require_in_progress_receipt`
locks the receipt -/
def FinishCall.locks (call : FinishCall) : Locking Database Lock :=
  if call.completion.precheck call.response then
    call.completion.lockScope (lockReceipt call.operation.idempotencyKey .done .done)
  else .done

def lockRenewal (operation : OperationRequest) : Locking Database Lock :=
  match operation.validate with
  | .error _ => .done
  | .ok _ => .acquire (.operation operation.idempotencyKey)
      (lockReceipt operation.idempotencyKey .done .done)

/-- the other calls take none of these locks -/
def StoreCall.locks (store : PgStore) (env : CallEnv) : StoreCall → Locking Database Lock
  | .prepare call => call.locks store env
  | .finish call => call.locks
  | .renewOperation operation _ => lockRenewal operation
  | _ => .done

/-- the receipt a call is about -/
def StoreCall.key? : StoreCall → Option Uuid
  | .prepare call => some call.operation.idempotencyKey
  | .finish call => some call.operation.idempotencyKey
  | .renewOperation operation _ => some operation.idempotencyKey
  | _ => none

abbrev StoreTxs := LockState (CallEnv × StoreCall) Database Lock

/-- a call that has all its locks commits, as one atomic step of the store -/
abbrev LockStep (store : PgStore) : StoreTxs → LockAction (CallEnv × StoreCall) → StoreTxs → Prop :=
  LockState.Step (fun c => c.2.locks store c.1) fun c db => (c.2.run store c.1 db).2

/-! ## the discipline -/

def Lock.rank : Lock → Nat
  | .operation _ => 0
  | .organization _ => 1
  | .service _ => 2
  | .receipt _ => 3

def StoreCall.isPrepare : StoreCall → Bool
  | .prepare _ => true
  | _ => false

def StoreCall.isFinish : StoreCall → Bool
  | .finish _ => true
  | _ => false

/-- Locks are taken in the order of their rank, except that a prepare call goes on after the row of
its receipt; and the row of a receipt is locked under the lock of its operation, except by a
finishing call. -/
structure StoreCall.Discipline (call : StoreCall) (held : List Lock) (lock : Lock) : Prop where
  ascending : ∀ l ∈ held, l.rank < lock.rank ∨
    ∃ k, l = .receipt k ∧ lock.rank < l.rank ∧ call.isPrepare = true ∧ call.key? = some k ∧
      Lock.operation k ∈ held
  receipt : ∀ k, lock = .receipt k → call.key? = some k ∧
    (call.isFinish = true ∨ Lock.operation k ∈ held)

theorem lockReceipt_along {P : List Lock → Lock → Prop} {k : Uuid} {held : List Lock}
    {missing found : Locking Database Lock} (hmissing : missing.Along P held)
    (hk : P held (.receipt k)) (hfound : found.Along P (.receipt k :: held)) :
    (lockReceipt k missing found).Along P held := by
  intro db
  beta_reduce
  split
  · exact hmissing
  · exact ⟨hk, hfound⟩

theorem Discipline.first {call : StoreCall} {lock : Lock} (h : ∀ k, lock ≠ .receipt k) :
    call.Discipline [] lock :=
  ⟨fun _ hl => (List.not_mem_nil hl).elim, fun k hk => absurd hk (h k)⟩

/-- the receipt right after the operation -/
theorem Discipline.second {call : StoreCall} {k : Uuid} (h : call.key? = some k) :
    call.Discipline [.operation k] (.receipt k) := by
  refine ⟨fun l hl => ?_, fun k' hk => ?_⟩
  · rw [List.mem_singleton.mp hl]
    exact .inl (by simp [Lock.rank])
  · obtain rfl := Lock.receipt.inj hk
    exact ⟨h, .inr List.mem_cons_self⟩

section
variable {store : PgStore} {env : CallEnv}

/-- after its claim a prepare call holds the lock of its operation and perhaps the receipt -/
theorem PrepareCall.lockScope_along (call : PrepareCall) {held : List Lock}
    (hheld : held = [.operation call.operation.idempotencyKey] ∨
      held = [.receipt call.operation.idempotencyKey, .operation call.operation.idempotencyKey]) :
    call.lockScope.Along (StoreCall.prepare call).Discipline held := by
  -- every lock from here on is above the operation lock, and the receipt is the call's own
  have hstep : ∀ (o : List Lock) (lock : Lock), (∀ l ∈ o, l.rank < lock.rank) →
      0 < lock.rank ∧ lock.rank < 3 → (StoreCall.prepare call).Discipline (o ++ held) lock := by
    intro o lock ho ⟨hpos, hlt⟩
    refine ⟨fun l hl => ?_, fun k hk => absurd (hk ▸ hlt) (lt_irrefl 3)⟩
    rcases List.mem_append.mp hl with hl | hl
    · exact .inl (ho l hl)
    · rcases hheld with rfl | rfl
      · rw [List.mem_singleton.mp hl]
        exact .inl hpos
      · rcases List.mem_cons.mp hl with rfl | hl
        · exact .inr ⟨_, rfl, hlt, rfl, rfl, by simp⟩
        · rw [List.mem_singleton.mp hl]
          exact .inl hpos
  have hservice : ∀ s, (lockService s).Along (StoreCall.prepare call).Discipline held := fun s =>
    ⟨hstep [] _ (fun _ h => (List.not_mem_nil h).elim) (by simp [Lock.rank]), trivial⟩
  have hboth : ∀ o s, (Locking.acquire (.organization o) (lockService s) :
      Locking Database Lock).Along (StoreCall.prepare call).Discipline held := fun o s =>
    ⟨hstep [] _ (fun _ h => (List.not_mem_nil h).elim) (by simp [Lock.rank]),
      hstep [.organization o] _ (fun l hl => by rw [List.mem_singleton.mp hl]; simp [Lock.rank]) (by simp [Lock.rank]),
      trivial⟩
  cases call with
  | reconcile command => exact hservice _
  | delete command => exact hboth _ _
  | createCredential command => exact hboth _ _
  | revokeCredential command => exact hservice _

theorem PrepareCall.locks_along (call : PrepareCall) :
    (call.locks store env).Along (StoreCall.prepare call).Discipline [] := by
  unfold PrepareCall.locks
  split
  · trivial
  refine ⟨Discipline.first nofun, lockReceipt_along (call.lockScope_along (.inl rfl))
    (Discipline.second rfl) fun db => ?_⟩
  beta_reduce
  split
  · exact call.lockScope_along (.inr rfl)
  · exact call.lockScope_along (.inr rfl)
  · trivial
  · trivial

theorem FinishCall.locks_along (call : FinishCall) :
    call.locks.Along (StoreCall.finish call).Discipline [] := by
  -- the receipt comes after the service
  have hreceipt : ∀ held : List Lock, (∀ l ∈ held, l.rank < 3) →
      (lockReceipt call.operation.idempotencyKey .done .done).Along
        (StoreCall.finish call).Discipline held := by
    intro held hheld
    refine lockReceipt_along trivial ⟨fun l hl => .inl (hheld l hl), fun k hk => ?_⟩ trivial
    obtain rfl := Lock.receipt.inj hk
    exact ⟨rfl, .inl rfl⟩
  have hservice : ∀ s, (Locking.acquire (.service s) (lockReceipt call.operation.idempotencyKey
      .done .done)).Along (StoreCall.finish call).Discipline [] := fun s =>
    ⟨Discipline.first nofun, hreceipt _ fun l hl => by rw [List.mem_singleton.mp hl]; simp [Lock.rank]⟩
  have hboth : ∀ o s, (Locking.acquire (.organization o) (.acquire (.service s)
      (lockReceipt call.operation.idempotencyKey .done .done))).Along
      (StoreCall.finish call).Discipline [] := by
    refine fun o s => ⟨Discipline.first nofun, ⟨fun l hl => ?_, nofun⟩, hreceipt _ fun l hl => ?_⟩
    · rw [List.mem_singleton.mp hl]
      exact .inl (by simp [Lock.rank])
    · rcases List.mem_cons.mp hl with rfl | hl
      · simp [Lock.rank]
      · rw [List.mem_singleton.mp hl]
        simp [Lock.rank]
  unfold FinishCall.locks
  split
  · cases hc : call.completion with
    | reconcile command pid => exact hservice _
    | delete command => exact hservice _
    | createCredential command credential => exact hboth _ _
    | revokeCredential command => exact hservice _
    | fail operation => exact hboth _ _
  · trivial

/-- **every call keeps the discipline** -/
theorem StoreCall.locks_along (call : StoreCall) :
    (call.locks store env).Along call.Discipline [] := by
  cases call with
  | prepare call => exact call.locks_along
  | finish call => exact call.locks_along
  | renewOperation operation o =>
    show (lockRenewal operation).Along _ []
    unfold lockRenewal
    split
    · trivial
    exact ⟨Discipline.first nofun, lockReceipt_along trivial (Discipline.second rfl) trivial⟩
  | _ => trivial

/-! ## deadlocks -/

/-- a prepare call that goes on after the row of its receipt takes the receipt over -/
def TakesOver (t : LockTx (CallEnv × StoreCall) Database Lock) (k : Uuid) : Prop :=
  t.call.2.isPrepare = true ∧ t.call.2.key? = some k ∧ Lock.receipt k ∈ t.held ∧
    t.rest.wants ≠ none

def Finishes (t : LockTx (CallEnv × StoreCall) Database Lock) (k : Uuid) : Prop :=
  t.call.2.isFinish = true ∧ t.call.2.key? = some k

/-- nobody finishes a receipt while somebody takes it over -/
def Apart (s : StoreTxs) : Prop :=
  ∀ i j t u k, s.tx i = some t → s.tx j = some u → TakesOver t k → ¬ Finishes u k

variable {s : StoreTxs} {tr : List (LockAction (CallEnv × StoreCall))}

/-- **waiting ascends**, where no takeover meets a late completion -/
theorem waits_ascend (hs : s.Sound fun c => c.2.Discipline) (hapart : Apart s) {i j k : Nat}
    {lock lock' : Lock} (hij : s.WaitsOn i j lock) (hjk : s.WaitsOn j k lock') :
    lock.rank < lock'.rank := by
  obtain ⟨t, u, ht, htw, hu, hlock⟩ := hij
  obtain ⟨u', -, hu', huw, -⟩ := hjk
  obtain rfl : u = u' := Option.some.inj (hu.symm.trans hu')
  rcases ((hs.along j u hu).wants huw).ascending lock hlock with
    hless | ⟨key, rfl, hback, hp, hkey, hop⟩
  · exact hless
  · -- `j` takes the receipt over that `i` waits for
    exfalso
    obtain ⟨htkey, hfin | hheld⟩ := ((hs.along i t ht).wants htw).receipt key rfl
    · refine hapart j i u t key hu ht ⟨hp, hkey, hlock, ?_⟩ ⟨hfin, htkey⟩
      rw [huw]
      nofun
    · -- both hold the lock of the operation, so they are one and cannot want both locks
      obtain rfl : i = j := hs.exclusive i j t u _ ht hu hheld hop
      obtain rfl : t = u := Option.some.inj (ht.symm.trans hu)
      obtain rfl := Option.some.inj (htw.symm.trans huw)
      exact absurd hback (lt_irrefl _)

/-- **No deadlock apart from late completions.**  Whatever calls run and however their lock
acquisitions interleave: in a state in which nobody finishes a receipt while somebody takes it
over, there is no cycle of transactions that wait for each other. -/
theorem deadlock_free (h : Run (LockStep store) ⟨Database.empty, []⟩ tr s) (hapart : Apart s) :
    ¬ s.Deadlocked := by
  have hs : s.Sound fun c => c.2.Discipline := .run (fun c => c.2.locks_along) h
  exact LockState.not_deadlocked_of_rank Lock.rank fun _ _ _ _ _ => waits_ascend hs hapart

/-! ## scripts -/

/-- the actions of a script, one after the other -/
def lockPlay (store : PgStore) : List (LockAction (CallEnv × StoreCall)) → StoreTxs →
    Option StoreTxs
  | [], s => some s
  | a :: script, s =>
    (s.act (fun c => c.2.locks store c.1) (fun c db => (c.2.run store c.1 db).2) a).bind
      (lockPlay store script)

theorem lockPlay_run {script : List (LockAction (CallEnv × StoreCall))} {s' : StoreTxs}
    (h : lockPlay store script s = some s') : Run (LockStep store) s script s' := by
  induction script generalizing s with
  | nil =>
    obtain rfl := Option.some.inj h
    exact .nil _
  | cons a script ih =>
    obtain ⟨s₁, hstep, hrest⟩ := Option.bind_eq_some_iff.mp h
    exact .cons hstep (ih hrest)

end

namespace Sample

/-- the first reconcile of service 10 is prepared -/
def preparing : List (LockAction (CallEnv × StoreCall)) :=
  [.start (env 0 0, .prepare (.reconcile (reconcile 100 10 "a" "bucket-a" 1))),
   .acquire 0, .look 0, .acquire 0, .commit 0]

/-- its completion, which comes late, has the lock of the service and comes to the receipt -/
def completingLate : List (LockAction (CallEnv × StoreCall)) :=
  [.start (env 200 1, finish (.reconcile (reconcile 100 10 "a" "bucket-a" 1) "garage-a") 1000),
   .acquire 1, .look 1]

/-- a retry takes the receipt over and comes to the lock of the service -/
def takingOver : List (LockAction (CallEnv × StoreCall)) :=
  [.start (env 200 2, .prepare (.reconcile (reconcile 100 10 "a" "bucket-a" 1))),
   .acquire 2, .look 2, .acquire 2, .look 2]

/-- a delete of the service under another key -/
def deleting : List (LockAction (CallEnv × StoreCall)) :=
  [.start (env 200 2, .prepare (.delete (delete 101 10 2))), .acquire 2, .look 2, .acquire 2]

end Sample

/-- what the transaction in slot `i` wants and holds -/
def lockView (s : StoreTxs) (i : Nat) : Option (Option Lock × List Lock) :=
  (s.tx i).map fun t => (t.rest.wants, t.held)

theorem waitsOn_of_view {s : StoreTxs} {i j : Nat} {lock : Lock} {held held' : List Lock}
    {w : Option Lock} (hi : lockView s i = some (some lock, held))
    (hj : lockView s j = some (w, held')) (h : lock ∈ held') : s.WaitsOn i j lock := by
  obtain ⟨t, ht, hview⟩ := Option.map_eq_some_iff.mp hi
  obtain ⟨u, hu, hview'⟩ := Option.map_eq_some_iff.mp hj
  obtain ⟨hw, -⟩ := Prod.mk.inj hview
  obtain ⟨-, hheld⟩ := Prod.mk.inj hview'
  exact ⟨t, u, ht, hw, hu, hheld ▸ h⟩

/-- a delete waits for the late completion of a reconcile, and that is all -/
theorem deadlock_free_deleting :
    ∃ s, Run (LockStep PgStore.reference) ⟨Database.empty, []⟩
        (Sample.preparing ++ Sample.completingLate ++ Sample.deleting) s ∧
      s.WaitsOn 2 1 (.service 10) ∧ ¬ s.Deadlocked := by
  obtain ⟨s, hplay, hs⟩ := (Option.any_eq_true _ _).mp (show
    (lockPlay PgStore.reference (Sample.preparing ++ Sample.completingLate ++ Sample.deleting)
      ⟨Database.empty, []⟩).any (fun s =>
        decide (lockView s 1 = some (some (.receipt 100), [.service 10])) &&
        decide (lockView s 2 = some (some (.service 10), [.organization 1, .operation 101])) &&
        s.txs.all fun slot => slot.all fun t => t.held.all fun l => decide (l.rank < 3)) = true by
    decide +kernel)
  simp only [Bool.and_eq_true, decide_eq_true_eq, List.all_eq_true] at hs
  obtain ⟨⟨hcomplete, hdelete⟩, hranks⟩ := hs
  have hrun := lockPlay_run hplay
  refine ⟨s, hrun, waitsOn_of_view hdelete hcomplete List.mem_cons_self, deadlock_free hrun ?_⟩
  -- nobody holds a receipt, so nobody takes one over
  intro i j t u k ht hu hover
  have hslot : some t ∈ s.txs := List.mem_of_getElem? (Option.join_eq_some_iff.mp ht)
  have hheld := hranks _ hslot
  simp only [Option.all_some, List.all_eq_true, decide_eq_true_eq] at hheld
  exact absurd (hheld _ hover.2.2.1) (lt_irrefl 3)

/-- **A deadlock.**  The reconcile of service 10 was prepared and its lease has run out.  Its late
completion holds the lock of the service and waits for the receipt; a retry has taken the receipt
over and waits for the lock of the service. -/
theorem takeover_deadlocks :
    ∃ s, Run (LockStep PgStore.reference) ⟨Database.empty, []⟩
        (Sample.preparing ++ Sample.completingLate ++ Sample.takingOver) s ∧
      s.WaitsOn 1 2 (.receipt 100) ∧ s.WaitsOn 2 1 (.service 10) ∧ s.Deadlocked := by
  obtain ⟨s, hplay, hs⟩ := (Option.any_eq_true _ _).mp (show
    (lockPlay PgStore.reference (Sample.preparing ++ Sample.completingLate ++ Sample.takingOver)
      ⟨Database.empty, []⟩).any (fun s =>
        decide (lockView s 1 = some (some (.receipt 100), [.service 10])) &&
        decide (lockView s 2 = some (some (.service 10), [.receipt 100, .operation 100]))) =
      true by decide +kernel)
  simp only [Bool.and_eq_true, decide_eq_true_eq] at hs
  obtain ⟨hcomplete, htakeover⟩ := hs
  have h12 : s.WaitsOn 1 2 (.receipt 100) :=
    waitsOn_of_view hcomplete htakeover List.mem_cons_self
  have h21 : s.WaitsOn 2 1 (.service 10) :=
    waitsOn_of_view htakeover hcomplete List.mem_cons_self
  exact ⟨s, lockPlay_run hplay, h12, h21, 1, .tail (.single ⟨_, h12⟩) ⟨_, h21⟩⟩

end Syouyu
