import Syouyu.Registry.Store
import Syouyu.System.Grants
import Syouyu.System.Script

/-!
# The system refines the registry

Whatever the handlers of concurrent requests do, in whatever order, and whatever Garage answers,
what the tenants see is a run of the registry: one entry for each completed operation, in the order
of their completion, and nothing in between.

* `Recalls`               what the log of a handler says about the database;
* `registry_effect`       **a call of a handler is a step of the registry, or none**;
* `system_registers`      **so a run of the system is a run of the registry**;
* `system_refines_registry`   and no key occurs twice in it.
-/

set_option linter.unusedSectionVars false

namespace Syouyu
open Lib

section
variable {store : PgStore} {behaviour : GarageBehaviour} {state : AppState} {w w' : World}
  {r : Request} {log : CallLog}

/-- a grant in the log of a handler is vouched for -/
def Recalls (w : World) (x : (e : Call) × e.Answer) : Prop :=
  ∀ (call : PrepareCall) (o : Uuid) (context : call.Context),
    x = ⟨.store (.prepare call), Except.ok (Prepare.execute o context)⟩ → w.db.Vouches call context

/-- the entry that an event makes in the registry -/
def entryOf {ρ : Type} : Event ρ Call Call.Answer → Option Registry.Entry
  | .act _ (.store (.finish call)) (.ok _) => call.entryOf
  | _ => none

/-- the tables as the registry needs them -/
structure Database.Orderly (db : Database) (limits : CredentialLimits) : Prop where
  matched : db.Matched
  limited : db.WithinLimits limits
  permissions : ∀ c ∈ db.credentials.rows, (BucketPermissions.fromValue c.permissions).isSome = true

theorem reachable_orderly {db : Database} (h : Reachable store db) :
    db.Orderly store.credentialLimits := by
  have hintact := reachable_intact h
  obtain ⟨tr, hrun⟩ := h
  refine ⟨hrun.invariant Database.Matched (fun _ _ _ hm hs => hm.step hs) .empty, ?_,
    hintact.permissions⟩
  exact (run_replica hrun).invariant (fun db => db.WithinLimits store.credentialLimits)
    (fun _ _ _ hw hs => hw.step hs) .empty

theorem recalls_effect {e : Call} {a : e.Answer} (hreach : Reachable store w.db)
    (h : World.Effect store behaviour w e a w') :
    Pool.Keeps (fun w => Reachable store w.db) Recalls w w' ⟨e, a⟩ where
  inv := hreach.effect h
  holds call o context heq := by
    cases heq
    obtain ⟨⟨env, hstep⟩, -⟩ := h
    exact vouches_of_executed (step_ok hstep)
  stable y hy call o context heq := by
    have hv := hy call o context heq
    cases e with
    | store c =>
      obtain ⟨⟨env, hstep⟩, -⟩ := h
      exact hv.step (reachable_exclusive hreach) hstep
    | garage c => exact h.2 ▸ hv
    | query q => exact congrArg World.db h.2 ▸ hv

/-- a handler that completes an operation was told to execute it, and that still holds -/
theorem recalled_facts (hlog : ∀ x ∈ log, Recalls w x) {call : PrepareCall} {o o' : Uuid}
    {context : call.Context} (hg : Granted log call o context)
    (hheld : w.db.HeldBy call.operation o') : call.Observed w.db context :=
  (hlog _ hg call o context rfl).observed hheld

/-- a completion of a handler is the step of its entry -/
theorem registry_completed {env : CallEnv} {call : FinishCall} (hreach : Reachable store w.db)
    (hlog : ∀ x ∈ log, Recalls w x) (hcompletes : Completes log call)
    (h : call.exec store env w.db = .ok ((), w'.db)) :
    Run (Registry.Step store.credentialLimits) w.db.registry call.entryOf.toList w'.db.registry := by
  obtain ⟨hmatched, hlimited, hpermissions⟩ := reachable_orderly hreach
  have hheld : w.db.HeldBy call.operation call.operationId := (finish_eq_ok.mp h).2.1
  cases hcompletes with
  | @reconcile command o context pid _ _ hg hdone hfailed _ =>
    have hobs := recalled_facts hlog hg hheld
    refine .single (registry_reconciled hmatched h rfl hfailed hobs.1 fun happlied => ?_)
    rcases hdone with ⟨-, hpid⟩ | ⟨hnew, -⟩
    · exact hpid
    · rw [happlied] at hnew
      cases hnew
  | delete hg _ _ _ hfailed _ =>
    exact .single (registry_deleted hmatched h rfl hfailed (recalled_facts hlog hg hheld).facts)
  | create hg _ _ hfailed _ =>
    exact .single (registry_issued hmatched hlimited h rfl hfailed
      (recalled_facts hlog hg hheld).facts)
  | revoke hg _ hfailed _ =>
    exact .single (registry_revoked hmatched hpermissions h rfl hfailed
      (recalled_facts hlog hg hheld).facts)
  | fail _ _ _ =>
    rw [registry_failed h rfl]
    exact .nil _

/-- **a call of a handler is a step of the registry, or none** -/
theorem registry_effect {ρ : Type} {e : Call} {a : e.Answer} (i : Nat)
    (hreach : Reachable store w.db) (hlog : ∀ x ∈ log, Recalls w x)
    (hfinish : ∀ finish, e = .store (.finish finish) → Completes log finish)
    (h : World.Effect store behaviour w e a w') :
    Run (Registry.Step store.credentialLimits) w.db.registry
      (entryOf (.act i e a : Event ρ Call Call.Answer)).toList w'.db.registry := by
  have hsame : w'.db.registry = w.db.registry → Run (Registry.Step store.credentialLimits)
      w.db.registry [] w'.db.registry := fun heq => heq ▸ .nil _
  cases e with
  | store call =>
    obtain ⟨⟨env, hstep⟩, -⟩ := h
    cases call with
    | finish call =>
      cases a with
      | ok u => exact registry_completed hreach hlog (hfinish call rfl) (step_finished hstep)
      | error e => exact hsame (by rw [step_error hstep])
    | prepare call => exact hsame (registry_unfinished hstep fun _ => by simp)
    | renewOperation => exact hsame (registry_unfinished hstep fun _ => by simp)
    | serviceOverview => exact hsame (registry_unfinished hstep fun _ => by simp)
    | listCredentials => exact hsame (registry_unfinished hstep fun _ => by simp)
    | recordUsage => exact hsame (registry_unfinished hstep fun _ => by simp)
    | recordAudit => exact hsame (registry_unfinished hstep fun _ => by simp)
  | garage call => exact hsame (by rw [h.2])
  | query q => exact hsame (by rw [show w' = w from h.2])

/-- every handler keeps to its discipline, and its grants are vouched for -/
def System.Recalled (store : PgStore) (s : System) : Prop :=
  Pool.Sound May (fun w => Reachable store w.db) Recalls s

theorem System.Recalled.start (store : PgStore) (garage : Garage) :
    (System.start garage).Recalled store where
  inv := .empty
  threads t ht := by cases ht

theorem System.Recalled.step {s s' : System} {ev : SystemEvent} (hs : s.Recalled store)
    (h : SystemStep store behaviour state s ev s') : s'.Recalled store :=
  Pool.Step.sound h hs (handle_obeys state) fun _ _ _ _ _ _ hreach _ _ heffect =>
    recalls_effect hreach heffect

theorem System.Recalled.registers {s s' : System} {ev : SystemEvent} (hs : s.Recalled store)
    (h : SystemStep store behaviour state s ev s') :
    Run (Registry.Step store.credentialLimits) s.world.db.registry (entryOf ev).toList
      s'.world.db.registry := by
  cases h with
  | spawn request => exact .nil _
  | crash hi => exact .nil _
  | @act i t e next a w hi hrest heffect =>
    obtain ⟨hobeys, hlog⟩ := hs.threads t (List.mem_of_getElem? hi)
    have hmay := (hobeys _ hrest).1
    refine registry_effect i hs.inv hlog (fun finish heq => ?_) heffect
    subst heq
    exact hmay.completes

/-- **a run of the system is a run of the registry** -/
theorem system_registers {garage : Garage} {tr : List SystemEvent} {s : System}
    (h : Run (SystemStep store behaviour state) (System.start garage) tr s) :
    Run (Registry.Step store.credentialLimits) Registry.empty (tr.filterMap entryOf)
      s.world.db.registry := by
  have hrun := h.simulate (f := fun s => s.world.db.registry) (System.Recalled store)
    (fun _ _ _ hs h => hs.step h) (fun _ _ _ hs h => hs.registers h) (.start store garage)
  rwa [show (System.start garage).world.db.registry = .empty from registry_empty] at hrun

/-- **the system refines the registry**: whatever the order of the calls and whatever Garage answers,
the tables hold what the completed operations, each done once, have made of an empty registry -/
theorem system_refines_registry {garage : Garage} {tr : List SystemEvent} {s : System}
    (h : Run (SystemStep store behaviour state) (System.start garage) tr s) :
    Run (Registry.Step store.credentialLimits) Registry.empty (tr.filterMap entryOf)
        s.world.db.registry ∧
      ((tr.filterMap entryOf).map Registry.Entry.key).Nodup ∧ s.world.db.registry.Live := by
  have hrun := system_registers h
  exact ⟨hrun, (Registry.run_keyed hrun).once, Registry.Live.empty.run hrun⟩

end

/-- a service and a credential for it -/
theorem system_refines_registry_keyed :
    let played := System.play PgStore.reference AppState.reference Sample.keyed
      (System.start Garage.empty)
    (played.1.filterMap entryOf).map Registry.Entry.key = [100, 101] ∧
      ∃ r, Run (Registry.Step PgStore.reference.credentialLimits) Registry.empty
        (played.1.filterMap entryOf) r :=
  ⟨by decide +kernel, _, (system_refines_registry (System.play_run Sample.keyed _)).1⟩

end Syouyu
