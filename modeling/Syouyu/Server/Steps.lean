import Syouyu.Api.Trust
import Syouyu.System.Reads
import Syouyu.Registry.Answers

/-!
# The service

Requests arrive at the router, well formed or not, signed or not; their handlers, those that change
something and those that read, run side by side over one database and one Garage, and any of them
may stop at any time.

* `ServerStep`        a step of the service;
* `Probes`            the calls that are made for anybody;
* `Gateway.Lifts`     what the handler of a request may ask for, from what the four may;
* `serve_obeys`       **the router adds nothing to what the handlers ask for**;
* `server_registers`  **a run of the service is a run of the registry**.
-/

set_option linter.unusedSectionVars false

namespace Syouyu
open Lib Lib.Prog

abbrev Server := Pool World Arrival Call Call.Answer ApiError Response

abbrev ServerEvent := Event Arrival Call Call.Answer

section
variable {Key : Type}

def ServerStep (store : PgStore) (behaviour : GarageBehaviour) (gw : Gateway Key) :
    Server → ServerEvent → Server → Prop :=
  Pool.Step (World.Effect store behaviour) gw.serve

/-- an empty database beside any Garage, and no request yet -/
def Server.start (garage : Garage) : Server := ⟨⟨.empty, garage⟩, []⟩

/-- the two probes of `ready` -/
inductive Probes : Call → Prop
  | store : Probes (.query .storeHealth)
  | cluster : Probes (.query .clusterHealth)

/-- what the handler of a request may ask for -/
def Gateway.Lifts (gw : Gateway Key) (may : Request → CallLog → Call → Prop) (a : Arrival)
    (log : CallLog) (e : Call) : Prop :=
  (∃ r, gw.receive a = .ok (.mutation r) ∧ may r log e) ∨
    (∃ r, gw.receive a = .ok (.read r) ∧ Reading r log e) ∨
    gw.receive a = .ok .ready ∧ Probes e

/-- what a read has answered -/
def Gateway.Told (gw : Gateway Key) (a : Arrival) (log : CallLog)
    (result : Except ApiError Response) : Prop :=
  ∀ r, gw.receive a = .ok (.read r) →
    (∀ response, result = .ok response → r.Answers gw.state log response) ∧
      ∀ e, result = .error e → Unfound r log e

section
variable {gw : Gateway Key} {store : PgStore} {behaviour : GarageBehaviour} {garage : Garage}
  {tr : List ServerEvent} {s : Server}

theorem health_yields {log : CallLog} :
    GarageAdapter.health.Yields (fun _ e => Probes e) (fun _ _ => True) log := by
  refine yields_bind (P := fun _ _ => True) (yields_request .cluster fun _ => trivial)
    fun _ answer _ _ => ?_
  refine yields_ofExcept_bind fun health _ => ?_
  split
  · exact yields_throw
  · exact yields_pure trivial

/-- `ready` makes its two probes only -/
theorem ready_yields {log : CallLog} :
    ready.Yields (fun _ e => Probes e) (fun _ _ => True) log := by
  refine yields_bind (P := fun _ _ => True) (yields_request .store fun _ => trivial)
    fun _ answer _ _ => ?_
  refine yields_ofExcept_bind fun _ _ => ?_
  exact yields_bind (yields_mapError health_yields) fun _ _ _ _ => yields_pure trivial

/-- **the router adds nothing to what the handlers ask for** -/
theorem serve_obeys {may : Request → CallLog → Call → Prop}
    {Q : Request → CallLog → Except ApiError Response → Prop}
    (h : ∀ r, (handle gw.state r).Obeys (may r) (Q r) []) (a : Arrival) :
    (gw.serve a).Obeys (gw.Lifts may a) (gw.Told a) [] := by
  unfold Gateway.serve
  cases hreceive : gw.receive a with
  | error e =>
    intro r hr
    rw [hreceive] at hr
    cases hr
  | ok served =>
    cases served with
    | mutation r =>
      refine ((h r).allowing fun _ _ hmay => .inl ⟨r, hreceive, hmay⟩).mono ?_
      intro _ _ _ r' hr
      rw [hreceive] at hr
      cases hr
    | read r =>
      refine ((handleRead_obeys gw.state r).allowing
        fun _ _ hmay => .inr (.inl ⟨r, hreceive, hmay⟩)).mono ?_
      intro log result hresult r' hr
      rw [hreceive] at hr
      cases hr
      exact hresult
    | ready =>
      refine (ready_yields.obeys.allowing fun _ _ hprobes => .inr (.inr ⟨hreceive, hprobes⟩)).mono ?_
      intro _ _ _ r hr
      rw [hreceive] at hr
      cases hr
    | fixed response =>
      intro r hr
      rw [hreceive] at hr
      cases hr

theorem serve_may (gw : Gateway Key) (a : Arrival) :
    (gw.serve a).Obeys (gw.Lifts May a) (gw.Told a) [] :=
  serve_obeys (handle_obeys gw.state) a

theorem serve_honest (gw : Gateway Key) (a : Arrival) :
    (gw.serve a).Obeys (gw.Lifts (Honest gw.state) a) (gw.Told a) [] :=
  serve_obeys (fun r => (handle_based gw.state r).obeys) a

/-- reads complete nothing -/
theorem Gateway.Lifts.completes {a : Arrival} {log : CallLog} {finish : FinishCall}
    (h : gw.Lifts May a log (.store (.finish finish))) :
    ∃ r, gw.receive a = .ok (.mutation r) ∧ Completes log finish := by
  rcases h with ⟨r, hr, hmay⟩ | ⟨r, -, principal, -, hconsults⟩ | ⟨-, hprobes⟩
  · exact ⟨r, hr, hmay.completes⟩
  · cases hconsults
  · cases hprobes

/-- and prepare nothing -/
theorem Gateway.Lifts.prepares {a : Arrival} {log : CallLog} {call : PrepareCall}
    (h : gw.Lifts (Honest gw.state) a log (.store (.prepare call))) :
    ∃ r, gw.receive a = .ok (.mutation r) ∧ r.prepareCall gw.state = .ok call := by
  rcases h with ⟨r, hr, hhonest⟩ | ⟨r, -, principal, -, hconsults⟩ | ⟨-, hprobes⟩
  · exact ⟨r, hr, hhonest.asked call rfl⟩
  · cases hconsults
  · cases hprobes

/-- what is allowed on a route of a read -/
theorem Gateway.Lifts.reading {may : Request → CallLog → Call → Prop} {a : Arrival} {log : CallLog}
    {e : Call} (h : gw.Lifts may a log e) {r : ReadRequest} (hr : gw.receive a = .ok (.read r)) :
    Reading r log e := by
  rcases h with ⟨r', hr', -⟩ | ⟨r', hr', hreading⟩ | ⟨hr', -⟩
  · rw [hr] at hr'
    cases hr'
  · rw [hr] at hr'
    cases hr'
    exact hreading
  · rw [hr] at hr'
    cases hr'

/-! ## the registry -/

/-- every handler keeps to its discipline, and its grants are vouched for -/
def Server.Recalled (store : PgStore) (gw : Gateway Key) (s : Server) : Prop :=
  Pool.Sound (gw.Lifts May) (fun w => Reachable store w.db) Recalls s

theorem Server.Recalled.step {s s' : Server} {ev : ServerEvent} (hs : s.Recalled store gw)
    (h : ServerStep store behaviour gw s ev s') : s'.Recalled store gw :=
  Pool.Step.sound h hs (fun a => (serve_may gw a).mono fun _ _ _ => trivial)
    fun _ _ _ _ _ _ hreach _ _ heffect => recalls_effect hreach heffect

theorem Server.Recalled.registers {s s' : Server} {ev : ServerEvent} (hs : s.Recalled store gw)
    (h : ServerStep store behaviour gw s ev s') :
    Run (Registry.Step store.credentialLimits) s.world.db.registry (entryOf ev).toList
      s'.world.db.registry := by
  cases h with
  | spawn request => exact .nil _
  | crash hi => exact .nil _
  | @act i t e next a w hi hrest heffect =>
    obtain ⟨hobeys, hlog⟩ := hs.threads t (List.mem_of_getElem? hi)
    have hmay := (hobeys _ hrest).1
    refine registry_effect i hs.inv hlog (fun finish heq => ?_) heffect
    subst heq
    obtain ⟨-, -, hcompletes⟩ := hmay.completes
    exact hcompletes

theorem start_recalled (store : PgStore) (gw : Gateway Key) (garage : Garage) :
    (Server.start garage).Recalled store gw where
  inv := .empty
  threads t ht := by cases ht

/-- **a run of the service is a run of the registry** -/
theorem server_registers (h : Run (ServerStep store behaviour gw) (.start garage) tr s) :
    Run (Registry.Step store.credentialLimits) Registry.empty (tr.filterMap entryOf)
      s.world.db.registry := by
  have hrun := h.simulate (f := fun s => s.world.db.registry) (Server.Recalled store gw)
    (fun _ _ _ hs h => hs.step h) (fun _ _ _ hs h => hs.registers h)
    (start_recalled store gw garage)
  rwa [show (Server.start garage).world.db.registry = .empty from registry_empty] at hrun

end

end

end Syouyu
