import Syouyu.System.Discipline
import Syouyu.Store.Integrity

/-!
# The store calls of the handlers

Seen from the store, handlers at work are callers that keep to what they were told (`CallerStep`):
they finish and renew only operations they were to execute.

* `Follows`                  a history of store calls that accounts for the logs of all handlers;
* `Follows.step`, `.run`     it goes on with every step of the system;
* `handlers_never_corrupt`   **no handler is ever answered `CorruptData`**.
-/

set_option linter.unusedSectionVars false

namespace Syouyu
open Lib

section
variable {store : PgStore} {behaviour : GarageBehaviour} {state : AppState}
  {callOf : OperationRequest → PrepareCall}

/-- a completing call is one for the call that was granted -/
theorem Completes.answers {log : CallLog} {call : FinishCall} (h : Completes log call) :
    ∃ (prepare : PrepareCall) (context : prepare.Context),
      Granted log prepare call.operationId context ∧ call.completion.Answers prepare context := by
  cases h with
  | reconcile hg _ _ _ => exact ⟨_, _, hg, .reconcile⟩
  | delete hg _ _ _ _ _ => exact ⟨_, _, hg, .delete⟩
  | create hg hid _ _ _ => exact ⟨_, _, hg, .createCredential hid⟩
  | revoke hg _ _ _ => exact ⟨_, _, hg, .revokeCredential⟩
  | fail hg _ _ => exact ⟨_, _, hg, .fail⟩

/-- the history leads to the database and holds every store call of the handlers -/
structure Follows (s : System) (h : History) : Prop where
  db : h.db = s.world.db
  obeys : s.Sound May (fun _ => True) (fun _ _ => True)
  logged : ∀ t ∈ s.threads, ∀ call answer, ⟨.store call, answer⟩ ∈ t.log →
    ∃ env, ⟨env, call, answer⟩ ∈ h.log

/-- the prepare call behind the event, if it is one, is determined by its request -/
def EventBound (callOf : OperationRequest → PrepareCall) (ev : SystemEvent) : Prop :=
  ∀ i call answer, ev = .act i (.store (.prepare call)) answer → callOf call.operation = call

theorem Follows.start (garage : Garage) : Follows (System.start garage) .start where
  db := rfl
  obeys := ⟨trivial, fun _ h => by cases h⟩
  logged := fun _ h => by cases h

/-- **one step of the system is at most one call of a caller** -/
theorem Follows.step {s s' : System} {h : History} {ev : SystemEvent} (hf : Follows s h)
    (hstep : SystemStep store behaviour state s ev s') (hbound : EventBound callOf ev) :
    ∃ tr h', Run (CallerStep store callOf) h tr h' ∧ Follows s' h' ∧
      ∀ i call answer, ev = .act i (.store call) answer → ∃ env, ⟨env, call, answer⟩ ∈ tr := by
  have hobeys : s'.Sound May (fun _ => True) (fun _ _ => True) :=
    Pool.Step.sound hstep hf.obeys (handle_obeys state) fun _ _ _ _ _ _ _ _ _ _ =>
      ⟨trivial, trivial, fun _ _ => trivial⟩
  cases hstep with
  | spawn request =>
    refine ⟨[], h, .nil _, ⟨hf.db, hobeys, fun t ht call answer hmem => ?_⟩,
      fun _ _ _ h => by cases h⟩
    rcases List.mem_append.mp ht with ht | ht
    · exact hf.logged t ht call answer hmem
    · rw [List.mem_singleton.mp ht] at hmem
      cases hmem
  | @crash i t hi =>
    refine ⟨[], h, .nil _, ⟨hf.db, hobeys, fun t' ht call answer hmem => ?_⟩,
      fun _ _ _ h => by cases h⟩
    rcases List.mem_or_eq_of_mem_set ht with ht | rfl
    · exact hf.logged t' ht call answer hmem
    · exact hf.logged t (List.mem_of_getElem? hi) call answer hmem
  | @act i t e next a w hi hrest heff =>
    have ht := List.mem_of_getElem? hi
    have hmay := ((hf.obeys.threads t ht).obeys _ hrest).1
    cases e with
    | store call =>
      obtain ⟨⟨env, hs⟩, -⟩ := heff
      have hgranted : ∀ {call : PrepareCall} {o : Uuid} {context : call.Context},
          Granted t.log call o context → Handed h.log call o context :=
        fun hg => hf.logged t ht _ _ hg
      refine ⟨[⟨env, call, a⟩], ⟨w.db, h.log ++ [⟨env, call, a⟩]⟩, .single ⟨?_, rfl, ?_, ?_, ?_⟩,
        ⟨rfl, hobeys, fun t' ht' call' answer' hmem => ?_⟩, ?_⟩
      · rw [hf.db]
        exact hs
      · rintro prepare rfl
        exact hbound i prepare a rfl
      · rintro finish rfl
        obtain ⟨prepare, context, hg, hanswers⟩ := hmay.completes.answers
        exact ⟨prepare, context, hgranted hg, hanswers⟩
      · rintro operation o rfl
        cases hmay with
        | renew hg => exact ⟨_, _, hgranted hg, rfl⟩
      · -- the entry is new in the log of its handler, all others are old
        have hold : (∃ env, ⟨env, call', answer'⟩ ∈ h.log) →
            ∃ env', ⟨env', call', answer'⟩ ∈ h.log ++ [⟨env, call, a⟩] :=
          fun ⟨env', hmem⟩ => ⟨env', List.mem_append_left _ hmem⟩
        rcases List.mem_or_eq_of_mem_set ht' with ht' | rfl
        · exact hold (hf.logged t' ht' call' answer' hmem)
        · rcases List.mem_append.mp hmem with hmem | hmem
          · exact hold (hf.logged t ht call' answer' hmem)
          · cases List.mem_singleton.mp hmem
            exact ⟨env, List.mem_append_right _ List.mem_cons_self⟩
      · intro j call' answer' heq
        cases heq
        exact ⟨env, List.mem_cons_self⟩
    | _ =>
      have hdb : w.db = s.world.db := by
        first | exact heff.2 | exact congrArg World.db heff.2
      refine ⟨[], h, .nil _, ⟨hf.db.trans hdb.symm, hobeys, fun t' ht' call answer hmem => ?_⟩,
        fun _ _ _ h => by cases h⟩
      rcases List.mem_or_eq_of_mem_set ht' with ht' | rfl
      · exact hf.logged t' ht' call answer hmem
      · rcases List.mem_append.mp hmem with hmem | hmem
        · exact hf.logged t ht call answer hmem
        · cases List.mem_singleton.mp hmem

/-- **a run of the system is a run of callers** -/
theorem Follows.run {s s' : System} {h : History} {tr : List SystemEvent} (hf : Follows s h)
    (hrun : Run (SystemStep store behaviour state) s tr s')
    (hbound : ∀ ev ∈ tr, EventBound callOf ev) :
    ∃ log h', Run (CallerStep store callOf) h log h' ∧ Follows s' h' ∧
      ∀ i call answer, .act i (.store call) answer ∈ tr → ∃ env, ⟨env, call, answer⟩ ∈ log := by
  induction hrun generalizing h with
  | nil => exact ⟨[], h, .nil _, hf, fun _ _ _ h => by cases h⟩
  | cons hstep _ ih =>
    obtain ⟨log₁, h₁, hrun₁, hf₁, hlog₁⟩ := hf.step hstep (hbound _ List.mem_cons_self)
    obtain ⟨log₂, h₂, hrun₂, hf₂, hlog₂⟩ :=
      ih hf₁ fun ev hev => hbound ev (List.mem_cons_of_mem _ hev)
    refine ⟨log₁ ++ log₂, h₂, hrun₁.append hrun₂, hf₂, fun i call answer hmem => ?_⟩
    rcases List.mem_cons.mp hmem with heq | hmem
    · obtain ⟨env, hlog⟩ := hlog₁ i call answer heq.symm
      exact ⟨env, List.mem_append_left _ hlog⟩
    · obtain ⟨env, hlog⟩ := hlog₂ i call answer hmem
      exact ⟨env, List.mem_append_right _ hlog⟩

/-- **No handler is ever answered `CorruptData`**, whatever Garage does and wherever handlers
crash, and the database they leave is intact. -/
theorem handlers_never_corrupt {garage : Garage} {tr : List SystemEvent} {s : System}
    (hrun : Run (SystemStep store behaviour state) (System.start garage) tr s)
    (hbound : ∀ ev ∈ tr, EventBound callOf ev) :
    s.world.db.Intact store ∧ ∀ i call answer, .act i (.store call) answer ∈ tr →
      ∀ what, answer ≠ .error (.corruptData what) := by
  obtain ⟨log, h, hcallers, hf, hlog⟩ := (Follows.start garage).run hrun hbound
  obtain ⟨hk, hanswers⟩ := History.Kept.start.run hcallers
  refine ⟨hf.db ▸ reachable_intact hk.reachable, fun i call answer hmem => ?_⟩
  obtain ⟨env, hmem⟩ := hlog i call answer hmem
  exact hanswers ⟨env, call, answer⟩ hmem

end

end Syouyu
