import Syouyu.Api.Adapter
import Syouyu.Lib.Exec

/-!
# Rules for programs on Garage

What a program of the adapter ensures, in any state with any effect of the requests.

* `checked_ensures`    one request of the client;
* `gone_ensures`       a delete that may find nothing;
* `deleteKeys_ensures` the loop over the keys left by earlier attempts.
-/

set_option linter.unusedSectionVars false

namespace Syouyu
open Lib Lib.Prog

section
variable {W : Type} {effect : W → (call : GarageCall) → call.Answer → W → Prop} {I : W → Prop}
  {w : W}

/-- a request of the client: refused by its own checks, or made and answered -/
theorem checked_ensures {checks : Except GarageError Unit} {call : GarageCall}
    {P : W → call.Result → Prop} {F : W → GarageError → Prop}
    (hcheck : ∀ e, checks = .error e → F w e)
    (hcall : ∀ (a : call.Answer) w', effect w call a w' → I w' ∧ Post P F w' a) :
    (GarageAdminClient.checked checks call).Ensures effect I P F w := by
  cases checks with
  | error e => exact ⟨hcheck e rfl⟩
  | ok u =>
    refine ⟨fun a w' h => ?_⟩
    obtain ⟨hI, hpost⟩ := hcall a w' h
    refine ⟨hI, ?_⟩
    cases a <;> exact hpost

/-- a delete that succeeds, or finds nothing -/
theorem gone_ensures {p : GarageM GarageError Unit} {Q : W → Prop}
    {F : W → GarageBackendError → Prop}
    (h : p.Ensures effect I (fun w _ => Q w)
      (fun w e => if e.isNotFound then Q w else F w (.ofGarage e)) w) :
    (GarageAdapter.gone p).Ensures effect I (fun w _ => Q w) F w := by
  refine ensures_bind
    (P := fun w answer => match answer with
      | .ok _ => Q w
      | .error (e : GarageError) => if e.isNotFound then Q w else F w (.ofGarage e))
    (ensures_attempt h) fun w' answer hanswer => ?_
  cases answer with
  | ok u => exact ensures_pure hanswer
  | error e =>
    by_cases he : e.isNotFound = true
    · simp only [he, if_true] at hanswer ⊢
      exact ensures_pure hanswer
    · simp only [he] at hanswer ⊢
      exact ensures_throw hanswer

/-- the keys are deleted one by one; `Q rest` holds while `rest` is still to be deleted -/
theorem deleteKeys_ensures {Q : List String → W → Prop} {F : W → GarageBackendError → Prop}
    (hstep : ∀ id rest w, Q (id :: rest) w →
      (GarageAdminClient.deleteKey id).Ensures effect I (fun w _ => Q rest w)
        (fun w e => if e.isNotFound then Q rest w else F w (.ofGarage e)) w) :
    ∀ {ids : List String} {w : W}, Q ids w →
      (GarageAdapter.deleteKeys ids).Ensures effect I (fun w _ => Q [] w) F w
  | [], _, h => ensures_pure h
  | id :: rest, w, h =>
    ensures_bind (gone_ensures (hstep id rest w h)) fun _ _ h' => deleteKeys_ensures hstep h'

end

end Syouyu
