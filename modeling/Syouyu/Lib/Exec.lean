import Syouyu.Lib.Prog

/-!
# Programs executed alone

A program alone in a world that answers its requests, and may stop early.

* `Prog.Runs`      an execution: the log, the world it leaves, and the rest of the program;
* `Prog.Ensures`   whatever is answered, an invariant holds after every request, so also where the
                   program stops early; one postcondition holds with a result, another with an
                   error.  There is a rule for each way to build a program;
* `Ensures.runs`   what that says about executions;
* `recording`      the world together with the log of an execution;
* `Prog.play`      an execution that can be computed, `play_runs`.
-/

set_option linter.unusedSectionVars false

namespace Lib

section
variable {E : Type} {A : E → Type} {ε ε' α β W : Type}

namespace Prog

section
variable (effect : W → (e : E) → A e → W → Prop)

/-- an execution, perhaps stopped early: the log, the world and the rest of the program -/
inductive Runs : W → Prog E A ε α → Log E A → W → Prog E A ε α → Prop
  | stop {w : W} {p : Prog E A ε α} : Runs w p [] w p
  | step {w w' w'' : W} {e : E} {a : A e} {next : A e → Prog E A ε α} {log : Log E A}
      {p : Prog E A ε α} : effect w e a w' → Runs w' (next a) log w'' p →
      Runs w (.ask e next) (⟨e, a⟩ :: log) w'' p

/-- whatever the world answers, `I` holds after every request and `Q` at the end -/
def Always (I : W → Prop) (Q : W → Except ε α → Prop) : Prog E A ε α → W → Prop
  | .done r, w => Q w r
  | .ask e next, w => ∀ a w', effect w e a w' → I w' ∧ Always I Q (next a) w'

/-- one postcondition for results and one for errors -/
def Post (P : W → α → Prop) (F : W → ε → Prop) (w : W) : Except ε α → Prop
  | .ok a => P w a
  | .error x => F w x

/-- whatever the world answers, `I` holds after every request, `P` with a result, `F` with an
error -/
structure Ensures (I : W → Prop) (P : W → α → Prop) (F : W → ε → Prop) (p : Prog E A ε α)
    (w : W) : Prop where
  always : p.Always effect I (Post P F) w

end

section
variable {effect : W → (e : E) → A e → W → Prop} {I : W → Prop} {w w' : W}
  {P : W → α → Prop} {F : W → ε → Prop}

theorem Always.mono {I' : W → Prop} {Q Q' : W → Except ε α → Prop} {p : Prog E A ε α}
    (h : p.Always effect I Q w) (hI : ∀ w, I w → I' w) (hQ : ∀ w r, Q w r → Q' w r) :
    p.Always effect I' Q' w := by
  induction p generalizing w with
  | done r => exact hQ _ _ h
  | ask e next ih => exact fun a w' he => ⟨hI _ (h a w' he).1, ih a (h a w' he).2⟩

theorem Ensures.mono {I' : W → Prop} {P' : W → α → Prop} {F' : W → ε → Prop}
    {p : Prog E A ε α} (h : p.Ensures effect I P F w) (hI : ∀ w, I w → I' w)
    (hP : ∀ w a, P w a → P' w a) (hF : ∀ w x, F w x → F' w x) : p.Ensures effect I' P' F' w := by
  refine ⟨h.always.mono hI fun w r hr => ?_⟩
  cases r with
  | ok a => exact hP w a hr
  | error x => exact hF w x hr

theorem ensures_pure {a : α} (h : P w a) : (pure a : Prog E A ε α).Ensures effect I P F w := ⟨h⟩

theorem ensures_throw {x : ε} (h : F w x) : (throw x : Prog E A ε α).Ensures effect I P F w := ⟨h⟩

theorem ensures_request {e : E} {P : W → A e → Prop}
    (h : ∀ a w', effect w e a w' → I w' ∧ P w' a) :
    (request e : Prog E A ε (A e)).Ensures effect I P F w := ⟨h⟩

theorem ensures_ofExcept {g : ε' → ε} {r : Except ε' α} (hok : ∀ a, r = .ok a → P w a)
    (herror : ∀ x, r = .error x → F w (g x)) :
    (ofExcept g r : Prog E A ε α).Ensures effect I P F w := by
  cases r with
  | ok a => exact ⟨hok a rfl⟩
  | error x => exact ⟨herror x rfl⟩

/-- **one after the other** -/
theorem ensures_bind {P' : W → β → Prop} {p : Prog E A ε α} {f : α → Prog E A ε β}
    (h : p.Ensures effect I P F w) (hf : ∀ w' a, P w' a → (f a).Ensures effect I P' F w') :
    (p >>= f).Ensures effect I P' F w := by
  refine ⟨?_⟩
  show (p.bind f).Always effect I (Post P' F) w
  obtain ⟨h⟩ := h
  induction p generalizing w with
  | done r =>
    cases r with
    | ok a => exact (hf w a h).always
    | error x => exact h
  | ask e next ih => exact fun a w' he => ⟨(h a w' he).1, ih a (h a w' he).2⟩

theorem ensures_mapError {g : ε' → ε} {p : Prog E A ε' α}
    (h : p.Ensures effect I P (fun w x => F w (g x)) w) :
    (p.mapError g).Ensures effect I P F w := by
  refine ⟨?_⟩
  obtain ⟨h⟩ := h
  induction p generalizing w with
  | done r => cases r <;> exact h
  | ask e next ih => exact fun a w' he => ⟨(h a w' he).1, ih a (h a w' he).2⟩

theorem ensures_attempt {P : W → Except ε' α → Prop} {p : Prog E A ε' α}
    (h : p.Ensures effect I (fun w a => P w (.ok a)) (fun w x => P w (.error x)) w) :
    (p.attempt : Prog E A ε (Except ε' α)).Ensures effect I P F w := by
  refine ⟨?_⟩
  obtain ⟨h⟩ := h
  induction p generalizing w with
  | done r => cases r <;> exact h
  | ask e next ih => exact fun a w' he => ⟨(h a w' he).1, ih a (h a w' he).2⟩

/-- a program with fewer requests inside one with more -/
theorem ensures_inject {E' : Type} {f : E' → E} {p : Prog E' (fun e => A (f e)) ε α}
    (h : p.Ensures (fun w e a w' => effect w (f e) a w') I P F w) :
    (p.inject f).Ensures effect I P F w := by
  refine ⟨?_⟩
  obtain ⟨h⟩ := h
  induction p generalizing w with
  | done r => exact h
  | ask e next ih => exact fun a w' he => ⟨(h a w' he).1, ih a (h a w' he).2⟩

/-- the same program where the world is a part of a larger one; `J` is kept beside it -/
theorem Ensures.within {V : Type} {effect' : V → (e : E) → A e → V → Prop} {part : V → W}
    {J : V → Prop} {v : V} {p : Prog E A ε α}
    (hstep : ∀ v e a v', J v → effect' v e a v' → effect (part v) e a (part v') ∧ J v')
    (h : p.Ensures effect I P F (part v)) (hv : J v) :
    p.Ensures effect' (fun v => J v ∧ I (part v)) (fun v a => J v ∧ P (part v) a)
      (fun v x => J v ∧ F (part v) x) v := by
  refine ⟨?_⟩
  obtain ⟨h⟩ := h
  induction p generalizing v with
  | done r => cases r <;> exact ⟨hv, h⟩
  | ask e next ih =>
    intro a v' he
    obtain ⟨he', hv'⟩ := hstep v e a v' hv he
    obtain ⟨hI, hrest⟩ := h a _ he'
    exact ⟨⟨hv', hI⟩, ih a hv' hrest⟩

/-- **every execution keeps the invariant, and ends as ensured** -/
theorem Ensures.runs {p q : Prog E A ε α} {log : Log E A} (h : p.Ensures effect I P F w)
    (hw : I w) (hr : Runs effect w p log w' q) :
    I w' ∧ ∀ r, q = .done r → Post P F w' r := by
  obtain ⟨h⟩ := h
  induction hr with
  | stop =>
    refine ⟨hw, ?_⟩
    rintro r rfl
    exact h
  | step he _ ih =>
    obtain ⟨hI, hrest⟩ := h _ _ he
    exact ih hI hrest

end

theorem Runs.mono {effect effect' : W → (e : E) → A e → W → Prop}
    (heffect : ∀ w e a w', effect w e a w' → effect' w e a w') {w w' : W} {p q : Prog E A ε α}
    {log : Log E A} (h : Runs effect w p log w' q) : Runs effect' w p log w' q := by
  induction h with
  | stop => exact .stop
  | step he _ ih => exact .step (heffect _ _ _ _ he) ih

/-- the world together with what was asked and answered in it -/
def recording (effect : W → (e : E) → A e → W → Prop) (x : W × Log E A) (e : E) (a : A e)
    (x' : W × Log E A) : Prop :=
  effect x.1 e a x'.1 ∧ x'.2 = x.2 ++ [⟨e, a⟩]

theorem Runs.recorded {effect : W → (e : E) → A e → W → Prop} {w w' : W} {p q : Prog E A ε α}
    {log : Log E A} (h : Runs effect w p log w' q) (before : Log E A) :
    Runs (recording effect) (w, before) p log (w', before ++ log) q := by
  induction h generalizing before with
  | stop =>
    rw [List.append_nil]
    exact .stop
  | @step w w₁ w' e a next log q he _ ih =>
    have hrest := ih (before ++ [⟨e, a⟩])
    rw [List.append_assoc] at hrest
    exact .step ⟨he, rfl⟩ hrest

/-! ## executions that can be computed -/

/-- the requests are answered one after the other as the choices say -/
def play {C : Type} (perform : C → W → (e : E) → A e × W) :
    List C → Prog E A ε α → W → Log E A × W × Prog E A ε α
  | c :: choices, .ask e next, w =>
    let after := perform c w e
    let rest := play perform choices (next after.1) after.2
    (⟨e, after.1⟩ :: rest.1, rest.2)
  | _, p, w => ([], w, p)

theorem play_runs {C : Type} {perform : C → W → (e : E) → A e × W}
    {effect : W → (e : E) → A e → W → Prop}
    (h : ∀ c w e, effect w e (perform c w e).1 (perform c w e).2) (choices : List C)
    (p : Prog E A ε α) (w : W) :
    Runs effect w p (play perform choices p w).1 (play perform choices p w).2.1
      (play perform choices p w).2.2 := by
  induction choices generalizing p w with
  | nil => exact .stop
  | cons c choices ih =>
    cases p with
    | done r => exact .stop
    | ask e next => exact .step (h c w e) (ih _ _)

/-- the result of a program that has ended -/
def result? : Prog E A ε α → Option (Except ε α)
  | .done r => some r
  | .ask _ _ => none

theorem eq_done_of_result {p : Prog E A ε α} {r : Except ε α} (h : p.result? = some r) :
    p = .done r := by
  cases p with
  | done r' => exact congrArg Prog.done (Option.some.inj h)
  | ask e next => cases h

theorem eq_done_ok_of_result {p : Prog E A ε α} {a : α}
    (h : p.result?.bind Except.toOption = some a) : p = .done (.ok a) := by
  obtain ⟨r, hr, ha⟩ := Option.bind_eq_some_iff.mp h
  rw [eq_done_of_result hr]
  cases r with
  | ok a' => rw [Option.some.inj ha]
  | error x => cases ha

end Prog

end

end Lib
