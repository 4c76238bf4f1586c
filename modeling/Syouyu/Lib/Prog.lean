import Mathlib.Tactic

/-!
# Programs that ask their environment

`Prog E A ε α` asks `e : E`, is answered a value of `A e`, and ends with a value or an error.  What
a program has asked and was answered is its log.

* `Prog.Obeys`    every request the program makes is one it may make after its log so far;
* `Prog.Yields`   moreover its result, if it has one, fits the log at its end;
* `Prog.Raises`   its error, if it has one, does.

There is a rule of each for each way to build a program, and an equation for a program with fewer
requests inside one with more.
-/

set_option linter.unusedSectionVars false

namespace Lib

inductive Prog (E : Type) (A : E → Type) (ε α : Type) where
  | done (result : Except ε α)
  | ask (e : E) (next : A e → Prog E A ε α)

/-- requests and their answers, in order -/
abbrev Log (E : Type) (A : E → Type) := List ((e : E) × A e)

section
variable {E E' : Type} {A : E → Type} {A' : E' → Type} {ε ε' α β : Type}

namespace Prog

def bind : Prog E A ε α → (α → Prog E A ε β) → Prog E A ε β
  | .done (.ok a), f => f a
  | .done (.error x), _ => .done (.error x)
  | .ask e next, f => .ask e fun a => (next a).bind f

instance : Monad (Prog E A ε) where
  pure a := .done (.ok a)
  bind := Prog.bind

def throw (x : ε) : Prog E A ε α := .done (.error x)

/-- one request; its answer is a value, not an error -/
def request (e : E) : Prog E A ε (A e) := .ask e fun a => .done (.ok a)

/-- `?` on a result, with the conversion of its error -/
def ofExcept (f : ε' → ε) : Except ε' α → Prog E A ε α
  | .ok a => .done (.ok a)
  | .error x => .done (.error (f x))

/-- `map_err` -/
def mapError (f : ε' → ε) : Prog E A ε' α → Prog E A ε α
  | .done (.ok a) => .done (.ok a)
  | .done (.error x) => .done (.error (f x))
  | .ask e next => .ask e fun a => (next a).mapError f

/-- the result of a program as a value to match on -/
def attempt : Prog E A ε' α → Prog E A ε (Except ε' α)
  | .done r => .done (.ok r)
  | .ask e next => .ask e fun a => (next a).attempt

/-- a program that makes only some of the requests -/
def inject (f : E → E') : Prog E (fun e => A' (f e)) ε α → Prog E' A' ε α
  | .done r => .done r
  | .ask e next => .ask (f e) fun a => (next a).inject f

/-! ## obeying -/

/-- every request is one that `may` be made after the log so far, and the end satisfies `Q` -/
def Obeys (may : Log E A → E → Prop) (Q : Log E A → Except ε α → Prop) :
    Log E A → Prog E A ε α → Prop
  | log, .done r => Q log r
  | log, .ask e next => may log e ∧ ∀ a, Obeys may Q (log ++ [⟨e, a⟩]) (next a)

/-- what is asked of the rest of a program after a part of it has ended -/
def After (may : Log E A → E → Prop) (Q : Log E A → Except ε β → Prop)
    (f : α → Prog E A ε β) (log : Log E A) : Except ε α → Prop
  | .ok a => (f a).Obeys may Q log
  | .error x => Q log (.error x)

section
variable {may : Log E A → E → Prop} {log : Log E A}

@[simp] theorem obeys_pure {Q : Log E A → Except ε α → Prop} {a : α} :
    (pure a : Prog E A ε α).Obeys may Q log ↔ Q log (.ok a) := Iff.rfl

@[simp] theorem obeys_throw {Q : Log E A → Except ε α → Prop} {x : ε} :
    (throw x : Prog E A ε α).Obeys may Q log ↔ Q log (.error x) := Iff.rfl

@[simp] theorem obeys_request {e : E} {Q : Log E A → Except ε (A e) → Prop} :
    (request e : Prog E A ε (A e)).Obeys may Q log ↔
      may log e ∧ ∀ a, Q (log ++ [⟨e, a⟩]) (.ok a) := Iff.rfl

@[simp] theorem obeys_ofExcept {Q : Log E A → Except ε α → Prop} {g : ε' → ε}
    {r : Except ε' α} :
    (ofExcept g r : Prog E A ε α).Obeys may Q log ↔ Q log (r.mapError g) := by
  cases r <;> rfl

theorem Obeys.mono {Q Q' : Log E A → Except ε α → Prop} {p : Prog E A ε α}
    (h : p.Obeys may Q log) (hQ : ∀ log r, Q log r → Q' log r) : p.Obeys may Q' log := by
  induction p generalizing log with
  | done r => exact hQ _ _ h
  | ask e next ih => exact ⟨h.1, fun a => ih a (h.2 a)⟩

@[simp] theorem obeys_bind {Q : Log E A → Except ε β → Prop} {p : Prog E A ε α}
    {f : α → Prog E A ε β} :
    (p >>= f).Obeys may Q log ↔ p.Obeys may (After may Q f) log := by
  show (p.bind f).Obeys may Q log ↔ _
  induction p generalizing log with
  | done r => cases r <;> rfl
  | ask e next ih => exact and_congr_right fun _ => forall_congr' fun a => ih a

@[simp] theorem obeys_mapError {Q : Log E A → Except ε α → Prop} {g : ε' → ε}
    {p : Prog E A ε' α} :
    (p.mapError g).Obeys may Q log ↔ p.Obeys may (fun log r => Q log (r.mapError g)) log := by
  induction p generalizing log with
  | done r => cases r <;> rfl
  | ask e next ih => exact and_congr_right fun _ => forall_congr' fun a => ih a

@[simp] theorem obeys_attempt {Q : Log E A → Except ε (Except ε' α) → Prop}
    {p : Prog E A ε' α} :
    (p.attempt : Prog E A ε (Except ε' α)).Obeys may Q log ↔
      p.Obeys may (fun log r => Q log (.ok r)) log := by
  induction p generalizing log with
  | done r => rfl
  | ask e next ih => exact and_congr_right fun _ => forall_congr' fun a => ih a

end

theorem Obeys.allowing {may may' : Log E A → E → Prop} {Q : Log E A → Except ε α → Prop}
    {p : Prog E A ε α} {log : Log E A} (h : p.Obeys may Q log)
    (hmay : ∀ log e, may log e → may' log e) : p.Obeys may' Q log := by
  induction p generalizing log with
  | done r => exact h
  | ask e next ih => exact ⟨hmay _ _ h.1, fun a => ih a (h.2 a)⟩

theorem Obeys.extends {may : Log E A → E → Prop} {Q : Log E A → Except ε α → Prop}
    {p : Prog E A ε α} {log : Log E A} (h : p.Obeys may Q log) :
    p.Obeys may (fun l r => log <+: l ∧ Q l r) log := by
  induction p generalizing log with
  | done r => exact ⟨List.prefix_refl log, h⟩
  | ask e next ih =>
    refine ⟨h.1, fun a => (ih a (h.2 a)).mono fun l r hr => ?_⟩
    exact ⟨(List.prefix_append log _).trans hr.1, hr.2⟩

/-! ## what a program yields -/

/-- **a program that makes only requests of one class keeps what they keep** -/
theorem Obeys.keeping {C : E → Prop} {may : Log E A → E → Prop} {I : Log E A → Prop}
    {Q : Log E A → Except ε α → Prop} {p : Prog E A ε α} {log : Log E A}
    (h : p.Obeys (fun _ e => C e) Q log) (hI : I log) (hmay : ∀ l e, I l → C e → may l e)
    (hkeep : ∀ l e a, I l → C e → I (l ++ [⟨e, a⟩])) :
    p.Obeys may (fun l r => Q l r ∧ I l) log := by
  induction p generalizing log with
  | done r => exact ⟨h, hI⟩
  | ask e next ih => exact ⟨hmay log e hI h.1, fun a => ih a (h.2 a) (hkeep log e a hI h.1)⟩

/-- every request is one that `may` be made, and a result is one that `P` allows after its log -/
structure Yields (may : Log E A → E → Prop) (P : Log E A → α → Prop) (log : Log E A)
    (p : Prog E A ε α) : Prop where
  obeys : p.Obeys may (fun l r => ∀ a, r = .ok a → P l a) log

section
variable {may : Log E A → E → Prop} {log : Log E A} {P : Log E A → α → Prop}

theorem Yields.mono {P' : Log E A → α → Prop} {p : Prog E A ε α} (h : p.Yields may P log)
    (hP : ∀ l a, log <+: l → P l a → P' l a) : p.Yields may P' log :=
  ⟨h.obeys.extends.mono fun l _ hr a ha => hP l a hr.1 (hr.2 a ha)⟩

theorem yields_pure {a : α} (h : P log a) : (pure a : Prog E A ε α).Yields may P log := by
  refine ⟨fun b hb => ?_⟩
  obtain rfl := Except.ok.inj hb
  exact h

theorem yields_throw {x : ε} : (throw x : Prog E A ε α).Yields may P log := ⟨nofun⟩

theorem yields_request {e : E} {P : Log E A → A e → Prop} (hmay : may log e)
    (h : ∀ a, P (log ++ [⟨e, a⟩]) a) : (request e : Prog E A ε (A e)).Yields may P log := by
  refine ⟨hmay, fun a b hb => ?_⟩
  obtain rfl := Except.ok.inj hb
  exact h a

theorem yields_ofExcept {g : ε' → ε} {r : Except ε' α} (h : ∀ a, r = .ok a → P log a) :
    (ofExcept g r : Prog E A ε α).Yields may P log := by
  cases r with
  | ok a => exact yields_pure (h a rfl)
  | error x => exact yields_throw

/-- **one after the other** -/
theorem yields_bind {Q : Log E A → β → Prop} {p : Prog E A ε α} {f : α → Prog E A ε β}
    (h : p.Yields may P log) (hf : ∀ l a, log <+: l → P l a → (f a).Yields may Q l) :
    (p >>= f).Yields may Q log := by
  refine ⟨obeys_bind.mpr (h.obeys.extends.mono fun l r hr => ?_)⟩
  cases r with
  | ok a => exact (hf l a hr.1 (hr.2 a rfl)).obeys
  | error x => exact nofun

theorem yields_ofExcept_bind {Q : Log E A → β → Prop} {g : ε' → ε} {r : Except ε' α}
    {f : α → Prog E A ε β} (h : ∀ a, r = .ok a → (f a).Yields may Q log) :
    (ofExcept g r >>= f).Yields may Q log := by
  cases r with
  | ok a => exact h a rfl
  | error x => exact yields_throw

theorem yields_mapError {g : ε' → ε} {p : Prog E A ε' α} (h : p.Yields may P log) :
    (p.mapError g).Yields may P log := by
  refine ⟨obeys_mapError.mpr (h.obeys.mono fun l r hr a ha => ?_)⟩
  cases r with
  | ok b =>
    obtain rfl := Except.ok.inj ha
    exact hr b rfl
  | error x => cases ha

theorem yields_attempt {Q : Log E A → Except ε' α → Prop} {p : Prog E A ε' α}
    (h : p.Obeys may Q log) : (p.attempt : Prog E A ε (Except ε' α)).Yields may Q log := by
  refine ⟨obeys_attempt.mpr (h.mono fun l r hr a ha => ?_)⟩
  obtain rfl := Except.ok.inj ha
  exact hr

end

theorem Obeys.and {may may' : Log E A → E → Prop} {Q Q' : Log E A → Except ε α → Prop}
    {p : Prog E A ε α} {log : Log E A} (h : p.Obeys may Q log) (h' : p.Obeys may' Q' log) :
    p.Obeys may (fun l r => Q l r ∧ Q' l r) log := by
  induction p generalizing log with
  | done r => exact ⟨h, h'⟩
  | ask e next ih => exact ⟨h.1, fun a => ih a (h.2 a) (h'.2 a)⟩

/-! ## errors -/

theorem mapError_bind (g : ε' → ε) (p : Prog E A ε' α) (f : α → Prog E A ε' β) :
    (p >>= f).mapError g = p.mapError g >>= fun a => (f a).mapError g := by
  show (p.bind f).mapError g = (p.mapError g).bind fun a => (f a).mapError g
  induction p with
  | done r => cases r <;> rfl
  | ask e next ih => exact congrArg (ask e) (funext fun a => ih a)

/-- the error of a program, if it ends with one, is of the kind `F` -/
structure Raises (F : Log E A → ε → Prop) (log : Log E A) (p : Prog E A ε α) : Prop where
  obeys : p.Obeys (fun _ _ => True) (fun l r => ∀ x, r = .error x → F l x) log

section
variable {F : Log E A → ε → Prop} {log : Log E A}

theorem raises_pure {a : α} : (pure a : Prog E A ε α).Raises F log := ⟨fun _ h => by cases h⟩

theorem raises_throw {x : ε} (h : F log x) : (throw x : Prog E A ε α).Raises F log :=
  ⟨fun _ hx => Except.error.inj hx ▸ h⟩

theorem raises_request {e : E} : (request e : Prog E A ε (A e)).Raises F log :=
  ⟨trivial, fun _ _ h => by cases h⟩

theorem raises_ofExcept {g : ε' → ε} {r : Except ε' α} (h : ∀ x, r = .error x → F log (g x)) :
    (ofExcept g r : Prog E A ε α).Raises F log := by
  cases r with
  | ok a => exact raises_pure
  | error x => exact raises_throw (h x rfl)

theorem raises_ofExcept_bind {g : ε' → ε} {r : Except ε' α} {f : α → Prog E A ε β}
    (h : ∀ x, r = .error x → F log (g x)) (hf : ∀ a, r = .ok a → (f a).Raises F log) :
    (ofExcept g r >>= f).Raises F log := by
  cases r with
  | ok a => exact hf a rfl
  | error x => exact raises_throw (h x rfl)

theorem raises_request_bind {e : E} {f : A e → Prog E A ε β}
    (h : ∀ a, (f a).Raises F (log ++ [⟨e, a⟩])) :
    (request e >>= f : Prog E A ε β).Raises F log :=
  ⟨trivial, fun a => (h a).obeys⟩

/-- errors that are of the kind whatever the part before them ended with -/
theorem raises_mapError {g : ε' → ε} {p : Prog E A ε' α} (h : ∀ l x, F l (g x)) :
    (p.mapError g).Raises F log := by
  constructor
  induction p generalizing log with
  | done r =>
    cases r with
    | ok a => exact fun _ h => by cases h
    | error x => exact fun _ hx => Except.error.inj hx ▸ h log x
  | ask e next ih => exact ⟨trivial, fun a => ih a⟩

theorem raises_bind {p : Prog E A ε α} {f : α → Prog E A ε β} (h : p.Raises F log)
    (hf : ∀ l a, (f a).Raises F l) : (p >>= f).Raises F log := by
  refine ⟨obeys_bind.mpr (h.obeys.mono fun l r hr => ?_)⟩
  cases r with
  | ok a => exact (hf l a).obeys
  | error x => exact fun y hy => Except.error.inj hy ▸ hr x rfl

end

/-! ## a program with fewer requests inside one with more -/

section
variable {f : E → E'}

@[simp] theorem inject_bind (p : Prog E (fun e => A' (f e)) ε α)
    (next : α → Prog E (fun e => A' (f e)) ε β) :
    (p >>= next).inject f = p.inject f >>= fun a => (next a).inject f := by
  show (p.bind next).inject f = (p.inject f).bind fun a => (next a).inject f
  induction p with
  | done r => cases r <;> rfl
  | ask e next' ih => exact congrArg (ask (f e)) (funext fun a => ih a)

@[simp] theorem inject_mapError (g : ε' → ε) (p : Prog E (fun e => A' (f e)) ε' α) :
    (p.mapError g).inject f = (p.inject f).mapError g := by
  induction p with
  | done r => cases r <;> rfl
  | ask e next ih => exact congrArg (ask (f e)) (funext fun a => ih a)

@[simp] theorem inject_attempt (p : Prog E (fun e => A' (f e)) ε' α) :
    (p.attempt : Prog E (fun e => A' (f e)) ε (Except ε' α)).inject f =
      (p.inject f).attempt := by
  induction p with
  | done r => rfl
  | ask e next ih => exact congrArg (ask (f e)) (funext fun a => ih a)

end

end Prog

end

end Lib
