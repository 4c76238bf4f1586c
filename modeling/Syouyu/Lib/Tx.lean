import Syouyu.Lib.Prog

/-!
# Transactions

A transaction reads and writes a state and either commits with an answer or fails with an error;
`Tx.atomically` runs it as one step, and a failed transaction leaves the state as it was.

* `bind_eq_ok`                 a sequence commits iff its parts do, one after the other;
* `ensure_eq_ok`, `require_eq_ok`, `ofExcept_eq_ok`   the checks a transaction is made of;
* `bind_eq_error`, `ensure_eq_error`, ..              where a failed transaction failed;
* `FailsOnly`, `FailsWith`     all errors a transaction may end with are of one kind; it does end
                               with one of the kind;
* `atomically_ok`, `atomically_error`   the two outcomes of a whole transaction;
* `Prog.within`                a program, its requests made one after the other in one transaction.

Every lemma is an equivalence, so one `simp only` turns a committed transaction into the list of
its checks and intermediate states, and back.
-/

namespace Lib

/-! ## two outcomes at once -/

section
variable {ε α : Type} {P : Prop}

theorem absurd_none_some {o : Option α} {a : α} (h : o = none) (h' : o = some a) : P := by
  cases h.symm.trans h'

theorem absurd_ok_error {x : Except ε α} {a : α} {e : ε} (h : x = .ok a) (h' : x = .error e) :
    P := by
  cases h.symm.trans h'

theorem absurd_true_false {b : Bool} (h : b = true) (h' : b = false) : P := by
  cases h.symm.trans h'

end

/-- the value of an option, or an error -/
def okOr {ε α : Type} (o : Option α) (e : ε) : Except ε α :=
  match o with
  | some a => .ok a
  | none => .error e

theorem okOr_eq_ok {ε α : Type} {o : Option α} {e : ε} {a : α} :
    okOr o e = .ok a ↔ o = some a := by
  cases o <;> simp [okOr]

theorem except_bind_eq_ok {ε α β : Type} {x : Except ε α} {f : α → Except ε β} {b : β} :
    (x >>= f) = .ok b ↔ ∃ a, x = .ok a ∧ f a = .ok b := by
  cases x with
  | error e => simp [bind, Except.bind]
  | ok a => simp [bind, Except.bind]

/-- a traversal that succeeds has succeeded everywhere -/
theorem except_mapM_eq_ok {ε α β : Type} {f : α → Except ε β} {l : List α} {bs : List β} :
    l.mapM f = .ok bs ↔ l.map f = bs.map .ok := by
  induction l generalizing bs with
  | nil => simp [pure, Except.pure, eq_comm]
  | cons a l ih =>
    simp only [List.mapM_cons, except_bind_eq_ok, ih, pure, Except.pure, Except.ok.injEq,
      List.map_cons]
    constructor
    · rintro ⟨b, hb, bs', hbs', rfl⟩
      rw [hb, hbs', List.map_cons]
    · intro h
      cases bs with
      | nil => cases h
      | cons b bs' =>
        obtain ⟨hb, hbs'⟩ := List.cons.inj h
        exact ⟨b, hb, bs', hbs', rfl⟩

theorem except_bind_eq_error {ε α β : Type} {x : Except ε α} {f : α → Except ε β} {e : ε} :
    (x >>= f) = .error e ↔ x = .error e ∨ ∃ a, x = .ok a ∧ f a = .error e := by
  cases x with
  | error e => simp [bind, Except.bind]
  | ok a => simp [bind, Except.bind]

/-- a traversal that fails has failed somewhere -/
theorem except_mapM_eq_error {ε α β : Type} {f : α → Except ε β} {l : List α} {e : ε}
    (h : l.mapM f = .error e) : ∃ a ∈ l, f a = .error e := by
  induction l with
  | nil => cases h
  | cons a l ih =>
    rw [List.mapM_cons] at h
    rcases except_bind_eq_error.mp h with h | ⟨b, -, h⟩
    · exact ⟨a, List.mem_cons_self, h⟩
    · rcases except_bind_eq_error.mp h with h | ⟨bs, -, h⟩
      · obtain ⟨a', ha', he⟩ := ih h
        exact ⟨a', List.mem_cons_of_mem _ ha', he⟩
      · cases h

theorem except_map_eq_ok {ε α β : Type} {f : α → β} {x : Except ε α} {b : β} :
    x.map f = .ok b ↔ ∃ a, x = .ok a ∧ f a = b := by
  cases x with
  | error e => simp [Except.map]
  | ok a => simp [Except.map]

theorem mapError_eq_ok {ε ε' α : Type} {x : Except ε α} {f : ε → ε'} {a : α} :
    x.mapError f = .ok a ↔ x = .ok a := by
  cases x <;> simp [Except.mapError]

/-- a computation that commits with an answer and a new state, or fails -/
abbrev Tx (σ ε α : Type) := StateT σ (Except ε) α

namespace Tx
variable {σ ε α β : Type}

/-- fail with `e` unless `b` -/
def ensure (b : Bool) (e : ε) : Tx σ ε Unit := fun s => if b then .ok ((), s) else .error e

/-- the value of an option, or fail with `e` -/
def require (o : Option α) (e : ε) : Tx σ ε α := fun s =>
  match o with
  | some a => .ok (a, s)
  | none => .error e

/-- a computation that does not look at the state -/
def ofExcept (x : Except ε α) : Tx σ ε α := fun s =>
  match x with
  | .ok a => .ok (a, s)
  | .error e => .error e

/-- read from the state -/
def read (f : σ → α) : Tx σ ε α := fun s => .ok (f s, s)

/-- a statement: it answers and replaces the state, or fails -/
def statement (f : σ → Except ε (α × σ)) : Tx σ ε α := f

/-- fail if there is an error -/
def refuse (o : Option ε) : Tx σ ε Unit := fun s =>
  match o with
  | some e => .error e
  | none => .ok ((), s)

/-- run a transaction as one step: a failure rolls back -/
def atomically (x : Tx σ ε α) (s : σ) : Except ε α × σ :=
  match x s with
  | .ok (a, s') => (.ok a, s')
  | .error e => (.error e, s)

/-! ## when a transaction commits -/

theorem bind_apply_ok {x : Tx σ ε α} {f : α → Tx σ ε β} {s s' : σ} {a : α}
    (h : x s = .ok (a, s')) : (x >>= f) s = f a s' := by
  show (x s).bind (fun p => f p.1 p.2) = _
  rw [h]
  rfl

theorem bind_apply_error {x : Tx σ ε α} {f : α → Tx σ ε β} {s : σ} {e : ε}
    (h : x s = .error e) : (x >>= f) s = .error e := by
  show (x s).bind (fun p => f p.1 p.2) = _
  rw [h]
  rfl

theorem read_bind (f : σ → α) (g : α → Tx σ ε β) (s : σ) : (read f >>= g) s = g (f s) s := rfl

theorem require_bind {o : Option α} {a : α} (h : o = some a) (e : ε) (g : α → Tx σ ε β) (s : σ) :
    (require o e >>= g) s = g a s := by
  subst h
  rfl

theorem ensure_bind {b : Bool} (h : b = true) (e : ε) (g : Unit → Tx σ ε β) (s : σ) :
    (ensure b e >>= g) s = g () s := by
  subst h
  rfl

theorem bind_eq_ok {x : Tx σ ε α} {f : α → Tx σ ε β} {s s'' : σ} {b : β} :
    (x >>= f) s = .ok (b, s'') ↔ ∃ a s', x s = .ok (a, s') ∧ f a s' = .ok (b, s'') := by
  cases hx : x s with
  | error e =>
    rw [bind_apply_error hx]
    simp
  | ok p =>
    obtain ⟨a, s'⟩ := p
    rw [bind_apply_ok hx]
    simp

theorem pure_eq_ok {a b : α} {s s' : σ} :
    (pure a : Tx σ ε α) s = .ok (b, s') ↔ b = a ∧ s' = s := by
  change Except.ok (a, s) = Except.ok (b, s') ↔ _
  rw [Except.ok.injEq, Prod.mk.injEq]
  exact ⟨fun h => ⟨h.1.symm, h.2.symm⟩, fun h => ⟨h.1.symm, h.2.symm⟩⟩

theorem ensure_eq_ok {b : Bool} {e : ε} {s s' : σ} {u : Unit} :
    ensure b e s = .ok (u, s') ↔ b = true ∧ s' = s := by
  unfold ensure
  cases b with
  | false => simp
  | true => simpa using eq_comm

theorem require_eq_ok {o : Option α} {e : ε} {s s' : σ} {a : α} :
    require o e s = .ok (a, s') ↔ o = some a ∧ s' = s := by
  unfold require
  cases o with
  | none => simp
  | some x =>
    simp only [Except.ok.injEq, Prod.mk.injEq, Option.some.injEq]
    exact and_congr_right (fun _ => eq_comm)

theorem ofExcept_eq_ok {x : Except ε α} {s s' : σ} {a : α} :
    ofExcept x s = .ok (a, s') ↔ x = .ok a ∧ s' = s := by
  unfold ofExcept
  cases x with
  | error e => simp
  | ok y =>
    simp only [Except.ok.injEq, Prod.mk.injEq]
    exact and_congr_right (fun _ => eq_comm)

theorem read_eq_ok {f : σ → α} {s s' : σ} {a : α} :
    (read f : Tx σ ε α) s = .ok (a, s') ↔ a = f s ∧ s' = s := by
  unfold read
  rw [Except.ok.injEq, Prod.mk.injEq]
  exact ⟨fun h => ⟨h.1.symm, h.2.symm⟩, fun h => ⟨h.1.symm, h.2.symm⟩⟩

theorem statement_apply (f : σ → Except ε (α × σ)) (s : σ) : statement f s = f s := rfl

theorem refuse_eq_ok {o : Option ε} {s s' : σ} {u : Unit} :
    refuse o s = .ok (u, s') ↔ o = none ∧ s' = s := by
  unfold refuse
  cases o with
  | none => simpa using eq_comm
  | some e => simp

/-! ## when a transaction fails -/

theorem bind_eq_error {x : Tx σ ε α} {f : α → Tx σ ε β} {s : σ} {e : ε} :
    (x >>= f) s = .error e ↔
      x s = .error e ∨ ∃ a s', x s = .ok (a, s') ∧ f a s' = .error e := by
  cases hx : x s with
  | error e =>
    rw [bind_apply_error hx]
    simp
  | ok p =>
    obtain ⟨a, s'⟩ := p
    rw [bind_apply_ok hx]
    simp

theorem ensure_eq_error {b : Bool} {e e' : ε} {s : σ} :
    ensure b e s = .error e' ↔ b = false ∧ e' = e := by
  unfold ensure
  cases b with
  | false => simpa using eq_comm
  | true => simp

theorem require_eq_error {o : Option α} {e e' : ε} {s : σ} :
    require o e s = .error e' ↔ o = none ∧ e' = e := by
  unfold require
  cases o with
  | none => simpa using eq_comm
  | some a => simp

theorem refuse_eq_error {o : Option ε} {e : ε} {s : σ} :
    refuse o s = .error e ↔ o = some e := by
  unfold refuse
  cases o with
  | none => simp
  | some x => simp

theorem ofExcept_eq_error {x : Except ε α} {s : σ} {e : ε} :
    ofExcept x s = .error e ↔ x = .error e := by
  unfold ofExcept
  cases x <;> simp

@[simp] theorem read_ne_error {f : σ → α} {s : σ} {e : ε} :
    (read f : Tx σ ε α) s ≠ .error e := nofun

/-- every error the transaction may end with in this state satisfies `Q` -/
def FailsOnly (Q : ε → Prop) (x : Tx σ ε α) (s : σ) : Prop := ∀ e, x s = .error e → Q e

section
variable {Q : ε → Prop} {s : σ}

theorem FailsOnly.bind {x : Tx σ ε α} {f : α → Tx σ ε β} (hx : x.FailsOnly Q s)
    (hf : ∀ a s', x s = .ok (a, s') → (f a).FailsOnly Q s') : (x >>= f).FailsOnly Q s := by
  intro e he
  rcases bind_eq_error.mp he with h | ⟨a, s', h, h'⟩
  · exact hx e h
  · exact hf a s' h e h'

theorem failsOnly_pure {a : α} : (pure a : Tx σ ε α).FailsOnly Q s := nofun

theorem failsOnly_ensure {b : Bool} {e : ε} (h : b = false → Q e) : (ensure b e).FailsOnly Q s := by
  intro e' he
  obtain ⟨hb, rfl⟩ := ensure_eq_error.mp he
  exact h hb

theorem failsOnly_refuse {o : Option ε} (h : ∀ e, o = some e → Q e) :
    (refuse o : Tx σ ε Unit).FailsOnly Q s :=
  fun e he => h e (refuse_eq_error.mp he)

theorem failsOnly_ofExcept {x : Except ε α} (h : ∀ e, x = .error e → Q e) :
    (ofExcept x).FailsOnly Q s :=
  fun e he => h e (ofExcept_eq_error.mp he)

/-- what is read is read from the present state -/
theorem FailsOnly.read_bind {g : σ → α} {f : α → Tx σ ε β} (h : (f (g s)).FailsOnly Q s) :
    (read g >>= f).FailsOnly Q s := h

theorem FailsOnly.ensure_bind {b : Bool} {e : ε} {f : Unit → Tx σ ε β} (he : b = false → Q e)
    (h : b = true → (f ()).FailsOnly Q s) : (ensure b e >>= f).FailsOnly Q s := by
  refine FailsOnly.bind (failsOnly_ensure he) fun _ s' hok => ?_
  obtain ⟨hb, rfl⟩ := ensure_eq_ok.mp hok
  exact h hb

theorem FailsOnly.require_bind {o : Option α} {e : ε} {f : α → Tx σ ε β} (he : o = none → Q e)
    (h : ∀ a, o = some a → (f a).FailsOnly Q s) : (require o e >>= f).FailsOnly Q s := by
  refine FailsOnly.bind (fun e' he' => ?_) fun a s' hok => ?_
  · obtain ⟨hnone, rfl⟩ := require_eq_error.mp he'
    exact he hnone
  · obtain ⟨ha, rfl⟩ := require_eq_ok.mp hok
    exact h a ha

theorem FailsOnly.ofExcept_bind {x : Except ε α} {f : α → Tx σ ε β} (he : ∀ e, x = .error e → Q e)
    (h : ∀ a, x = .ok a → (f a).FailsOnly Q s) : (ofExcept x >>= f).FailsOnly Q s := by
  refine FailsOnly.bind (failsOnly_ofExcept he) fun a s' hok => ?_
  obtain ⟨ha, rfl⟩ := ofExcept_eq_ok.mp hok
  exact h a ha

end

/-- the transaction fails, with an error that satisfies `Q` -/
def FailsWith (Q : ε → Prop) (x : Tx σ ε α) (s : σ) : Prop := ∃ e, x s = .error e ∧ Q e

section
variable {Q : ε → Prop} {s : σ}

theorem failsWith_bind {x : Tx σ ε α} {f : α → Tx σ ε β} :
    (x >>= f).FailsWith Q s ↔
      x.FailsWith Q s ∨ ∃ a s', x s = .ok (a, s') ∧ (f a).FailsWith Q s' := by
  simp only [FailsWith, bind_eq_error]
  constructor
  · rintro ⟨e, h | ⟨a, s', h, h'⟩, he⟩
    · exact .inl ⟨e, h, he⟩
    · exact .inr ⟨a, s', h, e, h', he⟩
  · rintro (⟨e, h, he⟩ | ⟨a, s', h, e, h', he⟩)
    · exact ⟨e, .inl h, he⟩
    · exact ⟨e, .inr ⟨a, s', h, h'⟩, he⟩

theorem FailsOnly.not_failsWith {x : Tx σ ε α} (h : x.FailsOnly (fun e => ¬ Q e) s) :
    ¬ x.FailsWith Q s :=
  fun ⟨e, he, hq⟩ => h e he hq

/-- a transaction that does not commit fails, with an error of the only kind it has -/
theorem FailsOnly.failsWith {x : Tx σ ε α} (h : x.FailsOnly Q s)
    (hx : ∀ a s', x s ≠ .ok (a, s')) : x.FailsWith Q s := by
  cases hxs : x s with
  | error e => exact ⟨e, hxs, h e hxs⟩
  | ok p => exact absurd hxs (hx p.1 p.2)

end

/-! ## whole transactions -/

theorem atomically_ok {x : Tx σ ε α} {s s' : σ} {a : α} :
    x.atomically s = (.ok a, s') ↔ x s = .ok (a, s') := by
  unfold atomically
  cases x s with
  | error e => simp
  | ok p =>
    obtain ⟨b, t⟩ := p
    simp

theorem atomically_error {x : Tx σ ε α} {s s' : σ} {e : ε} :
    x.atomically s = (.error e, s') ↔ x s = .error e ∧ s' = s := by
  unfold atomically
  cases x s with
  | error e =>
    simp only [Prod.mk.injEq, Except.error.injEq]
    exact and_congr_right (fun _ => eq_comm)
  | ok p => simp

end Tx

/-! ## programs inside a transaction -/

namespace Prog
variable {E : Type} {A : E → Type} {σ ε α β : Type}

/-- a program with all its requests made in one transaction -/
def within (perform : (e : E) → Tx σ ε (A e)) : Prog E A ε α → Tx σ ε α
  | .done r => Tx.ofExcept r
  | .ask e next => perform e >>= fun a => (next a).within perform

section
variable {perform : (e : E) → Tx σ ε (A e)}

theorem within_request (e : E) : (request e : Prog E A ε (A e)).within perform = perform e :=
  bind_pure (perform e)

theorem within_ofExcept (r : Except ε α) :
    (ofExcept id r : Prog E A ε α).within perform = Tx.ofExcept r := by
  cases r <;> rfl

theorem within_bind (p : Prog E A ε α) (f : α → Prog E A ε β) :
    (p >>= f).within perform = p.within perform >>= fun a => (f a).within perform := by
  show (p.bind f).within perform = _
  induction p with
  | done r => cases r <;> rfl
  | ask e next ih =>
    show (perform e >>= fun a => ((next a).bind f).within perform) = _
    rw [funext ih]
    exact (bind_assoc _ _ _).symm

end

end Prog

end Lib
