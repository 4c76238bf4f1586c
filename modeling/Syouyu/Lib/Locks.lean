import Mathlib.Logic.Relation
import Mathlib.Tactic
import Syouyu.Lib.Run

/-!
# Transactions that take exclusive locks

A transaction takes locks one after the other and keeps them until it commits or is aborted.  Which
lock comes next may depend on the committed data it sees.

* `Locking`            the locks a transaction takes; `Locking.Along` a discipline it follows;
* `LockState.act`      one transaction starts, takes a free lock, looks at the data, commits or is
                       aborted; `act_some` says what a step can do;
* `LockState.Sound`    no lock is held twice and everyone follows the discipline;
                       `Sound.step`, `Sound.run`;
* `LockState.Deadlocked`   a cycle of transactions, each waiting for a lock the next one holds;
* `not_deadlocked_of_rank`   **no cycle if whoever waits for a lock of one rank waits for someone
                       who, if at all, waits for a lock of a higher rank**.
-/

set_option linter.unusedSectionVars false

namespace Lib

/-- the locks a transaction takes, in order -/
inductive Locking (D L : Type) where
  | done
  | acquire (lock : L) (rest : Locking D L)
  | look (next : D → Locking D L)

structure LockTx (C D L : Type) where
  call : C
  held : List L
  rest : Locking D L

/-- the committed data and the transactions; one that is over is `none` -/
structure LockState (C D L : Type) where
  data : D
  txs : List (Option (LockTx C D L))

inductive LockAction (C : Type) where
  | start (call : C)
  | acquire (i : Nat)
  | look (i : Nat)
  | commit (i : Nat)
  | abort (i : Nat)

section
variable {C D L : Type}

namespace Locking

/-- the lock a transaction cannot go on without -/
def wants : Locking D L → Option L
  | .acquire lock _ => some lock
  | _ => none

/-- `P held lock` for every `lock` the transaction takes while it holds `held` -/
def Along (P : List L → L → Prop) : List L → Locking D L → Prop
  | _, .done => True
  | held, .acquire lock rest => P held lock ∧ Along P (lock :: held) rest
  | held, .look next => ∀ d, Along P held (next d)

theorem Along.wants {P : List L → L → Prop} {held : List L} {p : Locking D L} {lock : L}
    (h : p.Along P held) (hw : p.wants = some lock) : P held lock := by
  cases p with
  | done => cases hw
  | acquire l rest =>
    obtain rfl := Option.some.inj hw
    exact h.1
  | look next => cases hw

end Locking

namespace LockState
variable (locks : C → Locking D L) (effect : C → D → D) [DecidableEq L]

/-- the running transaction in slot `i` -/
def tx (s : LockState C D L) (i : Nat) : Option (LockTx C D L) := (s.txs[i]?).join

/-- nobody holds the lock -/
def free (s : LockState C D L) (lock : L) : Bool :=
  s.txs.all fun slot => slot.all fun t => decide (lock ∉ t.held)

/-- the transaction in slot `i` goes on as `t` -/
def goOn (s : LockState C D L) (i : Nat) (t : LockTx C D L) : LockState C D L :=
  { s with txs := s.txs.set i (some t) }

def act : LockAction C → LockState C D L → Option (LockState C D L)
  | .start call, s => some { s with txs := s.txs ++ [some ⟨call, [], locks call⟩] }
  | .acquire i, s =>
    match s.tx i with
    | some ⟨call, held, .acquire lock rest⟩ =>
      if s.free lock then some (s.goOn i ⟨call, lock :: held, rest⟩) else none
    | _ => none
  | .look i, s =>
    match s.tx i with
    | some ⟨call, held, .look next⟩ => some (s.goOn i ⟨call, held, next s.data⟩)
    | _ => none
  | .commit i, s =>
    match s.tx i with
    | some ⟨call, _, .done⟩ => some ⟨effect call s.data, s.txs.set i none⟩
    | _ => none
  | .abort i, s => some { s with txs := s.txs.set i none }

def Step (s : LockState C D L) (a : LockAction C) (s' : LockState C D L) : Prop :=
  s.act locks effect a = some s'

/-- `i` waits for `lock`, which `j` holds -/
def WaitsOn (s : LockState C D L) (i j : Nat) (lock : L) : Prop :=
  ∃ t u, s.tx i = some t ∧ t.rest.wants = some lock ∧ s.tx j = some u ∧ lock ∈ u.held

def Waits (s : LockState C D L) (i j : Nat) : Prop := ∃ lock, s.WaitsOn i j lock

def Deadlocked (s : LockState C D L) : Prop := ∃ i, Relation.TransGen s.Waits i i

variable {locks effect} {s s' : LockState C D L} {a : LockAction C}

/-! ## steps -/

theorem tx_set {i j : Nat} {slot : Option (LockTx C D L)} {t : LockTx C D L} {d : D}
    (h : (LockState.mk d (s.txs.set i slot)).tx j = some t) :
    (i = j ∧ slot = some t) ∨ (i ≠ j ∧ s.tx j = some t) := by
  unfold tx at h ⊢
  by_cases hij : i = j
  · subst hij
    refine .inl ⟨rfl, ?_⟩
    simp only [List.getElem?_set_self'] at h
    cases hs : s.txs[i]? with
    | none => simp [hs] at h
    | some old => simpa [hs] using h
  · refine .inr ⟨hij, ?_⟩
    simpa only [List.getElem?_set_ne hij] using h

theorem tx_start {j : Nat} {call : C} {p : Locking D L} {t : LockTx C D L}
    (h : ({ s with txs := s.txs ++ [some ⟨call, [], p⟩] } : LockState C D L).tx j = some t) :
    s.tx j = some t ∨ t = ⟨call, [], p⟩ := by
  unfold tx at h ⊢
  rcases lt_trichotomy j s.txs.length with hlt | heq | hgt
  · left
    simpa only [List.getElem?_append_left hlt] using h
  · right
    simp [heq] at h
    exact h.symm
  · have hnone : (s.txs ++ [some ⟨call, [], p⟩])[j]? = none := by
      rw [List.getElem?_eq_none_iff, List.length_append]
      exact hgt
    simp [hnone] at h

theorem free_iff {lock : L} :
    s.free lock = true ↔ ∀ i t, s.tx i = some t → lock ∉ t.held := by
  unfold free
  rw [List.all_eq_true]
  constructor
  · intro h i t ht
    have hmem : some t ∈ s.txs := List.mem_of_getElem? (Option.join_eq_some_iff.mp ht)
    simpa using h _ hmem
  · intro h slot hslot
    cases slot with
    | none => rfl
    | some t =>
      obtain ⟨i, hi⟩ := List.mem_iff_getElem?.mp hslot
      have ht : s.tx i = some t := by
        unfold tx
        rw [hi]
        rfl
      simpa using h i t ht

/-- **what a step can do** -/
theorem act_some (h : s.act locks effect a = some s') :
    (∃ call, a = .start call ∧ s' = { s with txs := s.txs ++ [some ⟨call, [], locks call⟩] }) ∨
    (∃ i call held lock rest, s.tx i = some ⟨call, held, .acquire lock rest⟩ ∧
      s.free lock = true ∧ s' = s.goOn i ⟨call, lock :: held, rest⟩) ∨
    (∃ i call held next, s.tx i = some ⟨call, held, .look next⟩ ∧
      s' = s.goOn i ⟨call, held, next s.data⟩) ∨
    (∃ i call held, s.tx i = some ⟨call, held, .done⟩ ∧
      s' = ⟨effect call s.data, s.txs.set i none⟩) ∨
    ∃ i, s' = { s with txs := s.txs.set i none } := by
  cases a with
  | start call => exact .inl ⟨call, rfl, (Option.some.inj h).symm⟩
  | acquire i =>
    simp only [act] at h
    split at h
    · rename_i call held lock rest ht
      split at h
      · rename_i hfree
        exact .inr (.inl ⟨i, call, held, lock, rest, ht, hfree, (Option.some.inj h).symm⟩)
      · cases h
    · cases h
  | look i =>
    simp only [act] at h
    split at h
    · rename_i call held next ht
      exact .inr (.inr (.inl ⟨i, call, held, next, ht, (Option.some.inj h).symm⟩))
    · cases h
  | commit i =>
    simp only [act] at h
    split at h
    · rename_i call held ht
      exact .inr (.inr (.inr (.inl ⟨i, call, held, ht, (Option.some.inj h).symm⟩)))
    · cases h
  | abort i => exact .inr (.inr (.inr (.inr ⟨i, (Option.some.inj h).symm⟩)))

/-! ## the discipline -/

structure Sound (P : C → List L → L → Prop) (s : LockState C D L) : Prop where
  exclusive : ∀ i j t u lock, s.tx i = some t → s.tx j = some u → lock ∈ t.held →
    lock ∈ u.held → i = j
  along : ∀ i t, s.tx i = some t → t.rest.Along (P t.call) t.held

variable {P : C → List L → L → Prop}

theorem Sound.initial (d : D) : (LockState.mk (C := C) (L := L) d []).Sound P where
  exclusive := fun _ _ _ _ _ h => by cases h
  along := fun _ _ h => by cases h

/-- a transaction that is over takes nothing away from the others -/
theorem Sound.over (hs : s.Sound P) (i : Nat) (d : D) :
    (LockState.mk d (s.txs.set i none)).Sound P where
  exclusive := by
    intro j k t u lock hj hk ht hu
    rcases tx_set hj with ⟨-, hj⟩ | ⟨-, hj⟩
    · cases hj
    rcases tx_set hk with ⟨-, hk⟩ | ⟨-, hk⟩
    · cases hk
    exact hs.exclusive j k t u lock hj hk ht hu
  along := by
    intro j t hj
    rcases tx_set hj with ⟨-, hj⟩ | ⟨-, hj⟩
    · cases hj
    exact hs.along j t hj

/-- a transaction goes on with locks it held or that nobody did -/
theorem Sound.goOn (hs : s.Sound P) {i : Nat} {t t' : LockTx C D L} (ht : s.tx i = some t)
    (hheld : ∀ lock ∈ t'.held, lock ∈ t.held ∨ s.free lock = true)
    (halong : t'.rest.Along (P t'.call) t'.held) : (s.goOn i t').Sound P := by
  -- nobody else holds a lock of the transaction that goes on
  have hother : ∀ j u lock, i ≠ j → s.tx j = some u → lock ∈ t'.held → lock ∉ u.held := by
    intro j u lock hij hu hlock
    rcases hheld lock hlock with hmine | hfree
    · exact fun hmem => hij (hs.exclusive i j t u lock ht hu hmine hmem)
    · exact free_iff.mp hfree j u hu
  refine ⟨fun j k u v lock hj hk hu hv => ?_, fun j u hj => ?_⟩
  · rcases tx_set hj with ⟨hij, hj⟩ | ⟨hij, hj⟩ <;> rcases tx_set hk with ⟨hik, hk⟩ | ⟨hik, hk⟩
    · exact hij.symm.trans hik
    · obtain rfl := Option.some.inj hj
      exact absurd hv (hother k v lock hik hk hu)
    · obtain rfl := Option.some.inj hk
      exact absurd hu (hother j u lock hij hj hv)
    · exact hs.exclusive j k u v lock hj hk hu hv
  · rcases tx_set hj with ⟨-, hj⟩ | ⟨-, hj⟩
    · obtain rfl := Option.some.inj hj
      exact halong
    · exact hs.along j u hj

theorem Sound.start (hs : s.Sound P) {call : C} (hcall : (locks call).Along (P call) []) :
    ({ s with txs := s.txs ++ [some ⟨call, [], locks call⟩] } : LockState C D L).Sound P where
  exclusive := by
    intro j k t u lock hj hk ht hu
    rcases tx_start hj with hj | rfl
    · rcases tx_start hk with hk | rfl
      · exact hs.exclusive j k t u lock hj hk ht hu
      · cases hu
    · cases ht
  along := by
    intro j t hj
    rcases tx_start hj with hj | rfl
    · exact hs.along j t hj
    · exact hcall

/-- **one step keeps the discipline** -/
theorem Sound.step (hcalls : ∀ call, (locks call).Along (P call) []) (hs : s.Sound P)
    (h : Step locks effect s a s') : s'.Sound P := by
  obtain ⟨call, -, rfl⟩ | ⟨i, call, held, lock, rest, ht, hfree, rfl⟩ | ⟨i, call, held, next, ht, rfl⟩ |
    ⟨i, call, held, -, rfl⟩ | ⟨i, rfl⟩ := act_some h
  · exact hs.start (hcalls call)
  · refine hs.goOn ht (fun l hl => ?_) (hs.along i _ ht).2
    rcases List.mem_cons.mp hl with rfl | hl
    · exact .inr hfree
    · exact .inl hl
  · exact hs.goOn ht (fun l hl => .inl hl) (hs.along i _ ht s.data)
  · exact hs.over i _
  · exact hs.over i _

theorem Sound.run (hcalls : ∀ call, (locks call).Along (P call) []) {tr : List (LockAction C)}
    {d : D} (h : Run (Step locks effect) ⟨d, []⟩ tr s) : s.Sound P :=
  h.invariant (Sound P) (fun _ _ _ hs h => hs.step hcalls h) (.initial d)

/-! ## cycles -/

/-- **ranks that grow along the waiting exclude cycles** -/
theorem not_deadlocked_of_rank (rank : L → Nat)
    (h : ∀ i j k lock lock', s.WaitsOn i j lock → s.WaitsOn j k lock' → rank lock < rank lock') :
    ¬ s.Deadlocked := by
  -- whoever is reached waits, if at all, for a lock of a higher rank than the first one
  have hgrow : ∀ i j, Relation.TransGen s.Waits i j → ∃ m lock, s.WaitsOn i m lock ∧
      ∀ k lock', s.WaitsOn j k lock' → rank lock < rank lock' := by
    intro i j hpath
    induction hpath with
    | single hij =>
      obtain ⟨lock, hij⟩ := hij
      exact ⟨_, lock, hij, fun k lock' hjk => h _ _ _ _ _ hij hjk⟩
    | tail _ hjk ih =>
      obtain ⟨m, lock, him, hless⟩ := ih
      obtain ⟨lock', hjk⟩ := hjk
      exact ⟨m, lock, him, fun k lock'' hk =>
        (hless _ _ hjk).trans (h _ _ _ _ _ hjk hk)⟩
  rintro ⟨i, hcycle⟩
  obtain ⟨m, lock, him, hless⟩ := hgrow i i hcycle
  exact absurd (hless m lock him) (lt_irrefl _)

end LockState

end

end Lib
