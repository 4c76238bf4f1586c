import Mathlib.Data.List.Pairwise
import Mathlib.Data.List.Basic
import Mathlib.Tactic

/-!
# Relational tables that carry their constraints

A `Table S` is a list of rows together with the proof that every row passes the row check of
the schema `S` and that no two rows collide on the primary key or on another uniqueness
constraint.  A statement that would break a constraint returns the constraint it breaks.

* `Table.lookup`       the row with a primary key;
* `Table.select`       the rows that satisfy a predicate, in table order;
* `Table.insert`, `Table.updateWhere`, `Table.deleteWhere`   the three kinds of statements;
* `lookup_insert`, `lookup_updateWhere`, `lookup_deleteWhere`   what a lookup finds afterwards;
* `select_insert`, `select_updateWhere`, `select_deleteWhere`   the frame: rows a statement does
                       not touch are selected as before;
* `count_insert`, `count_updateWhere_le`, `count_deleteWhere`   how the number of rows moves.
-/

set_option linter.unusedSectionVars false

namespace Lib

/-- which constraint a statement broke -/
inductive Violation where
  | check
  | unique
  deriving DecidableEq, Repr

/-- primary key, row checks and the other uniqueness constraints of a table -/
structure Schema (κ ρ : Type) where
  key : ρ → κ
  check : ρ → Bool
  unique : ρ → ρ → Bool
  unique_symm : ∀ a b, unique a b = unique b a

section
variable {κ ρ : Type} [DecidableEq κ]

/-- two rows that cannot stand in one table -/
def Schema.clash (S : Schema κ ρ) (a b : ρ) : Bool :=
  decide (S.key a = S.key b) || S.unique a b

/-- the row has key `k` -/
def Schema.hasKey (S : Schema κ ρ) (k : κ) (r : ρ) : Bool := decide (S.key r = k)

@[simp] theorem Schema.hasKey_iff {S : Schema κ ρ} {k : κ} {r : ρ} :
    S.hasKey k r = true ↔ S.key r = k := decide_eq_true_iff

@[simp] theorem Schema.hasKey_eq_false {S : Schema κ ρ} {k : κ} {r : ρ} :
    S.hasKey k r = false ↔ S.key r ≠ k := decide_eq_false_iff_not

theorem Schema.clash_symm (S : Schema κ ρ) (a b : ρ) : S.clash a b = S.clash b a := by
  unfold Schema.clash
  rw [S.unique_symm a b, decide_eq_decide.mpr (eq_comm : S.key a = S.key b ↔ _)]

theorem Schema.clash_eq_false {S : Schema κ ρ} {a b : ρ} :
    S.clash a b = false ↔ S.key a ≠ S.key b ∧ S.unique a b = false := by
  unfold Schema.clash
  rw [Bool.or_eq_false_iff, decide_eq_false_iff_not]

end

/-- A list of rows that satisfies all constraints of its schema. -/
@[ext]
structure Table {κ ρ : Type} [DecidableEq κ] (S : Schema κ ρ) where
  rows : List ρ
  checked : ∀ r ∈ rows, S.check r = true
  distinct : rows.Pairwise fun a b => S.clash a b = false

namespace Table
variable {κ ρ : Type} [DecidableEq κ] {S : Schema κ ρ}

def empty (S : Schema κ ρ) : Table S := ⟨[], by simp, List.Pairwise.nil⟩

/-- the row with primary key `k` -/
def lookup (t : Table S) (k : κ) : Option ρ := t.rows.find? fun r => decide (S.key r = k)

/-- the rows that satisfy `q`, in table order -/
def select (t : Table S) (q : ρ → Bool) : List ρ := t.rows.filter q

def count (t : Table S) (q : ρ → Bool) : Nat := t.rows.countP q

def exists? (t : Table S) (q : ρ → Bool) : Bool := t.rows.any q

/-! ## statements -/

/-- `INSERT`: row checks come before uniqueness -/
def insert (t : Table S) (r : ρ) : Except Violation (Table S) :=
  if hc : S.check r = true then
    if hd : ∀ q ∈ t.rows, S.clash q r = false then
      .ok ⟨t.rows ++ [r],
        fun q hq => by
          rcases List.mem_append.mp hq with h | h
          · exact t.checked q h
          · rw [List.mem_singleton.mp h]; exact hc,
        List.pairwise_append.mpr ⟨t.distinct, List.pairwise_singleton _ _, fun a ha b hb => by
          rw [List.mem_singleton.mp hb]; exact hd a ha⟩⟩
    else .error .unique
  else .error .check

/-- what an `UPDATE .. WHERE p` makes of a row -/
def touch (p : ρ → Bool) (f : ρ → ρ) (r : ρ) : ρ := if p r then f r else r

/-- `UPDATE .. SET f WHERE p` -/
def updateWhere (t : Table S) (p : ρ → Bool) (f : ρ → ρ) : Except Violation (Table S) :=
  if hc : ∀ r ∈ t.rows.map (touch p f), S.check r = true then
    if hd : (t.rows.map (touch p f)).Pairwise fun a b => S.clash a b = false then
      .ok ⟨t.rows.map (touch p f), hc, hd⟩
    else .error .unique
  else .error .check

/-- `DELETE .. WHERE p` -/
def deleteWhere (t : Table S) (p : ρ → Bool) : Table S :=
  ⟨t.rows.filter fun r => !p r, fun r hr => t.checked r (List.mem_of_mem_filter hr),
    t.distinct.filter _⟩

/-! ## rows -/

@[simp] theorem rows_empty : (empty S).rows = [] := rfl

theorem insert_eq_ok {t t' : Table S} {r : ρ} :
    t.insert r = .ok t' ↔
      S.check r = true ∧ (∀ q ∈ t.rows, S.clash q r = false) ∧ t'.rows = t.rows ++ [r] := by
  unfold insert
  constructor
  · intro h
    split at h
    · rename_i hc
      split at h
      · rename_i hd
        cases h
        exact ⟨hc, hd, rfl⟩
      · cases h
    · cases h
  · rintro ⟨hc, hd, hr⟩
    rw [dif_pos hc, dif_pos hd]
    congr 1
    exact Table.ext hr.symm

theorem updateWhere_eq_ok {t t' : Table S} {p : ρ → Bool} {f : ρ → ρ} :
    t.updateWhere p f = .ok t' ↔
      (∀ r ∈ t.rows, S.check (touch p f r) = true) ∧
      ((t.rows.map (touch p f)).Pairwise fun a b => S.clash a b = false) ∧
      t'.rows = t.rows.map (touch p f) := by
  unfold updateWhere
  constructor
  · intro h
    split at h
    · rename_i hc
      split at h
      · rename_i hd
        cases h
        exact ⟨fun r hr => hc _ (List.mem_map_of_mem hr), hd, rfl⟩
      · cases h
    · cases h
  · rintro ⟨hc, hd, hr⟩
    have hc' : ∀ r ∈ t.rows.map (touch p f), S.check r = true := by
      intro r hr
      obtain ⟨q, hq, rfl⟩ := List.mem_map.mp hr
      exact hc q hq
    rw [dif_pos hc', dif_pos hd]
    congr 1
    exact Table.ext hr.symm

@[simp] theorem rows_deleteWhere (t : Table S) (p : ρ → Bool) :
    (t.deleteWhere p).rows = t.rows.filter fun r => !p r := rfl

theorem mem_deleteWhere {t : Table S} {p : ρ → Bool} {r : ρ} :
    r ∈ (t.deleteWhere p).rows ↔ r ∈ t.rows ∧ p r = false := by
  simp [List.mem_filter]

theorem mem_insert {t t' : Table S} {r q : ρ} (h : t.insert r = .ok t') :
    q ∈ t'.rows ↔ q ∈ t.rows ∨ q = r := by
  rw [(insert_eq_ok.mp h).2.2, List.mem_append, List.mem_singleton]

theorem mem_updateWhere {t t' : Table S} {p : ρ → Bool} {f : ρ → ρ} {q : ρ}
    (h : t.updateWhere p f = .ok t') : q ∈ t'.rows ↔ ∃ r ∈ t.rows, touch p f r = q := by
  rw [(updateWhere_eq_ok.mp h).2.2, List.mem_map]

/-- rows made by an update keep what the update leaves alone -/
theorem forall_updateWhere {t t' : Table S} {p : ρ → Bool} {f : ρ → ρ}
    (h : t.updateWhere p f = .ok t') {P : ρ → Prop} (hf : ∀ q, P q → P (f q))
    (hP : ∀ q ∈ t.rows, P q) : ∀ q ∈ t'.rows, P q := by
  intro q hq
  obtain ⟨q₀, hq₀, rfl⟩ := (mem_updateWhere h).mp hq
  unfold touch
  split
  · exact hf _ (hP _ hq₀)
  · exact hP _ hq₀

theorem updateWhere_congr {t : Table S} {p q : ρ → Bool} {f : ρ → ρ}
    (h : ∀ r ∈ t.rows, p r = q r) : t.updateWhere p f = t.updateWhere q f := by
  have hmap : t.rows.map (touch p f) = t.rows.map (touch q f) :=
    List.map_congr_left fun r hr => by simp only [touch, h r hr]
  simp only [updateWhere, hmap]

/-! ## keys -/

/-- two rows of a table that collide are one row -/
theorem eq_of_clash (t : Table S) {a b : ρ} (ha : a ∈ t.rows) (hb : b ∈ t.rows)
    (h : S.clash a b = true) : a = b := by
  by_contra hne
  have hsymm : Std.Symm fun a b : ρ => S.clash a b = false :=
    ⟨fun x y hxy => by rw [S.clash_symm]; exact hxy⟩
  have := t.distinct.forall ha hb hne
  rw [h] at this
  cases this

theorem eq_of_key (t : Table S) {a b : ρ} (ha : a ∈ t.rows) (hb : b ∈ t.rows)
    (h : S.key a = S.key b) : a = b :=
  t.eq_of_clash ha hb (by simp [Schema.clash, h])

theorem eq_of_unique (t : Table S) {a b : ρ} (ha : a ∈ t.rows) (hb : b ∈ t.rows)
    (h : S.unique a b = true) : a = b :=
  t.eq_of_clash ha hb (by simp [Schema.clash, h])

theorem lookup_eq_some {t : Table S} {k : κ} {r : ρ} :
    t.lookup k = some r ↔ r ∈ t.rows ∧ S.key r = k := by
  constructor
  · intro h
    exact ⟨List.mem_of_find?_eq_some h, by simpa using List.find?_some h⟩
  · rintro ⟨hr, hk⟩
    cases hf : t.lookup k with
    | none =>
      have := List.find?_eq_none.mp hf r hr
      simp [hk] at this
    | some q =>
      have hq : q ∈ t.rows := List.mem_of_find?_eq_some hf
      have hkq : S.key q = k := by simpa using List.find?_some hf
      rw [t.eq_of_key hq hr (hkq.trans hk.symm)]

theorem lookup_eq_none {t : Table S} {k : κ} :
    t.lookup k = none ↔ ∀ r ∈ t.rows, S.key r ≠ k := by
  unfold lookup
  rw [List.find?_eq_none]
  simp

theorem lookup_of_mem {t : Table S} {r : ρ} (hr : r ∈ t.rows) : t.lookup (S.key r) = some r :=
  lookup_eq_some.mpr ⟨hr, rfl⟩

theorem lookup_mem {t : Table S} {k : κ} {r : ρ} (h : t.lookup k = some r) : r ∈ t.rows :=
  (lookup_eq_some.mp h).1

theorem lookup_key {t : Table S} {k : κ} {r : ρ} (h : t.lookup k = some r) : S.key r = k :=
  (lookup_eq_some.mp h).2

theorem lookup_check {t : Table S} {k : κ} {r : ρ} (h : t.lookup k = some r) :
    S.check r = true := t.checked r (lookup_mem h)

@[simp] theorem lookup_empty (k : κ) : (empty S).lookup k = none := rfl

/-! ## lookups after a statement -/

theorem lookup_insert {t t' : Table S} {r : ρ} (h : t.insert r = .ok t') (k : κ) :
    t'.lookup k = if S.key r = k then some r else t.lookup k := by
  obtain ⟨_, hd, hr⟩ := insert_eq_ok.mp h
  unfold lookup
  rw [hr, List.find?_append]
  by_cases hk : S.key r = k
  · have hn : t.rows.find? (fun q => decide (S.key q = k)) = none := by
      rw [List.find?_eq_none]
      intro q hq hkq
      exact (Schema.clash_eq_false.mp (hd q hq)).1 ((of_decide_eq_true hkq).trans hk.symm)
    rw [hn, if_pos hk]
    simp [hk]
  · rw [if_neg hk]
    simp [hk]

/-- the row that was inserted -/
theorem lookup_inserted {t t' : Table S} {r : ρ} (h : t.insert r = .ok t') :
    t'.lookup (S.key r) = some r :=
  (lookup_insert h _).trans (if_pos rfl)

theorem lookup_fresh {t t' : Table S} {r : ρ} (h : t.insert r = .ok t') :
    t.lookup (S.key r) = none := by
  obtain ⟨_, hd, _⟩ := insert_eq_ok.mp h
  exact lookup_eq_none.mpr (fun q hq => (Schema.clash_eq_false.mp (hd q hq)).1)

theorem lookup_updateWhere {t t' : Table S} {p : ρ → Bool} {f : ρ → ρ}
    (h : t.updateWhere p f = .ok t') (hf : ∀ r, S.key (f r) = S.key r) (k : κ) :
    t'.lookup k = (t.lookup k).map (touch p f) := by
  unfold lookup
  rw [(updateWhere_eq_ok.mp h).2.2, List.find?_map]
  have hk : (fun r => decide (S.key r = k)) ∘ touch p f = fun r => decide (S.key r = k) := by
    funext r
    simp only [Function.comp, touch]
    split
    · rw [hf]
    · rfl
  rw [hk]

theorem lookup_deleteWhere (t : Table S) (p : ρ → Bool) (k : κ) :
    (t.deleteWhere p).lookup k = (t.lookup k).filter fun r => !p r := by
  cases hl : t.lookup k with
  | none =>
    rw [Option.filter_none, lookup_eq_none]
    intro r hr
    exact lookup_eq_none.mp hl r (mem_deleteWhere.mp hr).1
  | some r =>
    obtain ⟨hr, hk⟩ := lookup_eq_some.mp hl
    cases hp : p r with
    | false =>
      simp only [Option.filter_some, hp, Bool.not_false, if_true]
      exact lookup_eq_some.mpr ⟨mem_deleteWhere.mpr ⟨hr, hp⟩, hk⟩
    | true =>
      simp only [Option.filter_some, hp, Bool.not_true, Bool.false_eq_true, if_false]
      rw [lookup_eq_none]
      intro q hq hkq
      obtain ⟨hq1, hq2⟩ := mem_deleteWhere.mp hq
      rw [t.eq_of_key hq1 hr (hkq.trans hk.symm), hp] at hq2
      cases hq2

theorem lookup_deleteKey (t : Table S) (j k : κ) :
    (t.deleteWhere (S.hasKey j)).lookup k = if k = j then none else t.lookup k := by
  rw [lookup_deleteWhere]
  cases hl : t.lookup k with
  | none => simp
  | some r =>
    have hk : S.key r = k := lookup_key hl
    by_cases hkj : k = j
    · simp [Schema.hasKey, hk, hkj]
    · simp [Schema.hasKey, hk, hkj]

/-! ## statements aimed at one key -/

section Aimed
variable {t : Table S} {k : κ} {p : ρ → Bool} (hp : ∀ r, p r = true → S.key r = k)
include hp

/-- a statement aimed at one key affects the row of that key or none -/
theorem count_aimed : t.count p = if (t.lookup k).any p then 1 else 0 := by
  have hrest : ∀ l : List ρ, (∀ r ∈ l, p r = false) → l.countP p = 0 := fun l h =>
    List.countP_eq_zero.mpr fun r hr => by simp [h r hr]
  cases hl : t.lookup k with
  | none =>
    refine hrest _ fun r hr => Bool.eq_false_iff.mpr fun hpr => ?_
    exact lookup_eq_none.mp hl r hr (hp r hpr)
  | some a =>
    obtain ⟨ha, hka⟩ := lookup_eq_some.mp hl
    obtain ⟨l₁, l₂, hrows⟩ := List.append_of_mem ha
    have hother : ∀ r ∈ l₁ ++ l₂, p r = false := by
      intro r hr
      refine Bool.eq_false_iff.mpr fun hpr => ?_
      have hd := t.distinct
      rw [hrows, List.pairwise_append] at hd
      have hclash : S.clash r a = false := by
        rcases List.mem_append.mp hr with h | h
        · exact hd.2.2 r h a (List.mem_cons_self ..)
        · rw [Schema.clash_symm]
          exact (List.pairwise_cons.mp hd.2.1).1 r h
      exact (Schema.clash_eq_false.mp hclash).1 ((hp r hpr).trans hka.symm)
    unfold count
    rw [hrows, List.countP_append, List.countP_cons,
      hrest l₁ (fun r hr => hother r (List.mem_append_left _ hr)),
      hrest l₂ (fun r hr => hother r (List.mem_append_right _ hr))]
    simp

/-- an update aimed at one key, whose condition holds there, is the update of that key -/
theorem updateWhere_aimed {f : ρ → ρ} {r : ρ} (hl : t.lookup k = some r) (hr : p r = true) :
    t.updateWhere p f = t.updateWhere (S.hasKey k) f := by
  refine updateWhere_congr fun q hq => ?_
  rw [Bool.eq_iff_iff, Schema.hasKey_iff]
  refine ⟨hp q, fun hk => ?_⟩
  rw [t.eq_of_key hq (lookup_mem hl) (hk.trans (lookup_key hl).symm)]
  exact hr

end Aimed

/-- after the update of one key the table is as before elsewhere -/
theorem lookup_update_key {t t' : Table S} {k : κ} {f : ρ → ρ}
    (h : t.updateWhere (S.hasKey k) f = .ok t') (hf : ∀ r, S.key (f r) = S.key r) (j : κ) :
    t'.lookup j = if j = k then (t.lookup k).map f else t.lookup j := by
  rw [lookup_updateWhere h hf]
  by_cases hj : j = k
  · subst hj
    rw [if_pos rfl]
    cases hl : t.lookup j with
    | none => rfl
    | some r => simp [touch, Schema.hasKey, lookup_key hl]
  · rw [if_neg hj]
    cases hl : t.lookup j with
    | none => rfl
    | some r => simp [touch, Schema.hasKey, lookup_key hl, hj]

/-- the row of the key that was updated -/
theorem lookup_updated {t t' : Table S} {k : κ} {f : ρ → ρ} {r : ρ}
    (h : t.updateWhere (S.hasKey k) f = .ok t') (hf : ∀ r, S.key (f r) = S.key r)
    (hl : t.lookup k = some r) : t'.lookup k = some (f r) := by
  rw [lookup_update_key h hf, if_pos rfl, hl]
  rfl

/-- the row of a key after an update aimed at the key -/
theorem mem_update_key {t t' : Table S} {k : κ} {f : ρ → ρ}
    (h : t.updateWhere (S.hasKey k) f = .ok t') {r : ρ} (hl : t.lookup k = some r) :
    f r ∈ t'.rows := by
  refine (mem_updateWhere h).mpr ⟨r, lookup_mem hl, ?_⟩
  exact if_pos (Schema.hasKey_iff.mpr (lookup_key hl))

/-- the other rows after an update aimed at a key -/
theorem mem_update_other {t t' : Table S} {k : κ} {f : ρ → ρ}
    (h : t.updateWhere (S.hasKey k) f = .ok t') {q : ρ} (hq : q ∈ t.rows) (hne : S.key q ≠ k) :
    q ∈ t'.rows := by
  refine (mem_updateWhere h).mpr ⟨q, hq, ?_⟩
  exact if_neg fun hk => hne (Schema.hasKey_iff.mp hk)

/-! ## the frame: selections a statement leaves alone -/

theorem mem_select {t : Table S} {q : ρ → Bool} {r : ρ} :
    r ∈ t.select q ↔ r ∈ t.rows ∧ q r = true := List.mem_filter

theorem select_insert {t t' : Table S} {r : ρ} (h : t.insert r = .ok t') {q : ρ → Bool}
    (hq : q r = false) : t'.select q = t.select q := by
  unfold select
  rw [(insert_eq_ok.mp h).2.2, List.filter_append]
  simp [hq]

theorem select_updateWhere {t t' : Table S} {p : ρ → Bool} {f : ρ → ρ}
    (h : t.updateWhere p f = .ok t') {q : ρ → Bool}
    (hq : ∀ r ∈ t.rows, p r = true → q r = false ∧ q (f r) = false) :
    t'.select q = t.select q := by
  unfold select
  rw [(updateWhere_eq_ok.mp h).2.2]
  generalize t.rows = l at hq
  induction l with
  | nil => rfl
  | cons a l ih =>
    have ih' := ih (fun r hr => hq r (List.mem_cons_of_mem _ hr))
    rw [List.map_cons, List.filter_cons, List.filter_cons, ih']
    cases hp : p a with
    | false => simp only [touch, hp, Bool.false_eq_true, if_false]
    | true =>
      obtain ⟨h1, h2⟩ := hq a (List.mem_cons_self ..) hp
      simp only [touch, hp, if_true, h1, h2, Bool.false_eq_true, if_false]

theorem select_deleteWhere (t : Table S) {p q : ρ → Bool}
    (hq : ∀ r ∈ t.rows, p r = true → q r = false) :
    (t.deleteWhere p).select q = t.select q := by
  unfold select
  rw [rows_deleteWhere, List.filter_filter]
  refine List.filter_congr (fun r hr => ?_)
  cases hp : p r with
  | false => simp
  | true => simp [hq r hr hp]

/-- a lookup sees only the selection of its own key -/
theorem lookup_eq_head_select (t : Table S) (k : κ) :
    t.lookup k = (t.select fun r => decide (S.key r = k)).head? :=
  List.head?_filter.symm

/-! ## counting rows -/

theorem count_insert {t t' : Table S} {r : ρ} (h : t.insert r = .ok t') (q : ρ → Bool) :
    t'.count q = t.count q + if q r then 1 else 0 := by
  unfold count
  rw [(insert_eq_ok.mp h).2.2, List.countP_append, List.countP_singleton]

/-- replacing one row moves the counts it is in -/
theorem count_replaced {t t' : Table S} {k : κ} {f : ρ → ρ} {r : ρ}
    (h : t.updateWhere (S.hasKey k) f = .ok t') (hl : t.lookup k = some r) (q : ρ → Bool) :
    t'.count q + (if q r then 1 else 0) = t.count q + if q (f r) then 1 else 0 := by
  have hr : S.hasKey k r = true := Schema.hasKey_iff.mpr (lookup_key hl)
  -- the row of the key and the other rows are counted apart
  have hsplit : ∀ p : ρ → Bool,
      t.count p = (if p r then 1 else 0) + t.count fun x => p x && !S.hasKey k x := by
    intro p
    have haim : t.count (fun x => p x && S.hasKey k x) = if p r then 1 else 0 := by
      rw [count_aimed (k := k) (fun x hx => ?_), hl]
      · simp only [Option.any_some, hr, Bool.and_true]
      · rw [Bool.and_eq_true] at hx
        exact Schema.hasKey_iff.mp hx.2
    rw [← haim]
    unfold count
    rw [List.countP_eq_countP_filter_add t.rows p (S.hasKey k), List.countP_filter,
      List.countP_filter]
  have hcount : t'.count q = t.count fun x => q (touch (S.hasKey k) f x) := by
    unfold count
    rw [(updateWhere_eq_ok.mp h).2.2, List.countP_map]
    rfl
  have hrest : (fun x => q (touch (S.hasKey k) f x) && !S.hasKey k x) =
      fun x => q x && !S.hasKey k x := by
    funext x
    unfold touch
    cases S.hasKey k x <;> simp
  have htouch : touch (S.hasKey k) f r = f r := if_pos hr
  rw [hcount, hsplit fun x => q (touch (S.hasKey k) f x), hsplit q, hrest, htouch]
  omega

/-- an update that moves no row into `q` does not raise its count -/
theorem count_updateWhere_le {t t' : Table S} {p : ρ → Bool} {f : ρ → ρ}
    (h : t.updateWhere p f = .ok t') {q : ρ → Bool}
    (hq : ∀ r ∈ t.rows, p r = true → q (f r) = true → q r = true) : t'.count q ≤ t.count q := by
  unfold count
  rw [(updateWhere_eq_ok.mp h).2.2, List.countP_map]
  apply List.countP_mono_left
  intro r hr h1
  simp only [Function.comp, touch] at h1
  cases hp : p r with
  | false => simpa [hp] using h1
  | true =>
    rw [hp, if_pos rfl] at h1
    exact hq r hr hp h1

theorem count_deleteWhere (t : Table S) (p q : ρ → Bool) :
    (t.deleteWhere p).count q + t.count (fun r => p r && q r) = t.count q := by
  unfold count
  rw [rows_deleteWhere, List.countP_filter]
  generalize t.rows = l
  induction l with
  | nil => rfl
  | cons a l ih =>
    simp only [List.countP_cons]
    cases p a <;> cases q a <;> simp <;> omega

theorem select_nodup (t : Table S) (q : ρ → Bool) : ((t.select q).map S.key).Nodup := by
  refine List.Pairwise.map S.key (R := fun a b => S.key a ≠ S.key b) (fun _ _ h => h) ?_
  exact (t.distinct.filter _).imp fun h => (Schema.clash_eq_false.mp h).1

/-- a count is the number of keys that lead to a row of the kind -/
theorem encard_lookup (t : Table S) (q : ρ → Bool) :
    {k | ∃ r, t.lookup k = some r ∧ q r = true}.encard = t.count q := by
  have hset : {k | ∃ r, t.lookup k = some r ∧ q r = true} =
      (((t.select q).map S.key).toFinset : Set κ) := by
    ext k
    simp only [Set.mem_ofPred_eq, List.coe_toFinset, List.mem_map, mem_select, lookup_eq_some]
    exact ⟨fun ⟨r, ⟨hr, hk⟩, hq⟩ => ⟨r, ⟨hr, hq⟩, hk⟩, fun ⟨r, ⟨hr, hq⟩, hk⟩ => ⟨r, ⟨hr, hk⟩, hq⟩⟩
  rw [hset, Set.encard_coe_eq_coe_finsetCard, List.toFinset_card_of_nodup (t.select_nodup q),
    List.length_map, select, ← List.countP_eq_length_filter]
  rfl

theorem count_pos {t : Table S} {q : ρ → Bool} : 0 < t.count q ↔ ∃ r ∈ t.rows, q r = true :=
  List.countP_pos_iff

theorem exists?_eq_true {t : Table S} {q : ρ → Bool} :
    t.exists? q = true ↔ ∃ r ∈ t.rows, q r = true := List.any_eq_true

theorem exists?_eq_false {t : Table S} {q : ρ → Bool} :
    t.exists? q = false ↔ ∀ r ∈ t.rows, q r = false := by
  unfold exists?
  rw [List.any_eq_false]
  simp

/-! ## updates that cannot fail -/

theorem deleteWhere_none (t : Table S) {p : ρ → Bool} (h : ∀ r ∈ t.rows, p r = false) :
    t.deleteWhere p = t := by
  obtain ⟨rows, hc, hd⟩ := t
  have hrows : (rows.filter fun r => !p r) = rows :=
    List.filter_eq_self.mpr fun r hr => by simp [h r hr]
  simp only [deleteWhere, hrows]

/-- an update that leaves every row as it is goes through -/
theorem updateWhere_same {t : Table S} {p : ρ → Bool} {f : ρ → ρ}
    (h : ∀ r ∈ t.rows, p r = true → f r = r) : t.updateWhere p f = .ok t := by
  have htouch : ∀ r ∈ t.rows, touch p f r = r := by
    intro r hr
    unfold touch
    split
    · rename_i hp
      exact h r hr hp
    · rfl
  have hmap : t.rows.map (touch p f) = t.rows := by
    conv_rhs => rw [← List.map_id t.rows]
    exact List.map_congr_left htouch
  rw [updateWhere_eq_ok, hmap]
  refine ⟨fun r hr => ?_, t.distinct, rfl⟩
  rw [htouch r hr]
  exact t.checked r hr

theorem updateWhere_none {t : Table S} {p : ρ → Bool} {f : ρ → ρ}
    (h : ∀ r ∈ t.rows, p r = false) : t.updateWhere p f = .ok t :=
  updateWhere_same fun r hr hp => absurd hp (by simp [h r hr])

/-- Replacing one row: the new row passes the checks and clashes with no other row. -/
theorem updateWhere_ok_of_key (t : Table S) {k : κ} {p : ρ → Bool} {f : ρ → ρ}
    (hp : ∀ r ∈ t.rows, p r = true → S.key r = k) (hf : ∀ r, S.key (f r) = S.key r)
    (hc : ∀ r ∈ t.rows, p r = true → S.check (f r) = true)
    (hu : ∀ r ∈ t.rows, p r = true → ∀ q ∈ t.rows, S.key q ≠ k → S.unique (f r) q = false) :
    ∃ t', t.updateWhere p f = .ok t' := by
  have hcheck : ∀ r ∈ t.rows, S.check (touch p f r) = true := by
    intro r hr
    cases h : p r with
    | false => simpa [touch, h] using t.checked r hr
    | true => simpa [touch, h] using hc r hr h
  have hclash : ∀ a ∈ t.rows, ∀ b ∈ t.rows, S.clash a b = false →
      S.clash (touch p f a) (touch p f b) = false := by
    intro a ha b hb hab
    obtain ⟨h1, h2⟩ := Schema.clash_eq_false.mp hab
    cases hpa : p a with
    | false =>
      cases hpb : p b with
      | false => simpa [touch, hpa, hpb] using hab
      | true =>
        have hkb := hp b hb hpb
        simp only [touch, hpa, hpb, if_true, Bool.false_eq_true, if_false]
        rw [Schema.clash_eq_false, hf, S.unique_symm]
        exact ⟨h1, hu b hb hpb a ha (fun e => h1 (e.trans hkb.symm))⟩
    | true =>
      have hka := hp a ha hpa
      cases hpb : p b with
      | false =>
        simp only [touch, hpa, hpb, if_true, Bool.false_eq_true, if_false]
        rw [Schema.clash_eq_false, hf]
        exact ⟨h1, hu a ha hpa b hb (fun e => h1 (hka.trans e.symm))⟩
      | true => exact absurd (hka.trans (hp b hb hpb).symm) h1
  have hpair : (t.rows.map (touch p f)).Pairwise fun a b => S.clash a b = false := by
    rw [List.pairwise_map]
    exact t.distinct.imp_of_mem (fun {a b} ha hb h => hclash a ha b hb h)
  refine ⟨⟨t.rows.map (touch p f), ?_, hpair⟩, updateWhere_eq_ok.mpr ⟨hcheck, hpair, rfl⟩⟩
  intro r hr
  obtain ⟨q, hq, rfl⟩ := List.mem_map.mp hr
  exact hcheck q hq

/-! ## which statements succeed -/

/-- **an insert succeeds** iff the row passes the check and collides with no row -/
theorem insert_ok_iff {t : Table S} {r : ρ} :
    (∃ t', t.insert r = .ok t') ↔
      S.check r = true ∧ t.lookup (S.key r) = none ∧ ∀ q ∈ t.rows, S.unique q r = false := by
  constructor
  · rintro ⟨t', h⟩
    obtain ⟨hc, hd, -⟩ := insert_eq_ok.mp h
    exact ⟨hc, lookup_fresh h, fun q hq => (Schema.clash_eq_false.mp (hd q hq)).2⟩
  · rintro ⟨hc, hl, hu⟩
    have hd : ∀ q ∈ t.rows, S.clash q r = false := fun q hq =>
      Schema.clash_eq_false.mpr ⟨lookup_eq_none.mp hl q hq, hu q hq⟩
    unfold insert
    rw [dif_pos hc, dif_pos hd]
    exact ⟨_, rfl⟩

/-- an insert that fails the row check -/
theorem check_of_insert {t : Table S} {r : ρ} (h : t.insert r = .error .check) :
    S.check r = false := by
  unfold insert at h
  split at h
  · split at h <;> cases h
  · rename_i hc
    exact Bool.eq_false_iff.mpr hc

/-- an update that fails the row check makes such a row -/
theorem check_of_updateWhere {t : Table S} {p : ρ → Bool} {f : ρ → ρ}
    (h : t.updateWhere p f = .error .check) : ∃ r ∈ t.rows, p r = true ∧ S.check (f r) = false := by
  unfold updateWhere at h
  split at h
  · split at h <;> cases h
  · rename_i hc
    push Not at hc
    obtain ⟨_, hmap, hbad⟩ := hc
    obtain ⟨r, hr, rfl⟩ := List.mem_map.mp hmap
    unfold touch at hbad
    split at hbad
    · rename_i hp
      exact ⟨r, hr, hp, Bool.eq_false_iff.mpr hbad⟩
    · exact absurd (t.checked r hr) hbad

/-- a change of the rows that no constraint sees -/
def mapRows (t : Table S) (f : ρ → ρ) (hc : ∀ r, S.check r = true → S.check (f r) = true)
    (hf : ∀ a b, S.clash (f a) (f b) = S.clash a b) : Table S where
  rows := t.rows.map f
  checked := by
    intro r hr
    obtain ⟨q, hq, rfl⟩ := List.mem_map.mp hr
    exact hc q (t.checked q hq)
  distinct := List.pairwise_map.mpr (t.distinct.imp fun h => (hf _ _).trans h)

theorem lookup_map {t t' : Table S} {f : ρ → ρ} (h : t'.rows = t.rows.map f)
    (hk : ∀ r, S.key (f r) = S.key r) (k : κ) : t'.lookup k = (t.lookup k).map f := by
  unfold lookup
  rw [h, List.find?_map]
  congr 2
  funext r
  exact congrArg (fun x => decide (x = k)) (hk r)

/-- an update that finds the new row only is an insert of the updated row -/
theorem insert_update {t t₁ t₂ : Table S} {r : ρ} {p : ρ → Bool} {f : ρ → ρ}
    (hi : t.insert r = .ok t₁) (hu : t₁.updateWhere p f = .ok t₂) (hr : p r = true)
    (hother : ∀ q ∈ t.rows, p q = false) : t.insert (f r) = .ok t₂ := by
  obtain ⟨-, -, hrows⟩ := insert_eq_ok.mp hi
  obtain ⟨hcheck, hdistinct, hrows'⟩ := updateWhere_eq_ok.mp hu
  have hold : t.rows = t.rows.map (touch p f) := (updateWhere_eq_ok.mp (updateWhere_none hother)).2.2
  have hnew : touch p f r = f r := if_pos hr
  have hmem : r ∈ t₁.rows := hrows ▸ List.mem_append_right _ List.mem_cons_self
  rw [hrows, List.map_append, List.map_singleton, ← hold, hnew] at hdistinct hrows'
  refine insert_eq_ok.mpr ⟨hnew ▸ hcheck r hmem, fun q hq => ?_, hrows'⟩
  exact (List.pairwise_append.mp hdistinct).2.2 q hq _ List.mem_cons_self

/-- an update that keeps what a row can collide with succeeds when the new rows pass the check -/
theorem updateWhere_ok_of_clash (t : Table S) {p : ρ → Bool} {f : ρ → ρ}
    (hc : ∀ r ∈ t.rows, p r = true → S.check (f r) = true)
    (hf : ∀ a b, S.clash (f a) b = S.clash a b) : ∃ t', t.updateWhere p f = .ok t' := by
  have hleft : ∀ a b, S.clash (touch p f a) b = S.clash a b := by
    intro a b
    unfold touch
    split
    · exact hf a b
    · rfl
  have hclash : ∀ a b, S.clash (touch p f a) (touch p f b) = S.clash a b := by
    intro a b
    rw [hleft, S.clash_symm, hleft, S.clash_symm]
  have hcheck : ∀ r ∈ t.rows, S.check (touch p f r) = true := by
    intro r hr
    unfold touch
    split
    · rename_i hp
      exact hc r hr hp
    · exact t.checked r hr
  refine ⟨⟨t.rows.map (touch p f), ?_, ?_⟩, updateWhere_eq_ok.mpr ⟨hcheck, ?_, rfl⟩⟩
  · intro r hr
    obtain ⟨q, hq, rfl⟩ := List.mem_map.mp hr
    exact hcheck q hq
  · exact List.pairwise_map.mpr (t.distinct.imp fun h => (hclash _ _).trans h)
  · exact List.pairwise_map.mpr (t.distinct.imp fun h => (hclash _ _).trans h)

/-- **the update of one row succeeds** iff the new row passes the check and collides with no other
row -/
theorem update_key_ok_iff {t : Table S} {k : κ} {f : ρ → ρ} {r : ρ} (hl : t.lookup k = some r)
    (hf : ∀ r, S.key (f r) = S.key r) :
    (∃ t', t.updateWhere (S.hasKey k) f = .ok t') ↔
      S.check (f r) = true ∧ ∀ q ∈ t.rows, S.key q ≠ k → S.unique (f r) q = false := by
  constructor
  · rintro ⟨t', h⟩
    have hl' := lookup_updated h hf hl
    refine ⟨lookup_check hl', fun q hq hk => ?_⟩
    have hq' : q ∈ t'.rows := by
      refine lookup_mem (k := S.key q) ?_
      rw [lookup_update_key h hf, if_neg hk]
      exact lookup_of_mem hq
    cases hu : S.unique (f r) q with
    | false => rfl
    | true =>
      have heq := t'.eq_of_unique (lookup_mem hl') hq' hu
      exact absurd (heq ▸ lookup_key hl') hk
  · rintro ⟨hc, hu⟩
    have hrow : ∀ q ∈ t.rows, S.hasKey k q = true → q = r := fun q hq hk =>
      t.eq_of_key hq (lookup_mem hl) ((Schema.hasKey_iff.mp hk).trans (lookup_key hl).symm)
    refine updateWhere_ok_of_key t (fun q hq hk => Schema.hasKey_iff.mp hk) hf ?_ ?_
    · intro q hq hk
      rw [hrow q hq hk]
      exact hc
    · intro q hq hk
      rw [hrow q hq hk]
      exact hu

end Table

end Lib
