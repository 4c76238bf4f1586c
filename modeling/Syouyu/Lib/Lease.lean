import Syouyu.Lib.Run

/-!
# Lease ledgers

A ledger keeps one entry per key: who the entry is for (`ident`), who holds it (`holder`), and
whether it is held until some time or closed with a result.  Keys compete for resources: the
resource of an entry is read off its identity.

* `acquire k d i u`   a free key is granted to `i`, or the expired entry of `d` is taken over by
                      `i`; in both cases no other key holds the resource of `d`;
* `extend k i u`      the holder moves the end of its lease;
* `close k i`         the holder closes the entry;
* `idle`              anything that does not touch the ledger.

What follows for whole runs:

* `run_exclusive`       at most one held entry per resource;
* `run_kept`            identities are kept, closed entries are final;
* `run_still_held`      an entry nobody else takes over or closes stays with its holder;
* `run_close_once`      a key is closed at most once;
* `Step.holder_changed` a holder changes only after its lease has run out;
* `Step.within`         within its lease a key stays with its holder, unless that one closes it;
* `run_holder`          the holder of a key is the one it was last acquired by; so with fresh
                        holders a superseded one never comes back (`run_superseded`).
-/

set_option linter.unusedSectionVars false

namespace Lib.Lease

/-- held until a time, or closed with a result -/
inductive Phase (τ ρ : Type) where
  | held (until_ : τ)
  | closed (result : ρ)

structure Entry (δ ι τ ρ : Type) where
  ident : δ
  holder : ι
  phase : Phase τ ρ

inductive Event (κ δ ι τ : Type) where
  | idle
  | acquire (key : κ) (ident : δ) (holder : ι) (until_ : τ)
  | extend (key : κ) (holder : ι) (until_ : τ)
  | close (key : κ) (holder : ι)

section
variable {κ δ ι τ ρ σ : Type} [DecidableEq κ] [LE τ]

def Entry.Held (e : Entry δ ι τ ρ) : Prop := ∃ u, e.phase = .held u

/-- no key but `k` holds the resource `r` -/
def OnlyHeld (resource : δ → σ) (L : κ → Option (Entry δ ι τ ρ)) (r : σ) (k : κ) : Prop :=
  ∀ j e, L j = some e → e.Held → resource e.ident = r → j = k

/-- One step of a ledger; the first part of the label is the time at which it is taken. -/
inductive Step (resource : δ → σ) (L : κ → Option (Entry δ ι τ ρ)) :
    τ × Event κ δ ι τ → (κ → Option (Entry δ ι τ ρ)) → Prop
  | idle (now : τ) : Step resource L (now, .idle) L
  | grant {now u : τ} {k : κ} {d : δ} {i : ι} :
      L k = none → OnlyHeld resource L (resource d) k →
      Step resource L (now, .acquire k d i u)
        (Function.update L k (some ⟨d, i, .held u⟩))
  | takeover {now u t : τ} {k : κ} {i : ι} {e : Entry δ ι τ ρ} :
      L k = some e → e.phase = .held t → t ≤ now → OnlyHeld resource L (resource e.ident) k →
      Step resource L (now, .acquire k e.ident i u)
        (Function.update L k (some ⟨e.ident, i, .held u⟩))
  | extend {now u : τ} {k : κ} {e : Entry δ ι τ ρ} :
      L k = some e → e.Held →
      Step resource L (now, .extend k e.holder u)
        (Function.update L k (some ⟨e.ident, e.holder, .held u⟩))
  | close {now : τ} {k : κ} {e : Entry δ ι τ ρ} {result : ρ} :
      L k = some e → e.Held →
      Step resource L (now, .close k e.holder)
        (Function.update L k (some ⟨e.ident, e.holder, .closed result⟩))

variable {resource : δ → σ} {L L' L'' : κ → Option (Entry δ ι τ ρ)}
  {l : τ × Event κ δ ι τ} {tr tr₁ tr₂ tr₃ : List (τ × Event κ δ ι τ)}

theorem not_held_closed {e : Entry δ ι τ ρ} {r : ρ} (h : e.phase = .closed r) : ¬ e.Held := by
  rintro ⟨u, hu⟩
  rw [h] at hu
  cases hu

/-! ## entries are kept -/

/-- an entry keeps its identity, and a closed one everything -/
theorem Step.kept (h : Step resource L l L') {k : κ} {e : Entry δ ι τ ρ} (hk : L k = some e) :
    ∃ e', L' k = some e' ∧ e'.ident = e.ident ∧ (¬ e.Held → e' = e) := by
  have hother : ∀ {j : κ} {x : Option (Entry δ ι τ ρ)}, k ≠ j →
      ∃ e', Function.update L j x k = some e' ∧ e'.ident = e.ident ∧ (¬ e.Held → e' = e) := by
    intro j x hne
    exact ⟨e, by rw [Function.update_of_ne hne, hk], rfl, fun _ => rfl⟩
  cases h with
  | idle now => exact ⟨e, hk, rfl, fun _ => rfl⟩
  | @grant now u j d i hj _ =>
    refine hother fun hkj => ?_
    rw [hkj, hj] at hk
    cases hk
  | @takeover now u t j i f hj hp _ _ =>
    by_cases hkj : k = j
    · subst hkj
      obtain rfl : f = e := Option.some.inj (hj.symm.trans hk)
      exact ⟨_, Function.update_self .., rfl, fun hn => absurd ⟨t, hp⟩ hn⟩
    · exact hother hkj
  | @extend now u j f hj hp =>
    by_cases hkj : k = j
    · subst hkj
      obtain rfl : f = e := Option.some.inj (hj.symm.trans hk)
      exact ⟨_, Function.update_self .., rfl, fun hn => absurd hp hn⟩
    · exact hother hkj
  | @close now j f r hj hp =>
    by_cases hkj : k = j
    · subst hkj
      obtain rfl : f = e := Option.some.inj (hj.symm.trans hk)
      exact ⟨_, Function.update_self .., rfl, fun hn => absurd hp hn⟩
    · exact hother hkj

/-- **identities never change, and neither does a closed entry** -/
theorem run_kept (h : Run (Step resource) L tr L') {k : κ} {e : Entry δ ι τ ρ}
    (hk : L k = some e) : ∃ e', L' k = some e' ∧ e'.ident = e.ident ∧ (¬ e.Held → e' = e) := by
  induction h generalizing e with
  | nil L => exact ⟨e, hk, rfl, fun _ => rfl⟩
  | cons h1 _ ih =>
    obtain ⟨e₁, hk₁, hi₁, hc₁⟩ := h1.kept hk
    obtain ⟨e₂, hk₂, hi₂, hc₂⟩ := ih hk₁
    refine ⟨e₂, hk₂, hi₂.trans hi₁, fun hn => ?_⟩
    obtain rfl := hc₁ hn
    exact hc₂ hn

/-! ## entries left to their holder -/

/-- the event neither takes the key over nor closes it for the holder -/
def Spares (k : κ) (i : ι) : τ × Event κ δ ι τ → Prop
  | (_, .acquire j _ _ _) => j ≠ k
  | (_, .close j holder) => j = k → holder ≠ i
  | _ => True

theorem Step.still_held (h : Step resource L l L') {k : κ} {e : Entry δ ι τ ρ}
    (hl : Spares k e.holder l) (hk : L k = some e) (hheld : e.Held) :
    ∃ e', L' k = some e' ∧ e'.ident = e.ident ∧ e'.holder = e.holder ∧ e'.Held := by
  have hother : ∀ {j : κ} {x : Option (Entry δ ι τ ρ)}, k ≠ j →
      ∃ e', Function.update L j x k = some e' ∧ e'.ident = e.ident ∧ e'.holder = e.holder ∧
        e'.Held := by
    intro j x hne
    exact ⟨e, by rw [Function.update_of_ne hne, hk], rfl, rfl, hheld⟩
  cases h with
  | idle now => exact ⟨e, hk, rfl, rfl, hheld⟩
  | grant _ _ => exact hother (Ne.symm hl)
  | takeover _ _ _ _ => exact hother (Ne.symm hl)
  | @extend now u j f hj _ =>
    by_cases hkj : k = j
    · subst hkj
      obtain rfl : f = e := Option.some.inj (hj.symm.trans hk)
      exact ⟨_, Function.update_self .., rfl, rfl, u, rfl⟩
    · exact hother hkj
  | @close now j f r hj _ =>
    refine hother ?_
    rintro rfl
    obtain rfl : f = e := Option.some.inj (hj.symm.trans hk)
    exact hl rfl rfl

/-- **an entry that is spared stays with its holder** -/
theorem run_still_held (h : Run (Step resource) L tr L') {k : κ} {e : Entry δ ι τ ρ}
    (htr : ∀ l ∈ tr, Spares k e.holder l) (hk : L k = some e) (hheld : e.Held) :
    ∃ e', L' k = some e' ∧ e'.ident = e.ident ∧ e'.holder = e.holder ∧ e'.Held := by
  induction h generalizing e with
  | nil L => exact ⟨e, hk, rfl, rfl, hheld⟩
  | cons h1 _ ih =>
    obtain ⟨e₁, hk₁, hi₁, hh₁, hheld₁⟩ := h1.still_held (htr _ List.mem_cons_self) hk hheld
    obtain ⟨e₂, hk₂, hi₂, hh₂, hheld₂⟩ :=
      ih (fun l hl => hh₁ ▸ htr l (List.mem_cons_of_mem _ hl)) hk₁ hheld₁
    exact ⟨e₂, hk₂, hi₂.trans hi₁, hh₂.trans hh₁, hheld₂⟩

/-! ## closing -/

/-- the event closes the key -/
def closes (k : κ) : τ × Event κ δ ι τ → Bool
  | (_, .close j _) => decide (j = k)
  | _ => false

/-- a closing step finds its entry held and leaves it closed -/
theorem Step.of_closes (h : Step resource L l L') {k : κ} (hc : closes k l = true) :
    (∃ e, L k = some e ∧ e.Held) ∧ ∃ e, L' k = some e ∧ ¬ e.Held := by
  cases h with
  | @close now j e r hj hp =>
    obtain rfl : j = k := of_decide_eq_true hc
    exact ⟨⟨e, hj, hp⟩, _, Function.update_self .., not_held_closed rfl⟩
  | _ => cases hc

/-- a closed key is not closed again -/
theorem run_not_closes (h : Run (Step resource) L tr L') {k : κ} {e : Entry δ ι τ ρ}
    (hk : L k = some e) (hn : ¬ e.Held) : ∀ l ∈ tr, closes k l = false := by
  induction h generalizing e with
  | nil L => intro l hl; cases hl
  | @cons _ _ _ l tr h1 _ ih =>
    obtain ⟨e₁, hk₁, -, hc₁⟩ := h1.kept hk
    obtain rfl := hc₁ hn
    intro l' hl'
    rcases List.mem_cons.mp hl' with rfl | hl'
    · refine Bool.eq_false_iff.mpr fun hc => ?_
      obtain ⟨⟨f, hf, hheld⟩, -⟩ := h1.of_closes hc
      rw [Option.some.inj (hf.symm.trans hk)] at hheld
      exact hn hheld
    · exact ih hk₁ hn l' hl'

/-- **a key is closed at most once in a run** -/
theorem run_close_once (h : Run (Step resource) L tr L') (k : κ) :
    (tr.filter (closes k)).length ≤ 1 := by
  induction h with
  | nil L => exact Nat.zero_le _
  | @cons _ _ _ l tr h1 h2 ih =>
    rw [List.filter_cons]
    split
    · rename_i hc
      obtain ⟨-, e, he, hn⟩ := h1.of_closes hc
      have hnil : tr.filter (closes k) = [] :=
        List.filter_eq_nil_iff.mpr fun l' hl' => by simp [run_not_closes h2 he hn l' hl']
      rw [hnil]
      exact Nat.le_refl _
    · exact ih

/-! ## exclusion -/

/-- at most one held entry per resource -/
def Exclusive (resource : δ → σ) (L : κ → Option (Entry δ ι τ ρ)) : Prop :=
  ∀ j e, L j = some e → e.Held → OnlyHeld resource L (resource e.ident) j

theorem Step.exclusive (h : Step resource L l L') (hx : Exclusive resource L) :
    Exclusive resource L' := by
  -- an entry written at `k` that is held needs its resource free elsewhere
  have hwrite : ∀ {k : κ} {e : Entry δ ι τ ρ},
      (e.Held → OnlyHeld resource L (resource e.ident) k) →
      Exclusive resource (Function.update L k (some e)) := by
    intro k e honly j f hf hheld j' f' hf' hheld' hres
    by_cases hj : j = k
    · subst hj
      rw [Function.update_self] at hf
      obtain rfl := Option.some.inj hf
      by_cases hj' : j' = j
      · exact hj'
      · rw [Function.update_of_ne hj'] at hf'
        exact honly hheld j' f' hf' hheld' hres
    · rw [Function.update_of_ne hj] at hf
      by_cases hj' : j' = k
      · subst hj'
        rw [Function.update_self] at hf'
        obtain rfl := Option.some.inj hf'
        exact (honly hheld' j f hf hheld hres.symm).symm
      · rw [Function.update_of_ne hj'] at hf'
        exact hx j f hf hheld j' f' hf' hheld' hres
  cases h with
  | idle now => exact hx
  | grant _ honly => exact hwrite fun _ => honly
  | takeover _ _ _ honly => exact hwrite fun _ => honly
  | @extend now u k e hk hp =>
    have honly := hx k e hk hp
    exact hwrite fun _ => honly
  | close hk hp => exact hwrite fun hheld => absurd hheld (not_held_closed rfl)

/-- **no resource is ever held twice** -/
theorem run_exclusive (h : Run (Step resource) L tr L') (hx : Exclusive resource L) :
    Exclusive resource L' :=
  h.invariant (Exclusive resource) (fun _ _ _ hx hs => Step.exclusive hs hx) hx

theorem exclusive_empty : Exclusive resource (fun _ : κ => (none : Option (Entry δ ι τ ρ))) := by
  intro j e h
  cases h

/-! ## holders -/

/-- the key an event acquires and for which holder -/
def acquisition : τ × Event κ δ ι τ → Option (κ × ι)
  | (_, .acquire k _ i _) => some (k, i)
  | _ => none

/-- the holder by which the event acquires the key -/
def acquired (k : κ) (l : τ × Event κ δ ι τ) : Option ι :=
  (acquisition l).bind fun g => if g.1 = k then some g.2 else none

/-- after a step the holder of a key is the one that acquired it, or the one before -/
theorem Step.holder (h : Step resource L l L') (k : κ) :
    (L' k).map Entry.holder = (acquired k l).or ((L k).map Entry.holder) := by
  cases h with
  | idle now => rfl
  | @grant now u j d i hj _ =>
    by_cases hkj : k = j
    · subst hkj
      simp [acquired, acquisition]
    · simp [acquired, acquisition, Function.update_of_ne hkj, Ne.symm hkj]
  | @takeover now u t j i e hj _ _ _ =>
    by_cases hkj : k = j
    · subst hkj
      simp [acquired, acquisition]
    · simp [acquired, acquisition, Function.update_of_ne hkj, Ne.symm hkj]
  | @extend now u j e hj _ =>
    by_cases hkj : k = j
    · subst hkj
      simp [acquired, acquisition, hj]
    · simp [acquired, acquisition, Function.update_of_ne hkj]
  | @close now j e r hj _ =>
    by_cases hkj : k = j
    · subst hkj
      simp [acquired, acquisition, hj]
    · simp [acquired, acquisition, Function.update_of_ne hkj]

/-- **a holder changes only once its lease has run out** -/
theorem Step.holder_changed (h : Step resource L l L') {k : κ} {e e' : Entry δ ι τ ρ}
    (hk : L k = some e) (hk' : L' k = some e') (hne : e'.holder ≠ e.holder) :
    ∃ t, e.phase = .held t ∧ t ≤ l.1 ∧ acquired k l = some e'.holder := by
  have hacq : acquired k l = some e'.holder := by
    have hh := h.holder k
    rw [hk, hk'] at hh
    cases ha : acquired k l with
    | none =>
      rw [ha] at hh
      exact absurd (Option.some.inj hh) hne
    | some i =>
      rw [ha] at hh
      exact hh.symm
  cases h with
  | @grant now u j d i hj _ =>
    have hjk : j = k := by
      by_contra hjk
      simp [acquired, acquisition, hjk] at hacq
    rw [← hjk, hj] at hk
    cases hk
  | @takeover now u t j i f hj hp ht _ =>
    have hjk : j = k := by
      by_contra hjk
      simp [acquired, acquisition, hjk] at hacq
    subst hjk
    obtain rfl : f = e := Option.some.inj (hj.symm.trans hk)
    exact ⟨t, hp, ht, hacq⟩
  | idle now => cases hacq
  | extend _ _ => cases hacq
  | close _ _ => cases hacq

/-- **the holder of a key is the last one that acquired it** -/
theorem run_holder (h : Run (Step resource) (fun _ => none) tr L) (k : κ) :
    (L k).map Entry.holder = (tr.filterMap (acquired k)).getLast? := by
  refine h.history (fun tr L => (L k).map Entry.holder = (tr.filterMap (acquired k)).getLast?)
    (fun tr L l L' hi hs => ?_) rfl
  rw [Step.holder hs k, hi, List.filterMap_append, List.filterMap_cons, List.filterMap_nil]
  cases acquired k l with
  | none => simp
  | some i => simp

theorem mem_acquired {k : κ} {i : ι} :
    i ∈ tr.filterMap (acquired k) ↔ (k, i) ∈ tr.filterMap acquisition := by
  simp only [List.mem_filterMap, acquired, Option.bind_eq_some_iff]
  constructor
  · rintro ⟨l, hl, ⟨j, i'⟩, hg, hif⟩
    split at hif
    · rename_i hjk
      cases hjk
      cases hif
      exact ⟨l, hl, hg⟩
    · cases hif
  · rintro ⟨l, hl, hg⟩
    exact ⟨l, hl, (k, i), hg, if_pos rfl⟩

theorem acquired_sublist (k : κ) :
    (tr.filterMap (acquired k)).Sublist ((tr.filterMap acquisition).map Prod.snd) := by
  induction tr with
  | nil => exact List.Sublist.slnil
  | cons l tr ih =>
    simp only [List.filterMap_cons]
    cases hg : acquisition l with
    | none => simpa [acquired, hg] using ih
    | some g =>
      by_cases hk : g.1 = k
      · simpa [acquired, hg, hk] using ih
      · simpa [acquired, hg, hk] using ih.cons g.2

/-- **with fresh holders, a holder that lost its key never holds anything again** -/
theorem run_superseded {L₁ L₂ L₃ : κ → Option (Entry δ ι τ ρ)}
    (h₁ : Run (Step resource) (fun _ => none) tr₁ L₁) (h₂ : Run (Step resource) L₁ tr₂ L₂)
    (h₃ : Run (Step resource) L₂ tr₃ L₃)
    (hfresh : (((tr₁ ++ tr₂ ++ tr₃).filterMap acquisition).map Prod.snd).Nodup)
    {k : κ} {i : ι} (hk : (L₁ k).map Entry.holder = some i)
    (hlost : (L₂ k).map Entry.holder ≠ some i) :
    ∀ j e, L₃ j = some e → e.holder ≠ i := by
  rintro j e he rfl
  have hlast₁ := (run_holder h₁ k).symm.trans hk
  have hlast₂ := run_holder (h₁.append h₂) k
  have hlast₃ : some e.holder = ((tr₁ ++ tr₂ ++ tr₃).filterMap (acquired j)).getLast? := by
    rw [← run_holder ((h₁.append h₂).append h₃) j, he]
    rfl
  have hmem₁ : e.holder ∈ tr₁.filterMap (acquired k) := List.mem_of_getLast? hlast₁
  -- fresh holders acquire one key only
  have hjk : j = k := by
    have hj := mem_acquired.mp (List.mem_of_getLast? hlast₃.symm)
    have hk' : (k, e.holder) ∈ (tr₁ ++ tr₂ ++ tr₃).filterMap acquisition := by
      rw [List.append_assoc, List.filterMap_append]
      exact List.mem_append_left _ (mem_acquired.mp hmem₁)
    exact congrArg Prod.fst (List.inj_on_of_nodup_map hfresh hj hk' rfl)
  subst hjk
  have hnodup := hfresh.sublist (acquired_sublist j)
  simp only [List.filterMap_append, List.append_assoc] at hlast₂ hlast₃ hnodup
  have hne : tr₂.filterMap (acquired j) ≠ [] := by
    intro hnil
    rw [hnil, List.append_nil, hlast₁] at hlast₂
    exact hlost hlast₂
  have hmem₂ : e.holder ∈ tr₂.filterMap (acquired j) ++ tr₃.filterMap (acquired j) := by
    rw [List.getLast?_append_of_ne_nil _ (by simp [hne])] at hlast₃
    exact List.mem_of_getLast? hlast₃.symm
  exact (List.nodup_append.mp hnodup).2.2 _ hmem₁ _ hmem₂ rfl

end

/-! ## within the lease -/

section
variable {κ δ ι τ ρ σ : Type} [DecidableEq κ] [Preorder τ] {resource : δ → σ}
  {L L' : κ → Option (Entry δ ι τ ρ)} {k : κ} {d : δ} {i : ι} {now t : τ}

/-- the key is with the holder, until the time at least -/
def HeldUntil (L : κ → Option (Entry δ ι τ ρ)) (k : κ) (d : δ) (i : ι) (t : τ) : Prop :=
  ∃ u, L k = some ⟨d, i, .held u⟩ ∧ t ≤ u

/-- **before its time a key stays with its holder, unless that one closes it** -/
theorem Step.within {event : Event κ δ ι τ} (h : Step resource L (now, event) L')
    (hk : HeldUntil L k d i t) (hnow : now < t)
    (hextend : ∀ j holder u, event = .extend j holder u → t ≤ u) :
    HeldUntil L' k d i t ∨ event = .close k i := by
  obtain ⟨u, hu, htu⟩ := hk
  have hother : ∀ {j : κ} {x : Option (Entry δ ι τ ρ)}, k ≠ j →
      HeldUntil (Function.update L j x) k d i t := by
    intro j x hne
    exact ⟨u, by rw [Function.update_of_ne hne, hu], htu⟩
  cases h with
  | idle now => exact .inl ⟨u, hu, htu⟩
  | grant hj _ =>
    refine .inl (hother ?_)
    rintro rfl
    rw [hj] at hu
    cases hu
  | takeover hj hp hle _ =>
    refine .inl (hother ?_)
    rintro rfl
    obtain rfl := Option.some.inj (hj.symm.trans hu)
    cases hp
    exact lt_irrefl _ (hnow.trans_le (htu.trans hle))
  | @extend _ v j e hj _ =>
    by_cases hkj : k = j
    · subst hkj
      obtain rfl := Option.some.inj (hj.symm.trans hu)
      exact .inl ⟨v, Function.update_self .., hextend _ _ _ rfl⟩
    · exact .inl (hother hkj)
  | @close _ j e result hj _ =>
    by_cases hkj : k = j
    · subst hkj
      obtain rfl := Option.some.inj (hj.symm.trans hu)
      exact .inr rfl
    · exact .inl (hother hkj)

end

end Lib.Lease
