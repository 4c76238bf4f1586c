import Mathlib.Tactic

/-!
# Runs of a labelled step relation

`Run Step s tr s'`: from `s` the steps labelled `tr` lead to `s'`.

* `Run.invariant`   what every step keeps, a run keeps;
* `Run.history`     the same for a fact about the state and the trace so far;
* `Run.split`       a run over `tr₁ ++ tr₂` stops in between;
* `Run.map`         a function that takes steps to steps takes runs to runs;
* `Run.simulate`    so does one that takes a step to a step or to nothing, along an invariant.
-/

namespace Lib

section
variable {σ ℓ σ' ℓ' : Type}

inductive Run (Step : σ → ℓ → σ → Prop) : σ → List ℓ → σ → Prop
  | nil (s : σ) : Run Step s [] s
  | cons {s s' s'' : σ} {l : ℓ} {tr : List ℓ} :
      Step s l s' → Run Step s' tr s'' → Run Step s (l :: tr) s''

namespace Run
variable {Step : σ → ℓ → σ → Prop} {s s' s'' : σ} {l : ℓ} {tr tr₁ tr₂ : List ℓ}

theorem append (h₁ : Run Step s tr₁ s') (h₂ : Run Step s' tr₂ s'') :
    Run Step s (tr₁ ++ tr₂) s'' := by
  induction h₁ with
  | nil s => exact h₂
  | cons hs _ ih => exact .cons hs (ih h₂)

theorem single (h : Step s l s') : Run Step s [l] s' := .cons h (.nil _)

theorem split (h : Run Step s (tr₁ ++ tr₂) s'') :
    ∃ s', Run Step s tr₁ s' ∧ Run Step s' tr₂ s'' := by
  induction tr₁ generalizing s with
  | nil => exact ⟨s, .nil s, h⟩
  | cons l tr ih =>
    cases h with
    | cons hs h =>
      obtain ⟨s', h₁, h₂⟩ := ih h
      exact ⟨s', .cons hs h₁, h₂⟩

/-- **what one step keeps, a run keeps** -/
theorem invariant (Inv : σ → Prop) (hstep : ∀ s l s', Inv s → Step s l s' → Inv s')
    (h : Run Step s tr s') (hs : Inv s) : Inv s' := by
  induction h with
  | nil s => exact hs
  | cons h1 _ ih => exact ih (hstep _ _ _ hs h1)

/-- **an invariant of the state together with the trace that led to it** -/
theorem history (Inv : List ℓ → σ → Prop)
    (hstep : ∀ tr s l s', Inv tr s → Step s l s' → Inv (tr ++ [l]) s')
    (h : Run Step s tr s') (hs : Inv [] s) : Inv tr s' := by
  suffices hgen : ∀ tr₁, Inv tr₁ s → Inv (tr₁ ++ tr) s' from hgen [] hs
  intro tr₁ hs₁
  clear hs
  induction h generalizing tr₁ with
  | nil s => simpa using hs₁
  | @cons s _ _ l tr h1 _ ih =>
    have hrest := ih (tr₁ ++ [l]) (hstep _ _ _ _ hs₁ h1)
    rwa [List.append_assoc, List.singleton_append] at hrest

/-- **a simulation that is a function on states and labels** -/
theorem map {Step' : σ' → ℓ' → σ' → Prop} {f : σ → σ'} {g : ℓ → ℓ'}
    (hstep : ∀ s l s', Step s l s' → Step' (f s) (g l) (f s')) (h : Run Step s tr s') :
    Run Step' (f s) (tr.map g) (f s') := by
  induction h with
  | nil s => exact .nil _
  | cons h1 _ ih => exact .cons (hstep _ _ _ h1) ih

theorem mono {Step' : σ → ℓ → σ → Prop} (hstep : ∀ s l s', Step s l s' → Step' s l s')
    (h : Run Step s tr s') : Run Step' s tr s' := by
  induction h with
  | nil s => exact .nil s
  | cons h1 _ ih => exact .cons (hstep _ _ _ h1) ih

/-- **a simulation with stuttering**: a label that `g` drops leaves the image of the state alone -/
theorem simulate {Step' : σ' → ℓ' → σ' → Prop} {f : σ → σ'} {g : ℓ → Option ℓ'} (Inv : σ → Prop)
    (hinv : ∀ s l s', Inv s → Step s l s' → Inv s')
    (hstep : ∀ s l s', Inv s → Step s l s' → Run Step' (f s) (g l).toList (f s'))
    (h : Run Step s tr s') (hs : Inv s) : Run Step' (f s) (tr.filterMap g) (f s') := by
  induction h with
  | nil s => exact .nil _
  | @cons s _ _ l tr h1 _ ih =>
    have htrace : (l :: tr).filterMap g = (g l).toList ++ tr.filterMap g := by
      cases hg : g l with
      | none => exact List.filterMap_cons_none hg
      | some l' => exact List.filterMap_cons_some hg
    rw [htrace]
    exact (hstep _ _ _ hs h1).append (ih (hinv _ _ _ hs h1))

end Run

end

end Lib
