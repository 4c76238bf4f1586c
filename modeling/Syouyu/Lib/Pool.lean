import Syouyu.Lib.Prog
import Syouyu.Lib.Run

/-!
# Pools of programs

Any number of programs run in one world, in any interleaving, and may stop for good at any time.
What they have asked and were answered stays on record.

* `Pool.Step`         a program is started, one makes its next request, or one crashes;
* `Pool.Sound`        an invariant of the world, and what every entry of a log means for it;
* `Pool.Step.sound`   kept, if each request keeps the invariant, makes its own entry true, and
                      leaves the entries of all others true; `Pool.run_sound` over a run;
* `Pool.Obeying`      what the handlers obey, to their answers, kept by every step;
* `Pool.run_logged`   what is on record has happened, `Pool.run_recorded` what has happened is on
                      record, and `Pool.run_allowed` it was allowed;
* `Pool.run_passes`   at a moment of the run;
* `Pool.play`         a script of turns, which is a run (`Pool.play_run`).
-/

set_option linter.unusedSectionVars false

namespace Lib

section
variable {W ρ E : Type} {A : E → Type} {ε α : Type}

/-- a program, the request it was started for, and its log; one that crashed has no rest -/
structure Thread (ρ E : Type) (A : E → Type) (ε α : Type) where
  request : ρ
  log : Log E A
  rest : Option (Prog E A ε α)

structure Pool (W ρ E : Type) (A : E → Type) (ε α : Type) where
  world : W
  threads : List (Thread ρ E A ε α)

inductive Event (ρ E : Type) (A : E → Type) where
  | spawn (request : ρ)
  | act (i : Nat) (e : E) (a : A e)
  | crash (i : Nat)

namespace Pool
variable (effect : W → (e : E) → A e → W → Prop) (handler : ρ → Prog E A ε α)

/-- One step: a program is started, one makes its next request in the world, or one stops for
good. -/
inductive Step : Pool W ρ E A ε α → Event ρ E A → Pool W ρ E A ε α → Prop
  | spawn {s : Pool W ρ E A ε α} (request : ρ) :
      Step s (.spawn request)
        { s with threads := s.threads ++ [⟨request, [], some (handler request)⟩] }
  | act {s : Pool W ρ E A ε α} {i : Nat} {t : Thread ρ E A ε α} {e : E}
      {next : A e → Prog E A ε α} {a : A e} {w : W} :
      s.threads[i]? = some t → t.rest = some (.ask e next) → effect s.world e a w →
      Step s (.act i e a)
        ⟨w, s.threads.set i ⟨t.request, t.log ++ [⟨e, a⟩], some (next a)⟩⟩
  | crash {s : Pool W ρ E A ε α} {i : Nat} {t : Thread ρ E A ε α} :
      s.threads[i]? = some t →
      Step s (.crash i) { s with threads := s.threads.set i { t with rest := none } }

variable (may : ρ → Log E A → E → Prop) (Inv : W → Prop) (Means : W → ((e : E) × A e) → Prop)

/-- a thread makes only requests it may make, and its log tells the truth about the world -/
structure ThreadSound (w : W) (t : Thread ρ E A ε α) : Prop where
  obeys : ∀ p, t.rest = some p → p.Obeys (may t.request) (fun _ _ => True) t.log
  truthful : ∀ x ∈ t.log, Means w x

structure Sound (s : Pool W ρ E A ε α) : Prop where
  inv : Inv s.world
  threads : ∀ t ∈ s.threads, ThreadSound may Means s.world t

/-- what a request must do to the world for the pool to stay sound -/
structure Keeps (w w' : W) (x : (e : E) × A e) : Prop where
  inv : Inv w'
  holds : Means w' x
  stable : ∀ y, Means w y → Means w' y

variable {effect handler may Inv Means} {s s' : Pool W ρ E A ε α} {ev : Event ρ E A}

/-- **one step of a sound pool** -/
theorem Step.sound (h : Step effect handler s ev s') (hs : s.Sound may Inv Means)
    (hobeys : ∀ r, (handler r).Obeys (may r) (fun _ _ => True) [])
    (hact : ∀ w w' e a r log, Inv w → (∀ x ∈ log, Means w x) → may r log e → effect w e a w' →
      Keeps Inv Means w w' ⟨e, a⟩) :
    s'.Sound may Inv Means := by
  cases h with
  | spawn request =>
    refine ⟨hs.inv, fun t ht => ?_⟩
    rcases List.mem_append.mp ht with ht | ht
    · exact hs.threads t ht
    · rw [List.mem_singleton.mp ht]
      refine ⟨fun p hp => ?_, fun x hx => by cases hx⟩
      obtain rfl := Option.some.inj hp
      exact hobeys request
  | @act i t e next a w hi hrest heff =>
    have ht := hs.threads t (List.mem_of_getElem? hi)
    have hob := ht.obeys _ hrest
    have hkeep := hact _ _ _ _ _ _ hs.inv ht.truthful hob.1 heff
    refine ⟨hkeep.inv, fun t' ht' => ?_⟩
    rcases List.mem_or_eq_of_mem_set ht' with ht' | rfl
    · have hold := hs.threads t' ht'
      exact ⟨hold.obeys, fun x hx => hkeep.stable x (hold.truthful x hx)⟩
    · refine ⟨fun p hp => ?_, fun x hx => ?_⟩
      · obtain rfl := Option.some.inj hp
        exact hob.2 a
      · rcases List.mem_append.mp hx with hx | hx
        · exact hkeep.stable x (ht.truthful x hx)
        · rw [List.mem_singleton.mp hx]
          exact hkeep.holds
  | @crash i t hi =>
    refine ⟨hs.inv, fun t' ht' => ?_⟩
    rcases List.mem_or_eq_of_mem_set ht' with ht' | rfl
    · exact hs.threads t' ht'
    · exact ⟨nofun, (hs.threads t (List.mem_of_getElem? hi)).truthful⟩

/-- **a run of a sound pool** -/
theorem run_sound {tr : List (Event ρ E A)} (h : Run (Step effect handler) s tr s')
    (hs : s.Sound may Inv Means) (hobeys : ∀ r, (handler r).Obeys (may r) (fun _ _ => True) [])
    (hact : ∀ w w' e a r log, Inv w → (∀ x ∈ log, Means w x) → may r log e → effect w e a w' →
      Keeps Inv Means w w' ⟨e, a⟩) : s'.Sound may Inv Means :=
  h.invariant (Sound may Inv Means) (fun _ _ _ hs h => h.sound hs hobeys hact) hs

section
variable {Q : ρ → Log E A → Except ε α → Prop}

/-- the programs go on as the handlers they were started with, to answers of the kind `Q` -/
def Obeying (may : ρ → Log E A → E → Prop) (Q : ρ → Log E A → Except ε α → Prop)
    (s : Pool W ρ E A ε α) : Prop :=
  ∀ t ∈ s.threads, ∀ p, t.rest = some p → p.Obeys (may t.request) (Q t.request) t.log

theorem Step.obeying (h : Step effect handler s ev s')
    (hobeys : ∀ r, (handler r).Obeys (may r) (Q r) []) (hs : s.Obeying may Q) :
    s'.Obeying may Q := by
  cases h with
  | spawn request =>
    intro t ht p hp
    rcases List.mem_append.mp ht with ht | ht
    · exact hs t ht p hp
    · obtain rfl := List.mem_singleton.mp ht
      obtain rfl := Option.some.inj hp
      exact hobeys request
  | @act i t e next a w hi hrest _ =>
    intro t' ht' p hp
    rcases List.mem_or_eq_of_mem_set ht' with ht' | rfl
    · exact hs t' ht' p hp
    · obtain rfl := Option.some.inj hp
      exact (hs t (List.mem_of_getElem? hi) _ hrest).2 a
  | crash hi =>
    intro t' ht' p hp
    rcases List.mem_or_eq_of_mem_set ht' with ht' | rfl
    · exact hs t' ht' p hp
    · cases hp

/-- **the answer of a finished program is of the kind its handler gives** -/
theorem run_answer {tr : List (Event ρ E A)} (h : Run (Step effect handler) s tr s')
    (hs : s.threads = []) (hobeys : ∀ r, (handler r).Obeys (may r) (Q r) [])
    {t : Thread ρ E A ε α} (ht : t ∈ s'.threads) {r : Except ε α} (hr : t.rest = some (.done r)) :
    Q t.request t.log r := by
  have hstart : s.Obeying may Q := by
    intro t ht
    rw [hs] at ht
    cases ht
  exact h.invariant (Obeying may Q) (fun _ _ _ hs h => h.obeying hobeys hs) hstart t ht _ hr

/-- the log of the `i`-th program, empty before it is started -/
def log (s : Pool W ρ E A ε α) (i : Nat) : Log E A := (s.threads[i]?.map Thread.log).getD []

theorem log_of_thread {i : Nat} {t : Thread ρ E A ε α} (h : s.threads[i]? = some t) :
    s.log i = t.log := by
  rw [log, h]
  rfl

/-- the logs of a sound pool are true -/
theorem Sound.log (h : s.Sound may Inv Means) (i : Nat) : ∀ x ∈ s.log i, Means s.world x := by
  cases ht : s.threads[i]? with
  | none =>
    rw [Pool.log, ht]
    exact fun x hx => by cases hx
  | some t =>
    rw [log_of_thread ht]
    exact (h.threads t (List.mem_of_getElem? ht)).truthful

theorem Step.mono {effect' : W → (e : E) → A e → W → Prop}
    (heffect : ∀ w e a w', effect w e a w' → effect' w e a w')
    (h : Step effect handler s ev s') : Step effect' handler s ev s' := by
  cases h with
  | spawn request => exact .spawn request
  | act hi hrest heff => exact .act hi hrest (heffect _ _ _ _ heff)
  | crash hi => exact .crash hi

/-- **what a step does to the logs**: nothing, or it adds an entry to one of them -/
theorem Step.logs (h : Step effect handler s ev s') :
    ((∀ i e a, ev ≠ .act i e a) ∧ s'.world = s.world ∧ s'.log = s.log) ∨
    ∃ i t e next a, ev = .act i e a ∧ s.threads[i]? = some t ∧ t.rest = some (.ask e next) ∧
      effect s.world e a s'.world ∧
      s'.log = Function.update s.log i (s.log i ++ [⟨e, a⟩]) := by
  have hset : ∀ {i : Nat} {t t' : Thread ρ E A ε α}, s.threads[i]? = some t → ∀ (w : W),
      (Pool.mk w (s.threads.set i t')).log = Function.update s.log i t'.log := by
    intro i t t' ht w
    have hlt : i < s.threads.length := (List.getElem?_eq_some_iff.mp ht).1
    funext j
    by_cases hj : j = i
    · subst hj
      simp [log, List.getElem?_set_self hlt]
    · simp [log, List.getElem?_set_ne (Ne.symm hj), Function.update_of_ne hj]
  cases h with
  | spawn request =>
    refine .inl ⟨fun _ _ _ h => (by cases h), rfl, funext fun j => ?_⟩
    rcases Nat.lt_trichotomy j s.threads.length with hlt | rfl | hgt
    · simp [log, List.getElem?_append_left hlt]
    · simp [log]
    · have hnone : s.threads[j]? = none := List.getElem?_eq_none hgt.le
      simp [log, hnone, List.getElem?_append_right hgt.le, Nat.sub_ne_zero_of_lt hgt]
  | @act i t e next a w hi hrest heff =>
    refine .inr ⟨i, t, e, next, a, rfl, hi, hrest, heff, ?_⟩
    rw [hset hi, log_of_thread hi]
  | @crash i t hi =>
    refine .inl ⟨fun _ _ _ h => (by cases h), rfl, ?_⟩
    rw [hset hi, ← log_of_thread hi, Function.update_eq_self]

/-- what a pool has on record has happened along `tr` -/
def Logged (tr : List (Event ρ E A)) (s : Pool W ρ E A ε α) : Prop :=
  ∀ t ∈ s.threads, .spawn t.request ∈ tr ∧ ∀ x ∈ t.log, ∃ i, .act i x.1 x.2 ∈ tr

theorem Step.logged {tr : List (Event ρ E A)} (h : Step effect handler s ev s')
    (hs : s.Logged tr) : s'.Logged (tr ++ [ev]) := by
  have hold : ∀ t ∈ s.threads, .spawn t.request ∈ tr ++ [ev] ∧
      ∀ x ∈ t.log, ∃ i, .act i x.1 x.2 ∈ tr ++ [ev] := by
    intro t ht
    obtain ⟨hspawn, hlog⟩ := hs t ht
    refine ⟨List.mem_append_left _ hspawn, fun x hx => ?_⟩
    obtain ⟨i, hi⟩ := hlog x hx
    exact ⟨i, List.mem_append_left _ hi⟩
  have hlast : ev ∈ tr ++ [ev] := List.mem_append_right _ List.mem_cons_self
  cases h with
  | spawn request =>
    intro t ht
    rcases List.mem_append.mp ht with ht | ht
    · exact hold t ht
    · obtain rfl := List.mem_singleton.mp ht
      exact ⟨hlast, fun x hx => by cases hx⟩
  | @act i t e next a w hi _ _ =>
    intro t' ht'
    rcases List.mem_or_eq_of_mem_set ht' with ht' | rfl
    · exact hold t' ht'
    · obtain ⟨hspawn, hlog⟩ := hold t (List.mem_of_getElem? hi)
      refine ⟨hspawn, fun x hx => ?_⟩
      rcases List.mem_append.mp hx with hx | hx
      · exact hlog x hx
      · obtain rfl := List.mem_singleton.mp hx
        exact ⟨i, hlast⟩
  | @crash i t hi =>
    intro t' ht'
    rcases List.mem_or_eq_of_mem_set ht' with ht' | rfl
    · exact hold t' ht'
    · exact hold t (List.mem_of_getElem? hi)

/-- **what is on record has happened** -/
theorem run_logged {tr : List (Event ρ E A)} (h : Run (Step effect handler) s tr s')
    (hs : s.threads = []) : s'.Logged tr := by
  refine h.history Logged (fun _ _ _ _ hs h => h.logged hs) ?_
  intro t ht
  rw [hs] at ht
  cases ht

/-- a step extends the logs -/
theorem Step.extends (h : Step effect handler s ev s') {i : Nat} {t : Thread ρ E A ε α}
    (ht : s.threads[i]? = some t) :
    ∃ t', s'.threads[i]? = some t' ∧ t'.request = t.request ∧ t.log <+: t'.log := by
  have hlt : i < s.threads.length := (List.getElem?_eq_some_iff.mp ht).1
  have hset : ∀ {j : Nat} {u u' : Thread ρ E A ε α}, s.threads[j]? = some u →
      u'.request = u.request → u.log <+: u'.log →
      ∃ t', (s.threads.set j u')[i]? = some t' ∧ t'.request = t.request ∧ t.log <+: t'.log := by
    intro j u u' hu hr hl
    by_cases heq : j = i
    · subst heq
      obtain rfl := Option.some.inj (hu.symm.trans ht)
      exact ⟨u', List.getElem?_set_self hlt, hr, hl⟩
    · exact ⟨t, (List.getElem?_set_ne heq).trans ht, rfl, List.prefix_rfl⟩
  cases h with
  | spawn request =>
    exact ⟨t, (List.getElem?_append_left hlt).trans ht, rfl, List.prefix_rfl⟩
  | act hi _ _ => exact hset hi rfl (List.prefix_append _ _)
  | crash hi => exact hset hi rfl List.prefix_rfl

/-- what has happened along `tr` is on record -/
def Recorded (tr : List (Event ρ E A)) (s : Pool W ρ E A ε α) : Prop :=
  ∀ i e a, .act i e a ∈ tr → ∃ t, s.threads[i]? = some t ∧ ⟨e, a⟩ ∈ t.log

theorem Step.recorded {tr : List (Event ρ E A)} (h : Step effect handler s ev s')
    (hs : s.Recorded tr) : s'.Recorded (tr ++ [ev]) := by
  intro i e a hmem
  rcases List.mem_append.mp hmem with hmem | hmem
  · obtain ⟨t, ht, hlog⟩ := hs i e a hmem
    obtain ⟨t', ht', -, hsub⟩ := h.extends ht
    exact ⟨t', ht', hsub.subset hlog⟩
  · obtain rfl := List.mem_singleton.mp hmem
    cases h with
    | act hi _ _ =>
      have hlt : i < s.threads.length := (List.getElem?_eq_some_iff.mp hi).1
      exact ⟨_, List.getElem?_set_self hlt, List.mem_append_right _ List.mem_cons_self⟩

/-- **what has happened is on record** -/
theorem run_recorded {tr : List (Event ρ E A)} (h : Run (Step effect handler) s tr s') :
    s'.Recorded tr :=
  h.history Recorded (fun _ _ _ _ hs h => h.recorded hs) fun i e a hmem => by cases hmem

/-- what is on record was allowed when it was asked for -/
def Allowed (may : ρ → Log E A → E → Prop) (s : Pool W ρ E A ε α) : Prop :=
  ∀ t ∈ s.threads, ∀ x ∈ t.log, ∃ l, l <+: t.log ∧ may t.request l x.1

theorem Step.allowed (h : Step effect handler s ev s') (hobeying : s.Obeying may Q)
    (hs : s.Allowed may) : s'.Allowed may := by
  cases h with
  | spawn request =>
    intro t ht x hx
    rcases List.mem_append.mp ht with ht | ht
    · exact hs t ht x hx
    · obtain rfl := List.mem_singleton.mp ht
      cases hx
  | @act i t e next a w hi hrest _ =>
    have ht := List.mem_of_getElem? hi
    intro t' ht' x hx
    rcases List.mem_or_eq_of_mem_set ht' with ht' | rfl
    · exact hs t' ht' x hx
    · rcases List.mem_append.mp hx with hx | hx
      · obtain ⟨l, hl, hmay⟩ := hs t ht x hx
        exact ⟨l, hl.trans (List.prefix_append _ _), hmay⟩
      · obtain rfl := List.mem_singleton.mp hx
        exact ⟨t.log, List.prefix_append _ _, (hobeying t ht _ hrest).1⟩
  | @crash i t hi =>
    intro t' ht' x hx
    rcases List.mem_or_eq_of_mem_set ht' with ht' | rfl
    · exact hs t' ht' x hx
    · exact hs t (List.mem_of_getElem? hi) x hx

/-- **what is on record was allowed** -/
theorem run_allowed {tr : List (Event ρ E A)} (h : Run (Step effect handler) s tr s')
    (hs : s.threads = []) (hobeys : ∀ r, (handler r).Obeys (may r) (Q r) []) :
    s'.Allowed may := by
  have hnone : ∀ {P : Thread ρ E A ε α → Prop}, ∀ t ∈ s.threads, P t := by
    intro P t ht
    rw [hs] at ht
    cases ht
  refine (h.invariant (fun s => s.Obeying may Q ∧ s.Allowed may) ?_ ⟨hnone, hnone⟩).2
  exact fun _ _ _ hs h => ⟨h.obeying hobeys hs.1, h.allowed hs.1 hs.2⟩

/-- the request that an event starts a program for -/
def spawned? : Event ρ E A → Option ρ
  | .spawn request => some request
  | _ => none

theorem Step.spawned (h : Step effect handler s ev s') :
    s'.threads.map Thread.request = s.threads.map Thread.request ++ (spawned? ev).toList := by
  have hset : ∀ {i : Nat} {t : Thread ρ E A ε α}, s.threads[i]? = some t → ∀ log rest,
      (s.threads.set i ⟨t.request, log, rest⟩).map Thread.request =
        s.threads.map Thread.request := by
    intro i t hi log rest
    obtain ⟨hlt, rfl⟩ := List.getElem?_eq_some_iff.mp hi
    rw [List.map_set, ← List.getElem_map Thread.request (h := by simpa using hlt),
      List.set_getElem_self]
  cases h with
  | spawn request => exact List.map_append
  | act hi _ _ => exact (hset hi _ _).trans (List.append_nil _).symm
  | crash hi => exact (hset hi _ _).trans (List.append_nil _).symm

/-- **the programs are those that were started, in that order** -/
theorem run_spawned {tr : List (Event ρ E A)} (h : Run (Step effect handler) s tr s')
    (hs : s.threads = []) : s'.threads.map Thread.request = tr.filterMap spawned? := by
  refine h.history (fun tr s => s.threads.map Thread.request = tr.filterMap spawned?)
    (fun tr _ ev _ hs h => ?_) (by rw [hs]; rfl)
  rw [h.spawned, hs, List.filterMap_append]
  cases hev : spawned? ev with
  | none => simp [hev]
  | some request => simp [hev]

/-- a run `tr` from `s` passes through `s₁`, where the `i`-th program makes its next request -/
structure Passes (effect : W → (e : E) → A e → W → Prop) (handler : ρ → Prog E A ε α)
    (s : Pool W ρ E A ε α) (tr : List (Event ρ E A)) (i : Nat) (x : (e : E) × A e)
    (s₁ : Pool W ρ E A ε α) : Prop where
  reached : ∃ tr₁ tr₂, tr = tr₁ ++ .act i x.1 x.2 :: tr₂ ∧ Run (Step effect handler) s tr₁ s₁
  asking : ∃ t next, s₁.threads[i]? = some t ∧ t.rest = some (.ask x.1 next)
  answered : ∃ w, effect s₁.world x.1 x.2 w

theorem Passes.mono {tr : List (Event ρ E A)} {i : Nat} {x : (e : E) × A e}
    {s₁ : Pool W ρ E A ε α} (h : Passes effect handler s tr i x s₁) (ev : Event ρ E A) :
    Passes effect handler s (tr ++ [ev]) i x s₁ := by
  obtain ⟨⟨tr₁, tr₂, rfl, hrun⟩, hasking, hanswered⟩ := h
  exact ⟨⟨tr₁, tr₂ ++ [ev], by simp, hrun⟩, hasking, hanswered⟩

/-- **for what is on record there is the moment at which it happened** -/
theorem run_passes {tr : List (Event ρ E A)} (h : Run (Step effect handler) s tr s')
    (hs : s.threads = []) {i : Nat} {t : Thread ρ E A ε α} (ht : s'.threads[i]? = some t)
    {x : (e : E) × A e} (hx : x ∈ t.log) : ∃ s₁, Passes effect handler s tr i x s₁ := by
  suffices hall : Run (Step effect handler) s tr s' ∧
      ∀ i, ∀ x ∈ s'.log i, ∃ s₁, Passes effect handler s tr i x s₁ from
    hall.2 i x (log_of_thread ht ▸ hx)
  refine h.history (fun tr s' => Run (Step effect handler) s tr s' ∧
    ∀ i, ∀ x ∈ s'.log i, ∃ s₁, Passes effect handler s tr i x s₁) ?_ ⟨.nil _, ?_⟩
  · rintro tr s₁ ev s₂ ⟨hrun, hall⟩ hstep
    refine ⟨hrun.append (.single hstep), fun j y hy => ?_⟩
    rcases hstep.logs with ⟨-, -, hlog⟩ | ⟨k, u, e, next, a, rfl, hk, hrest, heffect, hlog⟩
    · rw [hlog] at hy
      obtain ⟨s₃, hpasses⟩ := hall j y hy
      exact ⟨s₃, hpasses.mono ev⟩
    · rw [hlog, Function.update_apply] at hy
      split at hy
      · rename_i heq
        rcases List.mem_append.mp hy with hy | hy
        · obtain ⟨s₃, hpasses⟩ := hall j y (heq ▸ hy)
          exact ⟨s₃, hpasses.mono _⟩
        · obtain rfl := List.mem_singleton.mp hy
          exact ⟨s₁, ⟨tr, [], by rw [heq], hrun⟩, ⟨u, next, heq ▸ hk, hrest⟩, _, heffect⟩
      · obtain ⟨s₃, hpasses⟩ := hall j y hy
        exact ⟨s₃, hpasses.mono _⟩
  · intro j y hy
    rw [log, hs] at hy
    cases hy

end

/-! ## scripts -/

/-- a program is started, one makes its next request, answered as the choice says, or one stops -/
inductive Turn (ρ C : Type) where
  | spawn (request : ρ)
  | act (i : Nat) (choice : C)
  | crash (i : Nat)

section
variable {C : Type} (perform : C → W → (e : E) → A e × W) (handler : ρ → Prog E A ε α)

/-- the turn, if it can be made -/
def take (s : Pool W ρ E A ε α) : Turn ρ C → Option (Event ρ E A × Pool W ρ E A ε α)
  | .spawn request =>
    some (.spawn request, { s with threads := s.threads ++ [⟨request, [], some (handler request)⟩] })
  | .act i choice =>
    match s.threads[i]? with
    | some ⟨request, log, some (.ask e next)⟩ =>
      let after := perform choice s.world e
      some (.act i e after.1,
        ⟨after.2, s.threads.set i ⟨request, log ++ [⟨e, after.1⟩], some (next after.1)⟩⟩)
    | _ => none
  | .crash i =>
    match s.threads[i]? with
    | some t => some (.crash i, { s with threads := s.threads.set i { t with rest := none } })
    | none => none

/-- a script, if all its turns can be taken -/
def play : List (Turn ρ C) → Pool W ρ E A ε α → Option (List (Event ρ E A) × Pool W ρ E A ε α)
  | [], s => some ([], s)
  | turn :: script, s => do
    let (event, s') ← s.take perform handler turn
    let (tr, s'') ← play script s'
    some (event :: tr, s'')

variable {perform handler}

theorem take_step {turn : Turn ρ C}
    (hperform : ∀ i choice, turn = .act i choice →
      ∀ w e, effect w e (perform choice w e).1 (perform choice w e).2)
    (h : s.take perform handler turn = some (ev, s')) : Step effect handler s ev s' := by
  cases turn with
  | spawn request =>
    obtain ⟨rfl, rfl⟩ := Prod.mk.inj (Option.some.inj h)
    exact .spawn request
  | act i choice =>
    simp only [take] at h
    split at h
    · rename_i request log e next hi
      obtain ⟨rfl, rfl⟩ := Prod.mk.inj (Option.some.inj h)
      exact .act hi rfl (hperform i choice rfl s.world e)
    · cases h
  | crash i =>
    simp only [take] at h
    split at h
    · rename_i t hi
      obtain ⟨rfl, rfl⟩ := Prod.mk.inj (Option.some.inj h)
      exact .crash hi
    · cases h

/-- **a script is a run** -/
theorem play_run (hperform : ∀ choice w e, effect w e (perform choice w e).1 (perform choice w e).2)
    {script : List (Turn ρ C)} {tr : List (Event ρ E A)}
    (h : play perform handler script s = some (tr, s')) : Run (Step effect handler) s tr s' := by
  induction script generalizing s tr with
  | nil =>
    obtain ⟨rfl, rfl⟩ := Prod.mk.inj (Option.some.inj h)
    exact .nil _
  | cons turn script ih =>
    obtain ⟨⟨ev, s₁⟩, htake, h⟩ := Option.bind_eq_some_iff.mp h
    obtain ⟨⟨tr', s₂⟩, hplay, h⟩ := Option.bind_eq_some_iff.mp h
    obtain ⟨rfl, rfl⟩ := Prod.mk.inj (Option.some.inj h)
    exact .cons (take_step (fun _ choice _ => hperform choice) htake) (ih hplay)

end

end Pool

end

end Lib
