import Syouyu.System.World
import Syouyu.Api.Rules
import Syouyu.Api.Binding

/-!
# Rules for handlers

What the parts of a handler ensure, in any state and with any effect of the calls.

* `onGarage_ensures`, `callStore_ensures`      programs on Garage, one call of the store;
* `Still`, `audit_ensures`                     what is kept while only clock and ids are asked for;
* `failWith_ensures`, `garageOrFail_ensures`   the use of Garage: a failure is recorded;
* `completing_ensures`, `preparing_ensures`    the end and the beginning of a handler;
* `handle_ensures`                             a handler is its beginning and an execution;
* `Trail`                                      the world with the log of the handler executed in it;
* `Attempt`, `AttemptStep`                     executions of handlers one after the other.
-/

set_option linter.unusedSectionVars false

namespace Syouyu
open Lib Lib.Prog

section
variable {W ε α : Type} {effect : W → (e : Call) → e.Answer → W → Prop} {I Q : W → Prop} {w : W}

/-! ## calls -/

theorem onGarage_ensures {p : GarageM ε α} {P : W → α → Prop} {F : W → ε → Prop}
    (h : p.Ensures (fun w call a w' => effect w (.garage call) a w') I P F w) :
    (onGarage p).Ensures effect I P F w :=
  @ensures_inject Call Call.Answer ε α W effect I w P F GarageCall Call.garage p h

theorem callStore_ensures {call : StoreCall} {P : W → call.Result → Prop}
    {F : W → ApiError → Prop}
    (h : ∀ (answer : Except StoreError call.Result) w', effect w (.store call) answer w' →
      I w' ∧ Post P (fun w e => F w (.ofStore e)) w' answer) :
    (callStore call).Ensures effect I P F w := by
  refine ensures_bind (P := fun w (answer : Except StoreError call.Result) =>
    Post P (fun w e => F w (ApiError.ofStore e)) w answer) ⟨h⟩ fun w' answer hpost => ?_
  refine ensures_ofExcept (fun a ha => ?_) fun e he => ?_
  · subst ha
    exact hpost
  · subst he
    exact hpost

theorem renewOperation_ensures {operation : OperationRequest} {o : Uuid} {P : W → Unit → Prop}
    {F : W → ApiError → Prop}
    (h : ∀ (answer : Except StoreError Unit) w',
      effect w (.store (.renewOperation operation o)) answer w' →
      I w' ∧ Post P (fun w e => F w (.ofStore e)) w' answer) :
    (renewOperation operation o).Ensures effect I P F w :=
  @callStore_ensures W effect I w (.renewOperation operation o) P F h

/-! ## audit events -/

/-- queries keep `Q`, and `I` holds after them -/
def Still (effect : W → (e : Call) → e.Answer → W → Prop) (I Q : W → Prop) : Prop :=
  ∀ w (q : Query) (a : q.Answer) w', effect w (.query q) a w' → Q w → I w' ∧ Q w'

theorem utcNow_ensures {F : W → ApiError → Prop} (hstill : Still effect I Q) (h : Q w) :
    utcNow.Ensures effect I (fun w _ => Q w) F w :=
  ensures_request (e := Call.query .utcNow) fun _ _ he => hstill _ _ _ _ he h

theorem requestId_ensures {F : W → ApiError → Prop} (headers : Headers)
    (hstill : Still effect I Q) (h : Q w) :
    (requestId headers).Ensures effect I (fun w _ => Q w) F w := by
  unfold requestId
  split
  · exact ensures_pure h
  · exact ensures_bind (ensures_request (e := Call.query .newUuid) fun _ _ he => hstill _ _ _ _ he h)
      fun w' _ h' => ensures_pure h'

/-- the event of an operation, with the id of a request -/
def AuditOf (operation : OperationRequest) (resource : Resource) (details : Value)
    (event : AuditEvent) : Prop :=
  ∃ id, event = auditForOperation operation resource.principalContextId id resource.resourceType
    (some resource.resourceId) details

theorem audit_ensures {F : W → ApiError → Prop} {headers : Headers} {operation : OperationRequest}
    {resource : Resource} {details : Value} (hstill : Still effect I Q) (h : Q w) :
    (audit headers operation resource details).Ensures effect I
      (fun w event => Q w ∧ AuditOf operation resource details event) F w :=
  ensures_bind (requestId_ensures headers hstill h) fun _ id h' => ensures_pure ⟨h', id, rfl⟩

/-! ## failures -/

section
variable {F : W → ApiError → Prop} {P : W → α → Prop} {x : Execution} {details : Value}

theorem failWith_ensures {error : GarageBackendError} (hstill : Still effect I Q)
    (hfail : ∀ w event answer w', Q w → AuditOf x.operation x.resource details event →
      effect w (.store (.finish ⟨.fail x.operation, x.operationId,
        (ApiError.ofBackend error).storedResponse, { event with outcome := "failed" }⟩)) answer w' →
      I w' ∧ ∀ e, F w' e) (h : Q w) :
    (failWith x details error : HandlerM ApiError α).Ensures effect I P F w := by
  refine ensures_bind (audit_ensures hstill h) fun w₁ event h₁ => ?_
  refine ensures_bind (P := fun w (_ : ApiError) => ∀ e, F w e) ?_
    fun w₂ e h₂ => ensures_throw (h₂ e)
  refine ensures_bind (P := fun w (_ : Except StoreError Unit) => ∀ e, F w e)
    (ensures_request (e := Call.store (.finish _)) fun answer w₂ he =>
      hfail w₁ event answer w₂ h₁.1 h₁.2 he) fun w₂ answer h₂ => ?_
  split <;> exact ensures_pure h₂

theorem garageOrFail_ensures {program : GarageM GarageBackendError α}
    (hprogram : program.Ensures (fun w call a w' => effect w (.garage call) a w') I P
      (fun w _ => Q w) w) (hstill : Still effect I Q)
    (hfail : ∀ w error event answer w', Q w → AuditOf x.operation x.resource details event →
      effect w (.store (.finish ⟨.fail x.operation, x.operationId,
        (ApiError.ofBackend error).storedResponse, { event with outcome := "failed" }⟩)) answer w' →
      I w' ∧ ∀ e, F w' e) :
    (garageOrFail x details program).Ensures effect I P F w := by
  refine ensures_bind (P := fun w (answer : Except GarageBackendError α) =>
    Post P (fun w _ => Q w) w answer) (ensures_attempt (onGarage_ensures ?_)) fun w' answer h' => ?_
  · exact hprogram.mono (fun _ h => h) (fun _ _ h => h) fun _ _ h => h
  · cases answer with
    | ok a => exact ensures_pure h'
    | error error => exact failWith_ensures hstill (fun w => hfail w error) h'

end

/-! ## the end and the beginning -/

theorem completing_ensures {finish : FinishCall} {response : Response} {P : W → Response → Prop}
    {F : W → ApiError → Prop} (hresponse : storedIntoResponse finish.response = .ok response)
    (h : ∀ (answer : Except StoreError Unit) w', effect w (.store (.finish finish)) answer w' →
      I w' ∧ Post (fun w _ => P w response) (fun w e => F w (.ofStore e)) w' answer) :
    (completing finish).Ensures effect I P F w := by
  refine ensures_bind (callStore_ensures h) fun w' _ h' => ?_
  rw [hresponse]
  exact ensures_pure h'

/-- an answer that is not `Execute` ends the handler -/
theorem preparing_ensures {call : PrepareCall}
    {execute : Uuid → call.Context → HandlerM ApiError Response} {P : W → Response → Prop}
    {F : W → ApiError → Prop}
    (h : ∀ (answer : Except StoreError (Prepare call.Context)) w',
      effect w (.store (.prepare call)) answer w' → I w' ∧
        (∀ o context, answer = .ok (.execute o context) →
          (execute o context).Ensures effect I P F w') ∧
        (∀ stored response, answer = .ok (.replay stored) →
          storedIntoResponse stored = .ok response → P w' response) ∧
        ((∀ o context, answer ≠ .ok (.execute o context)) → ∀ e, F w' e)) :
    (preparing call execute).Ensures effect I P F w := by
  refine ensures_bind (P := fun w (prepared : Prepare call.Context) =>
    (∀ o context, prepared = .execute o context → (execute o context).Ensures effect I P F w) ∧
    (∀ stored response, prepared = .replay stored → storedIntoResponse stored = .ok response →
      P w response) ∧ ((∀ o context, prepared ≠ .execute o context) → ∀ e, F w e)) ?_
    fun w' prepared h' => ?_
  · refine @callStore_ensures W effect I w (.prepare call) _ F fun answer w' he => ?_
    obtain ⟨hI, hexecute, hreplay, hother⟩ := h answer w' he
    refine ⟨hI, ?_⟩
    cases answer with
    | error e => exact hother (fun _ _ h => by cases h) _
    | ok prepared =>
      refine ⟨fun o context ho => hexecute o context (congrArg Except.ok ho),
        fun stored response hs => hreplay stored response (congrArg Except.ok hs),
        fun hne => hother fun o context ho => hne o context (Except.ok.inj ho)⟩
  · obtain ⟨hexecute, hreplay, hother⟩ := h'
    cases prepared with
    | execute o context => exact hexecute o context rfl
    | replay stored =>
      exact ensures_ofExcept (fun response hr => hreplay stored response rfl hr)
        fun e _ => hother (fun _ _ h => by cases h) e
    | inProgress o => exact ensures_throw (hother (fun _ _ h => by cases h) _)

/-- a handler refuses its request, or prepares its operation -/
theorem handle_ensures {state : AppState} {r : Request} {P : W → Response → Prop}
    {F : W → ApiError → Prop} (hrefused : ∀ e, F w e)
    (h : ∀ call execute, r.prepareCall state = .ok call → Executes state r call execute →
      (preparing call execute).Ensures effect I P F w) :
    (handle state r).Ensures effect I P F w := by
  cases hcall : r.prepareCall state with
  | error e =>
    rw [handle_refused hcall]
    exact ensures_throw (hrefused e)
  | ok call =>
    obtain ⟨execute, heq, hexecutes⟩ := handle_executes hcall
    rw [heq]
    exact h call execute hcall hexecutes

end

/-! ## logs -/

/-- the world and the log of the handler that is executed in it -/
abbrev Trail := World × CallLog

/-- the effect of a call, with its entry in the log -/
def Trail.Effect (store : PgStore) (behaviour : GarageBehaviour) :
    Trail → (e : Call) → e.Answer → Trail → Prop :=
  recording (World.Effect store behaviour)

/-- a program on Garage, in a state that has a world in it, leaves the database -/
theorem onWorld_ensures {W : Type} (world : W → World)
    {effect : W → (e : Call) → e.Answer → W → Prop} {store : PgStore} {behaviour : GarageBehaviour}
    (heffect : ∀ x e a x', effect x e a x' → World.Effect store behaviour (world x) e a (world x'))
    {ε α : Type} {I : Garage → Prop} {P : Garage → α → Prop} {F : Garage → ε → Prop}
    {p : GarageM ε α} {x : W} (h : p.Ensures behaviour I P F (world x).garage) :
    p.Ensures (fun x call a x' => effect x (.garage call) a x')
      (fun x' => (world x').db = (world x).db ∧ I (world x').garage)
      (fun x' a => (world x').db = (world x).db ∧ P (world x').garage a)
      (fun x' e => (world x').db = (world x).db ∧ F (world x').garage e) x := by
  refine Ensures.within (fun y call a y' hy he => ?_) h rfl
  obtain ⟨hgarage, hdb⟩ := heffect y (.garage call) a y' he
  exact ⟨hgarage, hdb.trans hy⟩

/-! ## one after the other -/

/-- the execution of a handler, and what was left of it where it stopped -/
structure Attempt where
  request : Request
  log : CallLog
  rest : HandlerM ApiError Response

/-- the handler returned a response -/
def Attempt.Succeeded (a : Attempt) : Prop := ∃ response, a.rest = .done (.ok response)

/-- the handler is executed alone, and may stop early -/
def AttemptStep (store : PgStore) (behaviour : GarageBehaviour) (state : AppState) (w : World)
    (a : Attempt) (w' : World) : Prop :=
  Runs (World.Effect store behaviour) w (handle state a.request) a.log w' a.rest

theorem AttemptStep.mono {store : PgStore} {behaviour other : GarageBehaviour} {state : AppState}
    (hrefines : behaviour.Refines other) {w w' : World} {a : Attempt}
    (h : AttemptStep store behaviour state w a w') : AttemptStep store other state w a w' :=
  Runs.mono (fun _ _ _ _ => World.Effect.mono hrefines) h

end Syouyu
