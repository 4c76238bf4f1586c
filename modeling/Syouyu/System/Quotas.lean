import Syouyu.System.Alone
import Syouyu.System.Script
import Syouyu.Api.Provision
import Syouyu.Store.Integrity
import Syouyu.Store.Contexts

/-!
# Quotas

A reconcile that repeats the generation the database has leaves Garage alone: it trusts that the
bucket still has the quotas of that generation.

* `World.InAgreement`   the bucket of a service has the quotas that the database says;
* `Garage.KeepsQuotas`  the buckets keep their quotas;
* `executeReconcile_agrees`   **an execution that ends with success leaves the two in agreement**,
                        and reports the bucket;
* `reconciled_quotas`   **after executions of which the failed ones have left the quotas, success
                        means that the reported bucket has the quotas of the request**.
-/

set_option linter.unusedSectionVars false

namespace Syouyu
open Lib Lib.Prog

/-- the bucket of the service has the quotas that the database says -/
def World.InAgreement (w : World) (s : Uuid) : Prop :=
  ∀ service row id spec, w.db.services.lookup s = some service →
    w.db.buckets.lookup s = some row → row.physicalBucketId = some id →
    SyouyuSpec.fromValue service.desiredSpec = some spec → w.garage.HasQuotas id spec

/-- the buckets of `g` are still there, with the quotas they had -/
def Garage.KeepsQuotas (g g' : Garage) : Prop :=
  ∀ id b, g.buckets.lookup id = some b → ∃ b', g'.buckets.lookup id = some b' ∧ b'.quotas = b.quotas

/-- `status.backend_bucket_id` of a response to a reconcile -/
def Response.backendBucketId (response : Response) : Option String :=
  ((response.body.field? "status").bind fun status =>
    status.field? "backend_bucket_id").bind Value.asStr?

/-- services and buckets are recorded as they were -/
def Database.SameServices (db₀ db : Database) : Prop :=
  db.services = db₀.services ∧ db.buckets = db₀.buckets

/-- the response says which bucket was reconciled, and the bucket has the quotas -/
def Reports (spec : SyouyuSpec) (g : Garage) (response : Response) : Prop :=
  ∃ id, response.backendBucketId = some id ∧ g.HasQuotas id spec

section
variable {store : PgStore} {w₀ w w' : World} {s : Uuid} {x x' : Trail}

theorem World.InAgreement.same (h : w.InAgreement s) (hdb : w.db.SameServices w'.db)
    (hquotas : w.garage.KeepsQuotas w'.garage) : w'.InAgreement s := by
  intro service row id spec hservice hrow hid hspec
  rw [hdb.1] at hservice
  rw [hdb.2] at hrow
  obtain ⟨b, hb, hhas⟩ := h service row id spec hservice hrow hid hspec
  obtain ⟨b', hb', hsame⟩ := hquotas id b hb
  exact ⟨b', hb', hsame.trans hhas⟩

theorem Garage.KeepsQuotas.refl (g : Garage) : g.KeepsQuotas g := fun _ b hb => ⟨b, hb, rfl⟩

/-- a completed reconcile records a bucket that has the quotas -/
theorem agreed_of_reconcile {env : CallEnv} {command : ReconcileCommand} {id : String}
    {finish : FinishCall} {u : Unit} (h : finish.exec store env w.db = .ok (u, w'.db))
    (hcomp : finish.completion = .reconcile command id) (hgarage : w'.garage = w.garage)
    (hhas : w.garage.HasQuotas id command.spec) :
    w'.InAgreement command.operation.serviceInstanceId := by
  obtain ⟨hservices, hbuckets⟩ := reconcile_applied h hcomp
  obtain ⟨⟨row, hrow, hid, -⟩, -⟩ := hbuckets.lookup
  intro service row' id' spec hservice hrow' hid' hspec
  obtain ⟨-, hdesired⟩ | ⟨hne, -⟩ := hservices.lookup hservice
  · obtain rfl := Option.some.inj (hrow.symm.trans hrow')
    obtain rfl := Option.some.inj (hid.symm.trans hid')
    rw [hdesired, SyouyuSpec.fromValue_toValue] at hspec
    obtain rfl := Option.some.inj hspec
    rw [hgarage]
    exact hhas
  · exact absurd rfl hne

/-! ## calls of the store -/

theorem clerical_same {r : CallRecord} {db db' : Database} (h : StoreStep store db r db')
    (hr : r.call.clerical = true) : db.SameServices db' :=
  ⟨(clerical_keeps h hr).1, (clerical_keeps h hr).2.1⟩

theorem Database.SameServices.trans {db₀ db₁ db₂ : Database} (h : db₀.SameServices db₁)
    (h' : db₁.SameServices db₂) : db₀.SameServices db₂ := ⟨h'.1.trans h.1, h'.2.trans h.2⟩

/-! ## an execution -/

section
variable (w₀ s)

/-- nothing is recorded so far, or what is recorded is so -/
def Accurate (x : Trail) : Prop := w₀.db.SameServices x.1.db ∨ x.1.InAgreement s

/-- nothing is recorded so far, and the bucket has the quotas -/
def Ready (id : String) (spec : SyouyuSpec) (x : Trail) : Prop :=
  w₀.db.SameServices x.1.db ∧ x.1.garage.HasQuotas id spec

end

/-- what is a fact of the world is kept while only clock and ids are asked for -/
theorem still_of_world {behaviour : GarageBehaviour} {I : Trail → Prop} {Q : World → Prop}
    (hI : ∀ x : Trail, Q x.1 → I x) :
    Still (Trail.Effect store behaviour) I (fun x => Q x.1) := by
  rintro x q a x' ⟨⟨-, hsame⟩, -⟩ h
  rw [← hsame] at h
  exact ⟨hI x' h, h⟩

/-- the bucket of the execution -/
theorem reconciledBucketId_ready {y : Execution} {command : ReconcileCommand}
    {context : ReconcileContext} (h : w₀.db.SameServices x.1.db)
    (hobserved : (PrepareCall.reconcile command).Observed x.1.db context)
    (hagree : x.1.InAgreement command.operation.serviceInstanceId) :
    (reconciledBucketId y command context).Ensures (Trail.Effect store Garage.Documented)
      (Accurate w₀ s) (fun x id => Ready w₀ id command.spec x) (fun _ _ => True) x := by
  unfold reconciledBucketId
  split
  · rename_i happlied
    split
    · rename_i id hid
      refine ensures_pure ⟨h, ?_⟩
      obtain ⟨-, -, hfalse⟩ | ⟨service, row, hservice, -, -, -, -, hrow, -, hphysical, hcase⟩ :=
        hobserved.1
      · exact absurd_true_false happlied hfalse
      · obtain ⟨-, hspec, -⟩ | ⟨-, hfalse⟩ := hcase
        · exact hagree service row id command.spec hservice hrow (hphysical.symm.trans hid) hspec
        · exact absurd_true_false happlied hfalse
    · exact ensures_throw trivial
  · refine ensures_bind (P := fun x _ => w₀.db.SameServices x.1.db)
      (renewOperation_ensures fun answer x' he => ?_) fun x₁ _ h₁ => ?_
    · obtain ⟨⟨⟨env, hstep⟩, -⟩, -⟩ := he
      have h' := h.trans (clerical_same hstep rfl)
      refine ⟨.inl h', ?_⟩
      cases answer with
      | ok u => exact h'
      | error e => trivial
    · refine ensures_bind (P := fun x bucket => Ready w₀ bucket.physicalBucketId command.spec x)
        (garageOrFail_ensures (Q := fun x => w₀.db.SameServices x.1.db) ?_ ?_ ?_)
        fun x₂ bucket h₂ => ensures_pure h₂
      · have hnone : Provided x₁.1.garage command.spec.bucketName x₁.1.garage := .inl rfl
        have hprovide := reconcileBucket_ensures context.bucket.physicalBucketId hnone
        refine (onWorld_ensures Prod.fst (fun _ _ _ _ he => he.1) hprovide).mono (fun x hx => ?_)
          (fun x bucket hx => ?_) fun x _ hx => ?_
        · exact .inl (hx.1 ▸ h₁)
        · exact ⟨hx.1 ▸ h₁, hx.2.2.1⟩
        · exact hx.1 ▸ h₁
      · exact still_of_world (Q := fun w => w₀.db.SameServices w.db) fun _ h => .inl h
      · intro x₂ error event answer x₃ h₂ _ he
        obtain ⟨⟨⟨env, hstep⟩, -⟩, -⟩ := he
        exact ⟨.inl (h₂.trans (clerical_same hstep rfl)), fun _ => trivial⟩

/-- **an execution that ends with success leaves database and Garage in agreement**, and reports
the bucket -/
theorem executeReconcile_agrees {state : AppState} {headers : Headers} {command : ReconcileCommand}
    {o : Uuid} {context : ReconcileContext} (hs : command.operation.serviceInstanceId = s)
    (h : w₀.db.SameServices x.1.db)
    (hobserved : (PrepareCall.reconcile command).Observed x.1.db context)
    (hagree : x.1.InAgreement s) :
    (executeReconcile state headers command o context).Ensures
      (Trail.Effect store Garage.Documented) (Accurate w₀ s)
      (fun x response => x.1.InAgreement s ∧ Reports command.spec x.1.garage response)
      (fun _ _ => True) x := by
  subst hs
  refine ensures_bind (reconciledBucketId_ready h hobserved hagree) fun x₁ id h₁ => ?_
  refine ensures_bind (P := fun x _ => Ready w₀ id command.spec x)
    (ensures_ofExcept (fun _ _ => h₁) fun _ _ => trivial) fun x₂ generation h₂ => ?_
  have hstill : Still (Trail.Effect store Garage.Documented)
      (Accurate w₀ command.operation.serviceInstanceId) (Ready w₀ id command.spec) :=
    still_of_world (Q := fun w => w₀.db.SameServices w.db ∧ w.garage.HasQuotas id command.spec)
      fun _ h => .inl h.1
  refine ensures_bind (utcNow_ensures hstill h₂) fun x₃ updatedAt h₃ => ?_
  refine ensures_bind (audit_ensures hstill h₃) fun x₄ event h₄ => ?_
  obtain ⟨⟨h₄, hhas⟩, -⟩ := h₄
  have hstored : ∀ body, ∃ response, storedIntoResponse
      (successResponse (if context.previouslyApplied then 200 else 202) body) = .ok response ∧
      response.body = body := by
    intro body
    cases context.previouslyApplied <;> exact ⟨_, rfl, rfl⟩
  obtain ⟨response, hresponse, hbody⟩ := hstored (providerOperationResponse state o generation
    .ready (some id) (some state.s3Endpoint) updatedAt)
  refine completing_ensures hresponse fun answer x₅ he => ?_
  obtain ⟨⟨⟨env, hstep⟩, hgarage⟩, -⟩ := he
  cases answer with
  | error e =>
    rw [Accurate, step_error hstep]
    exact ⟨.inl h₄, trivial⟩
  | ok u =>
    have hagreed : x₅.1.InAgreement command.operation.serviceInstanceId :=
      agreed_of_reconcile (step_finished hstep) rfl hgarage hhas
    refine ⟨.inr hagreed, hagreed, id, ?_, ?_⟩
    · rw [Response.backendBucketId, hbody]
      rfl
    · rw [hgarage]
      exact hhas

theorem reconcileCommand_spec {state : AppState} {claims : Except AuthError ProviderClaims}
    {headers : Headers} {request : ReconcileRequest} {command : ReconcileCommand}
    (h : reconcileCommand state claims s headers request = .ok command) :
    command.operation.serviceInstanceId = s ∧ command.spec = request.spec := by
  obtain ⟨c, -, h⟩ := except_bind_eq_ok.mp h
  obtain ⟨_, -, h⟩ := except_bind_eq_ok.mp h
  split at h
  · cases h
  · obtain rfl := Except.ok.inj h
    exact ⟨rfl, rfl⟩

/-- **an execution of the handler** -/
theorem reconcile_agrees {state : AppState} {claims : Except AuthError ProviderClaims}
    {headers : Headers} {request : ReconcileRequest} (hagree : w₀.InAgreement s) :
    (handle state (.reconcile claims s headers request)).Ensures
      (Trail.Effect store Garage.Documented) (Accurate w₀ s)
      (fun x response => x.1.InAgreement s ∧
        (x.2.any executes = true → Reports request.spec x.1.garage response))
      (fun _ _ => True) (w₀, []) := by
  refine handle_ensures (fun _ => trivial) fun call execute _ hexecutes => ?_
  cases hexecutes with
  | @reconcile _ _ _ _ command hcommand =>
    obtain ⟨hs, hspec⟩ := reconcileCommand_spec hcommand
    refine preparing_ensures fun answer x he => ?_
    obtain ⟨⟨⟨env, hstep⟩, hgarage⟩, hlog⟩ := he
    have hsame := clerical_same hstep rfl
    have hagree' : x.1.InAgreement s := hagree.same hsame (hgarage ▸ Garage.KeepsQuotas.refl _)
    refine ⟨.inl hsame, fun o context hexecute => ?_, fun stored response hreplay _ => ?_,
      fun _ _ => trivial⟩
    · subst hexecute
      have hexec : (PrepareCall.reconcile command).exec store env w₀.db =
        .ok (.execute o context, x.1.db) := step_ok hstep
      have hobserved := prepare_observed hexec
      refine (executeReconcile_agrees hs hsame hobserved hagree').mono (fun _ h => h)
        (fun _ _ h => ⟨h.1, fun _ => hspec ▸ h.2⟩) fun _ _ h => h
    · -- a replay is no execution
      refine ⟨hagree', ?_⟩
      rw [hlog, hreplay]
      exact fun h => by cases h

/-! ## executions one after the other -/

/-- the execution is one of a reconcile of the service -/
def Attempt.Reconciles (a : Attempt) (s : Uuid) : Prop :=
  ∃ claims headers request, a.request = .reconcile claims s headers request

/-- what an execution leaves that succeeded or left the quotas -/
theorem attempt_agrees {state : AppState} {a : Attempt}
    (h : AttemptStep store Garage.Documented state w a w') (hreconciles : a.Reconciles s)
    (hquotas : a.Succeeded ∨ w.garage.KeepsQuotas w'.garage) (hagree : w.InAgreement s) :
    w'.InAgreement s := by
  obtain ⟨request, log, rest⟩ := a
  obtain ⟨claims, headers, body, rfl⟩ := hreconciles
  have hrun : Runs (World.Effect store Garage.Documented) w
    (handle state (.reconcile claims s headers body)) log w' rest := h
  obtain ⟨haccurate, hend⟩ :=
    (reconcile_agrees hagree).runs (.inl ⟨rfl, rfl⟩) (hrun.recorded [])
  obtain ⟨response, hdone⟩ | hkeeps := hquotas
  · exact (hend _ hdone).1
  · obtain hsame | hagreed := haccurate
    · exact hagree.same hsame hkeeps
    · exact hagreed

/-- **Success means that the bucket has the quotas.**  Reconciles of one service are executed one
after the other, and each may fail or stop anywhere; the ones that do not succeed leave the quotas
of the buckets there are.  Then an execution that was told to execute and answers with success
reports a bucket that has the quotas of its request. -/
theorem reconciled_quotas {store : PgStore} {behaviour : GarageBehaviour} {state : AppState}
    {s : Uuid} {w w₁ w₂ : World} {attempts : List Attempt}
    {claims : Except AuthError ProviderClaims} {headers : Headers} {request : ReconcileRequest}
    {log : CallLog} {response : Response} (hdocumented : behaviour.Refines Garage.Documented)
    (hnew : w.db.services.lookup s = none)
    (hrun : Run (fun w a w' => AttemptStep store behaviour state w a w' ∧ a.Reconciles s ∧
      (a.Succeeded ∨ w.garage.KeepsQuotas w'.garage)) w attempts w₁)
    (hlast : Runs (World.Effect store behaviour) w₁
      (handle state (.reconcile claims s headers request)) log w₂ (.done (.ok response)))
    (hexecuted : log.any executes = true) :
    ∃ id, response.backendBucketId = some id ∧ w₂.garage.HasQuotas id request.spec := by
  have hstart : w.InAgreement s := fun service _ _ _ hservice => by
    exact absurd_none_some hnew hservice
  have hagree : w₁.InAgreement s := hrun.invariant (fun w => w.InAgreement s)
    (fun w a w' hw ⟨hstep, hreconciles, hquotas⟩ =>
      attempt_agrees (hstep.mono hdocumented) hreconciles hquotas hw)
    hstart
  have hlast := hlast.mono fun _ _ _ _ => World.Effect.mono hdocumented
  obtain ⟨-, hend⟩ := (reconcile_agrees hagree).runs (.inl ⟨rfl, rfl⟩) (hlast.recorded [])
  exact (hend _ rfl).2 hexecuted

end

/-! ## a generation that was applied, then overwritten -/

namespace Sample

/-- the answer to the fourth call is lost -/
def fourthLost : List Choice := choices 2 10 3 "" ++ choice 2 13 "" .lost :: choices 2 14 1 ""

end Sample

/-- the service is reconciled, and asked for once more -/
theorem reconciled_quotas_repeated :
    let again := Sample.attempt (Sample.quotas 102 1 1000 10) (Sample.choices 3 20 3 "")
      Sample.reconciled
    ∃ response id, again.rest = .done (.ok response) ∧ response.backendBucketId = some id ∧
      (Sample.left (Sample.quotas 102 1 1000 10) (Sample.choices 3 20 3 "")
        Sample.reconciled).garage.HasQuotas id ⟨"eu-1", "bucket-a", 1000, 10⟩ := by
  intro again
  have hfacts : (Sample.attempt (Sample.quotas 100 1 1000 10) (Sample.choices 1 1 7 "b")
        ⟨.empty, .empty⟩).response?.isSome = true ∧
      again.response?.isSome = true ∧ again.log.any executes = true := by
    decide +kernel
  obtain ⟨hfirst, hsecond, hexecuted⟩ := hfacts
  obtain ⟨first, hfirst⟩ := Option.isSome_iff_exists.mp hfirst
  obtain ⟨second, hsecond⟩ := Option.isSome_iff_exists.mp hsecond
  have hrun : Run (fun w a w' => AttemptStep PgStore.reference Garage.Documented
        AppState.reference w a w' ∧ a.Reconciles 10 ∧
        (a.Succeeded ∨ w.garage.KeepsQuotas w'.garage)) ⟨.empty, .empty⟩ [_] Sample.reconciled :=
    .single ⟨Sample.attempt_step _ _ _, ⟨_, _, _, rfl⟩, .inl ⟨first, eq_done_ok_of_result hfirst⟩⟩
  have hdone : again.rest = .done (.ok second) := eq_done_ok_of_result hsecond
  have hlast : Runs _ _ _ _ _ again.rest := Sample.attempt_step _ _ _
  rw [hdone] at hlast
  obtain ⟨id, hid, hhas⟩ := reconciled_quotas .refl rfl hrun hlast hexecuted
  exact ⟨second, id, hdone, hid, hhas⟩

/-- **An answer that is wrong.**  Generation 1 is applied.  Generation 2 changes the quotas in
Garage, and fails because the answer is lost.  Generation 1 under a new key is answered with 200:
the bucket has the quotas of generation 2. -/
theorem reconciled_quotas_stale :
    let attempt₁ := Sample.attempt (Sample.quotas 100 1 1000 10) (Sample.choices 1 1 7 "b")
      ⟨.empty, .empty⟩
    let attempt₂ := Sample.attempt (Sample.quotas 101 2 2000 20) Sample.fourthLost
      Sample.reconciled
    let w₂ := Sample.left (Sample.quotas 101 2 2000 20) Sample.fourthLost Sample.reconciled
    let attempt₃ := Sample.attempt (Sample.quotas 102 1 1000 10) (Sample.choices 3 20 3 "") w₂
    let w₃ := Sample.left (Sample.quotas 102 1 1000 10) (Sample.choices 3 20 3 "") w₂
    Run (fun w a w' => AttemptStep PgStore.reference Garage.Documented AppState.reference w a w' ∧
      a.Reconciles 10) ⟨.empty, .empty⟩ [attempt₁, attempt₂, attempt₃] w₃ ∧
    attempt₃.log.any executes = true ∧
    attempt₃.response?.any (fun response => decide (response.status = 200) &&
      decide (response.backendBucketId = some "b")) = true ∧
    ¬ w₃.garage.HasQuotas "b" ⟨"eu-1", "bucket-a", 1000, 10⟩ := by
  intro attempt₁ attempt₂ w₂ attempt₃ w₃
  have hfacts : attempt₃.log.any executes = true ∧
      attempt₃.response?.any (fun response => decide (response.status = 200) &&
        decide (response.backendBucketId = some "b")) = true ∧
      ¬ w₃.garage.HasQuotas "b" ⟨"eu-1", "bucket-a", 1000, 10⟩ := by
    decide +kernel
  refine ⟨?_, hfacts⟩
  refine .cons ⟨Sample.attempt_step _ _ _, _, _, _, rfl⟩ ?_
  refine .cons ⟨Sample.attempt_step _ _ _, _, _, _, rfl⟩ ?_
  exact .single ⟨Sample.attempt_step _ _ _, _, _, _, rfl⟩

end Syouyu
