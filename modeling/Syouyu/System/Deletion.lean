import Syouyu.System.Alone
import Syouyu.System.Grants
import Syouyu.System.Script

/-!
# Deletions that fail

A deletion revokes the keys of its service one after the other and then deletes the bucket.  A
request to Garage that fails ends it; what is recorded is the failure, not the keys revoked so far.

* `Garage.Prompt`      a Garage whose errors say that nothing was done;
* `Revoking`           the world while keys are revoked: the credentials are those of the start, and
                       the keys revoked so far are gone;
* `Halts`              where a deletion stands that has failed at a call; `executeDelete_halts`;
* `failed_delete_truthful`   **after a failure the active credentials have their keys iff the
                       failing call came before any revocation**.
-/

set_option linter.unusedSectionVars false

namespace Syouyu
open Lib Lib.Prog

/-! ## failing calls -/

/-- a Garage that has done nothing where it answers with an error -/
def Garage.Prompt : GarageBehaviour := fun g call a g' =>
  g.Documented call a g' ∧ ∀ e, a = Except.error e → g' = g

/-- the call was answered with an error other than 404 -/
def Failed (log : CallLog) (call : GarageCall) : Prop :=
  ∃ e : GarageError, e.isNotFound = false ∧ ⟨.garage call, Except.error e⟩ ∈ log

theorem failed_append {log : CallLog} {x : (e : Call) × e.Answer} {call : GarageCall} :
    Failed (log ++ [x]) call ↔ Failed log call ∨
      ∃ e : GarageError, e.isNotFound = false ∧ x = ⟨.garage call, Except.error e⟩ := by
  simp only [Failed, List.mem_append, List.mem_singleton, and_or_left, exists_or,
    eq_comm (b := x)]

/-! ## where a deletion stands -/

/-- the credentials are those of `w₀`, and of its keys exactly `done` are gone -/
structure Revoking (w₀ : World) (done : List String) (w : World) : Prop where
  credentials : w.db.credentials = w₀.db.credentials
  keys : ∀ k, w.garage.keys.lookup k = if k ∈ done then none else w₀.garage.keys.lookup k

/-- which keys are revoked when a deletion of the keys comes to the call -/
def Reached (keys done : List String) : GarageCall → Prop
  | .getBucketInfo _ => done = []
  | .deleteKey k => ∃ rest, keys = done ++ k :: rest
  | .deleteBucket _ => done = keys
  | _ => False

section
variable (w₀ : World) (keys done : List String)

/-- no call has failed so far -/
structure Going (x : Trail) : Prop where
  revoking : Revoking w₀ done x.1
  clean : ∀ call, ¬ Failed x.2 call

/-- a call that has failed was the one after `done` -/
structure Halting (x : Trail) : Prop where
  revoking : Revoking w₀ done x.1
  reached : ∀ call, Failed x.2 call → Reached keys done call

/-- where a deletion ends that has failed at a call -/
def Halts (x : Trail) : Prop :=
  ∀ call, Failed x.2 call → ∃ done, Revoking w₀ done x.1 ∧ Reached keys done call

end

section
variable {store : PgStore} {w₀ : World} {keys done : List String} {x x' : Trail}

theorem Going.halting (h : Going w₀ done x) : Halting w₀ keys done x :=
  ⟨h.revoking, fun call hf => absurd hf (h.clean call)⟩

theorem Halting.halts (h : Halting w₀ keys done x) : Halts w₀ keys x :=
  fun call hf => ⟨done, h.revoking, h.reached call hf⟩

theorem halts_of_clean (h : ∀ call, ¬ Failed x.2 call) : Halts w₀ keys x :=
  fun call hf => absurd hf (h call)

/-! ## calls that are not of Garage -/

/-- the entry of a call that is not of Garage is not one of a failing call -/
theorem failed_elsewhere {e : Call} {a : e.Answer} (hother : ∀ call, e ≠ .garage call)
    (hlog : x'.2 = x.2 ++ [⟨e, a⟩]) {call : GarageCall} : Failed x'.2 call ↔ Failed x.2 call := by
  rw [hlog, failed_append]
  refine or_iff_left ?_
  rintro ⟨error, -, heq⟩
  exact hother call (congrArg Sigma.fst heq)

theorem going_still : Still (Trail.Effect store Garage.Prompt) (fun _ => True) (Going w₀ done) := by
  rintro x q a x' ⟨⟨-, hsame⟩, hlog⟩ h
  refine ⟨trivial, hsame ▸ h.revoking, fun call hf => h.clean call ?_⟩
  exact (failed_elsewhere (fun _ heq => by cases heq) hlog).mp hf

theorem halting_still :
    Still (Trail.Effect store Garage.Prompt) (fun _ => True) (Halting w₀ keys done) := by
  rintro x q a x' ⟨⟨-, hsame⟩, hlog⟩ h
  refine ⟨trivial, hsame ▸ h.revoking, fun call hf => h.reached call ?_⟩
  exact (failed_elsewhere (fun _ heq => by cases heq) hlog).mp hf

theorem clean_still : Still (Trail.Effect store Garage.Prompt) (fun _ => True)
    (fun x => ∀ call, ¬ Failed x.2 call) := by
  rintro x q a x' ⟨-, hlog⟩ h
  exact ⟨trivial, fun call hf => h call ((failed_elsewhere (fun _ heq => by cases heq) hlog).mp hf)⟩

/-- a call of the store that writes no credential -/
theorem Revoking.store_step {call : StoreCall} {answer : Except StoreError call.Result}
    {w w' : World} (h : Revoking w₀ done w)
    (he : World.Effect store Garage.Prompt w (.store call) answer w')
    (hsame : ∀ env, StoreStep store w.db ⟨env, call, answer⟩ w'.db →
      w'.db.credentials = w.db.credentials) : Revoking w₀ done w' := by
  obtain ⟨⟨env, hstep⟩, hgarage⟩ := he
  exact ⟨(hsame env hstep).trans h.credentials, hgarage ▸ h.keys⟩

theorem renewOperation_going {operation : OperationRequest} {o : Uuid}
    (h : Going w₀ done x) :
    (renewOperation operation o).Ensures (Trail.Effect store Garage.Prompt) (fun _ => True)
      (fun x _ => Going w₀ done x) (fun x _ => Halts w₀ keys x) x := by
  refine renewOperation_ensures fun answer x' he => ⟨trivial, ?_⟩
  have h' : Going w₀ done x' := by
    refine ⟨h.revoking.store_step he.1 fun _ hstep => (clerical_keeps hstep rfl).2.2, fun call hf => ?_⟩
    exact h.clean call ((failed_elsewhere (fun _ h => by cases h) he.2).mp hf)
  cases answer with
  | ok u => exact h'
  | error e => exact h'.halting.halts

/-- the failure is recorded -/
theorem fail_halts {operation : OperationRequest} {o : Uuid} {response : StoredHttpResponse}
    {event : AuditEvent} {answer : Except StoreError Unit} (h : Halting w₀ keys done x)
    (he : Trail.Effect store Garage.Prompt x
      (.store (.finish ⟨.fail operation, o, response, event⟩)) answer x') : Halts w₀ keys x' := by
  have h' : Halting w₀ keys done x' := by
    refine ⟨h.revoking.store_step he.1 fun _ hstep => (clerical_keeps hstep rfl).2.2, fun call hf => ?_⟩
    exact h.reached call ((failed_elsewhere (fun _ h => by cases h) he.2).mp hf)
  exact h'.halts

/-! ## calls of Garage -/

/-- a request to Garage -/
abbrev Trail.GarageEffect (store : PgStore) (x : Trail) (call : GarageCall) (a : call.Answer)
    (x' : Trail) : Prop :=
  Trail.Effect store Garage.Prompt x (.garage call) a x'

/-- a call that failed is the one that the deletion has come to -/
theorem Going.failed {call : GarageCall} {e : GarageError} (h : Going w₀ done x)
    (hreached : Reached keys done call)
    (he : Trail.GarageEffect store x call (.error e) x') : Halting w₀ keys done x' := by
  obtain ⟨⟨⟨-, hprompt⟩, hdb⟩, hlog⟩ := he
  refine ⟨⟨hdb ▸ h.revoking.credentials, hprompt e rfl ▸ h.revoking.keys⟩, fun call' hf => ?_⟩
  rw [hlog, failed_append] at hf
  obtain hf | ⟨error, -, heq⟩ := hf
  · exact absurd hf (h.clean call')
  · obtain rfl := Call.garage.inj (congrArg Sigma.fst heq)
    exact hreached

/-- an answer that is no failure leaves no trace of one -/
theorem Going.passed {call : GarageCall} {a : call.Answer} (h : ∀ call, ¬ Failed x.2 call)
    (hpass : ∀ e, a = Except.error e → e.isNotFound = true)
    (hlog : x'.2 = x.2 ++ [⟨.garage call, a⟩]) : ∀ call, ¬ Failed x'.2 call := by
  intro call' hf
  rw [hlog, failed_append] at hf
  obtain hf | ⟨error, hnot, heq⟩ := hf
  · exact h call' hf
  · obtain ⟨hcall, ha⟩ := Sigma.mk.inj heq
    obtain rfl := Call.garage.inj hcall
    exact absurd_true_false (hpass error (eq_of_heq ha)) hnot

/-- the usage of the bucket is read -/
theorem bucketUsage_going {b : String} (h : Going w₀ [] x) :
    (GarageAdapter.bucketUsage b).Ensures (Trail.GarageEffect store) (fun _ => True)
      (fun x _ => Going w₀ [] x)
      (fun x error => Halting w₀ keys [] x ∧ ∀ m, error = .notFound m → Going w₀ [] x) x := by
  have hofGarage : ∀ {e : GarageError} {m : String}, GarageBackendError.ofGarage e = .notFound m →
      e.isNotFound = true := by
    intro e m he
    unfold GarageBackendError.ofGarage at he
    split at he
    · assumption
    · split at he <;> cases he
  refine ensures_bind (P := fun x _ => Going w₀ [] x) (ensures_mapError ?_)
    fun x' bucket h' => ensures_pure h'
  refine @checked_ensures Trail (Trail.GarageEffect store) (fun _ => True) x _ (.getBucketInfo b)
    _ _ (fun e he => ⟨h.halting, fun _ _ => h⟩) fun a x' he => ⟨trivial, ?_⟩
  obtain ⟨⟨⟨hdoc, hprompt⟩, hdb⟩, hlog⟩ := id he
  cases a with
  | ok bucket =>
    obtain ⟨d, hserve⟩ := hdoc.answered
    obtain ⟨hsame, -⟩ := Garage.serve_getBucketInfo hserve
    exact ⟨⟨hdb ▸ h.revoking.credentials, hsame ▸ h.revoking.keys⟩,
      Going.passed h.clean (fun _ he => by cases he) hlog⟩
  | error e =>
    have hreached : Reached keys [] (.getBucketInfo b) := rfl
    have hhalt : Halting w₀ keys [] x' := h.failed hreached he
    refine ⟨hhalt, fun m hm => ⟨hhalt.revoking, Going.passed h.clean ?_ hlog⟩⟩
    rintro e' ⟨⟩
    exact hofGarage hm

/-- the answer to a delete: the object is gone, or was not found, or the call has failed -/
theorem delete_answered {call : GarageCall} {a : call.Answer} (h : Going w₀ done x)
    (hreached : Reached keys done call) (he : Trail.GarageEffect store x call a x') :
    (GarageCall.removed a = true ∧ ∀ call, ¬ Failed x'.2 call) ∨
      ∃ e, a = Except.error e ∧ e.isNotFound = false ∧ Halting w₀ keys done x' := by
  cases a with
  | ok r => exact .inl ⟨rfl, Going.passed h.clean (fun _ he => by cases he) he.2⟩
  | error e =>
    cases hnot : e.isNotFound with
    | true =>
      refine .inl ⟨hnot, Going.passed h.clean ?_ he.2⟩
      rintro e' ⟨⟩
      exact hnot
    | false => exact .inr ⟨e, rfl, hnot, h.failed hreached he⟩

/-- what a delete of a key leaves that reports it gone -/
theorem Garage.Documented.lookup_deleted {g g' : Garage} {k : String}
    {a : (GarageCall.deleteKey k).Answer} (h : g.Documented (.deleteKey k) a g')
    (hremoved : GarageCall.removed a = true) (k' : String) :
    g'.keys.lookup k' = if k' = k then none else g.keys.lookup k' := by
  by_cases hk : k' = k
  · rw [if_pos hk, hk, h.deleteKey hremoved]
  · rw [if_neg hk]
    cases h.change with
    | same => rfl
    | keyDropped => rw [Garage.lookup_dropKey, if_neg hk]

theorem Revoking.deleteKey {w w' : World} {k : String} {a : (GarageCall.deleteKey k).Answer}
    (h : Revoking w₀ done w) (hdoc : w.garage.Documented (.deleteKey k) a w'.garage)
    (hremoved : GarageCall.removed a = true) (hdb : w'.db = w.db) :
    Revoking w₀ (done ++ [k]) w' := by
  refine ⟨hdb ▸ h.credentials, fun k' => ?_⟩
  rw [hdoc.lookup_deleted hremoved, h.keys k']
  by_cases hk : k' = k
  · rw [if_pos hk, if_pos (List.mem_append_right _ (List.mem_singleton.mpr hk))]
  · have hmem : k' ∈ done ++ [k] ↔ k' ∈ done := by
      rw [List.mem_append, List.mem_singleton]
      exact or_iff_left hk
    simp only [if_neg hk, hmem]

/-- one key is revoked -/
theorem revokeCredential_going {k : String} {rest : List String} (h : Going w₀ done x)
    (hkeys : keys = done ++ k :: rest) :
    (GarageAdapter.revokeCredential k).Ensures (Trail.GarageEffect store) (fun _ => True)
      (fun x _ => Going w₀ (done ++ [k]) x) (fun x _ => Halting w₀ keys done x) x := by
  refine gone_ensures (@checked_ensures Trail (Trail.GarageEffect store) (fun _ => True) x _
    (.deleteKey k) _ _ (fun e he => ?_) fun a x' he => ⟨trivial, ?_⟩)
  · rw [validateInput_error he]
    exact h.halting
  · have hgone : GarageCall.removed a = true → Revoking w₀ (done ++ [k]) x'.1 := fun hremoved =>
      h.revoking.deleteKey he.1.1.1 hremoved he.1.2
    have hreached : Reached keys done (.deleteKey k) := ⟨rest, hkeys⟩
    obtain ⟨hremoved, hclean⟩ | ⟨e, rfl, hnot, hhalt⟩ := delete_answered h hreached he
    · cases a with
      | ok u => exact ⟨hgone rfl, hclean⟩
      | error e =>
        show if _ then _ else _
        rw [if_pos (show e.isNotFound = true from hremoved)]
        exact ⟨hgone hremoved, hclean⟩
    · show if _ then _ else _
      rw [hnot]
      exact hhalt

/-- the bucket is deleted after all keys -/
theorem deleteBucket_going {b : String} (h : Going w₀ keys x) :
    (GarageAdapter.deleteBucket b).Ensures (Trail.GarageEffect store) (fun _ => True)
      (fun x _ => ∀ call, ¬ Failed x.2 call) (fun x _ => Halting w₀ keys keys x) x := by
  refine gone_ensures (@checked_ensures Trail (Trail.GarageEffect store) (fun _ => True) x _
    (.deleteBucket b) _ _ (fun e he => ?_) fun a x' he => ⟨trivial, ?_⟩)
  · rw [validateInput_error he]
    exact h.halting
  · have hreached : Reached keys keys (.deleteBucket b) := rfl
    obtain ⟨hremoved, hclean⟩ | ⟨e, rfl, hnot, hhalt⟩ := delete_answered h hreached he
    · cases a with
      | ok u => exact hclean
      | error e =>
        show if _ then _ else _
        rw [if_pos (show e.isNotFound = true from hremoved)]
        exact hclean
    · show if _ then _ else _
      rw [hnot]
      exact hhalt

/-! ## the handler -/

/-- the keys are revoked one after the other -/
theorem revokeKeys_halts {y : Execution} {command : DeleteCommand} {rest : List String}
    (h : Going w₀ done x) (hkeys : keys = done ++ rest) :
    (revokeKeys y command rest).Ensures (Trail.Effect store Garage.Prompt) (fun _ => True)
      (fun x _ => Going w₀ keys x) (fun x _ => Halts w₀ keys x) x := by
  induction rest generalizing done x with
  | nil =>
    rw [List.append_nil] at hkeys
    exact ensures_pure (hkeys ▸ h)
  | cons k rest ih =>
    refine ensures_bind (renewOperation_going h) fun x₁ _ h₁ => ?_
    refine ensures_bind (garageOrFail_ensures (revokeCredential_going h₁ hkeys) halting_still
      fun x₂ error event answer x₃ h₂ _ he => ⟨trivial, fun _ => fail_halts h₂ he⟩)
      fun x₂ _ h₂ => ih h₂ ?_
    rw [hkeys, List.append_assoc]
    rfl

/-- **a deletion that fails halts at the failing call** -/
theorem executeDelete_halts {state : AppState} {headers : Headers} {command : DeleteCommand}
    {o : Uuid} {context : DeleteContext} (h : Going w₀ [] x) :
    (executeDelete state headers command o context).Ensures (Trail.Effect store Garage.Prompt)
      (fun _ => True) (fun x _ => Halts w₀ context.garageKeyIds x)
      (fun x _ => Halts w₀ context.garageKeyIds x) x := by
  unfold executeDelete
  split
  · exact ensures_throw h.halting.halts
  refine ensures_bind (renewOperation_going h) fun x₁ _ h₁ => ?_
  refine ensures_bind (P := fun x _ => Going w₀ [] x) ?_ fun x₂ usage h₂ => ?_
  · refine ensures_bind (P := fun x answer =>
        (∀ usage, answer = Except.ok usage → Going w₀ [] x) ∧ Halting w₀ context.garageKeyIds [] x ∧
          ∀ m, answer = .error (.notFound m) → Going w₀ [] x)
      (ensures_attempt (onGarage_ensures ((bucketUsage_going h₁).mono (fun _ h => h)
        (fun x usage hx => ⟨fun _ _ => hx, hx.halting, fun _ _ => hx⟩)
        fun x error hx => ⟨(fun _ he => by cases he), hx.1, fun m hm => ?_⟩)))
      fun x₂ answer h₂ => ?_
    · exact hx.2 m (Except.error.inj hm)
    · obtain ⟨hok, hhalt, hnone⟩ := h₂
      split
      · exact ensures_pure (hok _ rfl)
      · exact ensures_pure (hnone _ rfl)
      · exact failWith_ensures halting_still (fun x₃ event answer x₄ h₃ _ he =>
          ⟨trivial, fun _ => fail_halts h₃ he⟩) hhalt
  refine ensures_bind (P := fun x _ => Going w₀ [] x) ?_ fun x₃ _ h₃ => ?_
  · unfold requireEmpty
    split
    · exact ensures_pure h₂
    · refine ensures_bind (audit_ensures going_still h₂) fun x₃ event h₃ => ?_
      refine ensures_bind (P := fun x _ => Halts w₀ context.garageKeyIds x) ?_
        fun x₄ _ h₄ => ensures_throw h₄
      refine @callStore_ensures Trail _ _ x₃ (.finish _) _ _ fun answer x₄ he => ⟨trivial, ?_⟩
      have hhalts : Halts w₀ context.garageKeyIds x₄ := fail_halts h₃.1.halting he
      cases answer <;> exact hhalts
  refine ensures_bind (revokeKeys_halts h₃ rfl) fun x₄ _ h₄ => ?_
  refine ensures_bind (renewOperation_going h₄) fun x₅ _ h₅ => ?_
  refine ensures_bind (garageOrFail_ensures (deleteBucket_going h₅) halting_still
    fun x₆ error event answer x₇ h₆ _ he => ⟨trivial, fun _ => fail_halts h₆ he⟩)
    fun x₆ _ h₆ => ?_
  refine ensures_bind (P := fun x _ => ∀ call, ¬ Failed x.2 call)
    (ensures_ofExcept (fun _ _ => h₆) fun _ _ => halts_of_clean h₆) fun x₇ _ h₇ => ?_
  refine ensures_bind (utcNow_ensures clean_still h₇) fun x₈ _ h₈ => ?_
  refine ensures_bind (audit_ensures clean_still h₈) fun x₉ event h₉ => ?_
  refine completing_ensures rfl fun answer x₁₀ he => ⟨trivial, ?_⟩
  have hclean : ∀ call, ¬ Failed x₁₀.2 call := fun call hf =>
    h₉.1 call ((failed_elsewhere (fun _ h => by cases h) he.2).mp hf)
  cases answer <;> exact halts_of_clean hclean

/-- the command of a deletion is about the service of the request -/
theorem deleteCommand_service {state : AppState} {claims : Except AuthError ProviderClaims}
    {s : Uuid} {query : DeleteQuery} {headers : Headers} {command : DeleteCommand}
    (h : deleteCommand state claims s query headers = .ok command) :
    command.operation.serviceInstanceId = s := by
  obtain ⟨c, -, hc⟩ := except_bind_eq_ok.mp h
  obtain rfl := Except.ok.inj hc
  rfl

theorem handle_halts {state : AppState} {claims : Except AuthError ProviderClaims} {s : Uuid}
    {query : DeleteQuery} {headers : Headers} :
    (handle state (.delete claims s query headers)).Ensures (Trail.Effect store Garage.Prompt)
      (fun _ => True) (fun x _ => Halts w₀ (w₀.db.activeGarageKeys s) x)
      (fun x _ => Halts w₀ (w₀.db.activeGarageKeys s) x) (w₀, []) := by
  have hempty : ∀ call, ¬ Failed [] call := by
    rintro call ⟨e, -, hmem⟩
    cases hmem
  refine ensures_bind (P := fun x command => x = (w₀, []) ∧
      command.operation.serviceInstanceId = s)
    (ensures_ofExcept (fun command hcommand => ⟨rfl, deleteCommand_service hcommand⟩)
      fun _ _ => halts_of_clean hempty) ?_
  rintro _ command ⟨rfl, hs⟩
  refine preparing_ensures fun answer x' he => ?_
  have hclean : ∀ call, ¬ Failed x'.2 call := fun call hf =>
    hempty call ((failed_elsewhere (fun _ h => by cases h) he.2).mp hf)
  refine ⟨trivial, fun o context hexecute => ?_, fun _ _ _ _ => halts_of_clean hclean,
    fun _ _ => halts_of_clean hclean⟩
  subst hexecute
  obtain ⟨⟨⟨env, hstep⟩, hgarage⟩, -⟩ := he
  have hexec : (PrepareCall.delete command).exec store env w₀.db =
    .ok (.execute o context, x'.1.db) := step_ok hstep
  have hcredentials : x'.1.db.credentials = w₀.db.credentials := prepare_keeps_credentials hexec
  have hkeys : context.garageKeyIds = w₀.db.activeGarageKeys s := by
    obtain ⟨-, -, -, -, -, -, -, -, -, -, hkeys⟩ := prepare_observed hexec
    rw [hkeys, hs, Database.activeGarageKeys, hcredentials]
    rfl
  rw [← hkeys]
  refine executeDelete_halts ⟨⟨hcredentials, fun k => ?_⟩, hclean⟩
  rw [hgarage, if_neg List.not_mem_nil]

end

/-! ## what a failure leaves -/

/-- no two credentials have the same key -/
theorem activeGarageKeys_nodup (db : Database) (s : Uuid) : (db.activeGarageKeys s).Nodup := by
  have hrows : (db.credentials.rows.map CredentialRow.garageKeyId).Nodup := by
    refine List.pairwise_map.mpr (db.credentials.distinct.imp fun {a b} hclash hsame => ?_)
    have hunique : credentialSchema.unique a b = true := by
      simp [credentialSchema, hsame]
    simp [Schema.clash, hunique] at hclash
  refine List.Nodup.perm ?_ ((List.perm_insertionSort _ _).map _).symm
  exact hrows.sublist (List.filter_sublist.map _)

/-- the call comes before any revocation of a key of the service -/
def Database.BeforeRevocations (db : Database) (s : Uuid) : GarageCall → Prop
  | .getBucketInfo _ => True
  | .deleteKey k => (db.activeGarageKeys s).head? = some k
  | _ => db.activeGarageKeys s = []

/-- every active credential of the service has its key -/
def World.KeysPresent (w : World) (s : Uuid) : Prop :=
  ∀ c ∈ w.db.credentials.rows, c.serviceInstanceId = s → c.status = .active →
    (w.garage.keys.lookup c.garageKeyId).isSome = true

instance (w : World) (s : Uuid) : Decidable (w.KeysPresent s) :=
  inferInstanceAs (Decidable (∀ c ∈ w.db.credentials.rows, _))

theorem Reached.before_iff {db : Database} {s : Uuid} {done : List String} {call : GarageCall}
    (h : Reached (db.activeGarageKeys s) done call) :
    db.BeforeRevocations s call ↔ done = [] := by
  cases call with
  | getBucketInfo b => exact iff_of_true trivial h
  | deleteBucket b =>
    obtain rfl : done = db.activeGarageKeys s := h
    exact Iff.rfl
  | deleteKey k =>
    obtain ⟨rest, hkeys⟩ := h
    have hnodup := activeGarageKeys_nodup db s
    simp only [Database.BeforeRevocations]
    rw [hkeys] at hnodup ⊢
    cases done with
    | nil => simp
    | cons d done =>
      refine iff_of_false (fun hhead => ?_) (List.cons_ne_nil _ _)
      obtain rfl : d = k := Option.some.inj hhead
      exact (List.nodup_cons.mp hnodup).1 (List.mem_append_right _ List.mem_cons_self)
  | _ => exact h.elim

theorem Reached.revoked_subset {keys done : List String} {call : GarageCall}
    (h : Reached keys done call) : done ⊆ keys := by
  cases call with
  | getBucketInfo b =>
    obtain rfl : done = [] := h
    exact List.nil_subset _
  | deleteBucket b =>
    obtain rfl : done = keys := h
    exact List.Subset.refl _
  | deleteKey k =>
    obtain ⟨rest, rfl⟩ := h
    exact List.subset_append_left _ _
  | _ => exact h.elim

theorem Revoking.present_iff {w₀ w : World} {s : Uuid} {done : List String}
    (h : Revoking w₀ done w) (hkeys : w₀.KeysPresent s) (hdone : done ⊆ w₀.db.activeGarageKeys s) :
    w.KeysPresent s ↔ done = [] := by
  constructor
  · intro hpresent
    refine List.eq_nil_iff_forall_not_mem.mpr fun k hk => ?_
    obtain ⟨c, hc, hs, hactive, rfl⟩ := mem_activeGarageKeys.mp (hdone hk)
    have hsome := hpresent c (h.credentials ▸ hc) hs hactive
    rw [h.keys, if_pos hk] at hsome
    cases hsome
  · rintro rfl c hc hs hactive
    rw [h.keys, if_neg List.not_mem_nil]
    exact hkeys c (h.credentials ▸ hc) hs hactive

/-- **After a deletion that failed, the active credentials have their keys iff the failing call came
before any revocation.**  All active credentials of the service have their keys, the handler of the
deletion is executed to its end, and a request to Garage fails and has no effect. -/
theorem failed_delete_truthful {store : PgStore} {behaviour : GarageBehaviour} {state : AppState}
    {claims : Except AuthError ProviderClaims} {s : Uuid} {query : DeleteQuery} {headers : Headers}
    {w w' : World} {log : CallLog} {result : Except ApiError Response} {failing : GarageCall}
    (hprompt : behaviour.Refines Garage.Prompt) (hkeys : w.KeysPresent s)
    (hrun : Runs (World.Effect store behaviour) w
      (handle state (.delete claims s query headers)) log w' (.done result))
    (hfailed : Failed log failing) :
    w'.KeysPresent s ↔ w.db.BeforeRevocations s failing := by
  have hhalts : Halts w (w.db.activeGarageKeys s) (w', log) := by
    have hrun := hrun.mono fun _ _ _ _ => World.Effect.mono hprompt
    have hend := (handle_halts.runs trivial (hrun.recorded [])).2 result rfl
    cases result <;> exact hend
  obtain ⟨done, hrevoking, hreached⟩ := hhalts failing hfailed
  rw [hreached.before_iff, hrevoking.present_iff hkeys hreached.revoked_subset]

/-! ## a key is revoked, and then the bucket cannot be deleted -/

/-- the call of an entry that failed -/
def failedCall : (e : Call) × e.Answer → Option GarageCall
  | ⟨.garage call, Except.error e⟩ => if e.isNotFound then none else some call
  | _ => none

theorem failed_of_mem {log : CallLog} {call : GarageCall} (h : call ∈ log.filterMap failedCall) :
    Failed log call := by
  obtain ⟨entry, hmem, hcall⟩ := List.mem_filterMap.mp h
  unfold failedCall at hcall
  split at hcall
  · split at hcall
    · cases hcall
    · rename_i hnot
      obtain rfl := Option.some.inj hcall
      exact ⟨_, Bool.eq_false_of_not_eq_true hnot, hmem⟩
  · cases hcall

/-- a choice by which no answer is lost -/
abbrev PromptChoice := { choice : Choice // choice.outcome ≠ .lost }

theorem perform_prompt (store : PgStore) (choice : PromptChoice) (w : World) (e : Call) :
    World.Effect store Garage.Prompt w e (w.perform store choice.1 e).1
      (w.perform store choice.1 e).2 := by
  obtain ⟨⟨env, draw, outcome, id⟩, hnot⟩ := choice
  cases e with
  | store call => exact ⟨⟨env, rfl⟩, rfl⟩
  | garage call =>
    refine ⟨⟨w.garage.perform_documented _ _ call, fun error herror => ?_⟩, rfl⟩
    -- an answer with an error is a refusal, or the request has not arrived
    simp only [World.perform] at herror ⊢
    unfold Garage.perform at herror ⊢
    split at herror
    · rfl
    · rfl
    · cases herror
    · exact absurd rfl hnot
  | query q => exact ⟨query_reads _ _ _, rfl⟩

namespace Sample

/-- a call that is served, or one that fails -/
def promptly (n : Nat) (served : Bool) : PromptChoice :=
  ⟨choice 3 n "" (if served then .served else .failed), by cases served <;> exact fun h => by cases h⟩

/-- then credential 2020 with the key `l` -/
def twice : List Move := keyed ++ .spawn (createRequest 103 10 "other") :: go 2 3 20 8 "l"

/-- after a script, `calls` calls of the deletion of service 10 are served, the next one fails, and
the failure is recorded -/
def removing (script : List Move) (calls : Nat) : CallLog × World × HandlerM ApiError Response :=
  play (fun choice : PromptChoice => World.perform PgStore.reference choice.1)
    ((List.range calls).map (fun j => promptly (40 + j) true) ++
      [promptly 50 false, promptly 51 true])
    (handle AppState.reference (deleteRequest 102 10 2)) (after script).world

theorem removing_runs {script : List Move} {calls : Nat}
    (h : (removing script calls).2.2.result?.isSome = true) :
    ∃ result, Runs (World.Effect PgStore.reference Garage.Prompt) (after script).world
      (handle AppState.reference (deleteRequest 102 10 2)) (removing script calls).1
      (removing script calls).2.1 (.done result) := by
  obtain ⟨result, hresult⟩ := Option.isSome_iff_exists.mp h
  refine ⟨result, ?_⟩
  rw [← eq_done_of_result hresult]
  exact play_runs (perform_prompt PgStore.reference) _ _ _

end Sample

/-- two keys: the first cannot be revoked, or the first is revoked and the second cannot be -/
theorem failed_delete_truthful_twice :
    (Sample.removing Sample.twice 4).2.1.KeysPresent 10 ∧
      ¬ (Sample.removing Sample.twice 6).2.1.KeysPresent 10 := by
  have hfacts : (Sample.after Sample.twice).world.KeysPresent 10 ∧
      (Sample.after Sample.twice).world.db.activeGarageKeys 10 = ["k", "l"] ∧
      GarageCall.deleteKey "k" ∈ (Sample.removing Sample.twice 4).1.filterMap failedCall ∧
      (Sample.removing Sample.twice 4).2.2.result?.isSome = true ∧
      GarageCall.deleteKey "l" ∈ (Sample.removing Sample.twice 6).1.filterMap failedCall ∧
      (Sample.removing Sample.twice 6).2.2.result?.isSome = true := by
    decide +kernel
  obtain ⟨hkeys, hactive, hfirst, hdone₁, hsecond, hdone₂⟩ := hfacts
  obtain ⟨_, hrun₁⟩ := Sample.removing_runs hdone₁
  obtain ⟨_, hrun₂⟩ := Sample.removing_runs hdone₂
  constructor
  · refine (failed_delete_truthful .refl hkeys hrun₁ (failed_of_mem hfirst)).mpr ?_
    show List.head? _ = some "k"
    rw [hactive]
    rfl
  · intro hpresent
    have hbefore : List.head? _ = some "l" :=
      (failed_delete_truthful .refl hkeys hrun₂ (failed_of_mem hsecond)).mp hpresent
    rw [hactive] at hbefore
    exact absurd hbefore (by decide)

/-- **A credential that is active without a key.**  Service 10 has one credential, whose key is in
Garage.  The deletion revokes the key, and the bucket cannot be deleted: the failure is recorded,
the service stays ready and the credential active. -/
theorem failed_delete_revoked :
    let w := (Sample.after Sample.keyed).world
    let after := Sample.removing Sample.keyed 6
    w.KeysPresent 10 ∧
    (∃ result, Runs (World.Effect PgStore.reference Garage.Prompt) w
      (handle AppState.reference (Sample.deleteRequest 102 10 2)) after.1 after.2.1
      (.done result)) ∧
    Failed after.1 (.deleteBucket "b") ∧
    (after.2.1.db.receipts.lookup 102).any (fun row => decide (row.state = .failed)) = true ∧
    (after.2.1.db.services.lookup 10).any (fun row => decide (row.phase = .ready)) = true ∧
    ¬ after.2.1.KeysPresent 10 := by
  have hfacts : (Sample.after Sample.keyed).world.KeysPresent 10 ∧
      (Sample.removing Sample.keyed 6).2.2.result?.isSome = true ∧
      GarageCall.deleteBucket "b" ∈ (Sample.removing Sample.keyed 6).1.filterMap failedCall ∧
      ((Sample.removing Sample.keyed 6).2.1.db.receipts.lookup 102).any
        (fun row => decide (row.state = .failed)) = true ∧
      ((Sample.removing Sample.keyed 6).2.1.db.services.lookup 10).any
        (fun row => decide (row.phase = .ready)) = true ∧
      ¬ (Sample.removing Sample.keyed 6).2.1.KeysPresent 10 := by
    decide +kernel
  obtain ⟨hkeys, hdone, hfailed, hrest⟩ := hfacts
  exact ⟨hkeys, Sample.removing_runs hdone, failed_of_mem hfailed, hrest⟩

end Syouyu
