import Syouyu.Json
import Syouyu.Api.Handlers
import Syouyu.Store.Idempotency

/-!
# What an idempotency key is bound to

A receipt keeps a digest of the request it was written for.  The digest is taken of a tag, the
action and the JSON of the request, put one after another without lengths.

* `Content`                  what a handler hands to `request_hash`, action by action;
* `Content.hashInput`        the bytes that are digested;
* `Content.hashInput_inj`    they determine the action and every field;
* `Request.prepareCall`      the prepare call a handler makes for a request, if it makes one;
* `handle_executes`          what a handler does after that call;
* `key_bound_to_request`     two requests under one key that a receipt does not tell apart are the
                             same request.
-/

set_option linter.unusedSectionVars false

namespace Syouyu
open Lib Lib.Encoding

/-! ## what is digested -/

inductive Content where
  | reconcile (request : ReconcileRequest)
  | delete (serviceInstanceId : Uuid) (generation : Int64)
  | createCredential (request : CreateCredentialRequest) (limits : CredentialLimits)
  | revokeCredential (credentialId : Uuid)

namespace Content

def action : Content → String
  | reconcile _ => providerReconcileAction
  | delete _ _ => providerDeleteAction
  | createCredential _ _ => credentialCreateAction
  | revokeCredential _ => credentialRevokeAction

def toValue : Content → Value
  | reconcile request => request.serialize
  | delete serviceInstanceId generation =>
    .object [("generation", .ofI64 generation), ("service_instance_id", .ofUuid serviceInstanceId)]
  | createCredential request limits =>
    .object [("credential_limits", limits.toValue), ("request", request.toValue)]
  | revokeCredential credentialId => .object [("credential_id", .ofUuid credentialId)]

/-- the input of the digest in `request_hash` -/
def hashInput (state : AppState) (content : Content) : List UInt8 :=
  asBytes "syouyu-operation-v1" ++ [0] ++ asBytes content.action ++ [0] ++
    state.toVec content.toValue

end Content

/-! ## the fields behind a value -/

theorem ofI64_injective {a b : Int64} (h : Value.ofI64 a = .ofI64 b) : a = b := by
  unfold Value.ofI64 at h
  split at h <;> split at h
  · have hbits := congrArg UInt64.toInt64 (Number.posInt.inj (Value.number.inj h))
    rwa [Int64.toInt64_toUInt64, Int64.toInt64_toUInt64] at hbits
  · cases h
  · cases h
  · exact Number.negInt.inj (Value.number.inj h)

theorem ofUuid_injective {a b : Uuid} (h : Value.ofUuid a = .ofUuid b) : a = b :=
  Uuid.toString_injective (Value.string.inj h)

theorem ofU32_injective {a b : UInt32} (h : Value.ofU64 a.toUInt64 = .ofU64 b.toUInt64) :
    a = b :=
  UInt32.toUInt64_inj.mp (Number.posInt.inj (Value.number.inj h))

theorem ReconcileRequest.serialize_injective {a b : ReconcileRequest}
    (h : a.serialize = b.serialize) : a = b := by
  obtain ⟨generation, name, spec⟩ := a
  obtain ⟨generation', name', spec'⟩ := b
  simp only [ReconcileRequest.serialize, Value.object.injEq, List.cons.injEq, Prod.mk.injEq,
    true_and, and_true, Value.string.injEq] at h
  obtain ⟨hgen, rfl, hregion, hbucket, hbytes, hobjects⟩ := h
  obtain rfl := ofI64_injective hgen
  have hspec : spec = spec' := by
    cases spec
    cases spec'
    obtain rfl := Number.posInt.inj (Value.number.inj hbytes)
    obtain rfl := Number.posInt.inj (Value.number.inj hobjects)
    simp only at hregion hbucket
    rw [hregion, hbucket]
  rw [hspec]

theorem BucketPermissions.toValue_injective {a b : BucketPermissions}
    (h : a.toValue = b.toValue) : a = b := by
  have hread := congrArg BucketPermissions.fromValue h
  rw [BucketPermissions.fromValue_toValue, BucketPermissions.fromValue_toValue] at hread
  exact Option.some.inj hread

namespace Content

/-- of one action, the value determines the fields -/
theorem eq_of_toValue {c d : Content} (ha : c.action = d.action) (h : c.toValue = d.toValue) :
    c = d := by
  cases c with
  | reconcile request =>
    cases d with
    | reconcile request' => rw [ReconcileRequest.serialize_injective h]
    | _ =>
      dsimp only [action] at ha
      exact absurd ha (by decide)
  | delete s g =>
    cases d with
    | delete s' g' =>
      simp only [toValue, Value.object.injEq, List.cons.injEq, Prod.mk.injEq, true_and,
        and_true] at h
      rw [ofI64_injective h.1, ofUuid_injective h.2]
    | _ =>
      dsimp only [action] at ha
      exact absurd ha (by decide)
  | createCredential request limits =>
    cases d with
    | createCredential request' limits' =>
      obtain ⟨name, permissions⟩ := request
      obtain ⟨name', permissions'⟩ := request'
      obtain ⟨perBucket, total⟩ := limits
      obtain ⟨perBucket', total'⟩ := limits'
      simp only [toValue, CredentialLimits.toValue, CreateCredentialRequest.toValue,
        Value.object.injEq, List.cons.injEq, Prod.mk.injEq, true_and, and_true,
        Value.string.injEq] at h
      obtain ⟨⟨hbucket, htotal⟩, rfl, hperm⟩ := h
      rw [ofU32_injective hbucket, ofU32_injective htotal,
        BucketPermissions.toValue_injective hperm]
    | _ =>
      dsimp only [action] at ha
      exact absurd ha (by decide)
  | revokeCredential k =>
    cases d with
    | revokeCredential k' =>
      simp only [toValue, Value.object.injEq, List.cons.injEq, Prod.mk.injEq, true_and,
        and_true] at h
      rw [ofUuid_injective h]
    | _ =>
      dsimp only [action] at ha
      exact absurd ha (by decide)

/-- what is written has no floats -/
theorem plain_toValue (c : Content) : Json.Plain c.toValue := by
  cases c with
  | reconcile request =>
    show (Json.plain (.ofI64 request.generation) && (true && (_ && true))) = true
    rw [Json.plain_ofI64]
    rfl
  | delete s g =>
    show (Json.plain (.ofI64 g) && (true && true)) = true
    rw [Json.plain_ofI64]
    rfl
  | createCredential request limits => rfl
  | revokeCredential k => rfl

/-- no action contains the byte that ends it -/
theorem action_read (c : Content) :
    Reads (fun a => ∀ b ∈ asBytes a, (b != 0) = true) (Stops fun b => b != 0) asBytes c.action :=
  reads_span (fun _ h => h) fun _ _ _ h => asBytes_injective h

theorem action_bytes (c : Content) : ∀ b ∈ asBytes c.action, (b != 0) = true := by
  have hall : ∀ a ∈ [providerReconcileAction, providerDeleteAction, credentialCreateAction,
      credentialRevokeAction], ∀ b ∈ asBytes a, (b != 0) = true := by decide +kernel
  exact hall _ (by cases c <;> simp [action])

/-- **the bytes determine the action and every field** -/
theorem hashInput_inj {state : AppState} {ryu : UInt64 → List UInt8}
    (hvec : state.toVec = Json.write ryu) {c d : Content}
    (h : c.hashInput state = d.hashInput state) : c = d := by
  simp only [hashInput, hvec, List.append_assoc] at h
  have hrest := List.append_cancel_left (List.append_cancel_left h)
  obtain ⟨haction, htail⟩ := action_read c (action_bytes c) d.action _ _ (action_bytes d)
    (show Stops (fun b : UInt8 => b != 0) (0 :: Json.write ryu c.toValue) from rfl)
    (show Stops (fun b : UInt8 => b != 0) (0 :: Json.write ryu d.toValue) from rfl) hrest
  have hvalue := Json.write_injective ryu (plain_toValue c) (plain_toValue d)
    (List.cons.inj htail).2
  exact eq_of_toValue haction hvalue

end Content

/-! ## the prepare call of a request -/

def PrepareCall.content : PrepareCall → Content
  | .reconcile command => .reconcile ⟨command.generation, command.name, command.spec⟩
  | .delete command => .delete command.operation.serviceInstanceId command.generation
  | .createCredential command =>
    .createCredential ⟨command.name, command.permissions⟩ command.credentialLimits
  | .revokeCredential command => .revokeCredential command.credentialId

/-- a prepare call is its operation and its content -/
theorem PrepareCall.eq_of_content {p q : PrepareCall} (ho : p.operation = q.operation)
    (hc : p.content = q.content) : p = q := by
  cases p with
  | reconcile c =>
    cases q with
    | reconcile d =>
      cases c
      cases d
      cases hc
      cases ho
      rfl
    | _ => cases hc
  | delete c =>
    cases q with
    | delete d =>
      cases c
      cases d
      cases ho
      cases hc
      rfl
    | _ => cases hc
  | createCredential c =>
    cases q with
    | createCredential d =>
      cases c
      cases d
      cases hc
      cases ho
      rfl
    | _ => cases hc
  | revokeCredential c =>
    cases q with
    | revokeCredential d =>
      cases c
      cases d
      cases hc
      cases ho
      rfl
    | _ => cases hc

theorem toOption_eq_some {ε α : Type} {x : Except ε α} {a : α} (h : x.toOption = some a) :
    x = .ok a := by
  cases x with
  | error e => cases h
  | ok b => exact congrArg Except.ok (Option.some.inj h)

/-- what a handler refuses before its first call, or the prepare call it makes -/
def Request.prepareCall (state : AppState) : Request → Except ApiError PrepareCall
  | .reconcile claims serviceInstanceId headers request =>
    (reconcileCommand state claims serviceInstanceId headers request).map .reconcile
  | .delete claims serviceInstanceId query headers =>
    (deleteCommand state claims serviceInstanceId query headers).map .delete
  | .createCredential principal headers request => do
    let principal ← authorize principal credentialCreatePermission
    (createCredentialCommand state principal headers request).map .createCredential
  | .revokeCredential principal credentialId headers => do
    let principal ← authorize principal credentialRevokePermission
    (revokeCredentialCommand state principal credentialId headers).map .revokeCredential

/-- what a handler does once its operation is to be executed -/
inductive Executes (state : AppState) : Request → (call : PrepareCall) →
    (Uuid → call.Context → HandlerM ApiError Response) → Prop
  | reconcile {claims : Except AuthError ProviderClaims} {s : Uuid} {headers : Headers}
      {request : ReconcileRequest} {command : ReconcileCommand} :
      reconcileCommand state claims s headers request = .ok command →
      Executes state (.reconcile claims s headers request) (.reconcile command)
        (executeReconcile state headers command)
  | delete {claims : Except AuthError ProviderClaims} {s : Uuid} {query : DeleteQuery}
      {headers : Headers} {command : DeleteCommand} :
      deleteCommand state claims s query headers = .ok command →
      Executes state (.delete claims s query headers) (.delete command)
        (executeDelete state headers command)
  | createCredential {principal : Except PrincipalAuthError Principal} {headers : Headers}
      {request : CreateCredentialRequest} {authorized : Principal}
      {command : CreateCredentialCommand} :
      createCredentialCommand state authorized headers request = .ok command →
      Executes state (.createCredential principal headers request) (.createCredential command)
        (executeCreate state headers authorized command)
  | revokeCredential {principal : Except PrincipalAuthError Principal} {credentialId : Uuid}
      {headers : Headers} {authorized : Principal} {command : RevokeCredentialCommand} :
      revokeCredentialCommand state authorized credentialId headers = .ok command →
      Executes state (.revokeCredential principal credentialId headers) (.revokeCredential command)
        (executeRevoke headers authorized command)

section
variable {state : AppState} {headers : Headers}

theorem handle_create {principal : Except PrincipalAuthError Principal}
    {request : CreateCredentialRequest} {authorized : Principal} {command : CreateCredentialCommand}
    (hauth : authorize principal credentialCreatePermission = .ok authorized)
    (hcommand : createCredentialCommand state authorized headers request = .ok command) :
    handle state (.createCredential principal headers request) =
      preparing (.createCredential command) (executeCreate state headers authorized command) := by
  simp only [handle, createCredential, hauth]
  show (do
    let command ← Prog.ofExcept id (createCredentialCommand state authorized headers request)
    preparing _ _ : HandlerM ApiError Response) = _
  rw [hcommand]
  rfl

theorem handle_revoke {principal : Except PrincipalAuthError Principal} {credentialId : Uuid}
    {authorized : Principal} {command : RevokeCredentialCommand}
    (hauth : authorize principal credentialRevokePermission = .ok authorized)
    (hcommand : revokeCredentialCommand state authorized credentialId headers = .ok command) :
    handle state (.revokeCredential principal credentialId headers) =
      preparing (.revokeCredential command) (executeRevoke headers authorized command) := by
  simp only [handle, revokeCredential, hauth]
  show (do
    let command ← Prog.ofExcept id
      (revokeCredentialCommand state authorized credentialId headers)
    preparing _ _ : HandlerM ApiError Response) = _
  rw [hcommand]
  rfl

end

/-- **a handler that makes a call begins with its prepare call**, and may execute its operation -/
theorem handle_executes {state : AppState} {r : Request} {call : PrepareCall}
    (h : r.prepareCall state = .ok call) :
    ∃ execute, handle state r = preparing call execute ∧ Executes state r call execute := by
  cases r with
  | reconcile claims s headers request =>
    obtain ⟨command, hcommand, rfl⟩ := except_map_eq_ok.mp h
    refine ⟨_, ?_, .reconcile hcommand⟩
    simp only [handle, reconcileServiceInstance, hcommand]
    rfl
  | delete claims s query headers =>
    obtain ⟨command, hcommand, rfl⟩ := except_map_eq_ok.mp h
    refine ⟨_, ?_, .delete hcommand⟩
    simp only [handle, deleteServiceInstance, hcommand]
    rfl
  | createCredential principal headers request =>
    obtain ⟨principal', hauth, h⟩ := except_bind_eq_ok.mp h
    obtain ⟨command, hcommand, rfl⟩ := except_map_eq_ok.mp h
    exact ⟨_, handle_create hauth hcommand, .createCredential hcommand⟩
  | revokeCredential principal credentialId headers =>
    obtain ⟨principal', hauth, h⟩ := except_bind_eq_ok.mp h
    obtain ⟨command, hcommand, rfl⟩ := except_map_eq_ok.mp h
    exact ⟨_, handle_revoke hauth hcommand, .revokeCredential hcommand⟩

theorem command_refused {α : Type} (command : Except ApiError α) {f : α → PrepareCall}
    {next : α → HandlerM ApiError Response} {e : ApiError} (h : command.map f = .error e) :
    (Prog.ofExcept id command >>= next) = Prog.throw e := by
  cases command with
  | ok a => cases h
  | error e' =>
    obtain rfl := Except.error.inj h
    rfl

/-- a request that is refused before the prepare call ends the handler -/
theorem handle_refused {state : AppState} {r : Request} {e : ApiError}
    (h : r.prepareCall state = .error e) : handle state r = Prog.throw e := by
  cases r with
  | reconcile claims s headers request => exact command_refused _ h
  | delete claims s query headers => exact command_refused _ h
  | createCredential principal headers request =>
    simp only [handle, createCredential, Request.prepareCall] at h ⊢
    cases hauth : authorize principal credentialCreatePermission with
    | ok authorized =>
      rw [hauth] at h
      exact command_refused (createCredentialCommand state authorized headers request) h
    | error e' =>
      rw [hauth] at h
      obtain rfl := Except.error.inj h
      rfl
  | revokeCredential principal credentialId headers =>
    simp only [handle, revokeCredential, Request.prepareCall] at h ⊢
    cases hauth : authorize principal credentialRevokePermission with
    | ok authorized =>
      rw [hauth] at h
      exact command_refused (revokeCredentialCommand state authorized credentialId headers) h
    | error e' =>
      rw [hauth] at h
      obtain rfl := Except.error.inj h
      rfl

/-- the digest in the operation is that of the content, under the content's action -/
theorem prepareCall_hashed {state : AppState} {r : Request} {call : PrepareCall}
    (h : r.prepareCall state = .ok call) :
    call.operation.requestHash = state.sha256 (call.content.hashInput state) := by
  cases r with
  | reconcile claims s headers request =>
    obtain ⟨command, hcommand, rfl⟩ := except_map_eq_ok.mp h
    obtain ⟨claims', -, hcommand⟩ := except_bind_eq_ok.mp hcommand
    obtain ⟨_, -, hcommand⟩ := except_bind_eq_ok.mp hcommand
    split at hcommand
    · cases hcommand
    · obtain rfl := Except.ok.inj hcommand
      rfl
  | delete claims s query headers =>
    obtain ⟨command, hcommand, rfl⟩ := except_map_eq_ok.mp h
    obtain ⟨claims', -, hcommand⟩ := except_bind_eq_ok.mp hcommand
    obtain rfl := Except.ok.inj hcommand
    rfl
  | createCredential principal headers request =>
    obtain ⟨principal', -, h⟩ := except_bind_eq_ok.mp h
    obtain ⟨command, hcommand, rfl⟩ := except_map_eq_ok.mp h
    obtain ⟨_, -, hcommand⟩ := except_bind_eq_ok.mp hcommand
    obtain ⟨key, -, hcommand⟩ := except_bind_eq_ok.mp hcommand
    obtain rfl := Except.ok.inj hcommand
    rfl
  | revokeCredential principal credentialId headers =>
    obtain ⟨principal', -, h⟩ := except_bind_eq_ok.mp h
    obtain ⟨command, hcommand, rfl⟩ := except_map_eq_ok.mp h
    obtain ⟨key, -, hcommand⟩ := except_bind_eq_ok.mp hcommand
    obtain rfl := Except.ok.inj hcommand
    rfl

/-! ## receipts -/

section
variable {store : PgStore} {db₀ db₁ db₂ db₃ : Database} {env₁ env₂ : CallEnv}
  {tr : List CallRecord}

/-- a prepare call that is answered leaves a receipt of its operation -/
theorem prepared_receipt {call : PrepareCall} {answer : Prepare call.Context}
    (h : StoreStep store db₀ ⟨env₁, .prepare call, .ok answer⟩ db₁) :
    ∃ row, db₁.receipts.lookup call.operation.idempotencyKey = some row ∧
      row.request = call.operation := by
  have hexec : call.exec store env₁ db₀ = .ok (answer, db₁) := step_ok h
  cases answer with
  | execute o context =>
    obtain ⟨row, hl, hreq, -⟩ := executed_receipt hexec
    exact ⟨row, hl, hreq⟩
  | _ =>
    obtain ⟨-, ⟨rfl, row, hl, hreq, -⟩ | ⟨_, _, _, -, -, hans⟩⟩ := prepare_eq_ok.mp hexec
    · exact ⟨row, hl, hreq⟩
    · cases hans

/-- a valid request that the receipt of another does not refuse is the same operation -/
theorem same_operation {p₁ p₂ : PrepareCall} {a₁ : Prepare p₁.Context}
    {a₂ : Except StoreError (Prepare p₂.Context)}
    (h₁ : StoreStep store db₀ ⟨env₁, .prepare p₁, .ok a₁⟩ db₁)
    (hrun : Run (StoreStep store) db₁ tr db₂)
    (h₂ : StoreStep store db₂ ⟨env₂, .prepare p₂, a₂⟩ db₃)
    (hkey : p₁.operation.idempotencyKey = p₂.operation.idempotencyKey)
    (hv : p₂.validate = .ok ()) (ha : a₂ ≠ .error .idempotencyConflict) :
    p₁.operation = p₂.operation := by
  obtain ⟨row, hl, hreq⟩ := prepared_receipt h₁
  obtain ⟨row', hl', hreq', -⟩ := receipt_kept hrun hl
  rw [hkey] at hl'
  cases hm : row'.matches p₂.operation with
  | true => exact (hreq'.trans hreq).symm.trans ((matches_of_lookup hl').mp hm)
  | false =>
    have hconflict : (StoreCall.prepare p₂).run store env₂ db₂ = (.error .idempotencyConflict, db₂)
      := prepare_conflicts hv hl' hm
    exact absurd (congrArg Prod.fst (h₂.symm.trans hconflict)) ha

end

/-- **An idempotency key is bound to the whole request.**  The bytes that are digested determine
the action and every field, for every text and number; and a handler's prepare call that a receipt
left by another prepare call under the same key does not refuse is that very call, if the digest
tells the two inputs apart. -/
theorem key_bound_to_request {state : AppState} {ryu : UInt64 → List UInt8}
    (hvec : state.toVec = Json.write ryu) :
    Function.Injective (Content.hashInput state) ∧
    (∀ (r : Request) (p : PrepareCall), r.prepareCall state = .ok p →
      ∃ execute, handle state r = preparing p execute) ∧
    ∀ (store : PgStore) (r₁ r₂ : Request) (p₁ p₂ : PrepareCall),
      r₁.prepareCall state = .ok p₁ → r₂.prepareCall state = .ok p₂ →
      p₁.operation.idempotencyKey = p₂.operation.idempotencyKey →
      (state.sha256 (p₁.content.hashInput state) = state.sha256 (p₂.content.hashInput state) →
        p₁.content.hashInput state = p₂.content.hashInput state) →
      ∀ db₀ env₁ a₁ db₁ tr db₂ env₂ a₂ db₃,
        StoreStep store db₀ ⟨env₁, .prepare p₁, .ok a₁⟩ db₁ → Run (StoreStep store) db₁ tr db₂ →
        StoreStep store db₂ ⟨env₂, .prepare p₂, a₂⟩ db₃ → p₂.validate = .ok () →
        a₂ ≠ .error .idempotencyConflict → p₁ = p₂ := by
  refine ⟨fun c d h => Content.hashInput_inj hvec h, fun r p h => ?_, ?_⟩
  · obtain ⟨execute, hprepares, -⟩ := handle_executes h
    exact ⟨execute, hprepares⟩
  intro store r₁ r₂ p₁ p₂ hp₁ hp₂ hkey hsha db₀ env₁ a₁ db₁ tr db₂ env₂ a₂ db₃ h₁ hrun h₂ hv ha
  have ho : p₁.operation = p₂.operation := same_operation h₁ hrun h₂ hkey hv ha
  have hhash : state.sha256 (p₁.content.hashInput state) =
      state.sha256 (p₂.content.hashInput state) := by
    rw [← prepareCall_hashed hp₁, ← prepareCall_hashed hp₂, ho]
  exact PrepareCall.eq_of_content ho (Content.hashInput_inj hvec (hsha hhash))

namespace Sample

/-- a state of the application that writes JSON as `serde_json` does -/
def jsonState : AppState where
  storageRegion := "eu-1"
  s3Endpoint := "s3.example"
  sha256 bytes := BitVec.ofNat 256 (bytes.foldl (fun n b => 257 * n + b.toNat) 0)
  toVec := Json.write fun _ => []
  formatTime := toString
  parseUuid _ := none

/-- the reconcile of service 10 under the key 100, with a request id of its own -/
def identified (requestId : String) : Request :=
  .reconcile (.ok ⟨3, 1, 2, 10, 1, 100⟩) 10
    ⟨some (some (Uuid.toString 100)), some (some requestId)⟩
    ⟨1, "say \"hi\"", ⟨"eu-1", "bucket-a", 1000, 10⟩⟩

def identifiedCall : PrepareCall :=
  .reconcile
    { operation :=
        ⟨100, 1, 2, 10, 3, providerReconcileAction, some 1, requestHash jsonState
          providerReconcileAction
          (ReconcileRequest.mk 1 "say \"hi\"" ⟨"eu-1", "bucket-a", 1000, 10⟩).serialize⟩
      name := "say \"hi\""
      generation := 1
      spec := ⟨"eu-1", "bucket-a", 1000, 10⟩ }

end Sample

/-- the second of two requests that differ in their request id finds the first in progress -/
theorem key_bound_to_request_repeated :
    let r₁ := Sample.identified "one"
    let r₂ := Sample.identified "two"
    let prepare := StoreCall.prepare Sample.identifiedCall
    let db₁ := (prepare.run PgStore.reference (Sample.env 1 0) Database.empty).2
    (r₁.prepareCall Sample.jsonState = .ok Sample.identifiedCall ∧
      r₂.prepareCall Sample.jsonState = .ok Sample.identifiedCall) ∧
    (prepare.run PgStore.reference (Sample.env 2 1) db₁).1 = .ok (.inProgress 1000) ∧
    ∀ p, r₂.prepareCall Sample.jsonState = .ok p → Sample.identifiedCall = p := by
  intro r₁ r₂ prepare db₁
  have hp₁ : r₁.prepareCall Sample.jsonState = .ok Sample.identifiedCall := by decide +kernel
  have hp₂ : r₂.prepareCall Sample.jsonState = .ok Sample.identifiedCall := by decide +kernel
  have h₁ : StoreStep PgStore.reference Database.empty ⟨Sample.env 1 0, prepare, .ok (.execute 1000
      ⟨(Sample.reconcile 100 10 "a" "bucket-a" 1).desiredBucket none, false⟩)⟩ db₁ :=
    step_of_answer (by decide +kernel)
  have h₂ : (prepare.run PgStore.reference (Sample.env 2 1) db₁).1 = .ok (.inProgress 1000) := by
    decide +kernel
  refine ⟨⟨hp₁, hp₂⟩, h₂, fun p hp => ?_⟩
  obtain rfl := Except.ok.inj (hp₂.symm.trans hp)
  obtain ⟨-, -, hbound⟩ := @key_bound_to_request Sample.jsonState _ rfl
  exact hbound PgStore.reference r₁ r₂ _ _ hp₁ hp₂ rfl (fun _ => rfl) _ _ _ _ _ _ _ _ _ h₁ (.nil _)
    (step_of_answer h₂) (by decide +kernel) nofun

end Syouyu
