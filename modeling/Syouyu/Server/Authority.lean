import Syouyu.Server.Script

/-!
# Nothing is done that was not signed for

* `Gateway.Authorises`   the request is signed for its route, and names the service;
* `entries_authorised`   **every entry of the registry is the operation of a request that was signed
                         for it**;
* `calls_authorised`     **every call of the database and of Garage is made for a signed request, on
                         the service it names, but for the two probes of `ready`**.
-/

set_option linter.unusedSectionVars false

namespace Syouyu
open Lib

/-- the action a token must be for on this route -/
def Endpoint.action? : Endpoint → Option String
  | .reconcileServiceInstance _ => some providerReconcileAction
  | .deleteServiceInstance _ => some providerDeleteAction
  | _ => none

/-- the permission a principal must have on this route -/
def Endpoint.permission? : Endpoint → Option String
  | .read kind => some kind.permission
  | .createCredential => some credentialCreatePermission
  | .revokeCredential _ => some credentialRevokePermission
  | _ => none

def OperationRequest.scope (operation : OperationRequest) : ServiceScope :=
  ⟨operation.organizationId, operation.projectId, operation.serviceInstanceId⟩

/-- the service a call of the store is about -/
def StoreCall.scope : StoreCall → ServiceScope
  | .prepare call => call.operation.scope
  | .finish call => call.operation.scope
  | .renewOperation operation _ => operation.scope
  | .serviceOverview organizationId projectId serviceInstanceId =>
    ⟨organizationId, projectId, serviceInstanceId⟩
  | .listCredentials organizationId projectId serviceInstanceId =>
    ⟨organizationId, projectId, serviceInstanceId⟩
  | .recordUsage organizationId projectId serviceInstanceId _ _ _ =>
    ⟨organizationId, projectId, serviceInstanceId⟩
  | .recordAudit audit => ⟨audit.organizationId, audit.projectId, audit.serviceInstanceId⟩

/-- the service a statement is about, as far as it names one -/
def Select.Concerns (scope : ServiceScope) : Select → Prop
  | .service serviceInstanceId => serviceInstanceId = scope.serviceInstanceId
  | .bucket serviceInstanceId => serviceInstanceId = scope.serviceInstanceId
  | .serviceExists organizationId projectId serviceInstanceId =>
    ⟨organizationId, projectId, serviceInstanceId⟩ = scope
  | .credentials serviceInstanceId => serviceInstanceId = scope.serviceInstanceId

/-- a call of the database is about this service -/
def Call.Concerns (scope : ServiceScope) : Call → Prop
  | .store call => call.scope = scope
  | .query (.select statement) => statement.Concerns scope
  | _ => True

section
variable {Key : Type}

/-- the request is signed for its route, and for this service -/
inductive Gateway.Authorises (gw : Gateway Key) (a : Arrival) : ServiceScope → Prop
  | token {action : String} {claims : TokenClaims} :
      (endpoint a.request).action? = some action → TokenSigned gw a action claims →
      gw.Authorises a claims.scope
  | context {permission : String} {principal : Principal} :
      (endpoint a.request).permission? = some permission → ContextSigned gw a principal →
      permission ∈ principal.permissions → gw.Authorises a principal.scope

section
variable {gw : Gateway Key} {a : Arrival}

theorem Gateway.Entitles.authorises {call : PrepareCall} (h : gw.Entitles a call) :
    gw.Authorises a call.operation.scope := by
  have hclaimed : ∀ {operation : OperationRequest} {claims : TokenClaims},
      operation.Claimed claims → operation.scope = claims.scope := by
    intro operation claims h
    rw [OperationRequest.scope, h.organizationId, h.projectId, h.serviceInstanceId]
    rfl
  have howned : ∀ {operation : OperationRequest} {principal : Principal} {action : String},
      operation.Owned a principal action → operation.scope = principal.scope := by
    intro operation principal action h
    rw [OperationRequest.scope, h.organizationId, h.projectId, h.serviceInstanceId]
  cases h with
  | reconcile hsigned hend _ _ _ hclaims _ _ _ =>
    rw [PrepareCall.operation, hclaimed hclaims]
    exact .token (by rw [hend]; rfl) hsigned
  | delete hsigned hend _ _ _ hclaims _ =>
    rw [PrepareCall.operation, hclaimed hclaims]
    exact .token (by rw [hend]; rfl) hsigned
  | createCredential hsigned hpermission hend _ howns _ _ _ =>
    rw [PrepareCall.operation, howned howns]
    exact .context (by rw [hend]; rfl) hsigned hpermission
  | revokeCredential hsigned hpermission hend _ howns =>
    rw [PrepareCall.operation, howned howns]
    exact .context (by rw [hend]; rfl) hsigned hpermission

theorem reading_authorised {r : ReadRequest} {log : CallLog} {e : Call}
    (hr : gw.receive a = .ok (.read r)) (h : Reading r log e) :
    ∃ scope, gw.Authorises a scope ∧ e.Concerns scope := by
  obtain ⟨principal, hauth, hconsults⟩ := h
  obtain ⟨hend, hsigned, hpermission⟩ := receive_reads hr hauth
  refine ⟨principal.scope, .context (by rw [hend]; rfl) hsigned hpermission, ?_⟩
  cases hconsults with
  | service => rfl
  | bucketRow _ => rfl
  | found => rfl
  | rows => rfl
  | usage _ => rfl
  | audit => rfl
  | bucket _ _ => trivial
  | utcNow => trivial
  | newUuid => trivial

/-- a call of the store is about the operation that was prepared -/
theorem may_scope {r : Request} {log : CallLog} {call : StoreCall} (h : May r log (.store call)) :
    ∃ prepare : PrepareCall, call.scope = prepare.operation.scope ∧
      (call = .prepare prepare ∨ ∃ (o : Uuid) (context : prepare.Context),
        Granted log prepare o context) := by
  cases h with
  | prepare => exact ⟨_, rfl, .inl rfl⟩
  | renew hg => exact ⟨_, rfl, .inr ⟨_, _, hg⟩⟩
  | finish hcompletes =>
    obtain ⟨prepare, context, hg, hop⟩ := hcompletes.granted
    exact ⟨prepare, congrArg OperationRequest.scope hop.symm, .inr ⟨_, context, hg⟩⟩

/-- and its queries are about no service -/
theorem May.query_concerns {r : Request} {log : CallLog} {q : Query} {scope : ServiceScope}
    (h : May r log (.query q)) : (Call.query q).Concerns scope := by
  cases h <;> trivial

/-- a handler that asks for anything has a command -/
def Commanded (state : AppState) (r : Request) (_ : CallLog) (_ : Call) : Prop :=
  ∃ call, r.prepareCall state = .ok call

theorem handle_commanded (state : AppState) (r : Request) :
    (handle state r).Obeys (Commanded state r) (fun _ _ => True) [] := by
  cases hcall : r.prepareCall state with
  | error e =>
    rw [handle_refused hcall]
    trivial
  | ok call =>
    exact (handle_obeys state r).allowing fun _ _ _ => ⟨call, hcall⟩

end

section
variable {gw : Gateway Key} {store : PgStore} {behaviour : GarageBehaviour} {garage : Garage}
  {tr : List ServerEvent} {s : Server}

theorem Gateway.Lifts.commanded {a : Arrival} {log : CallLog} {e : Call} {r : Request}
    (h : gw.Lifts (Commanded gw.state) a log e) (hr : gw.receive a = .ok (.mutation r)) :
    ∃ call, r.prepareCall gw.state = .ok call := by
  rcases h with ⟨r', hr', hcall⟩ | ⟨r', hr', -⟩ | ⟨hr', -⟩
  · rw [hr] at hr'
    cases hr'
    exact hcall
  · rw [hr] at hr'
    cases hr'
  · rw [hr] at hr'
    cases hr'

/-- **Every entry of the registry was signed for.**  Whatever requests arrive, an entry that their
handlers make in the registry is the operation that one of them spells out: a reconciliation or a
deletion under the id of a token that a trusted key has signed for this action, this service and
this generation, or the issue or revocation of a credential under the key in the header, on the
service of a context that was signed with the secret and has the permission. -/
theorem entries_authorised (h : Run (ServerStep store behaviour gw) (.start garage) tr s)
    (entry : Registry.Entry) (hentry : entry ∈ tr.filterMap entryOf) :
    ∃ a call, .spawn a ∈ tr ∧ gw.Entitles a call ∧
      entry.key = call.operation.idempotencyKey ∧ call.Asks entry.op := by
  obtain ⟨i, finish, hev, hsome⟩ := entry_event hentry
  obtain ⟨t, ht, hlog⟩ := Pool.run_recorded h i _ _ hev
  have hmem := List.mem_of_getElem? ht
  obtain ⟨l, hl, hmay⟩ := Pool.run_allowed h rfl (serve_may gw) t hmem _ hlog
  obtain ⟨-, -, hcompletes⟩ := hmay.completes
  obtain ⟨call, hprepared, hkey, hasks⟩ := entry_asks hsome
  obtain ⟨context, hgranted⟩ := hcompletes.prepared hprepared
  obtain ⟨l', -, hhonest⟩ := Pool.run_allowed h rfl (serve_honest gw) t hmem _ (hl.subset hgranted)
  obtain ⟨r, hreceive, hcall⟩ := hhonest.prepares
  exact ⟨t.request, call, (Pool.run_logged h rfl t hmem).1, receive_entitles hreceive hcall, hkey,
    hasks⟩

/-- the two entries of the script, each of them entitled to -/
theorem entries_authorised_visited :
    ∃ tr s, Server.play PgStore.reference Sample.gateway Sample.visited (.start .empty) =
        some (tr, s) ∧
      (tr.filterMap entryOf).map Registry.Entry.key = [100, 101] ∧
      ∀ entry ∈ tr.filterMap entryOf, ∃ a call, .spawn a ∈ tr ∧ Sample.gateway.Entitles a call ∧
        entry.key = call.operation.idempotencyKey ∧ call.Asks entry.op := by
  obtain ⟨tr, s, hplay, hkeys, -⟩ := Sample.visited_outcome
  exact ⟨tr, s, hplay, hkeys,
    fun entry hentry => entries_authorised (Server.play_run hplay) entry hentry⟩

/-- **Every call is made for a signed request, but for the probes.**  A call of the database or of
Garage is made for a request that arrived.  Either its token or context is signed for its route, and
a call of the database is about the service that is named there; or the request is for
`/health/ready`, which takes no credentials, and the call is one of the two probes. -/
theorem calls_authorised (h : Run (ServerStep store behaviour gw) (.start garage) tr s) (i : Nat)
    (e : Call) (answer : e.Answer) (hev : .act i e answer ∈ tr) :
    ∃ t, s.threads[i]? = some t ∧ .spawn t.request ∈ tr ∧
      ((∃ scope, gw.Authorises t.request scope ∧ e.Concerns scope) ∨
        endpoint t.request.request = .ready ∧ Probes e) := by
  obtain ⟨t, ht, hlog⟩ := Pool.run_recorded h i _ _ hev
  have hmem := List.mem_of_getElem? ht
  refine ⟨t, ht, (Pool.run_logged h rfl t hmem).1, ?_⟩
  obtain ⟨l, hl, hmay⟩ := Pool.run_allowed h rfl (serve_may gw) t hmem _ hlog
  rcases hmay with ⟨r, hreceive, hmay⟩ | ⟨r, hreceive, hreading⟩ | ⟨hreceive, hprobes⟩
  · have hprepares : ∀ prepare answer, ⟨.store (.prepare prepare), answer⟩ ∈ t.log →
        r.prepareCall gw.state = .ok prepare := by
      intro prepare answer hprepare
      obtain ⟨_, -, hhonest⟩ := Pool.run_allowed h rfl (serve_honest gw) t hmem _ hprepare
      obtain ⟨r', hr', hcall⟩ := hhonest.prepares
      rw [hreceive] at hr'
      cases hr'
      exact hcall
    obtain ⟨_, -, hcommanded⟩ := Pool.run_allowed h rfl
      (serve_obeys (handle_commanded gw.state)) t hmem _ hlog
    obtain ⟨call, hcall⟩ := hcommanded.commanded hreceive
    refine .inl ⟨call.operation.scope, (receive_entitles hreceive hcall).authorises, ?_⟩
    cases e with
    | garage _ => trivial
    | query q => exact hmay.query_concerns
    | store storeCall =>
      obtain ⟨prepare, hscope, hfound⟩ := may_scope hmay
      have hsame : r.prepareCall gw.state = .ok prepare := by
        rcases hfound with rfl | ⟨o, context, hg⟩
        · exact hprepares prepare _ hlog
        · exact hprepares prepare _ (hl.subset hg)
      exact hscope.trans (by rw [Except.ok.inj (hsame.symm.trans hcall)])
  · exact .inl (reading_authorised hreceive hreading)
  · exact .inr ⟨receive_ready hreceive, hprobes⟩

/-- a call of the request that creates the credential, and a probe for a request without any -/
theorem calls_authorised_visited :
    ∃ tr s, Server.play PgStore.reference Sample.gateway Sample.visited (.start .empty) =
        some (tr, s) ∧
      ∀ i ∈ [2, 4], ∃ e answer, .act i e answer ∈ tr ∧
        ∃ t, s.threads[i]? = some t ∧ .spawn t.request ∈ tr ∧
          ((∃ scope, Sample.gateway.Authorises t.request scope ∧ e.Concerns scope) ∨
            endpoint t.request.request = .ready ∧ Probes e) := by
  obtain ⟨tr, s, hplay, -, hlogs, -⟩ := Sample.visited_outcome
  have hrun := Server.play_run hplay
  refine ⟨tr, s, hplay, fun i hi => ?_⟩
  obtain ⟨t, ht, hne⟩ := hlogs i hi
  obtain ⟨x, hx⟩ := List.exists_mem_of_ne_nil _ hne
  obtain ⟨s₁, ⟨tr₁, tr₂, htr, -⟩, -, -⟩ := Pool.run_passes hrun rfl ht hx
  have hev : .act i x.1 x.2 ∈ tr := by
    rw [htr]
    exact List.mem_append_right _ List.mem_cons_self
  exact ⟨x.1, x.2, hev, calls_authorised hrun i x.1 x.2 hev⟩

end

end

end Syouyu
