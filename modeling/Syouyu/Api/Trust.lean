import Syouyu.Api.Router
import Syouyu.Api.Binding

/-!
# Who stands behind a request

What the router has checked of a request by the time a handler makes its first call.

* `TokenSigned`       a trusted provider key has signed the claims, for this action;
* `ContextSigned`     the holder of the secret has signed the context of the principal;
* `Gateway.Entitles`  the operation is the one that was signed for, with what the body asks for;
* `receive_entitles`, `receive_reads`   **a request that gets to a handler is entitled to what the
                      handler asks for**.
-/

set_option linter.unusedSectionVars false

namespace Syouyu
open Lib

section
variable {Key : Type}

/-- the claims stand in a token that a trusted key has signed, and are for the action -/
structure TokenSigned (gw : Gateway Key) (a : Arrival) (action : String) (claims : TokenClaims) :
    Prop where
  signed : ∃ token header kid key, bearerToken a.request.headers = .ok token ∧
    gw.jwt.decodeHeader token = some header ∧ header.alg = .edDsa ∧ header.kid = some kid ∧
    gw.providerAuth.keys.lookup kid = some key ∧
    gw.jwt.decode token key gw.providerAuth.validation a.decodedAt = some claims
  action : claims.action = action
  generation : 0 < claims.generation
  subject : claims.subject.isNil = false
  jwtId : claims.jwtId.isNil = false
  scope : claims.scope.validate = .ok ()

/-- the principal stands in a context that was signed with the secret, for this service -/
structure ContextSigned (gw : Gateway Key) (a : Arrival) (principal : Principal) : Prop where
  signed : ∃ encoded timestamp signature mac serialized signed,
    a.request.headers.principal = some (some encoded) ∧
    a.request.headers.timestamp = some (some timestamp) ∧
    a.request.headers.signature = some (some signature) ∧
    gw.crates.hmac gw.principalAuth.secret (asBytes timestamp ++ asBytes "." ++ asBytes encoded) =
      some mac ∧
    gw.crates.base64Decode signature = some mac ∧
    gw.crates.base64Decode encoded = some serialized ∧
    gw.crates.fromSlice serialized = some signed ∧
    signed.issuer = gw.principalAuth.issuer ∧ signed.audience = gw.principalAuth.audience ∧
    principal = ⟨signed.scope, signed.principalId, signed.permissions, signed.credentialLimits,
      signed.contextId⟩
  scope : principal.scope.validate = .ok ()

/-! ## inversion of the authenticators -/

section
variable {gw : Gateway Key} {a : Arrival}

theorem eq_ok_of_isOk {ε : Type} {x : Except ε Unit} (h : x.isOk = true) : x = .ok () := by
  cases x with
  | ok u => rfl
  | error e => cases h

theorem checkClaims_facts {provider : ProviderAuthenticator Key} {claims claims' : TokenClaims}
    {action : String} {now : Int64} (h : provider.checkClaims claims action now = .ok claims') :
    claims' = claims ∧ claims.action = action ∧ 0 < claims.generation ∧
      claims.subject.isNil = false ∧ claims.jwtId.isNil = false ∧ claims.scope.validate = .ok () := by
  unfold ProviderAuthenticator.checkClaims at h
  split_ifs at h with hcommand hids
  obtain rfl := Except.ok.inj h
  simp only [not_or, not_not, Int64.not_le] at hcommand
  simp only [Bool.or_eq_true, not_or, Bool.not_eq_true, Bool.not_eq_false'] at hids
  exact ⟨rfl, hcommand.1, hcommand.2, hids.1.1, hids.1.2, eq_ok_of_isOk (by simpa using hids.2)⟩

/-- **an accepted token was signed** -/
theorem authenticateHeaders_signed {action : String} {claims : TokenClaims}
    (h : gw.authenticateHeadersForAction a action = .ok claims) : TokenSigned gw a action claims := by
  obtain ⟨token, htoken, h⟩ := except_bind_eq_ok.mp h
  unfold ProviderAuthenticator.verifyTokenForAction at h
  split at h
  · cases h
  · obtain ⟨header, hheader, h⟩ := except_bind_eq_ok.mp h
    split at h
    · cases h
    · rename_i halg
      obtain ⟨kid, hkid, h⟩ := except_bind_eq_ok.mp h
      obtain ⟨key, hkey, h⟩ := except_bind_eq_ok.mp h
      obtain ⟨claims', hdecode, h⟩ := except_bind_eq_ok.mp h
      obtain ⟨rfl, haction, hgeneration, hsubject, hjwtId, hscope⟩ := checkClaims_facts h
      exact ⟨⟨token, header, kid, key, htoken, okOr_eq_ok.mp hheader, not_not.mp halg,
        okOr_eq_ok.mp hkid, okOr_eq_ok.mp hkey, okOr_eq_ok.mp hdecode⟩, haction, hgeneration,
        hsubject, hjwtId, hscope⟩

theorem requiredHeader_eq_ok {header : Option (Option String)} {text : String}
    (h : requiredHeader header = .ok text) : header = some (some text) := by
  unfold requiredHeader at h
  split at h
  · cases h
  · cases h
  · exact congrArg _ (congrArg _ (Except.ok.inj h))

theorem signedPrincipal_eq_ok {crates : PrincipalCrates} {self : PrincipalAuthenticator}
    {headers : PrincipalHeaders} {signed : SignedPrincipal}
    (h : self.signedPrincipal crates headers = .ok signed) :
    ∃ encoded timestamp signature mac serialized, headers.principal = some (some encoded) ∧
      headers.timestamp = some (some timestamp) ∧ headers.signature = some (some signature) ∧
      crates.hmac self.secret (asBytes timestamp ++ asBytes "." ++ asBytes encoded) = some mac ∧
      crates.base64Decode signature = some mac ∧ crates.base64Decode encoded = some serialized ∧
      crates.fromSlice serialized = some signed ∧
      signed.issuer = self.issuer ∧ signed.audience = self.audience := by
  obtain ⟨encoded, hencoded, h⟩ := except_bind_eq_ok.mp h
  obtain ⟨timestamp, htimestamp, h⟩ := except_bind_eq_ok.mp h
  obtain ⟨signature, hsignature, h⟩ := except_bind_eq_ok.mp h
  obtain ⟨signedAt, -, h⟩ := except_bind_eq_ok.mp h
  obtain ⟨mac, hmac, h⟩ := except_bind_eq_ok.mp h
  obtain ⟨decoded, hdecoded, h⟩ := except_bind_eq_ok.mp h
  split at h
  · cases h
  · rename_i hmatches
    have hmatches : decoded = mac := not_not.mp hmatches
    obtain ⟨serialized, hserialized, h⟩ := except_bind_eq_ok.mp h
    obtain ⟨context, hcontext, h⟩ := except_bind_eq_ok.mp h
    split at h
    · cases h
    · rename_i hnames
      obtain rfl := Except.ok.inj h
      simp only [not_or, not_not] at hnames
      exact ⟨encoded, timestamp, signature, mac, serialized, requiredHeader_eq_ok hencoded,
        requiredHeader_eq_ok htimestamp, requiredHeader_eq_ok hsignature, okOr_eq_ok.mp hmac,
        hmatches ▸ okOr_eq_ok.mp hdecoded, okOr_eq_ok.mp hserialized, okOr_eq_ok.mp hcontext, hnames.2.1,
        hnames.2.2⟩

theorem acceptContext_fields {crates : PrincipalCrates} {self : PrincipalAuthenticator}
    {signed : SignedPrincipal} {now : Int64} {principal : AuthenticatedPrincipal}
    (h : self.acceptContext crates signed now = .ok principal) :
    principal.toPrincipal = ⟨signed.scope, signed.principalId, signed.permissions,
      signed.credentialLimits, signed.contextId⟩ ∧ signed.scope.validate = .ok () := by
  unfold PrincipalAuthenticator.acceptContext at h
  split at h
  · cases h
  · dsimp only at h
    split at h
    · cases h
    · obtain ⟨u, hscope, h⟩ := except_bind_eq_ok.mp h
      split at h
      · cases h
      · obtain ⟨issuedAt, -, h⟩ := except_bind_eq_ok.mp h
        obtain ⟨expiresAt, -, h⟩ := except_bind_eq_ok.mp h
        obtain rfl := Except.ok.inj h
        refine ⟨rfl, ?_⟩
        cases hv : signed.scope.validate with
        | ok u => rfl
        | error e =>
          rw [hv] at hscope
          cases hscope

/-- **an accepted context was signed** -/
theorem principal_signed {principal : Principal} (h : gw.principal a = .ok principal) :
    ContextSigned gw a principal := by
  unfold Gateway.principal at h
  split at h
  · rename_i result hresult
    cases result with
    | error e => cases h
    | ok authenticated =>
      obtain rfl := Except.ok.inj h
      unfold PrincipalAuthenticator.authenticate at hresult
      split at hresult
      · cases hresult
      · rename_i signed hsigned
        obtain ⟨refused, hrefused, -⟩ := gw.principalAuth.lifetimeRefused_total signed
        rw [hrefused] at hresult
        cases refused with
        | true => cases hresult
        | false =>
          obtain ⟨hfields, hscope⟩ := acceptContext_fields (Option.some.inj hresult)
          obtain ⟨encoded, timestamp, signature, mac, serialized, h₁, h₂, h₃, h₄, h₅, h₆, h₇, h₈, h₉⟩ :=
            signedPrincipal_eq_ok hsigned
          rw [hfields]
          exact ⟨⟨encoded, timestamp, signature, mac, serialized, signed, h₁, h₂, h₃, h₄, h₅, h₆, h₇,
            h₈, h₉, rfl⟩, hscope⟩
  · cases h

end

/-! ## what a request is entitled to -/

/-- the operation is what the claims of a token say -/
structure OperationRequest.Claimed (operation : OperationRequest) (claims : TokenClaims) : Prop where
  idempotencyKey : operation.idempotencyKey = claims.jwtId
  organizationId : operation.organizationId = claims.organizationId
  projectId : operation.projectId = claims.projectId
  serviceInstanceId : operation.serviceInstanceId = claims.serviceInstanceId
  principalId : operation.principalId = claims.subject
  action : operation.action = claims.action
  generation : operation.generation = some claims.generation

/-- the operation is one of the principal on its service, under the key of the header -/
structure OperationRequest.Owned (operation : OperationRequest) (a : Arrival)
    (principal : Principal) (action : String) : Prop where
  idempotencyKey : a.request.headers.idempotencyKey =
    some (some operation.idempotencyKey.toString)
  organizationId : operation.organizationId = principal.scope.organizationId
  projectId : operation.projectId = principal.scope.projectId
  serviceInstanceId : operation.serviceInstanceId = principal.scope.serviceInstanceId
  principalId : operation.principalId = principal.principalId
  action : operation.action = action
  generation : operation.generation = none

/-- **the operation was signed for, and is the one the request spells out** -/
inductive Gateway.Entitles (gw : Gateway Key) (a : Arrival) : PrepareCall → Prop
  | reconcile {claims : TokenClaims} {segment : String} {request : ReconcileRequest}
      {command : ReconcileCommand} :
      TokenSigned gw a providerReconcileAction claims →
      endpoint a.request = .reconcileServiceInstance segment →
      gw.extractors.pathUuid segment = .ok claims.serviceInstanceId →
      gw.extractors.reconcileJson a.request = .ok request → request.generation = claims.generation →
      command.operation.Claimed claims → command.name = request.name →
      command.generation = request.generation → command.spec = request.spec →
      gw.Entitles a (.reconcile command)
  | delete {claims : TokenClaims} {segment : String} {query : DeleteQuery}
      {command : DeleteCommand} :
      TokenSigned gw a providerDeleteAction claims →
      endpoint a.request = .deleteServiceInstance segment →
      gw.extractors.pathUuid segment = .ok claims.serviceInstanceId →
      gw.extractors.deleteQuery a.request = .ok query → query.generation = claims.generation →
      command.operation.Claimed claims → command.generation = query.generation →
      gw.Entitles a (.delete command)
  | createCredential {principal : Principal} {request : CreateCredentialRequest}
      {command : CreateCredentialCommand} :
      ContextSigned gw a principal → credentialCreatePermission ∈ principal.permissions →
      endpoint a.request = .createCredential → gw.extractors.createJson a.request = .ok request →
      command.operation.Owned a principal credentialCreateAction → command.name = request.name →
      command.permissions = request.permissions →
      command.credentialLimits = principal.credentialLimits →
      gw.Entitles a (.createCredential command)
  | revokeCredential {principal : Principal} {segment : String}
      {command : RevokeCredentialCommand} :
      ContextSigned gw a principal → credentialRevokePermission ∈ principal.permissions →
      endpoint a.request = .revokeCredential segment →
      gw.extractors.pathUuid segment = .ok command.credentialId →
      command.operation.Owned a principal credentialRevokeAction →
      gw.Entitles a (.revokeCredential command)

section
variable {gw : Gateway Key} {a : Arrival}

/-- what `authorize` lets through -/
theorem authorize_admitted {principal : Except PrincipalAuthError Principal} {permission : String}
    {authorized : Principal} (h : authorize principal permission = .ok authorized) :
    principal = .ok authorized ∧ permission ∈ authorized.permissions := by
  obtain ⟨p, hp, h⟩ := except_bind_eq_ok.mp h
  split at h
  · rename_i hcontains
    obtain rfl := Except.ok.inj h
    cases principal with
    | error e => cases hp
    | ok q =>
      obtain rfl := Except.ok.inj hp
      exact ⟨rfl, List.contains_iff_mem.mp hcontains⟩
  · cases h

/-- what a provider's request carries, once the handler has its claims -/
theorem providerClaims_signed {action : String} {s : Uuid} {generation : Int64}
    {claims : ProviderClaims}
    (h : providerClaims (gw.claims a action) s generation a.headers = .ok claims) :
    ∃ token, TokenSigned gw a action token ∧ claims = token.toProviderClaims ∧
      token.serviceInstanceId = s ∧ token.generation = generation := by
  obtain ⟨c, hc, h⟩ := except_bind_eq_ok.mp h
  obtain ⟨u, -, h⟩ := except_bind_eq_ok.mp h
  split at h
  · cases h
  · rename_i hsame
    obtain rfl := Except.ok.inj h
    simp only [not_or, not_not] at hsame
    unfold Gateway.claims at hc
    cases htoken : gw.authenticateHeadersForAction a action with
    | error e =>
      rw [htoken] at hc
      cases hc
    | ok token =>
      rw [htoken] at hc
      obtain rfl := Except.ok.inj hc
      exact ⟨token, authenticateHeaders_signed htoken, rfl, hsame.1, hsame.2⟩

theorem publicIdempotencyKey_eq_ok {state : AppState} {headers : Headers} {key : Uuid}
    (h : publicIdempotencyKey state headers = .ok key) :
    headers.idempotencyKey = some (some key.toString) := by
  unfold publicIdempotencyKey at h
  split at h
  · cases h
  · cases h
  · rename_i value hvalue
    split at h
    · cases h
    · split at h
      · cases h
      · rename_i hsame
        obtain rfl := Except.ok.inj h
        rw [hvalue, not_not.mp hsame]

theorem claimed_operation {token : TokenClaims} {action : String} {hash : Hash}
    (haction : token.action = action) :
    (providerOperation token.toProviderClaims token.serviceInstanceId action token.generation
      hash).Claimed token :=
  ⟨rfl, rfl, rfl, rfl, rfl, haction.symm, rfl⟩

theorem owned_operation {principal : Principal} {key : Uuid} {action : String} {hash : Hash}
    {state : AppState} (hkey : publicIdempotencyKey state a.headers = .ok key) :
    (principalOperation principal key action hash).Owned a principal action :=
  ⟨publicIdempotencyKey_eq_ok hkey, rfl, rfl, rfl, rfl, rfl, rfl⟩

/-- what the router makes of a request that is for a handler of the four -/
inductive Gateway.Parsed (gw : Gateway Key) (a : Arrival) : Request → Prop
  | reconcile {segment : String} {s : Uuid} {request : ReconcileRequest} :
      endpoint a.request = .reconcileServiceInstance segment →
      gw.extractors.pathUuid segment = .ok s → gw.extractors.reconcileJson a.request = .ok request →
      gw.Parsed a (.reconcile (gw.claims a providerReconcileAction) s a.headers request)
  | delete {segment : String} {s : Uuid} {query : DeleteQuery} :
      endpoint a.request = .deleteServiceInstance segment →
      gw.extractors.pathUuid segment = .ok s → gw.extractors.deleteQuery a.request = .ok query →
      gw.Parsed a (.delete (gw.claims a providerDeleteAction) s query a.headers)
  | createCredential {request : CreateCredentialRequest} :
      endpoint a.request = .createCredential → gw.extractors.createJson a.request = .ok request →
      gw.Parsed a (.createCredential (gw.principal a) a.headers request)
  | revokeCredential {segment : String} {id : Uuid} :
      endpoint a.request = .revokeCredential segment → gw.extractors.pathUuid segment = .ok id →
      gw.Parsed a (.revokeCredential (gw.principal a) id a.headers)

theorem receive_parsed {r : Request} (h : gw.receive a = .ok (.mutation r)) : gw.Parsed a r := by
  unfold Gateway.receive at h
  cases hend : endpoint a.request with
  | reconcileServiceInstance segment =>
    rw [hend] at h
    obtain ⟨s, hs, h⟩ := except_bind_eq_ok.mp h
    obtain ⟨request, hrequest, h⟩ := except_bind_eq_ok.mp h
    cases h
    exact .reconcile hend (mapError_eq_ok.mp hs) (mapError_eq_ok.mp hrequest)
  | deleteServiceInstance segment =>
    rw [hend] at h
    obtain ⟨s, hs, h⟩ := except_bind_eq_ok.mp h
    obtain ⟨query, hquery, h⟩ := except_bind_eq_ok.mp h
    cases h
    exact .delete hend (mapError_eq_ok.mp hs) (mapError_eq_ok.mp hquery)
  | createCredential =>
    rw [hend] at h
    obtain ⟨request, hrequest, h⟩ := except_bind_eq_ok.mp h
    cases h
    exact .createCredential hend (mapError_eq_ok.mp hrequest)
  | revokeCredential segment =>
    rw [hend] at h
    obtain ⟨id, hid, h⟩ := except_bind_eq_ok.mp h
    cases h
    exact .revokeCredential hend (mapError_eq_ok.mp hid)
  | _ =>
    rw [hend] at h
    cases h

/-- **a request that gets to a handler is entitled to what the handler asks for** -/
theorem receive_entitles {r : Request} {call : PrepareCall} (h : gw.receive a = .ok (.mutation r))
    (hcall : r.prepareCall gw.state = .ok call) : gw.Entitles a call := by
  cases receive_parsed h with
  | reconcile hend hpath hjson =>
    obtain ⟨command, hcommand, rfl⟩ := except_map_eq_ok.mp hcall
    obtain ⟨claims, hclaims, hcommand⟩ := except_bind_eq_ok.mp hcommand
    obtain ⟨u, -, hcommand⟩ := except_bind_eq_ok.mp hcommand
    obtain ⟨token, hsigned, rfl, rfl, hgeneration⟩ := providerClaims_signed hclaims
    split at hcommand
    · cases hcommand
    · obtain rfl := Except.ok.inj hcommand
      refine .reconcile hsigned hend hpath hjson hgeneration.symm ?_ rfl rfl rfl
      rw [← hgeneration]
      exact claimed_operation hsigned.action
  | delete hend hpath hquery =>
    obtain ⟨command, hcommand, rfl⟩ := except_map_eq_ok.mp hcall
    obtain ⟨claims, hclaims, hcommand⟩ := except_bind_eq_ok.mp hcommand
    obtain ⟨token, hsigned, rfl, rfl, hgeneration⟩ := providerClaims_signed hclaims
    obtain rfl := Except.ok.inj hcommand
    refine .delete hsigned hend hpath hquery hgeneration.symm ?_ rfl
    rw [← hgeneration]
    exact claimed_operation hsigned.action
  | createCredential hend hjson =>
    obtain ⟨principal, hauth, hcall⟩ := except_bind_eq_ok.mp hcall
    obtain ⟨command, hcommand, rfl⟩ := except_map_eq_ok.mp hcall
    obtain ⟨u, -, hcommand⟩ := except_bind_eq_ok.mp hcommand
    obtain ⟨key, hkey, hcommand⟩ := except_bind_eq_ok.mp hcommand
    obtain rfl := Except.ok.inj hcommand
    obtain ⟨hprincipal, hpermission⟩ := authorize_admitted hauth
    exact .createCredential (principal_signed hprincipal) hpermission hend hjson
      (owned_operation hkey) rfl rfl rfl
  | revokeCredential hend hpath =>
    obtain ⟨principal, hauth, hcall⟩ := except_bind_eq_ok.mp hcall
    obtain ⟨command, hcommand, rfl⟩ := except_map_eq_ok.mp hcall
    obtain ⟨key, hkey, hcommand⟩ := except_bind_eq_ok.mp hcommand
    obtain rfl := Except.ok.inj hcommand
    obtain ⟨hprincipal, hpermission⟩ := authorize_admitted hauth
    exact .revokeCredential (principal_signed hprincipal) hpermission hend hpath
      (owned_operation hkey)

/-- the routes on which nothing is parsed -/
theorem receive_plain {served : Served} (h : gw.receive a = .ok served)
    (hnot : ∀ r, served ≠ .mutation r) :
    (∃ kind, endpoint a.request = .read kind ∧ served = .read ⟨kind, gw.principal a, a.headers⟩) ∨
      (endpoint a.request = .ready ∧ served = .ready) ∨ ∃ response, served = .fixed response := by
  unfold Gateway.receive at h
  cases hend : endpoint a.request with
  | read kind =>
    rw [hend] at h
    exact .inl ⟨kind, rfl, (Except.ok.inj h).symm⟩
  | ready =>
    rw [hend] at h
    exact .inr (.inl ⟨rfl, (Except.ok.inj h).symm⟩)
  | reconcileServiceInstance segment =>
    rw [hend] at h
    obtain ⟨s, -, h⟩ := except_bind_eq_ok.mp h
    obtain ⟨request, -, h⟩ := except_bind_eq_ok.mp h
    exact absurd (Except.ok.inj h).symm (hnot _)
  | deleteServiceInstance segment =>
    rw [hend] at h
    obtain ⟨s, -, h⟩ := except_bind_eq_ok.mp h
    obtain ⟨query, -, h⟩ := except_bind_eq_ok.mp h
    exact absurd (Except.ok.inj h).symm (hnot _)
  | createCredential =>
    rw [hend] at h
    obtain ⟨request, -, h⟩ := except_bind_eq_ok.mp h
    exact absurd (Except.ok.inj h).symm (hnot _)
  | revokeCredential segment =>
    rw [hend] at h
    obtain ⟨id, -, h⟩ := except_bind_eq_ok.mp h
    exact absurd (Except.ok.inj h).symm (hnot _)
  | live =>
    rw [hend] at h
    exact .inr (.inr ⟨_, (Except.ok.inj h).symm⟩)
  | metrics =>
    rw [hend] at h
    exact .inr (.inr ⟨_, (Except.ok.inj h).symm⟩)
  | docs =>
    rw [hend] at h
    exact .inr (.inr ⟨_, (Except.ok.inj h).symm⟩)
  | notFound =>
    rw [hend] at h
    cases h
  | methodNotAllowed =>
    rw [hend] at h
    cases h

/-- **and a read is one of a principal that may read** -/
theorem receive_reads {r : ReadRequest} {principal : Principal}
    (h : gw.receive a = .ok (.read r))
    (hauth : authorize r.principal r.read.permission = .ok principal) :
    endpoint a.request = .read r.read ∧ ContextSigned gw a principal ∧
      r.read.permission ∈ principal.permissions := by
  rcases receive_plain h (fun _ heq => by cases heq) with ⟨kind, hend, heq⟩ | ⟨-, heq⟩ | ⟨_, heq⟩
  · obtain rfl := Served.read.inj heq
    obtain ⟨hprincipal, hpermission⟩ := authorize_admitted hauth
    exact ⟨hend, principal_signed hprincipal, hpermission⟩
  · cases heq
  · cases heq

theorem receive_ready (h : gw.receive a = .ok .ready) : endpoint a.request = .ready := by
  rcases receive_plain h (fun _ heq => by cases heq) with ⟨_, -, heq⟩ | ⟨hend, -⟩ | ⟨_, heq⟩
  · cases heq
  · exact hend
  · cases heq

end

end

end Syouyu
