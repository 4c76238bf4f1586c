import Syouyu.Api.Auth
import Syouyu.Api.Reads

/-!
# The routes

`router` of the crate `syouyu-api`: which handler a request is for, what the extractors make of its
path, query and body, and what the two authenticators make of its headers.  A request that is
malformed, or for no route, is answered before anything else is looked at.

* `endpoint`          the route of a request;
* `Gateway`           the state of the router, and the crates it uses;
* `Gateway.receive`   the handler and its arguments;
* `Gateway.serve`     the program that answers a request.
-/

namespace Syouyu
open Lib

/-! ## requests -/

inductive Method where
  | get
  | head
  | post
  | put
  | delete
  | other (name : String)
  deriving DecidableEq, Repr

/-- the headers that are read; a value that is not visible ASCII is there but has no text -/
structure HttpHeaders where
  authorization : Option (Option String)
  idempotencyKey : Option (Option String)
  requestId : Option (Option String)
  principal : Option (Option String)
  timestamp : Option (Option String)
  signature : Option (Option String)
  contentType : Option (Option String)

structure HttpRequest where
  method : Method
  /-- what stands between the slashes -/
  path : List String
  query : Option String
  headers : HttpHeaders
  body : List UInt8

/-- A request with what its handler finds on arrival: the id that the layer in front of the router
draws, and what the decoder's clock and `Utc::now` show. -/
structure Arrival where
  request : HttpRequest
  drawn : Uuid
  decodedAt : Int
  now : Int64

/-- `SetRequestIdLayer` -/
def Arrival.headers (a : Arrival) : Headers where
  idempotencyKey := a.request.headers.idempotencyKey
  requestId := some (a.request.headers.requestId.getD (some a.drawn.toString))

def HttpHeaders.principalHeaders (headers : HttpHeaders) : PrincipalHeaders :=
  ⟨headers.principal, headers.timestamp, headers.signature⟩

/-! ## routes -/

inductive Endpoint where
  | live
  | ready
  | metrics
  | reconcileServiceInstance (serviceInstanceId : String)
  | deleteServiceInstance (serviceInstanceId : String)
  | read (read : Read)
  | createCredential
  | revokeCredential (credentialId : String)
  | docs
  | notFound
  | methodNotAllowed
  deriving DecidableEq, Repr

/-- a route of `get` also answers `HEAD` -/
def Method.onGet (method : Method) (found : Endpoint) : Endpoint :=
  match method with
  | .get => found
  | .head => found
  | _ => .methodNotAllowed

/-- a segment that a route captures is not empty -/
def captured (segment : String) (found : Endpoint) : Endpoint :=
  if segment.isEmpty then .notFound else found

def endpoint (request : HttpRequest) : Endpoint :=
  let method := request.method
  match request.path with
  | ["health", "live"] => method.onGet .live
  | ["health", "ready"] => method.onGet .ready
  | ["metrics"] => method.onGet .metrics
  | ["internal", "v1", "service-instances", segment] =>
    captured segment (match method with
      | .put => .reconcileServiceInstance segment
      | .delete => .deleteServiceInstance segment
      | _ => .methodNotAllowed)
  | ["v1", "service-overview"] => method.onGet (.read .overview)
  | ["v1", "usage"] => method.onGet (.read .usage)
  | ["v1", "credentials"] =>
    match method with
    | .post => .createCredential
    | method => method.onGet (.read .credentials)
  | ["v1", "credentials", segment] =>
    captured segment (match method with
      | .delete => .revokeCredential segment
      | _ => .methodNotAllowed)
  | "docs" :: _ => method.onGet .docs
  | ["openapi.json"] => method.onGet .docs
  | _ => .notFound

/-! ## the router -/

/-- the extractors of axum: a value, or the text of the rejection -/
structure Extractors where
  pathUuid : String → Except String Uuid
  deleteQuery : HttpRequest → Except String DeleteQuery
  reconcileJson : HttpRequest → Except String ReconcileRequest
  createJson : HttpRequest → Except String CreateCredentialRequest

structure Gateway (Key : Type) where
  state : AppState
  providerAuth : ProviderAuthenticator Key
  principalAuth : PrincipalAuthenticator
  jwt : Jsonwebtoken Key
  crates : PrincipalCrates
  extractors : Extractors
  /-- the pages of Swagger UI -/
  docs : HttpRequest → Response

/-- `StrictPath`, `StrictQuery` and `StrictJson` -/
def strict {α : Type} (extracted : Except String α) : Except ApiError α :=
  extracted.mapError .badRequest

def ApiError.methodNotAllowed : ApiError :=
  new 405 "method_not_allowed" "HTTP method is not allowed for this route"

def GarageAdapter.health : HandlerM GarageBackendError Unit := do
  let answer ← Prog.request (Call.query .clusterHealth)
  let health : ClusterHealth ← Prog.ofExcept GarageBackendError.ofGarage answer
  if health.status = .unavailable ∨ health.storageNodesUp = 0 ∨
      health.partitionsQuorum < health.partitions then
    Prog.throw (.unavailable "Garage does not currently have write quorum")
  else pure ()

def live : Response := jsonResponse (.object [("status", .string "ok")])

/-- the one handler that calls the database and Garage for anybody -/
def ready : HandlerM ApiError Response := do
  let answer ← Prog.request (Call.query .storeHealth)
  let _ : Unit ← Prog.ofExcept ApiError.ofStore answer
  GarageAdapter.health.mapError ApiError.ofBackend
  pure (jsonResponse (.object [("status", .string "ready")]))

/-- a body that is a text is written as a string -/
def metrics : Response where
  status := 200
  body := .string ("# HELP syouyu_api_up Whether the Syouyu API process is running.\n" ++
    "# TYPE syouyu_api_up gauge\nsyouyu_api_up 1\n")
  headers := [("content-type", "text/plain; version=0.0.4; charset=utf-8")]

/-- `str::strip_prefix` -/
def stripLeading (start text : String) : Option String :=
  if start.toList.isPrefixOf text.toList then some (String.ofList (text.toList.drop start.toList.length))
  else none

def bearerToken (headers : HttpHeaders) : Except AuthError String :=
  match headers.authorization with
  | none => .error .missingCredentials
  | some none => .error .invalidHeader
  | some (some value) =>
    okOr ((stripLeading "Bearer " value).filter fun token => !token.isEmpty) .invalidHeader

/-- what the router does with a request -/
inductive Served where
  | mutation (request : Request)
  | read (request : ReadRequest)
  | ready
  | fixed (response : Response)

namespace Gateway
variable {Key : Type} (gw : Gateway Key)

def authenticateHeadersForAction (a : Arrival) (action : String) : Except AuthError TokenClaims := do
  let token ← bearerToken a.request.headers
  gw.providerAuth.verifyTokenForAction gw.jwt token action a.decodedAt a.now

def claims (a : Arrival) (action : String) : Except AuthError ProviderClaims :=
  (gw.authenticateHeadersForAction a action).map TokenClaims.toProviderClaims

/-- the authenticator does not panic (`PrincipalAuthenticator.authenticate_ne_none`), so that the
last case is not met -/
def principal (a : Arrival) : Except PrincipalAuthError Principal :=
  match gw.principalAuth.authenticate gw.crates a.request.headers.principalHeaders a.now with
  | some result => result.map AuthenticatedPrincipal.toPrincipal
  | none => .error .invalidLifetime

def receive (a : Arrival) : Except ApiError Served :=
  match endpoint a.request with
  | .live => .ok (.fixed live)
  | .ready => .ok .ready
  | .metrics => .ok (.fixed metrics)
  | .docs => .ok (.fixed (gw.docs a.request))
  | .reconcileServiceInstance segment => do
    let serviceInstanceId ← strict (gw.extractors.pathUuid segment)
    let request ← strict (gw.extractors.reconcileJson a.request)
    pure (.mutation (.reconcile (gw.claims a providerReconcileAction) serviceInstanceId a.headers
      request))
  | .deleteServiceInstance segment => do
    let serviceInstanceId ← strict (gw.extractors.pathUuid segment)
    let query ← strict (gw.extractors.deleteQuery a.request)
    pure (.mutation (.delete (gw.claims a providerDeleteAction) serviceInstanceId query a.headers))
  | .read read => .ok (.read ⟨read, gw.principal a, a.headers⟩)
  | .createCredential => do
    let request ← strict (gw.extractors.createJson a.request)
    pure (.mutation (.createCredential (gw.principal a) a.headers request))
  | .revokeCredential segment => do
    let credentialId ← strict (gw.extractors.pathUuid segment)
    pure (.mutation (.revokeCredential (gw.principal a) credentialId a.headers))
  | .notFound => .error .notFound
  | .methodNotAllowed => .error .methodNotAllowed

/-- the program that answers a request -/
def serve (a : Arrival) : HandlerM ApiError Response :=
  match gw.receive a with
  | .error error => Prog.throw error
  | .ok (.mutation request) => handle gw.state request
  | .ok (.read request) => handleRead gw.state request
  | .ok .ready => ready
  | .ok (.fixed response) => pure response

end Gateway

end Syouyu
