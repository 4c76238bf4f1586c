import Syouyu.Store.Models
import Syouyu.Garage.Client

/-!
# Errors and responses of the API

`error.rs` of the crate `syouyu-api`, and the errors it converts: each error of the store, of the
Garage adapter and of the two authenticators becomes one `ApiError` with a status, a code and a
text.

* `ApiError.ofStore`, `ApiError.ofBackend`   the conversions;
* `ApiError.storedResponse`   the envelope that is kept in a receipt;
* `ApiError.intoResponse`     the envelope that is answered: the same status and body.
-/

namespace Syouyu

/-! ## texts of errors -/

/-- `Display` of `ValidationError` -/
def ValidationError.toString : ValidationError → String
  | .invalidLength field minimum maximum actual =>
    field ++ " length must be between " ++ ToString.toString minimum ++ " and " ++
      ToString.toString maximum ++ ", got " ++ ToString.toString actual
  | .outOfRange field minimum maximum actual =>
    field ++ " must be between " ++ ToString.toString minimum.toNat ++ " and " ++
      ToString.toString maximum.toNat ++ ", got " ++ ToString.toString actual.toNat
  | .invalidField field reason => field ++ " is invalid: " ++ reason
  | .invalidState reason => "invalid state: " ++ reason

/-- the errors of the provider authenticator -/
inductive AuthError where
  | missingCredentials
  | invalidHeader
  | invalidToken
  | missingKeyId
  | unknownKeyId
  | invalidProviderCommand
  | invalidProviderScope
  | invalidExpectedScope
  | scopeMismatch
  | tokenLifetimeExceeded
  | missingIdempotencyKey
  | invalidIdempotencyKey
  | idempotencyKeyMismatch
  | invalidConfiguration (message : String)
  deriving DecidableEq, Repr

def AuthError.toString : AuthError → String
  | .missingCredentials => "credentials are missing"
  | .invalidHeader => "credential header is invalid"
  | .invalidToken => "token is invalid or expired"
  | .missingKeyId => "provider token has no key ID"
  | .unknownKeyId => "provider token key ID is not trusted"
  | .invalidProviderCommand => "provider command claims are invalid"
  | .invalidProviderScope => "provider token contains an invalid scope"
  | .invalidExpectedScope => "expected request scope is invalid"
  | .scopeMismatch => "provider token scope does not match the request path"
  | .tokenLifetimeExceeded => "credential lifetime exceeds the service limit"
  | .missingIdempotencyKey => "idempotency key is missing"
  | .invalidIdempotencyKey => "idempotency key is not a canonical UUID"
  | .idempotencyKeyMismatch => "idempotency key does not match provider token jti"
  | .invalidConfiguration message => "invalid authentication configuration: " ++ message

/-- the errors of the principal authenticator -/
inductive PrincipalAuthError where
  | missingCredentials
  | invalidHeader
  | invalidSignature
  | invalidPrincipal
  | invalidLifetime
  | expired
  | permissionDenied
  | invalidConfiguration (message : String)
  deriving DecidableEq, Repr

def PrincipalAuthError.toString : PrincipalAuthError → String
  | .missingCredentials => "credentials are missing"
  | .invalidHeader => "credential header is invalid"
  | .invalidSignature => "principal signature is invalid"
  | .invalidPrincipal => "principal context is invalid"
  | .invalidLifetime => "principal context lifetime is invalid"
  | .expired => "principal context is expired"
  | .permissionDenied => "principal lacks the required permission"
  | .invalidConfiguration message => "invalid principal authentication configuration: " ++ message

/-! ## errors of the adapter -/

inductive GarageBackendError where
  | notFound (message : String)
  | unavailable (message : String)
  | conflict (message : String)
  | invalidResponse (message : String)
  deriving DecidableEq, Repr

/-- `From<GarageError>` -/
def GarageBackendError.ofGarage (error : GarageError) : GarageBackendError :=
  if error.isNotFound then .notFound error.toString
  else if error.statusCode = some 409 then .conflict error.toString
  else .unavailable error.toString

/-! ## errors of the API -/

structure ApiError where
  status : UInt16
  code : String
  message : String
  operationId : Option Uuid
  retryAfterSeconds : Option UInt64
  deriving DecidableEq, Repr

/-- a response with its body and the headers the handlers set -/
structure Response where
  status : UInt16
  body : Value
  headers : List (String × String)
  deriving DecidableEq, Repr

namespace ApiError

def new (status : UInt16) (code message : String) : ApiError := ⟨status, code, message, none, none⟩

def badRequest (message : String) : ApiError := new 400 "invalid_request" message

def unauthorized (message : String) : ApiError := new 401 "invalid_credentials" message

def forbidden : ApiError :=
  new 403 "permission_denied" "principal does not have the required permission"

def notFound : ApiError := new 404 "not_found" "resource was not found"

def conflict (code message : String) : ApiError := new 409 code message

def dependency (message : String) : ApiError := new 502 "storage_backend_unavailable" message

def operationInProgress (operationId : Uuid) : ApiError where
  status := 503
  code := "operation_in_progress"
  message := "another operation for this service is still in progress"
  operationId := some operationId
  retryAfterSeconds := some 2

def internal : ApiError := new 500 "internal_error" "internal service error"

/-- `From<AuthError>` -/
def ofAuth (error : AuthError) : ApiError := unauthorized error.toString

/-- `From<PrincipalAuthError>` -/
def ofPrincipalAuth : PrincipalAuthError → ApiError
  | .permissionDenied => forbidden
  | other => unauthorized other.toString

/-- `From<GarageBackendError>` -/
def ofBackend : GarageBackendError → ApiError
  | .conflict message => conflict "storage_backend_conflict" message
  | .notFound message => dependency message
  | .unavailable message => dependency message
  | .invalidResponse message => dependency message

/-- `From<StoreError>` -/
def ofStore : StoreError → ApiError
  | .notFound => notFound
  | .validation message => badRequest message
  | .domainValidation error => badRequest error.toString
  | .invalidNumericValue field => badRequest (field ++ " is outside the supported range")
  | .conflict message => conflict "conflict" message
  | .idempotencyConflict =>
    conflict "idempotency_conflict" "Idempotency-Key was previously used for a different request"
  | .bucketNameUnavailable =>
    conflict "bucket_name_unavailable" "bucket name is already owned by another service"
  | .staleGeneration current requested =>
    conflict "stale_generation" ("generation " ++ ToString.toString requested.toInt ++
      " is stale; current generation is " ++ ToString.toString current.toInt)
  | .operationInProgress operationId => operationInProgress operationId
  | .operationLeaseLost currentOperationId => operationInProgress currentOperationId
  | .serviceNotReady => conflict "service_not_ready" "service instance is not ready"
  | .credentialLimitExceeded scope limit =>
    conflict "credential_limit_exceeded" (scope ++ " active credential limit of " ++
      ToString.toString limit.toNat ++ " has been reached")
  | .database _ => internal
  | .configuration _ => internal
  | .corruptData _ => internal
  | .encryption _ => internal

/-- the envelope; an operation id that is absent is left out -/
def envelope (error : ApiError) : Value :=
  .object [("error", .object ([("code", .string error.code), ("message", .string error.message)] ++
    match error.operationId with
    | some operationId => [("operation_id", .ofUuid operationId)]
    | none => []))]

def storedResponse (error : ApiError) : StoredHttpResponse where
  status := error.status
  body := error.envelope
  failed := true

def intoResponse (error : ApiError) : Response where
  status := error.status
  body := error.envelope
  headers := ("content-type", "application/json") ::
    match error.retryAfterSeconds with
    | some seconds => [("retry-after", ToString.toString seconds.toNat)]
    | none => []

end ApiError

end Syouyu
