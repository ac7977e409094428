import Mathlib.Logic.Basic

namespace Mergepay

-- The categories under which failed calls of external providers are normalized.
inductive ProviderFailureCategory
  | timeout
  | transport
  | rateLimited
  | unavailable
  | malformed
  | rejected
  deriving DecidableEq

inductive SettlementEngineErrorCode
  | invalidSplitAmount
  | invalidSplitParticipant
  | invalidSplitSum
  | invalidSplitPercent
  | unsupportedAsset
  deriving DecidableEq

-- The errors that are raised by the modelled code. `error` is an instance of the built-in class, or
-- of a class which is recognized only by its name.
inductive Failure
  | error (name message : String)
  | engine (code : SettlementEngineErrorCode) (message : String)
  | app (status : Nat) (code message : String)
  | provider (category : ProviderFailureCategory) (message : String)
  deriving DecidableEq

namespace Failure

-- `new Error(message)`
def plain (message : String) : Failure :=
  error "Error" message

-- Error codes are converted to upper case by the constructors for client errors.
def errorCode (code : String) : String :=
  .ofList <| code.toList.map Char.toUpper

def badRequest (code message : String) : Failure :=
  app 400 (errorCode code) message

def conflict (code message : String) : Failure :=
  app 409 (errorCode code) message

def notFound (message : String) : Failure :=
  app 404 "NOT_FOUND" message

def unauthorized (message : String) : Failure :=
  app 401 "UNAUTHORIZED" message

def forbidden (message : String) : Failure :=
  app 403 "FORBIDDEN" message

def upstream (message : String) : Failure :=
  app 502 "UPSTREAM_ERROR" message

def message : Failure → String
  | error _ m | engine _ m | app _ _ m | provider _ m => m

-- The field `statusCode`, for errors other than provider errors.
def statusCode : Failure → Option Nat
  | app status _ _ => some status
  | _              => none

end Failure

-- Errors of the database.
namespace World

def uniqueViolation     : Failure := .error "P2002" "Unique constraint failed"
def foreignKeyViolation : Failure := .error "P2003" "Foreign key constraint violated"
def recordNotFound      : Failure := .error "P2025" "Record to update not found"
def connectionClosed    : Failure := .error "P1017" "Server has closed the connection"

end World

-- The answer to an update that does not concern any row.
def noneMatched : Failure := .error "count" "0"

end Mergepay
