import Mathlib.Data.Rat.Floor
import Mergepay.Data.Retrying
import Mergepay.Text.Decimal

-- Requests to Horizon and to anchors
namespace Mergepay.Upstream

-- A field of an object of unknown shape, which is read as a number. Numbers are integers here.
inductive Field
  | absent
  | nullish
  | number (n : Int)
  | other
  deriving DecidableEq

namespace Field

-- `a ?? b`
def orElse : Field → Field → Field
  | .absent, b | .nullish, b => b
  | a, _                     => a

def number? : Field → Option Int
  | .number n => some n
  | _         => none

def isPresent (a : Field) : Bool :=
  a ≠ .absent

end Field

-- A header is read as `String(value)` if it is a string or a number.
inductive Headers
  | bag (entries : List (String × Option String))
  -- An object with the method `get`. It has no entries.
  | getter (retryAfter : Option String)

-- Elements that are not strings are left out.
inductive ResultCodes
  | list (codes : List String)
  | record (transaction transactionResultCode : Option String) (operations operationResults : Option (List String))

structure ResponseData where
  status      : Field              := .absent
  extras      : Option ResultCodes := none
  resultCodes : Option ResultCodes := none

structure Response where
  status  : Field               := .absent
  headers : Option Headers      := none
  data    : Option ResponseData := none

-- An object that is thrown. A field may also be there without a value that can be read.
structure ErrorFields where
  isError    : Bool                     := true
  name       : Option String            := none
  code       : Option (Option String)   := none
  message    : Option String            := none
  status     : Field                    := .absent
  statusCode : Field                    := .absent
  response   : Option (Option Response) := none
  headers    : Option Headers           := none
  data       : Option ResponseData      := none

inductive Thrown
  | nullish
  | primitive (text : String)
  | timeout (operation : String) (timeoutMs : Nat)
  | transport (operation : String) (cause : Thrown)
  | object (fields : ErrorFields) (cause : Thrown)

namespace Thrown

def fields? : Thrown → Option ErrorFields
  | .object fields _ => some fields
  | _                => none

end Thrown

namespace ErrorFields

variable (e : ErrorFields)

def responseStatus : Field :=
  (e.response.join.map (·.status)).getD .absent

def responseHeaders : Option Headers :=
  (e.response.join.bind (·.headers)).or e.headers

def responseData : Option ResponseData :=
  (e.response.join.bind (·.data)).or e.data

end ErrorFields

-- src/services/timeout.ts

-- What becomes of a single attempt: either it is settled, or its deadline passes.
inductive Attempt (α : Type)
  | resolved (value : α)
  | rejected (err : Thrown)
  | late

def withTimeout (operation : String) (timeoutMs : Nat) {α : Type} : Attempt α → Except Thrown α
  | .resolved value => .ok value
  | .late           => .error (.timeout operation timeoutMs)
  | .rejected err   =>
    .error <| match err with
      | .timeout .. | .transport .. => err
      | .object e _ =>
        if e.isError ∧ e.name = some "AbortError" then .timeout operation timeoutMs
        else if (e.statusCode.isPresent ∧ e.code.isSome) ∨ e.response.isSome ∨ e.status.isPresent then err
        else .transport operation err
      | .nullish | .primitive _ => .transport operation err

inductive ExternalErrorKind
  | timeout
  | transport
  | upstream
  | unknown
  deriving DecidableEq

def classifyExternalError : Thrown → ExternalErrorKind
  | .timeout ..   => .timeout
  | .transport .. => .transport
  | .object e _   => if e.code = some (some "UPSTREAM_ERROR") then .upstream else .unknown
  | .nullish | .primitive _ => .unknown

def roundDelay (ms : ℚ) : Nat :=
  ⌊ms + 1 / 2⌋.toNat

-- With `random` between zero and one
def jittered (initialDelayMs maxDelayMs : Nat) (jitterRatio random : ℚ) (exponent : Nat) : Nat :=
  let base : ℚ := min maxDelayMs (initialDelayMs * 2 ^ exponent)
  roundDelay <| base + base * jitterRatio * (random * 2 - 1)

structure ReadRetryPolicy where
  maxAttempts    : Nat
  initialDelayMs : Nat
  maxDelayMs     : Nat
  attempts_pos   : 0 < maxAttempts

def readRetryDelayMs (attempt : Nat) (policy : ReadRetryPolicy) (random : ℚ) : Nat :=
  if attempt < 1 then 0 else jittered policy.initialDelayMs policy.maxDelayMs (1 / 10) random (attempt - 1)

def retryRead {α : Type} (policy : ReadRetryPolicy) (random : Nat → ℚ) (fn : Nat → Except Thrown α) :
    Retrying.Report Thrown α Nat :=
  Retrying.retry policy.maxAttempts fn fun error attempt =>
    if classifyExternalError error = .unknown then none else some <| readRetryDelayMs attempt policy (random attempt)

-- src/utils/retry.ts

structure BackoffOptions where
  initialDelayMs : Nat
  maxDelayMs     : Nat
  backoffFactor  : ℚ
  jitter         : Bool
  jitterRatio    : ℚ

-- The wait before an attempt that is not the first one
def calculateBackoffDelay (attempt : Nat) (options : BackoffOptions) (random : ℚ) : Nat :=
  if attempt ≤ 1 then 0
  else
    let maxDelayMs := max options.initialDelayMs options.maxDelayMs
    let backoffFactor := max 1 options.backoffFactor
    let jitterRatio := max 0 (min 1 options.jitterRatio)
    let exponential := options.initialDelayMs * backoffFactor ^ (attempt - 2)
    let capped : ℚ := min exponential maxDelayMs
    if ¬options.jitter ∨ jitterRatio ≤ 0 then roundDelay capped
    else roundDelay (capped - capped * jitterRatio * random)

-- src/services/retry.ts

structure RetryPolicy where
  maxAttempts      : Nat
  initialDelayMs   : Nat
  maxDelayMs       : Nat
  jitterRatio      : ℚ
  retryRateLimited : Bool := false
  attempts_pos     : 0 < maxAttempts

inductive UpstreamFailureKind
  | timeout
  | transport
  | serverError
  | rateLimited
  | clientError
  | unknown
  deriving DecidableEq

def statusOf (error : Thrown) : Option Int :=
  error.fields?.bind fun e => (e.responseStatus.orElse (e.status.orElse e.statusCode)).number?

def unwrapUpstreamError (error : Thrown) : Thrown :=
  match error with
  | .transport _ cause => if statusOf cause ≠ none then cause else error
  | _                  => error

def Thrown.isTransport : Thrown → Bool
  | .transport .. => true
  | _             => false

def kindOfStatus : Option Int → UpstreamFailureKind
  | none        => .unknown
  | some status =>
    if status = 408 then .timeout
    else if status = 429 then .rateLimited
    else if status ≥ 500 then .serverError
    else if status ≥ 400 then .clientError
    else .unknown

def classifyUpstreamFailure (error : Thrown) : UpstreamFailureKind :=
  match error with
  | .timeout .. => .timeout
  | _           =>
    let unwrapped := unwrapUpstreamError error
    if (unwrapped.isTransport ∨ error.isTransport) ∧ statusOf unwrapped = none then .transport
    else kindOfStatus (statusOf unwrapped)

def nonRetryableServerStatuses : List Int :=
  [501, 505]

def upstreamStatusOf (error : Thrown) : Option Int :=
  statusOf (unwrapUpstreamError error)

def isDigits (s : List Char) : Bool :=
  s ≠ [] ∧ s.all Char.isDigit

def maxSafeInteger : Nat :=
  2 ^ 53 - 1

-- `Date.parse` depends on the host where a text is not in the format of ISO 8601.
structure Host where
  parseDate : String → Option Int

def lookup (name : String) (entries : List (String × Option String)) : Option String :=
  (entries.find? fun e => e.1.toList.map Char.toLower = name.toList).bind (·.2)

def retryAfterSeconds (H : Host) (error : Thrown) (now : Int) : Option Nat := do
  let e ← error.fields?
  let headers ← e.responseHeaders
  let value ← match headers with
    | .getter retryAfter => retryAfter
    | .bag entries       => lookup "retry-after" entries
  let retryAfter := Text.trim value.toList
  if isDigits retryAfter then
    let seconds := Nat.ofDigitChars 10 retryAfter 0
    if seconds ≤ maxSafeInteger then some seconds else none
  else
    guard (retryAfter.any Char.isAlpha)
    let date ← H.parseDate (String.ofList retryAfter)
    some ⌈(max 0 (date - now) : ℚ) / 1000⌉.toNat

def retryAfterMs (H : Host) (error : Thrown) (now : Int) : Option Nat :=
  match retryAfterSeconds H (unwrapUpstreamError error) now with
  | some seconds => some (seconds * 1000)
  | none         => do
    let e ← (unwrapUpstreamError error).fields?
    let headers ← e.responseHeaders
    let reset ← match headers with
      | .getter _    => none
      | .bag entries => lookup "x-ratelimit-reset" entries
    if isDigits reset.toList then some (Nat.ofDigitChars 10 reset.toList 0 * 1000) else none

def isRetryableFailure (kind : UpstreamFailureKind) : Bool :=
  kind ∈ [.timeout, .transport, .serverError]

def backoffDelayMs (attempt : Nat) (policy : RetryPolicy) (random : ℚ) : Nat :=
  calculateBackoffDelay attempt {
    initialDelayMs := policy.initialDelayMs
    maxDelayMs     := policy.maxDelayMs
    backoffFactor  := 2
    jitter         := true
    jitterRatio    := policy.jitterRatio
  } random

-- The wait before the next attempt, if there is to be one
def decideRetry (H : Host) (error : Thrown) (attempt : Nat) (policy : RetryPolicy) (random : ℚ) (now : Int) :
    Option Nat :=
  if attempt ≥ policy.maxAttempts then none else
  let kind := classifyUpstreamFailure error
  let backoff := backoffDelayMs (attempt + 1) policy random
  if kind = .rateLimited then
    if ¬policy.retryRateLimited then none
    else match retryAfterMs H error now with
      | none           => some backoff
      | some requested => if requested > policy.maxDelayMs then none else some (max backoff requested)
  else if ¬isRetryableFailure kind then none
  else if upstreamStatusOf error ∈ nonRetryableServerStatuses.map some then none
  else some backoff

structure RetryOptions where
  operation  : String
  timeoutMs  : Nat
  policy     : RetryPolicy
  isExpected : Thrown → Bool := fun _ => false

-- The field `upstreamCause` is not shown to clients.
structure UpstreamError where
  status            : Nat
  code              : String
  message           : String
  retryAfterSeconds : Option Nat
  upstreamCause     : Thrown

def toUpstreamError (H : Host) (error : Thrown) (operation : String) (attempts : Nat) (now : Int) : UpstreamError :=
  let upstream message : UpstreamError := ⟨502, "UPSTREAM_ERROR", message, none, error⟩
  match classifyUpstreamFailure error with
  | .rateLimited =>
    if "Horizon".toList <+: operation.toList then {
        status            := 503
        code              := "SERVICE_UNAVAILABLE"
        message           := "The upstream service is rate limiting requests. Please retry shortly."
        retryAfterSeconds := retryAfterSeconds H (unwrapUpstreamError error) now
        upstreamCause     := error
      }
    else upstream <| operation ++ " is rate limited upstream. Retry shortly."
  | .timeout => upstream <|
    operation ++ " did not respond within its deadline after " ++ toString attempts ++ " attempt(s)"
  | .transport | .serverError | .clientError | .unknown => upstream <|
    operation ++ " is unavailable after " ++ toString attempts ++ " attempt(s)"

-- What is thrown in the end
inductive RetryFailure
  | expected (error : Thrown)
  | upstream (error : UpstreamError)

-- The readings of the clock and the random numbers of each attempt
structure Readings where
  now    : Nat → Int
  random : Nat → ℚ

def withRetry {α : Type} (H : Host) (R : Readings) (options : RetryOptions) (fn : Nat → Attempt α) :
    Retrying.Report RetryFailure α Nat :=
  let report := Retrying.retry options.policy.maxAttempts
    (fun attempt => withTimeout options.operation options.timeoutMs (fn attempt))
    fun error attempt =>
      if options.isExpected (unwrapUpstreamError error) then none
      else decideRetry H error attempt options.policy (R.random attempt) (R.now attempt)
  { report with
    outcome := report.outcome.mapError fun error =>
      if options.isExpected (unwrapUpstreamError error) then .expected (unwrapUpstreamError error)
      else .upstream <|
        toUpstreamError H error options.operation options.policy.maxAttempts (R.now report.attempts) }

-- src/services/horizon-retry.ts

inductive HorizonErrorCategory
  | transient
  | indeterminate
  | permanent
  deriving DecidableEq

structure HorizonRetryPolicy where
  maxAttempts    : Nat := 3
  initialDelayMs : Nat := 1000
  maxDelayMs     : Nat := 15000
  jitterRatio    : ℚ   := 3 / 10
  attempts_pos   : 0 < maxAttempts := by decide

def normalizeResultCodes : Option ResultCodes → List String
  | none              => []
  | some (.list codes) => codes
  | some (.record _ transactionResultCode operations operationResults) =>
    transactionResultCode.toList ++ operations.getD [] ++ operationResults.getD []

def permanentTxCodes : List String :=
  ["tx_bad_auth", "tx_bad_seq", "tx_insufficient_fee", "tx_too_late", "tx_too_early", "tx_malformed",
    "tx_not_supported", "tx_failed"]

def permanentOpCodes : List String :=
  ["op_no_destination", "op_no_trust", "op_not_authorized", "op_line_full", "op_underfunded", "op_src_no_trust",
    "op_src_not_authorized"]

-- The category by the status, if the status decides it
def categoryOfStatus (timeouts : Bool) : Option Int → Option HorizonErrorCategory
  | none        => none
  | some status =>
    if timeouts ∧ status = 408 then some .transient
    else if status = 429 then some .transient
    else if status ≥ 500 then some .transient
    else if status ≥ 400 then some .permanent
    else none

def categoryOfCodes (data : ResponseData) : Option HorizonErrorCategory :=
  let resultCodes := normalizeResultCodes (data.extras.or data.resultCodes)
  let txCode := resultCodes.find? ("tx_".toList <+: ·.toList)
  if txCode.any (· ∈ permanentTxCodes) then some .permanent
  else if resultCodes.any fun code => "op_".toList <+: code.toList ∧ code ∈ permanentOpCodes then some .permanent
  else none

def classifyHorizonError : Thrown → HorizonErrorCategory
  | .timeout ..              => .indeterminate
  | .transport _ .nullish    => .transient
  | .transport _ cause       => if classifyHorizonError cause = .permanent then .permanent else .transient
  | .nullish | .primitive _  => .transient
  | .object e _              =>
    ((categoryOfStatus false e.statusCode.number?).or
      ((categoryOfStatus true (e.responseStatus.orElse e.status).number?).or
        (e.responseData.bind fun data =>
          (categoryOfCodes data).or (categoryOfStatus false data.status.number?)))).getD .transient

def horizonRetryDelayMs (attempt : Nat) (policy : HorizonRetryPolicy) (random : ℚ) : Nat :=
  if attempt < 1 then 0 else jittered policy.initialDelayMs policy.maxDelayMs policy.jitterRatio random (attempt - 1)

-- With `beforeRetry`, the caller may end the attempts.
def withHorizonRetry {α : Type} (policy : HorizonRetryPolicy) (random : Nat → ℚ) (beforeRetry : Thrown → Nat → Bool)
    (fn : Nat → Except Thrown α) : Retrying.Report Thrown α Nat :=
  Retrying.retry policy.maxAttempts fn fun error attempt =>
    if classifyHorizonError error = .permanent ∨ attempt ≥ policy.maxAttempts ∨ beforeRetry error attempt = false then
      none
    else some <| horizonRetryDelayMs attempt policy (random attempt)

-- src/utils/retry.ts

def permanentHorizonCodes : List String :=
  permanentTxCodes ++ permanentOpCodes

def extractHttpStatus : Thrown → Option Int
  | .object e cause =>
    match (e.responseStatus.orElse (e.status.orElse (e.statusCode.orElse
      ((e.response.join.bind (·.data)).map (·.status) |>.getD .absent)))).number? with
    | some status => some status
    | none        => extractHttpStatus cause
  | .transport _ cause => extractHttpStatus cause
  | .nullish | .primitive _ | .timeout .. => none

def extractHorizonCodes (error : Thrown) : List String :=
  match (error.fields?.bind (·.responseData)).bind fun data => data.extras.or data.resultCodes with
  | some (.record transaction transactionResultCode operations operationResults) =>
    transaction.toList ++ transactionResultCode.toList ++ operations.getD [] ++ operationResults.getD []
  | some (.list _) | none => []

def isTransientStatus (status : Int) : Bool :=
  if status = 429 then true
  else if status = 408 then true
  else if status = 501 ∨ status = 505 then false
  else if status ≥ 500 then true
  else if status ≥ 400 ∧ status < 500 then false
  else true

def isTransientHorizonError (error : Thrown) : Bool :=
  match error with
  | .nullish      => false
  | .timeout ..   => true
  | .transport .. => (extractHttpStatus error).all isTransientStatus
  | .primitive _ | .object .. =>
    if (extractHorizonCodes error).any (· ∈ permanentHorizonCodes) then false
    -- All errors without a status are transient, whatever they say of themselves.
    else (extractHttpStatus error).all isTransientStatus

structure BackoffPolicy extends BackoffOptions where
  maxAttempts  : Nat
  attempts_pos : 0 < maxAttempts

def retryWithBackoff {α : Type} (options : BackoffPolicy) (isRetryable : Thrown → Bool) (random : Nat → ℚ)
    (fn : Nat → Except Thrown α) : Retrying.Report Thrown α Nat :=
  Retrying.retry options.maxAttempts fn fun error attempt =>
    if isRetryable error = false ∨ attempt ≥ options.maxAttempts then none
    else some <| calculateBackoffDelay (attempt + 1) options.toBackoffOptions (random attempt)

end Mergepay.Upstream
