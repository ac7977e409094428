import Mergepay.Money.Stroops
import Mergepay.Settlement.Actions

namespace Mergepay

open Money Text

def occurs (marker : String) (text : List Char) : Bool :=
  occursIn marker.toList text

-- Whether and how a failed submission is tried again.

def permanentMarkers : List String := ["invalid", "malformed", "xdr_mismatch", "intent_expired",
  "unauthoriz", "unauthenticated", "forbidden", "not authorized", "rejected the transaction",
  "signature", "tx_bad_auth", "tx_bad_seq", "tx_too_late", "tx_too_early", "tx_insufficient_fee",
  "op_no_destination", "op_underfunded", "op_no_trust", "op_not_authorized", "op_line_full",
  "underfunded", "trustline"]

def indeterminateMarkers : List String := ["timeout", "timed out", "socket hang up", "socket",
  "econnreset", "econnaborted", "aborted", "network"]

def transientMarkers : List String := ["rate_limit", "rate limit", "too many requests",
  "service unavailable", "temporarily unavailable", "temporar", "bad gateway", "gateway timeout",
  "econnrefused", "enotfound", "connection refused", "stale"]

def providerCategoryJob : ProviderFailureCategory → JobFailureCategory
  | .timeout     => .indeterminate
  | .transport   => .transient
  | .rateLimited => .transient
  | .unavailable => .transient
  | .malformed   => .transient
  | .rejected    => .permanent

def classifyStatus (status : Nat) : Option JobFailureCategory :=
  if status = 429 then some .transient
  else if status ≥ 500 then some .transient
  else if status ≥ 400 then some .permanent
  else none

def classifyMessage (message : String) : JobFailureCategory :=
  let message := message.toList.map Char.toLower
  if permanentMarkers.any (occurs · message) then .permanent
  else if indeterminateMarkers.any (occurs · message) then .indeterminate
  else if transientMarkers.any (occurs · message) then .transient
  else .indeterminate

def classifyJobFailure (e : Failure) : JobFailureCategory :=
  match e with
  | .provider category _ => providerCategoryJob category
  | .error "TimeoutError" _ => .indeterminate
  | .error "TransportError" _ => .transient
  | e => ((e.statusCode.bind classifyStatus).getD (classifyMessage e.message))

-- The reference that ties a payment to a settlement.
namespace Memo

def alphabet : List Char := "ABCDEFGHJKLMNPQRSTUVWXYZ23456789".toList
def maxMemoBytes : Nat := 28

def length (l : List Char) : Nat :=
  (l.map fun c => if c.toNat < 0x10000 then 1 else 2).sum

def byteLength (l : List Char) : Nat :=
  (l.map Char.utf8Size).sum

def isValidMemoCode (code : List Char) : Bool :=
  code ≠ [] && code.all (· ∈ alphabet)

def invalidCharacters : String :=
  "Memo code contains invalid characters. Only uppercase A-Z (excluding I, O) and 2-9 are allowed."

def parseMemo (raw : String) : Except String String :=
  let l := raw.toList
  if l = [] then
    .error "Memo must not be empty."
  else if length l < 4 then
    .error "Memo is too short to contain a valid code."
  else match l with
    | 'M' :: 'P' :: ':' :: code =>
      if byteLength l > maxMemoBytes then
        .error "Mergepay memo must be 28 UTF-8 bytes or fewer to fit in a Stellar MEMO_TEXT."
      else if code = [] then
        .error "Memo code must not be empty after 'MP:' prefix."
      else if ¬isValidMemoCode code then
        .error invalidCharacters
      else
        .ok (.ofList code)
    | _ => .error "Mergepay memo must start with 'MP:'."

def buildMemo (code : String) : Except String String :=
  if code.toList = [] then
    .error "Memo code must not be empty."
  else if ¬isValidMemoCode code.toList then
    .error invalidCharacters
  else if byteLength ("MP:" ++ code).toList > maxMemoBytes then
    .error "Memo must be 28 UTF-8 bytes or fewer to fit in a Stellar MEMO_TEXT."
  else
    .ok ("MP:" ++ code)

def base64 : List Char :=
  "ABCDEFGHIJKLMNOPQRSTUVWXYZabcdefghijklmnopqrstuvwxyz0123456789+/".toList

-- The canonical encoding of 32 bytes has 43 digits, the last of which carries only four bits.
def isValidHashMemo (memo : List Char) : Bool :=
  memo.length = 44 && memo.getLast? = some '=' && (memo.take 43).all (· ∈ base64) &&
  (memo[42]?.any fun c => base64.idxOf c % 4 = 0)

def validatePaymentMemo (memoType memo : Option String) (expectedCode : String) :
    Except String String :=
  let prefixText := "Unexpected memo type: expected \"text\", got \"hash\""
  let text := memo.getD ""
  match memoType.getD "none" with
  | "none" => .error "Transaction has no memo"
  | "hash" =>
    if isValidHashMemo text.toList
    then .error <| prefixText ++ "; a hash memo cannot carry the MP: settlement reference"
    else .error <| prefixText ++ "; the hash memo is malformed (expected 32 bytes, base64-encoded)"
  | "text" =>
    if text.toList = [] then
      .error "Transaction has no memo"
    else match parseMemo text with
      | .error m => .error <| "Transaction memo is not a valid Mergepay reference: " ++ m
      | .ok code =>
        if code = expectedCode
        then .ok text
        else .error "Transaction memo does not match the expected settlement reference"
  | other => .error <| "Unexpected memo type: expected \"text\", got \"" ++
      .ofList (other.toList.take 16) ++ "\""

end Memo

-- What the ledger is expected to contain for a settlement.

def normalizeHorizonAmount (a : String) : String :=
  let parts := a.toList.splitOn '.'
  .ofList (parts.headD []) ++ "." ++ .ofList (padEnd 7 '0' (parts.tail.headD []))

def settlementMismatch (message : String) : Except Failure Unit :=
  .error <| .badRequest "settlement_verification_failed" message

def verifyPaymentOperation (op : PaymentOperation) (destination amount assetCode : String)
    (assetIssuer : Option String) : Except Failure Unit :=
  if op.type ≠ "payment" then
    .error <| .badRequest "transaction_verification_failed" <|
      "Expected a payment operation, got \"" ++ op.type ++ "\""
  else if op.destination ≠ destination then
    settlementMismatch "Payment destination does not match the expected recipient"
  else if normalizeHorizonAmount op.amount ≠ normalizeHorizonAmount amount then
    settlementMismatch "Payment amount does not match the expected settlement amount"
  else if assetCode = "XLM" ∧ assetIssuer = none then
    if op.assetType ≠ "native"
    then settlementMismatch "Payment asset does not match: expected native XLM"
    else .ok ()
  else if op.assetCode ≠ some assetCode then
    settlementMismatch <| "Payment asset code does not match: expected \"" ++ assetCode ++
      "\", got \"" ++ op.assetCode.getD "undefined" ++ "\""
  else if op.assetIssuer ≠ assetIssuer then
    settlementMismatch <| "Payment asset issuer does not match: expected \"" ++
      assetIssuer.getD "null" ++ "\", got \"" ++ op.assetIssuer.getD "undefined" ++ "\""
  else
    .ok ()

-- Errors after which reconciliation gives up on a transaction. This includes failed reads whose
-- message happens to be the fallback text of the Horizon client.
def isVerificationFailure (e : Failure) : Bool :=
  (match e with
  | .app _ code _ =>
    code ∈ ["TRANSACTION_VERIFICATION_FAILED", "SETTLEMENT_VERIFICATION_FAILED"]
  | _ => false) ||
  ["verification_failed", "Memo verification failed", "does not match", "No payment operation",
    "Horizon request failed"].any (occurs · e.message.toList)

-- Whether an account can pay for a settlement.
namespace Preflight

structure Rejection where
  reason  : Reason
  message : String
  deriving DecidableEq

def baseReserveStroops : Int := 5000000
def settlementFeeStroops : Int := 200

-- A balance that cannot be read counts as zero.
def parseHorizonBalance (balance : String) : Int :=
  let l := balance.toList
  let trimmed := if '.' ∈ l then (l.rdropWhile (· = '0')) else l
  let trimmed := if '.' ∈ l ∧ trimmed.getLast? = some '.' then trimmed.dropLast else trimmed
  match toStroops (.ofList trimmed) with
  | .ok n    => n
  | .error _ => 0

def minimumBalanceStroops (a : AccountSnapshot) : Int :=
  (2 + (a.balances.countP (·.2.1.isSome) : Int) + (a.signers - 1 : Nat)) * baseReserveStroops

def balanceOf (a : AccountSnapshot) (code : String) (issuer : Option String) : Option Int :=
  (a.balances.find? fun b => b.1 = code ∧ b.2.1 = issuer).map (parseHorizonBalance ·.2.2)

def spendableXlmStroops (a : AccountSnapshot) : Int :=
  max 0 ((balanceOf a "XLM" none).getD 0 - minimumBalanceStroops a)

def evaluatePreflight (a : AccountSnapshot) (assetCode : String) (assetIssuer : Option String)
    (amount : String) : Except Rejection Unit :=
  let amount := parseHorizonBalance amount
  if ¬a.exist then
    .error ⟨.accountNotFound, "Your Stellar account is not funded yet. Fund it before settling."⟩
  else if amount ≤ 0 then
    .error ⟨.insufficientAssetBalance, "Settlement amount must be greater than zero."⟩
  else match assetIssuer with
    | none =>
      if spendableXlmStroops a < amount + settlementFeeStroops
      then .error ⟨.insufficientAssetBalance,
        "Not enough XLM to cover this payment, the network fee, and the account reserve."⟩
      else .ok ()
    | some issuer => match balanceOf a assetCode (some issuer) with
      | none => .error ⟨.missingTrustline, "Your account has no " ++ assetCode ++
          " trustline. Add one before settling in " ++ assetCode ++ "."⟩
      | some balance =>
        if balance < amount then
          .error ⟨.insufficientAssetBalance,
            "Not enough " ++ assetCode ++ " to cover this payment."⟩
        else if spendableXlmStroops a < settlementFeeStroops then
          .error ⟨.insufficientFeeBalance,
            "Not enough XLM to cover the network fee and the account reserve."⟩
        else
          .ok ()

def toFailure (r : Rejection) : Failure :=
  match r.reason with
  | .accountNotFound          => .badRequest "account_unfunded" r.message
  | .missingTrustline         => .badRequest "missing_trustline" r.message
  | .insufficientAssetBalance => .badRequest "insufficient_balance" r.message
  | .insufficientFeeBalance   => .badRequest "insufficient_fee_balance" r.message
  | .upstreamUnavailable      => .upstream r.message

end Preflight

-- Deadlines are compared in whole seconds, and allow for a clock skew of half a minute.

def nowSeconds (t : Time) : Int :=
  t.fdiv 1000

def isIntentExpired (expiresAt : Option Time) (now : Time) : Bool :=
  expiresAt.any fun t => nowSeconds now > nowSeconds t + 30

def intentExpiry (requested : Option Nat) (now : Time) : Time :=
  now + (min (max (requested.getD 300) 30) 300 : Nat) * 1000

end Mergepay
