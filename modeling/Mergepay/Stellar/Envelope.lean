import Mergepay.Data.Except
import Mergepay.Money.Asset
import Mergepay.Settlement.Verification
import Mergepay.Text.Unicode

namespace Mergepay.Stellar

open Money Text

-- The data types of the Stellar SDK

structure Asset where
  code   : String
  issuer : Option String
  deriving DecidableEq

inductive Memo
  | none
  | text (value : List UInt8)
  | id (value : Nat)
  | hash (value : Vector UInt8 32)
  | returnHash (value : Vector UInt8 32)
  deriving DecidableEq

-- The amount of a payment is in stroops. It may be any number of 64 bits with a sign.
inductive Operation
  | payment (source : Option String) (destination : String) (asset : Asset) (amount : Int)
  | other (type : String) (source : Option String)
  deriving DecidableEq

structure TimeBounds where
  minTime : Nat
  maxTime : Nat
  deriving DecidableEq

structure Transaction where
  source     : String
  sequence   : String
  fee        : Nat
  timeBounds : Option TimeBounds
  memo       : Memo
  operations : List Operation
  signatures : List String
  deriving DecidableEq

inductive Envelope
  | transaction (tx : Transaction)
  | feeBump

-- The functions of the SDK. The hash of a transaction does not cover its signatures, and is taken for
-- the configured network. Nothing is verified by texts that are not public keys.
structure Sdk where
  fromXDR : String → Option Envelope
  hash    : Transaction → String
  verify  : (publicKey hash signature : String) → Bool

def Asset.native : Asset :=
  ⟨"XLM", .none⟩

-- The constructor for issued assets. All spellings of the native code become the same.
def Asset.new (R : Registry) (code : String) (issuer : Option String) : Except Failure Asset :=
  match issuer.bind present with
  | .none => .error <| .plain "Issuer cannot be null"
  | some issuer =>
    if ¬R.isValidEd25519PublicKey issuer then
      .error <| .plain "Issuer is invalid"
    else
      .ok { code := if toUpperCase code = "XLM" then "XLM" else code, issuer }

-- All amounts are written with seven decimals.
def amountText (n : Int) : String :=
  .ofList <| sign n ++ Nat.toDigits 10 (n.natAbs / stroopsPerUnit) ++
    '.' :: padStart 7 '0' (Nat.toDigits 10 (n.natAbs % stroopsPerUnit))

-- The conversion of the memo's value to text, whatever its type is.
def Memo.valueText : Memo → String
  | none                      => ""
  | text value                => .ofList (Utf8.decode value)
  | id value                  => .ofList (Nat.toDigits 10 value)
  | hash value                => .ofList (Utf8.decode value.toList)
  | returnHash value          => .ofList (Utf8.decode value.toList)

variable (R : Registry) (S : Sdk)

structure AssetSpec where
  code   : String
  issuer : Option String

def toAsset (spec : AssetSpec) : Except Failure Asset := do
  let config ← R.validateAssetSpec spec.code spec.issuer
  match config.type with
  | .native => return .native
  | .issued => Asset.new R config.code config.issuer

-- The limit does not count bytes, but code units. Half of a pair that is left over cannot be encoded.
def memoText (code : String) : String :=
  let text := Utf16.encode ("MP:" ++ code).toList
  .ofList <| Utf16.decode <| if text.length > 28 then text.take 28 else text

-- Whether an envelope is the one that was asked for

structure PaymentExpectation where
  sourcePublicKey          : String
  destination              : String
  asset                    : AssetSpec
  amount                   : String
  memoCode                 : String
  sourceSequence           : Option String := none
  maxFeeStroops            : Option Nat := none
  expiresAt                : Option Time := none
  resource                 : String := "transaction"
  skipSourceSignatureCheck : Bool := false

def clockSkewToleranceSeconds : Int := 30

def xdrMismatch (message : String) : Except Failure α :=
  .error <| .badRequest "xdr_mismatch" message

-- The bounds are converted to floating point numbers, which is exact below 2⁵³. That is later than
-- any date can be.
def assertTimeBoundsMatchIntent (bounds : Option TimeBounds) (expiresAt : Option Time)
    (resource : String) (now : Time) : Except Failure Unit :=
  match bounds.filter (0 < ·.maxTime) with
  | none => xdrMismatch "Signed transaction must declare a time bound that expires"
  | some bounds =>
    if expiresAt.any (bounds.maxTime > nowSeconds · + clockSkewToleranceSeconds) then
      xdrMismatch "Signed transaction is valid longer than the request it was built for"
    else if bounds.maxTime + clockSkewToleranceSeconds < nowSeconds now then
      .error <| .badRequest "intent_expired" <| "This " ++ resource ++
        " request has expired. Request a new transaction to sign and sign it promptly."
    else if bounds.minTime > nowSeconds now + clockSkewToleranceSeconds then
      xdrMismatch "Signed transaction is not valid yet"
    else
      .ok ()

inductive PaymentIntentField
  | source
  | sequence
  | operationCount
  | fee
  | operationType
  | operationSource
  | destination
  | assetIssuer
  | asset
  | amount
  | memo
  deriving DecidableEq

structure PaymentIntentMismatch where
  field   : PaymentIntentField
  message : String
  deriving DecidableEq

def minFeeStroopsPerOp : Nat := 100
def maxFeeStroopsPerOp : Nat := 200

def normalizeAmount : String → String :=
  normalizeHorizonAmount

def matchPayment (tx : Transaction) (expected : PaymentExpectation) (source : Option String)
    (destination : String) (asset : Asset) (amount : Int) :
    Except Failure (Option PaymentIntentMismatch) := do
  if source.any (· ≠ expected.sourcePublicKey) then
    return some ⟨.operationSource, "Payment operation source does not match"⟩
  if destination ≠ expected.destination then
    return some ⟨.destination, "Payment destination does not match"⟩
  let wantAsset ← toAsset R expected.asset
  if asset ≠ wantAsset then
    if asset.code = wantAsset.code then
      return some ⟨.assetIssuer, "Payment asset issuer mismatch"⟩
    return some ⟨.asset, "Payment asset does not match"⟩
  if normalizeAmount (amountText amount) ≠ normalizeAmount expected.amount then
    return some ⟨.amount, "Payment amount does not match"⟩
  if tx.memo.valueText ≠ memoText expected.memoCode then
    return some ⟨.memo, "Memo does not match the expense reference"⟩
  return none

-- The first divergence between a transaction and the expected payment. An asset that is expected but
-- not supported raises.
def matchPaymentIntent (tx : Transaction) (expected : PaymentExpectation) :
    Except Failure (Option PaymentIntentMismatch) :=
  if tx.source ≠ expected.sourcePublicKey then
    return some ⟨.source, "Transaction source does not match"⟩
  else if expected.sourceSequence.any (tx.sequence ≠ ·) then
    return some ⟨.sequence, "Transaction sequence does not match"⟩
  else match tx.operations with
    | [op] =>
      if tx.fee < minFeeStroopsPerOp ∨ tx.fee > expected.maxFeeStroops.getD maxFeeStroopsPerOp then
        return some ⟨.fee, "Transaction fee is outside the accepted range"⟩
      else match op with
        | .payment source destination asset amount =>
          matchPayment R tx expected source destination asset amount
        | .other _ _ => return some ⟨.operationType, "Expected a payment operation"⟩
    | _ => return some ⟨.operationCount, "Expected exactly one operation"⟩

def assertMatchesIntent (tx : Transaction) (expected : PaymentExpectation) : Except Failure Unit := do
  if let some mismatch ← matchPaymentIntent R tx expected then
    xdrMismatch mismatch.message

def verifySourceSignature (tx : Transaction) (publicKey : String) : Bool :=
  tx.signatures.any (S.verify publicKey (S.hash tx))

def validatePaymentTx (tx : Transaction) (expected : PaymentExpectation) (now : Time) :
    Except Failure Unit := do
  assertTimeBoundsMatchIntent tx.timeBounds expected.expiresAt expected.resource now
  assertMatchesIntent R tx expected
  if ¬expected.skipSourceSignatureCheck then
    if ¬verifySourceSignature S tx expected.sourcePublicKey then
      xdrMismatch "Transaction signature is invalid or for the wrong network"

def parseSignedPaymentXdr (signedXdr malformedMessage : String) : Except Failure Transaction :=
  match S.fromXDR signedXdr with
  | none                   => .error <| .badRequest "xdr_malformed" malformedMessage
  | some .feeBump          => xdrMismatch "Fee-bump transaction envelopes are not accepted"
  | some (.transaction tx) => .ok tx

structure SignedXdrValidation where
  tx   : Transaction
  hash : String

def validateSignedXdr (signedXdr : String) (expected : PaymentExpectation) (now : Time) :
    Except Failure SignedXdrValidation := do
  let tx ← parseSignedPaymentXdr S signedXdr "Malformed or unsupported signed XDR"
  validatePaymentTx R S tx expected now
  return { tx, hash := S.hash tx }

-- The persisted fields from which the intent of a settlement is rebuilt.
structure SettlementIntentRecord where
  shortCode      : String
  amount         : String
  assetCode      : String
  assetIssuer    : Option String
  expiresAt      : Option Time
  sourceSequence : Option String := none
  source         : String
  destination    : String

def settlementPaymentIntent (settlement : SettlementIntentRecord) : PaymentExpectation := {
  sourcePublicKey := settlement.source
  destination     := settlement.destination
  asset           := { code := settlement.assetCode, issuer := settlement.assetIssuer }
  amount          := settlement.amount
  memoCode        := settlement.shortCode
  sourceSequence  := settlement.sourceSequence
  expiresAt       := settlement.expiresAt
  resource        := "settlement"
}

def validateSettlementXdr (signedXdr : String) (settlement : SettlementIntentRecord) (now : Time) :
    Except Failure SignedXdrValidation :=
  validateSignedXdr R S signedXdr (settlementPaymentIntent settlement) now

-- Envelopes are not only checked on their way to submission, but also inspected for what diverged.

inductive XdrRejectionCode
  | xdrMalformed
  | xdrMismatch
  | intentExpired
  | xdrUnsigned
  deriving DecidableEq

inductive XdrRejectionField
  | payment (field : PaymentIntentField)
  | envelope
  | timeBounds
  | signature
  deriving DecidableEq

inductive XdrInspection
  | accepted (tx : Transaction) (hash source sequence : String)
  | rejected (code : XdrRejectionCode) (field : XdrRejectionField) (message : String)
  deriving DecidableEq

def XdrRejectionCode.text : XdrRejectionCode → String
  | .xdrMalformed  => "xdr_malformed"
  | .xdrMismatch   => "xdr_mismatch"
  | .intentExpired => "intent_expired"
  | .xdrUnsigned   => "xdr_unsigned"

def XdrRejectionCode.all : List XdrRejectionCode :=
  [.xdrMalformed, .xdrMismatch, .intentExpired, .xdrUnsigned]

-- The codes of errors are ASCII texts.
def rejectionCode? (code : String) : Option XdrRejectionCode :=
  XdrRejectionCode.all.find? (·.text.toList = code.toList.map Char.toLower)

-- Only instances of `AppError` are turned into rejections. No provider error has the code of one.
def fromAppError (error : Failure) (field : XdrRejectionField) : Except Failure XdrInspection :=
  match error with
  | .app _ code message      => .ok <| .rejected ((rejectionCode? code).getD .xdrMismatch) field message
  | .provider _ message      => .ok <| .rejected .xdrMismatch field message
  | .error _ _ | .engine _ _ => .error error

-- The checks of a transaction that has been decoded.
def inspectTransaction (tx : Transaction) (expected : PaymentExpectation) (requireSignature : Bool) (now : Time) :
    Except Failure XdrInspection :=
  match assertTimeBoundsMatchIntent tx.timeBounds expected.expiresAt expected.resource now with
  | .error error => fromAppError error .timeBounds
  | .ok ()       =>
    match matchPaymentIntent R tx expected with
    | .error error        => fromAppError error (.payment .asset)
    | .ok (some mismatch) => .ok <| .rejected .xdrMismatch (.payment mismatch.field) mismatch.message
    | .ok none            =>
      if requireSignature ∧ ¬verifySourceSignature S tx expected.sourcePublicKey then
        .ok <| .rejected .xdrUnsigned .signature
          "Transaction is not validly signed by its source account for the configured network"
      else
        .ok <| .accepted tx (S.hash tx) tx.source tx.sequence

def inspectSignedTransaction (signedXdr : String) (expected : PaymentExpectation) (requireSignature : Bool)
    (now : Time) : Except Failure XdrInspection :=
  match parseSignedPaymentXdr S signedXdr "Signed transaction could not be parsed" with
  | .error error => fromAppError error .envelope
  | .ok tx       => inspectTransaction R S tx expected requireSignature now

structure InspectionAccepted where
  tx       : Transaction
  hash     : String
  source   : String
  sequence : String

-- The details of the error, which name the field, are left out.
def assertSignedTransactionMatchesIntent (signedXdr : String) (expected : PaymentExpectation) (requireSignature : Bool)
    (now : Time) : Except Failure InspectionAccepted := do
  match ← inspectSignedTransaction R S signedXdr expected requireSignature now with
  | .accepted tx hash source sequence => return { tx, hash, source, sequence }
  | .rejected code _ message          => throw <| .badRequest code.text message

end Mergepay.Stellar
