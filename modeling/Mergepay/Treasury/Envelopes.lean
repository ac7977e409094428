import Mergepay.Treasury.Signatures

-- The envelopes that may be signed for a treasury. They have been built elsewhere.
namespace Mergepay.Treasury

open Stellar

-- The fields of operations that are read, as the SDK decodes them
structure TreasuryOperation where
  type        : Option String := none
  source      : Option String := none
  amount      : Option String := none
  destination : Option String := none
  deriving DecidableEq

structure TreasuryEnvelopePolicy where
  treasuryAccountPublicKey : String
  maxOperations            : Option Nat := none
  maxFeeStroops            : Option Nat := none

structure TreasuryEnvelopeInspection where
  tx             : Transaction
  operationTypes : List String
  feeStroops     : Nat

-- The functions of the SDK on which the inspection depends
structure EnvelopeSdk where
  operations               : Transaction → List TreasuryOperation
  isValidEd25519PublicKey  : String → Bool
  isValidMed25519PublicKey : String → Bool

def maxTreasuryOperations : Nat := 10

def positiveAmountOperations : List String :=
  ["payment"]

def accountDestinationOperations : List String :=
  ["payment", "createAccount", "accountMerge"]

-- The details of the error, which name the rule, are left out.
def policyRejected (message : String) : Except Failure α :=
  .error <| .badRequest "xdr_mismatch" message

variable (E : EnvelopeSdk)

def checkOperation (treasuryAccountPublicKey : String) (operation : TreasuryOperation) (index : Nat) :
    Except Failure Unit :=
  let type := operation.type.getD ""
  let destination := operation.destination.getD ""
  if operation.source.any fun source => source ≠ "" ∧ source ≠ treasuryAccountPublicKey then
    policyRejected <| "Operation " ++ toString index ++ " is sourced from an account other than the group's treasury"
  else if type ∈ positiveAmountOperations ∧ (Money.validateAmount <| operation.amount.getD "").toBool = false then
    policyRejected <| "Operation " ++ toString index ++ " does not carry a positive payment amount"
  else if type ∈ accountDestinationOperations ∧ ¬E.isValidEd25519PublicKey destination ∧
      ¬E.isValidMed25519PublicKey destination then
    policyRejected <| "Operation " ++ toString index ++ " does not name a valid destination account"
  else
    .ok ()

def checkOperationCount (count maxOperations : Nat) : Except Failure Unit :=
  if count = 0 then
    policyRejected "Transaction must carry at least one operation"
  else if count > maxOperations then
    policyRejected <| "Transaction carries " ++ toString count ++
      " operations; a treasury proposal may carry at most " ++ toString maxOperations
  else
    .ok ()

def checkFee (feeStroops minFeeStroops maxFeeStroops : Nat) : Except Failure Unit :=
  if feeStroops < minFeeStroops then
    policyRejected "Transaction fee is below the network minimum for its operations"
  else if feeStroops > maxFeeStroops then
    policyRejected "Transaction fee exceeds what this treasury proposal may pay"
  else
    .ok ()

def assertTreasuryEnvelopePolicy (tx : Transaction) (policy : TreasuryEnvelopePolicy) (now : Time) :
    Except Failure TreasuryEnvelopeInspection := do
  if tx.source ≠ policy.treasuryAccountPublicKey then
    policyRejected "Transaction source must be the group's treasury account"
  let operations := E.operations tx
  checkOperationCount operations.length <| policy.maxOperations.getD maxTreasuryOperations
  operations.zipIdx.forM fun (operation, index) => checkOperation E policy.treasuryAccountPublicKey operation index
  checkFee tx.fee (minFeeStroopsPerOp * operations.length) <|
    policy.maxFeeStroops.getD (maxFeeStroopsPerOp * operations.length)
  assertTimeBoundsMatchIntent tx.timeBounds none "treasury transaction" now
  return { tx, operationTypes := operations.map (·.type.getD "unknown"), feeStroops := tx.fee }

def inspectTreasuryXdr (D : Deps) (xdr : String) (policy : TreasuryEnvelopePolicy) (now : Time) :
    Except Failure TreasuryEnvelopeInspection := do
  assertTreasuryEnvelopePolicy E (← parseTreasuryXdr D xdr "Could not parse transaction XDR") policy now

-- The checks of an envelope for which signatures are going to be collected
def checkProposed (D : Deps) (xdr treasuryAccountPublicKey : String) (now : Time) : Except Failure String := do
  let tx ← parseTreasuryXdr D xdr "Could not parse transaction XDR"
  if tx.signatures.length > 0 then
    throw <| .badRequest "xdr_not_unsigned" "Expected an unsigned transaction envelope"
  let _ ← assertTreasuryEnvelopePolicy E tx { treasuryAccountPublicKey } now
  return D.sdk.hash tx

end Mergepay.Treasury
