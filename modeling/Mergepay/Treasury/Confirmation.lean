import Mergepay.Treasury.Store

namespace Mergepay.Treasury

open Concurrency Stellar

variable (D : Deps)

-- What the route has found out before it starts the operation: who confirms, and between which
-- accounts. Withdrawals are signed by several accounts.
structure ConfirmArgs where
  id               : String
  userId           : String
  stellarPublicKey : String
  source           : String
  destination      : String
  multisig         : Option MultisigRequirement
  signedXdr        : String
  deriving DecidableEq

-- Signatures are not checked here, other than by `validatePaymentTx`.
def validateTreasurySignedXdr (signedXdr : String) (intent : PaymentExpectation) (now : Time) :
    Except Failure Transaction := do
  let tx ← parseSignedPaymentXdr D.sdk.toSdk signedXdr "Signed transaction could not be parsed"
  assertTimeBoundsMatchIntent tx.timeBounds intent.expiresAt intent.resource now
  assertMatchesIntent D.toRegistry tx intent
  return tx

def ConfirmArgs.expected (args : ConfirmArgs) (fresh : TreasuryTransaction) : PaymentExpectation := {
  sourcePublicKey := args.source
  destination     := args.destination
  asset           := { code := fresh.assetCode, issuer := fresh.assetIssuer }
  amount          := fresh.amount
  memoCode        := fresh.shortCode
  expiresAt       := fresh.expiresAt
  resource        := "treasury transaction"
}

def checkIntended (args : ConfirmArgs) (fresh : TreasuryTransaction) (intendedTxHash : String)
    (now : Time) : Except Failure Unit := do
  let tx ← validateTreasurySignedXdr D args.signedXdr { args.expected fresh with
    skipSourceSignatureCheck := args.multisig.isSome
  } now
  if D.sdk.hash tx ≠ intendedTxHash then
    throw <| .badRequest "xdr_mismatch"
      "Submitted signed XDR does not match the intended transaction"

def checkIntent (args : ConfirmArgs) (fresh : TreasuryTransaction) : Tx Unit :=
  match fresh.intendedTxHash.bind Money.present with
  | none                => .done ()
  | some intendedTxHash => do
    let now ← act .now
    lift <| checkIntended D args fresh intendedTxHash now

-- The content of the `try` block.
def submitConfirmation (args : ConfirmArgs) (fresh : TreasuryTransaction) : Tx String := do
  checkIntent D args fresh
  match args.multisig with
  | some multisig => act <| .submitMultisigPayment args.signedXdr (args.expected fresh) multisig
  | none          => act <| .submitPayment args.signedXdr (args.expected fresh)

def auditConfirmation (args : ConfirmArgs) (fresh : TreasuryTransaction) (action : AuditAction)
    (outcome : Option AuditOutcome) (metadata : Metadata) : Tx Unit :=
  auditTx {
    userId         := args.userId
    groupId        := fresh.groupId
    actorPublicKey := args.stellarPublicKey
    action         := action
    entityType     := "treasury_transaction"
    entityId       := args.id
    outcome        := outcome
    metadata       := metadata
  }

def Direction.text : Direction → String
  | deposit    => "deposit"
  | withdrawal => "withdrawal"

-- Application errors are passed on, and all others are replaced.
def reportedError : Failure → Failure
  | .app status code message => .app status code message
  | _                        => .upstream "Transaction submission failed"

def recordConfirmFailed (args : ConfirmArgs) (fresh : TreasuryTransaction) (e : Failure) :
    Tx TreasuryTransaction := do
  act <| .updateTransaction args.id { status := some .failed }
  auditConfirmation args fresh .treasuryConfirmFailed (some .failure) [
    ("direction", .text fresh.direction.text),
    ("reason", .text e.message)
  ]
  throw (reportedError e)

def recordConfirmed (args : ConfirmArgs) (fresh : TreasuryTransaction) (hash : String) :
    Tx TreasuryTransaction := do
  let data : TransactionData := { status := some .confirmed, stellarTxHash := some hash }
  act <| .updateTransaction args.id data
  auditConfirmation args fresh .treasuryConfirm none [
    ("hash", .text hash),
    ("direction", .text fresh.direction.text)
  ]
  return fresh.set data

-- The operation that the confirm route runs under its idempotency key.
def confirmOperation (args : ConfirmArgs) : Tx TreasuryTransaction := do
  let some fresh ← act <| .findTransaction args.id
    | throw <| .notFound "Treasury transaction not found"
  if fresh.status = .confirmed then
    return fresh
  match ← (submitConfirmation D args fresh).attempt with
  | .ok hash => recordConfirmed args fresh hash
  | .error e => recordConfirmFailed args fresh e

end Mergepay.Treasury
