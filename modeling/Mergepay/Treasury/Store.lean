import Mergepay.Concurrency.Transaction
import Mergepay.Settlement.Execution
import Mergepay.Stellar.Envelope

namespace Mergepay.Treasury

open Concurrency Stellar

-- The tables of the treasury

inductive ProposalStatus
  | pending
  | awaitingSignatures
  | ready
  | submitted
  | confirmed
  | failed
  | expired
  deriving DecidableEq

structure StoredSignature where
  publicKey : String
  signature : String
  deriving DecidableEq

structure TreasuryProposal where
  id            : String
  groupId       : String
  xdr           : String
  txHash        : String
  threshold     : Int
  signatures    : List StoredSignature := []
  status        : ProposalStatus
  stellarTxHash : Option String := none
  failureReason : Option String := none
  creatorId     : String := ""
  createdAt     : Time := 0
  deriving DecidableEq

structure TreasuryApproval where
  proposalId : String
  userId     : String
  txHash     : String
  signature  : String
  deriving DecidableEq

inductive TxProposalStatus
  | pendingSignatures
  | ready
  | submitted
  | failed
  deriving DecidableEq

structure TreasuryTxProposal where
  id             : String
  groupId        : String
  xdr            : String
  txHash         : String
  sourceAccount  : String
  requiredWeight : Nat
  status         : TxProposalStatus := .pendingSignatures
  stellarTxHash  : Option String := none
  failureReason  : Option String := none
  deriving DecidableEq

structure TreasurySignature where
  proposalId      : String
  signerUserId    : String
  signerPublicKey : String
  signature       : String
  weight          : Nat
  deriving DecidableEq

inductive TransactionStatus
  | pending
  | confirmed
  | failed
  deriving DecidableEq

inductive Direction
  | deposit
  | withdrawal
  deriving DecidableEq

-- The amount is the text of the decimal column.
structure TreasuryTransaction where
  id             : String
  shortCode      : String
  groupId        : String
  direction      : Direction
  amount         : String
  assetCode      : String
  assetIssuer    : Option String
  stellarTxHash  : Option String := none
  status         : TransactionStatus := .pending
  intendedTxHash : Option String := none
  expiresAt      : Option Time := none
  deriving DecidableEq

inductive AuditAction
  | treasuryConfirm
  | treasuryConfirmFailed
  | treasuryProposalCreated
  | treasuryProposalSigned
  | treasuryProposalSubmitted
  | treasuryProposalFailed
  | treasuryProposalExpired
  | treasuryTxProposalSignatureAdded
  | treasuryTxProposalReady
  | treasuryTxProposalSubmitted
  | treasuryTxProposalFailed
  deriving DecidableEq

inductive AuditOutcome
  | success
  | failure
  deriving DecidableEq

inductive Detail
  | text (s : String)
  | number (n : Int)
  deriving DecidableEq

abbrev Metadata :=
  List (String × Detail)

-- The outcome and the actor's key are stored along with the metadata.
structure AuditLog where
  userId         : Option String
  groupId        : Option String
  action         : AuditAction
  entityType     : String
  entityId       : String
  outcome        : Option AuditOutcome
  actorPublicKey : Option String
  metadata       : Metadata
  deriving DecidableEq

structure Store where
  now          : Time := 0
  members      : List GroupMember := []
  proposals    : List TreasuryProposal := []
  approvals    : List TreasuryApproval := []
  txProposals  : List TreasuryTxProposal := []
  signatures   : List TreasurySignature := []
  transactions : List TreasuryTransaction := []
  auditLogs    : List AuditLog := []
  deriving DecidableEq

-- The columns that are set by an update.

structure ProposalData where
  signatures    : Option (List StoredSignature) := none
  status        : Option ProposalStatus := none
  stellarTxHash : Option String := none
  failureReason : Option String := none
  deriving DecidableEq

structure TxProposalData where
  status         : Option TxProposalStatus := none
  requiredWeight : Option Nat := none
  stellarTxHash  : Option String := none
  failureReason  : Option String := none
  deriving DecidableEq

structure TransactionData where
  status        : Option TransactionStatus := none
  stellarTxHash : Option String := none
  deriving DecidableEq

def TreasuryProposal.set (p : TreasuryProposal) (data : ProposalData) : TreasuryProposal := { p with
  signatures    := data.signatures.getD p.signatures
  status        := data.status.getD p.status
  stellarTxHash := data.stellarTxHash <|> p.stellarTxHash
  failureReason := data.failureReason <|> p.failureReason
}

@[simp]
theorem TreasuryProposal.set_id (p : TreasuryProposal) (data : ProposalData) :
    (p.set data).id = p.id :=
  rfl

def TreasuryTxProposal.set (p : TreasuryTxProposal) (data : TxProposalData) : TreasuryTxProposal := {
  p with
  status         := data.status.getD p.status
  requiredWeight := data.requiredWeight.getD p.requiredWeight
  stellarTxHash  := data.stellarTxHash <|> p.stellarTxHash
  failureReason  := data.failureReason <|> p.failureReason
}

@[simp]
theorem TreasuryTxProposal.set_id (p : TreasuryTxProposal) (data : TxProposalData) :
    (p.set data).id = p.id :=
  rfl

def TreasuryTransaction.set (t : TreasuryTransaction) (data : TransactionData) :
    TreasuryTransaction := { t with
  status        := data.status.getD t.status
  stellarTxHash := data.stellarTxHash <|> t.stellarTxHash
}

@[simp]
theorem TreasuryTransaction.set_id (t : TreasuryTransaction) (data : TransactionData) :
    (t.set data).id = t.id :=
  rfl

-- The account of a treasury, as it is reported by Horizon

structure Signer where
  key    : String
  weight : Nat
  deriving DecidableEq

structure Thresholds where
  low  : Nat
  med  : Nat
  high : Nat
  deriving DecidableEq

structure AccountSnapshot where
  exists_    : Bool
  signers    : List Signer
  thresholds : Thresholds
  deriving DecidableEq

structure MultisigRequirement where
  signers   : List String
  threshold : Nat
  deriving DecidableEq

-- A member of a group, along with the account key of that user.
structure MemberKey where
  userId    : String
  publicKey : String
  deriving DecidableEq

structure DecoratedSignature where
  hint      : String
  signature : String
  deriving DecidableEq

-- The functions of the SDK which are about the signers of an envelope. Texts that are not public keys
-- have no hint.
structure Sdk extends Stellar.Sdk where
  signatureHint : String → Option String
  decorated     : String → List DecoratedSignature
  parseError    : String → String
  toXDR         : Transaction → List DecoratedSignature → String

-- The functions on which the treasury code depends. A user has signed up with an account key, which
-- no other user has, and which is never changed afterwards.
structure Deps extends Money.Registry where
  sdk                          : Sdk
  publicKeyOf                  : String → String
  publicKeyOf_injective        : Function.Injective publicKeyOf
  assertTreasuryEnvelopePolicy : Transaction → String → Time → Except Failure Unit

-- The statements of a transaction, and the calls of Horizon in between.
inductive Action
  | now
  | findProposal (id : String)
  | findApprovals (proposalId : String)
  | findMembers (groupId : String)
  | findAdmins (groupId : String)
  | findTxProposal (id : String)
  | findSignatures (proposalId : String)
  | findTransaction (id : String)
  | createApproval (row : TreasuryApproval)
  | updateProposal (id : String) (data : ProposalData)
  | createSignature (row : TreasurySignature)
  | updateTxProposal (id : String) (data : TxProposalData)
  | updateTransaction (id : String) (data : TransactionData)
  | createAuditLog (row : AuditLog)
  | loadAccount (publicKey : String)
  | submitSigned (signedXdr : String)
  | submitPayment (signedXdr : String) (expected : PaymentExpectation)
  | submitMultisigPayment (signedXdr : String) (expected : PaymentExpectation)
      (multisig : MultisigRequirement)

abbrev Action.Answer : Action → Type
  | now               => Time
  | findProposal _    => Option TreasuryProposal
  | findApprovals _   => List TreasuryApproval
  | findMembers _     => List MemberKey
  | findAdmins _      => List MemberKey
  | findTxProposal _  => Option TreasuryTxProposal
  | findSignatures _  => List TreasurySignature
  | findTransaction _ => Option TreasuryTransaction
  | loadAccount _     => AccountSnapshot
  | submitSigned _ | submitPayment _ _ | submitMultisigPayment _ _ _ => String
  | createApproval _ | updateProposal _ _ | createSignature _ | updateTxProposal _ _
  | updateTransaction _ _ | createAuditLog _ => Unit

-- What decides about the outcome of an action: Horizon reports any account, and accepts or rejects
-- any envelope. Apart from that, the connection may be lost.
inductive Choice
  | plain
  | lost
  | account (a : AccountSnapshot)
  | accepted (hash : String)
  | rejected (e : Failure)

-- Users may join, change their role and leave in the meantime.
inductive Event
  | pass (t : Time)
  | setMembers (l : List GroupMember)

namespace Store

variable (D : Deps) (s : Store)

def proposal (id : String) : Option TreasuryProposal :=
  Table.row? (·.id) s.proposals id

def approvalsOf (id : String) : List TreasuryApproval :=
  s.approvals.filter (·.proposalId = id)

def txProposal (id : String) : Option TreasuryTxProposal :=
  Table.row? (·.id) s.txProposals id

def signaturesOf (id : String) : List TreasurySignature :=
  s.signatures.filter (·.proposalId = id)

def transaction (id : String) : Option TreasuryTransaction :=
  Table.row? (·.id) s.transactions id

def memberKeys (p : GroupMember → Bool) : List MemberKey :=
  (s.members.filter p).map fun m => { userId := m.userId, publicKey := D.publicKeyOf m.userId }

end Store

def connectionLost : Failure := .error "P1017" "Server has closed the connection"

-- Both tables have a unique index on the proposal together with the user.
def admits : Action → Store → Bool
  | .createApproval row, s  => ¬s.approvals.any fun a =>
    a.proposalId = row.proposalId ∧ a.userId = row.userId
  | .createSignature row, s => ¬s.signatures.any fun a =>
    a.proposalId = row.proposalId ∧ a.signerUserId = row.signerUserId
  | _, _ => true

def effect : Action → Store → Store
  | .createApproval row, s        => { s with approvals := s.approvals ++ [row] }
  | .updateProposal id data, s    =>
    { s with proposals := Table.update (·.id = id) (·.set data) s.proposals }
  | .createSignature row, s       => { s with signatures := s.signatures ++ [row] }
  | .updateTxProposal id data, s  =>
    { s with txProposals := Table.update (·.id = id) (·.set data) s.txProposals }
  | .updateTransaction id data, s =>
    { s with transactions := Table.update (·.id = id) (·.set data) s.transactions }
  | .createAuditLog row, s        => { s with auditLogs := s.auditLogs ++ [row] }
  | _, s => s

def answer (D : Deps) : (a : Action) → Choice → Store → Option (Except Failure a.Answer)
  | _, .lost, _                                         => some (.error connectionLost)
  | .loadAccount _, .account a, _                       => some (.ok a)
  | .loadAccount _, .rejected e, _                      => some (.error e)
  | .submitSigned _, .accepted hash, _                  => some (.ok hash)
  | .submitSigned _, .rejected e, _                     => some (.error e)
  | .submitPayment _ _, .accepted hash, _               => some (.ok hash)
  | .submitPayment _ _, .rejected e, _                  => some (.error e)
  | .submitMultisigPayment _ _ _, .accepted hash, _     => some (.ok hash)
  | .submitMultisigPayment _ _ _, .rejected e, _        => some (.error e)
  | .now, .plain, s                  => some (.ok s.now)
  | .findProposal id, .plain, s      => some (.ok (s.proposal id))
  | .findApprovals id, .plain, s     => some (.ok (s.approvalsOf id))
  | .findMembers id, .plain, s       => some (.ok (s.memberKeys D (·.groupId = id)))
  | .findAdmins id, .plain, s        =>
    some (.ok (s.memberKeys D fun m => m.groupId = id ∧ m.role = "admin"))
  | .findTxProposal id, .plain, s    => some (.ok (s.txProposal id))
  | .findSignatures id, .plain, s    => some (.ok (s.signaturesOf id))
  | .findTransaction id, .plain, s   => some (.ok (s.transaction id))
  | .createApproval row, .plain, s   =>
    some (if admits (.createApproval row) s then .ok () else .error World.uniqueViolation)
  | .createSignature row, .plain, s  =>
    some (if admits (.createSignature row) s then .ok () else .error World.uniqueViolation)
  | .updateProposal id _, .plain, s    =>
    some (if (s.proposal id).isSome then .ok () else .error World.recordNotFound)
  | .updateTxProposal id _, .plain, s  =>
    some (if (s.txProposal id).isSome then .ok () else .error World.recordNotFound)
  | .updateTransaction id _, .plain, s =>
    some (if (s.transaction id).isSome then .ok () else .error World.recordNotFound)
  | .createAuditLog _, .plain, _       => some (.ok ())
  | _, _, _ => none

def database (D : Deps) : Database Store Action Action.Answer Failure Choice where
  answer := answer D
  effect := effect
  admits := admits
  commit := fun
    | .plain => some (.ok ())
    | .lost  => some (.error connectionLost)
    | _      => none

def env : Event → Store → Option Store
  | .pass t, s       => if s.now ≤ t then some { s with now := t } else none
  | .setMembers l, s => some { s with members := l }

theorem env_eq_some {e : Event} {s s' : Store} (h : env e s = some s') :
    ∃ now members, s' = { s with now, members } := by
  cases e with
  | pass t =>
    simp only [env, Option.ite_none_right_eq_some, Option.some.injEq] at h
    exact ⟨t, s.members, h.2.symm⟩
  | setMembers l =>
    simp only [env, Option.some.injEq] at h
    exact ⟨s.now, l, h.symm⟩

abbrev Tx (α : Type) :=
  Prog Action Action.Answer Failure α

abbrev TxStep (ι : Type) :=
  Database.Step ι Action Action.Answer Failure

abbrev TxConfig (ι : Type) :=
  Config Store (TxStep ι) Database.Step.Answer Failure

def act (a : Action) : Tx a.Answer :=
  .perform a

def lift : Except Failure α → Tx α
  | .ok a    => .done a
  | .error e => .fail e

-- The audit trail

structure AuditParams where
  userId         : Option String := none
  groupId        : Option String := none
  actorPublicKey : Option String := none
  action         : AuditAction
  entityType     : String
  entityId       : String
  outcome        : Option AuditOutcome := none
  metadata       : Metadata := []

def auditRedactedKeys : List String := [
  "privatekey", "secretkey", "seed", "mnemonic", "signedxdr", "transactionxdr", "xdr", "token",
  "accesstoken", "refreshtoken", "sessiontoken", "idtoken", "jwt", "authorization", "cookie",
  "password", "secret", "clientsecret", "apikey", "credentials", "credential"
]

def auditRedacted := "[REDACTED]"

def sanitizeAuditMetadata (metadata : Metadata) : Metadata :=
  metadata.map fun (key, item) =>
    if .ofList (key.toList.map Char.toLower) ∈ auditRedactedKeys
    then (key, .text auditRedacted)
    else (key, item)

def auditData (params : AuditParams) : AuditLog := {
  userId         := params.userId
  groupId        := params.groupId
  action         := params.action
  entityType     := params.entityType
  entityId       := params.entityId
  outcome        := params.outcome
  actorPublicKey := params.actorPublicKey.bind Money.present
  metadata       := sanitizeAuditMetadata params.metadata
}

def auditTx (params : AuditParams) : Tx Unit :=
  act <| .createAuditLog (auditData params)

structure MultisigAuditParams where
  userId         : Option String
  groupId        : String
  proposalId     : String
  entityType     : String := "treasury_proposal"
  actorPublicKey : Option String
  action         : AuditAction
  outcome        : AuditOutcome := .success
  metadata       : Metadata

def auditMultisigActionTx (params : MultisigAuditParams) : Tx Unit :=
  auditTx {
    userId         := params.userId
    groupId        := params.groupId
    actorPublicKey := params.actorPublicKey
    action         := params.action
    entityType     := params.entityType
    entityId       := params.proposalId
    outcome        := params.outcome
    metadata       := params.metadata
  }

-- Envelopes

def parseTreasuryXdr (D : Deps) (xdr malformedMessage : String) : Except Failure Transaction :=
  match D.sdk.fromXDR xdr with
  | none                   => .error <| .badRequest "xdr_malformed" malformedMessage
  | some .feeBump          =>
    .error <| .badRequest "xdr_mismatch" "Fee-bump transaction envelopes are not accepted"
  | some (.transaction tx) => .ok tx

-- `new Transaction(xdr, networkPassphrase)`
def newTransaction (D : Deps) (xdr : String) : Except Failure Transaction :=
  match D.sdk.fromXDR xdr with
  | some (.transaction tx)   => .ok tx
  | some .feeBump | none => .error <| .plain (D.sdk.parseError xdr)

-- A signature is only added if it verifies. The error that is raised otherwise is always ignored.
def addSignature (D : Deps) (tx : Transaction) (signatures : List DecoratedSignature)
    (publicKey signature : String) : List DecoratedSignature :=
  match D.sdk.signatureHint publicKey with
  | none      => signatures
  | some hint =>
    if D.sdk.verify publicKey (D.sdk.hash tx) signature
    then signatures ++ [{ hint, signature }]
    else signatures

end Mergepay.Treasury
