import Mathlib.Data.List.Sort
import Mergepay.Concurrency.Session
import Mergepay.Settlement.Verification
import Mergepay.Treasury.Proposals

namespace Mergepay.Treasury

open Concurrency Stellar

-- The tables that are used along with those of the treasury. The number of signers has been checked by the
-- route that sets it.

structure TreasuryGroup where
  id                       : String
  treasuryEnabled          : Bool := false
  treasuryAccountPublicKey : Option String := none
  treasuryRequiredSigners  : Option { n : Nat // 1 ≤ n ∧ n ≤ 20 } := none
  deriving DecidableEq

-- The ledger is given by the hashes of the transactions that have been applied.
structure LifecycleStore extends Store where
  groups : List TreasuryGroup := []
  ledger : List String := []
  deriving DecidableEq

structure CreateProposalParams where
  groupId          : String
  creatorId        : String
  creatorPublicKey : String
  destination      : String
  amount           : String
  assetCode        : String
  assetIssuer      : Option String := none
  memo             : Option String := none
  deriving DecidableEq

structure TreasuryPaymentIntent where
  sourcePublicKey : String
  destination     : String
  assetCode       : String
  assetIssuer     : Option String
  amount          : String
  memoCode        : String
  deriving DecidableEq

-- The statements of all parties that deal with proposals. The building of an envelope is left to its
-- surroundings.
inductive LifecycleAction
  | core (a : Action)
  | shortCode
  | newId
  | findGroup (id : String)
  | buildPayment (intent : TreasuryPaymentIntent)
  | createProposal (row : TreasuryProposal)
  | findStale (olderThan : Time) (limit : Nat)
  | findCandidates (limit : Nat)
  | expire (id : String)
  | markSubmitted (id txHash : String)

abbrev LifecycleAction.Answer : LifecycleAction → Type
  | core a                                => a.Answer
  | shortCode | newId | buildPayment _    => String
  | findGroup _                           => Option TreasuryGroup
  | createProposal _                      => TreasuryProposal
  | findStale _ _ | findCandidates _      => List TreasuryProposal
  | expire _ | markSubmitted _ _          => Unit

inductive LifecycleChoice
  | core (x : Choice)
  | text (t : String)

inductive LifecycleEvent
  | core (e : Event)
  | setGroups (l : List TreasuryGroup)
  | apply (hash : String)

structure LifecycleDeps extends Deps where
  expiryDays         : Nat
  batchSize          : Nat
  maxAttempts        : Nat
  safeFailureMessage : Failure → String

def envelopeHash (D : Deps) (xdr : String) : Option String :=
  (newTransaction D xdr).toOption.map D.sdk.hash

namespace LifecycleStore

variable (s : LifecycleStore)

def group (id : String) : Option TreasuryGroup :=
  Table.row? (·.id) s.groups id

def applied (D : Deps) (xdr : String) : Bool :=
  (envelopeHash D xdr).any (· ∈ s.ledger)

def stale (olderThan : Time) : List TreasuryProposal :=
  s.proposals.filter fun p => p.status = .pending ∧ p.createdAt < olderThan

def candidates : List TreasuryProposal :=
  s.proposals.filter (·.status ∈ [.ready, .pending, .awaitingSignatures])

end LifecycleStore

def oldestFirst (l : List TreasuryProposal) (limit : Nat) : List TreasuryProposal :=
  (l.insertionSort (·.createdAt ≤ ·.createdAt)).take limit

def expiredData : ProposalData := {
  status        := some .expired
  failureReason := some "Proposal expired before reaching its signature threshold"
}

def lifecycleAdmits : LifecycleAction → LifecycleStore → Bool
  | .core a, s             => admits a s.toStore
  | .createProposal row, s => (s.proposal row.id).isNone
  | .expire id, s          => (s.proposal id).any (·.status = .pending)
  | _, _                   => true

def lifecycleEffect : LifecycleAction → LifecycleStore → LifecycleStore
  | .core a, s                  => { s with toStore := effect a s.toStore }
  | .createProposal row, s      =>
    { s with proposals := s.proposals ++ [{ row with createdAt := s.now }] }
  | .expire id, s               => { s with
    proposals := Table.update (fun p => p.id = id ∧ p.status = .pending) (·.set expiredData) s.proposals }
  | .markSubmitted id txHash, s => { s with
    proposals := Table.update (·.id = id) ({ · with status := .submitted, txHash }) s.proposals }
  | _, s                        => s

-- Horizon only accepts an envelope once it has been applied. Otherwise, the outcome may be unknown.
def lifecycleAnswer (D : Deps) : (a : LifecycleAction) → LifecycleChoice → LifecycleStore →
    Option (Except Failure a.Answer)
  | .core (.submitSigned xdr), .core (.accepted hash), s =>
    if s.applied D xdr then some (.ok hash) else none
  | .core a, .core x, s                        => answer D a x s.toStore
  | .shortCode, .text code, _                  => some (.ok code)
  | .shortCode, _, _                           => none
  | _, .core .lost, _                          => some (.error connectionLost)
  | .newId, .text id, _                        => some (.ok id)
  | .buildPayment _, .text xdr, _              => some (.ok xdr)
  | .buildPayment _, .core (.rejected e), _    => some (.error e)
  | .findGroup id, .core .plain, s             => some (.ok (s.group id))
  | .createProposal row, .core .plain, s       => some <|
    if (s.proposal row.id).isNone then .ok { row with createdAt := s.now } else .error World.uniqueViolation
  | .findStale olderThan limit, .core .plain, s => some (.ok (oldestFirst (s.stale olderThan) limit))
  | .findCandidates limit, .core .plain, s     => some (.ok (oldestFirst s.candidates limit))
  | .expire id, .core .plain, s                => some <|
    if (s.proposal id).any (·.status = .pending) then .ok () else .error noneMatched
  | .markSubmitted id _, .core .plain, s       => some <|
    if (s.proposal id).isSome then .ok () else .error World.recordNotFound
  | _, _, _                                    => none

def lifecycleDatabase (D : Deps) :
    Database LifecycleStore LifecycleAction LifecycleAction.Answer Failure LifecycleChoice where
  answer := lifecycleAnswer D
  effect := lifecycleEffect
  admits := lifecycleAdmits
  commit := fun
    | .core .plain => some (.ok ())
    | .core .lost  => some (.error connectionLost)
    | _            => none

-- What has been applied stays applied.
def lifecycleEnv : LifecycleEvent → LifecycleStore → Option LifecycleStore
  | .core e, s      => (env e s.toStore).map ({ s with toStore := · })
  | .setGroups l, s => some { s with groups := l }
  | .apply hash, s  => some { s with ledger := hash :: s.ledger }

abbrev LifecycleTx (α : Type) :=
  Prog LifecycleAction LifecycleAction.Answer Failure α

abbrev LifecycleLog :=
  Log LifecycleAction LifecycleAction.Answer Failure

def embed : Tx α → LifecycleTx α
  | .done a   => .done a
  | .fail e   => .fail e
  | .call a k => .call (.core a) fun r => embed (k r)

-- The requests for the creation and for the signing of a proposal, and the tasks of the worker.
inductive LifecycleRequest
  | create (params : CreateProposalParams)
  | sign (args : SubmitSignaturesArgs)
  | cleanup
  | process
  deriving DecidableEq

abbrev LifecycleSession (α : Type) :=
  Database.Session LifecycleRequest LifecycleAction LifecycleAction.Answer Failure α

variable (D : LifecycleDeps) (i : LifecycleRequest)

def query (a : LifecycleAction) : LifecycleSession a.Answer :=
  Prog.perform (Database.Step.act i [] a)

def audit (params : AuditParams) : LifecycleSession Unit :=
  ((embed (auditTx params)).transaction i []).swallow

-- The creation of a proposal

def classifyProposalBuildError : Failure → Failure
  | .app status code message => .app status code message
  | e =>
    let message := e.message.toList.map Char.toLower
    if occurs "threshold" message ∨ occurs "signer" message then
      .badRequest "multisig_configuration_invalid"
        "The treasury multisig configuration cannot authorize this proposal"
    else if occurs "sequence" message ∨ occurs "bad_seq" message then
      .badRequest "multisig_sequence_invalid"
        "The treasury account sequence is not valid for this proposal"
    else if occurs "unique constraint" message ∨ occurs "p2002" message then
      .conflict "proposal_duplicate" "A matching treasury proposal already exists"
    else
      .upstream "The treasury proposal could not be built"

def treasuryDisabled : Failure :=
  .badRequest "treasury_disabled" "Treasury is not enabled for this group"

-- The account of a treasury that is enabled.
def TreasuryGroup.account (g : TreasuryGroup) : Option String :=
  if g.treasuryEnabled then g.treasuryAccountPublicKey.bind Money.present else none

structure BuiltPayment where
  xdr    : String
  txHash : String

def memoText (memo : Option String) : LifecycleSession String :=
  match memo with
  | some memo => return memo
  | none      => do
    let code ← query i .shortCode
    return "MP:" ++ code

def buildProposal (params : CreateProposalParams) (account : String) : LifecycleSession BuiltPayment := do
  let snapshot ← query i (.core <| .loadAccount account)
  if ¬snapshot.exists_ then
    throw <| .badRequest "treasury_unfunded" "Treasury account is not funded on the Stellar network"
  let memoCode ← memoText i params.memo
  let xdr ← query i <| .buildPayment {
    sourcePublicKey := account
    destination     := params.destination
    assetCode       := params.assetCode
    assetIssuer     := params.assetIssuer
    amount          := params.amount
    memoCode        := memoCode
  }
  let baseTx ← Prog.ofExcept (newTransaction D.toDeps xdr)
  return { xdr, txHash := D.sdk.hash baseTx }

def initialStatus (threshold : Int) : ProposalStatus :=
  if threshold > 1 then .awaitingSignatures else .pending

def insertProposal (params : CreateProposalParams) (account : String) (built : BuiltPayment)
    (threshold : Int) : LifecycleTx TreasuryProposal := do
  let id ← Prog.perform LifecycleAction.newId
  let created ← Prog.perform <| LifecycleAction.createProposal {
    id        := id
    groupId   := params.groupId
    creatorId := params.creatorId
    xdr       := built.xdr
    txHash    := built.txHash
    threshold := threshold
    status    := initialStatus threshold
  }
  embed <| auditMultisigActionTx {
    userId         := params.creatorId
    groupId        := params.groupId
    actorPublicKey := params.creatorPublicKey
    action         := .treasuryProposalCreated
    proposalId     := created.id
    metadata       := [
      ("sourceAccount", .text account),
      ("txHash", .text created.txHash),
      ("destination", .text params.destination),
      ("amount", .text params.amount),
      ("assetCode", .text params.assetCode),
      ("threshold", .number threshold)
    ]
  }
  return created

-- An attempt is recorded even though there is no proposal.
def failBuild (params : CreateProposalParams) (e : Failure) : LifecycleSession α := do
  audit i {
    userId         := params.creatorId
    groupId        := params.groupId
    actorPublicKey := params.creatorPublicKey
    action         := .treasuryProposalFailed
    entityType     := "treasury_proposal_build"
    entityId       := params.groupId ++ ":" ++ params.creatorId
    outcome        := some .failure
    metadata       := [("errorCode", .text "AppError")]
  }
  throw (classifyProposalBuildError e)

def create (params : CreateProposalParams) (threshold : Int) : LifecycleSession TreasuryProposal := do
  let treasury ← query i (.findGroup params.groupId)
  let some account := treasury.bind (·.account)
    | throw treasuryDisabled
  match ← (buildProposal D i params account).attempt with
  | .error e  => failBuild i params e
  | .ok built =>
    match ← ((insertProposal params account built threshold).transaction i []).attempt with
    | .error e     => failBuild i params e
    | .ok proposal => return proposal

-- The route reads the group on its own, in order to determine the threshold.
def proposePayment (params : CreateProposalParams) : LifecycleSession TreasuryProposal := do
  match ← query i (.findGroup params.groupId) with
  | none       => throw treasuryDisabled
  | some group =>
    if group.account.isNone then
      throw treasuryDisabled
    create D i params ((group.treasuryRequiredSigners.map (·.val)).getD 1)

-- The expiry of proposals

def proposalExpiryCutoff (now : Time) (ageDays : Nat) : Time :=
  now - ageDays * 24 * 60 * 60 * 1000

def expireOne (proposal : TreasuryProposal) (now : Time) : LifecycleTx Bool := do
  match ← (Prog.perform <| LifecycleAction.expire proposal.id).attempt with
  | .error e => if e = noneMatched then return false else throw e
  | .ok _    =>
    embed <| auditTx {
      userId     := proposal.creatorId
      groupId    := proposal.groupId
      action     := .treasuryProposalExpired
      entityType := "treasury_proposal"
      entityId   := proposal.id
      metadata   := [
        ("from", .text "pending"),
        ("to", .text "expired"),
        ("ageMs", .number (now - proposal.createdAt)),
        ("source", .text "worker")
      ]
    }
    return true

def expireEach (now : Time) (expired : Nat) : List TreasuryProposal → LifecycleSession Nat
  | []      => return expired
  | p :: ps => do
    let changed ← (expireOne p now).transaction i []
    expireEach now (if changed then expired + 1 else expired) ps

structure ExpireStaleProposalsResult where
  expired   : Nat
  olderThan : Time

def expireStaleProposals : LifecycleSession ExpireStaleProposalsResult := do
  let now ← query i (.core .now)
  let olderThan := proposalExpiryCutoff now D.expiryDays
  let stale ← query i (.findStale olderThan D.batchSize)
  let expired ← expireEach i now 0 stale
  return { expired, olderThan }

-- The submission of proposals that have all signatures

-- The remaining attempts of a job, starting with the given one. Returns whether it has succeeded.
def executeWorkerJobWithRetry (task : LifecycleSession Unit) (onDeadLetter : String → LifecycleSession Unit)
    (attempt : Nat) : Nat → LifecycleSession Bool
  | 0             => return false
  | remaining + 1 => do
    match ← task.attempt with
    | .ok _    => return true
    | .error e =>
      if classifyJobFailure e = .permanent ∨ attempt ≥ D.maxAttempts then
        onDeadLetter (D.safeFailureMessage e)
        return false
      else
        executeWorkerJobWithRetry task onDeadLetter (attempt + 1) remaining

def broadcast (proposal : TreasuryProposal) : LifecycleSession Unit := do
  let stellarTxHash ← if proposal.xdr = "" then pure proposal.txHash
    else query i (.core <| .submitSigned proposal.xdr)
  (Prog.perform <| LifecycleAction.markSubmitted proposal.id stellarTxHash).transaction i []

def recordDeadLetter (proposal : TreasuryProposal) (reason : String) : LifecycleSession Unit :=
  Prog.transaction i [] do
    embed <| act (.updateProposal proposal.id { status := some .failed })
    embed <| auditTx {
      userId     := proposal.creatorId
      action     := .treasuryProposalFailed
      entityType := "treasury_proposal"
      entityId   := proposal.id
      outcome    := some .failure
      metadata   := [("reason", .text reason), ("source", .text "worker")]
    }

structure ProcessPendingMultisigResult where
  processed : Nat := 0
  submitted : Nat := 0
  failed    : Nat := 0

def processEach (result : ProcessPendingMultisigResult) :
    List TreasuryProposal → LifecycleSession ProcessPendingMultisigResult
  | []      => return result
  | p :: ps =>
    if p.signatures.length < p.threshold then
      processEach result ps
    else do
      let success ← executeWorkerJobWithRetry D (broadcast i p) (recordDeadLetter i p) 1 D.maxAttempts
      let processed := result.processed + 1
      processEach (if success then { result with processed, submitted := result.submitted + 1 }
        else { result with processed, failed := result.failed + 1 }) ps

def processPendingTreasuryMultisig : LifecycleSession ProcessPendingMultisigResult := do
  let proposals ← query i (.findCandidates D.batchSize)
  processEach D i {} proposals

def lifecycleRequest : LifecycleRequest → LifecycleSession Unit
  | .create params => do let _ ← proposePayment D (.create params) params
  | .sign args     => do let _ ← (embed (submitSignatures D.toDeps args)).transaction (.sign args) []
  | .cleanup       => do let _ ← expireStaleProposals D .cleanup
  | .process       => do let _ ← processPendingTreasuryMultisig D .process

abbrev LifecycleStep :=
  Database.Step LifecycleRequest LifecycleAction LifecycleAction.Answer Failure

abbrev LifecycleConfig :=
  Config LifecycleStore LifecycleStep Database.Step.Answer Failure

abbrev lifecycleServer :=
  (lifecycleDatabase D.toDeps).server lifecycleEnv (lifecycleRequest D)

end Mergepay.Treasury
