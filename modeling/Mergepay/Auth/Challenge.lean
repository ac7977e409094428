import Mergepay.Concurrency.System
import Mergepay.Stellar.Envelope

namespace Mergepay.Auth

open Concurrency Stellar Text

-- The parts of a challenge that are checked. Its hash does not cover the signatures.

structure ChallengeOperation where
  type   : String
  source : Option String
  name   : String
  value  : List UInt8
  deriving DecidableEq

structure ChallengeTransaction where
  source     : String
  sequence   : String
  memo       : Memo
  timeBounds : Option TimeBounds
  operations : List ChallengeOperation
  hash       : String
  deriving DecidableEq

structure ChallengeSigner where
  key    : String
  weight : Nat
  deriving DecidableEq

structure SignerSnapshot where
  exists_ : Bool
  medium  : Nat
  signers : List ChallengeSigner
  deriving DecidableEq

-- The configuration, and the functions of the SDK. Those of `WebAuth` read the clock, because they
-- check the time bounds as well, though with a grace period of their own.
structure ChallengeDeps where
  serverAccount              : String
  networkPassphrase          : String
  otherNetworkPassphrases    : List String
  homeDomain                 : String
  webAuthDomain              : String
  validitySeconds            : Nat
  isTest                     : Bool
  hasModel                   : Bool
  hasExecuteRaw              : Bool
  isValidEd25519PublicKey    : String → Bool
  sha256                     : String → String
  transaction                : (signedXdr networkPassphrase : String) → Option ChallengeTransaction
  verifyTxSignedBy           : (signedXdr networkPassphrase account : String) → Bool
  readChallengeTx            : (signedXdr : String) → (now : Time) → Option String
  verifyChallengeTxSigners   : (signedXdr : String) → (signers : List String) → (now : Time) → Bool
  verifyChallengeTxThreshold : (signedXdr : String) → (threshold : Nat) →
    (signers : List ChallengeSigner) → (now : Time) → Bool

def invalidChallenge : Failure :=
  .app 401 "INVALID_CHALLENGE"
    "Authentication challenge is invalid. Request a new challenge and sign it without modification."

def challengeNotYetValid : Failure :=
  .app 401 "CHALLENGE_NOT_YET_VALID"
    "Authentication challenge is not valid yet. Request a new challenge and sign it promptly."

def challengeWindowTooLong : Failure :=
  .app 401 "CHALLENGE_WINDOW_TOO_LONG"
    "Authentication challenge window is longer than this server issues. Request a new challenge."

def challengeExpired : Failure :=
  .app 401 "CHALLENGE_EXPIRED"
    "Authentication challenge has expired. Request a new challenge and sign it promptly."

def challengeNetworkMismatch : Failure :=
  .app 401 "NETWORK_MISMATCH" <| "Authentication challenge was issued for a different Stellar network. "
    ++ "Request a new challenge from this server and sign it for its network."

def challengeHomeDomainMismatch : Failure :=
  .app 401 "HOME_DOMAIN_MISMATCH" <| "Authentication challenge was issued for a different home domain. "
    ++ "Request a new challenge from this server."

def challengeSignatureInvalid : Failure :=
  .app 401 "INVALID_SIGNATURE" <| "Challenge signature verification failed. "
    ++ "Ensure the challenge is signed by the account's signing key(s) before submitting."

def signerLookupUnavailable : Failure :=
  .upstream
    "Unable to load the account's signers from the Stellar network. Please retry shortly."

def challengeStoreUnavailable : Failure :=
  .app 503 "SERVICE_UNAVAILABLE"
    "The authentication store is temporarily unavailable. Please retry shortly."

-- The table of challenges that have been redeemed.
structure Sep10Challenge where
  fingerprint   : String
  clientAccount : String
  expiresAt     : Time
  deriving DecidableEq

-- What is kept by a single process of the API, if there is no database.
structure ConsumedInProcess where
  process     : Nat
  fingerprint : String
  expiresAt   : Time
  deriving DecidableEq

structure VerifiedChallenge where
  account       : String
  challengeHash : String
  deriving DecidableEq

-- Besides the tables there is a record of what has happened: `claims` are the challenges that have been
-- recorded as used, in that order, and `responses` are the calls that have returned an authenticated
-- account, along with the position of the claim that they have made.
structure ChallengeStore where
  now        : Time := 0
  challenges : List Sep10Challenge := []
  inProcess  : List ConsumedInProcess := []
  claims     : List Sep10Challenge := []
  responses  : List (Nat × VerifiedChallenge) := []
  deriving DecidableEq

-- The actions by which a call touches the world. Both ways to insert a record answer with its position
-- among the claims.
inductive ChallengeAction
  | now
  | loadAccount (account : String)
  | create (row : Sep10Challenge)
  | insertOrIgnore (row : Sep10Challenge)
  | deleteExpired
  | deleteExpiredBefore (t : Time)
  | consumeInProcess (process : Nat) (row : Sep10Challenge)
  | sweepInProcess (process : Nat)
  | respond (claim : Nat) (verified : VerifiedChallenge)
  deriving DecidableEq

abbrev ChallengeAction.Answer : ChallengeAction → Type
  | now                  => Time
  | loadAccount _        => SignerSnapshot
  | create _             => Nat
  | insertOrIgnore _     => Option Nat
  | consumeInProcess _ _ => Option Nat
  | deleteExpired | deleteExpiredBefore _ | sweepInProcess _ | respond _ _ => Unit

abbrev ChallengeTx (α : Type) :=
  Prog ChallengeAction ChallengeAction.Answer Failure α

variable (D : ChallengeDeps)

def lowerCase (s : String) : String :=
  .ofList (s.toList.map Char.toLower)

-- The name is that of the domain, followed by ` auth`.
def extractHomeDomain (tx : ChallengeTransaction) : Option String :=
  match tx.operations.head? with
  | none        => none
  | some authOp =>
    let name := authOp.name.toList
    if authOp.type ≠ "manageData" ∨ ¬" auth".toList.isSuffixOf name then none
    else some <| .ofList (name.dropLast.dropLast.dropLast.dropLast.dropLast)

def validateChallengeTimeBounds (bounds : Option TimeBounds) (now : Time) : Except Failure Unit :=
  match bounds with
  | none        => .error invalidChallenge
  | some bounds =>
    if bounds.maxTime = 0 ∨ bounds.minTime > bounds.maxTime then
      .error invalidChallenge
    else if bounds.maxTime + clockSkewToleranceSeconds ≤ nowSeconds now then
      .error challengeExpired
    else if bounds.minTime > nowSeconds now + clockSkewToleranceSeconds then
      .error challengeNotYetValid
    else if bounds.maxTime > bounds.minTime + D.validitySeconds + clockSkewToleranceSeconds then
      .error challengeWindowTooLong
    else
      .ok ()

def isHomeDomain (homeDomain : Option String) : Bool :=
  homeDomain.any fun d => d ≠ "" ∧ lowerCase d = lowerCase D.homeDomain

def isAuthOperation (clientAccountId : String) (op : ChallengeOperation) : Bool :=
  op.type = "manageData" ∧ op.name = D.homeDomain ++ " auth" ∧ op.source = some clientAccountId ∧
    32 ≤ op.value.length

def isWebAuthDomainOperation (op : ChallengeOperation) : Bool :=
  let value := String.ofList (Utf8.decode op.value)
  op.type = "manageData" ∧ op.source = some D.serverAccount ∧ op.name = "web_auth_domain" ∧
    value ≠ "" ∧ lowerCase value = lowerCase D.webAuthDomain

-- There has to be exactly one further operation, apart from the first one.
def validateChallengeOperations (tx : ChallengeTransaction) (clientAccountId : String) :
    Except Failure Unit :=
  match tx.operations with
  | []              => .error invalidChallenge
  | authOp :: rest =>
    if isAuthOperation D clientAccountId authOp ∧ rest.all (isWebAuthDomainOperation D) ∧
        rest.length = 1 then
      .ok ()
    else
      .error invalidChallenge

def validateChallengeEnvelope (tx : ChallengeTransaction) (clientAccountId : String) (now : Time) :
    Except Failure TimeBounds :=
  if tx.source ≠ D.serverAccount ∨ tx.sequence ≠ "0" ∨ ¬D.isValidEd25519PublicKey clientAccountId ∨
      tx.memo ≠ .none ∨ ¬isHomeDomain D (extractHomeDomain tx) then
    .error invalidChallenge
  else match tx.timeBounds.filter (0 < ·.maxTime) with
    | none        => .error invalidChallenge
    | some bounds => do
      validateChallengeTimeBounds D bounds now
      validateChallengeOperations D tx clientAccountId
      return bounds

def signedByServerOnAnotherNetwork (signedXdr : String) : Bool :=
  D.otherNetworkPassphrases.any fun passphrase =>
    (D.transaction signedXdr passphrase).isSome ∧
      D.verifyTxSignedBy signedXdr passphrase D.serverAccount

-- The checks of the server's signature, and of the shape of a challenge.
def readSignedByServer (signedXdr : String) : Except Failure ChallengeTransaction :=
  match D.transaction signedXdr D.networkPassphrase with
  | none    => .error invalidChallenge
  | some tx =>
    if ¬D.verifyTxSignedBy signedXdr D.networkPassphrase D.serverAccount then
      .error <| if signedByServerOnAnotherNetwork D signedXdr then challengeNetworkMismatch
        else invalidChallenge
    else if extractHomeDomain tx = none then
      .error invalidChallenge
    else
      .ok tx

def checkNotExpired (bounds : Option TimeBounds) (now : Time) : Except Failure Unit :=
  if bounds.any fun b => 0 < b.maxTime ∧ b.maxTime + clockSkewToleranceSeconds ≤ nowSeconds now then
    .error challengeExpired
  else
    .ok ()

def validateChallengeHomeDomain (tx : ChallengeTransaction) : Except Failure Unit :=
  if isHomeDomain D (extractHomeDomain tx) then .ok ()
  else .error challengeHomeDomainMismatch

def readChallenge (signedXdr : String) : ChallengeTx (ChallengeTransaction × String) := do
  let tx ← Prog.ofExcept (readSignedByServer D signedXdr)
  let now ← Prog.perform .now
  Prog.ofExcept (checkNotExpired tx.timeBounds now)
  let now ← Prog.perform .now
  Prog.ofExcept (validateChallengeTimeBounds D tx.timeBounds now)
  Prog.ofExcept (validateChallengeHomeDomain D tx)
  let now ← Prog.perform .now
  match D.readChallengeTx signedXdr now with
  | none           => throw invalidChallenge
  | some accountId => return (tx, accountId)

def challengeFingerprint (hash : String) : String :=
  D.sha256 hash

inductive ConsumeOutcome
  | claimed (claim : Nat)
  | replayed

def ConsumeOutcome.ofInserted : Option Nat → ConsumeOutcome
  | none       => replayed
  | some claim => claimed claim

-- The fallback to the state of the process.
def consumeInProcess (process : Nat) (row : Sep10Challenge) : ChallengeTx ConsumeOutcome := do
  if ¬D.isTest then
    throw challengeStoreUnavailable
  let inserted ← Prog.perform (.consumeInProcess process row)
  return .ofInserted inserted

def insertChallenge (row : Sep10Challenge) : ChallengeTx ConsumeOutcome := do
  let inserted ← Prog.perform (.insertOrIgnore row)
  Prog.swallow (Prog.perform .deleteExpired)
  return .ofInserted inserted

def isAppError : Failure → Bool
  | .app _ _ _                            => true
  | .error _ _ | .engine _ _ | .provider _ _ => false

def consumeByStatement (process : Nat) (row : Sep10Challenge) : ChallengeTx ConsumeOutcome :=
  if D.hasExecuteRaw then
    (insertChallenge row).attempt.bind fun
    | .ok outcome => .done outcome
    | .error e    =>
      if isAppError e then .fail e
      else if ¬D.isTest then .fail challengeStoreUnavailable
      else consumeInProcess D process row
  else
    consumeInProcess D process row

def consumeChallenge (process : Nat) (row : Sep10Challenge) : ChallengeTx ConsumeOutcome :=
  if D.hasModel then
    (Prog.perform (.create row)).attempt.bind fun
    | .ok claim => .done (.claimed claim)
    | .error e  =>
      if e = World.uniqueViolation then .done .replayed
      else if ¬D.isTest then .fail challengeStoreUnavailable
      else consumeByStatement D process row
  else
    consumeByStatement D process row

-- The threshold and the signers of an account, of which only proper public keys are considered.
def verifyClientSignatures (signedXdr clientAccountId : String) (snapshot : SignerSnapshot)
    (now : Time) : Except Failure Unit :=
  let verified :=
    if ¬snapshot.exists_ then
      D.verifyChallengeTxSigners signedXdr [clientAccountId] now
    else
      D.verifyChallengeTxThreshold signedXdr (if snapshot.medium = 0 then 1 else snapshot.medium)
        (snapshot.signers.filter (D.isValidEd25519PublicKey ·.key)) now
  if verified then .ok () else .error challengeSignatureInvalid

-- How long a record outlives its challenge.
def challengeExpiry (bounds : TimeBounds) : Time :=
  (bounds.maxTime + clockSkewToleranceSeconds + 1) * 1000

def loadSigners (clientAccountId : String) : ChallengeTx SignerSnapshot :=
  (Prog.perform (.loadAccount clientAccountId)).attempt.bind fun
  | .ok snapshot => .done snapshot
  | .error _     => .fail signerLookupUnavailable

-- The call returns along with the claim that it has made.
def authenticateChallenge (process : Nat) (signedXdr : String) :
    ChallengeTx (Nat × VerifiedChallenge) := do
  let (tx, clientAccountId) ← readChallenge D signedXdr
  let now ← Prog.perform .now
  let bounds ← Prog.ofExcept (validateChallengeEnvelope D tx clientAccountId now)
  let snapshot ← loadSigners clientAccountId
  let now ← Prog.perform .now
  Prog.ofExcept (verifyClientSignatures D signedXdr clientAccountId snapshot now)
  let outcome ← consumeChallenge D process {
    fingerprint   := challengeFingerprint D tx.hash
    clientAccount := clientAccountId
    expiresAt     := challengeExpiry bounds
  }
  match outcome with
  | .claimed claim => return (claim, { account := clientAccountId, challengeHash := tx.hash })
  | .replayed      => throw invalidChallenge

def cleanupExpiredChallenges (process : Nat) : ChallengeTx Unit := do
  Prog.perform (ChallengeAction.sweepInProcess process)
  if D.hasModel then
    let now ← Prog.perform .now
    Prog.perform (ChallengeAction.deleteExpiredBefore now)

inductive ChallengeRequest
  | authenticate (process : Nat) (signedXdr : String)
  | cleanup (process : Nat)
  deriving DecidableEq

def challengeRequest : ChallengeRequest → ChallengeTx Unit
  | .authenticate process signedXdr => do
    let (claim, verified) ← authenticateChallenge D process signedXdr
    Prog.perform (ChallengeAction.respond claim verified)
  | .cleanup process                => cleanupExpiredChallenges D process

-- An action may fail, in which case a write has happened or not.
inductive ChallengeChoice
  | plain
  | account (snapshot : SignerSnapshot)
  | failed (e : Failure)
  | lost (e : Failure)
  deriving DecidableEq

namespace ChallengeStore

variable (s : ChallengeStore)

def has (fingerprint : String) : Bool :=
  fingerprint ∈ s.challenges.map (·.fingerprint)

def record (row : Sep10Challenge) : ChallengeStore :=
  { s with challenges := s.challenges ++ [row], claims := s.claims ++ [row] }

-- An insertion that respects the unique column, whether its outcome gets through or not.
def inserted (row : Sep10Challenge) : ChallengeStore :=
  if s.has row.fingerprint then s else s.record row

def expire (p : Sep10Challenge → Bool) : ChallengeStore :=
  { s with challenges := s.challenges.filter fun row => ¬p row }

def sweepInProcess (process : Nat) : ChallengeStore :=
  { s with inProcess := s.inProcess.filter fun e => ¬(e.process = process ∧ e.expiresAt ≤ s.now) }

def consumeInProcess (process : Nat) (row : Sep10Challenge) : Option Nat × ChallengeStore :=
  let s := s.sweepInProcess process
  if s.inProcess.any fun e => e.process = process ∧ e.fingerprint = row.fingerprint then
    (none, s)
  else
    (some s.claims.length, { s with
      inProcess := s.inProcess ++ [⟨process, row.fingerprint, row.expiresAt⟩]
      claims    := s.claims ++ [row]
    })

end ChallengeStore

open ChallengeStore in
def challengeExec : (a : ChallengeAction) → ChallengeChoice → ChallengeStore →
    Option (Except Failure a.Answer × ChallengeStore)
  | .now, .plain, s                         => some (.ok s.now, s)
  | .loadAccount _, .account snapshot, s    => some (.ok snapshot, s)
  | .loadAccount _, .failed e, s            => some (.error e, s)
  | .create row, .plain, s                  => some (if s.has row.fingerprint then
      (.error World.uniqueViolation, s) else (.ok s.claims.length, s.record row))
  | .create _, .failed e, s                 => some (.error e, s)
  | .create row, .lost e, s                 => some (.error e, s.inserted row)
  | .insertOrIgnore row, .plain, s          => some (if s.has row.fingerprint then
      (.ok none, s) else (.ok (some s.claims.length), s.record row))
  | .insertOrIgnore _, .failed e, s         => some (.error e, s)
  | .insertOrIgnore row, .lost e, s         => some (.error e, s.inserted row)
  | .deleteExpired, .plain, s               => some (.ok (), s.expire (·.expiresAt ≤ s.now))
  | .deleteExpired, .failed e, s            => some (.error e, s)
  | .deleteExpired, .lost e, s              => some (.error e, s.expire (·.expiresAt ≤ s.now))
  | .deleteExpiredBefore t, .plain, s       => some (.ok (), s.expire (·.expiresAt < t))
  | .deleteExpiredBefore _, .failed e, s    => some (.error e, s)
  | .deleteExpiredBefore t, .lost e, s      => some (.error e, s.expire (·.expiresAt < t))
  | .sweepInProcess process, .plain, s      => some (.ok (), s.sweepInProcess process)
  | .consumeInProcess process row, .plain, s => some ((s.consumeInProcess process row).map .ok id)
  | .respond claim verified, .plain, s      =>
    some (.ok (), { s with responses := s.responses ++ [(claim, verified)] })
  | _, _, _                                 => none

def challengeEnv (t : Time) (s : ChallengeStore) : Option ChallengeStore :=
  if s.now ≤ t then some { s with now := t } else none

def challengeSystem : System ChallengeStore ChallengeAction ChallengeAction.Answer Failure
    ChallengeChoice Time ChallengeRequest where
  exec  := challengeExec
  env   := challengeEnv
  entry := challengeRequest D

end Mergepay.Auth
