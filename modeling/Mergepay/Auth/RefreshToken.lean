import Mergepay.Concurrency.Session
import Mergepay.Errors
import Mergepay.Schema
import Mergepay.Data.Table

namespace Mergepay.Auth

open Concurrency

-- The table of refresh tokens. The predecessor of a token is the one in exchange for which it has been
-- issued. It is not a column, but is recorded here in order to talk about chains of tokens.
structure RefreshToken where
  id          : String
  tokenHash   : String
  familyId    : String
  userId      : String
  expiresAt   : Time
  rotatedAt   : Option Time := none
  revokedAt   : Option Time := none
  predecessor : Option String := none
  deriving DecidableEq

structure TokenStore where
  now    : Time := 0
  tokens : List RefreshToken := []
  deriving DecidableEq

inductive RefreshFailure
  | malformed
  | unknown
  | expired
  | revoked
  | reused
  deriving DecidableEq

-- `noneMatched` is the answer to an update that does not concern any row.
inductive TokenError
  | rejected (reason : RefreshFailure)
  | noneMatched
  | failed (e : Failure)
  deriving DecidableEq

structure TokenDeps where
  hashToken       : String → String
  refreshTokenTtl : Time

-- The token can be redeemed, unless it has expired.
def RefreshToken.live (t : RefreshToken) : Bool :=
  t.rotatedAt.isNone ∧ t.revokedAt.isNone

-- The statements that are made about the table. An update of several rows is made of a search for the
-- rows that are visible when it starts, and of the update of those that still match when it gets there.
-- `generate` stands for the source of random texts.
inductive TokenAction
  | now
  | generate
  | findByHash (tokenHash : String)
  | findUnrevoked (familyId : String)
  | findLive (userId : String)
  | revoke (ids : List String) (at_ : Time)
  | revokeLive (ids : List String) (at_ : Time)
  | claim (id : String) (at_ : Time)
  | create (row : RefreshToken)
  | respond (presented : String) (outcome : Except TokenError Unit)

abbrev TokenAction.Answer : TokenAction → Type
  | now             => Time
  | generate        => String
  | findByHash _    => Option RefreshToken
  | findUnrevoked _ => List String
  | findLive _      => List String
  | revoke _ _ | revokeLive _ _ | claim _ _ | create _ | respond _ _ => Unit

inductive TokenChoice
  | plain
  | lost
  | generated (text : String)
  deriving DecidableEq

def TokenStore.token (s : TokenStore) (id : String) : Option RefreshToken :=
  Table.row? (·.id) s.tokens id

-- The hash is unique, and random families are different from all that exist.
def tokenAdmits : TokenAction → TokenStore → Bool
  | .claim id _, s  => (s.token id).any (·.live)
  | .create row, s  => row.id ∉ s.tokens.map (·.id) ∧ row.tokenHash ∉ s.tokens.map (·.tokenHash) ∧
    (row.predecessor = none → row.familyId ∉ s.tokens.map (·.familyId))
  | _, _            => true

def tokenEffect : TokenAction → TokenStore → TokenStore
  | .claim id now, s       => { s with
    tokens := Table.update (·.id = id) ({ · with rotatedAt := some now }) s.tokens }
  | .create row, s         => { s with tokens := s.tokens ++ [row] }
  | .revoke ids now, s     => { s with
    tokens := Table.update (fun t => t.id ∈ ids ∧ t.revokedAt = none)
      ({ · with revokedAt := some now }) s.tokens }
  | .revokeLive ids now, s => { s with
    tokens := Table.update (fun t => t.id ∈ ids ∧ t.live) ({ · with revokedAt := some now }) s.tokens }
  | _, s => s

def tokenAnswer : (a : TokenAction) → TokenChoice → TokenStore → Option (Except TokenError a.Answer)
  | .generate, .generated text, _ => some (.ok text)
  | _, .lost, _                   => some (.error (.failed World.connectionClosed))
  | .now, .plain, s               => some (.ok s.now)
  | .findByHash h, .plain, s      => some (.ok (Table.row? (·.tokenHash) s.tokens h))
  | .findUnrevoked f, .plain, s   =>
    some (.ok ((s.tokens.filter fun t => t.familyId = f ∧ t.revokedAt = none).map (·.id)))
  | .findLive u, .plain, s        =>
    some (.ok ((s.tokens.filter fun t => t.userId = u ∧ t.live).map (·.id)))
  | .revoke _ _, .plain, _        => some (.ok ())
  | .revokeLive _ _, .plain, _    => some (.ok ())
  | .claim id now, .plain, s      =>
    some (if tokenAdmits (.claim id now) s then .ok () else .error .noneMatched)
  | .create row, .plain, s        =>
    some (if tokenAdmits (.create row) s then .ok () else .error (.failed World.uniqueViolation))
  | .respond _ _, .plain, _       => some (.ok ())
  | _, _, _                       => none

def tokenDatabase : Database TokenStore TokenAction TokenAction.Answer TokenError TokenChoice where
  answer := tokenAnswer
  effect := tokenEffect
  admits := tokenAdmits
  commit := fun
    | .plain => some (.ok ())
    | .lost  => some (.error (.failed World.connectionClosed))
    | _      => none

def tokenEnv (t : Time) (s : TokenStore) : Option TokenStore :=
  if s.now ≤ t then some { s with now := t } else none

abbrev TokenTx (α : Type) :=
  Prog TokenAction TokenAction.Answer TokenError α

abbrev TokenLog :=
  Log TokenAction TokenAction.Answer TokenError

structure IssuedRefreshToken where
  token     : String
  expiresAt : Time
  familyId  : String

-- The first token of a new family.
def issueRefreshToken (D : TokenDeps) (userId : String) : TokenTx IssuedRefreshToken := do
  let now ← Prog.perform .now
  let token ← Prog.perform .generate
  let familyId ← Prog.perform .generate
  let id ← Prog.perform .generate
  let expiresAt := now + D.refreshTokenTtl
  Prog.perform <| TokenAction.create { id, tokenHash := D.hashToken token, familyId, userId, expiresAt }
  return { token, expiresAt, familyId }

def revokeFamily (familyId : String) (now : Time) : TokenTx Unit := do
  let ids ← Prog.perform (.findUnrevoked familyId)
  Prog.perform (TokenAction.revoke ids now)

def revokeAllForUser (userId : String) : TokenTx Unit := do
  let now ← Prog.perform .now
  let ids ← Prog.perform (.findLive userId)
  Prog.perform (TokenAction.revokeLive ids now)

def classifyStored (stored : Option RefreshToken) (now : Time) : Option RefreshFailure :=
  match stored with
  | none        => some .unknown
  | some stored =>
    if stored.rotatedAt.isSome then some .reused
    else if stored.revokedAt.isSome then some .revoked
    else if stored.expiresAt ≤ now then some .expired
    else none

-- The number of rows that have been claimed.
def claimToken (id : String) (now : Time) : TokenTx Nat :=
  (Prog.perform (.claim id now)).attempt.bind fun
  | .ok _    => .done 1
  | .error e => if e = .noneMatched then .done 0 else .fail e

-- The transaction within `rotateRefreshToken`.
def exchangeToken (D : TokenDeps) (stored : RefreshToken) (now : Time) : TokenTx IssuedRefreshToken := do
  let count ← claimToken stored.id now
  if count = 0 then
    throw (.rejected .reused)
  let token ← Prog.perform .generate
  let id ← Prog.perform .generate
  let expiresAt := now + D.refreshTokenTtl
  Prog.perform <| TokenAction.create {
    id, expiresAt
    tokenHash   := D.hashToken token
    familyId    := stored.familyId
    userId      := stored.userId
    predecessor := stored.id
  }
  return { token, expiresAt, familyId := stored.familyId }

def isTokenChar (c : Char) : Bool :=
  'A' ≤ c ∧ c ≤ 'Z' ∨ 'a' ≤ c ∧ c ≤ 'z' ∨ '0' ≤ c ∧ c ≤ '9' ∨ c = '_' ∨ c = '-'

def isWellFormedToken (token : String) : Bool :=
  40 ≤ token.toList.length ∧ token.toList.length ≤ 90 ∧ token.toList.all isTokenChar

def lookUpToken (D : TokenDeps) (presented : String) : TokenTx (Time × Option RefreshToken) := do
  let now ← Prog.perform .now
  let stored ← Prog.perform (.findByHash (D.hashToken presented))
  return (now, stored)

-- The calls whose interleavings are considered.
inductive TokenRequest
  | issue (userId : String)
  | rotate (presented : String)
  | revokeFamily (familyId : String)
  | revokeAllForUser (userId : String)
  deriving DecidableEq

abbrev TokenSession (α : Type) :=
  Database.Session TokenRequest TokenAction TokenAction.Answer TokenError α

abbrev TokenConfig :=
  Config TokenStore (Database.Step TokenRequest TokenAction TokenAction.Answer TokenError)
    Database.Step.Answer TokenError

def rotateRefreshToken (D : TokenDeps) (presented : String) : TokenSession IssuedRefreshToken :=
  let i := TokenRequest.rotate presented
  if ¬isWellFormedToken presented then
    .fail (.rejected .malformed)
  else ((lookUpToken D presented).transaction i []).bind fun (now, stored) =>
    match stored, classifyStored stored now with
    | some stored, some .reused => ((revokeFamily stored.familyId now).transaction i []).bind fun _ =>
      .fail (.rejected .reused)
    | _, some failure           => .fail (.rejected failure)
    | none, none                => .fail (.rejected .unknown)
    | some stored, none         => (exchangeToken D stored now).transaction i []

-- The outcome of a redemption is reported to whoever has presented the token.
def respondRotation (presented : String) (outcome : Except TokenError Unit) : TokenSession Unit :=
  .call (.act (.rotate presented) [] (.respond presented outcome)) fun
    | .ok _    => .done ()
    | .error e => .fail e

def tokenRequest (D : TokenDeps) : TokenRequest → TokenSession Unit
  | .issue userId            => ((issueRefreshToken D userId).transaction (.issue userId) []).bind
    fun _ => .done ()
  | .rotate presented        => (rotateRefreshToken D presented).attempt.bind fun outcome =>
    respondRotation presented (outcome.map fun _ => ())
  | .revokeFamily familyId   => (do
      let now ← Prog.perform .now
      revokeFamily familyId now : TokenTx Unit).transaction (.revokeFamily familyId) []
  | .revokeAllForUser userId => (revokeAllForUser userId).transaction (.revokeAllForUser userId) []

abbrev tokenSystem (D : TokenDeps) :=
  tokenDatabase.server tokenEnv (tokenRequest D)

end Mergepay.Auth
