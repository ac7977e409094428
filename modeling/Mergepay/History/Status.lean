import Mergepay.Data.Table
import Mergepay.Settlement.Verification

namespace Mergepay

-- The statuses that are told to clients.
inductive PublicStatus
  | awaitingSignature
  | submitted
  | confirmed
  | failed
  | expired
  deriving DecidableEq

namespace PublicStatus

def settlementStatuses : List PublicStatus :=
  [.awaitingSignature, .submitted, .confirmed, .failed, .expired]

def isTerminalSettlementStatus (status : PublicStatus) : Bool :=
  status = .confirmed ∨ status = .failed ∨ status = .expired

end PublicStatus

-- The columns on which the public status depends. Any text may be stored as a status.
structure SettlementStatusInput where
  status          : String
  stellarTxHash   : Option String
  failureReason   : Option String
  failureCategory : Option SettlementFailureCategory
  expiresAt       : Option Time
  deriving DecidableEq

structure OnChainStatus where
  checked         : Bool := false
  found           : Bool := false
  successful      : Option Bool := none
  transactionHash : Option String
  deriving DecidableEq

structure SettlementFailureInfo where
  category : SettlementFailureCategory
  reason   : String
  deriving DecidableEq

structure SettlementStatusResult where
  status           : PublicStatus
  onChain          : OnChainStatus
  failure          : Option SettlementFailureInfo
  expiresAt        : Option Time
  expiresInSeconds : Option Int
  checkedAt        : Time
  deriving DecidableEq

-- How Horizon answers in time, if it does.
inductive Lookup
  | failed
  | missing
  | found (successful : Bool)
  deriving DecidableEq

def secondsUntilExpiry (expiresAt now : Time) : Int :=
  nowSeconds expiresAt - nowSeconds now

namespace SettlementStatusInput

variable (settlement : SettlementStatusInput)

def toPublicStatus (now : Time) : PublicStatus :=
  match settlement.status with
  | "confirmed" => .confirmed
  | "failed"    => .failed
  | "expired"   => .expired
  | "submitted" => if isIntentExpired settlement.expiresAt now then .expired else .submitted
  | _           => if isIntentExpired settlement.expiresAt now then .expired else .awaitingSignature

def toFailureInfo (publicStatus : PublicStatus) : Option SettlementFailureInfo :=
  if publicStatus ≠ .failed then none
  else
    let reason := (settlement.failureReason.map fun text => String.ofList (Text.trim text.toList)).bind Money.present
    some ⟨settlement.failureCategory.getD .internal, reason.getD "Settlement failed"⟩

def lookupOnChain (hash : String) : Lookup → OnChainStatus
  | .failed           => { transactionHash := some hash }
  | .missing          => { checked := true, transactionHash := some hash }
  | .found successful => {
      checked         := true
      found           := true
      successful      := some successful
      transactionHash := some hash
    }

def resolveSettlementStatus (lookup : Lookup) (now : Time) : SettlementStatusResult :=
  let persisted := settlement.toPublicStatus now
  let onChain := match settlement.stellarTxHash.bind Money.present with
    | none      => { transactionHash := settlement.stellarTxHash }
    | some hash =>
      if persisted.isTerminalSettlementStatus then { transactionHash := settlement.stellarTxHash }
      else lookupOnChain hash lookup
  let status :=
    if onChain.found ∧ onChain.successful = some true then .confirmed
    else if onChain.found ∧ onChain.successful = some false then .failed
    else persisted
  {
    status, onChain
    failure          := settlement.toFailureInfo status
    expiresAt        := settlement.expiresAt
    expiresInSeconds := settlement.expiresAt.map (secondsUntilExpiry · now)
    checkedAt        := now
  }

end SettlementStatusInput

-- The status filter of lists

def expiryCutoff (now : Time) : Time :=
  ((nowSeconds now - 30) * 1000 : Int)

def terminalColumnStatuses : List String :=
  ["confirmed", "failed", "expired"]

def publicStatusFilter (status : PublicStatus) (now : Time) : Where SettlementStatusInput :=
  let cutoff := expiryCutoff now
  let notLapsed := Where.any [Where.isNull (·.expiresAt), Where.compare (·.expiresAt) (cutoff ≤ ·)]
  match status with
  | .confirmed         => Where.holds (·.status = "confirmed")
  | .failed            => Where.holds (·.status = "failed")
  | .expired           => Where.any [
      Where.holds (·.status = "expired"),
      Where.all [Where.holds (·.status ∉ terminalColumnStatuses), Where.compare (·.expiresAt) (· < cutoff)]
    ]
  | .submitted         => Where.all [Where.holds (·.status = "submitted"), notLapsed]
  | .awaitingSignature =>
    Where.all [Where.holds (·.status ∉ terminalColumnStatuses ++ ["submitted"]), notLapsed]

section

variable {settlement : SettlementStatusInput} {now : Time} {s : PublicStatus}

theorem nowSeconds_eq (t : Time) : nowSeconds t = t / 1000 :=
  Int.fdiv_eq_ediv_of_nonneg t (by decide)

-- An expiry has lapsed for the filter if and only if it has lapsed for a direct read.
theorem isIntentExpired_iff : isIntentExpired settlement.expiresAt now = true ↔
    settlement.expiresAt.any (· < expiryCutoff now) = true := by
  cases settlement.expiresAt with
  | none   => rfl
  | some t =>
    simp only [isIntentExpired, Option.any_some, decide_eq_true_eq]
    have h (now t : Int) : now / 1000 > t / 1000 + 30 ↔ t < (now / 1000 - 30) * 1000 := by omega
    rw [expiryCutoff, nowSeconds_eq, nowSeconds_eq]
    exact h now t

theorem notLapsed_iff : settlement.expiresAt = none ∨ settlement.expiresAt.any (expiryCutoff now ≤ ·) = true ↔
    isIntentExpired settlement.expiresAt now = false := by
  rw [← Bool.not_eq_true, isIntentExpired_iff]
  cases settlement.expiresAt <;> simp

-- The conditions of the filter, row by row.
theorem selects_publicStatusFilter : (publicStatusFilter s now).selects settlement = true ↔
    s = settlement.toPublicStatus now := by
  have hlapsed : settlement.expiresAt.any (· < expiryCutoff now) = isIntentExpired settlement.expiresAt now :=
    Bool.eq_iff_iff.mpr isIntentExpired_iff.symm
  unfold SettlementStatusInput.toPublicStatus
  cases hl : isIntentExpired settlement.expiresAt now with
  | true  => split <;> cases s <;> simp_all [publicStatusFilter, terminalColumnStatuses, notLapsed_iff]
  | false => split <;> cases s <;> simp_all [publicStatusFilter, terminalColumnStatuses, notLapsed_iff]

end

-- For every settlement and every point in time, exactly one public status has a filter that selects the
-- settlement, and it is the one that is told to clients.
theorem status_filter_exact (settlement : SettlementStatusInput) (now : Time) :
    (∃! s, (publicStatusFilter s now).selects settlement = true) ∧
    ∀ s, (publicStatusFilter s now).selects settlement = true ↔ s = settlement.toPublicStatus now := by
  refine ⟨⟨settlement.toPublicStatus now, selects_publicStatusFilter.mpr rfl, fun s h => ?_⟩, fun s => ?_⟩
  · exact selects_publicStatusFilter.mp h
  · exact selects_publicStatusFilter

end Mergepay
