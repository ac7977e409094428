import Mergepay.Schema

namespace Mergepay

namespace SettlementStatus

def settlementStatuses : List SettlementStatus :=
  [.pending, .submitted, .verifying, .pendingConfirmation, .confirmed, .failed, .expired, .needsReview]

def allowedTransitions : SettlementStatus → List SettlementStatus
  | .pending             => [.submitted, .failed]
  | .submitted           => [.verifying, .failed]
  | .verifying           => [.confirmed, .failed, .needsReview, .submitted]
  | .pendingConfirmation => [.confirmed, .failed, .expired]
  | .confirmed           => []
  | .failed              => []
  | .expired             => []
  | .needsReview         => [.confirmed, .failed, .pendingConfirmation, .expired]
  | _                    => []

def canTransitionSettlementStatus (s next : SettlementStatus) : Bool :=
  next ∈ s.allowedTransitions

-- The states from which the machine's conditional update leads to `next`.
def allowedFromStatuses (next : SettlementStatus) : List SettlementStatus :=
  settlementStatuses.filter (·.canTransitionSettlementStatus next)

def text : SettlementStatus → String
  | .pending             => "pending"
  | .submitted           => "submitted"
  | .verifying           => "verifying"
  | .pendingConfirmation => "pending_confirmation"
  | .confirmed           => "confirmed"
  | .failed              => "failed"
  | .expired             => "expired"
  | .needsReview         => "needs_review"
  | .completed           => "completed"
  | .intentPending       => "PENDING"
  | .intentExpired       => "EXPIRED"

-- An edge of the machine, or the one by which a failed settlement is signed again.
def Edge (s next : SettlementStatus) : Prop :=
  s ∈ settlementStatuses ∧ next ∈ settlementStatuses ∧
  (s.canTransitionSettlementStatus next ∨ s = .failed ∧ next = .submitted)

instance : DecidableRel Edge :=
  fun _ _ => inferInstanceAs (Decidable (_ ∧ _ ∧ _))

theorem mem_allowedFromStatuses {s next : SettlementStatus} :
    s ∈ allowedFromStatuses next ↔
      s ∈ settlementStatuses ∧ s.canTransitionSettlementStatus next = true :=
  List.mem_filter

theorem allowedFromStatuses_edge {s next : SettlementStatus} (h : s ∈ allowedFromStatuses next) :
    Edge s next := by
  have ⟨hs, ht⟩ := mem_allowedFromStatuses.mp h
  refine ⟨hs, ?_, .inl ht⟩
  revert ht
  cases s <;> cases next <;> decide

theorem failed_notMem_allowedFromStatuses (next : SettlementStatus) :
    .failed ∉ allowedFromStatuses next := by
  cases next <;> decide

-- Confirmed and expired settlements have no way out, not even by a new signature.
theorem Edge.not_terminal (h : Edge s next) : s ≠ .confirmed ∧ s ≠ .expired := by
  revert h
  cases s <;> cases next <;> decide

end SettlementStatus

-- The columns of a settlement which are set by an update. Columns that are `none` stay untouched.
structure Patch where
  status          : Option SettlementStatus := none
  stellarTxHash   : Option (Option String) := none
  transactionXdr  : Option (Option String) := none
  retryCount      : Option Nat := none
  nextAttemptAt   : Option (Option Time) := none
  errorCategory   : Option (Option JobFailureCategory) := none
  claimedBy       : Option (Option String) := none
  claimedAt       : Option (Option Time) := none
  leaseExpiresAt  : Option (Option Time) := none
  failureReason   : Option (Option String) := none
  failureCategory : Option (Option SettlementFailureCategory) := none
  submittedAt     : Option (Option Time) := none
  confirmedAt     : Option (Option Time) := none
  deadLetteredAt  : Option (Option Time) := none
  deriving DecidableEq

namespace Settlement

-- Every update also sets the column `updatedAt` to the current time.
def patch (p : Patch) (now : Time) (s : Settlement) : Settlement := { s with
  status          := p.status.getD s.status
  stellarTxHash   := p.stellarTxHash.getD s.stellarTxHash
  transactionXdr  := p.transactionXdr.getD s.transactionXdr
  retryCount      := p.retryCount.getD s.retryCount
  nextAttemptAt   := p.nextAttemptAt.getD s.nextAttemptAt
  errorCategory   := p.errorCategory.getD s.errorCategory
  claimedBy       := p.claimedBy.getD s.claimedBy
  claimedAt       := p.claimedAt.getD s.claimedAt
  leaseExpiresAt  := p.leaseExpiresAt.getD s.leaseExpiresAt
  failureReason   := p.failureReason.getD s.failureReason
  failureCategory := p.failureCategory.getD s.failureCategory
  submittedAt     := p.submittedAt.getD s.submittedAt
  confirmedAt     := p.confirmedAt.getD s.confirmedAt
  deadLetteredAt  := p.deadLetteredAt.getD s.deadLetteredAt
  updatedAt       := now
}

-- The columns that are fixed when a settlement is created.
structure SameIntent (s₁ s₂ : Settlement) : Prop where
  id             : s₁.id = s₂.id
  shortCode      : s₁.shortCode = s₂.shortCode
  groupId        : s₁.groupId = s₂.groupId
  fromUserId     : s₁.fromUserId = s₂.fromUserId
  toUserId       : s₁.toUserId = s₂.toUserId
  amount         : s₁.amount = s₂.amount
  assetCode      : s₁.assetCode = s₂.assetCode
  assetIssuer    : s₁.assetIssuer = s₂.assetIssuer

theorem SameIntent.refl (s : Settlement) : SameIntent s s := by
  constructor <;> rfl

theorem SameIntent.trans (h₁ : SameIntent s₁ s₂) (h₂ : SameIntent s₂ s₃) : SameIntent s₁ s₃ := by
  constructor
  · exact h₁.id.trans h₂.id
  · exact h₁.shortCode.trans h₂.shortCode
  · exact h₁.groupId.trans h₂.groupId
  · exact h₁.fromUserId.trans h₂.fromUserId
  · exact h₁.toUserId.trans h₂.toUserId
  · exact h₁.amount.trans h₂.amount
  · exact h₁.assetCode.trans h₂.assetCode
  · exact h₁.assetIssuer.trans h₂.assetIssuer

section Patch

variable {p : Patch} {now : Time} {s : Settlement}

theorem patch_sameIntent : SameIntent s (s.patch p now) := by
  constructor <;> rfl

@[simp]
theorem patch_id : (s.patch p now).id = s.id :=
  rfl

@[simp]
theorem patch_amount : (s.patch p now).amount = s.amount :=
  rfl

@[simp]
theorem patch_expenseShareId : (s.patch p now).expenseShareId = s.expenseShareId :=
  rfl

@[simp]
theorem patch_status : (s.patch p now).status = p.status.getD s.status :=
  rfl

@[simp]
theorem patch_stellarTxHash : (s.patch p now).stellarTxHash = p.stellarTxHash.getD s.stellarTxHash :=
  rfl

@[simp]
theorem patch_transactionXdr :
    (s.patch p now).transactionXdr = p.transactionXdr.getD s.transactionXdr :=
  rfl

end Patch
end Settlement

end Mergepay
