import Mergepay.Concurrency.Alone
import Mergepay.Settlement.Runs

namespace Mergepay

open Concurrency

-- A request that is not disturbed, and whose key is fresh.
def undisturbed : Act → Choice
  | .reserve _ _ => .reserved true
  | _            => .ok

-- The request comes from the payer, the envelope is valid, and Horizon is not consulted.
structure World.Signable (D : Deps) (w : World) (userId id signedXdr : String) (s : Settlement) : Prop where
  row      : w.settlement id = some s
  payer    : s.fromUserId = userId
  member   : (w.membership s.groupId userId).isSome = true
  active   : (Table.row? (·.id) w.groups s.groupId).any (·.archived) = false
  envelope : D.validateSignedXdr signedXdr s (w.publicKey s.fromUserId) (w.publicKey s.toUserId) w.now = .ok ()
  unasked  : s.status ∈ [.completed, .confirmed, .submitted, .verifying, .needsReview] → s.stellarTxHash = none

namespace Settlement

-- The row apart from the times that are set by an acceptance.
def undated (s : Settlement) : Settlement :=
  { s with submittedAt := none, updatedAt := 0 }

-- Nothing is left of a failure.
structure Clean (s : Settlement) : Prop where
  failureReason   : s.failureReason = none
  failureCategory : s.failureCategory = none
  errorCategory   : s.errorCategory = none
  deadLetteredAt  : s.deadLetteredAt = none
  nextAttemptAt   : s.nextAttemptAt = none

-- What is left of a settlement by the acceptance of a signed envelope. Only some requests reset the category.
def accept (signedXdr : String) (resetCategory : Bool) (now : Time) (s : Settlement) : Settlement :=
  if s.status ∈ [.pending, .failed] then
    s.patch (Write.sign s.id signedXdr now resetCategory).data now
  else s

end Settlement

section

variable {D : Deps} {w : World} {userId id signedXdr idempotencyKey : String} {s : Settlement} {t₁ t₂ : Time}

-- The rules for programs that are not disturbed, for the world.

abbrev Alone (D : Deps) (p : M α) (Q : α → World → Prop) (w : World) : Prop :=
  p.Returns D.exec undisturbed Q w

theorem act_alone {a : Act} {v : a.Res} {w' : World} {Q : a.Res → World → Prop}
    (hx : D.exec a (undisturbed a) w = some (.ok v, w')) (hq : Q v w') : Alone D (act a) Q w :=
  .perform hx hq

theorem requireActiveMembership_alone {groupId : String} {Q : GroupMember → World → Prop}
    (hm : (w.membership groupId userId).isSome = true)
    (ha : (Table.row? (·.id) w.groups groupId).any (·.archived) = false) (hq : ∀ member, Q member w) :
    Alone D (requireActiveMembership groupId userId) Q w := by
  have ⟨member, hm⟩ := Option.isSome_iff_exists.mp hm
  refine .bind <| .bind <| act_alone rfl ?_
  simp only [hm]
  refine .done <| .bind <| act_alone rfl ?_
  simp only [ha, Bool.false_eq_true, if_false]
  exact .done (hq member)

theorem validateSettlementXdr_alone {Q : Unit → World → Prop} (h : w.Signable D userId id signedXdr s) (hq : Q () w) :
    Alone D (validateSettlementXdr D signedXdr s) Q w := by
  refine .bind <| act_alone rfl <| .bind <| act_alone rfl <| .bind <| act_alone rfl ?_
  rw [h.envelope]
  exact .done hq

-- The conditional update of an acceptance.
theorem sign_alone {reset : Bool} (h : w.Signable D userId id signedXdr s) :
    Alone D (act (.update (.sign id signedXdr w.now reset)))
      (fun _ w' => w'.settlement id = some (s.accept signedXdr reset w.now)) w := by
  refine act_alone rfl ?_
  have hid : s.id = id := Table.key_of_row? h.row
  refine (Table.row?_update (k := Settlement.id)
    (f := fun s => s.patch (Write.sign id signedXdr w.now reset).data w.now) (fun _ => rfl) id).trans ?_
  have hrow : Table.row? (·.id) w.settlements id = some s := h.row
  rw [hrow, Option.map_some, Settlement.accept]
  simp only [Write.sign_applies_iff, hid, true_and, List.mem_cons, List.not_mem_nil, or_false]

theorem accept_of_status (reset : Bool) (now : Time) (h : s.status ∉ [.pending, .failed]) :
    s.accept signedXdr reset now = s :=
  if_neg h

-- Both acceptances differ in the category of an earlier failure only.
theorem undated_accept (h : s.status ∈ [.pending, .failed]) :
    (s.accept signedXdr true t₁).undated = (s.accept signedXdr false t₂).undated ↔ s.failureCategory = none := by
  rw [Settlement.accept, Settlement.accept, if_pos h, if_pos h]
  constructor
  case mp =>
    intro he
    exact (congrArg Settlement.failureCategory he).symm
  case mpr =>
    intro hc
    simp [Settlement.undated, Settlement.patch, Write.data, hc]

theorem clean_accept (reset : Bool) (now : Time) (h : s.status ∈ [.pending, .failed])
    (hc : s.failureCategory = none) : (s.accept signedXdr reset now).Clean ↔
      s.errorCategory = none ∧ s.deadLetteredAt = none ∧ s.nextAttemptAt = none := by
  rw [Settlement.accept, if_pos h]
  constructor
  case mp  => exact fun h => ⟨h.errorCategory, h.deadLetteredAt, h.nextAttemptAt⟩
  case mpr =>
    intro ⟨he, hd, hn⟩
    refine ⟨rfl, ?_, he, hd, hn⟩
    cases reset <;> simp [Settlement.patch, Write.data, hc]

theorem checkInFlight_alone {Q : Unit → World → Prop} (h : s.stellarTxHash = none) (hq : Q () w) :
    Alone D (checkInFlight s) Q w := by
  rw [checkInFlight, h]
  exact .done hq

theorem confirm_alone (h : w.Signable D userId id signedXdr s) :
    Alone D (confirm D userId id signedXdr idempotencyKey)
      (fun _ w' => w'.settlement id = some (s.accept signedXdr true w.now)) w := by
  refine .bind <| act_alone rfl ?_
  simp only [h.row, Prog.bind_eq, Prog.pure_eq]
  refine .bind <| requireActiveMembership_alone h.member h.active fun _ => ?_
  rw [if_neg (not_not.mpr h.payer)]
  refine .bind <| validateSettlementXdr_alone h ?_
  refine .bind <| act_alone rfl ?_
  rw [if_pos rfl]
  refine .bind <| act_alone rfl ?_
  simp only [h.row]
  rw [if_neg (not_not.mpr h.payer)]
  split
  case isTrue hs =>
    refine checkInFlight_alone (h.unasked hs) ?_
    rw [accept_of_status]
    · exact h.row
    · revert hs
      cases s.status <;> decide
  case isFalse => exact .bind <| act_alone rfl <| .bind <| (sign_alone h).mono fun _ _ h => .done h

theorem execute_alone (h : w.Signable D userId id signedXdr s) :
    Alone D (execute D userId id signedXdr idempotencyKey)
      (fun _ w' => w'.settlement id = some (s.accept signedXdr false w.now)) w := by
  have hid : s.id = id := Table.key_of_row? h.row
  subst hid
  refine .bind <| act_alone rfl ?_
  rw [if_pos rfl]
  refine .bind <| act_alone rfl ?_
  simp only [h.row, Prog.bind_eq, Prog.pure_eq]
  refine .bind <| requireActiveMembership_alone h.member h.active fun _ => ?_
  rw [if_neg (not_not.mpr h.payer)]
  refine .bind <| validateSettlementXdr_alone h ?_
  refine .bind <| act_alone rfl ?_
  simp only [h.row]
  split
  case isTrue => exact .bind <| act_alone rfl <| .bind <| (sign_alone h).mono fun _ _ h => .done h
  case isFalse hs =>
    refine .done ?_
    rw [accept_of_status]
    · exact h.row
    · revert hs
      cases s.status <;> decide

-- For every settlement and every envelope that is valid for it, at the times of both requests: the two routes
-- leave the same row behind, and nothing of an earlier failure, if and only if there was nothing of it that they
-- do not reset.
theorem acceptances_agree (idempotencyKey : String) (h₁ : { w with now := t₁ }.Signable D userId id signedXdr s)
    (h₂ : { w with now := t₂ }.Signable D userId id signedXdr s) : ∃ w₁ w₂ s₁ s₂,
      (confirm D userId id signedXdr idempotencyKey).alone D.exec undisturbed { w with now := t₁ } =
        some (.ok (), w₁) ∧
      (execute D userId id signedXdr idempotencyKey).alone D.exec undisturbed { w with now := t₂ } =
        some (.ok (), w₂) ∧
      w₁.settlement id = some s₁ ∧ w₂.settlement id = some s₂ ∧
      (s₁.undated = s₂.undated ∧ (s.status = .failed → s₁.Clean ∧ s₂.Clean) ↔
        (s.status ∈ [.pending, .failed] → s.failureCategory = none) ∧
        (s.status = .failed → s.errorCategory = none ∧ s.deadLetteredAt = none ∧ s.nextAttemptAt = none)) := by
  have ⟨_, w₁, hw₁, hs₁⟩ : Alone D (confirm D userId id signedXdr idempotencyKey) _ _ := confirm_alone h₁
  have ⟨_, w₂, hw₂, hs₂⟩ : Alone D (execute D userId id signedXdr idempotencyKey) _ _ := execute_alone h₂
  refine ⟨w₁, w₂, _, _, hw₁, hw₂, hs₁, hs₂, ?_⟩
  by_cases hs : s.status ∈ [.pending, .failed]
  case neg =>
    have hf : s.status ≠ .failed := fun h => hs (by simp [h])
    rw [accept_of_status true t₁ hs, accept_of_status false t₂ hs]
    exact iff_of_true ⟨rfl, fun h => (hf h).elim⟩ ⟨fun h => (hs h).elim, fun h => (hf h).elim⟩
  case pos =>
    have hsame : (s.accept signedXdr true t₁).undated = (s.accept signedXdr false t₂).undated ↔
        s.failureCategory = none := undated_accept hs
    constructor
    case mp =>
      intro ⟨he, hc⟩
      have hn := hsame.mp he
      exact ⟨fun _ => hn, fun hf => (clean_accept true t₁ hs hn).mp (hc hf).1⟩
    case mpr =>
      intro ⟨hn, hc⟩
      have hn := hn hs
      exact ⟨hsame.mpr hn, fun hf => ⟨(clean_accept true t₁ hs hn).mpr (hc hf),
        (clean_accept false t₂ hs hn).mpr (hc hf)⟩⟩

end

-- A settlement of bob, with certain columns.
def acceptingWorld (s : Settlement) : World :=
  { sampleWorld with settlements := [s] }

def newlyCreated : Settlement where
  id         := "n"
  shortCode  := "AAAAAA"
  groupId    := "g"
  fromUserId := "bob"
  toUserId   := "ann"
  amount     := 20000000
  assetCode  := "XLM"
  assetIssuer := none
  createdAt  := 0
  updatedAt  := 0

-- The ledger has rejected an earlier payment.
def givenUp : Settlement := { newlyCreated with
  status          := .failed
  transactionXdr  := some "old"
  retryCount      := 1
  errorCategory   := some .permanent
  failureReason   := some "Transaction failed on Stellar"
  failureCategory := some .ledgerRejected
  deadLetteredAt  := some 5
}

theorem accepts_sample (s : Settlement) (t : Time) (hs : s = newlyCreated ∨ s = givenUp) :
    { acceptingWorld s with now := t }.Signable sampleDeps "bob" "n" "x" s := by
  rcases hs with rfl | rfl
  case inl => exact ⟨rfl, rfl, rfl, rfl, rfl, fun _ => rfl⟩
  case inr => exact ⟨rfl, rfl, rfl, rfl, rfl, fun _ => rfl⟩

theorem acceptances_agree_sample : ∃ w₁ w₂ s₁ s₂,
    (confirm sampleDeps "bob" "n" "x" "k").alone sampleDeps.exec undisturbed
      { acceptingWorld newlyCreated with now := 10 } = some (.ok (), w₁) ∧
    (execute sampleDeps "bob" "n" "x" "k").alone sampleDeps.exec undisturbed
      { acceptingWorld newlyCreated with now := 20 } = some (.ok (), w₂) ∧
    w₁.settlement "n" = some s₁ ∧ w₂.settlement "n" = some s₂ ∧ s₁.undated = s₂.undated := by
  have ⟨w₁, w₂, s₁, s₂, h₁, h₂, hs₁, hs₂, h⟩ := acceptances_agree "k"
    (accepts_sample newlyCreated 10 (.inl rfl)) (accepts_sample newlyCreated 20 (.inl rfl))
  exact ⟨w₁, w₂, s₁, s₂, h₁, h₂, hs₁, hs₂, (h.mpr ⟨fun _ => rfl, fun h => by cases h⟩).1⟩

-- A settlement that has failed is signed again. One route keeps the category of the failure, and both keep the
-- other traces of it.
theorem acceptances_differ : ∃ w₁ w₂ s₁ s₂,
    (confirm sampleDeps "bob" "n" "x" "k").alone sampleDeps.exec undisturbed (acceptingWorld givenUp) =
      some (.ok (), w₁) ∧
    (execute sampleDeps "bob" "n" "x" "k").alone sampleDeps.exec undisturbed (acceptingWorld givenUp) =
      some (.ok (), w₂) ∧
    w₁.settlement "n" = some s₁ ∧ w₂.settlement "n" = some s₂ ∧
    s₁.status = .submitted ∧ s₁.failureCategory = none ∧ s₁.errorCategory = some .permanent ∧
    s₁.deadLetteredAt = some 5 ∧ s₂.failureCategory = some .ledgerRejected ∧
    s₁.undated ≠ s₂.undated ∧ ¬s₁.Clean ∧ ¬s₂.Clean := by
  have h := accepts_sample givenUp 0 (.inr rfl)
  have ⟨_, w₁, hw₁, hs₁⟩ : Alone sampleDeps (confirm sampleDeps "bob" "n" "x" "k") _ _ := confirm_alone h
  have ⟨_, w₂, hw₂, hs₂⟩ : Alone sampleDeps (execute sampleDeps "bob" "n" "x" "k") _ _ := execute_alone h
  refine ⟨w₁, w₂, _, _, hw₁, hw₂, hs₁, hs₂, rfl, rfl, rfl, rfl, rfl, fun he => ?_, fun hc => ?_, fun hc => ?_⟩
  · cases congrArg Settlement.failureCategory he
  · cases hc.errorCategory
  · cases hc.failureCategory

end Mergepay
