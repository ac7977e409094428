import Mergepay.Settlement.Growth

namespace Mergepay

open Concurrency Money

-- The steps by which a job records or acts upon the fate of the envelope it has submitted.
def JobReason.concernsEnvelope : JobReason → Bool
  | .submitted | .polledSuccess | .polledFailure | .unobserved | .alreadyApplied | .appliedFailure => true
  | _ => false

namespace Caller

-- The status to which each call site moves a settlement.
def nextStatus : Caller → SettlementStatus
  | job _ .pickedUp                        => .verifying
  | job _ .submitted                       => .verifying
  | job _ .unobserved                      => .needsReview
  | job _ .polledSuccess                   => .confirmed
  | job _ .alreadyApplied                  => .confirmed
  | job _ .budgetExhausted                 => .failed
  | job _ .noEnvelope                      => .failed
  | job _ .windowExpired                   => .failed
  | job _ (.preflight _)                   => .failed
  | job _ .polledFailure                   => .failed
  | job _ .appliedFailure                  => .failed
  | job _ (.permanentFailure _)            => .failed
  | job _ .retriesExhausted                => .failed
  | reconciliation _ .verified             => .confirmed
  | reconciliation _ (.verificationFailed _) => .failed
  | reconciliation _ .ledgerFailure        => .failed
  | reconciliation _ (.pendingLimit _)     => .expired
  | reconciliation _ .exhausted            => .failed
  | confirmRoute _ true                    => .confirmed
  | confirmRoute _ false                   => .failed

-- The transaction, and its outcome on the ledger, on which a call site bases its decision.
def outcome (D : Deps) : Caller → Option (String × Bool)
  | job (some xdr) .polledSuccess       => some (D.hashOf xdr, true)
  | job (some xdr) .alreadyApplied      => some (D.hashOf xdr, true)
  | job (some xdr) .polledFailure       => some (D.hashOf xdr, false)
  | job (some xdr) .appliedFailure      => some (D.hashOf xdr, false)
  | reconciliation h .verified          => some (h, true)
  | reconciliation h .ledgerFailure     => some (h, false)
  | confirmRoute h b                    => some (h, b)
  | _                                   => none

-- The caller's copy of the recorded hash.
def recorded : Caller → Option String
  | job _ _            => none
  | reconciliation h _ => some h
  | confirmRoute h _   => some h

-- The columns that a call site sets apart from the status.
structure Sets (D : Deps) (caller : Caller) (data : Patch) : Prop where
  status         : data.status = none
  transactionXdr : data.transactionXdr = none
  stellarTxHash  : ∀ h, data.stellarTxHash = some h →
    ∃ xdr reason, caller = .job (some xdr) reason ∧ reason.concernsEnvelope = true ∧
      h = some (D.hashOf xdr)

end Caller

namespace Deps

variable (D : Deps) (C : Act → World → Prop)

abbrev Past (F : World → Prop) (w : World) : Prop :=
  D.system.Past C World.WellFormed F w

-- What a caller of the state machine has found out beforehand.
structure Knows (caller : Caller) (id : String) (w : World) : Prop where
  outcome  : ∀ h b, caller.outcome D = some (h, b) →
    D.Past C (fun w => (w.transaction h).map (·.successful) = some b) w
  recorded : ∀ h, caller.recorded = some h →
    D.Past C (fun w => ∃ s, w.settlement id = some s ∧ s.stellarTxHash = some h) w

-- What makes a call site give up a settlement without the ledger's answer.
def Grounds (caller : Caller) (id : String) (data : Patch) (w : World) : Prop :=
  match caller with
  | .job _ .budgetExhausted | .job _ .retriesExhausted =>
    ∃ n ∈ data.retryCount, D.settlementMaxAttempts ≤ n
  | .job xdr .noEnvelope         => xdr = none
  | .job _ .windowExpired        =>
    ∃ t, D.Past C (fun w => ∃ s, w.settlement id = some s ∧ s.expiresAt = t) w ∧
      D.Past C (fun w => isIntentExpired t w.now = true) w
  | .job _ (.preflight reason)   => reason ≠ .upstreamUnavailable
  | .job _ (.permanentFailure e) => classifyJobFailure e = .permanent
  | .reconciliation _ (.verificationFailed e) => isVerificationFailure e = true
  | .reconciliation _ (.pendingLimit since)   =>
    ∃ t ∈ since, D.Past C (fun w => D.pendingSettlementMaxAgeMs ≤ w.now - t) w
  | .reconciliation _ .exhausted =>
    ∃ n ∈ data.retryCount, reconciliationMaxRetries < n
  | _ => True

-- The share was once linked to the settlement.
def Linked (id shareId : String) (w : World) : Prop :=
  D.Past C (fun w => ∃ s, w.settlement id = some s ∧ s.expenseShareId = some shareId) w

structure DueTransition (t : Transition) (w : World) : Prop where
  next  : t.nextStatus = t.caller.nextStatus
  sets  : t.caller.Sets D t.extraData
  knows : D.Knows C t.caller t.settlementId w
  grounds : D.Grounds C t.caller t.settlementId t.extraData w
  share : ∀ i, t.settledShare = some i → t.nextStatus = .confirmed ∧ D.Linked C t.settlementId i w
  -- A confirmation also settles the share to which the settlement was linked.
  settles : t.nextStatus = .confirmed →
    D.Past C (fun w => ∃ s, w.settlement t.settlementId = some s ∧ s.expenseShareId = t.settledShare) w

end Deps

structure Settlement.Unsigned (s : Settlement) : Prop where
  status         : s.status = .pending
  stellarTxHash  : s.stellarTxHash = none
  transactionXdr : s.transactionXdr = none

namespace Deps

variable (D : Deps) (C : Act → World → Prop)

-- A linked settlement pays the share in full, and unless overridden in the asset of the expense.
structure DueLinked (s : Settlement) (overridden : Bool) (e : ExpenseWithShares)
    (share : ExpenseShare) (w : World) : Prop where
  unsigned : s.Unsigned
  asset    : ∃ a, D.validateAsset s.assetCode s.assetIssuer = .ok (.ok a)
  read     : D.Past C (·.expenseWithShares e.id = some e) w
  mem      : share ∈ e.shares
  group    : s.groupId = e.groupId
  link     : s.expenseShareId = some share.id
  expense  : s.expenseId = some e.id
  amount   : s.amount = share.shareAmount
  kept     : overridden = false → s.assetCode = e.assetCode ∧ s.assetIssuer = e.assetIssuer
  parties  : s.fromUserId = share.userId ∧ s.toUserId = e.payerUserId ∧ s.fromUserId ≠ s.toUserId

-- A freeform settlement has passed the limit on what was read in the same transaction.
structure DueFreeform (s : Settlement) (reads : LimitReads) (w : World) : Prop where
  unsigned    : s.Unsigned
  link        : s.expenseShareId = none
  parties     : s.fromUserId ≠ s.toUserId
  positive    : 0 < s.amount
  expenses    : D.Past C (·.limitExpenses s.groupId s.fromUserId s.toUserId = reads.expenses) w
  settlements : D.Past C (·.limitSettlements s.groupId s.fromUserId s.toUserId = reads.settlements) w
  limit       : ∃ debt, limitDebt s.fromUserId s.toUserId reads = .ok debt ∧ s.amount ≤ debt

-- What the programs have made sure of before they act.
def Due : Act → World → Prop
  | .transition t, w                  => D.DueTransition C t w
  | .createLinked s o, w              => ∃ e share, D.DueLinked C s o e share w
  | .createFreeform s reads, w        => D.DueFreeform C s reads w
  | .settleShare i, w                 =>
    ∃ id, D.Linked C id i w ∧ D.Past C (fun w => ∃ s, w.settlement id = some s ∧ s.status = .confirmed) w
  | .update (.refresh _ data caller), _ => caller.Sets D data
  | .update (.writeStatus id h status data), w =>
    (status = .confirmed ∨ status = .failed) ∧
    data.stellarTxHash = none ∧ data.transactionXdr = none ∧
    D.Past C (fun w => ∃ s, w.settlement id = some s ∧ s.stellarTxHash = h) w
  | _, _                              => True

def protocol : Protocol D.system where
  cond := C
  inv  := World.WellFormed
  due  := D.Due C
  exec := fun hw _ hx => (Effect.of_exec hx).wellFormed hw
  env  := fun hw he => Deps.env_wellFormed he hw

end Deps

section Sound

variable {D : Deps} {C : Act → World → Prop} {w w' : World}

-- The answers of the world

theorem eq_of_answer (h : answer v w x = some (.ok r, w')) : v = r := by
  cases x <;> simp only [answer, Option.some.injEq, Prod.mk.injEq, reduceCtorEq, Except.ok.injEq,
    false_and] at h
  exact h.1

theorem answered_read {a : Act} {v : a.Res} {f : World → a.Res}
    (h : D.system.Answered C World.WellFormed a v w)
    (hx : ∀ x w, D.exec a x w = answer (f w) w x) : D.Past C (f · = v) w :=
  h.before fun x w₁ _ _ h => eq_of_answer <| (hx x w₁).symm.trans h

theorem answered_getTransaction
    (h : D.system.Answered C World.WellFormed (.getTransaction k) (some b) w) :
    D.Past C (fun w => (w.transaction k).map (·.successful) = some b) w := by
  refine h.before fun x w₁ w₂ _ hx => ?_
  simp only [Deps.system, Deps.exec] at hx
  split at hx
  case h_1 => simp at hx
  case h_2 => exact eq_of_answer hx

theorem answered_submit (h : D.system.Answered C World.WellFormed (.submit i xdr) k w) :
    k = D.hashOf xdr := by
  obtain ⟨w₁, x, w₂, _, _, hx, _⟩ := h
  cases x <;> simp only [Deps.system, Deps.exec, Deps.submit, Option.some.injEq, Prod.mk.injEq,
    reduceCtorEq, false_and] at hx
  case ok => split at hx <;> simp at hx
  case applied =>
    split at hx <;> simp only [Option.some.injEq, Prod.mk.injEq, reduceCtorEq] at hx
    obtain ⟨hx, _⟩ := hx
    split at hx <;> simp only [Except.ok.injEq, reduceCtorEq] at hx
    exact hx.symm

-- A direct update that raises no error has found its row.
theorem answered_writeStatus
    (h : D.system.Answered C World.WellFormed (.update (.writeStatus i k status data)) n w) :
    D.Past C (fun w => ∃ s, w.settlement i = some s ∧ s.status = status) w := by
  refine h.after fun x w₁ w₂ hw hx => ?_
  cases x <;> simp only [Deps.system, Deps.exec, perform, Option.some.injEq, Prod.mk.injEq,
    reduceCtorEq, false_and] at hx
  simp only [World.update, Write.requiresRow, true_and] at hx
  split at hx
  case isTrue => simp at hx
  case isFalse ha =>
    obtain ⟨s, hs, hp⟩ := List.any_eq_true.mp <| of_not_not ha
    have hi := Write.writeStatus_applies_iff.mp hp
    have hx := (Prod.mk.inj hx).2
    refine ⟨s.patch (Write.writeStatus i k status data).data w₁.now, ?_, rfl⟩
    have hs : w₁.settlement i = some s := hi ▸ hw.settlement_of_mem hs
    rw [← hx, World.settlement_patchSettlements, hs]
    simp [hp]

end Sound

end Mergepay
