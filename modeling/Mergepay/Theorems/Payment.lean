import Mergepay.Settlement.Runs

namespace Mergepay

open Concurrency Money

-- The contents of a transaction are the payment that a settlement asks for.
def World.Pays (w : World) (r : TransactionRecord) (s : Settlement) : Prop :=
  r.memoType = some "text" ∧ r.memo = some ("MP:" ++ s.shortCode) ∧
  ∃ op ∈ r.operations, verifyPaymentOperation op (w.publicKey s.toUserId) (columnText s.amount)
    s.assetCode s.assetIssuer = .ok ()

-- The stored envelope has been applied successfully, and pays the settlement.
def World.Paid (D : Deps) (w : World) (s : Settlement) : Prop :=
  ∃ xdr ∈ s.transactionXdr, ∃ t ∈ w.transaction (D.hashOf xdr),
    t.successful = true ∧ w.Pays t.record s

instance : Decidable (World.Pays w r s) :=
  inferInstanceAs (Decidable (_ ∧ _ ∧ _))

instance : Decidable (World.Paid D w s) :=
  inferInstanceAs (Decidable (∃ xdr ∈ s.transactionXdr, ∃ t ∈ w.transaction (D.hashOf xdr), _))

def SettlementStatus.unpaid (s : SettlementStatus) : Bool :=
  s ∈ [.failed, .expired]

-- What keeps each of the call sites that give up a settlement away from a row. Those that have the ledger's answer have
-- asked for the stored envelope. The others are kept away by the attempts that have been counted, the deadlines, or the
-- answers on which they base their decision.
def KeptAway (D : Deps) (t : Transition) (w : World) (s : Settlement) : Prop :=
  match t.caller with
  | .job xdr .noEnvelope | .job xdr .polledFailure | .job xdr .appliedFailure => xdr = s.transactionXdr
  | .job _ .budgetExhausted | .job _ .retriesExhausted =>
    ∀ n ∈ t.extraData.retryCount, n < D.settlementMaxAttempts
  | .job _ .windowExpired        => isIntentExpired s.expiresAt w.now = false
  | .job _ (.preflight reason)   => reason = .upstreamUnavailable
  | .job _ (.permanentFailure e) => classifyJobFailure e ≠ .permanent
  | .reconciliation hash .ledgerFailure | .confirmRoute hash false => ∃ xdr ∈ s.transactionXdr, hash = D.hashOf xdr
  | .reconciliation _ (.verificationFailed e) => isVerificationFailure e = false
  | .reconciliation _ (.pendingLimit since)   => ∀ t ∈ since, w.now - t < D.pendingSettlementMaxAgeMs
  | .reconciliation _ .exhausted => ∀ n ∈ t.extraData.retryCount, n ≤ reconciliationMaxRetries
  | _ => True

-- A settlement that has been paid is kept away from those who would give it up, and a new signature does not replace
-- its envelope.
def SparesPaid (D : Deps) : Act → World → Prop
  | .update (.sign i xdr now reset), w      => ∀ s ∈ w.settlement i,
    (Write.sign i xdr now reset).applies s → ¬w.Paid D s
  | .update (.writeStatus i _ .failed _), w => ∀ s ∈ w.settlement i, ¬w.Paid D s
  | .transition t, w                        => ∀ s ∈ w.settlement t.settlementId, w.Paid D s → KeptAway D t w s
  | _, _                                    => True

instance : Decidable (KeptAway D t w s) := by
  unfold KeptAway
  split <;> infer_instance

instance (a : Act) (w : World) : Decidable (SparesPaid D a w) := by
  induction a using Act.casesOn with
  | transition t => exact inferInstanceAs (Decidable (∀ s ∈ w.settlement t.settlementId, _))
  | update u =>
    induction u using Write.casesOn with
    | sign i xdr now reset => exact inferInstanceAs (Decidable (∀ s ∈ w.settlement i, _))
    | writeStatus i _ status _ =>
      cases status with
      | failed => exact inferInstanceAs (Decidable (∀ s ∈ w.settlement i, _))
      | _      => exact inferInstanceAs (Decidable True)
    | _ => exact inferInstanceAs (Decidable True)
  | _ => exact inferInstanceAs (Decidable True)

variable {D : Deps} {C : Act → World → Prop} {w w₁ w₂ : World} {s s' : Settlement}

theorem isIntentExpired_mono {t : Option Time} {n m : Time} (h : isIntentExpired t n = true) (hn : n ≤ m) :
    isIntentExpired t m = true := by
  have ⟨t, ht, h⟩ := Option.any_eq_true _ _ |>.mp h
  have hs : nowSeconds n ≤ nowSeconds m := by
    rw [nowSeconds, nowSeconds, Int.fdiv_eq_ediv_of_nonneg _ (by decide), Int.fdiv_eq_ediv_of_nonneg _ (by decide)]
    exact Int.ediv_le_ediv (by decide) hn
  have h := of_decide_eq_true h
  rw [isIntentExpired, ht, Option.any_some, decide_eq_true_eq]
  omega

-- The outcome on which a transition is based is still the one on the ledger.
theorem Deps.DueTransition.transaction (h : D.DueTransition C t w)
    (ho : t.caller.outcome D = some (k, b)) : (w.transaction k).map (·.successful) = some b := by
  have ⟨w₁, hw₁, hb, he⟩ := h.knows.outcome k b ho
  have ⟨_, hg⟩ := Deps.grows_of_evolves he hw₁
  have ⟨tx, hx, hb⟩ := Option.map_eq_some_iff.mp hb
  simp [hg.transaction hx, hb]

-- The ledger does not say that a paid envelope has failed.
theorem Deps.DueTransition.not_failed (h : D.DueTransition C t w) (hp : w.Paid D s) (hx : s.transactionXdr = some xdr) :
    t.caller.outcome D ≠ some (D.hashOf xdr, false) := by
  intro ho
  have ⟨_, hx', tx, ht, hb, _⟩ := hp
  obtain rfl := Option.some.inj <| hx.symm.trans hx'
  have hl := h.transaction ho
  rw [Option.mem_def.mp ht, Option.map_some, hb] at hl
  cases hl

-- Whoever is kept away from a paid row does not give it up.
theorem Deps.DueTransition.spares (h : D.DueTransition C t w) (hs : w.settlement t.settlementId = some s)
    (hp : w.Paid D s) (hk : KeptAway D t w s) : t.nextStatus.unpaid = false := by
  have ⟨xdr, hx, _⟩ := hp
  have hf := h.not_failed hp hx
  have hg := h.grounds
  rw [h.next]
  rw [KeptAway] at hk
  cases hc : t.caller with
  | job copy reason =>
    rw [hc] at hk hg hf
    cases reason with
    | budgetExhausted | retriesExhausted =>
      have ⟨n, hn, hm⟩ := hg
      exact absurd (hk n hn) (not_lt.mpr hm)
    | noEnvelope => cases (Eq.symm hg).trans <| Eq.trans hk hx
    | windowExpired =>
      obtain ⟨_, ⟨w₁, hw₁, ⟨s₁, hs₁, rfl⟩, he₁⟩, w₂, hw₂, hi, he₂⟩ := hg
      have ⟨s', hs', hcont⟩ := (Deps.grows_of_evolves he₁ hw₁).2.settlement hs₁
      obtain rfl := Option.some.inj <| hs.symm.trans hs'
      have hi := isIntentExpired_mono (hcont.expiresAt ▸ hi) (Deps.grows_of_evolves he₂ hw₂).2.now
      exact nomatch hi.symm.trans hk
    | preflight reason => exact absurd hk hg
    | permanentFailure => exact absurd hg hk
    | polledFailure | appliedFailure =>
      obtain rfl : copy = some xdr := Eq.trans hk hx
      exact absurd rfl hf
    | _ => rfl
  | reconciliation k reason =>
    rw [hc] at hk hg hf
    cases reason with
    | verified => rfl
    | verificationFailed => exact nomatch (Eq.symm hg).trans hk
    | ledgerFailure =>
      obtain ⟨_, hx', rfl⟩ := hk
      obtain rfl := Option.some.inj <| hx.symm.trans hx'
      exact absurd rfl hf
    | pendingLimit since =>
      have ⟨t₀, ht, w₁, hw₁, hle, he⟩ := hg
      have hle : D.pendingSettlementMaxAgeMs ≤ w₁.now - t₀ := hle
      have hlt : w.now - t₀ < D.pendingSettlementMaxAgeMs := hk t₀ ht
      have hn : w₁.now ≤ w.now := (Deps.grows_of_evolves he hw₁).2.now
      exact absurd hle <| not_le.mpr <| (Int.sub_le_sub_right hn t₀).trans_lt hlt
    | exhausted =>
      have ⟨n, hn, hm⟩ := hg
      exact absurd (hk n hn) (not_le.mpr hm)
  | confirmRoute k b =>
    rw [hc] at hk hf
    cases b with
    | true  => rfl
    | false =>
      obtain ⟨_, hx', rfl⟩ := hk
      obtain rfl := Option.some.inj <| hx.symm.trans hx'
      exact absurd rfl hf

theorem World.Paid.continues (h : w₁.Paid D s) (hg : w₁.Grows w₂) (hs : s.SameIntent s')
    (hx : s'.transactionXdr = s.transactionXdr) : w₂.Paid D s' := by
  have ⟨xdr, hm, t, ht, hb, hmt, hmm, op, ho, hv⟩ := h
  refine ⟨xdr, hx ▸ hm, t, hg.transaction ht, hb, hmt, hs.shortCode ▸ hmm, op, ho, ?_⟩
  simp only [World.publicKey, hg.users, ← hs.toUserId, ← hs.amount, ← hs.assetCode,
    ← hs.assetIssuer] at hv ⊢
  exact hv

-- The envelope of a paid settlement stays.
theorem Deps.Change.envelope (h : D.Change (SparesPaid D) w a s s') (hw : w.settlement i = some s)
    (hp : w.Paid D s) : s'.transactionXdr = s.transactionXdr := by
  have hi := Table.key_of_row? hw
  cases h
  case same | unlink => rfl
  case transition t _ hd _ =>
    simp [Transition.data, hd.sets.transactionXdr]
  case update u hc hd ha =>
    cases u
    case sign j xdr now reset =>
      have hj := (Write.sign_applies_iff.mp ha).1
      exact absurd hp <| hc s (hj ▸ hi ▸ hw) ha
    case refresh j d caller => simp [Write.data, hd.transactionXdr]
    case writeStatus j k status d => simp [Write.data, hd.2.2.1]
    all_goals rfl

-- Nothing gives up a paid settlement.
theorem Deps.Change.gives_up (h : D.Change (SparesPaid D) w a s s') (hw : w.settlement i = some s)
    (hp : w.Paid D s) (hu : s'.status.unpaid) : s'.status = s.status := by
  have hi := Table.key_of_row? hw
  cases h
  case same | unlink => rfl
  case transition t hc hd ha =>
    have hj := (t.applies_iff.mp ha).1
    have hs : w.settlement t.settlementId = some s := hj ▸ hi ▸ hw
    have hn : (s.patch t.data w.now).status = t.nextStatus := rfl
    exact nomatch (hn ▸ hu : t.nextStatus.unpaid = true).symm.trans <| hd.spares hs hp (hc s hs hp)
  case update u hc hd ha =>
    cases u
    case sign       => contradiction
    case expireIntent => contradiction
    case keepPending j n inReview =>
      cases inReview
      case false => rfl
      case true  => contradiction
    case refresh j d caller => simp [Write.data, hd.status]
    case writeStatus j k status d =>
      rcases hd.1 with rfl | rfl
      case inl => contradiction
      case inr =>
        have hj := Write.writeStatus_applies_iff.mp ha
        exact absurd hp <| hc s (hj ▸ hi ▸ hw)
    all_goals rfl

def World.PaidRow (D : Deps) (i : String) (w : World) : Prop :=
  ∃ s, w.settlement i = some s ∧ w.Paid D s

theorem Deps.Move.paid (h : D.Move (SparesPaid D) w₁ w₂) (hw : w₁.WellFormed)
    (hp : w₁.PaidRow D i) : w₂.PaidRow D i := by
  have ⟨s, hs, hp⟩ := hp
  have hg := h.grows hw
  have ⟨_, s', hs', hc⟩ := h.change hw hs
  have ⟨s₂, hs₂, hcont⟩ := hg.settlement hs
  have hs₂ := Option.some.inj <| hs₂.symm.trans hs'
  exact ⟨s', hs', hp.continues hg (hs₂ ▸ hcont.intent) (hc.envelope hs hp)⟩

section Run

variable {c₁ c₂ c₃ : Config World Act Act.Res Failure}

-- In a run whose steps all meet the condition, a settlement that has been paid is not moved to failed
-- or expired by any later step.
theorem paid_not_given_up (hw : w.WellFormed) (r₁ : D.system.Run (SparesPaid D) ⟨w, []⟩ c₁)
    (hs : c₁.shared.settlement i = some s) (hp : c₁.shared.Paid D s)
    (r₂ : D.system.Run (SparesPaid D) c₁ c₂) (m : c₂.Meets (SparesPaid D) l)
    (hn : D.system.next l c₂ = some c₃) (hs₂ : c₂.shared.settlement i = some s₂)
    (hs₃ : c₃.shared.settlement i = some s₃) :
    ¬(s₃.status.unpaid ∧ s₃.status ≠ s₂.status) := by
  rintro ⟨hu, hne⟩
  have hw₁ := Deps.wellFormed_of_run hw r₁
  have hw₂ := Deps.wellFormed_of_run hw (r₁.trans r₂)
  have hm := Deps.moves_of_run hw r₁ r₂
  have ⟨s₂', hs₂', hp₂⟩ := hm.invariant hw₁ (fun _ _ hw hp h => h.paid hw hp) ⟨s, hs, hp⟩
  have hss := Option.some.inj <| hs₂'.symm.trans hs₂
  subst hss
  have ⟨_, s', hs', hc⟩ := (Deps.move_of_next hw (r₁.trans r₂) m hn).change hw₂ hs₂
  have hss := Option.some.inj <| hs'.symm.trans hs₃
  subst hss
  exact hne <| hc.gives_up hs₂ hp₂ hu

-- In the sample, the answer to the submission is lost. The worker asks the ledger, and confirms.
theorem paid_not_given_up_sample :
    ∃ c₁ c₂ : Config World Act Act.Res Failure, ∃ s₁ s₂,
      c₁.shared.settlement "n" = some s₁ ∧ c₂.shared.settlement "n" = some s₂ ∧
      c₁.shared.Paid sampleDeps s₁ ∧ s₁.status = .verifying ∧ s₂.status = .confirmed ∧
      ¬(s₂.status.unpaid ∧ s₂.status ≠ s₁.status) := by
  have ⟨c₁, c₂, r, m, hn, h⟩ := System.exists_step_of_play (S := sampleDeps.system)
    (C := SparesPaid sampleDeps) (c := ⟨sampleWorld, []⟩)
    (.flatten [
      settling 0 {} "AAAAAA" "n", signing 1 "n" "x" "k",
      submitting 2 (.applied true (some (.provider .timeout "Horizon timed out"))), Label.acts 2 [.ok, .ok, .ok]
    ]) (.act 2 .ok)
    (p := fun c₁ c₂ =>
      (c₁.shared.settlement "n").any (fun s => s.status = .verifying ∧ c₁.shared.Paid sampleDeps s) &&
      (c₂.shared.settlement "n").any (·.status = .confirmed))
    (by decide +kernel)
  simp only [Bool.and_eq_true, Option.any_eq_true, decide_eq_true_eq] at h
  have ⟨⟨s₁, hs₁, hv, hp⟩, s₂, hs₂, hc⟩ := h
  refine ⟨c₁, c₂, s₁, s₂, hs₁, hs₂, hp, hv, hc, ?_⟩
  exact paid_not_given_up sampleWorld_wellFormed r hs₁ hp .refl m hn hs₁ hs₂

end Run

-- The worker stops right after its submission has been applied. When its lease has run out, another
-- worker submits the envelope again, is told that the sequence number is used up, and fails the
-- settlement without asking the ledger.
theorem paid_given_up :
    ∃ c₁ c₂ : Config World Act Act.Res Failure, ∃ s₁ s₂,
      sampleDeps.system.Run (fun _ _ => True) ⟨sampleWorld, []⟩ c₁ ∧
      sampleDeps.system.next (.act 3 .ok) c₁ = some c₂ ∧
      c₁.shared.settlement "n" = some s₁ ∧ c₂.shared.settlement "n" = some s₂ ∧
      c₁.shared.Paid sampleDeps s₁ ∧ s₁.status = .verifying ∧ s₂.status = .failed := by
  have ⟨c₁, c₂, r, _, hn, h⟩ := System.exists_step_of_play (S := sampleDeps.system)
    (C := fun _ _ => True) (c := ⟨sampleWorld, []⟩)
    (.flatten [
      settling 0 {} "AAAAAA" "n", signing 1 "n" "x" "k", submitting 2 (.applied true none),
      [.crash 2, .env (.tick 300000)], resubmitting 3, Label.acts 3 [.ok, .ok, .ok]
    ]) (.act 3 .ok)
    (p := fun c₁ c₂ =>
      (c₁.shared.settlement "n").any (fun s => s.status = .verifying ∧ c₁.shared.Paid sampleDeps s) &&
      (c₂.shared.settlement "n").any (·.status = .failed))
    (by decide +kernel)
  simp only [Bool.and_eq_true, Option.any_eq_true, decide_eq_true_eq] at h
  have ⟨⟨s₁, hs₁, hv, hp⟩, s₂, hs₂, hf⟩ := h
  exact ⟨c₁, c₂, s₁, s₂, r, hn, hs₁, hs₂, hp, hv, hf⟩

end Mergepay
