import Mergepay.Settlement.Runs

namespace Mergepay

open Concurrency

-- A payment may still arrive, or has arrived.
def SettlementStatus.committed : SettlementStatus → Bool
  | .submitted | .verifying | .pendingConfirmation | .needsReview | .confirmed => true
  | _ => false

-- No other settlement of the same share is committed.
def World.Alone (w : World) (s : Settlement) : Prop :=
  s.expenseShareId.isSome → ∀ s' ∈ w.settlements, s'.expenseShareId = s.expenseShareId →
    s'.status.committed → s'.id = s.id

instance (w : World) : DecidablePred w.Alone :=
  fun _ => inferInstanceAs (Decidable (_ → ∀ s' ∈ w.settlements, _))

-- A settlement only becomes committed (by a signature, or by an unguarded update) while no other one of
-- the same share is.
def CommitsAlone : Act → World → Prop
  | .update (.sign i xdr now reset), w => ∀ s ∈ w.settlement i,
    (Write.sign i xdr now reset).applies s → w.Alone s
  | .update (.writeStatus i _ .confirmed _), w => ∀ s ∈ w.settlement i, w.Alone s
  | .update (.keepPending i _ true), w => ∀ s ∈ w.settlement i, w.Alone s
  | _, _ => True

instance (a : Act) (w : World) : Decidable (CommitsAlone a w) := by
  induction a using Act.casesOn with
  | update u =>
    induction u using Write.casesOn with
    | sign i xdr now reset => exact inferInstanceAs (Decidable (∀ s ∈ w.settlement i, _))
    | writeStatus i _ status _ =>
      cases status with
      | confirmed => exact inferInstanceAs (Decidable (∀ s ∈ w.settlement i, _))
      | _         => exact inferInstanceAs (Decidable True)
    | keepPending i _ inReview =>
      cases inReview with
      | true  => exact inferInstanceAs (Decidable (∀ s ∈ w.settlement i, _))
      | false => exact inferInstanceAs (Decidable True)
    | _ => exact inferInstanceAs (Decidable True)
  | _ => exact inferInstanceAs (Decidable True)

abbrev SinglePayment (a : Act) (w : World) : Prop :=
  KeepsConfirmed a w ∧ CommitsAlone a w

-- At most one settlement of a share is committed.
def World.Exclusive (w : World) : Prop :=
  ∀ s ∈ w.settlements, s.status.committed → w.Alone s

variable {D : Deps} {w w₁ w₂ : World} {s s' : Settlement}

-- The machine only moves between committed states once a settlement has been signed.
theorem committed_of_transition (h : D.DueTransition C t w) (ha : t.applies s)
    (hc : t.nextStatus.committed) : s.status.committed := by
  have ⟨_, ha⟩ := t.applies_iff.mp ha
  have hs : t.nextStatus ≠ .submitted := by
    rw [h.next]
    cases t.caller with
    | job _ reason            => cases reason <;> simp [Caller.nextStatus]
    | reconciliation _ reason => cases reason <;> simp [Caller.nextStatus]
    | confirmRoute _ b        => cases b <;> simp [Caller.nextStatus]
  revert hc hs ha
  cases t.nextStatus <;> cases s.status <;> decide

-- A settlement that becomes committed is the only one of its share, and the target of the action.
theorem Deps.Change.committed (h : D.Change SinglePayment w a s s') (hw : w.settlement i = some s)
    (hc : s'.status.committed) :
    s.status.committed ∨ w.Alone s ∧ ∃ u, a = .update u ∧ u.applies s ∧ ∀ s, u.applies s → s.id = i := by
  have hi := Table.key_of_row? hw
  cases h
  case same | unlink => exact .inl hc
  case transition t _ hd ha => exact .inl <| committed_of_transition hd ha hc
  case update u hm hd ha =>
    cases u
    case sign j xdr now reset =>
      have hj : j = i := (Write.sign_applies_iff.mp ha).1.symm.trans hi
      subst hj
      exact .inr ⟨hm.2 s hw ha, _, rfl, ha, fun _ h => (Write.sign_applies_iff.mp h).1⟩
    case keepPending j n inReview =>
      have hj : j = i := (Write.keepPending_applies_iff.mp ha).symm.trans hi
      subst hj
      cases inReview
      case false => exact .inl hc
      case true =>
        exact .inr ⟨hm.2 s hw, _, rfl, ha, fun _ h => Write.keepPending_applies_iff.mp h⟩
    case writeStatus j k status d =>
      have hj : j = i := (Write.writeStatus_applies_iff.mp ha).symm.trans hi
      subst hj
      rcases hd.1 with rfl | rfl
      case inl => exact .inr ⟨hm.2 s hw, _, rfl, ha, fun _ h => Write.writeStatus_applies_iff.mp h⟩
      case inr => contradiction
    case expireIntent => contradiction
    case refresh j d caller =>
      simp only [Settlement.patch_status, Write.data, hd.status, Option.getD_none] at hc
      exact .inl hc
    all_goals exact .inl hc

theorem Deps.Move.exclusive (h : D.Move SinglePayment w₁ w₂) (hw : w₁.WellFormed)
    (he : w₁.Exclusive) : w₂.Exclusive := by
  have ⟨a, h'⟩ := h.changes hw
  have hw₂ := h.wellFormed hw
  -- A committed row of `w₂` comes from a row of `w₁`, since new rows are pending.
  have old : ∀ s ∈ w₂.settlements, s.status.committed →
      ∃ s₁, w₁.settlement s.id = some s₁ ∧ D.Change SinglePayment w₁ a s₁ s := by
    intro s hs hc
    rcases h' s.id s (hw₂.settlement_of_mem hs) with h | ⟨_, h⟩
    case inl => exact h
    case inr => exact absurd hc <| h.unsigned.status ▸ by decide
  intro s hs hc hl s' hs' hl' hc'
  have ⟨s₁, hs₁, hch⟩ := old s hs hc
  have ⟨s₁', hs₁', hch'⟩ := old s' hs' hc'
  have ⟨k, hk⟩ := Option.isSome_iff_exists.mp hl
  have hk₁ := hch.link hk
  have hk₁' := hch'.link (hl'.trans hk)
  have hm := Table.mem_of_row? hs₁
  have hm' := Table.mem_of_row? hs₁'
  have hid : s₁.id = s.id := Table.key_of_row? hs₁
  have hid' : s₁'.id = s'.id := Table.key_of_row? hs₁'
  -- It suffices that one of the old rows was alone while the other one was committed.
  suffices hs : s₁'.id = s₁.id from hid'.symm.trans (hs.trans hid)
  rcases hch.committed hs₁ hc with hc₁ | ⟨ha, u, rfl, _, hu⟩
  case inl =>
    rcases hch'.committed hs₁' hc' with hc₁' | ⟨ha', _⟩
    case inl => exact he s₁ hm hc₁ (by simp [hk₁]) s₁' hm' (hk₁'.trans hk₁.symm) hc₁'
    case inr => exact (ha' (by simp [hk₁']) s₁ hm (hk₁.trans hk₁'.symm) hc₁).symm
  case inr =>
    rcases hch'.committed hs₁' hc' with hc₁' | ⟨_, u', h, hu', _⟩
    case inl => exact ha (by simp [hk₁]) s₁' hm' (hk₁'.trans hk₁.symm) hc₁'
    case inr => exact (hu s₁' <| (Act.update.inj h) ▸ hu').trans hid.symm

-- The settlement `i` has paid the share `k`, which may have been deleted since.
def World.PaidBy (w : World) (i k : String) : Prop :=
  k ∈ w.allocated ∧ ∃ s, w.settlement i = some s ∧ s.status = .confirmed ∧
    (s.expenseShareId = some k ∨ w.share k = none)

theorem Deps.Move.paidBy (h : D.Move SinglePayment w₁ w₂) (hw : w₁.WellFormed)
    (hp : w₁.PaidBy i k) : w₂.PaidBy i k := by
  have ⟨ha, s, hs, hc, hk⟩ := hp
  have hg := h.grows hw
  have ⟨_, s', hs', hch⟩ := h.change hw hs
  refine ⟨hg.allocated ha, s', hs', hch.stays_confirmed (·.1) hs hc, ?_⟩
  rcases hk with hk | hk
  case inr => exact .inr <| hg.share_none ha hk
  case inl =>
    have ⟨s₂, hs₂, hl⟩ := hg.settlement hs
    have hs₂ := Option.some.inj <| hs₂.symm.trans hs'
    rcases hs₂ ▸ hl.link with h | ⟨_, h⟩
    case inl => exact .inl (h.trans hk)
    case inr => exact .inr (h k hk ha)

section Run

variable {c₁ c₂ : Config World Act Act.Res Failure}

-- In a run whose steps all meet the condition, no two settlements of a share are ever confirmed, be it
-- at the same time or one after the other.
theorem single_payment (hw : w.WellFormed) (he : w.Exclusive)
    (r₁ : D.system.Run SinglePayment ⟨w, []⟩ c₁) (r₂ : D.system.Run SinglePayment c₁ c₂)
    (hs₁ : c₁.shared.settlement i₁ = some s₁) (hs₂ : c₂.shared.settlement i₂ = some s₂)
    (hc₁ : s₁.status = .confirmed) (hc₂ : s₂.status = .confirmed)
    (hk₁ : s₁.expenseShareId = some k) (hk₂ : s₂.expenseShareId = some k) : i₁ = i₂ := by
  have hm₁ := Deps.moves_of_run hw .refl r₁
  have hm₂ := Deps.moves_of_run hw r₁ r₂
  have hw₁ := hm₁.wellFormed hw
  have hw₂ := hm₂.wellFormed hw₁
  have he₁ := hm₁.invariant hw (fun _ _ hw he h => h.exclusive hw he) he
  have he₂ := hm₂.invariant hw₁ (fun _ _ hw he h => h.exclusive hw he) he₁
  have hk : k ∈ c₁.shared.allocated :=
    hw₁.allocated_of_share <| hw₁.links s₁ (Table.mem_of_row? hs₁) k hk₁
  have hp₁ : c₁.shared.PaidBy i₁ k := ⟨hk, s₁, hs₁, hc₁, .inl hk₁⟩
  have ⟨_, s, hs, hc, hl⟩ := hm₂.invariant hw₁ (fun _ _ hw hp h => h.paidBy hw hp) hp₁
  have hl : s.expenseShareId = some k := by
    refine hl.resolve_right fun hn => ?_
    have hx := hw₂.links s₂ (Table.mem_of_row? hs₂) k hk₂
    simp [hn] at hx
  have ha := he₂ s (Table.mem_of_row? hs) (hc ▸ rfl) (by simp [hl]) s₂ (Table.mem_of_row? hs₂)
    (hk₂.trans hl.symm) (hc₂ ▸ rfl)
  exact (Table.key_of_row? hs).symm.trans <| ha.symm.trans (Table.key_of_row? hs₂)

-- In the sample, a second settlement of the share is created after the first one has been submitted. It
-- is not signed, so that the first one remains the only one that is ever confirmed.
theorem single_payment_sample :
    ∃ c : Config World Act Act.Res Failure, ∃ s₁ s₂,
      c.shared.settlement "n" = some s₁ ∧ c.shared.settlement "m" = some s₂ ∧
      s₁.status = .confirmed ∧ s₂.status = .pending ∧ s₁.expenseShareId = s₂.expenseShareId ∧
      ∀ i s, c.shared.settlement i = some s → s.status = .confirmed → s.expenseShareId = some "i" →
        "n" = i := by
  have ⟨c, r, h⟩ := System.exists_run_of_play (S := sampleDeps.system) (C := SinglePayment)
    (c := ⟨sampleWorld, []⟩)
    (settling 0 {} "AAAAAA" "n" ++ signing 1 "n" "x" "k" ++ submitting 2 (.applied true none) ++
      settling 3 {} "BBBBBB" "m" ++ polling 2 .ok)
    (p := fun c =>
      (c.shared.settlement "n").any (fun s => s.status = .confirmed ∧ s.expenseShareId = some "i") &&
      (c.shared.settlement "m").any (fun s => s.status = .pending ∧ s.expenseShareId = some "i"))
    (by decide +kernel)
  simp only [Bool.and_eq_true, Option.any_eq_true, decide_eq_true_eq] at h
  have ⟨⟨s₁, hs₁, hc₁, hk₁⟩, s₂, hs₂, hc₂, hk₂⟩ := h
  refine ⟨c, s₁, s₂, hs₁, hs₂, hc₁, hc₂, hk₁.trans hk₂.symm, fun i s hs hc hk => ?_⟩
  exact single_payment sampleWorld_wellFormed (fun _ => nofun) r .refl
    hs₁ hs hc₁ hc hk₁ hk

end Run

-- Bob asks twice to settle his share, without an idempotency key. He signs both settlements, and both
-- payments are made.
theorem share_paid_twice :
    ∃ c : Config World Act Act.Res Failure, ∃ s₁ s₂,
      sampleDeps.system.Run (fun _ _ => True) ⟨sampleWorld, []⟩ c ∧
      c.shared.settlement "n" = some s₁ ∧ c.shared.settlement "m" = some s₂ ∧
      s₁.status = .confirmed ∧ s₂.status = .confirmed ∧
      s₁.expenseShareId = some "i" ∧ s₂.expenseShareId = some "i" := by
  have ⟨c, r, h⟩ := System.exists_run_of_play (S := sampleDeps.system) (C := fun _ _ => True)
    (c := ⟨sampleWorld, []⟩)
    (settling 0 {} "AAAAAA" "n" ++ settling 1 {} "BBBBBB" "m" ++
      signing 2 "n" "x" "k₁" ++ submitting 3 (.applied true none) ++ polling 3 .ok ++
      signing 4 "m" "y" "k₂" ++ submitting 5 (.applied true none) ++ polling 5 .ok)
    (p := fun c =>
      (c.shared.settlement "n").any (fun s => s.status = .confirmed ∧ s.expenseShareId = some "i") &&
      (c.shared.settlement "m").any (fun s => s.status = .confirmed ∧ s.expenseShareId = some "i"))
    (by decide +kernel)
  simp only [Bool.and_eq_true, Option.any_eq_true, decide_eq_true_eq] at h
  have ⟨⟨s₁, hs₁, hc₁, hk₁⟩, s₂, hs₂, hc₂, hk₂⟩ := h
  exact ⟨c, s₁, s₂, r, hs₁, hs₂, hc₁, hc₂, hk₁, hk₂⟩

end Mergepay
