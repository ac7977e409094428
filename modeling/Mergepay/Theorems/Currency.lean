import Mergepay.Settlement.Runs

namespace Mergepay

open Concurrency

-- Both are denominated in the same asset of the registry.
def SameAsset (D : Deps) (s : Settlement) (e : Expense) : Prop :=
  ∃ a, D.validateAsset s.assetCode s.assetIssuer = .ok (.ok a) ∧
    D.validateAsset e.assetCode e.assetIssuer = .ok (.ok a)

-- A request that overrides the asset of the expense names the same registry asset.
def OverridesAlike (D : Deps) : Act → World → Prop
  | .createLinked s true, w => ∀ i ∈ s.expenseShareId, ∀ x ∈ w.share i, ∀ e ∈ w.expense x.expenseId,
    D.validateAsset s.assetCode s.assetIssuer = D.validateAsset e.assetCode e.assetIssuer
  | _, _                    => True

instance : (a : Act) → (w : World) → Decidable (OverridesAlike D a w) := by
  unfold OverridesAlike
  intro a w
  split <;> infer_instance

-- Apart from this, a confirmation must not be taken back.
abbrev OwnCurrency (D : Deps) (a : Act) (w : World) : Prop :=
  KeepsConfirmed a w ∧ OverridesAlike D a w

-- A linked settlement pays what is owed.
def World.Matched (D : Deps) (w : World) : Prop :=
  ∀ j s i x e, w.settlement j = some s → s.expenseShareId = some i → w.share i = some x →
    w.expense x.expenseId = some e → s.amount = x.shareAmount ∧ SameAsset D s e

-- Every settled share of somebody else than the payer has been paid.
def World.Discharged (w : World) : Prop :=
  ∀ i x e, w.share i = some x → x.status = .settled → w.expense x.expenseId = some e →
    x.userId ≠ e.payerUserId →
    ∃ j s, w.settlement j = some s ∧ s.status = .confirmed ∧ s.expenseShareId = some i

variable {D : Deps} {C : Act → World → Prop} {w w₁ w₂ : World}

theorem Deps.Move.matched (h : D.Move C w₁ w₂) (hc : ∀ a w, C a w → OverridesAlike D a w)
    (hw : w₁.WellFormed) (hm : w₁.Matched D) : w₂.Matched D := by
  intro j s i x e hs hi hx he
  have hg := h.grows hw
  rcases h.settlement_cases hw hs with ⟨_, s₁, hs₁, hch⟩ | ⟨_, hcr⟩
  case inl =>
    have hi₁ := hch.link hi
    have ha := hw.allocated_of_share <| hw.links s₁ (Table.mem_of_row? hs₁) i hi₁
    have ⟨x₁, hx₁, hxx, he₁⟩ := hg.owed hw ha hx he
    have ⟨hamt, a, hv, hv'⟩ := hm j s₁ i x₁ e hs₁ hi₁ hx₁ he₁
    have ⟨s', hs', hcont⟩ := hg.settlement hs₁
    have hs' := Option.some.inj <| hs'.symm.trans hs
    subst hs'
    have hin := hcont.intent
    refine ⟨hin.amount ▸ hxx.shareAmount ▸ hamt, a, ?_, hv'⟩
    rw [← hin.assetCode, ← hin.assetIssuer]
    exact hv
  case inr =>
    cases hcr with
    | freeform _ hd _ => exact absurd (hd.link.symm.trans hi) (by simp)
    | @linked s₀ o e₀ x₀ _ hcond hd hx₁ _ =>
      have hi₀ : x₀.id = i := Option.some.inj <| hd.link.symm.trans hi
      subst hi₀
      have ⟨hsame, heq⟩ := hd.owed hg hx he
      refine ⟨hd.amount.trans hsame.shareAmount, ?_⟩
      have ⟨a, hv⟩ := hd.asset
      refine ⟨a, hv, ?_⟩
      cases o
      case false =>
        have ⟨hcode, hiss⟩ := hd.kept rfl
        rw [heq, ← hcode, ← hiss]
        exact hv
      case true =>
        have ⟨x₂, hx₂, _, he₂⟩ := hg.owed hw (hw.allocated_of_share hx₁) hx he
        exact (hc _ _ hcond _ hd.link x₂ hx₂ e he₂).symm.trans hv

theorem confirmed_of_evolves (h : D.system.Evolves (D.Careful C J) w₁ w₂) (hw : w₁.WellFormed)
    (hk : ∀ a w, C a w → KeepsConfirmed a w)
    (hs : ∃ s, w₁.settlement j = some s ∧ s.status = .confirmed) :
    ∃ s, w₂.settlement j = some s ∧ s.status = .confirmed :=
  Deps.kept_of_evolves h hw (fun _ _ _ _ _ hs hch => hch.stays_confirmed (hk _ _) hs) hs

-- A confirmed settlement of a share that still exists.
theorem Deps.Move.backed (h : D.Move C w₁ w₂) (hk : ∀ a w, C a w → KeepsConfirmed a w)
    (hw : w₁.WellFormed) (hs : w₁.settlement j = some s) (hc : s.status = .confirmed)
    (hl : s.expenseShareId = some i) (hx : (w₂.share i).isSome) :
    ∃ j s, w₂.settlement j = some s ∧ s.status = .confirmed ∧ s.expenseShareId = some i := by
  have hg := h.grows hw
  have ⟨_, s', hs', hch⟩ := h.change hw hs
  refine ⟨j, s', hs', hch.stays_confirmed (hk _ _) hs hc, ?_⟩
  have ⟨s₂, hs₂, hcont⟩ := hg.settlement hs
  have hs₂ := Option.some.inj <| hs₂.symm.trans hs'
  rcases hs₂ ▸ hcont.link with h | ⟨_, h⟩
  case inl => exact h.trans hl
  case inr =>
    have ha := hw.allocated_of_share <| hw.links s (Table.mem_of_row? hs) i hl
    simp [h i hl ha] at hx

theorem Deps.Move.discharged (h : D.Move (D.Careful C J) w₁ w₂)
    (hk : ∀ a w, C a w → KeepsConfirmed a w) (hw : w₁.WellFormed) (hd : w₁.Discharged) :
    w₂.Discharged := by
  intro i x e hx hs he hn
  have hx' : (w₂.share i).isSome := by simp [hx]
  have hk' : ∀ a w, D.Careful C J a w → KeepsConfirmed a w := fun a w h => hk a w h.1
  rcases h.settled_cases hw hx hs with
    ⟨x₁, hx₁, hs₁⟩ | ⟨t, _, ht, hi, hx₁, ha, rfl⟩ | ⟨_, hdue, hx₁, rfl⟩ | hp
  case inl =>
    have ha := hw.allocated_of_share (i := i) (by simp [hx₁])
    have ⟨x₂, hx₂, hsame, he₂⟩ := (h.grows hw).owed hw ha hx he
    have hx₂ := Option.some.inj <| hx₂.symm.trans hx₁
    subst hx₂
    have ⟨j, s, hj, hc, hl⟩ := hd i x₂ e hx₁ hs₁ he₂ (hsame.userId ▸ hn)
    exact h.backed hk' hw hj hc hl hx'
  case inr.inl =>
    have ⟨hc, hl⟩ := ht.share i hi
    have ⟨s, hj, hl⟩ := linked_of_past hl hx₁
    have ⟨s₁, hm, ha⟩ := List.any_eq_true.mp ha
    have hs₁ := hw.settlement_of_mem hm
    rw [(t.applies_iff.mp ha).1, hj] at hs₁
    have hs₁ := Option.some.inj hs₁
    subst hs₁
    refine ⟨t.settlementId, s.patch t.data w₁.now, ?_, by simp [Transition.data, hc], hl⟩
    rw [World.settlement_setShareStatus, World.settlement_patchSettlements, hj]
    simp [ha]
  case inr.inr.inl =>
    have ⟨j, hl, w₀, hw₀, hc, hev⟩ := hdue
    have ⟨s, hj, hl⟩ := linked_of_past hl hx₁
    have ⟨s', hj', hc⟩ := confirmed_of_evolves hev hw₀ hk hc
    have hs := Option.some.inj <| hj'.symm.trans hj
    exact ⟨j, s, hj, hs ▸ hc, hl⟩
  case inr.inr.inr => exact absurd (hp e he) hn

section Run

variable {c : Config World Act Act.Res Failure}

-- In a run whose steps all meet the condition, a settled share that does not belong to the payer has a
-- confirmed settlement of the same amount in the same asset.
theorem discharged_in_own_currency (hw : w.WellFormed) (hm : w.Matched D) (hd : w.Discharged)
    (r : D.system.Run (OwnCurrency D) ⟨w, []⟩ c) (hx : c.shared.share i = some x)
    (hs : x.status = .settled) (he : c.shared.expense x.expenseId = some e)
    (hn : x.userId ≠ e.payerUserId) :
    ∃ j s, c.shared.settlement j = some s ∧ s.status = .confirmed ∧ s.expenseShareId = some i ∧
      s.amount = x.shareAmount ∧ SameAsset D s e := by
  have ⟨r, _⟩ := Deps.careful_run (J := fun _ => True) hw (fun _ _ _ _ _ => trivial) trivial r
  have hms := Deps.moves_of_run hw .refl r
  have hm := hms.invariant hw (fun _ _ hw hm h => h.matched (fun _ _ h => h.1.2) hw hm) hm
  have hd := hms.invariant hw (fun _ _ hw hd h => h.discharged (fun _ _ h => h.1) hw hd) hd
  have ⟨j, s, hj, hc, hl⟩ := hd i x e hx hs he hn
  have ⟨hamt, ha⟩ := hm j s i x e hj hl hx he
  exact ⟨j, s, hj, hc, hl, hamt, ha⟩

-- In the sample, bob pays two lumens for his share of two lumens.
theorem discharged_in_own_currency_sample :
    ∃ c : Config World Act Act.Res Failure, ∃ x e,
      c.shared.share "i" = some x ∧ x.status = .settled ∧ c.shared.expense x.expenseId = some e ∧
      ∃ j s, c.shared.settlement j = some s ∧ s.status = .confirmed ∧ s.expenseShareId = some "i" ∧
        s.amount = x.shareAmount ∧ SameAsset sampleDeps s e := by
  have ⟨c, r, h⟩ := System.exists_run_of_play (S := sampleDeps.system) (C := OwnCurrency sampleDeps)
    (c := ⟨sampleWorld, []⟩)
    (settling 0 { assetCode := some "xlm" } "AAAAAA" "n" ++ signing 1 "n" "x" "k" ++
      submitting 2 (.applied true none) ++ polling 2 .ok)
    (p := fun c => (c.shared.share "i").any fun x => x.status = .settled ∧
      (c.shared.expense x.expenseId).any fun e => x.userId ≠ e.payerUserId)
    (by decide +kernel)
  simp only [Option.any_eq_true, decide_eq_true_eq] at h
  have ⟨x, hx, hs, e, he, hn⟩ := h
  refine ⟨c, x, e, hx, hs, he, ?_⟩
  refine discharged_in_own_currency sampleWorld_wellFormed (fun _ _ _ _ _ => nofun) ?_ r hx hs he hn
  intro i x e hx hs
  have hm := Table.mem_of_row? hx
  simp only [sampleWorld, List.mem_singleton] at hm
  simp [hm] at hs

end Run

-- Bob overrides the asset of the expense, and pays two US dollars for a share of two lumens.
theorem discharged_in_other_currency :
    ∃ c : Config World Act Act.Res Failure, ∃ x e,
      sampleDeps.system.Run (fun _ _ => True) ⟨sampleWorld, []⟩ c ∧
      c.shared.share "i" = some x ∧ x.status = .settled ∧
      c.shared.expense x.expenseId = some e ∧ x.userId ≠ e.payerUserId ∧
      ∀ s ∈ c.shared.settlements, ¬SameAsset sampleDeps s e := by
  have ⟨c, r, h⟩ := System.exists_run_of_play (S := sampleDeps.system) (C := fun _ _ => True)
    (c := ⟨sampleWorld, []⟩)
    (settling 0 { assetCode := some "USDC", assetIssuer := some "GUSD" } "AAAAAA" "n" ++
      signing 1 "n" "x" "k" ++ submitting 2 (.applied true none) ++ polling 2 .ok)
    (p := fun c => (c.shared.share "i").any fun x => x.status = .settled ∧
      (c.shared.expense x.expenseId).any fun e => x.userId ≠ e.payerUserId ∧
        ∀ s ∈ c.shared.settlements, sampleDeps.validateAsset s.assetCode s.assetIssuer ≠
          sampleDeps.validateAsset e.assetCode e.assetIssuer)
    (by decide +kernel)
  simp only [Option.any_eq_true, decide_eq_true_eq] at h
  have ⟨x, hx, hs, e, he, hn, ha⟩ := h
  exact ⟨c, x, e, r, hx, hs, he, hn, fun s hm ⟨_, h₁, h₂⟩ => ha s hm (h₁.trans h₂.symm)⟩

end Mergepay
