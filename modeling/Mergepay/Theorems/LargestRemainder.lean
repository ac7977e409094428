import Mathlib.Algebra.BigOperators.Ring.List
import Mergepay.Expense.Accumulation
import Mergepay.Expense.Allocation
import Mergepay.Money.Codec

namespace Mergepay

open Money Text Breakdown

-- The shares of a total for the given weights, if `extra` of them are rounded up.
structure LargestRemainder (total : Int) (weights shares : List Int) (extra : Nat) : Prop where
  exact   : shares.sum = total
  length  : shares.length = weights.length
  quota   : ∀ w s, (w, s) ∈ weights.zip shares →
    s = total * w / weights.sum ∨ s = total * w / weights.sum + 1 ∧ ¬weights.sum ∣ total * w
  zero    : ∀ s, (0, s) ∈ weights.zip shares → s = 0
  ordered : ∀ w₁ w₂ s₁ s₂, (w₁, s₁) ∈ weights.zip shares → (w₂, s₂) ∈ weights.zip shares → w₂ < w₁ → s₂ ≤ s₁
  fair    : (weights.zip shares).Pairwise fun p q => p.1 = q.1 → q.2 ≤ p.2 ∧ p.2 ≤ q.2 + 1
  counted : (weights.zip shares).countP (fun p => p.2 = total * p.1 / weights.sum + 1) = extra
  few     : extra < weights.length

-- The weight of a participant: one in an equal split, and the percentage in millionths in a percentage split.
def Weighs (splitType : ExpenseSplitMode) (participant : SplitParticipant) (weight : Int) : Prop :=
  match splitType with
  | .equal      => weight = 1
  | .percentage => ∃ percent ∈ participant.percent, Decimal.accepts percent.toText.toList = true ∧
    (Decimal.split percent.toText.toList).2.length ≤ 6 ∧
    (weight : ℚ) = 10 ^ 6 * Decimal.denoted percent.toText.toList
  | .custom     => False

namespace Breakdown

variable {total : Int} {weights amounts shares : List Int} {k : Int}

theorem quotas_eq (ht : 0 ≤ total) (hw : ∀ w ∈ weights, 0 ≤ w) :
    weights.map (fun w => (total * w).tdiv weights.sum) =
      Apportionment.wholes (weights.map (total * ·)) weights.sum ∧
    weights.map (fun w => (total * w).tmod weights.sum) =
      Apportionment.remainders (weights.map (total * ·)) weights.sum := by
  rw [Apportionment.wholes, Apportionment.remainders, List.map_map, List.map_map]
  constructor
  case left  => exact List.map_congr_left fun w h => Int.tdiv_eq_ediv_of_nonneg (mul_nonneg ht (hw w h))
  case right => exact List.map_congr_left fun w h => Int.tmod_eq_emod_of_nonneg (mul_nonneg ht (hw w h))

theorem allocateByWeights_ok (h : allocateByWeights total weights = .ok (amounts, k)) (ht : 0 < total) :
    0 < weights.sum ∧ amounts = Apportionment.apportion (weights.map (total * ·)) weights.sum ∧
    k = Apportionment.residual (weights.map (total * ·)) weights.sum := by
  simp only [allocateByWeights] at h
  have ⟨hs, h⟩ := (ite_eq_ok fun _ => fail_bind_eq_ok).mp h
  have ⟨hw, h⟩ := (ite_eq_ok fun _ => fail_bind_eq_ok).mp h
  have hs := not_le.mp hs
  push Not at hw
  have ⟨hq, hr⟩ := quotas_eq ht.le hw
  have hk : total = (weights.map (total * ·)).sum / weights.sum := by
    rw [List.sum_map_mul_left, List.map_id', Int.mul_ediv_cancel _ hs.ne']
  rw [hq, hr] at h
  have ⟨ha, hd⟩ := Prod.mk.inj (Except.ok.inj h)
  refine ⟨hs, ?_, ?_⟩
  · rw [← ha, Apportionment.apportion, Apportionment.residual, ← hk]
  · rw [← hd, Apportionment.residual, ← hk]

theorem allocateByWeights_spec (h : allocateByWeights total weights = .ok (amounts, k)) (ht : 0 < total)
    (hn : weights ≠ []) : LargestRemainder total weights amounts k.toNat ∧ 0 ≤ k := by
  obtain ⟨hw, rfl, rfl⟩ := allocateByWeights_ok h ht
  have hk := Apportionment.residual_nonneg hw (weights.map (total * ·))
  have hlt := Apportionment.residual_lt_length hw (l := weights.map (total * ·)) (by simpa using hn)
  have hc := Apportionment.countP_apportion hw (weights.map (total * ·))
  have at_index {i : Nat} {w s : Int} (h : (weights.zip (Apportionment.apportion (weights.map (total * ·)) weights.sum))[i]? =
      some (w, s)) : (weights.map (total * ·))[i]? = some (total * w) ∧
      (Apportionment.apportion (weights.map (total * ·)) weights.sum)[i]? = some s := by
    have ⟨h₁, h₂⟩ := List.getElem?_zip_eq_some.mp h
    exact ⟨by simp [h₁], h₂⟩
  have hquota : ∀ w s, (w, s) ∈ weights.zip (Apportionment.apportion (weights.map (total * ·)) weights.sum) →
      s = total * w / weights.sum ∨ s = total * w / weights.sum + 1 ∧ ¬weights.sum ∣ total * w := by
    intro w s h
    have ⟨i, hi⟩ := List.mem_iff_getElem?.mp h
    have ⟨h₁, h₂⟩ := at_index hi
    exact Apportionment.apportion_cases hw h₁ h₂
  refine ⟨{
    exact   := ?exact
    length  := ?length
    quota   := hquota
    zero    := ?zero
    ordered := ?ordered
    fair    := ?fair
    counted := ?counted
    few     := ?few
  }, hk⟩
  case exact =>
    rw [Apportionment.sum_apportion hw, List.sum_map_mul_left, List.map_id', Int.mul_ediv_cancel _ hw.ne']
  case length => rw [Apportionment.length_apportion hw, List.length_map]
  case zero =>
    intro s h
    have := hquota 0 s h
    simpa using this
  case ordered =>
    intro w₁ w₂ s₁ s₂ h₁ h₂ hlt
    have ⟨i, hi⟩ := List.mem_iff_getElem?.mp h₁
    have ⟨j, hj⟩ := List.mem_iff_getElem?.mp h₂
    have ⟨hw₁, hs₁⟩ := at_index hi
    have ⟨hw₂, hs₂⟩ := at_index hj
    exact Apportionment.apportion_mono hw hw₁ hw₂ hs₁ hs₂ <| .inl <| mul_lt_mul_of_pos_left hlt ht
  case fair =>
    refine List.pairwise_iff_getElem.mpr fun i j hi hj hij he => ?_
    obtain ⟨w, s₁, hp⟩ : ∃ w s₁, (w, s₁) = (weights.zip _)[i] := ⟨_, _, rfl⟩
    obtain ⟨w₂, s₂, hq⟩ : ∃ w₂ s₂, (w₂, s₂) = (weights.zip _)[j] := ⟨_, _, rfl⟩
    rw [← hp, ← hq] at he ⊢
    obtain rfl : w = w₂ := he
    have ⟨hw₁, hs₁⟩ := at_index (hp ▸ List.getElem?_eq_getElem hi)
    have ⟨hw₂, hs₂⟩ := at_index (hq ▸ List.getElem?_eq_getElem hj)
    refine ⟨Apportionment.apportion_mono hw hw₁ hw₂ hs₁ hs₂ <| .inr ⟨rfl, hij.le⟩, ?_⟩
    have h₁ := hquota w s₁ <| hp ▸ List.getElem_mem hi
    have h₂ := hquota w s₂ <| hq ▸ List.getElem_mem hj
    omega
  case counted =>
    rw [List.zip_map_left, List.countP_map] at hc
    simp only [Function.comp_def, Prod.map_fst, Prod.map_snd, id_eq] at hc
    omega
  case few =>
    rw [List.length_map] at hlt
    omega

variable {amount : String} {splitType : ExpenseSplitMode} {participants : List SplitParticipant}
  {result : ExpenseSplitResult} {l : List ExpenseSplitShare}

theorem assertParticipants_ne_nil (h : assertParticipants participants = .ok ()) : participants ≠ [] := by
  rintro rfl
  simp [assertParticipants, fail] at h

theorem parsePercent_weighs {participant : SplitParticipant} {weight : Int}
    (h : parsePercent participant.percent participant.userId = .ok weight) :
    Weighs .percentage participant weight := by
  simp only [parsePercent.eq_def] at h
  split at h
  case h_1 => exact (fail_bind_eq_ok.mp h).elim
  case h_2 => exact (fail_bind_eq_ok.mp h).elim
  case h_3 percent _ hp =>
    have ⟨_, hr, h⟩ := Except.bind_eq_ok.mp h
    obtain rfl := Except.ok.inj hr
    have ⟨ha, h⟩ := (ite_eq_ok fun _ => fail_bind_eq_ok).mp h
    have ⟨hl, h⟩ := (ite_eq_ok fun _ => fail_bind_eq_ok).mp h
    have hl := not_lt.mp hl
    refine ⟨percent, hp, not_not.mp ha, hl, ?_⟩
    have hv := Decimal.value_eq hl
    rw [Decimal.value, Decimal.digits_dropZeros] at hv
    rw [← hv, ← Except.pure_eq_ok.mp h]
    norm_cast

theorem splitWeights_spec (h : splitWeights splitType participants = .ok weights) (hm : splitType ≠ .custom) :
    List.Forall₂ (Weighs splitType) participants weights ∧
    (splitType = .percentage → weights.sum = percentTotal) := by
  rw [splitWeights] at h
  cases splitType with
  | custom => contradiction
  | equal =>
    obtain rfl := Except.pure_eq_ok.mp h
    exact ⟨List.forall₂_map_right_iff.mpr <| List.forall₂_same.mpr fun _ _ => rfl, nofun⟩
  | percentage =>
    have ⟨w, hw, h⟩ := Except.bind_eq_ok.mp h
    have ⟨hs, h⟩ := (ite_eq_ok fun _ => fail_bind_eq_ok).mp h
    obtain rfl := Except.pure_eq_ok.mp h
    exact ⟨(Except.mapM_forall₂ hw).imp fun _ _ => parsePercent_weighs, fun _ => not_not.mp hs⟩

theorem splitExpense_ok (h : splitExpense amount splitType participants = .ok result) (hm : splitType ≠ .custom) :
    ∃ total weights shares k, (toStroops amount = .ok total ∧ 0 < total) ∧ participants ≠ [] ∧
      splitWeights splitType participants = .ok weights ∧ allocateByWeights total weights = .ok (shares, k) ∧
      (participants.zip shares).mapM (fun p => splitShare splitType p.1 p.2) = .ok result.shares ∧
      result.remainderStroops = .ofList (Number.render k) := by
  simp only [splitExpense, hm, if_false] at h
  have ⟨total, ht, h⟩ := Except.bind_eq_ok.mp h
  have ⟨ht, h₀, hz⟩ := parseAmount_eq_ok.mp ht
  have ⟨hn, h⟩ := Except.unit_bind_eq_ok.mp h
  have ⟨weights, hw, h⟩ := Except.bind_eq_ok.mp h
  have ⟨(shares, k), hs, h⟩ := Except.bind_eq_ok.mp h
  have ⟨_, _, h⟩ := Except.bind_eq_ok.mp h
  have ⟨l, hl, h⟩ := Except.bind_eq_ok.mp h
  have hz := hz rfl
  rw [← Except.pure_eq_ok.mp h]
  exact ⟨total, weights, shares, k, ⟨ht, by omega⟩, assertParticipants_ne_nil hn, hw, hs, hl, rfl⟩

-- The shares are those of the participants, in their order.
theorem splitShares_spec (h : (participants.zip shares).mapM (fun p => splitShare splitType p.1 p.2) = .ok l)
    (hl : shares.length = participants.length) : l.map (·.userId) = participants.map (·.userId) ∧
    List.Forall₂ (fun share n => toStroops share.amount = .ok n) l shares := by
  have spec {p : SplitParticipant} {n : Int} {share : ExpenseSplitShare}
      (h : splitShare splitType p n = .ok share) : share.userId = p.userId ∧ toStroops share.amount = .ok n := by
    have ⟨t, ht, h⟩ := Except.bind_eq_ok.mp h
    rw [← Except.pure_eq_ok.mp h]
    exact ⟨rfl, toStroops_fromStroops (liftFailure_eq_ok.mp ht)⟩
  have hm := Except.map_of_mapM (g := fun p => p.1.userId) (v := (·.userId)) h fun _ _ hs => (spec hs).1
  have hf : List.Forall₂ (fun share p => toStroops share.amount = .ok p.2) l (participants.zip shares) :=
    ((Except.mapM_forall₂ h).imp fun _ _ hs => (spec hs).2).flip
  constructor
  case left =>
    conv_rhs => rw [← List.map_fst_zip hl.ge, List.map_map]
    exact hm
  case right =>
    rwa [← List.map_snd_zip hl.le, List.forall₂_map_right_iff]

end Breakdown

-- Whatever is lost when the quotas of an equal or percentage split are rounded down goes to the largest remainders, one
-- stroop for each of them.
theorem expense_split_exactly (amount : String) (splitType : ExpenseSplitMode) (participants : List SplitParticipant)
    (result : ExpenseSplitResult) (h : splitExpense amount splitType participants = .ok result)
    (hm : splitType ≠ .custom) :
    ∃ total weights shares extra, (toStroops amount = .ok total ∧ 0 < total) ∧
      splitWeights splitType participants = .ok weights ∧ weights.length = participants.length ∧
      List.Forall₂ (Weighs splitType) participants weights ∧
      (splitType = .percentage → weights.sum = percentTotal) ∧
      result.shares.map (·.userId) = participants.map (·.userId) ∧
      List.Forall₂ (fun share n => toStroops share.amount = .ok n) result.shares shares ∧
      result.remainderStroops = .ofList (Number.render (extra : Nat)) ∧
      LargestRemainder total weights shares extra := by
  have ⟨total, weights, shares, k, ht, hn, hw, ha, hs, hk⟩ := splitExpense_ok h hm
  have ⟨hf, hp⟩ := splitWeights_spec hw hm
  have hl := hf.length_eq.symm
  have hw₀ : weights ≠ [] := fun hz => hn <| List.length_eq_zero_iff.mp <| hl.symm.trans <| List.length_eq_zero_iff.mpr hz
  have ⟨spec, h₀⟩ := allocateByWeights_spec ha ht.2 hw₀
  have ⟨hu, hs⟩ := splitShares_spec hs (spec.length.trans hl)
  exact ⟨total, weights, shares, k.toNat, ht, hw, hl, hf, hp, hu, hs, Int.toNat_of_nonneg h₀ ▸ hk, spec⟩

def samplePercentages : List SplitParticipant := [
  { userId := "a", percent := some (.text "33.333333") },
  { userId := "b", percent := some (.text "33.333333") },
  { userId := "c", percent := some (.text "33.333334") }
]

-- Two stroops remain. The first two participants get them in an equal split. Among the percentages, the largest one has
-- the largest remainder, and the first participant is preferred to the second one.
theorem expense_split_exactly_sample :
    (∃ total weights shares extra, (toStroops "0.0000011" = .ok total ∧ 0 < total) ∧
      splitWeights .equal [{ userId := "a" }, { userId := "b" }, { userId := "c" }] = .ok weights ∧
      LargestRemainder total weights shares extra) ∧
    List.Forall₂ (Weighs .percentage) samplePercentages [33333333, 33333333, 33333334] ∧
    ∃ extra, LargestRemainder 11 [33333333, 33333333, 33333334] [4, 3, 4] extra := by
  constructor
  case left =>
    have ⟨total, weights, shares, extra, ht, hw, _, _, _, _, _, _, h⟩ := expense_split_exactly "0.0000011" .equal
      [{ userId := "a" }, { userId := "b" }, { userId := "c" }]
      { amount := "0.0000011", splitType := .equal, remainderStroops := "2",
        shares := [{ userId := "a", amount := "0.0000004" }, { userId := "b", amount := "0.0000004" },
          { userId := "c", amount := "0.0000003" }] }
      (by decide +kernel) nofun
    exact ⟨total, weights, shares, extra, ht, hw, h⟩
  case right =>
    have ⟨total, weights, shares, extra, ht, hw, _, hf, _, _, hs, _, h⟩ := expense_split_exactly "0.0000011"
      .percentage samplePercentages
      { amount := "0.0000011", splitType := .percentage, remainderStroops := "2",
        shares := [{ userId := "a", amount := "0.0000004", percent := some "33.333333" },
          { userId := "b", amount := "0.0000003", percent := some "33.333333" },
          { userId := "c", amount := "0.0000004", percent := some "33.333334" }] }
      (by decide +kernel) nofun
    have h₃ : toStroops "0.0000003" = .ok 3 := by decide +kernel
    have h₄ : toStroops "0.0000004" = .ok 4 := by decide +kernel
    have h₁₁ : toStroops "0.0000011" = .ok 11 := by decide +kernel
    have hw' : splitWeights .percentage samplePercentages = .ok [33333333, 33333333, 33333334] := by decide +kernel
    obtain rfl := Except.ok.inj (hw'.symm.trans hw)
    obtain rfl := Except.ok.inj (h₁₁.symm.trans ht.1)
    obtain ⟨_, _, ha, hs₁, rfl⟩ := List.forall₂_cons_left_iff.mp hs
    obtain ⟨_, _, hb, hs₂, rfl⟩ := List.forall₂_cons_left_iff.mp hs₁
    obtain ⟨_, _, hc, hs₃, rfl⟩ := List.forall₂_cons_left_iff.mp hs₂
    obtain rfl := List.forall₂_nil_left_iff.mp hs₃
    obtain rfl := Except.ok.inj (h₄.symm.trans ha)
    obtain rfl := Except.ok.inj (h₃.symm.trans hb)
    obtain rfl := Except.ok.inj (h₄.symm.trans hc)
    exact ⟨hf, extra, h⟩

end Mergepay
