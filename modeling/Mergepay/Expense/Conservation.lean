import Mergepay.Expense.Normalization

namespace Mergepay

open Money Breakdown Balance

-- The amounts of a user, and their difference, in text.
structure ParticipantAmounts.Shows (p : ParticipantAmounts) (u : String) (n m : Int) : Prop where
  userId : p.userId = u
  paid   : fromStroops n = .ok p.paid
  owed   : fromStroops m = .ok p.owed
  net    : fromStroops (n - m) = .ok p.net

namespace Breakdown

section Shows

variable {p : ParticipantAmounts} {u : String} {paid owed : Int} {order : List String} {f g : String → Int}
  {participants : List ParticipantAmounts}

theorem inRange_of_fromStroops {n : Int} (h : fromStroops n = .ok t) (message : String) :
    assertWithinStroopRange n .amountOverflow message = .ok () := by
  have ⟨hm, _⟩ := fromStroops_eq_ok.mp h
  rw [assertWithinStroopRange, if_neg (by omega)]

theorem shows_iff {paidMessage owedMessage : String} : (do
    assertWithinStroopRange paid .amountOverflow paidMessage
    assertWithinStroopRange owed .amountOverflow owedMessage
    return {
      userId := u
      paid   := ← liftFailure (fromStroops paid)
      owed   := ← liftFailure (fromStroops owed)
      net    := ← liftFailure (fromStroops (paid - owed))
    } : Result ParticipantAmounts) = .ok p ↔ p.Shows u paid owed := by
  constructor
  case mp =>
    intro h
    have ⟨_, _, h⟩ := Except.bind_eq_ok.mp h
    have ⟨_, _, h⟩ := Except.bind_eq_ok.mp h
    have ⟨_, hp, h⟩ := Except.bind_eq_ok.mp h
    have ⟨_, ho, h⟩ := Except.bind_eq_ok.mp h
    have ⟨_, hn, h⟩ := Except.bind_eq_ok.mp h
    rw [← Except.pure_eq_ok.mp h]
    exact ⟨rfl, liftFailure_eq_ok.mp hp, liftFailure_eq_ok.mp ho, liftFailure_eq_ok.mp hn⟩
  case mpr =>
    intro ⟨hu, hp, ho, hn⟩
    refine Except.unit_bind_eq_ok.mpr ⟨inRange_of_fromStroops hp _, ?_⟩
    refine Except.unit_bind_eq_ok.mpr ⟨inRange_of_fromStroops ho _, ?_⟩
    refine Except.bind_eq_ok.mpr ⟨_, liftFailure_eq_ok.mpr hp, ?_⟩
    refine Except.bind_eq_ok.mpr ⟨_, liftFailure_eq_ok.mpr ho, ?_⟩
    refine Except.bind_eq_ok.mpr ⟨_, liftFailure_eq_ok.mpr hn, ?_⟩
    rw [Except.pure_eq_ok, ← hu]

theorem AssetAccumulator.participant_iff {a : AssetAccumulator} : AssetAccumulator.participant a u = .ok p ↔
    p.Shows u (Net.value a.paid u) (Net.value a.owed u) :=
  shows_iff

theorem Normalization.participant_iff {n : Normalization} : Normalization.participant n u = .ok p ↔
    p.Shows u (Net.value n.paid u) (Net.value n.owed u) :=
  shows_iff

end Shows

-- The breakdown of an asset

section Asset

variable {a a' : AssetAccumulator} {b : AssetExpenseBreakdown}

theorem AssetAccumulator.breakdown_iff : AssetAccumulator.breakdown a = .ok b ↔
    b.assetCode = a.asset.assetCode ∧ b.assetIssuer = a.asset.assetIssuer ∧ b.expenseCount = a.expenseCount ∧
    fromStroops (AssetAccumulator.total a) = .ok b.total ∧
    List.Forall₂ (fun u p => ParticipantAmounts.Shows p u (Net.value a.paid u) (Net.value a.owed u)) a.order
      b.participants := by
  constructor
  case mp =>
    intro h
    have ⟨_, hp, h⟩ := Except.bind_eq_ok.mp h
    have ⟨_, _, h⟩ := Except.bind_eq_ok.mp h
    have ⟨_, ht, h⟩ := Except.bind_eq_ok.mp h
    rw [← Except.pure_eq_ok.mp h]
    exact ⟨rfl, rfl, rfl, liftFailure_eq_ok.mp ht,
      (Except.mapM_forall₂ hp).imp fun _ _ => AssetAccumulator.participant_iff.mp⟩
  case mpr =>
    intro ⟨hc, hi, he, ht, hp⟩
    refine Except.bind_eq_ok.mpr ⟨b.participants,
      Except.mapM_eq_ok.mpr (hp.imp fun _ _ => AssetAccumulator.participant_iff.mpr), ?_⟩
    refine Except.unit_bind_eq_ok.mpr ⟨inRange_of_fromStroops ht _, ?_⟩
    refine Except.bind_eq_ok.mpr ⟨b.total, liftFailure_eq_ok.mpr ht, ?_⟩
    rw [Except.pure_eq_ok, ← hc, ← hi, ← he]

end Asset

end Breakdown

-- Two breakdowns of an asset which list the participants in another order.
structure AssetExpenseBreakdown.Same (b b' : AssetExpenseBreakdown) : Prop where
  assetCode    : b.assetCode = b'.assetCode
  assetIssuer  : b.assetIssuer = b'.assetIssuer
  total        : b.total = b'.total
  expenseCount : b.expenseCount = b'.expenseCount
  participants : b.participants.Perm b'.participants

namespace Breakdown

section Same

variable {a a' : AssetAccumulator} {b : AssetExpenseBreakdown}

theorem AssetAccumulator.Same.total (h : AssetAccumulator.Same a a') (hf : AssetAccumulator.Fit a)
    (hf' : AssetAccumulator.Fit a') : AssetAccumulator.total a = AssetAccumulator.total a' := by
  have hs : amountsOf a.order a.owed = a.order.map (Net.value a'.owed) :=
    List.map_congr_left fun u _ => h.owed u
  rw [← hf.sum_owed, ← hf'.sum_owed, hs]
  exact (h.order.map _).sum_eq

theorem AssetAccumulator.Same.breakdown (h : AssetAccumulator.Same a a') (hf : AssetAccumulator.Fit a)
    (hf' : AssetAccumulator.Fit a') (hb : AssetAccumulator.breakdown a = .ok b) :
    ∃ b', AssetAccumulator.breakdown a' = .ok b' ∧ b.Same b' := by
  have ⟨hc, hi, he, ht, hp⟩ := AssetAccumulator.breakdown_iff.mp hb
  have ⟨participants, hp', hperm⟩ := List.perm_comp_forall₂ h.order.symm hp
  refine ⟨{ b with participants }, AssetAccumulator.breakdown_iff.mpr ⟨?_, ?_, ?_, ?_, ?_⟩, ?_⟩
  · exact hc.trans (congrArg AssetRef.assetCode h.asset)
  · exact hi.trans (congrArg AssetRef.assetIssuer h.asset)
  · exact he.trans h.count
  · exact h.total hf hf' ▸ ht
  · exact hp'.imp fun u p hs => h.paid u ▸ h.owed u ▸ hs
  · exact ⟨rfl, rfl, rfl, rfl, hperm.symm⟩

end Same

-- The normalized breakdown

section Normalize

variable {R : Registry} {rates : Rates} {accumulators : Accumulators} {targetAsset : TargetAsset} {target : AssetRef}
  {r : NormalizedExpenseBreakdown} {n : Normalization} {l : List AssetAccumulator}

theorem Collected.sum_paid (h : Collected rates target l n) : (n.order.map (Net.value n.paid)).sum = n.total :=
  (OrderedMap.sum_values h.paidKeys.1 h.order h.paidKeys.2).trans h.paidSum

theorem Collected.sum_owed (h : Collected rates target l n) : (n.order.map (Net.value n.owed)).sum = n.total :=
  (OrderedMap.sum_values h.owedKeys.1 h.order h.owedKeys.2).trans h.owedSum

theorem partOf_nonneg {userIds : List String} {amounts : List Int} (h : ∀ n ∈ amounts, 0 ≤ n) (u : String) :
    0 ≤ partOf userIds amounts u := by
  refine List.sum_nonneg fun n hn => ?_
  have ⟨p, hp, hn⟩ := List.mem_map.mp hn
  have := h _ (List.of_mem_zip hp).2
  split at hn <;> omega

theorem Collected.nonneg (h : Collected rates target l n) (hr : RatesPositive rates)
    (hl : ∀ a ∈ l, AssetAccumulator.Fit a) (u : String) : 0 ≤ Net.value n.paid u ∧ 0 ≤ Net.value n.owed u := by
  rw [h.paid, h.owed]
  constructor
  case left =>
    refine List.sum_nonneg fun m hm => ?_
    have ⟨a, ha, hm⟩ := List.mem_map.mp hm
    exact hm ▸ partOf_nonneg (allotted_nonneg (hl a ha).paid_nonneg (factor_nonneg hr ..)) u
  case right =>
    refine List.sum_nonneg fun m hm => ?_
    have ⟨a, ha, hm⟩ := List.mem_map.mp hm
    exact hm ▸ partOf_nonneg (allotted_nonneg (hl a ha).owed_nonneg (factor_nonneg hr ..)) u

end Normalize

-- The table of rates

section Rates

variable {R : Registry} {entries : List ConversionRateInput} {rates : Rates}

end Rates

section Expenses

variable {R : Registry} {expenses expenses' : List ExpenseRecord} {accumulators accumulators' : Accumulators}

end Expenses

end Breakdown

end Mergepay
