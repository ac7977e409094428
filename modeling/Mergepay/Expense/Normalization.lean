import Mergepay.Expense.Accumulation
import Mergepay.Expense.Conversion
import Mergepay.Expense.Sums

namespace Mergepay

open Money Text Balance

structure ConversionRateInput where
  fromAssetCode   : String
  fromAssetIssuer : Option String := none
  rate            : String

structure TargetAsset where
  assetCode   : String
  assetIssuer : Option String := none

structure GroupBreakdownOptions where
  targetAsset : Option TargetAsset := none
  rates       : List ConversionRateInput := []

structure AppliedRate where
  fromAssetCode   : String
  fromAssetIssuer : Option String
  rate            : String
  deriving DecidableEq

structure NormalizedExpenseBreakdown where
  assetCode    : String
  assetIssuer  : Option String
  total        : String
  participants : List ParticipantAmounts
  appliedRates : List AppliedRate
  deriving DecidableEq

structure GroupExpenseBreakdown where
  assets     : List AssetExpenseBreakdown
  normalized : Option NormalizedExpenseBreakdown
  deriving DecidableEq

structure ConversionRate where
  rate       : String
  rateScaled : Int

namespace Breakdown

abbrev Rates := OrderedMap String ConversionRate

def AssetRef.key (asset : AssetRef) : String :=
  balanceAssetKey asset.assetCode asset.assetIssuer

def addRate (R : Registry) (rates : Rates) (entry : ConversionRateInput) : Result Rates := do
  let asset ← normalizeAsset R entry.fromAssetCode entry.fromAssetIssuer
  let key := AssetRef.key asset
  if (rates.get? key).isSome then
    fail .invalidRate <| "Duplicate conversion rate for asset \"" ++ asset.assetCode ++ "\""
  return rates.set key { rate := entry.rate, rateScaled := ← parseRate entry.rate }

-- The amounts of all known users.
def amountsOf (order : List String) (map : OrderedMap String Int) : List Int :=
  order.map fun userId => (map.get? userId).getD 0

structure Converted where
  paid         : List Int
  owed         : List Int
  appliedRates : List AppliedRate

def convertAsset (rates : Rates) (target : AssetRef) (accumulator : AssetAccumulator) : Result Converted :=
  let key := AssetRef.key accumulator.asset
  let paidAmounts := amountsOf accumulator.order accumulator.paid
  let owedAmounts := amountsOf accumulator.order accumulator.owed
  if key = AssetRef.key target then
    return { paid := paidAmounts, owed := owedAmounts, appliedRates := [] }
  else match rates.get? key with
    | none            => fail .missingRate <| "No conversion rate supplied for asset \"" ++
      accumulator.asset.assetCode ++ "\" to \"" ++ target.assetCode ++ "\""
    | some conversion => do
      let paid ← convertAllocations paidAmounts conversion.rateScaled
      let owed ← convertAllocations owedAmounts conversion.rateScaled
      return {
        paid
        owed
        appliedRates := [{
          fromAssetCode   := accumulator.asset.assetCode
          fromAssetIssuer := accumulator.asset.assetIssuer
          rate            := conversion.rate
        }]
      }

-- What has been collected from all assets so far.
structure Normalization where
  paid         : OrderedMap String Int := []
  owed         : OrderedMap String Int := []
  order        : List String := []
  appliedRates : List AppliedRate := []
  total        : Int := 0

def addConverted (map : OrderedMap String Int) (userIds : List String) (amounts : List Int) : OrderedMap String Int :=
  (userIds.zip amounts).foldl (fun map p => addAmount map p.1 p.2) map

def see (order : List String) (userId : String) : List String :=
  if userId ∈ order then order else order ++ [userId]

def addAsset (rates : Rates) (target : AssetRef) (n : Normalization) (accumulator : AssetAccumulator) :
    Result Normalization := do
  let converted ← convertAsset rates target accumulator
  return {
    paid         := addConverted n.paid accumulator.order converted.paid
    owed         := addConverted n.owed accumulator.order converted.owed
    order        := accumulator.order.foldl see n.order
    appliedRates := n.appliedRates ++ converted.appliedRates
    total        := n.total + converted.owed.sum
  }

def Normalization.participant (n : Normalization) (userId : String) : Result ParticipantAmounts := do
  let paid := (n.paid.get? userId).getD 0
  let owed := (n.owed.get? userId).getD 0
  assertWithinStroopRange paid .amountOverflow <|
    "Normalized paid total for \"" ++ userId ++ "\" exceeds the maximum representable Stellar value"
  assertWithinStroopRange owed .amountOverflow <|
    "Normalized owed total for \"" ++ userId ++ "\" exceeds the maximum representable Stellar value"
  return {
    userId
    paid := ← liftFailure (fromStroops paid)
    owed := ← liftFailure (fromStroops owed)
    net  := ← liftFailure (fromStroops (paid - owed))
  }

def normalize (R : Registry) (rates : Rates) (accumulators : Accumulators) (targetAsset : TargetAsset) :
    Result NormalizedExpenseBreakdown := do
  let target ← normalizeAsset R targetAsset.assetCode targetAsset.assetIssuer
  let n ← (accumulators.map (·.2)).foldlM (addAsset rates target) {}
  assertWithinStroopRange n.total .amountOverflow
    "Normalized expense total exceeds the maximum representable Stellar value"
  let participants ← n.order.mapM (Normalization.participant n)
  return {
    assetCode    := target.assetCode
    assetIssuer  := target.assetIssuer
    total        := ← liftFailure (fromStroops n.total)
    participants
    appliedRates := n.appliedRates
  }

end Breakdown

open Breakdown

-- The breakdown with all its options. The rates are checked even if they are not needed.
def GroupBreakdownOptions.calculateGroupExpenseBreakdown (options : GroupBreakdownOptions) (R : Registry)
    (expenses : List ExpenseRecord) : Result GroupExpenseBreakdown := do
  let rates ← options.rates.foldlM (addRate R) []
  let accumulators ← expenses.foldlM (addExpense R) []
  let assets ← accumulators.mapM fun e => AssetAccumulator.breakdown e.2
  let normalized ← options.targetAsset.mapM (normalize R rates accumulators)
  return { assets, normalized }

-- Without options, there are only the assets.
theorem calculateGroupExpenseBreakdown_default (R : Registry) (expenses : List ExpenseRecord) :
    GroupBreakdownOptions.calculateGroupExpenseBreakdown {} R expenses =
      (calculateGroupExpenseBreakdown R expenses).map fun assets => { assets, normalized := none } := by
  simp only [GroupBreakdownOptions.calculateGroupExpenseBreakdown, calculateGroupExpenseBreakdown]
  cases h : expenses.foldlM (addExpense R) [] with
  | error e => rfl
  | ok accumulators => cases h : accumulators.mapM fun e => AssetAccumulator.breakdown e.2 <;> simp [h, bind, Except.bind] <;> rfl

namespace Breakdown

-- The amounts of an asset: nobody has a negative amount, and as much is owed as is paid.
structure AssetAccumulator.Fit (a : AssetAccumulator) : Prop where
  known : AssetAccumulator.Known a
  even  : (a.paid.map (·.2)).sum = (a.owed.map (·.2)).sum
  paid  : ∀ u, 0 ≤ Net.value a.paid u
  owed  : ∀ u, 0 ≤ Net.value a.owed u

def AssetAccumulator.total (a : AssetAccumulator) : Int :=
  (a.owed.map (·.2)).sum

-- The scaled rate at which an asset is converted. That of the target itself is one.
def factor (rates : Rates) (target : AssetRef) (asset : AssetRef) : Int :=
  if AssetRef.key asset = AssetRef.key target then rateScale
  else (rates.get? (AssetRef.key asset)).elim 0 (·.rateScaled)

def Convertible (rates : Rates) (target : AssetRef) (a : AssetAccumulator) : Prop :=
  AssetRef.key a.asset = AssetRef.key target ∨ (rates.get? (AssetRef.key a.asset)).isSome ∧
    AssetAccumulator.total a * factor rates target a.asset / rateScale ≤ maxStroops

def convertedPaid (rates : Rates) (target : AssetRef) (a : AssetAccumulator) : List Int :=
  allotted (amountsOf a.order a.paid) (factor rates target a.asset)

def convertedOwed (rates : Rates) (target : AssetRef) (a : AssetAccumulator) : List Int :=
  allotted (amountsOf a.order a.owed) (factor rates target a.asset)

section Convert

variable {a : AssetAccumulator} {rates : Rates} {target : AssetRef}

theorem AssetAccumulator.Fit.sum_paid (h : AssetAccumulator.Fit a) :
    (amountsOf a.order a.paid).sum = AssetAccumulator.total a :=
  (OrderedMap.sum_values h.known.paid.1 h.known.order h.known.paid.2).trans h.even

theorem AssetAccumulator.Fit.sum_owed (h : AssetAccumulator.Fit a) :
    (amountsOf a.order a.owed).sum = AssetAccumulator.total a :=
  OrderedMap.sum_values h.known.owed.1 h.known.order h.known.owed.2

theorem AssetAccumulator.Fit.paid_nonneg (h : AssetAccumulator.Fit a) : ∀ n ∈ amountsOf a.order a.paid, 0 ≤ n := by
  intro n hn
  have ⟨u, _, hu⟩ := List.mem_map.mp hn
  exact hu ▸ h.paid u

theorem AssetAccumulator.Fit.owed_nonneg (h : AssetAccumulator.Fit a) : ∀ n ∈ amountsOf a.order a.owed, 0 ≤ n := by
  intro n hn
  have ⟨u, _, hu⟩ := List.mem_map.mp hn
  exact hu ▸ h.owed u

def RatesPositive (rates : Rates) : Prop :=
  ∀ k c, rates.get? k = some c → 0 < c.rateScaled

theorem factor_nonneg (h : RatesPositive rates) (target asset : AssetRef) : 0 ≤ factor rates target asset := by
  rw [factor]
  split
  · exact rateScale_pos.le
  · cases hc : rates.get? (AssetRef.key asset) with
    | none   => exact le_rfl
    | some c => exact (h _ c hc).le

theorem convertAsset_eq_ok (h : AssetAccumulator.Fit a) (hr : RatesPositive rates) :
    (∃ applied, convertAsset rates target a = .ok { paid, owed, appliedRates := applied }) ↔
      Convertible rates target a ∧ paid = convertedPaid rates target a ∧ owed = convertedOwed rates target a := by
  simp only [convertAsset, Convertible, convertedPaid, convertedOwed, factor]
  by_cases hk : AssetRef.key a.asset = AssetRef.key target
  case pos =>
    simp only [hk, if_true, true_or, allotted_rateScale, Except.pure_eq_ok, Converted.mk.injEq, true_and]
    simp [eq_comm]
  case neg =>
    simp only [hk, if_false, false_or]
    cases hc : rates.get? (AssetRef.key a.asset) with
    | none   => simp [fail]
    | some c =>
      have hp := (hr _ c hc).le
      simp only [Except.bind_eq_ok, Except.pure_eq_ok, convertAllocations_eq_ok h.paid_nonneg hp,
        convertAllocations_eq_ok h.owed_nonneg hp, h.sum_paid, h.sum_owed, Option.isSome_some, Option.elim_some,
        Converted.mk.injEq, true_and]
      constructor
      case mp =>
        rintro ⟨_, _, ⟨hm, rfl⟩, _, ⟨_, rfl⟩, rfl, rfl, _⟩
        exact ⟨hm, rfl, rfl⟩
      case mpr =>
        rintro ⟨hm, rfl, rfl⟩
        exact ⟨_, _, ⟨hm, rfl⟩, _, ⟨hm, rfl⟩, rfl, rfl, rfl⟩

end Convert

-- What a user has got in a list of amounts.
def partOf (userIds : List String) (amounts : List Int) (u : String) : Int :=
  ((userIds.zip amounts).map fun p => if u = p.1 then p.2 else 0).sum

section Collect

variable {m : OrderedMap String Int} {userIds order : List String} {l : List Int}

theorem value_foldl_addAmount (m : OrderedMap String Int) (l : List (String × Int)) (u : String) :
    Net.value (l.foldl (fun map p => addAmount map p.1 p.2) m) u =
      Net.value m u + (l.map fun p => if u = p.1 then p.2 else 0).sum := by
  induction l generalizing m with
  | nil => simp
  | cons p l hi =>
    rw [List.foldl_cons, hi, AssetAccumulator.addAmount_eq, Net.value_add, List.map_cons, List.sum_cons]
    omega

theorem sum_foldl_addAmount (m : OrderedMap String Int) (l : List (String × Int)) :
    ((l.foldl (fun map p => addAmount map p.1 p.2) m).map (·.2)).sum = (m.map (·.2)).sum + (l.map (·.2)).sum := by
  induction l generalizing m with
  | nil => simp
  | cons p l hi =>
    rw [List.foldl_cons, hi, AssetAccumulator.addAmount_eq, Net.sum_add, List.map_cons, List.sum_cons]
    omega

theorem keys_foldl_addAmount {l : List (String × Int)} (h : (OrderedMap.keys m).Nodup ∧ OrderedMap.keys m ⊆ order)
    (hl : ∀ p ∈ l, p.1 ∈ order) : (OrderedMap.keys (l.foldl (fun map p => addAmount map p.1 p.2) m)).Nodup ∧
    OrderedMap.keys (l.foldl (fun map p => addAmount map p.1 p.2) m) ⊆ order := by
  induction l generalizing m with
  | nil => exact h
  | cons p l hi =>
    have ⟨hp, hl⟩ := List.forall_mem_cons.mp hl
    exact hi ⟨OrderedMap.nodup_keys_set h.1, AssetAccumulator.keys_addAmount h.2 hp⟩ hl

theorem value_addConverted (m : OrderedMap String Int) (userIds : List String) (l : List Int) (u : String) :
    Net.value (addConverted m userIds l) u = Net.value m u + partOf userIds l u :=
  value_foldl_addAmount ..

theorem sum_addConverted (h : l.length = userIds.length) :
    ((addConverted m userIds l).map (·.2)).sum = (m.map (·.2)).sum + l.sum := by
  rw [addConverted, sum_foldl_addAmount, List.map_snd_zip h.le]

theorem mem_foldl_see : u ∈ userIds.foldl see order ↔ u ∈ order ∨ u ∈ userIds := by
  induction userIds generalizing order with
  | nil => simp
  | cons v userIds hi =>
    have hs : u ∈ see order v ↔ u ∈ order ∨ u = v := by
      rw [see]
      split
      case isTrue h => exact ⟨.inl, fun hu => hu.elim id (· ▸ h)⟩
      case isFalse  => simp
    rw [List.foldl_cons, hi, hs, List.mem_cons, or_assoc]

theorem nodup_foldl_see (h : order.Nodup) : (userIds.foldl see order).Nodup := by
  induction userIds generalizing order with
  | nil => exact h
  | cons v userIds hi =>
    refine hi ?_
    rw [see]
    split
    case isTrue      => exact h
    case isFalse hv  => exact List.concat_eq_append ▸ h.concat hv

end Collect

-- What has been collected from a list of assets.
structure Collected (rates : Rates) (target : AssetRef) (l : List AssetAccumulator) (n : Normalization) : Prop where
  convertible : ∀ a ∈ l, Convertible rates target a
  paid        : ∀ u, Net.value n.paid u = (l.map fun a => partOf a.order (convertedPaid rates target a) u).sum
  owed        : ∀ u, Net.value n.owed u = (l.map fun a => partOf a.order (convertedOwed rates target a) u).sum
  total       : n.total =
    (l.map fun a => AssetAccumulator.total a * factor rates target a.asset / rateScale).sum
  order       : n.order.Nodup
  users       : ∀ u, u ∈ n.order ↔ ∃ a ∈ l, u ∈ a.order
  paidKeys    : (OrderedMap.keys n.paid).Nodup ∧ OrderedMap.keys n.paid ⊆ n.order
  owedKeys    : (OrderedMap.keys n.owed).Nodup ∧ OrderedMap.keys n.owed ⊆ n.order
  paidSum     : (n.paid.map (·.2)).sum = n.total
  owedSum     : (n.owed.map (·.2)).sum = n.total

section Fold

variable {rates : Rates} {target : AssetRef} {l : List AssetAccumulator} {n n' : Normalization} {a : AssetAccumulator}

theorem Collected.addAsset (h : Collected rates target l n) (ha : AssetAccumulator.Fit a) (hr : RatesPositive rates)
    (hs : addAsset rates target n a = .ok n') : Collected rates target (l ++ [a]) n' := by
  have ⟨c, hc, hs⟩ := Except.bind_eq_ok.mp hs
  have ⟨hv, hp, ho⟩ := (convertAsset_eq_ok ha hr).mp ⟨c.appliedRates, hc⟩
  have hs := Except.pure_eq_ok.mp hs
  have hlp : (convertedPaid rates target a).length = a.order.length := by
    rw [convertedPaid, length_allotted, amountsOf, List.length_map]
  have hlo : (convertedOwed rates target a).length = a.order.length := by
    rw [convertedOwed, length_allotted, amountsOf, List.length_map]
  have hsp : (convertedPaid rates target a).sum = AssetAccumulator.total a * factor rates target a.asset / rateScale := by
    rw [convertedPaid, sum_allotted, ha.sum_paid]
  have hso : (convertedOwed rates target a).sum = AssetAccumulator.total a * factor rates target a.asset / rateScale := by
    rw [convertedOwed, sum_allotted, ha.sum_owed]
  rw [hp, ho] at hs
  subst hs
  have hsub : n.order ⊆ a.order.foldl see n.order := fun _ hu => mem_foldl_see.mpr <| .inl hu
  constructor
  case convertible =>
    intro b hb
    rcases List.mem_append.mp hb with hb | hb
    · exact h.convertible b hb
    · exact List.mem_singleton.mp hb ▸ hv
  case paid =>
    intro u
    rw [value_addConverted, h.paid]
    simp
  case owed =>
    intro u
    rw [value_addConverted, h.owed]
    simp
  case total =>
    rw [h.total, hso]
    simp
  case order => exact nodup_foldl_see h.order
  case users =>
    intro u
    rw [mem_foldl_see, h.users]
    simp [or_and_right, exists_or]
  case paidKeys =>
    refine keys_foldl_addAmount ⟨h.paidKeys.1, List.Subset.trans h.paidKeys.2 hsub⟩ fun p hp => ?_
    exact mem_foldl_see.mpr <| .inr (List.of_mem_zip hp).1
  case owedKeys =>
    refine keys_foldl_addAmount ⟨h.owedKeys.1, List.Subset.trans h.owedKeys.2 hsub⟩ fun p hp => ?_
    exact mem_foldl_see.mpr <| .inr (List.of_mem_zip hp).1
  case paidSum => rw [sum_addConverted hlp, h.paidSum, hsp, hso]
  case owedSum => rw [sum_addConverted hlo, h.owedSum]

theorem Collected.of_foldlM (hl : ∀ a ∈ l, AssetAccumulator.Fit a) (hr : RatesPositive rates)
    (h : l.foldlM (Breakdown.addAsset rates target) {} = .ok n) : Collected rates target l n := by
  refine Except.foldlM_induction (fun pre n => (∀ a ∈ pre, AssetAccumulator.Fit a) → Collected rates target pre n)
    h (fun _ => ?_) (fun pre a n n' hp hs hf => ?_) hl
  case refine_1 => constructor <;> simp [Net.value]
  case refine_2 =>
    obtain ⟨hpre, ha⟩ := List.forall_mem_append.mp hf
    exact (hp hpre).addAsset (ha a (by simp)) hr hs

end Fold

end Breakdown

end Mergepay
