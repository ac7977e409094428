import Mergepay.Balance.Group
import Mergepay.Balance.Totality
import Mergepay.Settlement.Runs
import Mergepay.Stellar.Intent

namespace Mergepay

open Concurrency Money Table Text

-- The amounts which the request schemas accept.
def stellarAmountSchema (raw : String) : Bool :=
  1 ≤ raw.toList.length && raw.toList.length ≤ 40 && (validateAmount raw).isOk

-- All consumers of a stored amount read the number that has been stored.
structure Survives (n : Int) : Prop where
  service : columnStroops n = .ok n
  schema  : stellarAmountSchema (columnText n) = true ∧
    ∃ v, validateAmount (columnText n) = .ok v ∧ v.stroops = n
  payment : Stellar.normalizeAmount (Stellar.amountText n) = Stellar.normalizeAmount (columnText n)

section Amounts

theorem columnText_natCast (h : 10 ≤ n) : columnText (n : Nat) = .ofList (Decimal.render 7 n) := by
  have hn : ¬(0 < (n : Int).natAbs ∧ (n : Int).natAbs < 10) := by omega
  have hs : sign (n : Int) = [] := by simp [sign]
  rw [columnText, if_neg hn, hs]
  rfl

theorem validateAmount_render (h₀ : 0 < n) (h₁ : n ≤ maxStroops) :
    ∃ v, validateAmount (.ofList (Decimal.render 7 n)) = .ok v ∧ v.stroops = n := by
  have ⟨d, hv⟩ := validateUnsignedAmountAllowZero_render n
  rw [if_neg (Nat.not_lt.mpr h₁)] at hv
  have ⟨_, _, _, hq⟩ := validateDecimal_ok hv
  exact ⟨⟨d, n⟩, hq (by simpa using Nat.pos_iff_ne_zero.mp h₀), rfl⟩

theorem length_render (h : n ≤ maxStroops) : (Decimal.render 7 n).length ≤ 40 := by
  have hw : (Nat.toDigits 10 (n / 10 ^ 7)).length ≤ 12 := by
    refine (Nat.length_toDigits_le_iff (by decide) (by decide)).mpr ?_
    simp only [maxStroops] at h
    omega
  have hf : (Decimal.fraction 7 n).length ≤ 7 := Decimal.length_fraction_le (by decide)
  simp only [Decimal.render, Decimal.joined]
  split
  case isTrue  => omega
  case isFalse => simp only [List.length_append, List.length_cons]; omega

theorem normalizeAmount_render (n : Nat) : Stellar.normalizeAmount (Stellar.amountText n) =
    Stellar.normalizeAmount (.ofList (Decimal.render 7 n)) := by
  have hw := Stellar.notMem_dot <| Decimal.isDigit_whole (k := 7) (n := n)
  have hf := Stellar.notMem_dot <| Decimal.isDigit_fraction (k := 7) (n := n)
  rw [Stellar.normalizeAmount_amountText, Decimal.render, Stellar.normalizeAmount_joined hw hf,
    Decimal.padEnd_fraction (by decide)]
  simp [sign, Stellar.wholeDigits, Stellar.fractionDigits, stroopsPerUnit]

-- Exponential notation is the only obstacle.
theorem survives_iff {n : Int} (h : 0 < n) : Survives n ↔ Readable n := by
  constructor
  case mp  => exact fun h => (columnStroops_eq_ok_iff.mp h.service).1
  case mpr =>
    intro hr
    have ⟨m, hm⟩ := Int.eq_ofNat_of_zero_le h.le
    subst hm
    have h₀ : 0 < m := by omega
    have h₁ : m ≤ maxStroops := hr.2
    have ht : columnText m = .ofList (Decimal.render 7 m) := by
      have := hr.1
      exact columnText_natCast (by omega)
    have ⟨v, hv, hs⟩ := validateAmount_render h₀ h₁
    have hl : Decimal.render 7 m ≠ [] := by
      intro he
      have ha : Decimal.accepts (Decimal.render 7 m) = true := Decimal.accepts_render
      simp [he, Decimal.accepts] at ha
    have hl : 1 ≤ (Decimal.render 7 m).length := List.length_pos_iff.mpr hl
    constructor
    case service => exact columnStroops_readable hr
    case schema  =>
      refine ⟨?_, v, ht ▸ hv, congrArg Int.ofNat hs⟩
      rw [stellarAmountSchema, ht, hv, String.toList_ofList]
      simp only [length_render h₁, hl, decide_true, Bool.true_and]
      rfl
    case payment => rw [normalizeAmount_render, ht]

end Amounts

section Balances

variable {R : Registry} {w : World} {e : Expense} {l : List (String × Int)}

-- What is left open between a user and the rest of a group in an asset.
def World.outstanding (w : World) (groupId key user : String) : Int :=
  charged (unsettled (owedTo key user)) (w.bills groupId) -
    charged (unsettled (owedBy key user)) (w.bills groupId) +
  (transferred (sent key user) (w.groupSettlements groupId) -
    transferred (received key user) (w.groupSettlements groupId))

-- What the shares of an expense add to this.
def newlyOwed (payer user : String) (l : List (String × Int)) : Int :=
  (l.map fun x => if x.1 = payer then 0 else
    (if user = payer then x.2 else 0) - (if user = x.1 then x.2 else 0)).sum

-- The rows of the new expense

def newRow (e : Expense) (x : String × Int) : Balance.AssetShareRow := {
  payerUserId := e.payerUserId
  userId      := x.1
  shareAmount := columnText x.2
  settled     := x.1 = e.payerUserId
  assetCode   := e.assetCode
  assetIssuer := e.assetIssuer
}

theorem map_newShares (hl : ids.length = l.length) :
    ((List.zipWith (World.newShare n e.payerUserId) ids l).map
      ({ e with id := n, createdAt := t }, ·)).map shareRow = l.map (newRow e) := by
  have hr i x : shareRow ({ e with id := n, createdAt := t }, World.newShare n e.payerUserId i x) =
      newRow e x := by
    by_cases h : x.1 = e.payerUserId <;> simp [shareRow, World.newShare, newRow, h]
  induction l generalizing ids with
  | nil => simp
  | cons x l hi =>
    cases ids with
    | nil => simp at hl
    | cons i ids =>
      have hl : ids.length = l.length := by simpa using hl
      simp only [List.zipWith_cons_cons, List.map_cons, hr, hi hl]

theorem loadAssetBalanceRows_insertExpense (hw : w.WellFormed) (hf : w.Fresh (n :: ids))
    (hl : ids.length = l.length) :
    loadAssetBalanceRows (w.insertExpense e l n ids) e.groupId =
      ((loadAssetBalanceRows w e.groupId).1 ++ l.map (newRow e), (loadAssetBalanceRows w e.groupId).2) := by
  have hs : (w.insertExpense e l n ids).groupSettlements e.groupId = w.groupSettlements e.groupId := rfl
  simp only [loadAssetBalanceRows, World.bills_insertExpense_self hw hf, List.map_append, hs,
    map_newShares hl]

-- The contribution of a new row that can be read.
theorem delta_newRow (h : columnStroops x.2 = .ok x.2) : (newRow e x).toShareRow.delta u =
    if x.1 = e.payerUserId then 0 else
      (if u = e.payerUserId then x.2 else 0) - (if u = x.1 then x.2 else 0) := by
  have hs : Balance.stroops (columnText x.2) = x.2 := Balance.stroops_eq h
  by_cases hp : x.1 = e.payerUserId <;> simp [Balance.ShareRow.delta, newRow, hp, hs]

end Balances

namespace Balance

variable {R : Registry} {old new : List AssetShareRow} {settlements : List AssetSettlementRow}

-- Rows of a single asset leave the balance sheets of all other assets alone.
theorem isOk_append_iff (h : ∃ sheets, computeNetBalancesByAsset R old settlements = .ok sheets)
    (ha : ∀ s ∈ new, R.assertSupportedSettlementAsset s.assetCode s.assetIssuer = .ok ())
    (hk : ∀ s ∈ new, balanceAssetKey s.assetCode s.assetIssuer = k) :
    (∃ sheets, computeNetBalancesByAsset R (old ++ new) settlements = .ok sheets) ↔
    (∀ s ∈ new, s.toShareRow.Counts → ∃ n, toStroops s.shareAmount = .ok n) ∧
    ∀ u, (((sharesIn old k).map (·.delta u)).sum + (new.map (·.toShareRow.delta u)).sum +
      ((settlementsIn settlements k).map (·.delta u)).sum).natAbs ≤ maxStroops := by
  obtain ⟨hs, hst, ho⟩ := computeNetBalancesByAsset_isOk_iff.mp h
  have hin : sharesIn (old ++ new) k = sharesIn old k ++ new.map (·.toShareRow) := by
    have : new.filter (fun s => balanceAssetKey s.assetCode s.assetIssuer = k) = new :=
      List.filter_eq_self.mpr fun s hs => decide_eq_true (hk s hs)
    simp [sharesIn, List.filter_append, this]
  have hout k' (hne : k' ≠ k) : sharesIn (old ++ new) k' = sharesIn old k' := by
    have : new.filter (fun s => balanceAssetKey s.assetCode s.assetIssuer = k') = [] :=
      List.filter_eq_nil_iff.mpr fun s hs => by simp [hk s hs, Ne.symm hne]
    simp [sharesIn, List.filter_append, this]
  have hsum u : ((sharesIn (old ++ new) k).map (·.delta u)).sum =
      ((sharesIn old k).map (·.delta u)).sum + (new.map (·.toShareRow.delta u)).sum := by
    rw [hin, List.map_append, List.sum_append, List.map_map]
    rfl
  rw [computeNetBalancesByAsset_isOk_iff]
  constructor
  case mp =>
    rintro ⟨_, _, hn⟩
    have hn := hn k
    refine ⟨fun s hs => ?_, fun u => hsum u ▸ hn.range u⟩
    exact hn.readShares _ (hin ▸ List.mem_append_right _ (List.mem_map_of_mem hs))
  case mpr =>
    rintro ⟨hr, hu⟩
    refine ⟨?_, hst, fun k' => ?_⟩
    case refine_1 =>
      intro s hm
      cases List.mem_append.mp hm with
      | inl hm => exact hs s hm
      | inr hm => exact ha s hm
    case refine_2 =>
      by_cases hkk : k' = k
      case neg => exact hout k' hkk ▸ ho k'
      case pos =>
        subst hkk
        refine ⟨?_, (ho k').readSettlements, fun u => hsum u ▸ hu u⟩
        rw [hin]
        intro s hm
        cases List.mem_append.mp hm with
        | inl hm => exact (ho k').readShares s hm
        | inr hm =>
          obtain ⟨s', hs', he⟩ := List.mem_map.mp hm
          exact he ▸ hr s' hs'

end Balance

section Balances

variable {R : Registry} {w : World} {e : Expense} {l : List (String × Int)}

-- The balances of a group before and after a new expense.
theorem insertExpense_isOk_iff (hw : w.WellFormed) (hf : w.Fresh (n :: ids)) (hl : ids.length = l.length)
    (ha : R.assertSupportedSettlementAsset e.assetCode e.assetIssuer = .ok ())
    (ho : ∃ sheets, loadGroupBalancesByAsset R w e.groupId = .ok sheets) :
    (∃ sheets, loadGroupBalancesByAsset R (w.insertExpense e l n ids) e.groupId = .ok sheets) ↔
    (∀ x ∈ l, x.1 ≠ e.payerUserId → Readable x.2) ∧
    ∀ u, (w.outstanding e.groupId e.key u + newlyOwed e.payerUserId u l).natAbs ≤ maxStroops := by
  obtain ⟨sheets, hs⟩ := id ho
  have hold u : ((Balance.sharesIn (loadAssetBalanceRows w e.groupId).1 e.key).map (·.delta u)).sum +
      ((Balance.settlementsIn (loadAssetBalanceRows w e.groupId).2 e.key).map (·.delta u)).sum =
      w.outstanding e.groupId e.key u := by
    have hn := Balance.computeNetBalancesByAsset_net hs e.key u
    rw [computeNetBalancesByAsset_totals hs e.key u] at hn
    simp only [Balance.sharesIn, Balance.settlementsIn, List.map_map]
    exact hn.symm
  have hc x : (newRow e x).toShareRow.Counts ↔ x.1 ≠ e.payerUserId := by
    simp [Balance.ShareRow.Counts, newRow]
  have hr x : (∃ n, toStroops (newRow e x).shareAmount = .ok n) ↔ Readable x.2 := by
    constructor
    case mp =>
      rintro ⟨_, h⟩
      exact (columnStroops_eq_ok_iff.mp h).1
    case mpr => exact fun h => ⟨_, columnStroops_readable h⟩
  have hnew (h : ∀ x ∈ l, x.1 ≠ e.payerUserId → Readable x.2) u :
      ((l.map (newRow e)).map (·.toShareRow.delta u)).sum = newlyOwed e.payerUserId u l := by
    rw [newlyOwed, List.map_map]
    refine congrArg List.sum <| List.map_congr_left fun x hx => ?_
    by_cases hp : x.1 = e.payerUserId
    case pos => simp [Balance.ShareRow.delta, newRow, hp]
    case neg => exact delta_newRow <| columnStroops_readable (h x hx hp)
  have hs' : ∀ s ∈ l.map (newRow e), R.assertSupportedSettlementAsset s.assetCode s.assetIssuer = .ok () :=
    List.forall_mem_map.mpr fun _ _ => ha
  have hk : ∀ s ∈ l.map (newRow e), balanceAssetKey s.assetCode s.assetIssuer = e.key :=
    List.forall_mem_map.mpr fun _ _ => rfl
  have hi := Balance.isOk_append_iff ho hs' hk
  rw [loadGroupBalancesByAsset, loadAssetBalanceRows_insertExpense hw hf hl]
  refine hi.trans ?_
  simp only [List.forall_mem_map, hc, hr]
  refine and_congr_right fun hread => forall_congr' fun u => ?_
  rw [hnew hread, ← hold u, add_right_comm]
  rfl

-- Stored amounts survive, and a new expense does not break the balances of its group, if and only if
-- no amount is below ten stroops and no balance leaves the range.
theorem amounts_survive (hw : w.WellFormed) (hf : w.Fresh (n :: ids)) (hl : ids.length = l.length)
    (ha : R.assertSupportedSettlementAsset e.assetCode e.assetIssuer = .ok ())
    (ho : ∃ sheets, loadGroupBalancesByAsset R w e.groupId = .ok sheets) :
    (∀ s : Int, 0 < s → s ≤ maxStroops → (Survives s ↔ 10 ≤ s)) ∧
    ((∀ x ∈ l, 0 < x.2 → Survives x.2) ∧
        (∃ sheets, loadGroupBalancesByAsset R (w.insertExpense e l n ids) e.groupId = .ok sheets) ↔
      (∀ x ∈ l, 0 < x.2 ∨ x.1 ≠ e.payerUserId → Readable x.2) ∧
        ∀ u, (w.outstanding e.groupId e.key u + newlyOwed e.payerUserId u l).natAbs ≤ maxStroops) := by
  constructor
  case left =>
    intro s h₀ h₁
    rw [survives_iff h₀, Readable]
    omega
  case right =>
    rw [insertExpense_isOk_iff hw hf hl ha ho, ← and_assoc]
    refine and_congr_left fun _ => ?_
    constructor
    case mp =>
      rintro ⟨hs, hr⟩ x hx hp
      cases hp with
      | inl hp => exact (survives_iff hp).mp (hs x hx hp)
      | inr hp => exact hr x hx hp
    case mpr =>
      intro h
      exact ⟨fun x hx hp => (survives_iff hp).mpr <| h x hx (.inl hp), fun x hx hp => h x hx (.inr hp)⟩

end Balances

-- Ann records an expense of five stroops for bob.

def tinyExpense : Schedule :=
  .spawn (.createExpense "ann" "g" none "XLM" none [("bob", 5)]) ::
    Label.acts 0 [.ok, .ok, .ok, .ok, .ok, .texts ["n", "m"]]

def tinyBill : Expense :=
  ⟨"", "g", "ann", "XLM", none, 0⟩

theorem amounts_survive_sample :
    (∀ s : Int, 0 < s → s ≤ maxStroops → (Survives s ↔ 10 ≤ s)) ∧
    ((∀ x ∈ [("bob", (20 : Int))], 0 < x.2 → Survives x.2) ∧
        (∃ sheets, loadGroupBalancesByAsset sampleDeps.toRegistry
          (sampleWorld.insertExpense tinyBill [("bob", 20)] "n" ["m"]) "g" = .ok sheets) ↔
      (∀ x ∈ [("bob", (20 : Int))], 0 < x.2 ∨ x.1 ≠ "ann" → Readable x.2) ∧
        ∀ u, (sampleWorld.outstanding "g" tinyBill.key u + newlyOwed "ann" u [("bob", 20)]).natAbs ≤
          maxStroops) :=
  amounts_survive (e := tinyBill) sampleWorld_wellFormed (by decide) rfl rfl
    (Except.toBool_eq_true.mp (by decide +kernel))

theorem tiny_share_unreadable : ∃ c, sampleDeps.system.Run (fun _ _ => True) ⟨sampleWorld, []⟩ c ∧
    (∃ sheets, loadGroupBalancesByAsset sampleDeps.toRegistry sampleWorld "g" = .ok sheets) ∧
    ¬Survives 5 ∧ ¬∃ sheets, loadGroupBalancesByAsset sampleDeps.toRegistry c.shared "g" = .ok sheets := by
  have ⟨c, r, h⟩ := System.exists_run_of_play (S := sampleDeps.system) (C := fun _ _ => True)
    (c := ⟨sampleWorld, []⟩)
    (p := fun c => !(loadGroupBalancesByAsset sampleDeps.toRegistry c.shared "g").toBool) tinyExpense
    (by decide +kernel)
  refine ⟨c, r, Except.toBool_eq_true.mp (by decide +kernel), ?_, ?_⟩
  case refine_1 =>
    rw [survives_iff (by decide)]
    decide
  case refine_2 =>
    rw [← Except.toBool_eq_true]
    simpa using h

end Mergepay
