import Mathlib.Order.Bounds.Basic
import Mergepay.Balance.Group
import Mergepay.Settlement.Runs

namespace Mergepay

open Concurrency Money Table World

namespace World

variable (w : World) (g i j : String)

-- What a transaction that reads a single state finds.
def limitReads : LimitReads :=
  ⟨w.limitExpenses g i j, w.limitSettlements g i j⟩

-- The decision on an amount.
def Accepts (amount : String) : Prop :=
  verifySettlementLimit i j amount (w.limitReads g i j) = .ok ()

instance : Decidable (w.Accepts g i j t) :=
  decidable_of_iff _ (Except.toBool_eq_true.trans ⟨fun ⟨_, h⟩ => h, fun h => ⟨_, h⟩⟩)

def accepted : Set Int :=
  { n | ∃ t v, validateAmount t = .ok v ∧ v.stroops = n ∧ w.Accepts g i j t }

-- The rows of an asset.

def billsIn (key : String) : List (Expense × ExpenseShare) :=
  (w.bills g).filter (·.1.key = key)

def settlementsIn (key : String) : List Settlement :=
  (w.groupSettlements g).filter (·.key = key)

-- Two states do not differ in the rows of an asset.
structure AgreesOn (key : String) (w' : World) : Prop where
  bills       : w'.billsIn g key = w.billsIn g key
  settlements : w'.settlementsIn g key = w.settlementsIn g key

-- What is left of a debt according to the rows that satisfy a condition on their asset.
def remaining (q : String → Bool) : Int :=
  debtOf i j ((w.bills g).filter (q ·.1.key)) -
  (transferred (live i j) ((w.groupSettlements g).filter (q ·.key)) -
    transferred (live j i) ((w.groupSettlements g).filter (q ·.key)))

-- What is left in an asset, and what all other assets contribute to the limit.

abbrev remainingIn (key : String) : Int :=
  w.remaining g i j (· = key)

abbrev remainingElsewhere (key : String) : Int :=
  w.remaining g i j (· ≠ key)

-- The amounts that matter can be read.
abbrev Legible : Prop :=
  (w.limitReads g i j).Legible i j

-- The largest accepted amount, given what is left in an asset.
def room (key : String) (left : Int) : Int :=
  if w.Legible g i j then max 0 (min (maxStroops : Int) (left + w.remainingElsewhere g i j key)) else 0

-- The mutual rows of two users, and the balances that are computed from them alone.

def mutualBills : List (Expense × ExpenseShare) :=
  (w.bills g).filter fun b => (b.1.payerUserId = i ∨ b.1.payerUserId = j) ∧
    (b.2.userId = i ∨ b.2.userId = j)

def mutualSettlements : List Settlement :=
  (w.groupSettlements g).filter fun s => pays i j s || pays j i s

def mutualBalances (R : Registry) : Except Failure (List Balance.AssetNetBalances) :=
  Balance.computeNetBalancesByAsset R ((w.mutualBills g i j).map shareRow)
    ((w.mutualSettlements g i j).map settlementRow)

-- Every settlement between the two users is confirmed or failed.
def Decided : Prop :=
  ∀ s ∈ w.mutualSettlements g i j, s.status = .confirmed ∨ s.status = .failed

instance : Decidable (w.Decided g i j) :=
  inferInstanceAs (Decidable (∀ s ∈ _, _))

end World

variable {R : Registry} {w w' : World}

theorem remaining_split (w : World) (g i j key : String) :
    w.remainingIn g i j key + w.remainingElsewhere g i j key =
      w.debt g i j - (w.pledged g i j - w.pledged g j i) := by
  have split : ∀ {α} {v : α → Int} {p : α → Bool} {k : α → String} {l : List α}, total v p l =
      total v p (l.filter (k · = key)) + total v p (l.filter (k · ≠ key)) := by
    intro α v p k l
    rw [total_filter, total_filter]
    refine (total_split fun a => k a = key).trans ?_
    simp only [ne_eq, decide_not]
  simp only [remaining, debt, debtOf, pledged, charged, transferred]
  have hb := fun p => split (v := fun b => b.2.shareAmount) (p := p) (k := fun b => b.1.key)
    (l := w.bills g)
  have hs := fun p => split (v := fun s => s.amount) (p := p) (k := Settlement.key)
    (l := w.groupSettlements g)
  have := hb fun b => owes i j b.1 b.2
  have := hb fun b => owes j i b.1 b.2
  have := hs (live i j)
  have := hs (live j i)
  omega

theorem accepts_iff (h : i ≠ j) (hv : validateAmount t = .ok v) :
    w.Accepts g i j t ↔ w.Legible g i j ∧
      v.stroops ≤ w.debt g i j - (w.pledged g i j - w.pledged g j i) := by
  have ⟨_, ht⟩ := toStroops_of_validateAmount hv
  have hd : ∀ d, limitDebt i j (w.limitReads g i j) = .ok d ↔ w.Legible g i j ∧
      d = w.debt g i j - (w.pledged g i j - w.pledged g j i) := by
    intro d
    rw [limitDebt_eq_ok_iff h, ← debtOf_limitExpenses, ← sentOf_limitSettlements]
    rfl
  simp only [World.Accepts, verifySettlementLimit, Except.bind_eq_ok, hd, ht, Except.ok.injEq]
  constructor
  · rintro ⟨_, ⟨hl, rfl⟩, _, rfl, hn⟩
    refine ⟨hl, ?_⟩
    split at hn
    case isTrue  => contradiction
    case isFalse => omega
  · rintro ⟨hl, hn⟩
    refine ⟨_, ⟨hl, rfl⟩, _, rfl, ?_⟩
    rw [if_neg (by omega)]
    rfl

-- The limit is a matter of the room that is left.
theorem accepts_iff_le_room (h : i ≠ j) (hv : validateAmount t = .ok v) (key : String) :
    w.Accepts g i j t ↔ v.stroops ≤ w.room g i j key (w.remainingIn g i j key) := by
  have ⟨h₀, _⟩ := toStroops_of_validateAmount hv
  have ⟨_, _, hm, _⟩ := validateDecimal_ok hv
  rw [accepts_iff h hv, room, remaining_split]
  by_cases hl : w.Legible g i j
  case pos =>
    simp only [hl, true_and, if_true]
    omega
  case neg =>
    simp only [hl, false_and, if_false, false_iff]
    omega

theorem isGreatest_accepted (h : i ≠ j) (key : String) :
    IsGreatest (insert 0 (w.accepted g i j)) (w.room g i j key (w.remainingIn g i j key)) := by
  constructor
  case left =>
    by_cases h₀ : w.room g i j key (w.remainingIn g i j key) = 0
    case pos => exact .inl h₀
    case neg =>
      have hr : 0 ≤ w.room g i j key (w.remainingIn g i j key) ∧
          w.room g i j key (w.remainingIn g i j key) ≤ maxStroops := by
        simp only [room]
        split <;> omega
      have ⟨n, hn⟩ := Int.eq_ofNat_of_zero_le hr.1
      have ⟨t, v, hv, hs⟩ := exists_validateAmount (n := n) (by omega) (by omega)
      refine .inr ⟨t, v, hv, ?_, (accepts_iff_le_room h hv key).mpr ?_⟩ <;> omega
  case right =>
    rintro n (rfl | ⟨t, v, hv, rfl, ha⟩)
    case inl =>
      simp only [room]
      split <;> omega
    case inr => exact (accepts_iff_le_room h hv key).mp ha

-- The balances of the mutual rows show what is left in an asset, and all that matters can be read.

theorem net_mutualBalances (h : i ≠ j) (hd : w.Decided g i j)
    (hb : w.mutualBalances g i j R = .ok sheets) (key : String) :
    -Balance.assetNetOf sheets key i = w.remainingIn g i j key := by
  have debt : debtOf i j ((w.bills g).filter (·.1.key = key)) =
      charged (unsettled (owedBy key i)) (w.mutualBills g i j) -
      charged (unsettled (owedTo key i)) (w.mutualBills g i j) := by
    simp only [debtOf, World.mutualBills, charged, total_filter]
    congr 1 <;> refine total_congr fun b _ => ?_
    all_goals
      simp only [owes, owedBy, owedTo, unsettled]
      grind
  -- Whatever has not failed is confirmed.
  have decided : ∀ s ∈ w.groupSettlements g, pays i j s ∨ pays j i s →
      (s.status = .confirmed ↔ s.status ≠ .failed) := by
    intro s hs hp
    cases hd s (List.mem_filter.mpr ⟨hs, by simpa using hp⟩) with
    | inl h => simp [h]
    | inr h => simp [h]
  have out : transferred (World.live i j) ((w.groupSettlements g).filter (·.key = key)) =
      transferred (sent key i) (w.mutualSettlements g i j) := by
    simp only [World.mutualSettlements, transferred, total_filter]
    refine total_congr fun s hs => ?_
    have := decided s hs
    simp only [World.live, pays, sent] at this ⊢
    grind
  have back : transferred (World.live j i) ((w.groupSettlements g).filter (·.key = key)) =
      transferred (received key i) (w.mutualSettlements g i j) := by
    simp only [World.mutualSettlements, transferred, total_filter]
    refine total_congr fun s hs => ?_
    have := decided s hs
    simp only [World.live, pays, received] at this ⊢
    grind
  rw [computeNetBalancesByAsset_totals hb, World.remainingIn, World.remaining, debt, out, back]
  omega

theorem legible_of_mutualBalances (h : i ≠ j) (hd : w.Decided g i j)
    (hb : w.mutualBalances g i j R = .ok sheets) : w.Legible g i j := by
  obtain ⟨hs, hst⟩ := Balance.computeNetBalancesByAsset_read hb
  have read : ∀ {n m}, toStroops (columnText n) = .ok m → Readable n := fun h =>
    (columnStroops_eq_ok_iff.mp h).1
  constructor
  case shares =>
    intro b hb hp
    rw [World.limitReads, bills_limitExpenses] at hb
    have hb := (List.mem_filter.mp hb).1
    have hm : b ∈ w.mutualBills g i j := by
      refine List.mem_filter.mpr ⟨hb, ?_⟩
      simp only [owes] at hp
      grind
    obtain ⟨_, hn⟩ := hs (shareRow b) (List.mem_map_of_mem hm) <| by
      simp only [Balance.ShareRow.Counts, shareRow, owes] at hp ⊢
      grind
    exact read hn
  case settlements =>
    intro s hs hp
    have hs := List.mem_filter.mp hs
    have hm : s ∈ w.mutualSettlements g i j := List.mem_filter.mpr ⟨hs.1, by simpa using hp⟩
    have hc : s.status = .confirmed := by
      have := hd s hm
      grind
    obtain ⟨_, hn⟩ := hst (settlementRow s) (List.mem_map_of_mem hm) <| by
      simp [Balance.SettlementRow.Counts, settlementRow, hc]
    exact read hn

-- Given two users and an asset. The decisions in two states that only differ in other assets agree if
-- and only if the other assets leave the same room. And if all settlements are decided, then the
-- largest accepted amount is the debt in the asset, if and only if the other assets leave exactly this
-- room.
theorem limit_per_asset (h : i ≠ j) (R : Registry) (w : World) (g key : String) :
    (∀ w', w.AgreesOn g key w' →
      ((∀ t v, validateAmount t = .ok v → (w.Accepts g i j t ↔ w'.Accepts g i j t)) ↔
        w.room g i j key (w.remainingIn g i j key) = w'.room g i j key (w.remainingIn g i j key))) ∧
    ∀ sheets, w.Decided g i j → w.mutualBalances g i j R = .ok sheets →
      (IsGreatest (insert 0 (w.accepted g i j)) (max 0 (-Balance.assetNetOf sheets key i)) ↔
        w.room g i j key (w.remainingIn g i j key) = max 0 (w.remainingIn g i j key)) := by
  constructor
  case left =>
    intro w' ha
    have hr : w'.remainingIn g i j key = w.remainingIn g i j key := by
      have := ha.bills
      have := ha.settlements
      simp_all [World.remainingIn, World.remaining, World.billsIn, World.settlementsIn]
    have hg := isGreatest_accepted (w := w) (g := g) h key
    have hg' := hr ▸ isGreatest_accepted (w := w') (g := g) h key
    constructor
    case mp =>
      intro hd
      have hs : w.accepted g i j = w'.accepted g i j := by
        ext n
        constructor
        · rintro ⟨t, v, hv, hn, ha⟩
          exact ⟨t, v, hv, hn, (hd t v hv).mp ha⟩
        · rintro ⟨t, v, hv, hn, ha⟩
          exact ⟨t, v, hv, hn, (hd t v hv).mpr ha⟩
      exact hg.unique (hs ▸ hg')
    case mpr =>
      intro he t v hv
      rw [accepts_iff_le_room h hv key, accepts_iff_le_room h hv key, hr, he]
  case right =>
    intro sheets hd hb
    have hg := isGreatest_accepted (w := w) (g := g) h key
    rw [net_mutualBalances h hd hb key]
    exact ⟨fun h => hg.unique h, fun h => h ▸ hg⟩

-- Ann has paid two lumens for bob, and bob has paid two dollars for ann.
def sampleCredit : World := { sampleWorld with
  expenses  := sampleWorld.expenses ++ [⟨"f", "g", "bob", "USDC", some "GUSD", 0⟩]
  shares    := sampleWorld.shares ++ [⟨"k", "f", "ann", 20000000, .pending⟩]
}

-- Without the dollars, the sample leaves room for all of bob's debt.
theorem limit_per_asset_sample :
    ∃ sheets, sampleWorld.mutualBalances "g" "bob" "ann" sampleDeps.toRegistry = .ok sheets ∧
      IsGreatest (insert 0 (sampleWorld.accepted "g" "bob" "ann"))
        (max 0 (-Balance.assetNetOf sheets (balanceAssetKey "XLM" none) "bob")) ∧
      ¬∀ t v, validateAmount t = .ok v →
        (sampleWorld.Accepts "g" "bob" "ann" t ↔ sampleCredit.Accepts "g" "bob" "ann" t) := by
  have ⟨sheets, hb⟩ := Except.toBool_eq_true.mp <| show
    (sampleWorld.mutualBalances "g" "bob" "ann" sampleDeps.toRegistry).toBool by decide +kernel
  have ⟨ha, hd⟩ := limit_per_asset (i := "bob") (j := "ann") (by decide) sampleDeps.toRegistry
    sampleWorld "g" (balanceAssetKey "XLM" none)
  refine ⟨sheets, hb, (hd sheets ?_ hb).mpr ?_, mt (ha sampleCredit ⟨?_, ?_⟩).mp ?_⟩
  all_goals decide +kernel

-- The dollars cancel bob's debt in lumens. His payment of two lumens is refused.
theorem limit_across_assets :
    sampleWorld.AgreesOn "g" (balanceAssetKey "XLM" none) sampleCredit ∧
      sampleWorld.Accepts "g" "bob" "ann" "2" ∧ ¬sampleCredit.Accepts "g" "bob" "ann" "2" := by
  refine ⟨⟨?_, ?_⟩, ?_, ?_⟩
  all_goals decide +kernel

end Mergepay
