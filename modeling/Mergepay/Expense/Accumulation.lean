import Mergepay.Balance.Suggestion
import Mergepay.Expense.Calculation

namespace Mergepay

open Money Breakdown

namespace AssetAccumulator

variable {a : AssetAccumulator}

-- What is counted for a user, less what is counted against them.
def net (a : AssetAccumulator) (u : String) : Int :=
  Balance.Net.value a.paid u - Balance.Net.value a.owed u

-- All users with an amount are known.
structure Known (a : AssetAccumulator) : Prop where
  order : a.order.Nodup
  paid  : (OrderedMap.keys a.paid).Nodup ∧ OrderedMap.keys a.paid ⊆ a.order
  owed  : (OrderedMap.keys a.owed).Nodup ∧ OrderedMap.keys a.owed ⊆ a.order

@[simp]
theorem touch_paid : (touch a u).paid = a.paid := by
  rw [touch]
  split <;> rfl

@[simp]
theorem touch_owed : (touch a u).owed = a.owed := by
  rw [touch]
  split <;> rfl

@[simp]
theorem touch_asset : (touch a u).asset = a.asset := by
  rw [touch]
  split <;> rfl

theorem mem_touch : v ∈ (touch a u).order ↔ v ∈ a.order ∨ v = u := by
  rw [touch]
  split
  case isTrue h  => exact ⟨.inl, fun hv => hv.elim id (· ▸ h)⟩
  case isFalse h => simp

theorem addAmount_eq : addAmount = Balance.Net.add :=
  rfl

theorem keys_addAmount (h : OrderedMap.keys m ⊆ l) (hk : k ∈ l) : OrderedMap.keys (addAmount m k n) ⊆ l := by
  rw [addAmount, OrderedMap.keys_set]
  split
  case isTrue  => exact h
  case isFalse => exact List.append_subset.mpr ⟨h, by simpa using hk⟩

theorem Known.touch (h : a.Known) (u : String) : (touch a u).Known where
  order := by
    rw [Breakdown.touch]
    split
    case isTrue     => exact h.order
    case isFalse h' => exact List.concat_eq_append ▸ h.order.concat h'
  paid := ⟨by simpa using h.paid.1, fun _ hk => mem_touch.mpr <| .inl <| h.paid.2 (by simpa using hk)⟩
  owed := ⟨by simpa using h.owed.1, fun _ hk => mem_touch.mpr <| .inl <| h.owed.2 (by simpa using hk)⟩

theorem Known.addShare (h : a.Known) (c : String × Int) : (addShare a c).Known := by
  have ht := h.touch c.1
  refine { ht with owed := ⟨OrderedMap.nodup_keys_set ht.owed.1, ?_⟩ }
  exact keys_addAmount ht.owed.2 (mem_touch.mpr <| .inr rfl)

theorem Known.foldl (h : a.Known) (l : List (String × Int)) : (l.foldl Breakdown.addShare a).Known := by
  induction l generalizing a with
  | nil         => exact h
  | cons c l hi => exact hi (h.addShare c)

-- What the shares of an expense change.
theorem foldl_addShare (a : AssetAccumulator) (l : List (String × Int)) :
    (l.foldl addShare a).paid = a.paid ∧
    (l.foldl addShare a).asset = a.asset ∧
    ((l.foldl addShare a).owed.map (·.2)).sum = (a.owed.map (·.2)).sum + (l.map (·.2)).sum ∧
    ∀ u, Balance.Net.value (l.foldl addShare a).owed u =
      Balance.Net.value a.owed u + (l.map fun c => if u = c.1 then c.2 else 0).sum := by
  induction l generalizing a with
  | nil => simp
  | cons c l hi =>
    have ⟨hp, ha, hs, hv⟩ := hi (addShare a c)
    rw [List.foldl_cons]
    refine ⟨hp.trans (by simp [addShare]), ha.trans (by simp [addShare]), hs.trans ?_,
      fun u => (hv u).trans ?_⟩
    case refine_1 =>
      simp only [addShare, addAmount_eq, Balance.Net.sum_add, touch_owed, List.map_cons, List.sum_cons]
      omega
    case refine_2 =>
      simp only [addShare, addAmount_eq, Balance.Net.value_add, touch_owed, List.map_cons, List.sum_cons]
      omega

-- What is known about the accumulator of an asset.
structure Sound (key : String) (a : AssetAccumulator) : Prop where
  key   : balanceAssetKey a.asset.assetCode a.asset.assetIssuer = key
  known : a.Known
  even  : (a.paid.map (·.2)).sum = (a.owed.map (·.2)).sum

theorem Sound.new (asset : AssetRef) :
    Sound (balanceAssetKey asset.assetCode asset.assetIssuer) { asset } where
  key   := rfl
  known := { order := by simp, paid := by simp, owed := by simp }
  even  := rfl

-- The accumulator after an expense of its asset: what is paid is counted first, then the shares.

def credit (a : AssetAccumulator) (payer : String) (n : Int) : AssetAccumulator :=
  let a := touch a payer
  { a with paid := addAmount a.paid payer n, expenseCount := a.expenseCount + 1 }

def record (a : AssetAccumulator) (payer : String) (l : List (String × Int)) : AssetAccumulator :=
  l.foldl addShare (a.credit payer (l.map (·.2)).sum)

@[simp]
theorem credit_asset : (credit a payer n).asset = a.asset := by
  simp [credit]

@[simp]
theorem credit_owed : (credit a payer n).owed = a.owed := by
  simp [credit]

theorem credit_paid : (credit a payer n).paid = Balance.Net.add a.paid payer n := by
  simp [credit, addAmount_eq]

theorem Known.credit (h : a.Known) (payer : String) (n : Int) : (a.credit payer n).Known := by
  have ht := h.touch payer
  refine { ht with paid := ⟨OrderedMap.nodup_keys_set ht.paid.1, ?_⟩ }
  exact keys_addAmount ht.paid.2 (mem_touch.mpr <| .inr rfl)

theorem Sound.record (h : Sound k a) (payer : String) (l : List (String × Int)) :
    Sound k (a.record payer l) := by
  have ⟨hp, ha, hs, _⟩ := foldl_addShare (a.credit payer (l.map (·.2)).sum) l
  constructor
  case key   => rw [AssetAccumulator.record, ha, credit_asset, h.key]
  case known => exact (h.known.credit payer _).foldl l
  case even  => rw [AssetAccumulator.record, hp, hs, credit_paid, credit_owed, Balance.Net.sum_add, h.even]

theorem net_record (a : AssetAccumulator) (payer : String) (l : List (String × Int)) (u : String) :
    (a.record payer l).net u = a.net u +
      (l.map fun c => (if u = payer then c.2 else 0) - (if u = c.1 then c.2 else 0)).sum := by
  have ⟨hp, _, _, hv⟩ := foldl_addShare (a.credit payer (l.map (·.2)).sum) l
  have hs : (if u = payer then (l.map (·.2)).sum else 0) =
      (l.map fun c => if u = payer then c.2 else 0).sum := by
    split <;> simp
  rw [net, net, record, hp, hv, Table.sum_map_sub, ← hs, credit_paid, credit_owed, Balance.Net.value_add]
  omega

end AssetAccumulator

-- The shares of an expense with their amounts.
def ExpenseRecord.amounts (e : ExpenseRecord) : List (String × Int) :=
  e.shares.map fun s => (s.userId, Balance.stroops s.shareAmount)

-- What an expense adds to the net of a user.
def ExpenseRecord.delta (e : ExpenseRecord) (u : String) : Int :=
  (e.amounts.map fun c => (if u = e.payerUserId then c.2 else 0) - (if u = c.1 then c.2 else 0)).sum

-- The key under which an expense is counted.
def ExpenseRecord.Counted (R : Registry) (e : ExpenseRecord) (key : String) : Prop :=
  ∃ asset, normalizeAsset R e.assetCode e.assetIssuer = .ok asset ∧
    balanceAssetKey asset.assetCode asset.assetIssuer = key

namespace Breakdown

variable {R : Registry} {accumulators : Accumulators} {e : ExpenseRecord} {asset : AssetRef}
  {expenses : List ExpenseRecord}

theorem Checked.amounts (h : Checked R e asset l) :
    (e.shares.map (·.userId)).zip l = e.amounts ∧ l = e.amounts.map (·.2) := by
  have hp := h.parsed
  rw [ExpenseRecord.amounts]
  generalize e.shares = shares at hp
  clear h
  induction hp with
  | nil => simp
  | @cons s n _ _ hd _ hi =>
    have ⟨h₁, h₂⟩ := hi
    simp only [List.map_cons, List.zip_cons_cons, h₁, Balance.stroops_eq hd.1, ← h₂, and_self]

-- An expense is recorded in the accumulator of its asset.
theorem accumulate_eq (h : Checked R e asset l) : accumulate accumulators e asset l =
    accumulators.set (balanceAssetKey asset.assetCode asset.assetIssuer)
      (((accumulators.get? (balanceAssetKey asset.assetCode asset.assetIssuer)).getD { asset }).record
        e.payerUserId e.amounts) := by
  have ⟨hz, hl⟩ := h.amounts
  rw [accumulate, hz, hl]
  rfl

namespace Accumulators

-- What a user has got under a key.
def net (accumulators : Accumulators) (key u : String) : Int :=
  (accumulators.get? key).elim 0 (·.net u)

structure Sound (accumulators : Accumulators) : Prop where
  nodup : (OrderedMap.keys accumulators).Nodup
  each  : ∀ e ∈ accumulators, AssetAccumulator.Sound e.1 e.2

theorem Sound.getD (h : Sound accumulators) (asset : AssetRef) :
    AssetAccumulator.Sound (balanceAssetKey asset.assetCode asset.assetIssuer)
      ((accumulators.get? (balanceAssetKey asset.assetCode asset.assetIssuer)).getD { asset }) := by
  cases ha : accumulators.get? (balanceAssetKey asset.assetCode asset.assetIssuer) with
  | none   => exact .new asset
  | some a => exact h.each _ (OrderedMap.mem_of_get? ha)

theorem Sound.addExpense (h : Sound accumulators)
    (hs : addExpense R accumulators e = .ok accumulators') : Sound accumulators' := by
  have ⟨x, hc, hs⟩ := Except.bind_eq_ok.mp hs
  rw [← Except.pure_eq_ok.mp hs, accumulate_eq (checkExpense_eq_ok.mp hc)]
  refine ⟨OrderedMap.nodup_keys_set h.nodup, fun e' he => ?_⟩
  cases OrderedMap.mem_set he with
  | inl he => exact he ▸ (h.getD x.1).record ..
  | inr he => exact h.each e' he

open Classical in
theorem net_addExpense (h : addExpense R accumulators e = .ok accumulators') (k u : String) :
    net accumulators' k u = net accumulators k u + if e.Counted R k then e.delta u else 0 := by
  have ⟨x, hc, hs⟩ := Except.bind_eq_ok.mp h
  have hc := checkExpense_eq_ok.mp hc
  rw [← Except.pure_eq_ok.mp hs, accumulate_eq hc]
  have hk : e.Counted R k ↔ balanceAssetKey x.1.assetCode x.1.assetIssuer = k := by
    simp [ExpenseRecord.Counted, hc.asset]
  simp only [hk, net, OrderedMap.get?_set]
  split
  case isFalse => simp
  case isTrue h =>
    rw [h, Option.elim_some, AssetAccumulator.net_record]
    cases accumulators.get? k with
    | none   => simp [AssetAccumulator.net, Balance.Net.value, ExpenseRecord.delta]
    | some a => rfl

-- The loop over all expenses.
theorem of_foldlM (h : expenses.foldlM (addExpense R) [] = .ok accumulators) : Sound accumulators :=
  Except.foldlM_induction (fun _ accumulators => Sound accumulators) h ⟨by simp, by simp⟩
    fun _ _ _ _ hs h => hs.addExpense h

open Classical in
theorem net_of_foldlM (h : expenses.foldlM (addExpense R) [] = .ok accumulators) (k u : String) :
    net accumulators k u = ((expenses.filter (·.Counted R k)).map (·.delta u)).sum := by
  rw [Except.foldlM_sum (net · k u) (fun e => if e.Counted R k then e.delta u else 0) h
    fun _ _ _ hs => net_addExpense hs k u, Table.sum_map_ite]
  simp [net]

end Accumulators

end Breakdown

-- The result

-- The nets of an asset in the form in which the balance engine returns them.
def AssetExpenseBreakdown.sheet (b : AssetExpenseBreakdown) : Balance.AssetNetBalances := {
  assetCode   := b.assetCode
  assetIssuer := b.assetIssuer
  balances    := b.participants.map fun p => { userId := p.userId, net := p.net }
}

namespace Breakdown

variable {R : Registry} {a : AssetAccumulator}

theorem liftFailure_eq_ok {x : Except Failure α} : liftFailure x = .ok y ↔ x = .ok y := by
  cases x <;> simp [liftFailure, Except.mapError]

theorem participant_eq_ok (h : AssetAccumulator.participant a u = .ok p) :
    Balance.toNetBalance (u, a.net u) = .ok { userId := p.userId, net := p.net } := by
  have ⟨_, _, h⟩ := Except.bind_eq_ok.mp h
  have ⟨_, _, h⟩ := Except.bind_eq_ok.mp h
  have ⟨_, _, h⟩ := Except.bind_eq_ok.mp h
  have ⟨_, _, h⟩ := Except.bind_eq_ok.mp h
  have ⟨t, ht, h⟩ := Except.bind_eq_ok.mp h
  rw [← Except.pure_eq_ok.mp h]
  have ht : fromStroops (a.net u) = .ok t := liftFailure_eq_ok.mp ht
  simp only [Balance.toNetBalance, ht]
  rfl

theorem breakdown_eq_ok (h : AssetAccumulator.breakdown a = .ok b) :
    b.assetCode = a.asset.assetCode ∧ b.assetIssuer = a.asset.assetIssuer ∧
    a.order.mapM (AssetAccumulator.participant a) = .ok b.participants := by
  have ⟨_, hp, h⟩ := Except.bind_eq_ok.mp h
  have ⟨_, _, h⟩ := Except.bind_eq_ok.mp h
  have ⟨_, _, h⟩ := Except.bind_eq_ok.mp h
  rw [← Except.pure_eq_ok.mp h]
  exact ⟨rfl, rfl, hp⟩

-- The nets of all known users.
def AssetAccumulator.nets (a : AssetAccumulator) : Balance.Net :=
  a.order.map fun u => (u, a.net u)

theorem value_nets (h : a.Known) (u : String) : Balance.Net.value (AssetAccumulator.nets a) u = a.net u := by
  have hm (l : List String) :
      Balance.Net.value (l.map fun u => (u, a.net u)) u = if u ∈ l then a.net u else 0 := by
    induction l with
    | nil => rfl
    | cons v l hi =>
      rw [Balance.Net.value] at hi ⊢
      by_cases hv : v = u
      case pos => simp [OrderedMap.get?, hv]
      case neg => simp [OrderedMap.get?, hv, hi, Ne.symm hv]
  rw [AssetAccumulator.nets, hm]
  split
  case isTrue => rfl
  case isFalse hu =>
    have hp : a.paid.get? u = none := OrderedMap.get?_eq_none_iff.mpr fun hk => hu (h.paid.2 hk)
    have ho : a.owed.get? u = none := OrderedMap.get?_eq_none_iff.mpr fun hk => hu (h.owed.2 hk)
    simp [AssetAccumulator.net, Balance.Net.value, hp, ho]

theorem sum_nets (h : AssetAccumulator.Sound k a) : ((AssetAccumulator.nets a).map (·.2)).sum = 0 := by
  have hp : (a.order.map (Balance.Net.value a.paid)).sum = (a.paid.map (·.2)).sum :=
    OrderedMap.sum_values h.known.paid.1 h.known.order h.known.paid.2
  have ho : (a.order.map (Balance.Net.value a.owed)).sum = (a.owed.map (·.2)).sum :=
    OrderedMap.sum_values h.known.owed.1 h.known.order h.known.owed.2
  have hn : (AssetAccumulator.nets a).map (·.2) =
      a.order.map fun u => Balance.Net.value a.paid u - Balance.Net.value a.owed u := by
    rw [AssetAccumulator.nets, List.map_map]
    rfl
  rw [hn, Table.sum_map_sub, hp, ho, h.even, sub_self]

theorem breakdown_balanced (h : AssetAccumulator.Sound k a) (hb : AssetAccumulator.breakdown a = .ok b) :
    Balance.Balanced b.sheet.balances (AssetAccumulator.nets a) := by
  have ⟨_, _, hp⟩ := breakdown_eq_ok hb
  constructor
  case rendered =>
    rw [Except.mapM_eq_ok] at hp ⊢
    rw [AssetAccumulator.nets, AssetExpenseBreakdown.sheet, List.forall₂_map_left_iff,
      List.forall₂_map_right_iff]
    exact hp.imp fun _ _ => participant_eq_ok
  case nodup =>
    have hk : OrderedMap.keys (AssetAccumulator.nets a) = a.order := by
      simp [OrderedMap.keys, AssetAccumulator.nets, Function.comp_def]
    exact hk ▸ h.known.order
  case sum => exact sum_nets h

-- The nets of the breakdown are those of the accumulators.
theorem assetNetOf_breakdown {accumulators : Accumulators} {assets : List AssetExpenseBreakdown}
    (h : accumulators.Sound) (ha : accumulators.mapM (fun e => AssetAccumulator.breakdown e.2) = .ok assets)
    (k u : String) : Balance.assetNetOf (assets.map (·.sheet)) k u = accumulators.net k u := by
  replace ha := Except.mapM_forall₂ ha
  induction ha with
  | nil => rfl
  | @cons e b accumulators assets hd _ hi =>
    have hi := hi ⟨(List.nodup_cons.mp h.nodup).2, fun e he => h.each e (List.mem_cons_of_mem _ he)⟩
    have hs := h.each e List.mem_cons_self
    have ⟨hc, hu, _⟩ := breakdown_eq_ok hd
    have hk : balanceAssetKey b.sheet.assetCode b.sheet.assetIssuer = e.1 := by
      rw [← hs.key, ← hc, ← hu]
      rfl
    by_cases he : e.1 = k
    case pos =>
      have hb := Balance.netOf_mapM (breakdown_balanced hs hd).rendered u
      simp only [Balance.assetNetOf, Accumulators.net, OrderedMap.get?, he, if_true, List.map_cons,
        List.find?_cons, hk, decide_true, Option.elim_some]
      rw [hb, value_nets hs.known]
    case neg =>
      simpa only [Balance.assetNetOf, Accumulators.net, OrderedMap.get?, he, if_false, List.map_cons,
        List.find?_cons, hk, decide_false] using hi

end Breakdown

end Mergepay
