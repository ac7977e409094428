import Mathlib.Data.List.Perm.Basic
import Mergepay.Expense.Accumulation

namespace Mergepay

open Money Breakdown Balance

-- The sum of the shares of an expense.
def ExpenseRecord.total (e : ExpenseRecord) : Int :=
  (e.amounts.map (·.2)).sum

-- What an expense adds to the amounts of a user.

def ExpenseRecord.paidBy (e : ExpenseRecord) (u : String) : Int :=
  if u = e.payerUserId then (e.amounts.map (·.2)).sum else 0

def ExpenseRecord.owedBy (e : ExpenseRecord) (u : String) : Int :=
  (e.amounts.map fun c => if u = c.1 then c.2 else 0).sum

def ExpenseRecord.Involves (e : ExpenseRecord) (u : String) : Prop :=
  u = e.payerUserId ∨ ∃ c ∈ e.amounts, u = c.1

namespace Breakdown

open Classical in
-- The expenses of an asset, by which its accumulator is determined up to the order of the users.
noncomputable def counted (R : Registry) (expenses : List ExpenseRecord) (k : String) : List ExpenseRecord :=
  expenses.filter (·.Counted R k)

-- The accumulator of an asset after all expenses.
structure AssetAccumulator.Sums (l : List ExpenseRecord) (a : AssetAccumulator) : Prop where
  paid  : ∀ u, Net.value a.paid u = (l.map (·.paidBy u)).sum
  owed  : ∀ u, Net.value a.owed u = (l.map (·.owedBy u)).sum
  order : ∀ u, u ∈ a.order ↔ ∃ e ∈ l, e.Involves u
  total : (a.owed.map (·.2)).sum = (l.map (·.total)).sum
  count : a.expenseCount = l.length

structure Accumulated (R : Registry) (expenses : List ExpenseRecord) (accumulators : Accumulators) : Prop where
  sound : Accumulators.Sound accumulators
  keys  : ∀ k, k ∈ OrderedMap.keys accumulators ↔ ∃ e ∈ expenses, e.Counted R k
  each  : ∀ k a, accumulators.get? k = some a → AssetAccumulator.Sums (counted R expenses k) a
  asset : ∀ k a, accumulators.get? k = some a →
    ∃ e ∈ expenses, normalizeAsset R e.assetCode e.assetIssuer = .ok a.asset

section Step

variable {a : AssetAccumulator} {l : List ExpenseRecord} {e : ExpenseRecord}

theorem mem_foldl_addShare (a : AssetAccumulator) (l : List (String × Int)) :
    u ∈ (l.foldl addShare a).order ↔ u ∈ a.order ∨ ∃ c ∈ l, u = c.1 := by
  induction l generalizing a with
  | nil         => simp
  | cons c l hi =>
    have hs : (addShare a c).order = (touch a c.1).order := rfl
    rw [List.foldl_cons, hi, hs, AssetAccumulator.mem_touch, List.exists_mem_cons_iff, or_assoc]

theorem expenseCount_foldl_addShare (a : AssetAccumulator) (l : List (String × Int)) :
    (l.foldl addShare a).expenseCount = a.expenseCount := by
  induction l generalizing a with
  | nil         => rfl
  | cons c l hi =>
    rw [List.foldl_cons, hi, addShare, touch]
    split <;> rfl

theorem AssetAccumulator.Sums.new (asset : AssetRef) : AssetAccumulator.Sums [] { asset } where
  paid u  := rfl
  owed u  := rfl
  order u := by simp
  total   := rfl
  count   := rfl

theorem AssetAccumulator.Sums.record (h : AssetAccumulator.Sums l a) (e : ExpenseRecord) :
    AssetAccumulator.Sums (l ++ [e]) (a.record e.payerUserId e.amounts) := by
  have ⟨hp, _, ht, ho⟩ := AssetAccumulator.foldl_addShare
    (a.credit e.payerUserId (e.amounts.map (·.2)).sum) e.amounts
  constructor
  case paid =>
    intro u
    rw [AssetAccumulator.record, hp, AssetAccumulator.credit_paid, Net.value_add, h.paid]
    simp [ExpenseRecord.paidBy]
  case owed =>
    intro u
    rw [AssetAccumulator.record, ho, AssetAccumulator.credit_owed, h.owed]
    simp [ExpenseRecord.owedBy]
  case order =>
    intro u
    have hc : u ∈ (a.credit e.payerUserId (e.amounts.map (·.2)).sum).order ↔ u ∈ a.order ∨ u = e.payerUserId :=
      AssetAccumulator.mem_touch
    rw [AssetAccumulator.record, mem_foldl_addShare, hc, h.order]
    simp [ExpenseRecord.Involves, or_and_right, exists_or, or_assoc]
  case total =>
    rw [AssetAccumulator.record, ht, AssetAccumulator.credit_owed, h.total]
    simp [ExpenseRecord.total]
  case count =>
    have hc : (a.credit e.payerUserId (e.amounts.map (·.2)).sum).expenseCount = a.expenseCount + 1 := by
      rw [AssetAccumulator.credit, touch]
      split <;> rfl
    rw [AssetAccumulator.record, expenseCount_foldl_addShare, hc, h.count, List.length_append, List.length_singleton]

end Step

section Loop

variable {R : Registry} {expenses : List ExpenseRecord} {accumulators accumulators' : Accumulators}
  {e : ExpenseRecord} {k : String}

theorem counted_eq_nil (h : ¬∃ e ∈ expenses, e.Counted R k) : counted R expenses k = [] := by
  simp only [counted, List.filter_eq_nil_iff, decide_eq_true_eq]
  exact fun e he hc => h ⟨e, he, hc⟩

theorem counted_append_of (h : e.Counted R k) : counted R (expenses ++ [e]) k = counted R expenses k ++ [e] := by
  simp [counted, h]

theorem counted_append_of_not (h : ¬e.Counted R k) : counted R (expenses ++ [e]) k = counted R expenses k := by
  simp [counted, h]

theorem Accumulated.addExpense (h : Accumulated R expenses accumulators)
    (hs : addExpense R accumulators e = .ok accumulators') : Accumulated R (expenses ++ [e]) accumulators' := by
  have sound := h.sound.addExpense hs
  obtain ⟨⟨asset, l⟩, hc, hs⟩ := Except.bind_eq_ok.mp hs
  have hc := checkExpense_eq_ok.mp hc
  have hs := Except.pure_eq_ok.mp hs
  subst hs
  have hk (k : String) : e.Counted R k ↔ balanceAssetKey asset.assetCode asset.assetIssuer = k := by
    simp [ExpenseRecord.Counted, hc.asset]
  simp only [accumulate_eq hc] at sound ⊢
  refine { sound, keys := fun k => ?_, each := fun k a ha => ?_, asset := fun k a ha => ?_ }
  case refine_1 =>
    have hm : k ∈ OrderedMap.keys accumulators ∨ balanceAssetKey asset.assetCode asset.assetIssuer = k ↔
        ∃ e' ∈ expenses ++ [e], e'.Counted R k := by
      rw [h.keys, ← hk]
      simp [or_and_right, exists_or]
    rw [← hm, OrderedMap.keys_set]
    split
    case isTrue h' => exact ⟨.inl, fun hk => hk.elim id (· ▸ h')⟩
    case isFalse   => simp [eq_comm]
  case refine_2 =>
    rw [OrderedMap.get?_set] at ha
    split at ha
    case isTrue he =>
      obtain rfl := Option.some.inj ha
      rw [he, counted_append_of ((hk k).mpr he)]
      cases hg : accumulators.get? k with
      | some a => exact (h.each k a hg).record e
      | none   =>
        have hn : ¬∃ e ∈ expenses, e.Counted R k := (h.keys k).not.mp <| OrderedMap.get?_eq_none_iff.mp hg
        rw [counted_eq_nil hn]
        exact AssetAccumulator.Sums.record (.new asset) e
    case isFalse he =>
      rw [counted_append_of_not ((hk k).not.mpr he)]
      exact h.each k a ha
  case refine_3 =>
    rw [OrderedMap.get?_set] at ha
    split at ha
    case isTrue he =>
      obtain rfl := Option.some.inj ha
      have hr (a : AssetAccumulator) (payer : String) (l : List (String × Int)) :
          (a.record payer l).asset = a.asset := by
        rw [AssetAccumulator.record, (AssetAccumulator.foldl_addShare _ l).2.1, AssetAccumulator.credit_asset]
      rw [hr, he]
      cases hg : accumulators.get? k with
      | none   => exact ⟨e, by simp, hc.asset⟩
      | some a =>
        obtain ⟨e', he', ha⟩ := h.asset k a hg
        exact ⟨e', List.mem_append_left _ he', ha⟩
    case isFalse he =>
      obtain ⟨e', he', ha⟩ := h.asset k a ha
      exact ⟨e', List.mem_append_left _ he', ha⟩

theorem Accumulated.of_foldlM (h : expenses.foldlM (Breakdown.addExpense R) [] = .ok accumulators) :
    Accumulated R expenses accumulators :=
  Except.foldlM_induction (Accumulated R) h
    { sound := ⟨by simp, by simp⟩, keys := by simp, each := by simp, asset := by simp }
    fun _ _ _ _ h hs => h.addExpense hs

end Loop

-- Two accumulators with the same amounts, which may have seen the users in another order.
structure AssetAccumulator.Same (a a' : AssetAccumulator) : Prop where
  asset : a.asset = a'.asset
  paid  : ∀ u, Net.value a.paid u = Net.value a'.paid u
  owed  : ∀ u, Net.value a.owed u = Net.value a'.owed u
  order : a.order.Perm a'.order
  count : a.expenseCount = a'.expenseCount

section Perm

variable {R : Registry} {l l' : List ExpenseRecord} {accumulators accumulators' : Accumulators}
  {a b : AssetRef} {code code' : String} {issuer issuer' : Option String}

-- The assets of the registry have different keys.
theorem normalizeAsset_of_key (ha : normalizeAsset R code issuer = .ok a)
    (hb : normalizeAsset R code' issuer' = .ok b)
    (h : balanceAssetKey a.assetCode a.assetIssuer = balanceAssetKey b.assetCode b.assetIssuer) : a = b := by
  have ⟨v, hv, ha⟩ := normalizeAsset_eq_ok.mp ha
  have ⟨w, hw, hb⟩ := normalizeAsset_eq_ok.mp hb
  have ⟨x, hx, hv⟩ := Registry.mem_of_validateAsset hv
  have ⟨y, hy, hw⟩ := Registry.mem_of_validateAsset hw
  have hne (i j : Option String) : balanceAssetKey "XLM" i ≠ balanceAssetKey "USDC" j := by
    intro he
    have he := congrArg (fun s : String => s.toList.head?) he
    simp [balanceAssetKey, Registry.toUpperCase_xlm, Registry.toUpperCase_usdc] at he
  subst ha hb hv hw
  simp only [Registry.supportedAssets, List.mem_cons, List.not_mem_nil, or_false] at hx hy
  rcases hx with rfl | rfl <;> rcases hy with rfl | rfl
  · rfl
  · exact absurd h (hne _ _)
  · exact absurd h.symm (hne _ _)
  · rfl

theorem counted_perm (h : l.Perm l') (k : String) : (counted R l k).Perm (counted R l' k) :=
  h.filter _

theorem Accumulated.perm (h : Accumulated R l accumulators) (hp : l.Perm l') : Accumulated R l' accumulators where
  sound    := h.sound
  keys k   := by
    rw [h.keys]
    exact exists_congr fun e => and_congr_left fun _ => hp.mem_iff
  each k a ha := by
    have hc := counted_perm (R := R) hp k
    have hs := h.each k a ha
    exact {
      paid  := fun u => (hs.paid u).trans (hc.map _).sum_eq
      owed  := fun u => (hs.owed u).trans (hc.map _).sum_eq
      order := fun u => (hs.order u).trans <| exists_congr fun e => and_congr_left fun _ => hc.mem_iff
      total := hs.total.trans (hc.map _).sum_eq
      count := hs.count.trans hc.length_eq
    }
  asset k a ha := by
    have ⟨e, he, hn⟩ := h.asset k a ha
    exact ⟨e, hp.mem_iff.mp he, hn⟩

theorem Accumulated.same_of_get? (h : Accumulated R l accumulators) (h' : Accumulated R l accumulators')
    {a a' : AssetAccumulator} (ha : accumulators.get? k = some a) (ha' : accumulators'.get? k = some a') :
    AssetAccumulator.Same a a' := by
  have hs := h.each k a ha
  have hs' := h'.each k a' ha'
  have hk := h.sound.each _ (OrderedMap.mem_of_get? ha)
  have hk' := h'.sound.each _ (OrderedMap.mem_of_get? ha')
  have ⟨_, _, hn⟩ := h.asset k a ha
  have ⟨_, _, hn'⟩ := h'.asset k a' ha'
  exact {
    asset := normalizeAsset_of_key hn hn' (hk.key.trans hk'.key.symm)
    paid  := fun u => (hs.paid u).trans (hs'.paid u).symm
    owed  := fun u => (hs.owed u).trans (hs'.owed u).symm
    order := (List.perm_ext_iff_of_nodup hk.known.order hk'.known.order).mpr fun u =>
      (hs.order u).trans (hs'.order u).symm
    count := hs.count.trans hs'.count.symm
  }

-- The expenses determine the accumulators up to their order.
theorem Accumulated.unique (h : Accumulated R l accumulators) (h' : Accumulated R l accumulators') :
    ∃ sorted, sorted.Perm accumulators ∧
      List.Forall₂ (fun x y => x.1 = y.1 ∧ AssetAccumulator.Same x.2 y.2) sorted accumulators' := by
  have hp : (OrderedMap.keys accumulators').Perm (OrderedMap.keys accumulators) :=
    (List.perm_ext_iff_of_nodup h'.sound.nodup h.sound.nodup).mpr fun k => (h'.keys k).trans (h.keys k).symm
  obtain ⟨sorted, hk, hs⟩ : ∃ sorted : Accumulators, OrderedMap.keys accumulators' = sorted.map Prod.fst ∧
      sorted.Perm accumulators :=
    (congrFun (congrFun (List.eq_map_comp_perm Prod.fst) _) _).mpr hp
  refine ⟨sorted, hs, ?_⟩
  have hf : List.Forall₂ (fun x y => x.1 = y.1) sorted accumulators' := by
    have hk : List.Forall₂ (fun k y => k = y.1) (sorted.map Prod.fst) accumulators' := by
      rw [← show OrderedMap.keys accumulators' = sorted.map Prod.fst from hk, OrderedMap.keys,
        List.forall₂_map_left_iff, List.forall₂_same]
      exact fun _ _ => rfl
    exact List.forall₂_map_left_iff.mp hk
  refine List.forall₂_iff_zip.mpr ⟨hf.length_eq, fun {x y} hm => ?_⟩
  obtain ⟨hx, hy⟩ := List.of_mem_zip hm
  have he : x.1 = y.1 := List.forall₂_zip hf hm
  have ha := OrderedMap.get?_of_mem h.sound.nodup (hs.mem_iff.mp hx)
  have ha' := OrderedMap.get?_of_mem h'.sound.nodup hy
  exact ⟨he, h.same_of_get? h' ha (he ▸ ha')⟩

end Perm

end Breakdown

end Mergepay
