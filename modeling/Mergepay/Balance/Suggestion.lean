import Mergepay.Balance.Totality
import Mergepay.Data.Table

namespace Mergepay.Balance

open Money Table

structure Suggestion where
  fromUserId : String
  toUserId   : String
  amount     : String
  deriving DecidableEq

-- Two users with the same amount are each ordered before the other one, so that nothing is known about
-- the outcome of sorting but that it is a permutation.
structure Sorting where
  run  : List (String × Int) → List (String × Int)
  perm : ∀ l, (run l).Perm l

-- Users with positive amounts. The first list contains the debtors, the second one the creditors.
abbrev Parties := List (String × Int) × List (String × Int)

def pushBalance (parties : Parties) (b : NetBalance) : Except Failure Parties := do
  let stroops ← toStroops b.net
  if stroops < 0 then
    return (parties.1 ++ [(b.userId, -stroops)], parties.2)
  else if stroops > 0 then
    return (parties.1, parties.2 ++ [(b.userId, stroops)])
  else
    return parties

-- What is left of a list after its first amount has been reduced.
def reduced (party : String × Int) (rest : List (String × Int)) (transfer : Int) : List (String × Int) :=
  if party.2 - transfer = 0 then rest else (party.1, party.2 - transfer) :: rest

theorem length_reduced_le : (reduced p l t).length ≤ l.length + 1 := by
  rw [reduced]
  split <;> simp

theorem length_reduced_self : (reduced p l p.2).length = l.length := by
  simp [reduced]

def smaller (m n : Int) : Int :=
  if m < n then m else n

-- One of the two amounts is used up.
theorem length_reduced_smaller {d c : String × Int} : (reduced d ds (smaller d.2 c.2)).length +
    (reduced c cs (smaller d.2 c.2)).length < (ds.length + 1) + (cs.length + 1) := by
  rw [smaller]
  split
  case isTrue =>
    have hc : (reduced c cs d.2).length ≤ cs.length + 1 := length_reduced_le
    have hd : (reduced d ds d.2).length = ds.length := length_reduced_self
    omega
  case isFalse =>
    have hc : (reduced c cs c.2).length = cs.length := length_reduced_self
    have hd : (reduced d ds c.2).length ≤ ds.length + 1 := length_reduced_le
    omega

def suggest (fromUserId toUserId : String) (transfer : Int) : Except Failure (List Suggestion) := do
  if transfer > 0 then
    return [{ fromUserId, toUserId, amount := ← fromStroops transfer }]
  else
    return []

def suggestTransfers : List (String × Int) → List (String × Int) → Except Failure (List Suggestion)
  | debtor :: debtors, creditor :: creditors => do
    let transfer := smaller debtor.2 creditor.2
    let suggestions ← suggest debtor.1 creditor.1 transfer
    let others ← suggestTransfers (reduced debtor debtors transfer) (reduced creditor creditors transfer)
    return suggestions ++ others
  | _, _ => return []
termination_by debtors creditors => debtors.length + creditors.length
decreasing_by exact length_reduced_smaller

def suggestSettlements (sort : Sorting) (balances : List NetBalance) : Except Failure (List Suggestion) := do
  let parties ← balances.foldlM pushBalance ([], [])
  suggestTransfers (sort.run parties.1) (sort.run parties.2)

def bigIntAbs (value : Int) : Int :=
  if value < 0 then -value else value

-- The remaining balances are not read once one of them is found to be open.
def isAllSettled (balances : List NetBalance) : Except Failure Bool :=
  balances.allM fun b => return bigIntAbs (← toStroops b.net) == 0

-- What a user has in a list of parties.
abbrev due (u : String) (l : List (String × Int)) : Int :=
  total (·.2) (·.1 = u) l

abbrev outgoing (u : String) (l : List Suggestion) : Int :=
  total (stroops ·.amount) (·.fromUserId = u) l

abbrev incoming (u : String) (l : List Suggestion) : Int :=
  total (stroops ·.amount) (·.toUserId = u) l

theorem due_reduced : due u (reduced p l t) = due u (p :: l) - if p.1 = u then t else 0 := by
  rw [reduced]
  split
  case isTrue h =>
    simp only [due, total_cons, decide_eq_true_eq]
    split <;> omega
  case isFalse =>
    simp only [due, total_cons, decide_eq_true_eq]
    split <;> omega

theorem sum_reduced : ((reduced p l t).map (·.2)).sum = ((p :: l).map (·.2)).sum - t := by
  rw [reduced]
  split <;> simp only [List.map_cons, List.sum_cons] <;> omega

-- The amounts of a list that can be transferred.
def Payable (l : List (String × Int)) : Prop :=
  ∀ p ∈ l, 0 < p.2 ∧ p.2 ≤ maxStroops

theorem Payable.reduced (h : Payable (p :: l)) (h₀ : 0 ≤ t) (h₁ : t ≤ p.2) : Payable (reduced p l t) := by
  have ⟨hp, hl⟩ := List.forall_mem_cons.mp h
  rw [Balance.reduced]
  split
  case isTrue  => exact hl
  case isFalse =>
    refine List.forall_mem_cons.mpr ⟨?_, hl⟩
    simp only
    omega

theorem eq_nil_of_sum (h : Payable l) (hs : (l.map (·.2)).sum = 0) : l = [] := by
  cases l with
  | nil => rfl
  | cons p l =>
    have ⟨hp, hl⟩ := List.forall_mem_cons.mp h
    have : 0 ≤ (l.map (·.2)).sum := List.sum_nonneg (List.forall_mem_map.mpr fun p hp => (hl p hp).1.le)
    rw [List.map_cons, List.sum_cons] at hs
    omega

theorem smaller_bounds (h₀ : 0 < m) (h₁ : 0 < n) : 0 < smaller m n ∧ smaller m n ≤ m ∧ smaller m n ≤ n := by
  rw [smaller]
  split <;> omega

theorem suggest_eq_ok {n : Int} (h₀ : 0 < n) (h₁ : n ≤ maxStroops) :
    ∃ t, suggest d c n = .ok [⟨d, c, t⟩] ∧ stroops t = n := by
  have ⟨t, ht⟩ := fromStroops_isOk_iff.mpr (by omega : n.natAbs ≤ maxStroops)
  refine ⟨t, ?_, stroops_eq (toStroops_fromStroops ht)⟩
  rw [suggest, if_pos h₀, ht]
  rfl

-- All debts are paid, and all credits are repaid.
theorem suggestTransfers_settles (hd : Payable debtors) (hc : Payable creditors)
    (hs : (debtors.map (·.2)).sum = (creditors.map (·.2)).sum) :
    ∃ l, suggestTransfers debtors creditors = .ok l ∧
      ∀ u, outgoing u l = due u debtors ∧ incoming u l = due u creditors := by
  induction debtors, creditors using suggestTransfers.induct with
  | case1 debtor debtors creditor creditors transfer hi =>
    have ⟨hdp, _⟩ := List.forall_mem_cons.mp hd
    have ⟨hcp, _⟩ := List.forall_mem_cons.mp hc
    have ⟨h₀, h₁, h₂⟩ := smaller_bounds hdp.1 hcp.1
    have ⟨t, ht, hn⟩ := suggest_eq_ok (d := debtor.1) (c := creditor.1) h₀ (h₁.trans hdp.2)
    have ⟨l, hl, hu⟩ := hi (hd.reduced h₀.le h₁) (hc.reduced h₀.le h₂) (by rw [sum_reduced, sum_reduced, hs])
    refine ⟨⟨debtor.1, creditor.1, t⟩ :: l, ?_, fun u => ?_⟩
    case refine_1 =>
      rw [suggestTransfers, ht]
      exact congrArg (Except.map _) hl
    case refine_2 =>
      have ⟨ho, hi⟩ := hu u
      rw [due_reduced] at ho hi
      rw [outgoing, incoming, total_cons, total_cons, ← outgoing, ← incoming, ho, hi, hn]
      constructor
      case left  => by_cases h : debtor.1 = u <;> simp [h, transfer]
      case right => by_cases h : creditor.1 = u <;> simp [h, transfer]
  | case2 debtors creditors hn =>
    have hn : debtors = [] ∧ creditors = [] := by
      cases debtors with
      | nil        => exact ⟨rfl, eq_nil_of_sum hc hs.symm⟩
      | cons d ds =>
        cases creditors with
        | nil       => exact ⟨eq_nil_of_sum hd hs, rfl⟩
        | cons c cs => exact (hn _ _ _ _ rfl rfl).elim
    obtain ⟨rfl, rfl⟩ := hn
    exact ⟨[], by simp [suggestTransfers, Except.pure_eq_ok], by simp⟩

-- The parties of a list of balances

def debtorsOf (net : Net) : List (String × Int) :=
  (net.filter (·.2 < 0)).map fun e => (e.1, -e.2)

def creditorsOf (net : Net) : List (String × Int) :=
  net.filter (0 < ·.2)

theorem toNetBalance_eq_ok (h : toNetBalance e = .ok b) :
    b.userId = e.1 ∧ toStroops b.net = .ok e.2 ∧ e.2.natAbs ≤ maxStroops := by
  have ⟨t, ht, h⟩ := Except.bind_eq_ok.mp h
  rw [← Except.pure_eq_ok.mp h]
  exact ⟨rfl, toStroops_fromStroops ht, fromStroops_isOk_iff.mp ⟨t, ht⟩⟩

theorem foldlM_pushBalance {net : Net} (h : net.mapM toNetBalance = .ok balances) (parties : Parties) :
    balances.foldlM pushBalance parties = .ok (parties.1 ++ debtorsOf net, parties.2 ++ creditorsOf net) := by
  replace h := Except.mapM_forall₂ h
  induction h generalizing parties with
  | nil => simp [debtorsOf, creditorsOf, Except.pure_eq_ok]
  | @cons e b net balances hd _ hi =>
    have ⟨hu, ht, _⟩ := toNetBalance_eq_ok hd
    rw [List.foldlM_cons, pushBalance, ht, hu, Except.bind_eq_ok]
    rcases lt_trichotomy e.2 0 with h | h | h
    · refine ⟨(parties.1 ++ [(e.1, -e.2)], parties.2), ?_, (hi _).trans ?_⟩
      · simp [h, bind, Except.bind, pure, Except.pure]
      · simp [debtorsOf, creditorsOf, h, h.le]
    · refine ⟨parties, ?_, (hi _).trans ?_⟩
      · simp [h, bind, Except.bind, pure, Except.pure]
      · simp [debtorsOf, creditorsOf, h]
    · refine ⟨(parties.1, parties.2 ++ [e]), ?_, (hi _).trans ?_⟩
      · simp [h, h.le, bind, Except.bind, pure, Except.pure]
      · simp [debtorsOf, creditorsOf, h, h.le]

-- Everything that is linear in the amounts of a list can be computed from its parties.
theorem sum_parties {f : String × Int → Int} (hf : ∀ k n, f (k, -n) = -f (k, n)) (net : Net) :
    ((creditorsOf net).map f).sum - ((debtorsOf net).map f).sum = (net.map f).sum := by
  induction net with
  | nil => simp [debtorsOf, creditorsOf]
  | cons e net hi =>
    obtain ⟨k, n⟩ := e
    have hk := hf k n
    simp only [debtorsOf, creditorsOf] at hi ⊢
    rcases lt_trichotomy n 0 with h | h | h
    · simp [h, h.le, hk, -List.map_map]
      omega
    · have h₀ := hf k 0
      rw [neg_zero] at h₀
      simp [h, -List.map_map]
      omega
    · simp [h, h.le, -List.map_map]
      omega

theorem due_eq_sum (u : String) (l : List (String × Int)) :
    due u l = (l.map fun e => if e.1 = u then e.2 else 0).sum := by
  simp only [due, total, sum_map_ite]

theorem due_parties (u : String) (net : Net) :
    due u (creditorsOf net) - due u (debtorsOf net) = due u net := by
  simp only [due_eq_sum]
  refine sum_parties (fun k n => ?_) net
  by_cases h : k = u <;> simp [h]

theorem due_eq_value {net : Net} (h : (OrderedMap.keys net).Nodup) (u : String) :
    due u net = net.value u := by
  induction net with
  | nil => rfl
  | cons e net hi =>
    have ⟨he, hn⟩ := List.nodup_cons.mp h
    rw [due, total_cons, ← due, hi hn]
    by_cases hu : e.1 = u
    case pos =>
      have hg : OrderedMap.get? net u = none := OrderedMap.get?_eq_none_iff.mpr (hu ▸ he)
      simp [Net.value, OrderedMap.get?, hu, hg]
    case neg => simp [Net.value, OrderedMap.get?, hu]

theorem payable_parties {net : Net} (h : net.mapM toNetBalance = .ok balances) :
    Payable (debtorsOf net) ∧ Payable (creditorsOf net) := by
  have hb {e} (he : e ∈ net) : e.2.natAbs ≤ maxStroops := by
    have ⟨_, hb⟩ := Except.mapM_mem h he
    exact (toNetBalance_eq_ok hb).2.2
  constructor
  case left =>
    intro p hp
    have ⟨e, he, hp⟩ := List.mem_map.mp hp
    have ⟨he, hn⟩ := List.mem_filter.mp he
    have hn := of_decide_eq_true hn
    have := hb he
    subst hp
    simp only
    omega
  case right =>
    intro p hp
    have ⟨hp, hn⟩ := List.mem_filter.mp hp
    have hn := of_decide_eq_true hn
    have := hb hp
    omega

theorem Sorting.payable (sort : Sorting) (h : Payable l) : Payable (sort.run l) :=
  fun p hp => h p ((sort.perm l).mem_iff.mp hp)

theorem Sorting.due (sort : Sorting) (u : String) (l : List (String × Int)) :
    due u (sort.run l) = Balance.due u l :=
  ((sort.perm l).filter _ |>.map _).sum_eq

theorem Sorting.sum (sort : Sorting) (l : List (String × Int)) :
    ((sort.run l).map (·.2)).sum = (l.map (·.2)).sum :=
  ((sort.perm l).map _).sum_eq

-- The suggestions bring all balances to zero.
theorem suggestSettlements_settles (sort : Sorting) {net : Net} (h : net.mapM toNetBalance = .ok balances)
    (hn : (OrderedMap.keys net).Nodup) (hs : (net.map (·.2)).sum = 0) :
    ∃ l, suggestSettlements sort balances = .ok l ∧ ∀ u, net.value u + outgoing u l - incoming u l = 0 := by
  have ⟨hd, hc⟩ := payable_parties h
  have hsum := sum_parties (f := (·.2)) (fun _ _ => rfl) net
  have ⟨l, hl, hu⟩ := suggestTransfers_settles (sort.payable hd) (sort.payable hc) (by
    rw [sort.sum, sort.sum]
    omega)
  refine ⟨l, ?_, fun u => ?_⟩
  case refine_1 =>
    rw [suggestSettlements, foldlM_pushBalance h]
    exact hl
  case refine_2 =>
    have ⟨ho, hi⟩ := hu u
    have hp := due_parties u net
    rw [due_eq_value hn] at hp
    rw [ho, hi, sort.due, sort.due]
    omega

-- Balances of different users that add up to zero.
structure Balanced (balances : List NetBalance) (net : Net) : Prop where
  rendered : net.mapM toNetBalance = .ok balances
  nodup    : (OrderedMap.keys net).Nodup
  sum      : (net.map (·.2)).sum = 0

theorem Balanced.nil : Balanced [] [] where
  rendered := rfl
  nodup    := by simp
  sum      := rfl

theorem Balanced.settles (h : Balanced balances net) (sort : Sorting) :
    ∃ l, suggestSettlements sort balances = .ok l ∧
      ∀ u, netOf balances u + outgoing u l - incoming u l = 0 := by
  have ⟨l, hl, hu⟩ := suggestSettlements_settles sort h.rendered h.nodup h.sum
  exact ⟨l, hl, fun u => netOf_mapM h.rendered u ▸ hu u⟩

theorem Net.sum_add (net : Net) (k : String) (d : Int) :
    ((net.add k d).map (·.2)).sum = (net.map (·.2)).sum + d := by
  rw [Net.add, OrderedMap.sum_set]
  omega

theorem sum_addShare (h : addShare net s = .ok net') : (net'.map (·.2)).sum = (net.map (·.2)).sum := by
  simp only [addShare] at h
  split at h
  case isTrue => rw [Except.pure_eq_ok.mp h]
  case isFalse =>
    split at h
    case isTrue => rw [Except.pure_eq_ok.mp h]
    case isFalse =>
      obtain ⟨_, _, h⟩ := Except.bind_eq_ok.mp h
      rw [← Except.pure_eq_ok.mp h, Net.sum_add, Net.sum_add]
      omega

theorem sum_addSettlement (h : addSettlement net st = .ok net') :
    (net'.map (·.2)).sum = (net.map (·.2)).sum := by
  simp only [addSettlement] at h
  split at h
  case isTrue => rw [Except.pure_eq_ok.mp h]
  case isFalse =>
    obtain ⟨_, _, h⟩ := Except.bind_eq_ok.mp h
    rw [← Except.pure_eq_ok.mp h, Net.sum_add, Net.sum_add]
    omega

-- Every transfer is counted for one user and against another one.
theorem computeNetBalances_balanced (h : computeNetBalances shares settlements = .ok balances) :
    ∃ net, Balanced balances net := by
  have ⟨net₁, h₁, h⟩ := Except.bind_eq_ok.mp h
  have ⟨net₂, h₂, h⟩ := Except.bind_eq_ok.mp h
  have ⟨hn, _⟩ := accumulated h₁ h₂
  have h₁ := Except.foldlM_induction (fun _ net => (net.map (·.2)).sum = 0) h₁ rfl
    fun _ _ _ _ hs h => (sum_addShare h).trans hs
  have h₂ := Except.foldlM_induction (fun _ net => (net.map (·.2)).sum = 0) h₂ h₁
    fun _ _ _ _ hs h => (sum_addSettlement h).trans hs
  exact ⟨net₂, h, hn, h₂⟩

-- The balance sheet of an asset.
def sheetOf (sheets : List AssetNetBalances) (key : String) : List NetBalance :=
  (sheets.find? fun g => balanceAssetKey g.assetCode g.assetIssuer = key).elim [] (·.balances)

theorem netOf_sheetOf (sheets : List AssetNetBalances) (k u : String) :
    netOf (sheetOf sheets k) u = assetNetOf sheets k u := by
  rw [assetNetOf, sheetOf]
  split
  case h_1 h => rw [h, Option.elim]
  case h_2 h => rw [h, Option.elim]; rfl

theorem sheetOf_balanced (h : ∀ g ∈ sheets, ∃ net, Balanced g.balances net) (k : String) :
    ∃ net, Balanced (sheetOf sheets k) net := by
  rw [sheetOf]
  cases hg : sheets.find? fun g => balanceAssetKey g.assetCode g.assetIssuer = k with
  | none   => exact ⟨[], .nil⟩
  | some g => exact h g (List.mem_of_find?_eq_some hg)

theorem computeNetBalancesByAsset_balanced {R : Registry}
    (h : computeNetBalancesByAsset R shares settlements = .ok sheets) :
    ∀ g ∈ sheets, ∃ net, Balanced g.balances net := by
  have ⟨_, _, h⟩ := Except.bind_eq_ok.mp h
  have ⟨_, _, h⟩ := Except.bind_eq_ok.mp h
  have ⟨all, hm, h⟩ := Except.bind_eq_ok.mp h
  intro g hg
  rw [← Except.pure_eq_ok.mp h] at hg
  have ⟨_, _, hb⟩ := Except.mem_of_mapM hm (List.mem_filter.mp hg).1
  have ⟨_, hb, h⟩ := Except.bind_eq_ok.mp hb
  rw [← Except.pure_eq_ok.mp h]
  exact computeNetBalances_balanced hb

-- The row of a suggestion that has been followed.
def Suggestion.confirmed (s : Suggestion) : SettlementRow where
  fromUserId := s.fromUserId
  toUserId   := s.toUserId
  amount     := s.amount
  confirmed  := true

structure Suggestion.Between (debtors creditors : List (String × Int)) (s : Suggestion) : Prop where
  positive : ∃ n, toStroops s.amount = .ok n ∧ 0 < n
  source   : s.fromUserId ∈ debtors.map (·.1)
  target   : s.toUserId ∈ creditors.map (·.1)

variable {debtors creditors : List (String × Int)} {d c : String × Int} {ds cs : List (String × Int)}

theorem mem_reduced {p : String × Int} {l : List (String × Int)} {t : Int} {u : String}
    (h : u ∈ (reduced p l t).map (·.1)) : u ∈ (p :: l).map (·.1) := by
  rw [reduced] at h
  split at h
  case isTrue  => exact List.mem_cons_of_mem _ h
  case isFalse => exact h

theorem Suggestion.Between.of_reduced {s : Suggestion}
    (h : s.Between (reduced d ds t) (reduced c cs t)) : s.Between (d :: ds) (c :: cs) where
  positive := h.positive
  source   := mem_reduced h.source
  target   := mem_reduced h.target

theorem toStroops_of_pos (h : 0 < stroops t) : ∃ n, toStroops t = .ok n ∧ 0 < n := by
  cases ht : toStroops t with
  | ok n    => exact ⟨n, rfl, stroops_eq ht ▸ h⟩
  | error _ => simp [stroops, ht] at h

-- One round of the loop.
theorem suggestTransfers_cons (hd : Payable (d :: ds)) (hc : Payable (c :: cs))
    (h : suggestTransfers (d :: ds) (c :: cs) = .ok l) : ∃ t l', l = ⟨d.1, c.1, t⟩ :: l' ∧
      (∃ n, toStroops t = .ok n ∧ 0 < n) ∧
      suggestTransfers (reduced d ds (smaller d.2 c.2)) (reduced c cs (smaller d.2 c.2)) = .ok l' ∧
      Payable (reduced d ds (smaller d.2 c.2)) ∧ Payable (reduced c cs (smaller d.2 c.2)) := by
  obtain ⟨hdp, _⟩ := List.forall_mem_cons.mp hd
  obtain ⟨hcp, _⟩ := List.forall_mem_cons.mp hc
  obtain ⟨h₀, h₁, h₂⟩ := smaller_bounds hdp.1 hcp.1
  obtain ⟨t, ht, hn⟩ := suggest_eq_ok (d := d.1) (c := c.1) h₀ (h₁.trans hdp.2)
  rw [suggestTransfers, ht] at h
  obtain ⟨_, hl, h⟩ := Except.bind_eq_ok.mp h
  obtain rfl := Except.ok.inj hl
  obtain ⟨l', hl, h⟩ := Except.bind_eq_ok.mp h
  exact ⟨t, l', (Except.ok.inj h).symm, toStroops_of_pos (hn ▸ h₀), hl, hd.reduced h₀.le h₁, hc.reduced h₀.le h₂⟩

theorem suggestTransfers_between (hd : Payable debtors) (hc : Payable creditors) :
    ∀ l, suggestTransfers debtors creditors = .ok l → ∀ s ∈ l, s.Between debtors creditors := by
  induction debtors, creditors using suggestTransfers.induct with
  | case1 d ds c cs transfer hi =>
    intro l h
    obtain ⟨t, l', rfl, ht, hl, hd, hc⟩ := suggestTransfers_cons hd hc h
    refine List.forall_mem_cons.mpr ⟨⟨ht, by simp, by simp⟩, fun s hs => ?_⟩
    exact (hi hd hc l' hl s hs).of_reduced
  | case2 debtors creditors hn =>
    intro l h
    have hl : suggestTransfers debtors creditors = .ok [] := by
      rw [suggestTransfers]
      exacts [rfl, hn]
    obtain rfl := Except.ok.inj (hl.symm.trans h)
    exact List.forall_mem_nil _

-- Every transfer uses up a debtor or a creditor, and the last one uses up both.
theorem length_suggestTransfers (hd : Payable debtors) (hc : Payable creditors) :
    ∀ l, suggestTransfers debtors creditors = .ok l → l.length ≤ debtors.length + creditors.length - 1 := by
  induction debtors, creditors using suggestTransfers.induct with
  | case1 d ds c cs transfer hi =>
    intro l h
    obtain ⟨t, l', rfl, _, hl, hd, hc⟩ := suggestTransfers_cons hd hc h
    have hlen : l'.length ≤ (reduced d ds (smaller d.2 c.2)).length +
        (reduced c cs (smaller d.2 c.2)).length - 1 := hi hd hc l' hl
    have hlt : (reduced d ds (smaller d.2 c.2)).length + (reduced c cs (smaller d.2 c.2)).length <
        (ds.length + 1) + (cs.length + 1) := length_reduced_smaller
    simp only [List.length_cons]
    omega
  | case2 debtors creditors hn =>
    intro l h
    have hl : suggestTransfers debtors creditors = .ok [] := by
      rw [suggestTransfers]
      exacts [rfl, hn]
    obtain rfl := Except.ok.inj (hl.symm.trans h)
    exact Nat.zero_le _

-- The parties of a map

variable {net : Net} {balances : List NetBalance} {u : String}

theorem value_of_debtor (hn : (OrderedMap.keys net).Nodup) (h : u ∈ (debtorsOf net).map (·.1)) :
    net.value u < 0 := by
  have ⟨_, hp, hu⟩ := List.mem_map.mp h
  have ⟨(k, n), he, hp⟩ := List.mem_map.mp hp
  have ⟨he, hlt⟩ := List.mem_filter.mp he
  subst hp
  rw [← hu, Net.value, OrderedMap.get?_of_mem hn he]
  exact of_decide_eq_true hlt

theorem value_of_creditor (hn : (OrderedMap.keys net).Nodup) (h : u ∈ (creditorsOf net).map (·.1)) :
    0 < net.value u := by
  have ⟨(k, n), hp, hu⟩ := List.mem_map.mp h
  have ⟨he, hlt⟩ := List.mem_filter.mp hp
  rw [← hu, Net.value, OrderedMap.get?_of_mem hn he]
  exact of_decide_eq_true hlt

theorem length_parties (net : Net) :
    (debtorsOf net).length + (creditorsOf net).length = net.countP fun e => e.2 ≠ 0 := by
  induction net with
  | nil          => rfl
  | cons e net hi =>
    simp only [debtorsOf, creditorsOf, List.length_map] at hi ⊢
    rw [List.countP_cons, ← hi]
    rcases lt_trichotomy e.2 0 with h | h | h
    · simp [h, h.ne, h.le]
      omega
    · simp [h]
    · simp [h, h.ne', h.le]
      omega

-- What is known of the suggestions, in whatever order the parties are.
theorem suggestSettlements_parties (sort : Sorting) (h : net.mapM toNetBalance = .ok balances)
    (hl : suggestSettlements sort balances = .ok l) :
    (∀ s ∈ l, s.Between (debtorsOf net) (creditorsOf net)) ∧
      l.length ≤ (debtorsOf net).length + (creditorsOf net).length - 1 := by
  have ⟨hd, hc⟩ := payable_parties h
  rw [suggestSettlements, foldlM_pushBalance h] at hl
  have hd' := sort.perm (debtorsOf net)
  have hc' := sort.perm (creditorsOf net)
  constructor
  case left =>
    intro s hs
    have hb := suggestTransfers_between (sort.payable hd) (sort.payable hc) l hl s hs
    exact ⟨hb.positive, (hd'.map _).mem_iff.mp hb.source, (hc'.map _).mem_iff.mp hb.target⟩
  case right =>
    rw [← hd'.length_eq, ← hc'.length_eq]
    exact length_suggestTransfers (sort.payable hd) (sort.payable hc) l hl

-- What the confirmed suggestions add to the net of a user.
theorem sum_confirmed (l : List Suggestion) (u : String) :
    ((l.map (·.confirmed)).map (·.delta u)).sum = outgoing u l - incoming u l := by
  rw [List.map_map]
  refine sum_eq_total_sub fun s _ => ?_
  simp [SettlementRow.delta, Suggestion.confirmed, eq_comm (a := u)]

-- The nets are settled if all of them are zero.
theorem isAllSettled_of_value (h : net.mapM toNetBalance = .ok balances) (hz : ∀ e ∈ net, e.2 = 0) :
    isAllSettled balances = .ok true := by
  replace h := Except.mapM_forall₂ h
  induction h with
  | nil => rfl
  | cons hd _ hi =>
    have ⟨he, hz⟩ := List.forall_mem_cons.mp hz
    have ⟨_, ht, _⟩ := toNetBalance_eq_ok hd
    rw [he] at ht
    simp only [isAllSettled, List.allM, ht] at hi ⊢
    exact hi hz

end Mergepay.Balance
