import Mergepay.Balance.Suggestion

namespace Mergepay

open Money

namespace Balance

-- Transfers from those who owe to those who are owed.
structure Simplifies (balances : List NetBalance) (transfers : List Suggestion) : Prop where
  positive : ∀ s ∈ transfers, ∃ n, toStroops s.amount = .ok n ∧ 0 < n
  source   : ∀ s ∈ transfers, netOf balances s.fromUserId < 0
  target   : ∀ s ∈ transfers, 0 < netOf balances s.toUserId
  few      : transfers.length ≤ balances.countP (fun b => stroops b.net ≠ 0) - 1
  apart    : ∀ s₁ ∈ transfers, ∀ s₂ ∈ transfers, s₁.fromUserId ≠ s₂.toUserId

-- Readable balances of different users which add up to zero.
structure ZeroSum (balances : List NetBalance) : Prop where
  readable : ∀ b ∈ balances, ∃ n, toStroops b.net = .ok n
  users    : (balances.map (·.userId)).Nodup
  sum      : (balances.map fun b => stroops b.net).sum = 0

variable {net : Net} {balances : List NetBalance}

theorem map_stroops (h : net.mapM toNetBalance = .ok balances) :
    balances.map (fun b => stroops b.net) = net.map (·.2) :=
  Except.map_of_mapM h fun _ _ hb => stroops_eq (toNetBalance_eq_ok hb).2.1

theorem Balanced.zeroSum (h : Balanced balances net) : ZeroSum balances where
  readable := by
    intro b hb
    have ⟨e, _, hb⟩ := Except.mem_of_mapM h.rendered hb
    exact ⟨e.2, (toNetBalance_eq_ok hb).2.1⟩
  users    := by
    have hu : balances.map (·.userId) = net.map (·.1) :=
      Except.map_of_mapM h.rendered fun _ _ hb => (toNetBalance_eq_ok hb).1
    exact hu ▸ h.nodup
  sum      := map_stroops h.rendered ▸ h.sum

theorem Balanced.simplifies (h : Balanced balances net) (sort : Sorting)
    (hl : suggestSettlements sort balances = .ok l) : Simplifies balances l := by
  have ⟨hb, hlen⟩ := suggestSettlements_parties sort h.rendered hl
  have hs : ∀ s ∈ l, net.value s.fromUserId < 0 := fun s hs => value_of_debtor h.nodup (hb s hs).source
  have ht : ∀ s ∈ l, 0 < net.value s.toUserId := fun s hs => value_of_creditor h.nodup (hb s hs).target
  constructor
  case positive => exact fun s hs => (hb s hs).positive
  case source   => exact fun s hm => netOf_mapM h.rendered s.fromUserId ▸ hs s hm
  case target   => exact fun s hm => netOf_mapM h.rendered s.toUserId ▸ ht s hm
  case few =>
    have hc : balances.countP (fun b => stroops b.net ≠ 0) = net.countP fun e => e.2 ≠ 0 := by
      have hm := congrArg (List.countP (· ≠ 0)) (map_stroops h.rendered)
      rwa [List.countP_map, List.countP_map] at hm
    rwa [hc, ← length_parties]
  case apart =>
    intro s₁ h₁ s₂ h₂ he
    have hs := hs s₁ h₁
    have ht := ht s₂ h₂
    rw [he] at hs
    omega

-- A sheet of which all nets are zero can be computed, and is settled.
theorem isAllSettled_of_zero {shares : List ShareRow} {settlements : List SettlementRow}
    (hs : ∀ s ∈ shares, s.Counts → ∃ n, toStroops s.shareAmount = .ok n)
    (hst : ∀ st ∈ settlements, st.Counts → ∃ n, toStroops st.amount = .ok n)
    (hz : ∀ u, (shares.map (·.delta u)).sum + (settlements.map (·.delta u)).sum = 0) :
    ∃ balances, computeNetBalances shares settlements = .ok balances ∧ isAllSettled balances = .ok true := by
  have ⟨balances, h⟩ := computeNetBalances_isOk_iff.mpr ⟨hs, hst, fun u => by rw [hz u]; decide⟩
  refine ⟨balances, h, ?_⟩
  have ⟨net, hb⟩ := computeNetBalances_balanced h
  refine isAllSettled_of_value hb.rendered fun e he => ?_
  have hv : net.value e.1 = e.2 := by
    rw [Net.value, OrderedMap.get?_of_mem hb.nodup he, Option.getD_some]
  rw [← hv, ← netOf_mapM hb.rendered, computeNetBalances_net h, hz]

end Balance

theorem settle_up (sort : Balance.Sorting) (shares : List Balance.ShareRow)
    (settlements : List Balance.SettlementRow) (balances : List Balance.NetBalance)
    (h : Balance.computeNetBalances shares settlements = .ok balances) :
    Balance.ZeroSum balances ∧
    ∃ transfers, Balance.suggestSettlements sort balances = .ok transfers ∧
      Balance.Simplifies balances transfers ∧
      ∃ balances', Balance.computeNetBalances shares (settlements ++ transfers.map (·.confirmed)) =
        .ok balances' ∧ Balance.isAllSettled balances' = .ok true := by
  have ⟨net, hb⟩ := Balance.computeNetBalances_balanced h
  have ⟨transfers, hl, hu⟩ := hb.settles sort
  have hs := hb.simplifies sort hl
  refine ⟨hb.zeroSum, transfers, hl, hs, ?_⟩
  have ⟨hr, hrt⟩ := Balance.computeNetBalances_read h
  refine Balance.isAllSettled_of_zero hr (fun st hst hc => ?_) fun u => ?_
  case refine_1 =>
    cases List.mem_append.mp hst with
    | inl hst => exact hrt st hst hc
    | inr hst =>
      have ⟨s, hm, he⟩ := List.mem_map.mp hst
      have ⟨n, hn, _⟩ := hs.positive s hm
      exact ⟨n, he ▸ hn⟩
  case refine_2 =>
    have hu := hu u
    rw [Balance.computeNetBalances_net h u] at hu
    rw [List.map_append, List.sum_append, Balance.sum_confirmed]
    omega

theorem settle_up_sample :
    Balance.computeNetBalances [⟨"ann", "bob", "10", false⟩, ⟨"ann", "carol", "5.5", false⟩]
      [⟨"bob", "ann", "4", true⟩] = .ok [⟨"ann", "11.5"⟩, ⟨"bob", "-6"⟩, ⟨"carol", "-5.5"⟩] ∧
    Balance.ZeroSum [⟨"ann", "11.5"⟩, ⟨"bob", "-6"⟩, ⟨"carol", "-5.5"⟩] :=
  have h : Balance.computeNetBalances [⟨"ann", "bob", "10", false⟩, ⟨"ann", "carol", "5.5", false⟩]
      [⟨"bob", "ann", "4", true⟩] = .ok [⟨"ann", "11.5"⟩, ⟨"bob", "-6"⟩, ⟨"carol", "-5.5"⟩] := by
    decide +kernel
  ⟨h, (settle_up ⟨id, .refl⟩ _ _ _ h).1⟩

end Mergepay
