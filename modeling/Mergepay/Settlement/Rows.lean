import Mergepay.Settlement.Execution

namespace Mergepay

open Table

namespace World

variable {w : World}

-- Identifiers are unique and have all been allocated, and a hash occurs in the ledger at most once.
-- References lead to existing rows.
structure WellFormed (w : World) : Prop where
  settlements : (w.settlements.map (·.id)).Nodup
  shares      : (w.shares.map (·.id)).Nodup
  expenses    : (w.expenses.map (·.id)).Nodup
  ledger      : (w.ledger.map (·.hash)).Nodup
  allocated   : ∀ i, i ∈ w.settlements.map (·.id) ∨ i ∈ w.shares.map (·.id) ∨
    i ∈ w.expenses.map (·.id) → i ∈ w.allocated
  links       : ∀ s ∈ w.settlements, ∀ i, s.expenseShareId = some i → (w.share i).isSome
  owners      : ∀ s ∈ w.shares, (w.expense s.expenseId).isSome

section Lookup

@[simp]
theorem settlement_allocate : (w.allocate ids).settlement i = w.settlement i :=
  rfl

@[simp]
theorem settlement_setShareStatus : (w.setShareStatus j st).settlement i = w.settlement i :=
  rfl

@[simp]
theorem settlement_apply : (w.apply h r b).settlement i = w.settlement i :=
  rfl

@[simp]
theorem settlement_insertExpense : (w.insertExpense e l n ids).settlement i = w.settlement i :=
  rfl

theorem settlement_patchSettlements (p : Settlement → Bool) (d : Patch) (i : String) :
    (w.patchSettlements p d).settlement i =
      (w.settlement i).map fun s => if p s then s.patch d w.now else s :=
  row?_update (k := Settlement.id) (f := (·.patch d w.now)) (fun _ => rfl) i

theorem settlement_removeExpense (e i : String) :
    (w.removeExpense e).settlement i = (w.settlement i).map fun s =>
      if s.expenseShareId.any fun i => i ∈ (w.sharesOf e).map (·.id) then s.unlink else s :=
  row?_update (k := Settlement.id) (f := Settlement.unlink) (fun _ => rfl) i

@[simp]
theorem share_allocate : (w.allocate ids).share i = w.share i :=
  rfl

@[simp]
theorem share_patchSettlements : (w.patchSettlements p d).share i = w.share i :=
  rfl

@[simp]
theorem share_insertSettlement : (w.insertSettlement s n).share i = w.share i :=
  rfl

@[simp]
theorem share_apply : (w.apply h r b).share i = w.share i :=
  rfl

theorem share_setShareStatus (j : String) (status : ShareStatus) (i : String) :
    (w.setShareStatus j status).share i =
      (w.share i).map fun s => if s.id = j then s.setStatus status else s := by
  have h := row?_update (k := ExpenseShare.id) (l := w.shares) (p := (·.id = j))
    (f := (·.setStatus status)) (fun _ => rfl) i
  simp only [decide_eq_true_eq] at h
  exact h

theorem share_isSome_setShareStatus :
    ((w.setShareStatus j status).share i).isSome = (w.share i).isSome := by
  rw [share_setShareStatus, Option.isSome_map]

theorem share_isSome_insertExpense (h : (w.share i).isSome) :
    ((w.insertExpense e l n ids).share i).isSome := by
  simp only [World.share, row?, World.insertExpense, List.find?_append] at h ⊢
  rw [Option.isSome_or, h, Bool.true_or]

theorem share_isSome_removeExpense (h : (w.share i).isSome)
    (hi : i ∉ (w.sharesOf e).map (·.id)) : ((w.removeExpense e).share i).isSome := by
  have ⟨s, hs⟩ := Option.isSome_iff_exists.mp h
  have he : s.expenseId ≠ e := by
    intro he
    refine hi <| key_of_row? hs ▸ List.mem_map_of_mem ?_
    exact List.mem_filter.mpr ⟨mem_of_row? hs, by simpa using he⟩
  have hm : s ∈ (w.removeExpense e).shares := List.mem_filter.mpr ⟨mem_of_row? hs, by simpa using he⟩
  have ⟨b, hb⟩ := row?_isSome_of_mem (k := ExpenseShare.id) hm
  rw [key_of_row? hs] at hb
  exact Option.isSome_iff_exists.mpr ⟨b, hb⟩

theorem expense_isSome_insertExpense (h : (w.expense i).isSome) :
    ((w.insertExpense e l n k).expense i).isSome := by
  simp only [World.expense, row?, World.insertExpense, List.find?_append] at h ⊢
  rw [Option.isSome_or, h, Bool.true_or]

theorem expense_insertExpense_self (h : w.expense n = none) :
    (w.insertExpense e l n k).expense n = some { e with id := n, createdAt := w.now } := by
  simp only [World.expense, row?, World.insertExpense, List.find?_append] at h ⊢
  simp [h]

theorem expense_isSome_self : ((w.insertExpense e l n k).expense n).isSome := by
  simp [World.expense, row?, World.insertExpense]

theorem expense_isSome_removeExpense (h : (w.expense i).isSome) (hi : i ≠ e) :
    ((w.removeExpense e).expense i).isSome := by
  have ⟨s, hs⟩ := Option.isSome_iff_exists.mp h
  have hk := key_of_row? hs
  have hm : s ∈ (w.removeExpense e).expenses :=
    List.mem_filter.mpr ⟨mem_of_row? hs, by simpa [hk] using hi⟩
  have ⟨b, hb⟩ := row?_isSome_of_mem (k := Expense.id) hm
  rw [hk] at hb
  exact Option.isSome_iff_exists.mpr ⟨b, hb⟩

end Lookup

namespace WellFormed

theorem not_mem_settlements (h : w.WellFormed) (hf : w.Fresh ids) (hn : n ∈ ids) :
    n ∉ w.settlements.map (·.id) :=
  fun hm => hf.2 n hn <| h.allocated n (.inl hm)

theorem settlement_fresh (h : w.WellFormed) (hf : w.Fresh ids) (hn : n ∈ ids) :
    w.settlement n = none := by
  refine Option.eq_none_iff_forall_ne_some.mpr fun s hs => ?_
  have hm := List.mem_map_of_mem (f := Settlement.id) (mem_of_row? hs)
  rw [key_of_row? hs] at hm
  exact h.not_mem_settlements hf hn hm

theorem expense_fresh (h : w.WellFormed) (hf : w.Fresh ids) (hn : n ∈ ids) :
    w.expense n = none := by
  refine Option.eq_none_iff_forall_ne_some.mpr fun e he => hf.2 n hn <| h.allocated n ?_
  exact .inr <| .inr <| key_of_row? he ▸ List.mem_map_of_mem (mem_of_row? he)

theorem not_mem_shares (h : w.WellFormed) (hf : w.Fresh ids) (hn : n ∈ ids) :
    n ∉ w.shares.map (·.id) :=
  fun hm => hf.2 n hn <| h.allocated n (.inr <| .inl hm)

theorem not_mem_expenses (h : w.WellFormed) (hf : w.Fresh ids) (hn : n ∈ ids) :
    n ∉ w.expenses.map (·.id) :=
  fun hm => hf.2 n hn <| h.allocated n (.inr <| .inr hm)

theorem settlement_insertSettlement (h : w.WellFormed) (hf : w.Fresh [n]) (s : Settlement)
    (i : String) :
    (w.insertSettlement s n).settlement i =
      if i = n then some (w.newSettlement s n) else w.settlement i :=
  row?_append (h.not_mem_settlements hf List.mem_cons_self) i

theorem settlement_of_mem (h : w.WellFormed) (hs : s ∈ w.settlements) : w.settlement s.id = some s :=
  row?_of_mem h.settlements hs

theorem allocated_of_share (h : w.WellFormed) (hi : (w.share i).isSome) : i ∈ w.allocated := by
  have ⟨s, hs⟩ := Option.isSome_iff_exists.mp hi
  exact h.allocated i <| .inr <| .inl <| key_of_row? hs ▸ List.mem_map_of_mem (mem_of_row? hs)

theorem allocated_of_expense (h : w.WellFormed) (hi : (w.expense i).isSome) : i ∈ w.allocated := by
  have ⟨e, he⟩ := Option.isSome_iff_exists.mp hi
  exact h.allocated i <| .inr <| .inr <| key_of_row? he ▸ List.mem_map_of_mem (mem_of_row? he)

theorem share_of_mem (h : w.WellFormed) (hs : s ∈ w.shares) : w.share s.id = some s :=
  row?_of_mem h.shares hs

theorem share_removeExpense (h : w.WellFormed) (hi : i ∈ (w.sharesOf e).map (·.id)) :
    (w.removeExpense e).share i = none := by
  refine Option.eq_none_iff_forall_ne_some.mpr fun s hs => ?_
  have ⟨s', hs', hi⟩ := List.mem_map.mp hi
  have ⟨hs', he'⟩ := List.mem_filter.mp hs'
  have ⟨hs₁, he⟩ := List.mem_filter.mp (mem_of_row? hs)
  have hk := hi.trans (key_of_row? hs).symm
  have hs := List.inj_on_of_nodup_map h.shares hs' hs₁ hk
  simp_all

theorem expense_of_mem (h : w.WellFormed) (he : e ∈ w.expenses) : w.expense e.id = some e :=
  row?_of_mem h.expenses he

theorem allocate (h : w.WellFormed) (ids : List String) : (w.allocate ids).WellFormed where
  settlements := h.settlements
  shares      := h.shares
  expenses    := h.expenses
  ledger      := h.ledger
  allocated   := fun i hi => List.mem_append_right _ (h.allocated i hi)
  links       := h.links
  owners      := h.owners

theorem patchSettlements (h : w.WellFormed) (p : Settlement → Bool) (d : Patch) :
    (w.patchSettlements p d).WellFormed := by
  have hm : (w.patchSettlements p d).settlements.map (·.id) = w.settlements.map (·.id) :=
    map_update fun _ => rfl
  refine ⟨hm ▸ h.settlements, h.shares, h.expenses, h.ledger, hm ▸ h.allocated, ?_, h.owners⟩
  intro s hs i hi
  have ⟨s₁, hs₁, hs⟩ := mem_update.mp hs
  refine h.links s₁ hs₁ i ?_
  subst hs
  split at hi <;> exact hi

theorem setShareStatus (h : w.WellFormed) (i : String) (status : ShareStatus) :
    (w.setShareStatus i status).WellFormed := by
  have hm : (w.setShareStatus i status).shares.map (·.id) = w.shares.map (·.id) :=
    map_update fun _ => rfl
  refine ⟨h.settlements, hm ▸ h.shares, h.expenses, h.ledger, hm ▸ h.allocated, ?_, ?_⟩
  case refine_1 =>
    intro s hs k hk
    rw [share_isSome_setShareStatus]
    exact h.links s hs k hk
  case refine_2 =>
    intro s hs
    have ⟨s₁, hs₁, hs⟩ := mem_update.mp hs
    have ho := h.owners s₁ hs₁
    subst hs
    split <;> exact ho

theorem removeExpense (h : w.WellFormed) (e : String) : (w.removeExpense e).WellFormed := by
  have hm : (w.removeExpense e).settlements.map (·.id) = w.settlements.map (·.id) :=
    map_update fun _ => rfl
  have hs : ((w.removeExpense e).shares.map (·.id)).Sublist (w.shares.map (·.id)) :=
    List.filter_sublist.map _
  have he : ((w.removeExpense e).expenses.map (·.id)).Sublist (w.expenses.map (·.id)) :=
    List.filter_sublist.map _
  refine ⟨hm ▸ h.settlements, hs.nodup h.shares, he.nodup h.expenses, h.ledger, fun i hi => ?_, ?_, ?_⟩
  case refine_1 => exact h.allocated i <| hi.imp (hm ▸ ·) <| Or.imp (hs.subset ·) (he.subset ·)
  case refine_2 =>
    intro s hs i hi
    have ⟨s₁, hs₁, hs⟩ := mem_update.mp hs
    subst hs
    split at hi
    case isTrue => contradiction
    case isFalse hu =>
      refine share_isSome_removeExpense (h.links s₁ hs₁ i hi) ?_
      simpa [hi] using hu
  case refine_3 =>
    intro s hs
    have ⟨hs, hn⟩ := List.mem_filter.mp hs
    exact expense_isSome_removeExpense (h.owners s hs) (by simpa using hn)

theorem insertSettlement (h : w.WellFormed) (hf : w.Fresh [n]) (s : Settlement)
    (hl : ∀ i, s.expenseShareId = some i → (w.share i).isSome) :
    ((w.insertSettlement s n).allocate [n]).WellFormed where
  settlements := by
    have hn := h.not_mem_settlements hf List.mem_cons_self
    simpa [World.insertSettlement, World.allocate, World.newSettlement] using
      List.concat_eq_append ▸ h.settlements.concat hn
  shares      := h.shares
  expenses    := h.expenses
  ledger      := h.ledger
  allocated   := fun i hi => by
    simp only [World.insertSettlement, World.allocate, World.newSettlement, List.map_append,
      List.map_cons, List.map_nil, List.mem_append, List.mem_singleton] at hi ⊢
    rcases hi with (hi | hi) | hi
    · exact .inr <| h.allocated i (.inl hi)
    · exact .inl hi
    · exact .inr <| h.allocated i (.inr hi)
  links       := fun s' hs i hi => by
    rcases List.mem_append.mp hs with hs | hs
    case inl => exact h.links s' hs i hi
    case inr =>
      rw [List.mem_singleton.mp hs] at hi
      exact hl i hi
  owners      := h.owners

-- The payer's own share is settled from the beginning, and no other one.
theorem of_mem_newShares {l : List (String × Int)} (h : s ∈ List.zipWith (newShare e p) ids l) :
    s.expenseId = e ∧ (s.status = .settled → s.userId = p) := by
  have ⟨k, hk, h⟩ := List.mem_iff_getElem.mp h
  rw [← h, List.getElem_zipWith]
  exact ⟨rfl, fun hs => by simpa [newShare] using hs⟩

theorem ids_newShares {l : List (String × Int)} (h : ids.length = l.length) (e p : String) :
    (List.zipWith (newShare e p) ids l).map (·.id) = ids := by
  rw [List.map_zipWith]
  induction ids generalizing l
  case nil => rfl
  case cons hd tl hi =>
    cases l
    case nil => contradiction
    case cons =>
      rw [List.zipWith_cons_cons, hi (Nat.succ.inj h)]
      rfl

theorem insertExpense {l : List (String × Int)} (h : w.WellFormed) (hf : w.Fresh (n :: ids))
    (hl : ids.length = l.length) (e : Expense) :
    ((w.insertExpense e l n ids).allocate (n :: ids)).WellFormed := by
  have hs : (w.insertExpense e l n ids).shares.map (·.id) = w.shares.map (·.id) ++ ids := by
    refine List.map_append.trans ?_
    rw [ids_newShares hl n e.payerUserId]
  have he : (w.insertExpense e l n ids).expenses.map (·.id) = w.expenses.map (·.id) ++ [n] :=
    List.map_append
  refine ⟨h.settlements, ?_, ?_, h.ledger, fun i hi => ?_, fun s hs i hi => ?_, fun s hs => ?_⟩
  case refine_1 =>
    refine hs ▸ List.nodup_append.mpr ⟨h.shares, (List.nodup_cons.mp hf.1).2, ?_⟩
    rintro a ha b hb rfl
    exact h.not_mem_shares hf (List.mem_cons_of_mem _ hb) ha
  case refine_2 =>
    have hn := h.not_mem_expenses hf List.mem_cons_self
    exact he ▸ List.concat_eq_append ▸ h.expenses.concat hn
  case refine_3 =>
    simp only [World.allocate, hs, he, List.mem_append, List.mem_cons, List.not_mem_nil,
      or_false] at hi ⊢
    rcases hi with hi | (hi | hi) | (hi | hi)
    · exact .inr <| h.allocated i (.inl hi)
    · exact .inr <| h.allocated i (.inr <| .inl hi)
    · exact .inl <| .inr hi
    · exact .inr <| h.allocated i (.inr <| .inr hi)
    · exact .inl <| .inl hi
  case refine_4 => exact share_isSome_insertExpense (h.links s hs i hi)
  case refine_5 =>
    rcases List.mem_append.mp hs with hs | hs
    case inl => exact expense_isSome_insertExpense (l := l) (k := ids) (h.owners s hs)
    case inr =>
      rw [(of_mem_newShares hs).1]
      exact expense_isSome_self (l := l) (k := ids)

theorem apply {r : TransactionRecord} (h : w.WellFormed) (hn : w.transaction k = none) :
    (w.apply k r b).WellFormed where
  settlements := h.settlements
  shares      := h.shares
  expenses    := h.expenses
  ledger      := by
    have hn : k ∉ w.ledger.map (·.hash) := by
      intro hk
      have ⟨t, ht, hk⟩ := List.mem_map.mp hk
      have ⟨t', ht'⟩ := row?_isSome_of_mem (k := LedgerTransaction.hash) ht
      simp [← hk, World.transaction, ht'] at hn
    simpa [World.apply] using List.concat_eq_append ▸ h.ledger.concat hn
  allocated   := h.allocated
  links       := h.links
  owners      := h.owners

end WellFormed
end World

open World in
theorem Effect.wellFormed (h : Effect D w a w') (hw : w.WellFormed) : w'.WellFormed := by
  cases h
  case none                   => exact hw
  case allocate               => exact hw.allocate _
  case createExpense hf hl    => exact hw.insertExpense hf hl _
  case deleteExpense          => exact hw.removeExpense _
  case createLinked hf hi hx _ =>
    exact (hw.insertSettlement hf _ fun _ h => Option.some.inj (hi.symm.trans h) ▸ hx).setShareStatus _ _
  case createFreeform hf hi _ => exact hw.insertSettlement hf _ fun _ h => by simp [hi] at h
  case transition             => exact hw.patchSettlements _ _
  case settle                 => exact (hw.patchSettlements _ _).setShareStatus _ _
  case update                 => exact hw.patchSettlements _ _
  case settleShare            => exact hw.setShareStatus _ _
  case submit hn              => exact hw.apply hn

theorem Deps.env_wellFormed {D : Deps} (h : D.env e w = some w') (hw : w.WellFormed) :
    w'.WellFormed := by
  cases e <;> simp only [Deps.env] at h
  case tick =>
    split at h
    case isTrue  => exact Option.some.inj h ▸ ⟨hw.1, hw.2, hw.3, hw.4, hw.5, hw.6, hw.7⟩
    case isFalse => contradiction
  case join  => exact Option.some.inj h ▸ ⟨hw.1, hw.2, hw.3, hw.4, hw.5, hw.6, hw.7⟩
  case leave => exact Option.some.inj h ▸ ⟨hw.1, hw.2, hw.3, hw.4, hw.5, hw.6, hw.7⟩
  case apply =>
    split at h
    case isTrue     => contradiction
    case isFalse hn => exact Option.some.inj h ▸ hw.apply (by simpa using hn)

end Mergepay
