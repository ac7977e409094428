import Mergepay.Balance.Group
import Mergepay.Settlement.Runs

namespace Mergepay

open Concurrency Table World

-- In the group, debts are only settled by settlements that are not linked to a share.
def SettlesFreely (g : String) : Act → World → Prop
  | .createExpense e _, _ => e.groupId ≠ g
  | .deleteExpense i, w   => ∀ e ∈ w.expense i, e.groupId ≠ g
  | .createLinked s _, _  => s.groupId ≠ g
  | _, _                  => True

-- The amount is covered by what the settlements that have not failed leave of the debt.
def World.Covers (w : World) (s : Settlement) : Prop :=
  w.pledged s.groupId s.fromUserId s.toUserId - w.pledged s.groupId s.toUserId s.fromUserId + s.amount ≤
    w.debt s.groupId s.fromUserId s.toUserId

-- A settlement is inserted while all that counts has been read by the same transaction, or while it is
-- covered anyway. A failed settlement only comes back while it is covered.
def Serial (g : String) : Act → World → Prop
  | .createFreeform s reads, w => s.groupId = g →
    (∀ s' ∈ w.limitSettlements g s.fromUserId s.toUserId, ∃ r ∈ reads.settlements, r.id = s'.id) ∨
    w.Covers s
  | .update u, w => ∀ s ∈ w.settlements, u.applies s → s.groupId = g → s.status = .failed →
    (s.patch u.data w.now).status ≠ .failed → w.Covers s
  | _, _ => True

abbrev WithinLimit (g : String) (a : Act) (w : World) : Prop :=
  SettlesFreely g a w ∧ Serial g a w

instance (a : Act) (w : World) : Decidable (SettlesFreely g a w) := by
  induction a using Act.casesOn with
  | createExpense e _ => exact inferInstanceAs (Decidable (e.groupId ≠ g))
  | deleteExpense i   => exact inferInstanceAs (Decidable (∀ e ∈ w.expense i, e.groupId ≠ g))
  | createLinked s _  => exact inferInstanceAs (Decidable (s.groupId ≠ g))
  | _                 => exact inferInstanceAs (Decidable True)

instance : Decidable (World.Covers w s) :=
  inferInstanceAs (Decidable (_ ≤ _))

instance : (a : Act) → (w : World) → Decidable (Serial g a w) := by
  unfold Serial
  intro a w
  split <;> infer_instance

-- No settlement is linked to a share of the group.
def World.Unlinked (w : World) (g : String) : Prop :=
  ∀ j s i x e, w.settlement j = some s → s.expenseShareId = some i → w.share i = some x →
    w.expense x.expenseId = some e → e.groupId ≠ g

-- Between two users, all settlements go from the debtor to the creditor, and do not exceed the debt.
structure World.Limited (w : World) (g : String) (l : List (Expense × ExpenseShare)) : Prop where
  bills    : w.bills g = l
  unlinked : w.Unlinked g
  positive : ∀ s ∈ w.settlements, s.groupId = g → 0 < s.amount
  bound    : ∀ i j, i ≠ j → 0 ≤ debtOf i j l → w.pledged g j i = 0 ∧ w.pledged g i j ≤ debtOf i j l

variable {D : Deps} {C : Act → World → Prop} {w w₁ w₂ : World} {l : List (Expense × ExpenseShare)}

theorem mem_groupSettlements {s : Settlement} :
    s ∈ w.groupSettlements g ↔ s ∈ w.settlements ∧ s.groupId = g := by
  simp [groupSettlements]

theorem World.Limited.pledged_nonneg (h : w.Limited g l) (i j : String) : 0 ≤ w.pledged g i j :=
  total_nonneg fun s hs _ =>
    have ⟨hs, hg⟩ := mem_groupSettlements.mp hs
    Int.le_of_lt (h.positive s hs hg)

theorem World.Limited.of_sameTables (ht : w.SameTables w') (h : w'.Limited g l) : w.Limited g l where
  bills    := by rw [← h.bills, bills_eq, bills_eq, ht.expenses]; simp only [sharesOf, ht.shares]
  unlinked := fun j s i x e hs hi hx he => h.unlinked j s i x e (by rwa [settlement, ht.settlements])
    hi (by rwa [share, ht.shares]) (by rwa [expense, ht.expenses])
  positive := ht.settlements ▸ h.positive
  bound    := by simpa [pledged, groupSettlements, ht.settlements] using h.bound

-- A settlement that counts has been there before, or is one of `xs`.
def World.CountedIn (w : World) (xs : List Settlement) (s' : Settlement) : Prop :=
  ∃ s ∈ xs ++ w.settlements, s.status ≠ .failed ∧ s.SameIntent s'

theorem pledged_le {xs : List Settlement} (hw : w₂.WellFormed) (hl : w₁.Limited g l)
    (hx : ∀ s ∈ xs, s.groupId = g ∧ 0 < s.amount)
    (h : ∀ s ∈ w₂.settlements, s.groupId = g → live i j s → w₁.CountedIn xs s) :
    w₂.pledged g i j ≤ transferred (live i j) xs + w₁.pledged g i j := by
  have hn : ((w₂.groupSettlements g).map (·.id)).Nodup :=
    (List.filter_sublist.map _).nodup hw.settlements
  rw [pledged, pledged, transferred, transferred, ← total_append]
  refine total_le hn (fun s hs _ => ?_) (fun s hs hp => ?_)
  case refine_1 =>
    rcases List.mem_append.mp hs with hs | hs
    case inl => exact Int.le_of_lt (hx s hs).2
    case inr =>
      obtain ⟨hs, hg⟩ := mem_groupSettlements.mp hs
      exact Int.le_of_lt (hl.positive s hs hg)
  case refine_2 =>
    obtain ⟨hs, hg⟩ := mem_groupSettlements.mp hs
    obtain ⟨s₁, hs₁, hf, hi⟩ := h s hs hg hp
    refine ⟨s₁, ?_, ?_, hi.id, hi.amount⟩
    · rw [List.mem_append] at hs₁ ⊢
      exact hs₁.imp_right fun h => mem_groupSettlements.mpr ⟨h, hi.groupId.trans hg⟩
    · simp only [live, pays, hi.fromUserId, hi.toUserId] at hp ⊢
      simp_all

theorem mem_limitSettlements {s : Settlement} : s ∈ w.limitSettlements g i j ↔
    s ∈ w.settlements ∧ s.groupId = g ∧ s.status ≠ .failed ∧ (pays i j s ∨ pays j i s) := by
  simp only [limitSettlements, List.mem_filter, mem_groupSettlements, pays, decide_eq_true_eq]
  tauto

-- If a transaction has read all that counts, then the settlement that it inserts is covered.
theorem covers_of_read {C : Act → World → Prop} {s : Settlement} {reads : LimitReads}
    (hw : w.WellFormed) (hl : w.Limited g l)
    (hd : D.DueFreeform (D.Careful C (·.Limited g l)) s reads w) (hg : s.groupId = g)
    (hr : ∀ s' ∈ w.limitSettlements g s.fromUserId s.toUserId,
      ∃ r ∈ reads.settlements, r.id = s'.id) : w.Covers s := by
  subst hg
  obtain ⟨w₀, hw₀, hx, he₀⟩ := hd.expenses
  obtain ⟨w₁, hw₁, hs, he₁⟩ := hd.settlements
  have hl₀ := Deps.of_evolves he₀ hl fun _ _ => World.Limited.of_sameTables
  have hl₁ := Deps.of_evolves he₁ hl fun _ _ => World.Limited.of_sameTables
  obtain ⟨_, hgr⟩ := Deps.grows_of_evolves he₁ hw₁
  obtain ⟨debt, hdebt, hle⟩ := hd.limit
  obtain ⟨_, hdebt⟩ := (limitDebt_eq_ok_iff hd.parties).mp hdebt
  rw [← hx, ← hs, debtOf_limitExpenses, sentOf_limitSettlements, World.debt, hl₀.bills] at hdebt
  rw [Covers, World.debt, hl.bills]
  have hp := hd.positive
  by_cases hn : 0 ≤ debtOf s.fromUserId s.toUserId l
  case pos =>
    obtain ⟨hq, _⟩ := hl.bound _ _ hd.parties hn
    obtain ⟨hq₁, _⟩ := hl₁.bound _ _ hd.parties hn
    have hle : w.pledged s.groupId s.fromUserId s.toUserId ≤
        transferred (live s.fromUserId s.toUserId) [] +
          w₁.pledged s.groupId s.fromUserId s.toUserId := by
      refine pledged_le hw hl₁ (by simp) fun s' hs' hg' hp' => ?_
      obtain ⟨hf, hp'⟩ := (Bool.and_eq_true ..).mp hp'
      obtain ⟨r, hr, hi⟩ := hr s' <| mem_limitSettlements.mpr ⟨hs', hg', by simpa using hf, .inl hp'⟩
      obtain ⟨hr, _, hf, _⟩ := mem_limitSettlements.mp <| hs ▸ hr
      obtain ⟨s₂, hs₂, hc⟩ := hgr.settlement (hw₁.settlement_of_mem hr)
      rw [hi, hw.settlement_of_mem hs'] at hs₂
      exact ⟨r, by simpa using hr, hf, Option.some.inj hs₂ ▸ hc.intent⟩
    rw [transferred, total_nil] at hle
    omega
  case neg =>
    have hn' : 0 ≤ debtOf s.toUserId s.fromUserId l := by
      rw [debtOf_swap]
      omega
    obtain ⟨hq₁, hb₁⟩ := hl₁.bound _ _ hd.parties.symm hn'
    rw [debtOf_swap] at hb₁
    omega

-- A step that adds nothing but covered settlements stays within the bound.
theorem bound_of_covers {xs : List Settlement} (hw : w₂.WellFormed) (hl : w₁.Limited g l)
    (hb : w₂.bills g = l) (hp : ∀ s ∈ w₂.settlements, s.groupId = g → 0 < s.amount)
    (hu : w₂.Unlinked g) (hx : xs.length ≤ 1)
    (hc : ∀ s ∈ xs, s.groupId = g ∧ 0 < s.amount ∧ w₁.Covers s)
    (h : ∀ s ∈ w₂.settlements, s.groupId = g → s.status ≠ .failed → w₁.CountedIn xs s) :
    w₂.Limited g l := by
  refine ⟨hb, hu, hp, fun i j hij hn => ?_⟩
  have le : ∀ i j, w₂.pledged g i j ≤ transferred (live i j) xs + w₁.pledged g i j := fun i j =>
    pledged_le hw hl (fun s hs => ⟨(hc s hs).1, (hc s hs).2.1⟩) fun s hs hg hp =>
      h s hs hg <| by simpa using ((Bool.and_eq_true ..).mp hp).1
  have hij' := le i j
  have hji' := le j i
  have h0 : 0 ≤ w₂.pledged g j i := total_nonneg fun s hs _ => by
    obtain ⟨hs, hg⟩ := mem_groupSettlements.mp hs
    exact Int.le_of_lt (hp s hs hg)
  obtain ⟨hq, hb⟩ := hl.bound i j hij hn
  cases xs with
  | nil =>
    simp only [transferred, total_nil] at hij' hji'
    omega
  | cons s tl =>
    have htl : tl = [] := List.eq_nil_of_length_eq_zero <| by simpa using hx
    subst htl
    obtain ⟨hg, hs, hc⟩ := hc s List.mem_cons_self
    simp only [Covers, hg, World.debt, hl.bills] at hc
    simp only [transferred, total_cons, total_nil] at hij' hji'
    have parties : ∀ {i j}, live i j s → s.fromUserId = i ∧ s.toUserId = j := fun h => by
      simpa [live, pays, -not_and] using ((Bool.and_eq_true ..).mp h).2
    by_cases hs₁ : live i j s
    case pos =>
      obtain ⟨hi, hj⟩ := parties hs₁
      have hs₂ : ¬live j i s := fun h => hij <| hi.symm.trans (parties h).1
      rw [hi, hj] at hc
      rw [if_pos hs₁] at hij'
      rw [if_neg hs₂] at hji'
      omega
    case neg =>
      rw [if_neg hs₁] at hij'
      by_cases hs₂ : live j i s
      case neg =>
        rw [if_neg hs₂] at hji'
        omega
      case pos =>
        -- A settlement from the creditor to the debtor is never covered.
        obtain ⟨hj, hi⟩ := parties hs₂
        rw [hi, hj, debtOf_swap] at hc
        omega

-- How the rows that count come about

theorem counted_update {xs : List Settlement} {p : Settlement → Bool} {f : Settlement → Settlement}
    (hf : ∀ s : Settlement, s.SameIntent (f s))
    (h : ∀ s ∈ w.settlements, p s → s.groupId = g → s.status = .failed → (f s).status ≠ .failed →
      f s ∈ xs) :
    ∀ s ∈ update p f w.settlements, s.groupId = g → s.status ≠ .failed → w.CountedIn xs s := by
  intro s' hs' hg hn
  have ⟨s, hs, he⟩ := mem_update.mp hs'
  split at he
  case isFalse => exact he ▸ ⟨s, List.mem_append_right _ hs, he ▸ hn, .refl s⟩
  case isTrue hp =>
    subst he
    by_cases hs' : s.status = .failed
    case neg => exact ⟨s, List.mem_append_right _ hs, hs', hf s⟩
    case pos =>
      have hm := h s hs hp ((hf s).groupId.trans hg) hs' hn
      exact ⟨f s, List.mem_append_left _ hm, hn, .refl _⟩

-- An update by which a failed settlement comes back concerns no other one.
theorem id_of_reactivated {s s' : Settlement} {now : Time} (hd : D.Due C (.update u) w) (h : u.applies s)
    (h' : u.applies s') (hf : s.status = .failed) (hn : (s.patch u.data now).status ≠ .failed) :
    s'.id = s.id := by
  cases u
  case sign         => exact (Write.sign_applies_iff.mp h').1.trans (Write.sign_applies_iff.mp h).1.symm
  case keepPending  =>
    exact (Write.keepPending_applies_iff.mp h').trans (Write.keepPending_applies_iff.mp h).symm
  case writeStatus  =>
    exact (Write.writeStatus_applies_iff.mp h').trans (Write.writeStatus_applies_iff.mp h).symm
  case expireIntent =>
    exact (Write.expireIntent_applies_iff.mp h').1.trans (Write.expireIntent_applies_iff.mp h).1.symm
  case refresh =>
    simp only [Settlement.patch_status, Write.data, hd.status, Option.getD_none] at hn
    exact absurd hf hn
  all_goals exact absurd hf hn

-- The failed settlements of a group that come back by an update.
def World.reactivated (w : World) (g : String) (u : Write) : List Settlement :=
  w.settlements.filter fun s => u.applies s ∧ s.groupId = g ∧ s.status = .failed ∧
    (s.patch u.data w.now).status ≠ .failed

theorem mem_reactivated {s : Settlement} : s ∈ w.reactivated g u ↔ s ∈ w.settlements ∧ u.applies s ∧
    s.groupId = g ∧ s.status = .failed ∧ (s.patch u.data w.now).status ≠ .failed := by
  rw [reactivated, List.mem_filter, decide_eq_true_eq]

-- A step adds at most one settlement to those that count, and only if it is covered.
theorem Deps.Move.counted (h : D.Move (D.Careful (WithinLimit g) (·.Limited g l)) w₁ w₂)
    (hw : w₁.WellFormed) (hl : w₁.Limited g l) : ∃ xs : List Settlement, xs.length ≤ 1 ∧
      (∀ s ∈ xs, s.groupId = g ∧ 0 < s.amount ∧ w₁.Covers s) ∧
      ∀ s ∈ w₂.settlements, s.groupId = g → s.status ≠ .failed → w₁.CountedIn xs s := by
  -- Without a new settlement, it suffices that no settlement comes back.
  have update : ∀ {p f}, w₂.settlements = Table.update p f w₁.settlements →
      (∀ s : Settlement, s.SameIntent (f s)) →
      (∀ s ∈ w₁.settlements, p s → s.status = .failed → (f s).status = .failed) →
      ∃ xs : List Settlement, xs.length ≤ 1 ∧
        (∀ s ∈ xs, s.groupId = g ∧ 0 < s.amount ∧ w₁.Covers s) ∧
        ∀ s ∈ w₂.settlements, s.groupId = g → s.status ≠ .failed → w₁.CountedIn xs s := by
    intro p f hs hf hp
    refine ⟨[], Nat.zero_le 1, by simp, hs ▸ counted_update hf fun s hs ha _ h hn => ?_⟩
    exact absurd (hp s hs ha h) hn
  have same (hs : w₂.settlements = w₁.settlements) := by
    refine update (p := fun _ => false) (f := id) (hs.trans ?_) .refl (by simp)
    exact (List.map_id _).symm
  have old : ∀ {xs}, ∀ s ∈ w₁.settlements, s.status ≠ .failed → w₁.CountedIn xs s :=
    fun s hs hn => ⟨s, List.mem_append_right _ hs, hn, .refl s⟩
  cases h
  case idle  => exact same rfl
  case env h => exact same (Deps.env_sameTables h).settlements
  case act a hc hd h =>
    have ⟨hf, hs⟩ := hc.1
    cases h
    case none | allocate | createExpense | settleShare | submit => exact same rfl
    case deleteExpense => exact update rfl (fun s => by constructor <;> rfl) fun _ _ _ h => h
    case transition | settle =>
      refine update rfl (fun _ => Settlement.patch_sameIntent) fun s _ ha hf => ?_
      have ha := ((Transition.applies_iff _).mp ha).2
      exact absurd (hf ▸ ha) (SettlementStatus.failed_notMem_allowedFromStatuses _)
    case createLinked =>
      refine ⟨[], Nat.zero_le 1, by simp, fun s hm hg hn => ?_⟩
      rcases List.mem_append.mp hm with hm | hm
      case inl => exact old s hm hn
      case inr =>
        rw [List.mem_singleton.mp hm] at hg
        exact absurd hg hf
    case createFreeform n s reads _ _ _ =>
      by_cases hg : s.groupId = g
      case neg =>
        refine ⟨[], Nat.zero_le 1, by simp, fun s' hm hg' hn => ?_⟩
        rcases List.mem_append.mp hm with hm | hm
        case inl => exact old s' hm hn
        case inr =>
          rw [List.mem_singleton.mp hm] at hg'
          exact absurd hg' hg
      case pos =>
        have hcov : w₁.Covers s := (hs hg).elim (covers_of_read hw hl hd hg) id
        refine ⟨[w₁.newSettlement s n], Nat.le_refl 1, ?_, fun s' hm _ hn => ?_⟩
        case refine_1 => exact fun s' hm => List.mem_singleton.mp hm ▸ ⟨hg, hd.positive, hcov⟩
        case refine_2 =>
          rcases List.mem_append.mp hm with hm | hm
          case inl => exact old s' hm hn
          case inr => exact ⟨s', List.mem_append_left _ hm, hn, .refl s'⟩
    case update u =>
      refine ⟨(w₁.reactivated g u).map (·.patch u.data w₁.now), ?_, fun s' hm => ?_, ?_⟩
      case refine_1 =>
        rw [List.length_map]
        refine length_le_one (k := Settlement.id) ((List.filter_sublist.map _).nodup hw.settlements) ?_
        intro s hs s' hs'
        have ⟨_, ha, _, hf, hn⟩ := mem_reactivated.mp hs
        exact (id_of_reactivated hd ha (mem_reactivated.mp hs').2.1 hf hn).symm
      case refine_2 =>
        have ⟨s, hm, hp⟩ := List.mem_map.mp hm
        have ⟨hm, ha, hg, hf, hn⟩ := mem_reactivated.mp hm
        exact hp ▸ ⟨hg, hl.positive s hm hg, hs s hm ha hg hf hn⟩
      case refine_3 =>
        refine counted_update (fun _ => Settlement.patch_sameIntent) fun s hm ha hg hf hn => ?_
        exact List.mem_map_of_mem <| mem_reactivated.mpr ⟨hm, ha, hg, hf, hn⟩

theorem Deps.Move.unlinked (h : D.Move C w₁ w₂) (hc : ∀ a w, C a w → SettlesFreely g a w)
    (hw : w₁.WellFormed) (hu : w₁.Unlinked g) : w₂.Unlinked g := by
  intro j s i x e hs hi hx he
  have hg := h.grows hw
  rcases h.settlement_cases hw hs with ⟨_, s₁, hs₁, hch⟩ | ⟨_, hcr⟩
  case inl =>
    have hi₁ := hch.link hi
    have ha := hw.allocated_of_share <| hw.links s₁ (mem_of_row? hs₁) i hi₁
    have ⟨x₁, hx₁, _, he₁⟩ := hg.owed hw ha hx he
    exact hu j s₁ i x₁ e hs₁ hi₁ hx₁ he₁
  case inr =>
    cases hcr with
    | freeform _ hd _ => exact absurd (hd.link.symm.trans hi) (by simp)
    | @linked s₀ o e₀ x₀ _ hcond hd _ _ =>
      have hi₀ : x₀.id = i := Option.some.inj <| hd.link.symm.trans hi
      subst hi₀
      have ⟨_, heq⟩ := hd.owed hg hx he
      rw [heq, ← hd.group]
      exact hc _ _ hcond

-- A share of the group is not settled, because no settlement was ever linked to it.
theorem not_linked (hw : w.WellFormed) (hu : w.Unlinked g) (hl : D.Linked C j i w) :
    ∀ b ∈ w.bills g, b.2.id ≠ i := by
  rintro b hb rfl
  have ⟨he, hx, hg⟩ := hw.of_mem_bills hb
  have ⟨s, hs, hi⟩ := linked_of_past hl (by simp [hx])
  exact hu j s _ _ _ hs hi hx he hg

theorem Deps.Move.bills (h : D.Move C w₁ w₂) (hc : ∀ a w, C a w → SettlesFreely g a w)
    (hw : w₁.WellFormed) (hu : w₁.Unlinked g) : w₂.bills g = w₁.bills g := by
  cases h
  case idle  => rfl
  case env h =>
    have ht := Deps.env_sameTables h
    rw [bills_eq, bills_eq, ht.expenses]
    simp only [sharesOf, ht.shares]
  case act a hm hd h =>
    have hf := hc _ _ hm
    cases h
    case none | allocate | createFreeform | transition | update | submit => rfl
    case createExpense hfr _ => exact bills_insertExpense hw hfr hf _
    case deleteExpense       => exact bills_removeExpense hw hf
    case createLinked _ hi _ _ =>
      obtain ⟨e, x, hd⟩ := hd
      have hx := Option.some.inj <| hd.link.symm.trans hi
      refine bills_setShareStatus_of_ne fun b hb hbi => ?_
      obtain ⟨he, hx', hg⟩ := hw.of_mem_bills hb
      rw [hbi, ← hx] at hx'
      obtain ⟨_, heq⟩ := hd.owed (.refl _) hx' he
      exact hf <| hd.group.trans <| heq ▸ hg
    case settle hi _ _ =>
      have hne := not_linked hw hu (hd.share _ hi).2
      exact bills_setShareStatus_of_ne hne
    case settleShare   =>
      obtain ⟨_, hl, _⟩ := hd
      exact bills_setShareStatus_of_ne <| not_linked hw hu hl

theorem Deps.Move.positive (h : D.Move C w₁ w₂) (hc : ∀ a w, C a w → SettlesFreely g a w)
    (hw : w₁.WellFormed) (hp : ∀ s ∈ w₁.settlements, s.groupId = g → 0 < s.amount) :
    ∀ s ∈ w₂.settlements, s.groupId = g → 0 < s.amount := by
  intro s hs hg
  have hw₂ := h.wellFormed hw
  rcases h.settlement_cases hw (hw₂.settlement_of_mem hs) with ⟨_, s₁, hs₁, _⟩ | ⟨_, hcr⟩
  case inl =>
    have ⟨s', hs', hcont⟩ := (h.grows hw).settlement hs₁
    have hss := Option.some.inj <| (hw₂.settlement_of_mem hs).symm.trans hs'
    subst hss
    exact hcont.intent.amount ▸ hp s₁ (mem_of_row? hs₁) (hcont.intent.groupId.trans hg)
  case inr =>
    cases hcr with
    | linked hm _ _ _   => exact absurd hg (hc _ _ hm)
    | freeform _ hd _   => exact hd.positive

theorem Deps.Move.limited (h : D.Move (D.Careful (WithinLimit g) (·.Limited g l)) w₁ w₂)
    (hw : w₁.WellFormed) (hl : w₁.Limited g l) : w₂.Limited g l := by
  have hf : ∀ a w, D.Careful (WithinLimit g) (·.Limited g l) a w → SettlesFreely g a w :=
    fun _ _ h => h.1.1
  have ⟨xs, hx, hc, hs⟩ := h.counted hw hl
  exact bound_of_covers (h.wellFormed hw) hl ((h.bills hf hw hl.unlinked).trans hl.bills)
    (h.positive hf hw hl.positive) (h.unlinked hf hw hl.unlinked) hx hc hs

section Run

variable {c : Config World Act Act.Res Failure}

-- In a run whose steps all meet the condition, what one user has pledged to another on balance is never
-- more than the debt.
theorem no_over_settlement (hw : w.WellFormed) (hs : ∀ s ∈ w.settlements, s.groupId ≠ g)
    (hu : w.Unlinked g) (r : D.system.Run (WithinLimit g) ⟨w, []⟩ c)
    (hn : 0 < c.shared.pledged g i j - c.shared.pledged g j i) :
    c.shared.pledged g i j - c.shared.pledged g j i ≤ c.shared.debt g i j := by
  have hl : w.Limited g (w.bills g) := by
    refine ⟨rfl, hu, fun s hm hg => absurd hg (hs s hm), fun i j _ hd => ?_⟩
    have h0 : ∀ i j, w.pledged g i j = 0 := fun i j => total_eq_zero fun s hm => by
      obtain ⟨hm, hg⟩ := mem_groupSettlements.mp hm
      exact absurd hg (hs s hm)
    rw [h0, h0]
    exact ⟨rfl, hd⟩
  obtain ⟨_, hl⟩ := Deps.careful_run hw (fun _ _ hw hl h => h.limited hw hl) hl r
  have hij : i ≠ j := by
    rintro rfl
    omega
  rw [World.debt, hl.bills]
  by_cases hd : 0 ≤ debtOf i j (w.bills g)
  case pos =>
    obtain ⟨_, hb⟩ := hl.bound i j hij hd
    have := hl.pledged_nonneg j i
    omega
  case neg =>
    -- Nothing is pledged by the creditor.
    have hd' : 0 ≤ debtOf j i (w.bills g) := by
      rw [debtOf_swap]
      omega
    obtain ⟨hq, _⟩ := hl.bound j i hij.symm hd'
    have := hl.pledged_nonneg j i
    omega

-- In the sample, bob asks twice to pay what he owes to ann. The second transaction reads the settlement
-- that the first one has inserted, and is refused.
theorem no_over_settlement_sample :
    ∃ c : Config World Act Act.Res Failure, c.shared.pledged "g" "bob" "ann" = 20000000 ∧
      c.shared.pledged "g" "bob" "ann" - c.shared.pledged "g" "ann" "bob" ≤
        c.shared.debt "g" "bob" "ann" := by
  have ⟨c, r, h⟩ := System.exists_run_of_play (S := sampleDeps.system) (C := WithinLimit "g")
    (c := ⟨sampleWorld, []⟩)
    (checking 0 "2" ++ inserting 0 "AAAAAA" "n" ++ checking 1 "2" ++ signing 2 "n" "x" "k")
    (p := fun c => c.shared.pledged "g" "bob" "ann" = 20000000 ∧
      c.shared.pledged "g" "ann" "bob" = 0)
    (by decide +kernel)
  have ⟨hp, hq⟩ := of_decide_eq_true h
  refine ⟨c, hp, no_over_settlement sampleWorld_wellFormed (fun _ => nofun) (fun _ _ => nofun) r ?_⟩
  rw [hp, hq]
  decide

end Run

-- Both transactions read before the other one has inserted its settlement. Twice the debt is pledged.
theorem over_settled :
    ∃ c : Config World Act Act.Res Failure,
      sampleDeps.system.Run (SettlesFreely "g") ⟨sampleWorld, []⟩ c ∧
      c.shared.pledged "g" "bob" "ann" - c.shared.pledged "g" "ann" "bob" = 40000000 ∧
      c.shared.debt "g" "bob" "ann" = 20000000 := by
  have ⟨c, r, h⟩ := System.exists_run_of_play (S := sampleDeps.system) (C := SettlesFreely "g")
    (c := ⟨sampleWorld, []⟩)
    (checking 0 "2" ++ checking 1 "2" ++ inserting 0 "AAAAAA" "n" ++ inserting 1 "BBBBBB" "m")
    (p := fun c => c.shared.pledged "g" "bob" "ann" - c.shared.pledged "g" "ann" "bob" = 40000000 ∧
      c.shared.debt "g" "bob" "ann" = 20000000)
    (by decide +kernel)
  exact ⟨c, r, of_decide_eq_true h⟩

end Mergepay
