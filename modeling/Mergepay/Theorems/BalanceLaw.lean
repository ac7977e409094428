import Mergepay.Balance.Group
import Mergepay.Settlement.Runs

namespace Mergepay

open Concurrency Money Table

-- What a user is owed in a group according to all expenses and confirmed settlements of an asset.
def World.balance (w : World) (groupId key user : String) : Int :=
  charged (owedTo key user) (w.bills groupId) - charged (owedBy key user) (w.bills groupId) +
  transferred (sent key user) (w.groupSettlements groupId) -
  transferred (received key user) (w.groupSettlements groupId)

-- The share is the payer's own one.
def World.OwnShare (w : World) (i : String) : Prop :=
  ∀ x ∈ w.share i, ∀ e ∈ w.expense x.expenseId, x.userId = e.payerUserId

-- No step marks a share as settled that belongs to somebody else than the payer.
def LeavesOpen : Act → World → Prop
  | .transition t, w  => ∀ i ∈ t.settledShare, w.OwnShare i
  | .settleShare i, w => w.OwnShare i
  | _, _              => True

instance : Decidable (World.OwnShare w i) :=
  inferInstanceAs (Decidable (∀ x ∈ w.share i, ∀ e ∈ w.expense x.expenseId, _))

instance : (a : Act) → (w : World) → Decidable (LeavesOpen a w) := by
  unfold LeavesOpen
  intro a w
  split <;> infer_instance

-- Only the payers' own shares are settled.
def World.Open (w : World) : Prop :=
  ∀ i x, w.share i = some x → x.status = .settled → w.OwnShare i

variable {D : Deps} {C : Act → World → Prop} {R : Registry} {w w₁ w₂ : World}

-- The balances that are computed obey the law if and only if the settled shares cancel each other out.
theorem balance_law_iff (h : loadGroupBalancesByAsset R w g = .ok sheets) (k u : String) :
    Balance.assetNetOf sheets k u = w.balance g k u ↔
      charged (settled (owedTo k u)) (w.bills g) = charged (settled (owedBy k u)) (w.bills g) := by
  rw [computeNetBalancesByAsset_totals h, World.balance, charged_split (p := owedTo k u),
    charged_split (p := owedBy k u)]
  omega

theorem World.Open.law (ho : w.Open) (hw : w.WellFormed)
    (h : loadGroupBalancesByAsset R w g = .ok sheets) (k u : String) :
    Balance.assetNetOf sheets k u = w.balance g k u := by
  -- A settled share is the payer's own one, and so it counts neither way.
  have own : ∀ b ∈ w.bills g, b.2.status = .settled → b.2.userId = b.1.payerUserId := by
    intro b hb hs
    have ⟨he, hx, _⟩ := hw.of_mem_bills hb
    exact ho _ _ hx hs _ hx _ he
  refine (balance_law_iff h k u).mpr ?_
  rw [charged, charged, total_eq_zero, total_eq_zero]
  all_goals
    intro b hb
    by_cases hs : b.2.status = .settled
    case neg => simp [settled, hs]
    case pos =>
      have hp := own b hb hs
      simp only [settled, owedTo, owedBy, hs, hp, decide_true, Bool.and_true, decide_eq_false_iff_not]
      tauto

theorem Deps.Move.remains_open (h : D.Move LeavesOpen w₁ w₂) (hw : w₁.WellFormed) (ho : w₁.Open) :
    w₂.Open := by
  have hg := h.grows hw
  intro i x hx hs x' hx' e he
  have hxx := Option.some.inj <| (Option.mem_def.mp hx').symm.trans hx
  subst hxx
  -- The share belongs to the payer now if it did before.
  have before : (w₁.share i).isSome → w₁.OwnShare i → x'.userId = e.payerUserId := by
    intro hi ho
    have ⟨x₁, hx₁, hsame, he₁⟩ := hg.owed hw (hw.allocated_of_share hi) hx he
    exact hsame.userId ▸ ho x₁ hx₁ e he₁
  rcases h.settled_cases hw hx hs with ⟨x₁, hx₁, hs₁⟩ | ⟨t, hc, _, hi, hx₁, _⟩ |
    ⟨hc, _, hx₁, _⟩ | hp
  case inl         => exact before (by simp [hx₁]) (ho i x₁ hx₁ hs₁)
  case inr.inl     => exact before hx₁ (hc i hi)
  case inr.inr.inl => exact before hx₁ hc
  case inr.inr.inr => exact hp e he

-- Among the other updates, only the direct one of the status column confirms.
theorem confirmed_of_update {s : Settlement} (hd : D.Due C (.update u) w)
    (hc : (s.patch u.data now).status = .confirmed) :
    s.status = .confirmed ∨ ∃ i k d, u = .writeStatus i k .confirmed d := by
  cases u
  case writeStatus j k status d =>
    have hc : status = .confirmed := hc
    subst hc
    exact .inr ⟨_, _, _, rfl⟩
  case refresh =>
    simp only [Settlement.patch_status, Write.data, hd.status, Option.getD_none] at hc
    exact .inl hc
  case keepPending inReview =>
    cases inReview
    case false => exact .inl hc
    case true  => contradiction
  case sign | expireIntent => contradiction
  all_goals exact .inl hc

-- How a settlement becomes confirmed: by the machine, or by the direct update of the status.
inductive Deps.Confirms (D : Deps) (C : Act → World → Prop) (w₁ w₂ : World) (s₁ s₂ : Settlement) : Prop
  | transition {t : Transition} : D.DueTransition C t w₁ → t.applies s₁ = true → t.nextStatus = .confirmed →
    t.settledShare = none → s₂ = s₁.patch t.data w₁.now → w₂ = w₁.patchSettlements t.applies t.data →
    Confirms D C w₁ w₂ s₁ s₂
  | settle {t : Transition} {k : String} : D.DueTransition C t w₁ → t.applies s₁ = true → t.nextStatus = .confirmed →
    t.settledShare = some k → s₂ = s₁.patch t.data w₁.now →
    w₂ = (w₁.patchSettlements t.applies t.data).setShareStatus k .settled → Confirms D C w₁ w₂ s₁ s₂
  | update {u : Write} {k : Option String} {d : Patch} : u = .writeStatus s₁.id k .confirmed d → C (.update u) w₁ →
    s₂ = s₁.patch u.data w₁.now → w₂ = w₁.patchSettlements u.applies u.data → Confirms D C w₁ w₂ s₁ s₂

theorem Deps.Move.confirmation (h : D.Move C w₁ w₂) (hw : w₁.WellFormed) (hs₁ : w₁.settlement i = some s₁)
    (hs₂ : w₂.settlement i = some s₂) (hn : s₁.status ≠ .confirmed) (hc : s₂.status = .confirmed) :
    D.Confirms C w₁ w₂ s₁ s₂ := by
  have same : w₂.settlement i ≠ some s₁ :=
    fun h => hn <| Option.some.inj (h.symm.trans hs₂) ▸ hc
  -- An update by which the row becomes confirmed applies to it.
  have applies : ∀ {p d}, w₂.settlement i = (w₁.patchSettlements p d).settlement i →
      p s₁ = true ∧ s₂ = s₁.patch d w₁.now := by
    intro p d hw₂
    rw [hw₂, World.settlement_patchSettlements, hs₁, Option.map_some] at hs₂ same
    by_cases hp : p s₁ = true
    case neg => simp [hp] at same
    case pos => exact ⟨hp, by simpa [hp] using hs₂.symm⟩
  cases h
  case idle => exact absurd hs₁ same
  case env h =>
    refine absurd ?_ same
    rw [World.settlement, (Deps.env_sameTables h).settlements]
    exact hs₁
  case act a hm hd h =>
    cases h
    case none | allocate | createExpense | settleShare | submit => exact absurd hs₁ same
    case deleteExpense =>
      rw [World.settlement_removeExpense, hs₁, Option.map_some] at hs₂
      have hs₂ := Option.some.inj hs₂
      subst hs₂
      split at hc <;> exact absurd hc hn
    case createLinked hf _ _ _ | createFreeform hf _ _ =>
      refine absurd ?_ same
      try rw [World.settlement_allocate, World.settlement_setShareStatus]
      try rw [World.settlement_allocate]
      rw [hw.settlement_insertSettlement hf, if_neg, hs₁]
      rintro rfl
      simp [hw.settlement_fresh hf List.mem_cons_self] at hs₁
    case transition hi =>
      obtain ⟨hp, rfl⟩ := applies rfl
      exact .transition hd hp hc hi rfl rfl
    case settle hi _ _ =>
      obtain ⟨hp, rfl⟩ := applies World.settlement_setShareStatus
      exact .settle hd hp hc hi rfl rfl
    case update =>
      obtain ⟨hp, rfl⟩ := applies rfl
      rcases confirmed_of_update hd hc with h | ⟨j, k, d, rfl⟩
      case inl => exact absurd h hn
      case inr =>
        obtain rfl := Write.writeStatus_applies_iff.mp hp
        exact .update rfl hm rfl rfl

-- A settlement becomes confirmed by an update of its row alone, along with the status of a share.
theorem Deps.Move.confirms (h : D.Move C w₁ w₂) (hw : w₁.WellFormed)
    (hs₁ : w₁.settlement i = some s₁) (hs₂ : w₂.settlement i = some s₂)
    (hn : s₁.status ≠ .confirmed) (hc : s₂.status = .confirmed) :
    ∃ p d, (∀ s ∈ w₁.settlements, p s = true ↔ s.id = i) ∧ s₂ = s₁.patch d w₁.now ∧
      (w₂ = w₁.patchSettlements p d ∨
        ∃ k, w₂ = (w₁.patchSettlements p d).setShareStatus k .settled) := by
  have hi := key_of_row? hs₁
  have alone : ∀ {p : Settlement → Bool} {j}, (∀ s, p s = true → s.id = j) → p s₁ = true →
      ∀ s ∈ w₁.settlements, p s = true ↔ s.id = i := by
    refine fun hj hp s hs => ⟨fun h => (hj s h).trans <| (hj s₁ hp).symm.trans hi, fun h => ?_⟩
    exact Option.some.inj (hs₁.symm.trans <| h ▸ hw.settlement_of_mem hs) ▸ hp
  cases h.confirmation hw hs₁ hs₂ hn hc with
  | transition _ hp _ _ hs hw₂ =>
    exact ⟨_, _, alone (fun s h => ((Transition.applies_iff _).mp h).1) hp, hs, .inl hw₂⟩
  | settle _ hp _ _ hs hw₂ =>
    exact ⟨_, _, alone (fun s h => ((Transition.applies_iff _).mp h).1) hp, hs, .inr ⟨_, hw₂⟩⟩
  | update hu _ hs hw₂ =>
    subst hu
    exact ⟨_, _, alone (fun s h => Write.writeStatus_applies_iff.mp h) (Write.writeStatus_applies_iff.mpr rfl), hs,
      .inl hw₂⟩

-- What a confirmed settlement contributes to the balance of a user.
def Settlement.credit (s : Settlement) (key user : String) : Int :=
  if s.key = key
  then (if s.fromUserId = user then s.amount else 0) - (if s.toUserId = user then s.amount else 0)
  else 0

-- The same for the rows of a table, of which only those of a group count.
def Settlement.contribution (groupId key user : String) (s : Settlement) : Int :=
  if s.groupId = groupId ∧ s.status = .confirmed then s.credit key user else 0

theorem sum_contribution (w : World) (g k u : String) :
    (w.settlements.map (·.contribution g k u)).sum =
      transferred (sent k u) (w.groupSettlements g) -
      transferred (received k u) (w.groupSettlements g) := by
  rw [World.groupSettlements, transferred, transferred, total_filter, total_filter]
  refine sum_eq_total_sub fun s _ => ?_
  by_cases hg : s.groupId = g <;> by_cases hc : s.status = .confirmed <;>
    by_cases hk : s.key = k <;>
    simp [Settlement.contribution, Settlement.credit, sent, received, hg, hc, hk]

-- A settlement that becomes confirmed moves the balances of its parties, and no others.
theorem Deps.Move.balance_confirmed (h : D.Move C w₁ w₂) (hw : w₁.WellFormed)
    (hs₁ : w₁.settlement i = some s₁) (hs₂ : w₂.settlement i = some s₂)
    (hn : s₁.status ≠ .confirmed) (hc : s₂.status = .confirmed) (k u : String) :
    w₂.balance s₁.groupId k u = w₁.balance s₁.groupId k u + s₁.credit k u := by
  have ⟨p, d, hp, hs, hw₂⟩ := h.confirms hw hs₁ hs₂ hn hc
  have hi := key_of_row? hs₁
  have hb : ∀ q : Expense → ExpenseShare → Bool, (∀ e s st, q e (s.setStatus st) = q e s) →
      charged q (w₂.bills s₁.groupId) = charged q (w₁.bills s₁.groupId) := by
    intro q hq
    rcases hw₂ with rfl | ⟨j, rfl⟩
    case inl => rfl
    case inr =>
      rw [World.bills_setShareStatus]
      refine total_map (fun b => ?_) (fun b => ?_) <;> dsimp only <;> split
      · rfl
      · rfl
      · exact hq ..
      · rfl
  have hu : w₂.settlements = update p (·.patch d w₁.now) w₁.settlements := by
    rcases hw₂ with rfl | ⟨_, rfl⟩ <;> rfl
  have hsum := sum_update hw.settlements (mem_of_row? hs₁) (fun b hb => hi ▸ hp b hb)
    (f := (·.patch d w₁.now)) (·.contribution s₁.groupId k u)
  rw [← hu, sum_contribution, sum_contribution] at hsum
  have h₁ : s₁.contribution s₁.groupId k u = 0 := by simp [Settlement.contribution, hn]
  have h₂ : (s₁.patch d w₁.now).contribution s₁.groupId k u = s₁.credit k u := by
    rw [hs] at hc
    rw [Settlement.contribution, if_pos ⟨rfl, hc⟩]
    rfl
  rw [h₁, h₂] at hsum
  simp only [World.balance, hb (owedTo k u) (fun _ _ _ => rfl), hb (owedBy k u) (fun _ _ _ => rfl)]
  omega

section Run

variable {c₁ c₂ : Config World Act Act.Res Failure}

-- In a run whose steps all meet the condition, the computed balances obey the law. In particular, a
-- settlement that becomes confirmed moves the net of its sender up and that of its recipient down by
-- its amount, and nothing else.
theorem balance_law (hw : w.WellFormed) (ho : w.Open)
    (r : D.system.Run LeavesOpen ⟨w, []⟩ c₁) :
    (∀ g sheets, loadGroupBalancesByAsset R c₁.shared g = .ok sheets →
      ∀ k u, Balance.assetNetOf sheets k u = c₁.shared.balance g k u) ∧
    ∀ l c₂, c₁.Meets LeavesOpen l → D.system.next l c₁ = some c₂ →
      ∀ i s₁ s₂, c₁.shared.settlement i = some s₁ → c₂.shared.settlement i = some s₂ →
      s₁.status ≠ .confirmed → s₂.status = .confirmed →
      ∀ sheets₁ sheets₂, loadGroupBalancesByAsset R c₁.shared s₁.groupId = .ok sheets₁ →
        loadGroupBalancesByAsset R c₂.shared s₁.groupId = .ok sheets₂ →
        ∀ k u, Balance.assetNetOf sheets₂ k u = Balance.assetNetOf sheets₁ k u + s₁.credit k u := by
  have hw₁ := Deps.wellFormed_of_run hw r
  have ho₁ := (Deps.moves_of_run hw .refl r).invariant hw (fun _ _ hw ho h => h.remains_open hw ho) ho
  refine ⟨fun g sheets hl k u => ho₁.law hw₁ hl k u, ?_⟩
  intro l c₂ m hn i s₁ s₂ hs₁ hs₂ hne hc sheets₁ sheets₂ hl₁ hl₂ k u
  have h := Deps.move_of_next hw r m hn
  rw [(h.remains_open hw₁ ho₁).law (h.wellFormed hw₁) hl₂, ho₁.law hw₁ hl₁]
  exact h.balance_confirmed hw₁ hs₁ hs₂ hne hc k u

-- In the sample, bob pays his debt by a settlement that is not linked to the share.
theorem balance_law_sample :
    ∃ c₁ c₂ : Config World Act Act.Res Failure, ∃ s sheets₁ sheets₂,
      c₁.shared.settlement "n" = some s ∧ s.amount = 20000000 ∧
      loadGroupBalancesByAsset sampleDeps.toRegistry c₁.shared "g" = .ok sheets₁ ∧
      loadGroupBalancesByAsset sampleDeps.toRegistry c₂.shared "g" = .ok sheets₂ ∧
      ∀ k u, Balance.assetNetOf sheets₁ k u = c₁.shared.balance "g" k u ∧
        Balance.assetNetOf sheets₂ k u = Balance.assetNetOf sheets₁ k u + s.credit k u := by
  obtain ⟨c₁, c₂, r, m, hn, h⟩ := System.exists_step_of_play (S := sampleDeps.system)
    (C := LeavesOpen) (c := ⟨sampleWorld, []⟩)
    (.flatten [
      checking 0 "2", inserting 0 "AAAAAA" "n", signing 1 "n" "x" "k", submitting 2 (.applied true none),
      Label.acts 2 [.ok, .ok, .ok, .ok, .ok]
    ]) (.act 2 .ok)
    (p := fun c₁ c₂ =>
      (c₁.shared.settlement "n").any (fun s => s.groupId = "g" ∧ s.amount = 20000000 ∧
        s.status ≠ .confirmed) &&
      (c₂.shared.settlement "n").any (·.status = .confirmed) &&
      (loadGroupBalancesByAsset sampleDeps.toRegistry c₁.shared "g").toBool &&
      (loadGroupBalancesByAsset sampleDeps.toRegistry c₂.shared "g").toBool)
    (by decide +kernel)
  simp only [Bool.and_eq_true, Option.any_eq_true, decide_eq_true_eq] at h
  obtain ⟨⟨⟨⟨s₁, hs₁, hg, ha, hne⟩, s₂, hs₂, hc⟩, hl₁⟩, hl₂⟩ := h
  obtain ⟨sheets₁, hl₁⟩ := Except.toBool_eq_true.mp hl₁
  obtain ⟨sheets₂, hl₂⟩ := Except.toBool_eq_true.mp hl₂
  have ho : sampleWorld.Open := by
    intro i x hx hs
    have hm := mem_of_row? hx
    simp only [sampleWorld, List.mem_singleton] at hm
    simp [hm] at hs
  obtain ⟨hlaw, hstep⟩ := balance_law (R := sampleDeps.toRegistry) sampleWorld_wellFormed ho r
  refine ⟨c₁, c₂, s₁, sheets₁, sheets₂, hs₁, ha, hl₁, hl₂, fun k u => ⟨hlaw "g" _ hl₁ k u, ?_⟩⟩
  have hl₁ := hg.symm ▸ hl₁
  have hl₂ := hg.symm ▸ hl₂
  exact hstep _ c₂ m hn "n" s₁ s₂ hs₁ hs₂ hne hc sheets₁ sheets₂ hl₁ hl₂ k u

end Run

-- Bob pays his share of two lumens by the settlement that is linked to it. His net moves from a debt of
-- two lumens to a credit of two lumens, because the payment counts in addition to the settled share.
theorem balance_law_violated :
    ∃ c : Config World Act Act.Res Failure, ∃ sheets,
      sampleDeps.system.Run (fun _ _ => True) ⟨sampleWorld, []⟩ c ∧
      loadGroupBalancesByAsset sampleDeps.toRegistry c.shared "g" = .ok sheets ∧
      c.shared.balance "g" (balanceAssetKey "XLM" none) "bob" = 0 ∧
      Balance.assetNetOf sheets (balanceAssetKey "XLM" none) "bob" = 20000000 := by
  have ⟨c, r, h⟩ := System.exists_run_of_play (S := sampleDeps.system) (C := fun _ _ => True)
    (c := ⟨sampleWorld, []⟩)
    (settling 0 {} "AAAAAA" "n" ++ signing 1 "n" "x" "k" ++ submitting 2 (.applied true none) ++
      polling 2 .ok)
    (p := fun c => (loadGroupBalancesByAsset sampleDeps.toRegistry c.shared "g").toOption.any fun sheets =>
      c.shared.balance "g" (balanceAssetKey "XLM" none) "bob" = 0 ∧
      Balance.assetNetOf sheets (balanceAssetKey "XLM" none) "bob" = 20000000)
    (by decide +kernel)
  simp only [Option.any_eq_true, decide_eq_true_eq] at h
  have ⟨sheets, hl, hb, hn⟩ := h
  exact ⟨c, sheets, r, Except.toOption_eq_some.mp hl, hb, hn⟩

end Mergepay
