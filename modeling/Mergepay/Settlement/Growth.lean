import Mergepay.Concurrency.Protocol
import Mergepay.Settlement.Reconciliation
import Mergepay.Settlement.Rows

namespace Mergepay

open Concurrency Table

-- The columns of a share that are fixed when it is created.
structure ExpenseShare.SameShare (s₁ s₂ : ExpenseShare) : Prop where
  id          : s₁.id = s₂.id
  expenseId   : s₁.expenseId = s₂.expenseId
  userId      : s₁.userId = s₂.userId
  shareAmount : s₁.shareAmount = s₂.shareAmount

theorem ExpenseShare.SameShare.refl (s : ExpenseShare) : SameShare s s := by
  constructor <;> rfl

theorem ExpenseShare.SameShare.trans (h₁ : SameShare s₁ s₂) (h₂ : SameShare s₂ s₃) :
    SameShare s₁ s₃ where
  id          := h₁.id.trans h₂.id
  expenseId   := h₁.expenseId.trans h₂.expenseId
  userId      := h₁.userId.trans h₂.userId
  shareAmount := h₁.shareAmount.trans h₂.shareAmount

-- Settlements are never deleted. Their link to a share is only removed together with the share.
structure Settlement.Continues (w w' : World) (s s' : Settlement) : Prop where
  intent    : SameIntent s s'
  expiresAt : s'.expiresAt = s.expiresAt
  link      : s'.expenseShareId = s.expenseShareId ∨ s'.expenseShareId = none ∧
    ∀ i, s.expenseShareId = some i → i ∈ w.allocated → w'.share i = none

theorem Settlement.Continues.of_patch (w w' : World) (s : Settlement) (p : Patch) (now : Time) :
    s.Continues w w' (s.patch p now) where
  intent    := Settlement.patch_sameIntent
  expiresAt := rfl
  link      := .inl rfl

theorem Settlement.Continues.refl (w w' : World) (s : Settlement) : s.Continues w w' s where
  intent    := .refl s
  expiresAt := rfl
  link      := .inl rfl

-- What remains of a world, whatever happens. Expenses and shares may be deleted, but an identifier
-- that is in use, or has been in use, is never given to another row.
structure World.Grows (w w' : World) : Prop where
  settlement  : w.settlement i = some s → ∃ s', w'.settlement i = some s' ∧ s.Continues w w' s'
  transaction : w.transaction h = some t → w'.transaction h = some t
  share       : i ∈ w.allocated → w'.share i = some s' → ∃ s, w.share i = some s ∧ s.SameShare s'
  expense     : i ∈ w.allocated → w'.expense i = some e → w.expense i = some e
  allocated   : w.allocated ⊆ w'.allocated
  users       : w'.users = w.users
  now         : w.now ≤ w'.now

namespace World.Grows

variable {w w' : World}

theorem share_none (h : w.Grows w') (ha : i ∈ w.allocated) (hs : w.share i = none) :
    w'.share i = none := by
  refine Option.eq_none_iff_forall_ne_some.mpr fun s hs' => ?_
  have ⟨_, h, _⟩ := h.share ha hs'
  simp [hs] at h

theorem refl (w : World) : w.Grows w where
  settlement h  := ⟨_, h, .refl ..⟩
  transaction h := h
  share _ h     := ⟨_, h, .refl _⟩
  expense _ h   := h
  allocated     := List.Subset.refl _
  users         := rfl
  now           := Int.le_refl _

-- The other columns of a world do not matter.
theorem of_eq (hs : w'.settlements = w.settlements) (ht : w'.ledger = w.ledger)
    (hi : w'.shares = w.shares) (he : w'.expenses = w.expenses) (ha : w'.allocated = w.allocated)
    (hu : w'.users = w.users) (hn : w.now ≤ w'.now) : w.Grows w' where
  settlement h  := ⟨_, by rwa [World.settlement, hs], .refl ..⟩
  transaction h := by rwa [World.transaction, ht]
  share _ h     := ⟨_, by rwa [World.share, hi] at h, .refl _⟩
  expense _ h   := by rwa [World.expense, he] at h
  allocated     := by rw [ha]; exact List.Subset.refl _
  users         := hu
  now           := hn

theorem trans (h₁ : Grows w₁ w₂) (h₂ : Grows w₂ w₃) : Grows w₁ w₃ where
  settlement h := by
    have ⟨_, h, hc⟩ := h₁.settlement h
    have ⟨s, h, hc'⟩ := h₂.settlement h
    refine ⟨s, h, hc.intent.trans hc'.intent, hc'.expiresAt.trans hc.expiresAt, ?_⟩
    rcases hc'.link with hl' | ⟨hn, hl'⟩
    case inr =>
      rcases hc.link with hl | ⟨_, hl⟩
      case inl => exact .inr ⟨hn, fun i hi ha => hl' i (hl ▸ hi) (h₁.allocated ha)⟩
      case inr => exact .inr ⟨hn, fun i hi ha => h₂.share_none (h₁.allocated ha) (hl i hi ha)⟩
    case inl =>
      rcases hc.link with hl | ⟨hn, hl⟩
      case inl => exact .inl (hl'.trans hl)
      case inr =>
        exact .inr ⟨hl'.trans hn, fun i hi ha => h₂.share_none (h₁.allocated ha) (hl i hi ha)⟩
  transaction h := h₂.transaction <| h₁.transaction h
  share ha h := by
    have ⟨_, h, hs⟩ := h₂.share (h₁.allocated ha) h
    have ⟨s, h, hs'⟩ := h₁.share ha h
    exact ⟨s, h, hs'.trans hs⟩
  expense ha h := h₁.expense ha <| h₂.expense (h₁.allocated ha) h
  allocated := List.Subset.trans h₁.allocated h₂.allocated
  users     := h₂.users.trans h₁.users
  now       := h₁.now.trans h₂.now

theorem allocate (w : World) (ids : List String) : w.Grows (w.allocate ids) where
  settlement h  := ⟨_, h, .refl ..⟩
  transaction h := h
  share _ h     := ⟨_, h, .refl _⟩
  expense _ h   := h
  allocated     := List.subset_append_right ..
  users         := rfl
  now           := Int.le_refl _

theorem insertExpense {l : List (String × Int)} (hw : w.WellFormed) (hf : w.Fresh (n :: ids))
    (hl : ids.length = l.length) (e : Expense) : w.Grows (w.insertExpense e l n ids) where
  settlement h  := ⟨_, h, .refl ..⟩
  transaction h := h
  share {i s'} ha h := by
    have hm := mem_of_row? h
    rcases List.mem_append.mp hm with hm | hm
    case inl => exact ⟨s', key_of_row? h ▸ hw.share_of_mem hm, .refl _⟩
    case inr =>
      have hi := WellFormed.ids_newShares hl n e.payerUserId ▸ List.mem_map_of_mem hm
      exact absurd ha <| key_of_row? h ▸ hf.2 _ (List.mem_cons_of_mem _ hi)
  expense {i e'} ha h := by
    have hm := mem_of_row? h
    rcases List.mem_append.mp hm with hm | hm
    case inl => exact key_of_row? h ▸ hw.expense_of_mem hm
    case inr =>
      have hk := key_of_row? h
      rw [List.mem_singleton.mp hm] at hk
      exact absurd ha <| hk ▸ hf.2 _ List.mem_cons_self
  allocated := List.Subset.refl _
  users     := rfl
  now       := Int.le_refl _

theorem removeExpense (hw : w.WellFormed) (e : String) : w.Grows (w.removeExpense e) where
  settlement {i s} h := by
    refine ⟨_, (settlement_removeExpense ..).trans (congrArg _ h), ?_⟩
    dsimp only
    split
    case isFalse => exact .refl ..
    case isTrue hu =>
      refine ⟨by constructor <;> rfl, rfl, .inr ⟨rfl, fun k hk _ => ?_⟩⟩
      rw [hk, Option.any_some, decide_eq_true_eq] at hu
      exact hw.share_removeExpense hu
  transaction h := h
  share {i s'} ha h :=
    ⟨s', key_of_row? h ▸ hw.share_of_mem (List.mem_of_mem_filter <| mem_of_row? h), .refl _⟩
  expense ha h := key_of_row? h ▸ hw.expense_of_mem (List.mem_of_mem_filter <| mem_of_row? h)
  allocated := List.Subset.refl _
  users     := rfl
  now       := Int.le_refl _

theorem insertSettlement (hw : w.WellFormed) (hf : w.Fresh [n]) (s : Settlement) :
    w.Grows (w.insertSettlement s n) where
  settlement {i s'} h := by
    rw [hw.settlement_insertSettlement hf]
    split
    case isFalse => exact ⟨s', h, .refl ..⟩
    case isTrue hi =>
      have hm := List.mem_map_of_mem (f := Settlement.id) (mem_of_row? h)
      rw [key_of_row? h, hi] at hm
      exact absurd hm <| hw.not_mem_settlements hf List.mem_cons_self
  transaction h := h
  share _ h     := ⟨_, h, .refl _⟩
  expense _ h   := h
  allocated     := List.Subset.refl _
  users         := rfl
  now           := Int.le_refl _

theorem patchSettlements (w : World) (p : Settlement → Bool) (d : Patch) :
    w.Grows (w.patchSettlements p d) where
  settlement {i s} h := by
    refine ⟨_, (settlement_patchSettlements ..).trans (congrArg _ h), ?_⟩
    dsimp only
    split
    case isTrue  => exact .of_patch ..
    case isFalse => exact .refl ..
  transaction h := h
  share _ h     := ⟨_, h, .refl _⟩
  expense _ h   := h
  allocated     := List.Subset.refl _
  users         := rfl
  now           := Int.le_refl _

theorem setShareStatus (w : World) (j : String) (status : ShareStatus) :
    w.Grows (w.setShareStatus j status) where
  settlement h  := ⟨_, h, .refl ..⟩
  transaction h := h
  share {i s'} _ h := by
    rw [share_setShareStatus] at h
    have ⟨s, hs, h⟩ := Option.map_eq_some_iff.mp h
    refine ⟨s, hs, ?_⟩
    rw [← h]
    split <;> constructor <;> rfl
  expense _ h   := h
  allocated     := List.Subset.refl _
  users         := rfl
  now           := Int.le_refl _

theorem apply (w : World) (k : String) (r : TransactionRecord) (b : Bool) :
    w.Grows (w.apply k r b) where
  settlement h  := ⟨_, h, .refl ..⟩
  transaction {h t} ht := by
    simp only [World.transaction, row?, World.apply, List.find?_append] at ht ⊢
    rw [ht]
    rfl
  share _ h     := ⟨_, h, .refl _⟩
  expense _ h   := h
  allocated     := List.Subset.refl _
  users         := rfl
  now           := Int.le_refl _

end World.Grows

open World in
theorem Effect.grows (h : Effect D w a w') (hw : w.WellFormed) : w.Grows w' := by
  cases h
  case none                  => exact .refl w
  case allocate              => exact .allocate w _
  case createExpense hf hl   => exact (Grows.insertExpense hw hf hl _).trans (.allocate _ _)
  case deleteExpense         => exact .removeExpense hw _
  case createLinked hf _ _ _ =>
    exact (Grows.insertSettlement hw hf _).trans <| (Grows.setShareStatus _ _ _).trans (.allocate _ _)
  case createFreeform hf _ _ => exact (Grows.insertSettlement hw hf _).trans (.allocate _ _)
  case transition            => exact .patchSettlements w _ _
  case settle                => exact (Grows.patchSettlements w _ _).trans (.setShareStatus _ _ _)
  case update                => exact .patchSettlements w _ _
  case settleShare           => exact .setShareStatus w _ _
  case submit                => exact .apply w _ _ _

theorem Deps.env_grows {D : Deps} (h : D.env e w = some w') : w.Grows w' := by
  cases e <;> simp only [Deps.env] at h
  case tick =>
    split at h
    case isTrue ht => exact Option.some.inj h ▸ .of_eq rfl rfl rfl rfl rfl rfl ht
    case isFalse => contradiction
  case join  => exact Option.some.inj h ▸ .of_eq rfl rfl rfl rfl rfl rfl (Int.le_refl _)
  case leave => exact Option.some.inj h ▸ .of_eq rfl rfl rfl rfl rfl rfl (Int.le_refl _)
  case apply =>
    split at h
    case isTrue  => contradiction
    case isFalse => exact Option.some.inj h ▸ .apply _ _ _ _

end Mergepay
