import Mergepay.Theorems.BalanceLaw
import Mergepay.Theorems.DoublePayment

namespace Mergepay

open Concurrency Table

-- A payment may still arrive.
def SettlementStatus.inFlight : SettlementStatus → Bool
  | .submitted | .verifying | .pendingConfirmation | .needsReview => true
  | _ => false

theorem SettlementStatus.committed_cases {status : SettlementStatus} (h : status.committed) :
    status.inFlight = true ∨ status = .confirmed := by
  revert h
  cases status <;> decide

-- The settlement pays a share of the expense.
def World.PaysFor (w : World) (s : Settlement) (e : String) : Prop :=
  ∃ k ∈ s.expenseShareId, ∃ x ∈ w.share k, x.expenseId = e

-- The share that the settlement pays is settled. It belongs to the expense for which the settlement is
-- recorded, and it is not the payer's own one.
def World.Cleared (w : World) (s : Settlement) : Prop :=
  ∀ k ∈ s.expenseShareId, ∀ x ∈ w.share k, x.status = .settled

def World.PaysForeign (w : World) (s : Settlement) : Prop :=
  ∀ k ∈ s.expenseShareId, ∀ x ∈ w.share k, s.expenseId = some x.expenseId ∧
    ∀ e ∈ w.expense x.expenseId, x.userId ≠ e.payerUserId

-- What a deletion checks. Only the payer's own share is settled.
def World.Unsettled (w : World) (e : String) : Prop :=
  ∀ x ∈ w.sharesOf e, x.status = .settled → w.OwnShare x.id

instance : Decidable (World.PaysFor w s e) :=
  inferInstanceAs (Decidable (∃ k ∈ s.expenseShareId, ∃ x ∈ w.share k, x.expenseId = e))

instance : Decidable (World.Cleared w s) :=
  inferInstanceAs (Decidable (∀ k ∈ s.expenseShareId, ∀ x ∈ w.share k, x.status = .settled))

instance : Decidable (World.Unsettled w e) :=
  inferInstanceAs (Decidable (∀ x ∈ w.sharesOf e, _ → _))

-- An expense is deleted while nothing is in flight, and on the grounds of what has been checked. A
-- confirmation and the mark on the share are never apart.
def DeletesSettledOnly : Act → World → Prop
  | .deleteExpense e, w => w.Unsettled e ∧ ∀ s ∈ w.settlements, w.PaysFor s e → s.status.inFlight = false
  | .update (.writeStatus i _ .confirmed _), w => ∀ s ∈ w.settlement i, w.Cleared s
  | .createLinked s _, w => ∀ k ∈ s.expenseShareId, ∀ x ∈ w.share k, x.status ≠ .settled
  | _, _ => True

instance (a : Act) (w : World) : Decidable (DeletesSettledOnly a w) := by
  induction a using Act.casesOn with
  | deleteExpense e  => exact inferInstanceAs (Decidable (_ ∧ ∀ s ∈ w.settlements, _ → _))
  | createLinked s _ => exact inferInstanceAs (Decidable (∀ k ∈ s.expenseShareId, ∀ x ∈ w.share k, _))
  | update u =>
    induction u using Write.casesOn with
    | writeStatus i _ status _ =>
      cases status with
      | confirmed => exact inferInstanceAs (Decidable (∀ s ∈ w.settlement i, _))
      | _         => exact inferInstanceAs (Decidable True)
    | _ => exact inferInstanceAs (Decidable True)
  | _ => exact inferInstanceAs (Decidable True)

-- A confirmed settlement has settled its share.
structure World.Accounted (w : World) : Prop where
  cleared : ∀ s ∈ w.settlements, s.status = .confirmed → w.Cleared s
  foreign : ∀ s ∈ w.settlements, w.PaysForeign s

variable {D : Deps} {C : Act → World → Prop} {w w₁ w₂ : World} {s s' : Settlement}

-- Shares and expenses only disappear by a deletion.
theorem Deps.Move.removes (h : D.Move C w₁ w₂) :
    (∃ e, C (.deleteExpense e) w₁ ∧ w₂ = w₁.removeExpense e) ∨
    (∀ k, (w₁.share k).isSome → (w₂.share k).isSome) ∧
    (∀ e, (w₁.expense e).isSome → (w₂.expense e).isSome) := by
  cases h
  case idle => exact .inr ⟨fun _ h => h, fun _ h => h⟩
  case env h =>
    have ht := Deps.env_sameTables h
    refine .inr ⟨fun k h => ?_, fun e h => ?_⟩
    · rwa [World.share, ht.shares]
    · rwa [World.expense, ht.expenses]
  case act hc hd h =>
    cases h
    case none | allocate | createFreeform | transition | update | submit =>
      exact .inr ⟨fun _ h => h, fun _ h => h⟩
    case deleteExpense => exact .inl ⟨_, hc, rfl⟩
    case createExpense _ _ l ids _ _ =>
      refine .inr ⟨fun _ h => World.share_isSome_insertExpense h, fun _ h => ?_⟩
      exact World.expense_isSome_insertExpense (l := l) (k := ids) h
    case createLinked | settle | settleShare =>
      refine .inr ⟨fun k h => ?_, fun _ h => h⟩
      try rw [World.share_allocate]
      rw [World.share_setShareStatus, Option.isSome_map]
      exact h

-- What happens to the status of a share that is not deleted.
theorem Deps.Move.share_cases (h : D.Move C w₁ w₂) (hw : w₁.WellFormed) (hx₁ : w₁.share k = some x₁)
    (hx₂ : w₂.share k = some x₂) : x₂ = x₁ ∨ x₂.status = .settled ∨
    ∃ s o, C (.createLinked s o) w₁ ∧ s.expenseShareId = some k := by
  have same : w₂.share k = w₁.share k → x₂ = x₁ :=
    fun h => Option.some.inj <| hx₂.symm.trans (h.trans hx₁)
  have set : ∀ {j st} {w : World}, w.share k = w₁.share k → (w.setShareStatus j st).share k = some x₂ →
      x₂ = x₁ ∨ x₂.status = st ∧ j = k := by
    intro j st w hw hx
    rw [World.share_setShareStatus, hw, hx₁, Option.map_some] at hx
    have hx := Option.some.inj hx
    subst hx
    split
    case isTrue h  => exact .inr ⟨rfl, h ▸ key_of_row? hx₁⟩
    case isFalse   => exact .inl rfl
  cases h
  case idle => exact .inl <| same rfl
  case env h => exact .inl <| same <| by rw [World.share, (Deps.env_sameTables h).shares]; rfl
  case act hc hd h =>
    cases h
    case none | allocate | createFreeform | transition | update | submit => exact .inl <| same rfl
    case createExpense =>
      refine .inl <| same ?_
      simp only [World.share, row?, World.insertExpense, World.allocate, List.find?_append] at hx₁ ⊢
      rw [hx₁, Option.some_or]
    case deleteExpense =>
      have hm := List.mem_of_mem_filter <| mem_of_row? hx₂
      refine .inl <| same ?_
      rw [hx₂, ← key_of_row? hx₂]
      exact (hw.share_of_mem hm).symm
    case createLinked hi _ _ =>
      rw [World.share_allocate] at hx₂
      rcases set World.share_insertSettlement hx₂ with h | ⟨_, rfl⟩
      case inl => exact .inl h
      case inr => exact .inr <| .inr ⟨_, _, hc, hi⟩
    case settle =>
      rcases set World.share_patchSettlements hx₂ with h | ⟨h, _⟩
      case inl => exact .inl h
      case inr => exact .inr <| .inl h
    case settleShare =>
      rcases set rfl hx₂ with h | ⟨h, _⟩
      case inl => exact .inl h
      case inr => exact .inr <| .inl h

-- A confirmation by the machine settles the share to which the settlement is linked.
theorem Deps.DueTransition.settledShare_eq (h : D.DueTransition C t w) (hc : t.nextStatus = .confirmed)
    (hs : w.settlement t.settlementId = some s) (hk : s.expenseShareId = some k) :
    t.settledShare = some k := by
  have ⟨w₀, hw₀, ⟨s₀, hs₀, hl⟩, he⟩ := h.settles hc
  have ⟨_, hg⟩ := Deps.grows_of_evolves he hw₀
  have ⟨s', hs', hcont⟩ := hg.settlement hs₀
  have h := Option.some.inj <| hs'.symm.trans hs
  subst h
  rcases hcont.link with h | ⟨h, _⟩
  case inl => exact hl.symm.trans <| h.symm.trans hk
  case inr => simp [h] at hk

-- Whatever confirms a settlement also settles its share, except for the direct update of the status.
theorem Deps.Move.settles (h : D.Move C w₁ w₂) (hw : w₁.WellFormed) (hs₁ : w₁.settlement i = some s₁)
    (hs₂ : w₂.settlement i = some s₂) (hn : s₁.status ≠ .confirmed) (hc : s₂.status = .confirmed)
    (hk : s₁.expenseShareId = some k) (hx₂ : w₂.share k = some x₂) :
    x₂.status = .settled ∨ ∃ h d, C (.update (.writeStatus i h .confirmed d)) w₁ := by
  cases h.confirmation hw hs₁ hs₂ hn hc with
  | @transition t hd hp hn hi _ _ =>
    have hj : w₁.settlement t.settlementId = some s₁ := by
      rwa [← (t.applies_iff.mp hp).1, key_of_row? hs₁]
    simp [hd.settledShare_eq hn hj hk] at hi
  | @settle t j hd hp hn hi _ hw₂ =>
    have hj : w₁.settlement t.settlementId = some s₁ := by
      rwa [← (t.applies_iff.mp hp).1, key_of_row? hs₁]
    obtain rfl := Option.some.inj <| hi.symm.trans (hd.settledShare_eq hn hj hk)
    rw [hw₂, World.share_setShareStatus, World.share_patchSettlements] at hx₂
    obtain ⟨x, hx, h⟩ := Option.map_eq_some_iff.mp hx₂
    rw [if_pos (key_of_row? hx)] at h
    exact .inl <| h ▸ rfl
  | update hu hm _ _ =>
    subst hu
    exact .inr ⟨_, _, key_of_row? hs₁ ▸ hm⟩

-- What is settled remains settled as long as no settlement is created for it.
theorem Deps.Move.stays_settled (h : D.Move DeletesSettledOnly w₁ w₂) (hw : w₁.WellFormed)
    (hx₁ : w₁.share k = some x₁) (hx₂ : w₂.share k = some x₂) (hs : x₁.status = .settled) :
    x₂.status = .settled := by
  rcases h.share_cases hw hx₁ hx₂ with rfl | h | ⟨s, o, hc, hk⟩
  · exact hs
  · exact h
  · exact absurd hs <| hc k hk x₁ hx₁

theorem Deps.Move.cleared (h : D.Move DeletesSettledOnly w₁ w₂) (hw : w₁.WellFormed)
    (ha : w₁.Accounted) (hs : s' ∈ w₂.settlements) (hc : s'.status = .confirmed) :
    w₂.Cleared s' := by
  intro k hk x₂ hx₂
  have hs' := (h.wellFormed hw).settlement_of_mem hs
  rcases h.settlement_cases hw hs' with ⟨a, s, hs, hch⟩ | ⟨_, hcr⟩
  case inr => exact absurd hc <| hcr.unsigned.status ▸ by decide
  case inl =>
    have hm := mem_of_row? hs
    have hk₁ := hch.link hk
    have ⟨x₁, hx₁⟩ := Option.isSome_iff_exists.mp <| hw.links s hm k hk₁
    by_cases hc₁ : s.status = .confirmed
    case pos => exact h.stays_settled hw hx₁ hx₂ <| ha.cleared s hm hc₁ k hk₁ x₁ hx₁
    case neg =>
      rcases h.settles hw hs hs' hc₁ hc hk₁ hx₂ with hx | ⟨_, _, hm⟩
      · exact hx
      · exact h.stays_settled hw hx₁ hx₂ <| hm s hs k hk₁ x₁ hx₁

theorem Deps.Change.expenseId (h : D.Change C w a s s') : s'.expenseId = s.expenseId := by
  cases h <;> rfl

-- A settlement is only created for the share of somebody else than the payer.
theorem Deps.Move.paysForeign (h : D.Move C w₁ w₂) (hw : w₁.WellFormed)
    (ha : ∀ s ∈ w₁.settlements, w₁.PaysForeign s) (hs : s' ∈ w₂.settlements) : w₂.PaysForeign s' := by
  intro k hk x₂ hx₂
  have hg := h.grows hw
  have hw₂ := h.wellFormed hw
  obtain ⟨e, he⟩ := Option.isSome_iff_exists.mp <| hw₂.owners x₂ (mem_of_row? hx₂)
  rcases h.settlement_cases hw (hw₂.settlement_of_mem hs) with ⟨a, s, hs, hch⟩ | ⟨_, hcr⟩
  case inl =>
    have hm := mem_of_row? hs
    have hk₁ := hch.link hk
    have hi := hw.allocated_of_share <| hw.links s hm k hk₁
    obtain ⟨x₁, hx₁, hsame, he₁⟩ := hg.owed hw hi hx₂ he
    obtain ⟨hx, hf⟩ := ha s hm k hk₁ x₁ hx₁
    refine ⟨hch.expenseId.trans <| hsame.expenseId ▸ hx, fun e' he' => ?_⟩
    have hee := Option.some.inj <| he.symm.trans he'
    exact hsame.userId ▸ hee ▸ hf e he₁
  case inr =>
    cases hcr with
    | freeform _ hd _ => simp [World.newSettlement, hd.link] at hk
    | linked _ hd _ _ =>
      have hkx : _ = k := Option.some.inj <| hd.link.symm.trans hk
      subst hkx
      obtain ⟨hsame, hee⟩ := hd.owed hg hx₂ he
      obtain ⟨hf, ht, hne⟩ := hd.parties
      refine ⟨?_, fun e' he' => ?_⟩
      · have hi := key_of_row? he
        rw [hee] at hi
        exact hd.expense.trans (congrArg some hi)
      · have he' := Option.some.inj <| he.symm.trans he'
        rw [← he', hee, ← hsame.userId, ← hf, ← ht]
        exact hne

theorem Deps.Move.accounted (h : D.Move DeletesSettledOnly w₁ w₂) (hw : w₁.WellFormed)
    (ha : w₁.Accounted) : w₂.Accounted where
  cleared _ hs hc := h.cleared hw ha hs hc
  foreign _ hs       := h.paysForeign hw ha.foreign hs

-- The check of a deletion sees that a confirmed settlement has settled its share.
theorem World.Accounted.not_paysFor (ha : w.Accounted) (hw : w.WellFormed)
    (hc : DeletesSettledOnly (.deleteExpense e) w) (hs : s ∈ w.settlements) (hst : s.status.committed) :
    ¬w.PaysFor s e := by
  intro hp
  have ⟨k, hk, x, hx, he⟩ := hp
  have ⟨hu, hf⟩ := hc
  rcases SettlementStatus.committed_cases hst with h | h
  case inl => simp [hf s hs hp] at h
  case inr =>
    have hm : x ∈ w.sharesOf e := List.mem_filter.mpr ⟨mem_of_row? hx, by simpa using he⟩
    have ⟨y, hy⟩ := Option.isSome_iff_exists.mp <| hw.owners x (mem_of_row? hx)
    have ho := hu x hm (ha.cleared s hs h k hk x hx)
    rw [key_of_row? hx] at ho
    exact (ha.foreign s hs k hk x hx).2 y hy <| ho x hx y hy

-- The share of a committed settlement is not deleted.
theorem Deps.Move.share_stays (h : D.Move DeletesSettledOnly w₁ w₂) (hw : w₁.WellFormed)
    (ha : w₁.Accounted) (hs : s ∈ w₁.settlements) (hst : s.status.committed)
    (hk : s.expenseShareId = some k) : (w₂.share k).isSome := by
  have hx := hw.links s hs k hk
  rcases h.removes with ⟨e, hc, rfl⟩ | ⟨h, _⟩
  case inr => exact h k hx
  case inl =>
    refine World.share_isSome_removeExpense hx fun hm => ?_
    have ⟨x, hm, hi⟩ := List.mem_map.mp hm
    have ⟨hm, he⟩ := List.mem_filter.mp hm
    refine ha.not_paysFor hw hc hs hst ⟨k, hk, x, ?_, by simpa using he⟩
    exact hi ▸ hw.share_of_mem hm

-- A settlement keeps its link to the share while it is committed.
theorem Deps.Move.stays_linked (h : D.Move DeletesSettledOnly w₁ w₂) (hw : w₁.WellFormed)
    (ha : w₁.Accounted) (hs : w₁.settlement i = some s) (hst : s.status.committed)
    (hk : s.expenseShareId = some k) : ∃ s', w₂.settlement i = some s' ∧ s'.expenseShareId = some k := by
  have ⟨s', hs', hc⟩ := (h.grows hw).settlement hs
  have hm := mem_of_row? hs
  have hx := h.share_stays hw ha hm hst hk
  refine ⟨s', hs', ?_⟩
  rcases hc.link with hl | ⟨_, hn⟩
  case inl => exact hl.trans hk
  case inr => simp [hn k hk <| hw.allocated_of_share (hw.links s hm k hk)] at hx

-- The settlement is committed whenever anything happens.
abbrev StaysCommitted (i : String) (a : Act) (w : World) : Prop :=
  DeletesSettledOnly a w ∧ ∀ s ∈ w.settlement i, s.status.committed

section Run

variable {c₁ c₂ : Config World Act Act.Res Failure}

theorem accounted_of_run (hw : w.WellFormed) (ha : w.Accounted)
    (r : D.system.Run DeletesSettledOnly ⟨w, []⟩ c₁) : c₁.shared.Accounted :=
  (Deps.moves_of_run hw .refl r).invariant hw (fun _ _ hw ha h => h.accounted hw ha) ha

-- In a run during which the settlement is committed whenever anything happens, it keeps its link.
theorem linked_of_run (hw : w.WellFormed) (ha : w.Accounted)
    (r₁ : D.system.Run DeletesSettledOnly ⟨w, []⟩ c₁) (hs : c₁.shared.settlement i = some s)
    (hk : s.expenseShareId = some k) (r₂ : D.system.Run (StaysCommitted i) c₁ c₂) :
    ∃ s', c₂.shared.settlement i = some s' ∧ s'.expenseShareId = some k := by
  induction r₂ with
  | refl => exact ⟨s, hs, hk⟩
  | step r m hn hi =>
    have ⟨s', hs', hk'⟩ := hi
    have r := r₁.trans <| r.mono fun _ _ h => h.1
    have h := Deps.move_of_next hw r (m.mono fun _ _ h => h.1) hn
    rcases System.next_shared m hn with heq | ⟨e, he⟩ | ⟨_, a, _, x, _, _, hc, _⟩
    · exact ⟨s', heq ▸ hs', hk'⟩
    · refine ⟨s', ?_, hk'⟩
      rwa [World.settlement, (Deps.env_sameTables he).settlements]
    · exact h.stays_linked (Deps.wellFormed_of_run hw r) (accounted_of_run hw ha r) hs' (hc.2 s' hs') hk'

-- In a run whose steps all meet the condition, an expense is only deleted while none of the settlements of
-- its shares is committed. While a settlement is committed, its share and the expense remain, and so its
-- verification finds them.
theorem deletions_safe (hw : w.WellFormed) (ha : w.Accounted)
    (r₁ : D.system.Run DeletesSettledOnly ⟨w, []⟩ c₁) :
    (∀ l c₂, c₁.Meets DeletesSettledOnly l → D.system.next l c₁ = some c₂ →
      ∀ e, (c₁.shared.expense e).isSome → c₂.shared.expense e = none →
      ∀ s ∈ c₁.shared.settlements, c₁.shared.PaysFor s e → s.status.committed = false) ∧
    ∀ i s₁ k c₂, c₁.shared.settlement i = some s₁ → s₁.expenseShareId = some k →
      D.system.Run (StaysCommitted i) c₁ c₂ →
      ∃ s₂ e, c₂.shared.settlement i = some s₂ ∧ s₂.expenseShareId = some k ∧
        (c₂.shared.share k).isSome ∧ s₂.expenseId = some e ∧ (c₂.shared.expense e).isSome := by
  have hw₁ := Deps.wellFormed_of_run hw r₁
  have ha₁ := accounted_of_run hw ha r₁
  constructor
  case left =>
    intro l c₂ m hn e he hne s hs hp
    have h := Deps.move_of_next hw r₁ m hn
    rcases h.removes with ⟨e', hc, h⟩ | ⟨_, h⟩
    case inr => simpa [hne] using h e he
    case inl =>
      have hee : e = e' := by
        by_contra hee
        have hx := World.expense_isSome_removeExpense he hee
        rw [← h, hne] at hx
        contradiction
      subst hee
      exact Bool.eq_false_iff.mpr fun hst => ha₁.not_paysFor hw₁ hc hs hst hp
  case right =>
    intro i s₁ k c₂ hs₁ hk r₂
    have ⟨s₂, hs₂, hk₂⟩ := linked_of_run hw ha r₁ hs₁ hk r₂
    have r := r₁.trans <| r₂.mono fun _ _ h => h.1
    have hw₂ := Deps.wellFormed_of_run hw r
    have hm := mem_of_row? hs₂
    have hx := hw₂.links s₂ hm k hk₂
    have ⟨x, hx'⟩ := Option.isSome_iff_exists.mp hx
    have he := ((accounted_of_run hw ha r).foreign s₂ hm k hk₂ x hx').1
    exact ⟨s₂, x.expenseId, hs₂, hk₂, hx, he, hw₂.owners x (mem_of_row? hx')⟩

-- In the sample, ann deletes the expense after bob has created a settlement that he has not signed. Had he
-- signed it, the expense would have to stay while the worker submits the envelope.
theorem deletions_safe_sample :
    (∃ c₁ c₂ : Config World Act Act.Res Failure, ∃ s, c₁.shared.settlement "n" = some s ∧
      c₁.shared.PaysFor s "e" ∧ c₂.shared.expense "e" = none ∧ s.status.committed = false) ∧
    ∃ c₂ : Config World Act Act.Res Failure, ∃ s e, c₂.shared.settlement "n" = some s ∧
      s.status = .confirmed ∧ s.expenseShareId = some "i" ∧ (c₂.shared.share "i").isSome ∧
      s.expenseId = some e ∧ (c₂.shared.expense e).isSome := by
  have ha : sampleWorld.Accounted := ⟨fun _ => nofun, fun _ => nofun⟩
  constructor
  · have ⟨c₁, c₂, r, m, hn, h⟩ := System.exists_step_of_play (S := sampleDeps.system)
      (C := DeletesSettledOnly) (c := ⟨sampleWorld, []⟩)
      (.flatten [settling 0 {} "AAAAAA" "n", .spawn (.deleteExpense "ann" "e") :: Label.acts 1 [.ok, .ok, .ok]])
      (.act 1 .ok)
      (p := fun c₁ c₂ => (c₁.shared.settlement "n").any fun s =>
        c₁.shared.PaysFor s "e" ∧ (c₁.shared.expense "e").isSome ∧ c₂.shared.expense "e" = none)
      (by decide +kernel)
    simp only [Option.any_eq_true, decide_eq_true_eq] at h
    have ⟨s, hs, hp, he, hne⟩ := h
    have hd := (deletions_safe sampleWorld_wellFormed ha r).1 (.act 1 .ok) c₂ m hn "e" he hne
    exact ⟨c₁, c₂, s, hs, hp, hne, hd s (mem_of_row? hs) hp⟩
  · have ⟨c₁, c₂, r₁, r₂, h⟩ := System.exists_later_of_play (S := sampleDeps.system)
      (C := DeletesSettledOnly) (B := StaysCommitted "n") (c := ⟨sampleWorld, []⟩)
      (settling 0 {} "AAAAAA" "n" ++ signing 1 "n" "x" "k")
      (submitting 2 (.applied true none) ++ polling 2 .ok)
      (p := fun c₁ c₂ => (c₁.shared.settlement "n").any (·.expenseShareId = some "i") &&
        (c₂.shared.settlement "n").any (·.status = .confirmed))
      (by decide +kernel)
    simp only [Bool.and_eq_true, Option.any_eq_true, decide_eq_true_eq] at h
    have ⟨⟨s₁, hs₁, hk⟩, s, hs, hc⟩ := h
    have ⟨s₂, e, hs₂, hk₂, hx, hi, he⟩ :=
      (deletions_safe sampleWorld_wellFormed ha r₁).2 "n" s₁ "i" c₂ hs₁ hk r₂
    have h := Option.some.inj <| hs₂.symm.trans hs
    exact ⟨c₂, s, e, hs, hc, h ▸ hk₂, hx, h ▸ hi, he⟩

end Run

-- Ann deletes the expense although bob has paid for it, because reconciliation has not confirmed the
-- settlement yet. It then fails because its expense is gone.
theorem deleted_in_flight :
    (∃ c₁ c₂ : Config World Act Act.Res Failure, ∃ l s,
      sampleDeps.system.Run (fun _ _ => True) ⟨sampleWorld, []⟩ c₁ ∧ sampleDeps.system.next l c₁ = some c₂ ∧
      c₁.shared.settlement "n" = some s ∧ c₁.shared.PaysFor s "e" ∧ s.status = .needsReview ∧
      (c₁.shared.expense "e").isSome ∧ c₂.shared.expense "e" = none) ∧
    ∃ c : Config World Act Act.Res Failure, ∃ s,
      sampleDeps.system.Run (fun _ _ => True) ⟨sampleWorld, []⟩ c ∧ c.shared.settlement "n" = some s ∧
      s.status = .failed ∧ (s.stellarTxHash.bind c.shared.transaction).any (·.successful) := by
  constructor
  · have ⟨c₁, c₂, r, _, hn, h⟩ := System.exists_step_of_play (S := sampleDeps.system)
      (C := fun _ _ => True) (c := ⟨sampleWorld, []⟩)
      (.flatten [
        settling 0 {} "AAAAAA" "n", signing 1 "n" "x" "k", submitting 2 (.applied true none), polling 2 .unseen,
        .spawn (.deleteExpense "ann" "e") :: Label.acts 3 [.ok, .ok, .ok]
      ]) (.act 3 .ok)
      (p := fun c₁ c₂ => (c₁.shared.settlement "n").any fun s => c₁.shared.PaysFor s "e" ∧
        s.status = .needsReview ∧ (c₁.shared.expense "e").isSome ∧ c₂.shared.expense "e" = none)
      (by decide +kernel)
    simp only [Option.any_eq_true, decide_eq_true_eq] at h
    have ⟨s, hs, h⟩ := h
    exact ⟨c₁, c₂, _, s, r, hn, hs, h⟩
  · have ⟨c, r, h⟩ := System.exists_run_of_play (S := sampleDeps.system)
      (C := fun _ _ => True) (c := ⟨sampleWorld, []⟩)
      (.flatten [
        settling 0 {} "AAAAAA" "n", signing 1 "n" "x" "k", submitting 2 (.applied true none), polling 2 .unseen,
        [.act 2 .ok], .spawn (.deleteExpense "ann" "e") :: Label.acts 3 [.ok, .ok, .ok, .ok],
        .spawn (.reconcilePendingSettlements "worker") ::
          Label.acts 4 [.ok, .ok, .ok, .ok, .ok, .ok, .ok, .ok, .ok, .ok]
      ])
      (p := fun c => (c.shared.settlement "n").any fun s => s.status = .failed ∧
        (s.stellarTxHash.bind c.shared.transaction).any (·.successful))
      (by decide +kernel)
    have ⟨s, hs, h⟩ := Option.any_eq_true _ _ |>.mp h
    have ⟨hf, ht⟩ := of_decide_eq_true h
    exact ⟨c, s, r, hs, hf, ht⟩

end Mergepay
