import Mergepay.Settlement.Runs

namespace Mergepay

open Concurrency SettlementStatus

-- The unguarded updates of the status column only meet rows from which the machine could have taken
-- the same step. They are made on the basis of rows that were read earlier: those of the worker's
-- reconciliation when it confirms or fails a record, and that of the not-found handler when its copy
-- of a settlement was in review.
def Conforming : Act → World → Prop
  | .update (.writeStatus i _ .confirmed _), w =>
    ∀ s ∈ w.settlement i, s.status ∈ [.verifying, .pendingConfirmation, .needsReview, .confirmed]
  | .update (.writeStatus i _ .failed _), w =>
    ∀ s ∈ w.settlement i, s.status ∉ [.confirmed, .expired]
  | .update (.keepPending i _ true), w =>
    ∀ s ∈ w.settlement i, s.status ∈ [.needsReview, .pendingConfirmation]
  | _, _ => True

instance (a : Act) (w : World) : Decidable (Conforming a w) := by
  induction a using Act.casesOn with
  | update u =>
    induction u using Write.casesOn with
    | writeStatus i _ status _ =>
      cases status with
      | confirmed | failed => exact inferInstanceAs (Decidable (∀ s ∈ w.settlement i, _))
      | _                  => exact inferInstanceAs (Decidable True)
    | keepPending i _ inReview =>
      cases inReview with
      | true  => exact inferInstanceAs (Decidable (∀ s ∈ w.settlement i, _))
      | false => exact inferInstanceAs (Decidable True)
    | _ => exact inferInstanceAs (Decidable True)
  | _ => exact inferInstanceAs (Decidable True)

-- All statuses are states of the machine. Those of the expiry sweep never occur.
def World.Regular (w : World) : Prop :=
  ∀ i s, w.settlement i = some s → s.status ∈ settlementStatuses

variable {D : Deps} {C : Act → World → Prop} {w w₁ w₂ : World}

theorem edge_of_update (hd : D.Due C (.update u) w) (hc : Conforming (.update u) w)
    (hw : w.settlement i = some s) (hs : s.status ∈ settlementStatuses) (ha : u.applies s) :
    (s.patch u.data w.now).status = s.status ∨ s.status.Edge (s.patch u.data w.now).status := by
  have hi := Table.key_of_row? hw
  cases u <;> simp only [Settlement.patch_status, Write.data, Option.getD_none, Option.getD_some,
    true_or]
  case refresh =>
    rw [hd.status]
    exact .inl rfl
  case sign =>
    rcases (Write.sign_applies_iff.mp ha).2 with h | h <;> exact .inr (h ▸ by decide)
  case expireIntent =>
    exact absurd hs ((Write.expireIntent_applies_iff.mp ha).2 ▸ by decide)
  case keepPending j n inReview =>
    have hj := Write.keepPending_applies_iff.mp ha
    cases inReview
    case false => exact .inl rfl
    case true =>
      have hc := hc s (hj ▸ hi ▸ hw)
      simp only [List.mem_cons, List.not_mem_nil, or_false] at hc
      rcases hc with h | h <;> rw [h] <;> decide
  case writeStatus j k status data =>
    have ha := Write.writeStatus_applies_iff.mp ha
    have hw : w.settlement j = some s := ha ▸ hi ▸ hw
    rcases hd.1 with rfl | rfl
    case inl =>
      have hc := hc s hw
      simp only [List.mem_cons, List.not_mem_nil, or_false] at hc
      rcases hc with h | h | h | h <;> rw [h] <;> decide
    case inr =>
      have hc := hc s hw
      revert hc hs
      cases s.status <;> decide

-- The condition is exact: an update that does not meet it leaves the machine.
theorem conforming_update_iff (hd : D.Due C (.update u) w) (hr : w.Regular) :
    Conforming (.update u) w ↔ ∀ i s, w.settlement i = some s → u.applies s →
      (s.patch u.data w.now).status = s.status ∨ s.status.Edge (s.patch u.data w.now).status := by
  refine ⟨fun hc i s hw ha => edge_of_update hd hc hw (hr i s hw) ha, fun h => ?_⟩
  cases u
  case writeStatus i k status data =>
    have h : ∀ s, w.settlement i = some s → status = s.status ∨ s.status.Edge status :=
      fun s hs => h i s hs (Write.writeStatus_applies_iff.mpr <| Table.key_of_row? hs)
    rcases hd.1 with rfl | rfl
    all_goals
      intro s hs
      have he := h s hs
      revert he
      cases s.status <;> decide
  case keepPending i n inReview =>
    cases inReview
    case false => trivial
    case true =>
      intro s hs
      have he := h i s hs (Write.keepPending_applies_iff.mpr <| Table.key_of_row? hs)
      simp only [Settlement.patch_status, Write.data, if_true, Option.getD_some] at he
      revert he
      cases s.status <;> decide
  all_goals trivial

theorem Deps.Change.edge (h : D.Change Conforming w a s s') (hw : w.settlement i = some s)
    (hs : s.status ∈ settlementStatuses) : s'.status = s.status ∨ s.status.Edge s'.status := by
  cases h
  case same | unlink => exact .inl rfl
  case transition ha =>
    exact .inr <| allowedFromStatuses_edge (Transition.applies_iff _ |>.mp ha).2
  case update u hc hd ha => exact edge_of_update hd hc hw hs ha

theorem Deps.Move.regular (h : D.Move Conforming w₁ w₂) (hw : w₁.WellFormed) (hr : w₁.Regular) :
    w₂.Regular := by
  intro i s hs
  rcases h.settlement_cases hw hs with ⟨_, s₁, hs₁, hc⟩ | ⟨_, hc⟩
  case inl =>
    have hm := hr i s₁ hs₁
    rcases hc.edge hs₁ hm with h | h
    case inl => exact h ▸ hm
    case inr => exact h.2.1
  case inr => exact hc.unsigned.status ▸ by decide

section Run

variable {c₁ c₂ : Config World Act Act.Res Failure}

-- In a run whose unguarded updates are conforming, every change of a status is an edge. Confirmed and
-- expired settlements are thus final, whatever stale rows are still held by other processes.
theorem status_conformance (hw : w.WellFormed) (hr : w.Regular)
    (r : D.system.Run Conforming ⟨w, []⟩ c₁) (m : c₁.Meets Conforming l)
    (hn : D.system.next l c₁ = some c₂) :
    c₁.shared.Regular ∧ c₂.shared.Regular ∧
    ∀ i s, c₁.shared.settlement i = some s → ∃ s', c₂.shared.settlement i = some s' ∧
      (s'.status = s.status ∨ s.status.Edge s'.status) ∧
      (s.status = .confirmed ∨ s.status = .expired → s'.status = s.status) := by
  have hm := Deps.moves_of_run hw .refl r
  have hw₁ := hm.wellFormed hw
  have hr₁ := hm.invariant hw (fun _ _ hw hr h => h.regular hw hr) hr
  have h := Deps.move_of_next hw r m hn
  refine ⟨hr₁, h.regular hw₁ hr₁, fun i s hs => ?_⟩
  have ⟨_, s', hs', hc⟩ := h.change hw₁ hs
  have he := hc.edge hs (hr₁ i s hs)
  refine ⟨s', hs', he, fun ht => ?_⟩
  rcases he with he | he
  case inl => exact he
  case inr =>
    have ⟨hc, hx⟩ := he.not_terminal
    exact absurd ht (not_or.mpr ⟨hc, hx⟩)

-- Without interference, the settlement of the sample is confirmed along the edges of the machine.
theorem status_conformance_sample :
    ∃ c₁ c₂ : Config World Act Act.Res Failure, ∃ s s',
      c₁.shared.settlement "n" = some s ∧ c₂.shared.settlement "n" = some s' ∧
      s.status ≠ s'.status ∧ s.status.Edge s'.status := by
  have ⟨c₁, c₂, r, m, hn, h⟩ := System.exists_step_of_play (S := sampleDeps.system)
    (C := Conforming) (c := ⟨sampleWorld, []⟩)
    (.flatten [
      settling 0 {} "AAAAAA" "n", signing 1 "n" "x" "k", submitting 2 (.applied true none),
      Label.acts 2 [.ok, .ok, .ok, .ok, .ok]
    ]) (.act 2 .ok)
    (p := fun c₁ c₂ => (c₁.shared.settlement "n").any (·.status = .verifying) &&
      (c₂.shared.settlement "n").any (·.status = .confirmed))
    (by decide +kernel)
  simp only [Bool.and_eq_true, Option.any_eq_true, decide_eq_true_eq] at h
  have ⟨⟨s, hs, hc⟩, s₂, hs₂, hc₂⟩ := h
  have ⟨_, _, hi⟩ := status_conformance sampleWorld_wellFormed (fun _ _ => nofun) r m hn
  have ⟨s', hs', he, _⟩ := hi "n" s hs
  have hs := Option.some.inj <| hs'.symm.trans hs₂
  refine ⟨c₁, c₂, s, s', ‹_›, hs', by rw [hs, hc, hc₂]; decide, ?_⟩
  exact he.resolve_left (by rw [hs, hc, hc₂]; decide)

end Run

-- The settlement of the sample is confirmed while the not-found handler holds a copy in review.
def staleReview : Schedule :=
  .flatten [
    settling 0 {} "AAAAAA" "n", signing 1 "n" "x" "k₁", submitting 2 (.applied true none),
    polling 2 .unseen, Label.acts 2 [.ok],
    .spawn (.reconcilePendingSettlements "worker") :: Label.acts 3 [.ok, .ok, .ok, .ok, .unseen, .ok],
    .spawn (.confirm "bob" "n" "x" "k₂") :: Label.acts 4
      [.ok, .ok, .ok, .ok, .ok, .ok, .reserved true, .ok, .ok, .ok, .ok, .ok]
  ]

theorem confirmed_overwritten :
    ∃ c₁ c₂ : Config World Act Act.Res Failure, ∃ s s',
      sampleDeps.system.Run (fun _ _ => True) ⟨sampleWorld, []⟩ c₁ ∧
      sampleDeps.system.next (.act 3 .ok) c₁ = some c₂ ∧
      c₁.shared.settlement "n" = some s ∧ c₂.shared.settlement "n" = some s' ∧
      s.status = .confirmed ∧ s'.status = .pendingConfirmation ∧
      ¬(s'.status = s.status ∨ s.status.Edge s'.status) := by
  have ⟨c₁, c₂, r, _, hn, h⟩ := System.exists_step_of_play (S := sampleDeps.system)
    (C := fun _ _ => True) (c := ⟨sampleWorld, []⟩) staleReview (.act 3 .ok)
    (p := fun c₁ c₂ => (c₁.shared.settlement "n").any (·.status = .confirmed) &&
      (c₂.shared.settlement "n").any (·.status = .pendingConfirmation))
    (by decide +kernel)
  simp only [Bool.and_eq_true, Option.any_eq_true, decide_eq_true_eq] at h
  have ⟨⟨s, hs, hc⟩, s', hs', hc'⟩ := h
  exact ⟨c₁, c₂, s, s', r, hn, hs, hs', hc, hc', by rw [hc, hc']; decide⟩

end Mergepay
