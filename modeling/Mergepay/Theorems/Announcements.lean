import Mergepay.Outcomes.Deliveries

namespace Mergepay.Outcomes

open Concurrency

-- In every run in which the transitions that reconciliation publishes are on time, whatever is published has
-- happened. In every undisturbed run in which the machine is the only one to announce failures, there is exactly
-- one delivery to each endpoint for each failure, once everything has come to an end.
theorem outcomes_announced (D : Deps) (s : OutcomeStore) :
    (∀ c, (outcomeServer D).Run OnTime ⟨s, []⟩ c →
      (∀ p ∈ c.shared.announcements, p ∈ s.announcements ∨ Made s c.shared p) ∧
      ∀ l c', c.Meets OnTime l → (outcomeServer D).next l c = some c' → Recorded c.shared c'.shared) ∧
    ∀ webhook groupId id row c, Subscribed s.webhooks webhook groupId →
      s.settlement id = some row → row.groupId = groupId → s.tasks = [] →
      (outcomeServer D).Undisturbed OutcomeChoice.answered LeftToMachine ⟨s, []⟩ c →
      (∀ p ∈ c.procs, ∀ a k, p ≠ .call a k) → c.shared.tasks = [] →
      c.shared.reported webhook id + s.failures id = s.reported webhook id + c.shared.failures id := by
  refine ⟨fun c r => ⟨(holds_run r).inv.announced, fun l c' m hn => recorded_next r m hn⟩, ?_⟩
  intro webhook groupId id row c hs hrow hg ht r he ht'
  exact deliveries_of_failures hs ⟨rfl, row, hrow, hg⟩ ht r he ht'

def sampleWebhook : Webhook where
  id      := "webhook"
  groupId := some "g"
  events  := [.settlementFailed]

-- The ledger has rejected the transaction of the settlement.
def rejectedStore : OutcomeStore := { sampleStore with
  world    := sampleStore.world.apply "hash of xdr" (sampleDeps.recordOf "xdr") false
  webhooks := [sampleWebhook]
}

theorem sampleWebhook_subscribed : Subscribed rejectedStore.webhooks sampleWebhook "g" where
  mem     := List.mem_cons_self
  enabled := rfl
  event   := List.mem_cons_self
  group   := rfl
  named   := by decide
  ids     := by decide

-- The settlement fails, and the task that is left by the transition queues a delivery.
def failing : List (Label OutcomeChoice Event OutcomeRequest) :=
  .flatten [
    [.spawn (.transition (transitionTo .failed))], proceeding 0 10,
    [.spawn (.task (.notify "n" .settlementFailed))], proceeding 1 9
  ]

-- A reconciler finds that the transaction has failed.
def reconciling (n m : Nat) : List (Label OutcomeChoice Event OutcomeRequest) :=
  .spawn (.reconcile { row := sampleSettlement, groupId := some "g" } reconciliationMaxRetries) ::
    .act n (.observed .ok) :: proceeding n m

def ended {Act : Type} {Res : Act → Type} : Prog Act Res ε α → Bool
  | .call _ _         => false
  | .done _ | .fail _ => true

theorem ne_call_of_ended {Act : Type} {Res : Act → Type} {ps : List (Prog Act Res ε α)} (h : ps.all ended = true) :
    ∀ p ∈ ps, ∀ a k, p ≠ .call a k := by
  intro p hp a k he
  have hp := List.all_eq_true.mp h p hp
  rw [he] at hp
  cases hp

-- Everything has come to an end, with so many deliveries for so many failures.
def settled (reported failures : Nat) (c : OutcomeConfig) : Bool :=
  c.procs.all ended && (c.shared.tasks = [] && (c.shared.reported sampleWebhook "n" = reported &&
    c.shared.failures "n" = failures))

theorem outcomes_announced_sample :
    (∃ c : OutcomeConfig, ("n", .failed) ∈ c.shared.announcements ∧ Made rejectedStore c.shared ("n", .failed)) ∧
    ∃ c, settled 1 1 c = true ∧ c.shared.reported sampleWebhook "n" + rejectedStore.failures "n" =
      rejectedStore.reported sampleWebhook "n" + c.shared.failures "n" := by
  have ⟨announced, delivered⟩ := outcomes_announced sampleDeps rejectedStore
  constructor
  · have ⟨c, r, hc⟩ := System.exists_run_of_play (C := OnTime) (S := outcomeServer sampleDeps)
      (c := ⟨rejectedStore, []⟩) (p := fun c => ("n", .failed) ∈ c.shared.announcements)
      failing (by decide +kernel)
    have hp := of_decide_eq_true hc
    exact ⟨c, hp, ((announced c r).1 _ hp).resolve_left (by decide)⟩
  · have ⟨c, hr, hc⟩ := (Option.any_eq_true ..).mp <| show
      ((outcomeServer sampleDeps).play LeftToMachine failing ⟨rejectedStore, []⟩).any (settled 1 1) = true by
      decide +kernel
    have ⟨he, hc'⟩ := (Bool.and_eq_true ..).mp hc
    have ⟨ht, _⟩ := (Bool.and_eq_true ..).mp hc'
    exact ⟨c, hc, delivered sampleWebhook "g" "n" sampleSettlement c sampleWebhook_subscribed rfl rfl rfl
      (.of_play (by decide) hr) (ne_call_of_ended he) (of_decide_eq_true ht)⟩

-- A reconciler finds that the transaction has failed and reads that the settlement is being verified. Before its
-- update, the settlement is confirmed. The reconciler announces a failure that never happens. On its own, a
-- reconciler announces a failure that does happen, and the machine announces it as well.
theorem outcomes_announced_wrong :
    (∃ c, (outcomeServer sampleDeps).Undisturbed OutcomeChoice.answered (fun _ _ => True) ⟨rejectedStore, []⟩ c ∧
      ∃ p ∈ c.shared.announcements, p ∉ rejectedStore.announcements ∧ ¬Made rejectedStore c.shared p) ∧
    ∃ c, (outcomeServer sampleDeps).Undisturbed OutcomeChoice.answered (fun _ _ => True) ⟨rejectedStore, []⟩ c ∧
      settled 2 1 c = true := by
  constructor
  · have ⟨c, hr, hc⟩ := (Option.any_eq_true ..).mp <| show
      ((outcomeServer sampleDeps).play (fun _ _ => True) (reconciling 0 1 ++
        [.spawn (.transition (transitionTo .confirmed))] ++ proceeding 1 10 ++ proceeding 0 8)
        ⟨rejectedStore, []⟩).any (fun c => ("n", .failed) ∈ c.shared.announcements ∧ c.shared.failures "n" = 0)
        = true by
      decide +kernel
    have ⟨hp, hn⟩ := of_decide_eq_true hc
    refine ⟨c, .of_play (by decide) hr, _, hp, by decide, fun hm => ?_⟩
    rcases hm with hm | hm
    case inl => exact absurd hm (by decide)
    case inr =>
      have ⟨e, he, hs⟩ := List.mem_map.mp hm
      exact List.countP_eq_zero.mp hn e he (decide_eq_true hs)
  · have ⟨c, hr, hc⟩ := (Option.any_eq_true ..).mp <| show
      ((outcomeServer sampleDeps).play (fun _ _ => True) (.flatten [
        reconciling 0 14, [.spawn (.task (.notify "n" .settlementFailed))], proceeding 1 9,
        [.spawn (.task (.dispatch ⟨.settlementFailed, .rejected "n" "transaction_failed", some "g"⟩))],
        proceeding 2 6
      ]) ⟨rejectedStore, []⟩).any (settled 2 1) = true by
      decide +kernel
    exact ⟨c, .of_play (by decide) hr, hc⟩

end Mergepay.Outcomes
