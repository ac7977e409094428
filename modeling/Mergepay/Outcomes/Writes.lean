import Mergepay.Outcomes.Transition
import Mergepay.Settlement.Runs

namespace Mergepay.Outcomes

open Concurrency

namespace OutcomeAction

def writes : OutcomeAction → Bool
  | updateSettlement _ _ | updateMany _ _ _ | createHistory _ | createAudit _ | settleShare _
  | createDeliveries _ | emit _ | detach _ | take _ => true
  | now | findSettlement _ | latestHistory _ _ | observe _ | findWebhooks _ _ => false

-- Actions that concern neither settlements nor audits.
def aside : OutcomeAction → Bool
  | latestHistory _ _ | createHistory _ | settleShare _ => true
  | _                                                   => false

end OutcomeAction

abbrev OutcomeLog :=
  Log OutcomeAction OutcomeAction.Answer Failure

-- How a transition has been processed, by what it has read.
inductive TransitionRuns (params : TransitionParams) (settlement : Settlement) :
    OutcomeLog → TransitionResult → Prop
  | repeated : params.nextStatus = settlement.status → TransitionRuns params settlement [] ⟨settlement, false⟩
  | updated {data : ExtraData} {row : Settlement} : params.nextStatus = settlement.status →
    TransitionRuns params settlement [⟨.updateSettlement params.settlementId data.val, .ok row⟩] ⟨row, false⟩
  | superseded {now : Time} {row : Settlement} :
    settlement.status.canTransitionSettlementStatus params.nextStatus = true →
    TransitionRuns params settlement [⟨.now, .ok now⟩,
      ⟨.updateMany params.settlementId params.nextStatus.allowedFromStatuses (params.data now),
        .error noneMatched⟩,
      ⟨.findSettlement params.settlementId, .ok (some row)⟩] ⟨row, false⟩
  | changed {now : Time} {row : Settlement} {rest : OutcomeLog} :
    settlement.status.canTransitionSettlementStatus params.nextStatus = true →
    (∀ e ∈ rest, e.action.aside = true) →
    TransitionRuns params settlement (⟨.now, .ok now⟩ ::
      ⟨.updateMany params.settlementId params.nextStatus.allowedFromStatuses (params.data now), .ok ()⟩ ::
      ⟨.findSettlement params.settlementId, .ok (some row)⟩ ::
      ⟨.createAudit (params.statusChanged settlement), .ok ()⟩ :: rest) ⟨row, true⟩

section

variable {params : TransitionParams} {settlement : Settlement} {v : TransitionResult} {log : OutcomeLog}

theorem findSettlement_done (h : (findSettlement params).After log (.done settlement)) :
    log = [⟨.findSettlement params.settlementId, .ok (some settlement)⟩] := by
  obtain ⟨l₁, l₂, found, rfl, h₁, h₂⟩ := Prog.After.bind_done h
  rw [h₁.of_perform]
  cases found with
  | none   => exact h₂.not_fail.elim
  | some r =>
    simp only [Prog.bind_eq, Prog.throw_eq, Prog.fail_bind, Prog.pure_eq] at h₂
    split at h₂
    · exact h₂.not_fail.elim
    · obtain ⟨rfl, hr⟩ := h₂.of_done
      cases hr
      rfl

theorem findUniqueOrThrow_done {id : String} (h : (findUniqueOrThrow id).After log (.done settlement)) :
    log = [⟨.findSettlement id, .ok (some settlement)⟩] := by
  obtain ⟨l₁, l₂, found, rfl, h₁, h₂⟩ := Prog.After.bind_done h
  rw [h₁.of_perform]
  cases found with
  | none   => exact h₂.not_fail.elim
  | some r =>
    obtain ⟨rfl, hr⟩ := h₂.of_done
    cases hr
    rfl

theorem recordStatusTransition_aside {row : StatusHistory} :
    (recordStatusTransitionInTransaction row).Avoids fun a => ¬a.aside = true := by
  refine .bind (.perform (· rfl)) fun latestHistory => ?_
  split
  · exact .perform (· rfl)
  · exact .done ()

theorem settleShare_aside {shareId : Option String} :
    Prog.Avoids (fun a => ¬a.aside = true) <| show OutcomeTx TransitionResult from do
      if let some shareId := shareId then
        Prog.perform (OutcomeAction.settleShare shareId)
      return v := by
  cases shareId with
  | none         => exact .done v
  | some shareId => exact .bind (.perform (· rfl)) fun _ => .done v

theorem changeStatus_done
    (hc : settlement.status.canTransitionSettlementStatus params.nextStatus = true)
    (h : (changeStatus params settlement).After log (.done v)) : TransitionRuns params settlement log v := by
  obtain ⟨l₀, l₁, now, rfl, h₀, h⟩ := Prog.After.bind_done h
  obtain ⟨l₁, l₂, r, rfl, h₁, h₂⟩ := Prog.After.bind_done h
  rw [h₀.of_perform]
  rcases h₁.attempt_done with ⟨u, rfl, hu⟩ | ⟨e, rfl, hu⟩
  case inl =>
    obtain ⟨l₃, l₄, row, rfl, h₃, h₄⟩ := Prog.After.bind_done h₂
    obtain ⟨l₅, l₆, _, rfl, h₅, h₆⟩ := Prog.After.bind_done h₄
    obtain ⟨l₇, l₈, _, rfl, h₇, h₈⟩ := Prog.After.bind_done h₆
    rw [hu.of_perform, findUniqueOrThrow_done h₃, h₅.of_perform]
    have hv : v = ⟨row, true⟩ := by
      cases hs : params.settledShare settlement with
      | none   =>
        simp only [hs] at h₈
        cases h₈.of_done.2
        rfl
      | some shareId =>
        simp only [hs] at h₈
        obtain ⟨_, _, _, rfl, _, h₈⟩ := Prog.After.bind_done h₈
        cases h₈.of_done.2
        rfl
    subst hv
    refine .changed hc fun e he => ?_
    change e ∈ l₇ ++ l₈ at he
    rcases List.mem_append.mp he with he | he
    case inl => exact not_not.mp (recordStatusTransition_aside.entries h₇ e he)
    case inr => exact not_not.mp (settleShare_aside.entries h₈ e he)
  case inr =>
    rw [hu.of_perform_fail]
    simp only [Prog.bind_eq, Prog.throw_eq, Prog.fail_bind] at h₂
    split at h₂
    case isTrue      => exact h₂.not_fail.elim
    case isFalse he =>
      obtain ⟨l₃, l₄, row, rfl, h₃, h₄⟩ := Prog.After.bind_done h₂
      rw [findUniqueOrThrow_done h₃]
      obtain ⟨rfl, hv⟩ := h₄.of_done
      cases hv
      rw [not_not.mp he]
      exact .superseded hc

theorem applySettlementTransition_done
    (h : (applySettlementTransition params).After log (.done v)) : ∃ settlement rest,
    log = ⟨.findSettlement params.settlementId, .ok (some settlement)⟩ :: rest ∧
      TransitionRuns params settlement rest v := by
  obtain ⟨l₁, l₂, settlement, rfl, h₁, h₂⟩ := Prog.After.bind_done h
  refine ⟨settlement, l₂, by rw [findSettlement_done h₁]; rfl, ?_⟩
  split at h₂
  case isTrue he =>
    unfold keepStatus at h₂
    split at h₂
    case h_1 =>
      obtain ⟨rfl, hv⟩ := h₂.of_done
      cases hv
      exact .repeated he
    case h_2 data hd =>
      obtain ⟨l₁, l₃, row, rfl, h₁, h₃⟩ := Prog.After.bind_done h₂
      rw [h₁.of_perform]
      obtain ⟨rfl, hv⟩ := h₃.of_done
      cases hv
      exact .updated he
  case isFalse =>
    split at h₂
    case isTrue     => exact h₂.not_fail.elim
    case isFalse hc => exact changeStatus_done (not_not.mp hc) h₂

end

-- The changes of the status of a settlement that have been audited.
def OutcomeAudit.change (id : String) (row : OutcomeAudit) : Option (SettlementStatus × SettlementStatus) :=
  if row.action = "settlement.status_changed" ∧ row.entityType = "settlement" ∧ row.entityId = id then
    match row.metadata with
    | .change from_ to_ _ _ => some (from_, to_)
    | _                     => none
  else
    none

def OutcomeStore.changes (s : OutcomeStore) (id : String) : List (SettlementStatus × SettlementStatus) :=
  s.audits.filterMap (·.change id)

-- Nothing of concern has happened.
structure Aside (s s' : OutcomeStore) : Prop where
  settlements : s'.world.settlements = s.world.settlements
  audits      : s'.audits = s.audits
  webhooks    : s'.webhooks = s.webhooks
  deliveries  : s'.deliveries = s.deliveries
  events      : s'.events = s.events
  tasks       : s'.tasks = s.tasks

section

variable {D : Deps} {s s' : OutcomeStore} {id : String} {params : TransitionParams} {settlement : Settlement}
  {rest : OutcomeLog}

theorem Aside.refl : Aside s s :=
  ⟨rfl, rfl, rfl, rfl, rfl, rfl⟩

theorem Aside.settlement_eq (h : Aside s s') (id : String) : s'.settlement id = s.settlement id := by
  rw [OutcomeStore.settlement, World.settlement, h.settlements]
  rfl

theorem Aside.changes_eq (h : Aside s s') (id : String) : s'.changes id = s.changes id := by
  rw [OutcomeStore.changes, h.audits]
  rfl

theorem view_aside (h : ∀ e ∈ rest, e.action.aside = true) : Aside s ((outcomeDatabase D).view rest s) := by
  induction rest generalizing s with
  | nil => exact .refl
  | cons e rest hi =>
    have ⟨he, hrest⟩ := List.forall_mem_cons.mp h
    have ⟨hs, ha, hw, hd, hv, ht⟩ := hi (s := (outcomeDatabase D).apply e s) hrest
    obtain ⟨a, r⟩ := e
    cases r with
    | error => exact ⟨hs, ha, hw, hd, hv, ht⟩
    | ok    => cases a <;> first | exact ⟨hs, ha, hw, hd, hv, ht⟩ | cases he

theorem outcomeEnv_aside {e : Event} (h : outcomeEnv D e s = some s') : Aside s s' := by
  have ⟨w, hw, hs⟩ := Option.map_eq_some_iff.mp h
  subst hs
  refine ⟨?_, rfl, rfl, rfl, rfl, rfl⟩
  cases e <;> simp only [Deps.env, Option.ite_none_right_eq_some, Option.ite_none_left_eq_some,
    Option.some.injEq] at hw
  case tick | apply => exact hw.2 ▸ rfl
  case join | leave => exact hw ▸ rfl

theorem settlement_of_patch {p : Settlement → Bool} {data : Patch} {now : Time}
    (hs : s'.world.settlements = Table.update p (·.patch data now) s.world.settlements) :
    s'.settlement id = (s.settlement id).map fun row => if p row then row.patch data now else row := by
  rw [OutcomeStore.settlement, World.settlement, hs]
  exact Table.row?_update (k := fun row : Settlement => row.id) (f := (·.patch data now)) (fun _ => rfl) id

-- What is left by a change of the status, apart from what does not matter.
def TransitionParams.move (params : TransitionParams) (settlement : Settlement) (now : Time)
    (s : OutcomeStore) : OutcomeStore :=
  outcomeEffect (.createAudit (params.statusChanged settlement)) <| outcomeEffect
    (.updateMany params.settlementId params.nextStatus.allowedFromStatuses (params.data now)) s

variable {now : Time}

theorem move_changes : (params.move settlement now s).changes id =
    s.changes id ++ if params.settlementId = id then [(settlement.status, params.nextStatus)] else [] := by
  simp only [OutcomeStore.changes, TransitionParams.move, outcomeEffect, List.filterMap_append]
  split
  case isTrue h  => simp [OutcomeAudit.change, TransitionParams.statusChanged, h]
  case isFalse h => simp [OutcomeAudit.change, TransitionParams.statusChanged, h]

theorem move_settlement : (params.move settlement now s).settlement id =
    (s.settlement id).map fun row =>
      if row.id = params.settlementId ∧ row.status ∈ params.nextStatus.allowedFromStatuses
      then row.patch (params.data now) s.world.now
      else row := by
  refine (settlement_of_patch (p := fun row => row.id = params.settlementId ∧
    row.status ∈ params.nextStatus.allowedFromStatuses) rfl).trans ?_
  simp only [decide_eq_true_eq]

end

-- A settlement whose transaction has been submitted.
def sampleSettlement : Settlement where
  id            := "n"
  shortCode     := "AAAAAA"
  groupId       := "g"
  fromUserId    := "bob"
  toUserId      := "ann"
  amount        := 20000000
  assetCode     := "XLM"
  assetIssuer   := none
  stellarTxHash := some "hash of xdr"
  status        := .verifying
  createdAt     := 0
  updatedAt     := 0

def sampleStore : OutcomeStore where
  world := { sampleWorld with settlements := [sampleSettlement] }

def transitionTo (nextStatus : SettlementStatus) : TransitionParams :=
  { settlementId := "n", nextStatus, source := .worker }

def proceeding (n m : Nat) : List (Label OutcomeChoice Event ι) :=
  Label.acts n (List.replicate m .plain)

end Mergepay.Outcomes
