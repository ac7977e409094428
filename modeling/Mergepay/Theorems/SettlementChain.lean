import Mergepay.Concurrency.Call
import Mergepay.Outcomes.Writes

namespace Mergepay.Outcomes

open Concurrency

-- The status that is read at the beginning of a call.
def readStatus : OutcomeLog → Option SettlementStatus
  | ⟨.findSettlement _, .ok found⟩ :: _ => found.map (·.status)
  | _                                   => none

def OutcomeAction.moves : OutcomeAction → Bool
  | updateMany _ _ _ => true
  | _                => false

-- If a call changes the status, then it is still the one that the call has read.
def ReadIsCurrent : OutcomeStep TransitionParams → OutcomeStore → Prop
  | .commit params log, s => log.performed.any (·.moves) = true → readStatus log = s.status params.settlementId
  | .act _ _ _, _         => True

instance (a : OutcomeStep TransitionParams) (s : OutcomeStore) : Decidable (ReadIsCurrent a s) := by
  unfold ReadIsCurrent
  split <;> infer_instance

-- A settlement either keeps its status, or changes it along an edge. There is exactly one record of a change,
-- which tells the new status and `read`.
def Records (id : String) (read : SettlementStatus) (s s' : OutcomeStore) : Prop :=
  ∀ row, s.settlement id = some row → ∃ row', s'.settlement id = some row' ∧
    (row'.status = row.status ∧ s'.changes id = s.changes id ∨
      row.status.canTransitionSettlementStatus row'.status = true ∧
        s'.changes id = s.changes id ++ [(read, row'.status)])

-- What is recorded is the status that the settlement had before.
def Advances (id : String) (s s' : OutcomeStore) : Prop :=
  ∀ row, s.settlement id = some row → Records id row.status s s'

section

variable {D : Deps} {s s' : OutcomeStore} {id : String} {read : SettlementStatus} {params : TransitionParams}
  {settlement : Settlement} {v : TransitionResult} {rest : OutcomeLog}

theorem Records.of_eq (hs : s'.world.settlements = s.world.settlements) (ha : s'.audits = s.audits) :
    Records id read s s' := by
  intro row h
  refine ⟨row, ?_, .inl ⟨rfl, ?_⟩⟩
  · rw [OutcomeStore.settlement, World.settlement, hs]
    exact h
  · rw [OutcomeStore.changes, ha, OutcomeStore.changes]

-- What is left by the transaction of a call, depending on the status that it has read.
theorem view_records (hr : TransitionRuns params settlement rest v)
    (ha : (outcomeDatabase D).admitted rest s = true)
    (hread : rest.performed.any (·.moves) = true → params.settlementId = id → settlement.status = read) :
    Records id read s ((outcomeDatabase D).view rest s) := by
  cases hr with
  | repeated   => exact .of_eq rfl rfl
  | superseded => exact .of_eq rfl rfl
  | @updated data row =>
    intro row hrow
    refine ⟨_, (settlement_of_patch rfl).trans (congrArg _ hrow), .inl ⟨?_, rfl⟩⟩
    simp only
    split
    · simp [data.property]
    · rfl
  | @changed now row rest hc hrest =>
    have haside := view_aside (D := D) (s := params.move settlement now s) hrest
    have ⟨hadmits, _⟩ := (Bool.and_eq_true ..).mp ((Bool.and_eq_true ..).mp ha).2
    intro row hrow
    have hid : row.id = id := Table.key_of_row? hrow
    have hchanges := (haside.changes_eq id).trans move_changes
    refine ⟨_, (haside.settlement_eq id).trans (move_settlement.trans (congrArg _ hrow)), ?_⟩
    by_cases he : params.settlementId = id
    case neg => exact .inl ⟨by simp [hid, Ne.symm he], hchanges.trans (by simp [he])⟩
    case pos =>
      -- The guard still holds when the transaction commits.
      have ⟨row', hrow', hg⟩ := (Option.any_eq_true ..).mp hadmits
      cases (he ▸ hrow' : s.settlement id = some row').symm.trans hrow
      have hg : row.status ∈ params.nextStatus.allowedFromStatuses := of_decide_eq_true hg
      refine .inr ⟨?_, hchanges.trans ?_⟩
      · simpa [hid, he, hg, TransitionParams.data] using (SettlementStatus.mem_allowedFromStatuses.mp hg).2
      · simp [hid, he, hg, TransitionParams.data, hread rfl he]

-- All calls commit what they have been observed to do.
theorem transitionServer_avoids (params : TransitionParams) : ((transitionServer D).entry params).Avoids
    (Database.Step.Unfit (fun _ _ _ => True) fun params log => ∃ settlement rest v,
      log = ⟨.findSettlement params.settlementId, .ok (some settlement)⟩ :: rest ∧
        TransitionRuns params settlement rest v) := by
  refine .bind (Prog.transaction_avoids (fun _ _ _ _ => trivial) fun log v h => ?_) fun _ => .done ()
  have ⟨settlement, rest, hl, hr⟩ := applySettlementTransition_done h
  exact ⟨settlement, rest, v, hl, hr⟩

variable {C : OutcomeStep TransitionParams → OutcomeStore → Prop}
  {c c' : Config OutcomeStore (OutcomeStep TransitionParams) Database.Step.Answer Failure}
  {l : Label OutcomeChoice Event TransitionParams}

-- Nothing but the commit of a call concerns the settlements and the audits.
theorem next_records (r : (transitionServer D).Run C ⟨s, []⟩ c) (m : c.Meets C l)
    (hn : (transitionServer D).next l c = some c') :
    (c'.shared.world.settlements = c.shared.world.settlements ∧ c'.shared.audits = c.shared.audits) ∨
    ∃ params settlement rest v,
      C (.commit params (⟨.findSettlement params.settlementId, .ok (some settlement)⟩ :: rest)) c.shared ∧
      TransitionRuns params settlement rest v ∧ (outcomeDatabase D).admitted rest c.shared = true ∧
      c'.shared = (outcomeDatabase D).view rest c.shared := by
  rcases System.next_cases (System.avoids_run transitionServer_avoids r) m hn with
    hs | ⟨e, hs⟩ | ⟨a, x, v, hc, hd, hx⟩
  case inl     => exact .inl (hs ▸ ⟨rfl, rfl⟩)
  case inr.inl => exact .inl ⟨(outcomeEnv_aside hs).settlements, (outcomeEnv_aside hs).audits⟩
  case inr.inr =>
    cases a with
    | act params log a => exact .inl ((Database.exec_act hx).1 ▸ ⟨rfl, rfl⟩)
    | commit params log =>
      have ⟨ha, hs⟩ := Database.exec_commit hx
      rcases hs with ⟨_, hs⟩ | ⟨_, _, hs, _⟩
      case inr => exact .inl (hs ▸ ⟨rfl, rfl⟩)
      case inl =>
        obtain ⟨settlement, rest, result, rfl, hr⟩ := not_not.mp hd
        exact .inr ⟨params, settlement, rest, result, hc, hr, ha, hs⟩

theorem audited_next (r : (transitionServer D).Run C ⟨s, []⟩ c) (m : c.Meets C l)
    (hn : (transitionServer D).next l c = some c') : ∃ read, Records id read c.shared c'.shared := by
  rcases next_records r m hn with ⟨hs, ha⟩ | ⟨params, settlement, rest, v, _, hr, ha, hs⟩
  case inl => exact ⟨.pending, .of_eq hs ha⟩
  case inr => exact ⟨settlement.status, hs ▸ view_records hr ha fun _ _ => rfl⟩

theorem advances_next (r : (transitionServer D).Run ReadIsCurrent ⟨s, []⟩ c) (m : c.Meets ReadIsCurrent l)
    (hn : (transitionServer D).next l c = some c') : Advances id c.shared c'.shared := by
  intro row hrow
  rcases next_records r m hn with ⟨hs, ha⟩ | ⟨params, settlement, rest, v, hc, hr, ha, hs⟩
  case inl => exact .of_eq hs ha
  case inr =>
    rw [hs]
    refine view_records hr ha fun hm he => ?_
    have hread := hc hm
    rw [he, OutcomeStore.status, hrow] at hread
    exact Option.some.inj hread

-- In every run, a change of the status of a settlement has exactly one record. If every call that changes the
-- status finds it as it has been read, then the records are a path of the machine, which is the one that the
-- settlement has taken.
theorem settlement_changes_chained (D : Deps) (s : OutcomeStore) (id : String) :
    (∀ c l c', (transitionServer D).Run (fun _ _ => True) ⟨s, []⟩ c →
      (transitionServer D).next l c = some c' → ∃ read, Records id read c.shared c'.shared) ∧
    ∀ c, (transitionServer D).Run ReadIsCurrent ⟨s, []⟩ c →
      (∀ l c', c.Meets ReadIsCurrent l → (transitionServer D).next l c = some c' →
        Advances id c.shared c'.shared) ∧
      ∀ row, s.settlement id = some row → ∃ row' edges, c.shared.settlement id = some row' ∧
        c.shared.changes id = s.changes id ++ edges ∧
        Trail (fun a b => a.canTransitionSettlementStatus b = true) row.status edges row'.status := by
  refine ⟨fun c l c' r hn => audited_next r (Config.meets_of_forall (fun _ _ => trivial) c l) hn,
    fun c r => ⟨fun l c' m hn => advances_next r m hn, fun row hrow => ?_⟩⟩
  have hrow : s.status id = some row.status := by rw [OutcomeStore.status, hrow, Option.map_some]
  have ⟨status, edges, hs, hc, ht⟩ := System.trail_of_run (f := fun s => s.status id)
    (R := fun a b => a.canTransitionSettlementStatus b = true)
    (K := fun edges s' => s'.changes id = s.changes id ++ edges) (fun c₁ c₂ l r m hn status edges hs hc => by
      have ⟨row₁, hrow₁, hst⟩ := Option.map_eq_some_iff.mp hs
      have hadv : Advances id c₁.shared c₂.shared := advances_next r m hn
      have ⟨row₂, hrow₂, ha⟩ := hadv row₁ hrow₁ row₁ hrow₁
      subst hst
      refine ⟨row₂.status, by rw [OutcomeStore.status, hrow₂, Option.map_some], ?_⟩
      rcases ha with ⟨he, hch⟩ | ⟨ht, hch⟩
      case inl => exact .inl ⟨he, hch.trans hc⟩
      case inr => exact .inr ⟨ht, by rw [hch, hc, List.append_assoc]⟩) r hrow (List.append_nil _).symm
  have ⟨row', hrow', hst⟩ := Option.map_eq_some_iff.mp hs
  exact ⟨row', edges, hrow', hc, hst ▸ ht⟩

end

def recordedAs (changes : List (SettlementStatus × SettlementStatus))
    (c : Config OutcomeStore (OutcomeStep TransitionParams) Database.Step.Answer Failure) : Bool :=
  c.shared.changes "n" = changes ∧ (c.shared.settlement "n").any (·.status = .failed)

theorem settlement_changes_chained_sample :
    ∃ c, recordedAs [(.verifying, .needsReview), (.needsReview, .failed)] c = true ∧
      ∃ row edges, c.shared.settlement "n" = some row ∧ c.shared.changes "n" = edges ∧
        Trail (fun a b => a.canTransitionSettlementStatus b = true) .verifying edges row.status := by
  have ⟨c, r, hc⟩ := System.exists_run_of_play (C := ReadIsCurrent) (S := transitionServer sampleDeps)
    (c := ⟨sampleStore, []⟩) (p := recordedAs [(.verifying, .needsReview), (.needsReview, .failed)])
    (.flatten [
      [.spawn (transitionTo .needsReview)], proceeding 0 8, [.spawn (transitionTo .failed)], proceeding 1 8
    ]) (by decide +kernel)
  have ⟨row, edges, hrow, hc', ht⟩ :=
    ((settlement_changes_chained sampleDeps sampleStore "n").2 c r).2 _ rfl
  exact ⟨c, hc, row, edges, hrow, hc', ht⟩

-- The settlement is sent to review after it has been read on behalf of another call, but before that call fails
-- it. The second record starts where the first one does.
theorem settlement_chain_broken : ∃ c,
    (transitionServer sampleDeps).Run (fun _ _ => True) ⟨sampleStore, []⟩ c ∧
    recordedAs [(.verifying, .needsReview), (.verifying, .failed)] c = true ∧
    ¬∃ status, Trail (fun _ _ => True) .verifying (c.shared.changes "n") status := by
  have ⟨c, r, hc⟩ := System.exists_run_of_play (C := fun _ _ => True) (S := transitionServer sampleDeps)
    (c := ⟨sampleStore, []⟩) (p := recordedAs [(.verifying, .needsReview), (.verifying, .failed)])
    (.flatten [
      [.spawn (transitionTo .failed)], proceeding 0 2, [.spawn (transitionTo .needsReview)], proceeding 1 8,
      proceeding 0 6
    ]) (by decide +kernel)
  refine ⟨c, r, hc, fun ⟨status, ht⟩ => ?_⟩
  rw [(of_decide_eq_true hc).1] at ht
  cases ht with
  | cons _ ht => cases ht

end Mergepay.Outcomes
