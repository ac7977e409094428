import Mergepay.Anchors.Writes

namespace Mergepay.Anchors

open Concurrency Sep24TransactionStatus

-- Any number of transitions, each of which reports whether it has changed the status.
abbrev sessionCalls :=
  anchorDatabase.calls anchorEnv applyAnchorSessionTransition

abbrev SessionConfig :=
  Config (Observed AnchorStore TransitionParams AnchorSessionUpdateResult)
    (Reported (Database.Step TransitionParams AnchorAction AnchorAction.Answer Failure) TransitionParams
      AnchorSessionUpdateResult) (Reported.Answer Database.Step.Answer) Failure

section

variable {s : AnchorStore} {c c₁ c₂ : SessionConfig} {id : String}
  {l : Label AnchorChoice Time TransitionParams}

-- What a single step does to a session, and what is reported about it.
structure SessionStep (id : String) (l : Label AnchorChoice Time TransitionParams)
    (c₁ c₂ : SessionConfig) : Prop where
  advances : Advances id c₁.shared.state c₂.shared.state
  changed  : ∀ params result, Database.Obtains l c₂ params result → (result.changed = true ↔
    c₂.shared.state.status params.sessionId ≠ c₁.shared.state.status params.sessionId)
  reported : c₂.shared.state.status id ≠ c₁.shared.state.status id →
    ∃ params result, Database.Obtains l c₂ params result ∧ params.sessionId = id

theorem SessionStep.of_eq (hs : c₂.shared.state.sessions = c₁.shared.state.sessions)
    (hh : c₂.shared.state.history = c₁.shared.state.history)
    (ha : c₂.shared.state.audits = c₁.shared.state.audits)
    (hn : ∀ i v, ¬Database.Obtains l c₂ i v) : SessionStep id l c₁ c₂ where
  advances := .of_eq hs hh ha
  changed  := fun _ _ h => (hn _ _ h).elim
  reported := fun h => (h (by rw [AnchorStore.status, AnchorStore.session, hs]; rfl)).elim

theorem session_step (r : sessionCalls.Run (fun _ _ => True) ⟨⟨s, []⟩, []⟩ c₁)
    (m : c₁.Meets (fun _ _ => True) l) (hn : sessionCalls.next l c₁ = some c₂) :
    SessionStep id l c₁ c₂ := by
  cases (Database.Calling.next (Database.Calling.run r) m hn).2 with
  | idle hs hn => exact .of_eq (hs ▸ rfl) (hs ▸ rfl) (hs ▸ rfl) hn
  | env hs hn  =>
    have hs := anchorEnv_eq hs
    exact .of_eq (hs ▸ rfl) (hs ▸ rfl) (hs ▸ rfl) hn
  | @commit params log result ha _ had hs ho =>
    rw [Database.view_filter effect_of_reads] at hs
    rw [Database.admitted_filter effect_of_reads] at had
    have hw := applyAnchorSessionTransition_leaves params log result ha
    have ⟨hadv, hchanged, hown⟩ : Advances id c₁.shared.state c₂.shared.state ∧ _ := hw.commit had hs
    refine ⟨hadv, fun p v hp => ?_, fun hne => ⟨params, result, ho, ?_⟩⟩
    · obtain ⟨rfl, rfl⟩ := ho.unique hp
      exact hchanged
    · exact (hown hne).symm

-- No more than a refund comes after a terminal state.
theorem trail_of_terminal {a b : Sep24TransactionStatus}
    {edges : List (Sep24TransactionStatus × Sep24TransactionStatus)} (h : a.isTerminal = true)
    (ht : Trail (fun a b => a.canTransition b = true) a edges b) :
    edges = [] ∧ b = a ∨ a = error ∧ edges = [(error, refunded)] ∧ b = refunded := by
  cases ht with
  | nil        => exact .inl ⟨rfl, rfl⟩
  | cons he ht =>
    obtain ⟨rfl, rfl⟩ := canTransition_of_terminal h he
    have hr : ∀ b, ¬refunded.canTransition b = true := fun b => by cases b <;> decide
    obtain ⟨rfl, rfl⟩ := ht.of_terminal hr
    exact .inr ⟨rfl, rfl, rfl⟩

-- Every step changes the status of a session along an edge at most, which is recorded by one row of the
-- history and one audit, and is reported by the call that has committed it. So the records of a session
-- are a path from one status to the other, which ends in terminal states, apart from refunds.
theorem session_changes_audited (r : sessionCalls.Run (fun _ _ => True) ⟨⟨s, []⟩, []⟩ c) (id : String) :
    (∀ l c', sessionCalls.next l c = some c' → SessionStep id l c c') ∧
    ∀ a c', c.shared.state.status id = some a → sessionCalls.Run (fun _ _ => True) c c' →
      ∃ b edges, c'.shared.state.status id = some b ∧
        c'.shared.state.changes id = c.shared.state.changes id ++ edges ∧
        c'.shared.state.entered id = c.shared.state.entered id ++ edges.map (·.2) ∧
        Trail (fun a b => a.canTransition b = true) a edges b ∧
        (a.isTerminal = true → edges = [] ∧ b = a ∨ a = error ∧ edges = [(error, refunded)] ∧ b = refunded) := by
  refine ⟨fun l c' hn => session_step r (Config.meets_of_forall (fun _ _ => trivial) c l) hn, fun a c' ha r' => ?_⟩
  have ⟨b, edges, hb, ⟨hc, he⟩, ht⟩ := System.trail_of_run
    (R := fun a b => a.canTransition b = true) (f := fun o => o.state.status id)
    (K := fun edges o => o.state.changes id = c.shared.state.changes id ++ edges ∧
      o.state.entered id = c.shared.state.entered id ++ edges.map (·.2)) ?_ r' ha (by simp)
  · exact ⟨b, edges, hb, hc, he, ht, fun h => trail_of_terminal h ht⟩
  intro c₁ c₂ l r₁ m hn a edges ha ⟨hc, he⟩
  have ⟨b, hb, h⟩ := (session_step (r.trans r₁) m hn).advances a ha
  refine ⟨b, hb, ?_⟩
  rcases h with ⟨rfl, hc', he'⟩ | ⟨ht, hc', he'⟩
  case inl => exact .inl ⟨rfl, hc'.trans hc, he'.trans he⟩
  case inr =>
    refine .inr ⟨ht, ?_, ?_⟩
    · rw [hc', hc, List.append_assoc]
    · rw [he', he, List.append_assoc, List.map_append]
      rfl

end

-- A poll has found the transfer to be completed, while a callback reports an error.
def sessionCompleted : TransitionParams where
  sessionId             := "session"
  nextStatus            := "completed"
  source                := .poll
  expectedCurrentStatus := some "pending_anchor"

def sessionFailed : TransitionParams where
  sessionId  := "session"
  nextStatus := "error"
  source     := .webhook

-- Both have read the session before one of them commits.
def competing : List (Label AnchorChoice Time TransitionParams) :=
  .flatten [
    [.spawn sessionCompleted, .spawn sessionFailed], Label.acts 0 [.plain], Label.acts 1 [.plain],
    Label.acts 0 (List.replicate 6 .plain), Label.acts 1 (List.replicate 3 .plain)
  ]

theorem session_changes_audited_sample : ∃ c : SessionConfig,
    c.shared.state.status "session" = some .completed ∧
    c.shared.state.changes "session" = [(.pendingAnchor, .completed)] ∧
    c.shared.reports.map (fun (params, result) => (params.nextStatus, result.changed)) =
      [("completed", true), ("error", false)] ∧
    ∀ c', sessionCalls.Run (fun _ _ => True) c c' →
      c'.shared.state.status "session" = some .completed := by
  have ⟨c, r, hc⟩ := System.exists_run_of_play (C := fun _ _ => True) (S := sessionCalls)
    (c := ⟨⟨sampleSessions, []⟩, []⟩)
    (p := fun c => c.shared.state.status "session" = some .completed ∧
      c.shared.state.changes "session" = [(.pendingAnchor, .completed)] ∧
      c.shared.reports.map (fun (params, result) => (params.nextStatus, result.changed)) =
        [("completed", true), ("error", false)]) competing (by decide +kernel)
  have ⟨hs, hc, hr⟩ := of_decide_eq_true hc
  refine ⟨c, hs, hc, hr, fun c' r' => ?_⟩
  have ⟨b, _, hb, _, _, _, ht⟩ := (session_changes_audited r "session").2 _ c' hs r'
  rcases ht (by decide) with ⟨_, rfl⟩ | ⟨hn, _⟩
  case inl => exact hb
  case inr => cases hn

end Mergepay.Anchors
