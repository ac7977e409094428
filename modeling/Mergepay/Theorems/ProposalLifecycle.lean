import Mergepay.Treasury.Requests

namespace Mergepay.Treasury

open Concurrency

-- The proposal that is updated by an action.
def LifecycleAction.target : LifecycleAction → Option String
  | core (.updateProposal id _) | expire id | markSubmitted id _ => some id
  | _ => none

def Updates (log : LifecycleLog) (id : String) : Prop :=
  some id ∈ (writtenTo log).map (·.target)

instance (log : LifecycleLog) (id : String) : Decidable (Updates log id) :=
  inferInstanceAs (Decidable (_ ∈ _))

-- The transaction that Horizon has accepted, if this is an entry about that.
def acceptedHash (D : Deps) : Concurrency.Entry LifecycleAction LifecycleAction.Answer Failure → Option String
  | ⟨.core (.submitSigned xdr), .ok _⟩ => envelopeHash D xdr
  | _                                  => none

-- A request is in time if the proposal had not expired when it was read, and has not expired since.
def InTime (log : LifecycleLog) (s : LifecycleStore) : Prop :=
  ∀ p ∈ readFirst log, p.status ≠ .expired ∧ ∀ q ∈ s.proposal p.id, q.status ≠ .expired

-- Once its envelope has been applied, a proposal is only updated by a transaction that knows about that.
def Acknowledged (D : Deps) (log : LifecycleLog) (s : LifecycleStore) : Prop :=
  ∀ p ∈ s.proposals, p.txHash ∈ s.ledger → Updates log p.id → p.txHash ∈ log.filterMap (acceptedHash D)

instance (log : LifecycleLog) (s : LifecycleStore) : Decidable (InTime log s) :=
  inferInstanceAs (Decidable (∀ p ∈ readFirst log, _ ∧ ∀ q ∈ s.proposal p.id, _))

instance (D : Deps) (log : LifecycleLog) (s : LifecycleStore) : Decidable (Acknowledged D log s) :=
  inferInstanceAs (Decidable (∀ p ∈ s.proposals, _ → _ → _))

def Punctual (D : Deps) : LifecycleStep → LifecycleStore → Prop
  | .act _ log a, s  => a.Submits → InTime log s
  | .commit _ log, s => InTime log s ∧ Acknowledged D log s

instance : DecidablePred LifecycleAction.Submits := fun a => by
  cases a with
  | core a => cases a <;> first | exact isTrue trivial | exact isFalse id
  | _      => exact isFalse id

instance (D : Deps) (a : LifecycleStep) (s : LifecycleStore) : Decidable (Punctual D a s) :=
  match a with
  | .act _ log a  => inferInstanceAs (Decidable (a.Submits → InTime log s))
  | .commit _ log => inferInstanceAs (Decidable (InTime log s ∧ Acknowledged D log s))

section

variable {D : Deps} {s s' : LifecycleStore} {log : LifecycleLog} {as : List LifecycleAction} {id : String}
  {p q : TreasuryProposal}

theorem not_accepted {hash : String} (h : ∀ e ∈ log, ¬e.action.Submits) :
    hash ∉ log.filterMap (acceptedHash D) := by
  intro hm
  have ⟨e, he, ha⟩ := List.mem_filterMap.mp hm
  unfold acceptedHash at ha
  split at ha
  case h_1 => exact h _ he trivial
  case h_2 => cases ha

-- What a transaction does to a single proposal.
inductive RowChange (D : Deps) (s : LifecycleStore) (log : LifecycleLog) (as : List LifecycleAction)
    (p : TreasuryProposal) : TreasuryProposal → Prop
  | kept : some p.id ∉ as.map (·.target) → RowChange D s log as p p
  | expired : p.status = .pending → (∀ e ∈ log, ¬e.action.Submits) →
    RowChange D s log as p (p.set expiredData)
  | awaiting : Recorded D s log p₀ vs → p₀.id = p.id → some p.id ∈ as.map (·.target) →
    (∀ e ∈ log, ¬e.action.Submits) →
    RowChange D s log as p (p.set { signatures := some vs, status := some .awaitingSignatures })
  | confirmed {hash : String} : Recorded D s log p₀ vs → p₀.id = p.id → RowChange D s log as p
    ((p.set { signatures := some vs, status := some .submitted }).set {
      status := some .confirmed, stellarTxHash := some hash })

theorem row_update {data : TreasuryProposal → TreasuryProposal} {b : TreasuryProposal → Bool}
    (hid : ∀ p, (data p).id = p.id) (hp : s.proposal id = some p) :
    Table.row? (·.id) (Table.update b data s.proposals) id = some (if b p then data p else p) := by
  rw [Table.row?_update hid]
  exact congrArg (Option.map _) hp

theorem Written.row (h : Written D s log as) (hp : s.proposal id = some p)
    (ha : ∀ id', as = [.expire id'] → ∃ q, s.proposal id' = some q ∧ q.status = .pending) :
    ∃ q, Table.row? (·.id) (as.foldl (fun l a => a.change s.now l) s.proposals) id = some q ∧
      RowChange D s log as p q := by
  have hid : p.id = id := Table.key_of_row? hp
  cases h with
  | nothing => exact ⟨p, hp, .kept (by simp)⟩
  | created =>
    refine ⟨p, ?_, .kept (by simp [LifecycleAction.target])⟩
    simp only [List.foldl_cons, List.foldl_nil, LifecycleAction.change]
    rw [Table.row?, List.find?_append]
    exact Option.or_of_isSome (by rw [← Table.row?, ← Store.proposal, hp]; rfl) |>.trans hp
  | @expired id' hn =>
    refine ⟨_, row_update (fun _ => rfl) hp, ?_⟩
    obtain ⟨q, hq, hs⟩ := ha id' rfl
    by_cases he : id = id'
    case pos =>
      cases hp.symm.trans (he ▸ hq)
      rw [if_pos (by simp [hid, he, hs])]
      exact .expired hs hn
    case neg =>
      rw [if_neg (by simp [hid, he])]
      exact .kept (by simp [LifecycleAction.target, hid, he])
  | @awaiting p₀ vs hr hlt hn =>
    refine ⟨_, row_update (fun _ => rfl) hp, ?_⟩
    by_cases he : p.id = p₀.id
    case pos =>
      rw [if_pos (by simp [he])]
      exact .awaiting hr he.symm (by simp [LifecycleAction.target, he]) hn
    case neg =>
      rw [if_neg (by simp [he])]
      exact .kept (by simp [LifecycleAction.target, he])
  | @confirmed p₀ vs hash hr hl =>
    simp only [List.foldl_cons, List.foldl_nil, LifecycleAction.change]
    rw [update_set_set]
    refine ⟨_, row_update (fun _ => rfl) hp, ?_⟩
    by_cases he : p.id = p₀.id
    case pos =>
      rw [if_pos (by simp [he])]
      exact .confirmed hr he.symm
    case neg =>
      rw [if_neg (by simp [he])]
      exact .kept (by simp [LifecycleAction.target, he])

def TreasuryProposal.Finished (p : TreasuryProposal) : Prop :=
  p.status = .confirmed ∨ p.status = .failed ∨ p.status = .expired

theorem RowChange.finished (h : RowChange D s log (writtenTo log) p q) (hi : s.Sound D)
    (hp : s.proposal p.id = some p) (ht : InTime log s) (hk : Acknowledged D log s) (hf : p.Finished) :
    q.status = p.status ∧ (p.status = .expired → q = p) := by
  have hm := Table.mem_of_row? hp
  have hstage := (hi.proposals p hm).stage
  cases h with
  | kept _       => exact ⟨rfl, fun _ => rfl⟩
  | expired hs _ => rcases hf with h | h | h <;> cases hs.symm.trans h
  | @awaiting p₀ vs hr hid hu hn =>
    rcases hf with h | h | h
    case inl =>
      simp only [TreasuryProposal.Stage, h] at hstage
      exact (not_accepted hn (hk p hm hstage hu)).elim
    case inr.inl =>
      simp only [TreasuryProposal.Stage, h] at hstage
    case inr.inr => exact ((ht p₀ hr.read).2 p (hid ▸ hp) h).elim
  | @confirmed p₀ vs hash hr hid =>
    rcases hf with h | h | h
    case inl     => exact ⟨h.symm, fun he => by cases h.symm.trans he⟩
    case inr.inl =>
      simp only [TreasuryProposal.Stage, h] at hstage
    case inr.inr => exact ((ht p₀ hr.read).2 p (hid ▸ hp) h).elim

theorem RowChange.applied (h : RowChange D s log (writtenTo log) p q) (hp : s.proposal p.id = some p)
    (hk : Acknowledged D log s) (ha : p.txHash ∈ s.ledger) (hu : Updates log p.id) : q.status = .confirmed := by
  have hacc := hk p (Table.mem_of_row? hp) ha hu
  cases h with
  | kept hn         => exact (hn hu).elim
  | expired _ hn    => exact (not_accepted hn hacc).elim
  | awaiting _ _ _ hn => exact (not_accepted hn hacc).elim
  | confirmed       => rfl

-- A proposal is not changed any more once it has been finished.
def LifecycleStore.Settles (s s' : LifecycleStore) : Prop :=
  ∀ id p, s.proposal id = some p → p.Finished → ∃ q, s'.proposal id = some q ∧ q.status = p.status ∧
    (p.status = .expired → q = p)

theorem LifecycleStore.Settles.of_eq (h : s'.proposals = s.proposals) : s.Settles s' :=
  fun id p hp _ => ⟨p, by rw [Store.proposal, h]; exact hp, rfl, fun _ => rfl⟩

theorem LifecycleStore.Settles.trans (h : s.Settles s') (h' : s'.Settles s'') : s.Settles s'' := by
  intro id p hp hf
  have ⟨q, hq, hs, he⟩ := h id p hp hf
  have ⟨q', hq', hs', he'⟩ := h' id q hq (by rwa [TreasuryProposal.Finished, hs])
  exact ⟨q', hq', hs'.trans hs, fun hx => (he' (hs.trans hx)).trans (he hx)⟩

end

section

variable {D : LifecycleDeps} {c c' c₁ c₂ : LifecycleConfig} {id : String} {p : TreasuryProposal}

variable (D) (C : LifecycleStep → LifecycleStore → Prop)

variable {D C}

end

end Mergepay.Treasury
