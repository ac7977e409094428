import Mergepay.Treasury.Submission

namespace Mergepay.Treasury

open Concurrency Stellar

-- The columns which say what is to be signed. They are set when a proposal is created.
def TreasuryProposal.intent (p : TreasuryProposal) : String × String × Int :=
  (p.xdr, p.txHash, p.threshold)

theorem TreasuryProposal.of_intent {p q : TreasuryProposal} (h : q.intent = p.intent) :
    q.xdr = p.xdr ∧ q.txHash = p.txHash ∧ q.threshold = p.threshold := by
  simpa [intent] using h

-- What holds for every proposal that has been stored. Some of the statuses are never committed.

def TreasuryProposal.Stage (ledger : List String) (p : TreasuryProposal) : Prop :=
  match p.status with
  | .pending | .awaitingSignatures => (p.signatures.length : Int) < p.threshold
  | .confirmed                     => p.txHash ∈ ledger
  | .expired                       => True
  | .ready | .submitted | .failed  => False

structure TreasuryProposal.Sound (D : Deps) (ledger : List String) (p : TreasuryProposal) : Prop where
  once  : (StoredSignature.keys p.signatures).Nodup
  valid : ∀ t ∈ p.signatures, t.Valid D p.txHash
  stage : p.Stage ledger

structure LifecycleStore.Sound (D : Deps) (s : LifecycleStore) : Prop where
  ids       : (s.proposals.map (·.id)).Nodup
  proposals : ∀ p ∈ s.proposals, p.Sound D s.ledger

-- The writes that concern proposals

namespace LifecycleAction

def writes : LifecycleAction → Bool
  | core (.updateProposal _ _) | createProposal _ | expire _ | markSubmitted _ _ => true
  | _ => false

def Submits : LifecycleAction → Prop
  | core (.submitSigned _) => True
  | _                      => False

def change (now : Time) : LifecycleAction → List TreasuryProposal → List TreasuryProposal
  | core (.updateProposal id data), l => Table.update (·.id = id) (·.set data) l
  | createProposal row, l             => l ++ [{ row with createdAt := now }]
  | expire id, l                      =>
    Table.update (fun p => p.id = id ∧ p.status = .pending) (·.set expiredData) l
  | markSubmitted id txHash, l        =>
    Table.update (·.id = id) ({ · with status := .submitted, txHash }) l
  | _, l                              => l

end LifecycleAction

def writtenTo (log : LifecycleLog) : List LifecycleAction :=
  log.performed.filter (·.writes)

section

variable {D : Deps} {s : LifecycleStore} {log : LifecycleLog} {as : List LifecycleAction}

theorem change_of_reads {a : LifecycleAction} (h : a.writes = false) : a.change now l = l := by
  cases a with
  | core a => cases a <;> first | rfl | cases h
  | _      => first | rfl | cases h

theorem effect_change (a : LifecycleAction) (s : LifecycleStore) :
    (lifecycleEffect a s).proposals = a.change s.now s.proposals ∧ (lifecycleEffect a s).now = s.now ∧
      (lifecycleEffect a s).ledger = s.ledger := by
  cases a with
  | core a => cases a <;> exact ⟨rfl, rfl, rfl⟩
  | _      => exact ⟨rfl, rfl, rfl⟩

theorem view_change : ((lifecycleDatabase D).view log s).proposals =
      (writtenTo log).foldl (fun l a => a.change s.now l) s.proposals ∧
    ((lifecycleDatabase D).view log s).ledger = s.ledger := by
  rw [Database.view_eq, writtenTo]
  generalize log.performed = as
  induction as generalizing s with
  | nil          => exact ⟨rfl, rfl⟩
  | cons a as hi =>
    have ⟨hp, hn, hl⟩ := effect_change a s
    have ⟨h₁, h₂⟩ := hi (s := lifecycleEffect a s)
    refine ⟨h₁.trans ?_, h₂.trans hl⟩
    rw [hp, hn]
    cases ha : a.writes with
    | true  => simp [ha]
    | false => simp [ha, change_of_reads ha]

-- The first write of a transaction is admitted in a state with the same proposals.
theorem admitted_first (h : (lifecycleDatabase D).allowed as s = true)
    (ha : as.filter (·.writes) = a :: tl) :
    ∃ s' : LifecycleStore, s'.proposals = s.proposals ∧ lifecycleAdmits a s' = true := by
  induction as generalizing s with
  | nil          => cases ha
  | cons b as hi =>
    have ⟨hb, h⟩ := (Bool.and_eq_true ..).mp h
    cases hw : b.writes with
    | true =>
      simp only [List.filter_cons, hw, if_true, List.cons.injEq] at ha
      exact ⟨s, rfl, ha.1 ▸ hb⟩
    | false =>
      simp only [List.filter_cons, hw, Bool.false_eq_true, if_false] at ha
      have ⟨s', hs', hadm⟩ := hi h ha
      exact ⟨s', hs'.trans <| (effect_change b s).1.trans (change_of_reads hw), hadm⟩

end

def readFirst : LifecycleLog → Option TreasuryProposal
  | ⟨.core (.findProposal _), .ok p⟩ :: _ => p
  | _                                     => none

-- The signatures that are recorded for the proposal that a request has read.
structure Recorded (D : Deps) (s : LifecycleStore) (log : LifecycleLog) (p : TreasuryProposal)
    (vs : List StoredSignature) : Prop where
  read    : readFirst log = some p
  checked : ∃ groupId, checkProposal p groupId = .ok ()
  current : ∀ q, s.proposal p.id = some q → q.intent = p.intent
  once    : (StoredSignature.keys vs).Nodup
  valid   : ∀ t ∈ vs, t.Valid D p.txHash

-- What a transaction writes.
inductive Written (D : Deps) (s : LifecycleStore) (log : LifecycleLog) : List LifecycleAction → Prop
  | nothing : Written D s log []
  | created {row : TreasuryProposal} : row.signatures = [] → row.status = initialStatus row.threshold →
    1 ≤ row.threshold → Written D s log [.createProposal row]
  | expired {id : String} : (∀ e ∈ log, ¬e.action.Submits) → Written D s log [.expire id]
  | awaiting : Recorded D s log p vs → (vs.length : Int) < p.threshold → (∀ e ∈ log, ¬e.action.Submits) →
    Written D s log [.core (.updateProposal p.id {
      signatures := some vs, status := some .awaitingSignatures })]
  | confirmed {hash : String} : Recorded D s log p vs → p.txHash ∈ s.ledger → Written D s log [
    .core (.updateProposal p.id { signatures := some vs, status := some .submitted }),
    .core (.updateProposal p.id { status := some .confirmed, stellarTxHash := some hash })]

section

variable {D : Deps} {s s' : LifecycleStore} {log : LifecycleLog} {as : List LifecycleAction}

-- Proposals are never removed, and the intent of a proposal never changes.
structure LifecycleStore.Extends (s s' : LifecycleStore) : Prop where
  intent : ∀ id p, s.proposal id = some p → ∃ p', s'.proposal id = some p' ∧ p'.intent = p.intent
  ledger : ∀ hash ∈ s.ledger, hash ∈ s'.ledger

namespace LifecycleStore.Extends

theorem refl : s.Extends s where
  intent := fun _ p h => ⟨p, h, rfl⟩
  ledger := fun _ h => h

theorem trans (h : s.Extends s') (h' : s'.Extends s'') : s.Extends s'' where
  intent := fun id p hp =>
    have ⟨p', hp', hi⟩ := h.intent id p hp
    have ⟨p'', hp'', hi'⟩ := h'.intent id p' hp'
    ⟨p'', hp'', hi'.trans hi⟩
  ledger := fun hash hh => h'.ledger hash (h.ledger hash hh)

end LifecycleStore.Extends

theorem intent_update {f : TreasuryProposal → TreasuryProposal} {q : TreasuryProposal → Bool} {id : String}
    {l : List TreasuryProposal} {p : TreasuryProposal} (hid : ∀ p, (f p).id = p.id)
    (hf : ∀ p, (f p).intent = p.intent) (h : Table.row? (·.id) l id = some p) :
    ∃ p', Table.row? (·.id) (Table.update q f l) id = some p' ∧ p'.intent = p.intent := by
  rw [Table.row?_update hid, h]
  refine ⟨_, rfl, ?_⟩
  simp only
  split
  · exact hf p
  · rfl

theorem intent_change (now : Time) {a : LifecycleAction} {id : String} {l : List TreasuryProposal}
    {p : TreasuryProposal} (ha : ∀ id txHash, a ≠ .markSubmitted id txHash)
    (h : Table.row? (·.id) l id = some p) :
    ∃ p', Table.row? (·.id) (a.change now l) id = some p' ∧ p'.intent = p.intent := by
  unfold LifecycleAction.change
  split
  case h_1 => exact intent_update (fun _ => rfl) (fun _ => rfl) h
  case h_2 =>
    refine ⟨p, ?_, rfl⟩
    rw [Table.row?, List.find?_append]
    exact Option.or_of_isSome (by rw [← Table.row?, h]; rfl) |>.trans h
  case h_3 => exact intent_update (fun _ => rfl) (fun _ => rfl) h
  case h_4 => exact (ha _ _ rfl).elim
  case h_5 => exact ⟨p, h, rfl⟩

theorem intent_changes {id : String} {now : Time} {l : List TreasuryProposal} {p : TreasuryProposal}
    (ha : ∀ a ∈ as, ∀ id txHash, a ≠ .markSubmitted id txHash) (h : Table.row? (·.id) l id = some p) :
    ∃ p', Table.row? (·.id) (as.foldl (fun l a => a.change now l) l) id = some p' ∧
      p'.intent = p.intent := by
  induction as generalizing l p with
  | nil          => exact ⟨p, h, rfl⟩
  | cons a as hi =>
    have ⟨ha, has⟩ := List.forall_mem_cons.mp ha
    have ⟨p₁, h₁, e₁⟩ := intent_change now ha h
    have ⟨p₂, h₂, e₂⟩ := hi has h₁
    exact ⟨p₂, h₂, e₂.trans e₁⟩

theorem view_extends (h : ∀ a ∈ writtenTo log, ∀ id txHash, a ≠ .markSubmitted id txHash) :
    s.Extends ((lifecycleDatabase D).view log s) where
  intent := fun id p hp => by
    rw [Store.proposal, view_change.1]
    exact intent_changes h hp
  ledger := fun hash hh => by rwa [view_change.2]

theorem Written.unmarked (h : Written D s log as) :
    ∀ a ∈ as, ∀ id txHash, a ≠ .markSubmitted id txHash := by
  cases h <;> simp

-- How a state is left that has been sound.

theorem updated_sound {q : TreasuryProposal → Bool} {f : TreasuryProposal → TreasuryProposal}
    {l : List TreasuryProposal} (hp : ∀ p ∈ l, p.Sound D ledger)
    (hf : ∀ p ∈ l, q p = true → p.Sound D ledger → (f p).Sound D ledger) :
    ∀ p ∈ Table.update q f l, p.Sound D ledger := by
  intro p' hp'
  have ⟨p, hm, he⟩ := Table.mem_update.mp hp'
  split at he
  case isTrue hq  => exact he ▸ hf p hm hq (hp p hm)
  case isFalse => exact he ▸ hp p hm

theorem update_set_set {id : String} {data data' : ProposalData} {l : List TreasuryProposal} :
    Table.update (·.id = id) (·.set data') (Table.update (·.id = id) (·.set data) l) =
      Table.update (·.id = id) (fun q : TreasuryProposal => (q.set data).set data') l :=
  Table.update_update (f := fun q : TreasuryProposal => q.set data) fun _ => rfl

theorem ids_update {q : TreasuryProposal → Bool} {f : TreasuryProposal → TreasuryProposal}
    {l : List TreasuryProposal} (h : (l.map (·.id)).Nodup) (hf : ∀ p, (f p).id = p.id) :
    ((Table.update q f l).map (·.id)).Nodup := by
  rwa [Table.map_update hf]

theorem Recorded.current_mem {vs : List StoredSignature} {p q : TreasuryProposal} (hi : s.Sound D)
    (h : Recorded D s log p vs) (hq : q ∈ s.proposals) (hid : q.id = p.id) :
    q.txHash = p.txHash ∧ q.threshold = p.threshold := by
  exact (TreasuryProposal.of_intent <| h.current q (hid ▸ Table.row?_of_mem hi.ids hq)).2

theorem created_sound {row : TreasuryProposal} (h₁ : row.signatures = [])
    (h₂ : row.status = initialStatus row.threshold) (h₃ : 1 ≤ row.threshold) :
    row.Sound D ledger where
  once  := by simp [h₁, StoredSignature.keys]
  valid := by simp [h₁]
  stage := by
    have hlt : (row.signatures.length : Int) < row.threshold := by
      rw [h₁]
      exact h₃
    have hs : row.status = .awaitingSignatures ∨ row.status = .pending := by
      rw [h₂, initialStatus]
      split
      · exact .inl rfl
      · exact .inr rfl
    rcases hs with hs | hs <;> simpa only [TreasuryProposal.Stage, hs] using hlt

theorem Written.sound (h : Written D s log as) (hi : s.Sound D)
    (ha : ∀ row, as = [.createProposal row] → s.proposal row.id = none) :
    ((as.foldl (fun l a => a.change s.now l) s.proposals).map (·.id)).Nodup ∧
      ∀ p ∈ as.foldl (fun l a => a.change s.now l) s.proposals, p.Sound D s.ledger := by
  cases h with
  | nothing => exact ⟨hi.ids, hi.proposals⟩
  | @created row h₁ h₂ h₃ =>
    have hfresh : row.id ∉ s.proposals.map (·.id) := by
      intro hm
      have ⟨q, hq, hid⟩ := List.mem_map.mp hm
      have ⟨q', hq'⟩ := Table.row?_isSome_of_mem (k := (·.id)) hq
      rw [hid] at hq'
      cases (ha row rfl).symm.trans hq'
    refine ⟨?_, ?_⟩
    · simp only [List.foldl_cons, List.foldl_nil, LifecycleAction.change, List.map_append]
      exact hi.ids.append (List.nodup_singleton _) (by simpa using hfresh)
    · intro p hp
      rcases List.mem_append.mp hp with hp | hp
      case inl => exact hi.proposals p hp
      case inr =>
        rw [List.mem_singleton.mp hp]
        exact created_sound h₁ h₂ h₃
  | @expired id =>
    refine ⟨?_, updated_sound hi.proposals fun p _ _ hp => ⟨hp.once, hp.valid, trivial⟩⟩
    exact ids_update hi.ids fun _ => rfl
  | @awaiting p vs hr hn =>
    refine ⟨?_, updated_sound hi.proposals fun q hq hid _ => ?_⟩
    · exact ids_update hi.ids fun _ => rfl
    · have ⟨htx, ht⟩ := hr.current_mem hi hq (of_decide_eq_true hid)
      refine ⟨hr.once, fun t hm => ?_, ?_⟩
      · exact htx.symm ▸ hr.valid t hm
      · change (vs.length : Int) < q.threshold
        rwa [ht]
  | @confirmed p vs hash hr hl =>
    simp only [List.foldl_cons, List.foldl_nil, LifecycleAction.change]
    rw [update_set_set]
    refine ⟨?_, updated_sound hi.proposals fun q hq hid _ => ?_⟩
    · exact ids_update hi.ids fun _ => rfl
    · have ⟨htx, _⟩ := hr.current_mem hi hq (of_decide_eq_true hid)
      refine ⟨hr.once, fun t hm => ?_, ?_⟩
      · exact htx.symm ▸ hr.valid t hm
      · change q.txHash ∈ s.ledger
        rwa [htx]

theorem view_sound (hi : s.Sound D) (hw : Written D s log (writtenTo log))
    (ha : (lifecycleDatabase D).admitted log s = true) : ((lifecycleDatabase D).view log s).Sound D := by
  rw [Database.admitted_eq] at ha
  have hfresh (row : TreasuryProposal) (hr : writtenTo log = [.createProposal row]) :
      s.proposal row.id = none := by
    have ⟨s', hs', hadm⟩ := admitted_first ha hr
    rw [Store.proposal, ← hs', ← Store.proposal]
    simpa [lifecycleAdmits] using hadm
  have ⟨hp, hl⟩ : _ ∧ ((lifecycleDatabase D).view log s).ledger = s.ledger := view_change
  have ⟨hn, hs⟩ := hw.sound hi hfresh
  exact ⟨hp ▸ hn, fun p hm => hl ▸ hs p (hp ▸ hm)⟩

theorem env_sound {e : LifecycleEvent} (hi : s.Sound D) (he : lifecycleEnv e s = some s') : s'.Sound D := by
  cases e with
  | core e =>
    have ⟨t, ht, hs⟩ := Option.map_eq_some_iff.mp he
    have ⟨now, members, hn⟩ := env_eq_some ht
    subst hs hn
    exact ⟨hi.ids, hi.proposals⟩
  | setGroups l =>
    cases he
    exact ⟨hi.ids, hi.proposals⟩
  | apply hash =>
    cases he
    refine ⟨hi.ids, fun p hp => ?_⟩
    have hs := hi.proposals p hp
    refine ⟨hs.once, hs.valid, ?_⟩
    have ht := hs.stage
    unfold TreasuryProposal.Stage at ht ⊢
    split <;> simp_all

end

-- An envelope that is authorized by a proposal. It carries signatures of sufficiently many signers which are
-- recorded with the proposal.
structure TreasuryProposal.Authorizes (D : Deps) (p : TreasuryProposal) (xdr : String) : Prop where
  hash   : envelopeHash D xdr = some p.txHash
  signed : ∃ signers : List String, signers.Nodup ∧ p.threshold ≤ signers.length ∧
    ∀ k ∈ signers, k ∈ StoredSignature.keys p.signatures ∧
      ∃ d ∈ D.sdk.decorated xdr, D.sdk.verify k p.txHash d.signature = true

-- The submission of an envelope, when a transaction has read `p` in the beginning and now sees it as `p'`.
structure Sanctioned (D : Deps) (args : SubmitSignaturesArgs) (log : LifecycleLog) (s : LifecycleStore)
    (xdr : String) (p p' : TreasuryProposal) : Prop where
  read       : readFirst log = some p
  id         : p.id = args.proposalId
  current    : ((lifecycleDatabase D).view log s).proposal args.proposalId = some p'
  intent     : p'.intent = p.intent
  authorizes : p'.Authorizes D xdr

-- What a request may submit and commit.
def Due (D : Deps) : LifecycleStep → LifecycleStore → Prop
  | .act i log (.core (.submitSigned xdr)), s =>
    ∃ args p p', i = .sign args ∧ Sanctioned D args log s xdr p p'
  | .act _ _ _, _     => True
  | .commit _ log, s => Written D s log (writtenTo log)

theorem due_act {a : LifecycleAction} (h : ¬a.Submits) : Due D (.act i log a) s := by
  cases a with
  | core a => cases a <;> first | trivial | exact (h trivial).elim
  | _      => trivial

abbrev lifecycleProtocol (D : LifecycleDeps) : Protocol (lifecycleServer D) :=
  Database.protocol (fun _ _ => True) (Due D.toDeps) (LifecycleStore.Sound D.toDeps)
    (fun _ _ _ hi _ hd ha => view_sound hi hd ha) (fun _ _ _ hi he => env_sound hi he)

end Mergepay.Treasury
