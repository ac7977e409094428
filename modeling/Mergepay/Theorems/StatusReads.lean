import Mergepay.History.Status
import Mergepay.Settlement.Runs

namespace Mergepay

open Concurrency

namespace PublicStatus

def rank : PublicStatus → Nat
  | awaitingSignature            => 0
  | submitted                    => 1
  | confirmed | failed | expired => 2

-- What may be told to a client who has been told `s`.
def Precedes (s s' : PublicStatus) : Prop :=
  if s.isTerminalSettlementStatus then s' = s else s.rank ≤ s'.rank

instance : DecidableRel Precedes :=
  fun _ _ => inferInstanceAs (Decidable (ite ..))

end PublicStatus

-- How a status is read: at some time, with or without consulting Horizon.
structure StatusRead where
  now    : Time
  lookup : Option Lookup := none
  deriving DecidableEq

namespace Settlement

variable (s : Settlement) (read : StatusRead)

def statusInput : SettlementStatusInput where
  status          := s.status.text
  stellarTxHash   := s.stellarTxHash
  failureReason   := s.failureReason
  failureCategory := s.failureCategory
  expiresAt       := s.expiresAt

def told : PublicStatus :=
  match read.lookup with
  | none        => s.statusInput.toPublicStatus read.now
  | some lookup => (s.statusInput.resolveSettlementStatus lookup read.now).status

def ended : Bool :=
  s.status ∈ [.confirmed, .failed, .expired]

def lapsed : Bool :=
  isIntentExpired s.expiresAt read.now

-- What Horizon tells about the recorded hash, if it is asked.
def observed : Option Bool :=
  match s.stellarTxHash.bind Money.present, read.lookup with
  | some _, some (.found successful) => some successful
  | _, _                             => none

-- A client can be told that the envelope has been signed.
def signed : Prop :=
  s.status = .submitted ∨ s.ended = true ∨ s.lapsed read = true ∨ (s.observed read).isSome = true

instance : Decidable (s.signed read) :=
  inferInstanceAs (Decidable (_ ∨ _))

end Settlement

def outcomeStatus (successful : Bool) : SettlementStatus :=
  if successful then .confirmed else .failed

-- The second of two reads agrees with the first one.
def Steady (s₁ s₂ : Settlement) (read₁ read₂ : StatusRead) : Prop :=
  if s₁.ended then True
  -- The end of the window has been taken for the end of the settlement.
  else if s₁.lapsed read₁ then s₂.status ≠ .confirmed ∧ s₂.status ≠ .failed
  else match s₁.observed read₁ with
    -- Horizon has been asked about a settlement that goes on.
    | some b => s₂.status = outcomeStatus b ∨
      s₂.ended = false ∧ s₂.lapsed read₂ = false ∧ s₂.observed read₂ = some b
    -- The statuses that follow are not known to clients.
    | none   => s₁.status = .submitted → s₂.signed read₂

instance : Decidable (Steady s₁ s₂ read₁ read₂) := by
  unfold Steady
  split
  · infer_instance
  · split
    · infer_instance
    · split <;> infer_instance

section

variable {s s₁ s₂ : Settlement} {read read₁ read₂ : StatusRead}

theorem toPublicStatus_statusInput (now : Time) : s.statusInput.toPublicStatus now =
    match s.status with
    | .confirmed => .confirmed
    | .failed    => .failed
    | .expired   => .expired
    | .submitted => if isIntentExpired s.expiresAt now then .expired else .submitted
    | _          => if isIntentExpired s.expiresAt now then .expired else .awaitingSignature := by
  unfold SettlementStatusInput.toPublicStatus
  simp only [Settlement.statusInput]
  cases s.status <;> rfl

-- Horizon is asked about open settlements only.
theorem resolveSettlementStatus_status {i : SettlementStatusInput} (lookup : Lookup) (now : Time) :
    (i.resolveSettlementStatus lookup now).status =
    if (i.toPublicStatus now).isTerminalSettlementStatus then i.toPublicStatus now
    else match i.stellarTxHash.bind Money.present, lookup with
      | some _, .found successful => if successful then .confirmed else .failed
      | _, _                      => i.toPublicStatus now := by
  simp only [SettlementStatusInput.resolveSettlementStatus]
  cases i.stellarTxHash.bind Money.present with
  | none      => simp
  | some hash =>
    cases (i.toPublicStatus now).isTerminalSettlementStatus with
    | true  => simp
    | false =>
      cases lookup with
      | failed | missing => simp [SettlementStatusInput.lookupOnChain]
      | found successful => cases successful <;> simp [SettlementStatusInput.lookupOnChain]

theorem told_eq : s.told read =
    if (s.statusInput.toPublicStatus read.now).isTerminalSettlementStatus then s.statusInput.toPublicStatus read.now
    else match s.observed read with
      | some b => if b then .confirmed else .failed
      | none   => s.statusInput.toPublicStatus read.now := by
  unfold Settlement.told Settlement.observed
  cases read.lookup with
  | none => cases s.stellarTxHash.bind Money.present <;> simp
  | some lookup =>
    simp only [resolveSettlementStatus_status]
    rw [Settlement.statusInput]
    cases s.stellarTxHash.bind Money.present with
    | none   => rfl
    | some _ => cases lookup <;> rfl

theorem ended_cases (h : s.ended = true) :
    s.status = .confirmed ∨ s.status = .failed ∨ s.status = .expired := by
  simpa [Settlement.ended] using h

theorem told_of_ended (h : s.ended = true) : s.told read =
    if s.status = .confirmed then .confirmed else if s.status = .failed then .failed else .expired := by
  rw [told_eq, toPublicStatus_statusInput]
  rcases ended_cases h with h | h | h <;> rw [h] <;> rfl

theorem told_of_open (h : s.ended = false) : s.told read =
    if s.lapsed read then .expired
    else match s.observed read with
      | some b => if b then .confirmed else .failed
      | none   => if s.status = .submitted then .submitted else .awaitingSignature := by
  have h : s.status ≠ .confirmed ∧ s.status ≠ .failed ∧ s.status ≠ .expired := by simpa [Settlement.ended] using h
  rw [told_eq, toPublicStatus_statusInput, Settlement.lapsed]
  revert h
  cases isIntentExpired s.expiresAt read.now <;> cases s.status <;> simp [PublicStatus.isTerminalSettlementStatus]

-- A terminal answer is only followed by itself.
theorem precedes_of_terminal {p q : PublicStatus} (h : p.isTerminalSettlementStatus = true) :
    p.Precedes q ↔ q = p := by
  rw [PublicStatus.Precedes, if_pos h]

theorem outcomeStatus_ended (h : s.status = outcomeStatus b) : s.ended = true := by
  cases b <;> simp [Settlement.ended, h, outcomeStatus]

-- The end of the window is final unless an outcome is stored later.
theorem told_expired_iff (hl : s.lapsed read = true) :
    s.told read = .expired ↔ s.status ≠ .confirmed ∧ s.status ≠ .failed := by
  cases he : s.ended with
  | true =>
    rw [told_of_ended he]
    rcases ended_cases he with h | h | h <;> simp [h]
  | false =>
    rw [told_of_open he, if_pos hl]
    have h : s.status ≠ .confirmed ∧ s.status ≠ .failed ∧ s.status ≠ .expired := by
      simpa [Settlement.ended] using he
    exact iff_of_true rfl ⟨h.1, h.2.1⟩

theorem told_outcome_iff : s.told read = (if b then .confirmed else .failed) ↔
    s.status = outcomeStatus b ∨ s.ended = false ∧ s.lapsed read = false ∧ s.observed read = some b := by
  cases he : s.ended with
  | true =>
    rw [told_of_ended he]
    rcases ended_cases he with h | h | h <;> cases b <;> simp [h, outcomeStatus]
  | false =>
    have hn : s.status ≠ outcomeStatus b := fun h => by simp [outcomeStatus_ended h] at he
    rw [told_of_open he]
    cases s.lapsed read with
    | true  => cases b <;> simp [hn]
    | false =>
      cases s.observed read with
      | some b' => cases b <;> cases b' <;> simp [hn]
      | none    => cases b <;> simp [hn, ite_eq_iff]

theorem told_rank_iff : 1 ≤ (s.told read).rank ↔ s.signed read := by
  unfold Settlement.signed
  cases he : s.ended with
  | true =>
    rw [told_of_ended he]
    rcases ended_cases he with h | h | h <;> simp [h, PublicStatus.rank]
  | false =>
    rw [told_of_open he]
    cases s.lapsed read with
    | true  => simp [PublicStatus.rank]
    | false =>
      cases s.observed read with
      | some b => cases b <;> simp [PublicStatus.rank]
      | none   => by_cases h : s.status = .submitted <;> simp [h, PublicStatus.rank]

-- The second read agrees with the first one if and only if the client may be told its result.
theorem precedes_iff (hend : s₁.ended = true → s₂.status = s₁.status)
    (hlapsed : s₁.lapsed read₁ = true → s₂.lapsed read₂ = true) :
    (s₁.told read₁).Precedes (s₂.told read₂) ↔ Steady s₁ s₂ read₁ read₂ := by
  unfold Steady
  cases he : s₁.ended with
  | true =>
    have hst := hend he
    have he₂ : s₂.ended = true := by rwa [Settlement.ended, hst]
    have h : s₂.told read₂ = s₁.told read₁ := by rw [told_of_ended he, told_of_ended he₂, hst]
    have ht : (s₁.told read₁).isTerminalSettlementStatus = true := by
      rw [told_of_ended he]
      rcases ended_cases he with h | h | h <;> rw [h] <;> rfl
    exact iff_of_true ((precedes_of_terminal ht).mpr h) trivial
  | false =>
    rw [if_neg (by simp), told_of_open he]
    cases hl : s₁.lapsed read₁ with
    | true => exact (precedes_of_terminal rfl).trans <| told_expired_iff (hlapsed hl)
    | false =>
      simp only [Bool.false_eq_true, if_false]
      cases ho : s₁.observed read₁ with
      | some b =>
        have ht : (if b then PublicStatus.confirmed else .failed).isTerminalSettlementStatus = true := by
          cases b <;> rfl
        exact (precedes_of_terminal ht).trans told_outcome_iff
      | none =>
        by_cases h : s₁.status = .submitted
        case pos =>
          rw [if_pos h]
          have hr : 1 ≤ (s₂.told read₂).rank ↔ s₂.signed read₂ := told_rank_iff
          exact hr.trans ⟨fun hr _ => hr, fun hr => hr h⟩
        case neg =>
          rw [if_neg h]
          exact iff_of_true (Nat.zero_le _) fun h' => absurd h' h

theorem told_ne_awaitingSignature_iff : s.told read ≠ .awaitingSignature ↔ s.signed read := by
  rw [← told_rank_iff]
  cases s.told read <;> simp [PublicStatus.rank]

-- Once lapsed, always lapsed.
theorem lapsed_mono (hx : s₂.expiresAt = s₁.expiresAt) (ht : read₁.now ≤ read₂.now)
    (h : s₁.lapsed read₁ = true) : s₂.lapsed read₂ = true := by
  unfold Settlement.lapsed isIntentExpired at *
  rw [hx]
  have ⟨t, hm, h⟩ := Option.any_eq_true _ _ |>.mp h
  refine Option.any_eq_true _ _ |>.mpr ⟨t, hm, ?_⟩
  have hn : nowSeconds read₁.now ≤ nowSeconds read₂.now := by
    rw [nowSeconds_eq, nowSeconds_eq]
    exact Int.ediv_le_ediv (by decide) ht
  simp only [decide_eq_true_eq] at *
  exact lt_of_lt_of_le h hn

end

-- The payer does not sign again after a failure.
def SignsOnce : Act → World → Prop
  | .update (.sign i ..), w => ∀ s ∈ w.settlement i, s.status ≠ .failed
  | _, _                    => True

-- The unguarded updates of the status column do not change the status of what has ended.
def KeepsEnded : Act → World → Prop
  | .update (.writeStatus i _ status _), w => ∀ s ∈ w.settlement i, s.ended = true → s.status = status
  | .update (.keepPending i _ true), w     => ∀ s ∈ w.settlement i, s.ended = false
  | _, _                                   => True

instance (a : Act) (w : World) : Decidable (SignsOnce a w) := by
  induction a using Act.casesOn with
  | update u =>
    induction u using Write.casesOn with
    | sign i xdr now reset => exact inferInstanceAs (Decidable (∀ s ∈ w.settlement i, _))
    | _ => exact inferInstanceAs (Decidable True)
  | _ => exact inferInstanceAs (Decidable True)

instance (a : Act) (w : World) : Decidable (KeepsEnded a w) := by
  induction a using Act.casesOn with
  | update u =>
    induction u using Write.casesOn with
    | writeStatus i _ status _ => exact inferInstanceAs (Decidable (∀ s ∈ w.settlement i, _))
    | keepPending i _ inReview =>
      cases inReview with
      | true  => exact inferInstanceAs (Decidable (∀ s ∈ w.settlement i, _))
      | false => exact inferInstanceAs (Decidable True)
    | _ => exact inferInstanceAs (Decidable True)
  | _ => exact inferInstanceAs (Decidable True)

abbrev EndsOnce (a : Act) (w : World) : Prop :=
  SignsOnce a w ∧ KeepsEnded a w

variable {D : Deps} {w : World} {s s' s₁ s₂ : Settlement}

theorem Deps.Change.expiresAt (h : D.Change C w a s s') : s'.expiresAt = s.expiresAt := by
  cases h <;> rfl

theorem Deps.Change.stays_ended (h : D.Change EndsOnce w a s s') (hw : w.settlement i = some s)
    (he : s.ended = true) : s'.status = s.status := by
  have hi := Table.key_of_row? hw
  have hs := ended_cases he
  cases h
  case same | unlink => rfl
  case transition t _ _ ha =>
    have ha := (t.applies_iff.mp ha).2
    have ht := (SettlementStatus.allowedFromStatuses_edge ha).not_terminal
    rcases hs with h | h | h
    · exact absurd h ht.1
    · exact absurd (h ▸ ha) <| SettlementStatus.failed_notMem_allowedFromStatuses _
    · exact absurd h ht.2
  case update u hm hd ha =>
    cases u
    case sign j xdr now reset =>
      have hj := Write.sign_applies_iff.mp ha
      rcases hj.2 with h | h
      · simp [h] at hs
      · exact absurd h (hm.1 s (hj.1 ▸ hi ▸ hw))
    case keepPending j n inReview =>
      have hj := Write.keepPending_applies_iff.mp ha
      cases inReview
      case false => rfl
      case true  => simp [hm.2 s (hj ▸ hi ▸ hw)] at he
    case writeStatus j k status d =>
      have hj := Write.writeStatus_applies_iff.mp ha
      exact (hm.2 s (hj ▸ hi ▸ hw) he).symm
    case expireIntent => simp [(Write.expireIntent_applies_iff.mp ha).2] at hs
    case refresh =>
      simp only [Settlement.patch_status, Write.data, hd.status, Option.getD_none]
    all_goals rfl

-- What remains of a settlement with respect to its public status.
def World.Continued (w : World) (i : String) (s : Settlement) : Prop :=
  ∃ s', w.settlement i = some s' ∧ s'.expiresAt = s.expiresAt ∧ (s.ended = true → s'.status = s.status)

theorem Deps.Move.continued (h : D.Move EndsOnce w₁ w₂) (hw : w₁.WellFormed) (hs : w₁.Continued i s) :
    w₂.Continued i s := by
  have ⟨s₁, hs₁, hx, he⟩ := hs
  have ⟨a, s₂, hs₂, hc⟩ := h.change hw hs₁
  refine ⟨s₂, hs₂, hc.expiresAt.trans hx, fun h => ?_⟩
  have hst := he h
  have he₁ : s₁.ended = true := by rwa [Settlement.ended, hst]
  exact (hc.stays_ended hs₁ he₁).trans hst

section Run

variable {c₁ c₂ : Config World Act Act.Res Failure}

-- In a run in which nobody signs again and nothing that has ended is overwritten, the public status moves
-- forward between two reads exactly as long as they are steady. After an envelope has been accepted, it is
-- reported as awaiting a signature exactly while nothing else is known of it.
theorem status_moves_forward (hw : w.WellFormed) (r₁ : D.system.Run EndsOnce ⟨w, []⟩ c₁)
    (r₂ : D.system.Run EndsOnce c₁ c₂) (hs₁ : c₁.shared.settlement i = some s₁)
    (hs₂ : c₂.shared.settlement i = some s₂) (ht : read₁.now ≤ read₂.now) :
    ((s₁.told read₁).Precedes (s₂.told read₂) ↔ Steady s₁ s₂ read₁ read₂) ∧
    (s₁.status = .submitted → (s₂.told read₂ ≠ .awaitingSignature ↔ s₂.signed read₂)) := by
  have hw₁ := Deps.wellFormed_of_run hw r₁
  have hc : c₂.shared.Continued i s₁ := (Deps.moves_of_run hw r₁ r₂).invariant hw₁
    (fun _ _ hw hc h => h.continued hw hc) ⟨s₁, hs₁, rfl, fun _ => rfl⟩
  have ⟨s, hs, hx, he⟩ := hc
  have h := Option.some.inj <| hs.symm.trans hs₂
  subst h
  refine ⟨precedes_iff he fun h => ?_, fun _ => told_ne_awaitingSignature_iff⟩
  exact lapsed_mono hx ht h

-- In the sample, the client is told that the envelope is submitted, and then that it is confirmed.
theorem status_moves_forward_sample : ∃ c₁ c₂ : Config World Act Act.Res Failure, ∃ s₁ s₂,
    c₁.shared.settlement "n" = some s₁ ∧ c₂.shared.settlement "n" = some s₂ ∧
    s₁.told ⟨0, none⟩ = .submitted ∧ s₂.told ⟨1000, none⟩ = .confirmed ∧
    (s₁.told ⟨0, none⟩).Precedes (s₂.told ⟨1000, none⟩) ∧
    s₂.told ⟨1000, none⟩ ≠ .awaitingSignature := by
  have ⟨c₁, c₂, r₁, r₂, h⟩ := System.exists_later_of_play (S := sampleDeps.system) (C := EndsOnce)
    (B := EndsOnce) (c := ⟨sampleWorld, []⟩)
    (settling 0 {} "AAAAAA" "n" ++ signing 1 "n" "x" "k")
    (submitting 2 (.applied true none) ++ polling 2 .ok)
    (p := fun c₁ c₂ => (c₁.shared.settlement "n").any fun s₁ =>
      (c₂.shared.settlement "n").any fun s₂ =>
        s₁.status = .submitted ∧ s₂.status = .confirmed ∧ s₁.told ⟨0, none⟩ = .submitted ∧
        s₂.told ⟨1000, none⟩ = .confirmed ∧ Steady s₁ s₂ ⟨0, none⟩ ⟨1000, none⟩)
    (by decide +kernel)
  simp only [Option.any_eq_true, decide_eq_true_eq] at h
  have ⟨s₁, hs₁, s₂, hs₂, hst₁, hst₂, ht₁, ht₂, hsteady⟩ := h
  have ht : (⟨0, none⟩ : StatusRead).now ≤ (⟨1000, none⟩ : StatusRead).now := by decide
  have ⟨hm, hn⟩ := status_moves_forward sampleWorld_wellFormed r₁ r₂ hs₁ hs₂ ht
  exact ⟨c₁, c₂, s₁, s₂, hs₁, hs₂, ht₁, ht₂, hm.mpr hsteady, (hn hst₁).mpr <| .inr <| .inl <| by
    simp [Settlement.ended, hst₂]⟩

-- While a worker waits for the outcome of the submission, the client is asked for a signature again. If
-- the window ends in the meantime, an expired settlement is confirmed afterwards.
theorem status_moves_backward :
    (∃ c₁ c₂ : Config World Act Act.Res Failure, ∃ s₁ s₂,
      sampleDeps.system.Run EndsOnce ⟨sampleWorld, []⟩ c₁ ∧ sampleDeps.system.Run EndsOnce c₁ c₂ ∧
      c₁.shared.settlement "n" = some s₁ ∧ c₂.shared.settlement "n" = some s₂ ∧
      s₁.told ⟨c₁.shared.now, none⟩ = .submitted ∧ s₂.told ⟨c₂.shared.now, none⟩ = .awaitingSignature) ∧
    ∃ c₁ c₂ : Config World Act Act.Res Failure, ∃ s₁ s₂,
      sampleDeps.system.Run EndsOnce ⟨sampleWorld, []⟩ c₁ ∧ sampleDeps.system.Run EndsOnce c₁ c₂ ∧
      c₁.shared.settlement "n" = some s₁ ∧ c₂.shared.settlement "n" = some s₂ ∧
      s₁.told ⟨c₁.shared.now, none⟩ = .expired ∧ s₂.told ⟨c₂.shared.now, none⟩ = .confirmed := by
  constructor
  · have ⟨c₁, c₂, r₁, r₂, h⟩ := System.exists_later_of_play (S := sampleDeps.system) (C := EndsOnce)
      (B := EndsOnce) (c := ⟨sampleWorld, []⟩)
      (settling 0 {} "AAAAAA" "n" ++ signing 1 "n" "x" "k") (submitting 2 (.applied true none))
      (p := fun c₁ c₂ => (c₁.shared.settlement "n").any fun s₁ =>
        (c₂.shared.settlement "n").any fun s₂ =>
          s₁.told ⟨c₁.shared.now, none⟩ = .submitted ∧
          s₂.told ⟨c₂.shared.now, none⟩ = .awaitingSignature)
      (by decide +kernel)
    simp only [Option.any_eq_true, decide_eq_true_eq] at h
    have ⟨s₁, hs₁, s₂, hs₂, ht₁, ht₂⟩ := h
    exact ⟨c₁, c₂, s₁, s₂, r₁, r₂, hs₁, hs₂, ht₁, ht₂⟩
  · have ⟨c₁, c₂, r₁, r₂, h⟩ := System.exists_later_of_play (S := sampleDeps.system) (C := EndsOnce)
      (B := EndsOnce) (c := ⟨sampleWorld, []⟩)
      (.flatten [
        settling 0 {} "AAAAAA" "n", signing 1 "n" "x" "k", submitting 2 (.applied true none), [.env (.tick 10000000)]
      ])
      (polling 2 .ok)
      (p := fun c₁ c₂ => (c₁.shared.settlement "n").any fun s₁ =>
        (c₂.shared.settlement "n").any fun s₂ =>
          s₁.told ⟨c₁.shared.now, none⟩ = .expired ∧ s₂.told ⟨c₂.shared.now, none⟩ = .confirmed)
      (by decide +kernel)
    simp only [Option.any_eq_true, decide_eq_true_eq] at h
    have ⟨s₁, hs₁, s₂, hs₂, ht₁, ht₂⟩ := h
    exact ⟨c₁, c₂, s₁, s₂, r₁, r₂, hs₁, hs₂, ht₁, ht₂⟩

end Run

end Mergepay
