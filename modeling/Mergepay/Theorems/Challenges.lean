import Mergepay.Auth.Challenge
import Mergepay.Concurrency.Session
import Mergepay.Concurrency.Ticket
import Mergepay.Data.Except

namespace Mergepay.Auth

open Concurrency

-- The claim that a call learns to have made.
def ChallengeAction.claimed : (a : ChallengeAction) → Except Failure a.Answer → Option Nat
  | .create _, .ok claim               => some claim
  | .insertOrIgnore _, .ok claim       => claim
  | .consumeInProcess _ _, .ok claim   => claim
  | _, _                               => none

def challengeTickets : Tickets ChallengeAction ChallengeAction.Answer Failure Nat where
  uses  := fun
    | .respond claim _ => some claim
    | _                => none
  holds := fun a r h => match a with
    | .respond _ _ => none
    | a            => (a.claimed r).or h

abbrev ChallengeConfig :=
  Config ChallengeStore ChallengeAction ChallengeAction.Answer Failure

-- Everything that an action can do.
inductive ChallengeEffect (s : ChallengeStore) :
    (a : ChallengeAction) → Except Failure a.Answer → ChallengeStore → Prop
  | nothing {a : ChallengeAction} {r : Except Failure a.Answer} : a.claimed r = none →
    challengeTickets.uses a = none → ChallengeEffect s a r s
  | recorded {a : ChallengeAction} {r : Except Failure a.Answer} {row : Sep10Challenge} :
    a = .create row ∨ a = .insertOrIgnore row → ¬s.has row.fingerprint →
    (a.claimed r = none ∨ a.claimed r = some s.claims.length) → ChallengeEffect s a r (s.record row)
  | expired {a : ChallengeAction} {r : Except Failure a.Answer} {p : Sep10Challenge → Bool} :
    a = .deleteExpired ∧ (p = fun row => decide (row.expiresAt ≤ s.now)) ∨
      (∃ t, a = .deleteExpiredBefore t ∧ p = fun row => decide (row.expiresAt < t)) →
    ChallengeEffect s a r (s.expire p)
  | swept {process : Nat} {r : Except Failure Unit} :
    ChallengeEffect s (.sweepInProcess process) r (s.sweepInProcess process)
  | consumed {process : Nat} {row : Sep10Challenge} :
    ChallengeEffect s (.consumeInProcess process row) (.ok (s.consumeInProcess process row).1)
      (s.consumeInProcess process row).2
  | responded {claim : Nat} {verified : VerifiedChallenge} :
    ChallengeEffect s (.respond claim verified) (.ok ())
      { s with responses := s.responses ++ [(claim, verified)] }

theorem ChallengeEffect.of_exec {s s' : ChallengeStore} {r : Except Failure a.Answer}
    (h : challengeExec a x s = some (r, s')) : ChallengeEffect s a r s' := by
  have inserted {a : ChallengeAction} {r : Except Failure a.Answer} {row : Sep10Challenge}
      (ha : a = .create row ∨ a = .insertOrIgnore row) (hr : a.claimed r = none) :
      ChallengeEffect s a r (s.inserted row) := by
    unfold ChallengeStore.inserted
    split
    case isTrue     => exact .nothing hr (by rcases ha with rfl | rfl <;> rfl)
    case isFalse hn => exact .recorded ha hn (.inl hr)
  unfold challengeExec at h
  split at h <;> try split at h
  all_goals cases h
  case h_4.isTrue     => exact .nothing rfl rfl
  case h_4.isFalse hn => exact .recorded (.inl rfl) hn (.inr rfl)
  case h_6            => exact inserted (.inl rfl) rfl
  case h_7.isTrue     => exact .nothing rfl rfl
  case h_7.isFalse hn => exact .recorded (.inr rfl) hn (.inr rfl)
  case h_9            => exact inserted (.inr rfl) rfl
  case h_10           => exact .expired (.inl ⟨rfl, rfl⟩)
  case h_12           => exact .expired (.inl ⟨rfl, rfl⟩)
  case h_13           => exact .expired (.inr ⟨_, rfl, rfl⟩)
  case h_15           => exact .expired (.inr ⟨_, rfl, rfl⟩)
  case h_16           => exact .swept
  case h_17           => exact .consumed
  case h_18           => exact .responded
  all_goals exact .nothing rfl rfl

-- A claim that no call has returned with yet.
def PendingClaim (claim : Nat) (s : ChallengeStore) : Prop :=
  claim < s.claims.length ∧ claim ∉ s.responses.map (·.1)

structure ChallengeStore.Accounted (s : ChallengeStore) : Prop where
  nodup : (s.responses.map (·.1)).Nodup
  bound : ∀ claim ∈ s.responses.map (·.1), claim < s.claims.length

-- A claim within the process either adds to the claims or does not.
theorem ChallengeStore.consumeInProcess_cases (s : ChallengeStore) (process : Nat)
    (row : Sep10Challenge) : (s.consumeInProcess process row).2.responses = s.responses ∧
      ((s.consumeInProcess process row).1 = none ∧
        (s.consumeInProcess process row).2.claims = s.claims ∨
      (s.consumeInProcess process row).1 = some s.claims.length ∧
        (s.consumeInProcess process row).2.claims = s.claims ++ [row]) := by
  unfold consumeInProcess
  simp only
  split
  · exact ⟨rfl, .inl ⟨rfl, rfl⟩⟩
  · exact ⟨rfl, .inr ⟨rfl, rfl⟩⟩

-- Claims are only added, one at a time, and are made known to whoever has added them.
theorem ChallengeEffect.claims {s s' : ChallengeStore} {r : Except Failure a.Answer}
    (h : ChallengeEffect s a r s') : (s'.claims = s.claims ∧ a.claimed r = none) ∨
      ∃ row, s'.claims = s.claims ++ [row] ∧
        (a.claimed r = none ∨ a.claimed r = some s.claims.length) := by
  cases h with
  | nothing hr        => exact .inl ⟨rfl, hr⟩
  | recorded _ _ hr   => exact .inr ⟨_, rfl, hr⟩
  | @swept _ r        => exact .inl ⟨rfl, by cases r <;> rfl⟩
  | responded         => exact .inl ⟨rfl, rfl⟩
  | expired ha =>
    refine .inl ⟨rfl, ?_⟩
    rcases ha with ⟨rfl, _⟩ | ⟨_, rfl, _⟩ <;> cases r <;> rfl
  | consumed =>
    rcases (s.consumeInProcess_cases _ _).2 with ⟨hr, hc⟩ | ⟨hr, hc⟩
    case inl => exact .inl ⟨hc, hr⟩
    case inr => exact .inr ⟨_, hc, .inr hr⟩

theorem ChallengeEffect.responses {s s' : ChallengeStore} {r : Except Failure a.Answer}
    (h : ChallengeEffect s a r s') : s'.responses = s.responses ∨
      ∃ claim verified, a = .respond claim verified ∧
        s'.responses = s.responses ++ [(claim, verified)] := by
  cases h with
  | nothing | recorded | expired | swept => exact .inl rfl
  | consumed                             => exact .inl (s.consumeInProcess_cases _ _).1
  | responded                            => exact .inr ⟨_, _, rfl, rfl⟩

theorem ChallengeEffect.claims_length {s s' : ChallengeStore} {r : Except Failure a.Answer}
    (h : ChallengeEffect s a r s') : s.claims.length ≤ s'.claims.length := by
  rcases h.claims with ⟨hc, _⟩ | ⟨row, hc, _⟩
  case inl => exact (congrArg List.length hc).ge
  case inr => simp [hc]

theorem challenge_issued (D : ChallengeDeps) :
    challengeTickets.Issued (challengeSystem D) PendingClaim ChallengeStore.Accounted where
  exec := fun {a x s s' r} hl hv hx => by
    have he : ChallengeEffect s a r s' := .of_exec hx
    have hlen := he.claims_length
    rcases he.responses with hr | ⟨claim, verified, rfl, hr⟩
    case inl => exact ⟨hr ▸ hl.nodup, fun t ht => (hl.bound t (hr ▸ ht)).trans_le hlen⟩
    case inr =>
      have ⟨hlt, hn⟩ := hv claim rfl
      refine ⟨?_, fun t ht => ?_⟩
      · rw [hr, List.map_append, List.nodup_append]
        refine ⟨hl.nodup, List.nodup_singleton _, fun t ht u hu htu => ?_⟩
        rw [List.map_singleton, List.mem_singleton] at hu
        have he : t = claim := htu.trans hu
        exact hn (he ▸ ht)
      · rw [hr, List.map_append, List.mem_append, List.map_singleton, List.mem_singleton] at ht
        rcases ht with ht | rfl
        case inl => exact (hl.bound t ht).trans_le hlen
        case inr => exact hlt.trans_le hlen
  keep := fun {a x s s' r} hx t ht hu => by
    have he : ChallengeEffect s a r s' := .of_exec hx
    refine ⟨ht.1.trans_le he.claims_length, ?_⟩
    rcases he.responses with hr | ⟨claim, verified, rfl, hr⟩
    case inl => exact hr ▸ ht.2
    case inr =>
      rw [hr, List.map_append, List.mem_append, List.map_singleton, List.mem_singleton]
      rintro (hm | rfl)
      case inl => exact ht.2 hm
      case inr => exact hu rfl
  give := fun {a x s s' r h} hl hx _ hv t ht => by
    have he : ChallengeEffect s a r s' := .of_exec hx
    rcases he.responses with hr | ⟨claim, verified, rfl, hr⟩
    case inr => cases ht
    case inl =>
      have kept (ht : t ∈ h) : PendingClaim t s' :=
        ⟨(hv t ht).1.trans_le he.claims_length, hr ▸ (hv t ht).2⟩
      have hold : t ∈ (a.claimed r).or h := by
        cases a
        case respond => cases ht
        all_goals exact ht
      rcases he.claims with ⟨_, hc⟩ | ⟨row, hs, hc | hc⟩
      case inl =>
        rw [hc, Option.none_or] at hold
        exact ⟨kept hold, .inl hold⟩
      case inr.inl =>
        rw [hc, Option.none_or] at hold
        exact ⟨kept hold, .inl hold⟩
      case inr.inr =>
        rw [hc, Option.some_or, Option.mem_some_iff] at hold
        subst hold
        refine ⟨⟨by simp [hs], fun hm => ?_⟩, .inr fun hn => hn.1.ne rfl⟩
        exact (hl.bound _ (hr ▸ hm)).ne rfl
  env := fun {t s s'} hl hx => by
    simp only [challengeSystem, challengeEnv, Option.ite_none_right_eq_some, Option.some.injEq] at hx
    obtain ⟨_, rfl⟩ := hx
    exact ⟨⟨hl.nodup, hl.bound⟩, fun t ht => ht⟩

section

variable {D : ChallengeDeps} {Q : α → Option Nat → Prop} {h : Option Nat}

-- A program that makes no claims, and does not return either.
abbrev Unclaiming (p : ChallengeTx α) : Prop :=
  challengeTickets.Carries p (fun _ h => h = none) (fun _ _ => True) none

theorem act_unclaiming {a : ChallengeAction} (hu : challengeTickets.uses a = none)
    (hc : ∀ r, a.claimed r = none) : Unclaiming (.perform a) := by
  have hh : ∀ r, challengeTickets.holds a r none = none := fun r => by
    cases a
    case respond => rfl
    all_goals exact (congrArg (Option.or · none) (hc r)).trans rfl
  exact .perform (by simp [hu]) (fun v => hh (.ok v)) (fun _ => trivial)

theorem ofExcept_unclaiming {x : Except Failure α} : Unclaiming (.ofExcept x) :=
  .ofExcept (fun _ => rfl) (fun _ => trivial)

theorem Unclaiming.bind {p : ChallengeTx α} {f : α → ChallengeTx β} {Q : β → Option Nat → Prop}
    (hp : Unclaiming p)
    (hf : ∀ a, challengeTickets.Carries (f a) Q (fun _ _ => True) none) :
    challengeTickets.Carries (p.bind f) Q (fun _ _ => True) none :=
  .bind <| hp.mono (fun a _ hh => hh ▸ hf a) (fun _ _ _ => trivial)

theorem readChallenge_unclaiming : Unclaiming (readChallenge D signedXdr) := by
  have now : Unclaiming (.perform .now) := act_unclaiming rfl (fun r => by cases r <;> rfl)
  refine ofExcept_unclaiming.bind fun tx => now.bind fun _ => ofExcept_unclaiming.bind fun _ => ?_
  refine now.bind fun _ => ofExcept_unclaiming.bind fun _ => ofExcept_unclaiming.bind fun _ => ?_
  refine now.bind fun _ => ?_
  split
  · trivial
  · rfl

-- The outcome of the attempt to consume a challenge tells which claim is held.
abbrev Holding : ConsumeOutcome → Option Nat → Prop
  | .claimed claim, h => h = some claim
  | .replayed,      h => h = none

theorem holding_ofInserted {o : Option Nat} : Holding (.ofInserted o) (o.or none) := by
  cases o <;> rfl

theorem consumeInProcess_carries : challengeTickets.Carries (consumeInProcess D process row) Holding
    (fun _ _ => True) none := by
  unfold consumeInProcess
  simp only [Prog.bind_eq, Prog.throw_eq, Prog.pure_eq]
  split
  · trivial
  · exact .bind <| .perform nofun (fun _ => holding_ofInserted) (fun _ => trivial)

theorem insertChallenge_carries : challengeTickets.Carries (insertChallenge row) Holding
    (fun _ h => h = none) none := by
  refine .bind <| .perform nofun (fun inserted => ?_) (fun _ => rfl)
  refine .bind <| .bind <| .attempt <| .perform nofun ?_ ?_
  · exact fun _ => holding_ofInserted
  · exact fun _ => holding_ofInserted

theorem consumeByStatement_carries : challengeTickets.Carries (consumeByStatement D process row)
    Holding (fun _ _ => True) none := by
  unfold consumeByStatement
  split
  case isFalse => exact consumeInProcess_carries
  case isTrue =>
    refine .bind <| .attempt <| insertChallenge_carries.mono (fun _ _ hh => hh) fun e h hh => ?_
    subst hh
    simp only
    split
    · trivial
    · split
      · trivial
      · exact consumeInProcess_carries

theorem consumeChallenge_carries : challengeTickets.Carries (consumeChallenge D process row) Holding
    (fun _ _ => True) none := by
  unfold consumeChallenge
  split
  case isFalse => exact consumeByStatement_carries
  case isTrue =>
    refine .bind <| .attempt <| .perform nofun (fun _ => rfl) fun e => ?_
    simp only
    split
    · rfl
    · split
      · trivial
      · exact consumeByStatement_carries

-- A call returns with a claim of its own.
theorem challengeRequest_fair (i : ChallengeRequest) :
    challengeTickets.Fair (challengeRequest D i) none := by
  have now : Unclaiming (.perform .now) := act_unclaiming rfl (fun r => by cases r <;> rfl)
  cases i with
  | cleanup process =>
    refine Unclaiming.bind (act_unclaiming rfl fun r => by cases r <;> rfl) fun _ => ?_
    split
    · exact now.bind fun _ => (act_unclaiming rfl fun r => by cases r <;> rfl).fair
    · trivial
  | authenticate process signedXdr =>
    refine .bind <| readChallenge_unclaiming.bind fun (tx, clientAccountId) => ?_
    refine now.bind fun _ => ofExcept_unclaiming.bind fun bounds => Unclaiming.bind ?_ fun snapshot => ?_
    · exact Tickets.Carries.bind <| .attempt <| .perform nofun (fun _ => rfl) (fun _ => trivial)
    · refine now.bind fun _ => ofExcept_unclaiming.bind fun _ => .bind ?_
      refine consumeChallenge_carries.mono (fun outcome h hh => ?_) (fun _ _ _ => trivial)
      cases outcome with
      | replayed => trivial
      | claimed claim =>
        subst hh
        exact .perform (fun _ ht => ht) (fun _ => trivial) (fun _ => trivial)

end

-- A challenge is only recorded as used for as long as the record is going to be kept, and it is recorded
-- in the database.
def Punctual : ChallengeAction → ChallengeStore → Prop
  | .create row, s         => s.now < row.expiresAt
  | .insertOrIgnore row, s => s.now < row.expiresAt
  | .consumeInProcess _ _, _ => False
  | _, _                   => True

instance (a : ChallengeAction) (s : ChallengeStore) : Decidable (Punctual a s) := by
  unfold Punctual
  split <;> infer_instance

-- A record carries the deadline of the challenge that it is about.
def ChallengeDeps.Dated (D : ChallengeDeps) (row : Sep10Challenge) : Prop :=
  ∃ signedXdr tx bounds, D.transaction signedXdr D.networkPassphrase = some tx ∧
    tx.timeBounds = some bounds ∧ row.fingerprint = challengeFingerprint D tx.hash ∧
    row.expiresAt = challengeExpiry bounds

-- Different transactions have different hashes, and different hashes have different digests.
def ChallengeDeps.CollisionFree (D : ChallengeDeps) : Prop :=
  ∀ x₁ x₂ tx₁ tx₂, D.transaction x₁ D.networkPassphrase = some tx₁ →
    D.transaction x₂ D.networkPassphrase = some tx₂ →
    challengeFingerprint D tx₁.hash = challengeFingerprint D tx₂.hash → tx₁ = tx₂

theorem ChallengeDeps.CollisionFree.expiresAt_eq {D : ChallengeDeps} {r₁ r₂ : Sep10Challenge}
    (hD : D.CollisionFree) (h₁ : D.Dated r₁) (h₂ : D.Dated r₂) (h : r₁.fingerprint = r₂.fingerprint) :
    r₁.expiresAt = r₂.expiresAt := by
  have ⟨_, tx₁, b₁, ht₁, hb₁, hf₁, he₁⟩ := h₁
  have ⟨_, tx₂, b₂, ht₂, hb₂, hf₂, he₂⟩ := h₂
  have ht : tx₁ = tx₂ := hD _ _ _ _ ht₁ ht₂ (hf₁.symm.trans <| h.trans hf₂)
  have hb : b₁ = b₂ := Option.some.inj <| hb₁.symm.trans <| ht ▸ hb₂
  rw [he₁, he₂, hb]

-- The claim is about a certain challenge.
def ChallengeStore.ClaimOf (s : ChallengeStore) (claim : Nat) (fingerprint : String) : Prop :=
  ∃ row, s.claims[claim]? = some row ∧ row.fingerprint = fingerprint

-- In production, challenges are only ever recorded in the database.
theorem challengeRequest_avoids {D : ChallengeDeps} (hD : D.isTest = false) (i : ChallengeRequest) :
    (challengeRequest D i).Avoids fun a => ∃ process row, a = .consumeInProcess process row := by
  have inProcess (process : Nat) (row : Sep10Challenge) : (consumeInProcess D process row).Avoids
      fun a => ∃ process row, a = .consumeInProcess process row := by
    simp only [consumeInProcess, hD, Bool.false_eq_true, not_false_eq_true, if_true, Prog.throw_eq,
      Prog.bind_eq, Prog.fail_bind]
    exact .fail _
  have stored (process : Nat) (row : Sep10Challenge) : (consumeByStatement D process row).Avoids
      fun a => ∃ process row, a = .consumeInProcess process row := by
    unfold consumeByStatement
    split
    case isFalse => exact inProcess process row
    case isTrue =>
      refine .bind (.attempt <| .bind (.perform nofun) fun _ => ?_) fun o => ?_
      · exact .bind (.bind (.attempt <| .perform nofun) fun _ => .done _) fun _ => .done _
      · cases o with
        | ok _ => exact .done _
        | error e =>
          simp only
          split
          · exact .fail _
          · split
            · exact .fail _
            · exact inProcess process row
  cases i with
  | cleanup process =>
    refine .bind (.perform nofun) fun _ => ?_
    split
    · exact .bind (.perform nofun) fun _ => .perform nofun
    · exact .done _
  | authenticate process signedXdr =>
    refine .bind (.bind ?_ fun r => .bind (.perform nofun) fun _ => .bind (.ofExcept _) fun _ => ?_)
      fun _ => .perform nofun
    · refine .bind (.ofExcept _) fun _ => .bind (.perform nofun) fun _ => .bind (.ofExcept _) fun _ => ?_
      refine .bind (.perform nofun) fun _ => .bind (.ofExcept _) fun _ => .bind (.ofExcept _) fun _ => ?_
      refine .bind (.perform nofun) fun _ => ?_
      split
      · exact .fail _
      · exact .done _
    · refine .bind (.bind (.attempt <| .perform (by simp)) fun o => ?_) fun _ => .bind (.perform (by simp)) fun _ => ?_
      · cases o with
        | ok _    => exact .done _
        | error _ => exact .fail _
      · refine .bind (.ofExcept _) fun _ => .bind ?_ fun o => ?_
        · unfold consumeChallenge
          split
          case isFalse => exact stored process _
          case isTrue =>
            refine .bind (.attempt <| .perform (by simp)) fun o => ?_
            cases o with
            | ok _ => exact .done _
            | error e =>
              simp only
              split
              · exact .done _
              · split
                · exact .fail _
                · exact stored process _
        · cases o with
          | claimed _ => exact .done _
          | replayed  => exact .fail _

-- No challenge is claimed twice, because its record is kept until the deadline.
structure ChallengeStore.Redeemed (D : ChallengeDeps) (s : ChallengeStore) : Prop where
  dated     : ∀ row ∈ s.claims, D.Dated row
  kept      : ∀ row ∈ s.claims, row ∈ s.challenges ∨ row.expiresAt ≤ s.now
  once      : (s.claims.map (·.fingerprint)).Nodup
  responses : ∀ r ∈ s.responses, s.ClaimOf r.1 (challengeFingerprint D r.2.challengeHash)

def challengeDue (D : ChallengeDeps) : ChallengeAction → ChallengeStore → Prop
  | .create row, _            => D.Dated row
  | .insertOrIgnore row, _    => D.Dated row
  | .deleteExpiredBefore t, s => t ≤ s.now
  | .respond claim v, s       => s.ClaimOf claim (challengeFingerprint D v.challengeHash)
  | _, _                      => True

namespace ChallengeStore.Redeemed

variable {D : ChallengeDeps} {s : ChallengeStore} {row : Sep10Challenge}

theorem record (hD : D.CollisionFree) (h : s.Redeemed D) (hd : D.Dated row)
    (ht : s.now < row.expiresAt) (hn : ¬s.has row.fingerprint) : (s.record row).Redeemed D where
  dated := List.forall_mem_append.mpr ⟨h.dated, by simpa using hd⟩
  kept  := fun r hr => by
    rcases List.mem_append.mp hr with hr | hr
    case inl => exact (h.kept r hr).imp_left fun hm => List.mem_append_left _ hm
    case inr => exact .inl <| List.mem_append_right _ hr
  once := by
    simp only [ChallengeStore.record, List.map_append, List.map_singleton]
    refine List.nodup_append.mpr ⟨h.once, List.nodup_singleton _, fun f hf g hg he => ?_⟩
    have ⟨r, hr, hrf⟩ := List.mem_map.mp hf
    have hg : r.fingerprint = row.fingerprint := hrf.trans <| he.trans <| List.mem_singleton.mp hg
    -- Whoever has claimed the challenge before has left a record, which has not expired yet.
    rcases h.kept r hr with hk | hk
    case inl => exact hn <| hg ▸ decide_eq_true (List.mem_map_of_mem hk)
    case inr => exact hk.not_gt <| hD.expiresAt_eq (h.dated r hr) hd hg ▸ ht
  responses := fun r hr =>
    have ⟨row', hc, hf⟩ := h.responses r hr
    ⟨row', (List.getElem?_append_left (List.getElem?_eq_some_iff.mp hc).1).trans hc, hf⟩

theorem expire {p : Sep10Challenge → Bool} (h : s.Redeemed D)
    (hp : ∀ r, p r = true → r.expiresAt ≤ s.now) : (s.expire p).Redeemed D where
  dated     := h.dated
  once      := h.once
  responses := h.responses
  kept      := fun r hr => by
    cases hpr : p r with
    | true  => exact .inr (hp r hpr)
    | false => exact (h.kept r hr).imp_left fun hm => List.mem_filter.mpr ⟨hm, by simp [hpr]⟩

theorem effect {s' : ChallengeStore} {r : Except Failure a.Answer} (hD : D.CollisionFree)
    (h : s.Redeemed D) (hc : Punctual a s) (hd : challengeDue D a s) (he : ChallengeEffect s a r s') :
    s'.Redeemed D := by
  cases he with
  | nothing  => exact h
  | swept    => exact ⟨h.dated, h.kept, h.once, h.responses⟩
  | consumed => exact hc.elim
  | recorded ha hn _ =>
    rcases ha with rfl | rfl
    case inl => exact h.record hD hd hc hn
    case inr => exact h.record hD hd hc hn
  | expired ha =>
    rcases ha with ⟨_, rfl⟩ | ⟨t, rfl, rfl⟩
    case inl => exact h.expire fun r hr => of_decide_eq_true hr
    case inr => exact h.expire fun r hr => (of_decide_eq_true hr).le.trans hd
  | responded =>
    refine ⟨h.dated, h.kept, h.once, fun r hr => ?_⟩
    rcases List.mem_append.mp hr with hr | hr
    case inl => exact h.responses r hr
    case inr =>
      obtain rfl := List.mem_singleton.mp hr
      exact hd

end ChallengeStore.Redeemed

section

variable {D : ChallengeDeps} (hD : D.CollisionFree)

abbrev challengeProtocol : Protocol (challengeSystem D) where
  cond := fun a s => Punctual a s ∧ challengeDue D a s
  inv  := (·.Redeemed D)
  due  := challengeDue D
  exec := fun hi hc hx => hi.effect hD hc.1 hc.2 (.of_exec hx)
  env  := fun {t s s'} hi hx => by
    simp only [challengeSystem, challengeEnv, Option.ite_none_right_eq_some, Option.some.injEq] at hx
    obtain ⟨ht, rfl⟩ := hx
    exact ⟨hi.dated, fun r hr => (hi.kept r hr).imp_right (·.trans ht), hi.once, hi.responses⟩

variable {hD} {s s' : ChallengeStore} {p : ChallengeTx α} {claim : Nat} {f : String}

theorem now_of_evolves (h : (challengeSystem D).Evolves (challengeProtocol hD).cond s s') :
    s.now ≤ s'.now := by
  induction h with
  | refl => exact le_rfl
  | env _ hx ih =>
    simp only [challengeSystem, challengeEnv, Option.ite_none_right_eq_some, Option.some.injEq] at hx
    exact ih.trans <| hx.2 ▸ hx.1
  | act _ _ hx ih =>
    refine ih.trans (le_of_eq ?_)
    cases ChallengeEffect.of_exec hx
    case consumed =>
      unfold ChallengeStore.consumeInProcess
      simp only
      split <;> rfl
    all_goals rfl

theorem claimOf_of_evolves (h : (challengeSystem D).Evolves (challengeProtocol hD).cond s s')
    (hc : s.ClaimOf claim f) : s'.ClaimOf claim f := by
  induction h with
  | refl => exact hc
  | env _ hx ih =>
    simp only [challengeSystem, challengeEnv, Option.ite_none_right_eq_some, Option.some.injEq] at hx
    exact hx.2 ▸ ih hc
  | @act a x _ s₂ s₃ r _ _ hx ih =>
    have ⟨row, hg, hf⟩ := ih hc
    have he : ChallengeEffect s₂ a r s₃ := .of_exec hx
    rcases he.claims with ⟨hc, _⟩ | ⟨row', hc, _⟩
    case inl => exact ⟨row, hc ▸ hg, hf⟩
    case inr =>
      refine ⟨row, ?_, hf⟩
      rw [hc, List.getElem?_append_left (List.getElem?_eq_some_iff.mp hg).1, hg]

theorem readSignedByServer_ok {tx : ChallengeTransaction} (h : readSignedByServer D x = .ok tx) :
    D.transaction x D.networkPassphrase = some tx := by
  unfold readSignedByServer at h
  split at h
  case h_1 => cases h
  case h_2 ht =>
    split at h
    case isTrue  => cases h
    case isFalse =>
      split at h
      case isTrue  => cases h
      case isFalse => exact ht.trans <| congrArg some (Except.ok.inj h)

theorem validateChallengeEnvelope_ok {tx : ChallengeTransaction} {bounds : Stellar.TimeBounds}
    (h : validateChallengeEnvelope D tx clientAccountId now = .ok bounds) :
    tx.timeBounds = some bounds := by
  unfold validateChallengeEnvelope at h
  split at h
  case isTrue  => cases h
  case isFalse =>
    split at h
    case h_1 => cases h
    case h_2 b hb =>
      have ⟨_, _, h⟩ := Except.bind_eq_ok.mp h
      have ⟨_, _, h⟩ := Except.bind_eq_ok.mp h
      cases h
      exact (Option.filter_eq_some_iff.mp hb).1

-- Whoever learns of a claim has made it for the challenge that is being consumed.
theorem claimed_of_answered {a : ChallengeAction} {v : a.Answer} {row : Sep10Challenge}
    (ha : a = .create row ∨ a = .insertOrIgnore row)
    (h : (challengeSystem D).Answered (challengeProtocol hD).cond (challengeProtocol hD).inv a v s)
    (hv : a.claimed (.ok v) = some claim) : s.ClaimOf claim row.fingerprint := by
  have hp := h.after (F := (·.ClaimOf claim row.fingerprint)) fun x s₁ s₂ _ hx => by
    cases ChallengeEffect.of_exec hx with
    | nothing hn => cases hv.symm.trans hn
    | expired he => rcases ha with rfl | rfl <;> rcases he with ⟨he, _⟩ | ⟨_, he, _⟩ <;> cases he
    | swept | consumed | responded => rcases ha with ha | ha <;> cases ha
    | @recorded _ _ row' ha' _ hr =>
      obtain rfl : row' = row := by rcases ha with rfl | rfl <;> rcases ha' with h | h <;> cases h <;> rfl
      rcases hr with hr | hr
      case inl => cases hv.symm.trans hr
      case inr =>
        cases hv.symm.trans hr
        exact ⟨row', List.getElem?_concat_length, rfl⟩
  have ⟨_, _, hc, he⟩ := hp
  exact claimOf_of_evolves he hc

-- The time that has been read from the clock is over.
theorem time_of_answered {t : Time} (h : (challengeSystem D).Answered (challengeProtocol hD).cond
    (challengeProtocol hD).inv .now t s) : t ≤ s.now := by
  have ⟨_, _, ht, he⟩ := h.before (F := fun s => t = s.now) fun x s₁ s₂ _ hx => by
    cases x <;> cases hx
    rfl
  exact ht.trans_le (now_of_evolves he)

theorem readChallenge_safe (hi : s.Redeemed D) : (challengeProtocol hD).Safe (readChallenge D x)
    (fun r _ => D.transaction x D.networkPassphrase = some r.1) (fun _ _ => True) s := by
  have due : ∀ (s s' : ChallengeStore), (challengeSystem D).Evolves (challengeProtocol hD).cond s s' →
    (challengeProtocol hD).inv s' → (challengeProtocol hD).due .now s' := fun _ _ _ _ => trivial
  refine .ofExcept_bind fun tx hx => .perform_bind hi (due _) fun _ s _ hi _ => ?_
  refine .ofExcept_bind fun _ _ => .perform_bind hi (due _) fun _ s _ hi _ => ?_
  refine .ofExcept_bind fun _ _ => .ofExcept_bind fun _ _ => .perform_bind hi (due _) fun _ s _ hi _ => ?_
  split
  · exact .fail fun _ _ _ => trivial
  · exact .done fun _ _ _ => readSignedByServer_ok hx

-- The outcome of the attempt to consume a challenge is about that challenge.
abbrev ClaimsFor (row : Sep10Challenge) : ConsumeOutcome → ChallengeStore → Prop
  | .claimed claim, s => s.ClaimOf claim row.fingerprint
  | .replayed,      _ => True

theorem ClaimsFor.later {row : Sep10Challenge} {outcome : ConsumeOutcome} (h : ClaimsFor row outcome s)
    (he : (challengeSystem D).Evolves (challengeProtocol hD).cond s s') : ClaimsFor row outcome s' := by
  cases outcome with
  | replayed      => trivial
  | claimed claim => exact claimOf_of_evolves he h

section

variable {row : Sep10Challenge} (hi : s.Redeemed D) (hd : D.Dated row)

theorem consumeInProcess_safe : (challengeProtocol hD).Safe (consumeInProcess D process row)
    (ClaimsFor row) (fun _ _ => True) s := by
  unfold consumeInProcess
  simp only [Prog.bind_eq, Prog.throw_eq, Prog.pure_eq]
  split
  · exact .fail fun _ _ _ => trivial
  · exact .of_call fun _ _ _ => ⟨trivial, fun hc => hc.1.elim⟩

include hi hd

theorem insertChallenge_safe : (challengeProtocol hD).Safe (insertChallenge row)
    (ClaimsFor row) (fun _ _ => True) s := by
  refine .perform_bind hi (fun _ _ _ => hd) fun inserted s _ hi ha => ?_
  refine .bind hi <| Protocol.Safe.mono (Protocol.Fine.swallow hi ?_) (fun _ s he hi _ => ?_) (fun _ _ _ _ h => h)
  · exact .perform (fun _ _ _ => trivial) (fun _ _ _ _ _ => trivial) (fun _ _ _ _ => trivial)
  · refine .done fun s' he' _ => ?_
    cases inserted with
    | none       => trivial
    | some claim => exact claimOf_of_evolves (he.trans he') (claimed_of_answered (.inr rfl) ha rfl)

theorem consumeByStatement_safe : (challengeProtocol hD).Safe (consumeByStatement D process row)
    (ClaimsFor row) (fun _ _ => True) s := by
  unfold consumeByStatement
  split
  case isFalse => exact consumeInProcess_safe
  case isTrue =>
    refine .bind hi <| .attempt <| (insertChallenge_safe hi hd).mono (fun outcome s _ _ hc => ?_)
      (fun e s _ hi _ => ?_)
    · exact .done fun s' he _ => hc.later he
    · simp only
      split
      · exact .fail fun _ _ _ => trivial
      · split
        · exact .fail fun _ _ _ => trivial
        · exact consumeInProcess_safe

theorem consumeChallenge_safe : (challengeProtocol hD).Safe (consumeChallenge D process row)
    (ClaimsFor row) (fun _ _ => True) s := by
  unfold consumeChallenge
  split
  case isFalse => exact consumeByStatement_safe hi hd
  case isTrue =>
    refine .bind hi <| .attempt <| .perform (fun _ _ _ => hd) (fun claim s _ _ ha => ?_)
      (fun e s _ hi => ?_)
    · exact .done fun s' he _ => claimOf_of_evolves he (claimed_of_answered (.inl rfl) ha rfl)
    · simp only
      split
      · exact .done fun _ _ _ => trivial
      · split
        · exact .fail fun _ _ _ => trivial
        · exact consumeByStatement_safe hi hd

end

theorem authenticateChallenge_safe (hi : s.Redeemed D) :
    (challengeProtocol hD).Safe (authenticateChallenge D process signedXdr)
      (fun r s => s.ClaimOf r.1 (challengeFingerprint D r.2.challengeHash)) (fun _ _ => True) s := by
  refine .bind hi <| (readChallenge_safe hi).mono (fun (tx, clientAccountId) s _ hi htx => ?_)
    (fun _ _ _ _ h => h)
  refine .perform_bind hi (fun _ _ _ => trivial) fun _ s _ hi _ => .ofExcept_bind fun bounds hb => ?_
  refine .bind hi <| .bind hi <| .attempt <| .perform (fun _ _ _ => trivial) (fun snapshot s _ _ _ => ?_)
    (fun _ _ _ _ => .fail fun _ _ _ => trivial)
  refine .done fun s _ hi => .perform_bind hi (fun _ _ _ => trivial) fun _ s _ hi _ => ?_
  refine .ofExcept_bind fun _ _ => .bind hi <| (consumeChallenge_safe hi ?_).mono
    (fun outcome s _ _ hc => ?_) (fun _ _ _ _ h => h)
  · exact ⟨signedXdr, tx, bounds, htx, validateChallengeEnvelope_ok hb, rfl, rfl⟩
  · cases outcome with
    | replayed      => exact .fail fun _ _ _ => trivial
    | claimed claim => exact .done fun s' he _ => claimOf_of_evolves he hc

theorem challenge_sound (i : ChallengeRequest) :
    (challengeProtocol hD).Sound (challengeRequest D i) := by
  intro s hi
  cases i with
  | authenticate process signedXdr =>
    refine Protocol.Fine.bind hi (authenticateChallenge_safe hi) fun (claim, verified) s _ hi hc => ?_
    exact .perform (fun _ he _ => claimOf_of_evolves he hc) (fun _ _ _ _ _ => trivial)
      (fun _ _ _ _ => trivial)
  | cleanup process =>
    refine .perform_bind hi (fun _ _ _ => trivial) fun _ s _ hi _ => ?_
    split
    case isFalse => exact .done _
    case isTrue =>
      refine .perform_bind hi (fun _ _ _ => trivial) fun t s _ hi ha => ?_
      exact .perform (fun s' he _ => (time_of_answered ha).trans (now_of_evolves he))
        (fun _ _ _ _ _ => trivial) (fun _ _ _ _ => trivial)

end

-- How often a challenge has authenticated a client.
def ChallengeStore.authentications (s : ChallengeStore) (challengeHash : String) : Nat :=
  (s.responses.filter (·.2.challengeHash = challengeHash)).length

theorem ChallengeStore.authentications_le {D : ChallengeDeps} {s : ChallengeStore}
    (hr : s.Redeemed D) (ha : s.Accounted) (challengeHash : String) :
    s.authentications challengeHash ≤ 1 := by
  refine Table.length_le_one (k := (·.1)) ?_ fun r₁ h₁ r₂ h₂ => ?_
  · exact ha.nodup.sublist <| List.filter_sublist.map _
  · have ⟨h₁, he₁⟩ := List.mem_filter.mp h₁
    have ⟨h₂, he₂⟩ := List.mem_filter.mp h₂
    have ⟨row₁, hc₁, hf₁⟩ := hr.responses r₁ h₁
    have ⟨row₂, hc₂, hf₂⟩ := hr.responses r₂ h₂
    rw [of_decide_eq_true he₁] at hf₁
    rw [of_decide_eq_true he₂] at hf₂
    have g₁ : (s.claims.map (·.fingerprint))[r₁.1]? = some row₁.fingerprint := by
      rw [List.getElem?_map, hc₁, Option.map_some]
    have g₂ : (s.claims.map (·.fingerprint))[r₂.1]? = some row₁.fingerprint := by
      rw [List.getElem?_map, hc₂, Option.map_some, hf₁, hf₂]
    exact List.getElem?_inj (List.getElem?_eq_some_iff.mp g₁).1 hr.once |>.mp (g₁.trans g₂.symm)

-- As long as challenges are recorded before their deadline, none authenticates twice.
theorem challenge_authenticates_once {D : ChallengeDeps} {s : ChallengeStore} {c : ChallengeConfig}
    (hD : D.CollisionFree) (hc : s.claims = []) (hr : s.responses = [])
    (r : (challengeSystem D).Run Punctual ⟨s, []⟩ c) (challengeHash : String) :
    c.shared.authentications challengeHash ≤ 1 := by
  have hi : s.Redeemed D := ⟨by simp [hc], by simp [hc], by simp [hc], by simp [hr]⟩
  have hp : (challengeProtocol hD).Holds c :=
    (Protocol.Holds.init hi).run_due (fun _ _ hc hd => ⟨hc, hd⟩) challenge_sound r
  have ⟨_, ht⟩ := (Tickets.Exclusive.init (K := challengeTickets) ⟨by simp [hr], by simp [hr]⟩).run
    (challenge_issued D) challengeRequest_fair r
  exact ChallengeStore.authentications_le hp.inv ht.law challengeHash

-- A challenge of five minutes, and an implementation of the SDK that grants another five minutes.

def sampleChallenge : ChallengeTransaction := {
  source     := "server"
  sequence   := "0"
  memo       := .none
  timeBounds := some ⟨0, 300⟩
  hash       := "hash"
  operations := [
    { type := "manageData", source := "client", name := "org auth", value := List.replicate 48 65 },
    { type := "manageData", source := "server", name := "web_auth_domain", value := [111, 114, 103] }
  ]
}

def sampleChallengeDeps : ChallengeDeps := {
  serverAccount              := "server"
  networkPassphrase          := "testnet"
  otherNetworkPassphrases    := ["public"]
  homeDomain                 := "org"
  webAuthDomain              := "org"
  validitySeconds            := 300
  isTest                     := false
  hasModel                   := true
  hasExecuteRaw              := true
  isValidEd25519PublicKey    := fun key => key = "server" ∨ key = "client"
  sha256                     := id
  transaction                := fun xdr passphrase =>
    if xdr = "signed" ∧ passphrase = "testnet" then some sampleChallenge else none
  verifyTxSignedBy           := fun xdr passphrase account =>
    xdr = "signed" ∧ passphrase = "testnet" ∧ account = "server"
  readChallengeTx            := fun xdr now =>
    if xdr = "signed" ∧ now ≤ 600000 then some "client" else none
  verifyChallengeTxSigners   := fun xdr signers now => xdr = "signed" ∧ "client" ∈ signers ∧ now ≤ 600000
  verifyChallengeTxThreshold := fun _ _ _ _ => false
}

theorem sampleChallengeDeps_collisionFree : sampleChallengeDeps.CollisionFree := by
  intro x₁ x₂ tx₁ tx₂ h₁ h₂ _
  simp only [sampleChallengeDeps, Option.ite_none_right_eq_some, Option.some.injEq] at h₁ h₂
  exact h₁.2.symm.trans h₂.2

def unfunded : SignerSnapshot := ⟨false, 0, []⟩

-- The checks of the time, and the lookup of the signers along with everything that follows.

def checkingTime (n : Nat) : List (Label ChallengeChoice Time ChallengeRequest) :=
  Label.acts n [.plain, .plain, .plain, .plain]

def redeeming (n : Nat) : List (Label ChallengeChoice Time ChallengeRequest) :=
  Label.acts n [.account unfunded, .plain, .plain, .plain]

-- Two calls redeem a challenge at the same time.
def redeemingAtOnce : List (Label ChallengeChoice Time ChallengeRequest) :=
  .flatten [
    [.spawn (.authenticate 0 "signed"), .spawn (.authenticate 0 "signed")],
    checkingTime 0, checkingTime 1, redeeming 0, Label.acts 1 [.account unfunded, .plain, .plain]
  ]

theorem challenge_authenticates_once_sample : ∃ c : ChallengeConfig,
    c.shared.responses.length = 1 ∧ c.procs.map (·.raised) = [none, some invalidChallenge] ∧
      c.shared.authentications "hash" ≤ 1 := by
  have ⟨c, r, hc⟩ := System.exists_run_of_play (C := Punctual)
    (S := challengeSystem sampleChallengeDeps) (c := ⟨{}, []⟩)
    (p := fun c => c.shared.responses.length = 1 ∧
      c.procs.map (·.raised) = [none, some invalidChallenge]) redeemingAtOnce (by decide +kernel)
  have ⟨hr, hp⟩ := of_decide_eq_true hc
  exact ⟨c, hr, hp,
    challenge_authenticates_once sampleChallengeDeps_collisionFree rfl rfl r "hash"⟩

-- The second call has to wait for the signers, until the record of the first one has been deleted.
def redeemingAfterSweep : List (Label ChallengeChoice Time ChallengeRequest) :=
  .flatten [
    [.spawn (.authenticate 0 "signed"), .spawn (.authenticate 1 "signed"), .spawn (.cleanup 0)],
    checkingTime 0, checkingTime 1, redeeming 0, .env 332000 :: Label.acts 2 [.plain, .plain, .plain], redeeming 1
  ]

theorem challenge_replayed : ∃ c : ChallengeConfig,
    (challengeSystem sampleChallengeDeps).Run (fun _ _ => True) ⟨{}, []⟩ c ∧
    c.shared.authentications "hash" = 2 ∧ c.shared.now = 332000 ∧ c.procs.all (·.isDone) = true := by
  have ⟨c, r, hc⟩ := System.exists_run_of_play (C := fun _ _ => True)
    (S := challengeSystem sampleChallengeDeps) (c := ⟨{}, []⟩)
    (p := fun c => c.shared.authentications "hash" = 2 ∧ c.shared.now = 332000 ∧
      c.procs.all (·.isDone) = true) redeemingAfterSweep (by decide +kernel)
  exact ⟨c, r, of_decide_eq_true hc⟩

end Mergepay.Auth
