import Mergepay.Theorems.Multisig
import Mergepay.Treasury.Verification

namespace Mergepay.Treasury

open Concurrency Attribution

variable (D : Deps)

-- Those that have signed are credited, once each, unless there is a signature by anybody else.
structure CollectorAgrees (admins : List AuthorizedAdmin) (signed : List String) (hash : String)
    (ds : List DecoratedSignature) : Prop where
  rejects : (∃ e, selectSignatures D admins signed hash ds = .error e) ↔
    ∃ d ∈ ds, (signatureAttribution D hash).Foreign (admins.map (·.publicKey)) d
  credits : ∀ new, selectSignatures D admins signed hash ds = .ok new →
    (new.map (·.userId)).Nodup ∧ ∀ a ∈ admins, a.userId ∈ new.map (·.userId) ↔
      a.userId ∉ signed ∧ (signatureAttribution D hash).Proven ds a.publicKey

-- Those that have signed are credited, and each of them is weighed once.
structure VerifierAgrees (account : AccountSnapshot) (signers : List String) (hash : String)
    (ds : List DecoratedSignature) (r : MultisigVerificationResult) : Prop where
  credits : ∀ k ∈ signers, (∃ s ∈ r.signatures, s.Credits k) ↔ (signatureAttribution D hash).Proven ds k
  total   : r.totalWeight =
    ((signers.filter fun k => (signatureAttribution D hash).Proven ds k).map account.weightOf).sum

-- What the loop of `verifyMultisig` makes of the same signatures. Nobody can make a signature that is valid
-- for several of the keys.
structure TrialAgrees (signers : List String) (hash : String) (ds : List DecoratedSignature) : Prop where
  rejects : (∃ e, (ds.map (·.signature)).foldlM (matchSignature D signers hash) [] = .error e) ↔
    ∃ d ∈ ds, (signatureAttribution D hash).Foreign signers d
  credits : ∀ matched, (ds.map (·.signature)).foldlM (matchSignature D signers hash) [] = .ok matched →
    matched.Nodup ∧ ((∀ d ∈ ds, ∀ k ∈ signers, ∀ k' ∈ signers, D.sdk.verify k hash d.signature = true →
      D.sdk.verify k' hash d.signature = true → k = k') →
      ∀ k, k ∈ matched ↔ k ∈ signers ∧ (signatureAttribution D hash).Proven ds k)

variable {D}

section

variable {admins : List AuthorizedAdmin} {signed : List String} {hash : String} {ds : List DecoratedSignature}
  {d : DecoratedSignature} {new : List NewSignature} {k : String}

theorem named_iff : (signatureAttribution D hash).Named (admins.map (·.publicKey)) d k ↔ ∃ a,
    admins.find? (D.sdk.signatureHint ·.publicKey = some d.hint) = some a ∧
      D.sdk.verify a.publicKey hash d.signature = true ∧ a.publicKey = k := by
  have hf : (signatureAttribution D hash).byHint (admins.map (·.publicKey)) d =
      (admins.find? (D.sdk.signatureHint ·.publicKey = some d.hint)).map (·.publicKey) :=
    List.find?_map
  rw [Named, hf, Option.map_eq_some_iff]
  constructor
  · rintro ⟨⟨a, ha, rfl⟩, hv⟩
    exact ⟨a, ha, hv, rfl⟩
  · rintro ⟨a, ha, hv, rfl⟩
    exact ⟨⟨a, ha, rfl⟩, hv⟩

theorem selectSignature_isOk : (∃ new', selectSignature D admins signed hash new d = .ok new') ↔
    ∃ k, (signatureAttribution D hash).Named (admins.map (·.publicKey)) d k := by
  simp only [named_iff, selectSignature]
  cases admins.find? (D.sdk.signatureHint ·.publicKey = some d.hint) with
  | none   => simp
  | some a =>
    cases hv : D.sdk.verify a.publicKey hash d.signature with
    | false => simp [hv]
    | true  =>
      refine iff_of_true ?_ ⟨a.publicKey, a, rfl, hv, rfl⟩
      simp only [hv, not_true_eq_false, if_false]
      split
      · exact ⟨_, rfl⟩
      · exact ⟨_, rfl⟩

theorem selectSignatures_isOk : (∃ new, selectSignatures D admins signed hash ds = .ok new) ↔
    ∀ d ∈ ds, ∃ k, (signatureAttribution D hash).Named (admins.map (·.publicKey)) d k :=
  Except.foldlM_isOk_iff (fun _ d _ => selectSignature_isOk (d := d)) []

theorem selectSignatures_fails : (∃ e, selectSignatures D admins signed hash ds = .error e) ↔
    ¬∀ d ∈ ds, ∃ k, (signatureAttribution D hash).Named (admins.map (·.publicKey)) d k := by
  rw [← @selectSignatures_isOk D admins signed]
  cases selectSignatures D admins signed hash ds <;> simp

-- Whoever is credited is found by a hint, and has not signed before.
structure Credited (D : Deps) (admins : List AuthorizedAdmin) (signed : List String) (hash : String)
    (ds : List DecoratedSignature) (new : List NewSignature) : Prop where
  nodup   : (new.map (·.userId)).Nodup
  credits : ∀ u, u ∈ new.map (·.userId) ↔ u ∉ signed ∧ ∃ a ∈ admins, a.userId = u ∧
    ∃ d ∈ ds, (signatureAttribution D hash).Named (admins.map (·.publicKey)) d a.publicKey

theorem Credited.step (hk : (admins.map (·.publicKey)).Nodup) {new' : List NewSignature}
    (h : Credited D admins signed hash ds new) (hs : selectSignature D admins signed hash new d = .ok new') :
    Credited D admins signed hash (ds ++ [d]) new' := by
  obtain ⟨k, hn⟩ := selectSignature_isOk.mp ⟨new', hs⟩
  obtain ⟨a, ha, hv, hak⟩ := named_iff.mp hn
  subst hak
  have hmem := List.mem_of_find?_eq_some ha
  have hcredits u : (∃ b ∈ admins, b.userId = u ∧ ∃ d' ∈ ds ++ [d],
      (signatureAttribution D hash).Named (admins.map (·.publicKey)) d' b.publicKey) ↔
      (∃ b ∈ admins, b.userId = u ∧ ∃ d' ∈ ds,
        (signatureAttribution D hash).Named (admins.map (·.publicKey)) d' b.publicKey) ∨ a.userId = u := by
    constructor
    case mp =>
      rintro ⟨b, hb, hu, d', hd, hn'⟩
      rcases List.mem_append.mp hd with hd | hd
      case inl => exact .inl ⟨b, hb, hu, d', hd, hn'⟩
      case inr =>
        cases List.mem_singleton.mp hd
        exact .inr (List.inj_on_of_nodup_map hk hmem hb (hn.unique hn') ▸ hu)
    case mpr =>
      rintro (⟨b, hb, hu, d', hd, hn'⟩ | hu)
      case inl => exact ⟨b, hb, hu, d', List.mem_append_left _ hd, hn'⟩
      case inr => exact ⟨a, hmem, hu, d, by simp, hn⟩
  simp only [selectSignature, ha, hv, not_true_eq_false, if_false] at hs
  split at hs
  case isTrue hseen =>
    cases hs
    refine ⟨h.nodup, fun u => ?_⟩
    rw [hcredits, and_or_left, ← h.credits]
    refine (or_iff_left_of_imp ?_).symm
    rintro ⟨hu, rfl⟩
    exact hseen.resolve_left hu
  case isFalse hnew =>
    cases hs
    obtain ⟨hns, hnn⟩ := not_or.mp hnew
    refine ⟨?_, fun u => ?_⟩
    case refine_1 =>
      rw [List.map_append, List.nodup_append]
      refine ⟨h.nodup, List.nodup_singleton _, ?_⟩
      rintro u hu _ hu' rfl
      cases List.mem_singleton.mp hu'
      exact hnn hu
    case refine_2 =>
      rw [hcredits, and_or_left, ← h.credits, List.map_append, List.mem_append, List.map_singleton,
        List.mem_singleton]
      refine or_congr_right ⟨?_, fun hu => hu.2.symm⟩
      rintro rfl
      exact ⟨hns, rfl⟩

theorem selectSignatures_credited (hk : (admins.map (·.publicKey)).Nodup)
    (h : selectSignatures D admins signed hash ds = .ok new) : Credited D admins signed hash ds new :=
  Except.foldlM_induction (Credited D admins signed hash) h ⟨.nil, by simp⟩ fun _ _ _ _ hi hs => hi.step hk hs

theorem collector_agrees_iff (hk : (admins.map (·.publicKey)).Nodup) (hu : (admins.map (·.userId)).Nodup) :
    CollectorAgrees D admins signed hash ds ↔
      (∃ d ∈ ds, (signatureAttribution D hash).Foreign (admins.map (·.publicKey)) d) ∨
      (∀ d ∈ ds, ∃ k, (signatureAttribution D hash).Named (admins.map (·.publicKey)) d k) ∧
        ∀ a ∈ admins, a.userId ∉ signed → (signatureAttribution D hash).Proven ds a.publicKey →
          ∃ d ∈ ds, (signatureAttribution D hash).Named (admins.map (·.publicKey)) d a.publicKey := by
  constructor
  case mp =>
    intro h
    by_cases hn : ∀ d ∈ ds, ∃ k, (signatureAttribution D hash).Named (admins.map (·.publicKey)) d k
    case neg => exact .inl <| h.rejects.mp <| selectSignatures_fails.mpr hn
    case pos =>
      refine .inr ⟨hn, fun a ha hs hp => ?_⟩
      have ⟨new, hnew⟩ := (@selectSignatures_isOk _ _ signed _ _).mpr hn
      have hc := ((h.credits new hnew).2 a ha).mpr ⟨hs, hp⟩
      have ⟨_, b, hb, hbu, hd⟩ := ((selectSignatures_credited hk hnew).credits a.userId).mp hc
      exact List.inj_on_of_nodup_map hu hb ha hbu ▸ hd
  case mpr =>
    rintro (⟨d, hd, hf⟩ | ⟨hn, hp⟩)
    case inl =>
      have hno : ¬∀ d ∈ ds, ∃ k, (signatureAttribution D hash).Named (admins.map (·.publicKey)) d k := fun hn =>
        have ⟨_, hn⟩ := hn d hd
        hn.not_foreign hf
      refine ⟨iff_of_true (selectSignatures_fails.mpr hno) ⟨d, hd, hf⟩, fun new hnew => ?_⟩
      exact (hno (selectSignatures_isOk.mp ⟨new, hnew⟩)).elim
    case inr =>
      refine ⟨iff_of_false (fun he => selectSignatures_fails.mp he hn) ?_, fun new hnew => ?_⟩
      case refine_1 =>
        rintro ⟨d, hd, hf⟩
        have ⟨_, hn⟩ := hn d hd
        exact hn.not_foreign hf
      case refine_2 =>
        have hc := selectSignatures_credited hk hnew
        refine ⟨hc.nodup, fun a ha => ?_⟩
        rw [hc.credits]
        refine and_congr_right fun hs => ⟨?_, fun hv => ⟨a, ha, rfl, hp a ha hs hv⟩⟩
        rintro ⟨b, hb, hbu, d, hd, hn⟩
        exact List.inj_on_of_nodup_map hu hb ha hbu ▸ hn.proven hd

end

section

variable {account : AccountSnapshot} {params : MultisigVerificationParams} {tx : Stellar.Transaction} {k : String}
  {hash : String} {ds : List DecoratedSignature} {signers : List String}

theorem verifySignature_verified {d : DecoratedSignature} (h : (verifySignature D account signers hash d).verified = true) :
    ∃ k, (signatureAttribution D hash).Named signers d k ∧ (verifySignature D account signers hash d).publicKey = k ∧
      (verifySignature D account signers hash d).weight = account.weightOf k := by
  unfold verifySignature at h ⊢
  cases hf : signers.find? (D.sdk.signatureHint · = some d.hint) with
  | none   => simp [hf] at h
  | some k =>
    rw [hf] at h
    exact ⟨k, ⟨hf, h⟩, rfl, rfl⟩

theorem verifySignature_credits {d : DecoratedSignature} :
    (verifySignature D account signers hash d).Credits k ↔ (signatureAttribution D hash).Named signers d k := by
  refine ⟨fun ⟨hv, hk⟩ => ?_, fun ⟨hf, hv⟩ => ?_⟩
  case refine_1 =>
    have ⟨k', hn, hk', _⟩ := verifySignature_verified hv
    exact hk ▸ hk' ▸ hn
  case refine_2 =>
    have hf : signers.find? (D.sdk.signatureHint · = some d.hint) = some k := hf
    simp only [VerifiedSignature.Credits, verifySignature, hf]
    exact ⟨hv, trivial⟩

theorem verificationResult_credits : (∃ s ∈ (verificationResult D account params tx).signatures, s.Credits k) ↔
    ∃ d ∈ D.sdk.decorated params.xdr,
      (signatureAttribution D (D.sdk.hash tx)).Named params.authorizedSigners d k := by
  simp only [verificationResult, List.mem_map, exists_exists_and_eq_and, verifySignature_credits]

theorem verifier_agrees_iff (hs : params.authorizedSigners.Nodup) (hx : D.sdk.signatureHint "unknown" = none) :
    VerifierAgrees D account params.authorizedSigners (D.sdk.hash tx) (D.sdk.decorated params.xdr)
      (verificationResult D account params tx) ↔
      ∀ k ∈ params.authorizedSigners,
        (signatureAttribution D (D.sdk.hash tx)).Proven (D.sdk.decorated params.xdr) k →
        ∃ d ∈ D.sdk.decorated params.xdr,
          (signatureAttribution D (D.sdk.hash tx)).Named params.authorizedSigners d k := by
  constructor
  case mp  => exact fun h k hk hp => verificationResult_credits.mp ((h.credits k hk).mpr hp)
  case mpr =>
    intro h
    have hcredits k (hk : k ∈ params.authorizedSigners) :
        (∃ s ∈ (verificationResult D account params tx).signatures, s.Credits k) ↔
          (signatureAttribution D (D.sdk.hash tx)).Proven (D.sdk.decorated params.xdr) k := by
      rw [verificationResult_credits]
      exact ⟨fun ⟨d, hd, hn⟩ => hn.proven hd, h k hk⟩
    refine ⟨hcredits, ?_⟩
    have hv s (hm : s ∈ (verificationResult D account params tx).signatures) (hv : s.verified = true) :
        s.publicKey ∈ params.authorizedSigners ∧ s.publicKey ≠ "unknown" ∧
          s.weight = account.weightOf s.publicKey := by
      have ⟨d, _, he⟩ := List.mem_map.mp hm
      subst he
      have ⟨k, hn, hk, hw⟩ := verifySignature_verified hv
      rw [hk]
      refine ⟨hn.mem, fun hu => ?_, hw⟩
      subst hu
      cases hx.symm.trans hn.hint
    refine (totalWeight_eq hs (fun s hm h => (hv s hm h).1) fun s hm h => (hv s hm h).2).trans ?_
    refine congrArg (fun l => (l.map account.weightOf).sum) (List.filter_congr fun k hk => ?_)
    exact decide_eq_decide.mpr (hcredits k hk)

theorem trial_agrees : TrialAgrees D signers hash ds := by
  have hall : (∀ x ∈ ds.map (·.signature), (matchedSigner D signers hash x).isSome) ↔
      ¬∃ d ∈ ds, (signatureAttribution D hash).Foreign signers d := by
    simp only [List.forall_mem_map, not_exists, not_and]
    refine forall₂_congr fun d _ => ?_
    rw [← byTrial_eq_none_iff, Option.isSome_iff_ne_none]
    rfl
  constructor
  case rejects =>
    rw [matchSignatures_eq]
    split
    case isTrue h  => simpa using hall.mp h
    case isFalse h => exact iff_of_true ⟨_, rfl⟩ (not_not.mp (mt hall.mpr h))
  case credits =>
    intro matched h
    rw [matchSignatures_eq] at h
    split at h
    case isFalse => cases h
    case isTrue =>
      cases h
      refine ⟨nodup_foldl_insert .nil, fun hu k => ?_⟩
      rw [mem_foldl_insert, or_iff_right List.not_mem_nil, List.mem_filterMap]
      simp only [List.mem_map, exists_exists_and_eq_and]
      constructor
      case mp =>
        rintro ⟨d, hd, hm⟩
        have ⟨hk, hv⟩ := mem_of_byTrial (A := signatureAttribution D hash) (i := d) hm
        exact ⟨hk, d, hd, hv⟩
      case mpr =>
        rintro ⟨hk, d, hd, hv⟩
        exact ⟨d, hd, (byTrial_eq_some_iff (A := signatureAttribution D hash) (i := d) (hu d hd)).mpr ⟨hk, hv⟩⟩

end

-- Attribution by hints gives the result of trying all keys if and only if the signatures of those that have
-- signed are found by their hints.
theorem attribution_agrees {admins : List AuthorizedAdmin} {signed : List String}
    {params : MultisigVerificationParams} {tx : Stellar.Transaction} {account : AccountSnapshot}
    {f : (a : Action) → Except Failure a.Answer} {r : MultisigVerificationResult}
    (hk : (admins.map (·.publicKey)).Nodup) (hu : (admins.map (·.userId)).Nodup)
    (hs : params.authorizedSigners = admins.map (·.publicKey)) (hx : D.sdk.signatureHint "unknown" = none)
    (ht : D.sdk.fromXDR params.xdr = some (.transaction tx))
    (ha : f (.loadAccount params.treasuryAccountPublicKey) = .ok account)
    (hr : (verifyMultisigSignatures D params).answered f = .ok r) :
    let A := signatureAttribution D (D.sdk.hash tx)
    let ds := D.sdk.decorated params.xdr
    (CollectorAgrees D admins signed (D.sdk.hash tx) ds ↔
      (∃ d ∈ ds, A.Foreign params.authorizedSigners d) ∨
      (∀ d ∈ ds, ∃ k, A.Named params.authorizedSigners d k) ∧
        ∀ a ∈ admins, a.userId ∉ signed → A.Proven ds a.publicKey →
          ∃ d ∈ ds, A.Named params.authorizedSigners d a.publicKey) ∧
    (VerifierAgrees D account params.authorizedSigners (D.sdk.hash tx) ds r ↔
      ∀ k ∈ params.authorizedSigners, A.Proven ds k → ∃ d ∈ ds, A.Named params.authorizedSigners d k) ∧
    TrialAgrees D params.authorizedSigners (D.sdk.hash tx) ds := by
  have ⟨account', ha', hr⟩ := verifyMultisigSignatures_answered ht hr
  cases ha.symm.trans ha'
  subst hr
  refine ⟨?_, verifier_agrees_iff (hs ▸ hk) hx, trial_agrees⟩
  rw [hs]
  exact collector_agrees_iff hk hu

-- Two keys with the same hint. Signatures are named after their signers.
def collidingDeps : Deps := { sampleDeps with
  sdk := { sampleSdk with
    signatureHint := fun k => if k ∈ ["alice", "bob"] then some "hint" else none
    decorated     := fun xdr => [⟨"hint", xdr⟩]
  }
}

def collidingAdmins : List AuthorizedAdmin :=
  [⟨"alice", "alice", 1⟩, ⟨"bob", "bob", 1⟩]

def collidingParams (xdr : String) : MultisigVerificationParams where
  xdr                      := xdr
  treasuryAccountPublicKey := "treasury"
  authorizedSigners        := ["alice", "bob"]

def sampleAnswers (account : AccountSnapshot) : (a : Action) → Except Failure a.Answer
  | .loadAccount _ => .ok account
  | _              => .error connectionLost

theorem attribution_agrees_sample :
    CollectorAgrees collidingDeps collidingAdmins [] "hash" [⟨"hint", "alice"⟩] := by
  have h := (@attribution_agrees collidingDeps collidingAdmins [] (collidingParams "alice") sampleTransaction
    sampleAccount (sampleAnswers sampleAccount) _ (by decide) (by decide) rfl (by decide) rfl rfl rfl).1
  have named : (signatureAttribution collidingDeps "hash").Named ["alice", "bob"] ⟨"hint", "alice"⟩ "alice" :=
    ⟨by decide, by decide⟩
  refine h.mpr <| .inr ⟨fun d hd => ?_, fun a _ _ ⟨d, hd, hv⟩ => ⟨d, hd, ?_⟩⟩
  · cases List.mem_singleton.mp hd
    exact ⟨"alice", named⟩
  · cases List.mem_singleton.mp hd
    have hv : "alice" = a.publicKey := of_decide_eq_true hv
    exact hv ▸ named

-- The signature of the second signer is taken for one of the first.
theorem attribution_disagrees :
    ¬CollectorAgrees collidingDeps collidingAdmins [] "hash" [⟨"hint", "bob"⟩] ∧
    ¬VerifierAgrees collidingDeps sampleAccount ["alice", "bob"] "hash" [⟨"hint", "bob"⟩]
      (verificationResult collidingDeps sampleAccount (collidingParams "bob") sampleTransaction) := by
  refine ⟨fun h => ?_, fun h => ?_⟩
  · have ⟨d, hd, hf⟩ := h.rejects.mp ⟨_, rfl⟩
    cases List.mem_singleton.mp hd
    exact absurd (hf "bob" (by decide)) (by decide)
  · have hc := (h.credits "bob" (by decide)).mpr ⟨_, .head _, by decide⟩
    exact absurd hc (by decide)

end Mergepay.Treasury
