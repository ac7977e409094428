import Mergepay.Data.Attribution
import Mergepay.Data.OrderedMap
import Mergepay.Data.Table
import Mergepay.Treasury.Signatures

namespace Mergepay.Treasury

open Concurrency

variable (D : Deps)

structure VerifiedSignature where
  publicKey : String
  weight    : Nat
  verified  : Bool
  deriving DecidableEq

structure MultisigVerificationResult where
  meetsThreshold : Bool
  totalWeight    : Nat
  requiredWeight : Nat
  signatureCount : Nat
  signatures     : List VerifiedSignature
  sourceAccount  : String
  deriving DecidableEq

-- The set of signers is in the order of its insertions.
structure MultisigVerificationParams where
  xdr                      : String
  treasuryAccountPublicKey : String
  authorizedSigners        : List String

def parseVerified (params : MultisigVerificationParams) : Except Failure Stellar.Transaction :=
  match newTransaction D params.xdr with
  | .error _ => .error <| .badRequest "xdr_parse_failed" "Could not parse transaction XDR"
  | .ok tx   =>
    if tx.source ≠ params.treasuryAccountPublicKey then
      .error <| .badRequest "source_account_mismatch"
        "Transaction source account does not match treasury account"
    else
      .ok tx

-- The first signer with the hint of a signature is the only one that is tried.
def verifySignature (account : AccountSnapshot) (authorizedSigners : List String) (txHash : String)
    (decorated : DecoratedSignature) : VerifiedSignature :=
  match authorizedSigners.find? (D.sdk.signatureHint · = some decorated.hint) with
  | none           => { publicKey := "unknown", weight := 0, verified := false }
  | some publicKey => {
    publicKey
    weight   := account.weightOf publicKey
    verified := D.sdk.verify publicKey txHash decorated.signature
  }

-- One step of the loop over the verified signatures, which are deduplicated by their keys.
def countSignature (verifiedSignatures : OrderedMap String Nat) (sig : VerifiedSignature) :
    OrderedMap String Nat :=
  if sig.verified ∧ sig.publicKey ≠ "unknown" then
    if sig.weight > (verifiedSignatures.get? sig.publicKey).getD 0 then
      verifiedSignatures.set sig.publicKey sig.weight
    else
      verifiedSignatures
  else
    verifiedSignatures

def verificationResult (account : AccountSnapshot) (params : MultisigVerificationParams)
    (tx : Stellar.Transaction) : MultisigVerificationResult :=
  let signatures := (D.sdk.decorated params.xdr).map <|
    verifySignature D account params.authorizedSigners (D.sdk.hash tx)
  let totalWeight := ((signatures.foldl countSignature []).map (·.2)).sum
  {
    meetsThreshold := totalWeight ≥ account.thresholds.high
    totalWeight
    requiredWeight := account.thresholds.high
    signatureCount := (signatures.filter (·.verified)).length
    signatures
    sourceAccount  := tx.source
  }

def verifyMultisigSignatures (params : MultisigVerificationParams) : Tx MultisigVerificationResult := do
  let tx ← lift <| parseVerified D params
  let account ← act <| .loadAccount params.treasuryAccountPublicKey
  lift account.checkExists
  return verificationResult D account params tx

-- How the signatures of an envelope are related to keys.
def signatureAttribution (hash : String) : Attribution String DecoratedSignature String where
  hintOf := D.sdk.signatureHint
  hint   := (·.hint)
  valid  := fun k d => D.sdk.verify k hash d.signature

variable {D} {account : AccountSnapshot} {sigs : List VerifiedSignature} {signers : List String} {hash : String}
  {ds : List DecoratedSignature} {params : MultisigVerificationParams} {tx : Stellar.Transaction}

theorem lift_answered {f : (a : Action) → Except Failure a.Answer} (x : Except Failure α) :
    (lift x).answered f = x := by
  cases x <;> rfl

theorem verifyMultisigSignatures_answered {f : (a : Action) → Except Failure a.Answer}
    {r : MultisigVerificationResult} (ht : D.sdk.fromXDR params.xdr = some (.transaction tx))
    (h : (verifyMultisigSignatures D params).answered f = .ok r) :
    ∃ account, f (.loadAccount params.treasuryAccountPublicKey) = .ok account ∧
      r = verificationResult D account params tx := by
  rw [verifyMultisigSignatures, Prog.bind_eq, Prog.answered_bind] at h
  have ⟨tx', hp, h⟩ := Except.bind_eq_ok.mp h
  rw [Prog.bind_eq, Prog.answered_bind] at h
  have ⟨account, ha, h⟩ := Except.bind_eq_ok.mp h
  rw [Prog.bind_eq, Prog.answered_bind] at h
  have ⟨_, _, h⟩ := Except.bind_eq_ok.mp h
  rw [lift_answered, parseVerified, newTransaction, ht] at hp
  simp only at hp
  split at hp
  case isTrue  => cases hp
  case isFalse =>
    cases hp
    refine ⟨account, ?_, (Except.ok.inj h).symm⟩
    rw [act, Prog.perform, Prog.answered] at ha
    cases hf : f (.loadAccount params.treasuryAccountPublicKey) with
    | ok a    =>
      rw [hf] at ha
      exact congrArg _ (Except.ok.inj ha)
    | error e =>
      rw [hf] at ha
      cases ha

def VerifiedSignature.Credits (sig : VerifiedSignature) (k : String) : Prop :=
  sig.verified = true ∧ sig.publicKey = k

instance (sig : VerifiedSignature) (k : String) : Decidable (sig.Credits k) :=
  inferInstanceAs (Decidable (_ ∧ _))

-- The loop over the signatures ends with the weights of those signers that have been verified.
structure Counted (account : AccountSnapshot) (sigs : List VerifiedSignature) (m : OrderedMap String Nat) :
    Prop where
  nodup : (OrderedMap.keys m).Nodup
  keys  : ∀ k ∈ OrderedMap.keys m, ∃ s ∈ sigs, s.Credits k
  get?  : ∀ k, (m.get? k).getD 0 = if ∃ s ∈ sigs, s.Credits k then account.weightOf k else 0

theorem Counted.step {m : OrderedMap String Nat} {sigs : List VerifiedSignature} {sig : VerifiedSignature}
    (hw : sig.verified = true → sig.publicKey ≠ "unknown" ∧ sig.weight = account.weightOf sig.publicKey)
    (h : Counted account sigs m) : Counted account (sigs ++ [sig]) (countSignature m sig) := by
  have hmem k : (∃ s ∈ sigs ++ [sig], s.Credits k) ↔ (∃ s ∈ sigs, s.Credits k) ∨ sig.Credits k := by
    simp [or_and_right, exists_or]
  unfold countSignature
  split
  case isFalse hv =>
    have hn k : ¬sig.Credits k := fun hc => hv ⟨hc.1, (hw hc.1).1⟩
    exact ⟨h.nodup, fun k hk => (hmem k).mpr <| .inl <| h.keys k hk, fun k => by simp only [h.get?, hmem, hn, or_false]⟩
  case isTrue hv =>
    have hwt := (hw hv.1).2
    split
    case isTrue =>
      refine ⟨OrderedMap.nodup_keys_set h.nodup, fun k hk => (hmem k).mpr ?_, fun k => ?_⟩
      case refine_1 =>
        rw [OrderedMap.keys_set] at hk
        split at hk
        case isTrue => exact .inl <| h.keys k hk
        case isFalse =>
          rcases List.mem_append.mp hk with hk | hk
          case inl => exact .inl <| h.keys k hk
          case inr => exact .inr ⟨hv.1, (List.mem_singleton.mp hk).symm⟩
      case refine_2 =>
        rw [OrderedMap.get?_set]
        split
        case isTrue hk =>
          rw [if_pos ((hmem k).mpr (.inr ⟨hv.1, hk⟩)), hwt, hk]
          rfl
        case isFalse hk =>
          have hn : ¬sig.Credits k := fun hc => hk hc.2
          simp only [h.get?, hmem, hn, or_false]
    -- The weight of a signer is always the same, so that it is only skipped if it has been counted, or is zero.
    case isFalse hle =>
      refine ⟨h.nodup, fun k hk => (hmem k).mpr <| .inl <| h.keys k hk, fun k => ?_⟩
      by_cases hk : sig.publicKey = k
      case neg =>
        have hn : ¬sig.Credits k := fun hc => hk hc.2
        simp only [h.get?, hmem, hn, or_false]
      case pos =>
        have hg := h.get? k
        rw [hk] at hle hwt
        rw [if_pos ((hmem k).mpr (.inr ⟨hv.1, hk⟩))]
        split at hg <;> omega

theorem counted_foldl (h : ∀ sig ∈ sigs, sig.verified = true →
    sig.publicKey ≠ "unknown" ∧ sig.weight = account.weightOf sig.publicKey) :
    Counted account sigs (sigs.foldl countSignature []) := by
  induction sigs using List.reverseRecOn with
  | nil                          => exact ⟨.nil, by simp, by simp⟩
  | append_singleton sigs sig hi =>
    rw [List.foldl_concat]
    exact (hi fun s hs => h s (List.mem_append_left _ hs)).step (h sig (by simp))

-- The total weight is the one of the distinct signers that have been verified.
theorem totalWeight_eq (hs : signers.Nodup) (hm : ∀ sig ∈ sigs, sig.verified = true → sig.publicKey ∈ signers)
    (h : ∀ sig ∈ sigs, sig.verified = true →
      sig.publicKey ≠ "unknown" ∧ sig.weight = account.weightOf sig.publicKey) :
    ((sigs.foldl countSignature []).map (·.2)).sum =
      ((signers.filter fun k => ∃ s ∈ sigs, s.Credits k).map account.weightOf).sum := by
  have hc := counted_foldl h
  have hk k (hk : k ∈ OrderedMap.keys (sigs.foldl countSignature [])) : k ∈ signers := by
    have ⟨s, hs, hv, hk⟩ := hc.keys k hk
    exact hk ▸ hm s hs hv
  rw [← OrderedMap.sum_values hc.nodup hs hk]
  simp only [hc.get?]
  exact Table.sum_map_ite

end Mergepay.Treasury
