import Mergepay.Theorems.Rejections

namespace Mergepay.Treasury

open Stellar

variable (D : Deps)

-- The keys are those of all signers, whatever their weights.
def getTreasuryMultisigRequirement (account : AccountSnapshot) (requiredSigners : Nat) :
    Except Failure MultisigRequirement :=
  if ¬account.exists_ then
    .error <| .badRequest "treasury_unfunded" "The treasury account is not funded on-chain"
  else
    .ok { signers := account.signers.map (·.key), threshold := requiredSigners }

def matchedSigner (signers : List String) (hash signature : String) : Option String :=
  signers.find? (D.sdk.verify · hash signature)

-- One step of the loop over the signatures of an envelope.
def matchSignature (signers : List String) (hash : String) (matchedSigners : List String)
    (signature : String) : Except Failure (List String) :=
  match matchedSigner D signers hash signature with
  | none        => .error <| .unauthorized
      "Transaction contains a signature from an unauthorized signer"
  | some signer => .ok (matchedSigners.insert signer)

def verifyMultisig (tx : Transaction) (requirement : MultisigRequirement) : Except Failure Unit := do
  if requirement.signers.isEmpty then
    throw <| .badRequest "treasury_misconfigured"
      "No signers are configured for this treasury account"
  if tx.signatures.isEmpty then
    throw <| .unauthorized "Transaction has no signatures"
  let matchedSigners ←
    tx.signatures.foldlM (matchSignature D requirement.signers (D.sdk.hash tx)) []
  if matchedSigners.length < requirement.threshold then
    throw <| .unauthorized <| "At least " ++ toString requirement.threshold ++
      " authorized signer(s) must sign this transaction"

-- The check of the signatures of a withdrawal.
def checkWithdrawal (account : AccountSnapshot) (requiredSigners : Nat) (tx : Transaction) :
    Except Failure Unit := do
  let requirement ← getTreasuryMultisigRequirement account requiredSigners
  verifyMultisig D tx requirement

-- The distinct signers of an account of which there is a valid signature.
def verifiedSigners (account : AccountSnapshot) (tx : Transaction) : List String :=
  ((account.signers.map (·.key)).filter fun k =>
    tx.signatures.any (D.sdk.verify k (D.sdk.hash tx) ·)).dedup

def verifiedWeight (account : AccountSnapshot) (tx : Transaction) : Nat :=
  ((verifiedSigners D account tx).map account.weightOf).sum

def AccountSnapshot.HasSigner (account : AccountSnapshot) (k : String) : Prop :=
  k ∈ account.signers.map (·.key)

variable {D}

section

variable {signers : List String} {hash : String} {signatures : List String}

-- The loop only fails for signatures of strangers. Otherwise the result are the distinct signers.
theorem matchSignatures_eq (acc : List String) :
    signatures.foldlM (matchSignature D signers hash) acc =
      if ∀ x ∈ signatures, (matchedSigner D signers hash x).isSome then
        .ok ((signatures.filterMap (matchedSigner D signers hash)).foldl (·.insert ·) acc)
      else
        .error <| .unauthorized "Transaction contains a signature from an unauthorized signer" := by
  induction signatures generalizing acc with
  | nil => rfl
  | cons x tl hi =>
    rw [List.foldlM_cons]
    cases hx : matchedSigner D signers hash x with
    | none   => simp [matchSignature, hx, bind, Except.bind]
    | some k =>
      simp only [matchSignature, hx, bind, Except.bind, List.forall_mem_cons, Option.isSome_some,
        true_and, List.filterMap_cons, List.foldl_cons]
      exact hi _

theorem mem_foldl_insert {l acc : List String} {k : String} :
    k ∈ l.foldl (·.insert ·) acc ↔ k ∈ acc ∨ k ∈ l := by
  induction l generalizing acc with
  | nil          => simp
  | cons hd tl hi =>
    rw [List.foldl_cons, hi, List.mem_insert_iff, List.mem_cons]
    tauto

theorem nodup_foldl_insert {l acc : List String} (h : acc.Nodup) :
    (l.foldl (·.insert ·) acc).Nodup := by
  induction l generalizing acc with
  | nil           => exact h
  | cons hd tl hi => exact hi (h.insert)

theorem mem_matched : k ∈ signatures.filterMap (matchedSigner D signers hash) →
    k ∈ signers ∧ ∃ x ∈ signatures, D.sdk.verify k hash x = true := by
  intro h
  have ⟨x, hx, hk⟩ := List.mem_filterMap.mp h
  exact ⟨List.mem_of_find?_eq_some hk, x, hx, by simpa using List.find?_some hk⟩

-- The outcome only depends on which signatures there are.
theorem verifyMultisig_congr {tx tx' : Transaction} (hh : D.sdk.hash tx' = D.sdk.hash tx)
    (hs : ∀ x, x ∈ tx'.signatures ↔ x ∈ tx.signatures) (requirement : MultisigRequirement) :
    verifyMultisig D tx' requirement = verifyMultisig D tx requirement := by
  have he : tx'.signatures.isEmpty = tx.signatures.isEmpty := by
    rw [Bool.eq_iff_iff, List.isEmpty_iff, List.isEmpty_iff, List.eq_nil_iff_forall_not_mem,
      List.eq_nil_iff_forall_not_mem]
    simp only [hs]
  have hf : (∀ x ∈ tx'.signatures, (matchedSigner D requirement.signers (D.sdk.hash tx) x).isSome) ↔
      ∀ x ∈ tx.signatures, (matchedSigner D requirement.signers (D.sdk.hash tx) x).isSome := by
    simp only [hs]
  have hl : ((tx'.signatures.filterMap (matchedSigner D requirement.signers (D.sdk.hash tx))).foldl
        (·.insert ·) []).length =
      ((tx.signatures.filterMap (matchedSigner D requirement.signers (D.sdk.hash tx))).foldl
        (·.insert ·) []).length := by
    refine List.Perm.length_eq <| (List.perm_ext_iff_of_nodup (nodup_foldl_insert .nil)
      (nodup_foldl_insert .nil)).mpr fun k => ?_
    simp only [mem_foldl_insert, List.mem_filterMap, hs]
  simp only [verifyMultisig, he, hh, matchSignatures_eq, hf]
  split
  · rfl
  split
  · rfl
  split
  · simp only [bind, Except.bind, hl]
  · rfl

-- The signers that have been matched are among those whose signatures are valid.
theorem verifyMultisig_ok {tx : Transaction} {requirement : MultisigRequirement}
    (h : verifyMultisig D tx requirement = .ok ()) :
    (∀ x ∈ tx.signatures, ∃ k ∈ requirement.signers, D.sdk.verify k (D.sdk.hash tx) x = true) ∧
    ∃ l : List String, l.Nodup ∧ requirement.threshold ≤ l.length ∧
      ∀ k ∈ l, k ∈ requirement.signers ∧ ∃ x ∈ tx.signatures, D.sdk.verify k (D.sdk.hash tx) x = true := by
  simp only [verifyMultisig] at h
  split at h
  case isTrue => cases h
  split at h
  case isTrue => cases h
  have ⟨matched, hm, h⟩ := Except.bind_eq_ok.mp h
  rw [matchSignatures_eq] at hm
  split at hm
  case isFalse => cases hm
  case isTrue hall =>
    cases hm
    refine ⟨fun x hx => ?_, (tx.signatures.filterMap (matchedSigner D requirement.signers
      (D.sdk.hash tx))).foldl (·.insert ·) [], nodup_foldl_insert .nil, ?_, fun k hk => ?_⟩
    · have ⟨k, hk⟩ := Option.isSome_iff_exists.mp (hall x hx)
      exact ⟨k, List.mem_of_find?_eq_some hk, by simpa using List.find?_some hk⟩
    · by_contra hn
      simp [Nat.not_le.mp hn, throw, throwThe, MonadExceptOf.throw] at h
    · rw [mem_foldl_insert] at hk
      exact mem_matched (hk.resolve_left (by simp))

end

section

variable {account : AccountSnapshot} {requiredSigners : Nat} {tx tx' : Transaction}

theorem checkWithdrawal_eq : checkWithdrawal D account requiredSigners tx =
    if account.exists_ then
      verifyMultisig D tx ⟨account.signers.map (·.key), requiredSigners⟩
    else
      .error <| .badRequest "treasury_unfunded" "The treasury account is not funded on-chain" := by
  unfold checkWithdrawal getTreasuryMultisigRequirement
  cases account.exists_ <;> rfl

theorem checkWithdrawal_congr (hh : D.sdk.hash tx' = D.sdk.hash tx)
    (hs : ∀ x, x ∈ tx'.signatures ↔ x ∈ tx.signatures) :
    checkWithdrawal D account requiredSigners tx' = checkWithdrawal D account requiredSigners tx := by
  rw [checkWithdrawal_eq, checkWithdrawal_eq, verifyMultisig_congr hh hs]

theorem mem_verifiedSigners : k ∈ verifiedSigners D account tx ↔
    account.HasSigner k ∧ ∃ x ∈ tx.signatures, D.sdk.verify k (D.sdk.hash tx) x = true := by
  simp [verifiedSigners, AccountSnapshot.HasSigner]

theorem checkWithdrawal_ok (h : checkWithdrawal D account requiredSigners tx = .ok ()) :
    (∀ x ∈ tx.signatures, ∃ k, account.HasSigner k ∧ D.sdk.verify k (D.sdk.hash tx) x = true) ∧
    requiredSigners ≤ (verifiedSigners D account tx).length := by
  rw [checkWithdrawal_eq] at h
  split at h
  case isFalse => cases h
  case isTrue =>
    have ⟨hall, l, hn, hl, hk⟩ := verifyMultisig_ok h
    refine ⟨hall, hl.trans <| (List.subperm_of_subset hn fun k hm => ?_).length_le⟩
    exact mem_verifiedSigners.mpr (hk k hm)

-- Signers are counted here, rather than weighed. An accepted withdrawal has as many signers as are
-- required and no signature by anybody else. Therefore its weight is sufficient if that of any such
-- number of signers is.
theorem withdrawal_signed :
    (checkWithdrawal D account requiredSigners tx = .ok () →
      (∀ x ∈ tx.signatures, ∃ k, account.HasSigner k ∧ D.sdk.verify k (D.sdk.hash tx) x = true) ∧
      requiredSigners ≤ (verifiedSigners D account tx).length ∧
      ((∀ k, account.HasSigner k → 0 < account.weightOf k) → ∀ x ∈ tx.signatures,
        ∃ k, account.HasSigner k ∧ 0 < account.weightOf k ∧ D.sdk.verify k (D.sdk.hash tx) x = true) ∧
      ((∀ l : List String, l.Nodup → (∀ k ∈ l, account.HasSigner k) → requiredSigners ≤ l.length →
        account.thresholds.med ≤ (l.map account.weightOf).sum) →
        account.thresholds.med ≤ verifiedWeight D account tx)) ∧
    ∀ tx', D.sdk.hash tx' = D.sdk.hash tx → (∀ x, x ∈ tx'.signatures ↔ x ∈ tx.signatures) →
      checkWithdrawal D account requiredSigners tx' = checkWithdrawal D account requiredSigners tx := by
  refine ⟨fun h => ?_, fun tx' hh hs => checkWithdrawal_congr hh hs⟩
  have ⟨hall, hl⟩ := checkWithdrawal_ok h
  refine ⟨hall, hl, fun hpos x hx => ?_, fun hmed => ?_⟩
  · have ⟨k, hk, hv⟩ := hall x hx
    exact ⟨k, hk, hpos k hk, hv⟩
  · exact hmed _ (List.nodup_dedup _) (fun k hk => (mem_verifiedSigners.mp hk).1) hl

end

-- The master key of the account has been disabled, and the other signer does not weigh enough.
def weakAccount : AccountSnapshot := {
  exists_    := true
  signers    := [⟨"treasury", 0⟩, ⟨"alice", 1⟩]
  thresholds := ⟨1, 2, 2⟩
}

def withdrawalSignedBy (keys : List String) : Transaction :=
  { sampleTransaction with signatures := keys }

theorem withdrawal_signed_sample :
    1 ≤ (verifiedSigners sampleDeps soleAccount (withdrawalSignedBy ["alice"])).length ∧
    1 ≤ verifiedWeight sampleDeps soleAccount (withdrawalSignedBy ["alice"]) ∧
    checkWithdrawal sampleDeps soleAccount 1 (withdrawalSignedBy ["alice", "alice"]) = .ok () := by
  have h : checkWithdrawal sampleDeps soleAccount 1 (withdrawalSignedBy ["alice"]) = .ok () := by
    decide +kernel
  have ⟨ha, hc⟩ := @withdrawal_signed sampleDeps soleAccount 1 (withdrawalSignedBy ["alice"])
  have ⟨_, hl, _, hw⟩ := ha h
  refine ⟨hl, hw fun l hn hk hlen => ?_, ?_⟩
  · cases l with
    | nil       => cases hlen
    | cons k tl =>
      have hk : k = "alice" := by simpa [AccountSnapshot.HasSigner, soleAccount] using hk k (.head _)
      subst hk
      exact Nat.le_add_right _ _
  · rw [hc (withdrawalSignedBy ["alice", "alice"]) rfl (by simp [withdrawalSignedBy])]
    exact h

theorem withdrawal_underweight :
    checkWithdrawal sampleDeps weakAccount 1 (withdrawalSignedBy ["alice"]) = .ok () ∧
    verifiedWeight sampleDeps weakAccount (withdrawalSignedBy ["alice"]) = 1 ∧
    weakAccount.thresholds.med = 2 ∧
    checkWithdrawal sampleDeps weakAccount 1 (withdrawalSignedBy ["treasury"]) = .ok () ∧
    weakAccount.weightOf "treasury" = 0 := by
  decide +kernel

end Mergepay.Treasury
