import Mathlib.Algebra.Order.BigOperators.Group.Finset
import Mathlib.Data.Rat.Init
import Mathlib.Order.CompletePartialOrder
import Mergepay.Data.OrderedMap
import Mergepay.Treasury.Proposals
import Mergepay.Treasury.Signatures

namespace Mergepay.Treasury

structure TreasuryPolicyParams where
  groupId                  : String
  treasuryAccountPublicKey : String
  requiredSigners          : Rat
  snapshot                 : AccountSnapshot

-- The keys of the members of a group, without those of members that have none.
def expectedSignerKeys (members : List (Option String)) : List String :=
  ((members.filterMap id).filter (· ≠ "")).eraseDups

def onChainSigners (snapshot : AccountSnapshot) : OrderedMap String Nat :=
  snapshot.signers.foldl (fun m signer => m.set signer.key signer.weight) []

def checkSigner (treasuryAccountPublicKey : String) (expected : List String) (signer : Signer) : Except Failure Unit :=
  if signer.key = treasuryAccountPublicKey then
    if signer.weight ≠ 0 then
      .error <| .badRequest "stale_treasury_policy" "The treasury master signer must have zero weight"
    else
      .ok ()
  else if signer.key ∉ expected ∧ signer.weight > 0 then
    .error <| .badRequest "stale_treasury_policy" "The treasury account contains an unknown or inactive signer"
  else
    .ok ()

def addWeight (signers : OrderedMap String Nat) (totalWeight : Nat) (signerKey : String) : Except Failure Nat :=
  let missing := .error <| .badRequest "stale_treasury_policy"
    "A configured treasury signer is missing or has insufficient weight"
  match signers.get? signerKey with
  | none        => missing
  | some weight => if weight ≤ 0 then missing else .ok (totalWeight + weight)

-- The members of a group are read between the checks.
def assertTreasuryPolicy (findMembers : String → List (Option String)) (params : TreasuryPolicyParams) :
    Except Failure Unit := do
  let snapshot := params.snapshot
  if ¬snapshot.exists_ then
    throw <| .badRequest "treasury_unfunded" "The treasury account is not funded"
  if ¬params.requiredSigners.isInt ∨ params.requiredSigners < 1 then
    throw <| .badRequest "invalid_treasury_policy" "The treasury signer threshold is invalid"
  if snapshot.thresholds.high ≠ params.requiredSigners then
    throw <| .badRequest "stale_treasury_policy"
      "The treasury account threshold does not match the configured policy"
  let expected := expectedSignerKeys (findMembers params.groupId)
  if expected.length = 0 then
    throw <| .badRequest "invalid_treasury_policy" "The treasury has no configured group signers"
  snapshot.signers.forM (checkSigner params.treasuryAccountPublicKey expected)
  let totalWeight ← expected.foldlM (addWeight (onChainSigners snapshot)) 0
  if totalWeight < snapshot.thresholds.high then
    throw <| .badRequest "insufficient_treasury_weight"
      "The configured treasury signers cannot satisfy the account threshold"

section

variable {snapshot : AccountSnapshot} {treasury : String} {expected : List String}

theorem mem_expectedSignerKeys {members : List (Option String)} {k : String} :
    k ∈ expectedSignerKeys members ↔ some k ∈ members ∧ k ≠ "" := by
  simp [expectedSignerKeys]

-- A map has the last weight of each key.
theorem get?_onChainSigners (k : String) : (onChainSigners snapshot).get? k =
    (Table.row? (·.key) snapshot.signers.reverse k).map (·.weight) := by
  unfold onChainSigners
  induction snapshot.signers using List.reverseRecOn with
  | nil                           => rfl
  | append_singleton l signer hi =>
    rw [List.foldl_concat, List.reverse_concat, OrderedMap.get?_set, hi]
    by_cases hk : signer.key = k <;> simp [Table.row?, hk]

theorem getD_onChainSigners (k : String) : ((onChainSigners snapshot).get? k).getD 0 = snapshot.weightOf k := by
  rw [get?_onChainSigners]
  rfl

-- What the checks of the policy amount to.
structure Enforced (snapshot : AccountSnapshot) (treasury : String) (expected : List String) : Prop where
  master  : ∀ signer ∈ snapshot.signers, signer.key = treasury → signer.weight = 0
  members : ∀ signer ∈ snapshot.signers, 0 < signer.weight → signer.key ∈ expected
  weights : ∀ k ∈ expected, 1 ≤ snapshot.weightOf k

theorem checkSigner_eq_ok {signer : Signer} (h : checkSigner treasury expected signer = .ok ()) :
    (signer.key = treasury → signer.weight = 0) ∧ (0 < signer.weight → signer.key ∈ expected) := by
  unfold checkSigner at h
  split at h
  case isTrue hk =>
    split at h
    case isTrue     => contradiction
    case isFalse hw =>
      have hw : signer.weight = 0 := not_not.mp hw
      exact ⟨fun _ => hw, fun hp => absurd hw (Nat.ne_of_gt hp)⟩
  case isFalse hk =>
    split at h
    case isTrue     => contradiction
    case isFalse hw => exact ⟨(absurd · hk), fun hp => by_contra fun he => hw ⟨he, hp⟩⟩

theorem addWeight_eq_ok {n n' : Nat} {k : String} (h : addWeight (onChainSigners snapshot) n k = .ok n') :
    1 ≤ snapshot.weightOf k := by
  rw [← getD_onChainSigners]
  unfold addWeight at h
  split at h
  case h_1 => contradiction
  case h_2 weight hw =>
    rw [hw]
    split at h
    case isTrue     => contradiction
    case isFalse hp => exact Nat.not_le.mp hp

theorem assertTreasuryPolicy_eq_ok {findMembers : String → List (Option String)} {params : TreasuryPolicyParams}
    (h : assertTreasuryPolicy findMembers params = .ok ()) :
    (params.snapshot.thresholds.high : Rat) = params.requiredSigners ∧
    Enforced params.snapshot params.treasuryAccountPublicKey (expectedSignerKeys (findMembers params.groupId)) := by
  simp only [assertTreasuryPolicy] at h
  split at h
  case isTrue => contradiction
  split at h
  case isTrue => contradiction
  split at h
  case isTrue => contradiction
  case isFalse ht =>
    split at h
    case isTrue => contradiction
    case isFalse =>
      have ⟨hs, h⟩ := Except.unit_bind_eq_ok.mp h
      have ⟨_, hw, _⟩ := Except.bind_eq_ok.mp h
      refine ⟨not_not.mp ht, fun signer hm => ?_, fun signer hm => ?_, fun k hk => ?_⟩
      case refine_1 => exact (checkSigner_eq_ok (Except.forM_mem hs hm)).1
      case refine_2 => exact (checkSigner_eq_ok (Except.forM_mem hs hm)).2
      case refine_3 =>
        have ⟨_, _, ha⟩ := Except.foldlM_mem hw hk
        exact addWeight_eq_ok ha

end

open Concurrency

-- The keys of the members of a group
def memberKeys (members : List (Option String)) : Set String :=
  { k | some k ∈ members ∧ k ≠ "" }

-- A request starts with the signatures that are stored for a proposal, which are those of distinct members.
structure Collected.Starts (c : Collected) (members : Set String) : Prop where
  existing : c.existingKeys = StoredSignature.keys c.verified
  distinct : (StoredSignature.keys c.verified).Nodup
  members  : ∀ k ∈ StoredSignature.keys c.verified, k ∈ members

variable {account : AccountSnapshot} {treasury : String} {expected : List String}

namespace Enforced

variable (h : Enforced account treasury expected)

include h

theorem weightOf_eq_zero {k : String} (hk : k = treasury ∨ k ∉ expected) : account.weightOf k = 0 := by
  simp only [AccountSnapshot.weightOf]
  cases hr : Table.row? (·.key) account.signers.reverse k with
  | none        => rfl
  | some signer =>
    have hm := List.mem_reverse.mp (Table.mem_of_row? hr)
    have hs : signer.key = k := Table.key_of_row? hr
    cases hk with
    | inl hk => exact h.master signer hm (hs.trans hk)
    | inr hk => exact Nat.eq_zero_of_not_pos fun hp => hk (hs ▸ h.members signer hm hp)

-- Every member weighs at least one.
theorem card_le_sum {s : Finset String} (hs : ∀ k ∈ s, k ∈ expected) : s.card ≤ ∑ k ∈ s, account.weightOf k := by
  simpa using Finset.card_nsmul_le_sum s account.weightOf 1 fun k hk => h.weights k (hs k hk)

end Enforced

theorem policy_sound {findMembers : String → List (Option String)} {params : TreasuryPolicyParams}
    (h : assertTreasuryPolicy findMembers params = .ok ()) :
    let members := memberKeys (findMembers params.groupId)
    let account := params.snapshot
    (∀ s : Finset String, ↑s ⊆ members → params.requiredSigners ≤ s.card →
      account.thresholds.high ≤ ∑ k ∈ s, account.weightOf k) ∧
    (∀ signer ∈ account.signers, 0 < signer.weight → signer.key ∈ members) ∧
    account.weightOf params.treasuryAccountPublicKey = 0 ∧
    (∀ D (g : Signing) ds c c' l, c.Starts members → (∀ k ∈ g.memberPublicKeys, k ∈ members) →
      g.proposal.threshold = params.requiredSigners → (collectSignatures D g c ds).After l (.done c') →
      c'.verified.length ≥ g.proposal.threshold →
      account.thresholds.high ≤ ((StoredSignature.keys c'.verified).map account.weightOf).sum) ∧
    ∀ s : Finset String, Disjoint ↑s members → ∑ k ∈ s, account.weightOf k = 0 := by
  have ⟨ht, he⟩ := assertTreasuryPolicy_eq_ok h
  have hm {k} : k ∈ memberKeys (findMembers params.groupId) ↔ k ∈ expectedSignerKeys (findMembers params.groupId) :=
    mem_expectedSignerKeys.symm
  have hw {s : Finset String} (hs : ∀ k ∈ s, k ∈ memberKeys (findMembers params.groupId))
      (hc : params.requiredSigners ≤ s.card) : params.snapshot.thresholds.high ≤ ∑ k ∈ s, params.snapshot.weightOf k :=
    calc
      _ ≤ s.card := by
        rw [← ht] at hc
        exact_mod_cast hc
      _ ≤ _ := he.card_le_sum fun k hk => hm.mp (hs k hk)
  refine ⟨fun s => hw, fun signer hs hp => hm.mpr (he.members signer hs hp), he.weightOf_eq_zero (.inl rfl), ?_, ?_⟩
  case refine_1 =>
    intro D g ds c c' l hi hg hk hr hl
    have ⟨hn, hv⟩ := collectSignatures_keys hr hi.existing hi.distinct
    rw [← List.sum_toFinset _ hn]
    refine hw (fun k hk => ?_) ?_
    case refine_1 =>
      cases hv k (List.mem_toFinset.mp hk) with
      | inl hk => exact hi.members k hk
      | inr hk => exact hg k hk
    case refine_2 =>
      rw [← hk, List.toFinset_card_of_nodup hn, StoredSignature.keys, List.length_map]
      exact_mod_cast hl
  case refine_2 =>
    intro s hd
    exact Finset.sum_eq_zero fun k hk => he.weightOf_eq_zero <| .inr fun hx => hd.notMem_of_mem_left hk (hm.mpr hx)

-- One of the three members has no key.
theorem policy_sound_pair :
    let account : AccountSnapshot := {
      exists_    := true
      signers    := [⟨"GTREASURY", 0⟩, ⟨"GALICE", 1⟩, ⟨"GBOB", 3⟩]
      thresholds := { low := 1, med := 2, high := 2 }
    }
    2 ≤ ∑ k ∈ {"GALICE", "GBOB"}, account.weightOf k := by
  intro account
  have hp := @policy_sound (fun _ => [some "GALICE", none, some "GBOB"]) ⟨"trip", "GTREASURY", 2, account⟩ rfl
  exact hp.1 _ (by simp [Set.insert_subset_iff, memberKeys]) (by decide)

end Mergepay.Treasury
