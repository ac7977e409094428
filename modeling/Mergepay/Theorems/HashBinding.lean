import Mergepay.Settlement.Runs

namespace Mergepay

open Concurrency

namespace Settlement

-- The hash of the stored envelope.
def envelopeHash (D : Deps) (s : Settlement) : Option String :=
  s.transactionXdr.map D.hashOf

-- If a hash is recorded, then it belongs to the stored envelope.
def Paired (D : Deps) (s : Settlement) : Prop :=
  ∀ k, s.stellarTxHash = some k → s.envelopeHash D = some k

end Settlement

namespace Caller

-- A job still finds the envelope it works with, as far as it matters.
def Current (D : Deps) (caller : Caller) (s : Settlement) : Prop :=
  match caller with
  | job xdr reason => reason.concernsEnvelope = true → s.envelopeHash D = xdr.map D.hashOf
  | _              => True

instance : Decidable (Current D caller s) := by
  unfold Current
  split <;> infer_instance

end Caller

-- An envelope is only replaced by a new signature while no other hash is recorded, and a job only
-- records or acts upon a hash while its envelope is still the stored one.
def Binding (D : Deps) : Act → World → Prop
  | .update (.sign i xdr now reset), w => ∀ s ∈ w.settlement i,
    (Write.sign i xdr now reset).applies s → ∀ k ∈ s.stellarTxHash, k = D.hashOf xdr
  | .update (.refresh i _ caller), w   => ∀ s ∈ w.settlement i, caller.Current D s
  | .transition t, w                   =>
    ∀ s ∈ w.settlement t.settlementId, t.applies s → t.caller.Current D s
  | _, _                               => True

instance (a : Act) (w : World) : Decidable (Binding D a w) := by
  induction a using Act.casesOn with
  | transition t => exact inferInstanceAs (Decidable (∀ s ∈ w.settlement t.settlementId, _))
  | update u =>
    induction u using Write.casesOn with
    | sign i xdr now reset => exact inferInstanceAs (Decidable (∀ s ∈ w.settlement i, _))
    | refresh i _ caller   => exact inferInstanceAs (Decidable (∀ s ∈ w.settlement i, _))
    | _                    => exact inferInstanceAs (Decidable True)
  | _ => exact inferInstanceAs (Decidable True)

def World.Paired (D : Deps) (w : World) : Prop :=
  ∀ i s, w.settlement i = some s → s.Paired D

variable {D : Deps} {C : Act → World → Prop} {w w₁ w₂ : World} {s s' : Settlement}

-- What a caller of the state machine records is the hash of the envelope it finds in the row.
theorem envelopeHash_of_sets {caller : Caller} (hd : caller.Sets D d) (hc : caller.Current D s)
    (hk : d.stellarTxHash = some k) : k = s.envelopeHash D := by
  have ⟨xdr, reason, hj, hr, h⟩ := hd.stellarTxHash k hk
  subst hj
  exact h.trans (hc hr).symm

theorem paired_of_sets {caller : Caller} {d : Patch} (hd : caller.Sets D d)
    (hc : caller.Current D s) (hs : s.Paired D) (hp : p.stellarTxHash = d.stellarTxHash)
    (hx : p.transactionXdr = none) : (s.patch p now).Paired D := by
  intro k hk
  simp only [Settlement.envelopeHash, Settlement.patch_transactionXdr, hx, Option.getD_none]
  simp only [Settlement.patch_stellarTxHash, hp] at hk
  cases hd' : d.stellarTxHash
  case none   => exact hs k <| by simpa [hd'] using hk
  case some h =>
    rw [hd', Option.getD_some] at hk
    exact (envelopeHash_of_sets hd hc hd').symm.trans hk

theorem Deps.Change.paired (h : D.Change (Binding D) w a s s') (hw : w.settlement i = some s)
    (hs : s.Paired D) : s'.Paired D := by
  have hi := Table.key_of_row? hw
  cases h
  case same | unlink => exact hs
  case transition t hc hd ha =>
    have hj := (t.applies_iff.mp ha).1
    exact paired_of_sets hd.sets (hc s (hj ▸ hi ▸ hw) ha) hs rfl hd.sets.transactionXdr
  case update u hc hd ha =>
    cases u
    case refresh j d caller =>
      have hj := Write.refresh_applies_iff.mp ha
      exact paired_of_sets hd (hc s (hj ▸ hi ▸ hw)) hs rfl hd.transactionXdr
    case sign j xdr now reset =>
      have hj := (Write.sign_applies_iff.mp ha).1
      intro k hk
      have hk := hc s (hj ▸ hi ▸ hw) ha k hk
      exact congrArg some hk.symm
    case writeStatus j k status d =>
      intro k hk
      simp only [Settlement.envelopeHash, Settlement.patch_stellarTxHash, hd.2.1, hd.2.2.1,
        Settlement.patch_transactionXdr, Write.data, Option.getD_none] at hk ⊢
      exact hs k hk
    all_goals exact hs

theorem Deps.Move.paired (h : D.Move (Binding D) w₁ w₂) (hw : w₁.WellFormed) (hp : w₁.Paired D) :
    w₂.Paired D := by
  intro i s hs
  rcases h.settlement_cases hw hs with ⟨_, s₁, hs₁, hc⟩ | ⟨_, hc⟩
  case inl => exact hc.paired hs₁ (hp i s₁ hs₁)
  case inr =>
    intro k hk
    exact absurd (hc.unsigned.stellarTxHash.symm.trans hk) (by simp)

-- Once a hash is recorded, it stays.
theorem recorded_of_sets {caller : Caller} {d : Patch} (hd : caller.Sets D d)
    (hc : caller.Current D s) (hs : s.Paired D) (hk : s.stellarTxHash = some k) :
    d.stellarTxHash.getD s.stellarTxHash = some k := by
  cases hd' : d.stellarTxHash
  case none   => exact hk
  case some h => exact (envelopeHash_of_sets hd hc hd').trans (hs k hk)

theorem Deps.Change.recorded (h : D.Change (Binding D) w a s s') (hw : w.settlement i = some s)
    (hs : s.Paired D) (hk : s.stellarTxHash = some k) : s'.stellarTxHash = some k := by
  have hi := Table.key_of_row? hw
  cases h
  case same | unlink => exact hk
  case transition t hc hd ha =>
    have hj := (t.applies_iff.mp ha).1
    exact recorded_of_sets (d := t.extraData) hd.sets (hc s (hj ▸ hi ▸ hw) ha) hs hk
  case update u hc hd ha =>
    cases u
    case refresh j d caller =>
      have hj := Write.refresh_applies_iff.mp ha
      exact recorded_of_sets hd (hc s (hj ▸ hi ▸ hw)) hs hk
    case writeStatus j k status d =>
      simp only [Settlement.patch_stellarTxHash, Write.data, hd.2.1, Option.getD_none]
      exact hk
    all_goals exact hk

theorem recorded_of_evolves
    (h : D.system.Evolves (D.Careful (Binding D) (World.Paired D)) w₁ w₂) (hw : w₁.WellFormed)
    (hs : ∃ s, w₁.settlement i = some s ∧ s.stellarTxHash = some k) :
    ∃ s, w₂.settlement i = some s ∧ s.stellarTxHash = some k :=
  Deps.kept_of_evolves h hw (fun _ _ s _ hp hs hc => hc.recorded hs (hp _ s hs)) hs

-- The outcome of a settlement is decided by an action on the basis of a hash.
def Act.Decides (D : Deps) (a : Act) (s : Settlement) (k : String) : Prop :=
  match a with
  | .transition t                   => t.applies s ∧
    (t.caller.recorded = some k ∨ ∃ b, t.caller.outcome D = some (k, b))
  | .update (.writeStatus id k' _ _) => s.id = id ∧ k' = some k
  | _                               => False

theorem envelopeHash_of_outcome {caller : Caller} (h : caller.outcome D = some (k, b))
    (hr : caller.recorded = none) (hc : caller.Current D s) : s.envelopeHash D = some k := by
  cases caller
  case reconciliation | confirmRoute => contradiction
  case job xdr reason =>
    cases xdr
    case none => simp [Caller.outcome] at h
    case some xdr =>
      cases reason <;> simp only [Caller.outcome, Option.some.injEq, Prod.mk.injEq,
        reduceCtorEq] at h
      all_goals exact h.1 ▸ hc rfl

section Run

variable {c : Config World Act Act.Res Failure}

theorem decides_current {n : Nat} (hw : w.WellFormed) (hp : w.Paired D)
    (r : D.system.Run (Binding D) ⟨w, []⟩ c) (hn : c.procs[n]? = some (.call a next))
    (hc : Binding D a c.shared) (hs : c.shared.settlement i = some s) (hk : a.Decides D s k) :
    s.envelopeHash D = some k := by
  have hp₁ := (Deps.moves_of_run hw .refl r).invariant hw (fun _ _ hw hp h => h.paired hw hp) hp
  have hd := Deps.due_of_run hw (Deps.careful_run hw (fun _ _ hw hp h => h.careless.paired hw hp) hp r).1 hn
  have hi := Table.key_of_row? hs
  have recorded : ∀ j k, j = s.id →
      D.Past (D.Careful (Binding D) (World.Paired D))
        (fun w => ∃ s, w.settlement j = some s ∧ s.stellarTxHash = some k) c.shared →
      s.envelopeHash D = some k := by
    rintro j k hj ⟨w₁, hw₁, hr, he⟩
    obtain ⟨s', hs', hk⟩ := recorded_of_evolves he hw₁ hr
    rw [hj, hi, hs] at hs'
    exact hp₁ i s hs k <| Option.some.inj hs' ▸ hk
  cases a
  case transition t =>
    obtain ⟨ha, hk⟩ := hk
    have hj := (t.applies_iff.mp ha).1
    rcases hk with hk | ⟨b, hk⟩
    case inl => exact recorded _ k hj.symm (hd.knows.recorded k hk)
    case inr =>
      cases hr : t.caller.recorded
      case none => exact envelopeHash_of_outcome hk hr (hc s (hj ▸ hi ▸ hs) ha)
      case some k' =>
        have hk' : k = k' := by
          revert hk hr
          cases t.caller
          case job => simp [Caller.recorded]
          case confirmRoute => simp_all [Caller.recorded, Caller.outcome]
          case reconciliation h reason => cases reason <;> simp_all [Caller.recorded, Caller.outcome]
        exact hk' ▸ recorded _ k' hj.symm (hd.knows.recorded k' hr)
  case update u =>
    cases u
    case writeStatus j k' status d =>
      obtain ⟨hj, hk⟩ := hk
      exact recorded j k hj.symm <| hk ▸ hd.2.2.2
    all_goals contradiction
  all_goals contradiction

-- In a run whose steps all meet the condition, a recorded hash always belongs to the stored envelope,
-- and no step decides the outcome of a settlement from the hash of another envelope.
theorem hash_binding (hw : w.WellFormed) (hp : w.Paired D)
    (r : D.system.Run (Binding D) ⟨w, []⟩ c) :
    (∀ i s k, c.shared.settlement i = some s → s.stellarTxHash = some k →
      ∃ xdr, s.transactionXdr = some xdr ∧ k = D.hashOf xdr) ∧
    ∀ (n : Nat) a next, c.procs[n]? = some (.call a next) → Binding D a c.shared →
      ∀ i s k, c.shared.settlement i = some s → a.Decides D s k →
        ∃ xdr, s.transactionXdr = some xdr ∧ k = D.hashOf xdr := by
  have envelope : ∀ {s : Settlement} {k}, s.envelopeHash D = some k →
      ∃ xdr, s.transactionXdr = some xdr ∧ k = D.hashOf xdr := by
    intro s k h
    have ⟨xdr, hx, hk⟩ := Option.map_eq_some_iff.mp h
    exact ⟨xdr, hx, hk.symm⟩
  have hp₁ := (Deps.moves_of_run hw .refl r).invariant hw (fun _ _ hw hp h => h.paired hw hp) hp
  constructor
  · exact fun i s k hs hk => envelope <| hp₁ i s hs k hk
  · exact fun n a next hn hc i s k hs hk => envelope <| decides_current hw hp r hn hc hs hk

-- In the sample, the worker confirms the settlement on the basis of the hash it has recorded.
theorem hash_binding_sample :
    ∃ c : Config World Act Act.Res Failure, ∃ s, c.shared.settlement "n" = some s ∧
      s.status = .verifying ∧ s.stellarTxHash = some "hash of x" ∧
      ∃ xdr, s.transactionXdr = some xdr ∧ "hash of x" = sampleDeps.hashOf xdr := by
  have ⟨c, r, h⟩ := System.exists_run_of_play (S := sampleDeps.system) (C := Binding sampleDeps)
    (c := ⟨sampleWorld, []⟩)
    (.flatten [
      settling 0 {} "AAAAAA" "n", signing 1 "n" "x" "k", submitting 2 (.applied true none),
      Label.acts 2 [.ok, .ok, .ok]
    ])
    (p := fun c => (c.shared.settlement "n").any fun s =>
      s.status = .verifying ∧ s.stellarTxHash = some "hash of x")
    (by decide +kernel)
  simp only [Option.any_eq_true, decide_eq_true_eq] at h
  have ⟨s, hs, hv, hk⟩ := h
  have hb := hash_binding sampleWorld_wellFormed (fun _ _ => nofun) r
  exact ⟨c, s, hs, hv, hk, hb.1 "n" s _ hs hk⟩

end Run

-- The settlement of the sample fails although its envelope `x` has been applied, and is signed again.
-- The hash of `x` stays next to the new envelope.
theorem hash_left_behind :
    ∃ c : Config World Act Act.Res Failure, ∃ s k xdr,
      sampleDeps.system.Run (fun _ _ => True) ⟨sampleWorld, []⟩ c ∧
      c.shared.settlement "n" = some s ∧ s.status = .submitted ∧
      s.stellarTxHash = some k ∧ s.transactionXdr = some xdr ∧ k ≠ sampleDeps.hashOf xdr := by
  have ⟨c, r, h⟩ := System.exists_run_of_play (S := sampleDeps.system) (C := fun _ _ => True)
    (c := ⟨sampleWorld, []⟩)
    (.flatten [
      settling 0 {} "AAAAAA" "n", signing 1 "n" "x" "k₁", submitting 2 (.applied true none), polling 2 .unseen,
      Label.acts 2 [.ok], misreading 3, signing 4 "n" "y" "k₂"
    ])
    (p := fun c => (c.shared.settlement "n").any fun s =>
      s.status = .submitted ∧ s.stellarTxHash = some "hash of x" ∧ s.transactionXdr = some "y")
    (by decide +kernel)
  simp only [Option.any_eq_true, decide_eq_true_eq] at h
  have ⟨s, hs, hp, hk, hx⟩ := h
  exact ⟨c, s, _, _, r, hs, hp, hk, hx, by decide +kernel⟩

end Mergepay
