import Mathlib.Logic.Relation
import Mergepay.Settlement.Adherence

namespace Mergepay

open Concurrency

-- What a single step of a run does to the world.
inductive Deps.Move (D : Deps) (C : Act → World → Prop) : World → World → Prop
  | idle : Move D C w w
  | env : D.env e w = some w' → Move D C w w'
  | act : C a w → D.Due C a w → Effect D w a w' → Move D C w w'

abbrev Deps.Moves (D : Deps) (C : Act → World → Prop) : World → World → Prop :=
  Relation.ReflTransGen (D.Move C)

variable {D : Deps} {C : Act → World → Prop} {w w₁ w₂ : World}

theorem Deps.Move.wellFormed (h : D.Move C w₁ w₂) (hw : w₁.WellFormed) : w₂.WellFormed := by
  cases h
  case idle      => exact hw
  case env h     => exact Deps.env_wellFormed h hw
  case act _ _ h => exact h.wellFormed hw

theorem Deps.Move.grows (h : D.Move C w₁ w₂) (hw : w₁.WellFormed) : w₁.Grows w₂ := by
  cases h
  case idle      => exact .refl _
  case env h     => exact Deps.env_grows h
  case act _ _ h => exact h.grows hw

-- What a program may have missed between two of its actions.
theorem Deps.grows_of_evolves (h : D.system.Evolves C w₁ w₂) (hw : w₁.WellFormed) :
    w₂.WellFormed ∧ w₁.Grows w₂ := by
  induction h
  case refl => exact ⟨hw, .refl _⟩
  case act hx hi =>
    have ⟨hw₂, hg⟩ := hi hw
    have he := Effect.of_exec hx
    exact ⟨he.wellFormed hw₂, hg.trans <| he.grows hw₂⟩
  case env hx hi =>
    have ⟨hw₂, hg⟩ := hi hw
    exact ⟨Deps.env_wellFormed hx hw₂, hg.trans <| Deps.env_grows hx⟩

-- A share and its expense are the same as before, if they still exist.
theorem World.Grows.owed (h : w₁.Grows w₂) (hw : w₁.WellFormed) (hi : i ∈ w₁.allocated)
    (hx : w₂.share i = some x) (he : w₂.expense x.expenseId = some e) :
    ∃ x₁, w₁.share i = some x₁ ∧ x₁.SameShare x ∧ w₁.expense x₁.expenseId = some e := by
  have ⟨x₁, hx₁, hs⟩ := h.share hi hx
  refine ⟨x₁, hx₁, hs, ?_⟩
  have ho := hw.owners x₁ (Table.mem_of_row? hx₁)
  exact h.expense (hw.allocated_of_expense ho) (hs.expenseId ▸ he)

-- What a linked settlement has been created for is still what was read back then.
theorem Deps.DueLinked.owed (hd : D.DueLinked C s o e share w₁) (hg : w₁.Grows w₂)
    (hx : w₂.share share.id = some x) (he : w₂.expense x.expenseId = some e') :
    share.SameShare x ∧ e' = e.toExpense := by
  have ⟨w₀, hw₀, hr, hev⟩ := hd.read
  have ⟨_, hg₀⟩ := Deps.grows_of_evolves hev hw₀
  have ⟨b, hb, hbe⟩ := Option.map_eq_some_iff.mp hr
  have hs : e.shares = w₀.sharesOf e.id := by rw [← hbe]
  have ⟨hm, hxe⟩ := List.mem_filter.mp <| hs ▸ hd.mem
  have hx₀ := hw₀.share_of_mem hm
  have ⟨x', hx', hsame, he'⟩ :=
    (hg₀.trans hg).owed hw₀ (hw₀.allocated_of_share (by simp [hx₀])) hx he
  have hxx := Option.some.inj <| hx₀.symm.trans hx'
  subst hxx
  have hxe : share.expenseId = e.id := by simpa using hxe
  rw [hxe, hb] at he'
  refine ⟨hsame, ?_⟩
  rw [← hbe]
  exact (Option.some.inj he').symm

-- A share that still exists is still linked to what it was once linked to.
theorem linked_of_past (h : D.Linked C j i w) (hi : (w.share i).isSome) :
    ∃ s, w.settlement j = some s ∧ s.expenseShareId = some i := by
  have ⟨w₀, hw₀, ⟨s₀, hs₀, hl⟩, he⟩ := h
  have ⟨_, hg⟩ := Deps.grows_of_evolves he hw₀
  have ⟨s, hs, hc⟩ := hg.settlement hs₀
  refine ⟨s, hs, ?_⟩
  rcases hc.link with h | ⟨_, h⟩
  case inl => exact h.trans hl
  case inr =>
    have ha := hw₀.allocated_of_share <| hw₀.links s₀ (Table.mem_of_row? hs₀) i hl
    simp [h i hl ha] at hi

-- The surroundings never touch the tables of expenses and settlements.
structure World.SameTables (w w' : World) : Prop where
  settlements : w'.settlements = w.settlements
  shares      : w'.shares = w.shares
  expenses    : w'.expenses = w.expenses
  allocated   : w'.allocated = w.allocated

theorem Deps.env_sameTables (h : D.env e w₁ = some w₂) : w₁.SameTables w₂ := by
  cases e <;> simp only [Deps.env] at h
  case tick =>
    split at h
    case isTrue  => exact Option.some.inj h ▸ ⟨rfl, rfl, rfl, rfl⟩
    case isFalse => contradiction
  case join  => exact Option.some.inj h ▸ ⟨rfl, rfl, rfl, rfl⟩
  case leave => exact Option.some.inj h ▸ ⟨rfl, rfl, rfl, rfl⟩
  case apply =>
    split at h
    case isTrue  => contradiction
    case isFalse => exact Option.some.inj h ▸ ⟨rfl, rfl, rfl, rfl⟩

namespace Deps.Moves

theorem wellFormed (h : D.Moves C w₁ w₂) (hw : w₁.WellFormed) : w₂.WellFormed := by
  induction h
  case refl          => exact hw
  case tail _ hm hi => exact hm.wellFormed hi

theorem grows (h : D.Moves C w₁ w₂) (hw : w₁.WellFormed) : w₁.Grows w₂ := by
  induction h
  case refl          => exact .refl _
  case tail h hm hi => exact hi.trans <| hm.grows <| wellFormed h hw

-- Whatever every move preserves is preserved by all of them.
theorem invariant {J : World → Prop} (h : D.Moves C w₁ w₂) (hw : w₁.WellFormed)
    (hm : ∀ w w', w.WellFormed → J w → D.Move C w w' → J w') (hj : J w₁) : J w₂ := by
  induction h
  case refl            => exact hj
  case tail h hm' hi => exact hm _ _ (wellFormed h hw) hi hm'

end Deps.Moves

-- All that an action may do to a settlement.
inductive Deps.Change (D : Deps) (C : Act → World → Prop) (w : World) :
    Act → Settlement → Settlement → Prop
  | same : Change D C w a s s
  | unlink : Change D C w (.deleteExpense e) s s.unlink
  | transition : C (.transition t) w → D.DueTransition C t w → t.applies s →
    Change D C w (.transition t) s (s.patch t.data w.now)
  | update : C (.update u) w → D.Due C (.update u) w → u.applies s →
    Change D C w (.update u) s (s.patch u.data w.now)

inductive Deps.Created (D : Deps) (C : Act → World → Prop) (w : World) : Settlement → Prop
  | linked : C (.createLinked s o) w → D.DueLinked C s o e share w → (w.share share.id).isSome →
    ¬w.Duplicates s → Created D C w (w.newSettlement s n)
  | freeform : C (.createFreeform s reads) w → D.DueFreeform C s reads w → ¬w.Duplicates s →
    Created D C w (w.newSettlement s n)

theorem Deps.Created.unsigned (h : D.Created C w s) : s.Unsigned := by
  cases h with
  | linked _ hd _ _ => exact ⟨hd.unsigned.status, hd.unsigned.stellarTxHash, hd.unsigned.transactionXdr⟩
  | freeform _ hd _ => exact ⟨hd.unsigned.status, hd.unsigned.stellarTxHash, hd.unsigned.transactionXdr⟩

theorem Deps.Change.link (h : D.Change C w a s s') (hk : s'.expenseShareId = some k) :
    s.expenseShareId = some k := by
  cases h
  case unlink => contradiction
  all_goals exact hk

-- The unguarded updates of the status column do not take back a confirmation.
def KeepsConfirmed : Act → World → Prop
  | .update (.writeStatus i _ .failed _), w => ∀ s ∈ w.settlement i, s.status ≠ .confirmed
  | .update (.keepPending i _ true), w      => ∀ s ∈ w.settlement i, s.status ≠ .confirmed
  | _, _                                    => True

instance : (a : Act) → (w : World) → Decidable (KeepsConfirmed a w) := by
  unfold KeepsConfirmed
  intro a w
  split <;> infer_instance

theorem Deps.Change.stays_confirmed (h : D.Change C w a s s')
    (hk : C a w → KeepsConfirmed a w) (hw : w.settlement i = some s) (hc : s.status = .confirmed) :
    s'.status = .confirmed := by
  have hi := Table.key_of_row? hw
  cases h
  case same | unlink => exact hc
  case transition t _ _ ha =>
    have ht := SettlementStatus.allowedFromStatuses_edge (t.applies_iff.mp ha).2
    exact absurd hc ht.not_terminal.1
  case update u hm hd ha =>
    cases u
    case sign =>
      rcases (Write.sign_applies_iff.mp ha).2 with h | h <;> simp [h] at hc
    case keepPending j n inReview =>
      have hj := Write.keepPending_applies_iff.mp ha
      cases inReview
      case false => exact hc
      case true  => exact absurd hc (hk hm s (hj ▸ hi ▸ hw))
    case writeStatus j k status d =>
      have hj := Write.writeStatus_applies_iff.mp ha
      rcases hd.1 with rfl | rfl
      case inl => rfl
      case inr => exact absurd hc (hk hm s (hj ▸ hi ▸ hw))
    case expireIntent => simp [(Write.expireIntent_applies_iff.mp ha).2] at hc
    case refresh =>
      simp only [Settlement.patch_status, Write.data, hd.status, Option.getD_none]
      exact hc
    all_goals exact hc

namespace Deps.Move

-- All rows of the settlement table are accounted for by one and the same action.
theorem changes (h : D.Move C w₁ w₂) (hw : w₁.WellFormed) : ∃ a, ∀ i s', w₂.settlement i = some s' →
    (∃ s, w₁.settlement i = some s ∧ D.Change C w₁ a s s') ∨
    (w₁.settlement i = none ∧ D.Created C w₁ s') := by
  have same : ∀ {a} i s', w₁.settlement i = some s' →
      (∃ s, w₁.settlement i = some s ∧ D.Change C w₁ a s s') ∨
      (w₁.settlement i = none ∧ D.Created C w₁ s') :=
    fun _ s' h => .inl ⟨s', h, .same⟩
  cases h
  case idle => exact ⟨.clock, same⟩
  case env h =>
    have ht := Deps.env_sameTables h
    refine ⟨.clock, fun i s' hs => same i s' ?_⟩
    rwa [World.settlement, ht.settlements] at hs
  case act a hc hd h =>
    refine ⟨a, fun i s' hs => ?_⟩
    cases h
    case none | allocate | createExpense | settleShare | submit => exact same i s' hs
    case deleteExpense =>
      rw [World.settlement_removeExpense] at hs
      obtain ⟨s, hs, h⟩ := Option.map_eq_some_iff.mp hs
      refine .inl ⟨s, hs, ?_⟩
      subst h
      split
      case isTrue  => exact .unlink
      case isFalse => exact .same
    case createLinked hf hi hx hn =>
      obtain ⟨e, share, hd⟩ := hd
      have hj := Option.some.inj <| hd.link.symm.trans hi
      rw [World.settlement_allocate, World.settlement_setShareStatus,
        hw.settlement_insertSettlement hf] at hs
      split at hs
      case isFalse => exact same i s' hs
      case isTrue hin =>
        have hn' := hw.settlement_fresh hf List.mem_cons_self
        exact .inr ⟨hin ▸ hn', Option.some.inj hs ▸ .linked hc hd (hj ▸ hx) hn⟩
    case createFreeform hf _ hn =>
      rw [World.settlement_allocate, hw.settlement_insertSettlement hf] at hs
      split at hs
      case isFalse => exact same i s' hs
      case isTrue hin =>
        have hn' := hw.settlement_fresh hf List.mem_cons_self
        exact .inr ⟨hin ▸ hn', Option.some.inj hs ▸ .freeform hc hd hn⟩
    case transition | settle =>
      try rw [World.settlement_setShareStatus] at hs
      rw [World.settlement_patchSettlements] at hs
      obtain ⟨s, hs, h⟩ := Option.map_eq_some_iff.mp hs
      refine .inl ⟨s, hs, ?_⟩
      subst h
      split
      case isTrue ha => exact .transition hc hd ha
      case isFalse   => exact .same
    case update =>
      rw [World.settlement_patchSettlements] at hs
      obtain ⟨s, hs, h⟩ := Option.map_eq_some_iff.mp hs
      refine .inl ⟨s, hs, ?_⟩
      subst h
      split
      case isTrue ha => exact .update hc hd ha
      case isFalse   => exact .same

theorem settlement_cases (h : D.Move C w₁ w₂) (hw : w₁.WellFormed) (hs : w₂.settlement i = some s') :
    (∃ a s, w₁.settlement i = some s ∧ D.Change C w₁ a s s') ∨
    (w₁.settlement i = none ∧ D.Created C w₁ s') := by
  have ⟨a, h⟩ := h.changes hw
  exact (h i s' hs).imp_left fun ⟨s, h⟩ => ⟨a, s, h⟩

theorem change (h : D.Move C w₁ w₂) (hw : w₁.WellFormed) (hs : w₁.settlement i = some s) :
    ∃ a s', w₂.settlement i = some s' ∧ D.Change C w₁ a s s' := by
  have ⟨s', hs', _⟩ := (h.grows hw).settlement hs
  rcases h.settlement_cases hw hs' with ⟨a, s₁, hs₁, hc⟩ | ⟨hn, _⟩
  case inl => exact ⟨a, s', hs', Option.some.inj (hs₁.symm.trans hs) ▸ hc⟩
  case inr => exact absurd hs (by simp [hn])

-- How a share can be settled.
theorem settled_cases (h : D.Move C w₁ w₂) (hw : w₁.WellFormed) (hx : w₂.share i = some x')
    (hs : x'.status = .settled) :
    (∃ x, w₁.share i = some x ∧ x.status = .settled) ∨
    (∃ t, C (.transition t) w₁ ∧ D.DueTransition C t w₁ ∧ t.settledShare = some i ∧
      (w₁.share i).isSome ∧ w₁.settlements.any t.applies ∧
      w₂ = (w₁.patchSettlements t.applies t.data).setShareStatus i .settled) ∨
    (C (.settleShare i) w₁ ∧ D.Due C (.settleShare i) w₁ ∧ (w₁.share i).isSome ∧
      w₂ = w₁.setShareStatus i .settled) ∨
    (∀ e, w₂.expense x'.expenseId = some e → x'.userId = e.payerUserId) := by
  have same : w₁.share i = some x' → ∃ x, w₁.share i = some x ∧ x.status = .settled :=
    fun h => ⟨x', h, hs⟩
  -- An update of the status of share `j` either concerns `i` or leaves it as it is.
  have set : ∀ {j} {w : World}, w.share i = w₁.share i →
      (w.setShareStatus j .settled).share i = some x' →
      (∃ x, w₁.share i = some x ∧ x.status = .settled) ∨ j = i ∧ (w₁.share i).isSome := by
    intro j w hw hx
    rw [World.share_setShareStatus, hw] at hx
    obtain ⟨x, hx₁, h⟩ := Option.map_eq_some_iff.mp hx
    by_cases hj : x.id = j
    case pos => exact .inr ⟨hj ▸ Table.key_of_row? hx₁, by simp [hx₁]⟩
    case neg =>
      rw [if_neg hj] at h
      exact .inl ⟨x, hx₁, h ▸ hs⟩
  cases h
  case idle => exact .inl <| same hx
  case env h =>
    have ht := Deps.env_sameTables h
    exact .inl <| same <| by rwa [World.share, ht.shares] at hx
  case act hc hd h =>
    cases h
    case none | allocate | createFreeform | transition | update | submit => exact .inl <| same hx
    case createExpense n e l ids hf hl =>
      rcases List.mem_append.mp (Table.mem_of_row? hx) with hm | hm
      case inl => exact .inl <| same <| Table.key_of_row? hx ▸ hw.share_of_mem hm
      case inr =>
        obtain ⟨he, hp⟩ := World.WellFormed.of_mem_newShares hm
        refine .inr <| .inr <| .inr fun e' he' => ?_
        rw [he] at he'
        have hn := hw.expense_fresh hf List.mem_cons_self
        have hi := World.expense_insertExpense_self (e := e) (l := l) (k := ids) hn
        have he' := Option.some.inj <| hi.symm.trans he'
        exact he' ▸ hp hs
    case deleteExpense =>
      refine .inl <| same ?_
      exact Table.key_of_row? hx ▸ hw.share_of_mem (List.mem_of_mem_filter <| Table.mem_of_row? hx)
    case createLinked hf hi' hx' _ =>
      rw [World.share_allocate, World.share_setShareStatus, World.share_insertSettlement] at hx
      obtain ⟨x, hx₁, h⟩ := Option.map_eq_some_iff.mp hx
      refine .inl ⟨x, hx₁, ?_⟩
      subst h
      split at hs
      case isTrue  => contradiction
      case isFalse => exact hs
    case settle hi' hx' ha =>
      rcases set World.share_patchSettlements hx with h | ⟨rfl, h⟩
      case inl => exact .inl h
      case inr => exact .inr <| .inl ⟨_, hc, hd, hi', h, ha, rfl⟩
    case settleShare =>
      rcases set rfl hx with h | ⟨rfl, h⟩
      case inl => exact .inl h
      case inr => exact .inr <| .inr <| .inl ⟨hc, hd, h, rfl⟩

end Deps.Move

section Run

variable {c c₁ c₂ : Config World Act Act.Res Failure}

-- All that happens to the world in a run are moves.
theorem Deps.move_of_next (hw : w.WellFormed) (r : D.system.Run C ⟨w, []⟩ c₁) (m : c₁.Meets C l)
    (hn : D.system.next l c₁ = some c₂) : D.Move C c₁.shared c₂.shared := by
  have h := (Protocol.Holds.init (P := D.protocol C) hw).run (D.entry_sound C) r
  rcases h.next_cases m hn with hn | ⟨e, hn⟩ | ⟨a, x, r, hc, hd, hn⟩
  · exact hn ▸ .idle
  · exact .env hn
  · exact .act hc hd (Effect.of_exec hn)

theorem Deps.moves_of_run (hw : w.WellFormed) (r : D.system.Run C ⟨w, []⟩ c₁)
    (r' : D.system.Run C c₁ c₂) : D.Moves C c₁.shared c₂.shared := by
  induction r'
  case refl           => exact .refl
  case step r' m hn hi => exact hi.tail <| move_of_next hw (r.trans r') m hn

-- In particular, all actions of a run are due, and an invariant holds whenever one is performed. What
-- is known from the past in such a run is known from states that satisfy the invariant.
abbrev Deps.Careful (D : Deps) (C : Act → World → Prop) (J : World → Prop) (a : Act) (w : World) :
    Prop :=
  C a w ∧ D.Due C a w ∧ J w

theorem Deps.Move.careless {J : World → Prop} (h : D.Move (D.Careful C J) w₁ w₂) : D.Move C w₁ w₂ := by
  cases h
  case idle        => exact .idle
  case env h       => exact .env h
  case act hc _ h => exact .act hc.1 hc.2.1 h

-- The invariant may be shown by means of what holds of the past of such a run.
theorem Deps.careful_run {J : World → Prop} (hw : w.WellFormed)
    (hm : ∀ w w', w.WellFormed → J w → D.Move (D.Careful C J) w w' → J w') (hj : J w)
    (r : D.system.Run C ⟨w, []⟩ c) : D.system.Run (D.Careful C J) ⟨w, []⟩ c ∧ J c.shared := by
  induction r
  case refl => exact ⟨.refl, hj⟩
  case step r m hn hi =>
    have ⟨r', hj⟩ := hi
    have h := (Protocol.Holds.init (P := D.protocol C) hw).run (D.entry_sound C) r
    have m' := h.meets m hj
    refine ⟨r'.step m' hn, hm _ _ h.inv hj <| move_of_next hw r' m' hn⟩

theorem Deps.of_evolves {J : World → Prop} (h : D.system.Evolves (D.Careful C J) w₁ w₂) (hj : J w₂)
    (he : ∀ w w', w.SameTables w' → J w' → J w) : J w₁ := by
  induction h
  case refl          => exact hj
  case act hc _ hi => exact hi hc.2.2
  case env hx hi    => exact hi <| he _ _ (Deps.env_sameTables hx) hj

-- What every change of a settlement preserves is still true of it.
theorem Deps.kept_of_evolves {J : World → Prop} {P : Settlement → Prop}
    (h : D.system.Evolves (D.Careful C J) w₁ w₂) (hw : w₁.WellFormed)
    (hP : ∀ w a s s', J w → w.settlement i = some s → D.Change C w a s s' → P s → P s')
    (hs : ∃ s, w₁.settlement i = some s ∧ P s) : ∃ s, w₂.settlement i = some s ∧ P s := by
  induction h
  case refl => exact hs
  case act he hc hx hi =>
    obtain ⟨hw₂, _⟩ := Deps.grows_of_evolves he hw
    obtain ⟨s, hs, hp⟩ := hi hw hs
    have hm : D.Move C _ _ := .act hc.1 hc.2.1 (Effect.of_exec hx)
    obtain ⟨_, s', hs', hch⟩ := hm.change hw₂ hs
    exact ⟨s', hs', hP _ _ s s' hc.2.2 hs hch hp⟩
  case env hx hi =>
    obtain ⟨s, hs, hp⟩ := hi hw hs
    have ht := Deps.env_sameTables hx
    exact ⟨s, by rwa [World.settlement, ht.settlements], hp⟩

theorem Deps.due_of_run {n : Nat} (hw : w.WellFormed) (r : D.system.Run C ⟨w, []⟩ c)
    (hp : c.procs[n]? = some (.call a k)) : D.Due C a c.shared := by
  have h := (Protocol.Holds.init (P := D.protocol C) hw).run (D.entry_sound C) r
  exact ((h.safe _ <| List.mem_of_getElem? hp).call h.inv).1

theorem Deps.wellFormed_of_run (hw : w.WellFormed) (r : D.system.Run C ⟨w, []⟩ c) :
    c.shared.WellFormed :=
  (moves_of_run hw .refl r).wellFormed hw

end Run

-- A small instance: ann has paid two lumens for bob. Envelopes are plain texts, which all contain the
-- payment that settles this debt.
section Sample

def sampleDeps : Deps := {
  stableAssetIssuer         := "GUSD"
  stellarNetwork            := .publicNet
  isValidEd25519PublicKey   := fun key => key = "GUSD"
  hashOf                    := fun xdr => "hash of " ++ xdr
  recordOf                  := fun _ => {
    memoType   := some "text"
    memo       := some "MP:AAAAAA"
    operations := [{
      destination := "GANN"
      amount      := "2.0000000"
      assetType   := "native"
      assetCode   := none
      assetIssuer := none
    }]
  }
  validateSignedXdr         := fun _ _ _ _ _ => .ok ()
  safeFailureMessage        := Failure.message
  classifySettlementFailure := fun _ => .internal
  settlementMaxAttempts     := 3
  confirmPollMaxAttempts    := 1
  workerBatchSize           := 10
  workerLeaseTimeoutMs      := 300000
  pendingSettlementMaxAgeMs := 600000
  reconciliationIntervalMs  := 60000
  reconciliationTimeoutMs   := 600000
  confirmationThreshold     := 1
}

def sampleWorld : World := {
  users     := [⟨"ann", "GANN"⟩, ⟨"bob", "GBOB"⟩]
  groups    := [⟨"g", false⟩]
  members   := [⟨"g", "ann", "member"⟩, ⟨"g", "bob", "member"⟩]
  expenses  := [⟨"e", "g", "ann", "XLM", none, 0⟩]
  shares    := [⟨"i", "e", "bob", 20000000, .pending⟩]
  allocated := ["e", "i"]
}

def sampleAccount : AccountSnapshot :=
  ⟨true, [("XLM", none, "100.0000000"), ("USDC", some "GUSD", "100.0000000")], 1⟩

theorem sampleWorld_wellFormed : sampleWorld.WellFormed := by
  refine ⟨by decide, by decide, by decide, by decide, ?_, by simp [sampleWorld], by decide +kernel⟩
  simp [sampleWorld]

abbrev Schedule := List (Label Choice Event Entry)

-- Schedules in which process `n` is started and runs without interruption. Bob creates a settlement
-- `id` for his share.
def settling (n : Nat) (body : SettleExpenseBody) (code id : String) : Schedule :=
  .spawn (.settleExpense "bob" "e" body none) :: Label.acts n
    [.ok, .ok, .ok, .ok, .ok, .texts [code], .ok, .ok, .account sampleAccount, .texts [id]]

-- Bob creates a settlement `id` for what he owes to ann. The first part only reads.
def checking (n : Nat) (amount : String) : Schedule :=
  .spawn (.settleGroup "bob" "g" { toUserId := "ann", amount, assetCode := "XLM" } none) ::
    Label.acts n [.ok, .ok, .ok, .ok, .ok]

def inserting (n : Nat) (code id : String) : Schedule :=
  Label.acts n [.texts [code], .ok, .ok, .account sampleAccount, .texts [id]]

-- Bob signs it.
def signing (n : Nat) (id xdr key : String) : Schedule :=
  .spawn (.confirm "bob" id xdr key) :: Label.acts n
    [.ok, .ok, .ok, .ok, .ok, .ok, .reserved true, .ok, .ok, .ok]

-- A worker picks up the only submittable settlement, and the ledger answers its submission with `x`.
def submitting (n : Nat) (x : Choice) : Schedule :=
  .spawn (.processSubmittedSettlements "worker") :: Label.acts n (.flatten [
    [.ok, .ok, .ok, .ok], [.ok, .ok, .account sampleAccount], [.ok, .ok, .ok], [.ok, .ok], [.ok, .ok, .ok, x]
  ])

-- A worker picks up a settlement that is being verified, and submits an envelope that has been applied.
def resubmitting (n : Nat) : Schedule :=
  .spawn (.processSubmittedSettlements "other worker") :: Label.acts n (.flatten [
    [.ok, .ok, .ok, .ok], [.ok, .ok, .account sampleAccount], [.ok, .ok], [.ok, .ok, .ok, .ok]
  ])

-- Having recorded the hash, it polls the ledger once and moves the settlement according to the answer.
def polling (n : Nat) (x : Choice) : Schedule :=
  Label.acts n [.ok, .ok, x, .ok, .ok, .ok]

-- Reconciliation picks up a settlement in review, and finds its transaction on the ledger. But the
-- details of the transaction cannot be read, which is taken for a failed verification.
def misreading (n : Nat) : Schedule :=
  .spawn (.reconcilePendingSettlements "worker") :: Label.acts n
    [.ok, .ok, .ok, .ok, .ok, .fails (.provider .unavailable "Horizon request failed"), .ok, .ok, .ok]

end Sample

end Mergepay
