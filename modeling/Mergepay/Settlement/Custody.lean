import Mergepay.Settlement.Protocol
import Mergepay.Settlement.Retries

namespace Mergepay

open Concurrency Chronicle Write

-- The worker on whose behalf a job claims settlements.
def Entry.worker : Entry → Option String
  | .processSubmittedSettlements k | .reconcilePendingSettlements k | .syncStaleVerifyingSettlements k => some k
  | _ => none

namespace Write

-- The settlement that is claimed, or whose lease is renewed, and the end of the lease.
def lease : Write → Option (String × Time)
  | claimSettlement i _ _ _ d | claimPendingConfirmation i _ _ _ d | claimSettlementForSync i _ _ _ d
  | recordAttemptStarted i _ d | scheduleRetry i _ _ _ _ d => some (i, d)
  | _ => none

def claims : Write → Bool
  | claimSettlement .. | claimPendingConfirmation .. | claimSettlementForSync .. => true
  | _ => false

end Write

-- The settlement that an action writes to on the strength of a claim, or whose envelope it submits.
def Act.concerns : Act → Option String
  | .submit i _   => some i
  | .transition t => some t.settlementId
  | .update (.recordAttemptStarted i _ _) | .update (.scheduleRetry i _ _ _ _ _) | .update (.refresh i _ _)
  | .update (.keepPending i _ _) | .update (.writeStatus i _ _ _) => some i
  | _ => none

-- The machine's shortcut finds the settlement in the status that it is about.
def Act.Agrees : Act → World → Prop
  | .update (.refresh i _ caller), w => ∀ r ∈ w.settlement i, r.status = caller.nextStatus
  | _, _                             => True

-- What is claimed for the synchronization is still as stale as it was when it was selected.
def Act.Stale : Act → World → Prop
  | .update (.claimSettlementForSync i _ _ now _), w => ∀ r ∈ w.settlement i, r.updatedAt < now - statusSyncMinAgeMs
  | _, _                                             => True

instance : (a : Act) → (w : World) → Decidable (a.Agrees w) := by
  unfold Act.Agrees
  intro a w
  split <;> infer_instance

instance : (a : Act) → (w : World) → Decidable (a.Stale w) := by
  unfold Act.Stale
  intro a w
  split <;> infer_instance

-- Who is in charge of which settlement.
structure Custody where
  -- The worker whose claim was the last one to take effect.
  holder   : String → Option String := fun _ => none
  -- The end of the lease that a worker has written last for a settlement.
  deadline : String → String → Option Time := fun _ _ => none
  -- What workers have done for settlements that somebody else had claimed since they did.
  strays   : List (String × String) := []

namespace Custody

variable (g : Custody) (k : String)

def note (a : Act) : Custody :=
  match a.concerns with
  | none   => g
  | some i => if g.holder i = some k then g else { g with strays := (k, i) :: g.strays }

def lease (u : Write) : Custody :=
  match u.lease with
  | none        => g
  | some (i, d) => { g with
      holder   := if u.claims then Function.update g.holder i (some k) else g.holder
      deadline := Function.update g.deadline k (Function.update (g.deadline k) i (some d))
    }

def record (e : Entry) (a : Act) (x : Choice) (w : World) : Custody :=
  match e.worker with
  | none   => g
  | some k => match a with
    | .update u => if x.takesEffect ∧ w.settlements.any u.applies then (g.note k a).lease k u else g.note k a
    | a         => g.note k a

-- The lease that the worker has written last has not ended.
def InTime (i : String) (now : Time) : Prop :=
  ∃ d ∈ g.deadline k i, now < d

instance : Decidable (g.InTime k i now) :=
  inferInstanceAs (Decidable (∃ d ∈ _, _))

-- A worker acts on its claims in time.
def Timely (e : Entry) (a : Act) (w : World) : Prop :=
  match e.worker with
  | none   => a.Agrees w
  | some k => (∀ i ∈ a.concerns, g.InTime k i w.now) ∧ a.Stale w

instance (e : Entry) (a : Act) (w : World) : Decidable (g.Timely e a w) := by
  unfold Timely
  split <;> infer_instance

end Custody

-- All entry points, where the jobs of a single worker follow each other.
def Deps.workers (D : Deps) : Chronicle D.system Custody where
  record  := fun e a x w g => g.record e a x w
  permits := fun _ _ _ _ => True
  starts  := fun _ => True
  rival   := fun e e' => e.worker ≠ none ∧ e.worker = e'.worker
  symm    := fun _ _ h => ⟨h.2 ▸ h.1, h.2.symm⟩

def Deps.timely (D : Deps) : Chronicle D.system Custody :=
  { D.workers with permits := fun e a w g => g.Timely e a w }

-- A settlement that is under the lease of a worker, with at most `m` attempts.
structure Settlement.Entrusted (k : String) (d : Time) (m : Nat) (s : Settlement) : Prop where
  claimedBy      : s.claimedBy = some k
  leaseExpiresAt : s.leaseExpiresAt = some d
  retryCount     : s.status ∈ submittableStatuses → s.retryCount ≤ m

-- As long as its lease lasts, the settlement is in the hands of the worker.
def InCharge (k i : String) (m : Nat) (s : World × Custody) : Prop :=
  ∀ d ∈ s.2.deadline k i, s.1.now < d →
    s.2.holder i = some k ∧ ∃ r, s.1.settlement i = some r ∧ r.Entrusted k d m

-- The attempts that are recorded for a settlement do not get fewer while it is submitted.
def World.Ascends (w w' : World) : Prop :=
  ∀ i r r', w.settlement i = some r → w'.settlement i = some r' →
    r.status ∈ submittableStatuses → r'.status ∈ submittableStatuses → r.retryCount ≤ r'.retryCount

-- A settlement whose retry count has changed carries the time of the change.
structure World.Dates (w w' : World) : Prop where
  now         : w.now ≤ w'.now
  settlements : ∀ i r', w'.settlement i = some r' → w.now ≤ r'.updatedAt ∨
    ∃ r, w.settlement i = some r ∧ r'.updatedAt = r.updatedAt ∧ r'.retryCount = r.retryCount

-- What a worker had in its hands is still there.
def Spares (k : String) (s s' : World × Custody) : Prop :=
  ∀ i m, InCharge k i m s → InCharge k i m s'

theorem settlement_of_env {D : Deps} {w w' : World} {v : Event} (h : D.env v w = some w') (i : String) :
    w'.settlement i = w.settlement i := by
  cases v <;> simp only [Deps.env] at h
  case tick | apply =>
    split at h <;> cases h
    rfl
  case join | leave => cases h; rfl

def Deps.custody (D : Deps) : D.timely.Contract where
  inv  := fun s => s.1.WellFormed ∧ s.2.strays = []
  rely := fun e s s' => s.1.Dates s'.1 ∧ ∀ k ∈ e.worker, Spares k s s'
  guar := fun e s s' => s.1.Dates s'.1 ∧ (∀ k ∉ e.worker, Spares k s s') ∧ s.1.Ascends s'.1
  fits := fun {i j s s'} hr ⟨hd, hg, _⟩ => ⟨hd, fun k hk => hg k fun hk' => hr ⟨by simp_all, by simp_all⟩⟩
  env := fun {e s t} ⟨hw, hs⟩ he => by
    refine ⟨⟨env_wellFormed he hw, hs⟩, fun j => ?_⟩
    have hn : s.1.now ≤ t.now := (env_grows he).now
    have hr := settlement_of_env he
    refine ⟨⟨hn, fun i r hs => .inr ⟨r, hr i ▸ hs, rfl, rfl⟩⟩, fun k _ i m h d hd ht => ?_⟩
    rw [hr]
    exact h d hd (hn.trans_lt ht)

-- What somebody without a claim does to a settlement. If it is submitted again, then nothing has been attempted yet.
structure Settlement.Steady (s s' : Settlement) : Prop where
  claimedBy      : s'.claimedBy = s.claimedBy
  leaseExpiresAt : s'.leaseExpiresAt = s.leaseExpiresAt
  retryCount     : s'.status ∈ submittableStatuses →
    s.status ∈ submittableStatuses ∧ s'.retryCount = s.retryCount ∨
      s.status ∉ submittableStatuses ∧ s'.retryCount = 0

def World.Steady (w w' : World) : Prop :=
  ∀ i s, w.settlement i = some s → ∃ s', w'.settlement i = some s' ∧ s.Steady s'

section Steps

variable {D : Deps} {e : Entry} {a : Act} {x : Choice} {w w' : World} {g g' : Custody} {k i : String} {m m' : Nat}
  {r s s' : Settlement} {d : Time}

theorem Settlement.Steady.refl (s : Settlement) : s.Steady s where
  claimedBy      := rfl
  leaseExpiresAt := rfl
  retryCount     := fun h => .inl ⟨h, rfl⟩

theorem Settlement.Entrusted.steady (h : s.Entrusted k d m) (hs : s.Steady s') : s'.Entrusted k d m where
  claimedBy      := hs.claimedBy.trans h.claimedBy
  leaseExpiresAt := hs.leaseExpiresAt.trans h.leaseExpiresAt
  retryCount     := fun hst => by
    rcases hs.retryCount hst with ⟨hst, hr⟩ | ⟨_, hr⟩
    case inl => exact hr ▸ h.retryCount hst
    case inr => exact hr ▸ Nat.zero_le m

namespace World.Steady

theorem refl (w : World) : w.Steady w :=
  fun _ s hs => ⟨s, hs, .refl s⟩

theorem of_eq (h : ∀ i, w'.settlement i = w.settlement i) : w.Steady w' :=
  fun i s hs => ⟨s, (h i).trans hs, .refl s⟩

theorem of_map {f : Settlement → Settlement} (h : ∀ i, w'.settlement i = (w.settlement i).map f)
    (hf : ∀ s ∈ w.settlements, s.Steady (f s)) : w.Steady w' :=
  fun i s hs => ⟨f s, by rw [h, hs, Option.map_some], hf s (Table.mem_of_row? hs)⟩

theorem ascends (h : w.Steady w') : w.Ascends w' := by
  intro i s s' hs hs' hst hst'
  have ⟨t, ht, hr⟩ := h i s hs
  cases ht.symm.trans hs'
  rcases hr.retryCount hst' with ⟨_, hr⟩ | ⟨hn, _⟩
  case inl => exact Nat.le_of_eq hr.symm
  case inr => exact (hn hst).elim

-- Only the settlements that an update applies to matter.
theorem patch {p : Settlement → Bool} {d : Patch} (hu : d.Unleased)
    (h : ∀ s ∈ w.settlements, p s = true → (s.patch d w.now).status ∈ submittableStatuses →
      s.status ∈ submittableStatuses ∧ d.retryCount = none ∨ s.status ∉ submittableStatuses ∧ d.retryCount = some 0) :
    w.Steady (w.patchSettlements p d) := by
  refine .of_map (World.settlement_patchSettlements p d) fun s hs => ?_
  split
  case isFalse => exact .refl s
  case isTrue ha =>
    refine ⟨by simp [Settlement.patch, hu.claimedBy], by simp [Settlement.patch, hu.leaseExpiresAt], fun hst => ?_⟩
    exact (h s hs ha hst).imp (fun h => ⟨h.1, by simp [Settlement.patch, h.2]⟩)
      fun h => ⟨h.1, by simp [Settlement.patch, h.2]⟩

end World.Steady

-- Neither a signature nor any other request without a claim disturbs those who have one.
theorem steady_of_not_reserved (hw : w.WellFormed) (ha : ¬a.Reserved) (he : Effect D w a w') : w.Steady w' := by
  cases he with
  | none => exact .refl w
  | allocate | createExpense | settleShare => exact .of_eq fun _ => rfl
  | transition | settle | submit => exact (ha trivial).elim
  | deleteExpense =>
    refine .of_map (World.settlement_removeExpense _) fun s _ => ?_
    split
    · exact ⟨rfl, rfl, fun h => .inl ⟨h, rfl⟩⟩
    · exact .refl s
  | createLinked hf =>
    intro i s hs
    refine ⟨s, (hw.settlement_insertSettlement hf _ i).trans ?_, .refl s⟩
    rw [if_neg, hs]
    rintro rfl
    cases (hw.settlement_fresh hf List.mem_cons_self).symm.trans hs
  | createFreeform hf =>
    intro i s hs
    refine ⟨s, (hw.settlement_insertSettlement hf _ i).trans ?_, .refl s⟩
    rw [if_neg, hs]
    rintro rfl
    cases (hw.settlement_fresh hf List.mem_cons_self).symm.trans hs
  | @update u =>
    cases u with
    | sign i xdr now b =>
      refine .patch ⟨rfl, rfl⟩ fun s _ h _ => .inr ⟨fun hn => ?_, rfl⟩
      rcases (Write.sign_applies_iff.mp h).2 with h | h <;> simp [h, submittableStatuses] at hn
    | expireIntent i => exact .patch ⟨rfl, rfl⟩ fun s _ _ h => by simp [Write.data, submittableStatuses] at h
    | _ => exact (ha trivial).elim

namespace World.Dates

theorem of_rows (hn : w.now ≤ w'.now) (h : ∀ i, w'.settlement i = w.settlement i) : w.Dates w' :=
  ⟨hn, fun i r hr => .inr ⟨r, h i ▸ hr, rfl, rfl⟩⟩

theorem patch (p : Settlement → Bool) (d : Patch) : w.Dates (w.patchSettlements p d) := by
  refine ⟨Int.le_refl _, fun i r hr => ?_⟩
  rw [World.settlement_patchSettlements] at hr
  have ⟨s, hs, hr⟩ := Option.map_eq_some_iff.mp hr
  subst hr
  split
  case isTrue  => exact .inl (Int.le_refl _)
  case isFalse => exact .inr ⟨s, hs, rfl, rfl⟩

theorem insert (hw : w.WellFormed) (hf : w.Fresh [n]) (h : ∀ i, w'.settlement i = (w.insertSettlement s n).settlement i)
    (hn : w.now ≤ w'.now) : w.Dates w' := by
  refine ⟨hn, fun i r hr => ?_⟩
  rw [h, hw.settlement_insertSettlement hf] at hr
  split at hr
  case isFalse => exact .inr ⟨r, hr, rfl, rfl⟩
  case isTrue =>
    cases hr
    exact .inl (Int.le_refl _)

theorem of_effect (hw : w.WellFormed) (he : Effect D w a w') : w.Dates w' := by
  have hn := (he.grows hw).now
  cases he with
  | none | allocate | createExpense | settleShare | submit => exact .of_rows hn fun _ => rfl
  | createLinked hf   => exact .insert hw hf (fun _ => rfl) hn
  | createFreeform hf => exact .insert hw hf (fun _ => rfl) hn
  | transition | update => exact .patch _ _
  | settle            => exact ⟨hn, (World.Dates.patch _ _).settlements⟩
  | deleteExpense =>
    refine ⟨hn, fun i r hr => ?_⟩
    rw [World.settlement_removeExpense] at hr
    have ⟨s, hs, hr⟩ := Option.map_eq_some_iff.mp hr
    subst hr
    refine .inr ⟨s, hs, ?_⟩
    split <;> exact ⟨rfl, rfl⟩

end World.Dates

theorem Custody.record_of_not_reserved (ha : ¬a.Reserved) : g.record e a x w = g := by
  unfold record
  split
  case h_1 => rfl
  case h_2 k _ =>
    cases a with
    | submit | transition => exact (ha trivial).elim
    | update u =>
      cases u with
      | sign | expireIntent => simp only [note, lease, Act.concerns, Write.lease, ite_self]
      | _                   => exact (ha trivial).elim
    | _ => rfl

-- What a worker expects of the others survives every step that leaves the settlements steady.
theorem Spares.of_steady (hs : w.Steady w') (hd : w.Dates w') : Spares k (w, g) (w', g) := by
  intro i m h d hdl ht
  have ⟨hh, s, hr, he⟩ := h d hdl (hd.now.trans_lt ht)
  have ⟨s', hr', hs⟩ := hs i s hr
  exact ⟨hh, s', hr', he.steady hs⟩

section Rules

variable {F : World × Custody → Prop} {c : World × Custody}

theorem rely_of_steady (hs : w.Steady w') (hd : w.Dates w') : D.custody.rely e (w, g) (w', g) :=
  ⟨hd, fun _ _ => .of_steady hs hd⟩

theorem guar_of_steady (hs : w.Steady w') (hd : w.Dates w') : D.custody.guar e (w, g) (w', g) :=
  ⟨hd, fun _ _ => .of_steady hs hd, hs.ascends⟩

theorem inCharge_stable (hk : e.worker = some k) : D.custody.Stable e (InCharge k i m) :=
  fun _ _ hr h => hr.2 k hk i m h

-- A step of a process, which has to spare the others.
theorem Custody.secure_perform {a : Act} {Q : a.Res → World × Custody → Prop} {E : Failure → World × Custody → Prop}
    (hs : D.custody.Stable e F) (hf : F c)
    (h : ∀ w g x r w', F (w, g) → w.WellFormed → g.Timely e a w → D.exec a x w = some (r, w') →
      (g.record e a x w).strays = g.strays ∧ (∀ k ∉ e.worker, Spares k (w, g) (w', g.record e a x w)) ∧
      w.Ascends w' ∧ (∀ v, r = .ok v → Q v (w', g.record e a x w)) ∧
      ∀ f, r = .error f → E f (w', g.record e a x w)) : D.custody.Secure e (act a) Q E c :=
  .perform hs hf fun s hf hi ht x r t hx => by
    have ⟨hst, hsp, has, hq, he⟩ := h s.1 s.2 x r t hf hi.1 ht hx
    have hx := Effect.of_exec hx
    exact ⟨⟨hx.wellFormed hi.1, hst.trans hi.2⟩, ⟨.of_effect hi.1 hx, hsp, has⟩, hq, he⟩

-- An action that has nothing to do with claims.
theorem Custody.secure_act (ha : ¬a.Reserved) (hs : D.custody.Stable e F) (hf : F c) :
    D.custody.Secure e (act a) (fun _ => F) (fun _ => F) c := by
  refine .perform hs hf fun s hf hi _ x r t hx => ?_
  have hx := Effect.of_exec hx
  have hg : D.timely.record e a x s.1 s.2 = s.2 := record_of_not_reserved ha
  rw [hg]
  have hst := steady_of_not_reserved hi.1 ha hx
  have hd := World.Dates.of_effect hi.1 hx
  have hf := hs _ _ (rely_of_steady hst hd) hf
  exact ⟨⟨hx.wellFormed hi.1, hi.2⟩, guar_of_steady hst hd, fun _ _ => hf, fun _ _ => hf⟩

-- An action that only reads.
theorem Custody.secure_read {a : Act} {f : World → a.Res} (ha : ¬a.Reserved)
    (hx : ∀ x w, D.exec a x w = answer (f w) w x) (hs : D.custody.Stable e F) (hf : F c) :
    D.custody.Secure e (act a) (fun v s => F s ∧ s.1.WellFormed ∧ v = f s.1) (fun _ => F) c := by
  refine secure_perform hs hf fun w g x r w' hf hw _ h => ?_
  have h := (hx x w).symm.trans h
  rw [record_of_not_reserved ha]
  cases x <;> simp only [answer, Option.some.injEq, Prod.mk.injEq, reduceCtorEq] at h
  all_goals
    obtain ⟨rfl, rfl⟩ := h
    refine ⟨rfl, fun _ _ => .of_steady (.refl w) (.of_rows (Int.le_refl _) fun _ => rfl), (World.Steady.refl w).ascends,
      ?_, ?_⟩
  · exact fun v hv => ⟨hf, hw, (Except.ok.inj hv).symm⟩
  · exact fun _ hv => by cases hv
  · exact fun _ hv => by cases hv
  · exact fun _ _ => hf

end Rules

-- A worker acts in time on a settlement that is in its hands.
structure Tended (k i : String) (m : Nat) (w : World) (g : Custody) (d : Time) (r : Settlement) : Prop where
  deadline  : g.deadline k i = some d
  now       : w.now < d
  holder    : g.holder i = some k
  row       : w.settlement i = some r
  entrusted : r.Entrusted k d m

theorem Tended.spares {j : String} (h : Tended k i m w g d r) (hj : j ≠ k) (hn : w.now ≤ w'.now)
    (ho : ∀ i', i' ≠ i → w'.settlement i' = w.settlement i') (hh : g'.holder = g.holder)
    (hd : g'.deadline j = g.deadline j) : Spares j (w, g) (w', g') := by
  intro i' m' hc d' hd' ht
  have ⟨hj', r', hr', he⟩ := hc d' (hd ▸ hd') (hn.trans_lt ht)
  have hi : i' ≠ i := by
    rintro rfl
    exact hj (Option.some.inj (hj'.symm.trans h.holder))
  exact ⟨hh ▸ hj', r', (ho i' hi).trans hr', he⟩

theorem World.Ascends.of_others (hr : w.settlement i = some s) (ho : ∀ j, j ≠ i → w'.settlement j = w.settlement j)
    (hi : ∀ s', w'.settlement i = some s' → s.status ∈ submittableStatuses → s'.status ∈ submittableStatuses →
      s.retryCount ≤ s'.retryCount) : w.Ascends w' := by
  intro j r r' hj hj' hst hst'
  by_cases h : j = i
  case pos =>
    subst h
    cases hr.symm.trans hj
    exact hi r' hj' hst hst'
  case neg =>
    cases hj.symm.trans ((ho j h).symm.trans hj')
    exact Nat.le_refl _

theorem takesEffect_of_answers (h : x.answers = true) : x.takesEffect = true := by
  cases x with
  | ok => rfl
  | _  => cases h

section Writes

variable {c : World × Custody}

theorem Settlement.Entrusted.mono (h : s.Entrusted k d m) (hm : m ≤ m') : s.Entrusted k d m' :=
  ⟨h.claimedBy, h.leaseExpiresAt, fun hs => (h.retryCount hs).trans hm⟩

theorem InCharge.mono (h : InCharge k i m c) (hm : m ≤ m') : InCharge k i m' c := by
  intro d hd ht
  have ⟨hh, s, hs, he⟩ := h d hd ht
  exact ⟨hh, s, hs, he.mono hm⟩

-- A write that renews the lease along with the record of `m'` attempts.
structure Write.Renews (u : Write) (i : String) (m : Nat) (d : Time) : Prop where
  lease       : u.lease = some (i, d)
  claims      : u.claims = false
  concerns    : (Act.update u).concerns = some i
  requiresRow : u.requiresRow = true
  applies     : ∀ s, u.applies s = decide (s.id = i)
  data        : u.data.status = none ∧ u.data.claimedBy = none
  leaseExpiresAt : u.data.leaseExpiresAt = some (some d)
  retryCount  : u.data.retryCount = some m

end Writes

-- The conditional updates by which a worker claims a settlement.
structure Write.Claims (u : Write) (k i : String) (now d : Time) : Prop where
  lease       : u.lease = some (i, d)
  claims      : u.claims = true
  concerns    : (Act.update u).concerns = none
  requiresRow : u.requiresRow = false
  applies     : ∀ s, u.applies s = true → s.id = i ∧ eligible s.leaseExpiresAt now
  data        : u.data = { claimedBy := some k, claimedAt := some now, leaseExpiresAt := some d }

section Claims

variable {c : World × Custody} {now : Time} {u : Write}

theorem eligible_iff {t : Option Time} : eligible t now = true ↔ ∀ d, t = some d → d ≤ now := by
  cases t <;> simp [eligible]

-- Nobody else has a settlement in its hands that can be claimed.
theorem Write.Claims.idle {j : String} (hu : u.Claims k i now d) (hn : now ≤ w.now) (hs : w.settlement i = some s)
    (ha : u.applies s = true) (h : InCharge j i m (w, g)) : ∀ d ∈ g.deadline j i, d ≤ w.now := by
  intro d hd
  refine Int.not_lt.mp fun ht => ?_
  have ⟨_, s', hs', he⟩ := h d hd ht
  cases hs.symm.trans hs'
  exact Int.not_lt.mpr ((eligible_iff.mp (hu.applies s ha).2 d he.leaseExpiresAt).trans hn) ht

-- What becomes of the settlement, and of the record, when a worker tries to claim it.
theorem Write.Claims.effect {x : Choice} {r : Except Failure Nat} (hu : u.Claims k i now d) (hk : e.worker = some k)
    (hw : w.WellFormed) (hx : D.exec (.update u) x w = some (r, w')) :
    ((∀ j, w'.settlement j = w.settlement j) ∧ g.record e (.update u) x w = g ∧ ∀ v, r = .ok v → v = 0) ∨
    ∃ s, w.settlement i = some s ∧ u.applies s = true ∧ w'.settlement i = some (s.patch u.data w.now) ∧
      (∀ j, j ≠ i → w'.settlement j = w.settlement j) ∧ g.record e (.update u) x w = { g with
        holder   := Function.update g.holder i (some k)
        deadline := Function.update g.deadline k (Function.update (g.deadline k) i (some d)) } := by
  have hn : g.note k (.update u) = g := by simp only [Custody.note, hu.concerns]
  have hup := update_eq (w := w) hu.requiresRow
  have hcases : x.takesEffect = true ∧ w' = w.patchSettlements u.applies u.data ∧
      (∀ v, r = .ok v → v = w.settlements.countP u.applies) ∨ x.takesEffect = false ∧ w' = w ∧ ∀ v, r ≠ .ok v := by
    rcases exec_update (D := D) hx with ⟨ht, he⟩ | ⟨⟨_, f, rfl⟩, ⟨ht, rfl⟩ | ⟨ht, rfl⟩⟩
    case inl =>
      refine .inl ⟨takesEffect_of_answers ht, hup ▸ congrArg Prod.snd he, fun v hv => ?_⟩
      simp only [World.update, hu.requiresRow, Bool.false_eq_true, false_and, if_false, Prod.mk.injEq] at he
      exact Except.ok.inj (hv.symm.trans he.1)
    case inr.inl => exact .inl ⟨ht, hup, fun _ h => by cases h⟩
    case inr.inr => exact .inr ⟨ht, rfl, fun _ h => by cases h⟩
  rcases hcases with ⟨ht, rfl, hr⟩ | ⟨ht, rfl, hr⟩
  case inr =>
    refine .inl ⟨fun _ => rfl, ?_, fun v hv => (hr v hv).elim⟩
    simp only [Custody.record, hk, ht, Bool.false_eq_true, false_and, if_false, hn]
  case inl =>
    by_cases ha : ∃ s ∈ w.settlements, u.applies s = true
    case neg =>
      have hf : ∀ s ∈ w.settlements, ¬u.applies s = true := fun s hs h => ha ⟨s, hs, h⟩
      refine .inl ⟨fun j => ?_, ?_, fun v hv => (hr v hv).trans (List.countP_eq_zero.mpr hf)⟩
      case refine_1 =>
        rw [World.settlement_patchSettlements]
        cases hj : w.settlement j with
        | none   => rfl
        | some s => exact congrArg some (if_neg (hf s (Table.mem_of_row? hj)))
      case refine_2 =>
        have hany : w.settlements.any u.applies = false := List.any_eq_false.mpr hf
        simp only [Custody.record, hk, hany, Bool.false_eq_true, and_false, if_false, hn]
    case pos =>
      obtain ⟨s, hs, ha⟩ := ha
      have hany : w.settlements.any u.applies = true := List.any_eq_true.mpr ⟨s, hs, ha⟩
      have hi : w.settlement i = some s := (hu.applies s ha).1 ▸ hw.settlement_of_mem hs
      refine .inr ⟨s, hi, ha, ?_, fun j hj => ?_, ?_⟩
      case refine_1 => rw [World.settlement_patchSettlements, hi, Option.map_some, if_pos ha]
      case refine_2 =>
        rw [World.settlement_patchSettlements]
        cases hj' : w.settlement j with
        | none   => rfl
        | some s =>
          exact congrArg some <| if_neg fun h => hj <| (Table.key_of_row? hj').symm.trans (hu.applies s h).1
      case refine_3 =>
        simp only [Custody.record, hk, ht, hany, and_self, if_true, hn, Custody.lease, hu.lease, hu.claims]

-- A worker that succeeds in claiming a settlement is in charge of it.
theorem Custody.secure_claim {F : World × Custody → Prop} (hk : e.worker = some k) (hu : u.Claims k i now d)
    (hs : D.custody.Stable e F) (hf : F c) (hn : ∀ s, F s → now ≤ s.1.now)
    (hm : ∀ w g s, F (w, g) → g.Timely e (.update u) w → w.settlement i = some s → u.applies s = true →
      s.retryCount ≤ m) :
    D.custody.Secure e (act (.update u)) (fun v s => v = 1 → InCharge k i m s) (fun _ _ => True) c := by
  refine secure_perform hs hf fun w g x r w' hf hw ht hx => ?_
  have hnow := ((Effect.of_exec hx).grows hw).now
  rcases hu.effect (g := g) hk hw hx with ⟨hr, hg, hv⟩ | ⟨s, hi, ha, hi', ho, hg⟩
  case inl =>
    rw [hg]
    have hst : w.Steady w' := .of_eq hr
    refine ⟨rfl, fun _ _ => .of_steady hst (.of_effect hw (Effect.of_exec hx)), hst.ascends, fun v hv' h1 => ?_,
      fun _ _ => trivial⟩
    cases (hv v hv').symm.trans h1
  case inr =>
    rw [hg]
    have hret : (s.patch u.data w.now).retryCount = s.retryCount := by simp [Settlement.patch, hu.data]
    refine ⟨rfl, fun j hj i' m' hc d' hd' hlt => ?_, .of_others hi ho fun s' hs' _ _ => ?_, fun _ _ _ => ?_,
      fun _ _ => trivial⟩
    case refine_1 =>
      have hj : j ≠ k := fun hjk => hj (hjk ▸ hk)
      have hdj : d' ∈ g.deadline j i' := by simpa only [Function.update_of_ne hj] using hd'
      have hi' : i' ≠ i := by
        rintro rfl
        exact Int.not_lt.mpr (hu.idle (hn _ hf) hi ha hc d' hdj) (hnow.trans_lt hlt)
      obtain ⟨hh, s', hs', he⟩ := hc d' hdj (hnow.trans_lt hlt)
      exact ⟨(Function.update_of_ne hi' ..).trans hh, s', (ho i' hi').trans hs', he⟩
    case refine_2 =>
      cases hi'.symm.trans hs'
      exact Nat.le_of_eq hret.symm
    case refine_3 =>
      intro d₁ hd₁ _
      simp only [Function.update_self, Option.mem_def, Option.some.injEq] at hd₁
      subst hd₁
      refine ⟨Function.update_self .., _, hi', by simp [Settlement.patch, hu.data], by simp [Settlement.patch, hu.data],
        fun _ => hret.trans_le (hm w g s hf ht hi ha)⟩

end Claims

end Steps

end Mergepay
