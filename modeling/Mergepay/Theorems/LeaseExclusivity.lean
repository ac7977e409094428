import Mergepay.Settlement.Custody
import Mergepay.Settlement.Quiet
import Mergepay.Settlement.Runs

namespace Mergepay

open Concurrency Chronicle Write

variable {D : Deps} {e : Entry} {k i : String} {m : Nat} {c : World × Custody} {job : Job}

section Writes

theorem Write.Claims.claimSettlement : (claimSettlement i n k now d).Claims k i now d where
  lease       := rfl
  claims      := rfl
  concerns    := rfl
  requiresRow := rfl
  applies s h := by
    simp only [Write.applies, decide_eq_true_eq] at h
    exact ⟨h.1, h.2.2.2.2⟩
  data        := rfl

theorem Write.Claims.claimPendingConfirmation : (claimPendingConfirmation i n k now d).Claims k i now d where
  lease       := rfl
  claims      := rfl
  concerns    := rfl
  requiresRow := rfl
  applies s h := by
    simp only [Write.applies, decide_eq_true_eq] at h
    exact ⟨h.1, h.2.2.2⟩
  data        := rfl

theorem Write.Claims.claimSettlementForSync {hash : Option String} :
    (claimSettlementForSync i hash k now d).Claims k i now d where
  lease       := rfl
  claims      := rfl
  concerns    := rfl
  requiresRow := rfl
  applies s h := by
    simp only [Write.applies, decide_eq_true_eq] at h
    exact ⟨h.1, h.2.2.2⟩
  data        := rfl

theorem Write.Renews.recordAttemptStarted : (recordAttemptStarted i n d).Renews i n d where
  lease          := rfl
  claims         := rfl
  concerns       := rfl
  requiresRow    := rfl
  applies _      := rfl
  data           := ⟨rfl, rfl⟩
  leaseExpiresAt := rfl
  retryCount     := rfl

theorem Write.Renews.scheduleRetry : (scheduleRetry i n category reason t d).Renews i n d where
  lease          := rfl
  claims         := rfl
  concerns       := rfl
  requiresRow    := rfl
  applies _      := rfl
  data           := ⟨rfl, rfl⟩
  leaseExpiresAt := rfl
  retryCount     := rfl

end Writes

namespace Custody

section Worker

-- The time that is read has come.
theorem secure_clock {F : World × Custody → Prop} (hs : D.custody.Stable e F) (hf : F c) :
    D.custody.Secure e (act .clock) (fun now s => F s ∧ now ≤ s.1.now) (fun _ => F) c :=
  (secure_read (f := (·.now)) id (fun _ _ => rfl) hs hf).mono (fun _ _ ⟨h, _, hn⟩ => ⟨h, Int.le_of_eq hn⟩)
    fun _ _ h => h

theorem true_stable : D.custody.Stable e fun _ => True :=
  fun _ _ _ h => h

theorem now_stable {now : Time} : D.custody.Stable e fun s => now ≤ s.1.now :=
  fun _ _ hr h => h.trans hr.1.now

variable (hk : e.worker = some k)

include hk

theorem hold (ha : ¬a.Reserved) (h : InCharge k i m c) :
    D.custody.Secure e (act a) (fun _ => InCharge k i m) (fun _ => InCharge k i m) c :=
  secure_act ha (inCharge_stable hk) h

omit hk in
theorem claimSettlement_secure (hk : e.worker = some k) : D.custody.Secure e (Mergepay.claimSettlement D k job)
    (fun b s => b = true → InCharge k job.id job.retryCount s) (fun _ _ => True) c := by
  refine .bind <| (secure_clock true_stable trivial).mono (fun now s ⟨_, hn⟩ => ?_) fun _ _ h => h
  refine .bind <| (secure_claim hk .claimSettlement now_stable hn (fun _ h => h) fun w g s _ _ _ ha => ?_).mono
    (fun v s h hv => h (of_decide_eq_true hv)) fun _ _ h => h
  simp only [Write.applies, decide_eq_true_eq] at ha
  exact Nat.le_of_eq ha.2.2.1

end Worker

end Custody

section Reconciliation

-- A worker keeps what is in its hands while it does something that does not concern it.
theorem Quiet.holds {p : M α} (h : Quiet p) (hk : e.worker = some k) (hc : InCharge k i m c) :
    D.custody.Secure e p (fun _ => InCharge k i m) (fun _ => InCharge k i m) c :=
  .keeps (fun _ ha _ hc => Custody.hold hk ha hc) h hc

-- What has been selected for the synchronization has not been attempted since, if it is still as stale as it was.
structure Selected (s : Settlement) (now : Time) (c : World × Custody) : Prop where
  reached    : now ≤ c.1.now
  retryCount : ∀ r, c.1.settlement s.id = some r → r.updatedAt < now - statusSyncMinAgeMs → r.retryCount = s.retryCount

theorem Selected.later {now : Time} {c' : World × Custody} (h : Selected s now c) (hd : c.1.Dates c'.1) :
    Selected s now c' := by
  refine ⟨h.reached.trans hd.now, fun r' hr' ht => ?_⟩
  rcases hd.settlements s.id r' hr' with hn | ⟨r, hr, hu, hc⟩
  case inl =>
    have hp : (0 : Int) ≤ statusSyncMinAgeMs := by decide
    exact absurd (h.reached.trans hn) (Int.not_le.mpr (ht.trans_le (Int.sub_le_self now hp)))
  case inr => exact hc.trans (h.retryCount r hr (hu ▸ ht))

namespace Custody

variable (hk : e.worker = some k)

include hk

end Custody

end Reconciliation

-- Requests, and jobs that do not claim anything

section Requests

end Requests

abbrev Watch := Scene World Custody Act Act.Res Failure Entry

-- Workers only do something for a settlement that nobody else has claimed since they did, and the attempts that are
-- recorded for a settlement do not get fewer while it is submitted.
structure Exclusive (s s' : Watch) : Prop where
  strays  : s'.record.strays = []
  ascends : s.config.shared.Ascends s'.config.shared

section Sample

instance : DecidablePred D.workers.starts :=
  fun _ => inferInstanceAs (Decidable True)

instance : DecidableRel D.workers.rival :=
  fun _ _ => inferInstanceAs (Decidable (_ ∧ _))

instance (e : Entry) (a : Act) (w : World) (g : Custody) : Decidable (D.workers.permits e a w g) :=
  inferInstanceAs (Decidable True)

instance : DecidablePred D.timely.starts :=
  fun _ => inferInstanceAs (Decidable True)

instance : DecidableRel D.timely.rival :=
  fun _ _ => inferInstanceAs (Decidable (_ ∧ _))

instance (e : Entry) (a : Act) (w : World) (g : Custody) : Decidable (D.timely.permits e a w g) :=
  inferInstanceAs (Decidable (g.Timely e a w))

-- Bob's settlement is picked up by a worker, which never hears of its submission.
def unanswered : Schedule :=
  settling 0 {} "AAAAAA" "s" ++ signing 1 "s" "envelope" "key" ++
    submitting 2 (.fails (.provider .unavailable "Horizon request failed"))

end Sample

end Mergepay
