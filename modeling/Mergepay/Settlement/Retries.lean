import Mergepay.Settlement.Attempts
import Mergepay.Settlement.Budget

namespace Mergepay

open Concurrency Chronicle

variable {D : Deps} {w w' : World} {g g' : Tally}

-- What an action does to one of the rows that it is meant for, if anything.
def World.Rewrites (w : World) (p : Settlement → Bool) (d : Patch) (i : String) (s : Settlement) (w' : World) : Prop :=
  (∃ s', w'.settlement i = some s' ∧ (s' = s ∨ p s = true ∧ s' = s.patch d w.now)) ∧
    ∀ j, j ≠ i → w'.settlement j = w.settlement j

theorem World.Rewrites.of_rows {p : Settlement → Bool} (hs : w.settlement i = some s)
    (hp : ∀ s, p s = true → s.id = i)
    (hr : (∀ j, w'.settlement j = w.settlement j) ∨
      ∀ j, w'.settlement j = (w.patchSettlements p d).settlement j) : w.Rewrites p d i s w' := by
  rcases hr with hr | hr
  case inl => exact ⟨⟨s, (hr i).trans hs, .inl rfl⟩, fun j _ => hr j⟩
  case inr =>
    refine ⟨⟨if p s then s.patch d w.now else s, ?_, ?_⟩, fun j hj => ?_⟩
    case refine_1 => rw [hr, World.settlement_patchSettlements, hs, Option.map_some]
    case refine_2 =>
      split
      case isTrue h  => exact .inr ⟨h, rfl⟩
      case isFalse   => exact .inl rfl
    case refine_3 =>
      rw [hr, World.settlement_patchSettlements]
      cases hj' : w.settlement j with
      | none => rfl
      | some s' =>
        have hn : p s' = false :=
          Bool.eq_false_iff.mpr fun h => hj <| (Table.key_of_row? hj').symm.trans (hp s' h)
        simp only [Option.map_some, hn, Bool.false_eq_true, if_false]

theorem rows_transition (he : Effect D w (.transition t) w') : (∀ j, w'.settlement j = w.settlement j) ∨
    ∀ j, w'.settlement j = (w.patchSettlements t.applies t.data).settlement j := by
  cases he with
  | none | allocate     => exact .inl fun _ => rfl
  | transition | settle => exact .inr fun _ => rfl

theorem rows_update {u : Write} (he : Effect D w (.update u) w') : (∀ j, w'.settlement j = w.settlement j) ∨
    ∀ j, w'.settlement j = (w.patchSettlements u.applies u.data).settlement j := by
  cases he with
  | none | allocate => exact .inl fun _ => rfl
  | update          => exact .inr fun _ => rfl

theorem rewrites_transition (he : Effect D w (.transition t) w') (hs : w.settlement t.settlementId = some s) :
    w.Rewrites t.applies t.data t.settlementId s w' :=
  .of_rows hs (fun _ h => (t.applies_iff.mp h).1) (rows_transition he)

theorem rewrites_update {u : Write} (he : Effect D w (.update u) w') (hs : w.settlement i = some s)
    (hu : ∀ s, u.applies s = true → s.id = i) : w.Rewrites u.applies u.data i s w' :=
  .of_rows hs hu (rows_update he)

-- A step that concerns a single settlement.
theorem Deps.Budgeted.write (h : D.Budgeted (w, g)) (g' : Tally) (he : Effect D w a w')
    (hs : w.settlement i = some s) (hs' : w'.settlement i = some s')
    (ho : ∀ j, j ≠ i → w'.settlement j = w.settlement j)
    (hg : ∀ j, j ≠ i → g'.calls j = g.calls j ∧ g'.submissions j = g.submissions j)
    (hc : g'.submissions i ≤ g'.calls i ∧ g'.calls i ≤ D.settlementMaxAttempts)
    (hv : s'.Covers w' (g'.calls i)) (hk : s.status = .confirmed → s'.status = .confirmed) :
    D.Budgeted (w', g') ∧ Lasts (w, g) (w', g') := by
  have hgr := he.grows h.wellFormed
  refine ⟨⟨he.wellFormed h.wellFormed, fun j => ?_, fun j => ?_, fun j hj => ?_, fun j r hr => ?_⟩,
    ⟨fun j r hr hrc => ?_, fun _ => hgr.succeeded⟩⟩ <;> by_cases hji : j = i
  case pos => exact hji ▸ hc.1
  case neg => rw [(hg j hji).1, (hg j hji).2]; exact h.submissions j
  case pos => exact hji ▸ hc.2
  case neg => rw [(hg j hji).1]; exact h.calls j
  case pos => cases (hji ▸ hj).symm.trans hs'
  case neg => rw [(hg j hji).1]; exact h.absent j ((ho j hji).symm.trans hj)
  case pos =>
    subst hji
    cases hr.symm.trans hs'
    exact hv
  case neg =>
    have hcv := h.covers j r ((ho j hji).symm.trans hr)
    exact (hg j hji).1 ▸ ⟨hcv.count, fun k hk => hgr.succeeded (hcv.recorded k hk)⟩
  case pos =>
    subst hji
    cases hr.symm.trans hs
    exact ⟨s', hs', hk hrc⟩
  case neg => exact ⟨r, (ho j hji).trans hr, hrc⟩

-- What the worker makes of a row that it holds.
structure Settlement.Moved (m : Nat) (w : World) (s s' : Settlement) : Prop where
  status   : s'.status = .confirmed ∨ s.status ≠ .confirmed ∧ s'.retryCount = m
  recorded : ∀ h, s'.stellarTxHash = some h → w.Succeeded h

theorem Held.write (h : Held i m (w, g)) (hi : D.Budgeted (w, g)) (he : Effect D w a w')
    (hs : w.settlement i = some s) (hr : w.Rewrites p d i s w')
    (hp : p s = true → s.Moved m w' (s.patch d w.now)) :
    D.Budgeted (w', g) ∧ Lasts (w, g) (w', g) ∧
      ((s.patch d w.now).status ∈ heldStatuses ∨ (s.patch d w.now).status = .confirmed → Held i m (w', g)) := by
  have ⟨⟨r, hsr, hst⟩, hc⟩ := h
  cases hs.symm.trans hsr
  have ⟨⟨s', hs', hr⟩, ho⟩ := hr
  have hcv := hi.covers i s hs
  have hv : s'.Covers w' (g.calls i) ∧ (s.status = .confirmed → s'.status = .confirmed) := by
    rcases hr with rfl | ⟨ha, rfl⟩
    case inl =>
      have hg := he.grows hi.wellFormed
      exact ⟨⟨hcv.count, fun k hk => hg.succeeded (hcv.recorded k hk)⟩, id⟩
    case inr =>
      have hm := hp ha
      refine ⟨⟨fun hn => ?_, hm.recorded⟩, fun hc => hm.status.resolve_right fun hn => hn.1 hc⟩
      exact (hm.status.resolve_left hn).2 ▸ hc
  have ⟨hb, hl⟩ := hi.write g he hs hs' ho (fun _ _ => ⟨rfl, rfl⟩) ⟨hi.submissions i, hi.calls i⟩ hv.1 hv.2
  refine ⟨hb, hl, fun hd => ⟨⟨s', hs', ?_⟩, hc⟩⟩
  rcases hr with rfl | ⟨ha, rfl⟩
  case inl => exact hst
  case inr =>
    rcases (hp ha).status with hf | ⟨_, hm⟩
    case inl => exact .inl hf
    case inr => exact hd.symm.imp_right fun hd => ⟨hd, hm⟩

section Rules

variable {e : Entry} {F : World × Tally → Prop} {s s' : World × Tally}

-- A step that serves is fine in every role.
theorem guar_of_serves (h : Serves s s') : D.retries.guar e s s' := by
  cases he : e.submits with
  | true  => simpa only [Deps.retries, he, if_true] using h.toLasts
  | false => simpa only [Deps.retries, he, Bool.false_eq_true, if_false] using h

theorem rely_of_serves (h : Serves s s') : D.retries.rely e s s' := by
  cases he : e.submits with
  | true  => simpa only [Deps.retries, he, if_true] using h
  | false => simpa only [Deps.retries, he, Bool.false_eq_true, if_false] using h.toLasts

theorem lasts_of_rely (h : D.retries.rely e s s') : Lasts s s' := by
  cases he : e.submits with
  | true  =>
    simp only [Deps.retries, he, if_true] at h
    exact h.toLasts
  | false => simpa only [Deps.retries, he, Bool.false_eq_true, if_false] using h

theorem succeeded_stable : D.retries.Stable e fun s => s.1.Succeeded k :=
  fun _ _ hr h => (lasts_of_rely hr).succeeded k h

theorem confirmed_stable :
    D.retries.Stable e fun s => ∃ r, s.1.settlement i = some r ∧ r.status = .confirmed :=
  fun _ _ hr ⟨r, h, hc⟩ => (lasts_of_rely hr).confirmed i r h hc

theorem true_stable : D.retries.Stable e fun _ => True :=
  fun _ _ _ h => h

theorem secure_perform {a : Act} {Q : a.Res → World × Tally → Prop} {E : Failure → World × Tally → Prop}
    (hs : D.retries.Stable e F) (hf : F s)
    (h : ∀ w g x r w', F (w, g) → D.Budgeted (w, g) → D.exec a x w = some (r, w') →
      D.Budgeted (w', Tally.count a x w g) ∧ D.retries.guar e (w, g) (w', Tally.count a x w g) ∧
      (∀ v, r = .ok v → Q v (w', Tally.count a x w g)) ∧ ∀ f, r = .error f → E f (w', Tally.count a x w g)) :
    D.retries.Secure e (act a) Q E s :=
  .perform hs hf fun s₁ hf hi _ x r t hx => h s₁.1 s₁.2 x r t hf hi hx

-- An action that does not move a settlement, whatever it is answered.
theorem secure_act (ha : ¬a.Moves) (hs : D.retries.Stable e F) (hf : F s) :
    D.retries.Secure e (act a) (fun _ => F) (fun _ => F) s := by
  refine secure_perform hs hf fun w g x r w' hf hi hx => ?_
  have ⟨hb, hsv⟩ := hi.of_not_moves ha hx
  have hf := hs _ _ (rely_of_serves hsv) hf
  exact ⟨hb, guar_of_serves hsv, fun _ _ => hf, fun _ _ => hf⟩

-- An action that only reads.
theorem secure_read {a : Act} {f : World → a.Res} (ha : ¬a.Moves)
    (hx : ∀ x w, D.exec a x w = answer (f w) w x) (hs : D.retries.Stable e F) (hf : F s) :
    D.retries.Secure e (act a) (fun v s => F s ∧ D.Budgeted s ∧ v = f s.1) (fun _ => F) s := by
  refine secure_perform hs hf fun w g x r w' hf hi h => ?_
  have ⟨hb, hsv⟩ := hi.of_not_moves ha h
  have hf := hs _ _ (rely_of_serves hsv) hf
  refine ⟨hb, guar_of_serves hsv, fun v hr => ⟨hf, hb, ?_⟩, fun _ _ => hf⟩
  have h := (hx x w).symm.trans h
  subst hr
  cases x <;> simp only [answer, Option.some.injEq, Prod.mk.injEq, reduceCtorEq, Except.ok.injEq, false_and] at h
  exact h.1 ▸ h.2 ▸ rfl

-- What is found on the ledger.
theorem secure_getTransaction (hs : D.retries.Stable e F) (hf : F s) :
    D.retries.Secure e (act (.getTransaction k))
      (fun v s => F s ∧ ∀ b, v = some b → (s.1.transaction k).map (·.successful) = some b) (fun _ => F) s := by
  refine secure_perform hs hf fun w g x r w' hf hi h => ?_
  have ⟨hb, hsv⟩ := hi.of_not_moves id h
  have hf := hs _ _ (rely_of_serves hsv) hf
  refine ⟨hb, guar_of_serves hsv, fun v hr => ⟨hf, fun b hv => ?_⟩, fun _ _ => hf⟩
  subst hr
  subst hv
  simp only [Deps.exec] at h
  split at h
  case h_1 => cases h
  case h_2 =>
    cases x <;> simp only [answer, Option.some.injEq, Prod.mk.injEq, reduceCtorEq, Except.ok.injEq, false_and] at h
    exact h.2 ▸ h.1

end Rules

section Worker

variable {m : Nat} {k i hash : String} {s : World × Tally} {job : Job}

theorem held_of_submittable {st : SettlementStatus} (h : st ∈ Write.submittableStatuses) : st ∈ heldStatuses :=
  have hs : Write.submittableStatuses ++ [.needsReview] = heldStatuses := rfl
  hs ▸ List.mem_append_left _ h

theorem held_stable : D.retries.Stable (.processSubmittedSettlements k) (Held i m) :=
  fun _ _ hr h => hr.held i m h

theorem armed_stable : D.retries.Stable (.processSubmittedSettlements k) (Armed i m) :=
  fun _ _ hr h => hr.armed i m h

theorem claimSettlement_secure : D.retries.Secure (.processSubmittedSettlements k) (claimSettlement D k job)
    (fun b s => b = true → Held job.id job.retryCount s) (fun _ _ => True) s := by
  refine .bind <| (secure_act id true_stable trivial).mono (fun now s _ => ?_) fun _ _ h => h
  refine .bind <| secure_perform true_stable trivial fun w g x r w' _ hi hx => ?_
  obtain ⟨hb, hsv⟩ := hi.of_not_moves id hx
  refine ⟨hb, hsv.toLasts, fun v hr => ?_, fun _ _ => trivial⟩
  subst hr
  intro hv
  have hv : v = 1 := of_decide_eq_true hv
  rcases exec_update (D := D) hx with ⟨_, hu⟩ | ⟨⟨_, e, he⟩, _⟩
  case inr => cases he
  case inl =>
    -- The row that was updated was in the state in which it had been read.
    simp only [World.update, Write.requiresRow, Bool.false_eq_true, false_and, if_false, Prod.mk.injEq,
      Except.ok.injEq] at hu
    obtain ⟨r, hr, ha⟩ := List.countP_pos_iff.mp (hu.1 ▸ hv ▸ Nat.one_pos : 0 < _)
    simp only [Write.applies, decide_eq_true_eq] at ha
    have hr : w.settlement job.id = some r := ha.1 ▸ hi.wellFormed.settlement_of_mem hr
    have hst : r.status ∈ heldStatuses := held_of_submittable ha.2.1
    refine hsv.held _ _ ⟨⟨r, hr, .inr ⟨hst, ha.2.2.1⟩⟩, ?_⟩
    rw [← ha.2.2.1]
    refine (hi.covers _ r hr).count fun hc => ?_
    simp [hc, heldStatuses] at hst

theorem Tally.call_other (j : String) (hj : j ≠ i) :
    (g.call i).calls j = g.calls j ∧ (g.call i).submissions j = g.submissions j :=
  ⟨Function.update_of_ne hj .., rfl⟩

theorem Tally.submission_other (j : String) (hj : j ≠ i) :
    (g.submission i).calls j = g.calls j ∧ (g.submission i).submissions j = g.submissions j :=
  ⟨rfl, Function.update_of_ne hj ..⟩

theorem applies_recordAttemptStarted (j : Nat) (t : Time) (r : Settlement) :
    (Write.recordAttemptStarted i j t).applies r = true ↔ r.id = i := by
  simp [Write.applies]

-- The answer to an update of a single row tells whether the row has been updated.
theorem answered_update {u : Write} {r : Except Failure Nat} (hs : w.settlement i = some s')
    (ha : u.applies s' = true) (h : (r, w') = w.update u) :
    (∃ v, r = .ok v) ∧ w.settlements.any u.applies = true ∧ w'.settlement i = some (s'.patch u.data w.now) := by
  have hany : w.settlements.any u.applies = true := List.any_eq_true.mpr ⟨s', Table.mem_of_row? hs, ha⟩
  simp only [World.update, hany, not_true_eq_false, and_false, if_false, Prod.mk.injEq] at h
  refine ⟨⟨_, h.1⟩, hany, ?_⟩
  rw [h.2, World.settlement_patchSettlements, hs, Option.map_some, if_pos ha]

-- An attempt is recorded before it is made.
theorem recordAttemptStarted_secure (hm : m + 1 ≤ D.settlementMaxAttempts) (h : Held job.id m s) :
    D.retries.Secure (.processSubmittedSettlements k) (recordAttemptStarted D job (m + 1))
      (fun _ => Armed job.id (m + 1)) (fun _ _ => True) s := by
  refine .bind <| (secure_act id held_stable h).mono (fun now s h => ?_) fun _ _ _ => trivial
  refine .bind <| secure_perform held_stable h fun w g x r w' ⟨⟨s, hs, hst⟩, hc⟩ hi hx => ?_
  have ha := (applies_recordAttemptStarted (m + 1) (now + D.workerLeaseTimeoutMs) s).mpr (Table.key_of_row? hs)
  have he := Effect.of_exec hx
  have hg := he.grows hi.wellFormed
  have hcv := hi.covers _ s hs
  have ⟨⟨s', hs', hr⟩, ho⟩ := rewrites_update he hs fun s h =>
    (applies_recordAttemptStarted _ _ s).mp h
  rcases exec_update (D := D) hx with ⟨hx, hu⟩ | ⟨⟨hn, e, rfl⟩, _⟩
  case inl =>
    have ⟨⟨v, hv⟩, hany, ht⟩ := answered_update hs ha hu
    have hcount : Tally.count (.update (.recordAttemptStarted job.id (m + 1) (now + D.workerLeaseTimeoutMs)))
        x w g = g.call job.id := if_pos ⟨hx, hany⟩
    have hcalls : (g.call job.id).calls job.id = g.calls job.id + 1 := Function.update_self ..
    have hsub := hi.submissions job.id
    have hnew : Armed job.id (m + 1) (w', g.call job.id) := by
      refine ⟨⟨⟨_, ht, hst.imp id fun hst => ⟨hst.1, rfl⟩⟩, ?_⟩, ?_⟩
      · exact hcalls ▸ Nat.succ_le_succ hc
      · exact hcalls ▸ Nat.lt_succ_of_le hsub
    have ⟨hb, hl⟩ := hi.write (g.call job.id) he hs ht ho (fun j => g.call_other j)
      ⟨hcalls ▸ hsub.trans (Nat.le_succ _), hcalls ▸ (Nat.succ_le_succ hc).trans hm⟩
      ⟨fun _ => hcalls ▸ Nat.succ_le_succ hc, fun k hk => hg.succeeded (hcv.recorded k hk)⟩ id
    rw [hcount]
    exact ⟨hb, hl, fun _ _ => hnew, fun _ _ => trivial⟩
  case inr =>
    have hcount : Tally.count (.update (.recordAttemptStarted job.id (m + 1) (now + D.workerLeaseTimeoutMs)))
        x w g = g := if_neg fun ha => by simp [hn] at ha
    rw [hcount]
    have hv : s'.Covers w' (g.calls job.id) ∧ s'.status = s.status := by
      rcases hr with rfl | ⟨_, rfl⟩
      case inl => exact ⟨⟨hcv.count, fun k hk => hg.succeeded (hcv.recorded k hk)⟩, rfl⟩
      case inr => exact ⟨⟨fun _ => hc.trans (Nat.le_succ m), fun k hk => hg.succeeded (hcv.recorded k hk)⟩, rfl⟩
    have ⟨hb, hl⟩ := hi.write g he hs hs' ho (fun _ _ => ⟨rfl, rfl⟩) ⟨hi.submissions _, hi.calls _⟩ hv.1
      fun hcf => hv.2.trans hcf
    exact ⟨hb, hl, nofun, fun _ _ => trivial⟩

theorem scheduleRetry_secure (h : Held job.id m s) :
    D.retries.Secure (.processSubmittedSettlements k) (scheduleRetry D job m c reason delay)
      (fun _ => Held job.id m) (fun _ _ => True) s := by
  refine .bind <| (secure_act id held_stable h).mono (fun now s h => ?_) fun _ _ _ => trivial
  refine .bind <| secure_perform held_stable h fun w g x r w' h hi hx => ?_
  obtain ⟨⟨s, hs, hst⟩, hc⟩ := id h
  have he := Effect.of_exec hx
  have hg := he.grows hi.wellFormed
  have hcv := hi.covers _ s hs
  have hr := rewrites_update he hs fun s h => by simpa [Write.applies] using h
  obtain ⟨hb, hl, hh⟩ := h.write hi he hs hr fun _ => {
    status   := hst.imp id fun hst => ⟨fun hc => by simp [hc, heldStatuses] at hst, rfl⟩
    recorded := fun k hk => hg.succeeded (hcv.recorded k hk)
  }
  exact ⟨hb, hl, fun _ _ => hh <| hst.symm.imp_left And.left, fun _ _ => trivial⟩

theorem submitted {r : Except Failure String} (hx : D.exec (.submit i xdr) x w = some (r, w')) :
    (∀ j, w'.settlement j = w.settlement j) ∧ ∀ v, r = .ok v → w'.Succeeded v := by
  cases x <;> simp only [Deps.exec, Deps.submit, Option.some.injEq, Prod.mk.injEq, reduceCtorEq] at hx
  case fails =>
    obtain ⟨rfl, rfl⟩ := hx
    exact ⟨fun _ => rfl, by simp⟩
  case ok =>
    split at hx
    case isFalse => cases hx
    case isTrue =>
      cases hx
      exact ⟨fun _ => rfl, by simp⟩
  case applied b answer =>
    split at hx
    case isTrue => cases hx
    case isFalse hn =>
      simp only [Option.some.injEq, Prod.mk.injEq] at hx
      obtain ⟨rfl, rfl⟩ := hx
      refine ⟨fun _ => rfl, fun v hv => ?_⟩
      have hn : w.transaction (D.hashOf xdr) = none := by simpa using hn
      cases b <;> cases answer <;> cases hv
      simp only [World.Succeeded, World.transaction, World.apply, Table.row?, List.find?_append] at hn ⊢
      simp [hn]

theorem submit_secure (h : Armed i m s) :
    D.retries.Secure (.processSubmittedSettlements k) (act (.submit i xdr))
      (fun hash s => Held i m s ∧ s.1.Succeeded hash) (fun _ => Held i m) s := by
  refine secure_perform armed_stable h fun w g x r w' ⟨⟨⟨s, hs, hst⟩, hc⟩, hd⟩ hi hx => ?_
  have he := Effect.of_exec hx
  have hg := he.grows hi.wellFormed
  have hcv := hi.covers _ s hs
  have ⟨hr, hk⟩ := submitted hx
  have hsub : (g.submission i).submissions i = g.submissions i + 1 := Function.update_self ..
  have ⟨hb, hl⟩ := hi.write (g.submission i) he hs ((hr _).trans hs) (fun j _ => hr j)
    (fun j => g.submission_other j) ⟨hsub ▸ hd, hi.calls i⟩
    ⟨hcv.count, fun k hk => hg.succeeded (hcv.recorded k hk)⟩ id
  have hh : Held i m (w', g.submission i) := ⟨⟨s, (hr _).trans hs, hst⟩, hc⟩
  exact ⟨hb, hl, fun v hv => ⟨hh, hk v hv⟩, fun _ _ => hh⟩

-- The transactions that are named by an update have succeeded.
def Patch.Backed (d : Patch) (w : World) : Prop :=
  ∀ h, d.stellarTxHash = some (some h) → w.Succeeded h

theorem moved_patch {d : Patch} {s : Settlement} (hcv : s.Covers w c) (hg : w.Grows w') (hk : d.Backed w')
    (hst : s.status = .confirmed ∨ s.status ∈ heldStatuses ∧ s.retryCount = m)
    (hd : (s.patch d now).status = .confirmed ∨
      s.status ≠ .confirmed ∧ (d.retryCount = none ∨ d.retryCount = some m)) :
    s.Moved m w' (s.patch d now) where
  status := hd.imp id fun ⟨hn, hd⟩ => ⟨hn, by
    have hm := (hst.resolve_left hn).2
    rcases hd with hd | hd <;> simp [Settlement.patch, hd, hm]⟩
  recorded k hk' := by
    rw [Settlement.patch_stellarTxHash] at hk'
    cases hh : d.stellarTxHash with
    | none   => exact hg.succeeded <| hcv.recorded k (by simpa [hh] using hk')
    | some v => exact hk k (by simpa [hh] using hk')

def Holds (i : String) (m : Nat) (d : Patch) (s : World × Tally) : Prop :=
  Held i m s ∧ d.Backed s.1

theorem holds_stable : D.retries.Stable (.processSubmittedSettlements k) (Holds i m d) :=
  held_stable.and fun _ _ hr h _ hd => succeeded_stable _ _ hr (h _ hd)

-- The shortcut for a settlement which already has the requested status.
theorem refresh_secure {d : Patch} (hn : d.status = none)
    (hd : (∃ r, s.1.settlement i = some r ∧ r.status = .confirmed) ∨ d.retryCount = none ∨ d.retryCount = some m)
    (h : Holds i m d s) :
    D.retries.Secure (.processSubmittedSettlements k) (act (.update (.refresh i d caller)))
      (fun _ => Held i m) (fun _ => Held i m) s := by
  refine secure_perform (F := fun s => Holds i m d s ∧ ((∃ r, s.1.settlement i = some r ∧ r.status = .confirmed) ∨
    d.retryCount = none ∨ d.retryCount = some m))
    (holds_stable.and fun s s' hr h => h.imp_left (confirmed_stable s s' hr)) ⟨h, hd⟩
    fun w g x r w' ⟨⟨h, hk⟩, hd⟩ hi hx => ?_
  obtain ⟨⟨s, hs, hst⟩, hc⟩ := id h
  have he := Effect.of_exec hx
  have hg := he.grows hi.wellFormed
  have hpst : (s.patch d w.now).status = s.status := by rw [Settlement.patch_status, hn, Option.getD_none]
  have hr := rewrites_update he hs fun s h => Write.refresh_applies_iff.mp h
  have hm : s.Moved m w' (s.patch d w.now) := by
    refine moved_patch (hi.covers i s hs) hg (fun k hk' => hg.succeeded (hk k hk')) hst ?_
    by_cases hcf : s.status = .confirmed
    case pos => exact .inl <| hpst.trans hcf
    case neg =>
      refine .inr ⟨hcf, hd.resolve_left fun ⟨r, hr, hrc⟩ => hcf ?_⟩
      cases hs.symm.trans hr
      exact hrc
  have ⟨hb, hl, hh⟩ := h.write hi he hs hr fun _ => hm
  have hh := hh <| hst.symm.imp (fun hst => hpst ▸ hst.1) fun hst => hpst.trans hst
  exact ⟨hb, hl, fun _ _ => hh, fun _ _ => hh⟩

theorem transition_secure {t : Transition}
    (hn : t.nextStatus ∈ [SettlementStatus.verifying, .confirmed, .needsReview, .failed])
    (hd : t.nextStatus = .confirmed ∨ t.extraData.retryCount = none ∨ t.extraData.retryCount = some m)
    (h : Holds t.settlementId m t.extraData s) :
    D.retries.Secure (.processSubmittedSettlements k) (act (.transition t))
      (fun _ s => t.nextStatus ≠ .failed → Held t.settlementId m s)
      (fun _ s => t.nextStatus ≠ .failed → Held t.settlementId m s) s := by
  refine secure_perform holds_stable h fun w g x r w' ⟨h, hk⟩ hi hx => ?_
  obtain ⟨⟨s, hs, hst⟩, hc⟩ := id h
  have he := Effect.of_exec hx
  have hg := he.grows hi.wellFormed
  have hm : t.applies s = true → s.Moved m w' (s.patch t.data w.now) := fun ha => by
    have hnc := (SettlementStatus.allowedFromStatuses_edge (t.applies_iff.mp ha).2).not_terminal.1
    refine moved_patch (hi.covers _ s hs) hg (fun k hk' => hg.succeeded (hk k hk')) hst ?_
    exact hd.imp (fun hd => hd) fun hd => ⟨hnc, hd⟩
  have ⟨hb, hl, hh⟩ := h.write hi he hs (rewrites_transition he hs) hm
  have hh : t.nextStatus ≠ .failed → Held t.settlementId m (w', g) := fun hf => hh <| by
    have hst : (s.patch t.data w.now).status = t.nextStatus := rfl
    rw [hst]
    simp only [heldStatuses, List.mem_cons, List.not_mem_nil, or_false] at hn ⊢
    tauto
  exact ⟨hb, hl, fun _ _ => hh, fun _ _ => hh⟩

theorem secure_frame {p : M α} {Q E} (h : D.retries.Secure (.processSubmittedSettlements k) p Q E s)
    (hk : s.1.Succeeded hash) : D.retries.Secure (.processSubmittedSettlements k) p
      (fun a s => Q a s ∧ s.1.Succeeded hash) (fun e s => E e s ∧ s.1.Succeeded hash) s :=
  h.frame succeeded_stable (fun _ _ hl => hl.succeeded hash) hk

theorem not_moves_of_not_reserved {a : Act} (h : ¬a.Reserved) : ¬a.Moves := by
  cases a with
  | update u => cases u <;> first | exact id | exact fun _ => h trivial
  | _        => exact h

-- The attempts of the worker are recorded, and what it knows of a transaction is that it has succeeded.
def attempting : Attempting D D.retries k where
  held      := Held
  armed     := Armed
  known h s := s.1.Succeeded h
  confirmed i s := ∃ r, s.1.settlement i = some r ∧ r.status = .confirmed
  recovers  := False
  disarm h  := h.toHeld
  frame     := secure_frame
  idle ha   := secure_act (not_moves_of_not_reserved ha) true_stable trivial
  hold ha   := secure_act (not_moves_of_not_reserved ha) held_stable
  aim ha    := secure_act (not_moves_of_not_reserved ha) armed_stable
  claim     := claimSettlement_secure
  release   := secure_act id true_stable trivial
  start     := recordAttemptStarted_secure
  submit    := submit_secure
  retry     := scheduleRetry_secure
  row h     := (secure_read id (fun _ _ => rfl) held_stable h).mono
    (fun _ _ ⟨h, _, hv⟩ => ⟨h, fun r hr hc => ⟨r, hv.symm.trans hr, hc⟩⟩) fun _ _ h => h
  refresh hn _ hd h hk    := refresh_secure hn (hd.imp_left And.right) ⟨h, hk⟩
  transition hn _ hd h hk := transition_secure hn hd ⟨h, hk⟩
  find h := (secure_getTransaction held_stable h).mono (fun _ _ ⟨h, hv⟩ => ⟨h, hv true⟩) fun _ _ h => h
  -- A transaction that has succeeded is never found to have failed.
  found h hk := (secure_getTransaction (held_stable.and succeeded_stable) ⟨h, hk⟩).mono
    (fun _ _ ⟨⟨h, hk⟩, hv⟩ => ⟨⟨h, hk⟩, fun hf => by cases hk.symm.trans (hv false hf)⟩) fun _ _ h => h

theorem processSubmittedSettlements_secure :
    D.retries.Fine (.processSubmittedSettlements k) (processSubmittedSettlements D k) s :=
  attempting.processSubmittedSettlements

end Worker

end Mergepay
