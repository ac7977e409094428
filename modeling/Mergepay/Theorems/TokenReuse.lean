import Mergepay.Theorems.TokenChains

namespace Mergepay.Auth

open Concurrency

-- The family exists, and none of its tokens can be redeemed.
def TokenStore.Cut (s : TokenStore) (familyId : String) : Prop :=
  familyId ∈ s.tokens.map (·.familyId) ∧ ∀ t ∈ s.tokens, t.familyId = familyId → t.live ≠ true

instance (s : TokenStore) (familyId : String) : Decidable (s.Cut familyId) :=
  inferInstanceAs (Decidable (_ ∧ _))

-- A token is only claimed in vain if its family has been cut off, and an update that revokes tokens
-- covers all those that could still be redeemed when it is committed.
def Timely : TokenStep → TokenStore → Prop
  | .act _ _ (.claim id _), s => ∀ t ∈ s.tokens, t.id = id → t.live = true ∨ s.Cut t.familyId
  | .act _ _ _, _             => True
  | .commit _ log, s          => ∀ e ∈ log, match e with
    | ⟨.findUnrevoked familyId, .ok ids⟩ =>
      ∀ t ∈ s.tokens, t.familyId = familyId → t.live = true → t.id ∈ ids
    | ⟨.findLive userId, .ok ids⟩        =>
      ∀ t ∈ s.tokens, t.userId = userId → t.live = true → t.id ∈ ids
    | _                                  => True

instance (a : TokenStep) (s : TokenStore) : Decidable (Timely a s) := by
  unfold Timely
  split
  · infer_instance
  · infer_instance
  · refine @List.decidableBAll _ _ (fun e => ?_) _
    split <;> infer_instance

-- The family of the token that has been presented is cut off.
def Detected (D : TokenDeps) (presented : String) (s : TokenStore) : Prop :=
  ∃ t ∈ s.tokens, t.tokenHash = D.hashToken presented ∧ s.Cut t.familyId

-- The successful commit of a logout.
def LogsOut (D : TokenDeps) (userId : String) (c c' : TokenConfig) : Prop :=
  ∃ n log k, c.procs[n]? = some (.call (.commit (.revokeAllForUser userId) log) k) ∧
    Timely (.commit (.revokeAllForUser userId) log) c.shared ∧
    (tokenSystem D).next (.act n .plain) c = some c'

section

variable {D : TokenDeps} {s s' : TokenStore} {c c₁ c₂ : TokenConfig} {f : String}

-- A family that has been cut off remains so, whatever is written.
theorem TokenStore.Cut.keeps {as : List TokenAction} (h : s.Cut f) (hi : s.Chained)
    (hw : Writes s as) (ha : tokenDatabase.allowed as s = true) :
    (as.foldl (fun s a => tokenEffect a s) s).Cut f := by
  have updated {p : RefreshToken → Bool} {g : RefreshToken → RefreshToken}
      (hg : ∀ t : RefreshToken, t.Older (g t)) :
      Cut { s with tokens := Table.update p g s.tokens } f := by
    refine ⟨?_, fun t ht hf hl => ?_⟩
    · rw [Table.map_update (g := (·.familyId)) fun t => (hg t).familyId_eq]
      exact h.1
    · obtain ⟨t₀, h₀, he⟩ := Table.mem_update.mp ht
      have ho : t₀.Older t := by
        rw [← he]
        split
        · exact hg t₀
        · exact .refl
      exact h.2 t₀ h₀ (ho.familyId_eq.symm.trans hf) (ho.live hl)
  have revoked (now : Time) (t : RefreshToken) : t.Older { t with revokedAt := some now } :=
    ⟨rfl, fun h => h, fun h => by simp [RefreshToken.live] at h⟩
  cases hw with
  | nothing   => exact h
  | revoked   => exact updated (revoked _)
  | loggedOut => exact updated (revoked _)
  | @issued row hp =>
    have hf := (of_decide_eq_true ((Bool.and_eq_true ..).mp ha).1).2.2 hp
    refine ⟨?_, fun t ht he hl => ?_⟩
    · simpa [tokenEffect] using .inl (by simpa using h.1)
    · rcases List.mem_append.mp ht with ht | ht
      case inl => exact h.2 t ht he hl
      case inr =>
        rw [List.mem_singleton.mp ht] at he
        exact hf (he ▸ h.1)
  | @exchanged t now row id ht hid hfam _ _ =>
    have hc : tokenAdmits (.claim id now) s = true := ((Bool.and_eq_true ..).mp ha).1
    obtain ⟨t₁, ht₁, hid₁, hl⟩ := TokenStore.claimed hc
    obtain rfl := hi.eq_of_id ht ht₁ (hid.trans hid₁.symm)
    have hne : t.familyId ≠ f := fun he => h.2 t ht he hl
    have hcut := updated (p := (·.id = id)) (g := ({ · with rotatedAt := some now })) fun t =>
      ⟨rfl, fun _ => rfl, fun h => by simp [RefreshToken.live] at h⟩
    refine ⟨?_, fun u hu he hl => ?_⟩
    · simpa [tokenEffect] using .inl (by simpa using hcut.1)
    · rcases List.mem_append.mp hu with hu | hu
      case inl => exact hcut.2 u hu he hl
      case inr =>
        rw [List.mem_singleton.mp hu] at he
        exact hne (hfam.trans he)

abbrev reuseProtocol (D : TokenDeps) : Protocol (tokenSystem D) :=
  tokenProtocol D Timely (Detected D)

theorem cut_evolves (h : s.Cut f) (hi : s.Chained)
    (he : (tokenSystem D).Evolves (reuseProtocol D).cond s s') : s'.Cut f ∧ s'.Chained := by
  induction he with
  | refl => exact ⟨h, hi⟩
  | env _ hx ih =>
    have ⟨hcut, hch⟩ := ih h hi
    refine ⟨?_, (reuseProtocol D).env hch hx⟩
    simp only [tokenSystem, Database.server, tokenEnv, Option.ite_none_right_eq_some,
      Option.some.injEq] at hx
    exact hx.2 ▸ hcut
  | @act a x _ s₂ s₃ r _ hc hx ih =>
    have ⟨hcut, hch⟩ := ih h hi
    refine ⟨?_, (reuseProtocol D).exec hch hc hx⟩
    cases a with
    | act i log a => exact (Database.exec_act hx).1 ▸ hcut
    | commit i log =>
      have ⟨ha, hs⟩ := Database.exec_commit hx
      rcases hs with ⟨_, hs⟩ | ⟨_, _, hs, _⟩
      case inr => exact hs ▸ hcut
      case inl =>
        rw [hs, view_written]
        exact hcut.keeps hch hc.2.1 (admitted_written ha)

theorem not_live_of_revoked {t : RefreshToken} {now : Time} :
    ({ t with revokedAt := some now } : RefreshToken).live ≠ true := by
  simp [RefreshToken.live]

-- Nothing is left once all tokens that could be redeemed have been revoked.
theorem cut_of_revoked {p : RefreshToken → Bool} {now : Time} (ht : f ∈ s.tokens.map (·.familyId))
    (h : ∀ t ∈ s.tokens, t.familyId = f → t.live = true → p t = true) :
    TokenStore.Cut { s with tokens := Table.update p ({ · with revokedAt := some now }) s.tokens } f := by
  refine ⟨?_, fun u hu hf hl => ?_⟩
  · have hm : (Table.update p ({ · with revokedAt := some now }) s.tokens).map (·.familyId) =
        s.tokens.map (·.familyId) := Table.map_update fun _ => rfl
    exact hm ▸ ht
  · have ⟨u₀, hu₀, he⟩ := Table.mem_update.mp hu
    split at he
    case isTrue     => exact not_live_of_revoked (he ▸ hl)
    case isFalse hn =>
      subst he
      exact hn (h u₀ hu₀ hf hl)

theorem reuse_reports : Reports D Timely (Detected D) where
  later := fun ⟨t, ht, hh, hcut⟩ hi he =>
    have ⟨t', ht', ho⟩ := grows_of_evolves he t ht
    ⟨t', ht', ho.tokenHash_eq.trans hh, ho.familyId_eq ▸ (cut_evolves hcut hi he).1⟩
  revoked := fun {presented stored ids now s} _ ⟨t, ht, ho⟩ hh hc => by
    have hcov := hc _ (.head _)
    have ⟨t', ht', ho'⟩ := TokenStore.grows_effect (.revoke ids now) t ht
    have hf := ho.trans ho'
    refine ⟨t', ht', hf.tokenHash_eq.trans hh, hf.familyId_eq ▸ cut_of_revoked ?_ fun u hu hfu hl => ?_⟩
    · exact ho.familyId_eq ▸ List.mem_map_of_mem ht
    · have hr : u.revokedAt = none := Option.isNone_iff_eq_none.mp (of_decide_eq_true hl).2
      exact decide_eq_true ⟨hcov u hu hfu hl, hr⟩
  lost := fun {presented stored now s} hi ⟨t, ht, ho⟩ hh hc hn => by
    refine ⟨t, ht, ho.tokenHash_eq.trans hh, (hc t ht ho.id_eq).resolve_left fun hl => hn ?_⟩
    have htok := hi.token_of_mem ht
    rw [ho.id_eq] at htok
    simp [tokenAdmits, htok, hl]

theorem timely_due (a : TokenStep) (s : TokenStore) (hc : Timely a s) (hd : (reuseProtocol D).due a s) :
    (reuseProtocol D).cond a s :=
  ⟨hc, hd⟩

theorem cut_run (h : (reuseProtocol D).Holds c₁) (hc : c₁.shared.Cut f)
    (r : (tokenSystem D).Run Timely c₁ c₂) : c₂.shared.Cut f :=
  (cut_evolves hc h.inv <| h.evolves_due timely_due (sound reuse_reports) r).1

-- A logout leaves no token of the user that could be redeemed.
theorem LogsOut.revoked {userId : String} (h : (reuseProtocol D).Holds c₁)
    (hl : LogsOut D userId c₁ c₂) : (reuseProtocol D).Holds c₂ ∧
      ∀ t ∈ c₂.shared.tokens, t.userId = userId → t.live ≠ true := by
  obtain ⟨n, log, k, hp, ht, hn⟩ := hl
  have m : c₁.Meets Timely (.act n TokenChoice.plain : Label TokenChoice Time TokenRequest) := by
    intro p hp'
    cases hp.symm.trans hp'
    exact ht
  have hc₂ := h.run_due timely_due (sound reuse_reports) (.step .refl m hn)
  refine ⟨hc₂, ?_⟩
  have hd : tokenDue (Detected D) (.commit (.revokeAllForUser userId) log) c₁.shared :=
    ((h.safe _ <| List.mem_of_getElem? hp).call h.inv).1
  obtain ⟨now, ids, hlog⟩ := hd.2 userId rfl
  simp only [System.next, hp] at hn
  obtain ⟨⟨r, s⟩, hx, hn⟩ := Option.map_eq_some_iff.mp hn
  subst hn
  have hs : s = tokenEffect (.revokeLive ids now) c₁.shared := by
    rcases (Database.exec_commit hx).2 with ⟨_, hs⟩ | ⟨_, _, _, he⟩
    case inl =>
      rw [hs, hlog]
      rfl
    case inr => cases he
  have hcov : ∀ t ∈ c₁.shared.tokens, t.userId = userId → t.live = true → t.id ∈ ids := by
    subst hlog
    exact ht _ (.tail _ (.head _))
  intro t ht hu hl
  rw [hs] at ht
  obtain ⟨t₀, h₀, he⟩ := Table.mem_update.mp ht
  split at he
  case isTrue     => exact not_live_of_revoked (he ▸ hl)
  case isFalse hn =>
    subst he
    exact hn <| decide_eq_true ⟨hcov t₀ h₀ hu hl, hl⟩

-- Once a token is reported to have been used before, no token of its family can be redeemed anymore.
-- After a logout, no token can be redeemed that belongs to a family from before.
theorem families_cut_off (h : s.Chained) (r : (tokenSystem D).Run Timely ⟨s, []⟩ c) :
    (∀ i log presented k,
      .call (.act i log (.respond presented (.error (.rejected .reused)))) k ∈ c.procs →
        ∃ t ∈ c.shared.tokens, t.tokenHash = D.hashToken presented ∧
          ∀ c', (tokenSystem D).Run Timely c c' → c'.shared.Cut t.familyId) ∧
    ∀ userId c₁ c₂, LogsOut D userId c c₁ → (tokenSystem D).Run Timely c₁ c₂ →
      ∀ t ∈ c₂.shared.tokens, t.userId = userId → t.live = true →
        t.familyId ∉ c₁.shared.tokens.map (·.familyId) := by
  have hc : (reuseProtocol D).Holds c :=
    (Protocol.Holds.init h).run_due timely_due (sound reuse_reports) r
  refine ⟨fun i log presented k hp => ?_, fun userId c₁ c₂ hl r' t ht hu hlive hm => ?_⟩
  · have hd : tokenDue (Detected D) (.act i log (.respond presented (.error (.rejected .reused)))) c.shared :=
      ((hc.safe _ hp).call hc.inv).1
    have ⟨t, ht, hh, hcut⟩ := hd rfl
    exact ⟨t, ht, hh, fun c' r' => cut_run hc hcut r'⟩
  · have ⟨hc₁, hrev⟩ := hl.revoked hc
    have hi : c₁.shared.Chained := hc₁.inv
    have ⟨t₁, ht₁, hf⟩ := List.mem_map.mp hm
    have ⟨t₂, ht₂, ho⟩ := grows_of_run r' t₁ ht₁
    have hi₂ : c₂.shared.Chained := (hc₁.run_due timely_due (sound reuse_reports) r').inv
    have hu₁ : t₁.userId = userId := by
      rw [← ho.userId_eq, ← hu]
      exact hi₂.users t₂ ht₂ t ht (ho.familyId_eq.trans hf)
    have hcut : c₁.shared.Cut t.familyId := by
      refine ⟨hm, fun u hu' hfu => hrev u hu' ?_⟩
      rw [← hu₁]
      exact hi.users u hu' t₁ ht₁ (hfu.trans hf.symm)
    exact (cut_run hc₁ hcut r').2 t ht rfl hlive

end

-- Whether a process is about to report that a token has been used before.
def reportsReuse (p : Prog TokenStep Database.Step.Answer TokenError Unit) : Bool :=
  match p with
  | .call (.act _ _ (.respond _ (.error (.rejected .reused)))) _ => true
  | _                                                           => false

-- The token is presented once more after it has been exchanged.
def replaying : List (Label TokenChoice Time TokenRequest) :=
  .flatten [
    .spawn (.rotate (tokenText 'a')) :: lookingUp 0, exchanging 0 (tokenText 'b'),
    .spawn (.rotate (tokenText 'a')) :: lookingUp 1, Label.acts 1 [.plain, .plain, .plain]
  ]

theorem pending_report {p : Prog TokenStep Database.Step.Answer TokenError Unit}
    (h : reportsReuse p = true) : ∃ i log presented k,
      p = .call (.act i log (.respond presented (.error (.rejected .reused)))) k := by
  unfold reportsReuse at h
  split at h
  case h_1 => exact ⟨_, _, _, _, rfl⟩
  case h_2 => cases h

theorem families_cut_off_sample : ∃ c : TokenConfig,
    c.shared.tokens.length = 2 ∧ ∃ t ∈ c.shared.tokens, c.shared.Cut t.familyId := by
  have ⟨c, r, hc⟩ := System.exists_run_of_play (C := Timely)
    (S := tokenSystem sampleTokenDeps) (c := ⟨sampleTokenStore, []⟩)
    (p := fun c => c.shared.tokens.length = 2 ∧ c.procs.any reportsReuse) replaying (by decide +kernel)
  have ⟨hl, hp⟩ := of_decide_eq_true hc
  have ⟨p, hp, hr⟩ := List.any_eq_true.mp hp
  obtain ⟨i, log, presented, k, rfl⟩ := pending_report hr
  have ⟨t, ht, _, hcut⟩ := (families_cut_off sampleTokenStore_chained r).1 i log presented k hp
  exact ⟨c, hl, t, ht, hcut c .refl⟩

-- Two clients present the same token, and one of them loses the race.
def losingRace : List (Label TokenChoice Time TokenRequest) :=
  .flatten [
    [.spawn (.rotate (tokenText 'a')), .spawn (.rotate (tokenText 'a'))], lookingUp 0, lookingUp 1,
    exchanging 0 (tokenText 'b'), Label.acts 1 [.plain]
  ]

-- The client that has lost is told so, and the successor is redeemed nevertheless.
def redeemingSuccessor : List (Label TokenChoice Time TokenRequest) :=
  .flatten [Label.acts 1 [.plain], .spawn (.rotate (tokenText 'b')) :: lookingUp 2, exchanging 2 (tokenText 'c')]

theorem family_survives : ∃ c c' : TokenConfig,
    (tokenSystem sampleTokenDeps).Run (fun _ _ => True) ⟨sampleTokenStore, []⟩ c ∧
    (c.procs.length = 2 ∧ c.procs.any reportsReuse = true ∧ c.procs.any (·.isDone) = true) ∧
    (tokenSystem sampleTokenDeps).Run (fun _ _ => True) c c' ∧
    c'.shared.tokens.map (·.familyId) = ["family", "family", "family"] ∧
    ¬c'.shared.Cut "family" ∧ (∀ p ∈ c'.procs, p.isDone = true) := by
  have ⟨c, r, hc⟩ := System.exists_run_of_play (C := fun _ _ => True)
    (S := tokenSystem sampleTokenDeps) (c := ⟨sampleTokenStore, []⟩)
    (p := fun c => (c.procs.length = 2 ∧ c.procs.any reportsReuse ∧ c.procs.any (·.isDone)) ∧
      ((tokenSystem sampleTokenDeps).play (fun _ _ => True) redeemingSuccessor c).any fun c' =>
        c'.shared.tokens.map (·.familyId) = ["family", "family", "family"] ∧
        ¬c'.shared.Cut "family" ∧ ∀ p ∈ c'.procs, p.isDone = true) losingRace (by decide +kernel)
  have ⟨hp, hc⟩ := of_decide_eq_true hc
  have ⟨c', r', hc'⟩ := System.exists_run_of_play (p := fun c' : TokenConfig =>
    c'.shared.tokens.map (·.familyId) = ["family", "family", "family"] ∧
      ¬c'.shared.Cut "family" ∧ ∀ p ∈ c'.procs, p.isDone = true) redeemingSuccessor hc
  exact ⟨c, c', r, hp, r', of_decide_eq_true hc'⟩

end Mergepay.Auth
